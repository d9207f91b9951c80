import Lmkd.Daemon.Ctrl
import Lmkd.Daemon.Kill

/-!
# Runs of the registry

Every operation of the daemon that changes the registry, as one step relation: the
commands of the control socket (registrations and score changes, `PROCREMOVE`,
`PROCPURGE`, a message without credentials), new connections and dropped ones, the
watchdog's `pid_invalidate`, and the removals of the kill path (`proc_get_heaviest`,
`kill_one_process`, `find_and_kill_process`). Each step keeps the registry invariant, so
every registry reachable from `init()` satisfies it.
-/

namespace Lmkd

open Registry

/-- One operation of the daemon on the registry. -/
inductive RegStep : Daemon → Daemon → Prop
  /-- A message on data connection `i`, handled without undefined behaviour. -/
  | command {s s' : Daemon} (w : CtrlWorld) (i : Nat) (h : ctrlCommandHandler w s i = some s') :
      RegStep s s'
  | connect {s : Daemon} (w : CtrlWorld) : RegStep s (ctrlConnectHandler w s)
  /-- A hang-up on data connection `i`. -/
  | close {s : Daemon} (i : Nat) : RegStep s (ctrlDataClose s i)
  /-- The watchdog marks the record of `pid` as not to be killed again. -/
  | invalidate {s : Daemon} (pid : Int) : RegStep s { s with reg := s.reg.pidInvalidate pid }
  | heaviest {s : Daemon} (w : KillWorld) (adj : Int) (h₁ : oomScoreAdjMin ≤ adj)
      (h₂ : adj ≤ oomScoreAdjMax) : RegStep s (procGetHeaviest w s adj).1
  | killOne {s : Daemon} (w : KillWorld) (a : Nat) (m : Int) (tm : Timespec) :
      RegStep s (killOneProcess w s a m tm).1
  | findAndKill {s s' : Daemon} (w : KillWorld) (m : Int) (tm : Timespec) (k : Int)
      (h : findAndKillProcess w s m tm = some (s', k)) : RegStep s s'

theorem valid_killOneProcess (w : KillWorld) {s : Daemon} (h : s.reg.Valid) (a : Nat) (m : Int)
    (tm : Timespec) : (killOneProcess w s a m tm).1.reg.Valid := by
  cases hp : s.reg.procs a with
  | none => unfold killOneProcess; rw [hp]; exact h
  | some p =>
    obtain ⟨S, hS⟩ := h
    exact (killOneProcess_attempt w s hS hp m tm).1

theorem valid_procGetHeaviest (w : KillWorld) {s : Daemon} (h : s.reg.Valid) {adj : Int}
    (h₁ : oomScoreAdjMin ≤ adj) (h₂ : adj ≤ oomScoreAdjMax) :
    (procGetHeaviest w s adj).1.reg.Valid := by
  obtain ⟨S, hS⟩ := h
  obtain ⟨S', hS', -⟩ := (procGetHeaviest_spec w s hS h₁ h₂).wf
  exact ⟨S', hS'⟩

/-- Each operation keeps the registry invariant. -/
theorem RegStep.valid {s s' : Daemon} (hs : RegStep s s') (h : s.reg.Valid) : s'.reg.Valid := by
  cases hs with
  | command w i he => exact valid_ctrlCommandHandler w h i he
  | connect w => exact valid_ctrlConnectHandler w h
  | close i => exact valid_ctrlDataClose h i
  | invalidate pid =>
    obtain ⟨S, hS⟩ := h
    exact (hS.pidInvalidate pid).valid
  | heaviest w adj h₁ h₂ => exact valid_procGetHeaviest w h h₁ h₂
  | killOne w a m tm => exact valid_killOneProcess w h a m tm
  | findAndKill w m tm k he => exact findAndKillProcess_valid w h tm he

/-- Every registry reached from `init()` by any sequence of the daemon's operations, their
error paths included, satisfies the registry invariant: scores in range, one record per
pid on the chain of its hash, well-formed circular bucket lists, the same records on the
chains and in the buckets, each in the bucket of its score, and every bucket ordered by
the time its records entered it. -/
theorem registry_valid_of_run {s₀ s : Daemon} (h₀ : s₀.reg = Registry.init)
    (h : Relation.ReflTransGen RegStep s₀ s) : s.reg.Valid := by
  induction h with
  | refl => rw [h₀]; exact valid_init
  | tail _ hs ih => exact hs.valid ih

set_option maxRecDepth 100000 in
/-- A peer of pid `1000` connects, registers `100` at score 900 and `200` at 800, rescores
`100` to 700 and removes `200`; then `kill_one_process` kills `100`. -/
theorem registry_valid_of_run_register_kill :
    ∃ s, Relation.ReflTransGen RegStep (Daemon.atRest defaultProps Registry.init) s ∧
      s.reg.Valid ∧ s.reg.pidLookup 100 = none ∧ s.reg.pidLookup 200 = none ∧
      Event.killOneProcess ⟨100, 20, 10000, 700, 1000, true, none⟩ 0 1000 ∈ s.trace := by
  have hprio : ∀ (pid adj : Int) (s : Daemon),
      ctrlCommandHandler (msgWorld (procprioMsg pid adj)) s 0 = some (applyProcPrio (msgWorld (procprioMsg pid adj))
        (ctrlDataRead (msgWorld (procprioMsg pid adj)) s 0).2 ((procprioMsg pid adj).procprio 3)
        ⟨1000, 1000⟩) :=
    fun _ _ _ => ctrlCommandHandler_procprio rfl rfl rfl
  have hrun : Relation.ReflTransGen RegStep (Daemon.atRest defaultProps Registry.init) _ :=
    .tail (.tail (.tail (.tail (.tail
    (.single (.connect (acceptWorld 10 true))) (.command _ 0 (hprio 100 900 _)))
    (.command _ 0 (hprio 200 800 _))) (.command _ 0 (hprio 100 700 _)))
    (.command _ 0 (@ctrlCommandHandler_procremove (msgWorld ⟨8, some .procremove, [200],
      some ⟨1000, 1000⟩⟩) _ 0 _ ⟨1000, 1000⟩ rfl rfl rfl)))
    (.killOne ⟨fun _ => 10, fun _ => some "Tgid:\t100\nVmRSS:\t4000 kB\nVmSwap:\t0 kB\n".toList,
      fun _ => true, fun _ => 0, fun _ => true, fun _ => 0⟩ 0 0 Timespec.zero)
  exact ⟨_, hrun, registry_valid_of_run rfl hrun, by decide⟩

end Lmkd
