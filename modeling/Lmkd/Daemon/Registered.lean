import Lmkd.Daemon.KillCount

/-!
# The main loop kills registered processes only

`kill_one_process` is handed a record of the registry, and `reaper.kill` the pid of the
record `kill_one_process` was handed; whatever `reaper.kill` answers, `kill_one_process`
then removes the record. Within a `find_and_kill_process` the registry only loses records
(`Registry.Shrinks`), so every record the kill path hands over was in the registry when the
kill path began, and no pid it signalled is registered when it ends. Every other loop step
records no victim. So each kill of a run of the main loop is of a process a client
registered, and the step that kills it takes it out of the registry. Within a step each pid
is signalled at most once, and over a run a pid is signalled at most once for each time it
was registered.
-/

namespace Lmkd

namespace Registry

/-- Every record of `r'` is one of `r`, at the same address and up to its chain link: `r'`
is `r` with records taken out. -/
def Shrinks (r r' : Registry) : Prop :=
  ∀ c q, r'.procs c = some q → ∃ q', r.procs c = some q' ∧ q'.body = q.body

theorem Shrinks.refl (r : Registry) : Shrinks r r := fun _ q h => ⟨q, h, rfl⟩

theorem Shrinks.trans {r₁ r₂ r₃ : Registry} (h₁ : Shrinks r₁ r₂) (h₂ : Shrinks r₂ r₃) :
    Shrinks r₁ r₃ := fun c q h => by
  obtain ⟨q₂, hq₂, e₂⟩ := h₂ c q h
  obtain ⟨q₁, hq₁, e₁⟩ := h₁ c q₂ hq₂
  exact ⟨q₁, hq₁, e₁.trans e₂⟩

/-- Records kept as they were, or taken out. -/
theorem shrinks_of_frame {r r' : Registry}
    (h : ∀ c, (r'.procs c).map Proc.body = (r.procs c).map Proc.body ∨ r'.procs c = none) :
    Shrinks r r' := fun c q hq => by
  rcases h c with e | e <;> rw [hq] at e
  · obtain ⟨q', h', e'⟩ := Option.map_eq_some'.mp e.symm
    exact ⟨q', h', e'⟩
  · cases e

end Registry

open Registry

/-- Whether the event is a `reaper.kill` of `pid`. -/
def Event.signals (pid : Int) : Event → Bool
  | .reaperKill _ p _ _ => p == pid
  | _ => false

theorem Event.signals_iff {pid : Int} {e : Event} :
    e.signals pid ↔ ∃ fd uid r, e = .reaperKill fd pid uid r := by
  cases e <;> simp [Event.signals]

/-- The `reaper.kill`s of `pid` in `new`. -/
def signalsOf (pid : Int) (new : List Event) : Nat := new.countP (Event.signals pid)

theorem signalsOf_pos {pid : Int} {new : List Event} :
    0 < signalsOf pid new ↔ ∃ fd uid r, Event.reaperKill fd pid uid r ∈ new := by
  simp only [signalsOf, List.countP_pos_iff, Event.signals_iff]
  constructor
  · rintro ⟨e, he, fd, uid, r, rfl⟩; exact ⟨fd, uid, r, he⟩
  · rintro ⟨fd, uid, r, he⟩; exact ⟨_, he, fd, uid, r, rfl⟩

theorem signalsOf_of_quiet {pid : Int} {new : List Event} (h : ∀ e ∈ new, e.isKill = false) :
    signalsOf pid new = 0 :=
  List.countP_eq_zero.mpr fun e he hs => by
    obtain ⟨fd, uid, r, rfl⟩ := Event.signals_iff.mp hs
    cases h _ he

/-- The victims `new` records are records of `r`: `kill_one_process` was handed a record of
`r`, with its members as `r` holds them, and `reaper.kill` the pid of a record of `r`. -/
def KillsRegistered (r : Registry) (new : List Event) : Prop :=
  (∀ p m res, Event.killOneProcess p m res ∈ new →
    ∃ c q, r.procs c = some q ∧ q.body = p.body) ∧
  ∀ fd pid uid res, Event.reaperKill fd pid uid res ∈ new → ∃ c q, r.procs c = some q ∧ q.pid = pid

namespace KillsRegistered

variable {r r' : Registry} {A B : List Event}

theorem append (hA : KillsRegistered r A) (hB : KillsRegistered r B) :
    KillsRegistered r (A ++ B) :=
  ⟨fun p m res h => (List.mem_append.mp h).elim (hA.1 p m res) (hB.1 p m res),
    fun fd pid uid res h => (List.mem_append.mp h).elim (hA.2 fd pid uid res) (hB.2 fd pid uid res)⟩

theorem of_shrinks (h : Shrinks r r') (hA : KillsRegistered r' A) : KillsRegistered r A := by
  refine ⟨fun p m res he => ?_, fun fd pid uid res he => ?_⟩
  · obtain ⟨c, q, hq, e⟩ := hA.1 p m res he
    obtain ⟨q', hq', e'⟩ := h c q hq
    exact ⟨c, q', hq', e'.trans e⟩
  · obtain ⟨c, q, hq, e⟩ := hA.2 fd pid uid res he
    obtain ⟨q', hq', e'⟩ := h c q hq
    exact ⟨c, q', hq', by rw [← Proc.body_pid, e', Proc.body_pid, e]⟩

theorem of_quiet (h : ∀ e ∈ A, e.isKill = false) : KillsRegistered r A :=
  ⟨fun _ _ _ he => absurd (h _ he) (by simp [Event.isKill]),
    fun _ _ _ _ he => absurd (h _ he) (by simp [Event.isKill])⟩

/-- The victims of `A` that are the one event `e`. -/
theorem sub {e : Event} (h : KillsRegistered r A) (he : e ∈ A) : KillsRegistered r [e] :=
  ⟨fun p m res h' => h.1 p m res (List.mem_singleton.mp h' ▸ he),
    fun fd pid uid res h' => h.2 fd pid uid res (List.mem_singleton.mp h' ▸ he)⟩

end KillsRegistered

/-- No record of `r` has a pid that `reaper.kill` was called on in `new`. -/
def Unregisters (r : Registry) (new : List Event) : Prop :=
  ∀ fd pid uid res, Event.reaperKill fd pid uid res ∈ new → ∀ c q, r.procs c = some q → q.pid ≠ pid

namespace Unregisters

variable {r r' : Registry} {A B : List Event}

theorem append (hA : Unregisters r A) (hB : Unregisters r B) : Unregisters r (A ++ B) :=
  fun fd pid uid res h => (List.mem_append.mp h).elim (hA fd pid uid res) (hB fd pid uid res)

theorem of_shrinks (h : Shrinks r r') (hA : Unregisters r A) : Unregisters r' A :=
  fun fd pid uid res he c q hq => by
    obtain ⟨q', hq', e⟩ := h c q hq
    rw [← Proc.body_pid, ← e, Proc.body_pid]
    exact hA fd pid uid res he c q' hq'

theorem of_quiet (h : ∀ e ∈ A, e.isKill = false) : Unregisters r A :=
  fun _ _ _ _ he => absurd (h _ he) (by simp [Event.isKill])

theorem sub {e : Event} (h : Unregisters r A) (he : e ∈ A) : Unregisters r [e] :=
  fun fd pid uid res h' => h fd pid uid res (List.mem_singleton.mp h' ▸ he)

end Unregisters

/-! ## The kill path -/

/-- A pid signalled in `A`, which `r` no longer holds, is not signalled in `B`, whose
signals are of pids `r` holds. -/
theorem signalsOf_append_le {r : Registry} {A B : List Event} (hA : Unregisters r A)
    (hB : KillsRegistered r B) {pid : Int} (h₁ : signalsOf pid A ≤ 1)
    (h₂ : signalsOf pid B ≤ 1) : signalsOf pid (A ++ B) ≤ 1 := by
  have : signalsOf pid A = 0 ∨ signalsOf pid B = 0 := by
    by_contra hc
    push_neg at hc
    obtain ⟨fd, uid, r₁, ha⟩ := signalsOf_pos.mp (Nat.pos_of_ne_zero hc.1)
    obtain ⟨fd', uid', r₂, hb⟩ := signalsOf_pos.mp (Nat.pos_of_ne_zero hc.2)
    obtain ⟨c, q, hq, e⟩ := hB.2 _ _ _ _ hb
    exact hA fd pid uid r₁ ha c q hq e
  simp only [signalsOf, List.countP_append] at this h₁ h₂ ⊢
  omega

/-- What the kill path does as the registry sees it: it only takes records out, the
victims it records are records it started with, the pids it signalled are gone, and it
signalled each at most once. -/
def KillsFrom (s s' : Daemon) : Prop :=
  Shrinks s.reg s'.reg ∧
    ∃ new, s'.trace = s.trace ++ new ∧ KillsRegistered s.reg new ∧ Unregisters s'.reg new ∧
      ∀ pid, signalsOf pid new ≤ 1

theorem KillsFrom.refl (s : Daemon) : KillsFrom s s :=
  ⟨.refl _, [], (List.append_nil _).symm, .of_quiet (by simp), .of_quiet (by simp),
    fun _ => Nat.zero_le 1⟩

theorem KillsFrom.trans {s₁ s₂ s₃ : Daemon} (h₁ : KillsFrom s₁ s₂) (h₂ : KillsFrom s₂ s₃) :
    KillsFrom s₁ s₃ := by
  obtain ⟨hs₁, new₁, e₁, k₁, u₁, c₁⟩ := h₁
  obtain ⟨hs₂, new₂, e₂, k₂, u₂, c₂⟩ := h₂
  exact ⟨hs₁.trans hs₂, new₁ ++ new₂, by rw [e₂, e₁, List.append_assoc],
    k₁.append (k₂.of_shrinks hs₁), (u₁.of_shrinks hs₂).append u₂,
    fun pid => signalsOf_append_le u₁ k₂ (c₁ pid) (c₂ pid)⟩

section KillPath

variable (w : KillWorld)

/-- A pick of `proc_get_heaviest` or `proc_adj_tail` records no victim and only takes out
records. -/
theorem killsFrom_pick (s : Daemon) (heaviest : Bool) {i : Int} (h₁ : oomScoreAdjMin ≤ i)
    (h₂ : i ≤ oomScoreAdjMax) (hv : s.reg.Valid) :
    KillsFrom s (if heaviest then procGetHeaviest w s i else (s, procAdjTail s.reg i)).1 := by
  obtain ⟨S, hS⟩ := hv
  obtain ⟨-, ⟨new, htr, hq, -⟩, hfr⟩ := pick_spec w s hS heaviest h₁ h₂
  exact ⟨shrinks_of_frame fun c => (hfr c).imp_right And.right, new, htr, .of_quiet hq,
    .of_quiet hq, fun _ => (signalsOf_of_quiet hq).trans_le (Nat.zero_le 1)⟩

/-- `kill_one_process` removes its record, unless it returned at once after the pre-kill
hook. -/
theorem killOneProcess_removes (s : Daemon) {a : Nat} {p : Proc} (m : Int) (tm : Timespec)
    (hp : s.reg.procs a = some p) :
    (killOneProcess w s a m tm).1.reg = ((s.reg.pidRemove p.pid).map Prod.fst).getD s.reg ∨
      (killOneProcess w s a m tm).1.trace =
        s.trace ++ [.killOneProcess p m (killOneProcess w s a m tm).2] := by
  obtain ⟨hreg, htr⟩ := killCheck_frame w s p
  unfold killOneProcess
  rw [hp]
  dsimp only
  rcases hk : killCheck w s p with ⟨_ | rssKb, s₁⟩ <;> rw [hk] at hreg htr <;>
    dsimp only at hreg htr ⊢
  · exact .inl (by simp [Daemon.pidRemove_reg, hreg])
  · split
    · exact .inr (by simp [htr])
    · obtain ⟨hreg₂, -⟩ := reapProcess_frame w (s₁.ask w.memoryBeforeKillHook).2 p rssKb tm
      rcases hr : reapProcess w (s₁.ask w.memoryBeforeKillHook).2 p rssKb tm with ⟨s₂, _ | _⟩ <;>
        rw [hr] at hreg₂ <;> dsimp only at hreg₂ ⊢ <;>
        exact .inl (by simp [Daemon.pidRemove_reg, hreg₂, hreg])

/-- An attempt of `kill_one_process` hands over its own record, signals at most its pid,
and takes out that record if it signalled it. -/
theorem killsFrom_killOneProcess (s : Daemon) (a : Nat) (m : Int) (tm : Timespec)
    (hv : s.reg.Valid) : KillsFrom s (killOneProcess w s a m tm).1 := by
  cases hp : s.reg.procs a with
  | none => unfold killOneProcess; rw [hp]; exact .refl s
  | some p =>
    obtain ⟨S, hS⟩ := hv
    obtain ⟨r', hr', hr'a, hbody, -, -⟩ := hS.pidRemove_of_procs hp
    have hsh : Shrinks s.reg r' :=
      shrinks_of_frame fun c => if hc : c = a then .inr (hc ▸ hr'a) else .inl (hbody c hc)
    have hgone : ∀ c q, r'.procs c = some q → q.pid ≠ p.pid := fun c q hq e => by
      obtain ⟨q', hq', eb⟩ := hsh c q hq
      have hca := hS.pid_inj c a q' p hq' hp (by rw [← Proc.body_pid, eb, Proc.body_pid, e])
      rw [hca, hr'a] at hq
      cases hq
    have hkop : KillsRegistered s.reg [.killOneProcess p m (killOneProcess w s a m tm).2] :=
      ⟨fun q m' res he => by cases List.mem_singleton.mp he; exact ⟨a, p, hp, rfl⟩,
        fun _ _ _ _ he => by cases List.mem_singleton.mp he⟩
    obtain ⟨hreg, mid, htr, hmid, hcount⟩ := killOneProcess_spec w s m tm hp
    -- each signal is a kill event, and the return of `kill_one_process` is no signal
    have honce : ∀ pid, signalsOf pid (mid ++ [.killOneProcess p m (killOneProcess w s a m tm).2])
        ≤ 1 := fun pid => by
      have hle : signalsOf pid mid ≤ mid.countP Event.isKill :=
        List.countP_mono_left fun e _ hs => by
          obtain ⟨fd, uid, r, rfl⟩ := Event.signals_iff.mp hs; rfl
      have h₀ : [Event.killOneProcess p m (killOneProcess w s a m tm).2].countP
          (Event.signals pid) = 0 := by simp [Event.signals]
      simp only [signalsOf, List.countP_append] at hle ⊢
      omega
    rcases killOneProcess_removes w s m tm hp with hrm | htr₁
    · have hrm' : (killOneProcess w s a m tm).1.reg = r' := by rw [hrm, hr']; rfl
      unfold KillsFrom
      rw [hrm']
      refine ⟨hsh, mid ++ [.killOneProcess p m (killOneProcess w s a m tm).2],
        by rw [htr, List.append_assoc], .append ⟨fun q m' res he => ?_,
        fun fd pid uid res he => ?_⟩ hkop, fun fd pid uid res he => ?_, honce⟩
      · obtain ⟨_, _, _, e⟩ := hmid _ he rfl; cases e
      · obtain ⟨_, _, _, e⟩ := hmid _ he rfl; cases e; exact ⟨a, p, hp, rfl⟩
      · rcases List.mem_append.mp he with he | he
        · obtain ⟨_, _, _, e⟩ := hmid _ he rfl; cases e; exact hgone
        · cases List.mem_singleton.mp he
    · have hsh' : Shrinks s.reg (killOneProcess w s a m tm).1.reg := by
        rcases hreg with e | e
        · rw [e]; exact .refl _
        · rw [e, hr']; exact hsh
      exact ⟨hsh', _, htr₁, hkop, (fun _ _ _ _ he => by cases List.mem_singleton.mp he),
        fun pid => by simp [signalsOf, Event.signals]⟩

/-- `find_and_kill_process` hands over records it started with, and only takes records
out. -/
theorem findAndKillProcess_killsFrom {s s' : Daemon} (hv : s.reg.Valid) {m : Int} (tm : Timespec)
    {k : Int} (he : findAndKillProcess w s m tm = some (s', k)) : KillsFrom s s' :=
  findAndKillProcess_walk ⟨.refl, .trans, fun s h _ h₁ h₂ hv => killsFrom_pick w s h h₁ h₂ hv,
    fun s a m tm hv => killsFrom_killOneProcess w s a m tm hv⟩ hv tm he

end KillPath

/-! ## Runs of the main loop -/

/-- The victims of a loop step from a valid registry are records of the registry it began
with, the pids it signalled are not registered when it ends, and it signalled each pid at
most once. -/
theorem LoopStep.killsRegistered {s s' : Daemon} (h : LoopStep s s') (hv : s.reg.Valid) :
    ∃ seg, s'.trace = s.trace ++ seg ∧ KillsRegistered s.reg seg ∧ Unregisters s'.reg seg ∧
      ∀ pid, signalsOf pid seg ≤ 1 := by
  rcases h.calm_or_findAndKill with hc | ⟨w, m, tm, k, he⟩
  · obtain ⟨seg, htr, hq⟩ := hc.1
    exact ⟨seg, htr, .of_quiet hq, .of_quiet hq,
      fun _ => (signalsOf_of_quiet hq).trans_le (Nat.zero_le 1)⟩
  · exact (findAndKillProcess_killsFrom w hv tm he).2

/-- A loop step, with the events it appended to the trace: its victims were registered
when it began, the pids it signalled are not registered when it ends, and it signalled
each pid at most once. -/
def Attributed (s s' : Daemon) : Prop :=
  LoopStep s s' ∧ ∃ seg, s'.trace = s.trace ++ seg ∧ KillsRegistered s.reg seg ∧
    Unregisters s'.reg seg ∧ ∀ pid, signalsOf pid seg ≤ 1

/-- Whether `pid` has a record. -/
def Daemon.holds (s : Daemon) (pid : Int) : Bool := (s.reg.pidLookup pid).isSome

/-- The steps of the run through the states `s :: ss` that end with `pid` registered
although it was not when they began. -/
def registrations (pid : Int) : Daemon → List Daemon → Nat
  | _, [] => 0
  | s, t :: ss => (if !s.holds pid && t.holds pid then 1 else 0) + registrations pid t ss

theorem holds_of_killsRegistered {s : Daemon} (hv : s.reg.Valid) {seg : List Event}
    (hk : KillsRegistered s.reg seg) {pid : Int} (hp : 0 < signalsOf pid seg) :
    s.holds pid = true := by
  obtain ⟨S, hS⟩ := hv
  obtain ⟨fd, uid, r, he⟩ := signalsOf_pos.mp hp
  obtain ⟨c, q, hq, e⟩ := hk.2 _ _ _ _ he
  cases hl : s.reg.pidLookup pid with
  | none => exact absurd e (hS.pidLookup_eq_none.mp hl c q hq)
  | some _ => simp [Daemon.holds, hl]

theorem not_holds_of_unregisters {s : Daemon} (hv : s.reg.Valid) {seg : List Event}
    (hu : Unregisters s.reg seg) {pid : Int} (hp : 0 < signalsOf pid seg) :
    s.holds pid = false := by
  obtain ⟨S, hS⟩ := hv
  obtain ⟨fd, uid, r, he⟩ := signalsOf_pos.mp hp
  simp only [Daemon.holds, hS.pidLookup_eq_none.mpr (hu _ _ _ _ he), Option.isSome_none]

/-- The count of a step and the run after it, against the registrations: a step that
signals `pid` began with it registered and ends with it not. -/
theorem signals_step_le {x y r : Nat} {ha ht : Bool} (h₁ : x ≤ 1)
    (h₂ : y ≤ (if ht then 1 else 0) + r) (h₃ : x = 0 ∨ (ha = true ∧ ht = false)) :
    x + y ≤ (if ha then 1 else 0) + ((if !ha && ht then 1 else 0) + r) := by
  rcases h₃ with rfl | ⟨rfl, rfl⟩
  · cases ha <;> cases ht <;> simp at h₂ ⊢ <;> omega
  · simp at h₂ ⊢; omega

/-- Over a run of loop steps from a valid registry: the run is a chain of attributed steps,
and a pid is signalled at most once for its registration at the start and once for each
step that registers it. -/
theorem LoopRun.attributed {s s' : Daemon} (h : LoopRun s s') (hv : s.reg.Valid) :
    ∃ ss, List.Chain Attributed s ss ∧ (s :: ss).getLast (List.cons_ne_nil _ _) = s' ∧
      ∃ new, s'.trace = s.trace ++ new ∧ ∀ pid,
        signalsOf pid new ≤ (if s.holds pid then 1 else 0) + registrations pid s ss := by
  revert hv
  induction h using Relation.ReflTransGen.head_induction_on with
  | refl => exact fun _ => ⟨[], .nil, rfl, [], by simp, fun _ => by simp [signalsOf]⟩
  | @head a t hs _ ih =>
    intro hv
    have ht : t.reg.Valid := RegRun.valid (.single hs.regMove) hv
    obtain ⟨seg, e, k, u, c⟩ := hs.killsRegistered hv
    obtain ⟨ss, hc, hl, new, e', hn⟩ := ih ht
    refine ⟨t :: ss, .cons ⟨hs, seg, e, k, u, c⟩ hc, hl, seg ++ new,
      by rw [e', e, List.append_assoc], fun pid => ?_⟩
    have h₃ : signalsOf pid seg = 0 ∨ (a.holds pid = true ∧ t.holds pid = false) := by
      rcases Nat.eq_zero_or_pos (signalsOf pid seg) with h₀ | hp
      · exact .inl h₀
      · exact .inr ⟨holds_of_killsRegistered hv k hp, not_holds_of_unregisters ht u hp⟩
    rw [signalsOf, List.countP_append, registrations]
    exact signals_step_le (c pid) (hn pid) h₃

/-- Over every run of the main loop from a valid registry, lmkd kills registered processes
only, and each at most once per registration. The run is a chain of loop steps, each with
the events it appended to the trace: each call of `kill_one_process` and each `reaper.kill`
it made is of a record registered, with its members, when the step began, and the step
ends with the pid it signalled no longer registered. Over the whole run, `reaper.kill` is
called on a pid at most once for its registration at the start and once for each step that
registers it. -/
theorem mainloopRun_kills_registered {ws : List LoopWorld} {l l' : Lmk}
    (h : mainloopRun ws l = some l') (hv : l.d.reg.Valid) :
    ∃ ss, List.Chain Attributed l.d ss ∧ (l.d :: ss).getLast (List.cons_ne_nil _ _) = l'.d ∧
      ∃ new, l'.d.trace = l.d.trace ++ new ∧ ∀ pid,
        signalsOf pid new ≤ (if l.d.holds pid then 1 else 0) + registrations pid l.d ss :=
  (mainloopRun_loopRun h (.refl _)).attributed hv

set_option maxRecDepth 100000 in
/-- The turn under a critical PSI event kills `appA`, a registered process, once. -/
theorem mainloopRun_kills_registered_kill :
    let w := pressureTurn appA 1 (fun _ => ⟨10, 0⟩) [⟨4, .mpEvent vmpressLevelCritical, 2⟩]
    ∃ l', mainloopRun [w] psiMonitored = some l' ∧
      Event.reaperKill appA.pidfd appA.pid appA.uid 0 ∈ l'.d.trace ∧
      ∃ ss, List.Chain Attributed psiMonitored.d ss ∧
        (psiMonitored.d :: ss).getLast (List.cons_ne_nil _ _) = l'.d ∧
        ∃ new, l'.d.trace = psiMonitored.d.trace ++ new ∧ ∀ pid,
          signalsOf pid new ≤ (if psiMonitored.d.holds pid then 1 else 0) +
            registrations pid psiMonitored.d ss := by
  intro w
  have hk : (mainloopRun [w] psiMonitored).map
      (fun l => decide (Event.reaperKill appA.pidfd appA.pid appA.uid 0 ∈ l.d.trace)) =
      some true := by
    decide
  obtain ⟨l', h, hl'⟩ := Option.map_eq_some'.mp hk
  exact ⟨l', h, of_decide_eq_true hl', mainloopRun_kills_registered h threeApps_wf⟩

end Lmkd
