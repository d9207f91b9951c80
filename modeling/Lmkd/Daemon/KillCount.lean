import Lmkd.Daemon.LoopRuns
import Lmkd.Daemon.Killcnt

/-!
# The kill counters count the kills of the main loop

`kill_one_process` calls `inc_killcnt` once its `reaper.kill` succeeded, at the score of the
record it kills, and nothing else writes `killcnt_idx`, `killcnt`, `killcnt_free_idx` or
`killcnt_total`. `KillsCounted s s'` says that the counters of `s'` are those of `s` after
`inc_killcnt` at the scores of the kills between the two, in order, as the trace shows them:
one per `reaper.kill` that returned `0`, at the score of the record `kill_one_process` was
called with. Every loop step from a valid registry satisfies it, hence every run of the main
loop; from start-up, `get_killcnt` then counts exactly the kills the daemon made at the
scores of its range.
-/

namespace Lmkd

open Registry Daemon

/-- Whether an event is a `reaper.kill` that succeeded. -/
def Event.isReaped : Event → Bool
  | .reaperKill _ _ _ r => r == 0
  | _ => false

theorem filter_isReaped_eq_nil {new : List Event} (h : ∀ e ∈ new, e.isKill = false) :
    new.filter Event.isReaped = [] :=
  List.filter_eq_nil_iff.mpr fun e he hr => by
    have := h e he
    cases e <;> simp_all [Event.isKill, Event.isReaped]

/-! ## A kill attempt -/

/-- `s'` follows `s` by calls that record no victim and, if `ok`, by a `reaper.kill` of `p`
that succeeded and `inc_killcnt` at the score of `p`. -/
def Attempt (p : Proc) (ok : Bool) (s s' : Daemon) : Prop :=
  ∃ new, s'.trace = s.trace ++ new ∧
    new.filter Event.isReaped = (if ok then [.reaperKill p.pidfd p.pid p.uid 0] else []) ∧
    s'.counters = ((if ok then [p.oomadj] else []).foldl incKillcnt s).counters

section Attempt

variable {p : Proc} {ok : Bool} {s s' s'' : Daemon}

theorem Daemon.Calm.attempt (h : Calm s s') (p : Proc) : Attempt p false s s' := by
  obtain ⟨⟨new, ht, hk⟩, hc⟩ := h
  exact ⟨new, ht, filter_isReaped_eq_nil hk, hc⟩

theorem Daemon.Calm.trans_attempt (h₁ : Calm s s') (h₂ : Attempt p ok s' s'') : Attempt p ok s s'' := by
  obtain ⟨⟨n₁, t₁, k₁⟩, c₁⟩ := h₁
  obtain ⟨n₂, t₂, f₂, c₂⟩ := h₂
  refine ⟨n₁ ++ n₂, by rw [t₂, t₁, List.append_assoc], ?_, c₂.trans (counters_foldl_incKillcnt _ c₁)⟩
  rw [List.filter_append, filter_isReaped_eq_nil k₁, f₂, List.nil_append]

theorem Attempt.trans_calm (h₁ : Attempt p ok s s') (h₂ : Calm s' s'') : Attempt p ok s s'' := by
  obtain ⟨n₁, t₁, f₁, c₁⟩ := h₁
  obtain ⟨⟨n₂, t₂, k₂⟩, c₂⟩ := h₂
  refine ⟨n₁ ++ n₂, by rw [t₂, t₁, List.append_assoc], ?_, c₂.trans c₁⟩
  rw [List.filter_append, filter_isReaped_eq_nil k₂, f₁, List.append_nil]

/-- The kill proper: `reaper.kill` of `p`, and the count at its score once it succeeded. -/
theorem reapProcess_attempt (w : KillWorld) (s : Daemon) (p : Proc) (rssKb : Int) (tm : Timespec) :
    Attempt p (reapProcess w s p rssKb tm).2 s (reapProcess w s p rssKb tm).1 := by
  unfold reapProcess
  dsimp only
  have h₁ := (calm_startWaitForProcKill (s := s) w.epollCtlAdd
    (if p.pidfd < 0 then p.pid else p.pidfd)).trans (calm_ask _ w.reaperKill)
  generalize ((s.startWaitForProcKill w.epollCtlAdd
    (if p.pidfd < 0 then p.pid else p.pidfd)).ask w.reaperKill) = x at h₁ ⊢
  obtain ⟨r, s₁⟩ := x
  obtain ⟨⟨n₁, t₁, k₁⟩, c₁⟩ := h₁
  dsimp only at t₁ c₁ ⊢
  split
  · rename_i hr
    obtain ⟨⟨n₂, t₂, k₂⟩, c₂⟩ :=
      calm_stopWaitForProcKill (s := s₁.log (.reaperKill p.pidfd p.pid p.uid r)) false
    refine ⟨n₁ ++ [.reaperKill p.pidfd p.pid p.uid r] ++ n₂, ?_, ?_, c₂.trans c₁⟩
    · rw [t₂, Daemon.log_trace, t₁]
      simp only [List.append_assoc]
    · simp [List.filter_append, filter_isReaped_eq_nil k₁, filter_isReaped_eq_nil k₂,
        Event.isReaped, hr]
  · rename_i hr
    obtain rfl : r = 0 := not_not.mp hr
    dsimp only
    obtain ⟨⟨n₂, t₂, k₂⟩, c₂⟩ := calm_notify (s := ({ s₁.log (.reaperKill p.pidfd p.pid p.uid 0)
      with lastKillTm := tm }.incKillcnt p.oomadj)) p.pid p.uid rssKb
    refine ⟨n₁ ++ [.reaperKill p.pidfd p.pid p.uid 0] ++ n₂, ?_, ?_, ?_⟩
    · rw [t₂, incKillcnt_trace]
      simp [t₁]
    · simp [List.filter_append, filter_isReaped_eq_nil k₁, filter_isReaped_eq_nil k₂,
        Event.isReaped]
    · rw [c₂, if_pos rfl]
      exact counters_incKillcnt (by exact c₁) _

end Attempt

/-! ## Kills counted over a run -/

/-- `adjs` are the scores of the kills that succeeded in `new`, in order: the `i`-th is the
score of the record whose `reaper.kill` is the `i`-th to succeed, a record that `new` hands to
`kill_one_process`. -/
def Reaped (new : List Event) (adjs : List Int) : Prop :=
  List.Forall₂ (fun e a => ∃ p m r, Event.killOneProcess p m r ∈ new ∧
    e = .reaperKill p.pidfd p.pid p.uid 0 ∧ p.oomadj = a) (new.filter Event.isReaped) adjs

/-- `s'` follows `s` by the kills at the scores `adjs`, which are in range, and by calls that
kill nothing: the counters of `s'` are those of `s` after `inc_killcnt` at each score of
`adjs`. -/
def KillsCounted (s s' : Daemon) : Prop :=
  ∃ new adjs, s'.trace = s.trace ++ new ∧ Reaped new adjs ∧
    (∀ a ∈ adjs, oomScoreAdjMin ≤ a ∧ a ≤ oomScoreAdjMax) ∧
    s'.counters = (adjs.foldl incKillcnt s).counters

theorem Reaped.append {A B : List Event} {x y : List Int} (hA : Reaped A x) (hB : Reaped B y) :
    Reaped (A ++ B) (x ++ y) := by
  unfold Reaped at *
  rw [List.filter_append]
  exact List.rel_append
    (hA.imp fun _ _ ⟨p, m, r, hp, he, ha⟩ => ⟨p, m, r, List.mem_append_left _ hp, he, ha⟩)
    (hB.imp fun _ _ ⟨p, m, r, hp, he, ha⟩ => ⟨p, m, r, List.mem_append_right _ hp, he, ha⟩)

namespace KillsCounted

variable {s s' s'' : Daemon}

theorem refl (s : Daemon) : KillsCounted s s :=
  ⟨[], [], (List.append_nil _).symm, .nil, by simp, rfl⟩

theorem trans (h₁ : KillsCounted s s') (h₂ : KillsCounted s' s'') : KillsCounted s s'' := by
  obtain ⟨n₁, a₁, t₁, r₁, g₁, c₁⟩ := h₁
  obtain ⟨n₂, a₂, t₂, r₂, g₂, c₂⟩ := h₂
  refine ⟨n₁ ++ n₂, a₁ ++ a₂, by rw [t₂, t₁, List.append_assoc], r₁.append r₂,
    fun a ha => (List.mem_append.mp ha).elim (g₁ a) (g₂ a), ?_⟩
  rw [c₂, List.foldl_append]
  exact counters_foldl_incKillcnt a₂ c₁

end KillsCounted

theorem Daemon.Calm.killsCounted {s s' : Daemon} (h : Calm s s') : KillsCounted s s' := by
  obtain ⟨⟨new, ht, hk⟩, hc⟩ := h
  refine ⟨new, [], ht, ?_, by simp, hc⟩
  unfold Reaped
  rw [filter_isReaped_eq_nil hk]
  exact .nil

/-- A kill attempt on `p` ends with the return of `kill_one_process`, which names `p`. -/
theorem Attempt.killsCounted {p : Proc} {ok : Bool} {s s' : Daemon} (h : Attempt p ok s s')
    (hr : oomScoreAdjMin ≤ p.oomadj ∧ p.oomadj ≤ oomScoreAdjMax) (m r : Int) :
    KillsCounted s (s'.log (.killOneProcess p m r)) := by
  obtain ⟨new, ht, hf, hc⟩ := h
  have hlast : Event.killOneProcess p m r ∈ new ++ [.killOneProcess p m r] :=
    List.mem_append_right _ (List.mem_singleton_self _)
  refine ⟨new ++ [.killOneProcess p m r], if ok then [p.oomadj] else [], by simp [ht], ?_,
    fun a ha => ?_, hc⟩
  · unfold Reaped
    rw [List.filter_append, hf]
    cases ok
    · exact .nil
    · exact .cons ⟨p, m, r, hlast, rfl, rfl⟩ .nil
  · cases ok
    · cases ha
    · rw [List.mem_singleton.mp ha]; exact hr

/-! ## The walk of `find_and_kill_process` -/

/-- A relation that every pick of a record and every attempt on a record satisfy, from a
valid registry: it then holds of a whole `find_and_kill_process` (`findAndKillProcess_walk`). -/
structure KillPathStep (w : KillWorld) (R : Daemon → Daemon → Prop) : Prop where
  refl : ∀ s, R s s
  trans : ∀ {s₁ s₂ s₃ : Daemon}, R s₁ s₂ → R s₂ s₃ → R s₁ s₃
  pick : ∀ s (heaviest : Bool) (i : Int), oomScoreAdjMin ≤ i → i ≤ oomScoreAdjMax →
    s.reg.Valid → R s (if heaviest then procGetHeaviest w s i else (s, procAdjTail s.reg i)).1
  attempt : ∀ s a m tm, s.reg.Valid → R s (killOneProcess w s a m tm).1

section KillPathWalk

variable {w : KillWorld} {R : Daemon → Daemon → Prop}

/-- The kill path keeps the registry valid. -/
theorem killPathStep_valid (w : KillWorld) :
    KillPathStep w fun s s' => s.reg.Valid → s'.reg.Valid := by
  refine ⟨fun _ => id, fun h₁ h₂ hv => h₂ (h₁ hv), fun s heaviest i h₁ h₂ _ hv => ?_,
    fun s a m tm _ hv => valid_killOneProcess w hv a m tm⟩
  cases heaviest
  · exact hv
  · exact valid_procGetHeaviest w hv h₁ h₂

theorem findAndKillAt_walk (hR : KillPathStep w R) (m : Int) (tm : Timespec) (heaviest : Bool)
    {i : Int} (h₁ : oomScoreAdjMin ≤ i) (h₂ : i ≤ oomScoreAdjMax) :
    ∀ n s k, s.reg.Valid → R s (findAndKillAt w m tm heaviest i n s k).1
  | 0, s, _, _ => hR.refl s
  | n + 1, s, k, hv => by
    have hp := hR.pick s heaviest i h₁ h₂ hv
    have hv₁ := (killPathStep_valid w).pick s heaviest i h₁ h₂ hv hv
    simp only [findAndKillAt]
    generalize (if heaviest then procGetHeaviest w s i else (s, procAdjTail s.reg i)) = res
      at hp hv₁
    obtain ⟨s₁, procp⟩ := res
    dsimp only at hp hv₁ ⊢
    cases procp with
    | none => exact hp
    | some a =>
      have hk := hR.trans hp (hR.attempt s₁ a m tm hv₁)
      dsimp only
      split
      · exact hk
      · exact hR.trans hk (findAndKillAt_walk hR m tm heaviest h₁ h₂ n _ _
          (valid_killOneProcess w hv₁ a m tm))

theorem findAndKillLoop_walk (hR : KillPathStep w R) (m : Int) (tm : Timespec) :
    ∀ (n : Nat) ch (s : Daemon) k, s.reg.Valid → n ≤ (oomScoreAdjMax + 1 - m).toNat → ∀ s' k',
      findAndKillLoop w m tm n ch s k = some (s', k') → R s s'
  | 0, _, s, _, _, _, s', _, he => by cases he; exact hR.refl s
  | n + 1, ch, s, k, hv, hi, s', k', he => by
    simp only [findAndKillLoop] at he
    split at he
    · cases he
    rename_i hslot
    have hlo : oomScoreAdjMin ≤ m + n := by
      simp only [adjtoslot_eq, oomScoreAdjMin] at hslot ⊢; omega
    have hat : ∀ {R : Daemon → Daemon → Prop}, KillPathStep w R → R s
        (findAndKillAt w m tm (ch || decide (m + n ≤ perceptibleAppAdj)) (m + n)
          (s.reg.brk + 1) s k).1 :=
      fun hR => findAndKillAt_walk hR m tm _ hlo (by omega) _ s k hv
    split at he
    · cases he; exact hat hR
    · exact hR.trans (hat hR) (findAndKillLoop_walk hR m tm n _ _ _
        (hat (killPathStep_valid w) hv) (by omega) s' k' he)

/-- What every pick and every attempt do, a whole `find_and_kill_process` does. -/
theorem findAndKillProcess_walk (hR : KillPathStep w R) {s s' : Daemon} (hv : s.reg.Valid)
    {m : Int} (tm : Timespec) {k : Int} (he : findAndKillProcess w s m tm = some (s', k)) :
    R s s' :=
  findAndKillLoop_walk hR m tm _ _ s 0 hv le_rfl s' k he

end KillPathWalk

/-! ## The kill path -/

section KillPath

variable (w : KillWorld)

theorem calm_killCheck (s : Daemon) (p : Proc) : Calm s (killCheck w s p).2 := by
  refine calm_of_frame (killCheck_frame w s p).2 ?_
  unfold killCheck
  split
  · rfl
  · dsimp only
    repeat' split
    all_goals rfl

/-- `kill_one_process` counts the kill of its record when `reaper.kill` succeeded, and only
then. -/
theorem killOneProcess_counts {s : Daemon} (hv : s.reg.Valid) (a : Nat) (m : Int)
    (tm : Timespec) : KillsCounted s (killOneProcess w s a m tm).1 := by
  unfold killOneProcess
  cases hp : s.reg.procs a with
  | none => exact .refl s
  | some p =>
    obtain ⟨S, hS⟩ := hv
    have hr := hS.oomadj_range a p hp
    have hk := calm_killCheck w s p
    dsimp only
    rcases hck : killCheck w s p with ⟨_ | rssKb, s₁⟩ <;> rw [hck] at hk <;> dsimp only
    · exact ((hk.trans (calm_pidRemove _)).attempt p).killsCounted hr m _
    · have h₂ := hk.trans (calm_ask s₁ w.memoryBeforeKillHook)
      split
      · exact (h₂.attempt p).killsCounted hr m _
      · have ha := reapProcess_attempt w (s₁.ask w.memoryBeforeKillHook).2 p rssKb tm
        rcases hre : reapProcess w (s₁.ask w.memoryBeforeKillHook).2 p rssKb tm with ⟨s₃, _ | _⟩ <;>
          rw [hre] at ha <;> dsimp only <;>
          exact (h₂.trans_attempt (ha.trans_calm (calm_pidRemove _))).killsCounted hr m _

theorem calm_procGetHeaviestLoop (head : Ptr) :
    ∀ n s curr maxp maxsize, Calm s (procGetHeaviestLoop w head n s curr maxp maxsize).1
  | 0, s, _, _, _ => Calm.refl s
  | n + 1, s, curr, maxp, maxsize => by
    unfold procGetHeaviestLoop
    split
    · exact Calm.refl s
    cases curr with
    | slot _ => exact Calm.refl s
    | node a =>
      dsimp only
      have h₁ : Calm s (procGetSize w s (pidAt s.reg a)).2 := ⟨quiet_procGetSize w s _, rfl⟩
      split
      · exact (h₁.trans (calm_pidRemove _)).trans (calm_procGetHeaviestLoop head n ..)
      split <;> exact h₁.trans (calm_procGetHeaviestLoop head n ..)

theorem calm_pick (s : Daemon) (heaviest : Bool) (i : Int) :
    Calm s (if heaviest then procGetHeaviest w s i else (s, procAdjTail s.reg i)).1 := by
  cases heaviest with
  | false => exact Calm.refl s
  | true =>
    rw [if_pos rfl]
    unfold procGetHeaviest
    dsimp only
    split
    · exact Calm.refl s
    · exact calm_procGetHeaviestLoop w _ _ _ _ _ _

/-- `find_and_kill_process` counts the kills it makes, and nothing else. -/
theorem findAndKillProcess_counts {s s' : Daemon} (hv : s.reg.Valid) {m : Int} (tm : Timespec)
    {k : Int} (he : findAndKillProcess w s m tm = some (s', k)) : KillsCounted s s' :=
  findAndKillProcess_walk ⟨.refl, .trans, fun s h i _ _ _ => (calm_pick w s h i).killsCounted,
    fun _ a m tm hv => killOneProcess_counts w hv a m tm⟩ hv tm he

end KillPath

/-! ## The control socket -/

section Ctrl

variable (w : CtrlWorld)

theorem calm_softLimitPath (s : Daemon) (app : Bool) : Calm s (softLimitPath w s app).2 := by
  unfold softLimitPath
  split
  · exact calm_ask s w.cgroupPath
  · exact Calm.refl s

theorem calm_openPidfd (s : Daemon) (pid : Int) : Calm s (openPidfd w s pid).2 := by
  unfold openPidfd
  split
  · exact (calm_ask s w.pidfdOpen).trans (calm_log rfl)
  · exact Calm.refl s

theorem calm_registerOomAdjProc (s : Daemon) (proc : LmkProcprio) (cred : Ucred) :
    Calm s (registerOomAdjProc w s proc cred) := by
  unfold registerOomAdjProc
  dsimp only
  have h₁ := calm_softLimitPath w s (decide (proc.ptype = procTypeApp) && s.props.perAppMemcg)
  split
  · exact h₁
  split
  · have h₂ := h₁.trans (calm_openPidfd w _ proc.pid)
    split
    · exact h₂
    have h₃ := h₂.trans (calm_ask _ w.calloc)
    split
    · exact h₃
    · exact h₃.frame rfl rfl
  · split
    · exact h₁
    · exact h₁.frame rfl rfl

theorem calm_applyProcPrio (s : Daemon) (params : LmkProcprio) (cred : Ucred) :
    Calm s (applyProcPrio w s params cred) := by
  rcases applyProcPrio_cases w s params cred with ⟨n, e⟩ | ⟨-, -, -, n, e⟩ <;> rw [e]
  · exact calm_of_frame rfl rfl
  · exact (calm_of_frame rfl rfl).trans (calm_registerOomAdjProc w _ params cred)

theorem calm_cmdProcsPrio (s : Daemon) (msg : Msg) (fieldCount : Int) (cred : Ucred) :
    Calm s (cmdProcsPrio w s msg fieldCount cred) := by
  unfold cmdProcsPrio
  split
  · exact Calm.refl s
  · exact calm_foldl _ (fun s params => calm_applyProcPrio w s params cred) _ _

theorem calm_cmdProcremove (s : Daemon) (pid : Int) (cred : Ucred) :
    Calm s (cmdProcremove s pid cred) := by
  unfold cmdProcremove
  split
  · exact Calm.refl s
  split
  · exact Calm.refl s
  split
  · exact Calm.refl s
  · exact Calm.frame_left (calm_pidRemove pid) rfl rfl

theorem calm_procpurgeChain (pid : Int) (n : Nat) :
    ∀ (s : Daemon) (c : Option Nat), Calm s (procpurgeChain pid n s c) := by
  induction n with
  | zero => intro s c; exact Calm.refl s
  | succ n ih =>
    intro s c
    cases c with
    | none => exact Calm.refl s
    | some a =>
      unfold procpurgeChain
      split
      · exact Calm.refl s
      split
      · exact ih _ _
      · exact Calm.frame_left ((calm_pidRemove _).trans (ih _ _)) rfl rfl

theorem calm_cmdProcpurge (s : Daemon) (cred : Ucred) : Calm s (cmdProcpurge s cred) := by
  unfold cmdProcpurge
  split
  · exact Calm.refl s
  · exact calm_foldl _ (fun s _ => calm_procpurgeChain _ _ _ _) _ _

theorem calm_ctrlDataClose (s : Daemon) (i : Nat) : Calm s (ctrlDataClose s i) :=
  ⟨⟨[.epollCtlDel (s.dataSock i).sock (s.registered (s.dataSock i).sock),
    .close (s.dataSock i).sock], by simp [ctrlDataClose, closeDataSock, Daemon.epollCtlDel],
    by simp [Event.isKill]⟩,
    by simp only [counters, ctrlDataClose, closeDataSock, Daemon.close, Daemon.epollCtlDel]⟩

theorem calm_ctrlDataRead (s : Daemon) (i : Nat) : Calm s (ctrlDataRead w s i).2 := by
  unfold ctrlDataRead
  dsimp only
  have h₁ := calm_ask s w.recvmsg
  split
  · exact h₁
  · split
    · exact h₁
    · split
      · exact h₁.trans (calm_ctrlDataClose _ i)
      · exact h₁.frame rfl rfl

theorem calm_ctrlConnectHandler (s : Daemon) : Calm s (ctrlConnectHandler w s) := by
  have h₀ : Calm s (freeSlot s).2 := by
    unfold freeSlot
    split
    · exact Calm.refl s
    · exact calm_foldl _ calm_ctrlDataClose _ _
  unfold ctrlConnectHandler
  generalize freeSlot s = x at h₀
  obtain ⟨i, s₁⟩ := x
  dsimp only at h₀ ⊢
  have h₁ := h₀.trans (calm_ask s₁ w.accept)
  split
  · exact h₁.frame rfl rfl
  · split
    · exact h₁.trans (Calm.frame_left ((calm_epollCtlAdd _ _ _).trans (calm_ctrlDataClose _ i))
        rfl rfl)
    · exact h₁.trans ⟨⟨[_], rfl, by simp [Event.isKill]⟩, rfl⟩

theorem RegCommand.calm {s s' : Daemon} {cred : Ucred} (hc : RegCommand w s cred s') :
    Calm s s' := by
  cases hc with
  | procprio params => exact calm_applyProcPrio w s params cred
  | procremove pid => exact calm_cmdProcremove s pid cred
  | procpurge => exact calm_cmdProcpurge s cred
  | procsPrio msg fieldCount => exact calm_cmdProcsPrio w s msg fieldCount cred

/-- A command of a client kills nothing and leaves the kill counters alone. -/
theorem calm_ctrlCommandHandler {s s' : Daemon} (i : Nat)
    (he : ctrlCommandHandler w s i = some s') : Calm s s' := by
  rcases ctrlCommandHandler_cases w he with hu | ⟨_, _, -, hc⟩
  · exact (calm_ctrlDataRead w s i).trans hu.2
  · exact (calm_ctrlDataRead w s i).trans (hc.calm w)

end Ctrl

/-! ## Runs of the main loop -/

/-- Every loop step but a `find_and_kill_process` records no victim and leaves the kill
counters alone. -/
theorem LoopStep.calm_or_findAndKill {s s' : Daemon} (h : LoopStep s s') :
    Calm s s' ∨ ∃ w m tm k, findAndKillProcess w s m tm = some (s', k) := by
  cases h with
  | ask e => exact .inl (e ▸ calm_of_frame rfl rfl : Calm s _)
  | log he => exact .inl (calm_log he)
  | stopWait f => exact .inl (calm_stopWaitForProcKill f)
  | setMon f => exact .inl (untouched_setMon s f).2
  | command w i he => exact .inl (calm_ctrlCommandHandler w i he)
  | connect w => exact .inl (calm_ctrlConnectHandler w _)
  | close i => exact .inl (calm_ctrlDataClose _ i)
  | findAndKill w m tm k he => exact .inr ⟨w, m, tm, k, he⟩

/-- Each loop step from a valid registry counts the kills it makes, and nothing else. -/
theorem LoopStep.killsCounted {s s' : Daemon} (h : LoopStep s s') (hv : s.reg.Valid) :
    KillsCounted s s' := by
  rcases h.calm_or_findAndKill with hc | ⟨w, m, tm, k, he⟩
  · exact hc.killsCounted
  · exact findAndKillProcess_counts w hv tm he

theorem LoopRun.killsCounted {s s' : Daemon} (h : LoopRun s s') (hv : s.reg.Valid) :
    KillsCounted s s' := by
  induction h with
  | refl => exact .refl s
  | tail hr hs ih => exact ih.trans (hs.killsCounted ((LoopRun.regRun hr).valid hv))

/-- Over every run of the main loop from a valid registry, the kill counters count the kills
of the run and nothing else: they end as the counters at its start after `inc_killcnt` at the
score of each record whose `reaper.kill` succeeded, in the order of the trace. -/
theorem mainloopRun_counts_kills {ws : List LoopWorld} {l l' : Lmk}
    (h : mainloopRun ws l = some l') (hv : l.d.reg.Valid) : KillsCounted l.d l'.d :=
  (mainloopRun_loopRun h (.refl _)).killsCounted hv

set_option maxRecDepth 100000 in
/-- The turn under a critical PSI event kills `appA`, and counts that kill. -/
theorem mainloopRun_counts_kills_kill :
    let w := pressureTurn appA 1 (fun _ => ⟨10, 0⟩) [⟨4, .mpEvent vmpressLevelCritical, 2⟩]
    ∃ l', mainloopRun [w] psiMonitored = some l' ∧ KillsCounted psiMonitored.d l'.d ∧
      l'.d.killcntTotal = 1 := by
  intro w
  have hk : (mainloopRun [w] psiMonitored).map (·.d.killcntTotal) = some 1 := by decide
  obtain ⟨l', h, hl'⟩ := Option.map_eq_some'.mp hk
  exact ⟨l', h, mainloopRun_counts_kills h threeApps_wf, hl'⟩

theorem getKillcntLoop_congr {s t : Daemon} (h₁ : s.killcntIdx = t.killcntIdx)
    (h₂ : s.killcnt = t.killcnt) (hi : Int) :
    ∀ n m c, s.getKillcntLoop hi n m c = t.getKillcntLoop hi n m c
  | 0, _, _ => rfl
  | n + 1, m, c => by simp only [getKillcntLoop, h₁, h₂, getKillcntLoop_congr h₁ h₂ hi n]

/-- `get_killcnt` reads nothing but the counters. -/
theorem getKillcnt_congr {s t : Daemon} (h : s.counters = t.counters) (lo hi : Int) :
    s.getKillcnt lo hi = t.getKillcnt lo hi := by
  simp only [counters, Prod.mk.injEq] at h
  obtain ⟨h₁, h₂, -, h₄⟩ := h
  simp only [getKillcnt, h₄, getKillcntLoop_congr h₁ h₂]

/-- From start-up, the counters answer `LMK_GETKILLCNT` with the kills the main loop made:
`killcnt_total` counts all of them, and `get_killcnt` over a range from a score counts those
at the scores of the range, as long as at most `MAX_DISTINCT_OOM_ADJ` scores were killed and
none more than `65535` times. -/
theorem mainloopRun_getKillcnt {ws : List LoopWorld} {l l' : Lmk}
    (h : mainloopRun ws l = some l') (hv : l.d.reg.Valid)
    (h₀ : l.d.killcntIdx = fun _ => killcntInvalidIdx) (hf : l.d.killcntFreeIdx = 0)
    (ht : l.d.killcntTotal = 0) :
    ∃ new adjs, l'.d.trace = l.d.trace ++ new ∧ Reaped new adjs ∧
      (adjs.dedup.length ≤ maxDistinctOomAdj → (∀ a, adjs.count a ≤ 65535) →
        l'.d.killcntTotal = adjs.length ∧
        ∀ lo hi, lo ≤ hi → oomScoreAdjMin ≤ lo → lo ≤ oomScoreAdjMax →
          l'.d.getKillcnt lo hi = some ↑(adjs.countP fun a => lo ≤ a ∧ a ≤ hi)) := by
  obtain ⟨new, adjs, htr, hr, hrange, hc⟩ := (mainloopRun_loopRun h (.refl _)).killsCounted hv
  refine ⟨new, adjs, htr, hr, fun hd hcount => ⟨?_, fun lo hi hle hlo₁ hlo₂ => ?_⟩⟩
  · rw [show l'.d.killcntTotal = (adjs.foldl incKillcnt l.d).killcntTotal from
      congrArg (fun c => c.2.2.2) hc]
    exact (killcntTotal_foldl l.d adjs h₀ hf ht hrange hd hcount).1
  · rw [getKillcnt_congr hc]
    exact getKillcnt_foldl_of_le l.d adjs h₀ hf ht hrange hd hcount hle hlo₁ hlo₂

set_option maxRecDepth 100000 in
theorem mainloopRun_getKillcnt_kill :
    let w := pressureTurn appA 1 (fun _ => ⟨10, 0⟩) [⟨4, .mpEvent vmpressLevelCritical, 2⟩]
    ∃ l', mainloopRun [w] psiMonitored = some l' ∧
      ∃ new adjs, l'.d.trace = psiMonitored.d.trace ++ new ∧ Reaped new adjs ∧
        (adjs.dedup.length ≤ maxDistinctOomAdj → (∀ a, adjs.count a ≤ 65535) →
          l'.d.killcntTotal = adjs.length ∧
          ∀ lo hi, lo ≤ hi → oomScoreAdjMin ≤ lo → lo ≤ oomScoreAdjMax →
            l'.d.getKillcnt lo hi = some ↑(adjs.countP fun a => lo ≤ a ∧ a ≤ hi)) := by
  intro w
  obtain ⟨l', h⟩ := Option.isSome_iff_exists.mp (by decide : (mainloopRun [w] psiMonitored).isSome)
  exact ⟨l', h, mainloopRun_getKillcnt h threeApps_wf rfl rfl rfl⟩

end Lmkd
