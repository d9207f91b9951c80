import Lmkd.Daemon.State

/-!
# Calls that record no victim

Most of what the daemon does between two kills is bookkeeping: system calls on descriptors,
replies to clients, changes of the registry. `Quiet s s'` says that the trace of `s'` extends
that of `s` by calls none of which is a `reaper.kill` or a return of `kill_one_process`, and
`Calm s s'` adds that the kill counters are those of `s`. The operations of the daemon's
state keep both, so that the handlers built from them can be shown calm without unfolding.
-/

namespace Lmkd

/-- Whether an event records a victim: a return of `kill_one_process` or a `reaper.kill`. -/
def Event.isKill : Event → Bool
  | .killOneProcess .. => true
  | .reaperKill .. => true
  | _ => false

namespace Daemon

/-- `s'` follows `s` by calls that record no victim. -/
def Quiet (s s' : Daemon) : Prop :=
  ∃ new, s'.trace = s.trace ++ new ∧ ∀ e ∈ new, e.isKill = false

variable {s s' s'' : Daemon}

theorem Quiet.refl (s : Daemon) : Quiet s s := ⟨[], (List.append_nil _).symm, by simp⟩

theorem Quiet.trans (h₁ : Quiet s s') (h₂ : Quiet s' s'') : Quiet s s'' := by
  obtain ⟨n₁, e₁, k₁⟩ := h₁
  obtain ⟨n₂, e₂, k₂⟩ := h₂
  exact ⟨n₁ ++ n₂, by rw [e₂, e₁, List.append_assoc],
    fun e he => (List.mem_append.mp he).elim (k₁ e) (k₂ e)⟩

theorem Quiet.of_trace (h : s'.trace = s.trace) : Quiet s s' := ⟨[], by simp [h], by simp⟩

theorem Quiet.trace_eq (h : Quiet s s') (e : s''.trace = s'.trace) : Quiet s s'' := by
  obtain ⟨n, e₁, k⟩ := h
  exact ⟨n, e.trans e₁, k⟩

theorem quiet_log {e : Event} (he : e.isKill = false) : Quiet s (s.log e) :=
  ⟨[e], rfl, by simpa using he⟩

theorem quiet_close (fd : Int) : Quiet s (s.close fd) := quiet_log (e := .close fd) rfl

theorem quiet_epollCtlAdd (q : Nat → Bool) (fd : Int) (h : Handler) :
    Quiet s (s.epollCtlAdd q fd h).2 :=
  ⟨[_], rfl, by simp [Event.isKill]⟩

theorem quiet_epollCtlDel (fd : Int) : Quiet s (s.epollCtlDel fd).2 :=
  ⟨[_], rfl, by simp [Event.isKill]⟩

theorem quiet_pidRemove (pid : Int) : Quiet s (s.pidRemove pid).1 := by
  unfold pidRemove
  split
  · exact Quiet.refl s
  · dsimp only
    split
    · exact (Quiet.of_trace rfl).trans (quiet_close _)
    · exact Quiet.of_trace rfl

theorem quiet_stopWaitForProcKill (f : Bool) : Quiet s (s.stopWaitForProcKill f) := by
  unfold stopWaitForProcKill
  split
  · exact Quiet.refl s
  · refine Quiet.trace_eq ?_ rfl
    split
    · exact ((quiet_epollCtlDel _).trans (Quiet.of_trace rfl)).trans (quiet_close _)
    · exact Quiet.refl s

theorem quiet_startWaitForProcKill (q : Nat → Bool) (x : Int) :
    Quiet s (s.startWaitForProcKill q x) := by
  have h₁ : Quiet s (if 0 ≤ s.lastKillPidOrFd then s.stopWaitForProcKill false else s) := by
    split
    · exact quiet_stopWaitForProcKill false
    · exact Quiet.refl s
  unfold startWaitForProcKill
  dsimp only
  generalize (if 0 ≤ s.lastKillPidOrFd then s.stopWaitForProcKill false else s) = s₁ at h₁ ⊢
  refine h₁.trans ?_
  split
  · exact Quiet.of_trace rfl
  · have h₂ := quiet_epollCtlAdd (s := { s₁ with lastKillPidOrFd := x }) q x .killDone
    refine (Quiet.of_trace rfl).trans ?_
    split
    · exact Quiet.trace_eq h₂ rfl
    · exact Quiet.trace_eq (h₂.trans (quiet_close _)) rfl

theorem quiet_incKillcnt (adj : Int) : Quiet s (s.incKillcnt adj) := by
  refine Quiet.of_trace ?_
  unfold incKillcnt
  dsimp only
  split_ifs <;> rfl

theorem quiet_foldl_log {β : Type} (l : List β) (f : β → Event) (hf : ∀ b, (f b).isKill = false) :
    Quiet s (l.foldl (fun s b => s.log (f b)) s) := by
  induction l generalizing s with
  | nil => exact Quiet.refl s
  | cons b l ih => exact (quiet_log (hf b)).trans ih

theorem quiet_ctrlDataWriteLmkKillOccurred (pid : Int) (uid : Nat) (rssKb : Int) :
    Quiet s (s.ctrlDataWriteLmkKillOccurred pid uid rssKb) :=
  quiet_foldl_log _ _ fun _ => rfl

theorem quiet_statsWriteLmkKillOccurred (pid : Int) : Quiet s (s.statsWriteLmkKillOccurred pid) :=
  quiet_foldl_log _ _ fun _ => rfl

/-! ## Calm calls -/

/-- The kill counters: `killcnt_idx`, `killcnt`, `killcnt_free_idx` and `killcnt_total`. -/
def counters (s : Daemon) : (Nat → Nat) × (Nat → Nat) × Nat × Nat :=
  (s.killcntIdx, s.killcnt, s.killcntFreeIdx, s.killcntTotal)

/-- `inc_killcnt` reads nothing but the counters. -/
theorem counters_incKillcnt {s t : Daemon} (h : s.counters = t.counters) (a : Int) :
    (s.incKillcnt a).counters = (t.incKillcnt a).counters := by
  simp only [counters, Prod.mk.injEq] at h
  obtain ⟨h₁, h₂, h₃, h₄⟩ := h
  unfold incKillcnt
  simp only [h₁, h₃]
  split_ifs <;> simp [counters, h₁, h₂, h₃, h₄]

theorem counters_foldl_incKillcnt (adjs : List Int) :
    ∀ {s t : Daemon}, s.counters = t.counters →
      (adjs.foldl incKillcnt s).counters = (adjs.foldl incKillcnt t).counters := by
  induction adjs with
  | nil => exact id
  | cons a adjs ih => exact fun h => ih (counters_incKillcnt h a)

/-- `s'` follows `s` by calls that record no victim and leave the kill counters alone. -/
def Calm (s s' : Daemon) : Prop := Quiet s s' ∧ s'.counters = s.counters

theorem Calm.refl (s : Daemon) : Calm s s := ⟨Quiet.refl s, rfl⟩

theorem Calm.trans (h₁ : Calm s s') (h₂ : Calm s' s'') : Calm s s'' :=
  ⟨h₁.1.trans h₂.1, h₂.2.trans h₁.2⟩

/-- A change of the fields other than the trace and the counters, after calm calls. -/
theorem Calm.frame (h : Calm s s') (ht : s''.trace = s'.trace)
    (hc : s''.counters = s'.counters) : Calm s s'' :=
  ⟨h.1.trace_eq ht, hc.trans h.2⟩

theorem calm_of_frame (ht : s'.trace = s.trace) (hc : s'.counters = s.counters) : Calm s s' :=
  (Calm.refl s).frame ht hc

theorem calm_ask {α : Type} (s : Daemon) (q : Nat → α) : Calm s (s.ask q).2 :=
  calm_of_frame rfl rfl

theorem calm_log {e : Event} (he : e.isKill = false) : Calm s (s.log e) := ⟨quiet_log he, rfl⟩

theorem calm_close (fd : Int) : Calm s (s.close fd) := ⟨quiet_close fd, rfl⟩

theorem calm_epollCtlAdd (q : Nat → Bool) (fd : Int) (h : Handler) :
    Calm s (s.epollCtlAdd q fd h).2 :=
  ⟨quiet_epollCtlAdd q fd h, rfl⟩

theorem calm_epollCtlDel (fd : Int) : Calm s (s.epollCtlDel fd).2 := ⟨quiet_epollCtlDel fd, rfl⟩

theorem calm_pidRemove (pid : Int) : Calm s (s.pidRemove pid).1 := by
  refine ⟨quiet_pidRemove pid, ?_⟩
  unfold pidRemove
  split
  · rfl
  · dsimp only
    split <;> rfl

theorem calm_stopWaitForProcKill (f : Bool) : Calm s (s.stopWaitForProcKill f) := by
  refine ⟨quiet_stopWaitForProcKill f, ?_⟩
  unfold stopWaitForProcKill
  split
  · rfl
  · dsimp only
    split <;> rfl

theorem calm_startWaitForProcKill (q : Nat → Bool) (x : Int) :
    Calm s (s.startWaitForProcKill q x) := by
  refine ⟨quiet_startWaitForProcKill q x, ?_⟩
  have h₁ : (if 0 ≤ s.lastKillPidOrFd then s.stopWaitForProcKill false else s).counters =
      s.counters := by
    split
    · exact (calm_stopWaitForProcKill false).2
    · rfl
  unfold startWaitForProcKill
  dsimp only
  generalize (if 0 ≤ s.lastKillPidOrFd then s.stopWaitForProcKill false else s) = s₁ at h₁ ⊢
  rw [← h₁]
  split
  · rfl
  · split <;> rfl

theorem incKillcnt_trace (a : Int) : (s.incKillcnt a).trace = s.trace := by
  unfold incKillcnt
  dsimp only
  split_ifs <;> rfl

/-- A change of the fields other than the trace and the counters, before calm calls. -/
theorem Calm.frame_left (h : Calm s' s'') (ht : s'.trace = s.trace)
    (hc : s'.counters = s.counters) : Calm s s'' :=
  (calm_of_frame ht hc).trans h

theorem calm_foldl_log {β : Type} (l : List β) (f : β → Event) (hf : ∀ b, (f b).isKill = false) :
    Calm s (l.foldl (fun s b => s.log (f b)) s) := by
  induction l generalizing s with
  | nil => exact Calm.refl s
  | cons b l ih => exact (calm_log (hf b)).trans ih

theorem calm_statsWriteLmkKillOccurred (pid : Int) : Calm s (s.statsWriteLmkKillOccurred pid) :=
  calm_foldl_log _ _ fun _ => rfl

theorem calm_ctrlDataWriteLmkKillOccurred (pid : Int) (uid : Nat) (rssKb : Int) :
    Calm s (s.ctrlDataWriteLmkKillOccurred pid uid rssKb) :=
  calm_foldl_log _ _ fun _ => rfl

/-- The notifications of a kill to the subscribed connections. -/
theorem calm_notify (pid : Int) (uid : Nat) (rssKb : Int) :
    Calm s ((s.statsWriteLmkKillOccurred pid).ctrlDataWriteLmkKillOccurred pid uid rssKb) :=
  (calm_statsWriteLmkKillOccurred pid).trans (calm_ctrlDataWriteLmkKillOccurred pid uid rssKb)

/-- A loop of calm calls is calm. -/
theorem calm_foldl {α : Type} (f : Daemon → α → Daemon) (hf : ∀ s a, Calm s (f s a)) :
    ∀ (l : List α) (s : Daemon), Calm s (l.foldl f s)
  | [], s => Calm.refl s
  | a :: l, s => (hf s a).trans (calm_foldl f hf l (f s a))

/-! ## Calls beside the registry -/

/-- `s'` follows `s` by calm calls that leave the registry alone. -/
def Untouched (s s' : Daemon) : Prop := s'.reg = s.reg ∧ Calm s s'

theorem Untouched.refl (s : Daemon) : Untouched s s := ⟨rfl, Calm.refl s⟩

theorem Untouched.trans (h₁ : Untouched s s') (h₂ : Untouched s' s'') : Untouched s s'' :=
  ⟨h₂.1.trans h₁.1, h₁.2.trans h₂.2⟩

/-- A change of the fields other than the registry, the trace and the counters. -/
theorem Untouched.frame (h : Untouched s s') (hr : s''.reg = s'.reg)
    (ht : s''.trace = s'.trace) (hc : s''.counters = s'.counters) : Untouched s s'' :=
  ⟨hr.trans h.1, h.2.frame ht hc⟩

/-- The state of a call's result, read back from an equation for it. -/
theorem Untouched.of_eq {α : Type} {p : α × Daemon} (h : Untouched s p.2) {a : α} {t : Daemon}
    (e : p = (a, t)) : Untouched s t := by
  subst e; exact h

theorem untouched_of_frame (hr : s'.reg = s.reg) (ht : s'.trace = s.trace)
    (hc : s'.counters = s.counters) : Untouched s s' :=
  (Untouched.refl s).frame hr ht hc

/-- A change of the fields other than the registry, the trace and the counters, before
untouched calls. -/
theorem Untouched.frame_left (h : Untouched s' s'') (hr : s'.reg = s.reg)
    (ht : s'.trace = s.trace) (hc : s'.counters = s.counters) : Untouched s s'' :=
  (untouched_of_frame hr ht hc).trans h

theorem Untouched.setMaxevents (h : Untouched s s') (n : Int) :
    Untouched s { s' with maxevents := n } :=
  h.frame rfl rfl rfl

theorem untouched_ask {α : Type} (s : Daemon) (q : Nat → α) : Untouched s (s.ask q).2 :=
  untouched_of_frame rfl rfl rfl

theorem untouched_log {e : Event} (he : e.isKill = false) : Untouched s (s.log e) :=
  ⟨rfl, calm_log he⟩

theorem untouched_close (fd : Int) : Untouched s (s.close fd) := ⟨rfl, calm_close fd⟩

theorem untouched_epollCtlAdd (q : Nat → Bool) (fd : Int) (h : Handler) :
    Untouched s (s.epollCtlAdd q fd h).2 :=
  ⟨rfl, calm_epollCtlAdd q fd h⟩

theorem untouched_epollCtlDel (fd : Int) : Untouched s (s.epollCtlDel fd).2 :=
  ⟨rfl, calm_epollCtlDel fd⟩

end Daemon

end Lmkd
