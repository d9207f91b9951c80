import Lmkd.Daemon.Mainloop
import Lmkd.Daemon.Run

/-!
# What a turn of the main loop does

Three layers of steps say what the main loop can do, each built on the one below.
`LoopStep` is what it does to the daemon: it reads an answer of the kernel, logs a call
that records no victim, stops waiting for a kill, sets a static of the monitors, handles a
client's command, accepts or drops a connection, or runs `find_and_kill_process`. `EngStep` is what a handler does: a
loop step, with the engines' statics changed at will, or a request of `poll_params`
(`PollStep`: start polling at a polling period, change the period, pause, resume).
`TurnStep` is what a turn does around the handlers: a loop step, a `call_handler`, or the
resume of a paused polling when a kill wait times out.

The walk is done once: the engines of `mp_event_psi` and `mp_event_common`, the
memory-event listener and every handler are runs of `EngStep`s, and every turn of
`mainloop()` is a run of `TurnStep`s, each lemma extending a run that ends in the state
the function starts from. An invariant over whole runs of the main loop is then one lemma
per kind of step. The registry's is here: the main loop moves the registry by registry
steps only, so `Registry.Valid` holds over every run.
-/

namespace Lmkd

open Registry

/-- One thing a turn of the main loop does to the daemon. -/
inductive LoopStep : Daemon → Daemon → Prop
  /-- Answers of the kernel read: only the stream of questions moves on. -/
  | ask {s s' : Daemon} (h : { s with asked := s'.asked } = s') : LoopStep s s'
  /-- A call that records no victim. -/
  | log (s : Daemon) {e : Event} (he : e.isKill = false) : LoopStep s (s.log e)
  | stopWait (s : Daemon) (finished : Bool) : LoopStep s (s.stopWaitForProcKill finished)
  /-- A static of the monitors set: the memevent listener's start of a direct reclaim. -/
  | setMon (s : Daemon) (f : Monitors → Monitors) : LoopStep s (s.setMon f)
  /-- A message on data connection `i`, handled without undefined behaviour. -/
  | command {s s' : Daemon} (w : CtrlWorld) (i : Nat) (h : ctrlCommandHandler w s i = some s') :
      LoopStep s s'
  | connect (s : Daemon) (w : CtrlWorld) : LoopStep s (ctrlConnectHandler w s)
  /-- A hang-up on data connection `i`. -/
  | close (s : Daemon) (i : Nat) : LoopStep s (ctrlDataClose s i)
  | findAndKill {s s' : Daemon} (w : KillWorld) (m : Int) (tm : Timespec) (k : Int)
      (h : findAndKillProcess w s m tm = some (s', k)) : LoopStep s s'

/-- A run of loop steps. -/
def LoopRun : Daemon → Daemon → Prop := Relation.ReflTransGen LoopStep

namespace LoopRun

variable {s s' s'' : Daemon}

theorem refl (s : Daemon) : LoopRun s s := Relation.ReflTransGen.refl

theorem trans (h₁ : LoopRun s s') (h₂ : LoopRun s' s'') : LoopRun s s'' :=
  Relation.ReflTransGen.trans h₁ h₂

/-- Answers read at the end of a run. -/
theorem ask (h : LoopRun s s') (e : { s' with asked := s''.asked } = s'') : LoopRun s s'' :=
  h.tail (.ask e)

theorem lmkAsk {α : Type} {l : Lmk} {q : Nat → α} (h : LoopRun s l.d) :
    LoopRun s (l.ask q).2.d :=
  h.ask rfl

theorem stopWait (h : LoopRun s s') (f : Bool) : LoopRun s (s'.stopWaitForProcKill f) :=
  h.tail (.stopWait s' f)

end LoopRun

/-! ## What a handler does -/

/-- `PSI_POLL_PERIOD_SHORT_MS` or `PSI_POLL_PERIOD_LONG_MS`, the periods a handler polls at. -/
def IsPollPeriod (i : Int) : Prop := i = psiPollPeriodShortMs ∨ i = psiPollPeriodLongMs

/-- A request of a handler to `poll_params`. -/
inductive PollStep : PollingParams → PollingParams → Prop
  /-- `POLLING_START`, with the period set in the same handler. -/
  | start (p : PollingParams) {i : Int} (hi : IsPollPeriod i) :
      PollStep p { p with update := .start, pollingIntervalMs := i }
  | period (p : PollingParams) {i : Int} (hi : IsPollPeriod i) :
      PollStep p { p with pollingIntervalMs := i }
  | pause (p : PollingParams) : PollStep p { p with update := .pause }
  | resume (p : PollingParams) : PollStep p { p with update := .resume }

/-- One thing a handler does: a loop step of the daemon that keeps `poll_params`, or a
request to `poll_params` that keeps the daemon. Either may change the engines' statics. -/
inductive EngStep : Lmk → Lmk → Prop
  | daemon {l l' : Lmk} (h : LoopStep l.d l'.d) (hp : l'.poll = l.poll) : EngStep l l'
  | poll {l l' : Lmk} (hd : l'.d = l.d) (h : PollStep l.poll l'.poll) : EngStep l l'

/-- A run of handler steps. -/
def EngRun : Lmk → Lmk → Prop := Relation.ReflTransGen EngStep

namespace EngRun

variable {l₀ l l' : Lmk}

/-- Answers read, or the engines' statics changed, at the end of a run. -/
theorem ask (h : EngRun l₀ l) (e : { l.d with asked := l'.d.asked } = l'.d)
    (hp : l'.poll = l.poll) : EngRun l₀ l' :=
  h.tail (.daemon (.ask e) hp)

theorem lmkAsk {α : Type} {q : Nat → α} (h : EngRun l₀ l) : EngRun l₀ (l.ask q).2 :=
  h.ask rfl rfl

theorem stopWait (h : EngRun l₀ l) (f : Bool) :
    EngRun l₀ (l.onDaemon (·.stopWaitForProcKill f)) :=
  h.tail (.daemon (.stopWait _ f) rfl)

theorem pause (h : EngRun l₀ l) : EngRun l₀ (l.setUpdate .pause) :=
  h.tail (.poll rfl (.pause _))

theorem setDirectReclaimStartTm (h : EngRun l₀ l) (tm : Timespec) :
    EngRun l₀ (l.setDirectReclaimStartTm tm) :=
  h.tail (.daemon (.setMon l.d fun m => { m with directReclaimStartTm := tm }) rfl)

end EngRun

theorem EngStep.loopRun {l l' : Lmk} (h : EngStep l l') : LoopRun l.d l'.d := by
  cases h with
  | daemon h _ => exact .single h
  | poll hd _ => rw [hd]; exact .refl _

theorem EngRun.loopRun {l l' : Lmk} (h : EngRun l l') : LoopRun l.d l'.d := by
  induction h with
  | refl => exact .refl _
  | tail _ hs ih => exact ih.trans hs.loopRun

/-! ## The engines -/

section Walk

variable {l₀ : Lmk}

theorem isKillPending_run (w : EngineWorld) {l : Lmk} (hs : EngRun l₀ l) :
    EngRun l₀ (isKillPending w l).2 := by
  unfold isKillPending
  split
  · exact hs
  · split
    · exact hs
    · exact hs.lmkAsk

theorem psiKillGate_run (w : EngineWorld) (t : Timespec) {l : Lmk} (hs : EngRun l₀ l) :
    EngRun l₀ (psiKillGate w t l).2 := by
  have h := isKillPending_run w hs
  unfold psiKillGate
  generalize isKillPending w l = p at h ⊢
  obtain ⟨kp, l₁⟩ := p
  dsimp only at h ⊢
  split
  · exact h
  · exact h.stopWait !kp

/-- The state a pass of the PSI engine ends in, whether it returned or decided; `none`
when it was undefined. -/
def PassEnd.lmk : PassEnd → Option Lmk
  | .ret l => some l
  | .decided _ l => some l
  | .undefined => none

theorem psiVerdict_run (w : EngineWorld) (x : PsiInputs) (mi : MemInfo) (v : Verdict) {l : Lmk}
    (hs : EngRun l₀ l) : ∀ l' ∈ (psiVerdict w x mi v l).lmk, EngRun l₀ l' := by
  unfold psiVerdict
  dsimp only
  split
  · rintro _ ⟨⟩; exact hs.lmkAsk
  · split <;> rintro _ ⟨⟩ <;> exact hs.ask rfl rfl

theorem psiPass_run (w : EngineWorld) (x : PsiInputs) (mi : MemInfo) (t : Timespec) (v : Verdict)
    {l : Lmk} (hs : EngRun l₀ l) : ∀ l' ∈ (psiPass w x mi t v l).lmk, EngRun l₀ l' := by
  unfold psiPass
  split
  · dsimp only
    split
    · rintro _ ⟨⟩; exact hs.lmkAsk
    · split
      · rintro _ ⟨⟩
      · exact psiVerdict_run w x mi v (hs.ask rfl rfl)
  · exact psiVerdict_run w x mi v hs

theorem isPollPeriod_ite (c : Prop) [Decidable c] :
    IsPollPeriod (if c then psiPollPeriodShortMs else psiPollPeriodLongMs) := by
  split
  · exact .inl rfl
  · exact .inr rfl

/-- The label `no_kill` asks for a pause, or sets the period with or without a start. -/
theorem psiNoKill_run (events : Nat) (swapLow : Bool) (reclaim : Reclaim) {l : Lmk}
    (hs : EngRun l₀ l) : EngRun l₀ (psiNoKill events swapLow reclaim l) := by
  unfold psiNoKill
  split
  · exact hs.pause
  · dsimp only
    split
    · exact hs.tail (.poll rfl (.start _ (isPollPeriod_ite _)))
    · exact hs.tail (.poll rfl (.period _ (isPollPeriod_ite _)))

theorem engineKill_run {w : EngineWorld} {l l' : Lmk} {r : KillReason} {m : Int} {t : Timespec}
    {k : Int} (h : engineKill w l r m t = some (k, l')) (hs : EngRun l₀ l) : EngRun l₀ l' := by
  unfold engineKill at h
  split at h
  · cases h
  · next d k' he =>
    cases h
    have hl : EngRun l₀ (l.onDaemon (·.log (.findAndKillProcess r m))) :=
      hs.tail (.daemon (.log _ rfl) rfl)
    exact hl.tail (.daemon (.findAndKill _ _ _ _ he) rfl)

theorem psiKill_run {w : EngineWorld} {x : PsiInputs} {t : Timespec} {v : Verdict} {l l' : Lmk}
    (h : psiKill w x t v l = some l') (hs : EngRun l₀ l) : EngRun l₀ l' := by
  unfold psiKill at h
  dsimp only at h
  split at h
  · cases h
  · next k l₁ he =>
    cases h
    have hk := engineKill_run he hs
    exact psiNoKill_run _ _ _ (by split <;> exact hk.ask rfl rfl)

/-- The decision loop of `mp_event_psi`, on its fuel. -/
theorem psiDecide_run {w : EngineWorld} {x : PsiInputs} {mi : MemInfo} {t : Timespec} :
    ∀ {n : Nat} {v : Verdict} {l l' : Lmk}, psiDecide w x mi t n v l = some l' →
      EngRun l₀ l → EngRun l₀ l'
  | 0, _, _, _, h, hs => by cases h; exact hs
  | n + 1, v, l, l', h, hs => by
    unfold psiDecide at h
    have hp := psiPass_run w x mi t v hs
    split at h
    · next l₁ he =>
      cases h
      exact hp _ (he ▸ rfl)
    · cases h
    · next v₁ l₁ he =>
      replace hp := hp l₁ (he ▸ rfl)
      split at h
      · cases h
        exact psiNoKill_run _ _ _ hp
      split at h
      · exact psiDecide_run h (hp.ask rfl rfl)
      · exact psiKill_run h hp

theorem psiMeasure_run {w : EngineWorld} {src : EventSource} {ev : Nat} {t : Timespec}
    {l l' : Lmk} (h : psiMeasure w src ev t l = some l') (hs : EngRun l₀ l) : EngRun l₀ l' := by
  unfold psiMeasure at h
  dsimp only at h
  split at h
  · cases h; exact hs.lmkAsk
  split at h
  · cases h; exact hs.ask rfl rfl
  split at h
  · cases h; exact psiNoKill_run _ _ _ (hs.ask rfl rfl)
  split at h
  · cases h
  · exact psiDecide_run h (hs.ask rfl rfl)

theorem mpEventPsi_run {w : EngineWorld} {src : EventSource} {ev : Nat} {l l' : Lmk}
    (h : mpEventPsi w src ev l = some l') (hs : EngRun l₀ l) : EngRun l₀ l' := by
  unfold mpEventPsi at h
  dsimp only at h
  split at h
  · cases h; exact hs.lmkAsk
  split at h
  · cases h; exact hs.lmkAsk
  split at h
  · cases h
    exact psiNoKill_run _ _ _ (psiKillGate_run w _ (hs.ask rfl rfl))
  · exact psiMeasure_run h (psiKillGate_run w _ (hs.ask rfl rfl))

theorem foldl_run {β : Type} (f : Nat × Lmk → β → Nat × Lmk)
    (hf : ∀ p x, EngRun l₀ p.2 → EngRun l₀ (f p x).2) :
    ∀ (xs : List β) (p : Nat × Lmk), EngRun l₀ p.2 → EngRun l₀ (xs.foldl f p).2
  | [], _, hs => hs
  | x :: xs, p, hs => foldl_run f hf xs (f p x) (hf p x hs)

theorem upgradeFromEventfds_run (w : EngineWorld) (level : Nat) {l : Lmk} (hs : EngRun l₀ l) :
    EngRun l₀ (upgradeFromEventfds w level l).2 :=
  foldl_run _ (fun _ _ hp => by dsimp only; split <;> first | exact hp | exact hp.ask rfl rfl) _ _ hs

theorem commonKillGate_run (w : EngineWorld) (t : Timespec) {l : Lmk} (hs : EngRun l₀ l) :
    EngRun l₀ (commonKillGate w t l).2 := by
  unfold commonKillGate
  split
  · have h := isKillPending_run w hs
    generalize isKillPending w l = p at h ⊢
    obtain ⟨pending, l₁⟩ := p
    dsimp only
    split
    · exact h
    · exact h.stopWait true
  · exact hs.stopWait false

theorem commonDoKill_run {w : EngineWorld} {level : Nat} {m : Int} {mi : MemInfo} {t : Timespec}
    {l l' : Lmk} (h : commonDoKill w level m mi t l = some l') (hs : EngRun l₀ l) :
    EngRun l₀ l' := by
  unfold commonDoKill at h
  dsimp only at h
  split at h
  · split at h
    · cases h
    · next k l₁ he =>
      cases h
      have hk := engineKill_run he hs
      split
      · exact hk.pause
      · exact hk
  split at h
  · cases h; exact hs
  split at h
  · cases h
  · next k l₁ he =>
    have hk := engineKill_run he hs
    split at h <;> cases h
    · exact hk
    · have hr : EngRun l₀ { l₁ with eng := { l₁.eng with lastReportTm := t } } := hk.ask rfl rfl
      split
      · exact hr.pause
      · exact hr

theorem commonPressure_run {w : EngineWorld} {level : Nat} {mi : MemInfo} {t : Timespec}
    {l l' : Lmk} (h : commonPressure w level mi t l = some l') (hs : EngRun l₀ l) :
    EngRun l₀ l' := by
  unfold commonPressure at h
  dsimp only at h
  repeat' split at h
  all_goals first
    | (cases h; exact hs.ask rfl rfl)
    | exact commonDoKill_run h (hs.ask rfl rfl)

theorem mpEventCommon_run {w : EngineWorld} {data ev : Nat} {l l' : Lmk}
    (h : mpEventCommon w data ev l = some l') (hs : EngRun l₀ l) : EngRun l₀ l' := by
  unfold mpEventCommon at h
  dsimp only at h
  have hu : EngRun l₀
      (if !l.d.mon.usePsiMonitors then upgradeFromEventfds w data l else (data, l)).2 := by
    split
    · exact upgradeFromEventfds_run w data hs
    · exact hs
  generalize (if !l.d.mon.usePsiMonitors then upgradeFromEventfds w data l else (data, l)) = u
    at h hu
  obtain ⟨level, l₁⟩ := u
  dsimp only at h hu
  generalize hl₂ : (if l₁.d.mon.usePsiMonitors = true ∧ ev ≠ 0 ∧
      Option.all (fun h => decide (h.data < (data : Int))) l₁.poll.pollHandler = true then _
    else l₁) = l₂ at h
  have h₂ : EngRun l₀ l₂ := by
    rw [← hl₂]
    split
    · exact hu.tail (.poll rfl (.start _ (.inl rfl)))
    · exact hu
  split at h
  · cases h; exact h₂.lmkAsk
  rename_i t _
  -- the kill gate, then the readings of `meminfo` and `zoneinfo`
  have hg := commonKillGate_run w t (h₂.lmkAsk (q := w.clock))
  generalize commonKillGate w t (l₂.ask w.clock).2 = g at h hg
  obtain ⟨skip, g⟩ := g
  dsimp only at h hg
  split at h
  · cases h; exact hg
  split at h
  · cases h; exact hg.lmkAsk
  split at h
  · cases h; exact hg.ask rfl rfl
  have h₃ : EngRun l₀ ((g.ask w.meminfo).2.ask w.zoneinfo).2 := hg.ask rfl rfl
  generalize ((g.ask w.meminfo).2.ask w.zoneinfo).2 = l₃ at h h₃
  repeat' split at h
  all_goals first
    | (cases h; exact h₃.ask rfl rfl)
    | exact commonDoKill_run h h₃
    | exact commonPressure_run h h₃
    | exact commonPressure_run h (h₃.ask rfl rfl)

/-! ## Handlers -/

theorem memEventStep_run {w : EngineWorld} {t : Timespec} {l l' : Lmk} {e : MemEvent}
    (h : memEventStep w t l e = some l') (hs : EngRun l₀ l) : EngRun l₀ l' := by
  cases e with
  | vendorLmkKill reason minAdj =>
    dsimp only [memEventStep] at h
    exact mpEventPsi_run h hs
  | updateZoneinfo =>
    unfold memEventStep updateZoneinfoWatermarks at h
    dsimp only at h
    split at h
    · cases h; exact hs.ask rfl rfl
    · obtain ⟨_, -, rfl⟩ := Option.map_eq_some'.mp h
      exact hs.ask rfl rfl
  | directReclaimBegin | directReclaimEnd => cases h; exact hs.setDirectReclaimStartTm _
  | _ => cases h; exact hs.ask rfl rfl

theorem foldlM_memEventStep_run {w : EngineWorld} {t : Timespec} :
    ∀ {evs : List MemEvent} {l l' : Lmk}, evs.foldlM (memEventStep w t) l = some l' →
      EngRun l₀ l → EngRun l₀ l'
  | [], _, _, h, hs => by cases h; exact hs
  | e :: evs, l, l', h, hs => by
    rw [List.foldlM_cons] at h
    obtain ⟨l₁, h₁, h₂⟩ := Option.bind_eq_some.mp h
    exact foldlM_memEventStep_run h₂ (memEventStep_run h₁ hs)

theorem memeventListenerNotification_run {w : LoopWorld} {l l' : Lmk}
    (h : memeventListenerNotification w l = some l') (hs : EngRun l₀ l) : EngRun l₀ l' := by
  unfold memeventListenerNotification at h
  dsimp only at h
  split at h
  · cases h; exact hs.lmkAsk.setDirectReclaimStartTm _
  · split at h
    · cases h; exact hs.lmkAsk.lmkAsk.setDirectReclaimStartTm _
    · exact foldlM_memEventStep_run h (hs.ask rfl rfl)

/-- Every handler the main loop calls: a client's command, a connection, a pressure event,
the end of a kill wait, the memory-event listener. -/
theorem runHandler_run {w : LoopWorld} {hd : Handler} {ev : Nat} {l l' : Lmk}
    (h : runHandler w hd ev l = some l') (hs : EngRun l₀ l) : EngRun l₀ l' := by
  cases hd with
  | ctrlConnect => cases h; exact hs.tail (.daemon (.connect _ _) rfl)
  | ctrlData i =>
    dsimp only [runHandler] at h
    split at h
    · obtain ⟨d, hd, rfl⟩ := Option.map_eq_some'.mp h
      exact hs.tail (.daemon (.command _ _ hd) rfl)
    · cases h; exact hs
  | mpEvent level =>
    dsimp only [runHandler] at h
    split at h
    · exact mpEventPsi_run h hs
    · exact mpEventCommon_run h hs
  | killDone => cases h; exact (hs.stopWait true).tail (.poll rfl (.resume _))
  | killFail => cases h; exact (hs.stopWait false).tail (.poll rfl (.resume _))
  | kernelPoll => cases h; exact hs
  | memevent => exact memeventListenerNotification_run h hs

end Walk

/-! ## What a turn does -/

/-- One thing a turn of the main loop does around its handlers: a loop step of the daemon,
a `call_handler`, or the resume of a paused polling when a kill wait times out. -/
inductive TurnStep : Lmk → Lmk → Prop
  | daemon {l l' : Lmk} (h : LoopStep l.d l'.d) (he : l'.eng = l.eng) (hp : l'.poll = l.poll) :
      TurnStep l l'
  | call {l l' : Lmk} (w : LoopWorld) (hd : Handler) (events : Nat)
      (h : callHandler w hd events l = some l') : TurnStep l l'
  | resume (l : Lmk) (now : Timespec) :
      TurnStep l { l with poll := resumePolling { l.poll with update := .resume } now }

/-- A run of turn steps. -/
def TurnRun : Lmk → Lmk → Prop := Relation.ReflTransGen TurnStep

/-- Answers read at the end of a run. -/
theorem TurnRun.ask {l₀ l l' : Lmk} (h : TurnRun l₀ l) (e : { l.d with asked := l'.d.asked } = l'.d)
    (he : l'.eng = l.eng) (hp : l'.poll = l.poll) : TurnRun l₀ l' :=
  h.tail (.daemon (.ask e) he hp)

theorem TurnRun.lmkAsk {l₀ l : Lmk} (h : TurnRun l₀ l) {α : Type} (q : Nat → α) :
    TurnRun l₀ (l.ask q).2 :=
  h.ask rfl rfl rfl

/-- A call of a handler moves the daemon by loop steps. -/
theorem TurnStep.loopRun {l l' : Lmk} (h : TurnStep l l') : LoopRun l.d l'.d := by
  cases h with
  | daemon h => exact .single h
  | call w hd ev h =>
    unfold callHandler at h
    obtain ⟨l₁, h₁, rfl⟩ := Option.map_eq_some'.mp h
    have h₂ := (runHandler_run h₁ .refl).loopRun
    split
    · exact h₂
    · exact h₂.ask rfl
  | resume => exact .refl _

theorem TurnRun.loopRun {l l' : Lmk} (h : TurnRun l l') : LoopRun l.d l'.d := by
  induction h with
  | refl => exact .refl _
  | tail _ hs ih => exact ih.trans hs.loopRun

section Turns

variable {l₀ : Lmk}

theorem dispatch_run (e : EpollEvent) {l : Lmk} (hs : TurnRun l₀ l) : TurnRun l₀ (dispatch e l) :=
  hs.tail (.daemon (.log _ rfl) rfl rfl)

/-- The hangup pass closes the connections whose peer hung up, each a loop step. -/
theorem hangupPass_run {w : LoopWorld} :
    ∀ {evs : List EpollEvent} {l l' : Lmk}, hangupPass w evs l = some l' →
      TurnRun l₀ l → TurnRun l₀ l'
  | [], _, _, h, hs => by cases h; exact hs
  | e :: evs, l, l', h, hs => by
    unfold hangupPass at h
    split at h
    · cases h; exact hs
    split at h
    · obtain ⟨l₁, h₁, h₂⟩ := Option.bind_eq_some.mp h
      refine hangupPass_run h₂ ?_
      split at h₁
      · exact (dispatch_run e hs).tail (.call _ _ _ h₁)
      · rw [← Option.some.inj h₁]
        exact (dispatch_run e hs).tail (.daemon (.close _ _) rfl rfl)
    · exact hangupPass_run h hs

theorem eventPass_run {w : LoopWorld} :
    ∀ {evs : List EpollEvent} {l l' : Lmk}, eventPass w evs l = some l' →
      TurnRun l₀ l → TurnRun l₀ l'
  | [], _, _, h, hs => by cases h; exact hs
  | e :: evs, l, l', h, hs => by
    unfold eventPass at h
    split at h
    · cases h; exact hs
    split at h
    · exact eventPass_run h hs
    · obtain ⟨l₁, h₁, h₂⟩ := Option.bind_eq_some.mp h
      exact eventPass_run h₂ ((dispatch_run e hs).tail (.call _ _ _ h₁))

theorem handleBatch_run {w : LoopWorld} {b : Option (List EpollEvent)} {l l' : Lmk}
    (h : handleBatch w b l = some l') (hs : TurnRun l₀ l) : TurnRun l₀ l' := by
  unfold handleBatch at h
  split at h
  · cases h; exact hs
  · obtain ⟨l₁, h₁, h₂⟩ := Option.bind_eq_some.mp h
    exact eventPass_run h₂ (hangupPass_run h₁ hs)

theorem epollWait_run (w : LoopWorld) {l : Lmk} (hs : TurnRun l₀ l) :
    TurnRun l₀ (epollWait w l).2 := by
  unfold epollWait
  split
  · exact hs
  · exact hs.lmkAsk w.epollWait

theorem pollingTurn_run {w : LoopWorld} {hd : Handler} {l l' : Lmk}
    (h : pollingTurn w hd l = some l') (hs : TurnRun l₀ l) : TurnRun l₀ l' := by
  unfold pollingTurn at h
  dsimp only at h
  split at h
  · exact (hs.lmkAsk w.eng.clock).tail (.call _ _ _ h)
  · obtain ⟨l₁, h₁, h₂⟩ := Option.bind_eq_some.mp h
    refine handleBatch_run h₂ ?_
    split at h₁
    · exact ((epollWait_run w (hs.lmkAsk w.eng.clock)).lmkAsk w.eng.clock).tail (.call _ _ _ h₁)
    · cases h₁
      exact (epollWait_run w (hs.lmkAsk w.eng.clock)).lmkAsk w.eng.clock

theorem killWaitTurn_run {w : LoopWorld} {l l' : Lmk} (h : killWaitTurn w l = some l')
    (hs : TurnRun l₀ l) : TurnRun l₀ l' := by
  unfold killWaitTurn at h
  dsimp only at h
  generalize hp : (if _ > (0 : Int) then epollWait w _ else (some [], _)) = p at h
  have hb : TurnRun l₀ p.2 := by
    rw [← hp]
    split
    · exact epollWait_run w (hs.lmkAsk w.eng.clock)
    · exact hs.lmkAsk w.eng.clock
  have hw : TurnRun l₀ (p.2.onDaemon (·.stopWaitForProcKill false)) :=
    hb.tail (.daemon (.stopWait _ false) rfl rfl)
  split at h
  · split at h <;> cases h
    · exact (hw.lmkAsk w.eng.clock).tail (.resume _ _)
    · exact hw
  · exact handleBatch_run h hb

/-- One turn of `mainloop()`: polling, waiting for a kill, or waiting for events. -/
theorem mainloopStep_run {w : LoopWorld} {l l' : Lmk} (h : mainloopStep w l = some l')
    (hs : TurnRun l₀ l) : TurnRun l₀ l' := by
  unfold mainloopStep at h
  split at h
  · cases h; exact hs
  split at h
  · exact pollingTurn_run h hs
  split at h
  · exact killWaitTurn_run h hs
  · exact handleBatch_run h (epollWait_run w hs)

/-- Every run of the main loop is a run of turn steps. -/
theorem mainloopRun_turnRun : ∀ {ws : List LoopWorld} {l l' : Lmk}, mainloopRun ws l = some l' →
    TurnRun l₀ l → TurnRun l₀ l'
  | [], _, _, h, hs => by cases h; exact hs
  | _ :: _, _, _, h, hs => by
    obtain ⟨l₁, h₁, h₂⟩ := Option.bind_eq_some.mp h
    exact mainloopRun_turnRun h₂ (mainloopStep_run h₁ hs)

end Turns

theorem mainloopRun_loopRun {s : Daemon} {ws : List LoopWorld} {l l' : Lmk}
    (h : mainloopRun ws l = some l') (hs : LoopRun s l.d) : LoopRun s l'.d :=
  hs.trans (mainloopRun_turnRun h .refl).loopRun

/-! ## The registry over runs of the main loop -/

/-- One move of the daemon as the registry sees it: a registry step, or any change that
leaves the registry as it is. -/
def RegMove (s s' : Daemon) : Prop := RegStep s s' ∨ s'.reg = s.reg

/-- A run of registry moves. -/
def RegRun : Daemon → Daemon → Prop := Relation.ReflTransGen RegMove

/-- A run of registry moves keeps the registry well formed. -/
theorem RegRun.valid {s s' : Daemon} (h : RegRun s s') (hv : s.reg.Valid) : s'.reg.Valid := by
  induction h with
  | refl => exact hv
  | tail _ hm ih =>
    rcases hm with hm | hm
    · exact hm.valid ih
    · exact hm ▸ ih

/-- Each loop step is a registry step or leaves the registry alone. -/
theorem LoopStep.regMove {s s' : Daemon} (h : LoopStep s s') : RegMove s s' := by
  cases h with
  | ask e => exact .inr (by rw [← e])
  | log => exact .inr rfl
  | stopWait f => exact .inr (Daemon.stopWaitForProcKill_reg _ f)
  | setMon f => exact .inr rfl
  | command w i h => exact .inl (.command w i h)
  | connect w => exact .inl (.connect w)
  | close i => exact .inl (.close i)
  | findAndKill w m tm k h => exact .inl (.findAndKill w m tm k h)

theorem LoopRun.regRun {s s' : Daemon} (h : LoopRun s s') : RegRun s s' :=
  Relation.ReflTransGen.mono (fun _ _ => LoopStep.regMove) h

theorem mainloopRun_run {ws : List LoopWorld} {l l' : Lmk} (h : mainloopRun ws l = some l') :
    RegRun l.d l'.d :=
  (mainloopRun_loopRun h (.refl _)).regRun

/-- Every run of the main loop changes the process registry only through the registry's own
operations, so a well-formed registry stays well formed over the whole run. -/
theorem mainloopRun_registry_valid {ws : List LoopWorld} {l l' : Lmk}
    (h : mainloopRun ws l = some l') (hv : l.d.reg.Valid) : RegRun l.d l'.d ∧ l'.d.reg.Valid :=
  ⟨mainloopRun_run h, (mainloopRun_run h).valid hv⟩

set_option maxRecDepth 100000 in
/-- A turn under a critical PSI event kills `appA` and drops it from the registry. -/
theorem mainloopRun_registry_valid_kill :
    let w := pressureTurn appA 1 (fun _ => ⟨10, 0⟩) [⟨4, .mpEvent vmpressLevelCritical, 2⟩]
    ∃ l', mainloopRun [w] psiMonitored = some l' ∧ RegRun psiMonitored.d l'.d ∧ l'.d.reg.Valid ∧
      l'.d.reg.pidLookup appA.pid = none := by
  intro w
  have hk : (mainloopRun [w] psiMonitored).map (·.d.reg.pidLookup appA.pid) = some none := by
    decide
  obtain ⟨l', h, hl'⟩ := Option.map_eq_some'.mp hk
  have hv := mainloopRun_registry_valid h threeApps_wf
  exact ⟨l', h, hv.1, hv.2, hl'⟩

end Lmkd
