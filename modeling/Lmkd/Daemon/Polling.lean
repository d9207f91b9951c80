import Lmkd.Daemon.LoopRuns

/-!
# Only the memory-pressure handlers poll

`call_handler` makes the handler it has just run the polling handler on `POLLING_START` and
the paused one on `POLLING_PAUSE`, and `resume_polling` makes the paused handler poll again;
the main loop then calls the polling handler with no event whenever `polling_interval_ms`
has passed. `PollingOk` is what keeps this sound: the polling and the paused handlers are
memory-pressure handlers (the handler of a pressure level, or the memory-event listener),
and a handler that polls does so at `PSI_POLL_PERIOD_SHORT_MS` or `PSI_POLL_PERIOD_LONG_MS`.

A handler asks for a start only with a polling period set in the same call (`PollStep`),
and a handler other than a pressure handler asks for no start and no pause, so each kind
of turn step keeps `PollingOk`, and so does every run of the main loop.
-/

namespace Lmkd

/-- The handlers of memory pressure: those of the vmpressure levels, which run
`mp_event_psi` or `mp_event_common`, and the memory-event listener. -/
def Handler.isPressure : Handler → Bool
  | .mpEvent _ | .memevent => true
  | _ => false

/-- What `poll_params` holds between two calls of `call_handler`. -/
structure PollingOk (p : PollingParams) : Prop where
  polling : ∀ h, p.pollHandler = some h → h.isPressure ∧ IsPollPeriod p.pollingIntervalMs
  paused : ∀ h, p.pausedHandler = some h → h.isPressure
  start : p.update = .start → IsPollPeriod p.pollingIntervalMs

/-- `mainloop` starts with no polling and no paused handler. -/
theorem pollingOk_atStart : PollingOk PollingParams.atStart :=
  ⟨(fun _ e => by cases e), (fun _ e => by cases e), fun e => by cases e⟩

/-! ## Inside a handler -/

theorem PollStep.pollingOk {p p' : PollingParams} (h : PollStep p p') (hp : PollingOk p) :
    PollingOk p' := by
  cases h with
  | start hi => exact ⟨fun h e => ⟨(hp.polling h e).1, hi⟩, hp.paused, fun _ => hi⟩
  | period hi => exact ⟨fun h e => ⟨(hp.polling h e).1, hi⟩, hp.paused, fun _ => hi⟩
  | pause => exact ⟨hp.polling, hp.paused, fun e => by cases e⟩
  | resume => exact ⟨hp.polling, hp.paused, fun e => by cases e⟩

theorem EngStep.pollingOk {l l' : Lmk} (h : EngStep l l') (hp : PollingOk l.poll) :
    PollingOk l'.poll := by
  cases h with
  | daemon _ e => rw [e]; exact hp
  | poll _ h => exact h.pollingOk hp

theorem EngRun.pollingOk {l l' : Lmk} (h : EngRun l l') (hp : PollingOk l.poll) :
    PollingOk l'.poll := by
  induction h with
  | refl => exact hp
  | tail _ hs ih => exact hs.pollingOk ih

/-- A handler other than the pressure handlers asks for no start and no pause: the
connection handlers leave the request as `call_handler` set it, and the ends of a kill wait
ask for a resume. -/
theorem runHandler_update {w : LoopWorld} {hd : Handler} {ev : Nat} {l l' : Lmk}
    (h : runHandler w hd ev l = some l') (hn : hd.isPressure = false) :
    l'.poll.update = l.poll.update ∨ l'.poll.update = .resume := by
  cases hd with
  | ctrlConnect => cases h; exact .inl rfl
  | ctrlData i =>
    dsimp only [runHandler] at h
    split at h
    · obtain ⟨d, -, rfl⟩ := Option.map_eq_some'.mp h
      exact .inl rfl
    · cases h; exact .inl rfl
  | killDone => cases h; exact .inr rfl
  | killFail => cases h; exact .inr rfl
  | kernelPoll => cases h; exact .inl rfl
  | mpEvent _ | memevent => cases hn

/-! ## Around a handler -/

/-- The update of `call_handler` keeps `PollingOk` when only a pressure handler asked for a
start or a pause. -/
theorem applyPollingUpdate_pollingOk {h : Handler} {t : Timespec} {p : PollingParams}
    (hp : PollingOk p) (hs : p.update = .start ∨ p.update = .pause → h.isPressure) :
    PollingOk (applyPollingUpdate h t p) := by
  unfold applyPollingUpdate
  generalize hq : (if p.pollHandler = some h then { p with lastPollTm := t } else p) = q
  have hq' : PollingOk q ∧ q.update = p.update := by
    rw [← hq]
    split
    · exact ⟨⟨hp.polling, hp.paused, hp.start⟩, rfl⟩
    · exact ⟨hp, rfl⟩
  obtain ⟨ok, hu⟩ := hq'
  dsimp only
  split
  · next e =>
    have hi := ok.start e
    exact ⟨fun _ e' => by cases e'; exact ⟨hs (.inl (hu ▸ e)), hi⟩, ok.paused, fun _ => hi⟩
  · next e =>
    exact ⟨(fun _ e' => by cases e'), (fun _ e' => by cases e'; exact hs (.inr (hu ▸ e))),
      fun e' => by rw [e] at e'; cases e'⟩
  · exact ⟨fun h e => ⟨ok.paused h e, .inl rfl⟩, (fun _ e => by cases e), fun _ => .inl rfl⟩
  · split
    · exact ⟨(fun _ e => by cases e), ok.paused, ok.start⟩
    · exact ok

/-! ## Runs of the main loop -/

theorem TurnStep.pollingOk {l l' : Lmk} (h : TurnStep l l') (hp : PollingOk l.poll) :
    PollingOk l'.poll := by
  cases h with
  | daemon _ _ e => rw [e]; exact hp
  | call w hd ev h =>
    unfold callHandler at h
    obtain ⟨l₁, h₁, rfl⟩ := Option.map_eq_some'.mp h
    have ok₁ : PollingOk l₁.poll :=
      (runHandler_run h₁ .refl).pollingOk ⟨hp.polling, hp.paused, fun e => by cases e⟩
    split
    · exact ok₁
    refine applyPollingUpdate_pollingOk ok₁ fun hu => ?_
    cases hn : hd.isPressure
    · simp only [Lmk.ask_poll] at hu
      rcases runHandler_update h₁ hn with e | e <;> rw [e] at hu <;> simp [Lmk.setUpdate] at hu
    · rfl
  | resume => exact ⟨fun h e => ⟨hp.paused h e, .inl rfl⟩, (fun _ e => by cases e), fun _ => .inl rfl⟩

theorem TurnRun.pollingOk {l l' : Lmk} (h : TurnRun l l') (hp : PollingOk l.poll) :
    PollingOk l'.poll := by
  induction h with
  | refl => exact hp
  | tail _ hs ih => exact hs.pollingOk ih

/-- Over every run of the main loop from a sound `poll_params`, as `mainloop` starts with,
only a memory-pressure handler ever polls or is paused: never a connection, a data
connection, nor the end of a kill wait. A handler that polls does so every
`PSI_POLL_PERIOD_SHORT_MS` or `PSI_POLL_PERIOD_LONG_MS`. -/
theorem mainloopRun_polling {ws : List LoopWorld} {l l' : Lmk} (h : mainloopRun ws l = some l')
    (hp : PollingOk l.poll) : PollingOk l'.poll :=
  (mainloopRun_turnRun h .refl).pollingOk hp

set_option maxRecDepth 100000 in
/-- The turn that kills `appA` pauses the polling of the critical level while the kill is
waited for. -/
theorem mainloopRun_polling_kill :
    let w := pressureTurn appA 1 (fun _ => ⟨10, 0⟩) [⟨4, .mpEvent vmpressLevelCritical, 2⟩]
    ∃ l', mainloopRun [w] psiMonitored = some l' ∧ PollingOk l'.poll ∧
      l'.poll.pausedHandler = some (.mpEvent vmpressLevelCritical) := by
  intro w
  have hk : (mainloopRun [w] psiMonitored).map (·.poll.pausedHandler) =
      some (some (.mpEvent vmpressLevelCritical)) := by
    decide
  obtain ⟨l', h, hl'⟩ := Option.map_eq_some'.mp hk
  exact ⟨l', h, mainloopRun_polling h pollingOk_atStart, hl'⟩

end Lmkd
