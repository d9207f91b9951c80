import Lmkd.Daemon.Engine

/-!
# The main loop

One turn of `mainloop()`: the wait (a polling tick while a PSI handler polls, a wait bounded
by `kill_timeout_ms` while a kill is waited for, an unbounded wait otherwise), then the
batch `epoll_wait` returned, in two passes: hang-ups first, then every other event.
`call_handler` runs the handler the registration points to and applies the polling update
it asked for. The handlers are the control socket's, the memory-pressure engines', the
kill-wait handlers `kill_done_handler` and `kill_fail_handler`, and the memevent listener's;
the in-kernel driver's `kernel_event_handler` is not modelled and changes nothing here.
The watchdog around each handler is not modelled.

The kernel's answers come from one world per turn. `clock_gettime` is not checked in the
loop and in `call_handler`; a failed read is taken as the zero time. Each entry of a batch
handed to a handler is put in the trace, with the descriptor it reports on. A handler that
makes the process `exit` ends it: nothing of the batch is handled after it, and the loop
takes no further turn.
-/

namespace Lmkd

/-- `EPOLLIN` and `EPOLLHUP`. -/
def epollin : Nat := 0x001
def epollhup : Nat := 0x010

/-- An entry of the `events` array of `epoll_wait`: the event mask and the handler its
registration points to; `fd`, the descriptor of the registration, is ghost. -/
structure EpollEvent where
  fd : Int
  handler : Handler
  events : Nat
  deriving DecidableEq, Repr

/-- A `mem_event_t` of the memevent listener. -/
inductive MemEvent where
  | directReclaimBegin
  | directReclaimEnd
  | kswapdWake
  | kswapdSleep
  | vendorLmkKill (reason minOomScoreAdj : Int)
  | updateZoneinfo
  deriving DecidableEq, Repr

/-- What the kernel answers in one turn of the main loop. -/
structure LoopWorld where
  eng : EngineWorld
  ctrl : CtrlWorld
  /-- The events `epoll_wait` reports, `none` for `-1`; an empty list is a timeout. -/
  epollWait : Nat → Option (List EpollEvent)
  /-- `memevent_listener->getMemEvents(mem_events)`, `none` on failure. -/
  memEvents : Nat → Option (List MemEvent)

/-- `epoll_wait(epollfd, events, maxevents, timeout)`: it fails for a `maxevents` that is
not positive, and reports at most `maxevents` events. -/
def epollWait (w : LoopWorld) (l : Lmk) : Option (List EpollEvent) × Lmk :=
  if l.d.maxevents ≤ 0 then (none, l)
  else
    let (r, l) := l.ask w.epollWait
    (r.map (·.take l.d.maxevents.toNat), l)

/-! ## Handlers -/

def killDoneHandler (l : Lmk) : Lmk :=
  (l.onDaemon (·.stopWaitForProcKill true)).setUpdate .resume

/-- `kill_fail_handler`: the pid read from the reaper's pipe is not used. -/
def killFailHandler (l : Lmk) : Lmk :=
  (l.onDaemon (·.stopWaitForProcKill false)).setUpdate .resume

/-- `update_zoneinfo_watermarks(&zi)`; `none` is a watermark sum that overflows. -/
def updateZoneinfoWatermarks (w : EngineWorld) (l : Lmk) : Option Lmk :=
  let (zi, l) := l.ask w.zoneinfo
  match zi with
  | none => some l
  | some zi =>
    (calcZoneWatermarks zi).map fun watermarks => { l with eng := { l.eng with watermarks } }

/-- `direct_reclaim_start_tm := tm`. -/
def Lmk.setDirectReclaimStartTm (l : Lmk) (tm : Timespec) : Lmk :=
  l.onDaemon (·.setMon fun m => { m with directReclaimStartTm := tm })

/-- One event of `memevent_listener_notification`. -/
def memEventStep (w : EngineWorld) (currTm : Timespec) (l : Lmk) : MemEvent → Option Lmk
  | .directReclaimBegin => some (l.setDirectReclaimStartTm currTm)
  | .directReclaimEnd => some (l.setDirectReclaimStartTm Timespec.zero)
  | .kswapdWake => some { l with eng := { l.eng with kswapdStartTm := currTm } }
  | .kswapdSleep => some { l with eng := { l.eng with kswapdStartTm := Timespec.zero } }
  | .vendorLmkKill reason minAdj => mpEventPsi w (.vendor reason minAdj) 0 l
  | .updateZoneinfo => updateZoneinfoWatermarks w l

def memeventListenerNotification (w : LoopWorld) (l : Lmk) : Option Lmk :=
  let (now, l) := l.ask w.eng.clock
  match now with
  | none => some (l.setDirectReclaimStartTm Timespec.zero)
  | some currTm =>
    let (evs, l) := l.ask w.memEvents
    match evs with
    | none => some (l.setDirectReclaimStartTm Timespec.zero)
    | some evs => evs.foldlM (memEventStep w.eng currTm) l

/-- The handler of an `event_handler_info`, run on its `data` with the event mask. A
vmpressure level is handled by the handler the set-up of its monitor stored. -/
def runHandler (w : LoopWorld) (h : Handler) (events : Nat) (l : Lmk) : Option Lmk :=
  match h with
  | .ctrlConnect => some (l.onDaemon (ctrlConnectHandler w.ctrl))
  | .ctrlData i =>
    if events &&& epollin ≠ 0 then (ctrlCommandHandler w.ctrl l.d i).map fun d => { l with d }
    else some l
  | .mpEvent level =>
    if l.d.mon.psiHandler level then mpEventPsi w.eng (.psi level) events l
    else mpEventCommon w.eng level events l
  | .killDone => some (killDoneHandler l)
  | .killFail => some (killFailHandler l)
  | .kernelPoll => some l
  | .memevent => memeventListenerNotification w l

def resumePolling (poll : PollingParams) (currTm : Timespec) : PollingParams :=
  { poll with pollStartTm := currTm, pollHandler := poll.pausedHandler,
              pollingIntervalMs := psiPollPeriodShortMs, pausedHandler := none }

/-- The polling update of `call_handler` once handler `h` has run at `currTm`: a polling
handler that runs records the time; polling starts, pauses or resumes as the handler
asked, and stops once it has lasted a PSI window. -/
def applyPollingUpdate (h : Handler) (currTm : Timespec) (poll : PollingParams) :
    PollingParams :=
  let poll := if poll.pollHandler = some h then { poll with lastPollTm := currTm } else poll
  match poll.update with
  | .start => { poll with pollStartTm := currTm, pollHandler := some h, lastPollTm := currTm }
  | .pause => { poll with pausedHandler := some h, pollHandler := none }
  | .resume => resumePolling poll currTm
  | .doNotChange =>
    if poll.pollHandler.isSome ∧ getTimeDiffMs poll.pollStartTm currTm > psiWindowSizeMs then
      { poll with pollHandler := none }
    else poll

/-- Whether a handler made the process `exit`. -/
def Lmk.exited (l : Lmk) : Bool := l.d.exitStatus.isSome

def callHandler (w : LoopWorld) (h : Handler) (events : Nat) (l : Lmk) : Option Lmk :=
  (runHandler w h events (l.setUpdate .doNotChange)).map fun l =>
    if l.exited then l
    else
      let (now, l) := l.ask w.eng.clock
      { l with poll := applyPollingUpdate h (now.getD Timespec.zero) l.poll }

/-! ## The two passes over a batch -/

/-- Hand an entry of the batch over, with the entry in the trace. -/
def dispatch (e : EpollEvent) (l : Lmk) : Lmk := l.onDaemon (·.log (.epollEvent e.fd e.events))

/-- The first pass: a hang-up of the kill wait goes to its handler, any other hang-up
drops the data connection of the handler's `data`. -/
def hangupPass (w : LoopWorld) : List EpollEvent → Lmk → Option Lmk
  | [], l => some l
  | e :: es, l =>
    if l.exited then some l
    else if e.events &&& epollhup ≠ 0 then
      let l := dispatch e l
      let r := if e.handler = .killDone then callHandler w e.handler e.events l
        else some (l.onDaemon (ctrlDataClose · e.handler.data.toNat))
      r.bind (hangupPass w es)
    else hangupPass w es l

/-- The second pass: every event but the hang-ups, in the order of the batch. -/
def eventPass (w : LoopWorld) : List EpollEvent → Lmk → Option Lmk
  | [], l => some l
  | e :: es, l =>
    if l.exited then some l
    else if e.events &&& epollhup ≠ 0 then eventPass w es l
    else (callHandler w e.handler e.events (dispatch e l)).bind (eventPass w es)

def handleBatch (w : LoopWorld) (batch : Option (List EpollEvent)) (l : Lmk) : Option Lmk :=
  match batch with
  | none => some l
  | some evs => (hangupPass w evs l).bind (eventPass w evs)

/-! ## One turn -/

/-- A turn while a handler polls: right after a resume it polls at once and waits for
nothing; otherwise it waits for events until the next tick and polls if the interval has
passed. -/
def pollingTurn (w : LoopWorld) (h : Handler) (l : Lmk) : Option Lmk :=
  let (now, l) := l.ask w.eng.clock
  if l.poll.update = .resume then callHandler w h 0 l
  else
    let (batch, l) := epollWait w l
    let (now', l) := l.ask w.eng.clock
    let currTm := now'.getD (now.getD Timespec.zero)
    let r := if getTimeDiffMs l.poll.lastPollTm currTm ≥ l.poll.pollingIntervalMs then
        callHandler w h 0 l
      else some l
    r.bind (handleBatch w batch)

/-- A turn while a kill is waited for: the wait lasts what is left of `kill_timeout_ms`;
when it ends with no event the kill wait is dropped and a paused polling resumes. -/
def killWaitTurn (w : LoopWorld) (l : Lmk) : Option Lmk :=
  let (now, l) := l.ask w.eng.clock
  let currTm := now.getD Timespec.zero
  let delay := l.d.props.killTimeoutMs - getTimeDiffMs l.d.lastKillTm currTm
  let (batch, l) := if delay > 0 then epollWait w l else (some [], l)
  if batch = some [] then
    let l := l.onDaemon (·.stopWaitForProcKill false)
    if l.poll.pausedHandler.isSome then
      let (now', l) := l.ask w.eng.clock
      some { l with poll := resumePolling { l.poll with update := .resume } (now'.getD currTm) }
    else some l
  else handleBatch w batch l

/-- One turn of `mainloop()`. -/
def mainloopStep (w : LoopWorld) (l : Lmk) : Option Lmk :=
  if l.exited then some l
  else
    match l.poll.pollHandler with
    | some h => pollingTurn w h l
    | none =>
      if l.d.props.killTimeoutMs ≠ 0 ∧ isWaitingForKill l.d then killWaitTurn w l
      else
        let (batch, l) := epollWait w l
        handleBatch w batch l

/-- Turns of the main loop, the `i`-th answered by the `i`-th world. -/
def mainloopRun : List LoopWorld → Lmk → Option Lmk
  | [], l => some l
  | w :: ws, l => (mainloopStep w l).bind (mainloopRun ws)

/-! ## A stale kill notification -/

/-- The calls that make up kills and their waits: the reaper's kills, the entries of the
batches handed to handlers, and the closes. -/
def Event.isKillWait : Event → Bool
  | .reaperKill .. | .epollEvent .. | .close _ => true
  | _ => false

/-- The status file of `p`, with 4000 kB resident. -/
def statusOf (p : Proc) : List Char :=
  ("Tgid:\t" ++ toString p.pid ++ "\nVmRSS:\t4000 kB\nVmSwap:\t0 kB\n").toList

/-- A kernel on which the kill of `p` succeeds. -/
def victimWorld (p : Proc) : KillWorld where
  procGetSize := fun _ => 1000
  readProcStatus := fun _ => some (statusOf p)
  procGetName := fun _ => true
  memoryBeforeKillHook := fun _ => 0
  epollCtlAdd := fun _ => true
  reaperKill := fun _ => 0

/-- A turn of the main loop that gets `batch` from `epoll_wait`, where free memory is
below the low watermark, the refault count reads `refault`, and a kill of `p` succeeds. -/
def pressureTurn (p : Proc) (refault : Nat) (clock : Nat → Timespec) (batch : List EpollEvent) :
    LoopWorld where
  eng :=
    { kill := victimWorld p
      clock := fun n => some (clock n)
      procExists := fun _ => false
      vmstat := fun _ => some ⟨1000, 0, refault, 0, 0, 0, 0⟩
      meminfo := fun _ => some ⟨400, 0, 0, 0, 0, 0, 0, 0, 0, 0, 0⟩
      zoneinfo := fun _ => some ⟨[⟨true, 0, 1000, 500, 200⟩], 0⟩
      psiMemFullAvg10 := fun _ => none
      memUsage := fun _ => none
      memswUsage := fun _ => none
      mpevCount := fun _ => 0
      vendorKillReasonEnd := 0 }
  ctrl := acceptWorld 10 true
  epollWait := fun _ => some batch
  memEvents := fun _ => none

/-- `appA`, `appA2` and `appB` registered, with the PSI monitor of the critical level on
descriptor 4 and the strategy of `mp_event_psi`. -/
def psiMonitored : Lmk :=
  let l := Lmk.atStart defaultProps threeApps true true
  { l with d := { l.d with epoll := [(3, .ctrlConnect), (4, .mpEvent vmpressLevelCritical)],
                           maxevents := 2 } }

set_option maxRecDepth 100000 in
/-- `kill_done_hinfo` is one static for every kill wait, so a readiness of a pidfd names
no kill. At 10.0 s a critical PSI event kills `appA` and waits on its pidfd 5. The wait's
turn starts at 10.096 s; the batch brings a PSI event and the readiness of pidfd 5. The PSI
handler runs first, at 10.100 s: the timeout of `appA`'s kill has run out, so it stops that
wait, kills `appA2` and waits on pidfd 7. The readiness of pidfd 5 then ends the wait for
`appA2`, and the next turn kills `appB` at 10.110 s, 10 ms after the kill of `appA2`,
whose pidfd never became readable. -/
theorem mainloop_stale_kill_done :
    let w₁ : LoopWorld :=
      pressureTurn appA 1 (fun _ => ⟨10, 0⟩) [⟨4, .mpEvent vmpressLevelCritical, 2⟩]
    let w₂ := pressureTurn appA2 2 (fun n => if n ≤ 14 then ⟨10, 96000000⟩ else ⟨10, 100000000⟩)
      [⟨4, .mpEvent vmpressLevelCritical, 2⟩, ⟨5, .killDone, epollin⟩]
    let w₃ := pressureTurn appB 3 (fun _ => ⟨10, 110000000⟩) []
    (mainloopRun [w₁, w₂] psiMonitored).map (·.d.lastKillTm) = some ⟨10, 100000000⟩ ∧
    (mainloopRun [w₁, w₂, w₃] psiMonitored).map
        (fun l => (l.d.trace.filter Event.isKillWait, l.d.lastKillTm)) =
      some ([.epollEvent 4 2, .reaperKill 5 100 10000 0, .epollEvent 4 2, .close 5,
        .reaperKill 7 101 10002 0, .epollEvent 5 epollin, .close 7, .reaperKill 6 200 10001 0],
        ⟨10, 110000000⟩) := by
  decide

/-! ## Scores from a `TARGET` packet -/

set_option maxRecDepth 100000 in
/-- `cmd_target` stores the scores of a `TARGET` packet unchecked, and with
`use_minfree_levels` `mp_event_common` hands them to `find_and_kill_process`. After a
`TARGET` of one level, `minfree` 1000 pages at score `-1001`, a critical pressure event with
100 pages free and no process registered makes the scan run down to score `-1001` and
read `procadjslot_list[-1]`. -/
theorem mpEventCommon_target_undefined :
    let target : Msg := ⟨12, some .target, [1000, -1001], some ⟨1000, 1000⟩⟩
    let s := ctrlConnectHandler (acceptWorld 10 true) (Daemon.atRest minfreeProps Registry.init)
    ∃ d, ctrlCommandHandler { msgWorld target with clock := fun _ => some ⟨10, 0⟩ } s 0 = some d ∧
      (mpEventCommon (lowMemWorld 100) vmpressLevelCritical 1
        ⟨{ d with mon := Monitors.atStart true false }, Engine.atStart minfreeProps,
          PollingParams.atStart⟩).isNone :=
  ⟨_, rfl, rfl⟩

end Lmkd
