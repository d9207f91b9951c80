import Lmkd.Props
import Lmkd.Registry.Invariant

/-!
# The daemon's globals and its system calls

The file-scope statics of `lmkd.cpp` that the kill path, the control socket and the main
loop share: the registry, the pending kill wait (`last_kill_pid_or_fd`, `last_kill_tm`),
the registrations of `epollfd` with their count `maxevents`, the kill counters, the data
connections and the tunables.

The kernel is not modelled. Each system call the daemon makes is appended to the ghost
`trace`, and what the kernel answers comes from an oracle: a stream `Nat → α` read at
index `asked`, the number of questions asked so far, so that the theorems hold for every
sequence of answers. The kernel's own bookkeeping is kept only where the daemon's code
depends on it: the interest list of `epollfd`, from which `close` drops the descriptor and
to which `EPOLL_CTL_ADD` of a registered descriptor fails with `EEXIST`.
-/

namespace Lmkd

/-- `struct timespec`. -/
structure Timespec where
  sec : Int
  nsec : Int
  deriving DecidableEq, Repr

/-- A `struct timespec` static that was never assigned. -/
def Timespec.zero : Timespec := ⟨0, 0⟩

/-- `get_time_diff_ms(from, to)`. -/
def getTimeDiffMs (fromTm toTm : Timespec) : Int :=
  (toTm.sec - fromTm.sec) * 1000 + Int.tdiv (toTm.nsec - fromTm.nsec) 1000000

/-- The `event_handler_info` an `epollfd` registration points to (`epev.data.ptr`). -/
inductive Handler where
  /-- `&ctrl_sock.handler_info`. -/
  | ctrlConnect
  /-- `&data_sock[i].handler_info`. -/
  | ctrlData (i : Nat)
  /-- `&vmpressure_hinfo[level]`. -/
  | mpEvent (level : Nat)
  /-- `kill_done_hinfo` of `start_wait_for_proc_kill`. -/
  | killDone
  /-- `kill_failed_hinfo` of `init_reaper`. -/
  | killFail
  /-- `kernel_poll_hinfo` of `init`. -/
  | kernelPoll
  /-- `direct_reclaim_poll_hinfo` of `init_memevent_listener_monitoring`. -/
  | memevent
  deriving DecidableEq, Repr

/-- The `data` member of the `event_handler_info`: the connection index or the pressure
level where one is stored, and zero in the statics that never set it. -/
def Handler.data : Handler → Int
  | .ctrlData i => i
  | .mpEvent level => level
  | _ => 0

/-- A data connection: `data_sock[i]` without its `handler_info`. -/
structure DataSock where
  sock : Int
  pid : Int
  asyncEventMask : Nat
  deriving DecidableEq, Repr

/-- `LMK_ASYNC_EVENT_KILL` and `LMK_ASYNC_EVENT_STAT` of `lmkd.h`, in the order of the
protocol's `SUBSCRIBE` description. -/
def lmkAsyncEventKill : Nat := 0
def lmkAsyncEventStat : Nat := 1

/-- `KILLCNT_INVALID_IDX`. -/
def killcntInvalidIdx : Nat := 0xFF

/-- `MAX_DISTINCT_OOM_ADJ`. -/
def maxDistinctOomAdj : Nat := 32

/-- `enum lmk_cmd` of `lmkd.h`, the commands of the control protocol. -/
inductive LmkCmd where
  | target
  | procprio
  | procremove
  | procpurge
  | getkillcnt
  | subscribe
  | prockill
  | updateProps
  | startMonitoring
  | bootCompleted
  | procsPrio
  deriving DecidableEq, Repr

/-- `enum kill_reasons`; a vendor reason keeps the reason its event carried. -/
inductive KillReason where
  | none
  | pressureAfterKill
  | notResponding
  | lowSwapAndThrashing
  | lowMemAndSwap
  | lowMemAndSwapUtil
  | lowMemAndThrashing
  | directReclAndThrashing
  | directReclStuck
  | lowFilecacheAfterThrashing
  | lowMem
  | vendor (reason : Int)
  deriving DecidableEq, Repr

/-- A call of the daemon, as it appears in the trace. -/
inductive Event where
  | close (fd : Int)
  | epollCtlAdd (fd : Int) (ok : Bool)
  | epollCtlDel (fd : Int) (ok : Bool)
  | pidfdOpen (pid fd : Int)
  /-- The size `proc_get_size(pid)` read from `/proc/<pid>/statm`. -/
  | procGetSize (pid size : Int)
  /-- Ghost: a return of `kill_one_process`, with the record it was called with. -/
  | killOneProcess (p : Proc) (minOomScore result : Int)
  | reaperKill (pidfd pid : Int) (uid : Nat) (result : Int)
  /-- The `LMK_PROCKILL` notification written to a subscribed data connection. -/
  | lmkKillOccurred (sock pid : Int) (uid : Nat) (rssKb : Int)
  /-- The `LMK_STAT_KILL_OCCURRED` packet written to a subscribed data connection. -/
  | statKillOccurred (sock pid : Int)
  /-- A reply packet written to a data connection by `ctrl_data_write`. -/
  | reply (sock : Int) (cmd : LmkCmd) (args : List Int)
  /-- Ghost: a call of `find_and_kill_process` by a memory-pressure engine, with the
  `kill_reason` of the `kill_info` it passes (`NONE` when it passes none). -/
  | findAndKillProcess (killReason : KillReason) (minScoreAdj : Int)
  /-- Ghost: an entry of an `epoll_wait` batch handed to its handler, with the descriptor
  whose registration reported it. -/
  | epollEvent (fd : Int) (events : Nat)
  deriving DecidableEq, Repr

/-- The statics of the memory-pressure monitors: `init_monitors` and
`init_memevent_listener_monitoring` set them up, the control commands `UPDATE_PROPS`,
`START_MONITORING` and `BOOT_COMPLETED` run those, and the engines read them. -/
structure Monitors where
  monitorsInitialized : Bool
  usePsiMonitors : Bool
  /-- `psi_thresholds[level].threshold_ms`. -/
  psiThresholdMs : Nat → Int
  /-- Whether `vmpressure_hinfo[level].handler` is `mp_event_psi`; otherwise it is
  `mp_event_common`. -/
  psiHandler : Nat → Bool
  mpevfd : Nat → Int
  /-- Whether `memevent_listener` holds a listener. -/
  memeventListener : Bool
  memEventUpdateZoneinfoSupported : Bool
  directReclaimStartTm : Timespec
  bootCompletedHandled : Bool

/-- The statics of the monitors as the source initializes them, before `init_monitors`. -/
def Monitors.initial : Monitors where
  monitorsInitialized := false
  usePsiMonitors := false
  psiThresholdMs := fun | 0 => 70 | 1 => 100 | _ => 70
  psiHandler := fun _ => false
  mpevfd := fun _ => -1
  memeventListener := false
  memEventUpdateZoneinfoSupported := false
  directReclaimStartTm := Timespec.zero
  bootCompletedHandled := false

structure Daemon where
  reg : Registry
  props : Props
  pidfdSupported : Bool
  useInkernelInterface : Bool
  pageK : Int
  lastKillPidOrFd : Int
  lastKillTm : Timespec
  epoll : List (Int × Handler)
  maxevents : Int
  killcntIdx : Nat → Nat
  killcnt : Nat → Nat
  killcntFreeIdx : Nat
  killcntTotal : Nat
  ctrlSock : Int
  dataSock : Nat → DataSock
  lowmemMinfree : Nat → Int
  lowmemAdj : Nat → Int
  lowmemTargetsSize : Nat
  /-- The static `last_req_tm` of `cmd_target`. -/
  lastReqTm : Timespec
  mon : Monitors
  /-- The status the process passed to `exit`; `none` while it runs. -/
  exitStatus : Option Int
  trace : List Event
  asked : Nat

namespace Daemon

/-- A daemon after `init()` holding the registry `reg`: pidfd support, 4 KiB pages, the
control socket `3` in the epoll set, no data connection, no monitor set up yet (as with
`delay_monitors_until_boot`), no kill in flight and nothing recorded yet. -/
def atRest (props : Props) (reg : Registry) : Daemon where
  reg := reg
  props := props
  pidfdSupported := true
  useInkernelInterface := false
  pageK := 4
  lastKillPidOrFd := -1
  lastKillTm := Timespec.zero
  epoll := [(3, .ctrlConnect)]
  maxevents := 1
  killcntIdx := fun _ => killcntInvalidIdx
  killcnt := fun _ => 0
  killcntFreeIdx := 0
  killcntTotal := 0
  ctrlSock := 3
  dataSock := fun _ => ⟨-1, 0, 0⟩
  lowmemMinfree := fun _ => 0
  lowmemAdj := fun _ => 0
  lowmemTargetsSize := 0
  lastReqTm := Timespec.zero
  mon := Monitors.initial
  exitStatus := none
  trace := []
  asked := 0

/-- Append a call to the trace. -/
def log (s : Daemon) (e : Event) : Daemon := { s with trace := s.trace ++ [e] }

/-- The answer to the next question, read from the stream `q`. -/
def ask {α : Type} (s : Daemon) (q : Nat → α) : α × Daemon :=
  (q s.asked, { s with asked := s.asked + 1 })

/-- Whether `fd` is in the interest list of `epollfd`. -/
def registered (s : Daemon) (fd : Int) : Bool := s.epoll.any fun e => e.1 == fd

/-- `close(fd)`; the kernel drops the registrations of `fd` with it. -/
def close (s : Daemon) (fd : Int) : Daemon :=
  { s with epoll := s.epoll.filter (fun e => e.1 != fd), trace := s.trace ++ [.close fd] }

/-- `epoll_ctl(epollfd, EPOLL_CTL_ADD, fd, &epev)` with `epev.data.ptr` the handler `h`.
It fails for a registered `fd`; otherwise the kernel's answer is read from `q`. -/
def epollCtlAdd (s : Daemon) (q : Nat → Bool) (fd : Int) (h : Handler) : Bool × Daemon :=
  let (ok, s) := s.ask q
  let ok := ok && !s.registered fd
  (ok, { s with epoll := if ok then s.epoll ++ [(fd, h)] else s.epoll
                trace := s.trace ++ [.epollCtlAdd fd ok] })

/-- `epoll_ctl(epollfd, EPOLL_CTL_DEL, fd, &epev)`: it succeeds iff `fd` is registered. -/
def epollCtlDel (s : Daemon) (fd : Int) : Bool × Daemon :=
  let ok := s.registered fd
  (ok, { s with epoll := s.epoll.filter (fun e => e.1 != fd)
                trace := s.trace ++ [.epollCtlDel fd ok] })

/-- `pid_remove(pid)`: the registry part, then the `close` of the record's pidfd unless
a kill wait holds it. -/
def pidRemove (s : Daemon) (pid : Int) : Daemon × Int :=
  match s.reg.pidRemove pid with
  | none => (s, -1)
  | some (reg, p) =>
    let s := { s with reg := reg }
    (if 0 ≤ p.pidfd ∧ p.pidfd ≠ s.lastKillPidOrFd then s.close p.pidfd else s, 0)

/-- `stop_wait_for_proc_kill(finished)`; `finished` only chooses a log message. -/
def stopWaitForProcKill (s : Daemon) (_finished : Bool) : Daemon :=
  if s.lastKillPidOrFd < 0 then s
  else
    let s := if s.pidfdSupported then
        let s := (s.epollCtlDel s.lastKillPidOrFd).2
        { s with maxevents := s.maxevents - 1 }.close s.lastKillPidOrFd
      else s
    { s with lastKillPidOrFd := -1 }

/-- `start_wait_for_proc_kill(pid_or_fd)`; the kernel's answer to the `EPOLL_CTL_ADD` is
read from `q`. -/
def startWaitForProcKill (s : Daemon) (q : Nat → Bool) (pidOrFd : Int) : Daemon :=
  let s := if 0 ≤ s.lastKillPidOrFd then s.stopWaitForProcKill false else s
  let s := { s with lastKillPidOrFd := pidOrFd }
  if !s.pidfdSupported then s
  else
    let (ok, s) := s.epollCtlAdd q pidOrFd .killDone
    if ok then { s with maxevents := s.maxevents + 1 }
    else { s.close pidOrFd with lastKillPidOrFd := -1 }

/-- `inc_killcnt(oomadj)`, for a score in `[OOM_SCORE_ADJ_MIN, OOM_SCORE_ADJ_MAX]`. -/
def incKillcnt (s : Daemon) (oomadj : Int) : Daemon :=
  let slot := slotOf oomadj
  let idx := s.killcntIdx slot
  let s :=
    if idx = killcntInvalidIdx then
      if s.killcntFreeIdx < maxDistinctOomAdj then
        { s with killcntIdx := Function.update s.killcntIdx slot s.killcntFreeIdx
                 killcnt := Function.update s.killcnt s.killcntFreeIdx 1
                 killcntFreeIdx := s.killcntFreeIdx + 1 }
      else s
    else { s with killcnt := Function.update s.killcnt idx ((s.killcnt idx + 1) % 2 ^ 16) }
  { s with killcntTotal := (s.killcntTotal + 1) % 2 ^ 32 }

/-- The loop of `get_killcnt`, at `min_oomadj` with `count` so far; `none` when it reads
`killcnt_idx` out of bounds. -/
def getKillcntLoop (s : Daemon) (maxOomadj : Int) : Nat → Int → Int → Option Int
  | 0, _, count => some count
  | n + 1, minOomadj, count =>
    if minOomadj ≤ maxOomadj ∧ adjtoslot minOomadj < adjtoslotCount then
      if adjtoslot minOomadj < 0 then none
      else
        let idx := s.killcntIdx (adjtoslot minOomadj).toNat
        s.getKillcntLoop maxOomadj n (minOomadj + 1)
          (if idx ≠ killcntInvalidIdx then count + s.killcnt idx else count)
    else some count

/-- `get_killcnt(min_oomadj, max_oomadj)`. The loop runs at most once per slot above
`ADJTOSLOT(min_oomadj)`, which bounds the fuel. -/
def getKillcnt (s : Daemon) (minOomadj maxOomadj : Int) : Option Int :=
  if minOomadj > maxOomadj then some 0
  else if minOomadj > oomScoreAdjMax then some (toInt32 s.killcntTotal)
  else s.getKillcntLoop maxOomadj (adjtoslotCount - adjtoslot minOomadj).toNat minOomadj 0

/-- The data connections subscribed to the asynchronous event `evt`, in slot order. -/
def subscribers (s : Daemon) (evt : Nat) : List Int :=
  ((List.range maxDataConn).map s.dataSock).filterMap fun d : DataSock =>
    if 0 ≤ d.sock ∧ (d.asyncEventMask &&& (1 <<< evt)) ≠ 0 then some d.sock else none

/-- `ctrl_data_write_lmk_kill_occurred(pid, uid, rss_kb)`. -/
def ctrlDataWriteLmkKillOccurred (s : Daemon) (pid : Int) (uid : Nat) (rssKb : Int) : Daemon :=
  (s.subscribers lmkAsyncEventKill).foldl
    (fun s sock => s.log (.lmkKillOccurred sock pid uid (toInt32 rssKb))) s

/-- `stats_write_lmk_kill_occurred(&kill_st, mem_st)`; the contents of the packet are
not modelled. -/
def statsWriteLmkKillOccurred (s : Daemon) (pid : Int) : Daemon :=
  (s.subscribers lmkAsyncEventStat).foldl (fun s sock => s.log (.statKillOccurred sock pid)) s

/-! ## Read-back lemmas -/

@[simp] theorem log_reg (s : Daemon) (e : Event) : (s.log e).reg = s.reg := rfl
@[simp] theorem log_trace (s : Daemon) (e : Event) : (s.log e).trace = s.trace ++ [e] := rfl
@[simp] theorem ask_reg {α : Type} (s : Daemon) (q : Nat → α) : (s.ask q).2.reg = s.reg := rfl
@[simp] theorem ask_trace {α : Type} (s : Daemon) (q : Nat → α) :
    (s.ask q).2.trace = s.trace := rfl
@[simp] theorem close_reg (s : Daemon) (fd : Int) : (s.close fd).reg = s.reg := rfl
@[simp] theorem close_trace (s : Daemon) (fd : Int) :
    (s.close fd).trace = s.trace ++ [.close fd] := rfl
@[simp] theorem epollCtlAdd_reg (s : Daemon) (q : Nat → Bool) (fd : Int) (h : Handler) :
    (s.epollCtlAdd q fd h).2.reg = s.reg := rfl
@[simp] theorem epollCtlDel_reg (s : Daemon) (fd : Int) : (s.epollCtlDel fd).2.reg = s.reg := rfl

theorem pidRemove_reg (s : Daemon) (pid : Int) :
    (s.pidRemove pid).1.reg = ((s.reg.pidRemove pid).map Prod.fst).getD s.reg := by
  unfold pidRemove
  split <;> rename_i h <;> simp only [h, Option.map_some', Option.map_none', Option.getD_some,
    Option.getD_none]
  split <;> rfl

@[simp] theorem stopWaitForProcKill_reg (s : Daemon) (f : Bool) :
    (s.stopWaitForProcKill f).reg = s.reg := by
  unfold stopWaitForProcKill
  split
  · rfl
  · split <;> rfl

@[simp] theorem startWaitForProcKill_reg (s : Daemon) (q : Nat → Bool) (x : Int) :
    (s.startWaitForProcKill q x).reg = s.reg := by
  unfold startWaitForProcKill
  split <;> simp only [stopWaitForProcKill_reg] <;> split <;> (try split) <;> rfl

@[simp] theorem incKillcnt_reg (s : Daemon) (adj : Int) : (s.incKillcnt adj).reg = s.reg := by
  unfold incKillcnt
  dsimp only
  split_ifs <;> rfl

theorem foldl_log_reg {β : Type} (s : Daemon) (l : List β) (f : β → Event) :
    (l.foldl (fun s b => s.log (f b)) s).reg = s.reg := by
  induction l generalizing s with
  | nil => rfl
  | cons b l ih => exact ih (s.log (f b))

@[simp] theorem ctrlDataWriteLmkKillOccurred_reg (s : Daemon) (pid : Int) (uid : Nat)
    (rssKb : Int) : (s.ctrlDataWriteLmkKillOccurred pid uid rssKb).reg = s.reg := by
  unfold ctrlDataWriteLmkKillOccurred
  exact foldl_log_reg s _ _

@[simp] theorem statsWriteLmkKillOccurred_reg (s : Daemon) (pid : Int) :
    (s.statsWriteLmkKillOccurred pid).reg = s.reg := by
  unfold statsWriteLmkKillOccurred
  exact foldl_log_reg s _ _

theorem valid_pidRemove {s : Daemon} (h : s.reg.Valid) (pid : Int) :
    (s.pidRemove pid).1.reg.Valid := by
  rw [pidRemove_reg]; exact h.pidRemove pid

end Daemon

end Lmkd
