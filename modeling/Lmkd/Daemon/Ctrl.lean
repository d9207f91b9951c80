import Lmkd.Daemon.Monitors
import Lmkd.Registry.Claims
import Lmkd.Status

/-!
# The control socket

The commands a peer sends over a data connection, and the handling of the connections:
`ctrl_connect_handler` accepts a peer into one of the `MAX_DATA_CONN` slots of
`data_sock`, `ctrl_command_handler` reads a message with its sender's credentials and
dispatches on the command, and `ctrl_data_close` drops a connection and releases the
records its last sender claimed.

A message is given as the bytes read, the command its first word codes and the argument
words after it, in host byte order. The command codes and the accessors
`lmkd_pack_get_*` belong to `lmkd.h`, which is not among the sources; the argument layout
follows the protocol (`PROCPRIO {pid, uid, oomadj, [ptype]}`, `TARGET {minfree,
oom_adj_score}...` and so on). A handler ends with the next state, or with `none` where the
source indexes an array out of bounds or shifts by an undefined amount.

`UPDATE_PROPS` reloads the tunables and sets the monitors up again, `START_MONITORING` sets
them up when start-up left that to the end of boot, and `BOOT_COMPLETED` sets up the
memevent listener; a failed set-up of the monitors makes the process `exit(1)`.
`ctrlCommandHandler_cases` says once what a message can do: change the registry through
one of the commands that register or remove records, or leave it alone.
-/

namespace Lmkd

/-- `struct ucred`, as far as the commands read it. -/
structure Ucred where
  pid : Int
  uid : Nat
  deriving DecidableEq, Repr

/-- A message read from a data connection. -/
structure Msg where
  len : Nat
  cmd : Option LmkCmd
  args : List Int
  cred : Option Ucred
  deriving DecidableEq, Repr

/-- Argument word `i` of a message: `ntohl(packet[i + 1])`. -/
def Msg.arg (msg : Msg) (i : Nat) : Int := msg.args.getD i 0

/-- `struct lmk_procprio`. -/
structure LmkProcprio where
  pid : Int
  uid : Nat
  oomadj : Int
  ptype : Int
  deriving DecidableEq, Repr

/-- `PROC_TYPE_FIRST`, `PROC_TYPE_APP` and `PROC_TYPE_COUNT` of `enum proc_type` in
`lmkd.h`: applications and services, applications first. -/
def procTypeFirst : Int := 0
def procTypeApp : Int := 0
def procTypeCount : Int := 2

/-- `MAX_TARGETS` of `lmkd.h`: the size of `lowmem_adj` and `lowmem_minfree`. -/
def maxTargets : Int := 6

/-- `PROPERTY_VALUE_MAX`: the size of the `minfree_str` buffer of `cmd_target`. -/
def propertyValueMax : Nat := 92

/-- `TARGET_UPDATE_MIN_INTERVAL_MS`. -/
def targetUpdateMinIntervalMs : Int := 1000

/-- `lmkd_pack_get_procprio(packet, field_count, &params)`: without a fourth field the
process is an application. -/
def Msg.procprio (msg : Msg) (fieldCount : Int) : LmkProcprio :=
  { pid := msg.arg 0, uid := (msg.arg 1 % 2 ^ 32).toNat, oomadj := msg.arg 2,
    ptype := if fieldCount > 3 then msg.arg 3 else procTypeApp }

/-- `lmkd_pack_get_procs_prio(packet, &params, field_count)`: the records of a packet whose
argument count is a positive multiple of four, else `none`. -/
def Msg.procsPrio (msg : Msg) (fieldCount : Int) : Option (List LmkProcprio) :=
  if fieldCount < 4 ∨ fieldCount % 4 ≠ 0 then none
  else some ((List.range (fieldCount / 4).toNat).map fun j =>
    { pid := msg.arg (4 * j), uid := (msg.arg (4 * j + 1) % 2 ^ 32).toNat,
      oomadj := msg.arg (4 * j + 2), ptype := msg.arg (4 * j + 3) })

/-- What the control path asks of the kernel and the platform, question by question. -/
structure CtrlWorld where
  /-- `recvmsg` on a data connection: `none` for `-1`; a message of length `0` is `EOF`. -/
  recvmsg : Nat → Option Msg
  /-- `accept(ctrl_sock.sock, NULL, NULL)`. -/
  accept : Nat → Int
  /-- The kernel's answer to an `EPOLL_CTL_ADD`. -/
  epollCtlAdd : Nat → Bool
  /-- `read_proc_status(pid, buf, ...)`: the text read, `none` on failure. -/
  readProcStatus : Nat → Option (List Char)
  /-- Whether `writefilestring("/proc/<pid>/oom_score_adj", ...)` succeeds. -/
  writeOomScoreAdj : Nat → Bool
  /-- Whether `CgroupGetAttributePathForTask("MemSoftLimit", pid, ...)` finds the path. -/
  cgroupPath : Nat → Bool
  /-- `pidfd_open(pid, 0)`. -/
  pidfdOpen : Nat → Int
  /-- Whether `calloc` returns memory. -/
  calloc : Nat → Bool
  /-- `clock_gettime(CLOCK_MONOTONIC_COARSE, ...)`, `none` on failure. -/
  clock : Nat → Option Timespec
  /-- The result of `lmkd_update_props_hook()`. -/
  updatePropsHook : Bool
  /-- The property store and what the set-up of the monitors is answered. -/
  mon : MonitorWorld

/-- A kernel that accepts a peer as `fd`, and registers `fd` with epoll if `added`. -/
def acceptWorld (fd : Int) (added : Bool) : CtrlWorld where
  recvmsg := fun _ => none
  accept := fun _ => fd
  epollCtlAdd := fun _ => added
  readProcStatus := fun _ => none
  writeOomScoreAdj := fun _ => true
  cgroupPath := fun _ => true
  pidfdOpen := fun _ => -1
  calloc := fun _ => true
  clock := fun _ => none
  updatePropsHook := true
  mon := .bare

/-- A kernel that delivers `msg`, and for a registration opens the pidfd `20`. -/
def msgWorld (msg : Msg) : CtrlWorld where
  recvmsg := fun _ => some msg
  accept := fun _ => -1
  epollCtlAdd := fun _ => true
  readProcStatus := fun _ => none
  writeOomScoreAdj := fun _ => true
  cgroupPath := fun _ => true
  pidfdOpen := fun _ => 20
  calloc := fun _ => true
  clock := fun _ => none
  updatePropsHook := true
  mon := .bare

/-- A `PROCPRIO` of three fields from the peer of pid `1000`: `pid`, uid `10000`, score
`adj`. -/
def procprioMsg (pid adj : Int) : Msg := ⟨16, some .procprio, [pid, 10000, adj], some ⟨1000, 1000⟩⟩

/-! ## Registration -/

/-- `CgroupGetAttributePathForTask("MemSoftLimit", ...)`, asked for an application when
per-application memcgs are on; other registrations skip the soft limit. -/
def softLimitPath (w : CtrlWorld) (s : Daemon) (app : Bool) : Bool × Daemon :=
  if app then s.ask w.cgroupPath else (true, s)

/-- `pidfd_open(pid, 0)` when pidfds are supported, else `-1`. -/
def openPidfd (w : CtrlWorld) (s : Daemon) (pid : Int) : Int × Daemon :=
  if s.pidfdSupported then
    let (fd, s) := s.ask w.pidfdOpen
    (fd, s.log (.pidfdOpen pid fd))
  else (-1, s)

/-- `register_oom_adj_proc(proc, cred)`. An application registered with a score in
`[600, 700)` gets the score `200` when per-application memcgs are on. The soft limit it
writes and the name it looks up for an error message are not modelled; failing to find
the soft-limit path returns early, as in the source. -/
def registerOomAdjProc (w : CtrlWorld) (s : Daemon) (proc : LmkProcprio) (cred : Ucred) :
    Daemon :=
  let app := decide (proc.ptype = procTypeApp) && s.props.perAppMemcg
  let oomAdjScore := if app ∧ 600 ≤ proc.oomadj ∧ proc.oomadj < 700 then 200 else proc.oomadj
  let (found, s) := softLimitPath w s app
  if !found then s
  else
    match s.reg.pidLookup proc.pid with
    | none =>
      let (pidfd, s) := openPidfd w s proc.pid
      if s.pidfdSupported ∧ pidfd < 0 then s
      else
        let (mem, s) := s.ask w.calloc
        if !mem then s
        else
          let p : Proc := { pid := proc.pid, pidfd := pidfd, uid := proc.uid, oomadj := oomAdjScore,
                            regPid := cred.pid, valid := true, pidhashNext := none }
          { s with reg := (s.reg.alloc p).procInsert s.reg.brk p.pid }
    | some a =>
      match s.reg.claimRecord a cred.pid with
      | (false, _) => s
      | (true, reg) => { s with reg := Registry.rescored a oomAdjScore reg }

/-- `writefilestring("/proc/<pid>/oom_score_adj", ...)`. `/proc` has a directory for each
process, and process ids are positive, so the file of any other pid does not exist and the
write fails; for a positive pid the kernel's answer is read from `w`. -/
def writeOomScoreAdjFile (w : CtrlWorld) (s : Daemon) (pid : Int) : Bool × Daemon :=
  if 0 < pid then s.ask w.writeOomScoreAdj else (false, s)

/-- `apply_proc_prio(params, cred)`: the range checks, the thread-group-leader check, the
write of `oom_score_adj`, then the registration. With the in-kernel interface only the
task name is stored, which is not modelled. -/
def applyProcPrio (w : CtrlWorld) (s : Daemon) (params : LmkProcprio) (cred : Ucred) : Daemon :=
  if params.oomadj < oomScoreAdjMin ∨ params.oomadj > oomScoreAdjMax then s
  else if params.ptype < procTypeFirst ∨ params.ptype ≥ procTypeCount then s
  else
    let (status, s) := s.ask w.readProcStatus
    match status.bind fun buf => parseStatusTag buf "Tgid:".toList with
    | some tgid =>
      if tgid ≠ params.pid then s
      else
        let (written, s) := writeOomScoreAdjFile w s params.pid
        if !written then s
        else if s.useInkernelInterface then s
        else registerOomAdjProc w s params cred
    | none =>
      let (written, s) := writeOomScoreAdjFile w s params.pid
      if !written then s
      else if s.useInkernelInterface then s
      else registerOomAdjProc w s params cred

/-- `cmd_procs_prio(packet, field_count, cred)`. -/
def cmdProcsPrio (w : CtrlWorld) (s : Daemon) (msg : Msg) (fieldCount : Int) (cred : Ucred) :
    Daemon :=
  match msg.procsPrio fieldCount with
  | none => s
  | some procs => procs.foldl (fun s params => applyProcPrio w s params cred) s

/-! ## Removal -/

/-- `cmd_procremove(packet, cred)`. With the in-kernel interface it only polls the kernel
driver and drops the task name, which are not modelled. -/
def cmdProcremove (s : Daemon) (pid : Int) (cred : Ucred) : Daemon :=
  if s.useInkernelInterface then s
  else
    match s.reg.pidLookup pid with
    | none => s
    | some a =>
      match s.reg.claimRecord a cred.pid with
      | (false, _) => s
      | (true, reg) => ({ s with reg := reg }.pidRemove pid).1

/-- The walk of `cmd_procpurge` along one chain, the successor saved before the record is
removed. -/
def procpurgeChain (pid : Int) : Nat → Daemon → Option Nat → Daemon
  | 0, s, _ => s
  | _ + 1, s, none => s
  | n + 1, s, some a =>
    match s.reg.procs a with
    | none => s
    | some p =>
      match s.reg.claimRecord a pid with
      | (false, _) => procpurgeChain pid n s p.pidhashNext
      | (true, reg) => procpurgeChain pid n ({ s with reg := reg }.pidRemove p.pid).1 p.pidhashNext

/-- `cmd_procpurge(cred)`: every record the sender can claim is removed. -/
def cmdProcpurge (s : Daemon) (cred : Ucred) : Daemon :=
  if s.useInkernelInterface then s
  else (List.range pidhashSz).foldl
    (fun s i => procpurgeChain cred.pid s.reg.brk s (s.reg.pidhash i)) s

/-! ## Connections -/

/-- `ctrl_data_close(dsock_idx)` up to its `remove_claims`: `maxevents` drops whether the
`EPOLL_CTL_DEL` succeeds or not, and the socket is closed. -/
def closeDataSock (s : Daemon) (i : Nat) : Daemon :=
  let d := s.dataSock i
  let s := { (s.epollCtlDel d.sock).2 with maxevents := s.maxevents - 1 }.close d.sock
  { s with dataSock := Function.update s.dataSock i { d with sock := -1 } }

/-- `ctrl_data_close(dsock_idx)`: the records of the connection's last sender are
released. -/
def ctrlDataClose (s : Daemon) (i : Nat) : Daemon :=
  let s' := closeDataSock s i
  { s' with reg := s'.reg.removeClaims (s.dataSock i).pid }

/-- `ctrl_data_read(dsock_idx, ...)`: the message and its sender, or `none` for `-1`. A
message without credentials closes the connection; one with credentials records the
sender's pid in the slot. -/
def ctrlDataRead (w : CtrlWorld) (s : Daemon) (i : Nat) : Option (Msg × Ucred) × Daemon :=
  let (ret, s) := s.ask w.recvmsg
  match ret with
  | none => (none, s)
  | some msg =>
    if msg.len = 0 then (none, s)
    else
      match msg.cred with
      | none => (none, ctrlDataClose s i)
      | some cred =>
        (some (msg, cred),
          { s with
            dataSock := Function.update s.dataSock i { (s.dataSock i) with pid := cred.pid } })

/-- `get_free_dsock()`. -/
def getFreeDsock (s : Daemon) : Option Nat :=
  (List.range maxDataConn).find? fun i => (s.dataSock i).sock < 0

/-- The slot `ctrl_connect_handler` gives a new connection: the first free one or, with
every slot taken, the first after all connections are dropped. -/
def freeSlot (s : Daemon) : Nat × Daemon :=
  match getFreeDsock s with
  | some i => (i, s)
  | none => (0, (List.range maxDataConn).foldl ctrlDataClose s)

/-- `ctrl_connect_handler(...)`. The slot's pid is left as it was. -/
def ctrlConnectHandler (w : CtrlWorld) (s : Daemon) : Daemon :=
  let (i, s) := freeSlot s
  let (sock, s) := s.ask w.accept
  let s := { s with dataSock := Function.update s.dataSock i { (s.dataSock i) with sock := sock } }
  if sock < 0 then s
  else
    let s := { s with
      dataSock := Function.update s.dataSock i { (s.dataSock i) with asyncEventMask := 0 } }
    let (ok, s) := s.epollCtlAdd w.epollCtlAdd sock (.ctrlData i)
    if !ok then ctrlDataClose s i else { s with maxevents := s.maxevents + 1 }

set_option maxRecDepth 100000 in
/-- A peer accepted whose socket the kernel refuses to register is closed through
`ctrl_data_close`, which decrements `maxevents` for a registration that never happened:
from a daemon whose count matches its one registration, the count drops to `0`. -/
theorem ctrlConnectHandler_unregistered_close :
    let s₀ : Daemon := Daemon.atRest defaultProps Registry.init
    let s := ctrlConnectHandler (acceptWorld 10 false) s₀
    s₀.maxevents = s₀.epoll.length ∧ s.epoll.length = 1 ∧ s.maxevents = 0 := by
  decide

/-! ## Commands -/

/-- `cmd_subscribe(dsock_idx, packet)`: `1 << evt_type` on an `int` is defined for
`evt_type` in `[0, 31]` only. -/
def cmdSubscribe (s : Daemon) (i : Nat) (evtType : Int) : Option Daemon :=
  if 0 ≤ evtType ∧ evtType < 32 then
    let d := s.dataSock i
    let d := { d with asyncEventMask := d.asyncEventMask ||| 1 <<< evtType.toNat }
    some { s with dataSock := Function.update s.dataSock i d }
  else none

/-- `cmd_getkillcnt(packet)`. -/
def cmdGetkillcnt (s : Daemon) (minOomadj maxOomadj : Int) : Option Int :=
  if s.useInkernelInterface then some 0 else s.getKillcnt minOomadj maxOomadj

/-- The length `snprintf` reports for `"%d:%d,"`. -/
def targetEntryLength (minfree adj : Int) : Nat :=
  (toString minfree).length + (toString adj).length + 2

/-- The loop of `cmd_target` over the targets from `i`, `len` characters of `minfree_str`
used: it stores each target, and stops once the text no longer fits. -/
def cmdTargetLoop (msg : Msg) : Nat → Nat → Nat → Daemon → Daemon
  | 0, _, _, s => s
  | n + 1, i, len, s =>
    let minfree := msg.arg (2 * i)
    let adj := msg.arg (2 * i + 1)
    let s := { s with lowmemMinfree := Function.update s.lowmemMinfree i minfree
                      lowmemAdj := Function.update s.lowmemAdj i adj }
    let len := len + targetEntryLength minfree adj
    if propertyValueMax ≤ len then s else cmdTargetLoop msg n (i + 1) len s

/-- `cmd_target(ntargets, packet)`: rate limited to one update a second. The property
`sys.lmk.minfree_levels` and the in-kernel driver's files it writes are not modelled. -/
def cmdTarget (w : CtrlWorld) (s : Daemon) (ntargets : Int) (msg : Msg) : Daemon :=
  if ntargets < 1 ∨ ntargets > maxTargets then s
  else
    let (now, s) := s.ask w.clock
    match now with
    | none => s
    | some currTm =>
      if getTimeDiffMs s.lastReqTm currTm < targetUpdateMinIntervalMs then s
      else
        let s := cmdTargetLoop msg ntargets.toNat 0 0 { s with lastReqTm := currTm }
        { s with lowmemTargetsSize := ntargets.toNat }

/-- `direct_reclaim_threshold_ms = 0`, once support for it was found missing. -/
def Daemon.dropDirectReclaimThreshold (s : Daemon) : Daemon :=
  if s.props.directReclaimThresholdMs > 0 then
    { s with props := { s.props with directReclaimThresholdMs := 0 } }
  else s

/-- What `LMK_UPDATE_PROPS` does once `update_props()` succeeded: monitors that were set up
are set up again with the new tunables, the result being `0` when that works, and without a
memevent listener `direct_reclaim_threshold_ms` is dropped. -/
def reinitMonitors (w : CtrlWorld) (s : Daemon) : Int × Daemon :=
  let (result, s) : Int × Daemon :=
    if !s.useInkernelInterface && s.mon.monitorsInitialized then
      let (ok, s) := initMonitors w.mon (destroyMonitors s)
      (if ok then 0 else -1, s)
    else (0, s)
  (result, if s.mon.memeventListener then s else s.dropDirectReclaimThreshold)

/-- The `LMK_UPDATE_PROPS` case of `ctrl_command_handler`: `update_props()` assigns the
tunables, the monitors are set up again with them, and the result is replied; a failure
makes the process `exit(1)` to be restarted. -/
def cmdUpdateProps (w : CtrlWorld) (s : Daemon) (i : Nat) : Daemon :=
  let (props, ok) := updateProps w.mon.store w.updatePropsHook
  let (result, s) := if ok then reinitMonitors w { s with props } else (-1, { s with props })
  let s := s.log (.reply (s.dataSock i).sock .updateProps [result])
  if result = 0 then s else { s with exitStatus := some 1 }

/-- The `LMK_START_MONITORING` case of `ctrl_command_handler`: the monitors are set up if
they were not and boot has completed; a failure makes the process `exit(1)`. -/
def cmdStartMonitoring (w : CtrlWorld) (s : Daemon) : Daemon :=
  if s.mon.monitorsInitialized then s
  else if !w.mon.store.getBool "sys.boot_completed" false then s
  else
    let (ok, s) := initMonitors w.mon s
    if ok then s else { s with exitStatus := some 1 }

/-- The `LMK_BOOT_COMPLETED` case of `ctrl_command_handler`: once, after boot has completed,
the memevent listener is set up, and without it `direct_reclaim_threshold_ms` is dropped.
The reply is `1` when this was done before and `-1` before boot has completed. -/
def cmdBootCompleted (w : CtrlWorld) (s : Daemon) (i : Nat) : Daemon :=
  let (result, s) : Int × Daemon :=
    if s.mon.bootCompletedHandled then (1, s)
    else if !w.mon.store.getBool "sys.boot_completed" false then (-1, s)
    else
      let (ok, s) := initMemeventListenerMonitoring w.mon s
      let s := if ok then s else s.dropDirectReclaimThreshold
      (0, s.setMon fun m => { m with bootCompletedHandled := true })
  s.log (.reply (s.dataSock i).sock .bootCompleted [result])

/-- `ctrl_command_handler(dsock_idx)`. A message of a wrong length for its command is
logged and dropped. -/
def ctrlCommandHandler (w : CtrlWorld) (s : Daemon) (i : Nat) : Option Daemon :=
  match ctrlDataRead w s i with
  | (none, s) => some s
  | (some (msg, cred), s) =>
    let len : Int := msg.len
    if len < 4 then some s
    else
      let nargs := len / 4 - 1
      match msg.cmd with
      | some .target =>
        if nargs % 2 = 1 ∨ nargs / 2 > maxTargets then some s
        else some (cmdTarget w s (nargs / 2) msg)
      | some .procprio =>
        if nargs < 3 ∨ nargs > 4 then some s else some (applyProcPrio w s (msg.procprio nargs) cred)
      | some .procremove => if nargs ≠ 1 then some s else some (cmdProcremove s (msg.arg 0) cred)
      | some .procpurge => if nargs ≠ 0 then some s else some (cmdProcpurge s cred)
      | some .getkillcnt =>
        if nargs ≠ 2 then some s
        else (cmdGetkillcnt s (msg.arg 0) (msg.arg 1)).map fun n =>
          s.log (.reply (s.dataSock i).sock .getkillcnt [n])
      | some .subscribe => if nargs ≠ 1 then some s else cmdSubscribe s i (msg.arg 0)
      | some .updateProps => if nargs ≠ 0 then some s else some (cmdUpdateProps w s i)
      | some .startMonitoring => if nargs ≠ 0 then some s else some (cmdStartMonitoring w s)
      | some .bootCompleted => if nargs ≠ 0 then some s else some (cmdBootCompleted w s i)
      | some .procsPrio => some (cmdProcsPrio w s msg nargs cred)
      | _ => some s

/-- A `PROCPRIO` of three fields from a peer with credentials is applied to the state the
read left. -/
theorem ctrlCommandHandler_procprio {w : CtrlWorld} {s : Daemon} {i : Nat} {msg : Msg}
    {cred : Ucred} (hread : (ctrlDataRead w s i).1 = some (msg, cred))
    (hcmd : msg.cmd = some .procprio) (hlen : msg.len = 16) :
    ctrlCommandHandler w s i =
      some (applyProcPrio w (ctrlDataRead w s i).2 (msg.procprio 3) cred) := by
  unfold ctrlCommandHandler
  rw [show ctrlDataRead w s i = (some (msg, cred), (ctrlDataRead w s i).2) from Prod.ext hread rfl]
  simp only [hcmd, hlen]
  rfl

/-- A `PROCREMOVE` from a peer with credentials removes the record the sender can claim. -/
theorem ctrlCommandHandler_procremove {w : CtrlWorld} {s : Daemon} {i : Nat} {msg : Msg}
    {cred : Ucred} (hread : (ctrlDataRead w s i).1 = some (msg, cred))
    (hcmd : msg.cmd = some .procremove) (hlen : msg.len = 8) :
    ctrlCommandHandler w s i = some (cmdProcremove (ctrlDataRead w s i).2 (msg.arg 0) cred) := by
  unfold ctrlCommandHandler
  rw [show ctrlDataRead w s i = (some (msg, cred), (ctrlDataRead w s i).2) from Prod.ext hread rfl]
  simp only [hcmd, hlen]
  rfl

set_option maxRecDepth 100000 in
/-- A `GETKILLCNT` with `min_oomadj` below `OOM_SCORE_ADJ_MIN` makes `get_killcnt` read
`killcnt_idx[-1]`, and a `SUBSCRIBE` to event `32` shifts `1` by `32`. -/
theorem ctrlCommandHandler_undefined :
    let s : Daemon :=
      ctrlConnectHandler (acceptWorld 10 true) (Daemon.atRest defaultProps Registry.init)
    (ctrlCommandHandler (msgWorld ⟨12, some .getkillcnt, [-1001, 0], some ⟨1000, 1000⟩⟩) s
      0).isNone ∧
    (ctrlCommandHandler (msgWorld ⟨8, some .subscribe, [32], some ⟨1000, 1000⟩⟩) s 0).isNone := by
  decide

/-! ## What a `TARGET` stores -/

/-- The characters the entries `"minfree:adj,"` of the `m` targets from `i` take in
`minfree_str`, as `snprintf` counts them. -/
def targetTextLength (msg : Msg) (i : Nat) : Nat → Nat
  | 0 => 0
  | m + 1 => targetEntryLength (msg.arg (2 * i)) (msg.arg (2 * i + 1)) + targetTextLength msg (i + 1) m

theorem targetTextLength_sub {msg : Msg} {i j : Nat} (h : i < j) :
    targetTextLength msg i (j - i) = targetEntryLength (msg.arg (2 * i)) (msg.arg (2 * i + 1)) +
      targetTextLength msg (i + 1) (j - (i + 1)) := by
  obtain ⟨m, hm⟩ : ∃ m, j - i = m + 1 := ⟨j - i - 1, by omega⟩
  rw [hm, targetTextLength, show j - (i + 1) = m by omega]

/-- The loop of `cmd_target` from target `i` stores target `j` exactly when the loop reaches
it: `j` is one of its `n` targets and the text before it still fits in `minfree_str`. -/
theorem cmdTargetLoop_tables (msg : Msg) (j : Nat) :
    ∀ (n i len : Nat) (s : Daemon), len < propertyValueMax →
      ((cmdTargetLoop msg n i len s).lowmemMinfree j, (cmdTargetLoop msg n i len s).lowmemAdj j) =
        if i ≤ j ∧ j < i + n ∧ len + targetTextLength msg i (j - i) < propertyValueMax then
          (msg.arg (2 * j), msg.arg (2 * j + 1))
        else (s.lowmemMinfree j, s.lowmemAdj j)
  | 0, i, _, s, _ => by rw [cmdTargetLoop, if_neg (by omega)]
  | n + 1, i, len, s, hlen => by
    unfold cmdTargetLoop
    dsimp only
    by_cases hji : j = i
    · subst hji
      have hrec : ∀ len' s', len' < propertyValueMax →
          ((cmdTargetLoop msg n (j + 1) len' s').lowmemMinfree j,
            (cmdTargetLoop msg n (j + 1) len' s').lowmemAdj j) =
            (s'.lowmemMinfree j, s'.lowmemAdj j) := fun len' s' h => by
        rw [cmdTargetLoop_tables msg j n (j + 1) len' s' h, if_neg (by omega)]
      split
      · simp [targetTextLength, hlen]
      · rw [hrec _ _ (by omega)]
        simp [targetTextLength, hlen]
    · have hupd : ∀ (f : Nat → Int) (v : Int), Function.update f i v j = f j :=
        fun f v => Function.update_noteq hji v f
      split
      · rename_i hfull
        simp only [hupd]
        rw [if_neg]
        rintro ⟨hij, -, hfit⟩
        rw [targetTextLength_sub (by omega)] at hfit
        omega
      · rw [cmdTargetLoop_tables msg j n (i + 1) _ _ (by omega)]
        simp only [hupd]
        by_cases hij : i < j
        · rw [targetTextLength_sub hij]
          congr 1
          apply propext
          omega
        · rw [if_neg (by omega), if_neg (by omega)]

/-- An accepted `TARGET`: the size becomes `ntargets`, and target `j` is stored exactly
when `j < ntargets` and the entries before it fit in `minfree_str`. -/
theorem cmdTarget_tables {w : CtrlWorld} {s : Daemon} {ntargets : Int} {msg : Msg}
    {currTm : Timespec} (h₁ : 1 ≤ ntargets) (h₂ : ntargets ≤ maxTargets)
    (hclock : w.clock s.asked = some currTm)
    (hrate : targetUpdateMinIntervalMs ≤ getTimeDiffMs s.lastReqTm currTm) (j : Nat) :
    let r : Daemon := cmdTarget w s ntargets msg
    r.lowmemTargetsSize = ntargets.toNat ∧
    (r.lowmemMinfree j, r.lowmemAdj j) =
      if j < ntargets.toNat ∧ targetTextLength msg 0 j < propertyValueMax then
        (msg.arg (2 * j), msg.arg (2 * j + 1))
      else (s.lowmemMinfree j, s.lowmemAdj j) := by
  simp only [cmdTarget, if_neg (show ¬(ntargets < 1 ∨ ntargets > maxTargets) by omega),
    Daemon.ask, hclock, if_neg (not_lt.mpr hrate)]
  refine ⟨trivial, ?_⟩
  rw [cmdTargetLoop_tables msg j _ 0 0 _ (by decide)]
  simp only [Nat.zero_le, Nat.zero_add, Nat.sub_zero, true_and]

/-- A `TARGET` that is not accepted, because the clock cannot be read or the last accepted
one is less than `TARGET_UPDATE_MIN_INTERVAL_MS` old, leaves the targets as they were. -/
theorem cmdTarget_rate_limited {w : CtrlWorld} {s : Daemon} {ntargets : Int} {msg : Msg}
    (hrate : ∀ currTm, w.clock s.asked = some currTm →
      getTimeDiffMs s.lastReqTm currTm < targetUpdateMinIntervalMs) :
    let r : Daemon := cmdTarget w s ntargets msg
    r.lowmemMinfree = s.lowmemMinfree ∧ r.lowmemAdj = s.lowmemAdj ∧
      r.lowmemTargetsSize = s.lowmemTargetsSize := by
  simp only [cmdTarget, Daemon.ask]
  split
  · exact ⟨rfl, rfl, rfl⟩
  · split
    · exact ⟨rfl, rfl, rfl⟩
    · rename_i currTm hclock
      rw [if_pos (hrate currTm hclock)]
      exact ⟨rfl, rfl, rfl⟩

set_option maxRecDepth 100000 in
/-- Six targets whose entries `"-2147483648:-2147483648,"` take 24 characters each: after
the fourth the text has 96 of the 92 characters of `minfree_str` and the loop stops, yet
`lowmem_targets_size` becomes 6, so targets 4 and 5 keep the zeros they had. -/
theorem ctrlCommandHandler_target_truncated :
    let target : Msg := ⟨52, some .target, List.replicate 12 (-2147483648), some ⟨1000, 1000⟩⟩
    let s : Daemon :=
      ctrlConnectHandler (acceptWorld 10 true) (Daemon.atRest defaultProps Registry.init)
    ∃ d, ctrlCommandHandler { msgWorld target with clock := fun _ => some ⟨10, 0⟩ } s 0 = some d ∧
      d.lowmemTargetsSize = 6 ∧ d.lowmemMinfree 3 = -2147483648 ∧ d.lowmemAdj 3 = -2147483648 ∧
      d.lowmemMinfree 4 = 0 ∧ d.lowmemAdj 4 = 0 ∧ d.lowmemMinfree 5 = 0 ∧ d.lowmemAdj 5 = 0 :=
  ⟨_, rfl, rfl, rfl, rfl, rfl, rfl, rfl, rfl⟩

/-! ## What a message can do -/

section Cases

open Daemon

variable (w : CtrlWorld)

/-- The commands that change the registry, as a peer of credentials `cred` sends them from
`s`. -/
inductive RegCommand (s : Daemon) (cred : Ucred) : Daemon → Prop
  | procprio (params : LmkProcprio) : RegCommand s cred (applyProcPrio w s params cred)
  | procremove (pid : Int) : RegCommand s cred (cmdProcremove s pid cred)
  | procpurge : RegCommand s cred (cmdProcpurge s cred)
  | procsPrio (msg : Msg) (fieldCount : Int) :
      RegCommand s cred (cmdProcsPrio w s msg fieldCount cred)

theorem untouched_cmdTargetLoop (msg : Msg) :
    ∀ n i len (s : Daemon), Untouched s (cmdTargetLoop msg n i len s)
  | 0, _, _, s => .refl s
  | n + 1, i, len, s => by
    unfold cmdTargetLoop
    dsimp only
    split
    · exact untouched_of_frame rfl rfl rfl
    · exact (untouched_cmdTargetLoop msg n _ _ _).frame_left rfl rfl rfl

theorem untouched_cmdTarget (s : Daemon) (ntargets : Int) (msg : Msg) :
    Untouched s (cmdTarget w s ntargets msg) := by
  unfold cmdTarget
  split
  · exact .refl s
  dsimp only
  have h₁ := untouched_ask s w.clock
  split
  · exact h₁
  split
  · exact h₁
  · exact h₁.trans (Untouched.frame_left
      ((untouched_cmdTargetLoop msg _ _ _ _).frame rfl rfl rfl) rfl rfl rfl)

theorem untouched_cmdSubscribe {s s' : Daemon} {i : Nat} {evtType : Int}
    (he : cmdSubscribe s i evtType = some s') : Untouched s s' := by
  unfold cmdSubscribe at he
  split at he <;> cases he
  exact untouched_of_frame rfl rfl rfl

theorem untouched_dropDirectReclaimThreshold (s : Daemon) :
    Untouched s s.dropDirectReclaimThreshold := by
  unfold Daemon.dropDirectReclaimThreshold
  split
  · exact untouched_of_frame rfl rfl rfl
  · exact .refl s

theorem untouched_reinitMonitors (s : Daemon) : Untouched s (reinitMonitors w s).2 := by
  unfold reinitMonitors
  split
  next r t e =>
  have h : Untouched s t := by
    refine Untouched.of_eq ?_ e
    split
    · exact (untouched_destroyMonitors s).trans (untouched_initMonitors w.mon _)
    · exact .refl s
  split
  · exact h
  · exact h.trans (untouched_dropDirectReclaimThreshold t)

theorem untouched_cmdUpdateProps (s : Daemon) (i : Nat) :
    Untouched s (cmdUpdateProps w s i) := by
  unfold cmdUpdateProps
  split
  next props ok e =>
  have h₁ : Untouched s { s with props } := untouched_of_frame rfl rfl rfl
  have h₂ : Untouched s
      (if ok then reinitMonitors w { s with props } else (-1, { s with props })).2 := by
    split
    · exact h₁.trans (untouched_reinitMonitors w _)
    · exact h₁
  generalize (if ok then reinitMonitors w { s with props } else (-1, { s with props })) = p
    at h₂ ⊢
  obtain ⟨result, t⟩ := p
  dsimp only at h₂ ⊢
  split
  · exact h₂.trans (untouched_log (e := .reply _ _ _) rfl)
  · exact (h₂.trans (untouched_log (e := .reply _ _ _) rfl)).frame rfl rfl rfl

theorem untouched_cmdStartMonitoring (s : Daemon) : Untouched s (cmdStartMonitoring w s) := by
  unfold cmdStartMonitoring
  split
  · exact .refl s
  split
  · exact .refl s
  split
  next ok t e =>
  have h := (untouched_initMonitors w.mon s).of_eq e
  split
  · exact h
  · exact h.frame rfl rfl rfl

theorem untouched_cmdBootCompleted (s : Daemon) (i : Nat) :
    Untouched s (cmdBootCompleted w s i) := by
  unfold cmdBootCompleted
  split
  next r t e =>
  refine (Untouched.of_eq ?_ e).trans (untouched_log (e := .reply _ _ _) rfl)
  split
  · exact .refl s
  split
  · exact .refl s
  split
  next ok t e =>
  have h := (untouched_initMemeventListenerMonitoring w.mon s).of_eq e
  split
  · exact h.trans (untouched_setMon _ _)
  · exact (h.trans (untouched_dropDirectReclaimThreshold _)).trans (untouched_setMon _ _)

/-- What a message on data connection `i` can do: change the registry by one of the commands
that register or remove records, for the sender the read found, or leave the registry, the
kills and the kill counters as the read left them. -/
theorem ctrlCommandHandler_cases {s s' : Daemon} {i : Nat}
    (he : ctrlCommandHandler w s i = some s') :
    Untouched (ctrlDataRead w s i).2 s' ∨ ∃ msg cred,
      (ctrlDataRead w s i).1 = some (msg, cred) ∧
        RegCommand w (ctrlDataRead w s i).2 cred s' := by
  unfold ctrlCommandHandler at he
  generalize ctrlDataRead w s i = x at he ⊢
  obtain ⟨_ | ⟨msg, cred⟩, s₁⟩ := x
  · cases he; exact .inl (.refl _)
  dsimp only at he ⊢
  split at he
  · cases he; exact .inl (.refl _)
  split at he
  · split at he <;> cases he
    · exact .inl (.refl _)
    · exact .inl (untouched_cmdTarget w _ _ _)
  · split at he <;> cases he
    · exact .inl (.refl _)
    · exact .inr ⟨msg, cred, rfl, .procprio _⟩
  · split at he <;> cases he
    · exact .inl (.refl _)
    · exact .inr ⟨msg, cred, rfl, .procremove _⟩
  · split at he <;> cases he
    · exact .inl (.refl _)
    · exact .inr ⟨msg, cred, rfl, .procpurge⟩
  · split at he
    · cases he; exact .inl (.refl _)
    · obtain ⟨n, -, rfl⟩ := Option.map_eq_some'.mp he
      exact .inl (untouched_log rfl)
  · split at he
    · cases he; exact .inl (.refl _)
    · exact .inl (untouched_cmdSubscribe he)
  · split at he <;> cases he
    · exact .inl (.refl _)
    · exact .inl (untouched_cmdUpdateProps w _ _)
  · split at he <;> cases he
    · exact .inl (.refl _)
    · exact .inl (untouched_cmdStartMonitoring w _)
  · split at he <;> cases he
    · exact .inl (.refl _)
    · exact .inl (untouched_cmdBootCompleted w _ _)
  · cases he; exact .inr ⟨msg, cred, rfl, .procsPrio _ _⟩
  · cases he; exact .inl (.refl _)

end Cases

/-! ## The registry invariant -/

section Valid

open Registry

variable (w : CtrlWorld)

@[simp] theorem softLimitPath_reg (s : Daemon) (app : Bool) :
    (softLimitPath w s app).2.reg = s.reg := by
  unfold softLimitPath; split <;> rfl

@[simp] theorem openPidfd_reg (s : Daemon) (pid : Int) : (openPidfd w s pid).2.reg = s.reg := by
  unfold openPidfd; split <;> rfl

theorem valid_registerOomAdjProc {s : Daemon} (h : s.reg.Valid) (proc : LmkProcprio)
    (cred : Ucred) (h₁ : oomScoreAdjMin ≤ proc.oomadj) (h₂ : proc.oomadj ≤ oomScoreAdjMax)
    (hpos : 0 < proc.pid) : (registerOomAdjProc w s proc cred).reg.Valid := by
  obtain ⟨S, hS⟩ := h
  -- the score registered is the one asked for or `200`
  have hadj : ∀ c : Prop, [Decidable c] → oomScoreAdjMin ≤ (if c then 200 else proc.oomadj) ∧
      (if c then 200 else proc.oomadj) ≤ oomScoreAdjMax := by
    intro c _
    split_ifs
    · decide
    · exact ⟨h₁, h₂⟩
  unfold registerOomAdjProc
  dsimp only
  split
  · exact ⟨S, by simpa using hS⟩
  simp only [softLimitPath_reg]
  split
  · rename_i hnone
    split
    · exact ⟨S, by simpa using hS⟩
    split
    · exact ⟨S, by simpa using hS⟩
    simp only [Daemon.ask_reg, openPidfd_reg, softLimitPath_reg]
    exact ⟨_, hS.insert (hadj _).1 (hadj _).2 (hS.pidLookup_eq_none.mp hnone) hpos⟩
  · split
    · exact ⟨S, by simpa using hS⟩
    · rename_i hc
      obtain ⟨hS', hp⟩ := hS.claimRecord hc
      obtain ⟨p, hp⟩ := hp rfl
      exact ⟨_, hS'.rescore hp (hadj _).1 (hadj _).2⟩

/-- A loop of calls that each keep the invariant keeps it. -/
theorem valid_foldl {α : Type} (f : Daemon → α → Daemon)
    (hf : ∀ s a, s.reg.Valid → (f s a).reg.Valid) :
    ∀ (l : List α) (s : Daemon), s.reg.Valid → (l.foldl f s).reg.Valid
  | [], _, h => h
  | a :: l, s, h => valid_foldl f hf l (f s a) (hf s a h)

/-- `apply_proc_prio` either only reads the kernel's answers, or registers, on the state
those reads leave, a pid with a score in range whose `oom_score_adj` file it wrote. -/
theorem applyProcPrio_cases (s : Daemon) (params : LmkProcprio) (cred : Ucred) :
    (∃ n, applyProcPrio w s params cred = { s with asked := n }) ∨
      (oomScoreAdjMin ≤ params.oomadj ∧ params.oomadj ≤ oomScoreAdjMax ∧ 0 < params.pid ∧
        ∃ n, applyProcPrio w s params cred = registerOomAdjProc w { s with asked := n } params cred) := by
  unfold applyProcPrio writeOomScoreAdjFile
  split
  · exact .inl ⟨_, rfl⟩
  split
  · exact .inl ⟨_, rfl⟩
  dsimp only
  split
  · split
    · exact .inl ⟨_, rfl⟩
    split
    · split
      · exact .inl ⟨_, rfl⟩
      split
      · exact .inl ⟨_, rfl⟩
      · exact .inr ⟨by omega, by omega, ‹_›, _, rfl⟩
    · exact .inl ⟨_, rfl⟩
  · split
    · split
      · exact .inl ⟨_, rfl⟩
      split
      · exact .inl ⟨_, rfl⟩
      · exact .inr ⟨by omega, by omega, ‹_›, _, rfl⟩
    · exact .inl ⟨_, rfl⟩

theorem valid_applyProcPrio {s : Daemon} (h : s.reg.Valid) (params : LmkProcprio)
    (cred : Ucred) : (applyProcPrio w s params cred).reg.Valid := by
  rcases applyProcPrio_cases w s params cred with ⟨n, e⟩ | ⟨h₁, h₂, hpos, n, e⟩ <;> rw [e]
  · exact h
  · exact valid_registerOomAdjProc w (s := { s with asked := n }) h params cred h₁ h₂ hpos

theorem valid_cmdProcsPrio {s : Daemon} (h : s.reg.Valid) (msg : Msg) (fieldCount : Int)
    (cred : Ucred) : (cmdProcsPrio w s msg fieldCount cred).reg.Valid := by
  unfold cmdProcsPrio
  split
  · exact h
  · exact valid_foldl _ (fun s params h => valid_applyProcPrio w h params cred) _ _ h

theorem valid_cmdProcremove {s : Daemon} (h : s.reg.Valid) (pid : Int) (cred : Ucred) :
    (cmdProcremove s pid cred).reg.Valid := by
  unfold cmdProcremove
  split
  · exact h
  split
  · exact h
  split
  · exact h
  · rename_i hc
    obtain ⟨S, hS⟩ := h
    exact Daemon.valid_pidRemove (s := { s with reg := _ }) (hS.claimRecord hc).1.valid pid

theorem valid_procpurgeChain (pid : Int) (n : Nat) :
    ∀ (s : Daemon) (c : Option Nat), s.reg.Valid → (procpurgeChain pid n s c).reg.Valid := by
  induction n with
  | zero => intro s c h; exact h
  | succ n ih =>
    intro s c h
    cases c with
    | none => exact h
    | some a =>
      unfold procpurgeChain
      split
      · exact h
      split
      · exact ih _ _ h
      · rename_i hc
        obtain ⟨S, hS⟩ := h
        exact ih _ _ (Daemon.valid_pidRemove (s := { s with reg := _ })
          (hS.claimRecord hc).1.valid _)

theorem valid_cmdProcpurge {s : Daemon} (h : s.reg.Valid) (cred : Ucred) :
    (cmdProcpurge s cred).reg.Valid := by
  unfold cmdProcpurge
  split
  · exact h
  · exact valid_foldl _ (fun s i h => valid_procpurgeChain _ _ _ _ h) _ _ h

@[simp] theorem closeDataSock_reg (s : Daemon) (i : Nat) : (closeDataSock s i).reg = s.reg := rfl

theorem ctrlDataClose_reg (s : Daemon) (i : Nat) :
    (ctrlDataClose s i).reg = s.reg.removeClaims (s.dataSock i).pid := by
  simp only [ctrlDataClose, closeDataSock_reg]

/-- Over a registry satisfying the invariant, `ctrl_data_close` releases exactly the records
claimed by the slot's pid. -/
theorem ctrlDataClose_eq_release {s : Daemon} (h : s.reg.Valid) (i : Nat) :
    ctrlDataClose s i =
      { closeDataSock s i with reg := s.reg.releaseClaims (s.dataSock i).pid } := by
  obtain ⟨S, hS⟩ := h
  rw [← hS.removeClaims_eq, ctrlDataClose, closeDataSock_reg]

theorem valid_ctrlDataClose {s : Daemon} (h : s.reg.Valid) (i : Nat) :
    (ctrlDataClose s i).reg.Valid := by
  obtain ⟨S, hS⟩ := h
  rw [ctrlDataClose_reg]
  exact (hS.removeClaims (s.dataSock i).pid).valid

theorem valid_ctrlDataRead {s : Daemon} (h : s.reg.Valid) (i : Nat) :
    (ctrlDataRead w s i).2.reg.Valid := by
  unfold ctrlDataRead
  dsimp only
  split
  · exact h
  · split
    · exact h
    · split
      · exact valid_ctrlDataClose h i
      · exact h

theorem valid_freeSlot {s : Daemon} (h : s.reg.Valid) : (freeSlot s).2.reg.Valid := by
  unfold freeSlot
  split
  · exact h
  · exact valid_foldl _ (fun s i h => valid_ctrlDataClose h i) _ _ h

theorem valid_ctrlConnectHandler {s : Daemon} (h : s.reg.Valid) :
    (ctrlConnectHandler w s).reg.Valid := by
  have h₀ := valid_freeSlot h
  unfold ctrlConnectHandler
  generalize freeSlot s = x at h₀
  obtain ⟨i, s₁⟩ := x
  dsimp only at h₀ ⊢
  split
  · exact h₀
  · split
    · refine valid_ctrlDataClose ?_ _
      simpa only [Daemon.epollCtlAdd_reg] using h₀
    · simpa only [Daemon.epollCtlAdd_reg] using h₀

theorem RegCommand.valid {s s' : Daemon} {cred : Ucred} (hc : RegCommand w s cred s')
    (h : s.reg.Valid) : s'.reg.Valid := by
  cases hc with
  | procprio params => exact valid_applyProcPrio w h _ _
  | procremove pid => exact valid_cmdProcremove h _ _
  | procpurge => exact valid_cmdProcpurge h _
  | procsPrio msg fieldCount => exact valid_cmdProcsPrio w h _ _ _

theorem valid_ctrlCommandHandler {s s' : Daemon} (h : s.reg.Valid) (i : Nat)
    (he : ctrlCommandHandler w s i = some s') : s'.reg.Valid := by
  have hr := valid_ctrlDataRead w h i
  rcases ctrlCommandHandler_cases w he with hu | ⟨_, _, -, hc⟩
  · exact hu.1 ▸ hr
  · exact hc.valid w hr

end Valid

/-! ## A reconnecting peer -/

set_option maxRecDepth 100000 in
/-- The pid of a slot outlives its connection. A peer of pid `1000` registers pid `100` on
slot 0 and hangs up, which releases the record; a second peer takes slot 0, and the first
peer reconnects on slot 2 and claims the record again. When the second peer hangs up
without having sent anything, `ctrl_data_close` releases the records of the slot's stale
pid `1000`, although that peer is connected on slot 2. -/
theorem ctrlDataClose_releases_connected_peer :
    let procprio : Msg := ⟨16, some .procprio, [100, 10000, 900], some ⟨1000, 1000⟩⟩
    let s₁ := ctrlConnectHandler (acceptWorld 10 true) (Daemon.atRest defaultProps Registry.init)
    ((ctrlCommandHandler (msgWorld procprio) s₁ 0).bind fun s₂ =>
      let s₃ := ctrlDataClose (ctrlConnectHandler (acceptWorld 11 true) s₂) 0
      let s₄ :=
        ctrlConnectHandler (acceptWorld 13 true) (ctrlConnectHandler (acceptWorld 12 true) s₃)
      (ctrlCommandHandler (msgWorld procprio) s₄ 2).map fun s₅ =>
        ((s₅.reg.procs 0).map Proc.regPid, ((ctrlDataClose s₅ 0).reg.procs 0).map Proc.regPid,
          (ctrlDataClose s₅ 0).dataSock 2)) =
      some (some 1000, some 0, ⟨13, 1000, 0⟩) := by
  intro procprio s₁
  have hcmd : ∀ s j, ctrlCommandHandler (msgWorld procprio) s j =
      some (applyProcPrio (msgWorld procprio) (ctrlDataRead (msgWorld procprio) s j).2
        (procprio.procprio 3) ⟨1000, 1000⟩) :=
    fun s j => ctrlCommandHandler_procprio rfl rfl rfl
  simp only [hcmd, Option.some_bind, Option.map_some']
  -- `remove_claims` walks all 1024 chains; its spec lemma lets the run be evaluated
  rw [ctrlDataClose_eq_release (s := applyProcPrio _ _ _ _) ?outer,
    ctrlDataClose_eq_release ?inner]
  · decide
  case inner =>
    exact valid_ctrlConnectHandler _ (valid_applyProcPrio _
      (valid_ctrlDataRead _ (valid_ctrlConnectHandler _ Registry.valid_init) _) _ _)
  case outer =>
    exact valid_applyProcPrio _ (valid_ctrlDataRead _ (valid_ctrlConnectHandler _
      (valid_ctrlConnectHandler _ (valid_ctrlDataClose (valid_ctrlConnectHandler _
        (valid_applyProcPrio _
          (valid_ctrlDataRead _ (valid_ctrlConnectHandler _ Registry.valid_init) _) _ _)) _))) _) _ _

end Lmkd
