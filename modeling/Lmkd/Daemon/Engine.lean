import Lmkd.Daemon.Victim
import Lmkd.Daemon.Ctrl

/-!
# The memory-pressure engines

`__mp_event_psi`, the PSI strategy (and the vendor kill events of the memevent listener),
and `mp_event_common`, the vmpressure strategy with its `use_minfree_levels` mode: the
readings of `/proc/vmstat`, `/proc/meminfo`, `/proc/zoneinfo` and `/proc/pressure/memory`
they take, the statics they keep from one event to the next, the `min_score_adj` they
hand to `find_and_kill_process`, and the polling update they ask of the main loop.
Counters that only feed log lines and kill reports (`wakeup_info`, `mp_event_count`,
`kill_skip_count`, the report's PSI averages) are left out.

The readings come from oracles, like the kernel's answers on the kill path; readings of
kernel counters are natural numbers. Arithmetic is on `Int`: the 64-bit products of the
thrashing estimate and of the memcg pressure are taken not to overflow, and the `0.1`
of `record_low_pressure_levels` is taken as an exact tenth. `none` is undefined behaviour,
as on the kill path: an index outside `procadjslot_list` in `find_and_kill_process`, a
watermark sum of `calc_zone_watermarks` that overflows a `long` (64 bits, as on the 64-bit
targets), or a shift of `prev_thrash_growth` by 64 or more.
-/

namespace Lmkd

/-! ## Readings -/

/-- The fields of `union vmstat` the engine reads. -/
structure VmStat where
  nrInactiveFile : Nat
  nrActiveFile : Nat
  workingsetRefault : Nat
  workingsetRefaultFile : Nat
  pgscanKswapd : Nat
  pgscanDirect : Nat
  pgrefill : Nat
  deriving DecidableEq, Repr

/-- The fields of `union meminfo` the engines read, in pages; `easy_available` as
`meminfo_parse` computes it. -/
structure MemInfo where
  nrFreePages : Int
  cmaFree : Int
  nrFilePages : Int
  shmem : Int
  unevictable : Int
  swapCached : Int
  activeAnon : Int
  inactiveAnon : Int
  totalSwap : Int
  freeSwap : Int
  easyAvailable : Int
  deriving DecidableEq, Repr

/-- A zone of `struct zoneinfo`, with the fields `calc_zone_watermarks` sums. -/
structure Zone where
  present : Bool
  maxProtection : Int
  high : Int
  low : Int
  min : Int
  deriving DecidableEq, Repr

/-- `struct zoneinfo`: the zones of all nodes in order, and `totalreserve_pages`. -/
structure ZoneInfo where
  zones : List Zone
  totalreservePages : Int
  deriving DecidableEq, Repr

/-- `struct zone_watermarks`. -/
structure ZoneWatermarks where
  highWmark : Int
  lowWmark : Int
  minWmark : Int
  deriving DecidableEq, Repr

/-- What the kernel answers the engines, besides the kill path's answers. -/
structure EngineWorld where
  kill : KillWorld
  /-- `clock_gettime(CLOCK_MONOTONIC_COARSE, ...)`, `none` on failure. -/
  clock : Nat → Option Timespec
  /-- Whether `/proc/<pid>/` exists, for `is_kill_pending` without pidfds. -/
  procExists : Nat → Bool
  vmstat : Nat → Option VmStat
  meminfo : Nat → Option MemInfo
  zoneinfo : Nat → Option ZoneInfo
  /-- `avg10` of the `full` line of `/proc/pressure/memory`, in hundredths. -/
  psiMemFullAvg10 : Nat → Option Int
  /-- The values `get_memory_usage` parses from the memcg usage files. -/
  memUsage : Nat → Option Int
  memswUsage : Nat → Option Int
  /-- The count read from a vmpressure eventfd, `0` when the read fails. -/
  mpevCount : Nat → Nat
  /-- `VENDOR_KILL_REASON_END` of the statsd atoms header, which is not part of the
  source: the results hold for every value. -/
  vendorKillReasonEnd : Int

/-! ## Constants and small helpers -/

/-- `enum vmpressure_level`. -/
def vmpressLevelLow : Nat := 0
def vmpressLevelMedium : Nat := 1
def vmpressLevelCritical : Nat := 2

/-- `enum zone_watermark`. -/
def wmarkMin : Nat := 0
def wmarkLow : Nat := 1
def wmarkHigh : Nat := 2
def wmarkNone : Nat := 3

def psiWindowSizeMs : Int := 1000
def psiPollPeriodShortMs : Int := 10
def psiPollPeriodLongMs : Int := 100
def thrashingResetIntervalMs : Int := 1000
def failReportRlimitMs : Int := 1000

def upgradeLevel (level : Nat) : Nat :=
  if level < vmpressLevelCritical then level + 1 else level

def downgradeLevel (level : Nat) : Nat :=
  if level > vmpressLevelLow then level - 1 else level

def getLowestWatermark (mi : MemInfo) (wm : ZoneWatermarks) : Nat :=
  let nrFreePages := mi.nrFreePages - mi.cmaFree
  if nrFreePages < wm.minWmark then wmarkMin
  else if nrFreePages < wm.lowWmark then wmarkLow
  else if nrFreePages < wm.highWmark then wmarkHigh
  else wmarkNone

/-- An addition of two 64-bit signed integers; `none` when the sum does not fit, which C
leaves undefined. -/
def addInt64 (a b : Int) : Option Int :=
  if -2 ^ 63 ≤ a + b ∧ a + b < 2 ^ 63 then some (a + b) else none

/-- `acc += a + b` on 64-bit signed integers. -/
def accumulateInt64 (acc a b : Int) : Option Int := addInt64 a b >>= addInt64 acc

theorem addInt64_eq {a b : Int} (ha : 0 ≤ a) (hb : 0 ≤ b) (h : a + b < 2 ^ 63) :
    addInt64 a b = some (a + b) :=
  if_pos ⟨by omega, h⟩

theorem accumulateInt64_eq {acc a b : Int} (hacc : 0 ≤ acc) (ha : 0 ≤ a) (hb : 0 ≤ b)
    (h : acc + (a + b) < 2 ^ 63) : accumulateInt64 acc a b = some (acc + (a + b)) := by
  simp only [accumulateInt64, addInt64_eq ha hb (by omega), Option.bind_eq_bind, Option.some_bind]
  exact addInt64_eq hacc (by omega) h

/-- A turn of the loop of `calc_zone_watermarks`: a present zone adds `max_protection`
and its watermark to each sum, a `long`. -/
def zoneWatermarksStep (wm : ZoneWatermarks) (z : Zone) : Option ZoneWatermarks :=
  if !z.present then some wm
  else do
    let highWmark ← accumulateInt64 wm.highWmark z.maxProtection z.high
    let lowWmark ← accumulateInt64 wm.lowWmark z.maxProtection z.low
    let minWmark ← accumulateInt64 wm.minWmark z.maxProtection z.min
    pure { highWmark, lowWmark, minWmark }

/-- `calc_zone_watermarks`; `none` when a sum overflows. -/
def calcZoneWatermarks (zi : ZoneInfo) : Option ZoneWatermarks :=
  zi.zones.foldlM zoneWatermarksStep ⟨0, 0, 0⟩

def getFreeSwap (props : Props) (mi : MemInfo) : Int :=
  if props.swapCompressionRatio ≠ 0 then
    min mi.freeSwap (mi.easyAvailable * props.swapCompressionRatio)
  else mi.freeSwap

def calcSwapUtilization (props : Props) (mi : MemInfo) : Int :=
  let swapUsed := mi.totalSwap - getFreeSwap props mi
  let totalSwappable := mi.activeAnon + mi.inactiveAnon + mi.shmem + swapUsed
  if totalSwappable > 0 then (swapUsed * 100).tdiv totalSwappable else 0

/-- `get_memory_usage(file_data)`: `-1` when the file cannot be read or parsed, or
reads `0`. -/
def getMemoryUsage (parsed : Option Int) : Int :=
  match parsed with
  | some v => if v = 0 then -1 else v
  | none => -1

/-! ## The engines' statics -/

/-- `enum reclaim_state` of `__mp_event_psi`. -/
inductive Reclaim where
  | noReclaim
  | kswapdReclaim
  | directReclaim
  deriving DecidableEq, Repr

/-- `enum event_source` with its `union psi_event_data`: the level of a PSI event, or the
reason and `min_oom_score_adj` (as the `short` it is read into) of a vendor kill. -/
inductive EventSource where
  | psi (level : Nat)
  | vendor (reason minOomScoreAdj : Int)
  deriving DecidableEq, Repr

/-- The `level` local of `__mp_event_psi`. -/
def EventSource.level : EventSource → Nat
  | .psi level => level
  | .vendor .. => vmpressLevelLow

/-- `enum polling_update`. -/
inductive PollingUpdate where
  | doNotChange
  | start
  | pause
  | resume
  deriving DecidableEq, Repr

/-- `struct polling_params`, the main loop's local that every handler may update. -/
structure PollingParams where
  pollHandler : Option Handler
  pausedHandler : Option Handler
  pollStartTm : Timespec
  lastPollTm : Timespec
  pollingIntervalMs : Int
  update : PollingUpdate
  deriving DecidableEq, Repr

/-- The function statics of `__mp_event_psi`. -/
structure PsiStatics where
  initWsRefault : Int
  prevWorkingsetRefault : Int
  baseFileLru : Nat
  initPgscanKswapd : Nat
  initPgscanDirect : Nat
  initPgrefill : Nat
  killing : Bool
  thrashingLimit : Int
  wmarkUpdateTm : Timespec
  thrashingResetTm : Timespec
  prevThrashGrowth : Int
  checkFilecache : Bool
  maxThrashing : Int
  /-- The static `first_kill` of the kill branch. -/
  firstKill : Bool
  deriving DecidableEq, Repr

/-- The statics before the first event: `thrashing_limit` starts at `thrashing_limit_pct`
as it stands at the first call. -/
def PsiStatics.initial (props : Props) : PsiStatics where
  initWsRefault := 0
  prevWorkingsetRefault := 0
  baseFileLru := 0
  initPgscanKswapd := 0
  initPgscanDirect := 0
  initPgrefill := 0
  killing := false
  thrashingLimit := props.thrashingLimitPct
  wmarkUpdateTm := Timespec.zero
  thrashingResetTm := Timespec.zero
  prevThrashGrowth := 0
  checkFilecache := false
  maxThrashing := 0
  firstKill := true

/-- `low_pressure_mem`. -/
structure LowPressureMem where
  minNrFreePages : Int
  maxNrFreePages : Int
  deriving DecidableEq, Repr

/-- The file-scope statics of the engines, with the statics of `__mp_event_psi` and the
`last_report_tm` of `mp_event_common`; those the set-up of the monitors writes are the
daemon's `mon`. -/
structure Engine where
  watermarks : ZoneWatermarks
  lowPressureMem : LowPressureMem
  prevLevel : Nat
  kswapdStartTm : Timespec
  psi : PsiStatics
  lastReportTm : Timespec

/-- The daemon, the engines' statics and the main loop's `poll_params`: the state a
handler runs on. -/
structure Lmk where
  d : Daemon
  eng : Engine
  poll : PollingParams

namespace Lmk

/-- The answer to the next question, read from the stream `q`. -/
def ask {α : Type} (l : Lmk) (q : Nat → α) : α × Lmk :=
  let (a, d) := l.d.ask q
  (a, { l with d })

/-- Run an operation of the daemon. -/
def onDaemon (l : Lmk) (f : Daemon → Daemon) : Lmk := { l with d := f l.d }

def setPsi (l : Lmk) (psi : PsiStatics) : Lmk := { l with eng := { l.eng with psi } }

def setUpdate (l : Lmk) (u : PollingUpdate) : Lmk := { l with poll := { l.poll with update := u } }

@[simp] theorem ask_eng {α : Type} (l : Lmk) (q : Nat → α) : (l.ask q).2.eng = l.eng := rfl
@[simp] theorem ask_poll {α : Type} (l : Lmk) (q : Nat → α) : (l.ask q).2.poll = l.poll := rfl
@[simp] theorem ask_d {α : Type} (l : Lmk) (q : Nat → α) : (l.ask q).2.d = (l.d.ask q).2 := rfl
@[simp] theorem setPsi_d (l : Lmk) (psi : PsiStatics) : (l.setPsi psi).d = l.d := rfl
@[simp] theorem setUpdate_d (l : Lmk) (u : PollingUpdate) : (l.setUpdate u).d = l.d := rfl
@[simp] theorem onDaemon_d (l : Lmk) (f : Daemon → Daemon) : (l.onDaemon f).d = f l.d := rfl

end Lmk

/-- `is_waiting_for_kill()`. -/
def isWaitingForKill (d : Daemon) : Bool := d.pidfdSupported && decide (0 ≤ d.lastKillPidOrFd)

/-- `is_kill_pending()`: without pidfds, whether `/proc/<pid>/` of the last kill exists. -/
def isKillPending (w : EngineWorld) (l : Lmk) : Bool × Lmk :=
  if l.d.lastKillPidOrFd < 0 then (false, l)
  else if l.d.pidfdSupported then (true, l)
  else l.ask w.procExists

/-- `find_and_kill_process(min_score_adj, ki, ...)` as an engine calls it, with the call and
the reason of `ki` in the trace. -/
def engineKill (w : EngineWorld) (l : Lmk) (killReason : KillReason) (minScoreAdj : Int)
    (tm : Timespec) : Option (Int × Lmk) :=
  match findAndKillProcess w.kill (l.d.log (.findAndKillProcess killReason minScoreAdj))
      minScoreAdj tm with
  | none => none
  | some (d, pagesFreed) => some (pagesFreed, { l with d })

/-! ## `__mp_event_psi` -/

/-- The level filter of a PSI event: a level below `prev_level` within the first polling
window is ignored (`true`); otherwise `prev_level` follows the event. -/
def psiLevelFilter (level events : Nat) (e : Engine) : Bool × Engine :=
  if events > 0 then
    if level < e.prevLevel then (true, e) else (false, { e with prevLevel := level })
  else (false, { e with prevLevel := vmpressLevelLow })

/-- The kill-in-flight gate: `true` to skip while the last kill is pending and its timeout
has not run out; otherwise the wait is stopped. -/
def psiKillGate (w : EngineWorld) (currTm : Timespec) (l : Lmk) : Bool × Lmk :=
  let (killPending, l) := isKillPending w l
  if killPending ∧ (l.d.props.killTimeoutMs = 0 ∨
      getTimeDiffMs l.d.lastKillTm currTm < l.d.props.killTimeoutMs) then (true, l)
  else (false, l.onDaemon (·.stopWaitForProcKill !killPending))

/-- The reset after a kill: `cycle_after_kill` and the statics restarted from this
reading. -/
def resetAfterKill (vs : VmStat) (wsRefault : Int) (currTm : Timespec) (st : PsiStatics) :
    Bool × PsiStatics :=
  if st.killing then
    (true, { st with killing := false, baseFileLru := vs.nrInactiveFile + vs.nrActiveFile,
                     initWsRefault := wsRefault, thrashingResetTm := currTm,
                     prevThrashGrowth := 0 })
  else (false, st)

/-- `swap_is_low`. -/
def swapIsLow (props : Props) (mi : MemInfo) : Bool :=
  props.swapFreeLowPercentage ≠ 0 ∧
    getFreeSwap props mi < (mi.totalSwap * props.swapFreeLowPercentage).tdiv 100

/-- The reclaim state, from the memevent listener's timestamps or from the `pgscan`
counters, with the duration of a direct reclaim; `none` to go to `no_kill` when nothing
reclaims and a PSI event saw no new refault. -/
def psiReclaim (source : EventSource) (vs : VmStat) (wsRefault : Int) (currTm : Timespec)
    (m : Monitors) (e : Engine) : Option (Reclaim × Int × PsiStatics) :=
  let st := e.psi
  let inDirectReclaim :=
    if m.memeventListener then m.directReclaimStartTm ≠ Timespec.zero
    else vs.pgscanDirect ≠ st.initPgscanDirect
  let inKswapdReclaim :=
    if m.memeventListener then e.kswapdStartTm ≠ Timespec.zero
    else vs.pgscanKswapd ≠ st.initPgscanKswapd ∨ vs.pgrefill ≠ st.initPgrefill
  if inDirectReclaim then
    some (.directReclaim, getTimeDiffMs m.directReclaimStartTm currTm,
      { st with initPgscanDirect := vs.pgscanDirect, initPgscanKswapd := vs.pgscanKswapd,
                initPgrefill := vs.pgrefill })
  else if inKswapdReclaim then
    some (.kswapdReclaim, 0,
      { st with initPgscanKswapd := vs.pgscanKswapd, initPgrefill := vs.pgrefill })
  else if wsRefault = st.prevWorkingsetRefault ∧ source matches .psi _ then none
  else some (.noReclaim, 0, st)

/-- The thrashing estimate: refaults since the last reset as a percentage of the file
LRU, plus the decayed growth of the windows before. Past a reset interval the growth is
recomputed and halved once per window passed; `none` when that shift is by 64 or more. -/
def psiThrashing (props : Props) (vs : VmStat) (wsRefault : Int) (currTm : Timespec)
    (st : PsiStatics) : Option (Int × PsiStatics) :=
  let refaultPct := ((wsRefault - st.initWsRefault) * 100).tdiv (st.baseFileLru + 1)
  let sinceThrashingResetMs := getTimeDiffMs st.thrashingResetTm currTm
  let r : Option (Int × PsiStatics) :=
    if sinceThrashingResetMs > thrashingResetIntervalMs then
      let windowsPassed := sinceThrashingResetMs.tdiv thrashingResetIntervalMs
      let decay := decide (windowsPassed > 1) || decide (refaultPct < st.thrashingLimit)
      if decay ∧ 64 ≤ windowsPassed then none
      else
        some (0, { st with
          prevThrashGrowth := if decay then refaultPct >>> windowsPassed.toNat else refaultPct
          baseFileLru := vs.nrInactiveFile + vs.nrActiveFile, initWsRefault := wsRefault,
          thrashingResetTm := currTm, thrashingLimit := props.thrashingLimitPct })
    else some (refaultPct, st)
  r.map fun (thrashing, st) =>
    let thrashing := thrashing + st.prevThrashGrowth
    (thrashing, { st with maxThrashing := max st.maxThrashing thrashing })

/-- What the decision of `__mp_event_psi` reads, fixed before `update_watermarks`. -/
structure PsiInputs where
  source : EventSource
  events : Nat
  cycleAfterKill : Bool
  swapIsLow : Bool
  thrashing : Int
  reclaim : Reclaim
  directReclaimDurationMs : Int
  fileLruKb : Int
  swapUtil : Int

/-- The locals the decision sets: they keep their values when the first kill jumps back
to `update_watermarks`. -/
structure Verdict where
  killReason : KillReason
  minScoreAdj : Int
  cutThrashingLimit : Bool
  criticalStall : Bool
  deriving DecidableEq, Repr

/-- Perceptible apps are spared unless the thrashing is critical. -/
def spareMinScore (props : Props) (thrashing minScoreAdj : Int) : Int :=
  if thrashing < props.thrashingCriticalPct then perceptibleAppAdj + 1 else minScoreAdj

/-- The chain that decides whether to kill and records the reason, with the new
`check_filecache`; `none` to return on an invalid vendor event. -/
def killDecision (props : Props) (x : PsiInputs) (wmark : Nat) (checkFilecache : Bool)
    (thrashingLimit vendorKillReasonEnd : Int) (v : Verdict) : Option (Verdict × Bool) :=
  match x.source with
  | .vendor reason minAdj =>
    if reason < 0 ∨ reason > vendorKillReasonEnd ∨ minAdj < 0 then none
    else some ({ v with killReason := .vendor reason, minScoreAdj := minAdj }, checkFilecache)
  | .psi level =>
    if x.cycleAfterKill ∧ wmark < wmarkLow then
      some ({ v with minScoreAdj := props.pressureAfterKillMinScore,
                     killReason := .pressureAfterKill }, checkFilecache)
    else if level = vmpressLevelCritical ∧ x.events ≠ 0 then
      some ({ v with killReason := .notResponding }, checkFilecache)
    else if x.swapIsLow ∧ x.thrashing > props.thrashingLimitPct then
      some ({ v with killReason := .lowSwapAndThrashing,
                     minScoreAdj := if wmark > wmarkMin then
                       spareMinScore props x.thrashing v.minScoreAdj else v.minScoreAdj }, true)
    else if x.swapIsLow ∧ wmark < wmarkHigh then
      some ({ v with killReason := .lowMemAndSwap,
                     minScoreAdj := if wmark > wmarkMin then
                       spareMinScore props x.thrashing v.minScoreAdj else v.minScoreAdj },
        checkFilecache)
    else if wmark < wmarkHigh ∧ props.swapUtilMax < 100 ∧ x.swapUtil > props.swapUtilMax then
      some ({ v with killReason := .lowMemAndSwapUtil }, checkFilecache)
    else if wmark < wmarkHigh ∧ x.thrashing > thrashingLimit then
      some ({ v with killReason := .lowMemAndThrashing, cutThrashingLimit := true,
                     minScoreAdj := spareMinScore props x.thrashing v.minScoreAdj },
        true)
    else if x.reclaim = .directReclaim ∧ x.thrashing > thrashingLimit then
      some ({ v with killReason := .directReclAndThrashing, cutThrashingLimit := true,
                     minScoreAdj := spareMinScore props x.thrashing v.minScoreAdj },
        true)
    else if x.reclaim = .directReclaim ∧ props.directReclaimThresholdMs > 0 ∧
        x.directReclaimDurationMs > props.directReclaimThresholdMs then
      some ({ v with killReason := .directReclStuck }, checkFilecache)
    else if checkFilecache then
      if x.fileLruKb < props.filecacheMinKb then
        some ({ v with killReason := .lowFilecacheAfterThrashing,
                       minScoreAdj := perceptibleAppAdj + 1 }, true)
      else some (v, false)
    else some (v, checkFilecache)

/-- How a pass from `update_watermarks` ends: a `return`, or at the kill branch with the
verdict. -/
inductive PassEnd where
  | ret (l : Lmk)
  | decided (v : Verdict) (l : Lmk)
  /-- a watermark sum `calc_zone_watermarks` cannot hold -/
  | undefined

/-- From the watermark check on: read the memory stall, run the decision chain, and fall
back to a kill of cached apps when a watermark is breached. -/
def psiVerdict (w : EngineWorld) (x : PsiInputs) (mi : MemInfo) (v : Verdict) (l : Lmk) :
    PassEnd :=
  let wmark := getLowestWatermark mi l.eng.watermarks
  let (avg10, l) := l.ask w.psiMemFullAvg10
  let v := match avg10 with
    | some a => { v with criticalStall := a > 100 * l.d.props.stallLimitCritical }
    | none => v
  match killDecision l.d.props x wmark l.eng.psi.checkFilecache l.eng.psi.thrashingLimit
      w.vendorKillReasonEnd v with
  | none => .ret l
  | some (v, checkFilecache) =>
    let l := l.setPsi { l.eng.psi with checkFilecache }
    if v.killReason = .none ∧ wmark < wmarkHigh then
      .decided { v with killReason := .lowMem, minScoreAdj := l.d.props.lowmemMinOomScore } l
    else .decided v l

/-- One pass from the label `update_watermarks`: the watermarks are recomputed when unset,
or once a minute when the memevent listener does not report zoneinfo updates. -/
def psiPass (w : EngineWorld) (x : PsiInputs) (mi : MemInfo) (currTm : Timespec)
    (v : Verdict) (l : Lmk) : PassEnd :=
  if l.eng.watermarks.highWmark = 0 ∨ (!l.d.mon.memEventUpdateZoneinfoSupported ∧
      getTimeDiffMs l.eng.psi.wmarkUpdateTm currTm > 60000) then
    let (zi, l) := l.ask w.zoneinfo
    match zi with
    | none => .ret l
    | some zi =>
      match calcZoneWatermarks zi with
      | none => .undefined
      | some watermarks =>
        psiVerdict w x mi v { l with eng := { l.eng with watermarks,
                                                           psi := { l.eng.psi with
                                                             wmarkUpdateTm := currTm } } }
  else psiVerdict w x mi v l

/-- The label `no_kill`: pause polling while a kill is waited for; otherwise start polling
after an event, a kill or in direct reclaim, fast during kills and when swap is low. -/
def psiNoKill (events : Nat) (swapLow : Bool) (reclaim : Reclaim) (l : Lmk) : Lmk :=
  if isWaitingForKill l.d then l.setUpdate .pause
  else
    let killing := l.eng.psi.killing
    let l := if events ≠ 0 ∨ killing ∨ reclaim = .directReclaim then l.setUpdate .start else l
    { l with poll := { l.poll with
        pollingIntervalMs := if swapLow ∨ killing then psiPollPeriodShortMs
          else psiPollPeriodLongMs } }

/-- The kill: at score `0` when the memory stall is critical; a kill that freed pages
marks `killing` and cuts the thrashing limit if the reason asked for it. -/
def psiKill (w : EngineWorld) (x : PsiInputs) (currTm : Timespec) (v : Verdict) (l : Lmk) :
    Option Lmk :=
  let minScoreAdj := if v.criticalStall then 0 else v.minScoreAdj
  match engineKill w l v.killReason minScoreAdj currTm with
  | none => none
  | some (pagesFreed, l) =>
    let st := l.eng.psi
    let thrashingLimit := if v.cutThrashingLimit then
        (st.thrashingLimit * (100 - l.d.props.thrashingLimitDecayPct)).tdiv 100
      else st.thrashingLimit
    let l := if pagesFreed > 0 then
        l.setPsi { st with killing := true, maxThrashing := 0, thrashingLimit }
      else l
    psiNoKill x.events x.swapIsLow x.reclaim l

/-- The passes from `update_watermarks`: before the first kill the watermarks are
recomputed and the decision taken again. Two passes are enough, since `first_kill` is
cleared before the jump. -/
def psiDecide (w : EngineWorld) (x : PsiInputs) (mi : MemInfo) (currTm : Timespec) :
    Nat → Verdict → Lmk → Option Lmk
  | 0, _, l => some l
  | n + 1, v, l =>
    match psiPass w x mi currTm v l with
    | .ret l => some l
    | .undefined => none
    | .decided v l =>
      if v.killReason = .none then some (psiNoKill x.events x.swapIsLow x.reclaim l)
      else if l.eng.psi.firstKill then
        psiDecide w x mi currTm n v { l with eng := { l.eng with
          watermarks := { l.eng.watermarks with highWmark := 0 },
          psi := { l.eng.psi with firstKill := false } } }
      else psiKill w x currTm v l

/-- After the gate: read `vmstat` and `meminfo`, restart the statics after a kill, and
estimate swap, reclaim and thrashing for the decision. -/
def psiMeasure (w : EngineWorld) (source : EventSource) (events : Nat) (currTm : Timespec)
    (l : Lmk) : Option Lmk :=
  let (vs, l) := l.ask w.vmstat
  match vs with
  | none => some l
  | some vs =>
    let wsRefault : Int :=
      if vs.workingsetRefault ≠ 0 then vs.workingsetRefault else vs.workingsetRefaultFile
    let (mi, l) := l.ask w.meminfo
    match mi with
    | none => some l
    | some mi =>
      let props := l.d.props
      let (cycleAfterKill, st) := resetAfterKill vs wsRefault currTm l.eng.psi
      let l := l.setPsi st
      let swapLow := swapIsLow props mi
      match psiReclaim source vs wsRefault currTm l.d.mon l.eng with
      | none => some (psiNoKill events swapLow .noReclaim l)
      | some (reclaim, durationMs, st) =>
        match psiThrashing props vs wsRefault currTm
            { st with prevWorkingsetRefault := wsRefault } with
        | none => none
        | some (thrashing, st) =>
          let x : PsiInputs :=
            { source, events, cycleAfterKill, swapIsLow := swapLow, thrashing, reclaim,
              directReclaimDurationMs := durationMs,
              fileLruKb := (vs.nrInactiveFile + vs.nrActiveFile) * l.d.pageK,
              swapUtil := calcSwapUtilization props mi }
          psiDecide w x mi currTm 2 ⟨.none, 0, false, false⟩ (l.setPsi st)

/-- `__mp_event_psi(source, data, events, poll_params)`. -/
def mpEventPsi (w : EngineWorld) (source : EventSource) (events : Nat) (l : Lmk) :
    Option Lmk :=
  let (now, l) := l.ask w.clock
  match now with
  | none => some l
  | some currTm =>
    let (ignored, eng) := match source with
      | .psi level => psiLevelFilter level events l.eng
      | .vendor .. => (false, l.eng)
    if ignored then some l
    else
      let (skip, l) := psiKillGate w currTm { l with eng }
      if skip then some (psiNoKill events false .noReclaim l)
      else psiMeasure w source events currTm l

/-! ## `mp_event_common` -/

/-- Without PSI monitors, the level is raised to the highest level whose eventfd counted
an event. -/
def upgradeFromEventfds (w : EngineWorld) (level : Nat) (l : Lmk) : Nat × Lmk :=
  (List.range vmpressLevelCount).foldl (fun (level, l) lvl =>
    if l.d.mon.mpevfd lvl ≠ -1 then
      let (evcount, l) := l.ask w.mpevCount
      (if evcount > 0 ∧ lvl > level then lvl else level, l)
    else (level, l)) (level, l)

/-- The kill timeout of `mp_event_common`: within it a pending kill skips the event (`true`);
otherwise the wait is stopped. -/
def commonKillGate (w : EngineWorld) (currTm : Timespec) (l : Lmk) : Bool × Lmk :=
  if l.d.props.killTimeoutMs ≠ 0 ∧
      getTimeDiffMs l.d.lastKillTm currTm < l.d.props.killTimeoutMs then
    let (pending, l) := isKillPending w l
    if pending then (true, l) else (false, l.onDaemon (·.stopWaitForProcKill true))
  else (false, l.onDaemon (·.stopWaitForProcKill false))

/-- The minfree levels: the score of the first target whose `minfree` both the free
memory and the file cache are below, `OOM_SCORE_ADJ_MAX + 1` when there is none. -/
def minfreeMinScoreAdj (d : Daemon) (otherFree otherFile : Int) : Int :=
  (((List.range d.lowmemTargetsSize).find? fun i =>
      otherFree < d.lowmemMinfree i ∧ otherFile < d.lowmemMinfree i).map d.lowmemAdj).getD
    (oomScoreAdjMax + 1)

def recordLowPressureLevels (mi : MemInfo) (lp : LowPressureMem) : LowPressureMem :=
  let lp := if lp.minNrFreePages = -1 ∨ lp.minNrFreePages > mi.nrFreePages then
      { lp with minNrFreePages := mi.nrFreePages } else lp
  if lp.maxNrFreePages = -1 ∨ (lp.maxNrFreePages < mi.nrFreePages ∧
      10 * (mi.nrFreePages - lp.maxNrFreePages) < lp.maxNrFreePages) then
    { lp with maxNrFreePages := mi.nrFreePages }
  else lp

/-- The label `do_kill` and the end of `mp_event_common`. A low-RAM device kills once at
the chosen score; otherwise nothing is killed while free memory is above the highest
level seen at low pressure, and a kill that freed nothing is reported at most once a
second. -/
def commonDoKill (w : EngineWorld) (level : Nat) (minScoreAdj : Int) (mi : MemInfo)
    (currTm : Timespec) (l : Lmk) : Option Lmk :=
  let props := l.d.props
  let pause (l : Lmk) : Lmk := if isWaitingForKill l.d then l.setUpdate .pause else l
  if props.lowRamDevice then
    match engineKill w l .none
        (if props.useMinfreeLevels then minScoreAdj else props.levelOomadj level) currTm with
    | none => none
    | some (_, l) => some (pause l)
  else if !props.useMinfreeLevels ∧ mi.nrFreePages ≥ l.eng.lowPressureMem.maxNrFreePages then
    some l
  else
    let minScoreAdj := if props.useMinfreeLevels then minScoreAdj else props.levelOomadj level
    match engineKill w l .none minScoreAdj currTm with
    | none => none
    | some (pagesFreed, l) =>
      if pagesFreed = 0 ∧ getTimeDiffMs l.eng.lastReportTm currTm < failReportRlimitMs then some l
      else some (pause { l with eng := { l.eng with lastReportTm := currTm } })

/-- The memcg pressure levels: with usage readings, the level is upgraded when swapping
too much, and an event is ignored or downgraded while enough swap is free. -/
def commonPressure (w : EngineWorld) (level : Nat) (mi : MemInfo) (currTm : Timespec)
    (l : Lmk) : Option Lmk :=
  let props := l.d.props
  let (memUsage, l) := l.ask w.memUsage
  let memUsage := getMemoryUsage memUsage
  if memUsage < 0 then commonDoKill w level 0 mi currTm l
  else
    let (memswUsage, l) := l.ask w.memswUsage
    let memswUsage := getMemoryUsage memswUsage
    if memswUsage < 0 then commonDoKill w level 0 mi currTm l
    else
      let memPressure := (memUsage * 100).tdiv memswUsage
      let level := if props.enablePressureUpgrade ∧ level ≠ vmpressLevelCritical ∧
          memPressure < props.upgradePressure then upgradeLevel level else level
      if getFreeSwap props mi ≥ (mi.totalSwap * props.swapFreeLowPercentage).tdiv 100 then
        if memPressure > props.downgradePressure then some l
        else if level = vmpressLevelCritical ∧ memPressure > props.upgradePressure then
          commonDoKill w (downgradeLevel level) 0 mi currTm l
        else commonDoKill w level 0 mi currTm l
      else commonDoKill w level 0 mi currTm l

/-- `mp_event_common(data, events, poll_params)`. -/
def mpEventCommon (w : EngineWorld) (data events : Nat) (l : Lmk) : Option Lmk :=
  let (level, l) := if !l.d.mon.usePsiMonitors then upgradeFromEventfds w data l else (data, l)
  let l := if l.d.mon.usePsiMonitors ∧ events ≠ 0 ∧
      (l.poll.pollHandler.all fun h => h.data < (data : Int)) then
      { l with poll := { l.poll with pollingIntervalMs := psiPollPeriodShortMs,
                                     update := .start } }
    else l
  let (now, l) := l.ask w.clock
  match now with
  | none => some l
  | some currTm =>
    let (skip, l) := commonKillGate w currTm l
    if skip then some l
    else
      let (mi, l) := l.ask w.meminfo
      match mi with
      | none => some l
      | some mi =>
        let (zi, l) := l.ask w.zoneinfo
        match zi with
        | none => some l
        | some zi =>
          let props := l.d.props
          if props.useMinfreeLevels then
            let otherFree := mi.nrFreePages - zi.totalreservePages
            let otherFile :=
              if mi.nrFilePages > mi.shmem + mi.unevictable + mi.swapCached then
                mi.nrFilePages - mi.shmem - mi.unevictable - mi.swapCached
              else 0
            let minScoreAdj := minfreeMinScoreAdj l.d otherFree otherFile
            if minScoreAdj = oomScoreAdjMax + 1 then some l
            else commonDoKill w level minScoreAdj mi currTm l
          else
            let l := if level = vmpressLevelLow then
                { l with eng := { l.eng with
                  lowPressureMem := recordLowPressureLevels mi l.eng.lowPressureMem } }
              else l
            if props.levelOomadj level > oomScoreAdjMax then some l
            else commonPressure w level mi currTm l

/-! ## The start of `mainloop` -/

/-- The engines' statics when `mainloop` starts: no watermarks yet and `low_pressure_mem`
unset. -/
def Engine.atStart (props : Props) : Engine where
  watermarks := ⟨0, 0, 0⟩
  lowPressureMem := ⟨-1, -1⟩
  prevLevel := vmpressLevelLow
  kswapdStartTm := Timespec.zero
  psi := PsiStatics.initial props
  lastReportTm := Timespec.zero

/-- `poll_params` when `mainloop` starts: no handler polls or is paused. -/
def PollingParams.atStart : PollingParams :=
  ⟨none, none, Timespec.zero, Timespec.zero, 0, .doNotChange⟩

/-- The monitors as `init_monitors` left them with PSI monitors or without, and with the
strategy of `mp_event_psi` or of `mp_event_common`: no vmpressure eventfd recorded and no
memevent listener. -/
def Monitors.atStart (usePsiMonitors useNewStrategy : Bool) : Monitors :=
  { Monitors.initial with
    monitorsInitialized := true
    usePsiMonitors := usePsiMonitors
    psiHandler := fun _ => usePsiMonitors && useNewStrategy }

/-- The daemon at rest with registry `reg`, at the start of `mainloop`. -/
def Lmk.atStart (props : Props) (reg : Registry) (usePsiMonitors useNewStrategy : Bool) : Lmk :=
  ⟨{ Daemon.atRest props reg with mon := Monitors.atStart usePsiMonitors useNewStrategy },
    Engine.atStart props, PollingParams.atStart⟩

/-! ## Scores from a `TARGET` packet -/

/-- A kill on the engines' behalf on a registry without records: below
`OOM_SCORE_ADJ_MIN` the scan reads outside `procadjslot_list`. -/
theorem engineKill_init (w : EngineWorld) {l : Lmk} (hl : l.d.reg = Registry.init) {m : Int}
    (hm : m < oomScoreAdjMin) (r : KillReason) (tm : Timespec) : engineKill w l r m tm = none := by
  rw [engineKill, findAndKillProcess_init w.kill (by rw [Daemon.log_reg, hl]), if_pos hm]

/-- A kernel reporting `freePages` free pages, no file cache and no swap; the memcg usage
files cannot be read. -/
def lowMemWorld (freePages : Int) : EngineWorld where
  kill := zeroRssWorld
  clock := fun _ => some ⟨20, 0⟩
  procExists := fun _ => false
  vmstat := fun _ => some ⟨0, 0, 0, 0, 0, 0, 0⟩
  meminfo := fun _ => some ⟨freePages, 0, 0, 0, 0, 0, 0, 0, 0, 0, 0⟩
  zoneinfo := fun _ => some ⟨[], 0⟩
  psiMemFullAvg10 := fun _ => none
  memUsage := fun _ => none
  memswUsage := fun _ => none
  mpevCount := fun _ => 0
  vendorKillReasonEnd := 0

/-- The tunables with `ro.lmk.use_minfree_levels` set. -/
def minfreeProps : Props :=
  (updateProps ⟨fun _ => none,
    fun k => if k = "ro.lmk.use_minfree_levels" then some true else none⟩ true).1

end Lmkd
