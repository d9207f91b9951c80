import Lmkd.Basic

/-!
# Tunables

`update_props()` reads every tunable from the property store through
`GET_LMK_PROPERTY(type, name, def)`: the experiment flag
`persist.device_config.lmkd_native.<name>` overrides `ro.lmk.<name>`, which overrides the
default. The store is modelled by what `property_get_int32/int64/bool` find under a key;
a value outside the range of the requested type is answered by the default, as
`property_get_int32` and `property_get_int64` do.
-/

namespace Lmkd

/-- The property store, as seen by the typed getters. -/
structure PropStore where
  int : String → Option Int
  bool : String → Option Bool

namespace PropStore

def getInt32 (ps : PropStore) (key : String) (dflt : Int) : Int :=
  match ps.int key with
  | some v => if -2 ^ 31 ≤ v ∧ v < 2 ^ 31 then v else dflt
  | none => dflt

def getInt64 (ps : PropStore) (key : String) (dflt : Int) : Int :=
  match ps.int key with
  | some v => if -2 ^ 63 ≤ v ∧ v < 2 ^ 63 then v else dflt
  | none => dflt

def getBool (ps : PropStore) (key : String) (dflt : Bool) : Bool := (ps.bool key).getD dflt

/-- `GET_LMK_PROPERTY(int32, name, def)`. -/
def lmkInt32 (ps : PropStore) (name : String) (dflt : Int) : Int :=
  ps.getInt32 ("persist.device_config.lmkd_native." ++ name) (ps.getInt32 ("ro.lmk." ++ name) dflt)

/-- `GET_LMK_PROPERTY(int64, name, def)`. -/
def lmkInt64 (ps : PropStore) (name : String) (dflt : Int) : Int :=
  ps.getInt64 ("persist.device_config.lmkd_native." ++ name) (ps.getInt64 ("ro.lmk." ++ name) dflt)

/-- `GET_LMK_PROPERTY(bool, name, def)`. -/
def lmkBool (ps : PropStore) (name : String) (dflt : Bool) : Bool :=
  ps.getBool ("persist.device_config.lmkd_native." ++ name) (ps.getBool ("ro.lmk." ++ name) dflt)

theorem getInt32_bounds (ps : PropStore) (key : String) (dflt : Int)
    (lo : -2 ^ 31 ≤ dflt) (hi : dflt < 2 ^ 31) :
    -2 ^ 31 ≤ ps.getInt32 key dflt ∧ ps.getInt32 key dflt < 2 ^ 31 := by
  unfold getInt32
  split
  · split <;> omega
  · omega

theorem lmkInt32_bounds (ps : PropStore) (name : String) (dflt : Int)
    (lo : -2 ^ 31 ≤ dflt) (hi : dflt < 2 ^ 31) :
    -2 ^ 31 ≤ ps.lmkInt32 name dflt ∧ ps.lmkInt32 name dflt < 2 ^ 31 :=
  have h := ps.getInt32_bounds ("ro.lmk." ++ name) dflt lo hi
  ps.getInt32_bounds _ _ h.1 h.2

end PropStore

/-- The globals `update_props()` assigns. -/
structure Props where
  levelOomadj : Nat → Int
  debugProcessKilling : Bool
  enablePressureUpgrade : Bool
  upgradePressure : Int
  downgradePressure : Int
  killHeaviestTask : Bool
  lowRamDevice : Bool
  killTimeoutMs : Nat
  pressureAfterKillMinScore : Int
  useMinfreeLevels : Bool
  perAppMemcg : Bool
  swapFreeLowPercentage : Int
  psiPartialStallMs : Int
  psiCompleteStallMs : Int
  thrashingLimitPct : Int
  thrashingLimitDecayPct : Int
  thrashingCriticalPct : Int
  swapUtilMax : Int
  filecacheMinKb : Int
  stallLimitCritical : Int
  delayMonitorsUntilBoot : Bool
  directReclaimThresholdMs : Int
  swapCompressionRatio : Int
  lowmemMinOomScore : Int

/-- `update_props()`: the tunables read from `ps`, and its result, which is the result of
`lmkd_update_props_hook()` (`hookOk`). The globals are assigned whatever the hook says. -/
def updateProps (ps : PropStore) (hookOk : Bool) : Props × Bool :=
  let lowRam := ps.getBool "ro.config.low_ram" false
  let thrashingLimitPct := max 0 (ps.lmkInt32 "thrashing_limit" (if lowRam then 30 else 100))
  ({ levelOomadj := fun
        | 0 => ps.lmkInt32 "low" (oomScoreAdjMax + 1)
        | 1 => ps.lmkInt32 "medium" 800
        | _ => ps.lmkInt32 "critical" 0
     debugProcessKilling := ps.lmkBool "debug" false
     enablePressureUpgrade := ps.lmkBool "critical_upgrade" false
     upgradePressure := ps.lmkInt32 "upgrade_pressure" 100
     downgradePressure := ps.lmkInt32 "downgrade_pressure" 100
     killHeaviestTask := ps.lmkBool "kill_heaviest_task" false
     lowRamDevice := lowRam
     killTimeoutMs := (ps.lmkInt32 "kill_timeout_ms" 100 % 2 ^ 64).toNat
     pressureAfterKillMinScore := toInt32 (ps.lmkInt32 "pressure_after_kill_min_score" 0 % 2 ^ 64)
     useMinfreeLevels := ps.lmkBool "use_minfree_levels" false
     perAppMemcg := ps.getBool "ro.config.per_app_memcg" lowRam
     swapFreeLowPercentage := clamp 0 100 (ps.lmkInt32 "swap_free_low_percentage" 10)
     psiPartialStallMs := ps.lmkInt32 "psi_partial_stall_ms" (if lowRam then 200 else 70)
     psiCompleteStallMs := ps.lmkInt32 "psi_complete_stall_ms" 700
     thrashingLimitPct := thrashingLimitPct
     thrashingLimitDecayPct :=
       clamp 0 100 (ps.lmkInt32 "thrashing_limit_decay" (if lowRam then 50 else 10))
     thrashingCriticalPct :=
       max 0 (ps.lmkInt32 "thrashing_limit_critical" (toInt32 (thrashingLimitPct * 3)))
     swapUtilMax := clamp 0 100 (ps.lmkInt32 "swap_util_max" 100)
     filecacheMinKb := ps.lmkInt64 "filecache_min_kb" 0
     stallLimitCritical := ps.lmkInt64 "stall_limit_critical" 100
     delayMonitorsUntilBoot := ps.lmkBool "delay_monitors_until_boot" false
     directReclaimThresholdMs := toInt32 (ps.lmkInt64 "direct_reclaim_threshold_ms" 0)
     swapCompressionRatio := toInt32 (ps.lmkInt64 "swap_compression_ratio" 1)
     lowmemMinOomScore := max (perceptibleAppAdj + 1) (ps.lmkInt32 "lowmem_min_oom_score" 701) },
   hookOk)

/-- The tunables `update_props()` reads from a store where no property is set. -/
def defaultProps : Props := (updateProps ⟨fun _ => none, fun _ => none⟩ true).1

/-- The value `update_props()` gives `pressure_after_kill_min_score`: the cast through
`unsigned long` and back to `int` gives back the property's value. -/
theorem updateProps_pressureAfterKillMinScore (ps : PropStore) (hookOk : Bool) :
    (updateProps ps hookOk).1.pressureAfterKillMinScore =
      ps.lmkInt32 "pressure_after_kill_min_score" 0 := by
  obtain ⟨lo, hi⟩ := ps.lmkInt32_bounds "pressure_after_kill_min_score" 0 (by decide) (by decide)
  simp only [updateProps, toInt32]
  omega

end Lmkd
