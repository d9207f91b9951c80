import Lmkd.Daemon.Engine

/-!
# The decision of `__mp_event_psi`

What the decision of `__mp_event_psi` hands to `find_and_kill_process`. The rule chain only
ever adds a reason: a verdict that has one keeps one through every rule and through the
fallback to `LOW_MEM`. The first kill jumps back to `update_watermarks` with the locals of
the first pass, so its second pass kills whatever the refreshed watermarks say.

The thrashing estimate halves the growth once per window passed, by a shift of
`prev_thrash_growth`. `thrashing_reset_tm` starts at zero, so the first event after a boot
more than 64 s ago shifts by 64 or more. Before `BOOT_COMPLETED` the memevent listener is
not set up: a direct reclaim is seen from `pgscan_direct` and timed from
`direct_reclaim_start_tm`, which no reclaim has set, and `ro.lmk.direct_reclaim_threshold_ms`
is not yet cleared.
-/

namespace Lmkd

/-! ## The rule chain only adds a reason -/

/-- A result of the rule chain that has a reason whenever the verdict `v` it started from
has one. -/
def KeepsReason (v : Verdict) (o : Option (Verdict × Bool)) : Prop :=
  v.killReason ≠ .none → ∀ p ∈ o, p.1.killReason ≠ .none

theorem KeepsReason.ite {v : Verdict} {c : Prop} [Decidable c] {a b : Option (Verdict × Bool)}
    (ha : KeepsReason v a) (hb : KeepsReason v b) : KeepsReason v (if c then a else b) := by
  split <;> assumption

theorem KeepsReason.some {v w : Verdict} (b : Bool)
    (h : v.killReason ≠ .none → w.killReason ≠ .none) : KeepsReason v (some (w, b)) := by
  intro hv p hp
  cases hp
  exact h hv

/-- Every rule sets a reason or leaves the verdict as it was. -/
theorem killDecision_keepsReason (props : Props) (x : PsiInputs) (wmark : Nat) (cf : Bool)
    (limit vendorEnd : Int) (v : Verdict) :
    KeepsReason v (killDecision props x wmark cf limit vendorEnd v) := by
  unfold killDecision
  split
  · exact .ite (fun _ _ h => nomatch h) (.some _ fun _ => nofun)
  · repeat' apply KeepsReason.ite
    all_goals exact .some _ fun h => by first | exact h | nofun

/-- A pass that reaches the kill branch keeps the reason it started with, and `first_kill`. -/
theorem psiVerdict_decided {w : EngineWorld} {x : PsiInputs} {mi : MemInfo} {v v' : Verdict}
    {l l' : Lmk} (h : psiVerdict w x mi v l = .decided v' l') :
    (v.killReason ≠ .none → v'.killReason ≠ .none) ∧ l'.eng.psi.firstKill = l.eng.psi.firstKill := by
  unfold psiVerdict at h
  split at h
  rename_i avg10 l₁ hask
  have hl₁ : l₁.eng.psi.firstKill = l.eng.psi.firstKill := by
    rw [← Lmk.ask_eng l w.psiMemFullAvg10, hask]
  dsimp only at h
  split at h
  · cases h
  · rename_i v₂ cf hk
    split at h <;> cases h
    · exact ⟨fun _ h => KillReason.noConfusion h, hl₁⟩
    · exact ⟨fun hv => killDecision_keepsReason _ _ _ _ _ _ _ (by split <;> exact hv) _ hk, hl₁⟩

theorem psiPass_decided {w : EngineWorld} {x : PsiInputs} {mi : MemInfo} {currTm : Timespec}
    {v v' : Verdict} {l l' : Lmk} (h : psiPass w x mi currTm v l = .decided v' l') :
    (v.killReason ≠ .none → v'.killReason ≠ .none) ∧ l'.eng.psi.firstKill = l.eng.psi.firstKill := by
  unfold psiPass at h
  split at h
  · split at h
    rename_i l₁ hask
    have hl₁ : l₁.eng = l.eng := by rw [← Lmk.ask_eng l w.zoneinfo, hask]
    split at h
    · cases h
    · split at h
      · cases h
      · exact (psiVerdict_decided h).imp_right (·.trans (congrArg (·.psi.firstKill) hl₁))
  · exact psiVerdict_decided h

/-- The first kill: once the first pass has a reason, the second pass starts from its
verdict, so the call kills with a reason unless the second pass returns, whatever the
refreshed watermarks are. -/
theorem psiDecide_first_kill {w : EngineWorld} {x : PsiInputs} {mi : MemInfo}
    {currTm : Timespec} {v v₁ : Verdict} {l l₁ : Lmk} (hf : l.eng.psi.firstKill = true)
    (h₁ : psiPass w x mi currTm v l = .decided v₁ l₁) (hr : v₁.killReason ≠ .none) :
    let l₁' : Lmk := { l₁ with eng := { l₁.eng with
      watermarks := { l₁.eng.watermarks with highWmark := 0 },
      psi := { l₁.eng.psi with firstKill := false } } }
    match psiPass w x mi currTm v₁ l₁' with
    | .ret l₂ => psiDecide w x mi currTm 2 v l = some l₂
    | .decided v₂ l₂ =>
      v₂.killReason ≠ .none ∧ psiDecide w x mi currTm 2 v l = psiKill w x currTm v₂ l₂
    | .undefined => psiDecide w x mi currTm 2 v l = none := by
  intro l₁'
  have hf₁ : l₁.eng.psi.firstKill = true := (psiPass_decided h₁).2.trans hf
  have hd : psiDecide w x mi currTm 2 v l = psiDecide w x mi currTm 1 v₁ l₁' := by
    rw [psiDecide, h₁]
    simp only [if_neg hr, hf₁, if_true]
  rw [hd]
  split
  · rename_i l₂ h₂
    rw [psiDecide, h₂]
  · rename_i v₂ l₂ h₂
    obtain ⟨hk, hf₂⟩ := psiPass_decided h₂
    refine ⟨hk hr, ?_⟩
    rw [psiDecide, h₂]
    simp only [if_neg (hk hr), hf₂, Bool.false_eq_true, if_false]
  · rename_i h₂
    rw [psiDecide, h₂]

/-- One zone, present, without protection. -/
def zoneOf (high low min : Int) : ZoneInfo := ⟨[⟨true, 0, high, low, min⟩], 0⟩

/-- 600 pages free, no file cache, no swap. -/
def staleMeminfo : MemInfo := ⟨600, 0, 0, 0, 0, 0, 0, 0, 0, 0, 0⟩

/-- A kernel whose first zoneinfo reading puts 600 free pages below the low watermark, and
whose later readings, after a margin was lowered, put them above the high one. One new
refault since boot, 1000 file pages, nothing reclaims. -/
def staleWatermarkWorld : EngineWorld where
  kill := zeroRssWorld
  clock := fun _ => some ⟨10, 0⟩
  procExists := fun _ => false
  vmstat := fun _ => some ⟨1000, 0, 1, 0, 0, 0, 0⟩
  meminfo := fun _ => some staleMeminfo
  zoneinfo := fun n => some (if n ≤ 3 then zoneOf 1000 800 500 else zoneOf 100 80 50)
  psiMemFullAvg10 := fun _ => none
  memUsage := fun _ => none
  memswUsage := fun _ => none
  mpevCount := fun _ => 0
  vendorKillReasonEnd := 0

set_option maxRecDepth 100000 in
/-- The first PSI event after start-up. The first pass breaches the low watermark and picks
`LOW_MEM`; the first kill refreshes the watermarks, and against the new ones the rule chain
from `NONE` picks nothing, but the second pass keeps `LOW_MEM` and its score and
`find_and_kill_process` is called. -/
theorem mpEventPsi_first_kill_stale_reason :
    (∃ l, mpEventPsi staleWatermarkWorld (.psi vmpressLevelLow) 1
        (Lmk.atStart defaultProps Registry.init true true) = some l ∧
      Event.findAndKillProcess .lowMem 701 ∈ l.d.trace) ∧
    (calcZoneWatermarks (zoneOf 100 80 50)).map (getLowestWatermark staleMeminfo) = some wmarkNone ∧
    killDecision defaultProps
      ⟨.psi vmpressLevelLow, 1, false, false, 0, .noReclaim, 0, 4000, 0⟩ wmarkNone false 100 0
      ⟨.none, 0, false, false⟩ = some (⟨.none, 0, false, false⟩, false) :=
  ⟨⟨_, rfl, by decide⟩, by decide, by decide⟩

/-! ## A direct reclaim before `BOOT_COMPLETED` -/

/-- The tunables with `ro.lmk.direct_reclaim_threshold_ms` at 500. -/
def directReclaimThresholdProps : Props :=
  (updateProps ⟨fun k => if k = "ro.lmk.direct_reclaim_threshold_ms" then some 500 else none,
    fun _ => none⟩ true).1

/-- A kernel 30 s after boot in direct reclaim: `pgscan_direct` has moved. Free memory is
above the watermarks and there is no refault. -/
def directReclaimWorld : EngineWorld where
  kill := zeroRssWorld
  clock := fun _ => some ⟨30, 0⟩
  procExists := fun _ => false
  vmstat := fun _ => some ⟨1000, 0, 0, 0, 0, 1, 0⟩
  meminfo := fun _ => some ⟨10000, 0, 0, 0, 0, 0, 0, 0, 0, 0, 0⟩
  zoneinfo := fun _ => some (zoneOf 1000 800 500)
  psiMemFullAvg10 := fun _ => none
  memUsage := fun _ => none
  memswUsage := fun _ => none
  mpevCount := fun _ => 0
  vendorKillReasonEnd := 0

set_option maxRecDepth 100000 in
/-- The first PSI event after start-up, before `BOOT_COMPLETED`: no memevent listener, no
`MEM_EVENT_DIRECT_RECLAIM_BEGIN`, yet the reclaim seen from `pgscan_direct` is timed from
`direct_reclaim_start_tm = 0`, 30000 ms against a threshold of 500 ms, and the kill is for
`DIRECT_RECL_STUCK`. -/
theorem mpEventPsi_stuck_without_listener :
    let l₀ : Lmk := Lmk.atStart directReclaimThresholdProps Registry.init true true
    l₀.d.mon.memeventListener = false ∧ l₀.d.mon.directReclaimStartTm = Timespec.zero ∧
    ∃ l, mpEventPsi directReclaimWorld (.psi vmpressLevelLow) 1 l₀ = some l ∧
      Event.findAndKillProcess .directReclStuck 0 ∈ l.d.trace :=
  ⟨rfl, rfl, _, rfl, by decide⟩

/-! ## The thrashing decay -/

/-- Past a reset interval, with fewer than 64 windows `n` passed, the new growth is the
refault percentage `g`, kept after one window at or above the limit and otherwise divided
by `2^n`, rounding down; the estimate is that growth. -/
theorem psiThrashing_window {props : Props} {vs : VmStat} {ws : Int} {currTm : Timespec}
    {st : PsiStatics}
    (hcross : getTimeDiffMs st.thrashingResetTm currTm > thrashingResetIntervalMs)
    (hw : (getTimeDiffMs st.thrashingResetTm currTm).tdiv thrashingResetIntervalMs < 64) :
    let g : Int := ((ws - st.initWsRefault) * 100).tdiv (st.baseFileLru + 1)
    let n : Int := (getTimeDiffMs st.thrashingResetTm currTm).tdiv thrashingResetIntervalMs
    let growth : Int := if n = 1 ∧ st.thrashingLimit ≤ g then g else g / 2 ^ n.toNat
    (psiThrashing props vs ws currTm st).map (fun r => (r.1, r.2.prevThrashGrowth)) =
      some (growth, growth) := by
  have hn : 1 ≤ (getTimeDiffMs st.thrashingResetTm currTm).tdiv thrashingResetIntervalMs := by
    simp only [thrashingResetIntervalMs] at hcross ⊢
    rw [Int.tdiv_eq_ediv (by omega) (by decide)]
    omega
  unfold psiThrashing
  dsimp only
  rw [if_pos hcross]
  generalize (getTimeDiffMs st.thrashingResetTm currTm).tdiv thrashingResetIntervalMs = n at hw hn ⊢
  generalize ((ws - st.initWsRefault) * 100).tdiv (↑st.baseFileLru + 1) = g
  rw [if_neg fun h => absurd h.2 (not_le.mpr hw)]
  simp only [Option.map_some', zero_add, Int.shiftRight_eq_div_pow, Nat.cast_pow, Nat.cast_ofNat]
  by_cases h1 : n = 1
  · subst h1
    by_cases h2 : st.thrashingLimit ≤ g <;> simp [h2]
  · simp [h1, show 1 < n by omega]

set_option maxRecDepth 100000 in
/-- The first PSI event after start-up at 64 s: `thrashing_reset_tm` is still zero, so 64
windows have passed, and the decay shifts `prev_thrash_growth` by 64. -/
theorem mpEventPsi_decay_shift_64 :
    mpEventPsi { staleWatermarkWorld with clock := fun _ => some ⟨64, 0⟩ } (.psi vmpressLevelLow) 1
      (Lmk.atStart defaultProps Registry.init true true) = none :=
  rfl

end Lmkd
