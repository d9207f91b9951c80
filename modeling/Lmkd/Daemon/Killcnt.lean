import Lmkd.Daemon.State
import Mathlib.Data.List.Dedup
import Mathlib.Algebra.Order.BigOperators.Group.List

/-!
# Kill counters

`inc_killcnt(oomadj)` gives each of the first `MAX_DISTINCT_OOM_ADJ` distinct scores it is
called with a counter in `killcnt`, reached from the score's slot of `killcnt_idx`, and
counts every call in `killcnt_total`; `get_killcnt(min, max)` sums the counters of the scores
in `[min, max]`. A score that comes after the counters are used up is counted in the total
only.

Over every run of calls from the start-up state, the map stores, for each score with a
counter, the number of calls at that score modulo `2^16`. With at most
`MAX_DISTINCT_OOM_ADJ` distinct scores and at most `65535` calls per score, `get_killcnt`
counts exactly the calls in its range, and over the whole range it agrees with the total.
-/

namespace Lmkd

/-! ## The scores with a counter -/

/-- One call of `inc_killcnt` on the scores with a counter: a new score gets the next free
counter while there is one. -/
def trackStep (t : List Int) (a : Int) : List Int :=
  if a ∈ t ∨ maxDistinctOomAdj ≤ t.length then t else t ++ [a]

/-- The scores with a counter after the calls `adjs`, in the order they got it. -/
def trackedScores (adjs : List Int) : List Int := adjs.foldl trackStep []

theorem trackedScores_snoc (adjs : List Int) (a : Int) :
    trackedScores (adjs ++ [a]) = trackStep (trackedScores adjs) a := by
  simp only [trackedScores, List.foldl_append, List.foldl_cons, List.foldl_nil]

/-- The scores with a counter are distinct scores of the calls, at most
`MAX_DISTINCT_OOM_ADJ` of them, and every score of the calls while counters are left. -/
structure TrackedOk (adjs t : List Int) : Prop where
  nodup : t.Nodup
  sub : ∀ x ∈ t, x ∈ adjs
  le : t.length ≤ maxDistinctOomAdj
  complete : t.length < maxDistinctOomAdj → ∀ x ∈ adjs, x ∈ t

theorem trackedOk (adjs : List Int) : TrackedOk adjs (trackedScores adjs) := by
  induction adjs using List.reverseRecOn with
  | nil => exact ⟨List.nodup_nil, by simp [trackedScores], by simp [trackedScores, maxDistinctOomAdj],
      by simp⟩
  | append_singleton adjs a ih =>
    rw [trackedScores_snoc, trackStep]
    split_ifs with h
    · refine ⟨ih.nodup, fun x hx => List.mem_append_left _ (ih.sub x hx), ih.le, fun hl x hx => ?_⟩
      rcases List.mem_append.mp hx with hx | hx
      · exact ih.complete hl x hx
      · rw [List.mem_singleton.mp hx]
        exact h.resolve_right (by omega)
    · push_neg at h
      refine ⟨List.nodup_append.mpr ⟨ih.nodup, List.nodup_singleton a, ?_⟩, fun x hx => ?_,
        by simp; omega, fun _ x hx => ?_⟩
      · simpa using h.1
      · rcases List.mem_append.mp hx with hx | hx
        · exact List.mem_append_left _ (ih.sub x hx)
        · exact List.mem_append_right _ hx
      · rcases List.mem_append.mp hx with hx | hx
        · exact List.mem_append_left _ (ih.complete h.2 x hx)
        · exact List.mem_append_right _ hx

/-- With at most `MAX_DISTINCT_OOM_ADJ` distinct scores, every score gets a counter. -/
theorem mem_trackedScores {adjs : List Int} (hd : adjs.dedup.length ≤ maxDistinctOomAdj)
    {x : Int} (hx : x ∈ adjs) : x ∈ trackedScores adjs := by
  have ht := trackedOk adjs
  by_contra hn
  have hfull : (trackedScores adjs).length = maxDistinctOomAdj := by
    by_contra hne
    exact hn (ht.complete (lt_of_le_of_ne ht.le hne) x hx)
  -- `x` and the tracked scores are `MAX_DISTINCT_OOM_ADJ + 1` distinct scores of the calls
  have hsub : List.Subperm (x :: trackedScores adjs) adjs.dedup :=
    List.subperm_of_subset (List.nodup_cons.mpr ⟨hn, ht.nodup⟩) fun y hy => List.mem_dedup.mpr (by
      rcases List.mem_cons.mp hy with rfl | hy
      · exact hx
      · exact ht.sub y hy)
  have hle := hsub.length_le
  simp only [List.length_cons, hfull] at hle
  omega

/-! ## `inc_killcnt`, branch by branch -/

namespace Daemon

variable {s : Daemon} {a : Int}

theorem incKillcnt_of_idx {i : Nat} (hidx : s.killcntIdx (slotOf a) = i)
    (hi : i ≠ killcntInvalidIdx) :
    s.incKillcnt a = { s with killcnt := Function.update s.killcnt i ((s.killcnt i + 1) % 2 ^ 16),
                              killcntTotal := (s.killcntTotal + 1) % 2 ^ 32 } := by
  simp only [incKillcnt, hidx, if_neg hi]

theorem incKillcnt_assign (hidx : s.killcntIdx (slotOf a) = killcntInvalidIdx)
    (hf : s.killcntFreeIdx < maxDistinctOomAdj) :
    s.incKillcnt a =
      { s with killcntIdx := Function.update s.killcntIdx (slotOf a) s.killcntFreeIdx,
               killcnt := Function.update s.killcnt s.killcntFreeIdx 1,
               killcntFreeIdx := s.killcntFreeIdx + 1,
               killcntTotal := (s.killcntTotal + 1) % 2 ^ 32 } := by
  simp only [incKillcnt, hidx, if_true, if_pos hf]

theorem incKillcnt_full (hidx : s.killcntIdx (slotOf a) = killcntInvalidIdx)
    (hf : maxDistinctOomAdj ≤ s.killcntFreeIdx) :
    s.incKillcnt a = { s with killcntTotal := (s.killcntTotal + 1) % 2 ^ 32 } := by
  simp only [incKillcnt, hidx, if_true, if_neg (not_lt.mpr hf)]

end Daemon

/-! ## The map over a run of calls -/

/-- The kill counters of `s` after the calls `adjs`, scores in range: the free index is the
number of scores with a counter, the slot of a score names its counter or none, a counter
holds the calls at its score modulo `2^16`, and the total the calls modulo `2^32`. -/
structure KillcntRep (s : Daemon) (adjs : List Int) : Prop where
  range : ∀ a ∈ adjs, oomScoreAdjMin ≤ a ∧ a ≤ oomScoreAdjMax
  free : s.killcntFreeIdx = (trackedScores adjs).length
  idx : ∀ x, oomScoreAdjMin ≤ x → x ≤ oomScoreAdjMax →
    s.killcntIdx (slotOf x) =
      if x ∈ trackedScores adjs then (trackedScores adjs).indexOf x else killcntInvalidIdx
  cnt : ∀ x ∈ trackedScores adjs, s.killcnt ((trackedScores adjs).indexOf x) = adjs.count x % 2 ^ 16
  total : s.killcntTotal = adjs.length % 2 ^ 32

/-- The state at start-up: no score has a counter, none is counted. -/
theorem killcntRep_init {s : Daemon} (h₀ : s.killcntIdx = fun _ => killcntInvalidIdx)
    (hf : s.killcntFreeIdx = 0) (ht : s.killcntTotal = 0) : KillcntRep s [] :=
  ⟨by simp, hf, fun x _ _ => by simp [h₀, trackedScores], by simp [trackedScores],
    by simp [ht]⟩

theorem count_snoc (adjs : List Int) (a x : Int) :
    (adjs ++ [a]).count x = adjs.count x + if x = a then 1 else 0 := by
  simp [List.count_append, List.count_singleton', eq_comm]

/-- One call of `inc_killcnt` at a score in range keeps the map. -/
theorem KillcntRep.inc {s : Daemon} {adjs : List Int} (h : KillcntRep s adjs) {a : Int}
    (ha₁ : oomScoreAdjMin ≤ a) (ha₂ : a ≤ oomScoreAdjMax) :
    KillcntRep (s.incKillcnt a) (adjs ++ [a]) := by
  have ht := trackedOk adjs
  set t := trackedScores adjs with htdef
  have hrange : ∀ b ∈ adjs ++ [a], oomScoreAdjMin ≤ b ∧ b ≤ oomScoreAdjMax := fun b hb => by
    rcases List.mem_append.mp hb with hb | hb
    · exact h.range b hb
    · rw [List.mem_singleton.mp hb]; exact ⟨ha₁, ha₂⟩
  have htot : (s.killcntTotal + 1) % 2 ^ 32 = (adjs ++ [a]).length % 2 ^ 32 := by
    rw [h.total, List.length_append, List.length_singleton, Nat.mod_add_mod]
  have hsnoc := trackedScores_snoc adjs a
  by_cases hat : a ∈ t
  · -- the score has a counter: it counts one more call
    have hlt : t.indexOf a < t.length := List.indexOf_lt_length.mpr hat
    have ht' : trackedScores (adjs ++ [a]) = t := by rw [hsnoc, trackStep, if_pos (.inl hat)]
    rw [Daemon.incKillcnt_of_idx (i := t.indexOf a) (by rw [h.idx a ha₁ ha₂, if_pos hat])
      (by have := ht.le; simp only [killcntInvalidIdx, maxDistinctOomAdj] at this ⊢; omega)]
    refine ⟨hrange, by rw [ht', ← h.free], fun x hx₁ hx₂ => by rw [ht', ← h.idx x hx₁ hx₂],
      fun x hx => ?_, htot⟩
    rw [ht'] at hx ⊢
    rw [count_snoc]
    dsimp only
    by_cases hxa : x = a
    · subst hxa
      rw [Function.update_same, h.cnt x hx, if_pos rfl, Nat.mod_add_mod]
    · rw [Function.update_noteq (mt (List.indexOf_inj hx hat).mp hxa), h.cnt x hx, if_neg hxa,
        Nat.add_zero]
  have hinv : s.killcntIdx (slotOf a) = killcntInvalidIdx := by rw [h.idx a ha₁ ha₂, if_neg hat]
  by_cases hfree : t.length < maxDistinctOomAdj
  · -- a new score takes the next free counter
    have hnew : a ∉ adjs := fun ha => hat (ht.complete hfree a ha)
    have ht' : trackedScores (adjs ++ [a]) = t ++ [a] := by
      rw [hsnoc, trackStep, if_neg (not_or.mpr ⟨hat, not_le.mpr hfree⟩)]
    have hidxa : (t ++ [a]).indexOf a = t.length := by
      rw [List.indexOf_append_of_not_mem hat]; simp
    rw [Daemon.incKillcnt_assign hinv (by rw [h.free]; exact hfree)]
    refine ⟨hrange, by simp [ht', h.free], fun x hx₁ hx₂ => ?_, fun x hx => ?_, htot⟩
    · rw [ht']
      by_cases hxa : x = a
      · subst hxa; simp [hidxa, h.free]
      · have hslot : slotOf x ≠ slotOf a := fun e => hxa (Registry.slotOf_inj hx₁ ha₁ e)
        by_cases hxt : x ∈ t <;>
          simp [Function.update_noteq hslot, h.idx x hx₁ hx₂, hxt, hxa,
            List.indexOf_append_of_mem]
    · rw [ht'] at hx ⊢
      rw [count_snoc]
      dsimp only
      rcases List.mem_append.mp hx with hx | hx
      · have hxa : x ≠ a := fun e => hat (e ▸ hx)
        have hlt : t.indexOf x ≠ s.killcntFreeIdx :=
          h.free ▸ (List.indexOf_lt_length.mpr hx).ne
        rw [List.indexOf_append_of_mem hx, Function.update_noteq hlt, h.cnt x hx, if_neg hxa,
          Nat.add_zero]
      · rw [List.mem_singleton.mp hx, hidxa, ← h.free, Function.update_same,
          List.count_eq_zero_of_not_mem hnew, if_pos rfl, Nat.zero_add]
        rfl
  · -- no counter left: the call is counted in the total only
    have ht' : trackedScores (adjs ++ [a]) = t := by rw [hsnoc, trackStep, if_pos (.inr (not_lt.mp hfree))]
    rw [Daemon.incKillcnt_full hinv (by rw [h.free]; exact not_lt.mp hfree)]
    refine ⟨hrange, by rw [ht', ← h.free], fun x hx₁ hx₂ => by rw [ht', ← h.idx x hx₁ hx₂],
      fun x hx => ?_, htot⟩
    rw [ht'] at hx ⊢
    rw [count_snoc, if_neg (fun (e : x = a) => hat (e ▸ hx)), Nat.add_zero]
    exact h.cnt x hx

/-- Every run of calls at scores in range keeps the map. -/
theorem KillcntRep.foldl : ∀ {s : Daemon} {pre : List Int} (l : List Int), KillcntRep s pre →
    (∀ a ∈ l, oomScoreAdjMin ≤ a ∧ a ≤ oomScoreAdjMax) →
    KillcntRep (l.foldl Daemon.incKillcnt s) (pre ++ l)
  | _, _, [], h, _ => by simpa using h
  | _, _, a :: l, h, hl => by
    rw [List.foldl_cons, ← List.singleton_append, ← List.append_assoc]
    exact KillcntRep.foldl l (h.inc (hl a (.head _)).1 (hl a (.head _)).2)
      fun b hb => hl b (.tail _ hb)

/-! ## Reading the counters back -/

/-- The tracked calls at scores in `[m, hi]` are those at `m` and those in `[m + 1, hi]`. -/
theorem countP_tracked_split (t : List Int) {m hi : Int} (hm : m ≤ hi) :
    ∀ l : List Int, l.countP (fun a => a ∈ t ∧ m ≤ a ∧ a ≤ hi) =
      (if m ∈ t then l.count m else 0) + l.countP (fun a => a ∈ t ∧ m + 1 ≤ a ∧ a ≤ hi)
  | [] => by simp
  | b :: l => by
    rw [List.countP_cons, List.countP_cons, List.count_cons, countP_tracked_split t hm l]
    simp only [decide_eq_true_eq, beq_iff_eq]
    by_cases hbm : b = m
    · subst hbm
      by_cases hbt : b ∈ t
      · simp [hbt, hm]; omega
      · simp [hbt]
    · have hb : (m ≤ b ↔ m + 1 ≤ b) := ⟨fun h => by omega, fun h => by omega⟩
      by_cases hmt : m ∈ t
      · simp [hbm, hmt, hb]; omega
      · simp [hbm, hmt, hb]

/-- No call is counted in a range that starts above `hi` or above `OOM_SCORE_ADJ_MAX`. -/
theorem KillcntRep.countP_empty {s : Daemon} {adjs : List Int} (h : KillcntRep s adjs)
    {m hi : Int} (hm : oomScoreAdjMax < m ∨ hi < m) :
    adjs.countP (fun a => a ∈ trackedScores adjs ∧ m ≤ a ∧ a ≤ hi) = 0 :=
  List.countP_eq_zero.mpr fun a ha hp => by
    have := (h.range a ha).2
    simp only [decide_eq_true_eq, oomScoreAdjMax] at hp hm this
    omega

/-- The loop of `get_killcnt` from `m` adds the tracked calls at scores in `[m, hi]`,
given fuel for every slot from `m` up and no counter wrapped. -/
theorem KillcntRep.getKillcntLoop_eq {s : Daemon} {adjs : List Int} (h : KillcntRep s adjs)
    (hc : ∀ x, adjs.count x < 2 ^ 16) (hi : Int) (n : Nat) :
    ∀ m c : Int, oomScoreAdjMin ≤ m → oomScoreAdjMax + 1 - m ≤ n →
      s.getKillcntLoop hi n m c =
        some (c + ↑(adjs.countP fun a => a ∈ trackedScores adjs ∧ m ≤ a ∧ a ≤ hi)) := by
  induction n with
  | zero =>
    intro m c _ hn
    rw [Daemon.getKillcntLoop, h.countP_empty (.inl (by omega)), Nat.cast_zero, add_zero]
  | succ n ih =>
    intro m c hm hn
    have hm' : oomScoreAdjMin ≤ m + 1 := by omega
    rw [Daemon.getKillcntLoop]
    by_cases hg : m ≤ hi ∧ adjtoslot m < adjtoslotCount
    · have hmax : m ≤ oomScoreAdjMax := by
        simp only [adjtoslot_eq, adjtoslotCount_eq, oomScoreAdjMax] at hg ⊢; omega
      rw [if_pos hg, if_neg (by simp only [adjtoslot_eq, oomScoreAdjMin] at hm ⊢; omega)]
      dsimp only
      rw [show (adjtoslot m).toNat = slotOf m from rfl, h.idx m hm hmax,
        ih (m + 1) _ hm' (by push_cast at hn ⊢; omega), countP_tracked_split _ hg.1]
      by_cases hmt : m ∈ trackedScores adjs
      · have hlt : (trackedScores adjs).indexOf m ≠ killcntInvalidIdx := by
          have := List.indexOf_lt_length.mpr hmt
          have := (trackedOk adjs).le
          simp only [killcntInvalidIdx, maxDistinctOomAdj] at *; omega
        rw [if_pos hmt, if_pos hlt, h.cnt m hmt, Nat.mod_eq_of_lt (hc m), if_pos hmt, Nat.cast_add,
          add_assoc]
      · rw [if_neg hmt, if_neg (not_not.mpr rfl), if_neg hmt, Nat.zero_add]
    · rw [if_neg hg, h.countP_empty ?_, Nat.cast_zero, add_zero]
      simp only [not_and_or, not_le, not_lt, adjtoslot_eq, adjtoslotCount_eq,
        oomScoreAdjMax] at hg ⊢
      omega

/-- At most `MAX_DISTINCT_OOM_ADJ` distinct scores, each called at most `65535` times, make at
most `MAX_DISTINCT_OOM_ADJ * 65535` calls. -/
theorem length_le_of_calls {adjs : List Int} (hd : adjs.dedup.length ≤ maxDistinctOomAdj)
    (hc : ∀ a, adjs.count a ≤ 65535) : adjs.length ≤ maxDistinctOomAdj * 65535 := by
  rw [← List.sum_map_count_dedup_eq_length]
  calc (adjs.dedup.map fun x => adjs.count x).sum
      ≤ (adjs.dedup.map fun x => adjs.count x).length • 65535 :=
        List.sum_le_card_nsmul _ _ fun _ hx => by
          obtain ⟨y, -, rfl⟩ := List.mem_map.mp hx
          exact hc y
    _ ≤ maxDistinctOomAdj * 65535 := by
        rw [List.length_map, smul_eq_mul]
        exact Nat.mul_le_mul_right _ hd

/-! ## Runs from start-up -/

section Run

variable (s₀ : Daemon) (adjs : List Int)
  (h₀ : s₀.killcntIdx = fun _ => killcntInvalidIdx) (hf : s₀.killcntFreeIdx = 0)
  (ht : s₀.killcntTotal = 0) (hr : ∀ a ∈ adjs, oomScoreAdjMin ≤ a ∧ a ≤ oomScoreAdjMax)
include h₀ hf ht hr

theorem killcntRep_foldl : KillcntRep (adjs.foldl Daemon.incKillcnt s₀) adjs := by
  simpa using (killcntRep_init h₀ hf ht).foldl adjs hr

variable (hd : adjs.dedup.length ≤ maxDistinctOomAdj) (hc : ∀ a, adjs.count a ≤ 65535)
include hd hc

/-- A query from a score in range counts the calls in the range: every score has a counter
and none wrapped. -/
theorem getKillcnt_foldl_of_le {lo hi : Int} (hle : lo ≤ hi) (hlo₁ : oomScoreAdjMin ≤ lo)
    (hlo₂ : lo ≤ oomScoreAdjMax) :
    (adjs.foldl Daemon.incKillcnt s₀).getKillcnt lo hi =
      some ↑(adjs.countP fun a => lo ≤ a ∧ a ≤ hi) := by
  have h := killcntRep_foldl s₀ adjs h₀ hf ht hr
  rw [Daemon.getKillcnt, if_neg (not_lt.mpr hle), if_neg (not_lt.mpr hlo₂),
    h.getKillcntLoop_eq (fun x => Nat.lt_of_le_of_lt (hc x) (by decide)) hi _ lo 0 hlo₁
      (by simp only [adjtoslotCount_eq, adjtoslot_eq, oomScoreAdjMax] at hlo₂ ⊢; omega),
    zero_add]
  exact congrArg _ (congrArg _ (List.countP_congr fun a ha => by
    simp [mem_trackedScores hd ha]))

/-- The total counts every call: there are fewer than `2^31` of them. -/
theorem killcntTotal_foldl :
    (adjs.foldl Daemon.incKillcnt s₀).killcntTotal = adjs.length ∧ adjs.length < 2 ^ 31 := by
  have hlen := length_le_of_calls hd hc
  simp only [maxDistinctOomAdj] at hlen
  exact ⟨by rw [(killcntRep_foldl s₀ adjs h₀ hf ht hr).total, Nat.mod_eq_of_lt (by omega)],
    by omega⟩

/-- `get_killcnt` over a run of calls from start-up: a range from a score counts the calls in
it, a range above every score counts all calls, and an empty range none. -/
theorem getKillcnt_counts (lo hi : Int) :
    let s : Daemon := adjs.foldl Daemon.incKillcnt s₀
    (lo ≤ hi → oomScoreAdjMin ≤ lo → lo ≤ oomScoreAdjMax →
      s.getKillcnt lo hi = some ↑(adjs.countP fun a => lo ≤ a ∧ a ≤ hi)) ∧
    (lo ≤ hi → oomScoreAdjMax < lo → s.getKillcnt lo hi = some ↑adjs.length) ∧
    (hi < lo → s.getKillcnt lo hi = some 0) := by
  refine ⟨getKillcnt_foldl_of_le s₀ adjs h₀ hf ht hr hd hc, fun hle hlo => ?_,
    fun hlt => by rw [Daemon.getKillcnt, if_pos hlt]⟩
  obtain ⟨htot, hlen⟩ := killcntTotal_foldl s₀ adjs h₀ hf ht hr hd hc
  rw [Daemon.getKillcnt, if_neg (not_lt.mpr hle), if_pos hlo, htot,
    toInt32_of_bounds (by omega) (by exact_mod_cast hlen)]

/-- The consistency check between the counters and the total: over the whole score range the
counters sum to `killcnt_total`. -/
theorem getKillcnt_full_range_eq_total :
    let s : Daemon := adjs.foldl Daemon.incKillcnt s₀
    s.getKillcnt oomScoreAdjMin oomScoreAdjMax = some ↑s.killcntTotal := by
  dsimp only
  rw [getKillcnt_foldl_of_le s₀ adjs h₀ hf ht hr hd hc (by decide) le_rfl (by decide),
    (killcntTotal_foldl s₀ adjs h₀ hf ht hr hd hc).1,
    List.countP_eq_length.mpr fun a ha => by simpa using hr a ha]

end Run

theorem getKillcnt_full_range_eq_total_threeKills :
    ([900, 900, 0] : List Int).dedup.length ≤ maxDistinctOomAdj ∧
    (([900, 900, 0] : List Int).foldl Daemon.incKillcnt
      (Daemon.atRest defaultProps Registry.init)).getKillcnt oomScoreAdjMin oomScoreAdjMax =
      some 3 :=
  ⟨by decide, getKillcnt_full_range_eq_total (Daemon.atRest defaultProps Registry.init)
    [900, 900, 0] rfl rfl rfl (by decide) (by decide)
    (fun a => (List.count_le_length _ _).trans (by decide))⟩

/-- The scores `0, 1, ..., 32`. -/
def thirtyThreeScores : List Int := (List.range 33).map Int.ofNat

set_option maxRecDepth 4000 in
/-- Thirty-three distinct scores, one call each: the last has no counter left, so the range
query misses its call while the total counts it. -/
theorem getKillcnt_full_range_misses_untracked :
    (∀ a ∈ thirtyThreeScores, oomScoreAdjMin ≤ a ∧ a ≤ oomScoreAdjMax) ∧
    (∀ a, thirtyThreeScores.count a ≤ 65535) ∧
    (thirtyThreeScores.foldl Daemon.incKillcnt (Daemon.atRest defaultProps Registry.init)).getKillcnt
      oomScoreAdjMin oomScoreAdjMax = some 32 ∧
    (thirtyThreeScores.foldl Daemon.incKillcnt
      (Daemon.atRest defaultProps Registry.init)).killcntTotal = 33 := by
  have hr : ∀ a ∈ thirtyThreeScores, oomScoreAdjMin ≤ a ∧ a ≤ oomScoreAdjMax := by decide
  have h := killcntRep_foldl (Daemon.atRest defaultProps Registry.init) thirtyThreeScores rfl rfl
    rfl hr
  refine ⟨hr, fun a => (List.count_le_length _ _).trans (by decide), ?_, by rw [h.total]; rfl⟩
  rw [Daemon.getKillcnt, if_neg (by decide), if_neg (by decide),
    h.getKillcntLoop_eq (fun x => Nat.lt_of_le_of_lt (List.count_le_length _ _) (by decide))
      _ _ _ _ le_rfl (by decide)]
  rfl

theorem getKillcnt_counts_threeKills :
    ([900, 900, 0] : List Int).dedup.length ≤ maxDistinctOomAdj ∧
    (([900, 900, 0] : List Int).foldl Daemon.incKillcnt
      (Daemon.atRest defaultProps Registry.init)).getKillcnt 0 1000 = some 3 := by
  refine ⟨by decide, ?_⟩
  rw [(getKillcnt_counts (Daemon.atRest defaultProps Registry.init) [900, 900, 0] rfl rfl rfl
    (by decide) (by decide) (fun a => (List.count_le_length _ _).trans (by decide)) 0 1000).1
    (by decide) (by decide) (by decide)]
  rfl

end Lmkd
