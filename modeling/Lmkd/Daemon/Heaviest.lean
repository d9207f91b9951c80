import Lmkd.Daemon.Victim

/-!
# What `proc_get_heaviest` does to its bucket

On a bucket of two records or more, `proc_get_heaviest` reads the size of every record once,
from the newest on. It removes the records whose size is negative and keeps the others in
their order. It returns the first record of the greatest size when that size is positive:
`maxsize` starts at `0` and only a strictly greater size replaces the heaviest so far, so a
bucket whose records all have size `0` gives `NULL` although none of them is removed.

The turns of the loop are those of `heaviestStep` on the sizes read (`HeaviestScan`); what
the turns compute is stated here of every list of sizes, as the spec the walk meets.
-/

namespace Lmkd

open Registry

/-! ## The heaviest record of a list of sizes -/

/-- `a`, of size `t`, is the first record of the greatest size in `P`. -/
def FirstHeaviest (P : List (Nat × Int)) (a : Nat) (t : Int) : Prop :=
  ∃ P₁ P₂, P = P₁ ++ (a, t) :: P₂ ∧ (∀ x ∈ P₁, x.2 < t) ∧ ∀ x ∈ P₂, x.2 ≤ t

theorem FirstHeaviest.cons {P : List (Nat × Int)} {a : Nat} {t : Int} (h : FirstHeaviest P a t)
    {x : Nat × Int} (hx : x.2 < t) : FirstHeaviest (x :: P) a t :=
  let ⟨P₁, P₂, e, h₁, h₂⟩ := h
  ⟨x :: P₁, P₂, by rw [e, List.cons_append],
    fun y hy => (List.mem_cons.mp hy).elim (fun e => e ▸ hx) (h₁ y), h₂⟩

theorem FirstHeaviest.mem {P : List (Nat × Int)} {a : Nat} {t : Int} (h : FirstHeaviest P a t) :
    (a, t) ∈ P :=
  let ⟨_, _, e, _⟩ := h
  e ▸ List.mem_append_right _ (List.mem_cons_self _ _)

theorem sizesFrom_map_fst (q : Nat → Int) :
    ∀ (k : Nat) (L : List Nat), (sizesFrom q k L).map Prod.fst = L
  | _, [] => rfl
  | k, b :: L => congrArg (b :: ·) (sizesFrom_map_fst q (k + 1) L)

/-- The walk keeps the records of non-negative size, in their order. -/
theorem foldl_heaviestStep_kept :
    ∀ (P : List (Nat × Int)) (acc : List Nat × Option Nat × Int),
      (P.foldl heaviestStep acc).1 = acc.1 ++ (P.filter fun x => 0 ≤ x.2).map Prod.fst
  | [], acc => (List.append_nil _).symm
  | x :: P, acc => by
    rw [List.foldl_cons, foldl_heaviestStep_kept P, List.filter_cons]
    unfold heaviestStep
    by_cases hx : x.2 < 0
    · simp [hx, not_le.mpr hx]
    · rw [if_neg hx]
      split <;> simp [not_lt.mp hx]

/-- The heaviest record of the walk: with no size above `ms` the heaviest so far stays;
otherwise it is the first record of the greatest size. -/
theorem foldl_heaviestStep_max :
    ∀ (P : List (Nat × Int)) (K : List Nat) (m : Option Nat) (ms : Int), 0 ≤ ms →
      ((P.foldl heaviestStep (K, m, ms)).2 = (m, ms) ∧ ∀ x ∈ P, x.2 ≤ ms) ∨
      ∃ a t, (P.foldl heaviestStep (K, m, ms)).2 = (some a, t) ∧ ms < t ∧ FirstHeaviest P a t
  | [], _, _, _, _ => .inl ⟨rfl, fun _ h => absurd h (List.not_mem_nil _)⟩
  | x :: P, K, m, ms, hms => by
    rw [List.foldl_cons]
    unfold heaviestStep
    dsimp only
    split
    · -- a negative size: the record is dropped
      rename_i hx
      rcases foldl_heaviestStep_max P K m ms hms with ⟨e, hle⟩ | ⟨a, t, e, hlt, hf⟩
      · exact .inl ⟨e, fun y hy => (List.mem_cons.mp hy).elim (fun e => by rw [e]; omega) (hle y)⟩
      · exact .inr ⟨a, t, e, hlt, hf.cons (by omega)⟩
    split
    · -- a size above the heaviest so far: the record is the heaviest
      rename_i hx hlt
      rcases foldl_heaviestStep_max P _ (some x.1) x.2 (by omega) with ⟨e, hle⟩ | ⟨a, t, e, hlt', hf⟩
      · exact .inr ⟨x.1, x.2, e, hlt, [], P, rfl, fun _ h => absurd h (List.not_mem_nil _), hle⟩
      · exact .inr ⟨a, t, e, by omega, hf.cons hlt'⟩
    · rename_i hx hle
      rcases foldl_heaviestStep_max P _ m ms hms with ⟨e, hle'⟩ | ⟨a, t, e, hlt, hf⟩
      · exact .inl ⟨e, fun y hy => (List.mem_cons.mp hy).elim (fun e => by rw [e]; omega) (hle' y)⟩
      · exact .inr ⟨a, t, e, hlt, hf.cons (by omega)⟩

/-- No record is both kept and dropped: each has one size. -/
theorem not_mem_kept_of_mem_dropped {P : List (Nat × Int)} (hP : (P.map Prod.fst).Nodup)
    {c : Nat} (h : c ∈ (P.filter fun x => x.2 < 0).map Prod.fst) :
    c ∉ (P.filter fun x => 0 ≤ x.2).map Prod.fst := by
  simp only [List.mem_map, List.mem_filter, decide_eq_true_eq] at h ⊢
  rintro ⟨y, ⟨hy, hy'⟩, rfl⟩
  obtain ⟨x, ⟨hx, hx'⟩, e⟩ := h
  have := List.inj_on_of_nodup_map hP hx hy e
  subst this
  omega

/-! ## The walk of a whole bucket -/

section

variable {w : KillWorld} {i : Nat} {s₀ s : Daemon} {S : Shape} {K : List Nat}
  {maxp : Option Nat} {maxsize : Int} {acc : List Event}

/-- The records the walk keeps are those of non-negative size, in their order. -/
theorem HeaviestScan.kept_eq {L₀ V R : List Nat}
    (h : HeaviestScan w i s₀ L₀ V s K R maxp maxsize acc) :
    ((sizesFrom w.procGetSize s₀.asked V).filter fun x => 0 ≤ x.2).map Prod.fst = K := by
  simpa using (foldl_heaviestStep_kept _ ([], none, 0)).symm.trans (congrArg Prod.fst h.scan)

/-- At the end of the walk, the records of negative size are gone and every other record is
as it was. -/
theorem HeaviestScan.frame_end (hS : Wf s₀.reg S)
    (h : HeaviestScan w i s₀ (S.buckets i) (S.buckets i) s K [] maxp maxsize acc) (c : Nat) :
    let P := sizesFrom w.procGetSize s₀.asked (S.buckets i)
    (c ∈ (P.filter fun x => x.2 < 0).map Prod.fst → s.reg.procs c = none) ∧
    (c ∉ (P.filter fun x => x.2 < 0).map Prod.fst →
      (s.reg.procs c).map Proc.body = (s₀.reg.procs c).map Proc.body) := by
  intro P
  have hP : (P.map Prod.fst).Nodup := by
    rw [sizesFrom_map_fst]; exact hS.buckets.nodup i
  obtain ⟨S', hS', hb⟩ := h.wf
  rw [List.append_nil, ← h.kept_eq] at hb
  -- a record of bucket `i` left in the registry is one of the kept ones
  have hkept : ∀ p, s.reg.procs c = some p → slotOf p.oomadj = i →
      c ∈ (P.filter fun x => 0 ≤ x.2).map Prod.fst :=
    fun p hp hpi => hb ▸ (hS'.mem_bucket i c).mpr ⟨p, hp, hpi⟩
  constructor
  · intro hc
    rcases h.frame c with hbody | ⟨-, hn⟩
    · have hcL : c ∈ S.buckets i := by
        rw [← sizesFrom_map_fst w.procGetSize s₀.asked (S.buckets i)]
        exact List.map_subset _ (List.filter_subset' _) hc
      obtain ⟨p, hp, hpi⟩ := (hS.mem_bucket i c).mp hcL
      rw [hp] at hbody
      obtain ⟨p', hp', e⟩ := Option.map_eq_some'.mp hbody
      have : p'.oomadj = p.oomadj := by rw [← Proc.body_oomadj, e, Proc.body_oomadj]
      exact absurd (hkept p' hp' (this ▸ hpi)) (not_mem_kept_of_mem_dropped hP hc)
    · exact hn
  · intro hc
    rcases h.frame c with hbody | ⟨hcL, hn⟩
    · exact hbody
    · rw [← sizesFrom_map_fst w.procGetSize s₀.asked (S.buckets i)] at hcL
      obtain ⟨x, hx, rfl⟩ := List.mem_map.mp hcL
      by_cases hx' : x.2 < 0
      · exact absurd (List.mem_map_of_mem _ (List.mem_filter.mpr ⟨hx, by simpa using hx'⟩)) hc
      · have hk : x.1 ∈ S'.buckets i :=
          hb ▸ List.mem_map_of_mem _ (List.mem_filter.mpr ⟨hx, by simpa using hx'⟩)
        obtain ⟨p, hp, -⟩ := (hS'.mem_bucket i x.1).mp hk
        rw [hp] at hn
        cases hn

end

/-- For every bucket of two records or more and every answer of `proc_get_size`, with `P`
the bucket's records paired with the sizes read for them: `proc_get_heaviest` leaves in the
bucket, in their order, the records of non-negative size and removes those of negative size,
every other record left as it was; it reads the size of each record once, in the bucket's
order; and it returns `NULL` exactly when no size is positive, else the first record of the
greatest size. -/
theorem procGetHeaviest_sizes (w : KillWorld) (s : Daemon) {S : Shape} (hS : Wf s.reg S)
    {adj : Int} (h₁ : oomScoreAdjMin ≤ adj) (h₂ : adj ≤ oomScoreAdjMax)
    (hL : 2 ≤ (S.buckets (slotOf adj)).length) :
    let P := sizesFrom w.procGetSize s.asked (S.buckets (slotOf adj))
    let res := procGetHeaviest w s adj
    (∃ S', Wf res.1.reg S' ∧
      S'.buckets (slotOf adj) = (P.filter fun x => 0 ≤ x.2).map Prod.fst) ∧
    (∀ c, c ∈ (P.filter fun x => x.2 < 0).map Prod.fst → res.1.reg.procs c = none) ∧
    (∀ c, c ∉ (P.filter fun x => x.2 < 0).map Prod.fst →
      (res.1.reg.procs c).map Proc.body = (s.reg.procs c).map Proc.body) ∧
    (res.1.trace.drop s.trace.length).filterMap Event.sizeRead =
      P.map (fun x => (pidAt s.reg x.1, x.2)) ∧
    (res.2 = none ↔ ∀ x ∈ P, x.2 ≤ 0) ∧
    ∀ a, res.2 = some a → ∃ t, 0 < t ∧ FirstHeaviest P a t := by
  intro P res
  obtain ⟨K, maxsize, acc, h⟩ := procGetHeaviest_scan w s hS h₁ h₂ hL
  obtain ⟨S', hS', hb⟩ := h.wf
  refine ⟨⟨S', hS', by rw [hb, List.append_nil, ← h.kept_eq]⟩, fun c => (h.frame_end hS c).1,
    fun c => (h.frame_end hS c).2, by rw [h.trace, List.drop_left]; exact h.reads, ?_⟩
  have hres := congrArg Prod.snd h.scan
  rcases foldl_heaviestStep_max P [] none 0 le_rfl with ⟨e, hle⟩ | ⟨a, t, e, hlt, hf⟩
  · rw [hres, Prod.mk.injEq] at e
    exact ⟨⟨fun _ => hle, fun _ => e.1⟩, fun a ha => by rw [e.1] at ha; cases ha⟩
  · rw [hres, Prod.mk.injEq] at e
    refine ⟨⟨fun hn => (by rw [e.1] at hn; cases hn), fun hle => ?_⟩, fun a' ha' => ?_⟩
    · exact absurd (hle _ hf.mem) (by simpa using hlt)
    · rw [e.1, Option.some.injEq] at ha'
      exact ⟨t, hlt, ha' ▸ hf⟩

/-- The size of the newest record of a bucket is 5 pages; every later read fails. -/
def unreadableWorld : KillWorld :=
  { zeroRssWorld with procGetSize := fun n => if n = 0 then 5 else -1 }

theorem procGetHeaviest_sizes_threeApps :
    (∃ S, Wf threeApps S ∧ 2 ≤ (S.buckets (slotOf 900)).length) ∧
    oomScoreAdjMin ≤ 900 ∧ (900 : Int) ≤ oomScoreAdjMax ∧
    (procGetHeaviest unreadableWorld (Daemon.atRest defaultProps threeApps) 900).1.reg.procs 0 =
      none := by
  have h₁ := wf_init.insert (p := appA) (by decide) (by decide)
    (wf_init.pidLookup_eq_none.mp (by decide)) (by decide)
  have h₂ := h₁.insert (p := appA2) (by decide) (by decide) (h₁.pidLookup_eq_none.mp (by decide)) (by decide)
  have h₃ := h₂.insert (p := appB) (by decide) (by decide) (h₂.pidLookup_eq_none.mp (by decide)) (by decide)
  exact ⟨⟨_, h₃, by decide⟩, by decide, by decide,
    (@procGetHeaviest_sizes unreadableWorld (Daemon.atRest defaultProps threeApps) _ h₃ 900
      (by decide) (by decide) (by decide)).2.1 0 (by decide)⟩

/-- Two records at score 900 whose `statm` shows no resident page: `proc_get_heaviest`
returns `NULL`, and both records stay registered at that score. -/
theorem procGetHeaviest_zero_sizes :
    (procGetHeaviest zeroRssWorld (Daemon.atRest defaultProps threeApps) 900).2 = none ∧
    (procGetHeaviest zeroRssWorld (Daemon.atRest defaultProps threeApps) 900).1.reg.procs 0 =
      some appA ∧
    (procGetHeaviest zeroRssWorld (Daemon.atRest defaultProps threeApps) 900).1.reg.procs 1 =
      some appA2 ∧
    appA.oomadj = 900 ∧ appA2.oomadj = 900 :=
  ⟨by decide, by decide, by decide, rfl, rfl⟩

end Lmkd
