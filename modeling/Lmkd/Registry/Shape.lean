import Lmkd.Registry.Heap
import Mathlib.Data.List.Chain
import Mathlib.Data.List.Nodup

/-!
# List shapes of the pointer structures

A score bucket holding the records `L` (head first) is the circle of pointers
`cyc i L`: the sentinel, the records, the sentinel again, each consecutive pair
`Linked` in both directions. A `pidhash` chain holding `C` is a `ChainSeg` from the
table entry to `NULL`. The lemmas here say what `adjslot_insert`, `adjslot_remove`
and the chain walk do to these shapes, and that writes elsewhere do not touch them.
-/

namespace Lmkd

namespace Registry

/-- `p->next == q && q->prev == p`. -/
def Linked (r : Registry) (p q : Ptr) : Prop := r.next p = q ∧ r.prev q = p

/-- The pointers of bucket `i` holding `L`, once around the circle. -/
def cyc (i : Nat) (L : List Nat) : List Ptr := .slot i :: (L.map .node ++ [.slot i])

/-- Bucket `i` is a well-formed circular doubly linked list of the records `L`,
head first. -/
def BucketRep (r : Registry) (i : Nat) (L : List Nat) : Prop := List.Chain' (Linked r) (cyc i L)

/-- The `pidhash_next` member of the record at `a`, when `a` is allocated. -/
def hnext (r : Registry) (a : Nat) : Option (Option Nat) := (r.procs a).map Proc.pidhashNext

/-- Following `pidhash_next` from `s` visits exactly the records `C`, then reaches `t`. -/
def ChainSeg (r : Registry) : Option Nat → List Nat → Option Nat → Prop
  | s, [], t => s = t
  | s, a :: C, t => s = some a ∧ ∃ n, r.hnext a = some n ∧ ChainSeg r n C t

variable {r r' : Registry}

/-! ## Buckets -/

/-- A chain of links survives any write that keeps the `next` of every pointer with a
successor and the `prev` of every pointer with a predecessor. -/
theorem chain'_linked_frame : ∀ {T : List Ptr},
    (∀ p ∈ T.dropLast, r'.next p = r.next p) → (∀ p ∈ T.tail, r'.prev p = r.prev p) →
    List.Chain' (Linked r) T → List.Chain' (Linked r') T
  | [], _, _, _ => List.chain'_nil
  | [_], _, _, _ => List.chain'_singleton _
  | x :: y :: T, hn, hp, h => by
    rw [List.chain'_cons] at h ⊢
    obtain ⟨⟨h₁, h₂⟩, h₃⟩ := h
    refine ⟨⟨(hn x (by simp)).trans h₁, (hp y (by simp)).trans h₂⟩, ?_⟩
    refine chain'_linked_frame (fun p hm => hn p ?_) (fun p hm => hp p ?_) h₃
    · rw [List.dropLast_cons₂]; exact List.mem_cons_of_mem _ hm
    · exact List.mem_of_mem_tail hm

theorem chain'_linked_frame_of_mem {T : List Ptr}
    (h : ∀ p ∈ T, r'.next p = r.next p ∧ r'.prev p = r.prev p)
    (hc : List.Chain' (Linked r) T) : List.Chain' (Linked r') T :=
  chain'_linked_frame (fun p hp => (h p (List.dropLast_subset _ hp)).1)
    (fun p hp => (h p (List.mem_of_mem_tail hp)).2) hc

theorem adjslotInsert_next (h n p : Ptr) :
    (r.adjslotInsert h n).next p = if p = h then n else if p = n then r.next h else r.next p := by
  simp only [adjslotInsert, Function.update_apply]

theorem adjslotInsert_prev (h n p : Ptr) :
    (r.adjslotInsert h n).prev p = if p = r.next h then n else if p = n then h else r.prev p := by
  simp only [adjslotInsert, Function.update_apply]

theorem adjslotRemove_next (o p : Ptr) :
    (r.adjslotRemove o).next p = if p = r.prev o then r.next o else r.next p := by
  simp only [adjslotRemove, Function.update_apply]

theorem adjslotRemove_prev (o p : Ptr) :
    (r.adjslotRemove o).prev p = if p = r.next o then r.prev o else r.prev p := by
  simp only [adjslotRemove, Function.update_apply]

/-- `adjslot_insert(x, z)` splices a fresh `z` between `x` and its successor. -/
theorem chain'_adjslotInsert {x y z : Ptr} {T : List Ptr}
    (h : List.Chain' (Linked r) (x :: y :: T)) (hnd : (y :: T).Nodup)
    (hx : x ∉ (y :: T).dropLast) (hz : z ∉ x :: y :: T) :
    List.Chain' (Linked (r.adjslotInsert x z)) (x :: z :: y :: T) := by
  have hz' := hz
  simp only [List.mem_cons, not_or] at hz'
  obtain ⟨hzx, hzy, hzT⟩ := hz'
  rw [List.chain'_cons] at h
  obtain ⟨⟨hxy, hyx⟩, hT⟩ := h
  have hy : y ∉ T := (List.nodup_cons.mp hnd).1
  refine List.chain'_cons.mpr ⟨⟨?_, ?_⟩, List.chain'_cons.mpr ⟨⟨?_, ?_⟩, ?_⟩⟩
  · simp [adjslotInsert_next]
  · simp [adjslotInsert_prev, hxy, hzy]
  · simp [adjslotInsert_next, hxy, hzx]
  · simp [adjslotInsert_prev, hxy]
  · refine chain'_linked_frame (fun p hp => ?_) (fun p hp => ?_) hT
    · have hpx : p ≠ x := fun e => hx (e ▸ hp)
      have hpz : p ≠ z := fun e => hz (e ▸ List.mem_cons_of_mem _ (List.dropLast_subset _ hp))
      simp [adjslotInsert_next, hpx, hpz]
    · have hpT : p ∈ T := hp
      have hpy : p ≠ y := fun e => hy (e ▸ hpT)
      have hpz : p ≠ z := fun e => hzT (e ▸ hpT)
      simp [adjslotInsert_prev, hxy, hpy, hpz]

/-- `adjslot_remove(z)` joins the two neighbours of `z`. The circle `P ++ [x]`,
`z`, `y :: Q` may repeat its sentinel at both ends, nothing else. -/
theorem chain'_adjslotRemove {x y z : Ptr} {P Q : List Ptr}
    (h : List.Chain' (Linked r) (P ++ x :: z :: y :: Q))
    (hA : (P ++ [x]).Nodup) (hB : (y :: Q).Nodup)
    (hAB : ∀ p ∈ (P ++ [x]).tail, p ∉ y :: Q) (hBA : ∀ q ∈ (y :: Q).dropLast, q ∉ P ++ [x]) :
    List.Chain' (Linked (r.adjslotRemove z)) (P ++ x :: y :: Q) := by
  rw [List.chain'_append_cons_cons] at h
  obtain ⟨hPx, ⟨hxz, hzx⟩, hzy⟩ := h
  rw [List.chain'_cons] at hzy
  obtain ⟨⟨hzy, hyz⟩, hyQ⟩ := hzy
  have hxP : x ∉ P := fun hx => (List.nodup_append.mp hA).2.2 hx (List.mem_singleton_self x)
  have hyQ' : y ∉ Q := (List.nodup_cons.mp hB).1
  rw [List.chain'_append_cons_cons]
  refine ⟨chain'_linked_frame (fun p hp => ?_) (fun p hp => ?_) hPx, ⟨?_, ?_⟩,
    chain'_linked_frame (fun p hp => ?_) (fun p hp => ?_) hyQ⟩
  · rw [List.dropLast_concat] at hp
    have : p ≠ x := fun e => hxP (e ▸ hp)
    simp [adjslotRemove_next, hzx, this]
  · have : p ≠ y := fun e => hAB p hp (e ▸ List.mem_cons_self y Q)
    simp [adjslotRemove_prev, hzy, this]
  · simp [adjslotRemove_next, hzx, hzy]
  · simp [adjslotRemove_prev, hzy, hzx]
  · have : p ≠ x := fun e => hBA p hp (by rw [e]; simp)
    simp [adjslotRemove_next, hzx, this]
  · have : p ≠ y := fun e => hyQ' (e ▸ hp)
    simp [adjslotRemove_prev, hzy, this]

theorem nodup_map_node {L : List Nat} (h : L.Nodup) : (L.map Ptr.node).Nodup :=
  h.map fun _ _ e => by injection e

theorem slot_not_mem_map_node (i : Nat) (L : List Nat) : Ptr.slot i ∉ L.map Ptr.node := by simp

theorem bucketRep_insert {i a : Nat} {L : List Nat} (h : BucketRep r i L) (hnd : L.Nodup)
    (ha : a ∉ L) : BucketRep (r.adjslotInsert (.slot i) (.node a)) i (a :: L) := by
  obtain ⟨y, T, hyT⟩ : ∃ y T, L.map Ptr.node ++ [Ptr.slot i] = y :: T :=
    List.exists_cons_of_ne_nil (by simp)
  have hB : (L.map Ptr.node ++ [Ptr.slot i]).Nodup :=
    List.nodup_append.mpr ⟨nodup_map_node hnd, List.nodup_singleton _,
      fun p hp hq => by rw [List.mem_singleton.mp hq] at hp; exact slot_not_mem_map_node i L hp⟩
  unfold BucketRep cyc at h ⊢
  rw [hyT] at h hB
  rw [List.map_cons, List.cons_append, hyT]
  refine chain'_adjslotInsert h hB ?_ ?_
  · rw [← hyT, List.dropLast_concat]; exact slot_not_mem_map_node i L
  · rw [← hyT]; simp [ha]

theorem bucketRep_remove {i a : Nat} {L₁ L₂ : List Nat} (h : BucketRep r i (L₁ ++ a :: L₂))
    (hnd : (L₁ ++ a :: L₂).Nodup) : BucketRep (r.adjslotRemove (.node a)) i (L₁ ++ L₂) := by
  obtain ⟨P, x, hPx⟩ : ∃ P x, Ptr.slot i :: L₁.map Ptr.node = P ++ [x] :=
    ⟨_, _, (List.dropLast_append_getLast (List.cons_ne_nil _ _)).symm⟩
  obtain ⟨y, Q, hyQ⟩ : ∃ y Q, L₂.map Ptr.node ++ [Ptr.slot i] = y :: Q :=
    List.exists_cons_of_ne_nil (by simp)
  have hn := nodup_map_node hnd
  rw [List.map_append, List.map_cons, List.nodup_append, List.nodup_cons] at hn
  obtain ⟨h₁, ⟨-, h₂⟩, h₁₂⟩ := hn
  have e₁ : cyc i (L₁ ++ a :: L₂) =
      (Ptr.slot i :: L₁.map Ptr.node) ++ Ptr.node a :: (L₂.map Ptr.node ++ [Ptr.slot i]) := by
    simp [cyc]
  have e₂ : cyc i (L₁ ++ L₂) =
      (Ptr.slot i :: L₁.map Ptr.node) ++ (L₂.map Ptr.node ++ [Ptr.slot i]) := by
    simp [cyc]
  rw [hPx, hyQ, List.append_assoc, List.singleton_append] at e₁ e₂
  unfold BucketRep at h ⊢
  rw [e₁] at h
  rw [e₂]
  refine chain'_adjslotRemove h ?_ ?_ ?_ ?_
  · rw [← hPx]
    exact List.nodup_cons.mpr ⟨slot_not_mem_map_node i L₁, h₁⟩
  · rw [← hyQ]
    exact List.nodup_append.mpr ⟨h₂, List.nodup_singleton _,
      fun p hp hq => by rw [List.mem_singleton.mp hq] at hp; exact slot_not_mem_map_node i L₂ hp⟩
  · rw [← hPx, ← hyQ]
    intro p hp hq
    simp only [List.tail_cons, List.mem_map] at hp
    obtain ⟨b, hb, rfl⟩ := hp
    simp only [List.mem_append, List.mem_map, Ptr.node.injEq, exists_eq_right, List.mem_singleton,
      reduceCtorEq, or_false] at hq
    exact h₁₂ (List.mem_map_of_mem _ hb) (List.mem_cons_of_mem _ (List.mem_map_of_mem _ hq))
  · rw [← hPx, ← hyQ, List.dropLast_concat]
    intro q hq hq'
    obtain ⟨b, hb, rfl⟩ := List.mem_map.mp hq
    simp only [List.mem_cons, reduceCtorEq, List.mem_map, Ptr.node.injEq, exists_eq_right,
      false_or] at hq'
    exact h₁₂ (List.mem_map_of_mem _ hq') (List.mem_cons_of_mem _ (List.mem_map_of_mem _ hb))

theorem chain'_linked_next_mem : ∀ {T : List Ptr}, List.Chain' (Linked r) T →
    ∀ p ∈ T.dropLast, r.next p ∈ T
  | [], _, _, hp => by simp at hp
  | [_], _, _, hp => by simp at hp
  | x :: y :: T, h, p, hp => by
    rw [List.chain'_cons] at h
    rw [List.dropLast_cons₂] at hp
    rcases List.mem_cons.mp hp with rfl | hp
    · rw [h.1.1]; simp
    · exact List.mem_cons_of_mem _ (chain'_linked_next_mem h.2 p hp)

theorem chain'_linked_prev_mem : ∀ {T : List Ptr}, List.Chain' (Linked r) T →
    ∀ p ∈ T.tail, r.prev p ∈ T
  | [], _, _, hp => by simp at hp
  | [_], _, _, hp => by simp at hp
  | x :: y :: T, h, p, hp => by
    rw [List.chain'_cons] at h
    rcases List.mem_cons.mp hp with rfl | hp
    · rw [h.1.2]; simp
    · exact List.mem_cons_of_mem _ (chain'_linked_prev_mem h.2 p hp)

theorem mem_cyc {i : Nat} {L : List Nat} {p : Ptr} :
    p ∈ cyc i L ↔ p = .slot i ∨ ∃ b ∈ L, p = .node b := by
  cases p <;> simp [cyc, or_comm, eq_comm]

theorem node_mem_cyc_dropLast {i a : Nat} {L : List Nat} (ha : a ∈ L) :
    Ptr.node a ∈ (cyc i L).dropLast := by
  simp [cyc, List.dropLast_cons_of_ne_nil, ha]

theorem node_mem_cyc_tail {i a : Nat} {L : List Nat} (ha : a ∈ L) :
    Ptr.node a ∈ (cyc i L).tail := by
  simp [cyc, ha]

theorem cyc_disjoint {i j : Nat} {L M : List Nat} (hij : i ≠ j) (hLM : ∀ b ∈ L, b ∉ M)
    {p : Ptr} (hp : p ∈ cyc i L) : p ∉ cyc j M := by
  rw [mem_cyc] at hp ⊢
  rintro (rfl | ⟨b, hb, rfl⟩)
  · rcases hp with h | ⟨b, _, h⟩ <;> cases h; exact hij rfl
  · rcases hp with h | ⟨c, hc, h⟩ <;> cases h; exact hLM b hc hb

/-- The head's `next` is the newest record, or the head itself in an empty bucket. -/
theorem BucketRep.next_slot {i : Nat} {L : List Nat} (h : BucketRep r i L) :
    r.next (.slot i) = (L.head?.map .node).getD (.slot i) := by
  cases L <;> exact (List.chain'_cons.mp h).1.1

/-- The `next` of a record is the record after it, or the head after the oldest. -/
theorem BucketRep.next_node {i a : Nat} {P Q : List Nat} (h : BucketRep r i (P ++ a :: Q)) :
    r.next (.node a) = (Q.head?.map .node).getD (.slot i) := by
  have e : cyc i (P ++ a :: Q) =
      (Ptr.slot i :: P.map Ptr.node) ++ Ptr.node a :: (Q.map Ptr.node ++ [Ptr.slot i]) := by
    simp [cyc]
  rw [BucketRep, e, List.chain'_split] at h
  cases Q <;> exact (List.chain'_cons.mp h.2).1.1

/-- The head's `prev` is the oldest record, or the head itself in an empty bucket. -/
theorem BucketRep.prev_slot {i : Nat} {L : List Nat} (h : BucketRep r i L) :
    r.prev (.slot i) = (L.getLast?.map .node).getD (.slot i) := by
  rcases List.eq_nil_or_concat L with rfl | ⟨L', b, rfl⟩
  · exact (List.chain'_cons.mp h).1.2
  · rw [List.concat_eq_append] at h ⊢
    have e : cyc i (L' ++ [b]) =
        (Ptr.slot i :: L'.map Ptr.node) ++ Ptr.node b :: [Ptr.slot i] := by
      simp [cyc]
    rw [BucketRep, e, List.chain'_split] at h
    simpa using (List.chain'_cons.mp h.2).1.2

/-- The score buckets hold the lists `B`: each a well-formed circle, each without
repetition, no record in two buckets. -/
structure BucketsOk (r : Registry) (B : Nat → List Nat) : Prop where
  rep : ∀ i, i < 2001 → BucketRep r i (B i)
  nodup : ∀ i, (B i).Nodup
  disjoint : ∀ i j a, a ∈ B i → a ∈ B j → i = j

theorem BucketsOk.congr {B : Nat → List Nat} (h : BucketsOk r B) (hn : r'.next = r.next)
    (hp : r'.prev = r.prev) : BucketsOk r' B where
  rep i hi := chain'_linked_frame_of_mem (fun q _ => by rw [hn, hp]; simp) (h.rep i hi)
  nodup := h.nodup
  disjoint := h.disjoint

theorem BucketsOk.insert {B : Nat → List Nat} {i a : Nat} (h : BucketsOk r B) (hi : i < 2001)
    (ha : ∀ j, a ∉ B j) :
    BucketsOk (r.adjslotInsert (.slot i) (.node a)) (Function.update B i (a :: B i)) where
  rep j hj := by
    by_cases hji : j = i
    · subst hji
      rw [Function.update_same]
      exact bucketRep_insert (h.rep j hj) (h.nodup j) (ha j)
    · rw [Function.update_noteq hji]
      have hhead : r.next (.slot i) ∈ cyc i (B i) :=
        chain'_linked_next_mem (h.rep i hi) _
          (by rw [cyc, List.dropLast_cons_of_ne_nil (by simp)]; simp)
      have hdis : ∀ b ∈ B i, b ∉ B j := fun b hb hb' => hji (h.disjoint j i b hb' hb)
      refine chain'_linked_frame_of_mem (fun q hq => ?_) (h.rep j hj)
      have hqi : q ≠ .slot i := fun e => cyc_disjoint (Ne.symm hji) hdis
        (show Ptr.slot i ∈ cyc i (B i) by simp [cyc]) (e ▸ hq)
      have hqa : q ≠ .node a := fun e => ha j (by
        rw [e, mem_cyc] at hq
        rcases hq with h' | ⟨b, hb, h'⟩ <;> cases h'; exact hb)
      have hqn : q ≠ r.next (.slot i) := fun e => cyc_disjoint (Ne.symm hji) hdis hhead (e ▸ hq)
      simp [adjslotInsert_next, adjslotInsert_prev, hqi, hqa, hqn]
  nodup j := by
    by_cases hji : j = i
    · subst hji; rw [Function.update_same]; exact List.nodup_cons.mpr ⟨ha j, h.nodup j⟩
    · rw [Function.update_noteq hji]; exact h.nodup j
  disjoint j k b hj hk := by
    have key : ∀ l, b ∈ Function.update B i (a :: B i) l → b = a ∧ l = i ∨ b ∈ B l := by
      intro l hl
      by_cases hli : l = i
      · subst hli; rw [Function.update_same] at hl
        rcases List.mem_cons.mp hl with rfl | hl
        · exact Or.inl ⟨rfl, rfl⟩
        · exact Or.inr hl
      · rw [Function.update_noteq hli] at hl; exact Or.inr hl
    rcases key j hj with ⟨rfl, rfl⟩ | hj' <;> rcases key k hk with ⟨hb, rfl⟩ | hk'
    · rfl
    · exact absurd hk' (ha k)
    · exact absurd (hb ▸ hj') (ha j)
    · exact h.disjoint j k b hj' hk'

theorem BucketsOk.remove {B : Nat → List Nat} {i a : Nat} (h : BucketsOk r B) (hi : i < 2001)
    (ha : a ∈ B i) :
    BucketsOk (r.adjslotRemove (.node a)) (Function.update B i ((B i).erase a)) where
  rep j hj := by
    obtain ⟨L₁, L₂, hL⟩ := List.append_of_mem ha
    have hnd : (L₁ ++ a :: L₂).Nodup := hL ▸ h.nodup i
    have herase : (B i).erase a = L₁ ++ L₂ := by
      rw [hL, List.erase_append_right _ fun h' => (List.nodup_append.mp hnd).2.2 h'
        (List.mem_cons_self a L₂), List.erase_cons_head]
    by_cases hji : j = i
    · subst hji
      rw [Function.update_same, herase]
      have hrep := h.rep j hj
      rw [hL] at hrep
      exact bucketRep_remove hrep hnd
    · rw [Function.update_noteq hji]
      have hdis : ∀ b ∈ B i, b ∉ B j := fun b hb hb' => hji (h.disjoint j i b hb' hb)
      have hp : r.prev (.node a) ∈ cyc i (B i) :=
        chain'_linked_prev_mem (h.rep i hi) _ (node_mem_cyc_tail ha)
      have hn : r.next (.node a) ∈ cyc i (B i) :=
        chain'_linked_next_mem (h.rep i hi) _ (node_mem_cyc_dropLast ha)
      refine chain'_linked_frame_of_mem (fun q hq => ?_) (h.rep j hj)
      have hqp : q ≠ r.prev (.node a) := fun e => cyc_disjoint (Ne.symm hji) hdis hp (e ▸ hq)
      have hqn : q ≠ r.next (.node a) := fun e => cyc_disjoint (Ne.symm hji) hdis hn (e ▸ hq)
      simp [adjslotRemove_next, adjslotRemove_prev, hqp, hqn]
  nodup j := by
    by_cases hji : j = i
    · subst hji; rw [Function.update_same]; exact (h.nodup j).erase a
    · rw [Function.update_noteq hji]; exact h.nodup j
  disjoint j k b hj hk := by
    have key : ∀ l, b ∈ Function.update B i ((B i).erase a) l → b ∈ B l := by
      intro l hl
      by_cases hli : l = i
      · subst hli; rw [Function.update_same] at hl; exact List.mem_of_mem_erase hl
      · rwa [Function.update_noteq hli] at hl
    exact h.disjoint j k b (key j hj) (key k hk)

/-! ## Chains -/

theorem chainSeg_frame : ∀ {C : List Nat} {s t : Option Nat},
    (∀ a ∈ C, r'.hnext a = r.hnext a) → ChainSeg r s C t → ChainSeg r' s C t
  | [], _, _, _, h => h
  | a :: C, _, _, hf, ⟨hs, n, hn, hC⟩ =>
    ⟨hs, n, (hf a (List.mem_cons_self a C)).trans hn,
      chainSeg_frame (fun b hb => hf b (List.mem_cons_of_mem a hb)) hC⟩

theorem chainSeg_append : ∀ {C₁ C₂ : List Nat} {s t : Option Nat},
    ChainSeg r s (C₁ ++ C₂) t ↔ ∃ m, ChainSeg r s C₁ m ∧ ChainSeg r m C₂ t
  | [], _, _, _ => by simp [ChainSeg]
  | a :: C₁, C₂, s, t => by
    constructor
    · rintro ⟨hs, n, hn, h⟩
      obtain ⟨m, h₁, h₂⟩ := chainSeg_append.mp h
      exact ⟨m, ⟨hs, n, hn, h₁⟩, h₂⟩
    · rintro ⟨m, ⟨hs, n, hn, h₁⟩, h₂⟩
      exact ⟨hs, n, hn, chainSeg_append.mpr ⟨m, h₁, h₂⟩⟩

theorem chainSeg_allocated : ∀ {C : List Nat} {s t : Option Nat},
    ChainSeg r s C t → ∀ a ∈ C, ∃ p, r.procs a = some p
  | [], _, _, _ => by simp
  | a :: C, _, _, ⟨_, n, hn, hC⟩ => by
    intro b hb
    rcases List.mem_cons.mp hb with rfl | hb
    · obtain ⟨p, hp, -⟩ := Option.map_eq_some'.mp hn
      exact ⟨p, hp⟩
    · exact chainSeg_allocated hC b hb

/-- What the chain walk returns: the first record of the chain with the pid, and the
record before it. -/
theorem chainFind_some {pid : Int} : ∀ {fuel : Nat} {C : List Nat} {s prevp b : Option Nat}
    {a : Nat}, ChainSeg r s C none → r.chainFind pid fuel prevp s = (b, some a) →
    ∃ C₁ C₂, C = C₁ ++ a :: C₂ ∧ b = C₁.getLast?.or prevp ∧
      (∃ p, r.procs a = some p ∧ p.pid = pid) ∧ ∀ c ∈ C₁, ∀ q, r.procs c = some q → q.pid ≠ pid
  | 0, _, _, _, _, _, _, he => by simp [chainFind] at he
  | _ + 1, [], _, _, _, _, hC, he => by
    rw [ChainSeg] at hC; subst hC; simp [chainFind] at he
  | n + 1, c :: C, s, prevp, b, a, ⟨hs, m, hm, hC⟩, he => by
    subst hs
    obtain ⟨p, hp, rfl⟩ := Option.map_eq_some'.mp hm
    simp only [chainFind, hp] at he
    split at he
    · simp only [Prod.mk.injEq, Option.some.injEq] at he
      obtain ⟨rfl, rfl⟩ := he
      exact ⟨[], C, rfl, rfl, ⟨p, hp, by assumption⟩, by simp⟩
    · obtain ⟨C₁, C₂, rfl, hb, hpid, hne⟩ := chainFind_some hC he
      refine ⟨c :: C₁, C₂, rfl, ?_, hpid, ?_⟩
      · rw [hb]; cases C₁ <;> simp [List.getLast?_cons]
      · intro d hd q hq
        rcases List.mem_cons.mp hd with rfl | hd
        · rw [hp] at hq; cases hq; assumption
        · exact hne d hd q hq

/-- A walk with enough fuel that finds nothing has passed every record of the chain. -/
theorem chainFind_none {pid : Int} : ∀ {fuel : Nat} {C : List Nat} {s prevp : Option Nat},
    ChainSeg r s C none → C.length ≤ fuel → (r.chainFind pid fuel prevp s).2 = none →
    ∀ c ∈ C, ∀ q, r.procs c = some q → q.pid ≠ pid
  | _, [], _, _, _, _, _ => by simp
  | 0, _ :: _, _, _, _, hl, _ => by simp at hl
  | n + 1, c :: C, s, prevp, ⟨hs, m, hm, hC⟩, hl, he => by
    subst hs
    obtain ⟨p, hp, rfl⟩ := Option.map_eq_some'.mp hm
    simp only [chainFind, hp] at he
    split at he
    · simp at he
    · intro d hd q hq
      rcases List.mem_cons.mp hd with rfl | hd
      · rw [hp] at hq; cases hq; assumption
      · exact chainFind_none hC (by simpa using hl) he d hd q hq

theorem chainSeg_concat {C : List Nat} {b : Nat} {s t : Option Nat} :
    ChainSeg r s (C ++ [b]) t ↔ ChainSeg r s C (some b) ∧ r.hnext b = some t := by
  rw [chainSeg_append]
  constructor
  · rintro ⟨m, h₁, rfl, n, hn, rfl⟩; exact ⟨h₁, hn⟩
  · rintro ⟨h₁, hn⟩; exact ⟨some b, h₁, rfl, t, hn, rfl⟩

/-- The `pidhash` chains hold the lists `C`: each a `NULL`-terminated walk, each
without repetition, no record on two chains. -/
structure ChainsOk (r : Registry) (C : Nat → List Nat) : Prop where
  rep : ∀ h, ChainSeg r (r.pidhash h) (C h) none
  nodup : ∀ h, (C h).Nodup
  disjoint : ∀ h k a, a ∈ C h → a ∈ C k → h = k

theorem ChainsOk.congr {C : Nat → List Nat} (h : ChainsOk r C) (hp : r'.pidhash = r.pidhash)
    (hn : ∀ k a, a ∈ C k → r'.hnext a = r.hnext a) : ChainsOk r' C where
  rep k := hp ▸ chainSeg_frame (hn k) (h.rep k)
  nodup := h.nodup
  disjoint := h.disjoint

/-- `proc_insert` puts a new record at the head of its chain. -/
theorem ChainsOk.push {C : Nat → List Nat} {k a : Nat} (h : ChainsOk r C) (ha : ∀ j, a ∉ C j)
    (hp : r'.pidhash = Function.update r.pidhash k (some a))
    (hna : r'.hnext a = some (r.pidhash k)) (hn : ∀ j b, b ∈ C j → r'.hnext b = r.hnext b) :
    ChainsOk r' (Function.update C k (a :: C k)) where
  rep j := by
    rw [hp]
    by_cases hjk : j = k
    · subst hjk
      simp only [Function.update_same]
      exact ⟨rfl, _, hna, chainSeg_frame (hn j) (h.rep j)⟩
    · simp only [Function.update_noteq hjk]
      exact chainSeg_frame (hn j) (h.rep j)
  nodup j := by
    by_cases hjk : j = k
    · subst hjk; rw [Function.update_same]; exact List.nodup_cons.mpr ⟨ha j, h.nodup j⟩
    · rw [Function.update_noteq hjk]; exact h.nodup j
  disjoint j l b hj hl := by
    have key : ∀ m, b ∈ Function.update C k (a :: C k) m → b = a ∧ m = k ∨ b ∈ C m := by
      intro m hm
      by_cases hmk : m = k
      · subst hmk; rw [Function.update_same] at hm
        rcases List.mem_cons.mp hm with rfl | hm
        · exact Or.inl ⟨rfl, rfl⟩
        · exact Or.inr hm
      · rw [Function.update_noteq hmk] at hm; exact Or.inr hm
    rcases key j hj with ⟨rfl, rfl⟩ | hj' <;> rcases key l hl with ⟨hb, rfl⟩ | hl'
    · rfl
    · exact absurd hl' (ha l)
    · exact absurd (hb ▸ hj') (ha j)
    · exact h.disjoint j l b hj' hl'

/-- Unlinking one record from chain `k`, given the new shape of that chain. -/
theorem ChainsOk.erase {C : Nat → List Nat} {k a : Nat} (h : ChainsOk r C)
    (hnew : ChainSeg r' (r'.pidhash k) ((C k).erase a) none)
    (hp : ∀ j, j ≠ k → r'.pidhash j = r.pidhash j)
    (hn : ∀ j, j ≠ k → ∀ b ∈ C j, r'.hnext b = r.hnext b) :
    ChainsOk r' (Function.update C k ((C k).erase a)) where
  rep j := by
    by_cases hjk : j = k
    · subst hjk; rw [Function.update_same]; exact hnew
    · rw [Function.update_noteq hjk, hp j hjk]; exact chainSeg_frame (hn j hjk) (h.rep j)
  nodup j := by
    by_cases hjk : j = k
    · subst hjk; rw [Function.update_same]; exact (h.nodup j).erase a
    · rw [Function.update_noteq hjk]; exact h.nodup j
  disjoint j l b hj hl := by
    have key : ∀ m, b ∈ Function.update C k ((C k).erase a) m → b ∈ C m := by
      intro m hm
      by_cases hmk : m = k
      · subst hmk; rw [Function.update_same] at hm; exact List.mem_of_mem_erase hm
      · rwa [Function.update_noteq hmk] at hm
    exact h.disjoint j l b (key j hj) (key l hl)

end Registry

end Lmkd
