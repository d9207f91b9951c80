import Lmkd.Registry.Shape

/-!
# The registry invariant

`Wf r S` says that the pointer structures of `r` hold the lists of `S`: the score
buckets are well-formed circles and the `pidhash` chains `NULL`-terminated walks;
a record is on a chain exactly when it is allocated, on the chain of its pid hash,
and in a bucket exactly when it is allocated, in the bucket of its score; scores lie
in `[OOM_SCORE_ADJ_MIN, OOM_SCORE_ADJ_MAX]`; pids are positive and unique; and each
bucket lists its records newest first by the ghost time they entered it. Pids are positive
because `apply_proc_prio` registers a pid only after writing its
`/proc/<pid>/oom_score_adj`, which exists for processes only.

Each primitive of `Heap` keeps `Wf`, with the lists changed as the primitive says.
-/

namespace Lmkd

namespace Registry

/-- The lists the pointer structures hold: bucket `i` head first, chain `k` from its
table entry. -/
structure Shape where
  buckets : Nat → List Nat
  chains : Nat → List Nat

structure Wf (r : Registry) (S : Shape) : Prop where
  buckets : BucketsOk r S.buckets
  chains : ChainsOk r S.chains
  mem_bucket : ∀ i a, a ∈ S.buckets i ↔ ∃ p, r.procs a = some p ∧ slotOf p.oomadj = i
  mem_chain : ∀ k a, a ∈ S.chains k ↔ ∃ p, r.procs a = some p ∧ pidHashfn p.pid = k
  oomadj_range : ∀ a p, r.procs a = some p → oomScoreAdjMin ≤ p.oomadj ∧ p.oomadj ≤ oomScoreAdjMax
  pid_inj : ∀ a b p q, r.procs a = some p → r.procs b = some q → p.pid = q.pid → a = b
  pid_pos : ∀ a p, r.procs a = some p → 0 < p.pid
  fresh : ∀ a, r.brk ≤ a → r.procs a = none
  fifo : ∀ i, (S.buckets i).Pairwise fun a b => r.entered b < r.entered a
  entered_lt : ∀ a p, r.procs a = some p → r.entered a < r.clock

variable {r : Registry} {S : Shape}

theorem slotOf_lt {adj : Int} (h₁ : oomScoreAdjMin ≤ adj) (h₂ : adj ≤ oomScoreAdjMax) :
    slotOf adj < 2001 := by
  simp only [slotOf, adjtoslot_eq, oomScoreAdjMin, oomScoreAdjMax] at *
  omega

theorem slotOf_inj {a b : Int} (ha : oomScoreAdjMin ≤ a) (hb : oomScoreAdjMin ≤ b)
    (h : slotOf a = slotOf b) : a = b := by
  simp only [slotOf, adjtoslot_eq, oomScoreAdjMin] at *
  omega

theorem mem_update_cons {B : Nat → List Nat} {s a b i : Nat} :
    b ∈ Function.update B s (a :: B s) i ↔ (b = a ∧ i = s) ∨ b ∈ B i := by
  by_cases h : i = s
  · subst h; simp
  · simp [Function.update_noteq h, h]

theorem mem_update_erase {B : Nat → List Nat} {s a b i : Nat} (hnd : (B s).Nodup) :
    b ∈ Function.update B s ((B s).erase a) i ↔ b ∈ B i ∧ ¬(b = a ∧ i = s) := by
  by_cases h : i = s
  · subst h; simp [hnd.mem_erase_iff, and_comm]
  · simp [Function.update_noteq h, h]

theorem Wf.not_mem_bucket (h : Wf r S) {a : Nat} (ha : r.procs a = none) (i : Nat) :
    a ∉ S.buckets i := by
  rw [h.mem_bucket]; simp [ha]

theorem Wf.not_mem_chain (h : Wf r S) {a : Nat} (ha : r.procs a = none) (k : Nat) :
    a ∉ S.chains k := by
  rw [h.mem_chain]; simp [ha]

theorem Wf.mem_bucket_self (h : Wf r S) {a : Nat} {p : Proc} (hp : r.procs a = some p) :
    a ∈ S.buckets (slotOf p.oomadj) :=
  (h.mem_bucket _ a).mpr ⟨p, hp, rfl⟩

theorem Wf.mem_chain_self (h : Wf r S) {a : Nat} {p : Proc} (hp : r.procs a = some p) :
    a ∈ S.chains (pidHashfn p.pid) :=
  (h.mem_chain _ a).mpr ⟨p, hp, rfl⟩

/-- The empty registry of `init()`. -/
theorem wf_init : Wf init ⟨fun _ => [], fun _ => []⟩ where
  buckets := ⟨fun i _ => by simp [BucketRep, cyc, Linked, init], fun _ => List.nodup_nil,
    fun _ _ _ h => by simp at h⟩
  chains := ⟨fun _ => rfl, fun _ => List.nodup_nil, fun _ _ _ h => by simp at h⟩
  mem_bucket := by simp [init]
  mem_chain := by simp [init]
  oomadj_range := by simp [init]
  pid_inj := by simp [init]
  pid_pos := by simp [init]
  fresh := by simp [init]
  fifo := by simp
  entered_lt := by simp [init]

/-! ## Writes to members outside the lists' keys -/

/-- A write that keeps a record's pid, score and chain link keeps the invariant. -/
theorem Wf.modifyProc (h : Wf r S) {a : Nat} {f : Proc → Proc}
    (hf : ∀ p, (f p).pid = p.pid ∧ (f p).oomadj = p.oomadj ∧ (f p).pidhashNext = p.pidhashNext) :
    Wf (r.modifyProc a f) S := by
  have hproc : ∀ b q, (r.modifyProc a f).procs b = some q ↔
      ∃ p, r.procs b = some p ∧ q = if b = a then f p else p := by
    intro b q
    rw [modifyProc_procs]
    by_cases hb : b = a
    · subst hb; cases r.procs b <;> simp [eq_comm]
    · simp [hb, eq_comm]
  refine
    { buckets := h.buckets.congr rfl rfl
      chains := h.chains.congr rfl fun k b _ => ?_
      mem_bucket := fun i b => ?_
      mem_chain := fun k b => ?_
      oomadj_range := fun b q hq => ?_
      pid_inj := fun b c p q hp hq e => ?_
      pid_pos := fun b q hq => ?_
      fresh := fun b hb => by rw [modifyProc_procs]; simp [h.fresh b hb]
      fifo := h.fifo
      entered_lt := fun b q hq => ?_ }
  · simp only [hnext, modifyProc_procs]
    split <;> cases r.procs b <;> simp [(hf _).2.2]
  · rw [h.mem_bucket]
    simp only [hproc]
    constructor
    · rintro ⟨p, hp, hs⟩; exact ⟨_, ⟨p, hp, rfl⟩, by split <;> simp [(hf p).2.1, hs]⟩
    · rintro ⟨_, ⟨p, hp, rfl⟩, hs⟩; exact ⟨p, hp, by split at hs <;> simp_all [(hf p).2.1]⟩
  · rw [h.mem_chain]
    simp only [hproc]
    constructor
    · rintro ⟨p, hp, hs⟩; exact ⟨_, ⟨p, hp, rfl⟩, by split <;> simp [(hf p).1, hs]⟩
    · rintro ⟨_, ⟨p, hp, rfl⟩, hs⟩; exact ⟨p, hp, by split at hs <;> simp_all [(hf p).1]⟩
  · obtain ⟨p, hp, rfl⟩ := (hproc b q).mp hq
    have := h.oomadj_range b p hp
    split <;> simp_all [(hf p).2.1]
  · obtain ⟨p', hp', rfl⟩ := (hproc b _).mp hp
    obtain ⟨q', hq', rfl⟩ := (hproc c _).mp hq
    refine h.pid_inj b c p' q' hp' hq' ?_
    split at e <;> split at e <;> simp_all [(hf _).1]
  · obtain ⟨p, hp, rfl⟩ := (hproc b q).mp hq
    have := h.pid_pos b p hp
    split <;> simp_all [(hf p).1]
  · obtain ⟨p, hp, rfl⟩ := (hproc b q).mp hq
    exact h.entered_lt b p hp

theorem Wf.pidInvalidate (h : Wf r S) (pid : Int) : Wf (r.pidInvalidate pid) S := by
  unfold Registry.pidInvalidate
  split
  · exact h
  · exact h.modifyProc fun _ => ⟨rfl, rfl, rfl⟩

/-! ## `calloc` and `proc_insert` -/

section Insert

variable (p : Proc)

@[simp] theorem procInsert_alloc_procs (b : Nat) :
    ((r.alloc p).procInsert r.brk p.pid).procs b =
      if b = r.brk then some { p with pidhashNext := r.pidhash (pidHashfn p.pid) }
      else r.procs b := by
  by_cases hb : b = r.brk <;>
    simp [procInsert, alloc, procSlot, modifyProc, adjslotInsert, Function.update_apply, hb]

@[simp] theorem procInsert_alloc_pidhash :
    ((r.alloc p).procInsert r.brk p.pid).pidhash =
      Function.update r.pidhash (pidHashfn p.pid) (some r.brk) := rfl

theorem procInsert_alloc_links :
    ((r.alloc p).procInsert r.brk p.pid).next =
      (r.adjslotInsert (.slot (slotOf p.oomadj)) (.node r.brk)).next ∧
    ((r.alloc p).procInsert r.brk p.pid).prev =
      (r.adjslotInsert (.slot (slotOf p.oomadj)) (.node r.brk)).prev := by
  simp [procInsert, alloc, procSlot, modifyProc, adjslotInsert, oomadjOf]

@[simp] theorem procInsert_alloc_brk : ((r.alloc p).procInsert r.brk p.pid).brk = r.brk + 1 := rfl

@[simp] theorem procInsert_alloc_entered :
    ((r.alloc p).procInsert r.brk p.pid).entered = Function.update r.entered r.brk r.clock := rfl

@[simp] theorem procInsert_alloc_clock :
    ((r.alloc p).procInsert r.brk p.pid).clock = r.clock + 1 := rfl

end Insert

/-- A new record with a fresh positive pid and a valid score enters the head of its chain
and of its bucket. -/
theorem Wf.insert (h : Wf r S) {p : Proc} (hr₁ : oomScoreAdjMin ≤ p.oomadj)
    (hr₂ : p.oomadj ≤ oomScoreAdjMax) (hpid : ∀ b q, r.procs b = some q → q.pid ≠ p.pid)
    (hpos : 0 < p.pid) :
    Wf ((r.alloc p).procInsert r.brk p.pid)
      ⟨Function.update S.buckets (slotOf p.oomadj) (r.brk :: S.buckets (slotOf p.oomadj)),
       Function.update S.chains (pidHashfn p.pid) (r.brk :: S.chains (pidHashfn p.pid))⟩ := by
  have hfresh : r.procs r.brk = none := h.fresh r.brk le_rfl
  have hne : ∀ b q, r.procs b = some q → b ≠ r.brk := fun b q hb e => by simp_all
  refine
    { buckets := ?_
      chains := h.chains.push (h.not_mem_chain hfresh) (by simp) (by simp [hnext])
        fun j b hb => ?_
      mem_bucket := fun i b => ?_
      mem_chain := fun k b => ?_
      oomadj_range := fun b q hq => ?_
      pid_inj := fun b c q q' hb hc e => ?_
      pid_pos := fun b q hq => ?_
      fresh := fun b hb => ?_
      fifo := fun i => ?_
      entered_lt := fun b q hq => ?_ }
  · have hl := procInsert_alloc_links (r := r) p
    exact (h.buckets.insert (slotOf_lt hr₁ hr₂) (h.not_mem_bucket hfresh)).congr hl.1 hl.2
  · obtain ⟨q, hq⟩ := chainSeg_allocated (h.chains.rep j) b hb
    simp [hnext, hne b q hq]
  · rw [mem_update_cons, h.mem_bucket, procInsert_alloc_procs]
    by_cases hb : b = r.brk
    · subst hb; simp [hfresh, eq_comm]
    · simp [hb]
  · rw [mem_update_cons, h.mem_chain, procInsert_alloc_procs]
    by_cases hb : b = r.brk
    · subst hb; simp [hfresh, eq_comm]
    · simp [hb]
  · rw [procInsert_alloc_procs] at hq
    split at hq
    · cases hq; exact ⟨hr₁, hr₂⟩
    · exact h.oomadj_range b q hq
  · simp only [procInsert_alloc_procs] at hb hc
    split at hb <;> split at hc
    · simp_all
    · cases hb; exact absurd e.symm (hpid c q' hc)
    · cases hc; exact absurd e (hpid b q hb)
    · exact h.pid_inj b c q q' hb hc e
  · rw [procInsert_alloc_procs] at hq
    split at hq
    · cases hq; exact hpos
    · exact h.pid_pos b q hq
  · rw [procInsert_alloc_procs, if_neg (by simp at hb; omega)]
    exact h.fresh b (by simp at hb; omega)
  · have hold : ∀ b ∈ S.buckets i, b ≠ r.brk := fun b hb =>
      fun e => h.not_mem_bucket hfresh i (e ▸ hb)
    have hpair : (S.buckets i).Pairwise fun b c =>
        ((r.alloc p).procInsert r.brk p.pid).entered c <
          ((r.alloc p).procInsert r.brk p.pid).entered b :=
      (h.fifo i).imp_of_mem fun {b c} hb hc hbc => by
        simpa [procInsert_alloc_entered, Function.update_noteq (hold b hb),
          Function.update_noteq (hold c hc)] using hbc
    dsimp only
    by_cases hi : i = slotOf p.oomadj
    · subst hi
      rw [Function.update_same]
      refine List.Pairwise.cons (fun b hb => ?_) hpair
      obtain ⟨q, hq, -⟩ := (h.mem_bucket _ b).mp hb
      simpa [Function.update_noteq (hold b hb)] using h.entered_lt b q hq
    · rw [Function.update_noteq hi]; exact hpair
  · rw [procInsert_alloc_procs] at hq
    simp only [procInsert_alloc_entered, procInsert_alloc_clock, Function.update_apply]
    split at hq
    · simp_all
    · simp only [if_neg (hne b q hq)]; have := h.entered_lt b q hq; omega

/-! ## A score change: `proc_unslot`, the store, `proc_slot` -/

section Rescore

variable (a : Nat) (adj : Int)

/-- The registry after `register_oom_adj_proc` moves the record at `a` to score `adj`. -/
abbrev rescored (r : Registry) : Registry :=
  ((r.procUnslot a).modifyProc a fun q => { q with oomadj := adj }).procSlot a

@[simp] theorem rescored_procs (b : Nat) :
    (rescored a adj r).procs b =
      if b = a then (r.procs a).map fun q => { q with oomadj := adj } else r.procs b := by
  by_cases hb : b = a <;>
    simp [procSlot, procUnslot, modifyProc, adjslotInsert, adjslotRemove, Function.update_apply, hb]

theorem rescored_links (h : (r.procs a).isSome) :
    (rescored a adj r).next =
      ((r.adjslotRemove (.node a)).adjslotInsert (.slot (slotOf adj)) (.node a)).next ∧
    (rescored a adj r).prev =
      ((r.adjslotRemove (.node a)).adjslotInsert (.slot (slotOf adj)) (.node a)).prev := by
  obtain ⟨q, hq⟩ := Option.isSome_iff_exists.mp h
  simp [procSlot, procUnslot, modifyProc, adjslotInsert, adjslotRemove, oomadjOf, hq]

@[simp] theorem rescored_pidhash : (rescored a adj r).pidhash = r.pidhash := rfl
@[simp] theorem rescored_brk : (rescored a adj r).brk = r.brk := rfl
@[simp] theorem rescored_entered :
    (rescored a adj r).entered = Function.update r.entered a r.clock := rfl
@[simp] theorem rescored_clock : (rescored a adj r).clock = r.clock + 1 := rfl

end Rescore

/-- A score change takes the record out of its bucket and puts it at the head of the
bucket of the new score. -/
theorem Wf.rescore (h : Wf r S) {a : Nat} {p : Proc} {adj : Int} (hp : r.procs a = some p)
    (hr₁ : oomScoreAdjMin ≤ adj) (hr₂ : adj ≤ oomScoreAdjMax) :
    Wf (rescored a adj r)
      ⟨Function.update (Function.update S.buckets (slotOf p.oomadj)
          ((S.buckets (slotOf p.oomadj)).erase a)) (slotOf adj)
        (a :: Function.update S.buckets (slotOf p.oomadj)
          ((S.buckets (slotOf p.oomadj)).erase a) (slotOf adj)), S.chains⟩ := by
  set s := slotOf p.oomadj
  set B₁ := Function.update S.buckets s ((S.buckets s).erase a)
  have hmem := h.mem_bucket_self hp
  have hrange := h.oomadj_range a p hp
  have hB₁ : ∀ j, a ∉ B₁ j := by
    intro j hj
    rw [mem_update_erase (h.buckets.nodup s)] at hj
    exact hj.2 ⟨rfl, h.buckets.disjoint j s a hj.1 hmem⟩
  have hmem₁ : ∀ b i, b ≠ a → (b ∈ B₁ i ↔ b ∈ S.buckets i) := fun b i hb => by
    rw [mem_update_erase (h.buckets.nodup s)]; simp [hb]
  have hne : ∀ b q, r.procs b = some q → b ≠ a → (rescored a adj r).procs b = some q :=
    fun b q hq hb => by simp [hb, hq]
  refine
    { buckets := ?_
      chains := h.chains.congr rfl fun k b _ => ?_
      mem_bucket := fun i b => ?_
      mem_chain := fun k b => ?_
      oomadj_range := fun b q hq => ?_
      pid_inj := fun b c q q' hb hc e => ?_
      pid_pos := fun b q hq => ?_
      fresh := fun b hb => ?_
      fifo := fun i => ?_
      entered_lt := fun b q hq => ?_ }
  · have hl := rescored_links a adj (r := r) (by simp [hp])
    exact ((h.buckets.remove (slotOf_lt hrange.1 hrange.2) hmem).insert (slotOf_lt hr₁ hr₂)
      hB₁).congr hl.1 hl.2
  · simp only [hnext, rescored_procs]
    split <;> simp_all
  · rw [mem_update_cons, rescored_procs]
    by_cases hb : b = a
    · subst hb
      simp [hp, hB₁ i, eq_comm]
    · rw [hmem₁ b i hb, h.mem_bucket]; simp [hb]
  · rw [h.mem_chain, rescored_procs]
    by_cases hb : b = a
    · subst hb; simp [hp]
    · simp [hb]
  · rw [rescored_procs] at hq
    split at hq
    · subst_vars; simp only [hp, Option.map_some', Option.some.injEq] at hq; subst hq
      exact ⟨hr₁, hr₂⟩
    · exact h.oomadj_range b q hq
  · simp only [rescored_procs] at hb hc
    have key : ∀ c q, (if c = a then (r.procs a).map fun q => { q with oomadj := adj }
        else r.procs c) = some q → ∃ q₀, r.procs c = some q₀ ∧ q.pid = q₀.pid := by
      intro c q hc
      split at hc
      · subst_vars; simp only [hp, Option.map_some', Option.some.injEq] at hc
        exact ⟨p, hp, by rw [← hc]⟩
      · exact ⟨q, hc, rfl⟩
    obtain ⟨q₀, hq₀, e₀⟩ := key b q hb
    obtain ⟨q₁, hq₁, e₁⟩ := key c q' hc
    exact h.pid_inj b c q₀ q₁ hq₀ hq₁ (by rw [← e₀, ← e₁, e])
  · rw [rescored_procs] at hq
    split at hq
    · subst_vars; simp only [hp, Option.map_some', Option.some.injEq] at hq; subst hq
      exact h.pid_pos _ p hp
    · exact h.pid_pos b q hq
  · have hb' : r.brk ≤ b := hb
    have hba : b ≠ a := fun e => by subst e; simp [h.fresh _ hb'] at hp
    rw [rescored_procs, if_neg hba]; exact h.fresh b hb'
  · dsimp only
    have hpair : ∀ j, (B₁ j).Pairwise fun b c =>
        (rescored a adj r).entered c < (rescored a adj r).entered b := fun j =>
      ((h.fifo j).sublist (by
        simp only [B₁]
        by_cases hj : j = s
        · subst hj; rw [Function.update_same]; exact List.erase_sublist _ _
        · rw [Function.update_noteq hj])).imp_of_mem fun {b c} hb hc hbc => by
          have hb' : b ≠ a := fun e => hB₁ j (e ▸ hb)
          have hc' : c ≠ a := fun e => hB₁ j (e ▸ hc)
          simpa [Function.update_noteq hb', Function.update_noteq hc'] using hbc
    by_cases hi : i = slotOf adj
    · subst hi
      rw [Function.update_same]
      refine List.Pairwise.cons (fun b hb => ?_) (hpair _)
      have hb' : b ≠ a := fun e => hB₁ _ (e ▸ hb)
      obtain ⟨q, hq, -⟩ := (h.mem_bucket _ b).mp ((hmem₁ b _ hb').mp hb)
      simpa [Function.update_noteq hb'] using h.entered_lt b q hq
    · rw [Function.update_noteq hi]; exact hpair i
  · rw [rescored_procs] at hq
    simp only [rescored_entered, rescored_clock, Function.update_apply]
    split at hq
    · simp_all
    · rw [if_neg (by assumption)]; have := h.entered_lt b q hq; omega

/-! ## Lookup and removal -/

theorem Wf.chain_length_le (h : Wf r S) (k : Nat) : (S.chains k).length ≤ r.brk := by
  have hsub : S.chains k ⊆ List.range r.brk := fun a ha => by
    obtain ⟨p, hp, -⟩ := (h.mem_chain k a).mp ha
    rw [List.mem_range]
    by_contra hc
    rw [h.fresh a (by omega)] at hp; cases hp
  simpa using (List.subperm_of_subset (h.chains.nodup k) hsub).length_le

/-- With the invariant, the walk of `pid`'s chain finds its record if there is one. -/
theorem Wf.chainFind_complete (h : Wf r S) {pid : Int} {a : Nat} {p : Proc}
    (hp : r.procs a = some p) (hpid : p.pid = pid) :
    ∃ b q, (r.chainFind pid r.brk none (r.pidhash (pidHashfn pid))).2 = some b ∧
      r.procs b = some q ∧ q.pid = pid := by
  cases hcf : (r.chainFind pid r.brk none (r.pidhash (pidHashfn pid))).2 with
  | none =>
    exact absurd hpid (chainFind_none (h.chains.rep _) (h.chain_length_le _) hcf a
      (hpid ▸ h.mem_chain_self hp) p hp)
  | some b =>
    obtain ⟨C₁, C₂, -, -, ⟨q, hq, hqpid⟩, -⟩ :=
      chainFind_some (h.chains.rep _) (Prod.ext_iff.mpr ⟨rfl, hcf⟩)
    exact ⟨b, q, rfl, hq, hqpid⟩

/-- `pid_lookup` finds exactly the record with the pid. -/
theorem Wf.pidLookup_eq_some (h : Wf r S) {pid : Int} {a : Nat} :
    r.pidLookup pid = some a ↔ ∃ p, r.procs a = some p ∧ p.pid = pid := by
  constructor
  · intro he
    obtain ⟨C₁, C₂, -, -, hpid, -⟩ :=
      chainFind_some (h.chains.rep _) (Prod.ext_iff.mpr ⟨rfl, he⟩)
    exact hpid
  · rintro ⟨p, hp, hpid⟩
    obtain ⟨b, q, hb, hq, hqpid⟩ := h.chainFind_complete hp hpid
    rw [pidLookup, hb, h.pid_inj b a q p hq hp (hqpid.trans hpid.symm)]

theorem Wf.pidLookup_eq_none (h : Wf r S) {pid : Int} :
    r.pidLookup pid = none ↔ ∀ a p, r.procs a = some p → p.pid ≠ pid := by
  constructor
  · intro he a p hp hpid
    have := (h.pidLookup_eq_some (a := a)).mpr ⟨p, hp, hpid⟩
    rw [he] at this; cases this
  · intro hno
    cases he : r.pidLookup pid with
    | none => rfl
    | some a =>
      obtain ⟨p, hp, hpid⟩ := h.pidLookup_eq_some.mp he
      exact absurd hpid (hno a p hp)

/-- A property of a record's body holds of record `c` in `r` iff it holds in `r'`, when the
records of `r'` are those of `r` but `a`, up to their chain links. -/
theorem exists_body_iff {r r' : Registry} {a c : Nat} (P : Proc → Prop)
    (hP : ∀ q, P q.body ↔ P q)
    (hsome : ∀ c q, r'.procs c = some q → ∃ q₀, r.procs c = some q₀ ∧ q.body = q₀.body)
    (hsome' : ∀ c q₀, r.procs c = some q₀ → c ≠ a → ∃ q, r'.procs c = some q ∧ q.body = q₀.body)
    (hc : c ≠ a) : (∃ q, r.procs c = some q ∧ P q) ↔ ∃ q, r'.procs c = some q ∧ P q := by
  constructor
  · rintro ⟨q₀, hq₀, hs⟩
    obtain ⟨q, hq, hb⟩ := hsome' c q₀ hq₀ hc
    exact ⟨q, hq, (hP q).mp (hb ▸ (hP q₀).mpr hs)⟩
  · rintro ⟨q, hq, hs⟩
    obtain ⟨q₀, hq₀, hb⟩ := hsome c q hq
    exact ⟨q₀, hq₀, (hP q₀).mp (hb ▸ (hP q).mpr hs)⟩

/-- Unlinking and freeing the record at `a`, given what the two cases of `pid_remove`
leave behind. -/
theorem Wf.unlink (h : Wf r S) {r' : Registry} {a : Nat} {p : Proc} (hp : r.procs a = some p)
    (hlinks : r'.next = (r.adjslotRemove (.node a)).next ∧
      r'.prev = (r.adjslotRemove (.node a)).prev)
    (hbrk : r'.brk = r.brk) (hent : r'.entered = r.entered) (hclk : r'.clock = r.clock)
    (hnone : r'.procs a = none)
    (hsome : ∀ c q, r'.procs c = some q → ∃ q₀, r.procs c = some q₀ ∧ q.body = q₀.body)
    (hsome' : ∀ c q₀, r.procs c = some q₀ → c ≠ a → ∃ q, r'.procs c = some q ∧ q.body = q₀.body)
    (hchain : ChainSeg r' (r'.pidhash (pidHashfn p.pid))
      ((S.chains (pidHashfn p.pid)).erase a) none)
    (hpidhash : ∀ j, j ≠ pidHashfn p.pid → r'.pidhash j = r.pidhash j)
    (hhnext : ∀ j, j ≠ pidHashfn p.pid → ∀ c ∈ S.chains j, r'.hnext c = r.hnext c) :
    Wf r' ⟨Function.update S.buckets (slotOf p.oomadj) ((S.buckets (slotOf p.oomadj)).erase a),
      Function.update S.chains (pidHashfn p.pid) ((S.chains (pidHashfn p.pid)).erase a)⟩ := by
  have hrange := h.oomadj_range a p hp
  have hne : ∀ c q, r'.procs c = some q → c ≠ a := fun c q hq e => by simp_all
  have hsub : ∀ i, (Function.update S.buckets (slotOf p.oomadj)
      ((S.buckets (slotOf p.oomadj)).erase a) i).Sublist (S.buckets i) := fun i => by
    by_cases hi : i = slotOf p.oomadj
    · subst hi; rw [Function.update_same]; exact List.erase_sublist _ _
    · rw [Function.update_noteq hi]
  refine
    { buckets := (h.buckets.remove (slotOf_lt hrange.1 hrange.2) (h.mem_bucket_self hp)).congr
        hlinks.1 hlinks.2
      chains := h.chains.erase hchain hpidhash hhnext
      mem_bucket := fun i c => ?_
      mem_chain := fun k c => ?_
      oomadj_range := fun c q hq => ?_
      pid_inj := fun b c q q' hb hc e => ?_
      pid_pos := fun c q hq => ?_
      fresh := fun c hc => ?_
      fifo := fun i => ?_
      entered_lt := fun c q hq => ?_ }
  · rw [mem_update_erase (h.buckets.nodup _), h.mem_bucket]
    by_cases hc : c = a
    · subst hc; simp [hnone, hp, eq_comm]
    · simp only [hc, false_and, not_false_eq_true, and_true]
      exact exists_body_iff (fun q => slotOf q.oomadj = i) (fun _ => Iff.rfl) hsome hsome' hc
  · rw [mem_update_erase (h.chains.nodup _), h.mem_chain]
    by_cases hc : c = a
    · subst hc; simp [hnone, hp, eq_comm]
    · simp only [hc, false_and, not_false_eq_true, and_true]
      exact exists_body_iff (fun q => pidHashfn q.pid = k) (fun _ => Iff.rfl) hsome hsome' hc
  · obtain ⟨q₀, hq₀, hb⟩ := hsome c q hq
    rw [← Proc.body_oomadj, hb, Proc.body_oomadj]
    exact h.oomadj_range c q₀ hq₀
  · obtain ⟨q₀, hq₀, hb₀⟩ := hsome b q hb
    obtain ⟨q₁, hq₁, hb₁⟩ := hsome c q' hc
    refine h.pid_inj b c q₀ q₁ hq₀ hq₁ ?_
    rw [← Proc.body_pid, ← hb₀, Proc.body_pid, e, ← Proc.body_pid, hb₁, Proc.body_pid]
  · obtain ⟨q₀, hq₀, hb⟩ := hsome c q hq
    rw [← Proc.body_pid, hb, Proc.body_pid]
    exact h.pid_pos c q₀ hq₀
  · cases hq : r'.procs c with
    | none => rfl
    | some q =>
      obtain ⟨q₀, hq₀, -⟩ := hsome c q hq
      rw [h.fresh c (hbrk ▸ hc)] at hq₀; cases hq₀
  · rw [hent]; exact (h.fifo i).sublist (hsub i)
  · obtain ⟨q₀, hq₀, -⟩ := hsome c q hq
    rw [hent, hclk]; exact h.entered_lt c q₀ hq₀

/-- `pid_remove` unlinks and frees the record with the pid; every other record keeps
its members, up to its chain link. -/
theorem Wf.pidRemove_some (h : Wf r S) {pid : Int} {r' : Registry} {p : Proc}
    (he : r.pidRemove pid = some (r', p)) :
    ∃ a, r.procs a = some p ∧ p.pid = pid ∧ r'.procs a = none ∧
      (∀ c, c ≠ a → (r'.procs c).map Proc.body = (r.procs c).map Proc.body) ∧
      r'.brk = r.brk ∧ r'.entered = r.entered ∧ r'.clock = r.clock ∧
      Wf r' ⟨Function.update S.buckets (slotOf p.oomadj) ((S.buckets (slotOf p.oomadj)).erase a),
        Function.update S.chains (pidHashfn p.pid) ((S.chains (pidHashfn p.pid)).erase a)⟩ := by
  dsimp only [pidRemove] at he
  rcases hcf : r.chainFind pid r.brk none (r.pidhash (pidHashfn pid)) with ⟨prevp, _ | a⟩ <;>
    rw [hcf] at he
  · cases he
  obtain ⟨C₁, C₂, hC, hprev, ⟨p₀, hp₀, hpid⟩, -⟩ := chainFind_some (h.chains.rep _) hcf
  rw [Option.or_none] at hprev
  simp only [hp₀, Option.some.injEq, Prod.mk.injEq] at he
  obtain ⟨hr', rfl⟩ := he
  subst hpid
  set k := pidHashfn p₀.pid
  -- `a` is on the chain of `k` once, after the records `C₁`, the last of which is `prevp`
  have hnd : (C₁ ++ a :: C₂).Nodup := hC ▸ h.chains.nodup k
  have haC₁ : a ∉ C₁ := fun h' => (List.nodup_append.mp hnd).2.2 h' (List.mem_cons_self a C₂)
  have haC₂ : a ∉ C₂ := (List.nodup_cons.mp (List.nodup_append.mp hnd).2.1).1
  have hprevC : ∀ b, prevp = some b → b ∈ C₁ := fun b hb =>
    List.mem_of_mem_getLast? (hprev ▸ hb)
  have herase : (S.chains k).erase a = C₁ ++ C₂ := by
    rw [hC, List.erase_append_right _ haC₁, List.erase_cons_head]
  have hold := h.chains.rep k
  rw [hC, chainSeg_append] at hold
  obtain ⟨m, hC₁, rfl, n, hn, hC₂⟩ := hold
  have hn' : n = p₀.pidhashNext := by simp [hnext, hp₀] at hn; exact hn.symm
  subst hn'
  -- what the two branches of `pid_remove` leave behind
  have hlinks : r'.next = (r.adjslotRemove (.node a)).next ∧
      r'.prev = (r.adjslotRemove (.node a)).prev := by
    rw [← hr']; split <;> exact ⟨rfl, rfl⟩
  have hkeep : r'.brk = r.brk ∧ r'.entered = r.entered ∧ r'.clock = r.clock := by
    rw [← hr']; split <;> exact ⟨rfl, rfl, rfl⟩
  have hpidhash : r'.pidhash =
      if prevp = none then Function.update r.pidhash k p₀.pidhashNext else r.pidhash := by
    rw [← hr']; cases prevp <;> rfl
  have hprocs : ∀ c, r'.procs c = if c = a then none else if some c = prevp then
      (r.procs c).map fun q => { q with pidhashNext := p₀.pidhashNext } else r.procs c :=
    fun c => by
      rw [← hr']
      by_cases hc : c = a
      · subst hc; cases prevp <;> simp
      · cases prevp <;> simp only [procUnslot, adjslotRemove_procs, Function.update_noteq hc,
          modifyProc_procs, if_neg hc, Option.some.injEq, reduceCtorEq, if_false]
  have hsome : ∀ c q, r'.procs c = some q → ∃ q₀, r.procs c = some q₀ ∧ q.body = q₀.body :=
    fun c q hq => by
      rw [hprocs] at hq
      split at hq
      · cases hq
      split at hq
      · obtain ⟨q₀, hq₀, rfl⟩ := Option.map_eq_some'.mp hq
        exact ⟨q₀, hq₀, rfl⟩
      · exact ⟨q, hq, rfl⟩
  have hsome' : ∀ c q₀, r.procs c = some q₀ → c ≠ a →
      ∃ q, r'.procs c = some q ∧ q.body = q₀.body := fun c q₀ hq₀ hc => by
    rw [hprocs, if_neg hc]
    split
    · exact ⟨{ q₀ with pidhashNext := p₀.pidhashNext }, by simp [hq₀], rfl⟩
    · exact ⟨q₀, hq₀, rfl⟩
  -- the chain of `k` without `a`
  have hchain : ChainSeg r' (r'.pidhash k) (C₁ ++ C₂) none := by
    have hC₂' : ChainSeg r' p₀.pidhashNext C₂ none := chainSeg_frame (fun c hc => by
      have h₁ : c ≠ a := fun e => haC₂ (e ▸ hc)
      have h₂ : some c ≠ prevp := fun e =>
        (List.nodup_append.mp hnd).2.2 (hprevC c e.symm) (List.mem_cons_of_mem a hc)
      simp [hnext, hprocs, h₁, h₂]) hC₂
    rcases List.eq_nil_or_concat C₁ with rfl | ⟨C₁', b, rfl⟩
    · -- `a` heads its chain: the head moves to its successor
      rw [List.getLast?_nil] at hprev
      rwa [List.nil_append, hpidhash, if_pos hprev, Function.update_same]
    · -- `a` follows `b`: the link of `b` moves to the successor of `a`
      rw [List.concat_eq_append] at hnd hC₁ haC₁ hprev ⊢
      rw [List.getLast?_concat] at hprev
      have hba : b ≠ a := fun e => haC₁ (e ▸ List.mem_append_right _ (List.mem_singleton_self b))
      have hbC : b ∉ C₁' := fun h' =>
        (List.nodup_append.mp (List.nodup_append.mp hnd).1).2.2 h' (List.mem_singleton_self b)
      rw [hpidhash, if_neg (by simp [hprev]), chainSeg_append]
      rw [chainSeg_concat] at hC₁
      refine ⟨p₀.pidhashNext, chainSeg_concat.mpr ⟨chainSeg_frame (fun c hc => ?_) hC₁.1, ?_⟩,
        hC₂'⟩
      · have h₁ : c ≠ a := fun e => haC₁ (e ▸ List.mem_append_left _ hc)
        have h₂ : c ≠ b := fun e => hbC (e ▸ hc)
        simp [hnext, hprocs, h₁, h₂, hprev]
      · obtain ⟨q, hq, -⟩ := Option.map_eq_some'.mp hC₁.2
        simp [hnext, hprocs, hba, hq, hprev]
  refine ⟨a, hp₀, rfl, by simp [hprocs], fun c hc => ?_, hkeep.1, hkeep.2.1, hkeep.2.2,
    h.unlink hp₀ hlinks hkeep.1 hkeep.2.1 hkeep.2.2 (by simp [hprocs]) hsome hsome'
      (by rw [herase]; exact hchain) (fun j hj => ?_) (fun j hj c hc => ?_)⟩
  · rw [hprocs, if_neg hc]
    split
    · cases r.procs c <;> rfl
    · rfl
  · rw [hpidhash]
    split
    · exact Function.update_noteq hj _ _
    · rfl
  · have h₁ : c ≠ a := fun e => hj (h.chains.disjoint j k c hc
      (e ▸ hC ▸ List.mem_append_right _ (List.mem_cons_self a C₂)))
    have h₂ : some c ≠ prevp := fun e =>
      hj (h.chains.disjoint j k c hc (hC ▸ List.mem_append_left _ (hprevC c e.symm)))
    simp [hnext, hprocs, h₁, h₂]

theorem Wf.pidRemove_eq_none (h : Wf r S) {pid : Int} :
    r.pidRemove pid = none ↔ ∀ a p, r.procs a = some p → p.pid ≠ pid := by
  constructor
  · intro he a p hp hpid
    obtain ⟨b, q, hb, hq, -⟩ := h.chainFind_complete hp hpid
    dsimp only [pidRemove] at he
    rcases hcf : r.chainFind pid r.brk none (r.pidhash (pidHashfn pid)) with ⟨prevp, fa⟩
    rw [hcf] at he hb
    simp only at hb; subst hb
    simp [hq] at he
  · intro hno
    cases he : r.pidRemove pid with
    | none => rfl
    | some res =>
      obtain ⟨a, hp, hpid, -⟩ := h.pidRemove_some he
      exact absurd hpid (hno a _ hp)

/-! ## Reading the buckets -/

theorem Wf.bucket_length_le (h : Wf r S) (i : Nat) : (S.buckets i).length ≤ r.brk := by
  have hsub : S.buckets i ⊆ List.range r.brk := fun a ha => by
    obtain ⟨p, hp, -⟩ := (h.mem_bucket i a).mp ha
    rw [List.mem_range]
    by_contra hc
    rw [h.fresh a (by omega)] at hp; cases hp
  simpa using (List.subperm_of_subset (h.buckets.nodup i) hsub).length_le

/-- `adjslot_tail` of bucket `i` is its oldest record. -/
theorem Wf.adjslotTail (h : Wf r S) {i : Nat} (hi : i < 2001) :
    r.adjslotTail (.slot i) = (S.buckets i).getLast?.map .node := by
  rw [Registry.adjslotTail, (h.buckets.rep i hi).prev_slot]
  cases (S.buckets i).getLast? <;> simp

/-- A record of the bucket of `adj` has score `adj`. -/
theorem Wf.oomadj_of_mem (h : Wf r S) {adj : Int} (hadj : oomScoreAdjMin ≤ adj) {a : Nat}
    (ha : a ∈ S.buckets (slotOf adj)) : ∃ p, r.procs a = some p ∧ p.oomadj = adj := by
  obtain ⟨p, hp, hs⟩ := (h.mem_bucket _ a).mp ha
  exact ⟨p, hp, slotOf_inj (h.oomadj_range a p hp).1 hadj hs⟩

/-- `pid_remove` of the pid of a record removes that record. -/
theorem Wf.pidRemove_of_procs (h : Wf r S) {a : Nat} {p : Proc} (hp : r.procs a = some p) :
    ∃ r', r.pidRemove p.pid = some (r', p) ∧ r'.procs a = none ∧
      (∀ c, c ≠ a → (r'.procs c).map Proc.body = (r.procs c).map Proc.body) ∧
      r'.brk = r.brk ∧
      Wf r' ⟨Function.update S.buckets (slotOf p.oomadj) ((S.buckets (slotOf p.oomadj)).erase a),
        Function.update S.chains (pidHashfn p.pid) ((S.chains (pidHashfn p.pid)).erase a)⟩ := by
  cases he : r.pidRemove p.pid with
  | none => exact absurd rfl ((h.pidRemove_eq_none.mp he) a p hp)
  | some res =>
    obtain ⟨r', p'⟩ := res
    obtain ⟨a', hp', hpid, hr'a, hbody, hbrk, -, -, hwf⟩ := h.pidRemove_some he
    obtain rfl := h.pid_inj a' a p' p hp' hp hpid
    rw [hp] at hp'
    cases hp'
    exact ⟨r', rfl, hr'a, hbody, hbrk, hwf⟩

/-! ## The invariant for some lists -/

/-- The registry satisfies the invariant, for the lists its pointers hold. -/
def Valid (r : Registry) : Prop := ∃ S, Wf r S

theorem Wf.valid (h : Wf r S) : Valid r := ⟨S, h⟩

theorem valid_init : Valid init := wf_init.valid

/-- `pid_remove` keeps the invariant, whether it finds the pid or not. -/
theorem Valid.pidRemove (h : Valid r) (pid : Int) :
    Valid (((r.pidRemove pid).map Prod.fst).getD r) := by
  obtain ⟨S, hS⟩ := h
  cases he : r.pidRemove pid with
  | none => exact ⟨S, hS⟩
  | some res =>
    obtain ⟨r', p⟩ := res
    obtain ⟨a, -, -, -, -, -, -, -, hwf⟩ := hS.pidRemove_some he
    exact ⟨_, hwf⟩

end Registry

end Lmkd
