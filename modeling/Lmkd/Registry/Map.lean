import Lmkd.Registry.Invariant

/-!
# The registry as a map from pids to records

The pidhash chains and the score buckets implement one map, from a pid to the record
registered with it. `Registry.find` reads it through `pid_lookup`, the walk of the pid's
chain, and `Wf.find_eq_some` says what it finds in terms of the records alone. Over the
invariant, `proc_insert` of a fresh pid adds exactly that entry, `pid_remove` takes exactly
one entry out, and a store into one record that keeps its pid (a score change, a new
registrant) changes that pid's entry alone; every other pid finds what it found before.
-/

namespace Lmkd

namespace Registry

variable {r : Registry} {S : Shape}

/-- The record `pid_lookup` finds for `pid`, without its chain link. -/
def find (r : Registry) (pid : Int) : Option Proc :=
  (r.pidLookup pid).bind fun a => (r.procs a).map Proc.body

/-- The walk of a chain finds the body of the one record with the pid. -/
theorem Wf.find_eq_some (h : Wf r S) {pid : Int} {q : Proc} :
    r.find pid = some q ↔ q.pid = pid ∧ ∃ a, (r.procs a).map Proc.body = some q := by
  unfold find
  cases hl : r.pidLookup pid with
  | none =>
    refine ⟨(fun e => by cases e), fun ⟨hq, a, ha⟩ => ?_⟩
    obtain ⟨p, hp, rfl⟩ := Option.map_eq_some'.mp ha
    exact absurd hq (h.pidLookup_eq_none.mp hl a p hp)
  | some a =>
    obtain ⟨p, hp, hpid⟩ := h.pidLookup_eq_some.mp hl
    simp only [Option.some_bind]
    refine ⟨fun e => ⟨?_, a, e⟩, fun ⟨hq, b, hb⟩ => ?_⟩
    · obtain ⟨p', hp', rfl⟩ := Option.map_eq_some'.mp e
      rw [hp] at hp'
      cases hp'
      exact hpid
    · obtain ⟨p', hp', rfl⟩ := Option.map_eq_some'.mp hb
      obtain rfl := h.pid_inj a b p p' hp hp' (hpid.trans hq.symm)
      rw [hp] at hp' ⊢
      cases hp'
      rfl

/-- Two registries with the invariant that hold the same bodies with a pid find the same
record for it. -/
theorem find_congr {r' : Registry} {S' : Shape} (h : Wf r S) (h' : Wf r' S') {pid : Int}
    (e : ∀ q, q.pid = pid →
      ((∃ a, (r'.procs a).map Proc.body = some q) ↔ ∃ a, (r.procs a).map Proc.body = some q)) :
    r'.find pid = r.find pid :=
  Option.ext fun q => by
    change r'.find pid = some q ↔ r.find pid = some q
    rw [h'.find_eq_some, h.find_eq_some]
    exact ⟨fun ⟨hq, ha⟩ => ⟨hq, (e q hq).mp ha⟩, fun ⟨hq, ha⟩ => ⟨hq, (e q hq).mpr ha⟩⟩

/-- A change of the record at `a` alone, to the body `o` of pid `x`, where no other record has
pid `x`, changes the map at `x` alone. -/
theorem Wf.find_of_procs {r' : Registry} {S' : Shape} (h : Wf r S) (h' : Wf r' S') {a : Nat}
    {x : Int} {o : Option Proc} (ho : ∀ q ∈ o, q.pid = x)
    (hat : ∀ q, r.procs a = some q → q.pid = x) (hx : ∀ b q, r.procs b = some q → q.pid = x → b = a)
    (hprocs : ∀ b, (r'.procs b).map Proc.body = if b = a then o else (r.procs b).map Proc.body) :
    r'.find = Function.update r.find x o := by
  funext y
  rw [Function.update_apply]
  split
  · next hy =>
    subst hy
    cases hoq : o with
    | some q => exact h'.find_eq_some.mpr ⟨ho q hoq, a, by rw [hprocs, if_pos rfl, hoq]⟩
    | none =>
      cases hf : r'.find y with
      | none => rfl
      | some q =>
        obtain ⟨hq, b, hb⟩ := h'.find_eq_some.mp hf
        rw [hprocs] at hb
        split at hb
        · rw [hoq] at hb; cases hb
        · obtain ⟨p, hp, rfl⟩ := Option.map_eq_some'.mp hb
          exact absurd (hx b p hp (by rwa [Proc.body_pid] at hq)) ‹_›
  · next hy =>
    refine find_congr h h' fun q hq => ⟨fun ⟨b, hb⟩ => ⟨b, ?_⟩, fun ⟨b, hb⟩ => ⟨b, ?_⟩⟩
    · rw [hprocs] at hb
      split at hb
      · exact absurd (hq.symm.trans (ho q hb)) hy
      · exact hb
    · rw [hprocs]
      split
      · next hb' =>
        obtain ⟨p, hp, rfl⟩ := Option.map_eq_some'.mp hb
        exact absurd (hq.symm.trans ((Proc.body_pid p).trans (hat p (hb' ▸ hp)))) hy
      · exact hb

/-- A change of the record at `a` alone, keeping its pid, changes the map at that pid alone. -/
theorem Wf.find_change_at {r' : Registry} {S' : Shape} (h : Wf r S) (h' : Wf r' S') {a : Nat}
    {p : Proc} {o : Option Proc} (hp : r.procs a = some p) (ho : ∀ q ∈ o, q.pid = p.pid)
    (hprocs : ∀ b, (r'.procs b).map Proc.body = if b = a then o else (r.procs b).map Proc.body) :
    r'.find = Function.update r.find p.pid o :=
  h.find_of_procs h' ho (fun _ e => by rw [hp] at e; cases e; rfl)
    (fun b _ hb e => h.pid_inj b a _ p hb hp e) hprocs

/-- A store into the record at `a` that keeps its pid, its score and its chain link. -/
theorem Wf.find_modifyProc (h : Wf r S) {a : Nat} {p : Proc} (hp : r.procs a = some p)
    {f : Proc → Proc}
    (hf : ∀ p, (f p).pid = p.pid ∧ (f p).oomadj = p.oomadj ∧ (f p).pidhashNext = p.pidhashNext) :
    (r.modifyProc a f).find = Function.update r.find p.pid (some (f p).body) :=
  h.find_change_at (h.modifyProc hf) hp (fun _ e => by cases e; exact (hf p).1) fun b => by
    rw [modifyProc_procs]
    split
    · next hb => rw [hb, hp]; rfl
    · rfl

/-- A score change of the record at `a`. -/
theorem Wf.find_rescored (h : Wf r S) {a : Nat} {p : Proc} (hp : r.procs a = some p) {adj : Int}
    (hr₁ : oomScoreAdjMin ≤ adj) (hr₂ : adj ≤ oomScoreAdjMax) :
    (rescored a adj r).find = Function.update r.find p.pid (some { p.body with oomadj := adj }) :=
  h.find_change_at (h.rescore hp hr₁ hr₂) hp (fun _ e => by cases e; rfl) fun b => by
    rw [rescored_procs]
    split
    · rw [hp]; rfl
    · rfl

/-- `proc_insert` of a new record, with a fresh positive pid and a valid score, adds its
entry. -/
theorem Wf.find_alloc_procInsert (h : Wf r S) {p : Proc} (hr₁ : oomScoreAdjMin ≤ p.oomadj)
    (hr₂ : p.oomadj ≤ oomScoreAdjMax) (hpid : ∀ b q, r.procs b = some q → q.pid ≠ p.pid)
    (hpos : 0 < p.pid) :
    ((r.alloc p).procInsert r.brk p.pid).find = Function.update r.find p.pid (some p.body) :=
  h.find_of_procs (h.insert hr₁ hr₂ hpid hpos) (fun q hq => by cases hq; rfl)
    (fun q hq => by rw [h.fresh r.brk le_rfl] at hq; cases hq)
    (fun b q hq e => absurd e (hpid b q hq)) fun b => by rw [procInsert_alloc_procs]; split <;> rfl

/-- `pid_remove` of a pid with a record takes its entry out. -/
theorem Wf.find_of_pidRemove (h : Wf r S) {pid : Int} {r' : Registry} {p : Proc}
    (he : r.pidRemove pid = some (r', p)) : r'.find = Function.update r.find pid none := by
  obtain ⟨a, hp, rfl, hr'a, hbody, -, -, -, h'⟩ := h.pidRemove_some he
  refine h.find_change_at h' hp (fun _ e => by cases e) fun b => ?_
  split
  · next hb => rw [hb, hr'a]; rfl
  · next hb => exact hbody b hb

/-- `proc_insert` of a new record, with a fresh positive pid and a valid score, adds
exactly its entry to the map. -/
theorem Wf.find_procInsert (h : Wf r S) {p : Proc} (hr₁ : oomScoreAdjMin ≤ p.oomadj)
    (hr₂ : p.oomadj ≤ oomScoreAdjMax) (hpid : ∀ b q, r.procs b = some q → q.pid ≠ p.pid)
    (hpos : 0 < p.pid) (pid : Int) :
    ((r.alloc p).procInsert r.brk p.pid).find pid =
      if pid = p.pid then some p.body else r.find pid := by
  rw [h.find_alloc_procInsert hr₁ hr₂ hpid hpos, Function.update_apply]

/-- Pids `100` and `1120`, on the same chain `100`. -/
def chainMate₁ : Proc := ⟨100, 5, 10000, 900, 1, true, none⟩
def chainMate₂ : Proc := ⟨1120, 6, 10001, 800, 2, true, none⟩

/-- The registry holding `chainMate₁` alone. -/
def oneOnChain : Registry := (init.alloc chainMate₁).procInsert init.brk chainMate₁.pid

theorem wf_oneOnChain : ∃ S, Wf oneOnChain S :=
  ⟨_, wf_init.insert (p := chainMate₁) (by decide) (by decide) (fun b q hq => by cases hq)
    (by decide)⟩

/-- `1120` enters the chain of `100` at its head: `100` keeps its entry and `1120` gets its
own. -/
theorem find_procInsert_chainMate :
    let r := (oneOnChain.alloc chainMate₂).procInsert oneOnChain.brk chainMate₂.pid
    pidHashfn chainMate₂.pid = pidHashfn chainMate₁.pid ∧
      r.find 100 = some chainMate₁.body ∧ r.find 1120 = some chainMate₂.body := by
  intro r
  obtain ⟨S, hS⟩ := wf_oneOnChain
  have hfresh : ∀ b q, oneOnChain.procs b = some q → q.pid ≠ chainMate₂.pid :=
    hS.pidLookup_eq_none.mp (by decide)
  refine ⟨by decide, ?_, ?_⟩
  · rw [hS.find_procInsert (by decide) (by decide) hfresh (by decide) 100]
    decide
  · rw [hS.find_procInsert (by decide) (by decide) hfresh (by decide) 1120]
    decide

/-- `pid_remove` takes exactly the entry of its pid out of the map, and returns the record
that entry held. -/
theorem Wf.find_pidRemove (h : Wf r S) {pid : Int} {r' : Registry} {p : Proc}
    (he : r.pidRemove pid = some (r', p)) (pid' : Int) :
    r.find pid = some p.body ∧ r'.find pid' = if pid' = pid then none else r.find pid' := by
  obtain ⟨a, hp, hpid, -⟩ := h.pidRemove_some he
  exact ⟨h.find_eq_some.mpr ⟨hpid, a, by rw [hp]; rfl⟩,
    by rw [h.find_of_pidRemove he, Function.update_apply]⟩

/-- `100`, behind `1120` on their shared chain, is removed: the walk unlinks it from
`1120`'s record, and `1120` keeps its entry. -/
theorem find_pidRemove_chainMate :
    let r := (oneOnChain.alloc chainMate₂).procInsert oneOnChain.brk chainMate₂.pid
    ∃ r' p', r.pidRemove 100 = some (r', p') ∧ r.find 100 = some p'.body ∧
      r'.find 100 = none ∧ r'.find 1120 = some chainMate₂.body := by
  intro r
  obtain ⟨S, hS⟩ := wf_oneOnChain
  have h₂ := hS.insert (p := chainMate₂) (by decide) (by decide)
    (hS.pidLookup_eq_none.mp (by decide)) (by decide)
  obtain ⟨⟨r', p'⟩, he⟩ := Option.isSome_iff_exists.mp (by decide : (r.pidRemove 100).isSome)
  refine ⟨r', p', he, (h₂.find_pidRemove he 100).1, ?_, ?_⟩
  · rw [(h₂.find_pidRemove he 100).2]; rfl
  · rw [(h₂.find_pidRemove he 1120).2]; decide

end Registry

end Lmkd
