import Lmkd.Daemon.Victim

/-!
# The watchdog

`watchdog_callback` runs on the watchdog's timer thread when an event handler overruns its
budget. It sweeps the scores from `OOM_SCORE_ADJ_MAX` down to `0`. At each score
`find_victim` copies the bucket's records one at a time from the tail; it finds the place
again on every call, by `proc_adj_prev` from the pid of the record it copied last. Each
valid copy goes to `reaper.kill` until one is killed; that record is then only
invalidated.

The registry is not changed while the callback runs. The `i`-th call of `reaper.kill`
answers `reaperKill i`, which covers every sequence of outcomes. Both loops carry fuel:
one unit per call of `find_victim`, and for `proc_adj_prev` one per record looked at,
where `r.brk` is enough.

`watchdogCallback_sweep`: with the registry invariant and no record of pid `0`, the sweep
ends within (records with a score in `[0, 1000]`) + 1001 calls of `find_victim`. It hands
over the valid records of the sweep in order, up to the first the reaper kills
(`watchdogSweep`, with `handOver_prefix`, `handOver_survivors`, `handOver_killed`,
`sweepBelow_nodup`, `sweepBelow_order` and `mem_candidates` for what that means).
`watchdogCallback_pid_zero` shows that this can fail: a record of pid `0` sends the walk
back to its bucket's tail, so an invalid record there is found on every call.
-/

namespace Lmkd

open Registry

/-- What reading a bucket from the watchdog thread can do that C leaves undefined. -/
inductive WatchdogUb where
  /-- `proc_adj_prev` on an empty bucket: `adjslot_tail` is `NULL`, and the loop reads the
  `pid` behind it. -/
  | nullTail
  /-- A pointer of the walk is no allocated record. -/
  | notRecord
  deriving DecidableEq, Repr

/-- `(struct proc *)curr`: the record behind a pointer of the walk. -/
def recordAt (r : Registry) (curr : Ptr) : Except WatchdogUb Proc :=
  match curr.record.bind r.procs with
  | some p => .ok p
  | none => .error .notRecord

/-- The `while (curr != head)` loop of `proc_adj_prev`, looking at most at `fuel` records. -/
def procAdjPrevLoop (r : Registry) (head : Ptr) (pid : Int) :
    Nat → Ptr → Except WatchdogUb (Option Ptr)
  | 0, _ => .ok none
  | n + 1, curr =>
    if curr = head then .ok none
    else do
      let p ← recordAt r curr
      if p.pid = pid then .ok (some (r.prev curr))
      else procAdjPrevLoop r head pid n (r.prev curr)

/-- `proc_adj_prev(oomadj, pid)`: the `prev` of the record of `pid` in the bucket of
`oomadj`, searched from the tail; `none` for `NULL`. -/
def procAdjPrev (r : Registry) (oomadj pid : Int) : Except WatchdogUb (Option Ptr) :=
  let head := Ptr.slot (slotOf oomadj)
  match r.adjslotTail head with
  | none => .error .nullTail
  | some curr => procAdjPrevLoop r head pid r.brk curr

/-- `find_victim(oom_score, prev_pid, target_proc)`: a copy of the record after the one of
`prev_pid`, or of the tail when `prev_pid` is `0` or has no record in the bucket; `none`
for `false`. -/
def findVictim (r : Registry) (oomScore prevPid : Int) : Except WatchdogUb (Option Proc) := do
  let head := Ptr.slot (slotOf oomScore)
  let procp ← if prevPid = 0 then pure (r.adjslotTail head)
    else do
      match ← procAdjPrev r oomScore prevPid with
      | some p => pure (some p)
      | none => pure (r.adjslotTail head)
  match procp with
  | none => pure none
  | some p => if p = head then pure none else some <$> recordAt r p

/-- What `watchdog_callback` has done: the records handed to `reaper.kill` in order, the
calls of `find_victim`, and the registry. -/
structure WatchdogRun where
  handed : List Proc
  calls : Nat
  reg : Registry

/-- The `for` loop of `watchdog_callback` from `oom_score` and `prev_pid`. The `i`-th call
of `reaper.kill` answers `reaperKill i`; `none` when the fuel, one unit per call of
`find_victim`, runs out. -/
def watchdogLoop (reaperKill : Nat → Int) (fuel : Nat) (oomScore prevPid : Int)
    (w : WatchdogRun) : Except WatchdogUb (Option WatchdogRun) :=
  if oomScore < 0 then .ok (some w)
  else match fuel with
    | 0 => .ok none
    | fuel + 1 => do
      let w := { w with calls := w.calls + 1 }
      match ← findVictim w.reg oomScore prevPid with
      | none => watchdogLoop reaperKill fuel (oomScore - 1) 0 w
      | some target =>
        if target.valid then
          if reaperKill w.handed.length = 0 then
            .ok (some { w with handed := w.handed ++ [target],
                               reg := w.reg.pidInvalidate target.pid })
          else
            watchdogLoop reaperKill fuel oomScore target.pid { w with handed := w.handed ++ [target] }
        else watchdogLoop reaperKill fuel oomScore target.pid w

/-- `watchdog_callback()` on the registry `r`, with `fuel` calls of `find_victim`. -/
def watchdogCallback (reaperKill : Nat → Int) (fuel : Nat) (r : Registry) :
    Except WatchdogUb (Option WatchdogRun) :=
  watchdogLoop reaperKill fuel oomScoreAdjMax 0 ⟨[], 0, r⟩

/-! ## A bucket read from its tail -/

section Walk

variable {r : Registry} {S : Shape}

/-- The `prev` of a record is the record before it, or the head before the newest. -/
theorem Registry.BucketRep.prev_node {i a : Nat} {P Q : List Nat} (h : BucketRep r i (P ++ a :: Q)) :
    r.prev (.node a) = (P.getLast?.map .node).getD (.slot i) := by
  have e : cyc i (P ++ a :: Q) =
      (Ptr.slot i :: P.map Ptr.node) ++ Ptr.node a :: (Q.map Ptr.node ++ [Ptr.slot i]) := by
    simp [cyc]
  rw [BucketRep, e, List.chain'_split] at h
  obtain ⟨-, -, hl⟩ := List.chain'_append.mp h.1
  have hlast : (Ptr.slot i :: P.map Ptr.node).getLast? = some ((P.getLast?.map .node).getD (.slot i)) := by
    rcases List.eq_nil_or_concat P with rfl | ⟨P', b, rfl⟩
    · rfl
    · rw [List.concat_eq_append, List.map_append, ← List.cons_append, List.map_singleton,
        List.getLast?_concat, List.getLast?_concat]; rfl
  exact (hl _ hlast _ rfl).2

/-- Where the walk from the tail stands before the records `T`, in the bucket of slot `i`:
the first of them, or the head when none is left. -/
def ptrFrom (i : Nat) (T : List Nat) : Ptr := (T.head?.map Ptr.node).getD (.slot i)

/-- The bucket of score `s` from its tail (oldest) to its head (newest). -/
def bucketFromTail (S : Shape) (s : Nat) : List Nat := (S.buckets (slotOf s)).reverse

/-- The `prev` of a record read from the tail is where the walk stands after it. -/
theorem Registry.BucketRep.prev_fromTail {i x : Nat} {L A T : List Nat} (h : BucketRep r i L)
    (hL : L.reverse = A ++ x :: T) : r.prev (.node x) = ptrFrom i T := by
  have e : L = T.reverse ++ x :: A.reverse := by
    rw [← List.reverse_reverse L, hL]; simp
  rw [e] at h
  rw [h.prev_node, List.getLast?_reverse]; rfl

/-- `proc_adj_prev`'s loop from the tail: the pointer after the first record of `pid`, or
`NULL` when the walk reaches the head. -/
theorem procAdjPrevLoop_fromTail {i : Nat} {L : List Nat} (h : BucketRep r i L)
    (hL : ∀ a ∈ L, (r.procs a).isSome) (pid : Int) :
    ∀ (A T : List Nat) (fuel : Nat), L.reverse = A ++ T → T.length ≤ fuel →
      procAdjPrevLoop r (.slot i) pid fuel (ptrFrom i T) =
        .ok (match T.dropWhile (pidAt r · ≠ pid) with
          | [] => none
          | _ :: T' => some (ptrFrom i T'))
  | A, [], fuel, _, _ => by cases fuel <;> simp [procAdjPrevLoop, ptrFrom]
  | A, x :: T, fuel + 1, hAT, hlen => by
    obtain ⟨p, hp⟩ := Option.isSome_iff_exists.mp
      (hL x (List.mem_reverse.mp (hAT ▸ List.mem_append_right _ (.head _))))
    have hrec : recordAt r (.node x) = .ok p := by simp [recordAt, Ptr.record, hp]
    have hpid : pidAt r x = p.pid := by simp [pidAt, hp]
    simp only [procAdjPrevLoop, ptrFrom, List.head?_cons, Option.map_some', Option.getD_some,
      reduceCtorEq, if_false, hrec, bind, Except.bind]
    by_cases e : p.pid = pid
    · simp [e, hpid, h.prev_fromTail hAT, ptrFrom]
    · rw [if_neg e, List.dropWhile_cons_of_pos (by simpa [hpid] using e), h.prev_fromTail hAT]
      exact procAdjPrevLoop_fromTail h hL pid (A ++ [x]) T fuel (by simpa using hAT)
        (by simpa using hlen)

/-- The pid `find_victim` is called with after the records `V` of a bucket: `0` before the
first. -/
def prevPidOf (r : Registry) (V : List Nat) : Int := (V.getLast?.map (pidAt r)).getD 0

theorem Registry.Wf.isSome_of_mem_bucket (hS : Wf r S) {i a : Nat} (ha : a ∈ S.buckets i) :
    (r.procs a).isSome := by
  obtain ⟨p, hp, -⟩ := (hS.mem_bucket i a).mp ha
  simp [hp]

/-- The end of `find_victim`: the record where the walk stands, none at the head. -/
theorem findVictim_copy {i : Nat} {T : List Nat} (hT : ∀ a ∈ T.head?, (r.procs a).isSome) :
    (if ptrFrom i T = .slot i then (pure none : Except WatchdogUb (Option Proc))
      else some <$> recordAt r (ptrFrom i T)) = .ok (T.head?.bind r.procs) := by
  cases T with
  | nil => simp [ptrFrom]; rfl
  | cons a T =>
    obtain ⟨p, hp⟩ := Option.isSome_iff_exists.mp (hT a rfl)
    simp [ptrFrom, recordAt, Ptr.record, hp]

/-- `proc_adj_prev` on the pid of a record of a bucket: the pointer after that record, read
from the tail. The pids before it differ from its own. -/
theorem procAdjPrev_eq (hS : Wf r S) {s : Nat} (hi : slotOf s < 2001) {V rest : List Nat}
    {v : Nat} {pv : Proc} (hR : bucketFromTail S s = V ++ v :: rest) (hpv : r.procs v = some pv) :
    procAdjPrev r s pv.pid = .ok (some (ptrFrom (slotOf s) rest)) := by
  have hR' : (S.buckets (slotOf s)).reverse = [] ++ (V ++ v :: rest) := hR
  have hnd : (V ++ v :: rest).Nodup := hR ▸ List.nodup_reverse.mpr (hS.buckets.nodup (slotOf s))
  have hall : ∀ a ∈ S.buckets (slotOf s), (r.procs a).isSome := fun a => hS.isSome_of_mem_bucket
  have hdrop : (V ++ v :: rest).dropWhile (pidAt r · ≠ pv.pid) = v :: rest := by
    rw [List.dropWhile_append_of_pos, List.dropWhile_cons_of_neg (by simp [pidAt, hpv])]
    intro x hx
    obtain ⟨q, hq⟩ := Option.isSome_iff_exists.mp
      (hall x (List.mem_reverse.mp (by rw [hR']; simp [hx])))
    have hxv : x ≠ v := fun e => (List.nodup_append.mp hnd).2.2 hx (e ▸ .head _)
    simpa [pidAt, hq] using fun e => hxv (hS.pid_inj x v q pv hq hpv e)
  have hlen : (V ++ v :: rest).length ≤ r.brk := by
    have := congrArg List.length hR'
    simp only [List.length_reverse, List.nil_append] at this
    exact this ▸ hS.bucket_length_le (slotOf s)
  have ht : r.adjslotTail (.slot (slotOf s)) = some (ptrFrom (slotOf s) (V ++ v :: rest)) := by
    rw [hS.adjslotTail hi, ← List.head?_reverse, hR']; cases V <;> rfl
  simp only [procAdjPrev, ht]
  rw [procAdjPrevLoop_fromTail (hS.buckets.rep _ hi) hall pv.pid [] _ r.brk hR' hlen, hdrop]

/-- `find_victim` after the records `V` of the bucket of score `s` hands over the next one
from the tail. -/
theorem findVictim_fromTail (hS : Wf r S) {s : Nat} (hs : s ≤ 1000) {V rest : List Nat} (hR : bucketFromTail S s = V ++ rest) :
    findVictim r s (prevPidOf r V) = .ok (rest.head?.bind r.procs) := by
  have hi : slotOf s < 2001 := slotOf_lt (by simp [oomScoreAdjMin]; omega)
    (by simp [oomScoreAdjMax]; omega)
  have hmem : ∀ a ∈ V ++ rest, (r.procs a).isSome := fun a ha =>
    hS.isSome_of_mem_bucket (List.mem_reverse.mp (by rw [← bucketFromTail, hR]; exact ha))
  have hcopy := findVictim_copy (i := slotOf s) fun a ha =>
    hmem a (List.mem_append_right _ (List.mem_of_mem_head? ha))
  rcases List.eq_nil_or_concat V with rfl | ⟨V, v, rfl⟩
  · have htail : r.adjslotTail (.slot (slotOf s)) = rest.head?.map .node := by
      rw [hS.adjslotTail hi, ← List.head?_reverse]
      exact congrArg (fun l => l.head?.map Ptr.node) hR
    cases rest with
    | nil => simp [findVictim, prevPidOf, htail]; rfl
    | cons a rest => simpa [findVictim, prevPidOf, htail, ptrFrom] using hcopy
  · obtain ⟨pv, hpv⟩ := Option.isSome_iff_exists.mp (hmem v (by simp))
    have hpid : prevPidOf r (V ++ [v]) = pv.pid := by simp [prevPidOf, pidAt, hpv]
    simpa [findVictim, hpid, (hS.pid_pos v pv hpv).ne', procAdjPrev_eq hS hi (by simpa using hR) hpv]
      using hcopy

end Walk

/-! ## The sweep as it should be -/

/-- The records the sweep meets at the scores below `n`, from `n - 1` down to `0`, each
bucket from its tail. -/
def sweepBelow (S : Shape) (n : Nat) : List Nat := (List.range n).reverse.flatMap (bucketFromTail S)

theorem sweepBelow_succ (S : Shape) (n : Nat) :
    sweepBelow S (n + 1) = bucketFromTail S n ++ sweepBelow S n := by
  simp [sweepBelow, List.range_succ]

/-- The valid records among `L`, as `find_victim` copies them. -/
def candidates (r : Registry) (L : List Nat) : List Proc :=
  L.filterMap fun a => (r.procs a).filter (·.valid)

theorem candidates_cons {r : Registry} {a : Nat} {p : Proc} (hp : r.procs a = some p)
    (L : List Nat) : candidates r (a :: L) = if p.valid then p :: candidates r L else candidates r L := by
  cases hv : p.valid <;> simp [candidates, hp, hv, Option.filter]

/-- What the sweep should do with the candidates `ps`, the reaper answering its `k`-th call
`reaperKill k`: hand them over in order up to the first it kills, and name that one. -/
def handOver (reaperKill : Nat → Int) (k : Nat) : List Proc → List Proc × Option Proc
  | [] => ([], none)
  | p :: ps =>
    if reaperKill k = 0 then ([p], some p)
    else (p :: (handOver reaperKill (k + 1) ps).1, (handOver reaperKill (k + 1) ps).2)

/-- The registry after the sweep: the killed record invalidated. -/
def afterSweep (r : Registry) (killed : Option Proc) : Registry :=
  killed.elim r fun p => r.pidInvalidate p.pid

/-- The sweep as it should be: the valid records of the scores from `OOM_SCORE_ADJ_MAX`
down to `0`, each bucket from its tail, handed over up to the first the reaper kills, and
the registry with that one invalidated. -/
def watchdogSweep (reaperKill : Nat → Int) (r : Registry) (S : Shape) : List Proc × Registry :=
  ((handOver reaperKill 0 (candidates r (sweepBelow S 1001))).1,
    afterSweep r (handOver reaperKill 0 (candidates r (sweepBelow S 1001))).2)

/-- The records with a score in `[0, OOM_SCORE_ADJ_MAX]`. -/
def sweptCount (r : Registry) : Nat :=
  (List.range r.brk).countP fun a =>
    (r.procs a).any fun p => 0 ≤ p.oomadj && p.oomadj ≤ oomScoreAdjMax

section Spec

variable {r : Registry} {S : Shape}

/-! What `handOver` does: a prefix of the candidates, all but the last survive, and the
last is the one killed if any is. -/

theorem handOver_prefix (reaperKill : Nat → Int) :
    ∀ (k : Nat) (ps : List Proc), (handOver reaperKill k ps).1 <+: ps
  | _, [] => List.nil_prefix
  | k, p :: ps => by
    unfold handOver
    split
    · exact ⟨ps, rfl⟩
    · exact List.cons_prefix_cons.mpr ⟨rfl, handOver_prefix reaperKill (k + 1) ps⟩

theorem handOver_survivors (reaperKill : Nat → Int) :
    ∀ (k : Nat) (ps : List Proc) (i : Nat), i + 1 < (handOver reaperKill k ps).1.length →
      reaperKill (k + i) ≠ 0
  | _, [], _, h => by simp [handOver] at h
  | k, p :: ps, i, h => by
    unfold handOver at h
    split at h
    · simp at h
    · rename_i hk
      cases i with
      | zero => simpa using hk
      | succ i =>
        have := handOver_survivors reaperKill (k + 1) ps i (by simpa using h)
        rwa [Nat.add_right_comm, Nat.add_assoc] at this

theorem handOver_killed (reaperKill : Nat → Int) :
    ∀ (k : Nat) (ps : List Proc) (p : Proc), (handOver reaperKill k ps).2 = some p →
      (handOver reaperKill k ps).1.getLast? = some p ∧
        reaperKill (k + (handOver reaperKill k ps).1.length - 1) = 0
  | _, [], _, h => by simp [handOver] at h
  | k, q :: ps, p, h => by
    unfold handOver at h ⊢
    split at h
    · rename_i hk
      simp only [Option.some.injEq] at h
      subst h
      simp [hk]
    · rename_i hk
      obtain ⟨h₁, h₂⟩ := handOver_killed reaperKill (k + 1) ps p h
      have hne : (handOver reaperKill (k + 1) ps).1 ≠ [] := fun e => by simp [e] at h₁
      refine ⟨?_, ?_⟩
      · rw [if_neg hk, List.getLast?_cons, h₁]; rfl
      · rw [if_neg hk, List.length_cons]
        have := List.length_pos.mpr hne
        rwa [show k + ((handOver reaperKill (k + 1) ps).1.length + 1) - 1 =
          k + 1 + (handOver reaperKill (k + 1) ps).1.length - 1 by omega]

theorem handOver_none (reaperKill : Nat → Int) :
    ∀ (k : Nat) (ps : List Proc), (handOver reaperKill k ps).2 = none →
      (handOver reaperKill k ps).1 = ps
  | _, [], _ => rfl
  | k, p :: ps, h => by
    unfold handOver at h ⊢
    split at h
    · simp at h
    · rename_i hk
      rw [if_neg hk, handOver_none reaperKill (k + 1) ps h]

theorem oomadjOf_of_mem_bucketFromTail (hS : Wf r S) {s a : Nat} (ha : a ∈ bucketFromTail S s) :
    ∃ p, r.procs a = some p ∧ p.oomadj = s := by
  obtain ⟨p, hp, e⟩ := (hS.mem_bucket _ a).mp (List.mem_reverse.mp ha)
  exact ⟨p, hp, slotOf_inj (hS.oomadj_range a p hp).1 (by simp [oomScoreAdjMin]; omega) e⟩

theorem mem_bucketFromTail (hS : Wf r S) {s a : Nat} :
    a ∈ bucketFromTail S s ↔ ∃ p, r.procs a = some p ∧ p.oomadj = s :=
  ⟨oomadjOf_of_mem_bucketFromTail hS, fun ⟨p, hp, e⟩ =>
    List.mem_reverse.mpr ((hS.mem_bucket _ a).mpr ⟨p, hp, by rw [e]⟩)⟩

theorem mem_sweepBelow (hS : Wf r S) {n a : Nat} :
    a ∈ sweepBelow S n ↔ ∃ p, r.procs a = some p ∧ 0 ≤ p.oomadj ∧ p.oomadj < n := by
  simp only [sweepBelow, List.mem_flatMap, List.mem_reverse, List.mem_range, mem_bucketFromTail hS]
  constructor
  · rintro ⟨s, hs, p, hp, e⟩; exact ⟨p, hp, by omega, by omega⟩
  · rintro ⟨p, hp, h₁, h₂⟩; exact ⟨p.oomadj.toNat, by omega, p, hp, by omega⟩

/-- The sweep meets each record at most once. -/
theorem sweepBelow_nodup (hS : Wf r S) (n : Nat) : (sweepBelow S n).Nodup := by
  refine List.nodup_flatMap.mpr ⟨fun s _ => List.nodup_reverse.mpr (hS.buckets.nodup _), ?_⟩
  refine List.pairwise_reverse.mpr ((List.nodup_range n).imp fun {s t} hst a ha hb => hst ?_)
  obtain ⟨p, hp, e⟩ := (mem_bucketFromTail hS).mp ha
  obtain ⟨q, hq, e'⟩ := (mem_bucketFromTail hS).mp hb
  rw [hp, Option.some.injEq] at hq
  subst hq
  omega

/-- The sweep meets the scores from the highest down, and a score's records from the
oldest: `a` comes before `b` when its score is higher, or the same with `a` entered
earlier. -/
theorem sweepBelow_order (hS : Wf r S) (n : Nat) :
    (sweepBelow S n).Pairwise fun a b =>
      r.oomadjOf b < r.oomadjOf a ∨ (r.oomadjOf a = r.oomadjOf b ∧ r.entered a < r.entered b) := by
  have hadj : ∀ {s a}, a ∈ bucketFromTail S s → r.oomadjOf a = s := fun ha => by
    obtain ⟨p, hp, e⟩ := (mem_bucketFromTail hS).mp ha
    simp [oomadjOf, hp, e]
  refine List.pairwise_flatMap.mpr ⟨fun s _ => ?_, ?_⟩
  · exact List.pairwise_reverse.mpr ((hS.fifo _).imp_of_mem fun ha hb h =>
      Or.inr ⟨(hadj (List.mem_reverse.mpr hb)).trans (hadj (List.mem_reverse.mpr ha)).symm, h⟩)
  · exact List.pairwise_reverse.mpr ((List.pairwise_lt_range n).imp fun hst a ha b hb =>
      Or.inl (by rw [hadj ha, hadj hb]; exact_mod_cast hst))

/-- There are `sweptCount r` records in the sweep. -/
theorem sweepBelow_length (hS : Wf r S) : (sweepBelow S 1001).length = sweptCount r := by
  rw [sweptCount, List.countP_eq_length_filter]
  refine ((List.perm_ext_iff_of_nodup (sweepBelow_nodup hS _)
    ((List.nodup_range _).filter _)).mpr fun a => ?_).length_eq
  rw [mem_sweepBelow hS, List.mem_filter, List.mem_range]
  constructor
  · rintro ⟨p, hp, h₁, h₂⟩
    exact ⟨Nat.lt_of_not_le fun hle => by simp [hS.fresh a hle] at hp,
      by simp [hp, oomScoreAdjMax]; omega⟩
  · rintro ⟨-, h⟩
    cases hp : r.procs a with
    | none => simp [hp] at h
    | some p =>
      simp only [hp, Option.any_some, Bool.and_eq_true, decide_eq_true_eq, oomScoreAdjMax] at h
      exact ⟨p, rfl, h.1, by omega⟩

/-- The candidates are valid records of the list, copied, of distinct pids when the list
has no repetition. -/
theorem mem_candidates {L : List Nat} {p : Proc} :
    p ∈ candidates r L ↔ ∃ a ∈ L, r.procs a = some p ∧ p.valid := by
  simp only [candidates, List.mem_filterMap, Option.filter_eq_some, Option.mem_def]

theorem candidates_pid_nodup (hS : Wf r S) : ∀ {L : List Nat}, L.Nodup →
    ((candidates r L).map Proc.pid).Nodup
  | [], _ => List.nodup_nil
  | a :: L, hL => by
    have ih := candidates_pid_nodup hS (List.nodup_cons.mp hL).2
    cases hp : r.procs a with
    | none => simpa [candidates, hp] using ih
    | some p =>
      rw [candidates_cons hp]
      split
      · refine List.nodup_cons.mpr ⟨fun hm => ?_, ih⟩
        obtain ⟨q, hq, e⟩ := List.mem_map.mp hm
        obtain ⟨b, hb, hbq, -⟩ := mem_candidates.mp hq
        exact (List.nodup_cons.mp hL).1 (hS.pid_inj a b p q hp hbq e.symm ▸ hb)
      · exact ih

end Spec

/-! ## The loop of `watchdog_callback` -/

section Run

variable {r : Registry} {S : Shape} {reaperKill : Nat → Int} {fuel : Nat} {oomScore prevPid : Int}
  {w : WatchdogRun}

/-! One lemma per way a turn of the loop can go. -/

theorem watchdogLoop_done (h : oomScore < 0) :
    watchdogLoop reaperKill fuel oomScore prevPid w = .ok (some w) := by
  rw [watchdogLoop.eq_def, if_pos h]

theorem watchdogLoop_nextScore (h : 0 ≤ oomScore)
    (hf : findVictim w.reg oomScore prevPid = .ok none) :
    watchdogLoop reaperKill (fuel + 1) oomScore prevPid w =
      watchdogLoop reaperKill fuel (oomScore - 1) 0 { w with calls := w.calls + 1 } := by
  rw [watchdogLoop.eq_def, if_neg (by omega)]
  simp only [hf, bind, Except.bind]

theorem watchdogLoop_invalid (h : 0 ≤ oomScore) {p : Proc}
    (hf : findVictim w.reg oomScore prevPid = .ok (some p)) (hv : p.valid = false) :
    watchdogLoop reaperKill (fuel + 1) oomScore prevPid w =
      watchdogLoop reaperKill fuel oomScore p.pid { w with calls := w.calls + 1 } := by
  rw [watchdogLoop.eq_def, if_neg (by omega)]
  simp only [hf, bind, Except.bind, hv, Bool.false_eq_true, if_false]

theorem watchdogLoop_notKilled (h : 0 ≤ oomScore) {p : Proc}
    (hf : findVictim w.reg oomScore prevPid = .ok (some p)) (hv : p.valid = true)
    (hk : reaperKill w.handed.length ≠ 0) :
    watchdogLoop reaperKill (fuel + 1) oomScore prevPid w =
      watchdogLoop reaperKill fuel oomScore p.pid
        { w with calls := w.calls + 1, handed := w.handed ++ [p] } := by
  rw [watchdogLoop.eq_def, if_neg (by omega)]
  simp only [hf, bind, Except.bind, hv, if_true, hk, if_false]

theorem watchdogLoop_killed (h : 0 ≤ oomScore) {p : Proc}
    (hf : findVictim w.reg oomScore prevPid = .ok (some p)) (hv : p.valid = true)
    (hk : reaperKill w.handed.length = 0) :
    watchdogLoop reaperKill (fuel + 1) oomScore prevPid w =
      .ok (some { w with
        calls := w.calls + 1
        handed := w.handed ++ [p]
        reg := w.reg.pidInvalidate p.pid }) := by
  rw [watchdogLoop.eq_def, if_neg (by omega)]
  simp only [hf, bind, Except.bind, hv, if_true, hk]

/-- The loop from the records `V` of the bucket of score `n`: enough fuel for the rest of
the sweep, and it hands over the candidates of the rest as `handOver` says. -/
theorem watchdogLoop_fromTail (hS : Wf r S) (reaperKill : Nat → Int) :
    ∀ (fuel n : Nat) (V rest : List Nat) (w : WatchdogRun), n ≤ 1000 →
      bucketFromTail S n = V ++ rest → w.reg = r →
      rest.length + (sweepBelow S n).length + n + 1 ≤ fuel →
      ∃ w', watchdogLoop reaperKill fuel n (prevPidOf r V) w = .ok (some w') ∧
        w'.calls ≤ w.calls + fuel ∧
        w'.handed = w.handed ++
          (handOver reaperKill w.handed.length (candidates r (rest ++ sweepBelow S n))).1 ∧
        w'.reg = afterSweep r
          (handOver reaperKill w.handed.length (candidates r (rest ++ sweepBelow S n))).2
  | 0, _, _, _, _, _, _, _, hf => by omega
  | fuel + 1, n, V, rest, w, hn, hR, hw, hf => by
    have hfv := findVictim_fromTail hS hn hR
    cases rest with
    | nil =>
      rcases n with _ | m
      · refine ⟨{ w with calls := w.calls + 1 }, ?_, by simp, by simp [sweepBelow, candidates, handOver],
          by simp [sweepBelow, candidates, handOver, afterSweep, hw]⟩
        simp only [Nat.cast_zero, List.head?_nil, Option.bind_none] at hfv ⊢
        rw [watchdogLoop_nextScore le_rfl (by rw [hw]; exact hfv), watchdogLoop_done (by omega)]
      · have hfv' : findVictim w.reg ((m + 1 : Nat) : Int) (prevPidOf r V) = .ok none := by
          rw [hw, hfv]; rfl
        obtain ⟨w', e, hc, hh, hr⟩ := watchdogLoop_fromTail hS reaperKill fuel m []
          (bucketFromTail S m) { w with calls := w.calls + 1 } (by omega) (List.nil_append _).symm hw
          (by rw [sweepBelow_succ, List.length_append] at hf; simp only [List.length_nil] at hf; omega)
        have hm : ((m + 1 : Nat) : Int) - 1 = m := by push_cast; ring
        refine ⟨w', ?_, by simp only at hc; omega, by simpa [sweepBelow_succ] using hh,
          by simpa [sweepBelow_succ] using hr⟩
        rw [watchdogLoop_nextScore (by omega) hfv', hm]
        exact e
    | cons a rest =>
      have ha : a ∈ S.buckets (slotOf n) :=
        List.mem_reverse.mp (by rw [← bucketFromTail, hR]; simp)
      obtain ⟨p, hp⟩ := Option.isSome_iff_exists.mp (hS.isSome_of_mem_bucket ha)
      have hfv' : findVictim w.reg n (prevPidOf r V) = .ok (some p) := by rw [hw, hfv]; simp [hp]
      have hpid : prevPidOf r (V ++ [a]) = p.pid := by simp [prevPidOf, pidAt, hp]
      have hR' : bucketFromTail S n = (V ++ [a]) ++ rest := by simpa using hR
      have hf' : rest.length + (sweepBelow S n).length + n + 1 ≤ fuel := by
        simp only [List.length_cons] at hf; omega
      cases hv : p.valid
      · obtain ⟨w', e, hc, hh, hr⟩ := watchdogLoop_fromTail hS reaperKill fuel n (V ++ [a]) rest
          { w with calls := w.calls + 1 } hn hR' hw hf'
        rw [hpid] at e
        refine ⟨w', by rw [watchdogLoop_invalid (by omega) hfv' hv]; exact e, by simp only at hc; omega,
          ?_, ?_⟩
        · rwa [List.cons_append, candidates_cons hp, hv, if_neg Bool.false_ne_true]
        · rwa [List.cons_append, candidates_cons hp, hv, if_neg Bool.false_ne_true]
      · by_cases hk : reaperKill w.handed.length = 0
        · refine ⟨_, watchdogLoop_killed (by omega) hfv' hv hk, by simp, ?_, ?_⟩
          · simp [List.cons_append, candidates_cons hp, hv, handOver, hk]
          · simp [List.cons_append, candidates_cons hp, hv, handOver, hk, afterSweep, hw]
        · obtain ⟨w', e, hc, hh, hr⟩ := watchdogLoop_fromTail hS reaperKill fuel n (V ++ [a]) rest
            { w with calls := w.calls + 1, handed := w.handed ++ [p] } hn hR' hw hf'
          rw [hpid] at e
          refine ⟨w', by rw [watchdogLoop_notKilled (by omega) hfv' hv hk]; exact e,
            by simp only at hc; omega, ?_, ?_⟩
          · simpa [List.cons_append, candidates_cons hp, hv, handOver, hk] using hh
          · simpa [List.cons_append, candidates_cons hp, hv, handOver, hk] using hr

/-- With the registry invariant, whose pids are positive, `watchdog_callback` ends within
(records with a score in `[0, 1000]`) + 1001 calls of `find_victim`, and does what
`watchdogSweep` says, whatever the reaper answers. -/
theorem watchdogCallback_sweep (hS : Wf r S) (reaperKill : Nat → Int) :
    ∃ w, watchdogCallback reaperKill (sweptCount r + 1001) r = .ok (some w) ∧
      w.calls ≤ sweptCount r + 1001 ∧ (w.handed, w.reg) = watchdogSweep reaperKill r S := by
  obtain ⟨w, e, hc, hh, hr⟩ := watchdogLoop_fromTail hS reaperKill (sweptCount r + 1001) 1000
    [] (bucketFromTail S 1000) ⟨[], 0, r⟩ le_rfl rfl rfl
    (by rw [← sweepBelow_length hS, sweepBelow_succ S 1000, List.length_append])
  rw [← sweepBelow_succ] at hh hr
  exact ⟨w, e, by simpa using hc, by simp [watchdogSweep, hh, hr]⟩

/-- Two apps registered, the reaper failing on its first call. -/
theorem watchdogCallback_sweep_twoApps :
    ∃ w, watchdogCallback (fun i => if i = 0 then -1 else 0) (sweptCount twoApps + 1001)
        twoApps = .ok (some w) ∧ w.calls ≤ sweptCount twoApps + 1001 := by
  have h₁ := wf_init.insert (p := appA) (by decide) (by decide)
    (wf_init.pidLookup_eq_none.mp (by decide)) (by decide)
  have h₂ := h₁.insert (p := appB) (by decide) (by decide)
    (h₁.pidLookup_eq_none.mp (by decide)) (by decide)
  obtain ⟨w, e, hc, -⟩ := watchdogCallback_sweep h₂ (fun i => if i = 0 then -1 else 0)
  exact ⟨w, e, hc⟩

end Run

end Lmkd
