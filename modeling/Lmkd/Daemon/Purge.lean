import Lmkd.Daemon.Ctrl
import Lmkd.Daemon.Victim

/-!
# What `PROCPURGE` removes

`cmd_procpurge(cred)` walks every `pidhash` chain, saving each record's `pidhash_next`
before `claim_record` and `pid_remove` are called on it. Over a registry satisfying the
invariant it removes exactly the records the caller can claim, those registered by the
caller or by nobody (`reg_pid` 0). Every other record keeps its members and its place in
its bucket and its chain: the lists of the invariant are filtered by the records kept. No
record left can be claimed by the caller, so a second `PROCPURGE` from it changes nothing.
-/

namespace Lmkd

namespace Registry

variable {r r' : Registry} {S : Shape}

/-- Whether `PROCPURGE` from `pid` keeps the record at `a`: `claim_record` refuses it. -/
def purgeKeeps (r : Registry) (pid : Int) (a : Nat) : Bool :=
  match r.procs a with
  | some p => p.regPid != pid && p.regPid != 0
  | none => true

/-- The lists of a shape with only the records satisfying `f`, in their order. -/
def Shape.filter (S : Shape) (f : Nat → Bool) : Shape :=
  ⟨fun i => (S.buckets i).filter f, fun k => (S.chains k).filter f⟩

theorem Shape.filter_filter (S : Shape) (f g : Nat → Bool) :
    (S.filter f).filter g = S.filter fun a => f a && g a := by
  simp only [Shape.filter, List.filter_filter, Bool.and_comm]

/-- Whether a record is kept depends only on its members. -/
theorem purgeKeeps_congr {pid : Int} {a : Nat}
    (h : (r'.procs a).map Proc.body = (r.procs a).map Proc.body) :
    r'.purgeKeeps pid a = r.purgeKeeps pid a := by
  cases hr : r.procs a <;> cases hr' : r'.procs a <;>
    simp only [hr, hr', Option.map_some', Option.map_none', Option.some.injEq] at h
  · simp only [purgeKeeps, hr, hr']
  · cases h
  · cases h
  · have hreg : Proc.regPid _ = Proc.regPid _ := congrArg Proc.regPid h
    simp only [purgeKeeps, hr, hr']
    exact congrArg (fun v => (v != pid && v != 0)) hreg

/-- A chain segment ending in `NULL` determines where it starts. -/
theorem chainSeg_start_eq : ∀ {C : List Nat} {s s' : Option Nat},
    ChainSeg r s C none → ChainSeg r' s' C none → s = s'
  | [], _, _, h, h' => h.trans h'.symm
  | _ :: _, _, _, h, h' => h.1.trans h'.1.symm

/-- Removing the record at `a` leaves the lists of the invariant without `a`. -/
theorem Wf.erase_eq_filter (h : Wf r S) {a : Nat} {p : Proc} (hp : r.procs a = some p) :
    (⟨Function.update S.buckets (slotOf p.oomadj) ((S.buckets (slotOf p.oomadj)).erase a),
      Function.update S.chains (pidHashfn p.pid) ((S.chains (pidHashfn p.pid)).erase a)⟩ :
        Shape) = S.filter (· != a) := by
  have key : ∀ (L : Nat → List Nat) (i : Nat), (∀ j, (L j).Nodup) → (∀ j, a ∈ L j → j = i) →
      Function.update L i ((L i).erase a) = fun j => (L j).filter (· != a) := by
    intro L i hnd hmem
    funext j
    by_cases hj : j = i
    · subst hj
      rw [Function.update_same, (hnd j).erase_eq_filter]
    · rw [Function.update_noteq hj, eq_comm, List.filter_eq_self]
      intro b hb
      simpa using fun e : b = a => hj (hmem j (e ▸ hb))
  simp only [Shape.filter]
  congr 1
  · exact key _ _ h.buckets.nodup fun j hj => by
      obtain ⟨q, hq, rfl⟩ := (h.mem_bucket j a).mp hj
      rw [hp] at hq; cases hq; rfl
  · exact key _ _ h.chains.nodup fun j hj => by
      obtain ⟨q, hq, rfl⟩ := (h.mem_chain j a).mp hj
      rw [hp] at hq; cases hq; rfl

/-- `pid_remove` of an allocated record, with the lists of the invariant filtered. -/
theorem Wf.pidRemove_filter (h : Wf r S) {a : Nat} {p : Proc} (hp : r.procs a = some p) :
    ∃ r', r.pidRemove p.pid = some (r', p) ∧ r'.procs a = none ∧
      (∀ c, c ≠ a → (r'.procs c).map Proc.body = (r.procs c).map Proc.body) ∧
      r'.brk = r.brk ∧ Wf r' (S.filter (· != a)) := by
  obtain ⟨r', he, hna, hbody, hbrk, hwf⟩ := h.pidRemove_of_procs hp
  exact ⟨r', he, hna, hbody, hbrk, h.erase_eq_filter hp ▸ hwf⟩

/-- `claim_record` on a record it refuses changes nothing. -/
theorem claimRecord_of_keeps {a : Nat} {pid : Int} {p : Proc} (hp : r.procs a = some p)
    (hk : r.purgeKeeps pid a = true) : r.claimRecord a pid = (false, r) := by
  simp only [purgeKeeps, hp, Bool.and_eq_true, bne_iff_ne, ne_eq] at hk
  simp only [claimRecord, hp, if_neg hk.1, if_neg hk.2]

/-- `claim_record` on a record it accepts writes only that record's registrant. -/
theorem claimRecord_of_claims {a : Nat} {pid : Int} {p : Proc} (hp : r.procs a = some p)
    (hk : r.purgeKeeps pid a = false) :
    ∃ r', r.claimRecord a pid = (true, r') ∧ (∃ p', r'.procs a = some p' ∧ p'.pid = p.pid) ∧
      (∀ c, c ≠ a → r'.procs c = r.procs c) ∧ r'.brk = r.brk ∧ (Wf r S → Wf r' S) := by
  simp only [purgeKeeps, hp, Bool.and_eq_false_iff, bne_eq_false_iff_eq] at hk
  by_cases h₁ : p.regPid = pid
  · exact ⟨r, by simp only [claimRecord, hp, if_pos h₁], ⟨p, hp, rfl⟩, fun _ _ => rfl, rfl, id⟩
  · refine ⟨r.modifyProc a fun q => { q with regPid := pid },
      by simp only [claimRecord, hp, if_neg h₁, if_pos (hk.resolve_left h₁)],
      ⟨{ p with regPid := pid }, by simp [modifyProc_procs, hp], rfl⟩, fun c hc => by simp [modifyProc_procs, hc],
      rfl, fun h => h.modifyProc fun _ => ⟨rfl, rfl, rfl⟩⟩

end Registry

open Registry

/-! ## One chain -/

/-- The walk along the records `C` of chain `k`, after the records `P` it kept, removes
the records of `C` the caller can claim and keeps the others in place. -/
theorem procpurgeChain_spec (pid : Int) (k : Nat) : ∀ (C P : List Nat) (c : Option Nat)
    (n : Nat) (s : Daemon) (S : Shape), Wf s.reg S → S.chains k = P ++ C →
    ChainSeg s.reg c C none → C.length ≤ n →
    (∀ b, ((procpurgeChain pid n s c).reg.procs b).map Proc.body =
      if b ∈ C ∧ s.reg.purgeKeeps pid b = false then none else (s.reg.procs b).map Proc.body) ∧
    (procpurgeChain pid n s c).reg.brk = s.reg.brk ∧
    Wf (procpurgeChain pid n s c).reg (S.filter fun b => decide (b ∉ C) || s.reg.purgeKeeps pid b)
  | [], P, c, n, s, S, hS, _, hc, _ => by
    have hc : c = none := hc
    subst hc
    have hrun : procpurgeChain pid n s none = s := by cases n <;> rfl
    have hshape : S.filter (fun b => decide (b ∉ ([] : List Nat)) || s.reg.purgeKeeps pid b) = S := by
      simp [Shape.filter]
    rw [hrun, hshape]
    exact ⟨fun b => by simp, rfl, hS⟩
  | a :: C, P, c, n, s, S, hS, hk, ⟨hc, nx, hnx, hC⟩, hlen => by
    subst hc
    obtain ⟨p, hp, rfl⟩ := Option.map_eq_some'.mp hnx
    obtain ⟨m, rfl⟩ : ∃ m, n = m + 1 := ⟨n - 1, by simp at hlen; omega⟩
    have hlen' : C.length ≤ m := by simpa using hlen
    have hnd : a ∉ P ∧ a ∉ C := by
      have := hS.chains.nodup k
      rw [hk, List.nodup_append, List.nodup_cons] at this
      exact ⟨fun ha => this.2.2 ha (List.mem_cons_self a C), this.2.1.1⟩
    cases hkeep : s.reg.purgeKeeps pid a
    · -- the caller claims the record: it is removed
      obtain ⟨reg, hcl, ⟨p₁, hp₁, hpid⟩, hother, hbrk, hwf⟩ :=
        claimRecord_of_claims (S := S) hp hkeep
      obtain ⟨r', hrm, hna, hbody, hbrk', hwf'⟩ := (hwf hS).pidRemove_filter hp₁
      simp only [procpurgeChain, hp, hcl]
      set s₂ := ({ s with reg := reg }.pidRemove p.pid).1 with hs₂
      have hreg₂ : s₂.reg = r' := by
        rw [hs₂, Daemon.pidRemove_reg, ← hpid, hrm]
        rfl
      have hk₂ : (S.filter (· != a)).chains k = P ++ C := by
        have hP : P.filter (· != a) = P := List.filter_eq_self.mpr fun b hb => by
          simpa using fun e : b = a => hnd.1 (e ▸ hb)
        have hC' : C.filter (· != a) = C := List.filter_eq_self.mpr fun b hb => by
          simpa using fun e : b = a => hnd.2 (e ▸ hb)
        simp only [Shape.filter, hk, List.filter_append, List.filter_cons, bne_self_eq_false,
          Bool.false_eq_true, if_false, hP, hC']
      have hwf₂ : Wf s₂.reg (S.filter (· != a)) := hreg₂ ▸ hwf'
      have hC₂ : ChainSeg s₂.reg p.pidhashNext C none := by
        have hrep := hwf₂.chains.rep k
        rw [hk₂] at hrep
        obtain ⟨mid, -, hmid⟩ := chainSeg_append.mp hrep
        rwa [chainSeg_start_eq hC hmid]
      obtain ⟨ih₁, ih₂, ih₃⟩ :=
        procpurgeChain_spec pid k C P p.pidhashNext m s₂ _ hwf₂ hk₂ hC₂ hlen'
      have hbody₂ : ∀ b, b ≠ a → (s₂.reg.procs b).map Proc.body = (s.reg.procs b).map Proc.body :=
        fun b hb => by rw [hreg₂, hbody b hb, hother b hb]
      have hkeeps₂ : ∀ b, b ≠ a → s₂.reg.purgeKeeps pid b = s.reg.purgeKeeps pid b :=
        fun b hb => purgeKeeps_congr (hbody₂ b hb)
      refine ⟨fun b => ?_, by rw [ih₂, hreg₂, hbrk', hbrk], ?_⟩
      · rw [ih₁ b]
        by_cases hb : b = a
        · subst hb; simp [hnd.2, hreg₂, hna, hkeep]
        · simp [hb, hbody₂ b hb, hkeeps₂ b hb]
      · have hpred : (fun b => decide (b ∉ a :: C) || s.reg.purgeKeeps pid b) =
            fun b => (b != a) && (decide (b ∉ C) || s₂.reg.purgeKeeps pid b) := by
          funext b
          by_cases hb : b = a
          · subst hb; simp [hkeep]
          · simp [hb, hkeeps₂ b hb]
        rw [hpred, ← Shape.filter_filter]
        exact ih₃
    · -- the record is kept
      simp only [procpurgeChain, hp, claimRecord_of_keeps hp hkeep]
      obtain ⟨ih₁, ih₂, ih₃⟩ := procpurgeChain_spec pid k C (P ++ [a]) p.pidhashNext m s S hS
        (by simp [hk]) hC hlen'
      refine ⟨fun b => ?_, ih₂, ?_⟩
      · rw [ih₁ b]
        by_cases hb : b = a
        · subst hb; simp [hkeep, hnd.2]
        · simp [hb]
      · have hpred : (fun b => decide (b ∉ a :: C) || s.reg.purgeKeeps pid b) =
            fun b => decide (b ∉ C) || s.reg.purgeKeeps pid b := by
          funext b
          by_cases hb : b = a
          · subst hb; simp [hkeep]
          · simp [hb]
        rw [hpred]
        exact ih₃

/-- A walk along a chain of records the caller cannot claim changes nothing. -/
theorem procpurgeChain_of_keeps (pid : Int) : ∀ (C : List Nat) (c : Option Nat) (n : Nat)
    (s : Daemon), ChainSeg s.reg c C none → (∀ b ∈ C, s.reg.purgeKeeps pid b = true) →
    procpurgeChain pid n s c = s
  | [], c, n, s, hc, _ => by
    have hc : c = none := hc
    subst hc
    cases n <;> rfl
  | a :: C, _, 0, s, _, _ => rfl
  | a :: C, _, m + 1, s, ⟨hc, nx, hnx, hC⟩, hk => by
    subst hc
    obtain ⟨p, hp, rfl⟩ := Option.map_eq_some'.mp hnx
    simp only [procpurgeChain, hp, claimRecord_of_keeps hp (hk a (List.mem_cons_self a C))]
    exact procpurgeChain_of_keeps pid C _ m s hC fun b hb => hk b (List.mem_cons_of_mem a hb)

/-! ## Every chain -/

section Purge

variable {pid : Int} {s₀ : Daemon} {S₀ : Shape}

/-- The state once the chains `L` are walked from `s₀`, whose lists are `S₀`: the records of
those chains the caller can claim are gone, every other record is as it was. -/
structure PurgedUpTo (pid : Int) (s₀ : Daemon) (S₀ : Shape) (L : List Nat) (s : Daemon) :
    Prop where
  procs : ∀ b, (s.reg.procs b).map Proc.body =
    if (∃ k ∈ L, b ∈ S₀.chains k) ∧ s₀.reg.purgeKeeps pid b = false then none
    else (s₀.reg.procs b).map Proc.body
  brk : s.reg.brk = s₀.reg.brk
  wf : Wf s.reg (S₀.filter fun b => !decide (∃ k ∈ L, b ∈ S₀.chains k) || s₀.reg.purgeKeeps pid b)

theorem purgedUpTo_nil (h₀ : Wf s₀.reg S₀) : PurgedUpTo pid s₀ S₀ [] s₀ where
  procs b := by simp
  brk := rfl
  wf := by
    have hshape : S₀.filter (fun b => !decide (∃ k ∈ ([] : List Nat), b ∈ S₀.chains k) ||
        s₀.reg.purgeKeeps pid b) = S₀ := by
      simp [Shape.filter]
    rw [hshape]
    exact h₀

/-- Walking one more chain `i`. -/
theorem PurgedUpTo.step (h₀ : Wf s₀.reg S₀) {L : List Nat} {s : Daemon}
    (h : PurgedUpTo pid s₀ S₀ L s) {i : Nat} (hi : i ∉ L) :
    PurgedUpTo pid s₀ S₀ (L ++ [i]) (procpurgeChain pid s.reg.brk s (s.reg.pidhash i)) := by
  -- a record of chain `i` is on no chain walked before
  have hout : ∀ b ∈ S₀.chains i, ¬∃ k ∈ L, b ∈ S₀.chains k := fun b hb ⟨k, hk, hbk⟩ =>
    hi (h₀.chains.disjoint k i b hbk hb ▸ hk)
  have hchain : (S₀.filter fun b => !decide (∃ k ∈ L, b ∈ S₀.chains k) ||
      s₀.reg.purgeKeeps pid b).chains i = [] ++ S₀.chains i := by
    simp only [Shape.filter, List.nil_append]
    exact List.filter_eq_self.mpr fun b hb => by simp [hout b hb]
  have hseg := h.wf.chains.rep i
  rw [hchain] at hseg
  have hlen := h.wf.chain_length_le i
  rw [hchain] at hlen
  obtain ⟨ih₁, ih₂, ih₃⟩ := procpurgeChain_spec pid i _ [] _ _ s _ h.wf hchain hseg hlen
  -- on chain `i` the records are still those of `s₀`
  have hsame : ∀ b ∈ S₀.chains i, s.reg.purgeKeeps pid b = s₀.reg.purgeKeeps pid b := fun b hb =>
    purgeKeeps_congr (by rw [h.procs b, if_neg fun hc => hout b hb hc.1])
  have hmem : ∀ b, (∃ k ∈ L ++ [i], b ∈ S₀.chains k) ↔
      (∃ k ∈ L, b ∈ S₀.chains k) ∨ b ∈ S₀.chains i := fun b => by
    simp only [List.mem_append, List.mem_singleton, or_and_right, exists_or, exists_eq_left]
  refine ⟨fun b => ?_, ih₂.trans h.brk, ?_⟩
  · rw [ih₁ b, h.procs b]
    simp only [hmem]
    by_cases hb : b ∈ S₀.chains i
    · simp [hb, hout b hb, hsame b hb]
    · simp [hb]
  · rw [Shape.filter_filter] at ih₃
    convert ih₃ using 2
    funext b
    simp only [hmem]
    by_cases hL : ∃ k ∈ L, b ∈ S₀.chains k
    · have hb : b ∉ S₀.chains i := fun hb => hout b hb hL
      simp [hL, hb]
    · by_cases hb : b ∈ S₀.chains i
      · simp [hL, hb, hsame b hb]
      · simp [hL, hb]

theorem purgedUpTo_foldl (h₀ : Wf s₀.reg S₀) : ∀ (M L : List Nat) (s : Daemon),
    (L ++ M).Nodup → PurgedUpTo pid s₀ S₀ L s →
    PurgedUpTo pid s₀ S₀ (L ++ M)
      (M.foldl (fun s i => procpurgeChain pid s.reg.brk s (s.reg.pidhash i)) s)
  | [], L, s, _, h => by simpa using h
  | i :: M, L, s, hnd, h => by
    have hi : i ∉ L := fun hi => (List.nodup_append.mp hnd).2.2 hi (List.mem_cons_self i M)
    have := purgedUpTo_foldl h₀ M (L ++ [i]) _ (by simpa using hnd) (h.step h₀ hi)
    simpa using this

end Purge

/-! ## `cmd_procpurge` -/

/-- Every record lies on the chain of its pid's hash, one of those the loop walks. -/
theorem Registry.Wf.mem_chains_range {r : Registry} {S : Shape} (h : Wf r S) (b : Nat) :
    (∃ k ∈ List.range pidhashSz, b ∈ S.chains k) ↔ ∃ p, r.procs b = some p := by
  constructor
  · rintro ⟨k, -, hb⟩
    obtain ⟨p, hp, -⟩ := (h.mem_chain k b).mp hb
    exact ⟨p, hp⟩
  · rintro ⟨p, hp⟩
    exact ⟨_, List.mem_range.mpr (pidHashfn_lt p.pid), h.mem_chain_self hp⟩

/-- A record registered by the peer of pid `2`. -/
def otherApp : Proc :=
  { pid := 300, pidfd := 8, uid := 10003, oomadj := 900, regPid := 2, valid := true,
    pidhashNext := none }

/-- `twoApps`, of registrant `1`, and then `otherApp`. -/
def twoAppsAndOther : Registry := (twoApps.alloc otherApp).procInsert 2 otherApp.pid

/-- `cmd_procpurge(cred)` over a registry satisfying the invariant: the records the caller
can claim are removed, every other record keeps its members, the invariant holds with the
lists of buckets and chains filtered by the records kept, and a second `PROCPURGE` from the
caller changes nothing. -/
theorem cmdProcpurge_removes_claimable {s : Daemon} {S : Shape} (hS : Wf s.reg S)
    (hk : s.useInkernelInterface = false) (cred : Ucred) :
    let s' : Daemon := cmdProcpurge s cred
    (∀ a, (s'.reg.procs a).map Proc.body =
      if s.reg.purgeKeeps cred.pid a then (s.reg.procs a).map Proc.body else none) ∧
    Wf s'.reg (S.filter (s.reg.purgeKeeps cred.pid)) ∧
    cmdProcpurge s' cred = s' := by
  intro s'
  have hrun : PurgedUpTo cred.pid s S (List.range pidhashSz) s' := by
    simpa [s', cmdProcpurge, hk] using purgedUpTo_foldl hS (List.range pidhashSz) [] s
      (by simpa using List.nodup_range pidhashSz) (purgedUpTo_nil hS)
  have hprocs : ∀ a, (s'.reg.procs a).map Proc.body =
      if s.reg.purgeKeeps cred.pid a then (s.reg.procs a).map Proc.body else none := fun a => by
    rw [hrun.procs a]
    cases ha : s.reg.procs a with
    | none =>
      have hout : ¬∃ k ∈ List.range pidhashSz, a ∈ S.chains k := fun hin => by
        obtain ⟨p, hp⟩ := (hS.mem_chains_range a).mp hin
        rw [ha] at hp
        cases hp
      simp [purgeKeeps, ha, hout]
    | some p =>
      have hin := (hS.mem_chains_range a).mpr ⟨p, ha⟩
      simp only [hin, true_and]
      cases s.reg.purgeKeeps cred.pid a <;> simp
  have hmember : ∀ b, (∃ p, s.reg.procs b = some p) →
      (!decide (∃ k ∈ List.range pidhashSz, b ∈ S.chains k) || s.reg.purgeKeeps cred.pid b) =
        s.reg.purgeKeeps cred.pid b := fun b hb => by
    simp only [(hS.mem_chains_range b).mpr hb, decide_True, Bool.not_true, Bool.false_or]
  have hwf : Wf s'.reg (S.filter (s.reg.purgeKeeps cred.pid)) := by
    have hshape : (S.filter fun b => !decide (∃ k ∈ List.range pidhashSz, b ∈ S.chains k) ||
        s.reg.purgeKeeps cred.pid b) = S.filter (s.reg.purgeKeeps cred.pid) := by
      simp only [Shape.filter, Shape.mk.injEq]
      constructor <;> funext i <;> apply List.filter_congr <;> intro b hb
      · obtain ⟨p, hp, -⟩ := (hS.mem_bucket i b).mp hb
        exact hmember b ⟨p, hp⟩
      · obtain ⟨p, hp, -⟩ := (hS.mem_chain i b).mp hb
        exact hmember b ⟨p, hp⟩
    exact hshape ▸ hrun.wf
  refine ⟨hprocs, hwf, ?_⟩
  -- every record left is one the caller cannot claim
  have hkept : ∀ i, ∀ b ∈ (S.filter (s.reg.purgeKeeps cred.pid)).chains i,
      s'.reg.purgeKeeps cred.pid b = true := fun i b hb => by
    have hkb : s.reg.purgeKeeps cred.pid b = true := (List.mem_filter.mp hb).2
    have hbody : (s'.reg.procs b).map Proc.body = (s.reg.procs b).map Proc.body := by
      rw [hprocs b, if_pos hkb]
    rw [purgeKeeps_congr hbody, hkb]
  have hfix : ∀ i, procpurgeChain cred.pid s'.reg.brk s' (s'.reg.pidhash i) = s' := fun i =>
    procpurgeChain_of_keeps cred.pid _ _ _ s' (hwf.chains.rep i) (hkept i)
  have hfold : ∀ L : List Nat,
      L.foldl (fun s i => procpurgeChain cred.pid s.reg.brk s (s.reg.pidhash i)) s' = s' := by
    intro L
    induction L with
    | nil => rfl
    | cons i L ih => rw [List.foldl_cons, hfix i, ih]
  unfold cmdProcpurge
  split
  · rfl
  · exact hfold _

/-- `appA` and `appB` of registrant `1` kept apart from a record of registrant `2`. -/
theorem cmdProcpurge_removes_claimable_mixed :
    ∃ S, Wf twoAppsAndOther S ∧
      (Daemon.atRest defaultProps twoAppsAndOther).useInkernelInterface = false ∧
      (twoAppsAndOther.purgeKeeps 1 0, twoAppsAndOther.purgeKeeps 1 1,
        twoAppsAndOther.purgeKeeps 1 2) = (false, false, true) ∧
      let s' : Daemon := cmdProcpurge (Daemon.atRest defaultProps twoAppsAndOther) ⟨1, 1000⟩
      (∀ a, (s'.reg.procs a).map Proc.body = if twoAppsAndOther.purgeKeeps 1 a then
        (twoAppsAndOther.procs a).map Proc.body else none) ∧
      Wf s'.reg (S.filter (twoAppsAndOther.purgeKeeps 1)) ∧ cmdProcpurge s' ⟨1, 1000⟩ = s' := by
  obtain ⟨S, hS⟩ := twoApps_wf
  have hS' := hS.insert (p := otherApp) (by decide) (by decide)
    (hS.pidLookup_eq_none.mp (by decide)) (by decide)
  exact ⟨_, hS', rfl, by decide,
    cmdProcpurge_removes_claimable (s := Daemon.atRest defaultProps twoAppsAndOther) hS' rfl
      ⟨1, 1000⟩⟩

end Lmkd
