import Lmkd.Registry.Invariant

/-!
# Claims on records

A record belongs to the registrant whose pid is its `reg_pid`, or to nobody when that is
`0`. `claim_record` lets a registrant take a record that is its own or nobody's, and
`remove_claims(pid)` walks every chain of `pidhash` and gives up the records of `pid`.
Over a registry satisfying the invariant, `remove_claims` releases exactly the records of
`pid` and touches nothing else.
-/

namespace Lmkd

namespace Registry

variable {r : Registry} {S : Shape}

/-- A record as `remove_claims(pid)` leaves it. -/
def release (pid : Int) (p : Proc) : Proc :=
  if p.regPid = pid then { p with regPid := 0 } else p

/-- The registry with every record of `pid` released. -/
def releaseClaims (r : Registry) (pid : Int) : Registry :=
  { r with procs := fun a => (r.procs a).map (release pid) }

/-- The registry with the records at the addresses satisfying `P` released from `pid`. -/
def releaseWhere (r : Registry) (pid : Int) (P : Nat → Prop) [DecidablePred P] : Registry :=
  { r with procs := fun b => if P b then (r.procs b).map (release pid) else r.procs b }

@[simp] theorem release_release (pid : Int) (p : Proc) :
    release pid (release pid p) = release pid p := by
  unfold release
  split_ifs with h₁ h₂ <;> simp_all

@[simp] theorem release_pidhashNext (pid : Int) (p : Proc) :
    (release pid p).pidhashNext = p.pidhashNext := by
  unfold release; split <;> rfl

/-- `claim_record` writes only the registrant; a successful claim leaves the record in
place. -/
theorem Wf.claimRecord (h : Wf r S) {a : Nat} {pid : Int} {ok : Bool} {r' : Registry}
    (hc : r.claimRecord a pid = (ok, r')) : Wf r' S ∧ (ok → ∃ p, r'.procs a = some p) := by
  unfold Registry.claimRecord at hc
  split at hc
  · cases hc; exact ⟨h, by simp⟩
  · rename_i p hp
    split at hc
    · cases hc; exact ⟨h, fun _ => ⟨p, hp⟩⟩
    · split at hc <;> cases hc
      · exact ⟨h.modifyProc fun _ => ⟨rfl, rfl, rfl⟩,
          fun _ => ⟨{ p with regPid := pid }, by simp [modifyProc_procs, hp]⟩⟩
      · exact ⟨h, by simp⟩

theorem Wf.removeClaimsChain (h : Wf r S) (pid : Int) (n : Nat) (c : Option Nat) :
    Wf (removeClaimsChain pid n r c) S := by
  induction n generalizing r c with
  | zero => exact h
  | succ n ih =>
    cases c with
    | none => exact h
    | some a =>
      unfold Registry.removeClaimsChain
      split
      · exact h
      · exact ih (by split_ifs; exacts [h.modifyProc fun _ => ⟨rfl, rfl, rfl⟩, h]) _

theorem Wf.removeClaims (h : Wf r S) (pid : Int) : Wf (r.removeClaims pid) S := by
  unfold Registry.removeClaims
  induction (List.range pidhashSz) generalizing r with
  | nil => exact h
  | cons i l ih => exact ih (h.removeClaimsChain pid _ _)

/-! ## What `remove_claims` does -/

/-- The walk along one chain releases the records of the chain and no other. -/
theorem removeClaimsChain_eq (pid : Int) : ∀ {C : List Nat} {c : Option Nat} {n : Nat}
    {r : Registry}, ChainSeg r c C none → C.length ≤ n → C.Nodup →
    removeClaimsChain pid n r c = r.releaseWhere pid (· ∈ C)
  | [], c, n, r, hC, _, _ => by
    rw [ChainSeg] at hC
    subst hC
    have : removeClaimsChain pid n r none = r := by cases n <;> rfl
    simp only [this, releaseWhere, List.not_mem_nil, if_false]
  | a :: C, c, n, r, ⟨hc, nx, hnx, hC⟩, hlen, hnd => by
    subst hc
    obtain ⟨p, hp, rfl⟩ := Option.map_eq_some'.mp hnx
    obtain ⟨n, rfl⟩ : ∃ m, n = m + 1 := ⟨n - 1, by simp at hlen; omega⟩
    -- the registry after the record at `a` is visited
    set r' : Registry := { r with procs := Function.update r.procs a (some (release pid p)) }
    have hstep : (if p.regPid = pid then r.modifyProc a fun q => { q with regPid := 0 } else r) =
        r' := by
      split_ifs with hreg
      · simp [r', modifyProc, hp, release, hreg]
      · have : release pid p = p := if_neg hreg
        show r = { r with procs := Function.update r.procs a (some (release pid p)) }
        rw [this, ← hp, Function.update_eq_self]
    have hnext : ∀ b ∈ C, r'.hnext b = r.hnext b := fun b _ => by
      by_cases hb : b = a
      · subst hb; simp [r', hnext, hp]
      · simp [r', hnext, Function.update_noteq hb]
    have ha : a ∉ C := (List.nodup_cons.mp hnd).1
    simp only [removeClaimsChain, hp, hstep]
    rw [removeClaimsChain_eq pid (chainSeg_frame hnext hC) (by simpa using hlen)
      (List.nodup_cons.mp hnd).2]
    simp only [releaseWhere]
    congr 1
    funext b
    by_cases hb : b = a
    · subst hb; simp [r', ha, hp]
    · simp [r', hb, Function.update_noteq hb]

/-- The loop over the chains `L` releases the records of those chains. -/
theorem removeClaims_foldl (pid : Int) {C : Nat → List Nat} (L : List Nat) :
    ∀ {r : Registry}, ChainsOk r C → (∀ k, (C k).length ≤ r.brk) →
    L.foldl (fun r i => removeClaimsChain pid r.brk r (r.pidhash i)) r =
      r.releaseWhere pid fun b => ∃ k ∈ L, b ∈ C k := by
  induction L with
  | nil => intro r _ _; simp [releaseWhere]
  | cons i L ih =>
    intro r hC hlen
    rw [List.foldl_cons, removeClaimsChain_eq pid (hC.rep i) (hlen i) (hC.nodup i)]
    rw [ih (r := r.releaseWhere pid (· ∈ C i)) (hC.congr rfl fun k b _ => ?_) hlen]
    · simp only [releaseWhere]
      congr 1
      funext b
      by_cases hi : b ∈ C i <;> simp [hi, Function.comp_def]
    · simp only [hnext, releaseWhere]
      split <;> simp [Option.map_map, Function.comp_def]

/-- Over a registry satisfying the invariant, `remove_claims(pid)` releases exactly the
records of `pid`. -/
theorem Wf.removeClaims_eq (h : Wf r S) (pid : Int) : r.removeClaims pid = r.releaseClaims pid := by
  unfold Registry.removeClaims
  generalize hL : List.range pidhashSz = L
  have hmemL : ∀ k < pidhashSz, k ∈ L := fun k hk => hL ▸ List.mem_range.mpr hk
  -- every record lies on the chain of its pid's hash
  have key : (fun b => if ∃ k ∈ L, b ∈ S.chains k then (r.procs b).map (release pid)
      else r.procs b) = fun b => (r.procs b).map (release pid) := by
    funext b
    cases hb : r.procs b with
    | none => simp only [Option.map_none', ite_self]
    | some p =>
      have hmem : b ∈ S.chains (pidHashfn p.pid) := (h.mem_chain _ b).mpr ⟨p, hb, rfl⟩
      rw [if_pos ⟨_, hmemL _ (pidHashfn_lt p.pid), hmem⟩]
  rw [removeClaims_foldl pid L h.chains h.chain_length_le, releaseClaims, releaseWhere, key]

end Registry

end Lmkd
