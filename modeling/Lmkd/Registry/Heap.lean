import Lmkd.Basic

/-!
# The process registry as pointer-linked memory

`struct proc` records live in a heap of addresses. Each record sits on one chain of
the `pidhash` table (singly linked through `pidhash_next`) and on one circular doubly
linked score bucket of `procadjslot_list` (linked through its `asl` member). Memory
is split by field: the `asl.next` and `asl.prev` members of every record and every
bucket sentinel are the maps `next` and `prev`, the other members of a record are
`procs`. Freeing a record erases its `procs` entry; its links are left dangling,
as in C. `calloc` hands out the never used address `brk`.

The ghost fields `entered` and `clock` are no part of the daemon's memory: `proc_slot`
stamps a record with the time it entered its current bucket.
-/

namespace Lmkd

/-- A pointer into the bucket lists: the sentinel `&procadjslot_list[i]` or
`&procp->asl` of the record at address `a` (`asl` is the first member of
`struct proc`, so this is also the record's address). -/
inductive Ptr where
  | slot (i : Nat)
  | node (a : Nat)
  deriving DecidableEq, Repr

/-- `struct proc` without its `asl` member. -/
structure Proc where
  pid : Int
  pidfd : Int
  uid : Nat
  oomadj : Int
  regPid : Int
  valid : Bool
  pidhashNext : Option Nat
  deriving DecidableEq, Repr

/-- The members of a record other than its chain link. -/
def Proc.body (p : Proc) : Proc := { p with pidhashNext := none }

@[simp] theorem Proc.body_pid (p : Proc) : p.body.pid = p.pid := rfl
@[simp] theorem Proc.body_oomadj (p : Proc) : p.body.oomadj = p.oomadj := rfl

structure Registry where
  next : Ptr → Ptr
  prev : Ptr → Ptr
  procs : Nat → Option Proc
  pidhash : Nat → Option Nat
  brk : Nat
  entered : Nat → Nat
  clock : Nat

/-- The bucket index `ADJTOSLOT(adj)` as an array index. -/
def slotOf (adj : Int) : Nat := (adjtoslot adj).toNat

namespace Registry

/-- The registry right after `init()`: empty chains, every sentinel linked to itself. -/
def init : Registry where
  next := id
  prev := id
  procs := fun _ => none
  pidhash := fun _ => none
  brk := 0
  entered := fun _ => 0
  clock := 0

/-- Update the members of the record at `a`, other than its links. -/
def modifyProc (r : Registry) (a : Nat) (f : Proc → Proc) : Registry :=
  { r with procs := Function.update r.procs a ((r.procs a).map f) }

/-- `procp->oomadj`; the default is never read for an allocated record. -/
def oomadjOf (r : Registry) (a : Nat) : Int := ((r.procs a).map Proc.oomadj).getD 0

/-- `adjslot_insert(head, new_element)`. -/
def adjslotInsert (r : Registry) (head new : Ptr) : Registry :=
  let next := r.next head
  { r with
    prev := Function.update (Function.update r.prev new head) next new
    next := Function.update (Function.update r.next new next) head new }

/-- `adjslot_remove(old)`. -/
def adjslotRemove (r : Registry) (old : Ptr) : Registry :=
  let prev := r.prev old
  let next := r.next old
  { r with
    prev := Function.update r.prev next prev
    next := Function.update r.next prev next }

/-- `adjslot_tail(head)`. -/
def adjslotTail (r : Registry) (head : Ptr) : Option Ptr :=
  if r.prev head = head then none else some (r.prev head)

/-- `proc_slot(procp)`, stamping the ghost entry time. -/
def procSlot (r : Registry) (a : Nat) : Registry :=
  { r.adjslotInsert (.slot (slotOf (r.oomadjOf a))) (.node a) with
    entered := Function.update r.entered a r.clock
    clock := r.clock + 1 }

/-- `proc_unslot(procp)`. -/
def procUnslot (r : Registry) (a : Nat) : Registry := r.adjslotRemove (.node a)

/-- `calloc` followed by the field stores of `register_oom_adj_proc`. -/
def alloc (r : Registry) (p : Proc) : Registry :=
  { r with procs := Function.update r.procs r.brk (some p), brk := r.brk + 1 }

/-- `proc_insert(procp)`. -/
def procInsert (r : Registry) (a : Nat) (pid : Int) : Registry :=
  let hval := pidHashfn pid
  let r := r.modifyProc a fun p => { p with pidhashNext := r.pidhash hval }
  procSlot { r with pidhash := Function.update r.pidhash hval (some a) } a

/-- The chain walk `for (procp = start; procp && procp->pid != pid; procp =
procp->pidhash_next) prevp = procp;`, returning `(prevp, procp)`. At most `fuel`
records are visited. -/
def chainFind (r : Registry) (pid : Int) : Nat → Option Nat → Option Nat → Option Nat × Option Nat
  | 0, prevp, _ => (prevp, none)
  | _ + 1, prevp, none => (prevp, none)
  | n + 1, prevp, some a =>
    match r.procs a with
    | none => (prevp, none)
    | some p => if p.pid = pid then (prevp, some a) else r.chainFind pid n (some a) p.pidhashNext

/-- `pid_lookup(pid)`. -/
def pidLookup (r : Registry) (pid : Int) : Option Nat :=
  (r.chainFind pid r.brk none (r.pidhash (pidHashfn pid))).2

/-- The registry part of `pid_remove(pid)`: unlink the record from its chain and its
bucket and free it. Returns the freed record, or `none` when `pid` has no record. -/
def pidRemove (r : Registry) (pid : Int) : Option (Registry × Proc) :=
  let hval := pidHashfn pid
  match r.chainFind pid r.brk none (r.pidhash hval) with
  | (_, none) => none
  | (prevp, some a) =>
    match r.procs a with
    | none => none
    | some p =>
      let r := match prevp with
        | none => { r with pidhash := Function.update r.pidhash hval p.pidhashNext }
        | some b => r.modifyProc b fun q => { q with pidhashNext := p.pidhashNext }
      let r := r.procUnslot a
      some ({ r with procs := Function.update r.procs a none }, p)

/-- `pid_invalidate(pid)`. -/
def pidInvalidate (r : Registry) (pid : Int) : Registry :=
  match r.pidLookup pid with
  | none => r
  | some a => r.modifyProc a fun p => { p with valid := false }

/-- `claim_record(procp, pid)`. -/
def claimRecord (r : Registry) (a : Nat) (pid : Int) : Bool × Registry :=
  match r.procs a with
  | none => (false, r)
  | some p =>
    if p.regPid = pid then (true, r)
    else if p.regPid = 0 then (true, r.modifyProc a fun q => { q with regPid := pid })
    else (false, r)

/-- The inner loop of `remove_claims(pid)` over one chain. -/
def removeClaimsChain (pid : Int) : Nat → Registry → Option Nat → Registry
  | 0, r, _ => r
  | _ + 1, r, none => r
  | n + 1, r, some a =>
    match r.procs a with
    | none => r
    | some p =>
      let r := if p.regPid = pid then r.modifyProc a fun q => { q with regPid := 0 } else r
      removeClaimsChain pid n r p.pidhashNext

/-- `remove_claims(pid)`. -/
def removeClaims (r : Registry) (pid : Int) : Registry :=
  (List.range pidhashSz).foldl (fun r i => removeClaimsChain pid r.brk r (r.pidhash i)) r

/-! ## Read-back lemmas -/

@[simp] theorem modifyProc_next (r : Registry) (a : Nat) (f : Proc → Proc) :
    (r.modifyProc a f).next = r.next := rfl
@[simp] theorem modifyProc_prev (r : Registry) (a : Nat) (f : Proc → Proc) :
    (r.modifyProc a f).prev = r.prev := rfl
@[simp] theorem modifyProc_pidhash (r : Registry) (a : Nat) (f : Proc → Proc) :
    (r.modifyProc a f).pidhash = r.pidhash := rfl
@[simp] theorem modifyProc_brk (r : Registry) (a : Nat) (f : Proc → Proc) :
    (r.modifyProc a f).brk = r.brk := rfl
@[simp] theorem modifyProc_entered (r : Registry) (a : Nat) (f : Proc → Proc) :
    (r.modifyProc a f).entered = r.entered := rfl
@[simp] theorem modifyProc_clock (r : Registry) (a : Nat) (f : Proc → Proc) :
    (r.modifyProc a f).clock = r.clock := rfl
theorem modifyProc_procs (r : Registry) (a b : Nat) (f : Proc → Proc) :
    (r.modifyProc a f).procs b = if b = a then (r.procs b).map f else r.procs b := by
  by_cases h : b = a
  · subst h; simp [modifyProc]
  · simp [modifyProc, h]

@[simp] theorem adjslotInsert_procs (r : Registry) (h n : Ptr) :
    (r.adjslotInsert h n).procs = r.procs := rfl
@[simp] theorem adjslotInsert_pidhash (r : Registry) (h n : Ptr) :
    (r.adjslotInsert h n).pidhash = r.pidhash := rfl
@[simp] theorem adjslotInsert_brk (r : Registry) (h n : Ptr) :
    (r.adjslotInsert h n).brk = r.brk := rfl
@[simp] theorem adjslotRemove_procs (r : Registry) (o : Ptr) :
    (r.adjslotRemove o).procs = r.procs := rfl
@[simp] theorem adjslotRemove_pidhash (r : Registry) (o : Ptr) :
    (r.adjslotRemove o).pidhash = r.pidhash := rfl
@[simp] theorem adjslotRemove_brk (r : Registry) (o : Ptr) :
    (r.adjslotRemove o).brk = r.brk := rfl
@[simp] theorem adjslotRemove_entered (r : Registry) (o : Ptr) :
    (r.adjslotRemove o).entered = r.entered := rfl
@[simp] theorem adjslotRemove_clock (r : Registry) (o : Ptr) :
    (r.adjslotRemove o).clock = r.clock := rfl

end Registry

end Lmkd
