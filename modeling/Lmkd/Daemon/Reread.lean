import Lmkd.Basic

/-!
# Reading a `/proc` file again: `read_all` and `reread_file`

`read_all(fd, buf, max_len)` calls `pread` from the offset it has reached until `max_len`
bytes are read or `pread` returns `0`; `reread_file(data)` reads the file from its start
into the buffer it shares with every file, `buf_size` bytes large, and doubles the buffer
until a read no longer fills it. The kernel is a world that answers each call: `pread` as
`TEMP_FAILURE_RETRY` leaves it, at most the bytes asked for.

`readAll_reads`: on a file that holds `c`, `read_all` reads the first `max_len` bytes of `c`
whatever sizes the kernel splits them into. `rereadFile_reads_whole`: `reread_file` then
returns the whole of `c`, as soon as its loop has the turns to double the buffer past `c`
and its NUL, and leaves `buf_size` a doubling of what it was.
-/

namespace Lmkd

/-- The kernel calls of `reread_file`. `pread offset len` is what
`TEMP_FAILURE_RETRY(pread(fd, buf, len, offset))` reads, `none` for `-1`. -/
structure FileWorld where
  malloc : Bool
  openFd : Option Nat
  pread : Nat → Nat → Option (List Char)
  realloc : Nat → Bool

/-- The loop of `read_all` from `offset`, with `maxLen` bytes still wanted: the bytes read,
`none` for `-1`. A turn that goes on reads a byte at least, so `maxLen` turns are enough. -/
def readAllFrom (pread : Nat → Nat → Option (List Char)) : Nat → Nat → Nat → Option (List Char)
  | 0, _, _ => some []
  | fuel + 1, offset, maxLen =>
    if maxLen = 0 then some []
    else
      match pread offset maxLen with
      | none => none
      | some r =>
        if r = [] then some []
        else (readAllFrom pread fuel (offset + r.length) (maxLen - r.length)).map (r ++ ·)

/-- `read_all(fd, buf, max_len)`: the bytes it reads into `buf`, their number being what it
returns; `none` for `-1`. -/
def readAll (pread : Nat → Nat → Option (List Char)) (maxLen : Nat) : Option (List Char) :=
  readAllFrom pread maxLen 0 maxLen

/-- The loop of `reread_file` on the open descriptor, `fuel` turns at most, from a buffer of
`bufSize` bytes: the text read (`none` for `NULL`), the `buf_size` it leaves, and whether
the descriptor is still open. `none` when the turns run out. -/
def rereadLoop (w : FileWorld) : Nat → Nat → Option (Option (List Char) × Nat × Bool)
  | 0, _ => none
  | fuel + 1, bufSize =>
    match readAll w.pread (bufSize - 1) with
    | none => some (none, bufSize, false)
    | some bytes =>
      if bytes.length < bufSize - 1 then some (some bytes, bufSize, true)
      else if w.realloc (bufSize * 2) then rereadLoop w fuel (bufSize * 2)
      else some (none, bufSize, true)

/-- The statics of `reread_file`: `buf_size`, and whether `buf` is allocated. -/
structure RereadStatics where
  bufSize : Nat
  allocated : Bool
  deriving DecidableEq, Repr

/-- `reread_file(data)` with `data->fd` given as `fd`, `none` for `-1`, and `fuel` turns of
its loop at most: the text (`none` for `NULL`), the statics, and the `data->fd` it leaves.
The text is the bytes read; `buf[size] = 0` ends them for the parsers. -/
def rereadFile (w : FileWorld) (fuel : Nat) (st : RereadStatics) (fd : Option Nat) :
    Option (Option (List Char) × RereadStatics × Option Nat) :=
  let loop (st : RereadStatics) (fd : Nat) :=
    (rereadLoop w fuel st.bufSize).map fun (text, bufSize, isOpen) =>
      (text, { st with bufSize }, if isOpen then some fd else none)
  match fd with
  | some fd => loop st fd
  | none =>
    if !st.allocated && !w.malloc then some (none, st, none)
    else
      let st := { st with allocated := true }
      match w.openFd with
      | none => some (none, st, none)
      | some fd => loop st fd

/-! ## A file that holds `c` -/

/-- `pread` on a file that holds `c` throughout: no error, at most the bytes asked for,
taken from the offset on, and one at least while some remain. -/
def ReadsOf (c : List Char) (pread : Nat → Nat → Option (List Char)) : Prop :=
  ∀ o n, ∃ r, pread o n = some r ∧ r <+: (c.drop o).take n ∧ (r = [] → n = 0 ∨ c.length ≤ o)

/-- A kernel that hands out `c` in pieces of `k` bytes at most. -/
def chunkedReads (c : List Char) (k : Nat) (o n : Nat) : Option (List Char) :=
  some ((c.drop o).take (min n k))

theorem readsOf_chunkedReads (c : List Char) {k : Nat} (hk : 0 < k) :
    ReadsOf c (chunkedReads c k) := by
  intro o n
  refine ⟨_, rfl, ?_, fun h => ?_⟩
  · exact List.take_prefix_take_left _ (min_le_left n k)
  · have := congrArg List.length h
    simp only [List.length_take, List.length_drop, List.length_nil] at this
    omega

theorem readAllFrom_reads {c : List Char} {pread : Nat → Nat → Option (List Char)}
    (hc : ReadsOf c pread) :
    ∀ (fuel offset maxLen : Nat), maxLen ≤ fuel →
      readAllFrom pread fuel offset maxLen = some ((c.drop offset).take maxLen)
  | 0, _, maxLen, h => by rw [Nat.le_zero.mp h]; rfl
  | fuel + 1, offset, maxLen, h => by
    unfold readAllFrom
    by_cases h0 : maxLen = 0
    · rw [if_pos h0, h0]; rfl
    obtain ⟨r, hr, hpre, hnil⟩ := hc offset maxLen
    rw [if_neg h0, hr]
    dsimp only
    by_cases hne : r = []
    · have hle : c.length ≤ offset := (hnil hne).resolve_left h0
      simp [hne, List.drop_eq_nil_of_le hle]
    have hlen : r.length ≤ maxLen := (by simpa using hpre.length_le : _ ∧ _).1
    have hpos : 0 < r.length := List.length_pos.mpr hne
    have hr' : r = (c.drop offset).take r.length :=
      List.prefix_iff_eq_take.mp (hpre.trans (List.take_prefix _ _))
    rw [if_neg hne, readAllFrom_reads hc fuel _ _ (by omega), Option.map_some',
      ← List.drop_drop]
    conv_rhs => rw [← Nat.add_sub_cancel' hlen, List.take_add, ← hr']

/-- On a file that holds `c`, `read_all` reads the first `max_len` bytes of `c`, whatever
sizes the kernel splits them into. -/
theorem readAll_reads {c : List Char} {pread : Nat → Nat → Option (List Char)}
    (hc : ReadsOf c pread) (maxLen : Nat) : readAll pread maxLen = some (c.take maxLen) :=
  readAllFrom_reads hc maxLen 0 maxLen le_rfl

example : readAll (chunkedReads "MemFree: 5 kB\n".toList 3) 7 = some "MemFree".toList := by
  decide

/-- Each turn of the loop of `reread_file` doubles the buffer: with `n + 1` turns it reads a
file that holds `c` whole once `c` and its NUL fit in `n` doublings. -/
theorem rereadLoop_reads {w : FileWorld} {c : List Char} (hc : ReadsOf c w.pread)
    (hre : ∀ n, w.realloc n = true) :
    ∀ (n bufSize : Nat), c.length + 1 < bufSize * 2 ^ n →
      ∃ k, rereadLoop w (n + 1) bufSize = some (some c, bufSize * 2 ^ k, true) ∧
        c.length + 1 < bufSize * 2 ^ k
  | n, bufSize, h => by
    unfold rereadLoop
    rw [readAll_reads hc]
    dsimp only
    by_cases hfit : c.length + 1 < bufSize
    · refine ⟨0, ?_, by simpa using hfit⟩
      rw [if_pos (by simp; omega), List.take_of_length_le (by omega)]
      simp
    rw [if_neg (by simp; omega), if_pos (hre _)]
    cases n with
    | zero => simp at h; omega
    | succ n =>
      have h' : c.length + 1 < bufSize * 2 * 2 ^ n := by rwa [Nat.mul_assoc, ← Nat.pow_succ']
      obtain ⟨k, hk, hlt⟩ := rereadLoop_reads hc hre n (bufSize * 2) h'
      refine ⟨k + 1, ?_, ?_⟩ <;> rwa [Nat.pow_succ', ← Nat.mul_assoc]

/-- However the kernel splits the reads, `reread_file` on a file that holds `c`, open or
opened now, returns the whole of `c` once its loop has the turns to double the buffer past
`c` and its NUL, keeps the descriptor open, and leaves `buf_size` a doubling of what it
was, past the length of `c`. -/
theorem rereadFile_reads_whole {w : FileWorld} {c : List Char} (hc : ReadsOf c w.pread)
    (hre : ∀ n, w.realloc n = true) {st : RereadStatics} {fd : Option Nat}
    (hfd : fd.isSome ∨ ((st.allocated || w.malloc) = true ∧ w.openFd.isSome)) {n : Nat}
    (hn : c.length + 1 < st.bufSize * 2 ^ n) :
    ∃ st' fd', rereadFile w (n + 1) st fd = some (some c, st', some fd') ∧
      c.length + 1 < st'.bufSize ∧ ∃ k, st'.bufSize = st.bufSize * 2 ^ k := by
  obtain ⟨k, hk, hlt⟩ := rereadLoop_reads hc hre n st.bufSize hn
  cases fd with
  | some x => exact ⟨⟨st.bufSize * 2 ^ k, st.allocated⟩, x, by simp [rereadFile, hk], hlt, k, rfl⟩
  | none =>
    obtain ⟨hal, hop⟩ := hfd.resolve_left (by simp)
    obtain ⟨x, hx⟩ := Option.isSome_iff_exists.mp hop
    refine ⟨⟨st.bufSize * 2 ^ k, true⟩, x, ?_, hlt, k, rfl⟩
    have hal' : (!st.allocated && !w.malloc) = false := by
      cases h₁ : st.allocated <;> cases h₂ : w.malloc <;> simp_all
    simp [rereadFile, hal', hx, hk]

theorem rereadFile_reads_whole_chunked :
    let c := "MemFree: 5 kB\n".toList
    let w : FileWorld := ⟨true, some 3, chunkedReads c 3, fun _ => true⟩
    ∃ st' fd', rereadFile w 4 ⟨4, false⟩ none = some (some c, st', some fd') ∧
      c.length + 1 < st'.bufSize ∧ ∃ k, st'.bufSize = 4 * 2 ^ k := by
  intro c w
  exact @rereadFile_reads_whole w c (readsOf_chunkedReads c (k := 3) (by decide)) (fun _ => rfl)
    ⟨4, false⟩ none (.inr ⟨rfl, rfl⟩) 3 (by decide)

end Lmkd
