import Mathlib.Data.List.Basic
import Mathlib.Data.Int.Order.Basic
import Mathlib.Algebra.Group.Int

/-!
# Reading fields of `/proc/<pid>/status`

`parse_status_tag(buf, tag, &out)` and `parse_int64(str, &ret)` over the text of a
NUL-terminated buffer, given as the characters before its NUL. Positions in the buffer
are indices into that list.

The search loop ends within `buf.length + 1` turns and finds the first line that begins
with the tag: a match in the middle of a line is passed over. The number is read by
`strtoll` from what follows the tag and its spaces, so it comes from the tag's own line when
that line holds one, and from a later line when the rest of the tag's line is blank.
-/

namespace Lmkd

/-- `isspace` in the C locale. -/
def isCSpace (c : Char) : Bool :=
  c == ' ' || c == '\t' || c == '\n' || c == '\x0b' || c == '\x0c' || c == '\r'

/-- The value of the decimal digits at the front of a text, after `acc`. -/
def digitsValue (acc : Nat) : List Char → Nat
  | c :: s => if c.isDigit then digitsValue (acc * 10 + (c.toNat - '0'.toNat)) s else acc
  | [] => acc

/-- `strtoll(str, &endptr, 10)`; `none` when no digit is read, so that `endptr == str`.
The value saturates at `LLONG_MIN` and `LLONG_MAX`. -/
def strtoll (str : List Char) : Option Int :=
  let s := str.dropWhile isCSpace
  let (neg, s) := match s with
    | '-' :: s => (true, s)
    | '+' :: s => (false, s)
    | s => (false, s)
  match s with
  | c :: _ =>
    if c.isDigit then
      let v : Int := digitsValue 0 s
      some (if neg then max (-v) (-2 ^ 63) else min v (2 ^ 63 - 1))
    else none
  | [] => none

/-- `parse_int64(str, &ret)`; the test `val > INT64_MAX` never holds of a `long long`. -/
def parseInt64 (str : List Char) : Option Int := strtoll str

/-- `strstr(buf + i, tag)` as an index of `buf`, given the text `s` from index `i` on. -/
def strstrAt (tag : List Char) (i : Nat) : List Char → Option Nat
  | [] => if tag.isEmpty then some i else none
  | c :: s => if tag.isPrefixOf (c :: s) then some i else strstrAt tag (i + 1) s

/-- The search loop of `parse_status_tag`: `pos = strstr(pos, tag)` until the match is at
the start of `buf` or right after a newline, else `pos++`. Each turn moves `pos` forward,
so `buf.length + 1` turns are enough. -/
def findLineTag (buf tag : List Char) : Nat → Nat → Option Nat
  | 0, _ => none
  | n + 1, pos =>
    match strstrAt tag pos (buf.drop pos) with
    | none => none
    | some p =>
      if p = 0 ∨ buf.get? (p - 1) = some '\n' then some p else findLineTag buf tag n (p + 1)

/-- `parse_status_tag(buf, tag, &out)`. -/
def parseStatusTag (buf tag : List Char) : Option Int :=
  match findLineTag buf tag (buf.length + 1) 0 with
  | none => none
  | some p => parseInt64 ((buf.drop (p + tag.length)).dropWhile fun c => c == ' ')

example :
    parseStatusTag "Name:\tx\nTgid:\t42\nVmRSS:  100 kB\n".toList "Tgid:".toList = some 42 := by
  decide
example : parseStatusTag "xTgid: 7\nTgid: 9\n".toList "Tgid:".toList = some 9 := by decide

/-! ## `strtoll` reads one number -/

theorem digitsValue_stop {ys : List Char} (h : ∀ c ∈ ys.head?, c.isDigit = false) (acc : Nat) :
    digitsValue acc ys = acc := by
  cases ys with
  | nil => rfl
  | cons c ys => simp [digitsValue, h c rfl]

theorem digitsValue_append_stop {ys : List Char} (h : ∀ c ∈ ys.head?, c.isDigit = false) :
    ∀ (acc : Nat) (xs : List Char), digitsValue acc (xs ++ ys) = digitsValue acc xs
  | acc, [] => digitsValue_stop h acc
  | acc, c :: xs => by
    simp only [List.cons_append, digitsValue]
    split
    · exact digitsValue_append_stop h _ xs
    · rfl

/-- Text after the number that does not go on with a digit changes nothing. -/
theorem strtoll_append {xs ys : List Char} {v : Int} (h : strtoll xs = some v)
    (hys : ∀ c ∈ ys.head?, c.isDigit = false) : strtoll (xs ++ ys) = some v := by
  unfold strtoll at h ⊢
  rw [List.dropWhile_append]
  rcases hx : xs.dropWhile isCSpace with _ | ⟨c, t⟩
  · rw [hx] at h; simp at h
  rw [hx] at h
  have hd : ∀ d t, digitsValue 0 (d :: (t ++ ys)) = digitsValue 0 (d :: t) :=
    fun d t => digitsValue_append_stop hys 0 (d :: t)
  by_cases h₁ : c = '-'
  · subst h₁
    rcases t with _ | ⟨d, t⟩ <;> simp_all
  by_cases h₂ : c = '+'
  · subst h₂
    rcases t with _ | ⟨d, t⟩ <;> simp_all
  · simp_all

/-- A number on the rest of a line is what `strtoll` reads from there on: the newline
ends it. -/
theorem strtoll_line {s : List Char} {v : Int}
    (h : strtoll ((s.takeWhile (· != '\n')).dropWhile (· == ' ')) = some v) :
    strtoll (s.dropWhile (· == ' ')) = some v := by
  have hnl : ∀ c ∈ (s.dropWhile (· != '\n')).head?, c.isDigit = false := by
    intro c hc
    have := List.head?_dropWhile_not (· != '\n') s
    rw [hc] at this
    simp only [bne_eq_false_iff_eq] at this
    rw [this]; rfl
  rw [← List.takeWhile_append_dropWhile (· != '\n') s, List.dropWhile_append]
  split
  · next he => rw [List.isEmpty_iff.mp he] at h; simp [strtoll] at h
  · exact strtoll_append h hnl

/-! ## The search for the tag -/

/-- A line of `buf` starts at index `p` and begins with `tag`. -/
def TagLineAt (buf tag : List Char) (p : Nat) : Prop :=
  (p = 0 ∨ buf.get? (p - 1) = some '\n') ∧ tag <+: buf.drop p

instance (buf tag : List Char) : DecidablePred (TagLineAt buf tag) :=
  fun _ => inferInstanceAs (Decidable (_ ∧ _))

/-- What a search from `pos` may find: the first index from `pos` on where a line begins
with `tag`, or nothing when no line from there on does. -/
def TagLineFrom (buf tag : List Char) (pos : Nat) : Option Nat → Prop
  | some p => pos ≤ p ∧ TagLineAt buf tag p ∧ ∀ q, pos ≤ q → q < p → ¬TagLineAt buf tag q
  | none => ∀ q, pos ≤ q → ¬TagLineAt buf tag q

theorem TagLineFrom.unique {buf tag : List Char} {pos : Nat} :
    ∀ {o o' : Option Nat}, TagLineFrom buf tag pos o → TagLineFrom buf tag pos o' → o = o'
  | none, none, _, _ => rfl
  | none, some _, h, ⟨hp, ht, _⟩ => absurd ht (h _ hp)
  | some _, none, ⟨hp, ht, _⟩, h => absurd ht (h _ hp)
  | some p, some p', ⟨hp, ht, hf⟩, ⟨hp', ht', hf'⟩ => by
    rcases Nat.lt_trichotomy p p' with h | h | h
    · exact absurd ht (hf' p hp h)
    · rw [h]
    · exact absurd ht' (hf p' hp' h)

/-- A search may start earlier, over indices where no line begins with `tag`. -/
theorem TagLineFrom.of_skip {buf tag : List Char} {pos pos' : Nat} {o : Option Nat}
    (hle : pos ≤ pos') (hskip : ∀ q, pos ≤ q → q < pos' → ¬TagLineAt buf tag q)
    (h : TagLineFrom buf tag pos' o) : TagLineFrom buf tag pos o := by
  cases o with
  | none => exact fun q hq => if hq' : q < pos' then hskip q hq hq' else h q (by omega)
  | some p =>
    obtain ⟨hp, ht, hf⟩ := h
    exact ⟨by omega, ht, fun q hq hqp =>
      if hq' : q < pos' then hskip q hq hq' else hf q (by omega) hqp⟩

theorem tagLineAt_lt {buf tag : List Char} (htag : tag ≠ []) {p : Nat}
    (h : TagLineAt buf tag p) : p < buf.length := by
  have := h.2.length_le
  rw [List.length_drop] at this
  have := List.length_pos_of_ne_nil htag
  omega

/-- `strstr` from index `i` finds the first offset from which `tag` is a prefix. -/
theorem strstrAt_eq_some {tag : List Char} : ∀ {s : List Char} {i j : Nat},
    strstrAt tag i s = some j → ∃ d, j = i + d ∧ tag <+: s.drop d ∧ ∀ e < d, ¬tag <+: s.drop e
  | [], i, j, h => by
    unfold strstrAt at h
    split at h
    · next he =>
      cases h
      exact ⟨0, rfl, by simp [List.isEmpty_iff.mp he], fun e he => absurd he (Nat.not_lt_zero e)⟩
    · cases h
  | c :: s, i, j, h => by
    unfold strstrAt at h
    split at h
    · next hp =>
      cases h
      exact ⟨0, rfl, List.isPrefixOf_iff_prefix.mp hp, fun e he => absurd he (Nat.not_lt_zero e)⟩
    · next hp =>
      obtain ⟨d, rfl, hd, hfirst⟩ := strstrAt_eq_some h
      refine ⟨d + 1, by omega, hd, fun e he => ?_⟩
      cases e with
      | zero => exact fun h => hp (List.isPrefixOf_iff_prefix.mpr h)
      | succ e => exact hfirst e (by omega)

/-- `strstr` finds nothing only when `tag` is a prefix from no offset on. -/
theorem strstrAt_eq_none {tag : List Char} : ∀ {s : List Char} {i : Nat},
    strstrAt tag i s = none → ∀ d, ¬tag <+: s.drop d
  | [], i, h, d => by
    unfold strstrAt at h
    split at h
    · cases h
    · next he => simpa [List.prefix_nil] using he
  | c :: s, i, h, d => by
    unfold strstrAt at h
    split at h
    · cases h
    · next hp =>
      cases d with
      | zero => exact fun h => hp (List.isPrefixOf_iff_prefix.mpr h)
      | succ d => exact strstrAt_eq_none h d

/-- The loop of `parse_status_tag` from `pos`, with a turn for every index left, finds the
first line from `pos` on that begins with `tag`. -/
theorem findLineTag_spec (buf tag : List Char) (htag : tag ≠ []) :
    ∀ n pos, buf.length + 1 ≤ pos + n → TagLineFrom buf tag pos (findLineTag buf tag n pos)
  | 0, pos, h => fun q hq ht => absurd (tagLineAt_lt htag ht) (by omega)
  | n + 1, pos, h => by
    unfold findLineTag
    split
    · next hs => exact fun q hq ht => strstrAt_eq_none hs (q - pos) (by
        rw [List.drop_drop, Nat.add_sub_cancel' hq]; exact ht.2)
    · next j hs =>
      obtain ⟨d, rfl, hd, hfirst⟩ := strstrAt_eq_some hs
      rw [List.drop_drop] at hd
      have hbefore : ∀ q, pos ≤ q → q < pos + d → ¬TagLineAt buf tag q := fun q hq hqd ht =>
        hfirst (q - pos) (by omega) (by rw [List.drop_drop, Nat.add_sub_cancel' hq]; exact ht.2)
      split
      · next hl => exact ⟨by omega, ⟨hl, hd⟩, hbefore⟩
      · next hl =>
        -- a match in the middle of a line: the search goes on from the next index
        refine (findLineTag_spec buf tag htag n (pos + d + 1) (by omega)).of_skip (by omega)
          fun q hq hq' ht => ?_
        rcases Nat.lt_or_ge q (pos + d) with hq'' | hq''
        · exact hbefore q hq hq'' ht
        · exact hl (by rw [show q = pos + d by omega] at ht; exact ht.1)

theorem parseStatusTag_eq (buf tag : List Char) :
    parseStatusTag buf tag = (findLineTag buf tag (buf.length + 1) 0).bind fun p =>
      strtoll ((buf.drop (p + tag.length)).dropWhile (· == ' ')) := by
  unfold parseStatusTag parseInt64
  split <;> simp_all

/-! ## The first line that begins with the tag -/

/-- For every text and non-empty tag, the search ends within `buf.length + 1` turns, and
`parse_status_tag` reads `v` exactly when the first line that begins with the tag is
followed, after spaces, by text from which `strtoll` reads `v`. When the rest of that line
holds a number, `v` is that number. -/
theorem parseStatusTag_first_line (buf tag : List Char) (htag : tag ≠ []) :
    (∀ n, buf.length + 1 ≤ n → findLineTag buf tag n 0 = findLineTag buf tag (buf.length + 1) 0) ∧
    ∀ v, (parseStatusTag buf tag = some v ↔ ∃ p, TagLineAt buf tag p ∧
        (∀ q < p, ¬TagLineAt buf tag q) ∧
        strtoll ((buf.drop (p + tag.length)).dropWhile (· == ' ')) = some v) ∧
      ∀ p, TagLineAt buf tag p → (∀ q < p, ¬TagLineAt buf tag q) →
        strtoll (((buf.drop (p + tag.length)).takeWhile (· != '\n')).dropWhile (· == ' ')) =
          some v → parseStatusTag buf tag = some v := by
  have hspec := findLineTag_spec buf tag htag (buf.length + 1) 0 (by omega)
  have hfirst : ∀ p, findLineTag buf tag (buf.length + 1) 0 = some p ↔
      TagLineAt buf tag p ∧ ∀ q < p, ¬TagLineAt buf tag q := fun p =>
    ⟨fun h => by rw [h] at hspec; exact ⟨hspec.2.1, fun q hq => hspec.2.2 q q.zero_le hq⟩,
      fun ⟨ht, hq⟩ => hspec.unique ⟨p.zero_le, ht, fun q _ => hq q⟩⟩
  have hparse : ∀ v, parseStatusTag buf tag = some v ↔ ∃ p, TagLineAt buf tag p ∧
      (∀ q < p, ¬TagLineAt buf tag q) ∧
      strtoll ((buf.drop (p + tag.length)).dropWhile (· == ' ')) = some v := fun v => by
    simp only [parseStatusTag_eq, Option.bind_eq_some, hfirst, and_assoc]
  refine ⟨fun n hn => (findLineTag_spec buf tag htag n 0 (by omega)).unique hspec,
    fun v => ⟨hparse v, fun p ht hq hv => (hparse v).mpr ⟨p, ht, hq, strtoll_line hv⟩⟩⟩

theorem parseStatusTag_first_line_tgid :
    "Tgid:".toList ≠ [] ∧
      parseStatusTag "Name:\tx\nTgid:\t42\n".toList "Tgid:".toList = some 42 :=
  ⟨by decide, ((parseStatusTag_first_line _ _ (by decide)).2 42).2 8 (by decide) (by decide)
    (by decide)⟩

/-- When the rest of the tag's line is blank, `strtoll` goes past its newline: the value
comes from the next line. -/
theorem parseStatusTag_value_from_next_line :
    parseStatusTag "Tgid:\n5\n".toList "Tgid:".toList = some 5 ∧
    strtoll ((("Tgid:\n5\n".toList.drop 5).takeWhile (· != '\n')).dropWhile (· == ' ')) =
      none :=
  ⟨by decide, by decide⟩

end Lmkd
