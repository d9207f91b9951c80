import Lmkd.Daemon.Zoneinfo
import Mathlib.Algebra.BigOperators.Group.List
import Mathlib.Data.Nat.Digits

/-!
The `/proc/zoneinfo` format that `zoneinfo_parse` documents, rendered from a description of
the nodes and zones (`ZoneinfoText`), and the parse of every well-formed rendering.

A node's zone sections follow each other; the header of the node's first populated zone is
followed by the `  per-node stats` block; a zone section is `pages free`, its field lines,
an optional `protection: (...)` line, `pagesets`, and lines the parse does not read. Of the
fields, `present` appears once in every zone, and `min`, `low` and `high` once in a
populated one; numbers fit in an `int64_t`, node ids in an `int`.

`zoneinfoParse_render`: such a text with a populated zone parses, and the watermarks
`calc_zone_watermarks` computes and the file totals are the sums over the populated zones
and the nodes that hold one. `zoneinfoParse_render_unpopulated`: with no populated zone,
`zoneinfo_parse` returns `-1`, since no node is ever opened.
-/

namespace Lmkd

/-! ## Numbers as the kernel prints them -/

theorem digitChar_facts : ∀ d < 10, (Nat.digitChar d).isDigit = true ∧
    (Nat.digitChar d).toNat - '0'.toNat = d := by decide

theorem toDigitsCore_append : ∀ fuel n (ds : List Char), n < fuel →
    Nat.toDigitsCore 10 fuel n ds = Nat.toDigitsCore 10 fuel n [] ++ ds
  | 0, _, _, h => absurd h (Nat.not_lt_zero _)
  | fuel + 1, n, ds, h => by
    simp only [Nat.toDigitsCore]
    split
    · rfl
    · rw [toDigitsCore_append fuel _ _ (by omega), toDigitsCore_append fuel _ [_] (by omega),
        List.append_assoc, List.singleton_append]

theorem toDigitsCore_fuel : ∀ fuel fuel' n (ds : List Char), n < fuel → n < fuel' →
    Nat.toDigitsCore 10 fuel n ds = Nat.toDigitsCore 10 fuel' n ds
  | 0, _, _, _, h, _ => absurd h (Nat.not_lt_zero _)
  | _, 0, _, _, _, h => absurd h (Nat.not_lt_zero _)
  | fuel + 1, fuel' + 1, n, ds, h, h' => by
    simp only [Nat.toDigitsCore]
    split
    · rfl
    · exact toDigitsCore_fuel fuel fuel' _ _ (by omega) (by omega)

/-- The decimal digits of `n`: those of `n / 10`, then the last one. -/
theorem toDigits_ten (n : Nat) : Nat.toDigits 10 n =
    (if n < 10 then [] else Nat.toDigits 10 (n / 10)) ++ [Nat.digitChar (n % 10)] := by
  rw [Nat.toDigits]
  simp only [Nat.toDigitsCore]
  split
  · rw [if_pos (by omega)]; rfl
  · rw [if_neg (by omega), toDigitsCore_append _ _ _ (by omega), Nat.toDigits,
      toDigitsCore_fuel n (n / 10 + 1) _ _ (by omega) (by omega)]

theorem isDigit_ne {c d : Char} (hc : c.isDigit) (hd : d.isDigit = false) : c ≠ d := by
  rintro rfl; simp_all

theorem isCSpace_of_isDigit {c : Char} (h : c.isDigit) : isCSpace c = false := by
  simp only [isCSpace, Bool.or_eq_false_iff, beq_eq_false_iff_ne]
  refine ⟨⟨⟨⟨⟨?_, ?_⟩, ?_⟩, ?_⟩, ?_⟩, ?_⟩ <;> exact isDigit_ne h (by decide)

theorem isDigit_of_mem_toDigits {n : Nat} {c : Char} (h : c ∈ Nat.toDigits 10 n) :
    c.isDigit := by
  induction n using Nat.strong_induction_on with
  | _ n ih =>
    rw [toDigits_ten] at h
    rcases List.mem_append.mp h with h | h
    · split at h
      · simp at h
      · exact ih _ (by omega) h
    · rw [List.mem_singleton.mp h]; exact (digitChar_facts _ (Nat.mod_lt _ (by omega))).1

theorem toDigits_ne_nil (n : Nat) : Nat.toDigits 10 n ≠ [] := by
  rw [toDigits_ten]; simp

theorem digitsValue_append {xs : List Char} (h : ∀ c ∈ xs, c.isDigit) (acc : Nat)
    (ys : List Char) : digitsValue acc (xs ++ ys) = digitsValue (digitsValue acc xs) ys := by
  induction xs generalizing acc with
  | nil => rfl
  | cons c xs ih =>
    simp only [List.cons_append, digitsValue, h c (.head _), if_true]
    exact ih (fun c' h' => h c' (.tail _ h')) _

theorem digitsValue_toDigits (n : Nat) : digitsValue 0 (Nat.toDigits 10 n) = n := by
  induction n using Nat.strong_induction_on with
  | _ n ih =>
    have hd := digitChar_facts _ (Nat.mod_lt n (by omega : 10 > 0))
    rw [toDigits_ten]
    split
    · simp only [List.nil_append, digitsValue, hd.1, hd.2, if_true]; omega
    · rw [digitsValue_append (fun c => isDigit_of_mem_toDigits), ih _ (by omega)]
      simp only [digitsValue, hd.1, hd.2, if_true]; omega

/-- A number the kernel prints reads back, up to a character that is no digit. -/
theorem digitsValue_toDigits_append (n : Nat) {ys : List Char}
    (h : ∀ c ∈ ys.head?, c.isDigit = false) : digitsValue 0 (Nat.toDigits 10 n ++ ys) = n := by
  rw [digitsValue_append (fun c => isDigit_of_mem_toDigits), digitsValue_toDigits,
    digitsValue_stop h]

theorem toDigits_head (n : Nat) : ∃ c t, Nat.toDigits 10 n = c :: t ∧ c.isDigit := by
  obtain ⟨c, t, e⟩ := List.exists_cons_of_ne_nil (toDigits_ne_nil n)
  exact ⟨c, t, e, isDigit_of_mem_toDigits (e ▸ List.mem_cons_self _ _)⟩

theorem parseInt64_toDigits {n : Nat} (h : n < 2 ^ 63) :
    parseInt64 (Nat.toDigits 10 n) = some (n : Int) := by
  obtain ⟨c, t, e, hc⟩ := toDigits_head n
  have hv := digitsValue_toDigits n
  rw [e] at hv ⊢
  have hs : c ≠ '-' ∧ c ≠ '+' := ⟨isDigit_ne hc (by decide), isDigit_ne hc (by decide)⟩
  simp [parseInt64, strtoll, isCSpace_of_isDigit hc, hc, hv, hs.1, hs.2]
  omega

theorem isDigit_toNat {c : Char} (h : c.isDigit) : 48 ≤ c.toNat ∧ c.toNat ≤ 57 := by
  simp only [Char.isDigit, Bool.and_eq_true, decide_eq_true_eq] at h
  exact ⟨h.1, h.2⟩

theorem baseValue_ten (acc : Nat) : ∀ s, baseValue 10 acc s = digitsValue acc s
  | [] => rfl
  | c :: s => by
    by_cases hc : c.isDigit
    · have := isDigit_toNat hc
      simp only [baseValue, digitsValue, hexDigitValue, hc, if_true]
      rw [if_pos (show c.toNat - '0'.toNat < 10 by rw [show '0'.toNat = 48 from rfl]; omega)]
      exact baseValue_ten _ s
    · simp only [baseValue, digitsValue, hexDigitValue, hc, Bool.false_eq_true, if_false]
      split_ifs <;> simp

theorem toDigits_head_ne_zero {n : Nat} (h : 0 < n) : (Nat.toDigits 10 n).head? ≠ some '0' := by
  induction n using Nat.strong_induction_on with
  | _ n ih =>
    rw [toDigits_ten]
    split
    · have : ∀ d < 10, 0 < d → Nat.digitChar d ≠ '0' := by decide
      simpa [Nat.mod_eq_of_lt ‹n < 10›] using this n ‹_› h
    · obtain ⟨c, t, e, -⟩ := toDigits_head (n / 10)
      have := ih (n / 10) (by omega) (by omega)
      rw [e] at this ⊢
      simpa using this

theorem strtollBase0_toDigits {n : Nat} (h : n < 2 ^ 63) :
    strtollBase0 (Nat.toDigits 10 n) = n := by
  rcases Nat.eq_zero_or_pos n with rfl | hn
  · rfl
  obtain ⟨c, t, e, hc⟩ := toDigits_head n
  have h0 : c ≠ '0' := by simpa [e] using toDigits_head_ne_zero hn
  have hv := digitsValue_toDigits n
  rw [e] at hv ⊢
  have hs : c ≠ '-' ∧ c ≠ '+' := ⟨isDigit_ne hc (by decide), isDigit_ne hc (by decide)⟩
  simp [strtollBase0, scanSign, isCSpace_of_isDigit hc, hs.1, hs.2, h0, baseValue_ten, hv]
  omega

/-! ## Field names -/

theorem findField_eq_none {a : List Char} {names : List (List Char)} (h : a ∉ names) :
    findField a names = none := by
  simp only [findField, List.indexOf?_eq_none_iff, beq_iff_eq]
  exact fun x hx e => h (e ▸ hx)

theorem findField_get {a : List Char} {names : List (List Char)} {i : Nat}
    (h : findField a names = some i) : names[i]? = some a := by
  have := List.findIdx?_of_eq_some h
  split at this
  · rename_i b hb; rw [hb]; simpa using this
  · simp at this

/-- Two names found at the same index are the same. -/
theorem findField_inj {a b : List Char} {names : List (List Char)} {i : Nat}
    (ha : findField a names = some i) (hb : findField b names = some i) : a = b :=
  Option.some.inj ((findField_get ha).symm.trans (findField_get hb))

/-! ## Field lines -/

/-- A line `<indent> <name> <gap> <value>` of a zone or of the per-node block. -/
structure FieldLine where
  indent : Nat
  name : List Char
  gap : Nat
  value : Nat
  deriving DecidableEq, Repr

/-- The text of a field line; it starts with a space, so it is no header. -/
def FieldLine.render (l : FieldLine) : List Char :=
  List.replicate (l.indent + 1) ' ' ++
    (l.name ++ (List.replicate (l.gap + 1) ' ' ++ Nat.toDigits 10 l.value))

/-- A field line the parse reads: a name without a blank, a value that fits in an
`int64_t`. -/
@[mk_iff] structure FieldLine.Ok (l : FieldLine) : Prop where
  name_ne : l.name ≠ []
  name_blank : ∀ c ∈ l.name, c ≠ ' ' ∧ c ≠ '\n'
  value_lt : l.value < 2 ^ 63

instance (l : FieldLine) : Decidable l.Ok := decidable_of_iff _ (FieldLine.ok_iff l).symm

theorem digit_not_mem {delim : List Char} (h : ∀ c ∈ delim, c.isDigit = false) {n : Nat} :
    ∀ c ∈ Nat.toDigits 10 n, c ∉ delim :=
  fun c hc hd => by simpa [isDigit_of_mem_toDigits hc] using h c hd

/-- The two words of a field line. -/
theorem FieldLine.strtokR_render {l : FieldLine} (hl : l.Ok) :
    strtokR [' '] l.render = some (l.name, List.replicate l.gap ' ' ++ Nat.toDigits 10 l.value) ∧
      strtokR [' '] (List.replicate l.gap ' ' ++ Nat.toDigits 10 l.value) =
        some (Nat.toDigits 10 l.value, []) := by
  constructor
  · rw [FieldLine.render, strtokR_word (by simp) hl.name_ne
      (fun c hc => by simpa using (hl.name_blank c hc).1) (by simp [List.replicate_succ])]
    simp [List.replicate_succ]
  · simpa using @strtokR_word [' '] _ _ [] (by simp) (toDigits_ne_nil _)
      (digit_not_mem (by decide))
      (by simp)

/-- The fields after the lines `L`: each line named in `names` sets the field of its
index. -/
def fieldsAfter (names : List (List Char)) (L : List FieldLine) (f : Nat → Int) : Nat → Int :=
  L.foldl (fun f l => match findField l.name names with
    | some i => Function.update f i l.value
    | none => f) f

theorem matchField_render {l : FieldLine} (hl : l.Ok) (names : List (List Char)) :
    matchField l.name (Nat.toDigits 10 l.value) names =
      match findField l.name names with
      | none => .noMatch
      | some i => .parseSuccess i l.value := by
  cases h : findField l.name names <;> simp [matchField, h, parseInt64_toDigits hl.value_lt]

theorem zoneinfoParseZone_fieldLine {l : FieldLine} (hl : l.Ok)
    (hs : l.name ∉ zoneinfoZoneSpecFieldNames) (lines : List (List Char)) (z : ZoneinfoZone) :
    zoneinfoParseZone true (l.render :: lines) z =
      match findField l.name zoneinfoZoneFieldNames with
      | none => zoneinfoParseZone true lines z
      | some i =>
        if i = ziZonePresent ∧ (l.value : Int) = 0 then
          .ok (true, { z with fields := Function.update z.fields i l.value }, lines)
        else zoneinfoParseZone true lines { z with fields := Function.update z.fields i l.value } := by
  obtain ⟨h₁, h₂⟩ := FieldLine.strtokR_render hl
  simp only [zoneinfoParseZone, h₁, h₂, findField_eq_none hs, matchField_render hl]
  cases findField l.name zoneinfoZoneFieldNames <;> rfl

theorem fieldsAfter_cons (names : List (List Char)) (l : FieldLine) (L : List FieldLine)
    (f : Nat → Int) : fieldsAfter names (l :: L) f = fieldsAfter names L
      (match findField l.name names with
       | some i => Function.update f i l.value
       | none => f) := rfl

theorem findField_present : findField "present".toList zoneinfoZoneFieldNames = some ziZonePresent := by
  decide

/-- Field lines, none of them `present 0`, set their fields one after another. -/
theorem zoneinfoParseZone_fieldLines (lines : List (List Char)) :
    ∀ (L : List FieldLine) (z : ZoneinfoZone),
      (∀ l ∈ L, l.Ok ∧ l.name ∉ zoneinfoZoneSpecFieldNames ∧
        (l.name = "present".toList → l.value ≠ 0)) →
      zoneinfoParseZone true (L.map FieldLine.render ++ lines) z =
        zoneinfoParseZone true lines { z with fields := fieldsAfter zoneinfoZoneFieldNames L z.fields }
  | [], z, _ => rfl
  | l :: L, z, h => by
    obtain ⟨hl, hs, hp⟩ := h l (.head _)
    have ih := zoneinfoParseZone_fieldLines lines L
    rw [List.map_cons, List.cons_append, zoneinfoParseZone_fieldLine hl hs, fieldsAfter_cons]
    cases hf : findField l.name zoneinfoZoneFieldNames with
    | none => exact ih z fun l' h' => h l' (.tail _ h')
    | some i =>
      have hstop : ¬(i = ziZonePresent ∧ (l.value : Int) = 0) := fun ⟨hi, hv⟩ =>
        hp (findField_inj hf (hi ▸ findField_present)) (by exact_mod_cast hv)
      dsimp only; rw [if_neg hstop]
      exact ih _ fun l' h' => h l' (.tail _ h')

/-! ## The lines of a zone -/

/-- The text of a `protection:` line that `zoneinfo_parse_protection` reads, `(` included,
the closing `)` excluded. -/
def protectionText : List Nat → List Char
  | [] => ['(']
  | p :: ps => '(' :: (Nat.toDigits 10 p ++ ps.flatMap fun q => ',' :: ' ' :: Nat.toDigits 10 q)

def protectionLine (ps : List Nat) : List Char :=
  "        protection: ".toList ++ (protectionText ps ++ [')'])

def pagesFreeLine (v : Nat) : List Char := "  pages free ".toList ++ Nat.toDigits 10 v

def pagesetsLine : List Char := "  pagesets".toList

theorem zoneinfoParseZone_pagesFree (v : Nat) (lines : List (List Char)) (z : ZoneinfoZone) :
    zoneinfoParseZone true (pagesFreeLine v :: lines) z = zoneinfoParseZone true lines z := by
  have h₁ : strtokR [' '] (pagesFreeLine v) = some ("pages".toList, "free ".toList ++ Nat.toDigits 10 v) :=
    @strtokR_word [' '] [' ', ' '] "pages".toList (" free ".toList ++ Nat.toDigits 10 v)
      (by simp) (by simp) (by decide) (by simp)
  have h₂ : strtokR [' '] ("free ".toList ++ Nat.toDigits 10 v) = some ("free".toList, Nat.toDigits 10 v) :=
    @strtokR_word [' '] [] "free".toList (" ".toList ++ Nat.toDigits 10 v)
      (by simp) (by simp) (by decide) (by simp)
  have h₃ : findField "pages".toList zoneinfoZoneSpecFieldNames = none := by decide
  have h₄ : findField "pages".toList zoneinfoZoneFieldNames = none := by decide
  simp only [zoneinfoParseZone, h₁, h₂, h₃, h₄, matchField]

theorem zoneinfoParseZone_pagesets (lines : List (List Char)) (z : ZoneinfoZone) :
    zoneinfoParseZone true (pagesetsLine :: lines) z = .ok (true, z, lines) := rfl

theorem length_le_protectionTail (qs : List Nat) :
    qs.length ≤ (qs.flatMap fun q => ',' :: ' ' :: Nat.toDigits 10 q).length := by
  induction qs with
  | nil => simp
  | cons q qs ih =>
    simp only [List.flatMap_cons, List.length_append, List.length_cons]
    omega

theorem strtokAllAux_protection : ∀ (qs : List Nat) (q : Nat) (pre : List Char) (fuel : Nat),
    (∀ c ∈ pre, c ∈ "), ".toList) → qs.length < fuel →
    strtokAllAux "), ".toList fuel
        (pre ++ (Nat.toDigits 10 q ++ qs.flatMap fun q => ',' :: ' ' :: Nat.toDigits 10 q)) =
      Nat.toDigits 10 q :: qs.map (Nat.toDigits 10)
  | _, _, _, 0, _, h => absurd h (Nat.not_lt_zero _)
  | qs, q, pre, fuel + 1, hpre, hlen => by
    rw [strtokAllAux, strtokR_word hpre (toDigits_ne_nil q) (digit_not_mem (by decide))
      (by cases qs <;> simp)]
    cases qs with
    | nil => cases fuel <;> rfl
    | cons q' qs =>
      simp only [List.flatMap_cons, List.cons_append, List.drop_succ_cons, List.drop_zero,
        List.map_cons]
      exact congrArg _ (strtokAllAux_protection qs q' [' '] fuel (by simp) (by simp at hlen; omega))

theorem foldl_max_cast (ps : List Nat) (a : Nat) :
    (ps.map fun p : Nat => (p : Int)).foldl max (a : Int) = ((ps.foldl max a : Nat) : Int) := by
  induction ps generalizing a with
  | nil => rfl
  | cons p ps ih =>
    simp only [List.map_cons, List.foldl_cons]
    rw [show max (a : Int) (p : Int) = ((max a p : Nat) : Int) by omega, ih]

theorem zoneinfoParseProtection_text {ps : List Nat} (hlen : ps.length ≤ maxNrZones)
    (hv : ∀ p ∈ ps, p < 2 ^ 63) (z : ZoneinfoZone) :
    (zoneinfoParseProtection (protectionText ps) z).maxProtection = ((ps.foldl max 0 : Nat) : Int) := by
  cases ps with
  | nil => rfl
  | cons p qs =>
    have h₁ : strtokR "(), ".toList (protectionText (p :: qs)) =
        some (Nat.toDigits 10 p, (qs.flatMap fun q => ',' :: ' ' :: Nat.toDigits 10 q).drop 1) :=
      @strtokR_word _ ['('] _ _ (by decide) (toDigits_ne_nil p) (digit_not_mem (by decide))
        (by cases qs <;> simp)
    have h₂ : strtokAll "), ".toList ((qs.flatMap fun q => ',' :: ' ' :: Nat.toDigits 10 q).drop 1) =
        qs.map (Nat.toDigits 10) := by
      cases qs with
      | nil => rfl
      | cons q qs =>
        simp only [List.flatMap_cons, List.cons_append, List.drop_succ_cons, List.drop_zero]
        exact strtokAllAux_protection qs q [' '] _ (by simp)
          (by
            have := length_le_protectionTail qs
            simp only [List.length_append, List.length_singleton, List.length_cons]
            omega)
    have h₃ : ((p :: qs).map (Nat.toDigits 10)).take maxNrZones = (p :: qs).map (Nat.toDigits 10) :=
      List.take_of_length_le (by simpa using hlen)
    simp only [zoneinfoParseProtection, h₁, h₂, ← List.map_cons, h₃, List.map_map]
    rw [List.map_congr_left (f := strtollBase0 ∘ Nat.toDigits 10) (g := fun q : Nat => (q : Int))
      fun q hq => strtollBase0_toDigits (hv q hq), ← foldl_max_cast]
    rfl

theorem protectionText_ne (ps : List Nat) : ∀ c ∈ protectionText ps, c ∉ [')'] := by
  cases ps with
  | nil => decide
  | cons p qs =>
    intro c hc
    simp only [protectionText, List.mem_cons, List.mem_append, List.mem_flatMap] at hc
    rcases hc with rfl | hc | ⟨q, -, rfl | rfl | hc⟩
    · decide
    · exact digit_not_mem (by decide) c hc
    · decide
    · decide
    · exact digit_not_mem (by decide) c hc

theorem zoneinfoParseZone_protection (ps : List Nat) (lines : List (List Char))
    (z : ZoneinfoZone) :
    zoneinfoParseZone true (protectionLine ps :: lines) z =
      zoneinfoParseZone true lines (zoneinfoParseProtection (protectionText ps) z) := by
  have h₁ : strtokR [' '] (protectionLine ps) =
      some ("protection:".toList, protectionText ps ++ [')']) :=
    @strtokR_word [' '] (List.replicate 8 ' ') "protection:".toList
      (' ' :: (protectionText ps ++ [')'])) (by simp) (by simp) (by decide) (by simp)
  have h₂ : strtokR [')'] (protectionText ps ++ [')']) = some (protectionText ps, []) := by
    simpa using @strtokR_word [')'] [] _ [')'] (by simp)
      (by cases ps <;> simp [protectionText]) (protectionText_ne ps) (by simp)
  have h₃ : findField "protection:".toList zoneinfoZoneSpecFieldNames = some 0 := by decide
  simp only [zoneinfoParseZone, h₁, h₂, h₃]
  rfl

/-- A `present 0` line ends the zone. -/
theorem zoneinfoParseZone_presentZero {l : FieldLine} (hl : l.Ok)
    (hp : l.name = "present".toList) (hv : l.value = 0) (lines : List (List Char))
    (z : ZoneinfoZone) :
    zoneinfoParseZone true (l.render :: lines) z =
      .ok (true, { z with fields := Function.update z.fields ziZonePresent 0 }, lines) := by
  rw [zoneinfoParseZone_fieldLine hl (by rw [hp]; decide), hp, findField_present]
  simp [hv]

/-- The value of the first line named `name`, `0` if there is none. -/
def valueOf (L : List FieldLine) (name : List Char) : Nat :=
  ((L.find? fun l => l.name == name).map FieldLine.value).getD 0

section Unique
variable {names : List (List Char)} {name : List Char} {i : Nat}

theorem fieldsAfter_of_countP_eq_zero (hi : findField name names = some i) :
    ∀ (L : List FieldLine) (f : Nat → Int), L.countP (·.name == name) = 0 →
      fieldsAfter names L f i = f i
  | [], _, _ => rfl
  | l :: L, f, h => by
    have hl : l.name ≠ name := by simpa using (List.countP_eq_zero.mp h) l (.head _)
    rw [fieldsAfter_cons, fieldsAfter_of_countP_eq_zero hi L _ (by simpa [hl] using h)]
    cases hj : findField l.name names with
    | none => rfl
    | some j =>
      exact Function.update_noteq (fun (e : i = j) => hl (findField_inj hj (e ▸ hi))) _ _

theorem fieldsAfter_of_countP_eq_one (hi : findField name names = some i) :
    ∀ (L : List FieldLine) (f : Nat → Int), L.countP (·.name == name) = 1 →
      fieldsAfter names L f i = valueOf L name
  | [], _, h => by simp at h
  | l :: L, f, h => by
    rw [fieldsAfter_cons]
    by_cases hl : l.name = name
    · rw [hl, hi, fieldsAfter_of_countP_eq_zero hi L _ (by simpa [hl] using h)]
      simp [valueOf, hl]
    · rw [fieldsAfter_of_countP_eq_one hi L _ (by simpa [hl] using h)]
      simp [valueOf, hl]

/-- The one line of a name carries the value `valueOf` reads. -/
theorem value_eq_valueOf {l : FieldLine} :
    ∀ {L : List FieldLine}, l ∈ L → l.name = name → L.countP (·.name == name) = 1 →
      l.value = valueOf L name
  | l' :: L, hm, hn, h => by
    by_cases hl : l'.name = name
    · have h0 : L.countP (·.name == name) = 0 := by simpa [hl] using h
      rcases List.mem_cons.mp hm with rfl | hm
      · simp [valueOf, hl]
      · exact absurd h0 (List.countP_pos_iff.mpr ⟨l, hm, by simpa using hn⟩).ne'
    · rcases List.mem_cons.mp hm with rfl | hm
      · exact absurd hn hl
      · rw [value_eq_valueOf hm hn (by simpa [hl] using h)]
        simp [valueOf, hl]

end Unique

theorem valueOf_le_sum (L : List FieldLine) (name : List Char) :
    valueOf L name ≤ (L.map (·.value)).sum := by
  unfold valueOf
  cases h : L.find? (·.name == name) with
  | none => exact Nat.zero_le _
  | some l =>
    simpa using List.le_sum_of_mem (List.mem_map_of_mem FieldLine.value (List.mem_of_find?_eq_some h))

/-- A field after the lines `L` holds its first value or the value of one of the lines. -/
theorem fieldsAfter_mem (names : List (List Char)) :
    ∀ (L : List FieldLine) (f : Nat → Int) (i : Nat),
      fieldsAfter names L f i = f i ∨ ∃ l ∈ L, fieldsAfter names L f i = l.value
  | [], _, _ => .inl rfl
  | l :: L, f, i => by
    rw [fieldsAfter_cons]
    rcases fieldsAfter_mem names L _ i with h | ⟨l', hl', h⟩
    · rw [h]
      cases findField l.name names with
      | none => exact .inl rfl
      | some j =>
        by_cases hij : i = j
        · subst hij; exact .inr ⟨l, .head _, Function.update_same _ _ _⟩
        · exact .inl (Function.update_noteq hij _ _)
    · exact .inr ⟨l', .tail _ hl', h⟩

theorem foldl_max_le_sum : ∀ (ps : List Nat) (a : Nat), ps.foldl max a ≤ a + ps.sum
  | [], _ => Nat.le_add_right _ _
  | p :: ps, a => by
    have := foldl_max_le_sum ps (max a p)
    simp only [List.foldl_cons, List.sum_cons]
    omega

/-! ## Zone sections -/

/-- A zone section: the name in its header, the spaces before the name, `pages free`, the
field lines, the `protection:` values if the line is there, and the lines after
`pagesets`. -/
structure ZoneText where
  name : List Char
  pad : Nat
  free : Nat
  fields : List FieldLine
  protection : Option (List Nat)
  unused : List (List Char)
  deriving DecidableEq, Repr

namespace ZoneText

/-- The lines of the section up to its `pagesets`. -/
def lines (z : ZoneText) : List (List Char) :=
  pagesFreeLine z.free :: (z.fields.map FieldLine.render ++
    (z.protection.toList.map protectionLine ++ [pagesetsLine]))

def body (z : ZoneText) : List (List Char) := z.lines ++ z.unused

/-- `present != 0`. -/
def populated (z : ZoneText) : Bool := valueOf z.fields "present".toList != 0

def maxProtection (z : ZoneText) : Nat := (z.protection.getD []).foldl max 0

/-- The numbers of the section the parse reads: the values of its field lines and of its
protection line. -/
def numbers (z : ZoneText) : Nat := (z.fields.map (·.value)).sum + (z.protection.getD []).sum

/-- The zone `calc_zone_watermarks` should see for a populated section. -/
def expected (z : ZoneText) : Zone :=
  ⟨true, z.maxProtection, valueOf z.fields "high".toList, valueOf z.fields "low".toList,
    valueOf z.fields "min".toList⟩

/-- A well-formed section: a name with no blank, field lines none of which is named as a
special field, `present` once, `min`, `low` and `high` once when the zone is populated, at
most `MAX_NR_ZONES` protection values, and lines after `pagesets` that start with a
space. -/
@[mk_iff] structure Ok (z : ZoneText) : Prop where
  name_ne : z.name ≠ []
  name_space : ∀ c ∈ z.name, isCSpace c = false
  fields_ok : ∀ l ∈ z.fields, l.Ok ∧ l.name ∉ zoneinfoZoneSpecFieldNames
  present_once : z.fields.countP (·.name == "present".toList) = 1
  fields_once : z.populated →
    ∀ n ∈ ["min", "low", "high"], z.fields.countP (·.name == n.toList) = 1
  protection_ok : ∀ ps ∈ z.protection, ps.length ≤ maxNrZones ∧ ∀ p ∈ ps, p < 2 ^ 63
  unused_ok : ∀ u ∈ z.unused, u.head? = some ' ' ∧ '\n' ∉ u

instance (z : ZoneText) : Decidable z.Ok := decidable_of_iff _ (ok_iff z).symm

theorem value_le_numbers {z : ZoneText} {l : FieldLine} (h : l ∈ z.fields) :
    l.value ≤ z.numbers :=
  (List.le_sum_of_mem (List.mem_map_of_mem _ h)).trans (Nat.le_add_right _ _)

theorem expected_le (z : ZoneText) (name : List Char) :
    z.maxProtection + valueOf z.fields name ≤ z.numbers := by
  have h₁ := foldl_max_le_sum (z.protection.getD []) 0
  have h₂ := valueOf_le_sum z.fields name
  unfold maxProtection numbers
  omega

/-- How a zone of the text and the zone the parse keeps agree: a populated zone is read as
it should be; an empty one is not counted, and the `high` the totals loop adds for it is
`0` or the value of one of its lines. -/
def Agrees (zt : ZoneText) (z : Zone) : Prop :=
  if zt.populated then z = zt.expected
  else z.present = false ∧ z.maxProtection = 0 ∧ 0 ≤ z.high ∧ z.high ≤ zt.numbers

/-- A kept zone reads no negative field, and what the totals loop adds for it is within
the numbers of its section. -/
theorem Agrees.bounds {zt : ZoneText} {z : Zone} (h : zt.Agrees z) :
    z.Nonneg ∧ z.maxProtection + z.high ≤ zt.numbers := by
  unfold Agrees at h
  split at h
  · subst h
    have := zt.expected_le "high".toList
    refine ⟨⟨?_, ?_, fun _ => ⟨?_, ?_⟩⟩, ?_⟩ <;> simp only [expected] <;> omega
  · obtain ⟨hp, hm, h₀, h₁⟩ := h
    exact ⟨⟨hm.ge, h₀, fun e => absurd e (by simp [hp])⟩, by omega⟩

end ZoneText

theorem scanNodeHeader_indented {l : List Char} (h : l.head? = some ' ') :
    scanNodeHeader l = .ok none := by
  cases l with
  | nil => simp at h
  | cons c l => simp at h; subst h; rfl

theorem FieldLine.render_head (l : FieldLine) : l.render.head? = some ' ' := by
  simp [FieldLine.render, List.replicate_succ]

theorem present_mem_zoneFieldNames : "present".toList ∈ zoneinfoZoneFieldNames := by decide

theorem ZoneinfoZone.toZone_eq {z : ZoneinfoZone} {zt : ZoneText} (hp : zt.populated = true)
    (hf : ∀ n ∈ ["min", "low", "high", "present"], ∀ i, findField n.toList zoneinfoZoneFieldNames = some i →
      z.fields i = valueOf zt.fields n.toList)
    (hm : z.maxProtection = zt.maxProtection) : z.toZone = zt.expected := by
  have hpv : valueOf zt.fields "present".toList ≠ 0 := by simpa [ZoneText.populated] using hp
  simp only [ZoneinfoZone.toZone, ZoneText.expected, hm,
    hf "present" (by simp) ziZonePresent (by decide), hf "min" (by simp) ziZoneMin (by decide),
    hf "low" (by simp) ziZoneLow (by decide), hf "high" (by simp) ziZoneHigh (by decide)]
  simpa using hpv

/-- A populated zone, after lines that name no field of a zone, is read whole, up to its
`pagesets`. -/
theorem ZoneText.parse_populated {zt : ZoneText} (hz : zt.Ok) (hp : zt.populated = true)
    (pre : List FieldLine)
    (hpre : ∀ l ∈ pre, l.Ok ∧ l.name ∉ zoneinfoZoneSpecFieldNames ∧ l.name ∉ zoneinfoZoneFieldNames)
    {z : ZoneinfoZone} (hz0 : z.maxProtection = 0) :
    ∃ z', (∀ rest, zoneinfoParseZone true (pre.map FieldLine.render ++ (zt.lines ++ rest)) z =
      .ok (true, z', rest)) ∧ z'.toZone = zt.expected := by
  have hpv : valueOf zt.fields "present".toList ≠ 0 := by simpa [ZoneText.populated] using hp
  have hpre' : ∀ l ∈ pre, l.Ok ∧ l.name ∉ zoneinfoZoneSpecFieldNames ∧
      (l.name = "present".toList → l.value ≠ 0) := fun l hl =>
    ⟨(hpre l hl).1, (hpre l hl).2.1, fun e => absurd (e ▸ present_mem_zoneFieldNames) (hpre l hl).2.2⟩
  have hfields : ∀ l ∈ zt.fields, l.Ok ∧ l.name ∉ zoneinfoZoneSpecFieldNames ∧
      (l.name = "present".toList → l.value ≠ 0) := fun l hl =>
    ⟨(hz.fields_ok l hl).1, (hz.fields_ok l hl).2,
      fun e => (value_eq_valueOf hl e hz.present_once).trans_ne hpv⟩
  have hrun : ∀ rest, zoneinfoParseZone true (pre.map FieldLine.render ++ (zt.lines ++ rest)) z =
      zoneinfoParseZone true (zt.protection.toList.map protectionLine ++ (pagesetsLine :: rest))
        { z with fields := (fieldsAfter zoneinfoZoneFieldNames zt.fields
          (fieldsAfter zoneinfoZoneFieldNames pre z.fields)) } := fun rest => by
    rw [ZoneText.lines, List.cons_append, List.append_assoc, List.append_assoc,
      zoneinfoParseZone_fieldLines _ pre z hpre', zoneinfoParseZone_pagesFree,
      zoneinfoParseZone_fieldLines _ zt.fields _ hfields]
    rfl
  have hval : ∀ f, ∀ n ∈ ["min", "low", "high", "present"], ∀ i,
      findField n.toList zoneinfoZoneFieldNames = some i →
      fieldsAfter zoneinfoZoneFieldNames zt.fields f i = valueOf zt.fields n.toList := by
    intro f n hn i hi
    refine fieldsAfter_of_countP_eq_one hi _ _ ?_
    simp only [List.mem_cons, List.mem_singleton, List.not_mem_nil, or_false] at hn
    rcases hn with rfl | rfl | rfl | rfl
    all_goals first | exact hz.present_once | exact hz.fields_once hp _ (by simp)
  cases hprot : zt.protection with
  | none =>
    refine ⟨_, fun rest => by simpa [hrun, hprot] using zoneinfoParseZone_pagesets _ _,
      ZoneinfoZone.toZone_eq hp (hval _) ?_⟩
    simp [ZoneText.maxProtection, hprot, hz0]
  | some ps =>
    obtain ⟨hlen, hv⟩ := hz.protection_ok ps hprot
    refine ⟨_, fun rest => by
      simpa [hrun, hprot] using (zoneinfoParseZone_protection ps _ _).trans (zoneinfoParseZone_pagesets _ _),
      ZoneinfoZone.toZone_eq hp (hval _) ?_⟩
    simp [zoneinfoParseProtection_text hlen hv, ZoneText.maxProtection, hprot]

theorem exists_split_of_countP_eq_one {α} {p : α → Bool} :
    ∀ {L : List α}, L.countP p = 1 → ∃ A x C, L = A ++ x :: C ∧ p x ∧ A.countP p = 0
  | [], h => by simp at h
  | a :: L, h => by
    by_cases ha : p a
    · exact ⟨[], a, L, rfl, ha, rfl⟩
    · obtain ⟨A, x, C, rfl, hx, hA⟩ := exists_split_of_countP_eq_one (by simpa [ha] using h)
      exact ⟨a :: A, x, C, rfl, hx, by simpa [ha] using hA⟩

/-- The lines of a zone after the line where its parse stops are no header. -/
theorem ZoneText.tail_indented (zt : ZoneText) (hz : zt.Ok) (C : List FieldLine) :
    ∀ l ∈ C.map FieldLine.render ++ (zt.protection.toList.map protectionLine ++
      [pagesetsLine]) ++ zt.unused, scanNodeHeader l = .ok none := by
  intro l hl
  apply scanNodeHeader_indented
  simp only [List.mem_append, List.mem_map, List.mem_singleton, Option.mem_toList] at hl
  rcases hl with (⟨f, -, rfl⟩ | ⟨ps, -, rfl⟩ | rfl) | hu
  · exact f.render_head
  · rfl
  · rfl
  · exact (hz.unused_ok l hu).1

/-- An empty zone is read up to its `present 0` line. -/
theorem ZoneText.parse_unpopulated {zt : ZoneText} (hz : zt.Ok) (hp : zt.populated = false) :
    ∃ B L, zt.body = B ++ L ∧ (∀ l ∈ L, scanNodeHeader l = .ok none) ∧
      ∃ z', (∀ rest, zoneinfoParseZone true (B ++ rest) ZoneinfoZone.zero =
        .ok (true, z', rest)) ∧ zt.Agrees z'.toZone := by
  obtain ⟨A, l, C, hsplit, hl, hA⟩ := exists_split_of_countP_eq_one hz.present_once
  have hname : l.name = "present".toList := by simpa using hl
  have hmem : l ∈ zt.fields := hsplit ▸ List.mem_append_right _ (.head _)
  have hv : l.value = 0 := by
    rw [value_eq_valueOf hmem hname hz.present_once]; simpa [ZoneText.populated] using hp
  refine ⟨pagesFreeLine zt.free :: (A.map FieldLine.render ++ [l.render]),
    C.map FieldLine.render ++ (zt.protection.toList.map protectionLine ++ [pagesetsLine]) ++ zt.unused,
    by simp [ZoneText.body, ZoneText.lines, hsplit], zt.tail_indented hz C,
      ⟨Function.update (fieldsAfter zoneinfoZoneFieldNames A ZoneinfoZone.zero.fields)
        ziZonePresent 0, ZoneinfoZone.zero.protection, 0⟩, fun rest => ?_, ?_⟩
  have hA' : ∀ l' ∈ A, l'.Ok ∧ l'.name ∉ zoneinfoZoneSpecFieldNames ∧
      (l'.name = "present".toList → l'.value ≠ 0) := fun l' h' =>
    have hf := hz.fields_ok l' (hsplit ▸ List.mem_append_left _ h')
    ⟨hf.1, hf.2, fun e => absurd hA
      (List.countP_pos_iff (p := (·.name == "present".toList)).mpr ⟨l', h', by simpa using e⟩).ne'⟩
  · rw [List.cons_append, zoneinfoParseZone_pagesFree, List.append_assoc, List.singleton_append,
      zoneinfoParseZone_fieldLines _ A ZoneinfoZone.zero hA',
      zoneinfoParseZone_presentZero (hz.fields_ok l hmem).1 hname hv]
    rfl
  · rw [ZoneText.Agrees, if_neg (by simp [hp])]
    simp only [ZoneinfoZone.toZone, Function.update_same,
      Function.update_noteq (show ziZoneHigh ≠ ziZonePresent by decide)]
    refine ⟨by simp, by simp, ?_⟩
    rcases fieldsAfter_mem zoneinfoZoneFieldNames A ZoneinfoZone.zero.fields ziZoneHigh with
      h | ⟨l', hl', h⟩ <;> rw [h]
    · exact ⟨le_rfl, Nat.cast_nonneg _⟩
    · exact ⟨Nat.cast_nonneg _,
        Nat.cast_le.mpr (ZoneText.value_le_numbers (hsplit ▸ List.mem_append_left _ hl'))⟩

/-- `Node <id>, zone <name>`. -/
def headerLine (id : Nat) (z : ZoneText) : List Char :=
  "Node ".toList ++ (Nat.toDigits 10 id ++ (", zone ".toList ++ (List.replicate z.pad ' ' ++ z.name)))

theorem dropWhile_isCSpace_name {z : ZoneText} (hz : z.Ok) (k : Nat) :
    (List.replicate k ' ' ++ z.name).dropWhile isCSpace = z.name := by
  obtain ⟨c, t, e⟩ := List.exists_cons_of_ne_nil hz.name_ne
  rw [List.dropWhile_append_of_pos (by simp [isCSpace]), e,
    List.dropWhile_cons_of_neg (by simpa using hz.name_space c (e ▸ List.mem_cons_self _ _))]

theorem scanSign_cons {c : Char} (h₁ : c ≠ '-') (h₂ : c ≠ '+') (s : List Char) :
    scanSign (c :: s) = (false, c :: s) := by
  unfold scanSign; split <;> simp_all

theorem scanNodeHeader_headerLine {id : Nat} {z : ZoneText} (hid : id < 2 ^ 31) (hz : z.Ok) :
    scanNodeHeader (headerLine id z) = .ok (some id) := by
  obtain ⟨c, t, e, hc⟩ := toDigits_head id
  set rest : List Char := List.replicate z.pad ' ' ++ z.name
  have hline : headerLine id z = 'N' :: 'o' :: 'd' :: 'e' :: ' ' :: (c :: (t ++
      (',' :: ' ' :: 'z' :: 'o' :: 'n' :: 'e' :: ' ' :: rest))) := by
    rw [headerLine, e]; rfl
  have hv : digitsValue 0 (c :: (t ++ (',' :: ' ' :: 'z' :: 'o' :: 'n' :: 'e' :: ' ' :: rest))) = id := by
    rw [← List.cons_append, ← e]; exact digitsValue_toDigits_append id (by simp)
  have hd : (c :: (t ++ (',' :: ' ' :: 'z' :: 'o' :: 'n' :: 'e' :: ' ' :: rest))).dropWhile Char.isDigit =
      ',' :: ' ' :: 'z' :: 'o' :: 'n' :: 'e' :: ' ' :: rest := by
    rw [← List.cons_append, ← e, List.dropWhile_append_of_pos (fun _ h => isDigit_of_mem_toDigits h)]
    rfl
  have hs : c ≠ '-' ∧ c ≠ '+' := ⟨isDigit_ne hc (by decide), isDigit_ne hc (by decide)⟩
  have hne : (rest.dropWhile isCSpace).isEmpty = false := by
    rw [dropWhile_isCSpace_name hz]; simpa using hz.name_ne
  have hsp : isCSpace ' ' = true := rfl
  simp only [hline, scanNodeHeader, List.dropWhile_cons_of_pos hsp,
    List.dropWhile_cons_of_neg (p := isCSpace) (a := c) (by simp [isCSpace_of_isDigit hc]),
    scanSign_cons hs.1 hs.2, hc, if_true, hv, hd, Bool.false_eq_true, if_false, hne]
  rw [if_neg (by omega)]
  simp only [List.dropWhile_cons_of_neg (p := isCSpace) (a := 'z') (by decide),
    List.dropWhile_cons_of_pos hsp, hne, Bool.false_eq_true, if_false]

/-! ## The per-node block -/

theorem isPrefixOf_pagesFreeLine (v : Nat) : nodeStatsMarker.isPrefixOf (pagesFreeLine v) = false :=
  rfl

theorem zoneinfoParseNode_fieldLine {l : FieldLine} (hl : l.Ok) (k : Nat) (lines : List (List Char))
    (f : Nat → Int) :
    zoneinfoParseNode k (l.render :: lines) f =
      match findField l.name zoneinfoNodeFieldNames with
      | none => zoneinfoParseNode k lines f
      | some i =>
        if k - 1 = 0 then (true, Function.update f i l.value, lines)
        else zoneinfoParseNode (k - 1) lines (Function.update f i l.value) := by
  obtain ⟨h₁, h₂⟩ := FieldLine.strtokR_render hl
  simp only [zoneinfoParseNode, h₁, h₂, matchField_render hl]
  cases findField l.name zoneinfoNodeFieldNames <;> rfl

/-- Whether a line names a per-node field. -/
def FieldLine.nodeField (l : FieldLine) : Bool := (findField l.name zoneinfoNodeFieldNames).isSome

/-- `zoneinfo_parse_node` stops at the `k`-th line that names a per-node field, having set
the fields of the lines up to it. -/
theorem zoneinfoParseNode_fieldLines :
    ∀ (L : List FieldLine) (k : Nat) (f : Nat → Int), (∀ l ∈ L, l.Ok) → 0 < k →
      k ≤ L.countP FieldLine.nodeField →
      ∃ j, (∀ rest, zoneinfoParseNode k (L.map FieldLine.render ++ rest) f =
          (true, fieldsAfter zoneinfoNodeFieldNames (L.take j) f,
            (L.drop j).map FieldLine.render ++ rest)) ∧
        (L.take j).countP FieldLine.nodeField = k
  | [], _, _, _, hk, h => absurd h (by simp; omega)
  | l :: L, k, f, hL, hk, h => by
    have ih := zoneinfoParseNode_fieldLines L
    have hl := zoneinfoParseNode_fieldLine (hL l (.head _)) k
    cases hf : findField l.name zoneinfoNodeFieldNames with
    | none =>
      have hn : l.nodeField = false := by simp [FieldLine.nodeField, hf]
      obtain ⟨j, e, hj⟩ := ih k f (fun l' h' => hL l' (.tail _ h')) hk (by simpa [hn] using h)
      exact ⟨j + 1, fun rest => by simpa [hl, hf, fieldsAfter_cons] using e rest,
        by simpa [hn] using hj⟩
    | some i =>
      have hn : l.nodeField = true := by simp [FieldLine.nodeField, hf]
      by_cases hk1 : k - 1 = 0
      · exact ⟨1, fun rest => by simp [hl, hf, hk1, fieldsAfter_cons, fieldsAfter],
          by simp [hn]; omega⟩
      · obtain ⟨j, e, hj⟩ := ih (k - 1) (Function.update f i l.value)
          (fun l' h' => hL l' (.tail _ h')) (by omega) (by simp [hn] at h; omega)
        exact ⟨j + 1, fun rest => by simpa [hl, hf, hk1, fieldsAfter_cons] using e rest,
          by simp [hn, hj]; omega⟩

theorem fieldsAfter_append (names : List (List Char)) (L M : List FieldLine) (f : Nat → Int) :
    fieldsAfter names (L ++ M) f = fieldsAfter names M (fieldsAfter names L f) :=
  List.foldl_append _ _ _ _

theorem fieldsAfter_of_forall_none {names : List (List Char)} :
    ∀ {L : List FieldLine}, (∀ l ∈ L, findField l.name names = none) → ∀ f, fieldsAfter names L f = f
  | [], _, _ => rfl
  | l :: L, h, f => by
    rw [fieldsAfter_cons, h l (.head _)]
    exact fieldsAfter_of_forall_none (fun l' h' => h l' (.tail _ h')) f

theorem nodeField_eq (l : FieldLine) :
    l.nodeField = decide (l.name ∈ zoneinfoNodeFieldNames) := by
  unfold FieldLine.nodeField
  cases h : findField l.name zoneinfoNodeFieldNames with
  | none =>
    have := List.indexOf?_eq_none_iff.mp h
    simpa using fun hm => this _ hm (by simp)
  | some i => simpa using List.mem_iff_getElem?.mpr ⟨i, findField_get h⟩

theorem countP_mem_pair {a b : List Char} (hab : a ≠ b) (L : List FieldLine) :
    L.countP (fun l => decide (l.name ∈ [a, b])) = L.countP (·.name == a) + L.countP (·.name == b) := by
  induction L with
  | nil => rfl
  | cons l L ih =>
    simp only [List.countP_cons, ih]
    by_cases h₁ : l.name = a
    · simp [h₁, hab]; omega
    · by_cases h₂ : l.name = b
      · simp [h₂, Ne.symm hab]; omega
      · simp [h₁, h₂]

/-- The per-node block sets both per-node fields to the values of their lines, and leaves
the lines after the later of the two. -/
theorem zoneinfoParseNode_stats {stats : List FieldLine} (hok : ∀ l ∈ stats, l.Ok)
    (honce : ∀ n ∈ zoneinfoNodeFieldNames, stats.countP (·.name == n) = 1) (f : Nat → Int) :
    ∃ j g, (∀ rest, zoneinfoParseNode ziNodeFieldCount (stats.map FieldLine.render ++ rest) f =
        (true, g, (stats.drop j).map FieldLine.render ++ rest)) ∧
      g ziNodeNrInactiveFile = valueOf stats "nr_inactive_file".toList ∧
      g ziNodeNrActiveFile = valueOf stats "nr_active_file".toList := by
  have h₁ := honce _ (by decide : "nr_inactive_file".toList ∈ zoneinfoNodeFieldNames)
  have h₂ := honce _ (by decide : "nr_active_file".toList ∈ zoneinfoNodeFieldNames)
  have htotal : stats.countP FieldLine.nodeField = 2 := by
    rw [List.countP_congr fun l _ => by rw [nodeField_eq]]
    exact (countP_mem_pair (by decide) stats).trans (by rw [h₁, h₂])
  obtain ⟨j, e, hj⟩ := zoneinfoParseNode_fieldLines stats ziNodeFieldCount f hok (by decide)
    (by simp [htotal, ziNodeFieldCount])
  have hdrop : ∀ l ∈ stats.drop j, findField l.name zoneinfoNodeFieldNames = none := by
    have : (stats.drop j).countP FieldLine.nodeField = 0 := by
      have := List.countP_append FieldLine.nodeField (stats.take j) (stats.drop j)
      rw [List.take_append_drop, htotal, hj, show ziNodeFieldCount = 2 from rfl] at this
      omega
    intro l hl
    simpa [FieldLine.nodeField] using List.countP_eq_zero.mp this l hl
  have hall : fieldsAfter zoneinfoNodeFieldNames (stats.take j) f =
      fieldsAfter zoneinfoNodeFieldNames stats f := by
    conv_rhs => rw [← List.take_append_drop j stats]
    rw [fieldsAfter_append, fieldsAfter_of_forall_none hdrop]
  refine ⟨j, _, e, ?_, ?_⟩ <;> rw [hall]
  · exact fieldsAfter_of_countP_eq_one (by decide) _ _ h₁
  · exact fieldsAfter_of_countP_eq_one (by decide) _ _ h₂

/-! ## Zone after zone -/

theorem RunsTo.skippedZone {zt : ZoneText} (hz : zt.Ok) {id : Nat} (hid : id < 2 ^ 31)
    {p : ZoneinfoCursor} (hn : ¬(p.hasNode ∧ (p.zi.nodes p.nodeIdx).id = id)) :
    RunsTo (headerLine id zt :: zt.body) p p := by
  have hL : ∀ l ∈ zt.fields.map FieldLine.render ++ (zt.protection.toList.map protectionLine ++
      [pagesetsLine]) ++ zt.unused, scanNodeHeader l = .ok none := zt.tail_indented hz zt.fields
  simpa [ZoneText.body, ZoneText.lines] using
    RunsTo.other (scanNodeHeader_headerLine hid hz) hn (isPrefixOf_pagesFreeLine zt.free)
      (RunsTo.skipAll hL)

theorem RunsTo.sameZone {zt : ZoneText} (hz : zt.Ok) {id : Nat} (hid : id < 2 ^ 31)
    {p : ZoneinfoCursor} {W : List NodeView} {v : NodeView} (h : p.Holds (W ++ [v]))
    (hv : v.id = id) (hlen : v.zones.length < maxNrZones) :
    ∃ p' z, RunsTo (headerLine id zt :: zt.body) p p' ∧
      p'.Holds (W ++ [{ v with zones := v.zones ++ [z] }]) ∧ zt.Agrees z := by
  have hs : p.hasNode ∧ (p.zi.nodes p.nodeIdx).id = id :=
    ⟨h.hasNode.mpr (by simp), h.id_eq.trans (by rw [hv])⟩
  obtain ⟨hq, hslot, hH⟩ := h.nextZone_holds hlen
  cases hp : zt.populated
  · obtain ⟨B, L, hbody, hL, z', hz', ha⟩ := zt.parse_unpopulated hz hp
    rw [← hslot] at hz'
    refine ⟨_, z'.toZone, ?_, hH z', ha⟩
    rw [hbody]
    exact RunsTo.sameNode (scanNodeHeader_headerLine hid hz) hs
      (fun rest => zoneinfoParseZoneAt_ok hq (hz' rest)) (RunsTo.skipAll hL)
  · obtain ⟨z', hz', hexp⟩ := zt.parse_populated hz hp [] (by simp)
      (congrArg ZoneinfoZone.maxProtection hslot)
    refine ⟨_, z'.toZone, ?_, hH z', by simp [ZoneText.Agrees, hp, hexp]⟩
    exact RunsTo.sameNode (scanNodeHeader_headerLine hid hz) hs
      (fun rest => zoneinfoParseZoneAt_ok hq (hz' rest))
      (RunsTo.skipAll fun l hl => scanNodeHeader_indented (hz.unused_ok l hl).1)

/-! ## Node after node -/

/-- A node: its id, the lines of its per-node block, and its zone sections in order. -/
structure NodeText where
  id : Nat
  stats : List FieldLine
  zones : List ZoneText
  deriving DecidableEq, Repr

/-- The zone sections of a node, the per-node block after the header of the first
populated one. -/
def renderZones (id : Nat) (stats : List FieldLine) : List ZoneText → List (List Char)
  | [] => []
  | z :: zs =>
    if z.populated then
      headerLine id z :: nodeStatsMarker :: (stats.map FieldLine.render ++
        (z.body ++ zs.flatMap fun z => headerLine id z :: z.body))
    else headerLine id z :: (z.body ++ renderZones id stats zs)

def NodeText.render (n : NodeText) : List (List Char) := renderZones n.id n.stats n.zones

/-- A well-formed node: an id that fits in an `int`, at most `MAX_NR_ZONES` zones, and a
per-node block that names no field of a zone and each per-node field once. -/
@[mk_iff] structure NodeText.Ok (n : NodeText) : Prop where
  id_lt : n.id < 2 ^ 31
  zones_le : n.zones.length ≤ maxNrZones
  zones_ok : ∀ z ∈ n.zones, z.Ok
  stats_ok : ∀ l ∈ n.stats,
    l.Ok ∧ l.name ∉ zoneinfoZoneSpecFieldNames ∧ l.name ∉ zoneinfoZoneFieldNames
  stats_once : ∀ f ∈ zoneinfoNodeFieldNames, n.stats.countP (·.name == f) = 1

instance (n : NodeText) : Decidable n.Ok := decidable_of_iff _ (NodeText.ok_iff n).symm

/-- The numbers of a node the parse reads: its per-node values and those of its zones. -/
def NodeText.numbers (n : NodeText) : Nat :=
  (n.stats.map (·.value)).sum + (n.zones.map ZoneText.numbers).sum

/-- The zones after the first populated one of the open node. -/
theorem RunsTo.sameZones {id : Nat} (hid : id < 2 ^ 31) :
    ∀ (zs : List ZoneText) {p : ZoneinfoCursor} {W : List NodeView} {v : NodeView},
      (∀ z ∈ zs, z.Ok) → p.Holds (W ++ [v]) → v.id = id →
      v.zones.length + zs.length ≤ maxNrZones →
      ∃ p' Z, RunsTo (zs.flatMap fun z => headerLine id z :: z.body) p p' ∧
        p'.Holds (W ++ [{ v with zones := v.zones ++ Z }]) ∧ List.Forall₂ ZoneText.Agrees zs Z
  | [], p, W, v, _, h, _, _ => ⟨p, [], RunsTo.nil, by simpa using h, .nil⟩
  | z :: zs, p, W, v, hz, h, hv, hlen => by
    obtain ⟨p₁, z₁, hr₁, h₁, ha₁⟩ :=
      RunsTo.sameZone (hz z (.head _)) hid h hv (by simp at hlen; omega)
    obtain ⟨p₂, Z, hr₂, h₂, ha₂⟩ := RunsTo.sameZones hid zs (fun z' h' => hz z' (.tail _ h')) h₁
      hv (by simp at hlen ⊢; omega)
    exact ⟨p₂, z₁ :: Z, by simpa using hr₁.append hr₂, by simpa using h₂, .cons ha₁ ha₂⟩

/-- The first populated zone of a node opens a new node holding the per-node values. -/
theorem RunsTo.firstZone {n : NodeText} (hn : n.Ok) {zt : ZoneText} (hz : zt.Ok)
    (hp : zt.populated = true) {p : ZoneinfoCursor} {V : List NodeView} (h : p.Holds V)
    (hlen : V.length < maxNrNodes) (hne : ¬(p.hasNode ∧ (p.zi.nodes p.nodeIdx).id = n.id)) :
    ∃ p' z, RunsTo (headerLine n.id zt :: nodeStatsMarker ::
        (n.stats.map FieldLine.render ++ zt.body)) p p' ∧
      p'.Holds (V ++ [⟨n.id, [z], valueOf n.stats "nr_inactive_file".toList,
        valueOf n.stats "nr_active_file".toList⟩]) ∧ zt.Agrees z := by
  obtain ⟨q, ho, hq, hslot, hH⟩ := h.openNode_holds hlen n.id
  obtain ⟨j, g, hg, hg₁, hg₂⟩ := zoneinfoParseNode_stats (fun l hl => (hn.stats_ok l hl).1)
    hn.stats_once (q.zi.nodes q.nodeIdx).fields
  obtain ⟨z', hz', hexp⟩ := zt.parse_populated hz hp (n.stats.drop j)
    (fun l hl => hn.stats_ok l (List.mem_of_mem_drop hl)) (z := (q.setFields g).slot)
    (by rw [ZoneinfoCursor.slot_setFields, hslot]; rfl)
  refine ⟨_, z'.toZone, ?_, by simpa [hg₁, hg₂] using hH g z', by simp [ZoneText.Agrees, hp, hexp]⟩
  exact RunsTo.newNode (scanNodeHeader_headerLine hn.id_lt hz) hne (by decide) ho hg
    (fun rest => zoneinfoParseZoneAt_ok hq (hz' rest))
    (RunsTo.skipAll fun l hl => scanNodeHeader_indented (hz.unused_ok l hl).1)

/-- What the parse should keep of a node: nothing when none of its zones is populated; else
its id, its zones from the first populated one on, and the values of its per-node lines. -/
def NodeText.Keeps (n : NodeText) (zs : List ZoneText) (V : List NodeView) : Prop :=
  if zs.any (·.populated) then
    ∃ Z, V = [⟨n.id, Z, valueOf n.stats "nr_inactive_file".toList,
        valueOf n.stats "nr_active_file".toList⟩] ∧
      List.Forall₂ ZoneText.Agrees (zs.dropWhile (! ·.populated)) Z
  else V = []

theorem RunsTo.zones {n : NodeText} (hn : n.Ok) :
    ∀ (zs : List ZoneText) (p : ZoneinfoCursor) (V : List NodeView), (∀ z ∈ zs, z.Ok) →
      zs.length ≤ maxNrZones → p.Holds V →
      (zs.any (·.populated) → V.length < maxNrNodes) →
      ¬(p.hasNode ∧ (p.zi.nodes p.nodeIdx).id = n.id) →
      ∃ p' V', RunsTo (renderZones n.id n.stats zs) p p' ∧ p'.Holds (V ++ V') ∧ n.Keeps zs V'
  | [], p, V, _, _, h, _, _ => ⟨p, [], RunsTo.nil, by simpa using h, by simp [NodeText.Keeps]⟩
  | z :: zs, p, V, hz, hlen, h, hV, hne => by
    cases hp : z.populated
    · obtain ⟨p', V', hr, h', hk⟩ := RunsTo.zones hn zs p V (fun z' h' => hz z' (.tail _ h'))
        (by simp at hlen; omega) h (fun ha => hV (by simp [ha])) hne
      refine ⟨p', V', ?_, h', by simpa [NodeText.Keeps, hp] using hk⟩
      simpa [renderZones, hp] using (RunsTo.skippedZone (hz z (.head _)) hn.id_lt hne).append hr
    · obtain ⟨p₁, z₁, hr₁, h₁, ha₁⟩ := RunsTo.firstZone hn (hz z (.head _)) hp h
        (hV (by simp [hp])) hne
      obtain ⟨p₂, Z, hr₂, h₂, ha₂⟩ := RunsTo.sameZones hn.id_lt zs
        (fun z' h' => hz z' (.tail _ h')) h₁ rfl (by simp at hlen ⊢; omega)
      refine ⟨p₂, _, ?_, h₂, ?_⟩
      · simpa [renderZones, hp] using hr₁.append hr₂
      · simp only [NodeText.Keeps, List.any_cons, hp, Bool.true_or, if_true,
          List.dropWhile_cons, Bool.not_true, Bool.false_eq_true, if_false]
        exact ⟨z₁ :: Z, rfl, .cons ha₁ ha₂⟩

/-! ## Lines -/

/-- A line `strtok_r` hands out whole: not empty, without a newline. -/
def LineOk (l : List Char) : Prop := l ≠ [] ∧ '\n' ∉ l

theorem newline_not_mem_toDigits (n : Nat) : '\n' ∉ Nat.toDigits 10 n :=
  fun h => @digit_not_mem ['\n'] (by decide) _ '\n' h (by simp)

theorem FieldLine.lineOk {l : FieldLine} (hl : l.Ok) : LineOk l.render :=
  ⟨by simp [FieldLine.render, List.replicate_succ], by
    simp only [FieldLine.render, List.mem_append, List.mem_replicate, not_or]
    exact ⟨by simp, fun h => (hl.name_blank _ h).2 rfl, by simp, newline_not_mem_toDigits _⟩⟩

theorem protectionText_ne_newline (ps : List Nat) : '\n' ∉ protectionText ps := by
  cases ps with
  | nil => decide
  | cons p qs =>
    simp only [protectionText, List.mem_cons, List.mem_append, List.mem_flatMap, not_or, not_exists,
      not_and]
    exact ⟨by decide, newline_not_mem_toDigits p, fun q _ => ⟨by decide, by decide,
      newline_not_mem_toDigits q⟩⟩

theorem ZoneText.lineOk_body {z : ZoneText} (hz : z.Ok) : ∀ l ∈ z.body, LineOk l := by
  intro l hl
  simp only [ZoneText.body, ZoneText.lines, List.mem_append, List.mem_cons, List.mem_map,
    Option.mem_toList, List.mem_singleton, List.not_mem_nil, or_false] at hl
  rcases hl with (rfl | ⟨f, hf, rfl⟩ | ⟨ps, -, rfl⟩ | rfl) | hu
  · exact ⟨by simp [pagesFreeLine], by simpa [pagesFreeLine] using newline_not_mem_toDigits _⟩
  · exact FieldLine.lineOk (hz.fields_ok f hf).1
  · refine ⟨by simp [protectionLine], ?_⟩
    simp only [protectionLine, List.mem_append, not_or]
    exact ⟨by decide, protectionText_ne_newline ps, by simp⟩
  · exact ⟨by simp [pagesetsLine], by decide⟩
  · obtain ⟨h₁, h₂⟩ := hz.unused_ok l hu
    exact ⟨fun e => by simp [e] at h₁, h₂⟩

theorem headerLine_lineOk (id : Nat) {z : ZoneText} (hz : z.Ok) : LineOk (headerLine id z) := by
  refine ⟨by simp [headerLine], ?_⟩
  simp only [headerLine, List.mem_append, List.mem_replicate, not_or]
  exact ⟨by decide, newline_not_mem_toDigits id, by decide, by simp,
    fun h => absurd (hz.name_space _ h) (by decide)⟩

theorem renderZones_lineOk (id : Nat) {stats : List FieldLine} (hs : ∀ l ∈ stats, l.Ok) :
    ∀ (zs : List ZoneText), (∀ z ∈ zs, z.Ok) → ∀ l ∈ renderZones id stats zs, LineOk l
  | [], _ => by simp [renderZones]
  | z :: zs, hz => by
    have hz₀ := hz z (.head _)
    have hzs : ∀ z' ∈ zs, z'.Ok := fun z' h' => hz z' (.tail _ h')
    intro l hl
    unfold renderZones at hl
    split at hl
    · simp only [List.mem_cons, List.mem_append, List.mem_map, List.mem_flatMap] at hl
      rcases hl with rfl | rfl | ⟨f, hf, rfl⟩ | hb | ⟨z', hz', rfl | hb⟩
      · exact headerLine_lineOk id hz₀
      · exact ⟨by decide, by decide⟩
      · exact FieldLine.lineOk (hs f hf)
      · exact z.lineOk_body hz₀ l hb
      · exact headerLine_lineOk id (hzs z' hz')
      · exact z'.lineOk_body (hzs z' hz') l hb
    · simp only [List.mem_cons, List.mem_append] at hl
      rcases hl with rfl | hb | hr
      · exact headerLine_lineOk id hz₀
      · exact z.lineOk_body hz₀ l hb
      · exact renderZones_lineOk id hs zs hzs l hr

theorem strtokAllAux_newlines :
    ∀ (L : List (List Char)) (fuel : Nat), (∀ l ∈ L, LineOk l) → L.length ≤ fuel →
      strtokAllAux ['\n'] fuel (L.map (· ++ ['\n'])).flatten = L
  | [], fuel, _, _ => by cases fuel <;> rfl
  | l :: L, fuel + 1, h, hlen => by
    obtain ⟨hne, hnl⟩ := h l (.head _)
    have e := @strtokR_word ['\n'] [] l
      ('\n' :: (L.map (· ++ ['\n'])).flatten) (by simp) hne
      (fun c hc e => hnl (by simpa [List.mem_singleton.mp e] using hc)) (by simp)
    simp only [List.nil_append] at e
    simp only [List.map_cons, List.flatten_cons, strtokAllAux, List.append_assoc,
      List.singleton_append, e, List.drop_succ_cons, List.drop_zero]
    exact congrArg _ (strtokAllAux_newlines L fuel (fun l' h' => h l' (.tail _ h'))
      (by simp at hlen; omega))

theorem length_le_flatten_newlines (L : List (List Char)) :
    L.length ≤ (L.map (· ++ ['\n'])).flatten.length := by
  induction L with
  | nil => simp
  | cons l L ih =>
    simp only [List.map_cons, List.flatten_cons, List.length_append, List.length_cons,
      List.length_singleton]
    omega

/-! ## Whole texts -/

/-- The nodes of a `/proc/zoneinfo` text. -/
structure ZoneinfoText where
  nodes : List NodeText
  deriving DecidableEq, Repr

namespace ZoneinfoText

def lines (t : ZoneinfoText) : List (List Char) := t.nodes.flatMap NodeText.render

/-- The text: its lines, each ended by a newline. -/
def render (t : ZoneinfoText) : List Char := (t.lines.map (· ++ ['\n'])).flatten

def numbers (t : ZoneinfoText) : Nat := (t.nodes.map NodeText.numbers).sum

/-- A well-formed text: at most `MAX_NR_NODES` nodes, of distinct ids, all well formed, and
numbers that add up to less than `2^63`, so that no sum `zoneinfo_parse` or
`calc_zone_watermarks` takes overflows. -/
@[mk_iff] structure Ok (t : ZoneinfoText) : Prop where
  nodes_le : t.nodes.length ≤ maxNrNodes
  ids_nodup : (t.nodes.map (·.id)).Nodup
  nodes_ok : ∀ n ∈ t.nodes, n.Ok
  numbers_lt : t.numbers < 2 ^ 63

instance (t : ZoneinfoText) : Decidable t.Ok := decidable_of_iff _ (ok_iff t).symm

/-- Some zone of the text is populated. -/
def HasPopulated (t : ZoneinfoText) : Prop := ∃ n ∈ t.nodes, n.zones.any (·.populated)

instance (t : ZoneinfoText) : Decidable t.HasPopulated := by
  unfold HasPopulated; infer_instance

def populatedZones (t : ZoneinfoText) : List ZoneText :=
  t.nodes.flatMap fun n => n.zones.filter (·.populated)

/-- The watermarks by the format: over the populated zones, `max(0, largest protection
value)` plus the zone's `high`, `low` or `min`. -/
def watermarks (t : ZoneinfoText) : ZoneWatermarks :=
  ⟨(t.populatedZones.map fun z => (z.maxProtection : Int) + valueOf z.fields "high".toList).sum,
    (t.populatedZones.map fun z => (z.maxProtection : Int) + valueOf z.fields "low".toList).sum,
    (t.populatedZones.map fun z => (z.maxProtection : Int) + valueOf z.fields "min".toList).sum⟩

/-- A per-node value summed over the nodes that hold a populated zone. -/
def totalFile (t : ZoneinfoText) (name : List Char) : Int :=
  ((t.nodes.filter fun n => n.zones.any (·.populated)).map fun n => (valueOf n.stats name : Int)).sum

end ZoneinfoText

/-- What the parse should keep of the nodes `ns`, node after node. -/
def KeepsAll : List NodeText → List NodeView → Prop
  | [], V => V = []
  | n :: ns, V => ∃ V₁ V₂, V = V₁ ++ V₂ ∧ n.Keeps n.zones V₁ ∧ KeepsAll ns V₂

theorem NodeText.keeps_length {n : NodeText} {zs : List ZoneText} {V : List NodeView}
    (h : n.Keeps zs V) : V.length ≤ 1 := by
  unfold NodeText.Keeps at h
  split at h
  · obtain ⟨Z, rfl, -⟩ := h; rfl
  · simp [h]

/-- The open node is none of those whose ids the held nodes avoid. -/
theorem ZoneinfoCursor.Holds.not_current {p : ZoneinfoCursor} {V : List NodeView} {id : Int}
    (h : p.Holds V) (hV : ∀ v ∈ V, v.id ≠ id) : ¬(p.hasNode ∧ (p.zi.nodes p.nodeIdx).id = id) := by
  rintro ⟨hh, hid⟩
  have hne := h.hasNode.mp hh
  rw [← List.dropLast_append_getLast hne] at h hV
  exact hV _ (List.mem_append_right _ (.head _)) (h.id_eq.symm.trans hid)

theorem RunsTo.nodes :
    ∀ (ns : List NodeText) (p : ZoneinfoCursor) (V : List NodeView), (∀ n ∈ ns, n.Ok) →
      (ns.map (·.id)).Nodup → V.length + ns.length ≤ maxNrNodes → p.Holds V →
      (∀ v ∈ V, ∀ m ∈ ns, v.id ≠ (m.id : Int)) →
      ∃ p' V', RunsTo (ns.flatMap NodeText.render) p p' ∧ p'.Holds (V ++ V') ∧ KeepsAll ns V'
  | [], p, V, _, _, _, h, _ => ⟨p, [], RunsTo.nil, by simpa using h, rfl⟩
  | n :: ns, p, V, hn, hnd, hlen, h, hV => by
    have hn₀ := hn n (.head _)
    obtain ⟨p₁, V₁, hr₁, h₁, hk₁⟩ := RunsTo.zones hn₀ n.zones p V hn₀.zones_ok hn₀.zones_le h
      (fun _ => by simp at hlen; omega) (h.not_current fun v hv => hV v hv n (.head _))
    have hV₁ : ∀ v ∈ V₁, v.id = n.id := by
      unfold NodeText.Keeps at hk₁
      split at hk₁
      · obtain ⟨Z, rfl, -⟩ := hk₁; simp
      · simp [hk₁]
    obtain ⟨p₂, V₂, hr₂, h₂, hk₂⟩ := RunsTo.nodes ns p₁ (V ++ V₁) (fun m hm => hn m (.tail _ hm))
      (List.nodup_cons.mp hnd).2
      (by have := NodeText.keeps_length hk₁; simp at hlen ⊢; omega) h₁
      (fun v hv m hm => by
        rcases List.mem_append.mp hv with hv | hv
        · exact hV v hv m (.tail _ hm)
        · rw [hV₁ v hv, Ne, Nat.cast_inj]
          exact fun e => (List.nodup_cons.mp hnd).1 (List.mem_map.mpr ⟨m, hm, e.symm⟩))
    exact ⟨p₂, V₁ ++ V₂, by simpa using hr₁.append hr₂, by simpa using h₂, V₁, V₂, rfl, hk₁, hk₂⟩

/-! ## Sums -/

/-- The sum `calc_zone_watermarks` takes for one watermark: `max_protection` plus the
watermark `sel` of each present zone. -/
def presentSum (sel : Zone → Int) (zs : List Zone) : Int :=
  (zs.map fun z => if z.present then z.maxProtection + sel z else 0).sum

theorem presentSum_cons (sel : Zone → Int) (z : Zone) (zs : List Zone) :
    presentSum sel (z :: zs) = presentSum sel [z] + presentSum sel zs := by
  simp [presentSum]

theorem presentSum_nonneg (sel : Zone → Int) {zs : List Zone}
    (h : ∀ z ∈ zs, z.present → 0 ≤ z.maxProtection ∧ 0 ≤ sel z) : 0 ≤ presentSum sel zs :=
  List.sum_nonneg fun _ hx => by
    obtain ⟨z, hz, rfl⟩ := List.mem_map.mp hx
    split
    · exact add_nonneg (h z hz ‹_›).1 (h z hz ‹_›).2
    · exact le_rfl

/-- The three sums of zones none of whose fields the sums read is negative. -/
theorem presentSums_nonneg {zs : List Zone} (h : ∀ z ∈ zs, z.Nonneg) :
    0 ≤ presentSum Zone.high zs ∧ 0 ≤ presentSum Zone.low zs ∧ 0 ≤ presentSum Zone.min zs :=
  ⟨presentSum_nonneg _ fun z hz _ => ⟨(h z hz).1, (h z hz).2.1⟩,
    presentSum_nonneg _ fun z hz hp => ⟨(h z hz).1, ((h z hz).2.2 hp).1⟩,
    presentSum_nonneg _ fun z hz hp => ⟨(h z hz).1, ((h z hz).2.2 hp).2⟩⟩

/-- A turn of the loop of `calc_zone_watermarks` whose sums fit adds the zone to each. -/
theorem zoneWatermarksStep_eq {wm : ZoneWatermarks} {z : Zone} (hz : z.Nonneg)
    (h₀ : 0 ≤ wm.highWmark ∧ 0 ≤ wm.lowWmark ∧ 0 ≤ wm.minWmark)
    (hh : wm.highWmark + presentSum Zone.high [z] < 2 ^ 63)
    (hl : wm.lowWmark + presentSum Zone.low [z] < 2 ^ 63)
    (hm : wm.minWmark + presentSum Zone.min [z] < 2 ^ 63) :
    zoneWatermarksStep wm z = some ⟨wm.highWmark + presentSum Zone.high [z],
      wm.lowWmark + presentSum Zone.low [z], wm.minWmark + presentSum Zone.min [z]⟩ := by
  obtain ⟨hp, hhi, hpre⟩ := hz
  unfold zoneWatermarksStep
  cases h : z.present
  · simp [presentSum, h]
  · obtain ⟨hlo, hmi⟩ := hpre h
    simp only [presentSum, h, if_true, List.map_cons, List.map_nil, List.sum_cons,
      List.sum_nil, add_zero] at hh hl hm ⊢
    simp only [Bool.not_true, Bool.false_eq_true, if_false, accumulateInt64_eq h₀.1 hp hhi hh,
      accumulateInt64_eq h₀.2.1 hp hlo hl, accumulateInt64_eq h₀.2.2 hp hmi hm,
      Option.bind_eq_bind, Option.some_bind]
    rfl

theorem foldlM_zoneWatermarksStep : ∀ (zs : List Zone) (wm : ZoneWatermarks),
    (∀ z ∈ zs, z.Nonneg) → 0 ≤ wm.highWmark ∧ 0 ≤ wm.lowWmark ∧ 0 ≤ wm.minWmark →
    wm.highWmark + presentSum Zone.high zs < 2 ^ 63 →
    wm.lowWmark + presentSum Zone.low zs < 2 ^ 63 →
    wm.minWmark + presentSum Zone.min zs < 2 ^ 63 →
    zs.foldlM zoneWatermarksStep wm = some ⟨wm.highWmark + presentSum Zone.high zs,
      wm.lowWmark + presentSum Zone.low zs, wm.minWmark + presentSum Zone.min zs⟩
  | [], wm, _, _, _, _, _ => by simp [presentSum]
  | z :: zs, wm, hz, h₀, hh, hl, hm => by
    have hzs : ∀ z ∈ zs, z.Nonneg := fun z' h => hz z' (.tail _ h)
    obtain ⟨s₁, s₂, s₃⟩ := presentSums_nonneg hzs
    obtain ⟨t₁, t₂, t₃⟩ := @presentSums_nonneg [z] fun z' h => hz z' (by simp_all)
    rw [presentSum_cons] at hh hl hm
    rw [List.foldlM_cons,
      zoneWatermarksStep_eq (hz z (.head _)) h₀ (by omega) (by omega) (by omega),
      Option.bind_eq_bind, Option.some_bind, foldlM_zoneWatermarksStep zs _ hzs
        ⟨by dsimp only; omega, by dsimp only; omega, by dsimp only; omega⟩
        (by dsimp only; omega) (by dsimp only; omega) (by dsimp only; omega),
      presentSum_cons Zone.high z zs, presentSum_cons Zone.low z zs, presentSum_cons Zone.min z zs]
    simp only [add_assoc]

/-- `calc_zone_watermarks` on zones whose sums fit: the sums over the present zones. -/
theorem calcZoneWatermarks_eq {zi : ZoneInfo} (hz : ∀ z ∈ zi.zones, z.Nonneg)
    (hh : presentSum Zone.high zi.zones < 2 ^ 63) (hl : presentSum Zone.low zi.zones < 2 ^ 63)
    (hm : presentSum Zone.min zi.zones < 2 ^ 63) :
    calcZoneWatermarks zi = some ⟨presentSum Zone.high zi.zones, presentSum Zone.low zi.zones,
      presentSum Zone.min zi.zones⟩ := by
  simpa using foldlM_zoneWatermarksStep zi.zones ⟨0, 0, 0⟩ hz ⟨le_rfl, le_rfl, le_rfl⟩
    (by simpa using hh) (by simpa using hl) (by simpa using hm)

theorem sum_agrees (sel : Zone → Int) : ∀ {zts : List ZoneText} {Z : List Zone},
    List.Forall₂ ZoneText.Agrees zts Z →
    (Z.map fun z => if z.present then z.maxProtection + sel z else 0).sum =
      ((zts.filter (·.populated)).map fun zt => zt.expected.maxProtection + sel zt.expected).sum
  | [], [], .nil => rfl
  | zt :: zts, z :: Z, .cons ha h => by
    unfold ZoneText.Agrees at ha
    cases hp : zt.populated <;> simp only [hp, if_true, Bool.false_eq_true, if_false] at ha
    · simp [hp, ha, sum_agrees sel h]
    · subst ha; simp [hp, ZoneText.expected, sum_agrees sel h]

theorem filter_dropWhile_not {α} (p : α → Bool) :
    ∀ l : List α, (l.dropWhile (! p ·)).filter p = l.filter p
  | [] => rfl
  | a :: l => by
    cases h : p a
    · simp [h, filter_dropWhile_not p l]
    · simp [h]

theorem KeepsAll.sum_zones (sel : Zone → Int) : ∀ {ns : List NodeText} {V : List NodeView},
    KeepsAll ns V →
    ((V.flatMap NodeView.zones).map fun z => if z.present then z.maxProtection + sel z else 0).sum =
      ((ns.flatMap fun n => n.zones.filter (·.populated)).map
        fun zt => zt.expected.maxProtection + sel zt.expected).sum
  | [], _, h => by simp [show _ = [] from h]
  | n :: ns, _, ⟨V₁, V₂, rfl, hk, h⟩ => by
    simp only [List.flatMap_append, List.flatMap_cons, List.map_append, List.sum_append,
      KeepsAll.sum_zones sel h]
    congr 1
    unfold NodeText.Keeps at hk
    split at hk
    · obtain ⟨Z, rfl, ha⟩ := hk
      simpa [filter_dropWhile_not] using sum_agrees sel ha
    · rename_i hany
      subst hk
      simp only [Bool.not_eq_true, List.any_eq_false] at hany
      have hnil : n.zones.filter (·.populated) = [] :=
        List.filter_eq_nil_iff.mpr fun z hz => by simp [hany z hz]
      simp [hnil]

/-! ## Bounds -/

theorem cast_sum_map {α} (L : List α) (f : α → Nat) :
    ((L.map f).sum : Int) = (L.map fun a => (f a : Int)).sum :=
  (map_list_sum (Nat.castAddMonoidHom Int) _).trans (congrArg List.sum (List.map_map _ _ _))

/-- The watermarks of the format add up numbers of the text. -/
theorem ZoneinfoText.watermark_le (t : ZoneinfoText) (name : List Char) :
    (t.populatedZones.map fun z => (z.maxProtection : Int) + valueOf z.fields name).sum ≤
      t.numbers := by
  have h : ∀ ns : List NodeText, ((ns.flatMap fun n => n.zones.filter (·.populated)).map
      fun z => z.maxProtection + valueOf z.fields name).sum ≤ (ns.map NodeText.numbers).sum := by
    intro ns
    induction ns with
    | nil => simp
    | cons n ns ih =>
      simp only [List.flatMap_cons, List.map_append, List.sum_append, List.map_cons, List.sum_cons]
      refine add_le_add ((List.sum_le_sum fun z _ => z.expected_le name).trans ?_) ih
      exact (((List.filter_sublist _).map _).sum_le_sum fun _ _ => Nat.zero_le _).trans
        (Nat.le_add_left _ _)
  calc (t.populatedZones.map fun z => (z.maxProtection : Int) + valueOf z.fields name).sum
      = ((t.populatedZones.map fun z => z.maxProtection + valueOf z.fields name).sum : Nat) := by
        rw [cast_sum_map]; simp only [Nat.cast_add]
    _ ≤ t.numbers := Nat.cast_le.mpr (h t.nodes)

/-- The file totals of the format add up numbers of the text. -/
theorem ZoneinfoText.totalFile_le (t : ZoneinfoText) (name : List Char) :
    t.totalFile name ≤ t.numbers := by
  have h : ((t.nodes.filter fun n => n.zones.any (·.populated)).map
      fun n => valueOf n.stats name).sum ≤ t.numbers :=
    (List.sum_le_sum fun n _ => (valueOf_le_sum n.stats name).trans (Nat.le_add_right _ _)).trans
      (((List.filter_sublist _).map _).sum_le_sum fun _ _ => Nat.zero_le _)
  exact (cast_sum_map _ _).symm.trans_le (Nat.cast_le.mpr h)

theorem agrees_bounds : ∀ {zts : List ZoneText} {Z : List Zone},
    List.Forall₂ ZoneText.Agrees zts Z → (∀ z ∈ Z, z.Nonneg) ∧
      (Z.map fun z => z.maxProtection + z.high).sum ≤ ((zts.map ZoneText.numbers).sum : Int)
  | [], [], .nil => by simp
  | _ :: _, _ :: _, .cons ha h => by
    obtain ⟨h₁, h₂⟩ := agrees_bounds h
    obtain ⟨hz, hle⟩ := ha.bounds
    simp only [List.mem_cons, List.map_cons, List.sum_cons, Nat.cast_add]
    exact ⟨fun z' hz' => hz'.elim (· ▸ hz) (h₁ z'), add_le_add hle h₂⟩

/-- The nodes the parse keeps read no negative value, and the reserve the totals loop adds
is within the numbers of the text. -/
theorem KeepsAll.bounds : ∀ {ns : List NodeText} {V : List NodeView}, KeepsAll ns V →
    (∀ v ∈ V, v.Nonneg) ∧
      (V.map NodeView.reserve).sum ≤ ((ns.map NodeText.numbers).sum : Int)
  | [], _, h => by simp [show _ = [] from h]
  | n :: ns, _, ⟨V₁, V₂, rfl, hk, h⟩ => by
    obtain ⟨h₁, h₂⟩ := KeepsAll.bounds h
    have hn : (∀ v ∈ V₁, v.Nonneg) ∧
        (V₁.map NodeView.reserve).sum ≤ (n.numbers : Int) := by
      unfold NodeText.Keeps at hk
      split at hk
      · obtain ⟨Z, rfl, hZ⟩ := hk
        obtain ⟨hz, hle⟩ := agrees_bounds hZ
        have hdrop :
            ((n.zones.dropWhile (! ·.populated)).map ZoneText.numbers).sum ≤ n.numbers :=
          (((List.dropWhile_suffix _).sublist.map _).sum_le_sum fun _ _ => Nat.zero_le _).trans
            (Nat.le_add_left _ _)
        refine ⟨?_, ?_⟩
        · simp only [List.mem_singleton]
          rintro _ rfl
          exact ⟨Nat.cast_nonneg _, Nat.cast_nonneg _, hz⟩
        · simp only [List.map_singleton, List.sum_singleton, NodeView.reserve]
          exact hle.trans (by exact_mod_cast hdrop)
      · subst hk
        simp
    simp only [List.mem_append, List.map_append, List.sum_append, List.map_cons, List.sum_cons,
      Nat.cast_add]
    exact ⟨fun v hv => hv.elim (hn.1 v) (h₁ v), add_le_add hn.2 h₂⟩

/-! ## The parse of a well-formed text -/

/-- What the parse keeps of a node, read through a function that sees only the node's id
and per-node values. -/
theorem NodeText.Keeps.map_eq {n : NodeText} {zs : List ZoneText} {V : List NodeView} {α : Type}
    (g : NodeView → α) {c : α} (hg : ∀ Z, g ⟨n.id, Z, valueOf n.stats "nr_inactive_file".toList,
      valueOf n.stats "nr_active_file".toList⟩ = c) (h : n.Keeps zs V) :
    V.map g = if zs.any (·.populated) then [c] else [] := by
  unfold NodeText.Keeps at h
  split at h
  · rename_i ha
    obtain ⟨Z, rfl, -⟩ := h
    rw [List.map_singleton, hg, if_pos ha]
  · rename_i ha
    rw [h, if_neg ha, List.map_nil]

theorem KeepsAll.map_eq {α : Type} (g : NodeView → α) (G : NodeText → α)
    (hg : ∀ n Z, g ⟨n.id, Z, valueOf n.stats "nr_inactive_file".toList,
      valueOf n.stats "nr_active_file".toList⟩ = G n) :
    ∀ {ns : List NodeText} {V : List NodeView}, KeepsAll ns V →
      V.map g = (ns.filter fun n => n.zones.any (·.populated)).map G
  | [], _, h => by simp [show _ = [] from h]
  | n :: ns, _, ⟨V₁, V₂, rfl, hk, h⟩ => by
    rw [List.map_append, hk.map_eq g (hg n), KeepsAll.map_eq g G hg h, List.filter_cons]
    split <;> rfl

theorem KeepsAll.zones_le : ∀ {ns : List NodeText} {V : List NodeView}, KeepsAll ns V →
    (∀ n ∈ ns, n.Ok) → ∀ v ∈ V, v.zones.length ≤ maxNrZones
  | [], _, h, _ => by simp [show _ = [] from h]
  | n :: ns, _, ⟨V₁, V₂, rfl, hk, h⟩, hn => by
    intro v hv
    rcases List.mem_append.mp hv with hv | hv
    · unfold NodeText.Keeps at hk
      split at hk
      · obtain ⟨Z, rfl, hZ⟩ := hk
        rw [List.mem_singleton.mp hv, ← hZ.length_eq]
        exact (List.dropWhile_suffix _).length_le.trans (hn n (.head _)).zones_le
      · simp [hk] at hv
    · exact KeepsAll.zones_le h (fun m hm => hn m (.tail _ hm)) v hv

/-- The loop of `zoneinfo_parse` runs over the whole of a well-formed text and keeps what
`KeepsAll` says. -/
theorem ZoneinfoText.runsTo {t : ZoneinfoText} (ht : t.Ok) :
    ∃ p V, RunsTo (strtokAll ['\n'] t.render) ZoneinfoCursor.init p ∧ p.Holds V ∧
      KeepsAll t.nodes V := by
  have hlines : strtokAll ['\n'] t.render = t.lines :=
    strtokAllAux_newlines t.lines _ (fun l hl => by
      obtain ⟨n, hn, hl⟩ := List.mem_flatMap.mp hl
      have hn := ht.nodes_ok n hn
      exact renderZones_lineOk n.id (fun l h => (hn.stats_ok l h).1) n.zones hn.zones_ok l hl)
      (length_le_flatten_newlines _)
  obtain ⟨p, V, hr, hh, hk⟩ := RunsTo.nodes t.nodes ZoneinfoCursor.init [] ht.nodes_ok
    ht.ids_nodup (by simpa using ht.nodes_le) ZoneinfoCursor.holds_init (by simp)
  exact ⟨p, V, hlines ▸ hr, by simpa using hh, hk⟩

/-- Every well-formed text with a populated zone parses, and the watermarks and file totals
are the sums over its populated zones and over the nodes that hold them. -/
theorem zoneinfoParse_render (t : ZoneinfoText) (ht : t.Ok) (hp : t.HasPopulated) :
    ∃ zi, zoneinfoParse (some t.render) = .ok (some zi) ∧
      calcZoneWatermarks zi.toZoneInfo = some t.watermarks ∧
      zi.totalInactiveFile = t.totalFile "nr_inactive_file".toList ∧
      zi.totalActiveFile = t.totalFile "nr_active_file".toList := by
  obtain ⟨p, V, hr, hh, hk⟩ := ZoneinfoText.runsTo ht
  have hlen : V.length = (t.nodes.filter fun n => n.zones.any (·.populated)).length := by
    simpa using congrArg List.length (hk.map_eq (fun _ => ()) (fun _ => ()) fun _ _ => rfl)
  have hpos : 0 < V.length := by
    obtain ⟨n, hn, ha⟩ := hp
    exact hlen ▸ List.length_pos_of_mem (List.mem_filter.mpr ⟨hn, ha⟩)
  have hI : (V.map NodeView.inactiveFile).sum = t.totalFile "nr_inactive_file".toList := by
    rw [hk.map_eq _ (fun n => (valueOf n.stats "nr_inactive_file".toList : Int)) fun _ _ => rfl]
    rfl
  have hA : (V.map NodeView.activeFile).sum = t.totalFile "nr_active_file".toList := by
    rw [hk.map_eq _ (fun n => (valueOf n.stats "nr_active_file".toList : Int)) fun _ _ => rfl]
    rfl
  have hW : ∀ sel name, (∀ zt : ZoneText, sel zt.expected = (valueOf zt.fields name : Int)) →
      presentSum sel (V.flatMap NodeView.zones) =
        (t.populatedZones.map fun z => (z.maxProtection : Int) + valueOf z.fields name).sum :=
    fun sel name hsel => by
      rw [presentSum, KeepsAll.sum_zones sel hk]
      simp only [hsel]
      rfl
  have hlt : (t.numbers : Int) < 2 ^ 63 := by exact_mod_cast ht.numbers_lt
  obtain ⟨hnn, hres⟩ := hk.bounds
  obtain ⟨zi, e, hz, -, h₁, h₂⟩ := hh.parse_result (hk.zones_le ht.nodes_ok) hnn
    (hres.trans_lt hlt) (hI ▸ (t.totalFile_le _).trans_lt hlt)
    (hA ▸ (t.totalFile_le _).trans_lt hlt)
  have hcount : p.nodeIdx + 1 = V.length := by have := hh.nodeIdx; omega
  have hzs : ∀ z ∈ zi.toZoneInfo.zones, z.Nonneg := by
    rw [hz]
    intro z hz'
    obtain ⟨v, hv, hzv⟩ := List.mem_flatMap.mp hz'
    exact (hnn v hv).2.2 z hzv
  refine ⟨zi, ?_, ?_, h₁.trans hI, h₂.trans hA⟩
  · rw [zoneinfoParse_of_runsTo hr, if_pos (hh.hasNode.mpr (List.ne_nil_of_length_pos hpos)),
      hcount, e]
    rfl
  · rw [calcZoneWatermarks_eq hzs, hz, hW _ "high".toList fun _ => rfl,
      hW _ "low".toList fun _ => rfl, hW _ "min".toList fun _ => rfl]
    · rfl
    all_goals
      rw [hz, hW _ _ fun _ => rfl]
      exact (t.watermark_le _).trans_lt hlt

/-- One node: an empty zone, then a populated zone with three protection values. -/
def sampleZoneinfoText : ZoneinfoText :=
  ⟨[⟨0, [⟨1, "nr_inactive_file".toList, 0, 40⟩, ⟨1, "nr_active_file".toList, 0, 50⟩],
    [⟨"DMA".toList, 5, 0, [⟨7, "present".toList, 0, 0⟩], none, []⟩,
      ⟨"Normal".toList, 2, 900, [⟨7, "min".toList, 5, 10⟩, ⟨7, "low".toList, 5, 20⟩,
        ⟨7, "high".toList, 4, 30⟩, ⟨7, "present".toList, 1, 100⟩], some [0, 5, 7], []⟩]⟩]⟩

theorem zoneinfoParse_render_sample :
    ∃ zi, zoneinfoParse (some sampleZoneinfoText.render) = .ok (some zi) ∧
      calcZoneWatermarks zi.toZoneInfo = some sampleZoneinfoText.watermarks ∧
      zi.totalInactiveFile = sampleZoneinfoText.totalFile "nr_inactive_file".toList ∧
      zi.totalActiveFile = sampleZoneinfoText.totalFile "nr_active_file".toList :=
  zoneinfoParse_render sampleZoneinfoText (by decide) (by decide)

example : sampleZoneinfoText.watermarks = ⟨37, 27, 17⟩ ∧
    sampleZoneinfoText.totalFile "nr_inactive_file".toList = 40 := by decide

/-- A text whose zones are all empty makes `zoneinfo_parse` return `-1`. -/
theorem zoneinfoParse_render_unpopulated {t : ZoneinfoText} (ht : t.Ok) (hp : ¬t.HasPopulated) :
    zoneinfoParse (some t.render) = .ok none := by
  obtain ⟨p, V, hr, hh, hk⟩ := ZoneinfoText.runsTo ht
  have hV : V = [] := by
    have := congrArg List.length (hk.map_eq (fun _ => ()) (fun _ => ()) fun _ _ => rfl)
    simp only [List.length_map] at this
    exact List.length_eq_zero.mp (this.trans (List.length_eq_zero.mpr
      (List.filter_eq_nil_iff.mpr fun n hn ha => hp ⟨n, hn, ha⟩)))
  rw [zoneinfoParse_of_runsTo hr, if_neg (by simpa [hh.hasNode] using hV)]

/-- One node with one zone, an empty one: its per-node values are not printed. -/
def emptyZoneinfoText : ZoneinfoText :=
  ⟨[⟨0, [⟨1, "nr_inactive_file".toList, 0, 40⟩, ⟨1, "nr_active_file".toList, 0, 50⟩], [⟨"DMA".toList, 5, 0, [⟨7, "present".toList, 0, 0⟩], none, []⟩]⟩]⟩

theorem zoneinfoParse_empty_zones :
    emptyZoneinfoText.Ok ∧ zoneinfoParse (some emptyZoneinfoText.render) = .ok none :=
  ⟨by decide, zoneinfoParse_render_unpopulated (by decide) (by decide)⟩

end Lmkd
