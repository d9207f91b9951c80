import Lmkd.Daemon.ZoneinfoFormat

/-!
# Reading `/proc/meminfo` and `/proc/vmstat`

`meminfo_parse(mi)` and `vmstat_parse(vs)` over the text `reread_file` returns, given as the
characters before its NUL (`none` when the read fails). Both cut the text into lines with
`strtok_r(.., "\n", ..)` and hand each line to their `*_parse_line`, which reads the line's
first two words, split at blanks, and stores the second under the index of the first in
its field table. The two line parsers differ only in the table and in what they store:
`meminfo_parse_line` stores `val / page_k`, kB turned into pages, and `vmstat_parse_line`
the value itself. They are one function here, `parseFieldLine`, with these two as
parameters, and each lemma about it serves both.

`meminfoParse_vmstatParse_eq_none_iff`: a text is refused exactly when one of its lines is,
a line of fewer than two words or a line whose first word is a field and whose second is
no number; lines of other names are passed over whatever they hold.
`meminfoParse_render`, `vmstatParse_render`: a rendered file parses to the value of the
last line of each field, and `0` for a field no line names.
-/

namespace Lmkd

/-! ## Field tables -/

/-- `meminfo_field_names`, indexed by `enum meminfo_field`. -/
def meminfoFieldNames : List (List Char) :=
  ["MemFree:", "Cached:", "SwapCached:", "Buffers:", "Shmem:", "Unevictable:", "SwapTotal:",
    "SwapFree:", "Active(anon):", "Inactive(anon):", "Active(file):", "Inactive(file):",
    "SReclaimable:", "SUnreclaim:", "KernelStack:", "PageTables:", "ION_heap:",
    "ION_heap_pool:", "CmaFree:"].map String.toList

def miNrFreePages : Nat := 0
def miCached : Nat := 1
def miSwapCached : Nat := 2
def miBuffers : Nat := 3
def miShmem : Nat := 4
def miUnevictable : Nat := 5
def miTotalSwap : Nat := 6
def miFreeSwap : Nat := 7
def miActiveAnon : Nat := 8
def miInactiveAnon : Nat := 9
def miInactiveFile : Nat := 11
def miCmaFree : Nat := 18

/-- `union meminfo`: `arr`, the fields read from the file, and the three fields computed
from them. -/
structure Meminfo where
  arr : Nat → Int
  nrFilePages : Int
  totalGpuKb : Int
  easyAvailable : Int

/-- `memset(mi, 0, sizeof(union meminfo))`. -/
def Meminfo.zero : Meminfo := ⟨fun _ => 0, 0, 0, 0⟩

/-- `vmstat_field_names`, indexed by `enum vmstat_field`. -/
def vmstatFieldNames : List (List Char) :=
  ["nr_free_pages", "nr_inactive_file", "nr_active_file", "workingset_refault",
    "workingset_refault_file", "pgscan_kswapd", "pgscan_direct", "pgscan_direct_throttle",
    "pgrefill"].map String.toList

def vsNrInactiveFile : Nat := 1
def vsNrActiveFile : Nat := 2
def vsWorkingsetRefault : Nat := 3
def vsWorkingsetRefaultFile : Nat := 4
def vsPgscanKswapd : Nat := 5
def vsPgscanDirect : Nat := 6
def vsPgrefill : Nat := 8

/-! ## The parsing functions -/

/-- The body of `meminfo_parse_line` and `vmstat_parse_line`: the first two words of the
line go to `match_field`, and a field's value goes through `store` into the array.
`none` for `false`. -/
def parseFieldLine (fieldNames : List (List Char)) (store : Int → Int) (line : List Char)
    (arr : Nat → Int) : Option (Nat → Int) :=
  match strtokR [' '] line with
  | none => none
  | some (cp, rest) =>
    match strtokR [' '] rest with
    | none => none
    | some (ap, _) =>
      match matchField cp ap fieldNames with
      | .parseSuccess i val => some (Function.update arr i (store val))
      | .noMatch => some arr
      | .parseFail => none

/-- `meminfo_parse_line(line, mi)`: a value in kB is stored as `val / page_k` pages. -/
def meminfoParseLine (pageK : Int) (line : List Char) (mi : Meminfo) : Option Meminfo :=
  (parseFieldLine meminfoFieldNames (fun val => val.tdiv pageK) line mi.arr).map
    fun arr => { mi with arr }

/-- `vmstat_parse_line(line, vs)`. -/
def vmstatParseLine (line : List Char) (vs : Nat → Int) : Option (Nat → Int) :=
  parseFieldLine vmstatFieldNames id line vs

/-- `read_gpu_total_kb()` on the entry of the GPU total in its BPF map, `none` when the map
cannot be opened or has no entry. -/
def readGpuTotalKb (entry : Option Nat) : Int :=
  match entry with
  | none => 0
  | some value => toInt32 (value / 1024)

/-- `meminfo_parse(mi)`; `none` for `-1`, after which the callers read nothing of `mi`. -/
def meminfoParse (pageK : Int) (gpuEntry : Option Nat) (buf : Option (List Char)) :
    Option Meminfo := do
  let buf ← buf
  let mi ← (strtokAll ['\n'] buf).foldlM (fun mi line => meminfoParseLine pageK line mi)
    Meminfo.zero
  some { mi with
    nrFilePages := mi.arr miCached + mi.arr miSwapCached + mi.arr miBuffers
    totalGpuKb := readGpuTotalKb gpuEntry
    easyAvailable := mi.arr miNrFreePages + mi.arr miInactiveFile }

/-- `vmstat_parse(vs)`; `none` for `-1`. -/
def vmstatParse (buf : Option (List Char)) : Option (Nat → Int) := do
  let buf ← buf
  (strtokAll ['\n'] buf).foldlM (fun vs line => vmstatParseLine line vs) fun _ => 0

/-- The fields of `union meminfo` the engines read. -/
def Meminfo.toMemInfo (mi : Meminfo) : MemInfo where
  nrFreePages := mi.arr miNrFreePages
  cmaFree := mi.arr miCmaFree
  nrFilePages := mi.nrFilePages
  shmem := mi.arr miShmem
  unevictable := mi.arr miUnevictable
  swapCached := mi.arr miSwapCached
  activeAnon := mi.arr miActiveAnon
  inactiveAnon := mi.arr miInactiveAnon
  totalSwap := mi.arr miTotalSwap
  freeSwap := mi.arr miFreeSwap
  easyAvailable := mi.easyAvailable

/-- The fields of `union vmstat` the engine reads; it takes them as the natural numbers
`/proc/vmstat` prints. -/
def vmstatToVmStat (vs : Nat → Int) : VmStat where
  nrInactiveFile := (vs vsNrInactiveFile).toNat
  nrActiveFile := (vs vsNrActiveFile).toNat
  workingsetRefault := (vs vsWorkingsetRefault).toNat
  workingsetRefaultFile := (vs vsWorkingsetRefaultFile).toNat
  pgscanKswapd := (vs vsPgscanKswapd).toNat
  pgscanDirect := (vs vsPgscanDirect).toNat
  pgrefill := (vs vsPgrefill).toNat

example : (vmstatParse (some "nr_free_pages 7\npgrefill 12\nnr_dirty 3\n".toList)).map
    (fun vs => (vs 0, vs vsPgrefill, vs 1)) = some (7, 12, 0) := by decide

/-! ## Words -/

section Words
variable {delim s tok rest : List Char}

theorem strtokR_length (h : strtokR delim s = some (tok, rest)) : rest.length < s.length := by
  unfold strtokR at h
  split at h
  · cases h
  · next hne =>
    cases h
    have h₁ := (List.dropWhile_suffix (l := s) fun x => decide (x ∈ delim)).length_le
    have h₂ := (List.dropWhile_suffix (l := s.dropWhile fun x => decide (x ∈ delim))
      fun x => decide (x ∉ delim)).length_le
    have h₃ := List.length_pos.mpr hne
    simp only [List.length_drop]
    omega

theorem strtokAllAux_fuel : ∀ {n m : Nat} {s : List Char}, s.length ≤ n → s.length ≤ m →
    strtokAllAux delim n s = strtokAllAux delim m s
  | 0, 0, _, _, _ => rfl
  | n + 1, m + 1, s, hn, hm => by
    simp only [strtokAllAux]
    split
    · rfl
    · next tok rest h =>
      have := strtokR_length h
      rw [strtokAllAux_fuel (m := m) (by omega) (by omega)]
  | 0, _ + 1, s, hn, _ | _ + 1, 0, s, _, hn => by
    rw [List.eq_nil_of_length_eq_zero (Nat.le_zero.mp hn)]; rfl

/-- The words of a text are its first token and the words of what follows it. -/
theorem strtokAll_of_strtokR (h : strtokR delim s = some (tok, rest)) :
    strtokAll delim s = tok :: strtokAll delim rest := by
  have hl := strtokR_length h
  obtain ⟨m, hm⟩ : ∃ m, s.length = m + 1 := ⟨s.length - 1, by omega⟩
  rw [strtokAll, hm, strtokAllAux, h]
  exact congrArg _ (strtokAllAux_fuel (by omega) le_rfl)

theorem strtokAll_of_strtokR_none (h : strtokR delim s = none) : strtokAll delim s = [] := by
  unfold strtokAll
  cases s.length <;> simp only [strtokAllAux, h]

end Words

/-! ## Which lines and texts are refused -/

/-- A line `*_parse_line` refuses: it has fewer than two words, or its first word names a
field and its second is no number. -/
def lineRefused (fieldNames : List (List Char)) (line : List Char) : Bool :=
  match strtokAll [' '] line with
  | cp :: ap :: _ => decide (cp ∈ fieldNames) && (parseInt64 ap).isNone
  | _ => true

theorem findField_isSome {a : List Char} {names : List (List Char)} :
    (findField a names).isSome ↔ a ∈ names := by
  simp [findField, Option.isSome_iff_ne_none, List.indexOf?_eq_none_iff]

section Family
variable (names : List (List Char)) (store : Int → Int)

theorem parseFieldLine_eq_none_iff (line : List Char) (arr : Nat → Int) :
    parseFieldLine names store line arr = none ↔ lineRefused names line = true := by
  unfold parseFieldLine lineRefused
  rcases h₁ : strtokR [' '] line with _ | ⟨cp, rest⟩
  · simp [strtokAll_of_strtokR_none h₁]
  rcases h₂ : strtokR [' '] rest with _ | ⟨ap, rest'⟩
  · simp [strtokAll_of_strtokR h₁, strtokAll_of_strtokR_none h₂, h₂]
  simp only [strtokAll_of_strtokR h₁, strtokAll_of_strtokR h₂, h₂, matchField]
  cases hf : findField cp names <;> cases hp : parseInt64 ap <;>
    simp [← findField_isSome, hf, hp]

theorem foldlM_parseFieldLine_eq_none_iff :
    ∀ (lines : List (List Char)) (arr : Nat → Int),
      lines.foldlM (fun arr line => parseFieldLine names store line arr) arr = none ↔
        lines.any (lineRefused names) = true
  | [], _ => by simp
  | line :: lines, arr => by
    rw [List.foldlM_cons, List.any_cons, Bool.or_eq_true,
      ← parseFieldLine_eq_none_iff names store line arr]
    cases parseFieldLine names store line arr with
    | none => simp
    | some arr' => simpa using foldlM_parseFieldLine_eq_none_iff lines arr'

end Family

theorem foldlM_meminfoParseLine (pageK : Int) : ∀ (lines : List (List Char)) (mi : Meminfo),
    lines.foldlM (fun mi line => meminfoParseLine pageK line mi) mi =
      (lines.foldlM (fun arr line =>
        parseFieldLine meminfoFieldNames (fun val => val.tdiv pageK) line arr) mi.arr).map
        fun arr => { mi with arr }
  | [], _ => rfl
  | line :: lines, mi => by
    simp only [List.foldlM_cons, meminfoParseLine]
    cases parseFieldLine meminfoFieldNames (fun val => val.tdiv pageK) line mi.arr with
    | none => rfl
    | some arr => exact foldlM_meminfoParseLine pageK lines _

/-- `meminfo_parse` and `vmstat_parse` refuse a text exactly when one of its lines has fewer
than two words, or names a field of their table with a second word that is no number. -/
theorem meminfoParse_vmstatParse_eq_none_iff (buf : List Char) :
    (∀ pageK gpuEntry, meminfoParse pageK gpuEntry (some buf) = none ↔
      (strtokAll ['\n'] buf).any (lineRefused meminfoFieldNames) = true) ∧
    (vmstatParse (some buf) = none ↔
      (strtokAll ['\n'] buf).any (lineRefused vmstatFieldNames) = true) := by
  refine ⟨fun pageK gpuEntry => ?_, foldlM_parseFieldLine_eq_none_iff _ _ _ _⟩
  rw [← foldlM_parseFieldLine_eq_none_iff meminfoFieldNames (fun val => val.tdiv pageK) _
    Meminfo.zero.arr]
  simp only [meminfoParse, Option.bind_eq_bind, Option.some_bind, foldlM_meminfoParseLine]
  generalize List.foldlM (fun arr line =>
    parseFieldLine meminfoFieldNames (fun val => val.tdiv pageK) line arr) Meminfo.zero.arr
      (strtokAll ['\n'] buf) = r
  cases r <;> simp

/-! ## Rendered files -/

/-- A line `<name> <gap> <value><unit>` of `/proc/meminfo` or `/proc/vmstat`; `/proc/meminfo`
follows most values with ` kB`, `/proc/vmstat` with nothing. -/
structure StatLine where
  name : List Char
  gap : Nat
  value : Nat
  unit : List Char
  deriving DecidableEq, Repr

def StatLine.render (l : StatLine) : List Char :=
  l.name ++ (List.replicate (l.gap + 1) ' ' ++ (Nat.toDigits 10 l.value ++ l.unit))

/-- A line the parse reads: a name without a blank or a newline, a value that fits in an
`int64_t`, and a unit that starts with a blank and has no newline. -/
@[mk_iff] structure StatLine.Ok (l : StatLine) : Prop where
  name_ne : l.name ≠ []
  name_blank : ∀ c ∈ l.name, c ≠ ' ' ∧ c ≠ '\n'
  value_lt : l.value < 2 ^ 63
  unit_head : ∀ c ∈ l.unit.head?, c = ' '
  unit_newline : '\n' ∉ l.unit

instance (l : StatLine) : Decidable l.Ok := decidable_of_iff _ (StatLine.ok_iff l).symm

/-- The text of a file of such lines, each ended by a newline. -/
def renderStatLines (L : List StatLine) : List Char := (L.map fun l => l.render ++ ['\n']).flatten

/-- The value of the last line named `name`, if there is one. -/
def lastValue (name : List Char) : List StatLine → Option Nat
  | [] => none
  | l :: L =>
    match lastValue name L with
    | some v => some v
    | none => if l.name = name then some l.value else none

/-- The two words of a line. -/
theorem StatLine.strtokR_render {l : StatLine} (hl : l.Ok) :
    strtokR [' '] l.render =
        some (l.name, List.replicate l.gap ' ' ++ (Nat.toDigits 10 l.value ++ l.unit)) ∧
      strtokR [' '] (List.replicate l.gap ' ' ++ (Nat.toDigits 10 l.value ++ l.unit)) =
        some (Nat.toDigits 10 l.value, l.unit.drop 1) := by
  constructor
  · simpa [List.replicate_succ] using @strtokR_word [' '] [] l.name
      (List.replicate (l.gap + 1) ' ' ++ (Nat.toDigits 10 l.value ++ l.unit)) (by simp)
      hl.name_ne (fun c hc => by simpa using (hl.name_blank c hc).1) (by simp [List.replicate_succ])
  · exact strtokR_word (by simp) (toDigits_ne_nil _) (digit_not_mem (by decide))
      (fun c hc => by simpa using hl.unit_head c hc)

theorem StatLine.Ok.lineOk {l : StatLine} (hl : l.Ok) : LineOk l.render := by
  refine ⟨by simp [StatLine.render, hl.name_ne], ?_⟩
  simp only [StatLine.render, List.mem_append, List.mem_replicate, not_or]
  exact ⟨fun h => (hl.name_blank _ h).2 rfl, by simp, newline_not_mem_toDigits _, hl.unit_newline⟩

theorem strtokAll_renderStatLines {L : List StatLine} (hL : ∀ l ∈ L, l.Ok) :
    strtokAll ['\n'] (renderStatLines L) = L.map StatLine.render := by
  have e : renderStatLines L = ((L.map StatLine.render).map (· ++ ['\n'])).flatten := by
    simp [renderStatLines, Function.comp_def]
  rw [strtokAll, e]
  exact strtokAllAux_newlines _ _ (by simpa using fun l hl => (hL l hl).lineOk)
    (length_le_flatten_newlines _)

theorem parseFieldLine_render {l : StatLine} (hl : l.Ok) (names : List (List Char))
    (store : Int → Int) (arr : Nat → Int) :
    parseFieldLine names store l.render arr =
      some (match findField l.name names with
        | some i => Function.update arr i (store l.value)
        | none => arr) := by
  obtain ⟨h₁, h₂⟩ := StatLine.strtokR_render hl
  simp only [parseFieldLine, h₁, h₂, matchField, parseInt64_toDigits hl.value_lt]
  cases findField l.name names <;> rfl

theorem findField_of_getElem? {names : List (List Char)} (hnd : names.Nodup) {i : Nat}
    {n : List Char} (h : names[i]? = some n) : findField n names = some i := by
  obtain ⟨j, hj⟩ := Option.isSome_iff_exists.mp
    (findField_isSome.mpr (List.mem_iff_getElem?.mpr ⟨i, h⟩))
  rw [hj, List.getElem?_inj (List.getElem?_eq_some_iff.mp (findField_get hj)).1 hnd
    ((findField_get hj).trans h.symm)]

/-- The lines of a rendered file, one after another, leave in each field of the table the
value of the last line of its name, through `store`. -/
theorem foldlM_parseFieldLine_render {names : List (List Char)} (hnd : names.Nodup)
    (store : Int → Int) : ∀ (L : List StatLine) (arr : Nat → Int), (∀ l ∈ L, l.Ok) →
      (L.map StatLine.render).foldlM (fun arr line => parseFieldLine names store line arr) arr =
        some fun i =>
          match names[i]?.bind (lastValue · L) with
          | some v => store v
          | none => arr i
  | [], arr, _ => by simp [lastValue]
  | l :: L, arr, hL => by
    simp only [List.map_cons, List.foldlM_cons, parseFieldLine_render (hL l (.head _)),
      Option.bind_eq_bind, Option.some_bind]
    rw [foldlM_parseFieldLine_render hnd store L _ fun l' h' => hL l' (.tail _ h')]
    congr 1
    funext i
    cases hi : names[i]? with
    | none =>
      cases hf : findField l.name names with
      | none => rfl
      | some j =>
        refine Function.update_noteq (fun e => ?_) _ _
        simpa [← e, hi] using findField_get hf
    | some n =>
      simp only [Option.some_bind, lastValue]
      cases lastValue n L with
      | some v => rfl
      | none =>
        by_cases hn : l.name = n
        · simp [hn, findField_of_getElem? hnd hi]
        · cases hf : findField l.name names with
          | none => simp [hn]
          | some j =>
            have hj : j ≠ i := fun e => hn (Option.some.inj ((findField_get hf).symm.trans (e ▸ hi)))
            simp [hn, Function.update_noteq hj.symm]

theorem meminfoFieldNames_nodup : meminfoFieldNames.Nodup := by decide

theorem vmstatFieldNames_nodup : vmstatFieldNames.Nodup := by decide

/-- A rendered `/proc/meminfo` parses to the value in kB of the last line of each field of
the table divided by a positive `page_k`, rounding down, and `0` for a field no line names;
lines of other names are passed over. `nr_file_pages` and `easy_available` are computed from
these, `total_gpu_kb` is read from the GPU map. -/
theorem meminfoParse_render {pageK : Int} (hk : 0 < pageK) (gpuEntry : Option Nat)
    {L : List StatLine} (hL : ∀ l ∈ L, l.Ok) :
    let field := fun i =>
      (((meminfoFieldNames[i]?.bind (lastValue · L)).getD 0 / pageK.toNat : Nat) : Int)
    meminfoParse pageK gpuEntry (some (renderStatLines L)) =
      some ⟨field, field miCached + field miSwapCached + field miBuffers,
        readGpuTotalKb gpuEntry, field miNrFreePages + field miInactiveFile⟩ := by
  intro field
  have hdiv : ∀ n : Nat, (n : Int).tdiv pageK = ((n / pageK.toNat : Nat) : Int) := fun n => by
    rw [Int.tdiv_eq_ediv (Int.ofNat_nonneg n) hk.le, Int.ofNat_ediv, Int.toNat_of_nonneg hk.le]
  have hf : (strtokAll ['\n'] (renderStatLines L)).foldlM (fun arr line =>
      parseFieldLine meminfoFieldNames (fun val => val.tdiv pageK) line arr) Meminfo.zero.arr =
        some field := by
    rw [strtokAll_renderStatLines hL,
      foldlM_parseFieldLine_render meminfoFieldNames_nodup _ L _ hL]
    congr 1
    funext i
    simp only [field, ← hdiv]
    cases meminfoFieldNames[i]?.bind (lastValue · L) <;> simp [Meminfo.zero]
  simp only [meminfoParse, Option.bind_eq_bind, Option.some_bind, foldlM_meminfoParseLine, hf,
    Option.map_some']

theorem meminfoParse_render_sample :
    let L : List StatLine := [⟨"MemFree:".toList, 8, 123456, " kB".toList⟩,
      ⟨"Cached:".toList, 9, 4000, " kB".toList⟩, ⟨"HugePages_Total:".toList, 6, 0, []⟩]
    (0 : Int) < 4 ∧ ∃ mi, meminfoParse 4 none (some (renderStatLines L)) = some mi ∧
      mi.arr miNrFreePages = 30864 ∧ mi.nrFilePages = 1000 ∧ mi.easyAvailable = 30864 :=
  ⟨by decide, _, meminfoParse_render (by decide) none (by decide), by decide, by decide,
    by decide⟩

/-- A rendered `/proc/vmstat` parses to the value of the last line of each field of the
table, and `0` for a field no line names; lines of other names are passed over. -/
theorem vmstatParse_render {L : List StatLine} (hL : ∀ l ∈ L, l.Ok) :
    vmstatParse (some (renderStatLines L)) =
      some fun i => (((vmstatFieldNames[i]?.bind (lastValue · L)).getD 0 : Nat) : Int) := by
  simp only [vmstatParse, Option.bind_eq_bind, Option.some_bind, strtokAll_renderStatLines hL,
    vmstatParseLine]
  rw [foldlM_parseFieldLine_render vmstatFieldNames_nodup id L _ hL]
  congr 1
  funext i
  cases vmstatFieldNames[i]?.bind (lastValue · L) <;> rfl

theorem vmstatParse_render_sample :
    let L : List StatLine := [⟨"pgrefill".toList, 0, 12, []⟩, ⟨"nr_dirty".toList, 0, 3, []⟩,
      ⟨"pgrefill".toList, 0, 15, []⟩]
    ∃ vs, vmstatParse (some (renderStatLines L)) = some vs ∧ vs vsPgrefill = 15 ∧
      vs vsNrInactiveFile = 0 :=
  ⟨_, vmstatParse_render (by decide), by decide, by decide⟩

end Lmkd
