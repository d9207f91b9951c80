import Lmkd.Daemon.Engine
import Mathlib.Algebra.Order.BigOperators.Group.List

/-!
# Reading `/proc/zoneinfo`

`zoneinfo_parse(zi)` over the text `reread_file` returns, given as the characters before
its NUL (`none` when the read fails), and `calc_zone_watermarks` over what it fills in.
`strtok_r` with the delimiter `"\n"` hands the lines out one after another to
`zoneinfo_parse` and to the `zoneinfo_parse_node` and `zoneinfo_parse_zone` it calls, all
through one cursor. Every call uses the same delimiter, so the lines are those of the text
split once, and each function takes the lines still to come and returns those it leaves.

What C leaves undefined is an error naming it: a `node->zones[zone_idx]` written, read or
formed past the array, `strncmp` on the `NULL` of a text that ends with a header line, and
a `%d` conversion of a number an `int` cannot hold. The sums of the totals and of
`calc_zone_watermarks` are on `Int`, taken not to overflow, as in the engines.
-/

namespace Lmkd

/-! ## C strings -/

/-- `strtok_r(str, delim, &save_ptr)` on the text `s` still to scan: the next token and
the text after the delimiter that ends it; `none` for `NULL`. -/
def strtokR (delim s : List Char) : Option (List Char × List Char) :=
  match s.dropWhile (· ∈ delim) with
  | [] => none
  | t => some (t.takeWhile (· ∉ delim), (t.dropWhile (· ∉ delim)).drop 1)

/-- The tokens `strtok_r` hands out one call after another with the delimiters `delim`,
at most `n` of them. -/
def strtokAllAux (delim : List Char) : Nat → List Char → List (List Char)
  | 0, _ => []
  | n + 1, s =>
    match strtokR delim s with
    | none => []
    | some (tok, rest) => tok :: strtokAllAux delim n rest

/-- All the tokens of `s`: each call consumes a character at least, so `s.length` calls
are enough. -/
def strtokAll (delim s : List Char) : List (List Char) := strtokAllAux delim s.length s

/-- A word after delimiters, and ended by a delimiter or by the end of the text, is the next
token. -/
theorem strtokR_word {delim pre w rest : List Char} (hpre : ∀ c ∈ pre, c ∈ delim)
    (hw : w ≠ []) (hwd : ∀ c ∈ w, c ∉ delim) (hrest : ∀ c ∈ rest.head?, c ∈ delim) :
    strtokR delim (pre ++ (w ++ rest)) = some (w, rest.drop 1) := by
  obtain ⟨c, w, rfl⟩ := List.exists_cons_of_ne_nil hw
  have hw' : ∀ a ∈ c :: w, decide (a ∉ delim) = true := fun a ha => decide_eq_true (hwd a ha)
  have hrest' : rest.takeWhile (fun x => decide (x ∉ delim)) = [] ∧
      rest.dropWhile (fun x => decide (x ∉ delim)) = rest := by
    cases rest with
    | nil => simp
    | cons d rest => simp [hrest d rfl]
  simp only [strtokR, List.dropWhile_append_of_pos (p := (· ∈ delim)) (by simpa using hpre)]
  simp only [List.dropWhile_cons_of_neg (p := fun x => decide (x ∈ delim)) (by simpa using hwd c (List.mem_cons_self _ _)), List.cons_append]
  rw [← List.cons_append, List.takeWhile_append_of_pos hw', List.dropWhile_append_of_pos hw', hrest'.1, hrest'.2, List.append_nil]

/-- The sign `%d` and `strtoll` read: whether it is `-`, and the text after it. -/
def scanSign : List Char → Bool × List Char
  | '-' :: s => (true, s)
  | '+' :: s => (false, s)
  | s => (false, s)

/-- The value of a digit of base 16 or less. -/
def hexDigitValue (c : Char) : Option Nat :=
  if c.isDigit then some (c.toNat - '0'.toNat)
  else if 'a' ≤ c ∧ c ≤ 'f' then some (c.toNat - 'a'.toNat + 10)
  else if 'A' ≤ c ∧ c ≤ 'F' then some (c.toNat - 'A'.toNat + 10)
  else none

/-- The value of the digits of base `b` at the front of a text, after `acc`. -/
def baseValue (b acc : Nat) : List Char → Nat
  | c :: s =>
    match hexDigitValue c with
    | some d => if d < b then baseValue b (acc * b + d) s else acc
    | none => acc
  | [] => acc

/-- `strtoll(str, &end, 0)`: `0x` or `0X` before a hexadecimal digit starts a hexadecimal
number, another leading `0` an octal one; `0` when no digit is read. The value saturates
at `LLONG_MIN` and `LLONG_MAX`. -/
def strtollBase0 (str : List Char) : Int :=
  let (neg, s) := scanSign (str.dropWhile isCSpace)
  let v : Int := match s with
    | '0' :: x :: t =>
      if (x = 'x' ∨ x = 'X') ∧ (t.head?.bind hexDigitValue).isSome then baseValue 16 0 t
      else baseValue 8 0 (x :: t)
    | s => baseValue 10 0 s
  if neg then max (-v) (-2 ^ 63) else min v (2 ^ 63 - 1)

/-! ## Fields -/

/-- What `zoneinfo_parse` does that C leaves undefined. -/
inductive ZoneinfoUb
  /-- `node->zones[zone_idx]` written or read with `zone_idx ≥ MAX_NR_ZONES`, or formed
  with `zone_idx > MAX_NR_ZONES` -/
  | zoneIndex
  /-- `strncmp(NULL, NODE_STATS_MARKER, ...)` -/
  | nullLine
  /-- the `%d` of `sscanf` on a number an `int` cannot hold -/
  | nodeIdOverflow
  /-- a sum of the totals loop that overflows an `int64_t` -/
  | sumOverflow
  deriving DecidableEq, Repr

def maxNrZones : Nat := 6
def maxNrNodes : Nat := 2

/-- `zoneinfo_zone_field_names`, indexed by `enum zoneinfo_zone_field`. -/
def zoneinfoZoneFieldNames : List (List Char) :=
  ["nr_free_pages", "min", "low", "high", "present", "nr_free_cma"].map String.toList

def ziZoneMin : Nat := 1
def ziZoneLow : Nat := 2
def ziZoneHigh : Nat := 3
def ziZonePresent : Nat := 4

/-- `zoneinfo_zone_spec_field_names`, indexed by `enum zoneinfo_zone_spec_field`. -/
def zoneinfoZoneSpecFieldNames : List (List Char) := ["protection:", "pagesets"].map String.toList

def ziZoneSpecPagesets : Nat := 1

/-- `zoneinfo_node_field_names`, indexed by `enum zoneinfo_node_field`. -/
def zoneinfoNodeFieldNames : List (List Char) :=
  ["nr_inactive_file", "nr_active_file"].map String.toList

def ziNodeNrInactiveFile : Nat := 0
def ziNodeNrActiveFile : Nat := 1
def ziNodeFieldCount : Nat := 2

def nodeStatsMarker : List Char := "  per-node stats".toList

/-- `find_field(name, field_names, field_count)`. -/
def findField (name : List Char) (fieldNames : List (List Char)) : Option Nat :=
  fieldNames.indexOf? name

/-- `enum field_match_result`, with the index and value `match_field` stores on success. -/
inductive FieldMatchResult
  | noMatch
  | parseFail
  | parseSuccess (idx : Nat) (val : Int)

/-- `match_field(cp, ap, field_names, field_count, &val, &field_idx)`. -/
def matchField (cp ap : List Char) (fieldNames : List (List Char)) : FieldMatchResult :=
  match findField cp fieldNames with
  | none => .noMatch
  | some i =>
    match parseInt64 ap with
    | some v => .parseSuccess i v
    | none => .parseFail

/-! ## The parsed record -/

/-- `struct zoneinfo_zone`. -/
structure ZoneinfoZone where
  fields : Nat → Int
  protection : Nat → Int
  maxProtection : Int

/-- `struct zoneinfo_node`. -/
structure ZoneinfoNode where
  id : Int
  zoneCount : Nat
  zones : Nat → ZoneinfoZone
  fields : Nat → Int

/-- `struct zoneinfo`. -/
structure Zoneinfo where
  nodeCount : Nat
  nodes : Nat → ZoneinfoNode
  totalreservePages : Int
  totalInactiveFile : Int
  totalActiveFile : Int

def ZoneinfoZone.zero : ZoneinfoZone := ⟨fun _ => 0, fun _ => 0, 0⟩

/-- `memset(zi, 0, sizeof(struct zoneinfo))`. -/
def Zoneinfo.zero : Zoneinfo :=
  ⟨0, fun _ => ⟨0, 0, fun _ => ZoneinfoZone.zero, fun _ => 0⟩, 0, 0, 0⟩

def Zoneinfo.modifyNode (zi : Zoneinfo) (i : Nat) (f : ZoneinfoNode → ZoneinfoNode) :
    Zoneinfo :=
  { zi with nodes := Function.update zi.nodes i (f (zi.nodes i)) }

/-! ## The parsing functions -/

/-- `zoneinfo_parse_protection(buf, zone)` on the text `(p0, p1, ...` (the `)` already
cut by the caller): the first `MAX_NR_ZONES` numbers, each read by `strtoll(buf, &buf, 0)`,
and their maximum with `0`. -/
def zoneinfoParseProtection (buf : List Char) (zone : ZoneinfoZone) : ZoneinfoZone :=
  let toks := match strtokR "(), ".toList buf with
    | none => []
    | some (tok, rest) => tok :: strtokAll "), ".toList rest
  let vals := (toks.take maxNrZones).map strtollBase0
  { zone with
    protection := fun i => (vals.get? i).getD (zone.protection i)
    maxProtection := vals.foldl max 0 }

/-- `zoneinfo_parse_zone(&save_ptr, zone)` over the lines still to come: whether it
returned true, the zone, and the lines it leaves. `inBounds` is false for
`node->zones[MAX_NR_ZONES]`, one past the array, which it may not write. When `cp` is no
field, `field_idx` keeps the `-1` of the search among the special fields, so the test for
an empty zone reads no `val`. -/
def zoneinfoParseZone (inBounds : Bool) :
    List (List Char) → ZoneinfoZone → Except ZoneinfoUb (Bool × ZoneinfoZone × List (List Char))
  | [], zone => .ok (false, zone, [])
  | line :: lines, zone =>
    match strtokR [' '] line with
    | none => .ok (false, zone, lines)
    | some (cp, rest) =>
      match findField cp zoneinfoZoneSpecFieldNames with
      | some i =>
        if i = ziZoneSpecPagesets then .ok (true, zone, lines)
        else
          match strtokR [')'] rest with
          | none => zoneinfoParseZone inBounds lines zone
          | some (ap, _) =>
            if inBounds then zoneinfoParseZone inBounds lines (zoneinfoParseProtection ap zone)
            else .error .zoneIndex
      | none =>
        match strtokR [' '] rest with
        | none => zoneinfoParseZone inBounds lines zone
        | some (ap, _) =>
          match matchField cp ap zoneinfoZoneFieldNames with
          | .parseFail => .ok (false, zone, lines)
          | .noMatch => zoneinfoParseZone inBounds lines zone
          | .parseSuccess i val =>
            if inBounds then
              let zone := { zone with fields := Function.update zone.fields i val }
              if i = ziZonePresent ∧ val = 0 then .ok (true, zone, lines)
              else zoneinfoParseZone inBounds lines zone
            else .error .zoneIndex

/-- `zoneinfo_parse_node(&save_ptr, node)` with `fields_to_match` still to find, over the
lines still to come: whether it returned true, `node->fields.arr`, and the lines it
leaves. -/
def zoneinfoParseNode (fieldsToMatch : Nat) :
    List (List Char) → (Nat → Int) → Bool × (Nat → Int) × List (List Char)
  | [], fields => (false, fields, [])
  | line :: lines, fields =>
    match strtokR [' '] line with
    | none => (false, fields, lines)
    | some (cp, rest) =>
      match strtokR [' '] rest with
      | none => (false, fields, lines)
      | some (ap, _) =>
        match matchField cp ap zoneinfoNodeFieldNames with
        | .parseFail => (false, fields, lines)
        | .noMatch => zoneinfoParseNode fieldsToMatch lines fields
        | .parseSuccess i val =>
          let fields := Function.update fields i val
          if fieldsToMatch - 1 = 0 then (true, fields, lines)
          else zoneinfoParseNode (fieldsToMatch - 1) lines fields

/-- `sscanf(line, "Node %d, zone %4096s", &node_id, zone_name) == 2`: the node id when the
line matches, `none` when it does not. -/
def scanNodeHeader (line : List Char) : Except ZoneinfoUb (Option Int) :=
  match line with
  | 'N' :: 'o' :: 'd' :: 'e' :: s =>
    let (neg, s) := scanSign (s.dropWhile isCSpace)
    match s with
    | c :: _ =>
      if c.isDigit then
        let v : Int := digitsValue 0 s
        let id := if neg then -v else v
        if id < -2 ^ 31 ∨ 2 ^ 31 ≤ id then .error .nodeIdOverflow
        else
          match s.dropWhile Char.isDigit with
          | ',' :: s =>
            match s.dropWhile isCSpace with
            | 'z' :: 'o' :: 'n' :: 'e' :: s => .ok (if (s.dropWhile isCSpace).isEmpty then none else some id)
            | _ => .ok none
          | _ => .ok none
      else .ok none
    | [] => .ok none
  | _ => .ok none

/-- The variables of the loop of `zoneinfo_parse`; `node` is `NULL` or, when `hasNode`,
`&zi->nodes[node_idx]`. -/
structure ZoneinfoCursor where
  zi : Zoneinfo
  hasNode : Bool
  nodeIdx : Nat
  zoneIdx : Nat

/-- `memset(zi, 0, ...)`, `node = NULL`, `node_idx = 0`, `zone_idx = 0`. -/
def ZoneinfoCursor.init : ZoneinfoCursor := ⟨Zoneinfo.zero, false, 0, 0⟩

/-- `node->zone_count = zone_idx + 1`, when a node ends. -/
def ZoneinfoCursor.closeNode (p : ZoneinfoCursor) : Zoneinfo :=
  p.zi.modifyNode p.nodeIdx fun nd => { nd with zoneCount := p.zoneIdx + 1 }

/-- A header after the `per-node stats` marker, of a node other than the current one: the
current node is closed and `node_idx` moves on, `none` when that reaches `MAX_NR_NODES`;
the new node gets the id and `zone_idx` restarts. -/
def ZoneinfoCursor.openNode (p : ZoneinfoCursor) (id : Int) : Option ZoneinfoCursor :=
  let next : Option ZoneinfoCursor :=
    if p.hasNode then
      if p.nodeIdx + 1 = maxNrNodes then none
      else some { p with zi := p.closeNode, nodeIdx := p.nodeIdx + 1 }
    else some p
  next.map fun p =>
    { p with zi := p.zi.modifyNode p.nodeIdx fun nd => { nd with id := id }
             hasNode := true, zoneIdx := 0 }

/-- `node->fields.arr` after `zoneinfo_parse_node`. -/
def ZoneinfoCursor.setFields (p : ZoneinfoCursor) (fields : Nat → Int) : ZoneinfoCursor :=
  { p with zi := p.zi.modifyNode p.nodeIdx fun nd => { nd with fields := fields } }

/-- `node->zones[zone_idx]` after `zoneinfo_parse_zone`. -/
def ZoneinfoCursor.setZone (p : ZoneinfoCursor) (zone : ZoneinfoZone) : ZoneinfoCursor :=
  { p with zi := p.zi.modifyNode p.nodeIdx fun nd =>
    { nd with zones := Function.update nd.zones p.zoneIdx zone } }

/-- The call `zoneinfo_parse_zone(&save_ptr, &node->zones[zone_idx])`: the cursor with the
zone stored and the lines left, `none` for a `false` return. -/
def zoneinfoParseZoneAt (lines : List (List Char)) (p : ZoneinfoCursor) :
    Except ZoneinfoUb (Option (ZoneinfoCursor × List (List Char))) :=
  if maxNrZones < p.zoneIdx then .error .zoneIndex
  else
    match zoneinfoParseZone (decide (p.zoneIdx < maxNrZones)) lines
        ((p.zi.nodes p.nodeIdx).zones p.zoneIdx) with
    | .error e => .error e
    | .ok (false, _, _) => .ok none
    | .ok (true, zone, lines) => .ok (some (p.setZone zone, lines))

/-- The line loop of `zoneinfo_parse`, at most `n` turns; `none` for a `return -1`. Each
turn consumes a line at least. -/
def zoneinfoParseLines : Nat → List (List Char) → ZoneinfoCursor →
    Except ZoneinfoUb (Option ZoneinfoCursor)
  | 0, _, p => .ok (some p)
  | _ + 1, [], p => .ok (some p)
  | n + 1, line :: lines, p =>
    match scanNodeHeader line with
    | .error e => .error e
    | .ok none => zoneinfoParseLines n lines p
    | .ok (some id) =>
      let zoneCall (lines : List (List Char)) (p : ZoneinfoCursor) :=
        match zoneinfoParseZoneAt lines p with
        | .error e => .error e
        | .ok none => .ok none
        | .ok (some (p, lines)) => zoneinfoParseLines n lines p
      if p.hasNode ∧ (p.zi.nodes p.nodeIdx).id = id then
        zoneCall lines { p with zoneIdx := p.zoneIdx + 1 }
      else
        match lines with
        | [] => .error .nullLine
        | next :: lines =>
          if !nodeStatsMarker.isPrefixOf next then zoneinfoParseLines n lines p
          else
            match p.openNode id with
            | none => .ok none
            | some p =>
              match zoneinfoParseNode ziNodeFieldCount lines (p.zi.nodes p.nodeIdx).fields with
              | (false, _, _) => .ok none
              | (true, fields, lines) => zoneCall lines (p.setFields fields)

/-- One turn of the totals loop at the end of `zoneinfo_parse`, over node `n` of `zi`: it
reads the first `zone_count` zones of the node, and adds on `int64_t`s. -/
def zoneinfoTotalsStep (zi acc : Zoneinfo) (n : Nat) : Except ZoneinfoUb Zoneinfo :=
  let node := zi.nodes n
  if maxNrZones < node.zoneCount then .error .zoneIndex
  else
    let sums := do
      let totalreservePages ← (List.range node.zoneCount).foldlM (fun total z =>
        accumulateInt64 total (node.zones z).maxProtection ((node.zones z).fields ziZoneHigh))
        acc.totalreservePages
      let totalInactiveFile ← addInt64 acc.totalInactiveFile (node.fields ziNodeNrInactiveFile)
      let totalActiveFile ← addInt64 acc.totalActiveFile (node.fields ziNodeNrActiveFile)
      pure { acc with totalreservePages, totalInactiveFile, totalActiveFile }
    match sums with
    | some acc => .ok acc
    | none => .error .sumOverflow

/-- The totals loop over the first `node_count` nodes. -/
def zoneinfoTotals (zi : Zoneinfo) : Except ZoneinfoUb Zoneinfo :=
  (List.range zi.nodeCount).foldlM (zoneinfoTotalsStep zi) zi

/-- `zoneinfo_parse(zi)` on the text `reread_file` returns: the record it fills in for a
`0`, `none` for a `-1`. -/
def zoneinfoParse (buf : Option (List Char)) : Except ZoneinfoUb (Option Zoneinfo) :=
  match buf with
  | none => .ok none
  | some buf =>
    let lines := strtokAll ['\n'] buf
    match zoneinfoParseLines lines.length lines ZoneinfoCursor.init with
    | .error e => .error e
    | .ok none => .ok none
    | .ok (some p) =>
      if !p.hasNode then .ok none
      else (zoneinfoTotals { p.closeNode with nodeCount := p.nodeIdx + 1 }).map some

/-- A node of seven zones: the first after the per-node block, six more with a `pagesets`
line only, which `zoneinfo_parse_zone` takes without writing the zone. -/
def sevenZoneText : List Char :=
  ("Node 0, zone DMA\n  per-node stats\n nr_inactive_file 1\n nr_active_file 1\n" ++
    " pagesets\nNode 0, zone A\n pagesets\nNode 0, zone B\n pagesets\n" ++
    "Node 0, zone C\n pagesets\nNode 0, zone D\n pagesets\nNode 0, zone E\n pagesets\n" ++
    "Node 0, zone F\n pagesets\n").toList

set_option maxRecDepth 10000 in
/-- The totals loop reads `zones[MAX_NR_ZONES]` of a node with seven zone headers, and a
header on the last line makes `zoneinfo_parse` call `strncmp` on `NULL`. -/
theorem zoneinfoParse_zone_overflow_and_null_line :
    zoneinfoParse (some sevenZoneText) = .error .zoneIndex ∧
      zoneinfoParse (some "Node 0, zone DMA".toList) = .error .nullLine :=
  ⟨rfl, rfl⟩

/-- The fields of a zone `calc_zone_watermarks` reads. -/
def ZoneinfoZone.toZone (z : ZoneinfoZone) : Zone :=
  ⟨z.fields ziZonePresent ≠ 0, z.maxProtection, z.fields ziZoneHigh, z.fields ziZoneLow,
    z.fields ziZoneMin⟩

/-- The zones `calc_zone_watermarks` walks: the first `zone_count` zones of each of the
first `node_count` nodes, in order. -/
def Zoneinfo.toZoneInfo (zi : Zoneinfo) : ZoneInfo where
  zones := (List.range zi.nodeCount).flatMap fun n =>
    (List.range (zi.nodes n).zoneCount).map fun z => ((zi.nodes n).zones z).toZone
  totalreservePages := zi.totalreservePages

/-- What `zoneinfo_parse(&zi)` hands the engines for the text `reread_file` returned: the
zones `calc_zone_watermarks` reads, `none` for a `-1`. The answers `EngineWorld.zoneinfo`
of the engines stand for these. -/
def zoneinfoReading (buf : Option (List Char)) : Except ZoneinfoUb (Option ZoneInfo) :=
  (zoneinfoParse buf).map fun r => r.map Zoneinfo.toZoneInfo

/-! ## The loop of `zoneinfo_parse`, turn by turn -/

section Loop

variable {id : Int} {n : Nat} {line next : List Char} {lines : List (List Char)}
  {p : ZoneinfoCursor}

theorem zoneinfoParseLines_skip (h : scanNodeHeader line = .ok none) :
    zoneinfoParseLines (n + 1) (line :: lines) p = zoneinfoParseLines n lines p := by
  simp [zoneinfoParseLines, h]

theorem zoneinfoParseLines_other (h : scanNodeHeader line = .ok (some id))
    (hn : ¬(p.hasNode ∧ (p.zi.nodes p.nodeIdx).id = id))
    (hm : nodeStatsMarker.isPrefixOf next = false) :
    zoneinfoParseLines (n + 1) (line :: next :: lines) p = zoneinfoParseLines n lines p := by
  simp [zoneinfoParseLines, h, hn, hm]

theorem zoneinfoParseLines_new {q q' : ZoneinfoCursor} {f : Nat → Int} {lines' lines'' : List (List Char)}
    (h : scanNodeHeader line = .ok (some id))
    (hn : ¬(p.hasNode ∧ (p.zi.nodes p.nodeIdx).id = id))
    (hm : nodeStatsMarker.isPrefixOf next = true) (ho : p.openNode id = some q)
    (hf : zoneinfoParseNode ziNodeFieldCount lines (q.zi.nodes q.nodeIdx).fields = (true, f, lines'))
    (hz : zoneinfoParseZoneAt lines' (q.setFields f) = .ok (some (q', lines''))) :
    zoneinfoParseLines (n + 1) (line :: next :: lines) p = zoneinfoParseLines n lines'' q' := by
  simp [zoneinfoParseLines, h, hn, hm, ho, hf, hz]

theorem zoneinfoParseLines_same {q : ZoneinfoCursor} {lines' : List (List Char)}
    (h : scanNodeHeader line = .ok (some id))
    (hs : p.hasNode ∧ (p.zi.nodes p.nodeIdx).id = id)
    (hz : zoneinfoParseZoneAt lines { p with zoneIdx := p.zoneIdx + 1 } = .ok (some (q, lines'))) :
    zoneinfoParseLines (n + 1) (line :: lines) p = zoneinfoParseLines n lines' q := by
  simp only [zoneinfoParseLines, h, if_pos hs, hz]

theorem zoneinfoParseZoneAt_ok {zone : ZoneinfoZone} {lines' : List (List Char)}
    (hz : p.zoneIdx < maxNrZones)
    (h : zoneinfoParseZone true lines ((p.zi.nodes p.nodeIdx).zones p.zoneIdx) =
      .ok (true, zone, lines')) :
    zoneinfoParseZoneAt lines p = .ok (some (p.setZone zone, lines')) := by
  simp [zoneinfoParseZoneAt, hz, h, Nat.not_lt.mpr hz.le]

def RunsTo (L : List (List Char)) (p p' : ZoneinfoCursor) : Prop :=
  ∀ n rest, L.length + rest.length ≤ n → ∃ m, rest.length ≤ m ∧
    zoneinfoParseLines n (L ++ rest) p = zoneinfoParseLines m rest p'

namespace RunsTo
variable {line : List Char} {L M : List (List Char)} {q r : ZoneinfoCursor}

theorem nil : RunsTo [] p p := fun n _ h => ⟨n, by simpa using h, rfl⟩

theorem append (h₁ : RunsTo L p q) (h₂ : RunsTo M q r) : RunsTo (L ++ M) p r := fun n rest h => by
  obtain ⟨m, hm, e⟩ := h₁ n (M ++ rest) (by simp at h ⊢; omega)
  obtain ⟨k, hk, e'⟩ := h₂ m rest (by simpa using hm)
  exact ⟨k, hk, by rw [List.append_assoc, e, e']⟩

/-- One turn of the loop, which consumes a line and the lines `M` after it. -/
theorem turn (ht : ∀ n rest, zoneinfoParseLines (n + 1) (line :: (M ++ rest)) p =
      zoneinfoParseLines n rest q) (h : RunsTo L q r) : RunsTo (line :: (M ++ L)) p r := by
  intro n rest hn
  obtain ⟨n, rfl⟩ : ∃ k, n = k + 1 := ⟨n - 1, by simp at hn; omega⟩
  obtain ⟨m, hm, e⟩ := h n rest (by simp at hn; omega)
  exact ⟨m, hm, by rw [List.cons_append, List.append_assoc, ht, e]⟩

theorem skip (hl : scanNodeHeader line = .ok none) (h : RunsTo L p r) : RunsTo (line :: L) p r :=
  turn (M := []) (fun _ _ => zoneinfoParseLines_skip hl) h

/-- Lines none of which is a header leave the cursor as it is. -/
theorem skipAll (hL : ∀ l ∈ L, scanNodeHeader l = .ok none) : RunsTo L p p := by
  induction L with
  | nil => exact nil
  | cons l L ih => exact skip (hL l (.head _)) (ih fun l' h' => hL l' (.tail _ h'))

theorem other {next : List Char} (hl : scanNodeHeader line = .ok (some id))
    (hn : ¬(p.hasNode ∧ (p.zi.nodes p.nodeIdx).id = id))
    (hm : nodeStatsMarker.isPrefixOf next = false) (h : RunsTo L p r) :
    RunsTo (line :: next :: L) p r :=
  turn (M := [next]) (fun _ _ => zoneinfoParseLines_other hl hn hm) h

/-- A header of a new node, the marker, the per-node block `A` that `zoneinfo_parse_node`
reads up to the lines `D` it leaves, and the lines `D ++ B` of the first zone. -/
theorem newNode {next : List Char} {A B D : List (List Char)} {q' : ZoneinfoCursor}
    {f : Nat → Int} (hl : scanNodeHeader line = .ok (some id))
    (hn : ¬(p.hasNode ∧ (p.zi.nodes p.nodeIdx).id = id))
    (hm : nodeStatsMarker.isPrefixOf next = true) (ho : p.openNode id = some q)
    (hf : ∀ rest, zoneinfoParseNode ziNodeFieldCount (A ++ rest) (q.zi.nodes q.nodeIdx).fields =
      (true, f, D ++ rest))
    (hz : ∀ rest, zoneinfoParseZoneAt (D ++ (B ++ rest)) (q.setFields f) = .ok (some (q', rest)))
    (h : RunsTo L q' r) : RunsTo (line :: next :: (A ++ (B ++ L))) p r := by
  simpa only [List.cons_append, List.append_assoc] using turn (M := next :: (A ++ B))
    (fun _ rest => by
      rw [List.cons_append, List.append_assoc]
      exact zoneinfoParseLines_new hl hn hm ho (hf (B ++ rest)) (hz rest)) h

theorem sameNode {B : List (List Char)} (hl : scanNodeHeader line = .ok (some id))
    (hs : p.hasNode ∧ (p.zi.nodes p.nodeIdx).id = id)
    (hz : ∀ rest, zoneinfoParseZoneAt (B ++ rest) { p with zoneIdx := p.zoneIdx + 1 } =
      .ok (some (q, rest)))
    (h : RunsTo L q r) : RunsTo (line :: (B ++ L)) p r :=
  turn (fun _ rest => zoneinfoParseLines_same hl hs (hz rest)) h

end RunsTo

/-- A run of the loop over all the lines of a text, as `zoneinfo_parse` starts it. -/
theorem zoneinfoParse_of_runsTo {buf : List Char} {p : ZoneinfoCursor}
    (h : RunsTo (strtokAll ['\n'] buf) ZoneinfoCursor.init p) :
    zoneinfoParse (some buf) = if p.hasNode then
      (zoneinfoTotals { p.closeNode with nodeCount := p.nodeIdx + 1 }).map some else .ok none := by
  obtain ⟨m, -, e⟩ := h (strtokAll ['\n'] buf).length [] (by simp)
  have hm : zoneinfoParseLines m [] p = .ok (some p) := by cases m <;> rfl
  rw [List.append_nil, hm] at e
  simp only [zoneinfoParse, e]
  cases p.hasNode <;> rfl

end Loop

/-! ## What the cursor holds -/

@[simp] theorem Zoneinfo.modifyNode_nodes (zi : Zoneinfo) (i j : Nat) (f : ZoneinfoNode → ZoneinfoNode) :
    (zi.modifyNode i f).nodes j = if j = i then f (zi.nodes i) else zi.nodes j := by
  simp [Zoneinfo.modifyNode, Function.update_apply]

@[simp] theorem Zoneinfo.modifyNode_totalInactiveFile (zi : Zoneinfo) (i : Nat) (f) :
    (zi.modifyNode i f).totalInactiveFile = zi.totalInactiveFile := rfl
@[simp] theorem Zoneinfo.modifyNode_totalActiveFile (zi : Zoneinfo) (i : Nat) (f) :
    (zi.modifyNode i f).totalActiveFile = zi.totalActiveFile := rfl
@[simp] theorem Zoneinfo.modifyNode_totalreservePages (zi : Zoneinfo) (i : Nat) (f) :
    (zi.modifyNode i f).totalreservePages = zi.totalreservePages := rfl

/-- What the parse keeps of a node: its id, its zones as `calc_zone_watermarks` reads them,
and the two per-node fields the totals add up. -/
structure NodeView where
  id : Int
  zones : List Zone
  inactiveFile : Int
  activeFile : Int

/-- The view of node `i` of a record whose `zone_count` is set. -/
def Zoneinfo.nodeView (zi : Zoneinfo) (i : Nat) : NodeView :=
  ⟨(zi.nodes i).id, (List.range (zi.nodes i).zoneCount).map fun j => ((zi.nodes i).zones j).toZone,
    (zi.nodes i).fields ziNodeNrInactiveFile, (zi.nodes i).fields ziNodeNrActiveFile⟩

/-- What the totals loop adds for the zones of a node: `max_protection + high` of each. -/
def NodeView.reserve (v : NodeView) : Int := (v.zones.map fun z => z.maxProtection + z.high).sum

/-- The fields of a zone that the sums read are not negative: `max_protection` and `high`
in the totals loop, and `low` and `min` as well when `calc_zone_watermarks` counts it. -/
def Zone.Nonneg (z : Zone) : Prop :=
  0 ≤ z.maxProtection ∧ 0 ≤ z.high ∧ (z.present → 0 ≤ z.low ∧ 0 ≤ z.min)

/-- The values of a node the totals loop adds are not negative. -/
def NodeView.Nonneg (v : NodeView) : Prop :=
  0 ≤ v.inactiveFile ∧ 0 ≤ v.activeFile ∧ ∀ z ∈ v.zones, z.Nonneg

theorem NodeView.Nonneg.reserve_nonneg {v : NodeView} (h : v.Nonneg) : 0 ≤ v.reserve :=
  List.sum_nonneg fun _ hx => by
    obtain ⟨z, hz, rfl⟩ := List.mem_map.mp hx
    have := h.2.2 z hz
    unfold Zone.Nonneg at this
    omega

theorem NodeView.sums_nonneg {V : List NodeView} (h : ∀ v ∈ V, v.Nonneg) :
    0 ≤ (V.map NodeView.reserve).sum ∧ 0 ≤ (V.map NodeView.inactiveFile).sum ∧
      0 ≤ (V.map NodeView.activeFile).sum := by
  refine ⟨List.sum_nonneg ?_, List.sum_nonneg ?_, List.sum_nonneg ?_⟩ <;>
    intro _ hx <;> obtain ⟨v, hv, rfl⟩ := List.mem_map.mp hx
  exacts [(h v hv).reserve_nonneg, (h v hv).1, (h v hv).2.1]

/-- The zone `zoneinfo_parse_zone` is called on. -/
def ZoneinfoCursor.slot (p : ZoneinfoCursor) : ZoneinfoZone := (p.zi.nodes p.nodeIdx).zones p.zoneIdx

theorem ZoneinfoCursor.slot_setFields (p : ZoneinfoCursor) (f : Nat → Int) :
    (p.setFields f).slot = p.slot := by
  simp [ZoneinfoCursor.slot, ZoneinfoCursor.setFields]

/-- The cursor holds the nodes `V`, the last one open, the zones after those are still as
`memset` left them, and so are the totals. -/
structure ZoneinfoCursor.Holds (p : ZoneinfoCursor) (V : List NodeView) : Prop where
  hasNode : p.hasNode = true ↔ V ≠ []
  nodeIdx : p.nodeIdx = V.length - 1
  views : (List.range V.length).map p.closeNode.nodeView = V
  fresh : ∀ i j, V.length ≤ i ∨ (i + 1 = V.length ∧ p.zoneIdx < j) →
    (p.zi.nodes i).zones j = ZoneinfoZone.zero
  totals : p.zi.totalreservePages = 0 ∧ p.zi.totalInactiveFile = 0 ∧ p.zi.totalActiveFile = 0

theorem ZoneinfoCursor.holds_init : ZoneinfoCursor.init.Holds [] where
  hasNode := by simp [ZoneinfoCursor.init]
  nodeIdx := rfl
  views := rfl
  fresh _ _ _ := rfl
  totals := ⟨rfl, rfl, rfl⟩

@[simp] theorem ZoneinfoCursor.closeNode_nodes (p : ZoneinfoCursor) (i : Nat) :
    p.closeNode.nodes i =
      if i = p.nodeIdx then { p.zi.nodes i with zoneCount := p.zoneIdx + 1 } else p.zi.nodes i := by
  simp only [ZoneinfoCursor.closeNode, Zoneinfo.modifyNode_nodes]; split <;> simp_all

theorem map_range_succ_eq_append {α} {g : Nat → α} {n : Nat} {W : List α} {v : α}
    (h : (List.range (n + 1)).map g = W ++ [v]) : (List.range n).map g = W ∧ g n = v := by
  rw [List.range_succ, List.map_append, List.map_singleton] at h
  obtain ⟨h₁, h₂⟩ := List.append_inj h (by simpa using congrArg List.length h)
  exact ⟨h₁, by simpa using h₂⟩

/-- Checked additions of values that are not negative and whose sum stays below `2^63`
all succeed. -/
theorem foldlM_accumulateInt64 {α} (f g : α → Int) :
    ∀ (xs : List α) (acc : Int), 0 ≤ acc → (∀ x ∈ xs, 0 ≤ f x ∧ 0 ≤ g x) →
      acc + (xs.map fun x => f x + g x).sum < 2 ^ 63 →
      xs.foldlM (fun total x => accumulateInt64 total (f x) (g x)) acc =
        some (acc + (xs.map fun x => f x + g x).sum)
  | [], acc, _, _, _ => by simp
  | x :: xs, acc, h₀, hx, hlt => by
    have hrest : 0 ≤ (xs.map fun x => f x + g x).sum := List.sum_nonneg fun _ hm => by
      obtain ⟨y, hy, rfl⟩ := List.mem_map.mp hm
      have := hx y (.tail _ hy); omega
    obtain ⟨hf, hg⟩ := hx x (.head _)
    rw [List.map_cons, List.sum_cons] at hlt ⊢
    rw [List.foldlM_cons, accumulateInt64_eq h₀ hf hg (by omega), Option.bind_eq_bind,
      Option.some_bind, foldlM_accumulateInt64 f g xs _ (by omega) (fun y hy => hx y (.tail _ hy))
        (by omega), add_assoc]

/-- A turn of the totals loop whose sums fit adds the node's values. -/
theorem zoneinfoTotalsStep_ok {zi acc : Zoneinfo} {n : Nat}
    (hc : (zi.nodes n).zoneCount ≤ maxNrZones) (hv : (zi.nodeView n).Nonneg)
    (h₀ : 0 ≤ acc.totalreservePages) (h₁ : 0 ≤ acc.totalInactiveFile)
    (h₂ : 0 ≤ acc.totalActiveFile)
    (h₃ : acc.totalreservePages + (zi.nodeView n).reserve < 2 ^ 63)
    (h₄ : acc.totalInactiveFile + (zi.nodeView n).inactiveFile < 2 ^ 63)
    (h₅ : acc.totalActiveFile + (zi.nodeView n).activeFile < 2 ^ 63) :
    zoneinfoTotalsStep zi acc n = .ok { acc with
      totalreservePages := acc.totalreservePages + (zi.nodeView n).reserve
      totalInactiveFile := acc.totalInactiveFile + (zi.nodeView n).inactiveFile
      totalActiveFile := acc.totalActiveFile + (zi.nodeView n).activeFile } := by
  obtain ⟨hi, ha, hz⟩ := hv
  have hr : (zi.nodeView n).reserve = ((List.range (zi.nodes n).zoneCount).map fun j =>
      ((zi.nodes n).zones j).maxProtection + ((zi.nodes n).zones j).fields ziZoneHigh).sum := by
    simp only [NodeView.reserve, Zoneinfo.nodeView, List.map_map]; rfl
  have hz' : ∀ j ∈ List.range (zi.nodes n).zoneCount,
      0 ≤ ((zi.nodes n).zones j).maxProtection ∧
        0 ≤ ((zi.nodes n).zones j).fields ziZoneHigh := fun j hj =>
    have h := hz _ (List.mem_map_of_mem _ hj); ⟨h.1, h.2.1⟩
  have e₄ : addInt64 acc.totalInactiveFile ((zi.nodes n).fields ziNodeNrInactiveFile) =
      some (acc.totalInactiveFile + (zi.nodeView n).inactiveFile) := addInt64_eq h₁ hi h₄
  have e₅ : addInt64 acc.totalActiveFile ((zi.nodes n).fields ziNodeNrActiveFile) =
      some (acc.totalActiveFile + (zi.nodeView n).activeFile) := addInt64_eq h₂ ha h₅
  rw [hr] at h₃ ⊢
  simp only [zoneinfoTotalsStep, if_neg (Nat.not_lt.mpr hc),
    foldlM_accumulateInt64 _ _ _ _ h₀ hz' h₃, e₄, e₅, Option.bind_eq_bind, Option.some_bind]

/-- The totals loop over nodes whose values are not negative and whose sums fit. -/
theorem zoneinfoTotals_foldlM (zi : Zoneinfo) :
    ∀ (l : List Nat) (acc : Zoneinfo), (∀ i ∈ l, (zi.nodes i).zoneCount ≤ maxNrZones) →
      (∀ v ∈ l.map zi.nodeView, v.Nonneg) →
      0 ≤ acc.totalreservePages → 0 ≤ acc.totalInactiveFile → 0 ≤ acc.totalActiveFile →
      acc.totalreservePages + ((l.map zi.nodeView).map NodeView.reserve).sum < 2 ^ 63 →
      acc.totalInactiveFile + ((l.map zi.nodeView).map NodeView.inactiveFile).sum < 2 ^ 63 →
      acc.totalActiveFile + ((l.map zi.nodeView).map NodeView.activeFile).sum < 2 ^ 63 →
      ∃ acc', l.foldlM (zoneinfoTotalsStep zi) acc = .ok acc' ∧
        acc'.nodeCount = acc.nodeCount ∧ acc'.nodes = acc.nodes ∧
        acc'.totalreservePages =
          acc.totalreservePages + ((l.map zi.nodeView).map NodeView.reserve).sum ∧
        acc'.totalInactiveFile =
          acc.totalInactiveFile + ((l.map zi.nodeView).map NodeView.inactiveFile).sum ∧
        acc'.totalActiveFile =
          acc.totalActiveFile + ((l.map zi.nodeView).map NodeView.activeFile).sum
  | [], acc, _, _, _, _, _, _, _, _ => ⟨acc, rfl, rfl, rfl, by simp, by simp, by simp⟩
  | i :: l, acc, hc, hv, h₀, h₁, h₂, h₃, h₄, h₅ => by
    have hv' : ∀ v ∈ l.map zi.nodeView, v.Nonneg := fun v h => hv v (.tail _ h)
    have hi := hv _ (.head _)
    obtain ⟨r₀, i₀, a₀⟩ := NodeView.sums_nonneg hv'
    have r₁ := hi.reserve_nonneg
    simp only [List.map_cons, List.sum_cons] at h₃ h₄ h₅ ⊢
    rw [List.foldlM_cons, zoneinfoTotalsStep_ok (hc i (.head _)) hi h₀ h₁ h₂
      (by omega) (by omega) (by omega)]
    refine (zoneinfoTotals_foldlM zi l _ (fun j hj => hc j (.tail _ hj)) hv' ?_ ?_ ?_ ?_ ?_ ?_).imp
      fun acc' ⟨e, e₁, e₂, e₃, e₄, e₅⟩ =>
        ⟨e, e₁, e₂, by rw [e₃]; ring, by rw [e₄]; ring, by rw [e₅]; ring⟩
    all_goals dsimp only; have := hi.1; have := hi.2.1; omega

namespace ZoneinfoCursor.Holds
variable {p : ZoneinfoCursor} {V W : List NodeView} {v : NodeView}

theorem nodeIdx_eq (h : p.Holds (W ++ [v])) : p.nodeIdx = W.length := by
  simpa using h.nodeIdx

/-- The open node is the last one held. -/
theorem id_eq (h : p.Holds (W ++ [v])) : (p.zi.nodes p.nodeIdx).id = v.id := by
  have hv := (map_range_succ_eq_append (by simpa using h.views)).2
  rw [← hv, h.nodeIdx_eq]
  simp [Zoneinfo.nodeView, h.nodeIdx_eq]

/-- Opening a node when fewer than `MAX_NR_NODES` are held: the new node comes after them,
with the id, and the nodes before it are closed. -/
theorem openNode_eq (h : p.Holds V) (hlen : V.length < maxNrNodes) (id : Int) :
    ∃ q, p.openNode id = some q ∧ q.nodeIdx = V.length ∧ q.zoneIdx = 0 ∧ q.hasNode = true ∧
      (∀ i, q.zi.nodes i =
        if i = V.length then { p.zi.nodes i with id := id } else p.closeNode.nodes i) ∧
      q.zi.totalreservePages = 0 ∧ q.zi.totalInactiveFile = 0 ∧ q.zi.totalActiveFile = 0 := by
  have hidx := h.nodeIdx
  cases hp : p.hasNode
  · have hV : V = [] := by simpa [hp] using h.hasNode
    subst hV
    refine ⟨⟨p.zi.modifyNode p.nodeIdx fun nd => { nd with id := id }, true, p.nodeIdx, 0⟩,
      by simp [ZoneinfoCursor.openNode, hp],
      by simpa using hidx, rfl, rfl, fun i => ?_, h.totals⟩
    simp only [Zoneinfo.modifyNode_nodes, ZoneinfoCursor.closeNode_nodes, hidx]
    split <;> simp_all
  · have hV : V ≠ [] := h.hasNode.mp hp
    have h1 : V.length = 1 := by
      have := List.length_pos.mpr hV; simp [maxNrNodes] at hlen; omega
    have hn : p.nodeIdx + 1 ≠ maxNrNodes := by simp [maxNrNodes, hidx, h1]
    refine ⟨_, by simp [ZoneinfoCursor.openNode, hp, hn]; rfl, by simp [hidx, h1], rfl, rfl,
      fun i => ?_, by simpa [ZoneinfoCursor.closeNode] using h.totals⟩
    simp only [Zoneinfo.modifyNode_nodes, hidx, h1]
    split <;> simp_all

/-- A new node with its per-node fields and its first zone stored. -/
theorem openNode_holds (h : p.Holds V) (hlen : V.length < maxNrNodes) (id : Int) :
    ∃ q, p.openNode id = some q ∧ q.zoneIdx < maxNrZones ∧ q.slot = ZoneinfoZone.zero ∧
      ∀ f z, ((q.setFields f).setZone z).Holds
        (V ++ [⟨id, [z.toZone], f ziNodeNrInactiveFile, f ziNodeNrActiveFile⟩]) := by
  obtain ⟨q, hq, hidx, hz, hn, hnodes, ht⟩ := h.openNode_eq hlen id
  have hfresh : ∀ j, (q.zi.nodes V.length).zones j = ZoneinfoZone.zero := fun j => by
    simpa [hnodes] using h.fresh V.length j (.inl le_rfl)
  refine ⟨q, hq, by simp [hz, maxNrZones], by simpa [ZoneinfoCursor.slot, hidx, hz] using hfresh 0,
    fun f z => ⟨by simp [ZoneinfoCursor.setZone, ZoneinfoCursor.setFields, hn], by simp [ZoneinfoCursor.setZone, ZoneinfoCursor.setFields, hidx], ?_, ?_, by simpa [ZoneinfoCursor.setZone, ZoneinfoCursor.setFields] using ht⟩⟩
  · rw [List.length_append, List.length_singleton, List.range_succ, List.map_append]
    congr 1
    · refine (List.map_congr_left fun i hi => ?_).trans h.views
      have hi : i ≠ V.length := (List.mem_range.mp hi).ne
      simp [Zoneinfo.nodeView, ZoneinfoCursor.setZone, ZoneinfoCursor.setFields, hidx, hnodes, hi]
    · simp [Zoneinfo.nodeView, ZoneinfoCursor.setZone, ZoneinfoCursor.setFields, hidx, hz, hnodes,
        List.range_succ]
  · intro i j hij
    have hij' : V.length + 1 ≤ i ∨ (i = V.length ∧ 0 < j) := by
      simpa [ZoneinfoCursor.setZone, ZoneinfoCursor.setFields, hz, Nat.succ_le] using hij
    simp only [ZoneinfoCursor.setZone, ZoneinfoCursor.setFields, Zoneinfo.modifyNode_nodes, hidx, hz]
    rcases hij' with hi | ⟨rfl, hj⟩
    · have := h.fresh i j (.inl (by omega))
      simp only [hnodes, ZoneinfoCursor.closeNode_nodes, if_neg (show i ≠ V.length by omega)]
      split <;> assumption
    · simpa [Function.update_apply, hj.ne'] using hfresh j

/-- The zones the open node holds are those up to `zone_idx`. -/
theorem zones_length (h : p.Holds (W ++ [v])) : v.zones.length = p.zoneIdx + 1 := by
  have hv : p.closeNode.nodeView W.length = v :=
    (map_range_succ_eq_append (by simpa using h.views)).2
  rw [← hv]
  simp [Zoneinfo.nodeView, h.nodeIdx_eq]

/-- The next zone of the open node stored. -/
theorem nextZone_holds (h : p.Holds (W ++ [v])) (hz : v.zones.length < maxNrZones) :
    let q : ZoneinfoCursor := { p with zoneIdx := p.zoneIdx + 1 }
    q.zoneIdx < maxNrZones ∧ q.slot = ZoneinfoZone.zero ∧
      ∀ z, (q.setZone z).Holds (W ++ [{ v with zones := v.zones ++ [z.toZone] }]) := by
  have hlen := h.zones_length
  have hidx := h.nodeIdx_eq
  have hviews := map_range_succ_eq_append (by simpa using h.views)
  refine ⟨by simp; omega, h.fresh _ _ (.inr ⟨by simp [hidx], by simp⟩), fun z => ⟨?_, ?_, ?_, ?_, ?_⟩⟩
  · simpa [ZoneinfoCursor.setZone] using h.hasNode
  · simpa [ZoneinfoCursor.setZone] using h.nodeIdx
  · rw [List.length_append, List.length_singleton, List.range_succ, List.map_append]
    congr 1
    · refine (List.map_congr_left fun i hi => ?_).trans hviews.1
      have hi : i ≠ W.length := (List.mem_range.mp hi).ne
      simp [Zoneinfo.nodeView, ZoneinfoCursor.setZone, hidx, hi]
    · rw [← hviews.2]
      simp [Zoneinfo.nodeView, ZoneinfoCursor.setZone, hidx, List.range_succ, Function.update_apply]
      exact fun a ha => by rw [if_neg (by omega)]
  · intro i j hij
    have hij' : W.length + 1 ≤ i ∨ (i = W.length ∧ p.zoneIdx + 1 < j) := by
      simpa [ZoneinfoCursor.setZone, Nat.succ_le] using hij
    simp only [ZoneinfoCursor.setZone, Zoneinfo.modifyNode_nodes, hidx]
    rcases hij' with hi | ⟨rfl, hj⟩
    · simpa [show i ≠ W.length by omega] using h.fresh i j (.inl (by simp; omega))
    · simpa [Function.update_apply, hj.ne'] using h.fresh _ j (.inr ⟨by simp, by omega⟩)
  · simpa [ZoneinfoCursor.setZone] using h.totals

/-- A cursor holding the nodes `V`, its open node closed: the totals loop succeeds, and the
record holds the zones of `V` in order and the sums of their per-node fields. -/
theorem parse_result (h : p.Holds V) (hz : ∀ v ∈ V, v.zones.length ≤ maxNrZones)
    (hnn : ∀ v ∈ V, v.Nonneg) (hr : (V.map NodeView.reserve).sum < 2 ^ 63)
    (hi : (V.map NodeView.inactiveFile).sum < 2 ^ 63)
    (ha : (V.map NodeView.activeFile).sum < 2 ^ 63) :
    ∃ zi, zoneinfoTotals { p.closeNode with nodeCount := V.length } = .ok zi ∧
      zi.toZoneInfo.zones = V.flatMap NodeView.zones ∧
      zi.totalreservePages = (V.map NodeView.reserve).sum ∧
      zi.totalInactiveFile = (V.map NodeView.inactiveFile).sum ∧
      zi.totalActiveFile = (V.map NodeView.activeFile).sum := by
  set zc : Zoneinfo := { p.closeNode with nodeCount := V.length }
  have hview : (List.range V.length).map zc.nodeView = V := h.views
  obtain ⟨t₀, t₁, t₂⟩ : zc.totalreservePages = 0 ∧ zc.totalInactiveFile = 0 ∧
      zc.totalActiveFile = 0 := h.totals
  have hcount : ∀ i ∈ List.range V.length, (zc.nodes i).zoneCount ≤ maxNrZones := fun i hi => by
    have := hz _ (hview ▸ List.mem_map_of_mem zc.nodeView hi)
    rwa [Zoneinfo.nodeView, List.length_map, List.length_range] at this
  rw [← hview] at hnn hr hi ha ⊢
  obtain ⟨zi, e, h₁, h₂, h₃, h₄, h₅⟩ := zoneinfoTotals_foldlM zc (List.range V.length) zc
    hcount hnn t₀.ge t₁.ge t₂.ge (by omega) (by omega) (by omega)
  refine ⟨zi, e, ?_, by rw [h₃, t₀, zero_add], by rw [h₄, t₁, zero_add],
    by rw [h₅, t₂, zero_add]⟩
  simp only [Zoneinfo.toZoneInfo, h₁, h₂, List.flatMap_map]; rfl

end ZoneinfoCursor.Holds
end Lmkd
