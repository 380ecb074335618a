import L2Flow.CatalogMap
import L2Flow.Text
import Mathlib.Data.Nat.Digits.Lemmas

/-!
# The catalog file

`InstrumentCatalog::LoadCsv` reads a header and one definition a line, and hands them to
`Build`. `load_csv_exact` says which files it accepts and that the catalog is the one that
`Build` makes of the rows, and that the file written for a list of definitions gives back the
catalog of that list.

A file is the list of its bytes, read to its end.
-/

namespace L2Flow

/-! ## Rows of fields -/

def kComma : UInt8 := 0x2c

/-- One pass of the loop of `SplitCsvLine`, on `start` and `fields`. -/
def splitStep (line : List UInt8) (state : ℕ × List (List UInt8)) (index : ℕ) :
    ℕ × List (List UInt8) :=
  if index = line.length ∨ (line)[index]? = some kComma then
    (index + 1, state.2 ++ [(line.drop state.1).take (index - state.1)])
  else state

/-- `SplitCsvLine`. -/
def splitCsvLine (line : List UInt8) : List (List UInt8) :=
  ((List.range (line.length + 1)).foldl (splitStep line) (0, [])).2

namespace InstrumentCatalog

/-! ## The loader -/

/-- The required header. -/
def csvHeader : List UInt8 :=
  asciiBytes "instrument_id,market,security_id_source,security_id"

/-- The definition in a row, or what is said of it. -/
def readRow (line : List UInt8) : Except String InstrumentDefinition :=
  if line = [] then .error "empty catalog row at line "
  else
    match splitCsvLine line with
    | [id, market, source, security] =>
      match fromChars (2 ^ 32 - 1) id with
      | (some value, []) =>
        if market = asciiBytes "SH" then .ok ⟨value, .kShanghai, source, security⟩
        else if market = asciiBytes "SZ" then .ok ⟨value, .kShenzhen, source, security⟩
        else .error "market must be SH or SZ at line "
      | _ => .error "invalid instrument_id at line "
    | _ => .error "catalog row must contain four columns at line "

/-- The loop over the rows. -/
def readRows : ℕ → List InstrumentDefinition → List (List UInt8) →
    Except String (List InstrumentDefinition)
  | _, definitions, [] => .ok definitions
  | lineNumber, definitions, line :: rest =>
    match readRow (dropReturn line) with
    | .error error => .error (error ++ toString (lineNumber + 1))
    | .ok definition => readRows (lineNumber + 1) (definitions ++ [definition]) rest

/-- `LoadCsv`, of the bytes of the file : whether it failed, and `output` afterwards. -/
def loadCsv (content : List UInt8) (output : InstrumentCatalog) :
    Option String × InstrumentCatalog :=
  match fileLines content with
  | [] => (some "catalog CSV is empty", output)
  | header :: rows =>
    if dropReturn header ≠ csvHeader then
      (some "catalog CSV header is not the required schema", output)
    else
      match readRows 1 [] rows with
      | .error error => (some error, output)
      | .ok definitions => buildBy hashKey definitions output

end InstrumentCatalog

/-! ## Fields -/

/-- What the loop of `SplitCsvLine` has found before a pass. -/
structure Splitting (line : List UInt8) (index : ℕ) (state : ℕ × List (List UInt8)) : Prop where
  start_le : state.1 ≤ index
  plain : ∀ j, state.1 ≤ j → j < index → (line)[j]? ≠ some kComma
  split : line.splitOn kComma = state.2 ++ (line.drop state.1).splitOn kComma

theorem Splitting.segment {line : List UInt8} {index : ℕ} {state : ℕ × List (List UInt8)}
    (h : Splitting line index state) :
    kComma ∉ (line.drop state.1).take (index - state.1) := by
  intro hmem
  obtain ⟨j, hj, hget⟩ := List.getElem_of_mem hmem
  rw [List.length_take] at hj
  refine h.plain (state.1 + j) (Nat.le_add_right _ _) (by omega) ?_
  rw [List.getElem_take, List.getElem_drop] at hget
  exact List.getElem?_eq_some_iff.2 ⟨_, hget⟩

theorem Splitting.step {line : List UInt8} {index : ℕ} {state : ℕ × List (List UInt8)}
    (h : Splitting line index state) (hindex : index < line.length) :
    Splitting line (index + 1) (splitStep line state index) := by
  rw [splitStep]
  split_ifs with hcomma
  · have hoctet : (line)[index] = kComma := by
      have hget := hcomma.resolve_left (Nat.ne_of_lt hindex)
      rwa [List.getElem?_eq_getElem hindex, Option.some.injEq] at hget
    have hdrop : line.drop state.1 =
        (line.drop state.1).take (index - state.1) ++ kComma :: line.drop (index + 1) := by
      conv_lhs => rw [← List.take_append_drop (index - state.1) (line.drop state.1)]
      have hstart := h.start_le
      rw [List.drop_drop, show state.1 + (index - state.1) = index by omega,
        List.drop_eq_getElem_cons hindex, hoctet]
    refine ⟨le_refl _, fun j hj hlt => by omega, ?_⟩
    rw [h.split, hdrop, List.splitOn_append_cons_self, List.splitOn_eq_singleton h.segment,
      List.append_assoc]
    congr 3
    rw [← hdrop]
  · refine ⟨Nat.le_succ_of_le h.start_le, fun j hj hlt => ?_, h.split⟩
    rcases Nat.lt_succ_iff_lt_or_eq.1 hlt with hlt | rfl
    · exact h.plain j hj hlt
    · exact fun heq => hcomma (Or.inr heq)

/-- `SplitCsvLine` splits at every comma. -/
theorem splitCsvLine_eq (line : List UInt8) : splitCsvLine line = line.splitOn kComma := by
  have hpasses : ∀ index ≤ line.length,
      Splitting line index ((List.range index).foldl (splitStep line) (0, [])) := by
    intro index
    induction index with
    | zero => exact fun _ => ⟨le_refl _, fun j _ hlt => absurd hlt (Nat.not_lt_zero j), rfl⟩
    | succ index ih =>
      intro hindex
      rw [List.range_succ, List.foldl_append]
      exact (ih (by omega)).step (by omega)
  have hlast := hpasses line.length (le_refl _)
  rw [splitCsvLine, List.range_succ, List.foldl_append, hlast.split]
  simp only [List.foldl_cons, List.foldl_nil, splitStep, true_or, if_true]
  have hplain := hlast.segment
  rw [← List.length_drop, List.take_length] at hplain ⊢
  rw [List.splitOn_eq_singleton hplain]

/-! ## Rows -/

namespace InstrumentCatalog

/-- The row, without its carriage return, has four fields, which are the definition. -/
def RowHolds (line : List UInt8) (definition : InstrumentDefinition) : Prop :=
  ∃ id market, line = [kComma].intercalate
      [id, market, definition.securityIdSource, definition.securityId] ∧
    (∀ field ∈ [id, market, definition.securityIdSource, definition.securityId],
      kComma ∉ field) ∧
    (id ≠ [] ∧ (∀ octet ∈ id, isDigit octet = true) ∧ digitsValue id < 2 ^ 32 ∧
      definition.instrumentId = digitsValue id) ∧
    ((market = asciiBytes "SH" ∧ definition.market = .kShanghai) ∨
      (market = asciiBytes "SZ" ∧ definition.market = .kShenzhen))

theorem splitCsvLine_eq_iff {line : List UInt8} {fields : List (List UInt8)} (hne : fields ≠ []) :
    splitCsvLine line = fields ↔
      line = [kComma].intercalate fields ∧ ∀ field ∈ fields, kComma ∉ field := by
  rw [splitCsvLine_eq]
  constructor
  · rintro rfl
    exact ⟨(List.intercalate_splitOn kComma).symm, fun field => notMem_of_mem_splitOn⟩
  · rintro ⟨rfl, hplain⟩
    exact List.splitOn_intercalate kComma hplain hne

theorem readRow_eq_ok_iff {line : List UInt8} {definition : InstrumentDefinition} :
    readRow line = .ok definition ↔ RowHolds line definition := by
  have hcarries : asciiBytes "SH" ≠ asciiBytes "SZ" := by decide
  rw [readRow]
  constructor
  · intro h
    split_ifs at h with hempty
    split at h
    · next id market source security hsplit =>
      split at h
      · next value hvalue =>
        obtain ⟨hid, hdigits, hle, rfl⟩ := fromChars_eq_iff.1 hvalue
        obtain ⟨hline, hplain⟩ := (splitCsvLine_eq_iff (by simp)).1 hsplit
        split_ifs at h with hshanghai hshenzhen
        · obtain rfl := Except.ok.inj h
          exact ⟨id, market, hline, hplain, ⟨hid, hdigits, by omega, rfl⟩, Or.inl ⟨hshanghai, rfl⟩⟩
        · obtain rfl := Except.ok.inj h
          exact ⟨id, market, hline, hplain, ⟨hid, hdigits, by omega, rfl⟩, Or.inr ⟨hshenzhen, rfl⟩⟩
      · cases h
    · cases h
  · rintro ⟨id, market, hline, hplain, ⟨hid, hdigits, hlt, hvalue⟩, hmarket⟩
    have hsplit := (splitCsvLine_eq_iff (by simp)).2 ⟨hline, hplain⟩
    have hnonempty : line ≠ [] := by
      rintro rfl
      have hlength := congrArg List.length hline
      simp [List.intercalate] at hlength
    have hparsed : fromChars (2 ^ 32 - 1) id = (some definition.instrumentId, []) :=
      fromChars_eq_iff.2 ⟨hid, hdigits, by omega, hvalue⟩
    obtain ⟨instrumentId, recorded, source, security⟩ := definition
    rw [if_neg hnonempty, hsplit]
    simp only [hparsed]
    rcases hmarket with ⟨rfl, hrecorded⟩ | ⟨rfl, hrecorded⟩
    · rw [if_pos rfl, ← show recorded = .kShanghai from hrecorded]
    · rw [if_neg hcarries.symm, if_pos rfl, ← show recorded = .kShenzhen from hrecorded]

/-- The rows are read in order. -/
theorem readRows_eq_ok_iff : ∀ {rows : List (List UInt8)} {lineNumber : ℕ}
    {earlier definitions : List InstrumentDefinition},
    readRows lineNumber earlier rows = .ok definitions ↔
      ∃ new, definitions = earlier ++ new ∧
        List.Forall₂ (fun line => RowHolds (dropReturn line)) rows new
  | [], lineNumber, earlier, definitions => by
    rw [readRows]
    constructor
    · rintro ⟨⟩
      exact ⟨[], (List.append_nil _).symm, .nil⟩
    · rintro ⟨new, rfl, hrows⟩
      cases hrows
      rw [List.append_nil]
  | line :: rest, lineNumber, earlier, definitions => by
    rw [readRows]
    rcases hrow : readRow (dropReturn line) with error | definition
    · constructor
      · rintro ⟨⟩
      · rintro ⟨new, -, hrows⟩
        rcases hrows with - | ⟨hheld, -⟩
        rw [readRow_eq_ok_iff.2 hheld] at hrow
        cases hrow
    · show readRows (lineNumber + 1) (earlier ++ [definition]) rest = _ ↔ _
      rw [readRows_eq_ok_iff]
      constructor
      · rintro ⟨new, rfl, hrows⟩
        exact ⟨definition :: new, List.append_assoc .., .cons (readRow_eq_ok_iff.1 hrow) hrows⟩
      · rintro ⟨new, rfl, hrows⟩
        rcases hrows with - | ⟨hheld, hrest⟩
        rw [readRow_eq_ok_iff.2 hheld] at hrow
        obtain rfl := Except.ok.inj hrow
        exact ⟨_, List.append_cons .., hrest⟩

/-! ## Rendering -/

/-- The decimal digits of an id. -/
def decimalBytes (n : ℕ) : List UInt8 :=
  (Nat.digits 10 n).reverse.map fun digit => UInt8.ofNat (0x30 + digit)

def marketText : Market → List UInt8
  | .kShanghai => asciiBytes "SH"
  | .kShenzhen => asciiBytes "SZ"
  | _ => []

def rowBytes (definition : InstrumentDefinition) : List UInt8 :=
  [kComma].intercalate [decimalBytes definition.instrumentId, marketText definition.market,
    definition.securityIdSource, definition.securityId]

def lineEnd (crlf : Bool) : List UInt8 :=
  if crlf then [kCarriageReturn, kNewline] else [kNewline]

/-- The file of a list of definitions. -/
def renderCsv (crlf final : Bool) (definitions : List InstrumentDefinition) : List UInt8 :=
  (lineEnd crlf).intercalate (csvHeader :: definitions.map rowBytes) ++
    if final then lineEnd crlf else []

theorem digitByte {digit : ℕ} (h : digit < 10) :
    (UInt8.ofNat (0x30 + digit)).toNat = 0x30 + digit :=
  Nat.mod_eq_of_lt (by omega)

theorem digitsValue_decimalBytes (n : ℕ) : digitsValue (decimalBytes n) = n := by
  have hfold : ∀ digits : List ℕ, (∀ digit ∈ digits, digit < 10) →
      digits.foldr (fun digit value => value * 10 + ((UInt8.ofNat (0x30 + digit)).toNat - 0x30)) 0 =
        Nat.ofDigits 10 digits := by
    intro digits
    induction digits with
    | nil => exact fun _ => rfl
    | cons digit rest ih =>
      intro hlt
      rw [List.foldr_cons, ih fun d hd => hlt d (List.mem_cons_of_mem _ hd), Nat.ofDigits_cons,
        digitByte (hlt digit List.mem_cons_self)]
      omega
  rw [digitsValue, decimalBytes, List.foldl_map, List.foldl_reverse,
    hfold _ fun digit hdigit => Nat.digits_lt_base (by norm_num) hdigit, Nat.ofDigits_digits]

theorem isDigit_decimalBytes (n : ℕ) : ∀ octet ∈ decimalBytes n, isDigit octet = true := by
  intro octet hoctet
  obtain ⟨digit, hdigit, rfl⟩ := List.mem_map.1 hoctet
  have hlt : digit < 10 := Nat.digits_lt_base (by norm_num) (List.mem_reverse.1 hdigit)
  rw [isDigit, Bool.and_eq_true, decide_eq_true_iff, decide_eq_true_iff, UInt8.le_iff_toNat_le,
    UInt8.le_iff_toNat_le, digitByte hlt]
  exact ⟨Nat.le_add_right _ _, show 0x30 + digit ≤ 0x39 by omega⟩

theorem decimalBytes_ne_nil {n : ℕ} (h : n ≠ 0) : decimalBytes n ≠ [] := by
  rw [decimalBytes, Ne, List.map_eq_nil_iff, List.reverse_eq_nil_iff, Nat.digits_eq_nil_iff_eq_zero]
  exact h

/-! ## Lines -/

/-- A line that can be written : it is not empty, and has no line end of either kind. -/
structure Writable (line : List UInt8) : Prop where
  nonempty : line ≠ []
  newline : kNewline ∉ line
  carriageReturn : kCarriageReturn ∉ line

theorem Writable.dropReturn {line : List UInt8} (h : Writable line) : dropReturn line = line :=
  if_neg fun hlast => h.carriageReturn (List.mem_of_getLast? hlast)

/-- A written line comes back as itself. -/
theorem Writable.read {line : List UInt8} (h : Writable line) (crlf : Bool) (rest : List UInt8) :
    (fileLines (line ++ lineEnd crlf ++ rest)).map L2Flow.dropReturn =
      line :: (fileLines rest).map L2Flow.dropReturn := by
  cases crlf with
  | false =>
    rw [lineEnd, if_neg Bool.false_ne_true, List.append_assoc, List.singleton_append,
      fileLines_append h.newline, List.map_cons, h.dropReturn]
  | true =>
    have hnewline : kNewline ∉ line ++ [kCarriageReturn] := by
      rw [List.mem_append, List.mem_singleton, not_or]
      exact ⟨h.newline, by decide⟩
    rw [lineEnd, if_pos rfl, List.append_assoc,
      show [kCarriageReturn, kNewline] ++ rest = [kCarriageReturn] ++ kNewline :: rest from rfl,
      ← List.append_assoc, fileLines_append hnewline, List.map_cons, L2Flow.dropReturn,
      List.getLast?_concat, if_pos rfl, List.dropLast_concat]

/-- Written lines come back as themselves, with or without a last line end. -/
theorem fileLines_intercalate (crlf final : Bool) : ∀ {line : List UInt8}
    {lines : List (List UInt8)}, (∀ l ∈ line :: lines, Writable l) →
      (fileLines ((lineEnd crlf).intercalate (line :: lines) ++
        if final then lineEnd crlf else [])).map L2Flow.dropReturn = line :: lines
  | line, [], h => by
    have hline := h line List.mem_cons_self
    rw [List.intercalate_singleton]
    cases final with
    | false =>
      rw [if_neg Bool.false_ne_true, List.append_nil,
        fileLines_of_notMem hline.newline hline.nonempty,
        List.map_cons, hline.dropReturn, List.map_nil]
    | true =>
      rw [if_pos rfl, ← List.append_nil (line ++ lineEnd crlf), hline.read, fileLines, List.map_nil]
  | line, next :: lines, h => by
    rw [List.intercalate_cons_cons, List.append_assoc, (h line List.mem_cons_self).read,
      fileLines_intercalate crlf final fun l hl => h l (List.mem_cons_of_mem _ hl)]

theorem writable_csvHeader : Writable csvHeader :=
  ⟨by decide, by decide, by decide⟩

/-! ## The round trip -/

/-- The row of a well-formed definition holds it. -/
theorem rowHolds_rowBytes {definition : InstrumentDefinition} (h : WellFormed definition)
    (hnonzero : definition.instrumentId ≠ 0) (hlt : definition.instrumentId < 2 ^ 32)
    (hcomma : kComma ∉ definition.securityIdSource ++ definition.securityId) :
    RowHolds (rowBytes definition) definition := by
  rw [List.mem_append, not_or] at hcomma
  refine ⟨decimalBytes definition.instrumentId, marketText definition.market, rfl, ?_, ?_, ?_⟩
  · intro field hfield hmem
    rw [List.mem_cons, List.mem_cons, List.mem_cons, List.mem_singleton] at hfield
    rcases hfield with rfl | rfl | rfl | rfl
    · exact absurd (isDigit_decimalBytes _ _ hmem) (by decide)
    · revert hmem
      cases definition.market <;> decide
    · exact hcomma.1 hmem
    · exact hcomma.2 hmem
  · exact ⟨decimalBytes_ne_nil hnonzero, isDigit_decimalBytes _,
      by rwa [digitsValue_decimalBytes], (digitsValue_decimalBytes _).symm⟩
  · rcases h.market with hmarket | hmarket
    · exact Or.inl ⟨congrArg marketText hmarket, hmarket⟩
    · exact Or.inr ⟨congrArg marketText hmarket, hmarket⟩

theorem visible_marketText (market : Market) : ∀ octet ∈ marketText market, 0x20 ≤ octet := by
  have hall : (marketText market).all (0x20 ≤ ·) = true := by
    rcases market with - | - | - <;> rfl
  intro octet hoctet
  exact of_decide_eq_true (List.all_eq_true.1 hall octet hoctet)

/-- No byte of a row ends a line. -/
theorem writable_rowBytes {definition : InstrumentDefinition} (h : WellFormed definition)
    (hnonzero : definition.instrumentId ≠ 0) : Writable (rowBytes definition) := by
  have hvisible : ∀ octet ∈ rowBytes definition, 0x20 ≤ octet := by
    intro octet hoctet
    simp only [rowBytes, List.intercalate_cons_cons, List.intercalate_singleton, List.mem_append,
      List.mem_singleton, or_assoc] at hoctet
    rcases hoctet with hdigit | rfl | hmarket | rfl | hsource | rfl | hsecurity
    · have hrange := isDigit_decimalBytes _ _ hdigit
      rw [isDigit, Bool.and_eq_true, decide_eq_true_iff] at hrange
      exact UInt8.le_trans (show (0x20 : UInt8) ≤ 0x30 by decide) hrange.1
    · decide
    · exact visible_marketText _ octet hmarket
    · decide
    · exact (h.printable octet (List.mem_append_right _ hsource)).1
    · decide
    · exact (h.printable octet (List.mem_append_left _ hsecurity)).1
  refine ⟨fun hempty => ?_, fun hmem => absurd (hvisible _ hmem) (by decide),
    fun hmem => absurd (hvisible _ hmem) (by decide)⟩
  rw [rowBytes, List.intercalate_cons_cons, List.append_assoc, List.append_eq_nil_iff] at hempty
  exact decimalBytes_ne_nil hnonzero hempty.1

theorem loadCsv_eq_build {content header : List UInt8} {rows : List (List UInt8)}
    {definitions : List InstrumentDefinition} {output : InstrumentCatalog}
    (hlines : fileLines content = header :: rows) (hheader : dropReturn header = csvHeader)
    (hrows : List.Forall₂ (fun line => RowHolds (dropReturn line)) rows definitions) :
    loadCsv content output = buildBy hashKey definitions output := by
  have hread : readRows 1 [] rows = .ok definitions := readRows_eq_ok_iff.2 ⟨_, rfl, hrows⟩
  rw [loadCsv, hlines]
  simp only [hheader, ne_eq, not_true_eq_false, if_false, hread]

/-- A file is refused, or its rows are handed to `Build`. -/
theorem loadCsv_cases (content : List UInt8) (output : InstrumentCatalog) :
    (∃ error, loadCsv content output = (some error, output)) ∨
      ∃ header rows definitions, fileLines content = header :: rows ∧
        dropReturn header = csvHeader ∧
        List.Forall₂ (fun line => RowHolds (dropReturn line)) rows definitions := by
  rw [loadCsv]
  rcases hlines : fileLines content with - | ⟨header, rows⟩
  · exact Or.inl ⟨_, rfl⟩
  · rcases ne_or_eq (dropReturn header) csvHeader with hheader | hheader
    · exact Or.inl ⟨_, if_pos hheader⟩
    · rcases hread : readRows 1 [] rows with error | definitions
      · exact Or.inl ⟨error, by simp only [hheader, ne_eq, not_true_eq_false, if_false, hread]⟩
      · obtain ⟨_, rfl, hrows⟩ := readRows_eq_ok_iff.1 hread
        exact Or.inr ⟨header, rows, _, rfl, hheader, hrows⟩

theorem loadCsv_renderCsv {definitions : List InstrumentDefinition}
    (hproper : Proper definitions)
    (hlt : ∀ definition ∈ definitions, definition.instrumentId < 2 ^ 32)
    (hcomma : ∀ definition ∈ definitions,
      kComma ∉ definition.securityIdSource ++ definition.securityId)
    (crlf final : Bool) (output : InstrumentCatalog) :
    loadCsv (renderCsv crlf final definitions) output = buildBy hashKey definitions output := by
  have hwritable : ∀ line ∈ csvHeader :: definitions.map rowBytes, Writable line := by
    intro line hline
    rcases List.mem_cons.1 hline with rfl | hrow
    · exact writable_csvHeader
    · obtain ⟨definition, hmem, rfl⟩ := List.mem_map.1 hrow
      exact writable_rowBytes (hproper.wellFormed _ hmem) (hproper.nonzero _ hmem)
  have hread := fileLines_intercalate crlf final hwritable
  rw [← renderCsv] at hread
  obtain ⟨header, rows, hlines, hheader, hrows⟩ := List.map_eq_cons_iff.1 hread
  refine loadCsv_eq_build hlines hheader ?_
  -- what is read back as the row of a definition holds it
  have hmapped : List.Forall₂ (fun line definition => dropReturn line = rowBytes definition) rows
      definitions := by
    rw [← List.forall₂_map_left_iff (f := dropReturn)
      (R := fun line definition => line = rowBytes definition), hrows, List.forall₂_map_left_iff]
    exact List.forall₂_same.2 fun _ _ => rfl
  refine List.forall₂_iff_get.2 ⟨hmapped.length_eq, fun i hrow hdefinition => ?_⟩
  have hmem := List.get_mem definitions ⟨i, hdefinition⟩
  rw [hmapped.get hrow hdefinition]
  exact rowHolds_rowBytes (hproper.wellFormed _ hmem) (hproper.nonzero _ hmem) (hlt _ hmem)
    (hcomma _ hmem)

/-- `LoadCsv` accepts a file if and only if it is the header and one row a definition, and `Build`
accepts the definitions ; the catalog is then that of `Build`, and otherwise the output is left
alone. The file written for the definitions of a catalog gives it back. -/
theorem load_csv_exact (content : List UInt8) (output : InstrumentCatalog) :
    ((loadCsv content output).1 = none ↔ ∃ header rows definitions,
      fileLines content = header :: rows ∧ dropReturn header = csvHeader ∧
        List.Forall₂ (fun line => RowHolds (dropReturn line)) rows definitions ∧
        (buildBy hashKey definitions output).1 = none) ∧
    (∀ header rows definitions, fileLines content = header :: rows →
      dropReturn header = csvHeader →
      List.Forall₂ (fun line => RowHolds (dropReturn line)) rows definitions →
        loadCsv content output = buildBy hashKey definitions output) ∧
    ((loadCsv content output).1 ≠ none → (loadCsv content output).2 = output) ∧
    ∀ definitions, (buildBy hashKey definitions output).1 = none →
      (∀ definition ∈ definitions, definition.instrumentId < 2 ^ 32) →
      (∀ definition ∈ definitions, kComma ∉ definition.securityIdSource ++ definition.securityId) →
        ∀ crlf final,
          loadCsv (renderCsv crlf final definitions) output =
            buildBy hashKey definitions output := by
  refine ⟨⟨fun h => ?_, ?_⟩, fun header rows definitions => loadCsv_eq_build, fun h => ?_,
    fun definitions hbuilt hlt hcomma crlf final =>
      loadCsv_renderCsv (proper_of_buildBy hbuilt) hlt hcomma crlf final output⟩
  · rcases loadCsv_cases content output with
      ⟨error, herror⟩ | ⟨header, rows, definitions, hlines, hheader, hrows⟩
    · rw [herror] at h
      cases h
    · rw [loadCsv_eq_build hlines hheader hrows] at h
      exact ⟨header, rows, definitions, hlines, hheader, hrows, h⟩
  · rintro ⟨header, rows, definitions, hlines, hheader, hrows, hbuilt⟩
    rwa [loadCsv_eq_build hlines hheader hrows]
  · rcases loadCsv_cases content output with
      ⟨error, herror⟩ | ⟨header, rows, definitions, hlines, hheader, hrows⟩
    · rw [herror]
    · rw [loadCsv_eq_build hlines hheader hrows] at h ⊢
      exact buildBy_output h

/-- A carriage return before the last line end, a field with a blank, and no last line end. -/
def sampleCsv : List UInt8 :=
  asciiBytes "instrument_id,market,security_id_source,security_id\r\n7,SZ,102,0 1"

theorem load_csv_exact_sample :
    (∃ header rows definitions, fileLines sampleCsv = header :: rows ∧
      List.Forall₂ (fun line => RowHolds (dropReturn line)) rows definitions ∧
        loadCsv sampleCsv {} = buildBy hashKey definitions {}) ∧
      (loadCsv (asciiBytes "instrument_id") {}).2 = {} ∧
      loadCsv (renderCsv true true sampleDefinitions) {} =
        buildBy hashKey sampleDefinitions {} := by
  refine ⟨?_, ?_, ?_⟩
  · obtain ⟨hiff, heq, -⟩ := load_csv_exact sampleCsv {}
    obtain ⟨header, rows, definitions, hlines, hheader, hrows, -⟩ := hiff.1 (by decide +kernel)
    exact ⟨header, rows, definitions, hlines, hrows,
      heq header rows definitions hlines hheader hrows⟩
  · obtain ⟨-, -, hrefused, -⟩ := load_csv_exact (asciiBytes "instrument_id") {}
    exact hrefused (by decide +kernel)
  · obtain ⟨-, -, -, hrender⟩ := load_csv_exact [] {}
    exact hrender sampleDefinitions (by decide +kernel) (by decide) (by decide) true true

end InstrumentCatalog

end L2Flow
