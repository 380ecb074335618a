import L2Flow.Message
import L2Flow.Text
import Mathlib.Data.List.DropRight
import Mathlib.Data.List.Forall2
import Mathlib.Data.List.Perm.Basic

/-!
# The stream configuration

`LoadStreamConfig` reads the message families that a deployment selects, one a line, and makes
a mask of their bits.
-/

namespace L2Flow

def kDot : UInt8 := 0x2e

def kHash : UInt8 := 0x23

/-- Neither a blank nor a tab is kept at the ends of a line. -/
def isBlank (octet : UInt8) : Bool :=
  octet == 0x20 || octet == 0x09

/-! ## The loader -/

/-- `Trim`. -/
def trim (value : List UInt8) : List UInt8 :=
  match value.findIdx? fun octet => !isBlank octet with
  | none => []
  | some first =>
    let last := value.length - 1 - value.reverse.findIdx fun octet => !isBlank octet
    (value.drop first).take (last - first + 1)

/-- `ParseUnsigned`, into an integer whose largest value is `maximum`. -/
def parseUnsigned (maximum : ℕ) (value : List UInt8) : Option ℕ :=
  if value = [] then none
  else
    match fromChars (2 ^ 32 - 1) value with
    | (some parsed, []) => if maximum < parsed then none else some parsed
    | _ => none

/-- `line.find('.', start)`. -/
def findDot (line : List UInt8) (start : ℕ) : Option ℕ :=
  ((line.drop start).findIdx? (· == kDot)).map (start + ·)

/-- `ParseTuple`. -/
def parseTuple (line : List UInt8) : Option MessageKey := do
  let first ← findDot line 0
  let second ← findDot line (first + 1)
  if findDot line (second + 1) ≠ none then none
  else
    let serviceId ← parseUnsigned (2 ^ 8 - 1) (line.take first)
    let serviceVersion ← parseUnsigned (2 ^ 16 - 1)
      ((line.drop (first + 1)).take (second - first - 1))
    let messageId ← parseUnsigned (2 ^ 16 - 1) (line.drop (second + 1))
    some ⟨serviceId, serviceVersion, messageId⟩

/-- The loop over the lines. -/
def selectStreams : ℕ → StreamMask → List (List UInt8) → Except String StreamMask
  | _, mask, [] => .ok mask
  | lineNumber, mask, raw :: rest =>
    let line := trim (dropReturn raw)
    if line = [] ∨ line.head? = some kHash then selectStreams (lineNumber + 1) mask rest
    else
      match parseTuple line with
      | none => .error ("invalid stream tuple at line " ++ toString (lineNumber + 1))
      | some key =>
        let bit := streamBit key
        if bit = 0 then
          .error ("stream tuple has no decoder in this build at line " ++
            toString (lineNumber + 1))
        else if mask &&& bit ≠ 0 then
          .error ("duplicate stream tuple at line " ++ toString (lineNumber + 1))
        else selectStreams (lineNumber + 1) (mask ||| bit) rest

/-- `LoadStreamConfig`, of the bytes of the file : whether it failed, and `output`
afterwards. -/
def loadStreamConfig (content : List UInt8) (output : StreamMask) : Option String × StreamMask :=
  match selectStreams 0 0 (fileLines content) with
  | .error error => (some error, output)
  | .ok mask =>
    if mask = 0 then (some "stream config selects no data streams", output) else (none, mask)

/-! ## Lines -/

/-- The blanks taken off both ends. -/
def strip (line : List UInt8) : List UInt8 :=
  (line.dropWhile isBlank).rdropWhile isBlank

theorem trim_eq (value : List UInt8) : trim value = strip value := by
  rw [strip, List.dropWhile_eq_drop_findIdx_not]
  rcases h : value.findIdx? fun octet => !isBlank octet with _ | first
  · have hlength : value.findIdx (fun octet => !isBlank octet) = value.length :=
      List.findIdx_eq_length.2 (List.findIdx?_eq_none_iff.1 h)
    simp only [trim, h, hlength, List.drop_length, List.rdropWhile_nil]
  · obtain ⟨hlt, hfirst⟩ := List.findIdx?_eq_some_iff_findIdx_eq.1 h
    -- what is not blank is found from the end before the front is reached
    have hsplit : value.reverse = (value.drop first).reverse ++ (value.take first).reverse := by
      rw [← List.reverse_append, List.take_append_drop]
    have hfound : (value.drop first).reverse.findIdx (fun octet => !isBlank octet) <
        (value.drop first).reverse.length := by
      obtain ⟨_, hoctet, -⟩ := List.findIdx?_eq_some_iff_getElem.1 h
      refine List.findIdx_lt_length_of_exists ⟨value[first], List.mem_reverse.2 ?_, hoctet⟩
      rw [List.drop_eq_getElem_cons hlt]
      exact List.mem_cons_self
    have hlast : value.reverse.findIdx (fun octet => !isBlank octet) =
        (value.drop first).reverse.findIdx fun octet => !isBlank octet := by
      rw [hsplit, List.findIdx_append, if_pos hfound]
    simp only [trim, h, hfirst, hlast, List.rdropWhile, List.dropWhile_eq_drop_findIdx_not,
      List.drop_reverse, List.reverse_reverse]
    rw [List.length_reverse, List.length_drop] at hfound
    rw [List.length_drop]
    congr 1
    omega

/-! ## Tuples -/

/-- A decimal number of `width` bits : digits, at least one, leading zeros allowed. -/
structure Denotes (width : ℕ) (text : List UInt8) (value : ℕ) : Prop where
  nonempty : text ≠ []
  digits : ∀ octet ∈ text, isDigit octet = true
  value_eq : digitsValue text = value
  fits : value < 2 ^ width

/-- A tuple : three numbers, of 8, 16 and 16 bits, separated by dots. -/
def TupleHolds (line : List UInt8) (key : MessageKey) : Prop :=
  ∃ serviceId serviceVersion messageId,
    line.splitOn kDot = [serviceId, serviceVersion, messageId] ∧
      Denotes 8 serviceId key.serviceId ∧ Denotes 16 serviceVersion key.serviceVersion ∧
      Denotes 16 messageId key.messageId

theorem parseUnsigned_eq_some_iff {width value : ℕ} {text : List UInt8} (hwidth : width ≤ 32) :
    parseUnsigned (2 ^ width - 1) text = some value ↔ Denotes width text value := by
  have hpow : 2 ^ width ≤ 2 ^ 32 := Nat.pow_le_pow_right (by omega) hwidth
  have hpos : 0 < 2 ^ width := Nat.two_pow_pos width
  constructor
  · intro h
    unfold parseUnsigned at h
    split at h
    · exact absurd h (by simp)
    split at h
    · rename_i hne _ parsed hparsed
      obtain ⟨-, hdigits, -, rfl⟩ := fromChars_eq_iff.1 hparsed
      split_ifs at h with hle
      obtain rfl := Option.some.inj h
      exact ⟨hne, hdigits, rfl, by omega⟩
    · exact absurd h (by simp)
  · rintro ⟨hne, hdigits, rfl, hfits⟩
    have hparsed : fromChars (2 ^ 32 - 1) text = (some (digitsValue text), []) :=
      fromChars_eq_iff.2 ⟨hne, hdigits, by omega, rfl⟩
    rw [parseUnsigned, if_neg hne, hparsed]
    exact if_neg (by omega)

theorem findDot_of_field {line before field rest : List UInt8} {start : ℕ}
    (hline : line = before ++ (field ++ kDot :: rest)) (hstart : before.length = start)
    (hfield : kDot ∉ field) : findDot line start = some (start + field.length) := by
  have hnone : field.findIdx? (· == kDot) = none :=
    List.findIdx?_eq_none_iff.2 fun octet hoctet =>
      beq_eq_false_iff_ne.2 fun heq => hfield (heq ▸ hoctet)
  rw [findDot, hline, List.drop_left' hstart, List.findIdx?_append, hnone]
  simp [List.findIdx?_cons]

theorem findDot_eq_none {line before rest : List UInt8} {start : ℕ}
    (hline : line = before ++ rest) (hstart : before.length = start) (hrest : kDot ∉ rest) :
    findDot line start = none := by
  have hnone : rest.findIdx? (· == kDot) = none :=
    List.findIdx?_eq_none_iff.2 fun octet hoctet =>
      beq_eq_false_iff_ne.2 fun heq => hrest (heq ▸ hoctet)
  rw [findDot, hline, List.drop_left' hstart, hnone, Option.map_none]

theorem findDot_first {first rest : List UInt8} (hfirst : kDot ∉ first) :
    findDot (first ++ kDot :: rest) 0 = some first.length := by
  rw [findDot_of_field (List.nil_append _).symm List.length_nil hfirst, Nat.zero_add]

/-- A line with two dots : the three fields are read, unless there is a third dot. -/
theorem parseTuple_of_dots {first second third : List UInt8} (hfirst : kDot ∉ first)
    (hsecond : kDot ∉ second) :
    parseTuple (first ++ kDot :: (second ++ kDot :: third)) =
      if kDot ∈ third then none
      else (do
        let serviceId ← parseUnsigned (2 ^ 8 - 1) first
        let serviceVersion ← parseUnsigned (2 ^ 16 - 1) second
        let messageId ← parseUnsigned (2 ^ 16 - 1) third
        some ⟨serviceId, serviceVersion, messageId⟩) := by
  have hdot : findDot (first ++ kDot :: (second ++ kDot :: third)) 0 = some first.length :=
    findDot_first hfirst
  set line := first ++ kDot :: (second ++ kDot :: third) with hline
  have hrest : line = (first ++ [kDot]) ++ (second ++ kDot :: third) := by simp [hline]
  have hlast : line = (first ++ kDot :: second ++ [kDot]) ++ third := by simp [hline]
  have hlength : (first ++ kDot :: second ++ [kDot]).length =
      first.length + 1 + second.length + 1 := by
    simp only [List.length_append, List.length_cons, List.length_nil]
    omega
  have hnext : findDot line (first.length + 1) = some (first.length + 1 + second.length) :=
    findDot_of_field hrest (by simp) hsecond
  have htake : line.take first.length = first := List.take_left
  have hmiddle : (line.drop (first.length + 1)).take
      (first.length + 1 + second.length - first.length - 1) = second := by
    rw [hrest, List.drop_left' (by simp)]
    exact List.take_left' (by omega)
  have hdrop : line.drop (first.length + 1 + second.length + 1) = third := by
    rw [hlast, List.drop_left' hlength]
  by_cases hthird : kDot ∈ third
  · obtain ⟨field, rest, hfield, hnot⟩ := List.eq_append_cons_of_mem hthird
    have hend := findDot_of_field (hfield ▸ hlast) hlength hnot
    rw [if_pos hthird]
    simp [parseTuple, hdot, hnext, hend]
  · have hend : findDot line (first.length + 1 + second.length + 1) = none :=
      findDot_eq_none hlast hlength hthird
    rw [if_neg hthird]
    simp [parseTuple, hdot, hnext, hend, htake, hmiddle, hdrop]

/-- A line that is accepted has two dots. -/
theorem exists_fields {line : List UInt8} (h : parseTuple line ≠ none) :
    ∃ first second third, line = first ++ kDot :: (second ++ kDot :: third) ∧
      kDot ∉ first ∧ kDot ∉ second := by
  by_cases hdot : kDot ∈ line
  swap
  · have hnone : findDot line 0 = none :=
      findDot_eq_none (List.nil_append _).symm List.length_nil hdot
    exact absurd (by simp [parseTuple, hnone]) h
  obtain ⟨first, rest, rfl, hfirst⟩ := List.eq_append_cons_of_mem hdot
  by_cases hnext : kDot ∈ rest
  swap
  · have hline : first ++ kDot :: rest = (first ++ [kDot]) ++ rest := by simp
    have hnone : findDot (first ++ kDot :: rest) (first.length + 1) = none :=
      findDot_eq_none hline (by simp) hnext
    exact absurd (by simp [parseTuple, findDot_first hfirst, hnone]) h
  obtain ⟨second, third, rfl, hsecond⟩ := List.eq_append_cons_of_mem hnext
  exact ⟨first, second, third, rfl, hfirst, hsecond⟩

theorem Denotes.dot_notMem {width value : ℕ} {text : List UInt8} (h : Denotes width text value) :
    kDot ∉ text :=
  fun hdot => absurd (h.digits kDot hdot) (by decide)

theorem parseTuple_eq_some_iff {line : List UInt8} {key : MessageKey} :
    parseTuple line = some key ↔ TupleHolds line key := by
  constructor
  · intro h
    obtain ⟨first, second, third, rfl, hfirst, hsecond⟩ :=
      exists_fields (h ▸ Option.some_ne_none key)
    rw [parseTuple_of_dots hfirst hsecond] at h
    split_ifs at h with hthird
    simp only [Option.bind_eq_bind, Option.bind_eq_some_iff, Option.some.injEq] at h
    obtain ⟨serviceId, hserviceId, serviceVersion, hserviceVersion, messageId, hmessageId,
      rfl⟩ := h
    refine ⟨first, second, third, ?_, (parseUnsigned_eq_some_iff (by decide)).1 hserviceId,
      (parseUnsigned_eq_some_iff (by decide)).1 hserviceVersion,
      (parseUnsigned_eq_some_iff (by decide)).1 hmessageId⟩
    rw [List.splitOn_append_cons_self, List.splitOn_eq_singleton hfirst,
      List.splitOn_append_cons_self, List.splitOn_eq_singleton hsecond,
      List.splitOn_eq_singleton hthird]
    rfl
  · rintro ⟨first, second, third, hsplit, hserviceId, hserviceVersion, hmessageId⟩
    have hline : line = first ++ kDot :: (second ++ kDot :: third) := by
      have hjoin : [kDot].intercalate (line.splitOn kDot) = line := List.intercalate_splitOn kDot
      rw [← hjoin, hsplit]
      simp [List.intercalate]
    rw [hline, parseTuple_of_dots hserviceId.dot_notMem hserviceVersion.dot_notMem,
      if_neg hmessageId.dot_notMem, (parseUnsigned_eq_some_iff (by decide)).2 hserviceId,
      (parseUnsigned_eq_some_iff (by decide)).2 hserviceVersion,
      (parseUnsigned_eq_some_iff (by decide)).2 hmessageId]
    rfl

/-! ## Selections -/

/-- The lines that select a stream : what is left of each line, unless it is empty or begins a
comment. -/
def selecting (lines : List (List UInt8)) : List (List UInt8) :=
  (lines.map fun line => strip (dropReturn line)).filter fun line =>
    line ≠ [] ∧ line.head? ≠ some kHash

/-- The lines of a file that select a stream. -/
def entries (content : List UInt8) : List (List UInt8) :=
  selecting (content.splitOn kNewline)

/-- The union of the bits of the tuples. -/
def streamUnion (keys : List MessageKey) : StreamMask :=
  keys.foldr (fun key mask => streamBit key ||| mask) 0

/-- The lines are tuples of the build, and no two are the same tuple. -/
structure Selects (lines : List (List UInt8)) (keys : List MessageKey) : Prop where
  tuples : List.Forall₂ TupleHolds lines keys
  supported : ∀ key ∈ keys, key ∈ kSupportedMessageKeys
  distinct : keys.Nodup

theorem streamBit_eq_zero_iff {key : MessageKey} :
    streamBit key = 0 ↔ key ∉ kSupportedMessageKeys := by
  have hbits : ∀ key ∈ kSupportedMessageKeys, streamBit key ≠ 0 := by decide
  exact ⟨fun h hkey => hbits key hkey h, fun h => if_neg h⟩

theorem streamBit_and_eq_zero_iff : ∀ key ∈ kSupportedMessageKeys,
    ∀ other ∈ kSupportedMessageKeys, streamBit key &&& streamBit other = 0 ↔ key ≠ other := by
  decide

theorem streamUnion_eq_zero_iff {keys : List MessageKey}
    (h : ∀ key ∈ keys, key ∈ kSupportedMessageKeys) : streamUnion keys = 0 ↔ keys = [] := by
  rcases keys with _ | ⟨key, keys⟩
  · simp [streamUnion]
  · have hbit : streamBit key ≠ 0 := fun hzero =>
      streamBit_eq_zero_iff.1 hzero (h key List.mem_cons_self)
    simp only [streamUnion, List.foldr_cons, reduceCtorEq, iff_false]
    exact fun hzero => hbit (BitVec.or_eq_zero_iff.1 hzero).1

theorem streamUnion_perm {keys others : List MessageKey} (h : keys.Perm others) :
    streamUnion keys = streamUnion others := by
  have : LeftCommutative fun (key : MessageKey) (mask : StreamMask) => streamBit key ||| mask :=
    ⟨fun key other mask => by
      rw [← BitVec.or_assoc, BitVec.or_comm (streamBit key), BitVec.or_assoc]⟩
  exact h.foldr_eq 0

theorem Selects.exists_perm {lines others : List (List UInt8)} {keys : List MessageKey}
    (h : Selects lines keys) (hperm : others.Perm lines) :
    ∃ keys', keys.Perm keys' ∧ Selects others keys' := by
  obtain ⟨keys', htuples, hkeys⟩ :
      Relation.Comp (List.Forall₂ TupleHolds) List.Perm others keys := by
    rw [List.forall₂_comp_perm_eq_perm_comp_forall₂]
    exact ⟨lines, hperm, h.tuples⟩
  exact ⟨keys', hkeys.symm, htuples, fun key hkey => h.supported key (hkeys.subset hkey),
    hkeys.nodup_iff.2 h.distinct⟩

theorem selects_nil_iff {keys : List MessageKey} : Selects [] keys ↔ keys = [] := by
  constructor
  · exact fun h => List.forall₂_nil_left_iff.1 h.tuples
  · rintro rfl
    exact ⟨.nil, by simp, List.nodup_nil⟩

theorem selects_cons_iff {line : List UInt8} {lines : List (List UInt8)}
    {keys : List MessageKey} : Selects (line :: lines) keys ↔
      ∃ key rest, keys = key :: rest ∧ parseTuple line = some key ∧
        key ∈ kSupportedMessageKeys ∧ key ∉ rest ∧ Selects lines rest := by
  constructor
  · rintro ⟨htuples, hsupported, hdistinct⟩
    obtain ⟨key, rest, hkey, hrest, rfl⟩ := List.forall₂_cons_left_iff.1 htuples
    rw [List.forall_mem_cons] at hsupported
    rw [List.nodup_cons] at hdistinct
    exact ⟨key, rest, rfl, parseTuple_eq_some_iff.2 hkey, hsupported.1, hdistinct.1, hrest,
      hsupported.2, hdistinct.2⟩
  · rintro ⟨key, rest, rfl, hkey, hsupported, hnot, hrest⟩
    exact ⟨.cons (parseTuple_eq_some_iff.1 hkey) hrest.tuples,
      List.forall_mem_cons.2 ⟨hsupported, hrest.supported⟩,
      List.nodup_cons.2 ⟨hnot, hrest.distinct⟩⟩

/-- The mask after a tuple refuses the tuple, and what it refused before. -/
theorem Selects.free_iff {lines : List (List UInt8)} {keys : List MessageKey} {key : MessageKey}
    {mask : StreamMask} (h : Selects lines keys) (hkey : key ∈ kSupportedMessageKeys) :
    (∀ other ∈ keys, (mask ||| streamBit key) &&& streamBit other = 0) ↔
      key ∉ keys ∧ ∀ other ∈ keys, mask &&& streamBit other = 0 := by
  have hbits : ∀ other ∈ keys, (mask ||| streamBit key) &&& streamBit other = 0 ↔
      mask &&& streamBit other = 0 ∧ key ≠ other := fun other hother => by
    rw [BitVec.and_or_distrib_right, ← streamBit_and_eq_zero_iff key hkey other
      (h.supported other hother)]
    exact BitVec.or_eq_zero_iff
  constructor
  · intro hfree
    exact ⟨fun hmem => ((hbits key hmem).1 (hfree key hmem)).2 rfl,
      fun other hother => ((hbits other hother).1 (hfree other hother)).1⟩
  · rintro ⟨hnot, hfree⟩ other hother
    exact (hbits other hother).2 ⟨hfree other hother, fun heq => hnot (heq ▸ hother)⟩

theorem selecting_cons (raw : List UInt8) (lines : List (List UInt8)) :
    selecting (raw :: lines) =
      if strip (dropReturn raw) = [] ∨ (strip (dropReturn raw)).head? = some kHash
      then selecting lines else strip (dropReturn raw) :: selecting lines := by
  rw [selecting, List.map_cons, List.filter_cons, selecting]
  split_ifs <;> grind

/-- The loop, from any mask : it takes what selects streams that the mask has not. -/
theorem selectStreams_eq_ok_iff {lines : List (List UInt8)} {lineNumber : ℕ}
    {mask result : StreamMask} : selectStreams lineNumber mask lines = .ok result ↔
      ∃ keys, Selects (selecting lines) keys ∧ (∀ key ∈ keys, mask &&& streamBit key = 0) ∧
        result = mask ||| streamUnion keys := by
  induction lines generalizing lineNumber mask with
  | nil =>
    have hnil : selecting [] = [] := rfl
    simp [selectStreams, hnil, selects_nil_iff, streamUnion, eq_comm]
  | cons raw lines ih =>
    rw [selectStreams, trim_eq, selecting_cons]
    dsimp only
    split_ifs with hskip
    · exact ih
    simp only [selects_cons_iff]
    generalize strip (dropReturn raw) = line
    rcases hparse : parseTuple line with _ | key
    · simp
    dsimp only
    split_ifs with hzero htaken
    · have hkey := streamBit_eq_zero_iff.1 hzero
      simp only [false_iff]
      rintro ⟨keys, ⟨other, rest, rfl, hother, hsupported, -⟩, -⟩
      exact hkey (Option.some.inj hother ▸ hsupported)
    · simp only [false_iff]
      rintro ⟨keys, ⟨other, rest, rfl, hother, -⟩, hfree, -⟩
      exact htaken (Option.some.inj hother ▸ hfree other List.mem_cons_self)
    · have hkey : key ∈ kSupportedMessageKeys := by
        by_contra hnot
        exact hzero (streamBit_eq_zero_iff.2 hnot)
      rw [not_not] at htaken
      rw [ih]
      constructor
      · rintro ⟨rest, hrest, hfree, rfl⟩
        obtain ⟨hnot, hothers⟩ := (hrest.free_iff hkey).1 hfree
        refine ⟨key :: rest, ⟨key, rest, rfl, rfl, hkey, hnot, hrest⟩,
          List.forall_mem_cons.2 ⟨htaken, hothers⟩, ?_⟩
        rw [BitVec.or_assoc, streamUnion, streamUnion, List.foldr_cons]
      · rintro ⟨keys, ⟨other, rest, rfl, hother, -, hnot, hrest⟩, hfree, rfl⟩
        obtain rfl := Option.some.inj hother
        refine ⟨rest, hrest, (hrest.free_iff hkey).2 ⟨hnot, ?_⟩, ?_⟩
        · exact (List.forall_mem_cons.1 hfree).2
        rw [BitVec.or_assoc, streamUnion, streamUnion, List.foldr_cons]

/-! ## Files -/

/-- What `std::getline` delivers is what lies between the newlines, up to an empty line at the
end. -/
theorem splitOn_newline (content : List UInt8) :
    content.splitOn kNewline = fileLines content ∨
      content.splitOn kNewline = fileLines content ++ [[]] := by
  induction content with
  | nil => exact .inr (List.splitOn_nil _)
  | cons octet rest ih =>
    rw [List.splitOn_cons_eq_if_modifyHead, fileLines]
    by_cases hnewline : octet = kNewline
    · rw [if_pos hnewline, if_pos (beq_iff_eq.2 hnewline)]
      exact ih.imp (congrArg _) (congrArg _)
    · rw [if_neg hnewline, if_neg (mt beq_iff_eq.1 hnewline)]
      rcases hlines : fileLines rest with _ | ⟨line, lines⟩
      · rw [hlines] at ih
        rcases ih with ih | ih
        · exact absurd ih (List.splitOn_ne_nil kNewline rest)
        · exact .inl (by rw [ih]; rfl)
      · rw [hlines] at ih
        rcases ih with ih | ih
        · exact .inl (by rw [ih]; rfl)
        · exact .inr (by rw [ih]; rfl)

theorem selecting_fileLines (content : List UInt8) :
    selecting (fileLines content) = entries content := by
  rw [entries]
  rcases splitOn_newline content with h | h
  · rw [h]
  · have hempty : selecting [[]] = [] := rfl
    have happend : selecting (fileLines content ++ [[]]) =
        selecting (fileLines content) ++ selecting [[]] := by
      simp only [selecting, List.map_append, List.filter_append]
    rw [h, happend, hempty, List.append_nil]

theorem Selects.eq_nil_iff {lines : List (List UInt8)} {keys : List MessageKey}
    (h : Selects lines keys) : keys = [] ↔ lines = [] := by
  rw [← List.length_eq_zero_iff, ← h.tuples.length_eq, List.length_eq_zero_iff]

theorem loadStreamConfig_eq_none_iff {content : List UInt8} {output mask : StreamMask} :
    loadStreamConfig content output = (none, mask) ↔
      entries content ≠ [] ∧ ∃ keys, Selects (entries content) keys ∧ mask = streamUnion keys := by
  have hselect : ∀ result, selectStreams 0 0 (fileLines content) = .ok result ↔
      ∃ keys, Selects (entries content) keys ∧ result = streamUnion keys := fun result => by
    rw [selectStreams_eq_ok_iff, selecting_fileLines]
    simp
  unfold loadStreamConfig
  rcases hresult : selectStreams 0 0 (fileLines content) with error | result
  · simp only [Prod.mk.injEq, reduceCtorEq, false_and, false_iff]
    rintro ⟨-, keys, hkeys, -⟩
    have hok := (hselect _).2 ⟨keys, hkeys, rfl⟩
    exact absurd (hok.symm.trans hresult) (by simp)
  · obtain ⟨keys, hkeys, rfl⟩ := (hselect result).1 hresult
    have hzero : streamUnion keys = 0 ↔ entries content = [] :=
      (streamUnion_eq_zero_iff hkeys.supported).trans hkeys.eq_nil_iff
    dsimp only
    split_ifs with hmask
    · simp [hzero.1 hmask]
    · have hempty : entries content ≠ [] := mt hzero.2 hmask
      rw [Prod.mk.injEq, and_iff_right rfl, and_iff_right hempty]
      constructor
      · exact fun hmask => ⟨keys, hkeys, hmask.symm⟩
      · rintro ⟨others, hothers, rfl⟩
        have hok := (hselect _).2 ⟨others, hothers, rfl⟩
        exact Except.ok.inj (hresult.symm.trans hok)

theorem loadStreamConfig_eq_some {content : List UInt8} {output mask : StreamMask}
    {error : String} (h : loadStreamConfig content output = (some error, mask)) :
    mask = output := by
  unfold loadStreamConfig at h
  split at h
  · exact (Prod.mk.inj h).2.symm
  · split_ifs at h
    · exact (Prod.mk.inj h).2.symm
    · exact absurd (Prod.mk.inj h).1 (by simp)

/-- A file with the same selecting lines, in any order, is accepted alike. -/
theorem loadStreamConfig_perm {content content' : List UInt8} {output mask : StreamMask}
    (hperm : (entries content).Perm (entries content'))
    (h : loadStreamConfig content output = (none, mask)) :
    loadStreamConfig content' output = (none, mask) := by
  rw [loadStreamConfig_eq_none_iff] at h ⊢
  obtain ⟨hne, keys, hkeys, rfl⟩ := h
  obtain ⟨others, hothers, hselects⟩ := hkeys.exists_perm hperm.symm
  refine ⟨fun hempty => hne ?_, others, hselects, streamUnion_perm hothers⟩
  rw [hempty] at hperm
  exact hperm.eq_nil

/-- A file is accepted if and only if it selects a stream, every line that is not blank and not a
comment is a tuple of the build, and no tuple is there twice; the mask is then the union of their
bits. A file that is refused leaves the output. The order of the lines is of no account, and
neither are blank lines and comments. -/
theorem load_stream_config_exact (content : List UInt8) (output : StreamMask) :
    (∀ mask, loadStreamConfig content output = (none, mask) ↔
      entries content ≠ [] ∧ ∃ keys, Selects (entries content) keys ∧ mask = streamUnion keys) ∧
    (∀ error mask, loadStreamConfig content output = (some error, mask) → mask = output) ∧
    ∀ content', (entries content).Perm (entries content') →
      ((loadStreamConfig content output).1 = none ↔
          (loadStreamConfig content' output).1 = none) ∧
        (loadStreamConfig content output).2 = (loadStreamConfig content' output).2 := by
  refine ⟨fun mask => loadStreamConfig_eq_none_iff, fun error mask => loadStreamConfig_eq_some,
    fun content' hperm => ?_⟩
  rcases hload : loadStreamConfig content output with ⟨_ | error, mask⟩
  · rw [loadStreamConfig_perm hperm hload]
    exact ⟨Iff.rfl, rfl⟩
  rcases hload' : loadStreamConfig content' output with ⟨_ | error', mask'⟩
  · have haccepted := loadStreamConfig_perm hperm.symm hload'
    exact absurd (Prod.mk.inj (hload.symm.trans haccepted)).1 (by simp)
  · rw [loadStreamConfig_eq_some hload, loadStreamConfig_eq_some hload']
    exact ⟨by simp, rfl⟩

/-- Two streams, a comment, blanks around the second, and no last line end. -/
def sampleStreams : List UInt8 :=
  asciiBytes "4.101.4\r\n# trades\n\n 6.101.36 "

/-- The same streams in the other order. -/
def otherStreams : List UInt8 :=
  asciiBytes "6.101.36\n4.101.4\n"

theorem load_stream_config_exact_sample :
    (∃ keys, Selects (entries sampleStreams) keys ∧ 0b10001#32 = streamUnion keys) ∧
      loadStreamConfig otherStreams 0 = (none, 0b10001#32) ∧
      (loadStreamConfig (asciiBytes "4.101.4\n4.101.4") 5).2 = 5 := by
  have hload : loadStreamConfig sampleStreams 0 = (none, 0b10001#32) := by decide +kernel
  obtain ⟨hiff, -, hperm⟩ := load_stream_config_exact sampleStreams 0
  refine ⟨((hiff _).1 hload).2, ?_, ?_⟩
  · obtain ⟨haccepted, hmask⟩ := hperm otherStreams (by decide +kernel)
    rw [hload] at haccepted hmask
    exact Prod.ext (haccepted.1 rfl) hmask.symm
  · obtain ⟨-, hrefused, -⟩ := load_stream_config_exact (asciiBytes "4.101.4\n4.101.4") 5
    have hduplicate : (loadStreamConfig (asciiBytes "4.101.4\n4.101.4") 5).1 =
        some "duplicate stream tuple at line 2" := by
      decide +kernel
    exact hrefused _ _ (Prod.ext hduplicate rfl)

end L2Flow
