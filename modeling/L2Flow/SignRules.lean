import L2Flow.FixedPoint
import L2Flow.Validity

/-!
# Signs in snapshots

A price of a snapshot is positive and a quantity is not negative, or the record says that it is
invalid, in every level of the book and in every order of a level. The turnover is the exception :
`DecodeDecimal64` does not look at the sign, so that a negative turnover is published as valid
(`snapshot_signs`), whereas the amount of a trade is checked.
-/

namespace L2Flow

open LittleEndian (bytes unsigned)

/-- The numbers of a snapshot that have a sign rule, and their null values. The quantities of
Shenzhen have none. -/
structure SignFields where
  prices : List ℤ
  priceNull : ℤ
  turnover : ℤ
  turnoverNull : ℤ
  quantities : List ℤ
  quantityNull : Option ℤ

/-- The prices of all levels. -/
def bookPrices (v : BookValues) : List ℤ :=
  (v.bids ++ v.asks).map (·.price)

/-- The quantities of all levels and of all their orders. -/
def bookQuantities (v : BookValues) : List ℤ :=
  (v.bids ++ v.asks).flatMap fun level => level.quantity :: level.orders

def ShanghaiSnapshotValues.signFields (v : ShanghaiSnapshotValues) : SignFields where
  prices := v.prices ++ bookPrices v.book
  priceNull := kNullI32
  turnover := v.turnover
  turnoverNull := kNullI64
  quantities := v.quantities ++ bookQuantities v.book
  quantityNull := some kNullI64

/-- The number of trades is among the quantities. -/
def ShenzhenSnapshotValues.signFields (v : ShenzhenSnapshotValues) : SignFields where
  prices := v.prices ++ bookPrices v.book
  priceNull := kNullI64
  turnover := v.turnover
  turnoverNull := kNullI64
  quantities := v.quantities ++ bookQuantities v.book
  quantityNull := none

def signFields (message : OwnedMessageView) : SignFields :=
  match classifyMessage message.header.key with
  | .kShenzhenSnapshot => (shenzhenSnapshotValues message.body).signFields
  | _ => (shanghaiSnapshotValues message.body).signFields

def CanonicalSnapshot.prices (snapshot : CanonicalSnapshot) : List FixedDecimal :=
  [snapshot.previousClose, snapshot.open_, snapshot.high, snapshot.low, snapshot.last,
    snapshot.close, snapshot.weightedAverageBid, snapshot.weightedAverageAsk] ++
    (levelPrices snapshot.bids ++ levelPrices snapshot.asks)

def CanonicalSnapshot.quantities (snapshot : CanonicalSnapshot) : List ScaledInteger :=
  [snapshot.volume, snapshot.totalBidQuantity, snapshot.totalAskQuantity] ++
    (snapshot.bids.toList ++ snapshot.asks.toList).map (·.quantity)

/-- No value of the wrong sign is published as valid, and each one is reported. -/
structure SignRules (fields : SignFields) (snapshot : CanonicalSnapshot) : Prop where
  price_pos : ∀ price ∈ snapshot.prices, price.p6Valid = true → 0 < price.raw
  turnover_nonneg : snapshot.turnover.p6Valid = true → 0 ≤ snapshot.turnover.raw
  quantity_nonneg : ∀ quantity ∈ snapshot.quantities, quantity.valid = true → 0 ≤ quantity.raw
  price_flag : ∀ raw ∈ fields.prices, raw ≠ fields.priceNull → raw ≤ 0 →
    Flags.has snapshot.common.qualityFlags kQualityInvalidPrice = true
  turnover_flag : fields.turnover ≠ fields.turnoverNull → fields.turnover < 0 →
    Flags.has snapshot.common.qualityFlags kQualityInvalidAmount = true
  quantity_flag : ∀ raw ∈ fields.quantities, some raw ≠ fields.quantityNull → raw < 0 →
    Flags.has snapshot.common.qualityFlags kQualityInvalidQuantity = true

/-! ## Values -/

theorem quantityOf_nonneg {scale : ℕ} {nullable : Bool} {raw : ℤ}
    (h : (quantityOf scale nullable raw).valid = true) : 0 ≤ (quantityOf scale nullable raw).raw :=
  (of_decide_eq_true h).1

/-- A level of the record is that of a level that was read, or empty. -/
theorem mem_retainedLevels {levelOf : LevelValues → CanonicalBookLevel} {levels : List LevelValues}
    {level : CanonicalBookLevel} (h : level ∈ (retainedLevels levelOf levels).toList) :
    level = {} ∨ ∃ v, level = levelOf v := by
  obtain ⟨index, hindex, rfl⟩ := List.mem_iff_getElem.1 h
  rw [Vector.length_toList] at hindex
  rw [Vector.getElem_toList, getElem_retainedLevels hindex]
  rcases Nat.lt_or_ge index levels.length with hlt | hge
  · rw [List.getD_eq_getElem _ _ (by rwa [List.length_map]), List.getElem_map]
    exact Or.inr ⟨_, rfl⟩
  · rw [List.getD_eq_default _ _ (by rwa [List.length_map])]
    exact Or.inl rfl

/-- The levels of a side keep the rules that each level keeps. -/
theorem levelPrices_pos {levelOf : LevelValues → CanonicalBookLevel} {levels : List LevelValues}
    (h : ∀ v, (levelOf v).price.p6Valid = true → 0 < (levelOf v).price.raw) :
    ∀ price ∈ levelPrices (retainedLevels levelOf levels),
      price.p6Valid = true → 0 < price.raw := by
  intro price hprice
  obtain ⟨level, hlevel, rfl⟩ := List.mem_map.1 hprice
  rcases mem_retainedLevels hlevel with rfl | ⟨v, rfl⟩
  · simp
  · exact h v

theorem levelQuantities_nonneg {levelOf : LevelValues → CanonicalBookLevel} {v : BookValues}
    (h : ∀ v, (levelOf v).quantity.valid = true → 0 ≤ (levelOf v).quantity.raw) :
    let book := bookOf levelOf v
    ∀ quantity ∈ (book.bids.toList ++ book.asks.toList).map (·.quantity),
      quantity.valid = true → 0 ≤ quantity.raw := by
  intro book quantity hquantity
  obtain ⟨level, hlevel, rfl⟩ := List.mem_map.1 hquantity
  have hof : level = {} ∨ ∃ v, level = levelOf v :=
    (List.mem_append.1 hlevel).elim mem_retainedLevels mem_retainedLevels
  rcases hof with rfl | ⟨v, rfl⟩
  · simp
  · exact h v

/-! ## Marks -/

theorem has_priceFieldMarks {null raw : ℤ} (hnull : raw ≠ null) (hraw : raw ≤ 0) :
    Flags.has (priceFieldMarks null raw) kQualityInvalidPrice = true := by
  rw [priceFieldMarks, priceMarks, Flags.has_or, Flags.has_flagIf, decide_eq_true ⟨hnull, hraw⟩]
  exact Bool.or_eq_true_iff.2 (Or.inr (by decide))

theorem has_quantityMarks {nullable : Bool} {raw : ℤ} (hnull : ¬(nullable = true ∧ raw = kNullI64))
    (hraw : raw < 0) : Flags.has (quantityMarks nullable raw) kQualityInvalidQuantity = true := by
  rw [quantityMarks, if_neg hnull, Flags.has_flagIf, decide_eq_true hraw]
  decide

theorem has_orderMarks {nullable : Bool} {orders : List ℤ} {order : ℤ} {mask : Flags}
    (hmem : order ∈ orders) (hmark : Flags.has (quantityMarks nullable order) mask = true) :
    Flags.has (orderMarks nullable orders) mask = true := by
  obtain ⟨index, hindex, rfl⟩ := List.mem_iff_getElem.1 hmem
  refine has_marksOver.2 ⟨index, hindex, ?_⟩
  rwa [List.getD_eq_getElem _ _ hindex]

section Book

variable {meaning : LevelMeaning} {nullable : Bool} {v : BookValues} {mask : Flags}

theorem has_sideMarks {levels : List LevelValues} {level : LevelValues} (hmem : level ∈ levels)
    (hmark : Flags.has (meaning.levelMarks nullable level) mask = true) :
    Flags.has (meaning.sideMarks nullable levels) mask = true := by
  obtain ⟨index, hindex, rfl⟩ := List.mem_iff_getElem.1 hmem
  refine has_marksOver.2 ⟨index, hindex, ?_⟩
  rwa [levelAt, List.getD_eq_getElem _ _ hindex]

/-- What a level of either side marks is marked. -/
theorem has_bookMarks {level : LevelValues} (hmem : level ∈ v.bids ++ v.asks)
    (hmark : Flags.has (meaning.levelMarks nullable level) mask = true) :
    Flags.has (meaning.bookMarks nullable v) mask = true := by
  rw [LevelMeaning.bookMarks, Flags.has_or, Flags.has_or, Bool.or_eq_true, Bool.or_eq_true]
  exact Or.inr ((List.mem_append.1 hmem).imp (has_sideMarks · hmark) (has_sideMarks · hmark))

/-- A level marks what its price and its quantity mark. -/
structure LevelMeaning.Signed (meaning : LevelMeaning) (null : ℤ) (nullable : Bool) : Prop where
  price : ∀ v mask, Flags.has (priceFieldMarks null v.price) mask = true →
    Flags.has (meaning.marks v) mask = true
  quantity : ∀ v mask, Flags.has (quantityMarks nullable v.quantity) mask = true →
    Flags.has (meaning.marks v) mask = true

theorem shanghaiLevel_signed (body : List UInt8) :
    (shanghaiLevelMeaning body).Signed kNullI32 true where
  price _ _ h := (Flags.has_or _ _ _).trans (Bool.or_eq_true_iff.2 (Or.inl h))
  quantity _ _ h := (Flags.has_or _ _ _).trans (Bool.or_eq_true_iff.2 (Or.inr h))

theorem shenzhenLevel_signed (body : List UInt8) :
    (shenzhenLevelMeaning body).Signed kNullI64 false where
  price _ _ h := (Flags.has_or _ _ _).trans (Bool.or_eq_true_iff.2 (Or.inr h))
  quantity _ _ h := (Flags.has_or _ _ _).trans (Bool.or_eq_true_iff.2 (Or.inl h))

variable {null : ℤ} (hsigned : meaning.Signed null nullable)
include hsigned

theorem has_bookPrices {raw : ℤ} (hmem : raw ∈ bookPrices v) (hnull : raw ≠ null) (hraw : raw ≤ 0) :
    Flags.has (meaning.bookMarks nullable v) kQualityInvalidPrice = true := by
  obtain ⟨level, hlevel, rfl⟩ := List.mem_map.1 hmem
  refine has_bookMarks hlevel ?_
  rw [LevelMeaning.levelMarks, Flags.has_or, Bool.or_eq_true]
  exact Or.inl (hsigned.price level _ (has_priceFieldMarks hnull hraw))

theorem has_bookQuantities {raw : ℤ} (hmem : raw ∈ bookQuantities v)
    (hnull : ¬(nullable = true ∧ raw = kNullI64)) (hraw : raw < 0) :
    Flags.has (meaning.bookMarks nullable v) kQualityInvalidQuantity = true := by
  obtain ⟨level, hlevel, hfield⟩ := List.mem_flatMap.1 hmem
  refine has_bookMarks hlevel ?_
  rw [LevelMeaning.levelMarks, Flags.has_or, Bool.or_eq_true]
  rcases List.mem_cons.1 hfield with rfl | horder
  · exact Or.inl (hsigned.quantity level _ (has_quantityMarks hnull hraw))
  · exact Or.inr (has_orderMarks horder (has_quantityMarks hnull hraw))

end Book

/-! ## Snapshots -/

/-- A turnover that is not null has a value in millionths, whatever its sign. -/
theorem turnover_nonneg_iff {scale : ℕ} {raw : ℤ} :
    ((inMillionths (rawDecimal kNullI64 scale raw)).p6Valid = true →
        0 ≤ (inMillionths (rawDecimal kNullI64 scale raw)).raw) ↔
      raw = kNullI64 ∨ 0 ≤ raw := by
  rw [raw_inMillionths, inMillionths]
  by_cases hnull : raw = kNullI64
  · simp [rawDecimal, hnull]
  · simp [rawDecimal, hnull]

/-- The rules of a snapshot whose record marks what its fields and its levels mark, and whose
turnover has the right sign. -/
theorem signRules_of {fields : SignFields} {snapshot : CanonicalSnapshot} {meaning : LevelMeaning}
    {nullable : Bool} {book : BookValues} {prices quantities : List ℤ}
    (hsigned : meaning.Signed fields.priceNull nullable)
    (hprices : fields.prices = prices ++ bookPrices book)
    (hquantities : fields.quantities = quantities ++ bookQuantities book)
    (hvalid : ∀ raw, some raw ≠ fields.quantityNull → ¬(nullable = true ∧ raw = kNullI64))
    (hmarks : ∀ mask,
      ((∃ raw ∈ prices, Flags.has (priceFieldMarks fields.priceNull raw) mask = true) ∨
        (∃ raw ∈ quantities, Flags.has (quantityMarks nullable raw) mask = true) ∨
        Flags.has (meaning.bookMarks nullable book) mask = true) →
      Flags.has snapshot.common.qualityFlags mask = true)
    (hpositive : ∀ price ∈ snapshot.prices, price.p6Valid = true → 0 < price.raw)
    (hturnover : snapshot.turnover.p6Valid = true → 0 ≤ snapshot.turnover.raw)
    (hsign : fields.turnover = fields.turnoverNull ∨ 0 ≤ fields.turnover)
    (hnonneg : ∀ quantity ∈ snapshot.quantities, quantity.valid = true → 0 ≤ quantity.raw) :
    SignRules fields snapshot where
  price_pos := hpositive
  turnover_nonneg := hturnover
  quantity_nonneg := hnonneg
  price_flag raw hmem hnull hraw := by
    refine hmarks _ ?_
    rw [hprices] at hmem
    rcases List.mem_append.1 hmem with hmem | hmem
    · exact Or.inl ⟨raw, hmem, has_priceFieldMarks hnull hraw⟩
    · exact Or.inr (Or.inr (has_bookPrices hsigned hmem hnull hraw))
  turnover_flag hnull hneg := absurd hneg (not_lt.2 (hsign.resolve_left hnull))
  quantity_flag raw hmem hnull hraw := by
    refine hmarks _ ?_
    rw [hquantities] at hmem
    rcases List.mem_append.1 hmem with hmem | hmem
    · exact Or.inr (Or.inl ⟨raw, hmem, has_quantityMarks (hvalid raw hnull) hraw⟩)
    · exact Or.inr (Or.inr (has_bookQuantities hsigned hmem (hvalid raw hnull) hraw))

theorem ShanghaiSnapshotValues.has_marks {v : ShanghaiSnapshotValues} {body : List UInt8}
    {mask : Flags}
    (h : (∃ raw ∈ v.prices, Flags.has (priceFieldMarks kNullI32 raw) mask = true) ∨
      (∃ raw ∈ v.quantities, Flags.has (quantityMarks true raw) mask = true) ∨
      Flags.has ((shanghaiLevelMeaning body).bookMarks true v.book) mask = true) :
    Flags.has (v.marks body) mask = true := by
  simp only [marks, Flags.has_or, Bool.or_eq_true, has_allMarks]
  rcases h with h | h | h
  · exact Or.inl (Or.inl (Or.inl (Or.inr h)))
  · exact Or.inl (Or.inl (Or.inr h))
  · exact Or.inr h

theorem ShanghaiSnapshotValues.signRules_iff (v : ShanghaiSnapshotValues) (body : List UInt8)
    {common : CanonicalCommon}
    (hmarks : ∀ mask, Flags.has (v.marks body) mask = true →
      Flags.has common.qualityFlags mask = true) :
    SignRules v.signFields (v.canonical common) ↔ v.turnover = kNullI64 ∨ 0 ≤ v.turnover := by
  refine ⟨fun h => turnover_nonneg_iff.1 h.turnover_nonneg, fun h => ?_⟩
  refine signRules_of (shanghaiLevel_signed body) rfl rfl
    (fun _ hnull h => hnull (congrArg some h.2))
    (fun mask hmask => hmarks mask (has_marks hmask)) ?_ (turnover_nonneg_iff.2 h) h ?_
  · refine List.forall_mem_append.2 ⟨?_, List.forall_mem_append.2
      ⟨levelPrices_pos fun _ => priceOf_pos, levelPrices_pos fun _ => priceOf_pos⟩⟩
    simp only [List.forall_mem_cons, List.not_mem_nil, false_implies, implies_true, and_true]
    exact ⟨priceOf_pos, priceOf_pos, priceOf_pos, priceOf_pos, priceOf_pos, priceOf_pos,
      priceOf_pos, priceOf_pos⟩
  · refine List.forall_mem_append.2 ⟨?_, levelQuantities_nonneg fun _ => quantityOf_nonneg⟩
    simp only [List.forall_mem_cons, List.not_mem_nil, false_implies, implies_true, and_true]
    exact ⟨quantityOf_nonneg, quantityOf_nonneg, quantityOf_nonneg⟩

theorem ShenzhenSnapshotValues.has_marks {v : ShenzhenSnapshotValues} {body : List UInt8}
    {mask : Flags}
    (h : (∃ raw ∈ v.prices, Flags.has (priceFieldMarks kNullI64 raw) mask = true) ∨
      (∃ raw ∈ v.quantities, Flags.has (quantityMarks false raw) mask = true) ∨
      Flags.has ((shenzhenLevelMeaning body).bookMarks false v.book) mask = true) :
    Flags.has (v.marks body) mask = true := by
  simp only [marks, Flags.has_or, Bool.or_eq_true, has_allMarks]
  rcases h with h | h | h
  · exact Or.inl (Or.inl (Or.inl (Or.inr h)))
  · exact Or.inl (Or.inl (Or.inr h))
  · exact Or.inr h

theorem ShenzhenSnapshotValues.signRules_iff (v : ShenzhenSnapshotValues) (body : List UInt8)
    {common : CanonicalCommon}
    (hmarks : ∀ mask, Flags.has (v.marks body) mask = true →
      Flags.has common.qualityFlags mask = true) :
    SignRules v.signFields (v.canonical common) ↔ v.turnover = kNullI64 ∨ 0 ≤ v.turnover := by
  refine ⟨fun h => turnover_nonneg_iff.1 h.turnover_nonneg, fun h => ?_⟩
  refine signRules_of (shenzhenLevel_signed body) rfl rfl (fun _ _ h => Bool.false_ne_true h.1)
    (fun mask hmask => hmarks mask (has_marks hmask)) ?_ (turnover_nonneg_iff.2 h) h ?_
  · refine List.forall_mem_append.2 ⟨?_, List.forall_mem_append.2
      ⟨levelPrices_pos fun _ => priceOf_pos, levelPrices_pos fun _ => priceOf_pos⟩⟩
    simp only [List.forall_mem_cons, List.not_mem_nil, false_implies, implies_true, and_true]
    exact ⟨priceOf_pos, priceOf_pos, priceOf_pos, priceOf_pos, priceOf_pos,
      fun hvalid => absurd hvalid Bool.false_ne_true, priceOf_pos, priceOf_pos⟩
  · refine List.forall_mem_append.2 ⟨?_, levelQuantities_nonneg fun _ => quantityOf_nonneg⟩
    simp only [List.forall_mem_cons, List.not_mem_nil, false_implies, implies_true, and_true]
    exact ⟨quantityOf_nonneg, quantityOf_nonneg, quantityOf_nonneg⟩

/-- The catalog only adds to the quality. -/
theorem has_applyCatalog {catalog : InstrumentCatalog} {common : CanonicalCommon} {mask : Flags}
    (h : Flags.has common.qualityFlags mask = true) :
    Flags.has (applyCatalog catalog common).2.qualityFlags mask = true := by
  unfold applyCatalog
  dsimp only
  split
  · rw [Flags.has_or, h, Bool.true_or]
  · exact h

/-- The rules hold of a snapshot that is accepted exactly if the turnover is null or not
negative. -/
theorem snapshot_signs {grows : ℕ → Bool} {message : OwnedMessageView} {tradeDate : ℕ}
    {limits : DecoderLimits} {catalog : InstrumentCatalog} {result : SnapshotDecodeResult}
    {s : Scan} (h : decodeSnapshot grows message tradeDate limits catalog = .ok result s) :
    SignRules (signFields message) result.snapshot ↔
      (signFields message).turnover = kNullI64 ∨ 0 ≤ (signFields message).turnover := by
  have hends := decodeSnapshot_gives grows message tradeDate limits catalog
  rw [h] at hends
  obtain ⟨rfl, -⟩ := hends
  have hmarked : ∀ mask, Flags.has (snapshotMarks message) mask = true → Flags.has
      (timeMarks message.header.localTimeRaw ||| snapshotMarks message) mask = true := by
    intro mask hmask
    rw [Flags.has_or, hmask, Bool.or_true]
  unfold signFields snapshotOf
  unfold snapshotMarks at hmarked ⊢
  rcases decodeSnapshot_class h with hclass | hclass
  · rw [hclass] at hmarked ⊢
    exact ShanghaiSnapshotValues.signRules_iff _ message.body fun mask hmask =>
      has_applyCatalog (hmarked mask hmask)
  · rw [hclass] at hmarked ⊢
    exact ShenzhenSnapshotValues.signRules_iff _ message.body fun mask hmask =>
      has_applyCatalog (hmarked mask hmask)

/-- Two snapshots that keep the rules. -/
theorem snapshot_signs_sample :
    sampleSnapshots.Forall fun message =>
      ∃ result s, decodeSnapshot (fun _ => true) message 20260101 {} {} = .ok result s ∧
        SignRules (signFields message) result.snapshot := by
  have hturnover : ∀ message ∈ sampleSnapshots, 0 ≤ (signFields message).turnover := by
    decide +kernel
  refine List.forall_iff_forall_mem.2 fun message hmessage => ?_
  obtain ⟨result, s, hrun⟩ := sampleSnapshots_decoded message hmessage
  exact ⟨result, s, hrun, (snapshot_signs hrun).2 (Or.inr (hturnover message hmessage))⟩

/-- The first sample, with a turnover of -1. -/
def negativeTurnover : OwnedMessageView :=
  sampleMessage ⟨4, 101, 4⟩
    (sampleShanghaiBody.take 56 ++ bytes 8 (unsigned 64 (-1)) ++ sampleShanghaiBody.drop 64)

/-- It is published as valid, and nothing is reported. -/
theorem negative_turnover_published :
    ∃ result s, decodeSnapshot (fun _ => true) negativeTurnover 20260101 {} {} = .ok result s ∧
      result.snapshot.turnover.p6Valid = true ∧ result.snapshot.turnover.raw = -1 ∧
      Flags.has result.snapshot.common.qualityFlags kQualityInvalidAmount = false ∧
      ¬SignRules (signFields negativeTurnover) result.snapshot := by
  have hrun : succeeds (fun result => result.snapshot.turnover.p6Valid &&
      (decide (result.snapshot.turnover.raw = -1) &&
        !Flags.has result.snapshot.common.qualityFlags kQualityInvalidAmount))
      (decodeSnapshot (fun _ => true) negativeTurnover 20260101 {} {}) = true := by
    decide +kernel
  obtain ⟨result, s, hrun, hcheck⟩ := exists_ok hrun
  simp only [Bool.and_eq_true, decide_eq_true_eq, Bool.not_eq_true'] at hcheck
  obtain ⟨hvalid, hraw, hflag⟩ := hcheck
  refine ⟨result, s, hrun, hvalid, hraw, hflag, fun h => ?_⟩
  have hnonneg := h.turnover_nonneg hvalid
  omega

end L2Flow
