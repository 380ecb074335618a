import L2Flow.SnapshotMeaning

/-!
# Values in millionths

A decimal of a record has the number of its field, is null exactly for the null value of the
field, and its value in millionths, where it has one, is the exact product (`p6_exact`). The
decoders fail with `kFixedPointOverflow` exactly where the product of a decimal that is
normalised does not fit in 64 bits, be it in a level that the record does not retain.
-/

namespace L2Flow

open LittleEndian (signed)

/-- The value in millionths, where there is one, is exact and fits in 64 bits. -/
structure FixedDecimal.Exact (d : FixedDecimal) : Prop where
  rawValid : d.p6Valid = true → d.rawValid = true
  scale_le : d.p6Valid = true → d.sourceScale ≤ 6
  p6 : d.p6Valid = true → d.p6 = d.raw * 10 ^ (6 - d.sourceScale)
  bounds : d.p6Valid = true → int64Min ≤ d.p6 ∧ d.p6 ≤ int64Max

/-- A number of a body that is loaded as a decimal : its width in bits, its offset, its scale. -/
structure DecimalField where
  width : ℕ
  offset : ℕ
  scale : ℕ

namespace DecimalField

def raw (field : DecimalField) (body : List UInt8) : ℤ :=
  signed field.width (wire body (field.width / 8) field.offset)

theorem raw_32 (body : List UInt8) (offset scale : ℕ) :
    raw ⟨32, offset, scale⟩ body = signed 32 (wire body 4 offset) := by
  unfold raw
  norm_num

theorem raw_64 (body : List UInt8) (offset scale : ℕ) :
    raw ⟨64, offset, scale⟩ body = signed 64 (wire body 8 offset) := by
  unfold raw
  norm_num

/-- `INT32_MIN` or `INT64_MIN`. -/
def null (field : DecimalField) : ℤ :=
  -2 ^ (field.width - 1)

/-- The decimal has the number of the field, and is null exactly for its null value. -/
structure LoadedAs (field : DecimalField) (body : List UInt8) (d : FixedDecimal) : Prop where
  raw : d.raw = field.raw body
  scale : d.sourceScale = field.scale
  null : d.rawValid = false ↔ d.raw = field.null

end DecimalField

/-- The decimals of a record are those of the fields of its body, or nothing was loaded. -/
structure DecimalsExact (body : List UInt8) (decimals : List FixedDecimal)
    (fields : List (DecimalField × FixedDecimal)) : Prop where
  exact : ∀ d ∈ decimals, d.Exact
  loaded : ∀ field d, (field, d) ∈ fields → field.LoadedAs body d
  rest : ∀ d ∈ decimals, d ∈ fields.map Prod.snd ∨ d = {}

/-! ## One decimal -/

theorem FixedDecimal.exact_of_no_p6 {d : FixedDecimal} (h : d.p6Valid = false) : d.Exact := by
  have hnone : ¬d.p6Valid = true := by simp [h]
  exact ⟨fun hd => absurd hd hnone, fun hd => absurd hd hnone, fun hd => absurd hd hnone,
    fun hd => absurd hd hnone⟩

theorem rawDecimal_exact (null : ℤ) (scale : ℕ) (raw : ℤ) : (rawDecimal null scale raw).Exact :=
  FixedDecimal.exact_of_no_p6 rfl

theorem inMillionths_exact {null raw : ℤ} {scale : ℕ} (hscale : scale ≤ 6)
    (hfits : raw ≠ null → Fits scale raw) : (inMillionths (rawDecimal null scale raw)).Exact := by
  by_cases hnull : raw = null
  · have hinvalid : ¬(rawDecimal null scale raw).rawValid = true := by simp [rawDecimal, hnull]
    rw [inMillionths, if_neg hinvalid]
    exact rawDecimal_exact null scale raw
  · have hvalid : (rawDecimal null scale raw).rawValid = true := decide_eq_true hnull
    rw [inMillionths, if_pos hvalid]
    exact ⟨fun _ => hvalid, fun _ => hscale, fun _ => rfl, fun _ => hfits hnull⟩

theorem priceOf_exact {null raw : ℤ} {scale : ℕ} (hscale : scale ≤ 6)
    (hfits : ∀ d ∈ priceDecimals scale raw, d.Fits) : (priceOf null scale raw).Exact := by
  unfold priceOf
  split_ifs with hraw
  · exact rawDecimal_exact null scale raw
  · refine inMillionths_exact hscale fun _ => ?_
    rw [priceDecimals, if_pos (not_le.1 hraw)] at hfits
    exact hfits ⟨scale, raw⟩ (List.mem_singleton_self _)

theorem amountOf_exact {raw : ℤ} {scale : ℕ} (hscale : scale ≤ 6)
    (hfits : ∀ d ∈ amountDecimals scale raw, d.Fits) : (amountOf scale raw).Exact := by
  unfold amountOf
  split_ifs with hraw
  · refine inMillionths_exact hscale fun _ => ?_
    rw [amountDecimals, if_pos hraw] at hfits
    exact hfits ⟨scale, raw⟩ (List.mem_singleton_self _)
  · exact rawDecimal_exact kNullI64 scale raw

theorem decimal_exact {null raw : ℤ} {scale : ℕ} (hscale : scale ≤ 6)
    (hfits : ∀ d ∈ decimalDecimals null scale raw, d.Fits) :
    (inMillionths (rawDecimal null scale raw)).Exact := by
  refine inMillionths_exact hscale fun hnull => ?_
  rw [decimalDecimals, if_neg hnull] at hfits
  exact hfits ⟨scale, raw⟩ (List.mem_singleton_self _)

section Loaded

variable {body : List UInt8} (field : DecimalField)

theorem rawDecimal_loaded :
    field.LoadedAs body (rawDecimal field.null field.scale (field.raw body)) :=
  ⟨rfl, rfl, by simp [rawDecimal]⟩

theorem inMillionths_loaded :
    field.LoadedAs body (inMillionths (rawDecimal field.null field.scale (field.raw body))) := by
  have hloaded : field.LoadedAs body (rawDecimal field.null field.scale (field.raw body)) :=
    rawDecimal_loaded field
  unfold inMillionths
  split_ifs
  · exact ⟨hloaded.raw, hloaded.scale, hloaded.null⟩
  · exact hloaded

theorem priceOf_loaded : field.LoadedAs body (priceOf field.null field.scale (field.raw body)) := by
  unfold priceOf
  split_ifs
  · exact rawDecimal_loaded field
  · exact inMillionths_loaded field

theorem amountOf_loaded (hnull : field.null = kNullI64) :
    field.LoadedAs body (amountOf field.scale (field.raw body)) := by
  unfold amountOf
  rw [← hnull]
  split_ifs
  · exact inMillionths_loaded field
  · exact rawDecimal_loaded field

end Loaded

/-- Field by field. -/
theorem DecimalsExact.of_fields {body : List UInt8} {decimals : List FixedDecimal}
    {fields : List (DecimalField × FixedDecimal)}
    (hfields : ∀ entry ∈ fields, entry.1.LoadedAs body entry.2 ∧ entry.2.Exact)
    (hrest : ∀ d ∈ decimals, d ∈ fields.map Prod.snd ∨ d = {}) :
    DecimalsExact body decimals fields where
  exact d hd := by
    rcases hrest d hd with hmem | rfl
    · obtain ⟨entry, hentry, rfl⟩ := List.mem_map.1 hmem
      exact (hfields entry hentry).2
    · exact FixedDecimal.exact_of_no_p6 rfl
  loaded field d hmem := (hfields (field, d) hmem).1
  rest := hrest

/-! ## Ticks -/

def CanonicalTick.decimals (tick : CanonicalTick) : List FixedDecimal :=
  [tick.price, tick.amount]

/-- The fields that the layout of the message has for the decimals of a tick. -/
def tickFields (message : OwnedMessageView) (tick : CanonicalTick) :
    List (DecimalField × FixedDecimal) :=
  match classifyMessage message.header.key with
  | .kShenzhenOrder => [(⟨64, 30, 4⟩, tick.price)]
  | .kShenzhenTransaction => [(⟨64, 46, 4⟩, tick.price)]
  | _ => [(⟨32, 44, 3⟩, tick.price), (⟨64, 56, 3⟩, tick.amount)]

namespace ShanghaiTickValues

variable (v : ShanghaiTickValues)

/-- The price of a Shanghai tick is normalised, or only loaded. -/
theorem priceDecimal_cases :
    v.priceDecimal = rawDecimal kNullI32 3 v.price ∨
      v.priceDecimal = priceOf kNullI32 3 v.price ∧ priceDecimals 3 v.price ⊆ v.decimals := by
  unfold priceDecimal decimals
  cases v.action with
  | kAdd => exact Or.inr ⟨rfl, List.Subset.refl _⟩
  | kTrade => exact Or.inr ⟨rfl, List.subset_append_left _ _⟩
  | kCancel | kStatus | kUnknown => exact Or.inl rfl

theorem amountDecimal_cases :
    v.amountDecimal = rawDecimal kNullI64 3 v.amount ∨
      v.amountDecimal = amountOf 3 v.amount ∧ amountDecimals 3 v.amount ⊆ v.decimals := by
  unfold amountDecimal decimals
  cases v.action with
  | kTrade => exact Or.inr ⟨rfl, List.subset_append_right _ _⟩
  | kAdd | kCancel | kStatus | kUnknown => exact Or.inl rfl

variable (hfits : ∀ d ∈ v.decimals, d.Fits)
include hfits

theorem priceDecimal_exact : v.priceDecimal.Exact := by
  rcases v.priceDecimal_cases with heq | ⟨heq, hsub⟩
  · rw [heq]
    exact rawDecimal_exact _ _ _
  · rw [heq]
    exact priceOf_exact (by decide) fun d hd => hfits d (hsub hd)

theorem amountDecimal_exact : v.amountDecimal.Exact := by
  rcases v.amountDecimal_cases with heq | ⟨heq, hsub⟩
  · rw [heq]
    exact rawDecimal_exact _ _ _
  · rw [heq]
    exact amountOf_exact (by decide) fun d hd => hfits d (hsub hd)

end ShanghaiTickValues

theorem ShenzhenOrderValues.priceDecimal_exact (v : ShenzhenOrderValues)
    (hfits : ∀ d ∈ v.decimals, d.Fits) : v.priceDecimal.Exact := by
  unfold ShenzhenOrderValues.decimals at hfits
  unfold priceDecimal
  split_ifs at hfits ⊢
  · exact priceOf_exact (by decide) hfits
  · exact rawDecimal_exact _ _ _

theorem ShenzhenTransactionValues.priceDecimal_exact (v : ShenzhenTransactionValues)
    (hfits : ∀ d ∈ v.decimals, d.Fits) : v.priceDecimal.Exact := by
  unfold ShenzhenTransactionValues.decimals at hfits
  unfold priceDecimal
  split at hfits
  · exact priceOf_exact (by decide) hfits
  · exact rawDecimal_exact _ _ _

section Loaded

variable (body : List UInt8)

theorem shanghaiPrice_loaded :
    DecimalField.LoadedAs ⟨32, 44, 3⟩ body (shanghaiTickValues body).priceDecimal := by
  rcases (shanghaiTickValues body).priceDecimal_cases with heq | ⟨heq, -⟩
  · rw [heq]
    exact rawDecimal_loaded ⟨32, 44, 3⟩
  · rw [heq]
    exact priceOf_loaded ⟨32, 44, 3⟩

theorem shanghaiAmount_loaded :
    DecimalField.LoadedAs ⟨64, 56, 3⟩ body (shanghaiTickValues body).amountDecimal := by
  rcases (shanghaiTickValues body).amountDecimal_cases with heq | ⟨heq, -⟩
  · rw [heq]
    exact rawDecimal_loaded ⟨64, 56, 3⟩
  · rw [heq]
    exact amountOf_loaded ⟨64, 56, 3⟩ rfl

theorem shenzhenOrderPrice_loaded :
    DecimalField.LoadedAs ⟨64, 30, 4⟩ body (shenzhenOrderValues body).priceDecimal := by
  unfold ShenzhenOrderValues.priceDecimal
  split_ifs
  · exact priceOf_loaded ⟨64, 30, 4⟩
  · exact rawDecimal_loaded ⟨64, 30, 4⟩

theorem shenzhenTransactionPrice_loaded :
    DecimalField.LoadedAs ⟨64, 46, 4⟩ body (shenzhenTransactionValues body).priceDecimal := by
  unfold ShenzhenTransactionValues.priceDecimal
  split
  · exact priceOf_loaded ⟨64, 46, 4⟩
  · exact rawDecimal_loaded ⟨64, 46, 4⟩

end Loaded

/-- The decimals of the tick that a message stands for. -/
theorem tickOf_exact {message : OwnedMessageView} (hfits : ∀ d ∈ tickDecimals message, d.Fits)
    (hclass : classifyMessage message.header.key = .kShanghaiTick ∨
      classifyMessage message.header.key = .kShenzhenOrder ∨
        classifyMessage message.header.key = .kShenzhenTransaction)
    (tradeDate : ℕ) (quality : Flags) :
    let tick := tickOf message tradeDate quality
    DecimalsExact message.body tick.decimals (tickFields message tick) := by
  unfold tickDecimals at hfits
  unfold tickOf tickFields
  rcases hclass with hclass | hclass | hclass
  · rw [hclass] at hfits ⊢
    refine DecimalsExact.of_fields ?_ ?_
    · exact List.forall_mem_cons.2
        ⟨⟨shanghaiPrice_loaded _, ShanghaiTickValues.priceDecimal_exact _ hfits⟩,
          List.forall_mem_singleton.2
            ⟨shanghaiAmount_loaded _, ShanghaiTickValues.amountDecimal_exact _ hfits⟩⟩
    · exact fun d hd => Or.inl hd
  · rw [hclass] at hfits ⊢
    refine DecimalsExact.of_fields ?_ ?_
    · exact List.forall_mem_singleton.2 ⟨shenzhenOrderPrice_loaded _,
        ShenzhenOrderValues.priceDecimal_exact _ hfits⟩
    · exact List.forall_mem_cons.2 ⟨Or.inl (List.mem_singleton_self _),
        List.forall_mem_singleton.2 (Or.inr rfl)⟩
  · rw [hclass] at hfits ⊢
    refine DecimalsExact.of_fields ?_ ?_
    · exact List.forall_mem_singleton.2 ⟨shenzhenTransactionPrice_loaded _,
        ShenzhenTransactionValues.priceDecimal_exact _ hfits⟩
    · exact List.forall_mem_cons.2 ⟨Or.inl (List.mem_singleton_self _),
        List.forall_mem_singleton.2 (Or.inr rfl)⟩

/-! ## Snapshots -/

/-- The prices of the levels of a side. -/
def levelPrices (levels : BookLevels) : List FixedDecimal :=
  levels.toList.map (·.price)

def CanonicalSnapshot.decimals (snapshot : CanonicalSnapshot) : List FixedDecimal :=
  [snapshot.previousClose, snapshot.open_, snapshot.high, snapshot.low, snapshot.last,
    snapshot.close, snapshot.turnover, snapshot.weightedAverageBid, snapshot.weightedAverageAsk] ++
    (levelPrices snapshot.bids ++ levelPrices snapshot.asks)

/-- The fields of the prices of the levels that are retained : `price` is the field of a level
that starts at offset 0. -/
def levelFields (body : List UInt8) (price : DecimalField) (descriptor : ℕ) (levels : BookLevels) :
    List (DecimalField × FixedDecimal) :=
  (List.range (min (listCount body descriptor) kCanonicalBookDepth)).map fun index =>
    ({ price with offset := levelOffset body descriptor index + price.offset },
      (levels.toList.getD index {}).price)

/-- The fields that the layout of the message has for the decimals of a snapshot. -/
def snapshotFields (message : OwnedMessageView) (snapshot : CanonicalSnapshot) :
    List (DecimalField × FixedDecimal) :=
  match classifyMessage message.header.key with
  | .kShenzhenSnapshot =>
    [(⟨64, 32, 4⟩, snapshot.previousClose), (⟨64, 56, 4⟩, snapshot.turnover),
      (⟨64, 64, 6⟩, snapshot.last), (⟨64, 72, 6⟩, snapshot.open_), (⟨64, 80, 6⟩, snapshot.high),
      (⟨64, 88, 6⟩, snapshot.low), (⟨64, 152, 6⟩, snapshot.weightedAverageAsk),
      (⟨64, 168, 6⟩, snapshot.weightedAverageBid)] ++
      (levelFields message.body ⟨64, 8, 6⟩ 208 snapshot.bids ++
        levelFields message.body ⟨64, 8, 6⟩ 216 snapshot.asks)
  | _ =>
    [(⟨32, 14, 3⟩, snapshot.previousClose), (⟨32, 18, 3⟩, snapshot.open_),
      (⟨32, 22, 3⟩, snapshot.high), (⟨32, 26, 3⟩, snapshot.low), (⟨32, 30, 3⟩, snapshot.last),
      (⟨32, 34, 3⟩, snapshot.close), (⟨64, 56, 5⟩, snapshot.turnover),
      (⟨32, 72, 3⟩, snapshot.weightedAverageBid), (⟨32, 88, 3⟩, snapshot.weightedAverageAsk)] ++
      (levelFields message.body ⟨32, 4, 3⟩ 228 snapshot.bids ++
        levelFields message.body ⟨32, 4, 3⟩ 236 snapshot.asks)

section Levels

variable {body : List UInt8} {meaning : LevelMeaning} {descriptor : ℕ}

theorem getElem_retainedLevels {levelOf : LevelValues → CanonicalBookLevel}
    {levels : List LevelValues} {index : ℕ} (h : index < kCanonicalBookDepth) :
    (retainedLevels levelOf levels)[index] = (levels.map levelOf).getD index {} := by
  rw [retainedLevels, Vector.getElem_ofFn]

/-- A level that is retained is read at its offset. -/
theorem getD_retainedLevels {index : ℕ}
    (h : index < min (listCount body descriptor) kCanonicalBookDepth) :
    (retainedLevels meaning.levelOf (sideValues meaning.values body descriptor)).toList.getD index
        {} =
      meaning.levelOf (meaning.values (levelOffset body descriptor index)) := by
  have hcount := lt_of_lt_of_le h (min_le_left _ _)
  have hdepth := lt_of_lt_of_le h (min_le_right _ _)
  rw [List.getD_eq_getElem _ _ (by rw [Vector.length_toList]; exact hdepth), Vector.getElem_toList,
    getElem_retainedLevels hdepth, List.getD_eq_getElem _ _
      (by rw [List.length_map, length_sideValues]; exact hcount), List.getElem_map]
  simp only [sideValues, List.getElem_map, List.getElem_range]

/-- A price of a retained level is that of a level of the body, or nothing was loaded. -/
theorem levelPrices_rest (price : DecimalField) :
    let levels := retainedLevels meaning.levelOf (sideValues meaning.values body descriptor)
    ∀ d ∈ levelPrices levels,
      d ∈ (levelFields body price descriptor levels).map Prod.snd ∨ d = {} := by
  intro levels d hd
  obtain ⟨level, hlevel, rfl⟩ := List.mem_map.1 hd
  obtain ⟨index, hindex, rfl⟩ := List.mem_iff_getElem.1 hlevel
  have hdepth : index < kCanonicalBookDepth := by
    rwa [Vector.length_toList] at hindex
  rcases Nat.lt_or_ge index (listCount body descriptor) with hlt | hge
  · refine Or.inl (List.mem_map.2 ⟨_, List.mem_map.2 ⟨index, ?_, rfl⟩, ?_⟩)
    · exact List.mem_range.2 (lt_min hlt hdepth)
    · show (levels.toList.getD index {}).price = _
      rw [List.getD_eq_getElem _ _ hindex]
  · refine Or.inr ?_
    rw [Vector.getElem_toList]
    show (retainedLevels meaning.levelOf (sideValues meaning.values body descriptor))[index].price =
      {}
    rw [getElem_retainedLevels hdepth, List.getD_eq_default _ _
      (by rw [List.length_map, length_sideValues]; exact hge)]

/-- The prices of the levels are loaded and exact. -/
theorem levelFields_sound {price : DecimalField}
    (hloaded : ∀ at_, DecimalField.LoadedAs { price with offset := at_ + price.offset } body
      (meaning.levelOf (meaning.values at_)).price)
    (hexact : ∀ v, (∀ d ∈ meaning.decimals v, d.Fits) → (meaning.levelOf v).price.Exact)
    (hfits : ∀ d ∈ meaning.sideDecimals (sideValues meaning.values body descriptor), d.Fits) :
    ∀ entry ∈ levelFields body price descriptor
        (retainedLevels meaning.levelOf (sideValues meaning.values body descriptor)),
      entry.1.LoadedAs body entry.2 ∧ entry.2.Exact := by
  intro entry hentry
  obtain ⟨index, hindex, rfl⟩ := List.mem_map.1 hentry
  have hlt := List.mem_range.1 hindex
  rw [getD_retainedLevels hlt]
  refine ⟨hloaded _, hexact _ fun d hd => hfits d ?_⟩
  have hcount := lt_of_lt_of_le hlt (min_le_left _ _)
  rw [LevelMeaning.sideDecimals, length_sideValues]
  refine List.mem_flatMap.2 ⟨index, List.mem_range.2 hcount, ?_⟩
  rw [levelAt_sideValues hcount]
  exact hd

end Levels

/-- The fields of a record, and those of the levels of its book. -/
theorem DecimalsExact.of_book {body : List UInt8} (meaning : LevelMeaning) {price : DecimalField}
    {bidsOffset asksOffset : ℕ} {scalars : List FixedDecimal}
    {fields : List (DecimalField × FixedDecimal)}
    (hfields : ∀ entry ∈ fields, entry.1.LoadedAs body entry.2 ∧ entry.2.Exact)
    (hrest : ∀ d ∈ scalars, d ∈ fields.map Prod.snd ∨ d = {})
    (hloaded : ∀ at_, DecimalField.LoadedAs { price with offset := at_ + price.offset } body
      (meaning.levelOf (meaning.values at_)).price)
    (hexact : ∀ v, (∀ d ∈ meaning.decimals v, d.Fits) → (meaning.levelOf v).price.Exact)
    (hfits : ∀ d ∈ meaning.bookDecimals (bookValues meaning.values body bidsOffset asksOffset),
      d.Fits) :
    let book := bookOf meaning.levelOf (bookValues meaning.values body bidsOffset asksOffset)
    DecimalsExact body (scalars ++ (levelPrices book.bids ++ levelPrices book.asks))
      (fields ++ (levelFields body price bidsOffset book.bids ++
        levelFields body price asksOffset book.asks)) := by
  intro book
  have hbids := levelFields_sound hloaded hexact fun d hd => hfits d (List.mem_append_left _ hd)
  have hasks := levelFields_sound hloaded hexact fun d hd => hfits d (List.mem_append_right _ hd)
  refine of_fields ?_ ?_
  · exact List.forall_mem_append.2 ⟨hfields, List.forall_mem_append.2 ⟨hbids, hasks⟩⟩
  · intro d hd
    rw [List.map_append, List.map_append, List.mem_append, List.mem_append]
    rcases List.mem_append.1 hd with hd | hd
    · exact (hrest d hd).imp_left Or.inl
    · rcases List.mem_append.1 hd with hd | hd
      · exact (levelPrices_rest price d hd).imp_left fun h => Or.inr (Or.inl h)
      · exact (levelPrices_rest price d hd).imp_left fun h => Or.inr (Or.inr h)

theorem shanghaiLevel_loaded (body : List UInt8) (at_ : ℕ) :
    DecimalField.LoadedAs ⟨32, at_ + 4, 3⟩ body
      ((shanghaiLevelMeaning body).levelOf ((shanghaiLevelMeaning body).values at_)).price := by
  have hloaded : DecimalField.LoadedAs ⟨32, at_ + 4, 3⟩ body _ := priceOf_loaded _
  rw [DecimalField.raw_32] at hloaded
  exact hloaded

theorem shenzhenLevel_loaded (body : List UInt8) (at_ : ℕ) :
    DecimalField.LoadedAs ⟨64, at_ + 8, 6⟩ body
      ((shenzhenLevelMeaning body).levelOf ((shenzhenLevelMeaning body).values at_)).price := by
  have hloaded : DecimalField.LoadedAs ⟨64, at_ + 8, 6⟩ body _ := priceOf_loaded _
  rw [DecimalField.raw_64] at hloaded
  exact hloaded

/-- The decimals of a Shanghai snapshot. -/
theorem shanghaiSnapshot_exact {body : List UInt8} (common : CanonicalCommon)
    (hfits : ∀ d ∈ (shanghaiSnapshotValues body).decimals body, d.Fits) :
    let snapshot := (shanghaiSnapshotValues body).canonical common
    DecimalsExact body snapshot.decimals
      ([(⟨32, 14, 3⟩, snapshot.previousClose), (⟨32, 18, 3⟩, snapshot.open_),
        (⟨32, 22, 3⟩, snapshot.high), (⟨32, 26, 3⟩, snapshot.low), (⟨32, 30, 3⟩, snapshot.last),
        (⟨32, 34, 3⟩, snapshot.close), (⟨64, 56, 5⟩, snapshot.turnover),
        (⟨32, 72, 3⟩, snapshot.weightedAverageBid), (⟨32, 88, 3⟩, snapshot.weightedAverageAsk)] ++
        (levelFields body ⟨32, 4, 3⟩ 228 snapshot.bids ++
          levelFields body ⟨32, 4, 3⟩ 236 snapshot.asks)) := by
  intro snapshot
  simp only [ShanghaiSnapshotValues.decimals, List.flatMap_cons, List.flatMap_nil,
    List.forall_mem_append, List.not_mem_nil, false_implies, implies_true, and_true] at hfits
  obtain ⟨⟨hprevious, hopen, hhigh, hlow, hlast, hclose⟩, hturnover, ⟨hbid, hask⟩, hbook⟩ := hfits
  refine DecimalsExact.of_book (shanghaiLevelMeaning body) ?_ ?_
    (shanghaiLevel_loaded body) (fun _ h => priceOf_exact (by decide) h) hbook
  · simp only [List.forall_mem_cons, List.not_mem_nil, false_implies, implies_true, and_true]
    exact ⟨⟨priceOf_loaded _, priceOf_exact (by decide) hprevious⟩,
      ⟨priceOf_loaded _, priceOf_exact (by decide) hopen⟩,
      ⟨priceOf_loaded _, priceOf_exact (by decide) hhigh⟩,
      ⟨priceOf_loaded _, priceOf_exact (by decide) hlow⟩,
      ⟨priceOf_loaded _, priceOf_exact (by decide) hlast⟩,
      ⟨priceOf_loaded _, priceOf_exact (by decide) hclose⟩,
      ⟨inMillionths_loaded _, decimal_exact (by decide) hturnover⟩,
      ⟨priceOf_loaded _, priceOf_exact (by decide) hbid⟩,
      ⟨priceOf_loaded _, priceOf_exact (by decide) hask⟩⟩
  · exact fun d hd => Or.inl hd

/-- The decimals of a Shenzhen snapshot : it has no closing price. -/
theorem shenzhenSnapshot_exact {body : List UInt8} (common : CanonicalCommon)
    (hfits : ∀ d ∈ (shenzhenSnapshotValues body).decimals body, d.Fits) :
    let snapshot := (shenzhenSnapshotValues body).canonical common
    DecimalsExact body snapshot.decimals
      ([(⟨64, 32, 4⟩, snapshot.previousClose), (⟨64, 56, 4⟩, snapshot.turnover),
        (⟨64, 64, 6⟩, snapshot.last), (⟨64, 72, 6⟩, snapshot.open_), (⟨64, 80, 6⟩, snapshot.high),
        (⟨64, 88, 6⟩, snapshot.low), (⟨64, 152, 6⟩, snapshot.weightedAverageAsk),
        (⟨64, 168, 6⟩, snapshot.weightedAverageBid)] ++
        (levelFields body ⟨64, 8, 6⟩ 208 snapshot.bids ++
          levelFields body ⟨64, 8, 6⟩ 216 snapshot.asks)) := by
  intro snapshot
  simp only [ShenzhenSnapshotValues.decimals, List.flatMap_cons, List.flatMap_nil,
    List.forall_mem_append, List.not_mem_nil, false_implies, implies_true, and_true] at hfits
  obtain ⟨hprevious, hturnover, ⟨hlast, hopen, hhigh, hlow, hask, hbid⟩, hbook⟩ := hfits
  refine DecimalsExact.of_book (shenzhenLevelMeaning body) ?_ ?_
    (shenzhenLevel_loaded body) (fun _ h => priceOf_exact (by decide) h) hbook
  · simp only [List.forall_mem_cons, List.not_mem_nil, false_implies, implies_true, and_true]
    exact ⟨⟨priceOf_loaded _, priceOf_exact (by decide) hprevious⟩,
      ⟨inMillionths_loaded _, decimal_exact (by decide) hturnover⟩,
      ⟨priceOf_loaded _, priceOf_exact (by decide) hlast⟩,
      ⟨priceOf_loaded _, priceOf_exact (by decide) hopen⟩,
      ⟨priceOf_loaded _, priceOf_exact (by decide) hhigh⟩,
      ⟨priceOf_loaded _, priceOf_exact (by decide) hlow⟩,
      ⟨priceOf_loaded _, priceOf_exact (by decide) hask⟩,
      ⟨priceOf_loaded _, priceOf_exact (by decide) hbid⟩⟩
  · simp only [List.map_cons, List.map_nil, List.forall_mem_cons, List.not_mem_nil, false_implies,
      implies_true, and_true]
    exact ⟨Or.inl (by simp), Or.inl (by simp), Or.inl (by simp), Or.inl (by simp),
      Or.inl (by simp), Or.inr rfl, Or.inl (by simp), Or.inl (by simp), Or.inl (by simp)⟩

/-- The decimals of the snapshot that a message stands for. -/
theorem snapshotOf_exact {message : OwnedMessageView}
    (hfits : ∀ d ∈ snapshotDecimals message, d.Fits)
    (hclass : classifyMessage message.header.key = .kShanghaiSnapshot ∨
      classifyMessage message.header.key = .kShenzhenSnapshot)
    (tradeDate : ℕ) (quality : Flags) :
    let snapshot := snapshotOf message tradeDate quality
    DecimalsExact message.body snapshot.decimals (snapshotFields message snapshot) := by
  unfold snapshotDecimals at hfits
  unfold snapshotOf snapshotFields
  rcases hclass with hclass | hclass
  · rw [hclass] at hfits ⊢
    exact shanghaiSnapshot_exact _ hfits
  · rw [hclass] at hfits ⊢
    exact shenzhenSnapshot_exact _ hfits

/-! ## Exact or refused -/

/-- The product of `NormalizeP6` is computed only where it fits in 64 bits. -/
theorem normalizeP6_eq (value : FixedDecimal) (s : Scan) :
    normalizeP6 value s =
      if 6 < value.sourceScale then .error .kFixedPointOverflow s
      else if value.rawValid = false then .ok value s
      else if Fits value.sourceScale value.raw then
        .ok { value with p6 := value.raw * 10 ^ (6 - value.sourceScale), p6Valid := true } s
      else .error .kFixedPointOverflow s := by
  rw [normalizeP6]
  by_cases hscale : 6 < value.sourceScale
  · rw [if_pos hscale, bind_error (require_error (not_le.2 hscale) s)]
  rw [if_neg hscale, bind_ok (require_ok (not_lt.1 hscale) s)]
  split_ifs with hvalid hfits
  · rfl
  · rw [bind_ok (require_ok (fits_iff_check.1 hfits) s)]
    rfl
  · rw [bind_error (require_error (fun h => hfits (fits_iff_check.2 h)) s)]

/-- Every decimal of a record that is decoded has the number of its field, its null value, and
the exact product; a record with a decimal whose product does not fit is refused, and only such
a record is refused for an overflow. -/
theorem p6_exact (grows : ℕ → Bool) (message : OwnedMessageView) (tradeDate : ℕ)
    (limits : DecoderLimits) (catalog : InstrumentCatalog) :
    (∀ (value : FixedDecimal) (s : Scan), normalizeP6 value s =
      if 6 < value.sourceScale then .error .kFixedPointOverflow s
      else if value.rawValid = false then .ok value s
      else if Fits value.sourceScale value.raw then
        .ok { value with p6 := value.raw * 10 ^ (6 - value.sourceScale), p6Valid := true } s
      else .error .kFixedPointOverflow s) ∧
    Ends (decodeTick grows message tradeDate limits catalog)
      (fun result _ =>
        DecimalsExact message.body result.tick.decimals (tickFields message result.tick) ∧
          ∀ d ∈ tickDecimals message, d.Fits)
      (fun e _ => e = .kFixedPointOverflow → ∃ d ∈ tickDecimals message, ¬d.Fits) ∧
    Ends (decodeSnapshot grows message tradeDate limits catalog)
      (fun result _ =>
        DecimalsExact message.body result.snapshot.decimals
            (snapshotFields message result.snapshot) ∧
          ∀ d ∈ snapshotDecimals message, d.Fits)
      (fun e _ => e = .kFixedPointOverflow → ∃ d ∈ snapshotDecimals message, ¬d.Fits) := by
  refine ⟨normalizeP6_eq, ?_, ?_⟩
  · have hends := decodeTick_gives grows message tradeDate limits catalog
    rcases hrun : decodeTick grows message tradeDate limits catalog with ⟨result, s⟩ | ⟨e, s⟩
    · rw [hrun] at hends
      obtain ⟨rfl, hfits⟩ := hends
      exact ⟨tickOf_exact hfits (decodeTick_class hrun) _ _, hfits⟩
    · rw [hrun] at hends
      exact hends
  · have hends := decodeSnapshot_gives grows message tradeDate limits catalog
    rcases hrun : decodeSnapshot grows message tradeDate limits catalog with ⟨result, s⟩ | ⟨e, s⟩
    · rw [hrun] at hends
      obtain ⟨rfl, hfits⟩ := hends
      exact ⟨snapshotOf_exact hfits (decodeSnapshot_class hrun) _ _, hfits⟩
    · rw [hrun] at hends
      exact hends

end L2Flow
