import L2Flow.SnapshotRoundTrip
import L2Flow.TickMeaning

/-!
# What a snapshot is made of

The values of a snapshot's body, with all levels and all orders of the book, and what the decoder
gives for them : the canonical record of the values, the quality that they mark, and the decimals
that are normalised, those of the levels that are not retained among them
(`decodeSnapshot_gives`).
-/

namespace L2Flow

open LittleEndian (signed)

variable {body : List UInt8} {fixedBytes : ℕ}

/-! ## Loops -/

/-- What the passes of a loop mark. -/
def marksOver (count : ℕ) (marks : ℕ → Flags) : Flags :=
  (List.range count).foldl (fun flags index => flags ||| marks index) 0

theorem marksOver_succ (count : ℕ) (marks : ℕ → Flags) :
    marksOver (count + 1) marks = marksOver count marks ||| marks count := by
  rw [marksOver, List.range_succ, List.foldl_append]
  rfl

theorem has_marksOver {count : ℕ} {marks : ℕ → Flags} {mask : Flags} :
    Flags.has (marksOver count marks) mask = true ↔
      ∃ index < count, Flags.has (marks index) mask = true := by
  induction count with
  | zero => simp [marksOver, Flags.has]
  | succ count ih =>
    rw [marksOver_succ, Flags.has_or, Bool.or_eq_true, ih]
    constructor
    · rintro (⟨index, hlt, hmark⟩ | hmark)
      · exact ⟨index, Nat.lt_succ_of_lt hlt, hmark⟩
      · exact ⟨count, Nat.lt_succ_self count, hmark⟩
    · rintro ⟨index, hlt, hmark⟩
      rcases Nat.lt_succ_iff_lt_or_eq.1 hlt with hlt | rfl
      · exact Or.inl ⟨index, hlt, hmark⟩
      · exact Or.inr hmark

/-- What the fields of a list mark. -/
def allMarks (marks : ℤ → Flags) (raws : List ℤ) : Flags :=
  raws.foldr (fun raw flags => marks raw ||| flags) 0

theorem has_allMarks {marks : ℤ → Flags} {raws : List ℤ} {mask : Flags} :
    Flags.has (allMarks marks raws) mask = true ↔
      ∃ raw ∈ raws, Flags.has (marks raw) mask = true := by
  induction raws with
  | nil => simp [allMarks, Flags.has]
  | cons raw raws ih =>
    rw [allMarks, List.foldr_cons, ← allMarks, Flags.has_or, Bool.or_eq_true, ih]
    simp only [List.mem_cons, exists_eq_or_imp]

theorem Computes.foldlM {β : Type} {f : β → ℕ → Decoder β} (g : ℕ → β) {marks : ℕ → Flags}
    {decimals : ℕ → List Normalised} :
    ∀ count : ℕ, (∀ index < count,
        Computes (f (g index) index) (g (index + 1)) (marks index) (decimals index)) →
      Computes ((List.range count).foldlM f (g 0)) (g count) (marksOver count marks)
        ((List.range count).flatMap decimals)
  | 0, _ => pure
  | count + 1, hf => by
    rw [List.range_succ, List.foldlM_append, List.flatMap_append, marksOver_succ]
    refine Computes.then (foldlM g count fun index hlt => hf index (Nat.lt_succ_of_lt hlt)) ?_
    rw [List.foldlM_cons, List.flatMap_singleton]
    exact Gives.cast (Computes.then (hf count (Nat.lt_succ_self count)) pure) BitVec.or_zero
      (List.append_nil _)

/-! ## Levels -/

/-- The quantities of the orders of a level. -/
def orderValues (body : List UInt8) (layout : QueueLayout) (levelOffset : ℕ) : List ℤ :=
  (List.range (listCount body (levelOffset + 20))).map fun index =>
    signed 64 (wire body 8
      (listStart body (levelOffset + 20) + index * layout.itemSize + layout.quantityOffset))

/-- What the orders of a level mark. -/
def orderMarks (nullable : Bool) (orders : List ℤ) : Flags :=
  marksOver orders.length fun index => quantityMarks nullable (orders.getD index 0)

theorem length_orderValues (body : List UInt8) (layout : QueueLayout) (levelOffset : ℕ) :
    (orderValues body layout levelOffset).length = listCount body (levelOffset + 20) := by
  rw [orderValues, List.length_map, List.length_range]

/-- The offset of an item of a list that is not empty. -/
theorem listView_start {descriptorOffset itemSize index : ℕ}
    (h : index < listCount body descriptorOffset) :
    (listView body descriptorOffset itemSize).start = listStart body descriptorOffset :=
  if_neg (Nat.ne_zero_of_lt h)

theorem Computes.readQueue (layout : QueueLayout) (fixedBytes : ℕ) (limits : DecoderLimits)
    (levelOffset sourceOrderCount total : ℕ) :
    Computes (readQueue body layout fixedBytes limits levelOffset sourceOrderCount total)
      (total + (orderValues body layout levelOffset).length)
      (orderMarks layout.nullable (orderValues body layout levelOffset)) [] := by
  rw [L2Flow.readQueue, orderMarks, length_orderValues]
  refine next (readList _ _ _ _) (next (require (by decide) _) ?_)
  refine next (silent (f := fun s => s.subtract total) fun _ => rfl) ?_
  refine next (require (by decide) _) ?_
  have hloop : Computes ((List.range (listCount body (levelOffset + 20))).foldlM
      (fun (_ : Unit) index => do
        let _ignored ← L2Flow.decodeQuantity body
          ((listView body (levelOffset + 20) layout.itemSize).start + index * layout.itemSize +
            layout.quantityOffset) layout.scale layout.nullable
        return ()) ()) ()
      (marksOver (listCount body (levelOffset + 20)) fun index =>
        quantityMarks layout.nullable ((orderValues body layout levelOffset).getD index 0))
      ((List.range (listCount body (levelOffset + 20))).flatMap fun _ => []) := by
    refine foldlM (fun _ => ()) _ fun index hindex => ?_
    have horder : (orderValues body layout levelOffset).getD index 0 =
        signed 64 (wire body 8 (listStart body (levelOffset + 20) + index * layout.itemSize +
          layout.quantityOffset)) := by
      rw [List.getD_eq_getElem _ _ (by rwa [length_orderValues])]
      simp only [orderValues, List.getElem_map, List.getElem_range]
    rw [listView_start hindex, horder]
    exact Gives.cast (mark_then (decodeQuantity _ _ _) pure) BitVec.or_zero rfl
  rw [List.flatMap_eq_nil_iff.2 fun _ _ => rfl] at hloop
  exact Gives.cast (mark_then hloop pure) BitVec.or_zero rfl

/-- The values of the levels of a side. -/
def sideValues (values : ℕ → LevelValues) (body : List UInt8) (offset : ℕ) : List LevelValues :=
  (List.range (listCount body offset)).map fun index => values (levelOffset body offset index)

theorem length_sideValues (values : ℕ → LevelValues) (offset : ℕ) :
    (sideValues values body offset).length = listCount body offset := by
  rw [sideValues, List.length_map, List.length_range]

theorem levelAt_sideValues {values : ℕ → LevelValues} {offset index : ℕ}
    (h : index < listCount body offset) :
    levelAt (sideValues values body offset) index = values (levelOffset body offset index) := by
  rw [levelAt, List.getD_eq_getElem _ _ (by rwa [length_sideValues])]
  simp only [sideValues, List.getElem_map, List.getElem_range]

/-- How the layout of a market reads a level : the values at an offset, the record they give,
what they mark, and what is normalised. -/
structure LevelMeaning where
  values : ℕ → LevelValues
  levelOf : LevelValues → CanonicalBookLevel
  marks : LevelValues → Flags
  decimals : LevelValues → List Normalised

/-- The head and the orders of a level are read so. -/
structure LevelMeaning.Holds (meaning : LevelMeaning) (body : List UInt8) (layout : QueueLayout)
    (head : ℕ → Decoder CanonicalBookLevel) : Prop where
  head : ∀ at_, Computes (head at_) (meaning.levelOf (meaning.values at_))
    (meaning.marks (meaning.values at_)) (meaning.decimals (meaning.values at_))
  orders : ∀ at_, (meaning.values at_).orders = orderValues body layout at_

namespace LevelMeaning

variable (meaning : LevelMeaning)

/-- What a level marks, with its orders. -/
def levelMarks (nullable : Bool) (v : LevelValues) : Flags :=
  meaning.marks v ||| orderMarks nullable v.orders

/-- What the levels of a side mark. -/
def sideMarks (nullable : Bool) (levels : List LevelValues) : Flags :=
  marksOver levels.length fun index => meaning.levelMarks nullable (levelAt levels index)

def sideDecimals (levels : List LevelValues) : List Normalised :=
  (List.range levels.length).flatMap fun index => meaning.decimals (levelAt levels index)

end LevelMeaning

section Side

variable {meaning : LevelMeaning} {layout : QueueLayout} {head : ℕ → Decoder CanonicalBookLevel}

theorem Computes.decodeLevel (h : meaning.Holds body layout head) (limits : DecoderLimits)
    {offset index total : ℕ} (hindex : index < listCount body offset) :
    Computes
      (decodeLevel body layout fixedBytes limits head (listView body offset kLevelItemBytes) index
        total)
      (total + (orderValues body layout (levelOffset body offset index)).length,
        meaning.levelOf (meaning.values (levelOffset body offset index)))
      (meaning.marks (meaning.values (levelOffset body offset index)) |||
        orderMarks layout.nullable (orderValues body layout (levelOffset body offset index)))
      (meaning.decimals (meaning.values (levelOffset body offset index))) := by
  rw [L2Flow.decodeLevel, listView_start hindex]
  exact Gives.cast (Computes.then (h.head _) (mark_then (readQueue _ _ _ _ _ _) pure))
    (congrArg (_ ||| ·) BitVec.or_zero) (List.append_nil _)

theorem Computes.readSide (h : meaning.Holds body layout head) (limits : DecoderLimits)
    (offset total : ℕ) :
    Computes (readSide (L2Flow.decodeLevel body layout fixedBytes limits head)
        (listView body offset kLevelItemBytes) total)
      (total + orderCount (sideValues meaning.values body offset),
        retainedLevels meaning.levelOf (sideValues meaning.values body offset))
      (meaning.sideMarks layout.nullable (sideValues meaning.values body offset))
      (meaning.sideDecimals (sideValues meaning.values body offset)) := by
  have hlength : (sideValues meaning.values body offset).length = listCount body offset :=
    length_sideValues meaning.values offset
  rw [L2Flow.readSide, LevelMeaning.sideMarks, LevelMeaning.sideDecimals, hlength]
  -- the state after some passes is that of the levels read so far
  let state : ℕ → ℕ × BookLevels := fun index =>
    (total + orderCount ((sideValues meaning.values body offset).take index),
      retainedLevels meaning.levelOf ((sideValues meaning.values body offset).take index))
  have hfirst : state 0 = (total, Vector.replicate _ {}) := by
    show (_, _) = _
    rw [List.take_zero, retainedLevels_nil]
    rfl
  have hlast : state (listCount body offset) =
      (total + orderCount (sideValues meaning.values body offset),
        retainedLevels meaning.levelOf (sideValues meaning.values body offset)) := by
    show (_, _) = _
    rw [← hlength, List.take_length]
  rw [← hlast, ← hfirst]
  refine foldlM state _ fun index hindex => ?_
  have hlevel : levelAt (sideValues meaning.values body offset) index =
      meaning.values (levelOffset body offset index) := levelAt_sideValues hindex
  have hnext : state (index + 1) =
      ((state index).1 + (orderValues body layout (levelOffset body offset index)).length,
        (state index).2.setIfInBounds index
          (meaning.levelOf (meaning.values (levelOffset body offset index)))) := by
    have hlt : index < (sideValues meaning.values body offset).length := by rwa [hlength]
    show (_, _) = (_, _)
    rw [orderCount_take_succ hlt, ← retainedLevels_take_succ hlt, hlevel, ← h.orders,
      Nat.add_assoc]
  rw [hnext, hlevel, LevelMeaning.levelMarks, h.orders]
  exact Gives.cast (Computes.then (decodeLevel h limits hindex) pure) BitVec.or_zero
    (List.append_nil _)

/-- The values of both sides. -/
def bookValues (values : ℕ → LevelValues) (body : List UInt8) (bidsOffset asksOffset : ℕ) :
    BookValues where
  bids := sideValues values body bidsOffset
  asks := sideValues values body asksOffset

/-- What the book marks. -/
def LevelMeaning.bookMarks (meaning : LevelMeaning) (nullable : Bool) (v : BookValues) : Flags :=
  flagIf (kCanonicalBookDepth < v.bids.length ∨ kCanonicalBookDepth < v.asks.length)
      kQualityDepthTruncated |||
    (meaning.sideMarks nullable v.bids ||| meaning.sideMarks nullable v.asks)

def LevelMeaning.bookDecimals (meaning : LevelMeaning) (v : BookValues) : List Normalised :=
  meaning.sideDecimals v.bids ++ meaning.sideDecimals v.asks

theorem Computes.readBook (h : meaning.Holds body layout head) (limits : DecoderLimits)
    (bidsOffset asksOffset : ℕ) :
    Computes
      (readBook body fixedBytes limits bidsOffset asksOffset
        (L2Flow.decodeLevel body layout fixedBytes limits head))
      (bookOf meaning.levelOf (bookValues meaning.values body bidsOffset asksOffset))
      (meaning.bookMarks layout.nullable (bookValues meaning.values body bidsOffset asksOffset))
      (meaning.bookDecimals (bookValues meaning.values body bidsOffset asksOffset)) := by
  have hbids : (sideValues meaning.values body bidsOffset).length = listCount body bidsOffset :=
    length_sideValues meaning.values bidsOffset
  have hasks : (sideValues meaning.values body asksOffset).length = listCount body asksOffset :=
    length_sideValues meaning.values asksOffset
  rw [L2Flow.readBook, LevelMeaning.bookMarks, LevelMeaning.bookDecimals, bookOf, bookValues, hbids,
    hasks]
  refine next (readList _ _ _ _) (next (readList _ _ _ _) (mark_then (markIf _ _) ?_))
  refine Computes.then (readSide h limits bidsOffset 0) ?_
  refine Gives.cast (Computes.then (readSide h limits asksOffset _) pure) BitVec.or_zero
    (List.append_nil _)

end Side

/-! ## Shanghai -/

/-- What a price marks. -/
def priceFieldMarks (null raw : ℤ) : Flags :=
  nullMarks null raw ||| priceMarks null raw

def shanghaiLevelMeaning (body : List UInt8) : LevelMeaning where
  values at_ :=
    { price := signed 32 (wire body 4 (at_ + 4))
      quantity := signed 64 (wire body 8 (at_ + 8))
      sourceOrderCount := wire body 4 (at_ + 16)
      orders := orderValues body shanghaiQueue at_ }
  levelOf := shanghaiLevelOf
  marks v := priceFieldMarks kNullI32 v.price ||| quantityMarks true v.quantity
  decimals v := priceDecimals 3 v.price

theorem shanghaiLevel_holds (body : List UInt8) :
    (shanghaiLevelMeaning body).Holds body shanghaiQueue (shanghaiLevelHead body) where
  head at_ := by
    rw [shanghaiLevelHead]
    refine Gives.cast (Computes.then (Computes.decodePrice32 _ (by decide))
      (Computes.mark_then (Computes.decodeQuantity _ _ _)
        (Computes.next (Computes.load (by decide) _ _) Computes.pure)))
      (congrArg (_ ||| ·) BitVec.or_zero) (List.append_nil _)
  orders _ := rfl

/-- The values of a body of type `SHL2MarketData`. -/
def shanghaiSnapshotValues (body : List UInt8) : ShanghaiSnapshotValues where
  exchangeTime := wire body 4 0
  security := textBytes body 4
  imageStatus := signed 32 (wire body 4 10)
  previousClose := signed 32 (wire body 4 14)
  open_ := signed 32 (wire body 4 18)
  high := signed 32 (wire body 4 22)
  low := signed 32 (wire body 4 26)
  last := signed 32 (wire body 4 30)
  close := signed 32 (wire body 4 34)
  status := textBytes body 38
  tradeCount := wire body 4 44
  volume := signed 64 (wire body 8 48)
  turnover := signed 64 (wire body 8 56)
  totalBidQuantity := signed 64 (wire body 8 64)
  weightedAverageBid := signed 32 (wire body 4 72)
  totalAskQuantity := signed 64 (wire body 8 80)
  weightedAverageAsk := signed 32 (wire body 4 88)
  book := bookValues (shanghaiLevelMeaning body).values body 228 236

namespace ShanghaiSnapshotValues

variable (v : ShanghaiSnapshotValues)

def prices : List ℤ :=
  [v.previousClose, v.open_, v.high, v.low, v.last, v.close, v.weightedAverageBid,
    v.weightedAverageAsk]

def quantities : List ℤ :=
  [v.volume, v.totalBidQuantity, v.totalAskQuantity]

/-- What the body marks. -/
def marks (body : List UInt8) : Flags :=
  timeMarks v.exchangeTime ||| allMarks (priceFieldMarks kNullI32) v.prices |||
    allMarks (quantityMarks true) v.quantities ||| nullMarks kNullI64 v.turnover |||
    (shanghaiLevelMeaning body).bookMarks true v.book

/-- In the order in which they are read. -/
def decimals (body : List UInt8) : List Normalised :=
  [v.previousClose, v.open_, v.high, v.low, v.last, v.close].flatMap (priceDecimals 3) ++
    (decimalDecimals kNullI64 5 v.turnover ++
      ([v.weightedAverageBid, v.weightedAverageAsk].flatMap (priceDecimals 3) ++
        (shanghaiLevelMeaning body).bookDecimals v.book))

def common (message : OwnedMessageView) (tradeDate : ℕ) : CanonicalCommon :=
  withExchangeTime
    (withIdentity (commonOf message tradeDate .kShanghai .kShanghaiSnapshot) .kShanghai [] []
      v.security)
    v.exchangeTime (timeOf v.exchangeTime)

end ShanghaiSnapshotValues

/-- The quality that is marked at the end goes into the record. -/
theorem withSnapshotQuality_gives {snapshot : CanonicalSnapshot} :
    Gives (withSnapshotQuality snapshot)
      (fun quality =>
        { snapshot with common := { snapshot.common with qualityFlags := quality } }) 0 [] :=
  fun _ => ⟨rfl, BitVec.or_zero.symm, fun _ h => absurd h List.not_mem_nil⟩

/-- `DecodeShanghaiSnapshot`, up to the catalog. -/
theorem readShanghaiSnapshot_gives (message : OwnedMessageView) (tradeDate : ℕ)
    (limits : DecoderLimits) :
    let v := shanghaiSnapshotValues message.body
    Gives (readShanghaiSnapshot message tradeDate limits)
      (fun quality => v.canonical { v.common message tradeDate with qualityFlags := quality })
      (timeMarks message.header.localTimeRaw ||| v.marks message.body)
      (v.decimals message.body) := by
  intro v
  rw [readShanghaiSnapshot]
  refine Gives.cast (Computes.next (Computes.require (by decide) _)
    (Computes.mark_then (Computes.initializeCommon message tradeDate _ _)
    (Computes.next (Computes.readIdentity _ _ _ _ _ limits _)
    (Computes.next (Computes.readText _ _ _ _)
    (Computes.next (Computes.loadI32 (by decide) _)
    (Computes.next (Computes.load (by decide) _ _)
    (Computes.mark_then (Computes.decodeTime _)
    (Computes.then (Computes.decodePrice32 _ (by decide))
    (Computes.then (Computes.decodePrice32 _ (by decide))
    (Computes.then (Computes.decodePrice32 _ (by decide))
    (Computes.then (Computes.decodePrice32 _ (by decide))
    (Computes.then (Computes.decodePrice32 _ (by decide))
    (Computes.then (Computes.decodePrice32 _ (by decide))
    (Computes.next (Computes.load (by decide) _ _)
    (Computes.mark_then (Computes.decodeQuantity _ _ _)
    (Computes.then (Computes.decodeDecimal64 _ (by decide))
    (Computes.mark_then (Computes.decodeQuantity _ _ _)
    (Computes.then (Computes.decodePrice32 _ (by decide))
    (Computes.mark_then (Computes.decodeQuantity _ _ _)
    (Computes.then (Computes.decodePrice32 _ (by decide))
    (Computes.then (Computes.readBook (shanghaiLevel_holds _) limits 228 236)
    withSnapshotQuality_gives))))))))))))))))))))) ?_ ?_
  · simp only [v, shanghaiSnapshotValues, ShanghaiSnapshotValues.marks, allMarks,
      ShanghaiSnapshotValues.prices, ShanghaiSnapshotValues.quantities, priceFieldMarks,
      List.foldr_cons, List.foldr_nil, shanghaiQueue]
    ac_rfl
  · simp only [v, shanghaiSnapshotValues, ShanghaiSnapshotValues.decimals, List.flatMap_cons,
      List.flatMap_nil, List.append_assoc, List.append_nil]

/-! ## Shenzhen -/

def shenzhenLevelMeaning (body : List UInt8) : LevelMeaning where
  values at_ :=
    { price := signed 64 (wire body 8 (at_ + 8))
      quantity := signed 64 (wire body 8 at_)
      sourceOrderCount := wire body 4 (at_ + 16)
      orders := orderValues body shenzhenQueue at_ }
  levelOf := shenzhenLevelOf
  marks v := quantityMarks false v.quantity ||| priceFieldMarks kNullI64 v.price
  decimals v := priceDecimals 6 v.price

theorem shenzhenLevel_holds (body : List UInt8) :
    (shenzhenLevelMeaning body).Holds body shenzhenQueue (shenzhenLevelHead body) where
  head at_ := by
    rw [shenzhenLevelHead]
    refine Gives.cast (Computes.mark_then (Computes.decodeQuantity _ _ _)
      (Computes.then (Computes.decodePrice64 _ (by decide))
        (Computes.next (Computes.load (by decide) _ _) Computes.pure)))
      (congrArg (_ ||| ·) BitVec.or_zero) (List.append_nil _)
  orders _ := rfl

/-- The values of a body of type `Snapshot300111_v2`. -/
def shenzhenSnapshotValues (body : List UInt8) : ShenzhenSnapshotValues where
  exchangeTime := wire body 4 0
  channel := wire body 4 4
  stream := textBytes body 8
  security := textBytes body 14
  source := textBytes body 20
  phase := textBytes body 26
  previousClose := signed 64 (wire body 8 32)
  tradeCount := signed 64 (wire body 8 40)
  volume := signed 64 (wire body 8 48)
  turnover := signed 64 (wire body 8 56)
  last := signed 64 (wire body 8 64)
  open_ := signed 64 (wire body 8 72)
  high := signed 64 (wire body 8 80)
  low := signed 64 (wire body 8 88)
  totalAskQuantity := signed 64 (wire body 8 144)
  weightedAverageAsk := signed 64 (wire body 8 152)
  totalBidQuantity := signed 64 (wire body 8 160)
  weightedAverageBid := signed 64 (wire body 8 168)
  book := bookValues (shenzhenLevelMeaning body).values body 208 216

namespace ShenzhenSnapshotValues

variable (v : ShenzhenSnapshotValues)

def prices : List ℤ :=
  [v.previousClose, v.last, v.open_, v.high, v.low, v.weightedAverageAsk, v.weightedAverageBid]

/-- The number of trades is treated as a quantity. -/
def quantities : List ℤ :=
  [v.tradeCount, v.volume, v.totalAskQuantity, v.totalBidQuantity]

/-- What the body marks. -/
def marks (body : List UInt8) : Flags :=
  timeMarks v.exchangeTime ||| allMarks (priceFieldMarks kNullI64) v.prices |||
    allMarks (quantityMarks false) v.quantities ||| nullMarks kNullI64 v.turnover |||
    (shenzhenLevelMeaning body).bookMarks false v.book

/-- In the order in which they are read. -/
def decimals (body : List UInt8) : List Normalised :=
  priceDecimals 4 v.previousClose ++ (decimalDecimals kNullI64 4 v.turnover ++
    ([v.last, v.open_, v.high, v.low, v.weightedAverageAsk, v.weightedAverageBid].flatMap
      (priceDecimals 6) ++ (shenzhenLevelMeaning body).bookDecimals v.book))

def common (message : OwnedMessageView) (tradeDate : ℕ) : CanonicalCommon :=
  withExchangeTime
    { withIdentity (commonOf message tradeDate .kShenzhen .kShenzhenSnapshot) .kShenzhen v.stream
        v.source v.security with
      channel := v.channel }
    v.exchangeTime (timeOf v.exchangeTime)

end ShenzhenSnapshotValues

/-- `DecodeShenzhenSnapshot`, up to the catalog. -/
theorem readShenzhenSnapshot_gives (message : OwnedMessageView) (tradeDate : ℕ)
    (limits : DecoderLimits) :
    let v := shenzhenSnapshotValues message.body
    Gives (readShenzhenSnapshot message tradeDate limits)
      (fun quality => v.canonical { v.common message tradeDate with qualityFlags := quality })
      (timeMarks message.header.localTimeRaw ||| v.marks message.body)
      (v.decimals message.body) := by
  intro v
  rw [readShenzhenSnapshot]
  refine Gives.cast (Computes.next (Computes.require (by decide) _)
    (Computes.mark_then (Computes.initializeCommon message tradeDate _ _)
    (Computes.next (Computes.readIdentity _ _ _ _ _ limits _)
    (Computes.next (Computes.readText _ _ _ _)
    (Computes.next (Computes.load (by decide) _ _)
    (Computes.next (Computes.load (by decide) _ _)
    (Computes.mark_then (Computes.decodeTime _)
    (Computes.next (Computes.loadI64 (by decide) _)
    (Computes.mark_then (Computes.markIf _ _)
    (Computes.then (Computes.decodePrice64 _ (by decide))
    (Computes.mark_then (Computes.decodeQuantity _ _ _)
    (Computes.then (Computes.decodeDecimal64 _ (by decide))
    (Computes.then (Computes.decodePrice64 _ (by decide))
    (Computes.then (Computes.decodePrice64 _ (by decide))
    (Computes.then (Computes.decodePrice64 _ (by decide))
    (Computes.then (Computes.decodePrice64 _ (by decide))
    (Computes.mark_then (Computes.decodeQuantity _ _ _)
    (Computes.then (Computes.decodePrice64 _ (by decide))
    (Computes.mark_then (Computes.decodeQuantity _ _ _)
    (Computes.then (Computes.decodePrice64 _ (by decide))
    (Computes.then (Computes.readBook (shenzhenLevel_holds _) limits 208 216)
    withSnapshotQuality_gives))))))))))))))))))))) ?_ ?_
  · have hcount : flagIf (signed 64 (wire message.body 8 40) < 0) kQualityInvalidQuantity =
        quantityMarks false (signed 64 (wire message.body 8 40)) := by
      rw [quantityMarks, if_neg (by simp)]
    simp only [v, shenzhenSnapshotValues, ShenzhenSnapshotValues.marks, allMarks,
      ShenzhenSnapshotValues.prices, ShenzhenSnapshotValues.quantities, priceFieldMarks,
      List.foldr_cons, List.foldr_nil, shenzhenQueue, hcount]
    ac_rfl
  · simp only [v, shenzhenSnapshotValues, ShenzhenSnapshotValues.decimals, List.flatMap_cons,
      List.flatMap_nil, List.append_assoc, List.append_nil]

/-! ## The entry -/

/-- The snapshot of a message, for the quality of its common part. -/
def snapshotOf (message : OwnedMessageView) (tradeDate : ℕ) (quality : Flags) :
    CanonicalSnapshot :=
  match classifyMessage message.header.key with
  | .kShenzhenSnapshot =>
    let v := shenzhenSnapshotValues message.body
    v.canonical { v.common message tradeDate with qualityFlags := quality }
  | _ =>
    let v := shanghaiSnapshotValues message.body
    v.canonical { v.common message tradeDate with qualityFlags := quality }

/-- What the body of a message marks. -/
def snapshotMarks (message : OwnedMessageView) : Flags :=
  match classifyMessage message.header.key with
  | .kShenzhenSnapshot => (shenzhenSnapshotValues message.body).marks message.body
  | _ => (shanghaiSnapshotValues message.body).marks message.body

/-- The decimals of a message that are normalised. -/
def snapshotDecimals (message : OwnedMessageView) : List Normalised :=
  match classifyMessage message.header.key with
  | .kShanghaiSnapshot => (shanghaiSnapshotValues message.body).decimals message.body
  | .kShenzhenSnapshot => (shenzhenSnapshotValues message.body).decimals message.body
  | _ => []

theorem readSnapshot_gives (message : OwnedMessageView) (tradeDate : ℕ) (limits : DecoderLimits) :
    Gives (readSnapshot message tradeDate limits) (snapshotOf message tradeDate)
      (timeMarks message.header.localTimeRaw ||| snapshotMarks message)
      (snapshotDecimals message) := by
  unfold readSnapshot snapshotOf snapshotMarks snapshotDecimals
  rcases classifyMessage message.header.key with - | - | - | - | - | -
  · exact readShanghaiSnapshot_gives message tradeDate limits
  · exact Gives.throw (by decide)
  · exact readShenzhenSnapshot_gives message tradeDate limits
  · exact Gives.throw (by decide)
  · exact Gives.throw (by decide)
  · exact Gives.throw (by decide)

/-- What `DecodeSnapshot` ends with. -/
theorem decodeSnapshot_gives (grows : ℕ → Bool) (message : OwnedMessageView) (tradeDate : ℕ)
    (limits : DecoderLimits) (catalog : InstrumentCatalog) :
    Ends (decodeSnapshot grows message tradeDate limits catalog)
      (fun result _ => result = applySnapshotCatalog catalog (snapshotOf message tradeDate
          (timeMarks message.header.localTimeRaw ||| snapshotMarks message)) ∧
        ∀ decimal ∈ snapshotDecimals message, decimal.Fits)
      (fun e _ => e = .kFixedPointOverflow →
        ∃ decimal ∈ snapshotDecimals message, ¬decimal.Fits) := by
  rw [decodeSnapshot]
  split_ifs
  · exact fun he => by simp at he
  · exact fun he => by simp at he
  · exact (readSnapshot_gives message tradeDate limits).ends (applySnapshotCatalog catalog) _ rfl

theorem decodeSnapshot_class {grows : ℕ → Bool} {message : OwnedMessageView} {tradeDate : ℕ}
    {limits : DecoderLimits} {catalog : InstrumentCatalog} {result : SnapshotDecodeResult}
    {s : Scan} (h : decodeSnapshot grows message tradeDate limits catalog = .ok result s) :
    classifyMessage message.header.key = .kShanghaiSnapshot ∨
      classifyMessage message.header.key = .kShenzhenSnapshot := by
  rw [decodeSnapshot] at h
  split_ifs at h
  rw [readSnapshot] at h
  split at h
  · next hclass => exact Or.inl hclass
  · next hclass => exact Or.inr hclass
  · cases h

end L2Flow
