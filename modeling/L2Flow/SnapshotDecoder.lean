import L2Flow.TickDecoder

/-!
# Decoding snapshots

`DecodeSnapshot` and the two snapshot layouts : `SHL2MarketData` of Shanghai and
`Snapshot300111_v2` of Shenzhen. Both end with two lists of book levels (`readBook`); a level
ends with a list of its orders, which is checked but not kept (`readQueue`). All queues of a
snapshot share one limit. The two layouts have their own level heads, scales and item sizes.
-/

namespace L2Flow

/-! ## Levels -/

/-- A difference of two `std::size_t`. -/
def sizeSub (a b : ℕ) : ℕ :=
  (a + 2 ^ 64 - b) % 2 ^ 64

/-- The layout of the orders of a level. -/
structure QueueLayout where
  itemSize : ℕ
  quantityOffset : ℕ
  scale : ℕ
  nullable : Bool

/-- The size of a level item, the same in both layouts. -/
def kLevelItemBytes : ℕ := 28

/-- The orders of a level whose queues so far have `total` items, and the total then. -/
def readQueue (body : List UInt8) (layout : QueueLayout) (fixedBytes : ℕ)
    (limits : DecoderLimits) (levelOffset sourceOrderCount total : ℕ) : Decoder ℕ := do
  let queue ← readList body (levelOffset + 20) layout.itemSize fixedBytes limits.maximumQueueItems
  require .kCountMismatch (queue.count ≤ sourceOrderCount)
  modify fun s => s.subtract total
  require .kCountExceeded (queue.count ≤ sizeSub limits.maximumQueueItems total)
  (List.range queue.count).foldlM
    (fun _ index => do
      let _ignored ← decodeQuantity body
        (queue.start + index * queue.itemSize + layout.quantityOffset) layout.scale layout.nullable
      return ())
    ()
  return total + queue.count

/-- A level of a snapshot : its head, and then its orders. -/
def decodeLevel (body : List UInt8) (layout : QueueLayout) (fixedBytes : ℕ)
    (limits : DecoderLimits) (head : ℕ → Decoder CanonicalBookLevel) (levels : ListView)
    (index total : ℕ) : Decoder (ℕ × CanonicalBookLevel) := do
  let levelOffset := levels.start + index * levels.itemSize
  let level ← head levelOffset
  let total ← readQueue body layout fixedBytes limits levelOffset level.sourceOrderCount total
  return (total, level)

/-- The levels of one side; the first ten are retained. -/
def readSide (decode : ListView → ℕ → ℕ → Decoder (ℕ × CanonicalBookLevel)) (levels : ListView)
    (total : ℕ) : Decoder (ℕ × BookLevels) :=
  (List.range levels.count).foldlM
    (fun state index => do
      let (total, level) ← decode levels index state.1
      return (total, state.2.setIfInBounds index level))
    (total, Vector.replicate _ {})

/-- What is read of the two sides of a book. -/
structure Book where
  bidCount : ℕ
  askCount : ℕ
  bids : BookLevels
  asks : BookLevels

/-- Both sides of the book. -/
def readBook (body : List UInt8) (fixedBytes : ℕ) (limits : DecoderLimits)
    (bidsOffset asksOffset : ℕ)
    (decode : ListView → ℕ → ℕ → Decoder (ℕ × CanonicalBookLevel)) : Decoder Book := do
  let bids ← readList body bidsOffset kLevelItemBytes fixedBytes limits.maximumDepthItems
  let asks ← readList body asksOffset kLevelItemBytes fixedBytes limits.maximumDepthItems
  markIf (kCanonicalBookDepth < bids.count ∨ kCanonicalBookDepth < asks.count)
    kQualityDepthTruncated
  let (total, bidLevels) ← readSide decode bids 0
  let (_, askLevels) ← readSide decode asks total
  return { bidCount := bids.count, askCount := asks.count, bids := bidLevels, asks := askLevels }

def withBook (snapshot : CanonicalSnapshot) (book : Book) : CanonicalSnapshot :=
  { snapshot with
    sourceBidDepth := book.bidCount
    sourceAskDepth := book.askCount
    retainedBidDepth := min book.bidCount kCanonicalBookDepth
    retainedAskDepth := min book.askCount kCanonicalBookDepth
    bids := book.bids
    asks := book.asks }

/-- The snapshot as read, with the quality that was marked. -/
def withSnapshotQuality (snapshot : CanonicalSnapshot) : Decoder CanonicalSnapshot := do
  let s ← get
  return { snapshot with common := { snapshot.common with qualityFlags := s.quality } }

/-! ## Shanghai -/

/-- `sizeof(sh::SHL2MarketData)`. -/
def kShanghaiSnapshotBytes : ℕ := 248

def shanghaiQueue : QueueLayout where
  itemSize := 16
  quantityOffset := 8
  scale := 3
  nullable := true

def shanghaiLevelHead (body : List UInt8) (levelOffset : ℕ) : Decoder CanonicalBookLevel := do
  let price ← decodePrice32 body (levelOffset + 4) 3
  let quantity ← decodeQuantity body (levelOffset + 8) 3 true
  let sourceOrderCount ← load body 4 (levelOffset + 16) .kTruncated
  return { price, quantity, sourceOrderCount, orderCountValid := true }

def validateAndDecodeShLevel (body : List UInt8) (limits : DecoderLimits) (levels : ListView)
    (index total : ℕ) : Decoder (ℕ × CanonicalBookLevel) :=
  decodeLevel body shanghaiQueue kShanghaiSnapshotBytes limits (shanghaiLevelHead body) levels
    index total

/-- `DecodeShanghaiSnapshot`, up to the catalog. -/
def readShanghaiSnapshot (message : OwnedMessageView) (tradeDate : ℕ) (limits : DecoderLimits) :
    Decoder CanonicalSnapshot := do
  let body := message.body
  require .kTruncated (kShanghaiSnapshotBytes ≤ body.length)
  let common ← initializeCommon message tradeDate .kShanghai .kShanghaiSnapshot
  let common ← readIdentity body .kShanghai kShanghaiSnapshotBytes none 4 none limits common
  let status ← readText body 38 kShanghaiSnapshotBytes limits.maximumTextBytes false
  let imageStatus ← loadI32 body 10 .kTruncated
  let exchangeTime ← load body 4 0 .kTruncated
  let time ← decodeTime exchangeTime
  let previousClose ← decodePrice32 body 14 3
  let open_ ← decodePrice32 body 18 3
  let high ← decodePrice32 body 22 3
  let low ← decodePrice32 body 26 3
  let last ← decodePrice32 body 30 3
  let close ← decodePrice32 body 34 3
  let tradeCount ← load body 4 44 .kTruncated
  let volume ← decodeQuantity body 48 3 true
  let turnover ← decodeDecimal64 body 56 5
  let totalBidQuantity ← decodeQuantity body 64 3 true
  let weightedAverageBid ← decodePrice32 body 72 3
  let totalAskQuantity ← decodeQuantity body 80 3 true
  let weightedAverageAsk ← decodePrice32 body 88 3
  let book ← readBook body kShanghaiSnapshotBytes limits 228 236
    (validateAndDecodeShLevel body limits)
  withSnapshotQuality (withBook
    { common := withExchangeTime common exchangeTime time
      previousClose, open_, high, low, last, close, turnover, volume, totalBidQuantity,
      totalAskQuantity, weightedAverageBid, weightedAverageAsk
      tradeCount := tradeCount
      tradeCountValid := true
      imageStatus := imageStatus
      imageStatusValid := true
      instrumentStatusCode := identityBytes status
      instrumentStatusCodeSize := status.length }
    book)

/-! ## Shenzhen -/

/-- `sizeof(sz::Snapshot300111_v2)`. -/
def kShenzhenSnapshotBytes : ℕ := 224

def shenzhenQueue : QueueLayout where
  itemSize := 8
  quantityOffset := 0
  scale := 0
  nullable := false

def shenzhenLevelHead (body : List UInt8) (levelOffset : ℕ) : Decoder CanonicalBookLevel := do
  let quantity ← decodeQuantity body levelOffset 0 false
  let price ← decodePrice64 body (levelOffset + 8) 6
  let sourceOrderCount ← load body 4 (levelOffset + 16) .kTruncated
  return { price, quantity, sourceOrderCount, orderCountValid := true }

def validateAndDecodeSzLevel (body : List UInt8) (limits : DecoderLimits) (levels : ListView)
    (index total : ℕ) : Decoder (ℕ × CanonicalBookLevel) :=
  decodeLevel body shenzhenQueue kShenzhenSnapshotBytes limits (shenzhenLevelHead body) levels
    index total

/-- `DecodeShenzhenSnapshot`, up to the catalog. -/
def readShenzhenSnapshot (message : OwnedMessageView) (tradeDate : ℕ) (limits : DecoderLimits) :
    Decoder CanonicalSnapshot := do
  let body := message.body
  require .kTruncated (kShenzhenSnapshotBytes ≤ body.length)
  let common ← initializeCommon message tradeDate .kShenzhen .kShenzhenSnapshot
  let common ← readIdentity body .kShenzhen kShenzhenSnapshotBytes (some 8) 14 (some 20) limits
    common
  let phase ← readText body 26 kShenzhenSnapshotBytes limits.maximumTextBytes true
  let channel ← load body 4 4 .kTruncated
  let exchangeTime ← load body 4 0 .kTruncated
  let time ← decodeTime exchangeTime
  let tradeCount ← loadI64 body 40 .kTruncated
  markIf (tradeCount < 0) kQualityInvalidQuantity
  let previousClose ← decodePrice64 body 32 4
  let volume ← decodeQuantity body 48 0 false
  let turnover ← decodeDecimal64 body 56 4
  let last ← decodePrice64 body 64 6
  let open_ ← decodePrice64 body 72 6
  let high ← decodePrice64 body 80 6
  let low ← decodePrice64 body 88 6
  let totalAskQuantity ← decodeQuantity body 144 0 false
  let weightedAverageAsk ← decodePrice64 body 152 6
  let totalBidQuantity ← decodeQuantity body 160 0 false
  let weightedAverageBid ← decodePrice64 body 168 6
  let book ← readBook body kShenzhenSnapshotBytes limits 208 216
    (validateAndDecodeSzLevel body limits)
  withSnapshotQuality (withBook
    { common := withExchangeTime { common with channel := channel } exchangeTime time
      previousClose, open_, high, low, last, turnover, volume, totalBidQuantity,
      totalAskQuantity, weightedAverageBid, weightedAverageAsk
      tradeCount := tradeCount.toNat
      tradeCountValid := decide (0 ≤ tradeCount)
      tradingPhaseCode := identityBytes phase
      tradingPhaseCodeSize := phase.length }
    book)

/-! ## The entry -/

/-- The snapshot of a message, before the catalog is applied. -/
def readSnapshot (message : OwnedMessageView) (tradeDate : ℕ) (limits : DecoderLimits) :
    Decoder CanonicalSnapshot :=
  match classifyMessage message.header.key with
  | .kShanghaiSnapshot => readShanghaiSnapshot message tradeDate limits
  | .kShenzhenSnapshot => readShenzhenSnapshot message tradeDate limits
  | _ => throw .kUnsupported

/-- `ApplyCatalog` on a snapshot that has been read. -/
def applySnapshotCatalog (catalog : InstrumentCatalog) (snapshot : CanonicalSnapshot) :
    SnapshotDecodeResult :=
  let applied := applyCatalog catalog snapshot.common
  { snapshot := { snapshot with common := applied.2 }, catalogMatch := applied.1 }

/-- `DecodeSnapshot`. -/
def decodeSnapshot (grows : ℕ → Bool) (message : OwnedMessageView) (tradeDate : ℕ)
    (limits : DecoderLimits) (catalog : InstrumentCatalog) :
    EStateM.Result DecodeError Scan SnapshotDecodeResult :=
  if (sizeMax - 8) / 2 < limits.maximumDepthItems then .error .kResourceExhausted {}
  else if grows (limits.maximumDepthItems * 2 + 8) = false then .error .kResourceExhausted {}
  else
    (do
      let snapshot ← readSnapshot message tradeDate limits
      return applySnapshotCatalog catalog snapshot)
      (scope grows (limits.maximumDepthItems * 2 + 8))

end L2Flow
