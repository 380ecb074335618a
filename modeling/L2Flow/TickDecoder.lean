import L2Flow.Fields

/-!
# Decoding ticks

`DecodeTick` and the three tick layouts : `NGTSTick` of Shanghai, `Order300192_v2` and
`Transaction300191_v2` of Shenzhen. Each reads its fields in the order of the source
(`readShanghaiTick` and its two siblings); the catalog is applied to the record last
(`applyTickCatalog`).
-/

namespace L2Flow

/-! ## Enumerations of the wire -/

/-- The bytes of an ASCII literal of the source. -/
def ascii (text : String) : List UInt8 :=
  text.toList.map fun character => UInt8.ofNat character.toNat

/-- `ParseShPhase`. -/
def parseShPhase (value : List UInt8) : TradingPhase :=
  if value = ascii "START" then .kStart
  else if value = ascii "OCALL" then .kOpeningCall
  else if value = ascii "TRADE" then .kContinuous
  else if value = ascii "SUSP" then .kSuspended
  else if value = ascii "CCALL" then .kClosingCall
  else if value = ascii "CLOSE" then .kClosed
  else if value = ascii "ENDTR" then .kEnded
  else .kUnknown

/-- `DecodeSzSide`. -/
def decodeSzSide (raw : ℤ) : Side :=
  if raw = 49 then .kBuy
  else if raw = 50 then .kSell
  else if raw = 71 then .kBorrow
  else if raw = 70 then .kLend
  else .kUnknown

/-- `DecodeSzOrderType`. -/
def decodeSzOrderType (raw : ℤ) : OrderType :=
  if raw = 49 then .kMarket
  else if raw = 50 then .kLimit
  else if raw = 85 then .kSameSideBest
  else .kUnknown

/-- The code of a text of one byte, and 0 for a longer one. -/
def codeOf (text : List UInt8) : ℤ :=
  match text with
  | [octet] => octet.toNat
  | _ => 0

/-! ## Steps the layouts share -/

def markIf (condition : Prop) [Decidable condition] (flags : Flags) : Decoder Unit :=
  if condition then mark flags else return

def flagIf (condition : Prop) [Decidable condition] (flags : Flags) : Flags :=
  if condition then flags else 0

/-- A positive price is normalised, any other that is not null is marked. -/
def normalizePrice (price : FixedDecimal) : Decoder FixedDecimal :=
  if price.rawValid = true ∧ 0 < price.raw then normalizeP6 price
  else do
    markIf (price.rawValid = true) kQualityInvalidPrice
    return price

/-- `publish_order_ids`. -/
def orderIdValidity (tick : CanonicalTick) : Flags :=
  flagIf (0 < tick.buyOrderId) kTickBuyOrderIdValid |||
    flagIf (0 < tick.sellOrderId) kTickSellOrderIdValid

/-- `ApplyCatalog` on a tick that has been read. -/
def applyTickCatalog (catalog : InstrumentCatalog) (tick : CanonicalTick) : TickDecodeResult :=
  let applied := applyCatalog catalog tick.common
  { tick := { tick with common := applied.2 }, catalogMatch := applied.1 }

/-- The tick as read, with the quality that was marked. -/
def withQuality (tick : CanonicalTick) : Decoder CanonicalTick := do
  let s ← get
  return { tick with common := { tick.common with qualityFlags := s.quality } }

/-! ## Shanghai -/

/-- `sizeof(sh::NGTSTick)`. -/
def kShanghaiTickBytes : ℕ := 70

/-- `set_order_side`. -/
def setOrderSide (flag : List UInt8) (tick : CanonicalTick) : Decoder CanonicalTick := do
  if flag = ascii "B" then
    return { tick with
      side := .kBuy
      primaryOrderId := tick.buyOrderId
      validity := tick.validity ||| kTickSideValid |||
        flagIf (0 < tick.buyOrderId) kTickPrimaryOrderIdValid }
  else if flag = ascii "S" then
    return { tick with
      side := .kSell
      primaryOrderId := tick.sellOrderId
      validity := tick.validity ||| kTickSideValid |||
        flagIf (0 < tick.sellOrderId) kTickPrimaryOrderIdValid }
  else
    mark kQualityUnknownEnum
    return tick

/-- A record of type `A`. Its amount is the quantity matched, in thousandths. -/
def shanghaiAdd (flag : List UInt8) (tick : CanonicalTick) : Decoder CanonicalTick := do
  let price ← normalizePrice tick.price
  let tick := { tick with
    action := .kAdd
    price := price
    validity := tick.validity ||| flagIf (price.p6Valid = true) kTickPriceValid |||
      flagIf (tick.quantity.valid = true) kTickQuantityValid }
  let tick ← setOrderSide flag tick
  if tick.amount.rawValid = true ∧ 0 ≤ tick.amount.raw ∧ tick.amount.raw.tmod 1000 = 0 then
    return { tick with
      shAddMatchedQuantityRaw := tick.amount.raw.tdiv 1000
      validity := tick.validity ||| kTickMatchedQuantityValid
      amount := { tick.amount with p6Valid := false } }
  else
    markIf (tick.amount.rawValid = true ∧ tick.amount.raw < 0) kQualityInvalidQuantity
    markIf (tick.amount.rawValid = true ∧ ¬tick.amount.raw < 0) kQualityNonIntegralMatchedQuantity
    return { tick with amount := { tick.amount with p6Valid := false } }

/-- A record of type `D`. -/
def shanghaiCancel (flag : List UInt8) (tick : CanonicalTick) : Decoder CanonicalTick :=
  setOrderSide flag { tick with
    action := .kCancel
    validity := tick.validity ||| flagIf (tick.quantity.valid = true) kTickQuantityValid }

/-- The aggressor of a Shanghai trade. -/
def aggressorOf (flag : List UInt8) : Aggressor :=
  if flag = ascii "B" then .kBuy
  else if flag = ascii "S" then .kSell
  else if flag = ascii "N" then .kNeutral
  else .kUnknown

/-- An amount that is not negative is normalised, any other that is not null is marked. -/
def normalizeAmount (amount : FixedDecimal) : Decoder FixedDecimal :=
  if amount.rawValid = true ∧ 0 ≤ amount.raw then normalizeP6 amount
  else do
    markIf (amount.rawValid = true) kQualityInvalidAmount
    return amount

/-- A record of type `T`. -/
def shanghaiTrade (flag : List UInt8) (tick : CanonicalTick) : Decoder CanonicalTick := do
  let price ← normalizePrice tick.price
  let amount ← normalizeAmount tick.amount
  let aggressor := aggressorOf flag
  markIf (aggressor = .kUnknown) kQualityUnknownEnum
  return { tick with
    action := .kTrade
    price := price
    amount := amount
    aggressor := aggressor
    validity := tick.validity ||| flagIf (price.p6Valid = true) kTickPriceValid |||
      flagIf (tick.quantity.valid = true) kTickQuantityValid |||
      flagIf (amount.p6Valid = true) kTickAmountValid ||| orderIdValidity tick |||
      flagIf (aggressor ≠ .kUnknown) kTickAggressorValid }

/-- A record of type `S`. -/
def shanghaiStatus (flag : List UInt8) (tick : CanonicalTick) : Decoder CanonicalTick := do
  let phase := parseShPhase flag
  markIf (phase = .kUnknown) kQualityUnknownEnum
  return { tick with
    action := .kStatus
    quantity := { tick.quantity with valid := false }
    phase := phase
    validity := tick.validity ||| flagIf (phase ≠ .kUnknown) kTickPhaseValid }

/-- What the type of a Shanghai record decides. -/
def shanghaiByType (type flag : List UInt8) (tick : CanonicalTick) : Decoder CanonicalTick :=
  if type = ascii "A" then shanghaiAdd flag tick
  else if type = ascii "D" then shanghaiCancel flag tick
  else if type = ascii "T" then shanghaiTrade flag tick
  else if type = ascii "S" then shanghaiStatus flag tick
  else do
    mark kQualityUnknownEnum
    return { tick with quantity := { tick.quantity with valid := false } }

/-- `DecodeShanghaiTick`, up to the catalog. -/
def readShanghaiTick (message : OwnedMessageView) (tradeDate : ℕ) (limits : DecoderLimits) :
    Decoder CanonicalTick := do
  let body := message.body
  require .kTruncated (kShanghaiTickBytes ≤ body.length)
  let common ← initializeCommon message tradeDate .kShanghai .kShanghaiTick
  let common ← readIdentity body .kShanghai kShanghaiTickBytes none 12 none limits common
  let sequence ← loadI64 body 0 .kInvalidNativeSequence
  require .kInvalidNativeSequence (0 < sequence)
  let channel ← loadI32 body 8 .kInvalidNativeSequence
  require .kInvalidNativeSequence (0 < channel)
  let buyOrderId ← loadI64 body 28 .kTruncated
  let sellOrderId ← loadI64 body 36 .kTruncated
  let quantity ← loadI64 body 48 .kTruncated
  markIf (buyOrderId < 0 ∨ sellOrderId < 0) kQualityInvalidOrderReference
  markIf (quantity < 0) kQualityInvalidQuantity
  let exchangeTime ← load body 4 18 .kTruncated
  let time ← decodeTime exchangeTime
  let price ← loadDecimal32Raw body 44 3
  let amount ← loadDecimal64Raw body 56 3
  let type ← readText body 22 kShanghaiTickBytes limits.maximumTextBytes true
  let flag ← readText body 64 kShanghaiTickBytes limits.maximumTextBytes true
  let tick ← shanghaiByType type flag
    { common :=
        withExchangeTime
          { common with nativeSequence := sequence.toNat, channel := channel.toNat }
          exchangeTime time
      price := price
      amount := amount
      quantity := { raw := quantity, scale := 0, valid := decide (0 ≤ quantity) }
      buyOrderId := buyOrderId
      sellOrderId := sellOrderId
      validity := kTickChannelHistoryValid ||| flagIf (time.isSome = true) kTickExchangeTimeValid
      rawType := codeOf type
      rawSide := codeOf flag }
  withQuality tick

/-! ## Shenzhen -/

/-- `sizeof(sz::Order300192_v2)`. -/
def kShenzhenOrderBytes : ℕ := 58

/-- `sizeof(sz::Transaction300191_v2)`. -/
def kShenzhenTransactionBytes : ℕ := 70

/-- Only the price of a limit order is normalised. -/
def normalizeLimit (orderType : OrderType) (price : FixedDecimal) : Decoder FixedDecimal :=
  if orderType = .kLimit then normalizePrice price else return price

/-- `DecodeShenzhenOrder`, up to the catalog. -/
def readShenzhenOrder (message : OwnedMessageView) (tradeDate : ℕ) (limits : DecoderLimits) :
    Decoder CanonicalTick := do
  let body := message.body
  require .kTruncated (kShenzhenOrderBytes ≤ body.length)
  let common ← initializeCommon message tradeDate .kShenzhen .kShenzhenOrder
  let common ← readIdentity body .kShenzhen kShenzhenOrderBytes (some 12) 18 (some 24) limits
    common
  let channel ← load body 4 0 .kInvalidNativeSequence
  let sequence ← loadI64 body 4 .kInvalidNativeSequence
  require .kInvalidNativeSequence (0 < sequence)
  let quantity ← loadI64 body 38 .kTruncated
  let rawSide ← loadI32 body 46 .kTruncated
  let rawType ← loadI32 body 54 .kTruncated
  markIf (quantity < 0) kQualityInvalidQuantity
  let exchangeTime ← load body 4 50 .kTruncated
  let time ← decodeTime exchangeTime
  let price ← loadDecimal64Raw body 30 4
  let side := decodeSzSide rawSide
  markIf (side = .kUnknown) kQualityUnknownEnum
  let orderType := decodeSzOrderType rawType
  markIf (orderType = .kUnknown) kQualityUnknownEnum
  let price ← normalizeLimit orderType price
  withQuality
    { common :=
        withExchangeTime { common with nativeSequence := sequence.toNat, channel := channel }
          exchangeTime time
      price := price
      quantity := { raw := quantity, scale := 0, valid := decide (0 ≤ quantity) }
      primaryOrderId := sequence
      validity := kTickChannelHistoryValid ||| kTickPrimaryOrderIdValid |||
        flagIf (0 ≤ quantity) kTickQuantityValid |||
        flagIf (time.isSome = true) kTickExchangeTimeValid |||
        flagIf (side ≠ .kUnknown) kTickSideValid |||
        flagIf (orderType ≠ .kUnknown) kTickOrderTypeValid |||
        flagIf (orderType = .kLimit ∧ price.p6Valid = true) kTickPriceValid
      rawType := rawType
      rawSide := rawSide
      action := .kAdd
      side := side
      orderType := orderType }

/-- A Shenzhen execution. -/
def shenzhenTrade (tick : CanonicalTick) : Decoder CanonicalTick := do
  let price ← normalizePrice tick.price
  return { tick with
    action := .kTrade
    price := price
    validity := tick.validity ||| orderIdValidity tick |||
      flagIf (price.p6Valid = true) kTickPriceValid |||
      flagIf (tick.quantity.valid = true) kTickQuantityValid }

/-- A Shenzhen cancellation : it names the order on one side. -/
def shenzhenCancel (tick : CanonicalTick) : Decoder CanonicalTick := do
  let tick := { tick with
    action := .kCancel
    validity := tick.validity ||| orderIdValidity tick |||
      flagIf (tick.quantity.valid = true) kTickQuantityValid }
  let hasBid := decide (0 < tick.buyOrderId)
  let hasAsk := decide (0 < tick.sellOrderId)
  if hasBid ≠ hasAsk then
    return { tick with
      primaryOrderId := if hasBid then tick.buyOrderId else tick.sellOrderId
      side := if hasBid then .kBuy else .kSell
      validity := tick.validity ||| (kTickPrimaryOrderIdValid ||| kTickSideValid) }
  else
    mark kQualityAmbiguousOrderReference
    return tick

/-- What the type of a Shenzhen transaction decides. -/
def shenzhenByType (tick : CanonicalTick) : Decoder CanonicalTick :=
  if tick.rawType = 70 then shenzhenTrade tick
  else if tick.rawType = 52 then shenzhenCancel tick
  else do
    mark kQualityUnknownEnum
    return { tick with quantity := { tick.quantity with valid := false } }

/-- `DecodeShenzhenTransaction`, up to the catalog. -/
def readShenzhenTransaction (message : OwnedMessageView) (tradeDate : ℕ)
    (limits : DecoderLimits) : Decoder CanonicalTick := do
  let body := message.body
  require .kTruncated (kShenzhenTransactionBytes ≤ body.length)
  let common ← initializeCommon message tradeDate .kShenzhen .kShenzhenTransaction
  let common ← readIdentity body .kShenzhen kShenzhenTransactionBytes (some 12) 34 (some 40)
    limits common
  let channel ← load body 4 0 .kInvalidNativeSequence
  let sequence ← loadI64 body 4 .kInvalidNativeSequence
  require .kInvalidNativeSequence (0 < sequence)
  let buyOrderId ← loadI64 body 18 .kTruncated
  let sellOrderId ← loadI64 body 26 .kTruncated
  let quantity ← loadI64 body 54 .kTruncated
  let rawType ← loadI32 body 62 .kTruncated
  markIf (buyOrderId < 0 ∨ sellOrderId < 0) kQualityInvalidOrderReference
  markIf (quantity < 0) kQualityInvalidQuantity
  let exchangeTime ← load body 4 66 .kTruncated
  let time ← decodeTime exchangeTime
  let price ← loadDecimal64Raw body 46 4
  let tick ← shenzhenByType
    { common :=
        withExchangeTime { common with nativeSequence := sequence.toNat, channel := channel }
          exchangeTime time
      price := price
      quantity := { raw := quantity, scale := 0, valid := decide (0 ≤ quantity) }
      buyOrderId := buyOrderId
      sellOrderId := sellOrderId
      validity := kTickChannelHistoryValid ||| flagIf (time.isSome = true) kTickExchangeTimeValid
      rawType := rawType }
  withQuality tick

/-! ## The entry -/

/-- The tick of a message, before the catalog is applied. -/
def readTick (message : OwnedMessageView) (tradeDate : ℕ) (limits : DecoderLimits) :
    Decoder CanonicalTick :=
  match classifyMessage message.header.key with
  | .kShanghaiTick => readShanghaiTick message tradeDate limits
  | .kShenzhenOrder => readShenzhenOrder message tradeDate limits
  | .kShenzhenTransaction => readShenzhenTransaction message tradeDate limits
  | _ => throw .kUnsupported

/-- `DynamicRangeScope` : the empty table of a call, with room for so many ranges. -/
def scope (grows : ℕ → Bool) (maximumRanges : ℕ) : Scan where
  protecting := true
  capacity := maximumRanges
  grows := grows

/-- `DecodeTick`. `grows` says for what numbers of ranges the allocator has room. -/
def decodeTick (grows : ℕ → Bool) (message : OwnedMessageView) (tradeDate : ℕ)
    (limits : DecoderLimits) (catalog : InstrumentCatalog) :
    EStateM.Result DecodeError Scan TickDecodeResult :=
  if grows 8 = false then .error .kResourceExhausted {}
  else
    (do
      let tick ← readTick message tradeDate limits
      return applyTickCatalog catalog tick) (scope grows 8)

end L2Flow
