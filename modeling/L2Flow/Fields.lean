import L2Flow.Catalog
import L2Flow.Reading

/-!
# The fields of a record

The scalar fields the decoders share : decimals with a source scale, quantities, times, the
identity of the instrument and its place in the catalog. A null or invalid value marks the
quality of the record and is kept raw; only a decimal that does not fit in millionths makes
the decoding fail.
-/

namespace L2Flow

def kNullI32 : ℤ := -2 ^ 31

def kNullI64 : ℤ := -2 ^ 63

def kNullTime : ℕ := 1000000000

def int64Max : ℤ := 2 ^ 63 - 1

def int64Min : ℤ := -2 ^ 63

/-! ## Decimals -/

/-- `NormalizeP6`. -/
def normalizeP6 (value : FixedDecimal) : Decoder FixedDecimal := do
  require .kFixedPointOverflow (value.sourceScale ≤ 6)
  if value.rawValid = false then return value
  else
    let multiplier : ℤ := 10 ^ (6 - value.sourceScale)
    require .kFixedPointOverflow (¬(0 < value.raw ∧ int64Max.tdiv multiplier < value.raw ∨
      value.raw < 0 ∧ value.raw < int64Min.tdiv multiplier))
    return { value with p6 := value.raw * multiplier, p6Valid := true }

/-- `LoadDecimal32Raw` and `LoadDecimal64Raw`, by the load and its null value. -/
def loadDecimalRaw (loadRaw : Decoder ℤ) (null : ℤ) (scale : ℕ) : Decoder FixedDecimal := do
  let raw ← loadRaw
  if raw = null then
    mark kQualityNullSourceValue
    return { raw := raw, sourceScale := scale }
  else return { raw := raw, sourceScale := scale, rawValid := true }

def loadDecimal32Raw (body : List UInt8) (offset scale : ℕ) : Decoder FixedDecimal :=
  loadDecimalRaw (loadI32 body offset .kTruncated) kNullI32 scale

def loadDecimal64Raw (body : List UInt8) (offset scale : ℕ) : Decoder FixedDecimal :=
  loadDecimalRaw (loadI64 body offset .kTruncated) kNullI64 scale

/-- `DecodePrice32` and `DecodePrice64`, by the load. -/
def decodePrice (loadRaw : Decoder FixedDecimal) : Decoder FixedDecimal := do
  let value ← loadRaw
  if value.rawValid = false then return value
  else if value.raw ≤ 0 then
    mark kQualityInvalidPrice
    return value
  else normalizeP6 value

def decodePrice32 (body : List UInt8) (offset scale : ℕ) : Decoder FixedDecimal :=
  decodePrice (loadDecimal32Raw body offset scale)

def decodePrice64 (body : List UInt8) (offset scale : ℕ) : Decoder FixedDecimal :=
  decodePrice (loadDecimal64Raw body offset scale)

def decodeDecimal64 (body : List UInt8) (offset scale : ℕ) : Decoder FixedDecimal := do
  let value ← loadDecimal64Raw body offset scale
  normalizeP6 value

/-! ## Quantities and times -/

def decodeQuantity (body : List UInt8) (offset scale : ℕ) (nullable : Bool) :
    Decoder ScaledInteger := do
  let raw ← loadI64 body offset .kTruncated
  if nullable = true ∧ raw = kNullI64 then
    mark kQualityNullSourceValue
    return { raw := raw, scale := scale }
  else if raw < 0 then
    mark kQualityInvalidQuantity
    return { raw := raw, scale := scale }
  else return { raw := raw, scale := scale, valid := true }

/-- `DecodeTime` : the nanoseconds from midnight, or nothing where the source returns
false. -/
def decodeTime (raw : ℕ) : Decoder (Option ℕ) := do
  if raw = kNullTime then
    mark (kQualityNullSourceValue ||| kQualityInvalidTime)
    return none
  else
    let hour := raw / 10000000
    let minute := raw / 100000 % 100
    let second := raw / 1000 % 100
    let millisecond := raw % 1000
    if 24 ≤ hour ∨ 60 ≤ minute ∨ 60 ≤ second then
      mark kQualityInvalidTime
      return none
    else
      return some ((hour * 3600 + minute * 60 + second) * 1000000000 + millisecond * 1000000)

/-! ## The common part -/

/-- `InitializeCommon`. -/
def initializeCommon (message : OwnedMessageView) (tradeDate : ℕ) (market : Market)
    (kind : CanonicalKind) : Decoder CanonicalCommon := do
  let time ← decodeTime message.header.localTimeRaw
  return {
    ingressSequence := message.ingressSequence
    vendorSequenceId := message.header.vendorSequenceId
    receiveMonotonicNs := message.receiveMonotonicNs
    tradeDate := tradeDate
    messageKey := message.header.key
    kind := kind
    identity := { market := market }
    vendorLocalTimeRaw := message.header.localTimeRaw
    vendorLocalTimeValid := time.isSome
    vendorLocalTimeNsFromMidnight := time.getD 0 }

/-- The exchange time of a record. -/
def withExchangeTime (common : CanonicalCommon) (raw : ℕ) (time : Option ℕ) : CanonicalCommon :=
  { common with
    exchangeTimeRaw := raw
    exchangeTimeValid := time.isSome
    exchangeTimeNsFromMidnight := time.getD 0 }

/-- A text that is read only if its descriptor is there. -/
def readOptionalText (body : List UInt8) (descriptorOffset : Option ℕ)
    (fixedBytes maximumBytes : ℕ) : Decoder (List UInt8) :=
  match descriptorOffset with
  | none => return []
  | some offset => readText body offset fixedBytes maximumBytes true

/-- `ReadIdentity`. An offset that the source passes as the maximum of `std::size_t` is
`none` here. -/
def readIdentity (body : List UInt8) (market : Market) (fixedBytes : ℕ)
    (streamOffset : Option ℕ) (securityOffset : ℕ) (sourceOffset : Option ℕ)
    (limits : DecoderLimits) (common : CanonicalCommon) : Decoder CanonicalCommon := do
  let stream ← readOptionalText body streamOffset fixedBytes limits.maximumTextBytes
  let security ← readText body securityOffset fixedBytes limits.maximumTextBytes true
  let source ← readOptionalText body sourceOffset fixedBytes limits.maximumTextBytes
  return { common with
    mdStreamId := identityBytes stream
    mdStreamIdSize := stream.length
    identity :=
      { market := market
        securityId := identityBytes security
        securityIdSize := security.length
        securityIdSource := identityBytes source
        securityIdSourceSize := source.length } }

/-- `ApplyCatalog` : whether the catalog has the identity, and the common part then. -/
def applyCatalog (catalog : InstrumentCatalog) (common : CanonicalCommon) :
    Bool × CanonicalCommon :=
  let identity := common.identity
  match catalog.find identity.market
      (identity.securityIdSource.toList.take identity.securityIdSourceSize)
      (identity.securityId.toList.take identity.securityIdSize) with
  | none =>
    (false, { common with qualityFlags := common.qualityFlags ||| kQualityInstrumentNotInCatalog })
  | some found =>
    (true,
      { common with instrumentId := found.instrumentId, instrumentOrdinal := found.ordinal })

/-! ## What reading a field does -/

namespace Decodes

variable {body : List UInt8} {fixedBytes maximumQueueItems : ℕ}

theorem normalizeP6 (value : FixedDecimal) :
    Decodes body fixedBytes maximumQueueItems (normalizeP6 value) [] fun _ => True := by
  rw [L2Flow.normalizeP6]
  refine (require (by decide) _).next fun _ _ => ite (fun _ => pure trivial) fun _ => ?_
  exact (require (by decide) _).next fun _ _ => pure trivial

theorem loadDecimalRaw {loadRaw : Decoder ℤ} {post : ℤ → Prop}
    (h : Decodes body fixedBytes maximumQueueItems loadRaw [] post) (null : ℤ) (scale : ℕ) :
    Decodes body fixedBytes maximumQueueItems (loadDecimalRaw loadRaw null scale) []
      fun _ => True := by
  rw [L2Flow.loadDecimalRaw]
  refine h.next fun _ _ => ite (fun _ => ?_) fun _ => pure trivial
  exact (mark _).next fun _ _ => pure trivial

theorem loadDecimal32Raw {offset : ℕ} (h : offset + 4 ≤ body.length) (scale : ℕ) :
    Decodes body fixedBytes maximumQueueItems (loadDecimal32Raw body offset scale) []
      fun _ => True :=
  loadDecimalRaw (loadI32 h _) _ _

theorem loadDecimal64Raw {offset : ℕ} (h : offset + 8 ≤ body.length) (scale : ℕ) :
    Decodes body fixedBytes maximumQueueItems (loadDecimal64Raw body offset scale) []
      fun _ => True :=
  loadDecimalRaw (loadI64 h _) _ _

theorem decodePrice {loadRaw : Decoder FixedDecimal}
    (h : Decodes body fixedBytes maximumQueueItems loadRaw [] fun _ => True) :
    Decodes body fixedBytes maximumQueueItems (decodePrice loadRaw) [] fun _ => True := by
  rw [L2Flow.decodePrice]
  refine h.next fun _ _ => ite (fun _ => pure trivial) fun _ => ite (fun _ => ?_) fun _ => ?_
  · exact (mark _).next fun _ _ => pure trivial
  · exact normalizeP6 _

theorem decodePrice32 {offset : ℕ} (h : offset + 4 ≤ body.length) (scale : ℕ) :
    Decodes body fixedBytes maximumQueueItems (decodePrice32 body offset scale) [] fun _ => True :=
  decodePrice (loadDecimal32Raw h scale)

theorem decodePrice64 {offset : ℕ} (h : offset + 8 ≤ body.length) (scale : ℕ) :
    Decodes body fixedBytes maximumQueueItems (decodePrice64 body offset scale) [] fun _ => True :=
  decodePrice (loadDecimal64Raw h scale)

theorem decodeDecimal64 {offset : ℕ} (h : offset + 8 ≤ body.length) (scale : ℕ) :
    Decodes body fixedBytes maximumQueueItems (decodeDecimal64 body offset scale) []
      fun _ => True :=
  (loadDecimal64Raw h scale).next fun _ _ => normalizeP6 _

theorem decodeQuantity {offset : ℕ} (h : offset + 8 ≤ body.length) (scale : ℕ)
    (nullable : Bool) :
    Decodes body fixedBytes maximumQueueItems (decodeQuantity body offset scale nullable) []
      fun _ => True := by
  rw [L2Flow.decodeQuantity]
  refine (loadI64 h _).next fun _ _ => ite (fun _ => ?_) fun _ => ite (fun _ => ?_) fun _ => ?_
  · exact (mark _).next fun _ _ => pure trivial
  · exact (mark _).next fun _ _ => pure trivial
  · exact pure trivial

theorem decodeTime (raw : ℕ) :
    Decodes body fixedBytes maximumQueueItems (decodeTime raw) [] fun _ => True := by
  rw [L2Flow.decodeTime]
  refine ite (fun _ => ?_) fun _ => ite (fun _ => ?_) fun _ => pure trivial
  · exact (mark _).next fun _ _ => pure trivial
  · exact (mark _).next fun _ _ => pure trivial

end Decodes

end L2Flow
