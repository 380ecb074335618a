import L2Flow.TwoCatalogs
import L2Flow.Validity

/-!
# What a duplicate repeats

`CanonicalPayloadEqual` compares some of the fields of two ticks. The other fields that come from
the body are functions of these, so that a duplicate that is dropped repeats the record that is
kept, except for one field : the MD stream, which no comparison looks at
(`duplicate_same_content`). Two records of Shenzhen that differ in nothing else are taken for
duplicates (`stream_lost`).
-/

namespace L2Flow

/-- The fields of a tick that `CanonicalPayloadEqual` compares. -/
structure SamePayload (left right : CanonicalTick) : Prop where
  messageKey : left.common.messageKey = right.common.messageKey
  channel : left.common.channel = right.common.channel
  nativeSequence : left.common.nativeSequence = right.common.nativeSequence
  exchangeTimeRaw : left.common.exchangeTimeRaw = right.common.exchangeTimeRaw
  identity : left.common.identity = right.common.identity
  price : left.price.raw = right.price.raw
  amount : left.amount.raw = right.amount.raw
  quantity : left.quantity.raw = right.quantity.raw
  primaryOrderId : left.primaryOrderId = right.primaryOrderId
  buyOrderId : left.buyOrderId = right.buyOrderId
  sellOrderId : left.sellOrderId = right.sellOrderId
  matchedQuantity : left.shAddMatchedQuantityRaw = right.shAddMatchedQuantityRaw
  rawType : left.rawType = right.rawType
  rawSide : left.rawSide = right.rawSide
  action : left.action = right.action
  side : left.side = right.side
  aggressor : left.aggressor = right.aggressor
  orderType : left.orderType = right.orderType
  phase : left.phase = right.phase

theorem samePayload_of_equal {left right : CanonicalTick}
    (h : canonicalPayloadEqual left right = true) : SamePayload left right := by
  have hidentity := SequenceRecovery.identity_of_payload h
  simp only [canonicalPayloadEqual, decimalEqual, quantityEqual, Bool.and_eq_true,
    beq_iff_eq] at h
  obtain ⟨⟨⟨⟨⟨⟨⟨⟨⟨⟨⟨⟨⟨⟨⟨⟨⟨⟨⟨hkey, -⟩, hchannel⟩, hsequence⟩, htime⟩, -⟩, ⟨hprice, -⟩, -⟩,
    ⟨hamount, -⟩, -⟩, ⟨hquantity, -⟩, -⟩, hprimary⟩, hbuy⟩, hsell⟩, hmatched⟩, htype⟩, hside⟩,
    haction⟩, hsideOf⟩, haggressor⟩, horder⟩, hphase⟩ := h
  exact ⟨hkey, hchannel, hsequence, htime, hidentity, hprice, hamount, hquantity, hprimary, hbuy,
    hsell, hmatched, htype, hside, haction, hsideOf, haggressor, horder, hphase⟩

/-! ## Content -/

/-- What is left of the common part without the receipt of the message : its place in the ingress
order, its vendor sequence, the times of its arrival, and the quality. -/
def CanonicalCommon.unlocal (common : CanonicalCommon) : CanonicalCommon :=
  { common with
    ingressSequence := 0
    vendorSequenceId := 0
    receiveMonotonicNs := 0
    vendorLocalTimeRaw := 0
    vendorLocalTimeNsFromMidnight := 0
    vendorLocalTimeValid := false
    qualityFlags := 0 }

def CanonicalTick.unlocal (tick : CanonicalTick) : CanonicalTick :=
  { tick with common := tick.common.unlocal }

/-- The ticks agree on all that comes from the body : on every field but the receipt, and on the
quality but for what the vendor's local time marks. -/
structure SameContent (left right : CanonicalTick) : Prop where
  fields : left.unlocal = right.unlocal
  quality : ∃ marks,
    left.common.qualityFlags = timeMarks left.common.vendorLocalTimeRaw ||| marks ∧
      right.common.qualityFlags = timeMarks right.common.vendorLocalTimeRaw ||| marks

/-- The catalog gives ticks of one content one instrument. -/
theorem SameContent.applyTickCatalog {left right : CanonicalTick} (h : SameContent left right)
    (catalog : InstrumentCatalog) :
    SameContent (applyTickCatalog catalog left).tick (applyTickCatalog catalog right).tick := by
  obtain ⟨marks, hleft, hright⟩ := h.quality
  have hidentity : left.common.identity = right.common.identity :=
    congrArg (·.common.identity) h.fields
  have hfind : catalog.find left.common.identity.market
      (left.common.identity.securityIdSource.toList.take left.common.identity.securityIdSourceSize)
      (left.common.identity.securityId.toList.take left.common.identity.securityIdSize) =
    catalog.find right.common.identity.market
      (right.common.identity.securityIdSource.toList.take
        right.common.identity.securityIdSourceSize)
      (right.common.identity.securityId.toList.take right.common.identity.securityIdSize) := by
    rw [hidentity]
  rw [L2Flow.applyTickCatalog, L2Flow.applyTickCatalog, applyCatalog, applyCatalog]
  dsimp only
  rw [hfind]
  split
  · refine ⟨h.fields, marks ||| kQualityInstrumentNotInCatalog, ?_, ?_⟩
    · rw [hleft, BitVec.or_assoc]
    · rw [hright, BitVec.or_assoc]
  · next found _ =>
    have hfields := congrArg (fun tick : CanonicalTick =>
      { tick with
        common :=
          { tick.common with
            instrumentId := found.instrumentId
            instrumentOrdinal := found.ordinal } }) h.fields
    exact ⟨hfields, marks, hleft, hright⟩

/-- The comparison does not look at what the catalog gives. -/
theorem equal_applyTickCatalog (catalog : InstrumentCatalog) (left right : CanonicalTick) :
    canonicalPayloadEqual (applyTickCatalog catalog left).tick
        (applyTickCatalog catalog right).tick = canonicalPayloadEqual left right := by
  rw [applyTickCatalog, applyTickCatalog, applyCatalog, applyCatalog]
  dsimp only
  split <;> split <;> rfl

theorem raw_priceOf (null : ℤ) (scale : ℕ) (raw : ℤ) : (priceOf null scale raw).raw = raw := by
  unfold priceOf
  split_ifs
  · rfl
  · exact raw_inMillionths _

theorem raw_amountOf (scale : ℕ) (raw : ℤ) : (amountOf scale raw).raw = raw := by
  unfold amountOf
  split_ifs
  · exact raw_inMillionths _
  · rfl

/-! ## Shanghai -/

namespace ShanghaiTickValues

theorem raw_priceDecimal (v : ShanghaiTickValues) : v.priceDecimal.raw = v.price := by
  unfold priceDecimal
  split
  · exact raw_priceOf _ _ _
  · exact raw_priceOf _ _ _
  · rfl

theorem raw_amountDecimal (v : ShanghaiTickValues) : v.amountDecimal.raw = v.amount := by
  unfold amountDecimal
  split
  · exact raw_amountOf _ _
  · rfl

variable {v w : ShanghaiTickValues} {common common' : CanonicalCommon}
  (h : SamePayload (v.tick common) (w.tick common'))
  (htime : v.exchangeTime = w.exchangeTime)
include h

theorem price_eq : v.price = w.price := by
  rw [← v.raw_priceDecimal, ← w.raw_priceDecimal]
  exact h.price

theorem amount_eq : v.amount = w.amount := by
  rw [← v.raw_amountDecimal, ← w.raw_amountDecimal]
  exact h.amount

theorem matched_iff : v.Matched ↔ w.Matched := by
  unfold Matched
  rw [show v.action = w.action from h.action, amount_eq h]

theorem priceDecimal_eq : v.priceDecimal = w.priceDecimal := by
  unfold priceDecimal
  rw [show v.action = w.action from h.action, price_eq h]

theorem amountDecimal_eq : v.amountDecimal = w.amountDecimal := by
  unfold amountDecimal
  rw [show v.action = w.action from h.action, amount_eq h]

theorem quantityInteger_eq : v.quantityInteger = w.quantityInteger := by
  unfold quantityInteger
  rw [show v.action = w.action from h.action, show v.quantity = w.quantity from h.quantity]

include htime in
theorem bits_eq : v.bits = w.bits := by
  unfold bits
  rw [priceDecimal_eq h, amountDecimal_eq h, quantityInteger_eq h, htime,
    show v.primaryOrderId = w.primaryOrderId from h.primaryOrderId,
    show v.buyOrderId = w.buyOrderId from h.buyOrderId,
    show v.sellOrderId = w.sellOrderId from h.sellOrderId,
    show v.action = w.action from h.action, show v.side = w.side from h.side,
    show v.aggressor = w.aggressor from h.aggressor, show v.phase = w.phase from h.phase,
    decide_eq_decide.2 (matched_iff h)]

include htime in
/-- The tick is a function of what is compared. -/
theorem tick_eq (shared : CanonicalCommon) : v.tick shared = w.tick shared := by
  have hmatched : (if v.Matched then v.amount.tdiv 1000 else 0) =
      if w.Matched then w.amount.tdiv 1000 else 0 := h.matchedQuantity
  unfold tick
  rw [priceDecimal_eq h, amountDecimal_eq h, quantityInteger_eq h, bits_eq h htime,
    show v.primaryOrderId = w.primaryOrderId from h.primaryOrderId,
    show v.buyOrderId = w.buyOrderId from h.buyOrderId,
    show v.sellOrderId = w.sellOrderId from h.sellOrderId,
    hmatched,
    show codeOf v.type = codeOf w.type from h.rawType,
    show codeOf v.flag = codeOf w.flag from h.rawSide,
    show v.action = w.action from h.action, show v.side = w.side from h.side,
    show v.aggressor = w.aggressor from h.aggressor, show v.phase = w.phase from h.phase]

/-- What the type marks is seen in the fields that the type fills. -/
theorem typeMarks_eq : v.typeMarks = w.typeMarks := by
  have haction : v.action = w.action := h.action
  have hside : v.side = w.side := h.side
  have haggressor : v.aggressor = w.aggressor := h.aggressor
  have hphase : v.phase = w.phase := h.phase
  unfold side at hside
  unfold aggressor at haggressor
  unfold phase at hphase
  unfold typeMarks matchedMarks
  rw [haction] at hside haggressor hphase ⊢
  rw [price_eq h, amount_eq h]
  generalize w.action = action at hside haggressor hphase ⊢
  cases action with
  | kAdd => rw [show v.flagSide = w.flagSide from hside]
  | kCancel => rw [show v.flagSide = w.flagSide from hside]
  | kTrade => rw [show aggressorOf v.flag = aggressorOf w.flag from haggressor]
  | kStatus => rw [show parseShPhase v.flag = parseShPhase w.flag from hphase]
  | kUnknown => rfl

include htime in
theorem marks_eq : v.marks = w.marks := by
  unfold marks
  rw [typeMarks_eq h, price_eq h, amount_eq h, htime,
    show v.buyOrderId = w.buyOrderId from h.buyOrderId,
    show v.sellOrderId = w.sellOrderId from h.sellOrderId,
    show v.quantity = w.quantity from h.quantity]

end ShanghaiTickValues

/-- The common part of a Shanghai tick, but for the receipt of the message. -/
theorem ShanghaiTickValues.common_eq {v w : ShanghaiTickValues} {left right : OwnedMessageView}
    {quality quality' : Flags} {tradeDate : ℕ}
    (h : SamePayload (v.tick { v.common left tradeDate with qualityFlags := quality })
      (w.tick { w.common right tradeDate with qualityFlags := quality' })) :
    (v.common left tradeDate).unlocal = (w.common right tradeDate).unlocal := by
  have hkey : left.header.key = right.header.key := h.messageKey
  have hchannel : v.channel.toNat = w.channel.toNat := h.channel
  have hsequence : v.sequence.toNat = w.sequence.toNat := h.nativeSequence
  have htime : v.exchangeTime = w.exchangeTime := h.exchangeTimeRaw
  have hidentity : identityOf .kShanghai [] v.security = identityOf .kShanghai [] w.security :=
    h.identity
  unfold common CanonicalCommon.unlocal withExchangeTime withIdentity commonOf
  dsimp only
  rw [hkey, hchannel, hsequence, htime, hidentity]

/-! ## Shenzhen -/

namespace ShenzhenOrderValues

theorem raw_priceDecimal (v : ShenzhenOrderValues) : v.priceDecimal.raw = v.price := by
  unfold priceDecimal
  split_ifs
  · exact raw_priceOf _ _ _
  · rfl

variable {v w : ShenzhenOrderValues} {common common' : CanonicalCommon}
  (h : SamePayload (v.tick common) (w.tick common'))
  (htime : v.exchangeTime = w.exchangeTime)
include h

theorem price_eq : v.price = w.price := by
  rw [← v.raw_priceDecimal, ← w.raw_priceDecimal]
  exact h.price

theorem priceDecimal_eq : v.priceDecimal = w.priceDecimal := by
  unfold priceDecimal
  rw [show v.type = w.type from h.rawType, price_eq h]

include htime in
theorem tick_eq (shared : CanonicalCommon) : v.tick shared = w.tick shared := by
  unfold tick bits
  rw [priceDecimal_eq h, htime, show v.type = w.type from h.rawType,
    show v.side = w.side from h.rawSide, show v.quantity = w.quantity from h.quantity,
    show v.sequence = w.sequence from h.primaryOrderId]

include htime in
theorem marks_eq : v.marks = w.marks := by
  unfold marks
  rw [price_eq h, htime, show v.type = w.type from h.rawType,
    show v.side = w.side from h.rawSide, show v.quantity = w.quantity from h.quantity]

end ShenzhenOrderValues

namespace ShenzhenTransactionValues

theorem raw_priceDecimal (v : ShenzhenTransactionValues) : v.priceDecimal.raw = v.price := by
  unfold priceDecimal
  split
  · exact raw_priceOf _ _ _
  · rfl

variable {v w : ShenzhenTransactionValues} {common common' : CanonicalCommon}
  (h : SamePayload (v.tick common) (w.tick common'))
  (htime : v.exchangeTime = w.exchangeTime)
include h

theorem price_eq : v.price = w.price := by
  rw [← v.raw_priceDecimal, ← w.raw_priceDecimal]
  exact h.price

theorem priceDecimal_eq : v.priceDecimal = w.priceDecimal := by
  unfold priceDecimal
  rw [show v.action = w.action from h.action, price_eq h]

theorem quantityInteger_eq : v.quantityInteger = w.quantityInteger := by
  unfold quantityInteger
  rw [show v.action = w.action from h.action, show v.quantity = w.quantity from h.quantity]

theorem named_iff : v.Named ↔ w.Named := by
  unfold Named
  rw [show v.action = w.action from h.action,
    show v.buyOrderId = w.buyOrderId from h.buyOrderId,
    show v.sellOrderId = w.sellOrderId from h.sellOrderId]

include htime in
theorem tick_eq (shared : CanonicalCommon) : v.tick shared = w.tick shared := by
  unfold tick bits
  rw [priceDecimal_eq h, quantityInteger_eq h, htime, decide_eq_decide.2 (named_iff h),
    show v.primaryOrderId = w.primaryOrderId from h.primaryOrderId,
    show v.buyOrderId = w.buyOrderId from h.buyOrderId,
    show v.sellOrderId = w.sellOrderId from h.sellOrderId,
    show v.type = w.type from h.rawType, show v.action = w.action from h.action,
    show v.side = w.side from h.side]

include htime in
theorem marks_eq : v.marks = w.marks := by
  have hambiguous : flagIf (¬v.Named) kQualityAmbiguousOrderReference =
      flagIf (¬w.Named) kQualityAmbiguousOrderReference := by
    unfold flagIf
    exact if_congr (not_congr (named_iff h)) rfl rfl
  unfold marks typeMarks
  rw [price_eq h, htime, hambiguous, show v.action = w.action from h.action,
    show v.buyOrderId = w.buyOrderId from h.buyOrderId,
    show v.sellOrderId = w.sellOrderId from h.sellOrderId,
    show v.quantity = w.quantity from h.quantity]

end ShenzhenTransactionValues

/-- The common part of a record of Shenzhen. -/
def shenzhenCommon (kind : CanonicalKind) (stream source security : List UInt8) (sequence : ℤ)
    (channel exchangeTime : ℕ) (message : OwnedMessageView) (tradeDate : ℕ) : CanonicalCommon :=
  withExchangeTime
    { withIdentity (commonOf message tradeDate .kShenzhen kind) .kShenzhen stream source
        security with
      nativeSequence := sequence.toNat
      channel := channel }
    exchangeTime (timeOf exchangeTime)

section Shenzhen

variable {kind : CanonicalKind} {stream source security source' security' : List UInt8}
  {sequence sequence' : ℤ} {channel channel' exchangeTime exchangeTime' : ℕ}
  {left right : OwnedMessageView} {tradeDate : ℕ}

/-- Apart from the receipt, the common parts differ in the stream at most. -/
theorem shenzhenCommon_eq (hkey : left.header.key = right.header.key)
    (hchannel : channel = channel') (hsequence : sequence.toNat = sequence'.toNat)
    (htime : exchangeTime = exchangeTime')
    (hidentity : identityOf .kShenzhen source security = identityOf .kShenzhen source' security') :
    (shenzhenCommon kind stream source security sequence channel exchangeTime left
        tradeDate).unlocal =
      (shenzhenCommon kind stream source' security' sequence' channel' exchangeTime' right
        tradeDate).unlocal := by
  unfold shenzhenCommon CanonicalCommon.unlocal withExchangeTime withIdentity commonOf
  dsimp only
  rw [hkey, hchannel, hsequence, htime, hidentity]

end Shenzhen

/-- Two Shanghai ticks that are the same to the comparison have the same content. -/
theorem ShanghaiTickValues.sameContent {v w : ShanghaiTickValues} {left right : OwnedMessageView}
    {tradeDate : ℕ}
    (h : SamePayload
      (v.tick { v.common left tradeDate with
        qualityFlags := timeMarks left.header.localTimeRaw ||| v.marks })
      (w.tick { w.common right tradeDate with
        qualityFlags := timeMarks right.header.localTimeRaw ||| w.marks })) :
    SameContent
      (v.tick { v.common left tradeDate with
        qualityFlags := timeMarks left.header.localTimeRaw ||| v.marks })
      (w.tick { w.common right tradeDate with
        qualityFlags := timeMarks right.header.localTimeRaw ||| w.marks }) := by
  have htime : v.exchangeTime = w.exchangeTime := h.exchangeTimeRaw
  have hmarks := ShanghaiTickValues.marks_eq h htime
  refine ⟨?_, v.marks, rfl, by rw [hmarks]; rfl⟩
  show v.tick (v.common left tradeDate).unlocal = w.tick (w.common right tradeDate).unlocal
  rw [ShanghaiTickValues.common_eq h, ShanghaiTickValues.tick_eq h htime]

theorem ShenzhenOrderValues.sameContent {v w : ShenzhenOrderValues} {left right : OwnedMessageView}
    {tradeDate : ℕ}
    (h : SamePayload
      (v.tick { v.common left tradeDate with
        qualityFlags := timeMarks left.header.localTimeRaw ||| v.marks })
      (w.tick { w.common right tradeDate with
        qualityFlags := timeMarks right.header.localTimeRaw ||| w.marks }))
    (hstream : v.stream = w.stream) :
    SameContent
      (v.tick { v.common left tradeDate with
        qualityFlags := timeMarks left.header.localTimeRaw ||| v.marks })
      (w.tick { w.common right tradeDate with
        qualityFlags := timeMarks right.header.localTimeRaw ||| w.marks }) := by
  have htime : v.exchangeTime = w.exchangeTime := h.exchangeTimeRaw
  have hmarks := ShenzhenOrderValues.marks_eq h htime
  have hcommon : (v.common left tradeDate).unlocal = (w.common right tradeDate).unlocal := by
    show (shenzhenCommon _ v.stream _ _ _ _ _ left tradeDate).unlocal = _
    rw [hstream]
    exact shenzhenCommon_eq h.messageKey h.channel h.nativeSequence htime h.identity
  refine ⟨?_, v.marks, rfl, by rw [hmarks]; rfl⟩
  show v.tick (v.common left tradeDate).unlocal = w.tick (w.common right tradeDate).unlocal
  rw [hcommon, ShenzhenOrderValues.tick_eq h htime]

theorem ShenzhenTransactionValues.sameContent {v w : ShenzhenTransactionValues}
    {left right : OwnedMessageView} {tradeDate : ℕ}
    (h : SamePayload
      (v.tick { v.common left tradeDate with
        qualityFlags := timeMarks left.header.localTimeRaw ||| v.marks })
      (w.tick { w.common right tradeDate with
        qualityFlags := timeMarks right.header.localTimeRaw ||| w.marks }))
    (hstream : v.stream = w.stream) :
    SameContent
      (v.tick { v.common left tradeDate with
        qualityFlags := timeMarks left.header.localTimeRaw ||| v.marks })
      (w.tick { w.common right tradeDate with
        qualityFlags := timeMarks right.header.localTimeRaw ||| w.marks }) := by
  have htime : v.exchangeTime = w.exchangeTime := h.exchangeTimeRaw
  have hmarks := ShenzhenTransactionValues.marks_eq h htime
  have hcommon : (v.common left tradeDate).unlocal = (w.common right tradeDate).unlocal := by
    show (shenzhenCommon _ v.stream _ _ _ _ _ left tradeDate).unlocal = _
    rw [hstream]
    exact shenzhenCommon_eq h.messageKey h.channel h.nativeSequence htime h.identity
  refine ⟨?_, v.marks, rfl, by rw [hmarks]; rfl⟩
  show v.tick (v.common left tradeDate).unlocal = w.tick (w.common right tradeDate).unlocal
  rw [hcommon, ShenzhenTransactionValues.tick_eq h htime]

/-- The text of the MD stream of a message; the ticks of Shanghai have none. -/
def streamOf (message : OwnedMessageView) : List UInt8 :=
  match classifyMessage message.header.key with
  | .kShenzhenOrder | .kShenzhenTransaction => textBytes message.body 12
  | _ => []

/-- The ticks of two messages with the same compared fields and the same stream have the same
content. -/
theorem tickOf_sameContent {left right : OwnedMessageView} {tradeDate : ℕ}
    (h : SamePayload
      (tickOf left tradeDate (timeMarks left.header.localTimeRaw ||| tickMarks left))
      (tickOf right tradeDate (timeMarks right.header.localTimeRaw ||| tickMarks right)))
    (hkey : left.header.key = right.header.key) (hstream : streamOf left = streamOf right) :
    SameContent (tickOf left tradeDate (timeMarks left.header.localTimeRaw ||| tickMarks left))
      (tickOf right tradeDate (timeMarks right.header.localTimeRaw ||| tickMarks right)) := by
  have hclass : classifyMessage left.header.key = classifyMessage right.header.key := by rw [hkey]
  unfold tickOf tickMarks at h ⊢
  unfold streamOf at hstream
  rw [hclass] at h hstream ⊢
  generalize classifyMessage right.header.key = messageClass at h hstream ⊢
  cases messageClass with
  | kShenzhenOrder => exact ShenzhenOrderValues.sameContent h hstream
  | kShenzhenTransaction => exact ShenzhenTransactionValues.sameContent h hstream
  | kShanghaiTick | kShanghaiSnapshot | kShenzhenSnapshot | kUnsupported =>
    exact ShanghaiTickValues.sameContent h

theorem tickOf_messageKey (message : OwnedMessageView) (tradeDate : ℕ) (quality : Flags) :
    (tickOf message tradeDate quality).common.messageKey = message.header.key := by
  unfold tickOf
  generalize classifyMessage message.header.key = messageClass
  cases messageClass <;> rfl

/-- The tick has the stream of its message. -/
theorem tickOf_stream (message : OwnedMessageView) (tradeDate : ℕ) (quality : Flags) :
    (tickOf message tradeDate quality).common.mdStreamIdSize = (streamOf message).length ∧
      (tickOf message tradeDate quality).common.mdStreamId = identityBytes (streamOf message) := by
  unfold tickOf streamOf
  generalize classifyMessage message.header.key = messageClass
  cases messageClass <;> exact ⟨rfl, rfl⟩

/-- The catalog keeps the stream. -/
theorem applyTickCatalog_stream (catalog : InstrumentCatalog) (tick : CanonicalTick) :
    (applyTickCatalog catalog tick).tick.common.mdStreamIdSize = tick.common.mdStreamIdSize ∧
      (applyTickCatalog catalog tick).tick.common.mdStreamId = tick.common.mdStreamId := by
  have hkept := applyTickCatalog_uncataloged catalog tick
  exact ⟨uncataloged_congr (·.common.mdStreamIdSize) (fun _ => rfl) hkept,
    uncataloged_congr (·.common.mdStreamId) (fun _ => rfl) hkept⟩

/-- Texts that fit in an array are read off it. -/
theorem identityBytes_inj {text text' : List UInt8} (h : text.length ≤ kMaximumIdentityBytes)
    (h' : text'.length ≤ kMaximumIdentityBytes) (hsize : text.length = text'.length)
    (hbytes : identityBytes text = identityBytes text') : text = text' := by
  rw [← take_identityBytes h, ← take_identityBytes h', hbytes, hsize]

/-- The stream of a tick that is decoded fits in its array. -/
theorem streamOf_length {grows : ℕ → Bool} {message : OwnedMessageView} {tradeDate : ℕ}
    {limits : DecoderLimits} {catalog : InstrumentCatalog} {decoded : TickDecodeResult} {s : Scan}
    (hlimits : limits.maximumTextBytes ≤ kMaximumIdentityBytes)
    (h : decodeTick grows message tradeDate limits catalog = .ok decoded s) :
    (streamOf message).length ≤ kMaximumIdentityBytes := by
  obtain ⟨shape, hshape, hwf⟩ :=
    (decodeTick_accepts grows message tradeDate limits catalog).wellFormed _ _ h
  unfold streamOf
  generalize classifyMessage message.header.key = messageClass at hshape ⊢
  cases messageClass with
  | kShenzhenOrder =>
    obtain rfl := Option.mem_some_iff.1 hshape
    exact (hwf.texts (12, true) (by decide)).length_le.trans hlimits
  | kShenzhenTransaction =>
    obtain rfl := Option.mem_some_iff.1 hshape
    exact (hwf.texts (12, true) (by decide)).length_le.trans hlimits
  | kShanghaiTick | kShanghaiSnapshot | kShenzhenSnapshot | kUnsupported => exact Nat.zero_le _

/-- A record that is a duplicate of a retained one has its content exactly if both messages name
the same stream. -/
theorem duplicate_same_content {grows grows' : ℕ → Bool} {left right : OwnedMessageView}
    {tradeDate : ℕ} {limits : DecoderLimits} {catalog : InstrumentCatalog}
    {first second : TickDecodeResult} {s s' : Scan}
    (hlimits : limits.maximumTextBytes ≤ kMaximumIdentityBytes)
    (hfirst : decodeTick grows left tradeDate limits catalog = .ok first s)
    (hsecond : decodeTick grows' right tradeDate limits catalog = .ok second s')
    (hsame : SequenceRecovery.SameRecord (SequenceRecovery.slotOf first) second) :
    SameContent first.tick second.tick ↔ streamOf left = streamOf right := by
  have hleft := streamOf_length hlimits hfirst
  have hright := streamOf_length hlimits hsecond
  have hends := decodeTick_gives grows left tradeDate limits catalog
  have hends' := decodeTick_gives grows' right tradeDate limits catalog
  rw [hfirst] at hends
  rw [hsecond] at hends'
  obtain ⟨rfl, -⟩ := hends
  obtain ⟨rfl, -⟩ := hends'
  constructor
  · intro h
    have hsize := congrArg (fun tick => tick.common.mdStreamIdSize) h.fields
    have hbytes := congrArg (fun tick => tick.common.mdStreamId) h.fields
    refine identityBytes_inj hleft hright ?_ ?_
    · exact ((applyTickCatalog_stream catalog _).1.trans (tickOf_stream left _ _).1).symm.trans
        (hsize.trans ((applyTickCatalog_stream catalog _).1.trans (tickOf_stream right _ _).1))
    · exact ((applyTickCatalog_stream catalog _).2.trans (tickOf_stream left _ _).2).symm.trans
        (hbytes.trans ((applyTickCatalog_stream catalog _).2.trans (tickOf_stream right _ _).2))
  · intro hstream
    have hpayload := samePayload_of_equal ((equal_applyTickCatalog catalog _ _).symm.trans hsame.1)
    have hkey := hpayload.messageKey
    rw [tickOf_messageKey, tickOf_messageKey] at hkey
    exact (tickOf_sameContent hpayload hkey hstream).applyTickCatalog catalog

/-! ### Three retransmissions, and a record of another stream -/

/-- The same message, received once more and without a local time. -/
def receivedAgain (message : OwnedMessageView) : OwnedMessageView :=
  { message with
    header := { message.header with localTimeRaw := kNullTime, vendorSequenceId := 2 }
    ingressSequence := 2
    receiveMonotonicNs := 5 }

theorem duplicate_same_content_sample :
    sampleTicks.Forall fun message => ∃ first s second s',
      decodeTick (fun _ => true) message 20260101 {} {} = .ok first s ∧
        decodeTick (fun _ => true) (receivedAgain message) 20260101 {} {} = .ok second s' ∧
        SequenceRecovery.SameRecord (SequenceRecovery.slotOf first) second ∧
        SameContent first.tick second.tick := by
  have hall : ∀ message ∈ sampleTicks,
      succeeds (fun first => succeeds (fun second =>
          canonicalPayloadEqual first.tick second.tick && first.catalogMatch == second.catalogMatch)
        (decodeTick (fun _ => true) (receivedAgain message) 20260101 {} {}))
        (decodeTick (fun _ => true) message 20260101 {} {}) = true := by
    decide +kernel
  refine List.forall_iff_forall_mem.2 fun message hmessage => ?_
  obtain ⟨first, s, hfirst, hcheck⟩ := exists_ok (hall message hmessage)
  obtain ⟨second, s', hsecond, hcheck⟩ := exists_ok hcheck
  rw [Bool.and_eq_true, beq_iff_eq] at hcheck
  exact ⟨first, s, second, s', hfirst, hsecond, hcheck,
    (duplicate_same_content le_rfl hfirst hsecond hcheck).2 rfl⟩

/-- The order of the samples, in stream `011`. -/
def otherStreamBody : List UInt8 :=
  sampleOrderBody.take 58 ++ [48, 49, 49] ++ sampleOrderBody.drop 61

/-- The record of the other stream is dropped as a duplicate. -/
theorem stream_lost : ∃ first s second s',
    decodeTick (fun _ => true) (sampleMessage ⟨6, 101, 33⟩ sampleOrderBody) 20260101 {} {} =
        .ok first s ∧
      decodeTick (fun _ => true) (sampleMessage ⟨6, 101, 33⟩ otherStreamBody) 20260101 {} {} =
        .ok second s' ∧
      SequenceRecovery.SameRecord (SequenceRecovery.slotOf first) second ∧
      first.tick.common.mdStreamId ≠ second.tick.common.mdStreamId ∧
      ¬SameContent first.tick second.tick := by
  have hall : succeeds (fun first => succeeds (fun second =>
        canonicalPayloadEqual first.tick second.tick &&
          (first.catalogMatch == second.catalogMatch &&
            first.tick.common.mdStreamId != second.tick.common.mdStreamId))
      (decodeTick (fun _ => true) (sampleMessage ⟨6, 101, 33⟩ otherStreamBody) 20260101 {} {}))
      (decodeTick (fun _ => true) (sampleMessage ⟨6, 101, 33⟩ sampleOrderBody) 20260101 {} {}) =
        true := by
    decide +kernel
  obtain ⟨first, s, hfirst, hcheck⟩ := exists_ok hall
  obtain ⟨second, s', hsecond, hcheck⟩ := exists_ok hcheck
  rw [Bool.and_eq_true, Bool.and_eq_true, beq_iff_eq, bne_iff_ne] at hcheck
  obtain ⟨hequal, hmatch, hstream⟩ := hcheck
  exact ⟨first, s, second, s', hfirst, hsecond, ⟨hequal, hmatch⟩, hstream, fun h =>
    hstream (congrArg (fun tick => tick.common.mdStreamId) h.fields)⟩

end L2Flow
