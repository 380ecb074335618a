import L2Flow.Meaning
import L2Flow.TickRoundTrip

/-!
# What a tick is made of

For each of the three tick layouts, every field of the decoded tick as a function of the values
of the body (`ShanghaiTickValues.tick` and its two siblings), the quality they mark and the
decimals that are normalised. The decoders, which go by the branches of the action, give exactly
this record (`decodeTick_gives`).
-/

namespace L2Flow

open LittleEndian (signed)

variable {body : List UInt8}

/-! ## The validity bitmap -/

/-- One truth value for each bit of the validity bitmap of a tick as it is decoded. -/
structure ValidBits where
  price : Bool := false
  quantity : Bool := false
  amount : Bool := false
  primaryOrderId : Bool := false
  buyOrderId : Bool := false
  sellOrderId : Bool := false
  side : Bool := false
  aggressor : Bool := false
  orderType : Bool := false
  exchangeTime : Bool := false
  phase : Bool := false
  matchedQuantity : Bool := false

def ValidBits.flags (bits : ValidBits) : Flags :=
  kTickChannelHistoryValid ||| flagIf (bits.price = true) kTickPriceValid |||
    flagIf (bits.quantity = true) kTickQuantityValid |||
    flagIf (bits.amount = true) kTickAmountValid |||
    flagIf (bits.primaryOrderId = true) kTickPrimaryOrderIdValid |||
    flagIf (bits.buyOrderId = true) kTickBuyOrderIdValid |||
    flagIf (bits.sellOrderId = true) kTickSellOrderIdValid |||
    flagIf (bits.side = true) kTickSideValid |||
    flagIf (bits.aggressor = true) kTickAggressorValid |||
    flagIf (bits.orderType = true) kTickOrderTypeValid |||
    flagIf (bits.exchangeTime = true) kTickExchangeTimeValid |||
    flagIf (bits.phase = true) kTickPhaseValid |||
    flagIf (bits.matchedQuantity = true) kTickMatchedQuantityValid

/-! ## Prices and amounts of ticks -/

/-- An amount : only one that is not negative has a value in millionths. -/
def amountOf (scale : ℕ) (raw : ℤ) : FixedDecimal :=
  if 0 ≤ raw then inMillionths (rawDecimal kNullI64 scale raw) else rawDecimal kNullI64 scale raw

/-- What an amount marks that is not null. -/
def amountMarks (raw : ℤ) : Flags :=
  flagIf (raw ≠ kNullI64 ∧ raw < 0) kQualityInvalidAmount

def amountDecimals (scale : ℕ) (raw : ℤ) : List Normalised :=
  if 0 ≤ raw then [⟨scale, raw⟩] else []

namespace Computes

theorem normalizePrice {null raw : ℤ} {scale : ℕ} (hscale : scale ≤ 6) (hnull : null ≤ 0) :
    Computes (normalizePrice (rawDecimal null scale raw)) (priceOf null scale raw)
      (priceMarks null raw) (priceDecimals scale raw) := by
  unfold L2Flow.normalizePrice
  refine Gives.ite (fun hpos => ?_) fun hnonpos => ?_
  · have hraw : 0 < raw := hpos.2
    rw [priceOf, if_neg (not_le.2 hraw), priceMarks, flagIf, if_neg (fun h => h.2.not_gt hraw),
      priceDecimals, if_pos hraw]
    exact Gives.cast (normalizeP6 hscale) rfl (if_pos hpos.1)
  · have hraw : raw ≤ 0 := by
      by_contra hpos
      exact hnonpos ⟨decide_eq_true (by omega), not_le.1 hpos⟩
    rw [priceOf, if_pos hraw, priceDecimals, if_neg (not_lt.2 hraw)]
    refine Gives.cast (mark_then (markIf _ _) pure) (BitVec.or_zero.trans ?_) rfl
    simp [priceMarks, flagIf, rawDecimal, hraw]

theorem normalizeAmount {raw : ℤ} {scale : ℕ} (hscale : scale ≤ 6) :
    Computes (normalizeAmount (rawDecimal kNullI64 scale raw)) (amountOf scale raw)
      (amountMarks raw) (amountDecimals scale raw) := by
  unfold L2Flow.normalizeAmount
  refine Gives.ite (fun hpos => ?_) fun hneg => ?_
  · have hraw : 0 ≤ raw := hpos.2
    rw [amountOf, if_pos hraw, amountMarks, flagIf, if_neg (fun h => h.2.not_ge hraw),
      amountDecimals, if_pos hraw]
    exact Gives.cast (normalizeP6 hscale) rfl (if_pos hpos.1)
  · have hraw : raw < 0 := by
      by_contra hpos
      have hnull : raw ≠ kNullI64 := by
        have : kNullI64 = -2 ^ 63 := rfl
        omega
      exact hneg ⟨decide_eq_true hnull, not_lt.1 hpos⟩
    rw [amountOf, if_neg (not_le.2 hraw), amountDecimals, if_neg (not_le.2 hraw)]
    refine Gives.cast (mark_then (markIf _ _) pure) (BitVec.or_zero.trans ?_) rfl
    simp [amountMarks, flagIf, rawDecimal, hraw]

end Computes

/-- The quality that is marked at the end goes into the record. -/
theorem withQuality_gives {tick : CanonicalTick} :
    Gives (withQuality tick)
      (fun quality => { tick with common := { tick.common with qualityFlags := quality } }) 0 [] :=
  fun _ => ⟨rfl, BitVec.or_zero.symm, fun _ h => absurd h List.not_mem_nil⟩

theorem Gives.value {α : Type} {m : Decoder α} {value value' : Flags → α} {marks : Flags}
    {decimals : List Normalised} (h : Gives m value marks decimals)
    (hvalue : ∀ quality, value quality = value' quality) : Gives m value' marks decimals :=
  (funext hvalue : value = value') ▸ h

/-! ## Shanghai -/

/-- The values of a body of type `NGTSTick`. -/
def shanghaiTickValues (body : List UInt8) : ShanghaiTickValues where
  sequence := signed 64 (wire body 8 0)
  channel := signed 32 (wire body 4 8)
  security := textBytes body 12
  exchangeTime := wire body 4 18
  type := textBytes body 22
  buyOrderId := signed 64 (wire body 8 28)
  sellOrderId := signed 64 (wire body 8 36)
  price := signed 32 (wire body 4 44)
  quantity := signed 64 (wire body 8 48)
  amount := signed 64 (wire body 8 56)
  flag := textBytes body 64

namespace ShanghaiTickValues

variable (v : ShanghaiTickValues)

def action : TickAction :=
  if v.type = ascii "A" then .kAdd
  else if v.type = ascii "D" then .kCancel
  else if v.type = ascii "T" then .kTrade
  else if v.type = ascii "S" then .kStatus
  else .kUnknown

/-- The side that the flag of an order names. -/
def flagSide : Side :=
  if v.flag = ascii "B" then .kBuy else if v.flag = ascii "S" then .kSell else .kUnknown

/-- Only an added or a cancelled order has a side. -/
def side : Side :=
  match v.action with
  | .kAdd | .kCancel => v.flagSide
  | _ => .kUnknown

/-- The order on the side of the record. -/
def primaryOrderId : ℤ :=
  match v.side with
  | .kBuy => v.buyOrderId
  | .kSell => v.sellOrderId
  | _ => 0

/-- Cancellations and status records have no price. -/
def priceDecimal : FixedDecimal :=
  match v.action with
  | .kAdd | .kTrade => priceOf kNullI32 3 v.price
  | _ => rawDecimal kNullI32 3 v.price

/-- Only a trade has an amount. -/
def amountDecimal : FixedDecimal :=
  match v.action with
  | .kTrade => amountOf 3 v.amount
  | _ => rawDecimal kNullI64 3 v.amount

/-- Status records have no quantity. -/
def quantityInteger : ScaledInteger where
  raw := v.quantity
  scale := 0
  valid := match v.action with
    | .kAdd | .kCancel | .kTrade => decide (0 ≤ v.quantity)
    | _ => false

/-- The amount of an added order is its matched quantity, in thousandths. -/
def Matched : Prop :=
  v.action = .kAdd ∧ 0 ≤ v.amount ∧ v.amount.tmod 1000 = 0

instance : Decidable v.Matched :=
  inferInstanceAs (Decidable (_ ∧ _))

def aggressor : Aggressor :=
  match v.action with
  | .kTrade => aggressorOf v.flag
  | _ => .kUnknown

def phase : TradingPhase :=
  match v.action with
  | .kStatus => parseShPhase v.flag
  | _ => .kUnknown

def bits : ValidBits where
  price := v.priceDecimal.p6Valid
  quantity := v.quantityInteger.valid
  amount := v.amountDecimal.p6Valid
  primaryOrderId := decide (0 < v.primaryOrderId)
  buyOrderId := decide (v.action = .kTrade ∧ 0 < v.buyOrderId)
  sellOrderId := decide (v.action = .kTrade ∧ 0 < v.sellOrderId)
  side := decide (v.side ≠ .kUnknown)
  aggressor := decide (v.aggressor ≠ .kUnknown)
  exchangeTime := (timeOf v.exchangeTime).isSome
  phase := decide (v.phase ≠ .kUnknown)
  matchedQuantity := decide v.Matched

/-- The tick, for its common part. -/
def tick (common : CanonicalCommon) : CanonicalTick where
  common := common
  price := v.priceDecimal
  amount := v.amountDecimal
  quantity := v.quantityInteger
  primaryOrderId := v.primaryOrderId
  buyOrderId := v.buyOrderId
  sellOrderId := v.sellOrderId
  shAddMatchedQuantityRaw := if v.Matched then v.amount.tdiv 1000 else 0
  validity := v.bits.flags
  rawType := codeOf v.type
  rawSide := codeOf v.flag
  action := v.action
  side := v.side
  aggressor := v.aggressor
  phase := v.phase

/-- What a matched quantity marks. -/
def matchedMarks : Flags :=
  flagIf (v.amount ≠ kNullI64 ∧ v.amount < 0) kQualityInvalidQuantity |||
    flagIf (0 ≤ v.amount ∧ v.amount.tmod 1000 ≠ 0) kQualityNonIntegralMatchedQuantity

/-- What the type of the record decides to mark. -/
def typeMarks : Flags :=
  match v.action with
  | .kAdd =>
    priceMarks kNullI32 v.price |||
      (flagIf (v.flagSide = .kUnknown) kQualityUnknownEnum ||| v.matchedMarks)
  | .kCancel => flagIf (v.flagSide = .kUnknown) kQualityUnknownEnum
  | .kTrade =>
    priceMarks kNullI32 v.price |||
      (amountMarks v.amount ||| flagIf (aggressorOf v.flag = .kUnknown) kQualityUnknownEnum)
  | .kStatus => flagIf (parseShPhase v.flag = .kUnknown) kQualityUnknownEnum
  | .kUnknown => kQualityUnknownEnum

/-- What the body marks. -/
def marks : Flags :=
  flagIf (v.buyOrderId < 0 ∨ v.sellOrderId < 0) kQualityInvalidOrderReference |||
    flagIf (v.quantity < 0) kQualityInvalidQuantity ||| timeMarks v.exchangeTime |||
    nullMarks kNullI32 v.price ||| nullMarks kNullI64 v.amount ||| v.typeMarks

def decimals : List Normalised :=
  match v.action with
  | .kAdd => priceDecimals 3 v.price
  | .kTrade => priceDecimals 3 v.price ++ amountDecimals 3 v.amount
  | _ => []

/-- The common part of the tick, apart from the quality and the catalog. -/
def common (message : OwnedMessageView) (tradeDate : ℕ) : CanonicalCommon :=
  withExchangeTime
    { withIdentity (commonOf message tradeDate .kShanghai .kShanghaiTick) .kShanghai [] []
        v.security with
      nativeSequence := v.sequence.toNat
      channel := v.channel.toNat }
    v.exchangeTime (timeOf v.exchangeTime)

/-- The tick before its type is looked at. -/
def initial (common : CanonicalCommon) : CanonicalTick where
  common := common
  price := rawDecimal kNullI32 3 v.price
  amount := rawDecimal kNullI64 3 v.amount
  quantity := { raw := v.quantity, scale := 0, valid := decide (0 ≤ v.quantity) }
  buyOrderId := v.buyOrderId
  sellOrderId := v.sellOrderId
  validity := kTickChannelHistoryValid |||
    flagIf ((timeOf v.exchangeTime).isSome = true) kTickExchangeTimeValid
  rawType := codeOf v.type
  rawSide := codeOf v.flag

end ShanghaiTickValues

namespace Computes

/-- What `set_order_side` does to a tick without a side. -/
theorem setOrderSide (v : ShanghaiTickValues) (tick : CanonicalTick)
    (hbuy : tick.buyOrderId = v.buyOrderId) (hsell : tick.sellOrderId = v.sellOrderId)
    (hside : tick.side = .kUnknown) (hprimary : tick.primaryOrderId = 0)
    (haction : v.side = v.flagSide) :
    Computes (setOrderSide v.flag tick)
      { tick with
        side := v.side
        primaryOrderId := v.primaryOrderId
        validity := tick.validity ||| flagIf (v.side ≠ .kUnknown) kTickSideValid |||
          flagIf (0 < v.primaryOrderId) kTickPrimaryOrderIdValid }
      (flagIf (v.flagSide = .kUnknown) kQualityUnknownEnum) [] := by
  unfold L2Flow.setOrderSide ShanghaiTickValues.primaryOrderId
  rw [haction, ShanghaiTickValues.flagSide]
  split_ifs with hb hs
  · exact Gives.cast (result (by simp [flagIf, hbuy])) (if_neg (by simp)).symm rfl
  · exact Gives.cast (result (by simp [flagIf, hsell])) (if_neg (by simp)).symm rfl
  · refine Gives.cast (mark_then (mark _) (result ?_)) (BitVec.or_zero.trans (if_pos rfl).symm) rfl
    simp [flagIf, ← hside, ← hprimary]

section Shanghai

attribute [local simp] ShanghaiTickValues.tick ShanghaiTickValues.initial ShanghaiTickValues.bits
  ShanghaiTickValues.priceDecimal ShanghaiTickValues.amountDecimal
  ShanghaiTickValues.quantityInteger ShanghaiTickValues.aggressor ShanghaiTickValues.phase
  ShanghaiTickValues.side ShanghaiTickValues.primaryOrderId
  ValidBits.flags flagIf rawDecimal

variable {v : ShanghaiTickValues}

theorem not_matched (h : v.action ≠ .kAdd) : ¬v.Matched :=
  fun hmatched => h hmatched.1

/-- A record of type `A`. -/
theorem shanghaiAdd (hadd : v.action = .kAdd) (common : CanonicalCommon) :
    Computes (shanghaiAdd v.flag (v.initial common)) (v.tick common) v.typeMarks v.decimals := by
  have hside : v.side = v.flagSide := by rw [ShanghaiTickValues.side, hadd]
  have hmarks : v.typeMarks = priceMarks kNullI32 v.price |||
      (flagIf (v.flagSide = .kUnknown) kQualityUnknownEnum ||| v.matchedMarks) := by
    rw [ShanghaiTickValues.typeMarks, hadd]
  have hdecimals : v.decimals = priceDecimals 3 v.price ++ ([] ++ []) := by
    rw [ShanghaiTickValues.decimals, hadd, List.append_nil, List.append_nil]
  have hnull : kNullI64 < 0 := by decide
  rw [L2Flow.shanghaiAdd, hmarks, hdecimals]
  refine Computes.then (normalizePrice (by decide) (by decide))
    (Computes.then (setOrderSide v _ rfl rfl rfl rfl hside) ?_)
  refine Gives.ite (fun hmatched => ?_) fun hodd => ?_
  · obtain ⟨-, hnonneg, hwhole⟩ := hmatched
    change 0 ≤ v.amount at hnonneg
    change v.amount.tmod 1000 = 0 at hwhole
    have hm : v.Matched := ⟨hadd, hnonneg, hwhole⟩
    refine Gives.cast (result ?_) ?_ rfl
    · simp [hadd, hm]
      ac_rfl
    · simp [ShanghaiTickValues.matchedMarks, hwhole, hnonneg]
  · change ¬((rawDecimal kNullI64 3 v.amount).rawValid = true ∧ 0 ≤ v.amount ∧
      v.amount.tmod 1000 = 0) at hodd
    have hnot : 0 ≤ v.amount → v.amount.tmod 1000 ≠ 0 := fun hnonneg hwhole =>
      hodd ⟨decide_eq_true (by omega), hnonneg, hwhole⟩
    have hm : ¬v.Matched := fun h => hnot h.2.1 h.2.2
    refine Gives.cast (mark_then (markIf _ _) (mark_then (markIf _ _) (result ?_))) ?_ rfl
    · simp [hadd, hm]
      ac_rfl
    · rcases lt_or_ge v.amount 0 with hneg | hnonneg
      · simp [ShanghaiTickValues.matchedMarks, hneg, not_le.2 hneg]
      · have hne : v.amount ≠ kNullI64 := by omega
        simp [ShanghaiTickValues.matchedMarks, hnonneg, hnot hnonneg, hne]

/-- A record of type `D`. -/
theorem shanghaiCancel (hcancel : v.action = .kCancel) (common : CanonicalCommon) :
    Computes (shanghaiCancel v.flag (v.initial common)) (v.tick common) v.typeMarks v.decimals := by
  have hside : v.side = v.flagSide := by rw [ShanghaiTickValues.side, hcancel]
  have hmarks : v.typeMarks = flagIf (v.flagSide = .kUnknown) kQualityUnknownEnum := by
    rw [ShanghaiTickValues.typeMarks, hcancel]
  have hdecimals : v.decimals = [] := by rw [ShanghaiTickValues.decimals, hcancel]
  rw [L2Flow.shanghaiCancel, hmarks, hdecimals]
  have hset := setOrderSide v { v.initial common with
    action := .kCancel
    validity := (v.initial common).validity |||
      flagIf ((v.initial common).quantity.valid = true) kTickQuantityValid } rfl rfl rfl rfl hside
  convert hset using 1
  simp [hcancel, not_matched (v := v) (by simp [hcancel])]
  ac_rfl

/-- A record of type `T`. -/
theorem shanghaiTrade (htrade : v.action = .kTrade) (common : CanonicalCommon) :
    Computes (shanghaiTrade v.flag (v.initial common)) (v.tick common) v.typeMarks v.decimals := by
  have hmarks : v.typeMarks = priceMarks kNullI32 v.price |||
      (amountMarks v.amount ||| flagIf (aggressorOf v.flag = .kUnknown) kQualityUnknownEnum) := by
    rw [ShanghaiTickValues.typeMarks, htrade]
  have hdecimals : v.decimals =
      priceDecimals 3 v.price ++ (amountDecimals 3 v.amount ++ ([] ++ [])) := by
    rw [ShanghaiTickValues.decimals, htrade, List.append_nil, List.append_nil]
  rw [L2Flow.shanghaiTrade, hmarks, hdecimals]
  refine Computes.then (normalizePrice (by decide) (by decide)) (Computes.then
    (normalizeAmount (by decide))
    (Gives.cast (mark_then (markIf _ _) (result ?_)) BitVec.or_zero rfl))
  simp [htrade, orderIdValidity, not_matched (v := v) (by simp [htrade])]
  ac_rfl

/-- A record of type `S`. -/
theorem shanghaiStatus (hstatus : v.action = .kStatus) (common : CanonicalCommon) :
    Computes (shanghaiStatus v.flag (v.initial common)) (v.tick common) v.typeMarks v.decimals := by
  have hmarks : v.typeMarks = flagIf (parseShPhase v.flag = .kUnknown) kQualityUnknownEnum := by
    rw [ShanghaiTickValues.typeMarks, hstatus]
  have hdecimals : v.decimals = [] := by rw [ShanghaiTickValues.decimals, hstatus]
  rw [L2Flow.shanghaiStatus, hmarks, hdecimals]
  refine Gives.cast (mark_then (markIf _ _) (result ?_)) BitVec.or_zero rfl
  simp [hstatus, not_matched (v := v) (by simp [hstatus])]

/-- What the type of a record decides. -/
theorem shanghaiByType (v : ShanghaiTickValues) (common : CanonicalCommon) :
    Computes (shanghaiByType v.type v.flag (v.initial common)) (v.tick common) v.typeMarks
      v.decimals := by
  have haction : v.action = v.action := rfl
  conv_rhs at haction => rw [ShanghaiTickValues.action]
  rw [L2Flow.shanghaiByType]
  split_ifs at haction ⊢
  · exact shanghaiAdd haction common
  · exact shanghaiCancel haction common
  · exact shanghaiTrade haction common
  · exact shanghaiStatus haction common
  · have hmarks : v.typeMarks = kQualityUnknownEnum := by
      rw [ShanghaiTickValues.typeMarks, haction]
    have hdecimals : v.decimals = [] := by rw [ShanghaiTickValues.decimals, haction]
    rw [hmarks, hdecimals]
    refine Gives.cast (mark_then (mark _) (result ?_)) BitVec.or_zero rfl
    simp [haction, not_matched (v := v) (by simp [haction])]

end Shanghai

end Computes

/-- `DecodeShanghaiTick`, up to the catalog. -/
theorem readShanghaiTick_gives (message : OwnedMessageView) (tradeDate : ℕ)
    (limits : DecoderLimits) :
    let v := shanghaiTickValues message.body
    Gives (readShanghaiTick message tradeDate limits)
      (fun quality => v.tick { v.common message tradeDate with qualityFlags := quality })
      (timeMarks message.header.localTimeRaw ||| v.marks) v.decimals := by
  intro v
  have hmarks : v.marks = flagIf (v.buyOrderId < 0 ∨ v.sellOrderId < 0)
      kQualityInvalidOrderReference ||| (flagIf (v.quantity < 0) kQualityInvalidQuantity |||
        (timeMarks v.exchangeTime ||| (nullMarks kNullI32 v.price |||
          (nullMarks kNullI64 v.amount ||| v.typeMarks)))) := by
    simp only [ShanghaiTickValues.marks, BitVec.or_assoc]
  rw [readShanghaiTick, hmarks]
  refine Computes.next (Computes.require (by decide) _) ?_
  refine Computes.mark_then (Computes.initializeCommon message tradeDate _ _) ?_
  refine Computes.next (Computes.readIdentity _ _ _ _ _ limits _) ?_
  refine Computes.next (Computes.loadI64 (by decide) _) ?_
  refine Computes.next (Computes.require (by decide) _) ?_
  refine Computes.next (Computes.loadI32 (by decide) _) ?_
  refine Computes.next (Computes.require (by decide) _) ?_
  refine Computes.next (Computes.loadI64 (by decide) _) ?_
  refine Computes.next (Computes.loadI64 (by decide) _) ?_
  refine Computes.next (Computes.loadI64 (by decide) _) ?_
  refine Computes.mark_then (Computes.markIf _ _) (Computes.mark_then (Computes.markIf _ _) ?_)
  refine Computes.next (Computes.load (by decide) _ _) ?_
  refine Computes.mark_then (Computes.decodeTime _) ?_
  refine Computes.mark_then (Computes.loadDecimalRaw _ _ (Computes.loadI32 (by decide) _)) ?_
  refine Computes.mark_then (Computes.loadDecimalRaw _ _ (Computes.loadI64 (by decide) _)) ?_
  refine Computes.next (Computes.readText _ _ _ _) (Computes.next (Computes.readText _ _ _ _) ?_)
  refine Gives.cast (Computes.then (Computes.shanghaiByType v (v.common message tradeDate))
    withQuality_gives) BitVec.or_zero (List.append_nil _)

/-! ## Orders of Shenzhen -/

/-- The values of a body of type `Order300192_v2`. -/
def shenzhenOrderValues (body : List UInt8) : ShenzhenOrderValues where
  channel := wire body 4 0
  sequence := signed 64 (wire body 8 4)
  stream := textBytes body 12
  security := textBytes body 18
  source := textBytes body 24
  price := signed 64 (wire body 8 30)
  quantity := signed 64 (wire body 8 38)
  side := signed 32 (wire body 4 46)
  exchangeTime := wire body 4 50
  type := signed 32 (wire body 4 54)

namespace ShenzhenOrderValues

variable (v : ShenzhenOrderValues)

/-- Only a limit order has a price. -/
def priceDecimal : FixedDecimal :=
  if decodeSzOrderType v.type = .kLimit then priceOf kNullI64 4 v.price
  else rawDecimal kNullI64 4 v.price

def bits : ValidBits where
  price := v.priceDecimal.p6Valid
  quantity := decide (0 ≤ v.quantity)
  primaryOrderId := true
  side := decide (decodeSzSide v.side ≠ .kUnknown)
  orderType := decide (decodeSzOrderType v.type ≠ .kUnknown)
  exchangeTime := (timeOf v.exchangeTime).isSome

/-- The tick, for its common part. The order is named by its own position. -/
def tick (common : CanonicalCommon) : CanonicalTick where
  common := common
  price := v.priceDecimal
  quantity := { raw := v.quantity, scale := 0, valid := decide (0 ≤ v.quantity) }
  primaryOrderId := v.sequence
  validity := v.bits.flags
  rawType := v.type
  rawSide := v.side
  action := .kAdd
  side := decodeSzSide v.side
  orderType := decodeSzOrderType v.type

/-- What the body marks. -/
def marks : Flags :=
  flagIf (v.quantity < 0) kQualityInvalidQuantity |||
    (timeMarks v.exchangeTime ||| (nullMarks kNullI64 v.price |||
      (flagIf (decodeSzSide v.side = .kUnknown) kQualityUnknownEnum |||
        (flagIf (decodeSzOrderType v.type = .kUnknown) kQualityUnknownEnum |||
          if decodeSzOrderType v.type = .kLimit then priceMarks kNullI64 v.price else 0))))

def decimals : List Normalised :=
  if decodeSzOrderType v.type = .kLimit then priceDecimals 4 v.price else []

def common (message : OwnedMessageView) (tradeDate : ℕ) : CanonicalCommon :=
  withExchangeTime
    { withIdentity (commonOf message tradeDate .kShenzhen .kShenzhenOrder) .kShenzhen v.stream
        v.source v.security with
      nativeSequence := v.sequence.toNat
      channel := v.channel }
    v.exchangeTime (timeOf v.exchangeTime)

end ShenzhenOrderValues

theorem Computes.normalizeLimit (v : ShenzhenOrderValues) :
    Computes (normalizeLimit (decodeSzOrderType v.type) (rawDecimal kNullI64 4 v.price))
      v.priceDecimal
      (if decodeSzOrderType v.type = .kLimit then priceMarks kNullI64 v.price else 0)
      v.decimals := by
  unfold L2Flow.normalizeLimit ShenzhenOrderValues.priceDecimal ShenzhenOrderValues.decimals
  split_ifs
  · exact normalizePrice (by decide) (by decide)
  · exact pure

/-- `DecodeShenzhenOrder`, up to the catalog. -/
theorem readShenzhenOrder_gives (message : OwnedMessageView) (tradeDate : ℕ)
    (limits : DecoderLimits) :
    let v := shenzhenOrderValues message.body
    Gives (readShenzhenOrder message tradeDate limits)
      (fun quality => v.tick { v.common message tradeDate with qualityFlags := quality })
      (timeMarks message.header.localTimeRaw ||| v.marks) v.decimals := by
  intro v
  rw [readShenzhenOrder]
  refine Computes.next (Computes.require (by decide) _) ?_
  refine Computes.mark_then (Computes.initializeCommon message tradeDate _ _) ?_
  refine Computes.next (Computes.readIdentity _ _ _ _ _ limits _) ?_
  refine Computes.next (Computes.load (by decide) _ _) ?_
  refine Computes.next (Computes.loadI64 (by decide) _) ?_
  refine Computes.next (Computes.require (by decide) _) ?_
  refine Computes.next (Computes.loadI64 (by decide) _) ?_
  refine Computes.next (Computes.loadI32 (by decide) _) ?_
  refine Computes.next (Computes.loadI32 (by decide) _) ?_
  refine Computes.mark_then (Computes.markIf _ _) ?_
  refine Computes.next (Computes.load (by decide) _ _) ?_
  refine Computes.mark_then (Computes.decodeTime _) ?_
  refine Computes.mark_then (Computes.loadDecimalRaw _ _ (Computes.loadI64 (by decide) _)) ?_
  refine Computes.mark_then (Computes.markIf _ _) (Computes.mark_then (Computes.markIf _ _) ?_)
  refine Gives.cast (Computes.then (Computes.normalizeLimit v)
    (withQuality_gives.value ?_)) BitVec.or_zero (List.append_nil _)
  intro quality
  have hprice : (decodeSzOrderType v.type = .kLimit ∧ v.priceDecimal.p6Valid = true) ↔
      v.priceDecimal.p6Valid = true := by
    refine and_iff_right_of_imp fun hvalid => ?_
    by_contra hother
    rw [ShenzhenOrderValues.priceDecimal, if_neg hother] at hvalid
    cases hvalid
  have hvalidity : kTickChannelHistoryValid ||| kTickPrimaryOrderIdValid |||
      flagIf (0 ≤ v.quantity) kTickQuantityValid |||
      flagIf ((timeOf v.exchangeTime).isSome = true) kTickExchangeTimeValid |||
      flagIf (decodeSzSide v.side ≠ .kUnknown) kTickSideValid |||
      flagIf (decodeSzOrderType v.type ≠ .kUnknown) kTickOrderTypeValid |||
      flagIf (decodeSzOrderType v.type = .kLimit ∧ v.priceDecimal.p6Valid = true)
        kTickPriceValid = v.bits.flags := by
    simp [ShenzhenOrderValues.bits, ValidBits.flags, flagIf, hprice]
    ac_rfl
  exact congrArg (fun validity => { v.tick { v.common message tradeDate with
    qualityFlags := quality } with validity := validity }) hvalidity

/-! ## Transactions of Shenzhen -/

/-- The values of a body of type `Transaction300191_v2`. -/
def shenzhenTransactionValues (body : List UInt8) : ShenzhenTransactionValues where
  channel := wire body 4 0
  sequence := signed 64 (wire body 8 4)
  stream := textBytes body 12
  buyOrderId := signed 64 (wire body 8 18)
  sellOrderId := signed 64 (wire body 8 26)
  security := textBytes body 34
  source := textBytes body 40
  price := signed 64 (wire body 8 46)
  quantity := signed 64 (wire body 8 54)
  type := signed 32 (wire body 4 62)
  exchangeTime := wire body 4 66

namespace ShenzhenTransactionValues

variable (v : ShenzhenTransactionValues)

def action : TickAction :=
  if v.type = 70 then .kTrade else if v.type = 52 then .kCancel else .kUnknown

/-- A cancellation names an order on one side only. -/
def Named : Prop :=
  v.action = .kCancel ∧ ¬(0 < v.buyOrderId ↔ 0 < v.sellOrderId)

instance : Decidable v.Named :=
  inferInstanceAs (Decidable (_ ∧ _))

def side : Side :=
  if v.Named then if 0 < v.buyOrderId then .kBuy else .kSell else .kUnknown

def primaryOrderId : ℤ :=
  if v.Named then if 0 < v.buyOrderId then v.buyOrderId else v.sellOrderId else 0

/-- Only an execution has a price. -/
def priceDecimal : FixedDecimal :=
  match v.action with
  | .kTrade => priceOf kNullI64 4 v.price
  | _ => rawDecimal kNullI64 4 v.price

def quantityInteger : ScaledInteger where
  raw := v.quantity
  scale := 0
  valid := decide (v.action ≠ .kUnknown ∧ 0 ≤ v.quantity)

def bits : ValidBits where
  price := v.priceDecimal.p6Valid
  quantity := v.quantityInteger.valid
  primaryOrderId := decide v.Named
  buyOrderId := decide (v.action ≠ .kUnknown ∧ 0 < v.buyOrderId)
  sellOrderId := decide (v.action ≠ .kUnknown ∧ 0 < v.sellOrderId)
  side := decide v.Named
  exchangeTime := (timeOf v.exchangeTime).isSome

/-- The tick, for its common part. -/
def tick (common : CanonicalCommon) : CanonicalTick where
  common := common
  price := v.priceDecimal
  quantity := v.quantityInteger
  primaryOrderId := v.primaryOrderId
  buyOrderId := v.buyOrderId
  sellOrderId := v.sellOrderId
  validity := v.bits.flags
  rawType := v.type
  action := v.action
  side := v.side

/-- What the type of the transaction decides to mark. -/
def typeMarks : Flags :=
  match v.action with
  | .kTrade => priceMarks kNullI64 v.price
  | .kCancel => flagIf (¬v.Named) kQualityAmbiguousOrderReference
  | _ => kQualityUnknownEnum

/-- What the body marks. -/
def marks : Flags :=
  flagIf (v.buyOrderId < 0 ∨ v.sellOrderId < 0) kQualityInvalidOrderReference |||
    (flagIf (v.quantity < 0) kQualityInvalidQuantity ||| (timeMarks v.exchangeTime |||
      (nullMarks kNullI64 v.price ||| v.typeMarks)))

def decimals : List Normalised :=
  match v.action with
  | .kTrade => priceDecimals 4 v.price
  | _ => []

def common (message : OwnedMessageView) (tradeDate : ℕ) : CanonicalCommon :=
  withExchangeTime
    { withIdentity (commonOf message tradeDate .kShenzhen .kShenzhenTransaction) .kShenzhen
        v.stream v.source v.security with
      nativeSequence := v.sequence.toNat
      channel := v.channel }
    v.exchangeTime (timeOf v.exchangeTime)

/-- The tick before its type is looked at. -/
def initial (common : CanonicalCommon) : CanonicalTick where
  common := common
  price := rawDecimal kNullI64 4 v.price
  quantity := { raw := v.quantity, scale := 0, valid := decide (0 ≤ v.quantity) }
  buyOrderId := v.buyOrderId
  sellOrderId := v.sellOrderId
  validity := kTickChannelHistoryValid |||
    flagIf ((timeOf v.exchangeTime).isSome = true) kTickExchangeTimeValid
  rawType := v.type

end ShenzhenTransactionValues

namespace Computes

section Shenzhen

attribute [local simp] ShenzhenTransactionValues.tick ShenzhenTransactionValues.initial
  ShenzhenTransactionValues.bits ShenzhenTransactionValues.priceDecimal
  ShenzhenTransactionValues.quantityInteger ShenzhenTransactionValues.side
  ShenzhenTransactionValues.primaryOrderId ValidBits.flags flagIf orderIdValidity rawDecimal

variable {v : ShenzhenTransactionValues}

theorem shenzhenTrade (htrade : v.action = .kTrade) (common : CanonicalCommon) :
    Computes (shenzhenTrade (v.initial common)) (v.tick common) v.typeMarks v.decimals := by
  have hnamed : ¬v.Named := fun h => absurd (htrade.symm.trans h.1) (by decide)
  have hmarks : v.typeMarks = priceMarks kNullI64 v.price := by
    rw [ShenzhenTransactionValues.typeMarks, htrade]
  have hdecimals : v.decimals = priceDecimals 4 v.price ++ [] := by
    rw [ShenzhenTransactionValues.decimals, htrade, List.append_nil]
  rw [L2Flow.shenzhenTrade, hmarks, hdecimals]
  refine Gives.cast (Computes.then (normalizePrice (by decide) (by decide)) (result ?_))
    BitVec.or_zero rfl
  simp [htrade, hnamed]
  ac_rfl

theorem shenzhenCancel (hcancel : v.action = .kCancel) (common : CanonicalCommon) :
    Computes (shenzhenCancel (v.initial common)) (v.tick common) v.typeMarks v.decimals := by
  have hmarks : v.typeMarks = flagIf (¬v.Named) kQualityAmbiguousOrderReference := by
    rw [ShenzhenTransactionValues.typeMarks, hcancel]
  have hdecimals : v.decimals = [] := by rw [ShenzhenTransactionValues.decimals, hcancel]
  rw [L2Flow.shenzhenCancel, hmarks, hdecimals]
  refine Gives.ite (fun hone => ?_) fun hboth => ?_
  · have hnamed : v.Named := ⟨hcancel, fun hiff => hone (decide_eq_decide.2 hiff)⟩
    refine Gives.cast (result ?_) (if_neg (not_not.2 hnamed)).symm rfl
    simp [hcancel, hnamed]
    ac_rfl
  · have hnamed : ¬v.Named := fun h => h.2 (decide_eq_decide.1 (not_not.1 hboth))
    refine Gives.cast (mark_then (mark _) (result ?_))
      (BitVec.or_zero.trans (if_pos hnamed).symm) rfl
    simp [hcancel, hnamed]
    ac_rfl

/-- What the type of a transaction decides. -/
theorem shenzhenByType (v : ShenzhenTransactionValues) (common : CanonicalCommon) :
    Computes (shenzhenByType (v.initial common)) (v.tick common) v.typeMarks v.decimals := by
  have haction : v.action = v.action := rfl
  conv_rhs at haction => rw [ShenzhenTransactionValues.action]
  rw [L2Flow.shenzhenByType]
  change Computes (if v.type = 70 then _ else if v.type = 52 then _ else _) _ _ _
  split_ifs at haction ⊢
  · exact shenzhenTrade haction common
  · exact shenzhenCancel haction common
  · have hnamed : ¬v.Named := fun h => absurd (haction.symm.trans h.1) (by decide)
    have hmarks : v.typeMarks = kQualityUnknownEnum := by
      rw [ShenzhenTransactionValues.typeMarks, haction]
    have hdecimals : v.decimals = [] := by rw [ShenzhenTransactionValues.decimals, haction]
    rw [hmarks, hdecimals]
    refine Gives.cast (mark_then (mark _) (result ?_)) BitVec.or_zero rfl
    simp [haction, hnamed]

end Shenzhen

end Computes

/-- `DecodeShenzhenTransaction`, up to the catalog. -/
theorem readShenzhenTransaction_gives (message : OwnedMessageView) (tradeDate : ℕ)
    (limits : DecoderLimits) :
    let v := shenzhenTransactionValues message.body
    Gives (readShenzhenTransaction message tradeDate limits)
      (fun quality => v.tick { v.common message tradeDate with qualityFlags := quality })
      (timeMarks message.header.localTimeRaw ||| v.marks) v.decimals := by
  intro v
  rw [readShenzhenTransaction]
  refine Computes.next (Computes.require (by decide) _) ?_
  refine Computes.mark_then (Computes.initializeCommon message tradeDate _ _) ?_
  refine Computes.next (Computes.readIdentity _ _ _ _ _ limits _) ?_
  refine Computes.next (Computes.load (by decide) _ _) ?_
  refine Computes.next (Computes.loadI64 (by decide) _) ?_
  refine Computes.next (Computes.require (by decide) _) ?_
  refine Computes.next (Computes.loadI64 (by decide) _) ?_
  refine Computes.next (Computes.loadI64 (by decide) _) ?_
  refine Computes.next (Computes.loadI64 (by decide) _) ?_
  refine Computes.next (Computes.loadI32 (by decide) _) ?_
  refine Computes.mark_then (Computes.markIf _ _) (Computes.mark_then (Computes.markIf _ _) ?_)
  refine Computes.next (Computes.load (by decide) _ _) ?_
  refine Computes.mark_then (Computes.decodeTime _) ?_
  refine Computes.mark_then (Computes.loadDecimalRaw _ _ (Computes.loadI64 (by decide) _)) ?_
  exact Gives.cast (Computes.then (Computes.shenzhenByType v (v.common message tradeDate))
    withQuality_gives) BitVec.or_zero (List.append_nil _)

/-! ## The entry -/

/-- The tick of a message, for the quality of its common part. -/
def tickOf (message : OwnedMessageView) (tradeDate : ℕ) (quality : Flags) : CanonicalTick :=
  match classifyMessage message.header.key with
  | .kShenzhenOrder =>
    let v := shenzhenOrderValues message.body
    v.tick { v.common message tradeDate with qualityFlags := quality }
  | .kShenzhenTransaction =>
    let v := shenzhenTransactionValues message.body
    v.tick { v.common message tradeDate with qualityFlags := quality }
  | _ =>
    let v := shanghaiTickValues message.body
    v.tick { v.common message tradeDate with qualityFlags := quality }

/-- What the body of a message marks. -/
def tickMarks (message : OwnedMessageView) : Flags :=
  match classifyMessage message.header.key with
  | .kShenzhenOrder => (shenzhenOrderValues message.body).marks
  | .kShenzhenTransaction => (shenzhenTransactionValues message.body).marks
  | _ => (shanghaiTickValues message.body).marks

/-- The decimals of a message that are normalised. -/
def tickDecimals (message : OwnedMessageView) : List Normalised :=
  match classifyMessage message.header.key with
  | .kShanghaiTick => (shanghaiTickValues message.body).decimals
  | .kShenzhenOrder => (shenzhenOrderValues message.body).decimals
  | .kShenzhenTransaction => (shenzhenTransactionValues message.body).decimals
  | _ => []

theorem readTick_gives (message : OwnedMessageView) (tradeDate : ℕ) (limits : DecoderLimits) :
    Gives (readTick message tradeDate limits) (tickOf message tradeDate)
      (timeMarks message.header.localTimeRaw ||| tickMarks message) (tickDecimals message) := by
  unfold readTick tickOf tickMarks tickDecimals
  rcases classifyMessage message.header.key with - | - | - | - | - | -
  · exact Gives.throw (by decide)
  · exact readShanghaiTick_gives message tradeDate limits
  · exact Gives.throw (by decide)
  · exact readShenzhenOrder_gives message tradeDate limits
  · exact readShenzhenTransaction_gives message tradeDate limits
  · exact Gives.throw (by decide)

/-- What `DecodeTick` ends with. -/
theorem decodeTick_gives (grows : ℕ → Bool) (message : OwnedMessageView) (tradeDate : ℕ)
    (limits : DecoderLimits) (catalog : InstrumentCatalog) :
    Ends (decodeTick grows message tradeDate limits catalog)
      (fun result _ => result = applyTickCatalog catalog (tickOf message tradeDate
          (timeMarks message.header.localTimeRaw ||| tickMarks message)) ∧
        ∀ decimal ∈ tickDecimals message, decimal.Fits)
      (fun e _ => e = .kFixedPointOverflow → ∃ decimal ∈ tickDecimals message, ¬decimal.Fits) := by
  rw [decodeTick]
  split_ifs
  · exact fun he => by simp at he
  · exact (readTick_gives message tradeDate limits).ends (applyTickCatalog catalog) _ rfl

/-- Only messages of ticks are decoded to ticks. -/
theorem decodeTick_class {grows : ℕ → Bool} {message : OwnedMessageView} {tradeDate : ℕ}
    {limits : DecoderLimits} {catalog : InstrumentCatalog} {result : TickDecodeResult} {s : Scan}
    (h : decodeTick grows message tradeDate limits catalog = .ok result s) :
    classifyMessage message.header.key = .kShanghaiTick ∨
      classifyMessage message.header.key = .kShenzhenOrder ∨
        classifyMessage message.header.key = .kShenzhenTransaction := by
  rw [decodeTick] at h
  split_ifs at h
  rw [readTick] at h
  split at h
  · next hclass => exact Or.inl hclass
  · next hclass => exact Or.inr (Or.inl hclass)
  · next hclass => exact Or.inr (Or.inr hclass)
  · cases h

end L2Flow
