import Mathlib.Algebra.Group.Nat.Defs
import Mathlib.Data.Nat.Notation
import Mathlib.Data.Int.Notation
import Mathlib.Logic.Basic

/-!
# Canonical records

The records of `canonical.h` : the canonical tick and snapshot, the gap, late-recovery and
fault records, and the decoder's results. Signed fields are integers, unsigned fields and
counters are naturals, bit fields are 64-bit vectors, byte arrays have the fixed length of
the source. `canonicalPayloadEqual` is the comparison that tells a retransmission from a
conflict.
-/

namespace L2Flow

/-- `std::numeric_limits<std::uint64_t>::max()`. -/
def uint64Max : ℕ := 2 ^ 64 - 1

def kMaximumIdentityBytes : ℕ := 32

def kInvalidInstrumentOrdinal : ℕ := 2 ^ 32 - 1

/-! ## Enumerations -/

inductive StartMode where
  | kFromOpen
  | kPartial
  deriving DecidableEq, Repr

inductive Market where
  | kUnknown
  | kShanghai
  | kShenzhen
  deriving DecidableEq, Repr

/-- The enumerator's value, as `static_cast<std::uint64_t>(market)` reads it. -/
def Market.value : Market → ℕ
  | .kUnknown => 0
  | .kShanghai => 1
  | .kShenzhen => 2

inductive CanonicalKind where
  | kShanghaiTick
  | kShenzhenOrder
  | kShenzhenTransaction
  | kShanghaiSnapshot
  | kShenzhenSnapshot
  deriving DecidableEq, Repr

inductive TickAction where
  | kUnknown
  | kAdd
  | kCancel
  | kTrade
  | kStatus
  deriving DecidableEq, Repr

inductive Side where
  | kUnknown
  | kBuy
  | kSell
  | kBorrow
  | kLend
  deriving DecidableEq, Repr

inductive Aggressor where
  | kUnknown
  | kBuy
  | kSell
  | kNeutral
  deriving DecidableEq, Repr

inductive OrderType where
  | kUnknown
  | kMarket
  | kLimit
  | kSameSideBest
  deriving DecidableEq, Repr

inductive TradingPhase where
  | kUnknown
  | kStart
  | kOpeningCall
  | kContinuous
  | kSuspended
  | kClosingCall
  | kClosed
  | kEnded
  deriving DecidableEq, Repr

/-! ## Bit fields -/

abbrev Flags := BitVec 64

def kQualityNullSourceValue : Flags := 1#64 <<< 0

def kQualityInvalidTime : Flags := 1#64 <<< 1

def kQualityInvalidQuantity : Flags := 1#64 <<< 2

def kQualityInvalidPrice : Flags := 1#64 <<< 3

def kQualityUnknownEnum : Flags := 1#64 <<< 4

def kQualityAmbiguousOrderReference : Flags := 1#64 <<< 5

def kQualityDepthTruncated : Flags := 1#64 <<< 6

def kQualityInstrumentNotInCatalog : Flags := 1#64 <<< 7

def kQualitySequenceGapBefore : Flags := 1#64 <<< 8

def kQualityChannelHistoryIncomplete : Flags := 1#64 <<< 9

def kQualityInvalidAmount : Flags := 1#64 <<< 10

def kQualityInvalidOrderReference : Flags := 1#64 <<< 11

def kQualityNonIntegralMatchedQuantity : Flags := 1#64 <<< 12

def kQualityLateRecovery : Flags := 1#64 <<< 13

def kTickPriceValid : Flags := 1#64 <<< 0

def kTickQuantityValid : Flags := 1#64 <<< 1

def kTickAmountValid : Flags := 1#64 <<< 2

def kTickPrimaryOrderIdValid : Flags := 1#64 <<< 3

def kTickBuyOrderIdValid : Flags := 1#64 <<< 4

def kTickSellOrderIdValid : Flags := 1#64 <<< 5

def kTickSideValid : Flags := 1#64 <<< 6

def kTickAggressorValid : Flags := 1#64 <<< 7

def kTickOrderTypeValid : Flags := 1#64 <<< 8

def kTickExchangeTimeValid : Flags := 1#64 <<< 9

def kTickPhaseValid : Flags := 1#64 <<< 10

def kTickMatchedQuantityValid : Flags := 1#64 <<< 11

/-- Cleared on every PARTIAL output and on everything after a committed gap. -/
def kTickChannelHistoryValid : Flags := 1#64 <<< 12

/-- Some bit of `mask` is set in `flags` : `(flags & mask) != 0`. -/
def Flags.has (flags mask : Flags) : Bool :=
  flags &&& mask != 0

@[simp] theorem Flags.has_clear (flags mask : Flags) :
    Flags.has (flags &&& ~~~mask) mask = false := by
  simp [Flags.has, BitVec.and_assoc]

theorem Flags.has_or (flags other mask : Flags) :
    Flags.has (flags ||| other) mask = (Flags.has flags mask || Flags.has other mask) := by
  have hd : (flags ||| other) &&& mask = (flags &&& mask) ||| (other &&& mask) :=
    BitVec.and_or_distrib_right
  rw [Bool.eq_iff_iff]
  simp [Flags.has, hd, BitVec.or_eq_zero_iff, imp_iff_not_or]

/-! ## Records -/

structure MessageKey where
  serviceId : ℕ := 0
  serviceVersion : ℕ := 0
  messageId : ℕ := 0
  deriving DecidableEq, Repr

/-- `std::array<std::byte, kMaximumIdentityBytes>`. -/
abbrev IdentityBytes := Vector UInt8 kMaximumIdentityBytes

/-- A zeroed array into which a text has been copied. -/
def identityBytes (source : List UInt8) : IdentityBytes :=
  Vector.ofFn fun i => source.getD i 0

/-- A text that fits is read back from the array. -/
theorem take_identityBytes {source : List UInt8} (h : source.length ≤ kMaximumIdentityBytes) :
    (identityBytes source).toList.take source.length = source := by
  refine List.ext_getElem ?_ fun i hi hi' => ?_
  · simp [h]
  · simp [identityBytes, hi']

structure ExactIdentity where
  market : Market := .kUnknown
  securityIdSourceSize : ℕ := 0
  securityIdSize : ℕ := 0
  securityIdSource : IdentityBytes := Vector.replicate _ 0
  securityId : IdentityBytes := Vector.replicate _ 0
  deriving DecidableEq, Repr

structure FixedDecimal where
  raw : ℤ := 0
  p6 : ℤ := 0
  sourceScale : ℕ := 0
  rawValid : Bool := false
  p6Valid : Bool := false
  deriving DecidableEq, Repr

structure ScaledInteger where
  raw : ℤ := 0
  scale : ℕ := 0
  valid : Bool := false
  deriving DecidableEq, Repr

structure CanonicalCommon where
  ingressSequence : ℕ := 0
  vendorSequenceId : ℕ := 0
  receiveMonotonicNs : ℕ := 0
  nativeSequence : ℕ := 0
  exchangeTimeNsFromMidnight : ℕ := 0
  vendorLocalTimeNsFromMidnight : ℕ := 0
  qualityFlags : Flags := 0
  gapEpoch : ℕ := 0
  gapBeforeFirst : ℕ := 0
  gapBeforeLast : ℕ := 0
  tradeDate : ℕ := 0
  instrumentId : ℕ := 0
  instrumentOrdinal : ℕ := kInvalidInstrumentOrdinal
  channel : ℕ := 0
  exchangeTimeRaw : ℕ := 0
  vendorLocalTimeRaw : ℕ := 0
  exchangeTimeValid : Bool := false
  vendorLocalTimeValid : Bool := false
  messageKey : MessageKey := {}
  kind : CanonicalKind := .kShanghaiTick
  identity : ExactIdentity := {}
  mdStreamIdSize : ℕ := 0
  mdStreamId : IdentityBytes := Vector.replicate _ 0
  deriving DecidableEq, Repr

structure CanonicalTick where
  common : CanonicalCommon := {}
  price : FixedDecimal := {}
  amount : FixedDecimal := {}
  quantity : ScaledInteger := {}
  primaryOrderId : ℤ := 0
  buyOrderId : ℤ := 0
  sellOrderId : ℤ := 0
  shAddMatchedQuantityRaw : ℤ := 0
  validity : Flags := kTickChannelHistoryValid
  rawType : ℤ := 0
  rawSide : ℤ := 0
  action : TickAction := .kUnknown
  side : Side := .kUnknown
  aggressor : Aggressor := .kUnknown
  orderType : OrderType := .kUnknown
  phase : TradingPhase := .kUnknown
  deriving DecidableEq, Repr

def kCanonicalBookDepth : ℕ := 10

structure CanonicalBookLevel where
  price : FixedDecimal := {}
  quantity : ScaledInteger := {}
  sourceOrderCount : ℕ := 0
  orderCountValid : Bool := false
  deriving DecidableEq, Repr

/-- `std::array<CanonicalBookLevel, kCanonicalBookDepth>`. -/
abbrev BookLevels := Vector CanonicalBookLevel kCanonicalBookDepth

structure CanonicalSnapshot where
  common : CanonicalCommon := {}
  previousClose : FixedDecimal := {}
  open_ : FixedDecimal := {}
  high : FixedDecimal := {}
  low : FixedDecimal := {}
  last : FixedDecimal := {}
  close : FixedDecimal := {}
  turnover : FixedDecimal := {}
  volume : ScaledInteger := {}
  totalBidQuantity : ScaledInteger := {}
  totalAskQuantity : ScaledInteger := {}
  weightedAverageBid : FixedDecimal := {}
  weightedAverageAsk : FixedDecimal := {}
  tradeCount : ℕ := 0
  tradeCountValid : Bool := false
  imageStatus : ℤ := 0
  imageStatusValid : Bool := false
  instrumentStatusCodeSize : ℕ := 0
  instrumentStatusCode : IdentityBytes := Vector.replicate _ 0
  tradingPhaseCodeSize : ℕ := 0
  tradingPhaseCode : IdentityBytes := Vector.replicate _ 0
  sourceBidDepth : ℕ := 0
  sourceAskDepth : ℕ := 0
  retainedBidDepth : ℕ := 0
  retainedAskDepth : ℕ := 0
  bids : BookLevels := Vector.replicate _ {}
  asks : BookLevels := Vector.replicate _ {}
  deriving DecidableEq, Repr

structure ChannelGap where
  market : Market := .kUnknown
  channel : ℕ := 0
  firstMissing : ℕ := 0
  lastMissing : ℕ := 0
  firstPresentAfterGap : ℕ := 0
  detectedMonotonicNs : ℕ := 0
  gapEpoch : ℕ := 0
  cumulativeMissingSequences : ℕ := 0
  deriving DecidableEq, Repr

inductive LateRecoveryReason where
  | kBehindCommittedFrontier
  | kPendingCanonicalConflict
  deriving DecidableEq, Repr

structure LateRecoveryTick where
  tick : CanonicalTick := {}
  committedNextSequence : ℕ := 0
  observedGapEpoch : ℕ := 0
  reason : LateRecoveryReason := .kBehindCommittedFrontier
  catalogMatch : Bool := false
  deriving DecidableEq, Repr

inductive ChannelFaultReason where
  | kCanonicalConflict
  | kDecodeFailure
  deriving DecidableEq, Repr

structure ChannelFault where
  market : Market := .kUnknown
  reason : ChannelFaultReason := .kCanonicalConflict
  channel : ℕ := 0
  expectedSequence : ℕ := 0
  observedSequence : ℕ := 0
  detectedMonotonicNs : ℕ := 0
  deriving DecidableEq, Repr

/-! ## The decoder's result -/

/-- `internal::TickDecodeResult` : a canonical tick, and whether the catalog has it. -/
structure TickDecodeResult where
  tick : CanonicalTick := {}
  catalogMatch : Bool := false
  deriving DecidableEq, Repr

/-- `internal::SnapshotDecodeResult`. -/
structure SnapshotDecodeResult where
  snapshot : CanonicalSnapshot := {}
  catalogMatch : Bool := false
  deriving DecidableEq, Repr

/-- The native position of a decoded record on its channel. -/
def TickDecodeResult.nativeSequence (decoded : TickDecodeResult) : ℕ :=
  decoded.tick.common.nativeSequence

/-- A result `DecodeTick` returns with `kNone` : the native sequence is a positive
signed 64-bit value, and the history bit the tick is built with is never cleared. -/
structure DecodedTick extends TickDecodeResult where
  native_pos : 0 < toTickDecodeResult.nativeSequence
  native_lt : toTickDecodeResult.nativeSequence < 2 ^ 63
  history_valid : Flags.has tick.validity kTickChannelHistoryValid = true

/-- The key of a channel : its market and number. -/
structure ChannelKey where
  market : Market
  channel : ℕ
  deriving DecidableEq, Repr

/-- The channel a record is processed on. -/
def TickDecodeResult.key (decoded : TickDecodeResult) : ChannelKey :=
  ⟨decoded.tick.common.identity.market, decoded.tick.common.channel⟩

/-! ## Comparing two projections of one native position -/

def identityEqual (left right : ExactIdentity) : Bool :=
  left.market == right.market &&
    left.securityIdSourceSize == right.securityIdSourceSize &&
    left.securityIdSize == right.securityIdSize &&
    left.securityIdSource == right.securityIdSource &&
    left.securityId == right.securityId

def decimalEqual (left right : FixedDecimal) : Bool :=
  left.raw == right.raw && left.sourceScale == right.sourceScale &&
    left.rawValid == right.rawValid

def quantityEqual (left right : ScaledInteger) : Bool :=
  left.raw == right.raw && left.scale == right.scale && left.valid == right.valid

def canonicalPayloadEqual (left right : CanonicalTick) : Bool :=
  left.common.messageKey == right.common.messageKey &&
    left.common.kind == right.common.kind &&
    left.common.channel == right.common.channel &&
    left.common.nativeSequence == right.common.nativeSequence &&
    left.common.exchangeTimeRaw == right.common.exchangeTimeRaw &&
    identityEqual left.common.identity right.common.identity &&
    decimalEqual left.price right.price &&
    decimalEqual left.amount right.amount &&
    quantityEqual left.quantity right.quantity &&
    left.primaryOrderId == right.primaryOrderId &&
    left.buyOrderId == right.buyOrderId &&
    left.sellOrderId == right.sellOrderId &&
    left.shAddMatchedQuantityRaw == right.shAddMatchedQuantityRaw &&
    left.rawType == right.rawType &&
    left.rawSide == right.rawSide && left.action == right.action &&
    left.side == right.side && left.aggressor == right.aggressor &&
    left.orderType == right.orderType && left.phase == right.phase

end L2Flow
