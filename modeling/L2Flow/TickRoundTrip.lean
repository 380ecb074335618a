import L2Flow.Layout

/-!
# Ticks are read back as they were written

A header that is written field by field is parsed to the same fields (`parse_headerBytes`).
For each of the three tick layouts, the values of a record, a body they are laid out in, and
what the decoded tick must carry of them : whatever the layout does with the places of the
texts and the bytes between them, the decoder returns the values, unless a decimal that it
normalises does not fit (`tick_round_trip`).
-/

namespace L2Flow

open LittleEndian (bytes signed unsigned)

/-! ## Headers -/

/-- The fields of a header are in the ranges of their types. -/
structure ParsedHeader.Ok (header : ParsedHeader) : Prop where
  headSize : header.headSize < 256 ^ 1
  messageSize : header.messageSize < 256 ^ 4
  encoding : header.encoding < 256 ^ 1
  serviceId : header.key.serviceId < 256 ^ 1
  serviceVersion : header.key.serviceVersion < 256 ^ 2
  messageId : header.key.messageId < 256 ^ 2
  localTimeRaw : header.localTimeRaw < 256 ^ 4
  vendorSequenceId : header.vendorSequenceId < 256 ^ 8

/-- The 23 bytes of a header. -/
def headerBytes (header : ParsedHeader) : List UInt8 :=
  bytes 1 header.headSize ++ (bytes 4 header.messageSize ++ (bytes 1 header.encoding ++
    (bytes 1 header.key.serviceId ++ (bytes 2 header.key.serviceVersion ++
      (bytes 2 header.key.messageId ++ (bytes 4 header.localTimeRaw ++
        bytes 8 header.vendorSequenceId))))))

theorem length_headerBytes (header : ParsedHeader) :
    (headerBytes header).length = kMdlHeaderBytes := by
  simp [headerBytes, kMdlHeaderBytes]

theorem parse_headerBytes {header : ParsedHeader} (h : header.Ok) :
    parseMdlHeader (headerBytes header) = some header := by
  have hall : Bytes.At (headerBytes header) 0 (headerBytes header) := ⟨[], [], by simp, rfl⟩
  obtain ⟨hheadSize, hrest⟩ := Bytes.At.append hall
  obtain ⟨hmessageSize, hrest⟩ := hrest.append
  obtain ⟨hencoding, hrest⟩ := hrest.append
  obtain ⟨hserviceId, hrest⟩ := hrest.append
  obtain ⟨hserviceVersion, hrest⟩ := hrest.append
  obtain ⟨hmessageId, hrest⟩ := hrest.append
  obtain ⟨hlocalTime, hvendorSequence⟩ := hrest.append
  simp only [LittleEndian.length_bytes, Nat.zero_add, Nat.reduceAdd] at *
  rw [parseMdlHeader_of_le (length_headerBytes header).ge]
  simp only [wire, hheadSize.value h.headSize, hmessageSize.value h.messageSize,
    hencoding.value h.encoding, hserviceId.value h.serviceId,
    hserviceVersion.value h.serviceVersion, hmessageId.value h.messageId,
    hlocalTime.value h.localTimeRaw, hvendorSequence.value h.vendorSequenceId]

/-! ## What a record keeps of the wire -/

/-- What a decimal keeps of the wire. -/
def decimalWire (value : FixedDecimal) : ℤ × ℕ × Bool :=
  (value.raw, value.sourceScale, value.rawValid)

/-- What a tick keeps of the wire : the common part, the decimals and the quantity before they
are judged, the orders and the codes. -/
def tickWire (tick : CanonicalTick) :
    CanonicalCommon × (ℤ × ℕ × Bool) × (ℤ × ℕ × Bool) × (ℤ × ℕ) × (ℤ × ℤ) × (ℤ × ℤ) :=
  (tick.common, decimalWire tick.price, decimalWire tick.amount,
    (tick.quantity.raw, tick.quantity.scale), (tick.buyOrderId, tick.sellOrderId),
    (tick.rawType, tick.rawSide))

/-- Normalising a decimal keeps what it was read from. -/
theorem decimalWire_inMillionths (value : FixedDecimal) :
    decimalWire (inMillionths value) = decimalWire value := by
  rw [inMillionths]
  split_ifs
  · rfl
  · rfl

namespace Yields

/-- A price that fits, if it is normalised. -/
theorem normalizePrice {price : FixedDecimal} (hscale : price.sourceScale ≤ 6)
    (hfits : 0 < price.raw → Fits price.sourceScale price.raw) :
    Yields (normalizePrice price) [] fun value => decimalWire value = decimalWire price := by
  refine ite (fun hpos => ?_) fun _ => (markIf _ _).next fun _ _ => pure rfl
  refine (normalizeP6 hscale fun _ => hfits hpos.2).mono fun value hvalue => ?_
  rw [hvalue, decimalWire_inMillionths]

theorem normalizeAmount {amount : FixedDecimal} (hscale : amount.sourceScale ≤ 6)
    (hfits : amount.rawValid = true → 0 ≤ amount.raw → Fits amount.sourceScale amount.raw) :
    Yields (normalizeAmount amount) [] fun value => decimalWire value = decimalWire amount := by
  refine ite (fun hpos => ?_) fun _ => (markIf _ _).next fun _ _ => pure rfl
  refine (normalizeP6 hscale fun _ => hfits hpos.1 hpos.2).mono fun value hvalue => ?_
  rw [hvalue, decimalWire_inMillionths]

theorem normalizeLimit {orderType : OrderType} {price : FixedDecimal}
    (hscale : price.sourceScale ≤ 6)
    (hfits : orderType = .kLimit → 0 < price.raw → Fits price.sourceScale price.raw) :
    Yields (normalizeLimit orderType price) [] fun value =>
      decimalWire value = decimalWire price :=
  ite (fun hlimit => normalizePrice hscale (hfits hlimit)) fun _ => pure rfl

theorem setOrderSide (flag : List UInt8) (tick : CanonicalTick) :
    Yields (setOrderSide flag tick) [] fun tick' => tickWire tick' = tickWire tick := by
  rw [L2Flow.setOrderSide]
  refine ite (fun _ => pure rfl) fun _ => ite (fun _ => pure rfl) fun _ => ?_
  exact (mark _).next fun _ _ => pure rfl

theorem shanghaiAdd {flag : List UInt8} {tick : CanonicalTick}
    (hscale : tick.price.sourceScale ≤ 6)
    (hfits : 0 < tick.price.raw → Fits tick.price.sourceScale tick.price.raw) :
    Yields (shanghaiAdd flag tick) [] fun tick' => tickWire tick' = tickWire tick := by
  rw [L2Flow.shanghaiAdd]
  refine (normalizePrice hscale hfits).next fun price hprice => ?_
  refine (setOrderSide flag _).next fun tick' htick => ?_
  have hsame : tickWire tick' = tickWire tick := htick.trans (by simp [tickWire, hprice])
  refine ite (fun _ => pure hsame) fun _ => ?_
  exact (markIf _ _).next fun _ _ => (markIf _ _).next fun _ _ => pure hsame

theorem shanghaiTrade {flag : List UInt8} {tick : CanonicalTick}
    (hprice : tick.price.sourceScale ≤ 6) (hamount : tick.amount.sourceScale ≤ 6)
    (hfits : 0 < tick.price.raw → Fits tick.price.sourceScale tick.price.raw)
    (hfits' : tick.amount.rawValid = true → 0 ≤ tick.amount.raw →
      Fits tick.amount.sourceScale tick.amount.raw) :
    Yields (shanghaiTrade flag tick) [] fun tick' => tickWire tick' = tickWire tick := by
  rw [L2Flow.shanghaiTrade]
  refine (normalizePrice hprice hfits).next fun price hprice => ?_
  refine (normalizeAmount hamount hfits').next fun amount hamount => ?_
  exact (markIf _ _).next fun _ _ => pure (by simp [tickWire, hprice, hamount])

/-- Only a trade normalises an amount. -/
theorem shanghaiByType {type flag : List UInt8} {tick : CanonicalTick}
    (hprice : tick.price.sourceScale ≤ 6) (hamount : tick.amount.sourceScale ≤ 6)
    (hfits : 0 < tick.price.raw → Fits tick.price.sourceScale tick.price.raw)
    (hfits' : type = ascii "T" → tick.amount.rawValid = true → 0 ≤ tick.amount.raw →
      Fits tick.amount.sourceScale tick.amount.raw) :
    Yields (shanghaiByType type flag tick) [] fun tick' => tickWire tick' = tickWire tick := by
  rw [L2Flow.shanghaiByType]
  refine ite (fun _ => shanghaiAdd hprice hfits) fun _ => ite (fun _ => ?_) fun _ =>
    ite (fun htrade => shanghaiTrade hprice hamount hfits (hfits' htrade)) fun _ =>
    ite (fun _ => ?_) fun _ => ?_
  · exact (setOrderSide flag _).mono fun tick' htick => htick
  · exact (markIf _ _).next fun _ _ => pure rfl
  · exact (mark _).next fun _ _ => pure rfl

/-- Only an execution normalises its price. -/
theorem shenzhenByType {tick : CanonicalTick} (hprice : tick.price.sourceScale ≤ 6)
    (hfits : tick.rawType = 70 → 0 < tick.price.raw →
      Fits tick.price.sourceScale tick.price.raw) :
    Yields (shenzhenByType tick) [] fun tick' => tickWire tick' = tickWire tick := by
  rw [L2Flow.shenzhenByType]
  refine ite (fun htrade => ?_) fun _ => ite (fun _ => ?_) fun _ => ?_
  · rw [shenzhenTrade]
    refine (normalizePrice hprice (hfits htrade)).next fun price hprice => pure ?_
    simp [tickWire, hprice]
  · rw [shenzhenCancel]
    exact ite (fun _ => pure rfl) fun _ => (mark _).next fun _ _ => pure rfl
  · exact (mark _).next fun _ _ => pure rfl

end Yields

/-! ## Records and their layouts -/

structure ShanghaiTickValues where
  sequence : ℤ
  channel : ℤ
  security : List UInt8
  exchangeTime : ℕ
  type : List UInt8
  buyOrderId : ℤ
  sellOrderId : ℤ
  price : ℤ
  quantity : ℤ
  amount : ℤ
  flag : List UInt8

structure ShanghaiTickValues.Ok (v : ShanghaiTickValues) (maximumBytes : ℕ) : Prop where
  sequence : 1 ≤ v.sequence ∧ v.sequence < 2 ^ 63
  channel : 1 ≤ v.channel ∧ v.channel < 2 ^ 31
  security : TextValue maximumBytes v.security
  exchangeTime : v.exchangeTime < 2 ^ 32
  type : TextValue maximumBytes v.type
  buyOrderId : InI64 v.buyOrderId
  sellOrderId : InI64 v.sellOrderId
  price : InI32 v.price
  quantity : InI64 v.quantity
  amount : InI64 v.amount
  flag : TextValue maximumBytes v.flag

/-- A body that the values are laid out in. The texts are at the given distances from their
descriptors, in any order; all other bytes are arbitrary. -/
structure ShanghaiTickValues.LaidIn (v : ShanghaiTickValues) (body : List UInt8)
    (securityAt typeAt flagAt : ℕ) : Prop where
  fixed : kShanghaiTickBytes ≤ body.length
  size : body.length ≤ sizeMax
  sequence : Bytes.At body 0 (bytes 8 (unsigned 64 v.sequence))
  channel : Bytes.At body 8 (bytes 4 (unsigned 32 v.channel))
  security : TextAt body kShanghaiTickBytes ⟨12, v.security, securityAt⟩
  exchangeTime : Bytes.At body 18 (bytes 4 v.exchangeTime)
  type : TextAt body kShanghaiTickBytes ⟨22, v.type, typeAt⟩
  buyOrderId : Bytes.At body 28 (bytes 8 (unsigned 64 v.buyOrderId))
  sellOrderId : Bytes.At body 36 (bytes 8 (unsigned 64 v.sellOrderId))
  price : Bytes.At body 44 (bytes 4 (unsigned 32 v.price))
  quantity : Bytes.At body 48 (bytes 8 (unsigned 64 v.quantity))
  amount : Bytes.At body 56 (bytes 8 (unsigned 64 v.amount))
  flag : TextAt body kShanghaiTickBytes ⟨64, v.flag, flagAt⟩
  apart : (TextPlace.ranges ⟨12, v.security, securityAt⟩ ++
    (TextPlace.ranges ⟨22, v.type, typeAt⟩ ++
      TextPlace.ranges ⟨64, v.flag, flagAt⟩)).Pairwise Bytes.Range.Apart

/-- The amount of a trade fits in millionths. -/
def ShanghaiTickValues.NoOverflow (v : ShanghaiTickValues) : Prop :=
  v.type = ascii "T" → 0 ≤ v.amount → Fits 3 v.amount

/-- The tick carries the values. -/
structure ShanghaiTickValues.Carried (v : ShanghaiTickValues) (message : OwnedMessageView)
    (tradeDate : ℕ) (tick : CanonicalTick) : Prop where
  common : CommonCarried message tradeDate .kShanghai .kShanghaiTick [] [] v.security v.channel
    v.sequence v.exchangeTime tick.common
  orders : tick.buyOrderId = v.buyOrderId ∧ tick.sellOrderId = v.sellOrderId
  price : tick.price.raw = v.price ∧ tick.price.sourceScale = 3 ∧
    tick.price.rawValid = decide (v.price ≠ kNullI32)
  amount : tick.amount.raw = v.amount ∧ tick.amount.sourceScale = 3 ∧
    tick.amount.rawValid = decide (v.amount ≠ kNullI64)
  quantity : tick.quantity.raw = v.quantity ∧ tick.quantity.scale = 0
  codes : tick.rawType = codeOf v.type ∧ tick.rawSide = codeOf v.flag

/-- Reading the quality last gives it to the record. -/
theorem withQuality_yields {tick : CanonicalTick} {post : CanonicalTick → Prop}
    (h : ∀ quality : Flags,
      post { tick with common := { tick.common with qualityFlags := quality } }) :
    Yields (withQuality tick) [] post :=
  fun s _ => ⟨_, s, rfl, h s.quality, (List.append_nil _).symm, rfl, rfl⟩

theorem ShanghaiTickValues.read {v : ShanghaiTickValues} {message : OwnedMessageView}
    (tradeDate : ℕ) {limits : DecoderLimits} {securityAt typeAt flagAt : ℕ}
    (hok : v.Ok limits.maximumTextBytes)
    (hlaid : v.LaidIn message.body securityAt typeAt flagAt)
    (hmaximum : limits.maximumTextBytes ≤ kMaximumIdentityBytes) (hfits : v.NoOverflow) :
    Yields (readShanghaiTick message tradeDate limits)
      (TextPlace.ranges ⟨12, v.security, securityAt⟩ ++
        (TextPlace.ranges ⟨22, v.type, typeAt⟩ ++ TextPlace.ranges ⟨64, v.flag, flagAt⟩))
      (v.Carried message tradeDate) := by
  have hpositive : InI64 v.sequence := ⟨by have := hok.sequence; omega, hok.sequence.2⟩
  have hchannel : InI32 v.channel := ⟨by have := hok.channel; omega, hok.channel.2⟩
  rw [readShanghaiTick, ← List.append_nil (TextPlace.ranges ⟨12, _, _⟩),
    ← List.nil_append (TextPlace.ranges ⟨12, _, _⟩ ++ [])]
  refine (Yields.require hlaid.fixed _).next fun _ _ => ?_
  refine (Yields.initializeCommon message tradeDate _ _).next fun common hcommon => ?_
  refine Yields.bind (Yields.readIdentity .kShanghai none ⟨12, v.security, securityAt⟩ none common
    (by simp) (textLaid hlaid.security hok.security (by simp [kShanghaiTickBytes])) (by simp)
    hmaximum hlaid.fixed hlaid.size) fun common' hcommon' => ?_
  refine (Yields.loadI64 hlaid.sequence hpositive.1 hpositive.2 _).next fun _ hsequence => ?_
  subst hsequence
  refine (Yields.require (by have := hok.sequence; omega) _).next fun _ _ => ?_
  refine (Yields.loadI32 hlaid.channel hchannel.1 hchannel.2 _).next fun _ hchannelEq => ?_
  subst hchannelEq
  refine (Yields.require (by have := hok.channel; omega) _).next fun _ _ => ?_
  refine (Yields.loadI64 hlaid.buyOrderId hok.buyOrderId.1 hok.buyOrderId.2 _).next fun _ hbuy => ?_
  refine (Yields.loadI64 hlaid.sellOrderId hok.sellOrderId.1 hok.sellOrderId.2 _).next
    fun _ hsell => ?_
  refine (Yields.loadI64 hlaid.quantity hok.quantity.1 hok.quantity.2 _).next
    fun _ hquantity => ?_
  refine (Yields.markIf _ _).next fun _ _ => (Yields.markIf _ _).next fun _ _ => ?_
  refine (Yields.load hlaid.exchangeTime hok.exchangeTime _).next fun _ htime => ?_
  subst hbuy hsell hquantity htime
  refine (Yields.decodeTime _).next fun _ htime => ?_
  subst htime
  refine (Yields.loadDecimalRaw kNullI32 3
    (Yields.loadI32 hlaid.price hok.price.1 hok.price.2 _)).next fun price hprice => ?_
  refine (Yields.loadDecimalRaw kNullI64 3
    (Yields.loadI64 hlaid.amount hok.amount.1 hok.amount.2 _)).next fun amount hamount => ?_
  subst hprice hamount
  refine (Yields.readText (textLaid hlaid.type hok.type (by simp [kShanghaiTickBytes])) hmaximum
    hlaid.fixed hlaid.size).bind fun type htype => ?_
  rw [← List.append_nil (TextPlace.ranges ⟨64, _, _⟩)]
  refine (Yields.readText (textLaid hlaid.flag hok.flag (by simp [kShanghaiTickBytes])) hmaximum
    hlaid.fixed hlaid.size).bind fun flag hflag => ?_
  subst htype hflag
  refine Yields.next (Yields.shanghaiByType (by simp [rawDecimal]) (by simp [rawDecimal])
    (fun _ => fits_of_inI32 hok.price 3) fun htrade _ hnonneg => hfits htrade hnonneg)
    fun tick htick => withQuality_yields fun quality => ?_
  simp only [tickWire, decimalWire, Prod.mk.injEq] at htick
  obtain ⟨hcommonEq, hprice, hamount, hquantity, horders, hcodes⟩ := htick
  subst hcommon hcommon'
  exact ⟨commonCarried (Int.toNat_of_nonneg (by have := hok.channel; omega))
    (by have := hok.sequence; omega) hcommonEq quality, horders, hprice, hamount, hquantity,
    hcodes⟩


/-! ### Orders of Shenzhen -/

structure ShenzhenOrderValues where
  channel : ℕ
  sequence : ℤ
  stream : List UInt8
  security : List UInt8
  source : List UInt8
  price : ℤ
  quantity : ℤ
  side : ℤ
  exchangeTime : ℕ
  type : ℤ

structure ShenzhenOrderValues.Ok (v : ShenzhenOrderValues) (maximumBytes : ℕ) : Prop where
  channel : v.channel < 2 ^ 32
  sequence : 1 ≤ v.sequence ∧ v.sequence < 2 ^ 63
  stream : TextValue maximumBytes v.stream
  security : TextValue maximumBytes v.security
  source : TextValue maximumBytes v.source
  price : InI64 v.price
  quantity : InI64 v.quantity
  side : InI32 v.side
  exchangeTime : v.exchangeTime < 2 ^ 32
  type : InI32 v.type

structure ShenzhenOrderValues.LaidIn (v : ShenzhenOrderValues) (body : List UInt8)
    (streamAt securityAt sourceAt : ℕ) : Prop where
  fixed : kShenzhenOrderBytes ≤ body.length
  size : body.length ≤ sizeMax
  channel : Bytes.At body 0 (bytes 4 v.channel)
  sequence : Bytes.At body 4 (bytes 8 (unsigned 64 v.sequence))
  stream : TextAt body kShenzhenOrderBytes ⟨12, v.stream, streamAt⟩
  security : TextAt body kShenzhenOrderBytes ⟨18, v.security, securityAt⟩
  source : TextAt body kShenzhenOrderBytes ⟨24, v.source, sourceAt⟩
  price : Bytes.At body 30 (bytes 8 (unsigned 64 v.price))
  quantity : Bytes.At body 38 (bytes 8 (unsigned 64 v.quantity))
  side : Bytes.At body 46 (bytes 4 (unsigned 32 v.side))
  exchangeTime : Bytes.At body 50 (bytes 4 v.exchangeTime)
  type : Bytes.At body 54 (bytes 4 (unsigned 32 v.type))
  apart : (TextPlace.ranges ⟨12, v.stream, streamAt⟩ ++
    (TextPlace.ranges ⟨18, v.security, securityAt⟩ ++
      TextPlace.ranges ⟨24, v.source, sourceAt⟩)).Pairwise Bytes.Range.Apart

/-- The price of a limit order fits in millionths. -/
def ShenzhenOrderValues.NoOverflow (v : ShenzhenOrderValues) : Prop :=
  decodeSzOrderType v.type = .kLimit → 0 < v.price → Fits 4 v.price

structure ShenzhenOrderValues.Carried (v : ShenzhenOrderValues) (message : OwnedMessageView)
    (tradeDate : ℕ) (tick : CanonicalTick) : Prop where
  common : CommonCarried message tradeDate .kShenzhen .kShenzhenOrder v.stream v.source v.security
    v.channel v.sequence v.exchangeTime tick.common
  order : tick.primaryOrderId = v.sequence
  price : tick.price.raw = v.price ∧ tick.price.sourceScale = 4 ∧
    tick.price.rawValid = decide (v.price ≠ kNullI64)
  quantity : tick.quantity.raw = v.quantity ∧ tick.quantity.scale = 0
  codes : tick.rawType = v.type ∧ tick.rawSide = v.side

theorem ShenzhenOrderValues.read {v : ShenzhenOrderValues} {message : OwnedMessageView}
    (tradeDate : ℕ) {limits : DecoderLimits} {streamAt securityAt sourceAt : ℕ}
    (hok : v.Ok limits.maximumTextBytes)
    (hlaid : v.LaidIn message.body streamAt securityAt sourceAt)
    (hmaximum : limits.maximumTextBytes ≤ kMaximumIdentityBytes) (hfits : v.NoOverflow) :
    Yields (readShenzhenOrder message tradeDate limits)
      (TextPlace.ranges ⟨12, v.stream, streamAt⟩ ++
        (TextPlace.ranges ⟨18, v.security, securityAt⟩ ++
          TextPlace.ranges ⟨24, v.source, sourceAt⟩))
      (v.Carried message tradeDate) := by
  have hpositive : InI64 v.sequence := ⟨by have := hok.sequence; omega, hok.sequence.2⟩
  rw [readShenzhenOrder, ← List.append_nil (_ ++ (_ ++ _))]
  refine (Yields.require hlaid.fixed _).next fun _ _ => ?_
  refine (Yields.initializeCommon message tradeDate _ _).next fun common hcommon => ?_
  refine Yields.bind (Yields.readIdentity .kShenzhen (some ⟨12, v.stream, streamAt⟩)
    ⟨18, v.security, securityAt⟩ (some ⟨24, v.source, sourceAt⟩) common
    (by simpa using textLaid hlaid.stream hok.stream (by simp [kShenzhenOrderBytes]))
    (textLaid hlaid.security hok.security (by simp [kShenzhenOrderBytes]))
    (by simpa using textLaid hlaid.source hok.source (by simp [kShenzhenOrderBytes]))
    hmaximum hlaid.fixed hlaid.size) fun common' hcommon' => ?_
  refine (Yields.load hlaid.channel hok.channel _).next fun _ hchannel => ?_
  refine (Yields.loadI64 hlaid.sequence hpositive.1 hpositive.2 _).next fun _ hsequence => ?_
  subst hchannel hsequence
  refine (Yields.require (by have := hok.sequence; omega) _).next fun _ _ => ?_
  refine (Yields.loadI64 hlaid.quantity hok.quantity.1 hok.quantity.2 _).next
    fun _ hquantity => ?_
  refine (Yields.loadI32 hlaid.side hok.side.1 hok.side.2 _).next fun _ hside => ?_
  refine (Yields.loadI32 hlaid.type hok.type.1 hok.type.2 _).next fun _ htype => ?_
  refine (Yields.markIf _ _).next fun _ _ => ?_
  refine (Yields.load hlaid.exchangeTime hok.exchangeTime _).next fun _ htime => ?_
  subst hquantity hside htype htime
  refine (Yields.decodeTime _).next fun _ htime => ?_
  refine (Yields.loadDecimalRaw kNullI64 4
    (Yields.loadI64 hlaid.price hok.price.1 hok.price.2 _)).next fun price hprice => ?_
  subst htime hprice
  refine (Yields.markIf _ _).next fun _ _ => (Yields.markIf _ _).next fun _ _ => ?_
  have hlimit : Yields (normalizeLimit (decodeSzOrderType v.type) (rawDecimal kNullI64 4 v.price))
      [] fun value => decimalWire value = decimalWire (rawDecimal kNullI64 4 v.price) :=
    Yields.normalizeLimit (by simp [rawDecimal]) hfits
  refine hlimit.next fun price hprice => withQuality_yields fun quality => ?_
  simp only [decimalWire, Prod.mk.injEq] at hprice
  subst hcommon hcommon'
  exact ⟨commonCarried rfl (by have := hok.sequence; omega) rfl quality, rfl, hprice, ⟨rfl, rfl⟩,
    ⟨rfl, rfl⟩⟩

/-! ### Transactions of Shenzhen -/

structure ShenzhenTransactionValues where
  channel : ℕ
  sequence : ℤ
  stream : List UInt8
  buyOrderId : ℤ
  sellOrderId : ℤ
  security : List UInt8
  source : List UInt8
  price : ℤ
  quantity : ℤ
  type : ℤ
  exchangeTime : ℕ

structure ShenzhenTransactionValues.Ok (v : ShenzhenTransactionValues) (maximumBytes : ℕ) :
    Prop where
  channel : v.channel < 2 ^ 32
  sequence : 1 ≤ v.sequence ∧ v.sequence < 2 ^ 63
  stream : TextValue maximumBytes v.stream
  buyOrderId : InI64 v.buyOrderId
  sellOrderId : InI64 v.sellOrderId
  security : TextValue maximumBytes v.security
  source : TextValue maximumBytes v.source
  price : InI64 v.price
  quantity : InI64 v.quantity
  type : InI32 v.type
  exchangeTime : v.exchangeTime < 2 ^ 32

structure ShenzhenTransactionValues.LaidIn (v : ShenzhenTransactionValues) (body : List UInt8)
    (streamAt securityAt sourceAt : ℕ) : Prop where
  fixed : kShenzhenTransactionBytes ≤ body.length
  size : body.length ≤ sizeMax
  channel : Bytes.At body 0 (bytes 4 v.channel)
  sequence : Bytes.At body 4 (bytes 8 (unsigned 64 v.sequence))
  stream : TextAt body kShenzhenTransactionBytes ⟨12, v.stream, streamAt⟩
  buyOrderId : Bytes.At body 18 (bytes 8 (unsigned 64 v.buyOrderId))
  sellOrderId : Bytes.At body 26 (bytes 8 (unsigned 64 v.sellOrderId))
  security : TextAt body kShenzhenTransactionBytes ⟨34, v.security, securityAt⟩
  source : TextAt body kShenzhenTransactionBytes ⟨40, v.source, sourceAt⟩
  price : Bytes.At body 46 (bytes 8 (unsigned 64 v.price))
  quantity : Bytes.At body 54 (bytes 8 (unsigned 64 v.quantity))
  type : Bytes.At body 62 (bytes 4 (unsigned 32 v.type))
  exchangeTime : Bytes.At body 66 (bytes 4 v.exchangeTime)
  apart : (TextPlace.ranges ⟨12, v.stream, streamAt⟩ ++
    (TextPlace.ranges ⟨34, v.security, securityAt⟩ ++
      TextPlace.ranges ⟨40, v.source, sourceAt⟩)).Pairwise Bytes.Range.Apart

/-- The price of an execution fits in millionths. -/
def ShenzhenTransactionValues.NoOverflow (v : ShenzhenTransactionValues) : Prop :=
  v.type = 70 → 0 < v.price → Fits 4 v.price

structure ShenzhenTransactionValues.Carried (v : ShenzhenTransactionValues)
    (message : OwnedMessageView) (tradeDate : ℕ) (tick : CanonicalTick) : Prop where
  common : CommonCarried message tradeDate .kShenzhen .kShenzhenTransaction v.stream v.source
    v.security v.channel v.sequence v.exchangeTime tick.common
  orders : tick.buyOrderId = v.buyOrderId ∧ tick.sellOrderId = v.sellOrderId
  price : tick.price.raw = v.price ∧ tick.price.sourceScale = 4 ∧
    tick.price.rawValid = decide (v.price ≠ kNullI64)
  quantity : tick.quantity.raw = v.quantity ∧ tick.quantity.scale = 0
  code : tick.rawType = v.type

theorem ShenzhenTransactionValues.read {v : ShenzhenTransactionValues}
    {message : OwnedMessageView} (tradeDate : ℕ) {limits : DecoderLimits}
    {streamAt securityAt sourceAt : ℕ} (hok : v.Ok limits.maximumTextBytes)
    (hlaid : v.LaidIn message.body streamAt securityAt sourceAt)
    (hmaximum : limits.maximumTextBytes ≤ kMaximumIdentityBytes) (hfits : v.NoOverflow) :
    Yields (readShenzhenTransaction message tradeDate limits)
      (TextPlace.ranges ⟨12, v.stream, streamAt⟩ ++
        (TextPlace.ranges ⟨34, v.security, securityAt⟩ ++
          TextPlace.ranges ⟨40, v.source, sourceAt⟩))
      (v.Carried message tradeDate) := by
  have hpositive : InI64 v.sequence := ⟨by have := hok.sequence; omega, hok.sequence.2⟩
  rw [readShenzhenTransaction, ← List.append_nil (_ ++ (_ ++ _))]
  refine (Yields.require hlaid.fixed _).next fun _ _ => ?_
  refine (Yields.initializeCommon message tradeDate _ _).next fun common hcommon => ?_
  refine Yields.bind (Yields.readIdentity .kShenzhen (some ⟨12, v.stream, streamAt⟩)
    ⟨34, v.security, securityAt⟩ (some ⟨40, v.source, sourceAt⟩) common
    (by simpa using textLaid hlaid.stream hok.stream (by simp [kShenzhenTransactionBytes]))
    (textLaid hlaid.security hok.security (by simp [kShenzhenTransactionBytes]))
    (by simpa using textLaid hlaid.source hok.source (by simp [kShenzhenTransactionBytes]))
    hmaximum hlaid.fixed hlaid.size) fun common' hcommon' => ?_
  refine (Yields.load hlaid.channel hok.channel _).next fun _ hchannel => ?_
  refine (Yields.loadI64 hlaid.sequence hpositive.1 hpositive.2 _).next fun _ hsequence => ?_
  subst hchannel hsequence
  refine (Yields.require (by have := hok.sequence; omega) _).next fun _ _ => ?_
  refine (Yields.loadI64 hlaid.buyOrderId hok.buyOrderId.1 hok.buyOrderId.2 _).next fun _ hbuy => ?_
  refine (Yields.loadI64 hlaid.sellOrderId hok.sellOrderId.1 hok.sellOrderId.2 _).next
    fun _ hsell => ?_
  refine (Yields.loadI64 hlaid.quantity hok.quantity.1 hok.quantity.2 _).next
    fun _ hquantity => ?_
  refine (Yields.loadI32 hlaid.type hok.type.1 hok.type.2 _).next fun _ htype => ?_
  refine (Yields.markIf _ _).next fun _ _ => (Yields.markIf _ _).next fun _ _ => ?_
  refine (Yields.load hlaid.exchangeTime hok.exchangeTime _).next fun _ htime => ?_
  subst hbuy hsell hquantity htype htime
  refine (Yields.decodeTime _).next fun _ htime => ?_
  refine (Yields.loadDecimalRaw kNullI64 4
    (Yields.loadI64 hlaid.price hok.price.1 hok.price.2 _)).next fun price hprice => ?_
  subst htime hprice
  refine Yields.next (Yields.shenzhenByType (by simp [rawDecimal]) hfits)
    fun tick htick => withQuality_yields fun quality => ?_
  simp only [tickWire, decimalWire, Prod.mk.injEq] at htick
  obtain ⟨hcommonEq, hprice, -, hquantity, horders, hcodes⟩ := htick
  subst hcommon hcommon'
  exact ⟨commonCarried rfl (by have := hok.sequence; omega) hcommonEq quality, horders, hprice,
    hquantity, hcodes.1⟩

/-! ## The round trip -/

theorem decodeTick_ok {grows : ℕ → Bool} {message : OwnedMessageView} {tradeDate : ℕ}
    {limits : DecoderLimits} {new : List Bytes.Range} {post : CanonicalTick → Prop}
    (hgrows : grows 8 = true) (hread : Yields (readTick message tradeDate limits) new post)
    (hready : (scope grows 8).Ready new) (catalog : InstrumentCatalog)
    (hcatalog : ∀ tick, post tick → post (applyTickCatalog catalog tick).tick) :
    ∃ result s, decodeTick grows message tradeDate limits catalog = .ok result s ∧
      post result.tick := by
  obtain ⟨tick, s, hrun, htick, -⟩ := hread _ hready
  refine ⟨applyTickCatalog catalog tick, s, ?_, hcatalog tick htick⟩
  rw [decodeTick, if_neg (by simp [hgrows]), bind_ok hrun]
  rfl

/-- The catalog keeps what a Shanghai tick carries. -/
theorem ShanghaiTickValues.Carried.applyTickCatalog {v : ShanghaiTickValues}
    {message : OwnedMessageView} {tradeDate : ℕ} {tick : CanonicalTick}
    (h : v.Carried message tradeDate tick) (catalog : InstrumentCatalog) :
    v.Carried message tradeDate (applyTickCatalog catalog tick).tick :=
  ⟨h.common.applyCatalog catalog, h.orders, h.price, h.amount, h.quantity, h.codes⟩

theorem ShenzhenOrderValues.Carried.applyTickCatalog {v : ShenzhenOrderValues}
    {message : OwnedMessageView} {tradeDate : ℕ} {tick : CanonicalTick}
    (h : v.Carried message tradeDate tick) (catalog : InstrumentCatalog) :
    v.Carried message tradeDate (applyTickCatalog catalog tick).tick :=
  ⟨h.common.applyCatalog catalog, h.order, h.price, h.quantity, h.codes⟩

theorem ShenzhenTransactionValues.Carried.applyTickCatalog {v : ShenzhenTransactionValues}
    {message : OwnedMessageView} {tradeDate : ℕ} {tick : CanonicalTick}
    (h : v.Carried message tradeDate tick) (catalog : InstrumentCatalog) :
    v.Carried message tradeDate (applyTickCatalog catalog tick).tick :=
  ⟨h.common.applyCatalog catalog, h.orders, h.price, h.quantity, h.code⟩

/-- Headers and ticks are read back as they were written. A tick is refused only if a decimal
that is normalised does not fit. -/
theorem tick_round_trip (grows : ℕ → Bool) (hgrows : grows 8 = true) {limits : DecoderLimits}
    (hlimits : limits.maximumTextBytes ≤ kMaximumIdentityBytes) (message : OwnedMessageView)
    (tradeDate : ℕ) (catalog : InstrumentCatalog) :
    (∀ header : ParsedHeader, header.Ok → parseMdlHeader (headerBytes header) = some header) ∧
      (∀ (v : ShanghaiTickValues) (securityAt typeAt flagAt : ℕ),
        classifyMessage message.header.key = .kShanghaiTick → v.Ok limits.maximumTextBytes →
        v.LaidIn message.body securityAt typeAt flagAt → v.NoOverflow →
        ∃ result s, decodeTick grows message tradeDate limits catalog = .ok result s ∧
          v.Carried message tradeDate result.tick) ∧
      (∀ (v : ShenzhenOrderValues) (streamAt securityAt sourceAt : ℕ),
        classifyMessage message.header.key = .kShenzhenOrder → v.Ok limits.maximumTextBytes →
        v.LaidIn message.body streamAt securityAt sourceAt → v.NoOverflow →
        ∃ result s, decodeTick grows message tradeDate limits catalog = .ok result s ∧
          v.Carried message tradeDate result.tick) ∧
      ∀ (v : ShenzhenTransactionValues) (streamAt securityAt sourceAt : ℕ),
        classifyMessage message.header.key = .kShenzhenTransaction →
        v.Ok limits.maximumTextBytes → v.LaidIn message.body streamAt securityAt sourceAt →
        v.NoOverflow →
        ∃ result s, decodeTick grows message tradeDate limits catalog = .ok result s ∧
          v.Carried message tradeDate result.tick := by
  refine ⟨fun header hok => parse_headerBytes hok, fun v securityAt typeAt flagAt hclass hok
    hlaid hfits => ?_, fun v streamAt securityAt sourceAt hclass hok hlaid hfits => ?_,
    fun v streamAt securityAt sourceAt hclass hok hlaid hfits => ?_⟩
  · have hread := v.read tradeDate hok hlaid hlimits hfits
    refine decodeTick_ok hgrows (by rw [readTick, hclass]; exact hread) ?_ catalog
      fun tick htick => htick.applyTickCatalog catalog
    exact ((BlocksIn.text hlaid.security).append ((BlocksIn.text hlaid.type).append
      (BlocksIn.text hlaid.flag))).ready grows (by decide) hlaid.size hlaid.apart
  · have hread := v.read tradeDate hok hlaid hlimits hfits
    refine decodeTick_ok hgrows (by rw [readTick, hclass]; exact hread) ?_ catalog
      fun tick htick => htick.applyTickCatalog catalog
    exact ((BlocksIn.text hlaid.stream).append ((BlocksIn.text hlaid.security).append
      (BlocksIn.text hlaid.source))).ready grows (by decide) hlaid.size hlaid.apart
  · have hread := v.read tradeDate hok hlaid hlimits hfits
    refine decodeTick_ok hgrows (by rw [readTick, hclass]; exact hread) ?_ catalog
      fun tick htick => htick.applyTickCatalog catalog
    exact ((BlocksIn.text hlaid.stream).append ((BlocksIn.text hlaid.security).append
      (BlocksIn.text hlaid.source))).ready grows (by decide) hlaid.size hlaid.apart

/-! ### A trade of Shanghai, an order and an execution of Shenzhen -/

/-- The descriptor of a text of `size` bytes, at the distance `relative`. -/
def descriptorBytes (size relative : ℕ) : List UInt8 :=
  bytes 2 size ++ bytes 4 relative

def sampleTrade : ShanghaiTickValues where
  sequence := 1
  channel := 1
  security := [54, 48, 48, 48, 48, 48]
  exchangeTime := 93000123
  type := [84]
  buyOrderId := 101
  sellOrderId := -202
  price := 12345
  quantity := 100
  amount := 1234500
  flag := [66]

def sampleTradeBody : List UInt8 :=
  List.flatten [bytes 8 1, bytes 4 1, descriptorBytes 6 58, bytes 4 93000123, descriptorBytes 1 54,
    bytes 8 101, bytes 8 (unsigned 64 (-202)), bytes 4 12345, bytes 8 100, bytes 8 1234500,
    descriptorBytes 1 13, [54, 48, 48, 48, 48, 48], [84], [66]]

def sampleOrder : ShenzhenOrderValues where
  channel := 7
  sequence := 1
  stream := [48, 49, 48]
  security := [48, 48, 48, 48, 48, 49]
  source := [49, 48, 50]
  price := 123400
  quantity := 900
  side := 49
  exchangeTime := 93000456
  type := 50

def sampleOrderBody : List UInt8 :=
  List.flatten [bytes 4 7, bytes 8 1, descriptorBytes 3 46, descriptorBytes 6 43,
    descriptorBytes 3 43, bytes 8 123400, bytes 8 900, bytes 4 49, bytes 4 93000456, bytes 4 50,
    [48, 49, 48], [48, 48, 48, 48, 48, 49], [49, 48, 50]]

def sampleExecution : ShenzhenTransactionValues where
  channel := 7
  sequence := 2
  stream := [48, 49, 48]
  buyOrderId := 111
  sellOrderId := 222
  security := [48, 48, 48, 48, 48, 49]
  source := [49, 48, 50]
  price := 123400
  quantity := 10
  type := 70
  exchangeTime := 93000789

def sampleExecutionBody : List UInt8 :=
  List.flatten [bytes 4 7, bytes 8 2, descriptorBytes 3 58, bytes 8 111, bytes 8 222,
    descriptorBytes 6 39, descriptorBytes 3 39, bytes 8 123400, bytes 8 10, bytes 4 70,
    bytes 4 93000789, [48, 49, 48], [48, 48, 48, 48, 48, 49], [49, 48, 50]]

/-- A message with a body. -/
def sampleMessage (key : MessageKey) (body : List UInt8) : OwnedMessageView where
  header :=
    { headSize := 23, messageSize := 23 + body.length, encoding := kBinaryEncoding, key := key,
      localTimeRaw := 93000000, vendorSequenceId := 1 }
  ingressSequence := 1
  body := body

theorem textValue_sample {text : List UInt8} (hprintable : isPrintableAscii text = true)
    (hlen : text.length ≤ 32) (hnil : text ≠ []) : TextValue 32 text :=
  ⟨⟨hprintable, hlen⟩, hnil⟩

theorem sampleTrade_ok : sampleTrade.Ok 32 where
  sequence := by decide
  channel := by decide
  security := textValue_sample (by decide) (by decide) (by decide)
  exchangeTime := by decide
  type := textValue_sample (by decide) (by decide) (by decide)
  buyOrderId := by constructor <;> decide
  sellOrderId := by constructor <;> decide
  price := by constructor <;> decide
  quantity := by constructor <;> decide
  amount := by constructor <;> decide
  flag := textValue_sample (by decide) (by decide) (by decide)

theorem sampleTrade_laidIn : sampleTrade.LaidIn sampleTradeBody 58 54 13 where
  fixed := by decide
  size := by decide
  sequence := by decide
  channel := by decide
  security := ⟨by decide, by decide, by decide, by decide⟩
  exchangeTime := by decide
  type := ⟨by decide, by decide, by decide, by decide⟩
  buyOrderId := by decide
  sellOrderId := by decide
  price := by decide
  quantity := by decide
  amount := by decide
  flag := ⟨by decide, by decide, by decide, by decide⟩
  apart := by decide

theorem sampleOrder_ok : sampleOrder.Ok 32 where
  channel := by decide
  sequence := by decide
  stream := textValue_sample (by decide) (by decide) (by decide)
  security := textValue_sample (by decide) (by decide) (by decide)
  source := textValue_sample (by decide) (by decide) (by decide)
  price := by constructor <;> decide
  quantity := by constructor <;> decide
  side := by constructor <;> decide
  exchangeTime := by decide
  type := by constructor <;> decide

theorem sampleOrder_laidIn : sampleOrder.LaidIn sampleOrderBody 46 43 43 where
  fixed := by decide
  size := by decide
  channel := by decide
  sequence := by decide
  stream := ⟨by decide, by decide, by decide, by decide⟩
  security := ⟨by decide, by decide, by decide, by decide⟩
  source := ⟨by decide, by decide, by decide, by decide⟩
  price := by decide
  quantity := by decide
  side := by decide
  exchangeTime := by decide
  type := by decide
  apart := by decide

theorem sampleExecution_ok : sampleExecution.Ok 32 where
  channel := by decide
  sequence := by decide
  stream := textValue_sample (by decide) (by decide) (by decide)
  buyOrderId := by constructor <;> decide
  sellOrderId := by constructor <;> decide
  security := textValue_sample (by decide) (by decide) (by decide)
  source := textValue_sample (by decide) (by decide) (by decide)
  price := by constructor <;> decide
  quantity := by constructor <;> decide
  type := by constructor <;> decide
  exchangeTime := by decide

theorem sampleExecution_laidIn : sampleExecution.LaidIn sampleExecutionBody 58 39 39 where
  fixed := by decide
  size := by decide
  channel := by decide
  sequence := by decide
  stream := ⟨by decide, by decide, by decide, by decide⟩
  buyOrderId := by decide
  sellOrderId := by decide
  security := ⟨by decide, by decide, by decide, by decide⟩
  source := ⟨by decide, by decide, by decide, by decide⟩
  price := by decide
  quantity := by decide
  type := by decide
  exchangeTime := by decide
  apart := by decide

/-- The messages of the three samples. -/
def sampleTicks : List OwnedMessageView :=
  [sampleMessage ⟨4, 101, 24⟩ sampleTradeBody, sampleMessage ⟨6, 101, 33⟩ sampleOrderBody,
    sampleMessage ⟨6, 101, 36⟩ sampleExecutionBody]

/-- Whether a call succeeds, with a result that passes a check. -/
def succeeds {ε σ α : Type} (check : α → Bool) : EStateM.Result ε σ α → Bool
  | .ok a _ => check a
  | .error _ _ => false

theorem exists_ok {ε σ α : Type} {check : α → Bool} {r : EStateM.Result ε σ α}
    (h : succeeds check r = true) : ∃ a s, r = .ok a s ∧ check a = true := by
  rcases r with ⟨a, s⟩ | ⟨e, s⟩
  · exact ⟨a, s, rfl, h⟩
  · exact absurd h Bool.false_ne_true

theorem sampleTicks_decoded :
    ∀ message ∈ sampleTicks,
      ∃ result s, decodeTick (fun _ => true) message 20260101 {} {} = .ok result s := by
  have hall : ∀ message ∈ sampleTicks,
      succeeds (fun _ => true) (decodeTick (fun _ => true) message 20260101 {} {}) = true := by
    decide +kernel
  intro message hmessage
  obtain ⟨result, s, hrun, -⟩ := exists_ok (hall message hmessage)
  exact ⟨result, s, hrun⟩

/-- The header of the trade is parsed, and the three samples are decoded to what they carry. -/
theorem tick_round_trip_sample :
    let trade := sampleMessage ⟨4, 101, 24⟩ sampleTradeBody
    let order := sampleMessage ⟨6, 101, 33⟩ sampleOrderBody
    let execution := sampleMessage ⟨6, 101, 36⟩ sampleExecutionBody
    let limits : DecoderLimits := {}
    let catalog : InstrumentCatalog := {}
    parseMdlHeader (headerBytes trade.header) = some trade.header ∧
      (∃ result s, decodeTick (fun _ => true) trade 20260101 limits catalog = .ok result s ∧
        sampleTrade.Carried trade 20260101 result.tick) ∧
      (∃ result s, decodeTick (fun _ => true) order 20260101 limits catalog = .ok result s ∧
        sampleOrder.Carried order 20260101 result.tick) ∧
      ∃ result s, decodeTick (fun _ => true) execution 20260101 limits catalog = .ok result s ∧
        sampleExecution.Carried execution 20260101 result.tick := by
  intro trade order execution limits catalog
  have hlimits : limits.maximumTextBytes ≤ kMaximumIdentityBytes := le_rfl
  refine ⟨(tick_round_trip (fun _ => true) rfl hlimits trade 20260101 catalog).1 trade.header ?_,
    (tick_round_trip (fun _ => true) rfl hlimits trade 20260101 catalog).2.1 sampleTrade 58 54 13
      rfl
      sampleTrade_ok sampleTrade_laidIn ?_,
    (tick_round_trip (fun _ => true) rfl hlimits order 20260101 catalog).2.2.1 sampleOrder
      46 43 43 rfl sampleOrder_ok sampleOrder_laidIn ?_,
    (tick_round_trip (fun _ => true) rfl hlimits execution 20260101 catalog).2.2.2 sampleExecution
      58 39 39 rfl sampleExecution_ok sampleExecution_laidIn ?_⟩
  · constructor <;> decide
  · exact fun _ _ => by constructor <;> decide
  · exact fun _ _ => by constructor <;> decide
  · exact fun _ _ => by constructor <;> decide

end L2Flow
