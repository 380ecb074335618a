import L2Flow.BookLayout
import L2Flow.TickRoundTrip

/-!
# Snapshots are read back as they were written

For each of the two snapshot layouts, the values of a record, a body they are laid out in, and
the canonical snapshot they stand for. Whatever the layout does with the places of the texts,
the levels and the orders, the decoder returns that snapshot, unless a decimal does not fit in
millionths (`snapshot_round_trip`).
-/

namespace L2Flow

open LittleEndian (bytes signed unsigned)

variable {body : List UInt8}

/-- Reading the quality last gives it to the record. -/
theorem withSnapshotQuality_yields {snapshot : CanonicalSnapshot} {post : CanonicalSnapshot → Prop}
    (h : ∀ quality : Flags,
      post { snapshot with common := { snapshot.common with qualityFlags := quality } }) :
    Yields (withSnapshotQuality snapshot) [] post :=
  fun s _ => ⟨_, s, rfl, h s.quality, (List.append_nil _).symm, rfl, rfl⟩

/-- A number that is already in millionths fits. -/
theorem fits_of_inI64 {raw : ℤ} (h : InI64 raw) : Fits 6 raw := by
  have hmax : int64Max = 2 ^ 63 - 1 := rfl
  have hmin : int64Min = -2 ^ 63 := rfl
  obtain ⟨hlow, hhigh⟩ := h
  rw [Fits, Nat.sub_self, pow_zero, mul_one]
  omega

/-! ## Snapshots of Shanghai -/

/-- The head of a Shanghai level. -/
structure ShanghaiHeadAt (body : List UInt8) (levelOffset : ℕ) (v : LevelValues) : Prop where
  price : Bytes.At body (levelOffset + 4) (bytes 4 (unsigned 32 v.price))
  price_mem : InI32 v.price
  quantity : Bytes.At body (levelOffset + 8) (bytes 8 (unsigned 64 v.quantity))
  sourceOrderCount : Bytes.At body (levelOffset + 16) (bytes 4 v.sourceOrderCount)

def shanghaiLevelOf (v : LevelValues) : CanonicalBookLevel where
  price := priceOf kNullI32 3 v.price
  quantity := quantityOf 3 true v.quantity
  sourceOrderCount := v.sourceOrderCount
  orderCountValid := true

theorem readsHead_shanghai :
    ReadsHead (shanghaiLevelHead body) (ShanghaiHeadAt body) shanghaiLevelOf := by
  intro levelOffset v hok hat
  refine ⟨?_, rfl⟩
  rw [shanghaiLevelHead]
  refine (Yields.decodePrice32 hat.price hat.price_mem.1 hat.price_mem.2 (by decide)).next
    fun price hprice => ?_
  refine (Yields.decodeQuantity 3 true hat.quantity hok.quantity.1 hok.quantity.2).next
    fun quantity hquantity => ?_
  refine (Yields.load hat.sourceOrderCount hok.sourceOrderCount _).next
    fun count hcount => Yields.pure ?_
  rw [hprice, hquantity, hcount]
  rfl

structure ShanghaiSnapshotValues where
  exchangeTime : ℕ
  security : List UInt8
  imageStatus : ℤ
  previousClose : ℤ
  open_ : ℤ
  high : ℤ
  low : ℤ
  last : ℤ
  close : ℤ
  status : List UInt8
  tradeCount : ℕ
  volume : ℤ
  turnover : ℤ
  totalBidQuantity : ℤ
  weightedAverageBid : ℤ
  totalAskQuantity : ℤ
  weightedAverageAsk : ℤ
  book : BookValues

namespace ShanghaiSnapshotValues

structure Ok (v : ShanghaiSnapshotValues) (limits : DecoderLimits) : Prop where
  exchangeTime : v.exchangeTime < 2 ^ 32
  security : TextValue limits.maximumTextBytes v.security
  imageStatus : InI32 v.imageStatus
  previousClose : InI32 v.previousClose
  open_ : InI32 v.open_
  high : InI32 v.high
  low : InI32 v.low
  last : InI32 v.last
  close : InI32 v.close
  status : TextOk limits.maximumTextBytes v.status
  tradeCount : v.tradeCount < 2 ^ 32
  volume : InI64 v.volume
  turnover : InI64 v.turnover
  totalBidQuantity : InI64 v.totalBidQuantity
  weightedAverageBid : InI32 v.weightedAverageBid
  totalAskQuantity : InI64 v.totalAskQuantity
  weightedAverageAsk : InI32 v.weightedAverageAsk
  book : v.book.Ok limits

/-- The ranges of the body, in the order they are protected in. -/
def ranges (v : ShanghaiSnapshotValues) (securityAt statusAt : ℕ) (place : BookPlace) :
    List Bytes.Range :=
  TextPlace.ranges ⟨4, v.security, securityAt⟩ ++ (TextPlace.ranges ⟨38, v.status, statusAt⟩ ++
    v.book.ranges shanghaiQueue 228 236 place)

/-- A body that the values are laid out in : the texts, the levels of each side and the orders
of each level are anywhere after the fixed part, apart from each other. -/
structure LaidIn (v : ShanghaiSnapshotValues) (body : List UInt8) (securityAt statusAt : ℕ)
    (place : BookPlace) : Prop where
  fixed : kShanghaiSnapshotBytes ≤ body.length
  size : body.length ≤ sizeMax
  exchangeTime : Bytes.At body 0 (bytes 4 v.exchangeTime)
  security : TextAt body kShanghaiSnapshotBytes ⟨4, v.security, securityAt⟩
  imageStatus : Bytes.At body 10 (bytes 4 (unsigned 32 v.imageStatus))
  previousClose : Bytes.At body 14 (bytes 4 (unsigned 32 v.previousClose))
  open_ : Bytes.At body 18 (bytes 4 (unsigned 32 v.open_))
  high : Bytes.At body 22 (bytes 4 (unsigned 32 v.high))
  low : Bytes.At body 26 (bytes 4 (unsigned 32 v.low))
  last : Bytes.At body 30 (bytes 4 (unsigned 32 v.last))
  close : Bytes.At body 34 (bytes 4 (unsigned 32 v.close))
  status : TextAt body kShanghaiSnapshotBytes ⟨38, v.status, statusAt⟩
  tradeCount : Bytes.At body 44 (bytes 4 v.tradeCount)
  volume : Bytes.At body 48 (bytes 8 (unsigned 64 v.volume))
  turnover : Bytes.At body 56 (bytes 8 (unsigned 64 v.turnover))
  totalBidQuantity : Bytes.At body 64 (bytes 8 (unsigned 64 v.totalBidQuantity))
  weightedAverageBid : Bytes.At body 72 (bytes 4 (unsigned 32 v.weightedAverageBid))
  totalAskQuantity : Bytes.At body 80 (bytes 8 (unsigned 64 v.totalAskQuantity))
  weightedAverageAsk : Bytes.At body 88 (bytes 4 (unsigned 32 v.weightedAverageAsk))
  bids : SideAt body kShanghaiSnapshotBytes shanghaiQueue (ShanghaiHeadAt body) 228 v.book.bids
    place.bids
  asks : SideAt body kShanghaiSnapshotBytes shanghaiQueue (ShanghaiHeadAt body) 236 v.book.asks
    place.asks
  apart : (v.ranges securityAt statusAt place).Pairwise Bytes.Range.Apart

/-- The turnover fits in millionths; prices of 32 bits always do. -/
def NoOverflow (v : ShanghaiSnapshotValues) : Prop :=
  v.turnover ≠ kNullI64 → Fits 5 v.turnover

/-- The snapshot that the values stand for. -/
def canonical (v : ShanghaiSnapshotValues) (common : CanonicalCommon) : CanonicalSnapshot :=
  withBook
    { common := common
      previousClose := priceOf kNullI32 3 v.previousClose
      open_ := priceOf kNullI32 3 v.open_
      high := priceOf kNullI32 3 v.high
      low := priceOf kNullI32 3 v.low
      last := priceOf kNullI32 3 v.last
      close := priceOf kNullI32 3 v.close
      turnover := inMillionths (rawDecimal kNullI64 5 v.turnover)
      volume := quantityOf 3 true v.volume
      totalBidQuantity := quantityOf 3 true v.totalBidQuantity
      totalAskQuantity := quantityOf 3 true v.totalAskQuantity
      weightedAverageBid := priceOf kNullI32 3 v.weightedAverageBid
      weightedAverageAsk := priceOf kNullI32 3 v.weightedAverageAsk
      tradeCount := v.tradeCount
      tradeCountValid := true
      imageStatus := v.imageStatus
      imageStatusValid := true
      instrumentStatusCode := identityBytes v.status
      instrumentStatusCodeSize := v.status.length }
    (bookOf shanghaiLevelOf v.book)

/-- The snapshot carries the values. -/
structure Carried (v : ShanghaiSnapshotValues) (message : OwnedMessageView) (tradeDate : ℕ)
    (snapshot : CanonicalSnapshot) : Prop where
  common : CommonCarried message tradeDate .kShanghai .kShanghaiSnapshot [] [] v.security 0 0
    v.exchangeTime snapshot.common
  values : snapshot = v.canonical snapshot.common

theorem read {v : ShanghaiSnapshotValues} {message : OwnedMessageView} (tradeDate : ℕ)
    {limits : DecoderLimits} {securityAt statusAt : ℕ} {place : BookPlace} (hok : v.Ok limits)
    (hlaid : v.LaidIn message.body securityAt statusAt place)
    (hmaximum : limits.maximumTextBytes ≤ kMaximumIdentityBytes) (hfits : v.NoOverflow) :
    Yields (readShanghaiSnapshot message tradeDate limits) (v.ranges securityAt statusAt place)
      (v.Carried message tradeDate) := by
  have hprice : ∀ {offset raw}, Bytes.At message.body offset (bytes 4 (unsigned 32 raw)) →
      InI32 raw → Yields (decodePrice32 message.body offset 3) [] fun value =>
        value = priceOf kNullI32 3 raw :=
    fun hat hraw => Yields.decodePrice32 hat hraw.1 hraw.2 (by decide)
  have hquantity : ∀ {offset raw}, Bytes.At message.body offset (bytes 8 (unsigned 64 raw)) →
      InI64 raw → Yields (decodeQuantity message.body offset 3 true) [] fun value =>
        value = quantityOf 3 true raw :=
    fun hat hraw => Yields.decodeQuantity 3 true hat hraw.1 hraw.2
  rw [readShanghaiSnapshot, ranges, ← List.append_nil (TextPlace.ranges ⟨4, _, _⟩),
    ← List.nil_append (TextPlace.ranges ⟨4, _, _⟩ ++ [])]
  refine (Yields.require hlaid.fixed _).next fun _ _ => ?_
  refine (Yields.initializeCommon message tradeDate _ _).next fun common hcommon => ?_
  refine Yields.bind (Yields.readIdentity .kShanghai none ⟨4, v.security, securityAt⟩ none common
    (by simp) (textLaid hlaid.security hok.security (by simp [kShanghaiSnapshotBytes])) (by simp)
    hmaximum hlaid.fixed hlaid.size) fun common' hcommon' => ?_
  refine (readText_yields hlaid.status hok.status (by simp) hmaximum hlaid.fixed hlaid.size
    (by simp [kShanghaiSnapshotBytes])).bind fun status hstatus => ?_
  refine (Yields.loadI32 hlaid.imageStatus hok.imageStatus.1 hok.imageStatus.2 _).next
    fun imageStatus himageStatus => ?_
  refine (Yields.load hlaid.exchangeTime hok.exchangeTime _).next fun _ hexchangeTime => ?_
  subst hexchangeTime
  refine (Yields.decodeTime _).next fun time htime => ?_
  refine (hprice hlaid.previousClose hok.previousClose).next fun previousClose hpreviousClose => ?_
  refine (hprice hlaid.open_ hok.open_).next fun open_ hopen => ?_
  refine (hprice hlaid.high hok.high).next fun high hhigh => ?_
  refine (hprice hlaid.low hok.low).next fun low hlow => ?_
  refine (hprice hlaid.last hok.last).next fun last hlast => ?_
  refine (hprice hlaid.close hok.close).next fun close hclose => ?_
  refine (Yields.load hlaid.tradeCount hok.tradeCount _).next fun tradeCount htradeCount => ?_
  refine (hquantity hlaid.volume hok.volume).next fun volume hvolume => ?_
  refine (Yields.decodeDecimal64 hlaid.turnover hok.turnover.1 hok.turnover.2 (by decide)
    hfits).next fun turnover hturnover => ?_
  refine (hquantity hlaid.totalBidQuantity hok.totalBidQuantity).next fun bidQuantity hbid => ?_
  refine (hprice hlaid.weightedAverageBid hok.weightedAverageBid).next
    fun averageBid haverageBid => ?_
  refine (hquantity hlaid.totalAskQuantity hok.totalAskQuantity).next fun askQuantity hask => ?_
  refine (hprice hlaid.weightedAverageAsk hok.weightedAverageAsk).next
    fun averageAsk haverageAsk => ?_
  rw [← List.append_nil (BookValues.ranges _ _ _ _ _)]
  refine Yields.bind (Yields.readBook readsHead_shanghai hok.book hlaid.bids hlaid.asks hlaid.fixed
    hlaid.size) fun book hbook => withSnapshotQuality_yields fun quality => ?_
  subst hcommon hcommon' hstatus himageStatus htime hpreviousClose hopen hhigh hlow hlast hclose
    htradeCount hvolume hturnover hbid haverageBid hask haverageAsk hbook
  exact ⟨commonCarried rfl le_rfl rfl quality, rfl⟩

end ShanghaiSnapshotValues

/-! ## Snapshots of Shenzhen -/

/-- The head of a Shenzhen level. -/
structure ShenzhenHeadAt (body : List UInt8) (levelOffset : ℕ) (v : LevelValues) : Prop where
  quantity : Bytes.At body levelOffset (bytes 8 (unsigned 64 v.quantity))
  price : Bytes.At body (levelOffset + 8) (bytes 8 (unsigned 64 v.price))
  price_mem : InI64 v.price
  sourceOrderCount : Bytes.At body (levelOffset + 16) (bytes 4 v.sourceOrderCount)

def shenzhenLevelOf (v : LevelValues) : CanonicalBookLevel where
  price := priceOf kNullI64 6 v.price
  quantity := quantityOf 0 false v.quantity
  sourceOrderCount := v.sourceOrderCount
  orderCountValid := true

theorem readsHead_shenzhen :
    ReadsHead (shenzhenLevelHead body) (ShenzhenHeadAt body) shenzhenLevelOf := by
  intro levelOffset v hok hat
  refine ⟨?_, rfl⟩
  rw [shenzhenLevelHead]
  refine (Yields.decodeQuantity 0 false hat.quantity hok.quantity.1 hok.quantity.2).next
    fun quantity hquantity => ?_
  refine (Yields.decodePrice64 hat.price hat.price_mem.1 hat.price_mem.2 (by decide)
    fun _ => fits_of_inI64 hat.price_mem).next fun price hprice => ?_
  refine (Yields.load hat.sourceOrderCount hok.sourceOrderCount _).next
    fun count hcount => Yields.pure ?_
  rw [hprice, hquantity, hcount]
  rfl

structure ShenzhenSnapshotValues where
  exchangeTime : ℕ
  channel : ℕ
  stream : List UInt8
  security : List UInt8
  source : List UInt8
  phase : List UInt8
  previousClose : ℤ
  tradeCount : ℤ
  volume : ℤ
  turnover : ℤ
  last : ℤ
  open_ : ℤ
  high : ℤ
  low : ℤ
  totalAskQuantity : ℤ
  weightedAverageAsk : ℤ
  totalBidQuantity : ℤ
  weightedAverageBid : ℤ
  book : BookValues

namespace ShenzhenSnapshotValues

structure Ok (v : ShenzhenSnapshotValues) (limits : DecoderLimits) : Prop where
  exchangeTime : v.exchangeTime < 2 ^ 32
  channel : v.channel < 2 ^ 32
  stream : TextValue limits.maximumTextBytes v.stream
  security : TextValue limits.maximumTextBytes v.security
  source : TextValue limits.maximumTextBytes v.source
  phase : TextValue limits.maximumTextBytes v.phase
  previousClose : InI64 v.previousClose
  tradeCount : InI64 v.tradeCount
  volume : InI64 v.volume
  turnover : InI64 v.turnover
  last : InI64 v.last
  open_ : InI64 v.open_
  high : InI64 v.high
  low : InI64 v.low
  totalAskQuantity : InI64 v.totalAskQuantity
  weightedAverageAsk : InI64 v.weightedAverageAsk
  totalBidQuantity : InI64 v.totalBidQuantity
  weightedAverageBid : InI64 v.weightedAverageBid
  book : v.book.Ok limits

/-- Where the texts are : the distance of each from its descriptor. -/
structure Place where
  stream : ℕ
  security : ℕ
  source : ℕ
  phase : ℕ
  book : BookPlace

/-- The ranges of the body, in the order they are protected in. -/
def ranges (v : ShenzhenSnapshotValues) (place : Place) : List Bytes.Range :=
  (TextPlace.ranges ⟨8, v.stream, place.stream⟩ ++
      (TextPlace.ranges ⟨14, v.security, place.security⟩ ++
        TextPlace.ranges ⟨20, v.source, place.source⟩)) ++
    (TextPlace.ranges ⟨26, v.phase, place.phase⟩ ++
      v.book.ranges shenzhenQueue 208 216 place.book)

/-- A body that the values are laid out in. -/
structure LaidIn (v : ShenzhenSnapshotValues) (body : List UInt8) (place : Place) : Prop where
  fixed : kShenzhenSnapshotBytes ≤ body.length
  size : body.length ≤ sizeMax
  exchangeTime : Bytes.At body 0 (bytes 4 v.exchangeTime)
  channel : Bytes.At body 4 (bytes 4 v.channel)
  stream : TextAt body kShenzhenSnapshotBytes ⟨8, v.stream, place.stream⟩
  security : TextAt body kShenzhenSnapshotBytes ⟨14, v.security, place.security⟩
  source : TextAt body kShenzhenSnapshotBytes ⟨20, v.source, place.source⟩
  phase : TextAt body kShenzhenSnapshotBytes ⟨26, v.phase, place.phase⟩
  previousClose : Bytes.At body 32 (bytes 8 (unsigned 64 v.previousClose))
  tradeCount : Bytes.At body 40 (bytes 8 (unsigned 64 v.tradeCount))
  volume : Bytes.At body 48 (bytes 8 (unsigned 64 v.volume))
  turnover : Bytes.At body 56 (bytes 8 (unsigned 64 v.turnover))
  last : Bytes.At body 64 (bytes 8 (unsigned 64 v.last))
  open_ : Bytes.At body 72 (bytes 8 (unsigned 64 v.open_))
  high : Bytes.At body 80 (bytes 8 (unsigned 64 v.high))
  low : Bytes.At body 88 (bytes 8 (unsigned 64 v.low))
  totalAskQuantity : Bytes.At body 144 (bytes 8 (unsigned 64 v.totalAskQuantity))
  weightedAverageAsk : Bytes.At body 152 (bytes 8 (unsigned 64 v.weightedAverageAsk))
  totalBidQuantity : Bytes.At body 160 (bytes 8 (unsigned 64 v.totalBidQuantity))
  weightedAverageBid : Bytes.At body 168 (bytes 8 (unsigned 64 v.weightedAverageBid))
  bids : SideAt body kShenzhenSnapshotBytes shenzhenQueue (ShenzhenHeadAt body) 208 v.book.bids
    place.book.bids
  asks : SideAt body kShenzhenSnapshotBytes shenzhenQueue (ShenzhenHeadAt body) 216 v.book.asks
    place.book.asks
  apart : (v.ranges place).Pairwise Bytes.Range.Apart

/-- The previous close and the turnover fit in millionths; the other prices are in millionths. -/
structure NoOverflow (v : ShenzhenSnapshotValues) : Prop where
  previousClose : 0 < v.previousClose → Fits 4 v.previousClose
  turnover : v.turnover ≠ kNullI64 → Fits 4 v.turnover

/-- The snapshot that the values stand for. -/
def canonical (v : ShenzhenSnapshotValues) (common : CanonicalCommon) : CanonicalSnapshot :=
  withBook
    { common := common
      previousClose := priceOf kNullI64 4 v.previousClose
      open_ := priceOf kNullI64 6 v.open_
      high := priceOf kNullI64 6 v.high
      low := priceOf kNullI64 6 v.low
      last := priceOf kNullI64 6 v.last
      turnover := inMillionths (rawDecimal kNullI64 4 v.turnover)
      volume := quantityOf 0 false v.volume
      totalBidQuantity := quantityOf 0 false v.totalBidQuantity
      totalAskQuantity := quantityOf 0 false v.totalAskQuantity
      weightedAverageBid := priceOf kNullI64 6 v.weightedAverageBid
      weightedAverageAsk := priceOf kNullI64 6 v.weightedAverageAsk
      tradeCount := v.tradeCount.toNat
      tradeCountValid := decide (0 ≤ v.tradeCount)
      tradingPhaseCode := identityBytes v.phase
      tradingPhaseCodeSize := v.phase.length }
    (bookOf shenzhenLevelOf v.book)

/-- The snapshot carries the values. -/
structure Carried (v : ShenzhenSnapshotValues) (message : OwnedMessageView) (tradeDate : ℕ)
    (snapshot : CanonicalSnapshot) : Prop where
  common : CommonCarried message tradeDate .kShenzhen .kShenzhenSnapshot v.stream v.source
    v.security v.channel 0 v.exchangeTime snapshot.common
  values : snapshot = v.canonical snapshot.common

theorem read {v : ShenzhenSnapshotValues} {message : OwnedMessageView} (tradeDate : ℕ)
    {limits : DecoderLimits} {place : Place} (hok : v.Ok limits)
    (hlaid : v.LaidIn message.body place)
    (hmaximum : limits.maximumTextBytes ≤ kMaximumIdentityBytes) (hfits : v.NoOverflow) :
    Yields (readShenzhenSnapshot message tradeDate limits) (v.ranges place)
      (v.Carried message tradeDate) := by
  have hprice : ∀ {offset raw}, Bytes.At message.body offset (bytes 8 (unsigned 64 raw)) →
      InI64 raw → Yields (decodePrice64 message.body offset 6) [] fun value =>
        value = priceOf kNullI64 6 raw :=
    fun hat hraw => Yields.decodePrice64 hat hraw.1 hraw.2 (by decide) fun _ => fits_of_inI64 hraw
  have hquantity : ∀ {offset raw}, Bytes.At message.body offset (bytes 8 (unsigned 64 raw)) →
      InI64 raw → Yields (decodeQuantity message.body offset 0 false) [] fun value =>
        value = quantityOf 0 false raw :=
    fun hat hraw => Yields.decodeQuantity 0 false hat hraw.1 hraw.2
  rw [readShenzhenSnapshot, ranges]
  refine (Yields.require hlaid.fixed _).next fun _ _ => ?_
  refine (Yields.initializeCommon message tradeDate _ _).next fun common hcommon => ?_
  refine Yields.bind (Yields.readIdentity .kShenzhen (some ⟨8, v.stream, place.stream⟩)
    ⟨14, v.security, place.security⟩ (some ⟨20, v.source, place.source⟩) common
    (by simpa using textLaid hlaid.stream hok.stream (by simp [kShenzhenSnapshotBytes]))
    (textLaid hlaid.security hok.security (by simp [kShenzhenSnapshotBytes]))
    (by simpa using textLaid hlaid.source hok.source (by simp [kShenzhenSnapshotBytes]))
    hmaximum hlaid.fixed hlaid.size) fun common' hcommon' => ?_
  refine (Yields.readText (textLaid hlaid.phase hok.phase (by simp [kShenzhenSnapshotBytes]))
    hmaximum hlaid.fixed hlaid.size).bind fun phase hphase => ?_
  refine (Yields.load hlaid.channel hok.channel _).next fun channel hchannel => ?_
  refine (Yields.load hlaid.exchangeTime hok.exchangeTime _).next fun _ hexchangeTime => ?_
  subst hexchangeTime
  refine (Yields.decodeTime _).next fun time htime => ?_
  refine (Yields.loadI64 hlaid.tradeCount hok.tradeCount.1 hok.tradeCount.2 _).next
    fun tradeCount htradeCount => (Yields.markIf _ _).next fun _ _ => ?_
  refine (Yields.decodePrice64 hlaid.previousClose hok.previousClose.1 hok.previousClose.2
    (by decide) hfits.previousClose).next fun previousClose hpreviousClose => ?_
  refine (hquantity hlaid.volume hok.volume).next fun volume hvolume => ?_
  refine (Yields.decodeDecimal64 hlaid.turnover hok.turnover.1 hok.turnover.2 (by decide)
    hfits.turnover).next fun turnover hturnover => ?_
  refine (hprice hlaid.last hok.last).next fun last hlast => ?_
  refine (hprice hlaid.open_ hok.open_).next fun open_ hopen => ?_
  refine (hprice hlaid.high hok.high).next fun high hhigh => ?_
  refine (hprice hlaid.low hok.low).next fun low hlow => ?_
  refine (hquantity hlaid.totalAskQuantity hok.totalAskQuantity).next fun askQuantity hask => ?_
  refine (hprice hlaid.weightedAverageAsk hok.weightedAverageAsk).next
    fun averageAsk haverageAsk => ?_
  refine (hquantity hlaid.totalBidQuantity hok.totalBidQuantity).next fun bidQuantity hbid => ?_
  refine (hprice hlaid.weightedAverageBid hok.weightedAverageBid).next
    fun averageBid haverageBid => ?_
  rw [← List.append_nil (BookValues.ranges _ _ _ _ _)]
  refine Yields.bind (Yields.readBook readsHead_shenzhen hok.book hlaid.bids hlaid.asks
    hlaid.fixed hlaid.size) fun book hbook => withSnapshotQuality_yields fun quality => ?_
  subst hcommon hcommon' hphase hchannel htime htradeCount hpreviousClose hvolume hturnover hlast
    hopen hhigh hlow hask haverageAsk hbid haverageBid hbook
  exact ⟨commonCarried rfl le_rfl rfl quality, rfl⟩

end ShenzhenSnapshotValues

/-! ## The round trip -/

/-- The blocks of a book : a block for the levels of each side, and one for the orders of each
level. -/
theorem BlocksIn.book {fixedBytes bidsOffset asksOffset : ℕ} {layout : QueueLayout}
    {HeadAt : ℕ → LevelValues → Prop} {v : BookValues} {place : BookPlace}
    (hbids : SideAt body fixedBytes layout HeadAt bidsOffset v.bids place.bids)
    (hasks : SideAt body fixedBytes layout HeadAt asksOffset v.asks place.asks) :
    BlocksIn body (1 + (1 + (v.bids.length + v.asks.length)))
      (v.ranges layout bidsOffset asksOffset place) :=
  (list hbids.list).append ((list hasks.list).append ((side hbids).append (side hasks)))

theorem decodeSnapshot_ok {grows : ℕ → Bool} {message : OwnedMessageView} {tradeDate : ℕ}
    {limits : DecoderLimits} {new : List Bytes.Range} {post : CanonicalSnapshot → Prop}
    (hallocator : ∀ n, grows n = true → n ≤ sizeMax)
    (hgrows : grows (limits.maximumDepthItems * 2 + 8) = true)
    (hread : Yields (readSnapshot message tradeDate limits) new post)
    (hready : (scope grows (limits.maximumDepthItems * 2 + 8)).Ready new)
    (catalog : InstrumentCatalog)
    (hcatalog : ∀ snapshot, post snapshot →
      post (applySnapshotCatalog catalog snapshot).snapshot) :
    ∃ result s, decodeSnapshot grows message tradeDate limits catalog = .ok result s ∧
      post result.snapshot := by
  obtain ⟨snapshot, s, hrun, hsnapshot, -⟩ := hread _ hready
  have hdepth := hallocator _ hgrows
  refine ⟨applySnapshotCatalog catalog snapshot, s, ?_, hcatalog snapshot hsnapshot⟩
  rw [decodeSnapshot, if_neg (by omega), if_neg (by simp [hgrows]), bind_ok hrun]
  rfl

/-- Snapshots are read back as they were written. One is refused only if a decimal does not
fit. The allocator gives no more room than there are numbers. -/
theorem snapshot_round_trip (grows : ℕ → Bool) {limits : DecoderLimits}
    (hallocator : ∀ n, grows n = true → n ≤ sizeMax)
    (hgrows : grows (limits.maximumDepthItems * 2 + 8) = true)
    (hlimits : limits.maximumTextBytes ≤ kMaximumIdentityBytes) (message : OwnedMessageView)
    (tradeDate : ℕ) (catalog : InstrumentCatalog) :
    (∀ (v : ShanghaiSnapshotValues) (securityAt statusAt : ℕ) (place : BookPlace),
        classifyMessage message.header.key = .kShanghaiSnapshot → v.Ok limits →
        v.LaidIn message.body securityAt statusAt place → v.NoOverflow →
        ∃ result s, decodeSnapshot grows message tradeDate limits catalog = .ok result s ∧
          v.Carried message tradeDate result.snapshot) ∧
      ∀ (v : ShenzhenSnapshotValues) (place : ShenzhenSnapshotValues.Place),
        classifyMessage message.header.key = .kShenzhenSnapshot → v.Ok limits →
        v.LaidIn message.body place → v.NoOverflow →
        ∃ result s, decodeSnapshot grows message tradeDate limits catalog = .ok result s ∧
          v.Carried message tradeDate result.snapshot := by
  refine ⟨fun v securityAt statusAt place hclass hok hlaid hfits => ?_,
    fun v place hclass hok hlaid hfits => ?_⟩
  · have hread := v.read tradeDate hok hlaid hlimits hfits
    have hbids := hok.book.bids_le
    have hasks := hok.book.asks_le
    refine decodeSnapshot_ok hallocator hgrows (by rw [readSnapshot, hclass]; exact hread) ?_
      catalog fun snapshot hsnapshot => ?_
    · exact ((BlocksIn.text hlaid.security).append ((BlocksIn.text hlaid.status).append
        (BlocksIn.book hlaid.bids hlaid.asks))).ready grows (by omega) hlaid.size hlaid.apart
    · refine ⟨hsnapshot.common.applyCatalog catalog, ?_⟩
      rw [applySnapshotCatalog, hsnapshot.values]
      rfl
  · have hread := v.read tradeDate hok hlaid hlimits hfits
    have hbids := hok.book.bids_le
    have hasks := hok.book.asks_le
    refine decodeSnapshot_ok hallocator hgrows (by rw [readSnapshot, hclass]; exact hread) ?_
      catalog fun snapshot hsnapshot => ?_
    · exact (((BlocksIn.text hlaid.stream).append ((BlocksIn.text hlaid.security).append
        (BlocksIn.text hlaid.source))).append ((BlocksIn.text hlaid.phase).append
          (BlocksIn.book hlaid.bids hlaid.asks))).ready grows (by omega) hlaid.size hlaid.apart
    · refine ⟨hsnapshot.common.applyCatalog catalog, ?_⟩
      rw [applySnapshotCatalog, hsnapshot.values]
      rfl

/-! ### A snapshot of each market -/

/-- So many bytes that nothing is written to. -/
def padding (size : ℕ) : List UInt8 :=
  List.replicate size 0

def sampleBid : LevelValues where
  price := 12340
  quantity := 500000
  sourceOrderCount := 3
  orders := [200000]

def sampleAsk : LevelValues where
  price := 12350000
  quantity := 700
  sourceOrderCount := 1
  orders := [700]

def sampleShanghai : ShanghaiSnapshotValues where
  exchangeTime := 93000123
  security := [54, 48, 48, 48, 48, 48]
  imageStatus := 1
  previousClose := 12300
  open_ := 12310
  high := 12400
  low := 12290
  last := 12345
  close := 0
  status := []
  tradeCount := 17
  volume := 1000000
  turnover := 1234500000
  totalBidQuantity := 500000
  weightedAverageBid := 12340
  totalAskQuantity := 0
  weightedAverageAsk := -2147483648
  book := ⟨[sampleBid], []⟩

def sampleShanghaiBody : List UInt8 :=
  List.flatten [bytes 4 93000123, bytes 2 6 ++ bytes 4 244, bytes 4 1, bytes 4 12300, bytes 4 12310,
    bytes 4 12400, bytes 4 12290, bytes 4 12345, bytes 4 0, bytes 2 0 ++ bytes 4 0, bytes 4 17,
    bytes 8 1000000, bytes 8 1234500000, bytes 8 500000, bytes 4 12340, padding 4, bytes 8 0,
    bytes 4 (unsigned 32 (-2147483648)), padding 136, bytes 4 1 ++ bytes 4 26,
    bytes 4 0 ++ bytes 4 0, padding 4, [54, 48, 48, 48, 48, 48], padding 4, bytes 4 12340,
    bytes 8 500000, bytes 4 3, bytes 4 1 ++ bytes 4 8, padding 8, bytes 8 200000]

def sampleShenzhen : ShenzhenSnapshotValues where
  exchangeTime := 93000456
  channel := 7
  stream := [48, 49, 48]
  security := [48, 48, 48, 48, 48, 49]
  source := [49, 48, 50]
  phase := [84, 48]
  previousClose := 123400
  tradeCount := 17
  volume := 1000
  turnover := 123450000
  last := 12345000
  open_ := 12310000
  high := 12400000
  low := 12290000
  totalAskQuantity := 700
  weightedAverageAsk := 12350000
  totalBidQuantity := 0
  weightedAverageBid := 0
  book := ⟨[], [sampleAsk]⟩

def sampleShenzhenBody : List UInt8 :=
  List.flatten [bytes 4 93000456, bytes 4 7, bytes 2 3 ++ bytes 4 216, bytes 2 6 ++ bytes 4 213,
    bytes 2 3 ++ bytes 4 213, bytes 2 2 ++ bytes 4 210, bytes 8 123400, bytes 8 17, bytes 8 1000,
    bytes 8 123450000, bytes 8 12345000, bytes 8 12310000, bytes 8 12400000, bytes 8 12290000,
    padding 48, bytes 8 700, bytes 8 12350000, bytes 8 0, bytes 8 0, padding 32,
    bytes 4 0 ++ bytes 4 0, bytes 4 1 ++ bytes 4 22, [48, 49, 48], [48, 48, 48, 48, 48, 49],
    [49, 48, 50], [84, 48], bytes 8 700, bytes 8 12350000, bytes 4 1, bytes 4 1 ++ bytes 4 8,
    bytes 8 700]

def sampleShanghaiPlace : BookPlace where
  bids := ⟨26, fun _ => 8⟩
  asks := ⟨0, fun _ => 0⟩

def sampleShenzhenPlace : ShenzhenSnapshotValues.Place where
  stream := 216
  security := 213
  source := 213
  phase := 210
  book := ⟨⟨0, fun _ => 0⟩, ⟨22, fun _ => 8⟩⟩

instance (n : ℤ) : Decidable (InI64 n) :=
  inferInstanceAs (Decidable (_ ∧ _))

instance (n : ℤ) : Decidable (InI32 n) :=
  inferInstanceAs (Decidable (_ ∧ _))

theorem sampleShanghai_ok : sampleShanghai.Ok {} where
  exchangeTime := by decide
  security := textValue_sample (by decide) (by decide) (by decide)
  imageStatus := by decide
  previousClose := by decide
  open_ := by decide
  high := by decide
  low := by decide
  last := by decide
  close := by decide
  status := ⟨by decide, by decide⟩
  tradeCount := by decide
  volume := by decide
  turnover := by decide
  totalBidQuantity := by decide
  weightedAverageBid := by decide
  totalAskQuantity := by decide
  weightedAverageAsk := by decide
  book :=
    { bids := by
        intro level hlevel
        obtain rfl := List.mem_singleton.1 hlevel
        exact ⟨by decide, by decide, by decide, by decide⟩
      asks := fun level hlevel => absurd hlevel List.not_mem_nil
      bids_le := by decide
      asks_le := by decide
      orders_le := by decide }

theorem sampleShanghai_laidIn :
    sampleShanghai.LaidIn sampleShanghaiBody 244 0 sampleShanghaiPlace where
  fixed := by decide +kernel
  size := by decide +kernel
  exchangeTime := by decide +kernel
  security := ⟨by decide +kernel, by decide +kernel, by decide +kernel, by decide +kernel⟩
  imageStatus := by decide +kernel
  previousClose := by decide +kernel
  open_ := by decide +kernel
  high := by decide +kernel
  low := by decide +kernel
  last := by decide +kernel
  close := by decide +kernel
  status := ⟨by decide +kernel, by decide +kernel, by decide +kernel, by decide +kernel⟩
  tradeCount := by decide +kernel
  volume := by decide +kernel
  turnover := by decide +kernel
  totalBidQuantity := by decide +kernel
  weightedAverageBid := by decide +kernel
  totalAskQuantity := by decide +kernel
  weightedAverageAsk := by decide +kernel
  bids :=
    { list := ⟨by decide +kernel, by decide +kernel, by decide +kernel, by decide +kernel,
        by decide +kernel, by decide +kernel⟩
      head := by
        intro index hindex
        obtain rfl := Nat.lt_one_iff.1 hindex
        exact ⟨by decide +kernel, by decide +kernel, by decide +kernel, by decide +kernel⟩
      orders := by
        intro index hindex
        obtain rfl := Nat.lt_one_iff.1 hindex
        exact ⟨⟨by decide +kernel, by decide +kernel, by decide +kernel, by decide +kernel,
          by decide +kernel, by decide +kernel⟩, by decide +kernel⟩ }
  asks :=
    { list := ⟨by decide +kernel, by decide +kernel, by decide +kernel, by decide +kernel,
        by decide +kernel, by decide +kernel⟩
      head := fun index hindex => absurd hindex (Nat.not_lt_zero index)
      orders := fun index hindex => absurd hindex (Nat.not_lt_zero index) }
  apart := by decide +kernel

theorem sampleShenzhen_ok : sampleShenzhen.Ok {} where
  exchangeTime := by decide
  channel := by decide
  stream := textValue_sample (by decide) (by decide) (by decide)
  security := textValue_sample (by decide) (by decide) (by decide)
  source := textValue_sample (by decide) (by decide) (by decide)
  phase := textValue_sample (by decide) (by decide) (by decide)
  previousClose := by decide
  tradeCount := by decide
  volume := by decide
  turnover := by decide
  last := by decide
  open_ := by decide
  high := by decide
  low := by decide
  totalAskQuantity := by decide
  weightedAverageAsk := by decide
  totalBidQuantity := by decide
  weightedAverageBid := by decide
  book :=
    { bids := fun level hlevel => absurd hlevel List.not_mem_nil
      asks := by
        intro level hlevel
        obtain rfl := List.mem_singleton.1 hlevel
        exact ⟨by decide, by decide, by decide, by decide⟩
      bids_le := by decide
      asks_le := by decide
      orders_le := by decide }

theorem sampleShenzhen_laidIn :
    sampleShenzhen.LaidIn sampleShenzhenBody sampleShenzhenPlace where
  fixed := by decide +kernel
  size := by decide +kernel
  exchangeTime := by decide +kernel
  channel := by decide +kernel
  stream := ⟨by decide, by decide +kernel, by decide +kernel, by decide⟩
  security := ⟨by decide, by decide +kernel, by decide +kernel, by decide⟩
  source := ⟨by decide, by decide +kernel, by decide +kernel, by decide⟩
  phase := ⟨by decide, by decide +kernel, by decide +kernel, by decide⟩
  previousClose := by decide +kernel
  tradeCount := by decide +kernel
  volume := by decide +kernel
  turnover := by decide +kernel
  last := by decide +kernel
  open_ := by decide +kernel
  high := by decide +kernel
  low := by decide +kernel
  totalAskQuantity := by decide +kernel
  weightedAverageAsk := by decide +kernel
  totalBidQuantity := by decide +kernel
  weightedAverageBid := by decide +kernel
  bids :=
    { list := ⟨by decide, by decide, by decide, by decide +kernel, by decide, by decide⟩
      head := fun index hindex => absurd hindex (Nat.not_lt_zero index)
      orders := fun index hindex => absurd hindex (Nat.not_lt_zero index) }
  asks :=
    { list := ⟨by decide, by decide, by decide, by decide +kernel, by decide +kernel, by decide⟩
      head := by
        intro index hindex
        obtain rfl := Nat.lt_one_iff.1 hindex
        exact ⟨by decide +kernel, by decide +kernel, by decide, by decide +kernel⟩
      orders := by
        intro index hindex
        obtain rfl := Nat.lt_one_iff.1 hindex
        exact ⟨⟨by decide, by decide, by decide, by decide +kernel, by decide +kernel, by decide⟩,
          by decide +kernel⟩ }
  apart := by decide +kernel

/-- The messages of the two samples. -/
def sampleSnapshots : List OwnedMessageView :=
  [sampleMessage ⟨4, 101, 4⟩ sampleShanghaiBody, sampleMessage ⟨6, 101, 28⟩ sampleShenzhenBody]

theorem sampleSnapshots_decoded :
    ∀ message ∈ sampleSnapshots,
      ∃ result s, decodeSnapshot (fun _ => true) message 20260101 {} {} = .ok result s := by
  have hall : ∀ message ∈ sampleSnapshots,
      succeeds (fun _ => true) (decodeSnapshot (fun _ => true) message 20260101 {} {}) = true := by
    decide +kernel
  intro message hmessage
  obtain ⟨result, s, hrun, -⟩ := exists_ok (hall message hmessage)
  exact ⟨result, s, hrun⟩

/-- An allocator with room for 100000 ranges decodes the two samples to what they carry. -/
theorem snapshot_round_trip_sample :
    let grows : ℕ → Bool := fun n => decide (n ≤ 100000)
    let shanghai := sampleMessage ⟨4, 101, 4⟩ sampleShanghaiBody
    let shenzhen := sampleMessage ⟨6, 101, 28⟩ sampleShenzhenBody
    (∃ result s, decodeSnapshot grows shanghai 20260101 {} {} = .ok result s ∧
        sampleShanghai.Carried shanghai 20260101 result.snapshot) ∧
      ∃ result s, decodeSnapshot grows shenzhen 20260101 {} {} = .ok result s ∧
        sampleShenzhen.Carried shenzhen 20260101 result.snapshot := by
  intro grows shanghai shenzhen
  have hallocator : ∀ n, grows n = true → n ≤ sizeMax := fun n hn =>
    (of_decide_eq_true hn).trans (by decide)
  have hgrows : grows (DecoderLimits.maximumDepthItems {} * 2 + 8) = true := by decide
  have hlimits : DecoderLimits.maximumTextBytes {} ≤ kMaximumIdentityBytes := le_rfl
  refine ⟨(snapshot_round_trip grows hallocator hgrows hlimits shanghai 20260101 {}).1
      sampleShanghai 244 0 sampleShanghaiPlace rfl sampleShanghai_ok sampleShanghai_laidIn ?_,
    (snapshot_round_trip grows hallocator hgrows hlimits shenzhen 20260101 {}).2
      sampleShenzhen sampleShenzhenPlace rfl sampleShenzhen_ok sampleShenzhen_laidIn ⟨?_, ?_⟩⟩
  · exact fun _ => by constructor <;> decide
  · exact fun _ => by constructor <;> decide
  · exact fun _ => by constructor <;> decide

end L2Flow
