import L2Flow.TickMeaning
import L2Flow.TickWorker

/-!
# The validity bitmap

Each bit of the validity bitmap of a decoded tick says that a field of the tick holds a value,
and no field holds one whose bit is clear (`validity_bitmap`). The decoders set and revoke the
bits in the branches of the action; here they are read off the field-wise description of the
tick.
-/

namespace L2Flow

/-! ## Bits -/

theorem Flags.has_flagIf (condition : Prop) [Decidable condition] (flags mask : Flags) :
    Flags.has (flagIf condition flags) mask = (decide condition && Flags.has flags mask) := by
  unfold flagIf
  split_ifs with h
  · simp [h]
  · simp [h, Flags.has]

namespace ValidBits

/-- The bits of the bitmap, in the order of their positions. -/
def list (bits : ValidBits) : List (Bool × Flags) :=
  [(bits.price, kTickPriceValid), (bits.quantity, kTickQuantityValid),
    (bits.amount, kTickAmountValid), (bits.primaryOrderId, kTickPrimaryOrderIdValid),
    (bits.buyOrderId, kTickBuyOrderIdValid), (bits.sellOrderId, kTickSellOrderIdValid),
    (bits.side, kTickSideValid), (bits.aggressor, kTickAggressorValid),
    (bits.orderType, kTickOrderTypeValid), (bits.exchangeTime, kTickExchangeTimeValid),
    (bits.phase, kTickPhaseValid), (bits.matchedQuantity, kTickMatchedQuantityValid)]

/-- Each bit is where it should be, and nowhere else. -/
theorem has_flags (bits : ValidBits) :
    ∀ bit ∈ bits.list, Flags.has bits.flags bit.2 = bit.1 := by
  simp only [list, List.forall_mem_cons, List.not_mem_nil, false_implies, implies_true, and_true,
    flags, Flags.has_or, Flags.has_flagIf]
  simp [Flags.has, kTickChannelHistoryValid, kTickPriceValid, kTickQuantityValid,
    kTickAmountValid, kTickPrimaryOrderIdValid, kTickBuyOrderIdValid, kTickSellOrderIdValid,
    kTickSideValid, kTickAggressorValid, kTickOrderTypeValid, kTickExchangeTimeValid,
    kTickPhaseValid, kTickMatchedQuantityValid]

end ValidBits

/-! ## Values -/

theorem raw_inMillionths (value : FixedDecimal) : (inMillionths value).raw = value.raw := by
  unfold inMillionths
  split_ifs <;> rfl

/-- A price with a value in millionths is positive. -/
theorem priceOf_pos {null raw : ℤ} {scale : ℕ} (h : (priceOf null scale raw).p6Valid = true) :
    0 < (priceOf null scale raw).raw := by
  rw [priceOf] at h ⊢
  split_ifs at h ⊢ with hraw
  · cases h
  · rw [raw_inMillionths]
    exact not_le.1 hraw

/-- An amount with a value in millionths is not negative. -/
theorem amountOf_nonneg {scale : ℕ} {raw : ℤ} (h : (amountOf scale raw).p6Valid = true) :
    0 ≤ (amountOf scale raw).raw := by
  rw [amountOf] at h ⊢
  split_ifs at h ⊢ with hraw
  · rw [raw_inMillionths]
    exact hraw
  · cases h

/-- The number `raw` is written `hhmmssmmm`, and `ns` are the nanoseconds from midnight. -/
def ClockTime (raw ns : ℕ) : Prop :=
  ∃ hour < 24, ∃ minute < 60, ∃ second < 60, ∃ millisecond < 1000,
    raw = ((hour * 100 + minute) * 100 + second) * 1000 + millisecond ∧
      ns = (((hour * 60 + minute) * 60 + second) * 1000 + millisecond) * 1000000

theorem clockTime_of_timeOf {raw ns : ℕ} (h : timeOf raw = some ns) : ClockTime raw ns := by
  unfold timeOf at h
  split_ifs at h with hbad
  rw [not_or, not_or, not_or, not_le, not_le, not_le] at hbad
  obtain ⟨-, hhour, hminute, hsecond⟩ := hbad
  refine ⟨raw / 10000000, hhour, raw / 100000 % 100, hminute, raw / 1000 % 100, hsecond,
    raw % 1000, Nat.mod_lt _ (by decide), by omega, ?_⟩
  rw [← Option.some.inj h]
  ring

theorem ClockTime.lt_day {raw ns : ℕ} (h : ClockTime raw ns) : ns < 24 * 3600 * 1000000000 := by
  obtain ⟨hour, hhour, minute, hminute, second, hsecond, millisecond, hms, -, rfl⟩ := h
  omega

/-! ## What the bits say -/

/-- What the validity bitmap says of the fields of a tick. -/
structure Meaningful (tick : CanonicalTick) : Prop where
  price : Flags.has tick.validity kTickPriceValid = true ↔ tick.price.p6Valid = true
  price_pos : tick.price.p6Valid = true → 0 < tick.price.raw
  amount : Flags.has tick.validity kTickAmountValid = true ↔ tick.amount.p6Valid = true
  amount_nonneg : tick.amount.p6Valid = true →
    (tick.common.kind = .kShanghaiTick ∧ tick.action = .kTrade) ∧ 0 ≤ tick.amount.raw
  quantity : Flags.has tick.validity kTickQuantityValid = true ↔ tick.quantity.valid = true
  quantity_nonneg : tick.quantity.valid = true → 0 ≤ tick.quantity.raw
  primaryOrderId : Flags.has tick.validity kTickPrimaryOrderIdValid = true →
    0 < tick.primaryOrderId ∧
      (tick.primaryOrderId = tick.buyOrderId ∨ tick.primaryOrderId = tick.sellOrderId ∨
        (tick.common.kind = .kShenzhenOrder ∧
          tick.primaryOrderId = tick.common.nativeSequence))
  buyOrderId : Flags.has tick.validity kTickBuyOrderIdValid = true → 0 < tick.buyOrderId
  sellOrderId : Flags.has tick.validity kTickSellOrderIdValid = true → 0 < tick.sellOrderId
  side : Flags.has tick.validity kTickSideValid = true ↔ tick.side ≠ .kUnknown
  aggressor : Flags.has tick.validity kTickAggressorValid = true ↔ tick.aggressor ≠ .kUnknown
  orderType : Flags.has tick.validity kTickOrderTypeValid = true ↔ tick.orderType ≠ .kUnknown
  phase : Flags.has tick.validity kTickPhaseValid = true ↔ tick.phase ≠ .kUnknown
  exchangeTime : Flags.has tick.validity kTickExchangeTimeValid = true ↔
    tick.common.exchangeTimeValid = true
  exchangeTime_clock : tick.common.exchangeTimeValid = true →
    tick.common.exchangeTimeNsFromMidnight < 24 * 3600 * 1000000000 ∧
      ClockTime tick.common.exchangeTimeRaw tick.common.exchangeTimeNsFromMidnight
  matchedQuantity : Flags.has tick.validity kTickMatchedQuantityValid = true →
    (tick.common.kind = .kShanghaiTick ∧ tick.action = .kAdd) ∧
      tick.amount.raw = 1000 * tick.shAddMatchedQuantityRaw ∧ 0 ≤ tick.amount.raw
  cancel : tick.common.kind = .kShenzhenTransaction → tick.action = .kCancel →
    (Flags.has tick.validity kTickPrimaryOrderIdValid = true ↔
      ¬(0 < tick.buyOrderId ↔ 0 < tick.sellOrderId)) ∧
    (Flags.has tick.validity kTickSideValid = true ↔
      ¬(0 < tick.buyOrderId ↔ 0 < tick.sellOrderId))

/-- The catalog changes nothing that the bits are about. -/
theorem Meaningful.applyTickCatalog {tick : CanonicalTick} (h : Meaningful tick)
    (catalog : InstrumentCatalog) : Meaningful (applyTickCatalog catalog tick).tick := by
  rw [L2Flow.applyTickCatalog, applyCatalog]
  dsimp only
  split
  · exact ⟨h.price, h.price_pos, h.amount, h.amount_nonneg, h.quantity, h.quantity_nonneg,
      h.primaryOrderId, h.buyOrderId, h.sellOrderId, h.side, h.aggressor, h.orderType, h.phase,
      h.exchangeTime, h.exchangeTime_clock, h.matchedQuantity, h.cancel⟩
  · exact ⟨h.price, h.price_pos, h.amount, h.amount_nonneg, h.quantity, h.quantity_nonneg,
      h.primaryOrderId, h.buyOrderId, h.sellOrderId, h.side, h.aggressor, h.orderType, h.phase,
      h.exchangeTime, h.exchangeTime_clock, h.matchedQuantity, h.cancel⟩

/-- The exchange time of a record that is decoded. -/
theorem exchangeTime_clock {raw : ℕ} (hvalid : (timeOf raw).isSome = true) :
    (timeOf raw).getD 0 < 24 * 3600 * 1000000000 ∧ ClockTime raw ((timeOf raw).getD 0) := by
  obtain ⟨ns, hns⟩ := Option.isSome_iff_exists.1 hvalid
  have hclock : ClockTime raw ((timeOf raw).getD 0) := by
    rw [hns]
    exact clockTime_of_timeOf hns
  exact ⟨hclock.lt_day, hclock⟩

/-! ## The three layouts -/

/-- A bit that a layout never sets, of a field that it never fills. -/
theorem clear_iff {α : Type} {a : α} : false = true ↔ a ≠ a :=
  iff_of_false Bool.false_ne_true (not_not.2 rfl)

namespace ShanghaiTickValues

variable (v : ShanghaiTickValues)

theorem priceDecimal_pos (h : v.priceDecimal.p6Valid = true) : 0 < v.priceDecimal.raw := by
  unfold priceDecimal at h ⊢
  split at h
  · exact priceOf_pos h
  · exact priceOf_pos h
  · cases h

theorem amountDecimal_nonneg (h : v.amountDecimal.p6Valid = true) :
    v.action = .kTrade ∧ 0 ≤ v.amountDecimal.raw := by
  unfold amountDecimal at h ⊢
  split at h
  · next htrade => exact ⟨htrade, amountOf_nonneg h⟩
  · cases h

theorem quantityInteger_nonneg (h : v.quantityInteger.valid = true) :
    0 ≤ v.quantityInteger.raw := by
  unfold quantityInteger at h
  dsimp only at h
  split at h
  · exact of_decide_eq_true h
  · exact of_decide_eq_true h
  · exact of_decide_eq_true h
  · cases h

/-- The order that is named is one of the two. -/
theorem primaryOrderId_eq (h : 0 < v.primaryOrderId) :
    v.primaryOrderId = v.buyOrderId ∨ v.primaryOrderId = v.sellOrderId := by
  unfold primaryOrderId at h ⊢
  split at h
  · exact Or.inl rfl
  · exact Or.inr rfl
  · exact absurd h (lt_irrefl 0)

/-- The matched quantity is the whole amount. -/
theorem matched_eq (h : v.Matched) :
    v.amountDecimal.raw = 1000 * (if v.Matched then v.amount.tdiv 1000 else 0) ∧
      0 ≤ v.amountDecimal.raw := by
  have hraw : v.amountDecimal.raw = v.amount := by
    rw [amountDecimal, h.1]
    rfl
  have hwhole := Int.mul_tdiv_add_tmod v.amount 1000
  rw [h.2.2, add_zero] at hwhole
  rw [hraw, if_pos h]
  exact ⟨hwhole.symm, h.2.1⟩

theorem meaningful (message : OwnedMessageView) (tradeDate : ℕ) (quality : Flags) :
    Meaningful (v.tick { v.common message tradeDate with qualityFlags := quality }) := by
  have hbits := v.bits.has_flags
  simp only [ValidBits.list, List.forall_mem_cons] at hbits
  obtain ⟨hprice, hquantity, hamount, hprimary, hbuy, hsell, hside, haggressor, horder, htime,
    hphase, hmatched, -⟩ := hbits
  exact
    { price := Bool.eq_iff_iff.1 hprice
      price_pos := v.priceDecimal_pos
      amount := Bool.eq_iff_iff.1 hamount
      amount_nonneg := fun h =>
        ⟨⟨rfl, (v.amountDecimal_nonneg h).1⟩, (v.amountDecimal_nonneg h).2⟩
      quantity := Bool.eq_iff_iff.1 hquantity
      quantity_nonneg := v.quantityInteger_nonneg
      primaryOrderId := fun h => by
        have hpos : 0 < v.primaryOrderId := of_decide_eq_true (hprimary.symm.trans h)
        exact ⟨hpos, (v.primaryOrderId_eq hpos).imp_right Or.inl⟩
      buyOrderId := fun h => (of_decide_eq_true (hbuy.symm.trans h)).2
      sellOrderId := fun h => (of_decide_eq_true (hsell.symm.trans h)).2
      side := (Bool.eq_iff_iff.1 hside).trans decide_eq_true_iff
      aggressor := (Bool.eq_iff_iff.1 haggressor).trans decide_eq_true_iff
      orderType := (Bool.eq_iff_iff.1 horder).trans clear_iff
      phase := (Bool.eq_iff_iff.1 hphase).trans decide_eq_true_iff
      exchangeTime := Bool.eq_iff_iff.1 htime
      exchangeTime_clock := exchangeTime_clock
      matchedQuantity := fun h => by
        have hm : v.Matched := of_decide_eq_true (hmatched.symm.trans h)
        exact ⟨⟨rfl, hm.1⟩, v.matched_eq hm⟩
      cancel := fun h => by cases h }

end ShanghaiTickValues

theorem ShenzhenOrderValues.meaningful (v : ShenzhenOrderValues) (hpos : 0 < v.sequence.toNat)
    (message : OwnedMessageView) (tradeDate : ℕ) (quality : Flags) :
    Meaningful (v.tick { v.common message tradeDate with qualityFlags := quality }) := by
  have hbits := v.bits.has_flags
  simp only [ValidBits.list, List.forall_mem_cons] at hbits
  obtain ⟨hprice, hquantity, hamount, hprimary, hbuy, hsell, hside, haggressor, horder, htime,
    hphase, hmatched, -⟩ := hbits
  exact
    { price := Bool.eq_iff_iff.1 hprice
      price_pos := fun h => by
        change v.priceDecimal.p6Valid = true at h
        change 0 < v.priceDecimal.raw
        unfold priceDecimal at h ⊢
        split_ifs at h ⊢
        · exact priceOf_pos h
        · cases h
      amount := Bool.eq_iff_iff.1 hamount
      amount_nonneg := fun h => by cases h
      quantity := Bool.eq_iff_iff.1 hquantity
      quantity_nonneg := fun h => of_decide_eq_true h
      primaryOrderId := fun _ =>
        ⟨show 0 < v.sequence by omega,
          Or.inr (Or.inr ⟨rfl, show v.sequence = v.sequence.toNat by omega⟩)⟩
      buyOrderId := fun h => by cases hbuy.symm.trans h
      sellOrderId := fun h => by cases hsell.symm.trans h
      side := (Bool.eq_iff_iff.1 hside).trans decide_eq_true_iff
      aggressor := (Bool.eq_iff_iff.1 haggressor).trans clear_iff
      orderType := (Bool.eq_iff_iff.1 horder).trans decide_eq_true_iff
      phase := (Bool.eq_iff_iff.1 hphase).trans clear_iff
      exchangeTime := Bool.eq_iff_iff.1 htime
      exchangeTime_clock := exchangeTime_clock
      matchedQuantity := fun h => by cases hmatched.symm.trans h
      cancel := fun h => by cases h }

namespace ShenzhenTransactionValues

variable (v : ShenzhenTransactionValues)

theorem priceDecimal_pos (h : v.priceDecimal.p6Valid = true) : 0 < v.priceDecimal.raw := by
  unfold priceDecimal at h ⊢
  split at h
  · exact priceOf_pos h
  · cases h

/-- The order that a cancellation names is the one with a reference. -/
theorem primaryOrderId_pos (h : v.Named) :
    0 < v.primaryOrderId ∧
      (v.primaryOrderId = v.buyOrderId ∨ v.primaryOrderId = v.sellOrderId) := by
  have hone := h.2
  unfold primaryOrderId
  rw [if_pos h]
  split_ifs with hbuy
  · exact ⟨hbuy, Or.inl rfl⟩
  · exact ⟨by_contra fun hsell => hone (iff_of_false hbuy hsell), Or.inr rfl⟩

theorem side_ne_iff : v.side ≠ .kUnknown ↔ v.Named := by
  unfold side
  split_ifs with hnamed
  · simp [hnamed]
  · simp [hnamed]
  · simp [hnamed]

theorem meaningful (message : OwnedMessageView) (tradeDate : ℕ) (quality : Flags) :
    Meaningful (v.tick { v.common message tradeDate with qualityFlags := quality }) := by
  have hbits := v.bits.has_flags
  simp only [ValidBits.list, List.forall_mem_cons] at hbits
  obtain ⟨hprice, hquantity, hamount, hprimary, hbuy, hsell, hside, haggressor, horder, htime,
    hphase, hmatched, -⟩ := hbits
  exact
    { price := Bool.eq_iff_iff.1 hprice
      price_pos := v.priceDecimal_pos
      amount := Bool.eq_iff_iff.1 hamount
      amount_nonneg := fun h => by cases h
      quantity := Bool.eq_iff_iff.1 hquantity
      quantity_nonneg := fun h => (of_decide_eq_true h).2
      primaryOrderId := fun h => by
        obtain ⟨hpos, heq⟩ := v.primaryOrderId_pos (of_decide_eq_true (hprimary.symm.trans h))
        exact ⟨hpos, heq.imp_right Or.inl⟩
      buyOrderId := fun h => (of_decide_eq_true (hbuy.symm.trans h)).2
      sellOrderId := fun h => (of_decide_eq_true (hsell.symm.trans h)).2
      side := ((Bool.eq_iff_iff.1 hside).trans decide_eq_true_iff).trans v.side_ne_iff.symm
      aggressor := (Bool.eq_iff_iff.1 haggressor).trans clear_iff
      orderType := (Bool.eq_iff_iff.1 horder).trans clear_iff
      phase := (Bool.eq_iff_iff.1 hphase).trans clear_iff
      exchangeTime := Bool.eq_iff_iff.1 htime
      exchangeTime_clock := exchangeTime_clock
      matchedQuantity := fun h => by cases hmatched.symm.trans h
      cancel := fun _ hcancel => by
        have hone : v.Named ↔ ¬(0 < v.buyOrderId ↔ 0 < v.sellOrderId) :=
          and_iff_right (show v.action = .kCancel from hcancel)
        exact ⟨((Bool.eq_iff_iff.1 hprimary).trans decide_eq_true_iff).trans hone,
          ((Bool.eq_iff_iff.1 hside).trans decide_eq_true_iff).trans hone⟩ }

end ShenzhenTransactionValues

/-! ## The bitmap -/

/-- In a tick that is decoded, the validity bitmap says exactly which fields hold a value. -/
theorem validity_bitmap {grows : ℕ → Bool} {message : OwnedMessageView} {tradeDate : ℕ}
    {limits : DecoderLimits} {catalog : InstrumentCatalog} {result : TickDecodeResult} {s : Scan}
    (h : decodeTick grows message tradeDate limits catalog = .ok result s) :
    Meaningful result.tick := by
  have hpos := (decodeTick_read h).place.1.1
  have hends := decodeTick_gives grows message tradeDate limits catalog
  rw [h] at hends
  obtain ⟨rfl, -⟩ := hends
  refine Meaningful.applyTickCatalog ?_ catalog
  rw [TickDecodeResult.nativeSequence, uncataloged_congr (·.common.nativeSequence) (fun _ => rfl)
    (applyTickCatalog_uncataloged catalog _)] at hpos
  unfold tickOf at hpos ⊢
  split
  · next hclass =>
    rw [hclass] at hpos
    exact ShenzhenOrderValues.meaningful _ hpos _ _ _
  · exact ShenzhenTransactionValues.meaningful _ _ _ _
  · exact ShanghaiTickValues.meaningful _ _ _ _

/-- The bits of the three samples. -/
theorem validity_bitmap_sample :
    sampleTicks.Forall fun message => ∃ result s,
      decodeTick (fun _ => true) message 20260101 {} {} = .ok result s ∧
        Meaningful result.tick := by
  refine List.forall_iff_forall_mem.2 fun message hmessage => ?_
  obtain ⟨result, s, hrun⟩ := sampleTicks_decoded message hmessage
  exact ⟨result, s, hrun, validity_bitmap hrun⟩

end L2Flow
