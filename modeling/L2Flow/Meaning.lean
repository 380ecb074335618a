import L2Flow.Layout

/-!
# What a step gives

`Gives` describes a decoding step on an arbitrary body : whatever state it starts in, if it ends
with a result, that is the given value, the given quality has been marked, and the given decimals
all fit in millionths; it ends with `kFixedPointOverflow` only if one of them does not. The
descriptions are put together along the computation, so that a record is described by the fields
of its body alone.
-/

namespace L2Flow

open LittleEndian (signed)

variable {α β : Type} {body : List UInt8} {fixedBytes : ℕ}

/-- A decimal that is normalised : its scale, and the number of the wire. -/
structure Normalised where
  scale : ℕ
  raw : ℤ
  deriving DecidableEq, Repr

def Normalised.Fits (decimal : Normalised) : Prop :=
  L2Flow.Fits decimal.scale decimal.raw

instance (decimal : Normalised) : Decidable decimal.Fits :=
  inferInstanceAs (Decidable (L2Flow.Fits _ _))

/-- What the step ends with, from any state. The value may depend on the quality at the end. -/
def Gives (m : Decoder α) (value : Flags → α) (marks : Flags) (decimals : List Normalised) : Prop :=
  ∀ s, Ends (m s)
    (fun a s' => a = value s'.quality ∧ s'.quality = s.quality ||| marks ∧
      ∀ decimal ∈ decimals, decimal.Fits)
    (fun e _ => e = .kFixedPointOverflow → ∃ decimal ∈ decimals, ¬decimal.Fits)

/-- A step whose value does not depend on the quality. -/
def Computes (m : Decoder α) (value : α) (marks : Flags) (decimals : List Normalised) : Prop :=
  Gives m (fun _ => value) marks decimals

/-! ## Rules -/

section Rules

variable {m m' : Decoder α} {value : Flags → α} {a : α} {marks marks' : Flags}
  {decimals decimals' : List Normalised}

theorem Gives.cast (h : Gives m value marks decimals) (hmarks : marks = marks')
    (hdecimals : decimals = decimals') : Gives m value marks' decimals' :=
  hmarks ▸ hdecimals ▸ h

theorem Gives.throw {e : DecodeError} (he : e ≠ .kFixedPointOverflow) :
    Gives (throw e : Decoder α) value marks decimals :=
  fun _ heq => absurd heq he

theorem Gives.ite {condition : Prop} [Decidable condition]
    (hpos : condition → Gives m value marks decimals)
    (hneg : ¬condition → Gives m' value marks decimals) :
    Gives (if condition then m else m') value marks decimals := by
  split_ifs with h
  · exact hpos h
  · exact hneg h

theorem Computes.pure {a : α} : Computes (pure a) a 0 [] :=
  fun s => ⟨rfl, (BitVec.or_zero (x := s.quality)).symm, fun _ h => absurd h List.not_mem_nil⟩

theorem Computes.result {a b : α} (h : a = b) : Computes (Pure.pure a) b 0 [] :=
  h ▸ pure

theorem Computes.then {f : α → Decoder β} {value : Flags → β} (h : Computes m a marks decimals)
    (hf : Gives (f a) value marks' decimals') :
    Gives (m >>= f) value (marks ||| marks') (decimals ++ decimals') := by
  intro s
  have hends := h s
  rcases hm : m s with ⟨b, s'⟩ | ⟨e, s'⟩
  · rw [hm] at hends
    obtain ⟨rfl, hquality, hfit⟩ := hends
    rw [bind_ok hm]
    have hends' := hf s'
    rcases hfm : f b s' with ⟨c, s''⟩ | ⟨e, s''⟩
    · rw [hfm] at hends'
      obtain ⟨hvalue, hquality', hfit'⟩ := hends'
      refine ⟨hvalue, ?_, fun decimal hdecimal => ?_⟩
      · rw [hquality', hquality, BitVec.or_assoc]
      · exact (List.mem_append.1 hdecimal).elim (hfit decimal) (hfit' decimal)
    · rw [hfm] at hends'
      intro he
      obtain ⟨decimal, hdecimal, hbad⟩ := hends' he
      exact ⟨decimal, List.mem_append_right _ hdecimal, hbad⟩
  · rw [hm] at hends
    rw [bind_error hm]
    intro he
    obtain ⟨decimal, hdecimal, hbad⟩ := hends he
    exact ⟨decimal, List.mem_append_left _ hdecimal, hbad⟩

/-- A step that marks nothing and normalises nothing, and the rest. -/
theorem Computes.next {f : α → Decoder β} {value : Flags → β} (h : Computes m a 0 [])
    (hf : Gives (f a) value marks decimals) : Gives (m >>= f) value marks decimals :=
  (h.then hf).cast BitVec.zero_or rfl

/-- A step that only marks, and the rest. -/
theorem Computes.mark_then {f : α → Decoder β} {value : Flags → β} (h : Computes m a marks [])
    (hf : Gives (f a) value marks' decimals) : Gives (m >>= f) value (marks ||| marks') decimals :=
  h.then hf

/-- A call that starts without any mark, and does one more thing with the record. -/
theorem Gives.ends (h : Gives m value marks decimals) (f : α → β) (s : Scan)
    (hs : s.quality = 0) :
    Ends ((do let a ← m; return f a : Decoder β) s)
      (fun b _ => b = f (value marks) ∧ ∀ decimal ∈ decimals, decimal.Fits)
      (fun e _ => e = .kFixedPointOverflow → ∃ decimal ∈ decimals, ¬decimal.Fits) := by
  have hends := h s
  rcases hrun : m s with ⟨a, s'⟩ | ⟨e, s'⟩
  · rw [hrun] at hends
    obtain ⟨hvalue, hquality, hfits⟩ := hends
    rw [bind_ok hrun]
    refine ⟨?_, hfits⟩
    rw [hvalue, hquality, hs]
    exact congrArg (fun quality => f (value quality)) BitVec.zero_or
  · rw [hrun] at hends
    rw [bind_error hrun]
    exact hends

end Rules

/-! ## Steps -/

namespace Computes

theorem require {e : DecodeError} (he : e ≠ .kFixedPointOverflow) (condition : Prop)
    [Decidable condition] : Computes (require e condition) () 0 [] :=
  Gives.ite (fun _ => pure) fun _ => Gives.throw he

theorem modifies {f : Scan → Scan} {marks : Flags}
    (hf : ∀ s, (f s).quality = s.quality ||| marks) : Computes (modify f) () marks [] :=
  fun s => ⟨rfl, hf s, fun _ h => absurd h List.not_mem_nil⟩

/-- A change of the state that leaves the quality alone. -/
theorem silent {f : Scan → Scan} (hf : ∀ s, (f s).quality = s.quality) :
    Computes (modify f) () 0 [] :=
  modifies fun s => (hf s).trans BitVec.or_zero.symm

theorem mark (flags : Flags) : Computes (mark flags) () flags [] :=
  modifies fun _ => rfl

theorem markIf (condition : Prop) [Decidable condition] (flags : Flags) :
    Computes (markIf condition flags) () (flagIf condition flags) [] := by
  unfold L2Flow.markIf flagIf
  split_ifs
  · exact mark flags
  · exact pure

theorem load {failure : DecodeError} (hfailure : failure ≠ .kFixedPointOverflow)
    (width offset : ℕ) :
    Computes (load body width offset failure) (wire body width offset) 0 [] := by
  rw [L2Flow.load]
  refine next (silent (f := fun s => s.load offset width) fun _ => rfl) ?_
  rcases Nat.lt_or_ge body.length (offset + width) with hshort | hle
  · rw [loadUnsigned_eq_none hshort]
    exact Gives.throw hfailure
  · rw [loadUnsigned_of_le hle]
    exact pure

theorem loadI32 {failure : DecodeError} (hfailure : failure ≠ .kFixedPointOverflow) (offset : ℕ) :
    Computes (loadI32 body offset failure) (signed 32 (wire body 4 offset)) 0 [] :=
  next (load hfailure 4 offset) pure

theorem loadI64 {failure : DecodeError} (hfailure : failure ≠ .kFixedPointOverflow) (offset : ℕ) :
    Computes (loadI64 body offset failure) (signed 64 (wire body 8 offset)) 0 [] :=
  next (load hfailure 8 offset) pure

theorem protectDynamicRange (start size : ℕ) :
    Computes (protectDynamicRange start size) () 0 [] := by
  intro s
  rw [L2Flow.protectDynamicRange, bind_ok (show (get : Decoder Scan) s = .ok s s from rfl)]
  split_ifs
  · exact pure s
  · -- the checks fail with other errors, and the table is not the quality
    by_cases hoffset : start ≤ sizeMax - size
    · rw [bind_ok (require_ok hoffset s)]
      by_cases hapart : ∀ r ∈ s.ranges, r.Apart ⟨start, start + size⟩
      · rw [bind_ok (require_ok hapart s)]
        by_cases hroom : s.ranges.length < s.capacity ∨ s.grows (s.ranges.length + 1) = true
        · rw [bind_ok (require_ok hroom s)]
          exact silent (f := fun s => s.protect start size) (fun _ => rfl) s
        · rw [bind_error (require_error hroom s)]
          exact fun he => by simp at he
      · rw [bind_error (require_error hapart s)]
        exact fun he => by simp at he
    · rw [bind_error (require_error hoffset s)]
      exact fun he => by simp at he

/-! ### Dynamic fields -/

theorem readText (descriptorOffset fixedBytes maximumBytes : ℕ) (requireNonempty : Bool) :
    Computes (readText body descriptorOffset fixedBytes maximumBytes requireNonempty)
      (textBytes body descriptorOffset) 0 [] := by
  rw [L2Flow.readText]
  refine next (require (by decide) _) (next (load (by decide) _ _) (next (load (by decide) _ _)
    (next (require (by decide) _) (Gives.ite (fun hzero => ?_) fun _ => ?_))))
  · have hempty : textBytes body descriptorOffset = [] := by
      rw [textBytes, textSize, hzero, Bytes.slice, List.take_zero]
    rw [hempty]
    exact next (require (by decide) _) (next (require (by decide) _) pure)
  · refine next (require (by decide) _) (next (require (by decide) _) ?_)
    refine next (silent (f := fun s => s.load _ _) fun _ => rfl) (next (require (by decide) _) ?_)
    exact next (protectDynamicRange _ _) pure

theorem readOptionalText (descriptorOffset : Option ℕ) (fixedBytes maximumBytes : ℕ) :
    Computes (readOptionalText body descriptorOffset fixedBytes maximumBytes)
      (descriptorOffset.elim [] (textBytes body)) 0 [] := by
  rcases descriptorOffset with - | offset
  · exact pure
  · exact readText _ _ _ _

end Computes

/-- The view of the list that a descriptor names. -/
def listView (body : List UInt8) (descriptorOffset itemSize : ℕ) : ListView where
  start := if listCount body descriptorOffset = 0 then 0 else listStart body descriptorOffset
  count := listCount body descriptorOffset
  itemSize := itemSize

namespace Computes

theorem readList (descriptorOffset itemSize fixedBytes maximumItems : ℕ) :
    Computes (readList body descriptorOffset itemSize fixedBytes maximumItems)
      (listView body descriptorOffset itemSize) 0 [] := by
  rw [L2Flow.readList]
  refine next (require (by decide) _) (next (load (by decide) _ _) (next (load (by decide) _ _)
    (next (require (by decide) _) (Gives.ite (fun hzero => ?_) fun hpos => ?_))))
  · have hempty : listView body descriptorOffset itemSize = ⟨0, 0, itemSize⟩ := by
      rw [listView, listCount, hzero, if_pos rfl]
    rw [hempty]
    exact next (require (by decide) _) pure
  · have hview : listView body descriptorOffset itemSize =
        ⟨listStart body descriptorOffset, listCount body descriptorOffset, itemSize⟩ := by
      exact congrArg (fun start => (⟨start, _, itemSize⟩ : ListView)) (if_neg hpos)
    rw [hview]
    refine next (require (by decide) _) (next (require (by decide) _) ?_)
    exact next (protectDynamicRange _ _) pure

end Computes

/-! ## Numbers -/

/-- What a null field marks. -/
def nullMarks (null raw : ℤ) : Flags :=
  flagIf (raw = null) kQualityNullSourceValue

/-- What a price marks that is not null. -/
def priceMarks (null raw : ℤ) : Flags :=
  flagIf (raw ≠ null ∧ raw ≤ 0) kQualityInvalidPrice

/-- What a quantity marks. -/
def quantityMarks (nullable : Bool) (raw : ℤ) : Flags :=
  if nullable = true ∧ raw = kNullI64 then kQualityNullSourceValue
  else flagIf (raw < 0) kQualityInvalidQuantity

/-- What a time marks. -/
def timeMarks (raw : ℕ) : Flags :=
  if raw = kNullTime then kQualityNullSourceValue ||| kQualityInvalidTime
  else flagIf (timeOf raw = none) kQualityInvalidTime

/-- Of a price, only a positive one is normalised. -/
def priceDecimals (scale : ℕ) (raw : ℤ) : List Normalised :=
  if 0 < raw then [⟨scale, raw⟩] else []

/-- Any other decimal is normalised unless it is null. -/
def decimalDecimals (null : ℤ) (scale : ℕ) (raw : ℤ) : List Normalised :=
  if raw = null then [] else [⟨scale, raw⟩]

/-- The check of `NormalizeP6` is that the exact product fits. -/
theorem fits_iff_check {scale : ℕ} {raw : ℤ} :
    Fits scale raw ↔ ¬(0 < raw ∧ int64Max.tdiv (10 ^ (6 - scale)) < raw ∨
      raw < 0 ∧ raw < int64Min.tdiv (10 ^ (6 - scale))) := by
  refine ⟨fits_check, fun h => ?_⟩
  have hpos : (0 : ℤ) < 10 ^ (6 - scale) := by positivity
  have hmax : int64Max = 2 ^ 63 - 1 := rfl
  have hmin : int64Min = -(2 ^ 63) := rfl
  rw [not_or, not_and, not_and, not_lt, not_lt] at h
  rcases lt_trichotomy raw 0 with hneg | rfl | hraw
  · have hlow := h.2 hneg
    rw [hmin, Int.neg_tdiv, Int.tdiv_eq_ediv_of_nonneg (by decide)] at hlow
    have hprod : -raw * 10 ^ (6 - scale) ≤ 2 ^ 63 :=
      (Int.le_ediv_iff_mul_le hpos).1 (by omega)
    have hsign : raw * 10 ^ (6 - scale) ≤ 0 := mul_nonpos_of_nonpos_of_nonneg hneg.le hpos.le
    rw [Int.neg_mul] at hprod
    exact ⟨by omega, by omega⟩
  · rw [Fits, zero_mul]
    exact ⟨by decide, by decide⟩
  · have hhigh := h.1 hraw
    rw [Int.tdiv_eq_ediv_of_nonneg (by decide)] at hhigh
    have hprod : raw * 10 ^ (6 - scale) ≤ int64Max := (Int.le_ediv_iff_mul_le hpos).1 hhigh
    have hsign : 0 ≤ raw * 10 ^ (6 - scale) := mul_nonneg hraw.le hpos.le
    exact ⟨by omega, hprod⟩

namespace Computes

theorem normalizeP6 {value : FixedDecimal} (hscale : value.sourceScale ≤ 6) :
    Computes (normalizeP6 value) (inMillionths value) 0
      (if value.rawValid = true then [⟨value.sourceScale, value.raw⟩] else []) := by
  intro s
  rw [L2Flow.normalizeP6, bind_ok (require_ok hscale s), inMillionths]
  by_cases hvalid : value.rawValid = true
  · rw [if_neg (by simp [hvalid]), if_pos hvalid, if_pos hvalid]
    by_cases hcheck : ¬(0 < value.raw ∧ int64Max.tdiv (10 ^ (6 - value.sourceScale)) < value.raw ∨
      value.raw < 0 ∧ value.raw < int64Min.tdiv (10 ^ (6 - value.sourceScale)))
    · rw [bind_ok (require_ok hcheck s)]
      exact ⟨rfl, BitVec.or_zero.symm, List.forall_mem_singleton.2 (fits_iff_check.2 hcheck)⟩
    · rw [bind_error (require_error hcheck s)]
      exact fun _ => ⟨_, List.mem_singleton_self _, fun hfits => hcheck (fits_iff_check.1 hfits)⟩
  · rw [if_pos (by simpa using hvalid), if_neg hvalid, if_neg hvalid]
    exact pure s

theorem loadDecimalRaw {loadRaw : Decoder ℤ} {raw : ℤ} (null : ℤ) (scale : ℕ)
    (h : Computes loadRaw raw 0 []) :
    Computes (loadDecimalRaw loadRaw null scale) (rawDecimal null scale raw) (nullMarks null raw)
      [] := by
  rw [L2Flow.loadDecimalRaw]
  refine next h ?_
  unfold nullMarks flagIf
  split_ifs with hnull
  · have hvalue : rawDecimal null scale raw = { raw := raw, sourceScale := scale } := by
      simp [rawDecimal, hnull]
    rw [hvalue]
    exact Gives.cast (mark_then (mark _) pure) BitVec.or_zero rfl
  · have hvalue : rawDecimal null scale raw =
        { raw := raw, sourceScale := scale, rawValid := true } := by
      simp [rawDecimal, hnull]
    rw [hvalue]
    exact pure

/-- `DecodePrice32` and `DecodePrice64`. -/
theorem decodePrice {loadRaw : Decoder FixedDecimal} {null raw : ℤ} {scale : ℕ}
    (h : Computes loadRaw (rawDecimal null scale raw) (nullMarks null raw) []) (hscale : scale ≤ 6)
    (hnull : null ≤ 0) :
    Computes (decodePrice loadRaw) (priceOf null scale raw)
      (nullMarks null raw ||| priceMarks null raw) (priceDecimals scale raw) := by
  rw [L2Flow.decodePrice]
  refine mark_then h (Gives.ite (fun hinvalid => ?_) fun hvalid => Gives.ite (fun hnonpos => ?_)
    fun hpos => ?_)
  · have hraw : raw = null := by simpa [rawDecimal] using hinvalid
    have hle : raw ≤ 0 := hraw.trans_le hnull
    rw [priceOf, if_pos hle, priceMarks, flagIf, if_neg (by simp [hraw]), priceDecimals,
      if_neg (not_lt.2 hle)]
    exact pure
  · change raw ≤ 0 at hnonpos
    have hraw : raw ≠ null := by simpa [rawDecimal] using hvalid
    rw [priceOf, if_pos hnonpos, priceMarks, flagIf, if_pos ⟨hraw, hnonpos⟩, priceDecimals,
      if_neg (not_lt.2 hnonpos)]
    exact Gives.cast (mark_then (mark _) pure) BitVec.or_zero rfl
  · change ¬raw ≤ 0 at hpos
    have hvalid' : (rawDecimal null scale raw).rawValid = true := by simpa using hvalid
    rw [priceOf, if_neg hpos, priceMarks, flagIf, if_neg (fun h => hpos h.2), priceDecimals,
      if_pos (not_le.1 hpos)]
    exact Gives.cast (normalizeP6 hscale) rfl (if_pos hvalid')

theorem decodePrice32 (offset : ℕ) {scale : ℕ} (hscale : scale ≤ 6) :
    Computes (decodePrice32 body offset scale)
      (priceOf kNullI32 scale (signed 32 (wire body 4 offset)))
      (nullMarks kNullI32 (signed 32 (wire body 4 offset)) |||
        priceMarks kNullI32 (signed 32 (wire body 4 offset)))
      (priceDecimals scale (signed 32 (wire body 4 offset))) :=
  decodePrice (loadDecimalRaw _ _ (loadI32 (by decide) _)) hscale (by decide)

theorem decodePrice64 (offset : ℕ) {scale : ℕ} (hscale : scale ≤ 6) :
    Computes (decodePrice64 body offset scale)
      (priceOf kNullI64 scale (signed 64 (wire body 8 offset)))
      (nullMarks kNullI64 (signed 64 (wire body 8 offset)) |||
        priceMarks kNullI64 (signed 64 (wire body 8 offset)))
      (priceDecimals scale (signed 64 (wire body 8 offset))) :=
  decodePrice (loadDecimalRaw _ _ (loadI64 (by decide) _)) hscale (by decide)

theorem decodeDecimal64 (offset : ℕ) {scale : ℕ} (hscale : scale ≤ 6) :
    Computes (decodeDecimal64 body offset scale)
      (inMillionths (rawDecimal kNullI64 scale (signed 64 (wire body 8 offset))))
      (nullMarks kNullI64 (signed 64 (wire body 8 offset)))
      (decimalDecimals kNullI64 scale (signed 64 (wire body 8 offset))) := by
  refine Gives.cast (mark_then (loadDecimalRaw _ _ (loadI64 (by decide) _)) (normalizeP6 hscale))
    BitVec.or_zero ?_
  unfold decimalDecimals
  by_cases hnull : signed 64 (wire body 8 offset) = kNullI64
  · rw [if_pos hnull, if_neg (by simp [rawDecimal, hnull])]
  · rw [if_neg hnull, if_pos (by simp [rawDecimal, hnull])]
    rfl

theorem decodeQuantity (offset scale : ℕ) (nullable : Bool) :
    Computes (decodeQuantity body offset scale nullable)
      (quantityOf scale nullable (signed 64 (wire body 8 offset)))
      (quantityMarks nullable (signed 64 (wire body 8 offset))) [] := by
  rw [L2Flow.decodeQuantity]
  refine next (loadI64 (by decide) _) ?_
  generalize signed 64 (wire body 8 offset) = raw
  rw [quantityMarks]
  refine Gives.ite (fun hnull => ?_) fun hvalid => Gives.ite (fun hneg => ?_) fun hnonneg => ?_
  · have hvalue : quantityOf scale nullable raw = { raw := raw, scale := scale } := by
      simp [quantityOf, hnull]
    rw [if_pos hnull, hvalue]
    exact Gives.cast (mark_then (mark _) pure) BitVec.or_zero rfl
  · have hvalue : quantityOf scale nullable raw = { raw := raw, scale := scale } := by
      simp [quantityOf, hneg]
    rw [if_neg hvalid, flagIf, if_pos hneg, hvalue]
    exact Gives.cast (mark_then (mark _) pure) BitVec.or_zero rfl
  · have hvalue : quantityOf scale nullable raw =
        { raw := raw, scale := scale, valid := true } := by
      rw [quantityOf, decide_eq_true ⟨by omega, hvalid⟩]
    rw [if_neg hvalid, flagIf, if_neg hnonneg, hvalue]
    exact pure

theorem decodeTime (raw : ℕ) : Computes (decodeTime raw) (timeOf raw) (timeMarks raw) [] := by
  rw [L2Flow.decodeTime, timeMarks]
  refine Gives.ite (fun hnull => ?_) fun hvalid => Gives.ite (fun hbad => ?_) fun hgood => ?_
  · have hnone : timeOf raw = none := if_pos (Or.inl hnull)
    rw [if_pos hnull, hnone]
    exact Gives.cast (mark_then (mark _) pure) BitVec.or_zero rfl
  · have hnone : timeOf raw = none := if_pos (Or.inr hbad)
    rw [if_neg hvalid, flagIf, if_pos hnone, hnone]
    exact Gives.cast (mark_then (mark _) pure) BitVec.or_zero rfl
  · rw [if_neg hvalid, flagIf, timeOf, if_neg (not_or.2 ⟨hvalid, hgood⟩), if_neg (by simp)]
    exact pure

/-! ### The common part -/

theorem initializeCommon (message : OwnedMessageView) (tradeDate : ℕ) (market : Market)
    (kind : CanonicalKind) :
    Computes (initializeCommon message tradeDate market kind)
      (commonOf message tradeDate market kind) (timeMarks message.header.localTimeRaw) [] :=
  Gives.cast (mark_then (decodeTime _) pure) BitVec.or_zero rfl

theorem readIdentity (market : Market) (fixedBytes : ℕ) (streamOffset : Option ℕ)
    (securityOffset : ℕ) (sourceOffset : Option ℕ) (limits : DecoderLimits)
    (common : CanonicalCommon) :
    Computes
      (readIdentity body market fixedBytes streamOffset securityOffset sourceOffset limits common)
      (withIdentity common market (streamOffset.elim [] (textBytes body))
        (sourceOffset.elim [] (textBytes body)) (textBytes body securityOffset)) 0 [] :=
  next (readOptionalText _ _ _) (next (readText _ _ _ _) (next (readOptionalText _ _ _) pure))

end Computes

end L2Flow
