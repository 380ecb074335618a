import L2Flow.WellFormed
import Mathlib.Tactic.Linarith
import Mathlib.Tactic.Positivity

/-!
# Bodies laid out as they should be

A layout writes the fixed fields little-endian at their offsets, and puts the dynamic blocks
anywhere after the fixed part, apart from each other, each with a descriptor that points to
it. `Yields` is what a reading step does on such a body : from a table in which the ranges of
its blocks are free, it ends with a result that satisfies `post`, and the blocks are
protected.
-/

namespace L2Flow

open LittleEndian (bytes signed unsigned)

variable {α β : Type} {body : List UInt8} {fixedBytes : ℕ}

/-! ## Steps that succeed -/

/-- There is room in the table for the ranges `new`, and they are free. -/
structure Scan.Ready (s : Scan) (new : List Bytes.Range) : Prop where
  protecting : s.protecting = true
  room : (s.ranges ++ new).length ≤ s.capacity
  apart : (s.ranges ++ new).Pairwise Bytes.Range.Apart
  small : ∀ r ∈ new, r.stop ≤ sizeMax

/-- From a table that is ready for the ranges `new`, the step ends with a result, and they
have been protected. -/
def Yields (m : Decoder α) (new : List Bytes.Range) (post : α → Prop) : Prop :=
  ∀ s, s.Ready new → ∃ a s', m s = .ok a s' ∧ post a ∧ s'.ranges = s.ranges ++ new ∧
    s'.protecting = s.protecting ∧ s'.capacity = s.capacity

namespace Yields

variable {m : Decoder α} {new new' : List Bytes.Range} {post post' : α → Prop}

theorem pure {a : α} (h : post a) : Yields (pure a) [] post :=
  fun s _ => ⟨a, s, rfl, h, (List.append_nil _).symm, rfl, rfl⟩

theorem mono (h : Yields m new post) (hpost : ∀ a, post a → post' a) : Yields m new post' := by
  intro s hs
  obtain ⟨a, s', hrun, ha, hframe⟩ := h s hs
  exact ⟨a, s', hrun, hpost a ha, hframe⟩

theorem bind {f : α → Decoder β} {post' : β → Prop} (hm : Yields m new post)
    (hf : ∀ a, post a → Yields (f a) new' post') : Yields (m >>= f) (new ++ new') post' := by
  intro s hs
  have happend : s.ranges ++ (new ++ new') = s.ranges ++ new ++ new' :=
    (List.append_assoc _ _ _).symm
  have hroom := hs.room
  have hapart := hs.apart
  rw [happend] at hroom hapart
  have hready : s.Ready new := by
    refine ⟨hs.protecting, ?_, (List.pairwise_append.1 hapart).1, fun r hr => ?_⟩
    · rw [List.length_append] at hroom
      omega
    · exact hs.small r (List.mem_append_left _ hr)
  obtain ⟨a, s', hrun, ha, hranges, hprotecting, hcapacity⟩ := hm s hready
  have hready' : s'.Ready new' := by
    refine ⟨hprotecting.trans hs.protecting, ?_, ?_, fun r hr => ?_⟩
    · rw [hranges, hcapacity]
      exact hroom
    · rw [hranges]
      exact hapart
    · exact hs.small r (List.mem_append_right _ hr)
  obtain ⟨b, s'', hrun', hb, hranges', hprotecting', hcapacity'⟩ := hf a ha s' hready'
  refine ⟨b, s'', (bind_ok hrun).trans hrun', hb, ?_, hprotecting'.trans hprotecting,
    hcapacity'.trans hcapacity⟩
  rw [hranges', hranges, happend]

/-- A step that protects nothing, and the rest. -/
theorem next {f : α → Decoder β} {post' : β → Prop} (hm : Yields m [] post)
    (hf : ∀ a, post a → Yields (f a) new' post') : Yields (m >>= f) new' post' :=
  hm.bind hf

theorem ite {condition : Prop} [Decidable condition] {m' : Decoder α}
    (hpos : condition → Yields m new post) (hneg : ¬condition → Yields m' new post) :
    Yields (if condition then m else m') new post := by
  split_ifs with h
  · exact hpos h
  · exact hneg h

theorem require {condition : Prop} [Decidable condition] (h : condition) (e : DecodeError) :
    Yields (L2Flow.require e condition) [] fun _ => True :=
  fun s _ => ⟨(), s, require_ok h s, trivial, (List.append_nil _).symm, rfl, rfl⟩

theorem modify {f : Scan → Scan} (hf : ∀ s, (f s).ranges = s.ranges ∧
    (f s).protecting = s.protecting ∧ (f s).capacity = s.capacity) :
    Yields (modify f) [] fun _ => True := by
  intro s _
  obtain ⟨hranges, hprotecting, hcapacity⟩ := hf s
  exact ⟨(), f s, rfl, trivial, hranges.trans (List.append_nil _).symm, hprotecting, hcapacity⟩

theorem mark (flags : Flags) : Yields (mark flags) [] fun _ => True :=
  modify fun _ => ⟨rfl, rfl, rfl⟩

theorem markIf (condition : Prop) [Decidable condition] (flags : Flags) :
    Yields (markIf condition flags) [] fun _ => True :=
  ite (fun _ => mark flags) fun _ => pure trivial

/-! ## Fixed fields -/

theorem load {width offset n : ℕ} (h : Bytes.At body offset (bytes width n))
    (hn : n < 256 ^ width) (failure : DecodeError) :
    Yields (load body width offset failure) [] fun value => value = n := by
  have hle := h.le_length
  rw [LittleEndian.length_bytes] at hle
  rw [L2Flow.load, loadUnsigned_of_le hle]
  exact (modify (f := fun s => s.load offset width) fun _ => ⟨rfl, rfl, rfl⟩).next fun _ _ =>
    pure (h.value hn)

theorem loadI32 {offset : ℕ} {n : ℤ} (h : Bytes.At body offset (bytes 4 (unsigned 32 n)))
    (hlow : -2 ^ 31 ≤ n) (hhigh : n < 2 ^ 31) (failure : DecodeError) :
    Yields (loadI32 body offset failure) [] fun value => value = n := by
  refine (load h (LittleEndian.unsigned_lt 32 n) failure).next fun value hvalue => pure ?_
  rw [hvalue]
  exact LittleEndian.signed_unsigned (by decide) hlow hhigh

theorem loadI64 {offset : ℕ} {n : ℤ} (h : Bytes.At body offset (bytes 8 (unsigned 64 n)))
    (hlow : -2 ^ 63 ≤ n) (hhigh : n < 2 ^ 63) (failure : DecodeError) :
    Yields (loadI64 body offset failure) [] fun value => value = n := by
  refine (load h (LittleEndian.unsigned_lt 64 n) failure).next fun value hvalue => pure ?_
  rw [hvalue]
  exact LittleEndian.signed_unsigned (by decide) hlow hhigh

/-! ## Blocks -/

theorem protectDynamicRange {start size : ℕ} (hpos : 0 < size) :
    Yields (protectDynamicRange start size) [⟨start, start + size⟩] fun _ => True := by
  intro s hs
  have hcond : ¬(s.protecting = false ∨ size = 0) := by simp [hs.protecting, hpos.ne']
  have hsmall : start + size ≤ sizeMax := hs.small _ List.mem_cons_self
  have hapart : ∀ r ∈ s.ranges, r.Apart ⟨start, start + size⟩ := fun r hr =>
    (List.pairwise_append.1 hs.apart).2.2 r hr _ List.mem_cons_self
  have hroom : s.ranges.length < s.capacity := by
    have := hs.room
    rw [List.length_append] at this
    exact this
  refine ⟨(), s.protect start size, ?_, trivial, rfl, rfl, rfl⟩
  rw [L2Flow.protectDynamicRange, bind_ok (show (get : Decoder Scan) s = .ok s s from rfl),
    if_neg hcond, bind_ok (require_ok (by omega) s), bind_ok (require_ok hapart s),
    bind_ok (require_ok (Or.inl hroom) s)]
  rfl

end Yields

/-- A text, the offset of its descriptor, and its distance from the descriptor. -/
structure TextPlace where
  offset : ℕ
  text : List UInt8
  relative : ℕ

/-- The range of a text, if it is not empty. -/
def TextPlace.ranges (place : TextPlace) : List Bytes.Range :=
  named (place.offset + place.relative) place.text.length

/-- The descriptor of a text points to it. A text that is empty has no place; its descriptor
holds zero, or any distance that stays inside the body. -/
structure TextAt (body : List UInt8) (fixedBytes : ℕ) (place : TextPlace) : Prop where
  near : place.relative < 2 ^ 32
  descriptor : Bytes.At body place.offset
    (bytes 2 place.text.length ++ bytes 4 place.relative)
  block : place.text ≠ [] → fixedBytes ≤ place.offset + place.relative ∧
    Bytes.At body (place.offset + place.relative) place.text
  empty : place.text = [] → place.relative = 0 ∨ place.offset + place.relative ≤ body.length

/-- What the decoder asks of a text. -/
structure TextOk (maximumBytes : ℕ) (text : List UInt8) : Prop where
  printable : isPrintableAscii text = true
  length_le : text.length ≤ maximumBytes

theorem readText_yields {place : TextPlace} {maximumBytes : ℕ} {requireNonempty : Bool}
    (hlaid : TextAt body fixedBytes place) (hok : TextOk maximumBytes place.text)
    (hempty : requireNonempty = true → place.text ≠ [])
    (hmaximum : maximumBytes ≤ kMaximumIdentityBytes) (hfixed : fixedBytes ≤ body.length)
    (hsize : body.length ≤ sizeMax) (hd : place.offset + 6 ≤ fixedBytes) :
    Yields (readText body place.offset fixedBytes maximumBytes requireNonempty) place.ranges
      fun value => value = place.text := by
  obtain ⟨offset, text, relative⟩ := place
  obtain ⟨hnear, hdescriptor, hblock, hnone⟩ := hlaid
  dsimp only [TextPlace.ranges] at *
  obtain ⟨hsizeField, hoffsetField⟩ := hdescriptor.append
  rw [LittleEndian.length_bytes] at hoffsetField
  have hlen : text.length < 256 ^ 2 := by
    have := hok.length_le
    have : kMaximumIdentityBytes = 32 := rfl
    omega
  have hmax : sizeMax = 2 ^ 64 - 1 := rfl
  rw [readText]
  refine (Yields.require hfixed _).next fun _ _ => ?_
  refine (Yields.load hsizeField hlen _).next fun size hsizeEq => ?_
  refine (Yields.load hoffsetField hnear _).next fun relativeOffset hrelativeEq => ?_
  subst hsizeEq hrelativeEq
  refine (Yields.require hok.length_le _).next fun _ _ => ?_
  by_cases hnil : text = []
  · have hzero : text.length = 0 := List.length_eq_zero_iff.2 hnil
    have hnonempty : requireNonempty = false := by
      rcases hreq : requireNonempty with - | -
      · rfl
      · exact absurd hnil (hempty hreq)
    have hoffset : EmptyOffset body offset relativeOffset :=
      (hnone hnil).imp_right fun hle => ⟨by omega, hle⟩
    rw [if_pos hzero, named, if_pos hzero]
    refine (Yields.require hoffset _).next fun _ _ => ?_
    exact (Yields.require hnonempty _).next fun _ _ => Yields.pure hnil.symm
  · have hpos : 0 < text.length := List.length_pos_iff.2 hnil
    obtain ⟨hafter, hat⟩ := hblock hnil
    have hend := hat.le_length
    rw [if_neg hpos.ne', named, if_neg hpos.ne']
    refine (Yields.require ⟨by omega, by omega⟩ _).next fun _ _ => ?_
    refine (Yields.require ⟨hafter, by omega, by omega⟩ _).next fun _ _ => ?_
    refine (Yields.modify (f := fun s => s.load (offset + relativeOffset) text.length)
      fun _ => ⟨rfl, rfl, rfl⟩).next fun _ _ => ?_
    rw [hat.slice, ← List.append_nil [_]]
    refine (Yields.require hok.printable _).next fun _ _ => ?_
    exact (Yields.protectDynamicRange hpos).bind fun _ _ => Yields.pure rfl

/-! ## Values -/

/-- A decimal before it is normalised. -/
def rawDecimal (null : ℤ) (scale : ℕ) (raw : ℤ) : FixedDecimal where
  raw := raw
  sourceScale := scale
  rawValid := decide (raw ≠ null)

/-- A decimal with its value in millionths. -/
def inMillionths (value : FixedDecimal) : FixedDecimal :=
  if value.rawValid = true then
    { value with p6 := value.raw * 10 ^ (6 - value.sourceScale), p6Valid := true }
  else value

/-- A price : only a positive one has a value in millionths. -/
def priceOf (null : ℤ) (scale : ℕ) (raw : ℤ) : FixedDecimal :=
  if raw ≤ 0 then rawDecimal null scale raw else inMillionths (rawDecimal null scale raw)

def quantityOf (scale : ℕ) (nullable : Bool) (raw : ℤ) : ScaledInteger where
  raw := raw
  scale := scale
  valid := decide (0 ≤ raw ∧ ¬(nullable = true ∧ raw = kNullI64))

/-- The nanoseconds from midnight that a time of the wire names. -/
def timeOf (raw : ℕ) : Option ℕ :=
  if raw = kNullTime ∨ 24 ≤ raw / 10000000 ∨ 60 ≤ raw / 100000 % 100 ∨ 60 ≤ raw / 1000 % 100 then
    none
  else
    some ((raw / 10000000 * 3600 + raw / 100000 % 100 * 60 + raw / 1000 % 100) * 1000000000 +
      raw % 1000 * 1000000)

/-- The value in millionths fits in 64 bits. -/
def Fits (scale : ℕ) (raw : ℤ) : Prop :=
  int64Min ≤ raw * 10 ^ (6 - scale) ∧ raw * 10 ^ (6 - scale) ≤ int64Max

instance (scale : ℕ) (raw : ℤ) : Decidable (Fits scale raw) :=
  inferInstanceAs (Decidable (_ ∧ _))

/-- The check of `NormalizeP6` by division is the bound on the product. -/
theorem fits_check {scale : ℕ} {raw : ℤ} (h : Fits scale raw) :
    ¬(0 < raw ∧ int64Max.tdiv (10 ^ (6 - scale)) < raw ∨
      raw < 0 ∧ raw < int64Min.tdiv (10 ^ (6 - scale))) := by
  have hpos : (0 : ℤ) < 10 ^ (6 - scale) := by positivity
  have hmin : int64Min = -(2 ^ 63) := rfl
  rintro (⟨-, hlt⟩ | ⟨-, hlt⟩)
  · rw [Int.tdiv_eq_ediv_of_nonneg (by decide)] at hlt
    exact absurd ((Int.le_ediv_iff_mul_le hpos).2 h.2) (by omega)
  · rw [hmin, Int.neg_tdiv, Int.tdiv_eq_ediv_of_nonneg (by decide)] at hlt
    have hle : -raw ≤ 2 ^ 63 / 10 ^ (6 - scale) := by
      rw [Int.le_ediv_iff_mul_le hpos, Int.neg_mul]
      have := h.1
      rw [hmin] at this
      omega
    omega

def InI32 (n : ℤ) : Prop :=
  -2 ^ 31 ≤ n ∧ n < 2 ^ 31

def InI64 (n : ℤ) : Prop :=
  -2 ^ 63 ≤ n ∧ n < 2 ^ 63

theorem fits_of_inI32 {raw : ℤ} (h : InI32 raw) (scale : ℕ) : Fits scale raw := by
  have hmax : int64Max = 2 ^ 63 - 1 := rfl
  have hmin : int64Min = -2 ^ 63 := rfl
  have hpow : (10 : ℤ) ^ (6 - scale) ≤ 10 ^ 6 := pow_le_pow_right₀ (by decide) (by omega)
  have hpos : (0 : ℤ) < 10 ^ (6 - scale) := by positivity
  obtain ⟨hlow, hhigh⟩ := h
  constructor
  · rw [hmin]
    nlinarith
  · rw [hmax]
    nlinarith

namespace Yields

theorem normalizeP6 {value : FixedDecimal} (hscale : value.sourceScale ≤ 6)
    (hfits : value.rawValid = true → Fits value.sourceScale value.raw) :
    Yields (normalizeP6 value) [] fun result => result = inMillionths value := by
  rw [L2Flow.normalizeP6, inMillionths]
  refine (require hscale _).next fun _ _ => ?_
  by_cases hvalid : value.rawValid = true
  · rw [if_neg (by simp [hvalid]), if_pos hvalid]
    exact (require (fits_check (hfits hvalid)) _).next fun _ _ => pure rfl
  · rw [if_pos (by simpa using hvalid), if_neg hvalid]
    exact pure rfl

theorem loadDecimalRaw {loadRaw : Decoder ℤ} {raw : ℤ} (null : ℤ) (scale : ℕ)
    (h : Yields loadRaw [] fun value => value = raw) :
    Yields (loadDecimalRaw loadRaw null scale) [] fun value =>
      value = rawDecimal null scale raw := by
  rw [L2Flow.loadDecimalRaw]
  refine h.next fun value hvalue => ?_
  subst hvalue
  refine ite (fun hnull => ?_) fun hvalid => pure ?_
  · exact (mark _).next fun _ _ => pure (by simp [rawDecimal, hnull])
  · simp [rawDecimal, hvalid]

theorem decodePrice {loadRaw : Decoder FixedDecimal} {null raw : ℤ} {scale : ℕ}
    (h : Yields loadRaw [] fun value => value = rawDecimal null scale raw) (hscale : scale ≤ 6)
    (hfits : 0 < raw → raw ≠ null → Fits scale raw) (hnull : null ≤ 0) :
    Yields (decodePrice loadRaw) [] fun value => value = priceOf null scale raw := by
  rw [L2Flow.decodePrice]
  refine h.next fun value hvalue => ?_
  subst hvalue
  refine ite (fun hinvalid => pure ?_) fun hvalid => ite (fun hnonpos => ?_) fun hpos => ?_
  · have hraw : raw = null := by simpa [rawDecimal] using hinvalid
    rw [priceOf, if_pos (by omega)]
  · change raw ≤ 0 at hnonpos
    rw [priceOf, if_pos hnonpos]
    exact (mark _).next fun _ _ => pure rfl
  · change ¬raw ≤ 0 at hpos
    rw [priceOf, if_neg hpos]
    refine normalizeP6 hscale fun _ => hfits (by omega) ?_
    simpa [rawDecimal] using hvalid

theorem decodePrice32 {offset scale : ℕ} {raw : ℤ}
    (h : Bytes.At body offset (bytes 4 (unsigned 32 raw))) (hlow : -2 ^ 31 ≤ raw)
    (hhigh : raw < 2 ^ 31) (hscale : scale ≤ 6) :
    Yields (decodePrice32 body offset scale) [] fun value =>
      value = priceOf kNullI32 scale raw := by
  exact decodePrice (loadDecimalRaw _ _ (loadI32 h hlow hhigh _)) hscale
    (fun _ _ => fits_of_inI32 ⟨hlow, hhigh⟩ scale) (by decide)

theorem decodePrice64 {offset scale : ℕ} {raw : ℤ}
    (h : Bytes.At body offset (bytes 8 (unsigned 64 raw))) (hlow : -2 ^ 63 ≤ raw)
    (hhigh : raw < 2 ^ 63) (hscale : scale ≤ 6) (hfits : 0 < raw → Fits scale raw) :
    Yields (decodePrice64 body offset scale) [] fun value =>
      value = priceOf kNullI64 scale raw :=
  decodePrice (loadDecimalRaw _ _ (loadI64 h hlow hhigh _)) hscale (fun hpos _ => hfits hpos)
    (by decide)

theorem decodeDecimal64 {offset scale : ℕ} {raw : ℤ}
    (h : Bytes.At body offset (bytes 8 (unsigned 64 raw))) (hlow : -2 ^ 63 ≤ raw)
    (hhigh : raw < 2 ^ 63) (hscale : scale ≤ 6) (hfits : raw ≠ kNullI64 → Fits scale raw) :
    Yields (decodeDecimal64 body offset scale) [] fun value =>
      value = inMillionths (rawDecimal kNullI64 scale raw) := by
  refine (loadDecimalRaw kNullI64 scale (loadI64 h hlow hhigh _)).next fun value hvalue => ?_
  subst hvalue
  exact normalizeP6 hscale fun hvalid => hfits (by simpa [rawDecimal] using hvalid)

theorem decodeQuantity {offset : ℕ} {raw : ℤ} (scale : ℕ) (nullable : Bool)
    (h : Bytes.At body offset (bytes 8 (unsigned 64 raw))) (hlow : -2 ^ 63 ≤ raw)
    (hhigh : raw < 2 ^ 63) :
    Yields (decodeQuantity body offset scale nullable) [] fun value =>
      value = quantityOf scale nullable raw := by
  rw [L2Flow.decodeQuantity]
  refine (loadI64 h hlow hhigh _).next fun value hvalue => ?_
  subst hvalue
  refine ite (fun hnull => ?_) fun hvalid => ite (fun hneg => ?_) fun hnonneg => pure ?_
  · exact (mark _).next fun _ _ => pure (by simp [quantityOf, hnull])
  · exact (mark _).next fun _ _ => pure (by simp [quantityOf, hneg])
  · rw [quantityOf, decide_eq_true ⟨by omega, hvalid⟩]

theorem decodeTime (raw : ℕ) : Yields (decodeTime raw) [] fun time => time = timeOf raw := by
  rw [L2Flow.decodeTime, timeOf]
  refine ite (fun hnull => ?_) fun hvalid => ite (fun hbad => ?_) fun hgood => pure ?_
  · exact (mark _).next fun _ _ => pure (if_pos (Or.inl hnull)).symm
  · exact (mark _).next fun _ _ => pure (if_pos (Or.inr hbad)).symm
  · rw [if_neg (not_or.2 ⟨hvalid, hgood⟩)]

end Yields

/-! ## The common part -/

/-- The common part that the header of a message gives. -/
def commonOf (message : OwnedMessageView) (tradeDate : ℕ) (market : Market)
    (kind : CanonicalKind) : CanonicalCommon where
  ingressSequence := message.ingressSequence
  vendorSequenceId := message.header.vendorSequenceId
  receiveMonotonicNs := message.receiveMonotonicNs
  tradeDate := tradeDate
  messageKey := message.header.key
  kind := kind
  identity := { market := market }
  vendorLocalTimeRaw := message.header.localTimeRaw
  vendorLocalTimeValid := (timeOf message.header.localTimeRaw).isSome
  vendorLocalTimeNsFromMidnight := (timeOf message.header.localTimeRaw).getD 0

/-- The common part with the identity and the stream of a record. -/
def withIdentity (common : CanonicalCommon) (market : Market)
    (stream source security : List UInt8) : CanonicalCommon :=
  { common with
    mdStreamId := identityBytes stream
    mdStreamIdSize := stream.length
    identity := identityOf market source security }

/-- A text that must be there is laid out, and is what the decoder asks for. -/
structure TextLaid (body : List UInt8) (fixedBytes maximumBytes : ℕ) (place : TextPlace) :
    Prop where
  laid : TextAt body fixedBytes place
  ok : TextOk maximumBytes place.text
  nonempty : place.text ≠ []
  descriptor : place.offset + 6 ≤ fixedBytes

namespace Yields

theorem initializeCommon (message : OwnedMessageView) (tradeDate : ℕ) (market : Market)
    (kind : CanonicalKind) :
    Yields (initializeCommon message tradeDate market kind) [] fun common =>
      common = commonOf message tradeDate market kind :=
  (decodeTime _).next fun time htime => pure (by rw [htime]; rfl)

theorem readText {maximumBytes : ℕ} {place : TextPlace}
    (h : TextLaid body fixedBytes maximumBytes place)
    (hmaximum : maximumBytes ≤ kMaximumIdentityBytes) (hfixed : fixedBytes ≤ body.length)
    (hsize : body.length ≤ sizeMax) :
    Yields (readText body place.offset fixedBytes maximumBytes true) place.ranges
      fun text => text = place.text :=
  readText_yields h.laid h.ok (fun _ => h.nonempty) hmaximum hfixed hsize h.descriptor

theorem readOptionalText {maximumBytes : ℕ} {place : Option TextPlace}
    (h : ∀ p ∈ place, TextLaid body fixedBytes maximumBytes p)
    (hmaximum : maximumBytes ≤ kMaximumIdentityBytes) (hfixed : fixedBytes ≤ body.length)
    (hsize : body.length ≤ sizeMax) :
    Yields (readOptionalText body (place.map (·.offset)) fixedBytes maximumBytes)
      (place.elim [] (·.ranges)) fun text => text = place.elim [] (·.text) := by
  rcases place with - | place
  · exact pure rfl
  · exact readText (h place rfl) hmaximum hfixed hsize

theorem readIdentity {limits : DecoderLimits} (market : Market) (stream : Option TextPlace)
    (security : TextPlace) (source : Option TextPlace) (common : CanonicalCommon)
    (hstream : ∀ p ∈ stream, TextLaid body fixedBytes limits.maximumTextBytes p)
    (hsecurity : TextLaid body fixedBytes limits.maximumTextBytes security)
    (hsource : ∀ p ∈ source, TextLaid body fixedBytes limits.maximumTextBytes p)
    (hmaximum : limits.maximumTextBytes ≤ kMaximumIdentityBytes)
    (hfixed : fixedBytes ≤ body.length) (hsize : body.length ≤ sizeMax) :
    Yields
      (readIdentity body market fixedBytes (stream.map (·.offset)) security.offset
        (source.map (·.offset)) limits common)
      (stream.elim [] (·.ranges) ++ (security.ranges ++ source.elim [] (·.ranges)))
      fun result => result = withIdentity common market (stream.elim [] (·.text))
        (source.elim [] (·.text)) security.text := by
  rw [L2Flow.readIdentity, ← List.append_nil (source.elim _ _)]
  refine (readOptionalText hstream hmaximum hfixed hsize).bind fun _ hstreamEq => ?_
  refine (readText hsecurity hmaximum hfixed hsize).bind fun _ hsecurityEq => ?_
  refine (readOptionalText hsource hmaximum hfixed hsize).bind fun _ hsourceEq => pure ?_
  rw [hstreamEq, hsecurityEq, hsourceEq]
  rfl

end Yields

/-! ## Records -/

/-- The text of a record. -/
def TextValue (maximumBytes : ℕ) (text : List UInt8) : Prop :=
  TextOk maximumBytes text ∧ text ≠ []

/-- A text of a record, where it is laid out. -/
theorem textLaid {body : List UInt8} {fixedBytes maximumBytes : ℕ} {place : TextPlace}
    (hat : TextAt body fixedBytes place) (hvalue : TextValue maximumBytes place.text)
    (hd : place.offset + 6 ≤ fixedBytes) : TextLaid body fixedBytes maximumBytes place :=
  ⟨hat, hvalue.1, hvalue.2, hd⟩

/-- The common part of a record that is decoded. -/
structure CommonCarried (message : OwnedMessageView) (tradeDate : ℕ) (market : Market)
    (kind : CanonicalKind) (stream source security : List UInt8) (channel sequence : ℤ)
    (exchangeTime : ℕ) (common : CanonicalCommon) : Prop where
  header : common.ingressSequence = message.ingressSequence ∧
    common.receiveMonotonicNs = message.receiveMonotonicNs ∧
    common.vendorSequenceId = message.header.vendorSequenceId ∧
    common.messageKey = message.header.key ∧ common.tradeDate = tradeDate ∧ common.kind = kind
  localTime : common.vendorLocalTimeRaw = message.header.localTimeRaw ∧
    common.vendorLocalTimeValid = (timeOf message.header.localTimeRaw).isSome ∧
    common.vendorLocalTimeNsFromMidnight = (timeOf message.header.localTimeRaw).getD 0
  channel : (common.channel : ℤ) = channel
  sequence : (common.nativeSequence : ℤ) = sequence
  identity : common.identity = identityOf market source security
  stream : common.mdStreamId = identityBytes stream ∧ common.mdStreamIdSize = stream.length
  exchangeTime : common.exchangeTimeRaw = exchangeTime ∧
    common.exchangeTimeValid = (timeOf exchangeTime).isSome ∧
    common.exchangeTimeNsFromMidnight = (timeOf exchangeTime).getD 0

section Common

variable {message : OwnedMessageView} {tradeDate : ℕ} {market : Market} {kind : CanonicalKind}
  {stream source security : List UInt8} {channel sequence : ℤ} {exchangeTime : ℕ}
  {common : CanonicalCommon}

theorem commonCarried {number : ℕ} (hchannel : (number : ℤ) = channel) (hsequence : 0 ≤ sequence)
    (hcommon : common = withExchangeTime
      { withIdentity (commonOf message tradeDate market kind) market stream source security with
        nativeSequence := sequence.toNat
        channel := number } exchangeTime (timeOf exchangeTime)) (quality : Flags) :
    CommonCarried message tradeDate market kind stream source security channel sequence
      exchangeTime { common with qualityFlags := quality } where
  header := by subst hcommon; exact ⟨rfl, rfl, rfl, rfl, rfl, rfl⟩
  localTime := by subst hcommon; exact ⟨rfl, rfl, rfl⟩
  channel := by subst hcommon; exact hchannel
  sequence := by subst hcommon; exact Int.toNat_of_nonneg hsequence
  identity := by subst hcommon; rfl
  stream := by subst hcommon; exact ⟨rfl, rfl⟩
  exchangeTime := by subst hcommon; exact ⟨rfl, rfl, rfl⟩

/-- The catalog changes none of it. -/
theorem CommonCarried.applyCatalog (h : CommonCarried message tradeDate market kind stream source
    security channel sequence exchangeTime common) (catalog : InstrumentCatalog) :
    CommonCarried message tradeDate market kind stream source security channel sequence
      exchangeTime (applyCatalog catalog common).2 := by
  rw [L2Flow.applyCatalog]
  split
  · exact ⟨h.header, h.localTime, h.channel, h.sequence, h.identity, h.stream, h.exchangeTime⟩
  · exact ⟨h.header, h.localTime, h.channel, h.sequence, h.identity, h.stream, h.exchangeTime⟩

end Common

/-! ## The blocks of a body -/

/-- There are at most `number` blocks, and they end in the body. -/
structure BlocksIn (body : List UInt8) (number : ℕ) (blocks : List Bytes.Range) : Prop where
  few : blocks.length ≤ number
  inside : ∀ r ∈ blocks, r.stop ≤ body.length

namespace BlocksIn

variable {number number' : ℕ} {blocks blocks' : List Bytes.Range}

theorem append (h : BlocksIn body number blocks) (h' : BlocksIn body number' blocks') :
    BlocksIn body (number + number') (blocks ++ blocks') where
  few := by
    rw [List.length_append]
    exact Nat.add_le_add h.few h'.few
  inside := fun r hr => (List.mem_append.1 hr).elim (h.inside r) (h'.inside r)

/-- A block is empty and has no range, or it ends in the body. -/
theorem named {start size : ℕ} (h : 0 < size → start + size ≤ body.length) :
    BlocksIn body 1 (named start size) := by
  rw [L2Flow.named]
  split_ifs with hzero
  · exact ⟨by simp, by simp⟩
  · exact ⟨le_of_eq rfl, fun r hr => List.mem_singleton.1 hr ▸ h (Nat.pos_of_ne_zero hzero)⟩

theorem text {place : TextPlace} (h : TextAt body fixedBytes place) :
    BlocksIn body 1 place.ranges :=
  named fun hpos => (h.block (List.ne_nil_of_length_pos hpos)).2.le_length

/-- The empty table of a call is ready for the blocks, if it has room for so many. -/
theorem ready {maximumRanges : ℕ} (grows : ℕ → Bool) (h : BlocksIn body number blocks)
    (hroom : number ≤ maximumRanges) (hsize : body.length ≤ sizeMax)
    (hapart : blocks.Pairwise Bytes.Range.Apart) : (scope grows maximumRanges).Ready blocks where
  protecting := rfl
  room := by
    rw [scope, List.nil_append]
    exact h.few.trans hroom
  apart := hapart
  small := fun r hr => (h.inside r hr).trans hsize

end BlocksIn

end L2Flow
