import L2Flow.SnapshotDecoder

/-!
# Accepted bodies are well formed

`Shape` lists what a layout has : the size of its fixed part, its texts, its level lists and
the layout of the orders. From a shape and a body one reads off which ranges the descriptors
name (`namedRanges`), down to the orders of every level. A body that is decoded is
`BodyWf` : these ranges are apart and after the fixed part, and every limit is kept.

Nothing outside the body is ever loaded, and no subtraction of the queue total underflows,
whatever the bytes are (`readTick_decodes`, `readSnapshot_decodes`).
-/

namespace L2Flow

/-! ## Shapes -/

/-- The descriptors of a layout : texts with whether they must not be empty, and lists of
levels. -/
structure Shape where
  fixedBytes : ℕ
  texts : List (ℕ × Bool)
  sides : List ℕ
  queue : QueueLayout

def shanghaiTickShape : Shape where
  fixedBytes := kShanghaiTickBytes
  texts := [(12, true), (22, true), (64, true)]
  sides := []
  queue := shanghaiQueue

def shenzhenOrderShape : Shape where
  fixedBytes := kShenzhenOrderBytes
  texts := [(12, true), (18, true), (24, true)]
  sides := []
  queue := shenzhenQueue

def shenzhenTransactionShape : Shape where
  fixedBytes := kShenzhenTransactionBytes
  texts := [(12, true), (34, true), (40, true)]
  sides := []
  queue := shenzhenQueue

def shanghaiSnapshotShape : Shape where
  fixedBytes := kShanghaiSnapshotBytes
  texts := [(4, true), (38, false)]
  sides := [228, 236]
  queue := shanghaiQueue

def shenzhenSnapshotShape : Shape where
  fixedBytes := kShenzhenSnapshotBytes
  texts := [(8, true), (14, true), (20, true), (26, true)]
  sides := [208, 216]
  queue := shenzhenQueue

/-- The layouts of the source. -/
def shapeOf : MessageClass → Option Shape
  | .kShanghaiTick => some shanghaiTickShape
  | .kShenzhenOrder => some shenzhenOrderShape
  | .kShenzhenTransaction => some shenzhenTransactionShape
  | .kShanghaiSnapshot => some shanghaiSnapshotShape
  | .kShenzhenSnapshot => some shenzhenSnapshotShape
  | .kUnsupported => none

section Named

variable (body : List UInt8)

/-- The range of a text, if it is not empty. -/
def textRanges (offset : ℕ) : List Bytes.Range :=
  named (textStart body offset) (textSize body offset)

/-- The range of a list, if it is not empty. -/
def listRanges (itemSize offset : ℕ) : List Bytes.Range :=
  named (listStart body offset) (listCount body offset * itemSize)

/-- The offset of a level of the list with this descriptor. -/
def levelOffset (offset index : ℕ) : ℕ :=
  listStart body offset + index * kLevelItemBytes

/-- The number of orders of a level. -/
def queueCount (offset index : ℕ) : ℕ :=
  listCount body (levelOffset body offset index + 20)

/-- The ranges of the orders of a side, level by level. -/
def queueRanges (layout : QueueLayout) (offset : ℕ) : List Bytes.Range :=
  (List.range (listCount body offset)).flatMap fun index =>
    listRanges body layout.itemSize (levelOffset body offset index + 20)

/-- All ranges that the descriptors of a body name, if they are not empty. -/
def namedRanges (shape : Shape) : List Bytes.Range :=
  (shape.texts.flatMap fun text => textRanges body text.1) ++
    (shape.sides.flatMap (listRanges body kLevelItemBytes) ++
      shape.sides.flatMap (queueRanges body shape.queue))

/-- The number of orders of a side. -/
def sideTotal (offset : ℕ) : ℕ :=
  ((List.range (listCount body offset)).map (queueCount body offset)).sum

end Named

/-- A body is well formed. -/
structure BodyWf (shape : Shape) (limits : DecoderLimits) (body : List UInt8) : Prop where
  within : ∀ r ∈ namedRanges body shape,
    shape.fixedBytes ≤ r.start ∧ r.start < r.stop ∧ r.stop ≤ body.length
  apart : (namedRanges body shape).Pairwise Bytes.Range.Apart
  texts : ∀ text ∈ shape.texts,
    TextAccepted limits.maximumTextBytes text.2 (textBytes body text.1)
  depth : ∀ side ∈ shape.sides, listCount body side ≤ limits.maximumDepthItems
  orders : ∀ side ∈ shape.sides, ∀ index < listCount body side,
    queueCount body side index ≤ wire body 4 (levelOffset body side index + 16)
  queues : (shape.sides.map (sideTotal body)).sum ≤ limits.maximumQueueItems

/-! ## Ticks -/

namespace Decodes

variable {body : List UInt8} {fixedBytes maximumQueueItems : ℕ}

theorem markIf (condition : Prop) [Decidable condition] (flags : Flags) :
    Decodes body fixedBytes maximumQueueItems (markIf condition flags) [] fun _ => True :=
  ite (fun _ => mark flags) fun _ => pure trivial

theorem normalizePrice (price : FixedDecimal) :
    Decodes body fixedBytes maximumQueueItems (normalizePrice price) [] fun _ => True :=
  ite (fun _ => normalizeP6 price) fun _ => (markIf _ _).next fun _ _ => pure trivial

theorem normalizeLimit (orderType : OrderType) (price : FixedDecimal) :
    Decodes body fixedBytes maximumQueueItems (normalizeLimit orderType price) []
      fun _ => True :=
  ite (fun _ => normalizePrice price) fun _ => pure trivial

theorem normalizeAmount (amount : FixedDecimal) :
    Decodes body fixedBytes maximumQueueItems (normalizeAmount amount) [] fun _ => True :=
  ite (fun _ => normalizeP6 amount) fun _ => (markIf _ _).next fun _ _ => pure trivial

theorem readOptionalText {descriptorOffset : Option ℕ} {maximumBytes : ℕ}
    (hfixed : fixedBytes ≤ body.length)
    (hd : ∀ offset ∈ descriptorOffset, offset + 6 ≤ body.length) :
    Decodes body fixedBytes maximumQueueItems
      (readOptionalText body descriptorOffset fixedBytes maximumBytes)
      (descriptorOffset.elim [] (textRanges body))
      fun text => text = descriptorOffset.elim [] (textBytes body) ∧
        ∀ offset ∈ descriptorOffset, TextAccepted maximumBytes true (textBytes body offset) := by
  rcases descriptorOffset with - | offset
  · exact pure ⟨rfl, fun _ h => by cases h⟩
  · refine (readText hfixed (hd offset rfl)).mono fun text htext => ⟨htext.1, ?_⟩
    rintro _ ⟨⟩
    exact htext.1 ▸ htext.2

end Decodes

/-- A tick keeps the common part it had, and its history bit. -/
structure Extends (tick tick' : CanonicalTick) : Prop where
  common : tick'.common = tick.common
  history : Flags.has tick.validity kTickChannelHistoryValid = true →
    Flags.has tick'.validity kTickChannelHistoryValid = true

theorem Extends.refl (tick : CanonicalTick) : Extends tick tick :=
  ⟨rfl, id⟩

theorem Extends.trans {tick tick' tick'' : CanonicalTick} (h : Extends tick tick')
    (h' : Extends tick' tick'') : Extends tick tick'' :=
  ⟨h'.common.trans h.common, fun hh => h'.history (h.history hh)⟩

theorem Flags.has_or_left {flags mask : Flags} (h : Flags.has flags mask = true) (other : Flags) :
    Flags.has (flags ||| other) mask = true := by
  rw [Flags.has_or, h, Bool.true_or]

namespace Decodes

variable {body : List UInt8} {fixedBytes maximumQueueItems : ℕ}

theorem setOrderSide (flag : List UInt8) (tick : CanonicalTick) :
    Decodes body fixedBytes maximumQueueItems (setOrderSide flag tick) [] (Extends tick) := by
  rw [L2Flow.setOrderSide]
  refine ite (fun _ => ?_) fun _ => ite (fun _ => ?_) fun _ => ?_
  · exact pure ⟨rfl, fun h => Flags.has_or_left (Flags.has_or_left h _) _⟩
  · exact pure ⟨rfl, fun h => Flags.has_or_left (Flags.has_or_left h _) _⟩
  · exact (mark _).next fun _ _ => pure (Extends.refl tick)

theorem shanghaiAdd (flag : List UInt8) (tick : CanonicalTick) :
    Decodes body fixedBytes maximumQueueItems (shanghaiAdd flag tick) [] (Extends tick) := by
  rw [L2Flow.shanghaiAdd]
  refine (normalizePrice _).next fun price _ => ?_
  refine (setOrderSide flag _).next fun tick' htick => ?_
  have hprice : Extends tick tick' :=
    ⟨htick.common, fun h => htick.history (Flags.has_or_left (Flags.has_or_left h _) _)⟩
  refine ite (fun _ => pure ?_) fun _ => ?_
  · exact hprice.trans ⟨rfl, fun h => Flags.has_or_left h _⟩
  · refine (markIf _ _).next fun _ _ => (markIf _ _).next fun _ _ => pure ?_
    exact hprice.trans ⟨rfl, id⟩

theorem shanghaiTrade (flag : List UInt8) (tick : CanonicalTick) :
    Decodes body fixedBytes maximumQueueItems (shanghaiTrade flag tick) [] (Extends tick) := by
  rw [L2Flow.shanghaiTrade]
  refine (normalizePrice _).next fun price _ => (normalizeAmount _).next fun amount _ => ?_
  refine (markIf _ _).next fun _ _ => pure ⟨rfl, fun h => ?_⟩
  exact Flags.has_or_left (Flags.has_or_left (Flags.has_or_left (Flags.has_or_left
    (Flags.has_or_left h _) _) _) _) _

theorem shanghaiByType (type flag : List UInt8) (tick : CanonicalTick) :
    Decodes body fixedBytes maximumQueueItems (shanghaiByType type flag tick) []
      (Extends tick) := by
  rw [L2Flow.shanghaiByType]
  refine ite (fun _ => shanghaiAdd flag tick) fun _ => ite (fun _ => ?_) fun _ =>
    ite (fun _ => shanghaiTrade flag tick) fun _ => ite (fun _ => ?_) fun _ => ?_
  · refine (setOrderSide flag _).mono fun tick' htick => Extends.trans ?_ htick
    exact ⟨rfl, fun h => Flags.has_or_left h _⟩
  · refine (markIf _ _).next fun _ _ => pure ⟨rfl, fun h => ?_⟩
    exact Flags.has_or_left h _
  · exact (mark _).next fun _ _ => pure ⟨rfl, id⟩

theorem shenzhenByType (tick : CanonicalTick) :
    Decodes body fixedBytes maximumQueueItems (shenzhenByType tick) [] (Extends tick) := by
  rw [L2Flow.shenzhenByType]
  refine ite (fun _ => ?_) fun _ => ite (fun _ => ?_) fun _ => ?_
  · rw [shenzhenTrade]
    refine (normalizePrice _).next fun price _ => pure ⟨rfl, fun h => ?_⟩
    exact Flags.has_or_left (Flags.has_or_left (Flags.has_or_left h _) _) _
  · rw [shenzhenCancel]
    refine ite (fun _ => pure ⟨rfl, fun h => ?_⟩) fun _ => ?_
    · exact Flags.has_or_left (Flags.has_or_left (Flags.has_or_left h _) _) _
    · refine (mark _).next fun _ _ => pure ⟨rfl, fun h => ?_⟩
      exact Flags.has_or_left (Flags.has_or_left h _) _
  · exact (mark _).next fun _ _ => pure ⟨rfl, id⟩

end Decodes

/-- The identity made of these texts. -/
def identityOf (market : Market) (source security : List UInt8) : ExactIdentity where
  market := market
  securityIdSourceSize := source.length
  securityIdSize := security.length
  securityIdSource := identityBytes source
  securityId := identityBytes security

/-- What the common part of a record says of the message it was read from. -/
structure CommonRead (message : OwnedMessageView) (identity : ExactIdentity)
    (common : CanonicalCommon) : Prop where
  ingressSequence : common.ingressSequence = message.ingressSequence
  messageKey : common.messageKey = message.header.key
  identity : common.identity = identity

/-- What a tick that was read says of its message. -/
structure TickRead (message : OwnedMessageView) (identity : ExactIdentity) (number : ℕ)
    (position : ℤ) (tick : CanonicalTick) : Prop where
  common : CommonRead message identity tick.common
  channel : tick.common.channel = number
  sequence : (tick.common.nativeSequence : ℤ) = position
  sequence_pos : 0 < position
  sequence_lt : position < 2 ^ 63
  history : Flags.has tick.validity kTickChannelHistoryValid = true

namespace Decodes

variable {body : List UInt8} {fixedBytes maximumQueueItems : ℕ}

theorem initializeCommon (message : OwnedMessageView) (tradeDate : ℕ) (market : Market)
    (kind : CanonicalKind) :
    Decodes body fixedBytes maximumQueueItems (initializeCommon message tradeDate market kind) []
      fun common => common.ingressSequence = message.ingressSequence ∧
        common.messageKey = message.header.key :=
  (decodeTime _).next fun _ _ => pure ⟨rfl, rfl⟩

theorem readIdentity (market : Market) (streamOffset : Option ℕ) (securityOffset : ℕ)
    (sourceOffset : Option ℕ) (limits : DecoderLimits) {message : OwnedMessageView}
    {common : CanonicalCommon} (hfixed : fixedBytes ≤ body.length)
    (hstream : ∀ offset ∈ streamOffset, offset + 6 ≤ body.length)
    (hsecurity : securityOffset + 6 ≤ body.length)
    (hsource : ∀ offset ∈ sourceOffset, offset + 6 ≤ body.length)
    (hcommon : common.ingressSequence = message.ingressSequence ∧
      common.messageKey = message.header.key) :
    Decodes body fixedBytes maximumQueueItems
      (readIdentity body market fixedBytes streamOffset securityOffset sourceOffset limits common)
      (streamOffset.elim [] (textRanges body) ++
        (textRanges body securityOffset ++ sourceOffset.elim [] (textRanges body)))
      fun common => CommonRead message
          (identityOf market (sourceOffset.elim [] (textBytes body))
            (textBytes body securityOffset))
          common ∧
        (∀ offset ∈ streamOffset,
          TextAccepted limits.maximumTextBytes true (textBytes body offset)) ∧
        TextAccepted limits.maximumTextBytes true (textBytes body securityOffset) ∧
        ∀ offset ∈ sourceOffset,
          TextAccepted limits.maximumTextBytes true (textBytes body offset) := by
  rw [L2Flow.readIdentity]
  refine (readOptionalText hfixed hstream).bind fun stream ⟨_, hstreamText⟩ => ?_
  refine (readText hfixed hsecurity).bind fun security ⟨hsecurityEq, hsecurityText⟩ => ?_
  rw [← List.append_nil (Option.elim _ _ _)]
  refine (readOptionalText hfixed hsource).bind fun source ⟨hsourceEq, hsourceText⟩ => pure ?_
  subst hsecurityEq hsourceEq
  exact ⟨⟨hcommon.1, hcommon.2, rfl⟩, hstreamText, hsecurityText, hsourceText⟩

/-- What is read of the common part and the native position, put together. -/
theorem tickRead {message : OwnedMessageView} {identity : ExactIdentity}
    {common : CanonicalCommon} (hcommon : CommonRead message identity common) {position : ℤ}
    (hpos : 0 < position) (hlt : position < 2 ^ 63) {number : ℕ} {raw : ℕ} {time : Option ℕ}
    {tick tick' : CanonicalTick} (hext : Extends tick tick')
    (htick : tick.common = withExchangeTime
      { common with nativeSequence := position.toNat, channel := number } raw time)
    (hhistory : Flags.has tick.validity kTickChannelHistoryValid = true) (quality : Flags) :
    TickRead message identity number position
      { tick' with common := { tick'.common with qualityFlags := quality } } := by
  have hcommon' := hext.common.trans htick
  refine ⟨⟨?_, ?_, ?_⟩, ?_, ?_, hpos, hlt, hext.history hhistory⟩
  · exact (congrArg CanonicalCommon.ingressSequence hcommon').trans hcommon.ingressSequence
  · exact (congrArg CanonicalCommon.messageKey hcommon').trans hcommon.messageKey
  · exact (congrArg CanonicalCommon.identity hcommon').trans hcommon.identity
  · exact congrArg CanonicalCommon.channel hcommon'
  · have hsequence := congrArg CanonicalCommon.nativeSequence hcommon'
    show (tick'.common.nativeSequence : ℤ) = position
    rw [hsequence]
    exact Int.toNat_of_nonneg hpos.le

theorem signed_lt (bits n : ℕ) : 2 * LittleEndian.signed bits n < 2 ^ bits := by
  exact BitVec.two_mul_toInt_lt

theorem withQuality {tick : CanonicalTick} {post : CanonicalTick → Prop}
    (h : ∀ quality : Flags,
      post { tick with common := { tick.common with qualityFlags := quality } }) :
    Decodes body fixedBytes maximumQueueItems (withQuality tick) [] post :=
  fun _ s hs => ⟨⟨hs.1, hs.2.trans (List.append_nil _).symm⟩, h s.quality⟩

theorem readShanghaiTick {message : OwnedMessageView} {tradeDate : ℕ} {limits : DecoderLimits}
    (hfixed : 70 ≤ message.body.length) :
    Decodes message.body 70 maximumQueueItems (readShanghaiTick message tradeDate limits)
      (textRanges message.body 12 ++ (textRanges message.body 22 ++ textRanges message.body 64))
      fun tick => TickRead message
          (identityOf .kShanghai [] (textBytes message.body 12))
          (LittleEndian.signed 32 (wire message.body 4 8)).toNat
          (LittleEndian.signed 64 (wire message.body 8 0)) tick ∧
        0 < LittleEndian.signed 32 (wire message.body 4 8) ∧
        ∀ offset ∈ [12, 22, 64],
          TextAccepted limits.maximumTextBytes true (textBytes message.body offset) := by
  rw [L2Flow.readShanghaiTick, ← List.append_nil (textRanges message.body 12),
    ← List.nil_append (textRanges message.body 12 ++ [])]
  refine (check hfixed _).next fun _ _ => ?_
  refine (initializeCommon message tradeDate _ _).next fun common hcommon => ?_
  refine Decodes.bind (readIdentity .kShanghai none 12 none limits hfixed (by simp) (by omega)
    (by simp) hcommon) fun common ⟨hread, _, hsecurity, _⟩ => ?_
  refine (loadI64 (by omega) _).next fun sequence hsequence => ?_
  refine (require (by decide) _).next fun _ hpos => ?_
  refine (loadI32 (by omega) _).next fun channel hchannel => ?_
  refine (require (by decide) _).next fun _ hchannelPos => ?_
  refine (loadI64 (by omega) _).next fun buyOrderId _ => ?_
  refine (loadI64 (by omega) _).next fun sellOrderId _ => ?_
  refine (loadI64 (by omega) _).next fun quantity _ => ?_
  refine (markIf _ _).next fun _ _ => (markIf _ _).next fun _ _ => ?_
  refine (load (by omega) _).next fun exchangeTime _ => (decodeTime _).next fun time _ => ?_
  refine (loadDecimal32Raw (by omega) _).next fun price _ => ?_
  refine (loadDecimal64Raw (by omega) _).next fun amount _ => ?_
  refine (readText hfixed (by omega)).bind fun type ⟨htype, htypeText⟩ => ?_
  rw [← List.append_nil (textRanges message.body 64)]
  refine (readText hfixed (by omega)).bind fun flag ⟨hflag, hflagText⟩ => ?_
  subst hsequence hchannel htype hflag
  refine (shanghaiByType _ _ _).next fun tick htick => withQuality fun quality => ?_
  refine ⟨tickRead hread hpos ?_ htick rfl ?_ quality, hchannelPos, ?_⟩
  · have := signed_lt 64 (wire message.body 8 0)
    omega
  · exact Flags.has_or_left rfl _
  · simp only [List.mem_cons, List.not_mem_nil, or_false, forall_eq_or_imp, forall_eq]
    exact ⟨hsecurity, htypeText, hflagText⟩

theorem readShenzhenOrder {message : OwnedMessageView} {tradeDate : ℕ} {limits : DecoderLimits}
    (hfixed : 58 ≤ message.body.length) :
    Decodes message.body 58 maximumQueueItems (readShenzhenOrder message tradeDate limits)
      (textRanges message.body 12 ++ (textRanges message.body 18 ++ textRanges message.body 24))
      fun tick => TickRead message
          (identityOf .kShenzhen (textBytes message.body 24) (textBytes message.body 18))
          (wire message.body 4 0) (LittleEndian.signed 64 (wire message.body 8 4)) tick ∧
        ∀ offset ∈ [12, 18, 24],
          TextAccepted limits.maximumTextBytes true (textBytes message.body offset) := by
  rw [L2Flow.readShenzhenOrder, ← List.append_nil (_ ++ _)]
  refine (check hfixed _).next fun _ _ => ?_
  refine (initializeCommon message tradeDate _ _).next fun common hcommon => ?_
  refine Decodes.bind (readIdentity .kShenzhen (some 12) 18 (some 24) limits hfixed
    (by simp; omega) (by omega) (by simp; omega) hcommon)
    fun common ⟨hread, hstream, hsecurity, hsource⟩ => ?_
  refine (load (by omega) _).next fun channel hchannel => ?_
  refine (loadI64 (by omega) _).next fun sequence hsequence => ?_
  refine (require (by decide) _).next fun _ hpos => ?_
  refine (loadI64 (by omega) _).next fun quantity _ => ?_
  refine (loadI32 (by omega) _).next fun rawSide _ => ?_
  refine (loadI32 (by omega) _).next fun rawType _ => (markIf _ _).next fun _ _ => ?_
  refine (load (by omega) _).next fun exchangeTime _ => (decodeTime _).next fun time _ => ?_
  refine (loadDecimal64Raw (by omega) _).next fun price _ => ?_
  refine (markIf _ _).next fun _ _ => (markIf _ _).next fun _ _ => ?_
  refine (normalizeLimit _ _).next fun price _ => ?_
  subst hsequence hchannel
  refine withQuality fun quality => ⟨tickRead hread hpos ?_ (Extends.refl _) rfl ?_ quality, ?_⟩
  · have := signed_lt 64 (wire message.body 8 4)
    omega
  · exact Flags.has_or_left (Flags.has_or_left (Flags.has_or_left (Flags.has_or_left
      (Flags.has_or_left (Flags.has_or_left rfl _) _) _) _) _) _
  · simp only [List.mem_cons, List.not_mem_nil, or_false, forall_eq_or_imp, forall_eq]
    exact ⟨hstream 12 rfl, hsecurity, hsource 24 rfl⟩

theorem readShenzhenTransaction {message : OwnedMessageView} {tradeDate : ℕ}
    {limits : DecoderLimits} (hfixed : 70 ≤ message.body.length) :
    Decodes message.body 70 maximumQueueItems (readShenzhenTransaction message tradeDate limits)
      (textRanges message.body 12 ++ (textRanges message.body 34 ++ textRanges message.body 40))
      fun tick => TickRead message
          (identityOf .kShenzhen (textBytes message.body 40) (textBytes message.body 34))
          (wire message.body 4 0) (LittleEndian.signed 64 (wire message.body 8 4)) tick ∧
        ∀ offset ∈ [12, 34, 40],
          TextAccepted limits.maximumTextBytes true (textBytes message.body offset) := by
  rw [L2Flow.readShenzhenTransaction, ← List.append_nil (_ ++ _)]
  refine (check hfixed _).next fun _ _ => ?_
  refine (initializeCommon message tradeDate _ _).next fun common hcommon => ?_
  refine Decodes.bind (readIdentity .kShenzhen (some 12) 34 (some 40) limits hfixed
    (by simp; omega) (by omega) (by simp; omega) hcommon)
    fun common ⟨hread, hstream, hsecurity, hsource⟩ => ?_
  refine (load (by omega) _).next fun channel hchannel => ?_
  refine (loadI64 (by omega) _).next fun sequence hsequence => ?_
  refine (require (by decide) _).next fun _ hpos => ?_
  refine (loadI64 (by omega) _).next fun buyOrderId _ => ?_
  refine (loadI64 (by omega) _).next fun sellOrderId _ => ?_
  refine (loadI64 (by omega) _).next fun quantity _ => ?_
  refine (loadI32 (by omega) _).next fun rawType _ => ?_
  refine (markIf _ _).next fun _ _ => (markIf _ _).next fun _ _ => ?_
  refine (load (by omega) _).next fun exchangeTime _ => (decodeTime _).next fun time _ => ?_
  refine (loadDecimal64Raw (by omega) _).next fun price _ => ?_
  subst hsequence hchannel
  refine (shenzhenByType _).next fun tick htick => withQuality fun quality => ?_
  refine ⟨tickRead hread hpos ?_ htick rfl ?_ quality, ?_⟩
  · have := signed_lt 64 (wire message.body 8 4)
    omega
  · exact Flags.has_or_left rfl _
  · simp only [List.mem_cons, List.not_mem_nil, or_false, forall_eq_or_imp, forall_eq]
    exact ⟨hstream 12 rfl, hsecurity, hsource 40 rfl⟩

end Decodes

/-! ## Books -/

namespace Decodes

variable {body : List UInt8} {fixedBytes maximumQueueItems : ℕ}

/-- A loop : each pass protects its ranges and keeps the invariant. -/
theorem foldlM {β : Type} {f : β → ℕ → Decoder β} {new : ℕ → List Bytes.Range}
    {I : ℕ → β → Prop} (count : ℕ)
    (hf : ∀ index < count, ∀ b, I index b →
      Decodes body fixedBytes maximumQueueItems (f b index) (new index) (I (index + 1)))
    {b : β} (hb : I 0 b) :
    Decodes body fixedBytes maximumQueueItems ((List.range count).foldlM f b)
      ((List.range count).flatMap new) (I count) := by
  intro ranges
  have hloop := Spec.foldlM (I := fun index b s =>
    (s.Sound body fixedBytes maximumQueueItems ∧
      s.ranges = ranges ++ (List.range index).flatMap new) ∧ I index b)
    (E := fun e s => e ≠ .kTruncated ∧ s.Sound body fixedBytes maximumQueueItems) (f := f)
    count ?_ b
  · refine hloop.mono (fun s hs => ⟨⟨hs.1, ?_⟩, hb⟩) (fun _ _ hs => hs) (fun _ _ he => he)
    rw [List.range_zero, List.flatMap_nil, List.append_nil]
    exact hs.2
  · rintro index hindex b s ⟨hs, hI⟩
    have hpass := hf index hindex b hI _ s hs
    rw [List.range_succ, List.flatMap_append, List.flatMap_singleton, ← List.append_assoc]
    exact hpass

theorem sizeSub_of_le {a b : ℕ} (hle : b ≤ a) (ha : a ≤ sizeMax) : sizeSub a b = a - b := by
  rw [sizeMax] at ha
  rw [sizeSub]
  omega

/-- The orders of a level : they are as many as the level says at most, and their total
keeps the limit. -/
theorem readQueue {layout : QueueLayout} {limits : DecoderLimits} {at_ sourceOrderCount total : ℕ}
    (hlayout : layout.quantityOffset + 8 ≤ layout.itemSize)
    (hfixed : fixedBytes ≤ body.length)
    (hat : at_ + 28 ≤ body.length) (htotal : total ≤ limits.maximumQueueItems) :
    Decodes body fixedBytes limits.maximumQueueItems
      (readQueue body layout fixedBytes limits at_ sourceOrderCount total)
      (listRanges body layout.itemSize (at_ + 20))
      fun total' => total' = total + listCount body (at_ + 20) ∧
        total' ≤ limits.maximumQueueItems ∧ listCount body (at_ + 20) ≤ sourceOrderCount := by
  rw [L2Flow.readQueue, ← List.append_nil (listRanges _ _ _)]
  refine (readList (by omega) hfixed (by omega)).bind fun queue hqueue => ?_
  refine (require (by decide) _).next fun _ horders => ?_
  refine (modify fun _ hs => ⟨hs.subtract htotal, rfl⟩).next fun _ _ => ?_
  refine (require (by decide) _).next fun _ hroom => ?_
  rw [sizeSub_of_le htotal limits.queue_le] at hroom
  have hloop : Decodes body fixedBytes limits.maximumQueueItems
      ((List.range queue.count).foldlM (fun (_ : Unit) index => do
        let _ignored ← L2Flow.decodeQuantity body
          (queue.start + index * queue.itemSize + layout.quantityOffset) layout.scale
          layout.nullable
        return ()) ()) ((List.range queue.count).flatMap fun _ => []) fun _ => True := by
    refine foldlM (I := fun _ _ => True) _ (fun index hindex _ _ => ?_) trivial
    have hitem : (index + 1) * layout.itemSize ≤ queue.count * layout.itemSize :=
      Nat.mul_le_mul_right _ hindex
    have hwithin := hqueue.within
    rw [Nat.succ_mul] at hitem
    rw [hqueue.itemSize]
    exact (decodeQuantity (by omega) _ _).next fun _ _ => pure trivial
  rw [List.flatMap_eq_nil_iff.2 fun _ _ => rfl] at hloop
  refine hloop.next fun _ _ => pure ?_
  rw [hqueue.count] at horders hroom ⊢
  exact ⟨rfl, by omega, horders⟩

/-- The levels of one side, under what is known of the function that reads one. -/
theorem readSide {offset maximumItems : ℕ} {levels : ListView}
    (hlevels : ListAccepted body offset kLevelItemBytes maximumItems levels)
    {layout : QueueLayout} {decode : ListView → ℕ → ℕ → Decoder (ℕ × CanonicalBookLevel)}
    (hdecode : ∀ index < levels.count, ∀ total ≤ maximumQueueItems,
      Decodes body fixedBytes maximumQueueItems (decode levels index total)
        (listRanges body layout.itemSize (levelOffset body offset index + 20))
        fun result => result.1 = total + queueCount body offset index ∧
          result.1 ≤ maximumQueueItems ∧
          queueCount body offset index ≤ wire body 4 (levelOffset body offset index + 16))
    {total : ℕ} (htotal : total ≤ maximumQueueItems) :
    Decodes body fixedBytes maximumQueueItems (readSide decode levels total)
      (queueRanges body layout offset)
      fun result => result.1 = total + sideTotal body offset ∧ result.1 ≤ maximumQueueItems ∧
        ∀ index < listCount body offset,
          queueCount body offset index ≤ wire body 4 (levelOffset body offset index + 16) := by
  rw [L2Flow.readSide, queueRanges, sideTotal, ← hlevels.count]
  refine foldlM (I := fun count (result : ℕ × BookLevels) =>
    result.1 = total + ((List.range count).map (queueCount body offset)).sum ∧
      result.1 ≤ maximumQueueItems ∧ ∀ index < count,
        queueCount body offset index ≤ wire body 4 (levelOffset body offset index + 16))
    _ (fun index hindex result hresult => ?_) ⟨rfl, htotal, by simp⟩
  obtain ⟨hsum, hle, horders⟩ := hresult
  rw [← List.append_nil (listRanges _ _ _)]
  refine (hdecode index hindex _ hle).bind fun next hnext => pure ?_
  obtain ⟨hnextSum, hnextLe, hnextOrders⟩ := hnext
  refine ⟨?_, hnextLe, fun i hi => ?_⟩
  · rw [List.range_succ, List.map_append, List.sum_append, List.map_singleton,
      List.sum_singleton, ← Nat.add_assoc, ← hsum]
    exact hnextSum
  · rcases Nat.lt_succ_iff_lt_or_eq.1 hi with hlt | rfl
    · exact horders i hlt
    · exact hnextOrders

/-- A level : what its head is, and then its orders. -/
theorem decodeLevel {offset : ℕ} {levels : ListView} {layout : QueueLayout}
    {limits : DecoderLimits} {head : ℕ → Decoder CanonicalBookLevel}
    (hlevels : ListAccepted body offset kLevelItemBytes limits.maximumDepthItems levels)
    (hlayout : layout.quantityOffset + 8 ≤ layout.itemSize)
    (hfixed : fixedBytes ≤ body.length)
    (hhead : ∀ at_, at_ + 28 ≤ body.length →
      Decodes body fixedBytes limits.maximumQueueItems (head at_) []
        fun level => level.sourceOrderCount = wire body 4 (at_ + 16))
    {index : ℕ} (hindex : index < levels.count) {total : ℕ}
    (htotal : total ≤ limits.maximumQueueItems) :
    Decodes body fixedBytes limits.maximumQueueItems
      (decodeLevel body layout fixedBytes limits head levels index total)
      (listRanges body layout.itemSize (levelOffset body offset index + 20))
      fun result => result.1 = total + queueCount body offset index ∧
        result.1 ≤ limits.maximumQueueItems ∧
        queueCount body offset index ≤ wire body 4 (levelOffset body offset index + 16) := by
  have hat : levels.start + index * levels.itemSize = levelOffset body offset index := by
    rw [levelOffset, hlevels.itemSize, hlevels.start (by omega)]
  have hwithin : levelOffset body offset index + 28 ≤ body.length := by
    have hend := hlevels.within
    have hitem : (index + 1) * kLevelItemBytes ≤ levels.count * kLevelItemBytes :=
      Nat.mul_le_mul_right _ hindex
    rw [Nat.succ_mul] at hitem
    rw [levelOffset, ← hlevels.start (by omega)]
    have : kLevelItemBytes = 28 := rfl
    omega
  rw [L2Flow.decodeLevel, ← List.append_nil (listRanges _ _ _)]
  simp only [hat]
  refine (hhead _ hwithin).next fun level hlevel => ?_
  rw [hlevel]
  refine (readQueue hlayout hfixed hwithin htotal).bind fun total' htotal' => pure ?_
  exact htotal'

/-- Both sides : their depths keep the limit, and so do their orders together. -/
theorem readBook {limits : DecoderLimits} {bidsOffset asksOffset : ℕ} {layout : QueueLayout}
    {decode : ListView → ℕ → ℕ → Decoder (ℕ × CanonicalBookLevel)}
    (hfixed : fixedBytes ≤ body.length) (hbids : bidsOffset + 8 ≤ body.length)
    (hasks : asksOffset + 8 ≤ body.length)
    (hdecode : ∀ offset levels,
      ListAccepted body offset kLevelItemBytes limits.maximumDepthItems levels →
      ∀ index < levels.count, ∀ total ≤ limits.maximumQueueItems,
        Decodes body fixedBytes limits.maximumQueueItems (decode levels index total)
          (listRanges body layout.itemSize (levelOffset body offset index + 20))
          fun result => result.1 = total + queueCount body offset index ∧
            result.1 ≤ limits.maximumQueueItems ∧
            queueCount body offset index ≤ wire body 4 (levelOffset body offset index + 16)) :
    Decodes body fixedBytes limits.maximumQueueItems
      (readBook body fixedBytes limits bidsOffset asksOffset decode)
      (listRanges body kLevelItemBytes bidsOffset ++ (listRanges body kLevelItemBytes asksOffset ++
        (queueRanges body layout bidsOffset ++ queueRanges body layout asksOffset)))
      fun _ => (∀ side ∈ [bidsOffset, asksOffset],
          listCount body side ≤ limits.maximumDepthItems) ∧
        (∀ side ∈ [bidsOffset, asksOffset], ∀ index < listCount body side,
          queueCount body side index ≤ wire body 4 (levelOffset body side index + 16)) ∧
        sideTotal body bidsOffset + sideTotal body asksOffset ≤ limits.maximumQueueItems := by
  have hitem : 0 < kLevelItemBytes := by decide
  rw [L2Flow.readBook, ← List.append_nil (queueRanges body layout asksOffset)]
  refine (readList hitem hfixed hbids).bind fun bids hbids => ?_
  refine (readList hitem hfixed hasks).bind fun asks hasks => (markIf _ _).next fun _ _ => ?_
  refine (readSide hbids (hdecode _ _ hbids) (Nat.zero_le _)).bind fun bidSide hbidSide => ?_
  obtain ⟨hbidTotal, hbidLe, hbidOrders⟩ := hbidSide
  refine (readSide hasks (hdecode _ _ hasks) hbidLe).bind fun askSide haskSide => pure ?_
  obtain ⟨haskTotal, haskLe, haskOrders⟩ := haskSide
  simp only [List.mem_cons, List.not_mem_nil, or_false, forall_eq_or_imp, forall_eq]
  refine ⟨⟨hbids.count ▸ hbids.count_le, hasks.count ▸ hasks.count_le⟩,
    ⟨hbidOrders, haskOrders⟩, ?_⟩
  omega

theorem shanghaiLevelHead {at_ : ℕ} (hat : at_ + 28 ≤ body.length) :
    Decodes body fixedBytes maximumQueueItems (shanghaiLevelHead body at_) []
      fun level => level.sourceOrderCount = wire body 4 (at_ + 16) := by
  rw [L2Flow.shanghaiLevelHead]
  refine (decodePrice32 (by omega) _).next fun _ _ => (decodeQuantity (by omega) _ _).next ?_
  exact fun _ _ => (load (by omega) _).next fun _ hcount => pure hcount

theorem shenzhenLevelHead {at_ : ℕ} (hat : at_ + 28 ≤ body.length) :
    Decodes body fixedBytes maximumQueueItems (shenzhenLevelHead body at_) []
      fun level => level.sourceOrderCount = wire body 4 (at_ + 16) := by
  rw [L2Flow.shenzhenLevelHead]
  refine (decodeQuantity (by omega) _ _).next fun _ _ => (decodePrice64 (by omega) _).next ?_
  exact fun _ _ => (load (by omega) _).next fun _ hcount => pure hcount

end Decodes

/-! ## Snapshots -/

/-- What a snapshot that was read says of its message. -/
def SnapshotRead (message : OwnedMessageView) (identity : ExactIdentity)
    (snapshot : CanonicalSnapshot) : Prop :=
  CommonRead message identity snapshot.common

/-- What was checked of the book of a body. -/
structure BookAccepted (limits : DecoderLimits) (body : List UInt8) (bids asks : ℕ) : Prop where
  depth : ∀ side ∈ [bids, asks], listCount body side ≤ limits.maximumDepthItems
  orders : ∀ side ∈ [bids, asks], ∀ index < listCount body side,
    queueCount body side index ≤ wire body 4 (levelOffset body side index + 16)
  queues : sideTotal body bids + sideTotal body asks ≤ limits.maximumQueueItems

namespace Decodes

variable {body : List UInt8} {fixedBytes maximumQueueItems : ℕ}

theorem withSnapshotQuality {snapshot : CanonicalSnapshot} {post : CanonicalSnapshot → Prop}
    (h : ∀ quality : Flags,
      post { snapshot with common := { snapshot.common with qualityFlags := quality } }) :
    Decodes body fixedBytes maximumQueueItems (withSnapshotQuality snapshot) [] post :=
  fun _ s hs => ⟨⟨hs.1, hs.2.trans (List.append_nil _).symm⟩, h s.quality⟩

theorem readShanghaiSnapshot {message : OwnedMessageView} {tradeDate : ℕ}
    {limits : DecoderLimits} (hfixed : 248 ≤ message.body.length) :
    Decodes message.body 248 limits.maximumQueueItems
      (readShanghaiSnapshot message tradeDate limits)
      (textRanges message.body 4 ++ (textRanges message.body 38 ++
        (listRanges message.body kLevelItemBytes 228 ++
          (listRanges message.body kLevelItemBytes 236 ++
            (queueRanges message.body shanghaiQueue 228 ++
              queueRanges message.body shanghaiQueue 236)))))
      fun snapshot => SnapshotRead message (identityOf .kShanghai [] (textBytes message.body 4))
          snapshot ∧
        (TextAccepted limits.maximumTextBytes true (textBytes message.body 4) ∧
          TextAccepted limits.maximumTextBytes false (textBytes message.body 38)) ∧
        BookAccepted limits message.body 228 236 := by
  rw [L2Flow.readShanghaiSnapshot, ← List.append_nil (textRanges message.body 4),
    ← List.nil_append (textRanges message.body 4 ++ []),
    ← List.append_nil (listRanges message.body kLevelItemBytes 228 ++ _)]
  refine (check hfixed _).next fun _ _ => ?_
  refine (initializeCommon message tradeDate _ _).next fun common hcommon => ?_
  refine Decodes.bind (readIdentity .kShanghai none 4 none limits hfixed (by simp) (by omega)
    (by simp) hcommon) fun common ⟨hread, _, hsecurity, _⟩ => ?_
  refine (readText hfixed (by omega)).bind fun status ⟨hstatus, hstatusText⟩ => ?_
  refine (loadI32 (by omega) _).next fun _ _ => (load (by omega) _).next fun _ _ => ?_
  refine (decodeTime _).next fun _ _ => ?_
  refine (decodePrice32 (by omega) _).next fun _ _ => ?_
  refine (decodePrice32 (by omega) _).next fun _ _ => ?_
  refine (decodePrice32 (by omega) _).next fun _ _ => ?_
  refine (decodePrice32 (by omega) _).next fun _ _ => ?_
  refine (decodePrice32 (by omega) _).next fun _ _ => ?_
  refine (decodePrice32 (by omega) _).next fun _ _ => ?_
  refine (load (by omega) _).next fun _ _ => (decodeQuantity (by omega) _ _).next fun _ _ => ?_
  refine (decodeDecimal64 (by omega) _).next fun _ _ => ?_
  refine (decodeQuantity (by omega) _ _).next fun _ _ => ?_
  refine (decodePrice32 (by omega) _).next fun _ _ => ?_
  refine (decodeQuantity (by omega) _ _).next fun _ _ => ?_
  refine (decodePrice32 (by omega) _).next fun _ _ => ?_
  refine Decodes.bind (readBook hfixed (by omega) (by omega)
    fun offset levels hlevels index hindex total htotal =>
      decodeLevel hlevels (by decide) hfixed (fun _ hat => shanghaiLevelHead hat) hindex
        htotal) fun book hbook => ?_
  refine withSnapshotQuality fun quality => ⟨?_, ⟨hsecurity, hstatus ▸ hstatusText⟩, ?_⟩
  · exact ⟨hread.ingressSequence, hread.messageKey, hread.identity⟩
  · exact ⟨hbook.1, hbook.2.1, hbook.2.2⟩

theorem readShenzhenSnapshot {message : OwnedMessageView} {tradeDate : ℕ}
    {limits : DecoderLimits} (hfixed : 224 ≤ message.body.length) :
    Decodes message.body 224 limits.maximumQueueItems
      (readShenzhenSnapshot message tradeDate limits)
      ((textRanges message.body 8 ++ (textRanges message.body 14 ++ textRanges message.body 20)) ++
        (textRanges message.body 26 ++ (listRanges message.body kLevelItemBytes 208 ++
          (listRanges message.body kLevelItemBytes 216 ++
            (queueRanges message.body shenzhenQueue 208 ++
              queueRanges message.body shenzhenQueue 216)))))
      fun snapshot => SnapshotRead message
          (identityOf .kShenzhen (textBytes message.body 20) (textBytes message.body 14)) snapshot ∧
        (∀ offset ∈ [8, 14, 20, 26],
          TextAccepted limits.maximumTextBytes true (textBytes message.body offset)) ∧
        BookAccepted limits message.body 208 216 := by
  rw [L2Flow.readShenzhenSnapshot,
    ← List.append_nil (listRanges message.body kLevelItemBytes 208 ++ _)]
  refine (check hfixed _).next fun _ _ => ?_
  refine (initializeCommon message tradeDate _ _).next fun common hcommon => ?_
  refine Decodes.bind (readIdentity .kShenzhen (some 8) 14 (some 20) limits hfixed
    (by simp; omega) (by omega) (by simp; omega) hcommon)
    fun common ⟨hread, hstream, hsecurity, hsource⟩ => ?_
  refine (readText hfixed (by omega)).bind fun phase ⟨hphase, hphaseText⟩ => ?_
  refine (load (by omega) _).next fun _ _ => (load (by omega) _).next fun _ _ => ?_
  refine (decodeTime _).next fun _ _ => (loadI64 (by omega) _).next fun _ _ => ?_
  refine (markIf _ _).next fun _ _ => (decodePrice64 (by omega) _).next fun _ _ => ?_
  refine (decodeQuantity (by omega) _ _).next fun _ _ => ?_
  refine (decodeDecimal64 (by omega) _).next fun _ _ => ?_
  refine (decodePrice64 (by omega) _).next fun _ _ => ?_
  refine (decodePrice64 (by omega) _).next fun _ _ => ?_
  refine (decodePrice64 (by omega) _).next fun _ _ => ?_
  refine (decodePrice64 (by omega) _).next fun _ _ => ?_
  refine (decodeQuantity (by omega) _ _).next fun _ _ => ?_
  refine (decodePrice64 (by omega) _).next fun _ _ => ?_
  refine (decodeQuantity (by omega) _ _).next fun _ _ => ?_
  refine (decodePrice64 (by omega) _).next fun _ _ => ?_
  refine Decodes.bind (readBook hfixed (by omega) (by omega)
    fun offset levels hlevels index hindex total htotal =>
      decodeLevel hlevels (by decide) hfixed (fun _ hat => shenzhenLevelHead hat) hindex
        htotal) fun book hbook => ?_
  refine withSnapshotQuality fun quality => ⟨?_, ?_, ?_⟩
  · exact ⟨hread.ingressSequence, hread.messageKey, hread.identity⟩
  · simp only [List.mem_cons, List.not_mem_nil, or_false, forall_eq_or_imp, forall_eq]
    exact ⟨hstream 8 rfl, hsecurity, hsource 20 rfl, hphase ▸ hphaseText⟩
  · exact ⟨hbook.1, hbook.2.1, hbook.2.2⟩

end Decodes

/-! ## The entries -/

/-- The state at the end of a call. -/
def scanOf {α : Type} (result : EStateM.Result DecodeError Scan α) : Scan :=
  match result with
  | .ok _ s => s
  | .error _ s => s

/-- Every load was of bytes of the body, the total never exceeded the limit it was subtracted
from, only a body shorter than the fixed part is truncated, and a body that is accepted is
well formed. -/
structure Accepts {α : Type} (cls : MessageClass) (limits : DecoderLimits) (body : List UInt8)
    (result : EStateM.Result DecodeError Scan α) : Prop where
  loads : ∀ r ∈ (scanOf result).loads, r.stop ≤ body.length
  totals : ∀ total ∈ (scanOf result).totals, total ≤ limits.maximumQueueItems
  truncated : ∀ s, result = .error .kTruncated s →
    ∃ shape ∈ shapeOf cls, body.length < shape.fixedBytes
  wellFormed : ∀ a s, result = .ok a s → ∃ shape ∈ shapeOf cls, BodyWf shape limits body

/-- What was checked of a body by the fields it was read from. -/
structure Checked (shape : Shape) (limits : DecoderLimits) (body : List UInt8) : Prop where
  texts : ∀ text ∈ shape.texts,
    TextAccepted limits.maximumTextBytes text.2 (textBytes body text.1)
  depth : ∀ side ∈ shape.sides, listCount body side ≤ limits.maximumDepthItems
  orders : ∀ side ∈ shape.sides, ∀ index < listCount body side,
    queueCount body side index ≤ wire body 4 (levelOffset body side index + 16)
  queues : (shape.sides.map (sideTotal body)).sum ≤ limits.maximumQueueItems

theorem sound_scope (body : List UInt8) (fixedBytes maximumQueueItems : ℕ) (grows : ℕ → Bool)
    (maximumRanges : ℕ) :
    (scope grows maximumRanges).Sound body fixedBytes maximumQueueItems where
  protecting := rfl
  loads := by simp [scope]
  totals := by simp [scope]
  within := by simp [scope]
  apart := List.Pairwise.nil

/-- A call that reads a layout, and then applies the catalog. -/
theorem accepts_of_decodes {α β : Type} {cls : MessageClass} {limits : DecoderLimits}
    {body : List UInt8} (shape : Shape) (hshape : shapeOf cls = some shape) {m : Decoder α}
    (hshort : body.length < shape.fixedBytes → ∀ s, m s = .error .kTruncated s)
    (hlong : shape.fixedBytes ≤ body.length →
      Decodes body shape.fixedBytes limits.maximumQueueItems m (namedRanges body shape)
        fun _ => Checked shape limits body)
    (f : α → β) (grows : ℕ → Bool) (maximumRanges : ℕ) :
    Accepts cls limits body ((do let a ← m; return f a) (scope grows maximumRanges)) := by
  have hscope := sound_scope body shape.fixedBytes limits.maximumQueueItems grows maximumRanges
  rcases Nat.lt_or_ge body.length shape.fixedBytes with hlt | hle
  · rw [bind_error (hshort hlt _)]
    exact ⟨hscope.loads, hscope.totals, fun _ _ => ⟨shape, hshape, hlt⟩, fun _ _ h => (by cases h)⟩
  · have hends := hlong hle [] (scope grows maximumRanges) ⟨hscope, rfl⟩
    rcases hrun : m (scope grows maximumRanges) with ⟨a, s⟩ | ⟨e, s⟩
    · rw [hrun] at hends
      obtain ⟨⟨hsound, hranges⟩, hchecked⟩ := hends
      rw [List.nil_append] at hranges
      rw [bind_ok hrun]
      refine ⟨hsound.loads, hsound.totals, fun _ h => (by cases h),
        fun _ _ _ => ⟨shape, hshape, ?_⟩⟩
      exact {
        within := hranges ▸ hsound.within
        apart := hranges ▸ hsound.apart
        texts := hchecked.texts
        depth := hchecked.depth
        orders := hchecked.orders
        queues := hchecked.queues }
    · rw [hrun] at hends
      obtain ⟨he, hsound⟩ := hends
      rw [bind_error hrun]
      refine ⟨hsound.loads, hsound.totals, fun _ h => ?_, fun _ _ h => (by cases h)⟩
      cases h
      exact absurd rfl he

/-- A call that ends before anything is read. -/
theorem accepts_of_error {α : Type} {cls : MessageClass} {limits : DecoderLimits}
    {body : List UInt8} {e : DecodeError} (he : e ≠ .kTruncated) {s : Scan} (hloads : s.loads = [])
    (htotals : s.totals = []) :
    Accepts cls limits body (.error e s : EStateM.Result DecodeError Scan α) where
  loads := by simp [scanOf, hloads]
  totals := by simp [scanOf, htotals]
  truncated s h := by
    cases h
    exact absurd rfl he
  wellFormed a s h := by cases h

/-- A layout with texts only. -/
theorem checked_of_texts {shape : Shape} {limits : DecoderLimits} {body : List UInt8}
    (hsides : shape.sides = [])
    (htexts : ∀ text ∈ shape.texts,
      TextAccepted limits.maximumTextBytes text.2 (textBytes body text.1)) :
    Checked shape limits body where
  texts := htexts
  depth := by simp [hsides]
  orders := by simp [hsides]
  queues := by simp [hsides]

/-- A layout with a book. -/
theorem checked_of_book {shape : Shape} {limits : DecoderLimits} {body : List UInt8}
    {bids asks : ℕ} (hsides : shape.sides = [bids, asks])
    (htexts : ∀ text ∈ shape.texts,
      TextAccepted limits.maximumTextBytes text.2 (textBytes body text.1))
    (hbook : BookAccepted limits body bids asks) : Checked shape limits body where
  texts := htexts
  depth := hsides ▸ hbook.depth
  orders := hsides ▸ hbook.orders
  queues := by simpa [hsides] using hbook.queues

section Layouts

variable {message : OwnedMessageView} {tradeDate : ℕ} {limits : DecoderLimits}

theorem shanghaiTick_checked (hle : kShanghaiTickBytes ≤ message.body.length) :
    Decodes message.body kShanghaiTickBytes limits.maximumQueueItems
      (readShanghaiTick message tradeDate limits) (namedRanges message.body shanghaiTickShape)
      fun _ => Checked shanghaiTickShape limits message.body := by
  have hranges : namedRanges message.body shanghaiTickShape = textRanges message.body 12 ++
      (textRanges message.body 22 ++ textRanges message.body 64) := by
    simp [namedRanges, shanghaiTickShape]
  rw [hranges]
  refine (Decodes.readShanghaiTick hle).mono fun tick htick => checked_of_texts rfl ?_
  simpa [shanghaiTickShape] using htick.2.2

theorem shenzhenOrder_checked (hle : kShenzhenOrderBytes ≤ message.body.length) :
    Decodes message.body kShenzhenOrderBytes limits.maximumQueueItems
      (readShenzhenOrder message tradeDate limits) (namedRanges message.body shenzhenOrderShape)
      fun _ => Checked shenzhenOrderShape limits message.body := by
  have hranges : namedRanges message.body shenzhenOrderShape = textRanges message.body 12 ++
      (textRanges message.body 18 ++ textRanges message.body 24) := by
    simp [namedRanges, shenzhenOrderShape]
  rw [hranges]
  refine (Decodes.readShenzhenOrder hle).mono fun tick htick => checked_of_texts rfl ?_
  simpa [shenzhenOrderShape] using htick.2

theorem shenzhenTransaction_checked (hle : kShenzhenTransactionBytes ≤ message.body.length) :
    Decodes message.body kShenzhenTransactionBytes limits.maximumQueueItems
      (readShenzhenTransaction message tradeDate limits)
      (namedRanges message.body shenzhenTransactionShape)
      fun _ => Checked shenzhenTransactionShape limits message.body := by
  have hranges : namedRanges message.body shenzhenTransactionShape = textRanges message.body 12 ++
      (textRanges message.body 34 ++ textRanges message.body 40) := by
    simp [namedRanges, shenzhenTransactionShape]
  rw [hranges]
  refine (Decodes.readShenzhenTransaction hle).mono fun tick htick => checked_of_texts rfl ?_
  simpa [shenzhenTransactionShape] using htick.2

theorem shanghaiSnapshot_checked (hle : kShanghaiSnapshotBytes ≤ message.body.length) :
    Decodes message.body kShanghaiSnapshotBytes limits.maximumQueueItems
      (readShanghaiSnapshot message tradeDate limits)
      (namedRanges message.body shanghaiSnapshotShape)
      fun _ => Checked shanghaiSnapshotShape limits message.body := by
  have hranges : namedRanges message.body shanghaiSnapshotShape = textRanges message.body 4 ++
      (textRanges message.body 38 ++ (listRanges message.body kLevelItemBytes 228 ++
        (listRanges message.body kLevelItemBytes 236 ++
          (queueRanges message.body shanghaiQueue 228 ++
            queueRanges message.body shanghaiQueue 236)))) := by
    simp [namedRanges, shanghaiSnapshotShape]
  rw [hranges]
  refine (Decodes.readShanghaiSnapshot hle).mono fun _ h => checked_of_book rfl ?_ h.2.2
  simpa [shanghaiSnapshotShape] using h.2.1

theorem shenzhenSnapshot_checked (hle : kShenzhenSnapshotBytes ≤ message.body.length) :
    Decodes message.body kShenzhenSnapshotBytes limits.maximumQueueItems
      (readShenzhenSnapshot message tradeDate limits)
      (namedRanges message.body shenzhenSnapshotShape)
      fun _ => Checked shenzhenSnapshotShape limits message.body := by
  have hranges : namedRanges message.body shenzhenSnapshotShape =
      (textRanges message.body 8 ++ (textRanges message.body 14 ++ textRanges message.body 20)) ++
        (textRanges message.body 26 ++ (listRanges message.body kLevelItemBytes 208 ++
          (listRanges message.body kLevelItemBytes 216 ++
            (queueRanges message.body shenzhenQueue 208 ++
              queueRanges message.body shenzhenQueue 216)))) := by
    simp [namedRanges, shenzhenSnapshotShape]
  rw [hranges]
  refine (Decodes.readShenzhenSnapshot hle).mono fun _ h => checked_of_book rfl ?_ h.2.2
  simpa [shenzhenSnapshotShape] using h.2.1

end Layouts

theorem decodeTick_accepts (grows : ℕ → Bool) (message : OwnedMessageView) (tradeDate : ℕ)
    (limits : DecoderLimits) (catalog : InstrumentCatalog) :
    Accepts (classifyMessage message.header.key) limits message.body
      (decodeTick grows message tradeDate limits catalog) := by
  rw [decodeTick]
  split_ifs
  · exact accepts_of_error (by decide) rfl rfl
  · rw [readTick]
    split
    · next hcls =>
      rw [hcls]
      refine accepts_of_decodes shanghaiTickShape rfl (fun hlt s => ?_) shanghaiTick_checked _ _ _
      exact bind_error (require_error (Nat.not_le.2 hlt) s)
    · next hcls =>
      rw [hcls]
      refine accepts_of_decodes shenzhenOrderShape rfl (fun hlt s => ?_) shenzhenOrder_checked _ _ _
      exact bind_error (require_error (Nat.not_le.2 hlt) s)
    · next hcls =>
      rw [hcls]
      refine accepts_of_decodes shenzhenTransactionShape rfl (fun hlt s => ?_)
        shenzhenTransaction_checked _ _ _
      exact bind_error (require_error (Nat.not_le.2 hlt) s)
    · exact accepts_of_error (by decide) rfl rfl

theorem decodeSnapshot_accepts (grows : ℕ → Bool) (message : OwnedMessageView) (tradeDate : ℕ)
    (limits : DecoderLimits) (catalog : InstrumentCatalog) :
    Accepts (classifyMessage message.header.key) limits message.body
      (decodeSnapshot grows message tradeDate limits catalog) := by
  rw [decodeSnapshot]
  split_ifs
  · exact accepts_of_error (by decide) rfl rfl
  · exact accepts_of_error (by decide) rfl rfl
  · rw [readSnapshot]
    split
    · next hcls =>
      rw [hcls]
      refine accepts_of_decodes shanghaiSnapshotShape rfl (fun hlt s => ?_)
        shanghaiSnapshot_checked _ _ _
      exact bind_error (require_error (Nat.not_le.2 hlt) s)
    · next hcls =>
      rw [hcls]
      refine accepts_of_decodes shenzhenSnapshotShape rfl (fun hlt s => ?_)
        shenzhenSnapshot_checked _ _ _
      exact bind_error (require_error (Nat.not_le.2 hlt) s)
    · exact accepts_of_error (by decide) rfl rfl

/-- Both decoders load only bytes of the body, never subtract a total from a smaller limit,
call a body truncated only if it is shorter than the fixed part, and accept only well-formed
bodies. -/
theorem decode_accepts (grows : ℕ → Bool) (message : OwnedMessageView) (tradeDate : ℕ)
    (limits : DecoderLimits) (catalog : InstrumentCatalog) :
    Accepts (classifyMessage message.header.key) limits message.body
        (decodeTick grows message tradeDate limits catalog) ∧
      Accepts (classifyMessage message.header.key) limits message.body
        (decodeSnapshot grows message tradeDate limits catalog) :=
  ⟨decodeTick_accepts grows message tradeDate limits catalog,
    decodeSnapshot_accepts grows message tradeDate limits catalog⟩

end L2Flow
