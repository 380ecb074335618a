import L2Flow.CatalogMap
import L2Flow.SnapshotMeaning
import L2Flow.TickMeaning

/-!
# The instrument of a message

The bytes by which a message names its instrument, and what a decoder makes of them : a record
that the catalog has carries the position of the definition with exactly these bytes.
-/

namespace L2Flow

/-- The market of a message, and where its body describes `security_id_source` and
`security_id`. -/
def MessageClass.instrumentTexts : MessageClass → Market × Option ℕ × ℕ
  | .kShanghaiTick => (.kShanghai, none, 12)
  | .kShanghaiSnapshot => (.kShanghai, none, 4)
  | .kShenzhenSnapshot => (.kShenzhen, some 20, 14)
  | .kShenzhenOrder => (.kShenzhen, some 24, 18)
  | .kShenzhenTransaction => (.kShenzhen, some 40, 34)
  | .kUnsupported => (.kUnknown, none, 0)

/-- The instrument that a message names. -/
def OwnedMessageView.instrument (message : OwnedMessageView) : IdentityKey :=
  let texts := (classifyMessage message.header.key).instrumentTexts
  (texts.1, texts.2.1.elim [] (textBytes message.body), textBytes message.body texts.2.2)

/-- The identity that a decoder gives an instrument. -/
def IdentityKey.identity (key : IdentityKey) : ExactIdentity :=
  identityOf key.1 key.2.1 key.2.2

/-- The texts of an instrument are among those that a body is checked for. -/
theorem MessageClass.instrumentTexts_mem {messageClass : MessageClass} {shape : Shape}
    (h : shape ∈ shapeOf messageClass) :
    (∀ offset ∈ messageClass.instrumentTexts.2.1, (offset, true) ∈ shape.texts) ∧
      (messageClass.instrumentTexts.2.2, true) ∈ shape.texts := by
  rcases messageClass with _ | _ | _ | _ | _ | _ <;> rcases h with _ | _ <;> decide

/-- The texts of an instrument fit where the catalog keeps them. -/
theorem BodyWf.instrument_le {message : OwnedMessageView} {limits : DecoderLimits} {shape : Shape}
    (hlimits : limits.maximumTextBytes ≤ kMaximumIdentityBytes)
    (hshape : shape ∈ shapeOf (classifyMessage message.header.key))
    (hwf : BodyWf shape limits message.body) :
    message.instrument.2.1.length ≤ kMaximumIdentityBytes ∧
      message.instrument.2.2.length ≤ kMaximumIdentityBytes := by
  obtain ⟨hsource, hsecurity⟩ := MessageClass.instrumentTexts_mem hshape
  refine ⟨?_, (hwf.texts _ hsecurity).length_le.trans hlimits⟩
  show ((classifyMessage message.header.key).instrumentTexts.2.1.elim []
    (textBytes message.body)).length ≤ _
  rcases hoffset : (classifyMessage message.header.key).instrumentTexts.2.1 with - | offset
  · exact Nat.zero_le _
  · exact (hwf.texts _ (hsource offset hoffset)).length_le.trans hlimits

/-! ## The catalog -/

/-- The definition in the catalog with an identity. -/
def InstrumentCatalog.findIdentity (catalog : InstrumentCatalog) (identity : ExactIdentity) :
    Option InstrumentMatch :=
  catalog.find identity.market (identity.securityIdSource.toList.take identity.securityIdSourceSize)
    (identity.securityId.toList.take identity.securityIdSize)

theorem findIdentity_identity (catalog : InstrumentCatalog) {key : IdentityKey}
    (hsource : key.2.1.length ≤ kMaximumIdentityBytes)
    (hsecurity : key.2.2.length ≤ kMaximumIdentityBytes) :
    catalog.findIdentity key.identity = catalog.find key.1 key.2.1 key.2.2 := by
  show catalog.find key.1 ((identityBytes key.2.1).toList.take key.2.1.length)
    ((identityBytes key.2.2).toList.take key.2.2.length) = _
  rw [take_identityBytes hsource, take_identityBytes hsecurity]

/-- A record that the catalog has carries the position of its definition. -/
theorem applyCatalog_ordinal {catalog : InstrumentCatalog} {common : CanonicalCommon}
    (h : (applyCatalog catalog common).1 = true) :
    ∃ found, catalog.findIdentity common.identity = some found ∧
      (applyCatalog catalog common).2.instrumentOrdinal = found.ordinal := by
  unfold applyCatalog at h ⊢
  rcases hfind : catalog.findIdentity common.identity with - | found
  · unfold InstrumentCatalog.findIdentity at hfind
    simp [hfind] at h
  · refine ⟨found, rfl, ?_⟩
    unfold InstrumentCatalog.findIdentity at hfind
    simp [hfind]

/-- A record is of the instrument of a message : it has its identity, and the position of the
definition with its bytes. -/
structure Names (definitions : List InstrumentDefinition) (catalog : InstrumentCatalog)
    (message : OwnedMessageView) (common : CanonicalCommon) : Prop where
  ingressSequence : common.ingressSequence = message.ingressSequence
  found : ∃ found, catalog.findIdentity common.identity = some found ∧
    common.instrumentOrdinal = found.ordinal
  definition : ∃ definition, definitions[common.instrumentOrdinal]? = some definition ∧
    definition.identityKey = message.instrument

section Decoders

variable {definitions : List InstrumentDefinition} {catalog : InstrumentCatalog}
  {limits : DecoderLimits} {grows : ℕ → Bool} {message : OwnedMessageView} {tradeDate : ℕ}

theorem names_of_applyCatalog (hbuild : InstrumentCatalog.build definitions = .ok catalog)
    (hlimits : limits.maximumTextBytes ≤ kMaximumIdentityBytes) {shape : Shape}
    (hshape : shape ∈ shapeOf (classifyMessage message.header.key))
    (hwf : BodyWf shape limits message.body) {common : CanonicalCommon}
    (hingress : common.ingressSequence = message.ingressSequence)
    (hidentity : common.identity = message.instrument.identity)
    (hmatch : (applyCatalog catalog common).1 = true) :
    Names definitions catalog message (applyCatalog catalog common).2 := by
  obtain ⟨hsource, hsecurity⟩ := hwf.instrument_le hlimits hshape
  obtain ⟨found, hfound, hordinal⟩ := applyCatalog_ordinal hmatch
  have hkept : (applyCatalog catalog common).2.identity = common.identity := by
    rw [applyCatalog]
    split <;> rfl
  have hnumber : (applyCatalog catalog common).2.ingressSequence = common.ingressSequence := by
    rw [applyCatalog]
    split <;> rfl
  refine ⟨hnumber.trans hingress, ⟨found, by rw [hkept, hfound], hordinal⟩, ?_⟩
  rw [hidentity, findIdentity_identity catalog hsource hsecurity] at hfound
  obtain ⟨definition, hdefinition, -, hmarket, hsource', hsecurity'⟩ :=
    InstrumentCatalog.find_build hbuild hfound
  refine ⟨definition, by rw [hordinal, hdefinition], ?_⟩
  rw [InstrumentDefinition.identityKey, hmarket, hsource', hsecurity']

/-- A tick that the catalog has is of the instrument of its message. -/
theorem decodeTick_names (hbuild : InstrumentCatalog.build definitions = .ok catalog)
    (hlimits : limits.maximumTextBytes ≤ kMaximumIdentityBytes) {decoded : TickDecodeResult}
    {s : Scan} (h : decodeTick grows message tradeDate limits catalog = .ok decoded s)
    (hmatch : decoded.catalogMatch = true) :
    Names definitions catalog message decoded.tick.common := by
  obtain ⟨shape, hshape, hwf⟩ :=
    (decodeTick_accepts grows message tradeDate limits catalog).wellFormed _ _ h
  have hread : ∀ quality, (tickOf message tradeDate quality).common.ingressSequence =
      message.ingressSequence ∧
        (tickOf message tradeDate quality).common.identity = message.instrument.identity := by
    intro quality
    unfold tickOf OwnedMessageView.instrument
    rcases decodeTick_class h with hclass | hclass | hclass <;> rw [hclass] <;> exact ⟨rfl, rfl⟩
  have hgives := decodeTick_gives grows message tradeDate limits catalog
  rw [h] at hgives
  obtain ⟨rfl, -⟩ := hgives
  exact names_of_applyCatalog hbuild hlimits hshape hwf (hread _).1 (hread _).2 hmatch

/-- A snapshot that the catalog has is of the instrument of its message. -/
theorem decodeSnapshot_names (hbuild : InstrumentCatalog.build definitions = .ok catalog)
    (hlimits : limits.maximumTextBytes ≤ kMaximumIdentityBytes) {decoded : SnapshotDecodeResult}
    {s : Scan} (h : decodeSnapshot grows message tradeDate limits catalog = .ok decoded s)
    (hmatch : decoded.catalogMatch = true) :
    Names definitions catalog message decoded.snapshot.common := by
  obtain ⟨shape, hshape, hwf⟩ :=
    (decodeSnapshot_accepts grows message tradeDate limits catalog).wellFormed _ _ h
  have hread : ∀ quality, (snapshotOf message tradeDate quality).common.ingressSequence =
      message.ingressSequence ∧
        (snapshotOf message tradeDate quality).common.identity = message.instrument.identity := by
    intro quality
    unfold snapshotOf OwnedMessageView.instrument
    rcases decodeSnapshot_class h with hclass | hclass <;> rw [hclass] <;> exact ⟨rfl, rfl⟩
  have hgives := decodeSnapshot_gives grows message tradeDate limits catalog
  rw [h] at hgives
  obtain ⟨rfl, -⟩ := hgives
  exact names_of_applyCatalog hbuild hlimits hshape hwf (hread _).1 (hread _).2 hmatch

end Decoders

end L2Flow
