import L2Flow.Route
import L2Flow.Runs
import L2Flow.WellFormed

/-!
# What a tick worker does with a message

The body of the loop of `TickWorker` between the consumption of a message and its release : the
message is decoded and goes to the recovery of the lane, or, where it cannot be decoded, the
channel that it names is frozen. What a message says of its channel is the same to the decoder,
to the router and to the extractor of the native position (`decodeTick_read`).
-/

namespace L2Flow

/-! ## What was decoded -/

/-- The bits of a tick's route key above its channel. -/
def routeBase : Market → ℕ
  | .kShanghai => 0x0400000000
  | _ => 0x0600000000

/-- What `DecodeTick` returns for a message, and what the router makes of it. -/
structure TickOf (catalog : InstrumentCatalog) (message : OwnedMessageView)
    (decoded : TickDecodeResult) : Prop where
  read : ∃ tick identity number position, decoded = applyTickCatalog catalog tick ∧
    TickRead message identity number position tick ∧
      extractTickNativeDescriptor (classifyMessage message.header.key) message.body =
        some (identity.market, number, position.toNat) ∧
      extractAdmissionRoute (classifyMessage message.header.key) message.body =
        some (routeBase identity.market ||| number)

/-- What a call that succeeds has read. -/
theorem Decodes.of_ok {α β : Type} {body : List UInt8} {fixedBytes maximumQueueItems : ℕ}
    {m : Decoder α} {new : List Bytes.Range} {post : α → Prop} {f : α → β} {b : β} {s : Scan}
    {grows : ℕ → Bool} {maximumRanges : ℕ}
    (h : Decodes body fixedBytes maximumQueueItems m new post)
    (hrun : (do let a ← m; return f a : Decoder β) (scope grows maximumRanges) = .ok b s) :
    ∃ a, b = f a ∧ post a := by
  have hends := h [] (scope grows maximumRanges)
    ⟨sound_scope body fixedBytes maximumQueueItems grows maximumRanges, rfl⟩
  rcases hm : m (scope grows maximumRanges) with ⟨a, t⟩ | ⟨e, t⟩
  · rw [hm] at hends
    rw [bind_ok hm] at hrun
    cases hrun
    exact ⟨a, rfl, hends.2⟩
  · rw [bind_error hm] at hrun
    cases hrun

theorem le_length_of_ok {α β : Type} {body : List UInt8} {fixedBytes : ℕ} {m : Decoder α}
    {f : α → β} {b : β} {s t : Scan}
    (hshort : body.length < fixedBytes → ∀ s, m s = .error .kTruncated s)
    (hrun : (do let a ← m; return f a : Decoder β) t = .ok b s) : fixedBytes ≤ body.length := by
  by_contra hlt
  rw [bind_error (hshort (Nat.not_le.1 hlt) _)] at hrun
  cases hrun

section Channel

variable {body : List UInt8}

theorem shanghaiChannel_eq (hle : kShanghaiTickBytes ≤ body.length)
    (hpos : 0 < LittleEndian.signed 32 (wire body 4 8)) :
    shanghaiChannel body = some (LittleEndian.signed 32 (wire body 4 8)).toNat := by
  have hlen : 70 ≤ body.length := hle
  rw [shanghaiChannel, if_neg (Nat.not_lt.2 hle), loadUnsigned_of_le (by omega)]
  exact if_neg (not_le.2 hpos)

theorem shenzhenChannel_eq {fixedBytes : ℕ} (hle : fixedBytes ≤ body.length)
    (hfixed : 4 ≤ fixedBytes) : shenzhenChannel body fixedBytes = some (wire body 4 0) := by
  rw [shenzhenChannel, if_neg (Nat.not_lt.2 hle), loadUnsigned_of_le (by omega)]

theorem nativeSequence_eq {offset : ℕ} (hle : offset + 8 ≤ body.length)
    (hpos : 0 < LittleEndian.signed 64 (wire body 8 offset)) :
    nativeSequence body offset = some (LittleEndian.signed 64 (wire body 8 offset)).toNat := by
  rw [nativeSequence, loadUnsigned_of_le hle]
  exact if_neg (not_le.2 hpos)

end Channel

theorem decodeTick_read {grows : ℕ → Bool} {message : OwnedMessageView} {tradeDate : ℕ}
    {limits : DecoderLimits} {catalog : InstrumentCatalog} {decoded : TickDecodeResult} {s : Scan}
    (h : decodeTick grows message tradeDate limits catalog = .ok decoded s) :
    TickOf catalog message decoded := by
  rw [decodeTick] at h
  split_ifs at h
  rw [readTick] at h
  split at h
  · next hclass =>
    have hle : kShanghaiTickBytes ≤ message.body.length :=
      le_length_of_ok (fun hlt s => bind_error (require_error (Nat.not_le.2 hlt) s)) h
    have hlen : 70 ≤ message.body.length := hle
    obtain ⟨tick, rfl, hread, hchannel, -⟩ :=
      (Decodes.readShanghaiTick hle : Decodes _ _ 0 _ _ _).of_ok h
    refine ⟨tick, _, _, _, rfl, hread, ?_, ?_⟩
    · rw [hclass, extractTickNativeDescriptor, if_neg (Nat.not_lt.2 hle),
        nativeSequence_eq (by omega) hread.sequence_pos, shanghaiChannel_eq hle hchannel]
      rfl
    · rw [hclass, extractAdmissionRoute, shanghaiChannel_eq hle hchannel]
      rfl
  · next hclass =>
    have hle : kShenzhenOrderBytes ≤ message.body.length :=
      le_length_of_ok (fun hlt s => bind_error (require_error (Nat.not_le.2 hlt) s)) h
    have hlen : 58 ≤ message.body.length := hle
    obtain ⟨tick, rfl, hread, -⟩ :=
      (Decodes.readShenzhenOrder hle : Decodes _ _ 0 _ _ _).of_ok h
    refine ⟨tick, _, _, _, rfl, hread, ?_, ?_⟩
    · rw [hclass, extractTickNativeDescriptor, shenzhenChannel_eq hle (by decide),
        nativeSequence_eq (by omega) hread.sequence_pos]
      rfl
    · rw [hclass, extractAdmissionRoute, shenzhenChannel_eq hle (by decide)]
      rfl
  · next hclass =>
    have hle : kShenzhenTransactionBytes ≤ message.body.length :=
      le_length_of_ok (fun hlt s => bind_error (require_error (Nat.not_le.2 hlt) s)) h
    have hlen : 70 ≤ message.body.length := hle
    obtain ⟨tick, rfl, hread, -⟩ :=
      (Decodes.readShenzhenTransaction hle : Decodes _ _ 0 _ _ _).of_ok h
    refine ⟨tick, _, _, _, rfl, hread, ?_, ?_⟩
    · rw [hclass, extractTickNativeDescriptor, shenzhenChannel_eq hle (by decide),
        nativeSequence_eq (by omega) hread.sequence_pos]
      rfl
    · rw [hclass, extractAdmissionRoute, shenzhenChannel_eq hle (by decide)]
      rfl
  · cases h

/-! ## The catalog -/

/-- The catalog has a definition with exactly this identity. -/
def InstrumentCatalog.has (catalog : InstrumentCatalog) (identity : ExactIdentity) : Bool :=
  (catalog.find identity.market
    (identity.securityIdSource.toList.take identity.securityIdSourceSize)
    (identity.securityId.toList.take identity.securityIdSize)).isSome

/-- A tick without what `ApplyCatalog` writes. -/
def CanonicalTick.uncataloged (tick : CanonicalTick) : CanonicalTick :=
  { tick with
    common :=
      { tick.common with
        instrumentId := 0
        instrumentOrdinal := kInvalidInstrumentOrdinal
        qualityFlags := tick.common.qualityFlags &&& ~~~kQualityInstrumentNotInCatalog } }

/-- Whether a tick matches is a question about its identity. -/
theorem applyTickCatalog_catalogMatch (catalog : InstrumentCatalog) (tick : CanonicalTick) :
    (applyTickCatalog catalog tick).catalogMatch = catalog.has tick.common.identity := by
  rw [applyTickCatalog, applyCatalog, InstrumentCatalog.has]
  dsimp only
  split
  · next hfind => rw [hfind]; rfl
  · next hfind => rw [hfind]; rfl

theorem Flags.or_clear (flags mask : Flags) : (flags ||| mask) &&& ~~~mask = flags &&& ~~~mask := by
  have hdistrib : (flags ||| mask) &&& ~~~mask = flags &&& ~~~mask ||| mask &&& ~~~mask :=
    BitVec.and_or_distrib_right
  rw [hdistrib, BitVec.and_not_self]
  exact BitVec.or_zero

/-- All that the catalog gives a tick is its instrument. -/
theorem applyTickCatalog_uncataloged (catalog : InstrumentCatalog) (tick : CanonicalTick) :
    (applyTickCatalog catalog tick).tick.uncataloged = tick.uncataloged := by
  rw [applyTickCatalog, applyCatalog]
  dsimp only
  split
  · simp only [CanonicalTick.uncataloged, Flags.or_clear]
  · rfl

/-- The rest of a tick is read off what is left without the catalog. -/
theorem uncataloged_congr {α : Sort*} {tick tick' : CanonicalTick} (f : CanonicalTick → α)
    (hf : ∀ tick, f tick.uncataloged = f tick) (h : tick.uncataloged = tick'.uncataloged) :
    f tick = f tick' :=
  (hf tick).symm.trans ((congrArg f h).trans (hf tick'))

namespace TickOf

variable {catalog : InstrumentCatalog} {message : OwnedMessageView} {decoded : TickDecodeResult}

theorem catalogMatch (h : TickOf catalog message decoded) :
    decoded.catalogMatch = catalog.has decoded.tick.common.identity := by
  obtain ⟨tick, -, -, -, rfl, -⟩ := h.read
  rw [applyTickCatalog_catalogMatch]
  exact congrArg catalog.has (uncataloged_congr (·.common.identity) (fun _ => rfl)
    (applyTickCatalog_uncataloged catalog tick)).symm

/-- Where the message put the tick. -/
theorem place (h : TickOf catalog message decoded) :
    (0 < decoded.nativeSequence ∧ decoded.nativeSequence < 2 ^ 63) ∧
      extractTickNativeDescriptor (classifyMessage message.header.key) message.body =
        some (decoded.key.market, decoded.key.channel, decoded.nativeSequence) ∧
      extractAdmissionRoute (classifyMessage message.header.key) message.body =
        some (routeBase decoded.key.market ||| decoded.key.channel) := by
  obtain ⟨tick, identity, number, position, rfl, hread, hnative, hroute⟩ := h.read
  have hkept := applyTickCatalog_uncataloged catalog tick
  have hsequence : (applyTickCatalog catalog tick).nativeSequence = position.toNat := by
    have hsame := uncataloged_congr (·.common.nativeSequence) (fun _ => rfl) hkept
    have hread := hread.sequence
    rw [TickDecodeResult.nativeSequence, hsame]
    omega
  have hkey : (applyTickCatalog catalog tick).key = ⟨identity.market, number⟩ := by
    have hidentity := uncataloged_congr (·.common.identity) (fun _ => rfl) hkept
    have hchannel := uncataloged_congr (·.common.channel) (fun _ => rfl) hkept
    rw [TickDecodeResult.key, hidentity, hchannel, hread.common.identity, hread.channel]
  have hpos := hread.sequence_pos
  have hlt := hread.sequence_lt
  rw [hsequence, hkey]
  exact ⟨⟨by omega, by omega⟩, hnative, hroute⟩

theorem history (h : TickOf catalog message decoded) :
    Flags.has decoded.tick.validity kTickChannelHistoryValid = true := by
  obtain ⟨tick, _, _, _, rfl, hread, _⟩ := h.read
  rw [uncataloged_congr (·.validity) (fun _ => rfl) (applyTickCatalog_uncataloged catalog tick)]
  exact hread.history

/-- The result as the recovery takes it. -/
def tick (h : TickOf catalog message decoded) : DecodedTick where
  toTickDecodeResult := decoded
  native_pos := h.place.1.1
  native_lt := h.place.1.2
  history_valid := h.history

end TickOf

/-! ## The worker -/

/-- What `DecodeTick` is given besides the message and the catalog. -/
structure DecodeSettings where
  tradeDate : ℕ
  limits : DecoderLimits

/-- What a tick worker does with a message. -/
inductive Handling where
  | call (call : SequenceRecovery.Call)
  | fatal (message : String)
  | nothing

/-- The part of the loop of `TickWorker` between `TryConsume` and `Release`. -/
def handleTick (cfg : RecoveryConfig) (settings : DecodeSettings) (catalog : InstrumentCatalog)
    (grows : ℕ → Bool) (message : OwnedMessageView) : Handling :=
  match h : decodeTick grows message settings.tradeDate settings.limits catalog with
  | .ok _ _ => .call (.process (decodeTick_read h).tick message.receiveMonotonicNs)
  | .error _ _ =>
    if cfg.mode = .kFromOpen then
      match extractTickNativeDescriptor (classifyMessage message.header.key) message.body with
      | some (market, channel, sequence) =>
        .call (.freezeDecodeFailure ⟨market, channel⟩ sequence message.receiveMonotonicNs)
      | none =>
        .fatal "from-open tick decode failed and its native channel position was invalid"
    else .nothing

/-- What the recovery of a tick lane is fed with. -/
inductive TickInput where
  | consume (grows : ℕ → Bool) (message : OwnedMessageView)
  | poll (now : ℕ)
  | flush (now : ℕ)

/-- The call that an input comes to, if it comes to one. -/
def TickInput.call? (cfg : RecoveryConfig) (settings : DecodeSettings)
    (catalog : InstrumentCatalog) : TickInput → Option SequenceRecovery.Call
  | .consume grows message =>
    match handleTick cfg settings catalog grows message with
    | .call call => some call
    | _ => none
  | .poll now => some (.poll now)
  | .flush now => some (.flush now)

end L2Flow
