import L2Flow.Admission
import L2Flow.TickWorker
import L2Flow.SnapshotRoundTrip

/-!
# One route for each channel and each identity

The router, the extractor of native positions and the decoders read the same body in three ways.
They agree : a position that is extracted has the route of its channel, a tick that is decoded has
the position that is extracted, and a snapshot that is decoded has the route of its identity
(`routes_agree`). All that a worker tells a recovery of one channel is therefore told to the
recovery of one lane, whatever the number of lanes.
-/

namespace L2Flow

/-- The route key of a channel. -/
def channelRoute (key : ChannelKey) : ℕ :=
  routeBase key.market ||| key.channel

/-- The route key of an identity. -/
def identityRoute (identity : ExactIdentity) : ℕ :=
  (hashRouteBytes (identity.securityIdSource.toList.take identity.securityIdSourceSize)
    (identity.securityId.toList.take identity.securityIdSize)).toNat

/-! ## Positions -/

theorem shanghaiChannel_pos {body : List UInt8} {channel : ℕ}
    (h : shanghaiChannel body = some channel) : 0 < channel := by
  unfold shanghaiChannel at h
  dsimp only at h
  by_cases hshort : body.length < kShanghaiTickBytes
  · rw [if_pos hshort] at h
    simp at h
  · rw [if_neg hshort] at h
    obtain ⟨wire, -, h⟩ := Option.bind_eq_some_iff.1 h
    split_ifs at h with hpos
    have heq : (LittleEndian.signed 32 wire).toNat = channel := Option.some.inj h
    omega

theorem nativeSequence_pos {body : List UInt8} {offset sequence : ℕ}
    (h : nativeSequence body offset = some sequence) : 0 < sequence := by
  obtain ⟨wire, -, h⟩ := Option.bind_eq_some_iff.1 h
  dsimp only at h
  split_ifs at h with hpos
  have heq : (LittleEndian.signed 64 wire).toNat = sequence := Option.some.inj h
  omega

/-- A position that is extracted is positive, and has the route of its channel. -/
theorem descriptor_route {messageClass : MessageClass} {body : List UInt8} {market : Market}
    {channel sequence : ℕ}
    (h : extractTickNativeDescriptor messageClass body = some (market, channel, sequence)) :
    messageClass.isTick = true ∧
      extractAdmissionRoute messageClass body = some (channelRoute ⟨market, channel⟩) ∧
      0 < sequence ∧ (market = .kShanghai → 0 < channel) := by
  unfold extractTickNativeDescriptor at h
  split at h
  · dsimp only at h
    by_cases hshort : body.length < kShanghaiTickBytes
    · rw [if_pos hshort] at h
      simp at h
    · rw [if_neg hshort] at h
      obtain ⟨sequence', hsequence, h⟩ := Option.bind_eq_some_iff.1 h
      obtain ⟨channel', hchannel, h⟩ := Option.bind_eq_some_iff.1 h
      obtain ⟨rfl, rfl, rfl⟩ : Market.kShanghai = market ∧ channel' = channel ∧
        sequence' = sequence := by simpa using h
      refine ⟨rfl, ?_, nativeSequence_pos hsequence, fun _ => shanghaiChannel_pos hchannel⟩
      rw [extractAdmissionRoute, hchannel]
      rfl
  · obtain ⟨channel', hchannel, h⟩ := Option.bind_eq_some_iff.1 h
    obtain ⟨sequence', hsequence, h⟩ := Option.bind_eq_some_iff.1 h
    obtain ⟨rfl, rfl, rfl⟩ : Market.kShenzhen = market ∧ channel' = channel ∧
      sequence' = sequence := by simpa using h
    refine ⟨rfl, ?_, nativeSequence_pos hsequence, by simp⟩
    rw [extractAdmissionRoute, hchannel]
    rfl
  · obtain ⟨channel', hchannel, h⟩ := Option.bind_eq_some_iff.1 h
    obtain ⟨sequence', hsequence, h⟩ := Option.bind_eq_some_iff.1 h
    obtain ⟨rfl, rfl, rfl⟩ : Market.kShenzhen = market ∧ channel' = channel ∧
      sequence' = sequence := by simpa using h
    refine ⟨rfl, ?_, nativeSequence_pos hsequence, by simp⟩
    rw [extractAdmissionRoute, hchannel]
    rfl
  · simp at h

/-- The lane of a channel. -/
def laneOfChannel (cfg : AdmissionConfig) (key : ChannelKey) : Lane cfg :=
  .tick ⟨channelRoute key % cfg.tickDecoderLanes, Nat.mod_lt _ cfg.tick_pos⟩

/-- A message that is published goes to the lane of the channel it names. -/
theorem lane_of_descriptor {cfg : AdmissionConfig} {call : AdmitCall} {header : ParsedHeader}
    {lane : Lane cfg} {market : Market} {channel sequence : ℕ}
    (hcheck : checkCall cfg call = .publish header lane)
    (hnative : extractTickNativeDescriptor (classifyMessage header.key) call.body =
      some (market, channel, sequence)) : lane = laneOfChannel cfg ⟨market, channel⟩ := by
  obtain ⟨-, routeKey, hroute, rfl⟩ := checkCall_publish hcheck
  obtain ⟨htick, hroute', -⟩ := descriptor_route hnative
  obtain rfl : routeKey = channelRoute ⟨market, channel⟩ :=
    Option.some.inj (hroute.symm.trans hroute')
  rw [laneOf, if_pos htick]
  rfl

/-! ## What the worker tells the recovery -/

/-- The channel that a call is about. -/
def SequenceRecovery.Call.key? : SequenceRecovery.Call → Option ChannelKey
  | .process decoded _ => some decoded.key
  | .freezeDecodeFailure key _ _ => some key
  | .poll _ | .flush _ => none

/-- What the worker calls the recovery for is the channel that the message names. -/
theorem handleTick_key {cfg : RecoveryConfig} {settings : DecodeSettings}
    {catalog : InstrumentCatalog} {grows : ℕ → Bool} {message : OwnedMessageView}
    {call : SequenceRecovery.Call}
    (h : handleTick cfg settings catalog grows message = .call call) :
    ∃ key sequence, call.key? = some key ∧
      extractTickNativeDescriptor (classifyMessage message.header.key) message.body =
        some (key.market, key.channel, sequence) := by
  unfold handleTick at h
  split at h
  · next decoded s hdecode =>
    obtain rfl := Handling.call.inj h
    exact ⟨decoded.key, decoded.nativeSequence, rfl, (decodeTick_read hdecode).place.2.1⟩
  · split_ifs at h
    split at h
    · next market channel sequence hnative =>
      obtain rfl := Handling.call.inj h
      exact ⟨⟨market, channel⟩, sequence, rfl, hnative⟩
    · simp at h

/-! ## Texts of snapshots -/

theorem modify_ok (f : Scan → Scan) (s : Scan) : (modify f : Decoder Unit) s = .ok () (f s) :=
  rfl

theorem load_ok {body : List UInt8} {width offset : ℕ} (h : offset + width ≤ body.length)
    (failure : DecodeError) (s : Scan) :
    load body width offset failure s = .ok (wire body width offset) (s.load offset width) := by
  rw [load, bind_ok (modify_ok _ s), loadUnsigned_of_le h]
  rfl

/-- A text of a body that is accepted is read by the router too. -/
theorem routeText_eq {shape : Shape} {limits : DecoderLimits} {body : List UInt8} {offset : ℕ}
    (hwf : BodyWf shape limits body) (hlimits : limits.maximumTextBytes ≤ kMaximumIdentityBytes)
    (htext : (offset, true) ∈ shape.texts) (hoffset : offset + 6 ≤ shape.fixedBytes)
    (hsmall : offset ≤ 2 ^ 16) :
    routeText body offset shape.fixedBytes = some (textBytes body offset) := by
  have haccepted := hwf.texts _ htext
  have hsize : textSize body offset ≠ 0 := fun hzero => haccepted.nonempty rfl (by
    rw [textBytes, hzero, Bytes.slice, List.take_zero])
  have hrange : (⟨textStart body offset, textStart body offset + textSize body offset⟩ :
      Bytes.Range) ∈ namedRanges body shape := by
    refine List.mem_append_left _ (List.mem_flatMap.2 ⟨_, htext, ?_⟩)
    rw [textRanges, named, if_neg hsize]
    exact List.mem_singleton_self _
  obtain ⟨hstart, hnonempty, hstop⟩ := hwf.within _ hrange
  dsimp only at hstart hnonempty hstop
  have hfixed : shape.fixedBytes ≤ body.length := by omega
  have hlength : textSize body offset ≤ kMaximumIdentityBytes := by
    have hle := haccepted.length_le
    rw [textBytes, Bytes.length_slice hstop] at hle
    exact hle.trans hlimits
  have hrelative : 6 ≤ wire body 4 (offset + 2) := by
    rw [textStart] at hstart
    omega
  have hfar : wire body 4 (offset + 2) ≤ sizeMax - offset := by
    have hlt : wire body 4 (offset + 2) < 256 ^ 4 := wire_lt body 4 (offset + 2)
    have hmax : sizeMax = 2 ^ 64 - 1 := rfl
    omega
  have hplace : shape.fixedBytes ≤ textStart body offset ∧ textStart body offset ≤ body.length ∧
      textSize body offset ≤ body.length - textStart body offset := by
    omega
  have hrun : readText body offset shape.fixedBytes kMaximumIdentityBytes true {} =
      .ok (textBytes body offset) (((Scan.load {} offset 2).load (offset + 2) 4).load
        (textStart body offset) (textSize body offset)) := by
    unfold textBytes textSize textStart at *
    rw [readText, bind_ok (require_ok hfixed _), bind_ok (load_ok (by omega) _ _),
      bind_ok (load_ok (by omega) _ _), bind_ok (require_ok hlength _), if_neg hsize,
      bind_ok (require_ok ⟨hrelative, hfar⟩ _), bind_ok (require_ok hplace _),
      bind_ok (modify_ok _ _), bind_ok (require_ok haccepted.printable _)]
    rfl
  rw [routeText, hrun]

theorem applyCatalog_identity (catalog : InstrumentCatalog) (common : CanonicalCommon) :
    (applyCatalog catalog common).2.identity = common.identity := by
  unfold applyCatalog
  dsimp only
  split <;> rfl

/-- The identity of a snapshot that is decoded has the texts of the body. -/
theorem decodeSnapshot_identity {grows : ℕ → Bool} {message : OwnedMessageView} {tradeDate : ℕ}
    {limits : DecoderLimits} {catalog : InstrumentCatalog} {result : SnapshotDecodeResult}
    {s : Scan} (h : decodeSnapshot grows message tradeDate limits catalog = .ok result s) :
    classifyMessage message.header.key = .kShanghaiSnapshot ∧
        result.snapshot.common.identity = identityOf .kShanghai [] (textBytes message.body 4) ∧
        BodyWf shanghaiSnapshotShape limits message.body ∨
      classifyMessage message.header.key = .kShenzhenSnapshot ∧
        result.snapshot.common.identity =
          identityOf .kShenzhen (textBytes message.body 20) (textBytes message.body 14) ∧
        BodyWf shenzhenSnapshotShape limits message.body := by
  obtain ⟨shape, hshape, hwf⟩ :=
    (decodeSnapshot_accepts grows message tradeDate limits catalog).wellFormed _ _ h
  rw [decodeSnapshot] at h
  split_ifs at h
  rw [readSnapshot] at h
  split at h
  · next hclass =>
    have hle : kShanghaiSnapshotBytes ≤ message.body.length :=
      le_length_of_ok (fun hlt s => bind_error (require_error (Nat.not_le.2 hlt) s)) h
    rw [hclass] at hshape
    obtain rfl := Option.mem_some_iff.1 hshape
    obtain ⟨snapshot, rfl, hread, -⟩ := (Decodes.readShanghaiSnapshot hle).of_ok h
    exact Or.inl ⟨hclass, (applyCatalog_identity _ _).trans hread.identity, hwf⟩
  · next hclass =>
    have hle : kShenzhenSnapshotBytes ≤ message.body.length :=
      le_length_of_ok (fun hlt s => bind_error (require_error (Nat.not_le.2 hlt) s)) h
    rw [hclass] at hshape
    obtain rfl := Option.mem_some_iff.1 hshape
    obtain ⟨snapshot, rfl, hread, -⟩ := (Decodes.readShenzhenSnapshot hle).of_ok h
    exact Or.inr ⟨hclass, (applyCatalog_identity _ _).trans hread.identity, hwf⟩
  · cases h

/-- The bytes that an identity has are those of its texts. -/
theorem identityRoute_identityOf {market : Market} {source security : List UInt8}
    (hsource : source.length ≤ kMaximumIdentityBytes)
    (hsecurity : security.length ≤ kMaximumIdentityBytes) :
    identityRoute (identityOf market source security) = (hashRouteBytes source security).toNat := by
  show (hashRouteBytes ((identityBytes source).toList.take source.length)
    ((identityBytes security).toList.take security.length)).toNat = _
  rw [take_identityBytes hsource, take_identityBytes hsecurity]

/-- A snapshot that is decoded has the route of its identity. -/
theorem decodeSnapshot_route {grows : ℕ → Bool} {message : OwnedMessageView} {tradeDate : ℕ}
    {limits : DecoderLimits} {catalog : InstrumentCatalog} {result : SnapshotDecodeResult}
    {s : Scan} (hlimits : limits.maximumTextBytes ≤ kMaximumIdentityBytes)
    (h : decodeSnapshot grows message tradeDate limits catalog = .ok result s) :
    extractAdmissionRoute (classifyMessage message.header.key) message.body =
      some (identityRoute result.snapshot.common.identity) := by
  rcases decodeSnapshot_identity h with ⟨hclass, hidentity, hwf⟩ | ⟨hclass, hidentity, hwf⟩
  · have htext : (4, true) ∈ shanghaiSnapshotShape.texts := by decide
    have hsecurity : routeText message.body 4 kShanghaiSnapshotBytes = some _ :=
      routeText_eq hwf hlimits htext (by decide) (by decide)
    rw [hclass, hidentity, identityRoute_identityOf (Nat.zero_le _)
      ((hwf.texts _ htext).length_le.trans hlimits), extractAdmissionRoute, hsecurity]
    rfl
  · have htext : (14, true) ∈ shenzhenSnapshotShape.texts := by decide
    have htext' : (20, true) ∈ shenzhenSnapshotShape.texts := by decide
    have hsecurity : routeText message.body 14 kShenzhenSnapshotBytes = some _ :=
      routeText_eq hwf hlimits htext (by decide) (by decide)
    have hsource : routeText message.body 20 kShenzhenSnapshotBytes = some _ :=
      routeText_eq hwf hlimits htext' (by decide) (by decide)
    rw [hclass, hidentity, identityRoute_identityOf
      ((hwf.texts _ htext').length_le.trans hlimits) ((hwf.texts _ htext).length_le.trans hlimits),
      extractAdmissionRoute, hsecurity, hsource]
    rfl

/-! ## The agreement -/

/-- The router, the extractor of native positions and the decoders agree. A position that is
extracted is never 0, nor is a Shanghai channel; whatever the number of lanes, a channel has one
lane, and what the workers tell the recovery of a channel comes from messages of that lane; and
snapshots of one identity have one route. -/
theorem routes_agree {limits : DecoderLimits}
    (hlimits : limits.maximumTextBytes ≤ kMaximumIdentityBytes) :
    (∀ (grows : ℕ → Bool) (message : OwnedMessageView) (tradeDate : ℕ)
        (catalog : InstrumentCatalog) (decoded : TickDecodeResult) (s : Scan),
      decodeTick grows message tradeDate limits catalog = .ok decoded s →
      extractTickNativeDescriptor (classifyMessage message.header.key) message.body =
          some (decoded.key.market, decoded.key.channel, decoded.nativeSequence) ∧
        extractAdmissionRoute (classifyMessage message.header.key) message.body =
          some (channelRoute decoded.key)) ∧
    (∀ (messageClass : MessageClass) (body : List UInt8) (market : Market)
        (channel sequence : ℕ),
      extractTickNativeDescriptor messageClass body = some (market, channel, sequence) →
      extractAdmissionRoute messageClass body = some (channelRoute ⟨market, channel⟩) ∧
        0 < sequence ∧ (market = .kShanghai → 0 < channel)) ∧
    (∀ (cfg : AdmissionConfig) (recovery : RecoveryConfig) (tradeDate : ℕ)
        (catalog : InstrumentCatalog) (grows : ℕ → Bool) (arrival : AdmitCall)
        (header : ParsedHeader) (lane : Lane cfg) (message : OwnedMessageView)
        (call : SequenceRecovery.Call),
      checkCall cfg arrival = .publish header lane → message.header = header →
      message.body = arrival.body →
      handleTick recovery ⟨tradeDate, limits⟩ catalog grows message = .call call →
      ∃ key, call.key? = some key ∧ lane = laneOfChannel cfg key) ∧
    ∀ (grows : ℕ → Bool) (message : OwnedMessageView) (tradeDate : ℕ)
        (catalog : InstrumentCatalog) (result : SnapshotDecodeResult) (s : Scan),
      decodeSnapshot grows message tradeDate limits catalog = .ok result s →
      extractAdmissionRoute (classifyMessage message.header.key) message.body =
        some (identityRoute result.snapshot.common.identity) := by
  refine ⟨fun grows message tradeDate catalog decoded s h => (decodeTick_read h).place.2,
    fun messageClass body market channel sequence h => (descriptor_route h).2, ?_,
    fun grows message tradeDate catalog result s h => decodeSnapshot_route hlimits h⟩
  rintro cfg recovery tradeDate catalog grows arrival header lane message call hcheck rfl hbody
    hcall
  obtain ⟨key, sequence, hkey, hnative⟩ := handleTick_key hcall
  rw [hbody] at hnative
  exact ⟨key, hkey, lane_of_descriptor hcheck hnative⟩

/-- The five samples have the routes of what they are decoded to. -/
theorem routes_agree_sample :
    (∀ message ∈ sampleTicks, ∃ decoded s,
      decodeTick (fun _ => true) message 20260101 {} {} = .ok decoded s ∧
        extractAdmissionRoute (classifyMessage message.header.key) message.body =
          some (channelRoute decoded.key)) ∧
      ∀ message ∈ sampleSnapshots, ∃ result s,
        decodeSnapshot (fun _ => true) message 20260101 {} {} = .ok result s ∧
          extractAdmissionRoute (classifyMessage message.header.key) message.body =
            some (identityRoute result.snapshot.common.identity) := by
  have hlimits : DecoderLimits.maximumTextBytes {} ≤ kMaximumIdentityBytes := le_rfl
  constructor
  · intro message hmessage
    obtain ⟨decoded, s, hrun⟩ := sampleTicks_decoded message hmessage
    exact ⟨decoded, s, hrun, ((routes_agree hlimits).1 _ _ _ _ _ _ hrun).2⟩
  · intro message hmessage
    obtain ⟨result, s, hrun⟩ := sampleSnapshots_decoded message hmessage
    exact ⟨result, s, hrun, (routes_agree hlimits).2.2.2 _ _ _ _ _ _ hrun⟩

end L2Flow
