import L2Flow.EngineParts
import L2Flow.Routing
import L2Flow.TickRoundTrip

/-!
# Order and ownership at the polls

What the owners are returned by their polls, whatever the number of lanes and owners and however
the threads interleave. The messages of one channel have one lane, and so have the snapshots of
one identity; a lane keeps the order of its messages, its recovery makes the ticks of a channel
ascend, and a queue between a lane and an owner is first in, first out. So an owner is returned
the ticks of a channel by ascending position, and the snapshots of an identity are returned in the
order of admission. A record goes to the owner of its instrument, which is the one that its message
names.
-/

namespace L2Flow

open SequenceRecovery (GapsTaken Processed runWith emitted body takenOn)

/-! ## What polls return -/

namespace QueueMatrix

variable {α : Type*}

/-- What the polls of an owner have returned. -/
def returnedTo (owner : ℕ) (log : List (Polled α)) : List α :=
  log.filterMap fun
    | .returned owner' _ value => if owner' = owner then some value else none
    | .nothing _ => none

/-- What all polls have returned. -/
def returned (log : List (Polled α)) : List α :=
  log.filterMap fun
    | .returned _ _ value => some value
    | .nothing _ => none

theorem mem_returnedTo {owner : ℕ} {log : List (Polled α)} {value : α} :
    value ∈ returnedTo owner log ↔ ∃ producer, .returned owner producer value ∈ log := by
  constructor
  · intro h
    obtain ⟨event, hevent, hsome⟩ := List.mem_filterMap.1 h
    rcases event with ⟨owner', producer, value'⟩ | _
    · dsimp only at hsome
      split_ifs at hsome with howner
      obtain rfl := Option.some.inj hsome
      exact ⟨producer, howner ▸ hevent⟩
    · cases hsome
  · rintro ⟨producer, hmem⟩
    exact List.mem_filterMap.2 ⟨_, hmem, if_pos rfl⟩

theorem mem_polledFrom {producer owner : ℕ} {log : List (Polled α)} {value : α} :
    value ∈ polledFrom producer owner log ↔ .returned owner producer value ∈ log := by
  constructor
  · intro h
    obtain ⟨event, hevent, hsome⟩ := List.mem_filterMap.1 h
    rcases event with ⟨owner', producer', value'⟩ | _
    · dsimp only at hsome
      split_ifs at hsome with hplace
      obtain ⟨rfl, rfl⟩ := hplace
      obtain rfl := Option.some.inj hsome
      exact hevent
    · cases hsome
  · intro hmem
    exact List.mem_filterMap.2 ⟨_, hmem, if_pos ⟨rfl, rfl⟩⟩

/-- Values of a kind that reach an owner from one producer only are returned to him in the order
of that producer. -/
theorem returnedTo_filter {log : List (Polled α)} {p : α → Bool} {owner producer : ℕ}
    (h : ∀ producer' value, .returned owner producer' value ∈ log → p value = true →
      producer' = producer) :
    (returnedTo owner log).filter p = (polledFrom producer owner log).filter p := by
  rw [returnedTo, polledFrom, List.filter_filterMap, List.filter_filterMap]
  refine List.filterMap_congr fun event hevent => ?_
  rcases event with ⟨owner', producer', value⟩ | _
  · by_cases howner : owner' = owner
    · subst howner
      cases hp : p value with
      | false => by_cases hproducer : producer' = producer <;> simp [hp, hproducer]
      | true => simp [h producer' value hevent hp]
    · simp [howner]
  · rfl

/-- Values of a kind that reach one owner from one producer are returned in the order of that
producer. -/
theorem returned_filter {log : List (Polled α)} {p : α → Bool} {owner producer : ℕ}
    (h : ∀ owner' producer' value, .returned owner' producer' value ∈ log → p value = true →
      owner' = owner ∧ producer' = producer) :
    (returned log).filter p = (polledFrom producer owner log).filter p := by
  rw [returned, polledFrom, List.filter_filterMap, List.filter_filterMap]
  refine List.filterMap_congr fun event hevent => ?_
  rcases event with ⟨owner', producer', value⟩ | _
  · cases hp : p value with
    | false => by_cases hplace : owner' = owner ∧ producer' = producer <;> simp [hp, hplace]
    | true => simp [h owner' producer' value hevent hp]
  · rfl

/-- Whatever an owner, what he has polled from a producer is of what it was sent, in order. -/
theorem Flows.polled_sublist {shape : MatrixShape} {ownerOf : α → ℕ} {sent : ℕ → List α}
    {m : QueueMatrix α shape} {log : List (Polled α)} (h : Flows ownerOf sent m log)
    (producer owner : ℕ) : (polledFrom producer owner log).Sublist (sent producer) := by
  rcases Nat.lt_or_ge owner shape.owners with howner | howner
  · exact (h.polled howner).sublist.trans List.filter_sublist
  · have hnone : polledFrom producer owner log = [] :=
      List.eq_nil_iff_forall_not_mem.2 fun value hmem =>
        absurd (h.returned _ _ _ (mem_polledFrom.1 hmem)).2 (Nat.not_lt.2 howner)
    rw [hnone]
    exact List.nil_sublist _

end QueueMatrix

namespace Engine

variable {cfg : EngineConfig} {threads stops : ℕ} {memory : Memory cfg}
  {s : State cfg threads stops} {log : List (Event cfg threads)}

/-! ## Where a record comes from -/

/-- A tick that `DecodeTick` makes of a message and that the catalog has, but for what the recovery
writes into it. -/
def TickFrom (cfg : EngineConfig) (message : OwnedMessageView) (tick : CanonicalTick) : Prop :=
  ∃ grows decoded s, decodeTick grows message cfg.settings.tradeDate cfg.settings.limits
    cfg.catalog = .ok decoded s ∧ decoded.catalogMatch = true ∧ body tick = body decoded.tick

theorem TickFrom.names {message : OwnedMessageView} {tick : CanonicalTick}
    (h : TickFrom cfg message tick) : Names cfg.definitions cfg.catalog message tick.common := by
  obtain ⟨grows, decoded, t, hdecode, hmatch, hbody⟩ := h
  have hnames := decodeTick_names cfg.catalog_eq cfg.text_le hdecode hmatch
  have hingress : tick.common.ingressSequence = decoded.tick.common.ingressSequence :=
    congrArg (·.common.ingressSequence) hbody
  have hidentity : tick.common.identity = decoded.tick.common.identity :=
    congrArg (·.common.identity) hbody
  have hordinal : tick.common.instrumentOrdinal = decoded.tick.common.instrumentOrdinal :=
    congrArg (·.common.instrumentOrdinal) hbody
  constructor
  · rw [hingress]
    exact hnames.ingressSequence
  · rw [hidentity, hordinal]
    exact hnames.found
  · rw [hordinal]
    exact hnames.definition

theorem SnapshotFrom.names {message : OwnedMessageView} {snapshot : CanonicalSnapshot}
    (h : SnapshotFrom cfg message snapshot) :
    Names cfg.definitions cfg.catalog message snapshot.common := by
  obtain ⟨grows, decoded, t, hdecode, hmatch, rfl⟩ := h
  exact decodeSnapshot_names cfg.catalog_eq cfg.text_le hdecode hmatch

theorem forall₂_mem_right {α β : Type} {R : α → β → Prop} : ∀ {l : List α} {m : List β},
    List.Forall₂ R l m → ∀ {b : β}, b ∈ m → ∃ a ∈ l, R a b
  | _, _, .nil, _, hb => by cases hb
  | a :: _, _, .cons h hs, b, hb => by
    rcases List.mem_cons.1 hb with rfl | hb
    · exact ⟨a, List.mem_cons_self, h⟩
    · obtain ⟨a', ha', hab⟩ := forall₂_mem_right hs hb
      exact ⟨a', List.mem_cons_of_mem _ ha', hab⟩

theorem handled_sublist (s : State cfg threads stops) (log : List (Event cfg threads))
    (index : Fin cfg.admission.snapshotDecoderLanes) :
    (handled s log index).Sublist (Admission.consumedOn (.snapshot index) (admissionLog log)) := by
  unfold handled
  split_ifs
  · exact List.dropLast_sublist _
  · exact List.Sublist.refl _

/-- A tick that an owner is returned is his, and comes from the lane that it was queued by. -/
theorem Kept.tick_source (h : Kept memory s log) {owner producer : ℕ} {tick : CanonicalTick}
    (hmem : .returned owner producer tick ∈ tickLog log) :
    cfg.tickOwner tick = owner ∧ ∃ index : Fin cfg.admission.tickDecoderLanes, producer = index ∧
      ∃ message ∈ Admission.consumedOn (.tick index) (admissionLog log),
        TickFrom cfg message tick := by
  obtain ⟨sent, hflows, hkept⟩ := h.ticks
  obtain ⟨hproducer, howner⟩ := hflows.returned _ _ _ hmem
  have hsent := (hflows.polled howner).subset (QueueMatrix.mem_polledFrom.2 hmem)
  obtain ⟨hsent, howned⟩ := List.mem_filter.1 hsent
  refine ⟨of_decide_eq_true howned, ⟨producer, hproducer⟩, rfl, ?_⟩
  obtain ⟨calls, trace, hgap, hrun, heq, hrecords⟩ := hkept ⟨producer, hproducer⟩
  rw [heq] at hsent
  obtain ⟨⟨tick', accepted⟩, hemitted, hsome⟩ := List.mem_filterMap.1 hsent
  dsimp only at hsome
  split_ifs at hsome
  obtain rfl := Option.some.inj hsome
  obtain ⟨record, hprocessed, hmatch, hbody⟩ := SequenceRecovery.mem_emitted hgap hrun hemitted
  obtain ⟨message, hmessage, grows, t, hdecode⟩ := hrecords record hprocessed
  exact ⟨message, hmessage, grows, record, t, hdecode, hmatch, hbody⟩

/-- A snapshot that an owner is returned is his, and comes from the lane that it was queued by. -/
theorem Kept.snapshot_source (h : Kept memory s log) {owner producer : ℕ}
    {snapshot : CanonicalSnapshot} (hmem : .returned owner producer snapshot ∈ snapshotLog log) :
    cfg.snapshotOwner snapshot = owner ∧
      ∃ index : Fin cfg.admission.snapshotDecoderLanes, producer = index ∧
        ∃ message ∈ Admission.consumedOn (.snapshot index) (admissionLog log),
          SnapshotFrom cfg message snapshot := by
  obtain ⟨sent, hflows, hkept⟩ := h.snapshots
  obtain ⟨hproducer, howner⟩ := hflows.returned _ _ _ hmem
  have hsent := (hflows.polled howner).subset (QueueMatrix.mem_polledFrom.2 hmem)
  obtain ⟨hsent, howned⟩ := List.mem_filter.1 hsent
  refine ⟨of_decide_eq_true howned, ⟨producer, hproducer⟩, rfl, ?_⟩
  obtain ⟨sources, hsources, hfrom⟩ := hkept ⟨producer, hproducer⟩
  obtain ⟨message, hmessage, hmade⟩ := forall₂_mem_right hfrom hsent
  exact ⟨message, (handled_sublist s log _).subset (hsources.subset hmessage), hmade⟩

/-- A message that a worker has consumed was published for its lane, by a call that was checked. -/
theorem Kept.published (h : Kept memory s log) {lane : Lane cfg.admission}
    {message : OwnedMessageView}
    (hmem : message ∈ Admission.consumedOn lane (admissionLog log)) :
    ∃ thread call, .admission (.published thread lane message) ∈ log ∧
      checkCall cfg.admission call = .publish message.header lane ∧ message.body = call.body := by
  obtain ⟨hcalls, hslots⟩ := Admission.slotsKept h.admission
  obtain ⟨waiting, hpublished, -⟩ := (hslots.lanes lane).queue
  have hmem' : message ∈ Admission.publishedOn lane (admissionLog log) :=
    hpublished ▸ List.mem_append_left _ hmem
  obtain ⟨event, hevent, hsome⟩ := List.mem_filterMap.1 hmem'
  rcases event with _ | ⟨thread, lane', message'⟩ | _ | _ | _ | _
  case published =>
    dsimp only at hsome
    split_ifs at hsome with hlane
    obtain rfl := Option.some.inj hsome
    subst hlane
    obtain ⟨call, -, hfrom⟩ := hcalls.origin hevent
    obtain ⟨event, hevent', hsome⟩ := List.mem_filterMap.1 hevent
    rcases event with event | _ | _
    · obtain rfl := Option.some.inj hsome
      exact ⟨thread, call, hevent', hfrom.check, hfrom.body⟩
    · cases hsome
    · cases hsome
  all_goals cases hsome

/-! ## One producer -/

/-- The ticks of a channel come from the lane of the channel. -/
theorem Kept.tick_producer (h : Kept memory s log) {owner producer : ℕ} {tick : CanonicalTick}
    (hmem : .returned owner producer tick ∈ tickLog log) :
    ∃ index : Fin cfg.admission.tickDecoderLanes, producer = index ∧
      .tick index = laneOfChannel cfg.admission tick.channelKey := by
  obtain ⟨-, index, rfl, message, hmessage, grows, decoded, t, hdecode, -, hbody⟩ :=
    h.tick_source hmem
  obtain ⟨thread, call, -, hcheck, hcall⟩ := h.published hmessage
  obtain ⟨-, hnative, -⟩ := (decodeTick_read hdecode).place
  rw [hcall] at hnative
  refine ⟨index, rfl, (lane_of_descriptor hcheck hnative).trans ?_⟩
  rw [SequenceRecovery.body_channelKey hbody]
  rfl

/-- The snapshots of an identity come from the lane of the identity. -/
theorem Kept.snapshot_producer (h : Kept memory s log) {owner producer : ℕ}
    {snapshot : CanonicalSnapshot} (hmem : .returned owner producer snapshot ∈ snapshotLog log) :
    producer = identityRoute snapshot.common.identity % cfg.admission.snapshotDecoderLanes := by
  obtain ⟨-, index, rfl, message, hmessage, grows, decoded, t, hdecode, -, rfl⟩ :=
    h.snapshot_source hmem
  obtain ⟨thread, call, -, hcheck, hcall⟩ := h.published hmessage
  obtain ⟨-, routeKey, hroute, hlane⟩ := checkCall_publish hcheck
  have hidentity := decodeSnapshot_route cfg.text_le hdecode
  rw [hcall, hroute] at hidentity
  obtain rfl := Option.some.inj hidentity
  unfold laneOf at hlane
  split_ifs at hlane
  exact congrArg Fin.val (Lane.snapshot.inj hlane)

/-- The snapshots of an identity have one owner. -/
theorem Kept.snapshot_owner (h : Kept memory s log) {owner producer : ℕ}
    {snapshot : CanonicalSnapshot} (hmem : .returned owner producer snapshot ∈ snapshotLog log) :
    ∃ found, cfg.catalog.findIdentity snapshot.common.identity = some found ∧
      owner = cfg.instrumentOwner found.ordinal := by
  obtain ⟨howner, -, -, message, -, hfrom⟩ := h.snapshot_source hmem
  obtain ⟨found, hfound, hordinal⟩ := hfrom.names.found
  refine ⟨found, hfound, ?_⟩
  rw [← howner, EngineConfig.snapshotOwner, hordinal]

/-! ## The order -/

/-- The ticks of a channel are returned to an owner by ascending position. -/
theorem Kept.ticks_ascend (h : Kept memory s log) (owner : ℕ) (key : ChannelKey) :
    (((QueueMatrix.returnedTo owner (tickLog log)).filter (·.channelKey = key)).map
      fun tick => tick.common.nativeSequence).Pairwise (· < ·) := by
  obtain ⟨index, hindex⟩ : ∃ index, laneOfChannel cfg.admission key = .tick index := ⟨_, rfl⟩
  have hsame : ∀ (producer : ℕ) tick, .returned owner producer tick ∈ tickLog log →
      decide (tick.channelKey = key) = true → producer = index := by
    intro producer tick hmem hkey
    obtain ⟨index', rfl, hlane⟩ := h.tick_producer hmem
    rw [of_decide_eq_true hkey, hindex] at hlane
    exact congrArg Fin.val (Lane.tick.inj hlane)
  rw [QueueMatrix.returnedTo_filter hsame]
  obtain ⟨sent, hflows, hkept⟩ := h.ticks
  obtain ⟨calls, trace, hgap, hrun, hsent, -⟩ := hkept index
  have hpolled := hflows.polled_sublist index owner
  rw [hsent] at hpolled
  exact (SequenceRecovery.emitted_ascending hgap hrun key).sublist ((hpolled.filter _).map _)

/-- What a snapshot lane was given to publish has the numbers of its messages. -/
theorem SnapshotKept.increasing {messages : List OwnedMessageView} {sent : List CanonicalSnapshot}
    (h : SnapshotKept cfg messages sent)
    (hincreasing : messages.Pairwise (·.ingressSequence < ·.ingressSequence)) :
    (sent.map fun snapshot => snapshot.common.ingressSequence).Pairwise (· < ·) := by
  obtain ⟨sources, hsources, hsent⟩ := h
  have hnumbers : sources.map (·.ingressSequence) =
      sent.map fun snapshot => snapshot.common.ingressSequence := by
    rw [← List.forall₂_eq_eq_eq, List.forall₂_map_left_iff, List.forall₂_map_right_iff]
    exact hsent.imp fun message snapshot hfrom => hfrom.names.ingressSequence.symm
  rw [← hnumbers, List.pairwise_map]
  exact hincreasing.sublist hsources

/-- The snapshots of an identity are returned in the order of admission. -/
theorem Kept.snapshots_ascend (h : Kept memory s log) (identity : ExactIdentity) :
    (((QueueMatrix.returned (snapshotLog log)).filter (·.common.identity = identity)).map
      fun snapshot => snapshot.common.ingressSequence).Pairwise (· < ·) := by
  obtain ⟨index, hindex⟩ : ∃ index : Fin cfg.admission.snapshotDecoderLanes,
      (index : ℕ) = identityRoute identity % cfg.admission.snapshotDecoderLanes :=
    ⟨⟨_, Nat.mod_lt _ cfg.admission.snapshot_pos⟩, rfl⟩
  obtain ⟨owner, howner⟩ : ∃ owner, ∀ owner' producer snapshot,
      .returned owner' producer snapshot ∈ snapshotLog log →
      snapshot.common.identity = identity → owner' = owner := by
    refine ⟨((cfg.catalog.findIdentity identity).map (cfg.instrumentOwner ·.ordinal)).getD 0, ?_⟩
    rintro owner' producer snapshot hmem rfl
    obtain ⟨found, hfound, rfl⟩ := h.snapshot_owner hmem
    rw [hfound]
    rfl
  have hsame : ∀ owner' (producer : ℕ) snapshot,
      .returned owner' producer snapshot ∈ snapshotLog log →
      decide (snapshot.common.identity = identity) = true → owner' = owner ∧ producer = index := by
    intro owner' producer snapshot hmem hidentity
    have hidentity := of_decide_eq_true hidentity
    exact ⟨howner _ _ _ hmem hidentity, by rw [h.snapshot_producer hmem, hidentity, hindex]⟩
  rw [QueueMatrix.returned_filter hsame]
  obtain ⟨sent, hflows, hkept⟩ := h.snapshots
  obtain ⟨hcalls, hslots⟩ := Admission.slotsKept h.admission
  have hincreasing := (hkept index).increasing
    ((hslots.increasing hcalls _).sublist (handled_sublist s log _))
  exact hincreasing.sublist
    ((List.filter_sublist.trans (hflows.polled_sublist index owner)).map _)

/-! ## Ownership -/

/-- An ordinal is owned by `owner`, and its definition has exactly the market, the
`security_id_source` and the `security_id` of a message that was published, one from which the
record was made. -/
def OwnedBy (cfg : EngineConfig) (log : List (Event cfg threads)) (owner ordinal : ℕ)
    (made : OwnedMessageView → Prop) : Prop :=
  ordinal % cfg.instrumentWorkers = owner ∧
    ∃ thread lane message definition, .admission (.published thread lane message) ∈ log ∧
      made message ∧ cfg.definitions[ordinal]? = some definition ∧
      definition.market = message.instrument.1 ∧
      definition.securityIdSource = message.instrument.2.1 ∧
      definition.securityId = message.instrument.2.2

theorem Kept.ownedBy (h : Kept memory s log) {lane : Lane cfg.admission}
    {message : OwnedMessageView} {common : CanonicalCommon} {made : OwnedMessageView → Prop}
    (hmem : message ∈ Admission.consumedOn lane (admissionLog log)) (hmade : made message)
    (hnames : Names cfg.definitions cfg.catalog message common) :
    OwnedBy cfg log (cfg.instrumentOwner common.instrumentOrdinal) common.instrumentOrdinal
      made := by
  obtain ⟨thread, call, hpublished, -⟩ := h.published hmem
  obtain ⟨definition, hdefinition, hkey⟩ := hnames.definition
  refine ⟨(cfg.instrumentOwner_eq _).symm, thread, lane, message, definition, hpublished, hmade,
    hdefinition, ?_⟩
  rw [← hkey]
  exact ⟨rfl, rfl, rfl⟩

/-- In every run of the engine, an owner is returned the ticks of a channel by strictly
increasing position; the snapshots of an identity are returned in the strictly increasing order of
admission; and a tick or a snapshot goes to the owner of its ordinal, whose definition has exactly
the bytes of the message that it was decoded from. -/
theorem polls_ordered_owned (h : (machine cfg threads stops memory).Reaches s log) :
    (∀ owner key, (((QueueMatrix.returnedTo owner (tickLog log)).filter
      (·.channelKey = key)).map fun tick => tick.common.nativeSequence).Pairwise (· < ·)) ∧
    (∀ identity, (((QueueMatrix.returned (snapshotLog log)).filter
      (·.common.identity = identity)).map
        fun snapshot => snapshot.common.ingressSequence).Pairwise (· < ·)) ∧
    (∀ owner, ∀ tick ∈ QueueMatrix.returnedTo owner (tickLog log),
      OwnedBy cfg log owner tick.common.instrumentOrdinal (TickFrom cfg · tick)) ∧
    ∀ owner, ∀ snapshot ∈ QueueMatrix.returnedTo owner (snapshotLog log),
      OwnedBy cfg log owner snapshot.common.instrumentOrdinal (SnapshotFrom cfg · snapshot) := by
  have hkept := kept h
  refine ⟨hkept.ticks_ascend, hkept.snapshots_ascend, fun owner tick hmem => ?_,
    fun owner snapshot hmem => ?_⟩
  · obtain ⟨producer, hreturned⟩ := QueueMatrix.mem_returnedTo.1 hmem
    obtain ⟨rfl, index, -, message, hmessage, hfrom⟩ := hkept.tick_source hreturned
    exact hkept.ownedBy hmessage hfrom hfrom.names
  · obtain ⟨producer, hreturned⟩ := QueueMatrix.mem_returnedTo.1 hmem
    obtain ⟨rfl, index, -, message, hmessage, hfrom⟩ := hkept.snapshot_source hreturned
    exact hkept.ownedBy hmessage hfrom hfrom.names

/-! ## A run -/

def sampleDefinitions : List InstrumentDefinition :=
  [⟨7, .kShenzhen, sampleOrder.source, sampleOrder.security⟩]

def sampleCatalog : InstrumentCatalog :=
  match InstrumentCatalog.build sampleDefinitions with
  | .ok catalog => catalog
  | .error _ => {}

theorem sampleCatalog_eq : InstrumentCatalog.build sampleDefinitions = .ok sampleCatalog := by
  have hok : (InstrumentCatalog.build sampleDefinitions).isOk = true := by decide +kernel
  unfold sampleCatalog
  split
  · next catalog heq => exact heq
  · next error heq =>
    rw [heq] at hok
    cases hok

/-- One lane of each kind, and one owner. -/
def sampleConfig : EngineConfig where
  admission := Admission.sampleConfig
  recovery := SequenceRecovery.sampleConfig .kFromOpen 0 100
  settings := ⟨20260101, {}⟩
  recoveryTimerScanNs := 1
  instrumentWorkers := 1
  dispatchRing := Ring.oneCell
  definitions := sampleDefinitions
  catalog := sampleCatalog
  text_le := le_rfl
  workers_pos := Nat.one_pos
  catalog_eq := sampleCatalog_eq

def sampleMemory : Memory sampleConfig where
  lanes := Admission.sampleMemory
  clocks := fun _ => 0
  ticks := fun _ _ => {}
  snapshots := fun _ _ => {}

def sampleCall : AdmitCall where
  header := headerBytes (sampleMessage ⟨6, 101, 33⟩ sampleOrderBody).header
  body := sampleOrderBody
  receiveMonotonicNs := 5

/-- An order is admitted and consumed. -/
def sampleArrival : List (Admission.Action sampleConfig.admission 1 1) :=
  [.start, .start, .call Admission.sampleThread sampleCall] ++
    List.replicate 81 (.resume Admission.sampleThread) ++
    List.replicate 2 (.work Admission.sampleLane)

/-- It is decoded, published and polled. -/
def sampleActions : List (Action sampleConfig 1 1) :=
  sampleArrival.map .admission ++
    [.handleTick ⟨0, Nat.one_pos⟩ (fun _ => true) ⟨fun _ => .succeed, fun _ _ => rfl⟩,
      .publishTick ⟨0, Nat.one_pos⟩, .callPollTick 0, .pollTick 0]

theorem sampleActions_run :
    ((machine sampleConfig 1 1 sampleMemory).run sampleActions).map (fun last =>
      (QueueMatrix.returnedTo 0 (tickLog last.2)).map (·.common.nativeSequence)) = some [1] := by
  decide +kernel

theorem polls_ordered_owned_sample : ∃ s log tick,
    (machine sampleConfig 1 1 sampleMemory).Reaches s log ∧
      QueueMatrix.returnedTo 0 (tickLog log) = [tick] ∧ tick.common.nativeSequence = 1 ∧
      OwnedBy sampleConfig log 0 tick.common.instrumentOrdinal (TickFrom sampleConfig · tick) := by
  obtain ⟨⟨s, log⟩, hrun, hreturned⟩ := Option.map_eq_some_iff.1 sampleActions_run
  obtain ⟨tick, htick, hsequence⟩ := List.map_eq_singleton_iff.1 hreturned
  exact ⟨s, log, tick, ⟨_, hrun⟩, htick, hsequence,
    (polls_ordered_owned ⟨_, hrun⟩).2.2.1 0 tick (htick ▸ List.mem_singleton_self tick)⟩

end Engine

end L2Flow
