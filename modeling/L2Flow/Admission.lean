import L2Flow.Route
import L2Flow.RingOrder

/-!
# Admission

`IngestEngine::Impl::Admit`, `Stop` and the loop of a decoder lane, as threads over the memory
they share. A lane owns a fixed number of slots; an admission takes a free slot, writes the
message into it and pushes its index into the ready ring, and the worker of the lane pops it
there, reads the message where it lies, and returns the index through the recycled ring.

Each step is one operation on a flag, a counter or a ring, or one store; the bytes of a body
are copied one at a time. Any number of threads may call `Admit` and `Stop`. What a worker does
with a message is no part of this module, except that it may call `SetFatal` at any time.
-/

namespace L2Flow

inductive AdmissionResult where
  | kAccepted
  | kNotRunning
  | kConcurrentCallback
  | kNullMessage
  | kHeaderTruncated
  | kHeaderInvalid
  | kBodySizeMismatch
  | kNonBinaryEncoding
  | kUnsupportedMessage
  | kDisabledMessage
  | kBodyTruncated
  | kBodyTooLarge
  | kRouteInvalid
  | kLaneFull
  | kInternalFailure
  deriving DecidableEq, Repr

/-- A result other than `kAccepted`. -/
abbrev Rejection := {result : AdmissionResult // result ≠ .kAccepted}

/-- What `Admit` uses of the configuration, within the bounds that `ValidateConfig` accepts. A
lane has two rings with room for all its slots. -/
structure AdmissionConfig where
  enabledStreams : StreamMask
  tickDecoderLanes : ℕ
  snapshotDecoderLanes : ℕ
  tickSlotsPerLane : ℕ
  snapshotSlotsPerLane : ℕ
  maximumTickBodyBytes : ℕ
  maximumSnapshotBodyBytes : ℕ
  tickRing : RingCapacity
  snapshotRing : RingCapacity
  tick_pos : 0 < tickDecoderLanes
  snapshot_pos : 0 < snapshotDecoderLanes
  tickRing_eq : checkedRingCapacity tickSlotsPerLane = some tickRing
  snapshotRing_eq : checkedRingCapacity snapshotSlotsPerLane = some snapshotRing

/-- A decoder lane. -/
inductive Lane (cfg : AdmissionConfig) where
  | tick (index : Fin cfg.tickDecoderLanes)
  | snapshot (index : Fin cfg.snapshotDecoderLanes)
  deriving DecidableEq

namespace Lane

variable {cfg : AdmissionConfig}

def slotCount : Lane cfg → ℕ
  | tick _ => cfg.tickSlotsPerLane
  | snapshot _ => cfg.snapshotSlotsPerLane

def maximumBodyBytes : Lane cfg → ℕ
  | tick _ => cfg.maximumTickBodyBytes
  | snapshot _ => cfg.maximumSnapshotBodyBytes

def ring : Lane cfg → RingCapacity
  | tick _ => cfg.tickRing
  | snapshot _ => cfg.snapshotRing

theorem slotCount_le (lane : Lane cfg) : lane.slotCount ≤ lane.ring.size := by
  rcases lane with index | index
  · exact (checkedRingCapacity_isLeast cfg.tickRing_eq).1.elim fun _ h => h.2
  · exact (checkedRingCapacity_isLeast cfg.snapshotRing_eq).1.elim fun _ h => h.2

end Lane

/-! ## The checks of an admission -/

/-- The arguments of a call of `Admit`. -/
structure AdmitCall where
  header : List UInt8
  body : List UInt8
  receiveMonotonicNs : ℕ
  deriving DecidableEq

def MessageClass.isTick : MessageClass → Bool
  | .kShanghaiTick | .kShenzhenOrder | .kShenzhenTransaction => true
  | _ => false

/-- `fixed_bytes`, where the route of a message is not found. -/
def MessageClass.fixedBytes : MessageClass → ℕ
  | .kShanghaiSnapshot => 248
  | .kShanghaiTick => 70
  | .kShenzhenSnapshot => 224
  | .kShenzhenOrder => 58
  | .kShenzhenTransaction => 70
  | .kUnsupported => 0

/-- What `Admit` finds out about its arguments. -/
inductive CallCheck (cfg : AdmissionConfig) where
  | reject (result : Rejection)
  /-- The body does not fit in a slot, which is fatal. -/
  | tooLarge
  | publish (header : ParsedHeader) (lane : Lane cfg)

/-- `lane_index` of a message. -/
def laneOf (cfg : AdmissionConfig) (messageClass : MessageClass) (routeKey : ℕ) : Lane cfg :=
  if messageClass.isTick then .tick ⟨routeKey % cfg.tickDecoderLanes, Nat.mod_lt _ cfg.tick_pos⟩
  else .snapshot ⟨routeKey % cfg.snapshotDecoderLanes, Nat.mod_lt _ cfg.snapshot_pos⟩

/-- The part of `Admit` from `ParseMdlHeader` to the choice of the lane. -/
def checkCall (cfg : AdmissionConfig) (call : AdmitCall) : CallCheck cfg :=
  match parseMdlHeader call.header with
  | none =>
    if call.header.length < kMdlHeaderBytes then .reject ⟨.kHeaderTruncated, by decide⟩
    else .reject ⟨.kHeaderInvalid, by decide⟩
  | some header =>
    let messageClass := classifyMessage header.key
    let maximumBody :=
      if messageClass.isTick then cfg.maximumTickBodyBytes else cfg.maximumSnapshotBodyBytes
    if header.headSize ≠ kMdlHeaderBytes ∨ header.messageSize < kMdlHeaderBytes then
      .reject ⟨.kHeaderInvalid, by decide⟩
    else if call.body.length ≠ header.messageSize - kMdlHeaderBytes then
      .reject ⟨.kBodySizeMismatch, by decide⟩
    else if header.encoding ≠ kBinaryEncoding then .reject ⟨.kNonBinaryEncoding, by decide⟩
    else if messageClass = .kUnsupported then .reject ⟨.kUnsupportedMessage, by decide⟩
    else if streamEnabled cfg.enabledStreams header.key = false then
      .reject ⟨.kDisabledMessage, by decide⟩
    else if maximumBody < call.body.length then .tooLarge
    else
      match extractAdmissionRoute messageClass call.body with
      | none =>
        if call.body.length < messageClass.fixedBytes then .reject ⟨.kBodyTruncated, by decide⟩
        else .reject ⟨.kRouteInvalid, by decide⟩
      | some routeKey => .publish header (laneOf cfg messageClass routeKey)

/-- A message that is published has passed every check, and goes to the lane of its route. -/
theorem checkCall_publish {cfg : AdmissionConfig} {call : AdmitCall} {header : ParsedHeader}
    {lane : Lane cfg} (h : checkCall cfg call = .publish header lane) :
    parseMdlHeader call.header = some header ∧
      ∃ routeKey, extractAdmissionRoute (classifyMessage header.key) call.body = some routeKey ∧
        lane = laneOf cfg (classifyMessage header.key) routeKey := by
  rw [checkCall] at h
  split at h
  · split_ifs at h
  · next parsed hparsed =>
    rcases hroute : extractAdmissionRoute (classifyMessage parsed.key) call.body with - | routeKey
    · simp only [hroute] at h
      split_ifs at h
    · simp only [hroute] at h
      split_ifs at h <;> obtain ⟨rfl, rfl⟩ := CallCheck.publish.inj h <;>
        exact ⟨hparsed, routeKey, hroute, rfl⟩

/-! ## Lanes -/

structure LaneMessageMetadata where
  header : ParsedHeader := {}
  ingressSequence : ℕ := 0
  receiveMonotonicNs : ℕ := 0
  bodySize : ℕ := 0
  deriving DecidableEq

/-- `LaneStorage`. The back of `free_` is the first of `free` here; slot `index` has the bytes
of `arena_` from `index * maximum_body_bytes_` on. -/
structure LaneStorage (capacity : RingCapacity) where
  free : List ℕ
  metadata : ℕ → LaneMessageMetadata
  arena : ℕ → UInt8
  ready : SpscRing ℕ capacity
  recycled : SpscRing ℕ capacity

namespace LaneStorage

variable {capacity : RingCapacity}

/-- A lane is constructed over memory that holds whatever it was allocated with. -/
def new (slotCount : ℕ) (memory : LaneStorage capacity) : LaneStorage capacity where
  free := List.range slotCount
  metadata := memory.metadata
  arena := memory.arena
  ready := { storage := memory.ready.storage }
  recycled := { storage := memory.recycled.storage }

/-- A pass of `DrainRecycled`, and whether there was an index to pop. -/
def drainOne (storage : LaneStorage capacity) : Bool × LaneStorage capacity :=
  match storage.recycled.tryPop with
  | (some index, recycled) => (true, { storage with recycled, free := index :: storage.free })
  | (none, recycled) => (false, { storage with recycled })

/-- `metadata_.Store`. -/
def storeMetadata (storage : LaneStorage capacity) (index : ℕ) (metadata : LaneMessageMetadata) :
    LaneStorage capacity :=
  { storage with metadata := Function.update storage.metadata index metadata }

/-- One byte of the `memcpy`. -/
def storeByte (storage : LaneStorage capacity) (address : ℕ) (octet : UInt8) :
    LaneStorage capacity :=
  { storage with arena := Function.update storage.arena address octet }

/-- `ready_.TryPush`; an index that is not pushed goes back. -/
def pushReady (storage : LaneStorage capacity) (index : ℕ) : Bool × LaneStorage capacity :=
  match storage.ready.tryPush index with
  | (true, ready) => (true, { storage with ready })
  | (false, ready) => (false, { storage with ready, free := index :: storage.free })

/-- `ready_.TryPop`. -/
def popReady (storage : LaneStorage capacity) : Option ℕ × LaneStorage capacity :=
  (storage.ready.tryPop.1, { storage with ready := storage.ready.tryPop.2 })

/-- `Release`. -/
def release (storage : LaneStorage capacity) (slotCount index : ℕ) :
    Bool × LaneStorage capacity :=
  if index < slotCount then
    ((storage.recycled.tryPush index).1,
      { storage with recycled := (storage.recycled.tryPush index).2 })
  else (false, storage)

/-- `empty`. -/
def empty (storage : LaneStorage capacity) : Bool :=
  storage.ready.empty

/-- The bytes that a span into the arena refers to. -/
def bytesAt (storage : LaneStorage capacity) (start size : ℕ) : List UInt8 :=
  (List.range size).map fun i => storage.arena (start + i)

/-- What the view of a slot refers to. -/
def viewAt (storage : LaneStorage capacity) (maximumBodyBytes index : ℕ)
    (metadata : LaneMessageMetadata) : OwnedMessageView where
  header := metadata.header
  ingressSequence := metadata.ingressSequence
  receiveMonotonicNs := metadata.receiveMonotonicNs
  body := storage.bytesAt (index * maximumBodyBytes) metadata.bodySize

end LaneStorage

/-! ## Threads -/

/-- The flags of the engine. -/
structure EngineFlags where
  accepting : Bool := false
  running : Bool := true
  healthy : Bool := true
  callbackActive : Bool := false
  fatalClaimed : Bool := false
  deriving DecidableEq, Repr

/-- `SetFatal`, by what it does next. -/
inductive FatalStage where
  /-- `fatal_claimed_` is tested and set next. -/
  | claiming
  /-- `accepting_` is cleared next. -/
  | closing
  /-- `healthy_` is cleared next. -/
  | reporting
  deriving DecidableEq

/-- A step of `SetFatal`, and what it does then, if it has not returned. -/
def setFatalStep (flags : EngineFlags) : FatalStage → EngineFlags × Option FatalStage
  | .claiming =>
    if flags.fatalClaimed then (flags, none)
    else ({ flags with fatalClaimed := true }, some .closing)
  | .closing => ({ flags with accepting := false }, some .reporting)
  | .reporting => ({ flags with healthy := false }, none)

/-- The message of a call, with the lane and the number it is given. -/
structure Publication (cfg : AdmissionConfig) where
  header : ParsedHeader
  lane : Lane cfg
  ingressSequence : ℕ

/-- The message that the worker of the lane is meant to see. -/
def Publication.message {cfg : AdmissionConfig} (publication : Publication cfg)
    (call : AdmitCall) : OwnedMessageView where
  header := publication.header
  ingressSequence := publication.ingressSequence
  receiveMonotonicNs := call.receiveMonotonicNs
  body := call.body

def Publication.metadata {cfg : AdmissionConfig} (publication : Publication cfg)
    (call : AdmitCall) : LaneMessageMetadata where
  header := publication.header
  ingressSequence := publication.ingressSequence
  receiveMonotonicNs := call.receiveMonotonicNs
  bodySize := call.body.length

/-- `TryPublish` and what follows it, by what is done next. -/
inductive PublishStage where
  /-- `recycled_` is popped next. -/
  | draining
  /-- A slot is taken from the free list next. -/
  | taking
  /-- The metadata of the slot is stored next. -/
  | storing (index : ℕ)
  /-- The byte at `copied` is copied next, or the index pushed if there is none. -/
  | copying (index copied : ℕ)
  /-- `next_ingress_sequence_` is stored next. -/
  | numbering
  /-- `admitted` is incremented next. -/
  | counting
  deriving DecidableEq

/-- `Admit`, by what it does next. -/
inductive AdmitStage (cfg : AdmissionConfig) where
  /-- `callback_active_` is tested and set next. -/
  | entering
  /-- `rejected` is incremented next, for a call that found `callback_active_` set. -/
  | concurrent
  /-- `accepting_` is read next. -/
  | gate
  /-- `running_` is read next. -/
  | gateRunning
  /-- `healthy_` is read next. -/
  | gateHealthy
  | publishing (publication : Publication cfg) (stage : PublishStage)
  /-- A step of `SetFatal` is next. What follows it is the rejection, or nothing for the call
  that found `callback_active_` set. -/
  | fatal (stage : FatalStage) (after : Option Rejection)
  /-- `rejected` is incremented next. -/
  | rejecting (result : Rejection)
  /-- `lane_full` is incremented next. -/
  | countingFull (result : Rejection)
  /-- `callback_active_` is cleared next. -/
  | leaving (result : AdmissionResult)

/-- `Stop`, by what it does next. -/
inductive StopStage where
  /-- `accepting_` is cleared next. -/
  | closing
  /-- `callback_active_` is tested next. -/
  | waiting
  /-- `running_` is cleared next. -/
  | stopping
  /-- The workers are joined. -/
  | stopped
  deriving DecidableEq

/-- The end of `Start`, by what it does next. -/
inductive StartStage where
  /-- `accepting_` is set next. -/
  | opening
  /-- `healthy_` is read next. -/
  | checking
  /-- `accepting_` is cleared next. -/
  | failing
  | returned (success : Bool)
  deriving DecidableEq

/-- The loop of a worker, by what it does next. -/
inductive WorkerStage where
  /-- `ready_` is popped next. -/
  | polling
  /-- The metadata of the slot is read next. -/
  | popped (index : ℕ)
  /-- The slot is released next, when the message has been processed. -/
  | holding (index : ℕ) (metadata : LaneMessageMetadata)
  /-- `running_` is read next. -/
  | missed
  /-- `lane.empty()` is called next. -/
  | stopping
  /-- `Flush` is called next. -/
  | flushing
  | exited
  deriving DecidableEq

namespace Admission

/-- The engine, with `threads` threads that call `Admit` and `stops` threads that call `Stop`.
`fatals` is the call of `SetFatal` that a worker is in. -/
structure State (cfg : AdmissionConfig) (threads stops : ℕ) where
  flags : EngineFlags := {}
  callbacks : ℕ := 0
  admitted : ℕ := 0
  rejected : ℕ := 0
  laneFull : ℕ := 0
  nextIngressSequence : ℕ := 0
  lanes : (lane : Lane cfg) → LaneStorage lane.ring
  start : StartStage := .opening
  admits : Fin threads → Option (AdmitCall × AdmitStage cfg) := fun _ => none
  stops : Fin stops → Option StopStage := fun _ => none
  workers : Lane cfg → WorkerStage := fun _ => .polling
  fatals : Lane cfg → Option FatalStage := fun _ => none

/-- What the threads report. `published` comes with the push into the ready ring, and
`consumed` with the message as the worker finds it in its slot. -/
inductive Event (cfg : AdmissionConfig) (threads : ℕ) where
  | called (thread : Fin threads) (call : AdmitCall)
  | published (thread : Fin threads) (lane : Lane cfg) (message : OwnedMessageView)
  | returned (thread : Fin threads) (result : AdmissionResult)
  | consumed (lane : Lane cfg) (message : OwnedMessageView)
  | released (lane : Lane cfg)
  | exited (lane : Lane cfg)
  deriving DecidableEq

inductive Action (cfg : AdmissionConfig) (threads stops : ℕ) where
  | start
  | call (thread : Fin threads) (call : AdmitCall)
  | resume (thread : Fin threads)
  | callStop (thread : Fin stops)
  | stop (thread : Fin stops)
  | work (lane : Lane cfg)
  | fatal (lane : Lane cfg)

variable {cfg : AdmissionConfig} {threads stops : ℕ}

namespace State

def setAdmit (s : State cfg threads stops) (thread : Fin threads)
    (stage : Option (AdmitCall × AdmitStage cfg)) : State cfg threads stops :=
  { s with admits := Function.update s.admits thread stage }

def setWorker (s : State cfg threads stops) (lane : Lane cfg) (stage : WorkerStage) :
    State cfg threads stops :=
  { s with workers := Function.update s.workers lane stage }

def setLane (s : State cfg threads stops) (lane : Lane cfg) (storage : LaneStorage lane.ring) :
    State cfg threads stops :=
  { s with lanes := Function.update s.lanes lane storage }

end State

abbrev Outcome (cfg : AdmissionConfig) (threads stops : ℕ) :=
  State cfg threads stops × List (Event cfg threads)

/-- The steps of `TryPublish` and what follows it. -/
def publishStep (s : State cfg threads stops) (thread : Fin threads) (call : AdmitCall)
    (publication : Publication cfg) (stage : PublishStage) : Outcome cfg threads stops :=
  let lane := publication.lane
  let storage := s.lanes lane
  let next (s : State cfg threads stops) (stage : AdmitStage cfg) :=
    s.setAdmit thread (some (call, stage))
  let full : AdmitStage cfg := .fatal .claiming (some ⟨.kLaneFull, by decide⟩)
  match stage with
  | .draining =>
    let drained := storage.drainOne
    (next (s.setLane lane drained.2)
      (.publishing publication (if drained.1 then .draining else .taking)), [])
  | .taking =>
    match storage.free with
    | [] => (next s full, [])
    | index :: rest =>
      (next (s.setLane lane { storage with free := rest })
        (.publishing publication (.storing index)), [])
  | .storing index =>
    (next (s.setLane lane (storage.storeMetadata index (publication.metadata call)))
      (.publishing publication (.copying index 0)), [])
  | .copying index copied =>
    match call.body[copied]? with
    | some octet =>
      (next (s.setLane lane
          (storage.storeByte (index * lane.maximumBodyBytes + copied) octet))
        (.publishing publication (.copying index (copied + 1))), [])
    | none =>
      let pushed := storage.pushReady index
      if pushed.1 then
        (next (s.setLane lane pushed.2) (.publishing publication .numbering),
          [.published thread lane (publication.message call)])
      else (next (s.setLane lane pushed.2) full, [])
  | .numbering =>
    (next { s with nextIngressSequence := publication.ingressSequence }
      (.publishing publication .counting), [])
  | .counting => (next { s with admitted := s.admitted + 1 } (.leaving .kAccepted), [])

/-- A step of a call of `Admit`. -/
def callStep (s : State cfg threads stops) (thread : Fin threads) (call : AdmitCall)
    (stage : AdmitStage cfg) : Outcome cfg threads stops :=
  let next (s : State cfg threads stops) (stage : AdmitStage cfg) :=
    s.setAdmit thread (some (call, stage))
  match stage with
  | .entering =>
    if s.flags.callbackActive then (next s .concurrent, [])
    else (next { s with flags := { s.flags with callbackActive := true } } .gate, [])
  | .concurrent => (next { s with rejected := s.rejected + 1 } (.fatal .claiming none), [])
  | .gate =>
    (next s (if s.flags.accepting then .gateRunning else .rejecting ⟨.kNotRunning, by decide⟩), [])
  | .gateRunning =>
    (next s (if s.flags.running then .gateHealthy else .rejecting ⟨.kNotRunning, by decide⟩), [])
  | .gateHealthy =>
    if s.flags.healthy then
      match checkCall cfg call with
      | .reject result => (next s (.rejecting result), [])
      | .tooLarge => (next s (.fatal .claiming (some ⟨.kBodyTooLarge, by decide⟩)), [])
      | .publish header lane =>
        -- The first check of `TryPublish`, on the body alone.
        if lane.maximumBodyBytes < call.body.length ∨ 2 ^ 32 - 1 < call.body.length then
          (next s (.fatal .claiming (some ⟨.kLaneFull, by decide⟩)), [])
        else (next s (.publishing ⟨header, lane, s.nextIngressSequence + 1⟩ .draining), [])
    else (next s (.rejecting ⟨.kInternalFailure, by decide⟩), [])
  | .publishing publication stage => publishStep s thread call publication stage
  | .fatal stage after =>
    let done := setFatalStep s.flags stage
    let s := { s with flags := done.1 }
    match done.2, after with
    | some stage, _ => (next s (.fatal stage after), [])
    | none, some result => (next s (.rejecting result), [])
    | none, none => (s.setAdmit thread none, [.returned thread .kConcurrentCallback])
  | .rejecting result =>
    (next { s with rejected := s.rejected + 1 }
      (if result.1 = .kLaneFull then .countingFull result else .leaving result.1), [])
  | .countingFull result => (next { s with laneFull := s.laneFull + 1 } (.leaving result.1), [])
  | .leaving result =>
    (({ s with flags := { s.flags with callbackActive := false } }).setAdmit thread none,
      [.returned thread result])

/-- A step of a call of `Stop`. -/
def stopStep (s : State cfg threads stops) (thread : Fin stops) (stage : StopStage) :
    Option (State cfg threads stops) :=
  let next (s : State cfg threads stops) (stage : StopStage) :=
    some { s with stops := Function.update s.stops thread (some stage) }
  match stage with
  | .closing => next { s with flags := { s.flags with accepting := false } } .waiting
  | .waiting => next s (if s.flags.callbackActive then .waiting else .stopping)
  | .stopping => next { s with flags := { s.flags with running := false } } .stopped
  | .stopped => none

/-- A step of the loop of a worker. -/
def workStep (s : State cfg threads stops) (lane : Lane cfg) : Option (Outcome cfg threads stops) :=
  let storage := s.lanes lane
  match s.workers lane with
  | .polling =>
    let popped := storage.popReady
    some ((s.setLane lane popped.2).setWorker lane (popped.1.elim .missed .popped), [])
  | .popped index =>
    let metadata := storage.metadata index
    some (s.setWorker lane (.holding index metadata),
      [.consumed lane (storage.viewAt lane.maximumBodyBytes index metadata)])
  | .holding index _ =>
    some ((s.setLane lane (storage.release lane.slotCount index).2).setWorker lane .polling,
      [.released lane])
  | .missed => some (s.setWorker lane (if s.flags.running then .polling else .stopping), [])
  | .stopping => some (s.setWorker lane (if storage.empty then .flushing else .polling), [])
  | .flushing => some (s.setWorker lane .exited, [.exited lane])
  | .exited => none

/-- A step of the end of `Start`. -/
def startStep (s : State cfg threads stops) : Option (State cfg threads stops) :=
  match s.start with
  | .opening =>
    some { s with flags := { s.flags with accepting := true }, start := .checking }
  | .checking =>
    some { s with start := if s.flags.healthy then .returned true else .failing }
  | .failing =>
    some { s with flags := { s.flags with accepting := false }, start := .returned false }
  | .returned _ => none

/-- `Stop` may be called once `Start` has returned, or by `Start` when it fails. -/
def step (s : State cfg threads stops) : Action cfg threads stops →
    Option (Outcome cfg threads stops)
  | .start => (startStep s).map (·, [])
  | .call thread call =>
    match s.admits thread with
    | none =>
      some (({ s with callbacks := s.callbacks + 1 }).setAdmit thread (some (call, .entering)),
        [.called thread call])
    | some _ => none
  | .resume thread => (s.admits thread).map fun (call, stage) => callStep s thread call stage
  | .callStop thread =>
    match s.start, s.stops thread with
    | .returned _, none =>
      some ({ s with stops := Function.update s.stops thread (some .closing) }, [])
    | _, _ => none
  | .stop thread => (s.stops thread).bind fun stage => (stopStep s thread stage).map (·, [])
  | .work lane => workStep s lane
  | .fatal lane =>
    match s.fatals lane with
    | none => some ({ s with fatals := Function.update s.fatals lane (some .claiming) }, [])
    | some stage =>
      let done := setFatalStep s.flags stage
      some ({ s with flags := done.1, fatals := Function.update s.fatals lane done.2 }, [])

/-- The engine when `Start` has started the workers, over any memory. -/
def machine (cfg : AdmissionConfig) (threads stops : ℕ)
    (memory : (lane : Lane cfg) → LaneStorage lane.ring) :
    Machine (State cfg threads stops) (Action cfg threads stops) (Event cfg threads) where
  start := { lanes := fun lane => .new lane.slotCount (memory lane) }
  step := step

end Admission

end L2Flow
