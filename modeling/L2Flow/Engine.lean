import L2Flow.Admission
import L2Flow.TickWorker
import L2Flow.Emission

/-!
# The engine

All that lies between `Admit` and the polls of the owners, as one machine : the threads of
`Admission`, and what the workers do there with a message that they have consumed. The worker of
a tick lane decodes the message for the recovery of its lane and publishes the ticks that the
recovery emits; between messages it scans the timers of the recovery, and it flushes the recovery
before it exits. The worker of a snapshot lane decodes the message and publishes the snapshot.

The recovery of a lane is read and written by the worker of the lane only. A call of it is one
step here, which is given the answers of the callbacks beforehand; the ticks that it emits are
published after it, pass by pass, and a pass whose answer is not the one foreseen is not enabled.
The callbacks for gaps, faults and late records publish into queues of their own, which no poll of
ticks or snapshots reads, and are not modelled but for their answers.
-/

namespace L2Flow

/-- What the engine is constructed with, within the bounds that `ValidateConfig` accepts. The
catalog has been built from the definitions. -/
structure EngineConfig where
  admission : AdmissionConfig
  recovery : RecoveryConfig
  settings : DecodeSettings
  recoveryTimerScanNs : ℕ
  instrumentWorkers : ℕ
  dispatchRing : RingCapacity
  definitions : List InstrumentDefinition
  catalog : InstrumentCatalog
  text_le : settings.limits.maximumTextBytes ≤ kMaximumIdentityBytes
  workers_pos : 0 < instrumentWorkers
  catalog_eq : InstrumentCatalog.build definitions = .ok catalog

namespace EngineConfig

variable (cfg : EngineConfig)

/-- `instrument_owner_mask_`. -/
def instrumentOwnerMask : ℕ :=
  if isPowerOfTwo cfg.instrumentWorkers then cfg.instrumentWorkers - 1 else 0

/-- `InstrumentOwner`. -/
def instrumentOwner (ordinal : ℕ) : ℕ :=
  if cfg.instrumentOwnerMask ≠ 0 then ordinal &&& cfg.instrumentOwnerMask
  else ordinal % cfg.instrumentWorkers

/-- Either way the owner is the ordinal modulo the number of workers. -/
theorem instrumentOwner_eq (ordinal : ℕ) :
    cfg.instrumentOwner ordinal = ordinal % cfg.instrumentWorkers := by
  unfold instrumentOwner instrumentOwnerMask
  split_ifs with hpow hmask hzero
  · exact and_pred_eq_mod hpow ordinal
  · rfl
  · exact absurd rfl hzero
  · rfl

/-- The owner of an instrument is one of the workers. -/
theorem instrumentOwner_lt (ordinal : ℕ) : cfg.instrumentOwner ordinal < cfg.instrumentWorkers :=
  (cfg.instrumentOwner_eq ordinal).trans_lt (Nat.mod_lt _ cfg.workers_pos)

def tickShape : MatrixShape where
  producers := cfg.admission.tickDecoderLanes
  owners := cfg.instrumentWorkers
  capacity := cfg.dispatchRing

def snapshotShape : MatrixShape where
  producers := cfg.admission.snapshotDecoderLanes
  owners := cfg.instrumentWorkers
  capacity := cfg.dispatchRing

def tickOwner (tick : CanonicalTick) : ℕ :=
  cfg.instrumentOwner tick.common.instrumentOrdinal

def snapshotOwner (snapshot : CanonicalSnapshot) : ℕ :=
  cfg.instrumentOwner snapshot.common.instrumentOrdinal

end EngineConfig

namespace Engine

/-- What a worker does before the next step of its loop. -/
inductive Task where
  | none
  /-- The message that it holds is decoded next. -/
  | handle
  /-- `next_timer` is compared next, with the time of the message, or of the clock if there is
  no message. -/
  | scan (receiveMonotonicNs : Option ℕ)
  /-- `Flush` is called next. -/
  | flush
  deriving DecidableEq

/-- What a step of the loop leaves its worker to do. -/
def nextTask {cfg : AdmissionConfig} (lane : Lane cfg) (before after : WorkerStage) : Task :=
  match lane, before, after with
  | _, .popped _, _ => .handle
  | .tick _, .polling, .missed => .scan none
  | .tick _, .holding _ metadata, _ => .scan (some metadata.receiveMonotonicNs)
  | .tick _, .stopping, .flushing => .flush
  | _, _, _ => .none

/-- What the worker of a tick lane has on its stack. -/
structure TickLane (cfg : EngineConfig) where
  recovery : SequenceRecovery cfg.recovery := .init cfg.recovery
  nextTimer : ℕ
  /-- The time that was last compared with `next_timer`. -/
  now : ℕ

structure State (cfg : EngineConfig) (threads stops : ℕ) where
  admission : Admission.State cfg.admission threads stops
  tasks : Lane cfg.admission → Task := fun _ => .none
  tickLanes : Fin cfg.admission.tickDecoderLanes → TickLane cfg
  ticks : QueueMatrix CanonicalTick cfg.tickShape
  snapshots : QueueMatrix CanonicalSnapshot cfg.snapshotShape

inductive Event (cfg : EngineConfig) (threads : ℕ) where
  | admission (event : Admission.Event cfg.admission threads)
  | tick (polled : Polled CanonicalTick)
  | snapshot (polled : Polled CanonicalSnapshot)
  deriving DecidableEq

/-- The answers of the callbacks of a lane. `PublishGap` does not fail for a channel of it. -/
abbrev Answers := {callbacks : LaneCallbacks // ∀ slot gap, (callbacks slot).emitGap gap = true}

inductive Action (cfg : EngineConfig) (threads stops : ℕ) where
  | admission (action : Admission.Action cfg.admission threads stops)
  | handleTick (index : Fin cfg.admission.tickDecoderLanes) (grows : ℕ → Bool) (answers : Answers)
  | handleSnapshot (index : Fin cfg.admission.snapshotDecoderLanes) (grows : ℕ → Bool)
      (accepted : Bool)
  | scan (index : Fin cfg.admission.tickDecoderLanes) (now : ℕ) (answers : Answers)
  | flush (index : Fin cfg.admission.tickDecoderLanes) (answers : Answers)
  | publishTick (index : Fin cfg.admission.tickDecoderLanes)
  | publishSnapshot (index : Fin cfg.admission.snapshotDecoderLanes)
  | callPollTick (owner : ℕ)
  | pollTick (owner : ℕ)
  | callPollSnapshot (owner : ℕ)
  | pollSnapshot (owner : ℕ)

variable {cfg : EngineConfig} {threads stops : ℕ}

namespace State

/-- The worker has published all that it was given to publish. -/
def published (s : State cfg threads stops) : Lane cfg.admission → Bool
  | .tick index => (s.ticks.outboxes index).isEmpty
  | .snapshot index => (s.snapshots.outboxes index).isEmpty

/-- The worker is about to do the task. -/
def at_ (s : State cfg threads stops) (lane : Lane cfg.admission) (task : Task) : Bool :=
  s.tasks lane = task && s.published lane

def setTask (s : State cfg threads stops) (lane : Lane cfg.admission) (task : Task) :
    State cfg threads stops :=
  { s with tasks := Function.update s.tasks lane task }

/-- What the worker reads of the message that it holds. -/
def held (s : State cfg threads stops) (lane : Lane cfg.admission) : Option OwnedMessageView :=
  match s.admission.workers lane with
  | .holding index metadata =>
    some ((s.admission.lanes lane).viewAt lane.maximumBodyBytes index metadata)
  | _ => none

/-- A call of the recovery of a lane, and what it leaves to be published. -/
def recover (s : State cfg threads stops) (index : Fin cfg.admission.tickDecoderLanes)
    (call : SequenceRecovery.Call) (answers : Answers) : Option (State cfg threads stops) :=
  (SequenceRecovery.step answers.1 (s.tickLanes index).recovery call).map fun done =>
    { s with
      tickLanes := Function.update s.tickLanes index { s.tickLanes index with recovery := done.1 }
      ticks := s.ticks.offer index (SequenceRecovery.emitted done.2) }

/-- A step of a worker's loop waits for what the worker does before it. -/
def allows (s : State cfg threads stops) : Admission.Action cfg.admission threads stops → Bool
  | .work lane => s.at_ lane .none
  | _ => true

/-- The tasks of the workers after a step of `Admission`. -/
def nextTasks (s : State cfg threads stops) (action : Admission.Action cfg.admission threads stops)
    (admission : Admission.State cfg.admission threads stops) : Lane cfg.admission → Task :=
  match action with
  | .work lane => Function.update s.tasks lane
      (nextTask lane (s.admission.workers lane) (admission.workers lane))
  | _ => s.tasks

end State

/-- A step of `Admission`. -/
def admissionStep (s : State cfg threads stops)
    (action : Admission.Action cfg.admission threads stops) :
    Option (State cfg threads stops × List (Event cfg threads)) :=
  if s.allows action then
    (Admission.step s.admission action).map fun next =>
      ({ s with admission := next.1, tasks := s.nextTasks action next.1 },
        next.2.map Event.admission)
  else none

/-- The body of the loop of `TickWorker` for the message that it holds. -/
def handleTickStep (s : State cfg threads stops) (index : Fin cfg.admission.tickDecoderLanes)
    (grows : ℕ → Bool) (answers : Answers) : Option (State cfg threads stops) :=
  if s.at_ (.tick index) .handle then
    (s.held (.tick index)).bind fun message =>
      let s := s.setTask (.tick index) .none
      match handleTick cfg.recovery cfg.settings cfg.catalog grows message with
      | .call call => s.recover index call answers
      | _ => some s
  else none

/-- The body of the loop of `SnapshotWorker` for the message that it holds. -/
def handleSnapshotStep (s : State cfg threads stops)
    (index : Fin cfg.admission.snapshotDecoderLanes) (grows : ℕ → Bool) (accepted : Bool) :
    Option (State cfg threads stops) :=
  if s.at_ (.snapshot index) .handle then
    (s.held (.snapshot index)).map fun message =>
      let s := s.setTask (.snapshot index) .none
      match decodeSnapshot grows message cfg.settings.tradeDate cfg.settings.limits cfg.catalog with
      | .ok decoded _ =>
        if decoded.catalogMatch then
          { s with snapshots := s.snapshots.offer index [(decoded.snapshot, accepted)] }
        else s
      | .error _ _ => s
  else none

/-- The timer of a tick lane : `Poll` if it has run out. -/
def scanStep (s : State cfg threads stops) (index : Fin cfg.admission.tickDecoderLanes) (now : ℕ)
    (answers : Answers) : Option (State cfg threads stops) :=
  match s.tasks (.tick index) with
  | .scan receiveMonotonicNs =>
    if s.published (.tick index) then
      let lane := s.tickLanes index
      let now := receiveMonotonicNs.getD now
      let s := s.setTask (.tick index) .none
      if lane.nextTimer ≤ now then
        ({ s with
          tickLanes := Function.update s.tickLanes index
            { lane with now, nextTimer := (now + cfg.recoveryTimerScanNs) % 2 ^ 64 } }).recover
          index (.poll now) answers
      else some { s with tickLanes := Function.update s.tickLanes index { lane with now } }
    else none
  | _ => none

/-- `Flush`, at the time of the pass that found the lane empty. -/
def flushStep (s : State cfg threads stops) (index : Fin cfg.admission.tickDecoderLanes)
    (answers : Answers) : Option (State cfg threads stops) :=
  if s.at_ (.tick index) .flush then
    (s.setTask (.tick index) .none).recover index (.flush (s.tickLanes index).now) answers
  else none

def step (s : State cfg threads stops) : Action cfg threads stops →
    Option (State cfg threads stops × List (Event cfg threads))
  | .admission action => admissionStep s action
  | .handleTick index grows answers => (handleTickStep s index grows answers).map (·, [])
  | .handleSnapshot index grows accepted =>
    (handleSnapshotStep s index grows accepted).map (·, [])
  | .scan index now answers => (scanStep s index now answers).map (·, [])
  | .flush index answers => (flushStep s index answers).map (·, [])
  | .publishTick index =>
    (s.ticks.spin cfg.tickOwner index).map fun ticks => ({ s with ticks }, [])
  | .publishSnapshot index =>
    (s.snapshots.spin cfg.snapshotOwner index).map fun snapshots => ({ s with snapshots }, [])
  | .callPollTick owner =>
    (s.ticks.callPoll owner).map fun next => ({ s with ticks := next.1 }, next.2.map .tick)
  | .pollTick owner =>
    (s.ticks.pollPass owner).map fun next => ({ s with ticks := next.1 }, next.2.map .tick)
  | .callPollSnapshot owner =>
    (s.snapshots.callPoll owner).map fun next =>
      ({ s with snapshots := next.1 }, next.2.map .snapshot)
  | .pollSnapshot owner =>
    (s.snapshots.pollPass owner).map fun next =>
      ({ s with snapshots := next.1 }, next.2.map .snapshot)

/-- What the engine is constructed over : memory that holds whatever it was allocated with, and
the time at which each tick worker starts. -/
structure Memory (cfg : EngineConfig) where
  lanes : (lane : Lane cfg.admission) → LaneStorage lane.ring
  clocks : Fin cfg.admission.tickDecoderLanes → ℕ
  ticks : ℕ → Fin cfg.dispatchRing.size → CanonicalTick
  snapshots : ℕ → Fin cfg.dispatchRing.size → CanonicalSnapshot

/-- The engine when `Start` has started the workers. -/
def machine (cfg : EngineConfig) (threads stops : ℕ) (memory : Memory cfg) :
    Machine (State cfg threads stops) (Action cfg threads stops) (Event cfg threads) where
  start :=
    { admission := (Admission.machine cfg.admission threads stops memory.lanes).start
      tickLanes := fun index => { nextTimer := memory.clocks index, now := memory.clocks index }
      ticks := { queues := fun i => { storage := memory.ticks i } }
      snapshots := { queues := fun i => { storage := memory.snapshots i } } }
  step := step

end Engine

end L2Flow
