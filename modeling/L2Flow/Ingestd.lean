import L2Flow.Engine
import L2Flow.Polling

/-!
# The daemon

`mdl_ingestd` in the time from `Start` to the end of `main` : the engine, the queues of late
records and of faults that `Engine` leaves out, a thread for each owner that polls what there is
for it and counts what it gets, and the main thread, which stops the engine and then waits until
as many records have been counted as the lanes say that they have published. Where `Connect`
fails, it ends the threads of the owners first and does not wait for records.

Every step of the engine is a step here, provided that the worker whose step it is has done what
its callbacks have to do : it has published the late records and the faults as well, and has
incremented the counter of each record that it has published. Which of the queues a call of the
recovery publishes into first is left open. The polls of the owners are steps of their threads.
Gaps are left out : the gap mailboxes are those of `Dispatcher`, no count that `main` waits for
depends on them, and the loops that poll them, of the first owner between snapshots and late
records and of `main` when it has joined the owners, are not steps here.
-/

namespace L2Flow

namespace SequenceRecovery

/-- The records passed to `emit_late`, with its answers. -/
def diverted (trace : Trace) : List (LateRecoveryTick × Bool) :=
  trace.filterMap fun
    | (_, .late _ record accepted) => some (record, accepted)
    | _ => none

/-- The faults passed to `emit_fault`, with its answers. -/
def faulted (trace : Trace) : List (ChannelFault × Bool) :=
  trace.filterMap fun
    | (_, .fault record accepted) => some (record, accepted)
    | _ => none

end SequenceRecovery

namespace QueueMatrix

variable {α : Type*} {shape : MatrixShape}

/-- The next pass of `PublishBounded` publishes its record. -/
def takes (ownerOf : α → ℕ) (m : QueueMatrix α shape) (producer : ℕ) : Bool :=
  match m.outboxes producer with
  | [] => false
  | (value, _) :: _ => (m.publish producer (ownerOf value) value).1

/-- The next step of a poll, which begins if it is not under way. -/
def pollStep (m : QueueMatrix α shape) (owner : ℕ) :
    Option (QueueMatrix α shape × List (Polled α)) :=
  match m.polls owner with
  | none => m.callPoll owner
  | some _ => m.pollPass owner

/-- What a poll has returned, if it is over. -/
def pollEnd : List (Polled α) → Option Bool
  | .returned _ _ _ :: _ => some true
  | .nothing _ :: _ => some false
  | [] => none

end QueueMatrix

/-- What the daemon is started with. -/
structure IngestdConfig where
  engine : EngineConfig
  faultRing : RingCapacity
  lateRecoveryRing : RingCapacity

namespace IngestdConfig

variable (cfg : IngestdConfig)

def sizes : DispatcherSizes where
  tickProducers := cfg.engine.admission.tickDecoderLanes
  snapshotProducers := cfg.engine.admission.snapshotDecoderLanes
  owners := cfg.engine.instrumentWorkers
  queueCapacity := cfg.engine.dispatchRing
  faultCapacity := cfg.faultRing
  lateRecoveryCapacity := cfg.lateRecoveryRing

/-- The call of the recovery that an input of a tick lane comes to. -/
def call? (input : TickInput) : Option SequenceRecovery.Call :=
  input.call? cfg.engine.recovery cfg.engine.settings cfg.engine.catalog

/-- What a snapshot worker publishes of a message. -/
def offer (grows : ℕ → Bool) (accepted : Bool) (message : OwnedMessageView) :
    List (CanonicalSnapshot × Bool) :=
  match decodeSnapshot grows message cfg.engine.settings.tradeDate cfg.engine.settings.limits
    cfg.engine.catalog with
  | .ok decoded _ => if decoded.catalogMatch then [(decoded.snapshot, accepted)] else []
  | .error _ _ => []

end IngestdConfig

namespace Ingestd

/-- What is counted. -/
inductive Kind where
  | tick
  | snapshot
  | late
  | fault
  deriving DecidableEq, Repr

/-- The kinds in the order in which `main` compares their counts. -/
def Kind.all : List Kind :=
  [.tick, .snapshot, .late, .fault]

/-- The loop of an owner's thread, by what it does next. -/
inductive DrainStage where
  /-- `drain_running` is read next. -/
  | testing
  | polling (kind : Kind)
  /-- `consumed_ticks` or one of its siblings is incremented next. -/
  | counting (kind : Kind)
  | exited
  deriving DecidableEq

/-- What is polled when a queue had nothing. -/
def DrainStage.next (owner : ℕ) : Kind → DrainStage
  | .tick => .polling .snapshot
  | .snapshot => if owner = 0 then .polling .late else .testing
  | .late => .polling .fault
  | .fault => .testing

/-- What the thread does after a step of a poll. -/
def DrainStage.after (owner : ℕ) (kind : Kind) : Option Bool → DrainStage
  | none => .polling kind
  | some true => .counting kind
  | some false => .next owner kind

/-- The rest of `main`, by what it does next. -/
inductive MainStage where
  /-- `Connect` returns next. -/
  | connecting
  /-- The loop that lasts until a stop is requested. -/
  | serving
  /-- `Stop` has been called. -/
  | stopping
  /-- The counters of the lanes are read next. -/
  | reading
  /-- The counters of the owners are compared next, first that of the first kind. -/
  | comparing (dispatched : Kind → ℕ) (rest : List Kind)
  /-- `drain_running` is cleared next. -/
  | drained
  /-- The threads of the owners are joined. -/
  | joining
  /-- They have been joined, and what is left to `main` is to poll gaps and to return. -/
  | exited
  /-- `Connect` has failed, and `drain_running` is cleared next. -/
  | refused
  /-- The threads of the owners are joined before `Stop` is called. -/
  | abandoning
  /-- `Stop` has been called without a session. -/
  | halting
  | failed

structure State (cfg : IngestdConfig) (threads stops : ℕ) where
  engine : Engine.State cfg.engine threads stops
  lates : QueueMatrix LateRecoveryTick cfg.sizes.lateRecoveryQueues
  faults : QueueMatrix ChannelFault cfg.sizes.faultQueues
  /-- `dispatched_ticks` and its siblings, by lane. -/
  dispatched : Kind → ℕ → ℕ := fun _ _ => 0
  /-- The lane has published a record of the kind, and increments the counter next. -/
  uncounted : Kind → ℕ → Bool := fun _ _ => false
  /-- `consumed_ticks` and its siblings. -/
  consumed : Kind → ℕ := fun _ => 0
  drainRunning : Bool := true
  drains : Fin cfg.engine.instrumentWorkers → DrainStage := fun _ => .testing
  main : MainStage := .connecting

inductive Event (cfg : IngestdConfig) (threads : ℕ) where
  | engine (event : Engine.Event cfg.engine threads)
  | late (polled : Polled LateRecoveryTick)
  | fault (polled : Polled ChannelFault)
  /-- A tick worker has dealt with an input, and the recovery did this. -/
  | input (index : Fin cfg.engine.admission.tickDecoderLanes) (input : TickInput)
      (answers : Engine.Answers) (trace : Trace)
  /-- A snapshot worker has dealt with a message. -/
  | message (index : Fin cfg.engine.admission.snapshotDecoderLanes) (grows : ℕ → Bool)
      (accepted : Bool) (message : OwnedMessageView)

inductive Action (cfg : IngestdConfig) (threads stops : ℕ) where
  | engine (action : Engine.Action cfg.engine threads stops)
  | publishLate (index : Fin cfg.engine.admission.tickDecoderLanes)
  | publishFault (index : Fin cfg.engine.admission.tickDecoderLanes)
  /-- A lane increments a counter. -/
  | count (kind : Kind) (index : ℕ)
  | drain (owner : Fin cfg.engine.instrumentWorkers)
  /-- The main thread, which `Connect` tells whether there is a session. -/
  | main (connected : Bool)

variable {cfg : IngestdConfig} {threads stops : ℕ}

namespace State

/-- The worker of a lane has incremented every counter that it has to. -/
def counted (s : State cfg threads stops) : Lane cfg.engine.admission → Bool
  | .tick index =>
    !s.uncounted .tick index && !s.uncounted .late index && !s.uncounted .fault index
  | .snapshot index => !s.uncounted .snapshot index

/-- The worker has done all that its callbacks have to do for late records and faults. -/
def settled (s : State cfg threads stops) (lane : Lane cfg.engine.admission) : Bool :=
  s.counted lane &&
    match lane with
    | .tick index => (s.lates.outboxes index).isEmpty && (s.faults.outboxes index).isEmpty
    | .snapshot _ => true

/-- A step of a worker waits for what its callbacks do before it. The polls are not steps of the
engine here. -/
def allows (s : State cfg threads stops) : Engine.Action cfg.engine threads stops → Bool
  | .admission (.work lane) => s.settled lane
  | .admission _ => true
  | .handleTick index _ _ => s.settled (.tick index)
  | .scan index _ _ => s.settled (.tick index)
  | .flush index _ => s.settled (.tick index)
  | .handleSnapshot index _ _ => s.settled (.snapshot index)
  | .publishTick index => s.counted (.tick index)
  | .publishSnapshot index => s.counted (.snapshot index)
  | .callPollTick _ | .pollTick _ | .callPollSnapshot _ | .pollSnapshot _ => false

/-- A lane has published a record, or was refused it. -/
def setUncounted (s : State cfg threads stops) (kind : Kind) (index : ℕ) (published : Bool) :
    State cfg threads stops :=
  { s with
    uncounted := Function.update s.uncounted kind
      (Function.update (s.uncounted kind) index published) }

def setDrain (s : State cfg threads stops) (owner : Fin cfg.engine.instrumentWorkers)
    (stage : DrainStage) : State cfg threads stops :=
  { s with drains := Function.update s.drains owner stage }

/-- The workers can be joined. -/
def joined (s : State cfg threads stops) : Bool :=
  (List.finRange cfg.engine.admission.tickDecoderLanes).all
      (fun index => s.engine.admission.workers (.tick index) = .exited) &&
    (List.finRange cfg.engine.admission.snapshotDecoderLanes).all
      (fun index => s.engine.admission.workers (.snapshot index) = .exited)

/-- The threads of the owners can be joined. -/
def drainsJoined (s : State cfg threads stops) : Bool :=
  (List.finRange cfg.engine.instrumentWorkers).all fun owner => s.drains owner = .exited

end State

/-- The number of lanes that publish records of a kind. -/
def producers (cfg : IngestdConfig) : Kind → ℕ
  | .snapshot => cfg.engine.admission.snapshotDecoderLanes
  | _ => cfg.engine.admission.tickDecoderLanes

/-- The part of `Stats` that `main` compares : the counter of a kind, over all lanes. -/
def stats (s : State cfg threads stops) (kind : Kind) : ℕ :=
  ((List.range (producers cfg kind)).map (s.dispatched kind)).sum

/-- The input that a tick worker deals with in a step of the engine. -/
def inputOf (s : Engine.State cfg.engine threads stops) :
    Engine.Action cfg.engine threads stops →
      Option (Fin cfg.engine.admission.tickDecoderLanes × TickInput × Engine.Answers)
  | .handleTick index grows answers =>
    (s.held (.tick index)).map fun message => (index, .consume grows message, answers)
  | .scan index now answers =>
    match s.tasks (.tick index) with
    | .scan receiveMonotonicNs =>
      if (s.tickLanes index).nextTimer ≤ receiveMonotonicNs.getD now then
        some (index, .poll (receiveMonotonicNs.getD now), answers)
      else none
    | _ => none
  | .flush index answers => some (index, .flush (s.tickLanes index).now, answers)
  | _ => none

/-- What the recovery of a lane does with an input. -/
def traceOf (s : Engine.State cfg.engine threads stops)
    (index : Fin cfg.engine.admission.tickDecoderLanes) (input : TickInput)
    (answers : Engine.Answers) : Trace :=
  match (cfg.call? input).bind (SequenceRecovery.step answers.1 (s.tickLanes index).recovery) with
  | some done => done.2
  | none => []

/-- A step of the engine, and what it leaves the callbacks of its worker to do. -/
def engineStep (s : State cfg threads stops) (action : Engine.Action cfg.engine threads stops) :
    Option (State cfg threads stops × List (Event cfg threads)) :=
  if s.allows action then
    (Engine.step s.engine action).map fun next =>
      let after := { s with engine := next.1 }
      let events := next.2.map Event.engine
      match action, inputOf s.engine action with
      | .publishTick index, _ =>
        (after.setUncounted .tick index (s.engine.ticks.takes cfg.engine.tickOwner index), events)
      | .publishSnapshot index, _ =>
        (after.setUncounted .snapshot index
          (s.engine.snapshots.takes cfg.engine.snapshotOwner index), events)
      | .handleSnapshot index grows accepted, _ =>
        (after, events ++ ((s.engine.held (.snapshot index)).map
          fun message => Event.message index grows accepted message).toList)
      | _, some (index, input, answers) =>
        let trace := traceOf s.engine index input answers
        ({ after with
            lates := s.lates.offer index (SequenceRecovery.diverted trace)
            faults := s.faults.offer index (SequenceRecovery.faulted trace) },
          events ++ [.input index input answers trace])
      | _, none => (after, events)
  else none

/-- A pass of `PublishBounded` for a late record. -/
def publishLateStep (s : State cfg threads stops)
    (index : Fin cfg.engine.admission.tickDecoderLanes) : Option (State cfg threads stops) :=
  if s.counted (.tick index) then
    (s.lates.spin (fun _ => 0) index).map fun lates =>
      ({ s with lates }).setUncounted .late index (s.lates.takes (fun _ => 0) index)
  else none

/-- A pass of `PublishBounded` for a fault. -/
def publishFaultStep (s : State cfg threads stops)
    (index : Fin cfg.engine.admission.tickDecoderLanes) : Option (State cfg threads stops) :=
  if s.counted (.tick index) then
    (s.faults.spin (fun _ => 0) index).map fun faults =>
      ({ s with faults }).setUncounted .fault index (s.faults.takes (fun _ => 0) index)
  else none

/-- A lane increments the counter of the record that it has published. -/
def countStep (s : State cfg threads stops) (kind : Kind) (index : ℕ) :
    Option (State cfg threads stops) :=
  if s.uncounted kind index then
    some (({ s with
      dispatched := Function.update s.dispatched kind
        (Function.update (s.dispatched kind) index (s.dispatched kind index + 1)) }).setUncounted
      kind index false)
  else none

/-- A step of the poll that an owner's thread is in. The late records and the faults have one
owner. -/
def pollStep (s : State cfg threads stops) (owner : Fin cfg.engine.instrumentWorkers) :
    Kind → Option (State cfg threads stops × List (Event cfg threads) × Option Bool)
  | .tick =>
    (s.engine.ticks.pollStep owner).map fun next =>
      ({ s with engine := { s.engine with ticks := next.1 } },
        next.2.map fun polled => .engine (.tick polled), QueueMatrix.pollEnd next.2)
  | .snapshot =>
    (s.engine.snapshots.pollStep owner).map fun next =>
      ({ s with engine := { s.engine with snapshots := next.1 } },
        next.2.map fun polled => .engine (.snapshot polled), QueueMatrix.pollEnd next.2)
  | .late =>
    (s.lates.pollStep 0).map fun next =>
      ({ s with lates := next.1 }, next.2.map .late, QueueMatrix.pollEnd next.2)
  | .fault =>
    (s.faults.pollStep 0).map fun next =>
      ({ s with faults := next.1 }, next.2.map .fault, QueueMatrix.pollEnd next.2)

/-- A step of an owner's thread. -/
def drainStep (s : State cfg threads stops) (owner : Fin cfg.engine.instrumentWorkers) :
    Option (State cfg threads stops × List (Event cfg threads)) :=
  match s.drains owner with
  | .testing =>
    some (s.setDrain owner (if s.drainRunning then .polling .tick else .exited), [])
  | .polling kind =>
    (pollStep s owner kind).map fun (s, events, answer) =>
      (s.setDrain owner (.after owner kind answer), events)
  | .counting kind =>
    some (({ s with
      consumed := Function.update s.consumed kind (s.consumed kind + 1) }).setDrain owner
        (.polling kind), [])
  | .exited => none

/-- A step of the main thread, whose call of `Stop` is that of the thread `stopper`. The counters
of the lanes are read in one step : the workers are joined by then. -/
def mainStep (stopper : Fin stops) (s : State cfg threads stops) (connected : Bool) :
    Option (State cfg threads stops) :=
  match s.main with
  | .connecting => some { s with main := if connected then .serving else .refused }
  | .serving => some { s with main := .stopping }
  | .stopping =>
    if s.engine.admission.stops stopper = some .stopped ∧ s.joined then
      some { s with main := .reading }
    else none
  | .reading => some { s with main := .comparing (stats s) Kind.all }
  | .comparing dispatched (kind :: rest) =>
    some { s with
      main := if dispatched kind ≤ s.consumed kind then .comparing dispatched rest else .reading }
  | .comparing _ [] => some { s with main := .drained }
  | .drained => some { s with drainRunning := false, main := .joining }
  | .joining => if s.drainsJoined then some { s with main := .exited } else none
  | .refused => some { s with drainRunning := false, main := .abandoning }
  | .abandoning => if s.drainsJoined then some { s with main := .halting } else none
  | .halting =>
    if s.engine.admission.stops stopper = some .stopped ∧ s.joined then
      some { s with main := .failed }
    else none
  | .exited | .failed => none

def step (stopper : Fin stops) (s : State cfg threads stops) : Action cfg threads stops →
    Option (State cfg threads stops × List (Event cfg threads))
  | .engine action => engineStep s action
  | .publishLate index => (publishLateStep s index).map (·, [])
  | .publishFault index => (publishFaultStep s index).map (·, [])
  | .count kind index => (countStep s kind index).map (·, [])
  | .drain owner => drainStep s owner
  | .main connected => (mainStep stopper s connected).map (·, [])

/-- What the daemon is started over. -/
structure Memory (cfg : IngestdConfig) where
  engine : Engine.Memory cfg.engine
  lates : ℕ → Fin cfg.lateRecoveryRing.size → LateRecoveryTick
  faults : ℕ → Fin cfg.faultRing.size → ChannelFault

/-- The daemon when `Start` has started the workers. -/
def machine (cfg : IngestdConfig) (threads stops : ℕ) (stopper : Fin stops)
    (memory : Memory cfg) :
    Machine (State cfg threads stops) (Action cfg threads stops) (Event cfg threads) where
  start :=
    { engine := (Engine.machine cfg.engine threads stops memory.engine).start
      lates := { queues := fun i => { storage := memory.lates i } }
      faults := { queues := fun i => { storage := memory.faults i } } }
  step := step stopper

end Ingestd

end L2Flow
