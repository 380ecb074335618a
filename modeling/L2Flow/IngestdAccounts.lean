import L2Flow.IngestdParts

/-!
# The accounts of the daemon

The four kinds of records go the same way : a lane is given records to publish (`sentOn`), it
publishes and counts them, and owners poll and count them. In every state that a run reaches each
kind is `Tallied`, so that what the lanes have counted, or are about to, has been counted by the
owners, is about to be, or waits in a ring, and an owner has polled of each lane the first of what
is his (`records_accounted`). Were it not for this, `main` could wait for records
that nobody has, or leave while some of them wait.
-/

namespace L2Flow

open SequenceRecovery (emitted diverted faulted)

namespace Ingestd

variable {cfg : IngestdConfig} {threads stops : ℕ}

/-! ## Kinds -/

/-- The records of a kind. -/
abbrev Kind.Record : Kind → Type
  | .tick => CanonicalTick
  | .snapshot => CanonicalSnapshot
  | .late => LateRecoveryTick
  | .fault => ChannelFault

/-- The dimensions of the queues of a kind. -/
abbrev shapeOf (cfg : IngestdConfig) : Kind → MatrixShape
  | .tick => cfg.sizes.tickQueues
  | .snapshot => cfg.sizes.snapshotQueues
  | .late => cfg.sizes.lateRecoveryQueues
  | .fault => cfg.sizes.faultQueues

/-- The owner of a record. -/
def ownerOf (cfg : IngestdConfig) : (kind : Kind) → kind.Record → ℕ
  | .tick => cfg.engine.tickOwner
  | .snapshot => cfg.engine.snapshotOwner
  | .late | .fault => fun _ => 0

/-- Where the thread of an owner polls records of a kind. -/
def placeOf (owner : ℕ) : Kind → ℕ
  | .tick | .snapshot => owner
  | .late | .fault => 0

/-- The rings that hold the records of a kind. -/
def queuesOf (s : State cfg threads stops) :
    (kind : Kind) → QueueMatrix kind.Record (shapeOf cfg kind)
  | .tick => s.engine.ticks
  | .snapshot => s.engine.snapshots
  | .late => s.lates
  | .fault => s.faults

/-- What the owners have polled of a kind. -/
def polledOf (log : List (Event cfg threads)) : (kind : Kind) → List (Polled kind.Record)
  | .tick => Engine.tickLog (engineLog log)
  | .snapshot => Engine.snapshotLog (engineLog log)
  | .late => lateLog log
  | .fault => faultLog log

/-- What the worker of a lane was given to publish, with what the rings were to answer. -/
def givenOn (index : ℕ) (log : List (Event cfg threads)) :
    (kind : Kind) → List (kind.Record × Bool)
  | .tick => emitted (traceOn index log)
  | .snapshot => offersOn index log
  | .late => diverted (traceOn index log)
  | .fault => faulted (traceOn index log)

/-- What the worker of a lane was given to publish, and the rings to take. -/
def sentOn (kind : Kind) (log : List (Event cfg threads)) (index : ℕ) : List kind.Record :=
  QueueMatrix.accepted (givenOn index log kind)

/-- The owners that have polled a record of the kind that they have not counted. -/
def counting (s : State cfg threads stops) (kind : Kind) : ℕ :=
  ∑ owner, if s.drains owner = .counting kind then 1 else 0

/-- Every record has an owner who polls it. -/
theorem ownerOf_lt (cfg : IngestdConfig) (kind : Kind) (record : kind.Record) :
    ownerOf cfg kind record < (shapeOf cfg kind).owners := by
  cases kind with
  | tick => exact cfg.engine.instrumentOwner_lt _
  | snapshot => exact cfg.engine.instrumentOwner_lt _
  | late => exact Nat.one_pos
  | fault => exact Nat.one_pos

theorem diverted_append (trace added : Trace) :
    diverted (trace ++ added) = diverted trace ++ diverted added :=
  List.filterMap_append ..

theorem faulted_append (trace added : Trace) :
    faulted (trace ++ added) = faulted trace ++ faulted added :=
  List.filterMap_append ..

theorem accepted_append {α : Type} (records more : List (α × Bool)) :
    QueueMatrix.accepted (records ++ more) =
      QueueMatrix.accepted records ++ QueueMatrix.accepted more :=
  List.filterMap_append ..

/-- What is given to a lane is given in the order of the log. -/
theorem givenOn_append (index : ℕ) (log new : List (Event cfg threads)) (kind : Kind) :
    givenOn index (log ++ new) kind = givenOn index log kind ++ givenOn index new kind := by
  cases kind with
  | tick => exact (congrArg emitted (traceOn_append ..)).trans (SequenceRecovery.emitted_append ..)
  | snapshot => exact offersOn_append ..
  | late => exact (congrArg diverted (traceOn_append ..)).trans (diverted_append ..)
  | fault => exact (congrArg faulted (traceOn_append ..)).trans (faulted_append ..)

theorem sentOn_append (kind : Kind) (log new : List (Event cfg threads)) (index : ℕ) :
    sentOn kind (log ++ new) index = sentOn kind log index ++ sentOn kind new index := by
  rw [sentOn, givenOn_append, accepted_append]
  rfl

theorem polledOf_append (kind : Kind) (log new : List (Event cfg threads)) :
    polledOf (log ++ new) kind = polledOf log kind ++ polledOf new kind := by
  cases kind with
  | tick => exact (congrArg Engine.tickLog (engineLog_append ..)).trans (Engine.tickLog_append ..)
  | snapshot =>
    exact (congrArg Engine.snapshotLog (engineLog_append ..)).trans (Engine.snapshotLog_append ..)
  | late => exact lateLog_append ..
  | fault => exact faultLog_append ..

/-! ## The invariant -/

/-- Each kind of records is where `Tallied` says. -/
def Accounts (s : State cfg threads stops) (log : List (Event cfg threads)) : Prop :=
  ∀ kind, QueueMatrix.Tallied (ownerOf cfg kind) (sentOn kind log) (queuesOf s kind)
    (polledOf log kind) (s.dispatched kind) (s.uncounted kind) (s.consumed kind) (counting s kind)

section Accounts

variable {stopper : Fin stops} {memory : Memory cfg} {s s' : State cfg threads stops}
  {log new : List (Event cfg threads)}

/-- Nothing is sent, polled or counted at the start. -/
theorem accounts_start : Accounts (machine cfg threads stops stopper memory).start [] := by
  intro kind
  have hcounting : counting (machine cfg threads stops stopper memory).start kind = 0 :=
    Finset.sum_eq_zero fun _ _ => if_neg (by simp [machine])
  rw [hcounting]
  cases kind with
  | tick => exact @QueueMatrix.Tallied.start _ (shapeOf cfg .tick) _ memory.engine.ticks
  | snapshot =>
    exact @QueueMatrix.Tallied.start _ (shapeOf cfg .snapshot) _ memory.engine.snapshots
  | late => exact @QueueMatrix.Tallied.start _ (shapeOf cfg .late) _ memory.lates
  | fault => exact @QueueMatrix.Tallied.start _ (shapeOf cfg .fault) _ memory.faults

/-- When an owner goes from one stage to another, the count of those that are about to count a
record goes with it. -/
theorem counting_setDrain (s : State cfg threads stops) (owner : Fin cfg.engine.instrumentWorkers)
    (stage : DrainStage) (kind : Kind) :
    counting (s.setDrain owner stage) kind + (if s.drains owner = .counting kind then 1 else 0) =
      counting s kind + if stage = .counting kind then 1 else 0 :=
  Machine.sum_update (fun stage : DrainStage => if stage = .counting kind then 1 else 0) s.drains
    owner stage

/-- A step that no account depends on. -/
theorem Accounts.beside (h : Accounts s log)
    (hqueues : ∀ kind, queuesOf s' kind = queuesOf s kind)
    (hpolled : ∀ kind, polledOf new kind = []) (hgiven : ∀ index kind, givenOn index new kind = [])
    (hdispatched : s'.dispatched = s.dispatched) (huncounted : s'.uncounted = s.uncounted)
    (hconsumed : s'.consumed = s.consumed)
    (hcounting : ∀ kind, counting s' kind = counting s kind) : Accounts s' (log ++ new) := by
  intro kind
  have hsent : sentOn kind (log ++ new) = sentOn kind log := funext fun index => by
    rw [sentOn_append, sentOn, sentOn, hgiven]
    exact List.append_nil _
  rw [hsent, polledOf_append, hpolled, List.append_nil, hqueues, hdispatched, huncounted,
    hconsumed, hcounting]
  exact h kind

/-- A lane publishes a record of a kind, or is refused it. -/
theorem Accounts.spin (h : Accounts s log) (kind : Kind) {producer : ℕ}
    (hcounted : s.uncounted kind producer = false)
    (hspin : (queuesOf s kind).spin (ownerOf cfg kind) producer = some (queuesOf s' kind))
    (hothers : ∀ other ≠ kind, queuesOf s' other = queuesOf s other)
    (hdispatched : s'.dispatched = s.dispatched)
    (huncounted : s'.uncounted = Function.update s.uncounted kind
      (Function.update (s.uncounted kind) producer
        ((queuesOf s kind).takes (ownerOf cfg kind) producer)))
    (hconsumed : s'.consumed = s.consumed) (hdrains : s'.drains = s.drains) :
    Accounts s' (log ++ []) := by
  intro other
  have hcounting : counting s' other = counting s other := by rw [counting, counting, hdrains]
  rw [List.append_nil, hdispatched, huncounted, hconsumed, hcounting]
  rcases eq_or_ne other kind with rfl | hne
  · rw [Function.update_self]
    exact (h other).spin hcounted hspin
  · rw [Function.update_of_ne hne, hothers other hne]
    exact h other

/-- A worker is done with what it was given, and is given what came of it. -/
theorem Accounts.offer (h : Accounts s log) (index : ℕ)
    (hqueues : ∀ kind,
      (queuesOf s' kind = queuesOf s kind ∧ givenOn index new kind = []) ∨
        ((queuesOf s kind).outboxes index = [] ∧
          queuesOf s' kind = (queuesOf s kind).offer index (givenOn index new kind)))
    (hpolled : ∀ kind, polledOf new kind = [])
    (hothers : ∀ other ≠ index, ∀ kind, givenOn other new kind = [])
    (hdispatched : s'.dispatched = s.dispatched) (huncounted : s'.uncounted = s.uncounted)
    (hconsumed : s'.consumed = s.consumed) (hdrains : s'.drains = s.drains) :
    Accounts s' (log ++ new) := by
  intro kind
  have hcounting : counting s' kind = counting s kind := by rw [counting, counting, hdrains]
  have hsent : sentOn kind (log ++ new) = Function.update (sentOn kind log) index
      (sentOn kind log index ++ QueueMatrix.accepted (givenOn index new kind)) := by
    funext other
    rw [sentOn_append]
    rcases eq_or_ne other index with rfl | hne
    · rw [Function.update_self]
      rfl
    · rw [Function.update_of_ne hne, sentOn, sentOn, hothers other hne]
      exact List.append_nil _
  rw [hsent, polledOf_append, hpolled, List.append_nil, hdispatched, huncounted, hconsumed,
    hcounting]
  rcases hqueues kind with ⟨hsame, hnone⟩ | ⟨hidle, hoffered⟩
  · rw [hsame, hnone]
    show QueueMatrix.Tallied _ (Function.update _ index (_ ++ [])) _ _ _ _ _ _
    rw [List.append_nil, Function.update_eq_self]
    exact h kind
  · rw [hoffered]
    exact (h kind).offer hidle fun value _ => ownerOf_lt cfg kind value

/-! ## Steps -/

/-- What the engine reports is neither dealt with by a worker nor polled of the other queues. -/
theorem logs_engine (events : List (Engine.Event cfg.engine threads)) :
    engineLog (events.map (Event.engine : _ → Event cfg threads)) = events ∧
      lateLog (events.map (Event.engine : _ → Event cfg threads)) = [] ∧
      faultLog (events.map (Event.engine : _ → Event cfg threads)) = [] ∧
      ∀ index, inputsOn index (events.map (Event.engine : _ → Event cfg threads)) = [] ∧
        decodedOn index (events.map (Event.engine : _ → Event cfg threads)) = [] := by
  unfold engineLog lateLog faultLog inputsOn decodedOn
  exact ⟨Engine.filterMap_map_self (fun _ => by rfl) _,
    Engine.filterMap_map_none (fun _ => by rfl) _,
    Engine.filterMap_map_none (fun _ => by rfl) _, fun index =>
    ⟨Engine.filterMap_map_none (fun _ => by rfl) _, Engine.filterMap_map_none (fun _ => by rfl) _⟩⟩

theorem polledOf_engine (events : List (Engine.Event cfg.engine threads))
    (htick : Engine.tickLog events = []) (hsnapshot : Engine.snapshotLog events = [])
    (kind : Kind) : polledOf (events.map (Event.engine : _ → Event cfg threads)) kind = [] := by
  obtain ⟨hengine, hlate, hfault, -⟩ :
      engineLog (events.map (Event.engine : _ → Event cfg threads)) = events ∧ _ :=
    logs_engine events
  cases kind with
  | tick => exact (congrArg Engine.tickLog hengine).trans htick
  | snapshot => exact (congrArg Engine.snapshotLog hengine).trans hsnapshot
  | late => exact hlate
  | fault => exact hfault

theorem givenOn_nil {index : ℕ} (hinputs : inputsOn index new = [])
    (hdecoded : decodedOn index new = []) (kind : Kind) : givenOn index new kind = [] := by
  cases kind <;> simp [givenOn, traceOn, offersOn, hinputs, hdecoded, emitted, diverted, faulted]

/-- What a step of a poll does. -/
structure Polls (s s' : State cfg threads stops) (owner : Fin cfg.engine.instrumentWorkers)
    (kind : Kind) (events : List (Event cfg threads)) (answer : Option Bool) : Prop where
  step : (queuesOf s kind).pollStep (placeOf owner kind) =
    some (queuesOf s' kind, polledOf events kind)
  answer : answer = QueueMatrix.pollEnd (polledOf events kind)
  others : ∀ other ≠ kind, queuesOf s' other = queuesOf s other ∧ polledOf events other = []
  admission : Engine.admissionLog (engineLog events) = []
  inputs : ∀ index, inputsOn index events = []
  decoded : ∀ index, decodedOn index events = []
  frame : s' = { s with
    engine := { s.engine with ticks := s'.engine.ticks, snapshots := s'.engine.snapshots }
    lates := s'.lates
    faults := s'.faults }

/-- A poll of one kind leaves the others as they are. -/
theorem polls_of_step {owner : Fin cfg.engine.instrumentWorkers} {kind : Kind}
    {events : List (Event cfg threads)} {answer : Option Bool}
    (h : pollStep s owner kind = some (s', events, answer)) :
    Polls s s' owner kind events answer := by
  cases kind with
  | tick =>
    obtain ⟨⟨ticks, polled⟩, hstep, heq⟩ := Option.map_eq_some_iff.1 h
    obtain ⟨rfl, hrest⟩ := Prod.mk.inj heq
    obtain ⟨rfl, rfl⟩ := Prod.mk.inj hrest
    have hmap : polled.map (fun polled => (.engine (.tick polled) : Event cfg threads)) =
        (polled.map .tick).map .engine := List.map_map.symm
    obtain ⟨hengine, hlate, hfault, hworkers⟩ :
        engineLog ((polled.map .tick).map (Event.engine : _ → Event cfg threads)) = _ ∧ _ :=
      logs_engine (polled.map .tick)
    obtain ⟨hadmission, htick, hsnapshot⟩ :
        Engine.admissionLog (polled.map (Engine.Event.tick : _ → Engine.Event cfg.engine threads)) =
          [] ∧ _ ∧ _ := Engine.logs_tick polled
    rw [hmap]
    have hpolled : polledOf ((polled.map .tick).map (Event.engine : _ → Event cfg threads)) .tick =
        polled := (congrArg Engine.tickLog hengine).trans htick
    refine ⟨?_, congrArg _ hpolled.symm, fun other hne => ?_, (congrArg _ hengine).trans hadmission,
      fun index => (hworkers index).1, fun index => (hworkers index).2, rfl⟩
    · rw [hpolled]
      exact hstep
    · cases other with
      | tick => exact absurd rfl hne
      | snapshot => exact ⟨rfl, (congrArg Engine.snapshotLog hengine).trans hsnapshot⟩
      | late => exact ⟨rfl, hlate⟩
      | fault => exact ⟨rfl, hfault⟩
  | snapshot =>
    obtain ⟨⟨snapshots, polled⟩, hstep, heq⟩ := Option.map_eq_some_iff.1 h
    obtain ⟨rfl, hrest⟩ := Prod.mk.inj heq
    obtain ⟨rfl, rfl⟩ := Prod.mk.inj hrest
    have hmap : polled.map (fun polled => (.engine (.snapshot polled) : Event cfg threads)) =
        (polled.map .snapshot).map .engine := List.map_map.symm
    obtain ⟨hengine, hlate, hfault, hworkers⟩ :
        engineLog ((polled.map .snapshot).map (Event.engine : _ → Event cfg threads)) = _ ∧ _ :=
      logs_engine (polled.map .snapshot)
    obtain ⟨hadmission, htick, hsnapshot⟩ : Engine.admissionLog
        (polled.map (Engine.Event.snapshot : _ → Engine.Event cfg.engine threads)) = [] ∧ _ ∧ _ :=
      Engine.logs_snapshot polled
    rw [hmap]
    have hpolled : polledOf ((polled.map .snapshot).map (Event.engine : _ → Event cfg threads))
        .snapshot = polled := (congrArg Engine.snapshotLog hengine).trans hsnapshot
    refine ⟨?_, congrArg _ hpolled.symm, fun other hne => ?_, (congrArg _ hengine).trans hadmission,
      fun index => (hworkers index).1, fun index => (hworkers index).2, rfl⟩
    · rw [hpolled]
      exact hstep
    · cases other with
      | tick => exact ⟨rfl, (congrArg Engine.tickLog hengine).trans htick⟩
      | snapshot => exact absurd rfl hne
      | late => exact ⟨rfl, hlate⟩
      | fault => exact ⟨rfl, hfault⟩
  | late =>
    obtain ⟨⟨lates, polled⟩, hstep, heq⟩ := Option.map_eq_some_iff.1 h
    obtain ⟨rfl, hrest⟩ := Prod.mk.inj heq
    obtain ⟨rfl, rfl⟩ := Prod.mk.inj hrest
    have hpolled : polledOf (polled.map (Event.late : _ → Event cfg threads)) .late = polled := by
      unfold polledOf lateLog
      exact Engine.filterMap_map_self (fun _ => by rfl) polled
    have hengine : engineLog (polled.map (Event.late : _ → Event cfg threads)) = [] :=
      Engine.filterMap_map_none (fun _ => rfl) polled
    refine ⟨?_, congrArg _ hpolled.symm, fun other hne => ?_, congrArg Engine.admissionLog hengine,
      fun index => Engine.filterMap_map_none (fun _ => rfl) polled,
      fun index => Engine.filterMap_map_none (fun _ => rfl) polled, rfl⟩
    · rw [hpolled]
      exact hstep
    · cases other with
      | tick => exact ⟨rfl, congrArg Engine.tickLog hengine⟩
      | snapshot => exact ⟨rfl, congrArg Engine.snapshotLog hengine⟩
      | late => exact absurd rfl hne
      | fault => exact ⟨rfl, Engine.filterMap_map_none (fun _ => rfl) polled⟩
  | fault =>
    obtain ⟨⟨faults, polled⟩, hstep, heq⟩ := Option.map_eq_some_iff.1 h
    obtain ⟨rfl, hrest⟩ := Prod.mk.inj heq
    obtain ⟨rfl, rfl⟩ := Prod.mk.inj hrest
    have hpolled : polledOf (polled.map (Event.fault : _ → Event cfg threads)) .fault = polled := by
      unfold polledOf faultLog
      exact Engine.filterMap_map_self (fun _ => by rfl) polled
    have hengine : engineLog (polled.map (Event.fault : _ → Event cfg threads)) = [] :=
      Engine.filterMap_map_none (fun _ => rfl) polled
    refine ⟨?_, congrArg _ hpolled.symm, fun other hne => ?_, congrArg Engine.admissionLog hengine,
      fun index => Engine.filterMap_map_none (fun _ => rfl) polled,
      fun index => Engine.filterMap_map_none (fun _ => rfl) polled, rfl⟩
    · rw [hpolled]
      exact hstep
    · cases other with
      | tick => exact ⟨rfl, congrArg Engine.tickLog hengine⟩
      | snapshot => exact ⟨rfl, congrArg Engine.snapshotLog hengine⟩
      | late => exact ⟨rfl, Engine.filterMap_map_none (fun _ => rfl) polled⟩
      | fault => exact absurd rfl hne

/-- A record is counted after the poll that has returned it, and not else. -/
theorem after_counting (owner : ℕ) (kind other : Kind) (answer : Option Bool) :
    DrainStage.after owner kind answer = .counting other ↔ answer = some true ∧ kind = other := by
  rcases answer with - | - | -
  · simp [DrainStage.after]
  · cases kind <;> simp [DrainStage.after, DrainStage.next]
    split_ifs <;> simp
  · simp [DrainStage.after]

/-- An owner has made a step of a poll. -/
theorem Accounts.poll (h : Accounts s log) {owner : Fin cfg.engine.instrumentWorkers} {kind : Kind}
    {answer : Option Bool} (hstage : s.drains owner = .polling kind)
    (hpolls : Polls s s' owner kind new answer) :
    Accounts (s'.setDrain owner (.after owner kind answer)) (log ++ new) := by
  intro other
  have hsent : sentOn other (log ++ new) = sentOn other log := funext fun index => by
    rw [sentOn_append, sentOn, sentOn,
      givenOn_nil (hpolls.inputs index) (hpolls.decoded index)]
    exact List.append_nil _
  have hcounting : counting (s'.setDrain owner (.after owner kind answer)) other =
      counting s other + if answer = some true ∧ kind = other then 1 else 0 := by
    have hdrains : s'.drains = s.drains := by rw [hpolls.frame]
    have hsum := counting_setDrain s' owner (.after owner kind answer) other
    have hsame : counting s' other = counting s other := by rw [counting, counting, hdrains]
    rw [hdrains, hstage, if_neg (by simp), hsame] at hsum
    simp only [after_counting] at hsum
    exact hsum
  have hdispatched : s'.dispatched = s.dispatched := by rw [hpolls.frame]
  have huncounted : s'.uncounted = s.uncounted := by rw [hpolls.frame]
  have hconsumed : s'.consumed = s.consumed := by rw [hpolls.frame]
  show QueueMatrix.Tallied _ _ (queuesOf s' other) _ (s'.dispatched other) (s'.uncounted other)
    (s'.consumed other) _
  rw [hsent, polledOf_append, hdispatched, huncounted, hconsumed, hcounting]
  rcases eq_or_ne other kind with rfl | hne
  · have htallied := (h other).pollStep hpolls.step
    rw [← hpolls.answer] at htallied
    simpa only [and_true] using htallied
  · rw [(hpolls.others other hne).1, (hpolls.others other hne).2, List.append_nil,
      if_neg fun heq => hne heq.2.symm]
    exact h other

/-- The steps of `main` touch no record. -/
theorem mainStep_frame {connected : Bool} (h : mainStep stopper s connected = some s') :
    ∃ drainRunning main, s' = { s with drainRunning, main } := by
  rw [mainStep] at h
  split at h
  case h_3 | h_8 | h_10 | h_11 =>
    split_ifs at h
    exact ⟨_, _, (Option.some.inj h).symm⟩
  case h_12 | h_13 => cases h
  all_goals exact ⟨_, _, (Option.some.inj h).symm⟩

/-- A worker with nothing left to count has counted the records of each kind. -/
theorem counted_tick {index : Fin cfg.engine.admission.tickDecoderLanes}
    (h : s.counted (.tick index) = true) : s.uncounted .tick index = false ∧
      s.uncounted .late index = false ∧ s.uncounted .fault index = false := by
  simpa [State.counted, and_assoc] using h

/-- One whose callbacks are done has published the late records and the faults as well. -/
theorem settled_tick {index : Fin cfg.engine.admission.tickDecoderLanes}
    (h : s.settled (.tick index) = true) : s.counted (.tick index) = true ∧
      s.lates.outboxes index = [] ∧ s.faults.outboxes index = [] := by
  simpa [State.settled] using h

theorem inputsOn_input (index : Fin cfg.engine.admission.tickDecoderLanes) (input : TickInput)
    (answers : Engine.Answers) (trace : Trace) (other : ℕ) :
    inputsOn other [(.input index input answers trace : Event cfg threads)] =
      if index.val = other then [(input, answers, trace)] else [] := by
  rw [inputsOn, List.filterMap_cons, List.filterMap_nil]
  by_cases hsame : index.val = other
  · simp only [if_pos hsame]
  · simp only [if_neg hsame]

theorem decodedOn_message (index : Fin cfg.engine.admission.snapshotDecoderLanes)
    (grows : ℕ → Bool) (accepted : Bool) (message : OwnedMessageView) (other : ℕ) :
    decodedOn other [(.message index grows accepted message : Event cfg threads)] =
      if index.val = other then [(grows, accepted, message)] else [] := by
  rw [decodedOn, List.filterMap_cons, List.filterMap_nil]
  by_cases hsame : index.val = other
  · simp only [if_pos hsame]
  · simp only [if_neg hsame]

theorem traceOn_input (index : Fin cfg.engine.admission.tickDecoderLanes) (input : TickInput)
    (answers : Engine.Answers) (trace : Trace) :
    traceOn index [(.input index input answers trace : Event cfg threads)] = trace := by
  rw [traceOn, inputsOn_input, if_pos rfl]
  exact List.append_nil _

theorem offersOn_message (index : Fin cfg.engine.admission.snapshotDecoderLanes)
    (grows : ℕ → Bool) (accepted : Bool) (message : OwnedMessageView) :
    offersOn index [(.message index grows accepted message : Event cfg threads)] =
      cfg.offer grows accepted message := by
  rw [offersOn, decodedOn_message, if_pos rfl]
  exact List.append_nil _

/-- A tick worker has dealt with an input. -/
theorem Accounts.input (h : Accounts s log) {index : Fin cfg.engine.admission.tickDecoderLanes}
    {input : TickInput} {answers : Engine.Answers} {trace : Trace}
    {engine : Engine.State cfg.engine threads stops} (hsettled : s.settled (.tick index) = true)
    (hturned : Turned s.engine engine index (some input) answers trace) :
    Accounts { s with
      engine
      lates := s.lates.offer index (diverted trace)
      faults := s.faults.offer index (faulted trace) }
      (log ++ [.input index input answers trace]) := by
  have htrace : traceOn index [(.input index input answers trace : Event cfg threads)] = trace :=
    traceOn_input ..
  have hgiven : ∀ kind,
      givenOn index [(.input index input answers trace : Event cfg threads)] kind =
      match kind with
      | .tick => emitted trace
      | .snapshot => []
      | .late => diverted trace
      | .fault => faulted trace := by
    intro kind
    cases kind with
    | tick => exact congrArg emitted htrace
    | snapshot => rfl
    | late => exact congrArg diverted htrace
    | fault => exact congrArg faulted htrace
  obtain ⟨-, hlates, hfaults⟩ := settled_tick hsettled
  refine h.offer index (fun kind => ?_) (fun kind => ?_) (fun other hne => ?_) rfl rfl
    rfl rfl
  · rw [hgiven]
    cases kind with
    | tick => exact Or.inr ⟨hturned.idle, hturned.ticks⟩
    | snapshot => exact Or.inl ⟨hturned.snapshots, rfl⟩
    | late => exact Or.inr ⟨hlates, rfl⟩
    | fault => exact Or.inr ⟨hfaults, rfl⟩
  · cases kind <;> rfl
  · exact givenOn_nil ((inputsOn_input ..).trans (if_neg hne.symm)) rfl

/-- A snapshot worker has dealt with a message. -/
theorem Accounts.message (h : Accounts s log)
    {index : Fin cfg.engine.admission.snapshotDecoderLanes} {grows : ℕ → Bool} {accepted : Bool}
    {message : OwnedMessageView} (hidle : s.engine.snapshots.outboxes index = []) :
    Accounts { s with
      engine := { s.engine.setTask (.snapshot index) .none with
        snapshots := s.engine.snapshots.offer index (cfg.offer grows accepted message) } }
      (log ++ [.message index grows accepted message]) := by
  refine h.offer index (fun kind => ?_) (fun kind => ?_) (fun other hne => ?_) rfl rfl
    rfl rfl
  · cases kind with
    | tick => exact Or.inl ⟨rfl, rfl⟩
    | snapshot =>
      refine Or.inr ⟨hidle, ?_⟩
      rw [givenOn, offersOn_message]
      rfl
    | late => exact Or.inl ⟨rfl, rfl⟩
    | fault => exact Or.inl ⟨rfl, rfl⟩
  · cases kind <;> rfl
  · exact givenOn_nil rfl ((decodedOn_message ..).trans (if_neg hne.symm))

/-- No step loses or duplicates a record of any kind. -/
theorem accounts_step (h : Accounts s log) (hmoves : Moves stopper s s' new) :
    Accounts s' (log ++ new) := by
  cases hmoves with
  | @admission action engine events settled step =>
    have hmap : events.map (fun event => (.engine (.admission event) : Event cfg threads)) =
        (events.map .admission).map .engine := List.map_map.symm
    obtain ⟨-, htick, hsnapshot⟩ : _ ∧ Engine.tickLog
        (events.map (Engine.Event.admission : _ → Engine.Event cfg.engine threads)) = [] ∧ _ :=
      Engine.logs_admission events
    rw [hmap]
    obtain ⟨-, -, -, hworkers⟩ := logs_engine
      (events.map .admission : List (Engine.Event cfg.engine threads))
    refine h.beside (fun kind => ?_) (polledOf_engine _ htick hsnapshot)
      (fun index kind => givenOn_nil (hworkers index).1 (hworkers index).2 kind) rfl rfl rfl
      fun _ => rfl
    cases kind with
    | tick => exact step.ticks
    | snapshot => exact step.snapshots
    | late => rfl
    | fault => rfl
  | input settled turned => exact h.input settled turned
  | @early index answers engine settled turned =>
    refine h.beside (fun kind => ?_) (fun kind => by cases kind <;> rfl)
      (fun index kind => givenOn_nil rfl rfl kind) rfl rfl rfl fun _ => rfl
    cases kind with
    | tick => exact turned.ticks.trans (offer_nil turned.idle)
    | snapshot => exact turned.snapshots
    | late => rfl
    | fault => rfl
  | message settled task held idle => exact h.message idle
  | @publishTick index ticks counted spin =>
    exact h.spin .tick (counted_tick counted).1 spin
      (fun other hne => by cases other <;> first | exact absurd rfl hne | rfl) rfl rfl rfl rfl
  | @publishSnapshot index snapshots counted spin =>
    have huncounted : s.uncounted .snapshot index = false := by simpa [State.counted] using counted
    exact h.spin .snapshot huncounted spin
      (fun other hne => by cases other <;> first | exact absurd rfl hne | rfl) rfl rfl rfl rfl
  | @publishLate index lates counted spin =>
    exact h.spin .late (counted_tick counted).2.1 spin
      (fun other hne => by cases other <;> first | exact absurd rfl hne | rfl) rfl rfl rfl rfl
  | @publishFault index faults counted spin =>
    exact h.spin .fault (counted_tick counted).2.2 spin
      (fun other hne => by cases other <;> first | exact absurd rfl hne | rfl) rfl rfl rfl rfl
  | @count kind index uncounted =>
    rw [List.append_nil]
    intro other
    show QueueMatrix.Tallied _ _ (queuesOf s other) _ (Function.update s.dispatched kind _ other)
      (Function.update s.uncounted kind _ other) _ (counting s other)
    rcases eq_or_ne other kind with rfl | hne
    · rw [Function.update_self, Function.update_self]
      exact (h other).count uncounted
    · rw [Function.update_of_ne hne, Function.update_of_ne hne]
      exact h other
  | @test owner stage =>
    refine h.beside (fun _ => rfl) (fun kind => by cases kind <;> rfl)
      (fun index kind => givenOn_nil rfl rfl kind) rfl rfl rfl fun kind => ?_
    have hsum := counting_setDrain s owner
      (if s.drainRunning then .polling .tick else .exited) kind
    have hnot : (if s.drainRunning then DrainStage.polling .tick else .exited) ≠
        .counting kind := by
      split_ifs <;> simp
    have htesting : DrainStage.testing ≠ .counting kind := by simp
    rw [stage, if_neg hnot, if_neg htesting] at hsum
    exact hsum
  | poll stage step => exact h.poll stage (polls_of_step step)
  | @consume owner kind stage =>
    rw [List.append_nil]
    intro other
    have hsum := counting_setDrain s owner (.polling kind) other
    rw [stage, if_neg (by simp : DrainStage.polling kind ≠ .counting other),
      Nat.add_zero] at hsum
    show QueueMatrix.Tallied _ _ (queuesOf s other) _ _ _
      (Function.update s.consumed kind _ other) (counting (s.setDrain owner (.polling kind)) other)
    have hother := h other
    rw [← hsum] at hother
    rcases eq_or_ne other kind with rfl | hne
    · rw [if_pos rfl] at hother
      rw [Function.update_self]
      exact hother.consume
    · rw [if_neg fun heq => hne (DrainStage.counting.inj heq).symm] at hother
      rw [Function.update_of_ne hne]
      exact hother
  | main step =>
    obtain ⟨drainRunning, main, rfl⟩ := mainStep_frame step
    rw [List.append_nil]
    exact h

/-- So each kind of records is accounted for after every run. -/
theorem accounts (h : (machine cfg threads stops stopper memory).Reaches s log) :
    Accounts s log :=
  Machine.invariant accounts_start (fun h hstep => accounts_step h (moves_of_step hstep)) h

/-- The lanes whose worker has published a record of the kind that it has not counted. -/
def uncountedLanes (s : State cfg threads stops) (kind : Kind) : ℕ :=
  ∑ producer ∈ Finset.range (producers cfg kind), (s.uncounted kind producer).toNat

theorem shapeOf_producers (cfg : IngestdConfig) (kind : Kind) :
    (shapeOf cfg kind).producers = producers cfg kind := by
  cases kind <;> rfl

/-- `Stats` adds up the counters of the lanes. -/
theorem stats_eq_sum (s : State cfg threads stops) (kind : Kind) :
    stats s kind = ∑ producer ∈ Finset.range (producers cfg kind), s.dispatched kind producer := by
  rw [stats, Finset.sum_eq_multiset_sum, Finset.range_val, Multiset.range, Multiset.map_coe,
    Multiset.sum_coe]

/-- The counters of the lanes and of the owners, and what is on the way between them. -/
theorem counts_agree (h : (machine cfg threads stops stopper memory).Reaches s log) (kind : Kind) :
    stats s kind + uncountedLanes s kind =
      s.consumed kind + counting s kind + (queuesOf s kind).waiting := by
  have haccount := (accounts h kind).account
  rw [Finset.sum_add_distrib, shapeOf_producers] at haccount
  rw [stats_eq_sum]
  exact haccount

/-- Whatever has happened, the records of a kind that the lanes have counted, or are about to, are
as many as the owners have counted, are about to count, and find in the rings ; what the owners
have counted, or are about to, is what they have polled. And what a lane was given for an owner,
and the rings to take, is in order what he has polled from it, what waits in their ring and what
the lane is about to publish. -/
theorem records_accounted (h : (machine cfg threads stops stopper memory).Reaches s log)
    (kind : Kind) :
    stats s kind + uncountedLanes s kind =
        s.consumed kind + counting s kind + (queuesOf s kind).waiting ∧
      s.consumed kind + counting s kind = (QueueMatrix.returned (polledOf log kind)).length ∧
      ∀ producer, ∀ owner < (shapeOf cfg kind).owners,
        QueueMatrix.ownedBy (ownerOf cfg kind) owner (sentOn kind log producer) =
          QueueMatrix.polledFrom producer owner (polledOf log kind) ++
            ((queuesOf s kind).queues
              (QueueMatrix.place (shapeOf cfg kind) producer owner)).contents ++
            QueueMatrix.ownedBy (ownerOf cfg kind) owner
              (QueueMatrix.accepted ((queuesOf s kind).outboxes producer)) :=
  ⟨counts_agree h kind, (accounts h kind).polled, (accounts h kind).flows.flow⟩

end Accounts

/-! ### One order goes through -/

def sampleConfig : IngestdConfig :=
  ⟨Engine.sampleConfig, Ring.oneCell, Ring.oneCell⟩

def sampleMemory : Memory sampleConfig where
  engine := Engine.sampleMemory
  lates := fun _ _ => {}
  faults := fun _ _ => {}

theorem emitGap_succeed (_ : ℕ) (gap : ChannelGap) :
    Callbacks.succeed.emitGap gap = true :=
  rfl

/-- The callbacks take what they are given. -/
def sampleAnswers : Engine.Answers :=
  ⟨fun _ => .succeed, emitGap_succeed⟩

def sampleTick : Fin sampleConfig.engine.admission.tickDecoderLanes :=
  ⟨0, Nat.one_pos⟩

def sampleOwner : Fin sampleConfig.engine.instrumentWorkers :=
  ⟨0, Nat.one_pos⟩

/-- There is a session, and an order is admitted, decoded, published, polled and counted. -/
def sampleService : List (Action sampleConfig 1 1) :=
  [.main true] ++ Engine.sampleArrival.map (fun action => .engine (.admission action)) ++
    [.engine (.handleTick sampleTick (fun _ => true) sampleAnswers),
      .engine (.publishTick sampleTick), .count .tick 0] ++
    List.replicate 4 (.drain sampleOwner)

theorem sampleService_run :
    ((machine sampleConfig 1 1 0 sampleMemory).run sampleService).map (fun last =>
      (stats last.1 .tick, last.1.consumed .tick)) = some (1, 1) := by
  decide +kernel

/-- After it the order has been counted by its lane and by its owner. -/
theorem records_accounted_sample : ∃ s log,
    (machine sampleConfig 1 1 0 sampleMemory).Reaches s log ∧ stats s .tick = 1 ∧
      1 + uncountedLanes s .tick = 1 + counting s .tick + (queuesOf s .tick).waiting := by
  obtain ⟨⟨s, log⟩, hrun, hlast⟩ := Option.map_eq_some_iff.1 sampleService_run
  obtain ⟨hstats, hconsumed⟩ := Prod.mk.inj hlast
  refine ⟨s, log, ⟨_, hrun⟩, hstats, ?_⟩
  have haccount := (records_accounted ⟨_, hrun⟩ .tick).1
  rw [hstats, hconsumed] at haccount
  exact haccount

end Ingestd

end L2Flow
