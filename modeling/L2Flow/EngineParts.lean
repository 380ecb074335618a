import L2Flow.Engine
import L2Flow.Instruments
import L2Flow.Shutdown

/-!
# The parts of the engine

In every run of the engine each part runs as it does alone : the threads of `Admission` make a
run of its machine, the recovery of a tick lane a run of its calls, and the queues keep `Flows`.
What joins them is that a tick lane calls its recovery with records that are decoded from the
messages it has consumed, and publishes what the recovery emits; and that a snapshot lane
publishes what some of the messages it has consumed are decoded to, in order (`Kept`).
-/

namespace L2Flow

open SequenceRecovery (GapsTaken Processed runWith emitted)

/-! ## What admission steps consume -/

namespace Admission

variable {cfg : AdmissionConfig} {threads stops : ℕ} {s s' : State cfg threads stops}
  {new : List (Event cfg threads)}

/-- The threads that call `Admit` consume nothing. -/
theorem consumedOn_threadLog (thread : Fin threads) (lane : Lane cfg)
    (log : List (Event cfg threads)) : consumedOn lane (threadLog thread log) = [] := by
  refine List.filterMap_eq_nil_iff.2 fun event hevent => ?_
  rcases event with _ | _ | _ | _ | _ | _
  case consumed => cases (List.mem_filter.1 hevent).2
  all_goals rfl

/-- Only the worker of a lane consumes there, when it reads the slot that it has popped. -/
theorem consumedOn_step {action : Action cfg threads stops} (h : step s action = some (s', new))
    (lane : Lane cfg) :
    (consumedOn lane new = [] ∧ (action = .work lane → ∀ index, s.workers lane ≠ .popped index)) ∨
      action = .work lane ∧ (∃ index, s.workers lane = .popped index) ∧
        ∃ message, consumedOn lane new = [message] := by
  rcases action with - | ⟨thread, call⟩ | thread | thread | thread | other | other
  · obtain ⟨_, _, heq⟩ := Option.map_eq_some_iff.1 h
    obtain rfl := (Prod.mk.inj heq).2
    exact Or.inl ⟨rfl, by simp⟩
  · rw [step] at h
    split at h
    · obtain rfl := (Prod.mk.inj (Option.some.inj h)).2
      exact Or.inl ⟨rfl, by simp⟩
    · cases h
  · obtain ⟨⟨call, stage⟩, -, heq⟩ := Option.map_eq_some_iff.1 h
    obtain ⟨next, hstepped⟩ := callStep_stepped s thread call stage
    have hnew : new = (callStep s thread call stage).2 := (congrArg Prod.snd heq).symm
    rw [hnew, ← hstepped.own]
    exact Or.inl ⟨consumedOn_threadLog thread lane _, by simp⟩
  · rw [step] at h
    split at h
    · obtain rfl := (Prod.mk.inj (Option.some.inj h)).2
      exact Or.inl ⟨rfl, by simp⟩
    · cases h
  · obtain ⟨stage, -, hmap⟩ := Option.bind_eq_some_iff.1 h
    obtain ⟨_, _, heq⟩ := Option.map_eq_some_iff.1 hmap
    obtain rfl := (Prod.mk.inj heq).2
    exact Or.inl ⟨rfl, by simp⟩
  · have hwork : workStep s other = some (s', new) := h
    by_cases hlane : other = lane
    · subst hlane
      rcases hworker : s.workers other with - | index | ⟨index, metadata⟩ | - | - | - | - <;>
        rw [workStep, hworker] at hwork
      case popped =>
        obtain rfl := (Prod.mk.inj (Option.some.inj hwork)).2
        exact Or.inr ⟨rfl, ⟨index, rfl⟩,
          (s.lanes other).viewAt other.maximumBodyBytes index ((s.lanes other).metadata index),
          by simp [consumedOn]⟩
      case exited => cases hwork
      all_goals
        obtain rfl := (Prod.mk.inj (Option.some.inj hwork)).2
        exact Or.inl ⟨rfl, by simp⟩
    · have hlate := (workStep_workers hwork).2.2 lane (Ne.symm hlane)
      exact Or.inl ⟨consumedOn_of_late hlate, fun heq => absurd (Action.work.inj heq) hlane⟩
  · rw [step] at h
    split at h <;> obtain rfl := (Prod.mk.inj (Option.some.inj h)).2 <;> exact Or.inl ⟨rfl, by simp⟩

end Admission

namespace Engine

variable {cfg : EngineConfig} {threads stops : ℕ}

/-! ## The logs of the parts -/

/-- What the rings and the callers of `Admit` have done. -/
def admissionLog (log : List (Event cfg threads)) : List (Admission.Event cfg.admission threads) :=
  log.filterMap fun
    | .admission event => some event
    | _ => none

/-- What the owners have polled of the ticks. -/
def tickLog (log : List (Event cfg threads)) : List (Polled CanonicalTick) :=
  log.filterMap fun
    | .tick polled => some polled
    | _ => none

/-- What the owners have polled of the snapshots. -/
def snapshotLog (log : List (Event cfg threads)) : List (Polled CanonicalSnapshot) :=
  log.filterMap fun
    | .snapshot polled => some polled
    | _ => none

/-- Events of one kind are in the log of their part and in no other. -/
theorem filterMap_map_self {α β : Type} {f : α → β} {g : β → Option α} (h : ∀ a, g (f a) = some a)
    (l : List α) : (l.map f).filterMap g = l := by
  rw [List.filterMap_map, show g ∘ f = some from funext h, List.filterMap_some]

theorem filterMap_map_none {α β γ : Type} {f : α → β} {g : β → Option γ}
    (h : ∀ a, g (f a) = none) (l : List α) : (l.map f).filterMap g = [] :=
  List.filterMap_eq_nil_iff.2 fun b hb => by
    obtain ⟨a, -, rfl⟩ := List.mem_map.1 hb
    exact h a

@[simp] theorem admissionLog_append (log new : List (Event cfg threads)) :
    admissionLog (log ++ new) = admissionLog log ++ admissionLog new :=
  List.filterMap_append ..

@[simp] theorem tickLog_append (log new : List (Event cfg threads)) :
    tickLog (log ++ new) = tickLog log ++ tickLog new :=
  List.filterMap_append ..

@[simp] theorem snapshotLog_append (log new : List (Event cfg threads)) :
    snapshotLog (log ++ new) = snapshotLog log ++ snapshotLog new :=
  List.filterMap_append ..

theorem logs_admission (events : List (Admission.Event cfg.admission threads)) :
    admissionLog (events.map Event.admission) = events ∧
      tickLog (events.map Event.admission) = [] ∧
      snapshotLog (events.map Event.admission) = [] := by
  unfold admissionLog tickLog snapshotLog
  exact ⟨filterMap_map_self (fun _ => by rfl) _, filterMap_map_none (fun _ => by rfl) _,
    filterMap_map_none (fun _ => by rfl) _⟩

theorem logs_tick (polled : List (Polled CanonicalTick)) :
    admissionLog (polled.map (Event.tick : _ → Event cfg threads)) = [] ∧
      tickLog (polled.map (Event.tick : _ → Event cfg threads)) = polled ∧
      snapshotLog (polled.map (Event.tick : _ → Event cfg threads)) = [] := by
  unfold admissionLog tickLog snapshotLog
  exact ⟨filterMap_map_none (fun _ => by rfl) _, filterMap_map_self (fun _ => by rfl) _,
    filterMap_map_none (fun _ => by rfl) _⟩

theorem logs_snapshot (polled : List (Polled CanonicalSnapshot)) :
    admissionLog (polled.map (Event.snapshot : _ → Event cfg threads)) = [] ∧
      tickLog (polled.map (Event.snapshot : _ → Event cfg threads)) = [] ∧
      snapshotLog (polled.map (Event.snapshot : _ → Event cfg threads)) = polled := by
  unfold admissionLog tickLog snapshotLog
  exact ⟨filterMap_map_none (fun _ => by rfl) _, filterMap_map_none (fun _ => by rfl) _,
    filterMap_map_self (fun _ => by rfl) _⟩

/-! ## What a lane was given to publish -/

/-- A record that `DecodeTick` makes of one of the messages. -/
def DecodedFrom (cfg : EngineConfig) (messages : List OwnedMessageView)
    (record : TickDecodeResult) : Prop :=
  ∃ message ∈ messages, ∃ grows s,
    decodeTick grows message cfg.settings.tradeDate cfg.settings.limits cfg.catalog = .ok record s

/-- The recovery of a lane has been called with records of the messages, and what the lane was
given to publish is what it emits. -/
def TickKept (cfg : EngineConfig) (messages : List OwnedMessageView)
    (recovery : SequenceRecovery cfg.recovery) (sent : List CanonicalTick) : Prop :=
  ∃ calls trace, GapsTaken calls ∧ runWith cfg.recovery calls = some (recovery, trace) ∧
    sent = QueueMatrix.accepted (emitted trace) ∧
    ∀ record, Processed calls record → DecodedFrom cfg messages record

/-- More messages may have come since. -/
theorem TickKept.mono {messages messages' : List OwnedMessageView}
    {recovery : SequenceRecovery cfg.recovery} {sent : List CanonicalTick}
    (h : TickKept cfg messages recovery sent) (hsub : messages ⊆ messages') :
    TickKept cfg messages' recovery sent := by
  obtain ⟨calls, trace, hgap, hrun, hsent, hrecords⟩ := h
  refine ⟨calls, trace, hgap, hrun, hsent, fun record hrecord => ?_⟩
  obtain ⟨message, hmessage, hdecoded⟩ := hrecords record hrecord
  exact ⟨message, hsub hmessage, hdecoded⟩

/-- One more call of the recovery. -/
theorem TickKept.call {messages : List OwnedMessageView}
    {recovery recovery' : SequenceRecovery cfg.recovery} {sent : List CanonicalTick}
    (h : TickKept cfg messages recovery sent) {call : SequenceRecovery.Call} {answers : Answers}
    {added : Trace}
    (hstep : SequenceRecovery.step answers.1 recovery call = some (recovery', added))
    (hcall : ∀ decoded now, call = .process decoded now →
      DecodedFrom cfg messages decoded.toTickDecodeResult) :
    TickKept cfg messages recovery' (sent ++ QueueMatrix.accepted (emitted added)) := by
  obtain ⟨calls, trace, hgap, hrun, rfl, hrecords⟩ := h
  refine ⟨calls ++ [(call, answers.1)], trace ++ added, ?_,
    SequenceRecovery.runWith_snoc.2 ⟨recovery, trace, added, hrun, hstep, rfl⟩, ?_, ?_⟩
  · intro c hc
    rcases List.mem_append.1 hc with hold | hnew
    · exact hgap c hold
    · obtain rfl := List.mem_singleton.1 hnew
      exact answers.2
  · rw [SequenceRecovery.emitted_append, QueueMatrix.accepted, QueueMatrix.accepted,
      QueueMatrix.accepted, List.filterMap_append]
  · rintro record ⟨decoded, now, hmem, rfl⟩
    rw [List.map_append] at hmem
    rcases List.mem_append.1 hmem with hold | hnew
    · exact hrecords _ ⟨decoded, now, hold, rfl⟩
    · exact hcall decoded now (List.mem_singleton.1 hnew).symm

/-- What `DecodeSnapshot` makes of a message, if the catalog has it. -/
def SnapshotFrom (cfg : EngineConfig) (message : OwnedMessageView)
    (snapshot : CanonicalSnapshot) : Prop :=
  ∃ grows decoded s, decodeSnapshot grows message cfg.settings.tradeDate cfg.settings.limits
    cfg.catalog = .ok decoded s ∧ decoded.catalogMatch = true ∧ decoded.snapshot = snapshot

/-- What a lane was given to publish is what some of the messages are decoded to, in order. -/
def SnapshotKept (cfg : EngineConfig) (messages : List OwnedMessageView)
    (sent : List CanonicalSnapshot) : Prop :=
  ∃ sources, sources.Sublist messages ∧ List.Forall₂ (SnapshotFrom cfg) sources sent

/-- Messages that give no snapshot may have come between. -/
theorem SnapshotKept.mono {messages messages' : List OwnedMessageView}
    {sent : List CanonicalSnapshot} (h : SnapshotKept cfg messages sent)
    (hsub : messages.Sublist messages') : SnapshotKept cfg messages' sent := by
  obtain ⟨sources, hsources, hsent⟩ := h
  exact ⟨sources, hsources.trans hsub, hsent⟩

/-- One more message. -/
theorem SnapshotKept.snoc {messages : List OwnedMessageView} {sent : List CanonicalSnapshot}
    (h : SnapshotKept cfg messages sent) {message : OwnedMessageView}
    {snapshot : CanonicalSnapshot} (hfrom : SnapshotFrom cfg message snapshot) :
    SnapshotKept cfg (messages ++ [message]) (sent ++ [snapshot]) := by
  obtain ⟨sources, hsources, hsent⟩ := h
  exact ⟨sources ++ [message], hsources.append (List.Sublist.refl _),
    List.rel_append hsent (.cons hfrom .nil)⟩

/-! ## The invariant -/

/-- The messages that the worker of a snapshot lane has consumed and is done with. -/
def handled (s : State cfg threads stops) (log : List (Event cfg threads))
    (index : Fin cfg.admission.snapshotDecoderLanes) : List OwnedMessageView :=
  if s.tasks (.snapshot index) = .handle then
    (Admission.consumedOn (.snapshot index) (admissionLog log)).dropLast
  else Admission.consumedOn (.snapshot index) (admissionLog log)

/-- Each part runs as it does alone, and what goes from one to the next is what the one made of
what the other gave it. -/
structure Kept (memory : Memory cfg) (s : State cfg threads stops)
    (log : List (Event cfg threads)) : Prop where
  admission : (Admission.machine cfg.admission threads stops memory.lanes).Reaches s.admission
    (admissionLog log)
  ticks : ∃ sent, QueueMatrix.Flows cfg.tickOwner sent s.ticks (tickLog log) ∧
    ∀ index : Fin cfg.admission.tickDecoderLanes,
      TickKept cfg (Admission.consumedOn (.tick index) (admissionLog log))
        (s.tickLanes index).recovery (sent index)
  snapshots : ∃ sent, QueueMatrix.Flows cfg.snapshotOwner sent s.snapshots (snapshotLog log) ∧
    ∀ index : Fin cfg.admission.snapshotDecoderLanes,
      SnapshotKept cfg (handled s log index) (sent index)

section Kept

variable {memory : Memory cfg} {s s' : State cfg threads stops}
  {log new : List (Event cfg threads)}

/-- At the start every part is at its own start. -/
theorem kept_start : Kept memory (machine cfg threads stops memory).start [] where
  admission := .start
  ticks := by
    refine ⟨fun _ => [], @QueueMatrix.Flows.start _ cfg.tickShape _ memory.ticks, fun index => ?_⟩
    refine ⟨[], [], (fun _ hc => by cases hc), rfl, rfl, ?_⟩
    rintro record ⟨decoded, now, hmem, -⟩
    cases hmem
  snapshots := by
    refine ⟨fun _ => [], @QueueMatrix.Flows.start _ cfg.snapshotShape _ memory.snapshots, ?_⟩
    exact fun index => ⟨[], List.nil_sublist _, .nil⟩

/-- A step of a worker beside the parts. -/
theorem Kept.beside (h : Kept memory s log) (hadmission : s'.admission = s.admission)
    (hrecovery : ∀ index, (s'.tickLanes index).recovery = (s.tickLanes index).recovery)
    (hticks : s'.ticks = s.ticks) (hsnapshots : s'.snapshots = s.snapshots)
    (htasks : ∀ index, s'.tasks (.snapshot index) = s.tasks (.snapshot index)) :
    Kept memory s' log where
  admission := hadmission ▸ h.admission
  ticks := by
    simp only [hticks, hrecovery]
    exact h.ticks
  snapshots := by
    simp only [hsnapshots, handled, htasks]
    exact h.snapshots

/-- A call of the recovery of a lane that has published everything. -/
theorem Kept.recover (h : Kept memory s log) {index : Fin cfg.admission.tickDecoderLanes}
    {call : SequenceRecovery.Call} {answers : Answers}
    (hempty : s.published (.tick index) = true)
    (hcall : ∀ decoded now, call = .process decoded now →
      DecodedFrom cfg (Admission.consumedOn (.tick index) (admissionLog log))
        decoded.toTickDecodeResult)
    (hrecover : s.recover index call answers = some s') : Kept memory s' log := by
  obtain ⟨⟨recovery, added⟩, hstep, rfl⟩ := Option.map_eq_some_iff.1 hrecover
  refine ⟨h.admission, ?_, h.snapshots⟩
  obtain ⟨sent, hflows, hkept⟩ := h.ticks
  refine ⟨_, hflows.offer (List.isEmpty_iff.1 hempty) (emitted added), fun index' => ?_⟩
  show TickKept cfg _ (Function.update s.tickLanes index _ index').recovery _
  rcases eq_or_ne index' index with rfl | hne
  · rw [Function.update_self, Function.update_self]
    exact (hkept index').call hstep hcall
  · rw [Function.update_of_ne hne, Function.update_of_ne fun heq => hne (Fin.ext heq)]
    exact hkept index'

/-- The message that a worker has is the one in the slot that it holds. -/
theorem held_eq_some {lane : Lane cfg.admission} {message : OwnedMessageView}
    (h : s.held lane = some message) : ∃ index metadata,
      s.admission.workers lane = .holding index metadata ∧
      (s.admission.lanes lane).viewAt lane.maximumBodyBytes index metadata = message := by
  unfold State.held at h
  split at h
  · next index metadata hworker => exact ⟨index, metadata, hworker, Option.some.inj h⟩
  · cases h

/-- The message that a worker holds is the last that it has consumed. -/
theorem Kept.held (h : Kept memory s log) {lane : Lane cfg.admission}
    {message : OwnedMessageView} (hheld : s.held lane = some message) :
    (Admission.consumedOn lane (admissionLog log)).getLast? = some message := by
  obtain ⟨index, metadata, hworker, rfl⟩ := held_eq_some hheld
  exact (Admission.slotsKept h.admission).2.held hworker

/-! ## Steps of admission -/

/-- What a step of admission does. The task of a lane changes with a step of its worker, which
has done the last. -/
structure Admitted (s : State cfg threads stops)
    (action : Admission.Action cfg.admission threads stops) (s' : State cfg threads stops)
    (events : List (Admission.Event cfg.admission threads)) : Prop where
  step : Admission.step s.admission action = some (s'.admission, events)
  tickLanes : s'.tickLanes = s.tickLanes
  ticks : s'.ticks = s.ticks
  snapshots : s'.snapshots = s.snapshots
  tasks : ∀ lane, (action ≠ .work lane ∧ s'.tasks lane = s.tasks lane) ∨
    (action = .work lane ∧ s.tasks lane = .none ∧ s'.tasks lane =
      nextTask lane (s.admission.workers lane) (s'.admission.workers lane))

/-- A step of the rings, and the task that it gives to a worker. -/
theorem admissionStep_admitted {action : Admission.Action cfg.admission threads stops}
    (h : admissionStep s action = some (s', new)) :
    ∃ events, new = events.map Event.admission ∧ Admitted s action s' events := by
  rw [admissionStep] at h
  split_ifs at h with hallowed
  obtain ⟨⟨admission, events⟩, hstep, heq⟩ := Option.map_eq_some_iff.1 h
  obtain ⟨rfl, rfl⟩ := Prod.mk.inj heq
  refine ⟨events, rfl, hstep, rfl, rfl, rfl, fun other => ?_⟩
  cases action with
  | work lane =>
    show (_ ∧ Function.update s.tasks lane _ other = _) ∨
      (_ ∧ _ ∧ Function.update s.tasks lane _ other = _)
    rcases eq_or_ne other lane with rfl | hne
    · have hnone : s.tasks other = .none := of_decide_eq_true (Bool.and_eq_true_iff.1 hallowed).1
      rw [Function.update_self]
      exact Or.inr ⟨rfl, hnone, rfl⟩
    · rw [Function.update_of_ne hne]
      exact Or.inl ⟨fun heq => hne (Admission.Action.work.inj heq).symm, rfl⟩
  | _ => exact Or.inl ⟨by simp, rfl⟩

theorem nextTask_popped {cfg : AdmissionConfig} (lane : Lane cfg) (index : ℕ)
    (after : WorkerStage) : nextTask lane (.popped index) after = .handle := by
  cases lane <;> rfl

/-- A message is handled only when it has just been popped. -/
theorem nextTask_ne_handle {cfg : AdmissionConfig} (lane : Lane cfg) {before : WorkerStage}
    (h : ∀ index, before ≠ .popped index) (after : WorkerStage) :
    nextTask lane before after ≠ .handle := by
  rcases before with - | index | _ | - | - | - | -
  case popped => exact absurd rfl (h index)
  all_goals cases lane <;> cases after <;> simp [nextTask]

/-- What a lane has consumed grows by what the step consumes. -/
theorem consumedOn_admission (lane : Lane cfg.admission)
    (events : List (Admission.Event cfg.admission threads)) :
    Admission.consumedOn lane (admissionLog (log ++ events.map Event.admission)) =
      Admission.consumedOn lane (admissionLog log) ++ Admission.consumedOn lane events := by
  rw [admissionLog_append, (logs_admission events).1, Admission.consumedOn_append]

/-- A step of admission hands a snapshot worker a message only where it is done with the last. -/
theorem Admitted.handled {action : Admission.Action cfg.admission threads stops}
    {events : List (Admission.Event cfg.admission threads)} (h : Admitted s action s' events)
    (index : Fin cfg.admission.snapshotDecoderLanes) :
    handled s' (log ++ events.map Event.admission) index = handled s log index := by
  unfold Engine.handled
  rw [consumedOn_admission]
  rcases Admission.consumedOn_step h.step (.snapshot index) with
    ⟨hnone, hnot⟩ | ⟨hwork, ⟨slot, hpopped⟩, message, hmessage⟩
  · rw [hnone, List.append_nil]
    rcases h.tasks (.snapshot index) with ⟨-, hsame⟩ | ⟨hwork, hidle, hnext⟩
    · rw [hsame]
    · rw [if_neg (hnext ▸ nextTask_ne_handle _ (hnot hwork) _), if_neg (by simp [hidle])]
  · rcases h.tasks (.snapshot index) with ⟨hnot, -⟩ | ⟨-, hidle, hnext⟩
    · exact absurd hwork hnot
    · rw [hpopped, nextTask_popped] at hnext
      rw [hmessage, if_pos hnext, if_neg (by simp [hidle]), List.dropLast_concat]

/-- A step of the rings is one of the machine of admission, and no other part moves. -/
theorem Kept.admitted (h : Kept memory s log)
    {action : Admission.Action cfg.admission threads stops}
    {events : List (Admission.Event cfg.admission threads)} (hstep : Admitted s action s' events) :
    Kept memory s' (log ++ events.map Event.admission) := by
  obtain ⟨hadmission, htick, hsnapshot⟩ := logs_admission events
  refine ⟨?_, ?_, ?_⟩
  · rw [admissionLog_append, hadmission]
    exact h.admission.runFrom (Machine.runFrom_one.2 hstep.step)
  · obtain ⟨sent, hflows, hkept⟩ := h.ticks
    refine ⟨sent, ?_, fun index => ?_⟩
    · rw [tickLog_append, htick, List.append_nil, hstep.ticks]
      exact hflows
    · rw [consumedOn_admission, hstep.tickLanes]
      exact (hkept index).mono (List.subset_append_left _ _)
  · obtain ⟨sent, hflows, hkept⟩ := h.snapshots
    refine ⟨sent, ?_, fun index => ?_⟩
    · rw [snapshotLog_append, hsnapshot, List.append_nil, hstep.snapshots]
      exact hflows
    · rw [hstep.handled]
      exact hkept index

/-! ## Steps of the workers -/

/-- A record is processed only if `DecodeTick` has made it of the message. -/
theorem handleTick_process {grows : ℕ → Bool} {message : OwnedMessageView} {decoded : DecodedTick}
    {now : ℕ} (h : handleTick cfg.recovery cfg.settings cfg.catalog grows message =
      .call (.process decoded now)) :
    ∃ s, decodeTick grows message cfg.settings.tradeDate cfg.settings.limits cfg.catalog =
      .ok decoded.toTickDecodeResult s := by
  unfold handleTick at h
  split at h
  · next result s hdecode =>
    obtain rfl := (SequenceRecovery.Call.process.inj (Handling.call.inj h)).1
    exact ⟨s, hdecode⟩
  · split_ifs at h
    split at h <;> cases h

/-- The worker of a tick lane has done its task, which may have been to look at the time. -/
theorem Kept.turned (h : Kept memory s log) (index : Fin cfg.admission.tickDecoderLanes)
    {lane : TickLane cfg} (hlane : lane.recovery = (s.tickLanes index).recovery) :
    Kept memory { s.setTask (.tick index) .none with
      tickLanes := Function.update s.tickLanes index lane } log := by
  refine h.beside rfl (fun index' => ?_) rfl rfl fun index' => ?_
  · show (Function.update s.tickLanes index lane index').recovery = _
    rcases eq_or_ne index' index with rfl | hne
    · rw [Function.update_self, hlane]
    · rw [Function.update_of_ne hne]
  · have hne : Lane.snapshot index' ≠ Lane.tick index := by simp
    exact Function.update_of_ne hne .none _

theorem Kept.idle (h : Kept memory s log) (index : Fin cfg.admission.tickDecoderLanes) :
    Kept memory (s.setTask (.tick index) .none) log := by
  have hturned := h.turned index rfl
  rwa [Function.update_eq_self] at hturned

/-- The worker of a tick lane calls the recovery with what it has decoded. -/
theorem Kept.handleTick (h : Kept memory s log) {index : Fin cfg.admission.tickDecoderLanes}
    {grows : ℕ → Bool} {answers : Answers}
    (hstep : handleTickStep s index grows answers = some s') : Kept memory s' log := by
  rw [handleTickStep] at hstep
  split_ifs at hstep with hat
  obtain ⟨message, hheld, hstep⟩ := Option.bind_eq_some_iff.1 hstep
  dsimp only at hstep
  split at hstep
  · next call hcall =>
    refine (h.idle index).recover (Bool.and_eq_true_iff.1 hat).2 (fun decoded now heq => ?_) hstep
    obtain ⟨t, hdecode⟩ := handleTick_process (heq ▸ hcall)
    exact ⟨message, List.mem_of_getLast? (h.held hheld), grows, t, hdecode⟩
  · obtain rfl := Option.some.inj hstep
    exact h.idle index

/-- It polls its channels when the scan is due. -/
theorem Kept.scan (h : Kept memory s log) {index : Fin cfg.admission.tickDecoderLanes} {now : ℕ}
    {answers : Answers} (hstep : scanStep s index now answers = some s') :
    Kept memory s' log := by
  rw [scanStep] at hstep
  split at hstep
  · next receiveMonotonicNs htask =>
    split_ifs at hstep with hempty
    dsimp only at hstep
    split_ifs at hstep
    · exact (h.turned index (by rfl)).recover hempty (fun _ _ heq => by cases heq) hstep
    · obtain rfl := Option.some.inj hstep
      exact h.turned index (by rfl)
  · cases hstep

/-- It flushes them before it exits. -/
theorem Kept.flush (h : Kept memory s log) {index : Fin cfg.admission.tickDecoderLanes}
    {answers : Answers} (hstep : flushStep s index answers = some s') : Kept memory s' log := by
  rw [flushStep] at hstep
  split_ifs at hstep with hat
  exact (h.idle index).recover (Bool.and_eq_true_iff.1 hat).2 (fun _ _ heq => by cases heq) hstep

/-- What a snapshot worker does with the message that it holds. -/
theorem handleSnapshotStep_cases {index : Fin cfg.admission.snapshotDecoderLanes}
    {grows : ℕ → Bool} {accepted : Bool}
    (h : handleSnapshotStep s index grows accepted = some s') :
    ∃ message, s.held (.snapshot index) = some message ∧ s.tasks (.snapshot index) = .handle ∧
      s.snapshots.outboxes index = [] ∧
      ((∃ snapshot, SnapshotFrom cfg message snapshot ∧
          s' = { s.setTask (.snapshot index) .none with
            snapshots := s.snapshots.offer index [(snapshot, accepted)] }) ∨
        s' = s.setTask (.snapshot index) .none) := by
  rw [handleSnapshotStep] at h
  split_ifs at h with hat
  obtain ⟨htask, hempty⟩ := Bool.and_eq_true_iff.1 hat
  obtain ⟨message, hheld, rfl⟩ := Option.map_eq_some_iff.1 h
  refine ⟨message, hheld, of_decide_eq_true htask, List.isEmpty_iff.1 hempty, ?_⟩
  dsimp only
  split
  · next decoded t hdecode =>
    split_ifs with hmatch
    · exact Or.inl ⟨decoded.snapshot, ⟨grows, decoded, t, hdecode, hmatch, rfl⟩, rfl⟩
    · exact Or.inr rfl
  · exact Or.inr rfl

/-- A snapshot worker is done with the message that it holds. -/
theorem Kept.handled_done (h : Kept memory s log)
    {index : Fin cfg.admission.snapshotDecoderLanes} {message : OwnedMessageView}
    (htask : s.tasks (.snapshot index) = .handle)
    (hheld : s.held (.snapshot index) = some message)
    (index' : Fin cfg.admission.snapshotDecoderLanes) :
    handled (s.setTask (.snapshot index) .none) log index' =
      if index' = index then handled s log index ++ [message] else handled s log index' := by
  show (if Function.update s.tasks (.snapshot index) .none (.snapshot index') = .handle then _
    else _) = _
  split_ifs with hhandle hsame hsame
  · rw [hsame, Function.update_self] at hhandle
    cases hhandle
  · rw [Function.update_of_ne fun heq => hsame (Lane.snapshot.inj heq)] at hhandle
    rw [handled, if_pos hhandle]
  · rw [hsame, handled, if_pos htask]
    exact (List.dropLast_append_getLast? _ (h.held hheld)).symm
  · rw [Function.update_of_ne fun heq => hsame (Lane.snapshot.inj heq)] at hhandle
    rw [handled, if_neg hhandle]

/-- The worker of a snapshot lane publishes what it has decoded, if the catalog has it. -/
theorem Kept.handleSnapshot (h : Kept memory s log)
    {index : Fin cfg.admission.snapshotDecoderLanes} {grows : ℕ → Bool} {accepted : Bool}
    (hstep : handleSnapshotStep s index grows accepted = some s') : Kept memory s' log := by
  obtain ⟨message, hheld, htask, hempty, hcases⟩ := handleSnapshotStep_cases hstep
  obtain ⟨sent, hflows, hkept⟩ := h.snapshots
  have hmore : ∀ index', SnapshotKept cfg
      (handled (s.setTask (.snapshot index) .none) log index') (sent index') := by
    intro index'
    rw [h.handled_done htask hheld]
    split_ifs with hsame
    · rw [hsame]
      exact (hkept index).mono (List.sublist_append_left _ _)
    · exact hkept index'
  rcases hcases with ⟨snapshot, hfrom, rfl⟩ | rfl
  · refine ⟨h.admission, h.ticks, _, hflows.offer hempty [(snapshot, accepted)], fun index' => ?_⟩
    show SnapshotKept cfg (handled (s.setTask (.snapshot index) .none) log index') _
    rcases eq_or_ne index' index with rfl | hne
    · rw [Function.update_self]
      cases accepted with
      | false =>
        show SnapshotKept cfg _ (sent index' ++ [])
        rw [List.append_nil]
        exact hmore index'
      | true =>
        rw [h.handled_done htask hheld, if_pos rfl]
        exact (hkept index').snoc hfrom
    · rw [Function.update_of_ne fun heq => hne (Fin.ext heq)]
      exact hmore index'
  · exact ⟨h.admission, h.ticks, sent, hflows, hmore⟩

/-! ## Steps of the queues -/

/-- A step of a producer or of a poll, in the queues of ticks or in those of snapshots. -/
theorem Kept.queues (h : Kept memory s log) (hadmission : admissionLog new = [])
    {ticks : QueueMatrix CanonicalTick cfg.tickShape}
    {snapshots : QueueMatrix CanonicalSnapshot cfg.snapshotShape}
    (hticks : ∀ sent, QueueMatrix.Flows cfg.tickOwner sent s.ticks (tickLog log) →
      QueueMatrix.Flows cfg.tickOwner sent ticks (tickLog log ++ tickLog new))
    (hsnapshots : ∀ sent, QueueMatrix.Flows cfg.snapshotOwner sent s.snapshots (snapshotLog log) →
      QueueMatrix.Flows cfg.snapshotOwner sent snapshots (snapshotLog log ++ snapshotLog new)) :
    Kept memory { s with ticks, snapshots } (log ++ new) := by
  have hsame : admissionLog (log ++ new) = admissionLog log := by
    rw [admissionLog_append, hadmission, List.append_nil]
  refine ⟨hsame ▸ h.admission, ?_, ?_⟩
  · obtain ⟨sent, hflows, hkept⟩ := h.ticks
    rw [tickLog_append, hsame]
    exact ⟨sent, hticks sent hflows, hkept⟩
  · obtain ⟨sent, hflows, hkept⟩ := h.snapshots
    refine ⟨sent, ?_, fun index => ?_⟩
    · rw [snapshotLog_append]
      exact hsnapshots sent hflows
    · unfold handled
      rw [hsame]
      exact hkept index

/-- A poll of the ticks moves nothing but their rings. -/
theorem Kept.polledTicks (h : Kept memory s log)
    (next : QueueMatrix CanonicalTick cfg.tickShape × List (Polled CanonicalTick))
    (hflows : ∀ sent, QueueMatrix.Flows cfg.tickOwner sent s.ticks (tickLog log) →
      QueueMatrix.Flows cfg.tickOwner sent next.1 (tickLog log ++ next.2)) :
    Kept memory { s with ticks := next.1 } (log ++ next.2.map .tick) := by
  obtain ⟨hadmission, htick, hsnapshot⟩ :
      admissionLog (next.2.map (Event.tick : _ → Event cfg threads)) = [] ∧ _ ∧ _ := logs_tick _
  refine h.queues hadmission (fun sent hsent => ?_) fun sent hsent => ?_
  · rw [htick]
    exact hflows sent hsent
  · rw [hsnapshot, List.append_nil]
    exact hsent

/-- A poll of the snapshots moves nothing but their rings. -/
theorem Kept.polledSnapshots (h : Kept memory s log)
    (next : QueueMatrix CanonicalSnapshot cfg.snapshotShape × List (Polled CanonicalSnapshot))
    (hflows : ∀ sent, QueueMatrix.Flows cfg.snapshotOwner sent s.snapshots (snapshotLog log) →
      QueueMatrix.Flows cfg.snapshotOwner sent next.1 (snapshotLog log ++ next.2)) :
    Kept memory { s with snapshots := next.1 } (log ++ next.2.map .snapshot) := by
  obtain ⟨hadmission, htick, hsnapshot⟩ :
      admissionLog (next.2.map (Event.snapshot : _ → Event cfg threads)) = [] ∧ _ ∧ _ :=
    logs_snapshot _
  refine h.queues hadmission (fun sent hsent => ?_) fun sent hsent => ?_
  · rw [htick, List.append_nil]
    exact hsent
  · rw [hsnapshot]
    exact hflows sent hsent

/-- Each step is a step of one part, or carries something from one part to the next. -/
theorem kept_step {action : Action cfg threads stops} (h : Kept memory s log)
    (hstep : step s action = some (s', new)) : Kept memory s' (log ++ new) := by
  cases action with
  | admission action =>
    obtain ⟨events, rfl, hadmitted⟩ := admissionStep_admitted hstep
    exact h.admitted hadmitted
  | handleTick index grows answers =>
    obtain ⟨t, ht, heq⟩ := Option.map_eq_some_iff.1 hstep
    obtain ⟨rfl, rfl⟩ := Prod.mk.inj heq
    rw [List.append_nil]
    exact h.handleTick ht
  | handleSnapshot index grows accepted =>
    obtain ⟨t, ht, heq⟩ := Option.map_eq_some_iff.1 hstep
    obtain ⟨rfl, rfl⟩ := Prod.mk.inj heq
    rw [List.append_nil]
    exact h.handleSnapshot ht
  | scan index now answers =>
    obtain ⟨t, ht, heq⟩ := Option.map_eq_some_iff.1 hstep
    obtain ⟨rfl, rfl⟩ := Prod.mk.inj heq
    rw [List.append_nil]
    exact h.scan ht
  | flush index answers =>
    obtain ⟨t, ht, heq⟩ := Option.map_eq_some_iff.1 hstep
    obtain ⟨rfl, rfl⟩ := Prod.mk.inj heq
    rw [List.append_nil]
    exact h.flush ht
  | publishTick index =>
    obtain ⟨ticks, hspin, heq⟩ := Option.map_eq_some_iff.1 hstep
    obtain ⟨rfl, rfl⟩ := Prod.mk.inj heq
    exact h.polledTicks (ticks, []) fun sent hsent =>
      (List.append_nil (tickLog log)).symm ▸ hsent.spin hspin
  | publishSnapshot index =>
    obtain ⟨snapshots, hspin, heq⟩ := Option.map_eq_some_iff.1 hstep
    obtain ⟨rfl, rfl⟩ := Prod.mk.inj heq
    exact h.polledSnapshots (snapshots, []) fun sent hsent =>
      (List.append_nil (snapshotLog log)).symm ▸ hsent.spin hspin
  | callPollTick owner =>
    obtain ⟨next, hcall, heq⟩ := Option.map_eq_some_iff.1 hstep
    obtain ⟨rfl, rfl⟩ := Prod.mk.inj heq
    exact h.polledTicks next fun sent hsent => hsent.callPoll hcall
  | pollTick owner =>
    obtain ⟨next, hpass, heq⟩ := Option.map_eq_some_iff.1 hstep
    obtain ⟨rfl, rfl⟩ := Prod.mk.inj heq
    exact h.polledTicks next fun sent hsent => hsent.pollPass hpass
  | callPollSnapshot owner =>
    obtain ⟨next, hcall, heq⟩ := Option.map_eq_some_iff.1 hstep
    obtain ⟨rfl, rfl⟩ := Prod.mk.inj heq
    exact h.polledSnapshots next fun sent hsent => hsent.callPoll hcall
  | pollSnapshot owner =>
    obtain ⟨next, hpass, heq⟩ := Option.map_eq_some_iff.1 hstep
    obtain ⟨rfl, rfl⟩ := Prod.mk.inj heq
    exact h.polledSnapshots next fun sent hsent => hsent.pollPass hpass

/-- So the parts run as they do alone in every run of the engine. -/
theorem kept (h : (machine cfg threads stops memory).Reaches s log) : Kept memory s log :=
  Machine.invariant kept_start kept_step h

end Kept

end Engine

end L2Flow
