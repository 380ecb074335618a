import L2Flow.EngineOrder
import L2Flow.Ingestd

/-!
# The parts of the daemon

In every run of the daemon the engine runs as it does alone. What its workers have dealt with is
in the log, so that the calls of a recovery, its trace, and what each lane was given to publish
are read off there (`callsOn`, `traceOn`, `offersOn`). Of each kind of records `Tallied` says
where they are : what the lanes have counted, or are about to, has been counted by an owner, is
about to be, or waits in a ring.
-/

namespace L2Flow

namespace QueueMatrix

variable {α : Type*} {shape : MatrixShape}

/-! ## Counting records -/

/-- The records in the rings. -/
def waiting (m : QueueMatrix α shape) : ℕ :=
  ∑ producer ∈ Finset.range shape.producers, ∑ owner ∈ Finset.range shape.owners,
    (m.queues (place shape producer owner)).contents.length

/-- The records that the producers are about to publish. -/
def unsent (m : QueueMatrix α shape) : ℕ :=
  ∑ producer ∈ Finset.range shape.producers, (accepted (m.outboxes producer)).length

theorem length_ownedBy {ownerOf : α → ℕ} {owners : ℕ} {records : List α}
    (h : ∀ value ∈ records, ownerOf value < owners) :
    ∑ owner ∈ Finset.range owners, (ownedBy ownerOf owner records).length = records.length := by
  induction records with
  | nil => simp [ownedBy]
  | cons value records ih =>
    have hone : ∀ owner, (ownedBy ownerOf owner (value :: records)).length =
        (if ownerOf value = owner then 1 else 0) + (ownedBy ownerOf owner records).length := by
      intro owner
      simp only [ownedBy, List.filter_cons, decide_eq_true_eq]
      split_ifs
      · rw [List.length_cons, Nat.add_comm]
      · rw [Nat.zero_add]
    simp only [hone, Finset.sum_add_distrib, ih fun v hv => h v (List.mem_cons_of_mem _ hv)]
    rw [Finset.sum_ite_eq, if_pos (Finset.mem_range.2 (h value List.mem_cons_self)),
      List.length_cons, Nat.add_comm]

/-- Every record that was returned came from one lane and went to one owner. -/
theorem length_returned {log : List (Polled α)}
    (h : ∀ owner producer value, .returned owner producer value ∈ log →
      producer < shape.producers ∧ owner < shape.owners) :
    ∑ producer ∈ Finset.range shape.producers, ∑ owner ∈ Finset.range shape.owners,
      (polledFrom producer owner log).length = (returned log).length := by
  induction log with
  | nil => simp [polledFrom, returned]
  | cons event log ih =>
    have ih := ih fun owner producer value hmem =>
      h owner producer value (List.mem_cons_of_mem _ hmem)
    rcases event with ⟨owner', producer', value⟩ | owner'
    · obtain ⟨hproducer, howner⟩ := h owner' producer' value List.mem_cons_self
      have hone : ∀ producer owner,
          (polledFrom producer owner (.returned owner' producer' value :: log)).length =
            (if producer' = producer then if owner' = owner then 1 else 0 else 0) +
              (polledFrom producer owner log).length := by
        intro producer owner
        by_cases hp : producer' = producer <;> by_cases ho : owner' = owner <;>
          simp [polledFrom, hp, ho, Nat.add_comm]
      have hinner : ∀ producer, (∑ owner ∈ Finset.range shape.owners,
          if producer' = producer then if owner' = owner then 1 else 0 else 0) =
            if producer' = producer then 1 else 0 := by
        intro producer
        split_ifs
        · rw [Finset.sum_ite_eq, if_pos (Finset.mem_range.2 howner)]
        · exact Finset.sum_const_zero
      simp only [hone, Finset.sum_add_distrib, ih, hinner]
      rw [Finset.sum_ite_eq, if_pos (Finset.mem_range.2 hproducer)]
      simp [returned, Nat.add_comm]
    · exact ih

/-- What the producers were given to publish has been returned, waits in a ring, or is about to
be published. -/
theorem Flows.account {ownerOf : α → ℕ} {sent : ℕ → List α} {m : QueueMatrix α shape}
    {log : List (Polled α)} (h : m.Flows ownerOf sent log)
    (hoffered : ∀ producer, accepted (m.outboxes producer) <:+ sent producer)
    (howned : ∀ producer, ∀ value ∈ sent producer, ownerOf value < shape.owners) :
    ∑ producer ∈ Finset.range shape.producers, (sent producer).length =
      (QueueMatrix.returned log).length + m.waiting + m.unsent := by
  have hlane : ∀ producer ∈ Finset.range shape.producers, (sent producer).length =
      (∑ owner ∈ Finset.range shape.owners, (polledFrom producer owner log).length +
        ∑ owner ∈ Finset.range shape.owners,
          (m.queues (place shape producer owner)).contents.length) +
        (accepted (m.outboxes producer)).length := by
    intro producer _
    rw [← length_ownedBy (howned producer),
      ← length_ownedBy fun value hmem => howned producer value ((hoffered producer).subset hmem),
      ← Finset.sum_add_distrib, ← Finset.sum_add_distrib]
    refine Finset.sum_congr rfl fun owner howner => ?_
    rw [h.flow producer owner (Finset.mem_range.1 howner), List.length_append, List.length_append]
  rw [Finset.sum_congr rfl hlane, Finset.sum_add_distrib, Finset.sum_add_distrib,
    length_returned h.returned]
  rfl

/-! ## One kind of records -/

/-- What the lanes publish of one kind, what the owners have polled of it, and the counters of
both. `counting` owners have polled a record that they have not counted yet. -/
structure Tallied (ownerOf : α → ℕ) (sent : ℕ → List α) (m : QueueMatrix α shape)
    (log : List (Polled α)) (dispatched : ℕ → ℕ) (uncounted : ℕ → Bool)
    (consumed counting : ℕ) : Prop where
  flows : m.Flows ownerOf sent log
  offered : ∀ producer, accepted (m.outboxes producer) <:+ sent producer
  owned : ∀ producer, ∀ value ∈ sent producer, ownerOf value < shape.owners
  published : ∀ producer, dispatched producer + (uncounted producer).toNat +
    (accepted (m.outboxes producer)).length = (sent producer).length
  polled : consumed + counting = (returned log).length

theorem publish_frame (m : QueueMatrix α shape) (producer owner : ℕ) (value : α) :
    ∃ queues, (m.publish producer owner value).2 = { m with queues := queues } := by
  rw [publish]
  split_ifs
  · exact ⟨m.queues, rfl⟩
  · exact ⟨_, rfl⟩

theorem takes_eq {ownerOf : α → ℕ} {m : QueueMatrix α shape} {producer : ℕ} {value : α}
    {foreseen : Bool} {rest : List (α × Bool)}
    (h : m.outboxes producer = (value, foreseen) :: rest) :
    m.takes ownerOf producer = (m.publish producer (ownerOf value) value).1 := by
  rw [takes, h]

/-- A pass of `PublishBounded` is done with a record that is taken, and keeps one that is not. -/
theorem accepted_spin {ownerOf : α → ℕ} {m m' : QueueMatrix α shape} {producer : ℕ}
    (hspin : m.spin ownerOf producer = some m') :
    (∀ other ≠ producer, m'.outboxes other = m.outboxes other) ∧
      accepted (m'.outboxes producer) <:+ accepted (m.outboxes producer) ∧
      (m.takes ownerOf producer).toNat + (accepted (m'.outboxes producer)).length =
        (accepted (m.outboxes producer)).length := by
  rw [spin] at hspin
  split at hspin
  · cases hspin
  · next value foreseen rest houtbox =>
    rw [takes_eq houtbox, houtbox]
    obtain ⟨queues, hafter⟩ := m.publish_frame producer (ownerOf value) value
    have hadvance : ∀ other ≠ producer, (advance { m with queues := queues } producer
        rest).outboxes other = m.outboxes other := fun other hne =>
      Function.update_of_ne hne ..
    split at hspin
    · next m₁ hpublish =>
      rw [hpublish] at hafter ⊢
      obtain rfl : m₁ = { m with queues := queues } := hafter
      split_ifs at hspin with hforeseen
      obtain rfl := Option.some.inj hspin
      refine ⟨hadvance, ?_⟩
      rw [advance_outboxes, Function.update_self, hforeseen]
      refine ⟨List.suffix_cons value _, ?_⟩
      simp [accepted, Nat.add_comm]
    · next m₁ hpublish =>
      rw [hpublish] at hafter ⊢
      obtain rfl : m₁ = { m with queues := queues } := hafter
      split_ifs at hspin with hmore hforeseen
      · obtain rfl := Option.some.inj hspin
        refine ⟨fun _ _ => rfl, ?_⟩
        rw [← houtbox]
        exact ⟨List.suffix_refl _, Nat.zero_add _⟩
      · obtain rfl := Option.some.inj hspin
        rw [Bool.not_eq_true] at hforeseen
        refine ⟨hadvance, ?_⟩
        rw [advance_outboxes, Function.update_self, hforeseen]
        exact ⟨List.suffix_refl _, Nat.zero_add _⟩

/-- The next ring that a poll looks at. -/
def pollAt (m : QueueMatrix α shape) (owner count : ℕ) : ℕ :=
  (m.cursors owner + count) % shape.producers

/-- A step of a poll : it begins, finds a ring empty, takes a record, or has looked at all rings. -/
inductive PollMoves (m : QueueMatrix α shape) (owner : ℕ) :
    QueueMatrix α shape → List (Polled α) → Prop where
  | outside (idle : m.polls owner = none) (none : shape.owners ≤ owner) :
      PollMoves m owner m [.nothing owner]
  | called (idle : m.polls owner = none) (inside : owner < shape.owners) :
      PollMoves m owner { m with polls := Function.update m.polls owner (some 0) } []
  | missed {count : ℕ} (looking : m.polls owner = some count) (more : count < shape.producers)
      (popped : (m.queues (place shape (m.pollAt owner count) owner)).tryPop.1 = none) :
      PollMoves m owner { m with
        queues := Function.update m.queues (place shape (m.pollAt owner count) owner)
          (m.queues (place shape (m.pollAt owner count) owner)).tryPop.2
        polls := Function.update m.polls owner (some (count + 1)) } []
  | taken {count : ℕ} {value : α} (looking : m.polls owner = some count)
      (more : count < shape.producers)
      (popped : (m.queues (place shape (m.pollAt owner count) owner)).tryPop.1 = some value) :
      PollMoves m owner { m with
        queues := Function.update m.queues (place shape (m.pollAt owner count) owner)
          (m.queues (place shape (m.pollAt owner count) owner)).tryPop.2
        cursors := Function.update m.cursors owner
          ((m.pollAt owner count + 1) % shape.producers)
        polls := Function.update m.polls owner none }
        [.returned owner (m.pollAt owner count) value]
  | ended {count : ℕ} (looking : m.polls owner = some count) (done : shape.producers ≤ count) :
      PollMoves m owner { m with polls := Function.update m.polls owner none } [.nothing owner]

theorem pollMoves_of_step {m m' : QueueMatrix α shape} {new : List (Polled α)} {owner : ℕ}
    (hpoll : m.pollStep owner = some (m', new)) : PollMoves m owner m' new := by
  cases hpolls : m.polls owner with
  | none =>
    simp only [QueueMatrix.pollStep, callPoll, hpolls] at hpoll
    split_ifs at hpoll with howners
    · obtain ⟨rfl, rfl⟩ := Prod.mk.inj (Option.some.inj hpoll)
      exact .outside hpolls howners
    · obtain ⟨rfl, rfl⟩ := Prod.mk.inj (Option.some.inj hpoll)
      exact .called hpolls (Nat.lt_of_not_le howners)
  | some count =>
    simp only [QueueMatrix.pollStep, pollPass, hpolls] at hpoll
    split_ifs at hpoll with hmore
    · cases hpopped : (m.queues (place shape (m.pollAt owner count) owner)).tryPop.1 with
      | none =>
        rw [pollAt] at hpopped
        rw [hpopped] at hpoll
        obtain ⟨rfl, rfl⟩ := Prod.mk.inj (Option.some.inj hpoll)
        exact .missed hpolls hmore hpopped
      | some value =>
        rw [pollAt] at hpopped
        rw [hpopped] at hpoll
        obtain ⟨rfl, rfl⟩ := Prod.mk.inj (Option.some.inj hpoll)
        exact .taken hpolls hmore hpopped
    · obtain ⟨rfl, rfl⟩ := Prod.mk.inj (Option.some.inj hpoll)
      exact .ended hpolls (Nat.le_of_not_lt hmore)

/-- A step of a poll leaves the producers alone, and returns a record where it ends with one. -/
theorem pollStep_frame {m m' : QueueMatrix α shape} {new : List (Polled α)} {owner : ℕ}
    (hpoll : m.pollStep owner = some (m', new)) : m'.outboxes = m.outboxes ∧
      (returned new).length = if pollEnd new = some true then 1 else 0 := by
  cases pollMoves_of_step hpoll with
  | outside idle none => exact ⟨rfl, rfl⟩
  | called idle inside => exact ⟨rfl, rfl⟩
  | missed looking more popped => exact ⟨rfl, rfl⟩
  | taken looking more popped => exact ⟨rfl, rfl⟩
  | ended looking done => exact ⟨rfl, rfl⟩

namespace Tallied

variable {ownerOf : α → ℕ} {sent : ℕ → List α} {m m' : QueueMatrix α shape}
  {log new : List (Polled α)} {dispatched : ℕ → ℕ} {uncounted : ℕ → Bool}
  {consumed counting : ℕ}

theorem start (storage : ℕ → Fin shape.capacity.size → α) :
    Tallied ownerOf (fun _ => []) ({ queues := fun i => { storage := storage i } } :
      QueueMatrix α shape) [] (fun _ => 0) (fun _ => false) 0 0 where
  flows := Flows.start storage
  offered _ := List.suffix_refl _
  owned _ _ hmem := by cases hmem
  published _ := rfl
  polled := rfl

/-- A lane that has published everything is given more. -/
theorem offer (h : Tallied ownerOf sent m log dispatched uncounted consumed counting)
    {producer : ℕ} (hidle : m.outboxes producer = []) {records : List (α × Bool)}
    (howned : ∀ value ∈ accepted records, ownerOf value < shape.owners) :
    Tallied ownerOf (Function.update sent producer (sent producer ++ accepted records))
      (m.offer producer records) log dispatched uncounted consumed counting where
  flows := h.flows.offer hidle records
  offered other := by
    rw [offer_outboxes]
    rcases eq_or_ne other producer with rfl | hne
    · rw [Function.update_self, Function.update_self]
      exact List.suffix_append _ _
    · rw [Function.update_of_ne hne, Function.update_of_ne hne]
      exact h.offered other
  owned other value hmem := by
    rcases eq_or_ne other producer with rfl | hne
    · rw [Function.update_self] at hmem
      exact (List.mem_append.1 hmem).elim (h.owned other value) (howned value)
    · rw [Function.update_of_ne hne] at hmem
      exact h.owned other value hmem
  published other := by
    have hbefore := h.published other
    rw [offer_outboxes]
    rcases eq_or_ne other producer with rfl | hne
    · rw [Function.update_self, Function.update_self, List.length_append]
      rw [hidle] at hbefore
      exact congrArg (· + (accepted records).length) hbefore
    · rw [Function.update_of_ne hne, Function.update_of_ne hne]
      exact hbefore
  polled := h.polled

theorem spin (h : Tallied ownerOf sent m log dispatched uncounted consumed counting)
    {producer : ℕ} (hcounted : uncounted producer = false)
    (hspin : m.spin ownerOf producer = some m') :
    Tallied ownerOf sent m' log dispatched
      (Function.update uncounted producer (m.takes ownerOf producer)) consumed counting := by
  obtain ⟨hothers, hsuffix, hlength⟩ := accepted_spin hspin
  refine ⟨h.flows.spin hspin, fun other => ?_, h.owned, fun other => ?_, h.polled⟩
  · rcases eq_or_ne other producer with rfl | hne
    · exact hsuffix.trans (h.offered other)
    · rw [hothers other hne]
      exact h.offered other
  · have hbefore := h.published other
    rcases eq_or_ne other producer with rfl | hne
    · rw [hcounted] at hbefore
      rw [Function.update_self, Nat.add_assoc, hlength]
      exact hbefore
    · rw [Function.update_of_ne hne, hothers other hne]
      exact hbefore

/-- A lane increments its counter. -/
theorem count (h : Tallied ownerOf sent m log dispatched uncounted consumed counting)
    {producer : ℕ} (huncounted : uncounted producer = true) :
    Tallied ownerOf sent m log
      (Function.update dispatched producer (dispatched producer + 1))
      (Function.update uncounted producer false) consumed counting := by
  refine ⟨h.flows, h.offered, h.owned, fun other => ?_, h.polled⟩
  have hbefore := h.published other
  rcases eq_or_ne other producer with rfl | hne
  · rw [huncounted] at hbefore
    rw [Function.update_self, Function.update_self]
    exact hbefore
  · rw [Function.update_of_ne hne, Function.update_of_ne hne]
    exact hbefore

/-- A step of a poll returns a record, or none. -/
theorem pollStep (h : Tallied ownerOf sent m log dispatched uncounted consumed counting)
    {owner : ℕ} (hpoll : m.pollStep owner = some (m', new)) :
    Tallied ownerOf sent m' (log ++ new) dispatched uncounted consumed
      (counting + if pollEnd new = some true then 1 else 0) := by
  have hflows : m'.Flows ownerOf sent (log ++ new) := by
    rw [QueueMatrix.pollStep] at hpoll
    split at hpoll
    · exact h.flows.callPoll hpoll
    · exact h.flows.pollPass hpoll
  obtain ⟨houtboxes, hnew⟩ := pollStep_frame hpoll
  refine ⟨hflows, houtboxes ▸ h.offered, h.owned, houtboxes ▸ h.published, ?_⟩
  rw [returned, List.filterMap_append, List.length_append, ← returned, ← returned, hnew,
    ← h.polled, Nat.add_assoc]

/-- An owner counts the record that it has polled. -/
theorem consume (h : Tallied ownerOf sent m log dispatched uncounted consumed (counting + 1)) :
    Tallied ownerOf sent m log dispatched uncounted (consumed + 1) counting :=
  ⟨h.flows, h.offered, h.owned, h.published, by rw [← h.polled]; omega⟩

/-- All that the lanes have counted or are about to count has been counted by an owner, is about
to be, or waits in a ring. -/
theorem account (h : Tallied ownerOf sent m log dispatched uncounted consumed counting) :
    ∑ producer ∈ Finset.range shape.producers,
        (dispatched producer + (uncounted producer).toNat) =
      consumed + counting + m.waiting := by
  have hsent := h.flows.account h.offered h.owned
  simp only [← h.published, Finset.sum_add_distrib] at hsent ⊢
  rw [← h.polled, unsent] at hsent
  omega

end Tallied

end QueueMatrix

open SequenceRecovery (GapsTaken runWith emitted diverted faulted)

namespace Ingestd

variable {cfg : IngestdConfig} {threads stops : ℕ}

/-! ## The logs of the parts -/

def engineLog (log : List (Event cfg threads)) : List (Engine.Event cfg.engine threads) :=
  log.filterMap fun
    | .engine event => some event
    | _ => none

def lateLog (log : List (Event cfg threads)) : List (Polled LateRecoveryTick) :=
  log.filterMap fun
    | .late polled => some polled
    | _ => none

def faultLog (log : List (Event cfg threads)) : List (Polled ChannelFault) :=
  log.filterMap fun
    | .fault polled => some polled
    | _ => none

/-- What the worker of a tick lane has dealt with, and what came of it. -/
def inputsOn (index : ℕ) (log : List (Event cfg threads)) :
    List (TickInput × Engine.Answers × Trace) :=
  log.filterMap fun
    | .input index' input answers trace =>
      if index'.val = index then some (input, answers, trace) else none
    | _ => none

/-- The calls of the recovery of a lane. -/
def callsOn (index : ℕ) (log : List (Event cfg threads)) :
    List (SequenceRecovery.Call × LaneCallbacks) :=
  (inputsOn index log).filterMap fun given => (cfg.call? given.1).map (·, given.2.1.1)

/-- What the recovery of a lane has done. -/
def traceOn (index : ℕ) (log : List (Event cfg threads)) : Trace :=
  (inputsOn index log).flatMap (·.2.2)

/-- The messages that the worker of a tick lane has dealt with. -/
def messagesOn (index : ℕ) (log : List (Event cfg threads)) : List OwnedMessageView :=
  (inputsOn index log).filterMap fun given =>
    match given.1 with
    | .consume _ message => some message
    | _ => none

/-- What the worker of a snapshot lane has dealt with. -/
def decodedOn (index : ℕ) (log : List (Event cfg threads)) :
    List ((ℕ → Bool) × Bool × OwnedMessageView) :=
  log.filterMap fun
    | .message index' grows accepted message =>
      if index'.val = index then some (grows, accepted, message) else none
    | _ => none

/-- What the worker of a snapshot lane was given to publish. -/
def offersOn (index : ℕ) (log : List (Event cfg threads)) : List (CanonicalSnapshot × Bool) :=
  (decodedOn index log).flatMap fun given => cfg.offer given.1 given.2.1 given.2.2

section Append

variable (index : ℕ) (log new : List (Event cfg threads))

@[simp] theorem engineLog_append : engineLog (log ++ new) = engineLog log ++ engineLog new :=
  List.filterMap_append ..

@[simp] theorem lateLog_append : lateLog (log ++ new) = lateLog log ++ lateLog new :=
  List.filterMap_append ..

@[simp] theorem faultLog_append : faultLog (log ++ new) = faultLog log ++ faultLog new :=
  List.filterMap_append ..

@[simp] theorem inputsOn_append :
    inputsOn index (log ++ new) = inputsOn index log ++ inputsOn index new :=
  List.filterMap_append ..

@[simp] theorem callsOn_append :
    callsOn index (log ++ new) = callsOn index log ++ callsOn index new := by
  rw [callsOn, inputsOn_append, List.filterMap_append, ← callsOn, ← callsOn]

@[simp] theorem traceOn_append :
    traceOn index (log ++ new) = traceOn index log ++ traceOn index new := by
  rw [traceOn, inputsOn_append, List.flatMap_append, ← traceOn, ← traceOn]

@[simp] theorem messagesOn_append :
    messagesOn index (log ++ new) = messagesOn index log ++ messagesOn index new := by
  rw [messagesOn, inputsOn_append, List.filterMap_append, ← messagesOn, ← messagesOn]

@[simp] theorem decodedOn_append :
    decodedOn index (log ++ new) = decodedOn index log ++ decodedOn index new :=
  List.filterMap_append ..

@[simp] theorem offersOn_append :
    offersOn index (log ++ new) = offersOn index log ++ offersOn index new := by
  rw [offersOn, decodedOn_append, List.flatMap_append, ← offersOn, ← offersOn]

end Append

/-! ## What a step does -/

/-- What a tick worker is about to do comes to this input, if to any. -/
inductive Given (s : Engine.State cfg.engine threads stops)
    (index : Fin cfg.engine.admission.tickDecoderLanes) : Option TickInput → Prop where
  | message {grows : ℕ → Bool} {message : OwnedMessageView}
      (task : s.tasks (.tick index) = .handle) (held : s.held (.tick index) = some message) :
      Given s index (some (.consume grows message))
  | due {received : Option ℕ} {now : ℕ} (task : s.tasks (.tick index) = .scan received) :
      Given s index (some (.poll now))
  | early {received : Option ℕ} (task : s.tasks (.tick index) = .scan received) :
      Given s index none
  | last {now : ℕ} (task : s.tasks (.tick index) = .flush) : Given s index (some (.flush now))

/-- What an input makes of the recovery of a lane. -/
def recovered (cfg : IngestdConfig) (input : Option TickInput) (answers : Engine.Answers)
    (recovery : SequenceRecovery cfg.engine.recovery) :
    Option (SequenceRecovery cfg.engine.recovery × Trace) :=
  match input.bind cfg.call? with
  | none => some (recovery, [])
  | some call => SequenceRecovery.step answers.1 recovery call

/-- A tick worker has done its task. -/
structure Turned (s s' : Engine.State cfg.engine threads stops)
    (index : Fin cfg.engine.admission.tickDecoderLanes) (input : Option TickInput)
    (answers : Engine.Answers) (trace : Trace) : Prop where
  idle : s.ticks.outboxes index = []
  given : Given s index input
  admission : s'.admission = s.admission
  tasks : s'.tasks = Function.update s.tasks (.tick index) .none
  others : ∀ other ≠ index, (s'.tickLanes other).recovery = (s.tickLanes other).recovery
  recovery : recovered cfg input answers (s.tickLanes index).recovery =
    some ((s'.tickLanes index).recovery, trace)
  ticks : s'.ticks = s.ticks.offer index (emitted trace)
  snapshots : s'.snapshots = s.snapshots

theorem offer_nil {α : Type} {shape : MatrixShape} {m : QueueMatrix α shape} {producer : ℕ}
    (h : m.outboxes producer = []) : m.offer producer [] = m := by
  rw [QueueMatrix.offer, ← h, Function.update_eq_self]

section Turn

variable {s s' : Engine.State cfg.engine threads stops}
  {index : Fin cfg.engine.admission.tickDecoderLanes} {answers : Engine.Answers}

/-- A task that calls the recovery. -/
theorem turned_call
    (lanes : Fin cfg.engine.admission.tickDecoderLanes → Engine.TickLane cfg.engine)
    (hidle : s.ticks.outboxes index = []) {input : TickInput} (hgiven : Given s index (some input))
    {call : SequenceRecovery.Call} (hcall : cfg.call? input = some call)
    (hlanes : ∀ other, (lanes other).recovery = (s.tickLanes other).recovery)
    (h : ({ s.setTask (.tick index) .none with tickLanes := lanes }).recover index call answers =
      some s') :
    Turned s s' index (some input) answers (traceOf s index input answers) := by
  obtain ⟨⟨recovery, trace⟩, hstep, rfl⟩ := Option.map_eq_some_iff.1 h
  change SequenceRecovery.step answers.1 (lanes index).recovery call = _ at hstep
  rw [hlanes] at hstep
  have htrace : traceOf s index input answers = trace := by
    rw [traceOf, hcall, Option.bind_some, hstep]
  rw [htrace]
  refine ⟨hidle, hgiven, rfl, rfl, fun other hne => ?_, ?_, rfl, rfl⟩
  · exact (congrArg Engine.TickLane.recovery (Function.update_of_ne hne ..)).trans (hlanes other)
  · rw [recovered, Option.bind_some, hcall]
    show _ = some ((Function.update lanes index _ index).recovery, trace)
    rw [Function.update_self]
    exact hstep

/-- A task that does not. -/
theorem turned_quiet
    (lanes : Fin cfg.engine.admission.tickDecoderLanes → Engine.TickLane cfg.engine)
    (hidle : s.ticks.outboxes index = []) {input : Option TickInput}
    (hgiven : Given s index input) (hcall : input.bind cfg.call? = none)
    (hlanes : ∀ other, (lanes other).recovery = (s.tickLanes other).recovery) :
    Turned s { s.setTask (.tick index) .none with tickLanes := lanes } index input answers [] where
  idle := hidle
  given := hgiven
  admission := rfl
  tasks := rfl
  others other _ := hlanes other
  recovery := by
    rw [recovered, hcall]
    exact congrArg (fun recovery => some (recovery, [])) (hlanes index).symm
  ticks := (offer_nil hidle).symm
  snapshots := rfl

theorem traceOf_none {input : TickInput} (h : cfg.call? input = none) :
    traceOf s index input answers = [] := by
  rw [traceOf, h]
  rfl

theorem turned_handleTick {grows : ℕ → Bool}
    (h : Engine.handleTickStep s index grows answers = some s') :
    ∃ message, s.held (.tick index) = some message ∧
      Turned s s' index (some (.consume grows message)) answers
        (traceOf s index (.consume grows message) answers) := by
  rw [Engine.handleTickStep] at h
  split_ifs at h with hat
  obtain ⟨htask, hidle⟩ := Bool.and_eq_true_iff.1 hat
  obtain ⟨message, hheld, h⟩ := Option.bind_eq_some_iff.1 h
  have hgiven : Given s index (some (.consume grows message)) :=
    .message (of_decide_eq_true htask) hheld
  refine ⟨message, hheld, ?_⟩
  rcases hhandle : handleTick cfg.engine.recovery cfg.engine.settings cfg.engine.catalog grows
    message with call | text | -
  · have hcall : cfg.call? (.consume grows message) = some call := by
      rw [IngestdConfig.call?, TickInput.call?, hhandle]
    rw [hhandle] at h
    exact turned_call s.tickLanes (List.isEmpty_iff.1 hidle) hgiven hcall (fun _ => rfl) h
  all_goals
    have hcall : cfg.call? (.consume grows message) = none := by
      rw [IngestdConfig.call?, TickInput.call?, hhandle]
    rw [hhandle] at h
    obtain rfl := Option.some.inj h
    rw [traceOf_none hcall]
    exact turned_quiet s.tickLanes (List.isEmpty_iff.1 hidle) hgiven hcall fun _ => rfl

theorem recovery_update (s : Engine.State cfg.engine threads stops)
    (index : Fin cfg.engine.admission.tickDecoderLanes) (nextTimer now : ℕ)
    (other : Fin cfg.engine.admission.tickDecoderLanes) :
    (Function.update s.tickLanes index { s.tickLanes index with nextTimer, now } other).recovery =
      (s.tickLanes other).recovery := by
  rcases eq_or_ne other index with rfl | hne
  · rw [Function.update_self]
  · rw [Function.update_of_ne hne]

/-- The timer of a lane calls `Poll`, or only keeps the time. -/
theorem turned_scan {now : ℕ} (h : Engine.scanStep s index now answers = some s') :
    ∃ received, s.tasks (.tick index) = .scan received ∧
      if (s.tickLanes index).nextTimer ≤ received.getD now then
        Turned s s' index (some (.poll (received.getD now))) answers
          (traceOf s index (.poll (received.getD now)) answers)
      else Turned s s' index none answers [] := by
  rw [Engine.scanStep] at h
  split at h
  · next received htask =>
    split_ifs at h with hidle
    dsimp only at h
    refine ⟨received, htask, ?_⟩
    split_ifs at h with hdue
    · rw [if_pos hdue]
      exact turned_call _ (List.isEmpty_iff.1 hidle) (.due htask) rfl
        (recovery_update s index _ _) h
    · rw [if_neg hdue]
      obtain rfl := Option.some.inj h
      exact turned_quiet _ (List.isEmpty_iff.1 hidle) (.early htask) rfl
        (recovery_update s index _ _)
  · cases h

theorem turned_flush (h : Engine.flushStep s index answers = some s') :
    Turned s s' index (some (.flush (s.tickLanes index).now)) answers
      (traceOf s index (.flush (s.tickLanes index).now) answers) := by
  rw [Engine.flushStep] at h
  split_ifs at h with hat
  obtain ⟨htask, hidle⟩ := Bool.and_eq_true_iff.1 hat
  exact turned_call s.tickLanes (List.isEmpty_iff.1 hidle) (.last (of_decide_eq_true htask)) rfl
    (fun _ => rfl) h

theorem handleSnapshotStep_offer {index : Fin cfg.engine.admission.snapshotDecoderLanes}
    {grows : ℕ → Bool} {accepted : Bool}
    (h : Engine.handleSnapshotStep s index grows accepted = some s') :
    ∃ message, s.held (.snapshot index) = some message ∧ s.tasks (.snapshot index) = .handle ∧
      s.snapshots.outboxes index = [] ∧
      s' = { s.setTask (.snapshot index) .none with
        snapshots := s.snapshots.offer index (cfg.offer grows accepted message) } := by
  rw [Engine.handleSnapshotStep] at h
  split_ifs at h with hat
  obtain ⟨htask, hidle⟩ := Bool.and_eq_true_iff.1 hat
  obtain ⟨message, hheld, rfl⟩ := Option.map_eq_some_iff.1 h
  have hnone : s.snapshots.offer index [] = s.snapshots := offer_nil (List.isEmpty_iff.1 hidle)
  refine ⟨message, hheld, of_decide_eq_true htask, List.isEmpty_iff.1 hidle, ?_⟩
  rw [IngestdConfig.offer]
  rcases decodeSnapshot grows message cfg.engine.settings.tradeDate cfg.engine.settings.limits
    cfg.engine.catalog with ⟨decoded, t⟩ | ⟨e, t⟩
  · dsimp only
    split_ifs
    · rfl
    · rw [hnone]
      rfl
  · dsimp only
    rw [hnone]
    rfl

end Turn

/-- The steps of the daemon. -/
inductive Moves (stopper : Fin stops) (s : State cfg threads stops) :
    State cfg threads stops → List (Event cfg threads) → Prop where
  | admission {action : Admission.Action cfg.engine.admission threads stops}
      {engine : Engine.State cfg.engine threads stops}
      {events : List (Admission.Event cfg.engine.admission threads)}
      (settled : ∀ lane, action = .work lane →
        s.engine.published lane = true ∧ s.settled lane = true)
      (step : Engine.Admitted s.engine action engine events) :
      Moves stopper s { s with engine } (events.map fun event => .engine (.admission event))
  | input {index : Fin cfg.engine.admission.tickDecoderLanes} {input : TickInput}
      {answers : Engine.Answers} {trace : Trace} {engine : Engine.State cfg.engine threads stops}
      (settled : s.settled (.tick index) = true)
      (turned : Turned s.engine engine index (some input) answers trace) :
      Moves stopper s { s with
        engine
        lates := s.lates.offer index (diverted trace)
        faults := s.faults.offer index (faulted trace) } [.input index input answers trace]
  | early {index : Fin cfg.engine.admission.tickDecoderLanes} {answers : Engine.Answers}
      {engine : Engine.State cfg.engine threads stops} (settled : s.settled (.tick index) = true)
      (turned : Turned s.engine engine index none answers []) :
      Moves stopper s { s with engine } []
  | message {index : Fin cfg.engine.admission.snapshotDecoderLanes} {grows : ℕ → Bool}
      {accepted : Bool} {message : OwnedMessageView}
      (settled : s.settled (.snapshot index) = true)
      (task : s.engine.tasks (.snapshot index) = .handle)
      (held : s.engine.held (.snapshot index) = some message)
      (idle : s.engine.snapshots.outboxes index = []) :
      Moves stopper s { s with
        engine := { s.engine.setTask (.snapshot index) .none with
          snapshots := s.engine.snapshots.offer index (cfg.offer grows accepted message) } }
        [.message index grows accepted message]
  | publishTick {index : Fin cfg.engine.admission.tickDecoderLanes}
      {ticks : QueueMatrix CanonicalTick cfg.sizes.tickQueues}
      (counted : s.counted (.tick index) = true)
      (spin : s.engine.ticks.spin cfg.engine.tickOwner index = some ticks) :
      Moves stopper s (({ s with engine := { s.engine with ticks } }).setUncounted .tick index
        (s.engine.ticks.takes cfg.engine.tickOwner index)) []
  | publishSnapshot {index : Fin cfg.engine.admission.snapshotDecoderLanes}
      {snapshots : QueueMatrix CanonicalSnapshot cfg.sizes.snapshotQueues}
      (counted : s.counted (.snapshot index) = true)
      (spin : s.engine.snapshots.spin cfg.engine.snapshotOwner index = some snapshots) :
      Moves stopper s (({ s with engine := { s.engine with snapshots } }).setUncounted .snapshot
        index (s.engine.snapshots.takes cfg.engine.snapshotOwner index)) []
  | publishLate {index : Fin cfg.engine.admission.tickDecoderLanes}
      {lates : QueueMatrix LateRecoveryTick cfg.sizes.lateRecoveryQueues}
      (counted : s.counted (.tick index) = true)
      (spin : s.lates.spin (fun _ => 0) index = some lates) :
      Moves stopper s (({ s with lates }).setUncounted .late index
        (s.lates.takes (fun _ => 0) index)) []
  | publishFault {index : Fin cfg.engine.admission.tickDecoderLanes}
      {faults : QueueMatrix ChannelFault cfg.sizes.faultQueues}
      (counted : s.counted (.tick index) = true)
      (spin : s.faults.spin (fun _ => 0) index = some faults) :
      Moves stopper s (({ s with faults }).setUncounted .fault index
        (s.faults.takes (fun _ => 0) index)) []
  | count {kind : Kind} {index : ℕ} (uncounted : s.uncounted kind index = true) :
      Moves stopper s (({ s with
        dispatched := Function.update s.dispatched kind
          (Function.update (s.dispatched kind) index (s.dispatched kind index + 1)) }).setUncounted
        kind index false) []
  | test {owner : Fin cfg.engine.instrumentWorkers} (stage : s.drains owner = .testing) :
      Moves stopper s
        (s.setDrain owner (if s.drainRunning then .polling .tick else .exited)) []
  | poll {owner : Fin cfg.engine.instrumentWorkers} {kind : Kind} {s' : State cfg threads stops}
      {events : List (Event cfg threads)} {answer : Option Bool}
      (stage : s.drains owner = .polling kind)
      (step : pollStep s owner kind = some (s', events, answer)) :
      Moves stopper s (s'.setDrain owner (.after owner kind answer)) events
  | consume {owner : Fin cfg.engine.instrumentWorkers} {kind : Kind}
      (stage : s.drains owner = .counting kind) :
      Moves stopper s (({ s with
        consumed := Function.update s.consumed kind (s.consumed kind + 1) }).setDrain owner
          (.polling kind)) []
  | main {s' : State cfg threads stops} {connected : Bool}
      (step : mainStep stopper s connected = some s') :
      Moves stopper s s' []

section Moves

variable {stopper : Fin stops} {s s' : State cfg threads stops} {new : List (Event cfg threads)}

theorem moves_engine {action : Engine.Action cfg.engine threads stops}
    (h : engineStep s action = some (s', new)) : Moves stopper s s' new := by
  rw [engineStep] at h
  split_ifs at h with hallowed
  obtain ⟨⟨engine, events⟩, hstep, heq⟩ := Option.map_eq_some_iff.1 h
  cases action with
  | admission action =>
    obtain ⟨admitted, rfl, hadmitted⟩ := Engine.admissionStep_admitted hstep
    obtain ⟨rfl, rfl⟩ := Prod.mk.inj heq
    rw [List.map_map]
    refine .admission (fun lane haction => ?_) hadmitted
    subst haction
    refine ⟨?_, hallowed⟩
    rw [Engine.step, Engine.admissionStep] at hstep
    split_ifs at hstep with hat
    exact (Bool.and_eq_true_iff.1 hat).2
  | handleTick index grows answers =>
    obtain ⟨t, ht, hnext⟩ := Option.map_eq_some_iff.1 hstep
    obtain ⟨rfl, rfl⟩ := Prod.mk.inj hnext
    obtain ⟨message, hheld, hturned⟩ := turned_handleTick ht
    have hinput : inputOf s.engine (.handleTick index grows answers) =
        some (index, .consume grows message, answers) := by
      rw [inputOf, hheld]
      rfl
    rw [hinput] at heq
    obtain ⟨rfl, rfl⟩ := Prod.mk.inj heq
    exact .input hallowed hturned
  | scan index now answers =>
    obtain ⟨t, ht, hnext⟩ := Option.map_eq_some_iff.1 hstep
    obtain ⟨rfl, rfl⟩ := Prod.mk.inj hnext
    obtain ⟨received, htask, hturned⟩ := turned_scan ht
    split_ifs at hturned with hdue
    · have hinput : inputOf s.engine (.scan index now answers) =
          some (index, .poll (received.getD now), answers) := by
        rw [inputOf, htask]
        exact if_pos hdue
      rw [hinput] at heq
      obtain ⟨rfl, rfl⟩ := Prod.mk.inj heq
      exact .input hallowed hturned
    · have hinput : inputOf s.engine (.scan index now answers) = none := by
        rw [inputOf, htask]
        exact if_neg hdue
      rw [hinput] at heq
      obtain ⟨rfl, rfl⟩ := Prod.mk.inj heq
      exact .early hallowed hturned
  | flush index answers =>
    obtain ⟨t, ht, hnext⟩ := Option.map_eq_some_iff.1 hstep
    obtain ⟨rfl, rfl⟩ := Prod.mk.inj hnext
    obtain ⟨rfl, rfl⟩ := Prod.mk.inj heq
    exact .input hallowed (turned_flush ht)
  | handleSnapshot index grows accepted =>
    obtain ⟨t, ht, hnext⟩ := Option.map_eq_some_iff.1 hstep
    obtain ⟨rfl, rfl⟩ := Prod.mk.inj hnext
    obtain ⟨message, hheld, htask, hidle, rfl⟩ := handleSnapshotStep_offer ht
    dsimp only at heq
    rw [hheld] at heq
    obtain ⟨rfl, rfl⟩ := Prod.mk.inj heq
    exact .message hallowed htask hheld hidle
  | publishTick index =>
    obtain ⟨ticks, hspin, hticks⟩ := Option.map_eq_some_iff.1 hstep
    obtain ⟨rfl, rfl⟩ := Prod.mk.inj hticks
    obtain ⟨rfl, rfl⟩ := Prod.mk.inj heq
    exact .publishTick hallowed hspin
  | publishSnapshot index =>
    obtain ⟨snapshots, hspin, hsnapshots⟩ := Option.map_eq_some_iff.1 hstep
    obtain ⟨rfl, rfl⟩ := Prod.mk.inj hsnapshots
    obtain ⟨rfl, rfl⟩ := Prod.mk.inj heq
    exact .publishSnapshot hallowed hspin
  | callPollTick owner => cases hallowed
  | pollTick owner => cases hallowed
  | callPollSnapshot owner => cases hallowed
  | pollSnapshot owner => cases hallowed

theorem moves_drain {owner : Fin cfg.engine.instrumentWorkers}
    (h : drainStep s owner = some (s', new)) : Moves stopper s s' new := by
  rw [drainStep] at h
  split at h
  · next hstage =>
    obtain ⟨rfl, rfl⟩ := Prod.mk.inj (Option.some.inj h)
    exact .test hstage
  · next kind hstage =>
    obtain ⟨⟨t, events, answer⟩, hpoll, heq⟩ := Option.map_eq_some_iff.1 h
    obtain ⟨rfl, rfl⟩ := Prod.mk.inj heq
    exact .poll hstage hpoll
  · next kind hstage =>
    obtain ⟨rfl, rfl⟩ := Prod.mk.inj (Option.some.inj h)
    exact .consume hstage
  · cases h

theorem moves_of_step {action : Action cfg threads stops}
    (h : step stopper s action = some (s', new)) : Moves stopper s s' new := by
  cases action with
  | engine action => exact moves_engine h
  | publishLate index =>
    obtain ⟨t, ht, heq⟩ := Option.map_eq_some_iff.1 h
    obtain ⟨rfl, rfl⟩ := Prod.mk.inj heq
    rw [publishLateStep] at ht
    split_ifs at ht with hcounted
    obtain ⟨lates, hspin, rfl⟩ := Option.map_eq_some_iff.1 ht
    exact .publishLate hcounted hspin
  | publishFault index =>
    obtain ⟨t, ht, heq⟩ := Option.map_eq_some_iff.1 h
    obtain ⟨rfl, rfl⟩ := Prod.mk.inj heq
    rw [publishFaultStep] at ht
    split_ifs at ht with hcounted
    obtain ⟨faults, hspin, rfl⟩ := Option.map_eq_some_iff.1 ht
    exact .publishFault hcounted hspin
  | count kind index =>
    obtain ⟨t, ht, heq⟩ := Option.map_eq_some_iff.1 h
    obtain ⟨rfl, rfl⟩ := Prod.mk.inj heq
    rw [countStep] at ht
    split_ifs at ht with huncounted
    obtain rfl := Option.some.inj ht
    exact .count huncounted
  | drain owner => exact moves_drain h
  | main connected =>
    obtain ⟨t, ht, heq⟩ := Option.map_eq_some_iff.1 h
    obtain ⟨rfl, rfl⟩ := Prod.mk.inj heq
    exact .main ht

end Moves

end Ingestd

end L2Flow
