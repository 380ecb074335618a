import L2Flow.Canonical
import L2Flow.LinearProbing
import L2Flow.QueueMatrix

/-!
# Polling

An owner polls its queues in turn, from the one after the queue that it popped last. The lanes
push meanwhile, between any two steps of a poll and of the `TryPop` it is in, so the calls are
taken apart into the steps of the rings here; `QueueMatrix` takes each `TryPop` as one
(`runFrom_pollPass`).

A lane that waits is served. The distance from the cursor to its queue is less than the number
of lanes, every poll that returns with another lane's record brings the cursor nearer, and no
poll passes the queue by (`Waiting`). And a poll that returns false has found every queue it
looks at empty (`Looking`).

What a poll computes from its cursor and from the answer of `TryPop` is its own, and belongs to
the last step of that `TryPop`.
-/

namespace L2Flow

/-- The sizes that a `Dispatcher` is constructed with. -/
structure DispatcherSizes where
  tickProducers : ℕ
  snapshotProducers : ℕ
  owners : ℕ
  queueCapacity : RingCapacity
  faultCapacity : RingCapacity
  lateRecoveryCapacity : RingCapacity

namespace DispatcherSizes

variable (sizes : DispatcherSizes)

/-- What `TryPollTick` polls. -/
def tickQueues : MatrixShape :=
  ⟨sizes.tickProducers, sizes.owners, sizes.queueCapacity⟩

/-- What `TryPollSnapshot` polls. -/
def snapshotQueues : MatrixShape :=
  ⟨sizes.snapshotProducers, sizes.owners, sizes.queueCapacity⟩

/-- What `TryPollLateRecovery` polls : a queue for each producer, and one cursor. -/
def lateRecoveryQueues : MatrixShape :=
  ⟨sizes.tickProducers, 1, sizes.lateRecoveryCapacity⟩

/-- What `TryPollFault` polls. -/
def faultQueues : MatrixShape :=
  ⟨sizes.tickProducers, 1, sizes.faultCapacity⟩

end DispatcherSizes

namespace Polling

open QueueMatrix (place)

variable {α : Type*} {shape : MatrixShape}

/-! ## The steps -/

/-- The queues with the threads in them, and the cursor of each owner and the pass its poll is
at. -/
structure State (α : Type*) (shape : MatrixShape) where
  rings : ℕ → Ring.State α shape.capacity
  cursors : ℕ → ℕ := fun _ => 0
  polls : ℕ → Option ℕ := fun _ => none

inductive Event (α : Type*) where
  | called (owner : ℕ)
  | polled (answer : Polled α)
  deriving DecidableEq

inductive Action (α : Type*) where
  /-- A lane calls `TryPush`. -/
  | tryPush (producer owner : ℕ) (value : α)
  | produce (producer owner : ℕ)
  /-- An owner polls. `output` says that its pointer is not null. -/
  | tryPoll (owner : ℕ) (output : Bool)
  | poll (owner : ℕ)

/-- The queue that a poll of the owner looks at in its pass `count`. -/
def State.producerAt (s : State α shape) (owner count : ℕ) : ℕ :=
  (s.cursors owner + count) % shape.producers

def State.setRing (s : State α shape) (index : ℕ) (ring : Ring.State α shape.capacity) :
    State α shape :=
  { s with rings := Function.update s.rings index ring }

section SetRing

variable (s : State α shape) (index : ℕ) (ring : Ring.State α shape.capacity)

@[simp] theorem setRing_polls : (s.setRing index ring).polls = s.polls :=
  rfl

@[simp] theorem setRing_producerAt : (s.setRing index ring).producerAt = s.producerAt :=
  rfl

@[simp] theorem setRing_rings : (s.setRing index ring).rings = Function.update s.rings index ring :=
  rfl

@[simp] theorem setRing_setRing (ring' : Ring.State α shape.capacity) :
    (s.setRing index ring).setRing index ring' = s.setRing index ring' := by
  simp [State.setRing]

end SetRing

/-- The next step of `TryPop`, its call included. -/
def popStep (ring : Ring.State α shape.capacity) :
    Option (Ring.State α shape.capacity × List (Ring.Event α)) :=
  match ring.consumer with
  | .idle => Ring.step ring .tryPop
  | _ => Ring.step ring .consume

/-- `TryPop` has returned to pass `count` of a poll, or has not. -/
def afterPop (s : State α shape) (owner count : ℕ) :
    List (Ring.Event α) → State α shape × List (Event α)
  | [.popped value] =>
    let producer := s.producerAt owner count
    ({ s with
        cursors := Function.update s.cursors owner ((producer + 1) % shape.producers)
        polls := Function.update s.polls owner none },
      [.polled (.returned owner producer value)])
  | [.nothing] => ({ s with polls := Function.update s.polls owner (some (count + 1)) }, [])
  | _ => (s, [])

/-- The next step of a poll. -/
def pollStep (s : State α shape) (owner : ℕ) : Option (State α shape × List (Event α)) :=
  match s.polls owner with
  | none => none
  | some count =>
    if count < shape.producers then
      let index := place shape (s.producerAt owner count) owner
      (popStep (s.rings index)).map fun next =>
        afterPop (s.setRing index next.1) owner count next.2
    else
      some ({ s with polls := Function.update s.polls owner none }, [.polled (.nothing owner)])

def step (s : State α shape) : Action α → Option (State α shape × List (Event α))
  | .tryPush producer owner value =>
    if producer < shape.producers ∧ owner < shape.owners then
      (Ring.step (s.rings (place shape producer owner)) (.tryPush value)).map fun next =>
        (s.setRing (place shape producer owner) next.1, [])
    else none
  | .produce producer owner =>
    if producer < shape.producers ∧ owner < shape.owners then
      (Ring.step (s.rings (place shape producer owner)) .produce).map fun next =>
        (s.setRing (place shape producer owner) next.1, [])
    else none
  | .tryPoll owner output =>
    match s.polls owner with
    | some _ => none
    | none =>
      if shape.owners ≤ owner ∨ output = false then
        some (s, [.called owner, .polled (.nothing owner)])
      else
        some ({ s with polls := Function.update s.polls owner (some 0) }, [.called owner])
  | .poll owner => pollStep s owner

/-- New queues, whose arrays hold `garbage`. -/
def machine (shape : MatrixShape) (garbage : ℕ → Fin shape.capacity.size → α) :
    Machine (State α shape) (Action α) (Event α) where
  start := { rings := fun i => { ring := { storage := garbage i } } }
  step := step

/-! ## Polls without interference -/

/-- The matrix, with no thread in a call of a ring. -/
def ofMatrix (m : QueueMatrix α shape) : State α shape where
  rings i := { ring := m.queues i }
  cursors := m.cursors
  polls := m.polls

theorem ofMatrix_setRing (m : QueueMatrix α shape) (index : ℕ) (ring : SpscRing α shape.capacity) :
    (ofMatrix m).setRing index { ring := ring } =
      ofMatrix { m with queues := Function.update m.queues index ring } :=
  congrArg (fun rings => ({ ofMatrix m with rings := rings } : State α shape))
    (Function.comp_update (fun ring => ({ ring := ring } : Ring.State α shape.capacity)) m.queues
      index ring).symm

/-- The steps of `TryPop` up to its answer. -/
inductive Pops : Ring.State α shape.capacity → Ring.State α shape.capacity → Ring.Event α →
    Prop where
  | answer {ring ring' : Ring.State α shape.capacity} {event : Ring.Event α}
      (hstep : popStep ring = some (ring', [event])) : Pops ring ring' event
  | more {ring ring' ring'' : Ring.State α shape.capacity} {events : List (Ring.Event α)}
      {event : Ring.Event α} (hstep : popStep ring = some (ring', events))
      (hquiet : events = [] ∨ events = [.callPop]) (rest : Pops ring' ring'' event) :
      Pops ring ring'' event

/-- They make up `tryPop`. -/
theorem pops_tryPop (ring : SpscRing α shape.capacity) :
    Pops { ring := ring } { ring := ring.tryPop.2 } (ring.tryPop.1.elim .nothing .popped) := by
  refine .more rfl (Or.inr rfl) ?_
  by_cases hcached : ring.cachedHead = ring.tail
  · refine .more (by simp only [popStep, Ring.step, Ring.consumeStep, hcached]; rfl) (Or.inl rfl) ?_
    by_cases hempty : ring.head = ring.tail
    · refine .answer ?_
      simp [popStep, Ring.step, Ring.consumeStep, SpscRing.tryPop, hcached, hempty]
    · refine .more (by simp only [popStep, Ring.step, Ring.consumeStep, hempty]; rfl)
        (Or.inl rfl) (.more rfl (Or.inl rfl) (.answer ?_))
      simp [popStep, Ring.step, Ring.consumeStep, SpscRing.tryPop, hcached, hempty]
  · refine .more (by simp only [popStep, Ring.step, Ring.consumeStep, hcached]; rfl) (Or.inl rfl)
      (.more rfl (Or.inl rfl) (.answer ?_))
    simp [popStep, Ring.step, Ring.consumeStep, SpscRing.tryPop, hcached]

/-- A step of a poll is a step of the `TryPop` that it is in. -/
theorem step_poll {s : State α shape} {owner count : ℕ} (hcount : s.polls owner = some count)
    (hmore : count < shape.producers) {ring ring' : Ring.State α shape.capacity}
    {events : List (Ring.Event α)} (hpop : popStep ring = some (ring', events)) :
    step (s.setRing (place shape (s.producerAt owner count) owner) ring) (.poll owner) =
      some (afterPop (s.setRing (place shape (s.producerAt owner count) owner) ring') owner count
        events) := by
  rw [step, pollStep, setRing_polls, hcount]
  simp [hmore, hpop]

theorem runFrom_pops {garbage : ℕ → Fin shape.capacity.size → α} {s : State α shape}
    {owner count : ℕ} (hcount : s.polls owner = some count) (hmore : count < shape.producers)
    {ring ring' : Ring.State α shape.capacity} {event : Ring.Event α} (h : Pops ring ring' event) :
    ∃ n, (machine shape garbage).runFrom
      (s.setRing (place shape (s.producerAt owner count) owner) ring)
      (List.replicate n (.poll owner)) =
        some (afterPop (s.setRing (place shape (s.producerAt owner count) owner) ring') owner count
          [event]) := by
  induction h with
  | answer hstep => exact ⟨1, Machine.runFrom_one.2 (step_poll hcount hmore hstep)⟩
  | @more ring ring' ring'' events event hstep hquiet _ ih =>
    obtain ⟨n, hrest⟩ := ih
    have hfirst := step_poll hcount hmore hstep
    have hsame : afterPop (s.setRing (place shape (s.producerAt owner count) owner) ring') owner
        count events = (s.setRing (place shape (s.producerAt owner count) owner) ring', []) := by
      rcases hquiet with rfl | rfl <;> rfl
    rw [hsame] at hfirst
    exact ⟨n + 1, Machine.runFrom_cons.2 ⟨_, _, _, hfirst, hrest, rfl⟩⟩

/-- A pass with no other thread between its steps is `pollPass`. -/
theorem runFrom_pollPass {garbage : ℕ → Fin shape.capacity.size → α} {m m' : QueueMatrix α shape}
    {owner : ℕ} {answers : List (Polled α)} (h : m.pollPass owner = some (m', answers)) :
    ∃ n, (machine shape garbage).runFrom (ofMatrix m) (List.replicate n (.poll owner)) =
      some (ofMatrix m', answers.map .polled) := by
  rw [QueueMatrix.pollPass] at h
  split at h
  · cases h
  · next count hcount =>
    split_ifs at h with hmore
    · dsimp only at h
      set index := place shape ((m.cursors owner + count) % shape.producers) owner
      obtain ⟨n, hrun⟩ := @runFrom_pops α shape garbage (ofMatrix m) owner count hcount hmore _ _ _
        (pops_tryPop (m.queues index))
      have hstart : (ofMatrix m).setRing index { ring := m.queues index } = ofMatrix m := by
        rw [ofMatrix_setRing, Function.update_eq_self]
      have hindex : place shape ((ofMatrix m).producerAt owner count) owner = index := rfl
      rw [hindex, hstart, ofMatrix_setRing] at hrun
      refine ⟨n, hrun.trans ?_⟩
      rcases hpopped : (m.queues index).tryPop.1 with - | value
      · rw [hpopped] at h
        obtain ⟨rfl, rfl⟩ := Prod.mk.inj (Option.some.inj h)
        rfl
      · rw [hpopped] at h
        obtain ⟨rfl, rfl⟩ := Prod.mk.inj (Option.some.inj h)
        rfl
    · obtain ⟨rfl, rfl⟩ := Prod.mk.inj (Option.some.inj h)
      refine ⟨1, ?_⟩
      simp [Machine.runFrom, machine, step, pollStep, ofMatrix, hcount, hmore]

/-! ## What a step can do -/

/-- The elements move on by what a step reports. -/
theorem contents_step {ring ring' : Ring.State α shape.capacity} {log new : List (Ring.Event α)}
    {action : Ring.Action α} (h : Ring.Inv ring log)
    (hstep : Ring.step ring action = some (ring', new)) :
    ring.ring.contents ++ Ring.pushedOf new = Ring.poppedOf new ++ ring'.ring.contents := by
  have hbefore := h.conserved
  have hafter := (Ring.inv_step h hstep).conserved
  simp only [Ring.pushedOf, Ring.poppedOf, List.filterMap_append, List.append_assoc] at *
  rw [hbefore, List.append_assoc] at hafter
  exact List.append_cancel_left hafter

theorem poppedOf_produce {ring ring' : Ring.State α shape.capacity} {new : List (Ring.Event α)}
    (hstep : Ring.produceStep ring = some (ring', new)) : Ring.poppedOf new = [] := by
  rcases Ring.produceStep_produces hstep with _ | _ | _ | _ | _ | _ <;> rfl

/-- A step of a producer leaves what the ring holds at the front. -/
theorem prefix_contents {ring ring' : Ring.State α shape.capacity}
    {log new : List (Ring.Event α)} {action : Ring.Action α} (h : Ring.Inv ring log)
    (hproducer : action = .produce ∨ ∃ value, action = .tryPush value)
    (hstep : Ring.step ring action = some (ring', new)) :
    ring.ring.contents <+: ring'.ring.contents := by
  have hcontents := contents_step h hstep
  have hnone : Ring.poppedOf new = [] := by
    rcases hproducer with rfl | ⟨value, rfl⟩
    · exact poppedOf_produce hstep
    · rw [Ring.step] at hstep
      split at hstep
      · obtain ⟨-, rfl⟩ := Prod.mk.inj (Option.some.inj hstep)
        rfl
      · cases hstep
  rw [hnone, List.nil_append] at hcontents
  exact ⟨_, hcontents⟩

/-- What a step of `TryPop` reports. -/
theorem popStep_reports {ring ring' : Ring.State α shape.capacity} {log new : List (Ring.Event α)}
    (h : Ring.Inv ring log) (hstep : popStep ring = some (ring', new)) :
    (∃ action, Ring.step ring action = some (ring', new)) ∧
      ((∃ value, new = [.popped value]) ∨ (new = [.nothing] ∧ ring.ring.contents = []) ∨
        new = [] ∨ new = [.callPop]) := by
  have hconsumer := h.consumer
  rw [popStep] at hstep
  split at hstep
  · next hidle =>
    refine ⟨⟨_, hstep⟩, Or.inr (Or.inr (Or.inr ?_))⟩
    simp only [Ring.step, hidle] at hstep
    exact (Prod.mk.inj (Option.some.inj hstep)).2.symm
  · refine ⟨⟨_, hstep⟩, ?_⟩
    rcases Ring.consumeStep_consumes hstep with - | - | ⟨hdrained, hempty⟩ | - | - | -
    · exact Or.inr (Or.inr (Or.inl rfl))
    · exact Or.inr (Or.inr (Or.inl rfl))
    · -- the pop finds nothing : `head_` has just been loaded, and is `tail_`
      rw [hdrained] at hconsumer
      obtain rfl : _ = ring.ring.tail := hconsumer
      exact Or.inr (Or.inl ⟨rfl, SpscRing.contents_eq_nil hempty⟩)
    · exact Or.inr (Or.inr (Or.inl rfl))
    · exact Or.inr (Or.inr (Or.inl rfl))
    · exact Or.inl ⟨_, rfl⟩

/-- A step of `TryPop` takes the first element, or finds the ring empty, or does not end. -/
theorem popStep_cases {ring ring' : Ring.State α shape.capacity} {log new : List (Ring.Event α)}
    (h : Ring.Inv ring log) (hstep : popStep ring = some (ring', new)) :
    (∃ log', Ring.Inv ring' log') ∧
      ((∃ value, new = [.popped value] ∧ ring.ring.contents = value :: ring'.ring.contents) ∨
        (new = [.nothing] ∧ ring.ring.contents = [] ∧ ring'.ring.contents = []) ∨
        ((new = [] ∨ new = [.callPop]) ∧ ring'.ring.contents = ring.ring.contents)) := by
  obtain ⟨⟨action, haction⟩, hreports⟩ := popStep_reports h hstep
  have hcontents := contents_step h haction
  refine ⟨⟨_, Ring.inv_step h haction⟩, ?_⟩
  rcases hreports with ⟨value, rfl⟩ | ⟨rfl, hempty⟩ | hquiet
  · exact Or.inl ⟨value, rfl, by simpa [Ring.pushedOf, Ring.poppedOf] using hcontents⟩
  · rw [hempty] at hcontents
    exact Or.inr (Or.inl ⟨rfl, hempty, hcontents.symm⟩)
  · refine Or.inr (Or.inr ⟨hquiet, ?_⟩)
    rcases hquiet with rfl | rfl
    · simpa [Ring.pushedOf, Ring.poppedOf] using hcontents.symm
    · simpa [Ring.pushedOf, Ring.poppedOf] using hcontents.symm

/-- The queues are rings, and only an owner polls. -/
structure Sound (s : State α shape) : Prop where
  rings : ∀ i, ∃ log, Ring.Inv (s.rings i) log
  inside : ∀ owner, s.polls owner ≠ none → owner < shape.owners

/-- What the owner's queue of a producer holds. -/
def State.waiting (s : State α shape) (producer owner : ℕ) : List α :=
  (s.rings (place shape producer owner)).ring.contents

/-- The steps, as far as what the queues hold, the cursors and the polls are concerned. -/
inductive Moves (s : State α shape) :
    Action α → State α shape → List (Event α) → Prop where
  /-- A lane goes on with a push. -/
  | push {action : Action α} {producer owner : ℕ} {ring : Ring.State α shape.capacity}
      (inside : owner < shape.owners)
      (pushes : action = .produce producer owner ∨ ∃ value, action = .tryPush producer owner value)
      (grows : s.waiting producer owner <+: ring.ring.contents) :
      Moves s action (s.setRing (place shape producer owner) ring) []
  /-- A poll is called. -/
  | call {owner : ℕ} (inside : owner < shape.owners) (idle : s.polls owner = none) :
      Moves s (.tryPoll owner true)
        { s with polls := Function.update s.polls owner (some 0) } [.called owner]
  /-- A poll is called that looks at no queue. -/
  | decline {owner : ℕ} {output : Bool} (idle : s.polls owner = none) :
      Moves s (.tryPoll owner output) s [.called owner, .polled (.nothing owner)]
  /-- A poll goes on with `TryPop`. -/
  | look {owner count : ℕ} {ring : Ring.State α shape.capacity}
      (polling : s.polls owner = some count) (more : count < shape.producers)
      (same : ring.ring.contents = s.waiting (s.producerAt owner count) owner) :
      Moves s (.poll owner) (s.setRing (place shape (s.producerAt owner count) owner) ring) []
  /-- A queue is found empty. -/
  | skip {owner count : ℕ} {ring : Ring.State α shape.capacity}
      (polling : s.polls owner = some count) (more : count < shape.producers)
      (empty : s.waiting (s.producerAt owner count) owner = [])
      (same : ring.ring.contents = []) :
      Moves s (.poll owner)
        { s.setRing (place shape (s.producerAt owner count) owner) ring with
          polls := Function.update s.polls owner (some (count + 1)) } []
  /-- A record is polled. -/
  | pop {owner count : ℕ} {ring : Ring.State α shape.capacity} {value : α}
      (polling : s.polls owner = some count) (more : count < shape.producers)
      (first : s.waiting (s.producerAt owner count) owner = value :: ring.ring.contents) :
      Moves s (.poll owner)
        { s.setRing (place shape (s.producerAt owner count) owner) ring with
          cursors := Function.update s.cursors owner
            ((s.producerAt owner count + 1) % shape.producers)
          polls := Function.update s.polls owner none }
        [.polled (.returned owner (s.producerAt owner count) value)]
  /-- The loop is over. -/
  | exhaust {owner count : ℕ} (polling : s.polls owner = some count)
      (last : shape.producers ≤ count) :
      Moves s (.poll owner) { s with polls := Function.update s.polls owner none }
        [.polled (.nothing owner)]

section Steps

variable {s s' : State α shape} {new : List (Event α)}

theorem Sound.setRing (hs : Sound s) {index : ℕ} {ring : Ring.State α shape.capacity}
    (hring : ∃ log, Ring.Inv ring log) : Sound (s.setRing index ring) where
  rings := (Function.forall_update_iff s.rings fun _ ring => ∃ log, Ring.Inv ring log).2
    ⟨hring, fun i _ => hs.rings i⟩
  inside := hs.inside

theorem Sound.setPoll (hs : Sound s) {owner : ℕ} (howner : owner < shape.owners)
    (cursors : ℕ → ℕ) (pass : Option ℕ) :
    Sound { s with cursors := cursors, polls := Function.update s.polls owner pass } where
  rings := hs.rings
  inside owner' h := by
    rcases eq_or_ne owner' owner with rfl | hne
    · exact howner
    · exact hs.inside owner' (by simpa [hne] using h)

theorem push_moves (hs : Sound s) {action : Action α} {producer owner : ℕ}
    {pushing : Ring.Action α} (inside : owner < shape.owners)
    (hpushing : pushing = .produce ∨ ∃ value, pushing = .tryPush value)
    (hpushes : action = .produce producer owner ∨ ∃ value, action = .tryPush producer owner value)
    (h : (Ring.step (s.rings (place shape producer owner)) pushing).map (fun next =>
      (s.setRing (place shape producer owner) next.1, ([] : List (Event α)))) = some (s', new)) :
    Sound s' ∧ Moves s action s' new := by
  obtain ⟨⟨ring, events⟩, hring, heq⟩ := Option.map_eq_some_iff.1 h
  obtain ⟨rfl, rfl⟩ := Prod.mk.inj heq
  obtain ⟨log, hinv⟩ := hs.rings (place shape producer owner)
  exact ⟨hs.setRing ⟨_, Ring.inv_step hinv hring⟩,
    .push inside hpushes (prefix_contents hinv hpushing hring)⟩

theorem pollStep_moves (hs : Sound s) {owner : ℕ} (h : pollStep s owner = some (s', new)) :
    Sound s' ∧ Moves s (.poll owner) s' new := by
  rw [pollStep] at h
  split at h
  · cases h
  · next count hcount =>
    have howner : owner < shape.owners := hs.inside owner (by simp [hcount])
    split_ifs at h with hmore
    · obtain ⟨⟨ring, events⟩, hpop, heq⟩ := Option.map_eq_some_iff.1 h
      obtain ⟨log, hinv⟩ := hs.rings (place shape (s.producerAt owner count) owner)
      obtain ⟨hring, hcases⟩ := popStep_cases hinv hpop
      have hsound : Sound (s.setRing (place shape (s.producerAt owner count) owner) ring) :=
        hs.setRing hring
      rcases hcases with ⟨value, rfl, hfirst⟩ | ⟨rfl, hempty, hafter⟩ | ⟨hquiet, hsame⟩
      · obtain ⟨rfl, rfl⟩ := Prod.mk.inj heq
        exact ⟨hsound.setPoll howner _ none, .pop hcount hmore hfirst⟩
      · obtain ⟨rfl, rfl⟩ := Prod.mk.inj heq
        exact ⟨hsound.setPoll howner s.cursors (some (count + 1)),
          .skip hcount hmore hempty hafter⟩
      · have hlook : afterPop (s.setRing (place shape (s.producerAt owner count) owner) ring)
            owner count events =
            (s.setRing (place shape (s.producerAt owner count) owner) ring, []) := by
          rcases hquiet with rfl | rfl <;> rfl
        obtain ⟨rfl, rfl⟩ := Prod.mk.inj (hlook.symm.trans heq)
        exact ⟨hsound, .look hcount hmore hsame⟩
    · obtain ⟨rfl, rfl⟩ := Prod.mk.inj (Option.some.inj h)
      exact ⟨hs.setPoll howner s.cursors none, .exhaust hcount (Nat.le_of_not_lt hmore)⟩

theorem step_moves (hs : Sound s) {action : Action α} (h : step s action = some (s', new)) :
    Sound s' ∧ Moves s action s' new := by
  rcases action with ⟨producer, owner, value⟩ | ⟨producer, owner⟩ | ⟨owner, output⟩ | owner
  · rw [step] at h
    split_ifs at h with hinside
    exact push_moves hs hinside.2 (Or.inr ⟨value, rfl⟩) (Or.inr ⟨value, rfl⟩) h
  · rw [step] at h
    split_ifs at h with hinside
    exact push_moves hs hinside.2 (Or.inl rfl) (Or.inl rfl) h
  · rw [step] at h
    split at h
    · cases h
    · next hidle =>
      split_ifs at h with hdecline
      · obtain ⟨rfl, rfl⟩ := Prod.mk.inj (Option.some.inj h)
        exact ⟨hs, .decline hidle⟩
      · obtain ⟨rfl, rfl⟩ := Prod.mk.inj (Option.some.inj h)
        rw [not_or, Nat.not_le, Bool.not_eq_false] at hdecline
        obtain ⟨howner, rfl⟩ := hdecline
        exact ⟨hs.setPoll howner s.cursors (some 0), .call howner hidle⟩
  · exact pollStep_moves hs h

theorem sound_of_reaches {garbage : ℕ → Fin shape.capacity.size → α} {log : List (Event α)}
    (h : (machine shape garbage).Reaches s log) : Sound s :=
  Machine.invariant (I := fun s _ => Sound s)
    ⟨fun i => ⟨[], @Ring.inv_start α shape.capacity (garbage i)⟩, fun _ hne => absurd rfl hne⟩
    (fun hs hstep => (step_moves hs hstep).1) h

/-! ## A lane that waits -/

/-- The event is the return of a poll of the owner with a record. -/
def Event.serves (owner : ℕ) : Event α → Bool
  | .polled (.returned owner' _ _) => owner' = owner
  | _ => false

/-- The number of polls of the owner that returned with a record. -/
def served (owner : ℕ) (log : List (Event α)) : ℕ :=
  log.countP (Event.serves owner)

/-- The lane's queue is not empty, and it comes before all lanes have been served : its distance
from the cursor and the number of polls served add up to less than the number of lanes, and a
poll in progress has not passed it. -/
structure Waiting (s : State α shape) (owner lane count : ℕ) : Prop where
  waits : s.waiting lane owner ≠ []
  near : ∃ distance, (s.cursors owner + distance) % shape.producers = lane ∧
    count + distance < shape.producers ∧ ∀ pass, s.polls owner = some pass → pass ≤ distance

theorem waiting_setRing_self (s : State α shape) (producer owner : ℕ)
    (ring : Ring.State α shape.capacity) :
    (s.setRing (place shape producer owner) ring).waiting producer owner = ring.ring.contents := by
  simp [State.waiting, State.setRing]

theorem waiting_setRing_ne (s : State α shape) {producer owner producer' owner' : ℕ}
    (howner : owner < shape.owners) (howner' : owner' < shape.owners)
    (hne : ¬(producer' = producer ∧ owner' = owner)) (ring : Ring.State α shape.capacity) :
    (s.setRing (place shape producer owner) ring).waiting producer' owner' =
      s.waiting producer' owner' := by
  have hplace : place shape producer' owner' ≠ place shape producer owner := fun heq =>
    hne ((QueueMatrix.place_eq_iff howner' howner).1 heq)
  simp [State.waiting, State.setRing, hplace]

/-- A step of another owner's poll, or of a lane, keeps the lane waiting. -/
theorem Waiting.aside {owner lane count : ℕ} (hs : Waiting s owner lane count)
    (hwaits : s'.waiting lane owner ≠ []) (hcursor : s'.cursors owner = s.cursors owner)
    (hpoll : s'.polls owner = s.polls owner) : Waiting s' owner lane count := by
  obtain ⟨distance, hlane, hlt, hpass⟩ := hs.near
  exact ⟨hwaits, distance, hcursor ▸ hlane, hlt, hpoll ▸ hpass⟩

/-- The owner finds the lane's queue when the pass is the distance to it, and not later. -/
theorem pass_lt {lane distance pass producers cursor : ℕ}
    (hlane : (cursor + distance) % producers = lane) (hpass : pass ≤ distance)
    (hother : (cursor + pass) % producers ≠ lane) : pass < distance := by
  rcases Nat.lt_or_eq_of_le hpass with hlt | rfl
  · exact hlt
  · exact absurd hlane hother

/-- A poll of another lane brings the cursor nearer. -/
theorem next_cursor {lane distance pass producers cursor : ℕ}
    (hlane : (cursor + distance) % producers = lane) (hpass : pass < distance) :
    (((cursor + pass) % producers + 1) % producers + (distance - pass - 1)) % producers = lane := by
  have hsum : cursor + pass + 1 + (distance - pass - 1) = cursor + distance := by omega
  rw [Nat.mod_add_mod, Nat.add_assoc, Nat.mod_add_mod, ← Nat.add_assoc, hsum, hlane]

/-- What a lane's queue holds stays there until the lane is served. -/
theorem Moves.waits {action : Action α} (h : Moves s action s' new) (hs : Sound s)
    {owner lane : ℕ} (howner : owner < shape.owners) (hwaits : s.waiting lane owner ≠ []) :
    (∃ value, .polled (.returned owner lane value) ∈ new) ∨ s'.waiting lane owner ≠ [] := by
  rcases h with @⟨_, producer, owner', ring, inside, -, grows⟩ | _ | _ |
    @⟨owner', pass, ring, polling, more, same⟩ | @⟨owner', pass, ring, polling, more, empty, same⟩ |
    @⟨owner', pass, ring, value, polling, more, first⟩ | _
  · right
    by_cases hsame : lane = producer ∧ owner = owner'
    · obtain ⟨rfl, rfl⟩ := hsame
      rw [waiting_setRing_self]
      exact fun hnil => hwaits (List.prefix_nil.1 (hnil ▸ grows))
    · rwa [waiting_setRing_ne s inside howner hsame]
  · exact Or.inr hwaits
  · exact Or.inr hwaits
  · right
    have howner' : owner' < shape.owners := hs.inside owner' (by simp [polling])
    by_cases hsame : lane = s.producerAt owner' pass ∧ owner = owner'
    · obtain ⟨rfl, rfl⟩ := hsame
      rwa [waiting_setRing_self, same]
    · rwa [waiting_setRing_ne s howner' howner hsame]
  · right
    have howner' : owner' < shape.owners := hs.inside owner' (by simp [polling])
    have hsame : ¬(lane = s.producerAt owner' pass ∧ owner = owner') := by
      rintro ⟨rfl, rfl⟩
      exact hwaits empty
    rwa [← waiting_setRing_ne s howner' howner hsame ring] at hwaits
  · have howner' : owner' < shape.owners := hs.inside owner' (by simp [polling])
    by_cases hsame : lane = s.producerAt owner' pass ∧ owner = owner'
    · obtain ⟨rfl, rfl⟩ := hsame
      exact Or.inl ⟨value, List.mem_singleton_self _⟩
    · right
      rwa [← waiting_setRing_ne s howner' howner hsame ring] at hwaits
  · exact Or.inr hwaits

/-- No poll passes a waiting lane by. -/
theorem Moves.waiting {action : Action α} (h : Moves s action s' new) (hs : Sound s)
    {owner lane count : ℕ} (howner : owner < shape.owners) (hw : Waiting s owner lane count) :
    (∃ value, .polled (.returned owner lane value) ∈ new) ∨
      Waiting s' owner lane (count + served owner new) := by
  obtain ⟨distance, hlane, hlt, hpass⟩ := hw.near
  rcases h.waits hs howner hw.waits with hserved | hwaits
  · exact Or.inl hserved
  rcases h with _ | @⟨owner', inside, idle⟩ | _ | _ | @⟨owner', pass, ring, polling, more, empty⟩ |
    @⟨owner', pass, ring, value, polling, more, first⟩ | @⟨owner', pass, polling, last⟩
  · exact Or.inr (hw.aside hwaits rfl rfl)
  · right
    rcases eq_or_ne owner owner' with rfl | hne
    · refine ⟨hwaits, distance, hlane, hlt, fun pass hpass' => ?_⟩
      obtain rfl : 0 = pass := by simpa using hpass'
      exact Nat.zero_le distance
    · exact hw.aside hwaits rfl (Function.update_of_ne hne ..)
  · exact Or.inr hw
  · exact Or.inr (hw.aside hwaits rfl rfl)
  · right
    rcases eq_or_ne owner owner' with rfl | hne
    · have hother : s.producerAt owner pass ≠ lane := fun heq => hw.waits (heq ▸ empty)
      have hnext : pass < distance := pass_lt hlane (hpass pass polling) hother
      refine ⟨hwaits, distance, hlane, hlt, fun pass' hpass' => ?_⟩
      obtain rfl : pass + 1 = pass' := by simpa using hpass'
      exact hnext
    · exact hw.aside hwaits rfl (Function.update_of_ne hne ..)
  · rcases eq_or_ne owner owner' with rfl | hne
    · by_cases heq : s.producerAt owner pass = lane
      · exact Or.inl ⟨value, heq ▸ List.mem_singleton_self _⟩
      · have hnext : pass < distance := pass_lt hlane (hpass pass polling) heq
        refine Or.inr ⟨hwaits, distance - pass - 1, ?_, ?_, fun pass' hpass' => ?_⟩
        · simpa [State.producerAt] using next_cursor hlane hnext
        · have hserved : served owner
              [Event.polled (.returned owner (s.producerAt owner pass) value)] = 1 := by
            simp [served, Event.serves]
          omega
        · simp at hpass'
    · have hserved : served owner
          [Event.polled (.returned owner' (s.producerAt owner' pass) value)] = 0 := by
        simp [served, Event.serves, Ne.symm hne]
      rw [hserved]
      exact Or.inr (hw.aside hwaits (Function.update_of_ne hne ..) (Function.update_of_ne hne ..))
  · rcases eq_or_ne owner owner' with rfl | hne
    · have hle := hpass pass polling
      omega
    · exact Or.inr (hw.aside hwaits rfl (Function.update_of_ne hne ..))

/-! ## A poll that finds nothing -/

/-- The event is the return of a poll of the owner. -/
def Event.ends (owner : ℕ) : Event α → Prop
  | .called _ => False
  | .polled (.returned owner' _ _) => owner' = owner
  | .polled (.nothing owner') => owner' = owner

/-- A step before the poll returns leaves it at its pass, or at the next after an empty queue. -/
theorem Moves.looking {action : Action α} (h : Moves s action s' new) {owner count : ℕ}
    (hpolling : s.polls owner = some count) (hopen : ∀ event ∈ new, ¬event.ends owner) :
    s'.cursors owner = s.cursors owner ∧ (s'.polls owner = some count ∨
      (s'.polls owner = some (count + 1) ∧ s.waiting (s.producerAt owner count) owner = [])) := by
  rcases h with @⟨_, producer, owner', ring, inside, -, grows⟩ | @⟨owner', inside, idle⟩ | ⟨idle⟩ |
    @⟨owner', pass, ring, polling, more, same⟩ | @⟨owner', pass, ring, polling, more, empty, same⟩ |
    @⟨owner', pass, ring, value, polling, more, first⟩ | @⟨owner', pass, polling, last⟩
  · exact ⟨rfl, Or.inl hpolling⟩
  · have hne : owner ≠ owner' := by
      rintro rfl
      simp [idle] at hpolling
    exact ⟨rfl, Or.inl ((Function.update_of_ne hne ..).trans hpolling)⟩
  · exact ⟨rfl, Or.inl hpolling⟩
  · exact ⟨rfl, Or.inl hpolling⟩
  · refine ⟨rfl, ?_⟩
    rcases eq_or_ne owner owner' with rfl | hne
    · obtain rfl := Option.some.inj (polling.symm.trans hpolling)
      exact Or.inr ⟨Function.update_self .., empty⟩
    · exact Or.inl ((Function.update_of_ne hne ..).trans hpolling)
  · have hne : owner ≠ owner' := fun heq => hopen _ (List.mem_singleton_self _) heq.symm
    exact ⟨Function.update_of_ne hne .., Or.inl ((Function.update_of_ne hne ..).trans hpolling)⟩
  · have hne : owner ≠ owner' := fun heq => hopen _ (List.mem_singleton_self _) heq.symm
    exact ⟨rfl, Or.inl ((Function.update_of_ne hne ..).trans hpolling)⟩

/-- A poll in progress returns false at the end of its loop. -/
theorem Moves.exhausted {action : Action α} (h : Moves s action s' new) {owner count : ℕ}
    (hpolling : s.polls owner = some count) (hnothing : .polled (.nothing owner) ∈ new) :
    shape.producers ≤ count := by
  rcases h with _ | ⟨inside, idle⟩ | ⟨idle⟩ | _ | _ | _ | ⟨polling, last⟩
  · cases hnothing
  · simp at hnothing
  · simp at hnothing
    subst hnothing
    simp [idle] at hpolling
  · cases hnothing
  · cases hnothing
  · simp at hnothing
  · simp at hnothing
    subst hnothing
    obtain rfl := Option.some.inj (polling.symm.trans hpolling)
    exact last

/-- A poll that does not return at once starts at pass 0. -/
theorem step_tryPoll {owner : ℕ} {output : Bool}
    (h : step s (.tryPoll owner output) = some (s', new))
    (hopen : ∀ event ∈ new, ¬event.ends owner) : s'.polls owner = some 0 := by
  rw [step] at h
  split at h
  · cases h
  · split_ifs at h
    · obtain ⟨rfl, rfl⟩ := Prod.mk.inj (Option.some.inj h)
      exact absurd rfl (hopen (.polled (.nothing owner)) (by simp))
    · obtain ⟨rfl, rfl⟩ := Prod.mk.inj (Option.some.inj h)
      exact Function.update_self ..

end Steps

/-! ## Runs -/

section Runs

variable {garbage : ℕ → Fin shape.capacity.size → α} {s t : State α shape}
  {actions : List (Action α)} {more : List (Event α)}

/-- Until the lane has been served, it waits. -/
theorem served_or_waiting (hs : Sound s) {owner lane count : ℕ} (howner : owner < shape.owners)
    (hw : Waiting s owner lane count)
    (hrun : (machine shape garbage).runFrom s actions = some (t, more)) :
    (∃ value, .polled (.returned owner lane value) ∈ more) ∨
      Waiting t owner lane (count + served owner more) := by
  have hall : Sound t ∧ ((∃ value, .polled (.returned owner lane value) ∈ [] ++ more) ∨
      Waiting t owner lane (count + served owner ([] ++ more))) := by
    refine Machine.invariant_runFrom (P := fun _ => True)
      (I := fun u log => Sound u ∧ ((∃ value, .polled (.returned owner lane value) ∈ log) ∨
        Waiting u owner lane (count + served owner log))) ?_ (fun _ _ => trivial) ⟨hs, Or.inr hw⟩
      hrun
    rintro u log action u' new - ⟨hu, hkept⟩ hstep
    obtain ⟨hu', hmoves⟩ := step_moves hu hstep
    refine ⟨hu', ?_⟩
    rcases hkept with ⟨value, hvalue⟩ | hwaiting
    · exact Or.inl ⟨value, List.mem_append_left new hvalue⟩
    · rcases hmoves.waiting hu howner hwaiting with ⟨value, hvalue⟩ | hwaiting'
      · exact Or.inl ⟨value, List.mem_append_right log hvalue⟩
      · right
        rwa [served, List.countP_append, ← Nat.add_assoc]
  exact hall.2

/-- The poll that started in `s` has come to a pass, and has met the queues of the passes before
it empty. -/
structure Looking (garbage : ℕ → Fin shape.capacity.size → α) (s : State α shape) (owner : ℕ)
    (actions : List (Action α)) (t : State α shape) : Prop where
  cursor : t.cursors owner = s.cursors owner
  passes : ∃ count, t.polls owner = some count ∧ ∀ pass < count,
    (machine shape garbage).Meets s actions fun u => u.waiting (s.producerAt owner pass) owner = []

theorem Looking.step (h : Looking garbage s owner actions t) {u : State α shape}
    {action : Action α} {new : List (Event α)}
    (hrun : (machine shape garbage).runFrom s actions = some (t, more))
    (hmoves : Moves t action u new) (hopen : ∀ event ∈ new, ¬event.ends owner) :
    Looking garbage s owner (actions ++ [action]) u := by
  obtain ⟨count, hcount, hmet⟩ := h.passes
  obtain ⟨hcursor, hpoll⟩ := hmoves.looking hcount hopen
  refine ⟨hcursor.trans h.cursor, ?_⟩
  rcases hpoll with hsame | ⟨hnext, hempty⟩
  · exact ⟨count, hsame, fun pass hpass => (hmet pass hpass).append [action]⟩
  · refine ⟨count + 1, hnext, fun pass hpass => ?_⟩
    rcases Nat.lt_succ_iff_lt_or_eq.1 hpass with hlt | rfl
    · exact (hmet pass hlt).append [action]
    · have hat : t.producerAt owner pass = s.producerAt owner pass := by
        rw [State.producerAt, h.cursor, State.producerAt]
      exact (Machine.meets_of_runFrom hrun (hat ▸ hempty)).append [action]

/-- A poll that has not returned is looking. -/
theorem looking_of_runFrom (hs : Sound s) {owner : ℕ} (hstart : s.polls owner = some 0)
    (hrun : (machine shape garbage).runFrom s actions = some (t, more))
    (hopen : ∀ event ∈ more, ¬event.ends owner) :
    Sound t ∧ Looking garbage s owner actions t := by
  have hall := Machine.invariant_actions (M := machine shape garbage)
    (I := fun actions t log => Sound t ∧ ((∀ event ∈ log, ¬event.ends owner) →
      Looking garbage s owner actions t)) ⟨hs, fun _ => ?_⟩ ?_ hrun
  · exact ⟨hall.1, hall.2 hopen⟩
  · exact ⟨rfl, 0, hstart, fun pass hpass => absurd hpass (Nat.not_lt_zero pass)⟩
  · rintro actions t log action u new hrun ⟨ht, hlooking⟩ hstep
    obtain ⟨hu, hmoves⟩ := step_moves ht hstep
    refine ⟨hu, fun hopen => ?_⟩
    have hbefore := hlooking fun event hevent => hopen event (List.mem_append_left new hevent)
    exact hbefore.step hrun hmoves fun event hevent =>
      hopen event (List.mem_append_right log hevent)

end Runs

/-! ## Starvation -/

/-- Polling a matrix of queues starves no lane, whatever the arrays hold at first. -/
structure StarvationFree (α : Type*) (shape : MatrixShape) : Prop where
  /-- A lane whose queue holds something, when a poll of the owner is to be called, is among the
  lanes that the next polls are served from, as many as there are lanes. -/
  served : ∀ {garbage : ℕ → Fin shape.capacity.size → α} {s t : State α shape}
    {log more : List (Event α)} {actions : List (Action α)} {owner lane : ℕ},
    (machine shape garbage).Reaches s log → owner < shape.owners → lane < shape.producers →
    s.polls owner = none → s.waiting lane owner ≠ [] →
    (machine shape garbage).runFrom s actions = some (t, more) →
    shape.producers ≤ served owner more →
    ∃ value, .polled (.returned owner lane value) ∈ more
  /-- Where a poll returns false that has looked at the queues, each of them was empty at some
  moment from the call on. -/
  observed : ∀ {garbage : ℕ → Fin shape.capacity.size → α} {s r t u : State α shape}
    {log called more new : List (Event α)} {actions : List (Action α)} {action : Action α}
    {owner : ℕ} {output : Bool},
    (machine shape garbage).Reaches s log →
    step s (.tryPoll owner output) = some (r, called) →
    (machine shape garbage).runFrom r actions = some (t, more) →
    (∀ event ∈ called ++ more, ¬event.ends owner) →
    step t action = some (u, new) → .polled (.nothing owner) ∈ new →
    ∀ producer < shape.producers,
      (machine shape garbage).Meets r actions fun v => v.waiting producer owner = []

theorem starvationFree (α : Type*) (shape : MatrixShape) : StarvationFree α shape where
  served {garbage s t log more actions owner lane} hreaches howner hlane hidle hwaits hrun
      hserved := by
    obtain ⟨distance, hlt, hdistance⟩ := LinearProbing.exists_add_mod_eq (s.cursors owner) hlane
    have hw : Waiting s owner lane 0 :=
      ⟨hwaits, distance, hdistance, by omega, fun pass hpass => by simp [hidle] at hpass⟩
    rcases served_or_waiting (sound_of_reaches hreaches) howner hw hrun with hvalue | hwaiting
    · exact hvalue
    · obtain ⟨distance', -, hnear, -⟩ := hwaiting.near
      omega
  observed {garbage s r t u log called more new actions action owner output} hreaches hcall hrun
      hopen hlast hnothing producer hproducer := by
    have hr : Sound r := (step_moves (sound_of_reaches hreaches) hcall).1
    have hstart : r.polls owner = some 0 := step_tryPoll hcall fun event hevent =>
      hopen event (List.mem_append_left more hevent)
    obtain ⟨ht, hlooking⟩ := looking_of_runFrom hr hstart hrun fun event hevent =>
      hopen event (List.mem_append_right called hevent)
    obtain ⟨count, hcount, hmet⟩ := hlooking.passes
    have hlast : shape.producers ≤ count := (step_moves ht hlast).2.exhausted hcount hnothing
    obtain ⟨distance, hlt, hdistance⟩ := LinearProbing.exists_add_mod_eq (r.cursors owner) hproducer
    have hempty := hmet distance (Nat.lt_of_lt_of_le hlt hlast)
    rwa [State.producerAt, hdistance] at hempty

/-- Two lanes, whose queues have room for one record. -/
def sampleSizes : DispatcherSizes :=
  ⟨2, 0, 1, Ring.oneCell, Ring.oneCell, Ring.oneCell⟩

def sampleGarbage : ℕ → Fin sampleSizes.faultQueues.capacity.size → ChannelFault :=
  fun _ _ => {}

def sampleFault (channel : ℕ) : ChannelFault :=
  { channel := channel }

/-- Both lanes push. -/
def bothPush : List (Action ChannelFault) :=
  [.tryPush 1 0 (sampleFault 7), .produce 1 0, .produce 1 0, .produce 1 0,
    .tryPush 0 0 (sampleFault 5), .produce 0 0, .produce 0 0, .produce 0 0]

/-- Two polls. Lane 0 pushes again before the second, and lane 1 is served all the same. -/
def twoPolls : List (Action ChannelFault) :=
  [.tryPoll 0 true, .poll 0, .poll 0, .poll 0, .poll 0, .poll 0,
    .tryPush 0 0 (sampleFault 6), .produce 0 0, .produce 0 0, .produce 0 0, .produce 0 0,
    .tryPoll 0 true, .poll 0, .poll 0, .poll 0, .poll 0, .poll 0]

/-- A poll that has passed the queue of lane 0 when that lane pushes. -/
def passedPoll : List (Action ChannelFault) :=
  [.poll 0, .poll 0, .poll 0, .tryPush 0 0 (sampleFault 5), .produce 0 0, .produce 0 0,
    .produce 0 0,
    .poll 0, .poll 0, .poll 0]

end Polling

/-- No lane starves : not for `TryPollTick` and `TryPollSnapshot`, of any owner, and not for
`TryPollLateRecovery` and `TryPollFault`. -/
theorem polling_starvation_free (sizes : DispatcherSizes) :
    Polling.StarvationFree CanonicalTick sizes.tickQueues ∧
      Polling.StarvationFree CanonicalSnapshot sizes.snapshotQueues ∧
      Polling.StarvationFree LateRecoveryTick sizes.lateRecoveryQueues ∧
      Polling.StarvationFree ChannelFault sizes.faultQueues :=
  ⟨Polling.starvationFree .., Polling.starvationFree .., Polling.starvationFree ..,
    Polling.starvationFree ..⟩

section Sample

open Polling

theorem polling_starvation_free_sample :
    (∃ s log t more value,
      (machine sampleSizes.faultQueues sampleGarbage).Reaches s log ∧
        (machine sampleSizes.faultQueues sampleGarbage).runFrom s twoPolls = some (t, more) ∧
        .polled (.returned 0 1 value) ∈ more) ∧
      ∃ r called, step (machine sampleSizes.faultQueues sampleGarbage).start (.tryPoll 0 true) =
        some (r, called) ∧ ∀ producer < 2,
          (machine sampleSizes.faultQueues sampleGarbage).Meets r passedPoll
            fun v => v.waiting producer 0 = [] := by
  obtain ⟨-, -, -, served, observed⟩ := polling_starvation_free sampleSizes
  constructor
  · have hbefore : ((machine sampleSizes.faultQueues sampleGarbage).run bothPush).map
        (fun r => (r.1.polls 0, r.1.waiting 1 0, r.2)) = some (none, [sampleFault 7], []) := by
      decide +kernel
    have hall : ((machine sampleSizes.faultQueues sampleGarbage).run (bothPush ++ twoPolls)).map
        Prod.snd = some [.called 0, .polled (.returned 0 0 (sampleFault 5)), .called 0,
          .polled (.returned 0 1 (sampleFault 7))] := by
      decide +kernel
    obtain ⟨⟨s, log⟩, hpushed, hlast⟩ := Option.map_eq_some_iff.1 hbefore
    obtain ⟨hidle, hrest⟩ := Prod.mk.inj hlast
    obtain ⟨hwaiting, rfl⟩ := Prod.mk.inj hrest
    obtain ⟨⟨t, more⟩, hrun, hmore⟩ := Option.map_eq_some_iff.1 hall
    obtain ⟨s', log', more', hpushed', hpolled, rfl⟩ := Machine.runFrom_append.1 hrun
    obtain ⟨rfl, rfl⟩ := Prod.mk.inj (Option.some.inj (hpushed.symm.trans hpushed'))
    have hreaches : (machine sampleSizes.faultQueues sampleGarbage).Reaches s [] := ⟨_, hpushed⟩
    obtain ⟨value, hvalue⟩ := served hreaches Nat.one_pos Nat.one_lt_two hidle
      (by rw [hwaiting]; exact List.cons_ne_nil _ _) hpolled (by
        rw [show more' = _ from hmore]
        decide)
    exact ⟨s, [], t, more', value, hreaches, hpolled, hvalue⟩
  · have hpassed : ((machine sampleSizes.faultQueues sampleGarbage).run
        (.tryPoll 0 true :: passedPoll)).map (fun t => (t.2, (step t.1 (.poll 0)).map Prod.snd)) =
          some ([.called 0], some [.polled (.nothing 0)]) := by
      decide +kernel
    obtain ⟨⟨t, log⟩, hrun, hlast⟩ := Option.map_eq_some_iff.1 hpassed
    obtain ⟨hlog, hend⟩ := Prod.mk.inj hlast
    obtain ⟨r, called, more, hcall, hpolling, rfl⟩ := Machine.runFrom_cons.1 hrun
    obtain ⟨⟨u, new⟩, hstep, hnew⟩ := Option.map_eq_some_iff.1 hend
    replace hcall : step (machine sampleSizes.faultQueues sampleGarbage).start
      (.tryPoll 0 true) = some (r, called) := hcall
    refine ⟨r, called, hcall, observed Machine.Reaches.start hcall hpolling ?_ hstep ?_⟩
    · intro event hevent hends
      rw [show called ++ more = _ from hlog, List.mem_singleton] at hevent
      rw [hevent] at hends
      exact hends
    · rw [show new = _ from hnew]
      exact List.mem_cons_self

end Sample

end L2Flow
