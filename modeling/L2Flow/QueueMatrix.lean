import L2Flow.RingOrder

/-!
# The queues between lanes and owners

`Dispatcher` has a ring for every pair of a decoder lane and an instrument owner, once for
ticks and once for snapshots. A lane publishes a record into the ring of the record's owner and
tries again while the ring is full (`PublishBounded`); an owner polls its rings in turn, from
the one after the ring that it popped last.

`Flows` says what such a matrix is for : what an owner has polled from a lane, what their ring
holds and what the lane is about to push there are together, in order, what the lane was given
to publish for that owner. Every operation keeps it, so what is polled is a prefix of what was
published (`Flows.polled`).
-/

namespace L2Flow

/-- The dimensions of a matrix of queues. -/
structure MatrixShape where
  producers : ℕ
  owners : ℕ
  capacity : RingCapacity

/-- The number of times that `PublishBounded` tries. -/
def kMaximumSpins : ℕ :=
  2048

/-- `tick_queues_` or `snapshot_queues_` and the cursors of the owners, with what their threads
are doing : the records that a producer has still to publish, each with whether a ring will
take it, how often the first of them was refused, and the pass of its loop that a poll is at. -/
structure QueueMatrix (α : Type*) (shape : MatrixShape) where
  queues : ℕ → SpscRing α shape.capacity
  cursors : ℕ → ℕ := fun _ => 0
  outboxes : ℕ → List (α × Bool) := fun _ => []
  spins : ℕ → ℕ := fun _ => 0
  polls : ℕ → Option ℕ := fun _ => none

/-- How a poll ends. -/
inductive Polled (α : Type*) where
  | returned (owner producer : ℕ) (value : α)
  | nothing (owner : ℕ)
  deriving DecidableEq

namespace QueueMatrix

variable {α : Type*} {shape : MatrixShape}

/-- The place of a ring in the matrix. -/
def place (shape : MatrixShape) (producer owner : ℕ) : ℕ :=
  producer * shape.owners + owner

/-- `PublishTick`, `PublishSnapshot`. -/
def publish (m : QueueMatrix α shape) (producer owner : ℕ) (value : α) :
    Bool × QueueMatrix α shape :=
  if shape.producers ≤ producer ∨ shape.owners ≤ owner then (false, m)
  else
    let pushed := (m.queues (place shape producer owner)).tryPush value
    (pushed.1, { m with queues := Function.update m.queues (place shape producer owner) pushed.2 })

/-- A producer that has published everything is given more. -/
def offer (m : QueueMatrix α shape) (producer : ℕ) (records : List (α × Bool)) :
    QueueMatrix α shape :=
  { m with outboxes := Function.update m.outboxes producer records }

/-- The producer is done with its first record. -/
def advance (m : QueueMatrix α shape) (producer : ℕ) (rest : List (α × Bool)) :
    QueueMatrix α shape :=
  { m with
    outboxes := Function.update m.outboxes producer rest
    spins := Function.update m.spins producer 0 }

@[simp] theorem offer_outboxes (m : QueueMatrix α shape) (producer : ℕ)
    (records : List (α × Bool)) :
    (m.offer producer records).outboxes = Function.update m.outboxes producer records :=
  rfl

@[simp] theorem advance_outboxes (m : QueueMatrix α shape) (producer : ℕ)
    (rest : List (α × Bool)) :
    (m.advance producer rest).outboxes = Function.update m.outboxes producer rest :=
  rfl

/-- A pass of `PublishBounded`. It does not go on where the answer is not the one foreseen. -/
def spin (ownerOf : α → ℕ) (m : QueueMatrix α shape) (producer : ℕ) :
    Option (QueueMatrix α shape) :=
  match m.outboxes producer with
  | [] => none
  | (value, accepted) :: rest =>
    match m.publish producer (ownerOf value) value with
    | (true, m) => if accepted then some (m.advance producer rest) else none
    | (false, m) =>
      if m.spins producer + 1 < kMaximumSpins then
        some { m with spins := Function.update m.spins producer (m.spins producer + 1) }
      else if accepted then none
      else some (m.advance producer rest)

/-- A call of `TryPollTick` or `TryPollSnapshot`. -/
def callPoll (m : QueueMatrix α shape) (owner : ℕ) :
    Option (QueueMatrix α shape × List (Polled α)) :=
  match m.polls owner with
  | some _ => none
  | none =>
    if shape.owners ≤ owner then some (m, [.nothing owner])
    else some ({ m with polls := Function.update m.polls owner (some 0) }, [])

/-- A pass of its loop, or its end. -/
def pollPass (m : QueueMatrix α shape) (owner : ℕ) :
    Option (QueueMatrix α shape × List (Polled α)) :=
  match m.polls owner with
  | none => none
  | some count =>
    if count < shape.producers then
      let producer := (m.cursors owner + count) % shape.producers
      let popped := (m.queues (place shape producer owner)).tryPop
      let queues := Function.update m.queues (place shape producer owner) popped.2
      match popped.1 with
      | some value =>
        some ({ m with
            queues := queues
            cursors := Function.update m.cursors owner ((producer + 1) % shape.producers)
            polls := Function.update m.polls owner none },
          [.returned owner producer value])
      | none =>
        some ({ m with
            queues := queues
            polls := Function.update m.polls owner (some (count + 1)) }, [])
    else some ({ m with polls := Function.update m.polls owner none }, [.nothing owner])

/-! ## The order of what is polled -/

/-- What an owner has polled from a producer. -/
def polledFrom (producer owner : ℕ) (log : List (Polled α)) : List α :=
  log.filterMap fun
    | .returned owner' producer' value =>
      if owner' = owner ∧ producer' = producer then some value else none
    | .nothing _ => none

theorem polledFrom_append (producer owner : ℕ) (log new : List (Polled α)) :
    polledFrom producer owner (log ++ new) =
      polledFrom producer owner log ++ polledFrom producer owner new :=
  List.filterMap_append ..

/-- The records that a ring will take. -/
def accepted (records : List (α × Bool)) : List α :=
  records.filterMap fun record => if record.2 then some record.1 else none

/-- The records of an owner. -/
def ownedBy (ownerOf : α → ℕ) (owner : ℕ) (records : List α) : List α :=
  records.filter (ownerOf · = owner)

theorem place_eq_iff {producer owner producer' owner' : ℕ} (h : owner < shape.owners)
    (h' : owner' < shape.owners) :
    place shape producer owner = place shape producer' owner' ↔
      producer = producer' ∧ owner = owner' := by
  constructor
  · intro heq
    have howner : owner = owner' := by
      have hmod := congrArg (· % shape.owners) heq
      simpa [place, Nat.mul_add_mod_self_right, Nat.mod_eq_of_lt h, Nat.mod_eq_of_lt h'] using hmod
    subst howner
    have hmul : producer * shape.owners = producer' * shape.owners := Nat.add_right_cancel heq
    exact ⟨Nat.eq_of_mul_eq_mul_right (Nat.zero_lt_of_lt h) hmul, rfl⟩
  · rintro ⟨rfl, rfl⟩
    rfl

/-- What every producer was given to publish, as far as a ring takes it, reaches its owner in
order. -/
structure Flows (ownerOf : α → ℕ) (sent : ℕ → List α) (m : QueueMatrix α shape)
    (log : List (Polled α)) : Prop where
  wf : ∀ i, (m.queues i).Wf
  inside : ∀ owner, m.polls owner ≠ none → owner < shape.owners
  flow : ∀ producer, ∀ owner < shape.owners,
    ownedBy ownerOf owner (sent producer) =
      polledFrom producer owner log ++ (m.queues (place shape producer owner)).contents ++
        ownedBy ownerOf owner (accepted (m.outboxes producer))
  returned : ∀ owner producer value, .returned owner producer value ∈ log →
    producer < shape.producers ∧ owner < shape.owners

namespace Flows

variable {ownerOf : α → ℕ} {sent : ℕ → List α} {m m' : QueueMatrix α shape}
  {log new : List (Polled α)}

theorem start (storage : ℕ → Fin shape.capacity.size → α) :
    Flows ownerOf (fun _ => []) ({ queues := fun i => { storage := storage i } } :
      QueueMatrix α shape) [] where
  wf i := SpscRing.wf_new (storage i)
  inside owner h := absurd rfl h
  flow producer owner _ := by
    rw [SpscRing.contents_new]
    rfl
  returned owner producer value h := by cases h

/-- What an owner has polled from a producer is the first of what it was sent. -/
theorem polled (h : Flows ownerOf sent m log) {producer owner : ℕ} (howner : owner < shape.owners) :
    polledFrom producer owner log <+: ownedBy ownerOf owner (sent producer) :=
  ⟨_, ((h.flow producer owner howner).trans (List.append_assoc ..)).symm⟩

/-- A step after which the rings hold the same, and the producers have as much to publish. -/
theorem aside (h : Flows ownerOf sent m log) (m' : QueueMatrix α shape)
    (hwf : ∀ i, (m'.queues i).Wf)
    (hcontents : ∀ i, (m'.queues i).contents = (m.queues i).contents)
    (hinside : ∀ owner, m'.polls owner ≠ none → owner < shape.owners)
    (hsilent : ∀ owner producer value, .returned owner producer value ∉ new)
    {sent' : ℕ → List α}
    (hsent : ∀ producer, ∃ more, sent' producer = sent producer ++ more ∧
      accepted (m'.outboxes producer) = accepted (m.outboxes producer) ++ more) :
    Flows ownerOf sent' m' (log ++ new) where
  wf := hwf
  inside := hinside
  flow producer owner howner := by
    have hnew : polledFrom producer owner new = [] := by
      refine List.filterMap_eq_nil_iff.2 fun event hevent => ?_
      rcases event with ⟨owner', producer', value⟩ | _
      · exact absurd hevent (hsilent owner' producer' value)
      · rfl
    obtain ⟨more, hmore, houtbox⟩ := hsent producer
    have hflow := h.flow producer owner howner
    simp only [ownedBy, polledFrom_append, hnew, List.append_nil, hcontents, hmore, houtbox,
      List.filter_append] at hflow ⊢
    rw [hflow, List.append_assoc]
  returned owner producer value hmem := by
    rcases List.mem_append.1 hmem with hold | hnew
    · exact h.returned owner producer value hold
    · exact absurd hnew (hsilent owner producer value)

theorem offer (h : Flows ownerOf sent m log) {producer : ℕ} (hidle : m.outboxes producer = [])
    (records : List (α × Bool)) :
    Flows ownerOf (Function.update sent producer (sent producer ++ accepted records))
      (m.offer producer records) log := by
  rw [← List.append_nil log]
  refine h.aside (m.offer producer records) h.wf (fun _ => rfl) h.inside
    (fun _ _ _ => List.not_mem_nil) fun producer' => ?_
  rcases eq_or_ne producer' producer with rfl | hne
  · refine ⟨accepted records, Function.update_self .., ?_⟩
    rw [offer_outboxes, Function.update_self, hidle]
    rfl
  · refine ⟨[], ?_, ?_⟩
    · rw [Function.update_of_ne hne, List.append_nil]
    · rw [offer_outboxes, Function.update_of_ne hne, List.append_nil]

/-- A refused pass, or the last of them. -/
theorem refused (h : Flows ownerOf sent m log) (hwf : ∀ i, (m'.queues i).Wf)
    (hcontents : ∀ i, (m'.queues i).contents = (m.queues i).contents)
    (hpolls : m'.polls = m.polls)
    (houtboxes : ∀ producer, accepted (m'.outboxes producer) = accepted (m.outboxes producer)) :
    Flows ownerOf sent m' log := by
  rw [← List.append_nil log]
  exact h.aside m' hwf hcontents (hpolls ▸ h.inside) (fun _ _ _ => List.not_mem_nil) fun producer =>
    ⟨[], (List.append_nil _).symm, by rw [houtboxes, List.append_nil]⟩

end Flows

theorem wf_update {queues : ℕ → SpscRing α shape.capacity} (hwf : ∀ i, (queues i).Wf) {j : ℕ}
    {ring : SpscRing α shape.capacity} (hring : ring.Wf) :
    ∀ i, (Function.update queues j ring i).Wf :=
  (Function.forall_update_iff queues fun _ ring => ring.Wf).2 ⟨hring, fun i _ => hwf i⟩

theorem contents_update {queues : ℕ → SpscRing α shape.capacity} {j : ℕ}
    {ring : SpscRing α shape.capacity} (hring : ring.contents = (queues j).contents) :
    ∀ i, (Function.update queues j ring i).contents = (queues i).contents :=
  (Function.forall_update_iff queues fun i ring => ring.contents = (queues i).contents).2
    ⟨hring, fun _ _ => rfl⟩

/-- A push touches the ring of the record's owner and no other. -/
theorem publish_cases {m : QueueMatrix α shape} (hwf : ∀ i, (m.queues i).Wf) (producer owner : ℕ)
    (value : α) : ∃ queues, (m.publish producer owner value).2 = { m with queues := queues } ∧
      (∀ i, (queues i).Wf) ∧
      (((m.publish producer owner value).1 = false ∧
          ∀ i, (queues i).contents = (m.queues i).contents) ∨
        ((m.publish producer owner value).1 = true ∧ owner < shape.owners ∧
          (queues (place shape producer owner)).contents =
            (m.queues (place shape producer owner)).contents ++ [value] ∧
          ∀ i ≠ place shape producer owner, (queues i).contents = (m.queues i).contents)) := by
  rw [publish]
  split_ifs with hbounds
  · exact ⟨m.queues, rfl, hwf, Or.inl ⟨rfl, fun _ => rfl⟩⟩
  · obtain ⟨hring, hends⟩ := SpscRing.tryPush_spec (hwf (place shape producer owner)) value
    refine ⟨_, rfl, wf_update hwf hring, ?_⟩
    rcases hends with ⟨-, hpushed, hcontents⟩ | ⟨-, hrefused, hcontents⟩
    · refine Or.inr ⟨hpushed, Nat.lt_of_not_le (not_or.1 hbounds).2, ?_, fun i hne => ?_⟩
      · rw [Function.update_self, hcontents]
      · rw [Function.update_of_ne hne]
    · exact Or.inl ⟨hrefused, contents_update hcontents⟩

namespace Flows

variable {ownerOf : α → ℕ} {sent : ℕ → List α} {m m' : QueueMatrix α shape}
  {log new : List (Polled α)}

/-- The first record of a producer goes into the ring of its owner. -/
theorem pushed (h : Flows ownerOf sent m log) {producer : ℕ} {value : α} {rest : List (α × Bool)}
    (houtbox : m.outboxes producer = (value, true) :: rest)
    {queues : ℕ → SpscRing α shape.capacity} (hwf : ∀ i, (queues i).Wf)
    (howned : ownerOf value < shape.owners)
    (hown : (queues (place shape producer (ownerOf value))).contents =
      (m.queues (place shape producer (ownerOf value))).contents ++ [value])
    (hothers : ∀ i ≠ place shape producer (ownerOf value),
      (queues i).contents = (m.queues i).contents) :
    Flows ownerOf sent (advance { m with queues := queues } producer rest) log where
  wf := hwf
  inside := h.inside
  flow producer' owner howner := by
    have hflow := h.flow producer' owner howner
    show _ = _ ++ (queues (place shape producer' owner)).contents ++
      ownedBy ownerOf owner (accepted (Function.update m.outboxes producer rest producer'))
    rcases eq_or_ne producer' producer with rfl | hproducer
    · rw [houtbox] at hflow
      rw [Function.update_self, hflow]
      rcases eq_or_ne owner (ownerOf value) with rfl | hne
      · rw [hown]
        simp [ownedBy, accepted]
      · rw [hothers _ fun heq => hne ((place_eq_iff howner howned).1 heq).2]
        simp [ownedBy, accepted, hne.symm]
    · rw [Function.update_of_ne hproducer, hflow,
        hothers _ fun heq => hproducer ((place_eq_iff howner howned).1 heq).1]
  returned := h.returned

theorem spin (h : Flows ownerOf sent m log) {producer : ℕ}
    (hspin : m.spin ownerOf producer = some m') : Flows ownerOf sent m' log := by
  rw [QueueMatrix.spin] at hspin
  split at hspin
  · cases hspin
  · next value foreseen rest houtbox =>
    obtain ⟨queues, hafter, hwf, hends⟩ := publish_cases h.wf producer (ownerOf value) value
    split at hspin
    · next m₁ hpublish =>
      rw [hpublish] at hafter hends
      obtain rfl : m₁ = { m with queues := queues } := hafter
      split_ifs at hspin with hforeseen
      obtain rfl := Option.some.inj hspin
      rw [hforeseen] at houtbox
      rcases hends with ⟨hfalse, -⟩ | ⟨-, howned, hown, hothers⟩
      · cases hfalse
      · exact h.pushed houtbox hwf howned hown hothers
    · next m₁ hpublish =>
      rw [hpublish] at hafter hends
      obtain rfl : m₁ = { m with queues := queues } := hafter
      rcases hends with ⟨-, hcontents⟩ | ⟨htrue, -⟩
      · split_ifs at hspin with hmore hforeseen
        · obtain rfl := Option.some.inj hspin
          exact h.refused hwf hcontents rfl fun _ => rfl
        · obtain rfl := Option.some.inj hspin
          refine h.refused hwf hcontents rfl fun producer' => ?_
          rcases eq_or_ne producer' producer with rfl | hne
          · rw [Bool.not_eq_true] at hforeseen
            rw [houtbox, hforeseen]
            rw [advance_outboxes, Function.update_self]
            rfl
          · exact congrArg accepted (Function.update_of_ne hne ..)
      · cases htrue

/-- Only owners are inside the loop of a poll. -/
theorem inside_update (h : Flows ownerOf sent m log) {owner owner' : ℕ} {count : Option ℕ}
    (howner : owner < shape.owners) (hpoll : Function.update m.polls owner count owner' ≠ none) :
    owner' < shape.owners := by
  rcases eq_or_ne owner' owner with rfl | hne
  · exact howner
  · rw [Function.update_of_ne hne] at hpoll
    exact h.inside owner' hpoll

theorem callPoll (h : Flows ownerOf sent m log) {owner : ℕ}
    (hcall : m.callPoll owner = some (m', new)) : Flows ownerOf sent m' (log ++ new) := by
  rw [QueueMatrix.callPoll] at hcall
  split at hcall
  · cases hcall
  · split_ifs at hcall with howner
    · obtain ⟨rfl, rfl⟩ := Prod.mk.inj (Option.some.inj hcall)
      exact h.aside m h.wf (fun _ => rfl) h.inside (fun _ _ _ hmem => by simp at hmem)
        fun producer =>
          ⟨[], (List.append_nil _).symm, (List.append_nil _).symm⟩
    · obtain ⟨rfl, rfl⟩ := Prod.mk.inj (Option.some.inj hcall)
      exact h.aside { m with polls := Function.update m.polls owner (some 0) } h.wf
        (fun _ => rfl) (fun _ => h.inside_update (Nat.lt_of_not_le howner))
        (fun _ _ _ => List.not_mem_nil)
        fun producer => ⟨[], (List.append_nil _).symm, (List.append_nil _).symm⟩

/-- The owner takes the first record of a ring. -/
theorem popped (h : Flows ownerOf sent m log) {producer owner : ℕ} {value : α}
    {ring : SpscRing α shape.capacity} (hproducer : producer < shape.producers)
    (howner : owner < shape.owners) (hring : ring.Wf)
    (hcontents : (m.queues (place shape producer owner)).contents = value :: ring.contents)
    (cursors : ℕ → ℕ) :
    Flows ownerOf sent
      { m with
        queues := Function.update m.queues (place shape producer owner) ring
        cursors := cursors
        polls := Function.update m.polls owner none }
      (log ++ [.returned owner producer value]) where
  wf := wf_update h.wf hring
  inside owner' hpoll := h.inside_update howner hpoll
  flow producer' owner' howner' := by
    have hflow := h.flow producer' owner' howner'
    show _ = _ ++ (Function.update m.queues (place shape producer owner) ring
      (place shape producer' owner')).contents ++ _
    rw [polledFrom_append]
    by_cases hsame : producer' = producer ∧ owner' = owner
    · obtain ⟨rfl, rfl⟩ := hsame
      rw [hcontents] at hflow
      rw [hflow, Function.update_self]
      simp [polledFrom]
    · rw [Function.update_of_ne fun heq => hsame ((place_eq_iff howner' howner).1 heq), hflow]
      have hother : ¬(owner = owner' ∧ producer = producer') := fun heq =>
        hsame ⟨heq.2.symm, heq.1.symm⟩
      simp [polledFrom, hother]
  returned owner' producer' value' hmem := by
    rcases List.mem_append.1 hmem with hold | hnew
    · exact h.returned owner' producer' value' hold
    · obtain ⟨rfl, rfl, rfl⟩ := Polled.returned.inj (List.mem_singleton.1 hnew)
      exact ⟨hproducer, howner⟩

theorem pollPass (h : Flows ownerOf sent m log) {owner : ℕ}
    (hpass : m.pollPass owner = some (m', new)) : Flows ownerOf sent m' (log ++ new) := by
  rw [QueueMatrix.pollPass] at hpass
  split at hpass
  · cases hpass
  · next count hcount =>
    have howner : owner < shape.owners := h.inside owner (hcount ▸ Option.some_ne_none count)
    split_ifs at hpass with hmore
    · have hproducer : (m.cursors owner + count) % shape.producers < shape.producers :=
        Nat.mod_lt _ (Nat.zero_lt_of_lt hmore)
      obtain ⟨hring, hends⟩ := SpscRing.tryPop_spec
        (h.wf (place shape ((m.cursors owner + count) % shape.producers) owner))
      dsimp only at hpass
      rcases hends with ⟨hempty, hnone, hcontents⟩ | ⟨value, hsome, hcontents⟩
      · rw [hnone] at hpass
        obtain ⟨rfl, rfl⟩ := Prod.mk.inj (Option.some.inj hpass)
        exact h.aside { m with
            queues := Function.update m.queues _ _
            polls := Function.update m.polls owner (some (count + 1)) }
          (wf_update h.wf hring) (contents_update (hcontents.trans hempty.symm))
          (fun _ => h.inside_update howner) (fun _ _ _ => List.not_mem_nil)
          fun producer => ⟨[], (List.append_nil _).symm, (List.append_nil _).symm⟩
      · rw [hsome] at hpass
        obtain ⟨rfl, rfl⟩ := Prod.mk.inj (Option.some.inj hpass)
        exact h.popped hproducer howner hring hcontents _
    · obtain ⟨rfl, rfl⟩ := Prod.mk.inj (Option.some.inj hpass)
      exact h.aside { m with polls := Function.update m.polls owner none } h.wf (fun _ => rfl)
        (fun _ => h.inside_update howner) (fun _ _ _ hmem => by simp at hmem)
        fun producer => ⟨[], (List.append_nil _).symm, (List.append_nil _).symm⟩

end Flows

end QueueMatrix

end L2Flow
