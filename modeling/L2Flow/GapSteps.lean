import L2Flow.GapPolling

/-!
# Calls of `TryPollGap`, step by step

In `Dispatcher.machine` a call of `Publish` and a call of `TrySnapshot` are one step each. Here
they are made of their own steps, those of `Mailbox.machine` : a lane writes the fields of a gap
one after the other, and `TrySnapshot` loads the token, claims the buffer, loads the token again
and copies the fields. The other threads move in between, so that an attempt can fail, and eight
that fail come to `kBusy`. `reaches_ofWhole` says that the runs of `Dispatcher.machine` are those
in which nobody does.

`tryPollGap_returns` bounds a call of `TryPollGap` in these steps. It takes each bit of a word
once, and an attempt of `TrySnapshot` fails at most eight times, whatever the lanes publish.
-/

namespace L2Flow

/-! ## One mailbox -/

namespace Mailbox

open GapMailboxSlot

/-- `TrySnapshot` returns. -/
def Event.isReturn : Event → Bool
  | .published _ | .called | .read => false
  | .ready _ _ | .noChange | .busy => true

/-- A bound on the steps left of a call of `TrySnapshot` : an attempt that fails takes four, and
one that does not copies eight fields. -/
def Consumer.stepsLeft : Consumer → ℕ
  | .idle => 0
  | .attempting attempt => if attempt < kMaximumAttempts then 4 * (7 - attempt) + 13 else 1
  | .loaded attempt _ => 4 * (7 - attempt) + 12
  | .claimed attempt _ => 4 * (7 - attempt) + 11
  | .retreating attempt => 4 * (7 - attempt) + 10
  | .copying _ _ left => left.length + 2
  | .copied _ _ => 1

/-- A step of `TrySnapshot` : the call goes on, or it returns. -/
theorem stepsLeft_lt {s s' : State} {field : GapField} {events : List Event}
    (h : consumeStep s field = some (s', events)) :
    s'.consumer.stepsLeft < s.consumer.stepsLeft ∧
      ((s'.consumer ≠ .idle ∧ (events = [] ∨ events = [.read])) ∨
        s'.consumer = .idle ∧ ∃ event, events.getLast? = some event ∧ event.isReturn = true) := by
  obtain ⟨slot, producer, consumer⟩ := s
  cases consumer with
  | idle => cases h
  | attempting attempt =>
    simp only [consumeStep] at h
    split_ifs at h with hlast hindex
    · cases h
      refine ⟨?_, Or.inr ⟨rfl, .busy, rfl, rfl⟩⟩
      simp [Consumer.stepsLeft, hlast.not_gt]
    · cases h
      refine ⟨?_, Or.inr ⟨rfl, .noChange, rfl, rfl⟩⟩
      simp [Consumer.stepsLeft, not_le.1 hlast]
    · cases h
      refine ⟨?_, Or.inl ⟨by simp, Or.inr rfl⟩⟩
      simp [Consumer.stepsLeft, not_le.1 hlast]
  | loaded attempt before =>
    cases h
    exact ⟨by simp [Consumer.stepsLeft], Or.inl ⟨by simp, Or.inl rfl⟩⟩
  | claimed attempt before =>
    simp only [consumeStep] at h
    split_ifs at h
    · cases h
      exact ⟨by simp [Consumer.stepsLeft], Or.inl ⟨by simp, Or.inl rfl⟩⟩
    · cases h
      refine ⟨?_, Or.inl ⟨by simp, Or.inl rfl⟩⟩
      simp [Consumer.stepsLeft, GapField.all]
  | retreating attempt =>
    cases h
    refine ⟨?_, Or.inl ⟨by simp, Or.inl rfl⟩⟩
    have hnext : kMaximumAttempts = 8 := rfl
    rw [Consumer.stepsLeft, Consumer.stepsLeft]
    split_ifs <;> omega
  | copying before snapshot left =>
    cases left with
    | nil =>
      cases h
      exact ⟨by simp [Consumer.stepsLeft], Or.inl ⟨by simp, Or.inl rfl⟩⟩
    | cons first left =>
      simp only [consumeStep] at h
      split_ifs at h with hfield
      cases h
      refine ⟨?_, Or.inl ⟨by simp, Or.inl rfl⟩⟩
      have hlength := List.length_erase_of_mem hfield
      simp only [Consumer.stepsLeft, hlength, List.length_cons]
      omega
  | copied before snapshot =>
    simp only [consumeStep] at h
    split_ifs at h
    · cases h
      exact ⟨by simp [Consumer.stepsLeft], Or.inr ⟨rfl, .noChange, rfl, rfl⟩⟩
    · cases h
      exact ⟨by simp [Consumer.stepsLeft], Or.inr ⟨rfl, .ready before snapshot, rfl, rfl⟩⟩

/-- A call of `TrySnapshot` in progress can go on. -/
theorem exists_consumeStep {s : State} (h : s.consumer ≠ .idle) :
    ∃ field, (consumeStep s field).isSome := by
  obtain ⟨slot, producer, consumer⟩ := s
  cases consumer with
  | idle => exact absurd rfl h
  | attempting attempt =>
    refine ⟨.market, ?_⟩
    simp only [consumeStep]
    split_ifs <;> rfl
  | loaded attempt before => exact ⟨.market, rfl⟩
  | claimed attempt before =>
    refine ⟨.market, ?_⟩
    simp only [consumeStep]
    split_ifs <;> rfl
  | retreating attempt => exact ⟨.market, rfl⟩
  | copying before snapshot left =>
    cases left with
    | nil => exact ⟨.market, rfl⟩
    | cons first left => exact ⟨first, by simp [consumeStep]⟩
  | copied before snapshot =>
    refine ⟨.market, ?_⟩
    simp only [consumeStep]
    split_ifs <;> rfl

/-- The lane does not move the consumer. -/
theorem produceStep_consumer {s s' : State} {field : GapField} {events : List Event}
    (h : produceStep s field = some (s', events)) : s'.consumer = s.consumer := by
  obtain ⟨slot, producer, consumer⟩ := s
  cases producer with
  | idle => cases h
  | called gap =>
    cases h
    rfl
  | loaded gap currentToken =>
    cases h
    rfl
  | writing gap target left =>
    cases left with
    | nil =>
      cases h
      rfl
    | cons first left =>
      simp only [produceStep] at h
      split_ifs at h
      cases h
      rfl

end Mailbox

/-! ## The steps -/

namespace GapSteps

open GapMailboxSlot
open Dispatcher (sampleLayout)

/-- Where `PublishGap` is. -/
inductive Lane where
  | idle
  /-- `Publish` is in progress. -/
  | publishing (channelSlot : ℕ)
  /-- The slot's dirty bit is set next. -/
  | marking (channelSlot : ℕ)

/-- Where `TryPollGap` is. -/
inductive Consumer where
  | idle
  /-- The word `count` places after the cursor is looked at next. -/
  | scanning (count : ℕ)
  /-- The bits of that word's pending word are taken next. -/
  | draining (count : ℕ)
  /-- `TrySnapshot` is in progress, in the mailbox of this bit of the word. -/
  | reading (count bitIndex : ℕ)

structure State where
  mailboxes : ℕ → Mailbox.State := fun _ => {}
  gapDirtyWords : ℕ → BitVec 64 := fun _ => 0
  gapConsumerPending : ℕ → BitVec 64 := fun _ => 0
  gapConsumerWordCursor : ℕ := 0
  lanes : ℕ → Lane := fun _ => .idle
  consumer : Consumer := .idle

/-- The thread that moves, as in `Mailbox.Action`. -/
inductive Action where
  | publish (producer channelSlot : ℕ) (gap : ChannelGap)
  | produce (producer : ℕ) (field : GapField)
  | tryPollGap
  | consume (field : GapField)

variable (layout : GapLayout)

def publishStep (s : State) (producer channelSlot : ℕ) (gap : ChannelGap) :
    Option (State × List Dispatcher.Event) :=
  match s.lanes producer with
  | .idle =>
    if layout.tickProducers ≤ producer ∨ layout.gapChannelsPerProducer ≤ channelSlot then
      some (s, [])
    else
      let index := layout.slotIndex producer channelSlot
      (Mailbox.step (s.mailboxes index) (.publish gap)).map fun next =>
        ({ s with
            mailboxes := Function.update s.mailboxes index next.1
            lanes := Function.update s.lanes producer (.publishing channelSlot) },
          [])
  | _ => none

def produceStep (s : State) (producer : ℕ) (field : GapField) :
    Option (State × List Dispatcher.Event) :=
  match s.lanes producer with
  | .idle => none
  | .publishing channelSlot =>
    let index := layout.slotIndex producer channelSlot
    match Mailbox.produceStep (s.mailboxes index) field with
    | none => none
    | some (mailbox, .published gap :: _) =>
      some ({ s with
          mailboxes := Function.update s.mailboxes index mailbox
          lanes := Function.update s.lanes producer (.marking channelSlot) },
        [.published producer channelSlot gap])
    | some (mailbox, _) =>
      some ({ s with mailboxes := Function.update s.mailboxes index mailbox }, [])
  | .marking channelSlot =>
    let word := layout.wordIndex producer channelSlot
    some ({ s with
        gapDirtyWords := Function.update s.gapDirtyWords word
          (s.gapDirtyWords word ||| wordBit (channelSlot % 64))
        lanes := Function.update s.lanes producer .idle },
      [])

/-- The word `count` places after the cursor. -/
def State.wordAt (s : State) (count : ℕ) : ℕ :=
  (s.gapConsumerWordCursor + count) % layout.wordCount

/-- The lane and the channel slot of a bit of a word. -/
def bitPlace (word bitIndex : ℕ) : ℕ × ℕ :=
  (word / layout.gapWordsPerProducer, word % layout.gapWordsPerProducer * 64 + bitIndex)

/-- The mailbox of a bit of a word. -/
def bitMailbox (word bitIndex : ℕ) : ℕ :=
  layout.slotIndex (bitPlace layout word bitIndex).1 (bitPlace layout word bitIndex).2

/-- Take the lowest bit of a pending word, and call `TrySnapshot` of its mailbox. -/
def takeBit (s : State) (count word : ℕ) : Option (State × List Dispatcher.Event) :=
  let pending := s.gapConsumerPending word
  let bitIndex := pending.ctz.toNat
  let s := { s with
    gapConsumerPending := Function.update s.gapConsumerPending word
      (pending &&& ~~~wordBit bitIndex) }
  if layout.gapChannelsPerProducer ≤ (bitPlace layout word bitIndex).2 then some (s, [])
  else
    let index := bitMailbox layout word bitIndex
    (Mailbox.step (s.mailboxes index) .trySnapshot).map fun next =>
      ({ s with
          mailboxes := Function.update s.mailboxes index next.1
          consumer := .reading count bitIndex },
        [])

/-- The next step of `TrySnapshot`, and what `TryPollGap` does with its answer. -/
def readStep (s : State) (count bitIndex : ℕ) (field : GapField) :
    Option (State × List Dispatcher.Event) :=
  let word := s.wordAt layout count
  let index := bitMailbox layout word bitIndex
  match Mailbox.consumeStep (s.mailboxes index) field with
  | none => none
  | some (mailbox, events) =>
    let s := { s with mailboxes := Function.update s.mailboxes index mailbox }
    match events.getLast? with
    | some .busy =>
      some ({ s with
          gapConsumerPending := Function.update s.gapConsumerPending word
            (s.gapConsumerPending word ||| wordBit bitIndex)
          consumer := .idle },
        [.exhausted])
    | some .noChange => some ({ s with consumer := .draining count }, [])
    | some (.ready _ snapshot) =>
      let place := bitPlace layout word bitIndex
      some ({ s with
          gapConsumerWordCursor := (word + 1) % layout.wordCount
          consumer := .idle },
        [.polled place.1 place.2 snapshot])
    | _ => some (s, [])

def consumeStep (s : State) (field : GapField) : Option (State × List Dispatcher.Event) :=
  match s.consumer with
  | .idle => none
  | .scanning count =>
    let word := s.wordAt layout count
    if layout.wordCount ≤ count then some ({ s with consumer := .idle }, [.exhausted])
    else if s.gapConsumerPending word = 0 then
      some ({ s with
          gapConsumerPending := Function.update s.gapConsumerPending word (s.gapDirtyWords word)
          gapDirtyWords := Function.update s.gapDirtyWords word 0
          consumer := .draining count },
        [])
    else some ({ s with consumer := .draining count }, [])
  | .draining count =>
    let word := s.wordAt layout count
    if s.gapConsumerPending word = 0 then some ({ s with consumer := .scanning (count + 1) }, [])
    else takeBit layout s count word
  | .reading count bitIndex => readStep layout s count bitIndex field

def step (s : State) : Action → Option (State × List Dispatcher.Event)
  | .publish producer channelSlot gap => publishStep layout s producer channelSlot gap
  | .produce producer field => produceStep layout s producer field
  | .tryPollGap =>
    match s.consumer with
    | .idle => some ({ s with consumer := .scanning 0 }, [])
    | _ => none
  | .consume field => consumeStep layout s field

/-- The lanes and the consumer, from construction. -/
def machine : Machine State Action Dispatcher.Event where
  start := {}
  step := step layout

variable {layout}

/-! ## Calls -/

/-- `TryPollGap` returns. -/
def isReturn : Dispatcher.Event → Bool
  | .published _ _ _ => false
  | .polled _ _ _ => true
  | .exhausted => true

/-- The calls that have returned. -/
def returns (events : List Dispatcher.Event) : ℕ :=
  events.countP isReturn

theorem returns_append (events new : List Dispatcher.Event) :
    returns (events ++ new) = returns events + returns new :=
  List.countP_append

def Action.isConsume : Action → Bool
  | .consume _ => true
  | _ => false

def Action.isCall : Action → Bool
  | .tryPollGap => true
  | _ => false

/-- The steps that the consumer has made. -/
def consumes (actions : List Action) : ℕ :=
  actions.countP Action.isConsume

/-! ## The work left of a call -/

/-- The bits set in a word. -/
def bitCount (word : BitVec 64) : ℕ :=
  ((Finset.range 64).filter fun i => word.getLsbD i = true).card

theorem bitCount_le (word : BitVec 64) : bitCount word ≤ 64 := by
  have hle := Finset.card_filter_le (Finset.range 64) fun i => word.getLsbD i = true
  rwa [Finset.card_range] at hle

theorem bitCount_clear {word : BitVec 64} (h : word ≠ 0) :
    bitCount (word &&& ~~~wordBit word.ctz.toNat) + 1 = bitCount word := by
  obtain ⟨hlt, hbit⟩ := getLsbD_ctz h
  have herase : (Finset.range 64).filter (fun i =>
      (word &&& ~~~wordBit word.ctz.toNat).getLsbD i = true) =
      ((Finset.range 64).filter fun i => word.getLsbD i = true).erase word.ctz.toNat := by
    ext i
    rw [Finset.mem_erase, Finset.mem_filter, Finset.mem_filter, Finset.mem_range]
    constructor
    · rintro ⟨hi, hset⟩
      obtain ⟨hword, hne⟩ := (getLsbD_clear hi).1 hset
      exact ⟨fun heq => hne heq.symm, hi, hword⟩
    · rintro ⟨hne, hi, hword⟩
      exact ⟨hi, (getLsbD_clear hi).2 ⟨hword, fun heq => hne heq.symm⟩⟩
  rw [bitCount, herase]
  exact Finset.card_erase_add_one (Finset.mem_filter.2 ⟨Finset.mem_range.2 hlt, hbit⟩)

variable (layout) in
/-- The mailbox in which `TrySnapshot` is in progress. -/
def State.reads (s : State) : Option ℕ :=
  match s.consumer with
  | .reading count bitIndex => some (bitMailbox layout (s.wordAt layout count) bitIndex)
  | _ => none

variable (layout) in
/-- A bound on the steps left of the call in progress : for each word not left yet one step to
look at it, `42` for each bit, with the call of `TrySnapshot`, and one to leave it, and the step
that returns. -/
def State.workLeft (s : State) : ℕ :=
  match s.consumer with
  | .idle => 0
  | .scanning count => 2690 * (layout.wordCount - count) + 1
  | .draining count => 2690 * (layout.wordCount - (count + 1)) + 1 +
      (42 * bitCount (s.gapConsumerPending (s.wordAt layout count)) + 1)
  | .reading count bitIndex => 2690 * (layout.wordCount - (count + 1)) + 1 +
      (42 * bitCount (s.gapConsumerPending (s.wordAt layout count)) + 1) +
      (s.mailboxes (bitMailbox layout (s.wordAt layout count) bitIndex)).consumer.stepsLeft

/-- `TrySnapshot` is in progress in the mailbox that `TryPollGap` reads, and in no other. -/
def Placed (layout : GapLayout) (s : State) : Prop :=
  ∀ index, (s.mailboxes index).consumer ≠ .idle ↔ s.reads layout = some index

/-- What a step of `TrySnapshot` does to the call of `TryPollGap` : the snapshot goes on, the next
bit is taken, or the call returns. -/
theorem readStep_cases {s s' : State} {count bitIndex : ℕ} {field : GapField}
    {new : List Dispatcher.Event}
    (h : readStep layout s count bitIndex field = some (s', new)) :
    ∃ mailbox, mailbox.consumer.stepsLeft <
        (s.mailboxes (bitMailbox layout (s.wordAt layout count) bitIndex)).consumer.stepsLeft ∧
      s'.mailboxes = Function.update s.mailboxes
        (bitMailbox layout (s.wordAt layout count) bitIndex) mailbox ∧
      ((mailbox.consumer ≠ .idle ∧ new = [] ∧ s'.consumer = s.consumer ∧
          s'.gapConsumerPending = s.gapConsumerPending ∧
          s'.gapConsumerWordCursor = s.gapConsumerWordCursor) ∨
        (mailbox.consumer = .idle ∧ new = [] ∧ s'.consumer = .draining count ∧
          s'.gapConsumerPending = s.gapConsumerPending ∧
          s'.gapConsumerWordCursor = s.gapConsumerWordCursor) ∨
        mailbox.consumer = .idle ∧ returns new = 1 ∧ s'.consumer = .idle) := by
  simp only [readStep] at h
  split at h
  · cases h
  · next mailbox events hstep =>
    obtain ⟨hless, ⟨hbusy, hquiet⟩ | ⟨hidle, event, hlast, hreturn⟩⟩ := Mailbox.stepsLeft_lt hstep
    · refine ⟨mailbox, hless, ?_⟩
      rcases hquiet with rfl | rfl
      · cases h
        exact ⟨rfl, Or.inl ⟨hbusy, rfl, rfl, rfl, rfl⟩⟩
      · cases h
        exact ⟨rfl, Or.inl ⟨hbusy, rfl, rfl, rfl, rfl⟩⟩
    · refine ⟨mailbox, hless, ?_⟩
      rw [hlast] at h
      cases event with
      | published gap => cases hreturn
      | called => cases hreturn
      | read => cases hreturn
      | ready token snapshot =>
        cases h
        exact ⟨rfl, Or.inr (Or.inr ⟨hidle, rfl, rfl⟩)⟩
      | noChange =>
        cases h
        exact ⟨rfl, Or.inr (Or.inl ⟨hidle, rfl, rfl, rfl, rfl⟩)⟩
      | busy =>
        cases h
        exact ⟨rfl, Or.inr (Or.inr ⟨hidle, rfl, rfl⟩)⟩

/-- Where no snapshot is in progress, none is in any mailbox. -/
theorem Placed.idle {s : State} (h : Placed layout s) (hreads : s.reads layout = none)
    (index : ℕ) : (s.mailboxes index).consumer = .idle := by
  by_contra hbusy
  cases hreads.symm.trans ((h index).1 hbusy)

theorem placed_of_idle {s : State} (hreads : s.reads layout = none)
    (hidle : ∀ index, (s.mailboxes index).consumer = .idle) : Placed layout s :=
  fun index => ⟨fun hbusy => absurd (hidle index) hbusy,
    fun heq => by cases hreads.symm.trans heq⟩

theorem placed_of_busy {s s' : State} {index : ℕ} {mailbox : Mailbox.State}
    (hmailboxes : s'.mailboxes = Function.update s.mailboxes index mailbox)
    (hothers : ∀ other, other ≠ index → (s.mailboxes other).consumer = .idle)
    (hbusy : mailbox.consumer ≠ .idle) (hreads : s'.reads layout = some index) :
    Placed layout s' := by
  intro other
  rw [hreads, hmailboxes, Option.some.injEq]
  by_cases hindex : other = index
  · rw [hindex, Function.update_self]
    exact ⟨fun _ => rfl, fun _ => hbusy⟩
  · rw [Function.update_of_ne hindex]
    exact ⟨fun h => absurd (hothers other hindex) h, fun h => absurd h.symm hindex⟩

theorem takeBit_workLeft {s s' : State} {count : ℕ} {new : List Dispatcher.Event}
    (hs : Placed layout s) (hc : s.consumer = .draining count)
    (hpending : s.gapConsumerPending (s.wordAt layout count) ≠ 0)
    (h : takeBit layout s count (s.wordAt layout count) = some (s', new)) :
    s'.workLeft layout < s.workLeft layout ∧ Placed layout s' ∧ new = [] ∧
      s'.consumer ≠ .idle := by
  have hreads : s.reads layout = none := by rw [State.reads, hc]
  have hclear := bitCount_clear hpending
  simp only [takeBit] at h
  split_ifs at h with houtside
  · cases h
    refine ⟨?_, placed_of_idle ?_ (hs.idle hreads), rfl, ?_⟩
    · simp only [State.workLeft, State.wordAt, hc, Function.update_self] at hclear ⊢
      omega
    · simp [State.reads, hc]
    · simp [hc]
  · have hidle := hs.idle hreads (bitMailbox layout (s.wordAt layout count)
      (s.gapConsumerPending (s.wordAt layout count)).ctz.toNat)
    simp only [Mailbox.step, hidle, Option.map_some] at h
    cases h
    refine ⟨?_, placed_of_busy rfl (fun other _ => hs.idle hreads other) (by simp) rfl, rfl,
      by simp⟩
    simp only [State.workLeft, State.wordAt, hc, Function.update_self,
      Mailbox.Consumer.stepsLeft, GapMailboxSlot.kMaximumAttempts] at hclear ⊢
    simp only [Nat.zero_lt_succ, if_true]
    omega

/-- A step of a snapshot : it goes on, or the call goes on without it, or the call returns. -/
theorem readStep_workLeft {s s' : State} {count bitIndex : ℕ} {field : GapField}
    {new : List Dispatcher.Event} (hs : Placed layout s) (hc : s.consumer = .reading count bitIndex)
    (h : readStep layout s count bitIndex field = some (s', new)) :
    s'.workLeft layout < s.workLeft layout ∧ Placed layout s' ∧
      ((returns new = 0 ∧ s'.consumer ≠ .idle) ∨ (returns new = 1 ∧ s'.consumer = .idle)) := by
  obtain ⟨mailbox, hless, hmailboxes, hcases⟩ := readStep_cases h
  have hplace : s.reads layout = some (bitMailbox layout (s.wordAt layout count) bitIndex) := by
    rw [State.reads, hc]
  have hothers : ∀ other, other ≠ bitMailbox layout (s.wordAt layout count) bitIndex →
      (s.mailboxes other).consumer = .idle := by
    intro other hne
    by_contra hbusy
    exact hne (Option.some.inj (((hs other).1 hbusy).symm.trans hplace))
  have hall : mailbox.consumer = .idle → ∀ index, (s'.mailboxes index).consumer = .idle := by
    intro hidle index
    rw [hmailboxes]
    by_cases hindex : index = bitMailbox layout (s.wordAt layout count) bitIndex
    · rw [hindex, Function.update_self]
      exact hidle
    · rw [Function.update_of_ne hindex]
      exact hothers index hindex
  rcases hcases with ⟨hbusy, rfl, hconsumer, hpending, hcursor⟩ |
    ⟨hidle, rfl, hconsumer, hpending, hcursor⟩ | ⟨hidle, hreturns, hconsumer⟩
  · have hreads : s'.reads layout = s.reads layout := by
      simp only [State.reads, State.wordAt, hconsumer, hcursor]
    refine ⟨?_, placed_of_busy hmailboxes hothers hbusy (hreads.trans hplace),
      Or.inl ⟨rfl, by rw [hconsumer, hc]; simp⟩⟩
    simp only [State.workLeft, State.wordAt, hconsumer, hc, hpending, hcursor,
      hmailboxes] at hless ⊢
    rw [Function.update_self]
    omega
  · refine ⟨?_, placed_of_idle (by rw [State.reads, hconsumer]) (hall hidle),
      Or.inl ⟨rfl, by rw [hconsumer]; simp⟩⟩
    simp only [State.workLeft, State.wordAt, hconsumer, hc, hpending, hcursor] at hless ⊢
    omega
  · refine ⟨?_, placed_of_idle (by rw [State.reads, hconsumer]) (hall hidle),
      Or.inr ⟨hreturns, hconsumer⟩⟩
    simp only [State.workLeft, hconsumer, hc]
    omega

/-- A step of the consumer : the call goes on, or it returns. -/
theorem consumeStep_workLeft {s s' : State} {field : GapField} {new : List Dispatcher.Event}
    (hs : Placed layout s) (h : consumeStep layout s field = some (s', new)) :
    s'.workLeft layout < s.workLeft layout ∧ Placed layout s' ∧
      ((returns new = 0 ∧ s'.consumer ≠ .idle) ∨ (returns new = 1 ∧ s'.consumer = .idle)) := by
  cases hc : s.consumer with
  | idle =>
    rw [consumeStep, hc] at h
    cases h
  | scanning count =>
    have hidle := hs.idle (by rw [State.reads, hc])
    simp only [consumeStep, hc] at h
    split_ifs at h with hlast hempty
    · cases h
      refine ⟨?_, placed_of_idle rfl hidle, Or.inr ⟨rfl, rfl⟩⟩
      simp only [State.workLeft, hc]
      omega
    · cases h
      refine ⟨?_, placed_of_idle rfl hidle, Or.inl ⟨rfl, by simp⟩⟩
      have hle := bitCount_le (s.gapDirtyWords (s.wordAt layout count))
      simp only [State.workLeft, State.wordAt, hc, Function.update_self] at hle ⊢
      omega
    · cases h
      refine ⟨?_, placed_of_idle rfl hidle, Or.inl ⟨rfl, by simp⟩⟩
      have hle := bitCount_le (s.gapConsumerPending (s.wordAt layout count))
      simp only [State.workLeft, State.wordAt, hc] at hle ⊢
      omega
  | draining count =>
    simp only [consumeStep, hc] at h
    split_ifs at h with hempty
    · cases h
      refine ⟨?_, placed_of_idle rfl (hs.idle (by rw [State.reads, hc])), Or.inl ⟨rfl, by simp⟩⟩
      simp only [State.workLeft, hc]
      omega
    · obtain ⟨hless, hplaced, rfl, hbusy⟩ := takeBit_workLeft hs hc hempty h
      exact ⟨hless, hplaced, Or.inl ⟨rfl, hbusy⟩⟩
  | reading count bitIndex =>
    rw [consumeStep, hc] at h
    exact readStep_workLeft hs hc h

/-- The lanes do not touch what is the consumer's. -/
theorem lane_keeps {s s' : State} {new : List Dispatcher.Event} {action : Action}
    (hconsume : action.isConsume = false) (hcall : action.isCall = false)
    (hstep : step layout s action = some (s', new)) :
    s'.consumer = s.consumer ∧ s'.gapConsumerPending = s.gapConsumerPending ∧
      s'.gapConsumerWordCursor = s.gapConsumerWordCursor ∧
      (∀ index, (s'.mailboxes index).consumer = (s.mailboxes index).consumer) ∧
      returns new = 0 := by
  have hkept : ∀ (index : ℕ) (mailbox : Mailbox.State),
      mailbox.consumer = (s.mailboxes index).consumer → ∀ other,
        (Function.update s.mailboxes index mailbox other).consumer =
          (s.mailboxes other).consumer := by
    intro index mailbox hsame other
    by_cases hindex : other = index
    · rw [hindex, Function.update_self, hsame]
    · rw [Function.update_of_ne hindex]
  cases action with
  | publish producer channelSlot gap =>
    simp only [step, publishStep] at hstep
    split at hstep
    · split_ifs at hstep
      · cases hstep
        exact ⟨rfl, rfl, rfl, fun _ => rfl, rfl⟩
      · obtain ⟨next, hnext, he⟩ := Option.map_eq_some_iff.1 hstep
        cases he
        refine ⟨rfl, rfl, rfl, hkept _ _ ?_, rfl⟩
        simp only [Mailbox.step] at hnext
        split at hnext
        · cases hnext
          rfl
        · cases hnext
    · cases hstep
  | produce producer field =>
    simp only [step, produceStep] at hstep
    split at hstep
    · cases hstep
    · split at hstep
      · cases hstep
      · next hnext =>
        cases hstep
        exact ⟨rfl, rfl, rfl, hkept _ _ (Mailbox.produceStep_consumer hnext), rfl⟩
      · next hnext =>
        cases hstep
        exact ⟨rfl, rfl, rfl, hkept _ _ (Mailbox.produceStep_consumer (by assumption)), rfl⟩
    · cases hstep
      exact ⟨rfl, rfl, rfl, fun _ => rfl, rfl⟩
  | tryPollGap => cases hcall
  | consume field => cases hconsume

theorem Placed.lane {s s' : State} {new : List Dispatcher.Event} {action : Action}
    (h : Placed layout s) (hconsume : action.isConsume = false) (hcall : action.isCall = false)
    (hstep : step layout s action = some (s', new)) : Placed layout s' := by
  obtain ⟨hconsumer, -, hcursor, hmailboxes, -⟩ := lane_keeps hconsume hcall hstep
  have hreads : s'.reads layout = s.reads layout := by
    simp only [State.reads, State.wordAt, hconsumer, hcursor]
  intro index
  rw [hmailboxes, hreads]
  exact h index

/-- A call begins where the last has returned. -/
theorem call_eq {s s' : State} {new : List Dispatcher.Event}
    (h : step layout s .tryPollGap = some (s', new)) :
    s.consumer = .idle ∧ s' = { s with consumer := .scanning 0 } ∧ new = [] := by
  simp only [step] at h
  split at h
  · next hidle =>
    cases h
    exact ⟨hidle, rfl, rfl⟩
  · cases h

theorem Placed.call {s : State} (h : Placed layout s) (hidle : s.consumer = .idle) :
    Placed layout { s with consumer := .scanning 0 } :=
  placed_of_idle rfl (h.idle (by rw [State.reads, hidle]))

theorem placed_of_reaches {s : State} {events : List Dispatcher.Event}
    (h : (machine layout).Reaches s events) : Placed layout s := by
  refine Machine.invariant (I := fun s _ => Placed layout s)
    (placed_of_idle rfl fun _ => rfl) ?_ h
  intro s log action s' new hs hstep
  replace hstep : step layout s action = some (s', new) := hstep
  cases action with
  | publish producer channelSlot gap => exact hs.lane rfl rfl hstep
  | produce producer field => exact hs.lane rfl rfl hstep
  | tryPollGap =>
    obtain ⟨hidle, rfl, -⟩ := call_eq hstep
    exact hs.call hidle
  | consume field => exact (consumeStep_workLeft hs hstep).2.1

/-- A call in progress can go on. -/
theorem exists_consumeStep {s : State} (hs : Placed layout s) (hc : s.consumer ≠ .idle) :
    ∃ field, (consumeStep layout s field).isSome := by
  cases hconsumer : s.consumer with
  | idle => exact absurd hconsumer hc
  | scanning count =>
    refine ⟨.market, ?_⟩
    simp only [consumeStep, hconsumer]
    split_ifs <;> rfl
  | draining count =>
    refine ⟨.market, ?_⟩
    have hidle := hs.idle (by rw [State.reads, hconsumer])
    simp only [consumeStep, hconsumer, takeBit, Mailbox.step, hidle, Option.map_some]
    split_ifs <;> rfl
  | reading count bitIndex =>
    have hbusy : (s.mailboxes (bitMailbox layout (s.wordAt layout count) bitIndex)).consumer ≠
        .idle := (hs _).2 (by rw [State.reads, hconsumer])
    obtain ⟨field, hfield⟩ := Mailbox.exists_consumeStep hbusy
    obtain ⟨⟨mailbox, events⟩, hstep⟩ := Option.isSome_iff_exists.1 hfield
    refine ⟨field, ?_⟩
    simp only [consumeStep, hconsumer, readStep, hstep]
    split <;> rfl

variable (layout) in
/-- A call in progress, and the actions made since it began. -/
structure Calling (actions : List Action) (s : State) (log : List Dispatcher.Event) : Prop where
  placed : Placed layout s
  work : consumes actions + s.workLeft layout ≤ 2690 * layout.wordCount + 1
  once : (returns log = 0 ∧ s.consumer ≠ .idle) ∨ (returns log = 1 ∧ s.consumer = .idle)

theorem Calling.lane {s s' : State} {log new : List Dispatcher.Event} {actions : List Action}
    {action : Action} (h : Calling layout actions s log) (hconsume : action.isConsume = false)
    (hcall : action.isCall = false) (hstep : step layout s action = some (s', new)) :
    Calling layout (actions ++ [action]) s' (log ++ new) := by
  obtain ⟨hconsumer, hpending, hcursor, hmailboxes, hreturns⟩ := lane_keeps hconsume hcall hstep
  have hwork : s'.workLeft layout = s.workLeft layout := by
    simp only [State.workLeft, State.wordAt, hconsumer, hpending, hcursor, hmailboxes]
  have hcount : consumes (actions ++ [action]) = consumes actions := by
    simp [consumes, hconsume]
  refine ⟨h.placed.lane hconsume hcall hstep, ?_, ?_⟩
  · rw [hcount, hwork]
    exact h.work
  · rw [returns_append, hreturns, hconsumer]
    exact h.once

theorem Calling.consume {s s' : State} {log new : List Dispatcher.Event} {actions : List Action}
    {field : GapField} (h : Calling layout actions s log)
    (hstep : consumeStep layout s field = some (s', new)) :
    Calling layout (actions ++ [.consume field]) s' (log ++ new) := by
  have hcount : consumes (actions ++ [.consume field]) = consumes actions + 1 := by
    simp [consumes, Action.isConsume]
  obtain ⟨hless, hplaced, hnew⟩ := consumeStep_workLeft h.placed hstep
  have hbusy : returns log = 0 := by
    rcases h.once with ⟨hnone, -⟩ | ⟨-, hidle⟩
    · exact hnone
    · rw [consumeStep, hidle] at hstep
      cases hstep
  refine ⟨hplaced, ?_, ?_⟩
  · rw [hcount]
    have := h.work
    omega
  · rw [returns_append, hbusy, Nat.zero_add]
    exact hnew

theorem Calling.start {s : State} (hs : Placed layout s) (hidle : s.consumer = .idle) :
    Calling layout [] { s with consumer := .scanning 0 } [] := by
  refine ⟨hs.call hidle, ?_, Or.inl ⟨rfl, fun h => by cases h⟩⟩
  simp only [consumes, List.countP_nil, State.workLeft]
  omega

/-- Whatever the lanes do in between, a call of `TryPollGap` returns within `2690` steps of its own
for each word and one more, it returns once, and until it has returned it can go on. -/
theorem tryPollGap_returns {s s' : State} {events new : List Dispatcher.Event}
    {actions : List Action}
    (h : (machine layout).Reaches s events)
    (hone : ∀ action ∈ actions, action.isCall = false)
    (hrun : (machine layout).runFrom s (.tryPollGap :: actions) = some (s', new)) :
    consumes actions ≤ 2690 * layout.wordCount + 1 ∧ returns new ≤ 1 ∧
      (returns new = 0 → consumes actions ≤ 2690 * layout.wordCount ∧
        ∃ field, (consumeStep layout s' field).isSome) := by
  obtain ⟨t, first, rest, hcall, hrest, rfl⟩ := Machine.runFrom_cons.1 hrun
  obtain ⟨hidle, rfl, rfl⟩ := call_eq (show step layout s .tryPollGap = _ from hcall)
  have hcalling : (∀ action ∈ actions, action.isCall = false) →
      Calling layout actions s' rest := by
    refine Machine.invariant_actions
      (I := fun actions t log => (∀ action ∈ actions, action.isCall = false) →
        Calling layout actions t log) (fun _ => Calling.start (placed_of_reaches h) hidle) ?_ hrest
    intro actions t log action u new' _ ih hlast hcalls
    have hprevious := ih fun a ha => hcalls a (List.mem_append_left _ ha)
    have hcall' := hcalls action (List.mem_append_right _ List.mem_cons_self)
    cases action with
    | consume field => exact hprevious.consume hlast
    | publish producer channelSlot gap => exact hprevious.lane rfl hcall' hlast
    | produce producer field => exact hprevious.lane rfl hcall' hlast
    | tryPollGap => cases hcall'
  obtain ⟨hplaced, hwork, honce⟩ := hcalling hone
  rw [List.nil_append]
  refine ⟨by omega, by omega, fun hnone => ?_⟩
  have hbusy : s'.consumer ≠ .idle := by
    rcases honce with ⟨-, hbusy⟩ | ⟨hreturned, -⟩
    · exact hbusy
    · omega
  refine ⟨?_, exists_consumeStep hplaced hbusy⟩
  have hpos : 0 < s'.workLeft layout := by
    unfold State.workLeft
    split
    · next hidle => exact absurd hidle hbusy
    all_goals omega
  omega

/-- A lane publishes a gap. -/
def publishCall (gap : ChannelGap) : List Action :=
  .publish 0 1 gap :: .produce 0 .market :: .produce 0 .market ::
    (GapField.all.map (.produce 0) ++ [.produce 0 .market, .produce 0 .market])

/-- The first steps of a call, in which a lane publishes between the two loads of the token. -/
def interruptedCall : List Action :=
  List.replicate 3 (.consume .market) ++ publishCall { firstMissing := 2 } ++
    List.replicate 3 (.consume .market)

/-- The first attempt has failed, and the second begins. -/
theorem run_interrupted :
    ((machine sampleLayout).run (publishCall {} ++ .tryPollGap :: interruptedCall)).map
      (fun r => (returns r.2, (r.1.mailboxes 1).consumer.stepsLeft)) = some (0, 37) := by
  decide +kernel

theorem tryPollGap_returns_sample : ∃ s events s' new,
    (machine sampleLayout).Reaches s events ∧
      (machine sampleLayout).runFrom s (.tryPollGap :: interruptedCall) = some (s', new) ∧
      returns new = 0 ∧ (s'.mailboxes 1).consumer.stepsLeft = 37 ∧
      consumes interruptedCall ≤ 2690 ∧ ∃ field, (consumeStep sampleLayout s' field).isSome := by
  obtain ⟨⟨s', log⟩, hrun, hlast⟩ := Option.map_eq_some_iff.1 run_interrupted
  obtain ⟨hreturns, hsteps⟩ := Prod.mk.inj hlast
  obtain ⟨s, events, new, hbefore, hcall, rfl⟩ := Machine.runFrom_append.1 hrun
  rw [returns_append] at hreturns
  have hnone : returns new = 0 := Nat.eq_zero_of_add_eq_zero_left hreturns
  have hreach : (machine sampleLayout).Reaches s events := ⟨publishCall {}, hbefore⟩
  have hone : ∀ action ∈ interruptedCall, action.isCall = false := by decide
  obtain ⟨-, -, hgoes⟩ := tryPollGap_returns hreach hone hcall
  exact ⟨s, events, s', new, hreach, hcall, hnone, hsteps, hgoes hnone⟩

/-! ## Calls in which nobody else moves -/

/-- Where a lane is that has published a gap, or none. -/
def Lane.ofMarking : Option ℕ → Lane
  | none => .idle
  | some channelSlot => .marking channelSlot

theorem Lane.ofMarking_none : Lane.ofMarking none = .idle := rfl

theorem Lane.ofMarking_some (channelSlot : ℕ) :
    Lane.ofMarking (some channelSlot) = .marking channelSlot := rfl

def Consumer.ofWhole : Dispatcher.Consumer → Consumer
  | .idle => .idle
  | .scanning count => .scanning count
  | .draining count => .draining count

/-- A state of `Dispatcher.machine` : nobody is in the middle of a mailbox. -/
def State.ofWhole (w : Dispatcher.State) : State where
  mailboxes index := { slot := w.members.gapSlots index }
  gapDirtyWords := w.members.gapDirtyWords
  gapConsumerPending := w.members.gapConsumerPending
  gapConsumerWordCursor := w.members.gapConsumerWordCursor
  lanes producer := .ofMarking (w.marking producer)
  consumer := .ofWhole w.consumer

theorem mailboxes_update (slots : ℕ → GapMailboxSlot) (index : ℕ) (slot : GapMailboxSlot) :
    (fun other => { slot := Function.update slots index slot other : Mailbox.State }) =
      Function.update (fun other => { slot := slots other }) index { slot := slot } := by
  funext other
  by_cases hindex : other = index
  · rw [hindex, Function.update_self, Function.update_self]
  · rw [Function.update_of_ne hindex, Function.update_of_ne hindex]

theorem lanes_update (marking : ℕ → Option ℕ) (producer : ℕ) (mark : Option ℕ) :
    (fun other => Lane.ofMarking (Function.update marking producer mark other)) =
      Function.update (fun other => .ofMarking (marking other)) producer (.ofMarking mark) := by
  funext other
  by_cases hproducer : other = producer
  · rw [hproducer, Function.update_self, Function.update_self]
  · rw [Function.update_of_ne hproducer, Function.update_of_ne hproducer]

/-- The steps of `Publish` before the token is stored. -/
theorem runFrom_publishing {fields : List GapField} :
    ∀ {s : State} {producer channelSlot : ℕ} {mailbox : Mailbox.State},
      s.lanes producer = .publishing channelSlot →
      Mailbox.machine.runFrom (s.mailboxes (layout.slotIndex producer channelSlot))
        (fields.map .produce) = some (mailbox, []) →
      (machine layout).runFrom s (fields.map (.produce producer)) = some ({ s with
        mailboxes := Function.update s.mailboxes (layout.slotIndex producer channelSlot) mailbox },
        []) := by
  induction fields with
  | nil =>
    intro s producer channelSlot mailbox hlane hrun
    obtain ⟨rfl, -⟩ := Prod.mk.inj (Option.some.inj hrun)
    rw [Function.update_eq_self]
    rfl
  | cons field fields ih =>
    intro s producer channelSlot mailbox hlane hrun
    obtain ⟨next, new, rest, hstep, hrest, hlog⟩ := Machine.runFrom_cons.1 hrun
    obtain ⟨rfl, rfl⟩ := List.append_eq_nil_iff.1 hlog.symm
    replace hstep : Mailbox.produceStep (s.mailboxes (layout.slotIndex producer channelSlot))
      field = some (next, []) := hstep
    refine Machine.runFrom_cons.2 ⟨{ s with
      mailboxes := Function.update s.mailboxes (layout.slotIndex producer channelSlot) next },
      [], [], ?_, ?_, rfl⟩
    · simp only [machine, step, produceStep, hlane, hstep]
    · have := ih (s := { s with
        mailboxes := Function.update s.mailboxes (layout.slotIndex producer channelSlot) next })
        hlane (by simp only [Function.update_self]; exact hrest)
      simpa only [Function.update_idem] using this

/-- The steps of `TrySnapshot` before it returns. -/
theorem runFrom_reading {fields : List GapField} :
    ∀ {s : State} {count bitIndex : ℕ} {mailbox : Mailbox.State} {log : List Mailbox.Event},
      s.consumer = .reading count bitIndex →
      Mailbox.machine.runFrom (s.mailboxes (bitMailbox layout (s.wordAt layout count) bitIndex))
        (fields.map .consume) = some (mailbox, log) →
      (∀ event ∈ log, event.isReturn = false) →
      (machine layout).runFrom s (fields.map .consume) = some ({ s with
        mailboxes := Function.update s.mailboxes
          (bitMailbox layout (s.wordAt layout count) bitIndex) mailbox }, []) := by
  induction fields with
  | nil =>
    intro s count bitIndex mailbox log hc hrun _
    obtain ⟨rfl, -⟩ := Prod.mk.inj (Option.some.inj hrun)
    rw [Function.update_eq_self]
    rfl
  | cons field fields ih =>
    intro s count bitIndex mailbox log hc hrun hquiet
    obtain ⟨next, new, rest, hstep, hrest, rfl⟩ := Machine.runFrom_cons.1 hrun
    replace hstep : Mailbox.consumeStep
      (s.mailboxes (bitMailbox layout (s.wordAt layout count) bitIndex)) field =
        some (next, new) := hstep
    refine Machine.runFrom_cons.2 ⟨{ s with
      mailboxes := Function.update s.mailboxes
        (bitMailbox layout (s.wordAt layout count) bitIndex) next }, [], [], ?_, ?_, rfl⟩
    · obtain ⟨-, ⟨-, rfl | rfl⟩ | ⟨-, event, hlast, hreturn⟩⟩ := Mailbox.stepsLeft_lt hstep
      · simp only [machine, step, consumeStep, hc, readStep, hstep, List.getLast?_nil]
      · simp only [machine, step, consumeStep, hc, readStep, hstep, List.getLast?_singleton]
      · have hmem := List.mem_append_left rest (List.mem_of_getLast? hlast)
        cases (hquiet event hmem).symm.trans hreturn
    · have := ih (s := { s with
        mailboxes := Function.update s.mailboxes
          (bitMailbox layout (s.wordAt layout count) bitIndex) next }) hc
        (by simp only [State.wordAt, Function.update_self]; exact hrest)
        fun event hevent => hquiet event (List.mem_append_right new hevent)
      simp only [State.wordAt, Function.update_idem] at this ⊢
      exact this

/-- The fields that `Publish` is given, as in `Mailbox.runFrom_publish`. -/
def publishFields : List GapField :=
  [.market, .market] ++ GapField.all

theorem runFrom_publishFields (slot : GapMailboxSlot) (gap : ChannelGap) :
    Mailbox.machine.runFrom ⟨slot, .called gap, .idle⟩ (publishFields.map .produce) =
      some (⟨{ slot with
        buffers := (slot.publish gap).buffers },
          .writing gap (chooseTarget (tokenIndex slot.publishedToken) slot.readerIndex) [],
          .idle⟩, []) := by
  have hwrite := Mailbox.runFrom_write gap
    (chooseTarget (tokenIndex slot.publishedToken) slot.readerIndex) GapField.all
    ⟨slot, .idle, .idle⟩
  rw [GapField.foldl_copy_all] at hwrite
  rw [publishFields, List.map_append]
  exact Machine.runFrom_append.2 ⟨_, [], [], rfl, hwrite, rfl⟩

theorem exists_runFrom_publish {w w' : Dispatcher.State} {producer channelSlot : ℕ}
    {gap : ChannelGap} {new : List Dispatcher.Event}
    (h : Dispatcher.publishStep layout w producer channelSlot gap = some (w', new)) :
    ∃ actions, (machine layout).runFrom (.ofWhole w) actions = some (.ofWhole w', new) := by
  have hmarking : w.marking producer = none := by
    by_contra hbusy
    rw [Dispatcher.publishStep, if_pos hbusy] at h
    cases h
  have hlane : (State.ofWhole w).lanes producer = .idle := by
    simp only [State.ofWhole, hmarking, Lane.ofMarking_none]
  rw [Dispatcher.publishStep, if_neg (not_not.2 hmarking)] at h
  split_ifs at h with hrange
  · cases h
    refine ⟨[.publish producer channelSlot gap], Machine.runFrom_one.2 ?_⟩
    simp only [machine, step, publishStep, hlane, if_pos hrange]
  · cases h
    have hwrite := runFrom_publishFields
      (w.members.gapSlots (layout.slotIndex producer channelSlot)) gap
    refine ⟨.publish producer channelSlot gap ::
      (publishFields.map (.produce producer) ++ [.produce producer .market]), ?_⟩
    refine Machine.runFrom_cons.2 ⟨{ State.ofWhole w with
      mailboxes := Function.update (State.ofWhole w).mailboxes
        (layout.slotIndex producer channelSlot)
        ⟨w.members.gapSlots (layout.slotIndex producer channelSlot), .called gap, .idle⟩
      lanes := Function.update (State.ofWhole w).lanes producer (.publishing channelSlot) },
      [], _, ?_, ?_, rfl⟩
    · simp only [machine, step, publishStep, hlane, if_neg hrange]
      rfl
    · have hwritten := @runFrom_publishing layout publishFields { State.ofWhole w with
        mailboxes := Function.update (State.ofWhole w).mailboxes
          (layout.slotIndex producer channelSlot)
          ⟨w.members.gapSlots (layout.slotIndex producer channelSlot), .called gap, .idle⟩
        lanes := Function.update (State.ofWhole w).lanes producer (.publishing channelSlot) }
        producer channelSlot _ (Function.update_self _ _ _)
        (by simp only [Function.update_self]; exact hwrite)
      refine Machine.runFrom_append.2 ⟨_, [], _, hwritten, Machine.runFrom_one.2 ?_, rfl⟩
      simp only [machine, step, produceStep, Function.update_self, Function.update_idem,
        Mailbox.produceStep]
      simp only [State.ofWhole, mailboxes_update, lanes_update, Lane.ofMarking_some]
      rfl

theorem exists_runFrom_mark {w w' : Dispatcher.State} {producer : ℕ} {new : List Dispatcher.Event}
    (h : Dispatcher.markStep layout w producer = some (w', new)) :
    ∃ actions, (machine layout).runFrom (.ofWhole w) actions = some (.ofWhole w', new) := by
  simp only [Dispatcher.markStep] at h
  cases hmarking : w.marking producer with
  | none =>
    rw [hmarking] at h
    cases h
  | some channelSlot =>
    rw [hmarking] at h
    cases h
    refine ⟨[.produce producer .market], Machine.runFrom_one.2 ?_⟩
    have hlane : (State.ofWhole w).lanes producer = .marking channelSlot := by
      simp [State.ofWhole, hmarking, Lane.ofMarking]
    simp only [machine, step, produceStep, hlane]
    simp only [State.ofWhole, lanes_update, Lane.ofMarking_none]

theorem takeBit_outside {s : State} {count word : ℕ}
    (houtside : layout.gapChannelsPerProducer ≤
      (bitPlace layout word (s.gapConsumerPending word).ctz.toNat).2) :
    takeBit layout s count word = some ({ s with
      gapConsumerPending := Function.update s.gapConsumerPending word
        (s.gapConsumerPending word &&& ~~~wordBit (s.gapConsumerPending word).ctz.toNat) }, []) :=
  if_pos houtside

theorem takeBit_call {s : State} {count word : ℕ} {slot : GapMailboxSlot}
    (hinside : ¬layout.gapChannelsPerProducer ≤
      (bitPlace layout word (s.gapConsumerPending word).ctz.toNat).2)
    (hmailbox : s.mailboxes (bitMailbox layout word (s.gapConsumerPending word).ctz.toNat) =
      { slot := slot }) :
    takeBit layout s count word = some ({ s with
      gapConsumerPending := Function.update s.gapConsumerPending word
        (s.gapConsumerPending word &&& ~~~wordBit (s.gapConsumerPending word).ctz.toNat)
      mailboxes := Function.update s.mailboxes
        (bitMailbox layout word (s.gapConsumerPending word).ctz.toNat)
        ⟨slot, .idle, .attempting 0⟩
      consumer := .reading count (s.gapConsumerPending word).ctz.toNat }, []) := by
  rw [takeBit, if_neg hinside]
  dsimp only
  rw [hmailbox]
  rfl

section Reading

variable {s : State} {count bitIndex index : ℕ} {slot : GapMailboxSlot}

/-- A step of a call that reads a mailbox. -/
theorem step_reading (hc : s.consumer = .reading count bitIndex) (field : GapField) :
    (machine layout).step s (.consume field) = readStep layout s count bitIndex field := by
  simp only [machine, step, consumeStep, hc]

theorem readStep_noChange (hindex : bitMailbox layout (s.wordAt layout count) bitIndex = index)
    {field : GapField} {mailbox : Mailbox.State} {events : List Mailbox.Event}
    (hstep : Mailbox.consumeStep (s.mailboxes index) field = some (mailbox, events))
    (hlast : events.getLast? = some .noChange) :
    readStep layout s count bitIndex field = some ({ s with
      mailboxes := Function.update s.mailboxes index mailbox
      consumer := .draining count }, []) := by
  simp only [readStep, hindex, hstep, hlast]

theorem readStep_ready (hindex : bitMailbox layout (s.wordAt layout count) bitIndex = index)
    {field : GapField} {mailbox : Mailbox.State} {events : List Mailbox.Event} {token : BitVec 64}
    {snapshot : ChannelGap}
    (hstep : Mailbox.consumeStep (s.mailboxes index) field = some (mailbox, events))
    (hlast : events.getLast? = some (.ready token snapshot)) :
    readStep layout s count bitIndex field = some ({ s with
      mailboxes := Function.update s.mailboxes index mailbox
      gapConsumerWordCursor := (s.wordAt layout count + 1) % layout.wordCount
      consumer := .idle },
      [.polled (bitPlace layout (s.wordAt layout count) bitIndex).1
        (bitPlace layout (s.wordAt layout count) bitIndex).2 snapshot]) := by
  simp only [readStep, hindex, hstep, hlast]

/-- The mailbox when an attempt has copied the fields of its buffer. -/
def copied (slot : GapMailboxSlot) : Mailbox.State :=
  ⟨{ slot with readerIndex := kNoReader }, .idle,
    .copied slot.publishedToken (slot.buffers (tokenBuffer slot.publishedToken))⟩

theorem consumeStep_copied_same {field : GapField}
    (hsame : slot.deliveredToken = slot.publishedToken) :
    Mailbox.consumeStep (copied slot) field =
      some (⟨{ slot with readerIndex := kNoReader }, .idle, .idle⟩, [.noChange]) := by
  simp [Mailbox.consumeStep, copied, hsame]

theorem consumeStep_copied_other {field : GapField}
    (hother : slot.deliveredToken ≠ slot.publishedToken) :
    Mailbox.consumeStep (copied slot) field =
      some (⟨{ slot with
          readerIndex := kNoReader
          deliveredToken := slot.publishedToken }, .idle, .idle⟩,
        [.ready slot.publishedToken (slot.buffers (tokenBuffer slot.publishedToken))]) := by
  simp [Mailbox.consumeStep, copied, hother]

/-- The steps of a snapshot that finds a token, up to its answer. -/
theorem exists_runFrom_copied (hc : s.consumer = .reading count bitIndex)
    (hindex : bitMailbox layout (s.wordAt layout count) bitIndex = index)
    (hmailbox : s.mailboxes index = ⟨slot, .idle, .attempting 0⟩)
    (htoken : tokenIndex slot.publishedToken < 3) {r : State × List Dispatcher.Event}
    (hanswer : readStep layout { s with
      mailboxes := Function.update s.mailboxes index (copied slot) }
      count bitIndex .market = some r) :
    ∃ actions, (machine layout).runFrom s actions = some r := by
  have hattempt := Mailbox.runFrom_attempt ⟨slot, .idle, .idle⟩ htoken
  have hcopied := @runFrom_reading layout _ _ _ _ _ _ hc
    (by rw [hindex, hmailbox]; exact hattempt) (by simp [Mailbox.Event.isReturn])
  rw [hindex] at hcopied
  refine ⟨Mailbox.attemptFields.map .consume ++ [.consume .market], Machine.runFrom_append.2
    ⟨_, [], _, hcopied, Machine.runFrom_one.2 ((step_reading ?_ _).trans hanswer), rfl⟩⟩
  exact hc

/-- The steps of a snapshot from its first on, to its answer. -/
theorem exists_runFrom_snapshot (hc : s.consumer = .reading count bitIndex)
    (hindex : bitMailbox layout (s.wordAt layout count) bitIndex = index)
    (hmailbox : s.mailboxes index = ⟨slot, .idle, .attempting 0⟩) :
    ∃ actions, (machine layout).runFrom s actions = some
      (match slot.trySnapshot {} with
      | (.kReady, snapshot, slot') =>
        ({ s with
            mailboxes := Function.update s.mailboxes index { slot := slot' }
            gapConsumerWordCursor := (s.wordAt layout count + 1) % layout.wordCount
            consumer := .idle },
          [.polled (bitPlace layout (s.wordAt layout count) bitIndex).1
            (bitPlace layout (s.wordAt layout count) bitIndex).2 snapshot])
      | (_, _, slot') =>
        ({ s with
            mailboxes := Function.update s.mailboxes index { slot := slot' }
            consumer := .draining count },
          [])) := by
  rcases trySnapshot_cases slot {} with
    ⟨htoken, htry⟩ | ⟨htoken, hsame, htry⟩ | ⟨htoken, hother, htry⟩
  · rw [htry]
    refine ⟨[.consume .market], Machine.runFrom_one.2 ((step_reading hc _).trans ?_)⟩
    have hstep : Mailbox.consumeStep (s.mailboxes index) .market =
        some (⟨slot, .idle, .idle⟩, [.read, .noChange]) := by
      rw [hmailbox]
      simp [Mailbox.consumeStep, kMaximumAttempts, htoken]
    exact readStep_noChange hindex hstep rfl
  · rw [htry]
    refine exists_runFrom_copied hc hindex hmailbox htoken ?_
    have hanswer := @readStep_noChange layout { s with
      mailboxes := Function.update s.mailboxes index (copied slot) }
      count bitIndex index hindex .market _ _
      (by simp only [Function.update_self]; exact consumeStep_copied_same hsame) rfl
    simpa only [Function.update_idem] using hanswer
  · rw [htry]
    refine exists_runFrom_copied hc hindex hmailbox htoken ?_
    have hanswer := @readStep_ready layout { s with
      mailboxes := Function.update s.mailboxes index (copied slot) }
      count bitIndex index hindex .market _ _ _ _
      (by simp only [Function.update_self]; exact consumeStep_copied_other hother) rfl
    rw [Function.update_idem] at hanswer
    exact hanswer

end Reading

theorem State.ofWhole_eq (slots : ℕ → GapMailboxSlot) (dirty pending : ℕ → BitVec 64) (cursor : ℕ)
    (marking : ℕ → Option ℕ) (consumer : Dispatcher.Consumer) :
    State.ofWhole ⟨⟨slots, dirty, pending, cursor⟩, marking, consumer⟩ =
      ⟨fun index => { slot := slots index }, dirty, pending, cursor,
        fun producer => .ofMarking (marking producer), .ofWhole consumer⟩ :=
  rfl

/-- The snapshot of the lowest bit's mailbox, from its call to its answer. -/
theorem exists_runFrom_takeBit {w w' : Dispatcher.State} {count word : ℕ}
    {new : List Dispatcher.Event} (hc : w.consumer = .draining count)
    (hword : (State.ofWhole w).wordAt layout count = word)
    (hpending : w.members.gapConsumerPending word ≠ 0)
    (h : Dispatcher.takeBit layout w count word = (w', new)) :
    ∃ actions, (machine layout).runFrom (.ofWhole w) actions = some (.ofWhole w', new) := by
  obtain ⟨⟨slots, dirty, pending, cursor⟩, marking, consumer⟩ := w
  obtain rfl : consumer = .draining count := hc
  replace hpending : pending word ≠ 0 := hpending
  rw [State.ofWhole_eq] at hword ⊢
  replace hword : (cursor + count) % layout.wordCount = word := hword
  have htake : (machine layout).step ⟨fun index => { slot := slots index }, dirty, pending, cursor,
      fun producer => .ofMarking (marking producer), .draining count⟩ (.consume .market) =
      takeBit layout ⟨fun index => { slot := slots index }, dirty, pending, cursor,
        fun producer => .ofMarking (marking producer), .draining count⟩ count word := by
    simp only [machine, step, consumeStep, State.wordAt, hword]
    exact if_neg hpending
  rw [Dispatcher.takeBit] at h
  dsimp only at h
  generalize hbit : (pending word).ctz.toNat = bitIndex at h
  split_ifs at h with houtside
  · cases h
    refine ⟨[.consume .market], Machine.runFrom_one.2 (htake.trans ?_)⟩
    rw [takeBit_outside (by rw [hbit]; exact houtside), hbit]
    rfl
  · rw [takeBit_call (by rw [hbit]; exact houtside) rfl, hbit] at htake
    obtain ⟨index, hindex⟩ : ∃ index, bitMailbox layout word bitIndex = index := ⟨_, rfl⟩
    have hslot : layout.slotIndex (word / layout.gapWordsPerProducer)
        (word % layout.gapWordsPerProducer * 64 + bitIndex) = index := hindex
    rw [hslot] at h
    rw [hindex] at htake
    obtain ⟨actions, hsnapshot⟩ := @exists_runFrom_snapshot layout
      ⟨Function.update (fun other => { slot := slots other }) index
        ⟨slots index, .idle, .attempting 0⟩, dirty, Function.update pending word
          (pending word &&& ~~~wordBit bitIndex), cursor,
        fun producer => .ofMarking (marking producer), .reading count bitIndex⟩
      count bitIndex index (slots index) rfl (by rw [State.wordAt, hword, hindex])
      (by simp only [Function.update_self])
    refine ⟨.consume .market :: actions,
      Machine.runFrom_cons.2 ⟨_, [], _, htake, hsnapshot.trans ?_, rfl⟩⟩
    simp only [Function.update_idem]
    rcases trySnapshot_cases (slots index) {} with ⟨-, htry⟩ | ⟨-, -, htry⟩ | ⟨-, -, htry⟩
    all_goals
      rw [htry] at h ⊢
      cases h
      rw [State.ofWhole_eq, mailboxes_update]
    · rfl
    · rfl
    · rw [State.wordAt, hword]
      rfl

theorem exists_runFrom_consume {w w' : Dispatcher.State} {new : List Dispatcher.Event}
    (h : Dispatcher.consumeStep layout w = some (w', new)) :
    ∃ actions, (machine layout).runFrom (.ofWhole w) actions = some (.ofWhole w', new) := by
  cases hc : w.consumer with
  | idle =>
    rw [Dispatcher.consumeStep, hc] at h
    cases h
  | scanning count =>
    simp only [Dispatcher.consumeStep, hc] at h
    refine ⟨[.consume .market], Machine.runFrom_one.2 ?_⟩
    have hconsumer : (State.ofWhole w).consumer = .scanning count := by
      simp only [State.ofWhole, hc, Consumer.ofWhole]
    simp only [machine, step, consumeStep, hconsumer]
    split_ifs at h with hlast hempty
    · cases h
      rw [if_pos hlast]
      rfl
    · cases h
      exact (if_neg hlast).trans (if_pos hempty)
    · cases h
      exact (if_neg hlast).trans (if_neg hempty)
  | draining count =>
    simp only [Dispatcher.consumeStep, hc] at h
    split_ifs at h with hempty
    · cases h
      refine ⟨[.consume .market], Machine.runFrom_one.2 ?_⟩
      have hconsumer : (State.ofWhole w).consumer = .draining count := by
        simp only [State.ofWhole, hc, Consumer.ofWhole]
      simp only [machine, step, consumeStep, hconsumer]
      exact if_pos hempty
    · exact exists_runFrom_takeBit hc rfl hempty (Option.some.inj h)

/-- A step of `Dispatcher.machine` is a run in which nobody else moves. -/
theorem exists_runFrom_step {w w' : Dispatcher.State} {action : Dispatcher.Action}
    {new : List Dispatcher.Event} (h : Dispatcher.step layout w action = some (w', new)) :
    ∃ actions, (machine layout).runFrom (.ofWhole w) actions = some (.ofWhole w', new) := by
  cases action with
  | publish producer channelSlot gap => exact exists_runFrom_publish h
  | mark producer => exact exists_runFrom_mark h
  | tryPollGap =>
    simp only [Dispatcher.step] at h
    split at h
    · next hidle =>
      cases h
      refine ⟨[.tryPollGap], Machine.runFrom_one.2 ?_⟩
      have hconsumer : (State.ofWhole w).consumer = .idle := by
        simp only [State.ofWhole, hidle, Consumer.ofWhole]
      simp only [machine, step, hconsumer]
      rfl
    · cases h
  | consume => exact exists_runFrom_consume h

/-- What `Dispatcher.machine` reaches, the calls reach step by step : every run of it is a run in
which no call is interrupted. -/
theorem reaches_ofWhole {w : Dispatcher.State} {events : List Dispatcher.Event}
    (h : (Dispatcher.machine layout).Reaches w events) :
    (machine layout).Reaches (.ofWhole w) events := by
  refine Machine.invariant (I := fun w events => (machine layout).Reaches (.ofWhole w) events)
    Machine.Reaches.start ?_ h
  intro w events action w' new hw hstep
  obtain ⟨actions, hrun⟩ := exists_runFrom_step hstep
  exact hw.runFrom hrun

end GapSteps

end L2Flow
