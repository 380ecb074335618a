import L2Flow.Mailbox

/-!
# Gap delivery

`Dispatcher` keeps one gap mailbox for each channel slot of each lane. A lane that has
published a gap sets the slot's bit in a shared dirty word; the one consumer of gaps takes
a dirty word into a private pending word, when that is empty, and asks the mailboxes whose
bits it finds there, lowest first, for a snapshot.

The steps are those that other threads can see : `Publish` and the `fetch_or` of
`PublishGap`, the exchange of a dirty word and each `TrySnapshot` of `TryPollGap`. What
lies between them reads and writes the consumer's own members only, and belongs to the next
step.
-/

namespace L2Flow

/-- The sizes a `Dispatcher` is constructed with. -/
structure GapLayout where
  tickProducers : ℕ
  gapChannelsPerProducer : ℕ

namespace GapLayout

/-- `gap_words_per_producer_`. -/
def gapWordsPerProducer (layout : GapLayout) : ℕ :=
  (layout.gapChannelsPerProducer + 63) / 64

/-- The number of dirty words. -/
def wordCount (layout : GapLayout) : ℕ :=
  layout.tickProducers * layout.gapWordsPerProducer

/-- The mailbox of a channel slot. -/
def slotIndex (layout : GapLayout) (producer channelSlot : ℕ) : ℕ :=
  producer * layout.gapChannelsPerProducer + channelSlot

/-- The dirty word of a channel slot. -/
def wordIndex (layout : GapLayout) (producer channelSlot : ℕ) : ℕ :=
  producer * layout.gapWordsPerProducer + channelSlot / 64

end GapLayout

/-- `UINT64_C(1) << index`. -/
def wordBit (index : ℕ) : BitVec 64 :=
  1#64 <<< index

/-- The members of `Dispatcher` that hold gaps. -/
structure Dispatcher where
  gapSlots : ℕ → GapMailboxSlot := fun _ => {}
  gapDirtyWords : ℕ → BitVec 64 := fun _ => 0
  gapConsumerPending : ℕ → BitVec 64 := fun _ => 0
  gapConsumerWordCursor : ℕ := 0

namespace Dispatcher

open GapMailboxSlot

/-- Where `TryPollGap` is. -/
inductive Consumer where
  | idle
  /-- The word `count` places after the cursor is looked at next. -/
  | scanning (count : ℕ)
  /-- The bits of that word's pending word are taken next. -/
  | draining (count : ℕ)

structure State where
  members : Dispatcher := {}
  /-- The channel slot whose bit a lane, in the middle of `PublishGap`, sets next. -/
  marking : ℕ → Option ℕ := fun _ => none
  consumer : Consumer := .idle

inductive Event where
  | published (producer channelSlot : ℕ) (gap : ChannelGap)
  /-- `TryPollGap` returns true, with the gap of this slot. -/
  | polled (producer channelSlot : ℕ) (gap : ChannelGap)
  /-- `TryPollGap` returns false. -/
  | exhausted
  deriving DecidableEq

inductive Action where
  /-- A lane calls `PublishGap`, and publishes the gap in the slot's mailbox. -/
  | publish (producer channelSlot : ℕ) (gap : ChannelGap)
  /-- The lane sets the slot's dirty bit, and returns. -/
  | mark (producer : ℕ)
  | tryPollGap
  | consume

variable (layout : GapLayout)

def publishStep (s : State) (producer channelSlot : ℕ) (gap : ChannelGap) :
    Option (State × List Event) :=
  if s.marking producer ≠ none then none
  else if layout.tickProducers ≤ producer ∨ layout.gapChannelsPerProducer ≤ channelSlot then
    some (s, [])
  else
    let index := layout.slotIndex producer channelSlot
    some ({ s with
        members := { s.members with
          gapSlots := Function.update s.members.gapSlots index
            ((s.members.gapSlots index).publish gap) }
        marking := Function.update s.marking producer (some channelSlot) },
      [.published producer channelSlot gap])

def markStep (s : State) (producer : ℕ) : Option (State × List Event) :=
  match s.marking producer with
  | none => none
  | some channelSlot =>
    let word := layout.wordIndex producer channelSlot
    some ({ s with
        members := { s.members with
          gapDirtyWords := Function.update s.members.gapDirtyWords word
            (s.members.gapDirtyWords word ||| wordBit (channelSlot % 64)) }
        marking := Function.update s.marking producer none },
      [])

/-- Take the lowest bit of a pending word, and the snapshot of its mailbox. -/
def takeBit (s : State) (count word : ℕ) : State × List Event :=
  let pending := s.members.gapConsumerPending word
  let bitIndex := pending.ctz.toNat
  let rest := pending &&& ~~~wordBit bitIndex
  let producer := word / layout.gapWordsPerProducer
  let localWord := word % layout.gapWordsPerProducer
  let channelSlot := localWord * 64 + bitIndex
  let taken : Dispatcher :=
    { s.members with
      gapConsumerPending := Function.update s.members.gapConsumerPending word rest }
  if layout.gapChannelsPerProducer ≤ channelSlot then
    ({ s with members := taken, consumer := .draining count }, [])
  else
    let index := layout.slotIndex producer channelSlot
    match (s.members.gapSlots index).trySnapshot {} with
    | (.kBusy, _, slot) =>
      ({ s with
          members := { taken with
            gapSlots := Function.update s.members.gapSlots index slot
            gapConsumerPending := Function.update s.members.gapConsumerPending word
              (rest ||| wordBit bitIndex) }
          consumer := .idle },
        [.exhausted])
    | (.kNoChange, _, slot) =>
      ({ s with
          members := { taken with
            gapSlots := Function.update s.members.gapSlots index slot }
          consumer := .draining count },
        [])
    | (.kReady, snapshot, slot) =>
      ({ s with
          members := { taken with
            gapSlots := Function.update s.members.gapSlots index slot
            gapConsumerWordCursor := (word + 1) % layout.wordCount }
          consumer := .idle },
        [.polled producer channelSlot snapshot])

def consumeStep (s : State) : Option (State × List Event) :=
  match s.consumer with
  | .idle => none
  | .scanning count =>
    let word := (s.members.gapConsumerWordCursor + count) % layout.wordCount
    if layout.wordCount ≤ count then some ({ s with consumer := .idle }, [.exhausted])
    else if s.members.gapConsumerPending word = 0 then
      some ({ s with
          members := { s.members with
            gapConsumerPending := Function.update s.members.gapConsumerPending word
              (s.members.gapDirtyWords word)
            gapDirtyWords := Function.update s.members.gapDirtyWords word 0 }
          consumer := .draining count },
        [])
    else some ({ s with consumer := .draining count }, [])
  | .draining count =>
    let word := (s.members.gapConsumerWordCursor + count) % layout.wordCount
    if s.members.gapConsumerPending word = 0 then
      some ({ s with consumer := .scanning (count + 1) }, [])
    else some (takeBit layout s count word)

def step (s : State) : Action → Option (State × List Event)
  | .publish producer channelSlot gap => publishStep layout s producer channelSlot gap
  | .mark producer => markStep layout s producer
  | .tryPollGap =>
    match s.consumer with
    | .idle => some ({ s with consumer := .scanning 0 }, [])
    | _ => none
  | .consume => consumeStep layout s

/-- The lanes and the consumer, from construction. -/
def machine : Machine State Action Event where
  start := {}
  step := step layout

end Dispatcher

end L2Flow
