import L2Flow.Canonical
import L2Flow.Interleaving

/-!
# The gap mailbox of a channel

`GapMailboxSlot` hands the last gap of a channel from its lane to the consumer of gaps,
through three buffers and a published token, without a lock. The functions of this file
are the two member functions, once as the steps a thread makes on the shared memory and
once as a whole.

A buffer is written and copied field by field, in any order, with the other thread's steps
in between; the loads and stores of the token and of the reader's index are atomic. The
producer's generation and the consumer's delivered token are private to their threads, so
what is computed from them belongs to the next shared step.
-/

namespace L2Flow

/-! ## Copies that take several steps -/

inductive GapField where
  | market
  | channel
  | firstMissing
  | lastMissing
  | firstPresentAfterGap
  | detectedMonotonicNs
  | gapEpoch
  | cumulativeMissingSequences
  deriving DecidableEq, Repr

namespace GapField

def all : List GapField :=
  [.market, .channel, .firstMissing, .lastMissing, .firstPresentAfterGap, .detectedMonotonicNs,
    .gapEpoch, .cumulativeMissingSequences]

theorem mem_all (field : GapField) : field ∈ all := by
  cases field <;> decide

/-- Copy one field of `source` over that of `target`. -/
def copy (field : GapField) (source target : ChannelGap) : ChannelGap :=
  match field with
  | .market => { target with market := source.market }
  | .channel => { target with channel := source.channel }
  | .firstMissing => { target with firstMissing := source.firstMissing }
  | .lastMissing => { target with lastMissing := source.lastMissing }
  | .firstPresentAfterGap => { target with firstPresentAfterGap := source.firstPresentAfterGap }
  | .detectedMonotonicNs => { target with detectedMonotonicNs := source.detectedMonotonicNs }
  | .gapEpoch => { target with gapEpoch := source.gapEpoch }
  | .cumulativeMissingSequences =>
    { target with cumulativeMissingSequences := source.cumulativeMissingSequences }

/-- The two records have the same value in the field. -/
def Agrees (field : GapField) (source target : ChannelGap) : Prop :=
  match field with
  | .market => source.market = target.market
  | .channel => source.channel = target.channel
  | .firstMissing => source.firstMissing = target.firstMissing
  | .lastMissing => source.lastMissing = target.lastMissing
  | .firstPresentAfterGap => source.firstPresentAfterGap = target.firstPresentAfterGap
  | .detectedMonotonicNs => source.detectedMonotonicNs = target.detectedMonotonicNs
  | .gapEpoch => source.gapEpoch = target.gapEpoch
  | .cumulativeMissingSequences =>
    source.cumulativeMissingSequences = target.cumulativeMissingSequences

theorem agrees_copy_self (field : GapField) (source target : ChannelGap) :
    field.Agrees source (field.copy source target) := by
  cases field <;> rfl

/-- Copying a further field keeps the fields copied. -/
theorem Agrees.copy {field : GapField} {source target : ChannelGap}
    (h : field.Agrees source target) (other : GapField) :
    field.Agrees source (other.copy source target) := by
  cases field <;> cases other <;> first | rfl | exact h

theorem eq_of_agrees {source target : ChannelGap}
    (h : ∀ field : GapField, field.Agrees source target) : source = target := by
  cases source
  cases target
  rw [ChannelGap.mk.injEq]
  exact ⟨h .market, h .channel, h .firstMissing, h .lastMissing, h .firstPresentAfterGap,
    h .detectedMonotonicNs, h .gapEpoch, h .cumulativeMissingSequences⟩

/-- A field copied stays copied. -/
theorem agrees_foldl {source : ChannelGap} {field : GapField} (left : List GapField) :
    ∀ {target : ChannelGap}, field.Agrees source target ∨ field ∈ left →
      field.Agrees source (left.foldl (fun buffer field => field.copy source buffer) target) := by
  induction left with
  | nil =>
    intro target h
    exact h.resolve_right List.not_mem_nil
  | cons first left ih =>
    intro target h
    refine ih ?_
    rcases h with h | h
    · exact Or.inl (h.copy first)
    · rcases List.mem_cons.1 h with rfl | h
      · exact Or.inl (agrees_copy_self _ _ _)
      · exact Or.inr h

theorem foldl_copy_all (source target : ChannelGap) :
    all.foldl (fun buffer field => field.copy source buffer) target = source :=
  (eq_of_agrees fun field => agrees_foldl _ (Or.inr (mem_all field))).symm

end GapField

/-! ## The slot -/

/-- `reader_index_` while nothing is copied. -/
def kNoReader : ℕ := 3

/-- The members of `GapMailboxSlot`. -/
structure GapMailboxSlot where
  buffers : Fin 3 → ChannelGap := fun _ => {}
  publishedToken : BitVec 64 := 3
  readerIndex : ℕ := kNoReader
  producerGeneration : BitVec 64 := 0
  deliveredToken : BitVec 64 := 3

/-- The buffer a token names, or `3` in the first token : `token & 3`. -/
def tokenIndex (token : BitVec 64) : ℕ :=
  (token &&& 3#64).toNat

/-- The buffer of a token that names one. -/
def tokenBuffer (token : BitVec 64) : Fin 3 :=
  Fin.ofNat 3 (tokenIndex token)

/-- `(generation << 2) | target`. -/
def makeToken (generation : BitVec 64) (target : Fin 3) : BitVec 64 :=
  generation <<< 2 ||| BitVec.ofNat 64 target

/-- The buffer `Publish` writes : neither the published one nor the reader's. -/
def chooseTarget (currentIndex readerIndex : ℕ) : Fin 3 :=
  let target := Fin.ofNat 3 (currentIndex + 1)
  if (target : ℕ) = readerIndex then target + 1 else target

namespace GapMailboxSlot

/-- `Publish`, with no snapshot in progress. -/
def publish (slot : GapMailboxSlot) (gap : ChannelGap) : GapMailboxSlot :=
  let currentIndex := tokenIndex slot.publishedToken
  let target := chooseTarget currentIndex slot.readerIndex
  let generation := slot.producerGeneration + 1
  { slot with
    buffers := Function.update slot.buffers target gap
    producerGeneration := generation
    publishedToken := makeToken generation target }

inductive SnapshotResult where
  | kReady
  | kNoChange
  | kBusy
  deriving DecidableEq, Repr

def kMaximumAttempts : ℕ := 8

/-- The attempts of `TrySnapshot`, with no publication in progress : the result, the
snapshot, and the slot. -/
def snapshotAttempts (output : ChannelGap) :
    ℕ → GapMailboxSlot → SnapshotResult × ChannelGap × GapMailboxSlot
  | 0, slot => (.kBusy, output, slot)
  | attempts + 1, slot =>
    let before := slot.publishedToken
    if 3 ≤ tokenIndex before then (.kNoChange, output, slot)
    else
      let slot := { slot with readerIndex := tokenIndex before }
      let after := slot.publishedToken
      if before ≠ after then
        snapshotAttempts output attempts { slot with readerIndex := kNoReader }
      else
        let snapshot := slot.buffers (tokenBuffer before)
        let slot := { slot with readerIndex := kNoReader }
        if slot.deliveredToken = before then (.kNoChange, output, slot)
        else (.kReady, snapshot, { slot with deliveredToken := before })

def trySnapshot (slot : GapMailboxSlot) (output : ChannelGap) :
    SnapshotResult × ChannelGap × GapMailboxSlot :=
  snapshotAttempts output kMaximumAttempts slot

end GapMailboxSlot

/-! ## The steps of the two threads -/

namespace Mailbox

open GapMailboxSlot

/-- Where `Publish` is. -/
inductive Producer where
  | idle
  /-- `published_token_` is loaded next. -/
  | called (gap : ChannelGap)
  /-- `reader_index_` is loaded next. -/
  | loaded (gap : ChannelGap) (currentToken : BitVec 64)
  /-- The fields `left` are still to be written, then the token is stored. -/
  | writing (gap : ChannelGap) (target : Fin 3) (left : List GapField)

/-- Where `TrySnapshot` is. -/
inductive Consumer where
  | idle
  /-- `before` is loaded next, in the attempt that follows `attempt` others. -/
  | attempting (attempt : ℕ)
  /-- `reader_index_` is stored next. -/
  | loaded (attempt : ℕ) (before : BitVec 64)
  /-- `after` is loaded next. -/
  | claimed (attempt : ℕ) (before : BitVec 64)
  /-- The token has changed, and `kNoReader` is stored next. -/
  | retreating (attempt : ℕ)
  /-- The fields `left` are still to be copied, then `kNoReader` is stored. -/
  | copying (before : BitVec 64) (snapshot : ChannelGap) (left : List GapField)
  /-- The call returns next. -/
  | copied (before : BitVec 64) (snapshot : ChannelGap)

structure State where
  slot : GapMailboxSlot := {}
  producer : Producer := .idle
  consumer : Consumer := .idle

inductive Event where
  /-- The token of `gap` is stored. -/
  | published (gap : ChannelGap)
  /-- `TrySnapshot` is called. -/
  | called
  /-- `TrySnapshot` loads the token of an attempt. -/
  | read
  /-- `TrySnapshot` returns `kReady`, with `delivered_token_` set to `token`. -/
  | ready (token : BitVec 64) (gap : ChannelGap)
  | noChange
  | busy

/-- The thread that moves : one that calls, or one that makes its next step. A field is
written or copied when that is what the step does. -/
inductive Action where
  | publish (gap : ChannelGap)
  | produce (field : GapField)
  | trySnapshot
  | consume (field : GapField)

def produceStep (s : State) (field : GapField) : Option (State × List Event) :=
  match s.producer with
  | .idle => none
  | .called gap => some ({ s with producer := .loaded gap s.slot.publishedToken }, [])
  | .loaded gap currentToken =>
    let target := chooseTarget (tokenIndex currentToken) s.slot.readerIndex
    some ({ s with producer := .writing gap target GapField.all }, [])
  | .writing gap target [] =>
    let generation := s.slot.producerGeneration + 1
    some ({ s with
        slot := { s.slot with
          producerGeneration := generation
          publishedToken := makeToken generation target }
        producer := .idle },
      [.published gap])
  | .writing gap target left =>
    if field ∈ left then
      some ({ s with
          slot := { s.slot with
            buffers := Function.update s.slot.buffers target
              (field.copy gap (s.slot.buffers target)) }
          producer := .writing gap target (left.erase field) },
        [])
    else none

def consumeStep (s : State) (field : GapField) : Option (State × List Event) :=
  match s.consumer with
  | .idle => none
  | .attempting attempt =>
    if kMaximumAttempts ≤ attempt then some ({ s with consumer := .idle }, [.busy])
    else
      let before := s.slot.publishedToken
      if 3 ≤ tokenIndex before then some ({ s with consumer := .idle }, [.read, .noChange])
      else some ({ s with consumer := .loaded attempt before }, [.read])
  | .loaded attempt before =>
    some ({ s with
        slot := { s.slot with readerIndex := tokenIndex before }
        consumer := .claimed attempt before },
      [])
  | .claimed attempt before =>
    let after := s.slot.publishedToken
    if before ≠ after then some ({ s with consumer := .retreating attempt }, [])
    else some ({ s with consumer := .copying before {} GapField.all }, [])
  | .retreating attempt =>
    some ({ s with
        slot := { s.slot with readerIndex := kNoReader }
        consumer := .attempting (attempt + 1) },
      [])
  | .copying before snapshot [] =>
    some ({ s with
        slot := { s.slot with readerIndex := kNoReader }
        consumer := .copied before snapshot },
      [])
  | .copying before snapshot left =>
    if field ∈ left then
      let snapshot := field.copy (s.slot.buffers (tokenBuffer before)) snapshot
      some ({ s with consumer := .copying before snapshot (left.erase field) }, [])
    else none
  | .copied before snapshot =>
    if s.slot.deliveredToken = before then some ({ s with consumer := .idle }, [.noChange])
    else
      some ({ s with
          slot := { s.slot with deliveredToken := before }
          consumer := .idle },
        [.ready before snapshot])

def step (s : State) : Action → Option (State × List Event)
  | .publish gap =>
    match s.producer with
    | .idle => some ({ s with producer := .called gap }, [])
    | _ => none
  | .produce field => produceStep s field
  | .trySnapshot =>
    match s.consumer with
    | .idle => some ({ s with consumer := .attempting 0 }, [.called])
    | _ => none
  | .consume field => consumeStep s field

/-- One producer and one consumer, from construction. -/
def machine : Machine State Action Event where
  start := {}
  step := step

/-! ## A call without the other thread's steps -/

/-- The fields of a buffer are written one after the other. -/
theorem runFrom_write (gap : ChannelGap) (target : Fin 3) (left : List GapField) :
    ∀ (s : State), machine.runFrom { s with producer := .writing gap target left }
      (left.map .produce) = some ({ s with
        slot := { s.slot with
          buffers := Function.update s.slot.buffers target
            (left.foldl (fun buffer field => field.copy gap buffer) (s.slot.buffers target)) }
        producer := .writing gap target [] }, []) := by
  induction left with
  | nil =>
    intro s
    rw [List.foldl_nil, Function.update_eq_self]
    rfl
  | cons field left ih =>
    intro s
    rw [List.map_cons, Machine.runFrom_cons]
    refine ⟨{ s with
      slot := { s.slot with
        buffers := Function.update s.slot.buffers target
          (field.copy gap (s.slot.buffers target)) }
      producer := .writing gap target left }, [], [], ?_, ?_, rfl⟩
    · simp [machine, step, produceStep]
    · have hrest := ih { s with
        slot := { s.slot with
          buffers := Function.update s.slot.buffers target
            (field.copy gap (s.slot.buffers target)) } }
      simp only [Function.update_idem, Function.update_self] at hrest
      exact hrest

/-- `publish` is what the steps of `Publish` do when the other thread makes none. -/
theorem runFrom_publish (s : State) (gap : ChannelGap) (hp : s.producer = .idle) :
    machine.runFrom s ([.publish gap, .produce .market, .produce .market] ++
      (GapField.all.map .produce ++ [.produce .market])) =
        some ({ s with slot := s.slot.publish gap }, [.published gap]) := by
  obtain ⟨slot, producer, consumer⟩ := s
  cases hp
  have hwrite := runFrom_write gap
    (chooseTarget (tokenIndex slot.publishedToken) slot.readerIndex) GapField.all
    ⟨slot, .idle, consumer⟩
  rw [GapField.foldl_copy_all] at hwrite
  refine Machine.runFrom_append.2 ⟨_, [], [.published gap], rfl, ?_, rfl⟩
  exact Machine.runFrom_append.2 ⟨_, [], [.published gap], hwrite, rfl, rfl⟩

/-- The fields of a snapshot are copied one after the other. -/
theorem runFrom_copy (before : BitVec 64) (left : List GapField) :
    ∀ (s : State) (snapshot : ChannelGap),
      machine.runFrom { s with consumer := .copying before snapshot left }
        (left.map .consume) = some ({ s with
          consumer := .copying before (left.foldl (fun buffer field =>
            field.copy (s.slot.buffers (tokenBuffer before)) buffer) snapshot) [] }, []) := by
  induction left with
  | nil =>
    intro s snapshot
    rfl
  | cons field left ih =>
    intro s snapshot
    rw [List.map_cons, Machine.runFrom_cons]
    refine ⟨{ s with
      consumer := .copying before
        (field.copy (s.slot.buffers (tokenBuffer before)) snapshot) left }, [], [], ?_,
      ih s _, rfl⟩
    simp [machine, step, consumeStep]

/-- The steps of an attempt that finds a token, before the call returns. -/
def attemptFields : List GapField :=
  [.market, .market, .market] ++ GapField.all ++ [.market]

/-- An attempt in which the other thread makes no step. -/
theorem runFrom_attempt (s : State) (hindex : tokenIndex s.slot.publishedToken < 3) :
    machine.runFrom { s with consumer := .attempting 0 } (attemptFields.map .consume) =
      some ({ s with
        slot := { s.slot with readerIndex := kNoReader }
        consumer := .copied s.slot.publishedToken
          (s.slot.buffers (tokenBuffer s.slot.publishedToken)) }, [.read]) := by
  obtain ⟨slot, producer, consumer⟩ := s
  have hcopy := runFrom_copy slot.publishedToken GapField.all
    ⟨{ slot with readerIndex := tokenIndex slot.publishedToken }, producer, consumer⟩ {}
  rw [GapField.foldl_copy_all] at hcopy
  have hclaim : machine.runFrom ⟨slot, producer, .attempting 0⟩
      ([.market, .market, .market].map .consume) =
      some (⟨{ slot with readerIndex := tokenIndex slot.publishedToken }, producer,
        .copying slot.publishedToken {} GapField.all⟩, [.read]) := by
    have hnot : ¬3 ≤ tokenIndex slot.publishedToken := not_le.2 hindex
    simp [Machine.runFrom, machine, step, consumeStep, kMaximumAttempts, hnot]
  rw [attemptFields, List.map_append, List.map_append]
  have hcopied := Machine.runFrom_append.2 ⟨_, [.read], [], hclaim, hcopy, rfl⟩
  exact Machine.runFrom_append.2 ⟨_, [.read], [], hcopied, rfl, rfl⟩

/-- What a call of `TrySnapshot` alone reports. -/
def resultEvent (slot : GapMailboxSlot) : Event :=
  match slot.trySnapshot {} with
  | (.kReady, snapshot, slot') => .ready slot'.deliveredToken snapshot
  | (.kNoChange, _, _) => .noChange
  | (.kBusy, _, _) => .busy

/-- `trySnapshot` is what the steps of `TrySnapshot` do when the other thread makes none. -/
theorem exists_runFrom_trySnapshot (s : State) (hc : s.consumer = .idle) :
    ∃ actions, machine.runFrom s actions = some ({ s with slot := (s.slot.trySnapshot {}).2.2 },
      [.called, .read, resultEvent s.slot]) := by
  obtain ⟨slot, producer, consumer⟩ := s
  cases hc
  rcases Nat.lt_or_ge (tokenIndex slot.publishedToken) 3 with hindex | hindex
  · have hattempt := runFrom_attempt ⟨slot, producer, .idle⟩ hindex
    have hnot : ¬3 ≤ tokenIndex slot.publishedToken := not_le.2 hindex
    refine ⟨.trySnapshot :: (attemptFields.map .consume ++ [.consume .market]), ?_⟩
    refine Machine.runFrom_cons.2 ⟨_, [.called], [.read, resultEvent slot], rfl, ?_, rfl⟩
    refine Machine.runFrom_append.2 ⟨_, [.read], [resultEvent slot], hattempt, ?_, rfl⟩
    by_cases hsame : slot.deliveredToken = slot.publishedToken
    · simp [Machine.runFrom, machine, step, consumeStep, hsame, resultEvent, trySnapshot,
        kMaximumAttempts, snapshotAttempts, hnot]
    · simp [Machine.runFrom, machine, step, consumeStep, hsame, resultEvent, trySnapshot,
        kMaximumAttempts, snapshotAttempts, hnot]
  · refine ⟨[.trySnapshot, .consume .market], ?_⟩
    simp [Machine.runFrom, machine, step, consumeStep, kMaximumAttempts, hindex, resultEvent,
      trySnapshot, snapshotAttempts]

end Mailbox

end L2Flow
