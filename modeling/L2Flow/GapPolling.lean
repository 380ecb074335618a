import L2Flow.Dispatcher
import L2Flow.Handshake
import L2Flow.LinearProbing

/-!
# What a poll that returns false has delivered

The lanes and the consumer of gaps interleave freely. An undelivered gap leaves a trace in
every reachable state : its slot's bit is in the shared dirty word or in the private pending
word, or its lane is about to set it (`Sound.flagged`). A call of `TryPollGap` that returns
false has asked every mailbox whose bit it could see. It does not look at the dirty word of
a pending word that it found nonzero, and what `false_iff_delivered` says is that this is
all it can miss, as long as tokens do not repeat.
-/

namespace L2Flow

/-! ## Bits of a word -/

theorem getLsbD_wordBit {i j : ℕ} (hj : j < 64) : (wordBit i).getLsbD j = decide (i = j) := by
  unfold wordBit
  simp only [BitVec.getLsbD_shiftLeft, BitVec.getLsbD_one]
  by_cases h : i = j
  · subst h
    simp [hj]
  · simp [h]
    omega

/-- Setting a bit. -/
theorem getLsbD_set {word : BitVec 64} {i j : ℕ} (hj : j < 64) :
    (word ||| wordBit i).getLsbD j = true ↔ word.getLsbD j = true ∨ i = j := by
  rw [BitVec.getLsbD_or, getLsbD_wordBit hj, Bool.or_eq_true, decide_eq_true_eq]

/-- Clearing a bit. -/
theorem getLsbD_clear {word : BitVec 64} {i j : ℕ} (hj : j < 64) :
    (word &&& ~~~wordBit i).getLsbD j = true ↔ word.getLsbD j = true ∧ i ≠ j := by
  rw [BitVec.getLsbD_and, BitVec.getLsbD_not, getLsbD_wordBit hj]
  simp [hj]

theorem getLsbD_ctz {word : BitVec 64} (h : word ≠ 0) :
    word.ctz.toNat < 64 ∧ word.getLsbD word.ctz.toNat = true := by
  have hlt := BitVec.ctz_lt_iff_ne_zero.2 h
  exact ⟨by simpa [BitVec.lt_def] using hlt, BitVec.getLsbD_true_ctz_of_ne_zero h⟩

/-! ## Places of a channel slot -/

namespace GapLayout

variable {layout : GapLayout} {producer producer' channelSlot channelSlot' : ℕ}

/-- The lane and its channel slot are ones of the layout. -/
def Has (layout : GapLayout) (producer channelSlot : ℕ) : Prop :=
  producer < layout.tickProducers ∧ channelSlot < layout.gapChannelsPerProducer

theorem Has.word_lt (h : layout.Has producer channelSlot) :
    channelSlot / 64 < layout.gapWordsPerProducer := by
  have := h.2
  unfold gapWordsPerProducer
  omega

theorem Has.wordIndex_lt (h : layout.Has producer channelSlot) :
    layout.wordIndex producer channelSlot < layout.wordCount := by
  have hword := h.word_lt
  have hle : (producer + 1) * layout.gapWordsPerProducer ≤ layout.wordCount :=
    Nat.mul_le_mul_right _ h.1
  rw [Nat.succ_mul] at hle
  unfold wordIndex
  omega

theorem eq_of_pair {width i i' j j' : ℕ} (hj : j < width) (hj' : j' < width)
    (h : i * width + j = i' * width + j') : i = i' ∧ j = j' := by
  have hpos : 0 < width := by omega
  have hdiv := congrArg (· / width) h
  have hmod := congrArg (· % width) h
  simp only [Nat.mul_comm _ width, Nat.mul_add_div hpos, Nat.div_eq_of_lt hj,
    Nat.div_eq_of_lt hj', Nat.add_zero, Nat.mul_add_mod, Nat.mod_eq_of_lt hj,
    Nat.mod_eq_of_lt hj'] at hdiv hmod
  exact ⟨hdiv, hmod⟩

theorem Has.eq_of_slotIndex (h : layout.Has producer channelSlot)
    (h' : layout.Has producer' channelSlot')
    (heq : layout.slotIndex producer channelSlot = layout.slotIndex producer' channelSlot') :
    producer = producer' ∧ channelSlot = channelSlot' :=
  eq_of_pair h.2 h'.2 heq

theorem Has.eq_of_wordIndex (h : layout.Has producer channelSlot)
    (h' : layout.Has producer' channelSlot')
    (hword : layout.wordIndex producer channelSlot = layout.wordIndex producer' channelSlot')
    (hbit : channelSlot % 64 = channelSlot' % 64) :
    producer = producer' ∧ channelSlot = channelSlot' := by
  obtain ⟨hproducer, hdiv⟩ := eq_of_pair h.word_lt h'.word_lt hword
  exact ⟨hproducer, by omega⟩

/-- The bit of a slot stands for the slot. -/
theorem Has.channelSlot_eq (h : layout.Has producer channelSlot) :
    layout.wordIndex producer channelSlot % layout.gapWordsPerProducer * 64 + channelSlot % 64 =
      channelSlot := by
  have hmod : layout.wordIndex producer channelSlot % layout.gapWordsPerProducer =
      channelSlot / 64 := by
    rw [wordIndex, Nat.mul_comm, Nat.mul_add_mod, Nat.mod_eq_of_lt h.word_lt]
  rw [hmod]
  omega

/-- The slot a bit of a dirty word stands for. -/
theorem has_of_word {word bit : ℕ} (hword : word < layout.wordCount) (hbit : bit < 64)
    (hslot : word % layout.gapWordsPerProducer * 64 + bit < layout.gapChannelsPerProducer) :
    layout.Has (word / layout.gapWordsPerProducer)
        (word % layout.gapWordsPerProducer * 64 + bit) ∧
      layout.wordIndex (word / layout.gapWordsPerProducer)
        (word % layout.gapWordsPerProducer * 64 + bit) = word ∧
      (word % layout.gapWordsPerProducer * 64 + bit) % 64 = bit := by
  refine ⟨⟨Nat.div_lt_of_lt_mul ?_, hslot⟩, ?_, by omega⟩
  · rw [Nat.mul_comm]
    exact hword
  · have hdiv : (word % layout.gapWordsPerProducer * 64 + bit) / 64 =
        word % layout.gapWordsPerProducer := by omega
    rw [wordIndex, hdiv, Nat.mul_comm]
    exact Nat.div_add_mod _ _

end GapLayout

/-! ## One mailbox -/

/-- What `TrySnapshot` alone does. -/
theorem trySnapshot_cases (slot : GapMailboxSlot) (output : ChannelGap) :
    (3 ≤ tokenIndex slot.publishedToken ∧
        slot.trySnapshot output = (.kNoChange, output, slot)) ∨
      (tokenIndex slot.publishedToken < 3 ∧ slot.deliveredToken = slot.publishedToken ∧
        slot.trySnapshot output = (.kNoChange, output, { slot with readerIndex := kNoReader })) ∨
      (tokenIndex slot.publishedToken < 3 ∧ slot.deliveredToken ≠ slot.publishedToken ∧
        slot.trySnapshot output = (.kReady, slot.buffers (tokenBuffer slot.publishedToken),
          { slot with readerIndex := kNoReader, deliveredToken := slot.publishedToken })) := by
  rcases Nat.lt_or_ge (tokenIndex slot.publishedToken) 3 with hindex | hindex
  · by_cases hsame : slot.deliveredToken = slot.publishedToken
    · refine Or.inr (Or.inl ⟨hindex, hsame, ?_⟩)
      simp [GapMailboxSlot.trySnapshot, GapMailboxSlot.kMaximumAttempts,
        GapMailboxSlot.snapshotAttempts, hindex, hsame]
    · refine Or.inr (Or.inr ⟨hindex, hsame, ?_⟩)
      simp [GapMailboxSlot.trySnapshot, GapMailboxSlot.kMaximumAttempts,
        GapMailboxSlot.snapshotAttempts, hindex, hsame]
  · refine Or.inl ⟨hindex, ?_⟩
    simp [GapMailboxSlot.trySnapshot, GapMailboxSlot.kMaximumAttempts,
      GapMailboxSlot.snapshotAttempts, hindex]

namespace Dispatcher

/-- The event is about this channel slot. -/
def about (producer channelSlot : ℕ) : Event → Bool
  | .published producer' channelSlot' _ => producer' = producer ∧ channelSlot' = channelSlot
  | .polled producer' channelSlot' _ => producer' = producer ∧ channelSlot' = channelSlot
  | .exhausted => false

/-- What happened to one channel slot. -/
def slotLog (producer channelSlot : ℕ) (events : List Event) : List Event :=
  events.filter (about producer channelSlot)

theorem slotLog_append (producer channelSlot : ℕ) (events rest : List Event) :
    slotLog producer channelSlot (events ++ rest) =
      slotLog producer channelSlot events ++ slotLog producer channelSlot rest :=
  List.filter_append _ _

/-- The last gap published is the last gap returned. -/
def LastReturned (producer channelSlot : ℕ) (log : List Event) : Prop :=
  log = [] ∨ ∃ before gap, log = before ++
    [.published producer channelSlot gap, .polled producer channelSlot gap]

/-- The tokens of a mailbox, after what happened to it. -/
inductive Holds (producer channelSlot : ℕ) (slot : GapMailboxSlot) : List Event → Prop where
  | unused (published : slot.publishedToken = 3#64) (delivered : slot.deliveredToken = 3#64) :
      Holds producer channelSlot slot []
  | waiting {before gap} (index : tokenIndex slot.publishedToken < 3)
      (content : slot.buffers (tokenBuffer slot.publishedToken) = gap) :
      Holds producer channelSlot slot (before ++ [.published producer channelSlot gap])
  | returned {before gap} (index : tokenIndex slot.publishedToken < 3)
      (same : slot.deliveredToken = slot.publishedToken) :
      Holds producer channelSlot slot
        (before ++ [.published producer channelSlot gap, .polled producer channelSlot gap])

/-- The consumer has the last gap published, as far as the tokens tell. -/
def CaughtUp (slot : GapMailboxSlot) : Prop :=
  slot.deliveredToken = slot.publishedToken

section Holds

variable {producer channelSlot : ℕ} {slot : GapMailboxSlot} {log : List Event}

theorem Holds.caughtUp_of_returned (h : Holds producer channelSlot slot log)
    (hlast : LastReturned producer channelSlot log) : CaughtUp slot := by
  cases h with
  | unused published delivered => exact delivered.trans published.symm
  | @waiting before gap index content =>
    rcases hlast with hlast | ⟨before', gap', hlast⟩
    · simp at hlast
    · have := congrArg List.getLast? hlast
      simp at this
  | returned index same => exact same

theorem Holds.caughtUp_of_index (h : Holds producer channelSlot slot log)
    (hindex : 3 ≤ tokenIndex slot.publishedToken) : CaughtUp slot := by
  cases h with
  | unused published delivered => exact delivered.trans published.symm
  | waiting index content => omega
  | returned index same => exact same

theorem Holds.publish (gap : ChannelGap) :
    Holds producer channelSlot (slot.publish gap)
      (log ++ [.published producer channelSlot gap]) := by
  refine .waiting ?_ ?_
  · show tokenIndex (makeToken _ _) < 3
    rw [tokenIndex_makeToken]
    omega
  · show Function.update slot.buffers _ gap (tokenBuffer (makeToken _ _)) = gap
    rw [tokenBuffer_makeToken, Function.update_self]

/-- A mailbox depends on the reader's index for its next target only. -/
theorem Holds.reader (h : Holds producer channelSlot slot log) (reader : ℕ) :
    Holds producer channelSlot { slot with readerIndex := reader } log := by
  cases h with
  | unused published delivered => exact .unused published delivered
  | waiting index content => exact .waiting index content
  | returned index same => exact .returned index same

/-- A snapshot is of the last gap published. -/
theorem Holds.ready (h : Holds producer channelSlot slot log) (reader : ℕ)
    (hindex : tokenIndex slot.publishedToken < 3) (hbehind : ¬CaughtUp slot) :
    Holds producer channelSlot
      { slot with readerIndex := reader, deliveredToken := slot.publishedToken }
      (log ++ [.polled producer channelSlot
        (slot.buffers (tokenBuffer slot.publishedToken))]) := by
  cases h with
  | unused published delivered =>
    rw [published] at hindex
    exact absurd hindex (by decide)
  | @waiting before gap index content =>
    rw [content, List.append_assoc]
    exact .returned index rfl
  | returned index same => exact absurd same hbehind

/-- The number of gaps published. -/
def publications (log : List Event) : ℕ :=
  log.countP fun
    | .published _ _ _ => true
    | _ => false

/-- A mailbox after what happened to it. Its tokens tell the truth while they do not
repeat. -/
structure Kept (producer channelSlot : ℕ) (slot : GapMailboxSlot) (log : List Event) : Prop where
  holds : Holds producer channelSlot slot log
  numbered : publications log < 2 ^ 62 → slot.producerGeneration.toNat = publications log ∧
    publication slot.publishedToken = publications log ∧
    publication slot.deliveredToken ≤ publications log
  truthful : publications log < 2 ^ 62 → CaughtUp slot → LastReturned producer channelSlot log

theorem kept_start (producer channelSlot : ℕ) : Kept producer channelSlot {} [] :=
  ⟨.unused rfl rfl, fun _ => ⟨by decide, by decide, by decide⟩, fun _ _ => Or.inl rfl⟩

theorem Kept.publish (h : Kept producer channelSlot slot log) (gap : ChannelGap) :
    Kept producer channelSlot (slot.publish gap)
      (log ++ [.published producer channelSlot gap]) := by
  have hcount : publications (log ++ [.published producer channelSlot gap]) =
      publications log + 1 := by
    simp [publications]
  have hnumbered : publications log + 1 < 2 ^ 62 →
      (slot.publish gap).producerGeneration.toNat = publications log + 1 ∧
      publication (slot.publish gap).publishedToken = publications log + 1 ∧
      publication (slot.publish gap).deliveredToken ≤ publications log := by
    intro hbound
    obtain ⟨hgeneration, -, hdelivered⟩ := h.numbered (by omega)
    have hone : (1 : BitVec 64).toNat = 1 := rfl
    have hnext : (slot.producerGeneration + 1).toNat = publications log + 1 := by
      rw [BitVec.toNat_add, hone]
      omega
    refine ⟨hnext, ?_, hdelivered⟩
    show publication (makeToken (slot.producerGeneration + 1) _) = _
    rw [publication_makeToken (by omega), hnext]
  refine ⟨Holds.publish gap, ?_, ?_⟩
  · rw [hcount]
    intro hbound
    obtain ⟨hgeneration, hpublished, hdelivered⟩ := hnumbered hbound
    exact ⟨hgeneration, hpublished, by omega⟩
  · rw [hcount]
    intro hbound hcaught
    obtain ⟨-, hpublished, hdelivered⟩ := hnumbered hbound
    rw [hcaught] at hdelivered
    omega

theorem Kept.reader (h : Kept producer channelSlot slot log) (reader : ℕ) :
    Kept producer channelSlot { slot with readerIndex := reader } log :=
  ⟨h.holds.reader reader, h.numbered, h.truthful⟩

theorem Kept.ready (h : Kept producer channelSlot slot log) (reader : ℕ)
    (hindex : tokenIndex slot.publishedToken < 3) (hbehind : ¬CaughtUp slot) :
    Kept producer channelSlot
      { slot with readerIndex := reader, deliveredToken := slot.publishedToken }
      (log ++ [.polled producer channelSlot
        (slot.buffers (tokenBuffer slot.publishedToken))]) := by
  have hcount : publications (log ++ [.polled producer channelSlot
      (slot.buffers (tokenBuffer slot.publishedToken))]) = publications log := by
    simp [publications]
  have hready := h.holds.ready reader hindex hbehind
  refine ⟨hready, ?_, fun _ _ => ?_⟩
  · rw [hcount]
    intro hbound
    obtain ⟨hgeneration, hpublished, -⟩ := h.numbered hbound
    exact ⟨hgeneration, hpublished, hpublished.le⟩
  · cases h.holds with
    | unused published delivered => exact absurd (delivered.trans published.symm) hbehind
    | @waiting before gap index content =>
      rw [content, List.append_assoc]
      exact Or.inr ⟨before, gap, rfl⟩
    | returned index same => exact absurd same hbehind

end Holds

/-! ## All mailboxes -/

variable {layout : GapLayout}

variable (layout) in
/-- The mailbox of a channel slot. -/
def State.slot (s : State) (producer channelSlot : ℕ) : GapMailboxSlot :=
  s.members.gapSlots (layout.slotIndex producer channelSlot)

variable (layout) in
/-- The slot's bit is set in the shared dirty word. -/
def State.Dirty (s : State) (producer channelSlot : ℕ) : Prop :=
  (s.members.gapDirtyWords (layout.wordIndex producer channelSlot)).getLsbD
    (channelSlot % 64) = true

variable (layout) in
/-- The slot's bit is set in the private pending word. -/
def State.Pending (s : State) (producer channelSlot : ℕ) : Prop :=
  (s.members.gapConsumerPending (layout.wordIndex producer channelSlot)).getLsbD
    (channelSlot % 64) = true

variable (layout) in
structure Sound (s : State) (events : List Event) : Prop where
  holds : ∀ producer channelSlot, layout.Has producer channelSlot →
    Kept producer channelSlot (s.slot layout producer channelSlot)
      (slotLog producer channelSlot events)
  marking : ∀ producer channelSlot, s.marking producer = some channelSlot →
    layout.Has producer channelSlot
  /-- What the consumer lacks is flagged. -/
  flagged : ∀ producer channelSlot, layout.Has producer channelSlot →
    ¬CaughtUp (s.slot layout producer channelSlot) →
      s.Dirty layout producer channelSlot ∨ s.Pending layout producer channelSlot ∨
        s.marking producer = some channelSlot
  draining : ∀ count, s.consumer = .draining count → count < layout.wordCount

theorem sound_start : Sound layout {} [] where
  holds producer channelSlot _ := kept_start producer channelSlot
  marking _ _ h := by cases h
  flagged _ _ _ h := absurd rfl h
  draining _ h := by cases h

theorem bit_lt (channelSlot : ℕ) : channelSlot % 64 < 64 :=
  Nat.mod_lt _ (by decide)

/-- An event about another slot. -/
theorem slotLog_other {producer channelSlot : ℕ} {events new : List Event}
    (h : ∀ event ∈ new, about producer channelSlot event = false) :
    slotLog producer channelSlot (events ++ new) = slotLog producer channelSlot events := by
  have hnone : slotLog producer channelSlot new = [] := by
    refine List.filter_eq_nil_iff.2 fun event hmem => ?_
    rw [h event hmem]
    exact Bool.false_ne_true
  rw [slotLog_append, hnone, List.append_nil]

/-- A step that changes one mailbox. -/
theorem slot_update {s s' : State} {producer channelSlot : ℕ} {slot : GapMailboxSlot}
    (hhas : layout.Has producer channelSlot) (hslots : s'.members.gapSlots =
      Function.update s.members.gapSlots (layout.slotIndex producer channelSlot) slot) :
    s'.slot layout producer channelSlot = slot ∧
      ∀ producer' channelSlot', layout.Has producer' channelSlot' →
        ¬(producer' = producer ∧ channelSlot' = channelSlot) →
        s'.slot layout producer' channelSlot' = s.slot layout producer' channelSlot' := by
  constructor
  · rw [State.slot, hslots, Function.update_self]
  · intro producer' channelSlot' hhas' hne
    rw [State.slot, hslots, Function.update_of_ne fun heq => hne (hhas'.eq_of_slotIndex hhas heq)]
    rfl

theorem about_other {producer channelSlot producer' channelSlot' : ℕ} (gap : ChannelGap)
    (hne : ¬(producer' = producer ∧ channelSlot' = channelSlot)) :
    about producer' channelSlot' (.published producer channelSlot gap) = false ∧
      about producer' channelSlot' (.polled producer channelSlot gap) = false := by
  have hne' : ¬(producer = producer' ∧ channelSlot = channelSlot') :=
    fun heq => hne ⟨heq.1.symm, heq.2.symm⟩
  exact ⟨decide_eq_false hne', decide_eq_false hne'⟩

theorem sound_publish {s s' : State} {events new : List Event} {producer channelSlot : ℕ}
    {gap : ChannelGap} (h : Sound layout s events)
    (hstep : publishStep layout s producer channelSlot gap = some (s', new)) :
    Sound layout s' (events ++ new) := by
  unfold publishStep at hstep
  split_ifs at hstep with hbusy hrange
  · cases hstep
    rwa [List.append_nil]
  · obtain ⟨hs', rfl⟩ := Prod.mk.inj (Option.some.inj hstep)
    push Not at hbusy hrange
    have hhas : layout.Has producer channelSlot := hrange
    have hslots : s'.members.gapSlots = Function.update s.members.gapSlots
        (layout.slotIndex producer channelSlot)
        ((s.slot layout producer channelSlot).publish gap) := by
      rw [← hs']
      rfl
    have hmarking : s'.marking = Function.update s.marking producer (some channelSlot) := by
      rw [← hs']
    have hdirty : s'.members.gapDirtyWords = s.members.gapDirtyWords := by rw [← hs']
    have hpending : s'.members.gapConsumerPending = s.members.gapConsumerPending := by rw [← hs']
    have hconsumer : s'.consumer = s.consumer := by rw [← hs']
    obtain ⟨hself, hother⟩ := slot_update hhas hslots
    refine ⟨fun producer' channelSlot' hhas' => ?_, fun producer' channelSlot' hmark => ?_,
      fun producer' channelSlot' hhas' hbehind => ?_, hconsumer ▸ h.draining⟩
    · by_cases hsame : producer' = producer ∧ channelSlot' = channelSlot
      · obtain ⟨rfl, rfl⟩ := hsame
        rw [hself, slotLog_append]
        have hone : slotLog producer' channelSlot' [.published producer' channelSlot' gap] =
            [.published producer' channelSlot' gap] := by simp [slotLog, about]
        rw [hone]
        exact (h.holds producer' channelSlot' hhas').publish gap
      · rw [hother producer' channelSlot' hhas' hsame, slotLog_other]
        · exact h.holds producer' channelSlot' hhas'
        · intro event hmem
          rw [List.mem_singleton.1 hmem]
          exact (about_other gap hsame).1
    · rw [hmarking] at hmark
      by_cases hp : producer' = producer
      · rw [hp, Function.update_self, Option.some.injEq] at hmark
        rw [hp, ← hmark]
        exact hhas
      · rw [Function.update_of_ne hp] at hmark
        exact h.marking producer' channelSlot' hmark
    · rw [State.Dirty, State.Pending, hdirty, hpending, hmarking]
      by_cases hsame : producer' = producer ∧ channelSlot' = channelSlot
      · rw [hsame.1, hsame.2, Function.update_self]
        exact Or.inr (Or.inr rfl)
      · rw [hother producer' channelSlot' hhas' hsame] at hbehind
        rcases h.flagged producer' channelSlot' hhas' hbehind with hd | hp | hm
        · exact Or.inl hd
        · exact Or.inr (Or.inl hp)
        · -- another lane : this one was not publishing
          have hne : producer' ≠ producer := by
            rintro rfl
            rw [hbusy] at hm
            cases hm
          rw [Function.update_of_ne hne]
          exact Or.inr (Or.inr hm)

theorem sound_mark {s s' : State} {events new : List Event} {producer : ℕ}
    (h : Sound layout s events) (hstep : markStep layout s producer = some (s', new)) :
    Sound layout s' (events ++ new) := by
  unfold markStep at hstep
  cases hmarked : s.marking producer with
  | none =>
    rw [hmarked] at hstep
    cases hstep
  | some channelSlot =>
    rw [hmarked] at hstep
    obtain ⟨hs', rfl⟩ := Prod.mk.inj (Option.some.inj hstep)
    have hmarking : s'.marking = Function.update s.marking producer none := by rw [← hs']
    have hslots : s'.members.gapSlots = s.members.gapSlots := by rw [← hs']
    have hpending : s'.members.gapConsumerPending = s.members.gapConsumerPending := by rw [← hs']
    have hdirty : s'.members.gapDirtyWords = Function.update s.members.gapDirtyWords
        (layout.wordIndex producer channelSlot)
        (s.members.gapDirtyWords (layout.wordIndex producer channelSlot) |||
          wordBit (channelSlot % 64)) := by
      rw [← hs']
    have hconsumer : s'.consumer = s.consumer := by rw [← hs']
    rw [List.append_nil]
    refine ⟨fun producer' channelSlot' hhas' => ?_, fun producer' channelSlot' hmark => ?_,
      fun producer' channelSlot' hhas' hbehind => ?_, hconsumer ▸ h.draining⟩
    · rw [State.slot, hslots]
      exact h.holds producer' channelSlot' hhas'
    · rw [hmarking] at hmark
      by_cases hp : producer' = producer
      · rw [hp, Function.update_self] at hmark
        cases hmark
      · rw [Function.update_of_ne hp] at hmark
        exact h.marking producer' channelSlot' hmark
    · rw [State.slot, hslots] at hbehind
      have hset : s.Dirty layout producer' channelSlot' ∨
          (producer' = producer ∧ channelSlot' = channelSlot) →
          s'.Dirty layout producer' channelSlot' := by
        intro hor
        rw [State.Dirty, hdirty]
        by_cases heq : layout.wordIndex producer' channelSlot' =
            layout.wordIndex producer channelSlot
        · rw [heq, Function.update_self, getLsbD_set (bit_lt _)]
          rcases hor with hd | ⟨-, hslot⟩
          · rw [State.Dirty, heq] at hd
            exact Or.inl hd
          · exact Or.inr (by rw [hslot])
        · rw [Function.update_of_ne heq]
          refine hor.resolve_right fun hsame => heq ?_
          rw [hsame.1, hsame.2]
      rw [State.Pending, hpending, hmarking]
      rcases h.flagged producer' channelSlot' hhas' hbehind with hd | hp | hm
      · exact Or.inl (hset (Or.inl hd))
      · exact Or.inr (Or.inl hp)
      · by_cases hp : producer' = producer
        · rw [hp, hmarked, Option.some.injEq] at hm
          exact Or.inl (hset (Or.inr ⟨hp, hm.symm⟩))
        · rw [Function.update_of_ne hp]
          exact Or.inr (Or.inr hm)

/-! ## Steps of the consumer -/

variable (layout) in
/-- The steps of the consumer. -/
inductive Consumes (s : State) : State → List Event → Prop where
  | exhausted {count : ℕ} (scanning : s.consumer = .scanning count)
      (last : layout.wordCount ≤ count) :
      Consumes s { s with consumer := .idle } [.exhausted]
  /-- The pending word is empty : the dirty word is taken. -/
  | exchange {count : ℕ} (scanning : s.consumer = .scanning count)
      (more : count < layout.wordCount)
      (empty : s.members.gapConsumerPending
        ((s.members.gapConsumerWordCursor + count) % layout.wordCount) = 0) :
      Consumes s
        { s with
          members := { s.members with
            gapConsumerPending := Function.update s.members.gapConsumerPending
              ((s.members.gapConsumerWordCursor + count) % layout.wordCount)
              (s.members.gapDirtyWords
                ((s.members.gapConsumerWordCursor + count) % layout.wordCount))
            gapDirtyWords := Function.update s.members.gapDirtyWords
              ((s.members.gapConsumerWordCursor + count) % layout.wordCount) 0 }
          consumer := .draining count } []
  /-- Bits are left of an earlier call. -/
  | resume {count : ℕ} (scanning : s.consumer = .scanning count)
      (more : count < layout.wordCount)
      (pending : s.members.gapConsumerPending
        ((s.members.gapConsumerWordCursor + count) % layout.wordCount) ≠ 0) :
      Consumes s { s with consumer := .draining count } []
  | leave {count : ℕ} (draining : s.consumer = .draining count)
      (empty : s.members.gapConsumerPending
        ((s.members.gapConsumerWordCursor + count) % layout.wordCount) = 0) :
      Consumes s { s with consumer := .scanning (count + 1) } []
  | take {count : ℕ} {s' : State} {new : List Event} (draining : s.consumer = .draining count)
      (pending : s.members.gapConsumerPending
        ((s.members.gapConsumerWordCursor + count) % layout.wordCount) ≠ 0)
      (bit : takeBit layout s count
        ((s.members.gapConsumerWordCursor + count) % layout.wordCount) = (s', new)) :
      Consumes s s' new

theorem consumeStep_consumes {s s' : State} {new : List Event}
    (h : consumeStep layout s = some (s', new)) : Consumes layout s s' new := by
  rw [consumeStep] at h
  split at h
  · cases h
  · next count hc =>
    dsimp only at h
    split_ifs at h with hlast hzero
    · obtain ⟨rfl, rfl⟩ := Prod.mk.inj (Option.some.inj h)
      exact .exhausted hc hlast
    · obtain ⟨rfl, rfl⟩ := Prod.mk.inj (Option.some.inj h)
      exact .exchange hc (not_le.1 hlast) hzero
    · obtain ⟨rfl, rfl⟩ := Prod.mk.inj (Option.some.inj h)
      exact .resume hc (not_le.1 hlast) hzero
  · next count hc =>
    dsimp only at h
    split_ifs at h with hzero
    · obtain ⟨rfl, rfl⟩ := Prod.mk.inj (Option.some.inj h)
      exact .leave hc hzero
    · exact .take hc hzero (Option.some.inj h)

/-- The consumer takes a dirty word. -/
theorem sound_exchange {s s' : State} {events : List Event} {word : ℕ} (h : Sound layout s events)
    (hzero : s.members.gapConsumerPending word = 0)
    (hslots : s'.members.gapSlots = s.members.gapSlots) (hmarking : s'.marking = s.marking)
    (hpending : s'.members.gapConsumerPending =
      Function.update s.members.gapConsumerPending word (s.members.gapDirtyWords word))
    (hdirty : s'.members.gapDirtyWords = Function.update s.members.gapDirtyWords word 0)
    (hdraining : ∀ count, s'.consumer = .draining count → count < layout.wordCount) :
    Sound layout s' events := by
  refine ⟨fun producer channelSlot hhas => ?_, fun producer channelSlot hmark => ?_,
    fun producer channelSlot hhas hbehind => ?_, hdraining⟩
  · rw [State.slot, hslots]
    exact h.holds producer channelSlot hhas
  · rw [hmarking] at hmark
    exact h.marking producer channelSlot hmark
  · rw [State.slot, hslots] at hbehind
    rw [State.Dirty, State.Pending, hdirty, hpending, hmarking]
    have hflag := h.flagged producer channelSlot hhas hbehind
    rw [State.Dirty, State.Pending] at hflag
    by_cases heq : layout.wordIndex producer channelSlot = word
    · have hnone : (0 : BitVec 64).getLsbD (channelSlot % 64) = false := BitVec.getLsbD_zero
      rw [heq, hzero, hnone] at hflag
      rw [heq, Function.update_self, Function.update_self]
      rcases hflag with hd | hp | hm
      · exact Or.inr (Or.inl hd)
      · cases hp
      · exact Or.inr (Or.inr hm)
    · rw [Function.update_of_ne heq, Function.update_of_ne heq]
      exact hflag

variable (layout) in
/-- What taking the lowest bit of a pending word does to the mailboxes. -/
inductive Taken (s : State) (count word : ℕ) (s' : State) : List Event → Prop where
  /-- The bit stands for no channel slot. -/
  | spare (outside : ∀ producer channelSlot, layout.Has producer channelSlot →
        layout.wordIndex producer channelSlot = word →
        channelSlot % 64 ≠ (s.members.gapConsumerPending word).ctz.toNat)
      (slots : s'.members.gapSlots = s.members.gapSlots)
      (consumer : s'.consumer = .draining count)
      (cursor : s'.members.gapConsumerWordCursor = s.members.gapConsumerWordCursor) :
      Taken s count word s' []
  | noChange {producer channelSlot reader} (has : layout.Has producer channelSlot)
      (place : layout.wordIndex producer channelSlot = word)
      (bit : channelSlot % 64 = (s.members.gapConsumerPending word).ctz.toNat)
      (quiet : 3 ≤ tokenIndex (s.slot layout producer channelSlot).publishedToken ∨
        CaughtUp (s.slot layout producer channelSlot))
      (slots : s'.members.gapSlots = Function.update s.members.gapSlots
        (layout.slotIndex producer channelSlot)
        { s.slot layout producer channelSlot with readerIndex := reader })
      (consumer : s'.consumer = .draining count)
      (cursor : s'.members.gapConsumerWordCursor = s.members.gapConsumerWordCursor) :
      Taken s count word s' []
  | ready {producer channelSlot} (has : layout.Has producer channelSlot)
      (place : layout.wordIndex producer channelSlot = word)
      (bit : channelSlot % 64 = (s.members.gapConsumerPending word).ctz.toNat)
      (index : tokenIndex (s.slot layout producer channelSlot).publishedToken < 3)
      (behind : ¬CaughtUp (s.slot layout producer channelSlot))
      (slots : s'.members.gapSlots = Function.update s.members.gapSlots
        (layout.slotIndex producer channelSlot)
        { s.slot layout producer channelSlot with
          readerIndex := kNoReader
          deliveredToken := (s.slot layout producer channelSlot).publishedToken })
      (consumer : s'.consumer = .idle) :
      Taken s count word s' [.polled producer channelSlot
        ((s.slot layout producer channelSlot).buffers
          (tokenBuffer (s.slot layout producer channelSlot).publishedToken))]

theorem takeBit_taken {s : State} (count : ℕ) {word : ℕ} (hword : word < layout.wordCount)
    (hne : s.members.gapConsumerPending word ≠ 0) :
    Taken layout s count word (takeBit layout s count word).1 (takeBit layout s count word).2 ∧
      (takeBit layout s count word).1.marking = s.marking ∧
      (takeBit layout s count word).1.members.gapDirtyWords = s.members.gapDirtyWords ∧
      (takeBit layout s count word).1.members.gapConsumerPending =
        Function.update s.members.gapConsumerPending word
          (s.members.gapConsumerPending word &&&
            ~~~wordBit (s.members.gapConsumerPending word).ctz.toNat) := by
  obtain ⟨hbit, -⟩ := getLsbD_ctz hne
  unfold takeBit
  dsimp only
  split_ifs with hslot
  · refine ⟨.spare (fun producer channelSlot hhas hplace heq => ?_) rfl rfl rfl, rfl, rfl, rfl⟩
    have heq' := hhas.channelSlot_eq
    have := hhas.2
    rw [hplace, heq] at heq'
    omega
  · obtain ⟨hhas, hplace, hindex⟩ := GapLayout.has_of_word hword hbit (not_le.1 hslot)
    rcases trySnapshot_cases (s.slot layout _ _) {} with
      ⟨hquiet, htry⟩ | ⟨-, hsame, htry⟩ | ⟨hready, hbehind, htry⟩
    · unfold State.slot at htry
      rw [htry]
      exact ⟨.noChange hhas hplace hindex (Or.inl hquiet) rfl rfl rfl, rfl, rfl, rfl⟩
    · unfold State.slot at htry
      rw [htry]
      exact ⟨.noChange hhas hplace hindex (Or.inr hsame) rfl rfl rfl, rfl, rfl, rfl⟩
    · unfold State.slot at htry
      rw [htry]
      exact ⟨.ready hhas hplace hindex hready hbehind rfl rfl, rfl, rfl, rfl⟩

/-- Taking a bit, the other slots' bits stay. -/
theorem pending_of_taken {s s' : State} {word : ℕ}
    (hpending : s'.members.gapConsumerPending =
      Function.update s.members.gapConsumerPending word (s.members.gapConsumerPending word &&&
        ~~~wordBit (s.members.gapConsumerPending word).ctz.toNat))
    {producer channelSlot : ℕ} (h : s.Pending layout producer channelSlot)
    (hne : ¬(layout.wordIndex producer channelSlot = word ∧
      channelSlot % 64 = (s.members.gapConsumerPending word).ctz.toNat)) :
    s'.Pending layout producer channelSlot := by
  rw [State.Pending, hpending]
  by_cases heq : layout.wordIndex producer channelSlot = word
  · rw [heq, Function.update_self, getLsbD_clear (bit_lt _)]
    rw [State.Pending, heq] at h
    exact ⟨h, fun hbit => hne ⟨heq, hbit.symm⟩⟩
  · rw [Function.update_of_ne heq]
    exact h

theorem sound_taken {s s' : State} {events new : List Event} {count word : ℕ}
    (h : Sound layout s events) (htaken : Taken layout s count word s' new)
    (hcount : count < layout.wordCount)
    (hmarking : s'.marking = s.marking)
    (hdirty : s'.members.gapDirtyWords = s.members.gapDirtyWords)
    (hpending : s'.members.gapConsumerPending =
      Function.update s.members.gapConsumerPending word (s.members.gapConsumerPending word &&&
        ~~~wordBit (s.members.gapConsumerPending word).ctz.toNat)) :
    Sound layout s' (events ++ new) := by
  have hmark : ∀ producer channelSlot, s'.marking producer = some channelSlot →
      layout.Has producer channelSlot := by
    rw [hmarking]
    exact h.marking
  -- what was flagged is, unless its bit is the one taken
  have hflag : ∀ producer channelSlot, layout.Has producer channelSlot →
      ¬CaughtUp (s.slot layout producer channelSlot) →
      ¬(layout.wordIndex producer channelSlot = word ∧
        channelSlot % 64 = (s.members.gapConsumerPending word).ctz.toNat) →
      s'.Dirty layout producer channelSlot ∨ s'.Pending layout producer channelSlot ∨
        s'.marking producer = some channelSlot := by
    intro producer channelSlot hhas hbehind hne
    rw [State.Dirty, hdirty, hmarking]
    rcases h.flagged producer channelSlot hhas hbehind with hd | hp | hm
    · exact Or.inl hd
    · exact Or.inr (Or.inl (pending_of_taken hpending hp hne))
    · exact Or.inr (Or.inr hm)
  cases htaken with
  | spare outside slots consumer cursor =>
    rw [List.append_nil]
    refine ⟨fun producer channelSlot hhas => ?_, hmark,
      fun producer channelSlot hhas hbehind => ?_, fun count' hc => ?_⟩
    · rw [State.slot, slots]
      exact h.holds producer channelSlot hhas
    · rw [State.slot, slots] at hbehind
      exact hflag producer channelSlot hhas hbehind
        fun hat => outside producer channelSlot hhas hat.1 hat.2
    · rw [consumer] at hc
      cases hc
      exact hcount
  | @noChange producer channelSlot reader has place bit quiet slots consumer cursor =>
    rw [List.append_nil]
    obtain ⟨hself, hother⟩ := slot_update has slots
    have hheld := h.holds producer channelSlot has
    have hcaught : CaughtUp (s.slot layout producer channelSlot) :=
      quiet.elim hheld.holds.caughtUp_of_index id
    refine ⟨fun producer' channelSlot' hhas => ?_, hmark,
      fun producer' channelSlot' hhas hbehind => ?_, fun count' hc => ?_⟩
    · by_cases hsame : producer' = producer ∧ channelSlot' = channelSlot
      · rw [hsame.1, hsame.2, hself]
        exact hheld.reader reader
      · rw [hother producer' channelSlot' hhas hsame]
        exact h.holds producer' channelSlot' hhas
    · by_cases hsame : producer' = producer ∧ channelSlot' = channelSlot
      · rw [hsame.1, hsame.2, hself] at hbehind
        exact absurd hcaught hbehind
      · rw [hother producer' channelSlot' hhas hsame] at hbehind
        refine hflag producer' channelSlot' hhas hbehind fun hat => hsame ?_
        exact hhas.eq_of_wordIndex has (hat.1.trans place.symm) (hat.2.trans bit.symm)
    · rw [consumer] at hc
      cases hc
      exact hcount
  | @ready producer channelSlot has place bit index behind slots consumer =>
    obtain ⟨hself, hother⟩ := slot_update has slots
    refine ⟨fun producer' channelSlot' hhas => ?_, hmark,
      fun producer' channelSlot' hhas hbehind => ?_, fun count' hc => ?_⟩
    · by_cases hsame : producer' = producer ∧ channelSlot' = channelSlot
      · obtain ⟨rfl, rfl⟩ := hsame
        have hready := (h.holds producer' channelSlot' has).ready kNoReader index behind
        rw [hself, slotLog_append]
        simpa [slotLog, about] using hready
      · rw [hother producer' channelSlot' hhas hsame, slotLog_other]
        · exact h.holds producer' channelSlot' hhas
        · intro event hmem
          rw [List.mem_singleton.1 hmem]
          exact (about_other _ hsame).2
    · by_cases hsame : producer' = producer ∧ channelSlot' = channelSlot
      · rw [hsame.1, hsame.2, hself] at hbehind
        exact absurd rfl hbehind
      · rw [hother producer' channelSlot' hhas hsame] at hbehind
        refine hflag producer' channelSlot' hhas hbehind fun hat => hsame ?_
        exact hhas.eq_of_wordIndex has (hat.1.trans place.symm) (hat.2.trans bit.symm)
    · rw [consumer] at hc
      cases hc

/-- Where the consumer is does not matter to the mailboxes. -/
theorem Sound.consumer {s : State} {events : List Event} (h : Sound layout s events)
    {consumer : Consumer}
    (hdraining : ∀ count, consumer = .draining count → count < layout.wordCount) :
    Sound layout { s with consumer := consumer } events :=
  ⟨h.holds, h.marking, h.flagged, hdraining⟩

theorem Sound.exhausted {s : State} {events : List Event} (h : Sound layout s events) :
    Sound layout s (events ++ [.exhausted]) := by
  refine ⟨fun producer channelSlot hhas => ?_, h.marking, h.flagged, h.draining⟩
  rw [slotLog_other (by simp [about])]
  exact h.holds producer channelSlot hhas

theorem sound_consume {s s' : State} {events new : List Event} (h : Sound layout s events)
    (hstep : consumeStep layout s = some (s', new)) : Sound layout s' (events ++ new) := by
  rcases consumeStep_consumes hstep with - | @⟨count, -, hmore, hempty⟩ | @⟨count, -, hmore, -⟩ |
    - | @⟨count, s', new, hc, hpend, hbit⟩
  · exact (h.consumer (by simp)).exhausted
  · rw [List.append_nil]
    refine sound_exchange h hempty rfl rfl rfl rfl fun count' hc' => ?_
    cases hc'
    exact hmore
  · rw [List.append_nil]
    refine h.consumer fun count' hc' => ?_
    cases hc'
    exact hmore
  · rw [List.append_nil]
    exact h.consumer (by simp)
  · have hcount := h.draining count hc
    obtain ⟨htaken, hmarking, hdirty, hpending⟩ :=
      takeBit_taken count (Nat.mod_lt _ (Nat.zero_lt_of_lt hcount)) hpend
    rw [hbit] at htaken hmarking hdirty hpending
    exact sound_taken h htaken hcount hmarking hdirty hpending

theorem sound_of_reaches {s : State} {events : List Event}
    (h : (machine layout).Reaches s events) : Sound layout s events := by
  refine Machine.invariant sound_start (fun {s events action s' new} hs hstep => ?_) h
  cases action with
  | publish producer channelSlot gap => exact sound_publish hs hstep
  | mark producer => exact sound_mark hs hstep
  | tryPollGap =>
    cases hc : s.consumer with
    | idle =>
      simp only [machine, step, hc] at hstep
      cases hstep
      rw [List.append_nil]
      exact hs.consumer (by simp)
    | _ =>
      simp only [machine, step, hc] at hstep
      cases hstep
  | consume => exact sound_consume hs hstep

/-! ## A call that nothing interrupts -/

variable (layout) in
/-- The bits that a call sees : those of its pending word, or of the dirty word it takes
when that is zero. -/
def State.Visible (s : State) (producer channelSlot : ℕ) : Prop :=
  if s.members.gapConsumerPending (layout.wordIndex producer channelSlot) = 0 then
    s.Dirty layout producer channelSlot
  else s.Pending layout producer channelSlot

variable (layout) in
/-- Every mailbox of the word that a call from `s` sees has nothing new. -/
def Cleared (s : State) (word : ℕ) : Prop :=
  ∀ producer channelSlot, layout.Has producer channelSlot →
    layout.wordIndex producer channelSlot = word → s.Visible layout producer channelSlot →
      CaughtUp (s.slot layout producer channelSlot)

variable (layout) in
/-- The consumer has not come to the word. -/
def NotReached (s : State) (word : ℕ) : Prop :=
  match s.consumer with
  | .idle => False
  | .scanning count =>
    ∀ k < count, (s.members.gapConsumerWordCursor + k) % layout.wordCount ≠ word
  | .draining count =>
    ∀ k ≤ count, (s.members.gapConsumerWordCursor + k) % layout.wordCount ≠ word

variable (layout) in
/-- `t` is a state in the middle of a call made in `s`. -/
structure Scanning (s t : State) : Prop where
  cursor : t.members.gapConsumerWordCursor = s.members.gapConsumerWordCursor
  same : ∀ producer channelSlot, layout.Has producer channelSlot →
    (CaughtUp (t.slot layout producer channelSlot) ↔ CaughtUp (s.slot layout producer channelSlot))
  words : ∀ word < layout.wordCount, Cleared layout s word ∨
    (NotReached layout t word ∧
      t.members.gapConsumerPending word = s.members.gapConsumerPending word ∧
      t.members.gapDirtyWords word = s.members.gapDirtyWords word) ∨
    ∃ count, t.consumer = .draining count ∧
      (t.members.gapConsumerWordCursor + count) % layout.wordCount = word ∧
      ∀ producer channelSlot, layout.Has producer channelSlot →
        layout.wordIndex producer channelSlot = word → s.Visible layout producer channelSlot →
          t.Pending layout producer channelSlot ∨ CaughtUp (s.slot layout producer channelSlot)

theorem scanning_start (s : State) : Scanning layout s { s with consumer := .scanning 0 } where
  cursor := rfl
  same _ _ _ := Iff.rfl
  words _ _ := Or.inr (Or.inl ⟨fun k hk => absurd hk (Nat.not_lt_zero k), rfl, rfl⟩)

/-- The consumer comes to a word. -/
theorem scanning_enter {s t t' : State} {count : ℕ} (h : Scanning layout s t)
    (hscan : t.consumer = .scanning count) (hdrain : t'.consumer = .draining count)
    (hcursor : t'.members.gapConsumerWordCursor = t.members.gapConsumerWordCursor)
    (hslots : t'.members.gapSlots = t.members.gapSlots)
    (hothers : ∀ word, (t.members.gapConsumerWordCursor + count) % layout.wordCount ≠ word →
      t'.members.gapConsumerPending word = t.members.gapConsumerPending word ∧
      t'.members.gapDirtyWords word = t.members.gapDirtyWords word)
    (hword : ∀ word, (t.members.gapConsumerWordCursor + count) % layout.wordCount = word →
      t'.members.gapConsumerPending word =
        if t.members.gapConsumerPending word = 0 then t.members.gapDirtyWords word
        else t.members.gapConsumerPending word) : Scanning layout s t' := by
  refine ⟨hcursor.trans h.cursor, fun producer channelSlot hhas => ?_, fun word hlt => ?_⟩
  · rw [State.slot, hslots]
    exact h.same producer channelSlot hhas
  · rcases h.words word hlt with hcleared | ⟨hnot, hpending, hdirty⟩ | ⟨count', hdrain', -, -⟩
    · exact Or.inl hcleared
    · rw [NotReached, hscan] at hnot
      by_cases heq : (t.members.gapConsumerWordCursor + count) % layout.wordCount = word
      · refine Or.inr (Or.inr ⟨count, hdrain, by rw [hcursor, heq], ?_⟩)
        intro producer channelSlot hhas hplace hvisible
        left
        rw [State.Pending, hplace, hword word heq, hpending, hdirty]
        unfold State.Visible State.Dirty State.Pending at hvisible
        rw [hplace] at hvisible
        split_ifs at hvisible ⊢
        · exact hvisible
        · exact hvisible
      · obtain ⟨hpending', hdirty'⟩ := hothers word heq
        refine Or.inr (Or.inl ⟨?_, hpending'.trans hpending, hdirty'.trans hdirty⟩)
        rw [NotReached, hdrain, hcursor]
        intro k hk
        rcases Nat.lt_or_eq_of_le hk with hk | rfl
        · exact hnot k hk
        · exact heq
    · rw [hscan] at hdrain'
      cases hdrain'

/-- The consumer leaves a word with no bit left. -/
theorem scanning_leave {s t : State} {count : ℕ} (h : Scanning layout s t)
    (hdrain : t.consumer = .draining count)
    (hzero : t.members.gapConsumerPending
      ((t.members.gapConsumerWordCursor + count) % layout.wordCount) = 0) :
    Scanning layout s { t with consumer := .scanning (count + 1) } := by
  refine ⟨h.cursor, h.same, fun word hlt => ?_⟩
  rcases h.words word hlt with hcleared | ⟨hnot, hsame⟩ | ⟨count', hdrain', hplace, hseen⟩
  · exact Or.inl hcleared
  · rw [NotReached, hdrain] at hnot
    exact Or.inr (Or.inl ⟨fun k hk => hnot k (Nat.le_of_lt_succ hk), hsame⟩)
  · rw [hdrain] at hdrain'
    cases hdrain'
    refine Or.inl fun producer channelSlot hhas hat hvisible => ?_
    refine (hseen producer channelSlot hhas hat hvisible).resolve_left fun hpending => ?_
    rw [State.Pending, hat, ← hplace, hzero] at hpending
    rw [show (0 : BitVec 64).getLsbD (channelSlot % 64) = false from BitVec.getLsbD_zero]
      at hpending
    cases hpending

/-- A bit taken without a snapshot. -/
theorem scanning_taken {s t t' : State} {events : List Event} {count : ℕ}
    (h : Scanning layout s t) (hsound : Sound layout t events)
    (hdrain : t.consumer = .draining count)
    (htaken : Taken layout t count
      ((t.members.gapConsumerWordCursor + count) % layout.wordCount) t' [])
    (hdirty : t'.members.gapDirtyWords = t.members.gapDirtyWords)
    (hpending : t'.members.gapConsumerPending = Function.update t.members.gapConsumerPending
      ((t.members.gapConsumerWordCursor + count) % layout.wordCount)
      (t.members.gapConsumerPending
          ((t.members.gapConsumerWordCursor + count) % layout.wordCount) &&&
        ~~~wordBit (t.members.gapConsumerPending
          ((t.members.gapConsumerWordCursor + count) % layout.wordCount)).ctz.toNat)) :
    Scanning layout s t' := by
  have hkept : ∀ (hc : t'.consumer = .draining count)
      (hcursor : t'.members.gapConsumerWordCursor = t.members.gapConsumerWordCursor)
      (hsame : ∀ producer channelSlot, layout.Has producer channelSlot →
        (CaughtUp (t'.slot layout producer channelSlot) ↔
          CaughtUp (t.slot layout producer channelSlot)))
      (hbit : ∀ producer channelSlot, layout.Has producer channelSlot →
        layout.wordIndex producer channelSlot =
          (t.members.gapConsumerWordCursor + count) % layout.wordCount →
        channelSlot % 64 = (t.members.gapConsumerPending
          ((t.members.gapConsumerWordCursor + count) % layout.wordCount)).ctz.toNat →
        CaughtUp (t.slot layout producer channelSlot)), Scanning layout s t' := by
    intro hc hcursor hsame hbit
    refine ⟨hcursor.trans h.cursor,
      fun producer channelSlot hhas => (hsame producer channelSlot hhas).trans
        (h.same producer channelSlot hhas), fun word hlt => ?_⟩
    rcases h.words word hlt with hcleared | ⟨hnot, hpend, hdirt⟩ | ⟨count', hdrain', hplace, hseen⟩
    · exact Or.inl hcleared
    · rw [NotReached, hdrain] at hnot
      have hne := hnot count (le_refl _)
      refine Or.inr (Or.inl ⟨?_, ?_, by rw [hdirty, hdirt]⟩)
      · rw [NotReached, hc, hcursor]
        exact hnot
      · rw [hpending, Function.update_of_ne (Ne.symm hne), hpend]
    · rw [hdrain] at hdrain'
      cases hdrain'
      refine Or.inr (Or.inr ⟨count, hc, by rw [hcursor, hplace], ?_⟩)
      intro producer channelSlot hhas hat hvisible
      rcases hseen producer channelSlot hhas hat hvisible with hp | hcaught
      · by_cases hlowest : channelSlot % 64 = (t.members.gapConsumerPending
            ((t.members.gapConsumerWordCursor + count) % layout.wordCount)).ctz.toNat
        · right
          rw [← h.same producer channelSlot hhas]
          exact hbit producer channelSlot hhas (hat.trans hplace.symm) hlowest
        · exact Or.inl (pending_of_taken hpending hp fun hboth => hlowest hboth.2)
      · exact Or.inr hcaught
  cases htaken with
  | spare outside slots consumer cursor =>
    refine hkept consumer cursor (fun producer channelSlot hhas => ?_)
      fun producer channelSlot hhas hat hbit => absurd hbit (outside producer channelSlot hhas hat)
    rw [State.slot, slots]
    rfl
  | @noChange producer channelSlot reader has place bit quiet slots consumer cursor =>
    obtain ⟨hself, hother⟩ := slot_update has slots
    have hcaught : CaughtUp (t.slot layout producer channelSlot) :=
      quiet.elim (hsound.holds producer channelSlot has).holds.caughtUp_of_index id
    refine hkept consumer cursor (fun producer' channelSlot' hhas => ?_)
      fun producer' channelSlot' hhas hat hbit => ?_
    · by_cases hsame : producer' = producer ∧ channelSlot' = channelSlot
      · rw [hsame.1, hsame.2, hself]
        rfl
      · rw [hother producer' channelSlot' hhas hsame]
    · obtain ⟨rfl, rfl⟩ := hhas.eq_of_wordIndex has (hat.trans place.symm) (hbit.trans bit.symm)
      exact hcaught

/-- One more step of the call : it goes on, it returns false and nothing it saw was new, or
it returns a gap. -/
theorem scanning_step {s t t' : State} {events new : List Event} (h : Scanning layout s t)
    (hsound : Sound layout t events) (hstep : consumeStep layout t = some (t', new)) :
    (new = [] ∧ Scanning layout s t') ∨
      (new = [.exhausted] ∧ t'.consumer = .idle ∧
        ∀ word < layout.wordCount, Cleared layout s word) ∨
      ∃ producer channelSlot gap, new = [.polled producer channelSlot gap] ∧
        t'.consumer = .idle := by
  rcases consumeStep_consumes hstep with ⟨hc, hlast⟩ | ⟨hc, -, hempty⟩ | ⟨hc, -, hpend⟩ |
    ⟨hc, hempty⟩ | @⟨count, t', new, hc, hpend, hbit⟩
  · refine Or.inr (Or.inl ⟨rfl, rfl, fun word hlt => ?_⟩)
    rcases h.words word hlt with hcleared | ⟨hnot, -⟩ | ⟨count', hdrain, -⟩
    · exact hcleared
    · -- every word is within `wordCount` places of the cursor
      rw [NotReached, hc] at hnot
      obtain ⟨k, hk, hplace⟩ :=
        LinearProbing.exists_add_mod_eq t.members.gapConsumerWordCursor hlt
      exact absurd hplace (hnot k (lt_of_lt_of_le hk hlast))
    · rw [hc] at hdrain
      cases hdrain
  · refine Or.inl ⟨rfl, scanning_enter h hc rfl rfl rfl (fun word hne => ?_) fun word heq => ?_⟩
    · exact ⟨Function.update_of_ne (Ne.symm hne) _ _, Function.update_of_ne (Ne.symm hne) _ _⟩
    · subst heq
      rw [if_pos hempty]
      exact Function.update_self _ _ _
  · refine Or.inl ⟨rfl, scanning_enter h hc rfl rfl rfl (fun word _ => ⟨rfl, rfl⟩)
      fun word heq => ?_⟩
    subst heq
    rw [if_neg hpend]
  · exact Or.inl ⟨rfl, scanning_leave h hc hempty⟩
  · have hcount := hsound.draining count hc
    obtain ⟨htaken, -, hdirty, hpending⟩ :=
      takeBit_taken count (Nat.mod_lt _ (Nat.zero_lt_of_lt hcount)) hpend
    rw [hbit] at htaken hdirty hpending
    dsimp only at htaken hdirty hpending
    cases hfound : new with
    | nil =>
      rw [hfound] at htaken
      exact Or.inl ⟨rfl, scanning_taken h hsound hc htaken hdirty hpending⟩
    | cons event rest =>
      rw [hfound] at htaken
      cases htaken with
      | ready has place bit index behind slots consumer =>
        exact Or.inr (Or.inr ⟨_, _, _, rfl, consumer⟩)

/-- A call that returns false, with no step of a lane in between, saw nothing new. -/
theorem visible_caughtUp {s s' : State} {events new : List Event} {n : ℕ}
    (hsound : Sound layout s events)
    (hrun : (machine layout).runFrom s (.tryPollGap :: List.replicate n .consume) =
      some (s', new)) (hfalse : .exhausted ∈ new) :
    new = [.exhausted] ∧ ∀ producer channelSlot, layout.Has producer channelSlot →
      s.Visible layout producer channelSlot →
        CaughtUp (s.slot layout producer channelSlot) := by
  obtain ⟨t, first, rest, hcall, hrest, rfl⟩ := Machine.runFrom_cons.1 hrun
  have hidle : s.consumer = .idle := by
    cases hc : s.consumer with
    | idle => rfl
    | _ =>
      simp only [machine, step, hc] at hcall
      cases hcall
  simp only [machine, step, hidle] at hcall
  cases hcall
  rw [List.nil_append] at hfalse ⊢
  have hkeep := Machine.invariant_runFrom (P := fun action => action = Action.consume)
    (I := fun t log => (log = [] ∧ Scanning layout s t ∧ Sound layout t events) ∨
      (log = [.exhausted] ∧ t.consumer = .idle ∧
        ∀ word < layout.wordCount, Cleared layout s word) ∨
      ∃ producer channelSlot gap, log = [.polled producer channelSlot gap] ∧ t.consumer = .idle)
    ?_ (fun action hmem => List.eq_of_mem_replicate hmem)
    (Or.inl ⟨rfl, scanning_start s, hsound.consumer (by simp)⟩) hrest
  · rw [List.nil_append] at hkeep
    rcases hkeep with ⟨hlog, -⟩ | ⟨hlog, -, hcleared⟩ | ⟨producer, channelSlot, gap, hlog, -⟩
    · rw [hlog] at hfalse
      cases hfalse
    · exact ⟨hlog, fun producer channelSlot hhas =>
        hcleared _ hhas.wordIndex_lt producer channelSlot hhas rfl⟩
    · rw [hlog] at hfalse
      simp at hfalse
  · rintro t log action t' new' rfl hI hstep
    rcases hI with ⟨rfl, hscan, hsound'⟩ | ⟨-, hidle', -⟩ | ⟨-, -, -, -, hidle'⟩
    · rw [List.nil_append]
      rcases scanning_step hscan hsound' hstep with ⟨rfl, hscan'⟩ | hexhausted | hpolled
      · have hsound'' := sound_consume hsound' hstep
        rw [List.append_nil] at hsound''
        exact Or.inl ⟨rfl, hscan', hsound''⟩
      · exact Or.inr (Or.inl hexhausted)
      · exact Or.inr (Or.inr hpolled)
    all_goals
      simp only [machine, step, consumeStep, hidle'] at hstep
      cases hstep

/-! ## Quiescent calls -/

variable (layout) in
/-- Of every channel slot, the last gap published is the last gap returned. -/
def AllDelivered (events : List Event) : Prop :=
  ∀ producer channelSlot, layout.Has producer channelSlot →
    LastReturned producer channelSlot (slotLog producer channelSlot events)

variable (layout) in
/-- No word whose pending word is nonzero has the bit of a slot with a new gap in its dirty
word. -/
def Unhidden (s : State) : Prop :=
  ∀ producer channelSlot, layout.Has producer channelSlot →
    s.members.gapConsumerPending (layout.wordIndex producer channelSlot) ≠ 0 →
    s.Dirty layout producer channelSlot → CaughtUp (s.slot layout producer channelSlot)

variable (layout) in
/-- No slot's token has come round to the delivered one. -/
def Unrepeated (s : State) (events : List Event) : Prop :=
  ∀ producer channelSlot, layout.Has producer channelSlot →
    CaughtUp (s.slot layout producer channelSlot) →
      LastReturned producer channelSlot (slotLog producer channelSlot events)

/-- In every reachable state in which no `PublishGap` is in progress, a call of `TryPollGap`
that returns false has left nothing undelivered if and only if no nonzero pending word
hides a new gap in its dirty word, and no token has come round. Tokens do not come round
in fewer than `2 ^ 62` publications of a slot. -/
theorem false_iff_delivered {s s' : State} {events new : List Event} {n : ℕ}
    (h : (machine layout).Reaches s events) (hquiet : ∀ producer, s.marking producer = none)
    (hrun : (machine layout).runFrom s (.tryPollGap :: List.replicate n .consume) =
      some (s', new)) (hfalse : .exhausted ∈ new) :
    (AllDelivered layout (events ++ new) ↔ Unhidden layout s ∧ Unrepeated layout s events) ∧
      ((∀ producer channelSlot, layout.Has producer channelSlot →
        publications (slotLog producer channelSlot events) < 2 ^ 62) →
          Unrepeated layout s events) := by
  have hsound := sound_of_reaches h
  obtain ⟨rfl, hvisible⟩ := visible_caughtUp hsound hrun hfalse
  have hsame : ∀ producer channelSlot, slotLog producer channelSlot (events ++ [.exhausted]) =
      slotLog producer channelSlot events :=
    fun producer channelSlot => slotLog_other (by simp [about])
  refine ⟨⟨fun hall => ⟨?_, ?_⟩, ?_⟩, fun hbound producer channelSlot hhas =>
    (hsound.holds producer channelSlot hhas).truthful (hbound producer channelSlot hhas)⟩
  · intro producer channelSlot hhas _ _
    have hlast := hall producer channelSlot hhas
    rw [hsame] at hlast
    exact (hsound.holds producer channelSlot hhas).holds.caughtUp_of_returned hlast
  · intro producer channelSlot hhas _
    have hlast := hall producer channelSlot hhas
    rwa [hsame] at hlast
  · rintro ⟨hunhidden, hunrepeated⟩ producer channelSlot hhas
    rw [hsame]
    refine hunrepeated producer channelSlot hhas ?_
    by_contra hbehind
    have hseen := mt (hvisible producer channelSlot hhas) hbehind
    rw [State.Visible] at hseen
    rcases hsound.flagged producer channelSlot hhas hbehind with hd | hp | hm
    · split_ifs at hseen with hzero
      · exact hseen hd
      · exact hbehind (hunhidden producer channelSlot hhas hzero hd)
    · split_ifs at hseen with hzero
      · rw [State.Pending, hzero] at hp
        rw [show (0 : BitVec 64).getLsbD (channelSlot % 64) = false from BitVec.getLsbD_zero] at hp
        cases hp
      · exact hseen hp
    · rw [hquiet producer] at hm
      cases hm

/-- One lane with three channel slots. -/
def sampleLayout : GapLayout :=
  ⟨1, 3⟩

/-- With one lane, no other lane is publishing. -/
theorem quiet_of_marking {s : State} {events : List Event}
    (h : (machine sampleLayout).Reaches s events) (hmarking : s.marking 0 = none) :
    ∀ producer, s.marking producer = none := by
  intro producer
  cases hmarked : s.marking producer with
  | none => rfl
  | some channelSlot =>
    have hlt : producer < 1 := ((sound_of_reaches h).marking producer channelSlot hmarked).1
    obtain rfl : producer = 0 := by omega
    rw [hmarking] at hmarked
    cases hmarked

/-- A gap of one slot is published and returned. -/
def polledActions : List Action :=
  [.publish 0 1 {}, .mark 0, .tryPollGap, .consume, .consume]

theorem false_iff_delivered_sample : ∃ s events s' new,
    (machine sampleLayout).Reaches s events ∧
      (machine sampleLayout).runFrom s (.tryPollGap :: List.replicate 3 .consume) =
        some (s', new) ∧ .exhausted ∈ new ∧
      (AllDelivered sampleLayout (events ++ new) ↔
        Unhidden sampleLayout s ∧ Unrepeated sampleLayout s events) := by
  have hrun : (((machine sampleLayout).run polledActions).map fun r =>
      (r.1.marking 0, ((machine sampleLayout).runFrom r.1
        (.tryPollGap :: List.replicate 3 .consume)).map fun t => t.2)) =
      some (none, some [.exhausted]) := by
    decide +kernel
  obtain ⟨⟨s, events⟩, hrun, hafter⟩ := Option.map_eq_some_iff.1 hrun
  obtain ⟨hmarking, hcall⟩ := Prod.mk.inj hafter
  obtain ⟨⟨s', new⟩, hcall, hnew⟩ := Option.map_eq_some_iff.1 hcall
  have hreach : (machine sampleLayout).Reaches s events := ⟨polledActions, hrun⟩
  have hquiet := quiet_of_marking hreach hmarking
  have hfalse : Event.exhausted ∈ new := by
    rw [show new = [.exhausted] from hnew]
    exact List.mem_cons_self
  exact ⟨s, events, s', new, hreach, hcall, hfalse,
    (false_iff_delivered hreach hquiet hcall hfalse).1⟩

/-- The second gap of slot 1 is returned before its bit is set, so that the bit is stale. It
is taken with the bit of slot 0, whose gap is returned, and stays pending while slot 2
publishes. -/
def staleActions : List Action :=
  [.publish 0 1 {}, .mark 0, .tryPollGap, .consume, .publish 0 1 {}, .consume, .mark 0,
    .publish 0 0 {}, .mark 0, .tryPollGap, .consume, .consume, .publish 0 2 {}, .mark 0]

theorem stale_bit_hides_gap : ∃ s events s' new,
    (machine sampleLayout).Reaches s events ∧ (∀ producer, s.marking producer = none) ∧
      (machine sampleLayout).runFrom s (.tryPollGap :: List.replicate 4 .consume) =
        some (s', new) ∧ .exhausted ∈ new ∧ ¬AllDelivered sampleLayout (events ++ new) := by
  have hrun : (((machine sampleLayout).run staleActions).map fun r =>
      (r.1.marking 0, slotLog 0 2 r.2, ((machine sampleLayout).runFrom r.1
        (.tryPollGap :: List.replicate 4 .consume)).map fun t => t.2)) =
      some (none, [.published 0 2 {}], some [.exhausted]) := by
    decide +kernel
  obtain ⟨⟨s, events⟩, hrun, hafter⟩ := Option.map_eq_some_iff.1 hrun
  obtain ⟨hmarking, hafter⟩ := Prod.mk.inj hafter
  obtain ⟨hlog, hcall⟩ := Prod.mk.inj hafter
  obtain ⟨⟨s', new⟩, hcall, hnew⟩ := Option.map_eq_some_iff.1 hcall
  obtain rfl : new = [.exhausted] := hnew
  have hreach : (machine sampleLayout).Reaches s events := ⟨staleActions, hrun⟩
  refine ⟨s, events, s', _, hreach, quiet_of_marking hreach hmarking, hcall,
    List.mem_cons_self, fun hall => ?_⟩
  have hlast := hall 0 2 ⟨by decide, by decide⟩
  rw [slotLog_other (by simp [about]), show slotLog 0 2 events = _ from hlog] at hlast
  rcases hlast with hempty | ⟨before, gap, hsplit⟩
  · cases hempty
  · have hlength := congrArg List.length hsplit
    simp at hlength

end Dispatcher

end L2Flow
