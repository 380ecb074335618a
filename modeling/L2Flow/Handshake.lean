import Mathlib.Data.Nat.Bitwise
import L2Flow.Mailbox

/-!
# Exactness of the gap mailbox

However `Publish` and `TrySnapshot` interleave, a snapshot is one published gap, a later
snapshot is of a later publication, and `kNoChange` hides nothing (`mailbox_exact`). The
handshake is the invariant `Coherent` : once the recheck has found the token unchanged,
the buffer it names is neither the target of the publication in progress, which avoids the
published buffer, nor of a later one, which avoids the reader's.

A token carries the number of its publication (`publication`), so tokens do not repeat
before there are `2 ^ 62` of them. That bound is used where two tokens are found equal.
-/

namespace L2Flow

/-! ## Tokens -/

/-- The number of the publication a token belongs to; the first token belongs to none. -/
def publication (token : BitVec 64) : ℕ :=
  token.toNat / 4

theorem tokenIndex_eq (token : BitVec 64) : tokenIndex token = token.toNat % 4 := by
  rw [tokenIndex, BitVec.toNat_and]
  exact Nat.and_two_pow_sub_one_eq_mod _ 2

theorem toNat_makeToken (generation : BitVec 64) (target : Fin 3) :
    (makeToken generation target).toNat = generation.toNat * 4 % 2 ^ 64 + target := by
  have htarget : (target : ℕ) < 2 ^ 2 := by omega
  have hshift : (generation <<< 2).toNat = (generation.toNat % 2 ^ 62) <<< 2 := by
    rw [BitVec.toNat_shiftLeft, Nat.shiftLeft_eq, Nat.shiftLeft_eq]
    omega
  have hofNat : (BitVec.ofNat 64 target).toNat = target := by
    rw [BitVec.toNat_ofNat]
    omega
  rw [makeToken, BitVec.toNat_or, hshift, hofNat, ← Nat.shiftLeft_add_eq_or_of_lt htarget,
    Nat.shiftLeft_eq]
  omega

theorem publication_makeToken {generation : BitVec 64} (h : generation.toNat < 2 ^ 62)
    (target : Fin 3) : publication (makeToken generation target) = generation.toNat := by
  rw [publication, toNat_makeToken]
  omega

theorem tokenIndex_makeToken (generation : BitVec 64) (target : Fin 3) :
    tokenIndex (makeToken generation target) = target := by
  rw [tokenIndex_eq, toNat_makeToken]
  omega

theorem tokenBuffer_makeToken (generation : BitVec 64) (target : Fin 3) :
    tokenBuffer (makeToken generation target) = target := by
  rw [tokenBuffer, tokenIndex_makeToken]
  exact Fin.ofNat_val_eq_self target

theorem val_tokenBuffer {token : BitVec 64} (h : tokenIndex token < 3) :
    (tokenBuffer token : ℕ) = tokenIndex token :=
  Nat.mod_eq_of_lt h

theorem chooseTarget_ne_current (currentIndex readerIndex : ℕ) :
    (chooseTarget currentIndex readerIndex : ℕ) ≠ currentIndex := by
  unfold chooseTarget
  simp only [Fin.val_ofNat]
  split_ifs with h
  · have hone : ((1 : Fin 3) : ℕ) = 1 := rfl
    rw [Fin.val_add, Fin.val_ofNat]
    omega
  · simp only [Fin.val_ofNat]
    omega

theorem chooseTarget_ne_reader (currentIndex readerIndex : ℕ) :
    (chooseTarget currentIndex readerIndex : ℕ) ≠ readerIndex := by
  unfold chooseTarget
  simp only [Fin.val_ofNat]
  split_ifs with h
  · have hone : ((1 : Fin 3) : ℕ) = 1 := rfl
    rw [Fin.val_add, Fin.val_ofNat]
    omega
  · exact h

namespace Mailbox

open GapMailboxSlot

/-! ## What a run reports -/

/-- The gaps published, in order. -/
def publishedOf (events : List Event) : List ChannelGap :=
  events.filterMap fun
    | .published gap => some gap
    | _ => none

/-- The tokens of the snapshots returned, in order. -/
def readyOf (events : List Event) : List (BitVec 64) :=
  events.filterMap fun
    | .ready token _ => some token
    | _ => none

@[simp] theorem publishedOf_append (events rest : List Event) :
    publishedOf (events ++ rest) = publishedOf events ++ publishedOf rest :=
  List.filterMap_append

@[simp] theorem readyOf_append (events rest : List Event) :
    readyOf (events ++ rest) = readyOf events ++ readyOf rest :=
  List.filterMap_append

@[simp] theorem publishedOf_nil : publishedOf [] = [] :=
  rfl

@[simp] theorem readyOf_nil : readyOf [] = [] :=
  rfl

theorem mem_readyOf {events : List Event} {token : BitVec 64} :
    token ∈ readyOf events ↔ ∃ gap, Event.ready token gap ∈ events := by
  simp only [readyOf, List.mem_filterMap]
  constructor
  · rintro ⟨event, hmem, hevent⟩
    cases event with
    | ready token' gap =>
      cases hevent
      exact ⟨gap, hmem⟩
    | _ => cases hevent
  · rintro ⟨gap, hmem⟩
    exact ⟨_, hmem, rfl⟩

/-- `rest` is what happened since the last call of `TrySnapshot`. -/
def SinceCall (events before rest : List Event) : Prop :=
  events = before ++ .called :: rest ∧ .called ∉ rest

/-- A call of `TrySnapshot` is in progress. -/
def InCall (events : List Event) : Prop :=
  ∃ before rest, SinceCall events before rest

/-- At some moment of the call, `n` gaps were published. -/
def Moment (events : List Event) (n : ℕ) : Prop :=
  ∃ before early late, SinceCall events before (early ++ late) ∧
    (publishedOf (before ++ early)).length = n

/-- The call found nothing published when it first loaded the token. -/
def NothingRead (events : List Event) : Prop :=
  ∃ before early late, SinceCall events before (early ++ .read :: late) ∧ .read ∉ early ∧
    publishedOf (before ++ early) = []

theorem InCall.append {events more : List Event} (h : InCall events) (hmore : .called ∉ more) :
    InCall (events ++ more) := by
  obtain ⟨before, rest, rfl, hrest⟩ := h
  refine ⟨before, rest ++ more, by simp, fun hmem => ?_⟩
  exact (List.mem_append.1 hmem).elim hrest hmore

theorem Moment.append {events more : List Event} {n : ℕ} (h : Moment events n)
    (hmore : .called ∉ more) : Moment (events ++ more) n := by
  obtain ⟨before, early, late, ⟨rfl, hrest⟩, hn⟩ := h
  refine ⟨before, early, late ++ more, ⟨by simp, fun hmem => ?_⟩, hn⟩
  rw [← List.append_assoc] at hmem
  exact (List.mem_append.1 hmem).elim hrest hmore

theorem InCall.moment {events : List Event} (h : InCall events) :
    Moment events (publishedOf events).length := by
  obtain ⟨before, rest, rfl, hrest⟩ := h
  refine ⟨before, rest, [], ⟨by simp, by simpa using hrest⟩, ?_⟩
  simp [publishedOf]

theorem Moment.inCall {events : List Event} {n : ℕ} (h : Moment events n) : InCall events := by
  obtain ⟨before, early, late, hsince, -⟩ := h
  exact ⟨before, early ++ late, hsince⟩

theorem inCall_called (events : List Event) : InCall (events ++ [.called]) :=
  ⟨events, [], rfl, by simp⟩

theorem publishedOf_cons_called (events : List Event) :
    publishedOf (.called :: events) = publishedOf events :=
  rfl

theorem InCall.nothingRead {events : List Event} (h : InCall events)
    (hnone : publishedOf events = []) : NothingRead (events ++ [.read]) := by
  obtain ⟨before, rest, rfl, hrest⟩ := h
  rw [publishedOf_append, publishedOf_cons_called, List.append_eq_nil_iff] at hnone
  have hread : Event.read ∈ rest ++ [.read] := by simp
  obtain ⟨early, late, hsplit, hfirst⟩ := List.eq_append_cons_of_mem hread
  have hearly : publishedOf early = [] := by
    have hempty : publishedOf (rest ++ [.read]) = [] := by
      rw [publishedOf_append, hnone.2]
      rfl
    rw [hsplit, publishedOf_append, List.append_eq_nil_iff] at hempty
    exact hempty.1
  refine ⟨before, early, late, ⟨by rw [← hsplit]; simp, ?_⟩, hfirst, ?_⟩
  · rw [← hsplit]
    simp [hrest]
  · rw [publishedOf_append, hnone.1, hearly, List.append_nil]

/-! ## The handshake -/

/-- The order of tokens : by publication, and of one publication there is one token. -/
def Follows (token token' : BitVec 64) : Prop :=
  publication token < publication token' ∨ token = token'

theorem Follows.le {token token' : BitVec 64} (h : Follows token token') :
    publication token ≤ publication token' := by
  rcases h with h | rfl
  · exact h.le
  · exact le_refl _

theorem Follows.trans {a b c : BitVec 64} (h : Follows a b) (h' : Follows b c) : Follows a c := by
  rcases h with h | rfl
  · exact Or.inl (lt_of_lt_of_le h h'.le)
  · exact h'

/-- The published token names the last gap published. -/
structure Current (slot : GapMailboxSlot) (published : List ChannelGap) : Prop where
  generation : slot.producerGeneration.toNat = published.length
  number : publication slot.publishedToken = published.length
  index : tokenIndex slot.publishedToken < 3 ↔ published ≠ []
  last : published ≠ [] →
    published.getLast? = some (slot.buffers (tokenBuffer slot.publishedToken))

/-- The snapshots returned, up to the delivered token. -/
structure Delivered (slot : GapMailboxSlot) (events : List Event) : Prop where
  follows : Follows slot.deliveredToken slot.publishedToken
  bounded : ∀ token ∈ readyOf events, publication token ≤ publication slot.deliveredToken
  last : slot.deliveredToken ∈ readyOf events ∨ publication slot.deliveredToken = 0
  increasing : (readyOf events).Pairwise fun token token' =>
    publication token < publication token'

/-- What a publication in progress may write. -/
def ProducerSafe (slot : GapMailboxSlot) : Producer → Prop
  | .loaded _ currentToken => currentToken = slot.publishedToken
  | .writing gap target left =>
    (target : ℕ) ≠ tokenIndex slot.publishedToken ∧
      ∀ field, field ∉ left → GapField.Agrees field gap (slot.buffers target)
  | _ => True

/-- The token `before` was the published one at some moment of the call. -/
structure Seen (slot : GapMailboxSlot) (events : List Event) (before : BitVec 64) : Prop where
  index : tokenIndex before < 3
  positive : 0 < publication before
  delivered : Follows slot.deliveredToken before
  published : Follows before slot.publishedToken
  moment : Moment events (publication before)

/-- The buffer of `before` is claimed : it holds its publication, and is not written. -/
structure Claimed (slot : GapMailboxSlot) (producer : Producer) (published : List ChannelGap)
    (before : BitVec 64) : Prop where
  reader : slot.readerIndex = tokenIndex before
  unwritten : ∀ gap target left, producer = .writing gap target left →
    (target : ℕ) ≠ tokenIndex before
  content : published[publication before - 1]? = some (slot.buffers (tokenBuffer before))

def ConsumerSafe (slot : GapMailboxSlot) (producer : Producer) (events : List Event) :
    Consumer → Prop
  | .idle => True
  | .attempting _ => InCall events
  | .loaded _ before => Seen slot events before
  | .claimed _ before => Seen slot events before ∧ slot.readerIndex = tokenIndex before
  | .retreating _ => InCall events
  | .copying before snapshot left =>
    Seen slot events before ∧ Claimed slot producer (publishedOf events) before ∧
      ∀ field, field ∉ left →
        GapField.Agrees field (slot.buffers (tokenBuffer before)) snapshot
  | .copied before snapshot =>
    Seen slot events before ∧ (publishedOf events)[publication before - 1]? = some snapshot

/-- What a result of `TrySnapshot` says, of the events before it. -/
def Justified (before : List Event) : Event → Prop
  | .ready token gap =>
    0 < publication token ∧ (publishedOf before)[publication token - 1]? = some gap
  | .noChange =>
    NothingRead before ∨ ∃ token gap, Event.ready token gap ∈ before ∧
      0 < publication token ∧ Moment before (publication token)
  | _ => True

def Faithful (events : List Event) : Prop :=
  ∀ before event after, events = before ++ event :: after → Justified before event

theorem Faithful.snoc {events : List Event} (h : Faithful events) {event : Event}
    (hevent : Justified events event) : Faithful (events ++ [event]) := by
  intro before event' after heq
  rcases List.eq_nil_or_concat after with rfl | ⟨after, last, rfl⟩
  · obtain ⟨rfl, he⟩ := List.append_inj' heq rfl
    cases he
    exact hevent
  · have hsplit : events ++ [event] = (before ++ event' :: after) ++ [last] := by
      rw [heq]
      simp
    obtain ⟨rfl, -⟩ := List.append_inj' hsplit rfl
    exact h before event' after rfl

structure Coherent (s : State) (events : List Event) : Prop where
  faithful : Faithful events
  current : Current s.slot (publishedOf events)
  delivered : Delivered s.slot events
  producer : ProducerSafe s.slot s.producer
  consumer : ConsumerSafe s.slot s.producer events s.consumer

theorem coherent_start : Coherent {} [] where
  faithful := by
    intro before event after heq
    simp at heq
  current := ⟨rfl, rfl, by simp [tokenIndex], fun h => absurd rfl h⟩
  delivered := ⟨Or.inr rfl, by simp, Or.inr rfl, List.Pairwise.nil⟩
  producer := trivial
  consumer := trivial

/-! ## Steps of the producer -/

theorem getElem?_append_of_eq_some {published : List ChannelGap} {i : ℕ} {gap : ChannelGap}
    (h : published[i]? = some gap) (more : List ChannelGap) :
    (published ++ more)[i]? = some gap := by
  obtain ⟨hlt, -⟩ := List.getElem?_eq_some_iff.1 h
  rw [List.getElem?_append_left hlt, h]

/-- A step of the producer, seen by the consumer. -/
theorem ConsumerSafe.keep {slot slot' : GapMailboxSlot} {producer producer' : Producer}
    {events more : List Event} {consumer : Consumer}
    (h : ConsumerSafe slot producer events consumer) (hmore : .called ∉ more)
    (hdelivered : slot'.deliveredToken = slot.deliveredToken)
    (hreader : slot'.readerIndex = slot.readerIndex)
    (hfollows : Follows slot.publishedToken slot'.publishedToken)
    (hclaim : ∀ before, tokenIndex before < 3 →
      Claimed slot producer (publishedOf events) before →
      (∀ gap target left, producer' = .writing gap target left →
        (target : ℕ) ≠ tokenIndex before) ∧
      slot'.buffers (tokenBuffer before) = slot.buffers (tokenBuffer before)) :
    ConsumerSafe slot' producer' (events ++ more) consumer := by
  have hseen : ∀ {before}, Seen slot events before → Seen slot' (events ++ more) before :=
    fun hs => ⟨hs.index, hs.positive, hdelivered ▸ hs.delivered, hs.published.trans hfollows,
      hs.moment.append hmore⟩
  cases consumer with
  | idle => trivial
  | attempting attempt => exact InCall.append h hmore
  | loaded attempt before => exact hseen h
  | claimed attempt before => exact ⟨hseen h.1, hreader.trans h.2⟩
  | retreating attempt => exact InCall.append h hmore
  | copying before snapshot left =>
    obtain ⟨hs, hclaimed, hcopied⟩ := h
    obtain ⟨hunwritten, hsame⟩ := hclaim before hs.index hclaimed
    refine ⟨hseen hs, ⟨hreader.trans hclaimed.reader, hunwritten, ?_⟩, ?_⟩
    · rw [publishedOf_append, hsame]
      exact getElem?_append_of_eq_some hclaimed.content _
    · rw [hsame]
      exact hcopied
  | copied before snapshot =>
    refine ⟨hseen h.1, ?_⟩
    rw [publishedOf_append]
    exact getElem?_append_of_eq_some h.2 _

/-- A step of the producer that leaves the slot as it is. -/
theorem coherent_silent {s : State} {events : List Event} (h : Coherent s events)
    {producer : Producer} (hsafe : ProducerSafe s.slot producer)
    (hwriting : ∀ gap target left, producer = .writing gap target left →
      (target : ℕ) ≠ s.slot.readerIndex) :
    Coherent { s with producer := producer } events where
  faithful := h.faithful
  current := h.current
  delivered := h.delivered
  producer := hsafe
  consumer := by
    have hkeep : ConsumerSafe s.slot producer (events ++ []) s.consumer :=
      h.consumer.keep (by simp) rfl rfl (Or.inr rfl) fun before _ hclaimed =>
        ⟨fun gap target left hp => hclaimed.reader ▸ hwriting gap target left hp, rfl⟩
    rwa [List.append_nil] at hkeep

/-- The producer writes a field of its buffer. -/
theorem coherent_write {s : State} {events : List Event} (h : Coherent s events)
    {gap : ChannelGap} {target : Fin 3} {left : List GapField}
    (hp : s.producer = .writing gap target left) (field : GapField) :
    Coherent { s with
      slot := { s.slot with
        buffers := Function.update s.slot.buffers target
          (field.copy gap (s.slot.buffers target)) }
      producer := .writing gap target (left.erase field) } events := by
  have hproducer := h.producer
  rw [hp] at hproducer
  obtain ⟨htarget, hwritten⟩ := hproducer
  have hother : ∀ {token}, tokenIndex token < 3 → (target : ℕ) ≠ tokenIndex token →
      Function.update s.slot.buffers target (field.copy gap (s.slot.buffers target))
        (tokenBuffer token) = s.slot.buffers (tokenBuffer token) := by
    intro token hindex hne
    refine Function.update_of_ne (fun heq => hne ?_) _ _
    rw [← heq, val_tokenBuffer hindex]
  refine ⟨h.faithful, ⟨h.current.generation, h.current.number, h.current.index, fun hne => ?_⟩,
    ⟨h.delivered.follows, h.delivered.bounded, h.delivered.last, h.delivered.increasing⟩,
    ⟨htarget, fun field' hleft => ?_⟩, ?_⟩
  · show (publishedOf events).getLast? = some
      (Function.update s.slot.buffers target _ (tokenBuffer s.slot.publishedToken))
    rw [hother (h.current.index.2 hne) htarget]
    exact h.current.last hne
  · show GapField.Agrees field' gap (Function.update s.slot.buffers target _ target)
    rw [Function.update_self]
    by_cases heq : field' = field
    · rw [heq]
      exact GapField.agrees_copy_self field gap _
    · refine (hwritten field' fun hmem => hleft ?_).copy field
      exact (List.mem_erase_of_ne heq).2 hmem
  · have hkeep : ConsumerSafe { s.slot with
          buffers := Function.update s.slot.buffers target
            (field.copy gap (s.slot.buffers target)) }
        (.writing gap target (left.erase field)) (events ++ []) s.consumer := by
      refine h.consumer.keep (by simp) rfl rfl (Or.inr rfl) fun before hindex hclaimed => ?_
      have hne := hclaimed.unwritten gap target left hp
      refine ⟨fun gap' target' left' hp' => ?_, hother hindex hne⟩
      cases hp'
      exact hne
    rwa [List.append_nil] at hkeep

/-- The producer stores its token. -/
theorem coherent_publish {s : State} {events : List Event} (h : Coherent s events)
    {gap : ChannelGap} {target : Fin 3} (hp : s.producer = .writing gap target [])
    (hbound : (publishedOf (events ++ [.published gap])).length < 2 ^ 62) :
    Coherent { s with
      slot := { s.slot with
        producerGeneration := s.slot.producerGeneration + 1
        publishedToken := makeToken (s.slot.producerGeneration + 1) target }
      producer := .idle } (events ++ [.published gap]) := by
  have hproducer := h.producer
  rw [hp] at hproducer
  obtain ⟨htarget, hwritten⟩ := hproducer
  have hgap : gap = s.slot.buffers target :=
    GapField.eq_of_agrees fun field => hwritten field List.not_mem_nil
  have hpublished : publishedOf (events ++ [.published gap]) = publishedOf events ++ [gap] := by
    rw [publishedOf_append]
    rfl
  rw [hpublished, List.length_append, List.length_singleton] at hbound
  have hgeneration : (s.slot.producerGeneration + 1).toNat = (publishedOf events).length + 1 := by
    have := h.current.generation
    have hone : (1 : BitVec 64).toNat = 1 := rfl
    rw [BitVec.toNat_add, hone]
    omega
  have hlt : (s.slot.producerGeneration + 1).toNat < 2 ^ 62 := by omega
  have hnumber := publication_makeToken hlt target
  have hfollows : Follows s.slot.publishedToken
      (makeToken (s.slot.producerGeneration + 1) target) := by
    refine Or.inl ?_
    rw [hnumber, hgeneration, h.current.number]
    omega
  refine ⟨h.faithful.snoc trivial, ⟨?_, ?_, ?_, fun _ => ?_⟩,
    ⟨h.delivered.follows.trans hfollows, ?_, ?_, ?_⟩, trivial, ?_⟩
  · rw [hpublished, List.length_append]
    exact hgeneration
  · rw [hpublished, List.length_append]
    exact hnumber.trans hgeneration
  · rw [hpublished]
    show tokenIndex (makeToken _ target) < 3 ↔ _
    rw [tokenIndex_makeToken]
    simp
  · rw [hpublished, List.getLast?_concat, hgap]
    show some _ = some (s.slot.buffers (tokenBuffer (makeToken _ target)))
    rw [tokenBuffer_makeToken]
  · rw [readyOf_append]
    simpa [readyOf] using h.delivered.bounded
  · rw [readyOf_append]
    simpa [readyOf] using h.delivered.last
  · rw [readyOf_append]
    simpa [readyOf] using h.delivered.increasing
  · refine ConsumerSafe.keep h.consumer (by simp) rfl rfl hfollows fun before hindex hclaimed =>
      ⟨fun gap' target' left' hp' => (by cases hp'), rfl⟩

theorem coherent_produceStep {s s' : State} {events new : List Event} {field : GapField}
    (h : Coherent s events) (hbound : (publishedOf (events ++ new)).length < 2 ^ 62)
    (hstep : produceStep s field = some (s', new)) : Coherent s' (events ++ new) := by
  unfold produceStep at hstep
  cases hp : s.producer with
  | idle =>
    rw [hp] at hstep
    cases hstep
  | called gap =>
    rw [hp] at hstep
    cases hstep
    rw [List.append_nil]
    exact coherent_silent h rfl (by simp)
  | loaded gap currentToken =>
    have hproducer := h.producer
    rw [hp] at hproducer hstep
    cases hstep
    cases hproducer
    rw [List.append_nil]
    refine coherent_silent h ⟨chooseTarget_ne_current _ _, ?_⟩ ?_
    · intro field hleft
      exact absurd (GapField.mem_all field) hleft
    · rintro gap' target' left' ⟨⟩
      exact chooseTarget_ne_reader _ _
  | writing gap target left =>
    rw [hp] at hstep
    cases left with
    | nil =>
      cases hstep
      exact coherent_publish h hp hbound
    | cons first left =>
      simp only at hstep
      split_ifs at hstep
      cases hstep
      rw [List.append_nil]
      exact coherent_write h hp field

/-! ## Steps of the consumer -/

/-- A step of the consumer that returns no snapshot and stores no token. -/
theorem coherent_consumer {s : State} {events new : List Event} (h : Coherent s events)
    {slot : GapMailboxSlot} {consumer : Consumer} (hbuffers : slot.buffers = s.slot.buffers)
    (hpublished : slot.publishedToken = s.slot.publishedToken)
    (hgeneration : slot.producerGeneration = s.slot.producerGeneration)
    (hdelivered : slot.deliveredToken = s.slot.deliveredToken)
    (hnew : publishedOf new = [] ∧ readyOf new = []) (hfaithful : Faithful (events ++ new))
    (hsafe : ConsumerSafe slot s.producer (events ++ new) consumer) :
    Coherent { s with slot := slot, consumer := consumer } (events ++ new) := by
  have hpub : publishedOf (events ++ new) = publishedOf events := by
    rw [publishedOf_append, hnew.1, List.append_nil]
  have hready : readyOf (events ++ new) = readyOf events := by
    rw [readyOf_append, hnew.2, List.append_nil]
  refine ⟨hfaithful, ⟨?_, ?_, ?_, ?_⟩, ⟨?_, ?_, ?_, ?_⟩, ?_, hsafe⟩
  · rw [hpub, hgeneration]
    exact h.current.generation
  · rw [hpub, hpublished]
    exact h.current.number
  · rw [hpub, hpublished]
    exact h.current.index
  · rw [hpub, hpublished, hbuffers]
    exact h.current.last
  · rw [hdelivered, hpublished]
    exact h.delivered.follows
  · rw [hready, hdelivered]
    exact h.delivered.bounded
  · rw [hready, hdelivered]
    exact h.delivered.last
  · rw [hready]
    exact h.delivered.increasing
  · have hproducer := h.producer
    show ProducerSafe slot s.producer
    cases hp : s.producer with
    | idle => trivial
    | called gap => trivial
    | loaded gap currentToken =>
      rw [hp] at hproducer
      exact Eq.trans hproducer hpublished.symm
    | writing gap target left =>
      rw [hp] at hproducer
      rw [ProducerSafe, hpublished, hbuffers]
      exact hproducer

/-- The token loaded by an attempt. -/
theorem seen_current {s : State} {events : List Event} (h : Coherent s events)
    (hcall : InCall events) (hindex : tokenIndex s.slot.publishedToken < 3) :
    Seen s.slot events s.slot.publishedToken where
  index := hindex
  positive := by
    rw [h.current.number]
    exact List.length_pos_of_ne_nil (h.current.index.1 hindex)
  delivered := h.delivered.follows
  published := Or.inr rfl
  moment := h.current.number ▸ hcall.moment

theorem Seen.append {slot : GapMailboxSlot} {events more : List Event} {before : BitVec 64}
    (h : Seen slot events before) (hmore : .called ∉ more) : Seen slot (events ++ more) before :=
  ⟨h.index, h.positive, h.delivered, h.published, h.moment.append hmore⟩

/-- The recheck finds the token unchanged. -/
theorem claimed_current {s : State} {events : List Event} (h : Coherent s events)
    (hindex : tokenIndex s.slot.publishedToken < 3)
    (hreader : s.slot.readerIndex = tokenIndex s.slot.publishedToken) :
    Claimed s.slot s.producer (publishedOf events) s.slot.publishedToken where
  reader := hreader
  unwritten gap target left hp := by
    have hproducer := h.producer
    rw [hp] at hproducer
    exact hproducer.1
  content := by
    rw [h.current.number, ← List.getLast?_eq_getElem?]
    exact h.current.last (h.current.index.1 hindex)

/-- The consumer returns a snapshot. -/
theorem coherent_ready {s : State} {events : List Event} (h : Coherent s events)
    {before : BitVec 64} {snapshot : ChannelGap} (hs : s.consumer = .copied before snapshot)
    (hne : s.slot.deliveredToken ≠ before) :
    Coherent { s with
      slot := { s.slot with deliveredToken := before }
      consumer := .idle } (events ++ [.ready before snapshot]) := by
  have hconsumer := h.consumer
  rw [hs] at hconsumer
  obtain ⟨hseen, hcontent⟩ := hconsumer
  have hlater : publication s.slot.deliveredToken < publication before :=
    hseen.delivered.resolve_right hne
  have hpub : publishedOf (events ++ [.ready before snapshot]) = publishedOf events := by
    rw [publishedOf_append]
    exact List.append_nil _
  have hready : readyOf (events ++ [.ready before snapshot]) = readyOf events ++ [before] := by
    rw [readyOf_append]
    rfl
  refine ⟨h.faithful.snoc ⟨hseen.positive, hcontent⟩, ?_, ⟨hseen.published, ?_, ?_, ?_⟩, ?_,
    trivial⟩
  · rw [hpub]
    exact ⟨h.current.generation, h.current.number, h.current.index, h.current.last⟩
  · intro token hmem
    rw [hready, List.mem_append, List.mem_singleton] at hmem
    rcases hmem with hmem | rfl
    · exact (h.delivered.bounded token hmem).trans hlater.le
    · exact le_refl _
  · rw [hready]
    exact Or.inl (List.mem_append_right _ List.mem_cons_self)
  · rw [hready, List.pairwise_append]
    refine ⟨h.delivered.increasing, List.pairwise_singleton _ _, fun token hmem token' hmem' => ?_⟩
    rw [List.mem_singleton.1 hmem']
    exact lt_of_le_of_lt (h.delivered.bounded token hmem) hlater
  · have hproducer := h.producer
    show ProducerSafe _ s.producer
    cases hp : s.producer with
    | idle => trivial
    | called gap => trivial
    | loaded gap currentToken => rwa [hp] at hproducer
    | writing gap target left => rwa [hp] at hproducer

theorem coherent_consumeStep {s s' : State} {events new : List Event} {field : GapField}
    (h : Coherent s events) (hstep : consumeStep s field = some (s', new)) :
    Coherent s' (events ++ new) := by
  have hconsumer := h.consumer
  have hquiet : ∀ {slot : GapMailboxSlot} {consumer : Consumer},
      slot.buffers = s.slot.buffers → slot.publishedToken = s.slot.publishedToken →
      slot.producerGeneration = s.slot.producerGeneration →
      slot.deliveredToken = s.slot.deliveredToken →
      ConsumerSafe slot s.producer (events ++ []) consumer →
      Coherent { s with slot := slot, consumer := consumer } (events ++ []) :=
    fun hb hp hg hd hsafe => coherent_consumer h hb hp hg hd ⟨rfl, rfl⟩
      (by rw [List.append_nil]; exact h.faithful) hsafe
  unfold consumeStep at hstep
  cases hc : s.consumer with
  | idle =>
    rw [hc] at hstep
    cases hstep
  | attempting attempt =>
    rw [hc] at hstep hconsumer
    simp only at hstep
    split_ifs at hstep with hlast hindex
    · cases hstep
      exact coherent_consumer h rfl rfl rfl rfl ⟨rfl, rfl⟩ (h.faithful.snoc trivial) trivial
    · cases hstep
      have hnone : publishedOf events = [] := by
        by_contra hne
        exact absurd (h.current.index.2 hne) (not_lt.2 hindex)
      have hread : Faithful (events ++ [.read]) := h.faithful.snoc trivial
      have hnothing : Justified (events ++ [.read]) .noChange :=
        Or.inl (InCall.nothingRead hconsumer hnone)
      have hboth := hread.snoc hnothing
      rw [List.append_assoc] at hboth
      exact coherent_consumer h rfl rfl rfl rfl ⟨rfl, rfl⟩ hboth trivial
    · cases hstep
      refine coherent_consumer h rfl rfl rfl rfl ⟨rfl, rfl⟩ (h.faithful.snoc trivial) ?_
      exact (seen_current h hconsumer (not_le.1 hindex)).append (by simp)
  | loaded attempt before =>
    rw [hc] at hstep hconsumer
    cases hstep
    refine hquiet rfl rfl rfl rfl ⟨?_, rfl⟩
    rw [List.append_nil]
    exact ⟨hconsumer.index, hconsumer.positive, hconsumer.delivered, hconsumer.published,
      hconsumer.moment⟩
  | claimed attempt before =>
    rw [hc] at hstep hconsumer
    obtain ⟨hseen, hreader⟩ := hconsumer
    simp only at hstep
    split_ifs at hstep with hchanged
    · cases hstep
      refine hquiet rfl rfl rfl rfl ?_
      rw [List.append_nil]
      exact hseen.moment.inCall
    · cases hstep
      rw [not_not] at hchanged
      subst hchanged
      refine hquiet rfl rfl rfl rfl ?_
      rw [List.append_nil]
      exact ⟨hseen, claimed_current h hseen.index hreader,
        fun field hleft => absurd (GapField.mem_all field) hleft⟩
  | retreating attempt =>
    rw [hc] at hstep hconsumer
    cases hstep
    refine hquiet rfl rfl rfl rfl ?_
    rw [List.append_nil]
    exact hconsumer
  | copying before snapshot left =>
    rw [hc] at hstep hconsumer
    obtain ⟨hseen, hclaimed, hcopied⟩ := hconsumer
    cases left with
    | nil =>
      cases hstep
      refine hquiet rfl rfl rfl rfl ?_
      rw [List.append_nil]
      refine ⟨⟨hseen.index, hseen.positive, hseen.delivered, hseen.published, hseen.moment⟩, ?_⟩
      rw [hclaimed.content]
      exact congrArg some (GapField.eq_of_agrees fun field => hcopied field List.not_mem_nil)
    | cons first left =>
      simp only at hstep
      split_ifs at hstep
      cases hstep
      refine hquiet rfl rfl rfl rfl ?_
      rw [List.append_nil]
      refine ⟨hseen, hclaimed, fun field' hleft => ?_⟩
      by_cases heq : field' = field
      · rw [heq]
        exact GapField.agrees_copy_self field _ _
      · refine (hcopied field' fun hmem => hleft ?_).copy field
        exact (List.mem_erase_of_ne heq).2 hmem
  | copied before snapshot =>
    rw [hc] at hstep hconsumer
    simp only at hstep
    split_ifs at hstep with hsame
    · cases hstep
      obtain ⟨hseen, -⟩ := hconsumer
      -- the gap of this token was returned before, by the call that set `delivered_token_`
      have hjustified : Justified events .noChange := by
        rcases h.delivered.last with hmem | hzero
        · obtain ⟨gap, hgap⟩ := mem_readyOf.1 hmem
          rw [hsame] at hgap
          exact Or.inr ⟨before, gap, hgap, hseen.positive, hseen.moment⟩
        · rw [hsame] at hzero
          exact absurd hzero hseen.positive.ne'
      exact coherent_consumer h rfl rfl rfl rfl ⟨rfl, rfl⟩ (h.faithful.snoc hjustified) trivial
    · cases hstep
      exact coherent_ready h hc hsame

/-! ## Runs -/

theorem coherent_step {s s' : State} {events new : List Event} {action : Action}
    (h : Coherent s events) (hbound : (publishedOf (events ++ new)).length < 2 ^ 62)
    (hstep : step s action = some (s', new)) : Coherent s' (events ++ new) := by
  cases action with
  | publish gap =>
    simp only [step] at hstep
    cases hp : s.producer with
    | idle =>
      rw [hp] at hstep
      cases hstep
      rw [List.append_nil]
      exact coherent_silent h trivial (by simp)
    | _ =>
      rw [hp] at hstep
      cases hstep
  | produce field => exact coherent_produceStep h hbound hstep
  | trySnapshot =>
    simp only [step] at hstep
    cases hc : s.consumer with
    | idle =>
      rw [hc] at hstep
      cases hstep
      exact coherent_consumer h rfl rfl rfl rfl ⟨rfl, rfl⟩ (h.faithful.snoc trivial)
        (inCall_called events)
    | _ =>
      rw [hc] at hstep
      cases hstep
  | consume field => exact coherent_consumeStep h hstep

theorem coherent_of_reaches {s : State} {events : List Event} (h : machine.Reaches s events)
    (hbound : (publishedOf events).length < 2 ^ 62) : Coherent s events := by
  revert hbound
  refine Machine.invariant (I := fun s events =>
    (publishedOf events).length < 2 ^ 62 → Coherent s events) (fun _ => coherent_start) ?_ h
  intro s events action s' new ih hstep hbound
  refine coherent_step (ih ?_) hbound hstep
  rw [publishedOf_append, List.length_append] at hbound
  omega

/-- In every interleaving of `Publish` and `TrySnapshot` with fewer than `2 ^ 62`
publications : the producer does not write the buffer that is copied after a successful
recheck; each snapshot returned is the gap its token names, published before; the
publications returned increase; and `kNoChange` is returned only if nothing was published
when the call first loaded the token, or if the last gap published at some moment of the
call was returned before. -/
theorem mailbox_exact {actions : List Action} {s : State} {events : List Event}
    (h : machine.run actions = some (s, events))
    (hbound : (publishedOf events).length < 2 ^ 62) :
    (∀ gap target left before snapshot left', s.producer = .writing gap target left →
      s.consumer = .copying before snapshot left' → target ≠ tokenBuffer before) ∧
    (∀ before token gap after, events = before ++ .ready token gap :: after →
      0 < publication token ∧ (publishedOf before)[publication token - 1]? = some gap) ∧
    (readyOf events).Pairwise (fun token token' => publication token < publication token') ∧
    ∀ before after, events = before ++ .noChange :: after →
      NothingRead before ∨ ∃ token gap, Event.ready token gap ∈ before ∧
        0 < publication token ∧ Moment before (publication token) := by
  have hcoherent := coherent_of_reaches ⟨actions, h⟩ hbound
  refine ⟨?_, fun before token gap after heq => hcoherent.faithful before _ after heq,
    hcoherent.delivered.increasing, fun before after heq => hcoherent.faithful before _ after heq⟩
  intro gap target left before snapshot left' hp hc heq
  have hconsumer := hcoherent.consumer
  rw [hc] at hconsumer
  obtain ⟨hseen, hclaimed, -⟩ := hconsumer
  refine hclaimed.unwritten gap target left hp ?_
  rw [heq, val_tokenBuffer hseen.index]

/-- A call of `Publish`. -/
def publishCall (gap : ChannelGap) : List Action :=
  [.publish gap, .produce .market, .produce .market] ++ GapField.all.map .produce ++
    [.produce .market]

/-- The steps of an attempt whose recheck succeeds, up to the end of the call. -/
def attempt : List Action :=
  List.replicate 3 (.consume .market) ++ GapField.all.map .consume ++
    List.replicate 2 (.consume .market)

/-- A second gap is published after the claim of the first and before the recheck, so that the
first snapshot is of the second gap; a second snapshot returns the third. -/
def sampleActions : List Action :=
  publishCall { gapEpoch := 1 } ++ [.trySnapshot, .consume .market, .consume .market] ++
    publishCall { gapEpoch := 2 } ++ [.consume .market, .consume .market] ++ attempt ++
    publishCall { gapEpoch := 3 } ++ [.trySnapshot] ++ attempt

theorem mailbox_exact_sample : ∃ s events, machine.run sampleActions = some (s, events) ∧
    readyOf events = [10, 12] ∧
      (readyOf events).Pairwise fun token token' => publication token < publication token' := by
  have hrun : ((machine.run sampleActions).map fun r =>
      (readyOf r.2, (publishedOf r.2).length)) = some ([10, 12], 3) := by
    decide +kernel
  obtain ⟨⟨s, events⟩, hrun, hevents⟩ := Option.map_eq_some_iff.1 hrun
  obtain ⟨hready, hlength⟩ := Prod.mk.inj hevents
  have hbound : (publishedOf events).length < 2 ^ 62 := by
    rw [hlength]
    decide
  exact ⟨s, events, hrun, hready, (mailbox_exact hrun hbound).2.2.1⟩

end Mailbox

end L2Flow
