import Mathlib.Data.Nat.ModEq
import Mathlib.Data.Set.Card
import L2Flow.GapPolling

/-!
# The consumer of gaps alone

After the lanes have stopped, every call that returns true returns a gap that was
outstanding, and a call that returns false leaves no pending word behind it. A dirty word
that the consumer did not look at is then one whose pending word is zero, so that the next
call that returns false has seen every dirty word. Two calls that return false are thus
enough, where one is not (`drain_delivers`).
-/

namespace L2Flow

namespace Dispatcher

variable {layout : GapLayout}

/-! ## Places around the words -/

/-- Fewer than `count` places on, no place is met twice. -/
theorem add_mod_ne (cursor : ℕ) {k n count : ℕ} (hk : k < n) (hn : n < count) :
    (cursor + k) % count ≠ (cursor + n) % count := by
  intro heq
  have hmod : Nat.ModEq count k n := Nat.ModEq.add_left_cancel' cursor heq
  rw [Nat.ModEq, Nat.mod_eq_of_lt (hk.trans hn), Nat.mod_eq_of_lt hn] at hmod
  omega

variable (layout) in
/-- The word `count` places after the cursor. -/
def State.wordAt (s : State) (count : ℕ) : ℕ :=
  (s.members.gapConsumerWordCursor + count) % layout.wordCount

variable (layout) in
/-- The call in progress is past the word. -/
def State.Left (s : State) (word : ℕ) : Prop :=
  match s.consumer with
  | .idle => False
  | .scanning count | .draining count => ∃ k < count, s.wordAt layout k = word

variable (layout) in
/-- The call in progress has looked at the word. -/
def State.Entered (s : State) (word : ℕ) : Prop :=
  match s.consumer with
  | .idle => False
  | .scanning count => ∃ k < count, s.wordAt layout k = word
  | .draining count => ∃ k ≤ count, s.wordAt layout k = word

/-! ## The lanes -/

def Action.isConsume : Action → Bool
  | .consume => true
  | _ => false

def Action.isCall : Action → Bool
  | .tryPollGap => true
  | _ => false

/-- The lanes do not touch the consumer's members. -/
theorem lane_keeps {s s' : State} {new : List Event} {action : Action}
    (hconsume : action.isConsume = false) (hcall : action.isCall = false)
    (hstep : step layout s action = some (s', new)) :
    s'.consumer = s.consumer ∧
      s'.members.gapConsumerPending = s.members.gapConsumerPending ∧
      s'.members.gapConsumerWordCursor = s.members.gapConsumerWordCursor := by
  cases action with
  | publish producer channelSlot gap =>
    simp only [step, publishStep] at hstep
    split_ifs at hstep
    · cases hstep
      exact ⟨rfl, rfl, rfl⟩
    · obtain ⟨rfl, rfl⟩ := Prod.mk.inj (Option.some.inj hstep)
      exact ⟨rfl, rfl, rfl⟩
  | mark producer =>
    simp only [step, markStep] at hstep
    cases hmarked : s.marking producer with
    | none =>
      rw [hmarked] at hstep
      cases hstep
    | some channelSlot =>
      rw [hmarked] at hstep
      obtain ⟨rfl, rfl⟩ := Prod.mk.inj (Option.some.inj hstep)
      exact ⟨rfl, rfl, rfl⟩
  | tryPollGap => cases hcall
  | consume => cases hconsume

/-! ## What the call in progress has left -/

/-- The place of a word looked at is not the place of one left earlier. -/
theorem wordAt_ne {s : State} {k count : ℕ} (hk : k < count) (hcount : count < layout.wordCount) :
    s.wordAt layout k ≠ s.wordAt layout count :=
  add_mod_ne _ hk hcount

variable (layout) in
/-- What the call in progress has left has no bit set. -/
def Emptied (s : State) : Prop :=
  ∀ word, s.Left layout word → s.members.gapConsumerPending word = 0

theorem emptied_call (s : State) : Emptied layout { s with consumer := .scanning 0 } := by
  rintro word ⟨k, hk, -⟩
  exact absurd hk (Nat.not_lt_zero k)

theorem emptied_consume {s s' : State} {new : List Event} (h : Emptied layout s)
    (hdraining : ∀ count, s.consumer = .draining count → count < layout.wordCount)
    (hconsumes : Consumes layout s s' new) : Emptied layout s' := by
  cases hconsumes with
  | exhausted hc hlast =>
    rintro word ⟨⟩
  | @exchange count hc hmore hempty =>
    rintro word ⟨k, hk, rfl⟩
    have hleft := h (s.wordAt layout k) (by rw [State.Left, hc]; exact ⟨k, hk, rfl⟩)
    show Function.update s.members.gapConsumerPending (s.wordAt layout count) _
      (s.wordAt layout k) = 0
    rw [Function.update_of_ne (wordAt_ne hk hmore)]
    exact hleft
  | @resume count hc hmore hpending =>
    rintro word ⟨k, hk, rfl⟩
    exact h (s.wordAt layout k) (by rw [State.Left, hc]; exact ⟨k, hk, rfl⟩)
  | @leave count hc hempty =>
    rintro word ⟨k, hk, rfl⟩
    rcases Nat.lt_succ_iff_lt_or_eq.1 hk with hk | rfl
    · exact h (s.wordAt layout k) (by rw [State.Left, hc]; exact ⟨k, hk, rfl⟩)
    · exact hempty
  | @take count s' new hc hpending hbit =>
    have hcount := hdraining count hc
    obtain ⟨htaken, -, -, hleft⟩ :=
      takeBit_taken count (Nat.mod_lt _ (Nat.zero_lt_of_lt hcount)) hpending
    rw [hbit] at htaken hleft
    dsimp only at htaken hleft
    have hgo : ∀ (consumer : s'.consumer = .draining count)
        (cursor : s'.members.gapConsumerWordCursor = s.members.gapConsumerWordCursor),
        Emptied layout s' := by
      intro consumer cursor word hword
      rw [State.Left, consumer] at hword
      obtain ⟨k, hk, rfl⟩ := hword
      have hplace : s'.wordAt layout k = s.wordAt layout k := by rw [State.wordAt, cursor]; rfl
      rw [hplace, hleft]
      show Function.update s.members.gapConsumerPending (s.wordAt layout count) _
        (s.wordAt layout k) = 0
      rw [Function.update_of_ne (wordAt_ne hk hcount)]
      exact h (s.wordAt layout k) (by rw [State.Left, hc]; exact ⟨k, hk, rfl⟩)
    cases htaken with
    | spare outside slots consumer cursor => exact hgo consumer cursor
    | noChange has place bit quiet slots consumer cursor => exact hgo consumer cursor
    | ready has place bit index behind slots consumer =>
      intro word hword
      rw [State.Left, consumer] at hword
      cases hword

theorem emptied_lane {s s' : State} {new : List Event} (action : Action) (h : Emptied layout s)
    (hconsume : action.isConsume = false) (hcall : action.isCall = false)
    (hstep : step layout s action = some (s', new)) : Emptied layout s' := by
  obtain ⟨hconsumer, hpending, hcursor⟩ := lane_keeps hconsume hcall hstep
  intro word hword
  simp only [State.Left, State.wordAt, hconsumer, hcursor] at hword
  rw [hpending]
  exact h word hword

theorem emptied_of_reaches {s : State} {events : List Event}
    (h : (machine layout).Reaches s events) : Emptied layout s := by
  obtain ⟨actions, hrun⟩ := h
  refine Machine.invariant_actions (I := fun _ t _ => Emptied layout t) (fun word hword => ?_)
    (fun {actions t log action u new} hbefore ht hlast => ?_) hrun
  · cases hword
  · have hsound := sound_of_reaches ⟨actions, hbefore⟩
    cases action with
    | consume => exact emptied_consume ht hsound.draining (consumeStep_consumes hlast)
    | tryPollGap =>
      simp only [machine, step] at hlast
      split at hlast
      · obtain ⟨rfl, rfl⟩ := Prod.mk.inj (Option.some.inj hlast)
        exact emptied_call t
      · cases hlast
    | publish producer channelSlot gap =>
      exact emptied_lane (.publish producer channelSlot gap) ht rfl rfl hlast
    | mark producer => exact emptied_lane (.mark producer) ht rfl rfl hlast

/-! ## What is outstanding -/

instance (slot : GapMailboxSlot) : Decidable (CaughtUp slot) :=
  inferInstanceAs (Decidable (slot.deliveredToken = slot.publishedToken))

variable (layout) in
/-- The channel slots whose last gap the consumer lacks, as far as the tokens tell. -/
def State.behind (s : State) : Finset (ℕ × ℕ) :=
  (Finset.range layout.tickProducers ×ˢ Finset.range layout.gapChannelsPerProducer).filter
    fun place => ¬CaughtUp (s.slot layout place.1 place.2)

theorem mem_behind {s : State} {place : ℕ × ℕ} : place ∈ s.behind layout ↔
    layout.Has place.1 place.2 ∧ ¬CaughtUp (s.slot layout place.1 place.2) := by
  rw [State.behind, Finset.mem_filter, Finset.mem_product, Finset.mem_range, Finset.mem_range]
  rfl

/-- The gaps that calls have returned. -/
def returned (events : List Event) : ℕ :=
  events.countP fun
    | .polled _ _ _ => true
    | _ => false

/-- The calls that have returned false. -/
def refusals (events : List Event) : ℕ :=
  events.countP fun
    | .exhausted => true
    | _ => false

theorem returned_append (events new : List Event) :
    returned (events ++ new) = returned events + returned new :=
  List.countP_append

theorem refusals_append (events new : List Event) :
    refusals (events ++ new) = refusals events + refusals new :=
  List.countP_append

/-- Taking a bit settles the slot that it returns a gap of, and no other. -/
theorem behind_taken {s s' : State} {new : List Event} {count word : ℕ}
    (htaken : Taken layout s count word s' new) :
    (s'.behind layout).card + returned new = (s.behind layout).card := by
  cases htaken with
  | spare outside slots consumer cursor =>
    have hsame : s'.behind layout = s.behind layout := by
      ext place
      rw [mem_behind, mem_behind, State.slot, slots]
      rfl
    rw [hsame]
    rfl
  | @noChange producer channelSlot reader has place bit quiet slots consumer cursor =>
    obtain ⟨hself, hother⟩ := slot_update has slots
    have hsame : s'.behind layout = s.behind layout := by
      ext ⟨producer', channelSlot'⟩
      rw [mem_behind, mem_behind]
      refine and_congr_right fun hhas => not_congr ?_
      by_cases heq : producer' = producer ∧ channelSlot' = channelSlot
      · rw [heq.1, heq.2, hself]
        rfl
      · rw [hother producer' channelSlot' hhas heq]
    rw [hsame]
    rfl
  | @ready producer channelSlot has place bit index behind slots consumer =>
    obtain ⟨hself, hother⟩ := slot_update has slots
    have hsame : s'.behind layout = (s.behind layout).erase (producer, channelSlot) := by
      ext ⟨producer', channelSlot'⟩
      rw [Finset.mem_erase, mem_behind, mem_behind]
      by_cases heq : producer' = producer ∧ channelSlot' = channelSlot
      · obtain ⟨rfl, rfl⟩ := heq
        rw [hself]
        exact ⟨fun h => absurd rfl h.2, fun h => absurd rfl h.1⟩
      · have hne : (producer', channelSlot') ≠ (producer, channelSlot) :=
          fun h => heq ⟨congrArg Prod.fst h, congrArg Prod.snd h⟩
        constructor
        · rintro ⟨hhas, hbehind⟩
          rw [hother producer' channelSlot' hhas heq] at hbehind
          exact ⟨hne, hhas, hbehind⟩
        · rintro ⟨-, hhas, hbehind⟩
          rw [← hother producer' channelSlot' hhas heq] at hbehind
          exact ⟨hhas, hbehind⟩
    rw [hsame]
    exact Finset.card_erase_add_one (mem_behind.2 ⟨has, behind⟩)

/-! ## The consumer alone -/

variable (layout) in
/-- A word that has bits pending, or that the call has looked at, hides nothing in its dirty
word. -/
def Unhiding (s : State) : Prop :=
  ∀ word < layout.wordCount, s.members.gapConsumerPending word ≠ 0 ∨ s.Entered layout word →
    s.members.gapDirtyWords word = 0

/-- The next bit is taken : a bit is cleared, none is set. -/
theorem unhiding_take {s s' : State} {count : ℕ} {new : List Event} (h : Unhiding layout s)
    (hc : s.consumer = .draining count) (hcount : count < layout.wordCount)
    (hpending : s.members.gapConsumerPending (s.wordAt layout count) ≠ 0)
    (hbit : takeBit layout s count (s.wordAt layout count) = (s', new)) : Unhiding layout s' := by
  have hword : s.wordAt layout count < layout.wordCount := Nat.mod_lt _ (Nat.zero_lt_of_lt hcount)
  obtain ⟨htaken, -, hdirty, hleft⟩ := takeBit_taken count hword hpending
  rw [hbit] at htaken hdirty hleft
  dsimp only at htaken hdirty hleft
  have hentered : s.Entered layout (s.wordAt layout count) := by
    rw [State.Entered, hc]
    exact ⟨count, le_refl _, rfl⟩
  have hfew : ∀ word < layout.wordCount, s'.members.gapConsumerPending word ≠ 0 →
      s'.members.gapDirtyWords word = 0 := by
    intro word hlt hword
    rw [hdirty]
    by_cases heq : word = s.wordAt layout count
    · rw [heq] at hlt ⊢
      exact h _ hlt (Or.inr hentered)
    · rw [hleft] at hword
      change Function.update s.members.gapConsumerPending (s.wordAt layout count) _ word ≠ 0
        at hword
      rw [Function.update_of_ne heq] at hword
      exact h word hlt (Or.inl hword)
  have hgo : ∀ (consumer : s'.consumer = .draining count)
      (cursor : s'.members.gapConsumerWordCursor = s.members.gapConsumerWordCursor),
      Unhiding layout s' := by
    rintro consumer cursor word hlt (hword | hword)
    · exact hfew word hlt hword
    · rw [hdirty]
      refine h word hlt (Or.inr ?_)
      rw [State.Entered, consumer] at hword
      simp only [State.wordAt, cursor] at hword
      rw [State.Entered, hc]
      exact hword
  cases htaken with
  | spare outside slots consumer cursor => exact hgo consumer cursor
  | noChange has place bit quiet slots consumer cursor => exact hgo consumer cursor
  | ready has place bit index behind slots consumer =>
    rintro word hlt (hword | hword)
    · exact hfew word hlt hword
    · rw [State.Entered, consumer] at hword
      cases hword

theorem unhiding_consume {s s' : State} {new : List Event} (h : Unhiding layout s)
    (hdraining : ∀ count, s.consumer = .draining count → count < layout.wordCount)
    (hconsumes : Consumes layout s s' new) : Unhiding layout s' := by
  cases hconsumes with
  | exhausted hc hlast =>
    rintro word hlt (hpending | ⟨⟨⟩⟩)
    exact h word hlt (Or.inl hpending)
  | @exchange count hc hmore hempty =>
    intro word hlt hword
    show Function.update s.members.gapDirtyWords (s.wordAt layout count) 0 word = 0
    by_cases heq : word = s.wordAt layout count
    · rw [heq, Function.update_self]
    · rw [Function.update_of_ne heq]
      rcases hword with hpending | ⟨k, hk, hplace⟩
      · refine h word hlt (Or.inl ?_)
        change Function.update s.members.gapConsumerPending (s.wordAt layout count) _ word ≠ 0
          at hpending
        rwa [Function.update_of_ne heq] at hpending
      · refine h word hlt (Or.inr ?_)
        rw [State.Entered, hc]
        refine ⟨k, lt_of_le_of_ne hk fun hlast => heq ?_, hplace⟩
        rw [← hplace, hlast]
        rfl
  | @resume count hc hmore hpending =>
    rintro word hlt (hword | ⟨k, hk, rfl⟩)
    · exact h word hlt (Or.inl hword)
    · rcases Nat.lt_or_eq_of_le hk with hk | rfl
      · exact h _ hlt (Or.inr (by rw [State.Entered, hc]; exact ⟨k, hk, rfl⟩))
      · exact h _ hlt (Or.inl hpending)
  | @leave count hc hempty =>
    rintro word hlt (hword | ⟨k, hk, rfl⟩)
    · exact h word hlt (Or.inl hword)
    · exact h _ hlt (Or.inr (by rw [State.Entered, hc]; exact ⟨k, Nat.le_of_lt_succ hk, rfl⟩))
  | @take count s' new hc hpending hbit =>
    exact unhiding_take h hc (hdraining count hc) hpending hbit

theorem behind_consume {s s' : State} {new : List Event}
    (hdraining : ∀ count, s.consumer = .draining count → count < layout.wordCount)
    (hconsumes : Consumes layout s s' new) :
    (s'.behind layout).card + returned new = (s.behind layout).card ∧
      s'.marking = s.marking := by
  cases hconsumes with
  | exhausted hc hlast => exact ⟨rfl, rfl⟩
  | exchange hc hmore hempty => exact ⟨rfl, rfl⟩
  | resume hc hmore hpending => exact ⟨rfl, rfl⟩
  | leave hc hempty => exact ⟨rfl, rfl⟩
  | @take count s' new hc hpending hbit =>
    obtain ⟨htaken, hmarking, -, -⟩ :=
      takeBit_taken count (Nat.mod_lt _ (Nat.zero_lt_of_lt (hdraining count hc))) hpending
    rw [hbit] at htaken hmarking
    exact ⟨behind_taken htaken, hmarking⟩

/-- A call that returns false has left every word. -/
theorem left_of_last {s : State} {count word : ℕ} (hc : s.consumer = .scanning count)
    (hlast : layout.wordCount ≤ count) (hword : word < layout.wordCount) :
    s.Left layout word ∧ s.Entered layout word := by
  obtain ⟨k, hk, hplace⟩ :=
    LinearProbing.exists_add_mod_eq s.members.gapConsumerWordCursor hword
  rw [State.Left, State.Entered, hc]
  exact ⟨⟨k, lt_of_lt_of_le hk hlast, hplace⟩, ⟨k, lt_of_lt_of_le hk hlast, hplace⟩⟩

variable (layout) in
/-- No bit is left for the consumer to find in a pending word. -/
def Spent (s : State) : Prop :=
  ∀ word < layout.wordCount, s.members.gapConsumerPending word = 0

/-- What is flagged nowhere is delivered. -/
theorem behind_eq_empty {s : State} {events : List Event} (hsound : Sound layout s events)
    (hquiet : ∀ producer, s.marking producer = none)
    (hpending : Spent layout s)
    (hdirty : ∀ word < layout.wordCount, s.members.gapDirtyWords word = 0) :
    s.behind layout = ∅ := by
  refine Finset.eq_empty_of_forall_notMem fun place hmem => ?_
  obtain ⟨hhas, hbehind⟩ := mem_behind.1 hmem
  have hnone : (0 : BitVec 64).getLsbD (place.2 % 64) = false := BitVec.getLsbD_zero
  rcases hsound.flagged place.1 place.2 hhas hbehind with hd | hp | hm
  · rw [State.Dirty, hdirty _ hhas.wordIndex_lt, hnone] at hd
    cases hd
  · rw [State.Pending, hpending _ hhas.wordIndex_lt, hnone] at hp
    cases hp
  · rw [hquiet] at hm
    cases hm

variable (layout) in
/-- A run of the consumer alone from `s`, that has come to `t`. -/
structure Sweep (s : State) (events : List Event) (t : State) (log : List Event) : Prop where
  sound : Sound layout t (events ++ log)
  quiet : ∀ producer, t.marking producer = none
  emptied : Emptied layout t
  published : ∀ producer channelSlot,
    publications (slotLog producer channelSlot (events ++ log)) =
      publications (slotLog producer channelSlot events)
  counted : (t.behind layout).card + returned log = (s.behind layout).card
  /-- One call that returned false has emptied the pending words. -/
  once : 1 ≤ refusals log → Unhiding layout t
  /-- The next has emptied the dirty words. -/
  twice : 2 ≤ refusals log → t.behind layout = ∅

theorem sweep_start {s : State} {events : List Event} (h : (machine layout).Reaches s events)
    (hquiet : ∀ producer, s.marking producer = none) : Sweep layout s events s [] where
  sound := by
    rw [List.append_nil]
    exact sound_of_reaches h
  quiet := hquiet
  emptied := emptied_of_reaches h
  published _ _ := by rw [List.append_nil]
  counted := rfl
  once hone := absurd hone (by decide)
  twice htwo := absurd htwo (by decide)

/-- What a step of the consumer reports. -/
theorem consumes_log {s s' : State} {new : List Event} (h : Consumes layout s s' new)
    (hdraining : ∀ count, s.consumer = .draining count → count < layout.wordCount) :
    new = [] ∨ new = [.exhausted] ∨
      ∃ producer channelSlot gap, new = [.polled producer channelSlot gap] := by
  cases h with
  | exhausted => exact Or.inr (Or.inl rfl)
  | exchange => exact Or.inl rfl
  | resume => exact Or.inl rfl
  | leave => exact Or.inl rfl
  | @take count s' new hc hpending hbit =>
    obtain ⟨htaken, -⟩ :=
      takeBit_taken count (Nat.mod_lt _ (Nat.zero_lt_of_lt (hdraining count hc))) hpending
    rw [hbit] at htaken
    dsimp only at htaken
    cases htaken with
    | spare => exact Or.inl rfl
    | noChange => exact Or.inl rfl
    | ready => exact Or.inr (Or.inr ⟨_, _, _, rfl⟩)

theorem publications_consume {s s' : State} {events new : List Event}
    (hconsume : consumeStep layout s = some (s', new))
    (hdraining : ∀ count, s.consumer = .draining count → count < layout.wordCount)
    (producer channelSlot : ℕ) :
    publications (slotLog producer channelSlot (events ++ new)) =
      publications (slotLog producer channelSlot events) := by
  have hnone : publications (slotLog producer channelSlot new) = 0 := by
    rcases consumes_log (consumeStep_consumes hconsume) hdraining with
      rfl | rfl | ⟨producer', channelSlot', gap, rfl⟩
    · rfl
    · rfl
    · rw [slotLog, List.filter_singleton]
      cases about producer channelSlot (.polled producer' channelSlot' gap) <;> rfl
  rw [slotLog_append, publications, List.countP_append]
  rw [publications] at hnone
  rw [hnone, Nat.add_zero]
  rfl

theorem Sweep.consume {s t u : State} {events log new : List Event}
    (h : Sweep layout s events t log) (hstep : consumeStep layout t = some (u, new)) :
    Sweep layout s events u (log ++ new) := by
  have hdraining := h.sound.draining
  have hconsumes := consumeStep_consumes hstep
  obtain ⟨hcount, hmarking⟩ := behind_consume hdraining hconsumes
  have hquiet : ∀ producer, u.marking producer = none := by
    rw [hmarking]
    exact h.quiet
  have hsound : Sound layout u (events ++ (log ++ new)) := by
    rw [← List.append_assoc]
    exact sound_consume h.sound hstep
  -- a step that is not the last of a call
  have hgo : refusals new = 0 → Sweep layout s events u (log ++ new) := by
    intro hnone
    refine ⟨hsound, hquiet, emptied_consume h.emptied hdraining hconsumes, fun p c => ?_, ?_,
      fun hone => ?_, fun htwo => ?_⟩
    · rw [← List.append_assoc, publications_consume hstep hdraining, h.published]
    · rw [returned_append]
      have := h.counted
      omega
    · rw [refusals_append, hnone] at hone
      exact unhiding_consume (h.once hone) hdraining hconsumes
    · rw [refusals_append, hnone] at htwo
      rw [h.twice htwo, Finset.card_empty] at hcount
      exact Finset.card_eq_zero.1 (by omega)
  cases hconsumes with
  | @exhausted count hc hlast =>
    have hspent : Spent layout t := fun word hword => h.emptied word (left_of_last hc hlast hword).1
    refine ⟨hsound, hquiet, fun word hleft => ?_, fun p c => ?_, ?_, fun _ word hlt hword => ?_,
      fun htwo => ?_⟩
    · cases hleft
    · rw [← List.append_assoc, publications_consume hstep hdraining, h.published]
    · rw [returned_append]
      exact h.counted
    · exact absurd (hspent word hlt) (hword.resolve_right fun hentered => hentered)
    · rw [refusals_append] at htwo
      have hdirty : ∀ word < layout.wordCount, t.members.gapDirtyWords word = 0 :=
        fun word hlt => h.once (Nat.le_of_succ_le_succ htwo) word hlt
          (Or.inr (left_of_last hc hlast hlt).2)
      have hnone : t.behind layout = ∅ := behind_eq_empty h.sound h.quiet hspent hdirty
      exact hnone
  | exchange hc hmore hempty => exact hgo rfl
  | resume hc hmore hpending => exact hgo rfl
  | leave hc hempty => exact hgo rfl
  | @take count u new hc hpending hbit =>
    obtain ⟨htaken, -⟩ :=
      takeBit_taken count (Nat.mod_lt _ (Nat.zero_lt_of_lt (hdraining count hc))) hpending
    rw [hbit] at htaken
    refine hgo ?_
    cases htaken <;> rfl

variable (layout) in
/-- The channel slots whose last gap published is not the last gap returned. -/
def outstanding (events : List Event) : Set (ℕ × ℕ) :=
  {place | layout.Has place.1 place.2 ∧
    ¬LastReturned place.1 place.2 (slotLog place.1 place.2 events)}

/-- Where no slot has published `2 ^ 62` times, the tokens tell what is outstanding. -/
theorem outstanding_eq {s : State} {events : List Event} (hsound : Sound layout s events)
    (hbound : ∀ producer channelSlot, layout.Has producer channelSlot →
      publications (slotLog producer channelSlot events) < 2 ^ 62) :
    outstanding layout events = s.behind layout := by
  ext place
  rw [Finset.mem_coe, mem_behind]
  refine and_congr_right fun hhas => not_congr ?_
  have hkept := hsound.holds place.1 place.2 hhas
  exact ⟨hkept.holds.caughtUp_of_returned, hkept.truthful (hbound place.1 place.2 hhas)⟩

theorem allDelivered_iff {events : List Event} :
    AllDelivered layout events ↔ outstanding layout events = ∅ := by
  rw [Set.eq_empty_iff_forall_notMem]
  constructor
  · rintro hall place ⟨hhas, hlast⟩
    exact hlast (hall place.1 place.2 hhas)
  · intro hnone producer channelSlot hhas
    by_contra hlast
    exact hnone (producer, channelSlot) ⟨hhas, hlast⟩

/-- After the lanes have stopped, and before `2 ^ 62` publications of one slot, each call of
`TryPollGap` that returns true makes the gaps outstanding one fewer, and when two calls have
returned false none is. -/
theorem drain_delivers {s s' : State} {events new : List Event} {actions : List Action}
    (h : (machine layout).Reaches s events) (hquiet : ∀ producer, s.marking producer = none)
    (hbound : ∀ producer channelSlot, layout.Has producer channelSlot →
      publications (slotLog producer channelSlot events) < 2 ^ 62)
    (hconsumer : ∀ action ∈ actions, action = .tryPollGap ∨ action = .consume)
    (hrun : (machine layout).runFrom s actions = some (s', new)) :
    (outstanding layout (events ++ new)).ncard + returned new =
        (outstanding layout events).ncard ∧
      (2 ≤ refusals new → AllDelivered layout (events ++ new)) := by
  have hsweep : Sweep layout s events s' ([] ++ new) := by
    refine Machine.invariant_runFrom (I := fun t log => Sweep layout s events t log) ?_ hconsumer
      (sweep_start h hquiet) hrun
    rintro t log action u new' (rfl | rfl) ht hstep
    · simp only [machine, step] at hstep
      split at hstep
      · next hidle =>
        obtain ⟨rfl, rfl⟩ := Prod.mk.inj (Option.some.inj hstep)
        rw [List.append_nil]
        refine ⟨ht.sound.consumer (by simp), ht.quiet, emptied_call t, ht.published, ht.counted,
          fun hone => ?_, ht.twice⟩
        rintro word hlt (hpending | ⟨k, hk, -⟩)
        · exact ht.once hone word hlt (Or.inl hpending)
        · exact absurd hk (Nat.not_lt_zero k)
      · cases hstep
    · exact ht.consume hstep
  rw [List.nil_append] at hsweep
  have hafter : outstanding layout (events ++ new) = s'.behind layout := by
    refine outstanding_eq hsweep.sound fun producer channelSlot hhas => ?_
    rw [hsweep.published]
    exact hbound producer channelSlot hhas
  rw [allDelivered_iff, hafter, outstanding_eq (sound_of_reaches h) hbound,
    Set.ncard_coe_finset, Set.ncard_coe_finset]
  refine ⟨hsweep.counted, fun htwo => ?_⟩
  rw [hsweep.twice htwo, Finset.coe_empty]

/-- The gap that a stale bit hides from the first call, the second returns. -/
def drainActions : List Action :=
  .tryPollGap :: List.replicate 4 .consume ++ .tryPollGap :: List.replicate 2 .consume ++
    .tryPollGap :: List.replicate 3 .consume

theorem drain_delivers_sample : ∃ s events s' new,
    (machine sampleLayout).Reaches s events ∧
      (machine sampleLayout).runFrom s drainActions = some (s', new) ∧ returned new = 1 ∧
      AllDelivered sampleLayout (events ++ new) := by
  have hrun : (((machine sampleLayout).run staleActions).map fun r =>
      (r.1.marking 0, r.2.length, ((machine sampleLayout).runFrom r.1 drainActions).map fun t =>
        (returned t.2, refusals t.2))) = some (none, 6, some (1, 2)) := by
    decide +kernel
  obtain ⟨⟨s, events⟩, hrun, hafter⟩ := Option.map_eq_some_iff.1 hrun
  obtain ⟨hmarking, hafter⟩ := Prod.mk.inj hafter
  obtain ⟨hlength, hafter⟩ := Prod.mk.inj hafter
  obtain ⟨⟨s', new⟩, hdrain, hnew⟩ := Option.map_eq_some_iff.1 hafter
  obtain ⟨hreturned, hrefusals⟩ := Prod.mk.inj hnew
  have hreach : (machine sampleLayout).Reaches s events := ⟨staleActions, hrun⟩
  have hbound : ∀ producer channelSlot, sampleLayout.Has producer channelSlot →
      publications (slotLog producer channelSlot events) < 2 ^ 62 := by
    intro producer channelSlot _
    have hle : publications (slotLog producer channelSlot events) ≤ events.length :=
      le_trans List.countP_le_length (List.length_filter_le _ _)
    have : events.length = 6 := hlength
    omega
  have hconsumer : ∀ action ∈ drainActions, action = .tryPollGap ∨ action = .consume := by
    simp [drainActions]
  exact ⟨s, events, s', new, hreach, hdrain, hreturned,
    (drain_delivers hreach (quiet_of_marking hreach hmarking) hbound hconsumer hdrain).2
      (le_of_eq hrefusals.symm)⟩

end Dispatcher

end L2Flow
