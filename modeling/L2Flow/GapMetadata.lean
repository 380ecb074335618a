import Mathlib.Data.List.DropRight
import L2Flow.Conservation
import L2Flow.History
import L2Flow.Interleaving
import L2Flow.Reorder
import L2Flow.TickRoundTrip
import L2Flow.TickWorker
import L2Flow.Validity

/-!
# Gap metadata

`RecordGap` keeps the range it commits in the channel, over the one it may find there, and
`EmitOne` puts it on the next tick that is dispatched. Tokens that are consumed in between
leave it alone. `Noted` says what a channel keeps at any moment : there is a range to put on a
tick exactly if one was committed since the last dispatch, it is the last one committed, and
everything from it to the frontier was consumed without a dispatch.

What is put on a tick is then exact (`GapExact`), and of the ranges that two flagged ticks
have between them all but the last are carried by none (`run_gap_metadata`).
-/

namespace L2Flow

/-! ## What the decoder marks -/

/-- Flags without the bit that `EmitOne` sets. -/
def Unflagged (flags : Flags) : Prop :=
  Flags.has flags kQualitySequenceGapBefore = false

theorem Unflagged.or {flags other : Flags} (h : Unflagged flags) (h' : Unflagged other) :
    Unflagged (flags ||| other) := by
  rw [Unflagged, Flags.has_or, h, h']
  rfl

theorem unflagged_flagIf (condition : Prop) [Decidable condition] {flags : Flags}
    (h : Unflagged flags) : Unflagged (flagIf condition flags) := by
  rw [Unflagged, Flags.has_flagIf, h, Bool.and_false]

theorem unflagged_timeMarks (raw : ℕ) : Unflagged (timeMarks raw) := by
  unfold timeMarks
  split_ifs
  · rfl
  · exact unflagged_flagIf _ (by rfl)

theorem unflagged_nullMarks (null raw : ℤ) : Unflagged (nullMarks null raw) :=
  unflagged_flagIf _ (by rfl)

theorem unflagged_priceMarks (null raw : ℤ) : Unflagged (priceMarks null raw) :=
  unflagged_flagIf _ (by rfl)

theorem ShanghaiTickValues.unflagged_marks (v : ShanghaiTickValues) : Unflagged v.marks := by
  have htype : Unflagged v.typeMarks := by
    unfold ShanghaiTickValues.typeMarks
    split
    · exact (unflagged_priceMarks _ _).or ((unflagged_flagIf _ (by rfl)).or
        ((unflagged_flagIf _ (by rfl)).or (unflagged_flagIf _ (by rfl))))
    · exact unflagged_flagIf _ (by rfl)
    · exact (unflagged_priceMarks _ _).or
        ((unflagged_flagIf _ (by rfl)).or (unflagged_flagIf _ (by rfl)))
    · exact unflagged_flagIf _ (by rfl)
    · rfl
  exact (((((unflagged_flagIf _ (by rfl)).or (unflagged_flagIf _ (by rfl))).or
    (unflagged_timeMarks _)).or (unflagged_nullMarks _ _)).or (unflagged_nullMarks _ _)).or htype

theorem ShenzhenOrderValues.unflagged_marks (v : ShenzhenOrderValues) : Unflagged v.marks := by
  have hprice : Unflagged (if decodeSzOrderType v.type = .kLimit then priceMarks kNullI64 v.price
      else 0) := by
    split_ifs
    · exact unflagged_priceMarks _ _
    · rfl
  exact (unflagged_flagIf _ (by rfl)).or ((unflagged_timeMarks _).or
    ((unflagged_nullMarks _ _).or ((unflagged_flagIf _ (by rfl)).or
      ((unflagged_flagIf _ (by rfl)).or hprice))))

theorem ShenzhenTransactionValues.unflagged_marks (v : ShenzhenTransactionValues) :
    Unflagged v.marks := by
  have htype : Unflagged v.typeMarks := by
    unfold ShenzhenTransactionValues.typeMarks
    split
    · exact unflagged_priceMarks _ _
    · exact unflagged_flagIf _ (by rfl)
    · rfl
  exact (unflagged_flagIf _ (by rfl)).or ((unflagged_flagIf _ (by rfl)).or
    ((unflagged_timeMarks _).or ((unflagged_nullMarks _ _).or htype)))

theorem unflagged_tickMarks (message : OwnedMessageView) : Unflagged (tickMarks message) := by
  unfold tickMarks
  split
  · exact ShenzhenOrderValues.unflagged_marks _
  · exact ShenzhenTransactionValues.unflagged_marks _
  · exact ShanghaiTickValues.unflagged_marks _

theorem tickOf_qualityFlags (message : OwnedMessageView) (tradeDate : ℕ) (quality : Flags) :
    (tickOf message tradeDate quality).common.qualityFlags = quality := by
  unfold tickOf
  split <;> rfl

theorem unflagged_applyCatalog (catalog : InstrumentCatalog) {common : CanonicalCommon}
    (h : Unflagged common.qualityFlags) :
    Unflagged (applyCatalog catalog common).2.qualityFlags := by
  unfold applyCatalog
  dsimp only
  split
  · exact h.or (by rfl)
  · exact h

/-- `DecodeTick` leaves the bit to the recovery. -/
theorem decodeTick_unflagged {grows : ℕ → Bool} {message : OwnedMessageView} {tradeDate : ℕ}
    {limits : DecoderLimits} {catalog : InstrumentCatalog} {decoded : TickDecodeResult} {s : Scan}
    (h : decodeTick grows message tradeDate limits catalog = .ok decoded s) :
    Unflagged decoded.tick.common.qualityFlags := by
  have hends := decodeTick_gives grows message tradeDate limits catalog
  rw [h] at hends
  obtain ⟨rfl, -⟩ := hends
  refine unflagged_applyCatalog catalog ?_
  rw [tickOf_qualityFlags]
  exact (unflagged_timeMarks _).or (unflagged_tickMarks message)

namespace SequenceRecovery

variable {cfg : RecoveryConfig}

/-! ## What is put on a tick -/

/-- The event passes a tick to `emit_tick`. -/
def dispatches : Event → Bool
  | .consumed slot _ _ => slot.emit
  | _ => false

/-- The events since the last dispatch, or since the start. -/
def sinceDispatch (events : List Event) : List Event :=
  events.rtakeWhile fun event => !dispatches event

/-- The tick says that a gap is before it. -/
def flagged (tick : CanonicalTick) : Bool :=
  Flags.has tick.common.qualityFlags kQualitySequenceGapBefore

/-- `gap` is the last that the channel has committed, and everything from it to `next` was
consumed as a token. -/
structure LastGap (events : List Event) (next : ℕ) (gap : ChannelGap) : Prop where
  last : (gapsOf events).getLast? = some gap
  lt : gap.lastMissing < next
  tokens : ∀ n, gap.lastMissing < n → n < next →
    n ∈ (tokensOf events).map PendingSlot.nativeSequence

/-- The gap metadata of a tick that is dispatched after the events `before`. -/
structure GapExact (before : List Event) (tick : CanonicalTick) : Prop where
  flagged_iff : flagged tick = true ↔ gapsOf (sinceDispatch before) ≠ []
  carried : flagged tick = true → ∃ gap, LastGap before tick.common.nativeSequence gap ∧
    tick.common.gapBeforeFirst = gap.firstMissing ∧ tick.common.gapBeforeLast = gap.lastMissing ∧
    tick.common.gapEpoch = (gapRanges before).length

theorem flagged_outgoing (state : ChannelState cfg) {slot : PendingSlot}
    (h : Unflagged slot.tick.common.qualityFlags) :
    flagged (outgoing state slot) = (slot.emit && state.gapMetadataPending) := by
  have hself : Flags.has kQualitySequenceGapBefore kQualitySequenceGapBefore = true := by decide
  have hhistory : Unflagged kQualityChannelHistoryIncomplete := by rfl
  have hkept : Unflagged (slot.tick.common.qualityFlags ||| kQualityChannelHistoryIncomplete) :=
    h.or hhistory
  unfold flagged outgoing
  rcases state.historyComplete with - | - <;>
    rcases slot.emit && state.gapMetadataPending with - | -
  · exact hkept
  · simp only [Bool.false_eq_true, if_false, if_true, Flags.has_or, hself, Bool.or_true]
  · exact h
  · simp only [if_true, Flags.has_or, hself, Bool.or_true]

/-- What `EmitOne` writes with the flag. -/
theorem outgoing_gap (state : ChannelState cfg) (slot : PendingSlot)
    (h : (slot.emit && state.gapMetadataPending) = true) :
    (outgoing state slot).common.gapBeforeFirst = state.pendingGapFirst ∧
      (outgoing state slot).common.gapBeforeLast = state.pendingGapLast ∧
      (outgoing state slot).common.gapEpoch = state.gapEpoch := by
  unfold outgoing
  rw [h]
  exact ⟨rfl, rfl, rfl⟩

/-! ## The invariant -/

/-- What a channel keeps of the gaps it has committed. -/
structure Noted (c : Conf cfg) : Prop where
  pending_iff : c.state.gapMetadataPending = true ↔ gapsOf (sinceDispatch c.events) ≠ []
  kept : c.state.gapMetadataPending = true → ∃ gap, LastGap c.events c.state.expected gap ∧
    c.state.pendingGapFirst = gap.firstMissing ∧ c.state.pendingGapLast = gap.lastMissing
  held : ∀ slot ∈ c.state.pending, Unflagged slot.tick.common.qualityFlags
  hand : ∀ decoded, c.hand = some decoded → Unflagged decoded.tick.common.qualityFlags
  exact : Machine.Justified (fun before event => ∀ slot tick accepted,
    event = .consumed slot tick accepted → slot.emit = true → GapExact before tick) c.events

theorem noted_fresh (cfg : RecoveryConfig) (key : ChannelKey) :
    Noted (⟨.fresh cfg key, none, []⟩ : Conf cfg) where
  pending_iff := ⟨fun h => (by cases h), fun h => absurd rfl h⟩
  kept h := by cases h
  held slot h := by
    rw [ChannelState.fresh] at h
    exact absurd h (DirectMapped.not_mem_empty slot)
  hand _ h := by cases h
  exact := Machine.justified_nil _

theorem sinceDispatch_snoc (events : List Event) (event : Event) :
    sinceDispatch (events ++ [event]) =
      if dispatches event then [] else sinceDispatch events ++ [event] := by
  rw [sinceDispatch, List.rtakeWhile_concat]
  rcases dispatches event with - | - <;> rfl

theorem tokensOf_append (events rest : List Event) :
    tokensOf (events ++ rest) = tokensOf events ++ tokensOf rest :=
  List.filterMap_append

theorem LastGap.append {events more : List Event} {next : ℕ} {gap : ChannelGap}
    (h : LastGap events next gap) (hmore : gapsOf more = []) :
    LastGap (events ++ more) next gap where
  last := by
    rw [gapsOf_append, hmore, List.append_nil]
    exact h.last
  lt := h.lt
  tokens n hlt hn := by
    rw [tokensOf_append, List.map_append]
    exact List.mem_append_left _ (h.tokens n hlt hn)

/-- A step that logs neither a gap nor a consumed record, and leaves the metadata alone. -/
theorem Noted.log {c c' : Conf cfg} (h : Noted c) {event : Event}
    (hevents : c'.events = c.events ++ [event])
    (hgaps : gapsOf [event] = [])
    (hplain : ∀ slot tick accepted, event ≠ .consumed slot tick accepted)
    (hpending : c'.state.gapMetadataPending = c.state.gapMetadataPending)
    (hfirst : c'.state.pendingGapFirst = c.state.pendingGapFirst)
    (hlast : c'.state.pendingGapLast = c.state.pendingGapLast)
    (hexpected : c.state.gapMetadataPending = true → c'.state.expected = c.state.expected)
    (hheld : c'.state.pending = c.state.pending)
    (hhand : c'.hand = none ∨ c'.hand = c.hand) : Noted c' where
  pending_iff := by
    have hnot : dispatches event = false := by
      cases event with
      | consumed slot tick accepted => exact absurd rfl (hplain slot tick accepted)
      | _ => rfl
    rw [hpending, hevents, sinceDispatch_snoc, hnot, if_neg Bool.false_ne_true, gapsOf_append,
      hgaps, List.append_nil]
    exact h.pending_iff
  kept hkept := by
    rw [hpending] at hkept
    obtain ⟨gap, hgap, hfirst', hlast'⟩ := h.kept hkept
    rw [hevents, hfirst, hlast, hexpected hkept]
    exact ⟨gap, hgap.append hgaps, hfirst', hlast'⟩
  held := hheld ▸ h.held
  hand decoded hd := by
    rcases hhand with hnone | hsame
    · rw [hnone] at hd
      cases hd
    · exact h.hand decoded (hsame ▸ hd)
  exact := by
    rw [hevents]
    exact h.exact.snoc fun slot tick accepted he => absurd he (hplain slot tick accepted)

/-- What `EmitOne` makes of a record at the frontier is exact. -/
theorem Noted.gapExact {s : ChannelState cfg} {hand : Option TickDecodeResult}
    {events : List Event} (h : Noted ⟨s, hand, events⟩) (ht : Tiled ⟨s, hand, events⟩)
    {slot : PendingSlot} (position : slot.nativeSequence = s.expected)
    (hclean : Unflagged slot.tick.common.qualityFlags) (hemit : slot.emit = true) :
    GapExact events (outgoing s slot) := by
  have hflagged := flagged_outgoing s hclean
  rw [hemit, Bool.true_and] at hflagged
  refine ⟨by rw [hflagged]; exact h.pending_iff, fun hset => ?_⟩
  rw [hflagged] at hset
  obtain ⟨gap, hgap, hfirst, hlast⟩ := h.kept hset
  obtain ⟨hfirst', hlast', hepoch⟩ :=
    outgoing_gap s slot (by rw [hemit, hset]; rfl)
  rw [outgoing_nativeSequence, position]
  exact ⟨gap, hgap, hfirst'.trans hfirst, hlast'.trans hlast, hepoch.trans ht.epoch⟩

/-- A record consumed at the frontier : a dispatch takes the metadata with it, a token passes
it on. -/
theorem Noted.consumed {s s' : ChannelState cfg} {hand hand' : Option TickDecodeResult}
    {events : List Event} (h : Noted ⟨s, hand, events⟩) (ht : Tiled ⟨s, hand, events⟩)
    {slot : PendingSlot} (position : slot.nativeSequence = s.expected)
    (hclean : Unflagged slot.tick.common.qualityFlags)
    (hpending : s'.gapMetadataPending = (s.gapMetadataPending && !slot.emit))
    (hfirst : s'.pendingGapFirst = s.pendingGapFirst)
    (hlast : s'.pendingGapLast = s.pendingGapLast) (hexpected : s'.expected = s.expected + 1)
    (hheld : ∀ slot' ∈ s'.pending, slot' ∈ s.pending)
    (hhand : hand' = none ∨ hand' = hand) :
    Noted ⟨s', hand', events ++ [.consumed slot (outgoing s slot) true]⟩ where
  pending_iff := by
    show s'.gapMetadataPending = true ↔ gapsOf (sinceDispatch (events ++ [_])) ≠ []
    rw [hpending, sinceDispatch_snoc, dispatches]
    rcases hemit : slot.emit with - | -
    · rw [if_neg Bool.false_ne_true, gapsOf_append, Bool.not_false, Bool.and_true]
      exact (List.append_nil (gapsOf (sinceDispatch events))).symm ▸ h.pending_iff
    · rw [if_pos rfl, Bool.not_true, Bool.and_false]
      exact ⟨fun hfalse => (by cases hfalse), fun hne => absurd rfl hne⟩
  kept hkept := by
    have hboth : (s.gapMetadataPending && !slot.emit) = true := hpending ▸ hkept
    obtain ⟨hset, hemit⟩ := Bool.and_eq_true_iff.1 hboth
    have hemit : slot.emit = false := by simpa using hemit
    obtain ⟨gap, hgap, hfirst', hlast'⟩ := h.kept hset
    have hlt : gap.lastMissing < s.expected := hgap.lt
    refine ⟨gap, ⟨(hgap.append rfl).last, ?_, fun n hn hlt' => ?_⟩, hfirst.trans hfirst',
      hlast.trans hlast'⟩
    · show gap.lastMissing < s'.expected
      omega
    · change n < s'.expected at hlt'
      rw [tokensOf_append, List.map_append, List.mem_append]
      rcases Nat.lt_or_ge n s.expected with hbelow | habove
      · exact Or.inl (hgap.tokens n hn hbelow)
      · -- the token just consumed
        obtain rfl : n = slot.nativeSequence := by omega
        exact Or.inr (by simp [tokensOf, hemit])
  held slot' hslot' := h.held slot' (hheld slot' hslot')
  hand decoded hd := by
    rcases hhand with rfl | rfl
    · cases hd
    · exact h.hand decoded hd
  exact := by
    refine h.exact.snoc fun slot' tick accepted he hemit => ?_
    obtain ⟨rfl, rfl, -⟩ := Event.consumed.inj he
    exact h.gapExact ht position hclean hemit

theorem Noted.skipped {s : ChannelState cfg} {hand : Option TickDecodeResult}
    {events : List Event} (h : Noted ⟨s, hand, events⟩) {next now : ℕ}
    (ahead : s.expected < next) :
    Noted ⟨skipTo s next, hand, events ++ [.gap (skipRecord s next now) true]⟩ where
  pending_iff := by
    refine ⟨fun _ => ?_, fun _ => rfl⟩
    have hnot : dispatches (.gap (skipRecord s next now) true) = false := rfl
    rw [sinceDispatch_snoc, hnot, if_neg Bool.false_ne_true, gapsOf_append]
    exact List.append_ne_nil_of_right_ne_nil _ (List.cons_ne_nil _ _)
  kept _ := by
    refine ⟨skipRecord s next now, ⟨?_, ?_, fun n hn hlt => ?_⟩, rfl, rfl⟩
    · rw [gapsOf_append]
      exact List.getLast?_concat
    · show next - 1 < next
      omega
    · change next - 1 < n at hn
      change n < next at hlt
      omega
  held := h.held
  hand := h.hand
  exact := h.exact.snoc fun slot tick accepted he => by cases he

theorem step_noted {c c' : Conf cfg} (h : Step .succeed c c') (ht : Tiled c) (hc : Noted c) :
    Noted c' := by
  cases h with
  | drop => exact ⟨hc.pending_iff, hc.kept, hc.held, fun _ hd => (by cases hd), hc.exact⟩
  | @retain s r evs live free above =>
    refine ⟨hc.pending_iff, hc.kept, fun slot hslot => ?_, fun _ hd => (by cases hd), hc.exact⟩
    rcases (mem_retain free).1 hslot with rfl | hslot
    · exact hc.hand r rfl
    · exact hc.held slot hslot
  | duplicate => exact hc.log rfl rfl (by simp) rfl rfl rfl (fun _ => rfl) rfl (Or.inl rfl)
  | divert => exact hc.log rfl rfl (by simp) rfl rfl rfl (fun _ => rfl) rfl (Or.inl rfl)
  | freeze => exact hc.log rfl rfl (by simp) rfl rfl rfl (fun _ => rfl) rfl (Or.inl rfl)
  | @release s hand evs slot accepted live active held position refused =>
    cases accepted with
    | true =>
      exact hc.consumed ht position (hc.held slot held) rfl rfl rfl rfl
        (fun slot' hslot' => ((mem_release held position).1 hslot').1) (Or.inr rfl)
    | false => cases (refused rfl).2
  | @pass s r evs accepted live active position clear refused =>
    cases accepted with
    | true =>
      exact hc.consumed ht position (hc.hand r rfl) rfl rfl rfl rfl (fun _ hslot => hslot)
        (Or.inl rfl)
    | false => cases (refused rfl).2
  | skip live active ahead => exact hc.skipped ahead
  | timers => exact ⟨hc.pending_iff, hc.kept, hc.held, hc.hand, hc.exact⟩
  | @finish s hand evs slot live discovering held least =>
    refine hc.log rfl rfl (by simp) rfl rfl rfl (fun hset => ?_) rfl (Or.inr rfl)
    -- a discovering channel has committed no gap
    obtain ⟨gap, hgap, -, -⟩ := hc.kept hset
    have hnone := (ht.undiscovered discovering).2.2.1
    rw [gapRanges, List.map_eq_nil_iff] at hnone
    have hlast := hgap.last
    rw [hnone] at hlast
    cases hlast
  | fatal => exact hc.log rfl rfl (by simp) rfl rfl rfl (fun _ => rfl) rfl (Or.inr rfl)

/-! ## The ranges that no tick carries -/

/-- The ranges that flagged ticks carry. -/
def carriedOf (events : List Event) : List (ℕ × ℕ) :=
  ((ticksOf events).filter flagged).map fun tick =>
    (tick.common.gapBeforeFirst, tick.common.gapBeforeLast)

/-- What is put on every tick of the trace is exact. -/
def Exact (events : List Event) : Prop :=
  ∀ before slot tick accepted after, events = before ++ .consumed slot tick accepted :: after →
    slot.emit = true → GapExact before tick

theorem carriedOf_append (events rest : List Event) :
    carriedOf (events ++ rest) = carriedOf events ++ carriedOf rest := by
  simp [carriedOf, ticksOf]

theorem exists_of_mem_carriedOf {events : List Event} {r : ℕ × ℕ} (h : r ∈ carriedOf events) :
    ∃ before slot tick accepted after, events = before ++ .consumed slot tick accepted :: after ∧
      slot.emit = true ∧ flagged tick = true ∧
        (tick.common.gapBeforeFirst, tick.common.gapBeforeLast) = r := by
  obtain ⟨tick, htick, hrange⟩ := List.mem_map.1 h
  obtain ⟨hmem, hflagged⟩ := List.mem_filter.1 htick
  obtain ⟨event, hevent, hpassed⟩ := List.mem_filterMap.1 hmem
  obtain ⟨before, after, rfl⟩ := List.append_of_mem hevent
  cases event with
  | consumed slot tick' accepted =>
    change (if slot.emit = true then some tick' else none) = some tick at hpassed
    split_ifs at hpassed with hemit
    obtain rfl := Option.some.inj hpassed
    exact ⟨before, slot, tick', accepted, after, rfl, hemit, hflagged, hrange⟩
  | _ => cases hpassed

/-- Nothing from before a dispatch is since the last one. -/
theorem sinceDispatch_suffix {events : List Event} (h : sinceDispatch events = [])
    (rest : List Event) : sinceDispatch (events ++ rest) <:+ rest := by
  induction rest using List.reverseRecOn with
  | nil => rw [List.append_nil, h]
  | append_singleton rest event ih =>
    rw [← List.append_assoc, sinceDispatch_snoc]
    split_ifs
    · exact List.nil_suffix
    · obtain ⟨early, hearly⟩ := ih
      exact ⟨early, by rw [← List.append_assoc, hearly]⟩

/-- The range that a flagged tick carries is the last of those since a dispatch before it. -/
theorem GapExact.last {events rest : List Event} {tick : CanonicalTick}
    (h : GapExact (events ++ rest) tick) (hset : flagged tick = true)
    (hevents : sinceDispatch events = []) :
    (gapRanges rest).getLast? = some (tick.common.gapBeforeFirst, tick.common.gapBeforeLast) := by
  obtain ⟨gap, hgap, hfirst, hlast, -⟩ := h.carried hset
  obtain ⟨early, hearly⟩ := sinceDispatch_suffix hevents rest
  have hne := h.flagged_iff.1 hset
  have hsince : (gapsOf rest).getLast? = some gap := by
    have hlast := hgap.last
    rw [← hearly, gapsOf_append, gapsOf_append, List.getLast?_append_of_ne_nil _ ?_] at hlast
    · rw [← hearly, gapsOf_append]
      exact hlast
    · exact List.append_ne_nil_of_right_ne_nil _ hne
  rw [gapRanges, List.getLast?_map, hsince, hfirst, hlast]
  rfl

theorem Exact.left {events rest : List Event} (h : Exact (events ++ rest)) : Exact events := by
  rintro before slot tick accepted after rfl hemit
  exact h before slot tick accepted (after ++ rest) (by simp) hemit

theorem Exact.carried_subset {events rest : List Event} (h : Exact (events ++ rest))
    (hevents : sinceDispatch events = []) : carriedOf rest ⊆ gapRanges rest := by
  intro r hr
  obtain ⟨before, slot, tick, accepted, after, rfl, hemit, hset, rfl⟩ := exists_of_mem_carriedOf hr
  have hexact := h (events ++ before) slot tick accepted after (List.append_assoc _ _ _).symm hemit
  rw [gapRanges_append]
  exact List.mem_append_left _ (List.mem_of_getLast? (hexact.last hset hevents))

theorem ticksOf_dispatched {slot : PendingSlot} (h : slot.emit = true) (tick : CanonicalTick)
    (accepted : Bool) : ticksOf [.consumed slot tick accepted] = [tick] := by
  show (if slot.emit = true then some tick else none).toList = [tick]
  rw [if_pos h]
  rfl

/-- Between two flagged ticks with no flagged tick between them, all ranges but the last are
carried by no tick. -/
theorem Exact.uncarried {before mid after : List Event} {slot slot' : PendingSlot}
    {tick tick' : CanonicalTick} {accepted accepted' : Bool}
    (h : Exact (before ++ .consumed slot tick accepted ::
      (mid ++ .consumed slot' tick' accepted' :: after)))
    (hnodup : (gapRanges (before ++ .consumed slot tick accepted ::
      (mid ++ .consumed slot' tick' accepted' :: after))).Nodup)
    (hemit : slot.emit = true) (hemit' : slot'.emit = true) (hset : flagged tick = true)
    (hset' : flagged tick' = true) (hmid : ∀ other ∈ ticksOf mid, flagged other = false) :
    tick.common.gapEpoch < tick'.common.gapEpoch ∧
      tick'.common.gapEpoch - tick.common.gapEpoch - 1 =
        ((gapRanges mid).filter (· ∉ carriedOf (before ++ .consumed slot tick accepted ::
          (mid ++ .consumed slot' tick' accepted' :: after)))).length := by
  obtain ⟨early, hearly⟩ : ∃ early, early = before ++ [.consumed slot tick accepted] := ⟨_, rfl⟩
  obtain ⟨late, hlate⟩ : ∃ late, late = early ++ mid ++ [.consumed slot' tick' accepted'] :=
    ⟨_, rfl⟩
  have hsplit : before ++ .consumed slot tick accepted ::
      (mid ++ .consumed slot' tick' accepted' :: after) = late ++ after := by
    simp [hlate, hearly]
  have hdispatched : sinceDispatch early = [] := by
    rw [hearly, sinceDispatch_snoc]
    exact if_pos hemit
  have hdispatched' : sinceDispatch late = [] := by
    rw [hlate, sinceDispatch_snoc]
    exact if_pos hemit'
  have hexact := h before slot tick accepted _ rfl hemit
  have hexact' := h (early ++ mid) slot' tick' accepted' after (by simp [hearly]) hemit'
  rw [hsplit] at h hnodup ⊢
  obtain ⟨ranges, hranges⟩ := List.getLast?_eq_some_iff.1 (hexact'.last hset' hdispatched)
  obtain ⟨-, -, -, -, hepoch⟩ := hexact.carried hset
  obtain ⟨-, -, -, -, hepoch'⟩ := hexact'.carried hset'
  have hbefore : gapRanges early = gapRanges before := by
    rw [hearly, gapRanges_append]
    exact List.append_nil _
  have hlateRanges : gapRanges (late ++ after) =
      gapRanges early ++ (ranges ++ [(tick'.common.gapBeforeFirst, tick'.common.gapBeforeLast)]) ++
        gapRanges after := by
    rw [hlate, gapRanges_append, gapRanges_append, gapRanges_append, hranges]
    exact congrArg (· ++ gapRanges after) (List.append_nil _)
  rw [hlateRanges, List.append_assoc, List.append_assoc] at hnodup
  have hcarriedEarly : carriedOf early ⊆ gapRanges early := by
    rw [hlate, List.append_assoc, List.append_assoc] at h
    have hwhole : Exact ([] ++ early) := h.left
    exact hwhole.carried_subset rfl
  have hcarriedAfter : carriedOf after ⊆ gapRanges after := h.carried_subset hdispatched'
  have hcarriedMid : carriedOf mid = [] := by
    rw [carriedOf, List.filter_eq_nil_iff.2 fun other hother => by rw [hmid other hother]; simp]
    rfl
  have hcarried : ∀ r, r ∈ carriedOf (late ++ after) ↔ r ∈ carriedOf early ∨
      r = (tick'.common.gapBeforeFirst, tick'.common.gapBeforeLast) ∨ r ∈ carriedOf after := by
    intro r
    rw [hlate, carriedOf_append, carriedOf_append, carriedOf_append, hcarriedMid]
    simp [carriedOf, ticksOf_dispatched hemit', hset']
  have hnone : ranges.filter (· ∉ carriedOf (late ++ after)) = ranges := by
    refine List.filter_eq_self.2 fun r hr => decide_eq_true ?_
    rw [hcarried]
    obtain ⟨-, hlater, hapart⟩ := List.nodup_append.1 hnodup
    obtain ⟨-, -, hmids⟩ := List.nodup_append.1 hlater
    rintro (hin | rfl | hin)
    · exact hapart r (hcarriedEarly hin) r (List.mem_append_left _ hr) rfl
    · exact hmids _ hr _ (List.mem_append_left _ (List.mem_singleton_self _)) rfl
    · exact hmids r hr r (List.mem_append_right _ (hcarriedAfter hin)) rfl
  have hlast : [(tick'.common.gapBeforeFirst, tick'.common.gapBeforeLast)].filter
      (· ∉ carriedOf (late ++ after)) = [] := by
    refine List.filter_eq_nil_iff.2 fun r hr => ?_
    rw [List.mem_singleton.1 hr, decide_eq_true_iff, not_not, hcarried]
    exact Or.inr (Or.inl rfl)
  rw [hranges, List.filter_append, hnone, hlast, List.append_nil, hepoch, hepoch', gapRanges_append,
    hbefore, hranges, List.length_append, List.length_append, List.length_singleton]
  omega

/-! ## Runs -/

/-- The records given to `Process` are results of `DecodeTick`. -/
def FromDecoder (calls : List Call) : Prop :=
  ∀ decoded now, Call.process decoded now ∈ calls → ∃ grows message tradeDate limits catalog s,
    decodeTick grows message tradeDate limits catalog = .ok decoded.toTickDecodeResult s

theorem FromDecoder.unflagged {calls : List Call} (h : FromDecoder calls) {key : ChannelKey}
    {r : TickDecodeResult} (hr : r ∈ received key calls) :
    Unflagged r.tick.common.qualityFlags := by
  obtain ⟨call, hcall, hhand⟩ := List.mem_filterMap.1 hr
  obtain ⟨op, hon, hop⟩ := Option.bind_eq_some_iff.1 hhand
  cases Call.sees hon with
  | process decoded now =>
    obtain rfl := Option.some.inj hop
    obtain ⟨_, _, _, _, _, _, hdecoded⟩ := h decoded now hcall
    exact decodeTick_unflagged hdecoded
  | poll => cases hop
  | flush => cases hop
  | freezeDecodeFailure => cases hop

theorem noted_of_run {calls : List Call} (hdecoded : FromDecoder calls)
    {lane : SequenceRecovery cfg} {trace : Trace} (h : run cfg calls = some (lane, trace))
    (key : ChannelKey) : Noted ⟨stateD key (lane.stateOf key), none, trace.of key⟩ := by
  obtain ⟨-, -, -, hnoted⟩ := run_keep_of key (I := fun _ c => Tiled c ∧ Noted c)
    (Q := fun r => Unflagged r.tick.common.qualityFlags)
    ⟨tiled_fresh cfg key, noted_fresh cfg key⟩
    (fun decoded _ hclean hI =>
      ⟨hI.1.neutral ⟨rfl, rfl, rfl⟩ (List.append_nil _).symm rfl rfl rfl rfl, hI.2.pending_iff,
        hI.2.kept, hI.2.held, fun r hr => by cases hr; exact hclean, hI.2.exact⟩)
    (fun hs hsound hI => ⟨step_tiled (fun _ => rfl) hs hsound hI.1, step_noted hs hI.1 hI.2⟩)
    (fun _ hr => hdecoded.unflagged hr) h
  exact hnoted

/-- No range is committed twice. -/
theorem Tiled.nodup {c : Conf cfg} (h : Tiled c) : (gapRanges c.events).Nodup := by
  rcases Bool.eq_false_or_eq_true c.state.discovering with hd | hd
  · rw [(h.undiscovered hd).2.2.1]
    exact List.nodup_nil
  · obtain ⟨origin, -, -, hpartition⟩ := h.partitioned hd
    exact hpartition.nodup

/-- In every run whose callbacks succeed, the gap metadata of each tick passed to `emit_tick` is
exact : it is flagged if and only if a gap was committed since the previous one, and then
carries the last gap, above which only tokens were consumed, and the number of gaps so far.
Between two consecutive flagged ticks the epochs count the ranges that no tick carries, and one
more. -/
theorem run_gap_metadata (cfg : RecoveryConfig) {calls : List Call} (hdecoded : FromDecoder calls)
    (key : ChannelKey) :
    ∃ lane trace, run cfg calls = some (lane, trace) ∧
      (∀ before slot tick accepted after,
        trace.of key = before ++ Event.consumed slot tick accepted :: after → slot.emit = true →
          GapExact before tick) ∧
      ∀ before slot tick accepted mid slot' tick' accepted' after,
        trace.of key = before ++ Event.consumed slot tick accepted ::
          (mid ++ Event.consumed slot' tick' accepted' :: after) →
        slot.emit = true → slot'.emit = true → flagged tick = true → flagged tick' = true →
        (∀ other ∈ ticksOf mid, flagged other = false) →
          tick.common.gapEpoch < tick'.common.gapEpoch ∧
            tick'.common.gapEpoch - tick.common.gapEpoch - 1 =
              ((gapRanges mid).filter (· ∉ carriedOf (trace.of key))).length := by
  obtain ⟨lane, trace, h⟩ := exists_run cfg calls
  have hexact : Exact (trace.of key) := fun before slot tick accepted after heq hemit =>
    (noted_of_run hdecoded h key).exact before _ after heq slot tick accepted rfl hemit
  refine ⟨lane, trace, h, hexact,
    fun before slot tick accepted mid slot' tick' accepted' after heq hemit hemit' hset hset'
        hmid =>
      ?_⟩
  have hnodup : (gapRanges (trace.of key)).Nodup := (tiled_of_run h key).nodup
  rw [heq] at hexact hnodup ⊢
  exact hexact.uncarried hnodup hemit hemit' hset hset' hmid

/-- A run on a record that was decoded, which leaves a gap before it. -/
theorem run_gap_metadata_sample : ∃ (decoded : DecodedTick) (s : Scan)
    (lane : SequenceRecovery (sampleConfig .kFromOpen 0 100)) (trace : Trace),
    decodeTick (fun _ => true) (sampleMessage ⟨4, 101, 24⟩ sampleTradeBody) 20260101 {} {} =
        .ok decoded.toTickDecodeResult s ∧
      run (sampleConfig .kFromOpen 0 100) [.process decoded 10, .flush 11] = some (lane, trace) ∧
      Exact (trace.of decoded.key) := by
  obtain ⟨result, s, hrun⟩ := sampleTicks_decoded _ List.mem_cons_self
  have hdecoded : FromDecoder [.process (decodeTick_read hrun).tick 10, .flush 11] := by
    intro decoded now hmem
    rcases List.mem_cons.1 hmem with heq | hmem
    · cases heq
      exact ⟨_, _, _, _, _, _, hrun⟩
    · cases List.mem_singleton.1 hmem
  obtain ⟨lane, trace, h, hexact, -⟩ :=
    run_gap_metadata (sampleConfig .kFromOpen 0 100) hdecoded (decodeTick_read hrun).tick.key
  exact ⟨(decodeTick_read hrun).tick, s, lane, trace, hrun, h, hexact⟩

end SequenceRecovery

end L2Flow
