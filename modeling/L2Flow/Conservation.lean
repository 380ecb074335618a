import Mathlib.Tactic.Abel
import L2Flow.Runs

/-!
# Every record is accounted for

A record given to `Process` is dispatched, consumed as a continuity token, handed to
LateRecovery, suppressed as a duplicate, or still retained, once and in one of these ways
only. The ledger of a channel adds them up; the primitive steps move a record from one
column to another and keep the sum, unless the channel freezes (`ledger_step`).

`body` is what of a tick no output path touches.
-/

namespace L2Flow

variable {cfg : RecoveryConfig}

namespace SequenceRecovery

/-! ## The columns of the ledger -/

/-- The records passed to `emit_tick`. -/
def dispatchedOf (events : List Event) : List PendingSlot :=
  events.filterMap fun
    | .consumed slot _ true => if slot.emit then some slot else none
    | _ => none

/-- The continuity tokens consumed. -/
def tokensOf (events : List Event) : List PendingSlot :=
  events.filterMap fun
    | .consumed slot _ true => if slot.emit then none else some slot
    | _ => none

/-- The records handed to `emit_late`. -/
def lateOf (events : List Event) : List PendingSlot :=
  events.filterMap fun
    | .late decoded _ _ => some (slotOf decoded)
    | _ => none

/-- The records suppressed as duplicates. -/
def duplicatesOf (events : List Event) : List PendingSlot :=
  events.filterMap fun
    | .duplicate decoded => some (slotOf decoded)
    | _ => none

/-- What the events account for. -/
def settledOf (events : List Event) : Multiset PendingSlot :=
  ↑(dispatchedOf events) + ↑(tokensOf events) + ↑(lateOf events) + ↑(duplicatesOf events)

theorem settledOf_append (events rest : List Event) :
    settledOf (events ++ rest) = settledOf events + settledOf rest := by
  simp only [settledOf, dispatchedOf, tokensOf, lateOf, duplicatesOf, List.filterMap_append,
    ← Multiset.coe_add]
  abel

theorem settledOf_consumed (slot : PendingSlot) (tick : CanonicalTick) :
    settledOf [.consumed slot tick true] = {slot} := by
  cases he : slot.emit <;> simp [settledOf, dispatchedOf, tokensOf, lateOf, duplicatesOf, he]

/-- All that a channel has taken up, by where it is. -/
def ledger (c : Conf cfg) : Multiset PendingSlot :=
  settledOf c.events + c.state.pending.values + ↑(c.hand.toList.map slotOf)

/-- A step moves records within the ledger, and a frozen channel stays frozen. -/
theorem ledger_step {callbacks : Callbacks} (htick : ∀ tick, callbacks.emitTick tick = true)
    {c c' : Conf cfg} (h : Step callbacks c c') (live : c'.state.frozen = false) :
    c.state.frozen = false ∧ ledger c' = ledger c := by
  cases h with
  | drop frozen =>
    rw [show _ = _ from frozen] at live
    cases live
  | @retain s r evs live free above =>
    refine ⟨live, ?_⟩
    have hvalues : (retain s (slotOf r)).pending.values = slotOf r ::ₘ s.pending.values :=
      DirectMapped.values_insert free
    simp only [ledger, hvalues, Option.toList_none, Option.toList_some, List.map_nil,
      List.map_cons, Multiset.coe_nil, Multiset.coe_singleton, ← Multiset.singleton_add]
    abel
  | duplicate live =>
    refine ⟨live, ?_⟩
    simp only [ledger, settledOf_append, Option.toList_none, Option.toList_some, List.map_nil,
      List.map_cons, Multiset.coe_nil, Multiset.coe_singleton]
    simp only [settledOf, dispatchedOf, tokensOf, lateOf, duplicatesOf, List.filterMap_cons,
      List.filterMap_nil, Multiset.coe_nil, Multiset.coe_singleton]
    abel
  | divert live =>
    refine ⟨live, ?_⟩
    simp only [ledger, settledOf_append, Option.toList_none, Option.toList_some, List.map_nil,
      List.map_cons, Multiset.coe_nil, Multiset.coe_singleton]
    simp only [settledOf, dispatchedOf, tokensOf, lateOf, duplicatesOf, List.filterMap_cons,
      List.filterMap_nil, Multiset.coe_nil, Multiset.coe_singleton]
    abel
  | freeze => cases live
  | @release s hand evs slot accepted live active held position refused =>
    cases accepted with
    | true =>
      refine ⟨live, ?_⟩
      have hvalues : s.pending.values = slot ::ₘ (release s slot true).pending.values := by
        show _ = slot ::ₘ (s.pending.erase s.expected).values
        rw [← position]
        exact DirectMapped.values_erase held
      simp only [ledger, settledOf_append, settledOf_consumed, hvalues, ← Multiset.singleton_add]
      abel
    | false =>
      have := (refused rfl).2
      rw [htick] at this
      cases this
  | @pass s r evs accepted live active position clear refused =>
    cases accepted with
    | true =>
      refine ⟨live, ?_⟩
      have hvalues : (consume s (slotOf r) true).pending = s.pending := rfl
      simp only [ledger, settledOf_append, settledOf_consumed, hvalues, Option.toList_none,
        Option.toList_some, List.map_nil, List.map_cons, Multiset.coe_nil,
        Multiset.coe_singleton]
      abel
    | false =>
      have := (refused rfl).2
      rw [htick] at this
      cases this
  | @skip s hand evs next now live =>
    refine ⟨live, ?_⟩
    have hvalues : (skipTo s next).pending = s.pending := rfl
    simp [ledger, settledOf, dispatchedOf, tokensOf, lateOf, duplicatesOf,
      hvalues]
  | timers => exact ⟨live, rfl⟩
  | finish live =>
    refine ⟨live, ?_⟩
    simp [ledger, settledOf, dispatchedOf, tokensOf, lateOf, duplicatesOf]
  | fatal =>
    refine ⟨live, ?_⟩
    simp [ledger, settledOf, dispatchedOf, tokensOf, lateOf, duplicatesOf]

/-- The ledger of a channel that is not frozen holds the records received. -/
def Accounted (records : List TickDecodeResult) (c : Conf cfg) : Prop :=
  c.state.frozen = false → (↑(records.map slotOf) : Multiset PendingSlot) = ledger c

/-- Taking up a record adds it to the ledger. -/
theorem Accounted.arrive {records : List TickDecodeResult} {state : ChannelState cfg}
    {events : List Event} (h : Accounted records ⟨state, none, events⟩)
    (hand : Option TickDecodeResult) :
    Accounted (records ++ hand.toList) ⟨state, hand, events⟩ := by
  intro live
  have := h live
  simp only [ledger, Option.toList_none, List.map_nil, Multiset.coe_nil, add_zero] at this
  simp only [ledger, List.map_append, ← Multiset.coe_add, this]

theorem step_accounted {callbacks : Callbacks} (htick : ∀ tick, callbacks.emitTick tick = true)
    {records : List TickDecodeResult} {c c' : Conf cfg} (h : Step callbacks c c')
    (hc : Accounted records c) : Accounted records c' := by
  intro live
  obtain ⟨hlive, hledger⟩ := ledger_step htick h live
  rw [hledger]
  exact hc hlive

theorem accounted_fresh (cfg : RecoveryConfig) (key : ChannelKey) :
    Accounted [] (⟨.fresh cfg key, none, []⟩ : Conf cfg) := by
  intro _
  simp [ledger, settledOf, dispatchedOf, tokensOf, lateOf, duplicatesOf, ChannelState.fresh]

/-- A call on a channel accounts for the record it brings. -/
theorem accounted_channelStep {key : ChannelKey} {channel channel' : Option (ChannelState cfg)}
    {op : ChannelCall} {fx : Effects} (hp : Placed key channel)
    (h : channelStep .succeed key channel op = some (channel', fx))
    {records : List TickDecodeResult} {events : List Event}
    (hc : Accounted records ⟨stateD key channel, none, events⟩) :
    Accounted (records ++ op.hand.toList) ⟨stateD key channel', none, events ++ fx.events⟩ := by
  have hsteps := (channelStep_steps (fun _ => rfl) hp h).1 events
  rw [List.append_nil] at hsteps
  exact Steps.keep (fun hs => step_accounted (fun _ => rfl) hs) hsteps (hc.arrive op.hand)

/-! ## Bodies -/

/-- The quality bits that the recovery sets. -/
def recoveryQuality : Flags :=
  kQualitySequenceGapBefore ||| kQualityChannelHistoryIncomplete ||| kQualityLateRecovery

/-- A tick without its history bit, the three quality bits of the recovery, and the gap
fields. -/
def body (tick : CanonicalTick) : CanonicalTick :=
  { tick with
    validity := tick.validity &&& ~~~kTickChannelHistoryValid
    common :=
      { tick.common with
        qualityFlags := tick.common.qualityFlags &&& ~~~recoveryQuality
        gapEpoch := 0
        gapBeforeFirst := 0
        gapBeforeLast := 0 } }

theorem and_clear_clear (flags mask : Flags) :
    flags &&& ~~~mask &&& ~~~mask = flags &&& ~~~mask := by
  rw [BitVec.and_assoc, BitVec.and_self]

/-- Setting bits that are then cleared changes nothing. -/
theorem or_clear {bits mask : Flags} (h : bits &&& ~~~mask = 0#64) (flags : Flags) :
    (flags ||| bits) &&& ~~~mask = flags &&& ~~~mask := by
  rw [BitVec.and_or_distrib_right, h, BitVec.or_zero]

theorem body_outgoing (state : ChannelState cfg) (slot : PendingSlot) :
    body (outgoing state slot) = body slot.tick := by
  have hgap : kQualitySequenceGapBefore &&& ~~~recoveryQuality = 0#64 := by decide
  have hhistory : kQualityChannelHistoryIncomplete &&& ~~~recoveryQuality = 0#64 := by decide
  unfold outgoing
  split_ifs <;> simp only [body, and_clear_clear, or_clear hgap, or_clear hhistory]

theorem body_lateRecord (state : ChannelState cfg) (decoded : TickDecodeResult)
    (reason : LateRecoveryReason) :
    body (lateRecord state decoded reason).tick = body decoded.tick := by
  have hlate : (kQualityChannelHistoryIncomplete ||| kQualityLateRecovery) &&&
      ~~~recoveryQuality = 0#64 := by decide
  simp only [body, lateRecord, and_clear_clear, or_clear hlate]

/-- The output of a channel has the bodies of its input. -/
def Intact (events : List Event) : Prop :=
  (∀ slot tick accepted, Event.consumed slot tick accepted ∈ events → body tick = body slot.tick) ∧
    ∀ decoded record accepted, Event.late decoded record accepted ∈ events →
      body record.tick = body decoded.tick

theorem step_intact {callbacks : Callbacks} {c c' : Conf cfg} (h : Step callbacks c c')
    (hc : Intact c.events) : Intact c'.events := by
  obtain ⟨hconsumed, hlate⟩ := hc
  have hplain : ∀ event, (∀ slot tick accepted, event ≠ Event.consumed slot tick accepted) →
      (∀ decoded record accepted, event ≠ Event.late decoded record accepted) →
      Intact (c.events ++ [event]) := by
    intro event hne hne'
    refine ⟨fun slot tick accepted hmem => ?_, fun decoded record accepted hmem => ?_⟩
    · rcases List.mem_append.1 hmem with hmem | hmem
      · exact hconsumed _ _ _ hmem
      · exact absurd (List.mem_singleton.1 hmem).symm (hne _ _ _)
    · rcases List.mem_append.1 hmem with hmem | hmem
      · exact hlate _ _ _ hmem
      · exact absurd (List.mem_singleton.1 hmem).symm (hne' _ _ _)
  have hpassed : ∀ (state : ChannelState cfg) slot accepted,
      Intact (c.events ++ [.consumed slot (outgoing state slot) accepted]) := by
    intro state slot accepted
    refine ⟨fun slot' tick accepted' hmem => ?_, fun decoded record accepted' hmem => ?_⟩
    · rcases List.mem_append.1 hmem with hmem | hmem
      · exact hconsumed _ _ _ hmem
      · cases List.mem_singleton.1 hmem
        exact body_outgoing _ _
    · rcases List.mem_append.1 hmem with hmem | hmem
      · exact hlate _ _ _ hmem
      · cases List.mem_singleton.1 hmem
  cases h with
  | drop => exact ⟨hconsumed, hlate⟩
  | retain => exact ⟨hconsumed, hlate⟩
  | duplicate => exact hplain _ (by simp) (by simp)
  | @divert s r evs reason accepted =>
    refine ⟨fun slot tick accepted' hmem => ?_, fun decoded record accepted' hmem => ?_⟩
    · rcases List.mem_append.1 hmem with hmem | hmem
      · exact hconsumed _ _ _ hmem
      · cases List.mem_singleton.1 hmem
    · rcases List.mem_append.1 hmem with hmem | hmem
      · exact hlate _ _ _ hmem
      · cases List.mem_singleton.1 hmem
        exact body_lateRecord _ _ _
  | freeze => exact hplain _ (by simp) (by simp)
  | release => exact hpassed _ _ _
  | pass => exact hpassed _ _ _
  | skip => exact hplain _ (by simp) (by simp)
  | timers => exact ⟨hconsumed, hlate⟩
  | finish => exact hplain _ (by simp) (by simp)
  | fatal => exact hplain _ (by simp) (by simp)

/-! ## Duplicates -/

/-- The record `decoded` repeats one that the channel retains. -/
def Repeats (state : ChannelState cfg) (decoded : TickDecodeResult) : Prop :=
  ∃ slot ∈ state.pending, slot.nativeSequence = decoded.nativeSequence ∧ SameRecord slot decoded

/-- Within a call that starts at `start` with `hand` : while the record is in hand nothing
is added to what was retained. -/
structure Within (start : ChannelState cfg) (hand : Option TickDecodeResult) (c : Conf cfg) :
    Prop where
  held : ∀ decoded, c.hand = some decoded → hand = some decoded
  kept : c.hand ≠ none → ∀ slot ∈ c.state.pending, slot ∈ start.pending
  repeated : ∀ decoded, Event.duplicate decoded ∈ c.events →
    hand = some decoded ∧ Repeats start decoded

theorem Within.log {start : ChannelState cfg} {hand : Option TickDecodeResult} {c c' : Conf cfg}
    (h : Within start hand c) {event : Event} (hevents : c'.events = c.events ++ [event])
    (hplain : ∀ decoded, event ≠ .duplicate decoded)
    (hhand : c'.hand = none ∨ c'.hand = c.hand)
    (hpending : c'.hand ≠ none → ∀ slot ∈ c'.state.pending, slot ∈ c.state.pending) :
    Within start hand c' where
  held decoded hd := by
    rcases hhand with hnone | hsame
    · rw [hnone] at hd
      cases hd
    · exact h.held decoded (hsame ▸ hd)
  kept hne slot hslot := by
    rcases hhand with hnone | hsame
    · exact absurd hnone hne
    · exact h.kept (hsame ▸ hne) slot (hpending hne slot hslot)
  repeated decoded hmem := by
    rw [hevents, List.mem_append, List.mem_singleton] at hmem
    rcases hmem with hmem | hmem
    · exact h.repeated decoded hmem
    · exact absurd hmem.symm (hplain decoded)

theorem Within.drop {start : ChannelState cfg} {hand : Option TickDecodeResult}
    {state state' : ChannelState cfg} {held : Option TickDecodeResult} {events : List Event}
    (h : Within start hand ⟨state, held, events⟩) : Within start hand ⟨state', none, events⟩ :=
  ⟨fun _ hd => (by cases hd), fun hne => absurd rfl hne, h.repeated⟩

theorem step_within {callbacks : Callbacks} {start : ChannelState cfg}
    {hand : Option TickDecodeResult} {c c' : Conf cfg} (h : Step callbacks c c')
    (hc : Within start hand c) : Within start hand c' := by
  cases h with
  | drop => exact hc.drop
  | retain => exact hc.drop
  | @duplicate s r evs slot live held position same =>
    refine ⟨fun _ hd => (by cases hd), fun hne => absurd rfl hne, fun decoded hmem => ?_⟩
    rcases List.mem_append.1 hmem with hmem | hmem
    · exact hc.repeated decoded hmem
    · cases List.mem_singleton.1 hmem
      exact ⟨hc.held r rfl, slot, hc.kept (by simp) slot held, position, same⟩
  | divert => exact hc.log rfl (by simp) (Or.inl rfl) fun hne => absurd rfl hne
  | freeze => exact hc.log rfl (by simp) (Or.inl rfl) fun hne => absurd rfl hne
  | release live active held position =>
    exact hc.log rfl (by simp) (Or.inr rfl) fun _ slot hslot =>
      ((mem_release held position).1 hslot).1
  | pass => exact hc.log rfl (by simp) (Or.inl rfl) fun hne => absurd rfl hne
  | skip => exact hc.log rfl (by simp) (Or.inr rfl) fun _ _ hslot => hslot
  | timers => exact ⟨hc.held, hc.kept, hc.repeated⟩
  | finish => exact hc.log rfl (by simp) (Or.inr rfl) fun _ _ hslot => hslot
  | fatal => exact hc.log rfl (by simp) (Or.inr rfl) fun _ _ hslot => hslot

/-- A call suppresses its own record only, and only if the channel retains it already. -/
theorem repeats_of_duplicate {callbacks : LaneCallbacks}
    (hgap : ∀ slot gap, (callbacks slot).emitGap gap = true) {lane lane' : SequenceRecovery cfg}
    (hv : lane.Valid) {call : Call} {added : Trace}
    (h : step callbacks lane call = some (lane', added)) {key : ChannelKey}
    {decoded : TickDecodeResult} (hmem : Event.duplicate decoded ∈ added.of key) :
    (call.on key).bind ChannelCall.hand = some decoded ∧
      Repeats (stateD key (lane.stateOf key)) decoded := by
  obtain ⟨op, slot, fx, hon, hturn, hadded⟩ :=
    ((step_turned hgap hv h).2.atKey key).turn_of_moved (Or.inr (List.ne_nil_of_mem hmem))
  rw [hadded] at hmem
  obtain ⟨hsteps, -⟩ := channelStep_steps (hgap slot) (hv.placed key) hturn
  have hwithin := Steps.keep (fun hs => step_within hs) (hsteps [])
    (⟨fun _ hd => hd, fun _ _ hslot => hslot, fun _ hd => by cases hd⟩ :
      Within (stateD key (lane.stateOf key)) op.hand _)
  rw [hon]
  exact hwithin.repeated decoded hmem

/-! ## Flush -/

theorem step_frozen {callbacks : Callbacks} {c c' : Conf cfg} (h : Step callbacks c c')
    (hf : c.state.frozen = true) : c'.state.frozen = true := by
  cases h with
  | freeze => rfl
  | _ => exact hf

theorem Reaches.frozen {callbacks : Callbacks} {hand hand' : Option TickDecodeResult}
    {s r : ChannelState cfg × Effects} (h : Reaches callbacks hand hand' s r)
    (hf : s.1.frozen = true) : r.1.frozen = true :=
  Steps.keep (I := fun c => c.state.frozen = true) (fun hs => step_frozen hs) (h []) hf

/-- After `Flush` a channel that is not frozen retains nothing. -/
theorem pending_of_flush {callbacks : LaneCallbacks}
    (hgap : ∀ slot gap, (callbacks slot).emitGap gap = true) {lane lane' : SequenceRecovery cfg}
    (hv : lane.Valid) {now : ℕ} {added : Trace}
    (h : step callbacks lane (.flush now) = some (lane', added)) {key : ChannelKey}
    {state : ChannelState cfg} (hstate : lane'.stateOf key = some state)
    (live : state.frozen = false) : ∀ slot, slot ∉ state.pending := by
  obtain ⟨hv', hturned⟩ := step_turned hgap hv h
  cases hturned with
  | early now poll => cases poll
  | refused key' only =>
    obtain ⟨market, channel⟩ := key'
    have := only ⟨market, channel + 1⟩ (by simp)
    cases this
  | served fx apart turn deadline =>
    obtain ⟨slot, hturn, -⟩ := turn key _ rfl
    cases hbefore : lane.stateOf key with
    | none =>
      rw [hbefore, hstate] at hturn
      cases hturn
    | some before =>
      rw [hbefore, hstate] at hturn
      simp only [channelStep, Option.map_eq_some_iff] at hturn
      obtain ⟨r, hr, he⟩ := hturn
      obtain ⟨hstate', -⟩ := Prod.mk.inj he
      cases hstate'
      obtain ⟨hsteps, -, hempty⟩ := flushChannel_steps (hgap slot)
        (hv.idle_of_stateOf hbefore) hr
      have hbeforeLive : before.frozen = false := by
        by_contra hf
        rw [hsteps.frozen (by simpa using hf)] at live
        cases live
      have hsound := (hv'.idle_of_stateOf hstate).sound
      have hzero := hempty hbeforeLive
      rw [hsound.count, DirectMapped.card_eq_zero_iff] at hzero
      exact hzero

/-! ## Runs -/

/-- After every run whose callbacks succeed and that names no more channels than a lane
has, each record received on a channel that is not frozen is in one place; a `Flush`
leaves none retained; bodies are intact; and what is suppressed repeats a record that was
then retained. -/
theorem run_conserves (cfg : RecoveryConfig) (calls : List Call) (key : ChannelKey)
    (hfits : Fits cfg calls) :
    ∃ lane trace, run cfg calls = some (lane, trace) ∧
      ((stateD key (lane.stateOf key)).frozen = false →
        (↑((received key calls).map slotOf) : Multiset PendingSlot) =
          ↑(dispatchedOf (trace.of key)) + ↑(tokensOf (trace.of key)) +
            ↑(lateOf (trace.of key)) + ↑(duplicatesOf (trace.of key)) +
            (stateD key (lane.stateOf key)).pending.values) ∧
      (∀ now state, calls.getLast? = some (.flush now) → lane.stateOf key = some state →
        state.frozen = false → ∀ slot, slot ∉ state.pending) ∧
      Intact (trace.of key) ∧
      ∀ before call after lane₀ trace₀ lane₁ added, calls = before ++ call :: after →
        run cfg before = some (lane₀, trace₀) →
        step (fun _ => .succeed) lane₀ call = some (lane₁, added) →
        ∀ decoded, Event.duplicate decoded ∈ added.of key →
          (call.on key).bind ChannelCall.hand = some decoded ∧
            Repeats (stateD key (lane₀.stateOf key)) decoded := by
  obtain ⟨lane, trace, h⟩ := exists_run cfg calls
  obtain ⟨records, hrecords, haccounted, hintact⟩ := run_keep key
    (I := fun records c => Accounted records c ∧ Intact c.events)
    ⟨accounted_fresh cfg key, by simp [Intact]⟩
    (fun decoded _ hI => ⟨hI.1.arrive (some decoded.toTickDecodeResult), hI.2⟩)
    (fun hs _ hI => ⟨step_accounted (fun _ => rfl) hs hI.1, step_intact hs hI.2⟩) h
  refine ⟨lane, trace, h, fun live => ?_, fun now state hlast hstate live => ?_, hintact,
    fun before call after lane₀ trace₀ lane₁ added _ hbefore hcall decoded hmem => ?_⟩
  · have := haccounted live
    rw [hrecords (Or.inl hfits)] at this
    simpa [ledger, settledOf] using this
  · obtain ⟨before, rfl⟩ : ∃ before, calls = before ++ [.flush now] := by
      obtain ⟨ys, rfl⟩ := List.getLast?_eq_some_iff.1 hlast
      exact ⟨ys, rfl⟩
    rw [run, List.map_append, List.map_cons, List.map_nil, runWith_snoc] at h
    obtain ⟨lane₀, trace₀, added, hbefore, hcall, -⟩ := h
    exact pending_of_flush (fun _ _ => rfl)
      (valid_of_runWith (gapsTaken_succeed before) hbefore) hcall hstate live
  · exact repeats_of_duplicate (fun _ _ => rfl)
      (valid_of_runWith (gapsTaken_succeed before) hbefore) hcall hmem

theorem run_conserves_sample : ∃ lane trace,
    run (sampleConfig .kPartial 0 100) [arrival 3 (by decide) 10, arrival 3 (by decide) 11,
      arrival 2 (by decide) 12, .flush 13] = some (lane, trace) ∧ Intact (trace.of sampleKey) := by
  have hfits : Fits (sampleConfig .kPartial 0 100) [arrival 3 (by decide) 10,
      arrival 3 (by decide) 11, arrival 2 (by decide) 12, .flush 13] := by
    unfold Fits
    decide
  obtain ⟨lane, trace, h, -, -, hintact, -⟩ := run_conserves _ _ sampleKey hfits
  exact ⟨lane, trace, h, hintact⟩

end SequenceRecovery

end L2Flow
