import L2Flow.Frontier
import L2Flow.Conservation
import L2Flow.QueueMatrix

/-!
# What a tick lane emits

The ticks that the recovery of a lane passes to `emit_tick`, in the order of the calls, each
with the answer it gets. The callbacks may answer as they please, provided that the gap mailbox
takes every gap.

A tick that is refused leaves the frontier where it is, so a later tick may have its position;
but of every channel the ticks that are taken ascend (`emitted_ascending`). Each tick is a
record that was processed, but for what the recovery writes into it (`mem_emitted`).
-/

namespace L2Flow

/-- The channel of a tick. -/
def CanonicalTick.channelKey (tick : CanonicalTick) : ChannelKey :=
  ⟨tick.common.identity.market, tick.common.channel⟩

variable {cfg : RecoveryConfig}

namespace SequenceRecovery

/-- The ticks passed to `emit_tick`, with its answers. -/
def emitted (trace : Trace) : List (CanonicalTick × Bool) :=
  trace.filterMap fun
    | (_, .consumed slot tick accepted) => if slot.emit then some (tick, accepted) else none
    | _ => none

theorem emitted_append (trace added : Trace) :
    emitted (trace ++ added) = emitted trace ++ emitted added :=
  List.filterMap_append ..

/-! ## The frontier stays ahead -/

/-- What a channel has consumed ascends, and is behind its frontier. -/
structure Ascending (c : Conf cfg) : Prop where
  undiscovered : c.state.discovering = true → consumedOf c.events = []
  behind : ∀ n ∈ consumedOf c.events, n < c.state.expected
  increasing : (consumedOf c.events).Pairwise (· < ·)

theorem ascending_fresh (cfg : RecoveryConfig) (key : ChannelKey) :
    Ascending (⟨.fresh cfg key, none, []⟩ : Conf cfg) where
  undiscovered _ := rfl
  behind _ hn := by cases hn
  increasing := List.Pairwise.nil

/-- A step that consumes nothing. -/
theorem Ascending.quiet {c c' : Conf cfg} (h : Ascending c)
    (hconsumed : consumedOf c'.events = consumedOf c.events)
    (hdiscovering : c'.state.discovering = true → c.state.discovering = true)
    (hexpected : c.state.expected ≤ c'.state.expected) : Ascending c' where
  undiscovered hd := hconsumed.trans (h.undiscovered (hdiscovering hd))
  behind n hn := lt_of_lt_of_le (h.behind n (hconsumed ▸ hn)) hexpected
  increasing := hconsumed ▸ h.increasing

/-- A record at the frontier goes through `EmitOne`. -/
theorem Ascending.emitted {s s' : ChannelState cfg} {hand hand' : Option TickDecodeResult}
    {events : List Event} (h : Ascending ⟨s, hand, events⟩) {slot : PendingSlot}
    {tick : CanonicalTick} {accepted : Bool} (active : s'.discovering = false)
    (position : slot.nativeSequence = s.expected)
    (hexpected : s'.expected = if accepted then s.expected + 1 else s.expected) :
    Ascending ⟨s', hand', events ++ [.consumed slot tick accepted]⟩ := by
  cases accepted with
  | false =>
    refine h.quiet (by rw [consumedOf_append]; exact List.append_nil _) (fun hd => ?_)
      hexpected.ge
    rw [show s'.discovering = true from hd] at active
    cases active
  | true =>
    have hconsumed : consumedOf (events ++ [.consumed slot tick true]) =
        consumedOf events ++ [s.expected] := by
      rw [consumedOf_append, ← position]
      rfl
    have hbehind : ∀ n ∈ consumedOf events, n < s.expected := h.behind
    constructor
    · intro hd
      rw [show s'.discovering = true from hd] at active
      cases active
    · intro n hn
      show n < s'.expected
      rw [hexpected, if_pos rfl]
      rcases List.mem_append.1 (hconsumed ▸ hn) with hold | hnew
      · exact Nat.lt_succ_of_lt (hbehind n hold)
      · obtain rfl := List.mem_singleton.1 hnew
        exact Nat.lt_succ_self _
    · show (consumedOf (events ++ [.consumed slot tick true])).Pairwise (· < ·)
      rw [hconsumed, List.pairwise_append]
      refine ⟨h.increasing, List.pairwise_singleton .., fun n hn m hm => ?_⟩
      obtain rfl := List.mem_singleton.1 hm
      exact hbehind n hn

/-- What is consumed next lies at the frontier, above all that was consumed before. -/
theorem step_ascending {callbacks : Callbacks} {c c' : Conf cfg} (h : Step callbacks c c')
    (hc : Ascending c) : Ascending c' := by
  have hplain : ∀ event, consumedOf [event] = [] →
      consumedOf (c.events ++ [event]) = consumedOf c.events := by
    intro event hevent
    rw [consumedOf_append, hevent, List.append_nil]
  cases h with
  | drop => exact hc.quiet rfl id le_rfl
  | retain => exact hc.quiet rfl id le_rfl
  | duplicate => exact hc.quiet (hplain _ rfl) id le_rfl
  | divert => exact hc.quiet (hplain _ rfl) id le_rfl
  | freeze => exact hc.quiet (hplain _ rfl) id le_rfl
  | release live active held position refused => exact hc.emitted active position rfl
  | pass live active position clear refused => exact hc.emitted active position rfl
  | skip live active ahead least within present => exact hc.quiet (hplain _ rfl) id ahead.le
  | timers => exact hc.quiet rfl id le_rfl
  | @finish s hand evs slot live discovering held least =>
    -- Nothing has been consumed before the origin is chosen.
    have hnone : consumedOf (evs ++ [.origin slot.nativeSequence]) = [] :=
      (hplain _ rfl).trans (hc.undiscovered discovering)
    constructor
    · exact fun _ => hnone
    · intro n hn
      rw [show consumedOf (evs ++ [.origin slot.nativeSequence]) = [] from hnone] at hn
      cases hn
    · show (consumedOf (evs ++ [.origin slot.nativeSequence])).Pairwise (· < ·)
      rw [hnone]
      exact List.Pairwise.nil
  | fatal => exact hc.quiet (hplain _ rfl) id le_rfl

/-! ## Where a tick comes from -/

/-- What a channel retains, has in hand and has consumed are records that satisfy `Q`. -/
structure Sourced (Q : PendingSlot → Prop) (c : Conf cfg) : Prop where
  held : ∀ slot ∈ c.state.pending, Q slot
  hand : ∀ r ∈ c.hand, Q (slotOf r)
  consumed : ∀ slot tick accepted, Event.consumed slot tick accepted ∈ c.events → Q slot

/-- An event whose record has the property, when nothing new is retained. -/
theorem Sourced.log {Q : PendingSlot → Prop} {c c' : Conf cfg} (h : Sourced Q c) {event : Event}
    (hevents : c'.events = c.events ++ [event])
    (hpending : ∀ slot ∈ c'.state.pending, slot ∈ c.state.pending)
    (hhand : ∀ r ∈ c'.hand, r ∈ c.hand)
    (hevent : ∀ slot tick accepted, event = .consumed slot tick accepted → Q slot) :
    Sourced Q c' where
  held slot hslot := h.held slot (hpending slot hslot)
  hand r hr := h.hand r (hhand r hr)
  consumed slot tick accepted hmem := by
    rw [hevents] at hmem
    rcases List.mem_append.1 hmem with hold | hnew
    · exact h.consumed slot tick accepted hold
    · exact hevent slot tick accepted (List.mem_singleton.1 hnew).symm

/-- A record that is consumed was retained, or is the one in hand. -/
theorem step_sourced {Q : PendingSlot → Prop} {callbacks : Callbacks} {c c' : Conf cfg}
    (h : Step callbacks c c') (hc : Sourced Q c) : Sourced Q c' := by
  cases h with
  | drop => exact ⟨hc.held, (fun _ hr => by cases hr), hc.consumed⟩
  | @retain s r evs live free above =>
    refine ⟨fun slot hslot => ?_, (fun _ hr => by cases hr), hc.consumed⟩
    rcases (mem_retain free).1 hslot with rfl | hold
    · exact hc.hand r rfl
    · exact hc.held slot hold
  | duplicate =>
    exact hc.log rfl (fun _ => id) (fun _ hr => by cases hr) fun _ _ _ he => by cases he
  | divert =>
    exact hc.log rfl (fun _ => id) (fun _ hr => by cases hr) fun _ _ _ he => by cases he
  | freeze =>
    exact hc.log rfl (fun _ => id) (fun _ hr => by cases hr) fun _ _ _ he => by cases he
  | @release s hand evs slot accepted live active held position refused =>
    refine hc.log rfl (fun slot' hslot' => ((mem_release held position).1 hslot').1) (fun _ => id)
      fun slot' _ _ he => ?_
    obtain rfl := (Event.consumed.inj he).1
    exact hc.held slot held
  | @pass s r evs accepted live active position clear refused =>
    refine hc.log rfl (fun _ => id) (fun _ hr => by cases hr) fun slot' _ _ he => ?_
    obtain rfl := (Event.consumed.inj he).1
    exact hc.hand r rfl
  | skip => exact hc.log rfl (fun _ => id) (fun _ => id) fun _ _ _ he => by cases he
  | timers => exact ⟨hc.held, hc.hand, hc.consumed⟩
  | finish => exact hc.log rfl (fun _ => id) (fun _ => id) fun _ _ _ he => by cases he
  | fatal => exact hc.log rfl (fun _ => id) (fun _ => id) fun _ _ _ he => by cases he

/-! ## The trace of a lane -/

/-- An event of no channel is a report of a fatal error. -/
def Tagged (trace : Trace) : Prop :=
  ∀ event, (none, event) ∈ trace → ∃ message, event = .fatal message

theorem tagged_tag (key : ChannelKey) (events : List Event) : Tagged (tag key events) := by
  intro event hmem
  obtain ⟨_, _, heq⟩ := List.mem_map.1 hmem
  cases (Prod.mk.inj heq).1

theorem onChannel_tagged {lane lane' : SequenceRecovery cfg} {i : ℕ}
    {op : ChannelEntry cfg → Option (ChannelState cfg × Effects)} {trace : Trace}
    (h : onChannel lane i op = some (lane', trace)) : Tagged trace := by
  unfold onChannel at h
  split at h
  · obtain ⟨-, rfl⟩ := Prod.mk.inj (Option.some.inj h)
    exact fun _ hmem => by cases hmem
  · split at h
    · cases h
    · obtain ⟨-, rfl⟩ := Prod.mk.inj (Option.some.inj h)
      exact tagged_tag _ _

theorem afterTurns_tagged (lane : SequenceRecovery cfg) (next : ℕ)
    (turns : List (ChannelEntry cfg × ChannelState cfg × Effects)) :
    Tagged (afterTurns lane next turns).2 := by
  intro event hmem
  obtain ⟨turn, -, hturn⟩ := List.mem_flatMap.1 hmem
  exact tagged_tag _ _ event hturn

theorem tagged_fatal (message : String) : Tagged [(none, .fatal message)] := by
  intro event hmem
  exact ⟨message, (Prod.mk.inj (List.mem_singleton.1 hmem)).2⟩

/-- Whatever a call does to a channel carries the key of the channel. -/
theorem step_tagged {callbacks : LaneCallbacks} {lane lane' : SequenceRecovery cfg} {call : Call}
    {added : Trace} (h : step callbacks lane call = some (lane', added)) : Tagged added := by
  have hnil : Tagged [] := fun _ hmem => by cases hmem
  cases call with
  | process decoded now =>
    rw [step, process] at h
    split at h
    · obtain ⟨-, rfl⟩ := Prod.mk.inj (Option.some.inj h)
      exact tagged_fatal _
    · exact onChannel_tagged h
  | poll now =>
    rw [step, poll] at h
    split_ifs at h
    · obtain ⟨-, rfl⟩ := Prod.mk.inj (Option.some.inj h)
      exact hnil
    · obtain rfl := (Prod.mk.inj (Option.some.inj h)).2
      exact afterTurns_tagged lane 0 _
  | flush now =>
    obtain ⟨turns, -, heq⟩ := Option.map_eq_some_iff.1 h
    obtain rfl := congrArg Prod.snd heq
    exact afterTurns_tagged lane lane.nextDeadlineNs turns
  | freezeDecodeFailure key sequence now =>
    rw [step, freezeDecodeFailure] at h
    split_ifs at h
    · obtain ⟨-, rfl⟩ := Prod.mk.inj (Option.some.inj h)
      exact hnil
    · split at h
      · obtain ⟨-, rfl⟩ := Prod.mk.inj (Option.some.inj h)
        exact tagged_fatal _
      · exact onChannel_tagged h

section Run

variable {calls : List (Call × LaneCallbacks)} {lane : SequenceRecovery cfg} {trace : Trace}

/-- So are the events of a run. -/
theorem runWith_tagged (h : runWith cfg calls = some (lane, trace)) : Tagged trace := by
  induction calls using List.reverseRecOn generalizing lane trace with
  | nil =>
    cases h
    exact fun _ hmem => by cases hmem
  | append_singleton calls c ih =>
    obtain ⟨lane', trace', added, hrun, hcall, rfl⟩ := runWith_snoc.1 h
    intro event hmem
    rcases List.mem_append.1 hmem with hold | hnew
    · exact ih hrun event hold
    · exact step_tagged hcall event hnew

theorem mem_of_iff {key : ChannelKey} {event : Event} :
    event ∈ trace.of key ↔ (some key, event) ∈ trace := by
  unfold Trace.of
  rw [List.mem_filterMap]
  constructor
  · rintro ⟨⟨key', event'⟩, hmem, hsome⟩
    split_ifs at hsome with hkey
    obtain rfl := Option.some.inj hsome
    obtain rfl : key' = some key := hkey
    exact hmem
  · intro hmem
    exact ⟨_, hmem, if_pos rfl⟩

/-- `DecodeTick` returned the record for a call of `Process`. -/
def Processed (calls : List (Call × LaneCallbacks)) (record : TickDecodeResult) : Prop :=
  ∃ decoded : DecodedTick, ∃ now, .process decoded now ∈ calls.map Prod.fst ∧
    decoded.toTickDecodeResult = record

theorem processed_of_received {key : ChannelKey} {record : TickDecodeResult}
    (h : record ∈ received key (calls.map Prod.fst)) :
    Processed calls record ∧ record.key = key := by
  obtain ⟨call, hcall, hhand⟩ := List.mem_filterMap.1 h
  obtain ⟨op, hon, hr⟩ := Option.bind_eq_some_iff.1 hhand
  obtain ⟨decoded, rfl, hkey, -⟩ := hand_of_on hon hr
  refine ⟨?_, hkey⟩
  cases call with
  | process decoded' now =>
    rw [Call.on] at hon
    split_ifs at hon
    obtain rfl := Option.some.inj hon
    exact ⟨decoded', now, hcall, Option.some.inj hr⟩
  | poll now => cases hon; cases hr
  | flush now => cases hon; cases hr
  | freezeDecodeFailure key' sequence now =>
    rw [Call.on] at hon
    split_ifs at hon
    obtain rfl := Option.some.inj hon
    cases hr

theorem body_channelKey {tick tick' : CanonicalTick} (h : body tick = body tick') :
    tick.channelKey = tick'.channelKey :=
  show (body tick).channelKey = (body tick').channelKey from congrArg _ h

theorem body_nativeSequence {tick tick' : CanonicalTick} (h : body tick = body tick') :
    tick.common.nativeSequence = tick'.common.nativeSequence :=
  show (body tick).common.nativeSequence = (body tick').common.nativeSequence from
    congrArg (·.common.nativeSequence) h

/-- What goes through `EmitOne` is a record that was processed, on the channel of its tick. -/
theorem consumed_of_runWith (hgap : GapsTaken calls)
    (h : runWith cfg calls = some (lane, trace)) {key : Option ChannelKey} {slot : PendingSlot}
    {tick : CanonicalTick} {accepted : Bool} (hmem : (key, .consumed slot tick accepted) ∈ trace) :
    key = some tick.channelKey ∧ body tick = body slot.tick ∧
      ∃ record, Processed calls record ∧ slot = slotOf record := by
  rcases key with - | key
  · obtain ⟨message, hfatal⟩ := runWith_tagged h _ hmem
    cases hfatal
  · obtain ⟨-, -, hsourced, hintact⟩ := runWith_keep_of key
      (P := fun _ => True) (Q := fun record => Processed calls record ∧ record.key = key)
      (I := fun _ c => Sourced (fun slot => ∃ record, Processed calls record ∧
        record.key = key ∧ slot = slotOf record) c ∧ Intact c.events)
      ⟨⟨by simp [ChannelState.fresh], (fun _ hr => by cases hr), fun _ _ _ he => by cases he⟩,
        by simp [Intact]⟩
      (fun decoded hkey hreceived hI => ⟨⟨hI.1.held, fun r hr => by
        obtain rfl := Option.some.inj hr
        exact ⟨_, hreceived.1, hkey, rfl⟩, hI.1.consumed⟩, hI.2⟩)
      (fun _ hs _ hI => ⟨step_sourced hs hI.1, step_intact hs hI.2⟩) hgap (fun _ _ _ => trivial)
      (fun _ => processed_of_received) h
    have hmem' := mem_of_iff.2 hmem
    obtain ⟨record, hprocessed, hkey, rfl⟩ := hsourced.consumed _ _ _ hmem'
    have hbody : body tick = body record.tick := hintact.1 _ _ _ hmem'
    have hchannel : tick.channelKey = record.key := body_channelKey hbody
    exact ⟨by rw [hchannel, hkey], hbody, record, hprocessed, rfl⟩

/-- A tick that is emitted is a record that was processed and that the catalog has, but for what
the recovery writes into it. -/
theorem mem_emitted (hgap : GapsTaken calls) (h : runWith cfg calls = some (lane, trace))
    {tick : CanonicalTick} {accepted : Bool} (hmem : (tick, accepted) ∈ emitted trace) :
    ∃ record, Processed calls record ∧ record.catalogMatch = true ∧
      body tick = body record.tick := by
  obtain ⟨⟨key, event⟩, hevent, hsome⟩ := List.mem_filterMap.1 hmem
  cases event with
  | consumed slot tick' accepted' =>
    dsimp only at hsome
    split_ifs at hsome with hemit
    obtain ⟨rfl, rfl⟩ := Prod.mk.inj (Option.some.inj hsome)
    obtain ⟨-, hbody, record, hprocessed, rfl⟩ := consumed_of_runWith hgap h hevent
    exact ⟨record, hprocessed, hemit, hbody⟩
  | _ => cases hsome

/-- The ticks of a channel that are taken, among all that a lane emits. -/
def takenOn (key : ChannelKey) (trace : Trace) : List CanonicalTick :=
  (QueueMatrix.accepted (emitted trace)).filter (·.channelKey = key)

/-- The ticks that are taken are among the records that are consumed, in the same order. -/
theorem takenOn_sublist (key : ChannelKey) : ∀ {trace : Trace},
    (∀ tagged slot tick accepted, (tagged, Event.consumed slot tick accepted) ∈ trace →
      tagged = some tick.channelKey ∧ tick.common.nativeSequence = slot.nativeSequence) →
    ((takenOn key trace).map fun tick => tick.common.nativeSequence).Sublist
      (consumedOf (Trace.of trace key))
  | [], _ => List.Sublist.refl _
  | (tagged, event) :: trace, h => by
    have ih := takenOn_sublist key fun tagged slot tick accepted hmem =>
      h tagged slot tick accepted (List.mem_cons_of_mem _ hmem)
    have hskip : (consumedOf (Trace.of trace key)).Sublist
        (consumedOf (Trace.of ([(tagged, event)] ++ trace) key)) := by
      rw [Trace.of_append, consumedOf_append]
      exact List.sublist_append_right ..
    cases event with
    | consumed slot tick accepted =>
      obtain ⟨rfl, hsequence⟩ := h _ slot tick accepted List.mem_cons_self
      by_cases htaken : slot.emit = true ∧ accepted = true ∧ tick.channelKey = key
      · obtain ⟨hemit, rfl, rfl⟩ := htaken
        simpa [takenOn, emitted, QueueMatrix.accepted, hemit, Trace.of, consumedOf, hsequence]
          using ih
      · have hnot : takenOn key ((some tick.channelKey, .consumed slot tick accepted) :: trace) =
            takenOn key trace := by
          cases hemit : slot.emit <;> cases accepted <;>
            simp_all [takenOn, emitted, QueueMatrix.accepted]
        rw [hnot]
        exact ih.trans hskip
    | _ => exact ih.trans hskip

/-- Of every channel, the ticks that are taken ascend. -/
theorem emitted_ascending (hgap : GapsTaken calls) (h : runWith cfg calls = some (lane, trace))
    (key : ChannelKey) :
    ((takenOn key trace).map fun tick => tick.common.nativeSequence).Pairwise (· < ·) := by
  have hconsumed : (consumedOf (trace.of key)).Pairwise (· < ·) := by
    obtain ⟨-, -, hascending⟩ := runWith_keep key (P := fun _ => True) (I := fun _ c => Ascending c)
      (ascending_fresh cfg key) (fun _ _ hc => hc.quiet rfl id le_rfl)
      (fun _ hs _ hc => step_ascending hs hc) hgap (fun _ _ _ => trivial) h
    exact hascending.increasing
  refine hconsumed.sublist (takenOn_sublist key fun tagged slot tick accepted hmem => ?_)
  obtain ⟨htag, hbody, -⟩ := consumed_of_runWith hgap h hmem
  exact ⟨htag, body_nativeSequence hbody⟩

end Run

end SequenceRecovery

end L2Flow
