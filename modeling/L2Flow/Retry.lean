import L2Flow.Reorder

/-!
# The retry loop

A record above the frontier may find its slot held by a record at another position. The
loop of `ProcessActive` then commits a gap, which frees a slot or moves the frontier to
the record, and looks at the record again. However often it does, the record in hand is
never passed over : the drain stops below a position that is not retained, and the record
itself is the only one at its position. So it ends consumed or retained, and so does every
record that was retained before (`collision_retry`). A record is late exactly when it was
behind the frontier as the loop began.
-/

namespace L2Flow

variable {cfg : RecoveryConfig}

namespace SequenceRecovery

/-! ## Events of a loop that passes nothing over -/

/-- The event consumes a record, commits a gap or chooses the origin. -/
def Advances : Event → Prop
  | .consumed _ _ accepted => accepted = true
  | .gap _ _ => True
  | .origin _ => True
  | _ => False

/-- Nothing but consumed records, gaps and the origin. -/
def Advancing (events : List Event) : Prop :=
  ∀ event ∈ events, Advances event

theorem advancing_nil : Advancing [] :=
  fun _ h => absurd h List.not_mem_nil

theorem Advancing.log {fx : Effects} (h : Advancing fx.events) {event : Event}
    (hevent : Advances event) : Advancing (fx.log event).events := by
  intro e he
  rw [Effects.log_events, List.mem_append, List.mem_singleton] at he
  rcases he with he | rfl
  · exact h e he
  · exact hevent

/-- Nothing in an advancing list is late, a duplicate or a fault. -/
theorem Advancing.nothing_else {events : List Event} (h : Advancing events) :
    lateOf events = [] ∧ duplicatesOf events = [] ∧ faultsOf events = [] := by
  refine ⟨List.filterMap_eq_nil_iff.2 fun event he => ?_,
    List.filterMap_eq_nil_iff.2 fun event he => ?_,
    List.filterMap_eq_nil_iff.2 fun event he => ?_⟩ <;>
  · have hevent := h event he
    cases event <;> first | rfl | exact absurd hevent id

theorem advancing_drain (now : ℕ) {s : ChannelState cfg × Effects} (h : Advancing s.2.events) :
    Advancing (drainContiguous .succeed now s).2.events := by
  refine Loop.run_rel
    (I := fun s : ChannelState cfg × Effects => Advancing s.2.events)
    (R := fun _ r : ChannelState cfg × Effects => Advancing r.2.events)
    ?_ ?_ (fun _ _ _ _ _ hr => hr) h
  · rintro ⟨state, fx⟩ s' hs hb
    rcases hf : find state state.expected with - | slot
    · obtain ⟨g, fx', -, he⟩ := drainBody_none .succeed now fx hf
      simp [he] at hb
    · rcases drainBody_some .succeed now fx hf with he | ⟨-, hrefused, -⟩
      · rw [he] at hb
        obtain rfl := Pass.again.inj hb
        exact Advancing.log hs rfl
      · cases hrefused
  · rintro ⟨state, fx⟩ r hs hb
    rcases hf : find state state.expected with - | slot
    · obtain ⟨g, fx', hfx, he⟩ := drainBody_none .succeed now fx hf
      rw [he] at hb
      obtain rfl := Pass.done.inj hb
      show Advancing fx'.events
      rwa [hfx]
    · rcases drainBody_some .succeed now fx hf with he | ⟨-, hrefused, -⟩
      · simp [he] at hb
      · cases hrefused

theorem advancing_forceGap (now : ℕ) {state : ChannelState cfg} {fx : Effects} (hs : state.Ready)
    (h : Advancing fx.events) :
    Advancing (forceGapToMinimum .succeed now (state, fx)).2.events := by
  by_cases hc : state.pendingCount = 0
  · rw [forceGapToMinimum, if_pos hc]
    exact h
  · rw [forceGapToMinimum_eq (fun _ => rfl) now fx hs hc]
    exact advancing_drain now (h.log trivial)

theorem live_forceGap (now : ℕ) {state : ChannelState cfg} (fx : Effects) (hs : state.Ready) :
    (forceGapToMinimum .succeed now (state, fx)).1.frozen = false := by
  obtain ⟨-, hready⟩ : Reaches .succeed none none _ _ ∧
      (forceGapToMinimum .succeed now (state, fx)).1.Ready :=
    forceGapToMinimum_steps (fun _ => rfl) now fx hs none (fun _ h => by cases h)
  exact hready.live

theorem live_drain (now : ℕ) {state : ChannelState cfg} (fx : Effects) (hs : state.Active) :
    (drainContiguous .succeed now (state, fx)).1.frozen = false :=
  (drainContiguous_steps .succeed now (state, fx) hs none).2.live

theorem advancing_finishDiscovery (now : ℕ) {state : ChannelState cfg} {fx : Effects}
    (h : Advancing fx.events) :
    Advancing (finishDiscovery .succeed now (state, fx)).2.events := by
  rw [finishDiscovery]
  split_ifs
  · exact h
  · exact advancing_drain now (h.log trivial)

/-! ## The loop -/

section Loop

variable {decoded : TickDecodeResult} {now : ℕ}

theorem advancing_again {s s' : ChannelState cfg × Effects} (hs : s.1.Ready)
    (h : Advancing s.2.events) (hb : activeBody .succeed decoded now s = .again s') :
    Advancing s'.2.events := by
  obtain ⟨state, fx⟩ := s
  cases nextPass (fun _ => rfl) hb with
  | below => exact Advancing.log h trivial
  | above => exact advancing_forceGap now hs h

/-- The last pass consumes or retains a record that is ahead. -/
theorem advancing_done (hr : InRange decoded.nativeSequence) {s r : ChannelState cfg × Effects}
    (hs : s.1.Ready) (ha : Ahead decoded s.1) (h : Advancing s.2.events)
    (hb : activeBody .succeed decoded now s = .done r) :
    Advancing r.2.events ∧ r.1.frozen = false := by
  obtain ⟨state, fx⟩ := s
  obtain ⟨-, hevents⟩ := openGap_eq now (retain state (slotOf decoded)) fx
  have hadv : Advancing (openGap now (retain state (slotOf decoded)) fx).2.events := by
    rwa [hevents]
  have hopened : state.expected < decoded.nativeSequence →
      state.pending.occupant decoded.nativeSequence = none →
      (openGap now (retain state (slotOf decoded)) fx).1.Ready := by
    intro lt free
    obtain ⟨-, hopen⟩ : Reaches .succeed none none _ _ ∧ _ :=
      openGap_steps now fx (ready_retain hs hr free lt) none
    exact hopen
  cases lastPass (fun _ => rfl) hb with
  | behind lt => exact absurd lt (not_lt.2 ha.le)
  | next =>
    have hactive : (consume state (slotOf decoded) true).Active :=
      ⟨hs.live, hs.active, ⟨hs.sound.count, hs.sound.inRange, fun _ => hs.settled⟩⟩
    exact ⟨advancing_drain now (h.log rfl), live_drain now _ hactive⟩
  | refused position listed refused => cases refused
  | far lt free =>
    have hready := ready_retain hs hr free lt
    exact ⟨advancing_forceGap now hready h, live_forceGap now fx hready⟩
  | unwaited lt free =>
    exact ⟨advancing_forceGap now (hopened lt free) hadv, live_forceGap now _ (hopened lt free)⟩
  | near lt free => exact ⟨hadv, (hopened lt free).live⟩
  | duplicate lt held position => exact absurd position (ha.alone _ held)
  | freeze lt held position => exact absurd position (ha.alone _ held)
  | divert lt held position => exact absurd position (ha.alone _ held)

/-- However many passes it makes, the loop passes nothing over while the record is ahead. -/
theorem advancing_processActive (hr : InRange decoded.nativeSequence)
    {s r : ChannelState cfg × Effects} (hs : s.1.Ready) (ha : Ahead decoded s.1)
    (h : Advancing s.2.events) (hp : processActive .succeed decoded now s = some r) :
    Advancing r.2.events ∧ r.1.frozen = false := by
  refine Loop.iterate_keep (I := fun s : ChannelState cfg × Effects =>
      s.1.Ready ∧ Ahead decoded s.1 ∧ Advancing s.2.events)
    (Q := fun r => Advancing r.2.events ∧ r.1.frozen = false) ?_ ?_ ⟨hs, ha, h⟩ hp
  · rintro s s' - ⟨hs, ha, h⟩ hb
    obtain ⟨hreach, hready, -⟩ := activeBody_again (fun _ => rfl) hs hb
    exact ⟨hready, hreach.ahead ha, advancing_again hs h hb⟩
  · rintro s r - ⟨hs, ha, h⟩ hb
    exact advancing_done hr hs ha h hb

end Loop

/-! ## Where the loop begins -/

/-- The state `Process` calls `ProcessActive` in, if it does. -/
def activeEntry (callbacks : Callbacks) (decoded : TickDecodeResult) (now : ℕ)
    (state : ChannelState cfg) : Option (ChannelState cfg × Effects) :=
  if state.frozen then none
  else if cfg.mode = .kPartial ∧ state.discovering then
    if (insert state decoded).1 = .kCollision then some (finishDiscovery callbacks now (state, {}))
    else none
  else some (state, {})

/-- The loop begins on an active channel as it is, and on a discovering one whose slot for
the record is taken after the end of the discovery. -/
theorem activeEntry_cases {callbacks : Callbacks} {decoded : TickDecodeResult} {now : ℕ}
    {state : ChannelState cfg} {s : ChannelState cfg × Effects}
    (h : activeEntry callbacks decoded now state = some s) :
    state.frozen = false ∧
      (¬(cfg.mode = .kPartial ∧ state.discovering = true) ∧ s = (state, {}) ∨
        (cfg.mode = .kPartial ∧ state.discovering = true) ∧
          insert state decoded = (.kCollision, state) ∧
          s = finishDiscovery callbacks now (state, {})) := by
  unfold activeEntry at h
  split_ifs at h with hf hd hi
  · refine ⟨Bool.eq_false_iff.2 hf, Or.inr ⟨hd, ?_, (Option.some.inj h).symm⟩⟩
    rcases insert_cases state decoded with
      ⟨-, he⟩ | ⟨slot, -, ⟨-, he⟩ | ⟨-, -, he⟩ | ⟨-, -, he⟩⟩ <;> rw [he] at hi <;>
      first | exact he | cases hi
  · exact ⟨Bool.eq_false_iff.2 hf, Or.inl ⟨hd, (Option.some.inj h).symm⟩⟩

theorem processChannel_of_entry {callbacks : Callbacks} {decoded : TickDecodeResult} {now : ℕ}
    {state : ChannelState cfg} {s : ChannelState cfg × Effects}
    (h : activeEntry callbacks decoded now state = some s) :
    processChannel callbacks decoded now state = processActive callbacks decoded now s := by
  obtain ⟨hf, ⟨hd, rfl⟩ | ⟨hd, hi, rfl⟩⟩ := activeEntry_cases h
  · rw [processChannel, hf, if_neg Bool.false_ne_true, if_neg hd]
  · rw [processChannel_discovering hf hd.2 hd.1, hi]

/-- The loop begins in a settled state, after nothing but the end of the discovery. -/
theorem entry_steps {decoded : TickDecodeResult} {now : ℕ} {state : ChannelState cfg}
    (hs : state.Resting) {s : ChannelState cfg × Effects}
    (h : activeEntry .succeed decoded now state = some s) :
    Reaches .succeed none none (state, {}) s ∧ s.1.Ready ∧ Advancing s.2.events ∧
      gapsOf s.2.events = [] := by
  obtain ⟨hf, ⟨hd, rfl⟩ | ⟨hd, hi, rfl⟩⟩ := activeEntry_cases h
  · have hactive : state.discovering = false :=
      Bool.eq_false_iff.2 fun htrue => hd ⟨hs.discovering_mode htrue, htrue⟩
    exact ⟨Reaches.refl _ _ _, hs.ready hf hactive, advancing_nil, rfl⟩
  · have hcount : state.pendingCount ≠ 0 := by
      rcases insert_cases state decoded with ⟨-, he⟩ | ⟨slot, ho, -⟩
      · rw [hi] at he
        cases congrArg Prod.fst he
      · exact pendingCount_ne_zero hs.sound (DirectMapped.mem_of_occupant ho).1
    obtain ⟨hreach, hready⟩ :=
      finishDiscovery_steps .succeed now {} hs.sound hf hd.2 hcount none
    exact ⟨hreach, hready, advancing_finishDiscovery now advancing_nil,
      gapsOf_finishDiscovery .succeed now state {}⟩

/-- A record behind the frontier is diverted in the first pass. -/
theorem late_of_behind {decoded : TickDecodeResult} {now : ℕ} {state : ChannelState cfg}
    {s : ChannelState cfg × Effects} (h : activeEntry .succeed decoded now state = some s)
    (hlt : decoded.nativeSequence < s.1.expected) :
    processChannel .succeed decoded now state = some (s.1, s.2.log
      (.late decoded (lateRecord s.1 decoded .kBehindCommittedFrontier) true)) := by
  rw [processChannel_of_entry h, processActive, passes, Loop.iterate_done (activeBody_behind hlt)]
  rfl

/-- A record at or above the frontier is not late as behind it. -/
theorem not_late_of_le {decoded : TickDecodeResult} (hr : InRange decoded.nativeSequence) {now : ℕ}
    {state : ChannelState cfg} (hs : state.Resting) {s r : ChannelState cfg × Effects}
    (h : activeEntry .succeed decoded now state = some s)
    (hle : s.1.expected ≤ decoded.nativeSequence)
    (hp : processChannel .succeed decoded now state = some r) :
    ∀ d record ok, Event.late d record ok ∈ r.2.events →
      record.reason = .kPendingCanonicalConflict := by
  obtain ⟨-, hready, hadv, -⟩ := entry_steps hs h
  rw [processChannel_of_entry h] at hp
  by_cases halone : ∀ slot ∈ s.1.pending, slot.nativeSequence ≠ decoded.nativeSequence
  · have hadv' := (advancing_processActive hr hready ⟨hready.active, hle, halone⟩ hadv hp).1
    exact fun d record ok hmem => absurd (hadv' _ hmem) id
  · -- a record is retained at its position, so the first pass tells the two apart
    push Not at halone
    obtain ⟨slot, held, position⟩ := halone
    obtain ⟨state', fx⟩ := s
    intro d record ok hmem
    rcases processActive_retained hready held position hp with ⟨-, rfl⟩ | ⟨-, rfl⟩
    · simp only [Effects.log_events, List.mem_append, List.mem_singleton, reduceCtorEq,
        or_false] at hmem
      exact absurd (hadv _ hmem) id
    · split_ifs at hmem with hmode
      · rw [freezeFromOpen, hready.live, if_neg Bool.false_ne_true] at hmem
        have hmem' : Event.late d record ok ∈ fx.events ++ [.fault _ true] := hmem
        simp only [List.mem_append, List.mem_singleton, reduceCtorEq, or_false] at hmem'
        exact absurd (hadv _ hmem') id
      · have hmem' : Event.late d record ok ∈ fx.events ++
            [.late decoded (lateRecord state' decoded .kPendingCanonicalConflict) true] := hmem
        rw [List.mem_append, List.mem_singleton] at hmem'
        rcases hmem' with hmem' | heq
        · exact absurd (hadv _ hmem') id
        · cases heq
          rfl

/-! ## Runs -/

/-- What a call settles on a channel that stays live comes from what the channel retained
and the record in hand. -/
theorem ledger_processChannel {decoded : TickDecodeResult} (hr : InRange decoded.nativeSequence)
    {now : ℕ} {state : ChannelState cfg} {r : ChannelState cfg × Effects} (hs : state.Resting)
    (h : processChannel .succeed decoded now state = some r) (live : r.1.frozen = false) :
    settledOf r.2.events + r.1.pending.values = {slotOf decoded} + state.pending.values := by
  obtain ⟨hreach, -⟩ := processChannel_steps (fun _ => rfl) hr hs h
  have hkeep : r.1.frozen = false → ledger ⟨r.1, none, r.2.events⟩ =
      ledger ⟨state, some decoded, []⟩ :=
    Steps.keep (I := fun c => c.state.frozen = false → ledger c =
        ledger ⟨state, some decoded, []⟩)
      (fun hstep hc live => by
        obtain ⟨hlive, heq⟩ := ledger_step (fun _ => rfl) hstep live
        exact heq.trans (hc hlive))
      (hreach []) (fun _ => rfl)
  have hledger := hkeep live
  simp only [ledger, Option.toList_none, Option.toList_some, List.map_nil, List.map_cons,
    Multiset.coe_nil, add_zero, Multiset.coe_singleton] at hledger
  have hnil : settledOf [] = 0 := rfl
  rw [hledger, hnil, zero_add, add_comm]

/-- The ticks a channel dispatches are among what it consumes, in order. -/
theorem ticksOf_sublist {events : List Event} (h : Advancing events) (hi : Intact events) :
    ((ticksOf events).map fun tick => tick.common.nativeSequence).Sublist (consumedOf events) := by
  induction events with
  | nil => exact List.Sublist.slnil
  | cons event events ih =>
    have htail := ih (fun e he => h e (List.mem_cons_of_mem _ he))
      ⟨fun slot tick ok hmem => hi.1 slot tick ok (List.mem_cons_of_mem _ hmem),
        fun decoded record ok hmem => hi.2 decoded record ok (List.mem_cons_of_mem _ hmem)⟩
    have hevent := h event List.mem_cons_self
    cases event with
    | consumed slot tick accepted =>
      obtain rfl : accepted = true := hevent
      have hbody := hi.1 slot tick true List.mem_cons_self
      have hnative : tick.common.nativeSequence = slot.nativeSequence :=
        by
        simpa [body, PendingSlot.nativeSequence] using
          congrArg (fun t => t.common.nativeSequence) hbody
      cases hemit : slot.emit with
      | true =>
        have hticks : ticksOf (.consumed slot tick true :: events) = tick :: ticksOf events := by
          simp [ticksOf, hemit]
        rw [hticks, List.map_cons, hnative]
        exact htail.cons_cons slot.nativeSequence
      | false =>
        have hticks : ticksOf (.consumed slot tick true :: events) = ticksOf events := by
          simp [ticksOf, hemit]
        rw [hticks]
        exact htail.cons slot.nativeSequence
    | gap record ok => exact htail
    | origin sequence => exact htail
    | _ => exact absurd hevent id

/-- After every run whose callbacks succeed, a call of `Process` on a channel that has or
finds its place : a record above the frontier whose slot is taken by another position is
consumed or retained, once, as is every record retained before; nothing is diverted,
dropped or taken for a repetition, and what is dispatched ascends. And wherever
`ProcessActive` begins, the record is late as behind the frontier exactly if it is behind
it there; the late record carries that frontier and the number of gaps committed. -/
theorem process_retries (cfg : RecoveryConfig) (calls : List Call) (decoded : DecodedTick)
    (now : ℕ) :
    ∃ lane trace lane' added, run cfg calls = some (lane, trace) ∧
      step (fun _ => .succeed) lane (.process decoded now) = some (lane', added) ∧
      (∀ state, lane.stateOf decoded.key = some state → state.frozen = false →
        state.discovering = false → state.expected < decoded.nativeSequence →
        Collides state decoded.nativeSequence →
          ∃ state', lane'.stateOf decoded.key = some state' ∧
            (↑(dispatchedOf (added.of decoded.key)) + ↑(tokensOf (added.of decoded.key)) +
              state'.pending.values : Multiset PendingSlot) =
                {slotOf decoded.toTickDecodeResult} + state.pending.values ∧
            state'.frozen = false ∧ lateOf (added.of decoded.key) = [] ∧
            duplicatesOf (added.of decoded.key) = [] ∧ faultsOf (added.of decoded.key) = [] ∧
            ((ticksOf (added.of decoded.key)).map
              fun tick => tick.common.nativeSequence).Pairwise (· < ·)) ∧
      (¬Shut lane decoded.key → ∀ entry,
        activeEntry .succeed decoded.toTickDecodeResult now
          (stateD decoded.key (lane.stateOf decoded.key)) = some entry →
        ((∃ d record ok, Event.late d record ok ∈ added.of decoded.key ∧
            record.reason = .kBehindCommittedFrontier) ↔
          decoded.nativeSequence < entry.1.expected) ∧
        ∀ d record ok, Event.late d record ok ∈ added.of decoded.key →
          record.reason = .kBehindCommittedFrontier →
          d = decoded.toTickDecodeResult ∧ record.committedNextSequence = entry.1.expected ∧
            record.observedGapEpoch = (gapsOf (trace.of decoded.key)).length) := by
  obtain ⟨lane, trace, h⟩ := exists_run cfg calls
  have hv := valid_of_run h
  obtain ⟨lane', added, hstep⟩ := exists_step_succeed hv (.process decoded now)
  have hrun : run cfg (calls ++ [.process decoded now]) = some (lane', trace ++ added) :=
    run_snoc.2 ⟨lane, trace, added, h, hstep, rfl⟩
  have hsettled := (hv.placed decoded.key).resting.1
  refine ⟨lane, trace, lane', added, h, hstep, ?_, ?_⟩
  · intro state hstate live active hlt hcollides
    obtain ⟨r, hr, hafter, hevents⟩ := processed_of_step hv hstep
      fun hshut => by cases hstate.symm.trans hshut.1
    rw [hstate, stateD, Option.getD_some] at hr hsettled
    have hready := hsettled.ready live active
    obtain ⟨slot, ho, hne⟩ := hcollides
    have halone : ∀ slot' ∈ state.pending,
        slot'.nativeSequence ≠ decoded.toTickDecodeResult.nativeSequence := by
      intro slot' hslot' heq
      have hocc : state.pending.occupant decoded.toTickDecodeResult.nativeSequence = some slot' :=
        heq ▸ DirectMapped.mem_def.1 hslot'
      rw [hocc] at ho
      obtain rfl := Option.some.inj ho
      exact hne heq
    rw [processChannel_active live active] at hr
    obtain ⟨hadv, hlive⟩ := advancing_processActive (DecodedTick.inRange decoded) hready
      ⟨active, hlt.le, halone⟩ advancing_nil hr
    obtain ⟨hlate, hdup, hfault⟩ := hadv.nothing_else
    rw [← processChannel_active live active] at hr
    have hledger := ledger_processChannel (DecodedTick.inRange decoded) hsettled hr hlive
    rw [settledOf, hlate, hdup, Multiset.coe_nil, add_zero, add_zero] at hledger
    rw [hevents]
    refine ⟨r.1, hafter, hledger, hlive, hlate, hdup, hfault, ?_⟩
    obtain ⟨hreach, -⟩ := processChannel_steps (fun _ => rfl) (DecodedTick.inRange decoded)
      hsettled hr
    have hnil : Intact [] := by simp [Intact]
    have hintact : Intact r.2.events :=
      Steps.keep (I := fun c => Intact c.events) step_intact (hreach []) hnil
    have hascending := (tiled_of_run hrun decoded.key).increasing
    rw [Trace.of_append, consumedOf_append, hevents, List.pairwise_append] at hascending
    exact (List.Pairwise.sublist (ticksOf_sublist hadv hintact) hascending.2.1)
  · intro hopen entry hentry
    obtain ⟨r, hr, -, hevents⟩ := processed_of_step hv hstep hopen
    obtain ⟨hreach, -, hadv, hgaps⟩ := entry_steps hsettled hentry
    have hbefore : Tiled ⟨stateD decoded.key (lane.stateOf decoded.key), none,
        trace.of decoded.key ++ []⟩ := by
      rw [List.append_nil]
      exact tiled_of_run h decoded.key
    have hepoch : entry.1.gapEpoch = (gapsOf (trace.of decoded.key)).length := by
      have htiled : Tiled ⟨entry.1, none, trace.of decoded.key ++ entry.2.events⟩ :=
        (Steps.keep (I := fun c => c.Sound ∧ Tiled c)
          (fun hs hc => ⟨step_sound hs hc.1, step_tiled (fun _ => rfl) hs hc.1 hc.2⟩)
          (hreach (trace.of decoded.key)) ⟨⟨hsettled.sound, fun r hr => by cases hr⟩, hbefore⟩).2
      rw [htiled.epoch, gapRanges, List.length_map, gapsOf_append, hgaps, List.append_nil]
    rw [hevents]
    rcases Nat.lt_or_ge decoded.nativeSequence entry.1.expected with hlt | hle
    · rw [late_of_behind hentry hlt] at hr
      obtain rfl := Option.some.inj hr
      refine ⟨⟨fun _ => hlt, fun _ => ⟨_, _, _, List.mem_append_right _
        (List.mem_singleton_self _), rfl⟩⟩, fun d record ok hmem _ => ?_⟩
      rw [Effects.log_events, List.mem_append, List.mem_singleton] at hmem
      rcases hmem with hmem | heq
      · exact absurd (hadv _ hmem) id
      · cases heq
        exact ⟨rfl, rfl, hepoch⟩
    · have hnone := not_late_of_le (DecodedTick.inRange decoded) hsettled hentry hle hr
      have hother : ∀ d record ok, .late d record ok ∈ r.2.events →
          record.reason ≠ .kBehindCommittedFrontier := by
        intro d record ok hmem hreason
        rw [hnone d record ok hmem] at hreason
        cases hreason
      refine ⟨⟨?_, fun hlt => absurd hlt (not_lt.2 hle)⟩, fun d record ok hmem hreason =>
        absurd hreason (hother d record ok hmem)⟩
      rintro ⟨d, record, ok, hmem, hreason⟩
      exact absurd hreason (hother d record ok hmem)

end SequenceRecovery

end L2Flow
