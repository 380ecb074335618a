import L2Flow.Frontier
import L2Flow.Conservation

/-!
# Records within the reorder window

A record above the frontier by no more than `maximum_reorder_span` is retained, and no gap
is committed, if its slot is free. The slot of such a record can be held only by the
record itself or by one beyond the window (`beyond_of_collision`), which an earlier call
left there. A gap is committed by an expired gap timer, by `Flush`, by a record beyond the
span, and by a record that finds its slot held by another (`gap_causes`).
-/

namespace L2Flow

variable {cfg : RecoveryConfig}

namespace SequenceRecovery

/-! ## Slots of the window -/

/-- `sequence` is above the frontier by no more than the reorder span. -/
def InWindow (state : ChannelState cfg) (sequence : ℕ) : Prop :=
  state.expected < sequence ∧ sequence ≤ state.expected + cfg.maximumReorderSpan

/-- The slot of `sequence` is held by a record at another position. -/
def Collides (state : ChannelState cfg) (sequence : ℕ) : Prop :=
  ∃ slot, state.pending.occupant sequence = some slot ∧ slot.nativeSequence ≠ sequence

theorem not_collides_of_free {state : ChannelState cfg} {sequence : ℕ}
    (free : state.pending.occupant sequence = none) : ¬Collides state sequence := by
  rintro ⟨slot, ho, -⟩
  rw [free] at ho
  cases ho

/-- A record at the same position is the occupant of the slot. -/
theorem not_collides_of_held {state : ChannelState cfg} {slot : PendingSlot} {sequence : ℕ}
    (held : slot ∈ state.pending) (position : slot.nativeSequence = sequence) :
    ¬Collides state sequence := by
  subst position
  rintro ⟨slot', ho, hne⟩
  rw [DirectMapped.mem_def.1 held] at ho
  obtain rfl := Option.some.inj ho
  exact hne rfl

theorem alone_of_collides {state : ChannelState cfg} {sequence : ℕ}
    (h : Collides state sequence) : ∀ slot ∈ state.pending, slot.nativeSequence ≠ sequence :=
  fun _ held position => not_collides_of_held held position h

/-- Only a record beyond the window can hold the slot of another in the window. -/
theorem beyond_of_collision {state : ChannelState cfg} (hs : state.Ready) {sequence : ℕ}
    (hwindow : InWindow state sequence) {slot : PendingSlot}
    (ho : state.pending.occupant sequence = some slot) (hne : slot.nativeSequence ≠ sequence) :
    state.expected + cfg.maximumReorderSpan < slot.nativeSequence := by
  obtain ⟨held, hhome⟩ := DirectMapped.mem_of_occupant ho
  have hahead := hs.settled slot held
  have hspan := cfg.span_le
  obtain ⟨hlow, hhigh⟩ := hwindow
  by_contra hle
  rcases le_total slot.nativeSequence sequence with hord | hord
  · exact hne (eq_of_slotIndex_eq hhome hord (by omega))
  · exact hne (eq_of_slotIndex_eq hhome.symm hord (by omega)).symm

/-! ## What commits no gap -/

/-- A drain commits no gap. -/
theorem gapsOf_drain (callbacks : Callbacks) (now : ℕ) (s : ChannelState cfg × Effects) :
    gapsOf (drainContiguous callbacks now s).2.events = gapsOf s.2.events := by
  refine Loop.run_rel (I := fun _ => True)
    (R := fun s r : ChannelState cfg × Effects => gapsOf r.2.events = gapsOf s.2.events)
    (fun _ _ _ _ => trivial) ?_ ?_ trivial
  · rintro ⟨state, fx⟩ r - hb
    cases hf : find state state.expected with
    | none =>
      obtain ⟨g, fx', hfx, he⟩ := drainBody_none callbacks now fx hf
      rw [he] at hb
      cases hb
      exact congrArg gapsOf hfx
    | some slot =>
      rcases drainBody_some callbacks now fx hf with he | ⟨-, -, he⟩
      · simp [he] at hb
      · rw [he] at hb
        cases hb
        simp [gapsOf]
  · rintro ⟨state, fx⟩ s' r - hb hr
    cases hf : find state state.expected with
    | none =>
      obtain ⟨g, fx', hfx, he⟩ := drainBody_none callbacks now fx hf
      simp [he] at hb
    | some slot =>
      rcases drainBody_some callbacks now fx hf with he | ⟨-, -, he⟩
      · rw [he] at hb
        cases hb
        rw [hr]
        simp [gapsOf]
      · simp [he] at hb

theorem gapsOf_divert (callbacks : Callbacks) (state : ChannelState cfg)
    (decoded : TickDecodeResult) (reason : LateRecoveryReason) (fx : Effects) :
    gapsOf (divertLateRecovery callbacks state decoded reason fx).events = gapsOf fx.events := by
  unfold divertLateRecovery
  dsimp only
  split_ifs <;> simp [gapsOf]

theorem gapsOf_freeze (callbacks : Callbacks) (state : ChannelState cfg)
    (reason : ChannelFaultReason) (sequence now : ℕ) (fx : Effects) :
    gapsOf (freezeFromOpen callbacks state reason sequence now fx).2.events = gapsOf fx.events := by
  unfold freezeFromOpen
  dsimp only
  split_ifs <;> simp [gapsOf]

theorem gapsOf_finishDiscovery (callbacks : Callbacks) (now : ℕ) (state : ChannelState cfg)
    (fx : Effects) :
    gapsOf (finishDiscovery callbacks now (state, fx)).2.events = gapsOf fx.events := by
  unfold finishDiscovery
  dsimp only
  split_ifs
  · rfl
  · rw [gapsOf_drain]
    simp [gapsOf]

/-! ## Near records -/

/-- What `Process` makes of a record in the window whose slot no other record holds : it is
retained and the gap timer starts or goes on, or it repeats or contradicts the record
retained there. -/
inductive NearOutcome (state : ChannelState cfg) (decoded : TickDecodeResult) (now : ℕ) :
    ChannelState cfg → List Event → Prop where
  | retained (free : state.pending.occupant decoded.nativeSequence = none) :
      NearOutcome state decoded now
        { retain state (slotOf decoded) with
          gapOpenNs := if state.gapOpenNs = 0 then now else state.gapOpenNs } []
  | duplicate (same : Repeats state decoded) :
      NearOutcome state decoded now state [.duplicate decoded]
  | frozen (mode : cfg.mode = .kFromOpen) {slot : PendingSlot} (held : slot ∈ state.pending)
      (position : slot.nativeSequence = decoded.nativeSequence)
      (differ : ¬SameRecord slot decoded) :
      NearOutcome state decoded now { state with frozen := true }
        [.fault (faultRecord state .kCanonicalConflict decoded.nativeSequence now) true]
  | diverted (mode : cfg.mode = .kPartial) {slot : PendingSlot} (held : slot ∈ state.pending)
      (position : slot.nativeSequence = decoded.nativeSequence)
      (differ : ¬SameRecord slot decoded) :
      NearOutcome state decoded now state
        [.late decoded (lateRecord state decoded .kPendingCanonicalConflict) true]

theorem openGap_eq (now : ℕ) (state : ChannelState cfg) (fx : Effects) :
    (openGap now state fx).1 =
        { state with gapOpenNs := if state.gapOpenNs = 0 then now else state.gapOpenNs } ∧
      (openGap now state fx).2.events = fx.events := by
  unfold openGap
  split_ifs
  · exact ⟨rfl, rfl⟩
  · exact ⟨rfl, rfl⟩

theorem processChannel_done {callbacks : Callbacks} {decoded : TickDecodeResult} {now : ℕ}
    {state : ChannelState cfg} {r : ChannelState cfg × Effects} (hs : state.Ready)
    (hb : activeBody callbacks decoded now (state, {}) = .done r) :
    processChannel callbacks decoded now state = some r := by
  rw [processChannel_active hs.live hs.active, processActive, passes]
  exact Loop.iterate_done hb _

/-- A record in the window whose slot no other record holds. -/
theorem processChannel_near (hwait : 0 < cfg.gapWaitNs) {decoded : TickDecodeResult} (now : ℕ)
    {state : ChannelState cfg} (hs : state.Ready)
    (hwindow : InWindow state decoded.nativeSequence)
    (hfree : ¬Collides state decoded.nativeSequence) :
    ∃ r, processChannel .succeed decoded now state = some r ∧
      NearOutcome state decoded now r.1 r.2.events := by
  obtain ⟨hlow, hhigh⟩ := hwindow
  rcases insert_cases state decoded with
    ⟨free, hi⟩ | ⟨slot, ho, ⟨hne, -⟩ | ⟨hpos, hsame, hi⟩ | ⟨hpos, hdiff, hi⟩⟩
  · have hb : activeBody .succeed decoded now (state, {}) = _ := activeBody_near hlow hi (by omega)
    rw [if_neg hwait.ne'] at hb
    refine ⟨_, processChannel_done hs hb, ?_⟩
    obtain ⟨hstate, hevents⟩ := openGap_eq now (retain state (slotOf decoded)) {}
    rw [hstate, hevents]
    exact .retained free
  · exact absurd ⟨slot, ho, hne⟩ hfree
  · refine ⟨_, processChannel_done hs (activeBody_duplicate hlow hi), ?_⟩
    exact .duplicate ⟨slot, (DirectMapped.mem_of_occupant ho).1, hpos, hsame⟩
  · have hheld := (DirectMapped.mem_of_occupant ho).1
    have hb : activeBody .succeed decoded now (state, {}) = _ := activeBody_conflict hlow hi
    cases hmode : cfg.mode with
    | kFromOpen =>
      rw [if_pos hmode] at hb
      have hfreeze : freezeFromOpen .succeed state .kCanonicalConflict decoded.nativeSequence now
          {} = ({ state with frozen := true }, Effects.log {} (.fault (faultRecord state
            .kCanonicalConflict decoded.nativeSequence now) true)) := by
        rw [freezeFromOpen, hs.live]
        rfl
      rw [hfreeze] at hb
      exact ⟨_, processChannel_done hs hb, .frozen hmode hheld hpos hdiff⟩
    | kPartial =>
      rw [if_neg (by simp [hmode])] at hb
      exact ⟨_, processChannel_done hs hb, .diverted hmode hheld hpos hdiff⟩

theorem NearOutcome.gapsOf_eq {state state' : ChannelState cfg} {decoded : TickDecodeResult}
    {now : ℕ} {events : List Event} (h : NearOutcome state decoded now state' events) :
    gapsOf events = [] := by
  cases h <;> rfl

/-! ## What commits a gap -/

/-- A gap committed by `Process` is due to a collision or to a record beyond the span. -/
theorem gapCause_process (hwait : 0 < cfg.gapWaitNs) {decoded : TickDecodeResult} {now : ℕ}
    {state : ChannelState cfg} {r : ChannelState cfg × Effects} (hs : state.Resting)
    (h : processChannel .succeed decoded now state = some r) (hgaps : gapsOf r.2.events ≠ []) :
    state.frozen = false ∧ (state.discovering = false → state.expected < decoded.nativeSequence) ∧
      (Collides state decoded.nativeSequence ∨ (state.discovering = false ∧
        state.expected + cfg.maximumReorderSpan < decoded.nativeSequence)) := by
  obtain ⟨firstSeenNs, -, hevents⟩ := openHold_eq now (retain state (slotOf decoded))
  cases processTurn hs h with
  | frozen => exact absurd rfl hgaps
  | active live active loop =>
    have hready := hs.ready live active
    by_contra hno
    refine hgaps ?_
    rcases lt_trichotomy decoded.nativeSequence state.expected with hlt | heq | hlt
    · rw [processChannel_done hready (activeBody_behind hlt)] at h
      obtain rfl := Option.some.inj h
      exact gapsOf_divert _ _ _ _ _
    · rcases activeBody_next .succeed now {} heq with he | ⟨-, hrefused, -⟩
      · rw [processChannel_done hready he] at h
        obtain rfl := Option.some.inj h
        rw [gapsOf_drain]
        rfl
      · cases hrefused
    · simp only [live, active, hlt, true_implies, true_and, not_or, not_lt] at hno
      obtain ⟨r', hr', hnear⟩ := processChannel_near hwait now hready ⟨hlt, hno.2⟩ hno.1
      rw [hr'] at h
      obtain rfl := Option.some.inj h
      exact hnear.gapsOf_eq
  | expired =>
    refine absurd ?_ hgaps
    rw [← Prod.mk.eta (p := openHold now (retain state (slotOf decoded))),
      gapsOf_finishDiscovery, hevents]
    rfl
  | holding =>
    refine absurd ?_ hgaps
    rw [hevents]
    rfl
  | collision live discovering held other =>
    refine ⟨live, fun hd => ?_, Or.inl ⟨_, held, other⟩⟩
    rw [discovering] at hd
    cases hd
  | duplicate => exact absurd rfl hgaps
  | divert => exact absurd (gapsOf_divert _ _ _ _ _) hgaps

/-- A gap committed in a turn of `Poll` is due to an expired gap timer. -/
theorem gapCause_poll {now : ℕ} {state : ChannelState cfg}
    (hgaps : gapsOf (pollChannel .succeed now state).2.events ≠ []) :
    state.frozen = false ∧ state.discovering = false ∧ state.gapOpenNs ≠ 0 ∧
      deadlineReached now state.gapOpenNs cfg.gapWaitNs = true := by
  generalize hturn : pollChannel .succeed now state = r at hgaps
  cases pollTurn hturn with
  | ended => exact absurd (gapsOf_finishDiscovery _ _ _ _) hgaps
  | forced live nonempty active opened reached => exact ⟨live, active, opened, reached⟩
  | _ => exact absurd rfl hgaps

/-- Why a call may commit a gap on a channel. -/
def GapCause (state : ChannelState cfg) : ChannelCall → Prop
  | .process decoded _ =>
    (state.discovering = false → state.expected < decoded.nativeSequence) ∧
      (Collides state decoded.nativeSequence ∨ (state.discovering = false ∧
        state.expected + cfg.maximumReorderSpan < decoded.nativeSequence))
  | .poll now =>
    state.discovering = false ∧ state.gapOpenNs ≠ 0 ∧
      deadlineReached now state.gapOpenNs cfg.gapWaitNs = true
  | .flush _ => True
  | .freezeDecodeFailure _ _ => False

theorem gapCause_channelStep (hwait : 0 < cfg.gapWaitNs) {key : ChannelKey}
    {channel channel' : Option (ChannelState cfg)} {op : ChannelCall} {fx : Effects}
    (hp : Placed key channel) (h : channelStep .succeed key channel op = some (channel', fx))
    (hgaps : gapsOf fx.events ≠ []) :
    (stateD key channel).frozen = false ∧ GapCause (stateD key channel) op := by
  cases channelTurn h with
  | process turn => exact gapCause_process hwait hp.resting.1 turn hgaps
  | absent => exact absurd rfl hgaps
  | poll present =>
    subst present
    exact gapCause_poll hgaps
  | @flush now state r present turn =>
    subst present
    refine ⟨?_, trivial⟩
    by_contra hf
    obtain rfl := flushChannel_frozen (by simpa [stateD] using hf) turn
    exact hgaps rfl
  | ignored => exact absurd rfl hgaps
  | freeze => exact absurd (gapsOf_freeze _ _ _ _ _ _) hgaps

/-! ## Runs -/

/-- In every reachable state of every channel that is neither frozen nor discovering, with
a positive gap wait : the slot of a record in the window is held, if by another record,
by one beyond the window; and if it is not, `Process` commits no gap, and retains the
record or finds it a duplicate or a conflict. And in every run a call that commits a gap
on a channel is a `Flush`, a `Poll` that finds the channel's gap timer expired, or a
`Process` on the channel with a record beyond the span or whose slot another record
holds. -/
theorem gap_causes (cfg : RecoveryConfig) (hwait : 0 < cfg.gapWaitNs) (calls : List Call)
    (call : Call) (key : ChannelKey) :
    ∃ lane trace lane' added, run cfg calls = some (lane, trace) ∧
      step (fun _ => .succeed) lane call = some (lane', added) ∧
      (∀ state (decoded : DecodedTick) now, lane.stateOf key = some state →
        state.frozen = false → state.discovering = false → call = .process decoded now →
        decoded.key = key → InWindow state decoded.nativeSequence →
          (∀ slot, state.pending.occupant decoded.nativeSequence = some slot →
            slot.nativeSequence ≠ decoded.nativeSequence →
            state.expected + cfg.maximumReorderSpan < slot.nativeSequence) ∧
          (¬Collides state decoded.nativeSequence →
            gapsOf (added.of key) = [] ∧ ∃ state', lane'.stateOf key = some state' ∧
              NearOutcome state decoded.toTickDecodeResult now state' (added.of key))) ∧
      (gapsOf (added.of key) ≠ [] → ∃ op, call.on key = some op ∧
        (stateD key (lane.stateOf key)).frozen = false ∧
          GapCause (stateD key (lane.stateOf key)) op) := by
  obtain ⟨lane, trace, h⟩ := exists_run cfg calls
  have hv := valid_of_run h
  obtain ⟨lane', added, hstep⟩ := exists_step_succeed hv call
  refine ⟨lane, trace, lane', added, h, hstep, ?_, fun hgaps => ?_⟩
  · intro state decoded now hstate live active hcall hkey hwindow
    have hready := (hv.idle_of_stateOf hstate).ready live active
    refine ⟨fun slot ho hne => beyond_of_collision hready hwindow ho hne, fun hfree => ?_⟩
    have hon : call.on key = some (.process decoded now) := by
      rw [hcall]
      exact if_pos hkey
    cases (step_turned (fun _ _ => rfl) hv hstep).2.atKey key with
    | early now' poll =>
      rw [hcall] at poll
      cases poll
    | refused op on only unused =>
      rw [hstate] at unused
      cases unused
    | apart off =>
      rw [hon] at off
      cases off
    | turn op slot fx on hturn hevents =>
      obtain rfl := Option.some.inj (hon.symm.trans on)
      obtain ⟨r, hr, hnear⟩ := processChannel_near hwait now hready hwindow hfree
      rw [hstate, channelStep, stateD, Option.getD_some, hr] at hturn
      obtain ⟨hafter, hfx⟩ := Prod.mk.inj (Option.some.inj hturn)
      rw [hevents, ← hfx, ← hafter]
      exact ⟨hnear.gapsOf_eq, r.1, rfl, hnear⟩
  · have hevents : added.of key ≠ [] := fun hnil => hgaps (by rw [hnil]; rfl)
    obtain ⟨op, slot, fx, hon, hturn, hmade⟩ :=
      ((step_turned (fun _ _ => rfl) hv hstep).2.atKey key).turn_of_moved (Or.inr hevents)
    rw [hmade] at hgaps
    exact ⟨op, hon, gapCause_channelStep hwait (hv.placed key) hturn hgaps⟩

theorem gap_causes_sample : ∃ lane trace lane' added,
    run (sampleConfig .kFromOpen 0 100) [arrival 3 (by decide) 10] = some (lane, trace) ∧
      step (fun _ => .succeed) lane (arrival 4 (by decide) 11) = some (lane', added) ∧
      (gapsOf (added.of sampleKey) ≠ [] → ∃ op, (arrival 4 (by decide) 11).on sampleKey = some op ∧
        (stateD sampleKey (lane.stateOf sampleKey)).frozen = false ∧
          GapCause (stateD sampleKey (lane.stateOf sampleKey)) op) := by
  obtain ⟨lane, trace, lane', added, h, hstep, -, hcause⟩ :=
    gap_causes (sampleConfig .kFromOpen 0 100) (by decide) [arrival 3 (by decide) 10]
      (arrival 4 (by decide) 11) sampleKey
  exact ⟨lane, trace, lane', added, h, hstep, hcause⟩

/-- The record at 10 holds the slot of 6, which is in the window of the frontier 4. -/
theorem collision_commits_gap : ∃ lane trace lane' added state,
    run (sampleConfig .kFromOpen 0 100) [arrival 3 (by decide) 10, arrival 10 (by decide) 11] =
        some (lane, trace) ∧
      lane.stateOf sampleKey = some state ∧ state.frozen = false ∧ state.discovering = false ∧
      InWindow state 6 ∧ step (fun _ => .succeed) lane (arrival 6 (by decide) 12) =
        some (lane', added) ∧
      gapsOf (added.of sampleKey) = [⟨.kShanghai, 1, 4, 5, 6, 12, 2, 4⟩] := by
  have hrun : ((run (sampleConfig .kFromOpen 0 100)
      [arrival 3 (by decide) 10, arrival 10 (by decide) 11]).map fun r =>
        ((r.1.stateOf sampleKey).map fun s => (s.frozen, s.discovering, s.expected),
          (step (fun _ => .succeed) r.1 (arrival 6 (by decide) 12)).map fun s =>
            gapsOf (s.2.of sampleKey))) =
      some (some (false, false, 4), some [⟨.kShanghai, 1, 4, 5, 6, 12, 2, 4⟩]) := by
    decide +kernel
  obtain ⟨⟨lane, trace⟩, hrun, hafter⟩ := Option.map_eq_some_iff.1 hrun
  obtain ⟨hstate, hstep⟩ := Prod.mk.inj hafter
  obtain ⟨state, hstate, hfields⟩ := Option.map_eq_some_iff.1 hstate
  obtain ⟨⟨lane', added⟩, hstep, hgaps⟩ := Option.map_eq_some_iff.1 hstep
  obtain ⟨hfrozen, hfields⟩ := Prod.mk.inj hfields
  obtain ⟨hdiscovering, hexpected⟩ := Prod.mk.inj hfields
  refine ⟨lane, trace, lane', added, state, hrun, hstate, hfrozen, hdiscovering, ?_, hstep, hgaps⟩
  rw [InWindow, hexpected]
  decide

end SequenceRecovery

end L2Flow
