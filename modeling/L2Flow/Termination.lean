import L2Flow.Refusal

/-!
# The loops end

The drain, the retry loop of `ProcessActive` and the loop of `Flush` end whatever `emit_tick`,
`emit_late` and `emit_fault` answer, now and in the calls before. A pass that is not the last
frees a slot or makes the record in hand the expected one. What this rests on holds at every
point of a call that looks at the retained records, a drain that a refused tick has cut short
included : `pending_count` is the number of occupied slots, and what is retained lies at the
frontier or above it.
-/

namespace L2Flow

variable {cfg : RecoveryConfig}

/-- The count and the places of what is retained. -/
structure ChannelState.Tallied (state : ChannelState cfg) : Prop where
  count : state.pendingCount = state.pending.card
  aligned : ∀ i slot, state.pending.cells i = some slot →
    slot.nativeSequence % cfg.entriesPerChannel = i

theorem ChannelState.Sound.tallied {state : ChannelState cfg} (h : state.Sound) :
    state.Tallied where
  count := h.count
  aligned i slot hslot := by rw [← slotIndex_val, state.pending.aligned i slot hslot]

namespace SequenceRecovery

/-! ## The points of a call -/

/-- The heads of the three loops, and the entry of `ForceGapToMinimum`. -/
inductive Point where
  | drain
  | retry (decoded : TickDecodeResult)
  | flush
  | force

/-- What is done from a point : a pass of the loop, or the whole of `ForceGapToMinimum`. -/
def Point.body (callbacks : Callbacks) (now : ℕ) : Point → ChannelState cfg × Effects →
    Pass (ChannelState cfg × Effects) (ChannelState cfg × Effects)
  | .drain => drainBody callbacks now
  | .retry decoded => activeBody callbacks decoded now
  | .flush => flushBody callbacks now
  | .force => fun s => .done (forceGapToMinimum callbacks now s)

/-- The origin is chosen, and the drain of `FinishDiscovery` begins. -/
def atOrigin (s : ChannelState cfg × Effects) : ChannelState cfg × Effects :=
  ({ s.1 with discovering := false, expected := minimumPending s.1 },
    s.2.log (.origin (minimumPending s.1)))

/-- The gap is recorded, and the drain of `ForceGapToMinimum` begins. -/
def atMinimum (now : ℕ) (s : ChannelState cfg × Effects) : ChannelState cfg × Effects :=
  (skipTo s.1 (minimumPending s.1), s.2.log (.gap (skipRecord s.1 (minimumPending s.1) now) true))

/-- The record in hand is dispatched, and the drain after it begins. -/
def afterRecord (decoded : TickDecodeResult) (s : ChannelState cfg × Effects) :
    ChannelState cfg × Effects :=
  (consume s.1 (slotOf decoded) true,
    s.2.log (.consumed (slotOf decoded) (outgoing s.1 (slotOf decoded)) true))

/-- The states in which a call, made on a channel in `state`, comes to a point. -/
inductive Visits (callbacks : Callbacks) (state : ChannelState cfg) :
    ChannelCall → Point → ChannelState cfg × Effects → Prop where
  /-- `ProcessActive`, of an active channel, or after a collision has ended the discovery. -/
  | retry {decoded : DecodedTick} {now : ℕ} (live : state.frozen = false)
      (collides : state.discovering = true → Collides state decoded.nativeSequence) :
      Visits callbacks state (.process decoded now) (.retry decoded.toTickDecodeResult)
        (loopStart callbacks now state)
  /-- The loop of `Flush`. -/
  | flush {now : ℕ} (live : state.frozen = false) :
      Visits callbacks state (.flush now) .flush (loopStart callbacks now state)
  /-- A pass that is not the last. -/
  | again {op : ChannelCall} {point : Point} {s s' : ChannelState cfg × Effects}
      (head : Visits callbacks state op point s)
      (pass : point.body callbacks op.now s = .again s') : Visits callbacks state op point s'
  /-- `FinishDiscovery`, in `Process` for a collision, in `Poll` and in `Flush`. -/
  | finish {op : ChannelCall} (live : state.frozen = false)
      (discovering : state.discovering = true) (retains : state.pendingCount ≠ 0) :
      Visits callbacks state op .drain (atOrigin (state, {}))
  /-- `FinishDiscovery`, in `Process` when the hold has passed. -/
  | expired {decoded : DecodedTick} {now : ℕ} (live : state.frozen = false)
      (discovering : state.discovering = true)
      (free : state.pending.occupant decoded.nativeSequence = none) :
      Visits callbacks state (.process decoded now) .drain
        (atOrigin (openHold now (retain state (slotOf decoded.toTickDecodeResult))))
  /-- The record in hand was the expected one. -/
  | next {decoded : DecodedTick} {now : ℕ} {s : ChannelState cfg × Effects}
      (head : Visits callbacks state (.process decoded now) (.retry decoded.toTickDecodeResult) s)
      (position : decoded.nativeSequence = s.1.expected) :
      Visits callbacks state (.process decoded now) .drain
        (afterRecord decoded.toTickDecodeResult s)
  /-- The slot of the record in hand is taken. -/
  | collision {decoded : DecodedTick} {now : ℕ} {s : ChannelState cfg × Effects}
      (head : Visits callbacks state (.process decoded now) (.retry decoded.toTickDecodeResult) s)
      (above : s.1.expected < decoded.nativeSequence) :
      Visits callbacks state (.process decoded now) .force s
  /-- The record in hand is retained, far from the frontier. -/
  | far {decoded : DecodedTick} {now : ℕ} {s : ChannelState cfg × Effects}
      (head : Visits callbacks state (.process decoded now) (.retry decoded.toTickDecodeResult) s)
      (above : s.1.expected < decoded.nativeSequence)
      (free : s.1.pending.occupant decoded.nativeSequence = none) :
      Visits callbacks state (.process decoded now) .force
        (retain s.1 (slotOf decoded.toTickDecodeResult), s.2)
  /-- The record in hand is retained, and no gap is waited for. -/
  | unwaited {decoded : DecodedTick} {now : ℕ} {s : ChannelState cfg × Effects}
      (head : Visits callbacks state (.process decoded now) (.retry decoded.toTickDecodeResult) s)
      (above : s.1.expected < decoded.nativeSequence)
      (free : s.1.pending.occupant decoded.nativeSequence = none) :
      Visits callbacks state (.process decoded now) .force
        (openGap now (retain s.1 (slotOf decoded.toTickDecodeResult)) s.2)
  /-- `Poll` finds the gap timer expired. -/
  | due {now : ℕ} (live : state.frozen = false) (active : state.discovering = false) :
      Visits callbacks state (.poll now) .force (state, {})
  /-- The loop of `Flush` forces a gap. -/
  | flushed {now : ℕ} {s : ChannelState cfg × Effects}
      (head : Visits callbacks state (.flush now) .flush s) :
      Visits callbacks state (.flush now) .force s
  /-- `ForceGapToMinimum` drains from the retained minimum. -/
  | skip {op : ChannelCall} {s : ChannelState cfg × Effects}
      (entry : Visits callbacks state op .force s) (retains : s.1.pendingCount ≠ 0) :
      Visits callbacks state op .drain (atMinimum op.now s)

/-- What a channel keeps at a point : within a drain the record at the frontier may be
retained, elsewhere everything retained is above the frontier. -/
def Point.Keeps : Point → ChannelState cfg → Prop
  | .drain => ChannelState.Active
  | .retry _ => ChannelState.Ready
  | .flush => ChannelState.Ready
  | .force => ChannelState.Ready

theorem Point.Keeps.active {point : Point} {state : ChannelState cfg} (h : point.Keeps state) :
    state.Active := by
  rcases point with _ | _ | _ | _
  · exact h
  · exact ChannelState.Ready.toActive h
  · exact ChannelState.Ready.toActive h
  · exact ChannelState.Ready.toActive h

theorem loopStart_ready (callbacks : Callbacks) (now : ℕ) {state : ChannelState cfg}
    (hs : state.Resting) (live : state.frozen = false) :
    (loopStart callbacks now state).1.Ready := by
  rw [loopStart]
  split_ifs with hd
  · by_cases hc : state.pendingCount = 0
    · have hnone : ∀ slot, slot ∉ state.pending :=
        DirectMapped.card_eq_zero_iff.1 (hs.sound.count ▸ hc)
      have hstart : finishDiscovery callbacks now (state, {}) =
          ({ state with discovering := false }, {}) := by
        simp [finishDiscovery, hc]
      rw [hstart]
      exact ⟨⟨live, rfl, ⟨hs.sound.count, hs.sound.inRange,
        fun _ slot hslot => absurd hslot (hnone slot)⟩⟩,
        fun slot hslot => absurd hslot (hnone slot)⟩
    · exact (finishDiscovery_steps callbacks now {} hs.sound live hd hc none).2
  · exact hs.ready live (Bool.eq_false_iff.2 hd)

/-- What a further pass keeps, whatever the loop. -/
theorem Point.Keeps.again {callbacks : Callbacks} (hgap : ∀ gap, callbacks.emitGap gap = true)
    {now : ℕ} {point : Point} {s s' : ChannelState cfg × Effects} (hs : point.Keeps s.1)
    (hb : point.body callbacks now s = .again s') : point.Keeps s'.1 := by
  rcases point with _ | decoded | _ | _
  · exact (drainBody_steps hs hb none).2
  · exact (activeBody_again hgap hs hb).2.1
  · exact (flushBody_again hgap hs hb).2.1
  · cases hb

/-- Every point of a call keeps its part of the invariant. -/
theorem Visits.keeps {callbacks : Callbacks} (hgap : ∀ gap, callbacks.emitGap gap = true)
    {state : ChannelState cfg} (hs : state.Resting) {op : ChannelCall} {point : Point}
    {s : ChannelState cfg × Effects} (h : Visits callbacks state op point s) :
    point.Keeps s.1 := by
  have hretain : ∀ {decoded : DecodedTick} {s : ChannelState cfg}, s.Ready →
      s.expected < decoded.nativeSequence → s.pending.occupant decoded.nativeSequence = none →
      (retain s (slotOf decoded.toTickDecodeResult)).Ready := fun hs above free =>
    ready_retain hs (DecodedTick.inRange _) free above
  induction h with
  | retry live collides => exact loopStart_ready callbacks _ hs live
  | flush live => exact loopStart_ready callbacks _ hs live
  | again head pass ih => exact ih.again hgap pass
  | finish live discovering retains => exact active_origin hs.sound live retains
  | @expired decoded now live discovering free =>
    have hsound : (retain state (slotOf decoded.toTickDecodeResult)).Sound :=
      sound_retain hs.sound (DecodedTick.inRange decoded) free (Or.inl discovering)
    obtain ⟨firstSeenNs, hopen, -⟩ :=
      openHold_eq now (retain state (slotOf decoded.toTickDecodeResult))
    rw [atOrigin, hopen]
    exact active_origin ⟨hsound.count, hsound.inRange, hsound.ahead⟩ live (Nat.succ_ne_zero _)
  | next head position ih =>
    have hready : ChannelState.Ready _ := ih
    exact ⟨hready.live, hready.active,
      ⟨hready.sound.count, hready.sound.inRange, fun _ => hready.settled⟩⟩
  | collision head above ih => exact ih
  | far head above free ih => exact hretain ih above free
  | unwaited head above free ih =>
    exact (@openGap_steps cfg callbacks _ _ _ (hretain ih above free) none).2
  | due live active => exact hs.ready live active
  | flushed head ih => exact ih
  | skip entry retains ih => exact active_skipTo_minimum (ChannelState.Ready.toActive ih) retains

/-! ## The passes -/

/-- A pass that is not the last frees a slot, or makes the record in hand the expected one. -/
theorem Point.Keeps.falls {callbacks : Callbacks} (hgap : ∀ gap, callbacks.emitGap gap = true)
    {now : ℕ} {point : Point} {s s' : ChannelState cfg × Effects} (hs : point.Keeps s.1)
    (hb : point.body callbacks now s = .again s') :
    s'.1.pending.card < s.1.pending.card ∨
      ∃ decoded, point = .retry decoded ∧ s'.1.pending = s.1.pending ∧
        s'.1.expected = decoded.nativeSequence := by
  rcases point with _ | decoded | _ | _
  · exact Or.inl (drainBody_again callbacks now s s' hb)
  · exact (activeBody_again hgap hs hb).2.2.2.imp_right fun hfound => ⟨decoded, rfl, hfound⟩
  · exact Or.inl (flushBody_again hgap hs hb).2.2
  · cases hb

/-- Every loop ends. -/
theorem Point.Keeps.ends {callbacks : Callbacks} (hgap : ∀ gap, callbacks.emitGap gap = true)
    {now : ℕ} {point : Point} {s : ChannelState cfg × Effects} (hs : point.Keeps s.1) :
    Loop.Ends (point.body callbacks now) s := by
  rcases point with _ | decoded | _ | _
  · exact Loop.ends_of_variant (I := fun _ => True) (fun s => s.1.pending.card)
      (fun s s' _ hb => ⟨trivial, drainBody_again callbacks now s s' hb⟩) trivial
  · obtain ⟨r, hr⟩ := exists_processActive hgap decoded now hs
    exact ⟨passes cfg, r, hr⟩
  · exact Loop.ends_of_variant (I := fun s : ChannelState cfg × Effects => s.1.Ready)
      (fun s => s.1.pending.card) (fun s s' hs hb => (flushBody_again hgap hs hb).2) hs
  · exact ⟨1, _, rfl⟩

/-- `ForceGapToMinimum` removes the retained minimum, dispatched or refused. -/
theorem forceGapToMinimum_removes {callbacks : Callbacks}
    (hgap : ∀ gap, callbacks.emitGap gap = true) (now : ℕ) {s : ChannelState cfg × Effects}
    (hs : s.1.Ready) (retains : s.1.pendingCount ≠ 0) :
    ∃ slot ∈ s.1.pending, (∀ slot' ∈ s.1.pending, slot.nativeSequence ≤ slot'.nativeSequence) ∧
      slot ∉ (forceGapToMinimum callbacks now s).1.pending := by
  obtain ⟨slot, held, hmin, least⟩ := exists_minimumPending hs.sound retains
  refine ⟨slot, held, least, fun hkept => ?_⟩
  obtain ⟨hdrain, hready⟩ := drainContiguous_steps callbacks now (atMinimum now s)
    (active_skipTo_minimum hs.toActive retains) none
  have hexpected : slot.nativeSequence ≤
      (drainContiguous callbacks now (atMinimum now s)).1.expected :=
    hmin ▸ (hdrain.advances hs.active).2
  rw [forceGapToMinimum_eq hgap now s.2 hs retains] at hkept
  exact absurd (hready.settled slot hkept) (Nat.not_lt.2 hexpected)

/-! ## Runs -/

/-- Whatever `emit_tick`, `emit_late` and `emit_fault` answer, every call of a run returns. Between
calls a channel's count and places are right, and what an active channel retains is above its
frontier. At every point of every further call the count and the places are right, the loop ends,
each pass that is not the last frees a slot or makes the record in hand the expected one, and
`ForceGapToMinimum` removes the retained minimum. -/
theorem recovery_loops_end (cfg : RecoveryConfig) (calls : List (Call × LaneCallbacks))
    (hgaps : GapsTaken calls) :
    ∃ lane trace, runWith cfg calls = some (lane, trace) ∧ ∀ key,
      (stateD key (lane.stateOf key)).Tallied ∧
      ((stateD key (lane.stateOf key)).discovering = false →
        ∀ slot ∈ (stateD key (lane.stateOf key)).pending,
          (stateD key (lane.stateOf key)).expected < slot.nativeSequence) ∧
      ∀ (callbacks : Callbacks) (op : ChannelCall) (point : Point)
        (s : ChannelState cfg × Effects), (∀ gap, callbacks.emitGap gap = true) →
        Visits callbacks (stateD key (lane.stateOf key)) op point s →
          s.1.Tallied ∧ Loop.Ends (point.body callbacks op.now) s ∧
          (∀ s', point.body callbacks op.now s = .again s' →
            s'.1.pending.card < s.1.pending.card ∨
              ∃ decoded, point = .retry decoded ∧ s'.1.pending = s.1.pending ∧
                s'.1.expected = decoded.nativeSequence) ∧
          (point = .force → s.1.pendingCount ≠ 0 →
            ∃ slot ∈ s.1.pending,
              (∀ slot' ∈ s.1.pending, slot.nativeSequence ≤ slot'.nativeSequence) ∧
              slot ∉ (forceGapToMinimum callbacks op.now s).1.pending) := by
  obtain ⟨lane, trace, hrun⟩ := @exists_runWith cfg calls hgaps
  refine ⟨lane, trace, hrun, fun key => ?_⟩
  have hresting := ((valid_of_runWith hgaps hrun).placed key).resting.1
  refine ⟨hresting.sound.tallied, hresting.settled, fun callbacks op point s hgap hvisit => ?_⟩
  have hkeeps := hvisit.keeps hgap hresting
  refine ⟨hkeeps.active.sound.tallied, hkeeps.ends hgap, fun s' hb => hkeeps.falls hgap hb, ?_⟩
  rintro rfl retains
  exact forceGapToMinimum_removes hgap op.now hkeeps retains

/-- The record at 1 is refused and the record at 2 retained. -/
def refusedThenWaiting : List (Call × Callbacks) :=
  refusedRun.take 2

theorem flush_ends_refused : ∃ lane trace,
    runWith (sampleConfig .kFromOpen 0 100) (shared refusedThenWaiting) = some (lane, trace) ∧
      Loop.Ends (flushBody refuseTicks 12)
        (loopStart refuseTicks 12 (stateD sampleKey (lane.stateOf sampleKey))) := by
  have hgaps : GapsTaken (shared refusedThenWaiting) := by
    simp [GapsTaken, shared, refusedThenWaiting, refusedRun, refuseTicks, Callbacks.succeed]
  obtain ⟨lane, trace, hrun, hends⟩ :=
    recovery_loops_end (sampleConfig .kFromOpen 0 100) (shared refusedThenWaiting) hgaps
  have hlive : ((runWith (sampleConfig .kFromOpen 0 100) (shared refusedThenWaiting)).map
      fun r => (stateD sampleKey (r.1.stateOf sampleKey)).frozen) = some false := by
    decide +kernel
  rw [hrun, Option.map_some, Option.some.injEq] at hlive
  exact ⟨lane, trace, hrun,
    ((hends sampleKey).2.2 refuseTicks (.flush 12) .flush _ (fun _ => rfl) (.flush hlive)).2.1⟩

end SequenceRecovery

end L2Flow
