import L2Flow.Runs

/-!
# Deadlines

`Poll` returns at once before the lane's next deadline, so a channel's timer is looked at
only if a deadline was scheduled for it. `dueAt` is the deadline of a channel's running
timer. A call on a channel schedules the deadline of the timer it leaves running, unless
the timer ran before (`Covered`), and a turn in `Poll` schedules it in any case. Hence in
every run at positive times the next deadline comes no later than any running timer's
(`timely_of_run`), and a `Poll` that returns at once would have changed nothing.
-/

namespace L2Flow

variable {cfg : RecoveryConfig}

/-! ## Timers -/

theorem le_of_deadlineReached {now start delay : ℕ}
    (h : SequenceRecovery.deadlineReached now start delay = true) :
    deadlineAfter start delay ≤ now := by
  simp only [SequenceRecovery.deadlineReached, Bool.and_eq_true, decide_eq_true_eq] at h
  unfold deadlineAfter
  split_ifs <;> omega

theorem deadlineAfter_ne_zero {start delay : ℕ} (h : start ≠ 0) :
    deadlineAfter start delay ≠ 0 := by
  unfold deadlineAfter uint64Max
  split_ifs <;> omega

/-- When the running timer of a channel expires. -/
def ChannelState.dueAt (state : ChannelState cfg) : Option ℕ :=
  if state.frozen then none
  else if state.discovering then
    if state.firstSeenNs = 0 then none else some (deadlineAfter state.firstSeenNs cfg.initialHoldNs)
  else if state.gapOpenNs = 0 then none
  else some (deadlineAfter state.gapOpenNs cfg.gapWaitNs)

/-- A channel that retains records has its timer running, and only then the gap timer. -/
structure ChannelState.Timed (state : ChannelState cfg) : Prop where
  hold : state.frozen = false → state.discovering = true → state.pendingCount ≠ 0 →
    state.firstSeenNs ≠ 0
  gap : state.frozen = false → state.discovering = false → state.pendingCount = 0 →
    state.gapOpenNs = 0

namespace SequenceRecovery

/-- The deadlines scheduled cover the running timer, if it is not the one that ran
before. -/
structure Covered (before : Option ℕ) (r : ChannelState cfg × Effects) : Prop where
  nonzero : ∀ d ∈ r.2.deadlines, d ≠ 0
  noted : ∀ d, r.1.dueAt = some d → d ∈ r.2.deadlines ∨ before = some d
  timed : r.1.Timed

section Functions

variable {now : ℕ} {before : Option ℕ}

/-- After a drain the gap timer runs from now if anything is retained. -/
theorem covered_drain (hnow : now ≠ 0) {s : ChannelState cfg × Effects}
    (active : s.1.discovering = false) (hnonzero : ∀ d ∈ s.2.deadlines, d ≠ 0) :
    Covered before (drainContiguous .succeed now s) := by
  refine Loop.run_rel
    (I := fun s : ChannelState cfg × Effects =>
      s.1.discovering = false ∧ ∀ d ∈ s.2.deadlines, d ≠ 0)
    (R := fun _ r => Covered before r) ?_ ?_ (fun _ _ _ _ _ hr => hr) ⟨active, hnonzero⟩
  · rintro ⟨state, fx⟩ s' hs hb
    cases hf : find state state.expected with
    | none =>
      obtain ⟨g, fx', -, he⟩ := drainBody_none .succeed now fx hf
      simp [he] at hb
    | some slot =>
      rcases drainBody_some .succeed now fx hf with he | ⟨-, hrefused, -⟩
      · rw [he] at hb
        cases hb
        exact hs
      · cases hrefused
  · rintro ⟨state, fx⟩ r ⟨hactive, hpos⟩ hb
    cases hf : find state state.expected with
    | none =>
      simp only [drainBody, hf] at hb
      cases hb
      by_cases hc : state.pendingCount = 0
      · simp only [hc, if_true, ne_eq, not_true, if_false]
        refine ⟨hpos, fun d hd => ?_, ⟨fun _ hd => ?_, fun _ _ _ => rfl⟩⟩
        · simp [ChannelState.dueAt, show state.discovering = false from hactive] at hd
        · cases hactive.symm.trans hd
      · simp only [hc, if_false, ne_eq, hnow, not_false_eq_true, if_true]
        refine ⟨fun d hd => ?_, fun d hd => Or.inl ?_, ⟨fun _ hd => ?_, fun _ _ h => ?_⟩⟩
        · rw [Effects.scheduleDeadline_deadlines, List.mem_append, List.mem_singleton] at hd
          rcases hd with hd | rfl
          · exact hpos d hd
          · exact deadlineAfter_ne_zero hnow
        · rw [ChannelState.dueAt] at hd
          split_ifs at hd with h1 h2
          · cases hactive.symm.trans h2
          · cases hd
            simp
        · cases hactive.symm.trans hd
        · exact absurd h hc
    | some slot =>
      rcases drainBody_some .succeed now fx hf with he | ⟨-, hrefused, -⟩
      · simp [he] at hb
      · cases hrefused

theorem covered_forceGap (hnow : now ≠ 0) {s : ChannelState cfg × Effects} (hs : s.1.Ready)
    (hnonzero : ∀ d ∈ s.2.deadlines, d ≠ 0) :
    Covered before (forceGapToMinimum .succeed now s) := by
  obtain ⟨state, fx⟩ := s
  by_cases hc : state.pendingCount = 0
  · simp only [forceGapToMinimum, if_pos hc]
    refine ⟨hnonzero, fun d hd => ?_, ⟨fun _ _ h => absurd hc h, fun _ _ _ => rfl⟩⟩
    simp [ChannelState.dueAt, show state.discovering = false from hs.active] at hd
  · rw [forceGapToMinimum_eq (fun _ => rfl) now fx hs hc]
    exact covered_drain hnow hs.active hnonzero

theorem covered_finishDiscovery (hnow : now ≠ 0) {state : ChannelState cfg} {fx : Effects}
    (hd : state.discovering = true) (hc : state.pendingCount ≠ 0)
    (hnonzero : ∀ d ∈ fx.deadlines, d ≠ 0) :
    Covered before (finishDiscovery .succeed now (state, fx)) := by
  rw [finishDiscovery_eq .succeed now fx hd hc]
  exact covered_drain hnow rfl hnonzero

theorem covered_start {state : ChannelState cfg} (ht : state.Timed) :
    Covered state.dueAt (state, {}) :=
  ⟨fun d hd => (by cases hd), fun _ hd => Or.inr hd, ht⟩

/-- Events alone change no timer. -/
theorem Covered.log {state : ChannelState cfg} {fx : Effects} (h : Covered before (state, fx))
    (event : Event) : Covered before (state, fx.log event) :=
  ⟨h.nonzero, h.noted, h.timed⟩

theorem covered_divert {state : ChannelState cfg} {fx : Effects}
    (h : Covered before (state, fx)) (decoded : TickDecodeResult) (reason : LateRecoveryReason) :
    Covered before (state, divertLateRecovery .succeed state decoded reason fx) :=
  h.log _

theorem covered_freeze {state : ChannelState cfg} {fx : Effects}
    (h : Covered before (state, fx)) (reason : ChannelFaultReason) (sequence : ℕ) :
    Covered before (freezeFromOpen .succeed state reason sequence now fx) := by
  unfold freezeFromOpen
  split_ifs with hf
  · exact h
  · refine ⟨h.nonzero, fun d hd => ?_, ⟨fun hl => ?_, fun hl => ?_⟩⟩
    · simp [Callbacks.succeed, ChannelState.dueAt] at hd
    · cases hl
    · cases hl

/-- Retaining a record above the frontier starts the gap timer if it does not run. -/
theorem covered_openGap (hnow : now ≠ 0) {state : ChannelState cfg} {fx : Effects}
    (active : state.discovering = false) (h : Covered before (state, fx)) (slot : PendingSlot) :
    Covered before (openGap now (retain state slot) fx) := by
  have htimed : ∀ g, ({ retain state slot with gapOpenNs := g } : ChannelState cfg).Timed := by
    refine fun g => ⟨fun _ hd => ?_, fun _ _ hc => ?_⟩
    · cases active.symm.trans hd
    · exact absurd hc (Nat.succ_ne_zero _)
  unfold openGap
  split_ifs with hg
  · refine ⟨fun d hd => ?_, fun d hd => Or.inl ?_, htimed now⟩
    · rw [Effects.scheduleDeadline_deadlines, List.mem_append, List.mem_singleton] at hd
      rcases hd with hd | rfl
      · exact h.nonzero d hd
      · exact deadlineAfter_ne_zero hnow
    · simp only [ChannelState.dueAt, retain, active, Bool.false_eq_true, if_false] at hd
      split_ifs at hd
      cases hd
      simp
  · exact ⟨h.nonzero, h.noted, htimed (retain state slot).gapOpenNs⟩

/-! ## The retry loop -/

variable {decoded : TickDecodeResult}

theorem covered_again (hnow : now ≠ 0) {s s' : ChannelState cfg × Effects} (hs : s.1.Ready)
    (h : Covered before s) (hb : activeBody .succeed decoded now s = .again s') :
    Covered before s' := by
  obtain ⟨state, fx⟩ := s
  cases nextPass (fun _ => rfl) hb with
  | below => exact ⟨h.nonzero, h.noted, ⟨h.timed.hold, h.timed.gap⟩⟩
  | above => exact covered_forceGap hnow hs h.nonzero

theorem covered_done (hnow : now ≠ 0) (hr : InRange decoded.nativeSequence)
    {s r : ChannelState cfg × Effects} (hs : s.1.Ready)
    (h : Covered before s) (hb : activeBody .succeed decoded now s = .done r) :
    Covered before r := by
  obtain ⟨state, fx⟩ := s
  have hopen := covered_openGap hnow hs.active h (slotOf decoded)
  cases lastPass (fun _ => rfl) hb with
  | behind => exact covered_divert h _ _
  | next => exact covered_drain hnow hs.active h.nonzero
  | refused position listed refused => cases refused
  | far lt free => exact covered_forceGap hnow (ready_retain hs hr free lt) h.nonzero
  | unwaited lt free =>
    obtain ⟨-, hready⟩ : Reaches .succeed none none _ _ ∧ _ :=
      openGap_steps now fx (ready_retain hs hr free lt) none
    exact covered_forceGap hnow hready hopen.nonzero
  | near => exact hopen
  | duplicate => exact h.log _
  | freeze => exact covered_freeze h _ _
  | divert => exact covered_divert h _ _

theorem covered_processActive (hnow : now ≠ 0) (hr : InRange decoded.nativeSequence)
    {s r : ChannelState cfg × Effects} (hs : s.1.Ready) (h : Covered before s)
    (hp : processActive .succeed decoded now s = some r) : Covered before r := by
  refine Loop.iterate_keep (I := fun s : ChannelState cfg × Effects => s.1.Ready ∧ Covered before s)
    (Q := Covered before) ?_ ?_ ⟨hs, h⟩ hp
  · rintro s s' - ⟨hs, h⟩ hb
    exact ⟨(activeBody_again (fun _ => rfl) hs hb).2.1, covered_again hnow hs h hb⟩
  · rintro s r - ⟨hs, h⟩ hb
    exact covered_done hnow hr hs h hb

/-! ## The calls on a channel -/

/-- `Process` covers the timer it leaves running. -/
theorem covered_process (hnow : now ≠ 0) (hr : InRange decoded.nativeSequence)
    {state : ChannelState cfg} {r : ChannelState cfg × Effects} (hs : state.Resting)
    (ht : state.Timed) (h : processChannel .succeed decoded now state = some r) :
    Covered state.dueAt r := by
  have hstart := covered_start ht
  -- the first record retained starts the hold
  have hcount : (openHold now (retain state (slotOf decoded))).1.pendingCount ≠ 0 := by
    unfold openHold
    split_ifs <;> exact Nat.succ_ne_zero _
  have hdisc : (openHold now (retain state (slotOf decoded))).1.discovering =
      state.discovering := by
    unfold openHold
    split_ifs <;> rfl
  have hnonzero : ∀ d ∈ (openHold now (retain state (slotOf decoded))).2.deadlines, d ≠ 0 := by
    unfold openHold
    split_ifs
    · simpa using deadlineAfter_ne_zero hnow
    · simp
    · simp
  cases processTurn hs h with
  | frozen => exact hstart
  | active live active loop =>
    exact covered_processActive hnow hr (hs.ready live active) hstart loop
  | expired live discovering =>
    exact covered_finishDiscovery hnow (hdisc.trans discovering) hcount hnonzero
  | holding live discovering free hold =>
    refine ⟨hnonzero, fun d hdue => ?_, ⟨fun _ _ _ => ?_, fun _ hd' => ?_⟩⟩
    · unfold openHold at hdue ⊢
      split_ifs at hdue ⊢
      · simp only [ChannelState.dueAt, retain, live, discovering, Bool.false_eq_true, if_false,
          if_true, if_neg hnow] at hdue
        obtain rfl := Option.some.inj hdue
        exact Or.inl (by simp)
      · exact Or.inr hdue
    · unfold openHold
      split_ifs with hseen
      · exact hnow
      · exact hseen
    · rw [hdisc, discovering] at hd'
      cases hd'
  | collision live discovering held other loop =>
    have hc := pendingCount_ne_zero hs.sound (DirectMapped.mem_of_occupant held).1
    exact covered_processActive hnow hr
      (finishDiscovery_steps .succeed now {} hs.sound live discovering hc none).2
      (covered_finishDiscovery hnow discovering hc hstart.nonzero) loop
  | duplicate => exact hstart.log _
  | divert => exact covered_divert hstart _ _

/-- A turn in `Poll` schedules the deadline of any timer it leaves running. -/
theorem covered_poll (hnow : now ≠ 0) {state : ChannelState cfg} (hs : state.Idle)
    (ht : state.Timed) : Covered none (pollChannel .succeed now state) := by
  have hnone : ∀ d ∈ ({} : Effects).deadlines, d ≠ 0 := fun d hd => by cases hd
  generalize hturn : pollChannel .succeed now state = r
  cases pollTurn hturn with
  | skipped idle =>
    refine ⟨hnone, fun d hd => ?_, ht⟩
    rcases idle with hf | hc
    · simp [ChannelState.dueAt, hf] at hd
    · simp only [ChannelState.dueAt] at hd
      split_ifs at hd with h1 h2 h3 h4
      · exact absurd hc (hs.discovering_seen h2)
      · exact absurd (ht.gap (by simpa using h1) (by simpa using h2) hc) h4
  | ended live nonempty discovering =>
    exact covered_finishDiscovery hnow discovering nonempty hnone
  | holding live nonempty discovering =>
    have hstart := ht.hold live discovering nonempty
    refine ⟨fun d hmem => ?_, fun d hdue => Or.inl ?_, ht⟩
    · simp only [Effects.scheduleDeadline_deadlines, List.nil_append, List.mem_singleton] at hmem
      exact hmem ▸ deadlineAfter_ne_zero hstart
    · simp only [ChannelState.dueAt, live, discovering, Bool.false_eq_true, if_false, if_true,
        if_neg hstart] at hdue
      obtain rfl := Option.some.inj hdue
      simp
  | forced live nonempty active => exact covered_forceGap hnow (hs.ready live active) hnone
  | waiting live nonempty active opened =>
    refine ⟨fun d hmem => ?_, fun d hdue => Or.inl ?_, ht⟩
    · simp only [Effects.scheduleDeadline_deadlines, List.nil_append, List.mem_singleton] at hmem
      exact hmem ▸ deadlineAfter_ne_zero opened
    · simp only [ChannelState.dueAt, live, active, Bool.false_eq_true, if_false,
        if_neg opened] at hdue
      obtain rfl := Option.some.inj hdue
      simp
  | unopened live nonempty active unopened =>
    refine ⟨hnone, fun d hdue => ?_, ht⟩
    simp [ChannelState.dueAt, active, unopened] at hdue

variable (now) in
/-- Before its timer expires, a channel's turn in `Poll` changes nothing. -/
theorem pollChannel_early {state : ChannelState cfg} (ht : state.Timed)
    (hearly : ∀ d, state.dueAt = some d → now < d) :
    (pollChannel .succeed now state).1 = state ∧
      (pollChannel .succeed now state).2.events = [] := by
  generalize hturn : pollChannel .succeed now state = r
  cases pollTurn hturn with
  | ended live nonempty discovering reached =>
    have hdue : state.dueAt = some (deadlineAfter state.firstSeenNs cfg.initialHoldNs) := by
      simp [ChannelState.dueAt, live, discovering, ht.hold live discovering nonempty]
    exact absurd (hearly _ hdue) (not_lt.2 (le_of_deadlineReached reached))
  | forced live nonempty active opened reached =>
    have hdue : state.dueAt = some (deadlineAfter state.gapOpenNs cfg.gapWaitNs) := by
      simp [ChannelState.dueAt, live, active, opened]
    exact absurd (hearly _ hdue) (not_lt.2 (le_of_deadlineReached reached))
  | _ => exact ⟨rfl, rfl⟩

theorem covered_flush (hnow : now ≠ 0) {state : ChannelState cfg} {r : ChannelState cfg × Effects}
    (hs : state.Idle) (ht : state.Timed) (h : flushChannel .succeed now state = some r) :
    Covered state.dueAt r := by
  have hstart := covered_start ht
  cases hf : state.frozen with
  | true =>
    obtain rfl := flushChannel_frozen hf h
    exact hstart
  | false =>
    exact (flushChannel_keep (fun _ => rfl) hs hf h (I := Covered state.dueAt) (fun _ => hstart)
      (fun hd => covered_finishDiscovery hnow hd (hs.discovering_seen hd) hstart.nonzero)
      fun s _ hready _ hcovered => covered_forceGap hnow hready hcovered.nonzero).1

/-- What a call on a channel leaves to be scheduled. -/
theorem covered_channelStep {key : ChannelKey} {channel channel' : Option (ChannelState cfg)}
    {op : ChannelCall} {fx : Effects} (hnow : op.now ≠ 0) (hp : Placed key channel)
    (ht : (stateD key channel).Timed)
    (h : channelStep .succeed key channel op = some (channel', fx)) :
    Covered (if op.isPoll then none else (stateD key channel).dueAt) (stateD key channel', fx) := by
  have hsame := covered_start ht
  cases channelTurn h with
  | process turn => exact covered_process hnow (DecodedTick.inRange _) hp.resting.1 ht turn
  | absent absent =>
    subst absent
    refine ⟨hsame.nonzero, fun d hd => ?_, ht⟩
    simp [stateD, ChannelState.fresh, ChannelState.dueAt] at hd
  | poll present =>
    subst present
    exact covered_poll hnow (hp _ rfl).1 ht
  | flush present turn =>
    subst present
    exact covered_flush hnow (hp _ rfl).1 ht turn
  | ignored => exact hsame
  | freeze => exact covered_freeze hsame _ _

end Functions

end SequenceRecovery

end L2Flow
