import L2Flow.Steps

/-!
# The calls of a channel

`Process`, `Poll`, `Flush` and `FreezeDecodeFailure` on one channel are sequences of
primitive steps that account for the record in hand and leave the channel idle, whatever
`emit_tick`, `emit_late` and `emit_fault` answer. The retry loop and the flush loop end.
A channel's run is a list of such calls, from the one that creates it; what every step
keeps holds after every run.
-/

namespace L2Flow

namespace SequenceRecovery

variable {cfg : RecoveryConfig}

/-! ## The passes of `ProcessActive` -/

section ActiveBody

variable {callbacks : Callbacks} {decoded : TickDecodeResult} {now : ℕ} {state : ChannelState cfg}
  {fx : Effects}

theorem activeBody_behind (h : decoded.nativeSequence < state.expected) :
    activeBody callbacks decoded now (state, fx) =
      .done (state, divertLateRecovery callbacks state decoded .kBehindCommittedFrontier fx) := by
  simp only [activeBody, if_pos h]

variable (callbacks now fx) in
/-- At the frontier the record is passed without a slot of the table. -/
theorem activeBody_next (h : decoded.nativeSequence = state.expected) :
    activeBody callbacks decoded now (state, fx) =
        .done (drainContiguous callbacks now (consume state (slotOf decoded) true,
          fx.log (.consumed (slotOf decoded) (outgoing state (slotOf decoded)) true))) ∨
      (decoded.catalogMatch = true ∧
        callbacks.emitTick (outgoing state (slotOf decoded)) = false ∧
        activeBody callbacks decoded now (state, fx) =
          .done (consume state (slotOf decoded) false,
            (fx.log (.consumed (slotOf decoded) (outgoing state (slotOf decoded)) false)).log
              (.fatal "instrument tick dispatch queue overflow"))) := by
  have hlt : ¬decoded.nativeSequence < state.expected := by omega
  rcases emitOne_cases callbacks { state with pendingCount := state.pendingCount + 1 }
    (slotOf decoded) fx with he | ⟨hemit, hrefused, he⟩
  · refine Or.inl ?_
    unfold slotOf at he
    simp only [activeBody, if_neg hlt, if_pos h, he]
    rfl
  · refine Or.inr ⟨hemit, hrefused, ?_⟩
    unfold slotOf at he
    simp only [activeBody, if_neg hlt, if_pos h, he]
    rfl

theorem activeBody_duplicate (h : state.expected < decoded.nativeSequence)
    (hi : insert state decoded = (.kDuplicate, state)) :
    activeBody callbacks decoded now (state, fx) = .done (state, fx.log (.duplicate decoded)) := by
  simp only [activeBody, if_neg (not_lt.2 h.le), if_neg h.ne', hi]

theorem activeBody_conflict (h : state.expected < decoded.nativeSequence)
    (hi : insert state decoded = (.kConflict, state)) :
    activeBody callbacks decoded now (state, fx) =
      .done (if cfg.mode = .kFromOpen then
          freezeFromOpen callbacks state .kCanonicalConflict decoded.nativeSequence now fx
        else
          (state,
            divertLateRecovery callbacks state decoded .kPendingCanonicalConflict fx)) := by
  simp only [activeBody, if_neg (not_lt.2 h.le), if_neg h.ne', hi]
  split_ifs <;> rfl

/-- A collision with the record below everything retained commits the gap before it. -/
theorem activeBody_collision_below (hgap : ∀ gap, callbacks.emitGap gap = true)
    (h : state.expected < decoded.nativeSequence)
    (hi : insert state decoded = (.kCollision, state))
    (hmin : state.pendingCount = 0 ∨ decoded.nativeSequence < minimumPending state) :
    activeBody callbacks decoded now (state, fx) =
      .again (skipTo state decoded.nativeSequence,
        fx.log (.gap (skipRecord state decoded.nativeSequence now) true)) := by
  simp only [activeBody, if_neg (not_lt.2 h.le), if_neg h.ne', hi, if_pos hmin,
    recordGap_eq hgap state h]
  rfl

theorem activeBody_collision_above (h : state.expected < decoded.nativeSequence)
    (hi : insert state decoded = (.kCollision, state))
    (hmin : ¬(state.pendingCount = 0 ∨ decoded.nativeSequence < minimumPending state)) :
    activeBody callbacks decoded now (state, fx) =
      .again (forceGapToMinimum callbacks now (state, fx)) := by
  simp only [activeBody, if_neg (not_lt.2 h.le), if_neg h.ne', hi, if_neg hmin]

/-- A record beyond the span is retained first. -/
theorem activeBody_far (h : state.expected < decoded.nativeSequence)
    (hi : insert state decoded = (.kInserted, retain state (slotOf decoded)))
    (hspan : cfg.maximumReorderSpan < decoded.nativeSequence - state.expected) :
    activeBody callbacks decoded now (state, fx) =
      .done (forceGapToMinimum callbacks now (retain state (slotOf decoded), fx)) := by
  simp only [activeBody, if_neg (not_lt.2 h.le), if_neg h.ne', hi, if_pos hspan]

/-- The gap timer starts with the first record retained above the frontier. -/
def openGap (now : ℕ) (state : ChannelState cfg) (fx : Effects) : ChannelState cfg × Effects :=
  if state.gapOpenNs = 0 then
    ({ state with gapOpenNs := now }, fx.scheduleDeadline now cfg.gapWaitNs)
  else (state, fx)

theorem activeBody_near (h : state.expected < decoded.nativeSequence)
    (hi : insert state decoded = (.kInserted, retain state (slotOf decoded)))
    (hspan : decoded.nativeSequence - state.expected ≤ cfg.maximumReorderSpan) :
    activeBody callbacks decoded now (state, fx) =
      .done (if cfg.gapWaitNs = 0 then
          forceGapToMinimum callbacks now (openGap now (retain state (slotOf decoded)) fx)
        else openGap now (retain state (slotOf decoded)) fx) := by
  simp only [activeBody, if_neg (not_lt.2 h.le), if_neg h.ne', hi, if_neg (not_lt.2 hspan),
    openGap]
  split_ifs <;> rfl

theorem openGap_steps (now : ℕ) {state : ChannelState cfg} (fx : Effects) (hs : state.Ready)
    (hand : Option TickDecodeResult) :
    Reaches callbacks hand hand (state, fx) (openGap now state fx) ∧
      (openGap now state fx).1.Ready := by
  unfold openGap
  split_ifs
  · exact ⟨Reaches.silent rfl fun _ => .timers,
      ⟨⟨hs.live, hs.active, ⟨hs.sound.count, hs.sound.inRange, hs.sound.ahead⟩⟩, hs.settled⟩⟩
  · exact ⟨Reaches.refl _ _ _, hs⟩

end ActiveBody

theorem ready_retain {state : ChannelState cfg} (hs : state.Ready) {decoded : TickDecodeResult}
    (hr : InRange decoded.nativeSequence)
    (free : state.pending.occupant decoded.nativeSequence = none)
    (above : state.expected < decoded.nativeSequence) : (retain state (slotOf decoded)).Ready where
  live := hs.live
  active := hs.active
  sound := sound_retain hs.sound hr free (Or.inr above)
  settled slot h := by
    rcases (mem_retain free).1 h with rfl | h
    · exact above
    · exact hs.settled slot h

/-- `decoded` is below everything retained. -/
theorem below_of_minimum {state : ChannelState cfg} (hs : state.Sound) {sequence : ℕ}
    (h : state.pendingCount = 0 ∨ sequence < minimumPending state) :
    ∀ slot ∈ state.pending, sequence < slot.nativeSequence := by
  intro slot hslot
  rcases h with h | h
  · rw [hs.count, DirectMapped.card_eq_zero_iff] at h
    exact absurd hslot (h slot)
  · exact lt_of_lt_of_le h (DirectMapped.minimum_le hslot uint64Max)

/-- A pass after which the loop looks at the record again : its slot is held by another, and a
gap is committed, up to the record or up to the retained minimum. -/
inductive NextPass (callbacks : Callbacks) (decoded : TickDecodeResult) (now : ℕ)
    (state : ChannelState cfg) (fx : Effects) : ChannelState cfg × Effects → Prop where
  | below {slot : PendingSlot} (lt : state.expected < decoded.nativeSequence)
      (held : state.pending.occupant decoded.nativeSequence = some slot)
      (other : slot.nativeSequence ≠ decoded.nativeSequence)
      (least : state.pendingCount = 0 ∨ decoded.nativeSequence < minimumPending state) :
      NextPass callbacks decoded now state fx (skipTo state decoded.nativeSequence,
        fx.log (.gap (skipRecord state decoded.nativeSequence now) true))
  | above {slot : PendingSlot} (lt : state.expected < decoded.nativeSequence)
      (held : state.pending.occupant decoded.nativeSequence = some slot)
      (other : slot.nativeSequence ≠ decoded.nativeSequence)
      (nonzero : state.pendingCount ≠ 0)
      (least : minimumPending state ≤ decoded.nativeSequence) :
      NextPass callbacks decoded now state fx (forceGapToMinimum callbacks now (state, fx))

/-- The last pass of the loop. -/
inductive LastPass (callbacks : Callbacks) (decoded : TickDecodeResult) (now : ℕ)
    (state : ChannelState cfg) (fx : Effects) : ChannelState cfg × Effects → Prop where
  | behind (lt : decoded.nativeSequence < state.expected) :
      LastPass callbacks decoded now state fx
        (state, divertLateRecovery callbacks state decoded .kBehindCommittedFrontier fx)
  | next (position : decoded.nativeSequence = state.expected) :
      LastPass callbacks decoded now state fx
        (drainContiguous callbacks now (consume state (slotOf decoded) true,
          fx.log (.consumed (slotOf decoded) (outgoing state (slotOf decoded)) true)))
  | refused (position : decoded.nativeSequence = state.expected)
      (listed : decoded.catalogMatch = true)
      (refused : callbacks.emitTick (outgoing state (slotOf decoded)) = false) :
      LastPass callbacks decoded now state fx (consume state (slotOf decoded) false,
        (fx.log (.consumed (slotOf decoded) (outgoing state (slotOf decoded)) false)).log
          (.fatal "instrument tick dispatch queue overflow"))
  | far (lt : state.expected < decoded.nativeSequence)
      (free : state.pending.occupant decoded.nativeSequence = none)
      (span : cfg.maximumReorderSpan < decoded.nativeSequence - state.expected) :
      LastPass callbacks decoded now state fx
        (forceGapToMinimum callbacks now (retain state (slotOf decoded), fx))
  | unwaited (lt : state.expected < decoded.nativeSequence)
      (free : state.pending.occupant decoded.nativeSequence = none)
      (span : decoded.nativeSequence - state.expected ≤ cfg.maximumReorderSpan)
      (wait : cfg.gapWaitNs = 0) :
      LastPass callbacks decoded now state fx
        (forceGapToMinimum callbacks now (openGap now (retain state (slotOf decoded)) fx))
  | near (lt : state.expected < decoded.nativeSequence)
      (free : state.pending.occupant decoded.nativeSequence = none)
      (span : decoded.nativeSequence - state.expected ≤ cfg.maximumReorderSpan)
      (wait : cfg.gapWaitNs ≠ 0) :
      LastPass callbacks decoded now state fx (openGap now (retain state (slotOf decoded)) fx)
  | duplicate {slot : PendingSlot} (lt : state.expected < decoded.nativeSequence)
      (held : slot ∈ state.pending) (position : slot.nativeSequence = decoded.nativeSequence)
      (same : SameRecord slot decoded) :
      LastPass callbacks decoded now state fx (state, fx.log (.duplicate decoded))
  | freeze {slot : PendingSlot} (lt : state.expected < decoded.nativeSequence)
      (held : slot ∈ state.pending) (position : slot.nativeSequence = decoded.nativeSequence)
      (different : ¬SameRecord slot decoded) (mode : cfg.mode = .kFromOpen) :
      LastPass callbacks decoded now state fx
        (freezeFromOpen callbacks state .kCanonicalConflict decoded.nativeSequence now fx)
  | divert {slot : PendingSlot} (lt : state.expected < decoded.nativeSequence)
      (held : slot ∈ state.pending) (position : slot.nativeSequence = decoded.nativeSequence)
      (different : ¬SameRecord slot decoded) (mode : cfg.mode = .kPartial) :
      LastPass callbacks decoded now state fx
        (state, divertLateRecovery callbacks state decoded .kPendingCanonicalConflict fx)

section Inversion

variable {callbacks : Callbacks} {decoded : TickDecodeResult} {now : ℕ} {state : ChannelState cfg}
  {fx : Effects}

/-- Every pass is one of these. -/
theorem activeBody_cases (hgap : ∀ gap, callbacks.emitGap gap = true) :
    (∃ s', activeBody callbacks decoded now (state, fx) = .again s' ∧
      NextPass callbacks decoded now state fx s') ∨
    ∃ r, activeBody callbacks decoded now (state, fx) = .done r ∧
      LastPass callbacks decoded now state fx r := by
  rcases lt_trichotomy decoded.nativeSequence state.expected with hlt | heq | hlt
  · exact Or.inr ⟨_, activeBody_behind hlt, .behind hlt⟩
  · rcases activeBody_next callbacks now fx heq with he | ⟨hlisted, hrefused, he⟩
    · exact Or.inr ⟨_, he, .next heq⟩
    · exact Or.inr ⟨_, he, .refused heq hlisted hrefused⟩
  · rcases insert_cases state decoded with
      ⟨free, hi⟩ | ⟨slot, ho, ⟨hother, hi⟩ | ⟨hpos, hsame, hi⟩ | ⟨hpos, hdiff, hi⟩⟩
    · refine Or.inr ?_
      rcases Nat.lt_or_ge cfg.maximumReorderSpan (decoded.nativeSequence - state.expected)
        with hspan | hspan
      · exact ⟨_, activeBody_far hlt hi hspan, .far hlt free hspan⟩
      · refine ⟨_, activeBody_near hlt hi hspan, ?_⟩
        split_ifs with hwait
        · exact .unwaited hlt free hspan hwait
        · exact .near hlt free hspan hwait
    · refine Or.inl ?_
      by_cases hmin : state.pendingCount = 0 ∨ decoded.nativeSequence < minimumPending state
      · exact ⟨_, activeBody_collision_below hgap hlt hi hmin, .below hlt ho hother hmin⟩
      · rw [not_or, not_lt] at hmin
        exact ⟨_, activeBody_collision_above hlt hi (by rw [not_or, not_lt]; exact hmin),
          .above hlt ho hother hmin.1 hmin.2⟩
    · have held := (DirectMapped.mem_of_occupant ho).1
      exact Or.inr ⟨_, activeBody_duplicate hlt hi, .duplicate hlt held hpos hsame⟩
    · have held := (DirectMapped.mem_of_occupant ho).1
      refine Or.inr ⟨_, activeBody_conflict hlt hi, ?_⟩
      split_ifs with hmode
      · exact .freeze hlt held hpos hdiff hmode
      · refine .divert hlt held hpos hdiff ?_
        cases hm : cfg.mode
        · exact absurd hm hmode
        · rfl

theorem nextPass (hgap : ∀ gap, callbacks.emitGap gap = true) {s' : ChannelState cfg × Effects}
    (hb : activeBody callbacks decoded now (state, fx) = .again s') :
    NextPass callbacks decoded now state fx s' := by
  rcases @activeBody_cases cfg callbacks decoded now state fx hgap with
    ⟨s, he, hnext⟩ | ⟨r, he, -⟩
  · rw [he] at hb
    obtain rfl := Pass.again.inj hb
    exact hnext
  · rw [he] at hb
    cases hb

theorem lastPass (hgap : ∀ gap, callbacks.emitGap gap = true) {r : ChannelState cfg × Effects}
    (hb : activeBody callbacks decoded now (state, fx) = .done r) :
    LastPass callbacks decoded now state fx r := by
  rcases @activeBody_cases cfg callbacks decoded now state fx hgap with
    ⟨s, he, -⟩ | ⟨r', he, hlast⟩
  · rw [he] at hb
    cases hb
  · rw [he] at hb
    obtain rfl := Pass.done.inj hb
    exact hlast

end Inversion

/-- A further pass of the retry loop has committed a gap : up to the record, or up to the
retained minimum, whose slot it has freed. -/
theorem activeBody_again {callbacks : Callbacks} (hgap : ∀ gap, callbacks.emitGap gap = true)
    {decoded : TickDecodeResult} {now : ℕ} {s s' : ChannelState cfg × Effects} (hs : s.1.Ready)
    (hb : activeBody callbacks decoded now s = .again s') :
    Reaches callbacks (some decoded) (some decoded) s s' ∧ s'.1.Ready ∧
      s.1.expected < decoded.nativeSequence ∧
      (s'.1.pending.card < s.1.pending.card ∨
        s'.1.pending = s.1.pending ∧ s'.1.expected = decoded.nativeSequence) := by
  obtain ⟨state, fx⟩ := s
  cases nextPass hgap hb with
  | below lt held other least =>
    have hbelow := below_of_minimum hs.sound least
    have hskip := active_skipTo hs.toActive (fun slot hslot => (hbelow slot hslot).le)
    refine ⟨Reaches.log fun _ => ?_, ⟨hskip, hbelow⟩, lt, Or.inr ⟨rfl, rfl⟩⟩
    exact .skip hs.live hs.active lt (fun slot hslot => (hbelow slot hslot).le)
      (fun r hr => by cases hr; exact le_refl _) (Or.inr ⟨decoded, rfl, rfl⟩)
  | above lt held other nonzero least =>
    obtain ⟨hr, hready⟩ := forceGapToMinimum_steps hgap now fx hs (some decoded)
      fun r hr => by cases hr; exact least
    exact ⟨hr, hready, lt, Or.inl (card_forceGapToMinimum_lt hgap now fx hs nonzero)⟩

theorem freezeFromOpen_idle (callbacks : Callbacks) {state : ChannelState cfg}
    (reason : ChannelFaultReason) (sequence now : ℕ) (fx : Effects) (mode : cfg.mode = .kFromOpen)
    (hs : state.Idle) : (freezeFromOpen callbacks state reason sequence now fx).1.Idle := by
  have hfrozen : ({ state with frozen := true } : ChannelState cfg).Idle :=
    ⟨⟨⟨hs.sound.count, hs.sound.inRange, hs.sound.ahead⟩, hs.settled, fun _ => mode,
      hs.discovering_mode⟩, hs.discovering_seen⟩
  unfold freezeFromOpen
  dsimp only
  split_ifs
  · exact hs
  · exact hfrozen
  · exact hfrozen

/-- The last pass accounts for the record. -/
theorem activeBody_done {callbacks : Callbacks} (hgap : ∀ gap, callbacks.emitGap gap = true)
    {decoded : TickDecodeResult} (hr : InRange decoded.nativeSequence) {now : ℕ}
    {s r : ChannelState cfg × Effects} (hs : s.1.Ready)
    (hb : activeBody callbacks decoded now s = .done r) :
    Reaches callbacks (some decoded) none s r ∧ r.1.Idle := by
  obtain ⟨state, fx⟩ := s
  have hretain : state.expected < decoded.nativeSequence →
      state.pending.occupant decoded.nativeSequence = none →
      Reaches callbacks (some decoded) none (state, fx) (retain state (slotOf decoded), fx) ∧
        (retain state (slotOf decoded)).Ready := fun lt free =>
    ⟨Reaches.silent rfl fun _ => .retain hs.live free (Or.inr lt), ready_retain hs hr free lt⟩
  have hpass : decoded.nativeSequence = state.expected →
      ∀ ok, (ok = false → decoded.catalogMatch = true ∧
        callbacks.emitTick (outgoing state (slotOf decoded)) = false) →
      Reaches callbacks (some decoded) none (state, fx) (consume state (slotOf decoded) ok,
        fx.log (.consumed (slotOf decoded) (outgoing state (slotOf decoded)) ok)) :=
    fun position ok hok => Reaches.log fun _ => .pass hs.live hs.active position hs.settled hok
  cases lastPass hgap hb with
  | behind lt => exact ⟨divertLateRecovery_steps _ _ hs.live ⟨hs.active, lt⟩, hs.idle⟩
  | next position =>
    have hactive : (consume state (slotOf decoded) true).Active :=
      ⟨hs.live, hs.active, ⟨hs.sound.count, hs.sound.inRange, fun _ => hs.settled⟩⟩
    obtain ⟨hdrain, hready⟩ := drainContiguous_steps callbacks now
      (consume state (slotOf decoded) true,
        fx.log (.consumed (slotOf decoded) (outgoing state (slotOf decoded)) true)) hactive none
    exact ⟨(hpass position true (by simp)).trans hdrain, hready.idle⟩
  | refused position listed refused =>
    have hready : (consume state (slotOf decoded) false).Ready :=
      ⟨⟨hs.live, hs.active, ⟨hs.sound.count, hs.sound.inRange, hs.sound.ahead⟩⟩, hs.settled⟩
    exact ⟨(hpass position false fun _ => ⟨listed, refused⟩).trans (Reaches.fatal _ _ _ _ _),
      hready.idle⟩
  | far lt free span =>
    obtain ⟨hkept, hready⟩ := hretain lt free
    obtain ⟨hforce, hforced⟩ := forceGapToMinimum_steps hgap now fx hready none (by simp)
    exact ⟨hkept.trans hforce, hforced.idle⟩
  | unwaited lt free span wait =>
    obtain ⟨hkept, hready⟩ := hretain lt free
    obtain ⟨hopen, hopened⟩ := openGap_steps now fx hready none
    obtain ⟨hforce, hforced⟩ := forceGapToMinimum_steps hgap now
      (openGap now (retain state (slotOf decoded)) fx).2 hopened none (by simp)
    exact ⟨(hkept.trans hopen).trans hforce, hforced.idle⟩
  | near lt free span wait =>
    obtain ⟨hkept, hready⟩ := hretain lt free
    obtain ⟨hopen, hopened⟩ := openGap_steps now fx hready none
    exact ⟨hkept.trans hopen, hopened.idle⟩
  | duplicate lt held position same =>
    exact ⟨Reaches.log fun _ => .duplicate hs.live held position same, hs.idle⟩
  | freeze lt held position different mode =>
    exact ⟨freezeFromOpen_steps callbacks now fx hs.live mode
      ⟨decoded, rfl, rfl, _, held, position, different⟩,
      freezeFromOpen_idle callbacks _ _ now fx mode hs.idle⟩
  | divert lt held position different mode =>
    exact ⟨divertLateRecovery_steps _ _ hs.live ⟨mode, _, held, position, different⟩, hs.idle⟩

/-! ## The calls -/

/-- The retry loop of `ProcessActive` accounts for its record. -/
theorem processActive_steps {callbacks : Callbacks} (hgap : ∀ gap, callbacks.emitGap gap = true)
    {decoded : TickDecodeResult} (hr : InRange decoded.nativeSequence) {now : ℕ}
    {s r : ChannelState cfg × Effects} (hs : s.1.Ready)
    (h : processActive callbacks decoded now s = some r) :
    Reaches callbacks (some decoded) none s r ∧ r.1.Idle := by
  refine Loop.iterate_rel (I := fun s : ChannelState cfg × Effects => s.1.Ready)
    (R := fun s r => Reaches callbacks (some decoded) none s r ∧ r.1.Idle) ?_ ?_ ?_ hs h
  · intro s s' hs hb
    exact (activeBody_again hgap hs hb).2.1
  · intro s r hs hb
    exact activeBody_done hgap hr hs hb
  · intro s s' r hs hb hrest
    exact ⟨(activeBody_again hgap hs hb).1.trans hrest.1, hrest.2⟩

/-- A record at a retained position repeats or contradicts the record retained there, and the
first pass tells which. -/
theorem processActive_retained {callbacks : Callbacks} {decoded : TickDecodeResult} {now : ℕ}
    {state : ChannelState cfg} {fx : Effects} {r : ChannelState cfg × Effects} (hs : state.Ready)
    {slot : PendingSlot} (held : slot ∈ state.pending)
    (position : slot.nativeSequence = decoded.nativeSequence)
    (h : processActive callbacks decoded now (state, fx) = some r) :
    SameRecord slot decoded ∧ r = (state, fx.log (.duplicate decoded)) ∨
      ¬SameRecord slot decoded ∧ r =
        if cfg.mode = .kFromOpen then
          freezeFromOpen callbacks state .kCanonicalConflict decoded.nativeSequence now fx
        else
          (state,
            divertLateRecovery callbacks state decoded .kPendingCanonicalConflict fx) := by
  have hlt : state.expected < decoded.nativeSequence := position ▸ hs.settled slot held
  have hocc : state.pending.occupant decoded.nativeSequence = some slot :=
    position ▸ DirectMapped.mem_def.1 held
  rw [processActive, passes] at h
  rcases insert_cases state decoded with
    ⟨free, -⟩ | ⟨slot', ho, ⟨hother, -⟩ | ⟨-, hsame, hi⟩ | ⟨-, hdiff, hi⟩⟩
  · rw [hocc] at free
    cases free
  all_goals
    rw [hocc] at ho
    obtain rfl := Option.some.inj ho
  · exact absurd position hother
  · rw [Loop.iterate_done (activeBody_duplicate hlt hi)] at h
    exact Or.inl ⟨hsame, (Option.some.inj h).symm⟩
  · rw [Loop.iterate_done (activeBody_conflict hlt hi)] at h
    exact Or.inr ⟨hdiff, (Option.some.inj h).symm⟩

/-- The retry loop ends : each further pass frees a slot or makes the record the expected
one. -/
theorem exists_processActive {callbacks : Callbacks}
    (hgap : ∀ gap, callbacks.emitGap gap = true) (decoded : TickDecodeResult) (now : ℕ)
    {s : ChannelState cfg × Effects} (hs : s.1.Ready) :
    ∃ r, processActive callbacks decoded now s = some r := by
  refine Loop.exists_iterate (I := fun s : ChannelState cfg × Effects => s.1.Ready)
    (fun s => s.1.pending.card + if s.1.expected < decoded.nativeSequence then 1 else 0)
    ?_ hs (by rw [passes]; have := card_pending_le s.1; split_ifs <;> omega)
  intro s s' hs hb
  obtain ⟨-, hready, hlt, hfall⟩ := activeBody_again hgap hs hb
  refine ⟨hready, ?_⟩
  rw [if_pos hlt]
  rcases hfall with hcard | ⟨hpending, hexpected⟩
  · split_ifs <;> omega
  · rw [hpending, if_neg (by omega)]
    omega

/-- The hold starts with the first record retained. -/
def openHold (now : ℕ) (state : ChannelState cfg) : ChannelState cfg × Effects :=
  if state.firstSeenNs = 0 then
    ({ state with firstSeenNs := now },
      if cfg.initialHoldNs ≠ 0 then Effects.scheduleDeadline {} now cfg.initialHoldNs else {})
  else (state, {})

theorem openHold_eq (now : ℕ) (state : ChannelState cfg) : ∃ firstSeenNs,
    (openHold now state).1 = { state with firstSeenNs := firstSeenNs } ∧
      (openHold now state).2.events = [] := by
  unfold openHold
  split_ifs
  · exact ⟨now, rfl, rfl⟩
  · exact ⟨now, rfl, rfl⟩
  · exact ⟨state.firstSeenNs, rfl, rfl⟩

/-- `Process` on a discovering channel, by what `Insert` finds. -/
theorem processChannel_discovering {callbacks : Callbacks} {decoded : TickDecodeResult} {now : ℕ}
    {state : ChannelState cfg} (live : state.frozen = false) (hd : state.discovering = true)
    (hmode : cfg.mode = .kPartial) :
    processChannel callbacks decoded now state =
      match insert state decoded with
      | (.kDuplicate, state) => some (state, Effects.log {} (.duplicate decoded))
      | (.kConflict, state) =>
        some (state, divertLateRecovery callbacks state decoded .kPendingCanonicalConflict {})
      | (.kCollision, state) =>
        processActive callbacks decoded now (finishDiscovery callbacks now (state, {}))
      | (.kInserted, state) =>
        if cfg.initialHoldNs = 0 ||
            deadlineReached now (openHold now state).1.firstSeenNs cfg.initialHoldNs then
          some (finishDiscovery callbacks now (openHold now state))
        else some (openHold now state) := by
  unfold processChannel
  rw [live, if_neg Bool.false_ne_true, if_pos ⟨hmode, hd⟩]
  rfl

theorem processChannel_active {callbacks : Callbacks} {decoded : TickDecodeResult} {now : ℕ}
    {state : ChannelState cfg} (live : state.frozen = false) (hd : state.discovering = false) :
    processChannel callbacks decoded now state =
      processActive callbacks decoded now (state, {}) := by
  unfold processChannel
  rw [live, if_neg Bool.false_ne_true, if_neg (by simp [hd])]

theorem pendingCount_ne_zero {state : ChannelState cfg} (hs : state.Sound) {slot : PendingSlot}
    (h : slot ∈ state.pending) : state.pendingCount ≠ 0 := by
  rw [hs.count]
  intro h0
  exact DirectMapped.card_eq_zero_iff.1 h0 slot h

/-- How `Process` goes on a channel : a frozen one drops the record, an active one looks at it
in the loop, and a discovering one retains it, ends the discovery for it, or drops it. -/
inductive ProcessTurn (callbacks : Callbacks) (decoded : TickDecodeResult) (now : ℕ)
    (state : ChannelState cfg) : ChannelState cfg × Effects → Prop where
  | frozen (frozen : state.frozen = true) : ProcessTurn callbacks decoded now state (state, {})
  | active {r : ChannelState cfg × Effects} (live : state.frozen = false)
      (active : state.discovering = false)
      (loop : processActive callbacks decoded now (state, {}) = some r) :
      ProcessTurn callbacks decoded now state r
  | expired (live : state.frozen = false) (discovering : state.discovering = true)
      (free : state.pending.occupant decoded.nativeSequence = none)
      (due : cfg.initialHoldNs = 0 ∨ deadlineReached now
        (openHold now (retain state (slotOf decoded))).1.firstSeenNs cfg.initialHoldNs = true) :
      ProcessTurn callbacks decoded now state
        (finishDiscovery callbacks now (openHold now (retain state (slotOf decoded))))
  | holding (live : state.frozen = false) (discovering : state.discovering = true)
      (free : state.pending.occupant decoded.nativeSequence = none)
      (hold : cfg.initialHoldNs ≠ 0)
      (early : deadlineReached now
        (openHold now (retain state (slotOf decoded))).1.firstSeenNs cfg.initialHoldNs = false) :
      ProcessTurn callbacks decoded now state (openHold now (retain state (slotOf decoded)))
  | collision {slot : PendingSlot} {r : ChannelState cfg × Effects}
      (live : state.frozen = false) (discovering : state.discovering = true)
      (held : state.pending.occupant decoded.nativeSequence = some slot)
      (other : slot.nativeSequence ≠ decoded.nativeSequence)
      (loop : processActive callbacks decoded now
        (finishDiscovery callbacks now (state, {})) = some r) :
      ProcessTurn callbacks decoded now state r
  | duplicate {slot : PendingSlot} (live : state.frozen = false)
      (discovering : state.discovering = true) (held : slot ∈ state.pending)
      (position : slot.nativeSequence = decoded.nativeSequence)
      (same : SameRecord slot decoded) :
      ProcessTurn callbacks decoded now state (state, Effects.log {} (.duplicate decoded))
  | divert {slot : PendingSlot} (live : state.frozen = false)
      (discovering : state.discovering = true) (held : slot ∈ state.pending)
      (position : slot.nativeSequence = decoded.nativeSequence)
      (different : ¬SameRecord slot decoded) :
      ProcessTurn callbacks decoded now state
        (state, divertLateRecovery callbacks state decoded .kPendingCanonicalConflict {})

theorem processTurn {callbacks : Callbacks} {decoded : TickDecodeResult} {now : ℕ}
    {state : ChannelState cfg} {r : ChannelState cfg × Effects} (hs : state.Resting)
    (h : processChannel callbacks decoded now state = some r) :
    ProcessTurn callbacks decoded now state r := by
  cases hf : state.frozen with
  | true =>
    rw [processChannel, hf, if_pos rfl] at h
    obtain rfl := Option.some.inj h
    exact .frozen hf
  | false =>
    cases hd : state.discovering with
    | false =>
      rw [processChannel_active hf hd] at h
      exact .active hf hd h
    | true =>
      rw [processChannel_discovering hf hd (hs.discovering_mode hd)] at h
      rcases insert_cases state decoded with
        ⟨free, hi⟩ | ⟨slot, ho, ⟨hother, hi⟩ | ⟨hpos, hsame, hi⟩ | ⟨hpos, hdiff, hi⟩⟩
      · simp only [hi] at h
        split_ifs at h with hend
        · obtain rfl := Option.some.inj h
          simp only [Bool.or_eq_true, decide_eq_true_eq] at hend
          exact .expired hf hd free hend
        · obtain rfl := Option.some.inj h
          simp only [Bool.or_eq_true, decide_eq_true_eq, not_or, Bool.not_eq_true] at hend
          exact .holding hf hd free hend.1 hend.2
      · simp only [hi] at h
        exact .collision hf hd ho hother h
      · simp only [hi] at h
        obtain rfl := Option.some.inj h
        exact .duplicate hf hd (DirectMapped.mem_of_occupant ho).1 hpos hsame
      · simp only [hi] at h
        obtain rfl := Option.some.inj h
        exact .divert hf hd (DirectMapped.mem_of_occupant ho).1 hpos hdiff

/-- `Process` accounts for its record, on a channel in use or just created. -/
theorem processChannel_steps {callbacks : Callbacks}
    (hgap : ∀ gap, callbacks.emitGap gap = true) {decoded : TickDecodeResult}
    (hr : InRange decoded.nativeSequence) {now : ℕ} {state : ChannelState cfg}
    {r : ChannelState cfg × Effects} (hs : state.Resting)
    (h : processChannel callbacks decoded now state = some r) :
    Reaches callbacks (some decoded) none (state, {}) r ∧ r.1.Idle := by
  have hopen : state.frozen = false → state.discovering = true →
      state.pending.occupant decoded.nativeSequence = none →
      Reaches callbacks (some decoded) none (state, {})
        (openHold now (retain state (slotOf decoded))) := by
    intro live discovering free
    obtain ⟨firstSeenNs, hstate, hevents⟩ := openHold_eq now (retain state (slotOf decoded))
    refine Reaches.trans (r := (retain state (slotOf decoded), {}))
      (Reaches.silent rfl fun _ => .retain live free (Or.inl discovering)) ?_
    rw [← Prod.mk.eta (p := openHold now (retain state (slotOf decoded))), hstate]
    exact Reaches.silent hevents fun _ => .timers
  have hheld : ∀ slot ∈ state.pending, state.Idle := fun slot held =>
    ⟨hs, fun _ => pendingCount_ne_zero hs.sound held⟩
  obtain ⟨firstSeenNs, hstate, -⟩ := openHold_eq now (retain state (slotOf decoded))
  cases processTurn hs h with
  | frozen frozen =>
    have hd := hs.active_of_frozen frozen
    exact ⟨Reaches.silent rfl fun _ => .drop frozen, ⟨hs, fun hd' => by rw [hd] at hd'; cases hd'⟩⟩
  | active live active loop => exact processActive_steps hgap hr (hs.ready live active) loop
  | expired live discovering free due =>
    have hretain := hopen live discovering free
    obtain ⟨hfinish, hready⟩ := finishDiscovery_steps callbacks now
      (openHold now (retain state (slotOf decoded))).2
      (hretain.sound hs.sound fun d hd' => by cases hd'; exact hr)
      (by rw [hstate]; exact live) (by rw [hstate]; exact discovering)
      (by rw [hstate]; exact Nat.succ_ne_zero _) none
    exact ⟨hretain.trans hfinish, hready.idle⟩
  | holding live discovering free hold early =>
    have hretain := hopen live discovering free
    have hdisc : (openHold now (retain state (slotOf decoded))).1.discovering = true := by
      rw [hstate]
      exact discovering
    have hlive : (openHold now (retain state (slotOf decoded))).1.frozen = false := by
      rw [hstate]
      exact live
    refine ⟨hretain, ⟨⟨hretain.sound hs.sound fun d hd' => by cases hd'; exact hr,
      fun hd' => ?_, fun hf' => ?_, fun _ => hs.discovering_mode discovering⟩, fun _ => ?_⟩⟩
    · rw [hdisc] at hd'
      cases hd'
    · rw [hlive] at hf'
      cases hf'
    · rw [hstate]
      exact Nat.succ_ne_zero _
  | collision live discovering held other loop =>
    obtain ⟨hfinish, hready⟩ := finishDiscovery_steps callbacks now {} hs.sound live discovering
      (pendingCount_ne_zero hs.sound (DirectMapped.mem_of_occupant held).1) (some decoded)
    obtain ⟨hactive, hidle⟩ := processActive_steps hgap hr hready loop
    exact ⟨hfinish.trans hactive, hidle⟩
  | duplicate live discovering held position same =>
    exact ⟨Reaches.log fun _ => .duplicate live held position same, hheld _ held⟩
  | divert live discovering held position different =>
    exact ⟨divertLateRecovery_steps _ _ live
      ⟨hs.discovering_mode discovering, _, held, position, different⟩, hheld _ held⟩

theorem exists_processChannel {callbacks : Callbacks}
    (hgap : ∀ gap, callbacks.emitGap gap = true) (decoded : TickDecodeResult) (now : ℕ)
    {state : ChannelState cfg} (hs : state.Resting) :
    ∃ r, processChannel callbacks decoded now state = some r := by
  cases hf : state.frozen with
  | true => exact ⟨_, by rw [processChannel, hf, if_pos rfl]⟩
  | false =>
    cases hd : state.discovering with
    | false =>
      rw [processChannel_active hf hd]
      exact exists_processActive hgap decoded now (hs.ready hf hd)
    | true =>
      rw [processChannel_discovering hf hd (hs.discovering_mode hd)]
      rcases insert_cases state decoded with
        ⟨-, hi⟩ | ⟨slot, ho, ⟨-, hi⟩ | ⟨-, -, hi⟩ | ⟨-, -, hi⟩⟩
      · simp only [hi]
        split_ifs
        · exact ⟨_, rfl⟩
        · exact ⟨_, rfl⟩
      · obtain ⟨held, -⟩ := DirectMapped.mem_of_occupant ho
        simp only [hi]
        exact exists_processActive hgap decoded now (finishDiscovery_steps callbacks now {}
          hs.sound hf hd (pendingCount_ne_zero hs.sound held) none).2
      · simp only [hi]
        exact ⟨_, rfl⟩
      · simp only [hi]
        exact ⟨_, rfl⟩

/-- A channel's turn in `Poll` : it does nothing, ends the discovery, forces one gap, or
schedules the deadline of a timer that is running. -/
inductive PollTurn (callbacks : Callbacks) (now : ℕ) (state : ChannelState cfg) :
    ChannelState cfg × Effects → Prop where
  | skipped (idle : state.frozen = true ∨ state.pendingCount = 0) :
      PollTurn callbacks now state (state, {})
  | ended (live : state.frozen = false) (nonempty : state.pendingCount ≠ 0)
      (discovering : state.discovering = true)
      (reached : deadlineReached now state.firstSeenNs cfg.initialHoldNs = true) :
      PollTurn callbacks now state (finishDiscovery callbacks now (state, {}))
  | holding (live : state.frozen = false) (nonempty : state.pendingCount ≠ 0)
      (discovering : state.discovering = true)
      (early : deadlineReached now state.firstSeenNs cfg.initialHoldNs = false) :
      PollTurn callbacks now state
        (state, Effects.scheduleDeadline {} state.firstSeenNs cfg.initialHoldNs)
  | forced (live : state.frozen = false) (nonempty : state.pendingCount ≠ 0)
      (active : state.discovering = false) (opened : state.gapOpenNs ≠ 0)
      (reached : deadlineReached now state.gapOpenNs cfg.gapWaitNs = true) :
      PollTurn callbacks now state (forceGapToMinimum callbacks now (state, {}))
  | waiting (live : state.frozen = false) (nonempty : state.pendingCount ≠ 0)
      (active : state.discovering = false) (opened : state.gapOpenNs ≠ 0)
      (early : deadlineReached now state.gapOpenNs cfg.gapWaitNs = false) :
      PollTurn callbacks now state
        (state, Effects.scheduleDeadline {} state.gapOpenNs cfg.gapWaitNs)
  | unopened (live : state.frozen = false) (nonempty : state.pendingCount ≠ 0)
      (active : state.discovering = false) (unopened : state.gapOpenNs = 0) :
      PollTurn callbacks now state (state, {})

theorem pollTurn {callbacks : Callbacks} {now : ℕ} {state : ChannelState cfg}
    {r : ChannelState cfg × Effects} (h : pollChannel callbacks now state = r) :
    PollTurn callbacks now state r := by
  subst h
  unfold pollChannel
  split_ifs with hskip hd hreached hdue hopen
  · exact .skipped (by simpa using hskip)
  all_goals
    simp only [Bool.or_eq_true, beq_iff_eq, not_or, Bool.not_eq_true] at hskip
    obtain ⟨live, nonempty⟩ := hskip
  · exact .ended live nonempty hd hreached
  · exact .holding live nonempty hd (by simpa using hreached)
  · simp only [Bool.and_eq_true, decide_eq_true_eq] at hdue
    exact .forced live nonempty (by simpa using hd) hdue.1 hdue.2
  · refine .waiting live nonempty (by simpa using hd) hopen ?_
    simpa [hopen] using hdue
  · exact .unopened live nonempty (by simpa using hd) (not_not.1 hopen)

/-- A channel's turn in `Poll` finishes its discovery, forces one gap, or does nothing. -/
theorem pollChannel_steps {callbacks : Callbacks} (hgap : ∀ gap, callbacks.emitGap gap = true)
    (now : ℕ) {state : ChannelState cfg} (hs : state.Idle) :
    Reaches callbacks none none (state, {}) (pollChannel callbacks now state) ∧
      (pollChannel callbacks now state).1.Idle := by
  have hstill : ∀ fx : Effects, fx.events = [] →
      Reaches callbacks none none (state, {}) (state, fx) ∧ state.Idle := by
    refine fun fx hfx => ⟨fun before => ?_, hs⟩
    show Steps callbacks ⟨state, none, before ++ []⟩ ⟨state, none, before ++ fx.events⟩
    rw [hfx]
  generalize hturn : pollChannel callbacks now state = r
  cases pollTurn hturn with
  | skipped => exact hstill _ rfl
  | ended live nonempty discovering =>
    obtain ⟨hfinish, hready⟩ := finishDiscovery_steps callbacks now {} hs.sound live discovering
      nonempty none
    exact ⟨hfinish, hready.idle⟩
  | holding => exact hstill _ rfl
  | forced live nonempty active =>
    obtain ⟨hforce, hready⟩ := forceGapToMinimum_steps hgap now {} (hs.ready live active) none
      (by simp)
    exact ⟨hforce, hready.idle⟩
  | waiting => exact hstill _ rfl
  | unopened => exact hstill _ rfl

/-- The state in which the flush loop of a channel starts. -/
theorem flushStart_steps (callbacks : Callbacks) (now : ℕ) {state : ChannelState cfg}
    (hs : state.Idle) (live : state.frozen = false) :
    let start := if state.discovering then finishDiscovery callbacks now (state, {})
      else (state, {})
    Reaches callbacks none none (state, {}) start ∧ start.1.Ready := by
  dsimp only
  split_ifs with hd
  · exact finishDiscovery_steps callbacks now {} hs.sound live hd (hs.discovering_seen hd) none
  · exact ⟨Reaches.refl _ _ _, hs.ready live (by simpa using hd)⟩

theorem flushBody_again {callbacks : Callbacks} (hgap : ∀ gap, callbacks.emitGap gap = true)
    {now : ℕ} {s s' : ChannelState cfg × Effects} (hs : s.1.Ready)
    (hb : flushBody callbacks now s = .again s') :
    Reaches callbacks none none s s' ∧ s'.1.Ready ∧ s'.1.pending.card < s.1.pending.card := by
  obtain ⟨state, fx⟩ := s
  simp only [flushBody] at hb
  split_ifs at hb with hc
  cases hb
  obtain ⟨hforce, hready⟩ := forceGapToMinimum_steps hgap now fx hs none (by simp)
  exact ⟨hforce, hready, card_forceGapToMinimum_lt hgap now fx hs hc⟩

theorem flushChannel_frozen {callbacks : Callbacks} {now : ℕ} {state : ChannelState cfg}
    {r : ChannelState cfg × Effects} (frozen : state.frozen = true)
    (h : flushChannel callbacks now state = some r) : r = (state, {}) := by
  rw [flushChannel, frozen, if_pos rfl] at h
  exact (Option.some.inj h).symm

/-- A flush of a channel that is not frozen, by what the end of the discovery and the gaps
it forces keep. -/
theorem flushChannel_keep {callbacks : Callbacks} (hgap : ∀ gap, callbacks.emitGap gap = true)
    {now : ℕ} {state : ChannelState cfg} {r : ChannelState cfg × Effects} (hs : state.Idle)
    (live : state.frozen = false) (h : flushChannel callbacks now state = some r)
    {I : ChannelState cfg × Effects → Prop} (hactive : state.discovering = false → I (state, {}))
    (hfinish : state.discovering = true → I (finishDiscovery callbacks now (state, {})))
    (hforce : ∀ s : ChannelState cfg × Effects, Loop.Passes (flushBody callbacks now)
        (if state.discovering then finishDiscovery callbacks now (state, {}) else (state, {})) s →
      s.1.Ready → s.1.pendingCount ≠ 0 → I s → I (forceGapToMinimum callbacks now s)) :
    I r ∧ r.1.Ready ∧ r.1.pendingCount = 0 := by
  rw [flushChannel, live, if_neg Bool.false_ne_true] at h
  obtain ⟨-, hready⟩ := flushStart_steps callbacks now hs live
  have hstart : I (if state.discovering then finishDiscovery callbacks now (state, {})
      else (state, {})) := by
    split_ifs with hd
    · exact hfinish hd
    · exact hactive (Bool.eq_false_iff.2 hd)
  refine Loop.iterate_keep (I := fun s : ChannelState cfg × Effects => s.1.Ready ∧ I s)
    (Q := fun r => I r ∧ r.1.Ready ∧ r.1.pendingCount = 0) ?_ ?_ ⟨hready, hstart⟩ h
  · rintro ⟨state', fx⟩ s' hp ⟨hs, hkept⟩ hb
    refine ⟨(flushBody_again hgap hs hb).2.1, ?_⟩
    rw [flushBody] at hb
    split_ifs at hb with hc
    obtain rfl := Pass.again.inj hb
    exact hforce _ hp hs hc hkept
  · rintro ⟨state', fx⟩ r - ⟨hs, hkept⟩ hb
    rw [flushBody] at hb
    split_ifs at hb with hc
    obtain rfl := Pass.done.inj hb
    exact ⟨hkept, hs, hc⟩

/-- A channel's turn in `Flush` leaves nothing retained unless it is frozen. -/
theorem flushChannel_steps {callbacks : Callbacks} (hgap : ∀ gap, callbacks.emitGap gap = true)
    {now : ℕ} {state : ChannelState cfg} {r : ChannelState cfg × Effects} (hs : state.Idle)
    (h : flushChannel callbacks now state = some r) :
    Reaches callbacks none none (state, {}) r ∧ r.1.Idle ∧
      (state.frozen = false → r.1.pendingCount = 0) := by
  cases hf : state.frozen with
  | true =>
    obtain rfl := flushChannel_frozen hf h
    exact ⟨Reaches.refl _ _ _, hs, fun h => by cases h⟩
  | false =>
    obtain ⟨hreach, hready, hempty⟩ := flushChannel_keep hgap hs hf h
      (I := Reaches callbacks none none (state, {})) (fun _ => Reaches.refl _ _ _)
      (fun hd => (finishDiscovery_steps callbacks now {} hs.sound hf hd
        (hs.discovering_seen hd) none).1)
      fun s _ hs _ hreach => hreach.trans
        (forceGapToMinimum_steps hgap now s.2 hs none (by simp)).1
    exact ⟨hreach, hready.idle, fun _ => hempty⟩

/-- The flush loop ends : each further pass frees a slot. -/
theorem exists_flushChannel {callbacks : Callbacks} (hgap : ∀ gap, callbacks.emitGap gap = true)
    (now : ℕ) {state : ChannelState cfg} (hs : state.Idle) :
    ∃ r, flushChannel callbacks now state = some r := by
  unfold flushChannel
  cases hf : state.frozen with
  | true => exact ⟨_, if_pos rfl⟩
  | false =>
    rw [if_neg Bool.false_ne_true]
    obtain ⟨-, hready⟩ := flushStart_steps callbacks now hs hf
    refine Loop.exists_iterate (I := fun s : ChannelState cfg × Effects => s.1.Ready)
      (fun s => s.1.pending.card)
      (fun s s' hs hb => (flushBody_again hgap hs hb).2) hready ?_
    have hle := card_pending_le
      (if state.discovering then finishDiscovery callbacks now (state, {}) else (state, {})).1
    rw [passes]
    omega

theorem freezeChannel_steps (callbacks : Callbacks) (sequence now : ℕ) {state : ChannelState cfg}
    (mode : cfg.mode = .kFromOpen) (hs : state.Resting) :
    Reaches callbacks none none (state, {}) (freezeChannel callbacks sequence now state) ∧
      (freezeChannel callbacks sequence now state).1.Idle := by
  have hidle : state.Idle := ⟨hs, fun hd => by
    have hm := hs.discovering_mode hd
    rw [mode] at hm
    cases hm⟩
  refine ⟨?_, freezeFromOpen_idle callbacks _ _ now {} mode hidle⟩
  unfold freezeChannel
  cases hf : state.frozen with
  | true =>
    rw [freezeFromOpen, hf, if_pos rfl]
    exact Reaches.refl _ _ _
  | false => exact freezeFromOpen_steps callbacks now {} hf mode rfl

end SequenceRecovery

end L2Flow
