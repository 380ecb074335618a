import L2Flow.Isolation
import L2Flow.Window

/-!
# Exact timers

`Poll` returns at once before the next deadline, and otherwise gives every channel its
turn. The shortcut is sound : `Poll` has the outputs and the effect of a scan that never
looks at the next deadline, in which a channel that retains records ends its discovery
once the hold has passed, is forced to its minimum once the gap timer has passed, and is
left alone otherwise. And the gap timer is honest : it was started by the step after which
the frontier first waited below a retained record (`poll_exact`).
-/

namespace L2Flow

variable {cfg : RecoveryConfig}

namespace SequenceRecovery

/-! ## The scan -/

/-- `Poll` without its shortcut : every channel has its turn. -/
def scan (callbacks : LaneCallbacks) (now : ℕ) (lane : SequenceRecovery cfg) :
    SequenceRecovery cfg × Trace :=
  afterTurns lane 0 (lane.channels.map fun entry =>
    (entry, pollChannel (callbacks entry.mailboxSlot) now entry.state))

/-- What a turn does, by the timers of the channel. -/
def dueTurn (now : ℕ) (state : ChannelState cfg) : ChannelState cfg × List Event :=
  if state.frozen ∨ state.pendingCount = 0 then (state, [])
  else if state.discovering then
    if state.firstSeenNs + cfg.initialHoldNs ≤ now then
      ((finishDiscovery .succeed now (state, {})).1,
        (finishDiscovery .succeed now (state, {})).2.events)
    else (state, [])
  else if state.gapOpenNs + cfg.gapWaitNs ≤ now then
    ((forceGapToMinimum .succeed now (state, {})).1,
      (forceGapToMinimum .succeed now (state, {})).2.events)
  else (state, [])

theorem deadlineReached_iff {now start delay : ℕ} :
    deadlineReached now start delay = true ↔ start + delay ≤ now := by
  simp only [deadlineReached, Bool.and_eq_true, decide_eq_true_eq]
  omega

/-- A turn goes by the timers, when a channel that retains records has started its gap
timer. -/
theorem pollChannel_eq (now : ℕ) {state : ChannelState cfg}
    (hopen : state.frozen = false → state.discovering = false → state.pendingCount ≠ 0 →
      state.gapOpenNs ≠ 0) :
    ((pollChannel .succeed now state).1, (pollChannel .succeed now state).2.events) =
      dueTurn now state := by
  unfold pollChannel dueTurn
  rcases hf : state.frozen with - | -
  · rcases Nat.eq_zero_or_pos state.pendingCount with hc | hc
    · simp [hc]
    · rcases hd : state.discovering with - | -
      · have hgap := hopen hf hd hc.ne'
        by_cases hdue : state.gapOpenNs + cfg.gapWaitNs ≤ now
        · simp [hc.ne', hgap, hdue, deadlineReached_iff.2 hdue]
        · have hnot : deadlineReached now state.gapOpenNs cfg.gapWaitNs = false :=
            Bool.eq_false_iff.2 fun h => hdue (deadlineReached_iff.1 h)
          simp [hc.ne', hgap, hdue, hnot]
      · by_cases hdue : state.firstSeenNs + cfg.initialHoldNs ≤ now
        · simp [hc.ne', hdue, deadlineReached_iff.2 hdue]
        · have hnot : deadlineReached now state.firstSeenNs cfg.initialHoldNs = false :=
            Bool.eq_false_iff.2 fun h => hdue (deadlineReached_iff.1 h)
          simp [hc.ne', hdue, hnot]
  · simp

/-- Before the next deadline a scan changes no channel and does nothing. -/
theorem scan_early {lane : SequenceRecovery cfg} (hv : lane.Valid) (ht : lane.Timely) {now : ℕ}
    (before : lane.nextDeadlineNs = 0 ∨ now < lane.nextDeadlineNs) :
    (scan (fun _ => .succeed) now lane).1.channels = lane.channels ∧
      (scan (fun _ => .succeed) now lane).2 = [] := by
  have hturn : ∀ entry ∈ lane.channels, (pollChannel .succeed now entry.state).1 = entry.state ∧
      (pollChannel .succeed now entry.state).2.events = [] := by
    intro entry hentry
    obtain ⟨i, hi⟩ := List.getElem?_of_mem hentry
    have hstate : lane.stateOf entry.state.key = some entry.state :=
      (stateOf_eq_some_iff hv.chained.nodup).2 ⟨rfl, i, entry, hi, rfl⟩
    have htimed := ht.timed entry.state.key
    have hdue := ht.due entry.state.key
    rw [hstate, stateD, Option.getD_some] at htimed hdue
    exact pollChannel_early now htimed fun d hd => by
      have := hdue d hd
      omega
  constructor
  · have hsame : ∀ entry ∈ lane.channels,
        ({ entry with state := (pollChannel .succeed now entry.state).1 } : ChannelEntry cfg) =
          entry := fun entry hentry => by rw [(hturn entry hentry).1]
    rw [scan, afterTurns, List.map_map]
    exact (List.map_congr_left hsame).trans (List.map_id _)
  · show (lane.channels.map fun entry => (entry, pollChannel .succeed now entry.state)).flatMap
      (fun turn => tag turn.1.state.key turn.2.2.events) = []
    rw [List.flatMap_map, List.flatMap_eq_nil_iff]
    intro entry hentry
    show tag entry.state.key (pollChannel .succeed now entry.state).2.events = []
    rw [(hturn entry hentry).2]
    rfl

/-- `Poll` does what the scan does. -/
theorem poll_eq_scan {lane : SequenceRecovery cfg} (hv : lane.Valid) (ht : lane.Timely) (now : ℕ) :
    (poll (fun _ => .succeed) now lane).1.channels =
        (scan (fun _ => .succeed) now lane).1.channels ∧
      (poll (fun _ => .succeed) now lane).2 = (scan (fun _ => .succeed) now lane).2 := by
  unfold poll
  split_ifs with hbefore
  · obtain ⟨hchannels, htrace⟩ := scan_early hv ht hbefore
    exact ⟨hchannels.symm, htrace.symm⟩
  · exact ⟨rfl, rfl⟩

/-! ## Waiting below a retained record -/

/-- The frontier `expected` of a live channel waits : a later record is retained. -/
def Waits (expected : ℕ) (state : ChannelState cfg) : Prop :=
  state.frozen = false ∧ state.discovering = false ∧ state.expected = expected ∧
    state.pendingCount ≠ 0

/-- The channel has left discovery, and its frontier is above `expected` or stays below a
retained record. -/
structure Waited (expected : ℕ) (state : ChannelState cfg) : Prop where
  active : state.discovering = false
  le : expected ≤ state.expected
  below : expected < state.expected ∨ ∃ slot ∈ state.pending, expected < slot.nativeSequence

theorem step_waited {callbacks : Callbacks} {e : ℕ} {c c' : Conf cfg} (h : Step callbacks c c')
    (hc : Waited e c.state) : Waited e c'.state := by
  obtain ⟨hactive, hmono⟩ := step_advances h hc.active
  refine ⟨hactive, hc.le.trans hmono, ?_⟩
  rcases hc.below with hlt | ⟨slot, held, hlt⟩
  · exact Or.inl (lt_of_lt_of_le hlt hmono)
  · -- only the release of the record itself can end its retention
    rcases h with _ | ⟨-, free, -⟩ | _ | _ | _ | ⟨-, -, held', position, -⟩ | _ | _ | _ | _ | _
    case retain => exact Or.inr ⟨slot, (mem_retain free).2 (Or.inr held), hlt⟩
    case release slot' accepted =>
      by_cases heq : slot = slot'
      · rw [heq, position] at hlt
        exact Or.inl (lt_of_lt_of_le hlt hmono)
      · exact Or.inr ⟨slot, (mem_release held' position).2 ⟨held, heq⟩, hlt⟩
    all_goals exact Or.inr ⟨slot, held, hlt⟩

theorem Reaches.waited {callbacks : Callbacks} {hand hand' : Option TickDecodeResult} {e : ℕ}
    {s r : ChannelState cfg × Effects} (h : Reaches callbacks hand hand' s r)
    (hs : Waited e s.1) : Waited e r.1 :=
  Steps.keep (I := fun c => Waited e c.state) step_waited (h []) hs

/-! ## When the gap timer was started -/

/-- A channel that has left discovery runs its gap timer exactly while it retains records. -/
def Stamped (state : ChannelState cfg) : Prop :=
  state.pendingCount = 0 ↔ state.gapOpenNs = 0

section Functions

variable {now : ℕ}

/-- A drain restarts the timer for what it leaves. -/
theorem gapOpenNs_drain (s : ChannelState cfg × Effects) :
    (drainContiguous .succeed now s).1.gapOpenNs =
      if (drainContiguous .succeed now s).1.pendingCount = 0 then 0 else now := by
  refine Loop.run_rel (I := fun _ => True)
    (R := fun _ r : ChannelState cfg × Effects =>
      r.1.gapOpenNs = if r.1.pendingCount = 0 then 0 else now)
    (fun _ _ _ _ => trivial) ?_ (fun _ _ _ _ _ hr => hr) trivial
  rintro ⟨state, fx⟩ r - hb
  rcases hf : find state state.expected with - | slot
  · simp only [drainBody, hf] at hb
    obtain rfl := Pass.done.inj hb
    rfl
  · rcases drainBody_some .succeed now fx hf with he | ⟨-, hrefused, -⟩
    · simp [he] at hb
    · cases hrefused

theorem stamped_drain (hnow : now ≠ 0) (s : ChannelState cfg × Effects) :
    Stamped (drainContiguous .succeed now s).1 := by
  rw [Stamped, gapOpenNs_drain]
  split_ifs with hc
  · simp [hc]
  · simp [hc, hnow]

/-- A forced gap moves the frontier and restarts the timer. -/
theorem forceGap_restarts (hnow : now ≠ 0) {state : ChannelState cfg} (fx : Effects)
    (hs : state.Ready) :
    Stamped (forceGapToMinimum .succeed now (state, fx)).1 ∧
      (state.pendingCount ≠ 0 →
        state.expected < (forceGapToMinimum .succeed now (state, fx)).1.expected ∧
        ((forceGapToMinimum .succeed now (state, fx)).1.pendingCount ≠ 0 →
          (forceGapToMinimum .succeed now (state, fx)).1.gapOpenNs = now)) := by
  by_cases hc : state.pendingCount = 0
  · rw [forceGapToMinimum, if_pos hc]
    exact ⟨⟨fun _ => rfl, fun _ => hc⟩, fun h => absurd hc h⟩
  · obtain ⟨slot, held, hmin, hleast⟩ := exists_minimumPending hs.sound hc
    have hskip : (skipTo state (minimumPending state)).Active :=
      active_skipTo hs.toActive fun slot' hslot' => hmin ▸ hleast slot' hslot'
    have hlt : state.expected < minimumPending state := hmin ▸ hs.settled slot held
    rw [forceGapToMinimum_eq (fun _ => rfl) now fx hs hc]
    refine ⟨stamped_drain hnow _, fun _ => ⟨?_, fun hleft => ?_⟩⟩
    · obtain ⟨hreach, -⟩ := drainContiguous_steps .succeed now
        (skipTo state (minimumPending state),
          fx.log (.gap (skipRecord state (minimumPending state) now) true)) hskip none
      exact lt_of_lt_of_le hlt (hreach.advances hskip.active).2
    · rw [gapOpenNs_drain, if_neg hleft]

/-- What a call leaves on a channel that had left discovery : the timer runs exactly while
records are retained. It was started by the call if the frontier has moved or nothing was
retained before, and is the old one if the frontier waits where it did. -/
structure Restarted (now : ℕ) (state after : ChannelState cfg) : Prop where
  stamped : after.frozen = false → Stamped after
  started : after.frozen = false → after.pendingCount ≠ 0 →
    (after.gapOpenNs = now ∧ (state.expected < after.expected ∨ state.pendingCount = 0)) ∨
      (after.gapOpenNs = state.gapOpenNs ∧ after.expected = state.expected ∧
        state.pendingCount ≠ 0)

theorem restarted_self {state : ChannelState cfg} (hstamped : Stamped state) :
    Restarted now state state :=
  ⟨fun _ => hstamped, fun _ hc => Or.inr ⟨rfl, rfl, hc⟩⟩

theorem restarted_frozen {state after : ChannelState cfg} (hf : after.frozen = true) :
    Restarted now state after :=
  ⟨fun h => (by cases hf.symm.trans h), fun h => (by cases hf.symm.trans h)⟩

theorem frozen_freezeFromOpen (callbacks : Callbacks) (state : ChannelState cfg)
    (reason : ChannelFaultReason) (sequence : ℕ) (fx : Effects) :
    (freezeFromOpen callbacks state reason sequence now fx).1.frozen = true := by
  rw [freezeFromOpen]
  split_ifs with hf
  · exact hf
  · dsimp only
    split_ifs <;> rfl

/-- The frontier has moved and the timer, if it runs, runs from now. -/
theorem restarted_moved {state after : ChannelState cfg} (hstamped : Stamped after)
    (hlt : state.expected < after.expected)
    (hnow : after.pendingCount ≠ 0 → after.gapOpenNs = now) : Restarted now state after :=
  ⟨fun _ => hstamped, fun _ hc => Or.inl ⟨hnow hc, Or.inl hlt⟩⟩

theorem restarted_openGap (hnow : now ≠ 0) {state : ChannelState cfg} (hstamped : Stamped state)
    (slot : PendingSlot) (fx : Effects) :
    Restarted now state (openGap now (retain state slot) fx).1 := by
  obtain ⟨hstate, -⟩ := openGap_eq now (retain state slot) fx
  have hcount : (openGap now (retain state slot) fx).1.pendingCount ≠ 0 := by
    rw [hstate]
    exact Nat.succ_ne_zero _
  have hopen : (openGap now (retain state slot) fx).1.gapOpenNs =
      if state.gapOpenNs = 0 then now else state.gapOpenNs := by
    rw [hstate]
    rfl
  refine ⟨fun _ => ⟨fun h => absurd h hcount, fun h => ?_⟩, fun _ _ => ?_⟩
  · rw [hopen] at h
    split_ifs at h with h0
    · exact absurd h hnow
    · exact absurd h h0
  · rw [hopen, show (openGap now (retain state slot) fx).1.expected = state.expected by
      rw [hstate]; rfl]
    split_ifs with h0
    · exact Or.inl ⟨rfl, Or.inr (hstamped.2 h0)⟩
    · exact Or.inr ⟨rfl, rfl, fun hc => h0 (hstamped.1 hc)⟩

variable {decoded : TickDecodeResult}

theorem restarted_again (hnow : now ≠ 0) {s s' : ChannelState cfg × Effects} (hs : s.1.Ready)
    (hstamped : Stamped s.1) (hb : activeBody .succeed decoded now s = .again s') :
    Stamped s'.1 ∧ s.1.expected < s'.1.expected ∧
      (s'.1.expected = decoded.nativeSequence ∨
        (s'.1.pendingCount ≠ 0 → s'.1.gapOpenNs = now)) := by
  obtain ⟨state, fx⟩ := s
  cases nextPass (fun _ => rfl) hb with
  | below lt => exact ⟨hstamped, lt, Or.inl rfl⟩
  | above lt held other nonzero =>
    obtain ⟨hstamped', hmoved⟩ := forceGap_restarts hnow fx hs
    obtain ⟨hlt', hleft⟩ := hmoved nonzero
    exact ⟨hstamped', hlt', Or.inr hleft⟩

theorem restarted_done (hnow : now ≠ 0) (hr : InRange decoded.nativeSequence)
    {s r : ChannelState cfg × Effects} (hs : s.1.Ready) (hstamped : Stamped s.1)
    (hb : activeBody .succeed decoded now s = .done r) :
    Restarted now s.1 r.1 ∧
      (s.1.expected = decoded.nativeSequence → r.1.pendingCount ≠ 0 → r.1.gapOpenNs = now) := by
  obtain ⟨state, fx⟩ := s
  cases lastPass (fun _ => rfl) hb with
  | behind lt => exact ⟨restarted_self hstamped, fun h => absurd h lt.ne'⟩
  | next =>
    have hactive : (consume state (slotOf decoded) true).Active :=
      ⟨hs.live, hs.active, ⟨hs.sound.count, hs.sound.inRange, fun _ => hs.settled⟩⟩
    obtain ⟨hreach, -⟩ := drainContiguous_steps .succeed now
      (consume state (slotOf decoded) true,
        fx.log (.consumed (slotOf decoded) (outgoing state (slotOf decoded)) true)) hactive none
    have hlt : state.expected < _ := Nat.lt_of_succ_le (hreach.advances hs.active).2
    have hleft : ∀ s : ChannelState cfg × Effects,
        (drainContiguous .succeed now s).1.pendingCount ≠ 0 →
        (drainContiguous .succeed now s).1.gapOpenNs = now := fun s hc => by
      rw [gapOpenNs_drain, if_neg hc]
    exact ⟨restarted_moved (stamped_drain hnow _) hlt (hleft _), fun _ => hleft _⟩
  | refused position listed refused => cases refused
  | far lt free =>
    obtain ⟨hstamped', hmoved⟩ := forceGap_restarts hnow fx (ready_retain hs hr free lt)
    obtain ⟨hlt', hleft⟩ := hmoved (Nat.succ_ne_zero _)
    exact ⟨restarted_moved hstamped' hlt' hleft, fun h => absurd h lt.ne⟩
  | unwaited lt free =>
    obtain ⟨-, hready⟩ : Reaches .succeed none none _ _ ∧ _ :=
      openGap_steps now fx (ready_retain hs hr free lt) none
    obtain ⟨hstate, -⟩ := openGap_eq now (retain state (slotOf decoded)) fx
    obtain ⟨hstamped', hmoved⟩ := forceGap_restarts hnow
      (openGap now (retain state (slotOf decoded)) fx).2 hready
    obtain ⟨hlt', hleft⟩ := hmoved (by rw [hstate]; exact Nat.succ_ne_zero _)
    refine ⟨restarted_moved hstamped' (lt_of_eq_of_lt ?_ hlt') hleft, fun h => absurd h lt.ne⟩
    rw [hstate]
    rfl
  | near lt => exact ⟨restarted_openGap hnow hstamped (slotOf decoded) fx, fun h => absurd h lt.ne⟩
  | duplicate lt => exact ⟨restarted_self hstamped, fun h => absurd h lt.ne⟩
  | freeze lt =>
    exact ⟨restarted_frozen (frozen_freezeFromOpen _ _ _ _ _), fun h => absurd h lt.ne⟩
  | divert lt => exact ⟨restarted_self hstamped, fun h => absurd h lt.ne⟩

theorem restarted_processActive (hnow : now ≠ 0) (hr : InRange decoded.nativeSequence)
    {s r : ChannelState cfg × Effects} (hs : s.1.Ready) (hstamped : Stamped s.1)
    (hp : processActive .succeed decoded now s = some r) : Restarted now s.1 r.1 := by
  refine (Loop.iterate_rel
    (I := fun s : ChannelState cfg × Effects => s.1.Ready ∧ Stamped s.1)
    (R := fun s r : ChannelState cfg × Effects => s.1.expected ≤ r.1.expected ∧
      Restarted now s.1 r.1 ∧
        (s.1.expected = decoded.nativeSequence → r.1.pendingCount ≠ 0 → r.1.gapOpenNs = now))
    ?_ ?_ ?_ ⟨hs, hstamped⟩ hp).2.1
  · rintro s s' ⟨hs, hstamped⟩ hb
    exact ⟨(activeBody_again (fun _ => rfl) hs hb).2.1, (restarted_again hnow hs hstamped hb).1⟩
  · rintro s r ⟨hs, hstamped⟩ hb
    obtain ⟨hreach, -⟩ : Reaches .succeed (some decoded) none s r ∧ _ :=
      activeBody_done (fun _ => rfl) hr hs hb
    exact ⟨(hreach.advances hs.active).2, restarted_done hnow hr hs hstamped hb⟩
  · rintro s s' r ⟨hs, hstamped⟩ hb ⟨hle, hrest, hat⟩
    obtain ⟨-, hlt, hwhy⟩ := restarted_again hnow hs hstamped hb
    have hlt' : s.1.expected < r.1.expected := lt_of_lt_of_le hlt hle
    refine ⟨hlt'.le, ⟨hrest.stamped, fun live hc => Or.inl ⟨?_, Or.inl hlt'⟩⟩, fun h => ?_⟩
    · rcases hwhy with hseq | hleft
      · exact hat hseq hc
      · rcases hrest.started live hc with ⟨hnow', -⟩ | ⟨hsame, -, hc'⟩
        · exact hnow'
        · exact hsame.trans (hleft hc')
    · exact absurd h (activeBody_again (fun _ => rfl) hs hb).2.2.1.ne

/-! ## The calls on a channel -/

/-- What a call at `now` makes of the state `state` of a channel : if the frontier waits
afterwards, it waited before and the timer is the old one, or the call started both. -/
structure Dated (now : ℕ) (state after : ChannelState cfg) : Prop where
  stamped : after.frozen = false → after.discovering = false → Stamped after
  since : ∀ e, Waits e after → (Waits e state ∧ after.gapOpenNs = state.gapOpenNs) ∨
    (¬Waits e state ∧ after.gapOpenNs = now)

theorem dated_self {state : ChannelState cfg}
    (hstamped : state.frozen = false → state.discovering = false → Stamped state) :
    Dated now state state :=
  ⟨hstamped, fun _ hw => Or.inl ⟨hw, rfl⟩⟩

theorem Restarted.dated {state after : ChannelState cfg} (h : Restarted now state after)
    (live : state.frozen = false) (active : state.discovering = false) : Dated now state after := by
  refine ⟨fun hlive _ => h.stamped hlive, fun e ⟨hlive, _, he, hc⟩ => ?_⟩
  rcases h.started hlive hc with ⟨hnow, hmoved⟩ | ⟨hsame, hexpected, hc'⟩
  · refine Or.inr ⟨fun ⟨_, _, he', hc'⟩ => ?_, hnow⟩
    rcases hmoved with hlt | h0
    · omega
    · exact hc' h0
  · exact Or.inl ⟨⟨live, active, hexpected.symm.trans he, hc'⟩, hsame⟩

/-- After a discovery has ended in the call. -/
theorem dated_discovered {state after : ChannelState cfg} (hd : state.discovering = true)
    (hstamped : after.frozen = false → Stamped after)
    (hnow : after.frozen = false → after.pendingCount ≠ 0 → after.gapOpenNs = now) :
    Dated now state after := by
  refine ⟨fun hlive _ => hstamped hlive, fun e ⟨hlive, _, _, hc⟩ => Or.inr ⟨?_, hnow hlive hc⟩⟩
  rintro ⟨-, hactive, -⟩
  cases hd.symm.trans hactive

theorem dated_discovering {state after : ChannelState cfg} (hd : after.discovering = true) :
    Dated now state after :=
  ⟨fun _ h => (by cases hd.symm.trans h), fun _ hw => (by cases hd.symm.trans hw.2.1)⟩

/-- A discovery that ends starts the timer for what it leaves. -/
theorem restarts_finishDiscovery (hnow : now ≠ 0) {state : ChannelState cfg} (fx : Effects)
    (hd : state.discovering = true) (hc : state.pendingCount ≠ 0) :
    Stamped (finishDiscovery .succeed now (state, fx)).1 ∧
      ((finishDiscovery .succeed now (state, fx)).1.pendingCount ≠ 0 →
        (finishDiscovery .succeed now (state, fx)).1.gapOpenNs = now) := by
  rw [finishDiscovery_eq .succeed now fx hd hc]
  exact ⟨stamped_drain hnow _, fun hleft => by rw [gapOpenNs_drain, if_neg hleft]⟩

theorem dated_process (hnow : now ≠ 0) (hr : InRange decoded.nativeSequence)
    {state : ChannelState cfg} {r : ChannelState cfg × Effects} (hs : state.Resting)
    (hstamped : state.frozen = false → state.discovering = false → Stamped state)
    (h : processChannel .succeed decoded now state = some r) : Dated now state r.1 := by
  obtain ⟨firstSeenNs, hopen, -⟩ := openHold_eq now (retain state (slotOf decoded))
  have hdisc : (openHold now (retain state (slotOf decoded))).1.discovering =
      state.discovering := by
    rw [hopen]
    rfl
  cases processTurn hs h with
  | frozen => exact dated_self hstamped
  | active live active loop =>
    exact (restarted_processActive hnow hr (hs.ready live active) (hstamped live active)
      loop).dated live active
  | expired live discovering =>
    obtain ⟨hst, hleft⟩ := restarts_finishDiscovery hnow
      (openHold now (retain state (slotOf decoded))).2 (hdisc.trans discovering)
      (by rw [hopen]; exact Nat.succ_ne_zero _)
    exact dated_discovered discovering (fun _ => hst) fun _ => hleft
  | holding live discovering => exact dated_discovering (hdisc.trans discovering)
  | collision live discovering held other loop =>
    have hc := pendingCount_ne_zero hs.sound (DirectMapped.mem_of_occupant held).1
    obtain ⟨hst, hleft⟩ := restarts_finishDiscovery hnow {} discovering hc
    have hrest := restarted_processActive hnow hr
      (finishDiscovery_steps .succeed now {} hs.sound live discovering hc none).2 hst loop
    refine dated_discovered discovering hrest.stamped fun hlive hc' => ?_
    rcases hrest.started hlive hc' with ⟨hnow', -⟩ | ⟨hsame, -, hc''⟩
    · exact hnow'
    · exact hsame.trans (hleft hc'')
  | duplicate => exact dated_self hstamped
  | divert => exact dated_self hstamped

theorem dated_poll (hnow : now ≠ 0) {state : ChannelState cfg} (hs : state.Idle)
    (hstamped : state.frozen = false → state.discovering = false → Stamped state) :
    Dated now state (pollChannel .succeed now state).1 := by
  generalize hturn : pollChannel .succeed now state = r
  cases pollTurn hturn with
  | ended live nonempty discovering =>
    obtain ⟨hst, hleft⟩ := restarts_finishDiscovery hnow {} discovering nonempty
    exact dated_discovered discovering (fun _ => hst) fun _ => hleft
  | forced live nonempty active =>
    obtain ⟨hst, hmoved⟩ := forceGap_restarts hnow {} (hs.ready live active)
    obtain ⟨hlt, hleft⟩ := hmoved nonempty
    exact (restarted_moved hst hlt hleft).dated live active
  | _ => exact dated_self hstamped

/-- A flush leaves nothing to wait for. -/
theorem dated_flush (hnow : now ≠ 0) {state : ChannelState cfg} {r : ChannelState cfg × Effects}
    (hs : state.Idle) (ht : state.Timed)
    (hstamped : state.frozen = false → state.discovering = false → Stamped state)
    (h : flushChannel .succeed now state = some r) : Dated now state r.1 := by
  obtain ⟨-, -, hempty⟩ : Reaches .succeed none none (state, {}) r ∧ _ :=
    flushChannel_steps (fun _ => rfl) hs h
  rcases hf : state.frozen with - | -
  · have hc := hempty hf
    have htimed := (covered_flush hnow hs ht h).timed
    exact ⟨fun hlive hactive => ⟨fun _ => htimed.gap hlive hactive hc, fun _ => hc⟩,
      fun _ hw => absurd hc hw.2.2.2⟩
  · obtain rfl := flushChannel_frozen hf h
    exact dated_self hstamped

theorem dated_channelStep {key : ChannelKey} {channel channel' : Option (ChannelState cfg)}
    {op : ChannelCall} {fx : Effects} (hnow : op.now ≠ 0) (hp : Placed key channel)
    (ht : (stateD key channel).Timed)
    (hstamped : (stateD key channel).frozen = false → (stateD key channel).discovering = false →
      Stamped (stateD key channel))
    (h : channelStep .succeed key channel op = some (channel', fx)) :
    Dated op.now (stateD key channel) (stateD key channel') := by
  cases channelTurn h with
  | process turn => exact dated_process hnow (DecodedTick.inRange _) hp.resting.1 hstamped turn
  | absent => exact dated_self hstamped
  | poll present =>
    subst present
    exact dated_poll hnow (hp _ rfl).1 hstamped
  | flush present turn =>
    subst present
    exact dated_flush hnow (hp _ rfl).1 ht hstamped turn
  | ignored => exact dated_self hstamped
  | @freeze sequence now =>
    have hf : (freezeChannel .succeed sequence now (stateD key channel)).1.frozen = true :=
      frozen_freezeFromOpen _ _ _ _ _
    exact ⟨fun hlive => (by cases hf.symm.trans hlive), fun _ hw => (by cases hf.symm.trans hw.1)⟩

end Functions

/-! ## Runs -/

/-- After `calls`, the frontier `e` of the channel `key` waits below a retained record. -/
def WaitsAfter (cfg : RecoveryConfig) (key : ChannelKey) (e : ℕ) (calls : List Call) : Prop :=
  ∃ lane trace state, run cfg calls = some (lane, trace) ∧ lane.stateOf key = some state ∧
    Waits e state

/-- The call after `before` is the one by which the frontier `e` first waits. -/
def FirstWaits (cfg : RecoveryConfig) (key : ChannelKey) (e : ℕ) (before : List Call)
    (call : Call) :
    Prop :=
  (∀ earlier, earlier <+: before → ¬WaitsAfter cfg key e earlier) ∧
    WaitsAfter cfg key e (before ++ [call])

/-- What a run leaves on a channel : its timer runs exactly while it retains records, it has
not gone back behind any frontier that waited, and the timer was started by the call by
which its frontier first waits. -/
structure Honest (cfg : RecoveryConfig) (key : ChannelKey) (calls : List Call)
    (state : ChannelState cfg) : Prop where
  stamped : state.frozen = false → state.discovering = false → Stamped state
  passed : ∀ e earlier, earlier <+: calls → WaitsAfter cfg key e earlier → Waited e state
  started : ∀ e, Waits e state → ∃ before call after, calls = before ++ call :: after ∧
    FirstWaits cfg key e before call ∧ state.gapOpenNs = call.now

theorem waitsAfter_iff {calls : List Call} {key : ChannelKey} {lane : SequenceRecovery cfg}
    {trace : Trace} (h : run cfg calls = some (lane, trace)) {e : ℕ} :
    WaitsAfter cfg key e calls ↔ Waits e (stateD key (lane.stateOf key)) := by
  constructor
  · rintro ⟨lane', trace', state, hrun, hstate, hw⟩
    obtain ⟨rfl, rfl⟩ := Prod.mk.inj (Option.some.inj (h.symm.trans hrun))
    rwa [hstate]
  · intro hw
    rcases hstate : lane.stateOf key with - | state
    · rw [hstate] at hw
      exact absurd rfl hw.2.2.2
    · rw [hstate] at hw
      exact ⟨lane, trace, state, h, hstate, hw⟩

theorem Waits.waited {e : ℕ} {state : ChannelState cfg} (h : Waits e state) (hs : state.Resting) :
    Waited e state := by
  obtain ⟨-, active, he, hc⟩ := h
  obtain ⟨slot, held, -⟩ := exists_minimumPending hs.sound hc
  exact ⟨active, he.ge, Or.inr ⟨slot, held, he ▸ hs.settled active slot held⟩⟩

theorem Waited.waits {e : ℕ} {state : ChannelState cfg} (h : Waited e state) (hs : state.Sound)
    (live : state.frozen = false) (hle : state.expected ≤ e) : Waits e state := by
  refine ⟨live, h.active, le_antisymm hle h.le, ?_⟩
  rcases h.below with hlt | ⟨slot, held, -⟩
  · omega
  · exact pendingCount_ne_zero hs held

/-- A call keeps what runs leave on a channel. -/
theorem honest_snoc {calls : List Call} {call : Call} {key : ChannelKey}
    {lane lane' : SequenceRecovery cfg} {trace trace' : Trace}
    (hrun : run cfg calls = some (lane, trace))
    (hrun' : run cfg (calls ++ [call]) = some (lane', trace'))
    (hreach : ∃ hand fx, Reaches .succeed hand none (stateD key (lane.stateOf key), {})
      (stateD key (lane'.stateOf key), fx))
    (hdated : Dated call.now (stateD key (lane.stateOf key)) (stateD key (lane'.stateOf key)))
    (hc : Honest cfg key calls (stateD key (lane.stateOf key))) :
    Honest cfg key (calls ++ [call]) (stateD key (lane'.stateOf key)) := by
  obtain ⟨hand, fx, hreach⟩ := hreach
  have hs := ((valid_of_run hrun).placed key).resting.1
  have hs' := ((valid_of_run hrun').placed key).resting.1
  refine ⟨hdated.stamped, fun e earlier hprefix hw => ?_, fun e hw => ?_⟩
  · rcases List.prefix_concat_iff.1 hprefix with rfl | hprefix
    · exact ((waitsAfter_iff hrun').1 hw).waited hs'
    · exact hreach.waited (hc.passed e earlier hprefix hw)
  · rcases hdated.since e hw with ⟨hbefore, hsame⟩ | ⟨hnot, hnow⟩
    · obtain ⟨before, first, after, hcalls, hfirst, hstarted⟩ := hc.started e hbefore
      exact ⟨before, first, after ++ [call], by rw [hcalls]; simp, hfirst, hsame.trans hstarted⟩
    · refine ⟨calls, call, [], rfl, ⟨fun earlier hprefix hw' => hnot ?_,
        (waitsAfter_iff hrun').2 hw⟩, hnow⟩
      -- a frontier that waited earlier and still is the frontier never ceased to wait
      have hwaited := hc.passed e earlier hprefix hw'
      refine hwaited.waits hs.sound ?_ ((hreach.advances hwaited.active).2.trans hw.2.2.1.le)
      rcases hf : (stateD key (lane.stateOf key)).frozen with - | -
      · rfl
      · cases hw.1.symm.trans (hreach.frozen hf)

theorem honest_of_run {calls : List Call} (hpos : ∀ call ∈ calls, call.now ≠ 0)
    {lane : SequenceRecovery cfg} {trace : Trace} (h : run cfg calls = some (lane, trace))
    (key : ChannelKey) : Honest cfg key calls (stateD key (lane.stateOf key)) := by
  induction calls using List.reverseRecOn generalizing lane trace with
  | nil =>
    obtain ⟨rfl, rfl⟩ := Prod.mk.inj (Option.some.inj h)
    have hfresh : ∀ e, ¬Waits e (ChannelState.fresh cfg key) := fun _ hw => hw.2.2.2 rfl
    refine ⟨fun _ _ => Iff.rfl, fun e earlier hprefix hw => ?_, fun e hw => absurd hw (hfresh e)⟩
    rw [List.prefix_nil.1 hprefix] at hw
    exact absurd ((waitsAfter_iff h).1 hw) (hfresh e)
  | append_singleton calls call ih =>
    obtain ⟨lane₀, trace₀, added, hrun, hstep, -⟩ := run_snoc.1 h
    have hleft : ∀ c ∈ calls, c.now ≠ 0 := fun c hc => hpos c (List.mem_append_left _ hc)
    have hbefore := ih hleft hrun
    have hv := valid_of_run hrun
    have hsame : lane.stateOf key = lane₀.stateOf key →
        Honest cfg key (calls ++ [call]) (stateD key (lane.stateOf key)) := by
      intro heq
      refine honest_snoc hrun h ⟨none, {}, ?_⟩ ?_ hbefore <;> rw [heq]
      · exact Reaches.refl _ _ _
      · exact dated_self hbefore.stamped
    rcases (step_turned (fun _ _ => rfl) hv hstep).2 with
      ⟨now, -, -, same, -⟩ | ⟨key', -, -, -, same, -⟩ | ⟨fx, apart, turn, -⟩
    · exact hsame (by rw [same])
    · exact hsame (by rw [same])
    · rcases hon : call.on key with - | op
      · exact hsame (apart key hon).1
      · obtain ⟨slot, hturn, -⟩ := turn key op hon
        have hnow : op.now ≠ 0 := now_of_on hon ▸ hpos call (by simp)
        obtain ⟨hreach, -⟩ := channelStep_steps (fun _ => rfl) (hv.placed key) hturn
        exact honest_snoc hrun h ⟨op.hand, _, hreach⟩ (now_of_on hon ▸ dated_channelStep hnow
          (hv.placed key) ((timely_of_run hleft hrun).timed key) hbefore.stamped hturn) hbefore

/-- A turn commits one gap, up to the minimum retained, or none. -/
theorem gapsOf_dueTurn {now : ℕ} {state : ChannelState cfg} (hs : state.Resting) :
    gapsOf (dueTurn now state).2 =
      if state.frozen = false ∧ state.discovering = false ∧ state.pendingCount ≠ 0 ∧
          state.gapOpenNs + cfg.gapWaitNs ≤ now then
        [skipRecord state (minimumPending state) now] else [] := by
  rw [dueTurn]
  by_cases hskip : state.frozen = true ∨ state.pendingCount = 0
  · rw [if_pos hskip, if_neg]
    · rfl
    · rintro ⟨live, -, hc, -⟩
      rcases hskip with hf | h0
      · cases live.symm.trans hf
      · exact hc h0
  · rw [if_neg hskip]
    rw [not_or, Bool.not_eq_true] at hskip
    obtain ⟨live, hc⟩ := hskip
    rcases hd : state.discovering with - | -
    · by_cases hdue : state.gapOpenNs + cfg.gapWaitNs ≤ now
      · rw [if_neg Bool.false_ne_true, if_pos hdue, if_pos ⟨live, rfl, hc, hdue⟩]
        show gapsOf (forceGapToMinimum .succeed now (state, {})).2.events = _
        rw [forceGapToMinimum_eq (fun _ => rfl) now {} (hs.ready live hd) hc, gapsOf_drain]
        rfl
      · rw [if_neg Bool.false_ne_true, if_neg hdue, if_neg fun h => hdue h.2.2.2]
        rfl
    · have hnot : ¬(state.frozen = false ∧ true = false ∧ state.pendingCount ≠ 0 ∧
          state.gapOpenNs + cfg.gapWaitNs ≤ now) := fun h => Bool.false_ne_true h.2.1.symm
      rw [if_pos rfl, if_neg hnot]
      by_cases hdue : state.firstSeenNs + cfg.initialHoldNs ≤ now
      · rw [if_pos hdue]
        exact gapsOf_finishDiscovery .succeed now state {}
      · rw [if_neg hdue]
        rfl

/-- A discovering channel that retains records leaves discovery in its turn exactly when the
hold has passed. -/
theorem discovering_dueTurn {now : ℕ} {state : ChannelState cfg} (hs : state.Resting)
    (live : state.frozen = false) (hd : state.discovering = true) (hc : state.pendingCount ≠ 0) :
    (dueTurn now state).1.discovering = false ↔ state.firstSeenNs + cfg.initialHoldNs ≤ now := by
  rw [dueTurn, if_neg (by simp [live, hc]), if_pos hd]
  split_ifs with hdue
  · obtain ⟨-, hready⟩ := finishDiscovery_steps .succeed now {} hs.sound live hd hc none
    exact iff_of_true hready.active hdue
  · exact iff_of_false (by simp [hd]) hdue

/-- The turn of a channel in use. -/
theorem poll_turn {lane : SequenceRecovery cfg} (hv : lane.Valid) (ht : lane.Timely) (now : ℕ)
    {key : ChannelKey} {state : ChannelState cfg} (hstate : lane.stateOf key = some state) :
    (poll (fun _ => .succeed) now lane).1.stateOf key = some (pollChannel .succeed now state).1 ∧
      (poll (fun _ => .succeed) now lane).2.of key = (pollChannel .succeed now state).2.events := by
  rcases hpolled : poll (fun _ => .succeed) now lane with ⟨lane', added⟩
  have hstep : step (fun _ => .succeed) lane (.poll now) = some (lane', added) :=
    congrArg some hpolled
  rcases (step_turned (fun _ _ => rfl) hv hstep).2 with
    ⟨now', hpoll, before, same, silent⟩ | ⟨key', only, unused, -, -, -⟩ | ⟨fx, -, turn, -⟩
  · obtain rfl : now = now' := Call.poll.inj hpoll
    obtain ⟨fx, hturn, hevents⟩ := channelStep_early ht before key
    rw [hstate] at hturn
    obtain ⟨hafter, rfl⟩ := Prod.mk.inj (Option.some.inj hturn)
    rw [same, silent, hstate, hafter]
    exact ⟨rfl, hevents.symm⟩
  · have hne : key ≠ key' := fun heq => by
      rw [← heq, hstate] at unused
      cases unused
    cases only key hne
  · obtain ⟨slot, hturn, hevents⟩ := turn key (.poll now) rfl
    rw [hstate] at hturn
    obtain ⟨hafter, hfx⟩ := Prod.mk.inj (Option.some.inj hturn)
    exact ⟨hafter.symm, by rw [hevents, ← hfx]⟩

/-- After every run with positive times whose callbacks succeed, `Poll` does what the scan
does. A channel in use has the turn its timers say : one that discovers and retains records
leaves discovery exactly when the hold has passed, and an active one that retains records is
forced to its minimum once, exactly when the gap timer has passed. And the gap timer of a
frontier that waits was started by the call by which it first waits. -/
theorem poll_exact (cfg : RecoveryConfig) (calls : List Call) (hpos : ∀ call ∈ calls, 0 < call.now)
    (now : ℕ) :
    ∃ lane trace lane' added, run cfg calls = some (lane, trace) ∧
      poll (fun _ => .succeed) now lane = (lane', added) ∧
      lane'.channels = (scan (fun _ => .succeed) now lane).1.channels ∧
      added = (scan (fun _ => .succeed) now lane).2 ∧
      ∀ key state, lane.stateOf key = some state →
        lane'.stateOf key = some (dueTurn now state).1 ∧
        added.of key = (dueTurn now state).2 ∧
        (state.frozen = false → state.discovering = true → state.pendingCount ≠ 0 →
          ((dueTurn now state).1.discovering = false ↔
            state.firstSeenNs + cfg.initialHoldNs ≤ now)) ∧
        gapsOf (added.of key) =
          (if state.frozen = false ∧ state.discovering = false ∧ state.pendingCount ≠ 0 ∧
              state.gapOpenNs + cfg.gapWaitNs ≤ now then
            [skipRecord state (minimumPending state) now] else []) ∧
        (state.frozen = false → state.discovering = false → state.pendingCount ≠ 0 →
          ∃ before call after, calls = before ++ call :: after ∧
            FirstWaits cfg key state.expected before call ∧ state.gapOpenNs = call.now) := by
  obtain ⟨lane, trace, h⟩ := exists_run cfg calls
  have hpos' : ∀ call ∈ calls, call.now ≠ 0 := fun call hcall => (hpos call hcall).ne'
  have hv := valid_of_run h
  have ht := timely_of_run hpos' h
  obtain ⟨hchannels, htrace⟩ := poll_eq_scan hv ht now
  have hpolled : ∀ key state, lane.stateOf key = some state → _ :=
    fun key state hstate => poll_turn hv ht now hstate
  rcases hr : poll (fun _ => .succeed) now lane with ⟨lane', added⟩
  rw [hr] at hchannels htrace hpolled
  refine ⟨lane, trace, lane', added, h, hr, hchannels, htrace, fun key state hstate => ?_⟩
  have hhonest := honest_of_run hpos' h key
  have hsettled := (hv.placed key).resting.1
  rw [hstate, stateD, Option.getD_some] at hhonest hsettled
  have hturn : ((pollChannel .succeed now state).1, (pollChannel .succeed now state).2.events) =
      dueTurn now state :=
    pollChannel_eq now fun live active hc h0 => hc ((hhonest.stamped live active).2 h0)
  obtain ⟨hafter, hevents⟩ := hpolled key state hstate
  have hstate' : (dueTurn now state).1 = (pollChannel .succeed now state).1 :=
    (congrArg Prod.fst hturn).symm
  have hevents' : (dueTurn now state).2 = (pollChannel .succeed now state).2.events :=
    (congrArg Prod.snd hturn).symm
  rw [← hstate'] at hafter
  rw [← hevents'] at hevents
  refine ⟨hafter, hevents, discovering_dueTurn hsettled, ?_, fun live active hc => ?_⟩
  · rw [hevents]
    exact gapsOf_dueTurn hsettled
  · exact hhonest.started state.expected ⟨live, active, rfl, hc⟩

theorem poll_exact_sample : ∃ lane trace lane' added,
    run (sampleConfig .kFromOpen 0 100) [arrival 3 (by decide) 10] = some (lane, trace) ∧
      poll (fun _ => .succeed) 110 lane = (lane', added) ∧
      lane'.channels = (scan (fun _ => .succeed) 110 lane).1.channels := by
  obtain ⟨lane, trace, lane', added, hrun, hpoll, hchannels, -⟩ :=
    poll_exact (sampleConfig .kFromOpen 0 100) [arrival 3 (by decide) 10]
      (by simp [arrival, Call.now]) 110
  exact ⟨lane, trace, lane', added, hrun, hpoll, hchannels⟩

end SequenceRecovery

end L2Flow
