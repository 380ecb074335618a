import L2Flow.Frontier

/-!
# The history bit

`kTickChannelHistoryValid` on an output tick says that the realtime stream holds every
earlier position of the channel. `EmitOne` computes it from `history_complete`, which
`RecordGap` clears; `run_history` says that the bit means what it says, at every tick of
every run.
-/

namespace L2Flow

variable {cfg : RecoveryConfig}

namespace SequenceRecovery

/-! ## What `EmitOne` does to the flags -/

theorem outgoing_history (state : ChannelState cfg) (slot : PendingSlot) :
    Flags.has (outgoing state slot).validity kTickChannelHistoryValid =
      (state.historyComplete && Flags.has slot.tick.validity kTickChannelHistoryValid) := by
  unfold outgoing
  cases state.historyComplete <;> cases slot.emit && state.gapMetadataPending <;> simp

theorem outgoing_incomplete {state : ChannelState cfg} (h : state.historyComplete = false)
    (slot : PendingSlot) :
    Flags.has (outgoing state slot).common.qualityFlags kQualityChannelHistoryIncomplete =
      true := by
  have hself : Flags.has kQualityChannelHistoryIncomplete kQualityChannelHistoryIncomplete =
      true := by decide
  unfold outgoing
  rw [h]
  cases slot.emit && state.gapMetadataPending <;> simp [Flags.has_or, hself]

@[simp] theorem outgoing_nativeSequence (state : ChannelState cfg) (slot : PendingSlot) :
    (outgoing state slot).common.nativeSequence = slot.nativeSequence := by
  unfold outgoing
  cases state.historyComplete <;> cases slot.emit && state.gapMetadataPending <;> rfl

/-! ## The invariant -/

/-- The history bit of a tick passed after the events `before`. -/
structure BitExact (cfg : RecoveryConfig) (before : List Event) (tick : CanonicalTick) : Prop where
  set_iff : Flags.has tick.validity kTickChannelHistoryValid = true ↔
    cfg.mode = .kFromOpen ∧
      ∀ n, 1 ≤ n → n < tick.common.nativeSequence → n ∈ consumedOf before
  clear : Flags.has tick.validity kTickChannelHistoryValid = false →
    Flags.has tick.common.qualityFlags kQualityChannelHistoryIncomplete = true

/-- Every tick so far has the right bit, and no late record has it. -/
structure Historied (cfg : RecoveryConfig) (events : List Event) : Prop where
  passed : ∀ before slot tick accepted,
    before ++ [Event.consumed slot tick accepted] <+: events → BitExact cfg before tick
  late : ∀ decoded record accepted, Event.late decoded record accepted ∈ events →
    Flags.has record.tick.validity kTickChannelHistoryValid = false

theorem Historied.log {events : List Event} (h : Historied cfg events) {event : Event}
    (hpassed : ∀ slot tick accepted, event = .consumed slot tick accepted →
      BitExact cfg events tick)
    (hlate : ∀ decoded record accepted, event = .late decoded record accepted →
      Flags.has record.tick.validity kTickChannelHistoryValid = false) :
    Historied cfg (events ++ [event]) where
  passed before slot tick accepted hpre := by
    rcases List.prefix_concat_iff.1 hpre with heq | hpre
    · obtain ⟨rfl, hevent⟩ := List.append_inj' heq rfl
      exact hpassed slot tick accepted (List.singleton_inj.1 hevent).symm
    · exact h.passed before slot tick accepted hpre
  late decoded record accepted hmem := by
    rcases List.mem_append.1 hmem with hmem | hmem
    · exact h.late decoded record accepted hmem
    · exact hlate decoded record accepted (List.mem_singleton.1 hmem).symm

/-- A channel's history flag says that it is FROM_OPEN and has committed no gap, and every
record it holds came with the bit. -/
structure Flagged (c : Conf cfg) : Prop where
  complete_iff : c.state.historyComplete = true ↔
    cfg.mode = .kFromOpen ∧ gapRanges c.events = []
  held : ∀ slot ∈ c.state.pending, Flags.has slot.tick.validity kTickChannelHistoryValid = true
  hand : ∀ decoded, c.hand = some decoded →
    Flags.has decoded.tick.validity kTickChannelHistoryValid = true
  events : Historied cfg c.events

/-- At the frontier of a FROM_OPEN channel, no gap means that every position was consumed. -/
theorem gapless_iff {c : Conf cfg} (ht : Tiled c) (active : c.state.discovering = false)
    (mode : cfg.mode = .kFromOpen) :
    gapRanges c.events = [] ↔
      ∀ n, 1 ≤ n → n < c.state.expected → n ∈ consumedOf c.events := by
  obtain ⟨origin, horigin, -, hpart⟩ := ht.partitioned active
  rw [HasOrigin, mode] at horigin
  simp only at horigin
  subst horigin
  constructor
  · intro hnone n hle hlt
    rcases (hpart.covers n).1 ⟨hle, hlt⟩ with hn | ⟨r, hr, -⟩
    · exact hn
    · rw [hnone] at hr
      cases hr
  · intro hall
    refine List.eq_nil_iff_forall_not_mem.2 fun r hr => ?_
    have hin := (hpart.covers r.1).2 (Or.inr ⟨r, hr, le_refl _, hpart.nonempty r hr⟩)
    exact hpart.apart r.1 (hall r.1 hin.1 hin.2) r hr ⟨le_refl _, hpart.nonempty r hr⟩

/-- What `EmitOne` makes of a record at the frontier has the right bit. -/
theorem Flagged.bitExact {s : ChannelState cfg} {hand : Option TickDecodeResult}
    {events : List Event} (h : Flagged ⟨s, hand, events⟩) (ht : Tiled ⟨s, hand, events⟩)
    (active : s.discovering = false) {slot : PendingSlot}
    (position : slot.nativeSequence = s.expected)
    (hvalid : Flags.has slot.tick.validity kTickChannelHistoryValid = true) :
    BitExact cfg events (outgoing s slot) := by
  have hbit := outgoing_history s slot
  rw [hvalid, Bool.and_true] at hbit
  constructor
  · rw [hbit, outgoing_nativeSequence, position, h.complete_iff]
    exact and_congr_right fun mode => gapless_iff ht active mode
  · intro hclear
    rw [hbit] at hclear
    exact outgoing_incomplete hclear slot

/-- A step that neither dispatches nor commits a gap. -/
theorem Flagged.log {c c' : Conf cfg} (h : Flagged c) {event : Event}
    (hevents : c'.events = c.events ++ [event])
    (hcomplete : c'.state.historyComplete = c.state.historyComplete)
    (hranges : gapRanges [event] = [])
    (hheld : ∀ slot ∈ c'.state.pending, slot ∈ c.state.pending)
    (hhand : c'.hand = none ∨ c'.hand = c.hand)
    (hpassed : ∀ slot tick accepted, event = .consumed slot tick accepted →
      BitExact cfg c.events tick)
    (hlate : ∀ decoded record accepted, event = .late decoded record accepted →
      Flags.has record.tick.validity kTickChannelHistoryValid = false) : Flagged c' where
  complete_iff := by
    rw [hcomplete, hevents, gapRanges_append, hranges, List.append_nil]
    exact h.complete_iff
  held slot hslot := h.held slot (hheld slot hslot)
  hand decoded hd := by
    rcases hhand with hnone | hsame
    · rw [hnone] at hd
      cases hd
    · exact h.hand decoded (hsame ▸ hd)
  events := by
    rw [hevents]
    exact h.events.log hpassed hlate

theorem step_flagged {callbacks : Callbacks} {c c' : Conf cfg} (h : Step callbacks c c')
    (ht : Tiled c) (hc : Flagged c) : Flagged c' := by
  cases h with
  | drop => exact ⟨hc.complete_iff, hc.held, fun _ hd => (by cases hd), hc.events⟩
  | @retain s r evs live free above =>
    refine ⟨hc.complete_iff, fun slot hslot => ?_, fun _ hd => (by cases hd), hc.events⟩
    rcases (mem_retain free).1 hslot with rfl | hslot
    · exact hc.hand r rfl
    · exact hc.held slot hslot
  | duplicate =>
    exact hc.log rfl rfl rfl (fun _ hslot => hslot) (Or.inl rfl) (by simp) (by simp)
  | divert =>
    refine hc.log rfl rfl rfl (fun _ hslot => hslot) (Or.inl rfl) (by simp) ?_
    rintro decoded record accepted ⟨⟩
    exact Flags.has_clear _ _
  | freeze =>
    exact hc.log rfl rfl rfl (fun _ hslot => hslot) (Or.inl rfl) (by simp) (by simp)
  | @release s hand evs slot accepted live active held position refused =>
    refine hc.log rfl rfl rfl (fun slot' hslot => ((mem_release held position).1 hslot).1)
      (Or.inr rfl) ?_ (by simp)
    rintro slot' tick accepted' ⟨⟩
    exact hc.bitExact ht active position (hc.held slot held)
  | @pass s r evs accepted live active position clear refused =>
    refine hc.log rfl rfl rfl (fun _ hslot => hslot) (Or.inl rfl) ?_ (by simp)
    rintro slot' tick accepted' ⟨⟩
    exact hc.bitExact ht active position (hc.hand r rfl)
  | skip =>
    refine ⟨⟨fun hcomplete => (by cases hcomplete), fun ⟨_, hranges⟩ => ?_⟩, hc.held, hc.hand,
      hc.events.log (by simp) (by simp)⟩
    simp [gapRanges, gapsOf] at hranges
  | timers => exact ⟨hc.complete_iff, hc.held, hc.hand, hc.events⟩
  | finish =>
    exact hc.log rfl rfl rfl (fun _ hslot => hslot) (Or.inr rfl) (by simp) (by simp)
  | fatal =>
    exact hc.log rfl rfl rfl (fun _ hslot => hslot) (Or.inr rfl) (by simp) (by simp)

theorem flagged_fresh (cfg : RecoveryConfig) (key : ChannelKey) :
    Flagged (⟨.fresh cfg key, none, []⟩ : Conf cfg) where
  complete_iff := by simp [ChannelState.fresh, gapRanges, gapsOf]
  held := by simp [ChannelState.fresh]
  hand _ hd := by cases hd
  events := ⟨fun before slot tick accepted hpre => by simp at hpre, by simp⟩

/-! ## Runs -/

/-- In every run whose callbacks succeed, each tick passed to `emit_tick` has the history
bit exactly when its channel is FROM_OPEN and every earlier position was consumed before
it, and is marked incomplete otherwise; no late record has the bit. -/
theorem run_history (cfg : RecoveryConfig) (calls : List Call) (key : ChannelKey) :
    ∃ lane trace, run cfg calls = some (lane, trace) ∧
      (∀ before slot tick accepted after,
        trace.of key = before ++ Event.consumed slot tick accepted :: after → slot.emit = true →
        (Flags.has tick.validity kTickChannelHistoryValid = true ↔
          cfg.mode = .kFromOpen ∧
            ∀ n, 1 ≤ n → n < tick.common.nativeSequence → n ∈ consumedOf before) ∧
        (Flags.has tick.validity kTickChannelHistoryValid = false →
          Flags.has tick.common.qualityFlags kQualityChannelHistoryIncomplete = true)) ∧
      ∀ decoded record accepted, Event.late decoded record accepted ∈ trace.of key →
        Flags.has record.tick.validity kTickChannelHistoryValid = false := by
  obtain ⟨lane, trace, h⟩ := exists_run cfg calls
  obtain ⟨-, -, -, hflagged⟩ := run_keep key (I := fun _ c => Tiled c ∧ Flagged c)
    ⟨tiled_fresh cfg key, flagged_fresh cfg key⟩
    (fun decoded _ hI => ⟨hI.1.neutral ⟨rfl, rfl, rfl⟩ (List.append_nil _).symm rfl rfl rfl rfl,
      hI.2.complete_iff, hI.2.held, fun d hd => by cases hd; exact decoded.history_valid,
      hI.2.events⟩)
    (fun hs hsound hI => ⟨step_tiled (fun _ => rfl) hs hsound hI.1,
      step_flagged hs hI.1 hI.2⟩) h
  refine ⟨lane, trace, h, fun before slot tick accepted after heq _ => ?_, hflagged.events.late⟩
  have hpre : before ++ [Event.consumed slot tick accepted] <+: trace.of key :=
    ⟨after, by rw [heq, List.append_assoc]; rfl⟩
  have hbit := hflagged.events.passed before slot tick accepted hpre
  exact ⟨hbit.set_iff, hbit.clear⟩

end SequenceRecovery

end L2Flow
