import L2Flow.Partition
import L2Flow.Runs

/-!
# The realtime stream and its gaps

What a channel consumes and what it reports missing partition the positions it has left
behind. `run_partition` is the statement for runs : once a channel has left discovery,
the positions from its origin to its frontier are those it consumed, in increasing order,
and those of its gap records.
-/

namespace L2Flow

variable {cfg : RecoveryConfig}

namespace SequenceRecovery

/-! ## Positions in a trace -/

/-- The positions passed through `EmitOne`. -/
def consumedOf (events : List Event) : List ℕ :=
  events.filterMap fun
    | .consumed slot _ true => some slot.nativeSequence
    | _ => none

/-- The gap records published. -/
def gapsOf (events : List Event) : List ChannelGap :=
  events.filterMap fun
    | .gap record _ => some record
    | _ => none

/-- The ranges reported missing. -/
def gapRanges (events : List Event) : List (ℕ × ℕ) :=
  (gapsOf events).map fun record => (record.firstMissing, record.lastMissing)

/-- The origins `FinishDiscovery` chose. -/
def originsOf (events : List Event) : List ℕ :=
  events.filterMap fun
    | .origin sequence => some sequence
    | _ => none

@[simp] theorem consumedOf_append (events rest : List Event) :
    consumedOf (events ++ rest) = consumedOf events ++ consumedOf rest :=
  List.filterMap_append

@[simp] theorem gapsOf_append (events rest : List Event) :
    gapsOf (events ++ rest) = gapsOf events ++ gapsOf rest :=
  List.filterMap_append

@[simp] theorem gapRanges_append (events rest : List Event) :
    gapRanges (events ++ rest) = gapRanges events ++ gapRanges rest := by
  simp [gapRanges]

@[simp] theorem originsOf_append (events rest : List Event) :
    originsOf (events ++ rest) = originsOf events ++ originsOf rest :=
  List.filterMap_append

/-- The origin of a channel : position 1, or what `FinishDiscovery` put in the frontier. -/
def HasOrigin (cfg : RecoveryConfig) (events : List Event) (origin : ℕ) : Prop :=
  match cfg.mode with
  | .kFromOpen => origin = 1
  | .kPartial => originsOf events = [origin]

/-! ## The invariant -/

/-- The positions behind the frontier are partitioned, and the gap counters count. -/
structure Tiled (c : Conf cfg) : Prop where
  undiscovered : c.state.discovering = true →
    cfg.mode = .kPartial ∧ consumedOf c.events = [] ∧ gapRanges c.events = [] ∧
      originsOf c.events = []
  partitioned : c.state.discovering = false → ∃ origin, HasOrigin cfg c.events origin ∧
    origin ≤ c.state.expected ∧
    Partition origin c.state.expected (consumedOf c.events) (gapRanges c.events)
  epoch : c.state.gapEpoch = (gapRanges c.events).length
  missing : c.state.cumulativeMissingSequences = rangesLength (gapRanges c.events)
  epoch_le : c.state.gapEpoch ≤ c.state.expected
  missing_le : c.state.cumulativeMissingSequences ≤ c.state.expected
  bounded : c.state.expected ≤ 2 ^ 63

theorem tiled_fresh (cfg : RecoveryConfig) (key : ChannelKey) :
    Tiled (⟨.fresh cfg key, none, []⟩ : Conf cfg) where
  undiscovered hd := ⟨by simpa [ChannelState.fresh] using hd, rfl, rfl, rfl⟩
  partitioned hd := by
    have hmode : cfg.mode = .kFromOpen := by
      cases hm : cfg.mode with
      | kFromOpen => rfl
      | kPartial => simp [ChannelState.fresh, hm] at hd
    refine ⟨1, by rw [HasOrigin, hmode], ?_, ?_⟩
    · simp [ChannelState.fresh, hmode]
    · show Partition 1 (if cfg.mode = .kFromOpen then 1 else 0) [] []
      rw [if_pos hmode]
      exact Partition.nil 1
  epoch := rfl
  missing := rfl
  epoch_le := Nat.zero_le _
  missing_le := Nat.zero_le _
  bounded := by
    simp only [ChannelState.fresh]
    split_ifs <;> norm_num

/-- Events that consume nothing, report nothing missing and choose no origin. -/
def Neutral (events : List Event) : Prop :=
  consumedOf events = [] ∧ gapsOf events = [] ∧ originsOf events = []

/-- A step that leaves the frontier and the gap counters alone. -/
theorem Tiled.neutral {c c' : Conf cfg} (h : Tiled c) {added : List Event} (hadded : Neutral added)
    (hevents : c'.events = c.events ++ added)
    (hdiscovering : c'.state.discovering = c.state.discovering)
    (hexpected : c'.state.expected = c.state.expected)
    (hepoch : c'.state.gapEpoch = c.state.gapEpoch)
    (hmissing : c'.state.cumulativeMissingSequences = c.state.cumulativeMissingSequences) :
    Tiled c' := by
  obtain ⟨hconsumed, hgaps, horigins⟩ := hadded
  have h1 : consumedOf c'.events = consumedOf c.events := by
    rw [hevents, consumedOf_append, hconsumed, List.append_nil]
  have h2 : gapRanges c'.events = gapRanges c.events := by
    rw [hevents, gapRanges, gapsOf_append, hgaps, List.append_nil, gapRanges]
  have h3 : originsOf c'.events = originsOf c.events := by
    rw [hevents, originsOf_append, horigins, List.append_nil]
  have h4 : ∀ origin, HasOrigin cfg c'.events origin ↔ HasOrigin cfg c.events origin := by
    intro origin
    unfold HasOrigin
    rw [h3]
  constructor
  · rw [h1, h2, h3, hdiscovering]
    exact h.undiscovered
  · simp only [h1, h2, h4, hdiscovering, hexpected]
    exact h.partitioned
  · rw [h2, hepoch]
    exact h.epoch
  · rw [h2, hmissing]
    exact h.missing
  · rw [hepoch, hexpected]
    exact h.epoch_le
  · rw [hmissing, hexpected]
    exact h.missing_le
  · rw [hexpected]
    exact h.bounded

/-- `EmitOne` at the frontier moves it by one position. -/
theorem Tiled.consumed {s s' : ChannelState cfg} {hand hand' : Option TickDecodeResult}
    {events : List Event} {slot : PendingSlot} {tick : CanonicalTick}
    (h : Tiled ⟨s, hand, events⟩) (active : s.discovering = false)
    (position : slot.nativeSequence = s.expected) (hr : slot.nativeSequence < 2 ^ 63)
    (hdiscovering : s'.discovering = s.discovering) (hexpected : s'.expected = s.expected + 1)
    (hepoch : s'.gapEpoch = s.gapEpoch)
    (hmissing : s'.cumulativeMissingSequences = s.cumulativeMissingSequences) :
    Tiled ⟨s', hand', events ++ [.consumed slot tick true]⟩ := by
  have hranges : gapRanges (events ++ [.consumed slot tick true]) = gapRanges events := by
    simp [gapRanges, gapsOf]
  constructor
  · intro hd
    rw [hdiscovering, active] at hd
    cases hd
  · intro _
    obtain ⟨origin, horigin, hle, hpart⟩ := h.partitioned active
    refine ⟨origin, ?_, ?_, ?_⟩
    · unfold HasOrigin at horigin ⊢
      simpa [originsOf] using horigin
    · show origin ≤ s'.expected
      rw [hexpected]
      exact Nat.le_succ_of_le hle
    · show Partition origin s'.expected _ _
      rw [hranges, hexpected, consumedOf_append]
      have hpoint := hpart.point hle
      simpa [consumedOf, position] using hpoint
  · rw [hranges]
    exact hepoch.trans h.epoch
  · rw [hranges]
    exact hmissing.trans h.missing
  · show s'.gapEpoch ≤ s'.expected
    rw [hepoch, hexpected]
    exact Nat.le_succ_of_le h.epoch_le
  · show s'.cumulativeMissingSequences ≤ s'.expected
    rw [hmissing, hexpected]
    exact Nat.le_succ_of_le h.missing_le
  · show s'.expected ≤ 2 ^ 63
    omega

/-- `RecordGap` moves the frontier past a range. No counter saturates below `2 ^ 63`. -/
theorem Tiled.skipped {s : ChannelState cfg} {hand : Option TickDecodeResult}
    {events : List Event} {next now : ℕ} (h : Tiled ⟨s, hand, events⟩)
    (active : s.discovering = false) (ahead : s.expected < next) (hr : next < 2 ^ 63) :
    Tiled ⟨skipTo s next, hand, events ++ [.gap (skipRecord s next now) true]⟩ := by
  have hranges : gapRanges (events ++ [.gap (skipRecord s next now) true]) =
      gapRanges events ++ [(s.expected, next - 1)] := by
    simp [gapRanges, gapsOf, skipRecord, gapRecord]
  have hepoch_le : s.gapEpoch ≤ s.expected := h.epoch_le
  have hmissing_le : s.cumulativeMissingSequences ≤ s.expected := h.missing_le
  have hepoch : (skipTo s next).gapEpoch = s.gapEpoch + 1 := by
    refine if_pos ?_
    unfold uint64Max
    omega
  have hmissing : (skipTo s next).cumulativeMissingSequences =
      s.cumulativeMissingSequences + (next - s.expected) := by
    refine if_neg ?_
    unfold uint64Max
    omega
  have hlen : next - 1 + 1 - s.expected = next - s.expected := by omega
  constructor
  · intro hd
    rw [show (skipTo s next).discovering = s.discovering from rfl, active] at hd
    cases hd
  · intro _
    obtain ⟨origin, horigin, hle, hpart⟩ := h.partitioned active
    refine ⟨origin, ?_, hle.trans ahead.le, ?_⟩
    · unfold HasOrigin at horigin ⊢
      simpa [originsOf] using horigin
    · have hconsumed : consumedOf (events ++ [.gap (skipRecord s next now) true]) =
          consumedOf events := by simp [consumedOf]
      rw [hranges, hconsumed]
      exact hpart.range hle ahead
  · rw [hranges, List.length_append, List.length_singleton]
    exact hepoch.trans (congrArg (· + 1) h.epoch)
  · rw [hranges, rangesLength_snoc]
    show (skipTo s next).cumulativeMissingSequences = _
    rw [hmissing, hlen]
    exact congrArg (· + (next - s.expected)) h.missing
  · show (skipTo s next).gapEpoch ≤ next
    omega
  · show (skipTo s next).cumulativeMissingSequences ≤ next
    omega
  · exact hr.le

/-- `FinishDiscovery` starts an empty partition at the origin. -/
theorem Tiled.finished {s : ChannelState cfg} {hand : Option TickDecodeResult}
    {events : List Event} {origin : ℕ} (h : Tiled ⟨s, hand, events⟩)
    (discovering : s.discovering = true) (hr : origin < 2 ^ 63) :
    Tiled ⟨{ s with discovering := false, expected := origin }, hand,
      events ++ [.origin origin]⟩ := by
  obtain ⟨hmode, hconsumed, hranges, horigins⟩ := h.undiscovered discovering
  have hepoch : s.gapEpoch = 0 := by
    have := h.epoch
    rwa [hranges] at this
  have hmissing : s.cumulativeMissingSequences = 0 := by
    have := h.missing
    rwa [hranges] at this
  have hranges' : gapRanges (events ++ [.origin origin]) = [] := by
    rw [gapRanges_append, show gapRanges events = [] from hranges]
    rfl
  constructor
  · intro hd
    cases hd
  · intro _
    refine ⟨origin, ?_, le_refl _, ?_⟩
    · rw [HasOrigin, hmode]
      simp only
      rw [originsOf_append, show originsOf events = [] from horigins]
      rfl
    · rw [hranges', consumedOf_append, show consumedOf events = [] from hconsumed]
      exact Partition.nil origin
  · rw [hranges']
    exact hepoch
  · rw [hranges']
    exact hmissing
  · show s.gapEpoch ≤ origin
    omega
  · show s.cumulativeMissingSequences ≤ origin
    omega
  · exact hr.le

/-- With callbacks that succeed, every primitive step keeps the partition. -/
theorem step_tiled {callbacks : Callbacks} (htick : ∀ tick, callbacks.emitTick tick = true)
    {c c' : Conf cfg} (h : Step callbacks c c') (hs : c.Sound) (hc : Tiled c) : Tiled c' := by
  cases h with
  | drop => exact hc.neutral ⟨rfl, rfl, rfl⟩ (List.append_nil _).symm rfl rfl rfl rfl
  | retain => exact hc.neutral ⟨rfl, rfl, rfl⟩ (List.append_nil _).symm rfl rfl rfl rfl
  | duplicate => exact hc.neutral ⟨rfl, rfl, rfl⟩ rfl rfl rfl rfl rfl
  | divert => exact hc.neutral ⟨rfl, rfl, rfl⟩ rfl rfl rfl rfl rfl
  | freeze => exact hc.neutral ⟨rfl, rfl, rfl⟩ rfl rfl rfl rfl rfl
  | @release s hand evs slot accepted live active held position refused =>
    cases accepted with
    | true => exact hc.consumed active position (hs.1.inRange slot held).2 rfl rfl rfl rfl
    | false =>
      have := (refused rfl).2
      rw [htick] at this
      cases this
  | @pass s r evs accepted live active position clear refused =>
    cases accepted with
    | true => exact hc.consumed active position (hs.2 r rfl).2 rfl rfl rfl rfl
    | false =>
      have := (refused rfl).2
      rw [htick] at this
      cases this
  | @skip s hand evs next now live active ahead least within present =>
    refine hc.skipped active ahead ?_
    rcases present with ⟨slot, held, rfl⟩ | ⟨r, hr, rfl⟩
    · exact (hs.1.inRange slot held).2
    · exact (hs.2 r hr).2
  | timers => exact hc.neutral ⟨rfl, rfl, rfl⟩ (List.append_nil _).symm rfl rfl rfl rfl
  | @finish s hand evs slot live discovering held least =>
    exact hc.finished discovering (hs.1.inRange slot held).2
  | fatal => exact hc.neutral ⟨rfl, rfl, rfl⟩ rfl rfl rfl rfl rfl

theorem tiled_of_run {calls : List Call} {lane : SequenceRecovery cfg} {trace : Trace}
    (h : run cfg calls = some (lane, trace)) (key : ChannelKey) :
    Tiled ⟨stateD key (lane.stateOf key), none, trace.of key⟩ := by
  obtain ⟨-, -, ht⟩ := run_keep key (I := fun _ c => Tiled c) (tiled_fresh cfg key)
    (fun decoded _ ht => ht.neutral ⟨rfl, rfl, rfl⟩ (List.append_nil _).symm rfl rfl rfl rfl)
    (fun hs hsound ht => step_tiled (fun _ => rfl) hs hsound ht) h
  exact ht

/-- Whatever a channel has consumed, it has consumed by ascending position. -/
theorem Tiled.increasing {c : Conf cfg} (h : Tiled c) : (consumedOf c.events).Pairwise (· < ·) := by
  cases hd : c.state.discovering with
  | true =>
    rw [(h.undiscovered hd).2.1]
    exact List.Pairwise.nil
  | false =>
    obtain ⟨origin, -, -, hpartition⟩ := h.partitioned hd
    exact hpartition.increasing

/-! ## Runs -/

/-- After every run whose callbacks succeed, the positions from the origin of a channel
that has left discovery to its frontier are exactly those it consumed and those of its
gap records; what it still retains lies in no gap record. -/
theorem run_partition (cfg : RecoveryConfig) (calls : List Call) (key : ChannelKey) :
    ∃ lane trace, run cfg calls = some (lane, trace) ∧
      ∀ state, lane.stateOf key = some state → state.discovering = false →
        ∃ origin, HasOrigin cfg (trace.of key) origin ∧ origin ≤ state.expected ∧
          Partition origin state.expected (consumedOf (trace.of key))
            (gapRanges (trace.of key)) ∧
          (∀ slot ∈ state.pending, ∀ r ∈ gapRanges (trace.of key),
            ¬(r.1 ≤ slot.nativeSequence ∧ slot.nativeSequence ≤ r.2)) ∧
          state.gapEpoch = (gapRanges (trace.of key)).length ∧
          state.cumulativeMissingSequences = rangesLength (gapRanges (trace.of key)) := by
  obtain ⟨lane, trace, h⟩ := exists_run cfg calls
  refine ⟨lane, trace, h, fun state hstate active => ?_⟩
  have ht := tiled_of_run h key
  rw [hstate] at ht
  obtain ⟨origin, horigin, hle, hpart⟩ := ht.partitioned active
  have hidle := (valid_of_runWith (gapsTaken_succeed calls) h).idle_of_stateOf hstate
  refine ⟨origin, horigin, hle, hpart, fun slot hslot r hr hin => ?_, ht.epoch, ht.missing⟩
  have hlt := hpart.range_lt hr
  have hahead := hidle.settled active slot hslot
  have : state.expected < slot.nativeSequence := hahead
  have : r.2 < state.expected := hlt
  omega

end SequenceRecovery

end L2Flow
