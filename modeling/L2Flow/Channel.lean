import L2Flow.Canonical
import L2Flow.DirectMapped
import L2Flow.Loop

/-!
# One channel of `SequenceRecovery`

`SequenceRecovery` keeps, for every native channel, a frontier (`expected`, the next
native position of the realtime stream), a modulo-indexed table of the records retained
above it, timers, and gap bookkeeping. The functions of this file are the member
functions of the source that read and write one channel's state, in the order of the
source. What a call does besides changing the state is collected in `Effects` : the
callbacks it makes, with the answers they give, and the deadlines it schedules. The
lane applies them (`Lane.lean`).

The retained records are a `DirectMapped` table whose home is `sequence & slot_mask_`,
so a slot whose record belongs elsewhere cannot be built. `pending_count` is kept apart
from the table, as in the source. The drain ends from every state, since each further
pass frees an occupied slot. The retry loop and the flush loop end only by an invariant
of the reachable states, so they run with a bound and give `none` beyond it.
-/

namespace L2Flow

/-! ## Configuration -/

def isPowerOfTwo (value : ℕ) : Bool :=
  value != 0 && (value &&& (value - 1)) == 0

theorem exists_pow_of_isPowerOfTwo {n : ℕ} (h : isPowerOfTwo n = true) : ∃ k, n = 2 ^ k := by
  simp only [isPowerOfTwo, Bool.and_eq_true, bne_iff_ne, ne_eq, beq_iff_eq] at h
  obtain ⟨h0, hand⟩ := h
  refine ⟨n.log2, ?_⟩
  have hle : 2 ^ n.log2 ≤ n := Nat.log2_self_le h0
  have hlt : n < 2 ^ (n.log2 + 1) := Nat.lt_log2_self
  by_contra hne
  -- otherwise `n - 1` keeps the leading bit of `n`
  have hbit : (n - 1).testBit n.log2 = true :=
    Nat.testBit_of_two_pow_le_and_two_pow_add_one_gt (by omega) (by omega)
  have hzero : (n &&& (n - 1)).testBit n.log2 = false := by rw [hand, Nat.zero_testBit]
  rw [Nat.testBit_and, Nat.testBit_log2 h0, hbit] at hzero
  simp at hzero

theorem and_pred_eq_mod {n : ℕ} (h : isPowerOfTwo n = true) (k : ℕ) : k &&& (n - 1) = k % n := by
  obtain ⟨j, rfl⟩ := exists_pow_of_isPowerOfTwo h
  exact Nat.and_two_pow_sub_one_eq_mod k j

/-- What `SequenceRecovery` is constructed with, within the bounds `ValidateConfig`
accepts. -/
structure RecoveryConfig where
  mode : StartMode
  maximumChannels : ℕ
  entriesPerChannel : ℕ
  maximumReorderSpan : ℕ
  initialHoldNs : ℕ
  gapWaitNs : ℕ
  channels_pos : 0 < maximumChannels
  channels_le : maximumChannels ≤ 2 ^ 32 - 1 - 1
  entries_pow : isPowerOfTwo entriesPerChannel = true
  entries_ge : 2 ≤ entriesPerChannel
  span_le : maximumReorderSpan ≤ entriesPerChannel

/-- `sequence & slot_mask_`. -/
def slotIndex (cfg : RecoveryConfig) (sequence : ℕ) : Fin cfg.entriesPerChannel :=
  ⟨sequence &&& (cfg.entriesPerChannel - 1),
    lt_of_le_of_lt Nat.and_le_right (Nat.sub_lt (by have := cfg.entries_ge; omega) one_pos)⟩

theorem slotIndex_val (cfg : RecoveryConfig) (sequence : ℕ) :
    (slotIndex cfg sequence : ℕ) = sequence % cfg.entriesPerChannel :=
  and_pred_eq_mod cfg.entries_pow sequence

/-- One slot for two positions means one residue. -/
theorem slotIndex_eq_iff {cfg : RecoveryConfig} {i j : ℕ} :
    slotIndex cfg i = slotIndex cfg j ↔ i % cfg.entriesPerChannel = j % cfg.entriesPerChannel := by
  rw [Fin.ext_iff, slotIndex_val, slotIndex_val]

/-- Positions closer than the number of slots have different slots. -/
theorem eq_of_slotIndex_eq {cfg : RecoveryConfig} {i j : ℕ} (h : slotIndex cfg i = slotIndex cfg j)
    (hij : i ≤ j) (hlt : j < i + cfg.entriesPerChannel) : i = j := by
  rw [slotIndex_eq_iff] at h
  have hd : cfg.entriesPerChannel ∣ j - i :=
    Nat.dvd_of_mod_eq_zero (Nat.sub_mod_eq_zero_of_mod_eq h.symm)
  have h0 : j - i = 0 := Nat.eq_zero_of_dvd_of_lt hd (by omega)
  omega

/-! ## State -/

/-- A retained record, and whether it is dispatched or only a continuity token. An
unoccupied slot of the source is an empty cell of the table. -/
structure PendingSlot where
  tick : CanonicalTick
  emit : Bool
  deriving DecidableEq, Repr

def PendingSlot.nativeSequence (slot : PendingSlot) : ℕ :=
  slot.tick.common.nativeSequence

abbrev PendingTable (cfg : RecoveryConfig) :=
  DirectMapped (slotIndex cfg) PendingSlot.nativeSequence

/-- `SequenceRecovery::ChannelState`, less `mailbox_slot`, which the lane keeps beside
it, and `used`, which nothing reads. -/
structure ChannelState (cfg : RecoveryConfig) where
  market : Market
  channel : ℕ
  frozen : Bool
  discovering : Bool
  historyComplete : Bool
  gapMetadataPending : Bool
  expected : ℕ
  firstSeenNs : ℕ
  gapOpenNs : ℕ
  gapEpoch : ℕ
  cumulativeMissingSequences : ℕ
  pendingGapFirst : ℕ
  pendingGapLast : ℕ
  pendingCount : ℕ
  pending : PendingTable cfg

def ChannelState.key {cfg : RecoveryConfig} (state : ChannelState cfg) : ChannelKey :=
  ⟨state.market, state.channel⟩

/-- The state `FindOrCreate` gives a channel seen for the first time. -/
def ChannelState.fresh (cfg : RecoveryConfig) (key : ChannelKey) : ChannelState cfg where
  market := key.market
  channel := key.channel
  frozen := false
  discovering := cfg.mode = .kPartial
  historyComplete := cfg.mode = .kFromOpen
  gapMetadataPending := false
  expected := if cfg.mode = .kFromOpen then 1 else 0
  firstSeenNs := 0
  gapOpenNs := 0
  gapEpoch := 0
  cumulativeMissingSequences := 0
  pendingGapFirst := 0
  pendingGapLast := 0
  pendingCount := 0
  pending := .empty

/-! ## Effects -/

/-- The answers of the callbacks of one call. -/
structure Callbacks where
  emitTick : CanonicalTick → Bool
  emitGap : ChannelGap → Bool
  emitFault : ChannelFault → Bool
  emitLate : LateRecoveryTick → Bool

/-- Every callback succeeds. -/
def Callbacks.succeed : Callbacks :=
  ⟨fun _ => true, fun _ => true, fun _ => true, fun _ => true⟩

/-- What a call does : the callbacks with their answers, and, without a callback, the
token consumed, the duplicate suppressed and the origin chosen. -/
inductive Event where
  /-- `EmitOne` on `slot` : `tick` is passed to `emit_tick` if the slot has `emit`. -/
  | consumed (slot : PendingSlot) (tick : CanonicalTick) (accepted : Bool)
  | gap (record : ChannelGap) (accepted : Bool)
  | fault (record : ChannelFault) (accepted : Bool)
  | late (decoded : TickDecodeResult) (record : LateRecoveryTick) (accepted : Bool)
  | duplicate (decoded : TickDecodeResult)
  | origin (sequence : ℕ)
  | fatal (message : String)
  deriving DecidableEq, Repr

/-- The events of a call in order, and the deadlines it schedules. -/
structure Effects where
  events : List Event := []
  deadlines : List ℕ := []

def Effects.log (fx : Effects) (event : Event) : Effects :=
  { fx with events := fx.events ++ [event] }

@[simp] theorem Effects.log_events (fx : Effects) (event : Event) :
    (fx.log event).events = fx.events ++ [event] :=
  rfl

@[simp] theorem Effects.log_deadlines (fx : Effects) (event : Event) :
    (fx.log event).deadlines = fx.deadlines :=
  rfl

/-- The deadline `ScheduleDeadline` computes : `start + delay`, saturated. -/
def deadlineAfter (start delay : ℕ) : ℕ :=
  if uint64Max - start < delay then uint64Max else start + delay

/-- `ScheduleDeadline`. The lane lowers `next_deadline_ns_` to the deadline. -/
def Effects.scheduleDeadline (fx : Effects) (start delay : ℕ) : Effects :=
  { fx with deadlines := fx.deadlines ++ [deadlineAfter start delay] }

@[simp] theorem Effects.scheduleDeadline_events (fx : Effects) (start delay : ℕ) :
    (fx.scheduleDeadline start delay).events = fx.events :=
  rfl

@[simp] theorem Effects.scheduleDeadline_deadlines (fx : Effects) (start delay : ℕ) :
    (fx.scheduleDeadline start delay).deadlines = fx.deadlines ++ [deadlineAfter start delay] :=
  rfl

namespace SequenceRecovery

variable {cfg : RecoveryConfig}

def deadlineReached (now start delay : ℕ) : Bool :=
  start ≤ now && delay ≤ now - start

/-! ## The reorder table -/

inductive InsertResult where
  | kInserted
  | kDuplicate
  | kConflict
  | kCollision
  deriving DecidableEq, Repr

def insert (state : ChannelState cfg) (decoded : TickDecodeResult) :
    InsertResult × ChannelState cfg :=
  match state.pending.occupant decoded.nativeSequence with
  | some slot =>
    if slot.nativeSequence ≠ decoded.nativeSequence then (.kCollision, state)
    else if canonicalPayloadEqual slot.tick decoded.tick && slot.emit == decoded.catalogMatch then
      (.kDuplicate, state)
    else (.kConflict, state)
  | none =>
    (.kInserted,
      { state with
        pending := state.pending.insert ⟨decoded.tick, decoded.catalogMatch⟩
        pendingCount := state.pendingCount + 1 })

/-- `Find`. -/
def find (state : ChannelState cfg) (sequence : ℕ) : Option PendingSlot :=
  state.pending.find sequence

def minimumPending (state : ChannelState cfg) : ℕ :=
  state.pending.minimum uint64Max

/-! ## Output -/

/-- The record `DivertLateRecovery` publishes. -/
def lateRecord (state : ChannelState cfg) (decoded : TickDecodeResult)
    (reason : LateRecoveryReason) : LateRecoveryTick where
  tick :=
    { decoded.tick with
      validity := decoded.tick.validity &&& ~~~kTickChannelHistoryValid
      common :=
        { decoded.tick.common with
          qualityFlags := decoded.tick.common.qualityFlags |||
            (kQualityChannelHistoryIncomplete ||| kQualityLateRecovery)
          gapEpoch := state.gapEpoch } }
  committedNextSequence := state.expected
  observedGapEpoch := state.gapEpoch
  reason := reason
  catalogMatch := decoded.catalogMatch

def divertLateRecovery (callbacks : Callbacks) (state : ChannelState cfg)
    (decoded : TickDecodeResult) (reason : LateRecoveryReason) (fx : Effects) : Effects :=
  let record := lateRecord state decoded reason
  if callbacks.emitLate record then fx.log (.late decoded record true)
  else
    (fx.log (.late decoded record false)).log
      (.fatal "LateRecovery canonical record queue overflow")

/-- The tick `EmitOne` makes of a slot : the history bit is cleared once the history is
incomplete, and the first dispatched tick after a gap carries it. -/
def outgoing (state : ChannelState cfg) (slot : PendingSlot) : CanonicalTick :=
  let tick :=
    if state.historyComplete then slot.tick
    else
      { slot.tick with
        validity := slot.tick.validity &&& ~~~kTickChannelHistoryValid
        common :=
          { slot.tick.common with
            qualityFlags := slot.tick.common.qualityFlags ||| kQualityChannelHistoryIncomplete } }
  if slot.emit && state.gapMetadataPending then
    { tick with
      common :=
        { tick.common with
          qualityFlags := tick.common.qualityFlags ||| kQualitySequenceGapBefore
          gapEpoch := state.gapEpoch
          gapBeforeFirst := state.pendingGapFirst
          gapBeforeLast := state.pendingGapLast } }
  else tick

/-- `EmitOne`. The caller has freed the slot's cell. -/
def emitOne (callbacks : Callbacks) (state : ChannelState cfg) (slot : PendingSlot)
    (fx : Effects) : Bool × ChannelState cfg × Effects :=
  let tick := outgoing state slot
  let state :=
    { state with
      pendingCount := state.pendingCount - 1
      gapMetadataPending := state.gapMetadataPending && !slot.emit }
  if slot.emit && !callbacks.emitTick tick then
    (false, state, (fx.log (.consumed slot tick false)).log
      (.fatal "instrument tick dispatch queue overflow"))
  else (true, state, fx.log (.consumed slot tick true))

/-! ## The drain -/

/-- One pass of `DrainContiguous`. -/
def drainBody (callbacks : Callbacks) (now : ℕ) :
    ChannelState cfg × Effects → Pass (ChannelState cfg × Effects) (ChannelState cfg × Effects)
  | (state, fx) =>
    match find state state.expected with
    | none =>
      let gapOpenNs := if state.pendingCount = 0 then 0 else now
      .done ({ state with gapOpenNs := gapOpenNs },
        if gapOpenNs ≠ 0 then fx.scheduleDeadline gapOpenNs cfg.gapWaitNs else fx)
    | some slot =>
      match emitOne callbacks { state with pending := state.pending.erase state.expected } slot
          fx with
      | (false, state, fx) => .done (state, fx)
      | (true, state, fx) => .again ({ state with expected := state.expected + 1 }, fx)

theorem emitOne_pending (callbacks : Callbacks) (state : ChannelState cfg) (slot : PendingSlot)
    (fx : Effects) : (emitOne callbacks state slot fx).2.1.pending = state.pending := by
  unfold emitOne
  dsimp only
  split_ifs <;> rfl

/-- A further pass of the drain has freed an occupied slot. -/
theorem drainBody_again (callbacks : Callbacks) (now : ℕ) (s s' : ChannelState cfg × Effects)
    (h : drainBody callbacks now s = .again s') : s'.1.pending.card < s.1.pending.card := by
  obtain ⟨state, fx⟩ := s
  unfold drainBody at h
  cases hf : find state state.expected with
  | none => simp [hf] at h
  | some slot =>
    obtain ⟨hmem, hkey⟩ := DirectMapped.find_eq_some_iff.1 hf
    have hp := emitOne_pending callbacks
      { state with pending := state.pending.erase state.expected } slot fx
    have hc := DirectMapped.card_erase hmem
    rw [hkey] at hc
    simp only [hf] at h
    split at h
    · cases h
    · next he =>
      rw [he] at hp
      cases h
      simp only at hp ⊢
      rw [hp]
      omega

def drainContiguous (callbacks : Callbacks) (now : ℕ) :
    ChannelState cfg × Effects → ChannelState cfg × Effects :=
  Loop.run (drainBody callbacks now) (fun s => s.1.pending.card) (drainBody_again callbacks now)

/-! ## Gaps and faults -/

/-- The bookkeeping of `RecordGap` for the range from `first` to `last`. -/
def withGap (state : ChannelState cfg) (first last next : ℕ) : ChannelState cfg :=
  { state with
    historyComplete := false
    gapEpoch := if state.gapEpoch ≠ uint64Max then state.gapEpoch + 1 else state.gapEpoch
    cumulativeMissingSequences :=
      if uint64Max - state.cumulativeMissingSequences < next - first then uint64Max
      else state.cumulativeMissingSequences + (next - first)
    pendingGapFirst := first
    pendingGapLast := last
    gapMetadataPending := true }

/-- The record `RecordGap` publishes, from the state after its bookkeeping. -/
def gapRecord (state : ChannelState cfg) (first last next now : ℕ) : ChannelGap where
  market := state.market
  channel := state.channel
  firstMissing := first
  lastMissing := last
  firstPresentAfterGap := next
  detectedMonotonicNs := now
  gapEpoch := state.gapEpoch
  cumulativeMissingSequences := state.cumulativeMissingSequences

def recordGap (callbacks : Callbacks) (state : ChannelState cfg) (first last next now : ℕ)
    (fx : Effects) : Bool × ChannelState cfg × Effects :=
  if last < first then (true, state, fx)
  else
    let state := withGap state first last next
    let gap := gapRecord state first last next now
    if callbacks.emitGap gap then (true, state, fx.log (.gap gap true))
    else
      (false, state, (fx.log (.gap gap false)).log (.fatal "channel gap mailbox invariant failed"))

/-- The record `FreezeFromOpen` publishes. -/
def faultRecord (state : ChannelState cfg) (reason : ChannelFaultReason)
    (observedSequence now : ℕ) : ChannelFault where
  market := state.market
  reason := reason
  channel := state.channel
  expectedSequence := state.expected
  observedSequence := observedSequence
  detectedMonotonicNs := now

def freezeFromOpen (callbacks : Callbacks) (state : ChannelState cfg) (reason : ChannelFaultReason)
    (observedSequence now : ℕ) (fx : Effects) : ChannelState cfg × Effects :=
  if state.frozen then (state, fx)
  else
    let fault := faultRecord state reason observedSequence now
    if callbacks.emitFault fault then ({ state with frozen := true }, fx.log (.fault fault true))
    else
      ({ state with frozen := true },
        (fx.log (.fault fault false)).log (.fatal "channel fault dispatch queue overflow"))

def finishDiscovery (callbacks : Callbacks) (now : ℕ) :
    ChannelState cfg × Effects → ChannelState cfg × Effects
  | (state, fx) =>
    if !state.discovering || state.pendingCount == 0 then ({ state with discovering := false }, fx)
    else
      let minimum := minimumPending state
      drainContiguous callbacks now
        ({ state with discovering := false, expected := minimum }, fx.log (.origin minimum))

def forceGapToMinimum (callbacks : Callbacks) (now : ℕ) :
    ChannelState cfg × Effects → ChannelState cfg × Effects
  | (state, fx) =>
    if state.pendingCount = 0 then ({ state with gapOpenNs := 0 }, fx)
    else
      let minimum := minimumPending state
      let (recorded, state, fx) :=
        if state.expected < minimum then
          recordGap callbacks state state.expected (minimum - 1) minimum now fx
        else (true, state, fx)
      if !recorded then (state, fx)
      else drainContiguous callbacks now ({ state with expected := minimum }, fx)

/-! ## Arrival at an active frontier -/

/-- More passes than the retry loop or the flush loop of a channel can make. -/
def passes (cfg : RecoveryConfig) : ℕ :=
  cfg.entriesPerChannel + 3

/-- One pass of `ProcessActive`. -/
def activeBody (callbacks : Callbacks) (decoded : TickDecodeResult) (now : ℕ) :
    ChannelState cfg × Effects → Pass (ChannelState cfg × Effects) (ChannelState cfg × Effects)
  | (state, fx) =>
    let sequence := decoded.nativeSequence
    if sequence < state.expected then
      .done (state, divertLateRecovery callbacks state decoded .kBehindCommittedFrontier fx)
    else if sequence = state.expected then
      match emitOne callbacks { state with pendingCount := state.pendingCount + 1 }
          ⟨decoded.tick, decoded.catalogMatch⟩ fx with
      | (false, state, fx) => .done (state, fx)
      | (true, state, fx) =>
        .done (drainContiguous callbacks now ({ state with expected := state.expected + 1 }, fx))
    else
      let span := sequence - state.expected
      match insert state decoded with
      | (.kDuplicate, state) => .done (state, fx.log (.duplicate decoded))
      | (.kConflict, state) =>
        if cfg.mode = .kFromOpen then
          .done (freezeFromOpen callbacks state .kCanonicalConflict sequence now fx)
        else
          .done (state, divertLateRecovery callbacks state decoded .kPendingCanonicalConflict fx)
      | (.kCollision, state) =>
        if state.pendingCount = 0 ∨ sequence < minimumPending state then
          match recordGap callbacks state state.expected (sequence - 1) sequence now fx with
          | (false, state, fx) => .done (state, fx)
          | (true, state, fx) => .again ({ state with expected := sequence }, fx)
        else .again (forceGapToMinimum callbacks now (state, fx))
      | (.kInserted, state) =>
        if cfg.maximumReorderSpan < span then
          -- the far record is retained already
          .done (forceGapToMinimum callbacks now (state, fx))
        else
          let (state, fx) :=
            if state.gapOpenNs = 0 then
              ({ state with gapOpenNs := now }, fx.scheduleDeadline now cfg.gapWaitNs)
            else (state, fx)
          if cfg.gapWaitNs = 0 then .done (forceGapToMinimum callbacks now (state, fx))
          else .done (state, fx)

def processActive (callbacks : Callbacks) (decoded : TickDecodeResult) (now : ℕ) :
    ChannelState cfg × Effects → Option (ChannelState cfg × Effects) :=
  Loop.iterate (activeBody callbacks decoded now) (passes cfg)

/-! ## The calls, on one channel -/

/-- `Process`, after `FindOrCreate`. -/
def processChannel (callbacks : Callbacks) (decoded : TickDecodeResult) (now : ℕ)
    (state : ChannelState cfg) : Option (ChannelState cfg × Effects) :=
  if state.frozen then some (state, {})
  else if cfg.mode = .kPartial ∧ state.discovering then
    match insert state decoded with
    | (.kDuplicate, state) => some (state, Effects.log {} (.duplicate decoded))
    | (.kConflict, state) =>
      some (state, divertLateRecovery callbacks state decoded .kPendingCanonicalConflict {})
    | (.kCollision, state) =>
      processActive callbacks decoded now (finishDiscovery callbacks now (state, {}))
    | (.kInserted, state) =>
      let (state, fx) :=
        if state.firstSeenNs = 0 then
          ({ state with firstSeenNs := now },
            if cfg.initialHoldNs ≠ 0 then Effects.scheduleDeadline {} now cfg.initialHoldNs else {})
        else (state, {})
      if cfg.initialHoldNs = 0 || deadlineReached now state.firstSeenNs cfg.initialHoldNs then
        some (finishDiscovery callbacks now (state, fx))
      else some (state, fx)
  else processActive callbacks decoded now (state, {})

/-- One channel's turn in the loop of `Poll`. -/
def pollChannel (callbacks : Callbacks) (now : ℕ) (state : ChannelState cfg) :
    ChannelState cfg × Effects :=
  if state.frozen || state.pendingCount == 0 then (state, {})
  else if state.discovering then
    if deadlineReached now state.firstSeenNs cfg.initialHoldNs then
      finishDiscovery callbacks now (state, {})
    else (state, Effects.scheduleDeadline {} state.firstSeenNs cfg.initialHoldNs)
  else if state.gapOpenNs ≠ 0 && deadlineReached now state.gapOpenNs cfg.gapWaitNs then
    forceGapToMinimum callbacks now (state, {})
  else if state.gapOpenNs ≠ 0 then
    (state, Effects.scheduleDeadline {} state.gapOpenNs cfg.gapWaitNs)
  else (state, {})

/-- One pass of the loop of `Flush` over a channel's retained records. -/
def flushBody (callbacks : Callbacks) (now : ℕ) :
    ChannelState cfg × Effects → Pass (ChannelState cfg × Effects) (ChannelState cfg × Effects)
  | (state, fx) =>
    if state.pendingCount = 0 then .done (state, fx)
    else .again (forceGapToMinimum callbacks now (state, fx))

/-- One channel's turn in the loop of `Flush`. -/
def flushChannel (callbacks : Callbacks) (now : ℕ) (state : ChannelState cfg) :
    Option (ChannelState cfg × Effects) :=
  if state.frozen then some (state, {})
  else
    Loop.iterate (flushBody callbacks now) (passes cfg)
      (if state.discovering then finishDiscovery callbacks now (state, {}) else (state, {}))

/-- `FreezeDecodeFailure`, after `FindOrCreate`. -/
def freezeChannel (callbacks : Callbacks) (sequence now : ℕ) (state : ChannelState cfg) :
    ChannelState cfg × Effects :=
  freezeFromOpen callbacks state .kDecodeFailure sequence now {}

end SequenceRecovery

end L2Flow
