import L2Flow.Reorder
import L2Flow.TickWorker

/-!
# One lane, two catalogs

Two lanes that are fed with the same messages and differ in their catalogs keep step
(`run_alike`) : the records they retain differ in the instrument and in whether they are
dispatched, and nothing that decides what happens next reads either. The comparison that tells a
duplicate from a conflict reads whether the records match, and records that agree otherwise
match alike.
-/

namespace L2Flow

variable {cfg : RecoveryConfig}

/-! ## Records -/

/-- Bits outside a mask stay when it is cleared. -/
theorem Flags.or_keep {bits mask : Flags} (h : bits &&& ~~~mask = bits) (flags : Flags) :
    (flags ||| bits) &&& ~~~mask = flags &&& ~~~mask ||| bits := by
  have hdistrib : (flags ||| bits) &&& ~~~mask = flags &&& ~~~mask ||| bits &&& ~~~mask :=
    BitVec.and_or_distrib_right
  rw [hdistrib, h]

/-- A tick without what `ApplyCatalog` writes, and without the gap that the first dispatched
tick after it carries. -/
def CanonicalTick.unmarked (tick : CanonicalTick) : CanonicalTick :=
  let tick := tick.uncataloged
  { tick with
    common :=
      { tick.common with
        qualityFlags := tick.common.qualityFlags &&& ~~~kQualitySequenceGapBefore
        gapEpoch := 0
        gapBeforeFirst := 0
        gapBeforeLast := 0 } }

/-- A late record without what `ApplyCatalog` writes. -/
def LateRecoveryTick.uncataloged (record : LateRecoveryTick) : LateRecoveryTick :=
  { record with tick := record.tick.uncataloged, catalogMatch := false }

/-- One record with its catalogs' instruments. -/
structure SlotAlike (left right : InstrumentCatalog) (a b : PendingSlot) : Prop where
  tick : a.tick.uncataloged = b.tick.uncataloged
  left : a.emit = left.has a.tick.common.identity
  right : b.emit = right.has b.tick.common.identity

variable {left right : InstrumentCatalog}

namespace SlotAlike

variable {a b : PendingSlot}

theorem nativeSequence (h : SlotAlike left right a b) : a.nativeSequence = b.nativeSequence :=
  uncataloged_congr (·.common.nativeSequence) (fun _ => rfl) h.tick

theorem identity (h : SlotAlike left right a b) :
    a.tick.common.identity = b.tick.common.identity :=
  uncataloged_congr (·.common.identity) (fun _ => rfl) h.tick

end SlotAlike

namespace SequenceRecovery

/-- One decoded record with its catalogs' instruments. -/
abbrev DecodedAlike (left right : InstrumentCatalog) (a b : TickDecodeResult) : Prop :=
  SlotAlike left right (slotOf a) (slotOf b)

/-- One event, up to what the catalogs write and the gap that a dispatched tick carries. -/
inductive EventAlike (left right : InstrumentCatalog) : Event → Event → Prop where
  | consumed {a b : PendingSlot} {tick tick' : CanonicalTick} (hslot : SlotAlike left right a b)
      (htick : tick.unmarked = tick'.unmarked)
      (hidentity : tick.common.identity = a.tick.common.identity) (accepted : Bool) :
    EventAlike left right (.consumed a tick accepted) (.consumed b tick' accepted)
  | gap (record : ChannelGap) (accepted : Bool) :
    EventAlike left right (.gap record accepted) (.gap record accepted)
  | fault (record : ChannelFault) (accepted : Bool) :
    EventAlike left right (.fault record accepted) (.fault record accepted)
  | late {a b : TickDecodeResult} {record record' : LateRecoveryTick}
      (hdecoded : DecodedAlike left right a b) (hrecord : record.uncataloged = record'.uncataloged)
      (accepted : Bool) :
    EventAlike left right (.late a record accepted) (.late b record' accepted)
  | duplicate {a b : TickDecodeResult} (hdecoded : DecodedAlike left right a b) :
    EventAlike left right (.duplicate a) (.duplicate b)
  | origin (sequence : ℕ) : EventAlike left right (.origin sequence) (.origin sequence)
  | fatal (message : String) : EventAlike left right (.fatal message) (.fatal message)

/-- The same effects. -/
structure EffectsAlike (left right : InstrumentCatalog) (fx fx' : Effects) : Prop where
  events : List.Forall₂ (EventAlike left right) fx.events fx'.events
  deadlines : fx.deadlines = fx'.deadlines

theorem EffectsAlike.nil : EffectsAlike left right {} {} :=
  ⟨.nil, rfl⟩

/-- Two calls stay alike when each logs an event that is alike. -/
theorem EffectsAlike.log {fx fx' : Effects} (h : EffectsAlike left right fx fx')
    {event event' : Event} (hevent : EventAlike left right event event') :
    EffectsAlike left right (fx.log event) (fx'.log event') :=
  ⟨List.rel_append h.events (.cons hevent .nil), h.deadlines⟩

/-- A deadline does not depend on the catalog. -/
theorem EffectsAlike.scheduleDeadline {fx fx' : Effects} (h : EffectsAlike left right fx fx')
    (start delay : ℕ) :
    EffectsAlike left right (fx.scheduleDeadline start delay)
      (fx'.scheduleDeadline start delay) :=
  ⟨h.events, congrArg (· ++ [deadlineAfter start delay]) h.deadlines⟩

/-- The same records in the same cells. -/
def TableAlike (left right : InstrumentCatalog) (table table' : PendingTable cfg) : Prop :=
  ∀ cell, Option.Rel (SlotAlike left right) (table.cells cell) (table'.cells cell)

/-- The same state but for the retained records, and for whether a dispatched tick is still to
carry the last gap. -/
inductive StateAlike (left right : InstrumentCatalog) : ChannelState cfg → ChannelState cfg → Prop
  | mk (state : ChannelState cfg) (table : PendingTable cfg) (marked : Bool)
      (h : TableAlike left right state.pending table) :
    StateAlike left right state { state with pending := table, gapMetadataPending := marked }

/-- The state of a channel with the effects of the call so far. -/
def TurnAlike (left right : InstrumentCatalog) (turn turn' : ChannelState cfg × Effects) : Prop :=
  StateAlike left right turn.1 turn'.1 ∧ EffectsAlike left right turn.2 turn'.2

/-! ## The reorder table -/

section Table

variable {table table' : PendingTable cfg}

/-- The same slot of the two tables is free in both, or holds records that are alike. -/
theorem TableAlike.occupant (h : TableAlike left right table table') (sequence : ℕ) :
    Option.Rel (SlotAlike left right) (table.occupant sequence) (table'.occupant sequence) :=
  h _

theorem TableAlike.find (h : TableAlike left right table table') (sequence : ℕ) :
    Option.Rel (SlotAlike left right) (table.find sequence) (table'.find sequence) := by
  have hoccupant := h.occupant sequence
  rw [DirectMapped.find, DirectMapped.find]
  generalize table.occupant sequence = a at hoccupant ⊢
  generalize table'.occupant sequence = b at hoccupant ⊢
  rcases hoccupant with hslot | -
  · rw [Option.filter_some, Option.filter_some, hslot.nativeSequence]
    split_ifs
    · exact .some hslot
    · exact .none
  · exact .none

/-- A record is retained in the same slot of both tables. -/
theorem TableAlike.insert (h : TableAlike left right table table') {a b : PendingSlot}
    (hslot : SlotAlike left right a b) :
    TableAlike left right (table.insert a) (table'.insert b) := by
  intro cell
  show Option.Rel _ (Function.update table.cells (slotIndex cfg a.nativeSequence) (some a) cell)
    (Function.update table'.cells (slotIndex cfg b.nativeSequence) (some b) cell)
  rw [hslot.nativeSequence, Function.update_apply, Function.update_apply]
  split_ifs
  · exact .some hslot
  · exact h cell

theorem TableAlike.erase (h : TableAlike left right table table') (sequence : ℕ) :
    TableAlike left right (table.erase sequence) (table'.erase sequence) := by
  intro cell
  show Option.Rel _ (Function.update table.cells (slotIndex cfg sequence) none cell)
    (Function.update table'.cells (slotIndex cfg sequence) none cell)
  rw [Function.update_apply, Function.update_apply]
  split_ifs
  · exact .none
  · exact h cell

/-- The least retained position is the same in both. -/
theorem TableAlike.minimum (h : TableAlike left right table table') (top : ℕ) :
    table.minimum top = table'.minimum top := by
  rw [DirectMapped.minimum, DirectMapped.minimum]
  refine List.foldl_ext _ _ _ fun least cell _ => ?_
  have hcell := h cell
  generalize table.cells cell = a at hcell ⊢
  generalize table'.cells cell = b at hcell ⊢
  rcases hcell with hslot | -
  · exact congrArg (min least) hslot.nativeSequence
  · rfl

end Table

/-! ## The functions of a channel -/

section Channel

variable {s t : ChannelState cfg} {fx fx' : Effects} {a b : TickDecodeResult}

attribute [ext] ExactIdentity

/-- Records with one payload have one identity. -/
theorem identity_of_payload {tick tick' : CanonicalTick}
    (h : canonicalPayloadEqual tick tick' = true) :
    tick.common.identity = tick'.common.identity := by
  have hequal : identityEqual tick.common.identity tick'.common.identity = true := by
    simp only [canonicalPayloadEqual, Bool.and_eq_true] at h
    tauto
  simp only [identityEqual, Bool.and_eq_true, beq_iff_eq] at hequal
  obtain ⟨⟨⟨⟨hmarket, hsourceSize⟩, hsize⟩, hsource⟩, hsecurity⟩ := hequal
  exact ExactIdentity.ext hmarket hsourceSize hsize hsource hsecurity

/-- The payload decides, since records with one payload have one identity. -/
theorem duplicate_alike {slot slot' : PendingSlot} (hslot : SlotAlike left right slot slot')
    (hdecoded : DecodedAlike left right a b) :
    (canonicalPayloadEqual slot.tick a.tick && slot.emit == a.catalogMatch) =
      (canonicalPayloadEqual slot'.tick b.tick && slot'.emit == b.catalogMatch) := by
  have hpayload : canonicalPayloadEqual slot.tick a.tick =
      canonicalPayloadEqual slot'.tick b.tick := by
    show canonicalPayloadEqual slot.tick.uncataloged a.tick.uncataloged =
      canonicalPayloadEqual slot'.tick.uncataloged b.tick.uncataloged
    rw [hslot.tick]
    exact congrArg _ hdecoded.tick
  rw [hpayload]
  rcases hequal : canonicalPayloadEqual slot'.tick b.tick with - | -
  · rfl
  · have hidentity := identity_of_payload hequal
    have hleft : slot.emit = a.catalogMatch := by
      have hsame : slot.tick.common.identity = a.tick.common.identity :=
        hslot.identity.trans (hidentity.trans hdecoded.identity.symm)
      rw [hslot.left, hsame]
      exact hdecoded.left.symm
    have hright : slot'.emit = b.catalogMatch := by
      rw [hslot.right, hidentity]
      exact hdecoded.right.symm
    rw [hleft, hright, beq_self_eq_true, beq_self_eq_true]

/-- `Insert` gives the same answer with either catalog : it compares nothing that `ApplyCatalog`
writes. -/
theorem insert_alike (hs : StateAlike left right s t) (hdecoded : DecodedAlike left right a b) :
    (insert s a).1 = (insert t b).1 ∧
      StateAlike left right (insert s a).2 (insert t b).2 := by
  obtain ⟨table, marked, htable⟩ := hs
  have hsequence : a.nativeSequence = b.nativeSequence := hdecoded.nativeSequence
  have hoccupant := htable.occupant b.nativeSequence
  rw [insert, insert, hsequence]
  dsimp only
  generalize s.pending.occupant b.nativeSequence = x at hoccupant ⊢
  generalize table.occupant b.nativeSequence = y at hoccupant ⊢
  rcases hoccupant with hslot | -
  · dsimp only
    rw [hslot.nativeSequence, duplicate_alike hslot hdecoded]
    split_ifs
    · exact ⟨rfl, .mk _ _ _ htable⟩
    · exact ⟨rfl, .mk _ _ _ htable⟩
    · exact ⟨rfl, .mk _ _ _ htable⟩
  · exact ⟨rfl, .mk _ _ marked (htable.insert hdecoded)⟩

/-- What the catalog adds to a record, it adds to the late record that is made of it. -/
theorem lateRecord_uncataloged (state : ChannelState cfg) (decoded : TickDecodeResult)
    (reason : LateRecoveryReason) :
    (lateRecord state decoded reason).uncataloged =
      { lateRecord state ⟨decoded.tick.uncataloged, false⟩ reason with catalogMatch := false } := by
  rw [lateRecord, LateRecoveryTick.uncataloged, CanonicalTick.uncataloged]
  dsimp only
  rw [Flags.or_keep (by decide)]
  rfl

theorem lateRecord_alike (hs : StateAlike left right s t) (hdecoded : DecodedAlike left right a b)
    (reason : LateRecoveryReason) :
    (lateRecord s a reason).uncataloged = (lateRecord t b reason).uncataloged := by
  obtain ⟨table, marked, -⟩ := hs
  have htick : a.tick.uncataloged = b.tick.uncataloged := hdecoded.tick
  rw [lateRecord_uncataloged, lateRecord_uncataloged, htick]
  rfl

/-- The records that are diverted are alike : for the same reason, at the same frontier and epoch.
-/
theorem divertLateRecovery_alike (hs : StateAlike left right s t)
    (hdecoded : DecodedAlike left right a b) (reason : LateRecoveryReason)
    (hfx : EffectsAlike left right fx fx') :
    EffectsAlike left right (divertLateRecovery .succeed s a reason fx)
      (divertLateRecovery .succeed t b reason fx') :=
  hfx.log (.late hdecoded (lateRecord_alike hs hdecoded reason) true)

/-- An unmarked tick keeps no mark of the gap before it ; that the history is incomplete stays. -/
theorem outgoing_unmarked (state : ChannelState cfg) (slot : PendingSlot) :
    (outgoing state slot).unmarked =
      if state.historyComplete then slot.tick.unmarked
      else
        { slot.tick.unmarked with
          validity := slot.tick.validity &&& ~~~kTickChannelHistoryValid
          common :=
            { slot.tick.unmarked.common with
              qualityFlags := slot.tick.unmarked.common.qualityFlags |||
                kQualityChannelHistoryIncomplete } } := by
  have hgap : ∀ flags : Flags, (flags ||| kQualitySequenceGapBefore) &&&
      ~~~kQualityInstrumentNotInCatalog &&& ~~~kQualitySequenceGapBefore =
        flags &&& ~~~kQualityInstrumentNotInCatalog &&& ~~~kQualitySequenceGapBefore :=
    fun flags => by rw [Flags.or_keep (by decide), Flags.or_clear]
  have hincomplete : ∀ flags : Flags, (flags ||| kQualityChannelHistoryIncomplete) &&&
      ~~~kQualityInstrumentNotInCatalog &&& ~~~kQualitySequenceGapBefore =
        flags &&& ~~~kQualityInstrumentNotInCatalog &&& ~~~kQualitySequenceGapBefore |||
          kQualityChannelHistoryIncomplete :=
    fun flags => by rw [Flags.or_keep (by decide), Flags.or_keep (by decide)]
  rw [outgoing]
  dsimp only
  split_ifs <;>
    simp only [CanonicalTick.unmarked, CanonicalTick.uncataloged, hgap, hincomplete]

theorem outgoing_identity (state : ChannelState cfg) (slot : PendingSlot) :
    (outgoing state slot).common.identity = slot.tick.common.identity := by
  rw [outgoing]
  dsimp only
  split_ifs <;> rfl

/-- What `EmitOne` does when the callbacks take what they are given. -/
theorem emitOne_succeed (state : ChannelState cfg) (slot : PendingSlot) (fx : Effects) :
    emitOne .succeed state slot fx =
      (true,
        { state with
          pendingCount := state.pendingCount - 1
          gapMetadataPending := state.gapMetadataPending && !slot.emit },
        fx.log (.consumed slot (outgoing state slot) true)) := by
  simp [emitOne, Callbacks.succeed]

/-- A tick is emitted in both, or consumed as a token in both ; either way the frontier moves. -/
theorem emitOne_alike (hs : StateAlike left right s t) {slot slot' : PendingSlot}
    (hslot : SlotAlike left right slot slot') (hfx : EffectsAlike left right fx fx') :
    TurnAlike left right (emitOne .succeed s slot fx).2 (emitOne .succeed t slot' fx').2 := by
  obtain ⟨table, marked, htable⟩ := hs
  rw [emitOne_succeed, emitOne_succeed]
  refine ⟨.mk _ _ _ htable, hfx.log (.consumed hslot ?_ (outgoing_identity s slot) true)⟩
  have hunmarked : slot.tick.unmarked = slot'.tick.unmarked := by
    rw [CanonicalTick.unmarked, CanonicalTick.unmarked, hslot.tick]
  have hvalidity : slot.tick.validity = slot'.tick.validity :=
    uncataloged_congr (·.validity) (fun _ => rfl) hslot.tick
  rw [outgoing_unmarked, outgoing_unmarked, hunmarked, hvalidity]

/-- `DrainContiguous` passes the same positions with either catalog. -/
theorem drainContiguous_alike (now : ℕ) {turn turn' : ChannelState cfg × Effects}
    (hturn : TurnAlike left right turn turn') :
    TurnAlike left right (drainContiguous .succeed now turn)
      (drainContiguous .succeed now turn') := by
  refine Loop.run_alike (R := TurnAlike left right) (Q := TurnAlike left right) ?_ hturn
  rintro ⟨s, fx⟩ ⟨t, fx'⟩ ⟨hs, hfx⟩
  obtain ⟨table, marked, htable⟩ := hs
  have hfind := htable.find s.expected
  rw [drainBody, drainBody, find, find]
  dsimp only at hfind hfx ⊢
  generalize s.pending.find s.expected = x at hfind ⊢
  generalize table.find s.expected = y at hfind ⊢
  rcases hfind with hslot | -
  · have herased : StateAlike left right { s with pending := s.pending.erase s.expected }
        { s with pending := table.erase s.expected, gapMetadataPending := marked } :=
      .mk _ _ marked (htable.erase s.expected)
    have hemit := emitOne_alike herased hslot hfx
    rw [emitOne_succeed, emitOne_succeed] at hemit
    dsimp only
    rw [emitOne_succeed, emitOne_succeed]
    exact .again ⟨.mk _ _ _ (htable.erase s.expected), hemit.2⟩
  · refine .done ⟨.mk _ _ _ htable, ?_⟩
    by_cases hdue : (if s.pendingCount = 0 then 0 else now) ≠ 0
    · rw [if_pos hdue, if_pos hdue]
      exact hfx.scheduleDeadline _ _
    · rw [if_neg hdue, if_neg hdue]
      exact hfx

theorem minimumPending_alike (hs : StateAlike left right s t) :
    minimumPending s = minimumPending t := by
  obtain ⟨table, marked, htable⟩ := hs
  exact htable.minimum uint64Max

/-- The fields that decide what happens next. -/
theorem StateAlike.same (hs : StateAlike left right s t) :
    t.frozen = s.frozen ∧ t.discovering = s.discovering ∧ t.pendingCount = s.pendingCount ∧
      t.expected = s.expected ∧ t.firstSeenNs = s.firstSeenNs ∧ t.gapOpenNs = s.gapOpenNs ∧
      t.key = s.key := by
  obtain ⟨table, marked, -⟩ := hs
  exact ⟨rfl, rfl, rfl, rfl, rfl, rfl, rfl⟩

/-- What `RecordGap` does when the gap is taken : only an empty range leaves the state as it is. -/
theorem recordGap_succeed (state : ChannelState cfg) (first last next now : ℕ) (fx : Effects) :
    recordGap .succeed state first last next now fx =
      if last < first then (true, state, fx)
      else
        (true, withGap state first last next,
          fx.log (.gap (gapRecord (withGap state first last next) first last next now) true)) :=
  rfl

/-- A freeze is at the same position and for the same reason in both. -/
theorem freezeFromOpen_alike (hs : StateAlike left right s t) (reason : ChannelFaultReason)
    (observedSequence now : ℕ) (hfx : EffectsAlike left right fx fx') :
    TurnAlike left right (freezeFromOpen .succeed s reason observedSequence now fx)
      (freezeFromOpen .succeed t reason observedSequence now fx') := by
  obtain ⟨table, marked, htable⟩ := hs
  rw [freezeFromOpen, freezeFromOpen]
  by_cases hfrozen : s.frozen = true
  · rw [if_pos hfrozen, if_pos hfrozen]
    exact ⟨.mk _ _ _ htable, hfx⟩
  · rw [if_neg hfrozen, if_neg hfrozen]
    exact ⟨.mk _ _ _ htable, hfx.log (.fault _ true)⟩

/-- `FinishDiscovery` finds the same origin with either catalog. -/
theorem finishDiscovery_alike (now : ℕ) {turn turn' : ChannelState cfg × Effects}
    (hturn : TurnAlike left right turn turn') :
    TurnAlike left right (finishDiscovery .succeed now turn)
      (finishDiscovery .succeed now turn') := by
  obtain ⟨s, fx⟩ := turn
  obtain ⟨t, fx'⟩ := turn'
  obtain ⟨hs, hfx⟩ := hturn
  have hminimum := minimumPending_alike hs
  obtain ⟨table, marked, htable⟩ := hs
  rw [finishDiscovery, finishDiscovery]
  dsimp only at hminimum ⊢
  rw [← hminimum]
  split_ifs
  · exact ⟨.mk _ _ _ htable, hfx⟩
  · exact drainContiguous_alike now ⟨.mk _ _ _ htable, hfx.log (.origin _)⟩

/-- A gap is forced over the same range in both. -/
theorem forceGapToMinimum_alike (now : ℕ) {turn turn' : ChannelState cfg × Effects}
    (hturn : TurnAlike left right turn turn') :
    TurnAlike left right (forceGapToMinimum .succeed now turn)
      (forceGapToMinimum .succeed now turn') := by
  obtain ⟨s, fx⟩ := turn
  obtain ⟨t, fx'⟩ := turn'
  obtain ⟨hs, hfx⟩ := hturn
  have hminimum := minimumPending_alike hs
  obtain ⟨table, marked, htable⟩ := hs
  rw [forceGapToMinimum, forceGapToMinimum]
  dsimp only at hminimum ⊢
  rw [← hminimum, recordGap_succeed, recordGap_succeed]
  by_cases hnone : s.pendingCount = 0
  · rw [if_pos hnone, if_pos hnone]
    exact ⟨.mk _ _ _ htable, hfx⟩
  · rw [if_neg hnone, if_neg hnone]
    by_cases hahead : s.expected < minimumPending s
    · rw [if_pos hahead, if_pos hahead]
      by_cases hempty : minimumPending s - 1 < s.expected
      · rw [if_pos hempty, if_pos hempty]
        exact drainContiguous_alike now ⟨.mk _ _ _ htable, hfx⟩
      · rw [if_neg hempty, if_neg hempty]
        exact drainContiguous_alike now ⟨.mk _ _ _ htable, hfx.log (.gap _ true)⟩
    · rw [if_neg hahead, if_neg hahead]
      exact drainContiguous_alike now ⟨.mk _ _ _ htable, hfx⟩

/-! ## The calls, on one channel -/

/-- One pass of the loop of `ProcessActive` : both calls go on, or both end. -/
theorem activeBody_alike (hdecoded : DecodedAlike left right a b) (now : ℕ)
    {turn turn' : ChannelState cfg × Effects} (hturn : TurnAlike left right turn turn') :
    Loop.Alike (TurnAlike left right) (TurnAlike left right)
      (activeBody .succeed a now turn) (activeBody .succeed b now turn') := by
  obtain ⟨s, fx⟩ := turn
  obtain ⟨t, fx'⟩ := turn'
  obtain ⟨hs, hfx⟩ := hturn
  have hsequence : b.nativeSequence = a.nativeSequence := hdecoded.nativeSequence.symm
  have hexpected : t.expected = s.expected := hs.same.2.2.2.1
  have hinsert := insert_alike hs hdecoded
  rw [activeBody, activeBody]
  dsimp only
  rw [hsequence, hexpected]
  by_cases hbehind : a.nativeSequence < s.expected
  · rw [if_pos hbehind, if_pos hbehind]
    exact .done ⟨hs, divertLateRecovery_alike hs hdecoded _ hfx⟩
  rw [if_neg hbehind, if_neg hbehind]
  by_cases hnext : a.nativeSequence = s.expected
  · rw [if_pos hnext, if_pos hnext]
    obtain ⟨table, marked, htable⟩ := hs
    have hcounted : StateAlike left right { s with pendingCount := s.pendingCount + 1 }
        { s with
          pendingCount := s.pendingCount + 1, pending := table, gapMetadataPending := marked } :=
      .mk _ _ marked htable
    have hemit := emitOne_alike hcounted hdecoded hfx
    rw [emitOne_succeed, emitOne_succeed] at hemit ⊢
    exact .done (drainContiguous_alike now ⟨.mk _ _ _ htable, hemit.2⟩)
  rw [if_neg hnext, if_neg hnext]
  obtain ⟨hresult, hs'⟩ := hinsert
  generalize insert s a = inserted at hresult hs' ⊢
  generalize insert t b = inserted' at hresult hs' ⊢
  obtain ⟨result, s'⟩ := inserted
  obtain ⟨result', t'⟩ := inserted'
  obtain rfl : result = result' := hresult
  dsimp only at hs'
  rcases result with - | - | - | -
  · by_cases hfar : cfg.maximumReorderSpan < a.nativeSequence - s.expected
    · dsimp only
      rw [if_pos hfar, if_pos hfar]
      exact .done (forceGapToMinimum_alike now ⟨hs', hfx⟩)
    · have hopened : TurnAlike left right (openGap now s' fx) (openGap now t' fx') := by
        obtain ⟨table, marked, htable⟩ := hs'
        rw [openGap, openGap]
        dsimp only
        split_ifs
        · exact ⟨.mk _ _ _ htable, hfx.scheduleDeadline _ _⟩
        · exact ⟨.mk _ _ _ htable, hfx⟩
      dsimp only
      rw [if_neg hfar, if_neg hfar]
      show Loop.Alike _ _
        (if cfg.gapWaitNs = 0 then .done (forceGapToMinimum .succeed now (openGap now s' fx))
          else .done (openGap now s' fx))
        (if cfg.gapWaitNs = 0 then .done (forceGapToMinimum .succeed now (openGap now t' fx'))
          else .done (openGap now t' fx'))
      split_ifs
      · exact .done (forceGapToMinimum_alike now hopened)
      · exact .done hopened
  · exact .done ⟨hs', hfx.log (.duplicate hdecoded)⟩
  · dsimp only
    split_ifs
    · exact .done (freezeFromOpen_alike hs' _ _ now hfx)
    · exact .done ⟨hs', divertLateRecovery_alike hs' hdecoded _ hfx⟩
  · have hforce := forceGapToMinimum_alike now (show TurnAlike left right (s', fx) (t', fx') from
      ⟨hs', hfx⟩)
    have hminimum := minimumPending_alike hs'
    obtain ⟨table, marked, htable⟩ := hs'
    dsimp only at hminimum ⊢
    rw [← hminimum, recordGap_succeed, recordGap_succeed]
    by_cases hbelow : s'.pendingCount = 0 ∨ a.nativeSequence < minimumPending s'
    · rw [if_pos hbelow, if_pos hbelow]
      by_cases hempty : a.nativeSequence - 1 < s'.expected
      · rw [if_pos hempty, if_pos hempty]
        exact .again ⟨.mk _ _ _ htable, hfx⟩
      · rw [if_neg hempty, if_neg hempty]
        exact .again ⟨.mk _ _ _ htable, hfx.log (.gap _ true)⟩
    · rw [if_neg hbelow, if_neg hbelow]
      exact .again hforce

/-- The passes are alike one by one, so the loops end together. -/
theorem processActive_alike (hdecoded : DecodedAlike left right a b) (now : ℕ)
    {turn turn' : ChannelState cfg × Effects} (hturn : TurnAlike left right turn turn') :
    Option.Rel (TurnAlike left right) (processActive .succeed a now turn)
      (processActive .succeed b now turn') :=
  Loop.iterate_alike (fun _ _ => activeBody_alike hdecoded now) (passes cfg) hturn

theorem openHold_alike (now : ℕ) (hs : StateAlike left right s t) :
    TurnAlike left right (openHold now s) (openHold now t) := by
  obtain ⟨table, marked, htable⟩ := hs
  rw [openHold, openHold]
  dsimp only
  split_ifs
  · exact ⟨.mk _ _ _ htable, EffectsAlike.nil.scheduleDeadline _ _⟩
  · exact ⟨.mk _ _ _ htable, .nil⟩
  · exact ⟨.mk _ _ _ htable, .nil⟩

/-- `ProcessChannel` of a record that was decoded with either catalog. -/
theorem processChannel_alike (hdecoded : DecodedAlike left right a b) (now : ℕ)
    (hs : StateAlike left right s t) :
    Option.Rel (TurnAlike left right) (processChannel .succeed a now s)
      (processChannel .succeed b now t) := by
  have hturn : TurnAlike left right (s, {}) (t, {}) := ⟨hs, .nil⟩
  obtain ⟨hfrozen, hdiscovering, -⟩ := hs.same
  obtain ⟨hresult, hs'⟩ := insert_alike hs hdecoded
  rw [processChannel, processChannel, hfrozen, hdiscovering]
  by_cases hshut : s.frozen = true
  · rw [if_pos hshut, if_pos hshut]
    exact .some hturn
  rw [if_neg hshut, if_neg hshut]
  by_cases hearly : cfg.mode = .kPartial ∧ s.discovering = true
  · rw [if_pos hearly, if_pos hearly]
    generalize insert s a = inserted at hresult hs' ⊢
    generalize insert t b = inserted' at hresult hs' ⊢
    obtain ⟨result, s'⟩ := inserted
    obtain ⟨result', t'⟩ := inserted'
    obtain rfl : result = result' := hresult
    dsimp only at hs'
    rcases result with - | - | - | -
    · have hheld := openHold_alike now hs'
      have hseen := hheld.1.same.2.2.2.2.1
      show Option.Rel _
        (if cfg.initialHoldNs = 0 ||
            deadlineReached now (openHold now s').1.firstSeenNs cfg.initialHoldNs then
          some (finishDiscovery .succeed now (openHold now s'))
        else some (openHold now s'))
        (if cfg.initialHoldNs = 0 ||
            deadlineReached now (openHold now t').1.firstSeenNs cfg.initialHoldNs then
          some (finishDiscovery .succeed now (openHold now t'))
        else some (openHold now t'))
      rw [hseen]
      split_ifs
      · exact .some (finishDiscovery_alike now hheld)
      · exact .some hheld
    · exact .some ⟨hs', EffectsAlike.nil.log (.duplicate hdecoded)⟩
    · exact .some ⟨hs', divertLateRecovery_alike hs' hdecoded _ .nil⟩
    · exact processActive_alike hdecoded now (finishDiscovery_alike now ⟨hs', .nil⟩)
  · rw [if_neg hearly, if_neg hearly]
    exact processActive_alike hdecoded now hturn

/-- `Poll` of a channel, with either catalog. -/
theorem pollChannel_alike (now : ℕ) (hs : StateAlike left right s t) :
    TurnAlike left right (pollChannel .succeed now s) (pollChannel .succeed now t) := by
  have hfinish := finishDiscovery_alike now (⟨hs, .nil⟩ : TurnAlike left right (s, {}) (t, {}))
  have hforce := forceGapToMinimum_alike now (⟨hs, .nil⟩ : TurnAlike left right (s, {}) (t, {}))
  obtain ⟨table, marked, htable⟩ := hs
  rw [pollChannel, pollChannel]
  dsimp only
  split_ifs
  · exact ⟨.mk _ _ _ htable, .nil⟩
  · exact hfinish
  · exact ⟨.mk _ _ _ htable, EffectsAlike.nil.scheduleDeadline _ _⟩
  · exact hforce
  · exact ⟨.mk _ _ _ htable, EffectsAlike.nil.scheduleDeadline _ _⟩
  · exact ⟨.mk _ _ _ htable, .nil⟩

/-- `Flush` of a channel, with either catalog : the loop ends in both, or in neither. -/
theorem flushChannel_alike (now : ℕ) (hs : StateAlike left right s t) :
    Option.Rel (TurnAlike left right) (flushChannel .succeed now s)
      (flushChannel .succeed now t) := by
  have hturn : TurnAlike left right (s, {}) (t, {}) := ⟨hs, .nil⟩
  have hfinish := finishDiscovery_alike now hturn
  have hloop : ∀ {turn turn' : ChannelState cfg × Effects}, TurnAlike left right turn turn' →
      Option.Rel (TurnAlike left right)
        (Loop.iterate (flushBody .succeed now) (passes cfg) turn)
        (Loop.iterate (flushBody .succeed now) (passes cfg) turn') := by
    refine fun hturn => Loop.iterate_alike ?_ (passes cfg) hturn
    rintro ⟨s, fx⟩ ⟨t, fx'⟩ hturn
    have hforce := forceGapToMinimum_alike now hturn
    obtain ⟨⟨table, marked, htable⟩, hfx⟩ := hturn
    rw [flushBody, flushBody]
    dsimp only at hforce ⊢
    split_ifs
    · exact .done ⟨.mk _ _ _ htable, hfx⟩
    · exact .again hforce
  obtain ⟨table, marked, htable⟩ := hs
  rw [flushChannel, flushChannel]
  dsimp only
  split_ifs
  · exact .some ⟨.mk _ _ _ htable, .nil⟩
  · exact hloop hfinish
  · exact hloop hturn

end Channel

/-! ## Lanes -/

/-- The same channel, in the same place. -/
structure EntryAlike (left right : InstrumentCatalog) (entry entry' : ChannelEntry cfg) : Prop where
  mailboxSlot : entry.mailboxSlot = entry'.mailboxSlot
  state : StateAlike left right entry.state entry'.state

/-- The same lane but for its channels, which are alike. -/
inductive LaneAlike (left right : InstrumentCatalog) :
    SequenceRecovery cfg → SequenceRecovery cfg → Prop
  | mk (lane : SequenceRecovery cfg) (channels : List (ChannelEntry cfg))
      (h : List.Forall₂ (EntryAlike left right) lane.channels channels) :
    LaneAlike left right lane { lane with channels := channels }

/-- The same events of the same channels. -/
abbrev TraceAlike (left right : InstrumentCatalog) : Trace → Trace → Prop :=
  List.Forall₂ fun e e' => e.1 = e'.1 ∧ EventAlike left right e.2 e'.2

/-- What a call returns : lanes and events that are alike. -/
def ResultAlike (left right : InstrumentCatalog)
    (result result' : SequenceRecovery cfg × Trace) : Prop :=
  LaneAlike left right result.1 result'.1 ∧ TraceAlike left right result.2 result'.2

/-- The same call, on records that are alike. -/
inductive CallAlike (left right : InstrumentCatalog) : Call → Call → Prop
  | process {a b : DecodedTick}
      (h : DecodedAlike left right a.toTickDecodeResult b.toTickDecodeResult) (now : ℕ) :
    CallAlike left right (.process a now) (.process b now)
  | poll (now : ℕ) : CallAlike left right (.poll now) (.poll now)
  | flush (now : ℕ) : CallAlike left right (.flush now) (.flush now)
  | freezeDecodeFailure (key : ChannelKey) (sequence now : ℕ) :
    CallAlike left right (.freezeDecodeFailure key sequence now)
      (.freezeDecodeFailure key sequence now)

section Lane

variable {lane lane' : SequenceRecovery cfg}

theorem optionRel_map {α β γ δ : Type*} {R : α → β → Prop} {Q : γ → δ → Prop} {f : α → γ}
    {g : β → δ} (hfg : ∀ a b, R a b → Q (f a) (g b)) {x : Option α} {y : Option β}
    (h : Option.Rel R x y) : Option.Rel Q (x.map f) (y.map g) := by
  rcases h with hab | -
  · exact .some (hfg _ _ hab)
  · exact .none

theorem forall₂_getElem? {α β : Type*} {R : α → β → Prop} :
    ∀ {l : List α} {m : List β}, List.Forall₂ R l m → ∀ index : ℕ,
      Option.Rel R l[index]? m[index]?
  | _, _, .nil, _ => .none
  | _, _, .cons h _, 0 => .some h
  | _, _, .cons _ hs, index + 1 => forall₂_getElem? hs index

theorem forall₂_set {α β : Type*} {R : α → β → Prop} {a : α} {b : β} (hab : R a b) :
    ∀ {l : List α} {m : List β}, List.Forall₂ R l m → ∀ index : ℕ,
      List.Forall₂ R (l.set index a) (m.set index b)
  | _, _, .nil, _ => .nil
  | _, _, .cons _ hs, 0 => .cons hab hs
  | _, _, .cons h hs, index + 1 => .cons h (forall₂_set hab hs index)

theorem traceAlike_tag {key : ChannelKey} {events events' : List Event}
    (h : List.Forall₂ (EventAlike left right) events events') :
    TraceAlike left right (tag key events) (tag key events') :=
  List.rel_map (fun _ _ hevent => ⟨rfl, hevent⟩) h

/-- The channel table does not see the catalog : the same index is found, or none in both. -/
theorem findOrCreate_alike (hlane : LaneAlike left right lane lane') (key : ChannelKey) :
    Option.Rel (fun found found' => found.1 = found'.1 ∧ LaneAlike left right found.2 found'.2)
      (findOrCreate hashChannel lane key) (findOrCreate hashChannel lane' key) := by
  obtain ⟨channels, hchannels⟩ := hlane
  have hmatches : (fun index : ℕ => (channels[index]?).any fun entry =>
      entry.state.market == key.market && entry.state.channel == key.channel) =
        fun index : ℕ => (lane.channels[index]?).any fun entry =>
          entry.state.market == key.market && entry.state.channel == key.channel := by
    funext index
    have hentry := forall₂_getElem? hchannels index
    generalize lane.channels[index]? = x at hentry ⊢
    generalize channels[index]? = y at hentry ⊢
    rcases hentry with hentry | -
    · have hkey := hentry.state.same.2.2.2.2.2.2
      rw [ChannelState.key, ChannelState.key] at hkey
      obtain ⟨hmarket, hchannel⟩ := ChannelKey.mk.inj hkey
      rw [Option.any_some, Option.any_some, hmarket, hchannel]
    · rfl
  rw [findOrCreate, findOrCreate]
  dsimp only
  rw [hmatches, ← hchannels.length_eq]
  split
  · split_ifs
    · exact .none
    · refine .some ⟨rfl, .mk _ _ (List.rel_append hchannels (.cons ⟨rfl, ?_⟩ .nil))⟩
      exact .mk _ _ _ fun _ => .none
  · exact .some ⟨rfl, .mk _ _ hchannels⟩
  · exact .none

/-- A call on one channel, when what it does to the channel is alike. -/
theorem onChannel_alike (hlane : LaneAlike left right lane lane') (index : ℕ)
    {op op' : ChannelEntry cfg → Option (ChannelState cfg × Effects)}
    (hop : ∀ entry entry', EntryAlike left right entry entry' →
      Option.Rel (TurnAlike left right) (op entry) (op' entry')) :
    Option.Rel (ResultAlike left right) (onChannel lane index op) (onChannel lane' index op') := by
  obtain ⟨channels, hchannels⟩ := hlane
  have hentry := forall₂_getElem? hchannels index
  rw [onChannel, onChannel]
  dsimp only
  generalize lane.channels[index]? = x at hentry ⊢
  generalize channels[index]? = y at hentry ⊢
  rcases hentry with @⟨entry, entry', hentry⟩ | -
  · have hturn := hop entry entry' hentry
    dsimp only
    generalize op entry = turn at hturn ⊢
    generalize op' entry' = turn' at hturn ⊢
    rcases hturn with @⟨turn, turn', hstate, hfx⟩ | -
    · have hset : List.Forall₂ (EntryAlike left right)
          (lane.channels.set index { entry with state := turn.1 })
          (channels.set index { entry' with state := turn'.1 }) :=
        forall₂_set ⟨hentry.mailboxSlot, hstate⟩ hchannels index
      dsimp only
      rw [hfx.deadlines, hentry.state.same.2.2.2.2.2.2]
      exact .some ⟨.mk _ _ hset, traceAlike_tag hfx.events⟩
    · exact .none
  · exact .some ⟨.mk _ _ hchannels, .nil⟩

/-- The turn of one channel in a loop over all. -/
abbrev EntryTurn (cfg : RecoveryConfig) :=
  ChannelEntry cfg × ChannelState cfg × Effects

abbrev EntryTurnAlike (left right : InstrumentCatalog) (turn turn' : EntryTurn cfg) : Prop :=
  EntryAlike left right turn.1 turn'.1 ∧ TurnAlike left right turn.2 turn'.2

/-- What `Poll` and `Flush` put together from the turns of the channels. -/
theorem afterTurns_alike (hlane : LaneAlike left right lane lane') (nextDeadlineNs : ℕ)
    {turns turns' : List (EntryTurn cfg)}
    (hturns : List.Forall₂ (EntryTurnAlike left right) turns turns') :
    ResultAlike left right (afterTurns lane nextDeadlineNs turns)
      (afterTurns lane' nextDeadlineNs turns') := by
  obtain ⟨channels, hchannels⟩ := hlane
  have hdeadlines : turns.flatMap (fun turn => turn.2.2.deadlines) =
      turns'.flatMap fun turn => turn.2.2.deadlines := by
    clear hchannels
    induction hturns with
    | nil => rfl
    | cons hturn _ ih =>
      rw [List.flatMap_cons, List.flatMap_cons, hturn.2.2.deadlines, ih]
  rw [afterTurns, afterTurns, hdeadlines]
  refine ⟨.mk _ _ (List.rel_map (fun turn turn' hturn => ?_) hturns),
    List.rel_flatMap hturns fun turn turn' hturn => ?_⟩
  · exact ⟨hturn.1.mailboxSlot, hturn.2.1⟩
  · rw [hturn.1.state.same.2.2.2.2.2.2]
    exact traceAlike_tag hturn.2.2.events

theorem mapM_alike {α β γ δ : Type*} {R : α → β → Prop} {Q : γ → δ → Prop} {f : α → Option γ}
    {g : β → Option δ} (hfg : ∀ a b, R a b → Option.Rel Q (f a) (g b)) :
    ∀ {l : List α} {m : List β}, List.Forall₂ R l m →
      Option.Rel (List.Forall₂ Q) (l.mapM f) (m.mapM g) := by
  intro l m h
  induction h with
  | nil => exact .some .nil
  | @cons a b l m h _ htail =>
    have hhead := hfg a b h
    rw [List.mapM_cons, List.mapM_cons]
    generalize f a = x at hhead ⊢
    generalize g b = y at hhead ⊢
    rcases hhead with hhead | -
    · generalize List.mapM f _ = xs at htail ⊢
      generalize List.mapM g _ = ys at htail ⊢
      rcases htail with htail | -
      · exact .some (.cons hhead htail)
      · exact .none
    · exact .none

/-- Every call of the recovery takes lanes that are alike to lanes that are alike. -/
theorem step_alike (hlane : LaneAlike left right lane lane') {call call' : Call}
    (hcall : CallAlike left right call call') :
    Option.Rel (ResultAlike left right) (step (fun _ => .succeed) lane call)
      (step (fun _ => .succeed) lane' call') := by
  rcases hcall with ⟨hdecoded, now⟩ | now | now | ⟨key, sequence, now⟩
  · next a b =>
    have hkey : b.toTickDecodeResult.key = a.toTickDecodeResult.key :=
      (uncataloged_congr (fun tick => (⟨tick.common.identity.market, tick.common.channel⟩ :
        ChannelKey)) (fun _ => rfl) hdecoded.tick).symm
    have hfound := findOrCreate_alike hlane a.toTickDecodeResult.key
    rw [step, step, process, process, hkey]
    generalize findOrCreate hashChannel lane _ = x at hfound ⊢
    generalize findOrCreate hashChannel lane' _ = y at hfound ⊢
    rcases hfound with @⟨found, found', hindex, hfound⟩ | -
    · dsimp only
      rw [hindex]
      refine onChannel_alike hfound _ fun entry entry' hentry => ?_
      exact processChannel_alike hdecoded now hentry.state
    · exact .some ⟨hlane, .cons ⟨rfl, .fatal _⟩ .nil⟩
  · rw [step, step, poll, poll]
    have hturns := hlane
    obtain ⟨channels, hchannels⟩ := hturns
    dsimp only
    split_ifs
    · exact .some ⟨.mk _ _ hchannels, .nil⟩
    · refine .some (afterTurns_alike (.mk _ _ hchannels) 0 (List.rel_map ?_ hchannels))
      exact fun entry entry' hentry => ⟨hentry, pollChannel_alike now hentry.state⟩
  · rw [step, step, flush, flush]
    have hturns := hlane
    obtain ⟨channels, hchannels⟩ := hturns
    refine optionRel_map (fun turns turns' hturns => ?_)
      (mapM_alike (Q := EntryTurnAlike left right) (fun entry entry' hentry => ?_) hchannels)
    · exact afterTurns_alike (.mk _ _ hchannels) lane.nextDeadlineNs hturns
    · exact optionRel_map (fun _ _ hturn => ⟨hentry, hturn⟩)
        (flushChannel_alike now hentry.state)
  · have hfound := findOrCreate_alike hlane key
    rw [step, step, freezeDecodeFailure, freezeDecodeFailure]
    split_ifs
    · exact .some ⟨hlane, .nil⟩
    · generalize findOrCreate hashChannel lane _ = x at hfound ⊢
      generalize findOrCreate hashChannel lane' _ = y at hfound ⊢
      rcases hfound with @⟨found, found', hindex, hfound⟩ | -
      · dsimp only
        rw [hindex]
        refine onChannel_alike hfound _ fun entry entry' hentry => .some ?_
        exact freezeFromOpen_alike hentry.state _ _ now .nil
      · exact .some ⟨hlane, .cons ⟨rfl, .fatal _⟩ .nil⟩

/-- Lanes that make calls that are alike keep step. -/
theorem runFrom_alike : ∀ {calls calls' : List Call},
    List.Forall₂ (CallAlike left right) calls calls' → ∀ {lane lane' : SequenceRecovery cfg},
      LaneAlike left right lane lane' →
        Option.Rel (ResultAlike left right)
          (runFrom lane (calls.map fun call => (call, fun _ => .succeed)))
          (runFrom lane' (calls'.map fun call => (call, fun _ => .succeed))) := by
  intro calls calls' h
  induction h with
  | nil => exact fun hlane => .some ⟨hlane, .nil⟩
  | @cons call call' calls calls' hcall _ ih =>
    intro lane lane' hlane
    have hstep := step_alike hlane hcall
    rw [List.map_cons, List.map_cons, runFrom, runFrom]
    generalize step _ lane call = x at hstep ⊢
    generalize step _ lane' call' = y at hstep ⊢
    rcases hstep with @⟨result, result', hlane', htrace⟩ | -
    · have hrest := ih hlane'
      dsimp only
      generalize runFrom result.1 _ = x at hrest ⊢
      generalize runFrom result'.1 _ = y at hrest ⊢
      rcases hrest with hrest | -
      · exact .some ⟨hrest.1, List.rel_append htrace hrest.2⟩
      · exact .none
    · exact .none

/-- The frontier of a channel does not tell the catalogs apart. -/
theorem expected_alike (key : ChannelKey) : ∀ {channels channels' : List (ChannelEntry cfg)},
    List.Forall₂ (EntryAlike left right) channels channels' →
      ((channels.find? fun entry => entry.state.key = key).map (·.state)).map (·.expected) =
        ((channels'.find? fun entry => entry.state.key = key).map (·.state)).map
          (·.expected) := by
  intro channels channels' h
  induction h with
  | nil => rfl
  | @cons entry entry' channels channels' hentry _ ih =>
    obtain ⟨-, -, -, hexpected, -, -, hkey⟩ := hentry.state.same
    rw [List.find?_cons, List.find?_cons, hkey]
    rcases decide (entry.state.key = key) with - | -
    · exact ih
    · exact congrArg some hexpected.symm

end Lane

/-! ## What the catalogs cannot change -/

/-- The late records passed to `emit_late`. -/
def lateRecordsOf (events : List Event) : List LateRecoveryTick :=
  events.filterMap fun
    | .late _ record _ => some record
    | _ => none

/-- The ticks passed to `emit_tick` that are of instruments of both catalogs. -/
def sharedTicksOf (left right : InstrumentCatalog) (events : List Event) : List CanonicalTick :=
  (ticksOf events).filter fun tick =>
    left.has tick.common.identity && right.has tick.common.identity

section Events

variable {events events' : List Event}

theorem gapsOf_alike (h : List.Forall₂ (EventAlike left right) events events') :
    gapsOf events = gapsOf events' := by
  have hgaps : List.Forall₂ (· = ·) (gapsOf events) (gapsOf events') := by
    refine List.rel_filterMap (fun event event' hevent => ?_) h
    rcases hevent with _ | _ | _ | _ | _ | _ | _
    case gap => exact .some rfl
    all_goals exact .none
  rwa [List.forall₂_eq_eq_eq] at hgaps

theorem faultsOf_alike (h : List.Forall₂ (EventAlike left right) events events') :
    faultsOf events = faultsOf events' := by
  have hfaults : List.Forall₂ (· = ·) (faultsOf events) (faultsOf events') := by
    refine List.rel_filterMap (fun event event' hevent => ?_) h
    rcases hevent with _ | _ | _ | _ | _ | _ | _
    case fault => exact .some rfl
    all_goals exact .none
  rwa [List.forall₂_eq_eq_eq] at hfaults

/-- The late records are the same, but for what the catalog says of them. -/
theorem lateRecordsOf_alike (h : List.Forall₂ (EventAlike left right) events events') :
    List.Forall₂ (fun record record' => record.uncataloged = record'.uncataloged)
      (lateRecordsOf events) (lateRecordsOf events') := by
  refine List.rel_filterMap (fun event event' hevent => ?_) h
  rcases hevent with _ | _ | _ | ⟨-, hrecord, -⟩ | _ | _ | _
  case late => exact .some hrecord
  all_goals exact .none

/-- A tick of an instrument of both catalogs is passed to `emit_tick` by both lanes. -/
theorem sharedTicksOf_alike (h : List.Forall₂ (EventAlike left right) events events') :
    List.Forall₂ (fun tick tick' => tick.unmarked = tick'.unmarked)
      (sharedTicksOf left right events) (sharedTicksOf left right events') := by
  rw [sharedTicksOf, sharedTicksOf, ticksOf, ticksOf, List.filter_filterMap, List.filter_filterMap]
  refine List.rel_filterMap (fun event event' hevent => ?_) h
  rcases hevent with @⟨a, b, tick, tick', hslot, htick, hidentity, accepted⟩ | _ | _ | _ | _ | _ | _
  case consumed =>
    have hsame : tick.common.identity = tick'.common.identity := congrArg (·.common.identity) htick
    have hother : tick'.common.identity = b.tick.common.identity :=
      hsame.symm.trans (hidentity.trans hslot.identity)
    have hfilter : ∀ (emit : Bool) (tick : CanonicalTick),
        (if emit then some tick else none).filter (fun tick => left.has tick.common.identity &&
          right.has tick.common.identity) = if emit && (left.has tick.common.identity &&
            right.has tick.common.identity) then some tick else none := by
      rintro (- | -) tick
      · rfl
      · exact Option.filter_some
    dsimp only
    rw [hfilter, hfilter, hslot.left, hslot.right, ← hidentity, ← hother, ← hsame]
    rcases left.has tick.common.identity with - | - <;>
      rcases right.has tick.common.identity with - | -
    case true.true => exact .some htick
    all_goals exact .none
  all_goals exact .none

end Events

/-! ## Decoding with two catalogs -/

/-- A message is decoded with both catalogs, or with neither. -/
theorem decodeTick_alike (grows : ℕ → Bool) (message : OwnedMessageView) (tradeDate : ℕ)
    (limits : DecoderLimits) (left right : InstrumentCatalog) :
    (∃ tick s, decodeTick grows message tradeDate limits left = .ok (applyTickCatalog left tick) s ∧
      decodeTick grows message tradeDate limits right = .ok (applyTickCatalog right tick) s) ∨
    ∃ e s, decodeTick grows message tradeDate limits left = .error e s ∧
      decodeTick grows message tradeDate limits right = .error e s := by
  rw [decodeTick, decodeTick]
  split_ifs
  · exact Or.inr ⟨_, _, rfl, rfl⟩
  · rcases hread : readTick message tradeDate limits (scope grows 8) with ⟨tick, s⟩ | ⟨e, s⟩
    · rw [bind_ok hread, bind_ok hread]
      exact Or.inl ⟨tick, s, rfl, rfl⟩
    · rw [bind_error hread, bind_error hread]
      exact Or.inr ⟨e, s, rfl, rfl⟩

/-- A body that is decoded is processed with the time of its arrival. -/
theorem handleTick_ok {settings : DecodeSettings} {catalog : InstrumentCatalog}
    {grows : ℕ → Bool} {message : OwnedMessageView} {decoded : TickDecodeResult} {s : Scan}
    (h : decodeTick grows message settings.tradeDate settings.limits catalog = .ok decoded s) :
    handleTick cfg settings catalog grows message =
      .call (.process (decodeTick_read h).tick message.receiveMonotonicNs) := by
  rw [handleTick]
  split
  · next hok =>
    cases hok.symm.trans h
    rfl
  · next herror => cases herror.symm.trans h

/-- A body that is not decoded may freeze its channel, or stop the engine : no catalog is read. -/
theorem handleTick_error {settings : DecodeSettings} {catalog : InstrumentCatalog}
    {grows : ℕ → Bool} {message : OwnedMessageView} {e : DecodeError} {s : Scan}
    (h : decodeTick grows message settings.tradeDate settings.limits catalog = .error e s) :
    handleTick cfg settings catalog grows message =
      if cfg.mode = .kFromOpen then
        match extractTickNativeDescriptor (classifyMessage message.header.key) message.body with
        | some (market, channel, sequence) =>
          .call (.freezeDecodeFailure ⟨market, channel⟩ sequence message.receiveMonotonicNs)
        | none =>
          .fatal "from-open tick decode failed and its native channel position was invalid"
      else .nothing := by
  rw [handleTick]
  split
  · next hok => cases hok.symm.trans h
  · rfl

/-- One input comes to calls that are alike, or to none with either catalog. -/
theorem call?_alike (settings : DecodeSettings) (left right : InstrumentCatalog)
    (input : TickInput) :
    Option.Rel (CallAlike left right) (input.call? cfg settings left)
      (input.call? cfg settings right) := by
  rcases input with ⟨grows, message⟩ | now | now
  · rw [TickInput.call?, TickInput.call?]
    rcases decodeTick_alike grows message settings.tradeDate settings.limits left right with
      ⟨tick, s, hleft, hright⟩ | ⟨e, s, hleft, hright⟩
    · rw [handleTick_ok hleft, handleTick_ok hright]
      refine .some (.process ⟨?_, ?_, ?_⟩ _)
      · exact (applyTickCatalog_uncataloged left tick).trans
          (applyTickCatalog_uncataloged right tick).symm
      · exact (decodeTick_read hleft).catalogMatch
      · exact (decodeTick_read hright).catalogMatch
    · rw [handleTick_error hleft, handleTick_error hright]
      split_ifs
      · rcases extractTickNativeDescriptor (classifyMessage message.header.key) message.body with
          - | ⟨market, channel, sequence⟩
        · exact .none
        · exact .some (.freezeDecodeFailure _ _ _)
      · exact .none
  · exact .some (.poll now)
  · exact .some (.flush now)

/-- The calls that the inputs come to. -/
def callsOf (cfg : RecoveryConfig) (settings : DecodeSettings) (catalog : InstrumentCatalog)
    (inputs : List TickInput) : List Call :=
  inputs.filterMap (TickInput.call? cfg settings catalog)

/-- Two lanes with different catalogs and the same inputs. After every input (the inputs are any
list) they have published the same gaps and faults, the same late records up to what the catalogs
write, and the same ticks of the instruments that both catalogs have, and every channel has the
same frontier. -/
theorem catalog_blind (cfg : RecoveryConfig) (settings : DecodeSettings)
    (left right : InstrumentCatalog) (inputs : List TickInput) :
    ∃ lane trace lane' trace', run cfg (callsOf cfg settings left inputs) = some (lane, trace) ∧
      run cfg (callsOf cfg settings right inputs) = some (lane', trace') ∧
      TraceAlike left right trace trace' ∧
      gapsOf (trace.map Prod.snd) = gapsOf (trace'.map Prod.snd) ∧
      faultsOf (trace.map Prod.snd) = faultsOf (trace'.map Prod.snd) ∧
      List.Forall₂ (fun record record' => record.uncataloged = record'.uncataloged)
        (lateRecordsOf (trace.map Prod.snd)) (lateRecordsOf (trace'.map Prod.snd)) ∧
      List.Forall₂ (fun tick tick' => tick.unmarked = tick'.unmarked)
        (sharedTicksOf left right (trace.map Prod.snd))
        (sharedTicksOf left right (trace'.map Prod.snd)) ∧
      ∀ key, (lane.stateOf key).map (·.expected) = (lane'.stateOf key).map (·.expected) := by
  have hcalls : List.Forall₂ (CallAlike left right) (callsOf cfg settings left inputs)
      (callsOf cfg settings right inputs) :=
    List.rel_filterMap (R := Eq) (fun input _ hinput => hinput ▸ call?_alike settings left right
      input) (List.forall₂_eq_eq_eq ▸ rfl)
  have hinit : LaneAlike left right (init cfg) (init cfg) := .mk _ _ .nil
  obtain ⟨lane, trace, hrun⟩ := exists_run cfg (callsOf cfg settings left inputs)
  obtain ⟨lane', trace', hrun'⟩ := exists_run cfg (callsOf cfg settings right inputs)
  have halike := runFrom_alike hcalls hinit
  have hsome : Option.Rel (ResultAlike left right) (some (lane, trace)) (some (lane', trace')) := by
    rw [← hrun, ← hrun']
    exact halike
  rcases hsome with ⟨hlane, htrace⟩ | -
  have hevents : List.Forall₂ (EventAlike left right) (trace.map Prod.snd)
      (trace'.map Prod.snd) := List.rel_map (fun _ _ hevent => hevent.2) htrace
  refine ⟨lane, trace, lane', trace', hrun, hrun', htrace, gapsOf_alike hevents,
    faultsOf_alike hevents, lateRecordsOf_alike hevents, sharedTicksOf_alike hevents,
    fun key => ?_⟩
  obtain ⟨channels, hchannels⟩ := hlane
  exact expected_alike key hchannels

end SequenceRecovery

end L2Flow
