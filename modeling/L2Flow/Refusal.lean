import L2Flow.Window

/-!
# Refused ticks

When `emit_tick` fails, `EmitOne` has taken the record out of the table already, and the
frontier stays at its position : the position is lost. A gap committed from there reports
as missing a record that was received. `Reports` says of the state in which a call finds the
channel, and of its callbacks, when the call commits such a gap : the record was lost before
it, or is refused in a drain that it goes on to force a gap after. `run_unreported` says that
nothing else does : in a run of calls that are not so, no gap record covers a refused position.
-/

namespace L2Flow

variable {cfg : RecoveryConfig}

namespace SequenceRecovery

/-! ## Lost positions -/

/-- The record at the frontier was received, and dropped when its tick was refused. -/
def Lost (state : ChannelState cfg) (events : List Event) : Prop :=
  ∃ slot tick, Event.consumed slot tick false ∈ events ∧ slot.nativeSequence = state.expected

/-- No gap record covers a position refused before it. -/
def Unreported (events : List Event) : Prop :=
  ∀ before record accepted after, events = before ++ Event.gap record accepted :: after →
    ∀ slot tick, Event.consumed slot tick false ∈ before →
      ¬(record.firstMissing ≤ slot.nativeSequence ∧ slot.nativeSequence ≤ record.lastMissing)

theorem Unreported.append {events more : List Event} (h : Unreported events)
    (hmore : gapsOf more = []) : Unreported (events ++ more) := by
  intro before record accepted after heq slot tick hmem
  rcases List.append_eq_append_iff.1 heq with ⟨mid, hbefore, hmid⟩ | ⟨mid, hevents, hmid⟩
  · -- the gap record would be among the further events
    have : record ∈ gapsOf more := by
      rw [hmid, gapsOf_append]
      exact List.mem_append_right _ (by simp [gapsOf])
    rw [hmore] at this
    cases this
  · cases mid with
    | nil =>
      have : record ∈ gapsOf more := by
        rw [List.nil_append] at hmid
        rw [← hmid]
        simp [gapsOf]
      rw [hmore] at this
      cases this
    | cons event mid =>
      obtain ⟨rfl, -⟩ := List.cons.inj hmid
      exact h before record accepted mid hevents slot tick hmem

theorem Unreported.gap {events : List Event} (h : Unreported events) {record : ChannelGap}
    {accepted : Bool} (hclear : ∀ slot tick, Event.consumed slot tick false ∈ events →
      ¬(record.firstMissing ≤ slot.nativeSequence ∧ slot.nativeSequence ≤ record.lastMissing)) :
    Unreported (events ++ [.gap record accepted]) := by
  intro before record' accepted' after heq slot tick hmem
  rcases List.eq_nil_or_concat after with rfl | ⟨after, last, rfl⟩
  · obtain ⟨rfl, hgap⟩ := List.append_inj' heq rfl
    cases hgap
    exact hclear slot tick hmem
  · have hsplit : events ++ [.gap record accepted] =
        (before ++ Event.gap record' accepted' :: after) ++ [last] := by
      rw [heq]
      simp
    obtain ⟨hevents, -⟩ := List.append_inj' hsplit rfl
    exact h before record' accepted' after hevents slot tick hmem

/-- Refused positions are not above the frontier. -/
def RefusedBehind (c : Conf cfg) : Prop :=
  ∀ slot tick, Event.consumed slot tick false ∈ c.events →
    c.state.discovering = false ∧ slot.nativeSequence ≤ c.state.expected

theorem RefusedBehind.log {c c' : Conf cfg} (h : RefusedBehind c) {added : List Event}
    (hevents : c'.events = c.events ++ added)
    (hadded : ∀ slot tick, Event.consumed slot tick false ∉ added)
    (hdiscovering : c.state.discovering = false → c'.state.discovering = false)
    (hexpected : c.state.expected ≤ c'.state.expected) : RefusedBehind c' := by
  intro slot tick hmem
  rw [hevents, List.mem_append] at hmem
  rcases hmem with hmem | hmem
  · obtain ⟨hactive, hle⟩ := h slot tick hmem
    exact ⟨hdiscovering hactive, hle.trans hexpected⟩
  · exact absurd hmem (hadded slot tick)

/-- `EmitOne` at the frontier, refused or not. -/
theorem RefusedBehind.emitted {c c' : Conf cfg} (h : RefusedBehind c) {slot : PendingSlot}
    {tick : CanonicalTick} {accepted : Bool}
    (hevents : c'.events = c.events ++ [.consumed slot tick accepted])
    (active : c'.state.discovering = false) (position : slot.nativeSequence = c.state.expected)
    (hexpected : c.state.expected ≤ c'.state.expected) : RefusedBehind c' := by
  intro slot' tick' hmem
  rw [hevents, List.mem_append, List.mem_singleton] at hmem
  refine ⟨active, ?_⟩
  rcases hmem with hmem | hmem
  · exact (h slot' tick' hmem).2.trans hexpected
  · cases hmem
    exact position.le.trans hexpected

theorem step_refusedBehind {callbacks : Callbacks} {c c' : Conf cfg} (h : Step callbacks c c')
    (hc : RefusedBehind c) : RefusedBehind c' := by
  cases h with
  | drop => exact hc
  | retain => exact hc
  | duplicate => exact hc.log rfl (by simp) id (le_refl _)
  | divert => exact hc.log rfl (by simp) id (le_refl _)
  | freeze => exact hc.log rfl (by simp) id (le_refl _)
  | @release s hand evs slot accepted live active held position refused =>
    refine hc.emitted rfl active position ?_
    show s.expected ≤ if accepted then s.expected + 1 else s.expected
    split_ifs <;> omega
  | @pass s r evs accepted live active position clear refused =>
    refine hc.emitted rfl active position ?_
    show s.expected ≤ if accepted then s.expected + 1 else s.expected
    split_ifs <;> omega
  | skip live active ahead => exact hc.log rfl (by simp) id ahead.le
  | timers => exact hc
  | @finish s hand evs slot live discovering held least =>
    intro slot' tick hmem
    rw [List.mem_append] at hmem
    rcases hmem with hmem | hmem
    · cases (hc slot' tick hmem).1.symm.trans discovering
    · simp at hmem
  | fatal => exact hc.log rfl (by simp) id (le_refl _)

/-! ## The functions of a channel -/

/-- A state in the middle of a call, after the events `before` of earlier calls. -/
structure Guarded (before : List Event) (s : ChannelState cfg × Effects) : Prop where
  unreported : Unreported (before ++ s.2.events)
  refused : RefusedBehind (⟨s.1, none, before ++ s.2.events⟩ : Conf cfg)

variable {callbacks : Callbacks} {before : List Event}

theorem Guarded.refused_of_reaches {hand hand' : Option TickDecodeResult}
    {s r : ChannelState cfg × Effects} (hs : Guarded before s)
    (h : Reaches callbacks hand hand' s r) :
    RefusedBehind (⟨r.1, none, before ++ r.2.events⟩ : Conf cfg) := by
  have hkeep := Steps.keep (fun hs => step_refusedBehind hs) (h before)
    (show RefusedBehind ⟨s.1, hand, before ++ s.2.events⟩ from hs.refused)
  exact hkeep

/-- What commits no gap reports nothing. -/
theorem Guarded.quiet {hand hand' : Option TickDecodeResult} {s r : ChannelState cfg × Effects}
    (hs : Guarded before s) (h : Reaches callbacks hand hand' s r)
    (hgaps : gapsOf r.2.events = gapsOf s.2.events) : Guarded before r := by
  obtain ⟨more, hmore⟩ := h.exists_append
  have hnone : gapsOf more = [] := by
    rw [hmore, gapsOf_append] at hgaps
    exact List.append_right_eq_self.1 hgaps
  refine ⟨?_, hs.refused_of_reaches h⟩
  rw [hmore, ← List.append_assoc]
  exact hs.unreported.append hnone

/-- A gap committed at a position that is not lost covers no refused position. -/
theorem Guarded.skip {state : ChannelState cfg} {fx : Effects} (hs : Guarded before (state, fx))
    (hkept : ¬Lost state (before ++ fx.events)) {next now : ℕ} (ahead : state.expected < next) :
    Guarded before (skipTo state next, fx.log (.gap (skipRecord state next now) true)) := by
  constructor
  · rw [Effects.log_events, ← List.append_assoc]
    refine hs.unreported.gap fun slot tick hmem hin => ?_
    have hle := (hs.refused slot tick hmem).2
    have hfirst : state.expected ≤ slot.nativeSequence := hin.1
    exact hkept ⟨slot, tick, hmem, le_antisymm hle hfirst⟩
  · have hevents : before ++ (fx.log (.gap (skipRecord state next now) true)).events =
        before ++ fx.events ++ [.gap (skipRecord state next now) true] := by
      rw [Effects.log_events, List.append_assoc]
    exact hs.refused.log hevents (by simp) id ahead.le

theorem guarded_drain (now : ℕ) {s : ChannelState cfg × Effects} (hs : s.1.Active)
    (h : Guarded before s) : Guarded before (drainContiguous callbacks now s) :=
  h.quiet (drainContiguous_steps callbacks now s hs none).1 (gapsOf_drain callbacks now s)

theorem guarded_force (hgap : ∀ gap, callbacks.emitGap gap = true) (now : ℕ)
    {s : ChannelState cfg × Effects} (hs : s.1.Ready) (h : Guarded before s)
    (hkept : s.1.pendingCount ≠ 0 → ¬Lost s.1 (before ++ s.2.events)) :
    Guarded before (forceGapToMinimum callbacks now s) := by
  obtain ⟨state, fx⟩ := s
  by_cases hc : state.pendingCount = 0
  · refine h.quiet (forceGapToMinimum_steps hgap now fx hs none (by simp)).1 ?_
    simp only [forceGapToMinimum, if_pos hc]
  · obtain ⟨slot, held, hmin, least⟩ := exists_minimumPending hs.sound hc
    have hlt : state.expected < minimumPending state := hmin ▸ hs.settled slot held
    rw [forceGapToMinimum_eq hgap now fx hs hc]
    exact guarded_drain now (active_skipTo hs.toActive fun slot' h' => hmin ▸ least slot' h')
      (h.skip (hkept hc) hlt)

/-! ## Passes that force a gap -/

/-- A pass of `ProcessActive` with a record at `sequence` commits a gap. -/
def ForcesGap (state : ChannelState cfg) (sequence : ℕ) : Prop :=
  state.expected < sequence ∧ (Collides state sequence ∨
    (state.pending.occupant sequence = none ∧
      (cfg.maximumReorderSpan < sequence - state.expected ∨ cfg.gapWaitNs = 0)))

/-- A pass does not force a gap from a lost position. -/
def Keeps (before : List Event) (sequence : ℕ) (s : ChannelState cfg × Effects) : Prop :=
  Lost s.1 (before ++ s.2.events) → ¬ForcesGap s.1 sequence

theorem guarded_again (hgap : ∀ gap, callbacks.emitGap gap = true) {decoded : TickDecodeResult}
    {now : ℕ} {s s' : ChannelState cfg × Effects} (hs : s.1.Ready) (h : Guarded before s)
    (hkept : Keeps before decoded.nativeSequence s)
    (hb : activeBody callbacks decoded now s = .again s') : Guarded before s' := by
  obtain ⟨state, fx⟩ := s
  cases nextPass hgap hb with
  | below lt held other =>
    exact h.skip (fun hlost => hkept hlost ⟨lt, Or.inl ⟨_, held, other⟩⟩) lt
  | above lt held other =>
    exact guarded_force hgap now hs h fun _ hlost => hkept hlost ⟨lt, Or.inl ⟨_, held, other⟩⟩

theorem Guarded.retained {state : ChannelState cfg} {fx : Effects} {slot : PendingSlot}
    (h : Guarded before (state, fx)) : Guarded before (retain state slot, fx) :=
  ⟨h.unreported, h.refused⟩

theorem Guarded.opened (now : ℕ) {state : ChannelState cfg} {fx : Effects}
    (h : Guarded before (state, fx)) : Guarded before (openGap now state fx) := by
  unfold openGap
  split_ifs
  · exact ⟨h.unreported, h.refused⟩
  · exact h

theorem guarded_done (hgap : ∀ gap, callbacks.emitGap gap = true) {decoded : TickDecodeResult}
    (hr : InRange decoded.nativeSequence) {now : ℕ} {s r : ChannelState cfg × Effects}
    (hs : s.1.Ready) (h : Guarded before s) (hkept : Keeps before decoded.nativeSequence s)
    (hb : activeBody callbacks decoded now s = .done r) : Guarded before r := by
  obtain ⟨hsteps, -⟩ := activeBody_done hgap hr hs hb
  obtain ⟨state, fx⟩ := s
  cases lastPass hgap hb with
  | behind => exact h.quiet hsteps (gapsOf_divert _ _ _ _ _)
  | next => exact h.quiet hsteps (by rw [gapsOf_drain]; simp [gapsOf])
  | refused => exact h.quiet hsteps (by simp [gapsOf])
  | far lt free span =>
    -- the record is retained before the gap is forced, at the same frontier
    exact guarded_force hgap now (ready_retain hs hr free lt) h.retained fun _ hlost =>
      hkept hlost ⟨lt, Or.inr ⟨free, Or.inl span⟩⟩
  | unwaited lt free span wait =>
    obtain ⟨-, hopened⟩ : Reaches callbacks none none _ _ ∧ _ :=
      openGap_steps now fx (ready_retain hs hr free lt) none
    refine guarded_force hgap now hopened (h.retained.opened now) fun _ hlost => ?_
    obtain ⟨hstate, hevents⟩ := openGap_eq now (retain state (slotOf decoded)) fx
    rw [hstate, hevents] at hlost
    exact hkept hlost ⟨lt, Or.inr ⟨free, Or.inr wait⟩⟩
  | near => exact h.retained.opened now
  | duplicate => exact h.quiet hsteps (by simp [gapsOf])
  | freeze => exact h.quiet hsteps (gapsOf_freeze _ _ _ _ _ _)
  | divert => exact h.quiet hsteps (gapsOf_divert _ _ _ _ _)

/-- Between calls the events of the last call are events of earlier calls. -/
theorem Guarded.rest {state : ChannelState cfg} {fx : Effects} (h : Guarded before (state, fx)) :
    Guarded (before ++ fx.events) (state, {}) := by
  constructor
  · simpa using h.unreported
  · intro slot tick hmem
    rw [List.append_nil] at hmem
    exact h.refused slot tick hmem

/-- The retry loop, if none of its passes forces a gap from a lost position. -/
theorem guarded_processActive (hgap : ∀ gap, callbacks.emitGap gap = true)
    {decoded : TickDecodeResult} (hr : InRange decoded.nativeSequence) {now : ℕ}
    {s r : ChannelState cfg × Effects} (hs : s.1.Ready) (h : Guarded before s)
    (hkept : ∀ t, Loop.Passes (activeBody callbacks decoded now) s t →
      Keeps before decoded.nativeSequence t)
    (hrun : processActive callbacks decoded now s = some r) : Guarded before r := by
  refine Loop.iterate_keep
    (I := fun s : ChannelState cfg × Effects => s.1.Ready ∧ Guarded before s)
    (Q := Guarded before) ?_ ?_ ⟨hs, h⟩ hrun
  · rintro s s' hp ⟨hs, h⟩ hb
    exact ⟨(activeBody_again hgap hs hb).2.1, guarded_again hgap hs h (hkept s hp) hb⟩
  · rintro s r hp ⟨hs, h⟩ hb
    exact guarded_done hgap hr hs h (hkept s hp) hb

/-! ## What a drain comes to -/

/-- `emit_tick` refuses the record of `slot`, whatever marks of history and gaps it carries by
then. -/
def Refuses (callbacks : Callbacks) (slot : PendingSlot) : Prop :=
  slot.emit = true ∧ ∃ tick, body tick = body slot.tick ∧ callbacks.emitTick tick = false

/-- `emit_tick` takes the record of `slot`, or is not asked. -/
def Takes (callbacks : Callbacks) (slot : PendingSlot) : Prop :=
  slot.emit = true → ∃ tick, body tick = body slot.tick ∧ callbacks.emitTick tick = true

/-- Every position from `first` up to `last` is retained, by a record that `emit_tick` takes. -/
def Contiguous (callbacks : Callbacks) (state : ChannelState cfg) (first last : ℕ) : Prop :=
  ∀ n, first ≤ n → n < last → ∃ slot ∈ state.pending, slot.nativeSequence = n ∧ Takes callbacks slot

/-- A drain frees the slots from its frontier on, and stops at a position that is not retained, or
whose record is refused. -/
structure Drained (callbacks : Callbacks) (s r : ChannelState cfg × Effects) : Prop where
  subset : ∀ slot ∈ r.1.pending, slot ∈ s.1.pending
  le : s.1.expected ≤ r.1.expected
  passed : Contiguous callbacks s.1 s.1.expected r.1.expected
  refused : ∀ slot tick, Event.consumed slot tick false ∈ r.2.events →
    Event.consumed slot tick false ∈ s.2.events ∨
      slot ∈ s.1.pending ∧ slot.nativeSequence = r.1.expected ∧ Refuses callbacks slot
  kept : ∀ slot ∈ s.1.pending, r.1.expected < slot.nativeSequence → slot ∈ r.1.pending
  stopped : ∀ slot ∈ s.1.pending, slot.nativeSequence = r.1.expected →
    Refuses callbacks slot ∧ ∃ tick, Event.consumed slot tick false ∈ r.2.events

theorem drained_done {now : ℕ} {s r : ChannelState cfg × Effects} (hs : s.1.Active)
    (hb : drainBody callbacks now s = .done r) : Drained callbacks s r := by
  obtain ⟨state, fx⟩ := s
  have hnone : Contiguous callbacks state state.expected state.expected :=
    fun n hle hlt => absurd hlt (not_lt.2 hle)
  cases hf : find state state.expected with
  | none =>
    obtain ⟨gapOpenNs, fx', hfx, he⟩ := drainBody_none callbacks now fx hf
    obtain rfl := Pass.done.inj (he.symm.trans hb)
    exact ⟨fun slot held => held, le_rfl, hnone, fun slot tick hmem => Or.inl (hfx ▸ hmem),
      fun slot held _ => held,
      fun slot held hposition => absurd hposition (DirectMapped.find_eq_none_iff.1 hf slot held)⟩
  | some slot =>
    obtain ⟨held, position⟩ := DirectMapped.find_eq_some_iff.1 hf
    rcases drainBody_some callbacks now fx hf with he | ⟨hemit, hrefused, he⟩
    · cases he.symm.trans hb
    · obtain rfl := Pass.done.inj (he.symm.trans hb)
      have hrefuses : Refuses callbacks slot := ⟨hemit, _, body_outgoing state slot, hrefused⟩
      refine ⟨fun slot' h' => ((mem_release held position).1 h').1, le_rfl, hnone,
        fun slot' tick hmem => ?_, fun slot' h' hlt => (mem_release held position).2 ⟨h', ?_⟩,
        fun slot' h' hposition => ?_⟩
      · simp only [Effects.log_events, List.mem_append, List.mem_singleton, reduceCtorEq,
          or_false] at hmem
        refine hmem.imp_right fun heq => ?_
        cases heq
        exact ⟨held, position, hrefuses⟩
      · rintro rfl
        exact absurd position hlt.ne'
      · obtain rfl := DirectMapped.eq_of_mem held h' (position.trans hposition.symm)
        exact ⟨hrefuses, outgoing state slot, by simp⟩

theorem drained_again {now : ℕ} {s s' r : ChannelState cfg × Effects} (hs : s.1.Active)
    (hb : drainBody callbacks now s = .again s') (hrest : Drained callbacks s' r) :
    Drained callbacks s r := by
  obtain ⟨state, fx⟩ := s
  cases hf : find state state.expected with
  | none =>
    obtain ⟨gapOpenNs, fx', -, he⟩ := drainBody_none callbacks now fx hf
    cases he.symm.trans hb
  | some slot =>
    obtain ⟨held, position⟩ := DirectMapped.find_eq_some_iff.1 hf
    have htakes : Takes callbacks slot := by
      intro hemit
      refine ⟨_, body_outgoing state slot, ?_⟩
      by_contra hrefused
      have he := drainBody_refused now fx hf hemit (by simpa using hrefused)
      cases he.symm.trans hb
    rcases drainBody_some callbacks now fx hf with he | ⟨-, -, he⟩
    · obtain rfl := Pass.again.inj (he.symm.trans hb)
      have hback : ∀ slot' ∈ (release state slot true).pending, slot' ∈ state.pending :=
        fun slot' h' => ((mem_release held position).1 h').1
      have hle : state.expected + 1 ≤ r.1.expected := hrest.le
      have hforth : ∀ slot' ∈ state.pending, r.1.expected ≤ slot'.nativeSequence →
          slot' ∈ (release state slot true).pending := by
        intro slot' h' hge
        refine (mem_release held position).2 ⟨h', ?_⟩
        rintro rfl
        omega
      refine ⟨fun slot' h' => hback slot' (hrest.subset slot' h'), by simp only; omega, ?_, ?_,
        fun slot' h' hlt => hrest.kept slot' (hforth slot' h' hlt.le) hlt,
        fun slot' h' hposition => hrest.stopped slot' (hforth slot' h' hposition.ge) hposition⟩
      · intro n hlow hhigh
        rcases Nat.eq_or_lt_of_le hlow with rfl | hlow
        · exact ⟨slot, held, position, htakes⟩
        · obtain ⟨slot', h', hn, htaken⟩ := hrest.passed n hlow hhigh
          exact ⟨slot', hback slot' h', hn, htaken⟩
      · intro slot' tick hmem
        rcases hrest.refused slot' tick hmem with hmem | ⟨h', hposition, hrefuses⟩
        · simp only [Effects.log_events, List.mem_append, List.mem_singleton, Event.consumed.injEq,
            Bool.false_eq_true, and_false, or_false] at hmem
          exact Or.inl hmem
        · exact Or.inr ⟨hback slot' h', hposition, hrefuses⟩
    · cases he.symm.trans hb

theorem drained (now : ℕ) {s : ChannelState cfg × Effects} (hs : s.1.Active) :
    Drained callbacks s (drainContiguous callbacks now s) :=
  Loop.run_rel (I := fun s => s.1.Active) (R := Drained callbacks)
    (fun _ _ hs hb => (drainBody_steps hs hb none).2) (fun _ _ hs hb => drained_done hs hb)
    (fun _ _ _ hs hb hrest => drained_again hs hb hrest) hs

/-! ## The passes of a call -/

/-- A pass of a call that began in `start` and where `holder` is the position that holds the slot
of the record of the call : a record at the frontier that the call has refused was retained, and so
was, and taken, all that the drain met after the holder. -/
structure Passed (callbacks : Callbacks) (start : ChannelState cfg) (holder : ℕ)
    (t : ChannelState cfg × Effects) : Prop where
  ready : t.1.Ready
  subset : ∀ slot ∈ t.1.pending, slot ∈ start.pending
  kept : ∀ slot ∈ start.pending, t.1.expected < slot.nativeSequence → slot ∈ t.1.pending
  behind : ∀ slot tick, Event.consumed slot tick false ∈ t.2.events →
    slot.nativeSequence ≤ t.1.expected
  lost : ∀ slot tick, Event.consumed slot tick false ∈ t.2.events →
    slot.nativeSequence = t.1.expected →
      slot ∈ start.pending ∧ Refuses callbacks slot ∧
        Contiguous callbacks start holder slot.nativeSequence

theorem Contiguous.mono {state start : ChannelState cfg} {first first' last : ℕ}
    (h : Contiguous callbacks state first last)
    (hsubset : ∀ slot ∈ state.pending, slot ∈ start.pending) (hle : first ≤ first') :
    Contiguous callbacks start first' last := by
  intro n hlow hhigh
  obtain ⟨slot, held, hn, htaken⟩ := h n (hle.trans hlow) hhigh
  exact ⟨slot, hsubset slot held, hn, htaken⟩

/-- A drain from a frontier above all that was refused, and not above the holder. -/
theorem passed_drain (now : ℕ) {start : ChannelState cfg} {holder : ℕ}
    {s : ChannelState cfg × Effects} (hs : s.1.Active)
    (hsubset : ∀ slot ∈ s.1.pending, slot ∈ start.pending)
    (hkept : ∀ slot ∈ start.pending, s.1.expected ≤ slot.nativeSequence → slot ∈ s.1.pending)
    (hbelow : ∀ slot tick, Event.consumed slot tick false ∈ s.2.events →
      slot.nativeSequence < s.1.expected) (hholder : s.1.expected ≤ holder) :
    Passed callbacks start holder (drainContiguous callbacks now s) := by
  have hdrained : Drained callbacks s (drainContiguous callbacks now s) := drained now hs
  refine ⟨(drainContiguous_steps callbacks now s hs none).2,
    fun slot h' => hsubset slot (hdrained.subset slot h'),
    fun slot h' hlt => hdrained.kept slot (hkept slot h' (hdrained.le.trans hlt.le)) hlt,
    fun slot tick hmem => ?_, fun slot tick hmem hposition => ?_⟩
  · rcases hdrained.refused slot tick hmem with hmem | ⟨-, hposition, -⟩
    · exact (hbelow slot tick hmem).le.trans hdrained.le
    · exact hposition.le
  · rcases hdrained.refused slot tick hmem with hmem | ⟨held, -, hrefuses⟩
    · have hlt := hbelow slot tick hmem
      have hle := hdrained.le
      omega
    · refine ⟨hsubset slot held, hrefuses, ?_⟩
      rw [hposition]
      exact hdrained.passed.mono hsubset hholder

theorem passed_force (hgap : ∀ gap, callbacks.emitGap gap = true) (now : ℕ)
    {start : ChannelState cfg} {holder : ℕ} {t : ChannelState cfg × Effects}
    (ht : Passed callbacks start holder t) (hc : t.1.pendingCount ≠ 0)
    (hholder : minimumPending t.1 ≤ holder) :
    Passed callbacks start holder (forceGapToMinimum callbacks now t) := by
  obtain ⟨state, fx⟩ := t
  obtain ⟨slot, held, hmin, -⟩ := exists_minimumPending ht.ready.sound hc
  have hlt : state.expected < minimumPending state := hmin ▸ ht.ready.settled slot held
  rw [forceGapToMinimum_eq hgap now fx ht.ready hc]
  refine passed_drain now (active_skipTo_minimum ht.ready.toActive hc) ht.subset
    (fun slot h' hle => ht.kept slot h' (hlt.trans_le hle)) ?_ hholder
  intro slot' tick hmem
  simp only [Effects.log_events, List.mem_append, List.mem_singleton, reduceCtorEq,
    or_false] at hmem
  exact lt_of_le_of_lt (ht.behind slot' tick hmem) hlt

/-- A forced gap moves the frontier. -/
theorem expected_lt_force (hgap : ∀ gap, callbacks.emitGap gap = true) (now : ℕ)
    {state : ChannelState cfg} (fx : Effects) (hs : state.Ready) (hc : state.pendingCount ≠ 0) :
    state.expected < (forceGapToMinimum callbacks now (state, fx)).1.expected := by
  obtain ⟨slot, held, hmin, -⟩ := exists_minimumPending hs.sound hc
  have hlt : state.expected < minimumPending state := hmin ▸ hs.settled slot held
  obtain ⟨hsteps, -⟩ := drainContiguous_steps callbacks now
    (skipTo state (minimumPending state),
      fx.log (.gap (skipRecord state (minimumPending state) now) true))
    (active_skipTo_minimum hs.toActive hc) none
  rw [forceGapToMinimum_eq hgap now fx hs hc]
  exact lt_of_lt_of_le hlt (hsteps.advances hs.active).2

theorem passed_skip (now : ℕ) {start : ChannelState cfg} {holder : ℕ} {state : ChannelState cfg}
    {fx : Effects} (ht : Passed callbacks start holder (state, fx)) {next : ℕ}
    (ahead : state.expected < next) (least : ∀ slot ∈ state.pending, next < slot.nativeSequence) :
    Passed callbacks start holder
      (skipTo state next, fx.log (.gap (skipRecord state next now) true)) := by
  have hbelow : ∀ slot tick, Event.consumed slot tick false ∈
      (fx.log (.gap (skipRecord state next now) true)).events → slot.nativeSequence < next := by
    intro slot tick hmem
    simp only [Effects.log_events, List.mem_append, List.mem_singleton, reduceCtorEq,
      or_false] at hmem
    exact lt_of_le_of_lt (ht.behind slot tick hmem) ahead
  refine ⟨⟨active_skipTo ht.ready.toActive fun slot held => (least slot held).le, least⟩,
    ht.subset, fun slot h' hlt => ht.kept slot h' (ahead.trans hlt),
    fun slot tick hmem => (hbelow slot tick hmem).le, fun slot tick hmem hposition => ?_⟩
  exact absurd hposition (hbelow slot tick hmem).ne

/-- Only the holder of a slot in `start` can hold it later. -/
theorem Passed.eq_holder {start : ChannelState cfg} {sequence : ℕ} {holder slot : PendingSlot}
    (held : start.pending.occupant sequence = some holder) {position : ℕ}
    {t : ChannelState cfg × Effects} (ht : Passed callbacks start position t)
    (ho : t.1.pending.occupant sequence = some slot) : slot = holder := by
  obtain ⟨hmem, hhome⟩ := DirectMapped.mem_of_occupant ho
  obtain ⟨hmem', hhome'⟩ := DirectMapped.mem_of_occupant held
  exact DirectMapped.eq_of_home (ht.subset slot hmem) hmem' (hhome.trans hhome'.symm)

/-- The passes of `ProcessActive`, with a record whose slot `holder` holds. -/
theorem passed_processActive (hgap : ∀ gap, callbacks.emitGap gap = true)
    {decoded : TickDecodeResult} {now : ℕ} {start : ChannelState cfg} {holder : PendingSlot}
    (held : start.pending.occupant decoded.nativeSequence = some holder)
    {s : ChannelState cfg × Effects} (hs : Passed callbacks start holder.nativeSequence s)
    {t : ChannelState cfg × Effects} (h : Loop.Passes (activeBody callbacks decoded now) s t) :
    Passed callbacks start holder.nativeSequence t ∧ (t = s ∨ s.1.expected < t.1.expected) := by
  induction h with
  | refl => exact ⟨hs, Or.inl rfl⟩
  | @tail t t' _ hb ih =>
    obtain ⟨ht, hfrontier⟩ := ih
    have hle : s.1.expected ≤ t.1.expected := by
      rcases hfrontier with rfl | hlt
      · exact le_rfl
      · exact hlt.le
    obtain ⟨state, fx⟩ := t
    cases nextPass hgap hb with
    | below lt _ _ least =>
      exact ⟨passed_skip now ht lt (below_of_minimum ht.ready.sound least),
        Or.inr (lt_of_le_of_lt hle lt)⟩
    | @above slot lt ho other nonzero least =>
      obtain rfl := ht.eq_holder held ho
      have hmin : minimumPending state ≤ slot.nativeSequence :=
        DirectMapped.minimum_le (DirectMapped.mem_of_occupant ho).1 uint64Max
      refine ⟨passed_force hgap now ht nonzero hmin, Or.inr (lt_of_le_of_lt hle ?_)⟩
      exact expected_lt_force hgap now fx ht.ready nonzero

/-- The passes of the loop of `Flush`. -/
theorem passed_flush (hgap : ∀ gap, callbacks.emitGap gap = true) {now : ℕ}
    {start : ChannelState cfg} {s : ChannelState cfg × Effects}
    (hs : Passed callbacks start uint64Max s) {t : ChannelState cfg × Effects}
    (h : Loop.Passes (flushBody callbacks now) s t) :
    Passed callbacks start uint64Max t ∧ (t = s ∨ s.1.expected < t.1.expected) := by
  induction h with
  | refl => exact ⟨hs, Or.inl rfl⟩
  | @tail t t' _ hb ih =>
    obtain ⟨ht, hfrontier⟩ := ih
    have hle : s.1.expected ≤ t.1.expected := by
      rcases hfrontier with rfl | hlt
      · exact le_rfl
      · exact hlt.le
    obtain ⟨state, fx⟩ := t
    rw [flushBody] at hb
    split_ifs at hb with hc
    obtain rfl := Pass.again.inj hb
    exact ⟨passed_force hgap now ht hc (DirectMapped.minimum_le_top _ _),
      Or.inr (lt_of_le_of_lt hle (expected_lt_force hgap now fx ht.ready hc))⟩

/-! ## Calls -/

/-- The state in which the loop of a call starts. -/
def loopStart (callbacks : Callbacks) (now : ℕ) (state : ChannelState cfg) :
    ChannelState cfg × Effects :=
  if state.discovering then finishDiscovery callbacks now (state, {}) else (state, {})

/-- A call reports a refused record as missing. It forces a gap where the record at the frontier was
lost before it; or it refuses a retained record itself, and goes on to force a gap from there :
`Process`, when its record is above and finds its slot held, by a record above or by one that the
drain had met in its way to the refused one, and in that case is beyond the span from there or does
not wait; `Flush`, when there is a record above. -/
def Reports (callbacks : Callbacks) (state : ChannelState cfg) (before : List Event) :
    ChannelCall → Prop
  | .process decoded _ =>
    state.frozen = false ∧
      (state.discovering = false ∧ Lost state before ∧ ForcesGap state decoded.nativeSequence ∨
        ∃ holder, state.pending.occupant decoded.nativeSequence = some holder ∧
          holder.nativeSequence ≠ decoded.nativeSequence ∧
          ∃ slot ∈ state.pending, Refuses callbacks slot ∧
            slot.nativeSequence < decoded.nativeSequence ∧
            (slot.nativeSequence < holder.nativeSequence ∨
              Contiguous callbacks state holder.nativeSequence slot.nativeSequence ∧
                (cfg.maximumReorderSpan < decoded.nativeSequence - slot.nativeSequence ∨
                  cfg.gapWaitNs = 0)))
  | .poll now =>
    state.frozen = false ∧ state.discovering = false ∧ Lost state before ∧
      state.pendingCount ≠ 0 ∧ state.gapOpenNs ≠ 0 ∧
        deadlineReached now state.gapOpenNs cfg.gapWaitNs = true
  | .flush _ =>
    state.frozen = false ∧
      (state.discovering = false ∧ Lost state before ∧ state.pendingCount ≠ 0 ∨
        ∃ slot ∈ state.pending, Refuses callbacks slot ∧
          ∃ slot' ∈ state.pending, slot.nativeSequence < slot'.nativeSequence)
  | .freezeDecodeFailure _ _ => False

theorem guarded_finishDiscovery (now : ℕ) {state : ChannelState cfg} {fx : Effects}
    (hs : state.Sound) (live : state.frozen = false) (hd : state.discovering = true)
    (hc : state.pendingCount ≠ 0) (h : Guarded before (state, fx)) :
    Guarded before (finishDiscovery callbacks now (state, fx)) :=
  h.quiet (finishDiscovery_steps callbacks now fx hs live hd hc none).1
    (gapsOf_finishDiscovery callbacks now state fx)

/-- Where the loop of a call starts, as a pass of it. -/
theorem passed_loopStart (now : ℕ) {state : ChannelState cfg} (hs : state.Resting)
    (live : state.frozen = false) {holder : ℕ}
    (hholder : state.discovering = true →
      state.pendingCount ≠ 0 ∧ minimumPending state ≤ holder) :
    Passed callbacks state holder (loopStart callbacks now state) := by
  unfold loopStart
  split_ifs with hd
  · obtain ⟨hc, hmin⟩ := hholder hd
    rw [finishDiscovery_eq callbacks now {} hd hc]
    exact passed_drain now (active_origin hs.sound live hc) (fun _ held => held)
      (fun _ held _ => held) (by simp) hmin
  · exact ⟨hs.ready live (by simpa using hd), fun _ held => held, fun _ held _ => held, by simp,
      by simp⟩

/-- A record that the call found lost at the frontier is there in the first pass only. -/
theorem lost_of_loopStart {now : ℕ} {state : ChannelState cfg} (h : Guarded before (state, {}))
    {t : ChannelState cfg × Effects}
    (hfrontier : t = loopStart callbacks now state ∨
      (loopStart callbacks now state).1.expected < t.1.expected)
    (hlost : Lost t.1 before) :
    state.discovering = false ∧ t = (state, {}) ∧ Lost state before := by
  obtain ⟨slot, tick, hmem, hposition⟩ := hlost
  obtain ⟨hactive, hle⟩ := h.refused slot tick (List.mem_append_left _ hmem)
  have hle : slot.nativeSequence ≤ state.expected := hle
  have hactive : state.discovering = false := hactive
  rw [loopStart, hactive, if_neg Bool.false_ne_true] at hfrontier
  rcases hfrontier with rfl | hlt
  · exact ⟨hactive, rfl, slot, tick, hmem, hposition⟩
  · have hlt : state.expected < t.1.expected := hlt
    omega

/-- A lost record at the frontier was lost before the call, or in it. -/
theorem Lost.cases {state : ChannelState cfg} {events : List Event}
    (h : Lost state (before ++ events)) : Lost state before ∨ Lost state events := by
  obtain ⟨slot, tick, hmem, hposition⟩ := h
  exact (List.mem_append.1 hmem).imp (fun hmem => ⟨slot, tick, hmem, hposition⟩)
    fun hmem => ⟨slot, tick, hmem, hposition⟩

/-- If `Process` does not report a refused record, no pass of its loop forces a gap from a lost
position. -/
theorem keeps_of_not_reports (hgap : ∀ gap, callbacks.emitGap gap = true) {decoded : DecodedTick}
    {now : ℕ} {state : ChannelState cfg} (hs : state.Resting) (live : state.frozen = false)
    (h : Guarded before (state, {}))
    (hcollides : state.discovering = true → Collides state decoded.nativeSequence)
    (hnot : ¬Reports callbacks state before (.process decoded now))
    {t : ChannelState cfg × Effects}
    (ht : Loop.Passes (activeBody callbacks decoded.toTickDecodeResult now)
      (loopStart callbacks now state) t) :
    Keeps before decoded.nativeSequence t := by
  intro hlost hforces
  by_cases hc : Collides state decoded.nativeSequence
  · obtain ⟨holder, ho, hne⟩ := hc
    have hmem := (DirectMapped.mem_of_occupant ho).1
    obtain ⟨hpassed, hfrontier⟩ := passed_processActive hgap ho
      (passed_loopStart now hs live fun _ =>
        ⟨pendingCount_ne_zero hs.sound hmem, DirectMapped.minimum_le hmem uint64Max⟩) ht
    rcases hlost.cases with hbefore | ⟨slot, tick, hin, hposition⟩
    · obtain ⟨hactive, rfl, hlost'⟩ := lost_of_loopStart h hfrontier hbefore
      exact hnot ⟨live, Or.inl ⟨hactive, hlost', hforces⟩⟩
    · obtain ⟨held, hrefuses, hcontiguous⟩ := hpassed.lost slot tick hin hposition
      refine hnot ⟨live, Or.inr ⟨holder, ho, hne, slot, held, hrefuses, ?_, ?_⟩⟩
      · rw [hposition]
        exact hforces.1
      rcases Nat.lt_or_ge slot.nativeSequence holder.nativeSequence with hlt | hge
      · exact Or.inl hlt
      refine Or.inr ⟨hcontiguous, ?_⟩
      rcases hforces.2 with ⟨slot', ho', -⟩ | ⟨-, hspan⟩
      · -- the holder would still be retained above the frontier
        obtain rfl := hpassed.eq_holder ho ho'
        have hlt := hpassed.ready.settled slot' (DirectMapped.mem_of_occupant ho').1
        omega
      · rw [hposition]
        exact hspan
  · have hactive : state.discovering = false := by
      by_contra hd
      exact hc (hcollides (by simpa using hd))
    rw [loopStart, hactive, if_neg Bool.false_ne_true] at ht
    rcases Relation.ReflTransGen.cases_head ht with rfl | ⟨s', hb, -⟩
    · rw [List.append_nil] at hlost
      exact hnot ⟨live, Or.inl ⟨hactive, hlost, hforces⟩⟩
    · cases nextPass hgap hb with
      | below _ held other => exact hc ⟨_, held, other⟩
      | above _ held other => exact hc ⟨_, held, other⟩

/-- If `Flush` does not, no pass of its loop forces a gap from a lost position. -/
theorem empty_of_not_reports (hgap : ∀ gap, callbacks.emitGap gap = true) {now : ℕ}
    {state : ChannelState cfg} (hs : state.Idle) (live : state.frozen = false)
    (h : Guarded before (state, {})) (hnot : ¬Reports callbacks state before (.flush now))
    {t : ChannelState cfg × Effects}
    (ht : Loop.Passes (flushBody callbacks now) (loopStart callbacks now state) t)
    (hlost : Lost t.1 (before ++ t.2.events)) : t.1.pendingCount = 0 := by
  by_contra hc
  obtain ⟨hpassed, hfrontier⟩ := passed_flush hgap
    (passed_loopStart now hs.toResting live fun hd =>
      ⟨hs.discovering_seen hd, DirectMapped.minimum_le_top _ _⟩) ht
  rcases hlost.cases with hbefore | ⟨slot, tick, hin, hposition⟩
  · obtain ⟨hactive, rfl, hlost'⟩ := lost_of_loopStart h hfrontier hbefore
    exact hnot ⟨live, Or.inl ⟨hactive, hlost', hc⟩⟩
  · obtain ⟨held, hrefuses, -⟩ := hpassed.lost slot tick hin hposition
    obtain ⟨slot', held', -⟩ := exists_minimumPending hpassed.ready.sound hc
    refine hnot ⟨live, Or.inr ⟨slot, held, hrefuses, slot', hpassed.subset slot' held', ?_⟩⟩
    rw [hposition]
    exact hpassed.ready.settled slot' held'

theorem guarded_process (hgap : ∀ gap, callbacks.emitGap gap = true) (decoded : DecodedTick)
    (now : ℕ) {state : ChannelState cfg} {r : ChannelState cfg × Effects} (hs : state.Resting)
    (h : Guarded before (state, {}))
    (hnot : ¬Reports callbacks state before (.process decoded now))
    (hrun : processChannel callbacks decoded.toTickDecodeResult now state = some r) :
    Guarded before r := by
  have hr := DecodedTick.inRange decoded
  obtain ⟨hsteps, -⟩ := processChannel_steps hgap hr hs hrun
  obtain ⟨firstSeenNs, -, hevents⟩ :=
    openHold_eq now (retain state (slotOf decoded.toTickDecodeResult))
  have hkept := fun live hcollides t => @keeps_of_not_reports cfg callbacks before hgap decoded now
    state hs live h hcollides hnot t
  cases processTurn hs hrun with
  | frozen => exact h
  | active live active loop =>
    have hkept := hkept live fun hd => by rw [active] at hd; cases hd
    rw [loopStart, active, if_neg Bool.false_ne_true] at hkept
    exact guarded_processActive hgap hr (hs.ready live active) h hkept loop
  | expired =>
    refine h.quiet hsteps ?_
    rw [← Prod.mk.eta (p := openHold now (retain state (slotOf decoded.toTickDecodeResult))),
      gapsOf_finishDiscovery, hevents]
  | holding =>
    refine h.quiet hsteps ?_
    rw [hevents]
  | collision live discovering held other loop =>
    have hkept := hkept live fun _ => ⟨_, held, other⟩
    have hc := pendingCount_ne_zero hs.sound (DirectMapped.mem_of_occupant held).1
    rw [loopStart, discovering, if_pos rfl] at hkept
    obtain ⟨-, hready⟩ :=
      finishDiscovery_steps callbacks now {} hs.sound live discovering hc none
    exact guarded_processActive hgap hr hready
      (guarded_finishDiscovery now hs.sound live discovering hc h) hkept loop
  | duplicate => exact h.quiet hsteps rfl
  | divert => exact h.quiet hsteps (gapsOf_divert _ _ _ _ _)

theorem guarded_poll (hgap : ∀ gap, callbacks.emitGap gap = true) (now : ℕ)
    {state : ChannelState cfg} (hs : state.Idle) (h : Guarded before (state, {}))
    (hnot : ¬Reports callbacks state before (.poll now)) :
    Guarded before (pollChannel callbacks now state) := by
  generalize hturn : pollChannel callbacks now state = r
  cases pollTurn hturn with
  | skipped => exact h
  | ended live nonempty discovering =>
    exact guarded_finishDiscovery now hs.sound live discovering nonempty h
  | holding => exact ⟨h.unreported, h.refused⟩
  | forced live nonempty active opened reached =>
    refine guarded_force hgap now (hs.ready live active) h fun hc hlost => ?_
    rw [List.append_nil] at hlost
    exact hnot ⟨live, active, hlost, hc, opened, reached⟩
  | waiting => exact ⟨h.unreported, h.refused⟩
  | unopened => exact h

theorem guarded_flush (hgap : ∀ gap, callbacks.emitGap gap = true) (now : ℕ)
    {state : ChannelState cfg} {r : ChannelState cfg × Effects} (hs : state.Idle)
    (h : Guarded before (state, {})) (hnot : ¬Reports callbacks state before (.flush now))
    (hrun : flushChannel callbacks now state = some r) : Guarded before r := by
  cases hf : state.frozen with
  | true =>
    obtain rfl := flushChannel_frozen hf hrun
    exact h
  | false =>
    exact (flushChannel_keep hgap hs hf hrun (I := Guarded before) (fun _ => h)
      (fun hd => guarded_finishDiscovery now hs.sound hf hd (hs.discovering_seen hd) h)
      fun s hp hready hc hguarded => guarded_force hgap now hready hguarded fun _ hlost =>
        hc (empty_of_not_reports hgap hs hf h hnot hp hlost)).1

theorem guarded_channelStep (hgap : ∀ gap, callbacks.emitGap gap = true) {key : ChannelKey}
    {channel channel' : Option (ChannelState cfg)} {op : ChannelCall} {fx : Effects}
    (hp : Placed key channel) (h : Guarded before (stateD key channel, {}))
    (hnot : ¬Reports callbacks (stateD key channel) before op)
    (hstep : channelStep callbacks key channel op = some (channel', fx)) :
    Guarded before (stateD key channel', fx) := by
  obtain ⟨hsteps, -⟩ := channelStep_steps hgap hp hstep
  cases channelTurn hstep with
  | process turn => exact guarded_process hgap _ _ hp.resting.1 h hnot turn
  | absent => exact h
  | poll present =>
    subst present
    exact guarded_poll hgap _ (hp _ rfl).1 h hnot
  | flush present turn =>
    subst present
    exact guarded_flush hgap _ (hp _ rfl).1 h hnot turn
  | ignored => exact h
  | freeze => exact h.quiet hsteps (gapsOf_freeze _ _ _ _ _ _)

/-! ## Calls that report -/

/-- A gap record covers a position refused before it. -/
theorem reported_iff {events : List Event} :
    ¬Unreported events ↔ ∃ before record accepted after,
      events = before ++ Event.gap record accepted :: after ∧
        ∃ slot tick, Event.consumed slot tick false ∈ before ∧
          record.firstMissing ≤ slot.nativeSequence ∧ slot.nativeSequence ≤ record.lastMissing := by
  simp only [Unreported, not_forall, not_not, exists_prop]

theorem reported_append {events : List Event} (h : ¬Unreported events) (more : List Event) :
    ¬Unreported (events ++ more) := by
  obtain ⟨before, record, accepted, after, rfl, hcovers⟩ := reported_iff.1 h
  exact reported_iff.2 ⟨before, record, accepted, after ++ more, by simp, hcovers⟩

theorem reported_of_reaches {hand hand' : Option TickDecodeResult}
    {s r : ChannelState cfg × Effects} (h : ¬Unreported (before ++ s.2.events))
    (hreach : Reaches callbacks hand hand' s r) : ¬Unreported (before ++ r.2.events) := by
  obtain ⟨more, hmore⟩ := hreach.exists_append
  rw [hmore, ← List.append_assoc]
  exact reported_append h more

/-- A gap committed from a lost position covers it. -/
theorem reported_skip {state : ChannelState cfg} {fx : Effects}
    (hlost : Lost state (before ++ fx.events)) {next now : ℕ} (ahead : state.expected < next) :
    ¬Unreported (before ++ (fx.log (.gap (skipRecord state next now) true)).events) := by
  obtain ⟨slot, tick, hmem, hposition⟩ := hlost
  refine reported_iff.2 ⟨before ++ fx.events, skipRecord state next now, true, [], by simp, slot,
    tick, hmem, hposition.ge, ?_⟩
  show slot.nativeSequence ≤ next - 1
  omega

theorem reported_force (hgap : ∀ gap, callbacks.emitGap gap = true) (now : ℕ)
    {s : ChannelState cfg × Effects} (hs : s.1.Ready) (hc : s.1.pendingCount ≠ 0)
    (hlost : Lost s.1 (before ++ s.2.events)) :
    ¬Unreported (before ++ (forceGapToMinimum callbacks now s).2.events) := by
  obtain ⟨state, fx⟩ := s
  obtain ⟨slot, held, hmin, -⟩ := exists_minimumPending hs.sound hc
  have hlt : state.expected < minimumPending state := hmin ▸ hs.settled slot held
  rw [forceGapToMinimum_eq hgap now fx hs hc]
  exact reported_of_reaches (reported_skip hlost hlt)
    (drainContiguous_steps callbacks now _ (active_skipTo_minimum hs.toActive hc) none).1

theorem reported_again (hgap : ∀ gap, callbacks.emitGap gap = true) {decoded : TickDecodeResult}
    {now : ℕ} {s s' : ChannelState cfg × Effects} (hs : s.1.Ready)
    (hlost : Lost s.1 (before ++ s.2.events))
    (hb : activeBody callbacks decoded now s = .again s') :
    ¬Unreported (before ++ s'.2.events) := by
  obtain ⟨state, fx⟩ := s
  cases nextPass hgap hb with
  | below lt => exact reported_skip hlost lt
  | above _ _ _ nonzero => exact reported_force hgap now hs nonzero hlost

theorem reported_done (hgap : ∀ gap, callbacks.emitGap gap = true) {decoded : TickDecodeResult}
    (hr : InRange decoded.nativeSequence) {now : ℕ} {s r : ChannelState cfg × Effects}
    (hs : s.1.Ready) (hlost : Lost s.1 (before ++ s.2.events))
    (hforces : ForcesGap s.1 decoded.nativeSequence)
    (hb : activeBody callbacks decoded now s = .done r) : ¬Unreported (before ++ r.2.events) := by
  obtain ⟨state, fx⟩ := s
  obtain ⟨hlt, hforces⟩ := hforces
  have hoccupied : ∀ slot ∈ state.pending, slot.nativeSequence = decoded.nativeSequence →
      ¬(Collides state decoded.nativeSequence ∨
        (state.pending.occupant decoded.nativeSequence = none ∧
          (cfg.maximumReorderSpan < decoded.nativeSequence - state.expected ∨
            cfg.gapWaitNs = 0))) := by
    rintro slot held position (hcollides | ⟨hfree, -⟩)
    · exact not_collides_of_held held position hcollides
    · rw [← position, DirectMapped.mem_def.1 held] at hfree
      cases hfree
  cases lastPass hgap hb with
  | behind lt => exact absurd lt hlt.not_gt
  | next position => exact absurd position hlt.ne'
  | refused position => exact absurd position hlt.ne'
  | far lt free =>
    exact reported_force hgap now (ready_retain hs hr free lt) (Nat.succ_ne_zero _) hlost
  | unwaited lt free =>
    obtain ⟨-, hopened⟩ : Reaches callbacks none none _ _ ∧ _ :=
      openGap_steps now fx (ready_retain hs hr free lt) none
    obtain ⟨hstate, hevents⟩ := openGap_eq now (retain state (slotOf decoded)) fx
    refine reported_force hgap now hopened ?_ ?_
    · rw [hstate]
      exact Nat.succ_ne_zero _
    · rw [hstate, hevents]
      exact hlost
  | near lt free span wait =>
    obtain ⟨slot, ho, -⟩ | ⟨-, hspan | hzero⟩ := hforces
    · rw [free] at ho
      cases ho
    · exact absurd hspan (not_lt.2 span)
    · exact absurd hzero wait
  | duplicate _ held position => exact absurd hforces (hoccupied _ held position)
  | freeze _ held position => exact absurd hforces (hoccupied _ held position)
  | divert _ held position => exact absurd hforces (hoccupied _ held position)

/-- The answers of `emit_tick` do not depend on the marks of history and gaps. -/
def Steady (callbacks : Callbacks) : Prop :=
  ∀ tick tick', body tick = body tick' → callbacks.emitTick tick = callbacks.emitTick tick'

theorem Steady.not_takes (hsteady : Steady callbacks) {slot : PendingSlot}
    (hrefuses : Refuses callbacks slot) : ¬Takes callbacks slot := by
  obtain ⟨hemit, tick, hbody, hrefused⟩ := hrefuses
  intro htakes
  obtain ⟨tick', hbody', htaken⟩ := htakes hemit
  rw [hsteady tick tick' (hbody.trans hbody'.symm), htaken] at hrefused
  cases hrefused

/-- `Process` will come to the refused record in `slot`, and go on to force a gap from there. -/
structure Heading (callbacks : Callbacks) (start : ChannelState cfg) (sequence : ℕ)
    (holder slot : PendingSlot) : Prop where
  holds : start.pending.occupant sequence = some holder
  other : holder.nativeSequence ≠ sequence
  held : slot ∈ start.pending
  refuses : Refuses callbacks slot
  below : slot.nativeSequence < sequence
  goesOn : slot.nativeSequence < holder.nativeSequence ∨
    Contiguous callbacks start holder.nativeSequence slot.nativeSequence ∧
      (cfg.maximumReorderSpan < sequence - slot.nativeSequence ∨ cfg.gapWaitNs = 0)

/-- A drain that starts below the refused record and the holder stops there, with a gap to be forced
next, or stops before both. -/
theorem Heading.drain (hsteady : Steady callbacks) {start : ChannelState cfg} {sequence : ℕ}
    {holder slot : PendingSlot} (h : Heading callbacks start sequence holder slot) (now : ℕ)
    {s : ChannelState cfg × Effects} (hs : s.1.Active)
    (hsubset : ∀ slot ∈ s.1.pending, slot ∈ start.pending)
    (hkept : ∀ slot ∈ start.pending, s.1.expected ≤ slot.nativeSequence → slot ∈ s.1.pending)
    (hslot : s.1.expected ≤ slot.nativeSequence)
    (hpassed : Passed callbacks start holder.nativeSequence
      (drainContiguous callbacks now s)) :
    Lost (drainContiguous callbacks now s).1 (drainContiguous callbacks now s).2.events ∧
        ForcesGap (drainContiguous callbacks now s).1 sequence ∨
      (drainContiguous callbacks now s).1.expected < slot.nativeSequence ∧
        holder ∈ (drainContiguous callbacks now s).1.pending := by
  have hdrained : Drained callbacks s (drainContiguous callbacks now s) := drained now hs
  generalize drainContiguous callbacks now s = r at hdrained hpassed ⊢
  obtain ⟨hmem, hhome⟩ := DirectMapped.mem_of_occupant h.holds
  have hle : r.1.expected ≤ slot.nativeSequence := by
    by_contra hlt
    obtain ⟨slot', held', hposition, htakes⟩ :=
      hdrained.passed slot.nativeSequence hslot (not_le.1 hlt)
    obtain rfl := DirectMapped.eq_of_mem (hsubset slot' held') h.held hposition
    exact hsteady.not_takes h.refuses htakes
  rcases Nat.eq_or_lt_of_le hle with heq | hlt
  · refine Or.inl ⟨?_, heq.trans_lt h.below, ?_⟩
    · obtain ⟨-, tick, hevent⟩ := hdrained.stopped slot (hkept slot h.held hslot) heq.symm
      exact ⟨slot, tick, hevent, heq.symm⟩
    rcases Nat.lt_or_ge r.1.expected holder.nativeSequence with hahead | hbehind
    · have held := hpassed.kept holder hmem hahead
      exact Or.inl ⟨holder, DirectMapped.occupant_of_mem held hhome, h.other⟩
    · refine Or.inr ⟨?_, ?_⟩
      · rw [Option.eq_none_iff_forall_ne_some]
        intro slot' ho
        obtain rfl := hpassed.eq_holder h.holds ho
        have hsettled := hpassed.ready.settled slot' (DirectMapped.mem_of_occupant ho).1
        omega
      · rw [heq]
        exact (h.goesOn.resolve_left (by omega)).2
  · refine Or.inr ⟨hlt, ?_⟩
    rcases Nat.lt_or_ge r.1.expected holder.nativeSequence with hahead | hbehind
    · exact hpassed.kept holder hmem hahead
    · -- what stopped the drain would be a record that is taken
      obtain ⟨hcontiguous, -⟩ := h.goesOn.resolve_left (by omega)
      obtain ⟨slot', held', hposition, htakes⟩ := hcontiguous r.1.expected hbehind hlt
      have hat := hkept slot' held' (hposition ▸ hdrained.le)
      exact absurd htakes (hsteady.not_takes (hdrained.stopped slot' hat hposition).1)

/-- A pass of a call from which a gap record comes to cover a refused position. -/
structure Doomed (callbacks : Callbacks) (before : List Event) (start : ChannelState cfg)
    (sequence : ℕ) (holder slot : PendingSlot) (t : ChannelState cfg × Effects) : Prop where
  passed : Passed callbacks start holder.nativeSequence t
  course : ¬Unreported (before ++ t.2.events) ∨
    Lost t.1 (before ++ t.2.events) ∧ ForcesGap t.1 sequence ∨
      t.1.expected < slot.nativeSequence ∧ holder ∈ t.1.pending

theorem Lost.after {state : ChannelState cfg} {events : List Event} (h : Lost state events)
    (before : List Event) : Lost state (before ++ events) := by
  obtain ⟨slot, tick, hmem, hposition⟩ := h
  exact ⟨slot, tick, List.mem_append_right _ hmem, hposition⟩

theorem doomed_again (hsteady : Steady callbacks) (hgap : ∀ gap, callbacks.emitGap gap = true)
    {decoded : TickDecodeResult} {now : ℕ} {start : ChannelState cfg} {holder slot : PendingSlot}
    (h : Heading callbacks start decoded.nativeSequence holder slot)
    {t t' : ChannelState cfg × Effects}
    (ht : Doomed callbacks before start decoded.nativeSequence holder slot t)
    (hb : activeBody callbacks decoded now t = .again t') :
    Doomed callbacks before start decoded.nativeSequence holder slot t' := by
  obtain ⟨hpassed, -⟩ := passed_processActive hgap h.holds ht.passed
    (Relation.ReflTransGen.single hb)
  refine ⟨hpassed, ?_⟩
  rcases ht.course with hreported | ⟨hlost, -⟩ | ⟨hlt, hheld⟩
  · exact Or.inl (reported_of_reaches hreported (activeBody_again hgap ht.passed.ready hb).1)
  · exact Or.inl (reported_again hgap ht.passed.ready hlost hb)
  · obtain ⟨state, fx⟩ := t
    have hslot := ht.passed.kept slot h.held hlt
    cases nextPass hgap hb with
    | below _ _ _ least =>
      have habove := below_of_minimum ht.passed.ready.sound least slot hslot
      exact absurd habove h.below.not_gt
    | above _ _ _ nonzero =>
      obtain ⟨least, held, hmin, -⟩ := exists_minimumPending ht.passed.ready.sound nonzero
      have hahead : state.expected < minimumPending state :=
        hmin ▸ ht.passed.ready.settled least held
      rw [forceGapToMinimum_eq hgap now fx ht.passed.ready nonzero] at hpassed ⊢
      have hdrain := h.drain hsteady now (s := (skipTo state (minimumPending state),
          fx.log (.gap (skipRecord state (minimumPending state) now) true)))
        (active_skipTo_minimum ht.passed.ready.toActive nonzero) ht.passed.subset
        (fun slot' h' hle => ht.passed.kept slot' h' (hahead.trans_le hle))
        (DirectMapped.minimum_le hslot uint64Max) hpassed
      exact Or.inr (hdrain.imp_left fun hdone => ⟨hdone.1.after before, hdone.2⟩)

theorem doomed_done (hgap : ∀ gap, callbacks.emitGap gap = true) {decoded : TickDecodeResult}
    (hr : InRange decoded.nativeSequence) {now : ℕ} {start : ChannelState cfg}
    {holder slot : PendingSlot} (h : Heading callbacks start decoded.nativeSequence holder slot)
    {t r : ChannelState cfg × Effects}
    (ht : Doomed callbacks before start decoded.nativeSequence holder slot t)
    (hb : activeBody callbacks decoded now t = .done r) : ¬Unreported (before ++ r.2.events) := by
  rcases ht.course with hreported | ⟨hlost, hforces⟩ | ⟨hlt, hheld⟩
  · exact reported_of_reaches hreported (activeBody_done hgap hr ht.passed.ready hb).1
  · exact reported_done hgap hr ht.passed.ready hlost hforces hb
  · -- the record finds its slot held, so this is not the last pass
    obtain ⟨state, fx⟩ := t
    have hahead : state.expected < decoded.nativeSequence := hlt.trans h.below
    have ho : state.pending.occupant decoded.nativeSequence = some holder :=
      DirectMapped.occupant_of_mem hheld (DirectMapped.mem_of_occupant h.holds).2
    have hcollides : Collides state decoded.nativeSequence := ⟨holder, ho, h.other⟩
    cases lastPass hgap hb with
    | behind lt => exact absurd lt hahead.not_gt
    | next position => exact absurd position hahead.ne'
    | refused position => exact absurd position hahead.ne'
    | far _ free => exact absurd hcollides (not_collides_of_free free)
    | unwaited _ free => exact absurd hcollides (not_collides_of_free free)
    | near _ free => exact absurd hcollides (not_collides_of_free free)
    | duplicate _ held position => exact absurd hcollides (not_collides_of_held held position)
    | freeze _ held position => exact absurd hcollides (not_collides_of_held held position)
    | divert _ held position => exact absurd hcollides (not_collides_of_held held position)

/-- The loop of `ProcessActive`, from a pass that is doomed. -/
theorem reported_processActive (hsteady : Steady callbacks)
    (hgap : ∀ gap, callbacks.emitGap gap = true) {decoded : TickDecodeResult}
    (hr : InRange decoded.nativeSequence) {now : ℕ} {start : ChannelState cfg}
    {holder slot : PendingSlot} (h : Heading callbacks start decoded.nativeSequence holder slot)
    {s r : ChannelState cfg × Effects}
    (hs : Doomed callbacks before start decoded.nativeSequence holder slot s)
    (hrun : processActive callbacks decoded now s = some r) : ¬Unreported (before ++ r.2.events) :=
  Loop.iterate_rel
    (I := fun t => Doomed callbacks before start decoded.nativeSequence holder slot t)
    (R := fun _ r : ChannelState cfg × Effects => ¬Unreported (before ++ r.2.events))
    (fun _ _ ht hb => doomed_again hsteady hgap h ht hb)
    (fun _ _ ht hb => doomed_done hgap hr h ht hb) (fun _ _ _ _ _ hrest => hrest) hs hrun

/-- The loop of `ProcessActive`, from a lost position that it forces a gap from. -/
theorem reported_of_forces (hgap : ∀ gap, callbacks.emitGap gap = true)
    {decoded : TickDecodeResult} (hr : InRange decoded.nativeSequence) {now : ℕ}
    {s r : ChannelState cfg × Effects} (hs : s.1.Ready)
    (hlost : Lost s.1 (before ++ s.2.events)) (hforces : ForcesGap s.1 decoded.nativeSequence)
    (hrun : processActive callbacks decoded now s = some r) :
    ¬Unreported (before ++ r.2.events) := by
  refine Loop.iterate_rel
    (I := fun t : ChannelState cfg × Effects => t.1.Ready ∧ (¬Unreported (before ++ t.2.events) ∨
      Lost t.1 (before ++ t.2.events) ∧ ForcesGap t.1 decoded.nativeSequence))
    (R := fun _ r : ChannelState cfg × Effects => ¬Unreported (before ++ r.2.events))
    ?_ ?_ (fun _ _ _ _ _ hrest => hrest) ⟨hs, Or.inr ⟨hlost, hforces⟩⟩ hrun
  · rintro t t' ⟨ht, hreported | ⟨hlost, -⟩⟩ hb
    · obtain ⟨hreach, hready, -⟩ := activeBody_again hgap ht hb
      exact ⟨hready, Or.inl (reported_of_reaches hreported hreach)⟩
    · exact ⟨(activeBody_again hgap ht hb).2.1, Or.inl (reported_again hgap ht hlost hb)⟩
  · rintro t r ⟨ht, hreported | ⟨hlost, hforces⟩⟩ hb
    · exact reported_of_reaches hreported (activeBody_done hgap hr ht hb).1
    · exact reported_done hgap hr ht hlost hforces hb

/-- Where the loop of `Process` starts, it is doomed. -/
theorem doomed_loopStart (hsteady : Steady callbacks) (now : ℕ) {state : ChannelState cfg}
    (hs : state.Resting) (live : state.frozen = false) {sequence : ℕ} {holder slot : PendingSlot}
    (h : Heading callbacks state sequence holder slot) :
    Doomed callbacks before state sequence holder slot (loopStart callbacks now state) := by
  have hmem := (DirectMapped.mem_of_occupant h.holds).1
  have hc := pendingCount_ne_zero hs.sound h.held
  have hpassed : Passed callbacks state holder.nativeSequence (loopStart callbacks now state) :=
    passed_loopStart now hs live fun _ => ⟨hc, DirectMapped.minimum_le hmem uint64Max⟩
  refine ⟨hpassed, Or.inr ?_⟩
  unfold loopStart at hpassed ⊢
  split_ifs at hpassed ⊢ with hd
  · rw [finishDiscovery_eq callbacks now {} hd hc] at hpassed ⊢
    exact (h.drain hsteady now (active_origin hs.sound live hc) (fun _ held => held)
      (fun _ held _ => held) (DirectMapped.minimum_le h.held uint64Max) hpassed).imp_left
      fun hdone => ⟨hdone.1.after before, hdone.2⟩
  · exact Or.inr ⟨hs.settled (by simpa using hd) slot h.held, hmem⟩

theorem reported_process (hsteady : Steady callbacks)
    (hgap : ∀ gap, callbacks.emitGap gap = true) {decoded : DecodedTick} {now : ℕ}
    {state : ChannelState cfg} {r : ChannelState cfg × Effects} (hs : state.Resting)
    (hreports : Reports callbacks state before (.process decoded now))
    (hrun : processChannel callbacks decoded.toTickDecodeResult now state = some r) :
    ¬Unreported (before ++ r.2.events) := by
  have hr := DecodedTick.inRange decoded
  obtain ⟨live, ⟨active, hlost, hforces⟩ |
    ⟨holder, holds, other, slot, held, refuses, below, goesOn⟩⟩ := hreports
  · cases processTurn hs hrun with
    | active _ _ loop =>
      exact reported_of_forces hgap hr (hs.ready live active) (by simpa using hlost) hforces loop
    | frozen frozen => cases live.symm.trans frozen
    | expired _ discovering => cases active.symm.trans discovering
    | holding _ discovering => cases active.symm.trans discovering
    | collision _ discovering => cases active.symm.trans discovering
    | duplicate _ discovering => cases active.symm.trans discovering
    | divert _ discovering => cases active.symm.trans discovering
  · have hheading : Heading callbacks state decoded.nativeSequence holder slot :=
      ⟨holds, other, held, refuses, below, goesOn⟩
    have hcollides : Collides state decoded.nativeSequence := ⟨holder, holds, other⟩
    have hdoomed : Doomed callbacks before state decoded.nativeSequence holder slot
        (loopStart callbacks now state) := doomed_loopStart hsteady now hs live hheading
    cases processTurn hs hrun with
    | frozen frozen => cases live.symm.trans frozen
    | active _ active loop =>
      rw [loopStart, active, if_neg Bool.false_ne_true] at hdoomed
      exact reported_processActive hsteady hgap hr hheading hdoomed loop
    | collision _ discovering _ _ loop =>
      rw [loopStart, discovering, if_pos rfl] at hdoomed
      exact reported_processActive hsteady hgap hr hheading hdoomed loop
    | expired _ _ free => exact absurd hcollides (not_collides_of_free free)
    | holding _ _ free => exact absurd hcollides (not_collides_of_free free)
    | duplicate _ _ held position => exact absurd hcollides (not_collides_of_held held position)
    | divert _ _ held position => exact absurd hcollides (not_collides_of_held held position)

theorem reported_poll (hgap : ∀ gap, callbacks.emitGap gap = true) {now : ℕ}
    {state : ChannelState cfg} (hs : state.Resting)
    (hreports : Reports callbacks state before (.poll now)) :
    ¬Unreported (before ++ (pollChannel callbacks now state).2.events) := by
  obtain ⟨live, active, hlost, hc, opened, reached⟩ := hreports
  have hforced : pollChannel callbacks now state = forceGapToMinimum callbacks now (state, {}) := by
    simp [pollChannel, live, active, hc, opened, reached]
  rw [hforced]
  exact reported_force hgap now (hs.ready live active) hc (by simpa using hlost)

/-- A pass of `Flush` from which a gap record comes to cover the position of `slot`. -/
structure Draining (callbacks : Callbacks) (before : List Event) (start : ChannelState cfg)
    (slot : PendingSlot) (t : ChannelState cfg × Effects) : Prop where
  passed : Passed callbacks start uint64Max t
  course : ¬Unreported (before ++ t.2.events) ∨
    Lost t.1 (before ++ t.2.events) ∧ t.1.pendingCount ≠ 0 ∨ t.1.expected < slot.nativeSequence

/-- A drain of `Flush` stops at a refused record, with one above it left, or before. -/
theorem draining_drain (hsteady : Steady callbacks) (now : ℕ) {start : ChannelState cfg}
    {slot slot' : PendingSlot} (held : slot ∈ start.pending) (refuses : Refuses callbacks slot)
    (held' : slot' ∈ start.pending) (hlt : slot.nativeSequence < slot'.nativeSequence)
    {s : ChannelState cfg × Effects} (hs : s.1.Active)
    (hsubset : ∀ slot ∈ s.1.pending, slot ∈ start.pending)
    (hkept : ∀ slot ∈ start.pending, s.1.expected ≤ slot.nativeSequence → slot ∈ s.1.pending)
    (hslot : s.1.expected ≤ slot.nativeSequence)
    (hpassed : Passed callbacks start uint64Max (drainContiguous callbacks now s)) :
    Draining callbacks before start slot (drainContiguous callbacks now s) := by
  refine ⟨hpassed, Or.inr ?_⟩
  have hdrained : Drained callbacks s (drainContiguous callbacks now s) := drained now hs
  generalize drainContiguous callbacks now s = r at hdrained hpassed ⊢
  have hle : r.1.expected ≤ slot.nativeSequence := by
    by_contra hover
    obtain ⟨slot'', held'', hposition, htakes⟩ :=
      hdrained.passed slot.nativeSequence hslot (not_le.1 hover)
    obtain rfl := DirectMapped.eq_of_mem (hsubset slot'' held'') held hposition
    exact hsteady.not_takes refuses htakes
  refine (Nat.eq_or_lt_of_le hle).imp_left fun heq => ⟨?_, ?_⟩
  · obtain ⟨-, tick, hevent⟩ := hdrained.stopped slot (hkept slot held hslot) heq.symm
    exact Lost.after ⟨slot, tick, hevent, heq.symm⟩ before
  · exact pendingCount_ne_zero hpassed.ready.sound (hpassed.kept slot' held' (by omega))

/-- `Flush` from a lost position, with records retained. -/
theorem reported_flush_lost (hgap : ∀ gap, callbacks.emitGap gap = true) {now : ℕ}
    {state : ChannelState cfg} {r : ChannelState cfg × Effects} (hs : state.Idle)
    (live : state.frozen = false) (active : state.discovering = false) (hlost : Lost state before)
    (hc : state.pendingCount ≠ 0) (hrun : flushChannel callbacks now state = some r) :
    ¬Unreported (before ++ r.2.events) := by
  obtain ⟨hcourse, -, hempty⟩ := flushChannel_keep hgap hs live hrun
    (I := fun t : ChannelState cfg × Effects => ¬Unreported (before ++ t.2.events) ∨
      Lost t.1 (before ++ t.2.events) ∧ t.1.pendingCount ≠ 0)
    (fun _ => Or.inr ⟨by simpa using hlost, hc⟩)
    (fun discovering => by cases active.symm.trans discovering)
    fun t _ ht hc hcourse => Or.inl <| hcourse.elim
      (fun hreported => reported_of_reaches hreported
        (forceGapToMinimum_steps hgap now t.2 ht none (by simp)).1)
      fun hkept => reported_force hgap now ht hc hkept.1
  exact hcourse.resolve_right fun hkept => hkept.2 hempty

/-- A gap forced by `Flush` below a refused record. -/
theorem draining_force (hsteady : Steady callbacks) (hgap : ∀ gap, callbacks.emitGap gap = true)
    (now : ℕ) {start : ChannelState cfg} {slot slot' : PendingSlot} (held : slot ∈ start.pending)
    (refuses : Refuses callbacks slot) (held' : slot' ∈ start.pending)
    (hlt : slot.nativeSequence < slot'.nativeSequence) {t : ChannelState cfg × Effects}
    (ht : Draining callbacks before start slot t) (hc : t.1.pendingCount ≠ 0) :
    Draining callbacks before start slot (forceGapToMinimum callbacks now t) := by
  have hpassed := passed_force hgap now ht.passed hc (DirectMapped.minimum_le_top _ _)
  rcases ht.course with hreported | ⟨hlost, -⟩ | hslot
  · exact ⟨hpassed, Or.inl (reported_of_reaches hreported
      (forceGapToMinimum_steps hgap now t.2 ht.passed.ready none (by simp)).1)⟩
  · exact ⟨hpassed, Or.inl (reported_force hgap now ht.passed.ready hc hlost)⟩
  · obtain ⟨state, fx⟩ := t
    obtain ⟨least, hleast, hmin, -⟩ := exists_minimumPending ht.passed.ready.sound hc
    have hahead : state.expected < minimumPending state :=
      hmin ▸ ht.passed.ready.settled least hleast
    have hslot := ht.passed.kept slot held hslot
    rw [forceGapToMinimum_eq hgap now fx ht.passed.ready hc] at hpassed ⊢
    exact draining_drain hsteady now held refuses held' hlt
      (active_skipTo_minimum ht.passed.ready.toActive hc) ht.passed.subset
      (fun slot h' hle => ht.passed.kept slot h' (hahead.trans_le hle))
      (DirectMapped.minimum_le hslot uint64Max) hpassed

theorem reported_flush (hsteady : Steady callbacks) (hgap : ∀ gap, callbacks.emitGap gap = true)
    {now : ℕ} {state : ChannelState cfg} {r : ChannelState cfg × Effects} (hs : state.Idle)
    (hreports : Reports callbacks state before (.flush now))
    (hrun : flushChannel callbacks now state = some r) : ¬Unreported (before ++ r.2.events) := by
  obtain ⟨live, ⟨active, hlost, hc⟩ | ⟨slot, held, refuses, slot', held', hlt⟩⟩ := hreports
  · exact reported_flush_lost hgap hs live active hlost hc hrun
  have hc := pendingCount_ne_zero hs.sound held
  have hpassed : Passed callbacks state uint64Max (loopStart callbacks now state) :=
    passed_loopStart now hs.toResting live fun _ =>
      ⟨hc, DirectMapped.minimum_le_top state.pending uint64Max⟩
  obtain ⟨hdraining, hready, hempty⟩ := flushChannel_keep hgap hs live hrun
    (I := Draining callbacks before state slot)
    (fun active => by
      rw [loopStart, active, if_neg Bool.false_ne_true] at hpassed
      exact ⟨hpassed, Or.inr (Or.inr (hs.settled active slot held))⟩)
    (fun discovering => by
      rw [loopStart, discovering, if_pos rfl] at hpassed
      rw [finishDiscovery_eq callbacks now {} discovering hc] at hpassed ⊢
      exact draining_drain hsteady now held refuses held' hlt
        (active_origin hs.sound live hc) (fun _ held => held) (fun _ held _ => held)
        (DirectMapped.minimum_le held uint64Max) hpassed)
    fun t _ _ hc ht => draining_force hsteady hgap now held refuses held' hlt ht hc
  rcases hdraining.course with hreported | ⟨-, hretained⟩ | hslot
  · exact hreported
  · exact absurd hempty hretained
  · exact absurd hempty
      (pendingCount_ne_zero hready.sound (hdraining.passed.kept slot held hslot))

theorem reported_channelStep (hsteady : Steady callbacks)
    (hgap : ∀ gap, callbacks.emitGap gap = true) {key : ChannelKey}
    {channel channel' : Option (ChannelState cfg)} {op : ChannelCall} {fx : Effects}
    (hp : Placed key channel) (hreports : Reports callbacks (stateD key channel) before op)
    (hstep : channelStep callbacks key channel op = some (channel', fx)) :
    ¬Unreported (before ++ fx.events) := by
  cases channelTurn hstep with
  | process turn => exact reported_process hsteady hgap hp.resting.1 hreports turn
  | absent absent sweep =>
    -- a channel that is not there retains nothing
    subst absent
    rcases sweep with rfl | rfl
    · obtain ⟨-, -, -, hc, -⟩ := hreports
      exact absurd rfl hc
    · obtain ⟨-, ⟨-, -, hc⟩ | ⟨slot, held, -⟩⟩ := hreports
      · exact absurd rfl hc
      · exact absurd rfl (pendingCount_ne_zero hp.resting.1.sound held)
  | poll present =>
    subst present
    exact reported_poll hgap (hp _ rfl).1.toResting hreports
  | flush present turn =>
    subst present
    exact reported_flush hsteady hgap (hp _ rfl).1 hreports turn
  | ignored => exact hreports.elim
  | freeze => exact hreports.elim

/-! ## Runs -/

/-- No call of a run reports a refused record of the channel `key`, when that has its turn. -/
def NoneReports (cfg : RecoveryConfig) (key : ChannelKey) (calls : List (Call × Callbacks)) :
    Prop :=
  ∀ earlier call callbacks later (lane : SequenceRecovery cfg) trace op,
    calls = earlier ++ (call, callbacks) :: later →
    runWith cfg (shared earlier) = some (lane, trace) → HasTurn lane key call op →
      ¬Reports callbacks (stateD key (lane.stateOf key)) (trace.of key) op

theorem NoneReports.left {key : ChannelKey} {calls : List (Call × Callbacks)}
    {c : Call × Callbacks} (h : NoneReports cfg key (calls ++ [c])) :
    NoneReports cfg key calls := by
  intro earlier call callbacks later lane trace op heq
  exact h earlier call callbacks (later ++ [c]) lane trace op (by rw [heq]; simp)

theorem guarded_runWith (key : ChannelKey) {calls : List (Call × Callbacks)}
    (hgap : ∀ c ∈ calls, ∀ gap, c.2.emitGap gap = true) (hnone : NoneReports cfg key calls)
    {lane : SequenceRecovery cfg} {trace : Trace}
    (hrun : runWith cfg (shared calls) = some (lane, trace)) :
    Guarded (trace.of key) (stateD key (lane.stateOf key), {}) := by
  induction calls using List.reverseRecOn generalizing lane trace with
  | nil =>
    cases hrun
    refine ⟨?_, by intro slot tick hmem; cases hmem⟩
    intro before record accepted after heq
    simp at heq
  | append_singleton calls c ih =>
    obtain ⟨call, callbacks⟩ := c
    have hearlier : ∀ c ∈ calls, ∀ gap, c.2.emitGap gap = true :=
      fun c hc => hgap c (List.mem_append_left _ hc)
    have hcall : ∀ gap, callbacks.emitGap gap = true := hgap (call, callbacks) (by simp)
    rw [shared, List.map_append, List.map_cons, List.map_nil] at hrun
    obtain ⟨lane', trace', added, hbefore, hstep, rfl⟩ := runWith_snoc.1 hrun
    have hguarded := ih hearlier hnone.left hbefore
    have hv := valid_of_runWith (gapsTaken_shared hearlier) hbefore
    rcases hasTurn_or_still (fun _ => hcall) hv hstep key with
      ⟨op, slot, fx, hturn, hserved, hadded⟩ | ⟨-, hsame, hsilent⟩
    · have hnot := hnone calls call callbacks [] lane' trace' op rfl hbefore hturn
      rw [Trace.of_append, hadded]
      exact (guarded_channelStep hcall (hv.placed key) hguarded hnot hserved).rest
    · rw [Trace.of_append, hsame, hsilent, List.append_nil]
      exact hguarded

/-- A call that reports a refused record leaves a gap record over it in the trace of the run. -/
theorem noneReports_of_unreported (key : ChannelKey) {calls : List (Call × Callbacks)}
    (hgap : ∀ c ∈ calls, ∀ gap, c.2.emitGap gap = true) (hsteady : ∀ c ∈ calls, Steady c.2)
    {lane : SequenceRecovery cfg} {trace : Trace}
    (hrun : runWith cfg (shared calls) = some (lane, trace))
    (hunreported : Unreported (trace.of key)) : NoneReports cfg key calls := by
  rintro earlier call callbacks later lane' trace' op rfl hbefore hturn hreports
  have hcall : (call, callbacks) ∈ earlier ++ (call, callbacks) :: later := by simp
  have hv := valid_of_runWith
    (gapsTaken_shared fun c hc => hgap c (List.mem_append_left _ hc)) hbefore
  rw [List.append_cons, shared_append] at hrun
  obtain ⟨lane'', trace'', more, hupto, rfl⟩ := runWith_append hrun
  rw [shared_append] at hupto
  obtain ⟨lane₀, trace₀, added, hbefore', hstep, rfl⟩ := runWith_snoc.1 hupto
  cases hbefore.symm.trans hbefore'
  rcases hasTurn_or_still (fun _ => hgap _ hcall) hv hstep key with
    ⟨op', slot, fx, hturn', hserved, hadded⟩ | ⟨hno, -⟩
  · obtain rfl := Option.some.inj (hturn.on.symm.trans hturn'.on)
    rw [Trace.of_append, Trace.of_append, hadded] at hunreported
    exact reported_append (reported_channelStep (hsteady _ hcall) (hgap _ hcall) (hv.placed key)
      hreports hserved) _ hunreported
  · exact hno op hturn

/-- In every run, whatever `emit_tick`, `emit_late` and `emit_fault` answer, none of whose calls
reports a refused record, no gap record covers the position of a record received at the frontier or
above and dropped when its tick was refused. Where the answers of `emit_tick` do not depend on the
marks of history and gaps, there is such a gap record in every other run. -/
theorem run_unreported (cfg : RecoveryConfig) (calls : List (Call × Callbacks))
    (hgap : ∀ c ∈ calls, ∀ gap, c.2.emitGap gap = true) (key : ChannelKey) :
    ∃ lane trace, runWith cfg (shared calls) = some (lane, trace) ∧
      (NoneReports cfg key calls → Unreported (trace.of key)) ∧
      ((∀ c ∈ calls, Steady c.2) → Unreported (trace.of key) → NoneReports cfg key calls) := by
  obtain ⟨lane, trace, hrun⟩ : ∃ lane trace, runWith cfg (shared calls) = some (lane, trace) :=
    exists_runWith (shared calls) (gapsTaken_shared hgap)
  refine ⟨lane, trace, hrun, fun hnone => ?_, fun hsteady => ?_⟩
  · simpa using (guarded_runWith key hgap hnone hrun).unreported
  · exact noneReports_of_unreported key hgap hsteady hrun

/-- The positions of the records that were refused. -/
def refusedOf (events : List Event) : List ℕ :=
  events.filterMap fun
    | .consumed slot _ false => some slot.nativeSequence
    | _ => none

theorem Lost.mem_refusedOf {state : ChannelState cfg} {events : List Event}
    (h : Lost state events) : state.expected ∈ refusedOf events := by
  obtain ⟨slot, tick, hmem, hposition⟩ := h
  exact List.mem_filterMap.2 ⟨_, hmem, congrArg some hposition⟩

/-- Where the callbacks succeed, a refused record is reported only if it was lost before. -/
theorem lost_of_reports {state : ChannelState cfg} {op : ChannelCall}
    (h : Reports .succeed state before op) : Lost state before := by
  have hnone : ∀ slot, ¬Refuses .succeed slot := by
    rintro slot ⟨-, tick, -, hrefused⟩
    cases hrefused
  cases op with
  | process decoded now =>
    obtain ⟨-, ⟨-, hlost, -⟩ | ⟨-, -, -, slot, -, hrefuses, -⟩⟩ := h
    · exact hlost
    · exact absurd hrefuses (hnone slot)
  | poll now => exact h.2.2.1
  | flush now =>
    obtain ⟨-, ⟨-, hlost, -⟩ | ⟨slot, -, hrefuses, -⟩⟩ := h
    · exact hlost
    · exact absurd hrefuses (hnone slot)
  | freezeDecodeFailure sequence now => exact h.elim

/-- The record at 1 is refused, and taken when it is sent again. -/
def resentRun : List (Call × Callbacks) :=
  [(arrival 1 (by decide) 10, refuseTicks), (arrival 1 (by decide) 11, .succeed),
    (arrival 3 (by decide) 12, .succeed), (.flush 13, .succeed)]

theorem noneReports_resent :
    NoneReports (sampleConfig .kFromOpen 0 100) sampleKey resentRun := by
  have hafter : ∀ calls, ((runWith (sampleConfig .kFromOpen 0 100) (shared calls)).map fun r =>
      ((stateD sampleKey (r.1.stateOf sampleKey)).expected, refusedOf (r.2.of sampleKey))) =
        some (2, [1]) → ∀ (lane : SequenceRecovery (sampleConfig .kFromOpen 0 100)) trace,
      runWith (sampleConfig .kFromOpen 0 100) (shared calls) = some (lane, trace) →
        ¬Lost (stateD sampleKey (lane.stateOf sampleKey)) (trace.of sampleKey) := by
    intro calls hcalls lane trace hrun hlost
    rw [hrun] at hcalls
    obtain ⟨hexpected, hrefused⟩ := Prod.mk.inj (Option.some.inj hcalls)
    have hmem := hlost.mem_refusedOf
    rw [hexpected, hrefused] at hmem
    simp at hmem
  intro earlier call callbacks later lane trace op heq hrun hturn
  rcases earlier with _ | ⟨c, _ | ⟨c', _ | ⟨d, _ | ⟨d', earlier⟩⟩⟩⟩
  · cases heq
    cases hrun
    cases hturn.on
    rintro ⟨-, ⟨-, ⟨slot, tick, hmem, -⟩, -⟩ | ⟨holder, hheld, -⟩⟩
    · cases hmem
    · cases hheld
  · cases heq
    cases hturn.on
    have hexpected : ((runWith (sampleConfig .kFromOpen 0 100) (shared (resentRun.take 1))).map
        fun r => (stateD sampleKey (r.1.stateOf sampleKey)).expected) = some 1 := by
      decide +kernel
    rw [show runWith _ (shared (resentRun.take 1)) = some (lane, trace) from hrun] at hexpected
    rintro ⟨-, ⟨-, -, hlt, -⟩ | ⟨-, -, -, slot, -, ⟨-, tick, -, hrefused⟩, -⟩⟩
    · have hone : (stateD sampleKey (lane.stateOf sampleKey)).expected = 1 :=
        Option.some.inj hexpected
      have hlt : (stateD sampleKey (lane.stateOf sampleKey)).expected < 1 := hlt
      omega
    · cases hrefused
  · cases heq
    exact fun h => hafter (resentRun.take 2) (by decide +kernel) lane trace hrun
      (lost_of_reports h)
  · cases heq
    exact fun h => hafter (resentRun.take 3) (by decide +kernel) lane trace hrun
      (lost_of_reports h)
  · have hlen := congrArg List.length heq
    simp [resentRun] at hlen

theorem unreported_resent : ∃ lane trace,
    runWith (sampleConfig .kFromOpen 0 100) (shared resentRun) = some (lane, trace) ∧
      Unreported (trace.of sampleKey) := by
  obtain ⟨lane, trace, hrun, hunreported, -⟩ :=
    run_unreported (sampleConfig .kFromOpen 0 100) resentRun (by
      intro c hc gap
      simp only [resentRun, List.mem_cons, List.not_mem_nil, or_false] at hc
      rcases hc with rfl | rfl | rfl | rfl <;> rfl) sampleKey
  exact ⟨lane, trace, hrun, hunreported noneReports_resent⟩

/-- The record at 1 is refused, the record at 2 is retained, and `Flush` commits the gap
before it. -/
def refusedRun : List (Call × Callbacks) :=
  [(arrival 1 (by decide) 10, refuseTicks), (arrival 2 (by decide) 11, .succeed),
    (.flush 12, .succeed)]

theorem refused_reported : ∃ lane trace,
    runWith (sampleConfig .kFromOpen 0 100) (shared refusedRun) = some (lane, trace) ∧
      ¬Unreported (trace.of sampleKey) := by
  have hevents : ((runWith (sampleConfig .kFromOpen 0 100) (shared refusedRun)).map
      fun r => (r.2.of sampleKey).take 3) =
      some [.consumed (slotOf (sampleRecord 1)) (sampleRecord 1).tick false,
        .fatal "instrument tick dispatch queue overflow",
        .gap ⟨.kShanghai, 1, 1, 1, 2, 12, 1, 1⟩ true] := by decide +kernel
  obtain ⟨⟨lane, trace⟩, hrun, htake⟩ := Option.map_eq_some_iff.1 hevents
  refine ⟨lane, trace, hrun, fun hno => ?_⟩
  have hsplit := (List.take_append_drop 3 (trace.of sampleKey)).symm
  rw [htake] at hsplit
  exact hno [_, _] _ _ _ hsplit _ _ List.mem_cons_self ⟨le_refl _, le_refl _⟩

end SequenceRecovery

end L2Flow
