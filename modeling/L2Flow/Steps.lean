import L2Flow.Channel

/-!
# What a channel can do

Every function of `Channel.lean` is a sequence of a few primitive steps of the channel :
a record in hand is retained, passed at the frontier, suppressed or diverted; a retained
record is released at the frontier; a gap is committed; the channel freezes or ends its
discovery; timers move. `Step` lists them with everything that is known when they
happen, and the `_steps` theorems say once, function by function, that nothing else
happens. An invariant of all runs is then an invariant of the primitive steps.

`Sound` is the representation invariant the functions rely on : the counter counts the
occupied slots, and an active channel retains nothing below its frontier. Between calls
nothing is retained at the frontier either (`Settled`).
-/

namespace L2Flow

variable {cfg : RecoveryConfig}

/-! ## The representation invariant -/

/-- The positions a decoded record can have. -/
def InRange (sequence : ℕ) : Prop :=
  0 < sequence ∧ sequence < 2 ^ 63

structure ChannelState.Sound (state : ChannelState cfg) : Prop where
  count : state.pendingCount = state.pending.card
  inRange : ∀ slot ∈ state.pending, InRange slot.nativeSequence
  ahead : state.discovering = false → ∀ slot ∈ state.pending, state.expected ≤ slot.nativeSequence

/-- An active channel in the middle of a call. -/
structure ChannelState.Active (state : ChannelState cfg) : Prop where
  live : state.frozen = false
  active : state.discovering = false
  sound : state.Sound

/-- An active channel between calls, or between the passes of a loop. -/
structure ChannelState.Ready (state : ChannelState cfg) : Prop extends
    ChannelState.Active state where
  settled : ∀ slot ∈ state.pending, state.expected < slot.nativeSequence

/-- A channel between calls, or just created. -/
structure ChannelState.Resting (state : ChannelState cfg) : Prop where
  sound : state.Sound
  settled : state.discovering = false → ∀ slot ∈ state.pending,
    state.expected < slot.nativeSequence
  frozen_mode : state.frozen = true → cfg.mode = .kFromOpen
  discovering_mode : state.discovering = true → cfg.mode = .kPartial

/-- A channel in use, between calls : it discovers only while it retains a record. -/
structure ChannelState.Idle (state : ChannelState cfg) : Prop extends
    ChannelState.Resting state where
  discovering_seen : state.discovering = true → state.pendingCount ≠ 0

theorem ChannelState.Resting.active_of_frozen {state : ChannelState cfg} (h : state.Resting)
    (hf : state.frozen = true) : state.discovering = false := by
  cases hd : state.discovering
  · rfl
  · have hm := h.discovering_mode hd
    rw [h.frozen_mode hf] at hm
    cases hm

theorem ChannelState.Resting.ready {state : ChannelState cfg} (h : state.Resting)
    (live : state.frozen = false) (active : state.discovering = false) : state.Ready :=
  ⟨⟨live, active, h.sound⟩, h.settled active⟩

theorem ChannelState.Ready.idle {state : ChannelState cfg} (h : state.Ready) : state.Idle where
  sound := h.sound
  settled _ := h.settled
  frozen_mode hf := by rw [h.live] at hf; cases hf
  discovering_mode hd := by rw [h.active] at hd; cases hd
  discovering_seen hd := by rw [h.active] at hd; cases hd

theorem ChannelState.resting_fresh (cfg : RecoveryConfig) (key : ChannelKey) :
    (ChannelState.fresh cfg key).Resting where
  sound := ⟨by simp [fresh], by simp [fresh], by simp [fresh]⟩
  settled := by simp [fresh]
  frozen_mode := by simp [fresh]
  discovering_mode := by simp [fresh]

namespace SequenceRecovery

/-! ## Primitive steps -/

/-- A channel in the middle of a call : its state, the record that the call still has
to account for, and the events so far. -/
structure Conf (cfg : RecoveryConfig) where
  state : ChannelState cfg
  hand : Option TickDecodeResult
  events : List Event

/-- `slot` holds the same canonical record as `decoded`. -/
def SameRecord (slot : PendingSlot) (decoded : TickDecodeResult) : Prop :=
  canonicalPayloadEqual slot.tick decoded.tick = true ∧ slot.emit = decoded.catalogMatch

/-- The slot a record is retained or passed in. -/
def slotOf (decoded : TickDecodeResult) : PendingSlot :=
  ⟨decoded.tick, decoded.catalogMatch⟩

@[simp] theorem slotOf_nativeSequence (decoded : TickDecodeResult) :
    (slotOf decoded).nativeSequence = decoded.nativeSequence :=
  rfl

/-- Why `DivertLateRecovery` is called. -/
def LateReason (state : ChannelState cfg) (decoded : TickDecodeResult) :
    LateRecoveryReason → Prop
  | .kBehindCommittedFrontier =>
    state.discovering = false ∧ decoded.nativeSequence < state.expected
  | .kPendingCanonicalConflict =>
    cfg.mode = .kPartial ∧
      ∃ slot ∈ state.pending, slot.nativeSequence = decoded.nativeSequence ∧
        ¬SameRecord slot decoded

/-- Why `FreezeFromOpen` is called. -/
def FaultReason (state : ChannelState cfg) (hand : Option TickDecodeResult) (sequence : ℕ) :
    ChannelFaultReason → Prop
  | .kCanonicalConflict =>
    ∃ decoded, hand = some decoded ∧ decoded.nativeSequence = sequence ∧
      ∃ slot ∈ state.pending, slot.nativeSequence = sequence ∧ ¬SameRecord slot decoded
  | .kDecodeFailure => hand = none

/-- The state after `EmitOne` on a slot at the frontier. -/
def consume (state : ChannelState cfg) (slot : PendingSlot) (accepted : Bool) :
    ChannelState cfg :=
  { state with
    gapMetadataPending := state.gapMetadataPending && !slot.emit
    expected := if accepted then state.expected + 1 else state.expected }

/-- The state after `EmitOne` on the slot retained at the frontier. -/
def release (state : ChannelState cfg) (slot : PendingSlot) (accepted : Bool) :
    ChannelState cfg :=
  { consume state slot accepted with
    pending := state.pending.erase state.expected
    pendingCount := state.pendingCount - 1 }

/-- The state after a record is retained. -/
def retain (state : ChannelState cfg) (slot : PendingSlot) : ChannelState cfg :=
  { state with
    pending := state.pending.insert slot
    pendingCount := state.pendingCount + 1 }

/-- The state after the gap up to `next` is committed and the frontier is moved there. -/
def skipTo (state : ChannelState cfg) (next : ℕ) : ChannelState cfg :=
  { withGap state state.expected (next - 1) next with expected := next }

/-- The record of that gap. -/
def skipRecord (state : ChannelState cfg) (next now : ℕ) : ChannelGap :=
  gapRecord (withGap state state.expected (next - 1) next) state.expected (next - 1) next now

/-- The primitive steps of a channel, with the callbacks' answers. -/
inductive Step (callbacks : Callbacks) : Conf cfg → Conf cfg → Prop where
  | drop {s r evs} (frozen : s.frozen = true) : Step callbacks ⟨s, some r, evs⟩ ⟨s, none, evs⟩
  | retain {s r evs} (live : s.frozen = false)
      (free : s.pending.occupant r.nativeSequence = none)
      (above : s.discovering = true ∨ s.expected < r.nativeSequence) :
      Step callbacks ⟨s, some r, evs⟩ ⟨retain s (slotOf r), none, evs⟩
  | duplicate {s r evs slot} (live : s.frozen = false) (held : slot ∈ s.pending)
      (position : slot.nativeSequence = r.nativeSequence) (same : SameRecord slot r) :
      Step callbacks ⟨s, some r, evs⟩ ⟨s, none, evs ++ [.duplicate r]⟩
  | divert {s r evs reason accepted} (live : s.frozen = false) (why : LateReason s r reason)
      (answer : callbacks.emitLate (lateRecord s r reason) = accepted) :
      Step callbacks ⟨s, some r, evs⟩ ⟨s, none, evs ++ [.late r (lateRecord s r reason) accepted]⟩
  | freeze {s hand evs reason sequence now accepted} (live : s.frozen = false)
      (mode : cfg.mode = .kFromOpen) (why : FaultReason s hand sequence reason)
      (answer : callbacks.emitFault (faultRecord s reason sequence now) = accepted) :
      Step callbacks ⟨s, hand, evs⟩
        ⟨{ s with frozen := true }, none,
          evs ++ [.fault (faultRecord s reason sequence now) accepted]⟩
  | release {s hand evs slot accepted} (live : s.frozen = false) (active : s.discovering = false)
      (held : slot ∈ s.pending) (position : slot.nativeSequence = s.expected)
      (refused : accepted = false →
        slot.emit = true ∧ callbacks.emitTick (outgoing s slot) = false) :
      Step callbacks ⟨s, hand, evs⟩
        ⟨release s slot accepted, hand, evs ++ [.consumed slot (outgoing s slot) accepted]⟩
  | pass {s r evs accepted} (live : s.frozen = false) (active : s.discovering = false)
      (position : r.nativeSequence = s.expected)
      (clear : ∀ slot ∈ s.pending, s.expected < slot.nativeSequence)
      (refused : accepted = false →
        r.catalogMatch = true ∧ callbacks.emitTick (outgoing s (slotOf r)) = false) :
      Step callbacks ⟨s, some r, evs⟩
        ⟨consume s (slotOf r) accepted, none,
          evs ++ [.consumed (slotOf r) (outgoing s (slotOf r)) accepted]⟩
  | skip {s hand evs next now} (live : s.frozen = false) (active : s.discovering = false)
      (ahead : s.expected < next) (least : ∀ slot ∈ s.pending, next ≤ slot.nativeSequence)
      (within : ∀ r, hand = some r → next ≤ r.nativeSequence)
      (present : (∃ slot ∈ s.pending, slot.nativeSequence = next) ∨
        ∃ r, hand = some r ∧ r.nativeSequence = next) :
      Step callbacks ⟨s, hand, evs⟩
        ⟨skipTo s next, hand, evs ++ [.gap (skipRecord s next now) true]⟩
  | timers {s hand evs firstSeenNs gapOpenNs} :
      Step callbacks ⟨s, hand, evs⟩
        ⟨{ s with firstSeenNs := firstSeenNs, gapOpenNs := gapOpenNs }, hand, evs⟩
  | finish {s hand evs slot} (live : s.frozen = false) (discovering : s.discovering = true)
      (held : slot ∈ s.pending)
      (least : ∀ slot' ∈ s.pending, slot.nativeSequence ≤ slot'.nativeSequence) :
      Step callbacks ⟨s, hand, evs⟩
        ⟨{ s with discovering := false, expected := slot.nativeSequence }, hand,
          evs ++ [.origin slot.nativeSequence]⟩
  | fatal {s hand evs message} : Step callbacks ⟨s, hand, evs⟩ ⟨s, hand, evs ++ [.fatal message]⟩

abbrev Steps (callbacks : Callbacks) : Conf cfg → Conf cfg → Prop :=
  Relation.ReflTransGen (Step callbacks)

/-- What every step keeps, every sequence of steps keeps. -/
theorem Steps.keep {callbacks : Callbacks} {I : Conf cfg → Prop}
    (hstep : ∀ {c c'}, Step callbacks c c' → I c → I c') {c c' : Conf cfg}
    (h : Steps callbacks c c') (hc : I c) : I c' := by
  induction h with
  | refl => exact hc
  | tail _ hs ih => exact hstep hs ih

/-! ## Primitive steps keep the invariant -/

def Conf.Sound (c : Conf cfg) : Prop :=
  c.state.Sound ∧ ∀ r, c.hand = some r → InRange r.nativeSequence

theorem mem_release {state : ChannelState cfg} {slot slot' : PendingSlot} {accepted : Bool}
    (held : slot ∈ state.pending) (position : slot.nativeSequence = state.expected) :
    slot' ∈ (release state slot accepted).pending ↔ slot' ∈ state.pending ∧ slot' ≠ slot := by
  show slot' ∈ state.pending.erase state.expected ↔ _
  rw [← position]
  exact DirectMapped.mem_erase_of_mem held

theorem mem_retain {state : ChannelState cfg} {slot slot' : PendingSlot}
    (free : state.pending.occupant slot.nativeSequence = none) :
    slot' ∈ (retain state slot).pending ↔ slot' = slot ∨ slot' ∈ state.pending :=
  DirectMapped.mem_insert free

theorem card_release {state : ChannelState cfg} {slot : PendingSlot} {accepted : Bool}
    (held : slot ∈ state.pending) (position : slot.nativeSequence = state.expected) :
    (release state slot accepted).pending.card + 1 = state.pending.card := by
  show (state.pending.erase state.expected).card + 1 = _
  rw [← position]
  exact DirectMapped.card_erase held

/-- Releasing the slot at the frontier leaves only records above it. -/
theorem lt_of_mem_release {state : ChannelState cfg} {slot slot' : PendingSlot} {accepted : Bool}
    (hs : state.Sound) (active : state.discovering = false)
    (held : slot ∈ state.pending) (position : slot.nativeSequence = state.expected)
    (h : slot' ∈ (release state slot accepted).pending) :
    state.expected < slot'.nativeSequence := by
  obtain ⟨hmem, hne⟩ := (mem_release held position).1 h
  refine lt_of_le_of_ne (hs.ahead active slot' hmem) fun heq => hne ?_
  exact DirectMapped.eq_of_mem hmem held (heq.symm.trans position.symm)

theorem sound_release {state : ChannelState cfg} {slot : PendingSlot} {accepted : Bool}
    (hs : state.Sound) (active : state.discovering = false)
    (held : slot ∈ state.pending) (position : slot.nativeSequence = state.expected) :
    (release state slot accepted).Sound where
  count := by
    have hc : (release state slot accepted).pending.card + 1 = state.pending.card :=
      card_release held position
    have := hs.count
    show state.pendingCount - 1 = _
    omega
  inRange slot' h := hs.inRange slot' ((mem_release held position).1 h).1
  ahead _ slot' h := by
    have hlt := lt_of_mem_release hs active held position h
    show (if accepted then state.expected + 1 else state.expected) ≤ _
    split_ifs <;> omega

theorem sound_retain {state : ChannelState cfg} {slot : PendingSlot}
    (hs : state.Sound) (hr : InRange slot.nativeSequence)
    (free : state.pending.occupant slot.nativeSequence = none)
    (above : state.discovering = true ∨ state.expected < slot.nativeSequence) :
    (retain state slot).Sound where
  count := by
    show state.pendingCount + 1 = (state.pending.insert slot).card
    rw [DirectMapped.card_insert free, hs.count]
  inRange slot' h := by
    rcases (mem_retain free).1 h with rfl | h
    · exact hr
    · exact hs.inRange slot' h
  ahead active slot' h := by
    rcases (mem_retain free).1 h with rfl | h
    · rcases above with hd | hlt
      · rw [show state.discovering = false from active] at hd
        cases hd
      · exact hlt.le
    · exact hs.ahead active slot' h

theorem step_sound {callbacks : Callbacks} {c c' : Conf cfg} (h : Step callbacks c c')
    (hc : c.Sound) : c'.Sound := by
  obtain ⟨hs, hh⟩ := hc
  cases h with
  | drop => exact ⟨hs, by simp⟩
  | retain live free above => exact ⟨sound_retain hs (hh _ rfl) free above, by simp⟩
  | duplicate => exact ⟨hs, by simp⟩
  | divert => exact ⟨hs, by simp⟩
  | freeze => exact ⟨⟨hs.count, hs.inRange, hs.ahead⟩, by simp⟩
  | release live active held position => exact ⟨sound_release hs active held position, hh⟩
  | @pass s r evs accepted live active position clear =>
    refine ⟨⟨hs.count, hs.inRange, fun _ slot hslot => ?_⟩, by simp⟩
    have hlt := clear slot hslot
    show (if accepted then s.expected + 1 else s.expected) ≤ _
    split_ifs <;> omega
  | skip live active ahead least => exact ⟨⟨hs.count, hs.inRange, fun _ => least⟩, hh⟩
  | timers => exact ⟨⟨hs.count, hs.inRange, hs.ahead⟩, hh⟩
  | finish live discovering held least =>
    exact ⟨⟨hs.count, hs.inRange, fun _ => least⟩, hh⟩
  | fatal => exact ⟨hs, hh⟩

/-! ## The record in hand stays ahead -/

/-- The record is at or above the frontier, and none is retained at its position. -/
structure Ahead (decoded : TickDecodeResult) (state : ChannelState cfg) : Prop where
  active : state.discovering = false
  le : state.expected ≤ decoded.nativeSequence
  alone : ∀ slot ∈ state.pending, slot.nativeSequence ≠ decoded.nativeSequence

/-- No step moves the frontier past the record in hand. -/
theorem step_ahead {callbacks : Callbacks} {decoded : TickDecodeResult} {c c' : Conf cfg}
    (h : Step callbacks c c') (hhand : c'.hand = some decoded)
    (hc : c.hand = some decoded → Ahead decoded c.state) :
    c.hand = some decoded ∧ Ahead decoded c'.state := by
  rcases h with _ | _ | _ | _ | _ | ⟨-, -, held, position, -⟩ | _ |
    ⟨-, -, -, -, within, -⟩ | _ | ⟨-, discovering, -, -⟩ | _
  case release s hand evs slot accepted =>
    obtain ⟨hactive, hle, halone⟩ := hc hhand
    have hle : s.expected ≤ decoded.nativeSequence := hle
    refine ⟨hhand, hactive, ?_, fun slot' hslot' => ?_⟩
    · have hne := halone slot held
      show (if accepted then s.expected + 1 else s.expected) ≤ _
      split_ifs <;> omega
    · exact halone slot' ((mem_release held position).1 hslot').1
  case skip s hand evs next now =>
    obtain ⟨hactive, -, halone⟩ := hc hhand
    exact ⟨hhand, hactive, within decoded hhand, halone⟩
  case timers =>
    obtain ⟨hactive, hle, halone⟩ := hc hhand
    exact ⟨hhand, hactive, hle, halone⟩
  case finish =>
    have hactive := (hc hhand).active
    rw [discovering] at hactive
    cases hactive
  case fatal => exact ⟨hhand, hc hhand⟩
  all_goals cases hhand

/-! ## The functions of a channel -/

/-- From `s` to `r` by primitive steps, the hand going from `hand` to `hand'`. -/
def Reaches (callbacks : Callbacks) (hand hand' : Option TickDecodeResult)
    (s r : ChannelState cfg × Effects) : Prop :=
  ∀ before : List Event,
    Steps callbacks ⟨s.1, hand, before ++ s.2.events⟩ ⟨r.1, hand', before ++ r.2.events⟩

theorem Reaches.refl (callbacks : Callbacks) (hand : Option TickDecodeResult)
    (s : ChannelState cfg × Effects) : Reaches callbacks hand hand s s :=
  fun _ => Relation.ReflTransGen.refl

theorem Reaches.trans {callbacks : Callbacks} {hand hand' hand'' : Option TickDecodeResult}
    {s r t : ChannelState cfg × Effects} (h : Reaches callbacks hand hand' s r)
    (h' : Reaches callbacks hand' hand'' r t) : Reaches callbacks hand hand'' s t :=
  fun before => (h before).trans (h' before)

/-- One step that logs one event. -/
theorem Reaches.log {callbacks : Callbacks} {hand hand' : Option TickDecodeResult}
    {state state' : ChannelState cfg} {fx : Effects} {event : Event}
    (h : ∀ evs, Step callbacks ⟨state, hand, evs⟩ ⟨state', hand', evs ++ [event]⟩) :
    Reaches callbacks hand hand' (state, fx) (state', fx.log event) := by
  intro before
  rw [Effects.log_events, ← List.append_assoc]
  exact Relation.ReflTransGen.single (h _)

/-- One step that logs nothing. -/
theorem Reaches.silent {callbacks : Callbacks} {hand hand' : Option TickDecodeResult}
    {state state' : ChannelState cfg} {fx fx' : Effects} (hfx : fx'.events = fx.events)
    (h : ∀ evs, Step callbacks ⟨state, hand, evs⟩ ⟨state', hand', evs⟩) :
    Reaches callbacks hand hand' (state, fx) (state', fx') := by
  intro before
  rw [hfx]
  exact Relation.ReflTransGen.single (h _)

theorem Reaches.fatal (callbacks : Callbacks) (hand : Option TickDecodeResult)
    (state : ChannelState cfg) (fx : Effects) (message : String) :
    Reaches callbacks hand hand (state, fx) (state, fx.log (.fatal message)) :=
  Reaches.log fun _ => .fatal

theorem Reaches.sound {callbacks : Callbacks} {hand hand' : Option TickDecodeResult}
    {s r : ChannelState cfg × Effects} (h : Reaches callbacks hand hand' s r) (hs : s.1.Sound)
    (hh : ∀ decoded, hand = some decoded → InRange decoded.nativeSequence) :
    r.1.Sound :=
  (Steps.keep step_sound (h []) ⟨hs, hh⟩).1

theorem Reaches.ahead {callbacks : Callbacks} {decoded : TickDecodeResult}
    {s r : ChannelState cfg × Effects}
    (h : Reaches callbacks (some decoded) (some decoded) s r) (hs : Ahead decoded s.1) :
    Ahead decoded r.1 :=
  Steps.keep (I := fun c => c.hand = some decoded → Ahead decoded c.state)
    (fun hstep hc hhand => (step_ahead hstep hhand hc).2) (h []) (fun _ => hs) rfl

/-- The frontier of a channel that has left discovery never moves back. -/
theorem step_advances {callbacks : Callbacks} {c c' : Conf cfg} (h : Step callbacks c c')
    (active : c.state.discovering = false) :
    c'.state.discovering = false ∧ c.state.expected ≤ c'.state.expected := by
  have hconsume : ∀ {n : ℕ} {accepted : Bool}, n ≤ if accepted = true then n + 1 else n := by
    intro n accepted
    split_ifs <;> omega
  rcases h with _ | _ | _ | _ | _ | _ | _ | ⟨-, -, ahead, -, -, -⟩ | _ | ⟨-, discovering, -, -⟩ | _
  case release => exact ⟨active, hconsume⟩
  case pass => exact ⟨active, hconsume⟩
  case skip => exact ⟨active, ahead.le⟩
  case finish => cases active.symm.trans discovering
  all_goals exact ⟨active, le_refl _⟩

theorem Reaches.advances {callbacks : Callbacks} {hand hand' : Option TickDecodeResult}
    {s r : ChannelState cfg × Effects} (h : Reaches callbacks hand hand' s r)
    (active : s.1.discovering = false) :
    r.1.discovering = false ∧ s.1.expected ≤ r.1.expected :=
  Steps.keep (I := fun c => c.state.discovering = false ∧ s.1.expected ≤ c.state.expected)
    (fun hstep hc => (step_advances hstep hc.1).imp_right hc.2.trans) (h [])
    ⟨active, le_refl _⟩

/-- Events are added at the end. -/
theorem step_extends {callbacks : Callbacks} {c c' : Conf cfg} (h : Step callbacks c c') :
    c.events <+: c'.events := by
  cases h <;> first | exact List.prefix_rfl | exact List.prefix_append _ _

theorem Reaches.exists_append {callbacks : Callbacks} {hand hand' : Option TickDecodeResult}
    {s r : ChannelState cfg × Effects} (h : Reaches callbacks hand hand' s r) :
    ∃ more, r.2.events = s.2.events ++ more := by
  have hprefix := Steps.keep (I := fun c => s.2.events <+: c.events)
    (fun hs hc => hc.trans (step_extends hs)) (h []) List.prefix_rfl
  obtain ⟨more, hmore⟩ := hprefix
  exact ⟨more, hmore.symm⟩

theorem Reaches.mem_events {callbacks : Callbacks} {hand hand' : Option TickDecodeResult}
    {s r : ChannelState cfg × Effects} (h : Reaches callbacks hand hand' s r) {event : Event}
    (hmem : event ∈ s.2.events) : event ∈ r.2.events := by
  obtain ⟨more, hmore⟩ := h.exists_append
  rw [hmore]
  exact List.mem_append_left more hmem

/-- What `EmitOne` does to the state. -/
theorem emitOne_cases (callbacks : Callbacks) (state : ChannelState cfg) (slot : PendingSlot)
    (fx : Effects) :
    let emitted : ChannelState cfg :=
      { state with
        pendingCount := state.pendingCount - 1
        gapMetadataPending := state.gapMetadataPending && !slot.emit }
    (emitOne callbacks state slot fx =
        (true, emitted, fx.log (.consumed slot (outgoing state slot) true))) ∨
      (slot.emit = true ∧ callbacks.emitTick (outgoing state slot) = false ∧
        emitOne callbacks state slot fx =
          (false, emitted, (fx.log (.consumed slot (outgoing state slot) false)).log
            (.fatal "instrument tick dispatch queue overflow"))) := by
  unfold emitOne
  dsimp only
  split_ifs with h
  · simp only [Bool.and_eq_true, Bool.not_eq_true'] at h
    exact Or.inr ⟨h.1, h.2, rfl⟩
  · exact Or.inl rfl

/-- A pass of the drain that finds nothing at the frontier restarts the gap timer. -/
theorem drainBody_none (callbacks : Callbacks) (now : ℕ) {state : ChannelState cfg} (fx : Effects)
    (h : find state state.expected = none) :
    ∃ gapOpenNs fx', fx'.events = fx.events ∧
      drainBody callbacks now (state, fx) = .done ({ state with gapOpenNs := gapOpenNs }, fx') := by
  refine ⟨if state.pendingCount = 0 then 0 else now, _, ?_, by rw [drainBody, h]⟩
  split_ifs <;> rfl

/-- A pass of the drain that finds a slot at the frontier releases it. -/
theorem drainBody_some (callbacks : Callbacks) (now : ℕ) {state : ChannelState cfg} (fx : Effects)
    {slot : PendingSlot} (h : find state state.expected = some slot) :
    drainBody callbacks now (state, fx) =
        .again (release state slot true, fx.log (.consumed slot (outgoing state slot) true)) ∨
      (slot.emit = true ∧ callbacks.emitTick (outgoing state slot) = false ∧
        drainBody callbacks now (state, fx) =
          .done (release state slot false,
            (fx.log (.consumed slot (outgoing state slot) false)).log
              (.fatal "instrument tick dispatch queue overflow"))) := by
  rcases emitOne_cases callbacks { state with pending := state.pending.erase state.expected } slot
    fx with he | ⟨hemit, hrefused, he⟩
  · exact Or.inl (by rw [drainBody, h]; simp only [he]; rfl)
  · exact Or.inr ⟨hemit, hrefused, by rw [drainBody, h]; simp only [he]; rfl⟩

/-- A drain stops at a refused tick. -/
theorem drainBody_refused {callbacks : Callbacks} (now : ℕ) {state : ChannelState cfg}
    (fx : Effects) {slot : PendingSlot} (h : find state state.expected = some slot)
    (hemit : slot.emit = true) (hrefused : callbacks.emitTick (outgoing state slot) = false) :
    drainBody callbacks now (state, fx) =
      .done (release state slot false,
        (fx.log (.consumed slot (outgoing state slot) false)).log
          (.fatal "instrument tick dispatch queue overflow")) := by
  have hasked : (slot.emit && !callbacks.emitTick (outgoing state slot)) = true := by
    rw [hemit, hrefused]
    rfl
  have hemitted : emitOne callbacks { state with pending := state.pending.erase state.expected }
      slot fx = (false, _, _) := if_pos hasked
  rw [drainBody, h]
  simp only [hemitted]
  rfl

theorem card_pending_le (state : ChannelState cfg) :
    state.pending.card ≤ cfg.entriesPerChannel := by
  simpa using state.pending.card_le

theorem release_steps {callbacks : Callbacks} {state : ChannelState cfg} {slot : PendingSlot}
    {accepted : Bool} (fx : Effects) (hs : state.Active)
    (hf : find state state.expected = some slot)
    (hrefused : accepted = false →
      slot.emit = true ∧ callbacks.emitTick (outgoing state slot) = false)
    (hand : Option TickDecodeResult) :
    Reaches callbacks hand hand (state, fx)
        (release state slot accepted, fx.log (.consumed slot (outgoing state slot) accepted)) ∧
      (release state slot accepted).Active := by
  obtain ⟨held, position⟩ := DirectMapped.find_eq_some_iff.1 hf
  exact ⟨Reaches.log fun _ => .release hs.live hs.active held position hrefused,
    ⟨hs.live, hs.active, sound_release hs.sound hs.active held position⟩⟩

/-- A further pass of the drain releases the record at the frontier. -/
theorem drainBody_steps {callbacks : Callbacks} {now : ℕ} {s s' : ChannelState cfg × Effects}
    (hs : s.1.Active) (hb : drainBody callbacks now s = .again s')
    (hand : Option TickDecodeResult) :
    Reaches callbacks hand hand s s' ∧ s'.1.Active := by
  obtain ⟨state, fx⟩ := s
  rcases hf : find state state.expected with _ | slot
  · obtain ⟨gapOpenNs, fx', -, he⟩ := drainBody_none callbacks now fx hf
    rw [he] at hb
    cases hb
  · rcases drainBody_some callbacks now fx hf with he | ⟨-, -, he⟩
    · obtain rfl := Pass.again.inj (he.symm.trans hb)
      exact release_steps fx hs hf (by simp) hand
    · rw [he] at hb
      cases hb

/-- `DrainContiguous` releases retained records at the frontier until it meets a position
that is not retained or a refused tick. -/
theorem drainContiguous_steps (callbacks : Callbacks) (now : ℕ) (s : ChannelState cfg × Effects)
    (hs : s.1.Active) (hand : Option TickDecodeResult) :
    Reaches callbacks hand hand s (drainContiguous callbacks now s) ∧
      (drainContiguous callbacks now s).1.Ready := by
  refine Loop.run_rel (I := fun s => s.1.Active)
    (R := fun s r => Reaches callbacks hand hand s r ∧ r.1.Ready)
    (fun s s' hst hb => (drainBody_steps hst hb hand).2) ?_
    (fun s s' r hst hb hr => ⟨(drainBody_steps hst hb hand).1.trans hr.1, hr.2⟩) hs
  rintro ⟨state, fx⟩ r hst hb
  cases hf : find state state.expected with
  | none =>
    obtain ⟨g, fx', hfx, he⟩ := drainBody_none callbacks now fx hf
    rw [he] at hb
    cases hb
    refine ⟨Reaches.silent hfx fun _ => .timers, ⟨⟨hst.live, hst.active, ?_⟩, ?_⟩⟩
    · exact ⟨hst.sound.count, hst.sound.inRange, hst.sound.ahead⟩
    · intro slot hslot
      exact lt_of_le_of_ne (hst.sound.ahead hst.active slot hslot)
        (Ne.symm (DirectMapped.find_eq_none_iff.1 hf slot hslot))
  | some slot =>
    obtain ⟨held, position⟩ := DirectMapped.find_eq_some_iff.1 hf
    rcases drainBody_some callbacks now fx hf with he | ⟨hemit, hrefused, he⟩
    · simp [he] at hb
    · rw [he] at hb
      cases hb
      obtain ⟨hr, ha⟩ := release_steps fx hst hf (fun _ => ⟨hemit, hrefused⟩) hand
      refine ⟨hr.trans (Reaches.fatal _ _ _ _ _), ⟨ha, fun slot' h => ?_⟩⟩
      have hlt : state.expected < slot'.nativeSequence :=
        lt_of_mem_release hst.sound hst.active held position h
      exact hlt

/-- The drain frees slots only. -/
theorem card_drainContiguous_le (callbacks : Callbacks) (now : ℕ)
    (s : ChannelState cfg × Effects) :
    (drainContiguous callbacks now s).1.pending.card ≤ s.1.pending.card := by
  refine Loop.run_rel (I := fun _ => True)
    (R := fun s r : ChannelState cfg × Effects => r.1.pending.card ≤ s.1.pending.card)
    (fun _ _ _ _ => trivial) ?_ ?_ trivial
  · rintro ⟨state, fx⟩ r - hb
    cases hf : find state state.expected with
    | none =>
      obtain ⟨g, fx', -, he⟩ := drainBody_none callbacks now fx hf
      rw [he] at hb
      cases hb
      exact le_refl _
    | some slot =>
      obtain ⟨held, position⟩ := DirectMapped.find_eq_some_iff.1 hf
      rcases drainBody_some callbacks now fx hf with he | ⟨-, -, he⟩
      · simp [he] at hb
      · rw [he] at hb
        cases hb
        have hc : (release state slot false).pending.card + 1 = state.pending.card :=
          card_release held position
        show (release state slot false).pending.card ≤ state.pending.card
        omega
  · intro s s' r _ hb hr
    exact le_trans hr (drainBody_again callbacks now s s' hb).le

/-- A drain that starts at a retained record frees its slot, dispatched or refused. -/
theorem card_drainContiguous_lt (callbacks : Callbacks) (now : ℕ) {state : ChannelState cfg}
    (fx : Effects) {slot : PendingSlot} (h : find state state.expected = some slot) :
    (drainContiguous callbacks now (state, fx)).1.pending.card < state.pending.card := by
  obtain ⟨held, position⟩ := DirectMapped.find_eq_some_iff.1 h
  have hc : ∀ ok, (release state slot ok).pending.card + 1 = state.pending.card :=
    fun ok => card_release held position
  rcases drainBody_some callbacks now fx h with he | ⟨-, -, he⟩
  · rw [drainContiguous, Loop.run_again he]
    have hle := card_drainContiguous_le callbacks now
      (release state slot true, fx.log (.consumed slot (outgoing state slot) true))
    have := hc true
    exact Nat.lt_of_le_of_lt hle (by simp only; omega)
  · rw [drainContiguous, Loop.run_done he]
    have := hc false
    simp only
    omega

/-! ## Gaps, discovery and faults -/

/-- With records retained, the minimum is the position of one of them. -/
theorem exists_minimumPending {state : ChannelState cfg} (hs : state.Sound)
    (h : state.pendingCount ≠ 0) :
    ∃ slot ∈ state.pending, slot.nativeSequence = minimumPending state ∧
      ∀ slot' ∈ state.pending, slot.nativeSequence ≤ slot'.nativeSequence := by
  rw [hs.count, Ne, DirectMapped.card_eq_zero_iff] at h
  push Not at h
  obtain ⟨slot', h'⟩ := h
  have hlt : slot'.nativeSequence < uint64Max := by
    have := (hs.inRange slot' h').2
    unfold uint64Max
    omega
  obtain ⟨slot, hslot, hk⟩ := DirectMapped.exists_minimum h' hlt
  refine ⟨slot, hslot, hk, fun slot'' h'' => ?_⟩
  rw [hk]
  exact DirectMapped.minimum_le h'' uint64Max

theorem recordGap_eq {callbacks : Callbacks} (hgap : ∀ gap, callbacks.emitGap gap = true)
    (state : ChannelState cfg) {next : ℕ} (h : state.expected < next) (now : ℕ) (fx : Effects) :
    recordGap callbacks state state.expected (next - 1) next now fx =
      (true, withGap state state.expected (next - 1) next,
        fx.log (.gap (skipRecord state next now) true)) := by
  rw [recordGap, if_neg (by omega)]
  simp only [hgap, if_true]
  rfl

theorem finishDiscovery_eq (callbacks : Callbacks) (now : ℕ) {state : ChannelState cfg}
    (fx : Effects) (hd : state.discovering = true) (hc : state.pendingCount ≠ 0) :
    finishDiscovery callbacks now (state, fx) = drainContiguous callbacks now
      ({ state with discovering := false, expected := minimumPending state },
        fx.log (.origin (minimumPending state))) := by
  simp [finishDiscovery, hd, hc]

theorem active_origin {state : ChannelState cfg} (hs : state.Sound) (live : state.frozen = false)
    (hc : state.pendingCount ≠ 0) :
    ({ state with discovering := false, expected := minimumPending state } :
      ChannelState cfg).Active := by
  obtain ⟨slot, -, hmin, least⟩ := exists_minimumPending hs hc
  exact ⟨live, rfl, ⟨hs.count, hs.inRange, fun _ slot' h => hmin ▸ least slot' h⟩⟩

/-- `FinishDiscovery` on a discovering channel starts at its least record. -/
theorem finishDiscovery_steps (callbacks : Callbacks) (now : ℕ) {state : ChannelState cfg}
    (fx : Effects) (hs : state.Sound) (live : state.frozen = false)
    (hd : state.discovering = true) (hc : state.pendingCount ≠ 0)
    (hand : Option TickDecodeResult) :
    Reaches callbacks hand hand (state, fx) (finishDiscovery callbacks now (state, fx)) ∧
      (finishDiscovery callbacks now (state, fx)).1.Ready := by
  obtain ⟨slot, held, hmin, least⟩ := exists_minimumPending hs hc
  have hfinish : Reaches callbacks hand hand (state, fx)
      ({ state with discovering := false, expected := minimumPending state },
        fx.log (.origin (minimumPending state))) := by
    rw [← hmin]
    exact Reaches.log fun _ => .finish live hd held least
  obtain ⟨hdrain, hready⟩ := drainContiguous_steps callbacks now
    ({ state with discovering := false, expected := minimumPending state },
      fx.log (.origin (minimumPending state))) (active_origin hs live hc) hand
  rw [finishDiscovery_eq callbacks now fx hd hc]
  exact ⟨hfinish.trans hdrain, hready⟩

/-- With records retained, `ForceGapToMinimum` commits the gap below the least of them and
drains from it. -/
theorem forceGapToMinimum_eq {callbacks : Callbacks} (hgap : ∀ gap, callbacks.emitGap gap = true)
    (now : ℕ) {state : ChannelState cfg} (fx : Effects) (hs : state.Ready)
    (hc : state.pendingCount ≠ 0) :
    forceGapToMinimum callbacks now (state, fx) = drainContiguous callbacks now
      (skipTo state (minimumPending state),
        fx.log (.gap (skipRecord state (minimumPending state) now) true)) := by
  obtain ⟨slot, held, hmin, -⟩ := exists_minimumPending hs.sound hc
  have hlt : state.expected < minimumPending state := hmin ▸ hs.settled slot held
  simp only [forceGapToMinimum, if_neg hc, if_pos hlt, recordGap_eq hgap state hlt,
    Bool.not_true, Bool.false_eq_true, if_false]
  rfl

theorem active_skipTo {state : ChannelState cfg} (hs : state.Active) {next : ℕ}
    (least : ∀ slot ∈ state.pending, next ≤ slot.nativeSequence) : (skipTo state next).Active :=
  ⟨hs.live, hs.active, ⟨hs.sound.count, hs.sound.inRange, fun _ => least⟩⟩

theorem active_skipTo_minimum {state : ChannelState cfg} (hs : state.Active)
    (hc : state.pendingCount ≠ 0) : (skipTo state (minimumPending state)).Active := by
  obtain ⟨slot, -, hmin, least⟩ := exists_minimumPending hs.sound hc
  exact active_skipTo hs (hmin ▸ least)

theorem forceGapToMinimum_steps {callbacks : Callbacks}
    (hgap : ∀ gap, callbacks.emitGap gap = true) (now : ℕ) {state : ChannelState cfg}
    (fx : Effects) (hs : state.Ready) (hand : Option TickDecodeResult)
    (hwithin : ∀ r, hand = some r → minimumPending state ≤ r.nativeSequence) :
    Reaches callbacks hand hand (state, fx) (forceGapToMinimum callbacks now (state, fx)) ∧
      (forceGapToMinimum callbacks now (state, fx)).1.Ready := by
  by_cases hc : state.pendingCount = 0
  · simp only [forceGapToMinimum, if_pos hc]
    exact ⟨Reaches.silent rfl fun _ => .timers,
      ⟨⟨hs.live, hs.active, ⟨hs.sound.count, hs.sound.inRange, hs.sound.ahead⟩⟩, hs.settled⟩⟩
  · obtain ⟨slot, held, hmin, least⟩ := exists_minimumPending hs.sound hc
    rw [hmin] at least
    have hlt : state.expected < minimumPending state := hmin ▸ hs.settled slot held
    obtain ⟨hdrain, hready⟩ := drainContiguous_steps callbacks now
      (skipTo state (minimumPending state),
        fx.log (.gap (skipRecord state (minimumPending state) now) true))
      (active_skipTo_minimum hs.toActive hc) hand
    rw [forceGapToMinimum_eq hgap now fx hs hc]
    refine ⟨Reaches.trans (Reaches.log fun _ => ?_) hdrain, hready⟩
    exact .skip hs.live hs.active hlt least hwithin (Or.inl ⟨slot, held, hmin⟩)

/-- `ForceGapToMinimum` on a nonempty table removes the retained minimum. -/
theorem card_forceGapToMinimum_lt {callbacks : Callbacks}
    (hgap : ∀ gap, callbacks.emitGap gap = true) (now : ℕ) {state : ChannelState cfg}
    (fx : Effects) (hs : state.Ready) (hc : state.pendingCount ≠ 0) :
    (forceGapToMinimum callbacks now (state, fx)).1.pending.card < state.pending.card := by
  obtain ⟨slot, held, hmin, -⟩ := exists_minimumPending hs.sound hc
  have hf : find (skipTo state (minimumPending state))
      (skipTo state (minimumPending state)).expected = some slot :=
    DirectMapped.find_eq_some_iff.2 ⟨held, hmin⟩
  rw [forceGapToMinimum_eq hgap now fx hs hc]
  exact card_drainContiguous_lt callbacks now _ hf

theorem divertLateRecovery_steps (callbacks : Callbacks) {state : ChannelState cfg}
    {decoded : TickDecodeResult} {reason : LateRecoveryReason} (fx : Effects)
    (live : state.frozen = false) (why : LateReason state decoded reason) :
    Reaches callbacks (some decoded) none (state, fx)
      (state, divertLateRecovery callbacks state decoded reason fx) := by
  unfold divertLateRecovery
  dsimp only
  split_ifs with h
  · exact Reaches.log fun _ => .divert live why h
  · exact Reaches.trans (Reaches.log fun _ => .divert live why (by simpa using h))
      (Reaches.fatal _ _ _ _ _)

theorem freezeFromOpen_steps (callbacks : Callbacks) {state : ChannelState cfg}
    {hand : Option TickDecodeResult} {reason : ChannelFaultReason} {sequence : ℕ} (now : ℕ)
    (fx : Effects) (live : state.frozen = false) (mode : cfg.mode = .kFromOpen)
    (why : FaultReason state hand sequence reason) :
    Reaches callbacks hand none (state, fx)
      (freezeFromOpen callbacks state reason sequence now fx) := by
  unfold freezeFromOpen
  rw [live, if_neg Bool.false_ne_true]
  dsimp only
  split_ifs with h
  · exact Reaches.log fun _ => .freeze live mode why h
  · exact Reaches.trans (Reaches.log fun _ => .freeze live mode why (by simpa using h))
      (Reaches.fatal _ _ _ _ _)

/-- What `Insert` finds in the record's slot. -/
theorem insert_cases (state : ChannelState cfg) (decoded : TickDecodeResult) :
    (state.pending.occupant decoded.nativeSequence = none ∧
        insert state decoded = (.kInserted, retain state (slotOf decoded))) ∨
      ∃ slot, state.pending.occupant decoded.nativeSequence = some slot ∧
        ((slot.nativeSequence ≠ decoded.nativeSequence ∧
            insert state decoded = (.kCollision, state)) ∨
          (slot.nativeSequence = decoded.nativeSequence ∧ SameRecord slot decoded ∧
            insert state decoded = (.kDuplicate, state)) ∨
          (slot.nativeSequence = decoded.nativeSequence ∧ ¬SameRecord slot decoded ∧
            insert state decoded = (.kConflict, state))) := by
  unfold insert
  cases ho : state.pending.occupant decoded.nativeSequence with
  | none => exact Or.inl ⟨rfl, rfl⟩
  | some slot =>
    refine Or.inr ⟨slot, rfl, ?_⟩
    dsimp only
    split_ifs with hne heq
    · exact Or.inl ⟨hne, rfl⟩
    · simp only [Bool.and_eq_true, beq_iff_eq] at heq
      exact Or.inr (Or.inl ⟨not_not.1 hne, heq, rfl⟩)
    · simp only [Bool.and_eq_true, beq_iff_eq] at heq
      exact Or.inr (Or.inr ⟨not_not.1 hne, heq, rfl⟩)

end SequenceRecovery

end L2Flow
