import Mathlib.Order.Bounds.Basic
import L2Flow.Retry

/-!
# Freezing

`FreezeFromOpen` is called in two places : when a record differs from the one retained at
its position, and by `FreezeDecodeFailure`. `channelStep_live` and `channelStep_frozen` go
through the four calls once : on a channel that is not frozen a call reports no fault or
freezes it and does nothing else; on a frozen channel it does nothing. So a channel has one
fault at most, made in the call that froze it (`run_freezes`).
-/

namespace L2Flow

variable {cfg : RecoveryConfig}

namespace SequenceRecovery

/-! ## One call -/

/-- Why a call freezes the channel, and the fault that it reports. -/
def Faults (state : ChannelState cfg) (fault : ChannelFault) : ChannelCall → Prop
  | .process decoded now =>
    (∃ slot ∈ state.pending, slot.nativeSequence = decoded.nativeSequence ∧
      ¬SameRecord slot decoded.toTickDecodeResult) ∧
      fault = faultRecord state .kCanonicalConflict decoded.nativeSequence now
  | .freezeDecodeFailure sequence now => fault = faultRecord state .kDecodeFailure sequence now
  | _ => False

/-- The call reported no fault, and the channel is not frozen. -/
def Spared (r : ChannelState cfg × Effects) : Prop :=
  r.1.frozen = false ∧ faultsOf r.2.events = []

/-- The call froze the channel, and did nothing else. -/
def Froze (state : ChannelState cfg) (fault : ChannelFault) (r : ChannelState cfg × Effects) :
    Prop :=
  r.1 = { state with frozen := true } ∧ r.2.events = [.fault fault true]

theorem Advancing.spared {r : ChannelState cfg × Effects} (h : Advancing r.2.events)
    (live : r.1.frozen = false) : Spared r :=
  ⟨live, h.nothing_else.2.2⟩

theorem freezeFromOpen_froze {state : ChannelState cfg} (live : state.frozen = false)
    (reason : ChannelFaultReason) (sequence now : ℕ) :
    Froze state (faultRecord state reason sequence now)
      (freezeFromOpen .succeed state reason sequence now {}) := by
  rw [freezeFromOpen, live]
  exact ⟨rfl, rfl⟩

/-- The first pass tells a conflict from everything else, and no later pass meets one : what
the loop frees is not at the position of the record. -/
theorem processActive_freezes {decoded : TickDecodeResult} (hr : InRange decoded.nativeSequence)
    {now : ℕ} {state : ChannelState cfg} {r : ChannelState cfg × Effects} (hs : state.Ready)
    (h : processActive .succeed decoded now (state, {}) = some r) :
    Spared r ∨
      cfg.mode = .kFromOpen ∧
        (∃ slot ∈ state.pending, slot.nativeSequence = decoded.nativeSequence ∧
          ¬SameRecord slot decoded) ∧
        Froze state (faultRecord state .kCanonicalConflict decoded.nativeSequence now) r := by
  rcases Nat.lt_or_ge decoded.nativeSequence state.expected with hlt | hle
  · rw [processActive, passes, Loop.iterate_done (activeBody_behind hlt)] at h
    obtain rfl := Option.some.inj h
    exact Or.inl ⟨hs.live, rfl⟩
  by_cases halone : ∀ slot ∈ state.pending, slot.nativeSequence ≠ decoded.nativeSequence
  · obtain ⟨hadvancing, live⟩ :=
      advancing_processActive hr hs ⟨hs.active, hle, halone⟩ advancing_nil h
    exact Or.inl (hadvancing.spared live)
  · push Not at halone
    obtain ⟨slot, held, position⟩ := halone
    rcases processActive_retained hs held position h with ⟨-, rfl⟩ | ⟨hdiff, rfl⟩
    · exact Or.inl ⟨hs.live, rfl⟩
    · split_ifs with hmode
      · exact Or.inr ⟨hmode, ⟨slot, held, position, hdiff⟩, freezeFromOpen_froze hs.live _ _ _⟩
      · exact Or.inl ⟨hs.live, rfl⟩

/-- In PARTIAL mode nothing freezes. -/
theorem Reaches.spared_of_mode {hand hand' : Option TickDecodeResult} {state : ChannelState cfg}
    {r : ChannelState cfg × Effects} (h : Reaches .succeed hand hand' (state, {}) r)
    (mode : cfg.mode = .kPartial) (live : state.frozen = false) : Spared r := by
  refine Steps.keep (I := fun c => c.state.frozen = false ∧ faultsOf c.events = []) ?_ (h [])
    ⟨live, rfl⟩
  rintro c c' hstep ⟨hlive, hfaults⟩
  have hlog : ∀ event, faultsOf [event] = [] → faultsOf (c.events ++ [event]) = [] := by
    intro event hevent
    rw [faultsOf, List.filterMap_append]
    exact List.append_eq_nil_iff.2 ⟨hfaults, hevent⟩
  rcases hstep with _ | _ | _ | _ | ⟨-, hmode, -, -⟩ | _ | _ | _ | _ | _ | _
  case freeze =>
    rw [mode] at hmode
    cases hmode
  case drop => exact ⟨hlive, hfaults⟩
  case retain => exact ⟨hlive, hfaults⟩
  case timers => exact ⟨hlive, hfaults⟩
  all_goals exact ⟨hlive, hlog _ rfl⟩

theorem processChannel_freezes {decoded : DecodedTick} {now : ℕ} {state : ChannelState cfg}
    {r : ChannelState cfg × Effects} (hs : state.Resting) (live : state.frozen = false)
    (h : processChannel .succeed decoded.toTickDecodeResult now state = some r) :
    Spared r ∨ cfg.mode = .kFromOpen ∧ ∃ fault, Faults state fault (.process decoded now) ∧
      Froze state fault r := by
  have hr := DecodedTick.inRange decoded
  rcases Bool.eq_false_or_eq_true state.discovering with hd | hd
  · exact Or.inl ((processChannel_steps (fun _ => rfl) hr hs h).1.spared_of_mode
      (hs.discovering_mode hd) live)
  · rw [processChannel_active live hd] at h
    refine (processActive_freezes hr (hs.ready live hd) h).imp_right ?_
    rintro ⟨mode, hwhy, hfroze⟩
    exact ⟨mode, _, ⟨hwhy, rfl⟩, hfroze⟩

theorem pollChannel_spared (now : ℕ) {state : ChannelState cfg} (hs : state.Idle)
    (live : state.frozen = false) : Spared (pollChannel .succeed now state) := by
  generalize hturn : pollChannel .succeed now state = r
  cases pollTurn hturn with
  | ended live nonempty discovering =>
    exact (finishDiscovery_steps .succeed now {} hs.sound live discovering
      nonempty none).1.spared_of_mode (hs.discovering_mode discovering) live
  | forced live nonempty active =>
    have hready := hs.ready live active
    exact (advancing_forceGap now hready advancing_nil).spared (live_forceGap now {} hready)
  | _ => exact ⟨live, rfl⟩

theorem flushChannel_spared {now : ℕ} {state : ChannelState cfg} {r : ChannelState cfg × Effects}
    (hs : state.Idle) (live : state.frozen = false)
    (h : flushChannel .succeed now state = some r) : Spared r := by
  obtain ⟨hadv, hready, -⟩ := flushChannel_keep (fun _ => rfl) hs live h
    (I := fun s => Advancing s.2.events) (fun _ => advancing_nil)
    (fun _ => advancing_finishDiscovery now advancing_nil)
    fun s _ hready _ hadv => advancing_forceGap now hready hadv
  exact hadv.spared hready.live

/-- On a channel that is not frozen, a call reports no fault, or freezes it and does nothing
else. -/
theorem channelStep_live {key : ChannelKey} {channel channel' : Option (ChannelState cfg)}
    {op : ChannelCall} {fx : Effects} (hp : Placed key channel)
    (h : channelStep .succeed key channel op = some (channel', fx))
    (live : (stateD key channel).frozen = false) :
    Spared (stateD key channel', fx) ∨ cfg.mode = .kFromOpen ∧ ∃ fault,
      Faults (stateD key channel) fault op ∧
        Froze (stateD key channel) fault (stateD key channel', fx) := by
  cases channelTurn h with
  | process turn => exact processChannel_freezes hp.resting.1 live turn
  | absent => exact Or.inl ⟨live, rfl⟩
  | poll present =>
    subst present
    exact Or.inl (pollChannel_spared _ (hp _ rfl).1 live)
  | flush present turn =>
    subst present
    exact Or.inl (flushChannel_spared (hp _ rfl).1 live turn)
  | ignored => exact Or.inl ⟨live, rfl⟩
  | freeze mode => exact Or.inr ⟨mode, _, rfl, freezeFromOpen_froze live _ _ _⟩

/-- On a frozen channel, a call does nothing. -/
theorem channelStep_frozen {key : ChannelKey} {channel channel' : Option (ChannelState cfg)}
    {op : ChannelCall} {fx : Effects}
    (h : channelStep .succeed key channel op = some (channel', fx))
    (frozen : (stateD key channel).frozen = true) : channel' = channel ∧ fx.events = [] := by
  rcases channel with - | state
  · cases frozen
  have hf : state.frozen = true := frozen
  cases channelTurn h with
  | process turn =>
    rw [processChannel, frozen, if_pos rfl] at turn
    obtain rfl := Option.some.inj turn
    exact ⟨rfl, rfl⟩
  | absent => exact ⟨rfl, rfl⟩
  | poll present =>
    obtain rfl := Option.some.inj present
    rw [pollChannel, hf]
    exact ⟨rfl, rfl⟩
  | flush present turn =>
    obtain rfl := Option.some.inj present
    obtain rfl := flushChannel_frozen hf turn
    exact ⟨rfl, rfl⟩
  | ignored => exact ⟨rfl, rfl⟩
  | freeze =>
    rw [freezeChannel, freezeFromOpen, frozen, if_pos rfl]
    exact ⟨rfl, rfl⟩

/-! ## One call of a lane -/

/-- The channel is frozen. One that is not in use is not. -/
def Frozen (lane : SequenceRecovery cfg) (key : ChannelKey) : Prop :=
  (stateD key (lane.stateOf key)).frozen = true

/-- On a frozen channel, no call of the lane does anything. -/
theorem step_absorbed {lane lane' : SequenceRecovery cfg} (hv : lane.Valid) {call : Call}
    {added : Trace} (h : step (fun _ => .succeed) lane call = some (lane', added))
    {key : ChannelKey} (frozen : Frozen lane key) :
    lane'.stateOf key = lane.stateOf key ∧ added.of key = [] := by
  rcases (step_turned (fun _ _ => rfl) hv h).2 with
    ⟨now, -, -, rfl, rfl⟩ | ⟨key', -, -, -, rfl, silent⟩ | ⟨fx, apart, turn, -⟩
  · exact ⟨rfl, rfl⟩
  · exact ⟨rfl, silent key⟩
  · rcases hon : call.on key with - | op
    · exact ⟨(apart key hon).1, (apart key hon).2.1⟩
    · obtain ⟨slot, hturn, hadded⟩ := turn key op hon
      rw [hadded]
      exact channelStep_frozen hturn frozen

/-- What a call of the lane does that freezes a channel. -/
structure FreezesAt (lane lane' : SequenceRecovery cfg) (call : Call) (added : Trace)
    (key : ChannelKey) (fault : ChannelFault) : Prop where
  mode : cfg.mode = .kFromOpen
  cause : ∃ op, call.on key = some op ∧ Faults (stateD key (lane.stateOf key)) fault op
  only : added.of key = [.fault fault true]
  still : stateD key (lane'.stateOf key) = { stateD key (lane.stateOf key) with frozen := true }

/-- A call of the lane reports no fault of a channel that is not frozen, or freezes it. -/
theorem step_freezes {lane lane' : SequenceRecovery cfg} (hv : lane.Valid) {call : Call}
    {added : Trace} (h : step (fun _ => .succeed) lane call = some (lane', added))
    {key : ChannelKey} (live : ¬Frozen lane key) :
    ¬Frozen lane' key ∧ faultsOf (added.of key) = [] ∨
      ∃ fault, FreezesAt lane lane' call added key fault := by
  rcases (step_turned (fun _ _ => rfl) hv h).2 with
    ⟨now, -, -, rfl, rfl⟩ | ⟨key', -, -, -, rfl, silent⟩ | ⟨fx, apart, turn, -⟩
  · exact Or.inl ⟨live, rfl⟩
  · rw [silent key]
    exact Or.inl ⟨live, rfl⟩
  · rcases hon : call.on key with - | op
    · obtain ⟨hsame, hsilent, -⟩ := apart key hon
      rw [Frozen, hsame, hsilent]
      exact Or.inl ⟨live, rfl⟩
    · obtain ⟨slot, hturn, hadded⟩ := turn key op hon
      rw [hadded]
      rcases channelStep_live (hv.placed key) hturn (Bool.eq_false_iff.2 live) with
        ⟨hlive, hfaults⟩ | ⟨mode, fault, hcause, hstill, hevents⟩
      · exact Or.inl ⟨Bool.eq_false_iff.1 hlive, hfaults⟩
      · exact Or.inr ⟨fault, mode, ⟨op, hon, hcause⟩, hadded.trans hevents, hstill⟩

theorem FreezesAt.frozen {lane lane' : SequenceRecovery cfg} {call : Call} {added : Trace}
    {key : ChannelKey} {fault : ChannelFault} (h : FreezesAt lane lane' call added key fault) :
    Frozen lane' key := by
  rw [Frozen, h.still]

/-! ## Runs -/

/-- Once a channel is frozen, the rest of the run leaves it alone. -/
theorem run_absorbed {calls rest : List Call} {lane lane' : SequenceRecovery cfg}
    {trace trace' : Trace} {key : ChannelKey} (h : run cfg calls = some (lane, trace))
    (frozen : Frozen lane key) (h' : run cfg (calls ++ rest) = some (lane', trace')) :
    lane'.stateOf key = lane.stateOf key ∧ trace'.of key = trace.of key := by
  induction rest using List.reverseRecOn generalizing lane' trace' with
  | nil =>
    rw [List.append_nil, h] at h'
    obtain ⟨rfl, rfl⟩ := Prod.mk.inj (Option.some.inj h')
    exact ⟨rfl, rfl⟩
  | append_singleton rest call ih =>
    rw [← List.append_assoc] at h'
    obtain ⟨lane₁, trace₁, added, hrun, hstep, rfl⟩ := run_snoc.1 h'
    obtain ⟨hstate, htrace⟩ := ih hrun
    have hfrozen : Frozen lane₁ key := by rwa [Frozen, hstate]
    obtain ⟨hstate', hadded⟩ := step_absorbed (valid_of_run hrun) hstep hfrozen
    rw [Trace.of_append, hadded, List.append_nil]
    exact ⟨hstate'.trans hstate, htrace⟩

/-- The call that leaves a channel frozen is the last that does anything on it. -/
theorem run_after_freeze {before after : List Call} {call : Call}
    {lane₀ lane₁ lane : SequenceRecovery cfg} {trace₀ added trace : Trace} {key : ChannelKey}
    (hbefore : run cfg before = some (lane₀, trace₀))
    (hcall : step (fun _ => .succeed) lane₀ call = some (lane₁, added)) (frozen : Frozen lane₁ key)
    (h : run cfg (before ++ call :: after) = some (lane, trace)) :
    lane.stateOf key = lane₁.stateOf key ∧ trace.of key = trace₀.of key ++ added.of key := by
  have hrun : run cfg (before ++ [call]) = some (lane₁, trace₀ ++ added) :=
    run_snoc.2 ⟨lane₀, trace₀, added, hbefore, hcall, rfl⟩
  rw [← List.singleton_append, ← List.append_assoc] at h
  rw [← Trace.of_append]
  exact run_absorbed hrun frozen h

/-- A channel has reported no fault, or a call of the run has frozen it. -/
theorem run_faults {calls : List Call} {lane : SequenceRecovery cfg} {trace : Trace}
    (h : run cfg calls = some (lane, trace)) (key : ChannelKey) :
    ¬Frozen lane key ∧ faultsOf (trace.of key) = [] ∨
      ∃ before call after lane₀ trace₀ lane₁ added fault, calls = before ++ call :: after ∧
        run cfg before = some (lane₀, trace₀) ∧
        step (fun _ => .succeed) lane₀ call = some (lane₁, added) ∧
        ¬Frozen lane₀ key ∧ faultsOf (trace₀.of key) = [] ∧
        FreezesAt lane₀ lane₁ call added key fault := by
  induction calls using List.reverseRecOn generalizing lane trace with
  | nil =>
    obtain ⟨rfl, rfl⟩ := Prod.mk.inj (Option.some.inj h)
    exact Or.inl ⟨Bool.false_ne_true, rfl⟩
  | append_singleton calls call ih =>
    obtain ⟨lane₀, trace₀, added, hrun, hstep, rfl⟩ := run_snoc.1 h
    rcases ih hrun with
      ⟨live, hfaults⟩ | ⟨before, call', after, l, t, l', a, fault, rfl, hmoment⟩
    · rcases step_freezes (valid_of_run hrun) hstep live with ⟨hlive, hnew⟩ | ⟨fault, hfreezes⟩
      · rw [Trace.of_append, faultsOf, List.filterMap_append]
        exact Or.inl ⟨hlive, List.append_eq_nil_iff.2 ⟨hfaults, hnew⟩⟩
      · exact Or.inr ⟨calls, call, [], lane₀, trace₀, lane, added, fault, rfl, hrun, hstep, live,
          hfaults, hfreezes⟩
    · refine Or.inr ⟨before, call', after ++ [call], l, t, l', a, fault, ?_, hmoment⟩
      rw [List.append_assoc, List.cons_append]

/-- The native positions that the channel has neither consumed nor reported missing. -/
def outstanding (events : List Event) : Set ℕ :=
  {n | 0 < n ∧ n ∉ consumedOf events ∧ ∀ r ∈ gapRanges events, ¬(r.1 ≤ n ∧ n ≤ r.2)}

/-- In FROM_OPEN mode the frontier is the least of them. -/
theorem isLeast_outstanding {calls : List Call} {lane : SequenceRecovery cfg} {trace : Trace}
    (h : run cfg calls = some (lane, trace)) (mode : cfg.mode = .kFromOpen) (key : ChannelKey) :
    IsLeast (outstanding (trace.of key)) (stateD key (lane.stateOf key)).expected := by
  have hactive : (stateD key (lane.stateOf key)).discovering = false := by
    refine Bool.eq_false_iff.2 fun hd => ?_
    have hpartial := ((valid_of_run h).placed key).resting.1.discovering_mode hd
    rw [mode] at hpartial
    cases hpartial
  obtain ⟨origin, horigin, hle, hpart⟩ := (tiled_of_run h key).partitioned hactive
  rw [HasOrigin, mode] at horigin
  obtain rfl : origin = 1 := horigin
  refine ⟨⟨hle, fun hmem => ?_, fun r hr hin => ?_⟩, fun n houtstanding => ?_⟩
  · exact lt_irrefl _ (hpart.lt_of_mem hmem)
  · exact lt_irrefl _ (hin.2.trans_lt (hpart.range_lt hr))
  · obtain ⟨hpos, hnot, hranges⟩ := houtstanding
    by_contra hlt
    rcases (hpart.covers n).1 ⟨hpos, not_le.1 hlt⟩ with hmem | ⟨r, hr, hin⟩
    · exact hnot hmem
    · exact hranges r hr hin

theorem Faults.expected {state : ChannelState cfg} {fault : ChannelFault} {op : ChannelCall}
    (h : Faults state fault op) :
    fault.expectedSequence = state.expected ∧ fault.market = state.key.market ∧
      fault.channel = state.key.channel := by
  rcases op with ⟨decoded, now⟩ | now | now | ⟨sequence, now⟩
  · obtain ⟨-, rfl⟩ := h
    exact ⟨rfl, rfl, rfl⟩
  · cases h
  · cases h
  · obtain rfl : fault = _ := h
    exact ⟨rfl, rfl, rfl⟩

/-- In every run whose callbacks succeed, a channel that is not frozen has reported no fault.
A call freezes it only in FROM_OPEN mode, for a record that differs from the one retained at
its position or as `FreezeDecodeFailure`; it reports one fault and nothing else, whose expected
position is the least one outstanding; and no later call does anything on the channel. -/
theorem run_freezes (cfg : RecoveryConfig) (calls : List Call) (key : ChannelKey) :
    ∃ lane trace, run cfg calls = some (lane, trace) ∧
      (¬Frozen lane key → faultsOf (trace.of key) = []) ∧
      (Frozen lane key → ∃ fault, faultsOf (trace.of key) = [fault] ∧
        fault.market = key.market ∧ fault.channel = key.channel) ∧
      ∀ before call after lane₀ trace₀ lane₁ added, calls = before ++ call :: after →
        run cfg before = some (lane₀, trace₀) →
        step (fun _ => .succeed) lane₀ call = some (lane₁, added) →
        (Frozen lane₀ key →
          lane.stateOf key = lane₀.stateOf key ∧ trace.of key = trace₀.of key) ∧
        (¬Frozen lane₀ key → Frozen lane₁ key →
          cfg.mode = .kFromOpen ∧ ∃ fault,
            (∃ op, call.on key = some op ∧ Faults (stateD key (lane₀.stateOf key)) fault op) ∧
            IsLeast (outstanding (trace₀.of key)) fault.expectedSequence ∧
            added.of key = [.fault fault true] ∧
            lane.stateOf key = lane₁.stateOf key ∧
            trace.of key = trace₀.of key ++ [.fault fault true]) := by
  obtain ⟨lane, trace, h⟩ := exists_run cfg calls
  refine ⟨lane, trace, h, fun live => ?_, fun frozen => ?_,
    fun before call after lane₀ trace₀ lane₁ added hcalls hbefore hcall => ⟨fun frozen => ?_,
      fun live frozen => ?_⟩⟩
  · rcases run_faults h key with ⟨-, hnone⟩ | ⟨before, call, after, lane₀, trace₀, lane₁, added,
      fault, rfl, hbefore, hcall, -, -, hfreezes⟩
    · exact hnone
    · obtain ⟨hstate, -⟩ := run_after_freeze hbefore hcall hfreezes.frozen h
      rw [Frozen, hstate] at live
      exact absurd hfreezes.frozen live
  · rcases run_faults h key with ⟨live, -⟩ | ⟨before, call, after, lane₀, trace₀, lane₁, added,
      fault, rfl, hbefore, hcall, -, hnone, hfreezes⟩
    · exact absurd frozen live
    · obtain ⟨-, htrace⟩ := run_after_freeze hbefore hcall hfreezes.frozen h
      obtain ⟨op, -, hcause⟩ := hfreezes.cause
      obtain ⟨-, hmarket, hchannel⟩ := hcause.expected
      rw [((valid_of_run hbefore).placed key).resting.2] at hmarket hchannel
      refine ⟨fault, ?_, hmarket, hchannel⟩
      rw [htrace, hfreezes.only, faultsOf, List.filterMap_append]
      exact congrArg (· ++ [fault]) hnone
  · rw [hcalls] at h
    exact run_absorbed hbefore frozen h
  · rcases step_freezes (valid_of_run hbefore) hcall live with ⟨hlive, -⟩ | ⟨fault, hfreezes⟩
    · exact absurd frozen hlive
    · rw [hcalls] at h
      obtain ⟨hstate, htrace⟩ := run_after_freeze hbefore hcall frozen h
      obtain ⟨op, -, hcause⟩ := hfreezes.cause
      refine ⟨hfreezes.mode, fault, hfreezes.cause, ?_, hfreezes.only, hstate, ?_⟩
      · rw [hcause.expected.1]
        exact isLeast_outstanding hbefore hfreezes.mode key
      · rw [htrace, hfreezes.only]

end SequenceRecovery

end L2Flow
