import L2Flow.Turns

/-!
# Runs of a lane

A run makes its calls in order, from construction. Every run ends (`exists_runWith`) in a
valid lane (`valid_of_runWith`), provided that the gap mailbox takes every gap, which is
the one callback that cannot fail.

`runWith_keep_of` is the rule all invariants of runs are proved by : what holds of a channel
before its first record, survives taking up a record, and is kept by the primitive steps,
holds of the channel's state and events after every run. The records that the channel
received are among the data of the invariant.
-/

namespace L2Flow

variable {cfg : RecoveryConfig}

namespace SequenceRecovery

/-- `PublishGap` takes every gap. -/
def GapsTaken (calls : List (Call × LaneCallbacks)) : Prop :=
  ∀ c ∈ calls, ∀ slot gap, (c.2 slot).emitGap gap = true

theorem gapsTaken_succeed (calls : List Call) :
    GapsTaken (calls.map fun call => (call, fun _ => .succeed)) := by
  intro c hc slot gap
  obtain ⟨call, -, rfl⟩ := List.mem_map.1 hc
  rfl

/-- The callbacks of a lane whose channels share them. -/
def shared (calls : List (Call × Callbacks)) : List (Call × LaneCallbacks) :=
  calls.map fun c => (c.1, fun _ => c.2)

theorem gapsTaken_shared {calls : List (Call × Callbacks)}
    (h : ∀ c ∈ calls, ∀ gap, c.2.emitGap gap = true) : GapsTaken (shared calls) := by
  intro c hc slot gap
  obtain ⟨c', hc', rfl⟩ := List.mem_map.1 hc
  exact h c' hc' gap

theorem shared_append (calls rest : List (Call × Callbacks)) :
    shared (calls ++ rest) = shared calls ++ shared rest :=
  List.map_append

theorem GapsTaken.left {calls rest : List (Call × LaneCallbacks)}
    (h : GapsTaken (calls ++ rest)) : GapsTaken calls :=
  fun c hc => h c (List.mem_append_left rest hc)

theorem GapsTaken.last {calls : List (Call × LaneCallbacks)} {call : Call}
    {callbacks : LaneCallbacks} (h : GapsTaken (calls ++ [(call, callbacks)])) :
    ∀ slot gap, (callbacks slot).emitGap gap = true :=
  h (call, callbacks) (by simp)

/-! ## The last call of a run -/

theorem runFrom_snoc (calls : List (Call × LaneCallbacks)) (call : Call)
    (callbacks : LaneCallbacks) : ∀ (lane : SequenceRecovery cfg),
    runFrom lane (calls ++ [(call, callbacks)]) =
      (runFrom lane calls).bind fun r =>
        (step callbacks r.1 call).map fun s => (s.1, r.2 ++ s.2) := by
  induction calls with
  | nil =>
    intro lane
    simp only [List.nil_append, runFrom, Option.bind_some]
    cases step callbacks lane call with
    | none => rfl
    | some s => simp
  | cons first calls ih =>
    intro lane
    rw [List.cons_append, runFrom, runFrom]
    cases step first.2 lane first.1 with
    | none => rfl
    | some s =>
      simp only [ih]
      cases runFrom s.1 calls with
      | none => rfl
      | some r =>
        simp only [Option.bind_some]
        cases step callbacks r.1 call with
        | none => rfl
        | some t => simp

theorem runWith_snoc {calls : List (Call × LaneCallbacks)} {call : Call}
    {callbacks : LaneCallbacks} {lane' : SequenceRecovery cfg} {trace' : Trace} :
    runWith cfg (calls ++ [(call, callbacks)]) = some (lane', trace') ↔
      ∃ lane trace added, runWith cfg calls = some (lane, trace) ∧
        step callbacks lane call = some (lane', added) ∧ trace' = trace ++ added := by
  rw [runWith, runFrom_snoc, Option.bind_eq_some_iff]
  constructor
  · rintro ⟨⟨lane, trace⟩, hrun, hmap⟩
    obtain ⟨⟨lane', added⟩, hstep, he⟩ := Option.map_eq_some_iff.1 hmap
    cases he
    exact ⟨lane, trace, added, hrun, hstep, rfl⟩
  · rintro ⟨lane, trace, added, hrun, hstep, rfl⟩
    exact ⟨(lane, trace), hrun, by rw [hstep]; rfl⟩

/-- The lane is valid after every run. -/
theorem valid_of_runWith {calls : List (Call × LaneCallbacks)} (hgap : GapsTaken calls)
    {lane : SequenceRecovery cfg} {trace : Trace} (h : runWith cfg calls = some (lane, trace)) :
    lane.Valid := by
  induction calls using List.reverseRecOn generalizing lane trace with
  | nil =>
    cases h
    exact valid_init cfg
  | append_singleton calls c ih =>
    obtain ⟨lane', trace', added, hrun, hstep, -⟩ := runWith_snoc.1 h
    exact (step_turned hgap.last (ih hgap.left hrun) hstep).1

/-- Every run ends. -/
theorem exists_runWith (calls : List (Call × LaneCallbacks)) (hgap : GapsTaken calls) :
    ∃ lane trace, runWith cfg calls = some (lane, trace) := by
  induction calls using List.reverseRecOn with
  | nil => exact ⟨init cfg, [], rfl⟩
  | append_singleton calls c ih =>
    obtain ⟨lane, trace, hrun⟩ := ih hgap.left
    obtain ⟨⟨lane', added⟩, hstep⟩ := exists_step hgap.last (valid_of_runWith hgap.left hrun) c.1
    exact ⟨lane', trace ++ added, runWith_snoc.2 ⟨lane, trace, added, hrun, hstep, rfl⟩⟩

theorem exists_step_succeed {lane : SequenceRecovery cfg} (hv : lane.Valid) (call : Call) :
    ∃ lane' added, step (fun _ => .succeed) lane call = some (lane', added) := by
  have hgap : ∀ slot gap, ((fun _ : ℕ => Callbacks.succeed) slot).emitGap gap = true :=
    fun _ _ => rfl
  obtain ⟨⟨lane', added⟩, hstep⟩ := exists_step hgap hv call
  exact ⟨lane', added, hstep⟩

theorem exists_run (cfg : RecoveryConfig) (calls : List Call) :
    ∃ lane trace, run cfg calls = some (lane, trace) :=
  exists_runWith _ (gapsTaken_succeed calls)

theorem run_snoc {calls : List Call} {call : Call} {lane' : SequenceRecovery cfg}
    {trace' : Trace} :
    run cfg (calls ++ [call]) = some (lane', trace') ↔
      ∃ lane trace added, run cfg calls = some (lane, trace) ∧
        step (fun _ => .succeed) lane call = some (lane', added) ∧ trace' = trace ++ added := by
  rw [run, List.map_append, List.map_cons, List.map_nil]
  exact runWith_snoc

/-- A longer run extends the trace of a shorter. -/
theorem runWith_append {calls rest : List (Call × LaneCallbacks)} {lane' : SequenceRecovery cfg}
    {trace' : Trace} (h : runWith cfg (calls ++ rest) = some (lane', trace')) :
    ∃ lane trace more, runWith cfg calls = some (lane, trace) ∧ trace' = trace ++ more := by
  induction rest using List.reverseRecOn generalizing lane' trace' with
  | nil =>
    rw [List.append_nil] at h
    exact ⟨lane', trace', [], h, (List.append_nil _).symm⟩
  | append_singleton rest call ih =>
    rw [← List.append_assoc] at h
    obtain ⟨lane'', trace'', added, hrun, -, rfl⟩ := runWith_snoc.1 h
    obtain ⟨lane, trace, more, hcalls, rfl⟩ := ih hrun
    exact ⟨lane, trace, more ++ added, hcalls, List.append_assoc _ _ _⟩

theorem run_append {calls rest : List Call} {lane' : SequenceRecovery cfg} {trace' : Trace}
    (h : run cfg (calls ++ rest) = some (lane', trace')) :
    ∃ lane trace more, run cfg calls = some (lane, trace) ∧ trace' = trace ++ more := by
  rw [run, List.map_append] at h
  exact runWith_append h

theorem valid_of_run {calls : List Call} {lane : SequenceRecovery cfg} {trace : Trace}
    (h : run cfg calls = some (lane, trace)) : lane.Valid :=
  valid_of_runWith (gapsTaken_succeed calls) h

/-! ## Capacity -/

/-- The channels the calls name. -/
def channelsOf (calls : List Call) : List ChannelKey :=
  (calls.filterMap Call.channel?).dedup

/-- The calls name no more channels than a lane has. -/
def Fits (cfg : RecoveryConfig) (calls : List Call) : Prop :=
  (channelsOf calls).length ≤ cfg.maximumChannels

theorem Fits.left {calls rest : List Call} (h : Fits cfg (calls ++ rest)) : Fits cfg calls := by
  refine le_trans ?_ h
  refine (List.Nodup.subperm (List.nodup_dedup _) fun key hkey => ?_).length_le
  simp only [channelsOf, List.mem_dedup, List.filterMap_append, List.mem_append] at hkey ⊢
  exact Or.inl hkey

theorem Fits.of_subset {calls calls' : List Call} (hsub : ∀ call ∈ calls', call ∈ calls)
    (h : Fits cfg calls) : Fits cfg calls' := by
  refine le_trans ?_ h
  refine (List.Nodup.subperm (List.nodup_dedup _) fun key hkey => ?_).length_le
  simp only [channelsOf, List.mem_dedup, List.mem_filterMap] at hkey ⊢
  obtain ⟨call, hcall, hkey⟩ := hkey
  exact ⟨call, hsub call hcall, hkey⟩

/-- A channel no call names is not in use. -/
theorem mem_channelsOf {calls : List (Call × LaneCallbacks)} (hgap : GapsTaken calls)
    {lane : SequenceRecovery cfg} {trace : Trace} (h : runWith cfg calls = some (lane, trace))
    {key : ChannelKey} (hkey : key ∈ lane.keys) : key ∈ channelsOf (calls.map Prod.fst) := by
  induction calls using List.reverseRecOn generalizing lane trace with
  | nil =>
    cases h
    cases hkey
  | append_singleton calls c ih =>
    obtain ⟨call, callbacks⟩ := c
    obtain ⟨lane', trace', added, hrun, hstep, -⟩ := runWith_snoc.1 h
    simp only [channelsOf, List.map_append, List.map_cons, List.map_nil, List.mem_dedup,
      List.filterMap_append, List.mem_append] at ih ⊢
    by_contra hno
    simp only [not_or] at hno
    have hbefore : lane'.stateOf key = none :=
      stateOf_eq_none_iff.2 fun hin => hno.1 (ih hgap.left hrun hin)
    have hafter : lane.stateOf key = none := by
      cases (step_turned hgap.last (valid_of_runWith hgap.left hrun) hstep).2.atKey key with
      | early now poll before same => exact same.trans hbefore
      | refused op on only unused full same => exact same.trans hbefore
      | apart off same => exact same.trans hbefore
      | turn op slot fx hon hturn =>
        rw [hbefore] at hturn
        cases Call.sees hon with
        | process decoded now same => exact absurd (by simp [Call.channel?, same]) hno.2
        | freezeDecodeFailure sequence now => exact absurd (by simp [Call.channel?]) hno.2
        | poll now => exact (Prod.mk.inj (Option.some.inj hturn)).1.symm
        | flush now => exact (Prod.mk.inj (Option.some.inj hturn)).1.symm
    exact stateOf_eq_none_iff.1 hafter hkey

/-- A run that names no more channels than there are never lacks room. -/
theorem not_refused {calls : List (Call × LaneCallbacks)} (hgap : GapsTaken calls)
    {lane : SequenceRecovery cfg} {trace : Trace} (h : runWith cfg calls = some (lane, trace))
    {call : Call} (hfits : Fits cfg (calls.map Prod.fst ++ [call])) {key : ChannelKey}
    (hcall : call.channel? = some key) (unused : lane.stateOf key = none) :
    lane.channels.length ≠ cfg.maximumChannels := by
  intro hfull
  have hnodup : (key :: lane.keys).Nodup :=
    List.nodup_cons.2 ⟨stateOf_eq_none_iff.1 unused, (valid_of_runWith hgap h).chained.nodup⟩
  have hsub : key :: lane.keys ⊆ channelsOf (calls.map Prod.fst ++ [call]) := by
    intro k hk
    simp only [channelsOf, List.mem_dedup, List.filterMap_append, List.mem_append]
    rcases List.mem_cons.1 hk with rfl | hk
    · exact Or.inr (by simp [hcall])
    · have := mem_channelsOf hgap h hk
      simp only [channelsOf, List.mem_dedup] at this
      exact Or.inl this
  have hlen := (hnodup.subperm hsub).length_le
  simp only [List.length_cons, keys, List.length_map] at hlen
  unfold Fits at hfits
  omega

theorem map_fst_succeed (calls : List Call) :
    (calls.map fun call => (call, fun _ : ℕ => Callbacks.succeed)).map Prod.fst = calls := by
  rw [List.map_map]
  exact List.map_id' _

theorem channel?_of_on {call : Call} {key : ChannelKey} {op : ChannelCall}
    (hon : call.on key = some op) :
    call.channel? = some key ∨ ∀ key', call.on key' = some op := by
  cases Call.sees hon with
  | process decoded now same => exact Or.inl (congrArg some same)
  | poll now => exact Or.inr fun _ => rfl
  | flush now => exact Or.inr fun _ => rfl
  | freezeDecodeFailure sequence now => exact Or.inl rfl

/-- A channel that a call is on has its turn, if there is room for all channels. -/
theorem run_not_refused {calls : List Call} {lane : SequenceRecovery cfg} {trace : Trace}
    (h : run cfg calls = some (lane, trace)) {call : Call} (hfits : Fits cfg (calls ++ [call]))
    {key key' : ChannelKey} {op : ChannelCall} (hon : call.on key = some op)
    (only : ∀ key'', key'' ≠ key' → call.on key'' = none) (unused : lane.stateOf key' = none) :
    lane.channels.length ≠ cfg.maximumChannels := by
  have hkey : key = key' := by
    by_contra hne
    rw [only key hne] at hon
    cases hon
  subst hkey
  have hchannel : call.channel? = some key := by
    rcases channel?_of_on hon with hchannel | hall
    · exact hchannel
    · have hother := only ⟨key.market, key.channel + 1⟩ fun heq => by
        have := congrArg ChannelKey.channel heq
        simp at this
      rw [hall] at hother
      cases hother
  rw [← map_fst_succeed calls] at hfits
  exact not_refused (gapsTaken_succeed calls) h hfits hchannel unused

/-! ## The rule of invariants -/

/-- The records of the calls of `Process` on a channel. -/
def received (key : ChannelKey) (calls : List Call) : List TickDecodeResult :=
  calls.filterMap fun call => (call.on key).bind ChannelCall.hand

theorem received_snoc (key : ChannelKey) (calls : List Call) (call : Call) :
    received key (calls ++ [call]) =
      received key calls ++ ((call.on key).bind ChannelCall.hand).toList := by
  simp only [received, List.filterMap_append, List.append_cancel_left_eq, List.filterMap_cons,
    List.filterMap_nil]
  cases (call.on key).bind ChannelCall.hand <;> rfl

theorem hand_of_on {call : Call} {key : ChannelKey} {op : ChannelCall} {r : TickDecodeResult}
    (hon : call.on key = some op) (hr : op.hand = some r) :
    ∃ decoded : DecodedTick, decoded.toTickDecodeResult = r ∧ r.key = key ∧
      call.channel? = some key := by
  cases Call.sees hon with
  | process decoded now same =>
    obtain rfl := Option.some.inj hr
    exact ⟨decoded, rfl, same, congrArg some same⟩
  | poll now => cases hr
  | flush now => cases hr
  | freezeDecodeFailure sequence now => cases hr

/-- A channel in use stays in use. -/
theorem channelStep_ne_none {callbacks : Callbacks} {key : ChannelKey} {state : ChannelState cfg}
    {channel' : Option (ChannelState cfg)} {op : ChannelCall} {fx : Effects}
    (h : channelStep callbacks key (some state) op = some (channel', fx)) : channel' ≠ none := by
  rintro rfl
  generalize hnone : (none : Option (ChannelState cfg)) = channel' at h
  cases channelTurn h with
  | absent absent => cases absent
  | ignored => cases hnone
  | _ => cases hnone

/-- A call that leaves a channel unused does nothing there. -/
theorem channelStep_unused {callbacks : Callbacks} {key : ChannelKey}
    {channel channel' : Option (ChannelState cfg)} {op : ChannelCall} {fx : Effects}
    (h : channelStep callbacks key channel op = some (channel', fx)) (hunused : channel' = none) :
    fx = {} := by
  cases channelTurn h with
  | absent => rfl
  | ignored => rfl
  | _ => cases hunused

theorem keys_subset {callbacks : LaneCallbacks} {lane lane' : SequenceRecovery cfg} {call : Call}
    {trace : Trace} (h : Turned callbacks lane call lane' trace) : lane.keys ⊆ lane'.keys := by
  intro key hkey
  by_contra hgone
  rw [← stateOf_eq_none_iff] at hgone
  obtain ⟨state, hstate⟩ := Option.ne_none_iff_exists'.1 (mt stateOf_eq_none_iff.1 (not_not.2 hkey))
  have hmoved : lane'.stateOf key ≠ lane.stateOf key := by
    rw [hgone, hstate]
    exact (Option.some_ne_none state).symm
  obtain ⟨op, slot, fx, -, hturn, -⟩ := (h.atKey key).turn_of_moved (Or.inl hmoved)
  rw [hstate] at hturn
  exact channelStep_ne_none hturn hgone

/-- The lane has no channel left for `key`. -/
def Shut (lane : SequenceRecovery cfg) (key : ChannelKey) : Prop :=
  lane.stateOf key = none ∧ lane.channels.length = cfg.maximumChannels

theorem Shut.step {callbacks : LaneCallbacks} {lane lane' : SequenceRecovery cfg} {call : Call}
    {trace : Trace} {key : ChannelKey} (hshut : Shut lane key) (hv : lane.Valid)
    (hv' : lane'.Valid) (h : Turned callbacks lane call lane' trace) : Shut lane' key := by
  have hsub := keys_subset h
  have hlen : lane.keys.length = cfg.maximumChannels := by
    rw [keys, List.length_map]
    exact hshut.2
  have hlen' : lane'.keys.length = lane'.channels.length := List.length_map _
  have hle := hv'.bounded
  constructor
  · rw [stateOf_eq_none_iff]
    intro hin
    have hnodup : (key :: lane.keys).Nodup :=
      List.nodup_cons.2 ⟨stateOf_eq_none_iff.1 hshut.1, hv.chained.nodup⟩
    have := (hnodup.subperm (List.cons_subset.2 ⟨hin, hsub⟩)).length_le
    rw [List.length_cons] at this
    omega
  · have := (hv.chained.nodup.subperm hsub).length_le
    omega

/-- The channel `key` has its turn in a call, which is `op` to it : the channel is in use or there
is room for it, and a `Poll` does not come before the next deadline. -/
structure HasTurn (lane : SequenceRecovery cfg) (key : ChannelKey) (call : Call)
    (op : ChannelCall) : Prop where
  on : call.on key = some op
  room : ¬Shut lane key
  due : op.isPoll = true → lane.nextDeadlineNs ≠ 0 ∧ lane.nextDeadlineNs ≤ op.now

/-- Where a channel has no turn, a call changes nothing. -/
theorem still_of_not_hasTurn {callbacks : LaneCallbacks} {lane lane' : SequenceRecovery cfg}
    {call : Call} {added : Trace} {key : ChannelKey} (hv : lane.Valid) (hv' : lane'.Valid)
    (h : step callbacks lane call = some (lane', added))
    (hturned : Turned callbacks lane call lane' added) (hno : ∀ op, ¬HasTurn lane key call op) :
    lane'.stateOf key = lane.stateOf key ∧ added.of key = [] := by
  cases hturned.atKey key with
  | early now poll before same silent => exact ⟨same, silent⟩
  | refused op on only unused full same silent => exact ⟨same, silent⟩
  | apart off same silent => exact ⟨same, silent⟩
  | turn op slot fx on served made =>
    by_cases hshut : Shut lane key
    · have hshut' := (hshut.step hv hv' hturned).1
      rw [hshut.1, hshut'] at served
      rw [hshut.1, hshut', made]
      exact ⟨rfl, congrArg Effects.events (channelStep_unused served rfl)⟩
    · -- what is left is a `Poll` before the next deadline
      have hearly : ¬(op.isPoll = true → lane.nextDeadlineNs ≠ 0 ∧ lane.nextDeadlineNs ≤ op.now) :=
        fun hdue => hno op ⟨on, hshut, hdue⟩
      cases Call.sees on with
      | poll now =>
        rw [step, poll, if_pos (by
          by_contra hlater
          rw [not_or, not_lt] at hlater
          exact hearly fun _ => hlater)] at h
        obtain ⟨rfl, rfl⟩ := Prod.mk.inj (Option.some.inj h)
        exact ⟨rfl, rfl⟩
      | _ => exact absurd (fun hpoll => absurd hpoll Bool.false_ne_true) hearly

/-- A call, as the channel `key` has it : a turn, or nothing. -/
theorem hasTurn_or_still {callbacks : LaneCallbacks}
    (hgap : ∀ slot gap, (callbacks slot).emitGap gap = true) {lane lane' : SequenceRecovery cfg}
    {call : Call} {added : Trace} (hv : lane.Valid)
    (h : step callbacks lane call = some (lane', added)) (key : ChannelKey) :
    (∃ op slot fx, HasTurn lane key call op ∧
        channelStep (callbacks slot) key (lane.stateOf key) op = some (lane'.stateOf key, fx) ∧
          added.of key = fx.events) ∨
      (∀ op, ¬HasTurn lane key call op) ∧ lane'.stateOf key = lane.stateOf key ∧
        added.of key = [] := by
  obtain ⟨hv', hturned⟩ := step_turned hgap hv h
  by_cases hturn : ∃ op, HasTurn lane key call op
  · obtain ⟨op, hop⟩ := hturn
    refine Or.inl ?_
    cases hturned.atKey key with
    | early now poll before =>
      subst poll
      obtain rfl := Option.some.inj hop.on
      obtain ⟨hset, hlate⟩ := hop.due rfl
      exact absurd hlate (not_le.2 (before.resolve_left hset))
    | refused op' on only unused full => exact absurd ⟨unused, full⟩ hop.room
    | apart off => cases hop.on.symm.trans off
    | turn op' slot fx on served made =>
      obtain rfl := Option.some.inj (hop.on.symm.trans on)
      exact ⟨op, slot, fx, hop, served, made⟩
  · have hno := not_exists.1 hturn
    exact Or.inr ⟨hno, still_of_not_hasTurn hv hv' h hturned hno⟩

/-- A record that finds its channel, or room for it, has its turn there. -/
theorem processed_of_step {lane lane' : SequenceRecovery cfg} (hv : lane.Valid)
    {decoded : DecodedTick} {now : ℕ} {added : Trace}
    (h : step (fun _ => .succeed) lane (.process decoded now) = some (lane', added))
    (hopen : ¬Shut lane decoded.key) :
    ∃ r, processChannel .succeed decoded.toTickDecodeResult now
        (stateD decoded.key (lane.stateOf decoded.key)) = some r ∧
      lane'.stateOf decoded.key = some r.1 ∧ added.of decoded.key = r.2.events := by
  have hon : (Call.process decoded now).on decoded.key = some (.process decoded now) := if_pos rfl
  rcases (step_turned (fun _ _ => rfl) hv h).2 with
    ⟨now', poll, -, -, -⟩ | ⟨key, only, unused, full, -, -⟩ | ⟨fx, -, turn, -⟩
  · cases poll
  · have hkey : decoded.key = key := by
      by_contra hne
      rw [only _ hne] at hon
      cases hon
    exact absurd ⟨hkey ▸ unused, full⟩ hopen
  · obtain ⟨slot, hturn, hevents⟩ := turn _ _ hon
    rw [channelStep, Option.map_eq_some_iff] at hturn
    obtain ⟨r, hr, heq⟩ := hturn
    obtain ⟨hafter, hfx⟩ := Prod.mk.inj heq
    exact ⟨r, hr, hafter.symm, by rw [hevents, ← hfx]⟩

/-- What the primitive steps keep, a turn keeps. -/
theorem keep_turn {callbacks : Callbacks} {key : ChannelKey} {I : Conf cfg → Prop}
    (hstep : ∀ {c c'}, Step callbacks c c' → c.Sound → I c → I c')
    (hgap : ∀ gap, callbacks.emitGap gap = true) {channel channel' : Option (ChannelState cfg)}
    {op : ChannelCall} {fx : Effects} (hp : Placed key channel)
    (hrange : ∀ r, op.hand = some r → InRange r.nativeSequence)
    (h : channelStep callbacks key channel op = some (channel', fx)) {events : List Event}
    (hI : I ⟨stateD key channel, op.hand, events⟩) :
    I ⟨stateD key channel', none, events ++ fx.events⟩ := by
  have hsteps := (channelStep_steps hgap hp h).1 events
  rw [List.append_nil] at hsteps
  exact (Steps.keep (I := fun c => c.Sound ∧ I c)
    (fun hs hc => ⟨step_sound hs hc.1, hstep hs hc.1 hc.2⟩) hsteps
    ⟨⟨hp.resting.1.sound, hrange⟩, hI⟩).2

/-- What holds of a channel not yet in use, survives taking up a record and is kept by
the primitive steps, holds after every run. The records are those received, unless there
was no room for the channel. `Q` is what is known of a record received. -/
theorem runWith_keep_of (key : ChannelKey) {P : Callbacks → Prop} {Q : TickDecodeResult → Prop}
    {I : List TickDecodeResult → Conf cfg → Prop}
    (hinit : I [] ⟨.fresh cfg key, none, []⟩)
    (harrive : ∀ {records state events} (decoded : DecodedTick),
      decoded.toTickDecodeResult.key = key → Q decoded.toTickDecodeResult →
      I records ⟨state, none, events⟩ →
      I (records ++ [decoded.toTickDecodeResult])
        ⟨state, some decoded.toTickDecodeResult, events⟩)
    (hstep : ∀ {callbacks records c c'}, P callbacks → Step callbacks c c' → c.Sound →
      I records c → I records c')
    {calls : List (Call × LaneCallbacks)} (hgap : GapsTaken calls)
    (hP : ∀ c ∈ calls, ∀ slot, P (c.2 slot))
    (hQ : ∀ r ∈ received key (calls.map Prod.fst), Q r) {lane : SequenceRecovery cfg}
    {trace : Trace} (h : runWith cfg calls = some (lane, trace)) :
    ∃ records, (Fits cfg (calls.map Prod.fst) ∨ ¬Shut lane key →
        records = received key (calls.map Prod.fst)) ∧
      I records ⟨stateD key (lane.stateOf key), none, trace.of key⟩ := by
  suffices hkeep : ∃ records, (records = received key (calls.map Prod.fst) ∨
      (Shut lane key ∧ ¬Fits cfg (calls.map Prod.fst))) ∧
      I records ⟨stateD key (lane.stateOf key), none, trace.of key⟩ by
    obtain ⟨records, hrec | ⟨hshut, hfull⟩, hI⟩ := hkeep
    · exact ⟨records, fun _ => hrec, hI⟩
    · exact ⟨records, fun hroom => (hroom.elim hfull (absurd hshut)).elim, hI⟩
  induction calls using List.reverseRecOn generalizing lane trace with
  | nil =>
    cases h
    exact ⟨[], Or.inl rfl, hinit⟩
  | append_singleton calls c ih =>
    obtain ⟨call, callbacks⟩ := c
    obtain ⟨lane', trace', added, hrun, hcall, rfl⟩ := runWith_snoc.1 h
    rw [List.map_append, List.map_cons, List.map_nil, received_snoc] at hQ
    obtain ⟨records, hrec, hI⟩ := ih hgap.left (fun c hc => hP c (List.mem_append_left _ hc))
      (fun r hr => hQ r (List.mem_append_left _ hr)) hrun
    have hslot : ∀ slot, P (callbacks slot) := hP (call, callbacks) (by simp)
    have hv := valid_of_runWith hgap.left hrun
    obtain ⟨hv', hturned⟩ := step_turned hgap.last hv hcall
    rw [List.map_append, List.map_cons, List.map_nil, Trace.of_append, received_snoc]
    have hgrow : ∀ more : List TickDecodeResult,
        ((call.on key).bind ChannelCall.hand).toList = more →
        (records ++ more = received key (calls.map Prod.fst) ++
          ((call.on key).bind ChannelCall.hand).toList ∨
          (Shut lane key ∧ ¬Fits cfg (calls.map Prod.fst ++ [call]))) := by
      rintro more rfl
      rcases hrec with hrec | ⟨hshut, hfull⟩
      · exact Or.inl (by rw [hrec])
      · exact Or.inr ⟨hshut.step hv hv' hturned, fun hfits => hfull hfits.left⟩
    have hkept : (call.on key).bind ChannelCall.hand = none → lane.stateOf key = lane'.stateOf key →
        added.of key = [] → ∃ records,
          (records = received key (calls.map Prod.fst) ++
            ((call.on key).bind ChannelCall.hand).toList ∨
            (Shut lane key ∧ ¬Fits cfg (calls.map Prod.fst ++ [call]))) ∧
          I records ⟨stateD key (lane.stateOf key), none, trace'.of key ++ added.of key⟩ := by
      intro hnone hstate hadded
      have hrec' := hgrow [] (by rw [hnone]; rfl)
      rw [List.append_nil] at hrec'
      rw [hstate, hadded, List.append_nil]
      exact ⟨records, hrec', hI⟩
    cases hturned.atKey key with
    | early now poll before same silent => exact hkept (by rw [poll]; rfl) same silent
    | apart off same silent => exact hkept (by rw [off]; rfl) same silent
    | refused op hon only unused full same silent =>
      cases hr : op.hand with
      | none => exact hkept (by rw [hon, Option.bind_some, hr]) same silent
      | some r =>
        obtain ⟨-, -, -, hchannel⟩ := hand_of_on hon hr
        have hshut : Shut lane' key := ⟨unused, full⟩
        rw [same, silent, List.append_nil]
        exact ⟨records, Or.inr ⟨hshut.step hv hv' hturned,
          fun hfits => not_refused hgap.left hrun hfits hchannel unused full⟩, hI⟩
    | turn op slot fx hon hturn hadded =>
      have hrange : ∀ r, op.hand = some r → InRange r.nativeSequence := by
        intro r hr
        obtain ⟨decoded, rfl, -, -⟩ := hand_of_on hon hr
        exact DecodedTick.inRange decoded
      have hrun' : ∀ {records'},
          I records' ⟨stateD key (lane'.stateOf key), op.hand, trace'.of key⟩ →
          I records' ⟨stateD key (lane.stateOf key), none, trace'.of key ++ added.of key⟩ := by
        rw [hadded]
        exact keep_turn (hstep (hslot slot)) (hgap.last slot) (hv.placed key) hrange hturn
      rw [hon, Option.bind_some] at hgrow ⊢
      cases hr : op.hand with
      | none =>
        rw [hr] at hgrow hrun'
        have hrec' := hgrow [] rfl
        rw [List.append_nil] at hrec'
        exact ⟨records, hrec', hrun' hI⟩
      | some r =>
        rw [hr] at hgrow hrun'
        obtain ⟨decoded, rfl, hkey, -⟩ := hand_of_on hon hr
        have hreceived : Q decoded.toTickDecodeResult := by
          refine hQ _ (List.mem_append_right _ (Option.mem_toList.2 ?_))
          rw [hon, Option.bind_some, hr]
        exact ⟨records ++ [decoded.toTickDecodeResult], hgrow _ rfl,
          hrun' (harrive decoded hkey hreceived hI)⟩

/-- The rule where nothing more need be known of a record. -/
theorem runWith_keep (key : ChannelKey) {P : Callbacks → Prop}
    {I : List TickDecodeResult → Conf cfg → Prop}
    (hinit : I [] ⟨.fresh cfg key, none, []⟩)
    (harrive : ∀ {records state events} (decoded : DecodedTick),
      decoded.toTickDecodeResult.key = key → I records ⟨state, none, events⟩ →
      I (records ++ [decoded.toTickDecodeResult])
        ⟨state, some decoded.toTickDecodeResult, events⟩)
    (hstep : ∀ {callbacks records c c'}, P callbacks → Step callbacks c c' → c.Sound →
      I records c → I records c')
    {calls : List (Call × LaneCallbacks)} (hgap : GapsTaken calls)
    (hP : ∀ c ∈ calls, ∀ slot, P (c.2 slot)) {lane : SequenceRecovery cfg} {trace : Trace}
    (h : runWith cfg calls = some (lane, trace)) :
    ∃ records, (Fits cfg (calls.map Prod.fst) ∨ ¬Shut lane key →
        records = received key (calls.map Prod.fst)) ∧
      I records ⟨stateD key (lane.stateOf key), none, trace.of key⟩ :=
  runWith_keep_of key (Q := fun _ => True) hinit
    (fun decoded hkey _ hI => harrive decoded hkey hI) hstep hgap hP (fun _ _ => trivial) h

/-- The rule for the runs whose callbacks succeed. -/
theorem run_keep_of (key : ChannelKey) {Q : TickDecodeResult → Prop}
    {I : List TickDecodeResult → Conf cfg → Prop}
    (hinit : I [] ⟨.fresh cfg key, none, []⟩)
    (harrive : ∀ {records state events} (decoded : DecodedTick),
      decoded.toTickDecodeResult.key = key → Q decoded.toTickDecodeResult →
      I records ⟨state, none, events⟩ →
      I (records ++ [decoded.toTickDecodeResult])
        ⟨state, some decoded.toTickDecodeResult, events⟩)
    (hstep : ∀ {records c c'}, Step .succeed c c' → c.Sound → I records c → I records c')
    {calls : List Call} (hQ : ∀ r ∈ received key calls, Q r) {lane : SequenceRecovery cfg}
    {trace : Trace} (h : run cfg calls = some (lane, trace)) :
    ∃ records, (Fits cfg calls ∨ ¬Shut lane key → records = received key calls) ∧
      I records ⟨stateD key (lane.stateOf key), none, trace.of key⟩ := by
  have hP : ∀ c ∈ calls.map fun call => (call, fun _ : ℕ => Callbacks.succeed), ∀ slot,
      c.2 slot = Callbacks.succeed := by
    intro c hc slot
    obtain ⟨call, -, rfl⟩ := List.mem_map.1 hc
    rfl
  rw [← map_fst_succeed calls] at hQ
  have hkeep := runWith_keep_of key (P := (· = Callbacks.succeed)) hinit harrive
    (fun hp => by subst hp; exact hstep) (gapsTaken_succeed calls) hP hQ h
  rwa [map_fst_succeed] at hkeep

/-- The same, where nothing more need be known of a record. -/
theorem run_keep (key : ChannelKey) {I : List TickDecodeResult → Conf cfg → Prop}
    (hinit : I [] ⟨.fresh cfg key, none, []⟩)
    (harrive : ∀ {records state events} (decoded : DecodedTick),
      decoded.toTickDecodeResult.key = key → I records ⟨state, none, events⟩ →
      I (records ++ [decoded.toTickDecodeResult])
        ⟨state, some decoded.toTickDecodeResult, events⟩)
    (hstep : ∀ {records c c'}, Step .succeed c c' → c.Sound → I records c → I records c')
    {calls : List Call} {lane : SequenceRecovery cfg} {trace : Trace}
    (h : run cfg calls = some (lane, trace)) :
    ∃ records, (Fits cfg calls ∨ ¬Shut lane key → records = received key calls) ∧
      I records ⟨stateD key (lane.stateOf key), none, trace.of key⟩ :=
  run_keep_of key (Q := fun _ => True) hinit (fun decoded hkey _ hI => harrive decoded hkey hI)
    hstep (fun _ _ => trivial) h

/-! ## Sample runs -/

/-- Two channels of four slots. -/
def sampleConfig (mode : StartMode) (initialHoldNs gapWaitNs : ℕ) : RecoveryConfig where
  mode := mode
  maximumChannels := 2
  entriesPerChannel := 4
  maximumReorderSpan := 4
  initialHoldNs := initialHoldNs
  gapWaitNs := gapWaitNs
  channels_pos := by decide
  channels_le := by decide
  entries_pow := by decide
  entries_ge := by decide
  span_le := by decide

def sampleKey : ChannelKey :=
  ⟨.kShanghai, 1⟩

/-- A record of the sample channel, of an instrument in the catalog. -/
def sampleRecord (sequence : ℕ) : TickDecodeResult where
  tick := { common := {
    nativeSequence := sequence, channel := 1, identity := { market := .kShanghai } } }
  catalogMatch := true

def sampleDecoded (sequence : ℕ) (h : 0 < sequence ∧ sequence < 2 ^ 63) : DecodedTick where
  toTickDecodeResult := sampleRecord sequence
  native_pos := h.1
  native_lt := h.2
  history_valid := (by decide : Flags.has kTickChannelHistoryValid kTickChannelHistoryValid = true)

/-- The record at `sequence` arrives. -/
def arrival (sequence : ℕ) (h : 0 < sequence ∧ sequence < 2 ^ 63) (now : ℕ) : Call :=
  .process (sampleDecoded sequence h) now

/-- The dispatch queue is full. -/
def refuseTicks : Callbacks :=
  { Callbacks.succeed with emitTick := fun _ => false }

end SequenceRecovery

end L2Flow
