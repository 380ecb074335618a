import L2Flow.Lookup

/-!
# The turns of a call

A call of a lane, seen from its channels. `channelStep` is what a call does to one
channel, and `step_turned` says that a call of a lane is nothing but the turns of the
channels it is on : every other channel keeps its state and logs nothing, and the next
deadline is lowered to the deadlines of the turns. The two exceptions are a `Poll` before
the next deadline and a call that needs a channel for which there is no room; they change
nothing.
-/

namespace L2Flow

variable {cfg : RecoveryConfig}

namespace SequenceRecovery

/-! ## The part of one channel -/

/-- A call, as a channel sees it. -/
inductive ChannelCall where
  | process (decoded : DecodedTick) (now : ℕ)
  | poll (now : ℕ)
  | flush (now : ℕ)
  | freezeDecodeFailure (sequence now : ℕ)

/-- The time a call is made with. -/
def ChannelCall.now : ChannelCall → ℕ
  | .process _ now => now
  | .poll now => now
  | .flush now => now
  | .freezeDecodeFailure _ now => now

def ChannelCall.isPoll : ChannelCall → Bool
  | .poll _ => true
  | _ => false

/-- What the channel `key` sees of a call. -/
def Call.on (key : ChannelKey) : Call → Option ChannelCall
  | .process decoded now => if decoded.key = key then some (.process decoded now) else none
  | .poll now => some (.poll now)
  | .flush now => some (.flush now)
  | .freezeDecodeFailure key' sequence now =>
    if key' = key then some (.freezeDecodeFailure sequence now) else none

/-- The calls that the channel `key` sees, and what it sees of each. -/
inductive Sees (key : ChannelKey) : Call → ChannelCall → Prop where
  | process (decoded : DecodedTick) (now : ℕ) (same : decoded.key = key) :
      Sees key (.process decoded now) (.process decoded now)
  | poll (now : ℕ) : Sees key (.poll now) (.poll now)
  | flush (now : ℕ) : Sees key (.flush now) (.flush now)
  | freezeDecodeFailure (sequence now : ℕ) :
      Sees key (.freezeDecodeFailure key sequence now) (.freezeDecodeFailure sequence now)

theorem Call.sees {call : Call} {key : ChannelKey} {op : ChannelCall}
    (hon : call.on key = some op) : Sees key call op := by
  rcases call with ⟨decoded, now⟩ | now | now | ⟨key', sequence, now⟩
  · obtain ⟨same, rfl⟩ := Option.ite_some_none_eq_some.1 hon
    exact .process decoded now same
  · obtain rfl := Option.some.inj hon
    exact .poll now
  · obtain rfl := Option.some.inj hon
    exact .flush now
  · obtain ⟨rfl, rfl⟩ := Option.ite_some_none_eq_some.1 hon
    exact .freezeDecodeFailure sequence now

/-- The record a call brings to a channel. -/
def ChannelCall.hand : ChannelCall → Option TickDecodeResult
  | .process decoded _ => some decoded.toTickDecodeResult
  | _ => none

/-- The state a call finds or creates. -/
def stateD (key : ChannelKey) (channel : Option (ChannelState cfg)) : ChannelState cfg :=
  channel.getD (.fresh cfg key)

/-- A call on the channel `key`, which is `none` until it is in use. -/
def channelStep (callbacks : Callbacks) (key : ChannelKey) (channel : Option (ChannelState cfg)) :
    ChannelCall → Option (Option (ChannelState cfg) × Effects)
  | .process decoded now =>
    (processChannel callbacks decoded.toTickDecodeResult now (stateD key channel)).map
      fun r => (some r.1, r.2)
  | .poll now =>
    match channel with
    | none => some (none, {})
    | some state => some (some (pollChannel callbacks now state).1,
        (pollChannel callbacks now state).2)
  | .flush now =>
    match channel with
    | none => some (none, {})
    | some state => (flushChannel callbacks now state).map fun r => (some r.1, r.2)
  | .freezeDecodeFailure sequence now =>
    if cfg.mode ≠ .kFromOpen then some (channel, {})
    else some (some (freezeChannel callbacks sequence now (stateD key channel)).1,
      (freezeChannel callbacks sequence now (stateD key channel)).2)

/-- What a call comes to on the channel `key`. -/
inductive ChannelTurn (callbacks : Callbacks) (key : ChannelKey)
    (channel : Option (ChannelState cfg)) :
    ChannelCall → Option (ChannelState cfg) → Effects → Prop where
  | process {decoded : DecodedTick} {now : ℕ} {r : ChannelState cfg × Effects}
      (turn : processChannel callbacks decoded.toTickDecodeResult now (stateD key channel) =
        some r) :
      ChannelTurn callbacks key channel (.process decoded now) (some r.1) r.2
  | absent {op : ChannelCall} {now : ℕ} (absent : channel = none)
      (sweep : op = .poll now ∨ op = .flush now) : ChannelTurn callbacks key channel op channel {}
  | poll {now : ℕ} {state : ChannelState cfg} (present : channel = some state) :
      ChannelTurn callbacks key channel (.poll now) (some (pollChannel callbacks now state).1)
        (pollChannel callbacks now state).2
  | flush {now : ℕ} {state : ChannelState cfg} {r : ChannelState cfg × Effects}
      (present : channel = some state) (turn : flushChannel callbacks now state = some r) :
      ChannelTurn callbacks key channel (.flush now) (some r.1) r.2
  | ignored {sequence now : ℕ} (mode : cfg.mode ≠ .kFromOpen) :
      ChannelTurn callbacks key channel (.freezeDecodeFailure sequence now) channel {}
  | freeze {sequence now : ℕ} (mode : cfg.mode = .kFromOpen) :
      ChannelTurn callbacks key channel (.freezeDecodeFailure sequence now)
        (some (freezeChannel callbacks sequence now (stateD key channel)).1)
        (freezeChannel callbacks sequence now (stateD key channel)).2

theorem channelTurn {callbacks : Callbacks} {key : ChannelKey}
    {channel channel' : Option (ChannelState cfg)} {op : ChannelCall} {fx : Effects}
    (h : channelStep callbacks key channel op = some (channel', fx)) :
    ChannelTurn callbacks key channel op channel' fx := by
  rcases op with ⟨decoded, now⟩ | now | now | ⟨sequence, now⟩
  · obtain ⟨r, hr, he⟩ := Option.map_eq_some_iff.1 h
    obtain ⟨rfl, rfl⟩ := Prod.mk.inj he
    exact .process hr
  · rcases channel with - | state
    · obtain ⟨rfl, rfl⟩ := Prod.mk.inj (Option.some.inj h)
      exact .absent rfl (Or.inl rfl)
    · obtain ⟨rfl, rfl⟩ := Prod.mk.inj (Option.some.inj h)
      exact .poll rfl
  · rcases channel with - | state
    · obtain ⟨rfl, rfl⟩ := Prod.mk.inj (Option.some.inj h)
      exact .absent rfl (Or.inr rfl)
    · obtain ⟨r, hr, he⟩ := Option.map_eq_some_iff.1 h
      obtain ⟨rfl, rfl⟩ := Prod.mk.inj he
      exact .flush rfl hr
  · rw [channelStep] at h
    split_ifs at h with hmode
    · obtain ⟨rfl, rfl⟩ := Prod.mk.inj (Option.some.inj h)
      exact .ignored hmode
    · obtain ⟨rfl, rfl⟩ := Prod.mk.inj (Option.some.inj h)
      exact .freeze (not_not.1 hmode)

theorem step_key {callbacks : Callbacks} {c c' : Conf cfg} (h : Step callbacks c c') :
    c'.state.key = c.state.key := by
  cases h <;> rfl

theorem Reaches.key {callbacks : Callbacks} {hand hand' : Option TickDecodeResult}
    {s r : ChannelState cfg × Effects} (h : Reaches callbacks hand hand' s r) : r.1.key = s.1.key :=
  Steps.keep (I := fun c => c.state.key = s.1.key)
    (fun hs hc => (step_key hs).trans hc) (h []) rfl

theorem DecodedTick.inRange (decoded : DecodedTick) :
    InRange decoded.toTickDecodeResult.nativeSequence :=
  ⟨decoded.native_pos, decoded.native_lt⟩

/-- A channel's place in a lane : idle under its key, or not in use. -/
def Placed (key : ChannelKey) (channel : Option (ChannelState cfg)) : Prop :=
  ∀ state, channel = some state → state.Idle ∧ state.key = key

theorem Placed.resting {key : ChannelKey} {channel : Option (ChannelState cfg)}
    (h : Placed key channel) : (stateD key channel).Resting ∧ (stateD key channel).key = key := by
  cases channel with
  | none => exact ⟨ChannelState.resting_fresh cfg key, rfl⟩
  | some state => exact ⟨(h state rfl).1.toResting, (h state rfl).2⟩

theorem placed_some {key : ChannelKey} {state : ChannelState cfg} (hi : state.Idle)
    (hk : state.key = key) : Placed key (some state) := by
  rintro _ ⟨⟩
  exact ⟨hi, hk⟩

/-- A call takes a channel to its new state by primitive steps. -/
theorem channelStep_steps {callbacks : Callbacks} (hgap : ∀ gap, callbacks.emitGap gap = true)
    {key : ChannelKey} {channel channel' : Option (ChannelState cfg)} {op : ChannelCall}
    {fx : Effects} (hp : Placed key channel)
    (h : channelStep callbacks key channel op = some (channel', fx)) :
    Reaches callbacks op.hand none (stateD key channel, {}) (stateD key channel', fx) ∧
      Placed key channel' := by
  obtain ⟨hrest, hkey⟩ := hp.resting
  have hdone : ∀ {hand : Option TickDecodeResult} {r : ChannelState cfg × Effects},
      Reaches callbacks hand none (stateD key channel, {}) r → r.1.Idle → Placed key (some r.1) :=
    fun hr hi => placed_some hi (hr.key.trans hkey)
  cases channelTurn h with
  | process turn =>
    obtain ⟨hsteps, hidle⟩ := processChannel_steps hgap (DecodedTick.inRange _) hrest turn
    exact ⟨hsteps, hdone hsteps hidle⟩
  | absent absent sweep => rcases sweep with rfl | rfl <;> exact ⟨Reaches.refl _ _ _, hp⟩
  | @poll now state present =>
    subst present
    obtain ⟨hsteps, hidle⟩ := pollChannel_steps hgap now (hp state rfl).1
    exact ⟨hsteps, hdone hsteps hidle⟩
  | @flush now state r present turn =>
    subst present
    obtain ⟨hsteps, hidle, -⟩ := flushChannel_steps hgap (hp state rfl).1 turn
    exact ⟨hsteps, hdone hsteps hidle⟩
  | ignored => exact ⟨Reaches.refl _ _ _, hp⟩
  | @freeze sequence now mode =>
    obtain ⟨hsteps, hidle⟩ := freezeChannel_steps callbacks sequence now mode hrest
    exact ⟨hsteps, hdone hsteps hidle⟩

/-! ## The turns of a lane -/

/-- The deadline a call starts from : `Poll` computes it anew. -/
def Call.base (lane : SequenceRecovery cfg) : Call → ℕ
  | .poll _ => 0
  | _ => lane.nextDeadlineNs

/-- What a call does to a lane. -/
inductive Turned (callbacks : LaneCallbacks) (lane : SequenceRecovery cfg) (call : Call)
    (lane' : SequenceRecovery cfg) (trace : Trace) : Prop where
  /-- `Poll` before the next deadline. -/
  | early (now : ℕ) (poll : call = .poll now)
      (before : lane.nextDeadlineNs = 0 ∨ now < lane.nextDeadlineNs)
      (same : lane' = lane) (silent : trace = [])
  /-- There is no room for the channel. -/
  | refused (key : ChannelKey) (only : ∀ key', key' ≠ key → call.on key' = none)
      (unused : lane.stateOf key = none) (full : lane.channels.length = cfg.maximumChannels)
      (same : lane' = lane) (silent : ∀ key', trace.of key' = [])
  /-- The channels the call is on have their turns. -/
  | served (fx : ChannelKey → Effects)
      (apart : ∀ key, call.on key = none →
        lane'.stateOf key = lane.stateOf key ∧ trace.of key = [] ∧ fx key = {})
      (turn : ∀ key op, call.on key = some op →
        ∃ slot, channelStep (callbacks slot) key (lane.stateOf key) op =
          some (lane'.stateOf key, fx key) ∧ trace.of key = (fx key).events)
      (deadline : ∃ deadlines : List ℕ,
        lane'.nextDeadlineNs = deadlines.foldl noteDeadline (call.base lane) ∧
          ∀ d, d ∈ deadlines ↔ ∃ key, d ∈ (fx key).deadlines)

/-- What a call does to one channel. -/
inductive TurnedAt (callbacks : LaneCallbacks) (lane : SequenceRecovery cfg) (call : Call)
    (key : ChannelKey) (channel' : Option (ChannelState cfg)) (events : List Event) : Prop where
  | early (now : ℕ) (poll : call = .poll now)
      (before : lane.nextDeadlineNs = 0 ∨ now < lane.nextDeadlineNs)
      (same : channel' = lane.stateOf key) (silent : events = [])
  | refused (op : ChannelCall) (on : call.on key = some op)
      (only : ∀ key', key' ≠ key → call.on key' = none) (unused : lane.stateOf key = none)
      (full : lane.channels.length = cfg.maximumChannels) (same : channel' = lane.stateOf key)
      (silent : events = [])
  | apart (off : call.on key = none) (same : channel' = lane.stateOf key) (silent : events = [])
  | turn (op : ChannelCall) (slot : ℕ) (fx : Effects) (on : call.on key = some op)
      (served : channelStep (callbacks slot) key (lane.stateOf key) op = some (channel', fx))
      (made : events = fx.events)

theorem Turned.atKey {callbacks : LaneCallbacks} {lane lane' : SequenceRecovery cfg} {call : Call}
    {trace : Trace} (h : Turned callbacks lane call lane' trace) (key : ChannelKey) :
    TurnedAt callbacks lane call key (lane'.stateOf key) (trace.of key) := by
  cases h with
  | early now poll before same silent =>
    exact .early now poll before (by rw [same]) (by rw [silent]; rfl)
  | refused key' only unused full same silent =>
    cases hon : call.on key with
    | none => exact .apart hon (by rw [same]) (silent key)
    | some op =>
      obtain rfl : key = key' := by
        by_contra hne
        rw [only key hne] at hon
        cases hon
      exact .refused op hon only unused full (by rw [same]) (silent key)
  | served fx apart turn deadline =>
    cases hon : call.on key with
    | none =>
      obtain ⟨same, silent, -⟩ := apart key hon
      exact .apart hon same silent
    | some op =>
      obtain ⟨slot, hserved, hmade⟩ := turn key op hon
      exact .turn op slot (fx key) hon hserved hmade

/-- A channel that changes, or that events are made on, has its turn. -/
theorem TurnedAt.turn_of_moved {callbacks : LaneCallbacks} {lane : SequenceRecovery cfg}
    {call : Call} {key : ChannelKey} {channel' : Option (ChannelState cfg)} {events : List Event}
    (h : TurnedAt callbacks lane call key channel' events)
    (hmoved : channel' ≠ lane.stateOf key ∨ events ≠ []) :
    ∃ op slot fx, call.on key = some op ∧
      channelStep (callbacks slot) key (lane.stateOf key) op = some (channel', fx) ∧
        events = fx.events := by
  have hstays : ¬(channel' = lane.stateOf key ∧ events = []) := fun hsame =>
    hmoved.elim (absurd hsame.1) (absurd hsame.2)
  rcases h with ⟨-, -, -, same, silent⟩ | ⟨-, -, -, -, -, same, silent⟩ | ⟨-, same, silent⟩ |
    ⟨op, slot, fx, on, served, made⟩
  · exact absurd ⟨same, silent⟩ hstays
  · exact absurd ⟨same, silent⟩ hstays
  · exact absurd ⟨same, silent⟩ hstays
  · exact ⟨op, slot, fx, on, served, made⟩

theorem Valid.placed {lane : SequenceRecovery cfg} (hv : lane.Valid) (key : ChannelKey) :
    Placed key (lane.stateOf key) := fun _ h =>
  ⟨hv.idle_of_stateOf h, ((stateOf_eq_some_iff hv.chained.nodup).1 h).1⟩

/-- The call that is on one channel only, when its channel is found or created. -/
theorem onChannel_turned {callbacks : LaneCallbacks} {lane mid lane' : SequenceRecovery cfg}
    {trace : Trace} {call : Call} {key : ChannelKey} {i : ℕ} {entry : ChannelEntry cfg}
    {turn : ChannelEntry cfg → Option (ChannelState cfg × Effects)} {op : ChannelCall}
    (hgap : ∀ slot gap, (callbacks slot).emitGap gap = true) (hv : lane.Valid)
    (hmid : mid.Registered) (hi : mid.channels[i]? = some entry) (hkey : entry.state.key = key)
    (hothers : ∀ key', key' ≠ key → mid.stateOf key' = lane.stateOf key')
    (hnext : mid.nextDeadlineNs = lane.nextDeadlineNs)
    (hentries : ∀ j entry', mid.channels[j]? = some entry' → j ≠ i → entry' ∈ lane.channels)
    (hon : call.on key = some op) (honly : ∀ key', key' ≠ key → call.on key' = none)
    (hbase : call.base lane = lane.nextDeadlineNs)
    (hturn : ∀ r, turn entry = some r →
      channelStep (callbacks entry.mailboxSlot) key (lane.stateOf key) op = some (some r.1, r.2))
    (h : onChannel mid i turn = some (lane', trace)) :
    lane'.Valid ∧ Turned callbacks lane call lane' trace := by
  unfold onChannel at h
  simp only [hi] at h
  cases hr : turn entry with
  | none => simp [hr] at h
  | some r =>
    simp only [hr] at h
    cases h
    have hstep := hturn r hr
    obtain ⟨-, hplaced⟩ := channelStep_steps (hgap _) (hv.placed key) hstep
    obtain ⟨hidle, hrkey⟩ := hplaced r.1 rfl
    have hset : ({ mid with
        channels := mid.channels.set i { entry with state := r.1 }
        nextDeadlineNs := r.2.deadlines.foldl noteDeadline mid.nextDeadlineNs } :
        SequenceRecovery cfg).channels = mid.channels.set i { entry with state := r.1 } := rfl
    obtain ⟨hkeys, hself, hrest⟩ := stateOf_set hmid.chained.nodup hi (hrkey.trans hkey.symm) hset
    subst hkey
    refine ⟨⟨⟨hkeys ▸ hmid.chained, ?_⟩, ?_⟩, .served
      (fun key' => if key' = entry.state.key then r.2 else {}) ?_ ?_ ?_⟩
    · simpa using hmid.bounded
    · intro entry' h'
      obtain ⟨j, hj⟩ := List.mem_iff_getElem?.1 h'
      simp only [List.getElem?_set] at hj
      split_ifs at hj with hij
      · cases hj
        exact hidle
      · exact hv.idle entry' (hentries j entry' hj (Ne.symm hij))
    · intro key' hoff
      have hne : key' ≠ entry.state.key := by
        rintro rfl
        rw [hon] at hoff
        cases hoff
      exact ⟨(hrest key' hne).trans (hothers key' hne),
        Trace.of_tag_of_ne (Ne.symm hne) _, if_neg hne⟩
    · intro key' op' hon'
      obtain rfl : key' = entry.state.key := by
        by_contra hne
        rw [honly key' hne] at hon'
        cases hon'
      rw [hon] at hon'
      cases hon'
      refine ⟨entry.mailboxSlot, ?_, ?_⟩
      · rw [hself, if_pos rfl]
        exact hstep
      · rw [if_pos rfl, Trace.of_tag_self]
    · refine ⟨r.2.deadlines, by rw [hbase, ← hnext], fun d => ⟨fun hd => ⟨entry.state.key, ?_⟩, ?_⟩⟩
      · rwa [if_pos rfl]
      · rintro ⟨key', hd⟩
        split_ifs at hd
        · exact hd
        · cases hd

/-- The turn of a channel among the turns of all. -/
abbrev LaneTurn (cfg : RecoveryConfig) := ChannelEntry cfg × ChannelState cfg × Effects

theorem of_turns_absent {key : ChannelKey} : ∀ {turns : List (LaneTurn cfg)},
    key ∉ turns.map (fun turn => turn.1.state.key) →
    Trace.of (turns.flatMap fun turn => tag turn.1.state.key turn.2.2.events) key = []
  | [], _ => rfl
  | turn :: turns, h => by
    simp only [List.map_cons, List.mem_cons, not_or] at h
    rw [List.flatMap_cons, Trace.of_append, Trace.of_tag_of_ne (Ne.symm h.1),
      of_turns_absent h.2, List.append_nil]

theorem of_turns_mem : ∀ {turns : List (LaneTurn cfg)},
    (turns.map fun turn => turn.1.state.key).Nodup → ∀ {turn : LaneTurn cfg}, turn ∈ turns →
    Trace.of (turns.flatMap fun turn => tag turn.1.state.key turn.2.2.events) turn.1.state.key =
      turn.2.2.events
  | [], _, _, h => by cases h
  | first :: turns, hnodup, turn, h => by
    rw [List.map_cons, List.nodup_cons] at hnodup
    rw [List.flatMap_cons, Trace.of_append]
    rcases List.mem_cons.1 h with rfl | h
    · rw [Trace.of_tag_self, of_turns_absent hnodup.1, List.append_nil]
    · have hne : first.1.state.key ≠ turn.1.state.key := by
        intro heq
        exact hnodup.1 (heq ▸ List.mem_map_of_mem h)
      rw [Trace.of_tag_of_ne hne, of_turns_mem hnodup.2 h, List.nil_append]

/-- What the turn of `key` does. -/
def turnOf (turns : List (LaneTurn cfg)) (key : ChannelKey) : Effects :=
  ((turns.find? fun turn => turn.1.state.key = key).map fun turn => turn.2.2).getD {}

theorem turnOf_mem {turns : List (LaneTurn cfg)}
    (hnodup : (turns.map fun turn => turn.1.state.key).Nodup) {turn : LaneTurn cfg}
    (h : turn ∈ turns) : turnOf turns turn.1.state.key = turn.2.2 := by
  obtain ⟨i, hi⟩ := List.mem_iff_getElem?.1 h
  cases hfind : turns.find? fun turn' => turn'.1.state.key = turn.1.state.key with
  | none => simpa using List.find?_eq_none.1 hfind turn h
  | some turn' =>
    have hkey : turn'.1.state.key = turn.1.state.key := by simpa using List.find?_some hfind
    have heq := List.inj_on_of_nodup_map hnodup (List.mem_of_find?_eq_some hfind) h hkey
    rw [turnOf, hfind, heq]
    rfl

theorem turnOf_absent {turns : List (LaneTurn cfg)} {key : ChannelKey}
    (h : key ∉ turns.map fun turn => turn.1.state.key) : turnOf turns key = {} := by
  have hfind : (turns.find? fun turn => turn.1.state.key = key) = none := by
    rw [List.find?_eq_none]
    intro turn hturn
    simp only [decide_eq_true_eq]
    rintro rfl
    exact h (List.mem_map_of_mem hturn)
  rw [turnOf, hfind]
  rfl

/-- A call that gives every channel its turn. -/
theorem afterTurns_turned {callbacks : LaneCallbacks} {lane : SequenceRecovery cfg} {call : Call}
    {op : ChannelCall} {turns : List (LaneTurn cfg)}
    (hgap : ∀ slot gap, (callbacks slot).emitGap gap = true) (hv : lane.Valid)
    (hon : ∀ key, call.on key = some op)
    (hunused : ∀ key slot, channelStep (callbacks slot) key (none : Option (ChannelState cfg)) op =
      some (none, {}))
    (hall : turns.map Prod.fst = lane.channels)
    (hturn : ∀ turn ∈ turns, channelStep (callbacks turn.1.mailboxSlot) turn.1.state.key
      (some turn.1.state) op = some (some turn.2.1, turn.2.2)) :
    (afterTurns lane (call.base lane) turns).1.Valid ∧
      Turned callbacks lane call (afterTurns lane (call.base lane) turns).1
        (afterTurns lane (call.base lane) turns).2 := by
  have hnodup : (turns.map fun turn => turn.1.state.key).Nodup := by
    have := hv.chained.nodup
    rw [keys, ← hall, List.map_map] at this
    exact this
  have hmem : ∀ turn ∈ turns, turn.1 ∈ lane.channels := fun turn h =>
    hall ▸ List.mem_map_of_mem h
  have hplaced : ∀ turn ∈ turns, turn.2.1.Idle ∧ turn.2.1.key = turn.1.state.key := by
    intro turn h
    exact (channelStep_steps (hgap _) (placed_some (hv.idle _ (hmem turn h)) rfl)
      (hturn turn h)).2 _ rfl
  have hkeys : (afterTurns lane (call.base lane) turns).1.keys = lane.keys := by
    rw [keys, keys, ← hall, afterTurns, List.map_map, List.map_map]
    exact List.map_congr_left fun turn h => (hplaced turn h).2
  have hbefore : ∀ turn ∈ turns, lane.stateOf turn.1.state.key = some turn.1.state := by
    intro turn h
    obtain ⟨i, hi⟩ := List.mem_iff_getElem?.1 (hmem turn h)
    exact (stateOf_eq_some_iff hv.chained.nodup).2 ⟨rfl, i, _, hi, rfl⟩
  have hafter : ∀ turn ∈ turns, (afterTurns lane (call.base lane) turns).1.stateOf
      turn.1.state.key = some turn.2.1 := by
    intro turn h
    obtain ⟨i, hi⟩ := List.mem_iff_getElem?.1 h
    refine (stateOf_eq_some_iff (hkeys ▸ hv.chained.nodup)).2
      ⟨(hplaced turn h).2, i, { turn.1 with state := turn.2.1 }, ?_, rfl⟩
    simp [afterTurns, hi]
  have hkeysOf : lane.keys = turns.map fun turn => turn.1.state.key := by
    rw [keys, ← hall, List.map_map]
    rfl
  refine ⟨⟨⟨hkeys ▸ hv.chained, ?_⟩, ?_⟩, .served (turnOf turns) ?_ ?_ ?_⟩
  · have hlen : turns.length = lane.channels.length := by rw [← hall, List.length_map]
    simpa [afterTurns, hlen] using hv.bounded
  · intro entry h
    simp only [afterTurns, List.mem_map] at h
    obtain ⟨turn, hmem', rfl⟩ := h
    exact (hplaced turn hmem').1
  · intro key hoff
    rw [hon key] at hoff
    cases hoff
  · intro key op' hon'
    rw [hon key] at hon'
    cases hon'
    by_cases hin : key ∈ lane.keys
    · rw [hkeysOf] at hin
      obtain ⟨turn, h, rfl⟩ := List.mem_map.1 hin
      refine ⟨turn.1.mailboxSlot, ?_, ?_⟩
      · rw [hbefore turn h, hafter turn h, turnOf_mem hnodup h]
        exact hturn turn h
      · rw [turnOf_mem hnodup h]
        exact of_turns_mem hnodup h
    · refine ⟨0, ?_, ?_⟩
      · rw [stateOf_eq_none_iff.2 hin, stateOf_eq_none_iff.2 (hkeys ▸ hin),
          turnOf_absent (hkeysOf ▸ hin)]
        exact hunused key 0
      · rw [turnOf_absent (hkeysOf ▸ hin)]
        exact of_turns_absent (hkeysOf ▸ hin)
  · refine ⟨turns.flatMap fun turn => turn.2.2.deadlines, rfl, fun d => ?_⟩
    rw [List.mem_flatMap]
    constructor
    · rintro ⟨turn, h, hd⟩
      exact ⟨turn.1.state.key, (turnOf_mem hnodup h).symm ▸ hd⟩
    · rintro ⟨key, hd⟩
      by_cases hin : key ∈ turns.map fun turn => turn.1.state.key
      · obtain ⟨turn, h, rfl⟩ := List.mem_map.1 hin
        rw [turnOf_mem hnodup h] at hd
        exact ⟨turn, h, hd⟩
      · rw [turnOf_absent hin] at hd
        cases hd

/-- The turns of all channels, made one after the other. -/
theorem mapM_turns {turn : ChannelEntry cfg → Option (ChannelState cfg × Effects)} :
    ∀ {channels : List (ChannelEntry cfg)} {turns : List (LaneTurn cfg)},
      channels.mapM (fun entry => (turn entry).map fun r => (entry, r)) = some turns →
      turns.map Prod.fst = channels ∧ ∀ t ∈ turns, turn t.1 = some t.2
  | [], turns, h => by
    cases h
    exact ⟨rfl, by simp⟩
  | entry :: channels, turns, h => by
    rw [List.mapM_cons] at h
    obtain ⟨first, hfirst, h⟩ := Option.bind_eq_some_iff.1 h
    obtain ⟨rest, hrest, h⟩ := Option.bind_eq_some_iff.1 h
    cases h
    obtain ⟨r, hr, rfl⟩ := Option.map_eq_some_iff.1 hfirst
    obtain ⟨hmap, hall⟩ := mapM_turns hrest
    refine ⟨by rw [List.map_cons, hmap], fun t ht => ?_⟩
    rcases List.mem_cons.1 ht with rfl | ht
    · exact hr
    · exact hall t ht

theorem exists_mapM_turns {turn : ChannelEntry cfg → Option (ChannelState cfg × Effects)} :
    ∀ {channels : List (ChannelEntry cfg)}, (∀ entry ∈ channels, ∃ r, turn entry = some r) →
      ∃ turns, channels.mapM (fun entry => (turn entry).map fun r => (entry, r)) = some turns
  | [], _ => ⟨[], rfl⟩
  | entry :: channels, h => by
    obtain ⟨r, hr⟩ := h entry (List.mem_cons_self)
    obtain ⟨turns, hturns⟩ := exists_mapM_turns fun e he => h e (List.mem_cons_of_mem _ he)
    exact ⟨(entry, r) :: turns, by rw [List.mapM_cons, hr, hturns]; rfl⟩

/-- The channels a call is on, when it is on one only. -/
def Call.channel? : Call → Option ChannelKey
  | .process decoded _ => some decoded.key
  | .freezeDecodeFailure key _ _ => some key
  | .poll _ => none
  | .flush _ => none

theorem Call.on_eq_none {call : Call} {key key' : ChannelKey} (h : call.channel? = some key)
    (hne : key' ≠ key) : call.on key' = none := by
  cases call with
  | process decoded now =>
    cases h
    exact if_neg (Ne.symm hne)
  | freezeDecodeFailure key'' sequence now =>
    cases h
    exact if_neg (Ne.symm hne)
  | poll now => cases h
  | flush now => cases h

/-- A call of a lane is the turns of the channels it is on, and keeps the lane valid. -/
theorem step_turned {callbacks : LaneCallbacks}
    (hgap : ∀ slot gap, (callbacks slot).emitGap gap = true) {lane lane' : SequenceRecovery cfg}
    {call : Call} {trace : Trace} (hv : lane.Valid)
    (h : step callbacks lane call = some (lane', trace)) :
    lane'.Valid ∧ Turned callbacks lane call lane' trace := by
  cases call with
  | process decoded now =>
    simp only [step, process] at h
    rcases findOrCreate_cases hv.toRegistered decoded.toTickDecodeResult.key with
      ⟨i, mid, entry, hfind, hmid, hi, hstate, hkey, hothers, hnext, hentries⟩ |
        ⟨hfind, hunused, hfull⟩
    · rw [hfind] at h
      refine onChannel_turned hgap hv hmid hi hkey hothers hnext hentries (if_pos rfl)
        (fun key' hne => Call.on_eq_none rfl hne) rfl (fun r hr => ?_) h
      rw [channelStep, stateD, ← hstate, hr]
      rfl
    · rw [hfind] at h
      cases h
      exact ⟨hv, .refused _ (fun key' hne => Call.on_eq_none rfl hne) hunused hfull rfl
        fun key' => Trace.of_none _ _⟩
  | poll now =>
    simp only [step, poll] at h
    split_ifs at h with hbefore
    · cases h
      exact ⟨hv, .early now rfl hbefore rfl rfl⟩
    · cases h
      have hon : ∀ key, (Call.poll now).on key = some (.poll now) := fun key => rfl
      refine afterTurns_turned hgap hv hon (fun key slot => rfl) ?_ ?_
      · rw [List.map_map]
        exact List.map_id' _
      · intro turn hturn
        obtain ⟨entry, -, rfl⟩ := List.mem_map.1 hturn
        rfl
  | flush now =>
    simp only [step, flush, Option.map_eq_some_iff] at h
    obtain ⟨turns, hturns, h⟩ := h
    obtain ⟨hall, hturn⟩ := mapM_turns hturns
    have hon : ∀ key, (Call.flush now).on key = some (.flush now) := fun key => rfl
    obtain ⟨hvalid, hturned⟩ := afterTurns_turned hgap hv hon (fun key slot => rfl) hall
      fun turn hmem => by
        rw [channelStep, hturn turn hmem]
        rfl
    rw [show lane.nextDeadlineNs = (Call.flush now).base lane from rfl] at h
    rw [h] at hvalid hturned
    exact ⟨hvalid, hturned⟩
  | freezeDecodeFailure key sequence now =>
    simp only [step, freezeDecodeFailure] at h
    split_ifs at h with hmode
    · cases h
      refine ⟨hv, .served (fun _ => {}) (fun _ _ => ⟨rfl, rfl, rfl⟩) (fun key' op hon => ?_)
        ⟨[], rfl, fun d => by simp⟩⟩
      cases Call.sees hon
      exact ⟨0, if_pos hmode, rfl⟩
    · rcases findOrCreate_cases hv.toRegistered key with
        ⟨i, mid, entry, hfind, hmid, hi, hstate, hkey, hothers, hnext, hentries⟩ |
          ⟨hfind, hunused, hfull⟩
      · rw [hfind] at h
        refine onChannel_turned hgap hv hmid hi hkey hothers hnext hentries (if_pos rfl)
          (fun key' hne => Call.on_eq_none rfl hne) rfl (fun r hr => ?_) h
        rw [channelStep, if_neg hmode, stateD, ← hstate]
        cases hr
        rfl
      · rw [hfind] at h
        cases h
        exact ⟨hv, .refused _ (fun key' hne => Call.on_eq_none rfl hne) hunused hfull rfl
          fun key' => Trace.of_none _ _⟩

theorem exists_onChannel {lane : SequenceRecovery cfg} {i : ℕ} {entry : ChannelEntry cfg}
    {turn : ChannelEntry cfg → Option (ChannelState cfg × Effects)}
    (hi : lane.channels[i]? = some entry) (h : ∃ r, turn entry = some r) :
    ∃ r, onChannel lane i turn = some r := by
  obtain ⟨r, hr⟩ := h
  simp only [onChannel, hi, hr]
  exact ⟨_, rfl⟩

/-- Every call ends. -/
theorem exists_step {callbacks : LaneCallbacks}
    (hgap : ∀ slot gap, (callbacks slot).emitGap gap = true) {lane : SequenceRecovery cfg}
    (hv : lane.Valid) (call : Call) : ∃ r, step callbacks lane call = some r := by
  cases call with
  | process decoded now =>
    simp only [step, process]
    rcases findOrCreate_cases hv.toRegistered decoded.toTickDecodeResult.key with
      ⟨i, mid, entry, hfind, -, hi, hstate, -⟩ | ⟨hfind, -, -⟩
    · rw [hfind]
      refine exists_onChannel hi (exists_processChannel (hgap _) _ now ?_)
      rw [hstate]
      exact (hv.placed _).resting.1
    · rw [hfind]
      exact ⟨_, rfl⟩
  | poll now => exact ⟨_, rfl⟩
  | flush now =>
    have hall : ∀ entry ∈ lane.channels, ∃ r,
        flushChannel (callbacks entry.mailboxSlot) now entry.state = some r :=
      fun entry h => exists_flushChannel (hgap entry.mailboxSlot) now (hv.idle entry h)
    obtain ⟨turns, hturns⟩ := exists_mapM_turns hall
    exact ⟨_, by rw [step, flush, hturns]; rfl⟩
  | freezeDecodeFailure key sequence now =>
    simp only [step, freezeDecodeFailure]
    split_ifs with hmode
    · exact ⟨_, rfl⟩
    · rcases findOrCreate_cases hv.toRegistered key with ⟨i, mid, entry, hfind, -, hi, -⟩ |
        ⟨hfind, -, -⟩
      · rw [hfind]
        exact exists_onChannel hi ⟨_, rfl⟩
      · rw [hfind]
        exact ⟨_, rfl⟩

end SequenceRecovery

end L2Flow
