import L2Flow.Channel
import L2Flow.LinearProbing

/-!
# The recovery of one lane

`SequenceRecovery` as a tick lane owns it : the channels in order of first sight, the
open-addressing table that finds them, and the next deadline of `Poll`. A call goes to
one channel (`Process`, `FreezeDecodeFailure`) or gives every channel its turn (`Poll`,
`Flush`), and its effects are applied to the lane : events are appended to the trace
under their channel, deadlines lower `next_deadline_ns_`.

A channel's `mailbox_slot` is set once, when the channel is created. It is kept beside
the channel's state and chooses the callbacks the channel's functions are given, as
`emit_gap` takes it first.
-/

namespace L2Flow

/-! ## The channel table -/

/-- Double `value` until it reaches `target`. -/
def doubleUntil (target : ℕ) : ℕ → ℕ → ℕ
  | 0, value => value
  | fuel + 1, value => if value < target then doubleUntil target fuel (value * 2) else value

theorem le_doubleUntil {target : ℕ} : ∀ {fuel value : ℕ}, 0 < value → target ≤ value + fuel →
    target ≤ doubleUntil target fuel value
  | 0, _, _, h => h
  | fuel + 1, value, hv, h => by
    rw [doubleUntil]
    split_ifs with hlt
    · exact le_doubleUntil (by omega) (by omega)
    · omega

theorem isPowerOfTwo_pow (k : ℕ) : isPowerOfTwo (2 ^ k) = true := by
  have h0 : 2 ^ k ≠ 0 := (Nat.two_pow_pos k).ne'
  simp [isPowerOfTwo, Nat.and_two_pow_sub_one_eq_mod]

theorem isPowerOfTwo_doubleUntil (target : ℕ) : ∀ (fuel k : ℕ),
    isPowerOfTwo (doubleUntil target fuel (2 ^ k)) = true
  | 0, k => isPowerOfTwo_pow k
  | fuel + 1, k => by
    rw [doubleUntil]
    split_ifs
    · rw [← Nat.pow_succ]
      exact isPowerOfTwo_doubleUntil target fuel (k + 1)
    · exact isPowerOfTwo_pow k

/-- The size of `channel_table_` : the least power of two that is at least twice the
number of channels. -/
def tableCapacity (cfg : RecoveryConfig) : ℕ :=
  doubleUntil (cfg.maximumChannels * 2) (cfg.maximumChannels * 2) 1

theorem isPowerOfTwo_tableCapacity (cfg : RecoveryConfig) :
    isPowerOfTwo (tableCapacity cfg) = true :=
  isPowerOfTwo_doubleUntil _ _ 0

theorem lt_tableCapacity (cfg : RecoveryConfig) : cfg.maximumChannels < tableCapacity cfg := by
  have h : cfg.maximumChannels * 2 ≤ tableCapacity cfg := le_doubleUntil one_pos (by omega)
  have := cfg.channels_pos
  omega

/-- `value & channel_table_mask_`. -/
def tableSlot (cfg : RecoveryConfig) (value : ℕ) : Fin (tableCapacity cfg) :=
  ⟨value &&& (tableCapacity cfg - 1),
    lt_of_le_of_lt Nat.and_le_right (by have := lt_tableCapacity cfg; omega)⟩

theorem tableSlot_val (cfg : RecoveryConfig) (value : ℕ) :
    (tableSlot cfg value : ℕ) = value % tableCapacity cfg :=
  and_pred_eq_mod (isPowerOfTwo_tableCapacity cfg) value

/-- The next slot of a probe. -/
def nextSlot (cfg : RecoveryConfig) (slot : Fin (tableCapacity cfg)) : Fin (tableCapacity cfg) :=
  tableSlot cfg (slot + 1)

/-- `HashChannel`. -/
def hashChannel (key : ChannelKey) : ℕ :=
  let value : BitVec 64 := (BitVec.ofNat 64 key.market.value <<< 32) ||| BitVec.ofNat 64 key.channel
  let value := value ^^^ (value >>> 30)
  let value := value * 0xbf58476d1ce4e5b9#64
  let value := value ^^^ (value >>> 27)
  let value := value * 0x94d049bb133111eb#64
  (value ^^^ (value >>> 31)).toNat

/-! ## State -/

/-- A channel in use : its state, and the mailbox slot given to it at creation. -/
structure ChannelEntry (cfg : RecoveryConfig) where
  mailboxSlot : ℕ
  state : ChannelState cfg

/-- The state of a lane's recovery. `channels` are the first `channel_count_` entries of
`channels_`. A cell of `channelTable` holds an index, where the source stores the index
plus one and zero for an empty cell. -/
structure SequenceRecovery (cfg : RecoveryConfig) where
  channels : List (ChannelEntry cfg)
  channelTable : Fin (tableCapacity cfg) → Option ℕ
  nextDeadlineNs : ℕ

/-- The callbacks of one call, by the mailbox slot of the channel that makes them. -/
abbrev LaneCallbacks := ℕ → Callbacks

/-- Events in order, each with its channel; the lane's own have none. -/
abbrev Trace := List (Option ChannelKey × Event)

/-- The events of one channel. -/
def Trace.of (trace : Trace) (key : ChannelKey) : List Event :=
  trace.filterMap fun e => if e.1 = some key then some e.2 else none

def tag (key : ChannelKey) (events : List Event) : Trace :=
  events.map fun e => (some key, e)

namespace SequenceRecovery

variable {cfg : RecoveryConfig}

/-- The lane as constructed. -/
def init (cfg : RecoveryConfig) : SequenceRecovery cfg where
  channels := []
  channelTable := fun _ => none
  nextDeadlineNs := 0

/-- The keys of the channels in use. -/
def keys (lane : SequenceRecovery cfg) : List ChannelKey :=
  lane.channels.map fun entry => entry.state.key

/-- The state of the channel `key`, if it is in use. -/
def stateOf (lane : SequenceRecovery cfg) (key : ChannelKey) : Option (ChannelState cfg) :=
  (lane.channels.find? fun entry => entry.state.key = key).map ChannelEntry.state

/-- `FindOrCreate`, for a hash function : the index of the channel's entry. That the allocation of a
new channel's table fails, which returns `nullptr` too, is left out. -/
def findOrCreate (hash : ChannelKey → ℕ) (lane : SequenceRecovery cfg) (key : ChannelKey) :
    Option (ℕ × SequenceRecovery cfg) :=
  let matches_ := fun index => (lane.channels[index]?).any fun entry =>
    entry.state.market == key.market && entry.state.channel == key.channel
  match LinearProbing.walk (nextSlot cfg) lane.channelTable matches_ (tableCapacity cfg)
      (tableSlot cfg (hash key)) with
  | .vacant slot =>
    if cfg.maximumChannels ≤ lane.channels.length then none
    else
      some (lane.channels.length,
        { lane with
          channels := lane.channels ++ [⟨lane.channels.length, .fresh cfg key⟩]
          channelTable := Function.update lane.channelTable slot (some lane.channels.length) })
  | .found index => some (index, lane)
  | .exhausted => none

/-! ## Calls -/

/-- Lower `next_deadline_ns_` to a deadline that comes before it. -/
def noteDeadline (next deadline : ℕ) : ℕ :=
  if next = 0 ∨ deadline < next then deadline else next

/-- Run `op` on the channel at `index` and apply its effects. -/
def onChannel (lane : SequenceRecovery cfg) (index : ℕ)
    (op : ChannelEntry cfg → Option (ChannelState cfg × Effects)) :
    Option (SequenceRecovery cfg × Trace) :=
  match lane.channels[index]? with
  | none => some (lane, [])
  | some entry =>
    match op entry with
    | none => none
    | some (state, fx) =>
      some ({ lane with
          channels := lane.channels.set index { entry with state := state }
          nextDeadlineNs := fx.deadlines.foldl noteDeadline lane.nextDeadlineNs },
        tag entry.state.key fx.events)

/-- Apply what every channel did in its turn, in the order of the channels. -/
def afterTurns (lane : SequenceRecovery cfg) (nextDeadlineNs : ℕ)
    (turns : List (ChannelEntry cfg × ChannelState cfg × Effects)) :
    SequenceRecovery cfg × Trace :=
  ({ lane with
      channels := turns.map fun turn => { turn.1 with state := turn.2.1 }
      nextDeadlineNs := (turns.flatMap fun turn => turn.2.2.deadlines).foldl noteDeadline
        nextDeadlineNs },
    turns.flatMap fun turn => tag turn.1.state.key turn.2.2.events)

def process (callbacks : LaneCallbacks) (decoded : TickDecodeResult) (now : ℕ)
    (lane : SequenceRecovery cfg) : Option (SequenceRecovery cfg × Trace) :=
  match findOrCreate hashChannel lane decoded.key with
  | none =>
    some (lane, [(none, .fatal "native-sequence channel capacity or allocation exhausted")])
  | some (index, lane) =>
    onChannel lane index fun entry =>
      processChannel (callbacks entry.mailboxSlot) decoded now entry.state

def poll (callbacks : LaneCallbacks) (now : ℕ) (lane : SequenceRecovery cfg) :
    SequenceRecovery cfg × Trace :=
  if lane.nextDeadlineNs = 0 ∨ now < lane.nextDeadlineNs then (lane, [])
  else
    afterTurns lane 0 (lane.channels.map fun entry =>
      (entry, pollChannel (callbacks entry.mailboxSlot) now entry.state))

def flush (callbacks : LaneCallbacks) (now : ℕ) (lane : SequenceRecovery cfg) :
    Option (SequenceRecovery cfg × Trace) :=
  (lane.channels.mapM fun entry =>
    (flushChannel (callbacks entry.mailboxSlot) now entry.state).map fun turn =>
      (entry, turn)).map (afterTurns lane lane.nextDeadlineNs)

def freezeDecodeFailure (callbacks : LaneCallbacks) (key : ChannelKey) (sequence now : ℕ)
    (lane : SequenceRecovery cfg) : Option (SequenceRecovery cfg × Trace) :=
  if cfg.mode ≠ .kFromOpen then some (lane, [])
  else
    match findOrCreate hashChannel lane key with
    | none =>
      some (lane, [(none, .fatal
        "native-sequence channel capacity or allocation exhausted while recording a decode failure"
      )])
    | some (index, lane) =>
      onChannel lane index fun entry =>
        some (freezeChannel (callbacks entry.mailboxSlot) sequence now entry.state)

/-! ## Runs -/

/-- A call of the tick worker. -/
inductive Call where
  | process (decoded : DecodedTick) (now : ℕ)
  | poll (now : ℕ)
  | flush (now : ℕ)
  | freezeDecodeFailure (key : ChannelKey) (sequence now : ℕ)

/-- The time a call is made with. -/
def Call.now : Call → ℕ
  | .process _ now => now
  | .poll now => now
  | .flush now => now
  | .freezeDecodeFailure _ _ now => now

def step (callbacks : LaneCallbacks) (lane : SequenceRecovery cfg) :
    Call → Option (SequenceRecovery cfg × Trace)
  | .process decoded now => process callbacks decoded.toTickDecodeResult now lane
  | .poll now => some (poll callbacks now lane)
  | .flush now => flush callbacks now lane
  | .freezeDecodeFailure key sequence now => freezeDecodeFailure callbacks key sequence now lane

/-- Make the calls in order, each with its callbacks' answers. -/
def runFrom : SequenceRecovery cfg → List (Call × LaneCallbacks) →
    Option (SequenceRecovery cfg × Trace)
  | lane, [] => some (lane, [])
  | lane, (call, callbacks) :: calls =>
    match step callbacks lane call with
    | none => none
    | some (lane, trace) =>
      match runFrom lane calls with
      | none => none
      | some (lane, rest) => some (lane, trace ++ rest)

/-- A run from construction. -/
def runWith (cfg : RecoveryConfig) (calls : List (Call × LaneCallbacks)) :
    Option (SequenceRecovery cfg × Trace) :=
  runFrom (init cfg) calls

/-- A run all of whose callbacks succeed. -/
def run (cfg : RecoveryConfig) (calls : List Call) : Option (SequenceRecovery cfg × Trace) :=
  runWith cfg (calls.map fun call => (call, fun _ => .succeed))

end SequenceRecovery

end L2Flow
