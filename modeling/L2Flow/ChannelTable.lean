import L2Flow.Dispatcher
import L2Flow.Interleaving
import L2Flow.Runs

/-!
# The channel table over a run

Calls of `FindOrCreate` in any order, between which the states that they return are written to.
`channel_table_map` says what the table and the dense array of states are together : a map from
channels to states that neither move nor are reset, with room for `maximum_channels` of them.
The hash function may be any.

The mailbox slot of a state is its index, so that `PublishGap` finds it within its bounds, and a
cell of the table, which holds an index plus one, holds it in 32 bits.
-/

namespace L2Flow

namespace ChannelTable

open SequenceRecovery

variable {cfg : RecoveryConfig}

/-- A lookup, or a change of the state of a channel that is in the table. -/
inductive Action (cfg : RecoveryConfig) where
  | find (key : ChannelKey)
  /-- The state at an index is written to, other than its market and channel. -/
  | write (index : ℕ) (state : ChannelState cfg)

/-- What a lookup was answered. -/
inductive Event where
  | found (key : ChannelKey) (index : ℕ)
  /-- `FindOrCreate` returns `nullptr`. -/
  | refused (key : ChannelKey)
  deriving DecidableEq

/-- A change keeps the key of the channel, as the calls of the recovery do. -/
def step (hash : ChannelKey → ℕ) (lane : SequenceRecovery cfg) :
    Action cfg → Option (SequenceRecovery cfg × List Event)
  | .find key =>
    match findOrCreate hash lane key with
    | some (index, lane) => some (lane, [.found key index])
    | none => some (lane, [.refused key])
  | .write index state =>
    match lane.channels[index]? with
    | some entry =>
      if state.key = entry.state.key then
        some ({ lane with channels := lane.channels.set index { entry with state := state } }, [])
      else none
    | none => none

/-- The lane from its construction on, for any hash of keys. -/
def machine (cfg : RecoveryConfig) (hash : ChannelKey → ℕ) :
    Machine (SequenceRecovery cfg) (Action cfg) Event where
  start := init cfg
  step := step hash

/-- The channels that were found or created. -/
def keysFound (log : List Event) : List ChannelKey :=
  log.filterMap fun
    | .found key _ => some key
    | .refused _ => none

theorem mem_keysFound {log : List Event} {key : ChannelKey} :
    key ∈ keysFound log ↔ ∃ index, .found key index ∈ log := by
  rw [keysFound, List.mem_filterMap]
  constructor
  · rintro ⟨⟨key', index⟩ | _, hmem, hkey⟩
    · obtain rfl := Option.some.inj hkey
      exact ⟨index, hmem⟩
    · cases hkey
  · rintro ⟨index, hmem⟩
    exact ⟨_, hmem, rfl⟩

/-! ## The invariant -/

/-- The array holds the channels found, each at the index that was returned for it. -/
structure Mapped (hash : ChannelKey → ℕ) (lane : SequenceRecovery cfg) (log : List Event) :
    Prop where
  chained : LinearProbing.Chained (nextSlot cfg) (fun key => tableSlot cfg (hash key))
    lane.channelTable lane.keys
  bounded : lane.channels.length ≤ cfg.maximumChannels
  slots : ∀ i (entry : ChannelEntry cfg), lane.channels[i]? = some entry → entry.mailboxSlot = i
  found : ∀ key i, .found key i ∈ log → lane.keys[i]? = some key
  keys : ∀ key ∈ lane.keys, ∃ i, .found key i ∈ log

theorem mapped_init (hash : ChannelKey → ℕ) : Mapped hash (init cfg) [] where
  chained := LinearProbing.Chained.nil _ _
  bounded := Nat.zero_le _
  slots i entry h := by cases h
  found key i h := by cases h
  keys key h := by cases h

section Step

variable {hash : ChannelKey → ℕ} {lane lane' : SequenceRecovery cfg} {log new : List Event}

/-- A change of a channel's state moves nothing in the table. -/
theorem Mapped.write (h : Mapped hash lane log) {index : ℕ} {entry : ChannelEntry cfg}
    (hentry : lane.channels[index]? = some entry) {state : ChannelState cfg}
    (hkey : state.key = entry.state.key) :
    Mapped hash { lane with channels := lane.channels.set index { entry with state := state } }
      log := by
  let entry' : ChannelEntry cfg := { entry with state := state }
  have hkey' : entry'.state.key = entry.state.key := hkey
  have hkeys := (stateOf_set h.chained.nodup hentry hkey'
    (rfl : SequenceRecovery.channels { lane with
      channels := lane.channels.set index entry' } = _)).1
  constructor
  · rw [hkeys]
    exact h.chained
  · simpa using h.bounded
  · intro i entry' hentry'
    rw [List.getElem?_set] at hentry'
    split_ifs at hentry' with hi hlt
    · obtain rfl := Option.some.inj hentry'
      exact hi ▸ h.slots index entry hentry
    · exact h.slots i entry' hentry'
  · rw [hkeys]
    exact h.found
  · rw [hkeys]
    exact h.keys

/-- A lookup answers what it has answered before for the key, or takes the next index for it ; it
fails only when the table holds as many channels as are allowed. -/
theorem Mapped.call (h : Mapped hash lane log) {key : ChannelKey}
    (hstep : step hash lane (.find key) = some (lane', new)) : Mapped hash lane' (log ++ new) := by
  rcases findOrCreate_spec h.chained h.bounded key with
    ⟨i, hget, hfind⟩ | ⟨hkey, hroom, slot, hfind, hchained⟩ | ⟨hkey, hfull, hfind⟩ <;>
    rw [step, hfind] at hstep <;>
    obtain ⟨rfl, rfl⟩ := Prod.mk.inj (Option.some.inj hstep)
  · refine ⟨h.chained, h.bounded, h.slots, fun key' j hmem => ?_, fun key' hkey' => ?_⟩
    · rcases List.mem_append.1 hmem with hold | hnew
      · exact h.found key' j hold
      · obtain ⟨rfl, rfl⟩ := Event.found.inj (List.mem_singleton.1 hnew)
        exact hget
    · exact (h.keys key' hkey').imp fun j hj => List.mem_append_left _ hj
  · have hlen : lane.keys.length = lane.channels.length := List.length_map _
    refine ⟨hchained, ?_, fun i entry hentry => ?_, fun key' j hmem => ?_, fun key' hkey' => ?_⟩
    · simpa [created] using Nat.succ_le_of_lt hroom
    · rw [created, List.getElem?_append] at hentry
      split_ifs at hentry with hlt
      · exact h.slots i entry hentry
      · obtain ⟨hzero, rfl⟩ := List.getElem?_eq_some_iff.1 hentry
        have hi : i - lane.channels.length = 0 := by simpa using hzero
        simp only [hi, List.getElem_cons_zero]
        omega
    · rw [keys_created]
      rcases List.mem_append.1 hmem with hold | hnew
      · have hget := h.found key' j hold
        rw [List.getElem?_append_left (List.getElem?_eq_some_iff.1 hget).1, hget]
      · obtain ⟨rfl, rfl⟩ := Event.found.inj (List.mem_singleton.1 hnew)
        rw [← hlen, List.getElem?_concat_length]
    · rw [keys_created] at hkey'
      rcases List.mem_append.1 hkey' with hold | hnew
      · exact (h.keys key' hold).imp fun j hj => List.mem_append_left _ hj
      · obtain rfl := List.mem_singleton.1 hnew
        exact ⟨_, List.mem_append_right _ (List.mem_singleton_self _)⟩
  · refine ⟨h.chained, h.bounded, h.slots, fun key' j hmem => ?_, fun key' hkey' => ?_⟩
    · rcases List.mem_append.1 hmem with hold | hnew
      · exact h.found key' j hold
      · cases List.mem_singleton.1 hnew
    · exact (h.keys key' hkey').imp fun j hj => List.mem_append_left _ hj

/-- Each action keeps the table a map of the keys that were found. -/
theorem mapped_step {action : Action cfg} (h : Mapped hash lane log)
    (hstep : step hash lane action = some (lane', new)) : Mapped hash lane' (log ++ new) := by
  rcases action with key | ⟨index, state⟩
  · exact h.call hstep
  · rw [step] at hstep
    split at hstep
    · next entry hentry =>
      split_ifs at hstep with hkey
      obtain ⟨rfl, rfl⟩ := Prod.mk.inj (Option.some.inj hstep)
      rw [List.append_nil]
      exact h.write hentry hkey
    · cases hstep

/-- So it is a map of the keys whatever has been looked up. -/
theorem mapped (h : (machine cfg hash).Reaches lane log) : Mapped hash lane log :=
  Machine.invariant (I := Mapped hash) (mapped_init hash) (fun h hstep => mapped_step h hstep) h

/-! ## States that are not written to -/

/-- A step keeps every state but the one it writes to. -/
theorem kept_step (h : Mapped hash lane log) {action : Action cfg}
    (hstep : step hash lane action = some (lane', new)) {i : ℕ} {entry : ChannelEntry cfg}
    (hentry : lane.channels[i]? = some entry) (hwrite : ∀ state, action ≠ .write i state) :
    lane'.channels[i]? = some entry := by
  rcases action with key | ⟨index, state⟩
  · rcases findOrCreate_spec h.chained h.bounded key with
      ⟨j, -, hfind⟩ | ⟨-, -, slot, hfind, -⟩ | ⟨-, -, hfind⟩ <;>
      rw [step, hfind] at hstep <;>
      obtain ⟨rfl, -⟩ := Prod.mk.inj (Option.some.inj hstep)
    · exact hentry
    · rw [created, List.getElem?_append_left (List.getElem?_eq_some_iff.1 hentry).1]
      exact hentry
    · exact hentry
  · rw [step] at hstep
    split at hstep
    · split_ifs at hstep
      obtain ⟨rfl, -⟩ := Prod.mk.inj (Option.some.inj hstep)
      rw [List.getElem?_set_ne fun heq => hwrite state (by rw [heq])]
      exact hentry
    · cases hstep

/-- A channel stays where it is, with its state, as long as nobody changes it. -/
theorem kept_runFrom : ∀ {actions : List (Action cfg)} {lane lane' : SequenceRecovery cfg}
    {log new : List Event}, Mapped hash lane log →
      (machine cfg hash).runFrom lane actions = some (lane', new) → ∀ {i : ℕ}
      {entry : ChannelEntry cfg}, lane.channels[i]? = some entry →
      (∀ state, .write i state ∉ actions) → lane'.channels[i]? = some entry
  | [], lane, lane', log, new, _, hrun, i, entry, hentry, _ => by
    obtain ⟨rfl, -⟩ := Prod.mk.inj (Option.some.inj hrun)
    exact hentry
  | action :: actions, lane, lane', log, new, h, hrun, i, entry, hentry, hwrite => by
    obtain ⟨next, first, rest, hstep, hrest, -⟩ := Machine.runFrom_cons.1 hrun
    exact kept_runFrom (mapped_step h hstep) hrest
      (kept_step h hstep hentry fun state heq => hwrite state (heq ▸ List.mem_cons_self))
      fun state hmem => hwrite state (List.mem_cons_of_mem _ hmem)

end Step

/-! ## The map -/

/-- Distinct channels were found as often as there are entries. -/
theorem Mapped.card {hash : ChannelKey → ℕ} {lane : SequenceRecovery cfg} {log : List Event}
    (h : Mapped hash lane log) : (keysFound log).dedup.length = lane.channels.length := by
  have hperm : (keysFound log).dedup.Perm lane.keys := by
    refine (List.perm_ext_iff_of_nodup (List.nodup_dedup _) h.chained.nodup).2 fun key => ?_
    rw [List.mem_dedup, mem_keysFound]
    exact ⟨fun ⟨i, hi⟩ => List.mem_of_getElem? (h.found key i hi), h.keys key⟩
  exact hperm.length_eq.trans (List.length_map _)

/-- What `FindOrCreate` has returned is a map from channels to states that stay, and what it
returns next agrees with it. -/
structure StableMap (hash : ChannelKey → ℕ) (lane : SequenceRecovery cfg) (log : List Event) :
    Prop where
  same : ∀ key i j, .found key i ∈ log → .found key j ∈ log → i = j
  different : ∀ key key' i, .found key i ∈ log → .found key' i ∈ log → key = key'
  entries : ∀ key i, .found key i ∈ log →
    ∃ entry : ChannelEntry cfg, lane.channels[i]? = some entry ∧ entry.state.key = key
  fresh : ∀ key i lane', findOrCreate hash lane key = some (i, lane') → key ∉ keysFound log →
    lane'.channels = lane.channels ++ [⟨i, .fresh cfg key⟩] ∧ i = lane.channels.length
  found : ∀ key i, .found key i ∈ log → findOrCreate hash lane key = some (i, lane)
  kept : ∀ actions lane' new, (machine cfg hash).runFrom lane actions = some (lane', new) →
    ∀ (i : ℕ) (entry : ChannelEntry cfg), lane.channels[i]? = some entry →
      (∀ state, .write i state ∉ actions) → lane'.channels[i]? = some entry
  /-- A state has a mailbox slot of its own, within the bounds of `PublishGap`. -/
  slots : ∀ (i : ℕ) (entry : ChannelEntry cfg), lane.channels[i]? = some entry →
    entry.mailboxSlot = i ∧ i < cfg.maximumChannels ∧ i + 1 < 2 ^ 32 ∧
      ∀ (producers producer : ℕ) (dispatcher : Dispatcher.State) (gap : ChannelGap),
        producer < producers → dispatcher.marking producer = none →
          ∃ dispatcher', Dispatcher.publishStep ⟨producers, cfg.maximumChannels⟩ dispatcher
            producer entry.mailboxSlot gap =
              some (dispatcher', [.published producer entry.mailboxSlot gap])
  /-- The table is full for a new channel, and only then. -/
  refused : ∀ key, step hash lane (.find key) = some (lane, [.refused key]) ↔
    key ∉ keysFound log ∧ (keysFound log).dedup.length = cfg.maximumChannels

theorem channel_table_map {hash : ChannelKey → ℕ} {lane : SequenceRecovery cfg} {log : List Event}
    (h : (machine cfg hash).Reaches lane log) : StableMap hash lane log := by
  have hm := mapped h
  have hheld : ∀ key, key ∈ lane.keys ↔ key ∈ keysFound log := fun key =>
    ⟨fun hkey => mem_keysFound.2 (hm.keys key hkey),
      fun hkey => (mem_keysFound.1 hkey).elim fun i hi => List.mem_of_getElem? (hm.found key i hi)⟩
  constructor
  · intro key i j hi hj
    have hget := hm.found key i hi
    exact (List.getElem?_inj (List.getElem?_eq_some_iff.1 hget).1 hm.chained.nodup).1
      (hget.trans (hm.found key j hj).symm)
  · intro key key' i hi hi'
    exact Option.some.inj ((hm.found key i hi).symm.trans (hm.found key' i hi'))
  · intro key i hi
    have hget := hm.found key i hi
    rwa [keys, List.getElem?_map, Option.map_eq_some_iff] at hget
  · intro key i lane' hfind hnew
    rcases findOrCreate_spec hm.chained hm.bounded key with
      ⟨j, hget, -⟩ | ⟨-, -, slot, hcreate, -⟩ | ⟨-, -, hnone⟩
    · exact absurd ((hheld key).1 (List.mem_of_getElem? hget)) hnew
    · rw [hcreate] at hfind
      obtain ⟨rfl, rfl⟩ := Prod.mk.inj (Option.some.inj hfind)
      exact ⟨rfl, rfl⟩
    · rw [hnone] at hfind
      cases hfind
  · intro key i hi
    have hget := hm.found key i hi
    rcases findOrCreate_spec hm.chained hm.bounded key with
      ⟨j, hget', hfind⟩ | ⟨hkey, -⟩ | ⟨hkey, -⟩
    · rw [hfind, (List.getElem?_inj (List.getElem?_eq_some_iff.1 hget).1 hm.chained.nodup).1
        (hget.trans hget'.symm)]
    · exact absurd (List.mem_of_getElem? hget) hkey
    · exact absurd (List.mem_of_getElem? hget) hkey
  · exact fun actions lane' new hrun i entry hentry hwrite => kept_runFrom hm hrun hentry hwrite
  · intro i entry hentry
    have hslot := hm.slots i entry hentry
    have hlt : i < cfg.maximumChannels :=
      lt_of_lt_of_le (List.getElem?_eq_some_iff.1 hentry).1 hm.bounded
    have hmax := cfg.channels_le
    refine ⟨hslot, hlt, by omega, fun producers producer dispatcher gap hproducer hidle => ?_⟩
    rw [hslot, Dispatcher.publishStep, if_neg (not_not.2 hidle), if_neg (by simp; omega)]
    exact ⟨_, rfl⟩
  · intro key
    rw [hm.card, ← hheld]
    rcases findOrCreate_spec hm.chained hm.bounded key with
      ⟨i, hget, hfind⟩ | ⟨hkey, hroom, slot, hfind, -⟩ | ⟨hkey, hfull, hfind⟩ <;>
      rw [step, hfind]
    · simp [List.mem_of_getElem? hget]
    · simp [hroom.ne]
    · simp [hkey, hfull]

/-- Two channels with one home, in a table for two; there is no room for a third. -/
def sampleActions : List (Action (sampleConfig .kFromOpen 0 0)) :=
  [.find ⟨.kShanghai, 1⟩, .find ⟨.kShenzhen, 1⟩, .find ⟨.kShanghai, 2⟩, .find ⟨.kShenzhen, 1⟩]

def sampleLog : List Event :=
  [.found ⟨.kShanghai, 1⟩ 0, .found ⟨.kShenzhen, 1⟩ 1, .refused ⟨.kShanghai, 2⟩,
    .found ⟨.kShenzhen, 1⟩ 1]

theorem channel_table_map_sample : ∃ lane : SequenceRecovery (sampleConfig .kFromOpen 0 0),
    (machine _ fun _ => 0).Reaches lane sampleLog ∧ StableMap (fun _ => 0) lane sampleLog := by
  have hrun : ((machine (sampleConfig .kFromOpen 0 0) fun _ => 0).run sampleActions).map (·.2) =
      some sampleLog := by decide +kernel
  obtain ⟨⟨lane, log⟩, hreach, rfl⟩ := Option.map_eq_some_iff.1 hrun
  exact ⟨lane, ⟨_, hreach⟩, channel_table_map ⟨_, hreach⟩⟩

end ChannelTable

end L2Flow
