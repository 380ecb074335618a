import L2Flow.Calls
import L2Flow.Lane

/-!
# Finding a channel

A lane keeps its channels in a list and finds them through an open-addressing table.
`Registered` says that the table is the one that inserting the keys of the channels in
order gives : `FindOrCreate` then finds a channel in use, creates one that is not, and
fails only when `maximum_channels` channels are in use (`findOrCreate_cases`). Nothing
about the hash function enters.

`Valid` adds that every channel is idle. It is what a lane is between two calls.
-/

namespace L2Flow

variable {cfg : RecoveryConfig}

/-! ## Traces of one channel -/

@[simp] theorem Trace.of_nil (key : ChannelKey) : Trace.of [] key = [] :=
  rfl

@[simp] theorem Trace.of_append (trace rest : Trace) (key : ChannelKey) :
    Trace.of (trace ++ rest) key = Trace.of trace key ++ Trace.of rest key :=
  List.filterMap_append

@[simp] theorem Trace.of_tag_self (key : ChannelKey) (events : List Event) :
    Trace.of (tag key events) key = events := by
  simp [Trace.of, tag, List.filterMap_map]

theorem Trace.of_tag_of_ne {key key' : ChannelKey} (h : key ≠ key') (events : List Event) :
    Trace.of (tag key events) key' = [] := by
  simp [Trace.of, tag, h]

@[simp] theorem Trace.of_none (event : Event) (key : ChannelKey) :
    Trace.of [(none, event)] key = [] := by
  simp [Trace.of]

namespace SequenceRecovery

/-! ## The channels in use -/

/-- The home slot of a channel in the table. -/
def home (cfg : RecoveryConfig) (key : ChannelKey) : Fin (tableCapacity cfg) :=
  tableSlot cfg (hashChannel key)

/-- The table holds the channels in use, each where the search for it ends. -/
structure Registered (lane : SequenceRecovery cfg) : Prop where
  chained : LinearProbing.Chained (nextSlot cfg) (home cfg) lane.channelTable lane.keys
  bounded : lane.channels.length ≤ cfg.maximumChannels

/-- A lane between two calls. -/
structure Valid (lane : SequenceRecovery cfg) : Prop extends Registered lane where
  idle : ∀ entry ∈ lane.channels, entry.state.Idle

theorem valid_init (cfg : RecoveryConfig) : (init cfg).Valid where
  chained := LinearProbing.Chained.nil _ _
  bounded := Nat.zero_le _
  idle := by simp [init]

/-- Two entries of one channel are one entry. -/
theorem index_unique {channels : List (ChannelEntry cfg)}
    (hnodup : (channels.map fun entry => entry.state.key).Nodup) {i j : ℕ}
    {entry entry' : ChannelEntry cfg} (hi : channels[i]? = some entry)
    (hj : channels[j]? = some entry') (hkey : entry.state.key = entry'.state.key) : i = j := by
  obtain ⟨hi', rfl⟩ := List.getElem?_eq_some_iff.1 hi
  obtain ⟨hj', rfl⟩ := List.getElem?_eq_some_iff.1 hj
  have hi'' : i < (channels.map fun entry => entry.state.key).length := by simpa using hi'
  have hj'' : j < (channels.map fun entry => entry.state.key).length := by simpa using hj'
  have hmap : (channels.map fun entry => entry.state.key)[i] =
      (channels.map fun entry => entry.state.key)[j] := by simpa using hkey
  exact hnodup.getElem_inj_iff.1 hmap

/-- The state of a channel is that of its entry. -/
theorem stateOf_eq_some_iff {lane : SequenceRecovery cfg} (hnodup : lane.keys.Nodup)
    {key : ChannelKey} {state : ChannelState cfg} :
    lane.stateOf key = some state ↔
      state.key = key ∧ ∃ (i : ℕ) (entry : ChannelEntry cfg),
        lane.channels[i]? = some entry ∧ entry.state = state := by
  unfold stateOf
  rw [Option.map_eq_some_iff]
  constructor
  · rintro ⟨entry, hfind, rfl⟩
    obtain ⟨i, hi⟩ := List.mem_iff_getElem?.1 (List.mem_of_find?_eq_some hfind)
    exact ⟨by simpa using List.find?_some hfind, i, entry, hi, rfl⟩
  · rintro ⟨hkey, i, entry, hi, rfl⟩
    refine ⟨entry, ?_, rfl⟩
    cases hfind : lane.channels.find? fun entry => entry.state.key = key with
    | none =>
      have := List.find?_eq_none.1 hfind entry (List.mem_of_getElem? hi)
      simp [hkey] at this
    | some entry' =>
      obtain ⟨j, hj⟩ := List.mem_iff_getElem?.1 (List.mem_of_find?_eq_some hfind)
      have hkey' : entry'.state.key = key := by simpa using List.find?_some hfind
      obtain rfl := index_unique hnodup hi hj (hkey.trans hkey'.symm)
      rw [hi] at hj
      rw [Option.some.inj hj]

theorem stateOf_eq_none_iff {lane : SequenceRecovery cfg} {key : ChannelKey} :
    lane.stateOf key = none ↔ key ∉ lane.keys := by
  simp [stateOf, keys, List.find?_eq_none]

theorem Valid.idle_of_stateOf {lane : SequenceRecovery cfg} (hv : lane.Valid) {key : ChannelKey}
    {state : ChannelState cfg} (h : lane.stateOf key = some state) : state.Idle := by
  obtain ⟨-, i, entry, hi, rfl⟩ := (stateOf_eq_some_iff hv.chained.nodup).1 h
  exact hv.idle entry (List.mem_of_getElem? hi)

/-- Changing the state of one entry changes the state of its channel only. -/
theorem stateOf_set {lane lane' : SequenceRecovery cfg} (hnodup : lane.keys.Nodup) {i : ℕ}
    {entry entry' : ChannelEntry cfg} (hi : lane.channels[i]? = some entry)
    (hkey : entry'.state.key = entry.state.key)
    (hset : lane'.channels = lane.channels.set i entry') :
    lane'.keys = lane.keys ∧ lane'.stateOf entry.state.key = some entry'.state ∧
      ∀ key, key ≠ entry.state.key → lane'.stateOf key = lane.stateOf key := by
  have hkeys : lane'.keys = lane.keys := by
    rw [keys, hset, List.map_set, hkey]
    refine List.ext_getElem? fun j => ?_
    rw [List.getElem?_set]
    split_ifs with hij hlen
    · subst hij
      simp [keys, hi]
    · subst hij
      rw [eq_comm, List.getElem?_eq_none_iff]
      simpa [keys] using hlen
    · rfl
  have hnodup' : lane'.keys.Nodup := hkeys ▸ hnodup
  have hlen : i < lane.channels.length := (List.getElem?_eq_some_iff.1 hi).1
  refine ⟨hkeys, (stateOf_eq_some_iff hnodup').2 ⟨hkey, i, entry', ?_, rfl⟩, fun key hne => ?_⟩
  · rw [hset, List.getElem?_set_self hlen]
  · refine Option.ext fun state => ?_
    rw [stateOf_eq_some_iff hnodup', stateOf_eq_some_iff hnodup, hset]
    refine and_congr_right fun hstate => exists_congr fun j => ?_
    rcases eq_or_ne i j with rfl | hij
    · rw [List.getElem?_set_self hlen, hi]
      constructor
      · rintro ⟨e, he, rfl⟩
        cases he
        exact absurd (hstate.symm.trans hkey) hne
      · rintro ⟨e, he, rfl⟩
        cases he
        exact absurd hstate.symm hne
    · rw [List.getElem?_set_ne hij]

/-! ## `FindOrCreate` -/

theorem nextSlot_cycle (cfg : RecoveryConfig) (slot target : Fin (tableCapacity cfg)) :
    ∃ d < tableCapacity cfg, (nextSlot cfg)^[d] slot = target :=
  LinearProbing.exists_iterate_eq (fun s => tableSlot_val cfg (s + 1)) slot target

/-- The comparison of a probe is that of the keys. -/
theorem matches_eq_isKey (lane : SequenceRecovery cfg) (key : ChannelKey) :
    (fun index => (lane.channels[index]?).any fun entry : ChannelEntry cfg =>
      entry.state.market == key.market && entry.state.channel == key.channel) =
      LinearProbing.isKey lane.keys key := by
  funext index
  cases hi : lane.channels[index]? with
  | none => simp [LinearProbing.isKey, keys, hi]
  | some entry =>
    obtain ⟨market, channel⟩ := key
    simp only [LinearProbing.isKey, keys, List.getElem?_map, hi, Option.map_some, Option.any_some]
    rw [Bool.eq_iff_iff]
    simp [ChannelState.key]

/-- The lane after a channel is created. -/
def created (lane : SequenceRecovery cfg) (key : ChannelKey) (slot : Fin (tableCapacity cfg)) :
    SequenceRecovery cfg :=
  { lane with
    channels := lane.channels ++ [⟨lane.channels.length, .fresh cfg key⟩]
    channelTable := Function.update lane.channelTable slot (some lane.channels.length) }

theorem keys_created (lane : SequenceRecovery cfg) (key : ChannelKey)
    (slot : Fin (tableCapacity cfg)) : (created lane key slot).keys = lane.keys ++ [key] := by
  simp only [keys, created, List.map_append, List.map_cons, List.map_nil]
  rfl

theorem stateOf_created {lane : SequenceRecovery cfg} {key : ChannelKey}
    {slot : Fin (tableCapacity cfg)} {key' : ChannelKey} (hne : key' ≠ key) :
    (created lane key slot).stateOf key' = lane.stateOf key' := by
  have hfresh : (ChannelState.fresh cfg key).key ≠ key' := fun h => hne h.symm
  simp [stateOf, created, List.find?_append, hfresh]

/-- The three outcomes of `FindOrCreate`, for every hash function that the table was filled
with. -/
theorem findOrCreate_spec {hash : ChannelKey → ℕ} {lane : SequenceRecovery cfg}
    (hchained : LinearProbing.Chained (nextSlot cfg) (fun key => tableSlot cfg (hash key))
      lane.channelTable lane.keys)
    (hbounded : lane.channels.length ≤ cfg.maximumChannels) (key : ChannelKey) :
    (∃ i, lane.keys[i]? = some key ∧ findOrCreate hash lane key = some (i, lane)) ∨
      (key ∉ lane.keys ∧ lane.channels.length < cfg.maximumChannels ∧
        ∃ slot, findOrCreate hash lane key =
            some (lane.channels.length, created lane key slot) ∧
          LinearProbing.Chained (nextSlot cfg) (fun key => tableSlot cfg (hash key))
            (created lane key slot).channelTable (created lane key slot).keys) ∨
      (key ∉ lane.keys ∧ lane.channels.length = cfg.maximumChannels ∧
        findOrCreate hash lane key = none) := by
  have hlen : lane.keys.length = lane.channels.length := List.length_map _
  have hlt : lane.keys.length < tableCapacity cfg :=
    hlen ▸ lt_of_le_of_lt hbounded (lt_tableCapacity cfg)
  by_cases hkey : key ∈ lane.keys
  · obtain ⟨i, hi, hget⟩ := List.getElem_of_mem hkey
    have hwalk := hchained.walk_found hi
    rw [hget] at hwalk
    refine Or.inl ⟨i, List.getElem?_eq_some_iff.2 ⟨hi, hget⟩, ?_⟩
    simp only [findOrCreate, matches_eq_isKey, hwalk]
  · obtain ⟨d, hd, hcell, hbefore, hwalk⟩ := hchained.walk_vacant (nextSlot_cycle cfg) hlt hkey
    rcases Nat.lt_or_ge lane.channels.length cfg.maximumChannels with hroom | hfull
    · refine Or.inr (Or.inl ⟨hkey, hroom, (nextSlot cfg)^[d] (tableSlot cfg (hash key)), ?_, ?_⟩)
      · simp only [findOrCreate, matches_eq_isKey, hwalk, if_neg (Nat.not_le.2 hroom)]
        rfl
      · have hput := hchained.put hkey hd hcell hbefore
        rw [hlen] at hput
        rw [keys_created]
        exact hput
    · refine Or.inr (Or.inr ⟨hkey, le_antisymm hbounded hfull, ?_⟩)
      simp only [findOrCreate, matches_eq_isKey, hwalk, if_pos hfull]

/-- `FindOrCreate` gives the index of the channel's entry, which it creates unless the
channel is in use, or fails for want of capacity. -/
theorem findOrCreate_cases {lane : SequenceRecovery cfg} (hr : lane.Registered)
    (key : ChannelKey) :
    (∃ i lane' entry, findOrCreate hashChannel lane key = some (i, lane') ∧ lane'.Registered ∧
        lane'.channels[i]? = some entry ∧
        entry.state = (lane.stateOf key).getD (.fresh cfg key) ∧ entry.state.key = key ∧
        (∀ key', key' ≠ key → lane'.stateOf key' = lane.stateOf key') ∧
        lane'.nextDeadlineNs = lane.nextDeadlineNs ∧
        ∀ j entry', lane'.channels[j]? = some entry' → j ≠ i → entry' ∈ lane.channels) ∨
      (findOrCreate hashChannel lane key = none ∧ lane.stateOf key = none ∧
        lane.channels.length = cfg.maximumChannels) := by
  rcases findOrCreate_spec hr.chained hr.bounded key with
    ⟨i, hget, hfind⟩ | ⟨hkey, hroom, slot, hfind, hchained⟩ | ⟨hkey, hfull, hfind⟩
  · rw [keys, List.getElem?_map, Option.map_eq_some_iff] at hget
    obtain ⟨entry, hentry, hstate⟩ := hget
    have hof : lane.stateOf key = some entry.state :=
      (stateOf_eq_some_iff hr.chained.nodup).2 ⟨hstate, i, entry, hentry, rfl⟩
    refine Or.inl ⟨i, lane, entry, hfind, hr, hentry, ?_, hstate, fun _ _ => rfl, rfl,
      fun _ _ h _ => List.mem_of_getElem? h⟩
    rw [hof, Option.getD_some]
  · refine Or.inl ⟨lane.channels.length, created lane key slot,
      ⟨lane.channels.length, .fresh cfg key⟩,
      hfind, ⟨hchained, ?_⟩, ?_, ?_, rfl, fun key' => stateOf_created, rfl, ?_⟩
    · simpa [created] using Nat.succ_le_of_lt hroom
    · simp [created]
    · rw [stateOf_eq_none_iff.2 hkey, Option.getD_none]
    · intro j entry' h hne
      have hj := (List.getElem?_eq_some_iff.1 h).1
      simp only [created, List.length_append, List.length_singleton] at hj
      rw [created, List.getElem?_append_left (by omega)] at h
      exact List.mem_of_getElem? h
  · exact Or.inr ⟨hfind, stateOf_eq_none_iff.2 hkey, hfull⟩

end SequenceRecovery

end L2Flow
