import L2Flow.History
import L2Flow.Window

/-!
# Reordering within the window

A FROM_OPEN channel whose records arrive in any order, each within the window at its
arrival, and whose gap timer never expires, sorts them : it passes exactly the records it
was given, by ascending position, unchanged (`run_sorts`). The order of arrival does not
show in what it passes.
-/

namespace L2Flow

variable {cfg : RecoveryConfig}

namespace SequenceRecovery

/-! ## What reaches the callbacks -/

/-- The slots passed through `EmitOne`, dispatched or not. -/
def passedOf (events : List Event) : List PendingSlot :=
  events.filterMap fun
    | .consumed slot _ true => some slot
    | _ => none

/-- The ticks passed to `emit_tick`. -/
def ticksOf (events : List Event) : List CanonicalTick :=
  events.filterMap fun
    | .consumed slot tick _ => if slot.emit then some tick else none
    | _ => none

/-- The faults passed to `emit_fault`. -/
def faultsOf (events : List Event) : List ChannelFault :=
  events.filterMap fun
    | .fault record _ => some record
    | _ => none

theorem consumedOf_eq_passedOf (events : List Event) :
    consumedOf events = (passedOf events).map PendingSlot.nativeSequence := by
  rw [consumedOf, passedOf, List.map_filterMap]
  refine List.filterMap_congr fun event _ => ?_
  cases event with
  | consumed slot tick accepted => cases accepted <;> rfl
  | _ => rfl

/-- Every event is a record passed as it came. -/
def Plain (events : List Event) : Prop :=
  ∀ event ∈ events, ∃ slot, event = .consumed slot slot.tick true

theorem Plain.eq_map {events : List Event} (h : Plain events) :
    events = (passedOf events).map fun slot => .consumed slot slot.tick true := by
  induction events with
  | nil => rfl
  | cons event events ih =>
    obtain ⟨slot, rfl⟩ := h event List.mem_cons_self
    have htail := ih fun e he => h e (List.mem_cons_of_mem _ he)
    show _ = Event.consumed slot slot.tick true :: (passedOf events).map fun slot =>
      Event.consumed slot slot.tick true
    rw [← htail]

theorem plain_append {events rest : List Event} :
    Plain (events ++ rest) ↔ Plain events ∧ Plain rest := by
  simp only [Plain, List.mem_append, or_imp, forall_and]

theorem settledOf_plain {events : List Event} (h : Plain events) :
    settledOf events = ↑(passedOf events) := by
  induction events with
  | nil => simp [settledOf, dispatchedOf, tokensOf, lateOf, duplicatesOf, passedOf]
  | cons event events ih =>
    obtain ⟨slot, rfl⟩ := h event List.mem_cons_self
    have htail := ih fun e he => h e (List.mem_cons_of_mem _ he)
    rw [← List.singleton_append, settledOf_append, settledOf_consumed, htail]
    rfl

theorem gapsOf_plain {events : List Event} (h : Plain events) : gapsOf events = [] := by
  rw [h.eq_map]
  simp [gapsOf]

theorem lateOf_plain {events : List Event} (h : Plain events) : lateOf events = [] := by
  rw [h.eq_map]
  simp [lateOf]

theorem faultsOf_plain {events : List Event} (h : Plain events) : faultsOf events = [] := by
  rw [h.eq_map]
  simp [faultsOf]

/-! ## An orderly channel -/

/-- A channel that has missed nothing and retains nothing beyond the window. -/
structure Orderly (state : ChannelState cfg) : Prop extends ChannelState.Active state where
  complete : state.historyComplete = true
  gapless : state.gapMetadataPending = false
  near : ∀ slot ∈ state.pending,
    slot.nativeSequence ≤ state.expected + cfg.maximumReorderSpan

theorem Orderly.outgoing_eq {state : ChannelState cfg} (h : Orderly state) (slot : PendingSlot) :
    outgoing state slot = slot.tick := by
  simp [outgoing, h.complete, h.gapless]

theorem Orderly.release {state : ChannelState cfg} (h : Orderly state) {slot : PendingSlot}
    (held : slot ∈ state.pending) (position : slot.nativeSequence = state.expected) :
    Orderly (release state slot true) where
  live := h.live
  active := h.active
  sound := sound_release h.sound h.active held position
  complete := h.complete
  gapless := by
    show (state.gapMetadataPending && !slot.emit) = false
    rw [h.gapless, Bool.false_and]
  near slot' hslot := by
    have hle := h.near slot' ((mem_release held position).1 hslot).1
    show slot'.nativeSequence ≤ state.expected + 1 + cfg.maximumReorderSpan
    omega

/-- A drain passes records as they came. -/
theorem orderly_drain (now : ℕ) {s : ChannelState cfg × Effects} (h : Orderly s.1)
    (hplain : Plain s.2.events) :
    Orderly (drainContiguous .succeed now s).1 ∧
      Plain (drainContiguous .succeed now s).2.events := by
  refine Loop.run_rel
    (I := fun s : ChannelState cfg × Effects => Orderly s.1 ∧ Plain s.2.events)
    (R := fun _ r : ChannelState cfg × Effects => Orderly r.1 ∧ Plain r.2.events)
    ?_ ?_ (fun _ _ _ _ _ hr => hr) ⟨h, hplain⟩
  · rintro ⟨state, fx⟩ s' ⟨ho, hp⟩ hb
    cases hf : find state state.expected with
    | none =>
      obtain ⟨g, fx', -, he⟩ := drainBody_none .succeed now fx hf
      simp [he] at hb
    | some slot =>
      obtain ⟨held, position⟩ := DirectMapped.find_eq_some_iff.1 hf
      rcases drainBody_some .succeed now fx hf with he | ⟨-, hrefused, -⟩
      · rw [he] at hb
        cases hb
        refine ⟨Orderly.release ho held position, ?_⟩
        rw [Effects.log_events, plain_append]
        refine ⟨hp, fun event hevent => ⟨slot, ?_⟩⟩
        rw [List.mem_singleton.1 hevent, ho.outgoing_eq]
      · cases hrefused
  · rintro ⟨state, fx⟩ r ⟨ho, hp⟩ hb
    cases hf : find state state.expected with
    | none =>
      obtain ⟨g, fx', hfx, he⟩ := drainBody_none .succeed now fx hf
      rw [he] at hb
      cases hb
      refine ⟨⟨⟨ho.live, ho.active, ho.sound.count, ho.sound.inRange, ho.sound.ahead⟩,
        ho.complete, ho.gapless, ho.near⟩, ?_⟩
      show Plain fx'.events
      rw [hfx]
      exact hp
    | some slot =>
      rcases drainBody_some .succeed now fx hf with he | ⟨-, hrefused, -⟩
      · simp [he] at hb
      · cases hrefused

/-- A record at the frontier or in the window, at a position not retained. -/
theorem orderly_process (hwait : 0 < cfg.gapWaitNs) {decoded : TickDecodeResult}
    (hr : InRange decoded.nativeSequence) (now : ℕ) {state : ChannelState cfg}
    (hs : state.Ready) (ho : Orderly state) (hge : state.expected ≤ decoded.nativeSequence)
    (hle : decoded.nativeSequence ≤ state.expected + cfg.maximumReorderSpan)
    (hnew : ∀ slot ∈ state.pending, slot.nativeSequence ≠ decoded.nativeSequence) :
    ∃ r, processChannel .succeed decoded now state = some r ∧ Orderly r.1 ∧ Plain r.2.events := by
  rcases hge.lt_or_eq with hlt | heq
  · have hwindow : InWindow state decoded.nativeSequence := ⟨hlt, hle⟩
    -- whatever holds the record's slot is in the window as well
    have hfree : ¬Collides state decoded.nativeSequence := by
      rintro ⟨slot, hocc, hne⟩
      have hbeyond := beyond_of_collision hs hwindow hocc hne
      have := ho.near slot (DirectMapped.mem_of_occupant hocc).1
      omega
    obtain ⟨r, hrun, hnear⟩ := processChannel_near hwait now hs hwindow hfree
    refine ⟨r, hrun, ?_⟩
    generalize hstate : r.1 = state' at hnear
    generalize hevents : r.2.events = events at hnear
    cases hnear with
    | retained free =>
      have hready := ready_retain hs hr free hlt
      refine ⟨⟨⟨hready.live, hready.active, hready.sound.count, hready.sound.inRange,
        hready.sound.ahead⟩, ho.complete, ho.gapless, fun slot hslot => ?_⟩, fun _ h => by cases h⟩
      rcases (mem_retain free).1 hslot with rfl | hslot
      · exact hle
      · exact ho.near slot hslot
    | duplicate same =>
      obtain ⟨slot, held, position, -⟩ := same
      exact absurd position (hnew slot held)
    | frozen mode held position differ => exact absurd position (hnew _ held)
    | diverted mode held position differ => exact absurd position (hnew _ held)
  · rcases activeBody_next .succeed now {} heq.symm with he | ⟨-, hrefused, -⟩
    · refine ⟨_, processChannel_done hs he, orderly_drain now ?_ ?_⟩
      · refine ⟨⟨ho.live, ho.active, ho.sound.count, ho.sound.inRange, fun _ => hs.settled⟩,
          ho.complete, ?_, fun slot hslot => ?_⟩
        · show (state.gapMetadataPending && !(slotOf decoded).emit) = false
          rw [ho.gapless, Bool.false_and]
        · have := ho.near slot hslot
          show slot.nativeSequence ≤ state.expected + 1 + cfg.maximumReorderSpan
          omega
      · intro event hevent
        simp only [Effects.log_events, List.nil_append, List.mem_singleton] at hevent
        exact ⟨slotOf decoded, by rw [hevent, ho.outgoing_eq]⟩
    · cases hrefused

/-! ## Runs -/

/-- The records of the channel `key` arrive within the window : each finds room for its
channel and is above the frontier by no more than the span, `Poll` never finds the gap
timer expired, and the channel is neither flushed nor frozen by the decoder. -/
structure ArrivesInWindow (cfg : RecoveryConfig) (key : ChannelKey) (calls : List Call) :
    Prop where
  quiet : ∀ call ∈ calls, (∀ now, call ≠ .flush now) ∧
    ∀ sequence now, call ≠ .freezeDecodeFailure key sequence now
  admitted : ∀ before decoded now after lane trace,
    calls = before ++ Call.process decoded now :: after → decoded.key = key →
    run cfg before = some (lane, trace) → lane.stateOf key = none →
    lane.channels.length < cfg.maximumChannels
  window : ∀ before decoded now after lane trace,
    calls = before ++ Call.process decoded now :: after → decoded.key = key →
    run cfg before = some (lane, trace) →
    decoded.nativeSequence ≤
      (stateD key (lane.stateOf key)).expected + cfg.maximumReorderSpan
  waiting : ∀ before now after lane trace state,
    calls = before ++ Call.poll now :: after → run cfg before = some (lane, trace) →
    lane.stateOf key = some state →
    ¬(state.gapOpenNs ≠ 0 ∧ deadlineReached now state.gapOpenNs cfg.gapWaitNs = true)

theorem ArrivesInWindow.left {key : ChannelKey} {calls rest : List Call}
    (h : ArrivesInWindow cfg key (calls ++ rest)) : ArrivesInWindow cfg key calls where
  quiet call hcall := h.quiet call (List.mem_append_left _ hcall)
  admitted before decoded now after lane trace heq :=
    h.admitted before decoded now (after ++ rest) lane trace (by rw [heq]; simp)
  window before decoded now after lane trace heq :=
    h.window before decoded now (after ++ rest) lane trace (by rw [heq]; simp)
  waiting before now after lane trace state heq :=
    h.waiting before now (after ++ rest) lane trace state (by rw [heq]; simp)

/-- A channel that has passed the records received, or retains them. -/
structure InOrder (records : List TickDecodeResult) (c : Conf cfg) : Prop where
  orderly : Orderly c.state
  plain : Plain c.events
  accounted : Accounted records c

/-- What the events and the table hold was received. -/
theorem InOrder.received {records : List TickDecodeResult} {c : Conf cfg}
    (h : InOrder records c) {slot : PendingSlot}
    (hslot : slot ∈ passedOf c.events ∨ slot ∈ c.state.pending) :
    slot.nativeSequence ∈ records.map TickDecodeResult.nativeSequence := by
  have hmem : slot ∈ (↑(records.map slotOf) : Multiset PendingSlot) := by
    rw [h.accounted h.orderly.live, ledger, settledOf_plain h.plain, Multiset.mem_add,
      Multiset.mem_add, Multiset.mem_coe, DirectMapped.mem_values]
    exact Or.inl hslot
  rw [Multiset.mem_coe, List.mem_map] at hmem
  obtain ⟨r, hr, rfl⟩ := hmem
  exact List.mem_map_of_mem hr

/-- A position not received is not behind the frontier. -/
theorem InOrder.expected_le {records : List TickDecodeResult} {c : Conf cfg}
    (mode : cfg.mode = .kFromOpen) (h : InOrder records c) (ht : Tiled c) {n : ℕ} (hn : 1 ≤ n)
    (hnew : n ∉ records.map TickDecodeResult.nativeSequence) : c.state.expected ≤ n := by
  by_contra hlt
  have hranges : gapRanges c.events = [] := by rw [gapRanges, gapsOf_plain h.plain]; rfl
  have hconsumed := (gapless_iff ht h.orderly.active mode).1 hranges n hn (by omega)
  rw [consumedOf_eq_passedOf, List.mem_map] at hconsumed
  obtain ⟨slot, hslot, rfl⟩ := hconsumed
  exact hnew (h.received (Or.inl hslot))

theorem inOrder_fresh (mode : cfg.mode = .kFromOpen) (key : ChannelKey) :
    InOrder [] (⟨.fresh cfg key, none, []⟩ : Conf cfg) where
  orderly := ⟨⟨rfl, by simp [ChannelState.fresh, mode], (ChannelState.resting_fresh cfg key).sound⟩,
    by simp [ChannelState.fresh, mode], rfl, by simp [ChannelState.fresh]⟩
  plain _ h := by cases h
  accounted := accounted_fresh cfg key

/-- A call that brings a new record within the window, or finds the gap timer running. -/
theorem InOrder.turn (mode : cfg.mode = .kFromOpen) (hwait : 0 < cfg.gapWaitNs)
    {key : ChannelKey} {channel channel' : Option (ChannelState cfg)} {op : ChannelCall}
    {fx : Effects} {records : List TickDecodeResult} {events : List Event}
    (h : InOrder records ⟨stateD key channel, none, events⟩)
    (ht : Tiled (⟨stateD key channel, none, events⟩ : Conf cfg)) (hp : Placed key channel)
    (hop : match op with
      | .process decoded _ =>
        decoded.nativeSequence ≤ (stateD key channel).expected + cfg.maximumReorderSpan ∧
          decoded.nativeSequence ∉ records.map TickDecodeResult.nativeSequence
      | .poll now => ∀ state, channel = some state →
          ¬(state.gapOpenNs ≠ 0 ∧ deadlineReached now state.gapOpenNs cfg.gapWaitNs = true)
      | _ => False)
    (hstep : channelStep .succeed key channel op = some (channel', fx)) :
    InOrder (records ++ op.hand.toList) ⟨stateD key channel', none, events ++ fx.events⟩ := by
  have ha := accounted_channelStep hp hstep h.accounted
  have hready : (stateD key channel).Ready :=
    hp.resting.1.ready h.orderly.live h.orderly.active
  cases op with
  | process decoded now =>
    obtain ⟨hle, hnew⟩ := hop
    have hge := h.expected_le mode ht decoded.native_pos hnew
    obtain ⟨r, hr, horderly, hplain⟩ := orderly_process hwait (DecodedTick.inRange decoded) now
      hready h.orderly hge hle fun slot hslot heq => hnew (heq ▸ h.received (Or.inr hslot))
    rw [channelStep, hr] at hstep
    cases hstep
    exact ⟨horderly, plain_append.2 ⟨h.plain, hplain⟩, ha⟩
  | poll now =>
    cases channel with
    | none =>
      cases hstep
      exact ⟨h.orderly, by simpa using h.plain, ha⟩
    | some state =>
      have hsame : (pollChannel .succeed now state).1 = state ∧
          (pollChannel .succeed now state).2.events = [] := by
        have hactive : state.discovering = false := h.orderly.active
        have hnot := hop state rfl
        generalize hturn : pollChannel .succeed now state = r
        cases pollTurn hturn with
        | ended live nonempty discovering => cases hactive.symm.trans discovering
        | forced live nonempty active opened reached => exact absurd ⟨opened, reached⟩ hnot
        | _ => exact ⟨rfl, rfl⟩
      obtain ⟨hstate, hevents⟩ := hsame
      rw [channelStep, hstate] at hstep
      cases hstep
      rw [hevents] at ha ⊢
      exact ⟨h.orderly, by simpa using h.plain, ha⟩
  | flush now => exact hop.elim
  | freezeDecodeFailure sequence now => exact hop.elim

/-- The channel of such a run is in order throughout. -/
theorem inOrder_of_run (mode : cfg.mode = .kFromOpen) (hwait : 0 < cfg.gapWaitNs)
    {key : ChannelKey} {calls : List Call} (harrive : ArrivesInWindow cfg key calls)
    (hnodup : ((received key calls).map TickDecodeResult.nativeSequence).Nodup)
    {lane : SequenceRecovery cfg} {trace : Trace} (h : run cfg calls = some (lane, trace)) :
    InOrder (received key calls) ⟨stateD key (lane.stateOf key), none, trace.of key⟩ := by
  induction calls using List.reverseRecOn generalizing lane trace with
  | nil =>
    cases h
    exact inOrder_fresh mode key
  | append_singleton calls call ih =>
    obtain ⟨lane', trace', added, hrun, hstep, rfl⟩ := run_snoc.1 h
    rw [received_snoc, List.map_append, List.nodup_append] at hnodup
    obtain ⟨hleft, -, hfresh⟩ := hnodup
    have hbefore := ih harrive.left hleft hrun
    have hv := valid_of_run hrun
    rw [received_snoc, Trace.of_append]
    cases (step_turned (fun _ _ => rfl) hv hstep).2.atKey key with
    | early now poll before same silent =>
      rw [same, silent, poll, List.append_nil]
      simpa [Call.on, ChannelCall.hand] using hbefore
    | refused op hon only unused full same silent =>
      rw [same, silent, List.append_nil, hon]
      cases Call.sees hon with
      | process decoded now on =>
        have := harrive.admitted calls decoded now [] lane' trace' rfl on hrun unused
        omega
      | poll => simpa [ChannelCall.hand] using hbefore
      | flush => simpa [ChannelCall.hand] using hbefore
      | freezeDecodeFailure => simpa [ChannelCall.hand] using hbefore
    | apart off same silent =>
      rw [same, silent, off, List.append_nil]
      simpa using hbefore
    | turn op slot fx hon hturn hevents =>
      rw [hevents, hon]
      refine hbefore.turn mode hwait (tiled_of_run hrun key) (hv.placed key) ?_ hturn
      cases Call.sees hon with
      | process decoded now same =>
        refine ⟨harrive.window calls decoded now [] lane' trace' rfl same hrun, fun hmem => ?_⟩
        exact hfresh _ hmem _ (by simp [Call.on, same, ChannelCall.hand]) rfl
      | poll now =>
        exact fun state hstate => harrive.waiting calls now [] lane' trace' state rfl hrun hstate
      | flush now => exact absurd rfl ((harrive.quiet (.flush now) (by simp)).1 now)
      | freezeDecodeFailure sequence now =>
        exact absurd rfl
          ((harrive.quiet (.freezeDecodeFailure key sequence now) (by simp)).2 sequence now)

/-- Once every position up to `n` has arrived, all are passed, by position. -/
theorem InOrder.sorted (mode : cfg.mode = .kFromOpen) {received records : List TickDecodeResult}
    {c : Conf cfg} (h : InOrder received c) (ht : Tiled c) (hs : c.state.Ready) {n : ℕ}
    (hpositions : records.map TickDecodeResult.nativeSequence = List.range' 1 n)
    (hperm : received.Perm records) :
    c.hand = none → c.events = records.map fun r => .consumed (slotOf r) r.tick true := by
  intro hhand
  have hmem : ∀ m, m ∈ received.map TickDecodeResult.nativeSequence ↔ 1 ≤ m ∧ m ≤ n := by
    intro m
    rw [(hperm.map _).mem_iff, hpositions, List.mem_range'_1]
    omega
  obtain ⟨origin, horigin, hle, hpart⟩ := ht.partitioned h.orderly.active
  rw [HasOrigin, mode] at horigin
  simp only at horigin
  subst horigin
  have hledger := h.accounted h.orderly.live
  rw [ledger, settledOf_plain h.plain, hhand] at hledger
  -- the least position missing would be the frontier, which has arrived
  have hempty : ∀ slot, slot ∉ c.state.pending := by
    intro slot hslot
    have hahead := hs.settled slot hslot
    have hslotLe := ((hmem slot.nativeSequence).1 (h.received (Or.inr hslot))).2
    have hin := (hmem c.state.expected).2 ⟨hle, by omega⟩
    obtain ⟨r, hr, hre⟩ := List.mem_map.1 hin
    have hheld : slotOf r ∈ (↑(received.map slotOf) : Multiset PendingSlot) :=
      Multiset.mem_coe.2 (List.mem_map_of_mem hr)
    rw [hledger] at hheld
    simp only [Option.toList_none, List.map_nil, Multiset.coe_nil, add_zero, Multiset.mem_add,
      Multiset.mem_coe, DirectMapped.mem_values] at hheld
    rcases hheld with hpassed | hpending
    · have hlt := hpart.lt_of_mem (n := c.state.expected) (by
        rw [consumedOf_eq_passedOf]
        exact List.mem_map.2 ⟨slotOf r, hpassed, hre⟩)
      omega
    · have hlt := hs.settled _ hpending
      rw [slotOf_nativeSequence, hre] at hlt
      omega
  have hvalues : c.state.pending.values = 0 :=
    DirectMapped.values_eq_zero_iff.2 (DirectMapped.card_eq_zero_iff.2 hempty)
  rw [hvalues] at hledger
  simp only [Option.toList_none, List.map_nil, Multiset.coe_nil, add_zero, Multiset.coe_eq_coe]
    at hledger
  have hleft : (passedOf c.events).Pairwise fun a b => a.nativeSequence < b.nativeSequence := by
    have := hpart.increasing
    rwa [consumedOf_eq_passedOf, List.pairwise_map] at this
  have hright : (records.map slotOf).Pairwise fun a b => a.nativeSequence < b.nativeSequence := by
    have hsorted : (records.map TickDecodeResult.nativeSequence).Pairwise (· < ·) := by
      rw [hpositions]
      exact List.pairwise_lt_range'
    rw [List.pairwise_map] at hsorted ⊢
    exact hsorted
  have hpassed : passedOf c.events = records.map slotOf :=
    List.Perm.eq_of_pairwise (fun a b _ _ hab hba => by omega) hleft hright
      (hledger.symm.trans (hperm.map slotOf))
  rw [h.plain.eq_map, hpassed, List.map_map]
  rfl

theorem history_of_received {key : ChannelKey} {calls : List Call} {r : TickDecodeResult}
    (h : r ∈ received key calls) : Flags.has r.tick.validity kTickChannelHistoryValid = true := by
  obtain ⟨call, -, hhand⟩ := List.mem_filterMap.1 h
  obtain ⟨op, hon, hhand⟩ := Option.bind_eq_some_iff.1 hhand
  obtain ⟨decoded, rfl, -, -⟩ := hand_of_on hon hhand
  exact decoded.history_valid

/-- The events of a channel that has received positions `1` to `n` in some order. -/
theorem events_of_run (mode : cfg.mode = .kFromOpen) (hwait : 0 < cfg.gapWaitNs)
    {key : ChannelKey} {n : ℕ} {records : List TickDecodeResult}
    (hpositions : records.map TickDecodeResult.nativeSequence = List.range' 1 n)
    {calls : List Call} (harrive : ArrivesInWindow cfg key calls)
    (hperm : (received key calls).Perm records) {lane : SequenceRecovery cfg} {trace : Trace}
    (h : run cfg calls = some (lane, trace)) :
    trace.of key = records.map fun r => .consumed (slotOf r) r.tick true := by
  have hnodup : ((received key calls).map TickDecodeResult.nativeSequence).Nodup := by
    rw [(hperm.map _).nodup_iff, hpositions]
    exact List.nodup_range'
  have horder := inOrder_of_run mode hwait harrive hnodup h
  have hready := ((valid_of_run h).placed key).resting.1.ready horder.orderly.live
    horder.orderly.active
  exact horder.sorted mode (tiled_of_run h key) hready hpositions hperm rfl

/-- A FROM_OPEN channel with a positive gap wait that receives exactly the positions `1` to
`n`, each within the window at its arrival and before the gap timer expires, dispatches
the catalog-matching records by position, unchanged and with the history bit, and reports
no gap, no late record and no fault; two such orders of arrival give the same events. -/
theorem run_sorts (cfg : RecoveryConfig) (mode : cfg.mode = .kFromOpen)
    (hwait : 0 < cfg.gapWaitNs) (key : ChannelKey) (n : ℕ) (records : List TickDecodeResult)
    (hpositions : records.map TickDecodeResult.nativeSequence = List.range' 1 n) :
    (∀ calls, ArrivesInWindow cfg key calls → (received key calls).Perm records →
      ∃ lane trace, run cfg calls = some (lane, trace) ∧
        ticksOf (trace.of key) = (records.filter (·.catalogMatch)).map (·.tick) ∧
        (∀ tick ∈ ticksOf (trace.of key),
          Flags.has tick.validity kTickChannelHistoryValid = true) ∧
        gapsOf (trace.of key) = [] ∧ lateOf (trace.of key) = [] ∧
        faultsOf (trace.of key) = []) ∧
      ∀ calls calls', ArrivesInWindow cfg key calls → ArrivesInWindow cfg key calls' →
        (received key calls).Perm records → (received key calls').Perm records →
        ∃ lane trace lane' trace', run cfg calls = some (lane, trace) ∧
          run cfg calls' = some (lane', trace') ∧ trace.of key = trace'.of key := by
  refine ⟨fun calls harrive hperm => ?_, fun calls calls' harrive harrive' hperm hperm' => ?_⟩
  · obtain ⟨lane, trace, h⟩ := exists_run cfg calls
    have hevents := events_of_run mode hwait hpositions harrive hperm h
    have hplain : Plain (trace.of key) := by
      intro event hevent
      rw [hevents, List.mem_map] at hevent
      obtain ⟨r, -, rfl⟩ := hevent
      exact ⟨slotOf r, rfl⟩
    have hticks : ticksOf (trace.of key) = (records.filter (·.catalogMatch)).map (·.tick) := by
      rw [hevents, ticksOf, List.filterMap_map, ← List.filterMap_eq_map, List.filterMap_filter]
      rfl
    refine ⟨lane, trace, h, hticks, fun tick htick => ?_, gapsOf_plain hplain,
      lateOf_plain hplain, faultsOf_plain hplain⟩
    rw [hticks] at htick
    obtain ⟨r, hr, rfl⟩ := List.mem_map.1 htick
    exact history_of_received (hperm.mem_iff.2 (List.mem_filter.1 hr).1)
  · obtain ⟨lane, trace, h⟩ := exists_run cfg calls
    obtain ⟨lane', trace', h'⟩ := exists_run cfg calls'
    refine ⟨lane, trace, lane', trace', h, h', ?_⟩
    rw [events_of_run mode hwait hpositions harrive hperm h,
      events_of_run mode hwait hpositions harrive' hperm' h']

theorem arrivesInWindow_sample : ArrivesInWindow (sampleConfig .kFromOpen 0 100) sampleKey
    [arrival 2 (by decide) 10, arrival 1 (by decide) 11] := by
  have hfirst : ∀ lane trace, run (sampleConfig .kFromOpen 0 100) [] = some (lane, trace) →
      stateD sampleKey (lane.stateOf sampleKey) = .fresh _ sampleKey ∧ lane.channels = [] := by
    rintro lane trace ⟨⟩
    exact ⟨rfl, rfl⟩
  have hsecond : ((run (sampleConfig .kFromOpen 0 100) [arrival 2 (by decide) 10]).map fun r =>
      ((stateD sampleKey (r.1.stateOf sampleKey)).expected, r.1.channels.length)) =
        some (1, 1) := by
    decide +kernel
  have hsplit : ∀ {before : List Call} {call : Call} {after : List Call},
      [arrival 2 (by decide) 10, arrival 1 (by decide) 11] = before ++ call :: after →
      before = [] ∧ call = arrival 2 (by decide) 10 ∨
        before = [arrival 2 (by decide) 10] ∧ call = arrival 1 (by decide) 11 := by
    intro before call after heq
    match before, heq with
    | [], heq => exact Or.inl ⟨rfl, (List.cons.inj heq).1.symm⟩
    | [_], heq =>
      obtain ⟨rfl, hrest⟩ := List.cons.inj heq
      exact Or.inr ⟨rfl, (List.cons.inj hrest).1.symm⟩
    | _ :: _ :: before, heq => simp at heq
  constructor
  · intro call hcall
    simp only [List.mem_cons, List.not_mem_nil, or_false] at hcall
    rcases hcall with rfl | rfl <;> exact ⟨by simp [arrival], by simp [arrival]⟩
  · intro before decoded now after lane trace heq _ hrun _
    rcases hsplit heq with ⟨rfl, -⟩ | ⟨rfl, -⟩
    · rw [(hfirst lane trace hrun).2]
      decide
    · rw [hrun] at hsecond
      rw [(Prod.mk.inj (Option.some.inj hsecond)).2]
      decide
  · intro before decoded now after lane trace heq _ hrun
    rcases hsplit heq with ⟨rfl, hcall⟩ | ⟨rfl, hcall⟩
    · cases hcall
      rw [(hfirst lane trace hrun).1]
      decide
    · cases hcall
      rw [hrun] at hsecond
      rw [(Prod.mk.inj (Option.some.inj hsecond)).1]
      decide
  · intro before now after lane trace state heq
    rcases hsplit heq with ⟨-, hcall⟩ | ⟨-, hcall⟩ <;> cases hcall

theorem run_sorts_sample : ∃ lane trace,
    run (sampleConfig .kFromOpen 0 100) [arrival 2 (by decide) 10, arrival 1 (by decide) 11] =
        some (lane, trace) ∧
      ticksOf (trace.of sampleKey) = [(sampleRecord 1).tick, (sampleRecord 2).tick] := by
  obtain ⟨lane, trace, h, hticks, -⟩ := (run_sorts (sampleConfig .kFromOpen 0 100) rfl (by decide)
    sampleKey 2 [sampleRecord 1, sampleRecord 2] rfl).1 _ arrivesInWindow_sample
    (List.Perm.swap _ _ _)
  exact ⟨lane, trace, h, hticks⟩

end SequenceRecovery

end L2Flow
