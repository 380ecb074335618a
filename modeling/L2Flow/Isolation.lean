import L2Flow.Deadlines

/-!
# Channels do not interfere

The channels of a lane share a table, a pool of states and one next deadline. None of it
shows : a channel's events in a run are those of `channelRun`, which makes the channel's
own calls and every `Poll` and `Flush` on it alone (`channelRun_of_run`). `run_isolated`
states the consequence for two runs.
-/

namespace L2Flow

variable {cfg : RecoveryConfig}

namespace SequenceRecovery

/-! ## The next deadline -/

/-- The next deadline after some are noted : it comes before each of them, and before the
one there was. -/
theorem foldl_noteDeadline : ∀ {deadlines : List ℕ} {next : ℕ}, (∀ d ∈ deadlines, d ≠ 0) →
    ∀ {d : ℕ}, d ∈ deadlines ∨ (next ≠ 0 ∧ next ≤ d) →
      deadlines.foldl noteDeadline next ≠ 0 ∧ deadlines.foldl noteDeadline next ≤ d
  | [], _, _, _, h => by
    rcases h with h | h
    · cases h
    · exact h
  | first :: deadlines, next, hnonzero, d, h => by
    have hfirst : first ≠ 0 := hnonzero first List.mem_cons_self
    rw [List.foldl_cons]
    refine foldl_noteDeadline (fun d hd => hnonzero d (List.mem_cons_of_mem _ hd)) ?_
    unfold noteDeadline
    rcases h with h | h
    · rcases List.mem_cons.1 h with rfl | h
      · refine Or.inr ?_
        split_ifs with hlower
        · exact ⟨hfirst, le_refl _⟩
        · omega
      · exact Or.inl h
    · refine Or.inr ?_
      split_ifs with hlower <;> omega

/-- The next deadline comes before every running timer's. -/
structure Timely (lane : SequenceRecovery cfg) : Prop where
  timed : ∀ key, (stateD key (lane.stateOf key)).Timed
  due : ∀ key d, (stateD key (lane.stateOf key)).dueAt = some d →
    lane.nextDeadlineNs ≠ 0 ∧ lane.nextDeadlineNs ≤ d

theorem timed_fresh (cfg : RecoveryConfig) (key : ChannelKey) :
    (ChannelState.fresh cfg key).Timed :=
  ⟨fun _ _ h => absurd rfl h, fun _ _ _ => rfl⟩

theorem dueAt_fresh (cfg : RecoveryConfig) (key : ChannelKey) :
    (ChannelState.fresh cfg key).dueAt = none := by
  simp [ChannelState.dueAt, ChannelState.fresh]

/-- No channel is due in a lane without channels. -/
theorem timely_init (cfg : RecoveryConfig) : (init cfg).Timely where
  timed key := timed_fresh cfg key
  due key d h := by
    rw [show stateD key ((init cfg).stateOf key) = ChannelState.fresh cfg key from rfl,
      dueAt_fresh] at h
    cases h

theorem now_of_on {call : Call} {key : ChannelKey} {op : ChannelCall}
    (hon : call.on key = some op) : op.now = call.now := by
  cases Call.sees hon <;> rfl

/-- The deadline that a call of a channel starts from depends on the call alone. -/
theorem base_of_on {lane : SequenceRecovery cfg} {call : Call} {key : ChannelKey}
    {op : ChannelCall} (hon : call.on key = some op) :
    call.base lane = if op.isPoll then 0 else lane.nextDeadlineNs := by
  cases Call.sees hon <;> rfl

theorem base_of_off {lane : SequenceRecovery cfg} {call : Call} {key : ChannelKey}
    (hon : call.on key = none) : call.base lane = lane.nextDeadlineNs := by
  cases call with
  | poll now => cases hon
  | _ => rfl

/-- Each call leaves a next deadline that no channel is due before. -/
theorem step_timely {lane lane' : SequenceRecovery cfg} {call : Call} {trace : Trace}
    (hv : lane.Valid) (ht : lane.Timely) (hnow : call.now ≠ 0)
    (h : step (fun _ => .succeed) lane call = some (lane', trace)) : lane'.Timely := by
  cases (step_turned (fun _ _ => rfl) hv h).2 with
  | early now poll before same silent => rwa [same]
  | refused key only unused full same silent => rwa [same]
  | served fx apart turn deadline =>
    obtain ⟨deadlines, hnext, hmem⟩ := deadline
    have hcovered : ∀ key op, call.on key = some op →
        Covered (if op.isPoll then none else (stateD key (lane.stateOf key)).dueAt)
          (stateD key (lane'.stateOf key), fx key) := by
      intro key op hon
      obtain ⟨slot, hturn, -⟩ := turn key op hon
      exact covered_channelStep (by rw [now_of_on hon]; exact hnow) (hv.placed key) (ht.timed key)
        hturn
    have hnonzero : ∀ d ∈ deadlines, d ≠ 0 := by
      intro d hd
      obtain ⟨key, hd⟩ := (hmem d).1 hd
      cases hon : call.on key with
      | none =>
        rw [(apart key hon).2.2] at hd
        cases hd
      | some op => exact (hcovered key op hon).nonzero d hd
    constructor
    · intro key
      cases hon : call.on key with
      | none =>
        rw [(apart key hon).1]
        exact ht.timed key
      | some op => exact (hcovered key op hon).timed
    · intro key d hdue
      rw [hnext]
      refine foldl_noteDeadline hnonzero ?_
      cases hon : call.on key with
      | none =>
        rw [(apart key hon).1] at hdue
        rw [base_of_off hon]
        exact Or.inr (ht.due key d hdue)
      | some op =>
        rw [base_of_on hon]
        rcases (hcovered key op hon).noted d hdue with hd | hd
        · exact Or.inl ((hmem d).2 ⟨key, hd⟩)
        · split_ifs at hd ⊢ with hpoll
          exact Or.inr (ht.due key d hd)

/-! ## One channel alone -/

/-- The calls of one channel, made on it alone. -/
def channelRun (cfg : RecoveryConfig) (key : ChannelKey) (ops : List ChannelCall) :
    Option (Option (ChannelState cfg) × List Event) :=
  ops.foldlM (fun r op => (channelStep .succeed key r.1 op).map fun s => (s.1, r.2 ++ s.2.events))
    (none, [])

/-- One more call of the channel. -/
theorem channelRun_snoc {key : ChannelKey} {ops : List ChannelCall}
    {channel channel' : Option (ChannelState cfg)} {events : List Event} {op : ChannelCall}
    {fx : Effects} (hrun : channelRun cfg key ops = some (channel, events))
    (hstep : channelStep .succeed key channel op = some (channel', fx)) :
    channelRun cfg key (ops ++ [op]) = some (channel', events ++ fx.events) := by
  rw [channelRun, List.foldlM_append]
  rw [channelRun] at hrun
  rw [hrun]
  show Option.bind (Option.map _ (channelStep .succeed key channel op)) _ = _
  rw [hstep]
  rfl

/-- So no channel is due before the next deadline, after any calls. -/
theorem timely_of_run {calls : List Call} (hpos : ∀ call ∈ calls, call.now ≠ 0)
    {lane : SequenceRecovery cfg} {trace : Trace} (h : run cfg calls = some (lane, trace)) :
    lane.Timely := by
  induction calls using List.reverseRecOn generalizing lane trace with
  | nil =>
    cases h
    exact timely_init cfg
  | append_singleton calls call ih =>
    obtain ⟨lane', trace', added, hrun, hstep, -⟩ := run_snoc.1 h
    exact step_timely (valid_of_run hrun)
      (ih (fun c hc => hpos c (List.mem_append_left _ hc)) hrun) (hpos call (by simp)) hstep

/-- A `Poll` before the next deadline would change nothing on any channel. -/
theorem channelStep_early {lane : SequenceRecovery cfg} (ht : lane.Timely) {now : ℕ}
    (before : lane.nextDeadlineNs = 0 ∨ now < lane.nextDeadlineNs) (key : ChannelKey) :
    ∃ fx, channelStep .succeed key (lane.stateOf key) (.poll now) = some (lane.stateOf key, fx) ∧
      fx.events = [] := by
  cases hstate : lane.stateOf key with
  | none => exact ⟨{}, rfl, rfl⟩
  | some state =>
    have htimed := ht.timed key
    have hdue := ht.due key
    rw [hstate, stateD, Option.getD_some] at htimed hdue
    obtain ⟨hsame, hevents⟩ := pollChannel_early now htimed fun d hd => by
      have := hdue d hd
      omega
    exact ⟨_, by rw [channelStep, hsame], hevents⟩

/-- A run of the lane is, for each channel, a run of the channel alone. -/
theorem channelRun_of_run {calls : List Call} (hfits : Fits cfg calls)
    (hpos : ∀ call ∈ calls, call.now ≠ 0) {lane : SequenceRecovery cfg} {trace : Trace}
    (h : run cfg calls = some (lane, trace)) (key : ChannelKey) :
    channelRun cfg key (calls.filterMap fun call => call.on key) =
      some (lane.stateOf key, trace.of key) := by
  induction calls using List.reverseRecOn generalizing lane trace with
  | nil =>
    cases h
    rfl
  | append_singleton calls call ih =>
    obtain ⟨lane', trace', added, hrun, hstep, rfl⟩ := run_snoc.1 h
    have hleft : ∀ c ∈ calls, c.now ≠ 0 := fun c hc => hpos c (List.mem_append_left _ hc)
    have hbefore := ih hfits.left hleft hrun
    have hv := valid_of_run hrun
    rw [List.filterMap_append, Trace.of_append, List.filterMap_cons, List.filterMap_nil]
    cases (step_turned (fun _ _ => rfl) hv hstep).2.atKey key with
    | early now poll before same silent =>
      have ht := timely_of_run hleft hrun
      obtain ⟨fx, hturn, hevents⟩ := channelStep_early ht before key
      have hnext := channelRun_snoc hbefore hturn
      rw [hevents] at hnext
      rw [poll, same, silent]
      exact hnext
    | refused op hon only unused full =>
      exact absurd full (run_not_refused hrun hfits hon only unused)
    | apart off same silent =>
      rw [off, same, silent, List.append_nil, List.append_nil]
      exact hbefore
    | turn op slot fx hon hturn hevents =>
      rw [hon, hevents]
      exact channelRun_snoc hbefore hturn

/-! ## Two runs -/

/-- The call is one on the channel `key`, or one on every channel. -/
def concerns (key : ChannelKey) (call : Call) : Bool :=
  (call.on key).isSome

/-- The calls that do not concern a channel are no calls of it. -/
theorem filterMap_on_filter (key : ChannelKey) (calls : List Call) :
    (calls.filter (concerns key)).filterMap (fun call => call.on key) =
      calls.filterMap fun call => call.on key := by
  rw [List.filterMap_filter]
  refine List.filterMap_congr fun call _ => ?_
  unfold concerns
  cases call.on key <;> rfl

/-- Removing the calls on other channels from a run changes neither the events of a channel
nor its state. -/
theorem run_isolated (cfg : RecoveryConfig) (calls : List Call) (key : ChannelKey)
    (hfits : Fits cfg calls) (hpos : ∀ call ∈ calls, 0 < call.now) :
    ∃ lane trace lane' trace', run cfg calls = some (lane, trace) ∧
      run cfg (calls.filter (concerns key)) = some (lane', trace') ∧
      trace.of key = trace'.of key ∧ lane.stateOf key = lane'.stateOf key := by
  obtain ⟨lane, trace, h⟩ := exists_run cfg calls
  obtain ⟨lane', trace', h'⟩ := exists_run cfg (calls.filter (concerns key))
  have hsub : ∀ call ∈ calls.filter (concerns key), call ∈ calls :=
    fun call hcall => (List.mem_filter.1 hcall).1
  have hfull := channelRun_of_run hfits (fun call hcall => (hpos call hcall).ne') h key
  have halone := channelRun_of_run (hfits.of_subset hsub)
    (fun call hcall => (hpos call (hsub call hcall)).ne') h' key
  rw [filterMap_on_filter, hfull] at halone
  obtain ⟨hstate, hevents⟩ := Prod.mk.inj (Option.some.inj halone)
  exact ⟨lane, trace, lane', trace', h, h', hevents, hstate⟩

theorem run_isolated_sample : ∃ lane trace lane' trace',
    run (sampleConfig .kFromOpen 0 100) [arrival 2 (by decide) 10,
        .freezeDecodeFailure ⟨.kShenzhen, 7⟩ 4 11, .poll 200] = some (lane, trace) ∧
      run (sampleConfig .kFromOpen 0 100) [arrival 2 (by decide) 10, .poll 200] =
        some (lane', trace') ∧
      trace.of sampleKey = trace'.of sampleKey ∧
      lane.stateOf sampleKey = lane'.stateOf sampleKey := by
  refine run_isolated (sampleConfig .kFromOpen 0 100) [arrival 2 (by decide) 10,
    .freezeDecodeFailure ⟨.kShenzhen, 7⟩ 4 11, .poll 200] sampleKey ?_ ?_
  · unfold Fits
    decide
  · intro call hcall
    simp only [List.mem_cons, List.not_mem_nil, or_false] at hcall
    rcases hcall with rfl | rfl | rfl <;> decide

end SequenceRecovery

end L2Flow
