import L2Flow.Reorder
import L2Flow.Timers

/-!
# How long a record is retained

A record that waits for positions below it is not held back for ever. A round is any calls
followed by a `Poll`, made after every timer that ran when the round began has expired. In
each round the discovery of a channel ends, or the frontier of an active channel moves : if
nothing has moved it before, the timer is one that ran when the round began, and the `Poll`
forces the gap. A record at a position `n` places above the frontier is thus consumed within
`n` rounds, whatever arrives in between, unless the channel is frozen.
-/

namespace L2Flow

namespace SequenceRecovery

variable {cfg : RecoveryConfig}

theorem stateD_some (key : ChannelKey) (state : ChannelState cfg) :
    stateD key (some state) = state :=
  rfl

/-! ## From the end of one run to the end of a longer one -/

section Extension

variable {key : ChannelKey} {calls : List Call} {lane lane' : SequenceRecovery cfg}
  {trace trace' : Trace}

/-- One more call is a turn of the channel, or leaves it as it is. -/
theorem snoc_turn (key : ChannelKey) {call : Call} (hrun : run cfg calls = some (lane, trace))
    (hrun' : run cfg (calls ++ [call]) = some (lane', trace')) :
    (lane'.stateOf key = lane.stateOf key ∧ trace'.of key = trace.of key) ∨
      ∃ op fx, call.on key = some op ∧
        channelStep .succeed key (lane.stateOf key) op = some (lane'.stateOf key, fx) ∧
          trace'.of key = trace.of key ++ fx.events := by
  obtain ⟨mid, before, added, hmid, hstep, rfl⟩ := run_snoc.1 hrun'
  obtain ⟨rfl, rfl⟩ := Prod.mk.inj (Option.some.inj (hmid.symm.trans hrun))
  have hturned := (step_turned (fun _ _ => rfl) (valid_of_run hrun) hstep).2
  rw [Trace.of_append]
  cases hturned.atKey key with
  | early now poll before same silent => exact Or.inl ⟨same, by rw [silent, List.append_nil]⟩
  | refused op on only unused full same silent =>
    exact Or.inl ⟨same, by rw [silent, List.append_nil]⟩
  | apart off same silent => exact Or.inl ⟨same, by rw [silent, List.append_nil]⟩
  | turn op slot fx on served made => exact Or.inr ⟨op, fx, on, served, by rw [made]⟩

/-- What the primitive steps keep, more calls keep. -/
theorem extension_keep {I : ChannelState cfg → List Event → Prop}
    (hstep : ∀ {c c'}, Step .succeed c c' → c.Sound → I c.state c.events → I c'.state c'.events)
    {more : List Call} (hrun : run cfg calls = some (lane, trace))
    (hrun' : run cfg (calls ++ more) = some (lane', trace'))
    (h : I (stateD key (lane.stateOf key)) (trace.of key)) :
    I (stateD key (lane'.stateOf key)) (trace'.of key) := by
  induction more using List.reverseRecOn generalizing lane' trace' with
  | nil =>
    rw [List.append_nil, hrun] at hrun'
    obtain ⟨rfl, rfl⟩ := Prod.mk.inj (Option.some.inj hrun')
    exact h
  | append_singleton more call ih =>
    rw [← List.append_assoc] at hrun'
    obtain ⟨mid, before, -, hmid, -⟩ := run_snoc.1 hrun'
    have hbefore := ih hmid
    rcases snoc_turn key hmid hrun' with ⟨hstate, htrace⟩ | ⟨op, fx, hon, hturn, htrace⟩
    · rwa [hstate, htrace]
    · rw [htrace]
      refine keep_turn (I := fun c => I c.state c.events) hstep (fun _ => rfl)
        ((valid_of_run hmid).placed key) (fun r hr => ?_) hturn hbefore
      obtain ⟨decoded, rfl, -, -⟩ := hand_of_on hon hr
      exact DecodedTick.inRange decoded

end Extension

/-! ## What more calls leave of a channel -/

/-- The record is retained, or has been consumed. -/
def Kept (slot : PendingSlot) (state : ChannelState cfg) (events : List Event) : Prop :=
  slot ∈ state.pending ∨ slot ∈ passedOf events

theorem step_kept {slot : PendingSlot} {c c' : Conf cfg} (h : Step .succeed c c')
    (hc : Kept slot c.state c.events) : Kept slot c'.state c'.events := by
  rcases hc with held | hpassed
  · cases h with
    | retain live free above => exact Or.inl ((mem_retain free).2 (Or.inr held))
    | @release s hand evs slot' accepted live active held' position refused =>
      obtain rfl : accepted = true := by
        cases accepted with
        | true => rfl
        | false => cases (refused rfl).2
      by_cases heq : slot = slot'
      · right
        rw [passedOf, List.filterMap_append, heq]
        exact List.mem_append_right _ List.mem_cons_self
      · exact Or.inl ((mem_release held' position).2 ⟨held, heq⟩)
    | _ => exact Or.inl held
  · obtain ⟨more, hmore⟩ := step_extends h
    right
    rw [← hmore, passedOf, List.filterMap_append]
    exact List.mem_append_left _ hpassed

/-- The channel has left discovery, with its frontier at `e` or above. -/
def From (e : ℕ) (state : ChannelState cfg) (_ : List Event) : Prop :=
  state.discovering = false ∧ e ≤ state.expected

theorem step_from {e : ℕ} {c c' : Conf cfg} (h : Step .succeed c c')
    (hc : From e c.state c.events) : From e c'.state c'.events := by
  obtain ⟨hactive, hmono⟩ := step_advances h hc.1
  exact ⟨hactive, hc.2.trans hmono⟩

/-- The frontier of an active channel is a position. -/
theorem step_expected_pos {c c' : Conf cfg} (h : Step .succeed c c') (hs : c.Sound)
    (hc : c.state.discovering = false → 0 < c.state.expected) :
    c'.state.discovering = false → 0 < c'.state.expected := by
  cases hd : c.state.discovering with
  | false => exact fun _ => (hc hd).trans_le (step_advances h hd).2
  | true =>
    intro hactive
    cases h with
    | finish live discovering held => exact (hs.1.inRange _ held).1
    | release live active => cases active.symm.trans hd
    | pass live active => cases active.symm.trans hd
    | skip live active => cases active.symm.trans hd
    | _ => cases hactive.symm.trans hd

theorem expected_pos_of_run {calls : List Call} {lane : SequenceRecovery cfg} {trace : Trace}
    (h : run cfg calls = some (lane, trace)) (key : ChannelKey) :
    (stateD key (lane.stateOf key)).discovering = false →
      0 < (stateD key (lane.stateOf key)).expected := by
  have hall : run cfg ([] ++ calls) = some (lane, trace) := h
  refine extension_keep (I := fun state _ => state.discovering = false → 0 < state.expected)
    (fun hstep hs hc => step_expected_pos hstep hs hc)
    (rfl : run cfg [] = some (init cfg, [])) hall ?_
  show (ChannelState.fresh cfg key).discovering = false → 0 < (ChannelState.fresh cfg key).expected
  cases hmode : cfg.mode <;> simp [ChannelState.fresh, hmode]

/-- The channel is frozen, or the record has been consumed. -/
def Over (slot : PendingSlot) (state : ChannelState cfg) (events : List Event) : Prop :=
  state.frozen = true ∨ slot ∈ passedOf events

theorem step_over {slot : PendingSlot} {c c' : Conf cfg} (h : Step .succeed c c')
    (hc : Over slot c.state c.events) : Over slot c'.state c'.events := by
  rcases hc with hfrozen | hpassed
  · exact Or.inl (step_frozen h hfrozen)
  · obtain ⟨more, hmore⟩ := step_extends h
    right
    rw [← hmore, passedOf, List.filterMap_append]
    exact List.mem_append_left _ hpassed

/-! ## When the hold began -/

/-- A turn after which the channel discovers, leaves a hold that ran as it was, and dates a
hold that it begins. -/
theorem hold_channelStep {key : ChannelKey} {channel channel' : Option (ChannelState cfg)}
    {op : ChannelCall} {fx : Effects} (hp : Placed key channel)
    (h : channelStep .succeed key channel op = some (channel', fx))
    (hd : (stateD key channel').discovering = true) :
    (stateD key channel').firstSeenNs = (stateD key channel).firstSeenNs ∨
      ((stateD key channel).firstSeenNs = 0 ∧ (stateD key channel').firstSeenNs = op.now) := by
  cases channelTurn h with
  | @process decoded now r turn =>
    obtain ⟨firstSeenNs, hopen, -⟩ :=
      openHold_eq now (retain (stateD key channel) (slotOf decoded.toTickDecodeResult))
    have hrest := hp.resting.1
    cases processTurn hrest turn with
    | frozen => exact Or.inl rfl
    | active live active loop =>
      obtain ⟨hreach, -⟩ :=
        processActive_steps (fun _ => rfl) (DecodedTick.inRange decoded) (hrest.ready live active)
          loop
      cases (hreach.advances active).1.symm.trans hd
    | expired live discovering free due =>
      have hsound : (retain (stateD key channel) (slotOf decoded.toTickDecodeResult)).Sound :=
        sound_retain hrest.sound (DecodedTick.inRange decoded) free (Or.inl discovering)
      have hheld : (openHold now
          (retain (stateD key channel) (slotOf decoded.toTickDecodeResult))).1.Sound := by
        rw [hopen]
        exact ⟨hsound.count, hsound.inRange, hsound.ahead⟩
      have hready := (finishDiscovery_steps .succeed now
        (openHold now (retain (stateD key channel) (slotOf decoded.toTickDecodeResult))).2 hheld
        (by rw [hopen]; exact live) (by rw [hopen]; exact discovering)
        (by rw [hopen]; exact Nat.succ_ne_zero _) none).2
      cases hready.active.symm.trans hd
    | holding live discovering free hold early =>
      show (openHold now (retain (stateD key channel)
          (slotOf decoded.toTickDecodeResult))).1.firstSeenNs = _ ∨
        _ ∧ (openHold now (retain (stateD key channel)
          (slotOf decoded.toTickDecodeResult))).1.firstSeenNs = now
      unfold openHold
      split_ifs with hfirst
      · exact Or.inr ⟨hfirst, rfl⟩
      · exact Or.inl rfl
    | collision live discovering held other loop =>
      have hc := pendingCount_ne_zero hrest.sound (DirectMapped.mem_of_occupant held).1
      have hready := (finishDiscovery_steps .succeed now {} hrest.sound live discovering hc none).2
      obtain ⟨hreach, -⟩ :=
        processActive_steps (fun _ => rfl) (DecodedTick.inRange decoded) hready loop
      cases (hreach.advances hready.active).1.symm.trans hd
    | duplicate => exact Or.inl rfl
    | divert => exact Or.inl rfl
  | absent => exact Or.inl rfl
  | @poll now state present =>
    subst present
    have hs : state.Idle := (hp state rfl).1
    rw [stateD_some] at hd ⊢
    generalize hturn : pollChannel .succeed now state = r at hd ⊢
    cases pollTurn hturn with
    | ended live nonempty discovering =>
      have hready := (finishDiscovery_steps .succeed now {} hs.sound live discovering nonempty
        none).2
      cases hready.active.symm.trans hd
    | forced live nonempty active =>
      have hready : (forceGapToMinimum .succeed now (state, {})).1.Ready :=
        (forceGapToMinimum_steps (fun _ => rfl) now {} (hs.ready live active) none (by simp)).2
      cases hready.active.symm.trans hd
    | _ => exact Or.inl rfl
  | @flush now state r present turn =>
    subst present
    have hs : state.Idle := (hp state rfl).1
    rcases hf : state.frozen with - | -
    · have hready := (flushChannel_keep (fun _ => rfl) hs hf turn (I := fun _ => True)
        (fun _ => trivial) (fun _ => trivial) fun _ _ _ _ _ => trivial).2.1
      cases hready.active.symm.trans hd
    · obtain rfl := flushChannel_frozen hf turn
      exact Or.inl rfl
  | ignored => exact Or.inl rfl
  | freeze =>
    left
    unfold freezeChannel freezeFromOpen
    split_ifs <;> rfl

/-- A channel does not go back into discovery. -/
theorem discovering_before {key : ChannelKey} {channel channel' : Option (ChannelState cfg)}
    {op : ChannelCall} {fx : Effects} (hp : Placed key channel)
    (h : channelStep .succeed key channel op = some (channel', fx))
    (hd : (stateD key channel').discovering = true) : (stateD key channel).discovering = true := by
  by_contra hactive
  rw [Bool.not_eq_true] at hactive
  have hreach := (channelStep_steps (fun _ => rfl) hp h).1
  cases (hreach.advances hactive).1.symm.trans hd

/-- The hold of a channel that discovers began with one of the calls. -/
def HoldDated (calls : List Call) (state : ChannelState cfg) : Prop :=
  state.discovering = true → state.firstSeenNs ≠ 0 → ∃ call ∈ calls, state.firstSeenNs = call.now

theorem holdDated_of_run {calls : List Call} {lane : SequenceRecovery cfg} {trace : Trace}
    (h : run cfg calls = some (lane, trace)) (key : ChannelKey) :
    HoldDated calls (stateD key (lane.stateOf key)) := by
  induction calls using List.reverseRecOn generalizing lane trace with
  | nil =>
    obtain ⟨rfl, rfl⟩ := Prod.mk.inj (Option.some.inj h)
    exact fun _ hseen => absurd rfl hseen
  | append_singleton calls call ih =>
    obtain ⟨mid, before, -, hmid, -⟩ := run_snoc.1 h
    have hbefore := ih hmid
    have hp := (valid_of_run hmid).placed key
    intro hd hseen
    rcases snoc_turn key hmid h with ⟨hstate, -⟩ | ⟨op, fx, hon, hturn, -⟩
    · rw [hstate] at hd hseen ⊢
      obtain ⟨first, hmem, hfirst⟩ := hbefore hd hseen
      exact ⟨first, List.mem_append_left _ hmem, hfirst⟩
    · rcases hold_channelStep hp hturn hd with hsame | ⟨-, hnow⟩
      · have hd' := discovering_before hp hturn hd
        rw [hsame] at hseen ⊢
        obtain ⟨first, hmem, hfirst⟩ := hbefore hd' hseen
        exact ⟨first, List.mem_append_left _ hmem, hfirst⟩
      · exact ⟨call, by simp, hnow.trans (now_of_on hon)⟩

/-- While a channel discovers, more calls leave a hold that runs as it was. -/
theorem hold_extension {key : ChannelKey} {calls more : List Call}
    {lane lane' : SequenceRecovery cfg} {trace trace' : Trace}
    (hrun : run cfg calls = some (lane, trace))
    (hrun' : run cfg (calls ++ more) = some (lane', trace'))
    (hseen : (stateD key (lane.stateOf key)).firstSeenNs ≠ 0)
    (hd : (stateD key (lane'.stateOf key)).discovering = true) :
    (stateD key (lane'.stateOf key)).firstSeenNs = (stateD key (lane.stateOf key)).firstSeenNs := by
  induction more using List.reverseRecOn generalizing lane' trace' with
  | nil =>
    rw [List.append_nil, hrun] at hrun'
    obtain ⟨rfl, rfl⟩ := Prod.mk.inj (Option.some.inj hrun')
    rfl
  | append_singleton more call ih =>
    rw [← List.append_assoc] at hrun'
    obtain ⟨mid, before, -, hmid, -⟩ := run_snoc.1 hrun'
    rcases snoc_turn key hmid hrun' with ⟨hstate, -⟩ | ⟨op, fx, -, hturn, -⟩
    · rw [hstate] at hd ⊢
      exact ih hmid hd
    · have hp := (valid_of_run hmid).placed key
      have hbefore := ih hmid (discovering_before hp hturn hd)
      rcases hold_channelStep hp hturn hd with hsame | ⟨hzero, -⟩
      · exact hsame.trans hbefore
      · exact absurd (hbefore.symm.trans hzero) hseen

/-! ## A round -/

variable (cfg) in
/-- The longest that a timer runs. -/
def patience : ℕ :=
  max cfg.initialHoldNs cfg.gapWaitNs

section Round

variable {key : ChannelKey} {calls arrivals : List Call} {now : ℕ} {slot : PendingSlot}
  {lane lane' : SequenceRecovery cfg} {trace trace' : Trace}

/-- The last call of a round, on a channel that retains a record. -/
theorem poll_of_round (hpos : ∀ call ∈ calls ++ arrivals ++ [.poll now], call.now ≠ 0)
    (hrun : run cfg (calls ++ arrivals) = some (lane, trace))
    (hrun' : run cfg (calls ++ arrivals ++ [.poll now]) = some (lane', trace'))
    (held : slot ∈ (stateD key (lane.stateOf key)).pending) :
    ∃ state, lane.stateOf key = some state ∧
      lane'.stateOf key = some (pollChannel .succeed now state).1 := by
  cases hstate : lane.stateOf key with
  | none =>
    rw [hstate] at held
    exact absurd held (by simp [stateD, ChannelState.fresh])
  | some state =>
    obtain ⟨mid, before, added, hmid, hstep, -⟩ := run_snoc.1 hrun'
    obtain ⟨rfl, rfl⟩ := Prod.mk.inj (Option.some.inj (hmid.symm.trans hrun))
    have hleft : ∀ call ∈ calls ++ arrivals, call.now ≠ 0 :=
      fun call hmem => hpos call (List.mem_append_left _ hmem)
    have hturn := (poll_turn (valid_of_run hrun) (timely_of_run hleft hrun) now hstate).1
    have hpoll : poll (fun _ => .succeed) now mid = (lane', added) := Option.some.inj hstep
    rw [hpoll] at hturn
    exact ⟨state, rfl, hturn⟩

/-- The call by which a frontier first waits is one of those after which it waits. -/
theorem mem_of_firstWaits {e : ℕ} {before after : List Call} {call : Call}
    (hcalls : calls ++ arrivals = before ++ call :: after)
    (hfirst : FirstWaits cfg key e before call) (hwaits : WaitsAfter cfg key e calls) :
    call ∈ calls := by
  have hleft : calls <+: calls ++ arrivals := List.prefix_append _ _
  have hfront : before ++ [call] <+: calls ++ arrivals := by
    rw [hcalls]
    exact ⟨after, by simp⟩
  rcases List.prefix_or_prefix_of_prefix hleft hfront with hbelow | habove
  · rcases List.prefix_concat_iff.1 hbelow with hsame | hearlier
    · rw [hsame]
      exact List.mem_append_right _ List.mem_cons_self
    · exact absurd hwaits (hfirst.1 calls hearlier)
  · exact habove.subset (List.mem_append_right _ List.mem_cons_self)

/-- A round moves the frontier of an active channel, unless it freezes it. -/
theorem round_active {lane₀ : SequenceRecovery cfg} {trace₀ : Trace}
    (hpos : ∀ call ∈ calls ++ arrivals ++ [.poll now], call.now ≠ 0)
    (hpatient : ∀ call ∈ calls, call.now + patience cfg ≤ now)
    (hrun₀ : run cfg calls = some (lane₀, trace₀))
    (hrun : run cfg (calls ++ arrivals) = some (lane, trace))
    (hrun' : run cfg (calls ++ arrivals ++ [.poll now]) = some (lane', trace'))
    (active : (stateD key (lane₀.stateOf key)).discovering = false)
    (held₀ : slot ∈ (stateD key (lane₀.stateOf key)).pending)
    (held : slot ∈ (stateD key (lane.stateOf key)).pending)
    (live : (stateD key (lane'.stateOf key)).frozen = false) :
    (stateD key (lane₀.stateOf key)).expected < (stateD key (lane'.stateOf key)).expected := by
  by_contra hstays
  have hlive : (stateD key (lane.stateOf key)).frozen = false := by
    by_contra hfrozen
    rw [Bool.not_eq_false] at hfrozen
    cases live.symm.trans (extension_keep (I := fun state _ => state.frozen = true)
      (fun h _ hc => step_frozen h hc) hrun hrun' hfrozen)
  have hlive₀ : (stateD key (lane₀.stateOf key)).frozen = false := by
    by_contra hfrozen
    rw [Bool.not_eq_false] at hfrozen
    cases hlive.symm.trans (extension_keep (I := fun state _ => state.frozen = true)
      (fun h _ hc => step_frozen h hc) hrun₀ hrun hfrozen)
  obtain ⟨hactive, hle⟩ := extension_keep (I := From (stateD key (lane₀.stateOf key)).expected)
    (fun h _ hc => step_from h hc) hrun₀ hrun ⟨active, le_refl _⟩
  obtain ⟨-, hle'⟩ := extension_keep (I := From (stateD key (lane.stateOf key)).expected)
    (fun h _ hc => step_from h hc) hrun hrun' ⟨hactive, le_refl _⟩
  have hsound := ((valid_of_run hrun).placed key).resting.1.sound
  have hsound₀ := ((valid_of_run hrun₀).placed key).resting.1.sound
  have hleft : ∀ call ∈ calls ++ arrivals, call.now ≠ 0 :=
    fun call hmem => hpos call (List.mem_append_left _ hmem)
  have hhonest := honest_of_run hleft hrun key
  -- the timer is one that ran when the round began
  obtain ⟨before, call, after, hcalls, hfirst, hopened⟩ :=
    hhonest.started (stateD key (lane₀.stateOf key)).expected
      ⟨hlive, hactive, by omega, pendingCount_ne_zero hsound held⟩
  have hmem : call ∈ calls := mem_of_firstWaits hcalls hfirst ((waitsAfter_iff hrun₀).2
    ⟨hlive₀, active, rfl, pendingCount_ne_zero hsound₀ held₀⟩)
  have hdue := hpatient call hmem
  have hwait : cfg.gapWaitNs ≤ patience cfg := le_max_right _ _
  obtain ⟨state, hstate, hstate'⟩ := poll_of_round hpos hrun hrun' held
  have hs := ((valid_of_run hrun).placed key _ hstate).1
  rw [hstate, stateD_some] at hlive hactive hle hle' hopened held hhonest hsound
  rw [hstate', stateD_some] at hstays hle'
  have hc : state.pendingCount ≠ 0 := pendingCount_ne_zero hsound held
  generalize hturn : pollChannel .succeed now state = r at hstays hle'
  cases pollTurn hturn with
  | skipped idle =>
    rcases idle with hfrozen | hnone
    · cases hlive.symm.trans hfrozen
    · exact hc hnone
  | ended live nonempty discovering => cases hactive.symm.trans discovering
  | holding live nonempty discovering => cases hactive.symm.trans discovering
  | forced live nonempty active =>
    have hnow : now ≠ 0 := hpos (.poll now) (by simp)
    have := ((forceGap_restarts hnow {} (hs.ready live active)).2 nonempty).1
    omega
  | waiting live nonempty active opened early =>
    have hnot := mt deadlineReached_iff.2 (by rw [early]; exact Bool.false_ne_true)
    omega
  | unopened live nonempty active unopened =>
    exact nonempty ((hhonest.stamped live active).2 unopened)

/-- A round ends the discovery of a channel. -/
theorem round_discovering {lane₀ : SequenceRecovery cfg} {trace₀ : Trace}
    (hpos : ∀ call ∈ calls ++ arrivals ++ [.poll now], call.now ≠ 0)
    (hpatient : ∀ call ∈ calls, call.now + patience cfg ≤ now)
    (hrun₀ : run cfg calls = some (lane₀, trace₀))
    (hrun : run cfg (calls ++ arrivals) = some (lane, trace))
    (hrun' : run cfg (calls ++ arrivals ++ [.poll now]) = some (lane', trace'))
    (held₀ : slot ∈ (stateD key (lane₀.stateOf key)).pending)
    (held : slot ∈ (stateD key (lane.stateOf key)).pending) :
    (stateD key (lane'.stateOf key)).discovering = false := by
  by_contra hd'
  rw [Bool.not_eq_false] at hd'
  have hback : ∀ {earlier more : List Call} {mid mid' : SequenceRecovery cfg} {t t' : Trace},
      run cfg earlier = some (mid, t) → run cfg (earlier ++ more) = some (mid', t') →
      (stateD key (mid'.stateOf key)).discovering = true →
        (stateD key (mid.stateOf key)).discovering = true := by
    intro earlier more mid mid' t t' h h' hlater
    by_contra hactive
    rw [Bool.not_eq_true] at hactive
    cases hlater.symm.trans (extension_keep
      (I := From (stateD key (mid.stateOf key)).expected) (fun hs _ hc => step_from hs hc) h h'
      ⟨hactive, le_refl _⟩).1
  have hd := hback hrun hrun' hd'
  have hd₀ := hback hrun₀ hrun hd
  have hp₀ := (valid_of_run hrun₀).placed key
  have hlive₀ : (stateD key (lane₀.stateOf key)).frozen = false := by
    by_contra hfrozen
    rw [Bool.not_eq_false] at hfrozen
    cases hd₀.symm.trans (hp₀.resting.1.active_of_frozen hfrozen)
  have hpos₀ : ∀ call ∈ calls, call.now ≠ 0 := fun call hmem =>
    hpos call (List.mem_append_left _ (List.mem_append_left _ hmem))
  -- the hold is one that ran when the round began
  have hseen₀ : (stateD key (lane₀.stateOf key)).firstSeenNs ≠ 0 :=
    ((timely_of_run hpos₀ hrun₀).timed key).hold hlive₀ hd₀
      (pendingCount_ne_zero hp₀.resting.1.sound held₀)
  obtain ⟨call, hmem, hfirst⟩ := holdDated_of_run hrun₀ key hd₀ hseen₀
  have hsame := hold_extension hrun₀ hrun hseen₀ hd
  have hdue := hpatient call hmem
  have hhold : cfg.initialHoldNs ≤ patience cfg := le_max_left _ _
  have hsound := ((valid_of_run hrun).placed key).resting.1.sound
  obtain ⟨state, hstate, hstate'⟩ := poll_of_round hpos hrun hrun' held
  rw [hstate, stateD_some] at hd hsame held hsound
  rw [hstate', stateD_some] at hd'
  have hrest := ((valid_of_run hrun).placed key _ hstate).1
  have hc : state.pendingCount ≠ 0 := pendingCount_ne_zero hsound held
  generalize hturn : pollChannel .succeed now state = r at hd'
  cases pollTurn hturn with
  | skipped idle =>
    rcases idle with hfrozen | hnone
    · cases hd.symm.trans (hrest.active_of_frozen hfrozen)
    · exact hc hnone
  | ended live nonempty discovering =>
    have hready := (finishDiscovery_steps .succeed now {} hrest.sound live discovering nonempty
      none).2
    cases hready.active.symm.trans hd'
  | holding live nonempty discovering early =>
    have hnot := mt deadlineReached_iff.2 (by rw [early]; exact Bool.false_ne_true)
    omega
  | forced live nonempty active => cases active.symm.trans hd
  | waiting live nonempty active => cases active.symm.trans hd
  | unopened live nonempty active => cases active.symm.trans hd

end Round

/-! ## Many rounds -/

/-- The calls of rounds, each of any calls and then a `Poll`. -/
def roundCalls (rounds : List (List Call × ℕ)) : List Call :=
  rounds.flatMap fun round => round.1 ++ [.poll round.2]

variable (cfg) in
/-- The `Poll` of a round comes after every timer that ran when the round began has expired. -/
def Paced : List Call → List (List Call × ℕ) → Prop
  | _, [] => True
  | earlier, (arrivals, now) :: rounds =>
    (∀ call ∈ earlier, call.now + patience cfg ≤ now) ∧
      Paced (earlier ++ arrivals ++ [.poll now]) rounds

/-- How many rounds a channel takes at most to come to the record. -/
def roundsTo (slot : PendingSlot) (state : ChannelState cfg) : ℕ :=
  if state.discovering then slot.nativeSequence else slot.nativeSequence - state.expected

/-- What a channel that is not frozen retains lies ahead. -/
theorem roundsTo_pos {slot : PendingSlot} {state : ChannelState cfg} (hs : state.Resting)
    (held : slot ∈ state.pending) : 0 < roundsTo slot state := by
  unfold roundsTo
  split_ifs with hd
  · exact (hs.sound.inRange slot held).1
  · have := hs.settled (by simpa using hd) slot held
    omega

/-- A round brings a channel nearer to a record that it still retains. -/
theorem roundsTo_lt {key : ChannelKey} {calls arrivals : List Call} {now : ℕ} {slot : PendingSlot}
    {lane₀ lane lane' : SequenceRecovery cfg} {trace₀ trace trace' : Trace}
    (hpos : ∀ call ∈ calls ++ arrivals ++ [.poll now], call.now ≠ 0)
    (hpatient : ∀ call ∈ calls, call.now + patience cfg ≤ now)
    (hrun₀ : run cfg calls = some (lane₀, trace₀))
    (hrun : run cfg (calls ++ arrivals) = some (lane, trace))
    (hrun' : run cfg (calls ++ arrivals ++ [.poll now]) = some (lane', trace'))
    (held₀ : slot ∈ (stateD key (lane₀.stateOf key)).pending)
    (held : slot ∈ (stateD key (lane.stateOf key)).pending)
    (held' : slot ∈ (stateD key (lane'.stateOf key)).pending)
    (live : (stateD key (lane'.stateOf key)).frozen = false) :
    roundsTo slot (stateD key (lane'.stateOf key)) <
      roundsTo slot (stateD key (lane₀.stateOf key)) := by
  have hs' := ((valid_of_run hrun').placed key).resting.1
  cases hd : (stateD key (lane₀.stateOf key)).discovering with
  | false =>
    have hlt := round_active hpos hpatient hrun₀ hrun hrun' hd held₀ held live
    rw [List.append_assoc] at hrun'
    have hactive := (extension_keep (I := From (stateD key (lane₀.stateOf key)).expected)
      (fun h _ hc => step_from h hc) hrun₀ hrun' ⟨hd, le_refl _⟩).1
    have hahead := hs'.settled hactive slot held'
    rw [roundsTo, roundsTo, hd, hactive, if_neg Bool.false_ne_true, if_neg Bool.false_ne_true]
    omega
  | true =>
    have hactive := round_discovering hpos hpatient hrun₀ hrun hrun' held₀ held
    have hahead := hs'.settled hactive slot held'
    have hfirst := expected_pos_of_run hrun' key hactive
    rw [roundsTo, roundsTo, hd, hactive, if_neg Bool.false_ne_true, if_pos rfl]
    omega

/-- A record that is retained is consumed within as many rounds as there are positions from the
frontier to it, or from the first position where the channel still discovers, whatever arrives
in between, unless the channel is frozen. -/
theorem retained_leaves (cfg : RecoveryConfig) {key : ChannelKey} {slot : PendingSlot}
    {rounds : List (List Call × ℕ)} {calls : List Call} {lane lane' : SequenceRecovery cfg}
    {trace trace' : Trace} (hpos : ∀ call ∈ calls ++ roundCalls rounds, 0 < call.now)
    (hrun : run cfg calls = some (lane, trace))
    (held : slot ∈ (stateD key (lane.stateOf key)).pending) (hpaced : Paced cfg calls rounds)
    (hlong : roundsTo slot (stateD key (lane.stateOf key)) ≤ rounds.length)
    (hrun' : run cfg (calls ++ roundCalls rounds) = some (lane', trace')) :
    (stateD key (lane'.stateOf key)).frozen = true ∨ slot ∈ passedOf (trace'.of key) := by
  induction rounds generalizing calls lane trace with
  | nil =>
    have := roundsTo_pos ((valid_of_run hrun).placed key).resting.1 held
    rw [List.length_nil] at hlong
    omega
  | cons round rounds ih =>
    obtain ⟨arrivals, now⟩ := round
    obtain ⟨hpatient, hpaced⟩ := hpaced
    have hcalls : calls ++ roundCalls ((arrivals, now) :: rounds) =
        calls ++ arrivals ++ [.poll now] ++ roundCalls rounds := by
      simp [roundCalls]
    rw [hcalls] at hpos hrun'
    obtain ⟨mid, trace₁, hmid⟩ := exists_run cfg (calls ++ arrivals)
    obtain ⟨last, trace₂, hlast⟩ := exists_run cfg (calls ++ arrivals ++ [.poll now])
    have hround : ∀ call ∈ calls ++ arrivals ++ [.poll now], call.now ≠ 0 :=
      fun call hmem => (hpos call (List.mem_append_left _ hmem)).ne'
    by_cases hover : Over slot (stateD key (last.stateOf key)) (trace₂.of key)
    · exact extension_keep (fun h _ hc => step_over h hc) hlast hrun' hover
    · have hkept : Kept slot (stateD key (mid.stateOf key)) (trace₁.of key) :=
        extension_keep (fun h _ hc => step_kept h hc) hrun hmid (Or.inl held)
      have hkept' : Kept slot (stateD key (last.stateOf key)) (trace₂.of key) :=
        extension_keep (fun h _ hc => step_kept h hc) hmid hlast hkept
      have held' := hkept'.resolve_right fun hpassed => hover (Or.inr hpassed)
      have heldMid := hkept.resolve_right fun hpassed => hover
        (extension_keep (fun h _ hc => step_over h hc) hmid hlast (Or.inr hpassed))
      have hlive : (stateD key (last.stateOf key)).frozen = false := by
        by_contra hfrozen
        exact hover (Or.inl (by simpa using hfrozen))
      have hlt := roundsTo_lt hround hpatient hrun hmid hlast held heldMid held' hlive
      rw [List.length_cons] at hlong
      exact ih hpos hlast held' hpaced (by omega) hrun'

theorem two_inRange : 0 < 2 ∧ 2 < 2 ^ 63 := by
  decide

/-- A record below the one that waits arrives in the first round. -/
def sampleRounds : List (List Call × ℕ) :=
  [([arrival 2 two_inRange 50], 110), ([], 210)]

theorem retained_leaves_sample : ∃ lane trace lane' trace',
    run (sampleConfig .kFromOpen 0 100) [arrival 3 (by decide) 10] = some (lane, trace) ∧
      slotOf (sampleRecord 3) ∈ (stateD sampleKey (lane.stateOf sampleKey)).pending ∧
      run (sampleConfig .kFromOpen 0 100)
        ([arrival 3 (by decide) 10] ++ roundCalls sampleRounds) = some (lane', trace') ∧
      slotOf (sampleRecord 3) ∈ passedOf (trace'.of sampleKey) := by
  have hheld : ((run (sampleConfig .kFromOpen 0 100) [arrival 3 (by decide) 10]).map fun r =>
      ((stateD sampleKey (r.1.stateOf sampleKey)).pending.occupant 3,
        roundsTo (slotOf (sampleRecord 3)) (stateD sampleKey (r.1.stateOf sampleKey)))) =
      some (some (slotOf (sampleRecord 3)), 2) := by
    decide +kernel
  have hlive : ((run (sampleConfig .kFromOpen 0 100)
      ([arrival 3 (by decide) 10] ++ roundCalls sampleRounds)).map fun r =>
      (stateD sampleKey (r.1.stateOf sampleKey)).frozen) = some false := by
    decide +kernel
  obtain ⟨⟨lane, trace⟩, hrun, hstate⟩ := Option.map_eq_some_iff.1 hheld
  obtain ⟨hoccupant, hrounds⟩ := Prod.mk.inj hstate
  obtain ⟨⟨lane', trace'⟩, hrun', hfrozen⟩ := Option.map_eq_some_iff.1 hlive
  have held := (DirectMapped.mem_of_occupant hoccupant).1
  have hpos : ∀ call ∈ [arrival 3 (by decide) 10] ++ roundCalls sampleRounds, 0 < call.now := by
    simp [roundCalls, sampleRounds, arrival, Call.now]
  have hpaced : Paced (sampleConfig .kFromOpen 0 100) [arrival 3 (by decide) 10] sampleRounds := by
    simp [Paced, sampleRounds, arrival, Call.now, patience, sampleConfig]
  refine ⟨lane, trace, lane', trace', hrun, held, hrun',
    (retained_leaves (sampleConfig .kFromOpen 0 100) hpos hrun held hpaced (le_of_eq hrounds)
      hrun').resolve_left ?_⟩
  rw [show (stateD sampleKey (lane'.stateOf sampleKey)).frozen = false from hfrozen]
  exact Bool.false_ne_true

end SequenceRecovery

end L2Flow
