import L2Flow.SlotOwnership

/-!
# Shutdown

`Stop` closes the gate, waits until no call of `Admit` is past `callback_active_`, and only then
clears `running_`. A call that comes later finds the gate closed, and a call that came earlier is
over. So a worker that finds nothing, then reads that `running_` is clear, and then finds its ring
empty has consumed all that was ever published for its lane (`stop_drains`).
-/

namespace L2Flow

variable {cfg : AdmissionConfig} {threads stops : ℕ}

/-! ## Beyond the gate -/

/-- The call has found the gate open, and may still accept its message. -/
def AdmitStage.passed : AdmitStage cfg → Bool
  | .gateRunning | .gateHealthy | .publishing _ _ => true
  | .leaving result => result = .kAccepted
  | _ => false

theorem AdmitStage.guarded_of_passed {stage : AdmitStage cfg} (h : stage.passed = true) :
    stage.guarded = true := by
  rcases stage with _ | _ | _ | _ | _ | _ | _ | _ | _ | _
  all_goals first | rfl | cases h

/-- `callback_active_` was seen clear. -/
def StopStage.waited : StopStage → Bool
  | .stopping | .stopped => true
  | _ => false

/-- The worker has read that `running_` is clear. -/
def WorkerStage.told : WorkerStage → Bool
  | .stopping | .flushing | .exited => true
  | _ => false

/-- The worker has then found its ring empty. -/
def WorkerStage.drained : WorkerStage → Bool
  | .flushing | .exited => true
  | _ => false

theorem WorkerStage.told_of_drained {worker : WorkerStage} (h : worker.drained = true) :
    worker.told = true := by
  rcases worker with _ | _ | _ | _ | _ | _ | _
  all_goals first | rfl | cases h

namespace Admission

/-- What no thread reports once the worker of the lane has exited. -/
def Event.late (lane : Lane cfg) : Event cfg threads → Bool
  | .published _ _ _ => true
  | .returned _ result => result = .kAccepted
  | .consumed lane' _ => lane' = lane
  | _ => false

theorem publishedOn_of_late {lane : Lane cfg} {log : List (Event cfg threads)}
    (h : ∀ event ∈ log, event.late lane = false) : publishedOn lane log = [] := by
  refine List.filterMap_eq_nil_iff.2 fun event hevent => ?_
  have hlate := h event hevent
  rcases event with _ | _ | _ | _ | _ | _
  all_goals first | rfl | cases hlate

theorem consumedOn_of_late {lane : Lane cfg} {log : List (Event cfg threads)}
    (h : ∀ event ∈ log, event.late lane = false) : consumedOn lane log = [] := by
  refine List.filterMap_eq_nil_iff.2 fun event hevent => ?_
  have hlate := h event hevent
  rcases event with _ | _ | _ | ⟨lane', message⟩ | _ | _
  case consumed => exact if_neg (of_decide_eq_false hlate)
  all_goals rfl

/-! ## Steps -/

theorem setFatalStep_running (flags : EngineFlags) (stage : FatalStage) :
    (setFatalStep flags stage).1.running = flags.running := by
  rcases stage with - | - | -
  · rw [setFatalStep]
    split_ifs <;> rfl
  · rfl
  · rfl

/-- `SetFatal` does not open the gate. -/
theorem setFatalStep_accepting {flags : EngineFlags} (h : flags.accepting = false)
    (stage : FatalStage) : (setFatalStep flags stage).1.accepting = false := by
  rcases stage with - | - | -
  · rw [setFatalStep]
    split_ifs <;> exact h
  · rfl
  · exact h

section Step

variable {s s' : State cfg threads stops} {log new : List (Event cfg threads)}
  {thread : Fin threads} {call : AdmitCall} {stage : AdmitStage cfg}

/-- What a call of `Admit` leaves to the others. -/
structure Leaves (s s' : State cfg threads stops) : Prop where
  start : s'.start = s.start
  stops : s'.stops = s.stops
  running : s'.flags.running = s.flags.running
  accepting : s.flags.accepting = false → s'.flags.accepting = false

theorem publishStep_leaves (s : State cfg threads stops) (thread : Fin threads)
    (call : AdmitCall) (publication : Publication cfg) (now : PublishStage) :
    Leaves s (publishStep s thread call publication now).1 := by
  rcases now with - | - | index | ⟨index, copied⟩ | - | -
  · exact ⟨rfl, rfl, rfl, id⟩
  · rw [publishStep]
    rcases (s.lanes publication.lane).free with - | ⟨index, rest⟩ <;> exact ⟨rfl, rfl, rfl, id⟩
  · exact ⟨rfl, rfl, rfl, id⟩
  · rw [publishStep]
    rcases call.body[copied]? with - | octet
    · dsimp only
      split_ifs <;> exact ⟨rfl, rfl, rfl, id⟩
    · exact ⟨rfl, rfl, rfl, id⟩
  · exact ⟨rfl, rfl, rfl, id⟩
  · exact ⟨rfl, rfl, rfl, id⟩

theorem callStep_leaves (s : State cfg threads stops) (thread : Fin threads) (call : AdmitCall)
    (stage : AdmitStage cfg) : Leaves s (callStep s thread call stage).1 := by
  rcases stage with - | - | - | - | - | ⟨publication, now⟩ | ⟨fatal, after⟩ | result | result |
    result
  · rw [callStep]
    split_ifs <;> exact ⟨rfl, rfl, rfl, id⟩
  · exact ⟨rfl, rfl, rfl, id⟩
  · exact ⟨rfl, rfl, rfl, id⟩
  · exact ⟨rfl, rfl, rfl, id⟩
  · rw [callStep]
    dsimp only
    split_ifs
    · rcases checkCall cfg call with result | - | ⟨header, lane⟩
      · exact ⟨rfl, rfl, rfl, id⟩
      · exact ⟨rfl, rfl, rfl, id⟩
      · dsimp only
        split_ifs <;> exact ⟨rfl, rfl, rfl, id⟩
    · exact ⟨rfl, rfl, rfl, id⟩
  · exact publishStep_leaves s thread call publication now
  · have hrunning := setFatalStep_running s.flags fatal
    have haccepting : s.flags.accepting = false →
        (setFatalStep s.flags fatal).1.accepting = false :=
      fun h => setFatalStep_accepting h fatal
    rcases hdone : (setFatalStep s.flags fatal).2 with - | next
    · rcases after with - | result <;> simp only [callStep, hdone] <;>
        exact ⟨rfl, rfl, hrunning, haccepting⟩
    · simp only [callStep, hdone]
      exact ⟨rfl, rfl, hrunning, haccepting⟩
  · exact ⟨rfl, rfl, rfl, id⟩
  · exact ⟨rfl, rfl, rfl, id⟩
  · exact ⟨rfl, rfl, rfl, id⟩

/-- A call that has not passed the gate will not pass it any more, and is not accepted. -/
structure Refused (thread : Fin threads) (s s' : State cfg threads stops) (call : AdmitCall)
    (next : Option (AdmitStage cfg)) (new : List (Event cfg threads)) : Prop where
  lanes : s'.lanes = s.lanes
  workers : s'.workers = s.workers
  admits : s'.admits = Function.update s.admits thread (next.map (call, ·))
  passed : ∀ stage ∈ next, stage.passed = false
  late : ∀ lane, ∀ event ∈ new, event.late lane = false

theorem Refused.quiet {next : AdmitStage cfg} (hlanes : s'.lanes = s.lanes)
    (hworkers : s'.workers = s.workers)
    (hadmits : s'.admits = Function.update s.admits thread (some (call, next)))
    (hpassed : next.passed = false) : Refused thread s s' call (some next) [] where
  lanes := hlanes
  workers := hworkers
  admits := hadmits
  passed := fun _ hstage => Option.mem_some_iff.1 hstage ▸ hpassed
  late := fun _ _ hevent => absurd hevent List.not_mem_nil

theorem Refused.returned {result : AdmissionResult} (hlanes : s'.lanes = s.lanes)
    (hworkers : s'.workers = s.workers) (hadmits : s'.admits = Function.update s.admits thread none)
    (hresult : result ≠ .kAccepted) :
    Refused thread s s' call none [.returned thread result] where
  lanes := hlanes
  workers := hworkers
  admits := hadmits
  passed := fun _ hstage => absurd hstage (Option.not_mem_none _)
  late := fun _ _ hevent => List.mem_singleton.1 hevent ▸ decide_eq_false hresult

theorem callStep_refused (hpassed : stage.passed = false) (hgate : s.flags.accepting = false)
    (thread : Fin threads) (call : AdmitCall) :
    ∃ next, Refused thread s (callStep s thread call stage).1 call next
      (callStep s thread call stage).2 := by
  rcases stage with - | - | - | - | - | ⟨publication, now⟩ | ⟨fatal, after⟩ | result | result |
    result
  · rw [callStep]
    split_ifs
    · exact ⟨_, .quiet rfl rfl rfl rfl⟩
    · exact ⟨_, .quiet rfl rfl rfl rfl⟩
  · exact ⟨_, .quiet rfl rfl rfl rfl⟩
  · simp only [callStep, hgate]
    exact ⟨_, .quiet rfl rfl rfl rfl⟩
  · cases hpassed
  · cases hpassed
  · cases hpassed
  · rcases hdone : (setFatalStep s.flags fatal).2 with - | next
    · rcases after with - | result
      · simp only [callStep, hdone]
        exact ⟨_, .returned rfl rfl rfl (by decide)⟩
      · simp only [callStep, hdone]
        exact ⟨_, .quiet rfl rfl rfl rfl⟩
    · simp only [callStep, hdone]
      exact ⟨_, .quiet rfl rfl rfl rfl⟩
  · rw [callStep]
    split_ifs
    · exact ⟨_, .quiet rfl rfl rfl rfl⟩
    · exact ⟨_, .quiet rfl rfl rfl (decide_eq_false result.2)⟩
  · exact ⟨_, .quiet rfl rfl rfl (decide_eq_false result.2)⟩
  · exact ⟨_, .returned rfl rfl rfl (of_decide_eq_false hpassed)⟩

end Step

/-! ## What every run keeps -/

/-- The order in which the parts of the engine come to rest. -/
structure Closing (s : State cfg threads stops) (log : List (Event cfg threads)) : Prop where
  started : ∀ thread, s.stops thread ≠ none → ∃ success, s.start = .returned success
  closed : ∀ thread, ∀ now ∈ s.stops thread, now ≠ .closing → s.flags.accepting = false
  passed : ∀ thread, ∀ now ∈ s.stops thread, now.waited = true →
    ∀ t, ∀ ongoing ∈ s.admits t, ongoing.2.passed = false
  running : s.flags.running = false → ∃ thread, s.stops thread = some .stopped
  told : ∀ lane, (s.workers lane).told = true → s.flags.running = false
  drained : ∀ lane, (s.workers lane).drained = true → (s.lanes lane).ready.contents = []
  exited : ∀ lane, s.workers lane = .exited → ∃ before after,
    log = before ++ .exited lane :: after ∧ publishedOn lane before = consumedOn lane before ∧
      ∀ event ∈ after, event.late lane = false

section Kept

variable {s s' : State cfg threads stops} {log new : List (Event cfg threads)}
  {thread : Fin threads} {call : AdmitCall} {stage : AdmitStage cfg}

/-- Once `running_` is clear, the gate is closed and no call is past it. -/
theorem Closing.shut (h : Closing s log) (hrunning : s.flags.running = false) :
    s.flags.accepting = false ∧ ∀ t, ∀ ongoing ∈ s.admits t, ongoing.2.passed = false := by
  obtain ⟨thread, hstopped⟩ := h.running hrunning
  exact ⟨h.closed thread .stopped hstopped (by decide), h.passed thread .stopped hstopped rfl⟩

/-- What happens late is not in what a step reports. -/
theorem Closing.append (h : Closing s log) {lane : Lane cfg} (hworker : s.workers lane = .exited)
    (hlate : ∀ event ∈ new, event.late lane = false) : ∃ before after,
    log ++ new = before ++ .exited lane :: after ∧
      publishedOn lane before = consumedOn lane before ∧
      ∀ event ∈ after, event.late lane = false := by
  obtain ⟨before, after, rfl, hall, hafter⟩ := h.exited lane hworker
  refine ⟨before, after ++ new, by simp, hall, fun event hevent => ?_⟩
  exact (List.mem_append.1 hevent).elim (hafter event) (hlate event)

/-- A step of a call. -/
theorem Closing.resume (h : Closing s log) (hongoing : s.admits thread = some (call, stage)) :
    Closing (callStep s thread call stage).1 (log ++ (callStep s thread call stage).2) := by
  obtain ⟨hstart, hstops, hrunning, haccepting⟩ := callStep_leaves s thread call stage
  have hworkers : (callStep s thread call stage).1.workers = s.workers :=
    (callStep_stepped s thread call stage).elim fun _ hstepped => hstepped.workers
  have hrefused : (∀ t, ∀ ongoing ∈ s.admits t, ongoing.2.passed = false) →
      s.flags.accepting = false → ∃ next, Refused thread s (callStep s thread call stage).1 call
        next (callStep s thread call stage).2 := fun hpassed hgate =>
    callStep_refused (hpassed thread _ hongoing) hgate thread call
  constructor
  · rw [hstops, hstart]
    exact h.started
  · rw [hstops]
    exact fun t now hnow hne => haccepting (h.closed t now hnow hne)
  · intro stopper now hnow hwaited t ongoing hmem
    rw [hstops] at hnow
    have hpassed := h.passed stopper now hnow hwaited
    have hne : now ≠ .closing := by
      rintro rfl
      cases hwaited
    obtain ⟨next, hnext⟩ := hrefused hpassed (h.closed stopper now hnow hne)
    rw [hnext.admits, Function.update_apply] at hmem
    split_ifs at hmem
    · obtain ⟨after, hafter, rfl⟩ := Option.map_eq_some_iff.1 hmem
      exact hnext.passed after hafter
    · exact hpassed t ongoing hmem
  · rw [hrunning, hstops]
    exact h.running
  · rw [hworkers, hrunning]
    exact h.told
  · intro lane hdrained
    rw [hworkers] at hdrained
    obtain ⟨hgate, hpassed⟩ := h.shut (h.told lane (WorkerStage.told_of_drained hdrained))
    obtain ⟨next, hnext⟩ := hrefused hpassed hgate
    rw [hnext.lanes]
    exact h.drained lane hdrained
  · intro lane hworker
    rw [hworkers] at hworker
    obtain ⟨hgate, hpassed⟩ := h.shut (h.told lane (hworker ▸ rfl))
    obtain ⟨next, hnext⟩ := hrefused hpassed hgate
    exact h.append hworker (hnext.late lane)

/-- A step that is neither of a call nor of a worker. -/
theorem Closing.beside (h : Closing s log)
    (hsame : s'.lanes = s.lanes ∧ s'.workers = s.workers ∧ s'.admits = s.admits)
    (hstarted : ∀ thread, s'.stops thread ≠ none → ∃ success, s'.start = .returned success)
    (hclosed : ∀ thread, ∀ now ∈ s'.stops thread, now ≠ .closing → s'.flags.accepting = false)
    (hpassed : ∀ thread, ∀ now ∈ s'.stops thread, now.waited = true →
      ∀ t, ∀ ongoing ∈ s.admits t, ongoing.2.passed = false)
    (hrunning : s'.flags.running = false → ∃ thread, s'.stops thread = some .stopped)
    (htold : s.flags.running = false → s'.flags.running = false) : Closing s' (log ++ []) := by
  obtain ⟨hlanes, hworkers, hadmits⟩ := hsame
  rw [List.append_nil]
  constructor
  · exact hstarted
  · exact hclosed
  · rw [hadmits]
    exact hpassed
  · exact hrunning
  · rw [hworkers]
    exact fun lane hlane => htold (h.told lane hlane)
  · rw [hworkers, hlanes]
    exact h.drained
  · rw [hworkers]
    exact h.exited

/-- Nobody stops the engine before `Start` has returned. -/
theorem Closing.start (h : Closing s log) (hstart : startStep s = some s') :
    Closing s' (log ++ []) := by
  have hstops : ∀ thread, s.stops thread = none := fun thread => by
    by_contra hstop
    obtain ⟨success, hreturned⟩ := h.started thread hstop
    rw [startStep, hreturned] at hstart
    cases hstart
  have hsame := startStep_frame hstart
  have hframe : s'.stops = s.stops ∧ s'.flags.running = s.flags.running := by
    rw [startStep] at hstart
    split at hstart <;> simp only [Option.some.injEq, reduceCtorEq] at hstart <;> subst hstart <;>
      exact ⟨rfl, rfl⟩
  obtain ⟨hkept, hrunning⟩ := hframe
  refine h.beside hsame (fun thread hne => ?_) (fun thread now hnow => ?_)
    (fun thread now hnow => ?_) (fun hclear => ?_) fun hclear => ?_
  · exact absurd (hstops thread) (hkept ▸ hne)
  · rw [hkept, hstops] at hnow
    cases hnow
  · rw [hkept, hstops] at hnow
    cases hnow
  · rw [hkept]
    exact h.running (hrunning ▸ hclear)
  · rw [hrunning, hclear]

/-- A call of `Stop` begins. -/
theorem Closing.callStop (h : Closing s log) {stopper : Fin stops} {success : Bool}
    (hstart : s.start = .returned success) (hidle : s.stops stopper = none) :
    Closing { s with stops := Function.update s.stops stopper (some .closing) } (log ++ []) := by
  have hold : ∀ {thread now}, now ∈ Function.update s.stops stopper (some .closing) thread →
      now ≠ .closing → now ∈ s.stops thread := fun {thread now} hnow hne => by
    rw [Function.update_apply] at hnow
    split_ifs at hnow
    · exact absurd (Option.mem_some_iff.1 hnow).symm hne
    · exact hnow
  refine h.beside ⟨rfl, rfl, rfl⟩ (fun _ _ => ⟨success, hstart⟩)
    (fun thread now hnow hne => h.closed thread now (hold hnow hne) hne)
    (fun thread now hnow hwaited => ?_) (fun hclear => ?_) id
  · refine h.passed thread now (hold hnow ?_) hwaited
    rintro rfl
    cases hwaited
  · obtain ⟨thread, hstopped⟩ := h.running hclear
    refine ⟨thread, (Function.update_of_ne ?_ _ _).trans hstopped⟩
    rintro rfl
    rw [hidle] at hstopped
    cases hstopped

/-- A step of a call of `Stop`. -/
theorem Closing.stop (h : Closing s log) (hcalls : CallsKept s log) {stopper : Fin stops}
    {now : StopStage} (hnow : s.stops stopper = some now)
    (hstop : stopStep s stopper now = some s') : Closing s' (log ++ []) := by
  obtain ⟨success, hstart⟩ := h.started stopper (by simp [hnow])
  have hold : ∀ {next thread now'}, now' ∈ Function.update s.stops stopper (some next) thread →
      now' = next ∨ now' ∈ s.stops thread := fun {next thread now'} hmem => by
    rw [Function.update_apply] at hmem
    split_ifs at hmem
    · exact Or.inl (Option.mem_some_iff.1 hmem).symm
    · exact Or.inr hmem
  have hstopped : now ≠ .stopped → ∀ next, s.flags.running = false →
      ∃ thread, Function.update s.stops stopper (some next) thread = some .stopped :=
    fun hne next hclear => by
      obtain ⟨thread, hthread⟩ := h.running hclear
      refine ⟨thread, (Function.update_of_ne ?_ _ _).trans hthread⟩
      rintro rfl
      exact hne (Option.some.inj (hnow.symm.trans hthread))
  rcases now with - | - | - | -
  · obtain rfl := Option.some.inj hstop
    refine h.beside ⟨rfl, rfl, rfl⟩ (fun _ _ => ⟨success, hstart⟩) (fun _ _ _ _ => rfl)
      (fun thread now hmem hwaited => ?_) (hstopped (by simp) _) id
    rcases hold hmem with rfl | hmem
    · cases hwaited
    · exact h.passed thread now hmem hwaited
  · obtain rfl := Option.some.inj hstop
    have hgate := h.closed stopper .waiting hnow (by decide)
    refine h.beside ⟨rfl, rfl, rfl⟩ (fun _ _ => ⟨success, hstart⟩) (fun _ _ _ _ => hgate)
      (fun thread now hmem hwaited => ?_) (hstopped (by simp) _) id
    rcases hold hmem with rfl | hmem
    · -- A call past the gate would be past `callback_active_`.
      have hinactive : s.flags.callbackActive = false := by
        by_contra hactive
        rw [Bool.eq_true_of_not_eq_false hactive] at hwaited
        cases hwaited
      intro t ongoing hongoing
      by_contra hpassed
      have hguards : s.guards t = true := by
        rw [State.guards, hongoing]
        exact AdmitStage.guarded_of_passed (Bool.eq_true_of_not_eq_false hpassed)
      exact absurd (hcalls.active t hguards) (by simp [hinactive])
    · exact h.passed thread now hmem hwaited
  · obtain rfl := Option.some.inj hstop
    have hgate := h.closed stopper .stopping hnow (by decide)
    have hpassed := h.passed stopper .stopping hnow rfl
    refine h.beside ⟨rfl, rfl, rfl⟩ (fun _ _ => ⟨success, hstart⟩) (fun _ _ _ _ => hgate)
      (fun _ _ _ _ => hpassed) (fun _ => ⟨stopper, Function.update_self _ _ _⟩) fun _ => rfl
  · cases hstop

/-- A step of a worker. -/
theorem Closing.worked (h : Closing s log) {lane : Lane cfg} {storage : LaneStorage lane.ring}
    {worker : WorkerStage} (hlanes : s'.lanes = Function.update s.lanes lane storage)
    (hworkers : s'.workers = Function.update s.workers lane worker) (hstart : s'.start = s.start)
    (hstops : s'.stops = s.stops) (hadmits : s'.admits = s.admits) (hflags : s'.flags = s.flags)
    (hlate : ∀ other ≠ lane, ∀ event ∈ new, event.late other = false)
    (htold : worker.told = true → s.flags.running = false)
    (hdrained : worker.drained = true → storage.ready.contents = [])
    (hexited : worker = .exited → ∃ before after, log ++ new = before ++ .exited lane :: after ∧
      publishedOn lane before = consumedOn lane before ∧
        ∀ event ∈ after, event.late lane = false) : Closing s' (log ++ new) := by
  constructor
  · rw [hstops, hstart]
    exact h.started
  · rw [hstops, hflags]
    exact h.closed
  · rw [hstops, hadmits]
    exact h.passed
  · rw [hstops, hflags]
    exact h.running
  · intro other
    rw [hworkers, hflags, Function.update_apply]
    split_ifs
    · exact htold
    · exact h.told other
  · intro other
    rw [hworkers, hlanes]
    by_cases hsame : other = lane
    · subst hsame
      rw [Function.update_self, Function.update_self]
      exact hdrained
    · rw [Function.update_of_ne hsame, Function.update_of_ne hsame]
      exact h.drained other
  · intro other
    rw [hworkers]
    by_cases hsame : other = lane
    · subst hsame
      rw [Function.update_self]
      exact hexited
    · rw [Function.update_of_ne hsame]
      exact fun hworker => h.append hworker (hlate other hsame)

theorem Closing.work (h : Closing s log) (hslots : SlotsKept s log) {lane : Lane cfg}
    (hwork : workStep s lane = some (s', new)) : Closing s' (log ++ new) := by
  have hself := (Function.update_eq_self lane s.lanes).symm
  have hnil : ∀ other ≠ lane, ∀ event ∈ ([] : List (Event cfg threads)),
      event.late other = false := fun _ _ _ hevent => absurd hevent List.not_mem_nil
  rw [workStep] at hwork
  dsimp only at hwork
  split at hwork
  · obtain ⟨rfl, rfl⟩ := Prod.mk.inj (Option.some.inj hwork)
    have hbusy : ∀ popped : Option ℕ,
        (popped.elim .missed .popped : WorkerStage).told = false := by
      rintro (- | index) <;> rfl
    refine h.worked rfl rfl rfl rfl rfl rfl hnil (fun htold => ?_) (fun hdrained => ?_)
      fun hexited => ?_
    · exact absurd htold (by simp [hbusy])
    · exact absurd (WorkerStage.told_of_drained hdrained) (by simp [hbusy])
    · exact absurd (congrArg WorkerStage.told hexited) (by rw [hbusy]; decide)
  · next index hworker =>
    obtain ⟨rfl, rfl⟩ := Prod.mk.inj (Option.some.inj hwork)
    refine h.worked hself rfl rfl rfl rfl rfl (fun other hne event hevent => ?_) (by rintro ⟨⟩)
      (by rintro ⟨⟩) (by rintro ⟨⟩)
    obtain rfl := List.mem_singleton.1 hevent
    exact decide_eq_false hne.symm
  · obtain ⟨rfl, rfl⟩ := Prod.mk.inj (Option.some.inj hwork)
    refine h.worked rfl rfl rfl rfl rfl rfl (fun other hne event hevent => ?_) (by rintro ⟨⟩)
      (by rintro ⟨⟩) (by rintro ⟨⟩)
    obtain rfl := List.mem_singleton.1 hevent
    rfl
  · obtain ⟨rfl, rfl⟩ := Prod.mk.inj (Option.some.inj hwork)
    rcases hrunning : s.flags.running with - | -
    · exact h.worked hself rfl rfl rfl rfl rfl hnil (fun _ => hrunning) (by rintro ⟨⟩)
        (by rintro ⟨⟩)
    · exact h.worked hself rfl rfl rfl rfl rfl hnil (by rintro ⟨⟩) (by rintro ⟨⟩)
        (by rintro ⟨⟩)
  · next hworker =>
    obtain ⟨rfl, rfl⟩ := Prod.mk.inj (Option.some.inj hwork)
    have hrunning := h.told lane (hworker ▸ rfl)
    rcases hempty : (s.lanes lane).empty with - | -
    · exact h.worked hself rfl rfl rfl rfl rfl hnil (by rintro ⟨⟩) (by rintro ⟨⟩)
        (by rintro ⟨⟩)
    · exact h.worked hself rfl rfl rfl rfl rfl hnil (fun _ => hrunning)
        (fun _ => SpscRing.empty_iff.1 hempty) (by rintro ⟨⟩)
  · next hworker =>
    obtain ⟨rfl, rfl⟩ := Prod.mk.inj (Option.some.inj hwork)
    refine h.worked hself rfl rfl rfl rfl rfl (fun other _ event hevent => ?_)
      (fun _ => h.told lane (hworker ▸ rfl)) (fun _ => h.drained lane (hworker ▸ rfl)) fun _ => ?_
    · obtain rfl := List.mem_singleton.1 hevent
      rfl
    · refine ⟨log, [], rfl, ?_, by simp⟩
      obtain ⟨waiting, hpublished, hwaiting⟩ := (hslots.lanes lane).queue
      rw [h.drained lane (hworker ▸ rfl), hworker] at hwaiting
      obtain rfl := List.forall₂_nil_left_iff.1 hwaiting
      rw [hpublished, List.append_nil]
  · cases hwork

end Kept

theorem closing_step {s s' : State cfg threads stops} {log new : List (Event cfg threads)}
    {action : Action cfg threads stops} (h : Closing s log) (hcalls : CallsKept s log)
    (hslots : SlotsKept s log) (hstep : step s action = some (s', new)) :
    Closing s' (log ++ new) := by
  rcases moves_of_step hstep with ⟨thread, call, hongoing⟩ | ⟨thread, call, stage, hongoing⟩ |
    ⟨s', hstart⟩ | ⟨thread, success, hstart, hidle⟩ | ⟨thread, stage, s', hstage, hstop⟩ |
    ⟨lane, s', new, hwork⟩ | ⟨lane, flags, stage, hfatal⟩
  · constructor
    · exact h.started
    · exact h.closed
    · intro stopper now hnow hwaited t ongoing hmem
      rw [State.setAdmit_admits, Function.update_apply] at hmem
      split_ifs at hmem
      · obtain rfl := Option.mem_some_iff.1 hmem
        rfl
      · exact h.passed stopper now hnow hwaited t ongoing hmem
    · exact h.running
    · exact h.told
    · exact h.drained
    · refine fun lane hworker => h.append hworker fun event hevent => ?_
      obtain rfl := List.mem_singleton.1 hevent
      rfl
  · exact h.resume hongoing
  · exact h.start hstart
  · exact h.callStop hstart hidle
  · exact h.stop hcalls hstage hstop
  · exact h.work hslots hwork
  · have hflags : flags.running = s.flags.running ∧
        (s.flags.accepting = false → flags.accepting = false) := by
      rcases hfatal with rfl | ⟨now, hnow⟩
      · exact ⟨rfl, id⟩
      · obtain ⟨rfl, -⟩ := Prod.mk.inj hnow
        exact ⟨setFatalStep_running _ _, fun hgate => setFatalStep_accepting hgate _⟩
    obtain ⟨hrunning, haccepting⟩ := hflags
    refine h.beside ⟨rfl, rfl, rfl⟩ h.started
      (fun t now hnow hne => haccepting (h.closed t now hnow hne)) h.passed
      (fun hclear => h.running (hrunning ▸ hclear)) fun hclear => hrunning.trans hclear

variable {memory : (lane : Lane cfg) → LaneStorage lane.ring}

theorem closing {s : State cfg threads stops} {log : List (Event cfg threads)}
    (h : (machine cfg threads stops memory).Reaches s log) :
    (CallsKept s log ∧ SlotsKept s log) ∧ Closing s log := by
  refine Machine.invariant (I := fun s log => (CallsKept s log ∧ SlotsKept s log) ∧ Closing s log)
    ⟨slotsKept Machine.Reaches.start, ?_⟩ (fun hkept hstep => ?_) h
  · constructor
    · exact fun thread hne => absurd rfl hne
    · exact fun thread now hnow => by cases hnow
    · exact fun thread now hnow => by cases hnow
    · rintro ⟨⟩
    · rintro lane ⟨⟩
    · rintro lane ⟨⟩
    · rintro lane ⟨⟩
  · obtain ⟨⟨hcalls, hslots⟩, hclosing⟩ := hkept
    exact ⟨⟨callsKept_step hcalls hstep, slotsKept_step hslots hcalls hstep⟩,
      closing_step hclosing hcalls hslots hstep⟩

/-- A step of a worker is one of its own. -/
theorem workStep_workers {s s' : State cfg threads stops} {new : List (Event cfg threads)}
    {lane : Lane cfg} (h : workStep s lane = some (s', new)) :
    s.workers lane ≠ .exited ∧ (∃ worker, s'.workers = Function.update s.workers lane worker) ∧
      ∀ other ≠ lane, ∀ event ∈ new, event.late other = false := by
  rw [workStep] at h
  dsimp only at h
  split at h
  case h_7 => cases h
  all_goals
    next hworker =>
    obtain ⟨rfl, rfl⟩ := Prod.mk.inj (Option.some.inj h)
    refine ⟨by simp [hworker], ⟨_, rfl⟩, fun other hne event hevent => ?_⟩
    first
      | exact absurd hevent List.not_mem_nil
      | obtain rfl := List.mem_singleton.1 hevent
        simp [Event.late, hne.symm]

/-- A worker that has exited stays there, and nothing late is reported. -/
theorem Closing.late {s s' : State cfg threads stops} {log new : List (Event cfg threads)}
    {lane : Lane cfg} {action : Action cfg threads stops} (h : Closing s log)
    (hworker : s.workers lane = .exited) (hstep : step s action = some (s', new)) :
    s'.workers lane = .exited ∧ ∀ event ∈ new, event.late lane = false := by
  obtain ⟨hgate, hpassed⟩ := h.shut (h.told lane (hworker ▸ rfl))
  rcases moves_of_step hstep with ⟨thread, call, hongoing⟩ | ⟨thread, call, stage, hongoing⟩ |
    ⟨s', hstart⟩ | ⟨thread, success, hstart, hidle⟩ | ⟨thread, stage, s', hstage, hstop⟩ |
    ⟨other, s', new, hwork⟩ | ⟨other, flags, stage, hfatal⟩
  · refine ⟨hworker, fun event hevent => ?_⟩
    obtain rfl := List.mem_singleton.1 hevent
    rfl
  · obtain ⟨next, hrefused⟩ := callStep_refused (hpassed thread _ hongoing) hgate thread call
    rw [hrefused.workers]
    exact ⟨hworker, hrefused.late lane⟩
  · rw [(startStep_frame hstart).2.1]
    exact ⟨hworker, by simp⟩
  · exact ⟨hworker, by simp⟩
  · rw [(stopStep_frame hstop).2.1]
    exact ⟨hworker, by simp⟩
  · obtain ⟨hbusy, ⟨worker, hworkers⟩, hlate⟩ := workStep_workers hwork
    have hne : lane ≠ other := by
      rintro rfl
      exact hbusy hworker
    rw [hworkers, Function.update_of_ne hne]
    exact ⟨hworker, hlate lane hne⟩
  · exact ⟨hworker, by simp⟩

theorem late_runFrom {s s' : State cfg threads stops} {log new : List (Event cfg threads)}
    {lane : Lane cfg} (h : (machine cfg threads stops memory).Reaches s log)
    (hworker : s.workers lane = .exited) {actions : List (Action cfg threads stops)}
    (hrun : (machine cfg threads stops memory).runFrom s actions = some (s', new)) :
    ∀ event ∈ new, event.late lane = false := by
  have hkept := Machine.invariant_runFrom (P := fun _ => True)
    (I := fun t more => (machine cfg threads stops memory).Reaches t (log ++ more) ∧
      t.workers lane = .exited ∧ ∀ event ∈ more, event.late lane = false)
    (fun {t more action t' next} _ hkept hstep => ?_) (fun _ _ => trivial)
    ⟨(List.append_nil log).symm ▸ h, hworker, fun _ hevent => absurd hevent List.not_mem_nil⟩ hrun
  · exact hkept.2.2
  · obtain ⟨hreaches, hthere, hmore⟩ := hkept
    obtain ⟨hstays, hnext⟩ := (closing hreaches).2.late hthere hstep
    refine ⟨?_, hstays, fun event hevent => ?_⟩
    · rw [← List.append_assoc]
      exact hreaches.runFrom (Machine.runFrom_one.2 hstep)
    · exact (List.mem_append.1 hevent).elim (hmore event) (hnext event)

/-- Where the worker of a lane has exited, its ready ring is empty, it consumed before it exited
all that was ever published for the lane, each message once, and no call of `Admit` is accepted
any more. -/
theorem stop_drains {s : State cfg threads stops} {log : List (Event cfg threads)}
    {lane : Lane cfg} (h : (machine cfg threads stops memory).Reaches s log)
    (hexited : s.workers lane = .exited) :
    (s.lanes lane).ready.contents = [] ∧
      ∃ before after, log = before ++ .exited lane :: after ∧
        publishedOn lane log = consumedOn lane before ∧ (consumedOn lane before).Nodup ∧
        consumedOn lane after = [] ∧ (∀ thread, .returned thread .kAccepted ∉ after) ∧
        ∀ actions s' new, (machine cfg threads stops memory).runFrom s actions = some (s', new) →
          (∀ thread, .returned thread .kAccepted ∉ new) ∧ publishedOn lane new = [] := by
  obtain ⟨⟨hcalls, hslots⟩, hclosing⟩ := closing h
  obtain ⟨before, after, rfl, hall, hafter⟩ := hclosing.exited lane hexited
  have haccepted : ∀ {events : List (Event cfg threads)},
      (∀ event ∈ events, event.late lane = false) → ∀ thread,
        .returned thread .kAccepted ∉ events := fun hlate thread hmem =>
    absurd (hlate _ hmem) (by simp [Event.late])
  have hpublished : publishedOn lane (before ++ .exited lane :: after) =
      consumedOn lane before := by
    rw [publishedOn_append, hall]
    exact (congrArg _ (publishedOn_of_late hafter)).trans (List.append_nil _)
  refine ⟨hclosing.drained lane (hexited ▸ rfl), before, after, rfl, hpublished, ?_,
    consumedOn_of_late hafter, haccepted hafter, fun actions s' new hrun => ?_⟩
  · rw [← hpublished]
    exact (hcalls.increasing lane).imp fun hlt heq => absurd (heq ▸ hlt) (lt_irrefl _)
  · have hlate := late_runFrom h hexited hrun
    exact ⟨haccepted hlate, publishedOn_of_late hlate⟩

/-! ### The engine is stopped while a message is admitted -/

/-- A call is past the gate when `Stop` closes it. `Stop` waits for the call, which publishes its
message, and the worker goes through the end of its loop. -/
def sampleShutdown : List (Action sampleConfig 1 1) :=
  [.start, .start, .call sampleThread sampleCall] ++ List.replicate 4 (.resume sampleThread) ++
    [.callStop sampleThread, .stop sampleThread] ++ List.replicate 77 (.resume sampleThread) ++
    List.replicate 3 (.work sampleLane) ++ [.stop sampleThread, .stop sampleThread] ++
    List.replicate 4 (.work sampleLane)

def shutdownLog : List (Event sampleConfig 1) :=
  [.called sampleThread sampleCall, .published sampleThread sampleLane sampleAdmitted,
    .returned sampleThread .kAccepted, .consumed sampleLane sampleAdmitted, .released sampleLane,
    .exited sampleLane]

theorem sampleShutdown_run :
    (((machine sampleConfig 1 1 sampleMemory).run sampleShutdown).map
      fun last => (last.1.workers sampleLane, last.2)) = some (.exited, shutdownLog) := by
  decide +kernel

theorem stop_drains_sample : ∃ s,
    (machine sampleConfig 1 1 sampleMemory).Reaches s shutdownLog ∧
      s.workers sampleLane = .exited ∧ (s.lanes sampleLane).ready.contents = [] ∧
      publishedOn sampleLane shutdownLog = [sampleAdmitted] := by
  obtain ⟨⟨s, log⟩, hrun, hlast⟩ := Option.map_eq_some_iff.1 sampleShutdown_run
  obtain ⟨hexited, rfl⟩ := Prod.mk.inj hlast
  exact ⟨s, ⟨_, hrun⟩, hexited, (stop_drains ⟨_, hrun⟩ hexited).1, by decide⟩

end Admission

end L2Flow
