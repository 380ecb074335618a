import L2Flow.Admission
import Mathlib.Algebra.BigOperators.Fin

/-!
# The calls of `Admit`

Of all the threads that call `Admit`, at most one is past `callback_active_`
(`Locked.exclusive`). From that follow the numbers the messages get (`Numbered`), what the
counters count (`Counted`), and what each call has reported so far (`Reported`) : a call that
is accepted publishes one message, and a call that is rejected none.
-/

namespace L2Flow

namespace AdmitStage

variable {cfg : AdmissionConfig}

/-- The call has set `callback_active_` and not cleared it. -/
def guarded : AdmitStage cfg → Bool
  | .entering | .concurrent | .fatal _ none => false
  | _ => true

/-- The call is counted neither as admitted nor as rejected. -/
def uncounted : AdmitStage cfg → ℕ
  | .fatal _ none | .countingFull _ | .leaving _ => 0
  | _ => 1

/-- The call has published its message. -/
def published : AdmitStage cfg → Bool
  | .publishing _ .numbering | .publishing _ .counting => true
  | .leaving result => result = .kAccepted
  | _ => false

/-- The message is published, and its number not yet stored. -/
def unnumbered : AdmitStage cfg → ℕ
  | .publishing _ .numbering => 1
  | _ => 0

end AdmitStage

namespace Admission

variable {cfg : AdmissionConfig} {threads stops : ℕ}

/-! ## Updates -/

namespace State

variable (s : State cfg threads stops) (thread : Fin threads)
  (stage : Option (AdmitCall × AdmitStage cfg)) (lane : Lane cfg)

@[simp] theorem setAdmit_admits : (s.setAdmit thread stage).admits =
    Function.update s.admits thread stage :=
  rfl

@[simp] theorem setAdmit_lanes : (s.setAdmit thread stage).lanes = s.lanes :=
  rfl

@[simp] theorem setAdmit_workers : (s.setAdmit thread stage).workers = s.workers :=
  rfl

@[simp] theorem setAdmit_flags : (s.setAdmit thread stage).flags = s.flags :=
  rfl

@[simp] theorem setAdmit_nextIngressSequence :
    (s.setAdmit thread stage).nextIngressSequence = s.nextIngressSequence :=
  rfl

@[simp] theorem setLane_admits (storage : LaneStorage lane.ring) :
    (s.setLane lane storage).admits = s.admits :=
  rfl

end State

/-! ## What is reported -/

/-- The messages that were published, in order. -/
def publishedOf (log : List (Event cfg threads)) : List OwnedMessageView :=
  log.filterMap fun
    | .published _ _ message => some message
    | _ => none

/-- The events of one thread. -/
def threadLog (thread : Fin threads) (log : List (Event cfg threads)) :
    List (Event cfg threads) :=
  log.filter fun
    | .called thread' _ | .published thread' _ _ | .returned thread' _ => thread' = thread
    | _ => false

theorem publishedOf_append (log new : List (Event cfg threads)) :
    publishedOf (log ++ new) = publishedOf log ++ publishedOf new :=
  List.filterMap_append ..

theorem threadLog_append (thread : Fin threads) (log new : List (Event cfg threads)) :
    threadLog thread (log ++ new) = threadLog thread log ++ threadLog thread new :=
  List.filter_append ..

/-- The message is the one that `Admit` was called with, and goes to its lane. -/
structure FromCall (call : AdmitCall) (lane : Lane cfg) (message : OwnedMessageView) : Prop where
  check : checkCall cfg call = .publish message.header lane
  body : message.body = call.body
  receiveMonotonicNs : message.receiveMonotonicNs = call.receiveMonotonicNs
  fits : call.body.length ≤ lane.maximumBodyBytes

/-- What a call reports from beginning to end : an accepted call publishes one message, and a
rejected call none. -/
inductive Complete (thread : Fin threads) : List (Event cfg threads) → Prop where
  | rejected (call : AdmitCall) (result : AdmissionResult) (h : result ≠ .kAccepted) :
    Complete thread [.called thread call, .returned thread result]
  | accepted (call : AdmitCall) (lane : Lane cfg) (message : OwnedMessageView)
      (h : FromCall call lane message) :
    Complete thread [.called thread call, .published thread lane message,
      .returned thread .kAccepted]

/-- What a call has reported so far. -/
inductive Progress (thread : Fin threads) (call : AdmitCall) (stage : AdmitStage cfg) :
    List (Event cfg threads) → Prop where
  | before (h : stage.published = false) : Progress thread call stage [.called thread call]
  | after (h : stage.published = true) (lane : Lane cfg) (message : OwnedMessageView)
      (hcall : FromCall call lane message) :
    Progress thread call stage [.called thread call, .published thread lane message]

/-- The publication is of the call. -/
def Publishes (call : AdmitCall) (nextIngressSequence : ℕ) : AdmitStage cfg → Prop
  | .publishing publication stage =>
    FromCall call publication.lane (publication.message call) ∧
      (stage = .counting ∨ publication.ingressSequence = nextIngressSequence + 1)
  | _ => True

/-! ## The step of a call -/

/-- What a step of `Admit` does to the call, the lock, the counters and the numbers. -/
structure Stepped (s : State cfg threads stops) (thread : Fin threads) (call : AdmitCall)
    (stage : AdmitStage cfg) (s' : State cfg threads stops) (stage' : Option (AdmitStage cfg))
    (new : List (Event cfg threads)) : Prop where
  admits : s'.admits = Function.update s.admits thread (stage'.map (call, ·))
  workers : s'.workers = s.workers
  callbacks : s'.callbacks = s.callbacks
  counted : s'.admitted + s'.rejected + stage'.elim 0 (·.uncounted) =
    s.admitted + s.rejected + stage.uncounted
  lock : (stage'.any (·.guarded) = stage.guarded ∧
      s'.flags.callbackActive = s.flags.callbackActive) ∨
    (stage.guarded = false ∧ s.flags.callbackActive = false ∧ stage'.any (·.guarded) = true ∧
      s'.flags.callbackActive = true) ∨
    (stage.guarded = true ∧ stage'.any (·.guarded) = false ∧ s'.flags.callbackActive = false)
  numbered : Publishes call s.nextIngressSequence stage →
    s'.nextIngressSequence + stage'.elim 0 (·.unnumbered) =
      s.nextIngressSequence + stage.unnumbered + (publishedOf new).length
  publishes : Publishes call s.nextIngressSequence stage →
    (∀ next ∈ stage', Publishes call s'.nextIngressSequence next) ∧
      (publishedOf new = [] ∨ ∃ message, publishedOf new = [message] ∧
        message.ingressSequence = s.nextIngressSequence + 1 ∧ stage.guarded = true ∧
        stage.unnumbered = 0)
  guarded_next : s'.nextIngressSequence ≠ s.nextIngressSequence → stage.guarded = true
  progress : Publishes call s.nextIngressSequence stage → ∀ current,
    Progress thread call stage current →
      stage'.elim (Complete thread (current ++ new)) fun next =>
        Progress thread call next (current ++ new)
  own : threadLog thread new = new
  others : ∀ thread' ≠ thread, threadLog thread' new = []

section Step

variable {s s' : State cfg threads stops} {thread : Fin threads} {call : AdmitCall}
  {stage next : AdmitStage cfg}

theorem Progress.congr {current : List (Event cfg threads)}
    (h : Progress thread call stage current) (hpublished : next.published = stage.published) :
    Progress thread call next current := by
  rcases h with h | ⟨h, lane, message, hcall⟩
  · exact .before (hpublished.trans h)
  · exact .after (hpublished.trans h) lane message hcall

/-- A step that reports nothing, and neither takes nor drops the lock. -/
theorem Stepped.quiet (hadmits : s'.admits = Function.update s.admits thread (some (call, next)))
    (hworkers : s'.workers = s.workers) (hcallbacks : s'.callbacks = s.callbacks)
    (hcounted : s'.admitted + s'.rejected + next.uncounted =
      s.admitted + s.rejected + stage.uncounted)
    (hguarded : next.guarded = stage.guarded)
    (hactive : s'.flags.callbackActive = s.flags.callbackActive)
    (hnext : s'.nextIngressSequence = s.nextIngressSequence)
    (hunnumbered : next.unnumbered = stage.unnumbered)
    (hpublishes : Publishes call s.nextIngressSequence stage →
      Publishes call s.nextIngressSequence next)
    (hpublished : next.published = stage.published) :
    Stepped s thread call stage s' (some next) [] where
  admits := hadmits
  workers := hworkers
  callbacks := hcallbacks
  counted := hcounted
  lock := Or.inl ⟨hguarded, hactive⟩
  numbered := fun _ => by
    show s'.nextIngressSequence + next.unnumbered = _
    rw [hnext, hunnumbered]
    rfl
  publishes := fun h => ⟨fun stage' hstage' => by
    obtain rfl := Option.mem_some_iff.1 hstage'
    rw [hnext]
    exact hpublishes h, Or.inl rfl⟩
  guarded_next := fun h => absurd hnext h
  progress := fun _ current hcurrent => by
    show Progress thread call next (current ++ [])
    rw [List.append_nil]
    exact hcurrent.congr hpublished
  own := rfl
  others := fun _ _ => rfl

theorem setFatalStep_callbackActive (flags : EngineFlags) (stage : FatalStage) :
    (setFatalStep flags stage).1.callbackActive = flags.callbackActive := by
  rcases stage with - | - | -
  · rw [setFatalStep]
    split_ifs <;> rfl
  · rfl
  · rfl

/-- The push into the ready ring publishes the message. -/
theorem stepped_push (s : State cfg threads stops) (thread : Fin threads) (call : AdmitCall)
    (publication : Publication cfg) (index copied : ℕ)
    (storage : LaneStorage publication.lane.ring) :
    Stepped s thread call (.publishing publication (.copying index copied))
      ((s.setLane publication.lane storage).setAdmit thread
        (some (call, .publishing publication .numbering)))
      (some (.publishing publication .numbering))
      [.published thread publication.lane (publication.message call)] where
  admits := rfl
  workers := rfl
  callbacks := rfl
  counted := rfl
  lock := Or.inl ⟨rfl, rfl⟩
  numbered := fun _ => rfl
  publishes := by
    rintro ⟨hcall, hstage | hnumber⟩
    · cases hstage
    · refine ⟨fun next hnext => ?_, Or.inr ⟨_, rfl, hnumber, rfl, rfl⟩⟩
      obtain rfl := Option.mem_some_iff.1 hnext
      exact ⟨hcall, Or.inr hnumber⟩
  guarded_next := fun _ => rfl
  progress := by
    rintro ⟨hcall, -⟩ current hcurrent
    rcases hcurrent with - | ⟨h, -, -, -⟩
    · exact .after rfl publication.lane (publication.message call) hcall
    · cases h
  own := by simp [threadLog]
  others := fun thread' hne => by simp [threadLog, hne.symm]

/-- The steps of `TryPublish` and what follows it. -/
theorem publishStep_stepped (s : State cfg threads stops) (thread : Fin threads)
    (call : AdmitCall) (publication : Publication cfg) (stage : PublishStage) :
    ∃ next, Stepped s thread call (.publishing publication stage)
      (publishStep s thread call publication stage).1 next
      (publishStep s thread call publication stage).2 := by
  rcases stage with - | - | index | ⟨index, copied⟩ | - | -
  · rw [publishStep]
    rcases hdrained : (s.lanes publication.lane).drainOne.1 with - | -
    · exact ⟨_, .quiet rfl rfl rfl rfl rfl rfl rfl rfl (by simp [Publishes]) rfl⟩
    · exact ⟨_, .quiet rfl rfl rfl rfl rfl rfl rfl rfl (by simp [Publishes]) rfl⟩
  · rcases hfree : (s.lanes publication.lane).free with - | ⟨index, rest⟩
    · rw [publishStep, hfree]
      exact ⟨_, .quiet rfl rfl rfl rfl rfl rfl rfl rfl (fun _ => trivial) rfl⟩
    · rw [publishStep, hfree]
      exact ⟨_, .quiet rfl rfl rfl rfl rfl rfl rfl rfl (by simp [Publishes]) rfl⟩
  · rw [publishStep]
    exact ⟨_, .quiet rfl rfl rfl rfl rfl rfl rfl rfl (by simp [Publishes]) rfl⟩
  · rcases hoctet : call.body[copied]? with - | octet
    · rcases hpushed : ((s.lanes publication.lane).pushReady index).1 with - | -
      · rw [publishStep, hoctet]
        simp only [hpushed]
        exact ⟨_, .quiet rfl rfl rfl rfl rfl rfl rfl rfl (fun _ => trivial) rfl⟩
      · rw [publishStep, hoctet]
        simp only [hpushed]
        exact ⟨_, stepped_push s thread call publication index copied _⟩
    · rw [publishStep, hoctet]
      exact ⟨_, .quiet rfl rfl rfl rfl rfl rfl rfl rfl (by simp [Publishes]) rfl⟩
  · rw [publishStep]
    refine ⟨some (.publishing publication .counting), rfl, rfl, rfl, rfl, Or.inl ⟨rfl, rfl⟩, ?_,
      ?_, fun _ => rfl, ?_, rfl, fun _ _ => rfl⟩
    · rintro ⟨-, hstage | hnumber⟩
      · cases hstage
      · exact congrArg (· + 0) hnumber
    · rintro ⟨hcall, -⟩
      refine ⟨fun next hnext => ?_, Or.inl rfl⟩
      obtain rfl := Option.mem_some_iff.1 hnext
      exact ⟨hcall, Or.inl rfl⟩
    · intro _ current hcurrent
      show Progress thread call _ (current ++ [])
      rw [List.append_nil]
      exact hcurrent.congr rfl
  · rw [publishStep]
    refine ⟨_, .quiet rfl rfl rfl ?_ rfl rfl rfl rfl (fun _ => trivial) rfl⟩
    show s.admitted + 1 + s.rejected + 0 = s.admitted + s.rejected + 1
    omega

/-- A step of a call of `Admit`. -/
theorem callStep_stepped (s : State cfg threads stops) (thread : Fin threads) (call : AdmitCall)
    (stage : AdmitStage cfg) :
    ∃ next, Stepped s thread call stage (callStep s thread call stage).1 next
      (callStep s thread call stage).2 := by
  rcases stage with - | - | - | - | - | ⟨publication, stage⟩ | ⟨stage, after⟩ | result | result |
    result
  · rw [callStep]
    rcases hactive : s.flags.callbackActive with - | -
    · refine ⟨some .gate, rfl, rfl, rfl, rfl, Or.inr (Or.inl ⟨rfl, hactive, rfl, rfl⟩),
        fun _ => rfl, fun _ => ⟨?_, Or.inl rfl⟩, fun h => absurd rfl h, ?_, rfl,
        fun _ _ => rfl⟩
      · intro next hnext
        obtain rfl := Option.mem_some_iff.1 hnext
        trivial
      · intro _ current hcurrent
        show Progress thread call _ (current ++ [])
        rw [List.append_nil]
        exact hcurrent.congr rfl
    · exact ⟨_, .quiet rfl rfl rfl rfl rfl rfl rfl rfl (fun _ => trivial) rfl⟩
  · rw [callStep]
    refine ⟨_, .quiet rfl rfl rfl ?_ rfl rfl rfl rfl (fun _ => trivial) rfl⟩
    show s.admitted + (s.rejected + 1) + 0 = s.admitted + s.rejected + 1
    omega
  · rw [callStep]
    rcases s.flags.accepting with - | -
    · exact ⟨_, .quiet rfl rfl rfl rfl rfl rfl rfl rfl (fun _ => trivial) rfl⟩
    · exact ⟨_, .quiet rfl rfl rfl rfl rfl rfl rfl rfl (fun _ => trivial) rfl⟩
  · rw [callStep]
    rcases s.flags.running with - | -
    · exact ⟨_, .quiet rfl rfl rfl rfl rfl rfl rfl rfl (fun _ => trivial) rfl⟩
    · exact ⟨_, .quiet rfl rfl rfl rfl rfl rfl rfl rfl (fun _ => trivial) rfl⟩
  · rcases hhealthy : s.flags.healthy with - | -
    · simp only [callStep, hhealthy]
      exact ⟨_, .quiet rfl rfl rfl rfl rfl rfl rfl rfl (fun _ => trivial) rfl⟩
    · rcases hcheck : checkCall cfg call with result | - | ⟨header, lane⟩
      · simp only [callStep, hhealthy, hcheck]
        exact ⟨_, .quiet rfl rfl rfl rfl rfl rfl rfl rfl (fun _ => trivial) rfl⟩
      · simp only [callStep, hhealthy, hcheck]
        exact ⟨_, .quiet rfl rfl rfl rfl rfl rfl rfl rfl (fun _ => trivial) rfl⟩
      · simp only [callStep, hhealthy, hcheck, if_true]
        split_ifs with hlarge
        · exact ⟨_, .quiet rfl rfl rfl rfl rfl rfl rfl rfl (fun _ => trivial) rfl⟩
        · refine ⟨_, .quiet rfl rfl rfl rfl rfl rfl rfl rfl (fun _ => ?_) rfl⟩
          exact ⟨⟨hcheck, rfl, rfl, Nat.not_lt.1 (not_or.1 hlarge).1⟩, Or.inr rfl⟩
  · exact publishStep_stepped s thread call publication stage
  · have hactive := setFatalStep_callbackActive s.flags stage
    rcases hdone : (setFatalStep s.flags stage).2 with - | next
    · rcases after with - | result
      · simp only [callStep, hdone]
        refine ⟨none, rfl, rfl, rfl, rfl, Or.inl ⟨rfl, hactive⟩, fun _ => rfl,
          fun _ => ⟨by simp, Or.inl rfl⟩, fun h => absurd rfl h, ?_, by simp [threadLog], ?_⟩
        · intro _ current hcurrent
          rcases hcurrent with - | ⟨h, -, -, -⟩
          · exact .rejected call _ (by decide)
          · cases h
        · exact fun thread' hne => by simp [threadLog, hne.symm]
      · simp only [callStep, hdone]
        exact ⟨_, .quiet rfl rfl rfl rfl rfl hactive rfl rfl (fun _ => trivial) rfl⟩
    · simp only [callStep, hdone]
      refine ⟨_, .quiet rfl rfl rfl ?_ ?_ hactive rfl rfl (fun _ => trivial) rfl⟩
      · rcases after with - | - <;> rfl
      · rcases after with - | - <;> rfl
  · rw [callStep]
    have hcounted : s.admitted + (s.rejected + 1) + 0 = s.admitted + s.rejected + 1 := by omega
    split_ifs with hfull
    · exact ⟨_, .quiet rfl rfl rfl hcounted rfl rfl rfl rfl (fun _ => trivial) rfl⟩
    · exact ⟨_, .quiet rfl rfl rfl hcounted rfl rfl rfl rfl (fun _ => trivial)
        (decide_eq_false result.2)⟩
  · exact ⟨_, .quiet rfl rfl rfl rfl rfl rfl rfl rfl (fun _ => trivial)
      (decide_eq_false result.2)⟩
  · rw [callStep]
    refine ⟨none, rfl, rfl, rfl, rfl, Or.inr (Or.inr ⟨rfl, rfl, rfl⟩), fun _ => rfl,
      fun _ => ⟨by simp, Or.inl rfl⟩, fun h => absurd rfl h, ?_, by simp [threadLog], ?_⟩
    · intro _ current hcurrent
      rcases hcurrent with h | ⟨h, lane, message, hcall⟩
      · exact .rejected call result (of_decide_eq_false h)
      · obtain rfl := of_decide_eq_true h
        exact .accepted call lane message hcall
    · exact fun thread' hne => by simp [threadLog, hne.symm]

end Step

/-! ## What every run keeps -/

/-- The thread is past `callback_active_`. -/
def State.guards (s : State cfg threads stops) (thread : Fin threads) : Bool :=
  (s.admits thread).any (·.2.guarded)

/-- What a thread has reported of the call that it is in. -/
def Doing (thread : Fin threads) (ongoing : Option (AdmitCall × AdmitStage cfg))
    (current : List (Event cfg threads)) : Prop :=
  ongoing.elim (current = []) fun ongoing => Progress thread ongoing.1 ongoing.2 current

/-- The lock, the counters, the numbers and the reports of the calls. -/
structure CallsKept (s : State cfg threads stops) (log : List (Event cfg threads)) : Prop where
  exclusive : ∀ t u, s.guards t = true → s.guards u = true → t = u
  active : ∀ t, s.guards t = true → s.flags.callbackActive = true
  counted : s.callbacks =
    s.admitted + s.rejected + ∑ t, (s.admits t).elim 0 (·.2.uncounted)
  numbered : s.nextIngressSequence + ∑ t, (s.admits t).elim 0 (·.2.unnumbered) =
    (publishedOf log).length
  numbers : (publishedOf log).map (·.ingressSequence) = List.range' 1 (publishedOf log).length
  publishes : ∀ t, ∀ ongoing ∈ s.admits t, Publishes ongoing.1 s.nextIngressSequence ongoing.2
  reported : ∀ t, ∃ (done : List (List (Event cfg threads))) (current : List (Event cfg threads)),
    threadLog t log = done.flatten ++ current ∧ (∀ events ∈ done, Complete t events) ∧
      Doing t (s.admits t) current

theorem unnumbered_of_not_guarded {stage : AdmitStage cfg} (h : stage.guarded = false) :
    stage.unnumbered = 0 := by
  rcases stage with _ | _ | _ | _ | _ | _ | _ | _ | _ | _
  all_goals first | rfl | exact absurd h (by simp [AdmitStage.guarded])

theorem publishes_of_not_guarded {call : AdmitCall} {stage : AdmitStage cfg} {next : ℕ}
    (h : stage.guarded = false) : Publishes call next stage := by
  rcases stage with _ | _ | _ | _ | _ | _ | _ | _ | _ | _
  all_goals trivial

/-- The threads other than the one that holds the lock have nothing to number. -/
theorem CallsKept.unnumbered_eq {s : State cfg threads stops} {log : List (Event cfg threads)}
    (h : CallsKept s log) {thread : Fin threads} (hguards : s.guards thread = true) :
    ∑ t, (s.admits t).elim 0 (·.2.unnumbered) = (s.admits thread).elim 0 (·.2.unnumbered) := by
  refine Finset.sum_eq_single thread (fun t _ hne => ?_) fun h => absurd (Finset.mem_univ _) h
  have hfree : s.guards t = false := by
    rcases ht : s.guards t with - | -
    · rfl
    · exact absurd (h.exclusive t thread ht hguards) hne
  rw [State.guards] at hfree
  rcases hongoing : s.admits t with - | ongoing
  · rfl
  · rw [hongoing] at hfree
    exact unnumbered_of_not_guarded hfree

/-- A step that is not of `Admit`. -/
structure Aside (s s' : State cfg threads stops) (new : List (Event cfg threads)) : Prop where
  admits : s'.admits = s.admits
  active : s'.flags.callbackActive = s.flags.callbackActive
  callbacks : s'.callbacks = s.callbacks
  admitted : s'.admitted = s.admitted
  rejected : s'.rejected = s.rejected
  next : s'.nextIngressSequence = s.nextIngressSequence
  published : publishedOf new = []
  threads : ∀ t, threadLog t new = []

/-- What the other parts of the engine do changes nothing here. -/
theorem CallsKept.aside {s s' : State cfg threads stops} {log new : List (Event cfg threads)}
    (h : CallsKept s log) (haside : Aside s s' new) : CallsKept s' (log ++ new) := by
  obtain ⟨hadmits, hactive, hcallbacks, hadmitted, hrejected, hnext, hpublished, hthreads⟩ := haside
  have hguards : ∀ t, s'.guards t = s.guards t := fun t => by
    rw [State.guards, State.guards, hadmits]
  have hlog : publishedOf (log ++ new) = publishedOf log := by
    rw [publishedOf_append, hpublished, List.append_nil]
  constructor
  · intro t u ht hu
    exact h.exclusive t u (hguards t ▸ ht) (hguards u ▸ hu)
  · intro t ht
    rw [hactive]
    exact h.active t (hguards t ▸ ht)
  · rw [hcallbacks, hadmitted, hrejected, hadmits]
    exact h.counted
  · rw [hlog, hnext, hadmits]
    exact h.numbered
  · rw [hlog]
    exact h.numbers
  · rw [hadmits, hnext]
    exact h.publishes
  · intro t
    rw [threadLog_append, hthreads, List.append_nil, hadmits]
    exact h.reported t

section Kept

variable {s s' : State cfg threads stops} {log new : List (Event cfg threads)}
  {thread : Fin threads} {call : AdmitCall} {stage : AdmitStage cfg}
  {stage' : Option (AdmitStage cfg)}

theorem Stepped.guards (h : Stepped s thread call stage s' stage' new) (t : Fin threads) :
    s'.guards t = if t = thread then stage'.any (·.guarded) else s.guards t := by
  rw [State.guards, State.guards, h.admits, Function.update_apply]
  split_ifs with ht
  · rcases stage' with - | next <;> rfl
  · rfl

theorem CallsKept.stepped (h : CallsKept s log) (hongoing : s.admits thread = some (call, stage))
    (hstep : Stepped s thread call stage s' stage' new) : CallsKept s' (log ++ new) := by
  have hguard : s.guards thread = stage.guarded := by
    rw [State.guards, hongoing]
    rfl
  have hpublishes := h.publishes thread _ hongoing
  obtain ⟨hnextPublishes, hnew⟩ := hstep.publishes hpublishes
  constructor
  · intro t u ht hu
    rw [hstep.guards] at ht hu
    by_cases hentered : stage'.any (·.guarded) = true ∧ stage.guarded = false
    · -- The lock was free, and no other thread can be past it.
      have hfree : ∀ v, s.guards v = false := fun v => by
        rcases hv : s.guards v with - | -
        · rfl
        · rcases hstep.lock with ⟨hsame, -⟩ | ⟨-, hinactive, -⟩ | ⟨hheld, -⟩
          · rw [hsame] at hentered
            exact absurd hentered.1 (by simp [hentered.2])
          · exact absurd (h.active v hv) (by simp [hinactive])
          · exact absurd hheld (by simp [hentered.2])
      rw [hfree] at ht hu
      split_ifs at ht hu with htt huu
      exact htt.trans huu.symm
    · have hheld : stage'.any (·.guarded) = true → s.guards thread = true := fun hany => by
        rw [hguard]
        exact Bool.eq_true_of_not_eq_false fun hfree => hentered ⟨hany, hfree⟩
      have hbefore : ∀ v, (if v = thread then stage'.any (·.guarded) else s.guards v) = true →
          s.guards v = true := fun v hv => by
        split_ifs at hv with hvt
        · exact hvt ▸ hheld hv
        · exact hv
      exact h.exclusive t u (hbefore t ht) (hbefore u hu)
  · intro t ht
    rw [hstep.guards] at ht
    rcases hstep.lock with ⟨hsame, hactive⟩ | ⟨-, -, -, hactive⟩ | ⟨hheld, hleft, -⟩
    · rw [hactive]
      split_ifs at ht with htt
      · exact h.active thread (by rw [hguard, ← hsame, ht])
      · exact h.active t ht
    · exact hactive
    · split_ifs at ht with htt
      · exact absurd ht (by simp [hleft])
      · exact absurd (h.exclusive t thread ht (hguard.trans hheld)) htt
  · have hsum := Machine.sum_update (fun ongoing => ongoing.elim 0 (·.2.uncounted)) s.admits thread
      (stage'.map (call, ·))
    have helim : (stage'.map (call, ·)).elim 0 (·.2.uncounted) =
        stage'.elim 0 (·.uncounted) := by
      rcases stage' with - | next <;> rfl
    have hold := h.counted
    have hcounted := hstep.counted
    simp only [hongoing, Option.elim_some] at hsum
    rw [hstep.admits, hstep.callbacks]
    omega
  · have hsum := Machine.sum_update (fun ongoing => ongoing.elim 0 (·.2.unnumbered)) s.admits thread
      (stage'.map (call, ·))
    have helim : (stage'.map (call, ·)).elim 0 (·.2.unnumbered) =
        stage'.elim 0 (·.unnumbered) := by
      rcases stage' with - | next <;> rfl
    have hold := h.numbered
    have hnumbered := hstep.numbered hpublishes
    simp only [hongoing, Option.elim_some] at hsum
    rw [hstep.admits, publishedOf_append, List.length_append]
    omega
  · rw [publishedOf_append]
    rcases hnew with hnew | ⟨message, hnew, hnumber, hheld, hunnumbered⟩
    · rw [hnew, List.append_nil]
      exact h.numbers
    · have hold := h.numbered
      have hsum := h.unnumbered_eq (hguard.trans hheld)
      rw [hongoing, Option.elim_some] at hsum
      dsimp only at hsum
      have hlast : message.ingressSequence = 1 + (publishedOf log).length := by omega
      rw [hnew, List.map_append, h.numbers, List.length_append, List.length_singleton,
        List.range'_1_concat, ← hlast, List.map_singleton]
  · intro t ongoing hmem
    rw [hstep.admits] at hmem
    by_cases ht : t = thread
    · subst ht
      rw [Function.update_self] at hmem
      obtain ⟨next, hnext, rfl⟩ := Option.map_eq_some_iff.1 hmem
      exact hnextPublishes next hnext
    · rw [Function.update_of_ne ht] at hmem
      by_cases hsame : s'.nextIngressSequence = s.nextIngressSequence
      · rw [hsame]
        exact h.publishes t ongoing hmem
      · refine publishes_of_not_guarded ?_
        have hheld := hguard.trans (hstep.guarded_next hsame)
        by_contra hother
        refine ht (h.exclusive t thread ?_ hheld)
        rw [State.guards, hmem]
        exact Bool.eq_true_of_not_eq_false hother
  · intro t
    obtain ⟨done, current, hlog, hdone, hdoing⟩ := h.reported t
    rw [threadLog_append, hlog, hstep.admits]
    by_cases ht : t = thread
    · subst ht
      rw [hongoing] at hdoing
      have hprogress := hstep.progress hpublishes current hdoing
      rw [hstep.own, Function.update_self]
      rcases stage' with - | next
      · refine ⟨done ++ [current ++ new], [], by simp, fun events hevents => ?_, rfl⟩
        rcases List.mem_append.1 hevents with hevents | hevents
        · exact hdone events hevents
        · exact List.mem_singleton.1 hevents ▸ hprogress
      · exact ⟨done, current ++ new, List.append_assoc _ _ _, hdone, hprogress⟩
    · rw [hstep.others t ht, List.append_nil, Function.update_of_ne ht]
      exact ⟨done, current, rfl, hdone, hdoing⟩

/-- A call begins. -/
theorem CallsKept.called (h : CallsKept s log) (hongoing : s.admits thread = none)
    (call : AdmitCall) :
    CallsKept (({ s with callbacks := s.callbacks + 1 }).setAdmit thread (some (call, .entering)))
      (log ++ [.called thread call]) := by
  have hguards : ∀ t,
      (({ s with callbacks := s.callbacks + 1 }).setAdmit thread (some (call, .entering))).guards
        t = true → s.guards t = true := fun t ht => by
    rw [State.guards, State.setAdmit_admits, Function.update_apply] at ht
    split_ifs at ht
    · cases ht
    · exact ht
  have hpublished : publishedOf (log ++ [.called thread call]) = publishedOf log := by
    rw [publishedOf_append]
    exact List.append_nil _
  constructor
  · exact fun t u ht hu => h.exclusive t u (hguards t ht) (hguards u hu)
  · exact fun t ht => h.active t (hguards t ht)
  · have hsum := Machine.sum_update (fun ongoing => ongoing.elim 0 (·.2.uncounted)) s.admits thread
      (some (call, .entering))
    have hold := h.counted
    rw [hongoing, Option.elim_none, Option.elim_some] at hsum
    rw [State.setAdmit_admits]
    show s.callbacks + 1 = s.admitted + s.rejected + _
    rw [hold, Nat.add_assoc]
    exact congrArg _ hsum.symm
  · have hsum := Machine.sum_update (fun ongoing => ongoing.elim 0 (·.2.unnumbered)) s.admits thread
      (some (call, .entering))
    rw [hongoing, Option.elim_none, Option.elim_some] at hsum
    rw [hpublished, ← h.numbered, State.setAdmit_admits]
    exact congrArg (s.nextIngressSequence + ·) hsum
  · rw [hpublished]
    exact h.numbers
  · intro t ongoing hmem
    rw [State.setAdmit_admits, Function.update_apply] at hmem
    split_ifs at hmem
    · obtain rfl := Option.mem_some_iff.1 hmem
      trivial
    · exact h.publishes t ongoing hmem
  · intro t
    obtain ⟨done, current, hlog, hdone, hdoing⟩ := h.reported t
    rw [threadLog_append, hlog, State.setAdmit_admits, Function.update_apply]
    split_ifs with ht
    · subst ht
      rw [hongoing] at hdoing
      obtain rfl : current = [] := hdoing
      refine ⟨done, [.called t call], by simp [threadLog], hdone, ?_⟩
      exact Progress.before rfl
    · exact ⟨done, current, by simp [threadLog, Ne.symm ht], hdone, hdoing⟩

end Kept

/-! ## Runs -/

theorem aside_start {s s' : State cfg threads stops} (h : startStep s = some s') :
    Aside s s' [] := by
  rw [startStep] at h
  split at h <;> simp only [Option.some.injEq, reduceCtorEq] at h <;> subst h <;>
    exact ⟨rfl, rfl, rfl, rfl, rfl, rfl, rfl, fun _ => rfl⟩

theorem aside_stop {s s' : State cfg threads stops} {thread : Fin stops} {stage : StopStage}
    (h : stopStep s thread stage = some s') : Aside s s' [] := by
  rcases stage with - | - | - | - <;>
    simp only [stopStep, Option.some.injEq, reduceCtorEq] at h <;> subst h <;>
    exact ⟨rfl, rfl, rfl, rfl, rfl, rfl, rfl, fun _ => rfl⟩

theorem aside_work {s s' : State cfg threads stops} {lane : Lane cfg}
    {new : List (Event cfg threads)} (h : workStep s lane = some (s', new)) : Aside s s' new := by
  rw [workStep] at h
  dsimp only at h
  split at h <;> simp only [Option.some.injEq, Prod.mk.injEq, reduceCtorEq] at h <;>
    obtain ⟨rfl, rfl⟩ := h <;> exact ⟨rfl, rfl, rfl, rfl, rfl, rfl, rfl, fun _ => rfl⟩

/-- What can happen in a state, by who does it. -/
inductive Moves (s : State cfg threads stops) :
    State cfg threads stops → List (Event cfg threads) → Prop where
  | called (thread : Fin threads) (call : AdmitCall) (h : s.admits thread = none) :
    Moves s (({ s with callbacks := s.callbacks + 1 }).setAdmit thread (some (call, .entering)))
      [.called thread call]
  | resume (thread : Fin threads) (call : AdmitCall) (stage : AdmitStage cfg)
      (h : s.admits thread = some (call, stage)) :
    Moves s (callStep s thread call stage).1 (callStep s thread call stage).2
  | start (s' : State cfg threads stops) (h : startStep s = some s') : Moves s s' []
  | callStop (thread : Fin stops) (success : Bool) (h : s.start = .returned success)
      (hidle : s.stops thread = none) :
    Moves s { s with stops := Function.update s.stops thread (some .closing) } []
  | stop (thread : Fin stops) (stage : StopStage) (s' : State cfg threads stops)
      (hstage : s.stops thread = some stage) (h : stopStep s thread stage = some s') :
    Moves s s' []
  | work (lane : Lane cfg) (s' : State cfg threads stops) (new : List (Event cfg threads))
      (h : workStep s lane = some (s', new)) : Moves s s' new
  | fatal (lane : Lane cfg) (flags : EngineFlags) (stage : Option FatalStage)
      (h : flags = s.flags ∨ ∃ now, (flags, stage) = setFatalStep s.flags now) :
    Moves s { s with flags := flags, fatals := Function.update s.fatals lane stage } []

theorem moves_of_step {s s' : State cfg threads stops} {action : Action cfg threads stops}
    {new : List (Event cfg threads)} (h : step s action = some (s', new)) : Moves s s' new := by
  rcases action with - | ⟨thread, call⟩ | thread | thread | thread | lane | lane
  · obtain ⟨t, hstart, hout⟩ := Option.map_eq_some_iff.1 h
    obtain ⟨rfl, rfl⟩ := Prod.mk.inj hout
    exact .start t hstart
  · rw [step] at h
    split at h
    · next hongoing =>
      obtain ⟨rfl, rfl⟩ := Prod.mk.inj (Option.some.inj h)
      exact .called thread call hongoing
    · cases h
  · obtain ⟨⟨call, stage⟩, hongoing, hout⟩ := Option.map_eq_some_iff.1 h
    obtain ⟨rfl, rfl⟩ := Prod.mk.inj hout
    exact .resume thread call stage hongoing
  · rw [step] at h
    split at h
    · next success hstart hstop =>
      obtain ⟨rfl, rfl⟩ := Prod.mk.inj (Option.some.inj h)
      exact .callStop thread success hstart hstop
    · cases h
  · obtain ⟨stage, hstage, hbind⟩ := Option.bind_eq_some_iff.1 h
    obtain ⟨t, hstop, hout⟩ := Option.map_eq_some_iff.1 hbind
    obtain ⟨rfl, rfl⟩ := Prod.mk.inj hout
    exact .stop thread stage t hstage hstop
  · exact .work lane s' new h
  · rw [step] at h
    split at h
    · obtain ⟨rfl, rfl⟩ := Prod.mk.inj (Option.some.inj h)
      exact .fatal lane s.flags _ (Or.inl rfl)
    · next stage hstage =>
      obtain ⟨rfl, rfl⟩ := Prod.mk.inj (Option.some.inj h)
      exact .fatal lane _ _ (Or.inr ⟨stage, rfl⟩)

theorem callsKept_step {s s' : State cfg threads stops} {log new : List (Event cfg threads)}
    {action : Action cfg threads stops} (h : CallsKept s log)
    (hstep : step s action = some (s', new)) : CallsKept s' (log ++ new) := by
  rcases moves_of_step hstep with ⟨thread, call, hongoing⟩ | ⟨thread, call, stage, hongoing⟩ |
    ⟨s', hstart⟩ | ⟨thread, success, hstart, -⟩ | ⟨thread, stage, s', hstage, hstop⟩ |
    ⟨lane, s', new, hwork⟩ | ⟨lane, flags, stage, hfatal⟩
  · exact h.called hongoing call
  · obtain ⟨next, hstepped⟩ := callStep_stepped s thread call stage
    exact h.stepped hongoing hstepped
  · exact h.aside (aside_start hstart)
  · exact h.aside ⟨rfl, rfl, rfl, rfl, rfl, rfl, rfl, fun _ => rfl⟩
  · exact h.aside (aside_stop hstop)
  · exact h.aside (aside_work hwork)
  · have hactive : flags.callbackActive = s.flags.callbackActive := by
      rcases hfatal with rfl | ⟨now, hnow⟩
      · rfl
      · rw [← setFatalStep_callbackActive s.flags now, ← hnow]
    exact h.aside ⟨rfl, hactive, rfl, rfl, rfl, rfl, rfl, fun _ => rfl⟩

variable {memory : (lane : Lane cfg) → LaneStorage lane.ring}

theorem callsKept {s : State cfg threads stops} {log : List (Event cfg threads)}
    (h : (machine cfg threads stops memory).Reaches s log) : CallsKept s log := by
  refine Machine.invariant (I := CallsKept) ?_ (fun hkept hstep => callsKept_step hkept hstep) h
  constructor
  · exact fun t u ht => by cases ht
  · exact fun t ht => by cases ht
  · simp [machine]
  · simp [machine, publishedOf]
  · rfl
  · exact fun t ongoing hmem => by cases hmem
  · exact fun t => ⟨[], [], rfl, by simp, rfl⟩

end Admission

end L2Flow
