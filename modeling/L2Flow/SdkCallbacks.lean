import L2Flow.Admission
import Mathlib.Algebra.BigOperators.Group.Finset.Basic

/-!
# The callbacks of the vendor's library

The library calls `OnMessage` on threads of its own, as many and as often as it likes, and
`QuiesceSdkCallbacks` must outlast them. A call counts itself in `active_callbacks_` before it
reads the gate. `QuiesceSdkCallbacks` closes the gate before it reads the count. So a call that
found the gate open is counted until it has left `AdmitMdlMessage`, and once the count is seen at
zero no call is inside, nor will any call, however late, go in (`quiesced_for_good`).

The count is a number here : it never exceeds the number of threads.
-/

namespace L2Flow

/-! ## Messages -/

/-- What a call into the library comes to. -/
inductive VendorCall (α : Type) where
  | returned (value : α)
  | thrown

/-- `MDLMessage`. `GetHead` and `GetBody` give a pointer, perhaps null, to the bytes. -/
structure MdlMessage where
  getHead : VendorCall (Option (List UInt8))
  getBody : VendorCall (Option (List UInt8))

/-- What `OnMessage` makes of a message. -/
inductive Examined where
  | admitMdlMessage (header body : List UInt8)
  | result (result : AdmissionResult)
  | thrown

/-- `OnMessage`, from the test of `message` to the call of `AdmitMdlMessage`. -/
def examine : Option MdlMessage → Examined
  | none => .result .kNullMessage
  | some message =>
    match message.getHead with
    | .thrown => .thrown
    | .returned none => .result .kHeaderTruncated
    | .returned (some vendorHead) =>
      let header := vendorHead.take kMdlHeaderBytes
      match parseMdlHeader header with
      | none => .result .kHeaderInvalid
      | some parsed =>
        if parsed.headSize ≠ kMdlHeaderBytes ∨ parsed.messageSize < kMdlHeaderBytes then
          .result .kHeaderInvalid
        else
          let bodySize := parsed.messageSize - kMdlHeaderBytes
          match message.getBody with
          | .thrown => .thrown
          | .returned body =>
            if bodySize ≠ 0 ∧ body = none then .result .kBodyTruncated
            else .admitMdlMessage header ((body.getD []).take bodySize)

/-! ## Threads -/

/-- What a thread of the library does next. -/
inductive OnMessageStage where
  | outside
  /-- The call is counted. -/
  | entered (message : Option MdlMessage)
  /-- The gate was open. -/
  | accepted (message : Option MdlMessage)
  /-- Inside `AdmitMdlMessage`. -/
  | admitting (header body : List UInt8)
  /-- An exception was caught. -/
  | failing
  | storing (result : AdmissionResult)
  /-- The guard is about to go. -/
  | leaving

/-- What `QuiesceSdkCallbacks` does next. -/
inductive QuiesceStage where
  | notCalled
  /-- The gate is closed, `Shutdown` has not returned. -/
  | shuttingDown
  | waiting
  | returned
  /-- `Shutdown` threw, and the process is gone. -/
  | terminated
  deriving DecidableEq

/-- The call is counted. -/
def OnMessageStage.active : OnMessageStage → Bool
  | .outside => false
  | _ => true

/-- The call has found the gate open, and `AdmitMdlMessage` has not returned to it. -/
def OnMessageStage.admitted : OnMessageStage → Bool
  | .accepted _ | .admitting _ _ => true
  | _ => false

def OnMessageStage.inside : OnMessageStage → Bool
  | .admitting _ _ => true
  | _ => false

theorem OnMessageStage.active_of_admitted {stage : OnMessageStage} (h : stage.admitted = true) :
    stage.active = true := by
  rcases stage with _ | _ | _ | _ | _ | _ | _
  all_goals first | rfl | cases h

theorem OnMessageStage.admitted_of_inside {stage : OnMessageStage} (h : stage.inside = true) :
    stage.admitted = true := by
  rcases stage with _ | _ | _ | _ | _ | _ | _
  all_goals first | rfl | cases h

namespace SdkCallbacks

variable {threads : ℕ}

/-- The members of `MdlMessageHandler`, and where its callers are. -/
structure State (threads : ℕ) where
  accepting : Bool := true
  activeCallbacks : ℕ := 0
  lastResult : AdmissionResult := .kAccepted
  failed : Bool := false
  stage : Fin threads → OnMessageStage := fun _ => .outside
  quiesce : QuiesceStage := .notCalled

inductive Action (threads : ℕ) where
  /-- The library calls `OnMessage`. -/
  | onMessage (thread : Fin threads) (message : Option MdlMessage)
  | step (thread : Fin threads)
  /-- `AdmitMdlMessage` returns, or throws. -/
  | admitted (thread : Fin threads) (outcome : VendorCall AdmissionResult)
  | quiesceSdkCallbacks
  /-- `IOManager::Shutdown` returns, or throws. -/
  | shutdown (outcome : VendorCall Unit)
  /-- The loop reads `active_callbacks_`. -/
  | observe

inductive Event (threads : ℕ) where
  | admitMdlMessage (thread : Fin threads) (header body : List UInt8)
  | quiesced

def State.go (s : State threads) (thread : Fin threads) (stage : OnMessageStage) :
    State threads :=
  { s with stage := Function.update s.stage thread stage }

/-- The next step of `OnMessage`. -/
def onMessageStep (engine : Bool) (s : State threads) (thread : Fin threads) :
    OnMessageStage → Option (State threads × List (Event threads))
  | .outside => none
  | .entered message =>
    if !s.accepting || !engine then some (s.go thread (.storing .kNotRunning), [])
    else some (s.go thread (.accepted message), [])
  | .accepted message =>
    match examine message with
    | .admitMdlMessage header body =>
      some (s.go thread (.admitting header body), [.admitMdlMessage thread header body])
    | .result result => some (s.go thread (.storing result), [])
    | .thrown => some (s.go thread .failing, [])
  | .admitting _ _ => none
  | .failing => some ({ s with failed := true }.go thread (.storing .kInternalFailure), [])
  | .storing result => some ({ s with lastResult := result }.go thread .leaving, [])
  | .leaving =>
    some ({ s with activeCallbacks := s.activeCallbacks - 1 }.go thread .outside, [])

/-- The next step of a thread. `engine` says that `engine_` is not null, `manager` that
`QuiesceSdkCallbacks` is given an `IOManager`. -/
def step (engine manager : Bool) (s : State threads) :
    Action threads → Option (State threads × List (Event threads))
  | .onMessage thread message =>
    if s.quiesce ≠ .terminated ∧ (s.stage thread).active = false then
      some ({ s with activeCallbacks := s.activeCallbacks + 1 }.go thread (.entered message), [])
    else none
  | .step thread =>
    if s.quiesce ≠ .terminated then onMessageStep engine s thread (s.stage thread) else none
  | .admitted thread outcome =>
    if s.quiesce ≠ .terminated ∧ (s.stage thread).inside then
      match outcome with
      | .returned result => some (s.go thread (.storing result), [])
      | .thrown => some (s.go thread .failing, [])
    else none
  | .quiesceSdkCallbacks =>
    if s.quiesce = .notCalled then
      some ({ s with accepting := false, quiesce := .shuttingDown }, [])
    else none
  | .shutdown outcome =>
    if s.quiesce = .shuttingDown then
      -- without a manager there is nothing to shut down, and nothing throws
      match outcome with
      | .returned _ => some ({ s with quiesce := .waiting }, [])
      | .thrown => if manager then some ({ s with quiesce := .terminated }, []) else none
    else none
  | .observe =>
    if s.quiesce = .waiting then
      if s.activeCallbacks ≠ 0 then some (s, [])
      else some ({ s with quiesce := .returned }, [.quiesced])
    else none

/-- The handler as constructed, and its callers. -/
def machine (threads : ℕ) (engine manager : Bool) :
    Machine (State threads) (Action threads) (Event threads) where
  start := {}
  step := step engine manager

/-! ## What a step can do -/

/-- The steps, as far as the gate, the count and the stages are concerned. -/
inductive Moves (s : State threads) : State threads → List (Event threads) → Prop where
  /-- A call is counted. -/
  | enter {s' : State threads} {thread : Fin threads} {message : Option MdlMessage}
      (outside : (s.stage thread).active = false)
      (result : s' = { s with activeCallbacks := s.activeCallbacks + 1 }.go thread
        (.entered message)) :
      Moves s s' []
  /-- A call goes on. It goes towards `AdmitMdlMessage` only through the open gate. -/
  | goOn {s' : State threads} {thread : Fin threads} {stage : OnMessageStage}
      {lastResult : AdmissionResult} {failed : Bool} {new : List (Event threads)}
      (active : (s.stage thread).active = true) (stays : stage.active = true)
      (gate : stage.admitted = true → (s.stage thread).admitted = true ∨ s.accepting = true)
      (silent : (s.stage thread).admitted = false → new = [])
      (result : s' = { s with lastResult := lastResult, failed := failed }.go thread stage) :
      Moves s s' new
  /-- The guard of a call goes. -/
  | leave {s' : State threads} {thread : Fin threads}
      (active : (s.stage thread).active = true)
      (result : s' = { s with activeCallbacks := s.activeCallbacks - 1 }.go thread .outside) :
      Moves s s' []
  /-- `StopAccepting`. -/
  | close {s' : State threads} (first : s.quiesce = .notCalled)
      (result : s' = { s with accepting := false, quiesce := .shuttingDown }) : Moves s s' []
  /-- `QuiesceSdkCallbacks` goes on, and does not return. -/
  | wait {s' : State threads} {quiesce : QuiesceStage} (called : s.quiesce ≠ .notCalled)
      (before : s.quiesce ≠ .returned) (after : quiesce ≠ .returned)
      (result : s' = { s with quiesce := quiesce }) : Moves s s' []
  | quiesced {s' : State threads} (called : s.quiesce ≠ .notCalled)
      (zero : s.activeCallbacks = 0) (result : s' = { s with quiesce := .returned }) :
      Moves s s' [.quiesced]

section Moves

variable {engine manager : Bool} {s s' : State threads} {new : List (Event threads)}

theorem onMessageStep_moves {thread : Fin threads} {stage : OnMessageStage}
    (hstage : s.stage thread = stage)
    (h : onMessageStep engine s thread stage = some (s', new)) : Moves s s' new := by
  have hactive : stage ≠ .outside → (s.stage thread).active = true := fun hne => by
    rw [hstage]
    rcases stage with _ | _ | _ | _ | _ | _ | _
    all_goals first | rfl | exact absurd rfl hne
  rcases stage with _ | message | message | ⟨header, body⟩ | _ | result | _
  · cases h
  · rw [onMessageStep] at h
    split_ifs at h with hclosed
    · obtain ⟨rfl, rfl⟩ := Prod.mk.inj (Option.some.inj h)
      exact .goOn (hactive (by simp)) rfl (by simp [OnMessageStage.admitted]) (fun _ => rfl) rfl
    · obtain ⟨rfl, rfl⟩ := Prod.mk.inj (Option.some.inj h)
      have haccepting : s.accepting = true := by
        by_contra hnot
        exact hclosed (by simp [hnot])
      exact .goOn (hactive (by simp)) rfl (fun _ => Or.inr haccepting) (fun _ => rfl) rfl
  · have hadmitted : (s.stage thread).admitted = true := by rw [hstage]; rfl
    rw [onMessageStep] at h
    split at h <;> obtain ⟨rfl, rfl⟩ := Prod.mk.inj (Option.some.inj h)
    · exact .goOn (hactive (by simp)) rfl (fun _ => Or.inl hadmitted) (by simp [hadmitted]) rfl
    · exact .goOn (hactive (by simp)) rfl (fun _ => Or.inl hadmitted) (fun _ => rfl) rfl
    · exact .goOn (hactive (by simp)) rfl (fun _ => Or.inl hadmitted) (fun _ => rfl) rfl
  · cases h
  · obtain ⟨rfl, rfl⟩ := Prod.mk.inj (Option.some.inj h)
    exact .goOn (hactive (by simp)) rfl (by simp [OnMessageStage.admitted]) (fun _ => rfl) rfl
  · obtain ⟨rfl, rfl⟩ := Prod.mk.inj (Option.some.inj h)
    exact .goOn (hactive (by simp)) rfl (by simp [OnMessageStage.admitted]) (fun _ => rfl) rfl
  · obtain ⟨rfl, rfl⟩ := Prod.mk.inj (Option.some.inj h)
    exact .leave (hactive (by simp)) rfl

theorem step_moves {action : Action threads} (h : step engine manager s action = some (s', new)) :
    Moves s s' new := by
  rcases action with ⟨thread, message⟩ | thread | ⟨thread, outcome⟩ | _ | outcome | _
  · rw [step] at h
    split_ifs at h with hopen
    obtain ⟨rfl, rfl⟩ := Prod.mk.inj (Option.some.inj h)
    exact .enter hopen.2 rfl
  · rw [step] at h
    split_ifs at h
    exact onMessageStep_moves rfl h
  · simp only [step] at h
    split_ifs at h with hopen
    have hadmitted := OnMessageStage.admitted_of_inside hopen.2
    have hactive := OnMessageStage.active_of_admitted hadmitted
    rcases outcome with result | _
    · obtain ⟨rfl, rfl⟩ := Prod.mk.inj (Option.some.inj h)
      exact .goOn hactive rfl (fun h => by cases h) (fun _ => rfl) rfl
    · obtain ⟨rfl, rfl⟩ := Prod.mk.inj (Option.some.inj h)
      exact .goOn hactive rfl (fun h => by cases h) (fun _ => rfl) rfl
  · rw [step] at h
    split_ifs at h with hfirst
    obtain ⟨rfl, rfl⟩ := Prod.mk.inj (Option.some.inj h)
    exact .close hfirst rfl
  · rcases outcome with _ | _
    · simp only [step] at h
      split_ifs at h with hshut
      obtain ⟨rfl, rfl⟩ := Prod.mk.inj (Option.some.inj h)
      exact .wait (by simp [hshut]) (by simp [hshut]) (by simp) rfl
    · simp only [step] at h
      split_ifs at h with hshut
      obtain ⟨rfl, rfl⟩ := Prod.mk.inj (Option.some.inj h)
      exact .wait (by simp [hshut]) (by simp [hshut]) (by simp) rfl
  · rw [step] at h
    split_ifs at h with hwait hcount
    · obtain ⟨rfl, rfl⟩ := Prod.mk.inj (Option.some.inj h)
      exact .wait (by simp [hwait]) (by simp [hwait]) (hwait ▸ by simp) rfl
    · obtain ⟨rfl, rfl⟩ := Prod.mk.inj (Option.some.inj h)
      exact .quiesced (by simp [hwait]) (not_not.1 hcount) rfl

end Moves

/-! ## The invariant -/

/-- The calls that are counted. -/
def active (s : State threads) : Finset (Fin threads) :=
  Finset.univ.filter fun thread => (s.stage thread).active

/-- The count is the number of calls, the gate is closed for good, and once
`QuiesceSdkCallbacks` has returned no call is beyond it. -/
structure Guarded (s : State threads) : Prop where
  count : s.activeCallbacks = (active s).card
  closed : s.quiesce ≠ .notCalled → s.accepting = false
  drained : s.quiesce = .returned → ∀ thread, (s.stage thread).admitted = false

theorem guarded_start : Guarded ({} : State threads) where
  count := by simp [active, OnMessageStage.active]
  closed h := absurd rfl h
  drained h := by cases h

theorem card_active_go (s : State threads) (thread : Fin threads) (stage : OnMessageStage) :
    (active (s.go thread stage)).card + (if (s.stage thread).active then 1 else 0) =
      (active s).card + if stage.active then 1 else 0 := by
  rw [active, active, Finset.card_filter, Finset.card_filter]
  exact Machine.sum_update (fun stage => if stage.active then 1 else 0) s.stage thread stage

/-- A thread that changes its stage without passing the gate leaves the others where they are. -/
theorem Guarded.drained_go {s : State threads} (hs : Guarded s) (hq : s.quiesce = .returned)
    {thread : Fin threads} {stage : OnMessageStage} (hstage : stage.admitted = false)
    (other : Fin threads) : ((s.go thread stage).stage other).admitted = false := by
  rcases eq_or_ne other thread with rfl | hne
  · simpa [State.go] using hstage
  · simpa [State.go, hne] using hs.drained hq other

theorem Moves.guarded {s s' : State threads} {new : List (Event threads)} (h : Moves s s' new)
    (hs : Guarded s) : Guarded s' := by
  rcases h with @⟨thread, message, outside, rfl⟩ |
    @⟨thread, stage, _, _, _, hactive, stays, gate, -, rfl⟩ |
    @⟨thread, hactive, rfl⟩ | ⟨first, rfl⟩ | ⟨called, before, after, rfl⟩ | ⟨called, zero, rfl⟩
  · refine ⟨?_, hs.closed, fun hq => hs.drained_go hq rfl⟩
    have hcard := card_active_go s thread (.entered message)
    rw [outside, if_neg Bool.false_ne_true, Nat.add_zero, ← hs.count] at hcard
    exact hcard.symm
  · refine ⟨?_, hs.closed, fun hq => hs.drained_go hq ?_⟩
    · have hcard := card_active_go s thread stage
      rw [hactive, stays, ← hs.count] at hcard
      exact (Nat.add_right_cancel hcard).symm
    · -- after the return the thread was not beyond the gate, and the gate is closed
      by_contra hadmitted
      rcases gate (eq_true_of_ne_false hadmitted) with hbefore | hopen
      · rw [hs.drained hq thread] at hbefore
        cases hbefore
      · rw [hs.closed (by simp [show s.quiesce = .returned from hq])] at hopen
        cases hopen
  · refine ⟨?_, hs.closed, fun hq => hs.drained_go hq rfl⟩
    have hcard := card_active_go s thread .outside
    rw [hactive, if_pos rfl, ← hs.count] at hcard
    show s.activeCallbacks - 1 = (active (s.go thread .outside)).card
    simp [OnMessageStage.active] at hcard
    omega
  · exact ⟨hs.count, fun _ => rfl, fun h => by cases h⟩
  · exact ⟨hs.count, fun _ => hs.closed called, fun h => absurd h after⟩
  · refine ⟨hs.count, fun _ => hs.closed called, fun _ thread => ?_⟩
    -- nobody is counted, and who is beyond the gate is
    by_contra hadmitted
    have hmem : thread ∈ active s := Finset.mem_filter.2
      ⟨Finset.mem_univ _, OnMessageStage.active_of_admitted (eq_true_of_ne_false hadmitted)⟩
    rw [Finset.card_eq_zero.1 (hs.count.symm.trans zero)] at hmem
    exact Finset.notMem_empty _ hmem

theorem guarded_of_reaches {engine manager : Bool} {s : State threads} {log : List (Event threads)}
    (h : (machine threads engine manager).Reaches s log) : Guarded s :=
  Machine.invariant (I := fun s _ => Guarded s) guarded_start
    (fun hs hstep => (step_moves hstep).guarded hs) h

/-! ## After the return -/

/-- A step after the return stays after it, and goes into no `AdmitMdlMessage`. -/
theorem Moves.after {s s' : State threads} {new : List (Event threads)} (h : Moves s s' new)
    (hs : Guarded s) (hq : s.quiesce = .returned) :
    s'.quiesce = .returned ∧ ∀ thread header body, .admitMdlMessage thread header body ∉ new := by
  rcases h with ⟨-, rfl⟩ | @⟨thread, stage, _, _, _, -, -, -, silent, rfl⟩ | ⟨-, rfl⟩ |
    ⟨first, -⟩ | ⟨-, before, -, -⟩ | ⟨-, -, rfl⟩
  · exact ⟨hq, by simp⟩
  · exact ⟨hq, by simp [silent (hs.drained hq thread)]⟩
  · exact ⟨hq, by simp⟩
  · rw [hq] at first
    cases first
  · exact absurd hq before
  · exact ⟨rfl, by simp⟩

/-- `QuiesceSdkCallbacks` has returned, and no call of the log went into `AdmitMdlMessage`. -/
structure Quiesced (s : State threads) (log : List (Event threads)) : Prop where
  guarded : Guarded s
  returned : s.quiesce = .returned
  none_in : ∀ thread header body, .admitMdlMessage thread header body ∉ log

theorem Quiesced.step {engine manager : Bool} {s s' : State threads}
    {log new : List (Event threads)} {action : Action threads} (hs : Quiesced s log)
    (h : SdkCallbacks.step engine manager s action = some (s', new)) :
    Quiesced s' (log ++ new) := by
  have hmoves := step_moves h
  obtain ⟨hreturned, hnew⟩ := hmoves.after hs.guarded hs.returned
  refine ⟨hmoves.guarded hs.guarded, hreturned, fun thread header body hmem => ?_⟩
  exact (List.mem_append.1 hmem).elim (hs.none_in thread header body) (hnew thread header body)

/-- Once `QuiesceSdkCallbacks` has returned, no call is inside `AdmitMdlMessage`, and none ever
goes in, whatever the library calls afterwards. -/
theorem quiesced_for_good {threads : ℕ} {engine manager : Bool} {s t : State threads}
    {log more : List (Event threads)} {actions : List (Action threads)}
    (h : (machine threads engine manager).Reaches s log) (hq : s.quiesce = .returned)
    (hrun : (machine threads engine manager).runFrom s actions = some (t, more)) :
    (∀ thread, (t.stage thread).inside = false) ∧
      ∀ thread header body, .admitMdlMessage thread header body ∉ more := by
  have hstart : Quiesced s [] := ⟨guarded_of_reaches h, hq, by simp⟩
  have hquiesced : Quiesced t ([] ++ more) :=
    Machine.invariant_runFrom (P := fun _ => True) (I := Quiesced) (fun _ hs => hs.step)
      (fun _ _ => trivial) hstart hrun
  refine ⟨fun thread => ?_, hquiesced.none_in⟩
  by_contra hinside
  have hadmitted := OnMessageStage.admitted_of_inside (eq_true_of_ne_false hinside)
  rw [hquiesced.guarded.drained hquiesced.returned thread] at hadmitted
  cases hadmitted

/-- A message of 23 bytes, all header. -/
def sampleMessage : MdlMessage where
  getHead := .returned (some ([23, 23, 0, 0, 0] ++ List.replicate 18 0))
  getBody := .returned none

/-- One call is inside when the gate closes, and `QuiesceSdkCallbacks` returns after it. -/
def sampleActions : List (Action 2) :=
  [.onMessage 0 (some sampleMessage), .step 0, .step 0, .quiesceSdkCallbacks,
    .shutdown (.returned ()), .observe, .admitted 0 (.returned .kAccepted), .step 0, .step 0,
    .observe]

theorem quiesced_sample : ∃ s log, (machine 2 true true).run sampleActions = some (s, log) ∧
    log = [.admitMdlMessage 0 ([23, 23, 0, 0, 0] ++ List.replicate 18 0) [], .quiesced] ∧
    ∀ actions t more, (machine 2 true true).runFrom s actions = some (t, more) →
      (∀ thread, (t.stage thread).inside = false) ∧
        ∀ thread header body, .admitMdlMessage thread header body ∉ more := by
  refine ⟨_, _, rfl, rfl, fun actions t more hrun => ?_⟩
  exact quiesced_for_good ⟨sampleActions, rfl⟩ rfl hrun

end SdkCallbacks

end L2Flow
