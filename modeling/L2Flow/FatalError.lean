import L2Flow.Admission

/-!
# The fatal error

`SetFatal`, `healthy` and `fatal_error`, called by any number of threads. The flags are those that
`setFatalStep` says, and between the second and the third the message is stored : the first caller
to set `fatal_claimed_` locks `fatal_mutex_`, assigns the message to `fatal_error_` and unlocks it,
before it clears `healthy_`. An assignment to a string is not atomic, so that `text` is `none` in
the middle of it.

Who is told that the engine is not healthy, finds the message of that caller from then on, and
nobody ever finds another, or half of one (`fatal_reported`).
-/

namespace L2Flow

namespace FatalError

/-- A call, by what it does next. -/
inductive Stage where
  /-- A step of `setFatalStep` is next. -/
  | setting (message : String) (now : FatalStage)
  /-- `fatal_mutex_` is locked next, by `SetFatal`. -/
  | locking (message : String)
  /-- The assignment begins next. -/
  | assigning (message : String)
  /-- The assignment ends next. -/
  | assigned (message : String)
  /-- `fatal_mutex_` is unlocked next, by `SetFatal`. -/
  | unlocking (message : String)
  /-- `healthy_` is read next. -/
  | asking
  /-- `fatal_mutex_` is locked next, by `fatal_error`. -/
  | acquiring
  /-- `fatal_error_` is copied next. -/
  | copying
  /-- `fatal_mutex_` is unlocked next, by `fatal_error`. -/
  | releasing (text : Option String)
  deriving DecidableEq

structure State (threads : ℕ) where
  flags : EngineFlags := {}
  holder : Option (Fin threads) := none
  text : Option String := some ""
  calls : Fin threads → Option Stage := fun _ => none

/-- What the calls report : that a message is the fatal one, that it could not be stored, and what
`healthy` and `fatal_error` return. -/
inductive Event (threads : ℕ) where
  | claimed (thread : Fin threads) (message : String)
  | lost (thread : Fin threads)
  | answered (thread : Fin threads) (healthy : Bool)
  | got (thread : Fin threads) (text : Option String)
  | threw (thread : Fin threads)
  deriving DecidableEq

inductive Action (threads : ℕ) where
  | setFatal (thread : Fin threads) (message : String)
  | healthy (thread : Fin threads)
  | fatalError (thread : Fin threads)
  | resume (thread : Fin threads)
  /-- The mutex cannot be locked, which throws. -/
  | fail (thread : Fin threads)
  deriving DecidableEq

variable {threads : ℕ}

def State.setCall (s : State threads) (thread : Fin threads) (stage : Option Stage) :
    State threads :=
  { s with calls := Function.update s.calls thread stage }

theorem State.setCall_self (s : State threads) (thread : Fin threads) (stage : Option Stage) :
    (s.setCall thread stage).calls thread = stage :=
  Function.update_self ..

theorem State.setCall_of_ne (s : State threads) {thread other : Fin threads} (h : other ≠ thread)
    (stage : Option Stage) : (s.setCall thread stage).calls other = s.calls other :=
  Function.update_of_ne h _ _

abbrev Outcome (threads : ℕ) :=
  State threads × List (Event threads)

/-- A step of a call. -/
def callStep (s : State threads) (thread : Fin threads) : Stage → Option (Outcome threads)
  | .setting message now =>
    let done := setFatalStep s.flags now
    let s := { s with flags := done.1 }
    match done.2 with
    | none => some (s.setCall thread none, [])
    | some .closing =>
      some (s.setCall thread (some (.setting message .closing)), [.claimed thread message])
    | some _ => some (s.setCall thread (some (.locking message)), [])
  | .locking message =>
    match s.holder with
    | none =>
      some (({ s with holder := some thread }).setCall thread (some (.assigning message)), [])
    | some _ => none
  | .assigning message =>
    some (({ s with text := none }).setCall thread (some (.assigned message)), [])
  | .assigned message =>
    some (({ s with text := some message }).setCall thread (some (.unlocking message)), [])
  | .unlocking message =>
    some (({ s with holder := none }).setCall thread (some (.setting message .reporting)), [])
  | .asking => some (s.setCall thread none, [.answered thread s.flags.healthy])
  | .acquiring =>
    match s.holder with
    | none => some (({ s with holder := some thread }).setCall thread (some .copying), [])
    | some _ => none
  | .copying => some (s.setCall thread (some (.releasing s.text)), [])
  | .releasing text => some (({ s with holder := none }).setCall thread none, [.got thread text])

/-- `SetFatal` catches what the lock throws, and goes on; `fatal_error` passes it on. -/
def failStep (s : State threads) (thread : Fin threads) : Stage → Option (Outcome threads)
  | .locking message =>
    some (s.setCall thread (some (.setting message .reporting)), [.lost thread])
  | .acquiring => some (s.setCall thread none, [.threw thread])
  | _ => none

/-- A thread makes one call after the other. -/
def begin (s : State threads) (thread : Fin threads) (stage : Stage) : Option (Outcome threads) :=
  match s.calls thread with
  | none => some (s.setCall thread (some stage), [])
  | some _ => none

def step (s : State threads) : Action threads → Option (Outcome threads)
  | .setFatal thread message => begin s thread (.setting message .claiming)
  | .healthy thread => begin s thread .asking
  | .fatalError thread => begin s thread .acquiring
  | .resume thread => (s.calls thread).bind (callStep s thread)
  | .fail thread => (s.calls thread).bind (failStep s thread)

def machine (threads : ℕ) : Machine (State threads) (Action threads) (Event threads) where
  start := {}
  step := step

/-! ## What every run keeps -/

/-- The messages that were the first to come. -/
def claimsOf (log : List (Event threads)) : List (Fin threads × String) :=
  log.filterMap fun
    | .claimed thread message => some (thread, message)
    | _ => none

theorem claimsOf_append (log new : List (Event threads)) :
    claimsOf (log ++ new) = claimsOf log ++ claimsOf new :=
  List.filterMap_append ..

/-- The message of a call that has set `fatal_claimed_`. -/
def Stage.claim : Stage → Option String
  | .setting _ .claiming => none
  | .setting message _ | .locking message | .assigning message | .assigned message
  | .unlocking message => some message
  | _ => none

/-- The call has locked `fatal_mutex_`. -/
def Stage.holds : Stage → Bool
  | .assigning _ | .assigned _ | .unlocking _ | .copying | .releasing _ => true
  | _ => false

/-- What `fatal_error_` is when the message is stored, or lost. -/
def Stored (message : String) (text : Option String) (log : List (Event threads)) : Prop :=
  text = some message ∨ (text = some "" ∧ ∃ thread, .lost thread ∈ log)

/-- What `fatal_error_` is, by the stage of the caller whose message it is to be. -/
def Stage.Shows (text : Option String) (log : List (Event threads)) : Stage → Prop
  | .assigned _ => text = none
  | .unlocking message => text = some message
  | .setting message .reporting => Stored message text log
  | _ => text = some ""

/-- How far the fatal message has come. -/
inductive Written (s : State threads) (log : List (Event threads)) : Prop where
  | unclaimed (claims : claimsOf log = []) (flag : s.flags.fatalClaimed = false)
      (up : s.flags.healthy = true) (text : s.text = some "")
      (free : ∀ thread, (s.calls thread).bind Stage.claim = none)
  | claimed (claimant : Fin threads) (message : String) (stage : Stage)
      (claims : claimsOf log = [(claimant, message)]) (flag : s.flags.fatalClaimed = true)
      (up : s.flags.healthy = true) (call : s.calls claimant = some stage)
      (claim : stage.claim = some message) (text : stage.Shows s.text log)
      (free : ∀ thread ≠ claimant, (s.calls thread).bind Stage.claim = none)
  | reported (claimant : Fin threads) (message : String)
      (claims : claimsOf log = [(claimant, message)]) (flag : s.flags.fatalClaimed = true)
      (down : s.flags.healthy = false) (text : Stored message s.text log)
      (free : ∀ thread, (s.calls thread).bind Stage.claim = none)

/-- What `fatal_error` may return : nothing, or the fatal message. -/
def Told (text : Option String) (log : List (Event threads)) : Prop :=
  text = some "" ∨ ∃ claimant message, .claimed claimant message ∈ log ∧ text = some message

structure Kept (s : State threads) (log : List (Event threads)) : Prop where
  mutex : ∀ thread, (s.calls thread).any Stage.holds = true ↔ s.holder = some thread
  written : Written s log
  copied : ∀ thread text, s.calls thread = some (.releasing text) → Told text log
  got : ∀ thread text, .got thread text ∈ log → Told text log
  answered : ∀ thread, .answered thread false ∈ log → s.flags.healthy = false

section Kept

variable {s s' : State threads} {log new : List (Event threads)} {thread : Fin threads}

theorem Told.append {text : Option String} (h : Told text log) (new : List (Event threads)) :
    Told text (log ++ new) :=
  h.imp_right fun ⟨claimant, message, hmem, heq⟩ =>
    ⟨claimant, message, List.mem_append_left _ hmem, heq⟩

theorem Stored.append {message : String} {text : Option String} (h : Stored message text log)
    (new : List (Event threads)) : Stored message text (log ++ new) :=
  h.imp_right fun ⟨heq, other, hmem⟩ => ⟨heq, other, List.mem_append_left _ hmem⟩

theorem Stage.Shows.append {text : Option String} {stage : Stage} (h : stage.Shows text log)
    (new : List (Event threads)) : stage.Shows text (log ++ new) := by
  cases stage with
  | setting message now =>
    cases now with
    | reporting => exact Stored.append h new
    | claiming => exact h
    | closing => exact h
  | _ => exact h

theorem mem_claimsOf {claimant : Fin threads} {message : String} :
    (claimant, message) ∈ claimsOf log ↔ .claimed claimant message ∈ log := by
  rw [claimsOf, List.mem_filterMap]
  constructor
  · rintro ⟨event, hmem, heq⟩
    cases event <;> cases heq
    exact hmem
  · exact fun hmem => ⟨_, hmem, rfl⟩

/-- Outside of an assignment `fatal_error_` is empty, or the fatal message. -/
theorem Written.told (h : Written s log)
    (hassigned : ∀ thread message, s.calls thread ≠ some (.assigned message)) :
    Told s.text log := by
  have hmem : ∀ {claimant message}, claimsOf log = [(claimant, message)] →
      .claimed claimant message ∈ log := fun hclaims =>
    mem_claimsOf.1 (by rw [hclaims]; exact List.mem_singleton_self _)
  have hstored : ∀ {claimant message}, claimsOf log = [(claimant, message)] →
      Stored message s.text log → Told s.text log := fun hclaims hstored =>
    hstored.elim (fun heq => Or.inr ⟨_, _, hmem hclaims, heq⟩) fun hlost => Or.inl hlost.1
  cases h with
  | unclaimed _ _ _ text => exact Or.inl text
  | reported claimant message claims _ _ text => exact hstored claims text
  | claimed claimant message stage claims _ _ call claim text =>
    cases stage with
    | assigned other => exact absurd call (hassigned claimant other)
    | unlocking other =>
      cases claim
      exact Or.inr ⟨claimant, _, hmem claims, text⟩
    | setting other now =>
      cases now with
      | reporting =>
        cases claim
        exact hstored claims text
      | closing => exact Or.inl text
      | claiming => cases claim
    | locking => exact Or.inl text
    | assigning => exact Or.inl text
    | _ => cases claim

/-- A step of a call whose message is not the fatal one. -/
theorem Written.beside (h : Written s log) {stage : Option Stage} (hflags : s'.flags = s.flags)
    (htext : s'.text = s.text) (hcalls : s'.calls = Function.update s.calls thread stage)
    (hbefore : (s.calls thread).bind Stage.claim = none) (hafter : stage.bind Stage.claim = none)
    (hnew : claimsOf new = []) : Written s' (log ++ new) := by
  have hclaims : claimsOf (log ++ new) = claimsOf log := by
    rw [claimsOf_append, hnew, List.append_nil]
  have hfree : ∀ other, (s.calls other).bind Stage.claim = none →
      (s'.calls other).bind Stage.claim = none := fun other hother => by
    rw [hcalls, Function.update_apply]
    split_ifs
    · exact hafter
    · exact hother
  cases h with
  | unclaimed claims flag up text free =>
    exact .unclaimed (hclaims.trans claims) (hflags ▸ flag) (hflags ▸ up) (htext.trans text)
      fun other => hfree other (free other)
  | reported claimant message claims flag down text free =>
    exact .reported claimant message (hclaims.trans claims) (hflags ▸ flag) (hflags ▸ down)
      (htext ▸ text.append new) fun other => hfree other (free other)
  | claimed claimant message now claims flag up call claim text free =>
    have hne : claimant ≠ thread := by
      rintro rfl
      rw [call, Option.bind_some, claim] at hbefore
      cases hbefore
    refine .claimed claimant message now (hclaims.trans claims) (hflags ▸ flag) (hflags ▸ up) ?_
      claim (htext ▸ text.append new) fun other hother => hfree other (free other hother)
    rw [hcalls, Function.update_of_ne hne, call]

/-- The call of the fatal message is the only one that has set `fatal_claimed_`. -/
theorem Written.claimant (h : Written s log) {stage : Stage} {message : String}
    (hcall : s.calls thread = some stage) (hclaim : stage.claim = some message) :
    claimsOf log = [(thread, message)] ∧ s.flags.fatalClaimed = true ∧ s.flags.healthy = true ∧
      stage.Shows s.text log ∧ ∀ other ≠ thread, (s.calls other).bind Stage.claim = none := by
  have hsome : (s.calls thread).bind Stage.claim = some message := by
    rw [hcall, Option.bind_some, hclaim]
  cases h with
  | unclaimed _ _ _ _ free => cases (free thread).symm.trans hsome
  | reported _ _ _ _ _ _ free => cases (free thread).symm.trans hsome
  | claimed claimant other now claims flag up call claim text free =>
    obtain rfl : thread = claimant := by
      by_contra hne
      cases (free thread hne).symm.trans hsome
    obtain rfl := Option.some.inj (call.symm.trans hcall)
    obtain rfl := Option.some.inj (claim.symm.trans hclaim)
    exact ⟨claims, flag, up, text, free⟩

/-- A step of the call of the fatal message, but for the last. -/
theorem Written.advance (h : Written s log) {stage next : Stage} {message : String}
    (hcall : s.calls thread = some stage) (hclaim : stage.claim = some message)
    (hnext : next.claim = some message) (hflag : s'.flags.fatalClaimed = s.flags.fatalClaimed)
    (hhealthy : s'.flags.healthy = s.flags.healthy)
    (hcalls : s'.calls = Function.update s.calls thread (some next))
    (hshows : stage.Shows s.text log → next.Shows s'.text (log ++ new))
    (hnew : claimsOf new = []) : Written s' (log ++ new) := by
  obtain ⟨claims, flag, up, text, free⟩ := h.claimant hcall hclaim
  refine .claimed thread message next ?_ (hflag.trans flag) (hhealthy.trans up) ?_ hnext
    (hshows text) fun other hne => ?_
  · rw [claimsOf_append, hnew, List.append_nil, claims]
  · rw [hcalls, Function.update_self]
  · rw [hcalls, Function.update_of_ne hne]
    exact free other hne

/-! ## Steps -/

/-- What a step of a call does to the mutex. -/
def Locks (s s' : State threads) (thread : Fin threads) (stage : Stage) (next : Option Stage) :
    Prop :=
  (next.any Stage.holds = stage.holds ∧ s'.holder = s.holder) ∨
    (s.holder = none ∧ next.any Stage.holds = true ∧ s'.holder = some thread) ∨
    (stage.holds = true ∧ next.any Stage.holds = false ∧ s'.holder = none)

/-- A step of a call. -/
structure Stepped (s : State threads) (thread : Fin threads) (stage : Stage) (s' : State threads)
    (next : Option Stage) (new : List (Event threads)) : Prop where
  calls : s'.calls = Function.update s.calls thread next
  locks : Locks s s' thread stage next
  written : ∀ log, s.calls thread = some stage → Written s log → Written s' (log ++ new)
  copied : ∀ text, next = some (.releasing text) → stage = .copying ∧ text = s.text
  got : ∀ other text, .got other text ∈ new → other = thread ∧ stage = .releasing text
  answered : ∀ other, .answered other false ∈ new → s.flags.healthy = false
  down : s.flags.healthy = false → s'.flags.healthy = false
  keeps : stage.claim = none → s.flags.fatalClaimed = true →
    s'.text = s.text ∧ claimsOf new = []

/-- A step that says nothing of the message, and takes no part in it. -/
theorem Stepped.beside {stage : Stage} {next : Option Stage}
    (hcalls : s'.calls = Function.update s.calls thread next)
    (hlocks : Locks s s' thread stage next)
    (hflags : s'.flags = s.flags) (htext : s'.text = s.text) (hbefore : stage.claim = none)
    (hafter : next.bind Stage.claim = none) (hnew : claimsOf new = [])
    (hcopied : ∀ text, next = some (.releasing text) → stage = .copying ∧ text = s.text)
    (hgot : ∀ other text, .got other text ∈ new → other = thread ∧ stage = .releasing text)
    (hanswered : ∀ other, .answered other false ∈ new → s.flags.healthy = false) :
    Stepped s thread stage s' next new where
  calls := hcalls
  locks := hlocks
  written := fun _ hcall h =>
    h.beside hflags htext hcalls (by rw [hcall, Option.bind_some, hbefore]) hafter hnew
  copied := hcopied
  got := hgot
  answered := hanswered
  down := fun hdown => by rw [hflags, hdown]
  keeps := fun _ _ => ⟨htext, hnew⟩

/-- A step of the call whose message is stored, but for the last. -/
theorem Stepped.advance {stage next : Stage} {message : String}
    (hcalls : s'.calls = Function.update s.calls thread (some next))
    (hlocks : Locks s s' thread stage (some next)) (hclaim : stage.claim = some message)
    (hnext : next.claim = some message) (hflag : s'.flags.fatalClaimed = s.flags.fatalClaimed)
    (hhealthy : s'.flags.healthy = s.flags.healthy)
    (hshows : ∀ log, stage.Shows s.text log → next.Shows s'.text (log ++ new))
    (hnew : ∀ event ∈ new, ∃ other, event = .lost other) : Stepped s thread stage s' (some next) new
    where
  calls := hcalls
  locks := hlocks
  written := fun log hcall h =>
    h.advance hcall hclaim hnext hflag hhealthy hcalls (hshows log)
      (List.filterMap_eq_nil_iff.2 fun event hmem => by
        obtain ⟨other, rfl⟩ := hnew event hmem
        rfl)
  copied := fun text heq => by
    cases heq
    cases hnext
  got := fun other text hmem => by
    obtain ⟨_, heq⟩ := hnew _ hmem
    cases heq
  answered := fun other hmem => by
    obtain ⟨_, heq⟩ := hnew _ hmem
    cases heq
  down := fun hdown => hhealthy.trans hdown
  keeps := fun hnone => by cases hclaim.symm.trans hnone

theorem callStep_stepped {stage : Stage} (h : callStep s thread stage = some (s', new)) :
    ∃ next, Stepped s thread stage s' next new := by
  have hnil : ∀ event ∈ ([] : List (Event threads)), ∃ other : Fin threads, event = .lost other :=
    fun _ hmem => absurd hmem List.not_mem_nil
  cases stage with
  | setting message now =>
    cases now with
    | claiming =>
      rcases hclaimed : s.flags.fatalClaimed with - | -
      · simp only [callStep, setFatalStep, hclaimed, Bool.false_eq_true, if_false] at h
        cases h
        refine ⟨some (.setting message .closing), rfl, Or.inl ⟨rfl, rfl⟩,
          fun log hcall hwritten => ?_,
          by simp, by simp, by simp, id, fun _ hset => by cases hclaimed.symm.trans hset⟩
        -- It is the first to set the flag.
        cases hwritten with
        | unclaimed claims _ up text free =>
          refine .claimed thread message (.setting message .closing) ?_ rfl up
            (State.setCall_self ..) rfl text fun other hne => ?_
          · rw [claimsOf_append, claims]
            rfl
          · rw [State.setCall_of_ne _ hne]
            exact free other
        | claimed _ _ _ _ flag => cases flag.symm.trans hclaimed
        | reported _ _ _ flag => cases flag.symm.trans hclaimed
      · simp only [callStep, setFatalStep, hclaimed, if_true] at h
        cases h
        exact ⟨none, .beside rfl (Or.inl ⟨rfl, rfl⟩) rfl rfl rfl rfl rfl (by simp) (by simp)
          (by simp)⟩
    | closing =>
      cases h
      exact ⟨_, .advance rfl (Or.inl ⟨rfl, rfl⟩) rfl rfl rfl rfl (fun _ htext => htext) hnil⟩
    | reporting =>
      cases h
      refine ⟨none, rfl, Or.inl ⟨rfl, rfl⟩, fun log hcall hwritten => ?_, by simp, by simp, by simp,
        fun _ => rfl, by rintro ⟨⟩⟩
      obtain ⟨claims, flag, -, text, free⟩ := hwritten.claimant hcall rfl
      refine .reported thread message ?_ flag rfl ?_ fun other => ?_
      · rw [List.append_nil, claims]
      · exact Stored.append text []
      · by_cases hother : other = thread
        · rw [hother, State.setCall_self]
          rfl
        · rw [State.setCall_of_ne _ hother]
          exact free other hother
  | locking message =>
    rcases hholder : s.holder with - | holder
    · simp only [callStep, hholder] at h
      cases h
      exact ⟨_, .advance rfl (Or.inr (Or.inl ⟨hholder, rfl, rfl⟩)) rfl rfl rfl rfl
        (fun _ htext => htext) hnil⟩
    · simp only [callStep, hholder] at h
      cases h
  | assigning message =>
    cases h
    exact ⟨_, .advance rfl (Or.inl ⟨rfl, rfl⟩) rfl rfl rfl rfl (fun _ _ => rfl) hnil⟩
  | assigned message =>
    cases h
    exact ⟨_, .advance rfl (Or.inl ⟨rfl, rfl⟩) rfl rfl rfl rfl (fun _ _ => rfl) hnil⟩
  | unlocking message =>
    cases h
    exact ⟨_, .advance rfl (Or.inr (Or.inr ⟨rfl, rfl, rfl⟩)) rfl rfl rfl rfl
      (fun _ htext => Or.inl htext) hnil⟩
  | asking =>
    cases h
    refine ⟨none, .beside rfl (Or.inl ⟨rfl, rfl⟩) rfl rfl rfl rfl rfl (by simp) (by simp) ?_⟩
    intro other hmem
    exact (Event.answered.inj (List.mem_singleton.1 hmem)).2.symm
  | acquiring =>
    rcases hholder : s.holder with - | holder
    · simp only [callStep, hholder] at h
      cases h
      exact ⟨_, .beside rfl (Or.inr (Or.inl ⟨hholder, rfl, rfl⟩)) rfl rfl rfl rfl rfl (by simp)
        (by simp) (by simp)⟩
    · simp only [callStep, hholder] at h
      cases h
  | copying =>
    cases h
    exact ⟨_, .beside rfl (Or.inl ⟨rfl, rfl⟩) rfl rfl rfl rfl rfl
      (fun text heq => by cases heq; exact ⟨rfl, rfl⟩) (by simp) (by simp)⟩
  | releasing text =>
    cases h
    refine ⟨none, .beside rfl (Or.inr (Or.inr ⟨rfl, rfl, rfl⟩)) rfl rfl rfl rfl rfl (by simp) ?_
      (by simp)⟩
    intro other other' hmem
    cases List.mem_singleton.1 hmem
    exact ⟨rfl, rfl⟩

theorem failStep_stepped {stage : Stage} (h : failStep s thread stage = some (s', new)) :
    ∃ next, Stepped s thread stage s' next new := by
  cases stage with
  | locking message =>
    cases h
    refine ⟨_, .advance rfl (Or.inl ⟨rfl, rfl⟩) rfl rfl rfl rfl (fun log htext => ?_) ?_⟩
    · exact Or.inr ⟨htext, thread, List.mem_append_right _ (List.mem_singleton_self _)⟩
    · exact fun event hmem => ⟨thread, List.mem_singleton.1 hmem⟩
  | acquiring =>
    cases h
    exact ⟨none, .beside rfl (Or.inl ⟨rfl, rfl⟩) rfl rfl rfl rfl rfl (by simp) (by simp) (by simp)⟩
  | _ => cases h

theorem Kept.stepped (h : Kept s log) {stage : Stage} {next : Option Stage}
    (hcall : s.calls thread = some stage) (hstep : Stepped s thread stage s' next new) :
    Kept s' (log ++ new) := by
  have holds : (s.calls thread).any Stage.holds = stage.holds := by
    rw [hcall]
    rfl
  constructor
  · intro other
    rw [hstep.calls, Function.update_apply]
    rcases hstep.locks with ⟨hsame, hholder⟩ | ⟨hfree, hnext, hholder⟩ | ⟨hheld, hnext, hholder⟩
    · rw [hholder]
      split_ifs with hother
      · rw [hother, hsame, ← holds]
        exact h.mutex thread
      · exact h.mutex other
    · rw [hholder]
      split_ifs with hother
      · rw [hother, hnext]
        exact iff_of_true rfl rfl
      · refine iff_of_false (fun hheld => ?_) fun heq => hother (Option.some.inj heq).symm
        cases hfree.symm.trans ((h.mutex other).1 hheld)
    · rw [hholder]
      refine iff_of_false (fun hother => ?_) (by simp)
      split_ifs at hother with heq
      · rw [hnext] at hother
        cases hother
      · have hthread := (h.mutex thread).1 (holds.trans hheld)
        exact heq (Option.some.inj (((h.mutex other).1 hother).symm.trans hthread))
  · exact hstep.written log hcall h.written
  · intro other text hreleasing
    rw [hstep.calls, Function.update_apply] at hreleasing
    split_ifs at hreleasing with hother
    · obtain ⟨rfl, rfl⟩ := hstep.copied text hreleasing
      refine (h.written.told fun writer message hassigned => ?_).append new
      -- It would hold the mutex as well.
      have hwriter := (h.mutex writer).1 (by rw [hassigned]; rfl)
      have hthread := (h.mutex thread).1 (by rw [hcall]; rfl)
      obtain rfl := Option.some.inj (hwriter.symm.trans hthread)
      cases hcall.symm.trans hassigned
    · exact (h.copied other text hreleasing).append new
  · intro other text hmem
    rcases List.mem_append.1 hmem with hmem | hmem
    · exact (h.got other text hmem).append new
    · obtain ⟨rfl, rfl⟩ := hstep.got other text hmem
      exact (h.copied other text hcall).append new
  · intro other hmem
    refine hstep.down ?_
    rcases List.mem_append.1 hmem with hmem | hmem
    · exact h.answered other hmem
    · exact hstep.answered other hmem

/-- A call begins. -/
theorem Kept.begun (h : Kept s log) {stage : Stage} (hclaim : stage.claim = none)
    (hholds : stage.holds = false) (hreleasing : ∀ text, stage ≠ .releasing text)
    (hbegin : begin s thread stage = some (s', new)) : Kept s' (log ++ new) := by
  rw [begin] at hbegin
  split at hbegin
  · next hidle =>
    cases hbegin
    constructor
    · intro other
      by_cases hother : other = thread
      · rw [hother, State.setCall_self]
        refine iff_of_false (by simp [hholds]) fun hholder => ?_
        have := (h.mutex thread).2 hholder
        rw [hidle] at this
        cases this
      · rw [State.setCall_of_ne _ hother]
        exact h.mutex other
    · exact h.written.beside rfl rfl rfl (by rw [hidle]; rfl) hclaim rfl
    · intro other text htext
      by_cases hother : other = thread
      · rw [hother, State.setCall_self] at htext
        exact absurd (Option.some.inj htext) (hreleasing text)
      · rw [State.setCall_of_ne _ hother] at htext
        exact (h.copied other text htext).append []
    · rw [List.append_nil]
      exact h.got
    · rw [List.append_nil]
      exact h.answered
  · cases hbegin

/-- A step begins a call, or is of one. -/
theorem stepped_of_step {action : Action threads} (h : step s action = some (s', new)) :
    (∃ thread stage, stage.claim = none ∧ stage.holds = false ∧
      (∀ text, stage ≠ .releasing text) ∧ begin s thread stage = some (s', new)) ∨
    ∃ thread stage next, s.calls thread = some stage ∧ Stepped s thread stage s' next new := by
  cases action with
  | setFatal thread message => exact Or.inl ⟨thread, _, rfl, rfl, by simp, h⟩
  | healthy thread => exact Or.inl ⟨thread, _, rfl, rfl, by simp, h⟩
  | fatalError thread => exact Or.inl ⟨thread, _, rfl, rfl, by simp, h⟩
  | resume thread =>
    obtain ⟨stage, hcall, hstep⟩ := Option.bind_eq_some_iff.1 h
    obtain ⟨next, hstepped⟩ := callStep_stepped hstep
    exact Or.inr ⟨thread, stage, next, hcall, hstepped⟩
  | fail thread =>
    obtain ⟨stage, hcall, hstep⟩ := Option.bind_eq_some_iff.1 h
    obtain ⟨next, hstepped⟩ := failStep_stepped hstep
    exact Or.inr ⟨thread, stage, next, hcall, hstepped⟩

theorem kept_step {action : Action threads} (h : Kept s log)
    (hstep : step s action = some (s', new)) : Kept s' (log ++ new) := by
  rcases stepped_of_step hstep with ⟨thread, stage, hclaim, hholds, hreleasing, hbegin⟩ |
    ⟨thread, stage, next, hcall, hstepped⟩
  · exact h.begun hclaim hholds hreleasing hbegin
  · exact h.stepped hcall hstepped

theorem kept (h : (machine threads).Reaches s log) : Kept s log := by
  refine Machine.invariant (I := Kept) ?_ (fun hkept hstep => kept_step hkept hstep) h
  constructor
  · exact fun _ => iff_of_false Bool.false_ne_true nofun
  · exact .unclaimed rfl rfl rfl rfl fun _ => rfl
  · exact fun _ _ heq => nomatch heq
  · exact fun _ _ hmem => absurd hmem List.not_mem_nil
  · exact fun _ hmem => absurd hmem List.not_mem_nil

end Kept

/-! ## What is reported -/

section Reported

variable {s s' : State threads} {log new : List (Event threads)} {reader : Fin threads}

/-- When the engine is not healthy, the text stays as it is, and no message becomes the fatal
one. -/
theorem Kept.settled (h : Kept s log) (hdown : s.flags.healthy = false) {action : Action threads}
    (hstep : step s action = some (s', new)) :
    s'.flags.healthy = false ∧ s'.text = s.text ∧ claimsOf new = [] := by
  rcases stepped_of_step hstep with ⟨thread, stage, -, -, -, hbegin⟩ |
    ⟨thread, stage, next, hcall, hstepped⟩
  · rw [begin] at hbegin
    split at hbegin
    · cases hbegin
      exact ⟨hdown, rfl, rfl⟩
    · cases hbegin
  · cases h.written with
    | unclaimed _ _ up => cases up.symm.trans hdown
    | claimed _ _ _ _ _ up => cases up.symm.trans hdown
    | reported _ _ _ flag _ _ free =>
      have hclaim := free thread
      rw [hcall] at hclaim
      exact ⟨hstepped.down hdown, hstepped.keeps hclaim flag⟩

/-- What a thread may be about to return is the text. -/
theorem settled_copies {text : Option String} (htext : s.text = text)
    {action : Action threads} (hstep : step s action = some (s', new)) {thread : Fin threads}
    (hcopies : ∀ copied, s.calls thread = some (.releasing copied) → copied = text) :
    (∀ copied, s'.calls thread = some (.releasing copied) → copied = text) ∧
      ∀ copied, .got thread copied ∈ new → copied = text := by
  rcases stepped_of_step hstep with ⟨other, stage, -, -, hreleasing, hbegin⟩ |
    ⟨other, stage, next, hcall, hstepped⟩
  · rw [begin] at hbegin
    split at hbegin
    · cases hbegin
      refine ⟨fun copied hcopied => ?_, fun _ hmem => absurd hmem List.not_mem_nil⟩
      by_cases hother : thread = other
      · rw [hother, State.setCall_self] at hcopied
        exact absurd (Option.some.inj hcopied) (hreleasing copied)
      · rw [State.setCall_of_ne _ hother] at hcopied
        exact hcopies copied hcopied
    · cases hbegin
  · refine ⟨fun copied hcopied => ?_, fun copied hmem => ?_⟩
    · rw [hstepped.calls, Function.update_apply] at hcopied
      split_ifs at hcopied
      · exact (hstepped.copied copied hcopied).2.trans htext
      · exact hcopies copied hcopied
    · obtain ⟨rfl, rfl⟩ := hstepped.got thread copied hmem
      exact hcopies copied hcall

/-- What has come of `s` when the message was stored there, with the threads that made no call. -/
structure Settled (s : State threads) (log : List (Event threads)) (message : String)
    (t : State threads) (more : List (Event threads)) : Prop where
  reaches : (machine threads).Reaches t (log ++ more)
  down : t.flags.healthy = false
  text : t.text = some message
  claims : claimsOf more = []
  told : ∀ thread, s.calls thread = none →
    (∀ copied, t.calls thread = some (.releasing copied) → copied = some message) ∧
      ∀ copied, .got thread copied ∈ more → copied = some message

theorem Settled.step {message : String} {t t' : State threads} {more next : List (Event threads)}
    (h : Settled s log message t more) {action : Action threads}
    (hstep : (machine threads).step t action = some (t', next)) :
    Settled s log message t' (more ++ next) := by
  obtain ⟨hdown, htext, hclaims⟩ := (kept h.reaches).settled h.down hstep
  constructor
  · rw [← List.append_assoc]
    exact h.reaches.runFrom (Machine.runFrom_one.2 hstep)
  · exact hdown
  · exact htext.trans h.text
  · rw [claimsOf_append, h.claims, hclaims]
    rfl
  · intro thread hidle
    obtain ⟨hcopies, hmore⟩ := h.told thread hidle
    obtain ⟨hcopies', hnext⟩ := settled_copies h.text hstep hcopies
    exact ⟨hcopies', fun copied hmem =>
      (List.mem_append.1 hmem).elim (hmore copied) (hnext copied)⟩

/-- At most one message is the fatal one, and `fatal_error` returns nothing else. When a thread has
been told that the engine is not healthy, and the message was not lost, every call of `fatal_error`
that begins then returns it, and no other message becomes the fatal one. -/
theorem fatal_reported (h : (machine threads).Reaches s log) :
    (claimsOf log).length ≤ 1 ∧ (∀ thread text, .got thread text ∈ log → Told text log) ∧
      ∀ reader, .answered reader false ∈ log → (∀ thread, .lost thread ∉ log) →
        ∃ claimant message, claimsOf log = [(claimant, message)] ∧
          ∀ actions s' new, (machine threads).runFrom s actions = some (s', new) →
            s'.flags.healthy = false ∧ claimsOf new = [] ∧
              ∀ thread, s.calls thread = none → ∀ text, .got thread text ∈ new →
                text = some message := by
  have hkept := kept h
  refine ⟨?_, hkept.got, fun reader hanswered hlost => ?_⟩
  · cases hkept.written with
    | unclaimed claims => simp [claims]
    | claimed _ _ _ claims => simp [claims]
    | reported _ _ claims => simp [claims]
  have hdown := hkept.answered reader hanswered
  cases hkept.written with
  | unclaimed _ _ up => cases up.symm.trans hdown
  | claimed _ _ _ _ _ up => cases up.symm.trans hdown
  | reported claimant message claims _ _ text =>
    have htext : s.text = some message := text.resolve_right fun hempty =>
      hempty.2.elim hlost
    refine ⟨claimant, message, claims, fun actions s' new hrun => ?_⟩
    have hstart : Settled s log message s [] := by
      refine ⟨(List.append_nil log).symm ▸ h, hdown, htext, rfl, fun thread hidle => ⟨?_, ?_⟩⟩
      · exact fun copied hcopied => by cases hidle.symm.trans hcopied
      · exact fun _ hmem => absurd hmem List.not_mem_nil
    have hend : Settled s log message s' new :=
      Machine.invariant_runFrom (P := fun _ => True) (fun _ hsettled hstep => hsettled.step hstep)
        (fun _ _ => trivial) hstart hrun
    exact ⟨hend.down, hend.claims, fun thread hidle => (hend.told thread hidle).2⟩

end Reported

/-! ### Two messages at a time -/

/-- The second thread finds the flag set, is told that the engine is not healthy, and asks why. -/
def sampleActions (first second : Fin 2) : List (Action 2) :=
  [.setFatal first "a", .setFatal second "b", .resume first, .resume second] ++
    List.replicate 6 (.resume first) ++ [.healthy second, .resume second]

theorem sampleActions_run :
    (((machine 2).run (sampleActions 0 1)).map fun last => (last.2, last.1.calls 1)) =
      some ([.claimed 0 "a", .answered 1 false], none) := by
  decide +kernel

theorem fatal_reported_sample : ∃ s, (machine 2).Reaches s [.claimed 0 "a", .answered 1 false] ∧
    ∀ actions s' new, (machine 2).runFrom s actions = some (s', new) → ∀ text,
      .got 1 text ∈ new → text = some "a" := by
  obtain ⟨⟨s, log⟩, hrun, hlast⟩ := Option.map_eq_some_iff.1 sampleActions_run
  obtain ⟨rfl, hidle⟩ := Prod.mk.inj hlast
  obtain ⟨-, -, hreported⟩ := fatal_reported ⟨_, hrun⟩
  obtain ⟨claimant, message, hclaims, hafter⟩ := hreported 1 (by simp) (by simp)
  obtain ⟨rfl, rfl⟩ : claimant = 0 ∧ message = "a" := by
    simpa [claimsOf, eq_comm] using hclaims
  exact ⟨s, ⟨_, hrun⟩, fun actions s' new hmore => (hafter actions s' new hmore).2.2 1 hidle⟩

example : (((machine 2).run (sampleActions 0 1 ++
    [.fatalError 1, .resume 1, .resume 1, .resume 1])).map (·.2)) =
      some [.claimed 0 "a", .answered 1 false, .got 1 (some "a")] := by
  decide +kernel

end FatalError

end L2Flow
