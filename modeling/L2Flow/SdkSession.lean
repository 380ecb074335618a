import L2Flow.Hoare
import L2Flow.Message

/-!
# The session with the vendor's library

`PhysicalSdkSession::Connect` loads the library, makes an `IOManager` and a `Subscriber`, and
connects. Any call into the library may throw, and so may any allocation, so every place where
`Connect` can be left has to give back what it holds, after it has quiesced the callbacks. A session
does that once, in the first `Shutdown` or when it is destroyed.

What the library and the allocator answer is up to an `Environment`, which knows all that was asked
before. A reference that `Connect` was given is released exactly once, except where the text of an
error cannot be composed after the release : the handler that catches this releases again
(`lifetime_settled`). The reference that `SubscriberPtr` holds for itself is not in the model.
-/

namespace L2Flow

namespace SdkSession

/-! ## The environment -/

/-- `std::exception`, with its text, or something else. -/
inductive Thrown where
  | standard (what : String)
  | other
  deriving DecidableEq

/-- How a function is left without a result. -/
inductive Unwinding where
  | thrown (exception : Thrown)
  /-- `std::terminate`. -/
  | terminated

/-- What memory is asked for. -/
inductive Allocation where
  /-- `config.shared_library.string()`. -/
  | path
  /-- The text of an error of which nothing has to be given back. -/
  | refusal
  /-- The text of `Connect`'s result. -/
  | detail
  /-- The text of the error that `CreateSubscriber` returned null. -/
  | nullSubscriber
  /-- The text of the error that `Connect` failed. -/
  | connectFailed
  /-- The text of the error that an exception was caught. -/
  | composition
  | impl
  | session
  deriving DecidableEq

/-- What `Connect` and `Shutdown` ask of the library, the loader and the allocator. -/
inductive SdkCall where
  | dlerror
  | dlopen (path : String)
  | dlsym
  | dlclose
  | dllCreateIOManager (workThreads ioThreads : ℤ)
  | enableLog (console : Bool)
  | createSubscriber
  | duplicate
  | setServerAddress (address : String)
  | setUserName (name : String)
  | setHeartbeatInterval (seconds : ℕ)
  | setHeartbeatTimeout (seconds : ℕ)
  | setMessageEncoding
  | enableMergeMessage
  | setSendMacAuth
  | enableServerSelect
  | addSubscription (key : MessageKey)
  | connect
  | stopAccepting
  | shutdown
  /-- `active_callbacks` has become zero. -/
  | idle
  | releaseSubscriber
  | releaseManager
  | allocate (allocation : Allocation)
  deriving DecidableEq

/-- An answer : an exception, or a pointer that may be null, with the text that it points to where
it is one to a text. -/
structure Answer where
  thrown : Option Thrown := none
  null : Bool := false
  text : String := ""

/-- All that was asked so far, and what was answered. -/
abbrev Log := List (SdkCall × Answer)

/-- What a call is answered after what was asked before. -/
abbrev Environment := Log → SdkCall → Answer

structure World where
  log : Log := []
  /-- What `error` points to, unless it is null. -/
  error : Option String := none

abbrev Sdk (α : Type) := EStateM Unwinding World α

variable (env : Environment)

/-- A call that does not throw. -/
def consult (call : SdkCall) : Sdk Answer := fun s =>
  .ok (env s.log call) { s with log := s.log ++ [(call, env s.log call)] }

def ask (call : SdkCall) : Sdk Answer := fun s =>
  let answer := env s.log call
  let s := { s with log := s.log ++ [(call, answer)] }
  match answer.thrown with
  | some exception => .error (.thrown exception) s
  | none => .ok answer s

def putError (value : String) : Sdk Unit := fun s =>
  .ok () { s with error := s.error.map fun _ => value }

/-- `SetError`. The caller composes the text. -/
def setError (allocation : Allocation) (value : String) : Sdk Unit := do
  let _ ← ask env (.allocate allocation)
  putError value

/-- `try` with a `catch` that runs `cleanup` and throws again. -/
def guarded {α : Type} (m : Sdk α) (cleanup : Sdk Unit) : Sdk α :=
  tryCatch m fun
    | .thrown exception => do
      cleanup
      throw (.thrown exception)
    | .terminated => throw .terminated

/-- `try` with an empty `catch`. -/
def swallowed (m : Sdk Answer) : Sdk Unit :=
  tryCatch (do let _ ← m) fun
    | .thrown _ => pure ()
    | .terminated => throw .terminated

/-! ## The session -/

/-- `PhysicalSdkConfig`. -/
structure PhysicalSdkConfig where
  sharedLibrary : String
  serverAddress : String
  userName : String
  workThreads : ℤ := 1
  ioThreads : ℤ := 1
  heartbeatIntervalSeconds : ℕ := 10
  heartbeatTimeoutSeconds : ℕ := 30
  sdkConsoleLog : Bool := false
  enabledStreams : StreamMask := kDefaultAShareL2StreamMask

/-- `ValidCStringInput`. -/
def validCStringInput (value : String) (requireNonempty : Bool) : Bool :=
  (!requireNonempty || value ≠ "") && '\x00' ∉ value.toList

/-- What `Connect` checks before it loads the library. -/
def PhysicalSdkConfig.valid (config : PhysicalSdkConfig) : Bool :=
  validCStringInput config.sharedLibrary true && validCStringInput config.serverAddress true &&
    validCStringInput config.userName true && 0 < config.workThreads && config.ioThreads = 1 &&
    config.heartbeatIntervalSeconds ≠ 0 && config.heartbeatTimeoutSeconds ≠ 0 &&
    config.enabledStreams ≠ 0 && config.enabledStreams &&& ~~~kSupportedStreamMask = 0

/-- `QuiesceSdkCallbacks`, for a manager and a handler that are there. The wait is that of
`SdkCallbacks`. -/
def quiesceSdkCallbacks : Sdk Unit := do
  let _ ← consult env .stopAccepting
  tryCatch (do let _ ← ask env .shutdown) fun _ => throw .terminated
  let _ ← consult env .idle

def releaseSubscriber : Sdk Unit :=
  swallowed (ask env .releaseSubscriber)

def releaseManager : Sdk Unit :=
  swallowed (ask env .releaseManager)

/-- `PhysicalSdkSession::Impl`. The pointers are null once they were released. -/
structure Impl where
  manager : Bool := true
  subscriber : Bool := true
  shutdown : Bool := false

/-- `Impl::Shutdown`. -/
def Impl.shutDown (impl : Impl) : Sdk Impl :=
  if impl.shutdown then pure impl
  else do
    quiesceSdkCallbacks env
    if impl.subscriber then releaseSubscriber env
    if impl.manager then releaseManager env
    pure { manager := false, subscriber := false, shutdown := true }

/-- What every `catch` after the creation of the manager does. -/
def abandon (subscriber : Bool) : Sdk Unit := do
  quiesceSdkCallbacks env
  if subscriber then releaseSubscriber env
  releaseManager env

/-- The part of `Connect` that `LocalDlHandle` spans, before it releases the handle. -/
def createManager (config : PhysicalSdkConfig) : Sdk Bool := do
  let _ ← consult env .dlerror
  let symbol ← consult env .dlsym
  let symbolError ← consult env .dlerror
  if !symbolError.null || symbol.null then do
    setError env .refusal ("dlsym DllCreateIOManager failed: " ++
      if symbolError.null then "<null symbol>" else symbolError.text)
    pure false
  else do
    let manager ← ask env (.dllCreateIOManager config.workThreads config.ioThreads)
    if manager.null then do
      setError env .refusal "DllCreateIOManager returned null"
      pure false
    else pure true

/-- `LocalDlHandle` closes the library unless it was released. -/
def withLibrary (m : Sdk Bool) : Sdk Bool := do
  let created ← guarded m (do let _ ← consult env .dlclose)
  if created then pure true
  else do
    let _ ← consult env .dlclose
    pure false

def openLibrary (config : PhysicalSdkConfig) : Sdk Bool := do
  let _ ← consult env .dlerror
  let library ← consult env (.dlopen config.sharedLibrary)
  if library.null then do
    let detail ← consult env .dlerror
    setError env .refusal ("dlopen SDK failed: " ++
      if detail.null then "<no detail>" else detail.text)
    pure false
  else withLibrary env (createManager env config)

/-- The part of the `try` block in which `subscriber` is null. -/
def createSubscriber (config : PhysicalSdkConfig) : Sdk Bool := do
  let _ ← ask env (.enableLog config.sdkConsoleLog)
  let temporary ← ask env .createSubscriber
  if temporary.null then do
    quiesceSdkCallbacks env
    releaseManager env
    setError env .nullSubscriber "SDK CreateSubscriber returned null"
    pure false
  else do
    let _ ← ask env .duplicate
    pure true

def kMaximumErrorBytes : ℕ :=
  4096

/-- What is configured before `Connect`. -/
def settings (config : PhysicalSdkConfig) : List SdkCall :=
  [.setServerAddress config.serverAddress, .setUserName config.userName,
    .setHeartbeatInterval config.heartbeatIntervalSeconds,
    .setHeartbeatTimeout config.heartbeatTimeoutSeconds, .setMessageEncoding,
    .enableMergeMessage, .setSendMacAuth, .enableServerSelect] ++
    (kSupportedMessageKeys.filter fun key => streamEnabled config.enabledStreams key).map
      .addSubscription

/-- The part of the `try` block in which `subscriber` is not null. -/
def connectSubscriber (config : PhysicalSdkConfig) : Sdk Bool := do
  (settings config).forM fun call => do let _ ← ask env call
  let result ← ask env .connect
  if !result.null && result.text ≠ "" then do
    let _ ← ask env (.allocate .detail)
    quiesceSdkCallbacks env
    releaseSubscriber env
    releaseManager env
    setError env .connectFailed ("SDK Connect failed: " ++
      if result.text.utf8ByteSize ≤ kMaximumErrorBytes then result.text
      else "SDK error text exceeds 4096 bytes")
    pure false
  else pure true

/-- `make_unique<Impl>`, and the construction of the session, which destroys the `Impl` where it
fails. -/
def makeSession : Sdk Impl := do
  guarded (do let _ ← ask env (.allocate .impl)) (abandon env true)
  guarded (do let _ ← ask env (.allocate .session)) (do let _ ← Impl.shutDown env {})
  putError ""
  pure {}

def compose (config : PhysicalSdkConfig) : Sdk (Option Impl) := do
  let created ← guarded (createSubscriber env config) (abandon env false)
  if created then do
    let connected ← guarded (connectSubscriber env config) (abandon env true)
    if connected then do
      let impl ← makeSession env
      pure (some impl)
    else pure none
  else pure none

/-- `PhysicalSdkSession::Connect`. `handler` is not null. -/
def connect (config : PhysicalSdkConfig) (handler : Bool) : Sdk (Option Impl) :=
  if !handler then do
    setError env .refusal "MDL message handler is null"
    pure none
  else do
    let _ ← ask env (.allocate .path)
    if !config.valid then do
      setError env .refusal ("invalid SDK path, address, credential, heartbeat, or " ++
        "thread configuration (io_threads must equal one)")
      pure none
    else
      tryCatch
        (do
          let created ← openLibrary env config
          if created then compose env config else pure none)
        fun
          | .thrown (.standard what) => do
            setError env .composition ("SDK composition failed: " ++ what)
            pure none
          | .thrown .other => do
            setError env .composition "SDK composition failed unexpectedly"
            pure none
          | .terminated => throw .terminated

/-- `Shutdown` is called a number of times, and then the session is destroyed. -/
def finish (impl : Impl) : ℕ → Sdk Unit
  | 0 => do let _ ← impl.shutDown env
  | count + 1 => do
    let impl ← impl.shutDown env
    finish impl count

/-- A session from `Connect` to its end. -/
def lifetime (config : PhysicalSdkConfig) (handler : Bool) (count : ℕ) : Sdk Unit := do
  let session ← connect env config handler
  match session with
  | some impl => finish env impl count
  | none => pure ()

/-! ## What is held -/

/-- What was obtained and what was given back. -/
structure Ledger where
  libraries : ℕ := 0
  closed : ℕ := 0
  managers : ℕ := 0
  subscribers : ℕ := 0
  managerReleases : ℕ := 0
  subscriberReleases : ℕ := 0
  /-- `QuiesceSdkCallbacks` has come to its end. -/
  quiesced : Bool := false
  /-- A reference was released before. -/
  early : Bool := false
  /-- How often the text of an error could not be composed after the references were released. -/
  late : ℕ := 0
  /-- A reference was used after it had been released. -/
  stale : Bool := false

/-- The call is made through the manager. -/
def SdkCall.usesManager : SdkCall → Bool
  | .enableLog _ | .createSubscriber | .shutdown | .releaseManager => true
  | _ => false

/-- The call is made through the subscriber that `Duplicate` returned. -/
def SdkCall.usesSubscriber : SdkCall → Bool
  | .setServerAddress _ | .setUserName _ | .setHeartbeatInterval _ | .setHeartbeatTimeout _ => true
  | .setMessageEncoding | .enableMergeMessage | .setSendMacAuth | .enableServerSelect => true
  | .addSubscription _ | .connect | .releaseSubscriber => true
  | _ => false

/-- The call uses a reference that was released. -/
def Ledger.misused (ledger : Ledger) (call : SdkCall) : Bool :=
  (call.usesManager && decide (0 < ledger.managerReleases)) ||
    (call.usesSubscriber && decide (0 < ledger.subscriberReleases))

def Ledger.counted (ledger : Ledger) : SdkCall × Answer → Ledger
  | (.dlopen _, answer) =>
    if answer.null then ledger else { ledger with libraries := ledger.libraries + 1 }
  | (.dlclose, _) => { ledger with closed := ledger.closed + 1 }
  | (.dllCreateIOManager _ _, answer) =>
    if answer.thrown.isSome || answer.null then ledger
    else { ledger with managers := ledger.managers + 1 }
  | (.duplicate, answer) =>
    if answer.thrown.isSome then ledger
    else { ledger with subscribers := ledger.subscribers + 1 }
  | (.idle, _) => { ledger with quiesced := true }
  | (.releaseSubscriber, _) =>
    { ledger with
      subscriberReleases := ledger.subscriberReleases + 1
      early := ledger.early || !ledger.quiesced }
  | (.releaseManager, _) =>
    { ledger with
      managerReleases := ledger.managerReleases + 1
      early := ledger.early || !ledger.quiesced }
  | (.allocate .nullSubscriber, answer) | (.allocate .connectFailed, answer) =>
    if answer.thrown.isSome then { ledger with late := ledger.late + 1 } else ledger
  | _ => ledger

def Ledger.after (ledger : Ledger) (entry : SdkCall × Answer) : Ledger :=
  { ledger.counted entry with stale := ledger.stale || ledger.misused entry.1 }

def Log.ledger (log : Log) : Ledger :=
  log.foldl Ledger.after {}

/-- What was obtained has been given back, and no reference before the callbacks were quiesced. The
library is kept where a manager was made. A reference is released once, and not used after that; but
where the text of the error could not be composed, it is used again, and released once more. -/
structure Ledger.Settled (ledger : Ledger) : Prop where
  early : ledger.early = false
  closed : ledger.closed + ledger.managers = ledger.libraries
  managerReleases : ledger.managerReleases = ledger.managers * (1 + ledger.late)
  subscriberReleases : ledger.subscriberReleases = ledger.subscribers * (1 + ledger.late)
  once : ledger.managers ≤ 1 ∧ ledger.subscribers ≤ ledger.managers ∧ ledger.late ≤ ledger.managers
  stale : ledger.stale = decide (ledger.late ≠ 0)

/-- `IOManager::Shutdown` has thrown, and the process is gone. Until then no reference was released,
or used after that, but where the text of the error could not be composed. -/
def Interrupted (log : Log) : Prop :=
  (∃ before answer, log = before ++ [(.shutdown, answer)] ∧ answer.thrown ≠ none) ∧
    log.ledger.early = false ∧ log.ledger.managerReleases = log.ledger.late ∧
    log.ledger.subscriberReleases = log.ledger.subscribers * log.ledger.late ∧
    log.ledger.stale = decide (log.ledger.late ≠ 0)

theorem Log.ledger_snoc (log : Log) (entry : SdkCall × Answer) :
    ledger (log ++ [entry]) = log.ledger.after entry := by
  rw [ledger, List.foldl_append]
  rfl

theorem Ledger.counted_stale (ledger : Ledger) (entry : SdkCall × Answer) :
    (ledger.counted entry).stale = ledger.stale := by
  unfold counted
  split <;> try split
  all_goals rfl

/-- A call through no reference that was released. -/
theorem Ledger.after_eq_counted {ledger : Ledger} {entry : SdkCall × Answer}
    (hused : ledger.misused entry.1 = false) : ledger.after entry = ledger.counted entry := by
  rw [after, hused, Bool.or_false, ← counted_stale ledger entry]

/-! ## Specifications -/

/-- The ledger of the world. -/
def At (ledger : Ledger) (s : World) : Prop :=
  s.log.ledger = ledger

/-- How a function is left without a result : by an exception, or for good. -/
def Unwound (R T : World → Prop) : Unwinding → World → Prop
  | .thrown _ => R
  | .terminated => T

section Rules

variable {env : Environment} {α : Type} {P R R' T : World → Prop} {Q : α → World → Prop}
  {ledger : Ledger} {call : SdkCall}

theorem spec_consult {E : Unwinding → World → Prop} :
    Spec (At ledger) (consult env call) (fun answer => At (ledger.after (call, answer))) E := by
  intro s hs
  obtain rfl : s.log.ledger = ledger := hs
  exact Log.ledger_snoc s.log (call, env s.log call)

theorem spec_ask (T : World → Prop) : Spec (At ledger) (ask env call)
    (fun answer s => answer.thrown = none ∧ At (ledger.after (call, answer)) s)
    (Unwound (fun s => ∃ answer, answer.thrown ≠ none ∧ At (ledger.after (call, answer)) s) T) := by
  intro s hs
  obtain rfl : s.log.ledger = ledger := hs
  have hledger := Log.ledger_snoc s.log (call, env s.log call)
  rw [ask]
  rcases hthrown : (env s.log call).thrown with - | exception
  · exact ⟨hthrown, hledger⟩
  · exact ⟨env s.log call, by simp [hthrown], hledger⟩

/-- What is obtained by a call that returns, and by one that throws. -/
theorem spec_obtain (obtained : Answer → Ledger) (ledger' : Ledger)
    (hreturned : ∀ answer, answer.thrown = none → ledger.after (call, answer) = obtained answer)
    (hthrown : ∀ answer, answer.thrown ≠ none → ledger.after (call, answer) = ledger') :
    Spec (At ledger) (ask env call) (fun answer => At (obtained answer))
      (Unwound (At ledger') T) := by
  refine (spec_ask T).mono (fun _ hs => hs)
    (fun answer s hs => hreturned answer hs.1 ▸ hs.2) ?_
  intro e s hs
  cases e with
  | thrown exception =>
    obtain ⟨answer, hthrew, hledger⟩ := hs
    exact hthrown answer hthrew ▸ hledger
  | terminated => exact hs

/-- A call that nothing is obtained or given back by. -/
theorem spec_plain (hplain : ∀ answer, ledger.after (call, answer) = ledger) :
    Spec (At ledger) (ask env call) (fun _ => At ledger) (Unwound (At ledger) T) :=
  spec_obtain (fun _ => ledger) ledger (fun answer _ => hplain answer) fun answer _ => hplain answer

theorem spec_putError {value : String} {E : Unwinding → World → Prop} :
    Spec (At ledger) (putError value) (fun _ => At ledger) E := fun _ hs => hs

theorem spec_setError {allocation : Allocation} {value : String} (ledger' : Ledger)
    (hreturned : ∀ answer, answer.thrown = none →
      ledger.after (.allocate allocation, answer) = ledger)
    (hthrown : ∀ answer, answer.thrown ≠ none →
      ledger.after (.allocate allocation, answer) = ledger') :
    Spec (At ledger) (setError env allocation value) (fun _ => At ledger)
      (Unwound (At ledger') T) :=
  (spec_obtain (fun _ => ledger) ledger' hreturned hthrown).bind fun _ => spec_putError

theorem spec_unwound {m : Sdk α} (h : Spec P m Q (Unwound R T)) (hR : ∀ s, R s → R' s) :
    Spec P m Q (Unwound R' T) := by
  refine h.mono (fun _ hs => hs) (fun _ _ hs => hs) fun e s hs => ?_
  cases e with
  | thrown exception => exact hR s hs
  | terminated => exact hs

theorem spec_of_ledger {p : Ledger → Prop} {m : Sdk α} {E : Unwinding → World → Prop}
    (h : ∀ ledger, p ledger → Spec (At ledger) m Q E) : Spec (fun s => p s.log.ledger) m Q E :=
  fun s hs => h s.log.ledger hs s rfl

theorem spec_guarded {m : Sdk α} {cleanup : Sdk Unit} (hm : Spec P m Q (Unwound R T))
    (hcleanup : Spec R cleanup (fun _ => R') (Unwound R' T)) :
    Spec P (guarded m cleanup) Q (Unwound R' T) := by
  refine hm.tryCatch fun e => ?_
  cases e with
  | thrown exception => exact hcleanup.bind fun _ _ hs => hs
  | terminated => exact fun _ hs => hs

theorem spec_swallowed {Q : World → Prop} {E : Unwinding → World → Prop}
    (hQ : ∀ answer s, At (ledger.after (call, answer)) s → Q s) :
    Spec (At ledger) (swallowed (ask env call)) (fun _ => Q) E := by
  refine Spec.tryCatch (F := Unwound Q fun _ => False) ?_ fun e => ?_
  · refine Spec.bind (Q := fun _ => Q) ((spec_ask fun _ => False).mono (fun _ hs => hs)
      (fun answer s hs => hQ answer s hs.2) ?_) fun _ _ hs => hs
    intro e s hs
    cases e with
    | thrown exception =>
      obtain ⟨answer, -, hledger⟩ := hs
      exact hQ answer s hledger
    | terminated => exact hs
  · cases e with
    | thrown exception => exact fun _ hs => hs
    | terminated => exact fun _ hs => hs.elim

end Rules

section Specifications

variable (env : Environment)

/-- The references that were obtained, and not released but where an error could not be reported. -/
def Ledger.Held (ledger : Ledger) : Prop :=
  ledger.early = false ∧ ledger.managerReleases = ledger.late ∧
    ledger.subscriberReleases = ledger.subscribers * ledger.late ∧ ledger.stale = false

theorem quiesceSdkCallbacks_spec {ledger : Ledger} (hheld : ledger.Held) {R : World → Prop} :
    Spec (At ledger) (quiesceSdkCallbacks env)
      (fun _ => At { ledger with quiesced := true, stale := decide (ledger.late ≠ 0) })
      (Unwound R fun s => Interrupted s.log) := by
  obtain ⟨hearly, hmanager, hsubscriber, hstale⟩ := hheld
  have hclosed : ∀ answer, ledger.after (.stopAccepting, answer) = ledger := fun _ =>
    congrArg (fun stale => { ledger with stale := stale }) (Bool.or_false ledger.stale)
  have hshut : ∀ answer, ledger.after (.shutdown, answer) =
      { ledger with stale := decide (ledger.late ≠ 0) } := by
    intro answer
    have hmisused : (ledger.stale || ledger.misused .shutdown) = decide (ledger.late ≠ 0) := by
      simp [hstale, Ledger.misused, SdkCall.usesManager, SdkCall.usesSubscriber, hmanager,
        Nat.pos_iff_ne_zero]
    exact congrArg (fun stale => { ledger with stale := stale }) hmisused
  refine Spec.bind (Q := fun _ => At ledger) (spec_consult.mono (fun _ hs => hs)
    (fun answer s hs => hclosed answer ▸ hs) fun _ _ hs => hs) fun _ => ?_
  refine Spec.bind (Q := fun _ => At { ledger with stale := decide (ledger.late ≠ 0) }) ?_
    fun _ => ?_
  · refine Spec.tryCatch (F := fun _ s => Interrupted s.log) ?_ fun e => ?_
    · refine Spec.bind (Q := fun _ => At { ledger with stale := decide (ledger.late ≠ 0) })
        (fun s hs => ?_) fun _ _ hs => hs
      have hledger := Log.ledger_snoc s.log (.shutdown, env s.log .shutdown)
      rw [show s.log.ledger = ledger from hs, hshut] at hledger
      rw [ask]
      rcases hthrown : (env s.log .shutdown).thrown with - | exception
      · exact hledger
      · refine ⟨⟨s.log, _, rfl, by simp [hthrown]⟩, ?_⟩
        rw [hledger]
        exact ⟨hearly, hmanager, hsubscriber, rfl⟩
    · exact fun _ hs => hs
  · refine Spec.bind (spec_consult.mono (fun _ hs => hs) (fun answer s hs => ?_)
      fun _ _ hs => hs) fun _ _ hs => hs
    have hidle : Ledger.after { ledger with stale := decide (ledger.late ≠ 0) } (.idle, answer) =
        { ledger with quiesced := true, stale := decide (ledger.late ≠ 0) } :=
      congrArg (fun stale => { ledger with quiesced := true, stale := stale }) (Bool.or_false _)
    exact hidle ▸ hs

theorem releaseManager_spec {ledger : Ledger} (hquiesced : ledger.quiesced = true)
    (hstale : 0 < ledger.managerReleases → ledger.stale = true)
    {E : Unwinding → World → Prop} : Spec (At ledger) (releaseManager env)
      (fun _ => At { ledger with managerReleases := ledger.managerReleases + 1 }) E := by
  refine spec_swallowed fun answer s hs => ?_
  have hearly : (ledger.early || !ledger.quiesced) = ledger.early := by simp [hquiesced]
  have hmisused : (ledger.stale || ledger.misused .releaseManager) = ledger.stale := by
    simpa [Ledger.misused, SdkCall.usesManager, SdkCall.usesSubscriber] using hstale
  rw [Ledger.after, hmisused, Ledger.counted, hearly] at hs
  exact hs

theorem releaseSubscriber_spec {ledger : Ledger} (hquiesced : ledger.quiesced = true)
    (hstale : 0 < ledger.subscriberReleases → ledger.stale = true)
    {E : Unwinding → World → Prop} : Spec (At ledger) (releaseSubscriber env)
      (fun _ => At { ledger with subscriberReleases := ledger.subscriberReleases + 1 }) E := by
  refine spec_swallowed fun answer s hs => ?_
  have hearly : (ledger.early || !ledger.quiesced) = ledger.early := by simp [hquiesced]
  have hmisused : (ledger.stale || ledger.misused .releaseSubscriber) = ledger.stale := by
    simpa [Ledger.misused, SdkCall.usesManager, SdkCall.usesSubscriber] using hstale
  rw [Ledger.after, hmisused, Ledger.counted, hearly] at hs
  exact hs

/-- What is held is given back, after the callbacks were quiesced. -/
theorem abandon_spec {ledger : Ledger} (hheld : ledger.Held) (subscriber : Bool)
    {R : World → Prop} :
    Spec (At ledger) (abandon env subscriber)
      (fun _ => At { ledger with
        quiesced := true
        stale := decide (ledger.late ≠ 0)
        managerReleases := ledger.managerReleases + 1
        subscriberReleases := ledger.subscriberReleases + subscriber.toNat })
      (Unwound R fun s => Interrupted s.log) := by
  have hmanager : 0 < ledger.managerReleases → decide (ledger.late ≠ 0) = true := by
    rw [hheld.2.1]
    exact fun hreleased => decide_eq_true hreleased.ne'
  have hsubscriber : 0 < ledger.subscriberReleases → decide (ledger.late ≠ 0) = true := by
    rw [hheld.2.2.1]
    exact fun hreleased => decide_eq_true (Nat.pos_of_mul_pos_left hreleased).ne'
  refine (quiesceSdkCallbacks_spec env hheld).bind fun _ => ?_
  cases subscriber with
  | false => exact releaseManager_spec env rfl hmanager
  | true =>
    exact (releaseSubscriber_spec env rfl hsubscriber).bind fun _ =>
      releaseManager_spec env rfl hmanager

/-- There is a manager. -/
def opened : Ledger :=
  { libraries := 1, managers := 1 }

/-- There is a subscriber as well. -/
def composed : Ledger :=
  { libraries := 1, managers := 1, subscribers := 1 }

/-- Both were given back, and perhaps the text of the error could not be composed. -/
def Ledger.left (ledger : Ledger) (late : ℕ) : Ledger :=
  { ledger with
    quiesced := true
    managerReleases := ledger.managers
    subscriberReleases := ledger.subscribers
    late := late }

theorem held_opened : opened.Held := ⟨rfl, rfl, rfl, rfl⟩

theorem held_composed : composed.Held := ⟨rfl, rfl, rfl, rfl⟩

theorem createManager_spec (config : PhysicalSdkConfig) {T : World → Prop} :
    Spec (At { libraries := 1 }) (createManager env config)
      (fun created => At (if created then opened else { libraries := 1 }))
      (Unwound (At { libraries := 1 }) T) := by
  refine spec_consult.bind fun _ => spec_consult.bind fun symbol => ?_
  refine spec_consult.bind fun error => ?_
  cases !error.null || symbol.null with
  | true =>
    exact (spec_setError { libraries := 1 } (fun _ _ => rfl) fun _ _ => rfl).bind fun _ _ hs => hs
  | false =>
    refine Spec.bind
      (Q := fun manager : Answer => At (if manager.null then { libraries := 1 } else opened))
      (spec_obtain _ _ (fun manager hreturned => ?_) fun manager hthrew => ?_) fun manager => ?_
    · show Ledger.after { libraries := 1 } _ = _
      rw [Ledger.after_eq_counted rfl, Ledger.counted, hreturned]
      cases manager.null <;> rfl
    · show Ledger.after { libraries := 1 } _ = _
      rw [Ledger.after_eq_counted rfl, Ledger.counted, Option.isSome_iff_ne_none.2 hthrew]
      rfl
    · cases manager.null with
      | false => exact fun _ hs => hs
      | true =>
        exact (spec_setError { libraries := 1 } (fun _ _ => rfl) fun _ _ => rfl).bind
          fun _ _ hs => hs

/-- The library was closed, if it was opened. -/
def Closed (s : World) : Prop :=
  ∃ count, At { libraries := count, closed := count } s

theorem openLibrary_spec (config : PhysicalSdkConfig) {T : World → Prop} :
    Spec (At {}) (openLibrary env config)
      (fun created s => if created then At opened s else Closed s) (Unwound Closed T) := by
  refine spec_consult.bind fun _ => spec_consult.bind fun library => ?_
  have hopened : Ledger.after {} (.dlopen config.sharedLibrary, library) =
      if library.null then {} else { libraries := 1 } := by
    rw [Ledger.after_eq_counted rfl, Ledger.counted]
  show Spec (At (Ledger.after {} (.dlopen config.sharedLibrary, library))) _ _ _
  rw [hopened]
  cases library.null with
  | true =>
    refine spec_consult.bind fun _ => ?_
    refine Spec.bind (Q := fun _ => Closed) ?_ fun _ _ hs => hs
    refine (spec_setError (T := T) {} (fun _ _ => rfl) fun _ _ => rfl).mono (fun _ hs => hs)
      (fun _ s hs => ⟨0, hs⟩) fun e s hs => ?_
    cases e with
    | thrown exception => exact ⟨0, hs⟩
    | terminated => exact hs
  | false =>
    show Spec (At { libraries := 1 }) _ _ _
    refine Spec.bind (Q := fun created => At (if created then opened else { libraries := 1 }))
      (spec_guarded (createManager_spec env config) ?_) fun created => ?_
    · exact Spec.bind (Q := fun _ => Closed) (spec_consult.mono (fun _ hs => hs)
        (fun _ s hs => ⟨1, hs⟩) fun _ _ hs => hs) fun _ _ hs => hs
    · cases created with
      | true => exact fun _ hs => hs
      | false =>
        exact Spec.bind (Q := fun _ => Closed) (spec_consult.mono (fun _ hs => hs)
          (fun _ s hs => ⟨1, hs⟩) fun _ _ hs => hs) fun _ _ hs => hs

/-- An exception leaves a block with nothing given back, or after all was given back and the text
of the error could not be composed. -/
def Failed (ledger : Ledger) (s : World) : Prop :=
  At ledger s ∨ At (ledger.left 1) s

theorem spec_failed {call : SdkCall} {ledger : Ledger} {T : World → Prop}
    (hplain : ∀ answer, ledger.after (call, answer) = ledger) :
    Spec (At ledger) (ask env call) (fun _ => At ledger) (Unwound (Failed ledger) T) :=
  spec_unwound (spec_plain hplain) fun _ => Or.inl

theorem createSubscriber_spec (config : PhysicalSdkConfig) :
    Spec (At opened) (createSubscriber env config)
      (fun created => At (if created then composed else opened.left 0))
      (Unwound (Failed opened) fun s => Interrupted s.log) := by
  refine (spec_failed env fun _ => rfl).bind fun _ => ?_
  refine (spec_failed env fun _ => rfl).bind fun temporary => ?_
  cases temporary.null with
  | true =>
    refine (quiesceSdkCallbacks_spec env held_opened).bind fun _ => ?_
    refine Spec.bind (releaseManager_spec env rfl (absurd · (lt_irrefl 0))) fun _ => ?_
    refine Spec.bind (Q := fun _ => At (opened.left 0)) ?_ fun _ _ hs => hs
    refine spec_unwound (spec_setError (opened.left 1) (fun answer hreturned => ?_)
      fun answer hthrew => ?_) fun _ => Or.inr
    · rw [Ledger.after_eq_counted rfl, Ledger.counted, hreturned]
      rfl
    · rw [Ledger.after_eq_counted rfl, Ledger.counted, if_pos (Option.isSome_iff_ne_none.2 hthrew)]
      rfl
  | false =>
    refine Spec.bind (Q := fun _ => At composed) ?_ fun _ _ hs => hs
    refine spec_unwound (spec_obtain (fun _ => composed) opened (fun answer hreturned => ?_)
      fun answer hthrew => ?_) fun _ => Or.inl
    · show Ledger.after opened _ = _
      rw [Ledger.after_eq_counted rfl, Ledger.counted, hreturned]
      rfl
    · show Ledger.after opened _ = _
      rw [Ledger.after_eq_counted rfl, Ledger.counted, if_pos (Option.isSome_iff_ne_none.2 hthrew)]

theorem mem_settings {config : PhysicalSdkConfig} {call : SdkCall} (h : call ∈ settings config)
    (answer : Answer) : composed.after (call, answer) = composed := by
  rcases List.mem_append.1 h with hfirst | hkey
  · simp only [List.mem_cons, List.not_mem_nil, or_false] at hfirst
    rcases hfirst with rfl | rfl | rfl | rfl | rfl | rfl | rfl | rfl <;> rfl
  · obtain ⟨key, -, rfl⟩ := List.mem_map.1 hkey
    rfl

theorem connectSubscriber_spec (config : PhysicalSdkConfig) :
    Spec (At composed) (connectSubscriber env config)
      (fun connected => At (if connected then composed else composed.left 0))
      (Unwound (Failed composed) fun s => Interrupted s.log) := by
  refine Spec.bind (Q := fun _ => At composed) (Spec.forM _ fun call hcall => ?_) fun _ => ?_
  · exact (spec_failed env (mem_settings hcall)).bind fun _ _ hs => hs
  · refine (spec_failed env fun _ => rfl).bind fun result => ?_
    cases !result.null && result.text ≠ "" with
    | true =>
      refine (spec_failed env fun _ => rfl).bind fun _ => ?_
      refine (quiesceSdkCallbacks_spec env held_composed).bind fun _ => ?_
      refine Spec.bind (releaseSubscriber_spec env rfl (absurd · (lt_irrefl 0))) fun _ => ?_
      refine Spec.bind (releaseManager_spec env rfl (absurd · (lt_irrefl 0))) fun _ => ?_
      refine Spec.bind (Q := fun _ => At (composed.left 0)) ?_ fun _ _ hs => hs
      refine spec_unwound (spec_setError (composed.left 1) (fun answer hreturned => ?_)
        fun answer hthrew => ?_) fun _ => Or.inr
      · rw [Ledger.after_eq_counted rfl, Ledger.counted, hreturned]
        rfl
      · rw [Ledger.after_eq_counted rfl, Ledger.counted,
          if_pos (Option.isSome_iff_ne_none.2 hthrew)]
        rfl
    | false => exact fun _ hs => hs

/-- All is given back. -/
def Settled (s : World) : Prop :=
  s.log.ledger.Settled

theorem settled_left {ledger : Ledger} (h : ledger = opened ∨ ledger = composed) {late : ℕ}
    (hlate : late ≤ 1) {s : World} (hs : At { ledger.left late with
      stale := decide (late ≠ 0)
      managerReleases := ledger.managers * (1 + late)
      subscriberReleases := ledger.subscribers * (1 + late) } s) : Settled s := by
  rw [Settled, show s.log.ledger = _ from hs]
  rcases h with rfl | rfl <;>
    exact ⟨rfl, rfl, rfl, rfl, by simp [opened, composed, Ledger.left, hlate], rfl⟩

/-- What the handler of an exception gives back, after what was given back before. -/
theorem abandon_failed {ledger : Ledger} {subscriber : Bool}
    (h : ledger = opened ∧ subscriber = false ∨ ledger = composed ∧ subscriber = true) :
    Spec (Failed ledger) (abandon env subscriber) (fun _ => Settled)
      (Unwound Settled fun s => Interrupted s.log) := by
  refine Spec.or ?_ ?_
  · refine (abandon_spec env ?_ subscriber).mono (fun _ hs => hs) (fun _ s hs => ?_)
      fun _ _ hs => hs
    · rcases h with ⟨rfl, -⟩ | ⟨rfl, -⟩
      · exact held_opened
      · exact held_composed
    · rcases h with ⟨rfl, rfl⟩ | ⟨rfl, rfl⟩
      · exact settled_left (Or.inl rfl) (Nat.zero_le 1) hs
      · exact settled_left (Or.inr rfl) (Nat.zero_le 1) hs
  · refine (abandon_spec env ?_ subscriber).mono (fun _ hs => hs) (fun _ s hs => ?_)
      fun _ _ hs => hs
    · rcases h with ⟨rfl, -⟩ | ⟨rfl, -⟩ <;> exact ⟨rfl, rfl, rfl, rfl⟩
    · rcases h with ⟨rfl, rfl⟩ | ⟨rfl, rfl⟩
      · exact settled_left (Or.inl rfl) le_rfl hs
      · exact settled_left (Or.inr rfl) le_rfl hs

/-- The first `Shutdown` gives back all, and the later ones nothing. -/
theorem shutDown_spec {R : World → Prop} :
    Spec (At composed) (Impl.shutDown env {})
      (fun impl s => impl.shutdown = true ∧ At (composed.left 0) s)
      (Unwound R fun s => Interrupted s.log) := by
  refine (quiesceSdkCallbacks_spec env held_composed).bind fun _ => ?_
  refine Spec.bind (releaseSubscriber_spec env rfl (absurd · (lt_irrefl 0))) fun _ => ?_
  refine Spec.bind (releaseManager_spec env rfl (absurd · (lt_irrefl 0))) fun _ => ?_
  exact fun _ hs => ⟨rfl, hs⟩

theorem makeSession_spec :
    Spec (At composed) (makeSession env) (fun impl s => impl = {} ∧ At composed s)
      (Unwound Settled fun s => Interrupted s.log) := by
  refine Spec.bind (Q := fun _ => At composed)
    (spec_guarded ?_ (abandon_failed env (Or.inr ⟨rfl, rfl⟩)))
    fun _ => ?_
  · exact (spec_failed env fun _ => rfl).bind fun _ _ hs => hs
  · refine Spec.bind (Q := fun _ => At composed) (spec_guarded (R := At composed) ?_ ?_) fun _ => ?_
    · exact (spec_plain fun _ => rfl).bind fun _ _ hs => hs
    · exact (shutDown_spec env).bind fun _ _ hs =>
        settled_left (Or.inr rfl) (Nat.zero_le 1) hs.2
    · exact spec_putError.bind fun _ _ hs => ⟨rfl, hs⟩

/-- A session holds both references. Without one, all is given back. -/
def Made (session : Option Impl) (s : World) : Prop :=
  match session with
  | some impl => impl = {} ∧ At composed s
  | none => Settled s

theorem compose_spec (config : PhysicalSdkConfig) :
    Spec (At opened) (compose env config) Made (Unwound Settled fun s => Interrupted s.log) := by
  refine (spec_guarded (createSubscriber_spec env config)
    (abandon_failed env (Or.inl ⟨rfl, rfl⟩))).bind fun created => ?_
  cases created with
  | false => exact fun _ hs => settled_left (Or.inl rfl) (Nat.zero_le 1) hs
  | true =>
    refine (spec_guarded (connectSubscriber_spec env config)
      (abandon_failed env (Or.inr ⟨rfl, rfl⟩))).bind fun connected => ?_
    cases connected with
    | false => exact fun _ hs => settled_left (Or.inr rfl) (Nat.zero_le 1) hs
    | true => exact (makeSession_spec env).bind fun _ _ hs => hs

theorem settled_closed {s : World} (hs : Closed s) : Settled s := by
  obtain ⟨count, hledger⟩ := hs
  rw [Settled, show s.log.ledger = _ from hledger]
  exact ⟨rfl, rfl, rfl, rfl, by simp, rfl⟩

/-- The text of an exception is composed with nothing left to give back. -/
theorem composition_spec (value : String) {T : World → Prop} :
    Spec Settled (do setError env .composition value; pure (none : Option Impl)) Made
      (Unwound Settled T) := by
  refine spec_of_ledger fun ledger hsettled => ?_
  have hkept : ∀ s, At ledger s → Settled s := fun s hs => by
    rw [Settled, show s.log.ledger = ledger from hs]
    exact hsettled
  have hplain : ∀ answer, ledger.after (.allocate .composition, answer) = ledger := fun _ =>
    congrArg (fun stale => { ledger with stale := stale }) (Bool.or_false ledger.stale)
  exact Spec.bind (Q := fun _ => At ledger) (spec_unwound (spec_setError ledger
    (fun answer _ => hplain answer) fun answer _ => hplain answer) hkept) fun _ => hkept

theorem connect_spec (config : PhysicalSdkConfig) (handler : Bool) :
    Spec (At {}) (connect env config handler) Made
      (Unwound Settled fun s => Interrupted s.log) := by
  have hnothing : ∀ s, At {} s → Settled s := fun s hs => settled_closed ⟨0, hs⟩
  have hrefused : ∀ value : String,
      Spec (At {}) (do setError env .refusal value; pure (none : Option Impl)) Made
        (Unwound Settled fun s => Interrupted s.log) := fun value =>
    Spec.bind (Q := fun _ => At {}) (spec_unwound (spec_setError {} (fun _ _ => rfl)
      fun _ _ => rfl) hnothing) fun _ => hnothing
  cases handler with
  | false => exact hrefused _
  | true =>
    refine Spec.bind (Q := fun _ => At {}) (spec_unwound (spec_plain fun _ => rfl) hnothing)
      fun _ => ?_
    cases config.valid with
    | false => exact hrefused _
    | true =>
      refine Spec.tryCatch (F := Unwound Settled fun s => Interrupted s.log) ?_ fun e => ?_
      · refine (spec_unwound (openLibrary_spec env config) fun _ => settled_closed).bind
          fun created => ?_
        cases created with
        | true => exact compose_spec env config
        | false => exact fun _ hs => settled_closed hs
      · rcases e with (what | -) | -
        · exact composition_spec env _
        · exact composition_spec env _
        · exact fun _ hs => hs

/-- Whatever is called after the first `Shutdown`, all stays given back. -/
theorem finish_spec {R : World → Prop} (count : ℕ) :
    Spec (At composed) (finish env {} count) (fun _ => Settled)
      (Unwound R fun s => Interrupted s.log) := by
  have hsettled : ∀ s, At (composed.left 0) s → Settled s := fun s hs =>
    settled_left (Or.inr rfl) (Nat.zero_le 1) hs
  have hlater : ∀ (count : ℕ) (impl : Impl), impl.shutdown = true →
      Spec (At (composed.left 0)) (finish env impl count) (fun _ => Settled)
        (Unwound R fun s => Interrupted s.log) := by
    intro count
    induction count with
    | zero =>
      intro impl hshut
      rw [finish, Impl.shutDown, if_pos hshut]
      exact hsettled
    | succ count ih =>
      intro impl hshut
      rw [finish, Impl.shutDown, if_pos hshut]
      exact ih impl hshut
  cases count with
  | zero => exact (shutDown_spec env).bind fun _ _ hs => hsettled _ hs.2
  | succ count => exact (shutDown_spec env).bind fun impl s hs => hlater count impl hs.1 s hs.2

/-- Whatever the library and the allocator answer : where `Connect` returns a session, that holds
both references; where it does not, and at the end of a session however often it was shut down, what
was obtained has been given back after the callbacks were quiesced, each reference once, and once
more if the text of the error could not be composed after that. Only `std::terminate`, when
`IOManager::Shutdown` throws, comes before it. -/
theorem lifetime_settled (config : PhysicalSdkConfig) (handler : Bool) (count : ℕ)
    (error : Option String) :
    Ends (connect env config handler { error := error }) Made
        (Unwound Settled fun s => Interrupted s.log) ∧
      Ends (lifetime env config handler count { error := error }) (fun _ => Settled)
        (Unwound Settled fun s => Interrupted s.log) := by
  refine ⟨connect_spec env config handler _ rfl, ?_⟩
  refine Spec.bind (connect_spec env config handler) (fun session => ?_) { error := error } rfl
  cases session with
  | none => exact fun _ hs => hs
  | some impl =>
    rintro s ⟨rfl, hs⟩
    exact finish_spec env count s hs

end Specifications

/-- `CreateSubscriber` returns null, and the text that says so cannot be composed. -/
def exhausted : Environment := fun _ call =>
  match call with
  | .createSubscriber => { null := true }
  | .allocate .nullSubscriber => { thrown := some (.standard "std::bad_alloc") }
  | .dlerror => { null := true }
  | _ => {}

example : (match connect exhausted ⟨"sdk", "server", "user", 1, 1, 10, 30, false, 1⟩ true {} with
    | .ok _ s => s.log.ledger.managerReleases
    | .error _ _ => 0) = 2 := by
  decide +kernel

end SdkSession

end L2Flow
