import L2Flow.IngestdAccounts

/-!
# The end of the daemon

`main` leaves its last loop when the owners have counted as many records of each kind as the lanes
have published. By then every worker has exited : it has dealt with all that was ever published for
its lane (`Traced`), it has flushed the recovery of the lane, and it has published and counted all
that it was given (`Rests`). So the counters that `main` compares are final, and by `Tallied` it
leaves when every ring is empty, and no sooner (`shutdown_complete`).
-/

namespace L2Flow

open SequenceRecovery (GapsTaken runWith emitted diverted faulted)

/-! ## The workers of the engine -/

namespace Admission

variable {cfg : AdmissionConfig} {threads stops : ℕ} {s s' : State cfg threads stops}
  {new : List (Event cfg threads)}

/-- Only the worker of a lane changes what it does next. -/
theorem workers_step {action : Action cfg threads stops} (h : step s action = some (s', new))
    {lane : Lane cfg} (hne : action ≠ .work lane) : s'.workers lane = s.workers lane := by
  cases action with
  | work other =>
    obtain ⟨-, ⟨worker, hworkers⟩, -⟩ := workStep_workers h
    rw [hworkers, Function.update_of_ne fun heq : lane = other => hne (congrArg _ heq.symm)]
  | start =>
    obtain ⟨t, hstart, heq⟩ := Option.map_eq_some_iff.1 h
    obtain ⟨rfl, -⟩ := Prod.mk.inj heq
    rw [(startStep_frame hstart).2.1]
  | resume thread =>
    obtain ⟨⟨call, stage⟩, -, heq⟩ := Option.map_eq_some_iff.1 h
    obtain ⟨next, hstepped⟩ := callStep_stepped s thread call stage
    rw [show s' = (callStep s thread call stage).1 from (congrArg Prod.fst heq).symm,
      hstepped.workers]
  | stop thread =>
    obtain ⟨stage, -, hmap⟩ := Option.bind_eq_some_iff.1 h
    obtain ⟨t, hstop, heq⟩ := Option.map_eq_some_iff.1 hmap
    obtain ⟨rfl, -⟩ := Prod.mk.inj heq
    rw [(stopStep_frame hstop).2.1]
  | call thread call =>
    rw [step] at h
    split at h
    · obtain ⟨rfl, -⟩ := Prod.mk.inj (Option.some.inj h)
      rfl
    · cases h
  | callStop thread =>
    rw [step] at h
    split at h
    · obtain ⟨rfl, -⟩ := Prod.mk.inj (Option.some.inj h)
      rfl
    · cases h
  | fatal lane =>
    rw [step] at h
    split at h <;> obtain ⟨rfl, -⟩ := Prod.mk.inj (Option.some.inj h) <;> rfl

/-- A worker that has found its ring empty after `running_` was cleared flushes, and exits. -/
theorem workStep_drained {lane : Lane cfg} (h : workStep s lane = some (s', new))
    (hdrained : (s'.workers lane).drained = true) :
    (s.workers lane = .stopping ∧ s'.workers lane = .flushing) ∨
      (s.workers lane = .flushing ∧ s'.workers lane = .exited) := by
  have hself : ∀ (t : State cfg threads stops) worker, (t.setWorker lane worker).workers lane =
      worker := fun t worker => Function.update_self ..
  rcases hworker : s.workers lane with - | index | ⟨index, metadata⟩ | - | - | - | - <;>
    rw [workStep, hworker] at h
  case exited => cases h
  all_goals
    obtain ⟨rfl, -⟩ := Prod.mk.inj (Option.some.inj h)
    rw [hself] at hdrained ⊢
  case polling =>
    rcases hpopped : (s.lanes lane).popReady.1 with - | index <;> rw [hpopped] at hdrained <;>
      cases hdrained
  case missed => split_ifs at hdrained <;> cases hdrained
  case stopping =>
    split_ifs at hdrained ⊢
    · exact Or.inl ⟨rfl, rfl⟩
    · cases hdrained
  case flushing => exact Or.inr ⟨rfl, rfl⟩
  all_goals cases hdrained

/-- Where the worker of a lane has exited, it has consumed all that was published for the lane. -/
theorem published_consumed {memory : (lane : Lane cfg) → LaneStorage lane.ring}
    {log : List (Event cfg threads)} {lane : Lane cfg}
    (h : (machine cfg threads stops memory).Reaches s log) (hexited : s.workers lane = .exited) :
    publishedOn lane log = consumedOn lane log := by
  obtain ⟨before, after, rfl, hall, hafter⟩ := (closing h).2.exited lane hexited
  have hlate : ∀ event ∈ Event.exited lane :: after, event.late lane = false :=
    List.forall_mem_cons.2 ⟨rfl, hafter⟩
  have hlast : consumedOn lane (.exited lane :: after) = [] := consumedOn_of_late hlate
  have hnone : publishedOn lane (.exited lane :: after) = [] := publishedOn_of_late hlate
  rw [publishedOn_append, consumedOn_append, hlast, hnone, hall]

end Admission

namespace Engine

variable {cfg : EngineConfig} {threads stops : ℕ} {s s' : State cfg threads stops}
  {log : List (Event cfg threads)}

/-- The messages that the worker of a lane has consumed and is done with. -/
def dealt (s : State cfg threads stops) (log : List (Event cfg threads))
    (lane : Lane cfg.admission) : List OwnedMessageView :=
  if s.tasks lane = .handle then (Admission.consumedOn lane (admissionLog log)).dropLast
  else Admission.consumedOn lane (admissionLog log)

/-- A step of admission hands a worker a message only where it is done with the last. -/
theorem Admitted.dealt {action : Admission.Action cfg.admission threads stops}
    {events : List (Admission.Event cfg.admission threads)} (h : Admitted s action s' events)
    (lane : Lane cfg.admission) :
    Engine.dealt s' (log ++ events.map Event.admission) lane = Engine.dealt s log lane := by
  unfold Engine.dealt
  rw [consumedOn_admission]
  rcases Admission.consumedOn_step h.step lane with
    ⟨hnone, hnot⟩ | ⟨hwork, ⟨slot, hpopped⟩, message, hmessage⟩
  · rw [hnone, List.append_nil]
    rcases h.tasks lane with ⟨-, hsame⟩ | ⟨hwork, hidle, hnext⟩
    · rw [hsame]
    · rw [if_neg (hnext ▸ nextTask_ne_handle _ (hnot hwork) _), if_neg (by simp [hidle])]
  · rcases h.tasks lane with ⟨hnot, -⟩ | ⟨-, hidle, hnext⟩
    · exact absurd hwork hnot
    · rw [hpopped, nextTask_popped] at hnext
      rw [hmessage, if_pos hnext, if_neg (by simp [hidle]), List.dropLast_concat]

end Engine

namespace Ingestd

variable {cfg : IngestdConfig} {threads stops : ℕ}

/-! ## Workers at rest -/

/-- The worker of the lane publishes records of the kind. -/
def publishes : Lane cfg.engine.admission → Kind → Bool
  | .tick _, .tick | .tick _, .late | .tick _, .fault => true
  | .snapshot _, .snapshot => true
  | _, _ => false

def indexOf : Lane cfg.engine.admission → ℕ
  | .tick index => index
  | .snapshot index => index

/-- The worker of a lane has published and counted all that it was given. -/
def Rests (s : State cfg threads stops) (lane : Lane cfg.engine.admission) : Prop :=
  ∀ kind, publishes lane kind = true →
    (queuesOf s kind).outboxes (indexOf lane) = [] ∧ s.uncounted kind (indexOf lane) = false

section Rests

variable {stopper : Fin stops} {memory : Memory cfg} {s s' : State cfg threads stops}
  {log new : List (Event cfg threads)} {lane : Lane cfg.engine.admission}

theorem rests_of_settled (hpublished : s.engine.published lane = true)
    (hsettled : s.settled lane = true) : Rests s lane := by
  intro kind hkind
  cases lane with
  | tick index =>
    obtain ⟨hcounted, hlates, hfaults⟩ := settled_tick hsettled
    obtain ⟨htick, hlate, hfault⟩ := counted_tick hcounted
    cases kind with
    | tick => exact ⟨List.isEmpty_iff.1 hpublished, htick⟩
    | snapshot => cases hkind
    | late => exact ⟨hlates, hlate⟩
    | fault => exact ⟨hfaults, hfault⟩
  | snapshot index =>
    cases kind with
    | snapshot =>
      have huncounted : s.uncounted .snapshot index = false := by
        simpa [State.settled, State.counted] using hsettled
      exact ⟨List.isEmpty_iff.1 hpublished, huncounted⟩
    | tick | late | fault => cases hkind

/-- A step that leaves the outboxes of a lane alone, and has nothing more for it to count. -/
theorem Rests.beside (h : Rests s lane)
    (houtboxes : ∀ kind, publishes lane kind = true → (queuesOf s' kind).outboxes (indexOf lane) =
      (queuesOf s kind).outboxes (indexOf lane))
    (huncounted : ∀ kind, publishes lane kind = true → s.uncounted kind (indexOf lane) = false →
      s'.uncounted kind (indexOf lane) = false) : Rests s' lane := fun kind hkind =>
  ⟨(houtboxes kind hkind).trans (h kind hkind).1, huncounted kind hkind (h kind hkind).2⟩

/-- Another lane publishes. -/
theorem Rests.spin (h : Rests s lane) (kind : Kind) {producer : ℕ}
    (hspin : (queuesOf s kind).spin (ownerOf cfg kind) producer = some (queuesOf s' kind))
    (hothers : ∀ other ≠ kind, queuesOf s' other = queuesOf s other) {published : Bool}
    (huncounted : s'.uncounted = Function.update s.uncounted kind
      (Function.update (s.uncounted kind) producer published)) : Rests s' lane := by
  have hapart : ∀ other, publishes lane other = true → other = kind → indexOf lane ≠ producer := by
    rintro other hother rfl rfl
    rw [QueueMatrix.spin, (h other hother).1] at hspin
    cases hspin
  refine h.beside (fun other hother => ?_) fun other hother hfalse => ?_
  · rcases eq_or_ne other kind with rfl | hne
    · exact (QueueMatrix.accepted_spin hspin).1 _ (hapart other hother rfl)
    · rw [hothers other hne]
  · rw [huncounted]
    rcases eq_or_ne other kind with rfl | hne
    · rw [Function.update_self, Function.update_of_ne (hapart other hother rfl)]
      exact hfalse
    · rw [Function.update_of_ne hne]
      exact hfalse

/-- What a worker is given to publish is its own. -/
theorem offer_outboxes_of_ne {α : Type} {shape : MatrixShape} {m : QueueMatrix α shape}
    {producer other : ℕ} (hne : other ≠ producer) (records : List (α × Bool)) :
    (m.offer producer records).outboxes other = m.outboxes other :=
  Function.update_of_ne hne ..

theorem Given.task_ne {s : Engine.State cfg.engine threads stops}
    {index : Fin cfg.engine.admission.tickDecoderLanes} {input : Option TickInput}
    (h : Given s index input) : s.tasks (.tick index) ≠ .none := by
  cases h <;> simp [*]

/-- The worker of a lane that has nothing to do, and has published all, gets nothing to publish. -/
theorem Rests.step (h : Rests s lane) (htask : s.engine.tasks lane = .none)
    (hmoves : Moves stopper s s' new) : Rests s' lane := by
  cases hmoves with
  | @admission action engine events settled step =>
    refine h.beside (fun kind _ => ?_) fun kind _ hfalse => hfalse
    cases kind with
    | tick => exact congrFun (congrArg QueueMatrix.outboxes step.ticks) _
    | snapshot => exact congrFun (congrArg QueueMatrix.outboxes step.snapshots) _
    | late => rfl
    | fault => rfl
  | @input index input answers trace engine settled turned =>
    refine h.beside (fun kind hkind => ?_) fun kind _ hfalse => hfalse
    cases lane with
    | tick other =>
      have hne : (other : ℕ) ≠ index := fun heq =>
        turned.given.task_ne (Fin.ext heq ▸ htask)
      cases kind with
      | tick =>
        show engine.ticks.outboxes other = _
        rw [turned.ticks]
        exact offer_outboxes_of_ne hne _
      | snapshot => cases hkind
      | late => exact offer_outboxes_of_ne hne _
      | fault => exact offer_outboxes_of_ne hne _
    | snapshot other =>
      cases kind with
      | snapshot => exact congrFun (congrArg QueueMatrix.outboxes turned.snapshots) _
      | tick | late | fault => cases hkind
  | @early index answers engine settled turned =>
    refine h.beside (fun kind hkind => ?_) fun kind _ hfalse => hfalse
    cases kind with
    | tick =>
      exact congrFun (congrArg QueueMatrix.outboxes (turned.ticks.trans (offer_nil turned.idle))) _
    | snapshot => exact congrFun (congrArg QueueMatrix.outboxes turned.snapshots) _
    | late => rfl
    | fault => rfl
  | @message index grows accepted message settled task held idle =>
    refine h.beside (fun kind hkind => ?_) fun kind _ hfalse => hfalse
    cases lane with
    | tick other =>
      cases kind with
      | snapshot => cases hkind
      | tick | late | fault => rfl
    | snapshot other =>
      have hne : (other : ℕ) ≠ index := by
        intro heq
        rw [Fin.ext heq, task] at htask
        cases htask
      cases kind with
      | snapshot => exact offer_outboxes_of_ne hne _
      | tick | late | fault => cases hkind
  | publishTick counted spin =>
    exact h.spin .tick spin
      (fun other hne => by cases other <;> first | exact absurd rfl hne | rfl) rfl
  | publishSnapshot counted spin =>
    exact h.spin .snapshot spin
      (fun other hne => by cases other <;> first | exact absurd rfl hne | rfl) rfl
  | publishLate counted spin =>
    exact h.spin .late spin
      (fun other hne => by cases other <;> first | exact absurd rfl hne | rfl) rfl
  | publishFault counted spin =>
    exact h.spin .fault spin
      (fun other hne => by cases other <;> first | exact absurd rfl hne | rfl) rfl
  | @count kind index uncounted =>
    refine h.beside (fun _ _ => rfl) fun other _ hfalse => ?_
    show Function.update s.uncounted kind (Function.update (s.uncounted kind) index false) other
      (indexOf lane) = false
    rcases eq_or_ne other kind with rfl | hne
    · rw [Function.update_self, Function.update_apply, hfalse, ite_self]
    · rw [Function.update_of_ne hne]
      exact hfalse
  | test stage => exact h
  | @poll owner kind s₁ events answer stage step =>
    have hpolls := polls_of_step step
    refine h.beside (fun other _ => ?_) fun other _ hfalse => ?_
    · show (queuesOf s₁ other).outboxes _ = _
      rcases eq_or_ne other kind with rfl | hne
      · rw [(QueueMatrix.pollStep_frame hpolls.step).1]
      · rw [(hpolls.others other hne).1]
    · have hsame : s₁.uncounted = s.uncounted := by rw [hpolls.frame]
      exact (congrFun (congrFun hsame other) _).trans hfalse
  | consume stage => exact h
  | main step =>
    obtain ⟨drainRunning, main, rfl⟩ := mainStep_frame step
    exact h

end Rests

/-! ## What the workers have dealt with -/

/-- The last input of a tick lane was a call of `Flush`. -/
def Flushed (log : List (Event cfg threads)) : Lane cfg.engine.admission → Prop
  | .tick index => ∃ now answers trace,
    (inputsOn index log).getLast? = some (.flush now, answers, trace)
  | .snapshot _ => True

/-- What the workers have dealt with is in the log. -/
structure Traced (memory : Memory cfg) (s : State cfg threads stops)
    (log : List (Event cfg threads)) : Prop where
  admission : (Admission.machine cfg.engine.admission threads stops memory.engine.lanes).Reaches
    s.engine.admission (Engine.admissionLog (engineLog log))
  recovery : ∀ index : Fin cfg.engine.admission.tickDecoderLanes,
    runWith cfg.engine.recovery (callsOn index log) =
      some ((s.engine.tickLanes index).recovery, traceOn index log)
  messages : ∀ index : Fin cfg.engine.admission.tickDecoderLanes,
    messagesOn index log = Engine.dealt s.engine (engineLog log) (.tick index)
  decoded : ∀ index : Fin cfg.engine.admission.snapshotDecoderLanes,
    (decodedOn index log).map (·.2.2) = Engine.dealt s.engine (engineLog log) (.snapshot index)
  winding : ∀ lane, (s.engine.admission.workers lane).drained = true →
    s.engine.tasks lane = .flush ∨ (s.engine.tasks lane = .none ∧ Flushed log lane)
  rested : ∀ lane, s.engine.admission.workers lane = .exited →
    s.engine.tasks lane = .none ∧ Rests s lane

/-- The gap mailboxes take every gap. -/
theorem gapsTaken_callsOn (index : ℕ) (log : List (Event cfg threads)) :
    GapsTaken (callsOn index log) := by
  intro c hc
  obtain ⟨given, -, hgiven⟩ := List.mem_filterMap.1 hc
  obtain ⟨call, -, rfl⟩ := Option.map_eq_some_iff.1 hgiven
  exact given.2.1.2

section Traced

variable {stopper : Fin stops} {memory : Memory cfg} {s s' : State cfg threads stops}
  {log new : List (Event cfg threads)} {lane : Lane cfg.engine.admission}

theorem traced_start : Traced memory (machine cfg threads stops stopper memory).start [] where
  admission := .start
  recovery _ := rfl
  messages _ := rfl
  decoded _ := rfl
  winding _ hdrained := by cases hdrained
  rested _ hexited := by cases hexited

/-- A step that no worker deals with anything in. -/
theorem Traced.beside (h : Traced memory s log)
    (hadmission : s'.engine.admission = s.engine.admission)
    (htasks : s'.engine.tasks = s.engine.tasks)
    (hrecovery : ∀ index, (s'.engine.tickLanes index).recovery =
      (s.engine.tickLanes index).recovery)
    (hlog : Engine.admissionLog (engineLog new) = []) (hinputs : ∀ index, inputsOn index new = [])
    (hdecoded : ∀ index, decodedOn index new = [])
    (hrests : ∀ lane, s.engine.tasks lane = .none → Rests s lane → Rests s' lane) :
    Traced memory s' (log ++ new) := by
  have hsame : Engine.admissionLog (engineLog (log ++ new)) =
      Engine.admissionLog (engineLog log) := by
    rw [engineLog_append, Engine.admissionLog_append, hlog, List.append_nil]
  have hinput : ∀ index, inputsOn index (log ++ new) = inputsOn index log := fun index => by
    rw [inputsOn_append, hinputs, List.append_nil]
  have hdealt : ∀ lane, Engine.dealt s'.engine (engineLog (log ++ new)) lane =
      Engine.dealt s.engine (engineLog log) lane := fun lane => by
    rw [Engine.dealt, Engine.dealt, htasks, hsame]
  refine ⟨?_, fun index => ?_, fun index => ?_, fun index => ?_, fun lane hdrained => ?_,
    fun lane hexited => ?_⟩
  · rw [hadmission, hsame]
    exact h.admission
  · rw [callsOn, traceOn, hinput, hrecovery]
    exact h.recovery index
  · rw [messagesOn, hinput, hdealt]
    exact h.messages index
  · rw [decodedOn_append, hdecoded, List.append_nil, hdealt]
    exact h.decoded index
  · rw [hadmission] at hdrained
    rw [htasks]
    refine (h.winding lane hdrained).imp_right fun hnone => ⟨hnone.1, ?_⟩
    cases lane with
    | tick index =>
      rw [Flushed, hinput]
      exact hnone.2
    | snapshot index => trivial
  · rw [hadmission] at hexited
    rw [htasks]
    obtain ⟨htask, hrest⟩ := h.rested lane hexited
    exact ⟨htask, hrests lane htask hrest⟩

/-- The message that a worker holds is the last that it has consumed. -/
theorem Traced.held (h : Traced memory s log) {message : OwnedMessageView}
    (hheld : s.engine.held lane = some message) :
    (Admission.consumedOn lane (Engine.admissionLog (engineLog log))).getLast? = some message := by
  obtain ⟨index, metadata, hworker, rfl⟩ := Engine.held_eq_some hheld
  exact (Admission.slotsKept h.admission).2.held hworker

/-- A step of the engine's threads. -/
theorem Traced.admitted (h : Traced memory s log)
    {action : Admission.Action cfg.engine.admission threads stops}
    {engine : Engine.State cfg.engine threads stops}
    {events : List (Admission.Event cfg.engine.admission threads)}
    (hsettled : ∀ lane, action = .work lane →
      s.engine.published lane = true ∧ s.settled lane = true)
    (hstep : Engine.Admitted s.engine action engine events)
    (hrests : ∀ lane, s.engine.tasks lane = .none → Rests s lane → Rests { s with engine } lane) :
    Traced memory { s with engine }
      (log ++ events.map fun event => .engine (.admission event)) := by
  have hmap : events.map (fun event => (.engine (.admission event) : Event cfg threads)) =
      (events.map .admission).map .engine := List.map_map.symm
  obtain ⟨hengine, -, -, hworkers⟩ := logs_engine
    (events.map .admission : List (Engine.Event cfg.engine threads))
  have hlog : engineLog (log ++ (events.map .admission).map .engine) =
      engineLog log ++ events.map .admission := by
    rw [engineLog_append]
    exact congrArg _ hengine
  have hinput : ∀ index, inputsOn index (log ++ (events.map .admission).map .engine) =
      inputsOn index log := fun index => by
    rw [inputsOn_append, (hworkers index).1, List.append_nil]
  rw [hmap]
  refine ⟨?_, fun index => ?_, fun index => ?_, fun index => ?_, fun lane hdrained => ?_,
    fun lane hexited => ?_⟩
  · have hadmission : Engine.admissionLog
        (events.map (Engine.Event.admission : _ → Engine.Event cfg.engine threads)) = events :=
      (Engine.logs_admission events).1
    rw [hlog, Engine.admissionLog_append, hadmission]
    exact h.admission.runFrom (Machine.runFrom_one.2 hstep.step)
  · rw [callsOn, traceOn, hinput]
    show _ = some ((engine.tickLanes index).recovery, _)
    rw [hstep.tickLanes]
    exact h.recovery index
  · rw [messagesOn, hinput, hlog]
    exact (h.messages index).trans (hstep.dealt (.tick index)).symm
  · rw [decodedOn_append, (hworkers index).2, List.append_nil, hlog]
    exact (h.decoded index).trans (hstep.dealt (.snapshot index)).symm
  · have hflushed : Flushed log lane →
        Flushed (log ++ (events.map .admission).map .engine) lane := by
      intro hlast
      cases lane with
      | tick index =>
        rw [Flushed, hinput]
        exact hlast
      | snapshot index => trivial
    rcases hstep.tasks lane with ⟨hne, hsame⟩ | ⟨rfl, hidle, hnext⟩
    · rw [hsame]
      rw [Admission.workers_step hstep.step hne] at hdrained
      exact (h.winding lane hdrained).imp_right fun hnone => ⟨hnone.1, hflushed hnone.2⟩
    · rw [hnext]
      rcases Admission.workStep_drained hstep.step hdrained with ⟨hbefore, hafter⟩ |
        ⟨hbefore, hafter⟩
      · rw [hbefore, hafter]
        cases lane with
        | tick index => exact Or.inl rfl
        | snapshot index => exact Or.inr ⟨rfl, trivial⟩
      · rw [hbefore, hafter]
        -- The task that the worker has done was to flush.
        rcases h.winding lane (by rw [hbefore]; rfl) with hflush | ⟨-, hlast⟩
        · rw [hidle] at hflush
          cases hflush
        · refine Or.inr ⟨?_, hflushed hlast⟩
          cases lane <;> rfl
  · rcases hstep.tasks lane with ⟨hne, hsame⟩ | ⟨rfl, hidle, hnext⟩
    · rw [Admission.workers_step hstep.step hne] at hexited
      obtain ⟨htask, hrest⟩ := h.rested lane hexited
      exact ⟨hsame.trans htask, hrests lane htask hrest⟩
    · obtain ⟨hpublished, hcounted⟩ := hsettled lane rfl
      refine ⟨?_, hrests lane hidle (rests_of_settled hpublished hcounted)⟩
      rcases Admission.workStep_drained hstep.step (by rw [hexited]; rfl) with
        ⟨-, hafter⟩ | ⟨hbefore, hafter⟩
      · rw [hexited] at hafter
        cases hafter
      · rw [hnext, hbefore, hafter]
        cases lane <;> rfl

/-- The worker of a tick lane has done its task. -/
theorem Traced.turned (h : Traced memory s log)
    {index : Fin cfg.engine.admission.tickDecoderLanes} {input : Option TickInput}
    {answers : Engine.Answers} {trace : Trace} {engine : Engine.State cfg.engine threads stops}
    (hturned : Turned s.engine engine index input answers trace) (hengine : s'.engine = engine)
    (hlog : Engine.admissionLog (engineLog new) = [])
    (hinputs : ∀ other, inputsOn other new =
      if index.val = other then (input.map (·, answers, trace)).toList else [])
    (hdecoded : ∀ other, decodedOn other new = [])
    (hrests : ∀ lane, s.engine.tasks lane = .none → Rests s lane → Rests s' lane) :
    Traced memory s' (log ++ new) := by
  subst hengine
  have hsame : Engine.admissionLog (engineLog (log ++ new)) =
      Engine.admissionLog (engineLog log) := by
    rw [engineLog_append, Engine.admissionLog_append, hlog, List.append_nil]
  have hothers : ∀ other : Fin cfg.engine.admission.tickDecoderLanes, other ≠ index →
      inputsOn other (log ++ new) = inputsOn other log := fun other hne => by
    rw [inputsOn_append, hinputs, if_neg fun heq => hne (Fin.ext heq.symm), List.append_nil]
  have hown : inputsOn index (log ++ new) =
      inputsOn index log ++ (input.map (·, answers, trace)).toList := by
    rw [inputsOn_append, hinputs, if_pos rfl]
  have htasks : ∀ lane, lane ≠ .tick index → s'.engine.tasks lane = s.engine.tasks lane :=
    fun lane hne => by rw [hturned.tasks, Function.update_of_ne hne]
  have htask : s'.engine.tasks (.tick index) = .none := by
    rw [hturned.tasks, Function.update_self]
  have hdealt : ∀ lane, lane ≠ .tick index →
      Engine.dealt s'.engine (engineLog (log ++ new)) lane =
        Engine.dealt s.engine (engineLog log) lane := fun lane hne => by
    rw [Engine.dealt, Engine.dealt, htasks lane hne, hsame]
  refine ⟨?_, fun other => ?_, fun other => ?_, fun other => ?_, fun lane hdrained => ?_,
    fun lane hexited => ?_⟩
  · rw [hturned.admission, hsame]
    exact h.admission
  · rcases eq_or_ne other index with rfl | hne
    · have hbefore := h.recovery other
      have hstep := hturned.recovery
      rw [callsOn, traceOn, hown, List.filterMap_append, List.flatMap_append, ← callsOn, ← traceOn]
      rw [recovered] at hstep
      rcases input with - | input
      · obtain ⟨hsame, -⟩ := Prod.mk.inj (Option.some.inj hstep)
        rw [← hsame]
        simpa using hbefore
      · rw [Option.bind_some] at hstep
        rcases hcall : cfg.call? input with - | call <;> rw [hcall] at hstep
        · obtain ⟨hsame, rfl⟩ := Prod.mk.inj (Option.some.inj hstep)
          rw [← hsame]
          simpa [hcall] using hbefore
        · simpa [hcall] using SequenceRecovery.runWith_snoc.2 ⟨_, _, trace, hbefore, hstep, rfl⟩
    · rw [callsOn, traceOn, hothers other hne, hturned.others other hne]
      exact h.recovery other
  · rcases eq_or_ne other index with rfl | hne
    · have hnot : Engine.Task.none ≠ .handle := by simp
      rw [messagesOn, hown, List.filterMap_append, ← messagesOn, h.messages, Engine.dealt,
        Engine.dealt, htask, if_neg hnot, hsame]
      cases hturned.given with
      | message hhandle hheld =>
        rw [if_pos hhandle]
        exact List.dropLast_append_getLast? _ (h.held hheld)
      | due hscan => simp [hscan]
      | early hscan => simp [hscan]
      | last hflush => simp [hflush]
    · rw [messagesOn, hothers other hne, hdealt _ fun heq => hne (Lane.tick.inj heq)]
      exact h.messages other
  · rw [decodedOn_append, hdecoded, List.append_nil, hdealt _ (by simp)]
    exact h.decoded other
  · rw [hturned.admission] at hdrained
    rcases eq_or_ne lane (.tick index) with rfl | hne
    · refine Or.inr ⟨htask, ?_⟩
      rcases h.winding _ hdrained with hflush | ⟨hnone, -⟩
      · cases hturned.given with
        | @last now _ =>
          refine ⟨now, answers, trace, ?_⟩
          rw [hown]
          exact List.getLast?_concat
        | message hhandle _ => cases hflush.symm.trans hhandle
        | due hscan => cases hflush.symm.trans hscan
        | early hscan => cases hflush.symm.trans hscan
      · exact absurd hnone hturned.given.task_ne
    · rw [htasks lane hne]
      refine (h.winding lane hdrained).imp_right fun hnone => ⟨hnone.1, ?_⟩
      cases lane with
      | tick other =>
        rw [Flushed, hothers other fun heq => hne (congrArg _ heq)]
        exact hnone.2
      | snapshot other => trivial
  · rw [hturned.admission] at hexited
    obtain ⟨hnone, hrest⟩ := h.rested lane hexited
    rcases eq_or_ne lane (.tick index) with rfl | hne
    · exact absurd hnone hturned.given.task_ne
    · exact ⟨(htasks lane hne).trans hnone, hrests lane hnone hrest⟩

/-- The worker of a snapshot lane is done with the message that it holds. -/
theorem Traced.message (h : Traced memory s log)
    {index : Fin cfg.engine.admission.snapshotDecoderLanes} {grows : ℕ → Bool} {accepted : Bool}
    {message : OwnedMessageView} (hhandle : s.engine.tasks (.snapshot index) = .handle)
    (hheld : s.engine.held (.snapshot index) = some message)
    (hadmission : s'.engine.admission = s.engine.admission)
    (htasks : s'.engine.tasks = Function.update s.engine.tasks (.snapshot index) .none)
    (hlanes : s'.engine.tickLanes = s.engine.tickLanes)
    (hrests : ∀ lane, s.engine.tasks lane = .none → Rests s lane → Rests s' lane) :
    Traced memory s' (log ++ [.message index grows accepted message]) := by
  have hsame : Engine.admissionLog (engineLog (log ++ [.message index grows accepted message])) =
      Engine.admissionLog (engineLog log) := by
    rw [engineLog_append, Engine.admissionLog_append]
    exact List.append_nil _
  have hinput : ∀ other, inputsOn other (log ++ [.message index grows accepted message]) =
      inputsOn other log := fun other => by
    rw [inputsOn_append]
    exact List.append_nil _
  have hothers : ∀ lane, lane ≠ .snapshot index →
      s'.engine.tasks lane = s.engine.tasks lane := fun lane hne => by
    rw [htasks, Function.update_of_ne hne]
  have hdealt : ∀ lane, lane ≠ .snapshot index →
      Engine.dealt s'.engine (engineLog (log ++ [.message index grows accepted message])) lane =
        Engine.dealt s.engine (engineLog log) lane := fun lane hne => by
    rw [Engine.dealt, Engine.dealt, hothers lane hne, hsame]
  have hnot : Engine.Task.none ≠ .handle := by simp
  refine ⟨?_, fun other => ?_, fun other => ?_, fun other => ?_, fun lane hdrained => ?_,
    fun lane hexited => ?_⟩
  · rw [hadmission, hsame]
    exact h.admission
  · rw [callsOn, traceOn, hinput, hlanes]
    exact h.recovery other
  · rw [messagesOn, hinput, hdealt _ (by simp)]
    exact h.messages other
  · rw [decodedOn_append, decodedOn_message, List.map_append, h.decoded]
    rcases eq_or_ne other index with rfl | hne
    · rw [if_pos rfl, Engine.dealt, Engine.dealt, htasks, Function.update_self, if_neg hnot,
        hsame, if_pos hhandle]
      exact List.dropLast_append_getLast? _ (h.held hheld)
    · rw [if_neg fun heq => hne (Fin.ext heq.symm),
        hdealt _ fun heq => hne (Lane.snapshot.inj heq)]
      exact List.append_nil _
  · rw [hadmission] at hdrained
    rcases eq_or_ne lane (.snapshot index) with rfl | hne
    · rw [htasks, Function.update_self]
      exact Or.inr ⟨rfl, trivial⟩
    · rw [hothers lane hne]
      refine (h.winding lane hdrained).imp_right fun hnone => ⟨hnone.1, ?_⟩
      cases lane with
      | tick other =>
        rw [Flushed, hinput]
        exact hnone.2
      | snapshot other => trivial
  · rw [hadmission] at hexited
    obtain ⟨hnone, hrest⟩ := h.rested lane hexited
    rcases eq_or_ne lane (.snapshot index) with rfl | hne
    · cases hnone.symm.trans hhandle
    · exact ⟨(hothers lane hne).trans hnone, hrests lane hnone hrest⟩

theorem traced_step (h : Traced memory s log) (hmoves : Moves stopper s s' new) :
    Traced memory s' (log ++ new) := by
  have hrests : ∀ lane, s.engine.tasks lane = .none → Rests s lane → Rests s' lane :=
    fun lane htask hrest => hrest.step htask hmoves
  cases hmoves with
  | admission settled step => exact h.admitted settled step hrests
  | input settled turned =>
    exact h.turned turned rfl rfl (inputsOn_input _ _ _ _) (fun _ => rfl) hrests
  | early settled turned =>
    exact h.turned turned rfl rfl (fun _ => (ite_self _).symm) (fun _ => rfl) hrests
  | message settled task held idle => exact h.message task held rfl rfl rfl hrests
  | publishTick counted spin =>
    exact h.beside rfl rfl (fun _ => rfl) rfl (fun _ => rfl) (fun _ => rfl) hrests
  | publishSnapshot counted spin =>
    exact h.beside rfl rfl (fun _ => rfl) rfl (fun _ => rfl) (fun _ => rfl) hrests
  | publishLate counted spin =>
    exact h.beside rfl rfl (fun _ => rfl) rfl (fun _ => rfl) (fun _ => rfl) hrests
  | publishFault counted spin =>
    exact h.beside rfl rfl (fun _ => rfl) rfl (fun _ => rfl) (fun _ => rfl) hrests
  | count uncounted =>
    exact h.beside rfl rfl (fun _ => rfl) rfl (fun _ => rfl) (fun _ => rfl) hrests
  | test stage => exact h.beside rfl rfl (fun _ => rfl) rfl (fun _ => rfl) (fun _ => rfl) hrests
  | @poll owner kind s₁ events answer stage step =>
    have hpolls := polls_of_step step
    have hengine : s₁.engine.admission = s.engine.admission ∧
        s₁.engine.tasks = s.engine.tasks ∧ s₁.engine.tickLanes = s.engine.tickLanes := by
      rw [hpolls.frame]
      exact ⟨rfl, rfl, rfl⟩
    obtain ⟨hadmission, htasks, hlanes⟩ := hengine
    exact h.beside hadmission htasks (fun index => by rw [← hlanes]; rfl) hpolls.admission
      hpolls.inputs hpolls.decoded hrests
  | consume stage => exact h.beside rfl rfl (fun _ => rfl) rfl (fun _ => rfl) (fun _ => rfl) hrests
  | main step =>
    obtain ⟨drainRunning, main, rfl⟩ := mainStep_frame step
    exact h.beside rfl rfl (fun _ => rfl) rfl (fun _ => rfl) (fun _ => rfl) hrests

theorem traced (h : (machine cfg threads stops stopper memory).Reaches s log) :
    Traced memory s log :=
  Machine.invariant traced_start (fun h hstep => traced_step h (moves_of_step hstep)) h

end Traced

/-! ## The main thread -/

/-- `main` has joined the workers, and there was a session. -/
def MainStage.joined : MainStage → Bool
  | .reading | .comparing _ _ | .drained | .joining | .exited => true
  | _ => false

/-- `main` has left the loop that compares the counters. -/
def MainStage.done : MainStage → Bool
  | .drained | .joining | .exited => true
  | _ => false

/-- There was no session. -/
def MainStage.unconnected : MainStage → Bool
  | .refused | .abandoning | .halting | .failed => true
  | _ => false

theorem MainStage.joined_of_done {main : MainStage} (h : main.done = true) :
    main.joined = true := by
  cases main <;> first | rfl | cases h

/-- The order in which `main` ends the others. -/
structure Leaving (s : State cfg threads stops) : Prop where
  exited : s.main.joined = true → ∀ lane, s.engine.admission.workers lane = .exited
  compared : ∀ dispatched rest, s.main = .comparing dispatched rest →
    dispatched = stats s ∧ ∀ kind ∉ rest, stats s kind ≤ s.consumed kind
  done : s.main.done = true → ∀ kind, stats s kind ≤ s.consumed kind
  running : s.drainRunning = false → s.main.done = true ∨ s.main.unconnected = true
  drains : ∀ owner, s.drains owner = .exited → s.drainRunning = false

section Leaving

variable {stopper : Fin stops} {memory : Memory cfg} {s s' : State cfg threads stops}
  {log new : List (Event cfg threads)}

theorem leaving_start : Leaving (machine cfg threads stops stopper memory).start where
  exited h := by cases h
  compared _ _ h := by cases h
  done h := by cases h
  running h := by cases h
  drains _ h := by cases h

theorem exited_of_joined (h : s.joined = true) (lane : Lane cfg.engine.admission) :
    s.engine.admission.workers lane = .exited := by
  rw [State.joined, Bool.and_eq_true_iff] at h
  obtain ⟨hticks, hsnapshots⟩ := h
  cases lane with
  | tick index =>
    exact of_decide_eq_true (List.all_eq_true.1 hticks index (List.mem_finRange index))
  | snapshot index =>
    exact of_decide_eq_true (List.all_eq_true.1 hsnapshots index (List.mem_finRange index))

/-- The lane of a producer. -/
theorem exists_lane {kind : Kind} {producer : ℕ} (h : producer < producers cfg kind) :
    ∃ lane : Lane cfg.engine.admission, publishes lane kind = true ∧ indexOf lane = producer := by
  cases kind with
  | snapshot => exact ⟨.snapshot ⟨producer, h⟩, rfl, rfl⟩
  | tick | late | fault => exact ⟨.tick ⟨producer, h⟩, rfl, rfl⟩

/-- Where every worker has exited, the counters of the lanes are final. -/
theorem stats_count (hrests : ∀ lane, Rests s lane) {kind : Kind} {index : ℕ}
    (huncounted : s.uncounted kind index = true) (dispatched : ℕ) :
    stats { s with
      dispatched := Function.update s.dispatched kind
        (Function.update (s.dispatched kind) index dispatched) } = stats s := by
  have hrange : producers cfg kind ≤ index := by
    by_contra hlt
    obtain ⟨lane, hkind, hindex⟩ := exists_lane (Nat.lt_of_not_le hlt)
    rw [← hindex, (hrests lane kind hkind).2] at huncounted
    cases huncounted
  funext other
  refine congrArg List.sum (List.map_congr_left fun producer hproducer => ?_)
  show Function.update s.dispatched kind _ other producer = _
  rcases eq_or_ne other kind with rfl | hne
  · rw [Function.update_self, Function.update_of_ne]
    exact ((List.mem_range.1 hproducer).trans_le hrange).ne
  · rw [Function.update_of_ne hne]

/-- What a step of another thread leaves to `main`. -/
structure Beside (s s' : State cfg threads stops) : Prop where
  main : s'.main = s.main
  running : s'.drainRunning = s.drainRunning
  exited : ∀ lane, s.engine.admission.workers lane = .exited →
    s'.engine.admission.workers lane = .exited
  stats : (∀ lane, Rests s lane) → Ingestd.stats s' = Ingestd.stats s
  consumed : ∀ kind, s.consumed kind ≤ s'.consumed kind
  drains : ∀ owner, s'.drains owner = .exited → s.drains owner = .exited ∨ s.drainRunning = false

theorem Beside.of_engine (hmain : s'.main = s.main) (hrunning : s'.drainRunning = s.drainRunning)
    (hadmission : s'.engine.admission = s.engine.admission)
    (hdispatched : s'.dispatched = s.dispatched) (hconsumed : s'.consumed = s.consumed)
    (hdrains : s'.drains = s.drains) : Beside s s' where
  main := hmain
  running := hrunning
  exited lane h := hadmission ▸ h
  stats _ := by unfold Ingestd.stats; rw [hdispatched]
  consumed kind := by rw [hconsumed]
  drains owner h := Or.inl (hdrains ▸ h)

theorem drains_setDrain {owner : Fin cfg.engine.instrumentWorkers} {stage : DrainStage}
    (hstage : stage = .exited → s.drainRunning = false) (other : Fin cfg.engine.instrumentWorkers)
    (h : (s.setDrain owner stage).drains other = .exited) :
    s.drains other = .exited ∨ s.drainRunning = false := by
  rw [State.setDrain] at h
  dsimp only at h
  rcases eq_or_ne other owner with rfl | hne
  · rw [Function.update_self] at h
    exact Or.inr (hstage h)
  · rw [Function.update_of_ne hne] at h
    exact Or.inl h

theorem after_ne_exited (owner : ℕ) (kind : Kind) (answer : Option Bool) :
    DrainStage.after owner kind answer ≠ .exited := by
  rcases answer with - | - | -
  · simp [DrainStage.after]
  · cases kind <;> simp [DrainStage.after, DrainStage.next]
    split_ifs <;> simp
  · simp [DrainStage.after]

/-- A step is one of `main`, or beside it. -/
theorem Moves.main_or_beside (hmoves : Moves stopper s s' new) :
    (∃ connected, mainStep stopper s connected = some s') ∨ Beside s s' := by
  cases hmoves with
  | main step => exact Or.inl ⟨_, step⟩
  | @admission action engine events settled step =>
    refine Or.inr ⟨rfl, rfl, fun lane hexited => ?_, fun _ => rfl, fun _ => le_rfl,
      fun _ h => Or.inl h⟩
    show engine.admission.workers lane = .exited
    by_cases hwork : action = .work lane
    · subst hwork
      exact absurd hexited (Admission.workStep_workers step.step).1
    · exact (Admission.workers_step step.step hwork).trans hexited
  | input settled turned => exact Or.inr (.of_engine rfl rfl turned.admission rfl rfl rfl)
  | early settled turned => exact Or.inr (.of_engine rfl rfl turned.admission rfl rfl rfl)
  | message settled task held idle => exact Or.inr (.of_engine rfl rfl rfl rfl rfl rfl)
  | publishTick counted spin => exact Or.inr (.of_engine rfl rfl rfl rfl rfl rfl)
  | publishSnapshot counted spin => exact Or.inr (.of_engine rfl rfl rfl rfl rfl rfl)
  | publishLate counted spin => exact Or.inr (.of_engine rfl rfl rfl rfl rfl rfl)
  | publishFault counted spin => exact Or.inr (.of_engine rfl rfl rfl rfl rfl rfl)
  | count uncounted =>
    exact Or.inr ⟨rfl, rfl, fun _ h => h, fun hrests => stats_count hrests uncounted _,
      fun _ => le_rfl, fun _ h => Or.inl h⟩
  | test stage =>
    refine Or.inr ⟨rfl, rfl, fun _ h => h, fun _ => rfl, fun _ => le_rfl,
      drains_setDrain fun hexited => ?_⟩
    split_ifs at hexited with hrunning
    exact Bool.eq_false_of_not_eq_true hrunning
  | @poll owner kind s₁ events answer stage step =>
    have hpolls := polls_of_step step
    have hsame : Beside s s₁ := by
      rw [hpolls.frame]
      exact .of_engine rfl rfl rfl rfl rfl rfl
    refine Or.inr ⟨hsame.main, hsame.running, hsame.exited, hsame.stats, hsame.consumed,
      fun other hexited => ?_⟩
    rcases drains_setDrain (fun heq => absurd heq (after_ne_exited owner kind answer)) other
      hexited with hbefore | hrunning
    · exact hsame.drains other hbefore
    · exact Or.inr (hsame.running ▸ hrunning)
  | @consume owner kind stage =>
    refine Or.inr ⟨rfl, rfl, fun _ h => h, fun _ => rfl, fun other => ?_,
      drains_setDrain fun heq => by cases heq⟩
    show _ ≤ Function.update s.consumed kind (s.consumed kind + 1) other
    rcases eq_or_ne other kind with rfl | hne
    · rw [Function.update_self]
      exact Nat.le_succ _
    · rw [Function.update_of_ne hne]

/-- `main` has not joined the workers. -/
theorem leaving_of_unjoined {drainRunning : Bool} {main : MainStage} (hmain : main.joined = false)
    (hrunning : drainRunning = false → main.unconnected = true)
    (hdrains : ∀ owner, s.drains owner = .exited → drainRunning = false) :
    Leaving { s with drainRunning, main } where
  exited h := by cases hmain.symm.trans h
  compared dispatched rest h := by
    obtain rfl : main = .comparing dispatched rest := h
    cases hmain
  done h := by cases hmain.symm.trans (MainStage.joined_of_done h)
  running h := Or.inr (hrunning h)
  drains := hdrains

/-- `main` has joined the workers, and is not in the middle of comparing. -/
theorem leaving_of_joined {drainRunning : Bool} {main : MainStage}
    (hexited : ∀ lane, s.engine.admission.workers lane = .exited)
    (hmain : ∀ dispatched rest, main ≠ .comparing dispatched rest)
    (hdone : main.done = true → ∀ kind, stats s kind ≤ s.consumed kind)
    (hrunning : drainRunning = false → main.done = true)
    (hdrains : ∀ owner, s.drains owner = .exited → drainRunning = false) :
    Leaving { s with drainRunning, main } where
  exited _ := hexited
  compared dispatched rest h := absurd h (hmain dispatched rest)
  done := hdone
  running h := Or.inl (hrunning h)
  drains := hdrains

theorem Leaving.drainRunning (h : Leaving s) (hdone : s.main.done = false)
    (hunconnected : s.main.unconnected = false) {p : Prop}
    (hfalse : s.drainRunning = false) : p := by
  rcases h.running hfalse with htrue | htrue
  · cases hdone.symm.trans htrue
  · cases hunconnected.symm.trans htrue

/-- A step of `main`. -/
theorem Leaving.main (h : Leaving s) {connected : Bool}
    (hstep : mainStep stopper s connected = some s') : Leaving s' := by
  rw [mainStep] at hstep
  split at hstep
  case h_1 hmain =>
    obtain rfl := Option.some.inj hstep
    cases connected with
    | false => exact leaving_of_unjoined rfl (fun _ => rfl) h.drains
    | true =>
      exact leaving_of_unjoined rfl (h.drainRunning (by rw [hmain]; rfl) (by rw [hmain]; rfl))
        h.drains
  case h_2 hmain =>
    obtain rfl := Option.some.inj hstep
    exact leaving_of_unjoined rfl (h.drainRunning (by rw [hmain]; rfl) (by rw [hmain]; rfl))
      h.drains
  case h_3 hmain =>
    split_ifs at hstep with hstopped
    obtain rfl := Option.some.inj hstep
    exact leaving_of_joined (exited_of_joined hstopped.2) (by simp) (fun hdone => by cases hdone)
      (h.drainRunning (by rw [hmain]; rfl) (by rw [hmain]; rfl)) h.drains
  case h_4 hmain =>
    obtain rfl := Option.some.inj hstep
    refine ⟨fun _ => h.exited (hmain ▸ rfl), fun dispatched rest heq => ?_,
      fun hdone => (by cases hdone), h.drainRunning (by rw [hmain]; rfl) (by rw [hmain]; rfl),
      h.drains⟩
    obtain ⟨rfl, rfl⟩ := MainStage.comparing.inj heq
    refine ⟨rfl, fun kind hkind => absurd ?_ hkind⟩
    cases kind <;> decide
  case h_5 dispatched kind rest hmain =>
    obtain rfl := Option.some.inj hstep
    obtain ⟨hdispatched, hcompared⟩ := h.compared _ _ hmain
    have hexited := h.exited (hmain ▸ rfl)
    split_ifs with hle
    · refine ⟨fun _ => hexited, fun dispatched' rest' heq => ?_, fun hdone => (by cases hdone),
        h.drainRunning (by rw [hmain]; rfl) (by rw [hmain]; rfl), h.drains⟩
      obtain ⟨rfl, rfl⟩ := MainStage.comparing.inj heq
      refine ⟨hdispatched, fun other hother => ?_⟩
      rcases eq_or_ne other kind with rfl | hne
      · exact hdispatched ▸ hle
      · exact hcompared other fun hmem => (List.mem_cons.1 hmem).elim hne hother
    · exact leaving_of_joined hexited (by simp) (fun hdone => by cases hdone)
        (h.drainRunning (by rw [hmain]; rfl) (by rw [hmain]; rfl)) h.drains
  case h_6 dispatched hmain =>
    obtain rfl := Option.some.inj hstep
    obtain ⟨-, hcompared⟩ := h.compared _ _ hmain
    exact leaving_of_joined (h.exited (hmain ▸ rfl)) (by simp)
      (fun _ kind => hcompared kind List.not_mem_nil) (fun _ => rfl) h.drains
  case h_7 hmain =>
    obtain rfl := Option.some.inj hstep
    exact leaving_of_joined (h.exited (hmain ▸ rfl)) (by simp) (fun _ => h.done (hmain ▸ rfl))
      (fun _ => rfl) fun _ _ => rfl
  case h_8 hmain =>
    split_ifs at hstep
    obtain rfl := Option.some.inj hstep
    exact leaving_of_joined (h.exited (hmain ▸ rfl)) (by simp) (fun _ => h.done (hmain ▸ rfl))
      (fun _ => rfl) h.drains
  case h_9 hmain =>
    obtain rfl := Option.some.inj hstep
    exact leaving_of_unjoined rfl (fun _ => rfl) fun _ _ => rfl
  case h_10 hmain =>
    split_ifs at hstep
    obtain rfl := Option.some.inj hstep
    exact leaving_of_unjoined rfl (fun _ => rfl) h.drains
  case h_11 hmain =>
    split_ifs at hstep
    obtain rfl := Option.some.inj hstep
    exact leaving_of_unjoined rfl (fun _ => rfl) h.drains
  case h_12 => cases hstep
  case h_13 => cases hstep

/-- A step beside `main`. -/
theorem Leaving.beside (h : Leaving s) (htraced : Traced memory s log) (hbeside : Beside s s') :
    Leaving s' := by
  have hstats : s.main.joined = true → stats s' = stats s := fun hjoined =>
    hbeside.stats fun lane => (htraced.rested lane (h.exited hjoined lane)).2
  refine ⟨fun hjoined lane => ?_, fun dispatched rest hmain => ?_, fun hdone kind => ?_, ?_,
    fun owner hexited => ?_⟩
  · rw [hbeside.main] at hjoined
    exact hbeside.exited lane (h.exited hjoined lane)
  · rw [hbeside.main] at hmain
    obtain ⟨hdispatched, hcompared⟩ := h.compared dispatched rest hmain
    rw [hstats (hmain ▸ rfl)]
    exact ⟨hdispatched, fun kind hkind => (hcompared kind hkind).trans (hbeside.consumed kind)⟩
  · rw [hbeside.main] at hdone
    rw [hstats (MainStage.joined_of_done hdone)]
    exact (h.done hdone kind).trans (hbeside.consumed kind)
  · rw [hbeside.running, hbeside.main]
    exact h.running
  · rw [hbeside.running]
    exact (hbeside.drains owner hexited).elim (h.drains owner) id

theorem leaving (h : (machine cfg threads stops stopper memory).Reaches s log) : Leaving s := by
  refine (Machine.invariant (I := fun s log => Traced memory s log ∧ Leaving s)
    ⟨traced_start, leaving_start⟩ (fun {s log action s' new} hkept hstep => ?_) h).2
  obtain ⟨htraced, hleaving⟩ := hkept
  have hmoves := moves_of_step hstep
  refine ⟨traced_step htraced hmoves, ?_⟩
  rcases hmoves.main_or_beside with ⟨connected, hmain⟩ | hbeside
  · exact hleaving.main hmain
  · exact hleaving.beside htraced hbeside

theorem contents_of_waiting {α : Type} {shape : MatrixShape} {m : QueueMatrix α shape}
    (h : m.waiting = 0) {producer owner : ℕ} (hproducer : producer < shape.producers)
    (howner : owner < shape.owners) :
    (m.queues (QueueMatrix.place shape producer owner)).contents = [] := by
  have hlane := Finset.sum_eq_zero_iff.1 h producer (Finset.mem_range.2 hproducer)
  exact List.length_eq_zero_iff.1 (Finset.sum_eq_zero_iff.1 hlane owner (Finset.mem_range.2 howner))

/-- The recovery of a lane that was flushed last retains nothing. -/
theorem retained_of_flushed {index : Fin cfg.engine.admission.tickDecoderLanes}
    (hflushed : Flushed log (.tick index)) {lane : SequenceRecovery cfg.engine.recovery}
    {trace : Trace} (hrun : runWith cfg.engine.recovery (callsOn index log) = some (lane, trace))
    {key : ChannelKey} {state : ChannelState cfg.engine.recovery}
    (hstate : lane.stateOf key = some state) (hlive : state.frozen = false) :
    ∀ slot, slot ∉ state.pending := by
  obtain ⟨now, answers, added, hlast⟩ := hflushed
  obtain ⟨before, hinputs⟩ := List.getLast?_eq_some_iff.1 hlast
  have hcalls : callsOn index log =
      (before.filterMap fun given => (cfg.call? given.1).map (·, given.2.1.1)) ++
        [(.flush now, answers.1)] := by
    rw [callsOn, hinputs, List.filterMap_append]
    rfl
  have hgaps := gapsTaken_callsOn index log
  rw [hcalls] at hrun hgaps
  obtain ⟨earlier, trace', added', hbefore, hstep, -⟩ := SequenceRecovery.runWith_snoc.1 hrun
  exact SequenceRecovery.pending_of_flush answers.2
    (SequenceRecovery.valid_of_runWith hgaps.left hbefore) hstep hstate hlive

/-- Where `main` has left its last loop, every worker has exited and has dealt with all that was
ever published for its lane; the recoveries have been flushed, and retain nothing for a channel
that is not frozen; and whatever kind of records a lane was given to publish, and the rings to take,
the owners have polled it, each what is his and in order, and have counted it. -/
theorem shutdown_complete (h : (machine cfg threads stops stopper memory).Reaches s log)
    (hdone : s.main.done = true) :
    (∀ lane, s.engine.admission.workers lane = .exited) ∧
      (∀ index : Fin cfg.engine.admission.tickDecoderLanes, messagesOn index log =
        Admission.publishedOn (.tick index) (Engine.admissionLog (engineLog log))) ∧
      (∀ index : Fin cfg.engine.admission.snapshotDecoderLanes,
        (decodedOn index log).map (·.2.2) =
          Admission.publishedOn (.snapshot index) (Engine.admissionLog (engineLog log))) ∧
      (∀ index : Fin cfg.engine.admission.tickDecoderLanes, ∃ lane,
        runWith cfg.engine.recovery (callsOn index log) = some (lane, traceOn index log) ∧
          ∀ key state, lane.stateOf key = some state → state.frozen = false →
            ∀ slot, slot ∉ state.pending) ∧
      ∀ kind, s.consumed kind = stats s kind ∧ ∀ producer < producers cfg kind,
        ∀ owner < (shapeOf cfg kind).owners,
          QueueMatrix.polledFrom producer owner (polledOf log kind) =
            QueueMatrix.ownedBy (ownerOf cfg kind) owner (sentOn kind log producer) := by
  have htraced := traced h
  have hleaving := leaving h
  have hexited := hleaving.exited (MainStage.joined_of_done hdone)
  have hidle : ∀ lane, s.engine.tasks lane = .none ∧ Rests s lane := fun lane =>
    htraced.rested lane (hexited lane)
  have hdealt : ∀ lane, Engine.dealt s.engine (engineLog log) lane =
      Admission.publishedOn lane (Engine.admissionLog (engineLog log)) := by
    intro lane
    have hnot : s.engine.tasks lane ≠ .handle := by simp [(hidle lane).1]
    rw [Engine.dealt, if_neg hnot]
    exact (Admission.published_consumed htraced.admission (hexited lane)).symm
  refine ⟨hexited, fun index => (htraced.messages index).trans (hdealt _),
    fun index => (htraced.decoded index).trans (hdealt _), fun index => ?_, fun kind => ?_⟩
  · refine ⟨_, htraced.recovery index, fun key state hstate hlive => ?_⟩
    rcases htraced.winding (.tick index) (by rw [hexited]; rfl) with hflush | ⟨-, hflushed⟩
    · cases hflush.symm.trans (hidle _).1
    · exact retained_of_flushed hflushed (htraced.recovery index) hstate hlive
  · have hcounts := counts_agree h kind
    have huncounted : uncountedLanes s kind = 0 := Finset.sum_eq_zero fun producer hproducer => by
      obtain ⟨lane, hkind, rfl⟩ := exists_lane (Finset.mem_range.1 hproducer)
      rw [((hidle lane).2 kind hkind).2]
      rfl
    have hcounted := hleaving.done hdone kind
    refine ⟨by omega, fun producer hproducer owner howner => ?_⟩
    obtain ⟨lane, hkind, rfl⟩ := exists_lane hproducer
    have hempty : (queuesOf s kind).waiting = 0 := by omega
    rw [(accounts h kind).flows.flow _ owner howner, ((hidle lane).2 kind hkind).1,
      contents_of_waiting hempty (shapeOf_producers cfg kind ▸ hproducer) howner]
    simp [QueueMatrix.accepted, QueueMatrix.ownedBy]

end Leaving

/-! ### The daemon is stopped after one order -/

def sampleStopper : Fin 1 :=
  ⟨0, Nat.one_pos⟩

def sampleWork (lane : Lane sampleConfig.engine.admission) : Action sampleConfig 1 1 :=
  .engine (.admission (.work lane))

/-- `Stop` is called, the workers go through the ends of their loops, and `main` finds that the
order has been counted. -/
def sampleEnd : List (Action sampleConfig 1 1) :=
  (.callStop sampleStopper :: List.replicate 3 (.stop sampleStopper)).map
      (fun action => .engine (.admission action)) ++
    [sampleWork (.tick sampleTick), .engine (.scan sampleTick 0 sampleAnswers),
      sampleWork (.tick sampleTick), .engine (.scan sampleTick 0 sampleAnswers),
      sampleWork (.tick sampleTick), sampleWork (.tick sampleTick),
      .engine (.flush sampleTick sampleAnswers), sampleWork (.tick sampleTick)] ++
    List.replicate 4 (sampleWork (.snapshot ⟨0, Nat.one_pos⟩)) ++ List.replicate 8 (.main true)

theorem sampleEnd_run :
    ((machine sampleConfig 1 1 sampleStopper sampleMemory).run (sampleService ++ sampleEnd)).map
      (fun last => (last.1.main.done, stats last.1 .tick)) = some (true, 1) := by
  decide +kernel

theorem shutdown_complete_sample : ∃ s log,
    (machine sampleConfig 1 1 sampleStopper sampleMemory).Reaches s log ∧
      s.main.done = true ∧ s.consumed .tick = 1 ∧
      messagesOn 0 log = Admission.publishedOn (.tick sampleTick)
        (Engine.admissionLog (engineLog log)) := by
  obtain ⟨⟨s, log⟩, hrun, hlast⟩ := Option.map_eq_some_iff.1 sampleEnd_run
  obtain ⟨hdone, hstats⟩ := Prod.mk.inj hlast
  obtain ⟨-, hmessages, -, -, hdelivered⟩ := shutdown_complete ⟨_, hrun⟩ hdone
  exact ⟨s, log, ⟨_, hrun⟩, hdone, (hdelivered .tick).1.trans hstats, hmessages sampleTick⟩

end Ingestd

end L2Flow
