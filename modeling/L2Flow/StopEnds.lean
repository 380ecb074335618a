import L2Flow.Fairness
import L2Flow.Shutdown

/-!
# `Stop` ends

`Stop` spins until `callback_active_` is clear, and then joins the workers. When no call of `Admit`
begins any more, those in progress end (`calls_ranked`), `Stop` goes on to clear `running_`
(`stop_ranked`), and each worker empties its ring and exits (`workers_ranked`) : in whatever order
the threads make their steps, `Stop` ends (`stop_ends`).

When calls keep coming, it need not : they find the gate closed, but `Stop` may find one of them
inside each time it looks (`stop_starves`).
-/

namespace L2Flow

variable {cfg : AdmissionConfig} {threads stops : ℕ}

/-! ## How much is left to do -/

/-- The steps that are left, of a message with so many bytes, but for the recycled slots. -/
def PublishStage.left (size : ℕ) : PublishStage → ℕ
  | .draining => size + 13
  | .taking => size + 12
  | .storing _ => size + 11
  | .copying _ copied => size - copied + 10
  | .numbering => 3
  | .counting => 2

def AdmitStage.left (size : ℕ) : AdmitStage cfg → ℕ
  | .entering => size + 17
  | .gate => size + 16
  | .gateRunning => size + 15
  | .gateHealthy => size + 14
  | .publishing _ stage => stage.left size
  | .concurrent => 7
  | .fatal .claiming _ => 6
  | .fatal .closing _ => 5
  | .fatal .reporting _ => 4
  | .rejecting _ => 3
  | .countingFull _ => 2
  | .leaving _ => 1

/-- The moves of the slots of a lane that are left, from the ready ring to the free list. -/
def LaneStorage.pending {capacity : RingCapacity} (storage : LaneStorage capacity)
    (worker : WorkerStage) : ℕ :=
  3 * storage.ready.contents.length + 2 * worker.slot.length + storage.recycled.contents.length

/-- The steps of a worker that are left, when so many messages wait and no more come. -/
def WorkerStage.left (waiting : ℕ) : WorkerStage → ℕ
  | .popped _ => 10 * waiting + 6
  | .holding _ _ => 10 * waiting + 5
  | .polling => 10 * waiting + 4
  | .missed => if waiting = 0 then 3 else 10 * waiting + 6
  | .stopping => if waiting = 0 then 2 else 10 * waiting + 5
  | .flushing => 1
  | .exited => 0

theorem WorkerStage.left_le (waiting : ℕ) (worker : WorkerStage) :
    worker.left waiting ≤ 10 * waiting + 6 := by
  cases worker <;> simp only [WorkerStage.left] <;> try split_ifs
  all_goals omega

namespace LaneStorage

variable {capacity : RingCapacity} {storage : LaneStorage capacity}

theorem drainOne_pending (h : storage.recycled.Wf) (worker : WorkerStage) :
    storage.drainOne.2.pending worker + (if storage.drainOne.1 then 1 else 0) =
      storage.pending worker := by
  obtain ⟨-, ⟨hnil, hnone, hnil'⟩ | ⟨value, hvalue, hcontents⟩⟩ := SpscRing.tryPop_spec h
  · rcases hring : storage.recycled.tryPop with ⟨- | index, recycled⟩
    · rw [hring] at hnil'
      simp [drainOne, pending, hring, hnil, hnil']
    · rw [hring] at hnone
      cases hnone
  · rcases hring : storage.recycled.tryPop with ⟨- | index, recycled⟩
    · rw [hring] at hvalue
      cases hvalue
    · rw [hring] at hcontents
      simp only [drainOne, pending, hring, hcontents, List.length_cons, if_true]
      omega

theorem pushReady_pending (h : storage.ready.Wf) (worker : WorkerStage) (index : ℕ) :
    (storage.pushReady index).2.pending worker ≤ storage.pending worker + 3 := by
  obtain ⟨-, ⟨-, htrue, hcontents⟩ | ⟨-, hfalse, hcontents⟩⟩ := SpscRing.tryPush_spec h index
  · rcases hring : storage.ready.tryPush index with ⟨- | -, ready⟩
    · rw [hring] at htrue
      cases htrue
    · rw [hring] at hcontents
      simp only [pushReady, pending, hring, hcontents, List.length_append, List.length_singleton]
      omega
  · rcases hring : storage.ready.tryPush index with ⟨- | -, ready⟩
    · rw [hring] at hcontents
      simp only [pushReady, pending, hring, hcontents]
      omega
    · rw [hring] at hfalse
      cases hfalse

theorem release_recycled (h : storage.recycled.Wf) (slotCount index : ℕ) :
    (storage.release slotCount index).2.recycled.contents.length ≤
      storage.recycled.contents.length + 1 := by
  rw [release]
  split_ifs
  · obtain ⟨-, ⟨-, -, hcontents⟩ | ⟨-, -, hcontents⟩⟩ := SpscRing.tryPush_spec h index
    · dsimp only
      rw [hcontents, List.length_append, List.length_singleton]
    · dsimp only
      rw [hcontents]
      exact Nat.le_succ _
  · exact Nat.le_succ _

theorem release_ready (slotCount index : ℕ) :
    (storage.release slotCount index).2.ready = storage.ready := by
  rw [release]
  split_ifs <;> rfl

end LaneStorage

instance : Finite (Lane cfg) :=
  Finite.of_injective
    (fun lane : Lane cfg => (match lane with
      | .tick index => Sum.inl index
      | .snapshot index => Sum.inr index : Fin _ ⊕ Fin _))
    (by rintro ⟨⟩ ⟨⟩ h <;> simp_all)

noncomputable instance : Fintype (Lane cfg) :=
  Fintype.ofFinite _

namespace Admission

/-- A sum over the lanes in which one lane changes. -/
theorem sum_setLane (f : (lane : Lane cfg) → LaneStorage lane.ring → ℕ)
    (lanes : (lane : Lane cfg) → LaneStorage lane.ring) (lane : Lane cfg)
    (storage : LaneStorage lane.ring) :
    ∑ other, f other (Function.update lanes lane storage other) + f lane (lanes lane) =
      ∑ other, f other (lanes other) + f lane storage := by
  rw [← Finset.add_sum_erase _ _ (Finset.mem_univ lane),
    ← Finset.add_sum_erase Finset.univ (fun other => f other (lanes other)) (Finset.mem_univ lane)]
  have hrest :
      ∑ other ∈ Finset.univ.erase lane, f other (Function.update lanes lane storage other) =
        ∑ other ∈ Finset.univ.erase lane, f other (lanes other) :=
    Finset.sum_congr rfl fun other hmem => by
      rw [Function.update_of_ne (Finset.ne_of_mem_erase hmem)]
  rw [hrest, Function.update_self]
  omega

/-- No call of `Admit` begins with the action. -/
def Action.begins : Action cfg threads stops → Bool
  | .call _ _ => true
  | _ => false

/-- The engine when nobody calls `Admit` any more. -/
def quiet (cfg : AdmissionConfig) (threads stops : ℕ)
    (memory : (lane : Lane cfg) → LaneStorage lane.ring) :
    Machine (State cfg threads stops) (Action cfg threads stops) (Event cfg threads) where
  start := (machine cfg threads stops memory).start
  step s action := if action.begins then none else step s action

/-- The threads that call `Admit`, those that call `Stop`, and the workers. What a worker does with
a message, and `SetFatal`, may come between its steps. -/
def owns : Fin threads ⊕ Fin stops ⊕ Lane cfg → Action cfg threads stops → Prop
  | .inl thread, .resume thread' => thread' = thread
  | .inr (.inl thread), .stop thread' => thread' = thread
  | .inr (.inr lane), .work lane' => lane' = lane
  | _, _ => False

/-- The steps that are left of a call. -/
def callLeft (ongoing : Option (AdmitCall × AdmitStage cfg)) : ℕ :=
  ongoing.elim 0 fun ongoing => ongoing.2.left ongoing.1.body.length

/-- The moves of the slots of all lanes that are left. -/
noncomputable def State.pending (s : State cfg threads stops) : ℕ :=
  ∑ lane, (s.lanes lane).pending (s.workers lane)

/-- The steps of the calls that are left. -/
noncomputable def State.callsLeft (s : State cfg threads stops) : ℕ :=
  ∑ thread, callLeft (s.admits thread) + s.pending

section Steps

variable {s s' : State cfg threads stops} {new : List (Event cfg threads)}

/-! ## A step of a call -/

/-- The step leaves less of the call and of the moves of the slots. -/
def Lessens (s s' : State cfg threads stops) (thread : Fin threads) (call : AdmitCall)
    (stage : AdmitStage cfg) : Prop :=
  ∃ next : Option (AdmitCall × AdmitStage cfg),
    s'.admits = Function.update s.admits thread next ∧
      callLeft next + s'.pending < stage.left call.body.length + s.pending

theorem Lessens.kept {thread : Fin threads} {call : AdmitCall} {stage : AdmitStage cfg}
    {next : Option (AdmitCall × AdmitStage cfg)} (hlanes : s'.lanes = s.lanes)
    (hworkers : s'.workers = s.workers) (hadmits : s'.admits = Function.update s.admits thread next)
    (hlt : callLeft next < stage.left call.body.length) : Lessens s s' thread call stage := by
  refine ⟨next, hadmits, ?_⟩
  rw [State.pending, State.pending, hlanes, hworkers]
  omega

theorem Lessens.moved {thread : Fin threads} {call : AdmitCall} {stage : AdmitStage cfg}
    {next : Option (AdmitCall × AdmitStage cfg)} {lane : Lane cfg} {storage : LaneStorage lane.ring}
    (hlanes : s'.lanes = Function.update s.lanes lane storage) (hworkers : s'.workers = s.workers)
    (hadmits : s'.admits = Function.update s.admits thread next)
    (hlt : callLeft next + storage.pending (s.workers lane) <
      stage.left call.body.length + (s.lanes lane).pending (s.workers lane)) :
    Lessens s s' thread call stage := by
  refine ⟨next, hadmits, ?_⟩
  have hsum := sum_setLane (fun lane storage => storage.pending (s.workers lane)) s.lanes lane
    storage
  rw [State.pending, State.pending, hlanes, hworkers]
  omega

theorem publishStep_lessens {thread : Fin threads} {call : AdmitCall}
    {publication : Publication cfg} (hready : (s.lanes publication.lane).ready.Wf)
    (hrecycled : (s.lanes publication.lane).recycled.Wf) (stage : PublishStage) :
    Lessens s (publishStep s thread call publication stage).1 thread call
      (.publishing publication stage) := by
  cases stage with
  | draining =>
    refine .moved rfl rfl rfl ?_
    have hpending := LaneStorage.drainOne_pending hrecycled (s.workers publication.lane)
    rcases hdrained : (s.lanes publication.lane).drainOne.1 with - | -
    all_goals
      rw [hdrained] at hpending
      simp only [callLeft, Option.elim_some, AdmitStage.left, PublishStage.left, if_true,
        Bool.false_eq_true, if_false] at hpending ⊢
      omega
  | taking =>
    rcases hfree : (s.lanes publication.lane).free with - | ⟨index, rest⟩
    · rw [publishStep, hfree]
      refine .kept rfl rfl rfl ?_
      simp only [callLeft, Option.elim_some, AdmitStage.left, PublishStage.left]
      omega
    · rw [publishStep, hfree]
      exact .moved rfl rfl rfl (Nat.add_lt_add_right (Nat.lt_succ_self _) _)
  | storing index =>
    exact .moved rfl rfl rfl (Nat.add_lt_add_right (Nat.lt_succ_self _) _)
  | copying index copied =>
    rcases hoctet : call.body[copied]? with - | octet
    · have hpending := LaneStorage.pushReady_pending hready (s.workers publication.lane) index
      simp only [publishStep, hoctet]
      split_ifs
      all_goals
        refine .moved rfl rfl rfl ?_
        simp only [callLeft, Option.elim_some, AdmitStage.left, PublishStage.left]
        omega
    · have hlt := (List.getElem?_eq_some_iff.1 hoctet).1
      simp only [publishStep, hoctet]
      refine .moved rfl rfl rfl (Nat.add_lt_add_right ?_ _)
      simp only [callLeft, Option.elim_some, AdmitStage.left, PublishStage.left]
      omega
  | numbering => exact .kept rfl rfl rfl (Nat.lt_succ_self _)
  | counting => exact .kept rfl rfl rfl (Nat.lt_succ_self _)

theorem callStep_lessens (hready : ∀ lane, (s.lanes lane).ready.Wf)
    (hrecycled : ∀ lane, (s.lanes lane).recycled.Wf) (thread : Fin threads) (call : AdmitCall)
    (stage : AdmitStage cfg) : Lessens s (callStep s thread call stage).1 thread call stage := by
  cases stage with
  | publishing publication stage =>
    exact publishStep_lessens (hready publication.lane) (hrecycled publication.lane) stage
  | fatal stage after =>
    rcases hdone : (setFatalStep s.flags stage).2 with - | next
    · rcases after with - | result
      all_goals
        simp only [callStep, hdone]
        refine .kept rfl rfl rfl ?_
        cases stage <;> simp [callLeft, AdmitStage.left]
    · simp only [callStep, hdone]
      refine .kept rfl rfl rfl ?_
      cases stage <;> simp only [setFatalStep, reduceCtorEq] at hdone
      · split_ifs at hdone
        obtain rfl := Option.some.inj hdone
        exact Nat.lt_succ_self _
      · obtain rfl := Option.some.inj hdone
        exact Nat.lt_succ_self _
  | gateHealthy =>
    rw [callStep]
    dsimp only
    split_ifs
    · rcases checkCall cfg call with result | - | ⟨header, lane⟩
      · refine .kept rfl rfl rfl ?_
        simp only [callLeft, Option.elim_some, AdmitStage.left]
        omega
      · refine .kept rfl rfl rfl ?_
        simp only [callLeft, Option.elim_some, AdmitStage.left]
        omega
      · dsimp only
        split_ifs
        · refine .kept rfl rfl rfl ?_
          simp only [callLeft, Option.elim_some, AdmitStage.left]
          omega
        · exact .kept rfl rfl rfl (Nat.lt_succ_self _)
    · refine .kept rfl rfl rfl ?_
      simp only [callLeft, Option.elim_some, AdmitStage.left]
      omega
  | concurrent => exact .kept rfl rfl rfl (Nat.lt_succ_self _)
  | countingFull result => exact .kept rfl rfl rfl (Nat.lt_succ_self _)
  | leaving result => exact .kept rfl rfl rfl Nat.one_pos
  | entering =>
    rw [callStep]
    split_ifs
    all_goals
      refine .kept rfl rfl rfl ?_
      simp only [callLeft, Option.elim_some, AdmitStage.left]
      omega
  | gate =>
    refine .kept rfl rfl rfl ?_
    rcases s.flags.accepting with - | -
    all_goals
      simp only [callLeft, Option.elim_some, AdmitStage.left, if_true, Bool.false_eq_true, if_false]
      omega
  | gateRunning =>
    refine .kept rfl rfl rfl ?_
    rcases s.flags.running with - | -
    all_goals
      simp only [callLeft, Option.elim_some, AdmitStage.left, if_true, Bool.false_eq_true, if_false]
      omega
  | rejecting result =>
    refine .kept rfl rfl rfl ?_
    split_ifs
    all_goals
      simp only [callLeft, Option.elim_some, AdmitStage.left]
      omega

theorem callStep_callsLeft (hready : ∀ lane, (s.lanes lane).ready.Wf)
    (hrecycled : ∀ lane, (s.lanes lane).recycled.Wf) {thread : Fin threads} {call : AdmitCall}
    {stage : AdmitStage cfg} (hongoing : s.admits thread = some (call, stage)) :
    (callStep s thread call stage).1.callsLeft < s.callsLeft := by
  obtain ⟨next, hadmits, hlt⟩ := callStep_lessens hready hrecycled thread call stage
  have hsum := Machine.sum_update callLeft s.admits thread next
  have hthis : callLeft (s.admits thread) = stage.left call.body.length := by
    rw [hongoing]
    rfl
  rw [State.callsLeft, State.callsLeft, hadmits]
  omega

/-! ## A step of a worker -/

/-- The steps of a worker, with the numbers of the slots in the ready and in the recycled ring. -/
inductive WorkerMoves (running : Bool) : WorkerStage → ℕ → ℕ → WorkerStage → ℕ → ℕ → Prop where
  | popped (index ready recycled : ℕ) :
    WorkerMoves running .polling (ready + 1) recycled (.popped index) ready recycled
  | missed (recycled : ℕ) : WorkerMoves running .polling 0 recycled .missed 0 recycled
  | read (index ready recycled : ℕ) (metadata : LaneMessageMetadata) :
    WorkerMoves running (.popped index) ready recycled (.holding index metadata) ready recycled
  | released (index ready recycled recycled' : ℕ) (metadata : LaneMessageMetadata)
      (h : recycled' ≤ recycled + 1) :
    WorkerMoves running (.holding index metadata) ready recycled .polling ready recycled'
  | again (ready recycled : ℕ) (h : running = true) :
    WorkerMoves running .missed ready recycled .polling ready recycled
  | told (ready recycled : ℕ) (h : running = false) :
    WorkerMoves running .missed ready recycled .stopping ready recycled
  | more (ready recycled : ℕ) :
    WorkerMoves running .stopping (ready + 1) recycled .polling (ready + 1) recycled
  | drained (recycled : ℕ) : WorkerMoves running .stopping 0 recycled .flushing 0 recycled
  | flushed (ready recycled : ℕ) :
    WorkerMoves running .flushing ready recycled .exited ready recycled

/-- No move of a slot is undone. -/
theorem WorkerMoves.pending {running : Bool} {worker worker' : WorkerStage}
    {ready recycled ready' recycled' : ℕ}
    (h : WorkerMoves running worker ready recycled worker' ready' recycled') :
    3 * ready' + 2 * worker'.slot.length + recycled' ≤
      3 * ready + 2 * worker.slot.length + recycled := by
  cases h <;> simp only [WorkerStage.slot, List.length_singleton, List.length_nil] <;> omega

/-- A worker that is told to stop has a step less to make. -/
theorem WorkerMoves.left {worker worker' : WorkerStage} {ready recycled ready' recycled' : ℕ}
    (h : WorkerMoves false worker ready recycled worker' ready' recycled') :
    worker'.left ready' < worker.left ready := by
  cases h with
  | more =>
    simp only [WorkerStage.left, Nat.succ_ne_zero, if_false]
    omega
  | told =>
    simp only [WorkerStage.left]
    split_ifs <;> omega
  | again => cases ‹false = true›
  | _ =>
    simp only [WorkerStage.left, if_true]
    omega

/-- What a step of a worker changes. -/
structure Worked (s s' : State cfg threads stops) (lane : Lane cfg) : Prop where
  admits : s'.admits = s.admits
  stops : s'.stops = s.stops
  running : s'.flags.running = s.flags.running
  own : ∃ storage worker, s'.lanes = Function.update s.lanes lane storage ∧
    s'.workers = Function.update s.workers lane worker ∧
    WorkerMoves s.flags.running (s.workers lane) (s.lanes lane).ready.contents.length
      (s.lanes lane).recycled.contents.length worker storage.ready.contents.length
      storage.recycled.contents.length

theorem worked_of_step {lane : Lane cfg} (hready : (s.lanes lane).ready.Wf)
    (hrecycled : (s.lanes lane).recycled.Wf) (h : workStep s lane = some (s', new)) :
    Worked s s' lane := by
  have hself := (Function.update_eq_self lane s.lanes).symm
  rw [workStep] at h
  dsimp only at h
  split at h
  · next hworker =>
    obtain ⟨rfl, -⟩ := Prod.mk.inj (Option.some.inj h)
    refine ⟨rfl, rfl, rfl, _, _, rfl, rfl, ?_⟩
    obtain ⟨-, ⟨hnil, hnone, hnil'⟩ | ⟨index, hsome, hcontents⟩⟩ := SpscRing.tryPop_spec hready
    · simp only [LaneStorage.popReady, hworker, hnone, hnil, hnil', Option.elim_none,
        List.length_nil]
      exact .missed _
    · simp only [LaneStorage.popReady, hworker, hsome, hcontents, Option.elim_some,
        List.length_cons]
      exact .popped index _ _
  · next index hworker =>
    obtain ⟨rfl, -⟩ := Prod.mk.inj (Option.some.inj h)
    refine ⟨rfl, rfl, rfl, _, _, hself, rfl, ?_⟩
    rw [hworker]
    exact .read index _ _ _
  · next index metadata hworker =>
    obtain ⟨rfl, -⟩ := Prod.mk.inj (Option.some.inj h)
    refine ⟨rfl, rfl, rfl, _, _, rfl, rfl, ?_⟩
    rw [hworker, LaneStorage.release_ready]
    exact .released index _ _ _ metadata (LaneStorage.release_recycled hrecycled _ index)
  · next hworker =>
    obtain ⟨rfl, -⟩ := Prod.mk.inj (Option.some.inj h)
    refine ⟨rfl, rfl, rfl, _, _, hself, rfl, ?_⟩
    rw [hworker]
    rcases hrunning : s.flags.running with - | -
    · exact .told _ _ rfl
    · exact .again _ _ rfl
  · next hworker =>
    obtain ⟨rfl, -⟩ := Prod.mk.inj (Option.some.inj h)
    refine ⟨rfl, rfl, rfl, _, _, hself, rfl, ?_⟩
    rw [hworker]
    rcases hempty : (s.lanes lane).empty with - | -
    · have hne : (s.lanes lane).ready.contents ≠ [] := fun hnil => by
        have := SpscRing.empty_iff.2 hnil
        rw [LaneStorage.empty, this] at hempty
        cases hempty
      obtain ⟨count, hcount⟩ := Nat.exists_eq_succ_of_ne_zero
        (mt List.length_eq_zero_iff.1 hne)
      rw [hcount]
      exact .more count _
    · rw [SpscRing.empty_iff.1 hempty]
      exact .drained _
  · next hworker =>
    obtain ⟨rfl, -⟩ := Prod.mk.inj (Option.some.inj h)
    refine ⟨rfl, rfl, rfl, _, _, hself, rfl, ?_⟩
    rw [hworker]
    exact .flushed _ _
  · cases h

theorem Worked.pending {lane : Lane cfg} (h : Worked s s' lane) : s'.pending ≤ s.pending := by
  obtain ⟨storage, worker, hlanes, hworkers, hmoves⟩ := h.own
  refine Finset.sum_le_sum fun other _ => ?_
  rw [hlanes, hworkers]
  by_cases hsame : other = lane
  · subst hsame
    rw [Function.update_self, Function.update_self]
    exact hmoves.pending
  · rw [Function.update_of_ne hsame, Function.update_of_ne hsame]

/-! ## What a step changes -/

/-- The steps when no call begins, by what they leave as it is. -/
inductive QuietMoves (s s' : State cfg threads stops) : Action cfg threads stops → Prop where
  | resume (thread : Fin threads) (call : AdmitCall) (stage : AdmitStage cfg)
      (ongoing : s.admits thread = some (call, stage))
      (after : s' = (callStep s thread call stage).1) : QuietMoves s s' (.resume thread)
  | work (lane : Lane cfg) (worked : Worked s s' lane) : QuietMoves s s' (.work lane)
  | stop (thread : Fin stops) (stage : StopStage) (before : s.stops thread = some stage)
      (after : stopStep s thread stage = some s') : QuietMoves s s' (.stop thread)
  | beside (action : Action cfg threads stops) (free : ∀ i, ¬owns i action)
      (lanes : s'.lanes = s.lanes) (workers : s'.workers = s.workers)
      (admits : s'.admits = s.admits)
      (running : s'.flags.running = s.flags.running)
      (stops : ∀ thread, s.stops thread ≠ none → s'.stops thread = s.stops thread) :
    QuietMoves s s' action

theorem step_of_quiet {memory : (lane : Lane cfg) → LaneStorage lane.ring}
    {action : Action cfg threads stops}
    (h : (quiet cfg threads stops memory).step s action = some (s', new)) :
    action.begins = false ∧ step s action = some (s', new) := by
  rw [quiet] at h
  dsimp only at h
  split_ifs at h with hbegins
  exact ⟨Bool.eq_false_iff.2 hbegins, h⟩

theorem quietMoves_of_step {action : Action cfg threads stops}
    (hready : ∀ lane, (s.lanes lane).ready.Wf) (hrecycled : ∀ lane, (s.lanes lane).recycled.Wf)
    (hbegins : action.begins = false) (h : step s action = some (s', new)) :
    QuietMoves s s' action := by
  cases action with
  | call => cases hbegins
  | resume thread =>
    obtain ⟨⟨call, stage⟩, hongoing, heq⟩ := Option.map_eq_some_iff.1 h
    exact .resume thread call stage hongoing (congrArg Prod.fst heq).symm
  | work lane => exact .work lane (worked_of_step (hready lane) (hrecycled lane) h)
  | stop thread =>
    obtain ⟨stage, hstage, hbind⟩ := Option.bind_eq_some_iff.1 h
    obtain ⟨t, hstop, heq⟩ := Option.map_eq_some_iff.1 hbind
    obtain ⟨rfl, -⟩ := Prod.mk.inj heq
    exact .stop thread stage hstage hstop
  | start =>
    obtain ⟨t, hstart, heq⟩ := Option.map_eq_some_iff.1 h
    obtain ⟨rfl, -⟩ := Prod.mk.inj heq
    obtain ⟨hlanes, hworkers, hadmits⟩ := startStep_frame hstart
    rw [startStep] at hstart
    split at hstart <;> simp only [Option.some.injEq, reduceCtorEq] at hstart <;> subst hstart
    all_goals
      exact .beside .start (fun i => by rcases i with i | i | i <;> exact id) hlanes hworkers
        hadmits
        rfl fun _ _ => rfl
  | callStop thread =>
    rw [step] at h
    split at h
    · next hidle =>
      obtain ⟨rfl, -⟩ := Prod.mk.inj (Option.some.inj h)
      refine .beside _ (fun i => by rcases i with i | i | i <;> exact id) rfl rfl rfl rfl
        fun other hne => Function.update_of_ne ?_ _ _
      rintro rfl
      exact hne hidle
    · cases h
  | fatal lane =>
    rw [step] at h
    split at h
    · obtain ⟨rfl, -⟩ := Prod.mk.inj (Option.some.inj h)
      exact .beside _ (fun i => by rcases i with i | i | i <;> exact id) rfl rfl rfl rfl
        fun _ _ => rfl
    · obtain ⟨rfl, -⟩ := Prod.mk.inj (Option.some.inj h)
      exact .beside _ (fun i => by rcases i with i | i | i <;> exact id) rfl rfl rfl
        (setFatalStep_running _ _) fun _ _ => rfl

end Steps

section Phases

variable {memory : (lane : Lane cfg) → LaneStorage lane.ring} {s s' : State cfg threads stops}
  {log new : List (Event cfg threads)} {stopper : Fin stops}

/-! ## The lock -/

/-- Where `callback_active_` is set, a call is past it. -/
theorem guards_of_active (h : (machine cfg threads stops memory).Reaches s log)
    (hactive : s.flags.callbackActive = true) : ∃ thread, s.guards thread = true := by
  revert hactive
  refine Machine.invariant (I := fun s _ => s.flags.callbackActive = true →
    ∃ thread, s.guards thread = true) (by rintro ⟨⟩) (fun {s log action s' new} ih hstep => ?_) h
  rcases moves_of_step hstep with ⟨thread, call, hongoing⟩ | ⟨thread, call, stage, hongoing⟩ |
    ⟨s', hstart⟩ | ⟨thread, success, hstart, hidle⟩ | ⟨thread, stage, s', hstage, hstop⟩ |
    ⟨lane, s', new, hwork⟩ | ⟨lane, flags, stage, hfatal⟩
  · intro hactive
    obtain ⟨holder, hguards⟩ := ih hactive
    refine ⟨holder, ?_⟩
    have hne : holder ≠ thread := by
      rintro rfl
      rw [State.guards, hongoing] at hguards
      cases hguards
    rw [State.guards, State.setAdmit_admits, Function.update_of_ne hne]
    exact hguards
  · obtain ⟨next, hstepped⟩ := callStep_stepped s thread call stage
    intro hactive
    rcases hstepped.lock with ⟨hguarded, hsame⟩ | ⟨-, -, hguarded, -⟩ | ⟨-, -, hclear⟩
    · obtain ⟨holder, hguards⟩ := ih (hsame ▸ hactive)
      refine ⟨holder, ?_⟩
      rw [hstepped.guards]
      split_ifs with hholder
      · subst hholder
        rw [hguarded]
        rw [State.guards, hongoing] at hguards
        exact hguards
      · exact hguards
    · exact ⟨thread, by rw [hstepped.guards, if_pos rfl, hguarded]⟩
    · rw [hclear] at hactive
      cases hactive
  · obtain ⟨hadmits, hactive, -⟩ := aside_start hstart
    simpa only [hactive, State.guards, hadmits] using ih
  · exact ih
  · obtain ⟨hadmits, hactive, -⟩ := aside_stop hstop
    simpa only [hactive, State.guards, hadmits] using ih
  · obtain ⟨hadmits, hactive, -⟩ := aside_work hwork
    simpa only [hactive, State.guards, hadmits] using ih
  · have hactive : flags.callbackActive = s.flags.callbackActive := by
      rcases hfatal with rfl | ⟨now, hnow⟩
      · rfl
      · obtain ⟨rfl, -⟩ := Prod.mk.inj hnow
        exact setFatalStep_callbackActive _ _
    simpa only [hactive, State.guards] using ih

theorem workStep_leaves {lane : Lane cfg} (h : workStep s lane = some (s', new)) :
    s'.stops = s.stops ∧ s'.flags = s.flags := by
  rw [workStep] at h
  dsimp only at h
  split at h <;> simp only [Option.some.injEq, Prod.mk.injEq, reduceCtorEq] at h <;>
    obtain ⟨rfl, -⟩ := h <;> exact ⟨rfl, rfl⟩

/-- `running_` is clear when `Stop` has ended : nobody sets it again. -/
theorem running_of_stopped (h : (machine cfg threads stops memory).Reaches s log)
    (hstopped : s.stops stopper = some .stopped) : s.flags.running = false := by
  revert hstopped
  refine Machine.invariant (I := fun s _ => s.stops stopper = some .stopped →
    s.flags.running = false) (by rintro ⟨⟩) (fun {s log action s' new} ih hstep => ?_) h
  rcases moves_of_step hstep with ⟨thread, call, hongoing⟩ | ⟨thread, call, stage, hongoing⟩ |
    ⟨s', hstart⟩ | ⟨thread, success, hstart, hidle⟩ | ⟨thread, stage, s', hstage, hstop⟩ |
    ⟨lane, s', new, hwork⟩ | ⟨lane, flags, stage, hfatal⟩
  · exact ih
  · obtain ⟨-, hstops, hrunning, -⟩ := callStep_leaves s thread call stage
    rwa [hstops, hrunning]
  · rw [startStep] at hstart
    split at hstart <;> simp only [Option.some.injEq, reduceCtorEq] at hstart <;> subst hstart <;>
      exact ih
  · intro hstopped
    refine ih ?_
    dsimp only at hstopped
    rw [Function.update_apply] at hstopped
    split_ifs at hstopped
    · cases hstopped
    · exact hstopped
  · intro hstopped
    by_cases hsame : stopper = thread
    · subst hsame
      rcases stage with - | - | - | - <;>
        simp only [stopStep, Option.some.injEq, reduceCtorEq] at hstop <;> subst hstop <;>
        dsimp only at hstopped ⊢ <;> rw [Function.update_self] at hstopped
      · cases hstopped
      · split_ifs at hstopped <;> cases hstopped
    · rcases stage with - | - | - | - <;>
        simp only [stopStep, Option.some.injEq, reduceCtorEq] at hstop <;> subst hstop <;>
        dsimp only at hstopped ⊢ <;> rw [Function.update_of_ne hsame] at hstopped <;>
        exact ih hstopped
  · obtain ⟨hstops, hflags⟩ := workStep_leaves hwork
    rwa [hstops, hflags]
  · have hrunning : flags.running = s.flags.running := by
      rcases hfatal with rfl | ⟨now, hnow⟩
      · rfl
      · obtain ⟨rfl, -⟩ := Prod.mk.inj hnow
        exact setFatalStep_running _ _
    rwa [hrunning]

/-! ## The calls end -/

/-- A call of `Stop` has begun. -/
def Stopping (memory : (lane : Lane cfg) → LaneStorage lane.ring) (stopper : Fin stops)
    (s : State cfg threads stops) : Prop :=
  (∃ log, (machine cfg threads stops memory).Reaches s log) ∧ s.stops stopper ≠ none

/-- No call is in progress. -/
def CallsOver (s : State cfg threads stops) : Prop :=
  ∀ thread, s.admits thread = none

theorem Stopping.moves (h : Stopping memory stopper s) {action : Action cfg threads stops}
    (hstep : (quiet cfg threads stops memory).step s action = some (s', new)) :
    QuietMoves s s' action := by
  obtain ⟨⟨log, hreaches⟩, -⟩ := h
  have hslots := (slotsKept hreaches).2
  obtain ⟨hbegins, hstep⟩ := step_of_quiet hstep
  exact quietMoves_of_step (fun lane => (hslots.lanes lane).ready_wf)
    (fun lane => (hslots.lanes lane).recycled_wf) hbegins hstep

/-- Only its own steps change the stage of a call of `Stop`. -/
theorem QuietMoves.others {action : Action cfg threads stops} (h : QuietMoves s s' action)
    (hstop : s.stops stopper ≠ none) (hne : action ≠ .stop stopper) :
    s'.stops stopper = s.stops stopper := by
  cases h with
  | resume thread call stage _ after =>
    rw [after, (callStep_leaves s thread call stage).stops]
  | work lane worked => rw [worked.stops]
  | stop thread stage _ after =>
    have hother : stopper ≠ thread := fun heq => hne (congrArg _ heq.symm)
    rcases stage with - | - | - | - <;>
      simp only [stopStep, Option.some.injEq, reduceCtorEq] at after <;> subst after <;>
      exact Function.update_of_ne hother _ _
  | beside _ _ _ _ _ _ stops => exact stops stopper hstop

theorem stopStep_ne_none {stage : StopStage} (h : stopStep s stopper stage = some s') :
    s'.stops stopper ≠ none := by
  rcases stage with - | - | - | - <;>
    simp only [stopStep, Option.some.injEq, reduceCtorEq] at h <;> subst h <;>
    simp [Function.update_self]

theorem Stopping.step (h : Stopping memory stopper s) {action : Action cfg threads stops}
    (hstep : (quiet cfg threads stops memory).step s action = some (s', new)) :
    Stopping memory stopper s' := by
  have hmoves := h.moves hstep
  obtain ⟨⟨log, hreaches⟩, hstop⟩ := h
  refine ⟨⟨_, hreaches.runFrom (Machine.runFrom_one.2 (step_of_quiet hstep).2)⟩, ?_⟩
  by_cases hown : action = .stop stopper
  · subst hown
    cases hmoves with
    | stop _ _ _ after => exact stopStep_ne_none after
    | beside _ free => exact absurd rfl (free (.inr (.inl stopper)))
  · rw [hmoves.others hstop hown]
    exact hstop

theorem CallsOver.step (h : CallsOver s) {action : Action cfg threads stops}
    (hmoves : QuietMoves s s' action) : CallsOver s' := by
  intro thread
  cases hmoves with
  | resume caller _ _ ongoing =>
    rw [h caller] at ongoing
    cases ongoing
  | work lane worked => rw [worked.admits, h thread]
  | stop _ _ _ after => rw [(stopStep_frame after).2.2, h thread]
  | beside _ _ _ _ admits => rw [admits, h thread]

/-- The calls that are in progress end. -/
theorem calls_ranked : (quiet cfg threads stops memory).Ranking owns (Stopping memory stopper)
    CallsOver State.callsLeft fun s i => ∃ thread, i = .inl thread ∧ s.admits thread ≠ none where
  keep := fun hI hstep => hI.step hstep
  stay := fun hI hP hstep => hP.step (hI.moves hstep)
  step := by
    intro s action s' new hI _ hstep
    right
    have hsame : s'.admits = s.admits → (∀ thread, action ≠ .resume thread) →
        s'.pending ≤ s.pending → s'.callsLeft < s.callsLeft ∨
          (s'.callsLeft = s.callsLeft ∧ ∀ i, (∃ thread, i = .inl thread ∧ s.admits thread ≠ none) →
            (∃ thread, i = .inl thread ∧ s'.admits thread ≠ none) ∧ ¬owns i action) := by
      intro hadmits hne hle
      rw [State.callsLeft, State.callsLeft, hadmits]
      rcases hle.lt_or_eq with hlt | heq
      · exact Or.inl (Nat.add_lt_add_left hlt _)
      · refine Or.inr ⟨congrArg _ heq, ?_⟩
        rintro i ⟨thread, rfl, hongoing⟩
        refine ⟨⟨thread, rfl, hongoing⟩, fun hown => ?_⟩
        cases action <;> try exact hown
        exact hne _ rfl
    have hmoves := hI.moves hstep
    obtain ⟨⟨log, hreaches⟩, -⟩ := hI
    have hslots := (slotsKept hreaches).2
    cases hmoves with
    | resume thread call stage ongoing after =>
      rw [after]
      exact Or.inl (callStep_callsLeft (fun lane => (hslots.lanes lane).ready_wf)
        (fun lane => (hslots.lanes lane).recycled_wf) ongoing)
    | work lane worked => exact hsame worked.admits (fun _ => nofun) worked.pending
    | stop thread stage _ after =>
      obtain ⟨hlanes, hworkers, hadmits⟩ := stopStep_frame after
      exact hsame hadmits (fun _ => nofun) (by rw [State.pending, State.pending, hlanes, hworkers])
    | beside _ free lanes workers admits =>
      refine hsame admits (fun thread heq => free (.inl thread) ?_)
        (by rw [State.pending, State.pending, lanes, workers])
      rw [heq]
      rfl
  helped := by
    intro s _ hP
    obtain ⟨thread, hongoing⟩ := not_forall.1 hP
    exact ⟨.inl thread, thread, rfl, hongoing⟩
  free := by
    rintro s _ - - ⟨thread, rfl, hongoing⟩ hblocked
    obtain ⟨ongoing, hsome⟩ := Option.ne_none_iff_exists'.1 hongoing
    have hnone : step s (.resume thread) = none := hblocked (.resume thread) rfl
    rw [step, hsome] at hnone
    cases hnone

/-! ## `Stop` goes on -/

/-- `Stop` is called, and no call of `Admit` is in progress. -/
def Alone (memory : (lane : Lane cfg) → LaneStorage lane.ring) (stopper : Fin stops)
    (s : State cfg threads stops) : Prop :=
  Stopping memory stopper s ∧ CallsOver s

theorem Alone.step (h : Alone memory stopper s) {action : Action cfg threads stops}
    (hstep : (quiet cfg threads stops memory).step s action = some (s', new)) :
    Alone memory stopper s' :=
  ⟨h.1.step hstep, h.2.step (h.1.moves hstep)⟩

/-- Nobody is past `callback_active_`. -/
theorem Alone.inactive (h : Alone memory stopper s) : s.flags.callbackActive = false := by
  obtain ⟨⟨⟨log, hreaches⟩, -⟩, hover⟩ := h
  refine Bool.eq_false_iff.2 fun hactive => ?_
  obtain ⟨thread, hguards⟩ := guards_of_active hreaches hactive
  rw [State.guards, hover thread] at hguards
  cases hguards

/-- The steps of `Stop` that are left. -/
def StopStage.left : StopStage → ℕ
  | .closing => 3
  | .waiting => 2
  | .stopping => 1
  | .stopped => 0

def stopLeft (stopper : Fin stops) (s : State cfg threads stops) : ℕ :=
  (s.stops stopper).elim 4 StopStage.left

/-- A step of `Stop`, when nobody is past `callback_active_`, is its last but so many. -/
theorem stopStep_left {stage : StopStage} (hinactive : s.flags.callbackActive = false)
    (hstage : s.stops stopper = some stage) (h : stopStep s stopper stage = some s') :
    stopLeft stopper s' < stopLeft stopper s := by
  rw [stopLeft, stopLeft, hstage]
  cases stage <;> simp only [stopStep, hinactive, Option.some.injEq, reduceCtorEq] at h <;> subst h
  all_goals
    dsimp only
    rw [Function.update_self]
    exact Nat.lt_succ_self _

theorem stop_ranked : (quiet cfg threads stops memory).Ranking owns (Alone memory stopper)
    (fun s => s.stops stopper = some .stopped) (stopLeft stopper)
    fun _ i => i = .inr (.inl stopper) where
  keep := fun hI hstep => hI.step hstep
  stay := by
    intro s action s' new hI hP hstep
    have hmoves := hI.1.moves hstep
    by_cases hown : action = .stop stopper
    · subst hown
      cases hmoves with
      | stop _ stage before after =>
        obtain rfl := Option.some.inj (before.symm.trans hP)
        cases after
      | beside _ free => exact absurd rfl (free (.inr (.inl stopper)))
    · rw [hmoves.others hI.1.2 hown, hP]
  step := by
    intro s action s' new hI _ hstep
    right
    have hmoves := hI.1.moves hstep
    by_cases hown : action = .stop stopper
    · subst hown
      cases hmoves with
      | stop _ stage before after => exact Or.inl (stopStep_left hI.inactive before after)
      | beside _ free => exact absurd rfl (free (.inr (.inl stopper)))
    · refine Or.inr ⟨by rw [stopLeft, stopLeft, hmoves.others hI.1.2 hown], ?_⟩
      rintro i rfl
      refine ⟨rfl, fun howned => hown ?_⟩
      cases action <;> try exact howned.elim
      exact congrArg _ howned
  helped := fun _ _ => ⟨_, rfl⟩
  free := by
    rintro s _ hI hP rfl hblocked
    obtain ⟨stage, hstage⟩ := Option.ne_none_iff_exists'.1 hI.1.2
    have hnone : ((s.stops stopper).bind fun stage => (stopStep s stopper stage).map (·, [])) =
        (none : Option (Outcome cfg threads stops)) := hblocked (.stop stopper) rfl
    rw [hstage, Option.bind_some] at hnone
    cases stage <;> try cases hnone
    exact hP hstage

/-! ## The workers exit -/

/-- `running_` is clear, and nothing more is published. -/
def Told (memory : (lane : Lane cfg) → LaneStorage lane.ring) (stopper : Fin stops)
    (s : State cfg threads stops) : Prop :=
  Alone memory stopper s ∧ s.flags.running = false

/-- The steps of the worker of a lane that are left. -/
def workerLeft (s : State cfg threads stops) (lane : Lane cfg) : ℕ :=
  (s.workers lane).left (s.lanes lane).ready.contents.length

theorem stopStep_running {stage : StopStage} (hrunning : s.flags.running = false)
    (h : stopStep s stopper stage = some s') : s'.flags.running = false := by
  rcases stage with - | - | - | - <;>
    simp only [stopStep, Option.some.injEq, reduceCtorEq] at h <;> subst h <;>
    first | exact hrunning | rfl

theorem Told.step (h : Told memory stopper s) {action : Action cfg threads stops}
    (hstep : (quiet cfg threads stops memory).step s action = some (s', new)) :
    Told memory stopper s' := by
  refine ⟨h.1.step hstep, ?_⟩
  cases h.1.1.moves hstep with
  | resume thread call stage _ after =>
    rw [after, (callStep_leaves s thread call stage).running, h.2]
  | work lane worked => rw [worked.running, h.2]
  | stop _ _ _ after => exact stopStep_running h.2 after
  | beside _ _ _ _ _ running => rw [running, h.2]

/-- A step leaves the workers and the lanes as they are, or is of a worker that has one step
less to make then. -/
theorem Told.workers (h : Told memory stopper s) {action : Action cfg threads stops}
    (hstep : (quiet cfg threads stops memory).step s action = some (s', new)) :
    (s'.lanes = s.lanes ∧ s'.workers = s.workers ∧ ∀ lane, action ≠ .work lane) ∨
      ∃ lane, workerLeft s' lane < workerLeft s lane ∧
        ∀ other ≠ lane, s'.lanes other = s.lanes other ∧ s'.workers other = s.workers other := by
  cases h.1.1.moves hstep with
  | resume thread _ _ ongoing =>
    rw [h.1.2 thread] at ongoing
    cases ongoing
  | work lane worked =>
    obtain ⟨storage, worker, hlanes, hworkers, hmoves⟩ := worked.own
    refine Or.inr ⟨lane, ?_, fun other hne => ?_⟩
    · rw [workerLeft, workerLeft, hlanes, hworkers, Function.update_self, Function.update_self]
      rw [h.2] at hmoves
      exact hmoves.left
    · rw [hlanes, hworkers, Function.update_of_ne hne, Function.update_of_ne hne]
      exact ⟨rfl, rfl⟩
  | stop _ _ _ after =>
    obtain ⟨hlanes, hworkers, -⟩ := stopStep_frame after
    exact Or.inl ⟨hlanes, hworkers, fun _ => nofun⟩
  | beside _ free lanes workers =>
    refine Or.inl ⟨lanes, workers, fun lane heq => free (.inr (.inr lane)) ?_⟩
    rw [heq]
    rfl

theorem workers_ranked : (quiet cfg threads stops memory).Ranking owns (Told memory stopper)
    (fun s => ∀ lane, s.workers lane = .exited) (fun s => ∑ lane, workerLeft s lane)
    fun s i => ∃ lane, i = .inr (.inr lane) ∧ s.workers lane ≠ .exited where
  keep := fun hI hstep => hI.step hstep
  stay := by
    intro s action s' new hI hP hstep lane
    obtain ⟨⟨⟨log, hreaches⟩, -⟩, -⟩ := hI.1
    exact ((closing hreaches).2.late (hP lane) (step_of_quiet hstep).2).1
  step := by
    intro s action s' new hI _ hstep
    right
    rcases hI.workers hstep with ⟨hlanes, hworkers, hne⟩ | ⟨lane, hlt, hothers⟩
    · refine Or.inr ⟨?_, ?_⟩
      · simp only [workerLeft, hlanes, hworkers]
      · rintro i ⟨lane, rfl, hlane⟩
        refine ⟨⟨lane, rfl, by rwa [hworkers]⟩, fun howned => ?_⟩
        cases action <;> try exact howned
        exact hne _ rfl
    · refine Or.inl (Finset.sum_lt_sum (fun other _ => ?_) ⟨lane, Finset.mem_univ lane, hlt⟩)
      by_cases hsame : other = lane
      · exact hsame ▸ hlt.le
      · obtain ⟨hlanes, hworkers⟩ := hothers other hsame
        rw [workerLeft, workerLeft, hlanes, hworkers]
  helped := by
    intro s _ hP
    obtain ⟨lane, hlane⟩ := not_forall.1 hP
    exact ⟨_, lane, rfl, hlane⟩
  free := by
    rintro s _ hI - ⟨lane, rfl, hlane⟩ hblocked
    have hnone : workStep s lane = none := hblocked (.work lane) rfl
    rw [workStep] at hnone
    dsimp only at hnone
    split at hnone <;> first | exact hlane ‹_› | cases hnone

/-! ## `Stop` ends -/

/-- When no call of `Admit` begins any more, a call of `Stop` ends : there are so many rounds that
after them, however the threads have been scheduled in them, no call is in progress, `running_` is
clear and the workers have exited. -/
theorem stop_ends (h : (machine cfg threads stops memory).Reaches s log)
    (hstop : s.stops stopper ≠ none) :
    ∃ n, (∃ t, (quiet cfg threads stops memory).Rounds owns n s t) ∧
      ∀ t, (quiet cfg threads stops memory).Rounds owns n s t →
        CallsOver t ∧ t.stops stopper = some .stopped ∧ t.flags.running = false ∧
          ∀ lane, t.workers lane = .exited := by
  have hI : Stopping memory stopper s := ⟨⟨log, h⟩, hstop⟩
  refine ⟨(s.callsLeft + 1) + (5 + (∑ lane : Lane cfg, (10 * lane.ring.size + 6) + 1)),
    Machine.exists_rounds _ s, fun t hrounds => ?_⟩
  obtain ⟨u₁, hcalls, hrest⟩ := hrounds.split
  obtain ⟨u₂, hstops, hworkers⟩ := hrest.split
  have hI₁ : Alone memory stopper u₁ :=
    ⟨hcalls.keep calls_ranked.keep hI, calls_ranked.reached hI (Nat.lt_succ_self _) hcalls⟩
  have hleft : stopLeft stopper u₁ < 5 := by
    rw [stopLeft]
    rcases u₁.stops stopper with - | stage
    · exact Nat.lt_succ_self 4
    · cases stage <;> decide
  have hstopped : u₂.stops stopper = some .stopped := stop_ranked.reached hI₁ hleft hstops
  have halone : Alone memory stopper u₂ := hstops.keep stop_ranked.keep hI₁
  have hI₂ : Told memory stopper u₂ := by
    obtain ⟨⟨log₂, hreaches⟩, -⟩ := halone.1
    exact ⟨halone, running_of_stopped hreaches hstopped⟩
  have hready : ∑ lane, workerLeft u₂ lane < ∑ lane : Lane cfg, (10 * lane.ring.size + 6) + 1 := by
    obtain ⟨⟨log₂, hreaches⟩, -⟩ := halone.1
    refine Nat.lt_succ_of_le (Finset.sum_le_sum fun lane _ => ?_)
    have hlength := ((slotsKept hreaches).2.lanes lane).length
    have hle := WorkerStage.left_le (u₂.lanes lane).ready.contents.length (u₂.workers lane)
    rw [workerLeft]
    omega
  have hI₃ : Told memory stopper t := hworkers.keep workers_ranked.keep hI₂
  refine ⟨hI₃.1.2, ?_, hI₃.2, workers_ranked.reached hI₂ hready hworkers⟩
  exact (hworkers.keep (I := fun s => Alone memory stopper s ∧ s.stops stopper = some .stopped)
    (fun hs hstep => ⟨stop_ranked.keep hs.1 hstep, stop_ranked.stay hs.1 hs.2 hstep⟩)
    ⟨halone, hstopped⟩).2

/-! ## `Stop` may starve -/

/-- Only its own steps change the stage of a call of `Stop`, also when calls of `Admit` begin. -/
theorem stops_of_step (h : (machine cfg threads stops memory).Reaches s log)
    (hstop : s.stops stopper ≠ none) {action : Action cfg threads stops}
    (hne : action ≠ .stop stopper) (hstep : step s action = some (s', new)) :
    s'.stops stopper = s.stops stopper := by
  have hslots := (slotsKept h).2
  rcases hbegins : action.begins with - | -
  · exact (quietMoves_of_step (fun lane => (hslots.lanes lane).ready_wf)
      (fun lane => (hslots.lanes lane).recycled_wf) hbegins hstep).others hstop hne
  · cases action <;> try cases hbegins
    rw [step] at hstep
    split at hstep
    · obtain ⟨rfl, -⟩ := Prod.mk.inj (Option.some.inj hstep)
      rfl
    · cases hstep

theorem stops_of_run {actions : List (Action cfg threads stops)}
    (h : (machine cfg threads stops memory).Reaches s log) (hstop : s.stops stopper ≠ none)
    (hrun : (machine cfg threads stops memory).runFrom s actions = some (s', new))
    (hothers : ∀ action ∈ actions, action ≠ .stop stopper) :
    s'.stops stopper = s.stops stopper := by
  induction actions generalizing s log new with
  | nil =>
    cases hrun
    rfl
  | cons action actions ih =>
    obtain ⟨t, first, rest, hstep, hrest, -⟩ := Machine.runFrom_cons.1 hrun
    have hsame := stops_of_step h hstop (hothers action List.mem_cons_self) hstep
    have hreaches := h.runFrom (Machine.runFrom_one.2 hstep)
    rw [← hsame]
    exact ih hreaches (hsame ▸ hstop) hrest fun other hmem =>
      hothers other (List.mem_cons_of_mem _ hmem)

/-- A thread can see to it that `callback_active_` is set. -/
theorem exists_active (h : (machine cfg threads stops memory).Reaches s log)
    (caller : Fin threads) : ∃ actions t new,
      (machine cfg threads stops memory).runFrom s actions = some (t, new) ∧
        (∀ action ∈ actions, ∀ stopper, action ≠ .stop stopper) ∧
        t.flags.callbackActive = true := by
  induction hcount : s.callsLeft using Nat.strong_induction_on generalizing s log with
  | _ count ih =>
  rcases hactive : s.flags.callbackActive with - | -
  · rcases hongoing : s.admits caller with - | ⟨call, stage⟩
    · -- A new call finds it clear.
      let call : AdmitCall := ⟨[], [], 0⟩
      let called :=
        ({ s with callbacks := s.callbacks + 1 }).setAdmit caller (some (call, .entering))
      have hcall : step s (.call caller call) = some (called, [.called caller call]) := by
        rw [step, hongoing]
      have hthere : called.admits caller = some (call, .entering) := Function.update_self ..
      have hresume : step called (.resume caller) =
          some (callStep called caller call .entering) := by
        rw [step, hthere]
        rfl
      refine ⟨[.call caller call, .resume caller], (callStep called caller call .entering).1, _,
        Machine.runFrom_cons.2 ⟨called, _, _, hcall, Machine.runFrom_one.2 hresume, rfl⟩, ?_, ?_⟩
      · intro action hmem stopper heq
        subst heq
        simp at hmem
      · have hclear : called.flags.callbackActive = false := hactive
        rw [callStep, hclear]
        rfl
    · have hslots := (slotsKept h).2
      have hlt := callStep_callsLeft (fun lane => (hslots.lanes lane).ready_wf)
        (fun lane => (hslots.lanes lane).recycled_wf) hongoing
      have hresume : (machine cfg threads stops memory).step s (.resume caller) =
          some (callStep s caller call stage) := by
        show step s (.resume caller) = _
        rw [step, hongoing]
        rfl
      obtain ⟨actions, t, new, hrun, hothers, ht⟩ :=
        ih _ (hcount ▸ hlt) (h.runFrom (Machine.runFrom_one.2 hresume)) rfl
      refine ⟨.resume caller :: actions, t, _,
        Machine.runFrom_cons.2 ⟨_, _, _, hresume, hrun, rfl⟩, ?_, ht⟩
      exact List.forall_mem_cons.2 ⟨fun _ heq => (by cases heq), hothers⟩
  · exact ⟨[], s, [], rfl, fun _ hmem => absurd hmem List.not_mem_nil, hactive⟩

/-- When calls of `Admit` keep coming, a call of `Stop` need not end : there are runs of as many
rounds as one likes in which it finds `callback_active_` set each time it looks, although it has
closed the gate. -/
theorem stop_starves (h : (machine cfg threads stops memory).Reaches s log)
    (hwaiting : s.stops stopper = some .waiting) (caller : Fin threads) (n : ℕ) :
    ∃ t, (machine cfg threads stops memory).Rounds owns n s t ∧
      t.stops stopper = some .waiting ∧ t.flags.accepting = false := by
  induction n generalizing s log with
  | zero =>
    exact ⟨s, .none s, hwaiting, (closing h).2.closed stopper _ hwaiting (by decide)⟩
  | succ n ih =>
    obtain ⟨before, u, events, hbefore, hothers, hactive⟩ := exists_active h caller
    have hu : u.stops stopper = some .waiting := by
      rw [stops_of_run h (by simp [hwaiting]) hbefore fun action hmem =>
        hothers action hmem stopper]
      exact hwaiting
    let looked : State cfg threads stops :=
      { u with stops := Function.update u.stops stopper (some .waiting) }
    have hlook : (machine cfg threads stops memory).step u (.stop stopper) = some (looked, []) := by
      show step u (.stop stopper) = _
      rw [step, hu, Option.bind_some, stopStep, hactive]
      rfl
    have hlooked : looked.stops stopper = some .waiting := Function.update_self ..
    -- The others are served when `Stop` has looked.
    let M := machine cfg threads stops memory
    obtain ⟨after, t, more, hafter, howned, hserves⟩ : ∃ actions t log,
        M.runFrom looked actions = some (t, log) ∧
        (∀ action ∈ actions, ∃ i ∈ (Finset.univ.erase (Sum.inr (Sum.inl stopper))).toList,
          owns i action) ∧
        ∀ i ∈ (Finset.univ.erase (Sum.inr (Sum.inl stopper))).toList,
          M.Serves (owns i) looked actions := Machine.exists_serves _ looked
    have hrun₁ := Machine.runFrom_snoc.2 ⟨u, events, [], hbefore, hlook, rfl⟩
    have hrun := Machine.runFrom_append.2 ⟨looked, _, more, hrun₁, hafter, rfl⟩
    have ht : t.stops stopper = some .waiting := by
      rw [stops_of_run (h.runFrom hrun₁) (by simp [hlooked]) hafter ?_]
      · exact hlooked
      · rintro _ hmem rfl
        obtain ⟨i, hi, hown⟩ := howned _ hmem
        have hne := Finset.ne_of_mem_erase (Finset.mem_toList.1 hi)
        rcases i with i | i | i <;> try exact hown
        exact hne (congrArg (Sum.inr ∘ Sum.inl) hown.symm)
    obtain ⟨v, hrounds, hv⟩ := ih (h.runFrom hrun) ht
    refine ⟨v, .round hrun (fun i => ?_) hrounds, hv⟩
    by_cases hi : i = Sum.inr (Sum.inl stopper)
    · subst hi
      exact Or.inl ⟨.stop stopper, by simp, rfl⟩
    · exact (hserves i (Finset.mem_toList.2 (Finset.mem_erase.2 ⟨hi, Finset.mem_univ i⟩))).prepend
        hrun₁

end Phases

/-! ### `Stop` is called when a call of `Admit` is in progress -/

/-- The call is past `callback_active_` when `Stop` has closed the gate. -/
def sampleStopping : List (Action sampleConfig 1 1) :=
  [.start, .start, .call sampleThread sampleCall, .resume sampleThread, .callStop sampleThread,
    .stop sampleThread]

theorem sampleStopping_run :
    (((machine sampleConfig 1 1 sampleMemory).run sampleStopping).map
      fun last => last.1.stops sampleThread) = some (some .waiting) := by
  decide +kernel

theorem stop_ends_sample : ∃ s log, (machine sampleConfig 1 1 sampleMemory).Reaches s log ∧
    s.stops sampleThread = some .waiting ∧ ∃ n t,
      (quiet sampleConfig 1 1 sampleMemory).Rounds owns n s t ∧
        t.stops sampleThread = some .stopped ∧ t.workers sampleLane = .exited := by
  obtain ⟨⟨s, log⟩, hrun, hwaiting⟩ := Option.map_eq_some_iff.1 sampleStopping_run
  have hstop : s.stops sampleThread ≠ none := fun hnone => by
    cases hwaiting.symm.trans hnone
  obtain ⟨n, ⟨t, hrounds⟩, hends⟩ := stop_ends ⟨_, hrun⟩ hstop
  obtain ⟨-, hstopped, -, hexited⟩ := hends t hrounds
  exact ⟨s, log, ⟨_, hrun⟩, hwaiting, n, t, hrounds, hstopped, hexited sampleLane⟩

theorem stop_starves_sample : ∃ s log, (machine sampleConfig 1 1 sampleMemory).Reaches s log ∧
    ∃ t, (machine sampleConfig 1 1 sampleMemory).Rounds owns 1000 s t ∧
      t.stops sampleThread = some .waiting ∧ t.flags.accepting = false := by
  obtain ⟨⟨s, log⟩, hrun, hwaiting⟩ := Option.map_eq_some_iff.1 sampleStopping_run
  exact ⟨s, log, ⟨_, hrun⟩, stop_starves ⟨_, hrun⟩ hwaiting sampleThread 1000⟩

end Admission

end L2Flow
