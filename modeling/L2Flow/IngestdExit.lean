import L2Flow.Fairness
import L2Flow.IngestdLaps

/-!
# The daemon ends

`main` spins until the owners have counted what the lanes have published, and the owners go around
until `main` tells them to stop. When the workers are joined nothing more is published, so that in a
fair run the rings are empty after so many rounds (`counting_ranked`). Then `main` has seven steps
to make (`comparing_ranked`), the owners have at most a lap each (`leaving_ranked`), and `main`
joins them : in whatever order the threads make their steps, `main` comes to have joined the owners
(`daemon_ends`). The polls of gaps are left out, as everywhere in this model.
-/

namespace L2Flow

open QueueMatrix (Polling pollMoves_of_step)

namespace Ingestd

variable {cfg : IngestdConfig} {threads stops : ℕ}

/-- The threads that are left when the workers have been joined : those of the owners, and
`main`. -/
def owns : Option (Fin cfg.engine.instrumentWorkers) → Action cfg threads stops → Prop
  | some owner, .drain owner' => owner' = owner
  | none, .main _ => True
  | _, _ => False

section Exit

variable {stopper : Fin stops} {memory : Memory cfg} {s s' : State cfg threads stops}
  {log new : List (Event cfg threads)}

/-- `main` has joined the workers. -/
def Joined (stopper : Fin stops) (memory : Memory cfg) (s : State cfg threads stops) : Prop :=
  (∃ log, (machine cfg threads stops stopper memory).Reaches s log) ∧ s.main.joined = true

/-- The owners have counted what the lanes have counted. -/
def Counted (s : State cfg threads stops) : Prop :=
  ∀ kind, stats s kind ≤ s.consumed kind

theorem Joined.rested (h : Joined stopper memory s) (lane : Lane cfg.engine.admission) :
    s.engine.tasks lane = .none ∧ Rests s lane := by
  obtain ⟨⟨log, hreaches⟩, hjoined⟩ := h
  exact (traced hreaches).rested lane ((leaving hreaches).exited hjoined lane)

/-- The steps of `main` when it has joined the workers. -/
inductive MainMoves (s : State cfg threads stops) : State cfg threads stops → Prop where
  | read (stage : s.main = .reading) : MainMoves s { s with main := .comparing (stats s) Kind.all }
  | passed {dispatched : Kind → ℕ} {kind : Kind} {rest : List Kind}
      (stage : s.main = .comparing dispatched (kind :: rest))
      (le : dispatched kind ≤ s.consumed kind) :
      MainMoves s { s with main := .comparing dispatched rest }
  | again {dispatched : Kind → ℕ} {kind : Kind} {rest : List Kind}
      (stage : s.main = .comparing dispatched (kind :: rest))
      (lt : s.consumed kind < dispatched kind) : MainMoves s { s with main := .reading }
  | counted {dispatched : Kind → ℕ} (stage : s.main = .comparing dispatched []) :
      MainMoves s { s with main := .drained }
  | stopped (stage : s.main = .drained) :
      MainMoves s { s with drainRunning := false, main := .joining }
  | ended (stage : s.main = .joining) : MainMoves s { s with main := .exited }

theorem mainMoves_of_step {connected : Bool} (hjoined : s.main.joined = true)
    (h : mainStep stopper s connected = some s') : MainMoves s s' := by
  cases hmain : s.main <;> rw [hmain] at hjoined <;> try cases hjoined
  case reading =>
    simp only [mainStep, hmain, Option.some.injEq] at h
    exact h ▸ .read hmain
  case comparing dispatched rest =>
    cases rest with
    | nil =>
      simp only [mainStep, hmain, Option.some.injEq] at h
      exact h ▸ .counted hmain
    | cons kind rest =>
      simp only [mainStep, hmain, Option.some.injEq] at h
      split_ifs at h with hle
      · exact h ▸ .passed hmain hle
      · exact h ▸ .again hmain (Nat.lt_of_not_le hle)
  case drained =>
    simp only [mainStep, hmain, Option.some.injEq] at h
    exact h ▸ .stopped hmain
  case joining =>
    simp only [mainStep, hmain] at h
    split_ifs at h
    exact Option.some.inj h ▸ .ended hmain
  case exited =>
    simp only [mainStep, hmain] at h
    cases h

theorem MainMoves.joined (h : MainMoves s s') : s'.main.joined = true := by
  cases h <;> rfl

theorem Joined.step (h : Joined stopper memory s) {action : Action cfg threads stops}
    (hstep : (machine cfg threads stops stopper memory).step s action = some (s', new)) :
    Joined stopper memory s' := by
  obtain ⟨⟨log, hreaches⟩, hjoined⟩ := h
  refine ⟨⟨_, hreaches.runFrom (Machine.runFrom_one.2 hstep)⟩, ?_⟩
  rcases (moves_of_step hstep).main_or_beside with ⟨connected, hmain⟩ | hbeside
  · exact (mainMoves_of_step hjoined hmain).joined
  · rw [hbeside.main]
    exact hjoined

/-! ## The steps of the owners -/

theorem same_of_queues {owner : Fin cfg.engine.instrumentWorkers}
    (hdrains : s'.drains owner = s.drains owner)
    (hqueues : ∀ kind, queuesOf s' kind = queuesOf s kind) :
    Same s s' owner :=
  ⟨hdrains, fun kind _ => by rw [hqueues]; exact ⟨rfl, rfl, fun _ => rfl⟩⟩

theorem polling_of_polls (haccounts : Accounts s log) {owner : Fin cfg.engine.instrumentWorkers}
    {kind : Kind} {events : List (Event cfg threads)} {answer : Option Bool}
    (hpolls : Polls s s' owner kind events answer) :
    Polling (queuesOf s kind) (queuesOf s' kind) (placeOf owner kind) answer := by
  rw [hpolls.answer]
  exact (pollMoves_of_step hpolls.step).polling (haccounts kind).flows.wf (placeOf_lt owner kind)

/-- A step of an owner lowers its rank. -/
theorem rank_drain (htouring : Touring s) (haccounts : Accounts s log)
    {owner : Fin cfg.engine.instrumentWorkers} (h : drainStep s owner = some (s', new)) :
    rank s' owner ≤ rank s owner - 1 := by
  rw [drainStep] at h
  split at h
  · next hstage =>
    obtain ⟨rfl, -⟩ := Prod.mk.inj (Option.some.inj h)
    exact rank_test htouring hstage
  · next kind hstage =>
    obtain ⟨⟨s₁, events, answer⟩, hpoll, heq⟩ := Option.map_eq_some_iff.1 h
    obtain ⟨rfl, -⟩ := Prod.mk.inj heq
    have hpolls := polls_of_step hpoll
    have hpolling := polling_of_polls haccounts hpolls
    exact rank_poll htouring hstage hpolling
      (fun other hne => (hpolls.others other hne).1) (drains_setDrain_self ..)
  · next kind hstage =>
    obtain ⟨rfl, -⟩ := Prod.mk.inj (Option.some.inj h)
    exact rank_consume htouring hstage (fun _ => rfl) (drains_setDrain_self ..)
  · cases h

/-- No other owner sees anything of it. -/
theorem same_of_drain (htouring : Touring s) {owner other : Fin cfg.engine.instrumentWorkers}
    (h : drainStep s owner = some (s', new)) (hne : other ≠ owner) : Same s s' other := by
  rw [drainStep] at h
  split at h
  · obtain ⟨rfl, -⟩ := Prod.mk.inj (Option.some.inj h)
    exact same_of_queues (Function.update_of_ne hne ..) fun _ => rfl
  · next kind hstage =>
    obtain ⟨⟨s₁, events, answer⟩, hpoll, heq⟩ := Option.map_eq_some_iff.1 h
    obtain ⟨rfl, -⟩ := Prod.mk.inj heq
    have hpolls := polls_of_step hpoll
    have hdrains : s₁.drains = s.drains := by rw [hpolls.frame]
    refine ⟨?_, fun kind' hmem => alike_of_polls hpolls (htouring.polling hstage) hne kind' hmem⟩
    rw [← hdrains]
    exact Function.update_of_ne hne ..
  · obtain ⟨rfl, -⟩ := Prod.mk.inj (Option.some.inj h)
    exact same_of_queues (Function.update_of_ne hne ..) fun _ => rfl
  · cases h

theorem exists_drainStep {owner : Fin cfg.engine.instrumentWorkers}
    (h : s.drains owner ≠ .exited) : ∃ next, drainStep s owner = some next := by
  have hpoll : ∀ {α : Type} {shape : MatrixShape} (m : QueueMatrix α shape) (place : ℕ),
      ∃ next, m.pollStep place = some next := by
    intro α shape m place
    cases hpolls : m.polls place with
    | none =>
      simp only [QueueMatrix.pollStep, QueueMatrix.callPoll, hpolls]
      split_ifs <;> exact ⟨_, rfl⟩
    | some count =>
      simp only [QueueMatrix.pollStep, QueueMatrix.pollPass, hpolls]
      split_ifs
      · split <;> exact ⟨_, rfl⟩
      · exact ⟨_, rfl⟩
  cases hstage : s.drains owner with
  | testing => exact ⟨_, by rw [drainStep, hstage]⟩
  | counting kind => exact ⟨_, by rw [drainStep, hstage]⟩
  | exited => exact absurd hstage h
  | polling kind =>
    rw [drainStep, hstage]
    dsimp only
    cases kind with
    | tick =>
      obtain ⟨next, hnext⟩ := hpoll s.engine.ticks owner
      exact ⟨_, by rw [pollStep, hnext]; rfl⟩
    | snapshot =>
      obtain ⟨next, hnext⟩ := hpoll s.engine.snapshots owner
      exact ⟨_, by rw [pollStep, hnext]; rfl⟩
    | late =>
      obtain ⟨next, hnext⟩ := hpoll s.lates 0
      exact ⟨_, by rw [pollStep, hnext]; rfl⟩
    | fault =>
      obtain ⟨next, hnext⟩ := hpoll s.faults 0
      exact ⟨_, by rw [pollStep, hnext]; rfl⟩

/-- A worker that has exited publishes nothing. -/
theorem spin_joined (h : Joined stopper memory s) (lane : Lane cfg.engine.admission) (kind : Kind)
    (hkind : publishes lane kind = true) :
    (queuesOf s kind).spin (ownerOf cfg kind) (indexOf lane) = none := by
  rw [QueueMatrix.spin, ((h.rested lane).2 kind hkind).1]

/-- With the workers joined only the steps of the owners do anything that an owner sees. -/
theorem Joined.same_or_drain (h : Joined stopper memory s) (hmoves : Moves stopper s s' new) :
    (∀ owner, Same s s' owner) ∨ ∃ owner events, drainStep s owner = some (s', events) := by
  cases hmoves with
  | @admission action engine events settled step =>
    refine Or.inl fun owner => same_of_queues rfl fun kind => ?_
    cases kind with
    | tick => exact step.ticks
    | snapshot => exact step.snapshots
    | late | fault => rfl
  | input settled turned => exact absurd (h.rested _).1 turned.given.task_ne
  | early settled turned => exact absurd (h.rested _).1 turned.given.task_ne
  | message settled task held idle => cases (h.rested _).1.symm.trans task
  | @publishTick index ticks counted spin =>
    cases (spin_joined h (.tick index) .tick rfl).symm.trans spin
  | @publishSnapshot index snapshots counted spin =>
    cases (spin_joined h (.snapshot index) .snapshot rfl).symm.trans spin
  | @publishLate index lates counted spin =>
    cases (spin_joined h (.tick index) .late rfl).symm.trans spin
  | @publishFault index faults counted spin =>
    cases (spin_joined h (.tick index) .fault rfl).symm.trans spin
  | count uncounted => exact Or.inl fun owner => same_of_queues rfl fun _ => rfl
  | @test owner stage => exact Or.inr ⟨owner, [], by rw [drainStep, stage]⟩
  | @poll owner kind s₁ events answer stage step =>
    exact Or.inr ⟨owner, _, by rw [drainStep, stage]; dsimp only; rw [step]; rfl⟩
  | @consume owner kind stage => exact Or.inr ⟨owner, [], by rw [drainStep, stage]⟩
  | main step =>
    obtain ⟨drainRunning, main, rfl⟩ := mainStep_frame step
    exact Or.inl fun owner => same_of_queues rfl fun _ => rfl

/-- The thread of an owner for which there is something to count. -/
def Busy (left : State cfg threads stops → Fin cfg.engine.instrumentWorkers → ℕ)
    (s : State cfg threads stops) : Option (Fin cfg.engine.instrumentWorkers) → Prop
  | some owner => left s owner ≠ 0
  | none => False

/-- The owners make for what comes to pass when none of them has anything left to do. -/
theorem owners_ranked {I P : State cfg threads stops → Prop}
    {left : State cfg threads stops → Fin cfg.engine.instrumentWorkers → ℕ}
    (hkeep : ∀ {s action s' new}, I s →
      (machine cfg threads stops stopper memory).step s action = some (s', new) → I s')
    (hstay : ∀ {s s' new}, I s → P s → Moves stopper s s' new → P s')
    (hjoined : ∀ {s}, I s → Joined stopper memory s)
    (hsame : ∀ {s s' owner}, I s → Same s s' owner → left s' owner = left s owner)
    (hdrain : ∀ {s owner s' new}, I s → drainStep s owner = some (s', new) →
      left s' owner ≤ left s owner - 1)
    (hdone : ∀ {s}, I s → (∀ owner, left s owner = 0) → P s)
    (hrunning : ∀ {s owner}, I s → ¬P s → left s owner ≠ 0 → s.drains owner ≠ .exited) :
    (machine cfg threads stops stopper memory).Ranking owns I P
      (fun s => ∑ owner, left s owner) (Busy left) where
  keep hI hstep := hkeep hI hstep
  stay hI hP hstep := hstay hI hP (moves_of_step hstep)
  step {s action s' new} hI hP hstep := by
    obtain ⟨⟨log, hreaches⟩, -⟩ := id (hjoined hI)
    have hle : ∀ owner ∈ Finset.univ, left s' owner ≤ left s owner := by
      intro owner _
      rcases (hjoined hI).same_or_drain (moves_of_step hstep) with hall | ⟨other, events, hown⟩
      · exact (hsame hI (hall owner)).le
      · rcases eq_or_ne owner other with rfl | hne
        · exact (hdrain hI hown).trans (Nat.sub_le _ _)
        · exact (hsame hI (same_of_drain (touring hreaches) hown hne)).le
    rcases (Finset.sum_le_sum hle).lt_or_eq with hlt | heq
    · exact Or.inr (Or.inl hlt)
    · have hequal := (Finset.sum_eq_sum_iff_of_le hle).1 heq
      refine Or.inr (Or.inr ⟨heq, fun thread hbusy => ?_⟩)
      cases thread with
      | none => exact hbusy.elim
      | some owner =>
        refine ⟨fun hzero => hbusy (hequal owner (Finset.mem_univ owner) ▸ hzero), fun hown => ?_⟩
        -- A step of the owner would have left it less.
        cases action with
        | drain owner' =>
          obtain rfl : owner' = owner := hown
          have hless := hdrain hI hstep
          have hsum := hequal owner' (Finset.mem_univ owner')
          have hnonzero : left s owner' ≠ 0 := hbusy
          omega
        | engine action | publishLate index | publishFault index | count kind index
          | main connected => exact hown
  helped {s} hI hP := by
    by_contra hnone
    refine hP (hdone hI fun owner => ?_)
    by_contra hne
    exact hnone ⟨some owner, hne⟩
  free {s thread} hI hP hbusy hblocked := by
    cases thread with
    | none => exact hbusy
    | some owner =>
      obtain ⟨next, hnext⟩ := exists_drainStep (hrunning hI hP hbusy)
      cases (hblocked (.drain owner) rfl).symm.trans hnext

/-! ## The rings are emptied -/

/-- Every ring is polled by an owner. -/
theorem exists_owner {kind : Kind} {place : ℕ} (h : place < (shapeOf cfg kind).owners) :
    ∃ owner : Fin cfg.engine.instrumentWorkers, kind ∈ kindsOf owner ∧
      placeOf owner kind = place := by
  cases kind with
  | tick => exact ⟨⟨place, h⟩, tick_mem_kindsOf _, rfl⟩
  | snapshot =>
    refine ⟨⟨place, h⟩, ?_, rfl⟩
    rw [kindsOf]
    split_ifs <;> simp [Kind.all]
  | late | fault =>
    exact ⟨⟨0, cfg.engine.workers_pos⟩, by simp [kindsOf, Kind.all], (Nat.lt_one_iff.1 h).symm⟩

theorem Joined.uncountedLanes (h : Joined stopper memory s) (kind : Kind) :
    uncountedLanes s kind = 0 :=
  Finset.sum_eq_zero fun producer hproducer => by
    obtain ⟨lane, hkind, rfl⟩ := exists_lane (Finset.mem_range.1 hproducer)
    rw [((h.rested lane).2 kind hkind).2]
    rfl

theorem Joined.counted_of_swept (h : Joined stopper memory s) (hswept : ∀ owner, Swept s owner) :
    Counted s := by
  intro kind
  obtain ⟨⟨log, hreaches⟩, -⟩ := id h
  have hcounts := counts_agree hreaches kind
  have hcounting : counting s kind = 0 :=
    Finset.sum_eq_zero fun owner _ => if_neg ((hswept owner).2 kind)
  have hwaiting : (queuesOf s kind).waiting = 0 := by
    rw [QueueMatrix.waiting, Finset.sum_comm]
    refine Finset.sum_eq_zero fun place hplace => ?_
    obtain ⟨owner, hkind, rfl⟩ := exists_owner (Finset.mem_range.1 hplace)
    exact backlog_eq_zero_iff.1 (hswept owner).1 kind hkind
  rw [h.uncountedLanes, hcounting, hwaiting] at hcounts
  exact hcounts.le

/-- The counters of the lanes are final, and those of the owners only rise. -/
theorem Joined.counted (h : Joined stopper memory s) (hcounted : Counted s)
    (hmoves : Moves stopper s s' new) : Counted s' := by
  intro kind
  rcases hmoves.main_or_beside with ⟨connected, hmain⟩ | hbeside
  · obtain ⟨drainRunning, main, rfl⟩ := mainStep_frame hmain
    exact hcounted kind
  · rw [hbeside.stats fun lane => (h.rested lane).2]
    exact (hcounted kind).trans (hbeside.consumed kind)

theorem MainStage.unconnected_of_joined {main : MainStage} (h : main.joined = true) :
    main.unconnected = false := by
  cases main <;> first | rfl | cases h

/-- The owners count what the lanes have counted. -/
theorem counting_ranked : (machine cfg threads stops stopper memory).Ranking owns
    (Joined stopper memory) Counted (fun s => ∑ owner, rank s owner) (Busy rank) := by
  refine owners_ranked (fun h hstep => h.step hstep)
    (fun h hcounted hmoves => h.counted hcounted hmoves)
    id (fun {s s' owner} h hsame => ?_) (fun {s owner s' new} h hdrain => ?_)
    (fun h hzero => h.counted_of_swept fun owner => rank_eq_zero_iff.1 (hzero owner))
    fun {s owner} h hcounted _ hexited => ?_
  · obtain ⟨⟨log, hreaches⟩, -⟩ := h
    exact hsame.rank (touring hreaches)
  · obtain ⟨⟨log, hreaches⟩, -⟩ := h
    exact rank_drain (touring hreaches) (accounts hreaches) hdrain
  · obtain ⟨⟨log, hreaches⟩, hjoined⟩ := h
    have hleaving := leaving hreaches
    rcases hleaving.running (hleaving.drains owner hexited) with hdone | hunconnected
    · exact hcounted (hleaving.done hdone)
    · cases (MainStage.unconnected_of_joined hjoined).symm.trans hunconnected

/-! ## `main` tells the owners to stop -/

/-- `main` waits for the threads of the owners, or is over. -/
def Stopped (s : State cfg threads stops) : Prop :=
  (s.main = .joining ∨ s.main = .exited) ∧ s.drainRunning = false

/-- The steps of `main` until then, if the owners have counted all. -/
def MainStage.left : MainStage → ℕ
  | .reading => 7
  | .comparing _ rest => rest.length + 2
  | .drained => 1
  | _ => 0

theorem MainStage.left_of_unjoined {main : MainStage} (h : main.joined = false) :
    main.left = 0 := by
  cases main <;> first | rfl | cases h

theorem reading_of_joined {connected : Bool} (hbefore : s.main.joined = false)
    (h : mainStep stopper s connected = some s') (hjoined : s'.main.joined = true) :
    s'.main = .reading := by
  rw [mainStep] at h
  split at h
  case h_1 =>
    obtain rfl := Option.some.inj h
    cases connected <;> cases hjoined
  case h_2 | h_9 =>
    obtain rfl := Option.some.inj h
    cases hjoined
  case h_3 =>
    split_ifs at h
    obtain rfl := Option.some.inj h
    rfl
  case h_10 | h_11 =>
    split_ifs at h
    obtain rfl := Option.some.inj h
    cases hjoined
  case h_12 | h_13 => cases h
  all_goals
    rename_i hmain
    rw [hmain] at hbefore
    cases hbefore

/-- Where `main` is when it has joined the workers. -/
structure Winding (s : State cfg threads stops) : Prop where
  left_le : s.main.left ≤ 7
  stopped : s.main.joined = true → s.main.left = 0 → Stopped s

theorem winding_step (h : Winding s) (hmoves : Moves stopper s s' new) : Winding s' := by
  rcases hmoves.main_or_beside with ⟨connected, hmain⟩ | hbeside
  · cases hbefore : s.main.joined with
    | true =>
      cases mainMoves_of_step hbefore hmain with
      | read stage => exact ⟨Nat.le_succ 6, fun _ hleft => absurd hleft (Nat.succ_ne_zero 5)⟩
      | again stage lt => exact ⟨le_rfl, fun _ hleft => absurd hleft (Nat.succ_ne_zero 6)⟩
      | counted stage => exact ⟨Nat.succ_le_succ (Nat.zero_le 6), fun _ hleft => by cases hleft⟩
      | passed stage le =>
        have hleft := h.left_le
        rw [stage] at hleft
        exact ⟨Nat.le_of_succ_le hleft, fun _ hzero => absurd hzero (Nat.succ_ne_zero _)⟩
      | stopped stage => exact ⟨Nat.zero_le 7, fun _ _ => ⟨Or.inl rfl, rfl⟩⟩
      | ended stage =>
        exact ⟨Nat.zero_le 7, fun _ _ => ⟨Or.inr rfl, (h.stopped hbefore (by rw [stage]; rfl)).2⟩⟩
    | false =>
      cases hafter : s'.main.joined with
      | true =>
        have hreading := reading_of_joined hbefore hmain hafter
        exact ⟨by rw [hreading]; exact le_rfl,
          fun _ hleft => by rw [hreading] at hleft; cases hleft⟩
      | false =>
        exact ⟨(MainStage.left_of_unjoined hafter).trans_le (Nat.zero_le 7),
          fun hjoined => by cases hafter.symm.trans hjoined⟩
  · refine ⟨hbeside.main ▸ h.left_le, fun hjoined hleft => ?_⟩
    rw [hbeside.main] at hjoined hleft
    obtain ⟨hmain, hrunning⟩ := h.stopped hjoined hleft
    exact ⟨hbeside.main ▸ hmain, hbeside.running.trans hrunning⟩

theorem winding_start : Winding (machine cfg threads stops stopper memory).start :=
  ⟨Nat.zero_le 7, fun h => by cases h⟩

theorem winding (h : (machine cfg threads stops stopper memory).Reaches s log) : Winding s :=
  Machine.invariant (I := fun s _ => Winding s) winding_start
    (fun h hstep => winding_step h (moves_of_step hstep)) h

/-- Once `main` has stopped the owners they stay stopped. -/
theorem Joined.stopped (h : Joined stopper memory s) (hstopped : Stopped s)
    (hmoves : Moves stopper s s' new) : Stopped s' := by
  rcases hmoves.main_or_beside with ⟨connected, hmain⟩ | hbeside
  · cases mainMoves_of_step h.2 hmain with
    | ended stage => exact ⟨Or.inr rfl, hstopped.2⟩
    | read stage | passed stage le | again stage lt | counted stage | stopped stage =>
      rw [Stopped, stage] at hstopped
      simp at hstopped
  · exact ⟨hbeside.main ▸ hstopped.1, hbeside.running.trans hstopped.2⟩

/-- `main` finds that all has been counted. -/
theorem comparing_ranked : (machine cfg threads stops stopper memory).Ranking owns
    (fun s => Joined stopper memory s ∧ Counted s) Stopped (fun s => s.main.left)
    fun _ thread => thread = none where
  keep hI hstep := ⟨hI.1.step hstep, hI.1.counted hI.2 (moves_of_step hstep)⟩
  stay hI hstopped hstep := hI.1.stopped hstopped (moves_of_step hstep)
  step {s action s' new} hI hstopped hstep := by
    have hmain : ∀ connected, mainStep stopper s connected = some s' →
        Stopped s' ∨ s'.main.left < s.main.left := by
      intro connected hmain
      obtain ⟨⟨log, hreaches⟩, hjoined⟩ := hI.1
      cases mainMoves_of_step hjoined hmain with
      | read stage =>
        rw [stage]
        exact Or.inr (Nat.lt_succ_self 6)
      | passed stage le =>
        rw [stage]
        exact Or.inr (Nat.lt_succ_self _)
      | again stage lt =>
        obtain ⟨rfl, -⟩ := (leaving hreaches).compared _ _ stage
        exact absurd (hI.2 _) (Nat.not_le.2 lt)
      | counted stage =>
        rw [stage]
        exact Or.inr (Nat.lt_succ_self 1)
      | stopped stage => exact Or.inl ⟨Or.inl rfl, rfl⟩
      | ended stage =>
        exact absurd ((winding hreaches).stopped hjoined (by rw [stage]; rfl)) hstopped
    rcases (moves_of_step hstep).main_or_beside with ⟨connected, hstepped⟩ | hbeside
    · exact (hmain connected hstepped).imp_right Or.inl
    · cases action with
      | main connected =>
        obtain ⟨t, ht, heq⟩ := Option.map_eq_some_iff.1 hstep
        obtain ⟨rfl, -⟩ := Prod.mk.inj heq
        exact (hmain connected ht).imp_right Or.inl
      | engine action | publishLate index | publishFault index | count kind index
        | drain owner =>
        refine Or.inr (Or.inr ⟨by rw [hbeside.main], ?_⟩)
        rintro thread rfl
        exact ⟨rfl, id⟩
  helped _ _ := ⟨none, rfl⟩
  free {s thread} hI hstopped hnone hblocked := by
    obtain ⟨⟨log, hreaches⟩, hjoined⟩ := hI.1
    subst hnone
    have hmain : mainStep stopper s true = none :=
      Option.map_eq_none_iff.1 (hblocked (.main true) trivial)
    cases hstage : s.main <;> rw [hstage] at hjoined <;> try cases hjoined
    case reading | drained => simp [mainStep, hstage] at hmain
    case comparing dispatched rest => cases rest <;> simp [mainStep, hstage] at hmain
    case joining | exited =>
      exact hstopped ((winding hreaches).stopped (by rw [hstage]; rfl) (by rw [hstage]; rfl))

/-! ## The owners leave -/

theorem Joined.swept (h : Joined stopper memory s) (hcounted : Counted s)
    (owner : Fin cfg.engine.instrumentWorkers) : Swept s owner := by
  obtain ⟨⟨log, hreaches⟩, -⟩ := id h
  have hzero : ∀ kind, counting s kind = 0 ∧ (queuesOf s kind).waiting = 0 := by
    intro kind
    have hcounts := counts_agree hreaches kind
    rw [h.uncountedLanes] at hcounts
    have hle := hcounted kind
    omega
  refine ⟨backlog_eq_zero_iff.2 fun kind _ => ?_, fun kind hstage => ?_⟩
  · have hwaiting := (hzero kind).2
    rw [QueueMatrix.waiting, Finset.sum_comm] at hwaiting
    exact Finset.sum_eq_zero_iff.1 hwaiting _ (Finset.mem_range.2 (placeOf_lt owner kind))
  · have hnone := Finset.sum_eq_zero_iff.1 (hzero kind).1 owner (Finset.mem_univ owner)
    rw [if_pos hstage] at hnone
    cases hnone

/-- The steps of an owner until its thread ends, if nothing is found. -/
def exitLeft (s : State cfg threads stops) (owner : Fin cfg.engine.instrumentWorkers) : ℕ :=
  match s.drains owner with
  | .testing => 1
  | .exited => 0
  | _ => stepsLeft s owner + 1

theorem exitLeft_le (h : Touring s) (owner : Fin cfg.engine.instrumentWorkers) :
    exitLeft s owner ≤ lap owner + 1 := by
  have hleft := stepsLeft_le h owner
  rw [exitLeft]
  split <;> omega

theorem exitLeft_drain (hjoined : Joined stopper memory s) (hcounted : Counted s)
    (hrunning : s.drainRunning = false) {owner : Fin cfg.engine.instrumentWorkers}
    (h : drainStep s owner = some (s', new)) : exitLeft s' owner ≤ exitLeft s owner - 1 := by
  obtain ⟨⟨log, hreaches⟩, -⟩ := id hjoined
  have htouring := touring hreaches
  have hswept := hjoined.swept hcounted owner
  have hstays : Swept s' owner := by
    have hrank := rank_drain htouring (accounts hreaches) h
    rw [rank_eq_zero_iff.2 hswept] at hrank
    exact rank_eq_zero_iff.1 (Nat.le_zero.1 hrank)
  rw [drainStep] at h
  split at h
  · obtain ⟨rfl, -⟩ := Prod.mk.inj (Option.some.inj h)
    rw [exitLeft, drains_setDrain_self, hrunning]
    exact Nat.zero_le _
  · next kind hstage =>
    obtain ⟨⟨s₁, events, answer⟩, hpoll, heq⟩ := Option.map_eq_some_iff.1 h
    obtain ⟨rfl, -⟩ := Prod.mk.inj heq
    have hpolls := polls_of_step hpoll
    have hnext : (s₁.setDrain owner (.after owner kind answer)).drains owner =
        .after owner kind answer := drains_setDrain_self ..
    have hbefore : exitLeft s owner = stepsLeft s owner + 1 := by rw [exitLeft, hstage]
    rw [hbefore, Nat.add_sub_cancel]
    cases polling_of_polls (accounts hreaches) hpolls with
    | looked waiting left passed =>
      have hless : stepsLeft (s₁.setDrain owner _) owner < stepsLeft s owner :=
        stepsLeft_looked hstage left hnext
      rw [exitLeft, hnext]
      exact hless
    | took waiting idle => exact absurd hnext (hstays.2 kind)
    | ended waiting idle passed =>
      rcases next_cases (htouring.polling hstage) with ⟨-, hlast⟩ | ⟨next, -, hlast, -, hafter⟩
      · have htesting : (s₁.setDrain owner (.after owner kind (some false))).drains owner =
            .testing := hnext.trans hlast
        rw [exitLeft, htesting]
        exact stepsLeft_pos hstage
      · have hpolling : (s₁.setDrain owner (.after owner kind (some false))).drains owner =
            .polling next := hnext.trans hlast
        have hless := stepsLeft_ended hstage hafter hpolling
        rw [exitLeft, hpolling]
        exact hless
  · next kind hstage => exact absurd hstage (hswept.2 kind)
  · cases h

theorem Same.exitLeft {owner : Fin cfg.engine.instrumentWorkers} (h : Same s s' owner)
    (htouring : Touring s) : exitLeft s' owner = exitLeft s owner := by
  rw [Ingestd.exitLeft, Ingestd.exitLeft, h.drains, h.stepsLeft htouring]

/-- The threads of the owners end. -/
theorem leaving_ranked : (machine cfg threads stops stopper memory).Ranking owns
    (fun s => (Joined stopper memory s ∧ Counted s) ∧ Stopped s)
    (fun s => ∀ owner, s.drains owner = .exited) (fun s => ∑ owner, exitLeft s owner)
    (Busy exitLeft) := by
  refine owners_ranked (fun hI hstep => ⟨comparing_ranked.keep hI.1 hstep,
      comparing_ranked.stay hI.1 hI.2 hstep⟩) (fun {s s' new} hI hexited hmoves owner => ?_)
    (fun hI => hI.1.1) (fun {s s' owner} hI hsame => ?_)
    (fun hI hdrain => exitLeft_drain hI.1.1 hI.1.2 hI.2.2 hdrain)
    (fun {s} _ hzero owner => ?_) fun {s owner} _ _ hleft hexited => ?_
  · obtain ⟨⟨log, hreaches⟩, -⟩ := hI.1.1
    rcases hI.1.1.same_or_drain hmoves with hall | ⟨other, events, hdrain⟩
    · exact (hall owner).drains.trans (hexited owner)
    · rw [drainStep, hexited other] at hdrain
      cases hdrain
  · obtain ⟨⟨log, hreaches⟩, -⟩ := hI.1.1
    exact hsame.exitLeft (touring hreaches)
  · have hnone := hzero owner
    rw [exitLeft] at hnone
    split at hnone
    · cases hnone
    · next hstage => exact hstage
    · cases hnone
  · exact hleft (by rw [exitLeft, hexited])

/-- `main` joins the owners. -/
theorem joining_ranked : (machine cfg threads stops stopper memory).Ranking owns
    (fun s => ((Joined stopper memory s ∧ Counted s) ∧ Stopped s) ∧
      ∀ owner, s.drains owner = .exited)
    (fun s => s.main = .exited) (fun _ => 0) fun _ thread => thread = none where
  keep hI hstep := ⟨leaving_ranked.keep hI.1 hstep, leaving_ranked.stay hI.1 hI.2 hstep⟩
  stay {s action s' new} hI hexited hstep := by
    rcases (moves_of_step hstep).main_or_beside with ⟨connected, hmain⟩ | hbeside
    · rw [mainStep, hexited] at hmain
      cases hmain
    · exact hbeside.main.trans hexited
  step {s action s' new} hI hexited hstep := by
    have hmain : ∀ connected, mainStep stopper s connected = some s' → s'.main = .exited := by
      intro connected hmain
      have hstage := hI.1.2.1.resolve_right hexited
      simp only [mainStep, hstage] at hmain
      split_ifs at hmain
      rw [← Option.some.inj hmain]
    rcases (moves_of_step hstep).main_or_beside with ⟨connected, hstepped⟩ | hbeside
    · exact Or.inl (hmain connected hstepped)
    · cases action with
      | main connected =>
        obtain ⟨t, ht, heq⟩ := Option.map_eq_some_iff.1 hstep
        obtain ⟨rfl, -⟩ := Prod.mk.inj heq
        exact Or.inl (hmain connected ht)
      | engine action | publishLate index | publishFault index | count kind index
        | drain owner =>
        refine Or.inr (Or.inr ⟨rfl, ?_⟩)
        rintro thread rfl
        exact ⟨rfl, id⟩
  helped _ _ := ⟨none, rfl⟩
  free {s thread} hI hexited hnone hblocked := by
    subst hnone
    have hmain : mainStep stopper s true = none :=
      Option.map_eq_none_iff.1 (hblocked (.main true) trivial)
    have hall : s.drainsJoined = true :=
      List.all_eq_true.2 fun owner _ => decide_eq_true (hI.2 owner)
    simp [mainStep, hI.1.2.1.resolve_right hexited, hall] at hmain

/-- When `main` has joined the workers the daemon ends, polls of gaps apart : there are so many
rounds that after them, however the threads of the owners and `main` have been scheduled in them,
every owner has exited and `main` has joined them. -/
theorem daemon_ends (h : (machine cfg threads stops stopper memory).Reaches s log)
    (hjoined : s.main.joined = true) :
    ∃ n, (∃ t, (machine cfg threads stops stopper memory).Rounds owns n s t) ∧
      ∀ t, (machine cfg threads stops stopper memory).Rounds owns n s t →
        t.main = .exited ∧ ∀ owner, t.drains owner = .exited := by
  have hI : Joined stopper memory s := ⟨⟨log, h⟩, hjoined⟩
  refine ⟨((∑ owner, rank s owner + 1) + 8) +
    ((∑ owner : Fin cfg.engine.instrumentWorkers, (lap owner + 1) + 1) + 1),
    Machine.exists_rounds _ s, fun t hrounds => ?_⟩
  obtain ⟨u₂, hmain, howners⟩ := hrounds.split
  obtain ⟨u₁, hcounting, hcomparing⟩ := hmain.split
  obtain ⟨u₃, hleaving, hjoining⟩ := howners.split
  have hI₁ : Joined stopper memory u₁ ∧ Counted u₁ :=
    ⟨hcounting.keep counting_ranked.keep hI,
      counting_ranked.reached hI (Nat.lt_succ_self _) hcounting⟩
  have hleft : u₁.main.left < 8 := by
    obtain ⟨⟨log₁, hreaches⟩, -⟩ := hI₁.1
    exact Nat.lt_succ_of_le (winding hreaches).left_le
  have hI₂ : (Joined stopper memory u₂ ∧ Counted u₂) ∧ Stopped u₂ :=
    ⟨hcomparing.keep (I := fun s => Joined stopper memory s ∧ Counted s) comparing_ranked.keep hI₁,
      comparing_ranked.reached hI₁ hleft hcomparing⟩
  have hexit : ∑ owner, exitLeft u₂ owner <
      ∑ owner : Fin cfg.engine.instrumentWorkers, (lap owner + 1) + 1 := by
    obtain ⟨⟨log₂, hreaches⟩, -⟩ := hI₂.1.1
    exact Nat.lt_succ_of_le (Finset.sum_le_sum fun owner _ => exitLeft_le (touring hreaches) owner)
  have hI₃ : ((Joined stopper memory u₃ ∧ Counted u₃) ∧ Stopped u₃) ∧
      ∀ owner, u₃.drains owner = .exited :=
    ⟨hleaving.keep (I := fun s => (Joined stopper memory s ∧ Counted s) ∧ Stopped s)
      leaving_ranked.keep hI₂, leaving_ranked.reached hI₂ hexit hleaving⟩
  exact ⟨joining_ranked.reached hI₃ Nat.one_pos hjoining,
    (hjoining.keep (I := fun s => ((Joined stopper memory s ∧ Counted s) ∧ Stopped s) ∧
      ∀ owner, s.drains owner = .exited) joining_ranked.keep hI₃).2⟩

end Exit

/-- The daemon of `sampleEnd` ends. -/
theorem daemon_ends_sample : ∃ s log,
    (machine sampleConfig 1 1 sampleStopper sampleMemory).Reaches s log ∧
      s.main.joined = true ∧ ∃ n, ∃ t,
        (machine sampleConfig 1 1 sampleStopper sampleMemory).Rounds owns n s t ∧
          t.main = .exited ∧ ∀ owner, t.drains owner = .exited := by
  obtain ⟨⟨s, log⟩, hrun, hlast⟩ := Option.map_eq_some_iff.1 sampleEnd_run
  have hjoined := MainStage.joined_of_done (Prod.mk.inj hlast).1
  obtain ⟨n, ⟨t, hrounds⟩, hends⟩ := daemon_ends ⟨_, hrun⟩ hjoined
  exact ⟨s, log, ⟨_, hrun⟩, hjoined, n, t, hrounds, hends t hrounds⟩

end Ingestd

end L2Flow
