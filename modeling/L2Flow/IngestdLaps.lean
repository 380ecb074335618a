import L2Flow.IngestdShutdown

/-!
# The laps of the owners

The thread of an owner goes around the rings that it polls. Its `rank` is made of the records that
wait for it, then of whether the lap that it is in has passed by one of them, then of the steps to
the end of the lap. While nothing is published each of its steps lowers its rank, as long as
anything waits for it or is to be counted (`rank_test`, `rank_poll`, `rank_consume`), and no step
of another owner changes it (`Same.rank`).
-/

namespace L2Flow

namespace QueueMatrix

variable {α : Type*} {shape : MatrixShape} {m m' : QueueMatrix α shape} {new : List (Polled α)}
  {owner : ℕ}

/-! ## The rings of an owner -/

/-- The records that wait for an owner. -/
def waitingFor (m : QueueMatrix α shape) (owner : ℕ) : ℕ :=
  ∑ producer ∈ Finset.range shape.producers,
    (m.queues (place shape producer owner)).contents.length

/-- The poll of the owner has still to look at the ring of the producer. -/
def Ahead (m : QueueMatrix α shape) (owner producer : ℕ) : Prop :=
  ∀ count, m.polls owner = some count →
    ∃ i, count ≤ i ∧ i < shape.producers ∧ m.pollAt owner i = producer

/-- The poll of the owner has passed by a ring that holds something. -/
def Passed (m : QueueMatrix α shape) (owner : ℕ) : Prop :=
  ∃ producer < shape.producers,
    (m.queues (place shape producer owner)).contents ≠ [] ∧ ¬m.Ahead owner producer

/-- The steps to the end of a poll that finds nothing. -/
def passesLeft (m : QueueMatrix α shape) (owner : ℕ) : ℕ :=
  match m.polls owner with
  | none => shape.producers + 2
  | some count => shape.producers - count + 1

theorem passesLeft_pos (m : QueueMatrix α shape) (owner : ℕ) : 0 < m.passesLeft owner := by
  rw [passesLeft]
  split <;> exact Nat.succ_pos _

theorem passesLeft_le (m : QueueMatrix α shape) (owner : ℕ) :
    m.passesLeft owner ≤ shape.producers + 2 := by
  rw [passesLeft]
  split <;> omega

theorem not_passed_of_idle (h : m.polls owner = none) : ¬m.Passed owner := by
  rintro ⟨producer, -, -, hahead⟩
  refine hahead fun count hcount => ?_
  rw [h] at hcount
  cases hcount

/-- What an owner sees of the matrix. -/
structure Alike (m m' : QueueMatrix α shape) (owner : ℕ) : Prop where
  polls : m'.polls owner = m.polls owner
  cursors : m'.cursors owner = m.cursors owner
  contents : ∀ producer, (m'.queues (place shape producer owner)).contents =
    (m.queues (place shape producer owner)).contents

theorem Alike.waitingFor (h : Alike m m' owner) : m'.waitingFor owner = m.waitingFor owner := by
  simp only [QueueMatrix.waitingFor, h.contents]

theorem Alike.passesLeft (h : Alike m m' owner) : m'.passesLeft owner = m.passesLeft owner := by
  rw [QueueMatrix.passesLeft, QueueMatrix.passesLeft, h.polls]

theorem Alike.passed (h : Alike m m' owner) : m'.Passed owner ↔ m.Passed owner := by
  simp only [Passed, Ahead, pollAt, h.contents, h.polls, h.cursors]

/-- The ring that a poll looks at, and no other of the owner's, changes. -/
theorem contents_pop_update (howner : owner < shape.owners) (target : ℕ)
    (ring : SpscRing α shape.capacity) (producer : ℕ) :
    (Function.update m.queues (place shape target owner) ring
      (place shape producer owner)).contents =
      if producer = target then ring.contents
      else (m.queues (place shape producer owner)).contents := by
  split_ifs with heq
  · rw [heq, Function.update_self]
  · rw [Function.update_of_ne fun hplace => heq ((place_eq_iff howner howner).1 hplace).1]

/-- A poll changes nothing for another owner. -/
theorem PollMoves.alike (h : PollMoves m owner m' new) (howner : owner < shape.owners) {other : ℕ}
    (hother : other < shape.owners) (hne : other ≠ owner) : Alike m m' other := by
  have hplace : ∀ producer target ring, (Function.update m.queues (place shape target owner) ring
      (place shape producer other)).contents =
        (m.queues (place shape producer other)).contents := fun producer target ring => by
    rw [Function.update_of_ne fun heq => hne ((place_eq_iff hother howner).1 heq).2]
  cases h with
  | outside idle none => exact ⟨rfl, rfl, fun _ => rfl⟩
  | called idle inside => exact ⟨Function.update_of_ne hne .., rfl, fun _ => rfl⟩
  | missed looking more popped =>
    exact ⟨Function.update_of_ne hne .., rfl, fun producer => hplace producer _ _⟩
  | taken looking more popped =>
    exact ⟨Function.update_of_ne hne .., Function.update_of_ne hne ..,
      fun producer => hplace producer _ _⟩
  | ended looking done => exact ⟨Function.update_of_ne hne .., rfl, fun _ => rfl⟩

/-- What a step of a poll does for its owner. -/
inductive Polling (m m' : QueueMatrix α shape) (owner : ℕ) : Option Bool → Prop where
  | looked (waiting : m'.waitingFor owner = m.waitingFor owner)
      (left : m'.passesLeft owner < m.passesLeft owner)
      (passed : m'.Passed owner → m.Passed owner) :
      Polling m m' owner none
  | took (waiting : m'.waitingFor owner + 1 = m.waitingFor owner) (idle : m'.polls owner = none) :
      Polling m m' owner (some true)
  | ended (waiting : m'.waitingFor owner = m.waitingFor owner) (idle : m'.polls owner = none)
      (passed : m.waitingFor owner ≠ 0 → m.Passed owner) : Polling m m' owner (some false)

theorem PollMoves.polling (h : PollMoves m owner m' new) (hwf : ∀ i, (m.queues i).Wf)
    (howner : owner < shape.owners) : Polling m m' owner (pollEnd new) := by
  cases h with
  | outside idle none => exact absurd howner (Nat.not_lt.2 none)
  | called idle inside =>
    refine .looked rfl ?_ fun hpassed => ?_
    · simp only [passesLeft, idle, Function.update_self]
      omega
    · obtain ⟨producer, hproducer, -, hahead⟩ := hpassed
      refine absurd (fun count hcount => ?_) hahead
      obtain rfl : 0 = count := by simpa using hcount
      -- From the cursor on the poll comes to every ring.
      obtain ⟨i, hi, hplace⟩ := LinearProbing.exists_add_mod_eq (m.cursors owner) hproducer
      exact ⟨i, Nat.zero_le i, hi, hplace⟩
  | @missed count looking more popped =>
    obtain ⟨-, ⟨hempty, -, hafter⟩ | ⟨value, hsome, -⟩⟩ :=
      SpscRing.tryPop_spec (hwf (place shape (m.pollAt owner count) owner))
    · have hcontents : ∀ producer, (Function.update m.queues
          (place shape (m.pollAt owner count) owner)
          (m.queues (place shape (m.pollAt owner count) owner)).tryPop.2
          (place shape producer owner)).contents =
            (m.queues (place shape producer owner)).contents := by
        intro producer
        rw [contents_pop_update howner]
        split_ifs with heq
        · rw [heq, hafter, hempty]
        · rfl
      refine .looked (by simp only [waitingFor, hcontents]) ?_ fun hpassed => ?_
      · simp only [passesLeft, looking, Function.update_self]
        omega
      · obtain ⟨producer, hproducer, hholds, hahead⟩ := hpassed
        dsimp only at hholds
        rw [hcontents] at hholds
        refine ⟨producer, hproducer, hholds, fun hbefore => hahead fun next hnext => ?_⟩
        obtain rfl : count + 1 = next := by simpa using hnext
        obtain ⟨i, hle, hi, hplace⟩ := hbefore count looking
        -- The ring that it has looked at is empty.
        have hne : count ≠ i := by
          rintro rfl
          rw [hplace] at hempty
          exact hholds hempty
        exact ⟨i, by omega, hi, hplace⟩
    · cases popped.symm.trans hsome
  | @taken count value looking more popped =>
    obtain ⟨-, ⟨-, hnone, -⟩ | ⟨value', hsome, hcontents⟩⟩ :=
      SpscRing.tryPop_spec (hwf (place shape (m.pollAt owner count) owner))
    · cases popped.symm.trans hnone
    · refine .took ?_ (Function.update_self ..)
      have htarget : m.pollAt owner count ∈ Finset.range shape.producers :=
        Finset.mem_range.2 (Nat.mod_lt _ (Nat.zero_lt_of_lt more))
      simp only [waitingFor, contents_pop_update howner]
      rw [← Finset.add_sum_erase _ _ htarget,
        ← Finset.add_sum_erase (Finset.range _) (fun producer =>
          (m.queues (place shape producer owner)).contents.length) htarget, if_pos rfl, hcontents,
        List.length_cons, Finset.sum_congr rfl fun producer hproducer => by
          rw [if_neg (Finset.ne_of_mem_erase hproducer)]]
      omega
  | @ended count looking done =>
    refine .ended rfl (Function.update_self ..) fun hwaiting => ?_
    obtain ⟨producer, hproducer, hholds⟩ := Finset.exists_ne_zero_of_sum_ne_zero hwaiting
    refine ⟨producer, Finset.mem_range.1 hproducer, fun hempty => hholds (by rw [hempty]; rfl), ?_⟩
    intro hahead
    obtain ⟨i, hle, hi, -⟩ := hahead count looking
    omega

theorem spin_polls {ownerOf : α → ℕ} {producer : ℕ} (h : m.spin ownerOf producer = some m') :
    m'.polls = m.polls := by
  rw [spin] at h
  split at h
  · cases h
  · next value foreseen rest houtbox =>
    obtain ⟨queues, hafter⟩ := m.publish_frame producer (ownerOf value) value
    split at h
    · next m₁ hpublish =>
      rw [hpublish] at hafter
      obtain rfl : m₁ = { m with queues := queues } := hafter
      split_ifs at h
      obtain rfl := Option.some.inj h
      rfl
    · next m₁ hpublish =>
      rw [hpublish] at hafter
      obtain rfl : m₁ = { m with queues := queues } := hafter
      split_ifs at h <;> obtain rfl := Option.some.inj h <;> rfl

end QueueMatrix

open QueueMatrix (Alike PollMoves Polling pollMoves_of_step)

namespace Ingestd

variable {cfg : IngestdConfig} {threads stops : ℕ}

/-! ## The lap of an owner -/

/-- The kinds that the thread of an owner polls, in order. -/
def kindsOf (owner : ℕ) : List Kind :=
  if owner = 0 then Kind.all else [.tick, .snapshot]

/-- The kinds that are polled before a kind. -/
def earlier : Kind → List Kind
  | .tick => []
  | .snapshot => [.tick]
  | .late => [.tick, .snapshot]
  | .fault => [.tick, .snapshot, .late]

/-- The kinds that are polled after a kind. -/
def later (owner : ℕ) : Kind → List Kind
  | .tick => if owner = 0 then [.snapshot, .late, .fault] else [.snapshot]
  | .snapshot => if owner = 0 then [.late, .fault] else []
  | .late => [.fault]
  | .fault => []

theorem kindsOf_eq {owner : ℕ} {kind : Kind} (h : kind ∈ kindsOf owner) :
    kindsOf owner = earlier kind ++ kind :: later owner kind := by
  by_cases howner : owner = 0
  · simp only [kindsOf, if_pos howner] at h ⊢
    cases kind <;> simp [earlier, later, howner, Kind.all]
  · simp only [kindsOf, if_neg howner] at h ⊢
    cases kind <;> simp [earlier, later, howner] at h ⊢

theorem tick_mem_kindsOf (owner : ℕ) : .tick ∈ kindsOf owner := by
  rw [kindsOf]
  split_ifs <;> simp [Kind.all]

/-- After the last kind the lap ends, and after another the next kind is polled. -/
theorem next_cases {owner : ℕ} {kind : Kind} (h : kind ∈ kindsOf owner) :
    (later owner kind = [] ∧ DrainStage.next owner kind = .testing) ∨
      ∃ next, next ∈ kindsOf owner ∧ DrainStage.next owner kind = .polling next ∧
        earlier next = earlier kind ++ [kind] ∧ later owner kind = next :: later owner next := by
  by_cases howner : owner = 0
  · cases kind with
    | tick =>
      exact Or.inr ⟨.snapshot, by simp [kindsOf, Kind.all, howner], rfl, rfl,
        by simp [later, howner]⟩
    | snapshot =>
      exact Or.inr ⟨.late, by simp [kindsOf, Kind.all, howner], by simp [DrainStage.next, howner],
        rfl, by simp [later, howner]⟩
    | late => exact Or.inr ⟨.fault, by simp [kindsOf, Kind.all, howner], rfl, rfl, rfl⟩
    | fault => exact Or.inl ⟨rfl, rfl⟩
  · cases kind with
    | tick => exact Or.inr ⟨.snapshot, by simp [kindsOf, howner], rfl, rfl, by simp [later, howner]⟩
    | snapshot => exact Or.inl ⟨by simp [later, howner], by simp [DrainStage.next, howner]⟩
    | late | fault => simp [kindsOf, howner] at h

/-- Two owners do not poll the same ring. -/
theorem eq_of_placeOf {owner other : Fin cfg.engine.instrumentWorkers} {kind : Kind}
    (h : kind ∈ kindsOf owner) (h' : kind ∈ kindsOf other)
    (hplace : placeOf other kind = placeOf owner kind) : other = owner := by
  have hzero : ∀ owner : ℕ, kind ∈ kindsOf owner → owner ≠ 0 → kind = .tick ∨ kind = .snapshot := by
    intro owner hmem hne
    simpa [kindsOf, hne] using hmem
  cases kind with
  | tick | snapshot => exact Fin.ext hplace
  | late | fault =>
    have howner : (owner : ℕ) = 0 := by
      by_contra hne
      simpa using hzero owner h hne
    have hother : (other : ℕ) = 0 := by
      by_contra hne
      simpa using hzero other h' hne
    exact Fin.ext (hother.trans howner.symm)

theorem placeOf_lt (owner : Fin cfg.engine.instrumentWorkers) (kind : Kind) :
    placeOf owner kind < (shapeOf cfg kind).owners := by
  cases kind with
  | tick | snapshot => exact owner.isLt
  | late | fault => exact Nat.one_pos

/-- What waits for an owner, of a kind. -/
def waits (s : State cfg threads stops) (owner : Fin cfg.engine.instrumentWorkers) (kind : Kind) :
    ℕ :=
  (queuesOf s kind).waitingFor (placeOf owner kind)

/-- What waits for an owner. -/
def backlog (s : State cfg threads stops) (owner : Fin cfg.engine.instrumentWorkers) : ℕ :=
  ((kindsOf owner).map (waits s owner)).sum

/-- The steps of polls of these kinds that find nothing. -/
def passes (cfg : IngestdConfig) (kinds : List Kind) : ℕ :=
  (kinds.map fun kind => (shapeOf cfg kind).producers + 2).sum

/-- The steps of a lap in which nothing is found. -/
def lap (owner : Fin cfg.engine.instrumentWorkers) : ℕ :=
  passes cfg (kindsOf owner) + 1

/-- The steps to the end of the lap, if nothing is found. -/
def stepsLeft (s : State cfg threads stops) (owner : Fin cfg.engine.instrumentWorkers) : ℕ :=
  match s.drains owner with
  | .testing => lap owner
  | .polling kind =>
    (queuesOf s kind).passesLeft (placeOf owner kind) + passes cfg (later owner kind)
  | .counting kind => passes cfg (kind :: later owner kind) + 1
  | .exited => 0

/-- The lap has passed by a record. -/
def PassedBy (s : State cfg threads stops) (owner : Fin cfg.engine.instrumentWorkers) : Prop :=
  match s.drains owner with
  | .testing | .exited => False
  | .polling kind => (∃ before ∈ earlier kind, waits s owner before ≠ 0) ∨
      (queuesOf s kind).Passed (placeOf owner kind)
  | .counting kind => ∃ before ∈ earlier kind, waits s owner before ≠ 0

/-- Nothing waits for the owner, and it has counted all that it has polled. -/
def Swept (s : State cfg threads stops) (owner : Fin cfg.engine.instrumentWorkers) : Prop :=
  backlog s owner = 0 ∧ ∀ kind, s.drains owner ≠ .counting kind

open Classical in
/-- The steps that an owner makes until it is swept are no more, if it is not. -/
noncomputable def weight (s : State cfg threads stops)
    (owner : Fin cfg.engine.instrumentWorkers) : ℕ :=
  backlog s owner * (2 * lap owner + 1) + (if PassedBy s owner then lap owner else 0) +
    stepsLeft s owner

open Classical in
noncomputable def rank (s : State cfg threads stops)
    (owner : Fin cfg.engine.instrumentWorkers) : ℕ :=
  if Swept s owner then 0 else weight s owner + 1

section Rank

variable {s s' : State cfg threads stops} {owner : Fin cfg.engine.instrumentWorkers}

theorem rank_eq_zero_iff : rank s owner = 0 ↔ Swept s owner := by
  rw [rank]
  split_ifs with hswept <;> simp [hswept]

theorem rank_le_pred (hswept : Swept s owner → Swept s' owner)
    (hweight : ¬Swept s owner → weight s' owner < weight s owner) :
    rank s' owner ≤ rank s owner - 1 := by
  by_cases hbefore : Swept s owner
  · rw [rank_eq_zero_iff.2 (hswept hbefore)]
    exact Nat.zero_le _
  · have hlt := hweight hbefore
    rw [rank, rank, if_neg hbefore]
    split_ifs <;> omega

theorem weight_lt (hbacklog : backlog s' owner = backlog s owner)
    (hpassed : PassedBy s' owner → PassedBy s owner)
    (hleft : stepsLeft s' owner < stepsLeft s owner) : weight s' owner < weight s owner := by
  rw [weight, weight, hbacklog]
  by_cases hafter : PassedBy s' owner
  · rw [if_pos hafter, if_pos (hpassed hafter)]
    omega
  · rw [if_neg hafter]
    omega

theorem backlog_eq_zero_iff :
    backlog s owner = 0 ↔ ∀ kind ∈ kindsOf owner, waits s owner kind = 0 := by
  simp [backlog, List.sum_eq_zero_iff]

/-- Where the owners are in their laps. -/
structure Touring (s : State cfg threads stops) : Prop where
  polling : ∀ {owner kind}, s.drains owner = .polling kind → kind ∈ kindsOf owner
  counting : ∀ {owner kind}, s.drains owner = .counting kind → kind ∈ kindsOf owner
  idle : ∀ {owner : Fin cfg.engine.instrumentWorkers}, ∀ kind ∈ kindsOf owner,
    s.drains owner ≠ .polling kind → (queuesOf s kind).polls (placeOf owner kind) = none

theorem passes_cons (kind : Kind) (kinds : List Kind) :
    passes cfg (kind :: kinds) = (shapeOf cfg kind).producers + 2 + passes cfg kinds := by
  rw [passes, List.map_cons, List.sum_cons]
  rfl

theorem passes_le {kind : Kind} (h : kind ∈ kindsOf owner) :
    passes cfg (kind :: later owner kind) + 1 ≤ lap owner := by
  rw [lap, kindsOf_eq h, passes, passes, List.map_append, List.sum_append]
  exact Nat.succ_le_succ (Nat.le_add_left _ _)

theorem stepsLeft_le (h : Touring s) (owner : Fin cfg.engine.instrumentWorkers) :
    stepsLeft s owner ≤ lap owner := by
  rw [stepsLeft]
  split
  · exact le_rfl
  · next kind hstage =>
    refine le_trans ?_ ((Nat.le_succ _).trans (passes_le (h.polling hstage)))
    rw [passes_cons]
    exact Nat.add_le_add_right (QueueMatrix.passesLeft_le ..) _
  · next kind hstage => exact passes_le (h.counting hstage)
  · exact Nat.zero_le _

/-- An owner sees the same. -/
structure Same (s s' : State cfg threads stops) (owner : Fin cfg.engine.instrumentWorkers) :
    Prop where
  drains : s'.drains owner = s.drains owner
  queues : ∀ kind ∈ kindsOf owner,
    Alike (queuesOf s kind) (queuesOf s' kind) (placeOf owner kind)

theorem Same.stepsLeft (h : Same s s' owner) (htouring : Touring s) :
    stepsLeft s' owner = stepsLeft s owner := by
  rw [Ingestd.stepsLeft, Ingestd.stepsLeft, h.drains]
  cases hstage : s.drains owner with
  | polling kind =>
    exact congrArg (· + _) (h.queues kind (htouring.polling hstage)).passesLeft
  | testing | counting kind | exited => rfl

theorem Same.rank (h : Same s s' owner) (htouring : Touring s) :
    rank s' owner = rank s owner := by
  have hwaits : ∀ kind ∈ kindsOf owner, waits s' owner kind = waits s owner kind :=
    fun kind hkind => (h.queues kind hkind).waitingFor
  have hbacklog : backlog s' owner = backlog s owner :=
    congrArg List.sum (List.map_congr_left hwaits)
  have hswept : Swept s' owner = Swept s owner := by rw [Swept, Swept, hbacklog, h.drains]
  have hbefore : ∀ kind ∈ kindsOf owner, (∃ before ∈ earlier kind, waits s' owner before ≠ 0) ↔
      ∃ before ∈ earlier kind, waits s owner before ≠ 0 := by
    intro kind hkind
    refine exists_congr fun before => and_congr_right fun hmem => ?_
    rw [hwaits before (by rw [kindsOf_eq hkind]; exact List.mem_append_left _ hmem)]
  have hpassed : PassedBy s' owner = PassedBy s owner := by
    rw [PassedBy, PassedBy, h.drains]
    cases hstage : s.drains owner with
    | testing => rfl
    | polling kind =>
      have hkind := htouring.polling hstage
      exact propext (or_congr (hbefore kind hkind) (h.queues kind hkind).passed)
    | counting kind => exact propext (hbefore kind (htouring.counting hstage))
    | exited => rfl
  rw [Ingestd.rank, Ingestd.rank, weight, weight, hswept, hbacklog, hpassed,
    h.stepsLeft htouring]

/-! ## The steps of an owner -/

theorem drains_setDrain_self (s : State cfg threads stops)
    (owner : Fin cfg.engine.instrumentWorkers) (stage : DrainStage) :
    (s.setDrain owner stage).drains owner = stage :=
  Function.update_self ..

/-- A new lap begins, or the thread ends. -/
theorem rank_test (h : Touring s) (hstage : s.drains owner = .testing) :
    rank (s.setDrain owner (if s.drainRunning then .polling .tick else .exited)) owner ≤
      rank s owner - 1 := by
  have hidle := h.idle .tick (tick_mem_kindsOf owner) (by simp [hstage])
  refine rank_le_pred (fun hswept => ⟨hswept.1, fun kind => ?_⟩) fun _ =>
    weight_lt rfl (fun hpassed => ?_) ?_
  · rw [drains_setDrain_self]
    split_ifs <;> simp
  · rw [PassedBy, drains_setDrain_self] at hpassed
    split_ifs at hpassed
    · rcases hpassed with ⟨before, hmem, -⟩ | hpassed
      · cases hmem
      · exact absurd hpassed (QueueMatrix.not_passed_of_idle hidle)
    · exact hpassed.elim
  · rw [stepsLeft, stepsLeft, drains_setDrain_self, hstage]
    split_ifs
    · have hall : passes cfg (kindsOf owner) = passes cfg (.tick :: later owner .tick) :=
        congrArg (passes cfg) (kindsOf_eq (tick_mem_kindsOf owner))
      rw [lap, hall, passes_cons]
      exact Nat.lt_succ_of_le (Nat.add_le_add_right (QueueMatrix.passesLeft_le ..) _)
    · exact Nat.succ_pos _

/-- A record is counted. -/
theorem rank_consume (h : Touring s) {kind : Kind} (hstage : s.drains owner = .counting kind)
    (hs' : ∀ kind, queuesOf s' kind = queuesOf s kind) (hnext : s'.drains owner = .polling kind) :
    rank s' owner ≤ rank s owner - 1 := by
  have hidle := h.idle kind (h.counting hstage) (by simp [hstage])
  have hwaits : waits s' owner = waits s owner := funext fun kind => by
    rw [waits, waits, hs']
  refine rank_le_pred (fun hswept => absurd hstage (hswept.2 kind)) fun _ =>
    weight_lt (by rw [backlog, backlog, hwaits]) (fun hpassed => ?_) ?_
  · rw [PassedBy, hnext] at hpassed
    rw [PassedBy, hstage]
    rcases hpassed with hbefore | hpassed
    · rwa [hwaits] at hbefore
    · rw [hs'] at hpassed
      exact absurd hpassed (QueueMatrix.not_passed_of_idle hidle)
  · rw [stepsLeft, stepsLeft, hnext, hstage]
    dsimp only
    rw [passes_cons, hs']
    exact Nat.lt_succ_of_le (Nat.add_le_add_right (QueueMatrix.passesLeft_le ..) _)

theorem backlog_eq_of_waits (h : ∀ kind, waits s' owner kind = waits s owner kind) :
    backlog s' owner = backlog s owner := by
  rw [backlog, backlog, funext h]

/-- A poll goes on. -/
theorem stepsLeft_looked {kind : Kind} (hstage : s.drains owner = .polling kind)
    (hleft : (queuesOf s' kind).passesLeft (placeOf owner kind) <
      (queuesOf s kind).passesLeft (placeOf owner kind))
    (hnext : s'.drains owner = .polling kind) : stepsLeft s' owner < stepsLeft s owner := by
  rw [stepsLeft, stepsLeft, hnext, hstage]
  exact Nat.add_lt_add_right hleft _

/-- The next kind is polled. -/
theorem stepsLeft_ended {kind next : Kind} (hstage : s.drains owner = .polling kind)
    (hafter : later owner kind = next :: later owner next)
    (hnext : s'.drains owner = .polling next) : stepsLeft s' owner < stepsLeft s owner := by
  have hmost := QueueMatrix.passesLeft_le (queuesOf s' next) (placeOf owner next)
  have hpositive := QueueMatrix.passesLeft_pos (queuesOf s kind) (placeOf owner kind)
  rw [stepsLeft, stepsLeft, hnext, hstage]
  dsimp only
  rw [hafter, passes_cons]
  omega

theorem stepsLeft_pos {kind : Kind} (hstage : s.drains owner = .polling kind) :
    0 < stepsLeft s owner := by
  rw [stepsLeft, hstage]
  exact Nat.add_pos_left (QueueMatrix.passesLeft_pos ..) _

/-- A poll goes on, takes a record, or ends. -/
theorem rank_poll {kind : Kind} {answer : Option Bool} (h : Touring s)
    (hstage : s.drains owner = .polling kind)
    (hpolling : Polling (queuesOf s kind) (queuesOf s' kind) (placeOf owner kind) answer)
    (hothers : ∀ other ≠ kind, queuesOf s' other = queuesOf s other)
    (hnext : s'.drains owner = .after owner kind answer) : rank s' owner ≤ rank s owner - 1 := by
  have hkind := h.polling hstage
  have hwaits : ∀ other ≠ kind, waits s' owner other = waits s owner other := fun other hne => by
    rw [waits, waits, hothers other hne]
  have hearlier : ∀ before ∈ earlier kind, waits s' owner before = waits s owner before :=
    fun before hmem => hwaits before (by rintro rfl; cases before <;> simp [earlier] at hmem)
  cases hpolling with
  | looked waiting left passed =>
    have hall : ∀ other, waits s' owner other = waits s owner other := fun other => by
      rcases eq_or_ne other kind with rfl | hne
      · exact waiting
      · exact hwaits other hne
    have hbacklog := backlog_eq_of_waits hall
    refine rank_le_pred (fun hswept => ⟨hbacklog.trans hswept.1, fun other => ?_⟩) fun _ =>
      weight_lt hbacklog (fun hpassed => ?_) (stepsLeft_looked hstage left hnext)
    · simp [hnext, DrainStage.after]
    · rw [PassedBy, hnext] at hpassed
      rw [PassedBy, hstage]
      refine hpassed.imp (fun hbefore => ?_) passed
      obtain ⟨before, hmem, hne⟩ := hbefore
      exact ⟨before, hmem, hearlier before hmem ▸ hne⟩
  | took waiting idle =>
    have hbacklog : backlog s' owner + 1 = backlog s owner := by
      have hsum : ∀ kinds : List Kind, kind ∉ kinds →
          (kinds.map (waits s' owner)).sum = (kinds.map (waits s owner)).sum := fun kinds hnot =>
        congrArg List.sum (List.map_congr_left fun other hmem =>
          hwaits other fun heq => hnot (heq ▸ hmem))
      have hbefore := hsum (earlier kind) (by cases kind <;> simp [earlier])
      have hafter := hsum (later owner kind) (by
        cases kind <;> by_cases howner : (owner : ℕ) = 0 <;> simp [later, howner])
      have hwaiting : waits s' owner kind + 1 = waits s owner kind := waiting
      simp only [backlog, kindsOf_eq hkind, List.map_append, List.map_cons, List.sum_append,
        List.sum_cons, hbefore, hafter]
      omega
    refine rank_le_pred (fun hswept => ?_) fun _ => ?_
    · have hzero := hswept.1
      omega
    · have hleft : stepsLeft s' owner ≤ lap owner := by
        rw [stepsLeft, hnext]
        exact passes_le hkind
      rw [weight, weight, ← hbacklog, Nat.succ_mul (backlog s' owner)]
      split_ifs <;> omega
  | ended waiting idle passed =>
    have hall : ∀ other, waits s' owner other = waits s owner other := fun other => by
      rcases eq_or_ne other kind with rfl | hne
      · exact waiting
      · exact hwaits other hne
    have hbacklog := backlog_eq_of_waits hall
    have hstays : Swept s owner → Swept s' owner := fun hswept =>
      ⟨hbacklog.trans hswept.1, fun other => by
        rw [hnext]
        rcases next_cases hkind with ⟨-, heq⟩ | ⟨next, -, heq, -⟩ <;>
          simp [DrainStage.after, heq]⟩
    -- What waits of the kind, the poll has passed by.
    have hpast : ∀ before ∈ earlier kind ++ [kind], waits s owner before ≠ 0 →
        PassedBy s owner := by
      intro before hmem hne
      rw [PassedBy, hstage]
      rcases List.mem_append.1 hmem with hmem | hmem
      · exact Or.inl ⟨before, hmem, hne⟩
      · obtain rfl := List.mem_singleton.1 hmem
        exact Or.inr (passed hne)
    rcases next_cases hkind with ⟨hlast, heq⟩ | ⟨next, hmem, heq, hbefore, hafter⟩
    · have htesting : s'.drains owner = .testing := hnext.trans heq
      refine rank_le_pred hstays fun hswept => ?_
      have hbehind : PassedBy s owner := by
        by_contra hnot
        refine hswept ⟨backlog_eq_zero_iff.2 fun other hother => ?_, by simp [hstage]⟩
        by_contra hne
        rw [kindsOf_eq hkind, hlast] at hother
        exact hnot (hpast other hother hne)
      have hnone : ¬PassedBy s' owner := by
        rw [PassedBy, htesting]
        exact id
      have hleft : stepsLeft s' owner = lap owner := by rw [stepsLeft, htesting]
      have hmore := stepsLeft_pos hstage
      rw [weight, weight, hbacklog, if_pos hbehind, if_neg hnone, hleft]
      omega
    · have hpolling : s'.drains owner = .polling next := hnext.trans heq
      have hne : next ≠ kind := by
        rintro rfl
        have hlength := congrArg List.length hbefore
        simp at hlength
      have hidle : (queuesOf s' next).polls (placeOf owner next) = none := by
        rw [hothers next hne]
        exact h.idle next hmem (by rw [hstage]; exact fun h => hne (DrainStage.polling.inj h).symm)
      refine rank_le_pred hstays fun _ => weight_lt hbacklog (fun hpassed => ?_)
        (stepsLeft_ended hstage hafter hpolling)
      rw [PassedBy, hpolling] at hpassed
      rcases hpassed with ⟨before, hin, hwaiting⟩ | hpassed
      · rw [hbefore] at hin
        exact hpast before hin (hall before ▸ hwaiting)
      · exact absurd hpassed (QueueMatrix.not_passed_of_idle hidle)

end Rank

/-! ## Where the owners are -/

section Touring

variable {stopper : Fin stops} {memory : Memory cfg} {s s' : State cfg threads stops}
  {log new : List (Event cfg threads)}

theorem touring_start : Touring (machine cfg threads stops stopper memory).start where
  polling h := by cases h
  counting h := by cases h
  idle kind _ _ := by cases kind <;> rfl

theorem Touring.beside (h : Touring s) (hdrains : s'.drains = s.drains)
    (hpolls : ∀ kind, (queuesOf s' kind).polls = (queuesOf s kind).polls) : Touring s' where
  polling hstage := h.polling (hdrains ▸ hstage)
  counting hstage := h.counting (hdrains ▸ hstage)
  idle kind hkind hstage := by
    rw [hpolls]
    exact h.idle kind hkind (hdrains ▸ hstage)

/-- An owner goes from one stage to another. -/
theorem Touring.turn (h : Touring s) {owner : Fin cfg.engine.instrumentWorkers}
    (stage : DrainStage) (hdrains : s'.drains = Function.update s.drains owner stage)
    (hpolling : ∀ kind, stage = .polling kind → kind ∈ kindsOf owner)
    (hcounting : ∀ kind, stage = .counting kind → kind ∈ kindsOf owner)
    (hown : ∀ kind ∈ kindsOf owner, stage ≠ .polling kind →
      (queuesOf s' kind).polls (placeOf owner kind) = none)
    (hothers : ∀ other ≠ owner, ∀ kind ∈ kindsOf other,
      (queuesOf s' kind).polls (placeOf other kind) =
        (queuesOf s kind).polls (placeOf other kind)) : Touring s' := by
  refine ⟨fun {other kind} hstage => ?_, fun {other kind} hstage => ?_,
    fun {other} kind hkind hstage => ?_⟩ <;>
    rw [hdrains] at hstage <;> rcases eq_or_ne other owner with rfl | hne
  · exact hpolling kind (by rwa [Function.update_self] at hstage)
  · exact h.polling (by rwa [Function.update_of_ne hne] at hstage)
  · exact hcounting kind (by rwa [Function.update_self] at hstage)
  · exact h.counting (by rwa [Function.update_of_ne hne] at hstage)
  · exact hown kind hkind (by rwa [Function.update_self] at hstage)
  · rw [hothers other hne kind hkind]
    exact h.idle kind hkind (by rwa [Function.update_of_ne hne] at hstage)

theorem alike_of_polls {owner other : Fin cfg.engine.instrumentWorkers} {kind : Kind}
    {events : List (Event cfg threads)} {answer : Option Bool}
    (hpolls : Polls s s' owner kind events answer) (hkind : kind ∈ kindsOf owner)
    (hne : other ≠ owner) : ∀ kind' ∈ kindsOf other,
      Alike (queuesOf s kind') (queuesOf s' kind') (placeOf other kind') := by
  intro kind' hmem
  rcases eq_or_ne kind' kind with rfl | hkinds
  · exact (pollMoves_of_step hpolls.step).alike (placeOf_lt owner kind') (placeOf_lt other kind')
      fun hplace => hne (eq_of_placeOf hkind hmem hplace)
  · rw [(hpolls.others kind' hkinds).1]
    exact ⟨rfl, rfl, fun _ => rfl⟩

theorem touring_step (h : Touring s) (haccounts : Accounts s log)
    (hmoves : Moves stopper s s' new) : Touring s' := by
  cases hmoves with
  | @admission action engine events settled step =>
    refine h.beside rfl fun kind => ?_
    cases kind with
    | tick => exact congrArg QueueMatrix.polls step.ticks
    | snapshot => exact congrArg QueueMatrix.polls step.snapshots
    | late | fault => rfl
  | @input index input answers trace engine settled turned =>
    refine h.beside rfl fun kind => ?_
    cases kind with
    | tick =>
      show engine.ticks.polls = _
      rw [turned.ticks]
      rfl
    | snapshot => exact congrArg QueueMatrix.polls turned.snapshots
    | late | fault => rfl
  | @early index answers engine settled turned =>
    refine h.beside rfl fun kind => ?_
    cases kind with
    | tick =>
      show engine.ticks.polls = _
      rw [turned.ticks]
      rfl
    | snapshot => exact congrArg QueueMatrix.polls turned.snapshots
    | late | fault => rfl
  | message settled task held idle => exact h.beside rfl fun kind => by cases kind <;> rfl
  | publishTick counted spin =>
    refine h.beside rfl fun kind => ?_
    cases kind with
    | tick => exact QueueMatrix.spin_polls spin
    | snapshot | late | fault => rfl
  | publishSnapshot counted spin =>
    refine h.beside rfl fun kind => ?_
    cases kind with
    | snapshot => exact QueueMatrix.spin_polls spin
    | tick | late | fault => rfl
  | publishLate counted spin =>
    refine h.beside rfl fun kind => ?_
    cases kind with
    | late => exact QueueMatrix.spin_polls spin
    | tick | snapshot | fault => rfl
  | publishFault counted spin =>
    refine h.beside rfl fun kind => ?_
    cases kind with
    | fault => exact QueueMatrix.spin_polls spin
    | tick | snapshot | late => rfl
  | count uncounted => exact h.beside rfl fun _ => rfl
  | @test owner stage =>
    refine h.turn (if s.drainRunning then .polling .tick else .exited) rfl
      (fun kind heq => ?_) (fun kind heq => ?_) (fun kind hkind _ => ?_) fun _ _ _ _ => rfl
    · split_ifs at heq
      exact DrainStage.polling.inj heq ▸ tick_mem_kindsOf owner
    · split_ifs at heq
    · exact h.idle kind hkind (by simp [stage])
  | @poll owner kind s₁ events answer stage step =>
    have hpolls := polls_of_step step
    have hkind := h.polling stage
    have hdrains : s₁.drains = s.drains := by rw [hpolls.frame]
    have hpolling := (pollMoves_of_step hpolls.step).polling (haccounts kind).flows.wf
      (placeOf_lt owner kind)
    rw [← hpolls.answer] at hpolling
    have hended : ∀ kind' ∈ kindsOf owner, answer ≠ none →
        (queuesOf s₁ kind').polls (placeOf owner kind') = none := by
      intro kind' hmem hne
      rcases eq_or_ne kind' kind with rfl | hkinds
      · cases hpolling with
        | looked waiting left passed => exact absurd rfl hne
        | took waiting idle => exact idle
        | ended waiting idle passed => exact idle
      · rw [(hpolls.others kind' hkinds).1]
        exact h.idle kind' hmem fun heq => hkinds (DrainStage.polling.inj (heq.symm.trans stage))
    refine h.turn (.after owner kind answer) (by rw [← hdrains]; rfl)
      (fun kind' heq => ?_) (fun kind' heq => ?_) (fun kind' hmem hne => ?_)
      fun other hne kind' hmem => (alike_of_polls hpolls hkind hne kind' hmem).polls
    · rcases answer with - | - | -
      · exact DrainStage.polling.inj heq ▸ hkind
      · rcases next_cases hkind with ⟨-, hnext⟩ | ⟨next, hmem, hnext, -⟩
        · cases hnext.symm.trans heq
        · exact DrainStage.polling.inj (hnext.symm.trans heq) ▸ hmem
      · cases heq
    · rcases answer with - | - | -
      · cases heq
      · rcases next_cases hkind with ⟨-, hnext⟩ | ⟨next, hmem, hnext, -⟩ <;>
          cases hnext.symm.trans heq
      · exact DrainStage.counting.inj heq ▸ hkind
    · rcases answer with - | answer
      · have hkinds : kind' ≠ kind := fun heq => hne (heq ▸ rfl)
        show (queuesOf s₁ kind').polls _ = none
        rw [(hpolls.others kind' hkinds).1]
        exact h.idle kind' hmem fun heq => hkinds (DrainStage.polling.inj (heq.symm.trans stage))
      · exact hended kind' hmem (Option.some_ne_none answer)
  | @consume owner kind stage =>
    have hkind := h.counting stage
    refine h.turn (.polling kind) rfl (fun kind' heq => ?_) (fun kind' heq => ?_)
      (fun kind' hmem _ => ?_) fun _ _ _ _ => rfl
    · exact DrainStage.polling.inj heq ▸ hkind
    · cases heq
    · exact h.idle kind' hmem (by simp [stage])
  | main step =>
    obtain ⟨drainRunning, main, rfl⟩ := mainStep_frame step
    exact h.beside rfl fun _ => rfl

theorem touring (h : (machine cfg threads stops stopper memory).Reaches s log) : Touring s :=
  (Machine.invariant (I := fun s log => Accounts s log ∧ Touring s) ⟨accounts_start, touring_start⟩
    (fun h hstep => ⟨accounts_step h.1 (moves_of_step hstep),
      touring_step h.2 h.1 (moves_of_step hstep)⟩) h).2

end Touring

end Ingestd

end L2Flow
