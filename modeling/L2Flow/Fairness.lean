import L2Flow.Interleaving

/-!
# Rounds

A run is fair in rounds : it comes in stretches that serve every thread. A stretch serves a thread
that makes a step in it, or that at some moment of it has none to make. `exists_rounds` : from every
state there are as many rounds as one likes, if the threads are finitely many.

`Ranking.reached` is the rule that progress is proved by. As long as the goal is not reached some
threads help, none of which is blocked. A step of one that helps lowers the rank or reaches the
goal, and a step of another does so as well, or leaves the rank and those that help as they are.
The goal is then reached in one round more than the rank is high.
-/

namespace L2Flow

namespace Machine

variable {σ α ε ι : Type*} {M : Machine σ α ε} {owns : ι → α → Prop} {s t u : σ}
  {log : List ε} {actions : List α}

/-- The thread has no step to make. -/
def Blocked (M : Machine σ α ε) (own : α → Prop) (s : σ) : Prop :=
  ∀ action, own action → M.step s action = none

/-- In the run from `s` the thread makes a step, or has none to make at some moment. -/
def Serves (M : Machine σ α ε) (own : α → Prop) (s : σ) (actions : List α) : Prop :=
  (∃ action ∈ actions, own action) ∨ M.Meets s actions (M.Blocked own)

/-- From `s` to `t` there is a run of so many rounds. -/
inductive Rounds (M : Machine σ α ε) (owns : ι → α → Prop) : ℕ → σ → σ → Prop where
  | none (s : σ) : Rounds M owns 0 s s
  | round {n : ℕ} {s t u : σ} {log : List ε} {actions : List α}
      (run : M.runFrom s actions = some (t, log)) (serves : ∀ i, M.Serves (owns i) s actions)
      (rest : Rounds M owns n t u) : Rounds M owns (n + 1) s u

/-- What every step keeps, runs keep. -/
theorem keep_runFrom {I : σ → Prop}
    (hstep : ∀ {s action s' new}, I s → M.step s action = some (s', new) → I s')
    (hrun : M.runFrom s actions = some (t, log)) (hs : I s) : I t := by
  induction actions generalizing s log with
  | nil =>
    cases hrun
    exact hs
  | cons action actions ih =>
    obtain ⟨s', new, rest, hfirst, hrest, -⟩ := runFrom_cons.1 hrun
    exact ih hrest (hstep hs hfirst)

/-- Rounds that come to `u` pass a state with `m` of them made. -/
theorem Rounds.split {m n : ℕ} (h : M.Rounds owns (m + n) s u) :
    ∃ t, M.Rounds owns m s t ∧ M.Rounds owns n t u := by
  induction m generalizing s with
  | zero =>
    rw [Nat.zero_add] at h
    exact ⟨s, .none s, h⟩
  | succ m ih =>
    rw [Nat.add_right_comm] at h
    cases h with
    | round run serves rest =>
      obtain ⟨t, hbefore, hafter⟩ := ih rest
      exact ⟨t, .round run serves hbefore, hafter⟩

/-- What every step keeps, rounds keep. -/
theorem Rounds.keep {n : ℕ} {I : σ → Prop}
    (hstep : ∀ {s action s' new}, I s → M.step s action = some (s', new) → I s')
    (h : M.Rounds owns n s t) (hs : I s) : I t := by
  induction h with
  | none s => exact hs
  | round run serves rest ih => exact ih (keep_runFrom hstep run hs)

/-! ## There are rounds -/

theorem Serves.append {own : α → Prop} (h : M.Serves own s actions) (more : List α) :
    M.Serves own s (actions ++ more) := by
  rcases h with ⟨action, hmem, hown⟩ | hmeets
  · exact Or.inl ⟨action, List.mem_append_left _ hmem, hown⟩
  · exact Or.inr (hmeets.append more)

/-- A thread that is served later on the way is served. -/
theorem Serves.prepend {own : α → Prop} (hrun : M.runFrom s actions = some (t, log))
    {more : List α} (h : M.Serves own t more) : M.Serves own s (actions ++ more) := by
  rcases h with ⟨action, hmem, hown⟩ | ⟨before, after, u, log', rfl, hbefore, hblocked⟩
  · exact Or.inl ⟨action, List.mem_append_right _ hmem, hown⟩
  · exact Or.inr ⟨actions ++ before, after, u, log ++ log', by rw [List.append_assoc],
      runFrom_append.2 ⟨t, log, log', hrun, hbefore, rfl⟩, hblocked⟩

/-- The threads of a list can be served one after the other, by steps of their own. -/
theorem exists_serves (threads : List ι) (s : σ) : ∃ actions t log,
    M.runFrom s actions = some (t, log) ∧ (∀ action ∈ actions, ∃ i ∈ threads, owns i action) ∧
      ∀ i ∈ threads, M.Serves (owns i) s actions := by
  induction threads with
  | nil =>
    exact ⟨[], s, [], rfl, fun _ h => absurd h List.not_mem_nil,
      fun _ h => absurd h List.not_mem_nil⟩
  | cons i threads ih =>
    obtain ⟨actions, t, log, hrun, howned, hserves⟩ := ih
    have howned' : ∀ action ∈ actions, ∃ j ∈ i :: threads, owns j action := fun action hmem =>
      (howned action hmem).imp fun _ h => h.imp_left (List.mem_cons_of_mem i)
    by_cases hblocked : M.Blocked (owns i) t
    · refine ⟨actions, t, log, hrun, howned', fun j hj => ?_⟩
      rcases List.mem_cons.1 hj with rfl | hj
      · exact Or.inr (meets_of_runFrom hrun hblocked)
      · exact hserves j hj
    · simp only [Blocked, not_forall] at hblocked
      obtain ⟨action, hown, hsome⟩ := hblocked
      obtain ⟨⟨u, new⟩, hstep⟩ := Option.ne_none_iff_exists'.1 hsome
      refine ⟨actions ++ [action], u, log ++ new, runFrom_snoc.2 ⟨t, log, new, hrun, hstep, rfl⟩,
        fun other hmem => ?_, fun j hj => ?_⟩
      · rcases List.mem_append.1 hmem with hmem | hmem
        · exact howned' other hmem
        · exact ⟨i, List.mem_cons_self, List.mem_singleton.1 hmem ▸ hown⟩
      · rcases List.mem_cons.1 hj with rfl | hj
        · exact Or.inl ⟨action, List.mem_append_right _ (List.mem_singleton_self action), hown⟩
        · exact (hserves j hj).append [action]

theorem exists_rounds [Fintype ι] (n : ℕ) (s : σ) : ∃ t, M.Rounds owns n s t := by
  induction n generalizing s with
  | zero => exact ⟨s, .none s⟩
  | succ n ih =>
    obtain ⟨actions, t, log, hrun, -, hserves⟩ : ∃ actions t log,
        M.runFrom s actions = some (t, log) ∧
          (∀ action ∈ actions, ∃ i ∈ Finset.univ.toList, owns i action) ∧
          ∀ i ∈ Finset.univ.toList, M.Serves (owns i) s actions := exists_serves _ s
    obtain ⟨u, hrest⟩ := ih t
    exact ⟨u, .round hrun (fun i => hserves i (Finset.mem_toList.2 (Finset.mem_univ i))) hrest⟩

/-! ## Progress -/

/-- While `I` holds, which every step keeps, the steps make for the goal `P`, which stays. -/
structure Ranking (M : Machine σ α ε) (owns : ι → α → Prop) (I P : σ → Prop) (rank : σ → ℕ)
    (helps : σ → ι → Prop) : Prop where
  keep : ∀ {s action s' new}, I s → M.step s action = some (s', new) → I s'
  stay : ∀ {s action s' new}, I s → P s → M.step s action = some (s', new) → P s'
  step : ∀ {s action s' new}, I s → ¬P s → M.step s action = some (s', new) →
    P s' ∨ rank s' < rank s ∨
      (rank s' = rank s ∧ ∀ i, helps s i → helps s' i ∧ ¬owns i action)
  helped : ∀ {s}, I s → ¬P s → ∃ i, helps s i
  free : ∀ {s i}, I s → ¬P s → helps s i → ¬M.Blocked (owns i) s

namespace Ranking

variable {I P : σ → Prop} {rank : σ → ℕ} {helps : σ → ι → Prop}

/-- The goal stays reached to the end of a run. -/
theorem stays (h : M.Ranking owns I P rank helps) (hI : I s) (hP : P s)
    (hrun : M.runFrom s actions = some (t, log)) : P t :=
  (keep_runFrom (I := fun s => I s ∧ P s)
    (fun hs hstep => ⟨h.keep hs.1 hstep, h.stay hs.1 hs.2 hstep⟩) hrun ⟨hI, hP⟩).2

/-- A run reaches the goal, or lowers the rank, or no thread that helps has made a step. -/
theorem run (h : M.Ranking owns I P rank helps) (hI : I s)
    (hrun : M.runFrom s actions = some (t, log)) : I t ∧ (P t ∨ rank t < rank s ∨
      (rank t = rank s ∧ ∀ i, helps s i → helps t i ∧ ∀ action ∈ actions, ¬owns i action)) := by
  induction actions generalizing s log with
  | nil =>
    cases hrun
    exact ⟨hI, Or.inr (Or.inr ⟨rfl, fun i hi => ⟨hi, fun _ hmem => by cases hmem⟩⟩)⟩
  | cons action actions ih =>
    obtain ⟨s', new, rest, hstep, hrest, rfl⟩ := runFrom_cons.1 hrun
    obtain ⟨hIt, hends⟩ := ih (h.keep hI hstep) hrest
    refine ⟨hIt, ?_⟩
    have hstay : P s' → P t := fun hP => h.stays (h.keep hI hstep) hP hrest
    by_cases hP : P s
    · exact Or.inl (hstay (h.stay hI hP hstep))
    rcases h.step hI hP hstep with hP' | hlt | ⟨heq, hhelps⟩
    · exact Or.inl (hstay hP')
    · rcases hends with hPt | hlt' | ⟨heq', -⟩
      · exact Or.inl hPt
      · exact Or.inr (Or.inl (hlt'.trans hlt))
      · exact Or.inr (Or.inl (heq'.trans_lt hlt))
    · rcases hends with hPt | hlt' | ⟨heq', hhelps'⟩
      · exact Or.inl hPt
      · exact Or.inr (Or.inl (hlt'.trans_eq heq))
      · refine Or.inr (Or.inr ⟨heq'.trans heq, fun i hi => ?_⟩)
        obtain ⟨hi', hnot⟩ := hhelps i hi
        obtain ⟨hit, hnone⟩ := hhelps' i hi'
        exact ⟨hit, List.forall_mem_cons.2 ⟨hnot, hnone⟩⟩

/-- A round reaches the goal or lowers the rank. -/
theorem round (h : M.Ranking owns I P rank helps) (hI : I s)
    (hrun : M.runFrom s actions = some (t, log)) (hserves : ∀ i, M.Serves (owns i) s actions) :
    P t ∨ rank t < rank s := by
  rcases (h.run hI hrun).2 with hP | hlt | ⟨-, hhelps⟩
  · exact Or.inl hP
  · exact Or.inr hlt
  by_cases hP : P s
  · exact Or.inl (h.stays hI hP hrun)
  obtain ⟨i, hi⟩ := h.helped hI hP
  rcases hserves i with ⟨action, hmem, hown⟩ | ⟨before, after, u, log', rfl, hbefore, hblocked⟩
  · exact absurd hown ((hhelps i hi).2 action hmem)
  -- The thread was blocked on the way, so it did not help any more.
  obtain ⟨u', log₁, log₂, hbefore', hafter, -⟩ := runFrom_append.1 hrun
  obtain ⟨rfl, -⟩ := Prod.mk.inj (Option.some.inj (hbefore.symm.trans hbefore'))
  obtain ⟨hIu, hends⟩ := h.run hI hbefore
  by_cases hPu : P u
  · exact Or.inl (h.stays hIu hPu hafter)
  rcases hends with hPu' | hlt | ⟨-, hhelps'⟩
  · exact absurd hPu' hPu
  · rcases (h.run hIu hafter).2 with hP | hlt' | ⟨heq, -⟩
    · exact Or.inl hP
    · exact Or.inr (hlt'.trans hlt)
    · exact Or.inr (heq.trans_lt hlt)
  · exact absurd hblocked (h.free hIu hPu (hhelps' i hi).1)

/-- The goal is reached in more rounds than the rank is high. -/
theorem reached (h : M.Ranking owns I P rank helps) {n : ℕ} (hI : I s) (hrank : rank s < n)
    (hrounds : M.Rounds owns n s t) : P t := by
  induction hrounds with
  | none s => exact absurd hrank (Nat.not_lt_zero _)
  | @round n s t u log actions run serves rest ih =>
    rcases h.round hI run serves with hP | hlt
    · exact (rest.keep (I := fun s => I s ∧ P s)
        (fun hs hstep => ⟨h.keep hs.1 hstep, h.stay hs.1 hs.2 hstep⟩)
        ⟨(h.run hI run).1, hP⟩).2
    · exact ih (h.run hI run).1 (by omega)

end Ranking

end Machine

end L2Flow
