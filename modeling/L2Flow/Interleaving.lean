import Mathlib.Algebra.BigOperators.Group.Finset.Basic
import Mathlib.Data.List.Basic
import Mathlib.Data.List.Induction
import Mathlib.Tactic.Common

/-!
# Interleavings

Threads over a sequentially consistent memory, as one machine : an action says which thread
moves and what it is given, and a step that is not enabled is `none`. A run is a list of
actions, so that every interleaving is a run, and the log collects what the steps report.

`Machine.invariant` is the rule safety is proved by : what holds of the start with an empty
log, and is kept by every step, holds of every state and log that a run reaches.
-/

namespace L2Flow

/-- States `σ`, actions `α`, and events `ε`. -/
structure Machine (σ α ε : Type*) where
  start : σ
  step : σ → α → Option (σ × List ε)

namespace Machine

variable {σ α ε : Type*} (M : Machine σ α ε)

/-- Make the actions in order. -/
def runFrom : σ → List α → Option (σ × List ε)
  | s, [] => some (s, [])
  | s, action :: actions =>
    (M.step s action).bind fun next =>
      (runFrom next.1 actions).map fun last => (last.1, next.2 ++ last.2)

def run (actions : List α) : Option (σ × List ε) :=
  M.runFrom M.start actions

variable {M}

theorem runFrom_cons {s t : σ} {log : List ε} {action : α} {actions : List α} :
    M.runFrom s (action :: actions) = some (t, log) ↔ ∃ s' new rest,
      M.step s action = some (s', new) ∧ M.runFrom s' actions = some (t, rest) ∧
        log = new ++ rest := by
  rw [runFrom, Option.bind_eq_some_iff]
  constructor
  · rintro ⟨⟨s', new⟩, hstep, hmap⟩
    obtain ⟨⟨t', rest⟩, hrest, he⟩ := Option.map_eq_some_iff.1 hmap
    cases he
    exact ⟨s', new, rest, hstep, hrest, rfl⟩
  · rintro ⟨s', new, rest, hstep, hrest, rfl⟩
    exact ⟨(s', new), hstep, by rw [hrest]; rfl⟩

theorem runFrom_append {s u : σ} {log : List ε} {actions actions' : List α} :
    M.runFrom s (actions ++ actions') = some (u, log) ↔ ∃ t before after,
      M.runFrom s actions = some (t, before) ∧ M.runFrom t actions' = some (u, after) ∧
        log = before ++ after := by
  induction actions generalizing s log with
  | nil =>
    constructor
    · intro h
      exact ⟨s, [], log, rfl, h, rfl⟩
    · rintro ⟨t, before, after, h, h', rfl⟩
      cases h
      exact h'
  | cons action actions ih =>
    rw [List.cons_append, runFrom_cons]
    constructor
    · rintro ⟨s', new, rest, hstep, hrest, rfl⟩
      obtain ⟨t, before, after, h, h', rfl⟩ := ih.1 hrest
      exact ⟨t, new ++ before, after, runFrom_cons.2 ⟨s', new, before, hstep, h, rfl⟩, h',
        (List.append_assoc _ _ _).symm⟩
    · rintro ⟨t, before, after, h, h', rfl⟩
      obtain ⟨s', new, rest, hstep, hrest, rfl⟩ := runFrom_cons.1 h
      exact ⟨s', new, rest ++ after, hstep, ih.2 ⟨t, rest, after, hrest, h', rfl⟩,
        List.append_assoc _ _ _⟩

theorem runFrom_one {s t : σ} {log : List ε} {action : α} :
    M.runFrom s [action] = some (t, log) ↔ M.step s action = some (t, log) := by
  rw [runFrom_cons]
  constructor
  · rintro ⟨s', new, rest, hstep, hrest, rfl⟩
    cases hrest
    rw [List.append_nil]
    exact hstep
  · intro hstep
    exact ⟨t, log, [], hstep, rfl, (List.append_nil _).symm⟩

theorem runFrom_snoc {s u : σ} {log : List ε} {action : α} {actions : List α} :
    M.runFrom s (actions ++ [action]) = some (u, log) ↔ ∃ t before new,
      M.runFrom s actions = some (t, before) ∧ M.step t action = some (u, new) ∧
        log = before ++ new := by
  simp only [runFrom_append, runFrom_one]

/-- A state and the log of a run that ends in it. -/
def Reaches (M : Machine σ α ε) (s : σ) (log : List ε) : Prop :=
  ∃ actions, M.run actions = some (s, log)

theorem Reaches.start : M.Reaches M.start [] :=
  ⟨[], rfl⟩

theorem Reaches.runFrom {s t : σ} {log new : List ε} (h : M.Reaches s log) {actions : List α}
    (hrun : M.runFrom s actions = some (t, new)) : M.Reaches t (log ++ new) := by
  obtain ⟨earlier, hearlier⟩ := h
  exact ⟨earlier ++ actions, runFrom_append.2 ⟨s, log, new, hearlier, hrun, rfl⟩⟩

/-- What holds of a state and its log, and is kept by the steps of the actions that are
made, holds when they have been made. -/
theorem invariant_runFrom {P : α → Prop} {I : σ → List ε → Prop}
    (hstep : ∀ {s log action s' new}, P action → I s log → M.step s action = some (s', new) →
      I s' (log ++ new)) :
    ∀ {actions : List α} {s t : σ} {log new : List ε}, (∀ action ∈ actions, P action) → I s log →
      M.runFrom s actions = some (t, new) → I t (log ++ new)
  | [], s, t, log, new, _, hs, h => by
    cases h
    rwa [List.append_nil]
  | action :: actions, s, t, log, new, hP, hs, h => by
    obtain ⟨s', first, rest, hfirst, hrest, rfl⟩ := runFrom_cons.1 h
    rw [← List.append_assoc]
    exact invariant_runFrom hstep (fun a ha => hP a (List.mem_cons_of_mem _ ha))
      (hstep (hP action List.mem_cons_self) hs hfirst) hrest

/-- What holds of the start, and is kept by every step, holds after every run. -/
theorem invariant {I : σ → List ε → Prop} (hstart : I M.start [])
    (hstep : ∀ {s log action s' new}, I s log → M.step s action = some (s', new) →
      I s' (log ++ new)) {s : σ} {log : List ε} (h : M.Reaches s log) : I s log := by
  obtain ⟨actions, hrun⟩ := h
  exact invariant_runFrom (P := fun _ => True) (fun _ hs h => hstep hs h) (fun _ _ => trivial)
    hstart hrun

/-! ## The states a run passes -/

/-- A state that the run from `s` passes satisfies `P`. -/
def Meets (M : Machine σ α ε) (s : σ) (actions : List α) (P : σ → Prop) : Prop :=
  ∃ before after t log, actions = before ++ after ∧ M.runFrom s before = some (t, log) ∧ P t

theorem Meets.append {s : σ} {actions : List α} {P : σ → Prop} (h : M.Meets s actions P)
    (more : List α) : M.Meets s (actions ++ more) P := by
  obtain ⟨before, after, t, log, rfl, hrun, ht⟩ := h
  exact ⟨before, after ++ more, t, log, List.append_assoc _ _ _, hrun, ht⟩

/-- What the run comes to, it meets. -/
theorem meets_of_runFrom {s t : σ} {log : List ε} {actions : List α} {P : σ → Prop}
    (hrun : M.runFrom s actions = some (t, log)) (ht : P t) : M.Meets s actions P :=
  ⟨actions, [], t, log, (List.append_nil _).symm, hrun, ht⟩

/-- What holds of no action made, and is kept by each, holds of the actions of a run. -/
theorem invariant_actions {s : σ} {I : List α → σ → List ε → Prop} (hstart : I [] s [])
    (hstep : ∀ {actions t log action u new}, M.runFrom s actions = some (t, log) →
      I actions t log → M.step t action = some (u, new) → I (actions ++ [action]) u (log ++ new))
    {actions : List α} {t : σ} {log : List ε} (h : M.runFrom s actions = some (t, log)) :
    I actions t log := by
  induction actions using List.reverseRecOn generalizing t log with
  | nil =>
    obtain ⟨rfl, rfl⟩ := Prod.mk.inj (Option.some.inj h)
    exact hstart
  | append_singleton actions action ih =>
    obtain ⟨u, before, new, hrun, hlast, rfl⟩ := runFrom_snoc.1 h
    exact hstep hrun (ih hrun) hlast

/-! ## Sums over the threads -/

/-- When one thread goes from one stage to another, its summand changes and no other. -/
theorem sum_update {ι β : Type*} [Fintype ι] [DecidableEq ι] (f : β → ℕ) (stages : ι → β)
    (thread : ι) (stage : β) :
    ∑ t, f (Function.update stages thread stage t) + f (stages thread) =
      ∑ t, f (stages t) + f stage := by
  rw [← Finset.add_sum_erase _ _ (Finset.mem_univ thread),
    ← Finset.add_sum_erase Finset.univ (fun t => f (stages t)) (Finset.mem_univ thread)]
  have hrest : ∑ t ∈ Finset.univ.erase thread, f (Function.update stages thread stage t) =
      ∑ t ∈ Finset.univ.erase thread, f (stages t) :=
    Finset.sum_congr rfl fun t ht => by rw [Function.update_of_ne (Finset.ne_of_mem_erase ht)]
  rw [hrest, Function.update_self]
  omega

/-! ## Calls in a log -/

/-- The last event that satisfies `opens`, a call, is in the log. -/
def Open (opens : ε → Prop) (log : List ε) : Prop :=
  ∃ before event rest, log = before ++ event :: rest ∧ opens event ∧ ∀ e ∈ rest, ¬opens e

/-- `P` held of the log at some moment since the last call. -/
def During (opens : ε → Prop) (P : List ε → Prop) (log : List ε) : Prop :=
  ∃ before event early late, log = before ++ event :: (early ++ late) ∧ opens event ∧
    (∀ e ∈ early ++ late, ¬opens e) ∧ P (before ++ event :: early)

theorem open_snoc {opens : ε → Prop} {event : ε} (h : opens event) (log : List ε) :
    Open opens (log ++ [event]) :=
  ⟨log, event, [], rfl, h, fun _ he => absurd he List.not_mem_nil⟩

theorem Open.append {opens : ε → Prop} {log more : List ε} (h : Open opens log)
    (hmore : ∀ e ∈ more, ¬opens e) : Open opens (log ++ more) := by
  obtain ⟨before, event, rest, rfl, hevent, hrest⟩ := h
  refine ⟨before, event, rest ++ more, by simp, hevent, fun e he => ?_⟩
  exact (List.mem_append.1 he).elim (hrest e) (hmore e)

/-- What holds now holds at a moment of the call in progress. -/
theorem Open.during {opens : ε → Prop} {P : List ε → Prop} {log : List ε} (h : Open opens log)
    (hP : P log) : During opens P log := by
  obtain ⟨before, event, rest, rfl, hevent, hrest⟩ := h
  exact ⟨before, event, rest, [], by simp, hevent, by simpa using hrest, hP⟩

/-- Every event of the log is justified by the log before it. -/
def Justified (why : List ε → ε → Prop) (log : List ε) : Prop :=
  ∀ before event after, log = before ++ event :: after → why before event

theorem justified_nil (why : List ε → ε → Prop) : Justified why [] := by
  intro before event after h
  simp at h

theorem Justified.snoc {why : List ε → ε → Prop} {log : List ε} (h : Justified why log)
    {event : ε} (hevent : why log event) : Justified why (log ++ [event]) := by
  intro before event' after heq
  rcases List.eq_nil_or_concat after with rfl | ⟨after, last, rfl⟩
  · obtain ⟨rfl, he⟩ := List.append_inj' heq rfl
    obtain rfl := (List.cons.inj he).1
    exact hevent
  · have hsplit : log ++ [event] = (before ++ event' :: after) ++ [last] := by
      rw [heq]
      simp
    obtain ⟨rfl, -⟩ := List.append_inj' hsplit rfl
    exact h before event' after rfl

end Machine

end L2Flow
