import Mathlib.Logic.Relation
import Mathlib.Tactic.Common

/-!
# Loops

A loop of the source is its body, run until it is done. `iterate` runs a body a
bounded number of times and gives `none` when the bound is reached, so that a result
is a result of the loop itself, whatever the bound (`iterate_mono`). A variant that
falls with every further pass bounds the passes (`exists_iterate`), and a relation
that every last pass has and every earlier pass keeps holds of the whole loop
(`iterate_rel`, and `iterate_keep` for what does not depend on where the loop began). A
body whose variant falls from every state, reachable or not, is a total loop (`run`),
which satisfies the loop's own equation (`run_again`, `run_done`), and two loops whose
bodies answer alike have like results (`run_alike`).
-/

namespace L2Flow

variable {σ ρ : Type*}

/-- What one pass of a loop body comes to : another pass, or a result. -/
inductive Pass (σ ρ : Type*) where
  | again (s : σ)
  | done (r : ρ)

namespace Loop

/-- At most `fuel` passes of `body`, from `s`. -/
def iterate (body : σ → Pass σ ρ) : ℕ → σ → Option ρ
  | 0, _ => none
  | fuel + 1, s =>
    match body s with
    | .again s' => iterate body fuel s'
    | .done r => some r

variable {body : σ → Pass σ ρ}

theorem iterate_again {s s' : σ} (h : body s = .again s') (fuel : ℕ) :
    iterate body (fuel + 1) s = iterate body fuel s' := by
  simp [iterate, h]

theorem iterate_done {s : σ} {r : ρ} (h : body s = .done r) (fuel : ℕ) :
    iterate body (fuel + 1) s = some r := by
  simp [iterate, h]

/-- More fuel does not change a result. -/
theorem iterate_mono : ∀ {fuel fuel' : ℕ} {s : σ} {r : ρ}, fuel ≤ fuel' →
    iterate body fuel s = some r → iterate body fuel' s = some r
  | 0, _, _, _, _, h => by simp [iterate] at h
  | fuel + 1, 0, _, _, hle, _ => by omega
  | fuel + 1, fuel' + 1, s, r, hle, h => by
    cases hb : body s with
    | again s' =>
      rw [iterate_again hb] at h ⊢
      exact iterate_mono (by omega) h
    | done r' =>
      rw [iterate_done hb] at h ⊢
      exact h

/-- A relation between a loop's state and its result holds if the last pass has it and
every earlier pass keeps it, under an invariant of the passes. -/
theorem iterate_rel {I : σ → Prop} {R : σ → ρ → Prop}
    (hinv : ∀ s s', I s → body s = .again s' → I s')
    (hdone : ∀ s r, I s → body s = .done r → R s r)
    (hagain : ∀ s s' r, I s → body s = .again s' → R s' r → R s r) :
    ∀ {fuel : ℕ} {s : σ} {r : ρ}, I s → iterate body fuel s = some r → R s r
  | 0, _, _, _, h => by simp [iterate] at h
  | fuel + 1, s, r, hs, h => by
    cases hb : body s with
    | again s' =>
      rw [iterate_again hb] at h
      exact hagain s s' r hs hb (iterate_rel hinv hdone hagain (hinv s s' hs hb) h)
    | done r' =>
      rw [iterate_done hb] at h
      cases h
      exact hdone s _ hs hb

/-- A loop whose variant falls with every further pass ends. -/
theorem exists_iterate {I : σ → Prop} (variant : σ → ℕ)
    (hagain : ∀ s s', I s → body s = .again s' → I s' ∧ variant s' < variant s) :
    ∀ {fuel : ℕ} {s : σ}, I s → variant s < fuel → ∃ r, iterate body fuel s = some r
  | 0, _, _, h => by omega
  | fuel + 1, s, hs, h => by
    cases hb : body s with
    | again s' =>
      obtain ⟨hs', hlt⟩ := hagain s s' hs hb
      obtain ⟨r, hr⟩ := exists_iterate variant hagain hs' (show variant s' < fuel by omega)
      exact ⟨r, by rw [iterate_again hb, hr]⟩
    | done r => exact ⟨r, iterate_done hb fuel⟩

/-- The loop comes to a result. -/
def Ends (body : σ → Pass σ ρ) (s : σ) : Prop :=
  ∃ fuel r, iterate body fuel s = some r

theorem ends_of_variant {I : σ → Prop} (variant : σ → ℕ)
    (hagain : ∀ s s', I s → body s = .again s' → I s' ∧ variant s' < variant s) {s : σ}
    (hs : I s) : Ends body s :=
  ⟨variant s + 1, exists_iterate variant hagain hs (Nat.lt_succ_self _)⟩

/-! ## Total loops -/

theorem isSome_iterate (variant : σ → ℕ)
    (h : ∀ s s', body s = .again s' → variant s' < variant s) (s : σ) :
    (iterate body (variant s + 1) s).isSome := by
  obtain ⟨r, hr⟩ := exists_iterate (I := fun _ => True) variant
    (fun s s' _ hb => ⟨trivial, h s s' hb⟩) (s := s) trivial (Nat.lt_succ_self (variant s))
  rw [hr]
  rfl

/-- A loop whose variant falls from every state. -/
def run (body : σ → Pass σ ρ) (variant : σ → ℕ)
    (h : ∀ s s', body s = .again s' → variant s' < variant s) (s : σ) : ρ :=
  (iterate body (variant s + 1) s).get (isSome_iterate variant h s)

variable {variant : σ → ℕ} {h : ∀ s s', body s = .again s' → variant s' < variant s}

theorem run_again {s s' : σ} (hb : body s = .again s') :
    run body variant h s = run body variant h s' := by
  have hs' : iterate body (variant s' + 1) s' = some (run body variant h s') := by simp [run]
  have hs := iterate_mono (Nat.succ_le_of_lt (h s s' hb)) hs'
  simp [run, iterate_again hb, hs]

theorem run_done {s : σ} {r : ρ} (hb : body s = .done r) : run body variant h s = r := by
  simp [run, iterate_done hb]

/-- A relation that the last pass has and every earlier pass keeps holds of the loop. -/
theorem run_rel {I : σ → Prop} {R : σ → ρ → Prop}
    (hinv : ∀ s s', I s → body s = .again s' → I s')
    (hdone : ∀ s r, I s → body s = .done r → R s r)
    (hagain : ∀ s s' r, I s → body s = .again s' → R s' r → R s r) {s : σ} (hs : I s) :
    R s (run body variant h s) := by
  have hr : iterate body (variant s + 1) s = some (run body variant h s) := by simp [run]
  exact iterate_rel hinv hdone hagain hs hr

/-! ## Two loops -/

/-- What two passes come to alike : two further passes, or two results. -/
inductive Alike {σ' ρ' : Type*} (R : σ → σ' → Prop) (Q : ρ → ρ' → Prop) :
    Pass σ ρ → Pass σ' ρ' → Prop where
  | again {s : σ} {t : σ'} (h : R s t) : Alike R Q (.again s) (.again t)
  | done {r : ρ} {q : ρ'} (h : Q r q) : Alike R Q (.done r) (.done q)

section Alike

variable {σ' ρ' : Type*} {R : σ → σ' → Prop} {Q : ρ → ρ' → Prop} {body' : σ' → Pass σ' ρ'}

/-- Loops whose passes are alike from related states have related results. -/
theorem iterate_alike (hbody : ∀ s t, R s t → Alike R Q (body s) (body' t)) :
    ∀ {s : σ} {t : σ'} (fuel : ℕ), R s t →
      Option.Rel Q (iterate body fuel s) (iterate body' fuel t)
  | _, _, 0, _ => .none
  | s, t, fuel + 1, h => by
    have hpass := hbody s t h
    rw [iterate, iterate]
    generalize body s = pass at hpass ⊢
    generalize body' t = pass' at hpass ⊢
    rcases hpass with hagain | hdone
    · exact iterate_alike hbody fuel hagain
    · exact .some hdone

theorem run_alike {variant' : σ' → ℕ}
    {h' : ∀ s s', body' s = .again s' → variant' s' < variant' s}
    (hbody : ∀ s t, R s t → Alike R Q (body s) (body' t)) {s : σ} {t : σ'} (hs : R s t) :
    Q (run body variant h s) (run body' variant' h' t) := by
  have hrun : iterate body (variant s + 1) s = some (run body variant h s) := by simp [run]
  have hrun' : iterate body' (variant' t + 1) t = some (run body' variant' h' t) := by
    simp [run]
  have halike := iterate_alike hbody (variant s + 1 + (variant' t + 1)) hs
  rw [iterate_mono (Nat.le_add_right _ _) hrun, iterate_mono (Nat.le_add_left _ _) hrun'] at halike
  rcases halike with halike | -
  exact halike

end Alike

/-! ## Passes of a loop -/

/-- The states in which a pass of the loop from `s` begins. -/
def Passes (body : σ → Pass σ ρ) : σ → σ → Prop :=
  Relation.ReflTransGen fun s s' => body s = .again s'

/-- What the passes of a loop keep, and what the last of them makes of it. -/
theorem iterate_keep {I : σ → Prop} {Q : ρ → Prop} {start : σ}
    (hagain : ∀ s s', Passes body start s → I s → body s = .again s' → I s')
    (hdone : ∀ s r, Passes body start s → I s → body s = .done r → Q r) {fuel : ℕ} {r : ρ}
    (hs : I start) (h : iterate body fuel start = some r) : Q r := by
  refine iterate_rel (I := fun s => Passes body start s ∧ I s) (R := fun _ r => Q r) ?_ ?_
    (fun _ _ _ _ _ hr => hr) ⟨Relation.ReflTransGen.refl, hs⟩ h
  · rintro s s' ⟨hp, hs⟩ hb
    exact ⟨Relation.ReflTransGen.tail hp hb, hagain s s' hp hs hb⟩
  · rintro s r ⟨hp, hs⟩ hb
    exact hdone s r hp hs hb

end Loop

end L2Flow
