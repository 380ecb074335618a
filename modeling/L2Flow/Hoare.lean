import Mathlib.Data.Nat.Notation
import Mathlib.Data.List.Basic
import Mathlib.Tactic.Common

/-!
# Computations that may fail

A computation of `EStateM ε σ` ends with a result or with an error, and in a state in both
cases. `Spec P m Q E` says that `m`, from a state that satisfies `P`, ends with a result and a
state that satisfy `Q`, or with an error and a state that satisfy `E`. The rules follow the
shape of the computation; a loop has an invariant for each of its passes (`Spec.foldlM`).

`require` is the check : the computation goes on if the condition holds, and ends with the
error otherwise.
-/

namespace L2Flow

variable {ε σ α β : Type}

/-- What holds at the end, with a result or an error. -/
def Ends (result : EStateM.Result ε σ α) (Q : α → σ → Prop) (E : ε → σ → Prop) : Prop :=
  match result with
  | .ok a s => Q a s
  | .error e s => E e s

/-- From a state that satisfies `P`, the computation ends as `Q` and `E` say. -/
def Spec (P : σ → Prop) (m : EStateM ε σ α) (Q : α → σ → Prop) (E : ε → σ → Prop) : Prop :=
  ∀ s, P s → Ends (m s) Q E

/-- The check : without the condition the computation ends with the error. -/
def require (error : ε) (condition : Prop) [Decidable condition] : EStateM ε σ Unit :=
  if condition then pure () else throw error

/-! ## Evaluation -/

theorem bind_ok {m : EStateM ε σ α} {f : α → EStateM ε σ β} {s s' : σ} {a : α}
    (h : m s = .ok a s') : (m >>= f) s = f a s' := by
  show EStateM.bind m f s = f a s'
  rw [EStateM.bind, h]

theorem bind_error {m : EStateM ε σ α} {f : α → EStateM ε σ β} {s s' : σ} {e : ε}
    (h : m s = .error e s') : (m >>= f) s = .error e s' := by
  show EStateM.bind m f s = .error e s'
  rw [EStateM.bind, h]

theorem require_ok {error : ε} {condition : Prop} [Decidable condition] (h : condition) (s : σ) :
    (require error condition : EStateM ε σ Unit) s = .ok () s := by
  rw [require, if_pos h]
  rfl

theorem require_error {error : ε} {condition : Prop} [Decidable condition] (h : ¬condition)
    (s : σ) : (require error condition : EStateM ε σ Unit) s = .error error s := by
  rw [require, if_neg h]
  rfl

/-! ## Rules -/

namespace Spec

variable {P R : σ → Prop} {m : EStateM ε σ α} {Q Q' : α → σ → Prop} {E E' : ε → σ → Prop}

theorem pure {a : α} (h : ∀ s, P s → Q a s) : Spec P (pure a : EStateM ε σ α) Q E :=
  h

/-- Rule of sequence : what the first part ends with is what the second starts from. -/
theorem bind {f : α → EStateM ε σ β} {Q' : β → σ → Prop} (hm : Spec P m Q E)
    (hf : ∀ a, Spec (Q a) (f a) Q' E) : Spec P (m >>= f) Q' E := by
  intro s hs
  have hends := hm s hs
  rcases h : m s with ⟨a, s'⟩ | ⟨e, s'⟩
  · rw [h] at hends
    rw [bind_ok h]
    exact hf a s' hends
  · rw [h] at hends
    rw [bind_error h]
    exact hends

/-- Rule of consequence. -/
theorem mono (h : Spec P m Q E) (hP : ∀ s, R s → P s) (hQ : ∀ a s, Q a s → Q' a s)
    (hE : ∀ e s, E e s → E' e s) : Spec R m Q' E' := by
  intro s hs
  have hends := h s (hP s hs)
  rcases hr : m s with ⟨a, s'⟩ | ⟨e, s'⟩
  · rw [hr] at hends
    exact hQ a s' hends
  · rw [hr] at hends
    exact hE e s' hends

theorem require {error : ε} {condition : Prop} [Decidable condition] {Q : Unit → σ → Prop}
    (hok : ∀ s, P s → condition → Q () s) (herror : ∀ s, P s → ¬condition → E error s) :
    Spec P (require error condition : EStateM ε σ Unit) Q E := by
  intro s hs
  by_cases h : condition
  · rw [require_ok h]
    exact hok s hs h
  · rw [require_error h]
    exact herror s hs h

/-- From a state of either kind. -/
theorem or (h : Spec P m Q E) (h' : Spec R m Q E) : Spec (fun s => P s ∨ R s) m Q E :=
  fun s hs => hs.elim (h s) (h' s)

/-- The handler goes on in the state in which the computation has ended. -/
theorem tryCatch {handle : ε → EStateM ε σ α} {F : ε → σ → Prop} (hm : Spec P m Q F)
    (hhandle : ∀ e, Spec (F e) (handle e) Q E) : Spec P (tryCatch m handle) Q E := by
  intro s hs
  have hends := hm s hs
  show Ends (EStateM.tryCatch m handle s) Q E
  rw [EStateM.tryCatch]
  rcases h : m s with ⟨a, s'⟩ | ⟨e, s'⟩
  · rw [h] at hends
    exact hends
  · rw [h] at hends
    exact hhandle e s' hends

/-- An invariant of the body is one of the loop, however many elements there are. -/
theorem forM {f : β → EStateM ε σ PUnit} :
    ∀ (l : List β), (∀ b ∈ l, Spec P (f b) (fun _ => P) E) → Spec P (l.forM f) (fun _ => P) E
  | [], _ => fun _ hs => hs
  | b :: l, hf => (hf b List.mem_cons_self).bind fun _ =>
    forM l fun b' hb' => hf b' (List.mem_cons_of_mem _ hb')

/-- What holds before the first pass, and is kept by every pass, holds after the last. -/
theorem foldlM {f : β → ℕ → EStateM ε σ β} {I : ℕ → β → σ → Prop} :
    ∀ (count : ℕ), (∀ index < count, ∀ b, Spec (I index b) (f b index) (I (index + 1)) E) →
      ∀ b, Spec (I 0 b) ((List.range count).foldlM f b) (I count) E
  | 0, _, b => fun _ hs => hs
  | count + 1, hf, b => by
    rw [List.range_succ, List.foldlM_append]
    refine (foldlM count (fun index hi => hf index (by omega)) b).bind fun b' => ?_
    rw [List.foldlM_cons]
    refine (hf count (Nat.lt_succ_self count) b').bind fun b'' => ?_
    exact fun _ hs => hs

end Spec

end L2Flow
