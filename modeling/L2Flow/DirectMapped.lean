import Mathlib.Algebra.BigOperators.Group.Finset.Basic
import Mathlib.Algebra.Order.BigOperators.Group.Finset
import Mathlib.Data.Fintype.BigOperators
import Mathlib.Data.List.FinRange

/-!
# Direct-mapped tables

A table of cells in which the cell a value may occupy is a function of its key
(`home`) : no probing, no chains, so two keys with one home cannot be held together.
That every value lies in its own cell is carried by the structure (`aligned`). The
table is then a partial map on keys : at most one value a key (`eq_of_mem`), `find`
reads it (`find_eq_some_iff`), inserting into a free cell adds one value and freeing a
cell removes its value, in the membership (`mem_insert`, `mem_erase`), the count
(`card_insert`, `card_erase`) and the multiset of the values held (`values_insert`,
`values_erase`). A scan over the cells gives the least key held (`minimum_le`,
`exists_minimum`).
-/

namespace L2Flow

/-- Cells indexed by `ι`, each empty or holding a value whose key has it as home. -/
structure DirectMapped {ι κ α : Type*} (home : κ → ι) (key : α → κ) where
  /-- What each cell holds. -/
  cells : ι → Option α
  aligned : ∀ i a, cells i = some a → home (key a) = i

namespace DirectMapped

variable {ι κ α : Type*} {home : κ → ι} {key : α → κ}

/-- The table with every cell free. -/
def empty : DirectMapped home key :=
  ⟨fun _ => none, fun _ _ h => by simp at h⟩

/-- What the home cell of `k` holds, whatever its key. -/
def occupant (t : DirectMapped home key) (k : κ) : Option α :=
  t.cells (home k)

/-- The value held for the key `k`. -/
def find [DecidableEq κ] (t : DirectMapped home key) (k : κ) : Option α :=
  (t.occupant k).filter fun a => key a = k

/-- Put `a` in its home cell. -/
def insert [DecidableEq ι] (t : DirectMapped home key) (a : α) : DirectMapped home key where
  cells := Function.update t.cells (home (key a)) (some a)
  aligned i b h := by
    by_cases hi : i = home (key a)
    · subst hi
      simp only [Function.update_self, Option.some.injEq] at h
      rw [h]
    · rw [Function.update_of_ne hi] at h
      exact t.aligned i b h

/-- Free the home cell of `k`. -/
def erase [DecidableEq ι] (t : DirectMapped home key) (k : κ) : DirectMapped home key where
  cells := Function.update t.cells (home k) none
  aligned i b h := by
    by_cases hi : i = home k
    · subst hi
      simp at h
    · rw [Function.update_of_ne hi] at h
      exact t.aligned i b h

instance : Membership α (DirectMapped home key) :=
  ⟨fun t a => t.occupant (key a) = some a⟩

theorem mem_def {t : DirectMapped home key} {a : α} : a ∈ t ↔ t.occupant (key a) = some a :=
  Iff.rfl

theorem mem_iff_cells {t : DirectMapped home key} {a : α} : a ∈ t ↔ ∃ i, t.cells i = some a := by
  constructor
  · intro h
    exact ⟨_, h⟩
  · rintro ⟨i, h⟩
    rw [mem_def, occupant, t.aligned i a h]
    exact h

/-- The home of whatever a cell holds is that cell. -/
theorem mem_of_occupant {t : DirectMapped home key} {k : κ} {a : α} (h : t.occupant k = some a) :
    a ∈ t ∧ home (key a) = home k :=
  ⟨mem_iff_cells.2 ⟨_, h⟩, t.aligned _ _ h⟩

/-- An element occupies its slot for every key with the same home. -/
theorem occupant_of_mem {t : DirectMapped home key} {k : κ} {a : α} (h : a ∈ t)
    (hhome : home (key a) = home k) : t.occupant k = some a := by
  rw [occupant, ← hhome]
  exact h

@[simp] theorem not_mem_empty (a : α) : a ∉ (empty : DirectMapped home key) := by
  simp [mem_def, occupant, empty]

/-- Two values held with one home are one value. -/
theorem eq_of_home {t : DirectMapped home key} {a b : α} (ha : a ∈ t) (hb : b ∈ t)
    (h : home (key a) = home (key b)) : a = b := by
  rw [mem_def, occupant] at ha hb
  rw [h, hb] at ha
  exact (Option.some.inj ha).symm

/-- A key is that of one element at most. -/
theorem eq_of_mem {t : DirectMapped home key} {a b : α} (ha : a ∈ t) (hb : b ∈ t)
    (h : key a = key b) : a = b :=
  eq_of_home ha hb (congrArg home h)

theorem find_eq_some_iff [DecidableEq κ] {t : DirectMapped home key} {k : κ} {a : α} :
    t.find k = some a ↔ a ∈ t ∧ key a = k := by
  rw [find, Option.filter_eq_some_iff]
  constructor
  · rintro ⟨h, hk⟩
    exact ⟨(mem_of_occupant h).1, by simpa using hk⟩
  · rintro ⟨h, rfl⟩
    exact ⟨h, by simp⟩

theorem find_eq_none_iff [DecidableEq κ] {t : DirectMapped home key} {k : κ} :
    t.find k = none ↔ ∀ a ∈ t, key a ≠ k := by
  rw [Option.eq_none_iff_forall_ne_some]
  constructor
  · intro h a ha hk
    exact h a (find_eq_some_iff.2 ⟨ha, hk⟩)
  · intro h a ha
    obtain ⟨hm, hk⟩ := find_eq_some_iff.1 ha
    exact h a hm hk

section Update

variable [DecidableEq ι]

theorem occupant_insert {t : DirectMapped home key} {a : α} {k : κ} :
    (t.insert a).occupant k = if home k = home (key a) then some a else t.occupant k := by
  simp [occupant, insert, Function.update_apply]

theorem occupant_erase {t : DirectMapped home key} {j k : κ} :
    (t.erase j).occupant k = if home k = home j then none else t.occupant k := by
  simp [occupant, erase, Function.update_apply]

/-- Into a free slot an element is added, and none is lost. -/
theorem mem_insert {t : DirectMapped home key} {a b : α} (h : t.occupant (key a) = none) :
    b ∈ t.insert a ↔ b = a ∨ b ∈ t := by
  rw [mem_def, mem_def, occupant_insert]
  split_ifs with hi
  · have hb : t.occupant (key b) = none := by rw [occupant, hi]; exact h
    simp [hb, eq_comm]
  · have hne : b ≠ a := fun hba => hi (by rw [hba])
    simp [hne]

/-- What has its home elsewhere stays. -/
theorem mem_erase {t : DirectMapped home key} {k : κ} {b : α} :
    b ∈ t.erase k ↔ b ∈ t ∧ home (key b) ≠ home k := by
  rw [mem_def, mem_def, occupant_erase]
  split_ifs with hi <;> simp [hi]

/-- Freeing the cell of a value held removes that value only. -/
theorem mem_erase_of_mem {t : DirectMapped home key} {a b : α} (ha : a ∈ t) :
    b ∈ t.erase (key a) ↔ b ∈ t ∧ b ≠ a := by
  rw [mem_erase]
  refine and_congr_right fun hb => not_congr ⟨fun h => eq_of_home hb ha h, ?_⟩
  rintro rfl
  rfl

end Update

section Count

variable [Fintype ι]

/-- The number of occupied cells. -/
def card (t : DirectMapped home key) : ℕ :=
  (Finset.univ.filter fun i => (t.cells i).isSome).card

/-- The values held. -/
def values (t : DirectMapped home key) : Multiset α :=
  ∑ i, ((t.cells i).toList : Multiset α)

/-- A table holds one element for each slot at most. -/
theorem card_le (t : DirectMapped home key) : t.card ≤ Fintype.card ι :=
  Finset.card_filter_le _ _

theorem card_values (t : DirectMapped home key) : Multiset.card t.values = t.card := by
  rw [values, Multiset.card_sum, card, Finset.card_filter]
  refine Finset.sum_congr rfl fun i _ => ?_
  cases t.cells i <;> simp

theorem mem_values {t : DirectMapped home key} {a : α} : a ∈ t.values ↔ a ∈ t := by
  rw [values, Multiset.mem_sum, mem_iff_cells]
  simp [eq_comm]

@[simp] theorem values_empty : (empty : DirectMapped home key).values = 0 := by
  simp [values, empty]

@[simp] theorem card_empty : (empty : DirectMapped home key).card = 0 := by
  simp [card, empty]

theorem card_eq_zero_iff {t : DirectMapped home key} : t.card = 0 ↔ ∀ a, a ∉ t := by
  rw [← card_values, Multiset.card_eq_zero, Multiset.eq_zero_iff_forall_notMem]
  simp only [mem_values]

theorem values_eq_zero_iff {t : DirectMapped home key} : t.values = 0 ↔ t.card = 0 := by
  rw [← card_values, Multiset.card_eq_zero]

variable [DecidableEq ι]

/-- What a slot held is exchanged for what is put into it. -/
theorem values_update (t : ι → Option α) (i : ι) (o : Option α) :
    ∑ j, ((Function.update t i o j).toList : Multiset α) + ((t i).toList : Multiset α) =
      ∑ j, ((t j).toList : Multiset α) + (o.toList : Multiset α) := by
  rw [← Finset.add_sum_erase _ _ (Finset.mem_univ i),
    ← Finset.add_sum_erase _ (fun j => ((t j).toList : Multiset α)) (Finset.mem_univ i)]
  have hrest : ∑ j ∈ Finset.univ.erase i, ((Function.update t i o j).toList : Multiset α) =
      ∑ j ∈ Finset.univ.erase i, ((t j).toList : Multiset α) := by
    refine Finset.sum_congr rfl fun j hj => ?_
    rw [Function.update_of_ne (Finset.ne_of_mem_erase hj)]
  rw [hrest, Function.update_self, add_comm (o.toList : Multiset α), add_right_comm,
    add_comm _ ((t i).toList : Multiset α)]

/-- Inserting into a free cell adds the value. -/
theorem values_insert {t : DirectMapped home key} {a : α} (h : t.occupant (key a) = none) :
    (t.insert a).values = a ::ₘ t.values := by
  have hu := values_update t.cells (home (key a)) (some a)
  rw [occupant] at h
  rw [h] at hu
  simp only [Option.toList_none, Option.toList_some, Multiset.coe_nil, add_zero,
    Multiset.coe_singleton] at hu
  rw [values, insert, hu, values, add_comm, Multiset.singleton_add]

/-- Freeing the cell of a value held removes the value. -/
theorem values_erase {t : DirectMapped home key} {a : α} (h : a ∈ t) :
    t.values = a ::ₘ (t.erase (key a)).values := by
  have hu := values_update t.cells (home (key a)) none
  rw [mem_def, occupant] at h
  rw [h] at hu
  simp only [Option.toList_none, Option.toList_some, Multiset.coe_nil, add_zero,
    Multiset.coe_singleton] at hu
  rw [values, ← hu, values, erase, add_comm, Multiset.singleton_add]

theorem card_insert {t : DirectMapped home key} {a : α} (h : t.occupant (key a) = none) :
    (t.insert a).card = t.card + 1 := by
  rw [← card_values, ← card_values, values_insert h, Multiset.card_cons]

theorem card_erase {t : DirectMapped home key} {a : α} (h : a ∈ t) :
    (t.erase (key a)).card + 1 = t.card := by
  rw [← card_values, ← card_values, values_erase h, Multiset.card_cons]

end Count

/-! ## The least key -/

section Minimum

variable {n : ℕ} {home : κ → Fin n} {key : α → κ} [LinearOrder κ]

/-- Scan the cells in order, keeping the least key met; `top` if there is none. -/
def minimum (t : DirectMapped home key) (top : κ) : κ :=
  (List.finRange n).foldl
    (fun least i =>
      match t.cells i with
      | some a => min least (key a)
      | none => least) top

theorem foldl_minimum_le (cells : Fin n → Option α) (key : α → κ) :
    ∀ (l : List (Fin n)) (top : κ),
      let r := l.foldl (fun least i =>
        match cells i with
        | some a => min least (key a)
        | none => least) top
      r ≤ top ∧ ∀ i ∈ l, ∀ a, cells i = some a → r ≤ key a
  | [], top => by simp
  | i :: l, top => by
    simp only [List.foldl_cons]
    cases hi : cells i with
    | none =>
      obtain ⟨h1, h2⟩ := foldl_minimum_le cells key l top
      refine ⟨h1, fun j hj a ha => ?_⟩
      rcases List.mem_cons.1 hj with rfl | hj
      · rw [hi] at ha
        cases ha
      · exact h2 j hj a ha
    | some b =>
      obtain ⟨h1, h2⟩ := foldl_minimum_le cells key l (min top (key b))
      refine ⟨h1.trans (min_le_left _ _), fun j hj a ha => ?_⟩
      rcases List.mem_cons.1 hj with rfl | hj
      · rw [hi] at ha
        cases ha
        exact h1.trans (min_le_right _ _)
      · exact h2 j hj a ha

theorem foldl_minimum_mem (cells : Fin n → Option α) (key : α → κ) :
    ∀ (l : List (Fin n)) (top : κ),
      let r := l.foldl (fun least i =>
        match cells i with
        | some a => min least (key a)
        | none => least) top
      r = top ∨ ∃ i a, cells i = some a ∧ key a = r
  | [], top => by simp
  | i :: l, top => by
    simp only [List.foldl_cons]
    cases hi : cells i with
    | none => exact foldl_minimum_mem cells key l top
    | some b =>
      rcases foldl_minimum_mem cells key l (min top (key b)) with h | h
      · rcases min_choice top (key b) with hm | hm
        · exact Or.inl (h.trans hm)
        · exact Or.inr ⟨i, b, hi, (h.trans hm).symm⟩
      · exact Or.inr h

/-- No key held is below the minimum. -/
theorem minimum_le {t : DirectMapped home key} {a : α} (h : a ∈ t) (top : κ) :
    t.minimum top ≤ key a :=
  (foldl_minimum_le t.cells key (List.finRange n) top).2 _ (List.mem_finRange _) a h

theorem minimum_le_top (t : DirectMapped home key) (top : κ) : t.minimum top ≤ top :=
  (foldl_minimum_le t.cells key (List.finRange n) top).1

/-- The minimum of a table that holds a key below `top` is the key of a value held. -/
theorem exists_minimum {t : DirectMapped home key} {a : α} (h : a ∈ t) {top : κ}
    (htop : key a < top) : ∃ b ∈ t, key b = t.minimum top := by
  rcases foldl_minimum_mem t.cells key (List.finRange n) top with hr | ⟨i, b, hb, hk⟩
  · exact absurd (minimum_le h top) (not_le.2 (htop.trans_le (ge_of_eq hr)))
  · exact ⟨b, mem_iff_cells.2 ⟨i, hb⟩, hk⟩

end Minimum

end DirectMapped

end L2Flow
