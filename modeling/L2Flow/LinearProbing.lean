import Mathlib.Data.Fintype.Card
import Mathlib.Data.Finset.Card
import Mathlib.Data.List.Nodup
import Mathlib.Logic.Function.Iterate

/-!
# Linear probing

An open-addressing table over a dense array of keys : each cell is empty or holds the
index of a key, a key is looked for from its home cell onwards, cell by cell around
the table, and is absent when an empty cell comes first. `walk` is that search.

`Chained` is what insertions keep : every key is reached from its home through occupied
cells, no cell holds an index twice. With fewer keys than cells the search for a key
held finds its index (`walk_found`), the search for any other key ends at the empty cell
where it belongs (`walk_vacant`), and putting it there keeps the table chained
(`Chained.put`). Nothing is assumed of the home function.
-/

namespace L2Flow

namespace LinearProbing

variable {m : ℕ} {κ : Type*}

/-- What a search ends at. -/
inductive Probe (m : ℕ) where
  | found (index : ℕ)
  | vacant (slot : Fin m)
  | exhausted
  deriving DecidableEq, Repr

/-- At most `fuel` probes from `slot` : stop at an empty cell or at an index that `hit`
accepts. -/
def walk (next : Fin m → Fin m) (cells : Fin m → Option ℕ) (hit : ℕ → Bool) :
    ℕ → Fin m → Probe m
  | 0, _ => .exhausted
  | fuel + 1, slot =>
    match cells slot with
    | none => .vacant slot
    | some index => if hit index then .found index else walk next cells hit fuel (next slot)

variable {next : Fin m → Fin m} {cells : Fin m → Option ℕ} {hit : ℕ → Bool}

theorem walk_none {slot : Fin m} (h : cells slot = none) (fuel : ℕ) :
    walk next cells hit (fuel + 1) slot = .vacant slot := by
  simp [walk, h]

theorem walk_hit {slot : Fin m} {i : ℕ} (h : cells slot = some i) (hi : hit i = true)
    (fuel : ℕ) : walk next cells hit (fuel + 1) slot = .found i := by
  simp [walk, h, hi]

theorem walk_miss {slot : Fin m} {i : ℕ} (h : cells slot = some i) (hi : hit i = false)
    (fuel : ℕ) :
    walk next cells hit (fuel + 1) slot = walk next cells hit fuel (next slot) := by
  simp [walk, h, hi]

/-- A search that neither hits nor meets an empty cell goes on to the bound. -/
theorem walk_cases (next : Fin m → Fin m) (cells : Fin m → Option ℕ) (hit : ℕ → Bool) :
    ∀ (fuel : ℕ) (slot : Fin m),
      (∃ d < fuel, (∀ e < d, ∃ i, cells (next^[e] slot) = some i ∧ hit i = false) ∧
        ((cells (next^[d] slot) = none ∧
            walk next cells hit fuel slot = .vacant (next^[d] slot)) ∨
          ∃ i, cells (next^[d] slot) = some i ∧ hit i = true ∧
            walk next cells hit fuel slot = .found i)) ∨
      ((∀ e < fuel, ∃ i, cells (next^[e] slot) = some i ∧ hit i = false) ∧
        walk next cells hit fuel slot = .exhausted)
  | 0, slot => Or.inr ⟨fun e he => by omega, rfl⟩
  | fuel + 1, slot => by
    cases hc : cells slot with
    | none =>
      exact Or.inl ⟨0, by omega, fun e he => by omega, Or.inl ⟨hc, walk_none hc fuel⟩⟩
    | some i =>
      cases hh : hit i with
      | true =>
        exact Or.inl ⟨0, by omega, fun e he => by omega, Or.inr ⟨i, hc, hh, walk_hit hc hh fuel⟩⟩
      | false =>
        have hshift : ∀ d, (∀ e < d, ∃ i, cells (next^[e] (next slot)) = some i ∧
            hit i = false) → ∀ e < d + 1, ∃ i, cells (next^[e] slot) = some i ∧ hit i = false := by
          intro d h e he
          cases e with
          | zero => exact ⟨i, hc, hh⟩
          | succ e =>
            rw [Function.iterate_succ_apply]
            exact h e (by omega)
        rw [walk_miss hc hh]
        rcases walk_cases next cells hit fuel (next slot) with ⟨d, hd, hpre, hend⟩ | ⟨hall, hw⟩
        · refine Or.inl ⟨d + 1, by omega, hshift d hpre, ?_⟩
          rw [Function.iterate_succ_apply]
          exact hend
        · exact Or.inr ⟨hshift fuel hall, hw⟩

/-! ## The invariant of insertions -/

/-- The test the search for a key applies to an index. -/
def isKey [DecidableEq κ] (keys : List κ) (key : κ) (index : ℕ) : Bool :=
  keys[index]? = some key

/-- Every key is reached from its home through occupied cells, and the cells hold
each index at most once and only indices of keys. -/
structure Chained (next : Fin m → Fin m) (home : κ → Fin m) (cells : Fin m → Option ℕ)
    (keys : List κ) : Prop where
  reached : ∀ i (hi : i < keys.length), ∃ d < m, cells (next^[d] (home keys[i])) = some i ∧
    ∀ e < d, ∃ j, cells (next^[e] (home keys[i])) = some j
  bounded : ∀ slot i, cells slot = some i → i < keys.length
  injective : ∀ slot slot' i, cells slot = some i → cells slot' = some i → slot = slot'
  nodup : keys.Nodup

namespace Chained

variable {home : κ → Fin m} {keys : List κ}

theorem nil (next : Fin m → Fin m) (home : κ → Fin m) :
    Chained next home (fun _ => none) [] where
  reached i hi := by simp at hi
  bounded slot i h := by simp at h
  injective slot slot' i h := by simp at h
  nodup := List.nodup_nil

/-- No more cells are occupied than there are keys. -/
theorem exists_vacant (h : Chained next home cells keys) (hlt : keys.length < m) :
    ∃ slot, cells slot = none := by
  by_contra hall
  push Not at hall
  have hsome : ∀ slot, ∃ i, cells slot = some i := fun slot =>
    Option.ne_none_iff_exists'.1 (hall slot)
  choose f hf using hsome
  have hinj : Function.Injective fun slot => (⟨f slot, h.bounded slot _ (hf slot)⟩ :
      Fin keys.length) := by
    intro a b hab
    have hval : f a = f b := by simpa using hab
    exact h.injective a b (f a) (hf a) (hval ▸ hf b)
  have := Fintype.card_le_of_injective _ hinj
  simp only [Fintype.card_fin] at this
  omega

section Search

variable [DecidableEq κ]

/-- The search for a key held finds its index. -/
theorem walk_found (h : Chained next home cells keys) {i : ℕ} (hi : i < keys.length) :
    walk next cells (isKey keys keys[i]) m (home keys[i]) = .found i := by
  obtain ⟨d, hd, hcell, hpre⟩ := h.reached i hi
  have huniq : ∀ j, isKey keys keys[i] j = true → j = i := by
    intro j hj
    simp only [isKey, decide_eq_true_eq] at hj
    obtain ⟨hj', hkey⟩ := List.getElem?_eq_some_iff.1 hj
    exact (h.nodup.getElem_inj_iff).1 hkey
  have hself : isKey keys keys[i] i = true := by simp [isKey, hi]
  rcases walk_cases next cells (isKey keys keys[i]) m (home keys[i]) with
    ⟨e, he, hbefore, ⟨hnone, -⟩ | ⟨j, hj, hhit, hw⟩⟩ | ⟨hall, -⟩
  · -- an empty cell cannot come before the key, and nothing lets the search pass the key
    rcases lt_trichotomy e d with hed | rfl | hde
    · obtain ⟨j, hj⟩ := hpre e hed
      rw [hj] at hnone
      cases hnone
    · rw [hcell] at hnone
      cases hnone
    · obtain ⟨j, hj, hf⟩ := hbefore d hde
      rw [hcell] at hj
      cases hj
      rw [hself] at hf
      cases hf
  · rw [hw, huniq j hhit]
  · obtain ⟨j, hj, hf⟩ := hall d hd
    rw [hcell] at hj
    cases hj
    rw [hself] at hf
    cases hf

/-- The search for a key not held ends at an empty cell, through occupied cells. -/
theorem walk_vacant (h : Chained next home cells keys)
    (hcycle : ∀ slot target : Fin m, ∃ d < m, next^[d] slot = target) (hlt : keys.length < m)
    {key : κ} (hkey : key ∉ keys) :
    ∃ d < m, cells (next^[d] (home key)) = none ∧
      (∀ e < d, ∃ i, cells (next^[e] (home key)) = some i) ∧
      walk next cells (isKey keys key) m (home key) = .vacant (next^[d] (home key)) := by
  have hmiss : ∀ j, isKey keys key j = false := by
    intro j
    simp only [isKey, decide_eq_false_iff_not]
    intro hj
    exact hkey (List.mem_of_getElem? hj)
  rcases walk_cases next cells (isKey keys key) m (home key) with
    ⟨d, hd, hbefore, ⟨hnone, hw⟩ | ⟨j, hj, hhit, hw⟩⟩ | ⟨hall, -⟩
  · exact ⟨d, hd, hnone, fun e he => (hbefore e he).imp fun i hi => hi.1, hw⟩
  · rw [hmiss j] at hhit
    cases hhit
  · obtain ⟨target, ht⟩ := h.exists_vacant hlt
    obtain ⟨d, hd, rfl⟩ := hcycle (home key) target
    obtain ⟨i, hi, -⟩ := hall d hd
    rw [ht] at hi
    cases hi

end Search

/-- Putting a new key's index where the search for it ended keeps the table chained. -/
theorem put (h : Chained next home cells keys) {key : κ} (hkey : key ∉ keys) {d : ℕ} (hd : d < m)
    (hnone : cells (next^[d] (home key)) = none)
    (hbefore : ∀ e < d, ∃ i, cells (next^[e] (home key)) = some i) :
    Chained next home (Function.update cells (next^[d] (home key)) (some keys.length))
      (keys ++ [key]) where
  reached i hi := by
    rw [List.length_append, List.length_singleton] at hi
    rcases Nat.lt_or_ge i keys.length with hlt | hge
    · rw [List.getElem_append_left hlt]
      obtain ⟨d', hd', hcell, hpre⟩ := h.reached i hlt
      have hkeep : ∀ slot j, cells slot = some j →
          Function.update cells (next^[d] (home key)) (some keys.length) slot = some j := by
        intro slot j hj
        rw [Function.update_of_ne, hj]
        rintro rfl
        rw [hnone] at hj
        cases hj
      exact ⟨d', hd', hkeep _ _ hcell, fun e he => (hpre e he).imp fun j hj => hkeep _ _ hj⟩
    · obtain rfl : i = keys.length := by omega
      rw [List.getElem_append_right (le_refl _)]
      simp only [Nat.sub_self, List.getElem_cons_zero]
      refine ⟨d, hd, by simp, fun e he => ?_⟩
      obtain ⟨j, hj⟩ := hbefore e he
      refine ⟨j, ?_⟩
      rw [Function.update_of_ne, hj]
      intro heq
      rw [heq, hnone] at hj
      cases hj
  bounded slot i hi := by
    rw [List.length_append, List.length_singleton]
    rw [Function.update_apply] at hi
    split_ifs at hi
    · cases hi
      omega
    · have := h.bounded slot i hi
      omega
  injective slot slot' i hi hi' := by
    rw [Function.update_apply] at hi hi'
    split_ifs at hi hi' with h1 h2
    · rw [h1, h2]
    · cases hi
      exact absurd (h.bounded _ _ hi') (lt_irrefl _)
    · cases hi'
      exact absurd (h.bounded _ _ hi) (lt_irrefl _)
    · exact h.injective slot slot' i hi hi'
  nodup := by
    rw [List.nodup_append]
    refine ⟨h.nodup, List.nodup_singleton key, ?_⟩
    intro a ha b hb
    rw [List.mem_singleton.1 hb]
    rintro rfl
    exact hkey ha

end Chained

/-! ## Going around the table -/

theorem iterate_val {next : Fin m → Fin m} (hnext : ∀ s, (next s : ℕ) = (s + 1) % m)
    (slot : Fin m) (d : ℕ) : (next^[d] slot : ℕ) = (slot + d) % m := by
  induction d with
  | zero => simp [Nat.mod_eq_of_lt slot.isLt]
  | succ d ih =>
    rw [Function.iterate_succ_apply', hnext, ih, Nat.mod_add_mod, Nat.add_assoc]

/-- Fewer than `count` places on from a cursor around a circle of `count`, every place is met. -/
theorem exists_add_mod_eq (cursor : ℕ) {target count : ℕ} (h : target < count) :
    ∃ d < count, (cursor + d) % count = target := by
  have hpos : 0 < count := Nat.zero_lt_of_lt h
  have hcursor : cursor % count < count := Nat.mod_lt cursor hpos
  refine ⟨(target + (count - cursor % count)) % count, Nat.mod_lt _ hpos, ?_⟩
  have hsum : cursor + (target + (count - cursor % count)) =
      target + count * (cursor / count + 1) := by
    have hdiv := Nat.div_add_mod cursor count
    rw [Nat.mul_add, Nat.mul_one]
    omega
  rw [Nat.add_mod_mod, hsum, Nat.add_mul_mod_self_left, Nat.mod_eq_of_lt h]

/-- Cell by cell around the table, every cell is met. -/
theorem exists_iterate_eq {next : Fin m → Fin m} (hnext : ∀ s, (next s : ℕ) = (s + 1) % m)
    (slot target : Fin m) : ∃ d < m, next^[d] slot = target := by
  obtain ⟨d, hd, hplace⟩ := exists_add_mod_eq slot target.isLt
  refine ⟨d, hd, Fin.ext ?_⟩
  rw [iterate_val hnext, hplace]

end LinearProbing

end L2Flow
