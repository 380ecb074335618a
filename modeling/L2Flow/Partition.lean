import Mathlib.Data.List.Basic
import Mathlib.Tactic.Linarith

/-!
# Partitions by points and ranges

An interval of naturals that grows at its upper end, by one point or by one closed range
at a time. `Partition lo hi points ranges` says that `points` and `ranges`, each listed in
increasing order, partition `[lo, hi)`.
-/

namespace L2Flow

/-- `points` and `ranges`, in order, cover each position of `[lo, hi)` exactly once. -/
structure Partition (lo hi : ℕ) (points : List ℕ) (ranges : List (ℕ × ℕ)) : Prop where
  increasing : points.Pairwise (· < ·)
  ordered : ranges.Pairwise fun r r' => r.2 < r'.1
  nonempty : ∀ r ∈ ranges, r.1 ≤ r.2
  covers : ∀ n, (lo ≤ n ∧ n < hi) ↔ n ∈ points ∨ ∃ r ∈ ranges, r.1 ≤ n ∧ n ≤ r.2
  apart : ∀ n ∈ points, ∀ r ∈ ranges, ¬(r.1 ≤ n ∧ n ≤ r.2)

/-- The positions the ranges hold. -/
def rangesLength (ranges : List (ℕ × ℕ)) : ℕ :=
  (ranges.map fun r => r.2 + 1 - r.1).sum

@[simp] theorem rangesLength_nil : rangesLength [] = 0 :=
  rfl

/-- The length of one more range. -/
theorem rangesLength_snoc (ranges : List (ℕ × ℕ)) (r : ℕ × ℕ) :
    rangesLength (ranges ++ [r]) = rangesLength ranges + (r.2 + 1 - r.1) := by
  simp [rangesLength]

namespace Partition

variable {lo hi : ℕ} {points : List ℕ} {ranges : List (ℕ × ℕ)}

theorem nil (lo : ℕ) : Partition lo lo [] [] where
  increasing := List.Pairwise.nil
  ordered := List.Pairwise.nil
  nonempty r h := by cases h
  covers n := by simp
  apart n h := by cases h

theorem lt_of_mem (h : Partition lo hi points ranges) {n : ℕ} (hn : n ∈ points) : n < hi :=
  ((h.covers n).2 (Or.inl hn)).2

theorem le_of_mem (h : Partition lo hi points ranges) {n : ℕ} (hn : n ∈ points) : lo ≤ n :=
  ((h.covers n).2 (Or.inl hn)).1

theorem range_lt (h : Partition lo hi points ranges) {r : ℕ × ℕ} (hr : r ∈ ranges) : r.2 < hi :=
  ((h.covers r.2).2 (Or.inr ⟨r, hr, h.nonempty r hr, le_refl _⟩)).2

/-- No range occurs twice. -/
theorem nodup (h : Partition lo hi points ranges) : ranges.Nodup := by
  refine h.ordered.imp_of_mem fun hr _ hlt => ?_
  rintro rfl
  exact absurd (h.nonempty _ hr) (not_le.2 hlt)

/-- The interval grows by a point. -/
theorem point (h : Partition lo hi points ranges) (hle : lo ≤ hi) :
    Partition lo (hi + 1) (points ++ [hi]) ranges where
  increasing := by
    refine List.pairwise_append.2 ⟨h.increasing, List.pairwise_singleton _ _, fun n hn m hm => ?_⟩
    rw [List.mem_singleton.1 hm]
    exact h.lt_of_mem hn
  ordered := h.ordered
  nonempty := h.nonempty
  covers n := by
    rw [List.mem_append, List.mem_singleton, or_right_comm, ← h.covers n]
    omega
  apart n hn r hr := by
    rcases List.mem_append.1 hn with hn | hn
    · exact h.apart n hn r hr
    · rw [List.mem_singleton.1 hn]
      have := h.range_lt hr
      omega

/-- The interval grows by a range. -/
theorem range (h : Partition lo hi points ranges) (hle : lo ≤ hi) {next : ℕ} (hlt : hi < next) :
    Partition lo next points (ranges ++ [(hi, next - 1)]) where
  increasing := h.increasing
  ordered := by
    refine List.pairwise_append.2 ⟨h.ordered, List.pairwise_singleton _ _, fun r hr r' hr' => ?_⟩
    rw [List.mem_singleton.1 hr']
    exact h.range_lt hr
  nonempty r hr := by
    rcases List.mem_append.1 hr with hr | hr
    · exact h.nonempty r hr
    · rw [List.mem_singleton.1 hr]
      show hi ≤ next - 1
      omega
  covers n := by
    have hsplit : (∃ r ∈ ranges ++ [(hi, next - 1)], r.1 ≤ n ∧ n ≤ r.2) ↔
        (∃ r ∈ ranges, r.1 ≤ n ∧ n ≤ r.2) ∨ (hi ≤ n ∧ n ≤ next - 1) := by
      simp only [List.mem_append, List.mem_singleton, or_and_right, exists_or, exists_eq_left]
    rw [hsplit, ← or_assoc, ← h.covers n]
    omega
  apart n hn r hr := by
    rcases List.mem_append.1 hr with hr | hr
    · exact h.apart n hn r hr
    · rw [List.mem_singleton.1 hr]
      have := h.lt_of_mem hn
      intro hle'
      have : hi ≤ n := hle'.1
      omega

end Partition

end L2Flow
