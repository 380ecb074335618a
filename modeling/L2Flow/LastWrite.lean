import Mathlib.Data.List.Nodup
import Mathlib.Data.List.Perm.Basic
import Mathlib.Tactic.Common

/-!
# Last writes

A list of writes, made in order. A write has a key. Writes with different keys commute, and of two
with the same key the later one is as good as both. What the writes come to then depends only on the
last write for each key (`foldl_eq_of_lastWrite`).
-/

namespace L2Flow

namespace LastWrite

variable {κ α σ : Type*} [DecidableEq κ] {key : α → κ} {act : σ → α → σ}

/-- Writes with different keys commute, and a write undoes those with its key. -/
structure Lawful (key : α → κ) (act : σ → α → σ) : Prop where
  commute : ∀ s a b, key a ≠ key b → act (act s a) b = act (act s b) a
  absorb : ∀ s a b, key a = key b → act (act s a) b = act s b

/-- The last write for a key. -/
def lastWrite (key : α → κ) (writes : List α) (k : κ) : Option α :=
  (writes.filter fun a => key a = k).getLast?

theorem lastWrite_eq_none_iff {writes : List α} {k : κ} :
    lastWrite key writes k = none ↔ ∀ a ∈ writes, key a ≠ k := by
  rw [lastWrite, List.getLast?_eq_none_iff, List.filter_eq_nil_iff]
  exact forall₂_congr fun a _ => not_congr decide_eq_true_iff

/-- The writes that are not followed by one with their key. -/
def latest (key : α → κ) : List α → List α
  | [] => []
  | a :: writes => if ∃ b ∈ writes, key b = key a then latest key writes else a :: latest key writes

theorem latest_subset (writes : List α) : latest key writes ⊆ writes := by
  induction writes with
  | nil => exact List.Subset.refl _
  | cons a writes ih =>
    rw [latest]
    split_ifs
    · exact List.Subset.trans ih (List.subset_cons_self a writes)
    · exact List.cons_subset_cons a ih

/-- The last write for a key is among the latest, and they are all last writes. -/
theorem mem_latest_iff {writes : List α} {a : α} :
    a ∈ latest key writes ↔ lastWrite key writes (key a) = some a := by
  induction writes with
  | nil => simp [latest, lastWrite]
  | cons b writes ih =>
    have hfilter : lastWrite key (b :: writes) (key a) =
        if key b = key a then some ((lastWrite key writes (key a)).getD b)
        else lastWrite key writes (key a) := by
      rw [lastWrite, List.filter_cons]
      split_ifs with hb hb' hb'
      · rw [List.getLast?_cons]
        rfl
      · exact absurd (of_decide_eq_true hb) hb'
      · exact absurd (decide_eq_true hb') hb
      · rfl
    rw [hfilter, latest]
    split_ifs with hlater hkey hkey
    · obtain ⟨c, hc, hck⟩ := hlater
      have hne : lastWrite key writes (key a) ≠ none :=
        fun hnone => lastWrite_eq_none_iff.1 hnone c hc (hck.trans hkey)
      obtain ⟨d, hd⟩ := Option.ne_none_iff_exists'.1 hne
      rw [ih, hd, Option.getD_some]
    · exact ih
    · have hnone : lastWrite key writes (key a) = none :=
        lastWrite_eq_none_iff.2 fun c hc hck => hlater ⟨c, hc, hck.trans hkey.symm⟩
      rw [List.mem_cons, ih, hnone, Option.getD_none]
      exact ⟨fun h => h.elim (fun heq => by rw [heq]) nofun,
        fun h => Or.inl (Option.some.inj h).symm⟩
    · rw [List.mem_cons, ih]
      exact or_iff_right fun heq => hkey (heq ▸ rfl)

theorem nodup_latest (writes : List α) : ((latest key writes).map key).Nodup := by
  induction writes with
  | nil => exact List.nodup_nil
  | cons a writes ih =>
    rw [latest]
    split_ifs with hlater
    · exact ih
    · rw [List.map_cons, List.nodup_cons]
      refine ⟨fun hmem => ?_, ih⟩
      obtain ⟨b, hb, hkey⟩ := List.mem_map.1 hmem
      exact hlater ⟨b, latest_subset writes hb, hkey⟩

/-- A write that is followed by one with its key may be left out. -/
theorem foldl_skip (h : Lawful key act) {a : α} {writes : List α}
    (hlater : ∃ b ∈ writes, key b = key a) (s : σ) :
    writes.foldl act (act s a) = writes.foldl act s := by
  induction writes generalizing s with
  | nil =>
    obtain ⟨b, hb, -⟩ := hlater
    exact absurd hb List.not_mem_nil
  | cons b writes ih =>
    rw [List.foldl_cons, List.foldl_cons]
    by_cases hkey : key a = key b
    · rw [h.absorb s a b hkey]
    · rw [h.commute s a b hkey]
      refine ih ?_ (act s b)
      obtain ⟨c, hc, hck⟩ := hlater
      rcases List.mem_cons.1 hc with rfl | hc
      · exact absurd hck.symm hkey
      · exact ⟨c, hc, hck⟩

theorem foldl_latest (h : Lawful key act) (writes : List α) (s : σ) :
    (latest key writes).foldl act s = writes.foldl act s := by
  induction writes generalizing s with
  | nil => rfl
  | cons a writes ih =>
    rw [latest]
    split_ifs with hlater
    · rw [ih, List.foldl_cons, foldl_skip h hlater]
    · rw [List.foldl_cons, List.foldl_cons, ih]

/-- Only the last write for each key matters. -/
theorem foldl_eq_of_lastWrite (h : Lawful key act) {writes writes' : List α}
    (hlast : ∀ k, lastWrite key writes k = lastWrite key writes' k) (s : σ) :
    writes.foldl act s = writes'.foldl act s := by
  have hperm : (latest key writes).Perm (latest key writes') := by
    rw [List.perm_ext_iff_of_nodup (List.Nodup.of_map key (nodup_latest writes))
      (List.Nodup.of_map key (nodup_latest writes'))]
    intro a
    rw [mem_latest_iff, mem_latest_iff, hlast]
  rw [← foldl_latest h writes, ← foldl_latest h writes']
  refine hperm.foldl_eq' (fun a ha b hb t => ?_) s
  by_cases hkey : key a = key b
  · rw [List.inj_on_of_nodup_map (nodup_latest writes) ha hb hkey]
  · exact h.commute t a b hkey

end LastWrite

end L2Flow
