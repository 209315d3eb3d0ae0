import Mathlib.Data.List.Perm.Subperm
import Mathlib.Data.List.Perm.Basic
import Mathlib.Data.List.Nodup
import Mathlib.Data.List.Dedup

/-!
# The first of each key

A list is read once, and an entry is skipped when its key has been seen (`firsts`). Which
entries are kept depends on the order of the list:

* `Picks`: one entry for each key that occurs. `picks_firsts`: what is kept is one.
* `Picks.length_eq`: all of them have as many entries as there are keys.
* `Picks.perm`: each of them is what is kept in some order of the list.
-/

namespace Firsts

variable {α κ : Type*} {key : α → κ} {seen : List κ} {xs ys ps rest : List α} {x : α}

/-- The entries whose key has not been seen before. -/
def firsts [DecidableEq κ] (key : α → κ) (seen : List κ) : List α → List α
  | [] => []
  | x :: xs => if key x ∈ seen then firsts key seen xs else x :: firsts key (key x :: seen) xs

/-- One entry for each key. -/
structure Picks (key : α → κ) (xs ps : List α) : Prop where
  subset : ps ⊆ xs
  nodup : (ps.map key).Nodup
  covers : ∀ x ∈ xs, key x ∈ ps.map key

/-- Different keys are on different entries. -/
theorem nodup_of_keys (h : (ps.map key).Nodup) : ps.Nodup := List.Nodup.of_map key h

/-- The entries of `ps` can be the first ones. -/
theorem exists_front (hnodup : ps.Nodup) (hsub : ps ⊆ xs) : ∃ rest, (ps ++ rest).Perm xs := by
  obtain ⟨front, hperm, hfront⟩ := List.Nodup.subperm hnodup hsub
  obtain ⟨rest, hrest⟩ := hfront.exists_perm_append
  exact ⟨rest, ((hperm.symm.append_right rest).trans hrest.symm)⟩

theorem Picks.congr (h : Picks key xs ps) (hperm : xs.Perm ys) : Picks key ys ps where
  subset := List.Subset.trans h.subset hperm.subset
  nodup := h.nodup
  covers x hx := h.covers x (hperm.symm.subset hx)

/-- Entries whose keys are their own are all picked. -/
theorem Picks.perm_dedup [DecidableEq α] (h : Picks key xs ps)
    (hinj : ∀ x ∈ xs, ∀ y ∈ xs, key x = key y → x = y) : ps.Perm xs.dedup := by
  rw [List.perm_ext_iff_of_nodup (nodup_of_keys h.nodup) (List.nodup_dedup _)]
  intro x
  rw [List.mem_dedup]
  constructor
  · exact fun hx => h.subset hx
  · intro hx
    obtain ⟨y, hy, hkey⟩ := List.mem_map.1 (h.covers x hx)
    have hyx : y = x := hinj y (h.subset hy) x hx hkey
    exact hyx ▸ hy

/-- There are no more keys than entries. -/
theorem Picks.subperm_dedup [DecidableEq α] (h : Picks key xs ps) : ps.Subperm xs.dedup := by
  apply List.Nodup.subperm (nodup_of_keys h.nodup)
  intro x hx
  exact List.mem_dedup.2 (h.subset hx)

/-- With as many keys as entries no two entries share one. -/
theorem Picks.injective [DecidableEq α] (h : Picks key xs ps) (hlen : xs.dedup.length ≤ ps.length) :
    ∀ x ∈ xs, ∀ y ∈ xs, key x = key y → x = y := by
  have hperm : ps.Perm xs.dedup := h.subperm_dedup.perm_of_length_le hlen
  have hnodup : (xs.dedup.map key).Nodup := (hperm.map key).nodup_iff.1 h.nodup
  intro x hx y hy hkey
  exact List.inj_on_of_nodup_map hnodup (List.mem_dedup.2 hx) (List.mem_dedup.2 hy) hkey

section Reading

variable [DecidableEq κ]

theorem firsts_sublist (key : α → κ) (seen : List κ) (xs : List α) : (firsts key seen xs).Sublist xs := by
  induction xs generalizing seen with
  | nil => exact List.Sublist.slnil
  | cons x xs ih =>
    unfold firsts
    split
    · exact (ih seen).cons x
    · exact (ih _).cons_cons x

theorem key_notMem_of_mem_firsts (h : x ∈ firsts key seen xs) : key x ∉ seen := by
  induction xs generalizing seen with
  | nil => simp [firsts] at h
  | cons y xs ih =>
    unfold firsts at h
    split at h
    · exact ih h
    · rename_i hy
      rcases List.mem_cons.1 h with rfl | h
      · exact hy
      · intro hx
        exact ih h (List.mem_cons_of_mem _ hx)

theorem firsts_nodup (key : α → κ) (seen : List κ) (xs : List α) : ((firsts key seen xs).map key).Nodup := by
  induction xs generalizing seen with
  | nil => exact List.nodup_nil
  | cons x xs ih =>
    unfold firsts
    split
    · exact ih seen
    · rw [List.map_cons, List.nodup_cons]
      refine ⟨?_, ih _⟩
      intro hx
      obtain ⟨y, hy, hkey⟩ := List.mem_map.1 hx
      have hnot := key_notMem_of_mem_firsts hy
      rw [hkey] at hnot
      exact hnot List.mem_cons_self

theorem firsts_covers (h : x ∈ xs) : key x ∈ seen ∨ key x ∈ (firsts key seen xs).map key := by
  induction xs generalizing seen with
  | nil => simp at h
  | cons y xs ih =>
    unfold firsts
    by_cases hy : key y ∈ seen
    · rw [if_pos hy]
      rcases List.mem_cons.1 h with rfl | h
      · exact .inl hy
      · exact ih h
    · rw [if_neg hy, List.map_cons]
      rcases List.mem_cons.1 h with rfl | h
      · exact .inr List.mem_cons_self
      · have hseen : key x ∈ key y :: seen ∨ key x ∈ (firsts key (key y :: seen) xs).map key := ih h
        rcases hseen with hx | hx
        · rcases List.mem_cons.1 hx with hx | hx
          · exact .inr (hx ▸ List.mem_cons_self)
          · exact .inl hx
        · exact .inr (List.mem_cons_of_mem _ hx)

/-- **What is kept is one entry for each key.** -/
theorem picks_firsts (key : α → κ) (xs : List α) : Picks key xs (firsts key [] xs) where
  subset := (firsts_sublist key [] xs).subset
  nodup := firsts_nodup key [] xs
  covers _ hx := (firsts_covers hx).resolve_left List.not_mem_nil

theorem firsts_of_seen (h : ∀ x ∈ xs, key x ∈ seen) : firsts key seen xs = [] := by
  induction xs with
  | nil => rfl
  | cons x xs ih =>
    unfold firsts
    rw [if_pos (h x List.mem_cons_self)]
    exact ih fun y hy => h y (List.mem_cons_of_mem _ hy)

/-- Entries with keys of their own are kept; what follows is read with their keys seen. -/
theorem firsts_append (hnodup : (ps.map key).Nodup) (hnew : ∀ x ∈ ps, key x ∉ seen) :
    firsts key seen (ps ++ rest) = ps ++ firsts key ((ps.map key).reverse ++ seen) rest := by
  induction ps generalizing seen with
  | nil => rfl
  | cons x ps ih =>
    rw [List.map_cons, List.nodup_cons] at hnodup
    have htail : ∀ y ∈ ps, key y ∉ key x :: seen := by
      intro y hy
      rw [List.mem_cons, not_or]
      refine ⟨?_, hnew y (List.mem_cons_of_mem _ hy)⟩
      intro heq
      exact hnodup.1 (heq ▸ List.mem_map_of_mem hy)
    rw [List.cons_append, firsts, if_neg (hnew x List.mem_cons_self), ih hnodup.2 htail]
    simp only [List.map_cons, List.reverse_cons, List.append_assoc, List.cons_append, List.nil_append]

/-- **Every choice of one entry for each key is what is kept in some order.** -/
theorem Picks.perm (h : Picks key xs ps) : ∃ ys, ys.Perm xs ∧ firsts key [] ys = ps := by
  obtain ⟨rest, hperm⟩ := exists_front (nodup_of_keys h.nodup) h.subset
  refine ⟨ps ++ rest, hperm, ?_⟩
  rw [firsts_append h.nodup fun x _ => List.not_mem_nil, List.append_nil]
  have hrest : ∀ x ∈ rest, key x ∈ (ps.map key).reverse := by
    intro x hx
    rw [List.mem_reverse]
    exact h.covers x (hperm.subset (List.mem_append_right ps hx))
  rw [firsts_of_seen hrest, List.append_nil]

/-- All choices are equally long. -/
theorem Picks.length_eq (h : Picks key xs ps) : ps.length = (xs.map key).dedup.length := by
  have hkeys : ps.length = (ps.map key).length := (List.length_map key).symm
  rw [hkeys]
  apply List.Perm.length_eq
  rw [List.perm_ext_iff_of_nodup h.nodup (List.nodup_dedup _)]
  intro k
  rw [List.mem_dedup]
  constructor
  · intro hk
    obtain ⟨x, hx, rfl⟩ := List.mem_map.1 hk
    exact List.mem_map_of_mem (h.subset hx)
  · intro hk
    obtain ⟨x, hx, rfl⟩ := List.mem_map.1 hk
    exact h.covers x hx

end Reading

end Firsts
