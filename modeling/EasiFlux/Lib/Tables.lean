import Mathlib.Data.List.AList

/-!
# Tables

A map with finitely many keys is an `AList`. `retain` keeps the entries that pass a test,
as the retain of a map in a program does; it and an insertion are described by what a lookup
finds afterwards, and by how many entries there can be.
-/

namespace AList

variable {α : Type*} {β : α → Type*}

/-- The entries that pass the test. -/
def retain (s : AList β) (p : ∀ a, β a → Bool) : AList β :=
  ⟨s.entries.filter fun e => p e.1 e.2, s.nodupKeys.sublist List.filter_sublist⟩

/-- How many entries there are. -/
def size (s : AList β) : ℕ := s.entries.length

variable {s : AList β} {p : ∀ a, β a → Bool} {a b : α} {v : β a} {w : β b}

@[simp] theorem size_empty : (∅ : AList β).size = 0 := rfl

theorem size_retain_le : (s.retain p).size ≤ s.size := List.length_filter_le _ _

variable [DecidableEq α]

/-- What is found after a `retain` is what was there and passes. -/
theorem lookup_retain : (s.retain p).lookup a = (s.lookup a).filter (p a) := by
  apply Option.ext
  intro v
  calc (s.retain p).lookup a = some v
      ↔ ⟨a, v⟩ ∈ (s.retain p).entries := mem_lookup_iff
    _ ↔ ⟨a, v⟩ ∈ s.entries ∧ p a v = true := List.mem_filter
    _ ↔ s.lookup a = some v ∧ p a v = true := and_congr_left' mem_lookup_iff.symm
    _ ↔ (s.lookup a).filter (p a) = some v := Option.filter_eq_some_iff.symm

theorem lookup_retain_eq_some : (s.retain p).lookup a = some v ↔ s.lookup a = some v ∧ p a v = true := by
  rw [lookup_retain, Option.filter_eq_some_iff]

theorem size_insert_le : (s.insert a v).size ≤ s.size + 1 := by
  show (s.insert a v).entries.length ≤ _
  rw [entries_insert, List.length_cons]
  exact Nat.succ_le_succ (List.Sublist.length_le (List.kerase_sublist a s.entries))

/-- An insertion under a key that is there replaces its value. -/
theorem size_insert_of_mem (h : a ∈ s) : (s.insert a v).size = s.size := by
  have hsize : ∀ t : AList β, t.size = t.keys.length := fun t => (List.length_map ..).symm
  rw [hsize, hsize, keys_insert, List.length_cons, List.length_erase_of_mem (mem_keys.1 h)]
  exact Nat.succ_pred_eq_of_pos (List.length_pos_of_mem (mem_keys.1 h))

theorem size_erase_le : (s.erase a).size ≤ s.size := (List.kerase_sublist a s.entries).length_le

end AList

/-! ## Tables with values of one type -/

/-- A map of finitely many keys. -/
abbrev Table (κ β : Type) := AList fun _ : κ => β

namespace Table

variable {κ β : Type} [DecidableEq κ] {s : Table κ β} {k j : κ} {v w : β}

theorem lookup_insert_eq_some :
    (s.insert k v).lookup j = some w ↔ k = j ∧ v = w ∨ k ≠ j ∧ s.lookup j = some w := by
  by_cases h : k = j
  · subst h
    rw [AList.lookup_insert]
    simp
  · rw [AList.lookup_insert_ne (Ne.symm h)]
    simp [h]

theorem lookup_erase_eq_some : (s.erase k).lookup j = some w ↔ k ≠ j ∧ s.lookup j = some w := by
  by_cases h : k = j
  · subst h
    rw [AList.lookup_erase]
    simp
  · rw [AList.lookup_erase_ne (Ne.symm h)]
    simp [h]

end Table
