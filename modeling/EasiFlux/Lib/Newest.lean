import Mathlib.Order.Compare
import Mathlib.Data.Finset.Card
import Mathlib.Data.Set.Card
import Mathlib.Tactic
import Std.Data.ExtTreeMap

/-!
# The newest entries of an ordered map

A bounded series keeps its newest entries: `crop n m` removes the oldest key until at
most `n` are left. What is kept is above what is not (`lt_of_not_mem_crop`), so it
depends on the keys alone (`mem_crop_congr`). `newest` says the same of a function:
the keys with fewer than `n` above them (`crop_newest`).

`crop_over`: entries written over a map whose newest entries, with them, fit in a
map of at most `n` entries show through the crop, and crop nothing.
-/

namespace Newest

open Std (ExtTreeMap)

variable {α β : Type} [LinearOrder α]

/-- An ordered map (`BTreeMap`). -/
abbrev OrdMap (α β : Type) [LinearOrder α] := ExtTreeMap α β compare

/-- So maps can be compared. -/
instance lawfulEqOrd : Std.LawfulEqOrd α where
  eq_of_compare h := compare_eq_iff_eq.1 h

variable {m : OrdMap α β} {n : ℕ} {k : α} {v : β}

theorem mem_iff_get : k ∈ m ↔ ∃ v, m[k]? = some v := by
  rw [ExtTreeMap.mem_iff_isSome_getElem?, Option.isSome_iff_exists]

theorem get_eq_none : m[k]? = none ↔ k ∉ m := by
  rw [ExtTreeMap.mem_iff_isSome_getElem?, Bool.not_eq_true, Option.isSome_eq_false_iff, Option.isNone_iff_eq_none]

theorem mem_of_get (h : m[k]? = some v) : k ∈ m := mem_iff_get.2 ⟨v, h⟩

theorem get_insert (m : OrdMap α β) (k j : α) (v : β) : (m.insert k v)[j]? = if k = j then some v else m[j]? := by
  rw [ExtTreeMap.getElem?_insert]
  simp only [compare_eq_iff_eq]

theorem get_erase (m : OrdMap α β) (k j : α) : (m.erase k)[j]? = if k = j then none else m[j]? := by
  rw [ExtTreeMap.getElem?_erase]
  simp only [compare_eq_iff_eq]

theorem get_filter (m : OrdMap α β) (p : β → Bool) (k : α) :
    (m.filter fun _ v => p v)[k]? = m[k]?.filter p := by
  rw [ExtTreeMap.getElem?_filter]
  cases m[k]? with
  | none => rfl
  | some v => simp [Option.pfilter, Option.filter]

/-! ## The keys as a set -/

/-- The keys of a map. -/
def keySet (m : OrdMap α β) : Finset α := m.keys.toFinset

@[simp] theorem mem_keySet : k ∈ keySet m ↔ k ∈ m := by
  rw [keySet, List.mem_toFinset, ExtTreeMap.mem_keys]

@[simp] theorem card_keySet (m : OrdMap α β) : (keySet m).card = m.size := by
  have hnodup : m.keys.Nodup := (ExtTreeMap.distinct_keys (t := m)).imp fun h e => h (compare_eq_iff_eq.2 e)
  rw [keySet, List.toFinset_card_of_nodup hnodup, ExtTreeMap.length_keys]

theorem size_le_of_subset {m' : OrdMap α β} (h : ∀ k ∈ m, k ∈ m') : m.size ≤ m'.size := by
  rw [← card_keySet m, ← card_keySet m']
  exact Finset.card_le_card fun k hk => mem_keySet.2 (h k (mem_keySet.1 hk))

/-- A map with no more keys than one it contains has the same keys. -/
theorem mem_of_size_le {m' : OrdMap α β} (h : ∀ k ∈ m, k ∈ m') (hs : m'.size ≤ m.size) (hk : k ∈ m') : k ∈ m := by
  have he : keySet m = keySet m' := Finset.eq_of_subset_of_card_le (fun k hk => mem_keySet.2 (h k (mem_keySet.1 hk)))
    (by rw [card_keySet, card_keySet]; exact hs)
  exact mem_keySet.1 (he ▸ mem_keySet.2 hk)

/-! ## Cropping -/

/-- The map without its oldest key. -/
def dropOldest (m : OrdMap α β) : OrdMap α β :=
  match m.minKey? with
  | some k => m.erase k
  | none => m

/-- The newest `n` entries: the oldest goes as long as there are more. -/
def crop (n : ℕ) (m : OrdMap α β) : OrdMap α β := dropOldest^[m.size - n] m

theorem get_dropOldest (m : OrdMap α β) (k : α) :
    (dropOldest m)[k]? = if m.minKey? = some k then none else m[k]? := by
  unfold dropOldest
  split
  · rename_i j hj
    simp only [get_erase, hj, Option.some.injEq]
  · rename_i hn
    simp [hn]

theorem size_dropOldest (m : OrdMap α β) : (dropOldest m).size = m.size - 1 := by
  unfold dropOldest
  split
  · rename_i j hj
    rw [ExtTreeMap.size_erase, if_pos]
    exact ExtTreeMap.contains_minKey? hj
  · rename_i hn
    rw [ExtTreeMap.minKey?_eq_none_iff] at hn
    subst hn
    rfl

theorem get_of_iterate (i : ℕ) (h : (dropOldest^[i] m)[k]? = some v) : m[k]? = some v := by
  induction i generalizing m with
  | zero => exact h
  | succ i ih =>
    have hd := ih h
    rw [get_dropOldest] at hd
    split at hd
    · cases hd
    · exact hd

theorem size_iterate (i : ℕ) (m : OrdMap α β) : (dropOldest^[i] m).size = m.size - i := by
  induction i generalizing m with
  | zero => rfl
  | succ i ih => rw [Function.iterate_succ_apply, ih, size_dropOldest]; omega

theorem lt_of_iterate (i : ℕ) {j : α} (hk : m[k]? = some v) (hn : k ∉ dropOldest^[i] m) (hj : j ∈ dropOldest^[i] m) : k < j := by
  induction i generalizing m with
  | zero => exact absurd (mem_of_get hk) hn
  | succ i ih =>
    rw [Function.iterate_succ_apply] at hn hj
    by_cases hmin : m.minKey? = some k
    · -- the oldest is below every key that is left
      obtain ⟨w, hw⟩ := mem_iff_get.1 hj
      have hw' := get_of_iterate i hw
      rw [get_dropOldest] at hw'
      split at hw'
      · cases hw'
      · rename_i hne
        have hle := (ExtTreeMap.minKey?_eq_some_iff_mem_and_forall.1 hmin).2 j (mem_of_get hw')
        exact lt_of_le_of_ne (compare_le_iff_le.1 (Ordering.isLE_iff_ne_gt.1 hle)) fun e => hne (e ▸ hmin)
    · refine ih ?_ hn hj
      rw [get_dropOldest, if_neg hmin]
      exact hk

theorem get_of_crop (h : (crop n m)[k]? = some v) : m[k]? = some v := get_of_iterate _ h

theorem mem_of_mem_crop (h : k ∈ crop n m) : k ∈ m := by
  obtain ⟨v, hv⟩ := mem_iff_get.1 h
  exact mem_of_get (get_of_crop hv)

/-- An entry that is kept is kept as it is. -/
theorem get_crop (h : k ∈ crop n m) : (crop n m)[k]? = m[k]? := by
  obtain ⟨v, hv⟩ := mem_iff_get.1 h
  rw [hv, get_of_crop hv]

theorem size_crop (n : ℕ) (m : OrdMap α β) : (crop n m).size = min m.size n := by
  rw [crop, size_iterate]; omega

theorem size_crop_le (n : ℕ) (m : OrdMap α β) : (crop n m).size ≤ n := by
  rw [size_crop]; exact min_le_right _ _

theorem crop_of_size_le (h : m.size ≤ n) : crop n m = m := by
  rw [crop, Nat.sub_eq_zero_of_le h]; rfl

/-- What is not kept is older than everything that is. -/
theorem lt_of_not_mem_crop {j : α} (hk : k ∈ m) (hn : k ∉ crop n m) (hj : j ∈ crop n m) : k < j := by
  obtain ⟨v, hv⟩ := mem_iff_get.1 hk
  exact lt_of_iterate _ hv hn hj

/-- A key with few newer ones is kept. -/
theorem mem_crop_of_card_lt {S : Finset α} (hk : k ∈ m) (hS : ∀ j ∈ m, k < j → j ∈ S) (hc : S.card < min m.size n) : k ∈ crop n m := by
  by_contra hn
  have hsub : keySet (crop n m) ⊆ S := fun j hj =>
    hS j (mem_of_mem_crop (mem_keySet.1 hj)) (lt_of_not_mem_crop hk hn (mem_keySet.1 hj))
  have hcard := Finset.card_le_card hsub
  rw [card_keySet, size_crop] at hcard
  omega

/-- The keys above `k`. -/
def above (m : OrdMap α β) (k : α) : Finset α := (keySet m).filter (k < ·)

theorem mem_crop_iff : k ∈ crop n m ↔ k ∈ m ∧ (above m k).card < n := by
  have hself : k ∉ above m k := fun h => lt_irrefl k (Finset.mem_filter.1 h).2
  constructor
  · intro hk
    have hsub : insert k (above m k) ⊆ keySet (crop n m) := by
      intro j hj
      rcases Finset.mem_insert.1 hj with rfl | hj
      · exact mem_keySet.2 hk
      · obtain ⟨hjm, hlt⟩ := Finset.mem_filter.1 hj
        rw [mem_keySet]
        by_contra hn
        exact lt_asymm hlt (lt_of_not_mem_crop (mem_keySet.1 hjm) hn hk)
    have hcard := Finset.card_le_card hsub
    rw [Finset.card_insert_of_notMem hself, card_keySet] at hcard
    have hle := size_crop_le n m
    exact ⟨mem_of_mem_crop hk, by omega⟩
  · rintro ⟨hk, hlt⟩
    have hsub : insert k (above m k) ⊆ keySet m := by
      intro j hj
      rcases Finset.mem_insert.1 hj with rfl | hj
      · exact mem_keySet.2 hk
      · exact (Finset.mem_filter.1 hj).1
    have hcard := Finset.card_le_card hsub
    rw [Finset.card_insert_of_notMem hself, card_keySet] at hcard
    have hS : ∀ j ∈ m, k < j → j ∈ above m k := fun j hj hkj => Finset.mem_filter.2 ⟨mem_keySet.2 hj, hkj⟩
    exact mem_crop_of_card_lt hk hS (lt_min (by omega) hlt)

open Classical in
/-- What `f` holds at the keys with fewer than `n` above them. -/
noncomputable def newest (n : ℕ) (f : α → Option β) (k : α) : Option β :=
  if {j | k < j ∧ (f j).isSome}.ncard < n then f k else none

theorem crop_newest (n : ℕ) (m : OrdMap α β) (k : α) : (crop n m)[k]? = newest n (fun k => m[k]?) k := by
  have hset : {j | k < j ∧ (m[j]?).isSome} = (above m k : Set α) := by
    ext j
    rw [above, Finset.mem_coe, Finset.mem_filter, mem_keySet, ExtTreeMap.mem_iff_isSome_getElem?, and_comm]
    rfl
  unfold newest
  rw [hset, Set.ncard_coe_finset]
  by_cases hk : k ∈ crop n m
  · rw [get_crop hk, if_pos (mem_crop_iff.1 hk).2]
  · rw [get_eq_none.2 hk]
    split
    · rename_i hlt
      exact (get_eq_none.2 fun hm => hk (mem_crop_iff.2 ⟨hm, hlt⟩)).symm
    · rfl

/-- Which keys are kept depends on the keys alone. -/
theorem mem_crop_congr {m' : OrdMap α β} (h : ∀ k, k ∈ m ↔ k ∈ m') (k : α) : k ∈ crop n m ↔ k ∈ crop n m' := by
  have hsize : m.size = m'.size := le_antisymm (size_le_of_subset fun k => (h k).1) (size_le_of_subset fun k => (h k).2)
  have haux : ∀ {m₁ m₂ : OrdMap α β}, (∀ k, k ∈ m₁ ↔ k ∈ m₂) → m₁.size = m₂.size → ∀ k ∈ crop n m₁, k ∈ crop n m₂ := by
    intro m₁ m₂ h₁₂ hs k hk
    by_contra hn
    -- as many are kept on both sides, so another key is kept there and not here
    have hex : ∃ j ∈ crop n m₂, j ∉ crop n m₁ := by
      by_contra hall
      push Not at hall
      exact hn (mem_of_size_le hall (by rw [size_crop, size_crop, hs]) hk)
    obtain ⟨j, hj, hjn⟩ := hex
    have h1 := lt_of_not_mem_crop ((h₁₂ k).1 (mem_of_mem_crop hk)) hn hj
    have h2 := lt_of_not_mem_crop ((h₁₂ j).2 (mem_of_mem_crop hj)) hjn hk
    exact lt_asymm h1 h2
  exact ⟨haux h hsize k, haux (fun k => (h k).symm) hsize.symm k⟩

/-! ## The newest entries of a list -/

/-- The last `n` of a strictly ascending list: those with fewer than `n` above. -/
theorem mem_drop_iff {ks : List α} (hs : ks.Pairwise (· < ·)) (n : ℕ) (k : α) :
    k ∈ ks.drop (ks.length - n) ↔ k ∈ ks ∧ (ks.filter fun j => decide (k < j)).length < n := by
  induction ks with
  | nil => simp
  | cons a t ih =>
    obtain ⟨ha, ht⟩ := List.pairwise_cons.1 hs
    by_cases hn : (a :: t).length ≤ n
    · rw [Nat.sub_eq_zero_of_le hn, List.drop_zero]
      refine ⟨fun hk => ⟨hk, ?_⟩, And.left⟩
      have hlt : ((a :: t).filter fun j => decide (k < j)).length < (a :: t).length :=
        List.length_filter_lt_length_iff_exists.2 ⟨k, hk, by simp⟩
      omega
    · rw [List.length_cons] at hn ⊢
      rw [show t.length + 1 - n = (t.length - n) + 1 by omega, List.drop_succ_cons, ih ht, List.mem_cons]
      by_cases hka : k = a
      · subst hka
        have hall : t.filter (fun j => decide (k < j)) = t := List.filter_eq_self.2 fun j hj => decide_eq_true (ha j hj)
        rw [List.filter_cons_of_neg (by simp), hall]
        exact ⟨fun h => ⟨.inr h.1, h.2⟩, fun h => absurd h.2 (by omega)⟩
      · by_cases hkt : k ∈ t
        · rw [List.filter_cons_of_neg (by simpa using le_of_lt (ha k hkt))]
          exact ⟨fun h => ⟨.inr h.1, h.2⟩, fun h => ⟨hkt, h.2⟩⟩
        · exact ⟨fun h => absurd h.1 hkt, fun h => (h.1.elim hka hkt).elim⟩

/-- The last `n` entries of a list in the order of its keys are the newest of what it holds. -/
theorem mem_drop_newest {l : List (α × β)} (hs : (l.map Prod.fst).Pairwise (· < ·)) {f : α → Option β}
    (hf : ∀ k v, f k = some v ↔ (k, v) ∈ l) (n : ℕ) (k : α) (v : β) :
    (k, v) ∈ l.drop (l.length - n) ↔ newest n f k = some v := by
  have hkey : ∀ j, (f j).isSome ↔ j ∈ l.map Prod.fst := by
    intro j
    rw [Option.isSome_iff_exists, List.mem_map]
    exact ⟨fun ⟨w, hw⟩ => ⟨(j, w), (hf j w).1 hw, rfl⟩, fun ⟨e, he, hj⟩ => ⟨e.2, (hf j e.2).2 (hj ▸ he)⟩⟩
  have hset : {j | k < j ∧ (f j).isSome} = (((l.map Prod.fst).filter fun j => decide (k < j)).toFinset : Set α) := by
    ext j
    simp only [Set.mem_ofPred_eq, hkey, List.coe_toFinset, List.mem_filter, decide_eq_true_eq, and_comm]
  have hnodup : (l.map Prod.fst).Nodup := hs.imp fun h => ne_of_lt h
  have hcard : {j | k < j ∧ (f j).isSome}.ncard = ((l.map Prod.fst).filter fun j => decide (k < j)).length := by
    rw [hset, Set.ncard_coe_finset, List.toFinset_card_of_nodup (hnodup.filter _)]
  have hdrop := mem_drop_iff hs n k
  rw [List.length_map, ← List.map_drop] at hdrop
  unfold newest
  rw [hcard]
  constructor
  · intro h
    have hlt := (hdrop.1 (List.mem_map_of_mem h)).2
    rw [if_pos hlt]
    exact (hf k v).2 (List.mem_of_mem_drop h)
  · intro h
    split at h
    · rename_i hlt
      have hmem := (hf k v).1 h
      obtain ⟨e, he, hek⟩ := List.mem_map.1 (hdrop.2 ⟨List.mem_map_of_mem hmem, hlt⟩)
      -- a key has one entry
      have hev : f k = some e.2 := (hf k e.2).2 (hek ▸ List.mem_of_mem_drop he)
      obtain rfl : v = e.2 := Option.some.inj (h.symm.trans hev)
      exact hek ▸ he
    · cases h

/-- Entries `e` written over `m`. When they and the newest entries of `m` are keys of
one map of at most `n` entries, they show through the crop and crop nothing. -/
theorem crop_over {m' s : OrdMap α β} {e : α → Option β} (hs : s.size ≤ n) (hm : ∀ k ∈ crop n m, k ∈ s)
    (he : ∀ k v, e k = some v → k ∈ s) (h' : ∀ k, m'[k]? = (e k).or m[k]?) (k : α) :
    (crop n m')[k]? = (e k).or (crop n m)[k]? := by
  have hmem : ∀ k, k ∈ m' ↔ (e k).isSome ∨ k ∈ m := by
    intro k
    rw [ExtTreeMap.mem_iff_isSome_getElem?, ExtTreeMap.mem_iff_isSome_getElem?, h']
    cases e k <;> simp
  by_cases hn : m.size ≤ n
  · -- everything fits
    rw [crop_of_size_le hn] at hm ⊢
    have hfit : m'.size ≤ n := (size_le_of_subset fun k hk => by
      rcases (hmem k).1 hk with h | h
      · obtain ⟨v, hv⟩ := Option.isSome_iff_exists.1 h
        exact he k v hv
      · exact hm k h).trans hs
    rw [crop_of_size_le hfit, h']
  · -- the map is full: the entries are among its newest keys
    have hfull : ∀ k ∈ s, k ∈ crop n m := fun k hk => mem_of_size_le hm (by rw [size_crop]; omega) hk
    have hkeys : ∀ k, k ∈ m' ↔ k ∈ m := by
      intro k
      rw [hmem]
      refine ⟨fun h => h.elim (fun h => ?_) id, .inr⟩
      obtain ⟨v, hv⟩ := Option.isSome_iff_exists.1 h
      exact mem_of_mem_crop (hfull k (he k v hv))
    by_cases hk : k ∈ crop n m
    · rw [get_crop ((mem_crop_congr hkeys k).2 hk), h', get_crop hk]
    · have hek : e k = none := by
        cases hv : e k with
        | none => rfl
        | some v => exact absurd (hfull k (he k v hv)) hk
      rw [get_eq_none.2 (mt (mem_crop_congr hkeys k).1 hk), hek, get_eq_none.2 hk]
      rfl

end Newest
