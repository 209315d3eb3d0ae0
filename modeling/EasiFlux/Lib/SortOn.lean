import Mathlib.Data.List.Sort
import Mathlib.Data.Prod.Lex
import Mathlib.Tactic

/-!
# Sorting by a key

`sortOn key` is a stable sort. When the key tells the elements of a list apart, the result depends
on them alone and not on their order (`sortOn_eq_of_perm`).
-/

namespace SortOn

variable {α β κ : Type*} [LinearOrder κ] {key : α → κ} {l l' : List α}

def sortOn (key : α → κ) (l : List α) : List α := l.insertionSort fun a b => key a ≤ key b

/-- The key tells the elements apart. -/
def Separates (key : α → κ) (l : List α) : Prop := ∀ a ∈ l, ∀ b ∈ l, key a = key b → a = b

theorem perm_sortOn (key : α → κ) (l : List α) : (sortOn key l).Perm l := List.perm_insertionSort _ l

@[simp] theorem mem_sortOn {a : α} : a ∈ sortOn key l ↔ a ∈ l := (perm_sortOn key l).mem_iff

@[simp] theorem sortOn_nil : sortOn key [] = [] := rfl

theorem pairwise_sortOn (key : α → κ) (l : List α) : (sortOn key l).Pairwise fun a b => key a ≤ key b := by
  have : Std.Total fun a b : α => key a ≤ key b := ⟨fun a b => le_total (key a) (key b)⟩
  have : IsTrans α fun a b => key a ≤ key b := ⟨fun a b c => le_trans⟩
  exact List.pairwise_insertionSort _ l

/-- The same of the merge sort of the core library. -/
theorem pairwise_mergeSort (key : α → κ) (l : List α) :
    (l.mergeSort fun a b => decide (key a ≤ key b)).Pairwise fun a b => key a ≤ key b := by
  have : Std.Total fun a b : α => key a ≤ key b := ⟨fun a b => le_total (key a) (key b)⟩
  have : IsTrans α fun a b => key a ≤ key b := ⟨fun a b c => le_trans⟩
  exact List.pairwise_mergeSort' _ l

theorem mergeSort_eq_self (h : (l.map key).Pairwise (· < ·)) : (l.mergeSort fun a b => decide (key a ≤ key b)) = l := by
  apply List.mergeSort_of_pairwise
  exact (List.pairwise_map.1 h).imp fun hlt => decide_eq_true hlt.le

theorem sortOn_eq_of_perm (hs : Separates key l) (h : l.Perm l') : sortOn key l = sortOn key l' := by
  have hperm : (sortOn key l).Perm (sortOn key l') := (perm_sortOn key l).trans (h.trans (perm_sortOn key l').symm)
  refine hperm.eq_of_pairwise (fun a b ha hb hab hba => ?_) (pairwise_sortOn key l) (pairwise_sortOn key l')
  exact hs a (mem_sortOn.1 ha) b (h.mem_iff.2 (mem_sortOn.1 hb)) (le_antisymm hab hba)

/-- A list in the strict order of its keys is the only ordered one of its permutations. -/
theorem eq_of_perm (h : l.Perm l') (hl : l.Pairwise fun a b => key a ≤ key b) (hl' : l'.Pairwise fun a b => key a < key b) :
    l = l' := by
  have hle : l'.Pairwise fun a b => key a ≤ key b := hl'.imp fun h => le_of_lt h
  refine h.eq_of_pairwise (fun a b ha hb hab hba => ?_) hl hle
  have hkey : key a = key b := le_antisymm hab hba
  have hget := List.pairwise_iff_getElem.1 hl'
  obtain ⟨i, hi, rfl⟩ := List.getElem_of_mem (h.mem_iff.1 ha)
  obtain ⟨j, hj, rfl⟩ := List.getElem_of_mem hb
  rcases lt_trichotomy i j with hij | hij | hij
  · exact absurd hkey (hget i j hi hj hij).ne
  · subst hij
    rfl
  · exact absurd hkey (hget j i hj hi hij).ne'

omit [LinearOrder κ] in
theorem Separates.sublist (hs : Separates key l) (h : l'.Sublist l) : Separates key l' := fun a ha b hb =>
  hs a (h.subset ha) b (h.subset hb)

omit [LinearOrder κ] in
theorem Separates.perm (hs : Separates key l) (h : l.Perm l') : Separates key l' := fun a ha b hb =>
  hs a (h.mem_iff.2 ha) b (h.mem_iff.2 hb)

theorem filter_sortOn (hs : Separates key l) (p : α → Bool) : (sortOn key l).filter p = sortOn key (l.filter p) := by
  have hperm : ((sortOn key l).filter p).Perm (sortOn key (l.filter p)) :=
    ((perm_sortOn key l).filter p).trans (perm_sortOn key (l.filter p)).symm
  refine hperm.eq_of_pairwise (fun a b ha hb hab hba => ?_) ((pairwise_sortOn key l).filter p) (pairwise_sortOn key _)
  have ha' : a ∈ l := mem_sortOn.1 (List.mem_of_mem_filter ha)
  have hb' : b ∈ l := List.mem_of_mem_filter (mem_sortOn.1 hb)
  exact hs a ha' b hb' (le_antisymm hab hba)

theorem map_sortOn (f : α → β) (key : β → κ) (l : List α) : (sortOn (fun a => key (f a)) l).map f = sortOn key (l.map f) :=
  List.map_insertionSort _ _ f l fun _ _ _ _ => Iff.rfl

theorem nodup_sortOn (key : α → κ) (h : l.Nodup) : (sortOn key l).Nodup := (perm_sortOn key l).nodup_iff.2 h

/-- The elements by their values under `f`, for some of these. -/
theorem perm_flatMap_filter {γ : Type*} [DecidableEq γ] (f : α → γ) (l : List α) {ks : List γ} (hk : ks.Nodup) :
    (ks.flatMap fun k => l.filter fun a => f a = k).Perm (l.filter fun a => f a ∈ ks) := by
  induction ks with
  | nil => simp
  | cons k ks ih =>
    obtain ⟨hnot, hnodup⟩ := List.nodup_cons.1 hk
    rw [List.flatMap_cons]
    have hsplit := List.filter_append_perm (fun a => decide (f a = k)) (l.filter fun a => f a ∈ k :: ks)
    have hfst : (l.filter fun a => f a ∈ k :: ks).filter (fun a => decide (f a = k)) = l.filter fun a => f a = k := by
      rw [List.filter_filter]
      exact List.filter_congr fun a _ => by by_cases ha : f a = k <;> simp [ha]
    have hsnd : (l.filter fun a => f a ∈ k :: ks).filter (fun a => !decide (f a = k)) = l.filter fun a => f a ∈ ks := by
      rw [List.filter_filter]
      refine List.filter_congr fun a _ => ?_
      by_cases ha : f a = k
      · simp [ha, hnot]
      · simp [ha]
    rw [hfst, hsnd] at hsplit
    exact ((ih hnodup).append_left _).trans hsplit

/-! ## The greatest -/

/-- The last one of the greatest elements. -/
def maxBy (key : α → κ) (l : List α) : Option α :=
  l.foldl (fun best a => if best.all fun b => key b ≤ key a then some a else best) none

theorem maxBy_spec (key : α → κ) (l : List α) :
    (maxBy key l = none → l = []) ∧ ∀ a, maxBy key l = some a → a ∈ l ∧ ∀ b ∈ l, key b ≤ key a := by
  unfold maxBy
  induction l using List.reverseRecOn with
  | nil => exact ⟨fun _ => rfl, nofun⟩
  | append_singleton l a ih =>
    rw [List.foldl_append, List.foldl_cons, List.foldl_nil]
    generalize hbest : List.foldl (fun best a => if best.all fun b => key b ≤ key a then some a else best) none l = best at ih
    cases best with
    | none =>
      rw [ih.1 rfl]
      refine ⟨nofun, fun b hb => ?_⟩
      obtain rfl : a = b := by simpa using hb
      exact ⟨List.mem_singleton_self _, fun c hc => by rw [List.mem_singleton.1 hc]⟩
    | some b =>
      obtain ⟨hb, hmax⟩ := ih.2 b rfl
      by_cases hle : key b ≤ key a
      · rw [if_pos (by simpa using hle)]
        refine ⟨nofun, fun c hc => ?_⟩
        obtain rfl := Option.some.inj hc
        refine ⟨by simp, fun d hd => ?_⟩
        rcases List.mem_append.1 hd with hd | hd
        · exact (hmax d hd).trans hle
        · rw [List.mem_singleton.1 hd]
      · rw [if_neg (by simpa using hle)]
        refine ⟨nofun, fun c hc => ?_⟩
        obtain rfl := Option.some.inj hc
        refine ⟨List.mem_append_left _ hb, fun d hd => ?_⟩
        rcases List.mem_append.1 hd with hd | hd
        · exact hmax d hd
        · rw [List.mem_singleton.1 hd]
          exact le_of_not_ge hle

/-- The greatest element is the last one in the order of the keys. -/
theorem maxBy_eq_getLast (hs : Separates key l) : maxBy key l = (sortOn key l).getLast? := by
  obtain ⟨hnone, hsome⟩ := maxBy_spec key l
  cases hmax : maxBy key l with
  | none => rw [hnone hmax]; rfl
  | some a =>
    obtain ⟨ha, hle⟩ := hsome a hmax
    have hne : sortOn key l ≠ [] := List.ne_nil_of_mem (mem_sortOn.2 ha)
    rw [List.getLast?_eq_some_getLast hne]
    have hlast : (sortOn key l).getLast hne ∈ l := mem_sortOn.1 (List.getLast_mem hne)
    have hsorted : ∀ b ∈ sortOn key l, key b ≤ key ((sortOn key l).getLast hne) := by
      intro b hb
      have hpair := pairwise_sortOn key l
      rw [← List.dropLast_append_getLast hne] at hb hpair
      rcases List.mem_append.1 hb with hb | hb
      · exact (List.pairwise_append.1 hpair).2.2 b hb _ (List.mem_singleton_self _)
      · rw [List.mem_singleton.1 hb]
    exact congrArg some (hs a ha _ hlast (le_antisymm (hsorted a (mem_sortOn.2 ha)) (hle _ hlast)))

/-! ## Places in a list without duplicates -/

section Places

variable [DecidableEq α] {s : List α}

omit [LinearOrder κ] in
/-- The elements of a sublist are at increasing places. -/
theorem pairwise_idxOf (hs : s.Nodup) (h : l.Sublist s) : l.Pairwise fun a b => s.idxOf a < s.idxOf b := by
  refine List.Pairwise.sublist h (List.pairwise_iff_getElem.2 fun i j hi hj hij => ?_)
  rw [hs.idxOf_getElem i hi, hs.idxOf_getElem j hj]
  exact hij

omit [LinearOrder κ] in
/-- Elements at increasing places are a sublist. -/
theorem sublist_of_pairwise_idxOf (hs : s.Nodup) (hmem : ∀ a ∈ l, a ∈ s) (h : l.Pairwise fun a b => s.idxOf a < s.idxOf b) :
    l.Sublist s := by
  have hnodup : l.Nodup := h.imp fun hlt => by
    rintro rfl
    exact lt_irrefl _ hlt
  have hperm : l.Perm (s.filter fun a => a ∈ l) := by
    refine (List.perm_ext_iff_of_nodup hnodup (hs.filter _)).2 fun a => ?_
    rw [List.mem_filter, decide_eq_true_eq]
    exact ⟨fun ha => ⟨hmem a ha, ha⟩, fun ha => ha.2⟩
  have heq := eq_of_perm hperm (h.imp fun hlt => le_of_lt hlt) (pairwise_idxOf hs List.filter_sublist)
  rw [heq]
  exact List.filter_sublist

omit [LinearOrder κ] in
/-- Moving some elements to the end changes nothing if they are the end. -/
theorem filter_append_eq_iff (hs : s.Nodup) : s.filter (fun a => a ∉ l) ++ l = s ↔ l <:+ s := by
  constructor
  · intro h
    exact ⟨_, h⟩
  · rintro ⟨t, rfl⟩
    have hdisj := (List.nodup_append'.1 hs).2.2
    rw [List.filter_append, List.filter_eq_self.2, List.filter_eq_nil_iff.2, List.append_nil]
    · intro a ha
      simpa using ha
    · intro a ha
      simpa using fun h => hdisj ha h

end Places

section Parts

variable {p : β → Bool} {g : β → List α} {ks : List β}

omit [LinearOrder κ] in
theorem filter_flatMap_sublist (p : β → Bool) (g : β → List α) (ks : List β) :
    ((ks.filter p).flatMap g).Sublist (ks.flatMap g) := (List.filter_sublist.map g).flatten

omit [LinearOrder κ] in
theorem filter_flatMap_eq_iff : (ks.filter p).flatMap g = ks.flatMap g ↔ ∀ b ∈ ks, p b = false → g b = [] := by
  induction ks with
  | nil => simp
  | cons k ks ih =>
    rw [List.forall_mem_cons, ← ih, List.flatMap_cons]
    by_cases hp : p k = true
    · rw [List.filter_cons_of_pos hp, List.flatMap_cons, List.append_cancel_left_eq]
      simp [hp]
    · rw [List.filter_cons_of_neg hp]
      constructor
      · intro h
        have hlen := (filter_flatMap_sublist p g ks).length_le
        rw [h, List.length_append] at hlen
        have hnil : g k = [] := List.length_eq_zero_iff.1 (by omega)
        rw [hnil, List.nil_append] at h
        exact ⟨fun _ => hnil, h⟩
      · rintro ⟨hnil, h⟩
        rw [h, hnil (by simpa using hp), List.nil_append]

omit [LinearOrder κ] in
/-- Of the lists of some keys, those of `p` are the end if none of another key comes after one of these. -/
theorem filter_flatMap_suffix_iff (hnodup : (ks.flatMap g).Nodup) : (ks.filter p).flatMap g <:+ ks.flatMap g ↔
    ks.Pairwise fun a b => p a = true → p b = false → g a ≠ [] → g b = [] := by
  induction ks with
  | nil => simp
  | cons k ks ih =>
    rw [List.flatMap_cons] at hnodup
    rw [List.pairwise_cons, ← ih hnodup.of_append_right, List.flatMap_cons]
    by_cases hp : p k = true
    · rw [List.filter_cons_of_pos hp, List.flatMap_cons]
      by_cases hg : g k = []
      · simp [hg]
      · obtain ⟨x, xs, hx⟩ := List.exists_cons_of_ne_nil hg
        constructor
        · rintro ⟨t, ht⟩
          -- the first element of `g k` is at no other place
          have hnil : t = [] := by
            cases t with
            | nil => rfl
            | cons y t =>
              rw [hx, List.cons_append, List.cons_append, List.cons_append, List.cons.injEq] at ht
              have hmem : x ∈ xs ++ ks.flatMap g := by simp [← ht.2]
              rw [hx, List.cons_append] at hnodup
              exact absurd hmem (List.nodup_cons.1 hnodup).1
          rw [hnil, List.nil_append, List.append_cancel_left_eq] at ht
          exact ⟨fun b hb _ hpb _ => filter_flatMap_eq_iff.1 ht b hb hpb, ht ▸ List.suffix_rfl⟩
        · rintro ⟨hall, -⟩
          have heq := filter_flatMap_eq_iff.2 fun b hb hpb => hall b hb hp hpb hg
          rw [heq]
    · rw [List.filter_cons_of_neg hp]
      constructor
      · intro h
        exact ⟨fun b _ hpk => absurd hpk hp, List.suffix_of_suffix_length_le h (List.suffix_append _ _)
          (filter_flatMap_sublist p g ks).length_le⟩
      · rintro ⟨-, h⟩
        exact h.trans (List.suffix_append _ _)

/-- In the order of the keys, what holds along the list holds of any two keys. -/
theorem pairwise_iff_of_strict {r : α → α → Prop} (hl : l.Pairwise fun a b => key a < key b) :
    l.Pairwise r ↔ ∀ a ∈ l, ∀ b ∈ l, key a < key b → r a b := by
  constructor
  · intro hr a ha b hb hlt
    obtain ⟨i, hi, rfl⟩ := List.getElem_of_mem ha
    obtain ⟨j, hj, rfl⟩ := List.getElem_of_mem hb
    have hget := List.pairwise_iff_getElem.1 hl
    rcases lt_trichotomy i j with hij | hij | hij
    · exact List.pairwise_iff_getElem.1 hr i j hi hj hij
    · subst hij
      exact absurd hlt (lt_irrefl _)
    · exact absurd (hget j i hj hi hij) hlt.asymm
  · intro h
    exact hl.imp_of_mem fun ha hb hlt => h _ ha _ hb hlt

end Parts

end SortOn
