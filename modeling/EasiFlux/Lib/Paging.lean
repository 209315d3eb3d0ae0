import EasiFlux.Lib.SortOn

/-!
# Pages

A list is read page by page, in the order of a key: each page but the first one takes up behind
the last key of the page before. Between two pages the list may change. What is listed is
in the order of the keys (`Walk.ascending`), and a key that was there at each page is listed
(`Walk.listed`).
-/

namespace Paging

open SortOn

variable {α κ : Type*} [LinearOrder κ]

/-- What lies behind a key, in order. -/
def behind (key : α → κ) (after : Option κ) (l : List α) : List α :=
  sortOn key (l.filter fun a => after.all fun k => k < key a)

/-- One page: the list at that time, and what is listed of it. -/
structure Visit (α : Type*) where
  present : List α
  page : List α

/-- A walk to the last page, from behind a key. -/
inductive Walk (key : α → κ) : Option κ → List (Visit α) → Prop
  | last {after : Option κ} {l : List α} : Walk key after [⟨l, behind key after l⟩]
  | more {after : Option κ} {l : List α} {limit : ℕ} {a : α} {visits : List (Visit α)}
      (hlast : ((behind key after l).take limit).getLast? = some a) (hwalk : Walk key (some (key a)) visits) :
      Walk key after (⟨l, (behind key after l).take limit⟩ :: visits)

variable {key : α → κ} {after : Option κ} {l : List α} {a : α} {k : κ} {visits : List (Visit α)}

@[simp] theorem mem_behind : a ∈ behind key after l ↔ a ∈ l ∧ ∀ k ∈ after, k < key a := by
  rw [behind, mem_sortOn, List.mem_filter]
  cases after <;> simp

theorem behind_none : behind key none l = sortOn key l := congrArg (sortOn key) (List.filter_eq_self.2 fun _ _ => rfl)

theorem pairwise_behind (h : (l.map key).Nodup) : (behind key after l).Pairwise fun a b => key a < key b := by
  have hnodup : ((behind key after l).map key).Nodup :=
    ((perm_sortOn key _).map key).nodup_iff.2 (h.sublist (List.filter_sublist.map key))
  have hle := pairwise_sortOn key (l.filter fun a => after.all fun k => k < key a)
  exact (hle.and (List.pairwise_map.1 hnodup)).imp fun h => lt_of_le_of_ne h.1 h.2

theorem length_behind_lt (ha : a ∈ behind key after l) : (behind key (some (key a)) l).length < (behind key after l).length := by
  have hrest : (l.filter fun b => (some (key a)).all fun k => k < key b) =
      (l.filter fun b => after.all fun k => k < key b).filter fun b => key a < key b := by
    rw [List.filter_filter]
    refine List.filter_congr fun b _ => ?_
    cases after with
    | none => exact (Bool.and_true _).symm
    | some k =>
      have hk := (mem_behind.1 ha).2 k rfl
      by_cases hb : key a < key b
      · simp [hb, hk.trans hb]
      · simp [hb]
  rw [behind, behind, (perm_sortOn key _).length_eq, (perm_sortOn key _).length_eq, hrest, List.length_filter_lt_length_iff_exists]
  exact ⟨a, mem_sortOn.1 ha, by simp⟩

/-- Nothing on a page is behind its last element. -/
theorem le_last (h : (l.map key).Nodup) {limit : ℕ} (hlast : ((behind key after l).take limit).getLast? = some a) {b : α}
    (hb : b ∈ (behind key after l).take limit) : key b ≤ key a := by
  have hpage : ((behind key after l).take limit).Pairwise fun a b => key a < key b :=
    (pairwise_behind h).sublist (List.take_sublist limit _)
  obtain ⟨others, hothers⟩ := List.getLast?_eq_some_iff.1 hlast
  rw [hothers, List.pairwise_append] at hpage
  rw [hothers] at hb
  rcases List.mem_append.1 hb with hb | hb
  · exact (hpage.2.2 b hb a (List.mem_singleton_self a)).le
  · rw [List.mem_singleton.1 hb]

/-- What is not on a page is behind it. -/
theorem page_or_behind (h : (l.map key).Nodup) {limit : ℕ} (hlast : ((behind key after l).take limit).getLast? = some a) {b : α}
    (hb : b ∈ behind key after l) : b ∈ (behind key after l).take limit ∨ key a < key b := by
  have hsplit := List.take_append_drop limit (behind key after l)
  have hpairwise : (behind key after l).Pairwise fun a b => key a < key b := pairwise_behind h
  rw [← hsplit, List.pairwise_append] at hpairwise
  rw [← hsplit] at hb
  exact (List.mem_append.1 hb).imp_right fun hb => hpairwise.2.2 a (List.mem_of_getLast? hlast) b hb

namespace Walk

/-- What is listed was there, behind the key. -/
theorem present (h : Walk key after visits) : ∀ v ∈ visits, ∀ a ∈ v.page, a ∈ v.present ∧ ∀ k ∈ after, k < key a := by
  induction h with
  | last =>
    intro v hv a ha
    rw [List.mem_singleton.1 hv] at ha ⊢
    exact mem_behind.1 ha
  | more hlast hwalk ih =>
    intro v hv a ha
    rcases List.mem_cons.1 hv with rfl | hv
    · exact mem_behind.1 (List.mem_of_mem_take ha)
    · have hend := mem_behind.1 (List.mem_of_mem_take (List.mem_of_getLast? hlast))
      obtain ⟨hmem, hbehind⟩ := ih v hv a ha
      exact ⟨hmem, fun k hk => (hend.2 k hk).trans (hbehind _ rfl)⟩

/-- The pages one after the other are in the order of the keys, so that nothing is listed twice. -/
theorem ascending (h : Walk key after visits) (hnodup : ∀ v ∈ visits, (v.present.map key).Nodup) :
    (visits.flatMap (·.page)).Pairwise fun a b => key a < key b := by
  induction h with
  | last =>
    rw [List.flatMap_singleton]
    exact pairwise_behind (hnodup _ (List.mem_singleton_self _))
  | @more after l limit a visits hlast hwalk ih =>
    have hhead := hnodup _ List.mem_cons_self
    rw [List.flatMap_cons, List.pairwise_append]
    refine ⟨(pairwise_behind hhead).sublist (List.take_sublist _ _), ih fun v hv => hnodup v (List.mem_cons_of_mem _ hv), ?_⟩
    intro b hb c hc
    obtain ⟨v, hv, hcv⟩ := List.mem_flatMap.1 hc
    have hbehind := (hwalk.present v hv c hcv).2 _ rfl
    exact (le_last hhead hlast hb).trans_lt hbehind

/-- A key that was there at each page is on one of them. -/
theorem listed (h : Walk key after visits) (hnodup : ∀ v ∈ visits, (v.present.map key).Nodup)
    (hpresent : ∀ v ∈ visits, k ∈ v.present.map key) (hafter : ∀ k' ∈ after, k' < k) :
    k ∈ (visits.flatMap (·.page)).map key := by
  induction h with
  | last =>
    obtain ⟨b, hb, rfl⟩ := List.mem_map.1 (hpresent _ (List.mem_singleton_self _))
    rw [List.flatMap_singleton]
    exact List.mem_map_of_mem (mem_behind.2 ⟨hb, hafter⟩)
  | more hlast hwalk ih =>
    rw [List.flatMap_cons, List.map_append, List.mem_append]
    obtain ⟨b, hb, rfl⟩ := List.mem_map.1 (hpresent _ List.mem_cons_self)
    rcases page_or_behind (hnodup _ List.mem_cons_self) hlast (mem_behind.2 ⟨hb, hafter⟩) with hpage | hlt
    · exact .inl (List.mem_map_of_mem hpage)
    · refine .inr (ih (fun v hv => hnodup v (List.mem_cons_of_mem _ hv)) (fun v hv => hpresent v (List.mem_cons_of_mem _ hv)) ?_)
      intro k hk
      rwa [← Option.some.inj hk]

/-- Of a list that does not change everything behind the key is listed, in order. -/
theorem eq_behind (h : Walk key after visits) (hnodup : (l.map key).Nodup) (hsame : ∀ v ∈ visits, v.present = l) :
    visits.flatMap (·.page) = behind key after l := by
  have hordered := h.ascending fun v hv => (hsame v hv).symm ▸ hnodup
  have hmem : ∀ a, a ∈ visits.flatMap (·.page) ↔ a ∈ behind key after l := by
    intro a
    rw [List.mem_flatMap, mem_behind]
    constructor
    · rintro ⟨v, hv, ha⟩
      exact hsame v hv ▸ h.present v hv a ha
    · rintro ⟨ha, hbehind⟩
      have hlisted := h.listed (fun v hv => (hsame v hv).symm ▸ hnodup)
        (fun v hv => (hsame v hv).symm ▸ List.mem_map_of_mem ha) hbehind
      obtain ⟨b, hb, hkey⟩ := List.mem_map.1 hlisted
      obtain ⟨v, hv, hbv⟩ := List.mem_flatMap.1 hb
      have hbl : b ∈ l := hsame v hv ▸ (h.present v hv b hbv).1
      exact ⟨v, hv, List.inj_on_of_nodup_map hnodup hbl ha hkey ▸ hbv⟩
  have hperm : (visits.flatMap (·.page)).Perm (behind key after l) := by
    refine (List.perm_ext_iff_of_nodup (hordered.imp fun hlt heq => hlt.ne (congrArg key heq)) ?_).2 hmem
    exact (pairwise_behind hnodup).imp fun hlt heq => hlt.ne (congrArg key heq)
  exact eq_of_perm hperm (hordered.imp le_of_lt) (pairwise_behind hnodup)

end Walk

end Paging
