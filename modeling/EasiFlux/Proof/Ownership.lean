import Mathlib.Tactic
import EasiFlux.Lib.SortOn
import EasiFlux.Model.Ownership

/-!
# Reconciliation

`reconcile_loaded` walks over the entries of the index and then over the packages. What it
does with an entry depends on the entry and the scan alone (`verdict`); only whether a
change of the index is saved depends on what has happened before (`settled`). So a whole
loop is described by which entries it has settled (`Loop.run`).

* `reconcileEntry_eq`: one entry, by its verdict;
* `classes_get`: what the loop over the packages makes of the notes;
* **`reconcile_exact`**: a package is managed iff an entry of the resulting index proves it and
  no other package claims that entry; entries are restored and deleted only where the
  slots allow it; a second reconciliation finds nothing to do.
-/

namespace EasiFlux.Plugin

open Results Newest

/-! ## Valid indexes -/

/-- What `validate_for_persistence` checks. -/
structure ManagedOwnershipIndexV1.Valid (i : ManagedOwnershipIndexV1) : Prop where
  schema : i.schemaVersion = 1
  capacity : i.entries.length ≤ maxManagedOwnershipEntries
  entries : ∀ e ∈ i.entries, e.valid = true
  receipts : (i.entries.map (·.receiptId)).Pairwise (· < ·)
  slots : (i.entries.map (·.packageSlot)).Nodup
  plugins : (i.entries.map fun e => (e.pluginId, e.source)).Nodup
  removals : (i.entries.filterMap (·.removalSlot)).Nodup
  identities : (i.entries.flatMap (·.identities)).Nodup
  size : i.byteLength ≤ maxManagedOwnershipBytes

namespace ManagedOwnershipIndexV1

variable {i j : ManagedOwnershipIndexV1} {a b : List ManagedOwnershipEntryV1} {e : ManagedOwnershipEntryV1}

theorem valid_iff : i.validateForPersistence = .ok () ↔ i.Valid := by
  unfold validateForPersistence validate consistent
  simp only [bind_eq_ok, ensure_eq_ok, Bool.and_eq_true, decide_eq_true_eq, List.all_eq_true]
  constructor
  · rintro ⟨-, ⟨-, h1, -, h2, ⟨⟨⟨⟨h3, h4⟩, h5⟩, h6⟩, h7⟩, h8⟩, h9⟩
    exact ⟨h1, h2, h3, h4, h5, h6, h7, h8, h9⟩
  · rintro ⟨h1, h2, h3, h4, h5, h6, h7, h8, h9⟩
    exact ⟨(), ⟨(), h1, (), h2, ⟨⟨⟨⟨h3, h4⟩, h5⟩, h6⟩, h7⟩, h8⟩, h9⟩

/-- An index whose keys are among those of a valid one is valid if it is not longer. -/
theorem Valid.mono (h : i.Valid) (hs : j.schemaVersion = i.schemaVersion) (he : ∀ e ∈ j.entries, e.valid = true)
    (h1 : (j.entries.map (·.receiptId)).Sublist (i.entries.map (·.receiptId)))
    (h2 : (j.entries.map (·.packageSlot)).Sublist (i.entries.map (·.packageSlot)))
    (h3 : (j.entries.map fun e => (e.pluginId, e.source)).Sublist (i.entries.map fun e => (e.pluginId, e.source)))
    (h4 : (j.entries.filterMap (·.removalSlot)).Sublist (i.entries.filterMap (·.removalSlot)))
    (h5 : (j.entries.flatMap (·.identities)).Sublist (i.entries.flatMap (·.identities)))
    (hb : j.byteLength ≤ i.byteLength) : j.Valid where
  schema := hs.trans h.schema
  capacity := by
    have hlen := h1.length_le
    rw [List.length_map, List.length_map] at hlen
    exact hlen.trans h.capacity
  entries := he
  receipts := h.receipts.sublist h1
  slots := h.slots.sublist h2
  plugins := h.plugins.sublist h3
  removals := h.removals.sublist h4
  identities := h.identities.sublist h5
  size := hb.trans h.size

/-! ### Sizes -/

theorem digits_succ_le (n : ℕ) : (Nat.toDigits 10 (n + 1)).length ≤ (Nat.toDigits 10 n).length + 1 := by
  rw [Nat.length_toDigits_le_iff (by decide) (by omega)]
  have hn : n < 10 ^ (Nat.toDigits 10 n).length :=
    (Nat.length_toDigits_le_iff (by decide) Nat.length_toDigits_pos).1 le_rfl
  rw [Nat.pow_succ]
  omega

theorem byteLength_restoreManaged (h : e.removalSlot.isSome) : e.restoreManaged.byteLength + 1 ≤ e.byteLength := by
  obtain ⟨slot, hslot⟩ : ∃ slot, e.lifecycle = .removing slot := by
    unfold ManagedOwnershipEntryV1.removalSlot at h
    cases hl : e.lifecycle with
    | managed => rw [hl] at h; cases h
    | removing slot => exact ⟨slot, rfl⟩
  have h1 : "\"managed\"".utf8ByteSize = 9 := by decide
  have h2 : "\"removing\"".utf8ByteSize = 10 := by decide
  unfold ManagedOwnershipEntryV1.byteLength ManagedOwnershipEntryV1.restoreManaged
  rw [hslot]
  simp only [h1, h2]
  omega

theorem byteLength_entry_pos (e : ManagedOwnershipEntryV1) : 1 ≤ e.byteLength := by
  have h : "\x7d".utf8ByteSize = 1 := by decide
  unfold ManagedOwnershipEntryV1.byteLength
  rw [h]
  omega

/-- A shorter list of entries makes room for one more digit of the revision. -/
theorem byteLength_next_le (hs : j.schemaVersion = i.schemaVersion) (hr : j.revision ≤ i.revision + 1)
    (hl : j.entries.length ≤ i.entries.length)
    (hb : (j.entries.map (·.byteLength)).sum + 1 ≤ (i.entries.map (·.byteLength)).sum) :
    j.byteLength ≤ i.byteLength := by
  have hd : (Nat.toDigits 10 j.revision).length ≤ (Nat.toDigits 10 i.revision).length + 1 := by
    refine le_trans ?_ (digits_succ_le i.revision)
    rw [Nat.length_toDigits_le_iff (by decide) Nat.length_toDigits_pos]
    have hn : i.revision + 1 < 10 ^ (Nat.toDigits 10 (i.revision + 1)).length :=
      (Nat.length_toDigits_le_iff (by decide) Nat.length_toDigits_pos).1 le_rfl
    omega
  unfold byteLength
  rw [hs]
  omega

/-! ### One entry of a valid index -/

theorem Valid.mergeSort_eq (hi : i.Valid) : i.entries.mergeSort (fun a b => decide (a.receiptId ≤ b.receiptId)) = i.entries :=
  SortOn.mergeSort_eq_self hi.receipts

/-- What `finish_changed` makes of other entries that are valid and in order. -/
theorem finishChanged_eq {es : List ManagedOwnershipEntryV1} (hj : ({ i with entries := es } : ManagedOwnershipIndexV1).Valid)
    (hne : es ≠ i.entries) :
    finishChanged { i with entries := es } i =
      if i.revision + 1 ≤ maxRevision then .ok ⟨i.schemaVersion, i.revision + 1, es⟩ else .error .revisionExhausted := by
  have hsort : es.mergeSort (fun a b => decide (a.receiptId ≤ b.receiptId)) = es := hj.mergeSort_eq
  unfold finishChanged
  simp only [hsort]
  rw [valid_iff.2 hj, ok_bind, if_neg hne]
  unfold ensure
  split <;> rfl

variable (hi : i.Valid) (hsplit : i.entries = a ++ e :: b)

include hi

theorem Valid.eq_of_receipt {x y : ManagedOwnershipEntryV1} (hx : x ∈ i.entries) (hy : y ∈ i.entries)
    (h : x.receiptId = y.receiptId) : x = y :=
  List.inj_on_of_nodup_map (hi.receipts.imp fun h => ne_of_lt h) hx hy h

theorem Valid.eq_of_slot {x y : ManagedOwnershipEntryV1} (hx : x ∈ i.entries) (hy : y ∈ i.entries)
    (h : x.packageSlot = y.packageSlot) : x = y :=
  List.inj_on_of_nodup_map hi.slots hx hy h

theorem Valid.eq_of_plugin {x y : ManagedOwnershipEntryV1} (hx : x ∈ i.entries) (hy : y ∈ i.entries)
    (h : x.pluginId = y.pluginId) : x = y := by
  refine List.inj_on_of_nodup_map hi.plugins hx hy ?_
  -- every entry is of a local plugin, so the id alone decides
  have hs : ∀ z ∈ i.entries, z.source = .localDeclarative := fun z hz => by
    have := hi.entries z hz
    unfold ManagedOwnershipEntryV1.valid at this
    simp only [Bool.and_eq_true, decide_eq_true_eq] at this
    exact this.1
  simp only [Prod.mk.injEq]
  exact ⟨h, (hs x hx).trans (hs y hy).symm⟩

include hsplit

theorem Valid.receipt_ne {x : ManagedOwnershipEntryV1} (hx : x ∈ a ∨ x ∈ b) : x.receiptId ≠ e.receiptId := by
  have h := hi.receipts.imp fun h => ne_of_lt h
  rw [hsplit, List.map_append, List.map_cons, List.pairwise_append, List.pairwise_cons] at h
  obtain ⟨-, ⟨h1, -⟩, h2⟩ := h
  rcases hx with hx | hx
  · exact h2 _ (List.mem_map_of_mem hx) _ List.mem_cons_self
  · exact fun he => h1 _ (List.mem_map_of_mem hx) he.symm

theorem updateEntry_split (f : ManagedOwnershipEntryV1 → ManagedOwnershipEntryV1) :
    i.updateEntry e.receiptId f = { i with entries := a ++ f e :: b } := by
  unfold updateEntry
  rw [hsplit]
  congr 1
  have ha : ∀ x ∈ a, x.receiptId ≠ e.receiptId := fun x hx => hi.receipt_ne hsplit (.inl hx)
  clear hsplit
  induction a with
  | nil => simp [updateFirst]
  | cons x a ih =>
    have hx := ha x List.mem_cons_self
    simp only [List.cons_append, updateFirst, hx, decide_false, Bool.false_eq_true, if_false]
    rw [ih fun y hy => ha y (List.mem_cons_of_mem _ hy)]

theorem filter_split : (i.entries.filter fun x => decide (x.receiptId ≠ e.receiptId)) = a ++ b := by
  rw [hsplit, List.filter_append, List.filter_cons_of_neg (by simp)]
  congr 1 <;> rw [List.filter_eq_self] <;> intro x hx <;> rw [decide_eq_true_eq]
  · exact hi.receipt_ne hsplit (.inl hx)
  · exact hi.receipt_ne hsplit (.inr hx)

/-- The entry restored, under this or the next revision. -/
theorem Valid.restored (hr : e.removalSlot.isSome) {n : ℕ} (hn : n ≤ i.revision + 1) :
    (⟨i.schemaVersion, n, a ++ e.restoreManaged :: b⟩ : ManagedOwnershipIndexV1).Valid := by
  refine hi.mono rfl ?_ ?_ ?_ ?_ ?_ ?_ ?_
  · intro x hx
    rw [List.mem_append, List.mem_cons] at hx
    have hmem : ∀ x, x ∈ a ∨ x = e ∨ x ∈ b → x.valid = true := fun x hx => hi.entries x (by
      rw [hsplit, List.mem_append, List.mem_cons]; exact hx)
    rcases hx with hx | rfl | hx
    · exact hmem x (.inl hx)
    · exact hmem e (.inr (.inl rfl))
    · exact hmem x (.inr (.inr hx))
  · simp [hsplit, ManagedOwnershipEntryV1.restoreManaged]
  · simp [hsplit, ManagedOwnershipEntryV1.restoreManaged]
  · simp [hsplit, ManagedOwnershipEntryV1.restoreManaged]
  · have hnone : e.restoreManaged.removalSlot = none := rfl
    rw [hsplit, List.filterMap_append, List.filterMap_append, List.filterMap_cons_none hnone]
    exact (List.Sublist.refl _).append ((List.sublist_cons_self _ _).filterMap _)
  · simp [hsplit, ManagedOwnershipEntryV1.restoreManaged, ManagedOwnershipEntryV1.identities]
  · refine byteLength_next_le (i := i) rfl hn ?_ ?_
    · rw [hsplit]; simp
    · have := byteLength_restoreManaged hr
      rw [hsplit]
      simp only [List.map_append, List.map_cons, List.sum_append, List.sum_cons]
      omega

/-- The entry deleted, under this or the next revision. -/
theorem Valid.removed {n : ℕ} (hn : n ≤ i.revision + 1) :
    (⟨i.schemaVersion, n, a ++ b⟩ : ManagedOwnershipIndexV1).Valid := by
  have hsub : (a ++ b).Sublist i.entries := by
    rw [hsplit]
    exact (List.Sublist.refl _).append (List.sublist_cons_self _ _)
  refine hi.mono rfl ?_ (hsub.map _) (hsub.map _) (hsub.map _) (hsub.filterMap _) (hsub.flatMap _) ?_
  · intro x hx
    exact hi.entries x (hsub.subset hx)
  · refine byteLength_next_le rfl hn hsub.length_le ?_
    have := byteLength_entry_pos e
    rw [hsplit]
    simp only [List.map_append, List.map_cons, List.sum_append, List.sum_cons]
    omega

theorem restoreManaged_split (hr : e.removalSlot.isSome) :
    i.restoreManaged e.receiptId =
      if i.revision + 1 ≤ maxRevision then .ok ⟨i.schemaVersion, i.revision + 1, a ++ e.restoreManaged :: b⟩
      else .error .revisionExhausted := by
  unfold restoreManaged
  rw [updateEntry_split hi hsplit]
  refine finishChanged_eq (hi.restored hsplit hr (Nat.le_succ _)) ?_
  -- the restored entry is not the one that was there
  intro he
  rw [hsplit, List.append_cancel_left_eq, List.cons.injEq] at he
  rw [← he.1] at hr
  cases hr

theorem remove_split :
    i.remove e.receiptId =
      if i.revision + 1 ≤ maxRevision then .ok ⟨i.schemaVersion, i.revision + 1, a ++ b⟩
      else .error .revisionExhausted := by
  unfold remove
  rw [filter_split hi hsplit]
  refine finishChanged_eq (hi.removed hsplit (Nat.le_succ _)) ?_
  intro he
  have hlen := congrArg List.length (he.trans hsplit)
  simp only [List.length_append, List.length_cons] at hlen
  omega

end ManagedOwnershipIndexV1

namespace OwnershipRuntime

open ManagedOwnershipEntryV1

/-! ## Verdicts -/

/-- What the loop finds out about an entry. -/
inductive Verdict
  /-- more than one package claims the entry -/
  | crowded
  /-- its package is in its slot -/
  | proven
  /-- its package has not been moved yet -/
  | restorable
  /-- both slots are free -/
  | vacated
  /-- its package is in its removal slot -/
  | moved
  | unproven
  deriving DecidableEq

variable (o : LocalDiscoveryOutcome)

def claimants (e : ManagedOwnershipEntryV1) : List DiscoveredLocalPlugin := o.plugins.filter e.claimedBy

/-- The package in the slot of the entry -/
def source (e : ManagedOwnershipEntryV1) : Option DiscoveredLocalPlugin :=
  o.plugins.find? fun package => decide (package.locator.packageSlot = e.packageSlot)

def sourcePresent (e : ManagedOwnershipEntryV1) : Bool := (source o e).isSome || o.occupiedSlots.contains e.packageSlot

def verdict (e : ManagedOwnershipEntryV1) : Verdict :=
  if 1 < (claimants o e).length then .crowded
  else
    match e.removalSlot with
    | none => if (source o e).any e.provesManaged then .proven else .unproven
    | some slot =>
      let targetPresent := o.removals.occupiedSlots.contains slot
      if sourcePresent o e && !targetPresent && (source o e).any e.matchesPackage then .restorable
      else if !sourcePresent o e && !targetPresent then .vacated
      else if !sourcePresent o e &&
        (o.removals.observations.find? fun object => decide (object.removalSlot = slot)).any e.quarantined then .moved
      else .unproven

/-- The notes after an entry, and whether its change was saved. -/
def note (n : Notes) (e : ManagedOwnershipEntryV1) (settled : Bool) : Notes :=
  match verdict o e, settled with
  | .crowded, _ =>
    { n with
      conflicts := n.conflicts + 1
      classes := (claimants o e).foldl (fun m package => m.insert package.record.manifest.id .ownershipConflict) n.classes }
  | .proven, _ | .restorable, true | .vacated, true => n
  | .restorable, false =>
    { n with
      rollback := n.rollback + 1
      classes := match source o e with
        | some package => n.classes.insert package.record.manifest.id .removalPending
        | none => n.classes }
  | .vacated, false | .moved, _ => { n with cleanup := n.cleanup + 1 }
  | .unproven, _ => { n with conflicts := n.conflicts + 1 }

/-- What is left of an entry. -/
def fate (e : ManagedOwnershipEntryV1) (settled : Bool) : Option ManagedOwnershipEntryV1 :=
  match verdict o e, settled with
  | .restorable, true => some e.restoreManaged
  | .vacated, true => none
  | _, _ => some e

/-- The change that an entry asks for -/
def change (index : ManagedOwnershipIndexV1) (e : ManagedOwnershipEntryV1) :
    Option (Except OwnershipFailure ManagedOwnershipIndexV1) :=
  match verdict o e with
  | .restorable => some (index.restoreManaged e.receiptId)
  | .vacated => some (index.remove e.receiptId)
  | _ => none

/-- **One entry.** -/
theorem reconcileEntry_eq (w : Bool) (t : Tally) (e : ManagedOwnershipEntryV1) :
    reconcileEntry o w t e =
      match change o t.index e with
      | some next =>
        let (saved, t) := t.saveChanged w next
        { t with toNotes := note o t.toNotes e saved }
      | none => { t with toNotes := note o t.toNotes e false } := by
  unfold reconcileEntry
  -- the branches of the source are the verdicts, one by one:
  by_cases hc : 1 < (claimants o e).length
  · have hv : verdict o e = .crowded := if_pos hc
    unfold claimants at hc
    simp only [change, note, hv, hc, if_true, claimants]
  · have hv : verdict o e = _ := if_neg hc
    unfold claimants at hc
    simp only [hc, if_false]
    cases hslot : e.removalSlot with
    | none =>
      rw [hslot] at hv
      dsimp only at hv ⊢
      unfold source at hv
      split
      · rename_i h
        rw [if_pos h] at hv
        simp only [change, note, hv]
      · rename_i h
        rw [if_neg h] at hv
        simp only [change, note, hv]
    | some slot =>
      rw [hslot] at hv
      dsimp only at hv ⊢
      unfold sourcePresent source at hv
      split
      · rename_i h
        rw [if_pos h] at hv
        simp only [change, hv]
        -- a restoration that is not saved is noted at its source:
        cases t.saveChanged w (t.index.restoreManaged e.receiptId) with
        | mk saved t' =>
          cases saved with
          | true => simp only [note, hv]
          | false =>
            cases hfind : o.plugins.find? fun package => decide (package.locator.packageSlot = e.packageSlot) with
            | none => simp only [note, hv, source, hfind]
            | some package => simp only [note, hv, source, hfind]
      · rename_i h
        rw [if_neg h] at hv
        split
        · rename_i h'
          rw [if_pos h'] at hv
          simp only [change, hv]
          cases t.saveChanged w (t.index.remove e.receiptId) with
          | mk saved t' => cases saved <;> simp only [note, hv]
        · rename_i h'
          rw [if_neg h'] at hv
          split
          · rename_i h''
            rw [if_pos h''] at hv
            simp only [change, note, hv]
          · rename_i h''
            rw [if_neg h''] at hv
            simp only [change, note, hv]

/-! ### What a verdict says -/

variable {o} {e : ManagedOwnershipEntryV1} {p q : DiscoveredLocalPlugin}

/-- The slot is taken: by a package that was read, or by something else. -/
def Occupied (o : LocalDiscoveryOutcome) (slot : PackageSlot) : Prop :=
  slot ∈ o.occupiedSlots ∨ ∃ p ∈ o.plugins, p.locator.packageSlot = slot

/-- Neither slot of a removed entry is taken. -/
def Vacated (o : LocalDiscoveryOutcome) (e : ManagedOwnershipEntryV1) : Prop :=
  ∃ slot, e.lifecycle = .removing slot ∧ ¬ Occupied o e.packageSlot ∧ slot ∉ o.removals.occupiedSlots

/-- The package of a removed entry is still in its slot, and its removal slot is free. -/
def Restorable (o : LocalDiscoveryOutcome) (e : ManagedOwnershipEntryV1) : Prop :=
  ∃ slot, e.lifecycle = .removing slot ∧ slot ∉ o.removals.occupiedSlots ∧
    ∃ p ∈ o.plugins, p.locator.packageSlot = e.packageSlot ∧ e.matchesPackage p = true

theorem lifecycle_of_removalSlot {slot : RemovalSlot} (h : e.removalSlot = some slot) : e.lifecycle = .removing slot := by
  unfold removalSlot at h
  split at h
  · cases h
  · rename_i hl
    rw [hl, Option.some.inj h]

theorem source_some (h : source o e = some p) : p ∈ o.plugins ∧ p.locator.packageSlot = e.packageSlot :=
  ⟨List.mem_of_find?_eq_some h, by simpa using List.find?_some h⟩

theorem sourcePresent_iff : sourcePresent o e = true ↔ Occupied o e.packageSlot := by
  unfold sourcePresent source Occupied
  rw [Bool.or_eq_true, List.find?_isSome, List.contains_iff_mem, or_comm]
  simp only [decide_eq_true_eq]

theorem verdict_pending (h : verdict o e = .restorable ∨ verdict o e = .vacated) :
    (claimants o e).length ≤ 1 ∧ ∃ slot, e.removalSlot = some slot ∧ slot ∉ o.removals.occupiedSlots ∧
      ((verdict o e = .restorable ∧ ∃ p, source o e = some p ∧ e.matchesPackage p = true) ∨
        (verdict o e = .vacated ∧ sourcePresent o e = false)) := by
  by_cases hc : 1 < (claimants o e).length
  · have hv : verdict o e = .crowded := if_pos hc
    rw [hv] at h
    rcases h with h | h <;> cases h
  · have hv : verdict o e = _ := if_neg hc
    refine ⟨Nat.not_lt.1 hc, ?_⟩
    cases hslot : e.removalSlot with
    | none =>
      rw [hslot] at hv
      dsimp only at hv
      split at hv <;> rw [hv] at h <;> rcases h with h | h <;> cases h
    | some slot =>
      rw [hslot] at hv
      dsimp only at hv
      refine ⟨slot, rfl, ?_⟩
      split at hv
      · rename_i hr
        simp only [Bool.and_eq_true, Bool.not_eq_true', Option.any_eq_true] at hr
        obtain ⟨⟨-, ht⟩, p, hp, hm⟩ := hr
        exact ⟨by simpa using ht, .inl ⟨hv, p, hp, hm⟩⟩
      · split at hv
        · rename_i hr
          simp only [Bool.and_eq_true, Bool.not_eq_true'] at hr
          exact ⟨by simpa using hr.2, .inr ⟨hv, hr.1⟩⟩
        · split at hv <;> rw [hv] at h <;> rcases h with h | h <;> cases h

theorem restorable_of_verdict (h : verdict o e = .restorable) : Restorable o e := by
  obtain ⟨-, slot, hslot, hfree, ⟨-, p, hp, hm⟩ | ⟨hv, -⟩⟩ := verdict_pending (.inl h)
  · obtain ⟨hmem, hps⟩ := source_some hp
    exact ⟨slot, lifecycle_of_removalSlot hslot, hfree, p, hmem, hps, hm⟩
  · rw [h] at hv
    cases hv

theorem vacated_of_verdict (h : verdict o e = .vacated) : Vacated o e := by
  obtain ⟨-, slot, hslot, hfree, ⟨hv, -⟩ | ⟨-, hs⟩⟩ := verdict_pending (.inr h)
  · rw [h] at hv
    cases hv
  · refine ⟨slot, lifecycle_of_removalSlot hslot, ?_, hfree⟩
    rw [← sourcePresent_iff, hs]
    exact Bool.false_ne_true

/-- A restored entry is proven by the package that let it be restored. -/
theorem verdict_restoreManaged (h : verdict o e = .restorable) : verdict o e.restoreManaged = .proven := by
  obtain ⟨hc, slot, -, -, ⟨-, p, hp, hm⟩ | ⟨hv, -⟩⟩ := verdict_pending (.inl h)
  · have hc' : ¬ 1 < (claimants o e.restoreManaged).length := Nat.not_lt.2 hc
    have hs : source o e.restoreManaged = some p := hp
    have hnone : e.restoreManaged.removalSlot = none := rfl
    have hproves : e.restoreManaged.provesManaged p = true := hm
    unfold verdict
    rw [if_neg hc', hnone]
    simp only [hs, Option.any_some, hproves, if_true]
  · rw [h] at hv
    cases hv

/-! ## The loop -/

/-- What the loop keeps: the runtime holds the index, which is valid and the last one
committed. `a` has been walked over and `b` has not. -/
structure Loop (t : Tally) (a b : List ManagedOwnershipEntryV1) : Prop where
  valid : t.index.Valid
  runtime : t.runtime = .available t.index false
  committed : t.store.committed = t.index
  entries : t.index.entries = a ++ b

/-- The entry asks for a change of the index. -/
def Pending (o : LocalDiscoveryOutcome) (e : ManagedOwnershipEntryV1) : Prop :=
  verdict o e = .restorable ∨ verdict o e = .vacated

variable {w : Bool} {t : Tally} {a b : List ManagedOwnershipEntryV1}

theorem saveChanged_quiet {next : Except OwnershipFailure ManagedOwnershipIndexV1}
    (h : w = false ∨ ∃ x, next = .error x) : t.saveChanged w next = (false, t) := by
  unfold Tally.saveChanged
  rcases h with rfl | ⟨x, rfl⟩
  · rfl
  · cases w <;> rfl

/-- A save that is allowed: either the next index is committed, or nothing but the number of saves changes. -/
theorem saveChanged_ok (hr : t.runtime = .available t.index false) (next : ManagedOwnershipIndexV1) :
    t.saveChanged true (.ok next) =
      if (t.store.answer t.store.saves).outcome.committed then
        (true, { t with
          runtime := .available next false
          index := next
          store := ⟨t.store.answer, t.store.saves + 1, next⟩ })
      else (false, { t with store := ⟨t.store.answer, t.store.saves + 1, t.store.committed⟩ }) := by
  unfold Tally.saveChanged OwnershipRuntime.save IndexStore.save
  rw [hr]
  dsimp only
  by_cases hc : (t.store.answer t.store.saves).outcome.committed = true
  · simp only [hc, if_true]
  · simp only [hc, Bool.false_eq_true, if_false]

theorem Pending.removing (h : Pending o e) : e.removalSlot.isSome := by
  obtain ⟨-, slot, hslot, -⟩ := verdict_pending h
  rw [hslot]
  rfl

theorem change_eq_none (h : ¬ Pending o e) (i : ManagedOwnershipIndexV1) : change o i e = none := by
  unfold change
  cases hv : verdict o e with
  | restorable => exact absurd (.inl hv) h
  | vacated => exact absurd (.inr hv) h
  | crowded => rfl
  | proven => rfl
  | moved => rfl
  | unproven => rfl

theorem fate_false (e : ManagedOwnershipEntryV1) : fate o e false = some e := by
  unfold fate
  cases verdict o e <;> rfl

/-- The change of a pending entry, by the room the revision has. -/
theorem Loop.change_eq (h : Loop t a (e :: b)) (hp : Pending o e) :
    change o t.index e = some (if t.index.revision + 1 ≤ maxRevision then
      .ok ⟨t.index.schemaVersion, t.index.revision + 1, a ++ (fate o e true).toList ++ b⟩ else .error .revisionExhausted) := by
  unfold change fate
  rcases hp with hv | hv
  · rw [hv]
    dsimp only
    rw [ManagedOwnershipIndexV1.restoreManaged_split h.valid h.entries (Pending.removing (.inl hv))]
    simp
  · rw [hv]
    dsimp only
    rw [ManagedOwnershipIndexV1.remove_split h.valid h.entries]
    simp

/-- The index after a pending entry is settled. -/
theorem Loop.valid_next (h : Loop t a (e :: b)) (hp : Pending o e) :
    (⟨t.index.schemaVersion, t.index.revision + 1, a ++ (fate o e true).toList ++ b⟩ : ManagedOwnershipIndexV1).Valid := by
  unfold fate
  rcases hp with hv | hv
  · rw [hv]
    simpa using h.valid.restored h.entries (Pending.removing (.inl hv)) le_rfl
  · rw [hv]
    simpa using h.valid.removed h.entries le_rfl

/-- **An entry that cannot be settled** is only noted. -/
theorem Loop.quiet (h : Loop t a (e :: b)) (hq : w = false ∨ maxRevision ≤ t.index.revision ∨ ¬ Pending o e) :
    reconcileEntry o w t e = { t with toNotes := note o t.toNotes e false } := by
  rw [reconcileEntry_eq]
  by_cases hp : Pending o e
  · rw [h.change_eq hp]
    have hs : ∀ next, w = false ∨ (∃ x, next = Except.error x) → t.saveChanged w next = (false, t) :=
      fun _ => saveChanged_quiet
    rcases hq with hq | hq | hq
    · simp only [hs _ (.inl hq)]
    · rw [if_neg (by omega)]
      simp only [hs _ (.inr ⟨_, rfl⟩)]
    · exact absurd hp hq
  · rw [change_eq_none hp]

/-- **One step of the loop**: the entry is settled or not. With working saves only the
end of the revisions keeps a pending entry from being settled. -/
theorem Loop.step (h : Loop t a (e :: b)) (o : LocalDiscoveryOutcome) (w : Bool) :
    ∃ settled, (reconcileEntry o w t e).toNotes = note o t.toNotes e settled ∧
      Loop (reconcileEntry o w t e) (a ++ (fate o e settled).toList) b ∧
      (reconcileEntry o w t e).store.answer = t.store.answer ∧
      t.store.saves ≤ (reconcileEntry o w t e).store.saves ∧
      t.index.revision ≤ (reconcileEntry o w t e).index.revision ∧
      ((w = true ∧ ∀ n, (t.store.answer n).outcome.committed = true) → Pending o e → settled = false →
        maxRevision ≤ (reconcileEntry o w t e).index.revision) := by
  have hkept : ∀ n, Loop { t with toNotes := note o t.toNotes e false, store := ⟨t.store.answer, n, t.store.committed⟩ }
      (a ++ (fate o e false).toList) b := fun n => by
    rw [fate_false]
    exact ⟨h.valid, h.runtime, h.committed, by rw [h.entries]; simp⟩
  by_cases hq : w = false ∨ maxRevision ≤ t.index.revision ∨ ¬ Pending o e
  · rw [h.quiet hq]
    refine ⟨false, rfl, hkept t.store.saves, rfl, le_rfl, le_rfl, ?_⟩
    rintro ⟨hw, -⟩ hp -
    rcases hq with hq | hq | hq
    · rw [hw] at hq
      cases hq
    · exact hq
    · exact absurd hp hq
  · -- the change is made; its save decides
    push Not at hq
    obtain ⟨hw, hrev, hp⟩ := hq
    obtain rfl : w = true := Bool.eq_true_of_not_eq_false hw
    rw [reconcileEntry_eq, h.change_eq hp, if_pos (by omega)]
    dsimp only
    rw [saveChanged_ok h.runtime]
    by_cases hc : (t.store.answer t.store.saves).outcome.committed = true
    · rw [if_pos hc]
      exact ⟨true, rfl, ⟨h.valid_next hp, rfl, rfl, rfl⟩, rfl, Nat.le_succ _, Nat.le_succ _, fun _ _ hf => nomatch hf⟩
    · rw [if_neg hc]
      exact ⟨false, rfl, hkept _, rfl, Nat.le_succ _, le_rfl, fun hall => absurd (hall.2 _) hc⟩

/-- **The whole loop**, described by the entries it has settled. -/
theorem Loop.run (o : LocalDiscoveryOutcome) (w : Bool) (h : Loop t a b) :
    ∃ s : ManagedOwnershipEntryV1 → Bool,
      (b.foldl (reconcileEntry o w) t).toNotes = b.foldl (fun n e => note o n e (s e)) t.toNotes ∧
      Loop (b.foldl (reconcileEntry o w) t) (a ++ b.filterMap fun e => fate o e (s e)) [] ∧
      (b.foldl (reconcileEntry o w) t).store.answer = t.store.answer ∧
      t.store.saves ≤ (b.foldl (reconcileEntry o w) t).store.saves ∧
      t.index.revision ≤ (b.foldl (reconcileEntry o w) t).index.revision ∧
      ((w = true ∧ ∀ n, (t.store.answer n).outcome.committed = true) → ∀ e ∈ b, Pending o e → s e = false →
        maxRevision ≤ (b.foldl (reconcileEntry o w) t).index.revision) := by
  induction b generalizing t a with
  | nil => exact ⟨fun _ => false, rfl, by simpa using h, rfl, le_rfl, le_rfl, fun _ _ he => nomatch he⟩
  | cons e b ih =>
    obtain ⟨settled, hn, hl, ha, hsv, hrev, hex⟩ := h.step o w
    obtain ⟨s, hn', hl', ha', hsv', hrev', hex'⟩ := ih hl
    rw [ha] at ha' hex'
    have hne : ∀ x ∈ b, x ≠ e := fun x hx he => h.valid.receipt_ne h.entries (.inr hx) (by rw [he])
    -- the entry is not met again, so its answer can be added to those of the rest
    have hs : ∀ x ∈ b, (if x = e then settled else s x) = s x := fun x hx => if_neg (hne x hx)
    refine ⟨fun x => if x = e then settled else s x, ?_, ?_, ha', hsv.trans hsv', hrev.trans hrev', ?_⟩
    · simp only [List.foldl_cons, if_true]
      rw [hn', hn]
      exact List.foldl_ext _ _ _ fun n x hx => by rw [hs x hx]
    · have hf : b.filterMap (fun x => fate o x (if x = e then settled else s x)) = b.filterMap fun x => fate o x (s x) :=
        List.filterMap_congr fun x hx => by rw [hs x hx]
      have hcons : (e :: b).filterMap (fun x => fate o x (if x = e then settled else s x)) =
          (fate o e settled).toList ++ b.filterMap fun x => fate o x (s x) := by
        rw [← hf, List.filterMap_cons, if_pos rfl]
        cases fate o e settled <;> rfl
      rw [hcons, ← List.append_assoc]
      exact hl'
    · intro hall x hx hp
      rcases List.mem_cons.1 hx with rfl | hx
      · intro hset
        exact (hex hall hp ((if_pos rfl).symm.trans hset)).trans hrev'
      · intro hset
        exact hex' hall x hx hp ((hs x hx).symm.trans hset)

/-- A loop that settles nothing only makes its notes. -/
theorem Loop.quiet_run (h : Loop t a b) (hq : ∀ e ∈ b, w = false ∨ maxRevision ≤ t.index.revision ∨ ¬ Pending o e) :
    b.foldl (reconcileEntry o w) t = { t with toNotes := b.foldl (fun n e => note o n e false) t.toNotes } := by
  induction b generalizing t a with
  | nil => rfl
  | cons e b ih =>
    rw [List.foldl_cons, List.foldl_cons, h.quiet (hq e List.mem_cons_self)]
    have hl : Loop { t with toNotes := note o t.toNotes e false } (a ++ [e]) b :=
      ⟨h.valid, h.runtime, h.committed, by rw [h.entries]; simp⟩
    exact ih hl fun x hx => hq x (List.mem_cons_of_mem _ hx)

/-- What is left of the entries gives the notes that the entries gave. -/
theorem foldl_note_fate (s : ManagedOwnershipEntryV1 → Bool) (n : Notes) :
    (b.filterMap fun e => fate o e (s e)).foldl (fun n e => note o n e false) n =
      b.foldl (fun n e => note o n e (s e)) n := by
  rw [List.foldl_filterMap]
  refine List.foldl_ext _ _ _ fun n e _ => ?_
  cases hs : s e with
  | false => rw [fate_false]
  | true =>
    cases hv : verdict o e with
    | restorable => simp only [fate, note, hv, verdict_restoreManaged hv]
    | vacated => simp only [fate, note, hv]
    | crowded => simp only [fate, note, hv]
    | proven => simp only [fate, note, hv]
    | moved => simp only [fate, note, hv]
    | unproven => simp only [fate, note, hv]

/-! ## The classes -/

/-- The loop has put a class on the plugin. -/
def Marked (o : LocalDiscoveryOutcome) (k : PluginId) (e : ManagedOwnershipEntryV1) (settled : Bool) : Prop :=
  (verdict o e = .crowded ∧ ∃ p ∈ claimants o e, p.record.manifest.id = k) ∨
  (verdict o e = .restorable ∧ settled = false ∧ ∃ p, source o e = some p ∧ p.record.manifest.id = k)

theorem foldl_insert_get {ps : List DiscoveredLocalPlugin} {m : Classes} {c : PluginManagement} {k : PluginId} :
    (ps.foldl (fun m package => m.insert package.record.manifest.id c) m)[k]? =
      if ∃ p ∈ ps, p.record.manifest.id = k then some c else m[k]? := by
  induction ps generalizing m with
  | nil => simp
  | cons p ps ih =>
    rw [List.foldl_cons, ih, get_insert]
    by_cases hk : p.record.manifest.id = k
    · simp [hk]
    · simp [hk]

theorem note_classes (n : Notes) (e : ManagedOwnershipEntryV1) (settled : Bool) (k : PluginId) :
    (¬ Marked o k e settled ∧ (note o n e settled).classes[k]? = n.classes[k]?) ∨
    (Marked o k e settled ∧ (note o n e settled).classes[k]? ≠ none ∧
      (note o n e settled).classes[k]? ≠ some .managed) := by
  unfold Marked note
  cases hv : verdict o e with
  -- a crowded entry marks its claimants, one that is not settled its source:
  | crowded =>
    dsimp only
    rw [foldl_insert_get]
    by_cases hk : ∃ p ∈ claimants o e, p.record.manifest.id = k
    · right
      rw [if_pos hk]
      exact ⟨.inl ⟨rfl, hk⟩, nofun, nofun⟩
    · left
      rw [if_neg hk]
      refine ⟨?_, rfl⟩
      rintro (⟨-, h⟩ | ⟨h, -⟩)
      · exact hk h
      · cases h
  | restorable =>
    cases settled with
    | true =>
      left
      refine ⟨?_, rfl⟩
      rintro (⟨h, -⟩ | ⟨-, h, -⟩) <;> cases h
    | false =>
      cases hs : source o e with
      | none =>
        left
        refine ⟨?_, rfl⟩
        rintro (⟨h, -⟩ | ⟨-, -, p, h, -⟩) <;> cases h
      | some p =>
        dsimp only
        rw [get_insert]
        by_cases hk : p.record.manifest.id = k
        · right
          rw [if_pos hk]
          exact ⟨.inr ⟨rfl, rfl, p, rfl, hk⟩, nofun, nofun⟩
        · left
          rw [if_neg hk]
          refine ⟨?_, rfl⟩
          rintro (⟨h, -⟩ | ⟨-, -, q, h, hq⟩)
          · cases h
          · exact hk (Option.some.inj h ▸ hq)
  | vacated => cases settled <;> simp
  | proven => simp
  | moved => simp
  | unproven => simp

theorem foldl_note_classes (s : ManagedOwnershipEntryV1 → Bool) (k : PluginId) (n : Notes)
    (hn : n.classes[k]? ≠ some .managed) :
    (b.foldl (fun n e => note o n e (s e)) n).classes[k]? ≠ some .managed ∧
      ((b.foldl (fun n e => note o n e (s e)) n).classes[k]? = none ↔
        n.classes[k]? = none ∧ ∀ e ∈ b, ¬ Marked o k e (s e)) := by
  induction b generalizing n with
  | nil => simpa using hn
  | cons e b ih =>
    rw [List.foldl_cons]
    rcases note_classes n e (s e) k with ⟨hm, he⟩ | ⟨hm, hnone, hman⟩
    · obtain ⟨h1, h2⟩ := ih (note o n e (s e)) (by rw [he]; exact hn)
      refine ⟨h1, h2.trans ?_⟩
      rw [he, List.forall_mem_cons]
      exact ⟨fun h => ⟨h.1, hm, h.2⟩, fun h => ⟨h.1, h.2.2⟩⟩
    · obtain ⟨h1, h2⟩ := ih (note o n e (s e)) hman
      refine ⟨h1, h2.trans ?_⟩
      rw [List.forall_mem_cons]
      exact ⟨fun h => absurd h.1 hnone, fun h => absurd hm h.2.1⟩

theorem classify_congr {i : ManagedOwnershipIndexV1} {m m' : Classes}
    (h : m[p.record.manifest.id]? = m'[p.record.manifest.id]?) : classify i m p = classify i m' p := by
  unfold classify
  rw [h]

theorem foldl_classes_of_not_mem {f : Classes → DiscoveredLocalPlugin → PluginManagement} {ps : List DiscoveredLocalPlugin}
    {m : Classes} {k : PluginId} (h : k ∉ ps.map fun p => p.record.manifest.id) :
    (ps.foldl (fun m p => m.insert p.record.manifest.id (f m p)) m)[k]? = m[k]? := by
  induction ps generalizing m with
  | nil => rfl
  | cons q ps ih =>
    rw [List.map_cons, List.mem_cons, not_or] at h
    rw [List.foldl_cons, ih h.2, get_insert, if_neg (Ne.symm h.1)]

/-- **A loop over the packages** whose ids differ gives each the class that it would get
alone. -/
theorem classes_get {f : Classes → DiscoveredLocalPlugin → PluginManagement} {ps : List DiscoveredLocalPlugin} {m : Classes}
    (hf : ∀ (m m' : Classes) (p : DiscoveredLocalPlugin),
      m[p.record.manifest.id]? = m'[p.record.manifest.id]? → f m p = f m' p)
    (hids : (ps.map fun p => p.record.manifest.id).Nodup) (hp : p ∈ ps) :
    (ps.foldl (fun m p => m.insert p.record.manifest.id (f m p)) m)[p.record.manifest.id]? = some (f m p) := by
  induction ps generalizing m with
  | nil => cases hp
  | cons q ps ih =>
    rw [List.map_cons, List.nodup_cons] at hids
    rw [List.foldl_cons]
    rcases List.mem_cons.1 hp with rfl | hp
    · rw [foldl_classes_of_not_mem hids.1, get_insert, if_pos rfl]
    · have hne : q.record.manifest.id ≠ p.record.manifest.id := fun he =>
        hids.1 (he ▸ List.mem_map_of_mem hp)
      rw [ih hids.2 hp]
      congr 1
      apply hf
      rw [get_insert, if_neg hne]

/-! ### Managed packages -/

theorem provesManaged_keys (h : e.provesManaged p = true) :
    e.removalSlot = none ∧ ∃ receipt, p.locator.receipt = some receipt ∧ e.receiptId = receipt.model.receiptId ∧
      e.packageSlot = p.locator.packageSlot ∧ e.pluginId = p.record.manifest.id := by
  unfold provesManaged matchesPackage matchesReceipt matchesLocator OwnershipReceiptV1.matchesRecord at h
  simp only [Bool.and_eq_true, Option.isNone_iff_eq_none, Option.any_eq_true, decide_eq_true_eq] at h
  obtain ⟨hn, receipt, hr, ⟨h1, h2, -⟩, h3⟩ := h
  exact ⟨hn, receipt, hr, h1.1, h2.1, h1.2.2.1.trans h3.2.1⟩

theorem claimedBy_of_proves (h : e.provesManaged p = true) : e.claimedBy p = true := by
  obtain ⟨-, receipt, -, -, hs, -⟩ := provesManaged_keys h
  unfold claimedBy
  simp [hs]

theorem classify_eq_managed {i : ManagedOwnershipIndexV1} {m : Classes} (hm : m[p.record.manifest.id]? ≠ some .managed) :
    classify i m p = .managed ↔ m[p.record.manifest.id]? = none ∧ ∃ receipt, p.locator.receipt = some receipt ∧
      ∃ e, (i.entries.find? fun entry => decide (entry.packageSlot = p.locator.packageSlot) ||
        decide (entry.receiptId = receipt.model.receiptId) || decide (entry.pluginId = p.record.manifest.id)) = some e ∧
        e.provesManaged p = true := by
  unfold classify
  cases hr : p.locator.receipt with
  | none => simp
  | some receipt =>
    cases hc : m[p.record.manifest.id]? with
    | some c =>
      rw [hc] at hm
      simpa using hm
    | none =>
      dsimp only
      split
      · rename_i hf
        simp [hf]
      · rename_i e hf
        by_cases he : e.provesManaged p = true
        · simp [hf, he]
        · simp [hf, he]

theorem fate_some {settled : Bool} {x : ManagedOwnershipEntryV1} (h : fate o e settled = some x) :
    (x = e ∧ (Pending o e → settled = false)) ∨ (x = e.restoreManaged ∧ verdict o e = .restorable) := by
  cases settled with
  | false =>
    rw [fate_false] at h
    exact .inl ⟨(Option.some.inj h).symm, fun _ => rfl⟩
  | true =>
    unfold fate at h
    cases hv : verdict o e with
    | restorable =>
      rw [hv] at h
      exact .inr ⟨(Option.some.inj h).symm, rfl⟩
    | vacated =>
      rw [hv] at h
      cases h
    | crowded | proven | moved | unproven =>
      rw [hv] at h
      refine .inl ⟨(Option.some.inj h).symm, ?_⟩
      rintro (hp | hp) <;> rw [hv] at hp <;> cases hp

theorem fate_keys {settled : Bool} {x : ManagedOwnershipEntryV1} (h : fate o e settled = some x) :
    x.receiptId = e.receiptId ∧ x.packageSlot = e.packageSlot ∧ x.pluginId = e.pluginId ∧ x.claimedBy = e.claimedBy := by
  rcases fate_some h with ⟨rfl, -⟩ | ⟨rfl, -⟩ <;> exact ⟨rfl, rfl, rfl, rfl⟩

theorem crowded_of_two (hp : p ∈ o.plugins) (hq : q ∈ o.plugins) (hne : q ≠ p) (hcp : e.claimedBy p = true)
    (hcq : e.claimedBy q = true) : verdict o e = .crowded := by
  have hmp : p ∈ claimants o e := List.mem_filter.2 ⟨hp, hcp⟩
  have hmq : q ∈ claimants o e := List.mem_filter.2 ⟨hq, hcq⟩
  refine if_pos ?_
  by_contra hlen
  match hc : claimants o e with
  | [] => rw [hc] at hmp; cases hmp
  | [x] =>
    rw [hc, List.mem_singleton] at hmp hmq
    exact hne (hmq.trans hmp.symm)
  | x :: y :: rest =>
    rw [hc] at hlen
    simp at hlen

theorem not_crowded_of_one (hids : (o.plugins.map fun p => p.record.manifest.id).Nodup)
    (h : ∀ q ∈ o.plugins, e.claimedBy q = true → q = p) : verdict o e ≠ .crowded := by
  intro hv
  have hlen : 1 < (claimants o e).length := by
    by_contra hlen
    unfold verdict at hv
    rw [if_neg hlen] at hv
    split at hv
    · split at hv <;> cases hv
    · dsimp only at hv
      split at hv
      · cases hv
      · split at hv
        · cases hv
        · split at hv <;> cases hv
  have hnodup : (claimants o e).Nodup := (List.Nodup.of_map _ hids).filter _
  have hsub : claimants o e ⊆ [p] := fun q hq =>
    List.mem_singleton.2 (h q (List.mem_filter.1 hq).1 (List.mem_filter.1 hq).2)
  have := (hnodup.subperm hsub).length_le
  simp at this
  omega

/-- **Which packages are managed**, once the loop is through. -/
theorem managed_iff {i j : ManagedOwnershipIndexV1} (hi : i.Valid) (hj : j.Valid)
    (hids : (o.plugins.map fun p => p.record.manifest.id).Nodup) {s : ManagedOwnershipEntryV1 → Bool}
    (he : j.entries = i.entries.filterMap fun e => fate o e (s e)) {m : Classes}
    (hman : m[p.record.manifest.id]? ≠ some .managed)
    (hnone : m[p.record.manifest.id]? = none ↔ ∀ e ∈ i.entries, ¬ Marked o p.record.manifest.id e (s e)) (hp : p ∈ o.plugins) :
    classify j m p = .managed ↔
      ∃ e ∈ j.entries, e.provesManaged p = true ∧ ∀ q ∈ o.plugins, e.claimedBy q = true → q = p := by
  have hfrom : ∀ x ∈ j.entries, ∃ e ∈ i.entries, fate o e (s e) = some x := fun x hx =>
    List.mem_filterMap.1 (he ▸ hx)
  rw [classify_eq_managed hman]
  constructor
  · rintro ⟨hm, receipt, -, x, hfind, hproves⟩
    have hx := List.mem_of_find?_eq_some hfind
    refine ⟨x, hx, hproves, fun q hq hclaims => ?_⟩
    -- a second claimant would have crowded the entry, and marked the package:
    by_contra hne
    obtain ⟨e, hei, hfate⟩ := hfrom x hx
    have hcl := (fate_keys hfate).2.2.2
    have hcp : e.claimedBy p = true := hcl ▸ claimedBy_of_proves hproves
    have hv := crowded_of_two hp hq hne hcp (hcl ▸ hclaims)
    exact hnone.1 hm e hei (.inl ⟨hv, p, List.mem_filter.2 ⟨hp, hcp⟩, rfl⟩)
  · rintro ⟨x, hx, hproves, honly⟩
    obtain ⟨hremoval, receipt, hreceipt, hr, hslot, hid⟩ := provesManaged_keys hproves
    obtain ⟨e, hei, hfate⟩ := hfrom x hx
    obtain ⟨hk1, hk2, hk3, hcl⟩ := fate_keys hfate
    have hsame : ∀ q ∈ o.plugins, q.record.manifest.id = p.record.manifest.id → q = p := fun q hq hqp =>
      List.inj_on_of_nodup_map hids hq hp hqp
    refine ⟨?_, receipt, hreceipt, x, ?_, hproves⟩
    · -- whoever marks the package is the entry that proves it
      refine hnone.2 fun y hy => ?_
      rintro (⟨hv, q, hq, hqp⟩ | ⟨hv, hset, q, hq, hqp⟩)
      · obtain ⟨hqo, hqc⟩ := List.mem_filter.1 hq
        obtain rfl := hsame q hqo hqp
        have hye : y = e := by
          unfold claimedBy at hqc
          simp only [Bool.or_eq_true, decide_eq_true_eq, Option.any_eq_true] at hqc
          rcases hqc with (hqc | hqc) | ⟨receipt', hr', hqc⟩
          · exact hi.eq_of_slot hy hei (by rw [← hqc, ← hslot, hk2])
          · exact hi.eq_of_plugin hy hei (by rw [← hqc, ← hid, hk3])
          · rw [hreceipt] at hr'
            cases hr'
            exact hi.eq_of_receipt hy hei (by rw [← hqc, ← hr, hk1])
        subst hye
        exact not_crowded_of_one hids (fun q hq hcq => honly q hq (by rw [hcl]; exact hcq)) hv
      · -- an entry whose removal is pending proves nothing:
        obtain ⟨hqo, hqs⟩ := source_some hq
        obtain rfl := hsame q hqo hqp
        obtain rfl : y = e := hi.eq_of_slot hy hei (by rw [← hqs, ← hslot, hk2])
        rw [hset, fate_false] at hfate
        have := Pending.removing (.inl hv)
        rw [Option.some.inj hfate, hremoval] at this
        cases this
    · -- the first entry with a key of the package is the one that proves it
      have hsome : (j.entries.find? fun entry => decide (entry.packageSlot = p.locator.packageSlot) ||
          decide (entry.receiptId = receipt.model.receiptId) ||
          decide (entry.pluginId = p.record.manifest.id)).isSome := by
        rw [List.find?_isSome]
        exact ⟨x, hx, by simp [hslot]⟩
      obtain ⟨y, hy⟩ := Option.isSome_iff_exists.1 hsome
      have hyj := List.mem_of_find?_eq_some hy
      have hkeys := List.find?_some hy
      simp only [Bool.or_eq_true, decide_eq_true_eq] at hkeys
      rw [hy]
      congr 1
      rcases hkeys with (hk | hk) | hk
      · exact hj.eq_of_slot hyj hx (hk.trans hslot.symm)
      · exact hj.eq_of_receipt hyj hx (hk.trans hr.symm)
      · exact hj.eq_of_plugin hyj hx (hk.trans hid.symm)

/-! ## Reconciliation -/

/-- Each entry is kept, restored or deleted, where its slots allow it; none is added. -/
def Follows (o : LocalDiscoveryOutcome) (i j : ManagedOwnershipIndexV1) : Prop :=
  ∃ left : ManagedOwnershipEntryV1 → Option ManagedOwnershipEntryV1, j.entries = i.entries.filterMap left ∧
    ∀ e ∈ i.entries, left e = some e ∨ (left e = some e.restoreManaged ∧ Restorable o e) ∨ (left e = none ∧ Vacated o e)

theorem Follows.refl (o : LocalDiscoveryOutcome) (i : ManagedOwnershipIndexV1) : Follows o i i :=
  ⟨some, by simp, fun _ _ => .inl rfl⟩

/-- The package is managed by the index. -/
def Proven (o : LocalDiscoveryOutcome) (j : ManagedOwnershipIndexV1) (p : DiscoveredLocalPlugin) : Prop :=
  ∃ e ∈ j.entries, e.provesManaged p = true ∧ ∀ q ∈ o.plugins, e.claimedBy q = true → q = p

theorem follows_fate {i j : ManagedOwnershipIndexV1} {s : ManagedOwnershipEntryV1 → Bool}
    (h : j.entries = i.entries.filterMap fun e => fate o e (s e)) : Follows o i j := by
  refine ⟨_, h, fun e _ => ?_⟩
  cases hf : fate o e (s e) with
  | some x =>
    rcases fate_some hf with ⟨rfl, -⟩ | ⟨rfl, hv⟩
    · exact .inl rfl
    · exact .inr (.inl ⟨rfl, restorable_of_verdict hv⟩)
  | none =>
    unfold fate at hf
    split at hf
    · cases hf
    · rename_i hv _
      exact .inr (.inr ⟨rfl, vacated_of_verdict hv⟩)
    · cases hf

theorem foldl_note_conflicts (s : ManagedOwnershipEntryV1 → Bool) (n : Notes) :
    (b.foldl (fun n e => note o n e (s e)) n).conflicts ≤ n.conflicts + b.length := by
  induction b generalizing n with
  | nil => exact le_rfl
  | cons e b ih =>
    have hstep : (note o n e (s e)).conflicts ≤ n.conflicts + 1 := by
      unfold note
      split <;> simp
    have := ih (note o n e (s e))
    rw [List.foldl_cons, List.length_cons]
    omega

theorem undecided_get {runtime : OwnershipRuntime} {store : IndexStore}
    (hids : (o.plugins.map fun p => p.record.manifest.id).Nodup) (hp : p ∈ o.plugins) :
    (undecided o runtime store).classes[p.record.manifest.id]? =
      some (if p.locator.receipt.isSome then .ownershipUnavailable else .external) := by
  exact classes_get (f := fun _ p => if p.locator.receipt.isSome then .ownershipUnavailable else .external)
    (fun _ _ _ _ => rfl) hids hp

/-- What a reconciliation with an index that needs no rewrite gives. -/
structure Settled (o : LocalDiscoveryOutcome) (w : Bool) (i : ManagedOwnershipIndexV1) (store : IndexStore)
    (r : Reconciled) (j : ManagedOwnershipIndexV1) : Prop where
  runtime : r.runtime = .available j false
  committed : r.store.committed = j
  answer : r.store.answer = store.answer
  saves : store.saves ≤ r.store.saves
  valid : j.Valid
  follows : Follows o i j
  managed : r.summary.status ≠ .unavailable → ∀ p ∈ o.plugins,
    (r.classes[p.record.manifest.id]? = some .managed ↔ Proven o j p)
  undecided : r.summary.status = .unavailable → r = undecided o r.runtime r.store
  decided : 160 + o.removals.unknownEntryCount + o.removals.occupiedSlots.length < 2 ^ 32 → r.summary.status ≠ .unavailable
  again : (w = true → ∀ n, (store.answer n).outcome.committed = true) → ∀ store' : IndexStore, store'.committed = j →
    reconcileIndex o w j store' = ⟨.available j false, r.classes, r.summary, store'⟩

theorem counts_ne_unavailable (a b c : ℕ) : (ManagedOwnershipSummary.counts a b c).status ≠ .unavailable := by
  unfold ManagedOwnershipSummary.counts
  dsimp only
  split <;> nofun

theorem reconcileIndex_settled {i : ManagedOwnershipIndexV1} {store : IndexStore} (hi : i.Valid)
    (hids : (o.plugins.map fun p => p.record.manifest.id).Nodup) (hc : store.committed = i) (w : Bool) :
    ∃ j, Settled o w i store (reconcileIndex o w i store) j := by
  have hloop : Loop ⟨⟨0, 0, 0, ∅⟩, .available i false, i, store⟩ [] i.entries := ⟨hi, rfl, hc, rfl⟩
  obtain ⟨s, hn, hl, ha, hsv, -, hex⟩ := hloop.run o w
  unfold reconcileIndex
  dsimp only
  generalize i.entries.foldl (reconcileEntry o w) ⟨⟨0, 0, 0, ∅⟩, .available i false, i, store⟩ = t at *
  have hent : t.index.entries = i.entries.filterMap fun e => fate o e (s e) := by simpa using hl.entries
  refine ⟨t.index, ?_⟩
  -- the second loop finds the same notes and settles nothing
  have hagain : (w = true → ∀ n, (store.answer n).outcome.committed = true) → ∀ store' : IndexStore,
      store'.committed = t.index →
      t.index.entries.foldl (reconcileEntry o w) ⟨⟨0, 0, 0, ∅⟩, .available t.index false, t.index, store'⟩ =
        ⟨t.toNotes, .available t.index false, t.index, store'⟩ := by
    intro hall store' hc'
    have hloop' : Loop ⟨⟨0, 0, 0, ∅⟩, .available t.index false, t.index, store'⟩ [] t.index.entries :=
      ⟨hl.valid, rfl, hc', rfl⟩
    rw [hloop'.quiet_run (o := o) (w := w)]
    · rw [hent, foldl_note_fate, hn]
    · intro x hx
      cases hw : w with
      | false => exact .inl rfl
      | true =>
        right
        by_cases hp : Pending o x
        · left
          obtain ⟨e, he, hf⟩ := List.mem_filterMap.1 (hent ▸ hx)
          rcases fate_some hf with ⟨rfl, hset⟩ | ⟨rfl, hv⟩
          · exact hex ⟨hw, hall hw⟩ x he hp (hset hp)
          · have := verdict_restoreManaged hv
            rcases hp with hp | hp <;> rw [this] at hp <;> cases hp
        · exact .inr hp
  have hconf : t.conflicts ≤ 160 := by
    have h1 := foldl_note_conflicts (o := o) (b := i.entries) s ⟨0, 0, 0, ∅⟩
    rw [← hn] at h1
    have h2 := hi.capacity
    unfold maxManagedOwnershipEntries at h2
    simp only at h1
    omega
  have horph : orphans o t.index ≤ o.removals.occupiedSlots.length := List.countP_le_length
  by_cases hbig : 2 ^ 32 ≤ t.conflicts + o.removals.unknownEntryCount + orphans o t.index
  · rw [if_pos hbig]
    refine ⟨hl.runtime, hl.committed, ha, hsv, hl.valid, follows_fate hent, fun h => absurd rfl h, fun _ => rfl, ?_, ?_⟩
    · intro h
      omega
    · intro hall store' hc'
      unfold reconcileIndex
      rw [hagain hall store' hc']
      dsimp only
      rw [if_pos hbig]
      rfl
  · rw [if_neg hbig]
    refine ⟨hl.runtime, hl.committed, ha, hsv, hl.valid, follows_fate hent, ?_, ?_, ?_, ?_⟩
    · intro _ p hp
      dsimp only
      rw [classes_get (fun _ _ _ => classify_congr) hids hp, Option.some.injEq]
      obtain ⟨h1, h2⟩ := foldl_note_classes (o := o) (b := i.entries) s p.record.manifest.id ⟨0, 0, 0, ∅⟩ (by simp)
      rw [← hn] at h1 h2
      refine managed_iff hi hl.valid hids hent h1 (h2.trans ?_) hp
      simp
    · intro h
      exact absurd h (counts_ne_unavailable _ _ _)
    · intro _
      exact counts_ne_unavailable _ _ _
    · intro hall store' hc'
      unfold reconcileIndex
      rw [hagain hall store' hc']
      dsimp only
      rw [if_neg hbig]

/-! ### What was committed before does not count -/

def recommit (k : ManagedOwnershipIndexV1) (store : IndexStore) : IndexStore := { store with committed := k }

def Tally.recommit (k : ManagedOwnershipIndexV1) (t : Tally) : Tally := { t with store := OwnershipRuntime.recommit k t.store }

theorem saveChanged_recommit (k : ManagedOwnershipIndexV1) {t t' : Tally} (h : t.recommit k = t'.recommit k)
    (next : Except OwnershipFailure ManagedOwnershipIndexV1) :
    (t.saveChanged w next).1 = (t'.saveChanged w next).1 ∧
      (t.saveChanged w next).2.recommit k = (t'.saveChanged w next).2.recommit k := by
  obtain ⟨notes, runtime, index, answer, saves, committed⟩ := t
  obtain ⟨notes', runtime', index', answer', saves', committed'⟩ := t'
  simp only [Tally.recommit, OwnershipRuntime.recommit, Tally.mk.injEq, IndexStore.mk.injEq, and_true] at h
  obtain ⟨rfl, rfl, rfl, rfl, rfl⟩ := h
  unfold Tally.saveChanged
  cases w with
  | false => exact ⟨rfl, rfl⟩
  | true =>
    cases next with
    | error failure => exact ⟨rfl, rfl⟩
    | ok next =>
      unfold OwnershipRuntime.save IndexStore.save
      cases runtime with
      | unavailable => exact ⟨rfl, rfl⟩
      | available index rewrite =>
        dsimp only
        by_cases hc : (answer saves).outcome.committed = true
        · simp only [hc, if_true]
          exact ⟨trivial, trivial⟩
        · simp only [hc, Bool.false_eq_true, if_false]
          exact ⟨trivial, rfl⟩

theorem reconcileEntry_recommit (k : ManagedOwnershipIndexV1) {t t' : Tally} (h : t.recommit k = t'.recommit k)
    (e : ManagedOwnershipEntryV1) : (reconcileEntry o w t e).recommit k = (reconcileEntry o w t' e).recommit k := by
  have hindex : (t.recommit k).index = (t'.recommit k).index := congrArg Tally.index h
  change t.index = t'.index at hindex
  have hnoted : ∀ (s s' : Tally) (settled : Bool), s.recommit k = s'.recommit k →
      ({ s with toNotes := note o s.toNotes e settled } : Tally).recommit k =
        ({ s' with toNotes := note o s'.toNotes e settled } : Tally).recommit k := by
    intro s s' settled hs
    have hn : (s.recommit k).toNotes = (s'.recommit k).toNotes := congrArg Tally.toNotes hs
    change s.toNotes = s'.toNotes at hn
    rw [hn]
    exact congrArg (fun x : Tally => ({ x with toNotes := note o s'.toNotes e settled } : Tally)) hs
  rw [reconcileEntry_eq, reconcileEntry_eq, hindex]
  cases change o t'.index e with
  | none => exact hindex ▸ hnoted t t' false h
  | some next =>
    obtain ⟨h1, h2⟩ := saveChanged_recommit (w := w) k h next
    dsimp only
    rw [h1]
    exact hnoted _ _ _ h2

theorem foldl_recommit (k : ManagedOwnershipIndexV1) (b : List ManagedOwnershipEntryV1) {t t' : Tally}
    (h : t.recommit k = t'.recommit k) :
    (b.foldl (reconcileEntry o w) t).recommit k = (b.foldl (reconcileEntry o w) t').recommit k := by
  induction b generalizing t t' with
  | nil => exact h
  | cons e b ih => exact ih (reconcileEntry_recommit k h e)

def Reconciled.recommit (k : ManagedOwnershipIndexV1) (r : Reconciled) : Reconciled :=
  { r with store := OwnershipRuntime.recommit k r.store }

theorem reconcileIndex_recommit (k i : ManagedOwnershipIndexV1) {store store' : IndexStore}
    (h : recommit k store = recommit k store') :
    (reconcileIndex o w i store).recommit k = (reconcileIndex o w i store').recommit k := by
  have ht : (⟨⟨0, 0, 0, ∅⟩, .available i false, i, store⟩ : Tally).recommit k =
      (⟨⟨0, 0, 0, ∅⟩, .available i false, i, store'⟩ : Tally).recommit k := by
    unfold Tally.recommit
    dsimp only
    rw [h]
  have hfold := foldl_recommit (o := o) (w := w) k i.entries ht
  unfold reconcileIndex
  dsimp only
  generalize i.entries.foldl (reconcileEntry o w) ⟨⟨0, 0, 0, ∅⟩, .available i false, i, store⟩ = t at *
  generalize i.entries.foldl (reconcileEntry o w) ⟨⟨0, 0, 0, ∅⟩, .available i false, i, store'⟩ = t' at *
  obtain ⟨notes, runtime, index, s⟩ := t
  obtain ⟨notes', runtime', index', s'⟩ := t'
  simp only [Tally.recommit, Tally.mk.injEq] at hfold
  obtain ⟨rfl, rfl, rfl, hs⟩ := hfold
  dsimp only
  split
  · unfold Reconciled.recommit undecided
    dsimp only
    rw [hs]
  · unfold Reconciled.recommit
    dsimp only
    rw [hs]

/-- Whatever is saved, the index stays valid. -/
theorem reconcileIndex_valid {i : ManagedOwnershipIndexV1} (hi : i.Valid) (store : IndexStore) :
    ∃ j, (reconcileIndex o w i store).runtime = .available j false ∧ j.Valid := by
  have hloop : Loop ⟨⟨0, 0, 0, ∅⟩, .available i false, i, recommit i store⟩ [] i.entries := ⟨hi, rfl, rfl, rfl⟩
  obtain ⟨s, -, hl, -⟩ := hloop.run o w
  have hstore : recommit i store = recommit i (recommit i store) := rfl
  have hrt : ((reconcileIndex o w i store).recommit i).runtime = ((reconcileIndex o w i (recommit i store)).recommit i).runtime :=
    congrArg Reconciled.runtime (reconcileIndex_recommit i i hstore)
  change (reconcileIndex o w i store).runtime = (reconcileIndex o w i (recommit i store)).runtime at hrt
  rw [hrt]
  unfold reconcileIndex
  dsimp only
  generalize i.entries.foldl (reconcileEntry o w) ⟨⟨0, 0, 0, ∅⟩, .available i false, i, recommit i store⟩ = t at *
  refine ⟨t.index, ?_, hl.valid⟩
  split <;> exact hl.runtime

theorem reconcileLoaded_valid {runtime : OwnershipRuntime} (hrt : ∀ i rewrite, runtime = .available i rewrite → i.Valid)
    (store : IndexStore) {j : ManagedOwnershipIndexV1} {rewrite : Bool}
    (h : (reconcileLoaded runtime o w store).runtime = .available j rewrite) : j.Valid := by
  have hindex : ∀ i store', i.Valid → (reconcileIndex o w i store').runtime = .available j rewrite → j.Valid := by
    intro i store' hi hr
    obtain ⟨j', hj, hv⟩ := reconcileIndex_valid (o := o) (w := w) hi store'
    rw [hj] at hr
    cases hr
    exact hv
  unfold reconcileLoaded at h
  split at h
  · exact hrt j rewrite h
  · split at h
    · cases h
    · rename_i i
      exact hindex i store (hrt i false rfl) h
    · rename_i i
      have hi := hrt i true rfl
      dsimp only at h
      split at h
      · cases h
      · split at h
        · rename_i index _ store' hsave
          -- the index that is saved again is the one that was loaded
          have hidx : index = i := by
            unfold OwnershipRuntime.save IndexStore.save at hsave
            split at hsave
            · cases hsave
            · dsimp only at hsave
              split at hsave
              · cases hsave
                rfl
              · cases hsave
          rw [hidx] at h
          exact hindex i store' hi h
        · cases h

/-- Nothing keeps the reconciliation from deciding: both scans were made, a recovered index
is rewritten, and the conflicts can be counted in 32 bits. -/
def Decided (o : LocalDiscoveryOutcome) (w rewrite : Bool) (store : IndexStore) : Prop :=
  o.removals.status ≠ .unavailable ∧ o.summary.status ≠ .unavailable ∧
    (rewrite = true → w = true ∧ (store.answer store.saves).outcome.committed = true) ∧
    160 + o.removals.unknownEntryCount + o.removals.occupiedSlots.length < 2 ^ 32

theorem initialized_of_valid {i : ManagedOwnershipIndexV1} (hi : i.Valid) (rewrite : Bool) :
    initialized (.ok ⟨i, rewrite⟩) = .available i rewrite := by
  unfold initialized
  dsimp only
  rw [ManagedOwnershipIndexV1.valid_iff.2 hi]

/-- The rewrite of a recovered index. -/
theorem reconcileLoaded_rewrite {i : ManagedOwnershipIndexV1} {store : IndexStore} (hi : i.Valid) (hc : store.committed = i)
    (h1 : ¬ (o.removals.status = .unavailable ∨ o.summary.status = .unavailable)) (w : Bool) :
    reconcileLoaded (.available i true) o w store =
      if w = false then undecided o .unavailable store
      else if (store.answer store.saves).outcome.committed then
        reconcileIndex o w i ⟨store.answer, store.saves + 1, i⟩
      else undecided o .unavailable ⟨store.answer, store.saves + 1, i⟩ := by
  -- without writes the walk over the entries leaves runtime and store as they are
  have hloop : Loop ⟨⟨0, 0, 0, ∅⟩, .available i false, i, store⟩ [] i.entries := ⟨hi, rfl, hc, rfl⟩
  have hq := hloop.quiet_run (o := o) (w := false) fun _ _ => .inl rfl
  have hobs : (reconcileIndex o false i store).runtime = .available i false ∧
      (reconcileIndex o false i store).store = store := by
    unfold reconcileIndex
    rw [hq]
    dsimp only
    split <;> exact ⟨rfl, rfl⟩
  unfold reconcileLoaded
  rw [if_neg h1]
  dsimp only
  rw [hobs.1, hobs.2]
  cases w with
  | false => rfl
  | true =>
    unfold OwnershipRuntime.save IndexStore.save
    dsimp only
    by_cases hcom : (store.answer store.saves).outcome.committed = true
    · simp [hcom]
    · simp [hcom, hc]

/-- What a reconciliation of `i` ends with. -/
structure Exact (o : LocalDiscoveryOutcome) (i : ManagedOwnershipIndexV1) (rewrite w : Bool) (store : IndexStore)
    (r : Reconciled) : Prop where
  decided : Decided o w rewrite store → r.summary.status ≠ .unavailable
  managed : r.summary.status ≠ .unavailable → ∃ j, r.runtime = .available j false ∧ ∀ p ∈ o.plugins,
    (r.classes[p.record.manifest.id]? = some .managed ↔ Proven o j p)
  whenUndecided : r.summary.status = .unavailable → ∀ p ∈ o.plugins, r.classes[p.record.manifest.id]? =
    some (if p.locator.receipt.isSome then .ownershipUnavailable else .external)
  follows : Follows o i r.store.committed
  committed : ∀ j b, r.runtime = .available j b → r.store.committed = j
  again : (∀ n, (store.answer n).outcome.committed = true) →
    let again := reconcile (.ok ⟨r.store.committed, rewrite && decide (r.store.saves = store.saves)⟩) o w r.store
    again.store = r.store ∧ again.classes = r.classes ∧ again.summary = r.summary

section Exact

variable {i : ManagedOwnershipIndexV1} {rewrite : Bool} {store store' : IndexStore}

/-- Nothing is decided, and nothing is saved but the index `i`. -/
theorem Exact.of_undecided (hids : (o.plugins.map fun p => p.record.manifest.id).Nodup) {runtime : OwnershipRuntime}
    (hnot : ¬Decided o w rewrite store) (hc : store'.committed = i) (hruntime : ∀ j b, runtime = .available j b → j = i)
    (hagain : (∀ n, (store.answer n).outcome.committed = true) →
      reconcile (.ok ⟨i, rewrite && decide (store'.saves = store.saves)⟩) o w store' = undecided o runtime store') :
    Exact o i rewrite w store (undecided o runtime store') := by
  refine ⟨fun h => absurd h hnot, fun h => absurd rfl h, fun _ p hp => undecided_get hids hp, ?_, ?_, ?_⟩
  · exact hc.symm ▸ Follows.refl o i
  · intro j b h
    exact hc.trans (hruntime j b h).symm
  · intro hall
    have hrun := hagain hall
    rw [← hc] at hrun
    exact ⟨congrArg Reconciled.store hrun, congrArg Reconciled.classes hrun, congrArg Reconciled.summary hrun⟩

/-- An index that was rewritten, or needs no rewrite, is settled. -/
theorem Exact.of_settled (hids : (o.plugins.map fun p => p.record.manifest.id).Nodup)
    (hstat : ¬(o.removals.status = .unavailable ∨ o.summary.status = .unavailable))
    (ha : store'.answer = store.answer) (hlt : rewrite = true → store.saves < store'.saves)
    (hs : Settled o w i store' (reconcileIndex o w i store') j) :
    Exact o i rewrite w store (reconcileIndex o w i store') := by
  refine ⟨fun h => hs.decided h.2.2.2, fun h => ⟨j, hs.runtime, hs.managed h⟩, ?_, ?_, ?_, ?_⟩
  · intro h p hp
    rw [hs.undecided h]
    exact undecided_get hids hp
  · exact hs.committed.symm ▸ hs.follows
  · intro j' b hj
    rw [hs.runtime] at hj
    cases hj
    exact hs.committed
  · intro hall
    have hflag : (rewrite && decide ((reconcileIndex o w i store').store.saves = store.saves)) = false := by
      cases rewrite with
      | false => rfl
      | true =>
        have := hlt rfl
        have := hs.saves
        rw [Bool.true_and, decide_eq_false_iff_not]
        omega
    have hplain : ∀ store, reconcileLoaded (.available j false) o w store = reconcileIndex o w j store :=
      fun _ => if_neg hstat
    dsimp only
    unfold reconcile
    rw [hflag, hs.committed, initialized_of_valid hs.valid, hplain, hs.again (fun _ n => by rw [ha]; exact hall n) _ hs.committed]
    exact ⟨rfl, rfl, rfl⟩

theorem exact_reconcileLoaded (hids : (o.plugins.map fun p => p.record.manifest.id).Nodup) (hi : i.Valid)
    (hc : store.committed = i) : Exact o i rewrite w store (reconcileLoaded (.available i rewrite) o w store) := by
  -- nothing was saved: the same index is loaded again
  have hload : initialized (.ok ⟨i, rewrite && decide (store.saves = store.saves)⟩) = .available i rewrite := by
    rw [decide_eq_true rfl, Bool.and_true]
    exact initialized_of_valid hi rewrite
  by_cases hstat : o.removals.status = .unavailable ∨ o.summary.status = .unavailable
  · have hr : reconcileLoaded (.available i rewrite) o w store = undecided o (.available i rewrite) store := if_pos hstat
    rw [hr]
    apply Exact.of_undecided hids _ hc
    · rintro j b ⟨⟩
      rfl
    · intro _
      unfold reconcile
      rw [hload, hr]
    · rintro ⟨h1, h2, -⟩
      exact hstat.elim h1 h2
  cases rewrite with
  | false =>
    have hr : reconcileLoaded (.available i false) o w store = reconcileIndex o w i store := if_neg hstat
    rw [hr]
    obtain ⟨j, hs⟩ := reconcileIndex_settled hi hids hc w
    exact .of_settled hids hstat rfl (fun h => by cases h) hs
  | true =>
    have hr := reconcileLoaded_rewrite hi hc hstat
    cases w with
    | false =>
      -- a recovered index that is not rewritten decides nothing
      rw [hr, if_pos rfl]
      apply Exact.of_undecided hids _ hc
      · intro j b h
        cases h
      · intro _
        unfold reconcile
        rw [hload, hr, if_pos rfl]
      · rintro ⟨-, -, h, -⟩
        exact absurd (h rfl).1 Bool.false_ne_true
    | true =>
      rw [hr, if_neg (by decide)]
      have hc' : (⟨store.answer, store.saves + 1, i⟩ : IndexStore).committed = i := rfl
      by_cases hcom : (store.answer store.saves).outcome.committed = true
      · rw [if_pos hcom]
        obtain ⟨j, hs⟩ := reconcileIndex_settled hi hids hc' true
        exact .of_settled hids hstat rfl (fun _ => Nat.lt_succ_self _) hs
      · rw [if_neg hcom]
        apply Exact.of_undecided hids _ hc'
        · intro j b h
          cases h
        · intro hall
          exact absurd (hall _) hcom
        · rintro ⟨-, -, h, -⟩
          exact absurd (h rfl).2 hcom

end Exact

/-- **Reconciliation is exact and idempotent.** If it decides, the managed packages are those that
one entry of the resulting index proves and no other package claims; if not, a package with a
receipt is `OwnershipUnavailable` and every other external. Whatever is saved, each entry is kept, restored or
deleted where its slots allow it, and the runtime holds the last index committed. With
working saves a second reconciliation, of the index on disk, saves nothing and says the same. -/
theorem reconcile_exact (o : LocalDiscoveryOutcome) (hids : (o.plugins.map fun p => p.record.manifest.id).Nodup)
    (i : ManagedOwnershipIndexV1) (hi : i.validateForPersistence = .ok ()) (rewrite w : Bool) (store : IndexStore)
    (hc : store.committed = i) :
    let r := reconcileLoaded (.available i rewrite) o w store
    (Decided o w rewrite store → r.summary.status ≠ .unavailable) ∧
    (r.summary.status ≠ .unavailable → ∃ j, r.runtime = .available j false ∧ ∀ p ∈ o.plugins,
      (r.classes[p.record.manifest.id]? = some .managed ↔
        ∃ e ∈ j.entries, e.provesManaged p = true ∧ ∀ q ∈ o.plugins, e.claimedBy q = true → q = p)) ∧
    (r.summary.status = .unavailable → ∀ p ∈ o.plugins, r.classes[p.record.manifest.id]? =
      some (if p.locator.receipt.isSome then .ownershipUnavailable else .external)) ∧
    Follows o i r.store.committed ∧ (∀ j b, r.runtime = .available j b → r.store.committed = j) ∧
    ((∀ n, (store.answer n).outcome.committed = true) →
      let again := reconcile (.ok ⟨r.store.committed, rewrite && decide (r.store.saves = store.saves)⟩) o w r.store
      again.store = r.store ∧ again.classes = r.classes ∧ again.summary = r.summary) := by
  have h : Exact o i rewrite w store (reconcileLoaded (.available i rewrite) o w store) :=
    exact_reconcileLoaded hids (ManagedOwnershipIndexV1.valid_iff.1 hi) hc
  exact ⟨h.decided, h.managed, h.whenUndecided, h.follows, h.committed, h.again⟩

end OwnershipRuntime

/-! ### A package and its entry -/

namespace Sample

def fingerprint : String := "v1:sha256:0000000000000000000000000000000000000000000000000000000000000000"

def pluginId : PluginId := ⟨"org.sample", by decide +kernel⟩

def record : PluginRecord where
  manifest := ⟨1, pluginId, pluginId, "", []⟩
  source := .localDeclarative
  approvalFingerprint := fingerprint
  valid := by decide +kernel
  builtInSchema := nofun

def entry (lifecycle : OwnershipLifecycleV1) : ManagedOwnershipEntryV1 where
  receiptId := ⟨"00000000000040008000000000000000", by decide +kernel⟩
  lifecycle := lifecycle
  packageSlot := ⟨"pkg-00000000000040008000000000000000", by decide +kernel⟩
  pluginId := pluginId
  source := .localDeclarative
  publisherId := pluginId
  approvalFingerprint := fingerprint
  receiptSha256 := 0
  directoryIdentity := ⟨0, 1⟩
  manifestIdentity := ⟨0, 2⟩
  receiptIdentity := ⟨0, 3⟩

def package : DiscoveredLocalPlugin where
  record := record
  locator :=
    { packageSlot := (entry .managed).packageSlot
      directoryIdentity := ⟨0, 1⟩
      manifestIdentity := ⟨0, 2⟩
      receipt := some
        { model := ⟨1, (entry .managed).receiptId, (entry .managed).packageSlot, .localDeclarative, pluginId, pluginId, fingerprint⟩
          canonicalSha256 := 0
          fileIdentity := ⟨0, 3⟩ } }

/-- The package alone, and a scan of the removals with this status. -/
def outcome (removals : LocalDiscoveryStatus) : LocalDiscoveryOutcome :=
  ⟨[package], [package.locator.packageSlot], ⟨[], removals, [], 0⟩, .available, none⟩

def index (lifecycle : OwnershipLifecycleV1) : ManagedOwnershipIndexV1 := ⟨1, 1, [entry lifecycle]⟩

/-- Every save is committed. -/
def store (i : ManagedOwnershipIndexV1) : IndexStore := ⟨fun _ => .ok .committedDurable, 0, i⟩

end Sample

open OwnershipRuntime

/-- A removal that was interrupted before its package was moved: the entry is restored. -/
theorem reconcile_exact_sample :
    let i := Sample.index (.removing ManagedOwnershipIndexV1.sizingRemovalSlot)
    let r := reconcileLoaded (.available i false) (Sample.outcome .available) true (Sample.store i)
    r.summary.status ≠ .unavailable ∧ ∃ j, r.runtime = .available j false ∧ ∀ p ∈ (Sample.outcome .available).plugins,
      (r.classes[p.record.manifest.id]? = some .managed ↔
        ∃ e ∈ j.entries, e.provesManaged p = true ∧ ∀ q ∈ (Sample.outcome .available).plugins, e.claimedBy q = true → q = p) := by
  obtain ⟨h1, h2, -⟩ := reconcile_exact (Sample.outcome .available) (by decide +kernel)
    (Sample.index (.removing ManagedOwnershipIndexV1.sizingRemovalSlot)) (by decide +kernel) false true
    (Sample.store (Sample.index (.removing ManagedOwnershipIndexV1.sizingRemovalSlot))) rfl
  have hd := h1 ⟨nofun, nofun, nofun, by decide⟩
  exact ⟨hd, h2 hd⟩

/-- Without a scan of the removals, a package that an entry proves is not managed. -/
theorem proven_not_managed :
    let i := Sample.index .managed
    let o := Sample.outcome .unavailable
    let r := reconcileLoaded (.available i false) o true (Sample.store i)
    i.validateForPersistence = .ok () ∧ (o.plugins.map fun p => p.record.manifest.id).Nodup ∧
      (o.plugins.map fun p => p.locator.packageSlot).Nodup ∧ r.runtime = .available i false ∧
      (∃ e ∈ i.entries, e.provesManaged Sample.package = true ∧ ∀ q ∈ o.plugins, e.claimedBy q = true → q = Sample.package) ∧
      r.classes[Sample.package.record.manifest.id]? ≠ some .managed := by
  decide +kernel

end EasiFlux.Plugin
