import EasiFlux.Proof.OwnershipWire

/-!
# Ownership documents round-trip and stay valid

Each change of the index sorts, checks and numbers what it has made (`finishChanged`), so one lemma
about that, `finishChanged_follows`, is all that the four changes need: what they do to the entries
of other receipts.

A removal that begins twice under one slot changes nothing the second time. Restoring the entry
afterwards undoes the first beginning, not only the second (`begun_twice`).
-/

namespace EasiFlux.Plugin

open Results

/-- The changes of an index -/
inductive OwnershipChange
  | register (entry : ManagedOwnershipEntryV1)
  | beginRemoval (receiptId : ReceiptId) (removalSlot : RemovalSlot)
  | restoreManaged (receiptId : ReceiptId)
  | remove (receiptId : ReceiptId)

namespace OwnershipChange

def apply (i : ManagedOwnershipIndexV1) : OwnershipChange → Except OwnershipFailure ManagedOwnershipIndexV1
  | register entry => i.register entry
  | beginRemoval receiptId removalSlot => i.beginRemoval receiptId removalSlot
  | restoreManaged receiptId => i.restoreManaged receiptId
  | remove receiptId => i.remove receiptId

/-- The receipt of the entry that a change names. -/
def receiptId : OwnershipChange → ReceiptId
  | register entry => entry.receiptId
  | beginRemoval receiptId _ => receiptId
  | restoreManaged receiptId => receiptId
  | remove receiptId => receiptId

/-- The entries that a change leaves of one receipt. -/
def named (i : ManagedOwnershipIndexV1) : OwnershipChange → ManagedOwnershipEntryV1 → Prop
  | register entry, x => x = entry
  | beginRemoval receiptId removalSlot, x => ∃ e ∈ i.entries, e.receiptId = receiptId ∧ x = e.beginRemoval removalSlot
  | restoreManaged receiptId, x => ∃ e ∈ i.entries, e.receiptId = receiptId ∧ x = e.restoreManaged
  | remove _, _ => False

end OwnershipChange

namespace ManagedOwnershipIndexV1

variable {i j n : ManagedOwnershipIndexV1} {a b : List ManagedOwnershipEntryV1} {e x : ManagedOwnershipEntryV1}
  {receipt : ReceiptId} {slot : RemovalSlot}

/-- What a change may make of the index `i`: `j`. -/
structure Follows (i j : ManagedOwnershipIndexV1) (receipt : ReceiptId) (named : ManagedOwnershipEntryV1 → Prop) : Prop where
  valid : j.validateForPersistence = .ok ()
  counted : j.revision = i.revision + 1 ↔ j.entries ≠ i.entries
  unchanged : j.entries = i.entries → j = i
  revision : j.revision ≤ maxRevision
  sorted : (j.entries.map (·.receiptId)).Pairwise (· < ·)
  others : ∀ x, x.receiptId ≠ receipt → (x ∈ j.entries ↔ x ∈ i.entries)
  entry : ∀ x, x.receiptId = receipt → (x ∈ j.entries ↔ named x)

theorem Valid.validate_ok (hi : i.Valid) : i.validate = .ok () := by
  have h := valid_iff.2 hi
  rw [validateForPersistence, bind_eq_ok] at h
  obtain ⟨⟨⟩, h, -⟩ := h
  exact h

/-- The index itself, where the named entry is already what it should become. -/
theorem Follows.refl {named : ManagedOwnershipEntryV1 → Prop} (hi : i.Valid) (hrev : i.revision ≤ maxRevision)
    (hnamed : ∀ x, x.receiptId = receipt → (x ∈ i.entries ↔ named x)) : Follows i i receipt named where
  valid := valid_iff.2 hi
  counted := by
    constructor
    · intro h
      omega
    · exact fun h => absurd rfl h
  unchanged := fun _ => rfl
  revision := hrev
  sorted := hi.receipts
  others := fun _ _ => Iff.rfl
  entry := hnamed

/-- **What `finish_changed` accepts follows.** The revision is not among what is checked, and it cannot make a valid index
too long. -/
theorem finishChanged_follows {named : ManagedOwnershipEntryV1 → Prop} (hi : i.Valid) (hrev : i.revision ≤ maxRevision)
    (h : finishChanged n i = .ok j) (hothers : ∀ x, x.receiptId ≠ receipt → (x ∈ n.entries ↔ x ∈ i.entries))
    (hnamed : ∀ x, x.receiptId = receipt → (x ∈ n.entries ↔ named x)) : Follows i j receipt named := by
  have hmem : ∀ x, x ∈ sorted n.entries ↔ x ∈ n.entries := fun x => (sorted_perm _).mem_iff
  unfold finishChanged at h
  rw [bind_eq_ok] at h
  obtain ⟨⟨⟩, hv, h⟩ := h
  change (if sorted n.entries = i.entries then _ else _) = _ at h
  by_cases hsame : sorted n.entries = i.entries
  · -- nothing has changed
    have hji : i = j := by
      rw [if_pos hsame] at h
      exact Except.ok.inj h
    subst hji
    apply Follows.refl hi hrev
    intro x hx
    rw [← hsame, hmem, hnamed x hx]
  · rw [if_neg hsame, bind_eq_ok] at h
    obtain ⟨⟨⟩, hroom, h⟩ := h
    rw [ensure_eq_ok] at hroom
    obtain rfl := Except.ok.inj h
    have hvalid : ({ n with entries := sorted n.entries } : ManagedOwnershipIndexV1).Valid := valid_iff.1 hv
    have hchecked : ({ n with entries := sorted n.entries, revision := i.revision + 1 } : ManagedOwnershipIndexV1).validate =
        .ok () := hvalid.validate_ok
    refine ⟨valid_iff.2 (valid_of_validate hchecked hroom), ?_, ?_, hroom, hvalid.receipts, ?_, ?_⟩
    · exact ⟨fun _ => hsame, fun _ => rfl⟩
    · exact fun he => absurd he hsame
    · intro x hx
      rw [← hothers x hx]
      exact hmem x
    · intro x hx
      rw [← hnamed x hx]
      exact hmem x

/-! ## The four changes -/

theorem register_follows (hi : i.Valid) (hrev : i.revision ≤ maxRevision) (h : i.register e = .ok j) :
    Follows i j e.receiptId ((OwnershipChange.register e).named i) := by
  unfold register at h
  by_cases hmem : e ∈ i.entries
  · rw [if_pos (List.contains_iff_mem.2 hmem)] at h
    obtain rfl := Except.ok.inj h
    apply Follows.refl hi hrev
    intro x hx
    constructor
    · exact fun hxi => hi.eq_of_receipt hxi hmem hx
    · rintro rfl
      exact hmem
  · rw [if_neg fun hc => hmem (List.contains_iff_mem.1 hc)] at h
    have hv := h
    apply finishChanged_follows hi hrev h
    · intro x hx
      have hne : x ≠ e := by
        rintro rfl
        exact hx rfl
      simp [hne]
    · -- another entry of the receipt is refused
      intro x hx
      unfold finishChanged at hv
      rw [bind_eq_ok] at hv
      obtain ⟨⟨⟩, hv, -⟩ := hv
      have hvalid : ({ i with entries := sorted (i.entries ++ [e]) } : ManagedOwnershipIndexV1).Valid := valid_iff.1 hv
      have hin : ∀ y, y ∈ i.entries ++ [e] → y ∈ sorted (i.entries ++ [e]) := fun y hy => (sorted_perm _).mem_iff.2 hy
      constructor
      · exact fun hxi => hvalid.eq_of_receipt (hin x hxi) (hin e (by simp)) hx
      · rintro rfl
        simp

theorem updateEntry_follows (hi : i.Valid) (hrev : i.revision ≤ maxRevision) {f : ManagedOwnershipEntryV1 → ManagedOwnershipEntryV1}
    (hf : ∀ x, (f x).receiptId = x.receiptId) (h : finishChanged (i.updateEntry receipt f) i = .ok j) :
    Follows i j receipt fun x => ∃ e ∈ i.entries, e.receiptId = receipt ∧ x = f e := by
  rcases exists_split (i := i) receipt with hnone | ⟨a, e, b, hsplit, rfl⟩
  · have hsame : (i.updateEntry receipt f).entries = i.entries := updateFirst_of_forall_not fun x hx => decide_eq_false (hnone x hx)
    apply finishChanged_follows hi hrev h
    · intro x hx
      rw [hsame]
    · intro x hx
      rw [hsame]
      constructor
      · exact fun hxi => absurd hx (hnone x hxi)
      · rintro ⟨e, he, her, -⟩
        exact absurd her (hnone e he)
  · rw [updateEntry_split hi hsplit] at h
    have hne : ∀ x, x ∈ a ∨ x ∈ b → x.receiptId ≠ e.receiptId := fun x hx => hi.receipt_ne hsplit hx
    have hmem : e ∈ i.entries := by
      rw [hsplit]
      simp
    apply finishChanged_follows hi hrev h
    · intro x hx
      have hxe : x ≠ e := by
        rintro rfl
        exact hx rfl
      have hxf : x ≠ f e := by
        rintro rfl
        exact hx (hf e)
      rw [hsplit]
      simp [hxe, hxf]
    · intro x hx
      constructor
      · intro hxn
        rw [List.mem_append, List.mem_cons] at hxn
        rcases hxn with hxa | rfl | hxb
        · exact absurd hx (hne x (.inl hxa))
        · exact ⟨e, hmem, rfl, rfl⟩
        · exact absurd hx (hne x (.inr hxb))
      · rintro ⟨y, hy, hyr, rfl⟩
        rw [hi.eq_of_receipt hy hmem hyr]
        simp

theorem restoreManaged_follows (hi : i.Valid) (hrev : i.revision ≤ maxRevision) (h : i.restoreManaged receipt = .ok j) :
    Follows i j receipt ((OwnershipChange.restoreManaged receipt).named i) :=
  updateEntry_follows hi hrev (fun _ => rfl) h

theorem beginRemoval_follows (hi : i.Valid) (hrev : i.revision ≤ maxRevision) (h : i.beginRemoval receipt slot = .ok j) :
    Follows i j receipt ((OwnershipChange.beginRemoval receipt slot).named i) := by
  unfold beginRemoval at h
  cases hfind : i.entries.find? fun e => decide (e.receiptId = receipt) with
  | none =>
    rw [hfind] at h
    cases h
  | some e =>
    rw [hfind] at h
    dsimp only at h
    have hmem : e ∈ i.entries := List.mem_of_find?_eq_some hfind
    have hr : e.receiptId = receipt := by simpa using List.find?_some hfind
    cases hl : e.lifecycle with
    | managed =>
      rw [hl] at h
      simp only [bind_eq_ok] at h
      obtain ⟨-, -, h⟩ := h
      exact updateEntry_follows hi hrev (fun _ => rfl) h
    | removing current =>
      rw [hl] at h
      dsimp only at h
      by_cases hc : current = slot
      · -- the removal has begun already
        rw [if_pos hc] at h
        obtain rfl := Except.ok.inj h
        have hsame : e.beginRemoval slot = e := by
          unfold ManagedOwnershipEntryV1.beginRemoval
          rw [← hc, ← hl]
        apply Follows.refl hi hrev
        intro x hx
        constructor
        · intro hxi
          refine ⟨e, hmem, hr, ?_⟩
          rw [hsame]
          exact hi.eq_of_receipt hxi hmem (hx.trans hr.symm)
        · rintro ⟨y, hy, hyr, rfl⟩
          rw [hi.eq_of_receipt hy hmem (hyr.trans hr.symm), hsame]
          exact hmem
      · rw [if_neg hc] at h
        cases h

theorem remove_follows (hi : i.Valid) (hrev : i.revision ≤ maxRevision) (h : i.remove receipt = .ok j) :
    Follows i j receipt ((OwnershipChange.remove receipt).named i) := by
  apply finishChanged_follows hi hrev h
  · intro x hx
    simp [hx]
  · intro x hx
    simp [hx, OwnershipChange.named]

theorem apply_follows {change : OwnershipChange} (hi : i.Valid) (hrev : i.revision ≤ maxRevision)
    (h : change.apply i = .ok j) : Follows i j change.receiptId (change.named i) := by
  cases change with
  | register entry => exact register_follows hi hrev h
  | beginRemoval receipt slot => exact beginRemoval_follows hi hrev h
  | restoreManaged receipt => exact restoreManaged_follows hi hrev h
  | remove receipt => exact remove_follows hi hrev h

/-! ## A removal undone -/

/-- A removal that began with a managed entry is undone by restoring it. -/
theorem restoreManaged_beginRemoval (hi : i.Valid) (hmem : e ∈ i.entries) (hm : e.lifecycle = .managed)
    (h : i.beginRemoval e.receiptId slot = .ok j) :
    j.restoreManaged e.receiptId = .ok { i with revision := i.revision + 2 } := by
  obtain ⟨a, b, hsplit⟩ := List.append_of_mem hmem
  have hfind := find_receipt hi hmem
  have hbegin := h
  unfold beginRemoval at h
  rw [hfind] at h
  dsimp only at h
  rw [hm] at h
  simp only [requireRevisionHeadroom, bind_eq_ok, ensure_eq_ok] at h
  obtain ⟨-, hroom, h⟩ := h
  rw [updateEntry_split hi hsplit] at h
  -- the marked entries are in order already, and they are others
  have hsort : sorted (a ++ e.beginRemoval slot :: b) = a ++ e.beginRemoval slot :: b := by
    have hp := hi.receipts
    rw [hsplit, List.map_append, List.map_cons] at hp
    apply SortOn.mergeSort_eq_self
    rw [List.map_append, List.map_cons]
    exact hp
  have hnext : j = ⟨i.schemaVersion, i.revision + 1, a ++ e.beginRemoval slot :: b⟩ ∧ j.Valid := by
    rcases finishChanged_ok h with rfl | ⟨hv, rfl⟩
    · -- the index itself does not have the marked entry
      have hf := beginRemoval_follows hi (by omega) hbegin
      obtain ⟨y, hy, hyr, heq⟩ := (hf.entry e rfl).1 hmem
      rw [hi.eq_of_receipt hy hmem hyr] at heq
      have hlife := congrArg ManagedOwnershipEntryV1.lifecycle heq
      rw [hm] at hlife
      cases hlife
    · dsimp only at hv ⊢
      rw [hsort] at hv ⊢
      exact ⟨rfl, valid_of_validate hv.validate_ok (by dsimp only; omega)⟩
  obtain ⟨rfl, hj⟩ := hnext
  have hrestored : (e.beginRemoval slot).restoreManaged = e := by
    unfold ManagedOwnershipEntryV1.restoreManaged ManagedOwnershipEntryV1.beginRemoval
    rw [← hm]
  have hrestore := restoreManaged_split hj rfl (e := e.beginRemoval slot) rfl
  rw [if_pos (by dsimp only; omega), hrestored, ← hsplit] at hrestore
  exact hrestore

end ManagedOwnershipIndexV1

/-! ## The documents -/

/-- **Ownership documents round-trip and stay valid.** A removal is undone by restoring an entry that was managed. -/
theorem ownership_documents :
    (∀ receipt : OwnershipReceiptV1, receipt.validate = .ok () →
      ∃ bytes, receipt.canonicalBytes = .ok bytes ∧ OwnershipReceiptV1.parse bytes = .ok receipt) ∧
    (∀ (bytes : ByteArray) (receipt : OwnershipReceiptV1), OwnershipReceiptV1.parse bytes = .ok receipt →
      ∃ canonical, receipt.canonicalBytes = .ok canonical ∧ OwnershipReceiptV1.parse canonical = .ok receipt) ∧
    (∀ index : ManagedOwnershipIndexV1, index.validate = .ok () → index.InRange →
      ∃ bytes, index.canonicalBytes = .ok bytes ∧ ManagedOwnershipIndexV1.parse bytes = .ok index) ∧
    (∀ (bytes : ByteArray) (index : ManagedOwnershipIndexV1), ManagedOwnershipIndexV1.parse bytes = .ok index →
      ∃ canonical, index.canonicalBytes = .ok canonical ∧ ManagedOwnershipIndexV1.parse canonical = .ok index) ∧
    (∀ (index next : ManagedOwnershipIndexV1) (change : OwnershipChange), index.validate = .ok () → index.InRange →
      change.apply index = .ok next → ManagedOwnershipIndexV1.Follows index next change.receiptId (change.named index)) ∧
    (∀ (index next : ManagedOwnershipIndexV1) (entry : ManagedOwnershipEntryV1) (slot : RemovalSlot), index.validate = .ok () →
      index.InRange → entry ∈ index.entries → entry.lifecycle = .managed →
      index.beginRemoval entry.receiptId slot = .ok next →
      next.restoreManaged entry.receiptId = .ok { index with revision := index.revision + 2 }) := by
  refine ⟨fun receipt h => receipt.parse_canonicalBytes h, ?_, fun index hv hr => index.parse_canonicalBytes hv hr, ?_, ?_, ?_⟩
  · intro bytes receipt h
    exact receipt.parse_canonicalBytes (OwnershipReceiptV1.parse_ok h)
  · intro bytes index h
    obtain ⟨hv, hr⟩ := ManagedOwnershipIndexV1.parse_ok h
    exact index.parse_canonicalBytes hv hr
  · intro index next change hv hr h
    exact ManagedOwnershipIndexV1.apply_follows (ManagedOwnershipIndexV1.valid_of_validate hv hr.revision) hr.revision h
  · intro index next entry slot hv hr hmem hm h
    have hi := ManagedOwnershipIndexV1.valid_of_validate hv hr.revision
    exact ManagedOwnershipIndexV1.restoreManaged_beginRemoval hi hmem hm h

theorem sample_inRange (lifecycle : OwnershipLifecycleV1) : (Sample.index lifecycle).InRange := by
  have hone : 1 ≤ maxRevision := by decide
  refine ⟨hone, fun e he => ?_⟩
  obtain rfl := List.mem_singleton.1 he
  exact ⟨by norm_num [Sample.entry], by norm_num [FileIdentity.InRange, Sample.entry],
    by norm_num [FileIdentity.InRange, Sample.entry], by norm_num [FileIdentity.InRange, Sample.entry]⟩

/-- An index of one package: it is read back, and a removal of the package is undone. -/
theorem ownership_documents_sample :
    (∃ bytes, (Sample.index .managed).canonicalBytes = .ok bytes ∧
      ManagedOwnershipIndexV1.parse bytes = .ok (Sample.index .managed)) ∧
    (Sample.index .managed).beginRemoval (Sample.entry .managed).receiptId ManagedOwnershipIndexV1.sizingRemovalSlot =
      .ok ⟨1, 2, [Sample.entry (.removing ManagedOwnershipIndexV1.sizingRemovalSlot)]⟩ ∧
    ManagedOwnershipIndexV1.restoreManaged ⟨1, 2, [Sample.entry (.removing ManagedOwnershipIndexV1.sizingRemovalSlot)]⟩
      (Sample.entry .managed).receiptId = .ok ⟨1, 3, [Sample.entry .managed]⟩ := by
  have hv : (Sample.index .managed).validate = .ok () := by decide +kernel
  have hbegun : (Sample.index .managed).beginRemoval (Sample.entry .managed).receiptId
      ManagedOwnershipIndexV1.sizingRemovalSlot =
      .ok ⟨1, 2, [Sample.entry (.removing ManagedOwnershipIndexV1.sizingRemovalSlot)]⟩ := by decide +kernel
  obtain ⟨-, -, hround, -, -, hundo⟩ := ownership_documents
  exact ⟨hround _ hv (sample_inRange _), hbegun,
    hundo _ _ (Sample.entry .managed) _ hv (sample_inRange _) (by simp [Sample.index]) rfl hbegun⟩

/-- A removal that has begun already begins again without a change, and restoring the entry is one. -/
theorem begun_twice :
    ¬∀ (index next : ManagedOwnershipIndexV1) (receiptId : ReceiptId) (slot : RemovalSlot), index.validate = .ok () →
      index.InRange → index.beginRemoval receiptId slot = .ok next →
      ∃ restored, next.restoreManaged receiptId = .ok restored ∧ restored.entries = index.entries := by
  intro h
  have hsame : (Sample.index (.removing ManagedOwnershipIndexV1.sizingRemovalSlot)).beginRemoval
      (Sample.entry .managed).receiptId ManagedOwnershipIndexV1.sizingRemovalSlot =
      .ok (Sample.index (.removing ManagedOwnershipIndexV1.sizingRemovalSlot)) := by decide +kernel
  have hrestore : (Sample.index (.removing ManagedOwnershipIndexV1.sizingRemovalSlot)).restoreManaged
      (Sample.entry .managed).receiptId = .ok ⟨1, 2, [Sample.entry .managed]⟩ := by decide +kernel
  obtain ⟨restored, hok, hentries⟩ := h _ _ _ _ (by decide +kernel) (sample_inRange _) hsame
  rw [hrestore] at hok
  obtain rfl := Except.ok.inj hok
  revert hentries
  decide +kernel

end EasiFlux.Plugin
