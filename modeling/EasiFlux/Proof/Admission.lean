import EasiFlux.Proof.Calls

/-!
# What an admitted import or removal needs

`validate_managed_import` and `preflight_removal` measure documents that are built later, with ids
that are not known yet. Ids and slots have fixed widths, so the measured documents and the built
ones have the same size, up to a digit of the revision.

* `Valid.registered`, `register_refused`: a new entry is registered iff no other entry has its plugin;
* `Valid.begun`, `removal_ends`: the three changes of the index in a removal;
* `removalDisabled_valid`, `nextDecision_of_candidate`: the two decisions;
* **`admission_sufficient`**: what is admitted is refused later only where a save fails.
-/

namespace EasiFlux.Plugin

open Results Newest PluginRegistry

/-! ## Widths -/

theorem utf8Size_of_isLowerHex {c : Char} (h : isLowerHex c = true) : c.utf8Size = 1 := by
  unfold isLowerHex at h
  rw [Bool.or_eq_true, decide_eq_true_eq] at h
  rcases h with h | ⟨-, h⟩
  · exact Fixed.Decimal.utf8Size_of_isDigit (.inl h)
  · rw [Char.utf8Size_eq_one_iff, UInt32.le_iff_toNat_le]
    have hf : c.toNat ≤ 'f'.toNat := h
    exact hf.trans (by decide)

theorem utf8Len_of_isLowerHex {l : List Char} (h : l.all isLowerHex = true) : String.utf8Len l = l.length := by
  induction l with
  | nil => rfl
  | cons c l ih =>
    rw [List.all_cons, Bool.and_eq_true] at h
    rw [String.utf8Len_cons, ih h.2, utf8Size_of_isLowerHex h.1, List.length_cons]

theorem utf8ByteSize_eq_utf8Len (s : String) : s.utf8ByteSize = String.utf8Len s.toList := by
  rw [← String.utf8ByteSize_ofList, String.ofList_toList]

theorem utf8ByteSize_of_hex {width : ℕ} {s : String} (h : isLowerHexText width s.toList = true) : s.utf8ByteSize = width := by
  unfold isLowerHexText at h
  rw [Bool.and_eq_true, decide_eq_true_eq] at h
  rw [utf8ByteSize_eq_utf8Len, utf8Len_of_isLowerHex h.2, h.1]

theorem utf8ByteSize_of_prefixed {head s : String} (h : isPrefixedSlot head s = true) :
    s.utf8ByteSize = head.utf8ByteSize + 32 := by
  unfold isPrefixedSlot isLowerHexText at h
  simp only [Bool.and_eq_true, beq_iff_eq, decide_eq_true_eq] at h
  obtain ⟨hhead, hlen, hhex⟩ := h
  rw [utf8ByteSize_eq_utf8Len, ← List.take_append_drop head.length s.toList, hhead, String.utf8Len_append,
    utf8Len_of_isLowerHex hhex, hlen, ← utf8ByteSize_eq_utf8Len]

theorem ReceiptId.width (id : ReceiptId) : id.1.utf8ByteSize = 32 := by
  have h := id.2
  unfold isUuidV4Simple at h
  simp only [Bool.and_eq_true] at h
  exact utf8ByteSize_of_hex h.1.1

theorem PackageSlot.width (slot : PackageSlot) : slot.1.utf8ByteSize = 36 := utf8ByteSize_of_prefixed slot.2

theorem RemovalSlot.width (slot : RemovalSlot) : slot.1.utf8ByteSize = 39 := utf8ByteSize_of_prefixed slot.2

/-- The size of an entry depends on the plugin, not on ids, slots and files. -/
theorem byteLength_eq_of_plugin {e e' : ManagedOwnershipEntryV1} (hl : e.lifecycle = .managed) (hl' : e'.lifecycle = .managed)
    (hp : e.pluginId = e'.pluginId) (hs : e.source = e'.source) (hpub : e.publisherId = e'.publisherId)
    (hf : e.approvalFingerprint = e'.approvalFingerprint) : e.byteLength = e'.byteLength := by
  unfold ManagedOwnershipEntryV1.byteLength ManagedOwnershipEntryV1.quotedLength
  rw [hl, hl', hp, hs, hpub, hf, e.receiptId.width, e'.receiptId.width, e.packageSlot.width, e'.packageSlot.width]

theorem byteLength_beginRemoval (e : ManagedOwnershipEntryV1) (slot slot' : RemovalSlot) :
    (e.beginRemoval slot).byteLength = (e.beginRemoval slot').byteLength := by
  unfold ManagedOwnershipEntryV1.byteLength ManagedOwnershipEntryV1.quotedLength ManagedOwnershipEntryV1.beginRemoval
  dsimp only
  rw [slot.width, slot'.width]

theorem digits_mono {m n : ℕ} (h : m ≤ n) : (Nat.toDigits 10 m).length ≤ (Nat.toDigits 10 n).length := by
  rw [Nat.length_toDigits_le_iff (by decide) Nat.length_toDigits_pos]
  have hn : n < 10 ^ (Nat.toDigits 10 n).length := (Nat.length_toDigits_le_iff (by decide) Nat.length_toDigits_pos).1 le_rfl
  omega

namespace ManagedOwnershipIndexV1

variable {i j : ManagedOwnershipIndexV1} {a b es : List ManagedOwnershipEntryV1} {e : ManagedOwnershipEntryV1}

theorem byteLength_mono {n m : ℕ} (h : m ≤ n) :
    (⟨i.schemaVersion, m, es⟩ : ManagedOwnershipIndexV1).byteLength ≤ (⟨i.schemaVersion, n, es⟩ : ManagedOwnershipIndexV1).byteLength := by
  have := digits_mono h
  unfold byteLength
  dsimp only
  omega

theorem Valid.withRevision {n m : ℕ} (h : (⟨i.schemaVersion, n, es⟩ : ManagedOwnershipIndexV1).Valid) (hm : m ≤ n) :
    (⟨i.schemaVersion, m, es⟩ : ManagedOwnershipIndexV1).Valid :=
  ⟨h.schema, h.capacity, h.entries, h.receipts, h.slots, h.plugins, h.removals, h.identities, (byteLength_mono hm).trans h.size⟩

/-! ## Registration -/

/-- Nothing of the entry is in the index yet: its ids, slots and files are new. -/
structure Fresh (i : ManagedOwnershipIndexV1) (e : ManagedOwnershipEntryV1) : Prop where
  receipt : ∀ x ∈ i.entries, x.receiptId ≠ e.receiptId
  slot : ∀ x ∈ i.entries, x.packageSlot ≠ e.packageSlot
  identities : ∀ x ∈ i.entries, ∀ file ∈ x.identities, file ∉ e.identities
  distinct : e.identities.Nodup

/-- The entries in the order of their receipts. -/
def sorted (es : List ManagedOwnershipEntryV1) : List ManagedOwnershipEntryV1 :=
  es.mergeSort fun a b => decide (a.receiptId ≤ b.receiptId)

theorem sorted_perm (es : List ManagedOwnershipEntryV1) : (sorted es).Perm es := List.mergeSort_perm _ _

theorem sorted_receipts (h : (es.map (·.receiptId)).Nodup) : ((sorted es).map (·.receiptId)).Pairwise (· < ·) := by
  have hle : (sorted es).Pairwise fun a b => a.receiptId ≤ b.receiptId := SortOn.pairwise_mergeSort _ es
  have hne : ((sorted es).map (·.receiptId)).Nodup := ((sorted_perm es).map _).nodup_iff.2 h
  rw [List.pairwise_map]
  unfold List.Nodup at hne
  rw [List.pairwise_map] at hne
  exact hle.imp₂ (fun a b hab hab' => lt_of_le_of_ne hab hab') hne

theorem finishChanged_sorted {n : ℕ} (hj : (⟨i.schemaVersion, n, sorted es⟩ : ManagedOwnershipIndexV1).Valid)
    (hn : i.revision ≤ n) (hne : sorted es ≠ i.entries) (hrev : i.revision + 1 ≤ maxRevision) :
    finishChanged { i with entries := es } i = .ok ⟨i.schemaVersion, i.revision + 1, sorted es⟩ := by
  have hv : ({ i with entries := sorted es } : ManagedOwnershipIndexV1).validateForPersistence = .ok () :=
    valid_iff.2 (hj.withRevision hn)
  unfold finishChanged
  show ({ i with entries := sorted es } : ManagedOwnershipIndexV1).validateForPersistence >>= _ = _
  rw [hv, ok_bind]
  show (if sorted es = i.entries then _ else _) = _
  rw [if_neg hne, ensure_of hrev, ok_bind]
  rfl

/-- The entries with a new one are valid as long as no other entry has its plugin. -/
theorem Valid.added (hi : i.Valid) (hf : i.Fresh e) (he : e.valid = true) (hm : e.removalSlot = none)
    (hp : ∀ x ∈ i.entries, x.pluginId ≠ e.pluginId) (hlen : i.entries.length < maxManagedOwnershipEntries) {n : ℕ}
    (hsize : (⟨i.schemaVersion, n, i.entries ++ [e]⟩ : ManagedOwnershipIndexV1).byteLength ≤ maxManagedOwnershipBytes) :
    (⟨i.schemaVersion, n, sorted (i.entries ++ [e])⟩ : ManagedOwnershipIndexV1).Valid := by
  have hperm := sorted_perm (i.entries ++ [e])
  refine ⟨hi.schema, ?_, ?_, ?_, ?_, ?_, ?_, ?_, ?_⟩
  · -- number and validity of the entries:
    show (sorted (i.entries ++ [e])).length ≤ _
    rw [hperm.length_eq, List.length_append, List.length_singleton]
    omega
  · intro x hx
    rcases List.mem_append.1 (hperm.mem_iff.1 hx) with hx | hx
    · exact hi.entries x hx
    · rw [List.mem_singleton.1 hx]
      exact he
  · -- the receipts are sorted and apart:
    refine sorted_receipts ?_
    rw [List.map_append, List.nodup_append]
    refine ⟨hi.receipts.imp fun h => ne_of_lt h, List.nodup_singleton _, ?_⟩
    intro x hx y hy
    obtain ⟨z, hz, rfl⟩ := List.mem_map.1 hx
    rw [List.map_singleton, List.mem_singleton] at hy
    rw [hy]
    exact hf.receipt z hz
  · -- slots, plugins, removals and identities are apart in any order:
    refine ((hperm.map _).nodup_iff).2 ?_
    rw [List.map_append, List.nodup_append]
    refine ⟨hi.slots, List.nodup_singleton _, ?_⟩
    intro x hx y hy
    obtain ⟨z, hz, rfl⟩ := List.mem_map.1 hx
    rw [List.map_singleton, List.mem_singleton] at hy
    rw [hy]
    exact hf.slot z hz
  · refine ((hperm.map _).nodup_iff).2 ?_
    rw [List.map_append, List.nodup_append]
    refine ⟨hi.plugins, List.nodup_singleton _, ?_⟩
    intro x hx y hy hxy
    obtain ⟨z, hz, rfl⟩ := List.mem_map.1 hx
    rw [List.map_singleton, List.mem_singleton] at hy
    rw [hy] at hxy
    exact hp z hz (congrArg Prod.fst hxy)
  · refine ((hperm.filterMap _).nodup_iff).2 ?_
    rw [List.filterMap_append, List.filterMap_cons_none hm, List.filterMap_nil, List.append_nil]
    exact hi.removals
  · refine ((hperm.flatMap_right _).nodup_iff).2 ?_
    rw [List.flatMap_append, List.flatMap_singleton, List.nodup_append]
    refine ⟨hi.identities, hf.distinct, ?_⟩
    intro x hx y hy hxy
    obtain ⟨z, hz, hfile⟩ := List.mem_flatMap.1 hx
    exact hf.identities z hz x hfile (hxy ▸ hy)
  · -- sorting does not change the size:
    refine le_trans (le_of_eq ?_) hsize
    unfold byteLength
    dsimp only
    rw [hperm.length_eq, (hperm.map _).sum_eq]

theorem byteLength_append (n : ℕ) :
    (⟨i.schemaVersion, n, i.entries ++ [e]⟩ : ManagedOwnershipIndexV1).byteLength =
      (⟨i.schemaVersion, n, i.entries⟩ : ManagedOwnershipIndexV1).byteLength + e.byteLength +
        (if i.entries.isEmpty then 0 else 1) := by
  unfold byteLength
  dsimp only
  rw [List.map_append, List.sum_append, List.length_append, List.map_singleton, List.sum_singleton, List.length_singleton]
  cases i.entries with
  | nil => simp
  | cons x xs =>
    simp only [List.length_cons, List.isEmpty_cons, Bool.false_eq_true, if_false]
    omega

/-- One digit of the revision is in the reserve. -/
theorem registered_size
    (hsize : i.byteLength + e.byteLength + (if i.entries.isEmpty then 0 else 1) + 1 ≤ maxManagedOwnershipBytes) :
    (⟨i.schemaVersion, i.revision + 1, i.entries ++ [e]⟩ : ManagedOwnershipIndexV1).byteLength ≤ maxManagedOwnershipBytes := by
  rw [byteLength_append]
  have hd := digits_succ_le i.revision
  have hgrow : (⟨i.schemaVersion, i.revision + 1, i.entries⟩ : ManagedOwnershipIndexV1).byteLength ≤ i.byteLength + 1 := by
    unfold byteLength
    dsimp only
    omega
  omega

/-- **Registration.** With room in the index a fresh entry is registered. -/
theorem Valid.registered (hi : i.Valid) (hf : i.Fresh e) (he : e.valid = true) (hm : e.removalSlot = none)
    (hp : ∀ x ∈ i.entries, x.pluginId ≠ e.pluginId) (hlen : i.entries.length < maxManagedOwnershipEntries)
    (hrev : i.revision + 1 ≤ maxRevision)
    (hsize : i.byteLength + e.byteLength + (if i.entries.isEmpty then 0 else 1) + 1 ≤ maxManagedOwnershipBytes) :
    ∃ next, i.register e = .ok next ∧ next.Valid := by
  have hnew := hi.added hf he hm hp hlen (registered_size hsize)
  refine ⟨_, ?_, hnew⟩
  unfold register
  have hnot : i.entries.contains e = false := by
    rw [Bool.eq_false_iff, Ne, List.contains_iff_mem]
    intro hmem
    exact hf.receipt e hmem rfl
  rw [hnot, if_neg Bool.false_ne_true]
  refine finishChanged_sorted hnew (Nat.le_succ _) ?_ hrev
  intro heq
  have hl := congrArg List.length heq
  rw [(sorted_perm _).length_eq, List.length_append, List.length_singleton] at hl
  omega

/-- **What the preflight does not see**: an entry of the same plugin, whatever its package is. -/
theorem register_refused {x : ManagedOwnershipEntryV1} (hx : x ∈ i.entries) (hne : e ∉ i.entries)
    (hplugin : (x.pluginId, x.source) = (e.pluginId, e.source)) : ∃ failure, i.register e = .error failure := by
  unfold register
  rw [if_neg (by rwa [List.contains_iff_mem])]
  cases hfin : finishChanged { i with entries := i.entries ++ [e] } i with
  | error failure => exact ⟨failure, rfl⟩
  | ok next =>
    unfold finishChanged at hfin
    rw [bind_eq_ok] at hfin
    obtain ⟨⟨⟩, hv, -⟩ := hfin
    have hnodup := (valid_iff.1 hv).plugins
    have hperm := (sorted_perm (i.entries ++ [e])).map fun e => (e.pluginId, e.source)
    have hbad := hperm.nodup_iff.1 hnodup
    rw [List.map_append, List.nodup_append] at hbad
    exact absurd hplugin (hbad.2.2 _ (List.mem_map_of_mem hx) _ (by simp))

/-! ## The changes of a removal -/

theorem find_receipt (hi : i.Valid) (hmem : e ∈ i.entries) :
    i.entries.find? (fun x => decide (x.receiptId = e.receiptId)) = some e := by
  cases hf : i.entries.find? fun x => decide (x.receiptId = e.receiptId) with
  | none =>
    have := List.find?_eq_none.1 hf e hmem
    simp at this
  | some x =>
    have hx : x.receiptId = e.receiptId := by simpa using List.find?_some hf
    rw [hi.eq_of_receipt (List.mem_of_find?_eq_some hf) hmem hx]

section Removal

variable {slot : RemovalSlot} (hi : i.Valid) (hsplit : i.entries = a ++ e :: b) (hm : e.lifecycle = .managed)
  (hrev : i.revision + 2 ≤ maxRevision)

include hi hsplit

/-- What the preflight has measured is what is built. -/
theorem begun_size (hrev : i.revision + 2 ≤ maxRevision) (hcap : i.preflightRemovalCapacity e.receiptId = .ok ()) :
    (⟨i.schemaVersion, i.revision + 1, a ++ e.beginRemoval slot :: b⟩ : ManagedOwnershipIndexV1).byteLength ≤
      maxManagedOwnershipBytes := by
  unfold preflightRemovalCapacity at hcap
  simp only [bind_eq_ok, ensure_eq_ok] at hcap
  obtain ⟨-, -, -, ⟨-, hbytes⟩, -⟩ := hcap
  rw [updateEntry_split hi hsplit, min_eq_left (by omega)] at hbytes
  refine le_trans (le_of_eq ?_) hbytes
  unfold byteLength
  simp only [List.map_append, List.map_cons, List.length_append, List.length_cons,
    byteLength_beginRemoval e slot sizingRemovalSlot]

/-- The entry marked for a removal slot that no other entry has. -/
theorem Valid.begun (hm : e.lifecycle = .managed) (hrev : i.revision + 2 ≤ maxRevision)
    (hcap : i.preflightRemovalCapacity e.receiptId = .ok ()) (hslot : ∀ x ∈ i.entries, x.removalSlot ≠ some slot) :
    (⟨i.schemaVersion, i.revision + 1, a ++ e.beginRemoval slot :: b⟩ : ManagedOwnershipIndexV1).Valid := by
  have hnone : e.removalSlot = none := by
    unfold ManagedOwnershipEntryV1.removalSlot
    rw [hm]
  have hsome : (e.beginRemoval slot).removalSlot = some slot := rfl
  refine ⟨hi.schema, ?_, ?_, ?_, ?_, ?_, ?_, ?_, begun_size hi hsplit hrev hcap⟩
  · have := hi.capacity
    rw [hsplit] at this
    simpa using this
  · intro x hx
    rw [List.mem_append, List.mem_cons] at hx
    rcases hx with hx | rfl | hx
    · exact hi.entries x (by rw [hsplit]; exact List.mem_append_left _ hx)
    · exact hi.entries e (by rw [hsplit]; simp)
    · exact hi.entries x (by rw [hsplit]; simp [hx])
  · -- the mark changes no key:
    have := hi.receipts
    rw [hsplit] at this
    simpa [ManagedOwnershipEntryV1.beginRemoval] using this
  · have := hi.slots
    rw [hsplit] at this
    simpa [ManagedOwnershipEntryV1.beginRemoval] using this
  · have := hi.plugins
    rw [hsplit] at this
    simpa [ManagedOwnershipEntryV1.beginRemoval] using this
  · -- the slot is new, and the other slots are those that were there
    have hold := hi.removals
    rw [hsplit, List.filterMap_append, List.filterMap_cons_none hnone] at hold
    show ((a ++ e.beginRemoval slot :: b).filterMap (·.removalSlot)).Nodup
    rw [List.filterMap_append, List.filterMap_cons_some hsome, List.nodup_middle]
    refine List.nodup_cons.2 ⟨?_, hold⟩
    intro hmem
    rw [← List.filterMap_append] at hmem
    obtain ⟨x, hx, hxs⟩ := List.mem_filterMap.1 hmem
    refine hslot x ?_ hxs
    rw [hsplit, List.mem_append, List.mem_cons]
    rcases List.mem_append.1 hx with hx | hx
    · exact .inl hx
    · exact .inr (.inr hx)
  · have := hi.identities
    rw [hsplit] at this
    simpa [ManagedOwnershipEntryV1.beginRemoval, ManagedOwnershipEntryV1.identities] using this

theorem beginRemoval_split (hm : e.lifecycle = .managed) (hrev : i.revision + 2 ≤ maxRevision)
    (hcap : i.preflightRemovalCapacity e.receiptId = .ok ()) (hslot : ∀ x ∈ i.entries, x.removalSlot ≠ some slot) :
    i.beginRemoval e.receiptId slot = .ok ⟨i.schemaVersion, i.revision + 1, a ++ e.beginRemoval slot :: b⟩ := by
  have hmem : e ∈ i.entries := by
    rw [hsplit]
    simp
  have hfind := find_receipt hi hmem
  have hbegun := hi.begun hsplit hm hrev hcap hslot
  unfold beginRemoval
  rw [hfind]
  dsimp only
  rw [hm]
  dsimp only
  unfold requireRevisionHeadroom
  rw [ensure_of hrev, ok_bind, updateEntry_split hi hsplit,
    finishChanged_eq (hbegun.withRevision (Nat.le_succ _)) ?_, if_pos (by omega)]
  intro he
  rw [hsplit, List.append_cancel_left_eq, List.cons.injEq] at he
  have hlife := congrArg ManagedOwnershipEntryV1.lifecycle he.1
  rw [hm] at hlife
  cases hlife

/-- An entry that is managed already is restored by saving the same index. -/
theorem restoreManaged_same (hm : e.lifecycle = .managed) : i.restoreManaged e.receiptId = .ok i := by
  have he : e.restoreManaged = e := by
    unfold ManagedOwnershipEntryV1.restoreManaged
    rw [← hm]
  have hsort := hi.mergeSort_eq
  unfold restoreManaged
  rw [updateEntry_split hi hsplit, he, ← hsplit]
  unfold finishChanged
  simp only [hsort]
  rw [valid_iff.2 hi, ok_bind, if_pos trivial]
  rfl

/-- **The end of a removal.** From the index before it and from the marked one, the entry is restored and deleted. -/
theorem removal_ends (hm : e.lifecycle = .managed) (hrev : i.revision + 2 ≤ maxRevision)
    (hcap : i.preflightRemovalCapacity e.receiptId = .ok ()) (hslot : ∀ x ∈ i.entries, x.removalSlot ≠ some slot)
    (hj : j = i ∨ i.beginRemoval e.receiptId slot = .ok j) :
    (∃ next, j.restoreManaged e.receiptId = .ok next ∧ next.Valid) ∧
      ∃ next, j.remove e.receiptId = .ok next ∧ next.Valid := by
  rcases hj with rfl | hj
  · refine ⟨⟨_, restoreManaged_same hi hsplit hm, hi⟩, _, ?_, hi.removed hsplit le_rfl⟩
    rw [remove_split hi hsplit, if_pos (by omega)]
  · rw [beginRemoval_split hi hsplit hm hrev hcap hslot] at hj
    cases hj
    have hbegun := hi.begun hsplit hm hrev hcap hslot
    have hr : (e.beginRemoval slot).removalSlot.isSome := rfl
    refine ⟨⟨_, ?_, hbegun.restored rfl hr le_rfl⟩, _, ?_, hbegun.removed rfl le_rfl⟩
    · exact (restoreManaged_split hbegun rfl hr).trans (if_pos hrev)
    · exact (remove_split hbegun rfl).trans (if_pos hrev)

end Removal

/-! ## Changes of any valid index -/

theorem finishChanged_ok {n : ManagedOwnershipIndexV1} (h : finishChanged n i = .ok j) :
    j = i ∨ (({ n with entries := sorted n.entries } : ManagedOwnershipIndexV1).Valid ∧
      j = { n with entries := sorted n.entries, revision := i.revision + 1 }) := by
  unfold finishChanged at h
  rw [bind_eq_ok] at h
  obtain ⟨⟨⟩, hv, h⟩ := h
  split at h
  · rw [pure_eq_ok] at h
    exact .inl h.symm
  · rw [bind_eq_ok] at h
    obtain ⟨⟨⟩, -, h⟩ := h
    rw [pure_eq_ok] at h
    exact .inr ⟨valid_iff.1 hv, h.symm⟩

theorem exists_split (receipt : ReceiptId) :
    (∀ x ∈ i.entries, x.receiptId ≠ receipt) ∨ ∃ a e b, i.entries = a ++ e :: b ∧ e.receiptId = receipt := by
  by_cases h : ∃ e ∈ i.entries, e.receiptId = receipt
  · obtain ⟨e, he, hr⟩ := h
    obtain ⟨a, b, hsplit⟩ := List.append_of_mem he
    exact .inr ⟨a, e, b, hsplit, hr⟩
  · push Not at h
    exact .inl h

theorem updateFirst_of_forall_not {α : Type} {p : α → Bool} {f : α → α} {l : List α} (h : ∀ x ∈ l, p x = false) :
    updateFirst p f l = l := by
  induction l with
  | nil => rfl
  | cons x l ih =>
    unfold updateFirst
    rw [h x List.mem_cons_self, if_neg Bool.false_ne_true, ih fun y hy => h y (List.mem_cons_of_mem _ hy)]

theorem Valid.restoreManaged_ok (hi : i.Valid) {receipt : ReceiptId} (h : i.restoreManaged receipt = .ok j) : j.Valid := by
  rcases exists_split receipt with hnone | ⟨a, e, b, hsplit, rfl⟩
  · have hsame : i.updateEntry receipt ManagedOwnershipEntryV1.restoreManaged = i := by
      unfold updateEntry
      rw [updateFirst_of_forall_not fun x hx => decide_eq_false (hnone x hx)]
    unfold restoreManaged at h
    rw [hsame] at h
    rcases finishChanged_ok h with rfl | ⟨hv, rfl⟩
    · exact hi
    · -- the same entries are in order already, so nothing has changed
      unfold finishChanged at h
      simp only [hi.mergeSort_eq, bind_eq_ok, if_true] at h
      obtain ⟨-, -, h⟩ := h
      rw [pure_eq_ok] at h
      rw [← h]
      exact hi
  · cases hl : e.lifecycle with
    | managed =>
      rw [restoreManaged_same hi hsplit hl] at h
      cases h
      exact hi
    | removing slot =>
      have hr : e.removalSlot.isSome := by
        unfold ManagedOwnershipEntryV1.removalSlot
        rw [hl]
        rfl
      rw [restoreManaged_split hi hsplit hr] at h
      split at h
      · cases h
        exact hi.restored hsplit hr le_rfl
      · cases h

theorem Valid.remove_ok (hi : i.Valid) {receipt : ReceiptId} (h : i.remove receipt = .ok j) : j.Valid := by
  rcases exists_split receipt with hnone | ⟨a, e, b, hsplit, rfl⟩
  · have hsame : i.entries.filter (fun e => decide (e.receiptId ≠ receipt)) = i.entries := by
      rw [List.filter_eq_self]
      intro x hx
      exact decide_eq_true (hnone x hx)
    have hsort := hi.mergeSort_eq
    unfold remove finishChanged at h
    simp only [hsame, hsort, bind_eq_ok, if_true] at h
    obtain ⟨-, -, h⟩ := h
    rw [pure_eq_ok] at h
    rw [← h]
    exact hi
  · rw [remove_split hi hsplit] at h
    split at h
    · cases h
      exact hi.removed hsplit le_rfl
    · cases h

theorem Valid.register_ok (hi : i.Valid)
    (hsize : i.byteLength + e.byteLength + (if i.entries.isEmpty then 0 else 1) + 1 ≤ maxManagedOwnershipBytes)
    (h : i.register e = .ok j) : j.Valid := by
  unfold register at h
  split at h
  · cases h
    exact hi
  · rcases finishChanged_ok h with rfl | ⟨hv, rfl⟩
    · exact hi
    · refine ⟨hv.schema, hv.capacity, hv.entries, hv.receipts, hv.slots, hv.plugins, hv.removals, hv.identities, ?_⟩
      refine le_trans (le_of_eq ?_) (registered_size hsize)
      unfold byteLength
      dsimp only
      rw [(sorted_perm _).length_eq, ((sorted_perm _).map _).sum_eq]

/-- The mark of a removal, whatever its slot is. -/
theorem Valid.beginRemoval_ok {slot : RemovalSlot} (hi : i.Valid) (hsplit : i.entries = a ++ e :: b)
    (hm : e.lifecycle = .managed) (hrev : i.revision + 2 ≤ maxRevision)
    (hcap : i.preflightRemovalCapacity e.receiptId = .ok ()) (h : i.beginRemoval e.receiptId slot = .ok j) : j.Valid := by
  by_cases hslot : ∀ x ∈ i.entries, x.removalSlot ≠ some slot
  · rw [beginRemoval_split hi hsplit hm hrev hcap hslot] at h
    cases h
    exact hi.begun hsplit hm hrev hcap hslot
  · -- a slot that is taken is refused
    exfalso
    push Not at hslot
    obtain ⟨x, hx, hxs⟩ := hslot
    have hne : x ≠ e := by
      rintro rfl
      unfold ManagedOwnershipEntryV1.removalSlot at hxs
      rw [hm] at hxs
      cases hxs
    have hx' : x ∈ a ++ b := by
      rw [hsplit, List.mem_append, List.mem_cons] at hx
      rcases hx with hx | hx | hx
      · exact List.mem_append_left _ hx
      · exact absurd hx hne
      · exact List.mem_append_right _ hx
    have hmem : e ∈ i.entries := by
      rw [hsplit]
      simp
    have hfind := find_receipt hi hmem
    unfold beginRemoval at h
    rw [hfind] at h
    dsimp only at h
    rw [hm] at h
    simp only [bind_eq_ok] at h
    obtain ⟨-, -, h⟩ := h
    rw [updateEntry_split hi hsplit] at h
    -- the change would be valid with two entries of one slot:
    have hbad : ({ i with entries := sorted (a ++ e.beginRemoval slot :: b) } : ManagedOwnershipIndexV1).Valid := by
      unfold finishChanged at h
      rw [bind_eq_ok] at h
      obtain ⟨⟨⟩, hv, -⟩ := h
      exact valid_iff.1 hv
    have hnodup := (((sorted_perm _).filterMap _).nodup_iff).1 hbad.removals
    have hsome : (e.beginRemoval slot).removalSlot = some slot := rfl
    rw [List.filterMap_append, List.filterMap_cons_some hsome, List.nodup_middle, List.nodup_cons] at hnodup
    refine hnodup.1 ?_
    rw [← List.filterMap_append]
    exact List.mem_filterMap.2 ⟨x, hx', hxs⟩

end ManagedOwnershipIndexV1

/-! ## Decisions -/

section Decisions

variable {state next : PluginStateFileV2} {record : PluginRecord} {entries : List PluginStateEntryV2}

theorem validate_iff : state.validate = true ↔ state.schemaVersion = 2 ∧ state.entries.length ≤ maxPluginStateEntries ∧
    (∀ e ∈ state.entries, validFingerprint e.source e.approvalFingerprint = true) ∧
    (state.entries.map fun e => (e.id, e.source, e.publisherId, e.approvalFingerprint)).Nodup := by
  unfold PluginStateFileV2.validate
  simp only [Bool.and_eq_true, decide_eq_true_eq, List.all_eq_true]
  tauto

theorem decideEntries_perm (h : entries.Perm state.entries) (identity : PluginIdentity) (enabled : Bool) :
    (decideEntries entries identity enabled).Perm (decideEntries state.entries identity enabled) :=
  (h.filter _).append_right _

/-- A decision keeps the fingerprints valid and the identities distinct. -/
theorem decideEntries_valid (h : state.validate = true) (record : PluginRecord) (enabled : Bool) :
    (∀ e ∈ decideEntries state.entries record.identity enabled, validFingerprint e.source e.approvalFingerprint = true) ∧
    ((decideEntries state.entries record.identity enabled).map
      fun e => (e.id, e.source, e.publisherId, e.approvalFingerprint)).Nodup := by
  obtain ⟨-, -, hfp, hnodup⟩ := validate_iff.1 h
  constructor
  · intro e he
    rcases List.mem_append.1 he with he | he
    · exact hfp e (List.mem_of_mem_filter he)
    · rw [List.mem_singleton.1 he]
      exact record.valid
  · unfold decideEntries
    rw [List.map_append, List.nodup_append]
    refine ⟨hnodup.sublist (List.filter_sublist.map _), List.nodup_singleton _, ?_⟩
    intro x hx y hy hxy
    obtain ⟨e, he, rfl⟩ := List.mem_map.1 hx
    rw [List.map_singleton, List.mem_singleton] at hy
    rw [hy] at hxy
    have hkeep := List.of_mem_filter he
    rw [decide_eq_true_eq] at hkeep
    simp only [decisionEntry, Prod.mk.injEq] at hxy
    rcases hkeep with hid | hsource
    · exact hid hxy.1
    · exact hsource hxy.2.1

theorem text_injective {a b : PluginSource} (h : a.text = b.text) : a = b := by
  cases a <;> cases b
  · rfl
  · exact absurd h (by decide)
  · exact absurd h (by decide)
  · rfl

/-- Documents are sorted by all of an identity, so the order does not depend on the order before. -/
theorem sortStateEntries_perm {es es' : List PluginStateEntryV2} (h : es.Perm es')
    (hnodup : (es.map fun e => (e.id, e.source, e.publisherId, e.approvalFingerprint)).Nodup) :
    sortStateEntries es = sortStateEntries es' := by
  have hle : ∀ l, (sortStateEntries l).Pairwise fun a b => a.key ≤ b.key := fun l => SortOn.pairwise_mergeSort _ l
  have hperm : (sortStateEntries es).Perm (sortStateEntries es') :=
    (List.mergeSort_perm _ _).trans (h.trans (List.mergeSort_perm _ _).symm)
  refine List.Perm.eq_of_pairwise ?_ (hle es) (hle es') hperm
  intro a b ha hb hab hba
  have hkey := le_antisymm hab hba
  unfold PluginStateEntryV2.key at hkey
  simp only [List.cons.injEq, and_true] at hkey
  obtain ⟨hid, hsource, hpub, hfp⟩ := hkey
  refine List.inj_on_of_nodup_map hnodup ((List.mergeSort_perm _ _).mem_iff.1 ha)
    (h.mem_iff.2 ((List.mergeSort_perm _ _).mem_iff.1 hb)) ?_
  simp only [Prod.mk.injEq]
  exact ⟨Subtype.ext hid, text_injective hsource, Subtype.ext hpub, hfp⟩

/-- The disabled decision of a removal can be saved if it fits. -/
theorem removalDisabled_valid (h : state.validate = true)
    (hlen : (removalDisabledCandidate state record).entries.length ≤ maxPluginStateEntries)
    (hbytes : (removalDisabledCandidate state record).byteLength ≤ maxPluginStateBytes) :
    (removalDisabledCandidate state record).validateForPersistence = true := by
  obtain ⟨hfp, hnodup⟩ := decideEntries_valid h record false
  have hperm : (removalDisabledCandidate state record).entries.Perm (decideEntries state.entries record.identity false) :=
    List.mergeSort_perm _ _
  unfold PluginStateFileV2.validateForPersistence
  rw [Bool.and_eq_true, decide_eq_true_eq]
  refine ⟨validate_iff.2 ⟨(validate_iff.1 h).1, hlen, ?_, (hperm.map _).nodup_iff.2 hnodup⟩, hbytes⟩
  intro e he
  exact hfp e (hperm.mem_iff.1 he)

/-- **The decision that an import has measured** is the one it saves. -/
theorem nextDecision_of_candidate (h : state.validate = true) (hnext : importDisabledCandidate state record = .ok next)
    (hv : next.validateForPersistence = true) (rewrite : Bool) :
    nextDecision state rewrite record false = .ok none ∨ nextDecision state rewrite record false = .ok (some next) := by
  have hsort : sortStateEntries (decideEntries (sortStateEntries state.entries) record.identity false) =
      sortStateEntries (decideEntries state.entries record.identity false) := by
    have hperm := decideEntries_perm (List.mergeSort_perm state.entries fun a b => decide (a.key ≤ b.key)) record.identity false
    refine sortStateEntries_perm hperm ((hperm.map _).nodup_iff.2 (decideEntries_valid h record false).2)
  have hlen : (decideEntries (sortStateEntries state.entries) record.identity false).length =
      (decideEntries state.entries record.identity false).length :=
    (decideEntries_perm (List.mergeSort_perm _ _) record.identity false).length_eq
  unfold importDisabledCandidate at hnext
  simp only [bind_eq_ok, ensure_eq_ok] at hnext
  obtain ⟨-, hfit, hnext⟩ := hnext
  unfold nextDecision
  simp only [hlen, hsort]
  rw [ensure_of hfit, ok_bind]
  split
  · exact .inl rfl
  · right
    split at hnext
    · rename_i hchange
      simp only [bind_eq_ok, ensure_eq_ok, pure_eq_ok] at hnext
      obtain ⟨-, hrev, rfl⟩ := hnext
      rw [if_pos hchange, ensure_of hrev]
      simp only [ok_bind, pure_bind]
      rw [ensure_of hv]
      rfl
    · rename_i hsame
      rw [pure_eq_ok] at hnext
      subst hnext
      rw [if_neg hsame]
      simp only [pure_bind]
      rw [ensure_of hv]
      rfl

end Decisions

/-! ## Admissions -/

/-- What `validate_managed_import` has reserved. -/
structure Reserved (index : ManagedOwnershipIndexV1) (state : PluginStateFileV2) (record : PluginRecord) : Prop where
  local' : record.source = .localDeclarative
  entries : index.entries.length < maxManagedOwnershipEntries
  revision : index.revision + 1 ≤ maxRevision
  size : ∀ e : ManagedOwnershipEntryV1, e.lifecycle = .managed → e.pluginId = record.identity.id →
    e.source = record.identity.source → e.publisherId = record.identity.publisherId →
    e.approvalFingerprint = record.identity.approvalFingerprint →
    index.byteLength + e.byteLength + (if index.entries.isEmpty then 0 else 1) + 1 ≤ maxManagedOwnershipBytes
  decision : ∃ next, importDisabledCandidate state record = .ok next ∧ next.validateForPersistence = true

/-- An index with one entry, next to the empty one. -/
theorem empty_register {e : ManagedOwnershipEntryV1} {i : ManagedOwnershipIndexV1} (h : ManagedOwnershipIndexV1.empty.register e = .ok i) :
    i.byteLength = ManagedOwnershipIndexV1.empty.byteLength + e.byteLength := by
  have hsort : [e].mergeSort (fun a b => decide (a.receiptId ≤ b.receiptId)) = [e] := List.mergeSort_singleton _
  unfold ManagedOwnershipIndexV1.register ManagedOwnershipIndexV1.finishChanged ManagedOwnershipIndexV1.empty at h
  simp only [List.contains_nil, Bool.false_eq_true, if_false, List.nil_append, hsort, bind_eq_ok, List.cons_ne_nil,
    ensure_eq_ok, pure_eq_ok] at h
  obtain ⟨-, -, -, -, rfl⟩ := h
  have h0 : (Nat.toDigits 10 0).length = 1 := by decide
  have h1 : (Nat.toDigits 10 (0 + 1)).length = 1 := by decide
  unfold ManagedOwnershipIndexV1.byteLength ManagedOwnershipIndexV1.empty
  simp only [h0, h1, List.map_cons, List.map_nil, List.sum_cons, List.sum_nil, List.length_cons, List.length_nil]
  omega

theorem sizingEntry_some {receipt : OwnershipReceiptV1} {record : PluginRecord} {e : ManagedOwnershipEntryV1}
    (h : sizingEntry receipt record = some e) : e.lifecycle = .managed ∧ e.pluginId = record.identity.id ∧
      e.source = record.identity.source ∧ e.publisherId = record.identity.publisherId ∧
      e.approvalFingerprint = record.identity.approvalFingerprint := by
  unfold sizingEntry ManagedOwnershipEntryV1.make at h
  dsimp only at h
  split at h
  · cases h
    exact ⟨rfl, rfl, rfl, rfl, rfl⟩
  · cases h

theorem reserveImport_ok {index : ManagedOwnershipIndexV1} {state : PluginStateFileV2} {record : PluginRecord}
    {usage : ScanUsage} (h : reserveImport index state record usage = .ok ()) : Reserved index state record := by
  unfold reserveImport at h
  simp only [bind_eq_ok, ensure_eq_ok, okOr_eq_ok, mapError_eq_ok] at h
  obtain ⟨-, hlen, -, hrev, receipt, hreceipt, -, -, -, -, e, he, registered, hreg, grown, hgrown, current, hcurrent, -,
    hsize, next, hnext, hv⟩ := h
  have hlocal : record.source = .localDeclarative := by
    unfold sizingReceipt OwnershipReceiptV1.make at hreceipt
    split at hreceipt
    · assumption
    · cases hreceipt
  refine ⟨hlocal, hlen, hrev, ?_, next, hnext, hv⟩
  intro x hm hid hsource hpub hfp
  obtain ⟨hm', hid', hsource', hpub', hfp'⟩ := sizingEntry_some he
  have hwidth : x.byteLength = e.byteLength := byteLength_eq_of_plugin hm hm' (hid.trans hid'.symm)
    (hsource.trans hsource'.symm) (hpub.trans hpub'.symm) (hfp.trans hfp'.symm)
  have hg : grown = ManagedOwnershipIndexV1.empty.byteLength + e.byteLength := by
    rw [← empty_register hreg]
    unfold canonicalLength at hgrown
    split at hgrown
    · exact (Option.some.inj hgrown).symm
    · cases hgrown
  have hc : current = index.byteLength := by
    unfold canonicalLength at hcurrent
    split at hcurrent
    · exact (Option.some.inj hcurrent).symm
    · cases hcurrent
  rw [hwidth]
  omega

theorem validateManagedImport_ok {r : PluginRegistry} {record : PluginRecord} {usage : ScanUsage} {expected : String}
    (h : r.validateManagedImport record usage expected = .ok ()) :
    r.removalAuthorityUnreconciled = false ∧ ∃ index state rewrite, r.publication.ownership = .available index false ∧
      r.publication.runtime = .available state rewrite ∧ Reserved index state record := by
  unfold validateManagedImport at h
  simp only [bind_eq_ok] at h
  obtain ⟨_, -, _, himport, h⟩ := h
  have hflag : r.removalAuthorityUnreconciled = false := by
    unfold validateImport at himport
    simp only [bind_eq_ok, ensure_eq_ok] at himport
    exact himport.choose_spec.1
  refine ⟨hflag, ?_⟩
  split at h
  · rename_i index state rewrite hown hrt
    simp only [bind_eq_ok] at h
    obtain ⟨-, -, h⟩ := h
    exact ⟨index, state, rewrite, hown, hrt, reserveImport_ok h⟩
  · cases h

/-! ## The documents of a registry -/

/-- Both documents pass the checks of their stores. -/
structure Sound (r : PluginRegistry) : Prop where
  state : ∀ state rewrite, r.publication.runtime = .available state rewrite → state.validate = true
  index : ∀ index rewrite, r.publication.ownership = .available index rewrite → index.Valid

section Sound

variable {r l c : PluginRegistry}

theorem Sound.congr (h : Sound r) (hrt : l.publication.runtime = r.publication.runtime)
    (hown : l.publication.ownership = r.publication.ownership) : Sound l :=
  ⟨fun state rewrite hl => h.state state rewrite (hrt.symm.trans hl),
    fun index rewrite hl => h.index index rewrite (hown.symm.trans hl)⟩

theorem publishCandidate_documents {next : CatalogPublicationCandidate} {first changed : Bool}
    (h : r.publishCandidate next first = .ok (changed, l)) :
    l.publication.runtime = next.runtime ∧ l.publication.ownership = next.ownership := by
  rcases publishCandidate_ok h with ⟨-, -, rfl⟩ | ⟨-, rfl⟩
  · exact ⟨rfl, rfl⟩
  · exact ⟨rfl, rfl⟩

theorem loadState_valid {runtime : Runtime} (h : ∀ state rewrite, runtime = .available state rewrite → state.validate = true)
    (load : Option (AppResult PluginStateLoad)) {state : PluginStateFileV2} {rewrite : Bool}
    (hl : (loadStateIfNeeded runtime load).2 = .available state rewrite) : state.validate = true := by
  rcases loadState_cases runtime load with hc | ⟨-, loaded, -, hv, hc⟩
  · exact h state rewrite (hc.symm.trans hl)
  · rw [hc] at hl
    cases hl
    exact hv

theorem initialized_valid {load : AppResult ManagedOwnershipLoad} {index : ManagedOwnershipIndexV1} {rewrite : Bool}
    (h : OwnershipRuntime.initialized load = .available index rewrite) : index.Valid := by
  unfold OwnershipRuntime.initialized at h
  split at h
  · split at h
    · rename_i hv
      cases h
      exact ManagedOwnershipIndexV1.valid_iff.1 hv
    · cases h
  · cases h

theorem sound_initialized (builtins : List (Option BuiltInRecord)) (stateLoad : AppResult PluginStateLoad)
    (indexLoad : AppResult ManagedOwnershipLoad) : Sound (initialized builtins stateLoad indexLoad) where
  state state rewrite h := by
    unfold initialized at h
    dsimp only at h
    split at h
    · cases h
    · unfold loadedState at h
      split at h
      · split at h
        · rename_i hv
          cases h
          exact hv
        · cases h
      · cases h
  index index rewrite h := initialized_valid h

theorem Sound.scan (hr : Sound r) (scan : Scan) : Sound (r.applyLocalDiscovery scan).2 := by
  rcases applyLocalDiscovery_cases (r := r) scan with ⟨-, h⟩ | ⟨changed, r', flag, hp, h, -⟩
  · rw [h]
    exact hr
  · obtain ⟨hrt, hown⟩ := publishCandidate_documents hp
    rw [h]
    constructor
    · intro state rewrite hl
      exact loadState_valid hr.state scan.stateLoad (hrt.symm.trans hl)
    · intro index rewrite hl
      have hrec : (r.reconciliation scan).runtime = .available index rewrite := hown.symm.trans hl
      exact OwnershipRuntime.reconcileLoaded_valid (fun i rewrite hi => initialized_valid hi) scan.index hrec

theorem Sound.retry (hr : Sound r) (load : Option (AppResult PluginStateLoad)) : Sound (r.retryStateLoad load) := by
  unfold retryStateLoad
  have hv : ∀ state rewrite, (loadStateIfNeeded r.publication.runtime load).2 = .available state rewrite →
      state.validate = true := fun _ _ => loadState_valid hr.state load
  cases hl : loadStateIfNeeded r.publication.runtime load with
  | mk retry runtime =>
    rw [hl] at hv
    cases retry with
    | error e => exact hr
    | ok u =>
      dsimp only
      cases hp : r.publishCandidate { r.publication with runtime } false with
      | error e => exact hr
      | ok pair =>
        obtain ⟨changed, r'⟩ := pair
        obtain ⟨hrt, hown⟩ := publishCandidate_documents hp
        exact ⟨fun state rewrite h => hv state rewrite (hrt.symm.trans h),
          fun index rewrite h => hr.index index rewrite (hown.symm.trans h)⟩

theorem Sound.decision (hr : Sound r) (record : PluginRecord) (enabled : Bool) (save : Option PersistResult) :
    Sound (r.persistDecisionWithOutcome record enabled save).2 := by
  rcases persistDecision_cases (r := r) record enabled save with h | ⟨state, rewrite, next, result, -, -, hd, -, -, h⟩
  · rw [h]
    exact hr
  · rw [h]
    have hv := (nextDecision_some hd).1
    unfold PluginStateFileV2.validateForPersistence at hv
    rw [Bool.and_eq_true] at hv
    constructor
    · intro state rewrite hl
      cases hl
      exact hv.1
    · exact hr.index

theorem Sound.setEnabled (hr : Sound r) (id : String) (enabled : Bool) (expected : String) (save : Option PersistResult) :
    Sound (r.setEnabled id enabled expected save).2 := by
  rcases setEnabled_cases (r := r) id enabled expected with h | ⟨record, h⟩
  · rw [h]
    exact hr
  · rw [(h save).1]
    exact hr.decision record enabled save

theorem Sound.importDisabled (hr : Sound r) (record : PluginRecord) (save : Option PersistResult) :
    Sound (r.persistImportDisabled record save).2 ∧
      (r.persistImportDisabled record save).2.publication.ownership = r.publication.ownership := by
  unfold persistImportDisabled
  split
  · exact ⟨hr, rfl⟩
  · refine ⟨hr.decision record false save, ?_⟩
    rcases persistDecision_cases (r := r) record false save with h | ⟨_, _, _, _, -, -, -, -, -, h⟩
    · rw [h]
    · rw [h]
      rfl

/-- A change of the index that keeps it valid. -/
theorem Sound.mutate (hr : Sound r) {mutation : ManagedOwnershipIndexV1 → Except OwnershipFailure ManagedOwnershipIndexV1}
    (hm : ∀ i rewrite j, r.publication.ownership = .available i rewrite → mutation i = .ok j → j.Valid) (save : PersistResult) :
    Sound (r.mutateRemovalIndex mutation save).2 := by
  unfold mutateRemovalIndex
  split
  · exact hr
  · rename_i i rewrite hown
    split
    · exact hr
    · rename_i j hj
      dsimp only
      split
      · refine ⟨hr.state, ?_⟩
        intro index rewrite' h
        cases h
        exact hm i rewrite _ hown hj
      · exact hr

theorem registerManagedImport_cases (entry : ManagedOwnershipEntryV1) (save : Option PersistResult) :
    (r.registerManagedImport entry save).2 = r ∨
    ∃ index next, r.publication.ownership = .available index false ∧ index.register entry = .ok next ∧
      (r.registerManagedImport entry save).2 = r.withOwnership (.available next false) := by
  unfold registerManagedImport
  split
  · rename_i index hown
    cases hreg : index.register entry with
    | error failure => exact .inl rfl
    | ok next =>
      cases save with
      | none => exact .inl rfl
      | some result =>
        by_cases hc : result.outcome.committed = true
        · right
          refine ⟨index, next, hown, hreg, ?_⟩
          simp only [hc, if_true]
          split
          · split <;> rfl
          · rfl
        · left
          simp only [hc, Bool.false_eq_true, if_false]
          split
          · split <;> rfl
          · rfl
  · exact .inl rfl

/-- The entry that a package proves has the fields of its record. -/
theorem fields_of_proves {e : ManagedOwnershipEntryV1} {p : DiscoveredLocalPlugin} (h : e.provesManaged p = true) :
    e.lifecycle = .managed ∧ e.pluginId = p.record.identity.id ∧ e.source = p.record.identity.source ∧
      e.publisherId = p.record.identity.publisherId ∧ e.approvalFingerprint = p.record.identity.approvalFingerprint := by
  unfold ManagedOwnershipEntryV1.provesManaged ManagedOwnershipEntryV1.matchesPackage ManagedOwnershipEntryV1.matchesReceipt
    OwnershipReceiptV1.matchesRecord at h
  simp only [Bool.and_eq_true, Option.any_eq_true, decide_eq_true_eq] at h
  obtain ⟨hnone, receipt, -, ⟨⟨⟨-, -, h1, h2, h3, h4, -⟩, -⟩, h5, h6, h7, h8⟩⟩ := h
  refine ⟨?_, h1.trans h6, h2.trans h5, h3.trans h7, h4.trans h8⟩
  unfold ManagedOwnershipEntryV1.removalSlot at hnone
  cases hl : e.lifecycle with
  | managed => rfl
  | removing slot =>
    rw [hl] at hnone
    cases hnone

/-- What an import keeps of its copy between the admission and the registration. -/
structure Admitted (record : PluginRecord) (r : PluginRegistry) : Prop where
  sound : Sound r
  reserved : ∀ index, r.publication.ownership = .available index false → ∃ state, Reserved index state record

theorem importKeeps (script : ImportScript) (hr : Sound r) : script.Keeps r Sound (Admitted script.record) where
  scanned c changed h := by
    have := hr.scan script.prescan
    rw [h] at this
    exact this
  admitted c usage hc _ h := by
    refine ⟨hc, ?_⟩
    obtain ⟨-, index, state, rewrite, hown, -, hres⟩ := validateManagedImport_ok h
    intro index' hown'
    rw [hown] at hown'
    cases hown'
    exact ⟨state, hres⟩
  decided c hc := by
    obtain ⟨hs, hown⟩ := hc.sound.importDisabled script.record script.stateSave
    exact ⟨hs, fun index h => hc.reserved index (hown.symm.trans h)⟩
  started c hc := hc.sound
  registered c proof hc _ hproof := by
    rcases registerManagedImport_cases (r := c) proof.entry script.indexSave with h | ⟨index, next, hown, hreg, h⟩
    · rw [h]
      exact hc.sound
    · rw [h]
      obtain ⟨state, hres⟩ := hc.reserved index hown
      obtain ⟨h1, h2, h3, h4, h5⟩ := fields_of_proves hproof
      have hv := (hc.sound.index index false hown).register_ok (hres.size proof.entry h1 h2 h3 h4 h5) hreg
      refine ⟨hc.sound.state, ?_⟩
      intro index' rewrite h'
      cases h'
      exact hv
  rescanned c c' changed hc h := by
    have := hc.scan script.postscan
    rw [h] at this
    exact this
  adopted l c _ hc := ⟨hc.state, hc.index⟩
  published l c l' _ hc h := by
    unfold publishImportCandidate at h
    rw [bind_eq_ok] at h
    obtain ⟨⟨changed, r'⟩, hp, h⟩ := h
    rw [pure_eq_ok] at h
    subst h
    obtain ⟨hrt, hown⟩ := publishCandidate_documents hp
    exact hc.congr hrt hown

theorem Sound.rebuilt (hc : Sound c) (outcome : LocalDiscoveryOutcome)
    (h : (c.buildReconciledCandidate outcome).publishCandidateOnce r = .ok l) : Sound l := by
  unfold publishCandidateOnce at h
  rw [bind_eq_ok] at h
  obtain ⟨⟨changed, r'⟩, hp, h⟩ := h
  rw [pure_eq_ok] at h
  subst h
  obtain ⟨hrt, hown⟩ := publishCandidate_documents hp
  constructor
  · intro state rewrite h
    exact hc.state state rewrite (hrt.symm.trans h)
  · intro index rewrite h
    exact OwnershipRuntime.reconcileLoaded_valid hc.index noStore (hown.symm.trans h)

/-- The managed entry that the preflight has found. -/
theorem Preflighted.split {id : PluginId} {preflight : RemovalPreflight} {state : PluginStateFileV2} {rewrite : Bool}
    {index : ManagedOwnershipIndexV1} {package : DiscoveredLocalPlugin}
    (h : Preflighted r id preflight state rewrite index package) :
    preflight.entry.lifecycle = .managed ∧ ∃ a b, index.entries = a ++ preflight.entry :: b := by
  have hp : preflight.entry.provesManaged package = true := by simpa using List.find?_some h.entry
  exact ⟨(fields_of_proves hp).1, List.append_of_mem (List.mem_of_find?_eq_some h.entry)⟩

theorem removalKeeps (script : RemovalScript) (hr : Sound r) {id : PluginId} {preflight : RemovalPreflight}
    {slot : RemovalSlot} (hp : r.preflightRemoval id script.generation = .ok preflight) :
    script.Keeps r preflight slot Sound (fun c => Sound c ∧ c.publication.ownership = r.publication.ownership) Sound Sound := by
  obtain ⟨state, rewrite, index, package, hpre⟩ := preflightRemoval_ok hp
  obtain ⟨hlen, hbytes, hcap, -, -, hrev⟩ := reserveRemoval_ok hpre.reserved
  obtain ⟨hm, a, b, hsplit⟩ := hpre.split
  have hindex := hr.index index false hpre.ownership
  have hstate := hr.state state rewrite hpre.runtime
  refine ⟨?_, ?_, ?_, ?_, fun c h => h.1, fun c h => h, fun l c _ hc => ⟨hc.state, hc.index⟩, ?_, ?_⟩
  · intro answer _
    unfold persistDisabledBeforeRemoval
    rw [hpre.runtime]
    dsimp only
    split
    · refine ⟨⟨?_, hr.index⟩, rfl⟩
      intro state' rewrite' h
      cases h
      have hv := removalDisabled_valid hstate hlen hbytes
      unfold PluginStateFileV2.validateForPersistence at hv
      rw [Bool.and_eq_true] at hv
      exact hv.1
    · exact ⟨hr, rfl⟩
  · rintro c answer ⟨hc, hown⟩ _
    refine hc.mutate ?_ answer
    intro i rewrite' j hi hj
    rw [hown, hpre.ownership] at hi
    cases hi
    exact hindex.beginRemoval_ok hsplit hm hrev hcap hj
  · intro c answer hc _
    exact hc.mutate (fun i rewrite' j hi hj => (hc.index i rewrite' hi).restoreManaged_ok hj) answer
  · intro c answer hc _
    exact hc.mutate (fun i rewrite' j hi hj => (hc.index i rewrite' hi).remove_ok hj) answer
  · intro c l hc h
    exact hc.rebuilt _ h
  · intro c l outcome cleanup hc _ _ _ _ h
    exact hc.rebuilt _ h

/-- **Every call keeps both documents sound.** -/
theorem Sound.step (hr : Sound r) (call : RegistryCall) : Sound (r.step call) := by
  cases call with
  | applyLocalDiscovery scan panics =>
    cases panics with
    | true => exact hr
    | false => exact hr.scan scan
  | retryStateLoad load => exact hr.retry load
  | setEnabled id enabled expected save => exact hr.setEnabled id enabled expected save
  | commitImport script => exact (importKeeps script hr).run hr
  | removeManagedLocalPlugin script =>
    exact RemovalScript.run_keeps hr fun hid preflight slot hp _ => removalKeeps script hr hp

theorem sound_run (builtins : List (Option BuiltInRecord)) (stateLoad : AppResult PluginStateLoad)
    (indexLoad : AppResult ManagedOwnershipLoad) (calls : List RegistryCall) :
    Sound (Steps.run PluginRegistry.step (initialized builtins stateLoad indexLoad) calls) :=
  Steps.run_inv (I := Sound) (fun _ call h => h.step call) calls _ (sound_initialized builtins stateLoad indexLoad)

end Sound

/-! ## What an admission promises -/

/-- The index is changed and the document that is saved passes the checks of the store. -/
def SavesValid (r : PluginRegistry) (mutation : ManagedOwnershipIndexV1 → Except OwnershipFailure ManagedOwnershipIndexV1) : Prop :=
  ∃ index rewrite next, r.publication.ownership = .available index rewrite ∧ mutation index = .ok next ∧
    next.validateForPersistence = .ok ()

theorem SavesValid.answer {r : PluginRegistry}
    {mutation : ManagedOwnershipIndexV1 → Except OwnershipFailure ManagedOwnershipIndexV1} (h : SavesValid r mutation)
    (save : PersistResult) : (r.mutateRemovalIndex mutation save).1 = save := by
  obtain ⟨index, rewrite, next, hown, hnext, -⟩ := h
  unfold mutateRemovalIndex
  rw [hown]
  dsimp only
  rw [hnext]

/-- After an accepted import both documents are written, unless a save fails. -/
structure ImportSaves (r : PluginRegistry) (record : PluginRecord) (e : ManagedOwnershipEntryV1) : Prop where
  index : SavesValid r fun index => index.register e
  registers : ∀ outcome : PersistOutcome, outcome.committed = true →
    (r.registerManagedImport e (some (.ok outcome))).1 = some (.ok outcome)
  state : ∀ state rewrite next, r.publication.runtime = .available state rewrite →
    nextDecision state rewrite record false = .ok (some next) → next.validateForPersistence = true
  disables : ∀ (save : Option PersistResult) (outcome : PersistOutcome), outcome.committed = true →
    ((r.registerManagedImport e save).2.persistImportDisabled record (some (.ok outcome))).1 = some (.ok ())

/-- In an accepted removal every step answers what its save has answered. -/
structure RemovalSaves (r : PluginRegistry) (preflight : RemovalPreflight) (slot : RemovalSlot) : Prop where
  state : ∀ state rewrite, r.publication.runtime = .available state rewrite →
    (removalDisabledCandidate state preflight.record).validateForPersistence = true
  disables : ∀ windows save,
    (r.persistDisabledBeforeRemoval windows preflight.record save).1 = saveBeforeDestructiveRename windows save
  marks : ∀ windows save save',
    let c := (r.persistDisabledBeforeRemoval windows preflight.record save).2
    SavesValid c (fun index => index.beginRemoval preflight.entry.receiptId slot) ∧
      (c.persistRemoving preflight.entry.receiptId slot save').1 = save'
  restores : ∀ windows save save' answer,
    let c := ((r.persistDisabledBeforeRemoval windows preflight.record save).2.persistRemoving
      preflight.entry.receiptId slot save').2
    SavesValid c (fun index => index.restoreManaged preflight.entry.receiptId) ∧
      (c.rollbackRemoving preflight.entry.receiptId answer).1 = answer
  deletes : ∀ windows save save' answer,
    let c := ((r.persistDisabledBeforeRemoval windows preflight.record save).2.persistRemoving
      preflight.entry.receiptId slot save').2
    SavesValid c (fun index => index.remove preflight.entry.receiptId) ∧
      (c.deleteRemovedEntry preflight.entry.receiptId answer).1 = answer

section Promise

variable {r : PluginRegistry}

theorem make_fields {receipt : OwnershipReceiptV1} {record : PluginRecord} {e : ManagedOwnershipEntryV1} {digest : ℕ}
    {file directory manifest : FileIdentity}
    (h : ManagedOwnershipEntryV1.make ⟨receipt, digest, file⟩ record directory manifest = some e) :
    e.valid = true ∧ e.lifecycle = .managed ∧ e.pluginId = record.identity.id ∧ e.source = record.identity.source ∧
      e.publisherId = record.identity.publisherId ∧ e.approvalFingerprint = record.identity.approvalFingerprint := by
  unfold ManagedOwnershipEntryV1.make at h
  dsimp only at h
  split at h
  · rename_i hv
    rw [Bool.and_eq_true] at hv
    cases h
    exact ⟨hv.2, rfl, rfl, rfl, rfl, rfl⟩
  · cases h

/-- **Imports.** The missing check is that of the index for the plugin. -/
theorem importSaves_iff (hr : Sound r) {record : PluginRecord} {usage : ScanUsage} {expected : String}
    (h : r.validateManagedImport record usage expected = .ok ()) {e : ManagedOwnershipEntryV1} (hv : e.valid = true)
    (hm : e.lifecycle = .managed) (hid : e.pluginId = record.identity.id) (hsource : e.source = record.identity.source)
    (hpub : e.publisherId = record.identity.publisherId)
    (hfp : e.approvalFingerprint = record.identity.approvalFingerprint)
    (hfresh : ∀ index rewrite, r.publication.ownership = .available index rewrite → index.Fresh e) :
    ImportSaves r record e ↔ ∀ index rewrite, r.publication.ownership = .available index rewrite →
      ∀ x ∈ index.entries, x.pluginId ≠ record.manifest.id := by
  obtain ⟨hflag, index, state, rewrite, hown, hrt, hres⟩ := validateManagedImport_ok h
  have hindex := hr.index index false hown
  have hf := hfresh index false hown
  constructor
  · rintro ⟨⟨index', rewrite', next, hown', hreg, -⟩, -, -, -⟩ i rw' hi x hx hplugin
    rw [hown] at hown' hi
    cases hown'
    cases hi
    -- an entry of the plugin is in the way of the registration:
    have hne : e ∉ index.entries := fun hmem => hf.receipt e hmem rfl
    have hxs : x.source = .localDeclarative := by
      have := hindex.entries x hx
      unfold ManagedOwnershipEntryV1.valid at this
      rw [Bool.and_eq_true, decide_eq_true_eq] at this
      exact this.1
    have hpair : (x.pluginId, x.source) = (e.pluginId, e.source) := by
      rw [hplugin, hxs, hid, hsource]
      exact congrArg (Prod.mk _) hres.local'.symm
    obtain ⟨failure, hbad⟩ := ManagedOwnershipIndexV1.register_refused hx hne hpair
    have hboth : Except.ok next = Except.error failure := hreg.symm.trans hbad
    cases hboth
  · intro hfree
    have hnone : e.removalSlot = none := by
      unfold ManagedOwnershipEntryV1.removalSlot
      rw [hm]
    -- the rest was checked at admission:
    obtain ⟨next, hreg, hnext⟩ := hindex.registered hf hv hnone (fun x hx => hid ▸ hfree index false hown x hx)
      hres.entries hres.revision (hres.size e hm hid hsource hpub hfp)
    obtain ⟨decision, hdec, hvalid⟩ := hres.decision
    have hcases := nextDecision_of_candidate (hr.state state rewrite hrt) hdec hvalid rewrite
    refine ⟨⟨index, false, next, hown, hreg, ManagedOwnershipIndexV1.valid_iff.2 hnext⟩, ?_, ?_, ?_⟩
    · intro outcome hc
      unfold registerManagedImport
      rw [hown]
      dsimp only
      rw [hreg]
      dsimp only
      rw [if_pos hc]
    · intro state' rewrite' next' hrt' hd
      rw [hrt] at hrt'
      cases hrt'
      exact (nextDecision_some hd).1
    · -- the decision is saved over the registered index:
      intro save outcome hc
      have hkeep : (r.registerManagedImport e save).2.publication.runtime = .available state rewrite ∧
          (r.registerManagedImport e save).2.removalAuthorityUnreconciled = false := by
        rcases registerManagedImport_cases (r := r) e save with h' | ⟨_, _, -, -, h'⟩
        · rw [h']
          exact ⟨hrt, hflag⟩
        · rw [h']
          exact ⟨hrt, hflag⟩
      unfold persistImportDisabled
      rw [if_neg (by rw [hkeep.1, hres.local']; simp)]
      unfold persistDecisionWithOutcome
      rw [hkeep.1, hkeep.2, if_neg Bool.false_ne_true]
      rcases hcases with hd | hd
      · simp only [hd]
      · simp only [hd, hc, if_true]

/-- **Removals.** Every step of an accepted one can be saved. -/
theorem removalSaves (hr : Sound r) {id : PluginId} {expected : String} {preflight : RemovalPreflight}
    (h : r.preflightRemoval id expected = .ok preflight) {slot : RemovalSlot}
    (hslot : ∀ index rewrite, r.publication.ownership = .available index rewrite →
      ∀ x ∈ index.entries, x.removalSlot ≠ some slot) : RemovalSaves r preflight slot := by
  obtain ⟨state, rewrite, index, package, hpre⟩ := preflightRemoval_ok h
  obtain ⟨hlen, hbytes, hcap, -, -, hrev⟩ := reserveRemoval_ok hpre.reserved
  obtain ⟨hm, a, b, hsplit⟩ := hpre.split
  have hindex := hr.index index false hpre.ownership
  have hfree := hslot index false hpre.ownership
  have hdis : ∀ windows save, (r.persistDisabledBeforeRemoval windows preflight.record save).2.publication.ownership =
      .available index false := by
    intro windows save
    unfold persistDisabledBeforeRemoval
    rw [hpre.runtime]
    dsimp only
    split
    · exact hpre.ownership
    · exact hpre.ownership
  have hmark : ∀ windows save, SavesValid (r.persistDisabledBeforeRemoval windows preflight.record save).2
      (fun index => index.beginRemoval preflight.entry.receiptId slot) := fun windows save =>
    ⟨index, false, _, hdis windows save, ManagedOwnershipIndexV1.beginRemoval_split hindex hsplit hm hrev hcap hfree,
      ManagedOwnershipIndexV1.valid_iff.2 (hindex.begun hsplit hm hrev hcap hfree)⟩
  -- after the mark the index is the one before it or the marked one
  have hafter : ∀ windows save save', ∃ j rewrite,
      ((r.persistDisabledBeforeRemoval windows preflight.record save).2.persistRemoving
        preflight.entry.receiptId slot save').2.publication.ownership = .available j rewrite ∧
      (j = index ∨ index.beginRemoval preflight.entry.receiptId slot = .ok j) := by
    intro windows save save'
    unfold persistRemoving mutateRemovalIndex
    rw [hdis windows save]
    dsimp only
    rw [ManagedOwnershipIndexV1.beginRemoval_split hindex hsplit hm hrev hcap hfree]
    dsimp only
    split
    · exact ⟨_, _, rfl, .inr rfl⟩
    · exact ⟨_, _, hdis windows save, .inl rfl⟩
  have hends : ∀ windows save save',
      SavesValid ((r.persistDisabledBeforeRemoval windows preflight.record save).2.persistRemoving
        preflight.entry.receiptId slot save').2 (fun index => index.restoreManaged preflight.entry.receiptId) ∧
      SavesValid ((r.persistDisabledBeforeRemoval windows preflight.record save).2.persistRemoving
        preflight.entry.receiptId slot save').2 (fun index => index.remove preflight.entry.receiptId) := by
    intro windows save save'
    obtain ⟨j, rewrite', hj, hcase⟩ := hafter windows save save'
    obtain ⟨⟨n1, hn1, hv1⟩, n2, hn2, hv2⟩ := ManagedOwnershipIndexV1.removal_ends hindex hsplit hm hrev hcap hfree hcase
    exact ⟨⟨j, rewrite', n1, hj, hn1, ManagedOwnershipIndexV1.valid_iff.2 hv1⟩,
      ⟨j, rewrite', n2, hj, hn2, ManagedOwnershipIndexV1.valid_iff.2 hv2⟩⟩
  refine ⟨?_, ?_, ?_, ?_, ?_⟩
  · intro state' rewrite' hrt
    rw [hpre.runtime] at hrt
    cases hrt
    exact removalDisabled_valid (hr.state state rewrite hpre.runtime) hlen hbytes
  · intro windows save
    unfold persistDisabledBeforeRemoval
    rw [hpre.runtime]
  · intro windows save save'
    exact ⟨hmark windows save, (hmark windows save).answer save'⟩
  · intro windows save save' answer
    have hs := (hends windows save save').1
    exact ⟨hs, hs.answer answer⟩
  · intro windows save save' answer
    have hs := (hends windows save save').2
    exact ⟨hs, hs.answer answer⟩

end Promise

/-- **Admission.** In every registry that calls lead to: an accepted import is registered and disabled unless a save
fails, iff the index has no entry of the plugin; an accepted removal fails only where a save does. -/
theorem admission_sufficient (builtins : List (Option BuiltInRecord)) (stateLoad : AppResult PluginStateLoad)
    (indexLoad : AppResult ManagedOwnershipLoad) (calls : List RegistryCall) :
    let r := Steps.run PluginRegistry.step (initialized builtins stateLoad indexLoad) calls
    (∀ record usage expected receiptId packageSlot receipt digest file directory manifest e,
      r.validateManagedImport record usage expected = .ok () →
      OwnershipReceiptV1.make receiptId packageSlot record = some receipt →
      ManagedOwnershipEntryV1.make ⟨receipt, digest, file⟩ record directory manifest = some e →
      (∀ index rewrite, r.publication.ownership = .available index rewrite → index.Fresh e) →
      (ImportSaves r record e ↔ ∀ index rewrite, r.publication.ownership = .available index rewrite →
        ∀ x ∈ index.entries, x.pluginId ≠ record.manifest.id)) ∧
    ∀ id expected preflight slot, r.preflightRemoval id expected = .ok preflight →
      (∀ index rewrite, r.publication.ownership = .available index rewrite → ∀ x ∈ index.entries, x.removalSlot ≠ some slot) →
      RemovalSaves r preflight slot := by
  intro r
  have hr : Sound r := sound_run builtins stateLoad indexLoad calls
  constructor
  · intro record usage expected receiptId packageSlot receipt digest file directory manifest e hadm _ hmake hfresh
    obtain ⟨hv, hm, hid, hsource, hpub, hfp⟩ := make_fields hmake
    exact importSaves_iff hr hadm hv hm hid hsource hpub hfp hfresh
  · intro id expected preflight slot h hslot
    exact removalSaves hr h hslot

namespace Sample

/-- Nothing is found but an empty directory in this removal slot. -/
def leftoverScan (slots : List RemovalSlot) (index : ManagedOwnershipIndexV1) : Scan where
  outcome := ⟨[], [], ⟨slots.map fun slot => ⟨slot, ⟨0, 1⟩, none, none, .emptyDirectory⟩, .available, slots, 0⟩, .available,
    some ⟨0, 0, 0⟩⟩
  indexLoad := .ok ⟨index, false⟩
  index := store index
  stateLoad := none

/-- A registry after its first scan, which has found these leftovers. -/
def scannedOnce (slots : List RemovalSlot) (index : ManagedOwnershipIndexV1) : PluginRegistry :=
  Steps.run PluginRegistry.step (initialized [] (.ok ⟨.empty, false, by decide⟩) (.ok ⟨index, false⟩))
    [.applyLocalDiscovery (leftoverScan slots index) false]

/-- A registry after its first scan, which has found the package of its index. -/
def scannedPackage : PluginRegistry :=
  Steps.run PluginRegistry.step (initialized [] (.ok ⟨.empty, false, by decide⟩) (.ok ⟨index .managed, false⟩))
    [.applyLocalDiscovery ⟨outcome .available, .ok ⟨index .managed, false⟩, store (index .managed), none⟩ false]

def newReceipt : ReceiptId := ⟨"11111111111141118111111111111111", by decide +kernel⟩

def newSlot : PackageSlot := ⟨"pkg-11111111111111111111111111111111", by decide +kernel⟩

/-- The entry of the promoted package -/
def newEntry : ManagedOwnershipEntryV1 :=
  { entry .managed with
    receiptId := newReceipt
    packageSlot := newSlot
    directoryIdentity := ⟨0, 4⟩
    manifestIdentity := ⟨0, 5⟩
    receiptIdentity := ⟨0, 6⟩ }

theorem newEntry_fresh (lifecycle : OwnershipLifecycleV1) : (index lifecycle).Fresh newEntry := by
  refine ⟨?_, ?_, ?_, by decide⟩
  · intro x hx
    rw [List.mem_singleton.1 hx]
    show (entry .managed).receiptId ≠ newReceipt
    decide
  · intro x hx
    rw [List.mem_singleton.1 hx]
    show (entry .managed).packageSlot ≠ newSlot
    decide
  · intro x hx
    rw [List.mem_singleton.1 hx]
    show ∀ file ∈ (entry .managed).identities, file ∉ newEntry.identities
    decide

def otherId : PluginId := ⟨"org.other", by decide +kernel⟩

/-- Another plugin -/
def otherRecord : PluginRecord where
  manifest := ⟨1, otherId, otherId, "", []⟩
  source := .localDeclarative
  approvalFingerprint := fingerprint
  valid := record.valid
  builtInSchema := record.builtInSchema

def otherEntry : ManagedOwnershipEntryV1 := { newEntry with pluginId := otherId, publisherId := otherId }

def otherModel : OwnershipReceiptV1 := ⟨1, newReceipt, newSlot, .localDeclarative, otherId, otherId, fingerprint⟩

/-- A registry whose index has a removed package that could not be deleted. -/
def withLeftover : PluginRegistry :=
  scannedOnce [ManagedOwnershipIndexV1.sizingRemovalSlot] (index (.removing ManagedOwnershipIndexV1.sizingRemovalSlot))

theorem withLeftover_ownership :
    withLeftover.publication.ownership = .available (index (.removing ManagedOwnershipIndexV1.sizingRemovalSlot)) false := by
  decide +kernel

end Sample

/-- Another plugin than the removed one is imported. -/
theorem admission_sufficient_sample :
    ImportSaves Sample.withLeftover Sample.otherRecord Sample.otherEntry ∧
    ∃ preflight, Sample.scannedPackage.preflightRemoval Sample.pluginId "1" = .ok preflight ∧
      RemovalSaves Sample.scannedPackage preflight ManagedOwnershipIndexV1.sizingRemovalSlot := by
  constructor
  · refine ((admission_sufficient [] _ _ _).1 Sample.otherRecord ⟨0, 0, 0⟩ "1" Sample.newReceipt Sample.newSlot Sample.otherModel 0
      ⟨0, 6⟩ ⟨0, 4⟩ ⟨0, 5⟩ Sample.otherEntry (by decide +kernel) (by decide +kernel) (by decide +kernel) ?_).2 ?_
    · intro index rewrite h
      cases Sample.withLeftover_ownership.symm.trans h
      have hfresh := Sample.newEntry_fresh (.removing ManagedOwnershipIndexV1.sizingRemovalSlot)
      exact ⟨hfresh.receipt, hfresh.slot, hfresh.identities, hfresh.distinct⟩
    · intro index rewrite h x hx
      cases Sample.withLeftover_ownership.symm.trans h
      rw [List.mem_singleton.1 hx]
      show Sample.pluginId ≠ Sample.otherId
      decide
  · have hown : Sample.scannedPackage.publication.ownership = .available (Sample.index .managed) false := by decide +kernel
    have hok : (Sample.scannedPackage.preflightRemoval Sample.pluginId "1").toOption.isSome = true := by decide +kernel
    cases hp : Sample.scannedPackage.preflightRemoval Sample.pluginId "1" with
    | error failure =>
      rw [hp] at hok
      cases hok
    | ok preflight =>
      refine ⟨preflight, rfl, (admission_sufficient [] _ _ _).2 Sample.pluginId "1" preflight _ hp ?_⟩
      intro index rewrite h
      cases hown.symm.trans h
      decide

/-- A removed package whose last directory could not be deleted: an import of the same plugin is accepted, and its
package is promoted before the index refuses it. -/
theorem admitted_then_refused :
    let r := Sample.scannedOnce [ManagedOwnershipIndexV1.sizingRemovalSlot]
      (Sample.index (.removing ManagedOwnershipIndexV1.sizingRemovalSlot))
    r.validateManagedImport Sample.record ⟨0, 0, 0⟩ "1" = .ok () ∧
    (∃ index, r.publication.ownership = .available index false ∧ index.Fresh Sample.newEntry) ∧
    (∃ failure, (r.registerManagedImport Sample.newEntry (some (.ok .committedDurable))).1 =
      some (.error ⟨failure, .notCommitted⟩)) ∧
    ¬ImportSaves r Sample.record Sample.newEntry := by
  intro r
  have hown : r.publication.ownership =
      .available (Sample.index (.removing ManagedOwnershipIndexV1.sizingRemovalSlot)) false := Sample.withLeftover_ownership
  have hreg : ∃ failure, (r.registerManagedImport Sample.newEntry (some (.ok .committedDurable))).1 =
      some (.error ⟨failure, .notCommitted⟩) := by
    obtain ⟨failure, hbad⟩ := ManagedOwnershipIndexV1.register_refused (e := Sample.newEntry)
      (i := Sample.index (.removing ManagedOwnershipIndexV1.sizingRemovalSlot)) List.mem_cons_self (by decide +kernel) rfl
    refine ⟨failure, ?_⟩
    unfold registerManagedImport
    rw [hown]
    dsimp only
    rw [hbad]
  refine ⟨by decide +kernel, ⟨_, hown, Sample.newEntry_fresh _⟩, hreg, ?_⟩
  intro h
  obtain ⟨failure, hbad⟩ := hreg
  have hgood := h.registers .committedDurable rfl
  rw [hbad] at hgood
  cases hgood

end EasiFlux.Plugin
