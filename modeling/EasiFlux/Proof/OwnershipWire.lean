import EasiFlux.Model.OwnershipWire
import EasiFlux.Proof.Admission

/-!
# The ownership documents as bytes: round trips

What `canonical_bytes` writes is read back by `parse`. The numbers have to be of the types that the
source gives them (`InRange`), which they are in everything that `parse` accepts.

* `OwnershipReceiptV1.parse_canonicalBytes`, `ManagedOwnershipIndexV1.parse_canonicalBytes`
* `size_canonicalDto`, `size_serializeUnchecked`: the lengths the model counts are those of the bytes;
* `byteLength_le`: what `validate` accepts is never too long.
-/

namespace EasiFlux.Plugin

open Results
open JsonText (record string fields fieldsOrElements readText readNat readList readOptional readVariant toBytes fromBytes
  fields_record bind_eq_of readText_string Clean)

/-! ## Numbers -/

theorem parse_formatLowerHex {width n : ℕ} (h : n < 16 ^ width) : parseFixedLowerHex width (formatLowerHex width n) = some n := by
  have hlower : isLowerHexText width (Hex.fixed width n) = true := by
    rw [isLowerHexText, Hex.length_fixed, Bool.and_eq_true, decide_eq_true_eq, List.all_eq_true]
    exact ⟨rfl, Hex.fixed_lower width n⟩
  rw [parseFixedLowerHex, formatLowerHex, String.toList_ofList, if_pos hlower, Hex.num_fixed h]

theorem parseFixedLowerHex_lt {width n : ℕ} {value : String} (h : parseFixedLowerHex width value = some n) : n < 16 ^ width := by
  unfold parseFixedLowerHex at h
  split at h
  · rename_i hlower
    rw [isLowerHexText, Bool.and_eq_true, decide_eq_true_eq, List.all_eq_true] at hlower
    obtain rfl := Option.some.inj h
    have := Hex.num_lt value.toList hlower.2
    rwa [hlower.1] at this
  · cases h

theorem parse_formatDecimalRevision {n : ℕ} (h : n < 2 ^ 64) : parseDecimalRevision (formatDecimalRevision n) = some n := by
  have hnum : DigitStrings.num (Nat.toDigits 10 n) = n := Nat.ofDigitChars_ten_toDigits
  have hdigits : (Nat.toDigits 10 n).all Char.isDigit = true := List.all_eq_true.2 (JsonText.digits_toDigits n)
  have hgood : ¬(Nat.toDigits 10 n = [] ∨ (1 < (Nat.toDigits 10 n).length ∧ (Nat.toDigits 10 n).head? = some '0') ∨
      (Nat.toDigits 10 n).all Char.isDigit = false) := by
    rintro (hempty | hzero | hother)
    · exact Nat.toDigits_ne_nil hempty
    · exact JsonText.toDigits_head n hzero
    · rw [hdigits] at hother
      cases hother
  rw [parseDecimalRevision, formatDecimalRevision, String.toList_ofList, if_neg hgood, hnum, if_pos h]

theorem parseDecimalRevision_lt {n : ℕ} {value : String} (h : parseDecimalRevision value = some n) : n < 2 ^ 64 := by
  unfold parseDecimalRevision at h
  split at h
  · cases h
  · split at h
    · rename_i hsmall
      obtain rfl := Option.some.inj h
      exact hsmall
    · cases h

/-! ## Receipts -/

@[simp] theorem parseReverseDomain_val (id : PluginId) : parseReverseDomain id.1 = some id := dif_pos id.2

@[simp] theorem ReceiptId.parse_val (id : ReceiptId) : ReceiptId.parse id.1 = some id := dif_pos id.2

@[simp] theorem PackageSlot.parse_val (slot : PackageSlot) : PackageSlot.parse slot.1 = some slot := dif_pos slot.2

@[simp] theorem RemovalSlot.parse_val (slot : RemovalSlot) : RemovalSlot.parse slot.1 = some slot := dif_pos slot.2

theorem readVariant_string (text : String) : readVariant (string text) = some text := by
  rw [string, readVariant, String.ofList_toList]

@[simp] theorem PluginSource.read_text (source : PluginSource) : PluginSource.read (string source.text) = some source := by
  rw [PluginSource.read, readVariant_string]
  cases source <;> rfl

@[simp] theorem LifecycleWire.read_text (lifecycle : LifecycleWire) : LifecycleWire.read (string lifecycle.text) = some lifecycle := by
  rw [LifecycleWire.read, readVariant_string]
  cases lifecycle <;> rfl

theorem plain_string (depth : ℕ) (text : String) : JsonText.Plain depth (string text) := .string depth text.toList

namespace OwnershipReceiptV1

variable {receipt : OwnershipReceiptV1}

theorem validate_ok_iff : receipt.validate = .ok () ↔ receipt.schemaVersion = 1 ∧ receipt.source = .localDeclarative ∧
    validLocalFingerprint receipt.approvalFingerprint = true := by
  rw [validate, ensure_eq_ok]

theorem deserialize_canonicalDto (h : receipt.validate = .ok ()) : deserialize receipt.canonicalDto = some receipt := by
  have hschema : receipt.schemaVersion < 2 ^ 32 := by
    rw [(validate_ok_iff.1 h).1]
    decide
  obtain ⟨field, hfields, hfield, -⟩ : ∃ field, fields names receipt.canonicalDto = some field ∧ _ :=
    fields_record (by simp) (by simp [names])
  simp only [List.forall_mem_cons, List.not_mem_nil, false_imp_iff, implies_true, and_true] at hfield
  obtain ⟨h1, h2, h3, h4, h5, h6, h7⟩ := hfield
  have hplugin := bind_eq_of (bind_eq_of h5 (readText_string _)) (parseReverseDomain_val receipt.pluginId)
  have hpublisher := bind_eq_of (bind_eq_of h6 (readText_string _)) (parseReverseDomain_val receipt.publisherId)
  exact bind_eq_of hfields <| bind_eq_of (bind_eq_of h1 (JsonText.readNat_int hschema)) <|
    bind_eq_of (bind_eq_of h2 (readText_string _)) <| bind_eq_of (bind_eq_of h3 (readText_string _)) <|
    bind_eq_of (bind_eq_of h4 (PluginSource.read_text _)) <| bind_eq_of hplugin <| bind_eq_of hpublisher <|
    bind_eq_of (bind_eq_of h7 (readText_string _)) <| bind_eq_of (ReceiptId.parse_val _) <|
    bind_eq_of (PackageSlot.parse_val _) (if_pos h)

theorem plain_canonicalDto (receipt : OwnershipReceiptV1) (h : receipt.validate = .ok ()) :
    JsonText.Plain JsonText.maxDepth receipt.canonicalDto := by
  refine (JsonText.Plain.record ?_ : JsonText.Plain (126 + 1) _)
  simp only [List.forall_mem_cons, List.not_mem_nil, false_imp_iff, implies_true, and_true]
  rw [(validate_ok_iff.1 h).1]
  exact ⟨.int 126 (by decide), plain_string _ _, plain_string _ _, plain_string _ _, plain_string _ _, plain_string _ _,
    plain_string _ _⟩

theorem fromBytes_canonicalDto (h : receipt.validate = .ok ()) :
    fromBytes deserialize (toBytes receipt.canonicalDto) = some receipt := by
  rw [JsonText.fromBytes_toBytes (plain_canonicalDto receipt h), deserialize_canonicalDto h]

end OwnershipReceiptV1

/-! ## Entries -/

/-- Volume and object are a `u64` and a `u128`. -/
def FileIdentity.InRange (identity : FileIdentity) : Prop := identity.volume < 2 ^ 64 ∧ identity.object < 2 ^ 128

namespace FileIdentity

theorem deserialize_canonicalDto {identity : FileIdentity} (h : identity.InRange) :
    deserialize identity.canonicalDto = some identity := by
  obtain ⟨hvolume, hobject⟩ := h
  have hv : identity.volume < 16 ^ 16 := hvolume.trans_le (by norm_num)
  have ho : identity.object < 16 ^ 32 := hobject.trans_le (by norm_num)
  obtain ⟨field, hfields, hfield, -⟩ :
      ∃ field, fieldsOrElements ["volume", "object"] identity.canonicalDto = some field ∧ _ :=
    fields_record (by simp) (by simp)
  simp only [List.forall_mem_cons, List.not_mem_nil, false_imp_iff, implies_true, and_true] at hfield
  obtain ⟨h1, h2⟩ := hfield
  exact bind_eq_of hfields <| bind_eq_of (bind_eq_of h1 (readText_string _)) <| bind_eq_of (bind_eq_of h2 (readText_string _)) <|
    bind_eq_of (parse_formatLowerHex hv) <| bind_eq_of (parse_formatLowerHex ho) rfl

theorem deserialize_inRange {identity : FileIdentity} {v : JsonText.Json} (h : deserialize v = some identity) :
    identity.InRange := by
  simp only [deserialize, Option.bind_eq_bind, Option.bind_eq_some_iff, Option.some.injEq] at h
  obtain ⟨field, -, volume, -, object, -, n, hn, m, hm, rfl⟩ := h
  have hv := parseFixedLowerHex_lt hn
  have ho := parseFixedLowerHex_lt hm
  exact ⟨hv.trans_le (by norm_num), ho.trans_le (by norm_num)⟩

theorem plain_canonicalDto (depth : ℕ) (identity : FileIdentity) : JsonText.Plain (depth + 1) identity.canonicalDto := by
  apply JsonText.Plain.record
  simp only [List.forall_mem_cons, List.not_mem_nil, false_imp_iff, implies_true, and_true]
  exact ⟨plain_string _ _, plain_string _ _⟩

end FileIdentity

namespace ManagedOwnershipEntryV1

/-- The digest has 32 bytes, and the identities are in range. -/
structure InRange (entry : ManagedOwnershipEntryV1) : Prop where
  digest : entry.receiptSha256 < 2 ^ 256
  directory : entry.directoryIdentity.InRange
  manifest : entry.manifestIdentity.InRange
  receipt : entry.receiptIdentity.InRange

variable {entry : ManagedOwnershipEntryV1}

/-- What the wire form of an entry says. -/
def wire (entry : ManagedOwnershipEntryV1) : EntryWireDto where
  receiptId := entry.receiptId.1
  lifecycle := match entry.lifecycle with
    | .managed => .managed
    | .removing _ => .removing
  packageSlot := entry.packageSlot.1
  removalSlot := entry.removalSlot.map Subtype.val
  pluginId := entry.pluginId
  source := entry.source
  publisherId := entry.publisherId
  approvalFingerprint := entry.approvalFingerprint
  receiptSha256 := formatLowerHex 64 entry.receiptSha256
  directoryIdentity := entry.directoryIdentity
  manifestIdentity := entry.manifestIdentity
  receiptIdentity := entry.receiptIdentity

section Fields

variable {v directoryDto manifestDto receiptDto : JsonText.Json} {field : String → Option JsonText.Json}

theorem readWire_of {dto : EntryWireDto} (hfields : fieldsOrElements names v = some field)
    (h1 : field "receiptId" = some (string dto.receiptId)) (h2 : field "lifecycle" = some (string dto.lifecycle.text))
    (h3 : field "packageSlot" = some (string dto.packageSlot))
    (h4 : readOptional readText (field "removalSlot") = some dto.removalSlot)
    (h5 : field "pluginId" = some (string dto.pluginId.1)) (h6 : field "source" = some (string dto.source.text))
    (h7 : field "publisherId" = some (string dto.publisherId.1))
    (h8 : field "approvalFingerprint" = some (string dto.approvalFingerprint))
    (h9 : field "receiptSha256" = some (string dto.receiptSha256)) (h10 : field "directoryIdentity" = some directoryDto)
    (h11 : field "manifestIdentity" = some manifestDto) (h12 : field "receiptIdentity" = some receiptDto)
    (hdirectory : FileIdentity.deserialize directoryDto = some dto.directoryIdentity)
    (hmanifest : FileIdentity.deserialize manifestDto = some dto.manifestIdentity)
    (hreceipt : FileIdentity.deserialize receiptDto = some dto.receiptIdentity) : readWire v = some dto := by
  have hplugin := bind_eq_of (bind_eq_of h5 (readText_string _)) (parseReverseDomain_val dto.pluginId)
  have hpublisher := bind_eq_of (bind_eq_of h7 (readText_string _)) (parseReverseDomain_val dto.publisherId)
  exact bind_eq_of hfields <| bind_eq_of (bind_eq_of h1 (readText_string _)) <|
    bind_eq_of (bind_eq_of h2 (LifecycleWire.read_text _)) <| bind_eq_of (bind_eq_of h3 (readText_string _)) <|
    bind_eq_of h4 <| bind_eq_of hplugin <| bind_eq_of (bind_eq_of h6 (PluginSource.read_text _)) <| bind_eq_of hpublisher <|
    bind_eq_of (bind_eq_of h8 (readText_string _)) <| bind_eq_of (bind_eq_of h9 (readText_string _)) <|
    bind_eq_of (bind_eq_of h10 hdirectory) <| bind_eq_of (bind_eq_of h11 hmanifest) <|
    bind_eq_of (bind_eq_of h12 hreceipt) rfl

end Fields

theorem readWire_canonicalDto (h : entry.InRange) : readWire entry.canonicalDto = some entry.wire := by
  have hdir := FileIdentity.deserialize_canonicalDto h.directory
  have hman := FileIdentity.deserialize_canonicalDto h.manifest
  have hrec := FileIdentity.deserialize_canonicalDto h.receipt
  obtain ⟨receiptId, lifecycle, packageSlot, pluginId, source, publisherId, fingerprint, digest, directory, manifest, receipt⟩ :=
    entry
  dsimp only at hdir hman hrec
  cases lifecycle with
  | managed =>
    obtain ⟨field, hfields, hfield, hmissing⟩ :
        ∃ field, fieldsOrElements names (canonicalDto ⟨receiptId, .managed, packageSlot, pluginId, source, publisherId,
          fingerprint, digest, directory, manifest, receipt⟩) = some field ∧ _ :=
      fields_record (by simp) (by simp [names])
    have h0 : field "removalSlot" = none := hmissing "removalSlot" (by simp)
    simp only [List.append_nil, List.cons_append, List.nil_append, List.forall_mem_cons, List.not_mem_nil, false_imp_iff,
      implies_true, and_true] at hfield
    obtain ⟨h1, h2, h3, h4, h5, h6, h7, h8, h9, h10, h11⟩ := hfield
    exact readWire_of hfields h1 h2 h3 (congrArg (readOptional readText) h0) h4 h5 h6 h7 h8 h9 h10 h11 hdir hman hrec
  | removing removalSlot =>
    obtain ⟨field, hfields, hfield, -⟩ :
        ∃ field, fieldsOrElements names (canonicalDto ⟨receiptId, .removing removalSlot, packageSlot, pluginId, source,
          publisherId, fingerprint, digest, directory, manifest, receipt⟩) = some field ∧ _ :=
      fields_record (by simp) (by simp [names])
    simp only [List.cons_append, List.nil_append, List.forall_mem_cons, List.not_mem_nil, false_imp_iff, implies_true,
      and_true] at hfield
    obtain ⟨h1, h2, h3, h0, h4, h5, h6, h7, h8, h9, h10, h11⟩ := hfield
    exact readWire_of hfields h1 h2 h3 (by rw [h0, readOptional, readText_string]; rfl) h4 h5 h6 h7 h8 h9 h10 h11 hdir hman hrec

theorem tryFrom_wire (h : entry.InRange) (hv : entry.valid = true) : tryFrom entry.wire = some entry := by
  have hdigest : parseFixedLowerHex 64 entry.wire.receiptSha256 = some entry.receiptSha256 :=
    parse_formatLowerHex (h.digest.trans_le (by norm_num))
  have hlifecycle : lifecycleOf entry.wire = some entry.lifecycle := by
    unfold lifecycleOf wire removalSlot
    cases entry.lifecycle with
    | managed => rfl
    | removing slot => simp only [Option.map_some, RemovalSlot.parse_val]
  have hreceipt : ReceiptId.parse entry.wire.receiptId = some entry.receiptId := ReceiptId.parse_val _
  have hslot : PackageSlot.parse entry.wire.packageSlot = some entry.packageSlot := PackageSlot.parse_val _
  simp only [tryFrom, hlifecycle, hdigest, hreceipt, hslot, Option.bind_eq_bind, Option.bind_some]
  exact if_pos hv

theorem deserialize_canonicalDto (h : entry.InRange) (hv : entry.valid = true) :
    deserialize entry.canonicalDto = some entry := by
  rw [deserialize, readWire_canonicalDto h, Option.bind_some, tryFrom_wire h hv]

theorem readWire_inRange {v : JsonText.Json} {dto : EntryWireDto} (h : readWire v = some dto) :
    dto.directoryIdentity.InRange ∧ dto.manifestIdentity.InRange ∧ dto.receiptIdentity.InRange := by
  obtain ⟨field, -, h⟩ := Option.bind_eq_some_iff.1 h
  obtain ⟨_, -, h⟩ := Option.bind_eq_some_iff.1 h
  obtain ⟨_, -, h⟩ := Option.bind_eq_some_iff.1 h
  obtain ⟨_, -, h⟩ := Option.bind_eq_some_iff.1 h
  obtain ⟨_, -, h⟩ := Option.bind_eq_some_iff.1 h
  obtain ⟨_, -, h⟩ := Option.bind_eq_some_iff.1 h
  obtain ⟨_, -, h⟩ := Option.bind_eq_some_iff.1 h
  obtain ⟨_, -, h⟩ := Option.bind_eq_some_iff.1 h
  obtain ⟨_, -, h⟩ := Option.bind_eq_some_iff.1 h
  obtain ⟨_, -, h⟩ := Option.bind_eq_some_iff.1 h
  obtain ⟨directory, hdirectory, h⟩ := Option.bind_eq_some_iff.1 h
  obtain ⟨manifest, hmanifest, h⟩ := Option.bind_eq_some_iff.1 h
  obtain ⟨receipt, hreceipt, h⟩ := Option.bind_eq_some_iff.1 h
  obtain rfl := Option.some.inj h
  obtain ⟨_, -, hdirectory⟩ := Option.bind_eq_some_iff.1 hdirectory
  obtain ⟨_, -, hmanifest⟩ := Option.bind_eq_some_iff.1 hmanifest
  obtain ⟨_, -, hreceipt⟩ := Option.bind_eq_some_iff.1 hreceipt
  exact ⟨FileIdentity.deserialize_inRange hdirectory, FileIdentity.deserialize_inRange hmanifest,
    FileIdentity.deserialize_inRange hreceipt⟩

theorem tryFrom_some {dto : EntryWireDto} (h : tryFrom dto = some entry) :
    entry.receiptSha256 < 2 ^ 256 ∧ entry.directoryIdentity = dto.directoryIdentity ∧
      entry.manifestIdentity = dto.manifestIdentity ∧ entry.receiptIdentity = dto.receiptIdentity := by
  simp only [tryFrom, Option.bind_eq_bind, Option.bind_eq_some_iff] at h
  obtain ⟨_, -, digest, hdigest, _, -, _, -, hentry⟩ := h
  split at hentry
  · obtain rfl := Option.some.inj hentry
    exact ⟨(parseFixedLowerHex_lt hdigest).trans_le (by norm_num), rfl, rfl, rfl⟩
  · cases hentry

theorem deserialize_inRange {v : JsonText.Json} (h : deserialize v = some entry) : entry.InRange := by
  obtain ⟨dto, hwire, hentry⟩ := Option.bind_eq_some_iff.1 h
  obtain ⟨hdirectory, hmanifest, hreceipt⟩ := readWire_inRange hwire
  obtain ⟨hdigest, hd, hm, hr⟩ := tryFrom_some hentry
  exact ⟨hdigest, hd ▸ hdirectory, hm ▸ hmanifest, hr ▸ hreceipt⟩

theorem plain_canonicalDto (depth : ℕ) (entry : ManagedOwnershipEntryV1) : JsonText.Plain (depth + 2) entry.canonicalDto := by
  apply JsonText.Plain.record
  obtain ⟨receiptId, lifecycle, packageSlot, pluginId, source, publisherId, fingerprint, digest, directory, manifest, receipt⟩ :=
    entry
  cases lifecycle <;>
  · simp only [List.append_nil, List.cons_append, List.nil_append, List.forall_mem_cons, List.not_mem_nil, false_imp_iff,
      implies_true, and_true, plain_string, FileIdentity.plain_canonicalDto]

end ManagedOwnershipEntryV1

/-! ## Sizes -/

section Clean

variable {c : Char} {value : String}

/-- Hex digits are written as they are. -/
theorem clean_of_isLowerHex (h : isLowerHex c = true) : Clean c := by
  apply Clean.of_code
  rcases Hex.digit_cases h with hc | hc
  · omega
  · omega

theorem clean_formatLowerHex (width n : ℕ) : ∀ c ∈ (formatLowerHex width n).toList, Clean c := by
  rw [formatLowerHex, String.toList_ofList]
  exact fun c hc => clean_of_isLowerHex (Hex.fixed_lower width n c hc)

theorem clean_formatDecimalRevision (n : ℕ) : ∀ c ∈ (formatDecimalRevision n).toList, Clean c := by
  rw [formatDecimalRevision, String.toList_ofList]
  intro c hc
  have hbounds : 48 ≤ c.toNat ∧ c.toNat ≤ 57 := Char.isDigit_iff_toNat.1 (JsonText.digits_toDigits n c hc)
  exact Clean.of_code (by omega)

theorem clean_of_isLowerHexText {width : ℕ} {text : List Char} (h : isLowerHexText width text = true) : ∀ c ∈ text, Clean c := by
  rw [isLowerHexText, Bool.and_eq_true, List.all_eq_true] at h
  exact fun c hc => clean_of_isLowerHex (h.2 c hc)

/-- So are texts that begin with a fixed one and go on in hex digits. -/
theorem clean_of_prefixed {head : List Char} {n width : ℕ} {text : List Char} (hhead : ∀ c ∈ head, Clean c)
    (htake : (text.take n == head) = true) (hdrop : isLowerHexText width (text.drop n) = true) : ∀ c ∈ text, Clean c := by
  rw [beq_iff_eq] at htake
  intro c hc
  rw [← List.take_append_drop n text, List.mem_append, htake] at hc
  rcases hc with hc | hc
  · exact hhead c hc
  · exact clean_of_isLowerHexText hdrop c hc

theorem ReceiptId.clean (id : ReceiptId) : ∀ c ∈ id.1.toList, Clean c := by
  have h := id.2
  simp only [isUuidV4Simple, Bool.and_eq_true] at h
  exact clean_of_isLowerHexText h.1.1

theorem PackageSlot.clean (slot : PackageSlot) : ∀ c ∈ slot.1.toList, Clean c := by
  have h := slot.2
  simp only [isPrefixedSlot, Bool.and_eq_true] at h
  exact clean_of_prefixed (by decide) h.1 h.2

theorem RemovalSlot.clean (slot : RemovalSlot) : ∀ c ∈ slot.1.toList, Clean c := by
  have h := slot.2
  simp only [isPrefixedSlot, Bool.and_eq_true] at h
  exact clean_of_prefixed (by decide) h.1 h.2

theorem clean_of_validLocalFingerprint (h : validLocalFingerprint value = true) : ∀ c ∈ value.toList, Clean c := by
  rw [validLocalFingerprint, Bool.and_eq_true] at h
  exact clean_of_prefixed (by decide) h.1 h.2

theorem PluginSource.clean (source : PluginSource) : ∀ c ∈ source.text.toList, Clean c := by
  cases source <;> decide

theorem mem_splitOn {sep : Char} {text : List Char} (h : c ∈ text) : c = sep ∨ ∃ segment ∈ text.splitOn sep, c ∈ segment := by
  have hall : ∀ segments : List (List Char), c ∈ [sep].intercalate segments → c = sep ∨ ∃ segment ∈ segments, c ∈ segment := by
    intro segments
    induction segments with
    | nil => simp
    | cons segment segments ih =>
      cases segments with
      | nil => exact fun hc => Or.inr ⟨segment, List.mem_cons_self, by simpa using hc⟩
      | cons next segments =>
        intro hc
        rw [List.intercalate_cons_cons, List.mem_append, List.mem_append, List.mem_singleton] at hc
        rcases hc with (hc | hc) | hc
        · exact Or.inr ⟨segment, List.mem_cons_self, hc⟩
        · exact Or.inl hc
        · obtain hc | ⟨s, hs, hcs⟩ := ih hc
          · exact Or.inl hc
          · exact Or.inr ⟨s, List.mem_cons_of_mem _ hs, hcs⟩
  have htext : [sep].intercalate (text.splitOn sep) = text := List.intercalate_splitOn sep
  rw [← htext] at h
  exact hall _ h

theorem PluginId.clean (id : PluginId) : ∀ c ∈ id.1.toList, Clean c := by
  have h := id.2
  simp only [isReverseDomain, Bool.and_eq_true, List.all_eq_true, Bool.or_eq_true, beq_iff_eq] at h
  intro c hc
  have hsplit : c = '.' ∨ ∃ segment ∈ id.1.toList.splitOn '.', c ∈ segment := mem_splitOn hc
  obtain rfl | ⟨segment, hsegment, hcs⟩ := hsplit
  · decide
  · apply Clean.of_code
    rcases (h.2 segment hsegment).1.1.2 c hcs with (hc | hc) | rfl
    · have : 97 ≤ c.toNat := of_decide_eq_true (Bool.and_eq_true_iff.1 hc).1
      omega
    · have : 48 ≤ c.toNat ∧ c.toNat ≤ 57 := Char.isDigit_iff_toNat.1 hc
      omega
    · decide

theorem PluginId.width (id : PluginId) : id.1.utf8ByteSize ≤ 128 := by
  have h := id.2
  simp only [isReverseDomain, Bool.and_eq_true, decide_eq_true_eq] at h
  exact h.1.1

theorem width_of_validLocalFingerprint (h : validLocalFingerprint value = true) : value.utf8ByteSize = 74 := by
  rw [validLocalFingerprint, isLowerHexText, Bool.and_eq_true, Bool.and_eq_true, beq_iff_eq, decide_eq_true_eq] at h
  have hhead : String.utf8Len "v1:sha256:".toList = 10 := by decide
  rw [utf8ByteSize_eq_utf8Len, ← List.take_append_drop 10 value.toList, String.utf8Len_append, h.1, hhead,
    utf8Len_of_isLowerHex h.2.2, h.2.1]

end Clean

section Sizes

theorem width_formatLowerHex (width n : ℕ) : (formatLowerHex width n).utf8ByteSize = width := by
  apply utf8ByteSize_of_hex
  rw [formatLowerHex, String.toList_ofList, isLowerHexText, Hex.length_fixed, Bool.and_eq_true, decide_eq_true_eq,
    List.all_eq_true]
  exact ⟨rfl, Hex.fixed_lower width n⟩

theorem width_formatDecimalRevision (n : ℕ) : (formatDecimalRevision n).utf8ByteSize = (Nat.toDigits 10 n).length := by
  rw [utf8ByteSize_eq_utf8Len, formatDecimalRevision, String.toList_ofList, JsonText.utf8Len_digits (JsonText.digits_toDigits n)]

theorem FileIdentity.size_canonicalDto (identity : FileIdentity) : JsonText.size identity.canonicalDto = 73 := by
  have hvolume : "volume".utf8ByteSize = 6 := by decide
  have hobject : "object".utf8ByteSize = 6 := by decide
  rw [canonicalDto, JsonText.size_record (by simp only [List.forall_mem_cons]; decide)]
  simp only [List.map_cons, List.map_nil, List.sum_cons, List.sum_nil, JsonText.size_string (clean_formatLowerHex _ _),
    width_formatLowerHex, hvolume, hobject, List.length_cons, List.length_nil]
  rfl

theorem names_width :
    "receiptId".utf8ByteSize = 9 ∧ "lifecycle".utf8ByteSize = 9 ∧ "packageSlot".utf8ByteSize = 11 ∧
    "removalSlot".utf8ByteSize = 11 ∧ "pluginId".utf8ByteSize = 8 ∧ "source".utf8ByteSize = 6 ∧
    "publisherId".utf8ByteSize = 11 ∧ "approvalFingerprint".utf8ByteSize = 19 ∧ "receiptSha256".utf8ByteSize = 13 ∧
    "directoryIdentity".utf8ByteSize = 17 ∧ "manifestIdentity".utf8ByteSize = 16 ∧ "receiptIdentity".utf8ByteSize = 15 := by
  decide

theorem keys_width :
    "\x7b\"receiptId\":".utf8ByteSize = 13 ∧ ",\"lifecycle\":".utf8ByteSize = 13 ∧ ",\"packageSlot\":".utf8ByteSize = 15 ∧
    ",\"removalSlot\":".utf8ByteSize = 15 ∧ ",\"pluginId\":".utf8ByteSize = 12 ∧ ",\"source\":".utf8ByteSize = 10 ∧
    ",\"publisherId\":".utf8ByteSize = 15 ∧ ",\"approvalFingerprint\":".utf8ByteSize = 23 ∧
    ",\"receiptSha256\":".utf8ByteSize = 17 ∧
    ",\"directoryIdentity\":,\"manifestIdentity\":,\"receiptIdentity\":".utf8ByteSize = 60 ∧
    "\x7b\"volume\":\"\",\"object\":\"\"\x7d".utf8ByteSize = 25 ∧ "\x7d".utf8ByteSize = 1 ∧ "\"managed\"".utf8ByteSize = 9 ∧
    "\"removing\"".utf8ByteSize = 10 ∧ "localDeclarative".utf8ByteSize = 16 := by
  decide

/-- `byteLength` counts the bytes of an entry. -/
theorem ManagedOwnershipEntryV1.size_canonicalDto {entry : ManagedOwnershipEntryV1} (hv : entry.valid = true) :
    JsonText.size entry.canonicalDto = entry.byteLength := by
  rw [valid, Bool.and_eq_true] at hv
  have hfingerprint := JsonText.size_string (clean_of_validLocalFingerprint hv.2)
  have hpublisher := JsonText.size_string (PluginId.clean entry.publisherId)
  have hsource : entry.source = .localDeclarative := of_decide_eq_true hv.1
  have hsourceSize : JsonText.size (string "localDeclarative") = 18 := JsonText.size_string (PluginSource.clean .localDeclarative)
  have hmanaged : JsonText.size (string "managed") = 9 := JsonText.size_string (by decide)
  have hremoving : JsonText.size (string "removing") = 10 := JsonText.size_string (by decide)
  have hslot : ∀ slot : RemovalSlot, JsonText.size (string slot.1) = slot.1.utf8ByteSize + 2 := fun slot =>
    JsonText.size_string slot.clean
  rw [canonicalDto, JsonText.size_record (by
    cases entry.lifecycle <;>
    · simp only [List.append_nil, List.cons_append, List.nil_append, List.forall_mem_cons]
      decide)]
  simp only [List.map_append, List.sum_append, List.length_append, List.map_cons, List.map_nil, List.sum_cons, List.sum_nil,
    List.length_cons, List.length_nil, JsonText.size_string entry.receiptId.clean, JsonText.size_string entry.packageSlot.clean,
    JsonText.size_string entry.pluginId.clean, hpublisher, hfingerprint, JsonText.size_string (clean_formatLowerHex _ _),
    width_formatLowerHex, FileIdentity.size_canonicalDto, byteLength, quotedLength, hsource, PluginSource.text, hsourceSize,
    names_width, keys_width]
  cases entry.lifecycle with
  | managed =>
    simp only [LifecycleWire.text, hmanaged, List.map_nil, List.sum_nil, List.length_nil]
    omega
  | removing slot =>
    simp only [LifecycleWire.text, hremoving, hslot, List.map_cons, List.map_nil, List.sum_cons, List.sum_nil, List.length_cons,
      List.length_nil, names_width]
    omega

/-- Ids and slots are short, so 160 entries fit by far. -/
theorem ManagedOwnershipEntryV1.byteLength_le {entry : ManagedOwnershipEntryV1} (hv : entry.valid = true) :
    entry.byteLength ≤ 1000 := by
  rw [valid, Bool.and_eq_true] at hv
  have hfingerprint := width_of_validLocalFingerprint hv.2
  have hreceipt := entry.receiptId.width
  have hslot := entry.packageSlot.width
  have hplugin := PluginId.width entry.pluginId
  have hpublisher := PluginId.width entry.publisherId
  have hsource : entry.source = .localDeclarative := of_decide_eq_true hv.1
  rw [byteLength, hsource]
  simp only [quotedLength, keys_width]
  cases entry.lifecycle with
  | managed =>
    dsimp only
    omega
  | removing slot =>
    have := slot.width
    dsimp only
    omega

namespace OwnershipReceiptV1

variable {receipt : OwnershipReceiptV1}

theorem frame_width :
    "\x7b\"schemaVersion\":,\"receiptId\":\"\",\"packageSlot\":\"\",\"source\":\"\",\"pluginId\":\"\",\"publisherId\":\"\",\"approvalFingerprint\":\"\"\x7d".utf8ByteSize =
      118 := by
  decide

theorem size_canonicalDto (h : receipt.validate = .ok ()) : JsonText.size receipt.canonicalDto = receipt.canonicalLength := by
  obtain ⟨-, -, hvalid⟩ := validate_ok_iff.1 h
  have hfingerprint := JsonText.size_string (clean_of_validLocalFingerprint hvalid)
  have hpublisher := JsonText.size_string (PluginId.clean receipt.publisherId)
  have hschema : "schemaVersion".utf8ByteSize = 13 := by decide
  rw [canonicalDto, JsonText.size_record (by
    simp only [List.forall_mem_cons]
    decide)]
  simp only [List.map_cons, List.map_nil, List.sum_cons, List.sum_nil, List.length_cons, List.length_nil, JsonText.size_int,
    JsonText.size_string receipt.receiptId.clean, JsonText.size_string receipt.packageSlot.clean,
    JsonText.size_string (PluginSource.clean _), JsonText.size_string receipt.pluginId.clean, hpublisher, hfingerprint,
    canonicalLength, names_width, frame_width, hschema]
  omega

theorem canonicalLength_le (h : receipt.validate = .ok ()) : receipt.canonicalLength ≤ maxOwnershipReceiptBytes := by
  obtain ⟨hschema, hsource, hvalid⟩ := validate_ok_iff.1 h
  have hfingerprint := width_of_validLocalFingerprint hvalid
  have hreceipt := receipt.receiptId.width
  have hslot := receipt.packageSlot.width
  have hplugin := PluginId.width receipt.pluginId
  have hpublisher := PluginId.width receipt.publisherId
  have hdigit : (Nat.toDigits 10 1).length = 1 := by decide
  have hlocal : PluginSource.localDeclarative.text.utf8ByteSize = 16 := by decide
  unfold maxOwnershipReceiptBytes
  rw [canonicalLength, hschema, hsource, hdigit, hlocal, frame_width]
  omega

/-- A receipt that `validate` accepts is read back from its canonical bytes. -/
theorem parse_canonicalBytes (h : receipt.validate = .ok ()) :
    ∃ bytes, receipt.canonicalBytes = .ok bytes ∧ parse bytes = .ok receipt := by
  have hsize : (toBytes receipt.canonicalDto).size ≤ maxOwnershipReceiptBytes := by
    rw [JsonText.size_toBytes, size_canonicalDto h]
    exact canonicalLength_le h
  refine ⟨toBytes receipt.canonicalDto, ?_, ?_⟩
  · rw [canonicalBytes, h, ok_bind]
    dsimp only
    rw [ensure_of hsize, ok_bind]
    rfl
  · rw [parse, ensure_of hsize, ok_bind, fromBytes_canonicalDto h]
    show (receipt.validate >>= fun _ => pure receipt) = .ok receipt
    rw [h]
    rfl

theorem parse_ok {bytes : ByteArray} (h : parse bytes = .ok receipt) : receipt.validate = .ok () := by
  simp only [parse, bind_eq_ok] at h
  obtain ⟨-, -, read, -, ⟨⟩, hv, hpure⟩ := h
  obtain rfl := Except.ok.inj hpure
  exact hv

end OwnershipReceiptV1

namespace ManagedOwnershipIndexV1

variable {index : ManagedOwnershipIndexV1}

theorem size_serializeUnchecked (h : ∀ e ∈ index.entries, e.valid = true) :
    index.serializeUnchecked.size = index.byteLength := by
  have hentries : (index.entries.map (·.canonicalDto)).map JsonText.size = index.entries.map (·.byteLength) := by
    rw [List.map_map]
    exact List.map_congr_left fun e he => e.size_canonicalDto (h e he)
  have hrevision := JsonText.size_string (clean_formatDecimalRevision index.revision)
  have hwidths : "schemaVersion".utf8ByteSize = 13 ∧ "revision".utf8ByteSize = 8 ∧ "entries".utf8ByteSize = 7 ∧
      "\x7b\"schemaVersion\":".utf8ByteSize = 17 ∧ ",\"revision\":\"\"".utf8ByteSize = 14 ∧
      ",\"entries\":[]\x7d".utf8ByteSize = 14 := by decide
  rw [serializeUnchecked, JsonText.size_toBytes, canonicalDto, JsonText.size_record (by
    simp only [List.forall_mem_cons]
    decide)]
  simp only [List.map_cons, List.map_nil, List.sum_cons, List.sum_nil, List.length_cons, List.length_nil, JsonText.size_int,
    hrevision, width_formatDecimalRevision, JsonText.size_array, hentries, List.length_map, byteLength, hwidths]
  omega

/-- The revision is a `u64`, and the entries are in range. -/
structure InRange (index : ManagedOwnershipIndexV1) : Prop where
  revision : index.revision ≤ maxRevision
  entries : ∀ e ∈ index.entries, e.InRange

theorem validate_ok (hv : index.validate = .ok ()) :
    index.schemaVersion = 1 ∧ index.entries.length ≤ maxManagedOwnershipEntries ∧ ∀ e ∈ index.entries, e.valid = true := by
  simp only [validate, consistent, bind_eq_ok, ensure_eq_ok, Bool.and_eq_true, List.all_eq_true] at hv
  obtain ⟨-, hschema, -, hcapacity, ⟨⟨⟨⟨hentries, -⟩, -⟩, -⟩, -⟩, -⟩ := hv
  exact ⟨hschema, hcapacity, hentries⟩

/-- Whatever `validate` accepts is small enough. -/
theorem byteLength_le (hv : index.validate = .ok ()) (hr : index.revision ≤ maxRevision) :
    index.byteLength ≤ maxManagedOwnershipBytes := by
  obtain ⟨hschema, hcapacity, hentries⟩ := validate_ok hv
  have hsum : (index.entries.map (·.byteLength)).sum ≤ index.entries.length * 1000 := by
    have hle := List.sum_le_card_nsmul (index.entries.map (·.byteLength)) 1000 (by
      intro n hn
      obtain ⟨e, he, rfl⟩ := List.mem_map.1 hn
      exact e.byteLength_le (hentries e he))
    rwa [List.length_map, smul_eq_mul] at hle
  have hrevision : (Nat.toDigits 10 index.revision).length ≤ 20 := by
    rw [Nat.length_toDigits_le_iff (by decide) (by decide)]
    exact hr.trans_lt (by decide)
  have hdigit : (Nat.toDigits 10 1).length = 1 := by decide
  have hwidths : "\x7b\"schemaVersion\":".utf8ByteSize = 17 ∧ ",\"revision\":\"\"".utf8ByteSize = 14 ∧
      ",\"entries\":[]\x7d".utf8ByteSize = 14 := by decide
  unfold byteLength maxManagedOwnershipBytes
  unfold maxManagedOwnershipEntries at hcapacity
  rw [hschema, hdigit, hwidths.1, hwidths.2.1, hwidths.2.2]
  omega

theorem valid_of_validate (hv : index.validate = .ok ()) (hr : index.revision ≤ maxRevision) : index.Valid := by
  rw [← valid_iff, validateForPersistence, hv, ok_bind]
  exact ensure_of (byteLength_le hv hr)

theorem plain_canonicalDto (hv : index.validate = .ok ()) : JsonText.Plain JsonText.maxDepth index.canonicalDto := by
  refine (JsonText.Plain.record ?_ : JsonText.Plain (126 + 1) _)
  simp only [List.forall_mem_cons, List.not_mem_nil, false_imp_iff, implies_true, and_true]
  rw [(validate_ok hv).1]
  refine ⟨.int 126 (by decide), plain_string _ _, ?_⟩
  have hentries : ∀ v ∈ index.entries.map (·.canonicalDto), JsonText.Plain 125 v := by
    intro v hmem
    obtain ⟨e, -, rfl⟩ := List.mem_map.1 hmem
    exact e.plain_canonicalDto 123
  exact .array hentries

/-! ## Round trips -/

theorem deserialize_canonicalDto (hv : index.validate = .ok ()) (hr : index.InRange) :
    deserialize index.canonicalDto = some index := by
  obtain ⟨hschema, -, hentries⟩ := validate_ok hv
  have hsmall : index.schemaVersion < 2 ^ 32 := by
    rw [hschema]
    decide
  have hrevision : index.revision < 2 ^ 64 := Nat.lt_of_le_pred (by decide) hr.revision
  obtain ⟨field, hfields, hfield, -⟩ :
      ∃ field, fields ["schemaVersion", "revision", "entries"] index.canonicalDto = some field ∧ _ :=
    fields_record (by simp) (by simp)
  simp only [List.forall_mem_cons, List.not_mem_nil, false_imp_iff, implies_true, and_true] at hfield
  obtain ⟨h1, h2, h3⟩ := hfield
  have hread : readList ManagedOwnershipEntryV1.deserialize (.array (index.entries.map (·.canonicalDto))) = some index.entries := by
    have hall : ∀ e ∈ index.entries, ManagedOwnershipEntryV1.deserialize e.canonicalDto = some (id e) := fun e he =>
      ManagedOwnershipEntryV1.deserialize_canonicalDto (hr.entries e he) (hentries e he)
    rw [JsonText.readList_map hall, List.map_id]
  exact bind_eq_of hfields <| bind_eq_of (bind_eq_of h1 (JsonText.readNat_int hsmall)) <|
    bind_eq_of (bind_eq_of (bind_eq_of h2 (readText_string _)) (parse_formatDecimalRevision hrevision)) <|
    bind_eq_of (bind_eq_of h3 hread) (if_pos hv)

theorem deserialize_some {v : JsonText.Json} (h : deserialize v = some index) : index.validate = .ok () ∧ index.InRange := by
  obtain ⟨field, -, h⟩ := Option.bind_eq_some_iff.1 h
  obtain ⟨_, -, h⟩ := Option.bind_eq_some_iff.1 h
  obtain ⟨revision, hrevision, h⟩ := Option.bind_eq_some_iff.1 h
  obtain ⟨entries, hentries, h⟩ := Option.bind_eq_some_iff.1 h
  dsimp only at h
  split at h
  · rename_i hv
    obtain rfl := Option.some.inj h
    obtain ⟨_, -, hrevision⟩ := Option.bind_eq_some_iff.1 hrevision
    obtain ⟨list, -, hentries⟩ := Option.bind_eq_some_iff.1 hentries
    refine ⟨hv, Nat.le_pred_of_lt (parseDecimalRevision_lt hrevision), fun e he => ?_⟩
    obtain ⟨v, hread⟩ := JsonText.mem_readList hentries he
    exact e.deserialize_inRange hread
  · cases h

/-- An index that `validate` accepts is read back from its canonical bytes. -/
theorem parse_canonicalBytes (hv : index.validate = .ok ()) (hr : index.InRange) :
    ∃ bytes, index.canonicalBytes = .ok bytes ∧ parse bytes = .ok index := by
  have hsize : index.serializeUnchecked.size ≤ maxManagedOwnershipBytes := by
    rw [size_serializeUnchecked (validate_ok hv).2.2]
    exact byteLength_le hv hr.revision
  have hread : fromBytes deserialize index.serializeUnchecked = some index := by
    rw [serializeUnchecked, JsonText.fromBytes_toBytes (plain_canonicalDto hv), deserialize_canonicalDto hv hr]
  refine ⟨index.serializeUnchecked, ?_, ?_⟩
  · rw [canonicalBytes, hv, ok_bind]
    dsimp only
    rw [ensure_of hsize, ok_bind]
    rfl
  · rw [parse, ensure_of hsize, ok_bind, hread]
    show (index.validate >>= fun _ => pure index) = .ok index
    rw [hv]
    rfl

theorem parse_ok {bytes : ByteArray} (h : parse bytes = .ok index) : index.validate = .ok () ∧ index.InRange := by
  simp only [parse, bind_eq_ok, okOr_eq_ok, fromBytes, Option.bind_eq_some_iff] at h
  obtain ⟨-, -, read, ⟨text, -, v, -, hread⟩, -, -, hpure⟩ := h
  obtain rfl := Except.ok.inj hpure
  exact deserialize_some hread

end ManagedOwnershipIndexV1

end Sizes

end EasiFlux.Plugin
