import EasiFlux.Lib.JsonRecords
import EasiFlux.Model.Registry

/-!
# The ownership documents as bytes

The second half of `plugin::ownership`: the canonical texts of receipts and of the index, and how
their bytes are read. `serde` derives the readers of the nested records, which accept an array of
the fields as well; the documents themselves have to be objects. Each failure of `serde_json` is a
conflict.
-/

namespace EasiFlux.Plugin

open Results
open JsonText (record string fields fieldsOrElements readText readNat readList readOptional readVariant toBytes
  fromBytes)

/-! ## Numbers -/

/-- `format!("{:016x}")` and the like, `hex::encode` -/
def formatLowerHex (width value : ℕ) : String := String.ofList (Hex.fixed width value)

/-- `parse_fixed_lower_hex`, `parse_sha256` -/
def parseFixedLowerHex (width : ℕ) (value : String) : Option ℕ :=
  if isLowerHexText width value.toList then some (Hex.num value.toList) else none

/-- `decimal_revision::serialize` -/
def formatDecimalRevision (revision : ℕ) : String := String.ofList (Nat.toDigits 10 revision)

/-- `decimal_revision::deserialize` -/
def parseDecimalRevision (value : String) : Option ℕ :=
  if value.toList = [] ∨ (1 < value.toList.length ∧ value.toList.head? = some '0') ∨ value.toList.all Char.isDigit = false then none
  else if DigitStrings.num value.toList < 2 ^ 64 then some (DigitStrings.num value.toList)
  else none

/-! ## Identifiers -/

def parseReverseDomain (value : String) : Option { value : String // isReverseDomain value = true } :=
  if h : isReverseDomain value = true then some ⟨value, h⟩ else none

def ReceiptId.parse (value : String) : Option ReceiptId := if h : isUuidV4Simple value = true then some ⟨value, h⟩ else none

def PackageSlot.parse (value : String) : Option PackageSlot :=
  if h : isPrefixedSlot "pkg-" value = true then some ⟨value, h⟩ else none

def RemovalSlot.parse (value : String) : Option RemovalSlot :=
  if h : isPrefixedSlot "remove-" value = true then some ⟨value, h⟩ else none

/-- The derived reader of `PluginSource` -/
def PluginSource.read (v : JsonText.Json) : Option PluginSource := do
  match ← readVariant v with
  | "builtIn" => some .builtIn
  | "localDeclarative" => some .localDeclarative
  | _ => none

/-! ## Receipts -/

namespace OwnershipReceiptV1

variable (receipt : OwnershipReceiptV1)

/-- The names of `ReceiptCanonicalDto` and `ReceiptWireDto` -/
def names : List String :=
  ["schemaVersion", "receiptId", "packageSlot", "source", "pluginId", "publisherId", "approvalFingerprint"]

/-- `validate`; that id and slot are well formed is in their types. -/
def validate : Except OwnershipFailure Unit :=
  ensure (receipt.schemaVersion = 1 ∧ receipt.source = .localDeclarative ∧
    validLocalFingerprint receipt.approvalFingerprint = true) .conflict

/-- `ReceiptCanonicalDto` -/
def canonicalDto : JsonText.Json :=
  record [("schemaVersion", .int receipt.schemaVersion), ("receiptId", string receipt.receiptId.1),
    ("packageSlot", string receipt.packageSlot.1), ("source", string receipt.source.text),
    ("pluginId", string receipt.pluginId.1), ("publisherId", string receipt.publisherId.1),
    ("approvalFingerprint", string receipt.approvalFingerprint)]

def canonicalBytes : Except OwnershipFailure ByteArray := do
  receipt.validate
  let bytes := toBytes receipt.canonicalDto
  ensure (bytes.size ≤ maxOwnershipReceiptBytes) .capacityExceeded
  pure bytes

/-- `ReceiptVisitor::visit_map` -/
def deserialize (v : JsonText.Json) : Option OwnershipReceiptV1 := do
  let field ← fields names v
  let schemaVersion ← (field "schemaVersion").bind (readNat 32)
  let receiptId ← (field "receiptId").bind readText
  let packageSlot ← (field "packageSlot").bind readText
  let source ← (field "source").bind PluginSource.read
  let pluginId ← ((field "pluginId").bind readText).bind parseReverseDomain
  let publisherId ← ((field "publisherId").bind readText).bind parseReverseDomain
  let approvalFingerprint ← (field "approvalFingerprint").bind readText
  let receipt : OwnershipReceiptV1 :=
    ⟨schemaVersion, ← ReceiptId.parse receiptId, ← PackageSlot.parse packageSlot, source, pluginId, publisherId,
      approvalFingerprint⟩
  if receipt.validate = .ok () then some receipt else none

def parse (bytes : ByteArray) : Except OwnershipFailure OwnershipReceiptV1 := do
  ensure (bytes.size ≤ maxOwnershipReceiptBytes) .capacityExceeded
  let receipt ← okOr (fromBytes deserialize bytes) .conflict
  receipt.validate
  pure receipt

end OwnershipReceiptV1

/-! ## Entries -/

/-- `FileIdentityCanonicalDto` -/
def FileIdentity.canonicalDto (identity : FileIdentity) : JsonText.Json :=
  record [("volume", string (formatLowerHex 16 identity.volume)), ("object", string (formatLowerHex 32 identity.object))]

/-- `FileIdentityWireDto`, and its `parse` -/
def FileIdentity.deserialize (v : JsonText.Json) : Option FileIdentity := do
  let field ← fieldsOrElements ["volume", "object"] v
  let volume ← (field "volume").bind readText
  let object ← (field "object").bind readText
  some ⟨← parseFixedLowerHex 16 volume, ← parseFixedLowerHex 32 object⟩

inductive LifecycleWire
  | managed
  | removing
  deriving DecidableEq

def LifecycleWire.text : LifecycleWire → String
  | .managed => "managed"
  | .removing => "removing"

/-- The derived reader -/
def LifecycleWire.read (v : JsonText.Json) : Option LifecycleWire := do
  match ← readVariant v with
  | "managed" => some .managed
  | "removing" => some .removing
  | _ => none

/-- The texts of an entry, as they are read. A missing `removalSlot` is `OptionalField::Missing`. -/
structure EntryWireDto where
  receiptId : String
  lifecycle : LifecycleWire
  packageSlot : String
  removalSlot : Option String
  pluginId : PluginId
  source : PluginSource
  publisherId : PluginPublisherId
  approvalFingerprint : String
  receiptSha256 : String
  directoryIdentity : FileIdentity
  manifestIdentity : FileIdentity
  receiptIdentity : FileIdentity

namespace ManagedOwnershipEntryV1

variable (entry : ManagedOwnershipEntryV1)

/-- The names of `EntryCanonicalDto` and `EntryWireDto` -/
def names : List String :=
  ["receiptId", "lifecycle", "packageSlot", "removalSlot", "pluginId", "source", "publisherId", "approvalFingerprint",
    "receiptSha256", "directoryIdentity", "manifestIdentity", "receiptIdentity"]

/-- `EntryCanonicalDto`. A removal slot that is `None` is skipped. -/
def canonicalDto : JsonText.Json :=
  record ([("receiptId", string entry.receiptId.1),
      ("lifecycle", string (match entry.lifecycle with
        | .managed => LifecycleWire.managed
        | .removing _ => LifecycleWire.removing).text),
      ("packageSlot", string entry.packageSlot.1)] ++
    (match entry.lifecycle with
      | .managed => []
      | .removing removalSlot => [("removalSlot", string removalSlot.1)]) ++
    [("pluginId", string entry.pluginId.1), ("source", string entry.source.text),
      ("publisherId", string entry.publisherId.1), ("approvalFingerprint", string entry.approvalFingerprint),
      ("receiptSha256", string (formatLowerHex 64 entry.receiptSha256)),
      ("directoryIdentity", entry.directoryIdentity.canonicalDto), ("manifestIdentity", entry.manifestIdentity.canonicalDto),
      ("receiptIdentity", entry.receiptIdentity.canonicalDto)])

/-- The derived reader of `EntryWireDto` -/
def readWire (v : JsonText.Json) : Option EntryWireDto := do
  let field ← fieldsOrElements names v
  let receiptId ← (field "receiptId").bind readText
  let lifecycle ← (field "lifecycle").bind LifecycleWire.read
  let packageSlot ← (field "packageSlot").bind readText
  let removalSlot ← readOptional readText (field "removalSlot")
  let pluginId ← ((field "pluginId").bind readText).bind parseReverseDomain
  let source ← (field "source").bind PluginSource.read
  let publisherId ← ((field "publisherId").bind readText).bind parseReverseDomain
  let approvalFingerprint ← (field "approvalFingerprint").bind readText
  let receiptSha256 ← (field "receiptSha256").bind readText
  let directoryIdentity ← (field "directoryIdentity").bind FileIdentity.deserialize
  let manifestIdentity ← (field "manifestIdentity").bind FileIdentity.deserialize
  let receiptIdentity ← (field "receiptIdentity").bind FileIdentity.deserialize
  some ⟨receiptId, lifecycle, packageSlot, removalSlot, pluginId, source, publisherId, approvalFingerprint, receiptSha256,
    directoryIdentity, manifestIdentity, receiptIdentity⟩

/-- How the lifecycle and the optional slot go together. -/
def lifecycleOf (dto : EntryWireDto) : Option OwnershipLifecycleV1 :=
  match dto.lifecycle, dto.removalSlot with
  | .managed, none => some .managed
  | .removing, some removalSlot => (RemovalSlot.parse removalSlot).map .removing
  | _, _ => none

/-- `TryFrom<EntryWireDto>` -/
def tryFrom (dto : EntryWireDto) : Option ManagedOwnershipEntryV1 := do
  let lifecycle ← lifecycleOf dto
  let receiptSha256 ← parseFixedLowerHex 64 dto.receiptSha256
  let receiptId ← ReceiptId.parse dto.receiptId
  let packageSlot ← PackageSlot.parse dto.packageSlot
  let entry : ManagedOwnershipEntryV1 :=
    { dto with lifecycle, receiptSha256, receiptId, packageSlot }
  if entry.valid = true then some entry else none

def deserialize (v : JsonText.Json) : Option ManagedOwnershipEntryV1 := (readWire v).bind tryFrom

end ManagedOwnershipEntryV1

/-! ## The index -/

namespace ManagedOwnershipIndexV1

variable (index : ManagedOwnershipIndexV1)

/-- `IndexCanonicalDto` -/
def canonicalDto : JsonText.Json :=
  record [("schemaVersion", .int index.schemaVersion), ("revision", string (formatDecimalRevision index.revision)),
    ("entries", .array (index.entries.map (·.canonicalDto)))]

def serializeUnchecked : ByteArray := toBytes index.canonicalDto

def canonicalBytes : Except OwnershipFailure ByteArray := do
  index.validate
  let bytes := index.serializeUnchecked
  ensure (bytes.size ≤ maxManagedOwnershipBytes) .capacityExceeded
  pure bytes

/-- `IndexVisitor::visit_map` -/
def deserialize (v : JsonText.Json) : Option ManagedOwnershipIndexV1 := do
  let field ← fields ["schemaVersion", "revision", "entries"] v
  let schemaVersion ← (field "schemaVersion").bind (readNat 32)
  let revision ← ((field "revision").bind readText).bind parseDecimalRevision
  let entries ← (field "entries").bind (readList ManagedOwnershipEntryV1.deserialize)
  let index : ManagedOwnershipIndexV1 := ⟨schemaVersion, revision, entries⟩
  if index.validate = .ok () then some index else none

def parse (bytes : ByteArray) : Except OwnershipFailure ManagedOwnershipIndexV1 := do
  ensure (bytes.size ≤ maxManagedOwnershipBytes) .capacityExceeded
  let index ← okOr (fromBytes deserialize bytes) .conflict
  index.validate
  pure index

end ManagedOwnershipIndexV1

end EasiFlux.Plugin
