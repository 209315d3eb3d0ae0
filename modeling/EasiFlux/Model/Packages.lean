import Mathlib.Order.Basic
import EasiFlux.Model.Trading

/-!
# Plugin packages and what a scan finds of them

The records of `plugin::record`, the receipts of `plugin::ownership` and the outcome of a
discovery (`plugin::discovery`). Identifiers, slots and receipt ids are texts that have
passed their `parse`.

Digests and fingerprints are what the scan has computed; the digest is a number of 32 bytes.
-/

namespace EasiFlux.Plugin

/-! ## Identifiers -/

/-- `validate_reverse_domain`, as `PluginId::parse` and `PluginPublisherId::parse` use it -/
def isReverseDomain (value : String) : Bool :=
  let segments := value.toList.splitOn '.'
  decide (value.utf8ByteSize ≤ 128) && decide (2 ≤ segments.length) && segments.all fun segment =>
    !segment.isEmpty && decide (segment.length ≤ 63) && (segment.all fun c => c.isLower || c.isDigit || c == '-') &&
      segment.head? != some '-' && segment.getLast? != some '-'

def isLowerHex (c : Char) : Bool := c.isDigit || decide ('a' ≤ c ∧ c ≤ 'f')

/-- A text of so many lower-case hex digits -/
def isLowerHexText (width : ℕ) (text : List Char) : Bool := decide (text.length = width) && text.all isLowerHex

/-- `validate_uuid_v4_simple`: the version digit is 4, the variant one of 8, 9, a and b. -/
def isUuidV4Simple (value : String) : Bool :=
  isLowerHexText 32 value.toList && value.toList[12]? == some '4' &&
    value.toList[16]?.any fun c => c == '8' || c == '9' || c == 'a' || c == 'b'

/-- `validate_prefixed_slot` -/
def isPrefixedSlot (head value : String) : Bool :=
  value.toList.take head.length == head.toList && isLowerHexText 32 (value.toList.drop head.length)

abbrev PluginId := { value : String // isReverseDomain value = true }

abbrev PluginPublisherId := { value : String // isReverseDomain value = true }

abbrev ReceiptId := { value : String // isUuidV4Simple value = true }

abbrev PackageSlot := { value : String // isPrefixedSlot "pkg-" value = true }

abbrev RemovalSlot := { value : String // isPrefixedSlot "remove-" value = true }

/-- Volume and object of a file: 8 and 16 bytes. -/
structure FileIdentity where
  volume : ℕ
  object : ℕ
  deriving DecidableEq, Repr

/-! ## Records -/

inductive PluginSource
  | builtIn
  | localDeclarative
  deriving DecidableEq, Repr

/-- `APPROVAL_FINGERPRINT_NONE` -/
def approvalFingerprintNone : String := "v1:none"

/-- `valid_local_fingerprint` -/
def validLocalFingerprint (value : String) : Bool :=
  value.toList.take 10 == "v1:sha256:".toList && isLowerHexText 64 (value.toList.drop 10)

/-- `plugin_state::valid_fingerprint` -/
def validFingerprint : PluginSource → String → Bool
  | .builtIn, fingerprint => fingerprint == approvalFingerprintNone
  | .localDeclarative, fingerprint => validLocalFingerprint fingerprint

/-- The manifest. `body` is the canonical text of the fields that only the screen and the
guest read: publisher, name, description, version and contributions. -/
structure PluginManifest where
  schemaVersion : ℕ
  id : PluginId
  publisherId : PluginPublisherId
  body : String
  requestedCapabilities : List String
  deriving DecidableEq

/-- A record: `PluginRecord::built_in` and `local_declarative` give it a fingerprint that is
valid for its source, and a built-in manifest has schema 1. -/
structure PluginRecord where
  manifest : PluginManifest
  source : PluginSource
  approvalFingerprint : String
  valid : validFingerprint source approvalFingerprint = true
  builtInSchema : source = .builtIn → manifest.schemaVersion = 1
  deriving DecidableEq

structure PluginIdentity where
  id : PluginId
  source : PluginSource
  publisherId : PluginPublisherId
  approvalFingerprint : String
  deriving DecidableEq

def PluginRecord.identity (r : PluginRecord) : PluginIdentity :=
  ⟨r.manifest.id, r.source, r.manifest.publisherId, r.approvalFingerprint⟩

/-! ## Receipts -/

structure OwnershipReceiptV1 where
  schemaVersion : ℕ
  receiptId : ReceiptId
  packageSlot : PackageSlot
  source : PluginSource
  pluginId : PluginId
  publisherId : PluginPublisherId
  approvalFingerprint : String
  deriving DecidableEq

def OwnershipReceiptV1.matchesRecord (receipt : OwnershipReceiptV1) (record : PluginRecord) : Bool :=
  decide (receipt.source = record.identity.source ∧ receipt.pluginId = record.identity.id ∧
    receipt.publisherId = record.identity.publisherId ∧
    receipt.approvalFingerprint = record.identity.approvalFingerprint)

structure VerifiedPackageReceipt where
  model : OwnershipReceiptV1
  canonicalSha256 : ℕ
  fileIdentity : FileIdentity
  deriving DecidableEq

/-! ## Discovery -/

inductive LocalDiscoveryStatus
  | available
  | degraded
  | unavailable
  deriving DecidableEq, Repr

structure LocalDiscoverySummary where
  status : LocalDiscoveryStatus
  rejectedPackageCount : ℕ
  deriving DecidableEq, Repr

namespace LocalDiscoverySummary

def available : LocalDiscoverySummary := ⟨.available, 0⟩

def unavailable : LocalDiscoverySummary := ⟨.unavailable, 0⟩

/-- The count stays below 2 ^ 32 without the saturation of the code: it is cut at 256. -/
def withAdditionalRejections (s : LocalDiscoverySummary) (rejected : ℕ) : LocalDiscoverySummary :=
  if rejected ≠ 0 ∧ s.status ≠ .unavailable then ⟨.degraded, min (s.rejectedPackageCount + rejected) 256⟩ else s

end LocalDiscoverySummary

/-- What a scan has used up; not part of the catalog. -/
structure ScanUsage where
  rootEntries : ℕ
  packages : ℕ
  bytesRead : ℕ
  deriving DecidableEq, Repr

def ScanUsage.canAddManifest (u : ScanUsage) (bytes : ℕ) : Bool :=
  decide (u.rootEntries < 256 ∧ u.packages < 128 ∧ bytes ≤ 16384 ∧ u.bytesRead + bytes ≤ 2097152)

structure LocalPackageLocator where
  packageSlot : PackageSlot
  directoryIdentity : FileIdentity
  manifestIdentity : FileIdentity
  receipt : Option VerifiedPackageReceipt
  deriving DecidableEq

structure DiscoveredLocalPlugin where
  record : PluginRecord
  locator : LocalPackageLocator
  deriving DecidableEq

inductive RemovalObservationShape
  | full
  | receiptOnly
  | manifestOnly
  | emptyDirectory
  | unknown
  deriving DecidableEq, Repr

structure RemovalObservation where
  removalSlot : RemovalSlot
  directoryIdentity : FileIdentity
  manifest : Option (PluginRecord × FileIdentity)
  receipt : Option VerifiedPackageReceipt
  shape : RemovalObservationShape
  deriving DecidableEq

structure RemovalDiscoveryOutcome where
  observations : List RemovalObservation
  status : LocalDiscoveryStatus
  occupiedSlots : List RemovalSlot
  unknownEntryCount : ℕ
  deriving DecidableEq

structure LocalDiscoveryOutcome where
  plugins : List DiscoveredLocalPlugin
  occupiedSlots : List PackageSlot
  removals : RemovalDiscoveryOutcome
  summary : LocalDiscoverySummary
  usage : Option ScanUsage
  deriving DecidableEq

/-- What `discover` returns when the roots cannot be read. -/
def LocalDiscoveryOutcome.unavailable : LocalDiscoveryOutcome :=
  ⟨[], [], ⟨[], .unavailable, [], 0⟩, .unavailable, none⟩

/-- `PluginManagement` -/
inductive PluginManagement
  | builtIn
  | managed
  | external
  | removalPending
  | ownershipConflict
  | ownershipUnavailable
  deriving DecidableEq, Repr

/-! ## Saving a document -/

inductive PersistOutcome
  | notCommitted
  | committedProcessCrashSafe
  | committedDurable
  deriving DecidableEq, Repr

/-- `PersistResult`; a failure carries how far the save has come. -/
abbrev PersistResult := Except PersistOutcome PersistOutcome

/-- `persistence_outcome` -/
def PersistResult.outcome : PersistResult → PersistOutcome
  | .ok outcome | .error outcome => outcome

/-- `persist_outcome_committed` -/
def PersistOutcome.committed (o : PersistOutcome) : Bool := o != .notCommitted

end EasiFlux.Plugin
