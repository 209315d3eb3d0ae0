import EasiFlux.Model.Ownership

/-!
# The plugin state and the catalog

`storage::plugin_state`: the document with the decisions of the user. `plugin::manifest`: the
catalog that is published, and the checks of its decoder (`PluginCatalogSnapshotWire::try_from`,
`PluginCatalogItem::validate`, `ManagedOwnershipSummary::validate`).

Versions are numbers here; they travel as decimal texts of 64-bit numbers.
-/

namespace EasiFlux.Plugin

open Results Newest

/-! ## The state document -/

structure PluginStateEntryV2 where
  id : PluginId
  source : PluginSource
  publisherId : PluginPublisherId
  approvalFingerprint : String
  enabled : Bool
  deriving DecidableEq

def PluginSource.text : PluginSource → String
  | .builtIn => "builtIn"
  | .localDeclarative => "localDeclarative"

namespace PluginStateEntryV2

variable (e : PluginStateEntryV2)

/-- The four fields that `sort_state_entries` compares one after the other -/
def key : List String := [e.id.1, e.source.text, e.publisherId.1, e.approvalFingerprint]

def matchesIdentity (record : PluginRecord) : Bool :=
  decide (e.id = record.identity.id ∧ e.source = record.identity.source ∧
    e.publisherId = record.identity.publisherId ∧ e.approvalFingerprint = record.identity.approvalFingerprint)

/-- The bytes of an entry. None of the texts has a character that is escaped. -/
def byteLength : ℕ :=
  "\x7b\"id\":\"\",\"source\":\"\",\"publisherId\":\"\",\"approvalFingerprint\":\"\",\"enabled\":\x7d".utf8ByteSize +
    e.id.1.utf8ByteSize + e.source.text.utf8ByteSize + e.publisherId.1.utf8ByteSize +
    e.approvalFingerprint.utf8ByteSize + (if e.enabled then 4 else 5)

end PluginStateEntryV2

def sortStateEntries (entries : List PluginStateEntryV2) : List PluginStateEntryV2 :=
  entries.mergeSort fun a b => decide (a.key ≤ b.key)

/-- The decision on one plugin -/
def decisionEntry (identity : PluginIdentity) (enabled : Bool) : PluginStateEntryV2 :=
  ⟨identity.id, identity.source, identity.publisherId, identity.approvalFingerprint, enabled⟩

/-- Every decision on the plugin is replaced by this one, as `retain` and `push` do it. -/
def decideEntries (entries : List PluginStateEntryV2) (identity : PluginIdentity) (enabled : Bool) :
    List PluginStateEntryV2 :=
  entries.filter (fun e => decide (e.id ≠ identity.id ∨ e.source ≠ identity.source)) ++ [decisionEntry identity enabled]

structure PluginStateFileV2 where
  schemaVersion : ℕ
  revision : ℕ
  entries : List PluginStateEntryV2
  deriving DecidableEq

/-- `MAX_PLUGIN_STATE_ENTRIES` -/
def maxPluginStateEntries : ℕ := 512

/-- `MAX_PLUGIN_STATE_BYTES` -/
def maxPluginStateBytes : ℕ := 256 * 1024

namespace PluginStateFileV2

variable (s : PluginStateFileV2)

def empty : PluginStateFileV2 := ⟨2, 0, []⟩

def validate : Bool :=
  decide (s.schemaVersion = 2 ∧ s.entries.length ≤ maxPluginStateEntries) &&
  (s.entries.all fun e => validFingerprint e.source e.approvalFingerprint) &&
  decide ((s.entries.map fun e => (e.id, e.source, e.publisherId, e.approvalFingerprint)).Nodup)

def byteLength : ℕ :=
  "\x7b\"schemaVersion\":".utf8ByteSize + (Nat.toDigits 10 s.schemaVersion).length +
  ",\"revision\":\"\"".utf8ByteSize + (Nat.toDigits 10 s.revision).length +
  ",\"entries\":[]\x7d".utf8ByteSize + (s.entries.map (·.byteLength)).sum + (s.entries.length - 1)

def validateForPersistence : Bool := s.validate && decide (s.byteLength ≤ maxPluginStateBytes)

def isEnabled (record : PluginRecord) : Bool := s.entries.any fun e => e.matchesIdentity record && e.enabled

end PluginStateFileV2

/-- What the store has read; the revision is a 64-bit number. -/
structure PluginStateLoad where
  state : PluginStateFileV2
  requiresRewrite : Bool
  fits : state.revision ≤ maxRevision
  deriving DecidableEq

/-! ## Catalog items -/

inductive PluginStatus
  | enabled
  | disabled
  | blocked
  deriving DecidableEq, Repr

inductive PluginAvailability
  | available
  | unavailable
  deriving DecidableEq, Repr

inductive PluginAvailabilityReason
  | stateUnavailable
  | catalogInvalid
  deriving DecidableEq, Repr

inductive PluginToggleBlockReason
  | removalPending
  deriving DecidableEq, Repr

def PluginManagement.forSource : PluginSource → PluginManagement
  | .builtIn => .builtIn
  | .localDeclarative => .external

structure PluginCatalogItem where
  manifest : PluginManifest
  source : PluginSource
  status : PluginStatus
  statusReasonCode : Option PluginAvailabilityReason
  canToggle : Bool
  grantedCapabilities : List String
  management : PluginManagement
  canRemove : Bool
  toggleBlockReasonCode : Option PluginToggleBlockReason
  deriving DecidableEq

namespace PluginCatalogItem

def project (manifest : PluginManifest) (source : PluginSource) (status : PluginStatus)
    (reason : Option PluginAvailabilityReason) (management : PluginManagement) : PluginCatalogItem :=
  let pending := decide (management = .removalPending)
  let status := if pending then .disabled else status
  { manifest := manifest
    source := source
    status := status
    statusReasonCode := if pending then none else reason
    canToggle := decide (status ≠ .blocked) && !pending
    grantedCapabilities := []
    management := management
    canRemove := decide (management = .managed ∧ status = .disabled)
    toggleBlockReasonCode := if pending then some .removalPending else none }

def enabled (manifest : PluginManifest) (source : PluginSource) : PluginCatalogItem :=
  project manifest source .enabled none (.forSource source)

def disabled (manifest : PluginManifest) (source : PluginSource) : PluginCatalogItem :=
  project manifest source .disabled none (.forSource source)

def blocked (manifest : PluginManifest) (source : PluginSource) (reason : PluginAvailabilityReason) : PluginCatalogItem :=
  project manifest source .blocked (some reason) (.forSource source)

variable (item : PluginCatalogItem)

def withManagement (management : PluginManagement) : PluginCatalogItem :=
  project item.manifest item.source item.status item.statusReasonCode management

def validate : Bool :=
  !(decide (item.source = .builtIn ∧ item.manifest.schemaVersion ≠ 1) ||
    decide (item.source = .builtIn) != decide (item.management = .builtIn) ||
    decide (item.status = .blocked) != item.statusReasonCode.isSome ||
    item.canToggle != (decide (item.status ≠ .blocked) && item.toggleBlockReasonCode.isNone) ||
    decide (item.management = .removalPending) != item.toggleBlockReasonCode.isSome ||
    decide (item.management = .removalPending ∧ item.status ≠ .disabled) ||
    item.canRemove != decide (item.management = .managed ∧ item.status = .disabled) ||
    !item.grantedCapabilities.isEmpty)

def sameStructure (other : PluginCatalogItem) : Bool :=
  decide (item.manifest = other.manifest ∧ item.source = other.source ∧ item.management = other.management ∧
    item.toggleBlockReasonCode = other.toggleBlockReasonCode ∧ item.grantedCapabilities = other.grantedCapabilities)

end PluginCatalogItem

def catalogItem (record : PluginRecord) (enabled : Bool) : PluginCatalogItem :=
  if enabled then .enabled record.manifest record.source else .disabled record.manifest record.source

/-! ## Snapshots -/

def ManagedOwnershipSummary.validate (s : ManagedOwnershipSummary) : Bool :=
  let total := s.conflictingEntryCount + s.rollbackPendingCount + s.cleanupPendingCount
  decide (total < 2 ^ 32) &&
    !(decide (176 < total) || decide (160 < s.rollbackPendingCount) || decide (160 < s.cleanupPendingCount) ||
      decide (s.status = .degraded) != decide (0 < total))

/-- `CATALOG_TRANSPORT_SCHEMA_VERSION` -/
def catalogTransportSchemaVersion : ℕ := 3

structure PluginCatalogSnapshot where
  schemaVersion : ℕ
  revision : ℕ
  catalogGeneration : ℕ
  availability : PluginAvailability
  availabilityReasonCode : Option PluginAvailabilityReason
  localDiscovery : LocalDiscoverySummary
  managedOwnership : ManagedOwnershipSummary
  plugins : List PluginCatalogItem
  deriving DecidableEq

namespace PluginCatalogSnapshot

variable (w : PluginCatalogSnapshot)

/-- What `try_from` refuses in one item, given the rest of the snapshot. -/
def refuses (item : PluginCatalogItem) : Bool :=
  decide (w.availability = .available ∧ item.status = .blocked) ||
  decide (w.availability = .unavailable ∧ item.management ≠ .removalPending ∧
    (item.status ≠ .blocked ∨ item.statusReasonCode ≠ w.availabilityReasonCode)) ||
  decide (w.managedOwnership.status = .unavailable ∧ item.management = .managed) ||
  decide (w.managedOwnership.status ≠ .unavailable ∧ item.management = .ownershipUnavailable) ||
  decide (item.management = .removalPending ∧ w.managedOwnership.rollbackPendingCount = 0) ||
  decide (item.management = .ownershipConflict ∧ w.managedOwnership.conflictingEntryCount = 0) ||
  decide (w.localDiscovery.status = .unavailable ∧ item.source = .localDeclarative)

/-- The fields of a snapshot as they come over the wire: items and summary are checked as
they are read, then `try_from` checks the whole. -/
def decode : Except String PluginCatalogSnapshot := do
  ensure (w.plugins.all PluginCatalogItem.validate) "invalid catalog management or status"
  ensure w.managedOwnership.validate "invalid ownership summary"
  ensure (!(decide (w.schemaVersion ≠ catalogTransportSchemaVersion) ||
    decide (maxRevision < w.revision) || decide (maxRevision < w.catalogGeneration) ||
    decide (w.availability = .unavailable) != w.availabilityReasonCode.isSome ||
    decide (256 < w.localDiscovery.rejectedPackageCount) ||
    decide (w.localDiscovery.status = .degraded) != decide (0 < w.localDiscovery.rejectedPackageCount) ||
    w.plugins.any w.refuses ||
    !decide (w.plugins.IsChain fun a b => a.manifest.id < b.manifest.id))) "invalid catalog snapshot"
  pure w

end PluginCatalogSnapshot

end EasiFlux.Plugin
