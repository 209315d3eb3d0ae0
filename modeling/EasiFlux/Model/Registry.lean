import EasiFlux.Model.Catalog

/-!
# The plugin registry

`plugin::registry`: what the application publishes about its plugins, derived from the packages
a scan has found, the index of managed packages and the decisions of the user.

Each call of a store is an argument that holds its answer. `none` is a call that panics: the
code around it unwinds, and what was not assigned before stays as it is.
-/

namespace EasiFlux.Plugin

open Results Newest

/-- `plugin_error` with its code, and the internal error of a request that was given up. -/
inductive PluginError
  | catalogStale
  | invalidId
  | catalogInvalid
  | notFound
  | removalPending
  | stateUnavailable
  | stateCapacityExceeded
  | revisionExhausted
  | statePersistFailed
  | catalogGenerationExhausted
  | internal
  deriving DecidableEq, Repr

inductive Runtime
  | available (state : PluginStateFileV2) (requiresRewrite : Bool)
  | unavailable (reason : PluginAvailabilityReason)
  deriving DecidableEq

structure CatalogPublicationCandidate where
  locals : OrdMap PluginId PluginRecord
  locators : OrdMap PluginId LocalPackageLocator
  management : Classes
  localSummary : LocalDiscoverySummary
  ownershipSummary : ManagedOwnershipSummary
  discovery : LocalDiscoveryOutcome
  catalogGeneration : ℕ
  runtime : Runtime
  ownership : OwnershipRuntime
  snapshot : PluginCatalogSnapshot

structure PluginRegistry where
  builtins : OrdMap PluginId PluginRecord
  publication : CatalogPublicationCandidate
  removalAuthorityUnreconciled : Bool

/-! ## Deriving a snapshot -/

def managementForRecord (publication : CatalogPublicationCandidate) (record : PluginRecord) : PluginManagement :=
  match record.source with
  | .builtIn => .builtIn
  | .localDeclarative => publication.management[record.manifest.id]?.getD .external

/-- The catalog item of a record. -/
def deriveItem (publication : CatalogPublicationCandidate) (record : PluginRecord) : PluginCatalogItem :=
  let item := match publication.runtime with
    | .available state _ => catalogItem record (state.isEnabled record)
    | .unavailable reason => .blocked record.manifest record.source reason
  item.withManagement (managementForRecord publication record)

/-- Built-in and local records by id. -/
def catalogRecords (builtins locals : OrdMap PluginId PluginRecord) : OrdMap PluginId PluginRecord :=
  locals.toList.foldl (fun m (id, record) => m.insert id record) builtins

def deriveSnapshot (builtins : OrdMap PluginId PluginRecord) (next : CatalogPublicationCandidate) : PluginCatalogSnapshot where
  schemaVersion := catalogTransportSchemaVersion
  revision := match next.runtime with
    | .available state _ => state.revision
    | .unavailable _ => 0
  catalogGeneration := next.catalogGeneration
  availability := match next.runtime with
    | .available _ _ => .available
    | .unavailable _ => .unavailable
  availabilityReasonCode := match next.runtime with
    | .available _ _ => none
    | .unavailable reason => some reason
  localDiscovery := next.localSummary
  managedOwnership := next.ownershipSummary
  plugins := (catalogRecords builtins next.locals).toList.map fun (_, record) => deriveItem next record

/-- The state as a store has loaded it, if it was loaded and is valid. -/
def loadedState : AppResult PluginStateLoad → Option Runtime
  | .ok loaded => if loaded.state.validate then some (.available loaded.state loaded.requiresRewrite) else none
  | .error _ => none

/-! ## Starting -/

/-- What `PluginRecord::built_in` has made of a manifest -/
abbrev BuiltInRecord := { record : PluginRecord // record.source = .builtIn }

/-- The built-in records by id; a manifest that is not valid, or an id that comes twice, spoils all. -/
def collectBuiltins : List (Option BuiltInRecord) → OrdMap PluginId PluginRecord → Option (OrdMap PluginId PluginRecord)
  | [], m => some m
  | none :: _, _ => none
  | some record :: rest, m =>
    if record.1.manifest.id ∈ m then none else collectBuiltins rest (m.insert record.1.manifest.id record.1)

namespace PluginRegistry

/-- `initialize`, with what both stores have loaded -/
def initialized (builtins : List (Option BuiltInRecord)) (stateLoad : AppResult PluginStateLoad)
    (indexLoad : AppResult ManagedOwnershipLoad) : PluginRegistry :=
  let ownership := OwnershipRuntime.initialized indexLoad
  let manifests := collectBuiltins builtins ∅
  let runtime := match manifests with
    | none => .unavailable .catalogInvalid
    | some _ => (loadedState stateLoad).getD (.unavailable .stateUnavailable)
  let ownershipSummary := if ownership.requiresRetry then .unavailable else .available
  let publication : CatalogPublicationCandidate :=
    { locals := ∅
      locators := ∅
      management := ∅
      localSummary := .available
      ownershipSummary := ownershipSummary
      discovery := ⟨[], [], ⟨[], .available, [], 0⟩, .available, none⟩
      catalogGeneration := 0
      runtime := runtime
      ownership := ownership
      snapshot := ⟨catalogTransportSchemaVersion, 0, 0, .available, none, .available, ownershipSummary, []⟩ }
  { builtins := manifests.getD ∅
    publication := { publication with snapshot := deriveSnapshot (manifests.getD ∅) publication }
    removalAuthorityUnreconciled := false }

variable (r : PluginRegistry)

def catalogSnapshot : PluginCatalogSnapshot := r.publication.snapshot

def catalogGeneration : ℕ := r.publication.catalogGeneration

def stateRequiresRetry : Bool := decide (r.publication.runtime = .unavailable .stateUnavailable)

/-! ## Publishing -/

/-- What `publish_candidate` compares before it decides on the generation. -/
def structural (next : CatalogPublicationCandidate) (firstScan : Bool) : Bool :=
  let old := r.publication
  decide (next.locals ≠ old.locals ∨ next.locators ≠ old.locators ∨ next.management ≠ old.management ∨
    next.localSummary ≠ old.localSummary ∨ next.ownershipSummary ≠ old.ownershipSummary ∨
    next.ownership.entries ≠ old.ownership.entries ∨
    next.discovery.occupiedSlots ≠ old.discovery.occupiedSlots ∨
    next.discovery.removals.observations ≠ old.discovery.removals.observations ∨
    next.discovery.removals.occupiedSlots ≠ old.discovery.removals.occupiedSlots ∨
    next.snapshot.availability ≠ old.snapshot.availability ∨
    next.snapshot.availabilityReasonCode ≠ old.snapshot.availabilityReasonCode ∨
    next.snapshot.plugins.length ≠ old.snapshot.plugins.length) ||
  (next.snapshot.plugins.zip old.snapshot.plugins).any (fun (next, old) => !next.sameStructure old) ||
  decide (next.snapshot.revision = old.snapshot.revision ∧ next.snapshot ≠ old.snapshot) ||
  (firstScan && decide (old.catalogGeneration = 0))

/-- `publish_candidate`; the flag says whether the snapshot has changed. -/
def publishCandidate (next : CatalogPublicationCandidate) (firstScan : Bool) : Except PluginError (Bool × PluginRegistry) := do
  let next := { next with snapshot := deriveSnapshot r.builtins next }
  if r.structural next firstScan then do
    let generation := r.publication.catalogGeneration + 1
    ensure (generation ≤ maxRevision) .catalogGenerationExhausted
    let next := { next with
      catalogGeneration := generation
      snapshot := { next.snapshot with catalogGeneration := generation } }
    pure (decide (next.snapshot ≠ r.publication.snapshot), { r with publication := next })
  else pure (decide (next.snapshot ≠ r.publication.snapshot), { r with publication := next })

/-! ## Discovery -/

/-- `load_state_if_needed`: whether the load panicked, and the runtime after it. -/
def loadStateIfNeeded (runtime : Runtime) (load : Option (AppResult PluginStateLoad)) : Except PluginError Unit × Runtime :=
  if runtime = .unavailable .stateUnavailable then
    match load with
    | none => (.error .internal, runtime)
    | some load => (.ok (), (loadedState load).getD runtime)
  else (.ok (), runtime)

/-- The local records of a scan, and how many have the id of a built-in one. -/
def collectLocals (outcome : LocalDiscoveryOutcome) : OrdMap PluginId PluginRecord × OrdMap PluginId LocalPackageLocator × ℕ :=
  outcome.plugins.foldl
    (fun (locals, locators, collisions) package =>
      if package.record.manifest.id ∈ r.builtins then (locals, locators, collisions + 1)
      else (locals.insert package.record.manifest.id package.record,
        locators.insert package.record.manifest.id package.locator, collisions))
    (∅, ∅, 0)

/-- A publication with the packages of a scan, once ownership is reconciled. -/
def withDiscovery (next : CatalogPublicationCandidate) (outcome : LocalDiscoveryOutcome)
    (reconciled : OwnershipRuntime.Reconciled) : CatalogPublicationCandidate :=
  let (locals, locators, collisions) := r.collectLocals outcome
  { next with
    ownership := reconciled.runtime
    management := reconciled.classes.filter fun id _ => decide (id ∈ locals)
    ownershipSummary := reconciled.summary
    locals := locals
    locators := locators
    localSummary := outcome.summary.withAdditionalRejections collisions
    discovery := outcome }

/-- A scan and what the stores answer during its application. -/
structure Scan where
  outcome : LocalDiscoveryOutcome
  indexLoad : AppResult ManagedOwnershipLoad
  index : IndexStore
  stateLoad : Option (AppResult PluginStateLoad)

/-- The reconciliation that `apply_local_discovery` makes. -/
def reconciliation (scan : Scan) : OwnershipRuntime.Reconciled :=
  OwnershipRuntime.reconcile scan.indexLoad scan.outcome (decide (r.publication.catalogGeneration ≠ maxRevision)) scan.index

def applyLocalDiscovery (scan : Scan) : Except PluginError Bool × PluginRegistry :=
  let reconciled := r.reconciliation scan
  let next := r.withDiscovery r.publication scan.outcome reconciled
  let (stateRetry, runtime) := loadStateIfNeeded next.runtime scan.stateLoad
  match r.publishCandidate { next with runtime } true with
  | .error e => (.error e, r)
  | .ok (published, next) =>
    let authorityReconciled := decide (scan.outcome.summary.status ≠ .unavailable ∧
      scan.outcome.removals.status ≠ .unavailable) && !reconciled.runtime.requiresRetry
    let next := { next with
      removalAuthorityUnreconciled := if authorityReconciled then false else next.removalAuthorityUnreconciled }
    (stateRetry.map fun _ => published, next)

def retryStateLoad (load : Option (AppResult PluginStateLoad)) : PluginRegistry :=
  match loadStateIfNeeded r.publication.runtime load with
  | (.error _, _) => r
  | (.ok (), runtime) =>
    match r.publishCandidate { r.publication with runtime } false with
    | .error _ => r
    | .ok (_, next) => next

/-! ## Decisions -/

structure StateDecisionFailure where
  error : PluginError
  persistOutcome : PersistOutcome
  deriving DecidableEq, Repr

/-- The state after a decision, or that nothing has to be saved. -/
def nextDecision (state : PluginStateFileV2) (requiresRewrite : Bool) (record : PluginRecord) (enabled : Bool) :
    Except PluginError (Option PluginStateFileV2) := do
  let previousEntries := sortStateEntries state.entries
  let entries := decideEntries previousEntries record.identity enabled
  ensure (entries.length ≤ maxPluginStateEntries) .stateCapacityExceeded
  let entries := sortStateEntries entries
  if { state with entries } = state ∧ requiresRewrite = false then pure none
  else do
    let revision ←
      if entries ≠ previousEntries then do
        ensure (state.revision + 1 ≤ maxRevision) .revisionExhausted
        pure (state.revision + 1)
      else pure state.revision
    let next := { state with entries, revision }
    ensure next.validateForPersistence .statePersistFailed
    pure (some next)

/-- `persist_decision_with_outcome`; `none` if the save panicked. -/
def persistDecisionWithOutcome (record : PluginRecord) (enabled : Bool) (save : Option PersistResult) :
    Option (Except StateDecisionFailure Unit) × PluginRegistry :=
  if r.removalAuthorityUnreconciled then (some (.error ⟨.catalogStale, .notCommitted⟩), r)
  else
    match r.publication.runtime with
    | .unavailable _ => (some (.error ⟨.stateUnavailable, .notCommitted⟩), r)
    | .available state requiresRewrite =>
      match nextDecision state requiresRewrite record enabled, save with
      | .error e, _ => (some (.error ⟨e, .notCommitted⟩), r)
      | .ok none, _ => (some (.ok ()), r)
      | .ok (some _), none => (none, r)
      | .ok (some next), some result =>
        let candidate := { r.publication with runtime := .available next false }
        let r := if result.outcome.committed then
          { r with publication := { candidate with snapshot := deriveSnapshot r.builtins candidate } } else r
        match result with
        | .ok outcome => if outcome.committed then (some (.ok ()), r) else (some (.error ⟨.statePersistFailed, outcome⟩), r)
        | .error outcome => (some (.error ⟨.statePersistFailed, outcome⟩), r)

/-- `set_enabled`; it succeeds with the new item of the plugin. -/
def setEnabled (id : String) (enabled : Bool) (expectedCatalogGeneration : String) (save : Option PersistResult) :
    Option (Except PluginError PluginCatalogItem) × PluginRegistry :=
  -- a text that is the decimal of the generation also parses to it
  if r.removalAuthorityUnreconciled || decide (expectedCatalogGeneration ≠ toString r.publication.catalogGeneration) then
    (some (.error .catalogStale), r)
  else if h : isReverseDomain id = true then
    if r.publication.runtime = .unavailable .catalogInvalid then (some (.error .catalogInvalid), r)
    else
      match r.builtins[(⟨id, h⟩ : PluginId)]?.or r.publication.locals[(⟨id, h⟩ : PluginId)]? with
      | none => (some (.error .notFound), r)
      | some record =>
        let management := managementForRecord r.publication record
        if management = .removalPending then (some (.error .removalPending), r)
        else
          match r.persistDecisionWithOutcome record enabled save with
          | (none, r) => (none, r)
          | (some (.error failure), r) => (some (.error failure.error), r)
          | (some (.ok ()), r) => (some (.ok ((catalogItem record enabled).withManagement management)), r)
  else (some (.error .invalidId), r)

/-! ## Import -/

end PluginRegistry

inductive ImportCommitFailure
  | catalogStale
  | catalogInvalid
  | catalogGenerationExhausted
  | stateUnavailable
  | statePersistFailed
  | stateCapacityExceeded
  | revisionExhausted
  | ownershipUnavailable
  | ownershipCapacityExceeded
  | ownershipRevisionExhausted
  | idConflict
  | discoveryUnavailable
  | capacityExceeded
  | stagingCapacityExceeded
  | writeFailed
  deriving DecidableEq, Repr

/-- The bytes of `CanonicalManifestV1`. `body` has the members from `publisher` to `contributions`. -/
def PluginManifest.canonicalLength (m : PluginManifest) : ℕ :=
  "\x7b\"schemaVersion\":,\"id\":\"\",\"publisherId\":\"\",,\"requestedCapabilities\":[]\x7d".utf8ByteSize +
    (Nat.toDigits 10 m.schemaVersion).length + m.id.1.utf8ByteSize + m.publisherId.1.utf8ByteSize + m.body.utf8ByteSize +
    (m.requestedCapabilities.map fun c => c.utf8ByteSize + 2).sum + (m.requestedCapabilities.length - 1)

/-- The bytes of `ReceiptCanonicalDto` -/
def OwnershipReceiptV1.canonicalLength (receipt : OwnershipReceiptV1) : ℕ :=
  "\x7b\"schemaVersion\":,\"receiptId\":\"\",\"packageSlot\":\"\",\"source\":\"\",\"pluginId\":\"\",\"publisherId\":\"\",\"approvalFingerprint\":\"\"\x7d".utf8ByteSize +
    (Nat.toDigits 10 receipt.schemaVersion).length + receipt.receiptId.1.utf8ByteSize + receipt.packageSlot.1.utf8ByteSize +
    receipt.source.text.utf8ByteSize + receipt.pluginId.1.utf8ByteSize + receipt.publisherId.1.utf8ByteSize +
    receipt.approvalFingerprint.utf8ByteSize

/-- `MAX_OWNERSHIP_RECEIPT_BYTES` -/
def maxOwnershipReceiptBytes : ℕ := 4 * 1024

/-- `OwnershipReceiptV1::new`; it fails for a record that is not local. -/
def OwnershipReceiptV1.make (receiptId : ReceiptId) (packageSlot : PackageSlot) (record : PluginRecord) :
    Option OwnershipReceiptV1 :=
  if record.source = .localDeclarative then
    some ⟨1, receiptId, packageSlot, record.source, record.manifest.id, record.manifest.publisherId, record.approvalFingerprint⟩
  else none

/-- `ManagedOwnershipEntryV1::managed`, for a receipt whose digest is its own -/
def ManagedOwnershipEntryV1.make (receipt : VerifiedPackageReceipt) (record : PluginRecord)
    (directoryIdentity manifestIdentity : FileIdentity) : Option ManagedOwnershipEntryV1 :=
  let entry : ManagedOwnershipEntryV1 :=
    { receiptId := receipt.model.receiptId
      lifecycle := .managed
      packageSlot := receipt.model.packageSlot
      pluginId := record.identity.id
      source := record.identity.source
      publisherId := record.identity.publisherId
      approvalFingerprint := record.identity.approvalFingerprint
      receiptSha256 := receipt.canonicalSha256
      directoryIdentity := directoryIdentity
      manifestIdentity := manifestIdentity
      receiptIdentity := receipt.fileIdentity }
  if receipt.model.matchesRecord record && entry.valid then some entry else none

namespace PluginRegistry

variable (r : PluginRegistry)

def validateImport (record : PluginRecord) (usage : ScanUsage) : Except ImportCommitFailure Unit := do
  ensure (r.removalAuthorityUnreconciled = false) .catalogStale
  match r.publication.runtime with
  | .unavailable .catalogInvalid => .error .catalogInvalid
  | .unavailable .stateUnavailable => .error .stateUnavailable
  | .available _ _ => pure ()
  ensure (r.publication.localSummary.status = .available) .discoveryUnavailable
  ensure (record.manifest.id ∉ r.builtins ∧ record.manifest.id ∉ r.publication.locals) .idConflict
  ensure (usage.canAddManifest record.manifest.canonicalLength) .capacityExceeded
  ensure (r.publication.catalogGeneration ≠ maxRevision) .catalogGenerationExhausted

/-- The receipt that `validate_managed_import` measures with -/
def sizingReceipt (record : PluginRecord) : Option OwnershipReceiptV1 :=
  OwnershipReceiptV1.make ⟨"550e8400e29b41d4a716446655440000", by decide⟩ ⟨"pkg-00000000000000000000000000000000", by decide⟩ record

/-- The entry it measures with; the width of the digest is fixed. -/
def sizingEntry (receipt : OwnershipReceiptV1) (record : PluginRecord) : Option ManagedOwnershipEntryV1 :=
  ManagedOwnershipEntryV1.make ⟨receipt, 0, ⟨0, 3⟩⟩ record ⟨0, 1⟩ ⟨0, 2⟩

/-- `canonical_bytes` of the index, by its length -/
def canonicalLength (index : ManagedOwnershipIndexV1) : Option ℕ :=
  match index.validateForPersistence with
  | .ok () => some index.byteLength
  | .error _ => none

/-- The state with the disabled decision of an import -/
def importDisabledCandidate (state : PluginStateFileV2) (record : PluginRecord) : Except ImportCommitFailure PluginStateFileV2 := do
  let entries := decideEntries state.entries record.identity false
  ensure (entries.length ≤ maxPluginStateEntries) .stateCapacityExceeded
  let entries := sortStateEntries entries
  if entries ≠ sortStateEntries state.entries then do
    ensure (state.revision + 1 ≤ maxRevision) .revisionExhausted
    pure { state with entries, revision := state.revision + 1 }
  else pure { state with entries }

/-- Both documents and both files of the package have room. -/
def reserveImport (index : ManagedOwnershipIndexV1) (state : PluginStateFileV2) (record : PluginRecord) (usage : ScanUsage) :
    Except ImportCommitFailure Unit := do
  ensure (index.entries.length < maxManagedOwnershipEntries) .ownershipCapacityExceeded
  ensure (index.revision + 1 ≤ maxRevision) .ownershipRevisionExhausted
  let receipt ← okOr (sizingReceipt record) .catalogInvalid
  ensure (receipt.canonicalLength ≤ maxOwnershipReceiptBytes) .capacityExceeded
  ensure (usage.bytesRead + record.manifest.canonicalLength + receipt.canonicalLength ≤ 2097152) .capacityExceeded
  let entry ← okOr (sizingEntry receipt record) .catalogInvalid
  let registered ← (ManagedOwnershipIndexV1.empty.register entry).mapError fun _ => .ownershipCapacityExceeded
  let grown ← okOr (canonicalLength registered) .ownershipCapacityExceeded
  let current ← okOr (canonicalLength index) .ownershipCapacityExceeded
  -- one separator if there are entries, and one more digit of the revision
  ensure (current + (grown - ManagedOwnershipIndexV1.empty.byteLength) + (if index.entries.isEmpty then 0 else 1) + 1 ≤
    maxManagedOwnershipBytes) .ownershipCapacityExceeded
  let next ← importDisabledCandidate state record
  ensure next.validateForPersistence .statePersistFailed

def validateManagedImport (record : PluginRecord) (usage : ScanUsage) (expectedGeneration : String) :
    Except ImportCommitFailure Unit := do
  ensure (expectedGeneration = toString r.publication.catalogGeneration) .catalogStale
  r.validateImport record usage
  match r.publication.ownership, r.publication.runtime with
  | .available index false, .available state _ => do
    ensure (r.publication.ownershipSummary.status ≠ .unavailable) .ownershipUnavailable
    reserveImport index state record usage
  | _, _ => .error .ownershipUnavailable

structure OwnershipMutationFailure where
  failure : OwnershipFailure
  persistOutcome : PersistOutcome
  deriving DecidableEq, Repr

def withOwnership (ownership : OwnershipRuntime) : PluginRegistry :=
  { r with publication := { r.publication with ownership } }

/-- `register_managed_import`; `none` if the save panicked. -/
def registerManagedImport (entry : ManagedOwnershipEntryV1) (save : Option PersistResult) :
    Option (Except OwnershipMutationFailure PersistOutcome) × PluginRegistry :=
  match r.publication.ownership with
  | .available index false =>
    match index.register entry, save with
    | .error failure, _ => (some (.error ⟨failure, .notCommitted⟩), r)
    | .ok _, none => (none, r)
    | .ok next, some result =>
      let r := if result.outcome.committed then r.withOwnership (.available next false) else r
      match result with
      | .ok outcome => if outcome.committed then (some (.ok outcome), r) else (some (.error ⟨.persistFailed, outcome⟩), r)
      | .error outcome => (some (.error ⟨.persistFailed, outcome⟩), r)
  | _ => (some (.error ⟨.unavailable, .notCommitted⟩), r)

def persistImportDisabled (record : PluginRecord) (save : Option PersistResult) :
    Option (Except StateDecisionFailure Unit) × PluginRegistry :=
  if record.source ≠ .localDeclarative ∨ r.publication.runtime = .unavailable .catalogInvalid then
    (some (.error ⟨.catalogInvalid, .notCommitted⟩), r)
  else r.persistDecisionWithOutcome record false save

/-- Whether an import has changed the state. A rewrite alone is no change. -/
def stateChanged : Runtime → Runtime → Bool
  | .available current _, .available next _ => decide (current ≠ next)
  | .unavailable current, .unavailable next => decide (current ≠ next)
  | _, _ => true

def adoptImportDocuments (candidate : PluginRegistry) : PluginRegistry :=
  { r with
    removalAuthorityUnreconciled := r.removalAuthorityUnreconciled ||
      stateChanged r.publication.runtime candidate.publication.runtime ||
      decide (r.publication.ownership.entries ≠ candidate.publication.ownership.entries)
    publication := { r.publication with
      runtime := candidate.publication.runtime
      ownership := candidate.publication.ownership } }

def publishImportCandidate (candidate : PluginRegistry) : Except PluginError PluginRegistry := do
  let (_, next) ← r.publishCandidate candidate.publication false
  pure { next with removalAuthorityUnreconciled := candidate.removalAuthorityUnreconciled }

def confirmsImportLocator (record : PluginRecord) (locator : LocalPackageLocator) : Bool :=
  decide (r.publication.locals[record.manifest.id]? = some record ∧
    r.publication.locators[record.manifest.id]? = some locator)

/-! ## Removal -/

end PluginRegistry

inductive BeforeDisabledFailure
  | catalogStale
  | catalogInvalid
  | catalogGenerationExhausted
  | stateUnavailable
  | statePersistFailed
  | stateCapacityExceeded
  | revisionExhausted
  | ownershipUnavailable
  | ownershipCapacityExceeded
  | ownershipRevisionExhausted
  | ownershipConflict
  | discoveryUnavailable
  | notManaged
  | requiresDisabled
  | storageUnavailable
  | identityChanged
  | stagingCapacityExceeded
  deriving DecidableEq, Repr

inductive AfterDisabledFailure
  | ownershipPersistFailed
  | removeWriteFailed
  | identityChanged
  deriving DecidableEq, Repr

structure RemovalPreflight where
  record : PluginRecord
  locator : LocalPackageLocator
  entry : ManagedOwnershipEntryV1

/-- The revision saturates: that there is a next one is checked by the preflight. -/
def removalDisabledCandidate (state : PluginStateFileV2) (record : PluginRecord) : PluginStateFileV2 :=
  { state with
    entries := sortStateEntries (decideEntries state.entries record.identity false)
    revision := min (state.revision + 1) maxRevision }

namespace PluginRegistry

variable (r : PluginRegistry)

/-- The last checks of `preflight_removal`: both documents have room and a next revision. -/
def reserveRemoval (state : PluginStateFileV2) (index : ManagedOwnershipIndexV1) (record : PluginRecord)
    (entry : ManagedOwnershipEntryV1) : Except BeforeDisabledFailure Unit := do
  let nextState := removalDisabledCandidate state record
  ensure (nextState.entries.length ≤ maxPluginStateEntries ∧ nextState.byteLength ≤ maxPluginStateBytes) .stateCapacityExceeded
  (index.preflightRemovalCapacity entry.receiptId).mapError fun _ => .ownershipCapacityExceeded
  ensure (r.publication.catalogGeneration + 1 ≤ maxRevision) .catalogGenerationExhausted
  ensure (state.revision + 1 ≤ maxRevision) .revisionExhausted
  (index.requireRevisionHeadroom 2).mapError fun _ => .ownershipRevisionExhausted

def preflightRemoval (id : PluginId) (expectedGeneration : String) : Except BeforeDisabledFailure RemovalPreflight := do
  let published := r.publication
  ensure (r.removalAuthorityUnreconciled = false ∧ expectedGeneration = toString published.catalogGeneration) .catalogStale
  match published.runtime with
  | .unavailable .catalogInvalid => .error .catalogInvalid
  | .unavailable .stateUnavailable => .error .stateUnavailable
  | .available state _ => do
    ensure (published.catalogGeneration ≠ 0 ∧ published.discovery.summary.status ≠ .unavailable ∧
      published.discovery.removals.status ≠ .unavailable) .discoveryUnavailable
    match published.ownership with
    | .available index false => do
      ensure (id ∉ r.builtins) .notManaged
      let record ← okOr published.locals[id]? .notManaged
      match managementForRecord published record with
      | .managed => pure ()
      | .ownershipConflict => .error .ownershipConflict
      | .ownershipUnavailable => .error .ownershipUnavailable
      | _ => .error .notManaged
      match published.discovery.plugins.filter fun package => decide (package.record.manifest.id = id) with
      | [package] => do
        let entry ← okOr (index.entries.find? fun entry => entry.provesManaged package) .ownershipConflict
        ensure (state.isEnabled record = false) .requiresDisabled
        r.reserveRemoval state index record entry
        pure ⟨record, package.locator, entry⟩
      | _ => .error .ownershipConflict
    | _ => .error .ownershipUnavailable

/-- `outcome_satisfies_destructive_barrier`; on Windows no save is more than committed. -/
def satisfiesDestructiveBarrier (windows : Bool) (outcome : PersistOutcome) : Bool :=
  if windows then outcome.committed else decide (outcome = .committedDurable)

/-- `save_before_destructive_rename`, with what the save has answered -/
def saveBeforeDestructiveRename (windows : Bool) : PersistResult → PersistResult
  | .ok outcome => if satisfiesDestructiveBarrier windows outcome then .ok outcome else .error outcome
  | .error outcome => .error outcome

def persistDisabledBeforeRemoval (windows : Bool) (record : PluginRecord) (save : PersistResult) :
    PersistResult × PluginRegistry :=
  match r.publication.runtime with
  | .unavailable _ => (.error .notCommitted, r)
  | .available state _ =>
    let result := saveBeforeDestructiveRename windows save
    let r := if result.outcome.committed then
      { r with publication := { r.publication with runtime := .available (removalDisabledCandidate state record) false } } else r
    (result, r)

def mutateRemovalIndex (mutation : ManagedOwnershipIndexV1 → Except OwnershipFailure ManagedOwnershipIndexV1)
    (save : PersistResult) : PersistResult × PluginRegistry :=
  match r.publication.ownership with
  | .unavailable => (.error .notCommitted, r)
  | .available index _ =>
    match mutation index with
    | .error _ => (.error .notCommitted, r)
    | .ok next => (save, if save.outcome.committed then r.withOwnership (.available next false) else r)

def persistRemoving (receipt : ReceiptId) (slot : RemovalSlot) (save : PersistResult) : PersistResult × PluginRegistry :=
  r.mutateRemovalIndex (fun index => index.beginRemoval receipt slot) save

def rollbackRemoving (receipt : ReceiptId) (save : PersistResult) : PersistResult × PluginRegistry :=
  r.mutateRemovalIndex (fun index => index.restoreManaged receipt) save

def deleteRemovedEntry (receipt : ReceiptId) (save : PersistResult) : PersistResult × PluginRegistry :=
  r.mutateRemovalIndex (fun index => index.remove receipt) save

/-- Nothing is saved to this store. -/
def noStore : IndexStore := ⟨fun _ => .error .notCommitted, 0, .empty⟩

/-- `build_reconciled_candidate`: no load and no write. -/
def buildReconciledCandidate (outcome : LocalDiscoveryOutcome) : PluginRegistry :=
  let next := r.withDiscovery r.publication outcome (r.publication.ownership.reconcileLoaded outcome false noStore)
  { r with publication := { next with snapshot := deriveSnapshot r.builtins next } }

def adoptRemovalDocuments (candidate : PluginRegistry) : PluginRegistry :=
  { r with
    removalAuthorityUnreconciled := r.removalAuthorityUnreconciled ||
      decide (r.publication.ownership.entries ≠ candidate.publication.ownership.entries)
    publication := { r.publication with
      runtime := candidate.publication.runtime
      ownership := candidate.publication.ownership } }

/-- `publish_candidate_once`: the candidate is compared with the frozen baseline. -/
def publishCandidateOnce (candidate baseline : PluginRegistry) : Except PluginError PluginRegistry := do
  let (_, publisher) ← baseline.publishCandidate candidate.publication false
  pure publisher

end PluginRegistry

end EasiFlux.Plugin
