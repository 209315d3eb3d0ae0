import EasiFlux.Lib.Mortal
import EasiFlux.Lib.Steps
import EasiFlux.Model.Registry

/-!
# Imports and removals of plugins

`plugin::runtime::import::run_commit_blocking` and `plugin::runtime::removal::run_removal`. They
work on a copy of the registry and hand over documents and a finished catalog to the live
one. All of it holds the operation gate, so the calls on one registry come one after the
other (`PluginRegistry.step`).

What the stores, the package storage and the scans answer is in a script. In a removal an answer may be missing:
the task panics or the process dies there. An import catches its panics, so its script says
where they happen. `LifecycleEvent`s record what was done outside the registry.
-/

namespace EasiFlux.Plugin

inductive RemovalStorageFailure
  | unavailable
  | identityChanged
  | stagingCapacityExceeded
  | provenWriteFailure
  deriving DecidableEq, Repr

structure VerifiedQuarantine where
  entry : ManagedOwnershipEntryV1
  removalSlot : RemovalSlot
  deriving DecidableEq

inductive QuarantineRenameOutcome
  | committed (evidence : VerifiedQuarantine)
  | provenNotCommitted (failure : RemovalStorageFailure)
  | commitUnconfirmed
  deriving DecidableEq

inductive KnownCleanupShape
  | full
  | receiptOnly
  | emptyDirectory
  | bothAbsent
  deriving DecidableEq, Repr

inductive CleanupOutcome
  | removed
  | pending (shape : KnownCleanupShape)
  | conflict
  deriving DecidableEq, Repr

inductive ImportPromotionState
  | notCommitted
  | committed
  | commitUnconfirmed
  deriving DecidableEq, Repr

structure PromotedManagedPackage where
  entry : ManagedOwnershipEntryV1
  locator : LocalPackageLocator
  deriving DecidableEq

/-- What a promotion came to: its evidence, how far it was when it failed, or a panic. -/
inductive Promotion
  | promoted (package : PromotedManagedPackage)
  | failed (state : ImportPromotionState)
  | panicked
  deriving DecidableEq

inductive LifecycleEvent
  | stateSaved (state : PluginStateFileV2) (result : PersistResult)
  | indexSaved (index : ManagedOwnershipIndexV1) (result : PersistResult)
  | promotionTried (promotion : Promotion)
  | renameTried (outcome : QuarantineRenameOutcome)
  | cleanupTried (outcome : CleanupOutcome)

/-- The live registry, and what was done outside. -/
structure Live where
  registry : PluginRegistry
  log : List LifecycleEvent

namespace Live

def note (event : LifecycleEvent) : Mortal Live Unit := Mortal.modify fun s => { s with log := s.log ++ [event] }

/-- The save of the index that a registry asks for with this change, if it asks and gets an answer. -/
def noteIndexSave (r : PluginRegistry) (mutation : ManagedOwnershipIndexV1 → Except OwnershipFailure ManagedOwnershipIndexV1)
    (answer : Option PersistResult) : Mortal Live Unit :=
  match r.publication.ownership, answer with
  | .available index _, some result =>
    match mutation index with
    | .ok next => note (.indexSaved next result)
    | .error _ => pure ()
  | _, _ => pure ()

/-- The save of the state that a decision asks for, if it asks and gets an answer. -/
def noteDecisionSave (r : PluginRegistry) (record : PluginRecord) (enabled : Bool) (answer : Option PersistResult) :
    Mortal Live Unit :=
  match r.publication.runtime, answer with
  | .available state rewrite, some result =>
    match PluginRegistry.nextDecision state rewrite record enabled with
    | .ok (some next) => note (.stateSaved next result)
    | _ => pure ()
  | _, _ => pure ()

/-- The save of the state before a removal. -/
def noteDisabledSave (r : PluginRegistry) (record : PluginRecord) (result : PersistResult) : Mortal Live Unit :=
  match r.publication.runtime with
  | .available state _ => note (.stateSaved (removalDisabledCandidate state record) result)
  | .unavailable _ => pure ()

def snapshot : Mortal Live PluginCatalogSnapshot := do
  let s ← Mortal.get
  pure s.registry.catalogSnapshot

end Live

/-! ## Import -/

inductive CommitImportResult
  | imported (pluginId : PluginId) (snapshot : PluginCatalogSnapshot)
  | notImported (disabledDecisionSaved : Bool) (reasonCode : ImportCommitFailure) (snapshot : PluginCatalogSnapshot)
  | importedNotVisible (pluginId : PluginId) (snapshot : PluginCatalogSnapshot)
  | importedExternal (pluginId : PluginId) (snapshot : PluginCatalogSnapshot)

/-- The claimed session, and the answers. `prescanPanics` and `postscanPanics`: the index store
panics while the scan is applied. -/
structure ImportScript where
  record : PluginRecord
  leaseGeneration : ℕ
  expectedGeneration : String
  prescan : PluginRegistry.Scan
  prescanPanics : Bool
  /-- `none` is a panic -/
  prepareStage : Option (Except ImportCommitFailure Unit)
  stateSave : Option PersistResult
  promotion : Promotion
  indexSave : Option PersistResult
  postscan : PluginRegistry.Scan
  postscanPanics : Bool

def matchesGeneration (requested : String) (lease current : ℕ) : Bool :=
  decide (requested = toString lease ∧ current = lease)

def importStateFailure : PluginError → ImportCommitFailure
  | .catalogInvalid => .catalogInvalid
  | .stateUnavailable => .stateUnavailable
  | .stateCapacityExceeded => .stateCapacityExceeded
  | .revisionExhausted => .revisionExhausted
  | _ => .statePersistFailed

def classifyImportResult (record : PluginRecord) (registered locatorConfirmed : Bool) (snapshot : PluginCatalogSnapshot) :
    CommitImportResult :=
  let expected := PluginCatalogItem.disabled record.manifest record.source
  if snapshot.availability = .available ∧ registered = true ∧ locatorConfirmed = true ∧
      expected.withManagement .managed ∈ snapshot.plugins then .imported record.manifest.id snapshot
  else if snapshot.availability = .available ∧ registered = false ∧ locatorConfirmed = true ∧
      expected ∈ snapshot.plugins then .importedExternal record.manifest.id snapshot
  else .importedNotVisible record.manifest.id snapshot

namespace ImportScript

variable (script : ImportScript)

abbrev Result := Except PluginError CommitImportResult

def failedImport (failure : ImportCommitFailure) (saved : Bool) : Mortal Live Result := do
  let snapshot ← Live.snapshot
  pure (.ok (.notImported saved failure snapshot))

def unconfirmedImport : Mortal Live Result := do
  let snapshot ← Live.snapshot
  pure (.ok (.importedNotVisible script.record.manifest.id snapshot))

def adopt (candidate : PluginRegistry) : Mortal Live Unit :=
  Mortal.modify fun s => { s with registry := s.registry.adoptImportDocuments candidate }

def publish (candidate : PluginRegistry) : Mortal Live (Except PluginError Unit) :=
  Mortal.attempt fun s => (s.registry.publishImportCandidate candidate).map fun registry => { s with registry }

/-- From the last scan on. -/
def finishImport (candidate : PluginRegistry) (promoted : Option PromotedManagedPackage) (registered uncertain : Bool) :
    Mortal Live Result :=
  if script.postscan.outcome.summary.status = .unavailable then script.unconfirmedImport
  else
    match script.postscanPanics, candidate.applyLocalDiscovery script.postscan with
    | false, (.ok _, candidate) =>
      if uncertain then script.unconfirmedImport
      else do
        let locatorConfirmed := promoted.any fun proof => candidate.confirmsImportLocator script.record proof.locator
        match ← publish candidate with
        | .error _ => script.unconfirmedImport
        | .ok () => do
          let snapshot ← Live.snapshot
          pure (.ok (classifyImportResult script.record registered locatorConfirmed snapshot))
    | _, _ => script.unconfirmedImport

/-- The promoted package is registered if its evidence proves it. -/
def registerPromoted (candidate : PluginRegistry) (proof : PromotedManagedPackage) : Mortal Live Result :=
  if proof.entry.provesManaged ⟨script.record, proof.locator⟩ then do
    Live.noteIndexSave candidate (fun index => index.register proof.entry) script.indexSave
    let (registration, candidate) := candidate.registerManagedImport proof.entry script.indexSave
    adopt candidate
    match registration with
    | some (.ok _) => script.finishImport candidate (some proof) true false
    | some (.error failure) =>
      script.finishImport candidate (some proof) false (decide (failure.persistOutcome ≠ .notCommitted))
    | none => script.finishImport candidate (some proof) false true
  else script.finishImport candidate (some proof) false false

def promoteStaged (candidate : PluginRegistry) : Mortal Live Result := do
  Live.note (.promotionTried script.promotion)
  match script.promotion with
  | .promoted proof => script.registerPromoted candidate proof
  | .failed .notCommitted => do
    match ← publish candidate with
    | .error e => pure (.error e)
    | .ok () => failedImport .writeFailed true
  -- an error after a committed or unconfirmed promotion says no more than a panic
  | .failed _ | .panicked => script.finishImport candidate none false true

/-- The disabled decision is saved before anything is promoted. -/
def commitStaged (candidate : PluginRegistry) : Mortal Live Result := do
  Live.noteDecisionSave candidate script.record false script.stateSave
  let (persisted, candidate) := candidate.persistImportDisabled script.record script.stateSave
  adopt candidate
  match persisted with
  | none => pure (.error .internal)
  | some (.error failure) => failedImport (importStateFailure failure.error) failure.persistOutcome.committed
  | some (.ok ()) => script.promoteStaged candidate

/-- `run_commit_blocking` -/
def runCommit : Mortal Live Result := do
  let live ← Mortal.get
  if !matchesGeneration script.expectedGeneration script.leaseGeneration live.registry.catalogGeneration then
    failedImport .catalogStale false
  else if script.prescanPanics then pure (.error .internal)
  else
    match live.registry.applyLocalDiscovery script.prescan with
    | (.error .catalogGenerationExhausted, _) => failedImport .catalogGenerationExhausted false
    | (.error _, _) => pure (.error .internal)
    | (.ok _, candidate) =>
      if !matchesGeneration script.expectedGeneration script.leaseGeneration candidate.catalogGeneration then do
        match ← publish candidate with
        | .error e => pure (.error e)
        | .ok () => failedImport .catalogStale false
      else
        match script.prescan.outcome.usage with
        | none => failedImport .discoveryUnavailable false
        | some usage =>
          match candidate.validateManagedImport script.record usage script.expectedGeneration, script.prepareStage with
          | .error reason, _ => failedImport reason false
          | .ok (), none => pure (.error .internal)
          | .ok (), some (.error reason) => failedImport reason false
          | .ok (), some (.ok ()) => script.commitStaged candidate

end ImportScript

/-! ## Removal -/

inductive RemoveManagedLocalPluginResult
  | removed (pluginId : PluginId) (snapshot : PluginCatalogSnapshot)
  | removedCleanupPending (pluginId : PluginId) (snapshot : PluginCatalogSnapshot)
  | removedCatalogUnconfirmed (pluginId : PluginId) (snapshot : PluginCatalogSnapshot)
  | notRemoved (reason : BeforeDisabledFailure) (snapshot : PluginCatalogSnapshot)
  | notRemovedAfterDisabled (reason : AfterDisabledFailure) (snapshot : PluginCatalogSnapshot)

/-- The request and the answers; a missing one ends the task. -/
structure RemovalScript where
  windows : Bool
  id : String
  generation : String
  prepare : Option (Except RemovalStorageFailure RemovalSlot)
  disabledSave : Option PersistResult
  removingSave : Option PersistResult
  reverify : Option (Except RemovalStorageFailure Unit)
  quarantine : Option QuarantineRenameOutcome
  rollbackSave : Option PersistResult
  verify : Option (Except RemovalStorageFailure VerifiedQuarantine)
  discover : Option LocalDiscoveryOutcome
  cleanup : Option CleanupOutcome
  deleteSave : Option PersistResult

def beforeStorageFailure : RemovalStorageFailure → BeforeDisabledFailure
  | .identityChanged => .identityChanged
  | .stagingCapacityExceeded => .stagingCapacityExceeded
  | .unavailable | .provenWriteFailure => .storageUnavailable

def barrierSucceeded (windows : Bool) : PersistResult → Bool
  | .ok outcome => PluginRegistry.satisfiesDestructiveBarrier windows outcome
  | .error _ => false

/-- What is left in the removal slot after the cleanup; `none` if it is not touched. -/
def CleanupOutcome.shape : CleanupOutcome → Option (Option RemovalObservationShape)
  | .conflict => none
  | .removed | .pending .bothAbsent => some none
  | .pending .full => some (some .full)
  | .pending .receiptOnly => some (some .receiptOnly)
  | .pending .emptyDirectory => some (some .emptyDirectory)

def CleanupOutcome.physicallyClean : CleanupOutcome → Bool
  | .removed | .pending .bothAbsent => true
  | _ => false

def updateTargetObservation (outcome : LocalDiscoveryOutcome) (preflight : RemovalPreflight) (slot : RemovalSlot)
    (cleanup : CleanupOutcome) : LocalDiscoveryOutcome :=
  match cleanup.shape with
  | none => outcome
  | some shape =>
    let observations := outcome.removals.observations.filter fun object => decide (object.removalSlot ≠ slot)
    let occupiedSlots := outcome.removals.occupiedSlots.filter fun occupied => decide (occupied ≠ slot)
    match shape with
    | none => { outcome with removals := { outcome.removals with observations, occupiedSlots } }
    | some shape =>
      let observation : RemovalObservation :=
        { removalSlot := slot
          directoryIdentity := preflight.entry.directoryIdentity
          manifest := if shape = .full then some (preflight.record, preflight.entry.manifestIdentity) else none
          receipt := if shape ≠ .emptyDirectory then preflight.locator.receipt else none
          shape := shape }
      { outcome with removals := { outcome.removals with
          observations := observations ++ [observation]
          occupiedSlots := occupiedSlots ++ [slot] } }

/-- The scan shows by itself that the removal was interfered with. -/
def scanProvesConflict (outcome : LocalDiscoveryOutcome) (preflight : RemovalPreflight) (slot : RemovalSlot) : Bool :=
  outcome.occupiedSlots.contains preflight.entry.packageSlot ||
  outcome.removals.observations.any fun target =>
    decide (target.removalSlot = slot) &&
      (decide (target.directoryIdentity ≠ preflight.entry.directoryIdentity) ||
        decide (target.shape = .manifestOnly ∨ target.shape = .unknown) ||
        (target.receipt.any fun receipt => decide (receipt.fileIdentity ≠ preflight.entry.receiptIdentity) ||
          !preflight.entry.matchesReceipt receipt.model receipt.canonicalSha256) ||
        target.manifest.any fun (record, identity) =>
          decide (identity ≠ preflight.entry.manifestIdentity ∨ record ≠ preflight.record))

namespace RemovalScript

variable (script : RemovalScript)

abbrev Result := Except PluginError RemoveManagedLocalPluginResult

def adopt (candidate : PluginRegistry) : Mortal Live Unit :=
  Mortal.modify fun s => { s with registry := s.registry.adoptRemovalDocuments candidate }

/-- The live registry is replaced by the baseline with the candidate's catalog. -/
def publishOnce (candidate baseline : PluginRegistry) : Mortal Live (Except PluginError Unit) :=
  Mortal.attempt fun s => (candidate.publishCandidateOnce baseline).map fun registry => { s with registry }

/-- Publish, and answer with the snapshot. -/
def publishThen (candidate baseline : PluginRegistry) (result : PluginCatalogSnapshot → RemoveManagedLocalPluginResult) :
    Mortal Live Result := do
  match ← publishOnce candidate baseline with
  | .error e => pure (.error e)
  | .ok () => do
    let snapshot ← Live.snapshot
    pure (.ok (result snapshot))

def rollback (candidate baseline : PluginRegistry) (preflight : RemovalPreflight) (failure : AfterDisabledFailure) :
    Mortal Live Result := do
  let answer ← Mortal.ask script.rollbackSave
  Live.noteIndexSave candidate (fun index => index.restoreManaged preflight.entry.receiptId) (some answer)
  let (result, candidate) := candidate.rollbackRemoving preflight.entry.receiptId answer
  let failure := if result.outcome.committed then failure else .ownershipPersistFailed
  adopt candidate
  publishThen (candidate.buildReconciledCandidate baseline.publication.discovery) baseline
    (.notRemovedAfterDisabled failure)

/-- The catalog after the cleanup, and the answer. -/
def finishRemoval (candidate baseline : PluginRegistry) (preflight : RemovalPreflight) (slot : RemovalSlot)
    (renameUncertain verified : Bool) (outcome : LocalDiscoveryOutcome) (cleanup : CleanupOutcome)
    (deletion : Option PersistResult) : Mortal Live Result :=
  let scanAvailable := decide (outcome.summary.status ≠ .unavailable ∧ outcome.removals.status ≠ .unavailable)
  let indexClean := deletion.any fun result => result.outcome.committed
  let indexCommittedError := deletion.any fun result => result.toOption.isNone && result.outcome.committed
  let sourceRemains := outcome.plugins.any preflight.entry.matchesPackage
  if !scanAvailable || sourceRemains || (decide (cleanup = .conflict) && !scanProvesConflict outcome preflight slot) then
    pure (.ok (.removedCatalogUnconfirmed preflight.record.manifest.id baseline.catalogSnapshot))
  else
    let candidate := candidate.buildReconciledCandidate (updateTargetObservation outcome preflight slot cleanup)
    let reconciled := candidate.catalogSnapshot
    let conflicted := decide (0 < reconciled.managedOwnership.conflictingEntryCount) || decide (cleanup = .conflict)
    let pending := decide (0 < reconciled.managedOwnership.cleanupPendingCount)
    publishThen candidate baseline fun snapshot =>
      if renameUncertain || !verified || indexCommittedError || conflicted then
        .removedCatalogUnconfirmed preflight.record.manifest.id snapshot
      else if cleanup.physicallyClean && indexClean then .removed preflight.record.manifest.id snapshot
      else if pending then .removedCleanupPending preflight.record.manifest.id snapshot
      else .removedCatalogUnconfirmed preflight.record.manifest.id snapshot

/-- After the rename nothing is rolled back. -/
def afterRename (candidate baseline : PluginRegistry) (preflight : RemovalPreflight) (slot : RemovalSlot)
    (renameUncertain : Bool) : Mortal Live Result := do
  let evidence ← Mortal.ask script.verify
  let verified := match evidence with
    | .ok evidence => decide (evidence = ⟨preflight.entry.beginRemoval slot, slot⟩)
    | .error _ => false
  let outcome ← Mortal.ask script.discover
  let cleanup ← Mortal.ask script.cleanup
  Live.note (.cleanupTried cleanup)
  if cleanup.physicallyClean then do
    let answer ← Mortal.ask script.deleteSave
    Live.noteIndexSave candidate (fun index => index.remove preflight.entry.receiptId) (some answer)
    let (result, candidate) := candidate.deleteRemovedEntry preflight.entry.receiptId answer
    adopt candidate
    finishRemoval candidate baseline preflight slot renameUncertain verified outcome cleanup (some result)
  else do
    adopt candidate
    finishRemoval candidate baseline preflight slot renameUncertain verified outcome cleanup none

/-- Both documents say that the package goes; now it is renamed. -/
def quarantineOnce (candidate baseline : PluginRegistry) (preflight : RemovalPreflight) (slot : RemovalSlot) :
    Mortal Live Result := do
  match ← Mortal.ask script.reverify with
  | .error _ => script.rollback candidate baseline preflight .identityChanged
  | .ok () => do
    let rename ← Mortal.ask script.quarantine
    Live.note (.renameTried rename)
    match rename with
    | .provenNotCommitted failure =>
      script.rollback candidate baseline preflight
        (if failure = .identityChanged then .identityChanged else .removeWriteFailed)
    | .committed evidence =>
      if evidence = ⟨preflight.entry.beginRemoval slot, slot⟩ then script.afterRename candidate baseline preflight slot false
      else pure (.error .internal)
    | .commitUnconfirmed => script.afterRename candidate baseline preflight slot true

/-- The entry is marked as removing. -/
def markRemoving (candidate baseline : PluginRegistry) (preflight : RemovalPreflight) (slot : RemovalSlot) :
    Mortal Live Result := do
  let answer ← Mortal.ask script.removingSave
  Live.noteIndexSave candidate (fun index => index.beginRemoval preflight.entry.receiptId slot) (some answer)
  let (removing, candidate) := candidate.persistRemoving preflight.entry.receiptId slot answer
  adopt candidate
  if barrierSucceeded script.windows removing then script.quarantineOnce candidate baseline preflight slot
  else script.rollback candidate baseline preflight .ownershipPersistFailed

/-- The plugin is disabled once more, whatever was decided before. -/
def disable (baseline : PluginRegistry) (preflight : RemovalPreflight) (slot : RemovalSlot) : Mortal Live Result := do
  let answer ← Mortal.ask script.disabledSave
  Live.noteDisabledSave baseline preflight.record answer
  let (disabled, candidate) := baseline.persistDisabledBeforeRemoval script.windows preflight.record answer
  adopt candidate
  if barrierSucceeded script.windows disabled then script.markRemoving candidate baseline preflight slot
  else if disabled.outcome.committed then
    publishThen (candidate.buildReconciledCandidate baseline.publication.discovery) baseline
      (.notRemoved .statePersistFailed)
  else pure (.ok (.notRemoved .statePersistFailed baseline.catalogSnapshot))

/-- `run_removal` -/
def runRemoval : Mortal Live Result := do
  if h : isReverseDomain script.id = true then do
    let live ← Mortal.get
    let baseline := live.registry
    match baseline.preflightRemoval ⟨script.id, h⟩ script.generation with
    | .error reason => pure (.ok (.notRemoved reason baseline.catalogSnapshot))
    | .ok preflight => do
      match ← Mortal.ask script.prepare with
      | .error reason => pure (.ok (.notRemoved (beforeStorageFailure reason) baseline.catalogSnapshot))
      | .ok slot => script.disable baseline preflight slot
  else pure (.error .invalidId)

end RemovalScript

/-! ## The calls on a registry -/

inductive RegistryCall
  /-- a scan; `panics` says that the index store panics while it is applied -/
  | applyLocalDiscovery (scan : PluginRegistry.Scan) (panics : Bool)
  | retryStateLoad (load : Option (AppResult PluginStateLoad))
  | setEnabled (id : String) (enabled : Bool) (expectedCatalogGeneration : String) (save : Option PersistResult)
  | commitImport (script : ImportScript)
  | removeManagedLocalPlugin (script : RemovalScript)

namespace PluginRegistry

def step (r : PluginRegistry) : RegistryCall → PluginRegistry
  | .applyLocalDiscovery _ true => r
  | .applyLocalDiscovery scan false => (r.applyLocalDiscovery scan).2
  | .retryStateLoad load => r.retryStateLoad load
  | .setEnabled id enabled expected save => (r.setEnabled id enabled expected save).2
  | .commitImport script => (script.runCommit ⟨r, []⟩).2.registry
  | .removeManagedLocalPlugin script => (script.runRemoval ⟨r, []⟩).2.registry

end PluginRegistry

end EasiFlux.Plugin
