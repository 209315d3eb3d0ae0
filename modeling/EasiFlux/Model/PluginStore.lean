import EasiFlux.Model.Catalog
import EasiFlux.Lib.Steps

/-!
# The plugin store of the user interface

`stores/plugin.ts`: the catalog as it is shown. Every call is an asynchronous flow: what it does
at once (`load`, `setEnabled`, ...) and what it does with its answer (`loadAnswered`,
`setEnabledAnswered`, ...). Between the two any other flow may run, so answers come in any order.

`PluginWorld` has the store, the requests under way and what the backend has published.
-/

namespace EasiFlux.Plugin

/-! ## What is shown -/

inductive PluginLoadStatus
  | idle
  | loading
  | ready
  | error
  deriving DecidableEq, Repr

inductive PluginImportStatus
  | idle
  | choosing
  | preview
  | committing
  | result
  deriving DecidableEq, Repr

inductive PluginRemovalStatus
  | idle
  | confirming
  | removing
  | result
  deriving DecidableEq, Repr

/-- What the store reads of a preview: the generation it was made in, and whether the plugin
is already there (`assessment.kind`). -/
structure ReadyLocalManifestImport where
  catalogGeneration : ℕ
  existingId : Bool
  deriving DecidableEq

structure RemovalTarget where
  plugin : PluginCatalogItem
  revision : ℕ
  catalogGeneration : ℕ
  deriving DecidableEq

/-- The state of `usePluginStore`. A map is a function, a flight is there or not. -/
structure PluginStore where
  catalog : List PluginCatalogItem
  revision : ℕ
  catalogGeneration : ℕ
  localDiscovery : Option LocalDiscoverySummary
  managedOwnership : Option ManagedOwnershipSummary
  availability : Option PluginAvailability
  availabilityReasonCode : Option PluginAvailabilityReason
  loadStatus : PluginLoadStatus
  loadError : Option String
  reloadStatus : PluginLoadStatus
  reloadError : Option String
  pendingIds : Finset PluginId
  importStatus : PluginImportStatus
  importPreview : Option ReadyLocalManifestImport
  importPreviewStale : Bool
  importOutcomeUnknown : Bool
  removalStatus : PluginRemovalStatus
  removalTarget : Option RemovalTarget
  removalConfirmationStale : Bool
  removalOutcomeUnknown : Bool
  activeCommandMutations : ℕ
  activeSnapshotRequests : ℕ
  commandAuthorityConfirmed : Bool
  commandEpoch : ℕ
  loadFlight : Bool
  reloadFlight : Bool
  importCommitFlight : Bool
  removalFlight : Bool
  hasConfirmedSnapshot : Bool
  snapshotSequence : ℕ
  confirmedSnapshotRevision : ℕ
  confirmedSnapshotOrder : ℕ
  latestAdoptedRequestOrder : ℕ
  mutationSequence : ℕ
  importOwnerSequence : ℕ
  activeImportOwner : Option ℕ
  removalOwnerSequence : ℕ
  activeRemovalOwner : Option ℕ
  mutationOwners : PluginId → Option ℕ
  confirmedItemRevisions : PluginId → Option ℕ

/-- `hasSameImmutableContent`. The service gives every field one order, so that equal texts
are equal values. -/
def PluginCatalogItem.hasSameImmutableContent (current returned : PluginCatalogItem) : Bool :=
  decide (current.source = returned.source ∧ current.manifest = returned.manifest ∧
    current.management = returned.management ∧
    current.toggleBlockReasonCode = returned.toggleBlockReasonCode ∧
    current.grantedCapabilities = returned.grantedCapabilities)

/-- The item of a plugin; the ids of a catalog are distinct. -/
def itemOf (catalog : List PluginCatalogItem) (id : PluginId) : Option PluginCatalogItem :=
  catalog.find? fun plugin => decide (plugin.manifest.id = id)

def replaceItem (catalog : List PluginCatalogItem) (id : PluginId) (item : PluginCatalogItem) : List PluginCatalogItem :=
  catalog.map fun plugin => if plugin.manifest.id = id then item else plugin

/-- What `set_plugin_enabled` answers -/
structure PluginCatalogMutationResult where
  revision : ℕ
  catalogGeneration : ℕ
  plugin : PluginCatalogItem
  deriving DecidableEq

/-- The checks of `setPluginEnabled` on its answer -/
def setPluginEnabled (id : PluginId) (enabled : Bool) (expectedCatalogGeneration : ℕ)
    (result : PluginCatalogMutationResult) : Option PluginCatalogMutationResult :=
  let expectedStatus : PluginStatus := if enabled then .enabled else .disabled
  if result.plugin.manifest.id ≠ id ∨ result.plugin.status ≠ expectedStatus ∨
      result.catalogGeneration ≠ expectedCatalogGeneration then none
  else some result

namespace PluginStore

def initial : PluginStore where
  catalog := []
  revision := 0
  catalogGeneration := 0
  localDiscovery := none
  managedOwnership := none
  availability := none
  availabilityReasonCode := none
  loadStatus := .idle
  loadError := none
  reloadStatus := .idle
  reloadError := none
  pendingIds := ∅
  importStatus := .idle
  importPreview := none
  importPreviewStale := false
  importOutcomeUnknown := false
  removalStatus := .idle
  removalTarget := none
  removalConfirmationStale := false
  removalOutcomeUnknown := false
  activeCommandMutations := 0
  activeSnapshotRequests := 0
  commandAuthorityConfirmed := false
  commandEpoch := 0
  loadFlight := false
  reloadFlight := false
  importCommitFlight := false
  removalFlight := false
  hasConfirmedSnapshot := false
  snapshotSequence := 0
  confirmedSnapshotRevision := 0
  confirmedSnapshotOrder := 0
  latestAdoptedRequestOrder := 0
  mutationSequence := 0
  importOwnerSequence := 0
  activeImportOwner := none
  removalOwnerSequence := 0
  activeRemovalOwner := none
  mutationOwners := fun _ => none
  confirmedItemRevisions := fun _ => none

variable (s : PluginStore)

/-- The new epoch is the epoch of the request that is made next. -/
def invalidateCommandAuthority : PluginStore :=
  { s with commandAuthorityConfirmed := false, commandEpoch := s.commandEpoch + 1 }

/-! ## Adopting a snapshot -/

def adoptGlobalRevision (nextRevision : ℕ) : PluginStore :=
  { s with revision := if s.revision < nextRevision then nextRevision else s.revision }

def hasSameGenerationStructure (snapshot : PluginCatalogSnapshot) : Bool :=
  decide (s.managedOwnership = some snapshot.managedOwnership) &&
  decide (snapshot.plugins.length = s.catalog.length) &&
  snapshot.plugins.all fun plugin =>
    match itemOf s.catalog plugin.manifest.id with
    | some current => current.hasSameImmutableContent plugin
    | none => false

/-- A new generation replaces all of the catalog. -/
def adoptGeneration (snapshot : PluginCatalogSnapshot) (requestOrder : ℕ) : PluginStore :=
  { s with
    catalog := snapshot.plugins
    catalogGeneration := snapshot.catalogGeneration
    revision := snapshot.revision
    availability := some snapshot.availability
    availabilityReasonCode := snapshot.availabilityReasonCode
    localDiscovery := some snapshot.localDiscovery
    managedOwnership := some snapshot.managedOwnership
    confirmedSnapshotRevision := snapshot.revision
    confirmedSnapshotOrder := requestOrder
    latestAdoptedRequestOrder := max s.latestAdoptedRequestOrder requestOrder
    confirmedItemRevisions := fun id => (itemOf snapshot.plugins id).map fun _ => snapshot.revision
    mutationOwners := fun _ => none
    pendingIds := ∅ }

/-- One item of a snapshot of the shown generation: an item confirmed at a later revision stays. -/
def nextItem (snapshotRevision : ℕ) (plugin : PluginCatalogItem) : PluginCatalogItem × ℕ :=
  match itemOf s.catalog plugin.manifest.id, s.confirmedItemRevisions plugin.manifest.id with
  | some current, some currentRevision =>
    if snapshotRevision < currentRevision then (current, currentRevision) else (plugin, snapshotRevision)
  | _, _ => (plugin, snapshotRevision)

/-- The items the snapshot does not have, where they are confirmed at a later revision. -/
def laterItems (snapshot : PluginCatalogSnapshot) : List (PluginCatalogItem × ℕ) :=
  s.catalog.filterMap fun current =>
    match itemOf snapshot.plugins current.manifest.id, s.confirmedItemRevisions current.manifest.id with
    | none, some currentRevision =>
      if snapshot.revision < currentRevision then some (current, currentRevision) else none
    | _, _ => none

def nextItems (snapshot : PluginCatalogSnapshot) : List (PluginCatalogItem × ℕ) :=
  snapshot.plugins.map (s.nextItem snapshot.revision) ++ s.laterItems snapshot

/-- A snapshot of the shown generation. -/
def mergeSnapshot (snapshot : PluginCatalogSnapshot) (requestOrder : ℕ) : PluginStore :=
  let items := s.nextItems snapshot
  let newest := decide (s.revision ≤ snapshot.revision)
  { s with
    confirmedSnapshotRevision := snapshot.revision
    confirmedSnapshotOrder := requestOrder
    latestAdoptedRequestOrder := max s.latestAdoptedRequestOrder requestOrder
    confirmedItemRevisions := fun id =>
      (items.find? fun item => decide (item.1.manifest.id = id)).map (·.2)
    catalog := (items.map (·.1)).mergeSort fun left right => decide (left.manifest.id ≤ right.manifest.id)
    availability := if newest then some snapshot.availability else s.availability
    availabilityReasonCode := if newest then snapshot.availabilityReasonCode else s.availabilityReasonCode
    localDiscovery := if newest then some snapshot.localDiscovery else s.localDiscovery
    managedOwnership := if newest then some snapshot.managedOwnership else s.managedOwnership
    revision := (s.adoptGlobalRevision snapshot.revision).revision }

/-- `adoptSnapshot`; `none` where it is refused, and then nothing changes. -/
def adoptSnapshot (snapshot : PluginCatalogSnapshot) (requestOrder : ℕ) : Option PluginStore :=
  if snapshot.catalogGeneration < s.catalogGeneration then none
  else if s.catalogGeneration < snapshot.catalogGeneration ∨ s.hasConfirmedSnapshot = false then
    some (s.adoptGeneration snapshot requestOrder)
  else if s.hasSameGenerationStructure snapshot = false then none
  else if snapshot.revision < s.confirmedSnapshotRevision ∨
      (snapshot.revision = s.confirmedSnapshotRevision ∧ requestOrder < s.confirmedSnapshotOrder) then none
  else some (s.mergeSnapshot snapshot requestOrder)

def markReadyPreviewStaleAfterAdoption : PluginStore :=
  match s.importPreview with
  | some preview =>
    if s.importStatus = .preview ∧ preview.catalogGeneration < s.catalogGeneration then
      { s with importPreviewStale := true }
    else s
  | none => s

def currentRemovalTargetMatches (target : RemovalTarget) : Bool :=
  decide (s.catalogGeneration = target.catalogGeneration) &&
  match itemOf s.catalog target.plugin.manifest.id with
  | some current =>
    decide (current.management = .managed ∧ current.status = .disabled ∧ current.canRemove = true) &&
      target.plugin.hasSameImmutableContent current
  | none => false

def markOpenRemovalConfirmationStaleAfterAdoption : PluginStore :=
  match s.removalTarget with
  | some target =>
    if s.removalStatus = .confirming ∧ s.removalConfirmationStale = false ∧
        s.currentRemovalTargetMatches target = false then
      { s with removalConfirmationStale := true }
    else s
  | none => s

/-- What follows the adoption of a snapshot. -/
def adopted (snapshot : PluginCatalogSnapshot) (requestCommandEpoch : ℕ) (finishingMutation : Bool) : PluginStore :=
  let s := s.markReadyPreviewStaleAfterAdoption.markOpenRemovalConfirmationStaleAfterAdoption
  { s with commandAuthorityConfirmed :=
      decide (requestCommandEpoch = s.commandEpoch) &&
      decide (s.activeCommandMutations = if finishingMutation then 1 else 0) &&
      decide (snapshot.revision = s.revision) }

def confirmAuthoritativeSnapshot (snapshot : PluginCatalogSnapshot) (requestOrder requestCommandEpoch : ℕ)
    (finishingMutation : Bool) : PluginStore :=
  let s := match s.adoptSnapshot snapshot requestOrder with
    | some s => s.adopted snapshot requestCommandEpoch finishingMutation
    | none => s
  { s with hasConfirmedSnapshot := true, loadStatus := .ready, loadError := none }

end PluginStore

/-! ## The flows

Each returns the request that is sent, if one is. -/

/-- A request with what its flow keeps until the answer comes. -/
inductive PluginRequest
  | load (requestOrder requestCommandEpoch : ℕ)
  | reload (requestOrder requestCommandEpoch : ℕ)
  | prepareImport (owner : ℕ)
  | commitImport (requestOrder requestCommandEpoch : ℕ)
  | removal (owner requestOrder requestCommandEpoch : ℕ)
  | setEnabled (id : PluginId) (enabled : Bool) (requestGeneration owner : ℕ)
  deriving DecidableEq

namespace PluginStore

variable (s : PluginStore)

def beginLoad : Option PluginRequest × PluginStore :=
  (some (.load (s.snapshotSequence + 1) (s.commandEpoch + 1)),
    { s.invalidateCommandAuthority with
      snapshotSequence := s.snapshotSequence + 1
      activeSnapshotRequests := s.activeSnapshotRequests + 1
      loadStatus := .loading
      loadError := none
      loadFlight := true })

def load : Option PluginRequest × PluginStore :=
  if s.loadFlight then (none, s)
  else if s.loadStatus ≠ .idle then (none, s)
  else s.beginLoad

def retry : Option PluginRequest × PluginStore :=
  if s.loadFlight then (none, s) else s.beginLoad

def loadAnswered (requestOrder requestCommandEpoch : ℕ) (answer : Except String PluginCatalogSnapshot) : PluginStore :=
  let s := match answer with
    | .ok snapshot => s.confirmAuthoritativeSnapshot snapshot requestOrder requestCommandEpoch false
    | .error message =>
      if requestOrder < s.latestAdoptedRequestOrder then { s with loadStatus := .ready }
      else { s with
        loadError := some message
        loadStatus := if s.hasConfirmedSnapshot then .ready else .error }
  { s with activeSnapshotRequests := s.activeSnapshotRequests - 1, loadFlight := false }

def reload : Option PluginRequest × PluginStore :=
  if s.reloadFlight then (none, s)
  else (some (.reload (s.snapshotSequence + 1) (s.commandEpoch + 1)),
    { s.invalidateCommandAuthority with
      snapshotSequence := s.snapshotSequence + 1
      activeSnapshotRequests := s.activeSnapshotRequests + 1
      reloadStatus := .loading
      reloadError := none
      reloadFlight := true })

def reloadAnswered (requestOrder requestCommandEpoch : ℕ) (answer : Except String PluginCatalogSnapshot) : PluginStore :=
  let s := match answer with
    | .ok snapshot =>
      { s.confirmAuthoritativeSnapshot snapshot requestOrder requestCommandEpoch false with reloadStatus := .ready }
    | .error message =>
      if requestOrder < s.latestAdoptedRequestOrder then { s with reloadStatus := .ready }
      else { s with reloadError := some message, reloadStatus := .error }
  { s with activeSnapshotRequests := s.activeSnapshotRequests - 1, reloadFlight := false }

def clearReadyImportState : PluginStore := { s with importPreview := none, importPreviewStale := false }

def prepareImport : Option PluginRequest × PluginStore :=
  if s.importStatus ≠ .idle then (none, s)
  else (some (.prepareImport (s.importOwnerSequence + 1)),
    { s.clearReadyImportState with
      commandEpoch := s.commandEpoch + 1
      importOwnerSequence := s.importOwnerSequence + 1
      activeImportOwner := some (s.importOwnerSequence + 1)
      importStatus := .choosing
      importOutcomeUnknown := false })

/-- The answer is a preview, or `none` where the user has cancelled. -/
def prepareImportAnswered (owner : ℕ) (answer : Except String (Option ReadyLocalManifestImport)) : PluginStore :=
  if s.activeImportOwner ≠ some owner ∨ s.importStatus ≠ .choosing then s
  else match answer with
  | .ok none => { s with activeImportOwner := none, importStatus := .idle }
  | .ok (some prepared) => { s with
      importPreview := some prepared
      importPreviewStale := s.hasConfirmedSnapshot && decide (prepared.catalogGeneration < s.catalogGeneration)
      importStatus := .preview }
  | .error _ => { s with activeImportOwner := none, importStatus := .result }

/-- `cancelImport`, and what `releaseImportView` does with a preview -/
def cancelImport : PluginStore :=
  if s.importStatus ≠ .preview ∨ s.importPreview = none then s
  else { s.clearReadyImportState with activeImportOwner := none, importStatus := .idle, importOutcomeUnknown := false }

def commitImport : Option PluginRequest × PluginStore :=
  if s.importCommitFlight then (none, s)
  else match s.importPreview with
  | none => (none, s)
  | some preview =>
    if s.importStatus ≠ .preview ∨ s.importPreviewStale = true then (none, s)
    else if preview.existingId then (none, s)
    else (some (.commitImport (s.snapshotSequence + 1) (s.commandEpoch + 1)),
      { s.invalidateCommandAuthority with
        importStatus := .committing
        activeCommandMutations := s.activeCommandMutations + 1
        importOutcomeUnknown := false
        snapshotSequence := s.snapshotSequence + 1
        importCommitFlight := true })

/-- The answer has the snapshot, and whether the status is `importedNotVisible`; an error, whether
it is known that nothing was written (the token is not valid, or an import is under way). -/
def commitImportAnswered (requestOrder requestCommandEpoch : ℕ) (answer : Except Bool (PluginCatalogSnapshot × Bool)) :
    PluginStore :=
  let s := match answer with
    | .ok (snapshot, notVisible) =>
      let s := s.confirmAuthoritativeSnapshot snapshot requestOrder requestCommandEpoch true
      let s := if notVisible then s.invalidateCommandAuthority else s
      { s with importOutcomeUnknown := false }
    | .error known => { s.invalidateCommandAuthority with importOutcomeUnknown := !known }
  { s.clearReadyImportState with
    activeCommandMutations := s.activeCommandMutations - 1
    activeImportOwner := none
    importStatus := .result
    importCommitFlight := false }

def releaseImportView : PluginStore :=
  if s.importStatus = .choosing then
    { s.clearReadyImportState with activeImportOwner := none, importOutcomeUnknown := false, importStatus := .idle }
  else s.cancelImport

def clearImportResult : PluginStore :=
  if s.importStatus ≠ .result then s else { s with importOutcomeUnknown := false, importStatus := .idle }

def clearRemovalState : PluginStore :=
  { s with removalTarget := none, removalConfirmationStale := false, removalOutcomeUnknown := false }

def beginRemoval (id : PluginId) : PluginStore :=
  if s.hasConfirmedSnapshot = false ∨ s.activeRemovalOwner ≠ none ∨ s.removalFlight = true ∨ s.removalStatus ≠ .idle then s
  else match itemOf s.catalog id with
  | none => s
  | some plugin =>
    if plugin.management ≠ .managed ∨ plugin.status ≠ .disabled ∨ plugin.canRemove ≠ true then s
    else { s.clearRemovalState with
      removalOwnerSequence := s.removalOwnerSequence + 1
      commandEpoch := s.commandEpoch + 1
      activeRemovalOwner := some (s.removalOwnerSequence + 1)
      removalTarget := some ⟨plugin, s.revision, s.catalogGeneration⟩
      removalStatus := .confirming }

/-- `cancelRemoval`, which is all that `releaseRemovalView` does -/
def cancelRemoval : PluginStore :=
  if s.removalStatus ≠ .confirming then s
  else { s.clearRemovalState with activeRemovalOwner := none, removalStatus := .idle }

def confirmRemoval : Option PluginRequest × PluginStore :=
  if s.removalFlight then (none, s)
  else match s.removalTarget, s.activeRemovalOwner with
  | some target, some owner =>
    if s.removalStatus ≠ .confirming ∨ s.removalConfirmationStale = true then (none, s)
    else if s.currentRemovalTargetMatches target = false then (none, { s with removalConfirmationStale := true })
    else (some (.removal owner (s.snapshotSequence + 1) (s.commandEpoch + 1)),
      { s.invalidateCommandAuthority with
        removalStatus := .removing
        activeCommandMutations := s.activeCommandMutations + 1
        removalOutcomeUnknown := false
        snapshotSequence := s.snapshotSequence + 1
        removalFlight := true })
  | _, _ => (none, s)

/-- The end of `confirmRemoval`, whatever its answer was -/
def removalEnded (owner : ℕ) : PluginStore :=
  if s.activeRemovalOwner = some owner then
    { s with
      activeCommandMutations := s.activeCommandMutations - 1
      removalFlight := false
      activeRemovalOwner := none
      removalStatus := .result }
  else { s with activeCommandMutations := s.activeCommandMutations - 1, removalFlight := false }

/-- The answer has the snapshot, and whether the status is `removedCatalogUnconfirmed`. -/
def removalAnswered (owner requestOrder requestCommandEpoch : ℕ) : Option (PluginCatalogSnapshot × Bool) → PluginStore
  | some (snapshot, unconfirmed) =>
    if s.activeRemovalOwner ≠ some owner then s.removalEnded owner
    else
      let s := s.confirmAuthoritativeSnapshot snapshot requestOrder requestCommandEpoch true
      (if unconfirmed then s.invalidateCommandAuthority else s).removalEnded owner
  | none =>
    let s := s.invalidateCommandAuthority
    (if s.activeRemovalOwner ≠ some owner then s else { s with removalOutcomeUnknown := true }).removalEnded owner

def clearRemovalResult : PluginStore :=
  if s.removalStatus ≠ .result then s else { s.clearRemovalState with removalStatus := .idle }

def setEnabled (id : PluginId) (enabled : Bool) : Option PluginRequest × PluginStore :=
  match itemOf s.catalog id with
  | none => (none, s)
  | some existing =>
    if existing.canToggle = false then (none, s)
    else (some (.setEnabled id enabled s.catalogGeneration (s.mutationSequence + 1)),
      { s with
        activeCommandMutations := s.activeCommandMutations + 1
        commandEpoch := s.commandEpoch + 1
        mutationSequence := s.mutationSequence + 1
        mutationOwners := Function.update s.mutationOwners id (some (s.mutationSequence + 1))
        pendingIds := insert id s.pendingIds })

/-- The answer is for the call that owns the plugin and for the generation that is shown, and it
is not older than what is shown of the plugin. -/
def acceptsResult (id : PluginId) (requestGeneration owner : ℕ) (result : PluginCatalogMutationResult) : Bool :=
  decide (s.mutationOwners id = some owner ∧ result.catalogGeneration = requestGeneration ∧
    s.catalogGeneration = requestGeneration) &&
  match itemOf s.catalog id with
  | none => false
  | some current =>
    (match s.confirmedItemRevisions id with
      | some confirmedRevision => decide (confirmedRevision ≤ result.revision)
      | none => true) &&
    current.hasSameImmutableContent result.plugin

/-- The item takes the place of the shown one. -/
def showResult (id : PluginId) (result : PluginCatalogMutationResult) : PluginStore :=
  let s := { s with
    catalog := replaceItem s.catalog id result.plugin
    confirmedItemRevisions := Function.update s.confirmedItemRevisions id (some result.revision) }
  (s.adoptGlobalRevision result.revision).markOpenRemovalConfirmationStaleAfterAdoption

/-- The end of `setEnabled`, whatever its answer was -/
def setEnabledEnded (id : PluginId) (owner : ℕ) : PluginStore :=
  if s.mutationOwners id = some owner then
    { s with
      activeCommandMutations := s.activeCommandMutations - 1
      mutationOwners := Function.update s.mutationOwners id none
      pendingIds := s.pendingIds.erase id }
  else { s with activeCommandMutations := s.activeCommandMutations - 1 }

/-- What `setEnabled` returns, and the store; an answer that fails is `none`. -/
def setEnabledAnswered (id : PluginId) (requestGeneration owner : ℕ) : Option PluginCatalogMutationResult → Bool × PluginStore
  | some result =>
    if s.acceptsResult id requestGeneration owner result then (true, (s.showResult id result).setEnabledEnded id owner)
    else (false, s.invalidateCommandAuthority.setEnabledEnded id owner)
  | none => (false, s.invalidateCommandAuthority.setEnabledEnded id owner)

end PluginStore

/-! ## The system -/

/-- A catalog that passes `parseSnapshot` has its plugins in the order of their ids. -/
def PluginCatalogSnapshot.Ordered (s : PluginCatalogSnapshot) : Prop :=
  s.plugins.Pairwise fun a b => a.manifest.id < b.manifest.id

instance (s : PluginCatalogSnapshot) : Decidable s.Ordered := inferInstanceAs (Decidable (List.Pairwise _ _))

/-- The part of an item that belongs to the generation. -/
structure ItemContent where
  manifest : PluginManifest
  source : PluginSource
  management : PluginManagement
  toggleBlockReasonCode : Option PluginToggleBlockReason
  grantedCapabilities : List String
  deriving DecidableEq

def PluginCatalogItem.content (item : PluginCatalogItem) : ItemContent :=
  ⟨item.manifest, item.source, item.management, item.toggleBlockReasonCode, item.grantedCapabilities⟩

/-- **The law of catalog versions**: `publish_candidate` starts a new generation, or raises the
revision and keeps the structure. -/
def PluginCatalogSnapshot.Follows (old new : PluginCatalogSnapshot) : Prop :=
  old.catalogGeneration < new.catalogGeneration ∨
  (old.catalogGeneration = new.catalogGeneration ∧ old.revision < new.revision ∧
    old.managedOwnership = new.managedOwnership ∧
    old.plugins.map PluginCatalogItem.content = new.plugins.map PluginCatalogItem.content)

instance (old new : PluginCatalogSnapshot) : Decidable (old.Follows new) := inferInstanceAs (Decidable (_ ∨ _))

/-- The backend has worked on a request: what is published then, the place of that in the history,
and whether the request succeeded. -/
structure PluginExecution where
  position : ℕ
  snapshot : PluginCatalogSnapshot
  ok : Bool

/-- A request under way, with the place in the history at which it was sent. -/
structure PluginFlight where
  ticket : ℕ
  base : ℕ
  request : PluginRequest
  execution : Option PluginExecution

/-- How an answer comes in: with what the backend has done, with the result of the dialog, or as
a failure (also of a request that was carried out). -/
inductive PluginAnswer
  | done (partly : Bool)
  | prepared (preview : Option ReadyLocalManifestImport)
  | failed (message : String) (known : Bool)

/-- What the store gets. -/
inductive PluginReply
  | snapshot (snapshot : PluginCatalogSnapshot) (partly : Bool)
  | mutation (result : PluginCatalogMutationResult)
  | prepared (preview : Option ReadyLocalManifestImport)
  | failed (message : String) (known : Bool)

/-- `none`: this answer cannot come. -/
def PluginFlight.reply (f : PluginFlight) : PluginAnswer → Option PluginReply
  | .failed message known => some (.failed message known)
  | .prepared preview =>
    match f.request with
    | .prepareImport _ => some (.prepared preview)
    | _ => none
  | .done partly => do
    let e ← f.execution
    if e.ok then
      match f.request with
      | .setEnabled id enabled generation _ =>
        let item ← itemOf e.snapshot.plugins id
        let result ← setPluginEnabled id enabled generation ⟨e.snapshot.revision, e.snapshot.catalogGeneration, item⟩
        pure (.mutation result)
      | .prepareImport _ => none
      | _ => some (.snapshot e.snapshot partly)
    else none

def PluginRequest.isMutation : PluginRequest → Bool
  | .load .. => false
  | .reload .. => false
  | .prepareImport .. => false
  | .commitImport .. => true
  | .removal .. => true
  | .setEnabled .. => true

/-- The rest of a flow, once its answer is there. -/
def PluginStore.answered (s : PluginStore) : PluginRequest → PluginReply → PluginStore
  | .load order epoch, .snapshot snapshot _ => s.loadAnswered order epoch (.ok snapshot)
  | .load order epoch, .failed message _ => s.loadAnswered order epoch (.error message)
  | .reload order epoch, .snapshot snapshot _ => s.reloadAnswered order epoch (.ok snapshot)
  | .reload order epoch, .failed message _ => s.reloadAnswered order epoch (.error message)
  | .prepareImport owner, .prepared preview => s.prepareImportAnswered owner (.ok preview)
  | .prepareImport owner, .failed message _ => s.prepareImportAnswered owner (.error message)
  | .commitImport order epoch, .snapshot snapshot partly => s.commitImportAnswered order epoch (.ok (snapshot, partly))
  | .commitImport order epoch, .failed _ known => s.commitImportAnswered order epoch (.error known)
  | .removal owner order epoch, .snapshot snapshot partly => s.removalAnswered owner order epoch (some (snapshot, partly))
  | .removal owner order epoch, .failed _ _ => s.removalAnswered owner order epoch none
  | .setEnabled id _ generation owner, .mutation result => (s.setEnabledAnswered id generation owner (some result)).2
  | .setEnabled id _ generation owner, .failed _ _ => (s.setEnabledAnswered id generation owner none).2
  | _, _ => s

inductive PluginCall
  | load
  | retry
  | reload
  | setEnabled (id : PluginId) (enabled : Bool)
  | prepareImport
  | cancelImport
  | commitImport
  | releaseImportView
  | clearImportResult
  | beginRemoval (id : PluginId)
  | cancelRemoval
  | confirmRemoval
  | clearRemovalResult

def PluginStore.call (s : PluginStore) : PluginCall → Option PluginRequest × PluginStore
  | .load => s.load
  | .retry => s.retry
  | .reload => s.reload
  | .setEnabled id enabled => s.setEnabled id enabled
  | .prepareImport => s.prepareImport
  | .cancelImport => (none, s.cancelImport)
  | .commitImport => s.commitImport
  | .releaseImportView => (none, s.releaseImportView)
  | .clearImportResult => (none, s.clearImportResult)
  | .beginRemoval id => (none, s.beginRemoval id)
  | .cancelRemoval => (none, s.cancelRemoval)
  | .confirmRemoval => s.confirmRemoval
  | .clearRemovalResult => (none, s.clearRemovalResult)

/-- An answer that has come with data: a catalog, or what a catalog says of one plugin (`only`).
`overtaken`: the plugin has been set again since this was asked. -/
structure PluginReceived where
  snapshot : PluginCatalogSnapshot
  only : Option PluginId
  overtaken : Bool
  deriving DecidableEq

/-- `received`, `settled` and `lastCall` record what has happened: the data that came, the places in
the history at which the mutations that are settled took effect, and the last call that set a plugin. -/
structure PluginWorld where
  store : PluginStore
  past : List PluginCatalogSnapshot
  current : PluginCatalogSnapshot
  flights : List PluginFlight
  issued : ℕ
  received : List PluginReceived
  settled : List ℕ
  lastCall : PluginId → Option ℕ

inductive PluginEvent
  | call (c : PluginCall)
  | publish (snapshot : PluginCatalogSnapshot)
  | execute (ticket : ℕ) (snapshot : PluginCatalogSnapshot) (ok : Bool)
  | answer (ticket : ℕ) (a : PluginAnswer)

namespace PluginWorld

def initial (current : PluginCatalogSnapshot) : PluginWorld :=
  ⟨.initial, [], current, [], 0, [], [], fun _ => none⟩

variable (w : PluginWorld)

/-- All that the backend has published. -/
def history : List PluginCatalogSnapshot := w.past ++ [w.current]

def flight (ticket : ℕ) : Option PluginFlight := w.flights.find? fun f => decide (f.ticket = ticket)

/-- The last call that sets each plugin, after a request. -/
def lastCallAfter (lastCall : PluginId → Option ℕ) : PluginRequest → PluginId → Option ℕ
  | .setEnabled id _ _ owner => Function.update lastCall id (some owner)
  | _ => lastCall

def sent (store : PluginStore) (request : PluginRequest) : PluginWorld :=
  { w with
    store := store
    flights := w.flights ++ [⟨w.issued, w.past.length, request, none⟩]
    issued := w.issued + 1
    lastCall := lastCallAfter w.lastCall request }

/-- The backend publishes, where its law allows it. -/
def published (snapshot : PluginCatalogSnapshot) : Option PluginWorld :=
  if snapshot = w.current then some w
  else if snapshot.Ordered ∧ w.current.Follows snapshot then
    some { w with past := w.past ++ [w.current], current := snapshot }
  else none

def executed (f : PluginFlight) (ok : Bool) : PluginWorld :=
  { w with flights := w.flights.map fun g =>
      if g.ticket = f.ticket then { f with execution := some ⟨w.past.length, w.current, ok⟩ } else g }

/-- The data of an answer. -/
def news (f : PluginFlight) : PluginReply → List PluginReceived
  | .snapshot snapshot _ => [⟨snapshot, none, false⟩]
  | .mutation _ =>
    match f.request, f.execution with
    | .setEnabled id _ _ owner, some e => [⟨e.snapshot, some id, decide (w.lastCall id ≠ some owner)⟩]
    | _, _ => []
  | _ => []

def answered (f : PluginFlight) (reply : PluginReply) : PluginWorld :=
  { w with
    store := w.store.answered f.request reply
    flights := w.flights.filter fun g => decide (g.ticket ≠ f.ticket)
    received := w.received ++ w.news f reply
    settled := match f.execution with
      | some e => if f.request.isMutation then w.settled ++ [e.position] else w.settled
      | none => w.settled }

/-- An event that cannot happen changes nothing. -/
def step : PluginEvent → PluginWorld
  | .call c =>
    match w.store.call c with
    | (some request, store) => w.sent store request
    | (none, store) => { w with store := store }
  | .publish snapshot => (w.published snapshot).getD w
  | .execute ticket snapshot ok =>
    match w.flight ticket, w.published snapshot with
    | some f, some w' => if f.execution.isNone then w'.executed f ok else w
    | _, _ => w
  | .answer ticket a =>
    match w.flight ticket with
    | none => w
    | some f =>
      match f.reply a with
      | none => w
      | some reply => w.answered f reply

def run (current : PluginCatalogSnapshot) (events : List PluginEvent) : PluginWorld :=
  Steps.run step (initial current) events

end PluginWorld

end EasiFlux.Plugin
