import EasiFlux.Lib.Newest
import EasiFlux.Lib.Results
import EasiFlux.Model.Packages

/-!
# The index of managed packages

`plugin::ownership`: the index that says which local packages the application has installed
itself, its checks and changes, and its reconciliation with what a scan has found
(`OwnershipRuntime::reconcile_loaded`).

A save answers what it likes. `IndexStore` counts the saves, answers the n-th one with
`answer n`, and remembers the index that was committed last.
-/

namespace EasiFlux.Plugin

open Results Newest

instance PluginId.transCmp : Std.TransCmp (compare : PluginId → PluginId → Ordering) := inferInstance

instance PluginId.lawfulEqOrd : Std.LawfulEqOrd PluginId := inferInstance

inductive OwnershipFailure
  | unavailable
  | persistFailed
  | capacityExceeded
  | revisionExhausted
  | conflict
  deriving DecidableEq, Repr

inductive OwnershipLifecycleV1
  | managed
  | removing (removalSlot : RemovalSlot)
  deriving DecidableEq

structure ManagedOwnershipEntryV1 where
  receiptId : ReceiptId
  lifecycle : OwnershipLifecycleV1
  packageSlot : PackageSlot
  pluginId : PluginId
  source : PluginSource
  publisherId : PluginPublisherId
  approvalFingerprint : String
  receiptSha256 : ℕ
  directoryIdentity : FileIdentity
  manifestIdentity : FileIdentity
  receiptIdentity : FileIdentity
  deriving DecidableEq

namespace ManagedOwnershipEntryV1

variable (e : ManagedOwnershipEntryV1)

def removalSlot : Option RemovalSlot :=
  match e.lifecycle with
  | .managed => none
  | .removing slot => some slot

def matchesReceipt (receipt : OwnershipReceiptV1) (digest : ℕ) : Bool :=
  decide (e.receiptId = receipt.receiptId ∧ e.packageSlot = receipt.packageSlot ∧ e.pluginId = receipt.pluginId ∧
    e.source = receipt.source ∧ e.publisherId = receipt.publisherId ∧
    e.approvalFingerprint = receipt.approvalFingerprint ∧ e.receiptSha256 = digest)

def matchesLocator (locator : LocalPackageLocator) : Bool :=
  decide (e.packageSlot = locator.packageSlot ∧ e.directoryIdentity = locator.directoryIdentity ∧
    e.manifestIdentity = locator.manifestIdentity) &&
  locator.receipt.any fun receipt => decide (e.receiptIdentity = receipt.fileIdentity)

def matchesPackage (package : DiscoveredLocalPlugin) : Bool :=
  package.locator.receipt.any fun receipt =>
    e.matchesReceipt receipt.model receipt.canonicalSha256 && e.matchesLocator package.locator &&
      receipt.model.matchesRecord package.record

def provesManaged (package : DiscoveredLocalPlugin) : Bool := e.removalSlot.isNone && e.matchesPackage package

def beginRemoval (removalSlot : RemovalSlot) : ManagedOwnershipEntryV1 := { e with lifecycle := .removing removalSlot }

def restoreManaged : ManagedOwnershipEntryV1 := { e with lifecycle := .managed }

/-- `validate`; that ids and slots are well formed is in their types. -/
def valid : Bool := decide (e.source = .localDeclarative) && validLocalFingerprint e.approvalFingerprint

def identities : List FileIdentity := [e.directoryIdentity, e.manifestIdentity, e.receiptIdentity]

/-- The bytes of a JSON string without escapes -/
def quotedLength (text : String) : ℕ := text.utf8ByteSize + 2

/-- The bytes of `EntryCanonicalDto`. Digest and identities are hex texts of fixed width. -/
def byteLength : ℕ :=
  "\x7b\"receiptId\":".utf8ByteSize + quotedLength e.receiptId.1 +
  ",\"lifecycle\":".utf8ByteSize +
  (match e.lifecycle with
    | .managed => "\"managed\"".utf8ByteSize
    | .removing slot => "\"removing\"".utf8ByteSize + ",\"removalSlot\":".utf8ByteSize + quotedLength slot.1) +
  ",\"packageSlot\":".utf8ByteSize + quotedLength e.packageSlot.1 +
  ",\"pluginId\":".utf8ByteSize + quotedLength e.pluginId.1 +
  ",\"source\":".utf8ByteSize +
  (match e.source with
    | .builtIn => quotedLength "builtIn"
    | .localDeclarative => quotedLength "localDeclarative") +
  ",\"publisherId\":".utf8ByteSize + quotedLength e.publisherId.1 +
  ",\"approvalFingerprint\":".utf8ByteSize + quotedLength e.approvalFingerprint +
  ",\"receiptSha256\":".utf8ByteSize + (64 + 2) +
  ",\"directoryIdentity\":,\"manifestIdentity\":,\"receiptIdentity\":".utf8ByteSize +
  3 * ("\x7b\"volume\":\"\",\"object\":\"\"\x7d".utf8ByteSize + 16 + 32) + "\x7d".utf8ByteSize

end ManagedOwnershipEntryV1

structure ManagedOwnershipIndexV1 where
  schemaVersion : ℕ
  revision : ℕ
  entries : List ManagedOwnershipEntryV1
  deriving DecidableEq

/-- `u64::MAX` -/
def maxRevision : ℕ := 2 ^ 64 - 1

/-- `MAX_MANAGED_OWNERSHIP_ENTRIES` -/
def maxManagedOwnershipEntries : ℕ := 160

/-- `MAX_MANAGED_OWNERSHIP_BYTES` -/
def maxManagedOwnershipBytes : ℕ := 256 * 1024

/-- The first element with `p` is replaced, as `iter_mut().find(..)` lets the caller do. -/
def updateFirst {α : Type} (p : α → Bool) (f : α → α) : List α → List α
  | [] => []
  | a :: as => if p a then f a :: as else a :: updateFirst p f as

namespace ManagedOwnershipIndexV1

variable (i : ManagedOwnershipIndexV1)

def empty : ManagedOwnershipIndexV1 := ⟨1, 0, []⟩

/-- What the loop of `validate` checks; every failure of it is a conflict. -/
def consistent : Bool :=
  i.entries.all ManagedOwnershipEntryV1.valid &&
  decide ((i.entries.map (·.receiptId)).Pairwise (· < ·)) &&
  decide ((i.entries.map (·.packageSlot)).Nodup) &&
  decide ((i.entries.map fun e => (e.pluginId, e.source)).Nodup) &&
  decide ((i.entries.filterMap (·.removalSlot)).Nodup) &&
  decide ((i.entries.flatMap (·.identities)).Nodup)

def validate : Except OwnershipFailure Unit := do
  ensure (i.schemaVersion = 1) .conflict
  ensure (i.entries.length ≤ maxManagedOwnershipEntries) .capacityExceeded
  ensure i.consistent .conflict

/-- The bytes of `IndexCanonicalDto`: the entries have a comma between each two. -/
def byteLength : ℕ :=
  "\x7b\"schemaVersion\":".utf8ByteSize + (Nat.toDigits 10 i.schemaVersion).length +
  ",\"revision\":\"\"".utf8ByteSize + (Nat.toDigits 10 i.revision).length +
  ",\"entries\":[]\x7d".utf8ByteSize + (i.entries.map (·.byteLength)).sum + (i.entries.length - 1)

def validateForPersistence : Except OwnershipFailure Unit := do
  i.validate
  ensure (i.byteLength ≤ maxManagedOwnershipBytes) .capacityExceeded

def requireRevisionHeadroom (steps : ℕ) : Except OwnershipFailure Unit :=
  ensure (i.revision + steps ≤ maxRevision) .revisionExhausted

/-- The entries sorted by receipt id, checked and numbered. -/
def finishChanged (next previous : ManagedOwnershipIndexV1) : Except OwnershipFailure ManagedOwnershipIndexV1 := do
  let next := { next with entries := next.entries.mergeSort fun a b => decide (a.receiptId ≤ b.receiptId) }
  next.validateForPersistence
  if next.entries = previous.entries then pure previous
  else do
    ensure (previous.revision + 1 ≤ maxRevision) .revisionExhausted
    pure { next with revision := previous.revision + 1 }

def register (entry : ManagedOwnershipEntryV1) : Except OwnershipFailure ManagedOwnershipIndexV1 :=
  if i.entries.contains entry then .ok i
  else finishChanged { i with entries := i.entries ++ [entry] } i

/-- The entry with this receipt id becomes `f` of it. -/
def updateEntry (receiptId : ReceiptId) (f : ManagedOwnershipEntryV1 → ManagedOwnershipEntryV1) :
    ManagedOwnershipIndexV1 :=
  { i with entries := updateFirst (fun e => decide (e.receiptId = receiptId)) f i.entries }

def beginRemoval (receiptId : ReceiptId) (removalSlot : RemovalSlot) :
    Except OwnershipFailure ManagedOwnershipIndexV1 :=
  match i.entries.find? fun e => decide (e.receiptId = receiptId) with
  | none => .error .conflict
  | some entry =>
    match entry.lifecycle with
    | .removing current => if current = removalSlot then .ok i else .error .conflict
    | .managed => do
      i.requireRevisionHeadroom 2
      finishChanged (i.updateEntry receiptId fun e => e.beginRemoval removalSlot) i

def restoreManaged (receiptId : ReceiptId) : Except OwnershipFailure ManagedOwnershipIndexV1 :=
  finishChanged (i.updateEntry receiptId ManagedOwnershipEntryV1.restoreManaged) i

def remove (receiptId : ReceiptId) : Except OwnershipFailure ManagedOwnershipIndexV1 :=
  finishChanged { i with entries := i.entries.filter fun e => decide (e.receiptId ≠ receiptId) } i

/-- The removal slot `preflight_removal_capacity` measures with -/
def sizingRemovalSlot : RemovalSlot := ⟨"remove-00000000000040008000000000000000", by decide⟩

def preflightRemovalCapacity (receipt : ReceiptId) : Except OwnershipFailure Unit := do
  ensure (i.entries.any fun e => decide (e.receiptId = receipt)) .conflict
  let next := { i.updateEntry receipt (fun e => e.beginRemoval sizingRemovalSlot) with
    revision := min (i.revision + 1) maxRevision }
  ensure (next.entries.length ≤ maxManagedOwnershipEntries ∧ next.byteLength ≤ maxManagedOwnershipBytes) .capacityExceeded
  let rollback := { i with revision := min (i.revision + 2) maxRevision }
  ensure (rollback.byteLength ≤ maxManagedOwnershipBytes) .capacityExceeded

end ManagedOwnershipIndexV1

/-! ## The runtime -/

structure ManagedOwnershipLoad where
  index : ManagedOwnershipIndexV1
  requiresRewrite : Bool
  deriving DecidableEq

/-- The persistence of the index, see above. -/
structure IndexStore where
  answer : ℕ → PersistResult
  saves : ℕ
  committed : ManagedOwnershipIndexV1

def IndexStore.save (s : IndexStore) (next : ManagedOwnershipIndexV1) : PersistResult × IndexStore :=
  let result := s.answer s.saves
  (result, { s with saves := s.saves + 1, committed := if result.outcome.committed then next else s.committed })

inductive OwnershipRuntime
  | available (index : ManagedOwnershipIndexV1) (requiresRewrite : Bool)
  | unavailable
  deriving DecidableEq

structure ManagedOwnershipSummary where
  status : LocalDiscoveryStatus
  conflictingEntryCount : ℕ
  rollbackPendingCount : ℕ
  cleanupPendingCount : ℕ
  deriving DecidableEq, Repr

namespace ManagedOwnershipSummary

def available : ManagedOwnershipSummary := ⟨.available, 0, 0, 0⟩

def unavailable : ManagedOwnershipSummary := ⟨.unavailable, 0, 0, 0⟩

def counts (conflicts rollback cleanup : ℕ) : ManagedOwnershipSummary where
  status := if conflicts = 0 ∧ rollback = 0 ∧ cleanup = 0 then .available else .degraded
  conflictingEntryCount := conflicts
  rollbackPendingCount := rollback
  cleanupPendingCount := cleanup

end ManagedOwnershipSummary

/-- The classes of the packages, by plugin id. -/
abbrev Classes := OrdMap PluginId PluginManagement

namespace ManagedOwnershipEntryV1

variable (e : ManagedOwnershipEntryV1)

/-- The package has the slot, the plugin id or the receipt id of the entry. -/
def claimedBy (package : DiscoveredLocalPlugin) : Bool :=
  decide (package.locator.packageSlot = e.packageSlot) || decide (package.record.manifest.id = e.pluginId) ||
    package.locator.receipt.any fun receipt => decide (receipt.model.receiptId = e.receiptId)

/-- What is in the removal slot of the entry is its package, or what is left of it. -/
def quarantined (target : RemovalObservation) : Bool :=
  let receiptMatches := target.receipt.any fun receipt =>
    decide (receipt.fileIdentity = e.receiptIdentity) && e.matchesReceipt receipt.model receipt.canonicalSha256
  decide (target.directoryIdentity = e.directoryIdentity) &&
    match target.shape with
    | .full => receiptMatches && target.manifest.any fun (record, identity) =>
        decide (identity = e.manifestIdentity) && target.receipt.any fun receipt => receipt.model.matchesRecord record
    | .receiptOnly => receiptMatches
    | .emptyDirectory => true
    | .manifestOnly | .unknown => false

end ManagedOwnershipEntryV1

namespace OwnershipRuntime

/-- `initialize`, with what the store has loaded -/
def initialized : AppResult ManagedOwnershipLoad → OwnershipRuntime
  | .ok load =>
    match load.index.validateForPersistence with
    | .ok () => .available load.index load.requiresRewrite
    | .error _ => .unavailable
  | .error _ => .unavailable

def requiresRetry : OwnershipRuntime → Bool
  | .available _ false => false
  | _ => true

def entries : OwnershipRuntime → Option (List ManagedOwnershipEntryV1)
  | .available index _ => some index.entries
  | .unavailable => none

/-- Whether the save was committed. A committed save is adopted even with an error. -/
def save (runtime : OwnershipRuntime) (store : IndexStore) (next : ManagedOwnershipIndexV1) :
    Bool × OwnershipRuntime × IndexStore :=
  match runtime with
  | .unavailable => (false, .unavailable, store)
  | .available _ _ =>
    match store.save next with
    | (result, store) =>
      if result.outcome.committed then (true, .available next false, store) else (false, runtime, store)

/-- What the loop of `reconcile_loaded` counts and classifies. -/
structure Notes where
  conflicts : ℕ
  rollback : ℕ
  cleanup : ℕ
  classes : Classes

/-- What the loop carries from entry to entry. -/
structure Tally extends Notes where
  runtime : OwnershipRuntime
  index : ManagedOwnershipIndexV1
  store : IndexStore

/-- Save the changed index, if that is allowed and there is one. -/
def Tally.saveChanged (t : Tally) (allowWrites : Bool) (next : Except OwnershipFailure ManagedOwnershipIndexV1) :
    Bool × Tally :=
  match allowWrites, next with
  | true, .ok next =>
    match t.runtime.save t.store next with
    | (true, runtime, store) => (true, { t with runtime, store, index := next })
    | (false, runtime, store) => (false, { t with runtime, store })
  | _, _ => (false, t)

/-- One entry of the loop. -/
def reconcileEntry (outcome : LocalDiscoveryOutcome) (allowWrites : Bool) (t : Tally)
    (entry : ManagedOwnershipEntryV1) : Tally :=
  let claimants := outcome.plugins.filter entry.claimedBy
  if 1 < claimants.length then
    { t with
      conflicts := t.conflicts + 1
      classes := claimants.foldl (fun m package => m.insert package.record.manifest.id .ownershipConflict) t.classes }
  else
    let source := outcome.plugins.find? fun package => decide (package.locator.packageSlot = entry.packageSlot)
    let sourcePresent := source.isSome || outcome.occupiedSlots.contains entry.packageSlot
    match entry.removalSlot with
    | none => if source.any entry.provesManaged then t else { t with conflicts := t.conflicts + 1 }
    | some targetSlot =>
      let targetPresent := outcome.removals.occupiedSlots.contains targetSlot
      let target := outcome.removals.observations.find? fun object => decide (object.removalSlot = targetSlot)
      if sourcePresent && !targetPresent && source.any entry.matchesPackage then
        match t.saveChanged allowWrites (t.index.restoreManaged entry.receiptId) with
        | (true, t) => t
        | (false, t) =>
          { t with
            rollback := t.rollback + 1
            classes := match source with
              | some package => t.classes.insert package.record.manifest.id .removalPending
              | none => t.classes }
      else if !sourcePresent && !targetPresent then
        match t.saveChanged allowWrites (t.index.remove entry.receiptId) with
        | (true, t) => t
        | (false, t) => { t with cleanup := t.cleanup + 1 }
      else if !sourcePresent && target.any entry.quarantined then { t with cleanup := t.cleanup + 1 }
      else { t with conflicts := t.conflicts + 1 }

/-- The class of a package once all entries are reconciled. -/
def classify (index : ManagedOwnershipIndexV1) (classes : Classes) (package : DiscoveredLocalPlugin) : PluginManagement :=
  match package.locator.receipt, classes[package.record.manifest.id]? with
  | none, _ => .external
  | some _, some classification => classification
  | some receipt, none =>
    match index.entries.find? fun entry =>
      decide (entry.packageSlot = package.locator.packageSlot) || decide (entry.receiptId = receipt.model.receiptId) ||
        decide (entry.pluginId = package.record.manifest.id) with
    | none => .external
    | some entry => if entry.provesManaged package then .managed else .ownershipConflict

/-- The result of a reconciliation. -/
structure Reconciled where
  runtime : OwnershipRuntime
  classes : Classes
  summary : ManagedOwnershipSummary
  store : IndexStore

/-- Without an index, or without a scan, nothing is decided. -/
def undecided (outcome : LocalDiscoveryOutcome) (runtime : OwnershipRuntime) (store : IndexStore) : Reconciled where
  runtime := runtime
  classes := outcome.plugins.foldl (fun m package => m.insert package.record.manifest.id
    (if package.locator.receipt.isSome then .ownershipUnavailable else .external)) ∅
  summary := .unavailable
  store := store

/-- The occupied removal slots that no entry of the index has. -/
def orphans (outcome : LocalDiscoveryOutcome) (index : ManagedOwnershipIndexV1) : ℕ :=
  outcome.removals.occupiedSlots.countP fun slot => !(index.entries.any fun entry => entry.removalSlot == some slot)

/-- `reconcile_loaded` on an index that needs no rewrite -/
def reconcileIndex (outcome : LocalDiscoveryOutcome) (allowWrites : Bool) (index : ManagedOwnershipIndexV1)
    (store : IndexStore) : Reconciled :=
  let t := index.entries.foldl (reconcileEntry outcome allowWrites) ⟨⟨0, 0, 0, ∅⟩, .available index false, index, store⟩
  let conflicts := t.conflicts + outcome.removals.unknownEntryCount + orphans outcome t.index
  if 2 ^ 32 ≤ conflicts then undecided outcome t.runtime t.store
  else
    { runtime := t.runtime
      classes := outcome.plugins.foldl
        (fun m package => m.insert package.record.manifest.id (classify t.index m package)) t.classes
      summary := .counts conflicts t.rollback t.cleanup
      store := t.store }

def reconcileLoaded (runtime : OwnershipRuntime) (outcome : LocalDiscoveryOutcome) (allowWrites : Bool)
    (store : IndexStore) : Reconciled :=
  if outcome.removals.status = .unavailable ∨ outcome.summary.status = .unavailable then undecided outcome runtime store
  else
    match runtime with
    | .unavailable => undecided outcome .unavailable store
    | .available index false => reconcileIndex outcome allowWrites index store
    | .available index true =>
      -- the classes of the recovered index stay private until its rewrite is committed
      let observed := reconcileIndex outcome false index store
      if !allowWrites then undecided outcome .unavailable observed.store
      else
        match observed.runtime.save observed.store index with
        | (true, .available index _, store) => reconcileIndex outcome allowWrites index store
        | (_, _, store) => undecided outcome .unavailable store

/-- `reconcile`: each scan reloads the index. -/
def reconcile (load : AppResult ManagedOwnershipLoad) (outcome : LocalDiscoveryOutcome) (allowWrites : Bool)
    (store : IndexStore) : Reconciled :=
  (initialized load).reconcileLoaded outcome allowWrites store

end OwnershipRuntime

end EasiFlux.Plugin
