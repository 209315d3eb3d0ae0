import EasiFlux.Model.Capacity

/-!
# Housekeeping of the notification file

What `services/notification.rs` removes before a publish, in a prune and after a load: records that
are expired, beyond the 1000 of a partition or of an account that is not configured (`pruneFile`),
and the oldest records with entries when the source event index is over its limits
(`evictIndexedRecordsToLimit`). Functions that change their file in place answer with it.
-/

namespace EasiFlux

open SortOn

def maxNotificationPartitionItems : ℕ := 1000

def maxNotificationSourceIndexPerScope : ℕ := 10000

def maxNotificationSourceIndexTotal : ℕ := 50000

/-- `RETENTION_MS` -/
def retentionMs : ℕ := 90 * 24 * 60 * 60 * 1000

def isExpired (record : NotificationRecord) (nowMs : ℕ) : Bool := record.createdAtMs < nowMs - retentionMs

namespace HousekeepingMutation

def noteRemovedRecords (m : HousekeepingMutation) (scopes : List NotificationScope) : HousekeepingMutation :=
  scopes.foldl noteRemovedRecord m

end HousekeepingMutation

/-! ## The index -/

namespace NotificationFileV1

variable (file : NotificationFileV1)

/-- The records as the index names them. -/
def targets : List (NotificationScope × String) := file.records.map fun sr => (sr.1, sr.2.id)

/-- `rebuild_seen_source_events` -/
def sourceEvents : Finset (NotificationScope × String) :=
  (file.sourceEventIndex.map fun entry => (entry.scope, entry.sourceEventId)).toFinset

/-- The entries of a scope, or all. -/
def entriesIn (requiredScope : Option NotificationScope) : List NotificationSourceEventIndexEntry :=
  file.sourceEventIndex.filter fun entry => requiredScope.all (· = entry.scope)

/-- `partition_record_count` -/
def partitionRecordCount (scope : NotificationScope) : ℕ :=
  ((file.partitions.find? (·.scope = scope)).map (·.items.length)).getD 0

end NotificationFileV1

/-- The answer has the scopes of the entries without a record, each as often as it has some; what
is done with them is done once. -/
def cleanupSourceEventIndex (file : NotificationFileV1) : NotificationFileV1 × List NotificationScope :=
  let kept := fun entry : NotificationSourceEventIndexEntry => decide ((entry.scope, entry.notificationId) ∈ file.targets)
  ({ file with sourceEventIndex := file.sourceEventIndex.filter kept },
    (file.sourceEventIndex.filter fun entry => !kept entry).map (·.scope))

/-! ## Evictions -/

/-- The loop over the candidates, until what is left of the index is within the limit. -/
def selectToLimit (limit : ℕ) : ℕ → List (NotificationRecord × ℕ) → List NotificationRecord
  | _, [] => []
  | current, (record, count) :: rest =>
    if current - count ≤ limit then [record] else record :: selectToLimit limit (current - count) rest

/-- The records with entries, the oldest first and the protected one last, with how many they have. -/
def indexedCandidates (file : NotificationFileV1) (requiredScope : Option NotificationScope) (protectedId : Option String) :
    List (NotificationRecord × ℕ) :=
  let count := fun sr : NotificationScope × NotificationRecord =>
    ((file.entriesIn requiredScope).filter fun entry => entry.scope = sr.1 && entry.notificationId = sr.2.id).length
  sortOn (fun c => toLex (decide (protectedId = some c.1.id), toLex (c.1.createdAtMs, c.1.id)))
    ((file.records.filter fun sr => requiredScope.all (· = sr.1) && count sr ≠ 0).map fun sr => (sr.2, count sr))

/-- `evict_indexed_records_to_limit`, with the records that are evicted. -/
def evictIndexedRecordsToLimit (file : NotificationFileV1) (requiredScope : Option NotificationScope) (limit : ℕ)
    (protectedId : Option String) : NotificationFileV1 × List NotificationRecord :=
  let current := (file.entriesIn requiredScope).length
  if current ≤ limit then (file, [])
  else
    let selected := selectToLimit limit current (indexedCandidates file requiredScope protectedId)
    let targets := selected.map fun record => (record.scope, record.id)
    ({ file with
        partitions :=
          (file.partitions.map fun partition =>
              { partition with items := partition.items.filter fun record => (partition.scope, record.id) ∉ targets }).filter
            fun partition => partition.items ≠ [] || partition.scope ∉ selected.map (·.scope)
        sourceEventIndex := file.sourceEventIndex.filter fun entry => (entry.scope, entry.notificationId) ∉ targets },
      selected)

/-- An eviction, and what it adds to the mutation. -/
def evictNoting (requiredScope : Option NotificationScope) (limit : ℕ) (protectedId : Option String)
    (st : NotificationFileV1 × HousekeepingMutation) : NotificationFileV1 × HousekeepingMutation :=
  let (file, removed) := evictIndexedRecordsToLimit st.1 requiredScope limit protectedId
  (file, st.2.noteRemovedRecords (removed.map (·.scope)))

def overLimitScopes (file : NotificationFileV1) : List NotificationScope :=
  sortOn scopeSortKey
    ((file.sourceEventIndex.map (·.scope)).dedup.filter fun scope =>
      maxNotificationSourceIndexPerScope < (file.entriesIn (some scope)).length)

def enforceSourceIndexCaps (st : NotificationFileV1 × HousekeepingMutation) : NotificationFileV1 × HousekeepingMutation :=
  let st := (overLimitScopes st.1).foldl (fun st scope => evictNoting (some scope) maxNotificationSourceIndexPerScope none st) st
  if maxNotificationSourceIndexTotal < st.1.sourceEventIndex.length then evictNoting none maxNotificationSourceIndexTotal none st
  else st

/-- Removes the first record that `p` says, and its partition, should that be empty then. -/
def eraseFirstRecord (p : NotificationScope → NotificationRecord → Bool) : List NotificationPartition → List NotificationPartition
  | [] => []
  | partition :: partitions =>
    if partition.items.any (p partition.scope) then
      let items := partition.items.eraseP (p partition.scope)
      if items = [] then partitions else { partition with items := items } :: partitions
    else partition :: eraseFirstRecord p partitions

/-- `evict_oldest_record` of a scope: the first of those with the least time and id. -/
def evictOldestRecord (file : NotificationFileV1) (scope : NotificationScope) : Option NotificationFileV1 :=
  let age := fun record : NotificationRecord => toLex (record.createdAtMs, record.id)
  match sortOn age ((file.records.filter fun sr => sr.1 = scope).map (·.2)) with
  | [] => none
  | oldest :: _ =>
    some (cleanupSourceEventIndex
      { file with partitions := eraseFirstRecord (fun s record => s = scope && age record = age oldest) file.partitions }).1

/-! ## Pruning -/

/-- The records of a partition that are not expired, and of those the newest, should there be too many. -/
def retainRecords (nowMs : ℕ) (items : List NotificationRecord) : List NotificationRecord :=
  let kept := items.filter fun record => !isExpired record nowMs
  if maxNotificationPartitionItems < kept.length then
    (sortOn (fun record => OrderDual.toDual (toLex (record.createdAtMs, record.id))) kept).take maxNotificationPartitionItems
  else kept

/-- The account of the partition is not configured. -/
def isOrphan (configuredAccounts : List String) : NotificationScope → Bool
  | .global => false
  | .account accountId => !configuredAccounts.contains accountId

/-- What the removal of an orphan adds to the mutation. -/
def noteOrphan (mutation : HousekeepingMutation) (partition : NotificationPartition) : HousekeepingMutation :=
  if partition.items = [] then mutation.noteScope partition.scope
  else mutation.noteRemovedRecords (partition.items.map fun _ => partition.scope)

/-- `prune_file`; without configured accounts none is an orphan. -/
def pruneFile (file : NotificationFileV1) (configuredAccounts : Option (List String)) (nowMs : ℕ) :
    NotificationFileV1 × HousekeepingMutation :=
  let mutation := file.partitions.foldl
    (fun mutation partition => mutation.noteRemovedRecords
      (List.replicate (partition.items.length - (retainRecords nowMs partition.items).length) partition.scope))
    .default
  let partitions := file.partitions.map fun partition => { partition with items := retainRecords nowMs partition.items }
  let orphan := fun partition : NotificationPartition => configuredAccounts.any fun accounts => isOrphan accounts partition.scope
  let mutation := (partitions.filter orphan).foldl noteOrphan mutation
  let partitions := (partitions.filter fun partition => !orphan partition).filter fun partition =>
    partition.items ≠ [] || partition.scope ∉ mutation.affectedScopes
  let (file, affected) := cleanupSourceEventIndex { file with partitions := partitions }
  enforceSourceIndexCaps (file, affected.foldl HousekeepingMutation.noteScope mutation)

end EasiFlux
