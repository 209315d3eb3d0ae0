import EasiFlux.Lib.Search
import EasiFlux.Model.Incidents

/-!
# The size limit of the notification file

The file is written as pretty-printed JSON of at most 16 MiB. When it is too large,
`services/notification.rs` removes its oldest records: before a publish
(`reserveSerializedCapacityForPublish`) and after a load or a housekeeping
(`enforceSerializedFileCap`). Both functions change their file in place; what they leave in it comes
with their answer.
-/

namespace EasiFlux

open SortOn

structure NotificationError where
  code : String
  message : String
  deriving DecidableEq, Repr

namespace NotificationError

def revisionExhausted : NotificationError := ⟨"NOTIFICATION_REVISION_EXHAUSTED", "通知修订号已达上限"⟩

def capacityExceeded : NotificationError := ⟨"NOTIFICATION_FILE_CAPACITY_EXCEEDED", "通知存储容量已满"⟩

def stateConflict : NotificationError := ⟨"NOTIFICATION_STATE_CONFLICT", "通知状态已发生冲突"⟩

end NotificationError

inductive NotificationChange
  | created
  | updated
  | removed
  | reset
  deriving DecidableEq, Repr

/-- What is about to be published. -/
structure PreparedPublish where
  record : NotificationRecord
  change : NotificationChange
  sourceEntry : Option NotificationSourceEventIndexEntry
  deriving DecidableEq, Repr

/-! ## The size -/

/-- How many bytes serde_json prints for the values in the arrays, at their depth. -/
structure PrintedBytes where
  record : NotificationRecord → ℕ
  scope : NotificationScope → ℕ
  entry : NotificationSourceEventIndexEntry → ℕ

/-- An array of a pretty printer: each element on a line of its own, indented by two spaces for each
level, with a comma between two of them. -/
def printedArray (depth : ℕ) (elements : List ℕ) : ℕ :=
  if elements = [] then 2 else (elements.map fun size => size + 2 * depth + 2).sum + 2 * depth

def printedNumber (n : ℕ) : ℕ := Nat.log 10 n + 1

/-- The braces, the two names and their indentation are 40 bytes. -/
def printedPartition (bytes : PrintedBytes) (partition : NotificationPartition) : ℕ :=
  40 + bytes.scope partition.scope + printedArray 4 (partition.items.map bytes.record)

/-- The braces, the four names and their indentation are 81 bytes. -/
def serializedSize (bytes : PrintedBytes) (file : NotificationFileV1) : ℕ :=
  81 + printedNumber file.schemaVersion + printedNumber file.revision +
    printedArray 2 (file.sourceEventIndex.map bytes.entry) + printedArray 2 (file.partitions.map (printedPartition bytes))

def maxNotificationFileBytes : ℕ := 16 * 1024 * 1024

def notificationFileFitsSerializedLimit (bytes : PrintedBytes) (file : NotificationFileV1) : Bool :=
  serializedSize bytes file ≤ maxNotificationFileBytes

/-! ## Removing records -/

/-- A record that may be removed: when it was created, its id and the scope of its partition. -/
structure RecordCandidate where
  createdAtMs : ℕ
  id : String
  scope : NotificationScope
  deriving DecidableEq, Repr

def RecordCandidate.target (c : RecordCandidate) : NotificationScope × String := (c.scope, c.id)

/-- The records without the protected one, the oldest first. -/
def recordCandidates (file : NotificationFileV1) (protectedId : Option String) : List RecordCandidate :=
  sortOn (fun c => toLex (c.createdAtMs, c.id))
    ((file.records.filter fun sr => protectedId ≠ some sr.2.id).map fun sr => ⟨sr.2.createdAtMs, sr.2.id, sr.1⟩)

def removeRecordCandidates (file : NotificationFileV1) (candidates : List RecordCandidate) : NotificationFileV1 :=
  let targets := candidates.map RecordCandidate.target
  { file with
    partitions :=
      (file.partitions.map fun partition =>
          { partition with items := partition.items.filter fun record => (partition.scope, record.id) ∉ targets }).filter
        fun partition => partition.items ≠ []
    sourceEventIndex := file.sourceEventIndex.filter fun entry => (entry.scope, entry.notificationId) ∉ targets }

def noteCandidates (mutation : HousekeepingMutation) (selected : List RecordCandidate) : HousekeepingMutation :=
  selected.foldl (fun mutation c => mutation.noteRemovedRecord c.scope) mutation

/-! ## Applying a publish -/

/-- Pushes the record into the partition of its scope (`partition_mut`), a new one if there is none. -/
def pushRecord (record : NotificationRecord) : List NotificationPartition → List NotificationPartition
  | [] => [⟨record.scope, [record]⟩]
  | partition :: partitions =>
    if partition.scope = record.scope then { partition with items := partition.items ++ [record] } :: partitions
    else partition :: pushRecord record partitions

def replaceRecord (record : NotificationRecord) : List NotificationRecord → Option (List NotificationRecord)
  | [] => none
  | old :: items => if old.id = record.id then some (record :: items) else (replaceRecord record items).map (old :: ·)

def replaceInPartition (record : NotificationRecord) : List NotificationPartition → Option (List NotificationPartition)
  | [] => none
  | partition :: partitions =>
    if partition.scope = record.scope then
      (replaceRecord record partition.items).map fun items => { partition with items := items } :: partitions
    else (replaceInPartition record partitions).map (partition :: ·)

def applyPreparedToFile (file : NotificationFileV1) (prepared : PreparedPublish) : Except NotificationError NotificationFileV1 :=
  let index := file.sourceEventIndex ++ prepared.sourceEntry.toList
  match prepared.change with
  | .created => .ok { file with partitions := pushRecord prepared.record file.partitions, sourceEventIndex := index }
  | .updated =>
    match replaceInPartition prepared.record file.partitions with
    | some partitions => .ok { file with partitions := partitions, sourceEventIndex := index }
    | none => .error .stateConflict
  | .removed => .error .stateConflict
  | .reset => .error .stateConflict

/-! ## The trials -/

/-- The file with its next revision, `checked_add` of 64 bits. -/
def checkedRevision (file : NotificationFileV1) (increment : ℕ) : Except NotificationError NotificationFileV1 :=
  if file.revision + increment < 2 ^ 64 then .ok { file with revision := file.revision + increment }
  else .error .revisionExhausted

def preparedFileFitsAfterEviction (bytes : PrintedBytes) (original : NotificationFileV1) (prepared : PreparedPublish)
    (candidates : List RecordCandidate) (revisionIncrement : ℕ) : Except NotificationError Bool := do
  let trial ← applyPreparedToFile (removeRecordCandidates original candidates) prepared
  let trial ← checkedRevision trial revisionIncrement
  return notificationFileFitsSerializedLimit bytes trial

def serializedFileFitsAfterEviction (bytes : PrintedBytes) (original : NotificationFileV1) (candidates : List RecordCandidate)
    (revisionIncrement : ℕ) : Except NotificationError Bool := do
  let trial ← checkedRevision (removeRecordCandidates original candidates) revisionIncrement
  return notificationFileFitsSerializedLimit bytes trial

/-! ## The two searches -/

/-- The answer, and what is in the file and the mutation then. -/
abbrev EvictionOutcome (α : Type) := Except NotificationError α × NotificationFileV1 × HousekeepingMutation

def PreparedPublish.protectedId (prepared : PreparedPublish) : Option String :=
  if prepared.change = .updated then some prepared.record.id else none

def reserveSerializedCapacityForPublish (bytes : PrintedBytes) (file : NotificationFileV1) (prepared : PreparedPublish)
    (mutation : HousekeepingMutation) : EvictionOutcome Unit :=
  let initialRevisionIncrement := if mutation.changed then 2 else 1
  match preparedFileFitsAfterEviction bytes file prepared [] initialRevisionIncrement with
  | .error e => (.error e, file, mutation)
  | .ok true => (.ok (), file, mutation)
  | .ok false =>
    let candidates := recordCandidates file prepared.protectedId
    if candidates = [] then (.error .capacityExceeded, file, mutation)
    else
      match preparedFileFitsAfterEviction bytes file prepared candidates 2 with
      | .error e => (.error e, file, mutation)
      | .ok false => (.error .capacityExceeded, file, mutation)
      | .ok true =>
        let fits := fun n => preparedFileFitsAfterEviction bytes file prepared (candidates.take n) 2
        match Search.bisect fits 0 0 candidates.length with
        | .error e => (.error e, file, mutation)
        | .ok (_, upper) =>
          let selected := candidates.take upper
          (.ok (), removeRecordCandidates file selected, noteCandidates mutation selected)

/-- The answer is the number of trials. -/
def enforceSerializedFileCap (bytes : PrintedBytes) (file : NotificationFileV1) (mutation : HousekeepingMutation)
    (persistsRevision : Bool) : EvictionOutcome ℕ :=
  let existingIncrement := (persistsRevision && mutation.changed).toNat
  match serializedFileFitsAfterEviction bytes file [] existingIncrement with
  | .error e => (.error e, file, mutation)
  | .ok true => (.ok 1, file, mutation)
  | .ok false =>
    let candidates := recordCandidates file none
    if h : candidates = [] then (.error .capacityExceeded, file, mutation)
    else
      let fits := fun n => serializedFileFitsAfterEviction bytes file (candidates.take n) persistsRevision.toNat
      match Search.gallop fits candidates.length 1 0 1 Nat.one_pos (List.length_pos_iff.2 h) with
      | .error e => (.error e, file, mutation)
      | .ok none => (.error .capacityExceeded, file, mutation)
      | .ok (some (probes, lower, upper)) =>
        match Search.bisect fits probes lower upper with
        | .error e => (.error e, file, mutation)
        | .ok (probes, upper) =>
          let selected := candidates.take upper
          (.ok probes, removeRecordCandidates file selected, noteCandidates mutation selected)

end EasiFlux
