import EasiFlux.Lib.SortOn
import EasiFlux.Model.Notifications

/-!
# Incidents and the source event index

`services/notification.rs` reads the incidents that are open from the records of a file: which
record came first is told by the place of its source event in the index, and for histories whose
index is incomplete by times and ids (`rebuildActiveIncidents`). `normalizeSourceEventIndex`
completes the index of such a history.
-/

namespace EasiFlux

open SortOn

/-! ## What a change of the file affects -/

structure HousekeepingMutation where
  affectedCount : ℕ
  affectedScopes : List NotificationScope
  changed : Bool
  deriving DecidableEq, Repr

namespace HousekeepingMutation

def default : HousekeepingMutation := ⟨0, [], false⟩

def noteScope (m : HousekeepingMutation) (scope : NotificationScope) : HousekeepingMutation :=
  { m with
    changed := true
    affectedScopes := if scope ∈ m.affectedScopes then m.affectedScopes else m.affectedScopes ++ [scope] }

def noteRemovedRecord (m : HousekeepingMutation) (scope : NotificationScope) : HousekeepingMutation :=
  { m with affectedCount := m.affectedCount + 1 }.noteScope scope

end HousekeepingMutation

def scopeSortKey : NotificationScope → String ×ₗ String
  | .global => toLex ("0", "")
  | .account accountId => toLex ("1", accountId)

def sourceIndexMutationSince (before after : List NotificationSourceEventIndexEntry) : HousekeepingMutation :=
  if before = after then .default
  else
    let scopes := (sortOn scopeSortKey ((before ++ after).map (·.scope))).dedup
    let mutation := (scopes.filter fun scope => before.filter (·.scope = scope) ≠ after.filter (·.scope = scope)).foldl
      HousekeepingMutation.noteScope .default
    if mutation.changed then mutation
    else ((before ++ after).map (·.scope)).foldl HousekeepingMutation.noteScope mutation

/-! ## Incidents -/

inductive IncidentKey
  | connection (accountId : String) (channel : NotificationChannel)
  | environment (accountId environmentKey : String)
  deriving DecidableEq, Repr

structure IncidentHistoryEdge where
  key : IncidentKey
  incidentId : String
  unavailable : Bool
  createdAtMs : ℕ
  recordId : String
  creationPosition : Option ℕ
  deriving DecidableEq, Repr

def channelTag : NotificationChannel → String
  | .api => "api"
  | .websocket => "websocket"

def incidentKeySortKey : IncidentKey → String ×ₗ ℕ ×ₗ String
  | .connection accountId channel => toLex (accountId, toLex (0, channelTag channel))
  | .environment accountId environmentKey => toLex (accountId, toLex (1, environmentKey))

/-- The third part of the dedupe key. -/
def incidentIdOf (dedupeKey : String) : Option String :=
  (((dedupeKey.toList.splitOn ':')[2]?).map String.ofList).filter (· ≠ "")

def incidentKeyOf (accountId : String) (record : NotificationRecord) : Option IncidentKey :=
  if record.kind = .connectionUnavailable ∨ record.kind = .connectionRecovered then
    match record.content.get "channel" with
    | some (.string channel) =>
      if channel = "api" then some (.connection accountId .api)
      else if channel = "websocket" then some (.connection accountId .websocket)
      else none
    | _ => none
  else if record.kind = .environmentUnavailable ∨ record.kind = .environmentRecovered then
    let legacy :=
      match record.content.get "environment" with
      | some (.string value) => some s!"legacy-{value}"
      | _ => none
    (((record.entity.filter (·.entityType = .environment)).map (·.id)).or legacy).map (.environment accountId)
  else none

def incidentHistoryEdge (record : NotificationRecord) (creationPosition : Option ℕ) : Option IncidentHistoryEdge :=
  match record.scope with
  | .global => none
  | .account accountId => do
    let incidentId ← incidentIdOf record.dedupeKey
    let key ← incidentKeyOf accountId record
    some
      { key := key
        incidentId := incidentId
        unavailable := record.kind = .connectionUnavailable || record.kind = .environmentUnavailable
        createdAtMs := record.createdAtMs
        recordId := record.id
        creationPosition := creationPosition }

def incidentEdgePriority (kind : NotificationKind) : ℕ :=
  if kind = .connectionUnavailable ∨ kind = .environmentUnavailable then 0
  else if kind = .connectionRecovered ∨ kind = .environmentRecovered then 1
  else 2

/-- The order of `sort_legacy_incident_edges`. -/
def legacyOrder (edge : IncidentHistoryEdge) : ℕ ×ₗ String ×ₗ String :=
  toLex (edge.createdAtMs, toLex (edge.recordId, edge.incidentId))

/-- The keys with an edge that has no place in the index. -/
def fallbackKeys (edges : List IncidentHistoryEdge) : List IncidentKey :=
  ((edges.filter (·.creationPosition.isNone)).map (·.key)).dedup

namespace NotificationFileV1

variable (file : NotificationFileV1)

/-- The entry is that of the source event its record was created for. -/
def isCreation (entry : NotificationSourceEventIndexEntry) : Bool :=
  (file.recordOf entry.notificationId).any fun sr =>
    sr.2.scope = entry.scope && sr.2.sourceEventId = some entry.sourceEventId

/-- `incident_creation_positions`: the first such entry of a record. -/
def incidentCreationPosition (recordId : String) : Option ℕ :=
  file.sourceEventIndex.findIdx? fun entry => entry.notificationId = recordId && file.isCreation entry

def incidentEdges : List IncidentHistoryEdge :=
  file.records.filterMap fun sr => incidentHistoryEdge sr.2 (file.incidentCreationPosition sr.2.id)

end NotificationFileV1

/-! ## The open incidents -/

/-- The incidents that are open, by their keys. -/
abbrev ActiveIncidents := IncidentKey → Option String

/-- An outage opens an incident, and its recovery closes it if it is still the open one. -/
def applyEdge (incidents : ActiveIncidents) (edge : IncidentHistoryEdge) : ActiveIncidents :=
  if edge.unavailable then Function.update incidents edge.key (some edge.incidentId)
  else if incidents edge.key = some edge.incidentId then Function.update incidents edge.key none
  else incidents

/-- The outages without a recovery. -/
def unclosedEdges (edges : List IncidentHistoryEdge) : List IncidentHistoryEdge :=
  let recovered := (edges.filter fun e => !e.unavailable).map (·.incidentId)
  edges.filter fun e => e.unavailable && !recovered.contains e.incidentId

def rebuildActiveIncidents (file : NotificationFileV1) : ActiveIncidents :=
  let edges := sortOn (fun e => e.creationPosition.getD (2 ^ 64 - 1)) file.incidentEdges
  let fallback := fallbackKeys file.incidentEdges
  let incidents := (edges.filter fun e => !fallback.contains e.key).foldl applyEdge fun _ => none
  fallback.foldl
    (fun incidents key =>
      match maxBy legacyOrder (unclosedEdges (edges.filter (·.key = key))) with
      | some edge => Function.update incidents key (some edge.incidentId)
      | none => incidents)
    incidents

/-! ## Completing the index -/

/-- The loop of `append_incident_creation_entries`, with the ids that are done. -/
def appendIncidentCreationEntries (edges : List IncidentHistoryEdge)
    (entries : String → Option NotificationSourceEventIndexEntry)
    (st : List String × List NotificationSourceEventIndexEntry) :
    List String × List NotificationSourceEventIndexEntry :=
  edges.foldl
    (fun st edge =>
      if edge.recordId ∈ st.1 then st else (edge.recordId :: st.1, st.2 ++ (entries edge.recordId).toList))
    st

/-- The edges of one key in the order in which they are appended: recoveries without an outage, then
each incident that is closed, then the outages that are not. -/
def creationOrder (edges : List IncidentHistoryEdge) : List (List IncidentHistoryEdge) :=
  let unavailableIncidents := (edges.filter (·.unavailable)).map (·.incidentId)
  let recoveredIncidents := (edges.filter (!·.unavailable)).map (·.incidentId)
  let orphanRecoveries := sortOn legacyOrder
    (edges.filter fun e => !e.unavailable && !unavailableIncidents.contains e.incidentId)
  let closedIncidents := sortOn id (unavailableIncidents.filter recoveredIncidents.contains).dedup
  let unclosed := sortOn legacyOrder (edges.filter fun e => e.unavailable && !recoveredIncidents.contains e.incidentId)
  [orphanRecoveries] ++
    (closedIncidents.flatMap fun incidentId =>
      [sortOn legacyOrder (edges.filter fun e => e.unavailable && e.incidentId = incidentId),
        sortOn legacyOrder (edges.filter fun e => !e.unavailable && e.incidentId = incidentId)]) ++
    [unclosed]

namespace NotificationFileV1

variable (file : NotificationFileV1)

/-- The entries of the source events the records were created for. -/
def creationEntries : List NotificationSourceEventIndexEntry :=
  file.records.filterMap fun sr => sr.2.sourceEventId.map fun source => ⟨sr.1, source, sr.2.id⟩

def creationEntry (recordId : String) : Option NotificationSourceEventIndexEntry :=
  file.creationEntries.reverse.find? (·.notificationId = recordId)

/-- `canonicalize_partial_incident_creation_order`; its callers do not use what it says has changed. -/
def canonicalizePartialIncidentCreationOrder : NotificationFileV1 :=
  let edges := file.incidentEdges
  let fallback := fallbackKeys edges
  if fallback = [] then file
  else
    let fallbackRecordIds := (edges.filter fun e => fallback.contains e.key).map (·.recordId)
    let kept := file.sourceEventIndex.filter fun entry =>
      !fallbackRecordIds.contains entry.notificationId ||
        (file.creationEntry entry.notificationId).all fun creation =>
          entry.scope ≠ creation.scope || entry.sourceEventId ≠ creation.sourceEventId
    let groups := (sortOn incidentKeySortKey fallback).flatMap fun key => creationOrder (edges.filter (·.key = key))
    { file with
      sourceEventIndex :=
        (groups.foldl (fun st edges => appendIncidentCreationEntries edges file.creationEntry st) ([], kept)).2 }

/-- The records with a source event, in the order in which they are looked at. -/
def indexCandidates : List (NotificationScope × NotificationRecord) :=
  sortOn
    (fun sr : NotificationScope × NotificationRecord =>
      toLex (sr.2.createdAtMs, toLex (incidentEdgePriority sr.2.kind, toLex (sr.2.id, scopeSortKey sr.1))))
    (file.records.filter (·.2.sourceEventId.isSome))

/-- The loop over the candidates: the source events that are indexed, and the entries that were missing. -/
def missingEntries (indexed : List (NotificationScope × String)) :
    List (NotificationScope × NotificationRecord) → List NotificationSourceEventIndexEntry
  | [] => []
  | (scope, record) :: rest =>
    match record.sourceEventId with
    | none => missingEntries indexed rest
    | some source =>
      if (scope, source) ∈ indexed then missingEntries indexed rest
      else ⟨scope, source, record.id⟩ :: missingEntries ((scope, source) :: indexed) rest

/-- `normalize_source_event_index`, with what it says has changed. -/
def normalizeSourceEventIndex : NotificationFileV1 × HousekeepingMutation :=
  let before := file.sourceEventIndex
  let file := file.canonicalizePartialIncidentCreationOrder
  let indexed := file.sourceEventIndex.map fun entry => (entry.scope, entry.sourceEventId)
  let index := file.sourceEventIndex ++ missingEntries indexed file.indexCandidates
  ({ file with sourceEventIndex := index }, sourceIndexMutationSince before index)

end NotificationFileV1

end EasiFlux
