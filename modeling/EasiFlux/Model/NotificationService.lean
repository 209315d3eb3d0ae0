import EasiFlux.Lib.JsonRecords
import EasiFlux.Lib.Steps
import EasiFlux.Lib.Stops
import EasiFlux.Model.Housekeeping
import EasiFlux.Model.NotificationPolicy

/-!
# The notification service

`services/notification.rs`: the file in memory and what is derived from it, behind one lock. Each
operation is a program on the service (`Stops.Prog`) that runs alone. An operation changes a copy
of the state, has its file saved, and only then replaces the state; a publish may do so twice, the
first time for its housekeeping (`preparePublishLocked`).

What the store answers to a save comes with the call, and so do the random uuids. Revisions are
numbers here; the code prints them in outcomes and events.
-/

namespace EasiFlux

open JsonText Results SortOn Stops

/-! ## Data -/

inductive AvailabilityState
  | available
  | unavailable
  deriving DecidableEq, Repr

structure ConnectionObservation where
  accountId : String
  sessionEpoch : ℕ
  channel : NotificationChannel
  state : AvailabilityState
  deriving DecidableEq, Repr

structure EnvironmentObservation where
  accountId : String
  sessionEpoch : ℕ
  environmentKey : String
  environment : NotificationEnvironment
  state : AvailabilityState
  deriving DecidableEq, Repr

inductive OrderObservationOrigin
  | command
  | realtime
  | snapshot
  deriving DecidableEq, Repr

inductive ObservedOrderStatus
  | new
  | partiallyFilled
  | filled
  | canceled
  | rejected
  deriving DecidableEq, Repr

def ObservedOrderStatus.isTerminal : ObservedOrderStatus → Bool
  | .filled | .canceled | .rejected => true
  | _ => false

structure OrderObservation where
  accountId : String
  sessionEpoch : ℕ
  orderId : Option String
  submissionId : Option String
  orderLinkId : Option String
  status : ObservedOrderStatus
  origin : OrderObservationOrigin
  deriving DecidableEq, Repr

structure OrderKey where
  accountId : String
  entityId : String
  deriving DecidableEq, Repr

structure ObservedOrderState where
  status : ObservedOrderStatus
  terminalNotified : Bool
  deriving DecidableEq, Repr

/-- `ViewContext`; that of an account has a valid id. -/
structure ViewContext where
  accountId : Option String
  valid : ∀ id ∈ accountId, isAccountId id = true

structure NotificationToastCandidate where
  id : String
  scope : NotificationScope
  sessionEpoch : Option ℕ
  category : NotificationCategory
  severity : NotificationSeverity
  content : NotificationContent
  action : Option NotificationAction
  deriving DecidableEq, Repr

structure NotificationChangedEvent where
  previousRevision : ℕ
  revision : ℕ
  change : NotificationChange
  affectedScopes : List NotificationScope
  notificationId : Option String
  toastCandidate : Option NotificationToastCandidate
  deriving DecidableEq, Repr

structure ServiceState where
  file : NotificationFileV1
  seenSourceEvents : Finset (NotificationScope × String)
  lastPrunedAtMs : ℕ
  activeIncidents : ActiveIncidents
  orderStates : OrderKey → Option ObservedOrderState

/-- The service, with the files it has handed to the store and whether they were saved, and the
events it has emitted. -/
structure NotificationService where
  state : ServiceState
  handed : List (NotificationFileV1 × Bool)
  events : List NotificationChangedEvent

structure PublishOutcome where
  notification : Option NotificationRecord
  revision : ℕ
  committed : Bool
  deriving DecidableEq, Repr

structure ClientNotificationPublishResult where
  notification : NotificationRecord
  unreadCount : ℕ
  revision : ℕ
  committed : Bool
  deriving DecidableEq, Repr

structure NotificationMutationResult where
  notification : Option NotificationRecord
  affectedCount : ℕ
  affectedScopes : List NotificationScope
  unreadCount : ℕ
  revision : ℕ
  deriving DecidableEq, Repr

structure PruneOutcome where
  affectedCount : ℕ
  affectedScopes : List NotificationScope
  revision : ℕ
  deriving DecidableEq, Repr

inductive NotificationFilter
  | all
  | unread
  deriving DecidableEq, Repr

structure ListNotificationsRequest where
  accountId : Option String
  filter : NotificationFilter
  cursor : Option String
  limit : ℕ
  deriving DecidableEq, Repr

structure NotificationPage where
  items : List NotificationRecord
  nextCursor : Option String
  unreadCount : ℕ
  revision : ℕ
  deriving DecidableEq, Repr

structure NotificationSummary where
  unreadCount : ℕ
  revision : ℕ
  deriving DecidableEq, Repr

structure CursorV1 where
  version : ℕ
  fingerprint : String
  filter : NotificationFilter
  createdAtMs : ℕ
  id : String
  deriving DecidableEq, Repr

/-- What the service uses of its crates: `sha256Hex` is the digest of a text in hex digits, and
`isUuidV4` says whether a text, however it is written, is a random uuid. -/
structure NotificationCrates where
  bytes : PrintedBytes
  sha256Hex : String → String
  isUuidV4 : String → Bool

namespace NotificationError

def storageUnavailable : NotificationError := ⟨"NOTIFICATION_STORAGE_UNAVAILABLE", "通知存储不可用"⟩

def scopeMismatch : NotificationError := ⟨"NOTIFICATION_SCOPE_MISMATCH", "通知账户范围不匹配"⟩

def notFound : NotificationError := ⟨"NOTIFICATION_NOT_FOUND", "通知不存在"⟩

def sourceIndexCapacityExceeded : NotificationError := ⟨"NOTIFICATION_SOURCE_INDEX_CAPACITY_EXCEEDED", "通知来源索引容量已满"⟩

def occurrenceOverflow : NotificationError := ⟨"NOTIFICATION_OCCURRENCE_OVERFLOW", "通知出现次数已达上限"⟩

def invalidRecord : NotificationError := ⟨"INVALID_NOTIFICATION_RECORD", "通知记录无效"⟩

def invalidRequest : NotificationError := ⟨"INVALID_NOTIFICATION_REQUEST", "通知查询请求无效"⟩

def invalidCursor : NotificationError := ⟨"INVALID_NOTIFICATION_CURSOR", "通知游标无效"⟩

end NotificationError

/-! ## Views -/

namespace ViewContext

def global : ViewContext := ⟨none, nofun⟩

def account (accountId : String) : Except NotificationError ViewContext :=
  if h : isAccountId accountId then .ok ⟨some accountId, fun _ hid => (Option.some.inj hid) ▸ h⟩ else .error .invalidScope

def visible (context : ViewContext) : NotificationScope → Bool
  | .global => true
  | .account accountId => context.accountId = some accountId

end ViewContext

/-- The records of the visible partitions. -/
def visibleRecords (file : NotificationFileV1) (context : ViewContext) : List NotificationRecord :=
  (file.partitions.filter fun partition => context.visible partition.scope).flatMap (·.items)

def visibleUnreadCount (file : NotificationFileV1) (context : ViewContext) (nowMs : ℕ) : ℕ :=
  (visibleRecords file context).countP fun record => record.readAtMs.isNone && !isExpired record nowMs

/-! ## Cursors -/

def NotificationFilter.name : NotificationFilter → String
  | .all => "all"
  | .unread => "unread"

def NotificationFilter.read (v : JsonText.Json) : Option NotificationFilter :=
  (readVariant v).bind fun name => [NotificationFilter.all, .unread].find? (·.name = name)

namespace CursorV1

def dto (c : CursorV1) : JsonText.Json :=
  record [("version", .int c.version), ("fingerprint", string c.fingerprint), ("filter", string c.filter.name),
    ("createdAtMs", .int c.createdAtMs), ("id", string c.id)]

def deserialize (v : JsonText.Json) : Option CursorV1 := do
  let field ← fieldsOrElements ["version", "fingerprint", "filter", "createdAtMs", "id"] v
  let version ← (field "version").bind (readNat 8)
  let fingerprint ← (field "fingerprint").bind readText
  let filter ← (field "filter").bind NotificationFilter.read
  let createdAtMs ← (field "createdAtMs").bind (readNat 64)
  let id ← (field "id").bind readText
  return ⟨version, fingerprint, filter, createdAtMs, id⟩

end CursorV1

def queryFingerprint (context : ViewContext) : String :=
  match context.accountId with
  | none => "global"
  | some accountId => s!"account:{accountId}|global"

def encodeCursor (cursor : CursorV1) : String :=
  String.ofList ("n1.".toList ++ (toBytes cursor.dto).toList.flatMap fun byte => Hex.fixed 2 byte.toNat)

/-- `u8::from_str_radix(pair, 16)`, which takes a sign. -/
def pairValue (high low : Char) : Option ℕ :=
  if high = '+' then Hex.hexValue low
  else (Hex.hexValue high).bind fun h => (Hex.hexValue low).map fun l => 16 * h + l

def readPairs : List Char → Option (List UInt8)
  | [] => some []
  | high :: low :: rest => (pairValue high low).bind fun n => (readPairs rest).map (UInt8.ofNat n :: ·)
  | [_] => none

def decodeCursor (encoded : String) (fingerprint : String) (filter : NotificationFilter) : Except NotificationError CursorV1 := do
  let hex ← okOr (if "n1.".toList.isPrefixOf encoded.toList then some (encoded.toList.drop 3) else none) .invalidCursor
  ensure (hex ≠ []) .invalidCursor
  let bytes ← okOr (readPairs hex) .invalidCursor
  let cursor ← okOr (fromBytes CursorV1.deserialize ⟨bytes.toArray⟩) .invalidCursor
  ensure (cursor.version = 1 ∧ cursor.fingerprint = fingerprint ∧ cursor.filter = filter ∧ cursor.id ≠ "") .invalidCursor
  return cursor

/-! ## Orders -/

section Orders

variable (K : NotificationCrates)

def orderAliasToken (domain start value : String) : String :=
  start ++ K.sha256Hex s!"easiflux.notification.order-alias.v1\x00{domain}\x00{value}"

def orderObservationEntityIds (observation : OrderObservation) : Except NotificationError (List String) := do
  let orderId := observation.orderId.filter fun value =>
    trim value ≠ "" && value.utf8ByteSize ≤ 128 && !value.toList.any isControl
  let submissionId := observation.submissionId.filter K.isUuidV4
  let orderLinkId := observation.orderLinkId.filter fun value => value ≠ "" && value.length ≤ 36
  let ids := (orderId.map (orderAliasToken K "order-id" "o")).toList ++
    (submissionId.map (orderAliasToken K "submission-id" "s")).toList ++
    (orderLinkId.map (orderAliasToken K "order-link-id" "l")).toList
  ensure (ids ≠ []) (.invalidContent "订单观察标识无效")
  return sortOn id ids.dedup

def persistedOrderAliasesFromSource (source : String) : List String :=
  if "order:terminal:".toList.isPrefixOf source.toList then
    (((source.toList.drop 15).splitOn ':').filter fun token =>
      (String.ofList token).utf8ByteSize = 65 && ['o', 's', 'l'].contains (token.headD ' ') &&
        token.tail.all fun c => (Hex.hexValue c).isSome).map String.ofList
  else []

/-- `persisted_order_aliases` -/
def persistedOrderAliases (record : NotificationRecord) : List String :=
  let fromSource := (record.sourceEventId.map persistedOrderAliasesFromSource).getD []
  if fromSource ≠ [] then fromSource
  else
    [("orderId", "order-id", "o"), ("submissionId", "submission-id", "s")].filterMap fun names =>
      match record.content.get names.1 with
      | some (.string value) => if trim value ≠ "" then some (orderAliasToken K names.2.1 names.2.2 value) else none
      | _ => none

def terminalStatus : NotificationKind → Option ObservedOrderStatus
  | .orderFilled => some .filled
  | .orderCanceled => some .canceled
  | .orderRejected => some .rejected
  | _ => none

/-- `rebuild_order_states`: the first record of an alias counts. -/
def rebuildOrderStates (file : NotificationFileV1) : OrderKey → Option ObservedOrderState := fun key =>
  (file.records.findSome? fun sr =>
    if sr.1 = .account key.accountId ∧ key.entityId ∈ persistedOrderAliases K sr.2 then terminalStatus sr.2.kind else none).map
    fun status => ⟨status, true⟩

end Orders

/-! ## Commits -/

abbrev ServiceM := Prog NotificationService NotificationError

/-- A fallible computation in an operation. -/
def liftExcept {α : Type} : Except NotificationError α → ServiceM α
  | .ok a => pure a
  | .error e => throw e

/-- `save_file`; the reports of a failure are left out. -/
def saveFile (file : NotificationFileV1) (saved : Bool) : ServiceM Unit := do
  let s ← get
  set { s with handed := s.handed ++ [(file, saved)] }
  if saved then pure () else throw .storageUnavailable

/-- `commit_file`, and the event that its callers emit then; `commit_publish` ends alike. -/
def commitFile (next : ServiceState) (saved : Bool) (change : NotificationChange) (affectedScopes : List NotificationScope)
    (notificationId : Option String) (toastCandidate : Option NotificationToastCandidate) : ServiceM Unit := do
  let previousRevision := next.file.revision
  let file ← liftExcept (checkedRevision next.file 1)
  saveFile file saved
  let s ← get
  let event : NotificationChangedEvent :=
    ⟨previousRevision, file.revision, change, affectedScopes, notificationId, toastCandidate⟩
  set { s with state := { next with file := file }, events := s.events ++ [event] }

/-! ## Publishing -/

def semanticTarget (file : NotificationFileV1) (input : NotificationInput) : Option NotificationRecord :=
  (file.partitions.find? (·.scope = input.scope)).bind fun partition => partition.items.find? (·.dedupeKey = input.dedupeKey)

def canReduceSourceIndexWithoutRecord (file : NotificationFileV1) (requiredScope : Option NotificationScope) (limit : ℕ)
    (protectedId : String) : Bool :=
  (file.entriesIn requiredScope).length ≤ limit ||
    ((file.entriesIn requiredScope).filter (·.notificationId = protectedId)).length ≤ limit

/-- The loop that evicts the oldest records of a full partition; each turn removes a record, so there
are never more turns than records. -/
def evictWhileFull (scope : NotificationScope) : ℕ → NotificationFileV1 × HousekeepingMutation →
    NotificationFileV1 × HousekeepingMutation
  | 0, st => st
  | n + 1, st =>
    if maxNotificationPartitionItems ≤ st.1.partitionRecordCount scope then
      match evictOldestRecord st.1 scope with
      | none => st
      | some file => evictWhileFull scope n (file, st.2.noteRemovedRecord scope)
    else st

def prepareFileForPublish (file : NotificationFileV1) (input : NotificationInput) (nowMs : ℕ) :
    Except NotificationError (NotificationFileV1 × HousekeepingMutation) := do
  let st := pruneFile file none nowMs
  let protectedId := (semanticTarget st.1 input).map (·.id)
  let scopeLimit := maxNotificationSourceIndexPerScope - 1
  let totalLimit := maxNotificationSourceIndexTotal - 1
  let st ←
    if input.sourceEventId.isSome then do
      ensure (protectedId.all fun id => canReduceSourceIndexWithoutRecord st.1 (some input.scope) scopeLimit id &&
        canReduceSourceIndexWithoutRecord st.1 none totalLimit id) .sourceIndexCapacityExceeded
      pure (evictNoting none totalLimit protectedId (evictNoting (some input.scope) scopeLimit protectedId st))
    else pure st
  if (semanticTarget st.1 input).isNone then return evictWhileFull input.scope st.1.records.length st
  else return st

/-- `prepare_publish_record`, with the candidate for a toast. -/
def preparePublishRecord (file : NotificationFileV1) (input : NotificationInput) (nowMs : ℕ) (id : String) :
    Except NotificationError (PreparedPublish × Option NotificationToastCandidate) :=
  let entryOf := fun record : NotificationRecord =>
    input.sourceKey.map fun key => (⟨key.1, key.2, record.id⟩ : NotificationSourceEventIndexEntry)
  match semanticTarget file input with
  | some existing => do
    ensure (existing.occurrenceCount + 1 < 2 ^ 32) .occurrenceOverflow
    let record := { existing with
      category := input.category
      kind := input.kind
      severity := input.severity
      content := input.content
      entity := input.entity
      action := input.action
      occurrenceCount := existing.occurrenceCount + 1
      updatedAtMs := max nowMs existing.updatedAtMs }
    ensure record.validate .invalidRecord
    return (PreparedPublish.mk record .updated (entryOf record), none)
  | none => do
    let record := input.newRecord id nowMs
    ensure record.validate .invalidRecord
    return (PreparedPublish.mk record .created (entryOf record),
      some ⟨record.id, record.scope, input.sessionEpoch, record.category, record.severity, record.content, record.action⟩)

/-- What the store answers to the saves of a publish: that of its housekeeping, and its own. -/
structure SaveAnswers where
  housekeeping : Bool
  publish : Bool
  deriving DecidableEq, Repr

def noPublishOutcome (state : ServiceState) : PublishOutcome := ⟨none, state.file.revision, false⟩

/-- `record_for_source` -/
def recordForSource (file : NotificationFileV1) (source : NotificationScope × String) : Option NotificationRecord := do
  let entry ← file.sourceEventIndex.find? fun entry => entry.scope = source.1 && entry.sourceEventId = source.2
  let partition ← file.partitions.find? (·.scope = source.1)
  partition.items.find? (·.id = entry.notificationId)

def NotificationRecord.markedRead (record : NotificationRecord) (nowMs : ℕ) : NotificationRecord :=
  { record with readAtMs := some (max nowMs record.createdAtMs), updatedAtMs := max record.updatedAtMs nowMs }

def IncidentKey.owner : IncidentKey → String
  | .connection accountId _ => accountId
  | .environment accountId _ => accountId

namespace NotificationService

variable (K : NotificationCrates)

def preparePublishLocked (input : NotificationInput) (nowMs : ℕ) (id : String) (saved : Bool) :
    ServiceM (Option (PreparedPublish × Option NotificationToastCandidate)) := do
  liftExcept (validatePublishInput input)
  let s ← get
  if input.sourceKey.any (· ∈ s.state.seenSourceEvents) then return none
  let (file, mutation) ← liftExcept (prepareFileForPublish s.state.file input nowMs)
  let (prepared, toast) ← liftExcept (preparePublishRecord file input nowMs id)
  let (reserved, file, mutation) := reserveSerializedCapacityForPublish K.bytes file prepared mutation
  liftExcept reserved
  if mutation.changed then
    commitFile { s.state with
        file := file
        seenSourceEvents := file.sourceEvents
        activeIncidents := rebuildActiveIncidents file }
      saved .reset mutation.affectedScopes none none
  return some (prepared, toast)

/-- `apply_prepared_publish` and `commit_publish` -/
def commitPublish (next : ServiceState) (prepared : PreparedPublish) (toast : Option NotificationToastCandidate) (saved : Bool) :
    ServiceM PublishOutcome := do
  let file ← liftExcept (applyPreparedToFile next.file prepared)
  let seen := (prepared.sourceEntry.map fun entry => (entry.scope, entry.sourceEventId)).toFinset ∪ next.seenSourceEvents
  commitFile { next with file := file, seenSourceEvents := seen } saved prepared.change [prepared.record.scope]
    (some prepared.record.id) toast
  return ⟨some prepared.record, (← get).state.file.revision, true⟩

/-- A publish with a change of what is kept beside the file. -/
def publishWith (update : ServiceState → ServiceState) (input : NotificationInput) (nowMs : ℕ) (id : String) (saves : SaveAnswers) :
    ServiceM PublishOutcome := do
  match ← preparePublishLocked K input nowMs id saves.housekeeping with
  | none => return noPublishOutcome (← get).state
  | some (prepared, toast) => commitPublish (update (← get).state) prepared toast saves.publish

def publish (input : NotificationInput) (nowMs : ℕ) (id : String) (saves : SaveAnswers) : ServiceM PublishOutcome := do
  liftExcept (validatePublishInput input)
  let s ← get
  match input.sourceKey.filter (· ∈ s.state.seenSourceEvents) with
  | some source =>
    let notification ← liftExcept (okOr (recordForSource s.state.file source) .stateConflict)
    return ⟨some notification, s.state.file.revision, false⟩
  | none => publishWith K (fun next => next) input nowMs id saves

/-- `client_notification_record_matches_input` -/
def clientNotificationRecordMatchesInput (record : NotificationRecord) (input : NotificationInput) : Bool :=
  ([.accountRecoveryFailed, .accountReconciliationFailed] : List NotificationKind).contains input.kind && record.validate &&
    input.validate && record.scope = input.scope && record.category = input.category && record.kind = input.kind &&
    record.severity = input.severity && record.content = input.content && record.entity = input.entity &&
    record.action = input.action && record.sourceEventId = input.sourceEventId && record.dedupeKey = input.dedupeKey

def publishClientAccountFailure (input : NotificationInput) (nowMs : ℕ) (id : String) (saves : SaveAnswers) :
    ServiceM ClientNotificationPublishResult := do
  liftExcept (validatePublishInput input)
  liftExcept (ensure (([.accountRecoveryFailed, .accountReconciliationFailed] : List NotificationKind).contains input.kind)
    (.invalidContent "客户端通知输入无效"))
  let accountId ← match input.scope with
    | .account accountId => pure accountId
    | .global => throw (.invalidContent "客户端通知输入无效")
  let context ← liftExcept (ViewContext.account accountId)
  let source ← liftExcept (okOr input.sourceKey (.invalidContent "客户端通知来源无效"))
  let s ← get
  if source ∈ s.state.seenSourceEvents then
    let notification ← liftExcept (okOr (recordForSource s.state.file source) .stateConflict)
    liftExcept (ensure (clientNotificationRecordMatchesInput notification input) .stateConflict)
    return ⟨notification, visibleUnreadCount s.state.file context nowMs, s.state.file.revision, false⟩
  else
    match ← preparePublishLocked K input nowMs id saves.housekeeping with
    | none => throw .stateConflict
    | some (prepared, toast) =>
      let outcome ← commitPublish (← get).state prepared toast saves.publish
      let notification ← liftExcept (okOr outcome.notification .stateConflict)
      return ⟨notification, visibleUnreadCount (← get).state.file context nowMs, outcome.revision, true⟩

/-! ### Observations -/

/-- An edge of an incident: an outage that is not open is opened, and a recovery closes it. -/
def observeIncident (key : IncidentKey) (state : AvailabilityState) (incidentId : String)
    (edge : String → Bool → Except NotificationError NotificationInput) (nowMs : ℕ) (id : String) (saves : SaveAnswers) :
    ServiceM PublishOutcome := do
  let s ← get
  match state, s.state.activeIncidents key with
  | .unavailable, some _ => return noPublishOutcome s.state
  | .unavailable, none =>
    let input ← liftExcept (edge incidentId false)
    publishWith K (fun next => { next with activeIncidents := Function.update next.activeIncidents key (some incidentId) })
      input nowMs id saves
  | .available, none => return noPublishOutcome s.state
  | .available, some incident =>
    let input ← liftExcept (edge incident true)
    publishWith K (fun next => { next with activeIncidents := Function.update next.activeIncidents key none }) input nowMs id saves

/-- The suffix of a source event. -/
def edgeName (recovered : Bool) : String := if recovered then "recovered" else "unavailable"

def observeConnection (o : ConnectionObservation) (nowMs : ℕ) (incidentId id : String) (saves : SaveAnswers) :
    ServiceM PublishOutcome := do
  let _ ← liftExcept (ViewContext.account o.accountId)
  observeIncident K (.connection o.accountId o.channel) o.state incidentId
    (fun incident recovered => do
      let context ← PolicyContext.new o.accountId o.sessionEpoch s!"connection:{channelTag o.channel}:{incident}:{edgeName recovered}"
      NotificationPolicy.connectionEdge context o.channel incident recovered)
    nowMs id saves

def validateEnvironmentKey (environmentKey : String) : Except NotificationError Unit := do
  let digest ← okOr (if "env-v1-".toList.isPrefixOf environmentKey.toList then some (environmentKey.toList.drop 7) else none)
    (.invalidContent "环境标识无效")
  ensure ((String.ofList digest).utf8ByteSize = 64 ∧ digest.all Hex.isLower) (.invalidContent "环境标识无效")

def observeEnvironment (o : EnvironmentObservation) (nowMs : ℕ) (incidentId id : String) (saves : SaveAnswers) :
    ServiceM PublishOutcome := do
  let _ ← liftExcept (ViewContext.account o.accountId)
  liftExcept (validateEnvironmentKey o.environmentKey)
  observeIncident K (.environment o.accountId o.environmentKey) o.state incidentId
    (fun incident recovered => do
      let context ← PolicyContext.new o.accountId o.sessionEpoch s!"environment:{o.environmentKey}:{incident}:{edgeName recovered}"
      NotificationPolicy.environmentEdge context o.environment o.environmentKey incident recovered)
    nowMs id saves

def observeSessionExpired (accountId : String) (sessionEpoch : ℕ) (notificationSessionToken : String) (nowMs : ℕ) (id : String)
    (saves : SaveAnswers) : ServiceM PublishOutcome := do
  let _ ← liftExcept (ViewContext.account accountId)
  liftExcept (ensure (isGeneratedUuid notificationSessionToken) (.invalidContent "通知会话标识无效"))
  let context ← liftExcept (PolicyContext.new accountId sessionEpoch s!"session:{notificationSessionToken}:expired")
  let input ← liftExcept (NotificationPolicy.sessionExpired context)
  publish K input nowMs id saves

/-- The first terminal state of the keys, or else their first state. -/
def previousOrderState (state : ServiceState) (keys : List OrderKey) : Option ObservedOrderState :=
  ((keys.filterMap state.orderStates).find? (·.status.isTerminal)).or (keys.findSome? state.orderStates)

def setOrderStates (state : ServiceState) (keys : List OrderKey) (observed : ObservedOrderState) : ServiceState :=
  { state with orderStates := fun key => if key ∈ keys then some observed else state.orderStates key }

/-- The input of a terminal observation; the code does not get here with another. -/
def orderInput (context : PolicyContext) (o : OrderObservation) : Except NotificationError NotificationInput :=
  match o.status with
  | .filled => do
    NotificationPolicy.orderFilled context (← okOr o.orderId (.invalidContent "成交订单标识无效"))
  | .canceled => do
    NotificationPolicy.orderCanceled context (← okOr o.orderId (.invalidContent "取消订单标识无效"))
  | _ => NotificationPolicy.orderRejected context o.orderId o.submissionId

def observeOrder (o : OrderObservation) (nowMs : ℕ) (id : String) (saves : SaveAnswers) : ServiceM PublishOutcome := do
  let _ ← liftExcept (ViewContext.account o.accountId)
  let entityIds ← liftExcept (orderObservationEntityIds K o)
  let keys := entityIds.map fun entityId => (⟨o.accountId, entityId⟩ : OrderKey)
  let s ← get
  let previous := previousOrderState s.state keys
  if previous.any fun state => state.status.isTerminal && state.status ≠ o.status then return noPublishOutcome s.state
  let alreadyNotified := previous.any (·.terminalNotified)
  let shouldPublish := o.status.isTerminal && !alreadyNotified &&
    match o.origin with
    | .snapshot => false
    | .command => true
    | .realtime => previous.any fun state => !state.status.isTerminal
  if !shouldPublish then
    set { s with state := setOrderStates s.state keys ⟨o.status, alreadyNotified⟩ }
    return noPublishOutcome s.state
  let entityId := ":".intercalate entityIds
  let context ← liftExcept (PolicyContext.new o.accountId o.sessionEpoch s!"order:terminal:{entityId}")
  let input ← liftExcept (orderInput context o)
  publishWith K (fun next => setOrderStates next keys ⟨o.status, true⟩) input nowMs id saves

/-! ### Reading -/

def list (context : ViewContext) (request : ListNotificationsRequest) (nowMs : ℕ) : ServiceM NotificationPage := do
  liftExcept (ensure (request.accountId.all (fun id => trim id ≠ "") && request.cursor.all (fun cursor => trim cursor ≠ "") &&
    1 ≤ request.limit && request.limit ≤ 100) .invalidRequest)
  liftExcept (ensure (request.accountId = context.accountId) .scopeMismatch)
  let fingerprint := queryFingerprint context
  let cursor ← match request.cursor with
    | none => pure none
    | some cursor => do
      let cursor ← liftExcept (decodeCursor cursor fingerprint request.filter)
      pure (some cursor)
  let file := (← get).state.file
  let matching := (visibleRecords file context).filter fun record =>
    !isExpired record nowMs && (request.filter = .all || record.readAtMs.isNone) &&
      cursor.all fun cursor => toLex (record.createdAtMs, record.id) < toLex (cursor.createdAtMs, cursor.id)
  let items := sortOn (fun record => OrderDual.toDual (toLex (record.createdAtMs, record.id))) matching
  let page := items.take request.limit
  let nextCursor := if request.limit < items.length then
      page.getLast?.map fun record => encodeCursor ⟨1, fingerprint, request.filter, record.createdAtMs, record.id⟩
    else none
  return ⟨page, nextCursor, visibleUnreadCount file context nowMs, file.revision⟩

def summary (context : ViewContext) (nowMs : ℕ) : ServiceM NotificationSummary := do
  let file := (← get).state.file
  return ⟨visibleUnreadCount file context nowMs, file.revision⟩

/-! ### Mutations -/

/-- The record of an id, with the scope of its partition: the first, should there be several. -/
def findRecord (file : NotificationFileV1) (id : String) : Option (NotificationScope × NotificationRecord) :=
  file.records.find? (·.2.id = id)

/-- Replaces the first record of the id. -/
def replaceFirst (id : String) (f : NotificationRecord → NotificationRecord) : List NotificationPartition → List NotificationPartition
  | [] => []
  | partition :: partitions =>
    match partition.items.findIdx? (·.id = id) with
    | some i => { partition with items := partition.items.modify i f } :: partitions
    | none => partition :: replaceFirst id f partitions

/-- What a mutation answers after its commit, or without one. -/
def mutationResult (notification : Option NotificationRecord) (affectedCount : ℕ) (affectedScopes : List NotificationScope)
    (context : ViewContext) (nowMs : ℕ) : ServiceM NotificationMutationResult := do
  let file := (← get).state.file
  return ⟨notification, affectedCount, affectedScopes, visibleUnreadCount file context nowMs, file.revision⟩

def markRead (context : ViewContext) (id : String) (nowMs : ℕ) (saved : Bool) : ServiceM NotificationMutationResult := do
  let s ← get
  let (scope, record) ← liftExcept (okOr (findRecord s.state.file id) .notFound)
  liftExcept (ensure (context.visible scope) .scopeMismatch)
  if record.readAtMs.isSome then mutationResult (some record) 0 [] context nowMs
  else
    let file := { s.state.file with partitions := replaceFirst id (·.markedRead nowMs) s.state.file.partitions }
    commitFile { s.state with file := file } saved .updated [scope] (some id) none
    mutationResult (some (record.markedRead nowMs)) 1 [scope] context nowMs

def markVisibleRead (context : ViewContext) (nowMs : ℕ) (saved : Bool) : ServiceM NotificationMutationResult := do
  let s ← get
  let marks := fun record : NotificationRecord => record.readAtMs.isNone && !isExpired record nowMs
  let affected := s.state.file.partitions.filter fun partition => context.visible partition.scope && partition.items.any marks
  let scopes := affected.map (·.scope)
  if affected = [] then mutationResult none 0 scopes context nowMs
  else
    let partitions := s.state.file.partitions.map fun partition =>
      if context.visible partition.scope then
        { partition with items := partition.items.map fun record => if marks record then record.markedRead nowMs else record }
      else partition
    commitFile { s.state with file.partitions := partitions } saved .updated scopes none none
    mutationResult none (affected.map fun partition => partition.items.countP marks).sum scopes context nowMs

def deleteVisible (context : ViewContext) (id : String) (nowMs : ℕ) (saved : Bool) : ServiceM NotificationMutationResult := do
  let s ← get
  let (scope, _) ← liftExcept (okOr (findRecord s.state.file id) .notFound)
  liftExcept (ensure (context.visible scope) .scopeMismatch)
  let partitions := (eraseFirstRecord (fun _ record => record.id = id) s.state.file.partitions).filter (·.items ≠ [])
  let file := (cleanupSourceEventIndex { s.state.file with partitions := partitions }).1
  commitFile { s.state with file := file, seenSourceEvents := file.sourceEvents } saved .removed [scope] (some id) none
  mutationResult none 1 [scope] context nowMs

/-- The file without the partitions of the scope. -/
def withoutScope (file : NotificationFileV1) (scope : NotificationScope) : NotificationFileV1 :=
  (cleanupSourceEventIndex { file with partitions := file.partitions.filter (·.scope ≠ scope) }).1

def clearAccount (activeAccountId requestedAccountId : String) (nowMs : ℕ) (saved : Bool) : ServiceM NotificationMutationResult := do
  let context ← liftExcept (ViewContext.account activeAccountId)
  liftExcept (ensure (activeAccountId = requestedAccountId) .scopeMismatch)
  let scope := NotificationScope.account requestedAccountId
  let s ← get
  let affectedCount := s.state.file.partitionRecordCount scope
  if affectedCount = 0 then mutationResult none 0 [] context nowMs
  else
    let file := withoutScope s.state.file scope
    commitFile { s.state with file := file, seenSourceEvents := file.sourceEvents } saved .reset [scope] none none
    mutationResult none affectedCount [scope] context nowMs

def prune (configuredAccounts : List String) (nowMs : ℕ) (saved : Bool) : ServiceM PruneOutcome := do
  let s ← get
  let (file, pruning) := pruneFile s.state.file (some configuredAccounts) nowMs
  let (enforced, file, pruning) := enforceSerializedFileCap K.bytes file pruning true
  let _ ← liftExcept enforced
  let next : ServiceState :=
    { file := file
      seenSourceEvents := file.sourceEvents
      lastPrunedAtMs := nowMs
      activeIncidents := rebuildActiveIncidents file
      orderStates := fun key => if key.accountId ∈ configuredAccounts then s.state.orderStates key else none }
  if !pruning.changed then
    set { s with state := next }
    return ⟨0, pruning.affectedScopes, file.revision⟩
  else
    commitFile next saved .reset pruning.affectedScopes none none
    return ⟨pruning.affectedCount, pruning.affectedScopes, (← get).state.file.revision⟩

def deleteAccountPartition (accountId : String) (saved : Bool) : ServiceM Unit := do
  let _ ← liftExcept (ViewContext.account accountId)
  let scope := NotificationScope.account accountId
  let s ← get
  let file := withoutScope s.state.file scope
  let next : ServiceState :=
    { file := file
      seenSourceEvents := file.sourceEvents
      lastPrunedAtMs := s.state.lastPrunedAtMs
      activeIncidents := fun key => if key.owner = accountId then none else s.state.activeIncidents key
      orderStates := fun key => if key.accountId = accountId then none else s.state.orderStates key }
  if s.state.file.partitions.any (·.scope = scope) then commitFile next saved .reset [scope] none none
  else set { s with state := next }

/-! ## Runs -/

/-- `from_snapshot_internal`; what the enforcement answers is not looked at. -/
def fromSnapshot (file : NotificationFileV1) (lastPrunedAtMs : ℕ) : NotificationService :=
  let (file, _) := file.normalizeSourceEventIndex
  let (file, normalization) := enforceSourceIndexCaps (file, .default)
  let (_, file, _) := enforceSerializedFileCap K.bytes file normalization false
  { state :=
      { file := file
        seenSourceEvents := file.sourceEvents
        lastPrunedAtMs := lastPrunedAtMs
        activeIncidents := rebuildActiveIncidents file
        orderStates := rebuildOrderStates K file }
    handed := []
    events := [] }

end NotificationService

/-- A call of the service, with what its random ids and the answers of the store are. -/
inductive ServiceCall
  | publish (input : NotificationInput) (nowMs : ℕ) (id : String) (saves : SaveAnswers)
  | publishClientAccountFailure (input : NotificationInput) (nowMs : ℕ) (id : String) (saves : SaveAnswers)
  | list (context : ViewContext) (request : ListNotificationsRequest) (nowMs : ℕ)
  | summary (context : ViewContext) (nowMs : ℕ)
  | markRead (context : ViewContext) (id : String) (nowMs : ℕ) (saved : Bool)
  | markVisibleRead (context : ViewContext) (nowMs : ℕ) (saved : Bool)
  | deleteVisible (context : ViewContext) (id : String) (nowMs : ℕ) (saved : Bool)
  | clearAccount (activeAccountId requestedAccountId : String) (nowMs : ℕ) (saved : Bool)
  | prune (configuredAccounts : List String) (nowMs : ℕ) (saved : Bool)
  | deleteAccountPartition (accountId : String) (saved : Bool)
  | observeConnection (o : ConnectionObservation) (nowMs : ℕ) (incidentId id : String) (saves : SaveAnswers)
  | observeEnvironment (o : EnvironmentObservation) (nowMs : ℕ) (incidentId id : String) (saves : SaveAnswers)
  | observeSessionExpired (accountId : String) (sessionEpoch : ℕ) (notificationSessionToken : String) (nowMs : ℕ) (id : String)
    (saves : SaveAnswers)
  | observeOrder (o : OrderObservation) (nowMs : ℕ) (id : String) (saves : SaveAnswers)

inductive ServiceAnswer
  | published (outcome : PublishOutcome)
  | client (result : ClientNotificationPublishResult)
  | page (page : NotificationPage)
  | summary (summary : NotificationSummary)
  | mutated (result : NotificationMutationResult)
  | pruned (outcome : PruneOutcome)
  | deleted

def ServiceCall.program (K : NotificationCrates) : ServiceCall → ServiceM ServiceAnswer
  | .publish input nowMs id saves => .published <$> NotificationService.publish K input nowMs id saves
  | .publishClientAccountFailure input nowMs id saves => .client <$> NotificationService.publishClientAccountFailure K input nowMs id saves
  | .list context request nowMs => .page <$> NotificationService.list context request nowMs
  | .summary context nowMs => .summary <$> NotificationService.summary context nowMs
  | .markRead context id nowMs saved => .mutated <$> NotificationService.markRead context id nowMs saved
  | .markVisibleRead context nowMs saved => .mutated <$> NotificationService.markVisibleRead context nowMs saved
  | .deleteVisible context id nowMs saved => .mutated <$> NotificationService.deleteVisible context id nowMs saved
  | .clearAccount active requested nowMs saved => .mutated <$> NotificationService.clearAccount active requested nowMs saved
  | .prune configured nowMs saved => .pruned <$> NotificationService.prune K configured nowMs saved
  | .deleteAccountPartition accountId saved => (fun _ => .deleted) <$> NotificationService.deleteAccountPartition accountId saved
  | .observeConnection o nowMs incidentId id saves => .published <$> NotificationService.observeConnection K o nowMs incidentId id saves
  | .observeEnvironment o nowMs incidentId id saves => .published <$> NotificationService.observeEnvironment K o nowMs incidentId id saves
  | .observeSessionExpired accountId epoch token nowMs id saves =>
    .published <$> NotificationService.observeSessionExpired K accountId epoch token nowMs id saves
  | .observeOrder o nowMs id saves => .published <$> NotificationService.observeOrder K o nowMs id saves

namespace NotificationService

variable (K : NotificationCrates)

/-- What a call answers. -/
def answer (s : NotificationService) (c : ServiceCall) : Except NotificationError ServiceAnswer := (runFrom (c.program K) s).1

def step (s : NotificationService) (c : ServiceCall) : NotificationService := (runFrom (c.program K) s).2

/-- The service after the calls `cs`. -/
def run (s : NotificationService) (cs : List ServiceCall) : NotificationService := Steps.run (step K) s cs

end NotificationService

end EasiFlux
