import EasiFlux.Model.Accounts

/-!
# Notifications

The records of `models/notification.rs` with their validation, and the file of
`storage/notification_store.rs` that holds them: partitions by scope, and the index of the source
events that led to a record. `validateFile` is what a file is checked for when it is loaded.
-/

namespace EasiFlux

/-! ## Data -/

inductive NotificationScope
  | global
  | account (accountId : String)
  deriving DecidableEq, Repr

instance NotificationScope.lawfulBEq_target : LawfulBEq (NotificationScope × String) := inferInstance

inductive NotificationCategory
  | trading
  | riskAccount
  | connectionSystem
  deriving DecidableEq, Repr

inductive NotificationKind
  | orderFilled
  | orderCanceled
  | orderRejected
  | riskOrderBlocked
  | accountSessionExpired
  | accountRecoveryFailed
  | accountReconciliationFailed
  | connectionUnavailable
  | connectionRecovered
  | environmentUnavailable
  | environmentRecovered
  deriving DecidableEq, Repr

inductive NotificationSeverity
  | success
  | info
  | warning
  | error
  | critical
  deriving DecidableEq, Repr

/-- A number is a finite `f64`; a file holds no others. -/
inductive NotificationScalar
  | string (value : String)
  | bool (value : Bool)
  | number (value : ℚ)
  deriving DecidableEq, Repr

inductive NotificationChannel
  | api
  | websocket
  deriving DecidableEq, Repr

inductive NotificationEntityType
  | order
  | account
  | connection
  | environment
  deriving DecidableEq, Repr

structure NotificationEntity where
  entityType : NotificationEntityType
  id : String
  deriving DecidableEq, Repr

inductive AccountNotificationSection
  | api
  | risk
  deriving DecidableEq, Repr

inductive NotificationAction
  | openTrading (orderId : Option String)
  | openAccountSettings (accountSection : AccountNotificationSection)
  | openGeneralSettings
  deriving DecidableEq, Repr

/-- The parameters are a map, in the order of their names. -/
structure NotificationContent where
  messageKey : String
  params : List (String × NotificationScalar)
  fallbackTitle : String
  fallbackBody : String
  deriving DecidableEq, Repr

structure NotificationRecord where
  id : String
  scope : NotificationScope
  category : NotificationCategory
  kind : NotificationKind
  severity : NotificationSeverity
  content : NotificationContent
  entity : Option NotificationEntity
  action : Option NotificationAction
  sourceEventId : Option String
  dedupeKey : String
  occurrenceCount : ℕ
  createdAtMs : ℕ
  updatedAtMs : ℕ
  readAtMs : Option ℕ
  deriving DecidableEq, Repr

structure NotificationSourceEventIndexEntry where
  scope : NotificationScope
  sourceEventId : String
  notificationId : String
  deriving DecidableEq, Repr

structure NotificationPartition where
  scope : NotificationScope
  items : List NotificationRecord
  deriving DecidableEq, Repr

structure NotificationFileV1 where
  schemaVersion : ℕ
  revision : ℕ
  sourceEventIndex : List NotificationSourceEventIndexEntry
  partitions : List NotificationPartition
  deriving DecidableEq, Repr

/-! ## Identifiers -/

/-- `str::to_ascii_lowercase` -/
def asciiLowercase (text : List Char) : List Char := text.map Char.toLower

def looksLikeSecret (value : List Char) : Bool :=
  (["sk_", "sk-", "api_key", "api-key", "secret", "token", "bearer", "akia", "ghp_", "gho_", "ghu_", "ghs_",
      "github_pat_", "xoxb-", "xoxp-"].any fun start => start.toList.isPrefixOf (asciiLowercase value)) ||
    "eyJ".toList.isPrefixOf value

def isAsciiAlphanumeric (c : Char) : Bool := c.isDigit || ('a' ≤ c && c ≤ 'z') || ('A' ≤ c && c ≤ 'Z')

def isSafeNotificationIdentifier (value : String) (maxBytes : ℕ) : Bool :=
  value ≠ "" && value.utf8ByteSize ≤ maxBytes &&
    (value.toList.all fun c => isAsciiAlphanumeric c || c == '-' || c == '_' || c == ':') &&
    !(value.toList.splitOn ':').any looksLikeSecret &&
    !(value.toList.splitOnP fun c => c == ':' || c == '-' || c == '_').any fun segment =>
      ["sk", "secret", "token", "bearer", "apikey"].any fun word => asciiLowercase segment == word.toList

def isSafeNotificationSourceEventId (value : String) : Bool := isSafeNotificationIdentifier value 256

def isSafeNotificationDedupeKey (value : String) : Bool := isSafeNotificationIdentifier value 512

/-- So many lower-case hex digits. -/
def isHexGroup (width : ℕ) (text : List Char) : Bool :=
  text.length = width && text.all fun c => c.isDigit || ('a' ≤ c && c ≤ 'f')

/-- A random uuid as it is printed: lower-case, with hyphens, of version 4. -/
def isGeneratedUuid (value : String) : Bool :=
  match value.toList.splitOn '-' with
  | [a, b, c, d, e] =>
    isHexGroup 8 a && isHexGroup 4 b && isHexGroup 4 c && isHexGroup 4 d && isHexGroup 12 e && c.head? == some '4'
  | _ => false

/-- `AccountId::parse(value).is_some()` -/
def isAccountId (value : String) : Bool := value ≠ "" && trim value = value

/-- `OrderId::parse(value).is_some()` -/
def isOrderId (value : String) : Bool :=
  value ≠ "" && value.utf8ByteSize ≤ 64 && value.toList.any Char.isDigit &&
    (value.toList.all fun c => isAsciiAlphanumeric c || c == '-' || c == '_') && !looksLikeSecret value.toList

/-- `MAX_JAVASCRIPT_SAFE_INTEGER` -/
def isSafeTimestamp (value : ℕ) : Bool := value ≤ 9007199254740991

/-! ## Content -/

/-- A controlled message: its kind, key, title and body. -/
def messageTemplates : List (NotificationKind × String × String × String) :=
  [(.orderFilled, "order.filled", "订单已成交", "订单已完全成交，请前往交易页查看。"),
    (.orderCanceled, "order.canceled", "订单已取消", "订单已取消，请前往交易页查看。"),
    (.orderRejected, "order.rejected", "订单被拒绝", "订单请求被交易端拒绝，请检查订单参数。"),
    (.riskOrderBlocked, "risk.orderBlocked", "订单被风控拦截", "请检查风控设置"),
    (.accountSessionExpired, "account.sessionExpired", "账户会话已失效", "请检查账户 API 设置。"),
    (.accountRecoveryFailed, "account.recoveryFailed", "账户恢复失败", "请检查账户设置后重试。"),
    (.accountReconciliationFailed, "account.reconciliationFailed", "账户对账失败", "请检查账户数据后重试。"),
    (.connectionUnavailable, "connection.unavailable", "连接不可用", "交易连接暂时不可用，请检查网络或稍后重试。"),
    (.connectionRecovered, "connection.recovered", "连接已恢复", "交易连接已恢复。"),
    (.environmentUnavailable, "environment.unavailable", "环境不可达", "当前交易环境暂时不可达，请稍后重试。"),
    (.environmentRecovered, "environment.recovered", "环境已恢复", "当前交易环境已恢复。")]

/-- The parameters a message takes. -/
def acceptedParameters : NotificationKind → List String
  | .orderFilled => ["orderId"]
  | .orderCanceled => ["orderId"]
  | .orderRejected => ["orderId", "submissionId"]
  | .riskOrderBlocked => ["limit", "violationCode"]
  | .accountSessionExpired => ["accountId"]
  | .accountRecoveryFailed => ["attemptId", "failedSteps"]
  | .accountReconciliationFailed => ["attemptId", "failedSteps"]
  | .connectionUnavailable => ["channel"]
  | .connectionRecovered => ["channel"]
  | .environmentUnavailable => ["environment"]
  | .environmentRecovered => ["environment"]

/-- Some of the steps, in their order. -/
def isNormalizedStepList (value : String) : Bool :=
  let steps := (value.toList.splitOn ',').map String.ofList
  steps ≠ [] && steps.isSublist ["config", "profiles", "connection", "bootstrap"]

def violationCodes : List String :=
  ["invalidQuantity", "nonPositiveQuantity", "maxOrderQty", "missingLimitPrice", "invalidLimitPrice",
    "nonPositiveLimitPrice", "referencePriceUnavailable", "maxPriceDeviation", "dailyOrderLimit", "ledgerUnavailable"]

/-- `NotificationParameterKey::accepts` of the key of this name; a name that is no key accepts nothing. -/
def acceptsParameter (key : String) : NotificationScalar → Bool
  | .string value =>
    match key with
    | "accountId" => isAccountId value
    | "attemptId" => isGeneratedUuid value
    | "channel" => ["api", "websocket"].contains value
    | "environment" => ["production", "development", "unknown"].contains value
    | "failedSteps" => isNormalizedStepList value
    | "orderId" => isOrderId value
    | "submissionId" => isGeneratedUuid value
    | "violationCode" => violationCodes.contains value
    | _ => false
  | .number value => key == "limit" && 0 ≤ value
  | .bool _ => false

namespace NotificationContent

def get (c : NotificationContent) (key : String) : Option NotificationScalar := c.params.lookup key

def contains (c : NotificationContent) (key : String) : Bool := (c.get key).isSome

/-- `validate_exact_task5_params` -/
def exactParams (c : NotificationContent) : NotificationKind → Bool
  | .orderFilled => c.params.length = 1 && c.contains "orderId"
  | .orderCanceled => c.params.length = 1 && c.contains "orderId"
  | .orderRejected => c.params.length = 1 && (c.contains "orderId" ^^ c.contains "submissionId")
  | .riskOrderBlocked =>
    match c.get "violationCode" with
    | some (.string code) =>
      let requiresLimit := ["maxOrderQty", "maxPriceDeviation", "dailyOrderLimit"].contains code
      c.params.length = requiresLimit.toNat + 1 && c.contains "violationCode" && c.contains "limit" == requiresLimit
    | _ => false
  | _ => true

def validate (c : NotificationContent) : Bool :=
  (messageTemplates.find? fun t => t.2.1 = c.messageKey).any fun t =>
    c.fallbackTitle = t.2.2.1 && c.fallbackBody = t.2.2.2 &&
      (c.params.all fun p => (acceptedParameters t.1).contains p.1 && acceptsParameter p.1 p.2) && c.exactParams t.1

end NotificationContent

/-! ## Records -/

def NotificationScope.validate : NotificationScope → Bool
  | .global => true
  | .account accountId => isAccountId accountId

def NotificationEntity.validate (e : NotificationEntity) : Bool :=
  match e.entityType with
  | .account => isAccountId e.id
  | _ => trim e.id ≠ ""

def NotificationAction.validate : NotificationAction → Bool
  | .openTrading (some orderId) => isOrderId orderId
  | _ => true

/-- The attempt, the kind and the suffix of a client source. -/
def clientNotificationSourceParts (source : String) : Option (String × NotificationKind × String) :=
  match source.toList.splitOn ':' with
  | [client, attemptId, suffix] =>
    if client = "client".toList ∧ isGeneratedUuid (String.ofList attemptId) then
      if suffix = "recovery".toList then some (String.ofList attemptId, .accountRecoveryFailed, "recovery")
      else if suffix = "reconciliation".toList then
        some (String.ofList attemptId, .accountReconciliationFailed, "reconciliation")
      else none
    else none
  | _ => none

namespace NotificationRecord

variable (r : NotificationRecord)

def orderIdentity : Option String :=
  match r.content.get "orderId" with
  | some (.string value) => some value
  | _ => none

/-- The record is about the order, and leads to it. -/
def isAboutOrder (orderId : String) : Bool :=
  r.entity = some ⟨.order, orderId⟩ && r.action = some (.openTrading (some orderId))

def orderShape (severity : NotificationSeverity) (messageKey : String) : Bool :=
  r.orderIdentity.any fun orderId =>
    r.category = .trading && r.severity = severity && r.content.messageKey = messageKey && r.isAboutOrder orderId

/-- `client_failure_identity_matches` -/
def clientIdentityMatches (suffix : String) : Bool :=
  (r.sourceEventId.bind clientNotificationSourceParts).any fun parts =>
    parts.2.1 = r.kind && parts.2.2 = suffix && r.dedupeKey = s!"client:{parts.1}:{suffix}"

def clientShape (severity : NotificationSeverity) (messageKey suffix : String) : Bool :=
  match r.scope with
  | .account accountId =>
    r.category = .riskAccount && r.severity = severity && r.content.messageKey = messageKey &&
      r.content.params.length = 1 && r.content.contains "failedSteps" && r.entity = some ⟨.account, accountId⟩ &&
      r.action = some (.openAccountSettings .api) && r.clientIdentityMatches suffix
  | .global => false

/-- `validate_exact_task5_shape` of a record; its input has a session epoch. -/
def exactShape : Bool :=
  let orderKinds : List NotificationKind := [.orderFilled, .orderCanceled, .orderRejected, .riskOrderBlocked]
  let clientKinds : List NotificationKind := [.accountRecoveryFailed, .accountReconciliationFailed]
  orderKinds.contains r.kind ==
      ["order.filled", "order.canceled", "order.rejected", "risk.orderBlocked"].contains r.content.messageKey &&
    clientKinds.contains r.kind == ["account.recoveryFailed", "account.reconciliationFailed"].contains r.content.messageKey &&
    (!orderKinds.contains r.kind || r.scope ≠ .global) &&
    match r.kind with
    | .orderFilled => r.orderShape .success "order.filled"
    | .orderCanceled => r.orderShape .info "order.canceled"
    | .orderRejected =>
      r.category = .trading && r.severity = .error && r.content.messageKey = "order.rejected" &&
        match r.orderIdentity with
        | some orderId => r.isAboutOrder orderId
        | none => r.entity = none && r.action = some (.openTrading none)
    | .riskOrderBlocked =>
      r.category = .riskAccount && r.severity = .warning && r.content.messageKey = "risk.orderBlocked" &&
        r.entity = none && r.action = some (.openAccountSettings .risk)
    | .accountRecoveryFailed => r.clientShape .error "account.recoveryFailed" "recovery"
    | .accountReconciliationFailed => r.clientShape .critical "account.reconciliationFailed" "reconciliation"
    | _ => true

def validate : Bool :=
  isGeneratedUuid r.id && r.scope.validate && r.content.validate && r.entity.all NotificationEntity.validate &&
    r.action.all NotificationAction.validate && r.sourceEventId.all isSafeNotificationSourceEventId &&
    isSafeNotificationDedupeKey r.dedupeKey && r.occurrenceCount ≠ 0 && isSafeTimestamp r.createdAtMs &&
    isSafeTimestamp r.updatedAtMs && r.readAtMs.all isSafeTimestamp && r.createdAtMs ≤ r.updatedAtMs &&
    (r.readAtMs.all fun readAtMs => r.createdAtMs ≤ readAtMs && readAtMs ≤ r.updatedAtMs) && r.exactShape

end NotificationRecord

/-! ## The file -/

namespace NotificationFileV1

variable (file : NotificationFileV1)

/-- The records with the scopes of their partitions. -/
def records : List (NotificationScope × NotificationRecord) :=
  file.partitions.flatMap fun partition => partition.items.map fun record => (partition.scope, record)

/-- The record of an id: the last one, should there be several. -/
def recordOf (id : String) : Option (NotificationScope × NotificationRecord) :=
  file.records.reverse.find? fun sr => sr.2.id = id

/-- The source events the records were created for. -/
def creatingSources : List ((NotificationScope × String) × String) :=
  file.records.filterMap fun sr => sr.2.sourceEventId.map fun source => ((sr.1, source), sr.2.id)

/-- The loop of `validate_file` over the partitions. -/
def validPartitions : Bool :=
  (file.partitions.all fun partition =>
      partition.items.length ≤ 1000 && partition.scope.validate &&
        partition.items.all fun record => record.validate && record.scope = partition.scope) &&
    decide (file.partitions.map (·.scope)).Nodup && decide (file.records.map (·.2.id)).Nodup &&
    decide (file.creatingSources.map (·.1)).Nodup

/-- The loop over the index. -/
def validIndex : Bool :=
  (file.sourceEventIndex.all fun entry =>
      entry.scope.validate && (file.sourceEventIndex.filter (·.scope = entry.scope)).length ≤ 10000 &&
        isSafeNotificationSourceEventId entry.sourceEventId &&
        (file.recordOf entry.notificationId).any (·.1 = entry.scope) &&
        (!"client:".toList.isPrefixOf entry.sourceEventId.toList ||
          (clientNotificationSourceParts entry.sourceEventId).any fun parts =>
            (file.recordOf entry.notificationId).any fun sr =>
              sr.2.kind = parts.2.1 && sr.2.sourceEventId = some entry.sourceEventId) &&
        (file.creatingSources.lookup (entry.scope, entry.sourceEventId)).all (· = entry.notificationId)) &&
    decide (file.sourceEventIndex.map fun entry => (entry.scope, entry.sourceEventId)).Nodup

/-- `storage::notification_store::validate_file(file).is_ok()` -/
def validateFile : Bool :=
  file.schemaVersion = 1 && file.sourceEventIndex.length ≤ 50000 && file.validPartitions && file.validIndex

end NotificationFileV1

end EasiFlux
