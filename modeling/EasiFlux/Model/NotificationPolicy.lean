import EasiFlux.Lib.Results
import EasiFlux.Model.Capacity

/-!
# What is notified

The inputs of notifications that `services/notification/policy.rs` builds. A context has been
checked (`PolicyContext`), and an input is checked as a whole before it is used.
-/

namespace EasiFlux

open Results

structure NotificationInput where
  scope : NotificationScope
  category : NotificationCategory
  kind : NotificationKind
  severity : NotificationSeverity
  content : NotificationContent
  entity : Option NotificationEntity
  action : Option NotificationAction
  sourceEventId : Option String
  dedupeKey : String
  sessionEpoch : Option ℕ
  deriving DecidableEq, Repr

inductive NotificationEnvironment
  | production
  | development
  | unknown
  deriving DecidableEq, Repr

namespace NotificationError

def invalidContent (message : String) : NotificationError := ⟨"INVALID_NOTIFICATION_CONTENT", message⟩

def invalidScope : NotificationError := ⟨"INVALID_NOTIFICATION_SCOPE", "通知账户范围无效"⟩

end NotificationError

/-! ## Inputs -/

namespace NotificationInput

variable (input : NotificationInput)

/-- The record that is created for the input. -/
def newRecord (id : String) (nowMs : ℕ) : NotificationRecord where
  id := id
  scope := input.scope
  category := input.category
  kind := input.kind
  severity := input.severity
  content := input.content
  entity := input.entity
  action := input.action
  sourceEventId := input.sourceEventId
  dedupeKey := input.dedupeKey
  occurrenceCount := 1
  createdAtMs := nowMs
  updatedAtMs := nowMs
  readAtMs := none

/-- `validate_exact_task5_shape`: that of a record, and the kinds it is about need a session epoch. -/
def exactShape : Bool :=
  (input.newRecord "" 0).exactShape &&
    (input.sessionEpoch.isSome ||
      !([.orderFilled, .orderCanceled, .orderRejected, .riskOrderBlocked, .accountRecoveryFailed, .accountReconciliationFailed] :
          List NotificationKind).contains input.kind)

def validate : Bool :=
  input.scope.validate && input.content.validate && input.entity.all NotificationEntity.validate &&
    input.action.all NotificationAction.validate && input.sourceEventId.all isSafeNotificationSourceEventId &&
    isSafeNotificationDedupeKey input.dedupeKey && input.exactShape

/-- `source_key` -/
def sourceKey : Option (NotificationScope × String) := input.sourceEventId.map fun source => (input.scope, source)

end NotificationInput

def validatePublishInput (input : NotificationInput) : Except NotificationError Unit := do
  ensure input.validate (.invalidContent "通知输入无效")
  ensure (input.sessionEpoch.all isSafeTimestamp) (.invalidContent "通知会话代次无效")

/-! ## Contexts -/

structure PolicyContext where
  accountId : String
  sessionEpoch : ℕ
  sourceEventId : String
  account : isAccountId accountId = true
  epoch : isSafeTimestamp sessionEpoch = true
  source : isSafeNotificationSourceEventId sourceEventId = true

/-- `PolicyContext::new` -/
def PolicyContext.new (accountId : String) (sessionEpoch : ℕ) (sourceEventId : String) : Except NotificationError PolicyContext :=
  if haccount : isAccountId accountId then
    if hsource : isSafeTimestamp sessionEpoch && isSafeNotificationSourceEventId sourceEventId then
      have hparts := Bool.and_eq_true_iff.1 hsource
      .ok ⟨accountId, sessionEpoch, sourceEventId, haccount, hparts.1, hparts.2⟩
    else .error (.invalidContent "通知来源标识无效")
  else .error .invalidScope

def validatePolicyIdentifier (value message : String) : Except NotificationError Unit :=
  ensure (!value.toList.contains ':' && isSafeNotificationSourceEventId value) (.invalidContent message)

/-- `controlled_input`, with the content that `NotificationContent::new` checks. -/
def controlledInput (context : PolicyContext) (category : NotificationCategory) (kind : NotificationKind)
    (severity : NotificationSeverity) (content : NotificationContent) (entity : Option NotificationEntity)
    (action : Option NotificationAction) (dedupeKey : String) : Except NotificationError NotificationInput := do
  ensure content.validate (.invalidContent "通知内容无效")
  let input : NotificationInput :=
    { scope := .account context.accountId
      category := category
      kind := kind
      severity := severity
      content := content
      entity := entity
      action := action
      sourceEventId := some context.sourceEventId
      dedupeKey := dedupeKey
      sessionEpoch := some context.sessionEpoch }
  ensure input.validate (.invalidContent "通知输入无效")
  return input

/-! ## The inputs of the policy -/

namespace NotificationPolicy

variable (context : PolicyContext)

def orderTerminal (orderId : String) (kind : NotificationKind) (severity : NotificationSeverity)
    (messageKey title body suffix : String) : Except NotificationError NotificationInput :=
  controlledInput context .trading kind severity ⟨messageKey, [("orderId", .string orderId)], title, body⟩
    (some ⟨.order, orderId⟩) (some (.openTrading (some orderId))) s!"order:{orderId}:{suffix}"

def orderFilled (orderId : String) : Except NotificationError NotificationInput :=
  orderTerminal context orderId .orderFilled .success "order.filled" "订单已成交" "订单已完全成交，请前往交易页查看。" "filled"

def orderCanceled (orderId : String) : Except NotificationError NotificationInput :=
  orderTerminal context orderId .orderCanceled .info "order.canceled" "订单已取消" "订单已取消，请前往交易页查看。" "canceled"

def orderRejected (orderId submissionId : Option String) : Except NotificationError NotificationInput := do
  let (param, identity) ←
    match orderId with
    | some orderId => pure (("orderId", NotificationScalar.string orderId), orderId)
    | none => do
      let submissionId ← okOr submissionId (.invalidContent "订单提交标识无效")
      validatePolicyIdentifier submissionId "订单提交标识无效"
      pure (("submissionId", NotificationScalar.string submissionId), submissionId)
  controlledInput context .trading .orderRejected .error
    ⟨"order.rejected", [param], "订单被拒绝", "订单请求被交易端拒绝，请检查订单参数。"⟩
    (orderId.map fun id => ⟨.order, id⟩) (some (.openTrading orderId)) s!"order:{identity}:rejected"

/-- The code is given by its name. -/
def riskOrderBlocked (code : String) (limit : Option ℚ) : Except NotificationError NotificationInput :=
  let params := (limit.map fun limit => ("limit", NotificationScalar.number limit)).toList ++
    [("violationCode", NotificationScalar.string code)]
  controlledInput context .riskAccount .riskOrderBlocked .warning
    ⟨"risk.orderBlocked", params, "订单被风控拦截", "请检查风控设置"⟩ none (some (.openAccountSettings .risk))
    s!"risk:{context.sourceEventId}:{code}"

def sessionExpired : Except NotificationError NotificationInput :=
  controlledInput context .riskAccount .accountSessionExpired .warning
    ⟨"account.sessionExpired", [("accountId", .string context.accountId)], "账户会话已失效", "请检查账户 API 设置。"⟩
    (some ⟨.account, context.accountId⟩) (some (.openAccountSettings .api)) context.sourceEventId

def channelName : NotificationChannel → String
  | .api => "api"
  | .websocket => "websocket"

def environmentName : NotificationEnvironment → String
  | .production => "production"
  | .development => "development"
  | .unknown => "unknown"

def connectionEdge (channel : NotificationChannel) (incidentId : String) (recovered : Bool) :
    Except NotificationError NotificationInput := do
  validatePolicyIdentifier incidentId "连接故障标识无效"
  let params := [("channel", NotificationScalar.string (channelName channel))]
  let entity : NotificationEntity := ⟨.connection, channelName channel⟩
  if recovered then
    controlledInput context .connectionSystem .connectionRecovered .success
      ⟨"connection.recovered", params, "连接已恢复", "交易连接已恢复。"⟩ (some entity) none
      s!"connection:{channelName channel}:{incidentId}:recovered"
  else
    controlledInput context .connectionSystem .connectionUnavailable .error
      ⟨"connection.unavailable", params, "连接不可用", "交易连接暂时不可用，请检查网络或稍后重试。"⟩ (some entity) none
      s!"connection:{channelName channel}:{incidentId}:unavailable"

def environmentEdge (environment : NotificationEnvironment) (environmentKey incidentId : String) (recovered : Bool) :
    Except NotificationError NotificationInput := do
  validatePolicyIdentifier incidentId "环境故障标识无效"
  validatePolicyIdentifier environmentKey "环境标识无效"
  let params := [("environment", NotificationScalar.string (environmentName environment))]
  let entity : NotificationEntity := ⟨.environment, environmentKey⟩
  if recovered then
    controlledInput context .connectionSystem .environmentRecovered .success
      ⟨"environment.recovered", params, "环境已恢复", "当前交易环境已恢复。"⟩ (some entity) none
      s!"environment:{environmentKey}:{incidentId}:recovered"
  else
    controlledInput context .connectionSystem .environmentUnavailable .error
      ⟨"environment.unavailable", params, "环境不可达", "当前交易环境暂时不可达，请稍后重试。"⟩ (some entity) none
      s!"environment:{environmentKey}:{incidentId}:unavailable"

end NotificationPolicy

end EasiFlux
