import Mathlib.Data.List.AList
import EasiFlux.Model.SafeDocument
import EasiFlux.Model.Submit

/-!
# The strategy document

The data of `plugin/strategy/types.rs`, `store.rs` and `management.rs`, and the
check `StrategyDocument::validate` that the store makes of every document it reads
or writes. The callers of a check only see whether it failed, so checks are
Booleans.

Counters that the source keeps as canonical decimal strings (revision, sequence,
times) are their values here, checked to be below `2 ^ 64`; a document whose
numeral is not canonical fails the check before anything reads it. A JSON value is
its text.
-/

namespace EasiFlux

open Fixed Results

structure AmendProposal where
  symbol : String
  orderId : String
  price : String
  qty : String
  deriving DecidableEq, Repr

structure StrategyPolicy where
  intervalMs : ℕ
  maxOrderQty : String
  maxTotalQty : String
  maxActions : ℕ
  maxRunSeconds : ℕ
  reduceOnly : Bool
  deriving DecidableEq, Repr

inductive StrategyStatus
  | running
  | paused
  | stopping
  | stopped
  | recoveryRequired
  | faulted
  | completed
  deriving DecidableEq, Repr

inductive ReceiptKind
  | placeOrder
  | cancelOrder
  | amendOrder
  | placeProtectedOrder
  deriving DecidableEq, Repr

inductive ReceiptStatus
  | accepted
  | rejected
  | unknown
  deriving DecidableEq, Repr

inductive StrategyAction
  | none
  | stop
  | placeOrder (order : PlaceProposal)
  | cancelOrder (order : CancelProposal)
  | amendOrder (order : AmendProposal)
  | placeProtectedOrder (order : PlaceProposal) (protection : OrderProtection)
  deriving DecidableEq, Repr

structure StrategyReceipt where
  sequence : ℕ
  kind : ReceiptKind
  status : ReceiptStatus
  submissionId : Option String
  orderId : Option String
  errorCode : Option String
  deriving DecidableEq, Repr

structure StrategyRunView where
  schemaVersion : ℕ
  runId : String
  requestId : String
  pluginId : String
  contributionId : String
  account : Account
  symbol : String
  status : StrategyStatus
  reason : Option String
  policy : StrategyPolicy
  capabilities : List String
  inputJson : String
  startedAtMs : ℕ
  expiresAtMs : ℕ
  sequence : ℕ
  actionsSubmitted : ℕ
  totalSubmittedQty : String
  lastMessage : String
  lastReceipt : Option StrategyReceipt
  deriving DecidableEq, Repr

structure OwnedOrder where
  submissionId : String
  cancelRequested : Bool
  placement : Option PlaceOrderRequest
  deriving DecidableEq, Repr

structure PendingAction where
  sequence : ℕ
  action : StrategyAction
  submissionId : Option String
  /-- a `Value`, as `serde_json` writes it -/
  state : String
  message : String
  deriving DecidableEq, Repr

structure RunRecord where
  view : StrategyRunView
  fingerprint : String
  scope : String
  /-- a `Value`, as `serde_json` writes it -/
  state : String
  /-- by exchange order id -/
  owned : AList fun _ : String => OwnedOrder
  pending : Option PendingAction
  lastObservedAtMs : ℕ
  deriving DecidableEq

structure StrategyDocument where
  schemaVersion : ℕ
  revision : ℕ
  runs : List RunRecord
  deriving DecidableEq

def StrategyDocument.default : StrategyDocument := ⟨1, 0, []⟩

structure StrategyOutput where
  state : String
  action : StrategyAction
  message : String
  deriving DecidableEq, Repr

/-! ## Checks -/

/-- `types::REASONS` -/
def reasons : List String :=
  ["plugin_strategy_paused", "plugin_strategy_stopped", "plugin_strategy_restarted", "plugin_strategy_expired",
    "plugin_strategy_limit_reached", "plugin_strategy_stale", "plugin_strategy_data_unavailable",
    "plugin_strategy_compute_failed", "plugin_strategy_invalid_output", "plugin_strategy_recovery_required",
    "plugin_strategy_storage_unavailable", "plugin_strategy_ack_failed", "plugin_strategy_unavailable"]

def quantity (value : String) : AppResult Decimal :=
  match decimal value true, Decimal.ofString value with
  | .ok _, some d => .ok d
  | _, _ => .error (strategyError "plugin_strategy_invalid_request")

/-- `quantity(a)? <= quantity(b)?` -/
def quantityLe (a b : String) : Bool :=
  match quantity a, quantity b with
  | .ok x, .ok y => decide (x ≤ y)
  | _, _ => false

/-- `quantity(a)? <= Decimal::from_str_exact(total)?` -/
def quantityLeTotal (a total : String) : Bool :=
  match quantity a, Decimal.ofString total with
  | .ok x, some y => decide (x ≤ y)
  | _, _ => false

def isHex (c : Char) : Bool := c.isDigit || ('a' ≤ c && c ≤ 'f') || ('A' ≤ c && c ≤ 'F')

/-- `PluginId::parse(value).is_ok()`: at least two dot-separated labels. -/
def reverseDomain (value : String) : Bool :=
  let segments := value.toList.splitOn '.'
  byteLen value ≤ 128 && 2 ≤ segments.length && segments.all fun s =>
    s ≠ [] && s.length ≤ 63 && s.all (fun c => ('a' ≤ c && c ≤ 'z') || c.isDigit || c == '-') &&
      s.head? ≠ some '-' && s.getLast? ≠ some '-'

/-- `workflow::CAPABILITIES` with the three a strategy may have besides. -/
def strategyCapabilities : List String :=
  ["account.read", "balances.read", "positions.read", "orders.read", "market.read", "trade.place", "trade.cancel",
    "strategy.run", "trade.amend", "trade.protect"]

/-- `contract::validate_capabilities` -/
def validateCapabilities (values : List String) : Bool :=
  values.all (strategyCapabilities.contains ·) && values.Nodup && values.contains "account.read" &&
    values.contains "strategy.run"

def validateManagementDependencies (values : List String) : Bool :=
  (!values.contains "trade.amend" ||
      (values.contains "trade.place" && values.contains "orders.read" && values.contains "market.read")) &&
    (!values.contains "trade.protect" || (values.contains "trade.place" && values.contains "market.read"))

def StrategyPolicy.validate (p : StrategyPolicy) : Bool :=
  5000 ≤ p.intervalMs && p.intervalMs ≤ 60000 && 60 ≤ p.maxRunSeconds && p.maxRunSeconds ≤ 86400 &&
    1 ≤ p.maxActions && p.maxActions ≤ 1000 && quantityLe p.maxOrderQty p.maxTotalQty

section Crates

variable (K : Crates)

/-- `workflow::validate_input` -/
def validateInput (value : String) : Bool := byteLen value ≤ 4096 && K.jsonObject value

def validateState (state : String) : Bool := K.jsonObject state && byteLen state ≤ 4096

def StrategyOutput.validate (o : StrategyOutput) : Bool := validateState K o.state && byteLen o.message ≤ 2000

/-- The error code a receipt of this status carries. -/
def ReceiptStatus.errorCode : ReceiptStatus → Option String
  | .accepted => none
  | .rejected => some "plugin_strategy_rejected"
  | .unknown => some "plugin_strategy_unknown"

def StrategyReceipt.validate (receipt : StrategyReceipt) (sequence : ℕ) : Bool :=
  receipt.sequence ≤ sequence && receipt.errorCode = receipt.status.errorCode &&
    receipt.orderId.all boundedId && receipt.submissionId.all K.uuid &&
    (receipt.kind = .placeOrder || receipt.kind = .placeProtectedOrder) == receipt.submissionId.isSome &&
    !(receipt.kind = .amendOrder && receipt.orderId.isNone) &&
    !(receipt.status = .accepted && receipt.orderId.isNone)

/-- The checks of a view on the account it trades. -/
def Account.validate (a : Account) : Bool :=
  boundedId a.accountId && (counter a.sessionEpoch).toOption.isSome && a.environment ≠ "" &&
    byteLen a.environment ≤ 256 && !a.environment.toList.any isControl

/-- `0 <= total && total <= quantity(max_total_qty)?`, on a total that reads back. -/
def validateTotal (total maxTotalQty : String) : Bool :=
  match decimal total false, quantity maxTotalQty with
  | .ok text, .ok limit =>
    match Decimal.ofString text with
    | some t => decide (0 ≤ t) && decide (t ≤ limit)
    | none => false
  | _, _ => false

def StrategyRunView.validate (v : StrategyRunView) : Bool :=
  v.policy.validate && validateCapabilities v.capabilities && validateManagementDependencies v.capabilities &&
    (EasiFlux.symbol v.symbol).toOption.isSome && validateInput K v.inputJson && reverseDomain v.pluginId &&
    reverseDomain v.contributionId && K.uuid v.runId && K.uuid v.requestId && v.startedAtMs < 2 ^ 64 &&
    v.expiresAtMs < 2 ^ 64 && v.sequence < 2 ^ 64 && v.schemaVersion = 1 && v.account.validate &&
    v.expiresAtMs = v.startedAtMs + v.policy.maxRunSeconds * 1000 && v.actionsSubmitted ≤ v.policy.maxActions &&
    v.actionsSubmitted ≤ v.sequence && validateTotal v.totalSubmittedQty v.policy.maxTotalQty &&
    byteLen v.lastMessage ≤ 2000 && v.reason.all (reasons.contains ·) &&
    v.lastReceipt.all fun receipt => receipt.validate K v.sequence

/-! ## Orders a run owns -/

/-- `AmendProposal::validate` -/
def AmendProposal.validate (order : AmendProposal) (symbol : String) : AppResult AmendProposal := do
  ensure (order.symbol = symbol ∧ boundedId order.orderId) (strategyError "plugin_strategy_invalid_output")
  let price ← decimal order.price true
  let qty ← decimal order.qty true
  pure { order with price := price, qty := qty }

/-- Whether an exit at `leg` lies on its side of `entry`: above for the profit of a
buy and the loss of a sell. -/
def exitBeyond (side : String) (take : Bool) (leg entry : Decimal) : Bool :=
  if decide (side = "Buy") == take then decide (entry < leg) else decide (leg < entry)

def validateAmendEntry (original : PlaceOrderRequest) (price : String) : Bool :=
  match original.protection with
  | none => true
  | some protection =>
    protection.validateShape &&
      match Decimal.ofString price with
      | none => false
      | some entry => [(protection.takeProfit, true), (protection.stopLoss, false)].all fun (leg, take) =>
          leg.all fun leg => match Decimal.ofString leg with
            | some bound => exitBeyond original.side take bound entry
            | none => false

/-- One leg of `OrderProtection::validate`: its canonical numeral. -/
def validateLeg (side : String) (take : Bool) (reference : Decimal) (entry : Option Decimal) (leg : Option String) :
    AppResult (Option String) :=
  match leg with
  | none => .ok none
  | some raw => do
    let raw ← decimal raw true
    let n ← okOr (Decimal.ofString raw) (strategyError "plugin_strategy_invalid_output")
    ensure (exitBeyond side take n reference ∧ ∀ e ∈ entry, exitBeyond side take n e)
      (strategyError "plugin_strategy_invalid_output")
    pure (some raw)

/-- The value of an optional positive price. -/
def optionalPrice (price : Option String) : AppResult (Option Decimal) :=
  match price with
  | none => .ok none
  | some v => do
    let v ← decimal v true
    let d ← okOr (Decimal.ofString v) (strategyError "plugin_strategy_invalid_output")
    pure (some d)

/-- `OrderProtection::validate` -/
def OrderProtection.validate (p : OrderProtection) (side : String) (entry : Option String) (reference : String) :
    AppResult OrderProtection := do
  ensure p.validateShape (strategyError "plugin_strategy_invalid_output")
  let reference ← decimal reference true
  let reference ← okOr (Decimal.ofString reference) (strategyError "plugin_strategy_invalid_output")
  let entry ← optionalPrice entry
  let takeProfit ← validateLeg side true reference entry p.takeProfit
  let stopLoss ← validateLeg side false reference entry p.stopLoss
  pure { p with takeProfit := takeProfit, stopLoss := stopLoss }

/-- `execution::placement` -/
def placement (order : PlaceProposal) (id : String) : PlaceOrderRequest where
  symbol := order.symbol
  side := order.side
  orderType := order.orderType
  qty := order.qty
  positionIdx := order.positionIdx
  price := order.price
  timeInForce := some order.timeInForce
  orderLinkId := some id
  reduceOnly := some order.reduceOnly
  protection := none

/-- `execution::canonical_placement`; the times in force it cannot meet are kept. -/
def canonicalPlacement (order : PlaceProposal) (id : String) (protection : Option OrderProtection) :
    PlaceOrderRequest :=
  { placement order id with
    timeInForce := some ((exchangeTimeInForce order.timeInForce).toOption.getD order.timeInForce)
    protection := protection }

/-- The proposal a placement was made from. -/
def proposalOf (request : PlaceOrderRequest) (tif : String) (reduceOnly : Bool) : PlaceProposal where
  symbol := request.symbol
  side := request.side
  orderType := request.orderType
  qty := request.qty
  price := request.price
  timeInForce := tif
  positionIdx := request.positionIdx
  reduceOnly := reduceOnly

/-- The protection of a placement is in canonical form, and on the right side of a
limit price. -/
def canonicalProtection (request : PlaceOrderRequest) (protection : OrderProtection) : Bool :=
  request.reduceOnly = some false &&
    if request.orderType = "Limit" then
      match request.price with
      | some entry => (protection.validate request.side (some entry) entry).toOption = some protection
      | none => false
    else protection.validateShape

/-- `management::validate_canonical_placement` -/
def validateCanonicalPlacement (id : String) (request : PlaceOrderRequest) : Bool :=
  K.uuid id && request.orderLinkId = some id &&
    match wireTimeInForce request.timeInForce, request.reduceOnly with
    | some tif, some reduceOnly =>
      (match validatePlace request.symbol ["trade.place"] (proposalOf request tif reduceOnly) with
        | .ok order => order.qty = request.qty && order.price = request.price
        | .error _ => false) && request.protection.all (canonicalProtection request)
    | _, _ => false

/-- The checks of `StrategyDocument::validate` on one owned order. -/
def OwnedOrder.validate (view : StrategyRunView) (id : String) (o : OwnedOrder) : Bool :=
  boundedId id && K.uuid o.submissionId && o.placement.all fun p =>
    p.orderLinkId = some o.submissionId && p.symbol = view.symbol && view.capabilities.contains "trade.place" &&
      (p.protection.isNone || view.capabilities.contains "trade.protect") &&
      (!view.policy.reduceOnly || p.reduceOnly = some true) && validateCanonicalPlacement K o.submissionId p

/-! ## Pending actions -/

/-- The checks on a pending placement. -/
def validatePendingPlace (r : RunRecord) (p : PendingAction) (order : PlaceProposal) : Bool :=
  (validatePlace r.view.symbol r.view.capabilities order).toOption.isSome && p.submissionId.any K.uuid &&
    quantityLe order.qty r.view.policy.maxOrderQty && quantityLeTotal order.qty r.view.totalSubmittedQty &&
    !(r.view.policy.reduceOnly && !order.reduceOnly)

/-- The placement an amendment of `order` changes: owned, not cancelled, and known. -/
def amendable (r : RunRecord) (orderId : String) : Option PlaceOrderRequest :=
  match r.owned.lookup orderId with
  | some o => if o.cancelRequested then none else o.placement
  | none => none

def validatePendingAmend (r : RunRecord) (p : PendingAction) (order : AmendProposal) : Bool :=
  p.submissionId.isNone && r.view.capabilities.contains "trade.amend" &&
    (match amendable r order.orderId with
      | some v => v.symbol = order.symbol && v.orderType = "Limit" && validateAmendEntry v order.price
      | none => false) && order.symbol = r.view.symbol && quantityLe order.qty r.view.policy.maxOrderQty &&
    quantityLeTotal order.qty r.view.totalSubmittedQty && (order.validate r.view.symbol).toOption.isSome

/-- The checks of `StrategyDocument::validate` on a pending action. -/
def PendingAction.validate (r : RunRecord) (p : PendingAction) : Bool :=
  validateState K p.state && p.sequence = r.view.sequence && byteLen p.message ≤ 2000 &&
    r.view.actionsSubmitted ≠ 0 &&
    match p.action with
    | .placeOrder order => validatePendingPlace K r p order
    | .placeProtectedOrder order protection => validatePendingPlace K r p order &&
        r.view.capabilities.contains "trade.protect" && !order.reduceOnly && protection.validateShape
    | .cancelOrder order =>
      order.symbol = r.view.symbol && p.submissionId.isNone && (r.owned.lookup order.orderId).isSome
    | .amendOrder order => validatePendingAmend r p order
    | .none | .stop => false

/-- The receipt kind of a pending action and the order id it names. -/
def StrategyAction.receiptKind : StrategyAction → Option (ReceiptKind × Option String)
  | .placeOrder _ => some (.placeOrder, Option.none)
  | .placeProtectedOrder _ _ => some (.placeProtectedOrder, Option.none)
  | .cancelOrder order => some (.cancelOrder, some order.orderId)
  | .amendOrder order => some (.amendOrder, some order.orderId)
  | .none | .stop => Option.none

/-- An unknown receipt stands for the pending action: without it a restart could
admit trading instead of recovery. -/
def validateUnknown (r : RunRecord) (receipt : StrategyReceipt) : Bool :=
  receipt.status ≠ .unknown ||
    match r.pending with
    | none => false
    | some p => match p.action.receiptKind with
      | none => false
      | some (kind, orderId) => receipt.sequence = p.sequence && receipt.kind = kind &&
          receipt.submissionId = p.submissionId && receipt.orderId = orderId

/-- The checks of `StrategyDocument::validate` on one run. -/
def RunRecord.validate (r : RunRecord) : Bool :=
  r.view.validate K && r.lastObservedAtMs < 2 ^ 64 && r.view.startedAtMs ≤ r.lastObservedAtMs &&
    validateState K r.state && byteLen r.scope = 64 && r.scope.toList.all isHex && byteLen r.fingerprint = 74 &&
    r.fingerprint.toList.take 10 = "v1:sha256:".toList && (r.fingerprint.toList.drop 10).all isHex &&
    r.owned.entries.length ≤ r.view.actionsSubmitted &&
    (r.owned.entries.map fun e => e.2.submissionId).Nodup &&
    (r.owned.entries.all fun e => e.2.validate K r.view e.1) &&
    r.pending.all (PendingAction.validate K r) && r.view.lastReceipt.all (validateUnknown r)

def StrategyDocument.validate (doc : StrategyDocument) : Bool :=
  doc.schemaVersion = 1 && doc.runs.length ≤ 32 && doc.revision < 2 ^ 64 &&
    (doc.runs.map (·.view.runId)).Nodup && (doc.runs.map (·.view.requestId)).Nodup && doc.runs.all (RunRecord.validate K)

/-- The documents of `FileStrategyStore`. -/
def strategyVersions : Versioned StrategyDocument where
  revision := StrategyDocument.revision
  valid := StrategyDocument.validate K
  default := .default
  revision_default := rfl

end Crates

end EasiFlux
