import EasiFlux.Model.Strategy

/-!
# What a pass does to its run

The parts of `plugin/strategy/execution.rs` that read and write one record:
`validate_action`, the commit of an action as the run's pending one, the calls of
the host it becomes, and `account_response`. Where a lock section fails, its record
is dropped, so each is a function to a record or an error.
-/

namespace EasiFlux

open Fixed Results

/-- The sections of a `Snapshot` that the strategy code reads. -/
structure Snapshot where
  orders : Option (List Order)
  /-- the last and the mark price -/
  market : Option (String × String)
  deriving DecidableEq, Repr

inductive StrategyMutationResponse
  | order (order : Order)
  | acknowledgement (ack : OrderAcknowledgement)
  deriving DecidableEq, Repr

/-! ## Checking a guest's action -/

section Validate

variable (K : Crates) (r : RunRecord)

/-- `from_str_exact(total)?.checked_add(qty)?` -/
def addTotal (total : String) (qty : Decimal) : AppResult Decimal := do
  let old ← okOr (Decimal.ofString total) (strategyError "plugin_strategy_limit_reached")
  okOr (K.checkedAdd old qty) (strategyError "plugin_strategy_limit_reached")

/-- The quantity limits of a run on an action of quantity `qty` that makes the total
`total`. -/
def withinLimits (qty total : Decimal) (failure : AppError) : AppResult Unit := do
  let maxOrderQty ← quantity r.view.policy.maxOrderQty
  let maxTotalQty ← quantity r.view.policy.maxTotalQty
  ensure (qty ≤ maxOrderQty ∧ total ≤ maxTotalQty) failure

/-- `WorkflowOutput::validate` on a placement. -/
def validateProposal (order : PlaceProposal) : AppResult PlaceProposal :=
  (validatePlace r.view.symbol r.view.capabilities order).mapError
    fun _ => strategyError "plugin_strategy_invalid_output"

def validatePlaceOrder (order : PlaceProposal) : AppResult StrategyAction := do
  let order ← validateProposal r order
  let qty ← quantity order.qty
  let total ← addTotal K r.view.totalSubmittedQty qty
  withinLimits r qty total (strategyError "plugin_strategy_limit_reached")
  ensure (r.view.policy.reduceOnly → order.reduceOnly) (strategyError "plugin_strategy_limit_reached")
  pure (.placeOrder order)

def validateCancelOrder (order : CancelProposal) (snapshot : Snapshot) : AppResult StrategyAction := do
  ensure (∃ o ∈ r.owned.lookup order.orderId, !o.cancelRequested) (strategyError "plugin_strategy_invalid_output")
  let order ← (validateCancel r.view.symbol r.view.capabilities snapshot.orders order).mapError
    fun _ => strategyError "plugin_strategy_invalid_output"
  pure (.cancelOrder order)

/-- The price a protection is checked against. -/
def referencePrice (protection : OrderProtection) (market : String × String) : String :=
  if protection.triggerBy = "LastPrice" then market.1 else market.2

def validateProtectedOrder (order : PlaceProposal) (protection : OrderProtection) (snapshot : Snapshot) :
    AppResult StrategyAction := do
  ensure ("trade.protect" ∈ r.view.capabilities ∧ !r.view.policy.reduceOnly ∧ !order.reduceOnly)
    (strategyError "plugin_strategy_invalid_output")
  let order ← validateProposal r order
  let market ← okOr snapshot.market (strategyError "plugin_strategy_invalid_output")
  let protection ← protection.validate order.side order.price (referencePrice protection market)
  let qty ← quantity order.qty
  let total ← addTotal K r.view.totalSubmittedQty qty
  withinLimits r qty total (strategyError "plugin_strategy_limit_reached")
  pure (.placeProtectedOrder order protection)

/-- The order of the snapshot that an amendment changes: listed once, still open, and
the one placed. -/
def amendTarget (original : PlaceOrderRequest) (orderId : String) (snapshot : Snapshot) : AppResult Order := do
  let orders ← okOr snapshot.orders (strategyError "plugin_strategy_invalid_output")
  match orders.filter (·.orderId = orderId) with
  | [target] => do
    ensure (target.orderLinkId = original.orderLinkId ∧ target.side = original.side ∧ target.orderType = "Limit" ∧
        (target.status = .new ∨ target.status = .partiallyFilled))
      (strategyError "plugin_strategy_invalid_output")
    pure target
  | _ => .error (strategyError "plugin_strategy_invalid_output")

/-- An amendment takes something off, keeps what is filled, and changes something. -/
def amendChange (target : Order) (qty : Decimal) (price : String) : AppResult Bool := do
  let currentQty ← quantity target.qty
  let filled ← okOr (Decimal.ofString target.filledQty) (strategyError "plugin_strategy_invalid_output")
  let price ← quantity price
  let currentPrice ← quantity target.price
  pure (qty ≤ currentQty && filled < qty && !(qty.same currentQty && price.same currentPrice))

def validateAmendOrder (order : AmendProposal) (snapshot : Snapshot) : AppResult StrategyAction := do
  ensure ("trade.amend" ∈ r.view.capabilities) (strategyError "plugin_strategy_invalid_output")
  let order ← order.validate r.view.symbol
  let original ← okOr (amendable r order.orderId) (strategyError "plugin_strategy_invalid_output")
  ensure (original.orderType = "Limit" ∧ validateAmendEntry original order.price)
    (strategyError "plugin_strategy_invalid_output")
  let target ← amendTarget original order.orderId snapshot
  let qty ← quantity order.qty
  let change ← amendChange target qty order.price
  let total ← addTotal K r.view.totalSubmittedQty qty
  ensure change (strategyError "plugin_strategy_invalid_output")
  withinLimits r qty total (strategyError "plugin_strategy_invalid_output")
  pure (.amendOrder order)

/-- The arms of `validate_action` for a mutation. -/
def validateMutation (action : StrategyAction) (snapshot : Snapshot) : AppResult StrategyAction :=
  match action with
  | .none | .stop => .ok action
  | .placeOrder order => validatePlaceOrder K r order
  | .cancelOrder order => validateCancelOrder r order snapshot
  | .placeProtectedOrder order protection => validateProtectedOrder K r order protection snapshot
  | .amendOrder order => validateAmendOrder K r order snapshot

def validateAction (action : StrategyAction) (snapshot : Snapshot) : AppResult StrategyAction :=
  if action = .none ∨ action = .stop then .ok action
  else do
    ensure (r.view.actionsSubmitted < r.view.policy.maxActions) (strategyError "plugin_strategy_limit_reached")
    validateMutation K r action snapshot

end Validate

/-! ## Committing an action -/

section Commit

variable (K : Crates)

/-- The quantity an action adds to the total. -/
def StrategyAction.qty : StrategyAction → Option String
  | .placeOrder order | .placeProtectedOrder order _ => some order.qty
  | .amendOrder order => some order.qty
  | .none | .stop | .cancelOrder _ => Option.none

/-- Whether the action is a placement, which gets a submission id. -/
def StrategyAction.isPlacement : StrategyAction → Bool
  | .placeOrder _ | .placeProtectedOrder _ _ => true
  | _ => false

/-- `total_submitted_qty` with the action. -/
def submittedTotal (total : String) (action : StrategyAction) : AppResult String :=
  match action.qty with
  | none => .ok total
  | some qty => do
    let qty ← quantity qty
    let total ← addTotal K total qty
    pure total.normalize.toString

/-- The orders a run owns once the action is pending. -/
def submittedOwned (owned : AList fun _ : String => OwnedOrder) (action : StrategyAction) :
    AppResult (AList fun _ : String => OwnedOrder) :=
  match action with
  | .cancelOrder order => do
    let o ← okOr (owned.lookup order.orderId) (strategyError "plugin_strategy_invalid_output")
    pure (owned.replace order.orderId { o with cancelRequested := true })
  | _ => .ok owned

/-- The record a pass goes on with: its sequence, and the time of the commit. -/
def RunRecord.advance (r : RunRecord) (sequence now : ℕ) : RunRecord :=
  { r with view := { r.view with sequence := sequence }, lastObservedAtMs := now }

/-- The commit of an output without a mutation. -/
def RunRecord.rest (r : RunRecord) (output : StrategyOutput) : RunRecord :=
  { r with state := output.state, view := { r.view with lastMessage := output.message } }

/-- The pending action of a pass; `id` is the uuid minted for a placement. -/
def pendingOf (action : StrategyAction) (output : StrategyOutput) (sequence : ℕ) (id : String) : PendingAction where
  sequence := sequence
  action := action
  submissionId := if action.isPlacement then some id else none
  state := output.state
  message := output.message

/-- The commit section on the record of a mutation. -/
def commitMutation (r : RunRecord) (action : StrategyAction) (pending : PendingAction) : AppResult RunRecord := do
  ensure (r.view.actionsSubmitted + 1 < 2 ^ 32) (strategyError "plugin_strategy_limit_reached")
  let total ← submittedTotal K r.view.totalSubmittedQty action
  let owned ← submittedOwned r.owned action
  pure
    { r with
      view := { r.view with actionsSubmitted := r.view.actionsSubmitted + 1, totalSubmittedQty := total }
      owned := owned
      pending := some pending }

end Commit

/-! ## Calling the host -/

structure SubmissionContext where
  submissionId : String
  accountId : String
  sessionEpoch : ℕ
  deriving DecidableEq, Repr

structure SessionContext where
  accountId : String
  sessionEpoch : ℕ
  deriving DecidableEq, Repr

structure CancelOrderRequest where
  symbol : String
  orderId : Option String
  orderLinkId : Option String
  deriving DecidableEq, Repr

/-- A call of one of the three mutation functions of the host. -/
inductive HostCall
  | strategyPlaceLocked (context : SubmissionContext) (request : PlaceOrderRequest)
  | strategyCancelLocked (context : SessionContext) (request : CancelOrderRequest)
  | strategyAmendLocked (context : SessionContext) (request : AmendProposal) (original : PlaceOrderRequest)
  deriving DecidableEq, Repr

/-- The call a pending action is handed to the host as, from the record the pass
copied. -/
def hostCall (account : Account) (record : RunRecord) (p : PendingAction) : AppResult HostCall := do
  let epoch ← counter account.sessionEpoch
  match p.action with
  | .placeOrder order => do
    let id ← okOr p.submissionId (strategyError "plugin_strategy_unavailable")
    pure (.strategyPlaceLocked ⟨id, account.accountId, epoch⟩ (placement order id))
  | .placeProtectedOrder order protection => do
    let id ← okOr p.submissionId (strategyError "plugin_strategy_unavailable")
    pure (.strategyPlaceLocked ⟨id, account.accountId, epoch⟩ { placement order id with protection := some protection })
  | .amendOrder order => do
    let original ← okOr ((record.owned.lookup order.orderId).bind (·.placement))
      (strategyError "plugin_strategy_invalid_output")
    pure (.strategyAmendLocked ⟨account.accountId, epoch⟩ order original)
  | .cancelOrder order =>
    pure (.strategyCancelLocked ⟨account.accountId, epoch⟩ ⟨order.symbol, some order.orderId, none⟩)
  | .none | .stop => .error (strategyError "plugin_strategy_unavailable")

/-! ## Accounting for a response -/

/-- `quantity(a).ok() == quantity(b).ok()`; quantities are compared by value. -/
def sameQuantity (a b : String) : Bool :=
  match quantity a, quantity b with
  | .ok x, .ok y => x.same y
  | .error _, .error _ => true
  | _, _ => false

/-- `a.parse().ok() == b.parse().ok()` on a price that has been checked; both are exact
numerals then. -/
def samePrice (a : String) (b : Option String) : Bool :=
  match Decimal.ofString a, b.bind Decimal.ofString with
  | some x, some y => x.same y
  | none, none => true
  | _, _ => false

def matchesPlacement (p : PendingAction) (order : PlaceProposal) (o : Order) : Bool :=
  (validateOrder o order.symbol).toOption.isSome && o.orderLinkId = p.submissionId && o.side = order.side &&
    o.orderType = order.orderType && sameQuantity o.qty order.qty &&
    (order.orderType ≠ "Limit" || samePrice o.price order.price)

def matchesResponse (p : PendingAction) (o : Order) : Bool :=
  match p.action with
  | .placeOrder order | .placeProtectedOrder order _ => matchesPlacement p order o
  | .cancelOrder order => o.symbol = order.symbol && o.orderId = order.orderId && boundedId o.orderId
  | .amendOrder order => o.symbol = order.symbol && o.orderId = order.orderId && p.submissionId.isNone &&
      boundedId o.orderId && sameQuantity o.price order.price && sameQuantity o.qty order.qty
  | .none | .stop => false

def knownRejection (failure : AppError) : Bool :=
  failure.isCertainSubmissionFailure ||
    match failure with
    | .orderSubmissionRejected _ | .orderSubmissionBlocked _ | .risk _ => true
    | .notified code _ _ _ => code == "RISK_ORDER_BLOCKED" || code == "ORDER_REJECTED"
    | _ => false

/-- Whether an acknowledgement is of the amendment that is pending. -/
def matchesAcknowledgement (r : RunRecord) (p : PendingAction) (ack : OrderAcknowledgement) : Bool :=
  match p.action with
  | .amendOrder order => ack.orderId = order.orderId &&
      ack.orderLinkId.all fun link => ((r.owned.lookup order.orderId).bind (·.placement)).bind (·.orderLinkId) = some link
  | _ => false

/-- What a response says: the receipt status, the accepted order and its id. -/
def classify (r : RunRecord) (p : PendingAction) :
    AppResult StrategyMutationResponse → ReceiptStatus × Option Order × Option String
  | .ok (.order order) =>
    if matchesResponse p order then (.accepted, some order, some order.orderId) else (.unknown, none, none)
  | .ok (.acknowledgement ack) =>
    if matchesAcknowledgement r p ack then (.accepted, none, some ack.orderId) else (.unknown, none, none)
  | .error failure => if knownRejection failure then (.rejected, none, none) else (.unknown, none, none)

/-- The order id of a receipt when the response has none. -/
def StrategyAction.orderId : StrategyAction → Option String
  | .cancelOrder order => some order.orderId
  | .amendOrder order => some order.orderId
  | _ => Option.none

/-- The placement kept with an owned order. -/
def StrategyAction.placement (action : StrategyAction) (submissionId : String) : Option PlaceOrderRequest :=
  match action with
  | .placeOrder order => some (canonicalPlacement order submissionId Option.none)
  | .placeProtectedOrder order protection => some (canonicalPlacement order submissionId (some protection))
  | _ => Option.none

/-- The receipt of a response. The source reaches no receipt for `None` and `Stop`,
which are never pending. -/
def receiptOf (p : PendingAction) (status : ReceiptStatus) (acceptedId : Option String) : Option StrategyReceipt :=
  p.action.receiptKind.map fun (kind, _) =>
    { sequence := p.sequence, kind := kind, status := status, submissionId := p.submissionId,
      orderId := acceptedId <|> p.action.orderId, errorCode := status.errorCode }

/-- The owned orders after an accepted placement; an order id owned for another
submission is an error. -/
def acceptedOwned (owned : AList fun _ : String => OwnedOrder) (p : PendingAction) (accepted : Option Order) :
    AppResult (AList fun _ : String => OwnedOrder) :=
  match accepted, p.submissionId with
  | some order, some submissionId => do
    ensure (∀ o ∈ owned.lookup order.orderId, o.submissionId = submissionId)
      (strategyError "plugin_strategy_recovery_required")
    pure (owned.insert order.orderId
      { submissionId := submissionId, cancelRequested := false, placement := p.action.placement submissionId })
  | _, _ => .ok owned

/-- Whether a placement still has to be acknowledged before it is resolved. -/
def StrategyReceipt.resolves (receipt : StrategyReceipt) : Bool :=
  receipt.status = .rejected || receipt.kind = .cancelOrder || receipt.kind = .amendOrder

/-- The record with the receipt of a response. -/
def RunRecord.receive (r : RunRecord) (p : PendingAction) (receipt : StrategyReceipt)
    (owned : AList fun _ : String => OwnedOrder) : RunRecord :=
  { r with
    view := { r.view with
      lastReceipt := some receipt
      lastMessage := p.message
      status := if receipt.status = .unknown then .recoveryRequired else r.view.status
      reason := if receipt.status = .unknown then some "plugin_strategy_recovery_required" else r.view.reason }
    state := p.state
    owned := owned
    pending := if receipt.status ≠ .unknown ∧ receipt.resolves then none else r.pending }

/-- The first lock section of `account_response` on the record it finds: the record
it saves, and the order to acknowledge afterwards. -/
def respondRecord (r : RunRecord) (p : PendingAction) (response : AppResult StrategyMutationResponse) :
    AppResult (RunRecord × Option Order) := do
  ensure (r.pending = some p) (strategyError "plugin_strategy_stale")
  let answer := classify r p response
  let receipt ← okOr (receiptOf p answer.1 answer.2.2) (strategyError "plugin_strategy_unavailable")
  let owned ← acceptedOwned r.owned p answer.2.1
  pure (r.receive p receipt owned, if p.action.isPlacement ∧ p.submissionId.isSome then answer.2.1 else none)

/-- The second section: the pending placement is resolved. -/
def clearRecord (r : RunRecord) (p : PendingAction) : AppResult RunRecord := do
  ensure (r.pending = some p) (strategyError "plugin_strategy_stale")
  pure { r with pending := none }

end EasiFlux
