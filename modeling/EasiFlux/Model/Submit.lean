import EasiFlux.Model.Journal

/-!
# The callers of the order journal

`services/order_submission.rs` and the recovery functions of
`plugin/workflow/production/strategy.rs` and `management.rs`. What comes from
outside (the answer of the submit closure, of a query of the exchange) is an
argument. The recovery functions ask the exchange through `query_exact`, which
returns an order or nothing; its answer is arbitrary here.

`Call` is one call on a scope and `Call.run` what it does; calls are serialized
by the account's mutation guard.
-/

namespace EasiFlux

open CrashIo Results OrderSubmissionStore

section Calls

variable (K : Crates) (C : RecordCodec) (scope : String)

/-- The order a successful response is recorded as: what the response leaves out
is taken from the request. -/
def completeOrder (id : String) (request : PlaceOrderRequest) (order : Order) : Order where
  orderId := order.orderId
  symbol := if order.symbol = "" then request.symbol else order.symbol
  side := if order.side = "" then request.side else order.side
  orderType := if order.orderType = "" then request.orderType else order.orderType
  price :=
    if request.orderType.toList.map Char.toLower = "limit".toList ∧ (order.price = "" ∨ K.parsesToZero order.price)
    then request.price.getD order.price else order.price
  qty := if order.qty = "" ∨ K.parsesToZero order.qty then request.qty else order.qty
  status := order.status
  orderLinkId := some id
  filledQty := order.filledQty
  avgPrice := order.avgPrice

/-- The answer of `submit_once` when the id has a record. -/
def replay (id : String) (request : PlaceOrderRequest) (record : StoredSubmission) : AppResult Order := do
  ensure (record.request = request) (.orderSubmissionRejected "同一提交标识不能用于不同订单")
  match record.outcome with
  | .accepted order => .ok order
  | .rejected => .error (.orderSubmissionRejected "原订单已确认未受理，请重新填写后提交")
  | .pending => .error (.orderSubmissionUnknown id)

/-- `before_submission` -/
def beforeSubmission {α : Type} (m : Journal α) : Journal α :=
  Io.mapErr (fun error => .orderSubmissionRejected error.userMessage) m

/-- `submit_once` after the closure answered. -/
def settle (id : String) (original : StoredSubmission) : Except AppError Order → Journal Order
  | .ok order =>
    if isBlank order.orderId ∨ ∃ link ∈ order.orderLinkId, link ≠ id then
      Io.throw (.orderSubmissionUnknown id)
    else do
      let order := completeOrder K id original.request order
      -- acceptance is known: a failed write keeps the pending intent for a later query
      Io.ignore (finish K C scope id (.accepted order))
      pure order
  | .error error =>
    if error.definitelyNotAccepted then do
      Io.mapErr (fun _ => .orderSubmissionUnknown id) (finish K C scope id .rejected)
      if error.isNotified then Io.throw error
      else Io.throw (.orderSubmissionRejected error.userMessage)
    else Io.throw (.orderSubmissionUnknown id)

def submitOnce (request : PlaceOrderRequest) (nowMs : ℕ) (submit : AppResult Order) : Journal Order := do
  let id ← Io.lift (okOr (request.orderLinkId.filter fun id => id ≠ "" ∧ byteLen id ≤ 36)
    (.orderSubmissionRejected "订单提交标识无效"))
  match ← beforeSubmission (get K C scope id) with
  | some record => Io.lift (replay id request record)
  | none => do
    let pending ← beforeSubmission (listPending K C scope)
    match pending.find? fun p => request.reduceOnly ≠ some true ∨ p.reduceOnly = some true with
    | some blocker => Io.throw (.orderSubmissionBlocked blocker.orderLinkId)
    | none => do
      let original ← beforeSubmission (begin K C scope request nowMs)
      let answer ← Io.attempt (invoke (fun files => ⟨request, files⟩) submit)
      settle K C scope id original answer

/-- `services::order_submission::reconcile` -/
def reconcile (orderLinkId : String) (query : AppResult (List Order)) : Journal (Option Order) := do
  match ← get K C scope orderLinkId with
  | none => pure none
  | some record =>
    match record.outcome with
    | .accepted order => pure (some order)
    | .rejected => Io.throw (.orderSubmissionRejected "原订单已确认未受理，可重新提交")
    | .pending => do
      let orders ← Io.lift query
      match orders.find? fun order =>
        order.orderLinkId = some orderLinkId ∧ order.symbol = record.request.symbol ∧ !isBlank order.orderId with
      | none => pure none
      | some order => do
        finish K C scope orderLinkId (.accepted order)
        pure (some order)

/-! ## Requests a strategy may have made -/

/-- `production::exchange_time_in_force` -/
def exchangeTimeInForce : String → AppResult String
  | "GTC" => .ok "GoodTillCancel"
  | "IOC" => .ok "ImmediateOrCancel"
  | "FOK" => .ok "FillOrKill"
  | _ => .error (workflowError "plugin_workflow_invalid_output")

/-- The wire name of a time in force, the other way round. -/
def wireTimeInForce : Option String → Option String
  | some "GoodTillCancel" => some "GTC"
  | some "ImmediateOrCancel" => some "IOC"
  | some "FillOrKill" => some "FOK"
  | _ => none

def canonicalRequest (id : String) (proposal : PlaceProposal) : AppResult PlaceOrderRequest := do
  ensure (K.uuid id ∧ byteLen id = 36) unavailable
  let order ← (validatePlace proposal.symbol ["trade.place"] proposal).mapError fun _ => unavailable
  let timeInForce ← exchangeTimeInForce order.timeInForce
  pure
    { symbol := order.symbol, side := order.side, orderType := order.orderType, qty := order.qty,
      price := order.price, timeInForce := some timeInForce, positionIdx := order.positionIdx,
      reduceOnly := some order.reduceOnly, protection := none, orderLinkId := some id }

def validateRequest (id : String) (request : PlaceOrderRequest) : AppResult Unit := do
  let tif ← okOr (wireTimeInForce request.timeInForce) unavailable
  let reduceOnly ← okOr request.reduceOnly unavailable
  let canonical ← canonicalRequest K id
    { symbol := request.symbol, side := request.side, orderType := request.orderType, qty := request.qty,
      price := request.price, timeInForce := tif, positionIdx := request.positionIdx, reduceOnly := reduceOnly }
  ensure (∀ protection ∈ request.protection, request.reduceOnly = some false ∧ protection.validateShape) unavailable
  ensure ({ canonical with protection := request.protection } = request) unavailable

def matchesRequest (order : Order) (request : PlaceOrderRequest) : AppResult Unit := do
  (validateOrder order request.symbol).mapError fun _ => unavailable
  ensure (order.orderLinkId = request.orderLinkId ∧ order.side = request.side ∧
    order.orderType = request.orderType) unavailable
  let observed ← (decimal order.qty true).mapError fun _ => unavailable
  let qty ← (decimal request.qty true).mapError fun _ => unavailable
  ensure (observed = qty ∧ ∀ price ∈ request.price, (decimal order.price true).toOption = (decimal price true).toOption)
    unavailable

/-- `production::strategy::rejected` -/
def strategyRejected : AppError := .orderSubmissionRejected "plugin_strategy_rejected"

/-- `store.get(..).map_err(|_| unavailable())` -/
def orUnavailable {α : Type} (m : Journal α) : Journal α := Io.mapErr (fun _ => unavailable) m

/-- The order to acknowledge: the recorded one, or, while the outcome is not known,
the one the exchange has. Another exchange identity than the expected one is never
recorded. -/
def acceptedOrder (id : String) (expected : Order) (record : StoredSubmission) (query : AppResult (Option Order)) :
    Journal Order :=
  match record.outcome with
  | .accepted order => pure order
  | .pending => do
    let found ← Io.lift query
    let order ← Io.lift (okOr found unavailable)
    Io.lift (ensure (order.orderId = expected.orderId ∧ order.status ≠ .rejected) unavailable)
    orUnavailable (finish K C scope id (.accepted order))
    pure order
  | .rejected => Io.throw unavailable

/-- The part `acknowledge` and `acknowledge_protected` share. -/
def acknowledgeExpected (id : String) (expected : Order) (request : PlaceOrderRequest) (record : StoredSubmission)
    (query : AppResult (Option Order)) : Journal Unit := do
  let accepted ← acceptedOrder K C scope id expected record query
  Io.lift (matchesRequest accepted request)
  Io.lift (ensure (accepted.orderId = expected.orderId ∧ accepted.status ≠ .rejected) unavailable)
  orUnavailable (acknowledge K C scope id)

/-- `production::strategy::acknowledge` -/
def strategyAcknowledge (current id : String) (expected : Order) (proposal : PlaceProposal)
    (query : AppResult (Option Order)) : Journal Unit := do
  Io.lift (ensure (scope ≠ "" ∧ current = scope) unavailable)
  let canonical ← Io.lift (canonicalRequest K id proposal)
  let record ← orUnavailable (get K C scope id)
  let record ← Io.lift (okOr record unavailable)
  Io.lift (ensure (canonical = record.request) unavailable)
  Io.lift (matchesRequest expected canonical)
  acknowledgeExpected K C scope id expected canonical record query

/-- The `(Some(id), None)` arm of `production::strategy::reconcile`. -/
def reconcileSubmission (symbolValue id : String) (query : AppResult (Option Order)) : Journal (Option Order) := do
  match ← orUnavailable (get K C scope id) with
  | none => pure none
  | some record => do
    Io.lift (validateRequest K id record.request)
    Io.lift (ensure (record.request.symbol = symbolValue) unavailable)
    match record.outcome with
    | .accepted order => do
      Io.lift (matchesRequest order record.request)
      Io.lift (ensure (order.status ≠ .rejected) unavailable)
      pure (some order)
    | .rejected => Io.throw strategyRejected
    | .pending => do
      match ← Io.lift query with
      | none => pure none
      | some order =>
        if order.status = .rejected then do
          orUnavailable (finish K C scope id .rejected)
          Io.throw strategyRejected
        else do
          orUnavailable (finish K C scope id (.accepted order))
          pure (some order)

/-- `production::strategy::reconcile` -/
def strategyReconcile (current symbolValue : String) (submission exchange : Option String)
    (query : AppResult (Option Order)) : Journal (Option Order) := do
  Io.lift (ensure (scope ≠ "" ∧ current = scope) unavailable)
  Io.lift ((symbol symbolValue).mapError fun _ => unavailable)
  match submission, exchange with
  | some id, none => reconcileSubmission K C scope symbolValue id query
  | none, some id => do
    Io.lift (ensure (boundedId id) unavailable)
    Io.lift query
  | _, _ => Io.throw unavailable

/-- `production::management::acknowledge_protected` -/
def acknowledgeProtected (current id : String) (expected : Order) (request : PlaceOrderRequest)
    (query : AppResult (Option Order)) : Journal Unit := do
  Io.lift (ensure (current ≠ "" ∧ current = scope) unavailable)
  Io.lift (validateRequest K id request)
  Io.lift (ensure request.protection.isSome unavailable)
  let record ← orUnavailable (get K C scope id)
  let record ← Io.lift (okOr record unavailable)
  Io.lift (ensure (record.request = request) unavailable)
  Io.lift (matchesRequest expected request)
  acknowledgeExpected K C scope id expected request record query

/-- `production::management::reconcile_protected` -/
def reconcileProtected (current : String) (request : PlaceOrderRequest) (query : AppResult (Option Order)) :
    Journal (Option Order) := do
  Io.lift (ensure (current ≠ "" ∧ current = scope ∧ request.protection.isSome) unavailable)
  let id ← Io.lift (okOr request.orderLinkId unavailable)
  Io.lift (validateRequest K id request)
  let record ← orUnavailable (get K C scope id)
  let record ← Io.lift (okOr record unavailable)
  Io.lift (ensure (record.request = request ∧ record.outcome ≠ .rejected) unavailable)
  match ← Io.lift query with
  | none => pure none
  | some order => do
    Io.lift (ensure (order.status ≠ .rejected) unavailable)
    match record.outcome with
    | .accepted known => do
      Io.lift (ensure (known.orderId = order.orderId) unavailable)
      pure (some order)
    | .pending => do
      orUnavailable (finish K C scope id (.accepted order))
      pure (some order)
    | .rejected => pure (some order)

end Calls

/-! ## Runs -/

/-- One call on a scope, with what the outside answers. -/
inductive Call
  | submitOnce (request : PlaceOrderRequest) (nowMs : ℕ) (submit : AppResult Order)
  | reconcile (orderLinkId : String) (query : AppResult (List Order))
  | acknowledge (id : String)
  | strategyAcknowledge (current id : String) (expected : Order) (proposal : PlaceProposal)
      (query : AppResult (Option Order))
  | strategyReconcile (current symbolValue : String) (submission exchange : Option String)
      (query : AppResult (Option Order))
  | acknowledgeProtected (current id : String) (expected : Order) (request : PlaceOrderRequest)
      (query : AppResult (Option Order))
  | reconcileProtected (current : String) (request : PlaceOrderRequest) (query : AppResult (Option Order))

def Call.run (K : Crates) (C : RecordCodec) (scope : String) : Call → Journal Unit
  | .submitOnce request nowMs submit => Io.ignore (EasiFlux.submitOnce K C scope request nowMs submit)
  | .reconcile orderLinkId query => Io.ignore (EasiFlux.reconcile K C scope orderLinkId query)
  | .acknowledge id => OrderSubmissionStore.acknowledge K C scope id
  | .strategyAcknowledge current id expected proposal query =>
    EasiFlux.strategyAcknowledge K C scope current id expected proposal query
  | .strategyReconcile current symbolValue submission exchange query =>
    Io.ignore (EasiFlux.strategyReconcile K C scope current symbolValue submission exchange query)
  | .acknowledgeProtected current id expected request query =>
    EasiFlux.acknowledgeProtected K C scope current id expected request query
  | .reconcileProtected current request query =>
    Io.ignore (EasiFlux.reconcileProtected K C scope current request query)

/-- One call under its faults. A call the process dies in is its last; what it
left on disk is what the next process finds. -/
def Call.step (K : Crates) (C : RecordCodec) (scope : String) (m : JournalDir) (c : Call × List Fault) : JournalDir :=
  (c.1.run K C scope m c.2).state

end EasiFlux
