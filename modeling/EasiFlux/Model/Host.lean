import EasiFlux.Model.Exchange
import EasiFlux.Model.Worker

/-!
# The production host

The functions of `ProductionWorkflowHost` in `plugin/workflow/production.rs` that a
strategy reaches: `strategy_place_locked` prepares a request and hands it to
`submit_once`, and the three `strategy_reconcile` functions ask the journal and the
exchange what became of an action. The quote, the lookup of the account's scope and
the rows of the exchange are arguments.
-/

namespace EasiFlux

open CrashIo Fixed Results

/-- The failure of a check that is made before anything is sent. -/
def preflight : AppError := .orderSubmissionRejected "protected order preflight failed"

/-- The request `strategy_place_locked` makes of the one it is given; `quote` is the
last and the mark price. A protection is checked again, against the price of now. -/
def strategyPlaceRequest (request : PlaceOrderRequest) (quote : AppResult (String × String)) : AppResult PlaceOrderRequest := do
  let tif ← okOr request.timeInForce (workflowError "plugin_workflow_invalid_output")
  let tif ← exchangeTimeInForce tif
  match request.protection with
  | none => pure { request with timeInForce := some tif }
  | some protection => do
    ensure (request.reduceOnly = some false) preflight
    let market ← quote.mapError fun _ => preflight
    let protection ← (protection.validate request.side request.price (referencePrice protection market)).mapError
      fun _ => preflight
    pure { request with timeInForce := some tif, protection := some protection }

section Host

variable (K : Crates) (C : RecordCodec) (quotient : Decimal → Decimal → Option String) (scope : String)

/-- `lookup` is whether the scope of the account is known. -/
def strategyPlaceLocked (request : PlaceOrderRequest) (quote : AppResult (String × String)) (lookup : AppResult Unit)
    (nowMs : ℕ) (submit : AppResult Order) : Journal Order := do
  let request ← Io.lift (strategyPlaceRequest request quote)
  Io.lift (lookup.mapError fun failure =>
    if request.protection.isSome then .orderSubmissionRejected "protected order preflight unavailable" else failure)
  submitOnce K C scope request nowMs submit

/-- The request the journal has recorded for a submission. -/
def recordedRequest (m : JournalDir) (submission : Option String) : Option PlaceOrderRequest :=
  submission.bind fun id =>
    match OrderSubmissionStore.get K C scope id ⟨m.disk, []⟩ [] with
    | .ok (some record) _ _ => some record.request
    | _ => none

/-- `strategy_reconcile_locked`: a submission by its client identity, or an order by
its exchange identity. The row of a submission is matched with the recorded
request. -/
def strategyReconcileLocked (current symbolValue : String) (submission exchange : Option String) (answers : OrderAnswers) :
    Journal (Option Order) := fun m =>
  strategyReconcile K C scope current symbolValue submission exchange
    (queryExact quotient symbolValue submission exchange (recordedRequest K C scope m submission) answers) m

def strategyReconcileProtectedLocked (current : String) (request : PlaceOrderRequest) (answers : OrderAnswers) :
    Journal (Option Order) :=
  reconcileProtected K C scope current request
    (queryExact quotient request.symbol request.orderLinkId none (some request) answers)

def strategyReconcileAmendLocked (current : String) (request : AmendProposal) (original : PlaceOrderRequest)
    (answers : OrderAnswers) : AppResult (Option Order) := do
  ensure (current = scope) unavailable
  reconcileAmend quotient request original answers

end Host

/-- The call `reconcile_owned` makes for the pending action of a run, on the journal of
the run's scope. -/
def askHost (K : Crates) (C : RecordCodec) (quotient : Decimal → Decimal → Option String) (current : String) (ρ : Recovery)
    (answers : OrderAnswers) : Journal (Option Order) :=
  match ρ.pending.action with
  | .amendOrder order =>
    match (ρ.record.owned.lookup order.orderId).bind (·.placement) with
    | some original => Io.lift (strategyReconcileAmendLocked quotient ρ.record.scope current order original answers)
    | none => Io.throw (strategyError "plugin_strategy_recovery_required")
  | .placeProtectedOrder order protection =>
    match ρ.pending.submissionId with
    | some id => strategyReconcileProtectedLocked K C quotient ρ.record.scope current
        (canonicalPlacement order id (some protection)) answers
    | none => Io.throw (strategyError "plugin_strategy_recovery_required")
  | .cancelOrder order => strategyReconcileLocked K C quotient ρ.record.scope current ρ.record.view.symbol
      ρ.pending.submissionId (some order.orderId) answers
  | _ => strategyReconcileLocked K C quotient ρ.record.scope current ρ.record.view.symbol ρ.pending.submissionId none answers

/-- The call that acknowledges the order a recovery found; an action that is no placement
has none. -/
def confirmHost (K : Crates) (C : RecordCodec) (quotient : Decimal → Decimal → Option String) (current : String) (ρ : Recovery)
    (expected : Order) (answers : OrderAnswers) : Journal Unit :=
  match ρ.pending.action, ρ.pending.submissionId with
  | .placeOrder order, some id => strategyAcknowledge K C ρ.record.scope current id expected order do
      let canonical ← canonicalRequest K id order
      queryExact quotient canonical.symbol (some id) none (some canonical) answers
  | .placeProtectedOrder order protection, some id =>
    let canonical := canonicalPlacement order id (some protection)
    acknowledgeProtected K C ρ.record.scope current id expected canonical
      (queryExact quotient canonical.symbol (some id) none (some canonical) answers)
  | _, _ => pure ()

end EasiFlux
