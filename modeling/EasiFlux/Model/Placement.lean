import EasiFlux.Model.Risk
import EasiFlux.Model.Submit

/-!
# Placing an order

`execute_place_order_with_submit` of `services/trading.rs` with the dispatch of
`services/trading/strategy.rs`: the quota is reserved, the order is prepared,
admitted and handed to the exchange, and a failure gives the quota back when it is
certain that the exchange has not taken the order. `placeOnce` is `submit_once`
around it.

The closures and the observer are what they answer. `Desk` keeps, beside the risk
service, what the placement did with its reservation and with the submit closure.
-/

namespace EasiFlux

open CrashIo Results

inductive PlaceEvent
  /-- `reserve_order` granted a reservation -/
  | reserved (reservation : RiskReservation)
  /-- `release_reservation` was called on it, and whether it returned `Ok` -/
  | released (ok : Bool)
  /-- the submit closure was called -/
  | submitted
  deriving DecidableEq, Repr

structure Desk where
  risk : RiskService
  events : List PlaceEvent

namespace Desk

variable {ε α : Type}

def note (event : PlaceEvent) : Io Desk ε Unit := Io.modify fun d => { d with events := d.events ++ [event] }

def onRisk (m : Io RiskService ε α) : Io Desk ε α :=
  Io.within risk (fun d s => { d with risk := s }) m

end Desk

/-- What a placement is given. -/
structure PlaceInput where
  /-- `context.submission_id` -/
  submissionId : String
  referencePrice : Option String
  nowMs : ℕ
  utcNow : ℤ
  /-- the strategy's check right before the hand-off, if it is a strategy's order -/
  admission : Option (AppResult Unit)
  prepare : AppResult Unit
  submit : AppResult Order
  /-- what `observe_risk_block` and `observe_rejection` answer -/
  blockNotice : Option String
  rejectionNotice : Option String

/-- The error `pass` returns when the strategy is no longer admitted. -/
def admissionRevoked : AppError := .orderSubmissionRejected "strategy admission revoked"

def isCorrelatableOrderLink (value : String) : Bool := value ≠ "" && value.length ≤ 36

def finalizeSubmissionFailure (submitError : AppError) (rollbackFailed : Bool) (notificationId : Option String) : AppError :=
  match submitError with
  | .notified _ _ _ (some _) => submitError
  | _ =>
    match notificationId with
    | some id => .notified "ORDER_REJECTED" "订单请求被交易端拒绝" id none
    | none =>
      if rollbackFailed && !submitError.isCertainSubmissionFailure then .internal "订单提交失败且风控预占回滚失败"
      else submitError

section Place

variable (C : UsageCodec) (Z : Calendar) (R : RiskDecimals)

/-- `release_reservation(..).is_err()` -/
def releaseFails {ε : Type} (reservation : RiskReservation) (nowMs : ℕ) : Io Desk ε Bool := do
  match ← Io.attempt (Desk.onRisk (RiskService.releaseReservation C reservation nowMs)) with
  | .ok () => do
    Desk.note (.released true)
    pure false
  | .error _ => do
    Desk.note (.released false)
    pure true

def dispatchReserved (reservation : RiskReservation) (input : PlaceInput) : Io Desk AppError Order :=
  match input.admission with
  | some (.error rejection) => do
    let _ ← releaseFails C reservation input.nowMs
    Io.throw rejection
  | _ => do
    Desk.note .submitted
    Io.lift input.submit

def handleFailedSubmission (reservation : RiskReservation) (input : PlaceInput) (submitError : AppError) :
    Io Desk AppError AppError := do
  let rollbackFailed ← if submitError.isCertainSubmissionFailure then releaseFails C reservation input.nowMs else pure false
  let notificationId := if submitError.isConfirmedSubmissionRejection then input.rejectionNotice else none
  pure (finalizeSubmissionFailure submitError rollbackFailed notificationId)

/-- What a refused reservation is answered with. -/
def blockedError (input : PlaceInput) (violation : RiskViolation) : AppError :=
  match input.blockNotice with
  | some id => .notified "RISK_ORDER_BLOCKED"
      (if violation.code = .referencePriceUnavailable then "无法获取有效的最新市价，请稍后重试" else "订单被风控拦截") id none
  | none => .risk violation.userMessage

/-- The order is prepared and handed over. -/
def executeReserved (reservation : RiskReservation) (input : PlaceInput) : Io Desk AppError Order := do
  match input.prepare with
  | .error preflight => do
    let _ ← releaseFails C reservation input.nowMs
    -- nothing was handed off, whatever became of the quota
    Io.throw (.orderSubmissionRejected preflight.userMessage)
  | .ok () =>
    match ← Io.attempt (dispatchReserved C reservation input) with
    | .ok order => pure order
    | .error submitError => do
      let error ← handleFailedSubmission C reservation input submitError
      Io.throw error

def executePlaceOrder (request : PlaceOrderRequest) (input : PlaceInput) : Io Desk AppError Order := do
  Io.lift (ensure (∀ value ∈ request.orderLinkId, isCorrelatableOrderLink value)
    (.trading "订单关联标识必须为 1 到 36 个字符"))
  let request := { request with orderLinkId := some (request.orderLinkId.getD input.submissionId) }
  match ← Io.attempt (Desk.onRisk
    (RiskService.reserveOrder C Z R request input.referencePrice input.nowMs input.utcNow)) with
  | .error violation => Io.throw (blockedError input violation)
  | .ok reservation => do
    Desk.note (.reserved reservation)
    executeReserved C reservation input

end Place

/-- A placement that came back: what `submit_once` ended in, and the desk. -/
structure Placed where
  journal : Outcome JournalDir AppError Order
  desk : Desk

/-- The journal's part, given what the closure answers and leaves. The closure is
called if the journal has logged a call. -/
def submitPlaced (K : Crates) (J : RecordCodec) (scope : String) (request : PlaceOrderRequest) (localNow : ℕ)
    (m : JournalDir) (faults : List Fault) (desk : Desk) (answer : AppResult Order) (done : Desk) : Placed :=
  let journal := submitOnce K J scope request localNow answer m faults
  ⟨journal, if journal.state.log.length = m.log.length then desk else done⟩

/-- `submit_once` around `execute_place_order_with_submit`; nothing when the process
dies in the closure. -/
def placeOnce (K : Crates) (J : RecordCodec) (C : UsageCodec) (Z : Calendar) (R : RiskDecimals)
    (scope : String) (request : PlaceOrderRequest) (input : PlaceInput) (localNow : ℕ) (m : JournalDir) (desk : Desk)
    (journalFaults riskFaults : List Fault) : Option Placed :=
  match executePlaceOrder C Z R request input desk riskFaults with
  | .ok order done _ => some (submitPlaced K J scope request localNow m journalFaults desk (.ok order) done)
  | .err error done _ => some (submitPlaced K J scope request localNow m journalFaults desk (.error error) done)
  | .crashed _ => none

end EasiFlux
