import EasiFlux.Lib.FairLock
import EasiFlux.Lib.Steps
import EasiFlux.Lib.Tables
import EasiFlux.Model.Compute
import EasiFlux.Model.Snapshot

/-!
# The runtime of account workflows

`plugin/runtime/workflow.rs`: a user grants capabilities to a plugin
(`set_workflow_grants`), the plugin's guest proposes an order (`run_workflow`), and the user
confirms the proposal by its token (`confirm_workflow`), which sends it to the host.

The grants and the prepared proposals stand behind one mutex (`WorkflowState`); each of its
sections is one step. The operation gate is shared with lifecycle operations and
computations: a run takes it twice, without waiting, and gives it back while its guest works;
the other calls wait for it and keep it to their end. A change of the grants is accepted
before it waits. `World.step` lets any number of calls, guests, lifecycle operations and other
users of the gate and of the slot interleave between any two accesses to what they share.

What the registry captures, what the host answers and what a guest computes is left open: it
is given with the step, and may be anything at any time. So the guard of the account
lifecycle, which only keeps the host's answers from changing, is left out. Monotonic time is
in nanoseconds.

`History` is not in the code: it lists what has been accepted, applied, returned and sent, with
what guests and the host have answered, and calls and proposals note how long it was (`Origin`,
`Checked`).
-/

namespace EasiFlux

namespace Workflow

open Results

/-! ## Grants and proposals -/

structure Binding where
  identity : PluginIdentity
  epoch : ℕ
  authority : AccountAuthority
  deriving DecidableEq

structure Grant where
  binding : Binding
  revision : ℕ
  intent : ℕ
  capabilities : List String
  deriving DecidableEq

/-- Where a proposal comes from: its number, the symbol of its run and the capabilities its
output was checked against, how many changes had been accepted when its run read the grant,
how often the epoch had been advanced when it was bound, and the time. -/
structure Origin where
  number : ℕ
  symbol : String
  capabilities : List String
  accepted : ℕ
  advanced : ℕ
  preparedAt : ℕ
  deriving DecidableEq

structure Prepared where
  request : AuthorityRequest
  binding : Binding
  revision : ℕ
  intent : ℕ
  deadline : ℕ
  output : WorkflowOutput
  target : Option Order
  submissionId : Option String
  origin : Origin
  deriving DecidableEq

structure WorkflowState where
  serial : ℕ
  grants : Table String Grant
  pending : Table String Prepared
  deriving DecidableEq

namespace WorkflowState

variable (s : WorkflowState)

def next : AppResult ℕ × WorkflowState :=
  if s.serial + 1 < 2 ^ 64 then (.ok (s.serial + 1), { s with serial := s.serial + 1 })
  else (.error (workflowError "plugin_workflow_unavailable"), s)

/-- What `grant` drops first: what has expired, and what is from another epoch or account. -/
def prune (binding : Binding) (now : ℕ) : WorkflowState :=
  { s with
    pending := s.pending.retain fun _ p => decide (now < p.deadline ∧ p.binding.epoch = binding.epoch)
    grants := s.grants.retain fun _ g =>
      decide (g.binding.epoch = binding.epoch ∧ g.binding.authority = binding.authority) }

/-- The proposals of the other plugins. -/
def withdraw (id : String) : WorkflowState :=
  { s with pending := s.pending.retain fun _ p => decide (p.request.pluginId ≠ id) }

def grant (id : String) (binding : Binding) (now : ℕ) : AppResult Grant × WorkflowState :=
  let s := s.prune binding now
  match (s.grants.lookup id).filter fun g => decide (g.binding = binding) with
  | some g => (.ok g, s)
  | none =>
    let s := s.withdraw id
    if 256 ≤ s.grants.size then (.error (workflowError "plugin_workflow_capacity"), s)
    else
      match s.next with
      | (.ok revision, s) =>
        let grant := ⟨binding, revision, revision, []⟩
        (.ok grant, { s with grants := s.grants.insert id grant })
      | (.error e, s) => (.error e, s)

/-- The grant of the plugin, if it has one, gets the number as its intent. -/
def raise (id : String) (next : ℕ) : WorkflowState :=
  match s.grants.lookup id with
  | some g => { s with grants := s.grants.insert id { g with intent := next } }
  | none => s

/-- The section of `set_workflow_grants` that accepts a change. -/
def accept (id : String) : AppResult ℕ × WorkflowState :=
  match s.next with
  | (.ok next, s) => (.ok next, (s.raise id next).withdraw id)
  | (.error e, s) => (.error e, s)

end WorkflowState

def checkExpected (g : Grant) (id epoch revision : String) : AppResult Unit := do
  let _ ← counter epoch
  let _ ← counter revision
  ensure (g.binding.authority.account.accountId = id ∧ g.binding.authority.account.sessionEpoch = epoch ∧
    toString g.revision = revision) (workflowError "plugin_workflow_stale")

/-- The checks of `set_workflow_grants_locked` on the grant it has found. -/
def checkChange (g : Grant) (request : GrantRequest) (requested : List String) (intent : ℕ) : AppResult Unit := do
  checkExpected g request.expectedAccountId request.expectedSessionEpoch request.expectedGrantRevision
  ensure (∀ v ∈ request.capabilities, v ∈ requested) (workflowError "plugin_workflow_denied")
  ensure (g.intent = intent) (workflowError "plugin_workflow_stale")

/-- The section of `set_workflow_grants_locked`. -/
def WorkflowState.change (s : WorkflowState) (request : GrantRequest) (requested : List String) (binding : Binding)
    (intent now : ℕ) : AppResult Grant × WorkflowState :=
  match s.grant request.pluginId binding now with
  | (.error e, s) => (.error e, s)
  | (.ok g, s) =>
    match checkChange g request requested intent with
    | .error e => (.error e, s)
    | .ok () =>
      match s.next with
      | (.error e, s) => (.error e, s)
      | (.ok revision, s) =>
        let grant := { g with revision := revision, capabilities := request.capabilities }
        (.ok grant, { s with grants := s.grants.insert request.pluginId grant })

/-! ## Answers -/

structure Access where
  schemaVersion : ℕ
  pluginId : String
  contributionId : String
  catalogGeneration : String
  revision : String
  account : Account
  requestedCapabilities : List String
  grantedCapabilities : List String
  grantRevision : ℕ
  deriving DecidableEq

def access (request : AuthorityRequest) (requested : List String) (grant : Grant) : Access where
  schemaVersion := 1
  pluginId := request.pluginId
  contributionId := request.contributionId
  catalogGeneration := request.expectedCatalogGeneration
  revision := request.expectedRevision
  account := grant.binding.authority.account
  requestedCapabilities := requested
  grantedCapabilities := grant.capabilities
  grantRevision := grant.revision

structure Confirmation where
  token : String
  expiresAtMs : ℕ
  submissionId : Option String
  deriving DecidableEq

structure WorkflowResult where
  schemaVersion : ℕ
  requestId : String
  pluginId : String
  contributionId : String
  catalogGeneration : String
  revision : String
  account : Account
  grantRevision : ℕ
  snapshot : Snapshot
  output : WorkflowOutput
  confirmation : Option Confirmation
  deriving DecidableEq

inductive Answer
  | access (access : Access)
  | result (result : WorkflowResult)
  | receipt (receipt : TradeReceipt)
  deriving DecidableEq

/-- A call of `place_locked` or `cancel_locked`. -/
inductive TradeCall
  | place (context : SubmissionContext) (request : PlaceOrderRequest)
  | cancel (context : SessionContext) (request : CancelOrderRequest)
  deriving DecidableEq, Repr

def TradeCall.action : TradeCall → String
  | .place .. => "placeOrder"
  | .cancel .. => "cancelOrder"

/-- The request `confirm_owned` hands to the host for a proposal it has found current. -/
def tradeCall (account : Account) (capabilities : List String) (prepared : Prepared) : AppResult TradeCall := do
  let epoch ← counter account.sessionEpoch
  match prepared.output with
  | .placeOrder order => do
    -- all order invariants again, whatever the risk settings are
    let _ ← prepared.output.validate order.symbol capabilities none
    let submissionId ← okOr prepared.submissionId (workflowError "plugin_workflow_stale")
    pure (.place ⟨submissionId, account.accountId, epoch⟩ {
      symbol := order.symbol
      side := order.side
      orderType := order.orderType
      qty := order.qty
      positionIdx := order.positionIdx
      price := order.price
      timeInForce := some order.timeInForce
      orderLinkId := some submissionId
      reduceOnly := some order.reduceOnly
      protection := none })
  | .cancelOrder order => do
    let target ← okOr prepared.target (workflowError "plugin_workflow_stale")
    let _ ← prepared.output.validate order.symbol capabilities (some [target])
    pure (.cancel ⟨account.accountId, epoch⟩ ⟨order.symbol, some order.orderId, none⟩)
  | .display _ => .error (workflowError "plugin_workflow_token_invalid")

/-- The symbol of the order a proposal is about. -/
def proposedSymbol : WorkflowOutput → String
  | .placeOrder order => order.symbol
  | .cancelOrder order => order.symbol
  | .display _ => ""

def receipt (token : String) (account : Account) (call : TradeCall) (prepared : Prepared) (response : AppResult Order) :
    TradeReceipt :=
  let (status, order, code) := tradeOutcome (proposedSymbol prepared.output) prepared.target response
  ⟨1, token, account, call.action, status, prepared.submissionId, order, code⟩

/-! ## Calls -/

structure CapturedWorkflow (Params : Type) where
  params : Params
  identity : PluginIdentity
  requested : List String

/-- What the runtime is told by code that is not modelled here. -/
structure Sources (Registry Params : Type) where
  /-- `PluginRegistry::capture_workflow` -/
  captureWorkflow : Registry → AuthorityRequest → AppResult (CapturedWorkflow Params)
  /-- `module_bytes().is_ok()` -/
  hasModule : Params → Bool
  /-- `serde_json::to_vec(&snapshot)` has so many bytes. -/
  contextSize : Snapshot → ℕ

/-- The history when a proposal was found current: how many changes had been accepted when its
grant was read again, how often the epoch had been advanced, and the time. -/
structure Checked where
  accepted : ℕ
  advanced : ℕ
  now : ℕ
  deriving DecidableEq

variable (Params Registry : Type)

/-- The locals of a run that has read its grant. -/
structure Frame where
  request : RunRequest
  captured : CapturedWorkflow Params
  binding : Binding
  grant : Grant
  accepted : ℕ
  advanced : ℕ

/-- Where a call stands. -/
inductive Call
  | idle
  | getQueued (request : AuthorityRequest)
  | getBound (request : AuthorityRequest) (captured : CapturedWorkflow Params) (binding : Binding)
  | setReserved (request : GrantRequest)
  | setAccepted (request : GrantRequest) (intent : ℕ)
  | setBound (request : GrantRequest) (intent : ℕ) (captured : CapturedWorkflow Params) (binding : Binding)
  | runGated (request : RunRequest)
  | runBound (request : RunRequest) (captured : CapturedWorkflow Params) (binding : Binding) (advanced : ℕ)
  | runGranted (f : Frame Params)
  | runLeased (f : Frame Params) (flag : ℕ)
  | runCaptured (f : Frame Params) (flag : ℕ) (snapshot : Snapshot)
  | runRunning (f : Frame Params) (flag : ℕ) (snapshot : Snapshot)
  | runResumed (f : Frame Params) (flag : ℕ) (snapshot : Snapshot) (output : WorkflowOutput)
  | runRegated (f : Frame Params) (flag : ℕ) (snapshot : Snapshot) (output : WorkflowOutput)
  | runRebound (f : Frame Params) (flag : ℕ) (snapshot : Snapshot) (output : WorkflowOutput) (current : Binding)
  | confirmQueued (token : String)
  | confirmTaken (token : String) (prepared : Prepared)
  | confirmBound (token : String) (prepared : Prepared) (current : Binding)
  | confirmGranted (token : String) (prepared : Prepared) (current : Binding) (grant : Grant) (accepted : ℕ)
  | confirmChecked (token : String) (prepared : Prepared) (current : Binding) (grant : Grant) (checked : Checked)
  | confirmSent (token : String) (prepared : Prepared) (account : Account) (call : TradeCall)
  /-- The call has its answer, or its caller is gone: it drops what it holds, one after the other. -/
  | leaving (answer : Option (AppResult Answer)) (held : List Compute.Resource)
  | finished (answer : Option (AppResult Answer))

namespace Call

variable {Params}

/-- What a return, or a drop of the caller, drops, in this order. Who waits for the gate stands
in its line. -/
def held : Call Params → List Compute.Resource
  | .getQueued _ | .getBound .. | .setReserved _ | .setAccepted .. | .setBound .. => [.operation]
  | .runGated _ | .runBound .. | .runGranted _ => [.operation]
  | .runLeased _ flag | .runCaptured _ flag _ => [.cancelOnDrop flag, .lease flag, .operation]
  | .runRunning _ flag _ | .runResumed _ flag _ _ => [.cancelOnDrop flag]
  | .runRegated _ flag _ _ | .runRebound _ flag _ _ _ => [.operation, .cancelOnDrop flag]
  | .confirmQueued _ | .confirmTaken .. | .confirmBound .. | .confirmGranted .. | .confirmChecked .. | .confirmSent .. =>
    [.operation]
  | .leaving _ held => held
  | .idle | .finished _ => []

/-- The await points at which the caller of `get_workflow_access` and `run_workflow` can be
dropped. The other two run in tasks of their own. -/
def awaits : Call Params → Bool
  | .getQueued _ | .runGated _ | .runLeased .. | .runRunning .. | .runRegated .. => true
  | _ => false

def answer (call : Call Params) (answer : Answer) : Call Params := .leaving (some (.ok answer)) call.held

def fail (call : Call Params) (error : AppError) : Call Params := .leaving (some (.error error)) call.held

end Call

/-! ## The runtime -/

/-- An accepted change of the grants of a plugin. -/
structure Change where
  pluginId : String
  intent : ℕ
  deriving DecidableEq

/-- A change that was applied, as the revision `revision`, after `accepted` changes had been
accepted; `standing` is the grant the plugin had until then. -/
structure Applied where
  request : GrantRequest
  requested : List String
  binding : Binding
  standing : Option Grant
  revision : ℕ
  intent : ℕ
  accepted : ℕ
  deriving DecidableEq

/-- The guest of the call `call` has ended. -/
structure Produced where
  call : ℕ
  outcome : Option (AppResult WorkflowOutput)
  deriving DecidableEq

/-- The host has answered the call `call`, which takes a snapshot. -/
structure Fetched where
  call : ℕ
  answers : SnapshotAnswers

/-- A result that was returned by the call `call`: what its run has read at its admission, what it
has read again, `rebound` and `reread`, and the history when it was found current. -/
structure Returned where
  call : ℕ
  request : RunRequest
  binding : Binding
  grant : Grant
  accepted : ℕ
  advanced : ℕ
  rebound : Binding
  reread : Grant
  checked : Checked
  result : WorkflowResult
  deriving DecidableEq

/-- A request that was handed to the host by the call `call`, when the plugin had the grant
`standing`. -/
structure Sent where
  call : ℕ
  token : String
  prepared : Prepared
  capabilities : List String
  checked : Checked
  request : TradeCall
  standing : Option Grant
  deriving DecidableEq

/-- The host has answered the request of the call `call`. -/
structure Answered where
  call : ℕ
  response : AppResult Order
  deriving DecidableEq

structure History where
  advanced : ℕ
  accepted : List Change
  applied : List Applied
  produced : List Produced
  fetched : List Fetched
  returned : List Returned
  /-- How many proposals were prepared. -/
  prepared : ℕ
  sent : List Sent
  answered : List Answered

/-- The runtime and everything that runs in it. -/
structure World where
  gate : FairLock Compute.GateUser
  computeEpoch : ℕ
  initialDiscoveryAttempted : Bool
  registry : Registry
  slot : ComputeSlot
  workflow : WorkflowState
  now : ℕ
  calls : ℕ → Call Params
  guests : ℕ → Compute.Guest WorkflowOutput
  lifecycles : ℕ → Compute.Lifecycle
  /-- The lease another user of the slot holds. -/
  others : ℕ → Option ℕ
  history : History

/-- A step. What the code does not decide is given with it. -/
inductive Action
  | get (c : ℕ) (request : AuthorityRequest)
  | set (c : ℕ) (request : GrantRequest)
  | run (c : ℕ) (request : RunRequest)
  | confirm (c : ℕ) (token : String)
  | accept (c : ℕ)
  | bind (c : ℕ) (authority : AppResult AccountAuthority)
  /-- The section of the mutex that reads or makes the grant, and what the call does in it. -/
  | grant (c : ℕ)
  | lease (c : ℕ)
  | snapshot (c : ℕ) (answers : SnapshotAnswers)
  | spawn (c : ℕ)
  | guest (c : ℕ) (outcome : Option (AppResult WorkflowOutput))
  | resume (c : ℕ)
  | relock (c : ℕ)
  | settle (c : ℕ) (token submissionId : String) (nowMs : ℕ)
  | take (c : ℕ)
  | check (c : ℕ)
  | send (c : ℕ)
  | respond (c : ℕ) (response : AppResult Order)
  | abandon (c : ℕ)
  | unwind (c : ℕ)
  | tick (d : ℕ)
  | cancel (id : String)
  | reserve (l : ℕ)
  | advance (l : ℕ)
  | invalidate (l : ℕ)
  | enter (l : ℕ)
  | publish (l : ℕ) (registry : Registry) (discovered : Bool)
  | finish (l : ℕ)
  | queueOther (o : ℕ)
  | leaveOther (o : ℕ)
  | leaseOther (o : ℕ) (id : String)
  | cancelOther (o : ℕ)
  | dropOther (o : ℕ)

variable {Params Registry}

namespace World

variable (w : World Params Registry) (S : Sources Registry Params) (K : Crates)

def setCall (c : ℕ) (call : Call Params) : World Params Registry :=
  { w with calls := Function.update w.calls c call }

def setLifecycle (l : ℕ) (phase : Compute.Lifecycle) : World Params Registry :=
  { w with lifecycles := Function.update w.lifecycles l phase }

/-- A drop of the call `c`. -/
def dropResource (c : ℕ) : Compute.Resource → World Params Registry
  | .cancelOnDrop flag => { w with slot := w.slot.cancelFlag flag }
  | .lease flag => { w with slot := w.slot.dropLease flag }
  | .operation => { w with gate := w.gate.leave (.call c) }

def workflowEpoch : AppResult ℕ :=
  if w.computeEpoch = Compute.World.maxEpoch ∨ w.initialDiscoveryAttempted = false then
    .error (workflowError "plugin_workflow_unavailable")
  else .ok w.computeEpoch

/-- `binding_locked`; `authority` is what the host answers. -/
def bindingLocked (request : AuthorityRequest) (authority : AppResult AccountAuthority) :
    AppResult (CapturedWorkflow Params × Binding) := do
  let captured ← S.captureWorkflow w.registry request
  let epoch ← w.workflowEpoch
  let authority ← authority.mapError fun _ => workflowError "plugin_workflow_account_unavailable"
  let _ ← counter authority.account.sessionEpoch
  ensure (boundedId authority.account.accountId ∧ authority.privateSession ≠ "" ∧ authority.account.environment ≠ "" ∧
    byteLen authority.account.environment ≤ 256) (workflowError "plugin_workflow_account_unavailable")
  pure (captured, ⟨captured.identity, epoch, authority⟩)

/-! ### The checks before a call begins -/

def validateGrantRequest (request : GrantRequest) : AppResult Unit := do
  ensure request.authority.validate invalidRequest
  (Plugin.Manifest.validateWorkflowCapabilities request.capabilities).mapError fun _ => invalidRequest
  let _ ← counter request.expectedSessionEpoch
  let _ ← counter request.expectedGrantRevision

def validateRunRequest (request : RunRequest) : AppResult Unit := do
  ensure request.authority.validate invalidRequest
  (validateRequestId request.requestId).mapError fun _ => invalidRequest
  ensure (validateInput K request.inputJson) invalidRequest
  symbol request.symbol

/-! ### The sections of the mutex -/

/-- What a run does with the grant it has found. -/
def checkRun (grant : Grant) (request : RunRequest) : AppResult Unit := do
  checkExpected grant request.expectedAccountId request.expectedSessionEpoch request.expectedGrantRevision
  ensure ("account.read" ∈ grant.capabilities) (workflowError "plugin_workflow_denied")

/-- The section of a run that holds the gate again compares the state with that of its
admission. The flag and the epoch only move forward, so their two reads are one. -/
def checkCurrent (f : Frame Params) (flag : ℕ) (current : Binding) (grant : Grant) : AppResult Unit := do
  ensure (w.slot.flags[flag]? = some false ∧ f.binding = current ∧ f.grant.revision = grant.revision ∧
    f.grant.intent = grant.intent) (workflowError "plugin_workflow_stale")
  let epoch ← w.workflowEpoch
  ensure (epoch = f.binding.epoch) (workflowError "plugin_workflow_stale")

/-- `confirm_owned` compares likewise. -/
def checkPrepared (prepared : Prepared) (current : Binding) (grant : Grant) : AppResult Unit := do
  ensure (w.now < prepared.deadline ∧ current = prepared.binding ∧ grant.revision = prepared.revision ∧
    grant.intent = prepared.intent) (workflowError "plugin_workflow_stale")
  let epoch ← w.workflowEpoch
  ensure (epoch = prepared.binding.epoch) (workflowError "plugin_workflow_stale")

/-- `Duration::from_secs(60)` -/
def confirmationNs : ℕ := 60000000000

/-- The order a cancellation is about, as the snapshot has it. -/
def cancelTarget (snapshot : Snapshot) : WorkflowOutput → Option Order
  | .cancelOrder order => snapshot.orders.bind fun s => s.items.find? fun o => o.orderId == order.orderId
  | _ => none

/-- The proposal a run leaves. -/
def prepare (f : Frame Params) (snapshot : Snapshot) (output : WorkflowOutput) (submissionId : String) : Prepared where
  request := f.request.authority
  binding := f.binding
  revision := f.grant.revision
  intent := f.grant.intent
  deadline := w.now + confirmationNs
  output := output
  target := cancelTarget snapshot output
  submissionId := match output with
    | .placeOrder _ => some submissionId
    | _ => none
  origin := ⟨w.history.prepared, f.request.symbol, f.grant.capabilities, f.accepted, f.advanced, w.now⟩

def result (f : Frame Params) (snapshot : Snapshot) (output : WorkflowOutput) (confirmation : Option Confirmation) :
    WorkflowResult where
  schemaVersion := 1
  requestId := f.request.requestId
  pluginId := f.request.pluginId
  contributionId := f.request.contributionId
  catalogGeneration := f.request.expectedCatalogGeneration
  revision := f.request.expectedRevision
  account := f.binding.authority.account
  grantRevision := f.grant.revision
  snapshot := snapshot
  output := output
  confirmation := confirmation

/-! ### Steps -/

/-- A call begins: its checks, then its place in the line of the gate. -/
def queue (c : ℕ) (checks : AppResult Unit) (call : Call Params) : World Params Registry :=
  match w.calls c, checks with
  | .idle, .ok () => { w with gate := w.gate.lock (.call c) }.setCall c call
  | .idle, .error e => w.setCall c (.leaving (some (.error e)) [])
  | _, _ => w

/-- A call reads what it is bound to. -/
def bound (c : ℕ) (request : AuthorityRequest) (authority : AppResult AccountAuthority)
    (next : CapturedWorkflow Params → Binding → Call Params) : World Params Registry :=
  match w.bindingLocked S request authority with
  | .ok (captured, binding) => w.setCall c (next captured binding)
  | .error e => w.setCall c ((w.calls c).fail e)

/-- A section of the mutex in which the grant is looked up. -/
def granted (c : ℕ) (id : String) (binding : Binding) (next : World Params Registry → Grant → World Params Registry) :
    World Params Registry :=
  match w.workflow.grant id binding w.now with
  | (.ok grant, workflow) => next { w with workflow } grant
  | (.error e, workflow) => { w with workflow }.setCall c ((w.calls c).fail e)

/-- The change is accepted: what was prepared or computed before is withdrawn. -/
def acceptChange (c : ℕ) (request : GrantRequest) : World Params Registry :=
  match w.workflow.accept request.pluginId with
  | (.ok intent, workflow) =>
    { w with workflow, history.accepted := w.history.accepted ++ [Change.mk request.pluginId intent] }.setCall c
      (.setAccepted request intent)
  | (.error e, workflow) => { w with workflow }.setCall c ((w.calls c).fail e)

def applyChange (c : ℕ) (request : GrantRequest) (intent : ℕ) (captured : CapturedWorkflow Params) (binding : Binding) :
    World Params Registry :=
  match w.workflow.change request captured.requested binding intent w.now with
  | (.ok grant, workflow) =>
    { w with
      workflow
      history.applied := w.history.applied ++
        [Applied.mk request captured.requested binding (w.workflow.grants.lookup request.pluginId) grant.revision intent
          w.history.accepted.length] }.setCall c
      ((w.calls c).answer (.access (access request.authority captured.requested grant)))
  | (.error e, workflow) => { w with workflow }.setCall c ((w.calls c).fail e)

def answerRun (c : ℕ) (f : Frame Params) (current : Binding) (grant : Grant) (result : WorkflowResult) : World Params Registry :=
  { w with
    history.returned := w.history.returned ++
      [Returned.mk c f.request f.binding f.grant f.accepted f.advanced current grant
        ⟨w.history.accepted.length, w.history.advanced, w.now⟩ result] }.setCall c ((w.calls c).answer (.result result))

/-- The last section of a run. -/
def settleRun (c : ℕ) (f : Frame Params) (flag : ℕ) (snapshot : Snapshot) (output : WorkflowOutput) (current : Binding)
    (token submissionId : String) (nowMs : ℕ) : World Params Registry :=
  w.granted c f.request.pluginId current fun w grant =>
    match w.checkCurrent f flag current grant with
    | .error e => w.setCall c ((w.calls c).fail e)
    | .ok () =>
      match output with
      | .display _ => w.answerRun c f current grant (result f snapshot output none)
      | _ =>
        if 32 ≤ w.workflow.pending.size then w.setCall c ((w.calls c).fail (workflowError "plugin_workflow_capacity"))
        else
          let prepared := w.prepare f snapshot output submissionId
          let confirmation := Confirmation.mk token (min (nowMs + 60000) (2 ^ 64 - 1)) prepared.submissionId
          { w with
            workflow.pending := w.workflow.pending.insert token prepared
            history.prepared := w.history.prepared + 1 }.answerRun c f current grant
              (result f snapshot output (some confirmation))

def step : Action Registry → World Params Registry
  | .get c request => w.queue c (ensure request.validate invalidRequest) (.getQueued request)
  | .set c request => w.queue c (validateGrantRequest request) (.setReserved request)
  | .confirm c token => w.queue c (ensure (K.uuid token) invalidRequest) (.confirmQueued token)
  | .run c request =>
    match w.calls c, validateRunRequest K request with
    | .idle, .ok () =>
      match w.gate.tryLock (.call c) with
      | some gate => { w with gate }.setCall c (.runGated request)
      | none => w.setCall c (.leaving (some (.error (workflowError "plugin_workflow_unavailable"))) [])
    | .idle, .error e => w.setCall c (.leaving (some (.error e)) [])
    | _, _ => w
  | .accept c =>
    match w.calls c with
    | .setReserved request => w.acceptChange c request
    | _ => w
  | .bind c authority =>
    if w.gate.Held (.call c) then
      match w.calls c with
      | .getQueued request => w.bound S c request authority (.getBound request)
      | .setAccepted request intent => w.bound S c request.authority authority (.setBound request intent)
      | .runGated request =>
        w.bound S c request.authority authority fun captured binding => .runBound request captured binding w.history.advanced
      | .runRegated f flag snapshot output =>
        w.bound S c f.request.authority authority fun _ current => .runRebound f flag snapshot output current
      | .confirmTaken token prepared =>
        w.bound S c prepared.request authority fun _ current => .confirmBound token prepared current
      | _ => w
    else w
  | .grant c =>
    match w.calls c with
    | .getBound request captured binding =>
      w.granted c request.pluginId binding fun w grant =>
        w.setCall c ((w.calls c).answer (.access (access request captured.requested grant)))
    | .setBound request intent captured binding => w.applyChange c request intent captured binding
    | .runBound request captured binding advanced =>
      w.granted c request.pluginId binding fun w grant =>
        match checkRun grant request with
        | .ok () => w.setCall c (.runGranted ⟨request, captured, binding, grant, w.history.accepted.length, advanced⟩)
        | .error e => w.setCall c ((w.calls c).fail e)
    | .confirmBound token prepared current =>
      w.granted c prepared.request.pluginId current fun w grant =>
        w.setCall c (.confirmGranted token prepared current grant w.history.accepted.length)
    | _ => w
  | .lease c =>
    match w.calls c with
    | .runGranted f =>
      match w.slot.acquire f.request.requestId with
      | .ok (flag, slot) => { w with slot }.setCall c (.runLeased f flag)
      | .error _ => w.setCall c ((w.calls c).fail (workflowError "plugin_workflow_busy"))
    | _ => w
  | .snapshot c answers =>
    match w.calls c with
    | .runLeased f flag =>
      match snapshotLocked f.binding.authority f.request.symbol f.grant.capabilities answers with
      | .ok snapshot =>
        if S.contextSize snapshot ≤ 65536 then
          { w with history.fetched := w.history.fetched ++ [Fetched.mk c answers] }.setCall c (.runCaptured f flag snapshot)
        else w.setCall c ((w.calls c).fail unavailable)
      | .error e => w.setCall c ((w.calls c).fail e)
    | _ => w
  | .spawn c =>
    match w.calls c with
    | .runCaptured f flag snapshot =>
      if S.hasModule f.captured.params then
        { w with gate := w.gate.leave (.call c), guests := Function.update w.guests c (.running flag) }.setCall c
          (.runRunning f flag snapshot)
      else
        -- the guards are dropped before the module is read
        { w with gate := w.gate.leave (.call c) }.setCall c
          (.leaving (some (.error (workflowError "plugin_workflow_invalid_module"))) [.cancelOnDrop flag, .lease flag])
    | _ => w
  | .guest c outcome =>
    match w.guests c with
    | .running flag =>
      { w with
        slot := w.slot.dropLease flag
        guests := Function.update w.guests c (.done outcome)
        history.produced := w.history.produced ++ [Produced.mk c outcome] }
    | _ => w
  | .resume c =>
    match w.calls c, w.guests c with
    | .runRunning f flag snapshot, .done (some (.ok output)) =>
      match output.validate f.request.symbol f.grant.capabilities (snapshot.orders.map (·.items)) with
      | .ok output => w.setCall c (.runResumed f flag snapshot output)
      | .error e => w.setCall c ((w.calls c).fail e)
    | .runRunning _ _ _, .done (some (.error e)) => w.setCall c ((w.calls c).fail e)
    | .runRunning _ _ _, .done none => w.setCall c ((w.calls c).fail (workflowError "plugin_workflow_compute_failed"))
    | _, _ => w
  | .relock c =>
    match w.calls c with
    | .runResumed f flag snapshot output =>
      match w.gate.tryLock (.call c) with
      | some gate => { w with gate }.setCall c (.runRegated f flag snapshot output)
      | none => w.setCall c ((w.calls c).fail (workflowError "plugin_workflow_stale"))
    | _ => w
  | .settle c token submissionId nowMs =>
    match w.calls c with
    | .runRebound f flag snapshot output current => w.settleRun c f flag snapshot output current token submissionId nowMs
    | _ => w
  | .take c =>
    match w.calls c with
    | .confirmQueued token =>
      if w.gate.Held (.call c) then
        match w.workflow.pending.lookup token with
        | some prepared =>
          { w with workflow.pending := w.workflow.pending.erase token }.setCall c (.confirmTaken token prepared)
        | none => w.setCall c ((w.calls c).fail (workflowError "plugin_workflow_token_invalid"))
      else w
    | _ => w
  | .check c =>
    match w.calls c with
    | .confirmGranted token prepared current grant accepted =>
      match w.checkPrepared prepared current grant with
      | .ok () => w.setCall c (.confirmChecked token prepared current grant ⟨accepted, w.history.advanced, w.now⟩)
      | .error e => w.setCall c ((w.calls c).fail e)
    | _ => w
  | .send c =>
    match w.calls c with
    | .confirmChecked token prepared current grant checked =>
      match tradeCall current.authority.account grant.capabilities prepared with
      | .ok call =>
        { w with
          history.sent := w.history.sent ++
            [Sent.mk c token prepared grant.capabilities checked call (w.workflow.grants.lookup prepared.request.pluginId)] }.setCall c
          (.confirmSent token prepared current.authority.account call)
      | .error e => w.setCall c ((w.calls c).fail e)
    | _ => w
  | .respond c response =>
    match w.calls c with
    | .confirmSent token prepared account call =>
      { w with history.answered := w.history.answered ++ [Answered.mk c response] }.setCall c
        ((w.calls c).answer (.receipt (receipt token account call prepared response)))
    | _ => w
  | .abandon c => if (w.calls c).awaits then w.setCall c (.leaving none (w.calls c).held) else w
  | .unwind c =>
    match w.calls c with
    | .leaving answer [] => w.setCall c (.finished answer)
    | .leaving answer (resource :: held) => (w.dropResource c resource).setCall c (.leaving answer held)
    | _ => w
  | .tick d => { w with now := w.now + d }
  | .cancel id =>
    match validateRequestId id with
    | .ok () => { w with slot := (w.slot.cancel id).2 }
    | .error _ => w
  | .reserve l =>
    match w.lifecycles l with
    | .idle => { w with gate := w.gate.lock (.lifecycle l) }.setLifecycle l .reserved
    | _ => w
  | .advance l =>
    match w.lifecycles l with
    | .reserved =>
      { w with
        computeEpoch := min (w.computeEpoch + 1) Compute.World.maxEpoch
        history.advanced := w.history.advanced + 1 }.setLifecycle l .advanced
    | _ => w
  | .invalidate l =>
    match w.lifecycles l with
    | .advanced => { w with slot := w.slot.invalidate }.setLifecycle l .ready
    | _ => w
  | .enter l =>
    match w.lifecycles l with
    | .ready => if w.gate.Held (.lifecycle l) then w.setLifecycle l .entered else w
    | _ => w
  | .publish l registry discovered =>
    match w.lifecycles l with
    | .entered => { w with registry, initialDiscoveryAttempted := w.initialDiscoveryAttempted || discovered }
    | _ => w
  | .finish l =>
    match w.lifecycles l with
    | .entered => { w with gate := w.gate.leave (.lifecycle l) }.setLifecycle l .finished
    | _ => w
  | .queueOther o => { w with gate := w.gate.lock (.other o) }
  | .leaveOther o => { w with gate := w.gate.leave (.other o) }
  | .leaseOther o id =>
    match w.others o, w.slot.acquire id with
    | none, .ok (_, slot) => { w with slot, others := Function.update w.others o (some w.slot.flags.length) }
    | _, _ => w
  | .cancelOther o =>
    match w.others o with
    | some flag => { w with slot := w.slot.cancelFlag flag }
    | none => w
  | .dropOther o =>
    match w.others o with
    | some flag => { w with slot := w.slot.dropLease flag, others := Function.update w.others o none }
    | none => w

/-- Nothing runs yet. -/
def init (registry : Registry) : World Params Registry where
  gate := .free
  computeEpoch := 0
  initialDiscoveryAttempted := false
  registry := registry
  slot := ⟨none, []⟩
  workflow := ⟨0, ∅, ∅⟩
  now := 0
  calls _ := .idle
  guests _ := .none
  lifecycles _ := .idle
  others _ := none
  history := ⟨0, [], [], [], [], [], 0, [], []⟩

/-- What the runtime is after the steps `as`. -/
def run (registry : Registry) (as : List (Action Registry)) : World Params Registry :=
  Steps.run (fun w a => w.step S K a) (init registry) as

end World

end Workflow

end EasiFlux
