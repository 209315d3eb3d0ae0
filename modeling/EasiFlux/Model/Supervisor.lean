import EasiFlux.Model.Execution

/-!
# The strategy supervisor

`plugin/strategy/supervisor.rs`: the document in memory, the live runs, and the lock
sections that change them. A lock section is one action of the system; what goes
on between two sections of one function is a `Phase` of the run's worker.

The store is the abstract one of `Proof.Document`: the last document it
acknowledged, and those it was given since and did not acknowledge, any of which a
later `load` may return. A document travels with the mutations made pending in its
history (`Version.made`), which no code reads.

Monotonic time is in nanoseconds. A wall clock reading is an argument of the
action that makes it, and may be anything.
-/

namespace EasiFlux

open Fixed Results

/-! ## Statuses

Every function that only writes a run's status. -/

def RunRecord.setStatus (r : RunRecord) (status : StrategyStatus) (reason : Option String) : RunRecord :=
  { r with view := { r.view with status := status, reason := reason } }

def recoveryRequired : Option String := some "plugin_strategy_recovery_required"

def stoppedOrPaused (stop : Bool) : StrategyStatus := if stop then .stopped else .paused

def stopReason (stop : Bool) : Option String :=
  some (if stop then "plugin_strategy_stopped" else "plugin_strategy_paused")

/-- `control` on the record of its run. -/
def RunRecord.control (r : RunRecord) (live stop : Bool) : RunRecord :=
  if live then r.setStatus .stopping (stopReason stop)
  else if r.pending.isSome then r.setStatus .recoveryRequired recoveryRequired
  else if r.view.status ≠ .completed then r.setStatus (stoppedOrPaused stop) (stopReason stop)
  else r

/-- `stop_all` on each record. -/
def RunRecord.stopAll (r : RunRecord) (live : Bool) : RunRecord :=
  if live then r.setStatus .stopping (stopReason true)
  else if r.pending.isSome then r.setStatus .recoveryRequired recoveryRequired
  else if r.view.status ≠ .completed ∧ r.view.status ≠ .stopped then r.setStatus .stopped (stopReason true)
  else r

/-- `finish` on the record of its run. -/
def RunRecord.finish (r : RunRecord) (intent : ℕ) : RunRecord :=
  if r.pending.isSome then
    r.setStatus .recoveryRequired
      (if r.view.reason = none ∨ r.view.reason = stopReason true then recoveryRequired else r.view.reason)
  else if 0 < intent ∧ r.view.status ≠ .faulted ∧ r.view.status ≠ .completed then
    r.setStatus (stoppedOrPaused (intent = 2)) (stopReason (intent = 2))
  else r

/-- What `StrategySupervisor::new` makes of a record it loads. -/
def RunRecord.restore (r : RunRecord) : RunRecord :=
  if r.pending.isSome then r.setStatus .recoveryRequired recoveryRequired
  else if r.view.status = .running ∨ r.view.status = .stopping ∨ r.view.status = .recoveryRequired then
    r.setStatus .paused (some "plugin_strategy_restarted")
  else r

/-- What a failed save makes of a record. -/
def RunRecord.overlay (r : RunRecord) : RunRecord :=
  r.setStatus (if r.pending.isSome then .recoveryRequired else .faulted) (some "plugin_strategy_storage_unavailable")

/-! ## Documents -/

/-- `runs.iter().find(|r| r.view.run_id == id)` -/
def StrategyDocument.find (d : StrategyDocument) (id : String) : Option RunRecord :=
  d.runs.find? fun r => r.view.runId = id

def putRun (id : String) (r : RunRecord) : List RunRecord → List RunRecord
  | [] => []
  | old :: rest => if old.view.runId = id then r :: rest else old :: putRun id r rest

/-- The document with the record that `find` finds changed to `r`. -/
def StrategyDocument.put (d : StrategyDocument) (id : String) (r : RunRecord) : StrategyDocument :=
  { d with runs := putRun id r d.runs }

def StrategyDocument.mapRuns (d : StrategyDocument) (f : RunRecord → RunRecord) : StrategyDocument :=
  { d with runs := d.runs.map f }

def StrategyDocument.push (d : StrategyDocument) (r : RunRecord) : StrategyDocument :=
  { d with runs := d.runs ++ [r] }

/-- A document and the mutations made pending in its history, newest first. -/
structure Version where
  doc : StrategyDocument
  made : List (String × PendingAction)
  deriving DecidableEq

/-! ## Callers and runs -/

/-- The digest of a scope or a fingerprint: 64 hexadecimal digits. -/
structure Digest where
  text : String
  wf : byteLen text = 64 ∧ text.toList.all isHex
  deriving DecidableEq

inductive PluginSource
  | builtIn
  | localDeclarative
  deriving DecidableEq, Repr

structure PluginIdentity where
  id : String
  source : PluginSource
  publisherId : String
  approvalFingerprint : Digest
  deriving DecidableEq

/-- The text of `approval_fingerprint`. -/
def PluginIdentity.fingerprint (p : PluginIdentity) : String := "v1:sha256:" ++ p.approvalFingerprint.text

structure AccountAuthority where
  account : Account
  privateSession : String
  deriving DecidableEq, Repr

structure AuthorityRequest where
  pluginId : String
  contributionId : String
  expectedCatalogGeneration : String
  expectedRevision : String
  deriving DecidableEq, Repr

def AuthorityRequest.validate (r : AuthorityRequest) : Bool :=
  reverseDomain r.pluginId && reverseDomain r.contributionId &&
    (counter r.expectedCatalogGeneration).toOption.isSome && (counter r.expectedRevision).toOption.isSome

structure StrategyStartRequest where
  authorizationToken : String
  requestId : String
  resumeRunId : Option String
  symbol : String
  inputJson : String
  capabilities : List String
  policy : StrategyPolicy
  acknowledgeAutomaticTrading : Bool
  deriving DecidableEq, Repr

def StrategyStartRequest.validate (K : Crates) (r : StrategyStartRequest) : Bool :=
  K.uuid r.authorizationToken && K.uuid r.requestId && r.resumeRunId.all K.uuid && r.acknowledgeAutomaticTrading &&
    (EasiFlux.symbol r.symbol).toOption.isSome && validateInput K r.inputJson && validateCapabilities r.capabilities &&
    (!r.capabilities.contains "trade.cancel" || r.capabilities.contains "orders.read") &&
    validateManagementDependencies r.capabilities && r.policy.validate

structure Ticket where
  request : AuthorityRequest
  identity : PluginIdentity
  authority : AccountAuthority
  scope : Digest
  epoch : ℕ
  admission : ℕ
  deadline : ℕ

/-- What a pass reads before the guest runs. -/
structure Reading where
  record : RunRecord
  observed : ℕ
  observedWall : ℕ

/-- Where a worker is between two lock sections or awaits. -/
inductive Phase
  /-- the top of `worker_loop` -/
  | loop
  /-- the clock was checked, `pass` is called -/
  | pass
  /-- the record is copied -/
  | copied (record : RunRecord)
  /-- the gate is held, the binding not yet checked -/
  | entered (record : RunRecord)
  /-- the snapshot is being read -/
  | reading (c : Reading)
  /-- the guest computes, with no lock held -/
  | computing (c : Reading) (snapshot : Snapshot)
  | computed (c : Reading) (snapshot : Snapshot) (output : StrategyOutput)
  /-- the gate is held again -/
  | gated (c : Reading) (snapshot : Snapshot) (output : StrategyOutput)
  | checked (c : Reading) (snapshot : Snapshot) (output : StrategyOutput)
  | refreshed (c : Reading) (snapshot : Snapshot) (output : StrategyOutput)
  | validated (c : Reading) (output : StrategyOutput) (action : StrategyAction)
  /-- the action is saved as the pending one -/
  | prepared (c : Reading) (p : PendingAction)
  /-- refused after that: closed as a local rejection -/
  | rejecting (p : PendingAction) (failure : AppError)
  /-- admitted: the next step calls the host -/
  | dispatching (c : Reading) (p : PendingAction)
  /-- the host has the call; `denied` is what its admission check last failed with -/
  | calling (c : Reading) (p : PendingAction) (denied : Option AppError)
  /-- the response is saved, the journal entry not yet acknowledged -/
  | acknowledging (p : PendingAction) (order : Order) (denied : Option AppError)
  | returning (denied : Option AppError)
  /-- `pass` returned an error -/
  | failed (failure : AppError)
  | marking (status : StrategyStatus) (reason : String)
  /-- `pass` returned `Ok(true)` or found something busy -/
  | resting
  | sleeping (completed wall : ℕ)
  /-- the loop has returned -/
  | finishing

/-- Whether the worker holds the operation gate. -/
def Phase.holdsGate : Phase → Bool
  | .entered _ | .reading _ | .gated .. | .checked .. | .refreshed .. | .validated .. | .prepared .. | .rejecting ..
  | .dispatching .. | .calling .. | .acknowledging .. | .returning _ => true
  | _ => false

/-- A live run: the fields of `Live`, and its worker. -/
structure Session where
  runId : String
  identity : PluginIdentity
  authority : AccountAuthority
  epoch : ℕ
  /-- 0 none, 1 pause, 2 stop -/
  intent : ℕ
  deadline : ℕ
  lastWall : ℕ
  clockAnchor : ℕ
  wallAnchorMs : ℕ
  /-- `policy.interval_ms` of its record, which never changes -/
  intervalMs : ℕ
  phase : Phase

def Session.revoke (s : Session) (stop : Bool) : Session := { s with intent := max s.intent (if stop then 2 else 1) }

/-- The worker goes on to another phase. -/
def Session.goto (s : Session) (phase : Phase) : Session := { s with phase := phase }

/-- `u64::MAX` -/
def u64Max : ℕ := 2 ^ 64 - 1

/-- The wall time floor of `save`: the anchor and the elapsed milliseconds. -/
def Session.floor (s : Session) (mono : ℕ) : ℕ :=
  min (s.wallAnchorMs + min ((mono - s.clockAnchor) / 1000000) u64Max) u64Max

inductive RecoveryPhase
  | asking
  | acknowledging (order : Order)
  | ended

/-- A `reconcile` that holds the gate. -/
structure Recovery where
  runId : String
  record : RunRecord
  pending : PendingAction
  phase : RecoveryPhase

/-- A control that revoked the intents and waits for the lock. -/
inductive Control
  | one (runId : String) (stop : Bool)
  | all
  deriving DecidableEq, Repr

/-- `control` refuses an id that is no uuid before it revokes anything. -/
def Control.valid (K : Crates) : Control → Bool
  | .one id _ => K.uuid id
  | .all => true

/-- What an observer of the store and the host sees. -/
inductive Event
  | saved (doc : StrategyDocument)
  | resumed (runId : String)
  | handed (runId : String) (pending : PendingAction) (call : HostCall)

/-! ## The system -/

structure World where
  memory : Version
  /-- the last document the store acknowledged -/
  durable : Version
  /-- those it failed to save since, and may still hold -/
  unacked : List Version
  tickets : List (String × Ticket)
  live : List Session
  unavailable : Bool
  admission : ℕ
  closed : Bool
  epoch : ℕ
  mono : ℕ
  /-- the controls that wait for the lock -/
  waiting : List Control
  recovery : Option Recovery
  /-- newest first -/
  trace : List Event
  /-- the documents passed to `StrategyStore::save` -/
  offered : List StrategyDocument
  /-- every uuid in use so far -/
  minted : List String
  /-- nanoseconds in which a run could dispatch -/
  spent : String → ℕ

/-- What the store makes of a document it accepts: a failed save may leave it in the
files. -/
inductive Stored
  | ok
  | lost
  | kept
  deriving DecidableEq, Repr

/-- A save reads the wall clock and may fail. -/
structure SaveInput where
  wall : UInt64
  stored : Stored

namespace World

def session (w : World) (id : String) : Option Session := w.live.find? fun s => s.runId = id

/-- `inner.live.contains_key(id)` -/
def isLive (w : World) (id : String) : Bool := (w.session id).isSome

/-- `self.state(id)` -/
def state (w : World) (id : String) : Option RunRecord := w.memory.doc.find id

def gateFree (w : World) : Bool := w.recovery.isNone && w.live.all fun s => !s.phase.holdsGate

/-- `admission_epoch().ok()` -/
def admissionEpoch (w : World) : Option ℕ := if w.closed ∨ w.admission = u64Max then none else some w.admission

/-- A save raises the time a live run was last observed. -/
def observe (w : World) (wall : ℕ) (r : RunRecord) : RunRecord :=
  match w.session r.view.runId with
  | none => r
  | some s => { r with lastObservedAtMs := max (max r.lastObservedAtMs wall) (s.floor w.mono) }

/-- The document that `save` offers to the store. -/
def prepare (w : World) (next : Version) (wall : ℕ) : Version :=
  { next with doc := { next.doc.mapRuns (w.observe wall) with revision := w.memory.doc.revision + 1 } }

/-- Every run is revoked and shows the failure. -/
def storageFailed (w : World) (next : Version) : World :=
  { w with
    unavailable := true
    tickets := []
    live := w.live.map (·.revoke false)
    memory := { next with doc := next.doc.mapRuns RunRecord.overlay } }

/-- The store acknowledged the document. -/
def stored (w : World) (next : Version) : World :=
  { w with
    memory := next
    durable := next
    unacked := []
    trace := .saved next.doc :: w.trace
    offered := next.doc :: w.offered }

/-- The store failed, and may still hold the document. -/
def notStored (w : World) (next : Version) (kept : Bool) : World :=
  { w.storageFailed next with
    unacked := if kept then next :: w.unacked else w.unacked
    offered := next.doc :: w.offered }

/-- `StrategyStore::save` on the document that `prepare` made. -/
def offer (K : Crates) (w : World) (next : Version) (result : Stored) : World × Bool :=
  if next.doc.validate K then
    match result with
    | .ok => (w.stored next, true)
    | .kept => (w.notStored next true, false)
    | .lost => (w.notStored next false, false)
  else (w.notStored next false, false)

/-- `StrategySupervisor::save`; whether it returned `Ok`. -/
def save (K : Crates) (w : World) (next : Version) (i : SaveInput) : World × Bool :=
  if w.memory.doc.revision + 1 < 2 ^ 64 then
    let next := w.prepare next i.wall.toNat
    if w.unavailable then (w.storageFailed next, false) else w.offer K next i.stored
  else (w, false)

/-- The document in memory with another record for `id`. -/
def edit (w : World) (id : String) (r : RunRecord) : Version := { w.memory with doc := w.memory.doc.put id r }

/-- `mark` -/
def mark (K : Crates) (w : World) (id : String) (status : StrategyStatus) (reason : String) (i : SaveInput) : World :=
  match w.state id with
  | none => w
  | some r => (w.save K (w.edit id (r.setStatus status (some reason))) i).1

/-- A uuid that no part of the system has seen. -/
def freshId (K : Crates) (w : World) (id : String) : Bool := K.uuid id && !w.minted.contains id

/-! ## Controls -/

/-- `revoke_intent` on the live runs. -/
def revokeRuns (w : World) : Control → World
  | .one id stop => { w with live := w.live.map fun s => if s.runId = id then s.revoke stop else s }
  | .all => { w with live := w.live.map (·.revoke true) }

/-- The first half of `control` and `stop_all`, before the lock. -/
def revokeIntent (w : World) (k : Control) : World :=
  if w.admission < u64Max then
    { ({ w with admission := w.admission + 1 } : World).revokeRuns k with waiting := k :: w.waiting }
  else w

/-- The lock section of `control` and `stop_all`. -/
def lockSection (K : Crates) (w : World) (k : Control) (i : SaveInput) : World :=
  let w := { w with tickets := [] }
  match k with
  | .one id stop =>
    match w.state id with
    | none => w
    | some r => (w.save K (w.edit id (r.control (w.isLive id) stop)) i).1
  | .all =>
    if w.memory.doc.runs.isEmpty then w
    else (w.save K { w.memory with doc := w.memory.doc.mapRuns fun r => r.stopAll (w.isLive r.view.runId) } i).1

/-- `revoke_for_exit` -/
def exit (w : World) : World :=
  let w := { w with closed := true }
  if w.admission < u64Max then ({ w with admission := w.admission + 1 } : World).revokeRuns .all else w

/-! ## Access and start -/

/-- The result of `access`, a ticket under a new token. -/
structure Access where
  request : AuthorityRequest
  identity : PluginIdentity
  authority : AccountAuthority
  scope : Digest
  token : String

def access (K : Crates) (w : World) (i : Access) : World :=
  match w.admissionEpoch with
  | none => w
  | some admission =>
    let tickets := w.tickets.filter fun t => w.mono < t.2.deadline
    if i.request.validate ∧ !w.unavailable ∧ w.epoch < u64Max ∧ w.gateFree ∧ w.freshId K i.token then
      if tickets.length < 32 then
        { w with
          tickets := (i.token, ⟨i.request, i.identity, i.authority, i.scope, w.epoch, admission,
            w.mono + 60 * 1000000000⟩) :: tickets
          minted := i.token :: w.minted }
      else { w with tickets := tickets }
    else w

/-- What `start` finds: the host's answers and readings, the uuid of a new run, how
long ago the clock anchor was read, and the control that comes while it saves. -/
structure Start where
  request : StrategyStartRequest
  identity : PluginIdentity
  requested : List String
  authority : AccountAuthority
  scope : Digest
  now : UInt64
  begun : ℕ
  runId : String
  save : SaveInput
  raced : Option Control
  second : SaveInput

/-- Whether the ticket still holds. -/
def ticketHolds (w : World) (t : Ticket) (i : Start) : Bool :=
  w.mono < t.deadline && w.epoch < u64Max && t.epoch = w.epoch && i.identity = t.identity && i.authority = t.authority &&
    i.scope = t.scope && i.request.capabilities.all (i.requested.contains ·)

/-- A run of the account is live, or one of the account and environment is
unresolved. -/
def blocked (w : World) (account : Account) : Bool :=
  w.memory.doc.runs.any fun r =>
    (w.isLive r.view.runId && r.view.account.accountId = account.accountId) ||
      (r.pending.isSome && r.view.account.accountId = account.accountId &&
        r.view.account.environment = account.environment)

/-- The checks on a run to resume. -/
def resumable (t : Ticket) (i : Start) (r : RunRecord) : Bool :=
  (r.view.status = .paused || r.view.status = .stopped || r.view.status = .faulted) && r.pending.isNone &&
    r.fingerprint = i.identity.fingerprint && r.scope = i.scope.text && r.view.pluginId = t.request.pluginId &&
    r.view.contributionId = t.request.contributionId && r.view.account.accountId = i.authority.account.accountId &&
    r.view.account.environment = i.authority.account.environment && r.view.symbol = i.request.symbol &&
    r.view.inputJson = i.request.inputJson && r.view.capabilities = i.request.capabilities &&
    r.view.policy = i.request.policy && r.lastObservedAtMs ≤ i.now.toNat && i.now.toNat < r.view.expiresAtMs &&
    r.view.actionsSubmitted < r.view.policy.maxActions

/-- The record of a new run. -/
def newRecord (t : Ticket) (i : Start) : RunRecord where
  view :=
    { schemaVersion := 1, runId := i.runId, requestId := i.request.requestId, pluginId := t.request.pluginId,
      contributionId := t.request.contributionId, account := i.authority.account, symbol := i.request.symbol,
      status := .running, reason := none, policy := i.request.policy, capabilities := i.request.capabilities,
      inputJson := i.request.inputJson, startedAtMs := i.now.toNat,
      expiresAtMs := i.now.toNat + i.request.policy.maxRunSeconds * 1000, sequence := 0, actionsSubmitted := 0,
      totalSubmittedQty := "0", lastMessage := "", lastReceipt := none }
  fingerprint := i.identity.fingerprint
  scope := i.scope.text
  state := "\x7b\x7d"
  owned := ∅
  pending := none
  lastObservedAtMs := i.now.toNat

/-- The record of the run that starts, as it is saved. -/
def startRecord (r : RunRecord) (i : Start) : RunRecord :=
  { r with view := { r.view with
      status := .running, reason := none, requestId := i.request.requestId, account := i.authority.account } }

/-- The run that starts and the document it is saved in. -/
def startRun (K : Crates) (w : World) (t : Ticket) (i : Start) : AppResult (RunRecord × StrategyDocument) :=
  match i.request.resumeRunId with
  | some id => do
    let r ← okOr (w.state id) (strategyError "plugin_strategy_invalid_request")
    ensure (resumable t i r) (strategyError "plugin_strategy_stale")
    pure (startRecord r i, w.memory.doc.put id (startRecord r i))
  | none => do
    ensure (w.memory.doc.runs.length < 32) (strategyError "plugin_strategy_capacity")
    -- a new run has a uuid no other has
    ensure (w.freshId K i.runId) (strategyError "plugin_strategy_unavailable")
    ensure (i.now.toNat + i.request.policy.maxRunSeconds * 1000 < 2 ^ 64)
      (strategyError "plugin_strategy_invalid_request")
    pure (startRecord (newRecord t i) i, w.memory.doc.push (startRecord (newRecord t i) i))

/-- The checks of `start_owned` before it saves. -/
def admitStart (K : Crates) (w : World) (t : Ticket) (i : Start) : AppResult (RunRecord × StrategyDocument) := do
  ensure (w.ticketHolds t i) (strategyError "plugin_strategy_stale")
  ensure (!w.unavailable) storageUnavailable
  ensure (w.admissionEpoch = some t.admission ∧ (∀ r ∈ w.memory.doc.runs, r.view.requestId ≠ i.request.requestId) ∧
    w.live.length < 4) (strategyError "plugin_strategy_stale")
  ensure (!w.blocked i.authority.account) (strategyError "plugin_strategy_recovery_required")
  w.startRun K t i

/-- The `Live` of a run that starts. -/
def newSession (w : World) (t : Ticket) (i : Start) (r : RunRecord) : Session where
  runId := r.view.runId
  identity := i.identity
  authority := i.authority
  epoch := t.epoch
  intent := 0
  deadline := (w.mono - i.begun) + (r.view.expiresAtMs - i.now.toNat) * 1000000
  lastWall := i.now.toNat
  clockAnchor := w.mono - i.begun
  wallAnchorMs := i.now.toNat
  intervalMs := r.view.policy.intervalMs
  phase := .loop

/-- The run that starts is saved. -/
def startSave (K : Crates) (w : World) (i : Start) (r : RunRecord) (doc : StrategyDocument) : World × Bool :=
  ({ w with minted := r.view.runId :: w.minted } : World).save K { w.memory with doc := doc } i.save

/-- A resumed run is noted. -/
def noteStart (w : World) (i : Start) (r : RunRecord) : World :=
  if i.request.resumeRunId.isSome then { w with trace := .resumed r.view.runId :: w.trace } else w

/-- The control that came while the run was saved. -/
def race (w : World) (i : Start) : World :=
  match i.raced with
  | none => w
  | some k => w.revokeIntent k

/-- The run becomes live, or is stopped when a control came meanwhile. -/
def goLive (K : Crates) (w : World) (t : Ticket) (i : Start) (r : RunRecord) : World :=
  if w.admissionEpoch = some t.admission then { w with live := w.newSession t i r :: w.live }
  else
    match w.state r.view.runId with
    | none => w
    | some r' => (w.save K (w.edit r.view.runId (r'.setStatus .stopped (stopReason true))) i.second).1

/-- `start_owned` with the ticket of its token. -/
def startWith (K : Crates) (w : World) (t : Ticket) (i : Start) : World :=
  match w.admitStart K t i with
  | .error _ => w
  | .ok (r, doc) =>
    if (w.startSave K i r doc).2 then (((w.startSave K i r doc).1.noteStart i r).race i).goLive K t i r
    else (w.startSave K i r doc).1

def start (K : Crates) (w : World) (i : Start) : World :=
  if i.request.validate K ∧ !w.unavailable ∧ w.gateFree then
    match w.tickets.lookup i.request.authorizationToken with
    | none => w
    | some t =>
      ({ w with tickets := w.tickets.filter (·.1 ≠ i.request.authorizationToken) } : World).startWith K t i
  else w

/-! ## Restart -/

/-- `StrategySupervisor::new` on what `load` returned; nothing else survives. -/
def boot (w : World) (loaded : Option Version) : World :=
  { w with
    memory := match loaded with
      | some v => { v with doc := v.doc.mapRuns RunRecord.restore }
      | none => ⟨.default, []⟩
    unavailable := loaded.isNone
    tickets := []
    live := []
    admission := 0
    closed := false
    waiting := []
    recovery := none }

/-- A new process. The store returns a document it may hold, or fails. -/
def restart (K : Crates) (w : World) (pick : Option ℕ) : World :=
  w.boot ((pick.bind fun n => (w.durable :: w.unacked)[n]?).filter fun v => v.doc.validate K)

end World

/-- The uuids a record uses. -/
def RunRecord.ids (r : RunRecord) : List String :=
  r.view.runId :: r.owned.entries.map (fun e => e.2.submissionId) ++ (r.pending.bind (·.submissionId)).toList

/-- Before any process, a store that holds `doc`. -/
def World.store (doc : StrategyDocument) : World where
  memory := ⟨doc, []⟩
  durable := ⟨doc, []⟩
  unacked := []
  tickets := []
  live := []
  unavailable := false
  admission := 0
  closed := false
  epoch := 0
  mono := 0
  waiting := []
  recovery := none
  trace := []
  offered := []
  minted := doc.runs.flatMap RunRecord.ids
  spent := fun _ => 0

/-- The first process on that store. -/
def World.init (K : Crates) (doc : StrategyDocument) : World := (World.store doc).restart K (some 0)

end EasiFlux
