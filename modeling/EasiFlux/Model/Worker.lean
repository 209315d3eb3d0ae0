import EasiFlux.Model.Supervisor

/-!
# Workers, recovery and runs of the system

The worker of a live run (`worker_loop` and `pass` of `execution.rs`), the recovery
of an unresolved action (`recovery.rs`), and the step function of the whole system.

`move` says what a worker does next: it goes on without a lock section, saves a
document and goes on by the result, or calls the host. What it reads from outside
(clocks, the guest, the host, the registry) is in the `Move`.
-/

namespace EasiFlux

open Fixed Results

/-- The registry's and the host's answer to `check_binding`. -/
abbrev Binding := AppResult (PluginIdentity × AccountAuthority)

/-- The two wall clock readings of `check_dispatch`. -/
structure Clock where
  now : UInt64
  later : UInt64

namespace World

variable (w : World) (s : Session)

def checkBinding (binding : Binding) : AppResult Unit := do
  ensure (s.intent = 0 ∧ w.epoch < u64Max ∧ w.epoch = s.epoch) (strategyError "plugin_strategy_stale")
  let (identity, authority) ← binding
  ensure (identity = s.identity ∧ authority = s.authority) (strategyError "plugin_strategy_stale")

/-- The code `clock_check` fails with. -/
def clockCheck (expiresAtMs now : ℕ) : Option String :=
  if now < s.lastWall then some "plugin_strategy_stale"
  else if s.deadline ≤ w.mono ∨ expiresAtMs ≤ now then some "plugin_strategy_expired"
  else none

def checkDispatch (c : Reading) (clock : Clock) : AppResult Unit :=
  match w.clockCheck s c.record.view.expiresAtMs clock.now.toNat with
  | some code => .error (strategyError code)
  | none => do
    ensure (w.mono - c.observed ≤ 30 * 1000000000 ∧ c.observedWall ≤ clock.later.toNat ∧
      clock.later.toNat - c.observedWall ≤ 30000) (strategyError "plugin_strategy_data_unavailable")
    ensure (w.epoch < u64Max ∧ w.epoch = s.epoch ∧ s.intent = 0) (strategyError "plugin_strategy_stale")

/-- `check_binding` and then `check_dispatch`. -/
def check (c : Reading) (binding : Binding) (clock : Clock) : AppResult Unit := do
  w.checkBinding s binding
  w.checkDispatch s c clock

end World

/-- The code that a failed pass is marked with. -/
def failureCode : AppError → String
  | .plugin code _ _ => if code ∈ reasons then code else "plugin_strategy_unavailable"
  | _ => "plugin_strategy_unavailable"

def failureStatus (code : String) : StrategyStatus :=
  if code = "plugin_strategy_stale" ∨ code = "plugin_strategy_data_unavailable" then .paused
  else if code = "plugin_strategy_expired" ∨ code = "plugin_strategy_limit_reached" then .completed
  else .faulted

/-- `AppError::Plugin { code: "plugin_strategy_busy", .. }` -/
def AppError.isBusy : AppError → Bool
  | .plugin code _ _ => code == "plugin_strategy_busy"
  | _ => false

/-- The next step of a worker and what it meets. -/
inductive Move
  | turn (now : UInt64)
  | copy
  | enter
  | bind (binding : Binding) (lease : AppResult Unit) (now : UInt64)
  | snapshot (result : AppResult Snapshot)
  | compute (result : AppResult StrategyOutput)
  | gate (signalled : Bool)
  | check (binding : Binding) (clock : Clock)
  | refresh (result : AppResult Snapshot)
  | commit (now : UInt64) (i : SaveInput) (id : String)
  | reject (i : SaveInput)
  | hand
  | permit (clock : Clock)
  | respond (response : AppResult StrategyMutationResponse) (i : SaveInput)
  | acknowledge (ok : Bool) (i : SaveInput)
  | settle
  | fail
  | mark (i : SaveInput)
  | rest (now : UInt64)
  | wake (now : UInt64)
  | panic
  | finish (i : SaveInput)

/-- What a move does. -/
inductive Effect
  | none
  | go (phase : Phase) (lastWall : ℕ)
  | save (next : Version) (i : SaveInput) (stored failed : Phase) (minted : List String)
  | hand (pending : PendingAction) (call : HostCall) (phase : Phase)
  | finish (i : SaveInput)

namespace World

variable (K : Crates) (w : World) (s : Session)

/-- On to `phase`; the clock was not read. -/
def onto (phase : Phase) : Effect := .go phase s.lastWall

/-- On to `next` or to the failure of the pass. -/
def orFail {α : Type} (result : AppResult α) (next : α → Phase) : Effect :=
  match result with
  | .ok a => onto s (next a)
  | .error e => onto s (.failed e)

/-- On after a check that read the wall clock. -/
def afterCheck (result : AppResult Unit) (now : UInt64) (next : Phase) (otherwise : AppError → Phase) : Effect :=
  match result with
  | .ok () => .go next (max s.lastWall now.toNat)
  | .error e => .go (otherwise e) (max s.lastWall now.toNat)

/-- The top of the loop. -/
def turn (now : UInt64) : Effect :=
  if s.intent ≠ 0 then onto s .finishing
  else match w.state s.runId with
    | none => onto s .finishing
    | some r => match w.clockCheck s r.view.expiresAtMs now.toNat with
      | none => .go .pass (max s.lastWall now.toNat)
      | some code => .go (.marking (if code = "plugin_strategy_expired" then .completed else .paused) code)
          (max s.lastWall now.toNat)

/-- `pass` copies the record. -/
def copyRecord : AppResult RunRecord := do
  let r ← okOr (w.state s.runId) (strategyError "plugin_strategy_stale")
  ensure r.pending.isNone (strategyError "plugin_strategy_recovery_required")
  pure r

/-- The binding is checked and a compute slot taken; the run may be revoked since. -/
def bindPass (binding : Binding) (lease : AppResult Unit) : AppResult Unit := do
  w.checkBinding s binding
  lease

/-- The guest's output is checked, and the run not revoked. -/
def acceptOutput (result : AppResult StrategyOutput) : AppResult StrategyOutput := do
  let output ← result
  ensure (output.validate K) (strategyError "plugin_strategy_invalid_output")
  ensure (s.intent = 0) (strategyError "plugin_strategy_stale")
  pure output

/-- Whether an action is checked against a second snapshot. -/
def needsFresh : StrategyAction → Bool
  | .cancelOrder _ | .amendOrder _ | .placeProtectedOrder _ _ => true
  | _ => false

/-- The record to commit on: the run may go on, and nothing was committed since the
copy. -/
def commitBase (c : Reading) : AppResult RunRecord := do
  ensure (!w.unavailable) storageUnavailable
  ensure (s.intent = 0 ∧ w.epoch < u64Max ∧ w.epoch = s.epoch) (strategyError "plugin_strategy_stale")
  let r ← okOr (w.state s.runId) (strategyError "plugin_strategy_stale")
  ensure (r.view.sequence = c.record.view.sequence ∧ r.pending = none) (strategyError "plugin_strategy_stale")
  pure r

/-- A pass without a mutation is saved as it is. -/
def commitRest (r : RunRecord) (output : StrategyOutput) (i : SaveInput) (keep : Bool) : Effect :=
  let r := r.rest output
  let r := if keep then r else r.setStatus .completed none
  .save (w.edit s.runId r) i (if keep then .resting else .finishing) (.failed storageUnavailable) []

/-- A mutation is saved as the pending action. -/
def commitPending (r : RunRecord) (c : Reading) (action : StrategyAction) (pending : PendingAction) (i : SaveInput) :
    Effect :=
  match commitMutation K r action pending with
  | .error e => onto s (.failed e)
  | .ok r' => .save { (w.edit s.runId r') with made := (s.runId, pending) :: w.memory.made } i (.prepared c pending)
      (.failed storageUnavailable) pending.submissionId.toList

/-- The commit section of `pass`; `id` is the uuid it mints for a placement. -/
def commit (c : Reading) (output : StrategyOutput) (action : StrategyAction) (now : UInt64) (i : SaveInput) (id : String) :
    Effect :=
  match w.commitBase s c with
  | .error e => onto s (.failed e)
  | .ok r =>
    let sequence := c.record.view.sequence + 1
    let r := r.advance sequence now.toNat
    match action with
    | .none => w.commitRest s r output i true
    | .stop => w.commitRest s r output i false
    | action =>
      if action.isPlacement ∧ !w.freshId K id then .none
      else w.commitPending K s r c action (pendingOf action output sequence id) i

/-- The first section of `account_response`. -/
def respond (p : PendingAction) (response : AppResult StrategyMutationResponse) (i : SaveInput)
    (acknowledge : Order → Phase) (done : Phase) : Effect :=
  match w.state s.runId with
  | none => onto s (.failed (strategyError "plugin_strategy_stale"))
  | some r => match respondRecord r p response with
    | .error e => onto s (.failed e)
    | .ok (r', order) => .save (w.edit s.runId r') i (match order with
        | some order => acknowledge order
        | none => done) (.failed storageUnavailable) []

/-- The second section, or the mark when the journal could not be acknowledged. -/
def acknowledge (p : PendingAction) (denied : Option AppError) (ok : Bool) (i : SaveInput) : Effect :=
  match w.state s.runId with
  | none => onto s (.failed (strategyError "plugin_strategy_stale"))
  | some r =>
    if ok then
      match clearRecord r p with
      | .error e => onto s (.failed e)
      | .ok r' => .save (w.edit s.runId r') i (.returning denied) (.failed storageUnavailable) []
    else
      .save (w.edit s.runId (r.setStatus .recoveryRequired (some "plugin_strategy_ack_failed"))) i (.returning denied)
        (.returning denied) []

/-- The result of a pass that was not refused. -/
def settle (denied : Option AppError) : Effect :=
  match denied, w.state s.runId with
  | some failure, _ => onto s (.failed failure)
  | none, none => onto s (.failed (strategyError "plugin_strategy_stale"))
  | none, some r => onto s (if s.intent = 0 ∧ r.pending.isNone then .resting else .finishing)

/-- What the loop makes of a failed pass. -/
def failPass (failure : AppError) : Effect :=
  if failure.isBusy then onto s .resting
  else if s.intent ≠ 0 then onto s .finishing
  else onto s (.marking (failureStatus (failureCode failure)) (failureCode failure))

/-- The end of the wait between two passes. -/
def wake (completed wall : ℕ) (now : UInt64) : Effect :=
  let maxGap := max 30000 (s.intervalMs * 3)
  if s.intent ≠ 0 then onto s .finishing
  else if w.mono < completed + s.intervalMs * 1000000 then .none
  else if maxGap * 1000000 < w.mono - completed ∨ now.toNat < wall ∨ maxGap < now.toNat - wall then
    onto s (.marking .paused "plugin_strategy_stale")
  else onto s .loop

/-- `mark` by the worker, which then returns. -/
def markRun (status : StrategyStatus) (reason : String) (i : SaveInput) : Effect :=
  match w.state s.runId with
  | none => onto s .finishing
  | some r => .save (w.edit s.runId (r.setStatus status (some reason))) i .finishing .finishing []

/-- The next step of a worker; a move that its phase does not have is none. -/
def move (m : Move) : Effect :=
  match s.phase, m with
  | .loop, .turn now => w.turn s now
  | .pass, .copy => orFail s (w.copyRecord s) .copied
  | .copied record, .enter =>
    if w.gateFree then onto s (.entered record) else onto s (.failed (strategyError "plugin_strategy_busy"))
  | .entered record, .bind binding lease now =>
    orFail s (w.bindPass s binding lease) fun _ => .reading ⟨record, w.mono, now.toNat⟩
  | .reading c, .snapshot result => orFail s (do
      let snapshot ← result
      ensure (c.record.view.sequence + 1 < 2 ^ 64) (strategyError "plugin_strategy_limit_reached")
      pure snapshot) (.computing c)
  | .computing c snapshot, .compute result => orFail s (acceptOutput K s result) (.computed c snapshot)
  | .computed c snapshot output, .gate signalled =>
    if signalled then onto s (.failed (strategyError "plugin_strategy_stale"))
    else if w.gateFree then onto s (.gated c snapshot output) else .none
  | .gated c snapshot output, .check binding clock =>
    afterCheck s (w.check s c binding clock) clock.now (.checked c snapshot output) .failed
  | .checked c snapshot output, .refresh result =>
    if needsFresh output.action then orFail s result fun fresh => .refreshed c fresh output
    else onto s (.refreshed c snapshot output)
  | .refreshed c snapshot output, .check binding clock =>
    match validateAction K c.record output.action snapshot with
    | .ok action => afterCheck s (w.check s c binding clock) clock.now (.validated c output action) .failed
    | .error e => afterCheck s (w.check s c binding clock) clock.now (.failed e) .failed
  | .validated c output action, .commit now i id => w.commit K s c output action now i id
  | .prepared c p, .check binding clock =>
    afterCheck s (w.check s c binding clock) clock.now (.dispatching c p) (.rejecting p)
  | .rejecting p failure, .reject i =>
    w.respond s p (.error (.orderSubmissionRejected "local admission revoked")) i (.acknowledging p · (some failure))
      (.failed failure)
  | .dispatching c p, .hand =>
    match hostCall s.authority.account c.record p with
    | .error e => onto s (.failed e)
    | .ok call => .hand p call (.calling c p none)
  | .calling c p denied, .permit clock =>
    afterCheck s (w.checkDispatch s c clock) clock.now (.calling c p denied) fun e => .calling c p (some e)
  | .calling _ p denied, .respond response i => w.respond s p response i (.acknowledging p · denied) (.returning denied)
  | .acknowledging p _ denied, .acknowledge ok i => w.acknowledge s p denied ok i
  | .returning denied, .settle => w.settle s denied
  | .failed failure, .fail => failPass s failure
  | .marking status reason, .mark i => w.markRun s status reason i
  | .resting, .rest now => onto s (.sleeping w.mono now.toNat)
  | .sleeping completed wall, .wake now => w.wake s completed wall now
  | .finishing, .finish i => .finish i
  | .marking .., .panic | .finishing, .panic => .none
  | _, .panic => onto s (.marking .faulted "plugin_strategy_unavailable")
  | _, _ => .none

/-- The worker of `id` goes on to `phase`. -/
def setPhase (id : String) (phase : Phase) : World :=
  { w with live := w.live.map fun s => if s.runId = id then s.goto phase else s }

/-- `finish`: the run is saved and leaves the live map. -/
def finish (i : SaveInput) : World :=
  let saved :=
    if w.unavailable then w
    else match w.state s.runId with
      | none => (w.save K w.memory i).1
      | some r => (w.save K (w.edit s.runId (r.finish s.intent)) i).1
  { saved with live := saved.live.filter fun t => t.runId ≠ s.runId }

/-- What a move does to the system. -/
def apply : Effect → World
  | .none => w
  | .go phase lastWall =>
    { w with live := w.live.map fun t =>
        if t.runId = s.runId then { t.goto phase with lastWall := lastWall } else t }
  | .save next i stored failed minted =>
    let (w, ok) := w.save K next i
    { w.setPhase s.runId (if ok then stored else failed) with minted := minted ++ w.minted }
  | .hand pending call phase =>
    ({ w with trace := .handed s.runId pending call :: w.trace } : World).setPhase s.runId phase
  | .finish i => w.finish K s i

/-! ## Recovery -/

/-- `reconcile` takes the gate and copies the record of a run that is not live. -/
def reconcileBegin (id : String) (current : AppResult AccountAuthority) (scope : AppResult Digest) :
    AppResult Recovery := do
  ensure (K.uuid id ∧ w.gateFree) (strategyError "plugin_strategy_invalid_request")
  ensure (!w.unavailable) storageUnavailable
  ensure (!w.isLive id) (strategyError "plugin_strategy_busy")
  let record ← okOr (w.state id) (strategyError "plugin_strategy_stale")
  let pending ← okOr record.pending (strategyError "plugin_strategy_invalid_request")
  let current ← current.mapError fun _ => strategyError "plugin_strategy_stale"
  ensure (current.account.accountId = record.view.account.accountId ∧
    current.account.environment = record.view.account.environment) (strategyError "plugin_strategy_stale")
  let scope ← scope.mapError fun _ => strategyError "plugin_strategy_stale"
  ensure (scope.text = record.scope) (strategyError "plugin_strategy_stale")
  pure ⟨id, record, pending, .asking⟩

/-- What must hold of the record before the exchange is asked. -/
def recoveryAsks (ρ : Recovery) : Bool :=
  match ρ.pending.action, ρ.pending.submissionId with
  | .amendOrder order, _ => ((ρ.record.owned.lookup order.orderId).bind (·.placement)).isSome
  | .placeProtectedOrder order protection, some id => ρ.record.owned.entries.all fun e =>
      e.2.submissionId ≠ id || e.2.placement = some (canonicalPlacement order id (some protection))
  | .placeProtectedOrder _ _, none => false
  | _, _ => true

/-- The response that a recovered order or rejection stands for. -/
def recoveryResponse (p : PendingAction) :
    AppResult (Option Order) → Option (AppResult StrategyMutationResponse)
  | .ok (some order) =>
    match p.action with
    | .cancelOrder _ =>
      if matchesResponse p order ∧ (order.status = .filled ∨ order.status = .cancelled ∨ order.status = .rejected) then
        some (.ok (.order order))
      else none
    | _ => if matchesResponse p order then some (.ok (.order order)) else none
  | .error failure =>
    match p.action with
    | .placeOrder _ => if knownRejection failure then some (.error failure) else none
    | _ => none
  | .ok none => none

inductive RecoveryMove
  | answer (result : AppResult (Option Order)) (i : SaveInput)
  | acknowledge (ok : Bool) (i : SaveInput)
  | done (i : SaveInput)

/-- The recovery goes on or, with `none`, returns and leaves the gate. -/
def recoverOn (ρ : Recovery) (phase : Option RecoveryPhase) : World :=
  { w with recovery := phase.map fun p => { ρ with phase := p } }

/-- A save of the recovered run. -/
def recoverSave (ρ : Recovery) (r : RunRecord) (i : SaveInput) (stored failed : Option RecoveryPhase) : World :=
  let (w, ok) := w.save K (w.edit ρ.runId r) i
  w.recoverOn ρ (if ok then stored else failed)

/-- The answer is accounted for. -/
def recoverAnswer (ρ : Recovery) (result : AppResult (Option Order)) (i : SaveInput) : World :=
  match (if recoveryAsks ρ then recoveryResponse ρ.pending result else none), w.state ρ.runId with
  | some response, some r =>
    match respondRecord r ρ.pending response with
    | .error _ => w.recoverOn ρ none
    | .ok (r', order) => w.recoverSave K ρ r' i (match order with
        | some order => some (.acknowledging order)
        | none => some .ended) none
  | _, _ => w.recoverOn ρ none

def recoverAcknowledge (ρ : Recovery) (ok : Bool) (i : SaveInput) : World :=
  match w.state ρ.runId with
  | none => w.recoverOn ρ none
  | some r =>
    if ok then
      match clearRecord r ρ.pending with
      | .error _ => w.recoverOn ρ none
      | .ok r' => w.recoverSave K ρ r' i (some .ended) none
    else w.recoverSave K ρ (r.setStatus .recoveryRequired (some "plugin_strategy_ack_failed")) i (some .ended) (some .ended)

/-- A resolved run is paused. -/
def recoverDone (ρ : Recovery) (i : SaveInput) : World :=
  match w.state ρ.runId with
  | none => w.recoverOn ρ none
  | some r =>
    if r.pending.isNone then w.recoverSave K ρ (r.setStatus .paused (stopReason false)) i none none
    else w.recoverOn ρ none

def recover (ρ : Recovery) (m : RecoveryMove) : World :=
  match ρ.phase, m with
  | .asking, .answer result i => w.recoverAnswer K ρ result i
  | .acknowledging _, .acknowledge ok i => w.recoverAcknowledge K ρ ok i
  | .ended, .done i => w.recoverDone K ρ i
  | _, _ => w

/-! ## Steps -/

/-- Monotonic time passes. A run can dispatch while it is live, not revoked, of the
current epoch and before its deadline. -/
def tick (d : ℕ) : World :=
  { w with
    mono := w.mono + d
    spent := fun id => match w.session id with
      | some s => if s.intent = 0 ∧ w.epoch = s.epoch then w.spent id + (min (w.mono + d) s.deadline - w.mono) else w.spent id
      | none => w.spent id }

inductive Act
  | tick (ns : ℕ)
  /-- the plugin catalog changes -/
  | newEpoch
  | access (i : Access)
  | start (i : Start)
  /-- `control` or `stop_all` revokes the intents -/
  | revoke (k : Control)
  /-- and has the lock -/
  | locked (k : Control) (i : SaveInput)
  | exit
  | worker (id : String) (m : Move)
  | reconcile (id : String) (current : AppResult AccountAuthority) (scope : AppResult Digest)
  | recover (m : RecoveryMove)
  /-- the process ends and a new one loads the store -/
  | restart (pick : Option ℕ)

/-- **One action of the system.** -/
def step : Act → World
  | .tick d => w.tick d
  | .newEpoch => { w with epoch := min (w.epoch + 1) u64Max }
  | .access i => w.access K i
  | .start i => w.start K i
  | .revoke k => if k.valid K then w.revokeIntent k else w
  | .locked k i => if k ∈ w.waiting then { w with waiting := w.waiting.erase k }.lockSection K k i else w
  | .exit => w.exit
  | .worker id m => match w.session id with
    | none => w
    | some s => w.apply K s (w.move K s m)
  | .reconcile id current scope => match w.reconcileBegin K id current scope with
    | .error _ => w
    | .ok ρ => { w with recovery := some ρ }
  | .recover m => match w.recovery with
    | none => w
    | some ρ => w.recover K ρ m
  | .restart pick => w.restart K pick

end World

/-! ## A run to try things on

One account, one plugin, and a policy of at most ten actions and sixty seconds. The
wall clock stands at one second. -/

namespace Sample

open World

def uuid (n : String) : String := "00000000-0000-0000-0000-0000000000" ++ n

def digest : Digest := ⟨"0123456789abcdef0123456789abcdef0123456789abcdef0123456789abcdef", by decide +kernel⟩

def identity : PluginIdentity := ⟨"a.b", .localDeclarative, "p", digest⟩

def authority : AccountAuthority := ⟨⟨"acc", "1", "https://x"⟩, "s"⟩

def capabilities : List String := ["account.read", "strategy.run", "trade.place"]

def policy : StrategyPolicy := ⟨5000, "20", "20", 10, 60, false⟩

def saved : SaveInput := ⟨1000, .ok⟩

def clock : Clock := ⟨1000, 1000⟩

def binding : Binding := .ok (identity, authority)

def access (authority : AccountAuthority) (token : String) : Act :=
  .access ⟨⟨"a.b", "a.c", "1", "1"⟩, identity, authority, digest, uuid token⟩

/-- The start of run `03`, or its resumption, at wall time `now`. -/
def start (authority : AccountAuthority) (token request : String) (resume : Option String) (now : UInt64) : Act :=
  .start ⟨⟨uuid token, uuid request, resume, "BTC", "\x7b\x7d", capabilities, policy, true⟩, identity, capabilities,
    authority, digest, now, 0, uuid "03", saved, none, saved⟩

/-- A step of the worker of run `03`. -/
def worker (m : Move) : Act := .worker (uuid "03") m

def started : List Act := [access authority "01", start authority "01" "02" none 1000]

/-- A pass up to the check of the guest's action. -/
def pass (action : StrategyAction) : List Act :=
  [.turn 1000, .copy, .enter, .bind binding (.ok ()) 1000, .snapshot (.ok ⟨none, none⟩),
    .compute (.ok ⟨"\x7b\x7d", action, ""⟩), .gate false, .check binding clock, .refresh (.ok ⟨none, none⟩),
    .check binding clock].map worker

def place (qty : String) : StrategyAction := .placeOrder ⟨"BTC", "Buy", "Market", qty, none, "IOC", 1, false⟩

/-- A pass that places an order, up to the call of the host. -/
def placed (qty id : String) : List Act :=
  pass (place qty) ++ [.commit 1000 saved (uuid id), .check binding clock, .hand].map worker

/-- The order that the host accepts. -/
def order (qty id orderId : String) : Order :=
  ⟨orderId, "BTC", "Buy", "Market", "", qty, .new, some (uuid id), "0", "0"⟩

def accepted (qty id orderId : String) (i : SaveInput) : Act :=
  worker (.respond (.ok (.order (order qty id orderId))) i)

end Sample

end EasiFlux
