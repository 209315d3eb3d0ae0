import EasiFlux.Model.Lifecycle

/-!
# The tasks around the lifecycle

Starts, supervisors, activities, task runs, cleanup workers and recoveries of
`services::scheduler`, as the processes they are: each holds its guard and takes one step at
a time, in any order (`Scheduler.step`). A step is one section under a lock, one guard made
or dropped, or one call between two awaits; a process can be dropped at any of its awaits.

A guard that counts in a generation's `active_owners` is an entry of `guards`, or, for the
guard of a start, the `StartFlow` itself. `begins`, `publications` and `completions` write
down what was decided.
-/

namespace EasiFlux

/-- Who counts as an owner of a generation, beside a start. -/
inductive OwnerKind
  | requiredLoop
  | handle
  | deferred
  | taskRun
  | activity
  deriving DecidableEq, Repr

structure OwnerGuard where
  kind : OwnerKind
  generation : ℕ
  deriving DecidableEq, Repr

/-- `GenerationControl`; `deferredHandles` are the batches in its queue. -/
structure GenerationControl where
  cancelled : Bool
  activeOwners : ℕ
  deferredHandles : ℕ
  deriving DecidableEq, Repr

def GenerationControl.new : GenerationControl := ⟨false, 0, 0⟩

/-- Where a start stands in `drive_claimed_scheduler_start` after it has begun. -/
inductive FlowPhase
  | begun
  | checked
  | registered
  | installed
  | committing
  | dropping
  | releasing
  deriving DecidableEq, Repr

inductive StartOwner
  | explicit (desired : ℕ)
  | recovery (ticket : RecoveryTicket)
  deriving DecidableEq, Repr

namespace StartOwner

/-- The token a start is for. -/
def token : StartOwner → ℕ
  | explicit desired => desired
  | recovery ticket => ticket.desired

/-- The ticket whose task runs the start. -/
def ticket? : StartOwner → Option RecoveryTicket
  | explicit _ => none
  | recovery ticket => some ticket

end StartOwner

/-- A start that has begun: its guard, and the handles it has not given away. -/
structure StartFlow where
  owner : StartOwner
  generation : ℕ
  phase : FlowPhase
  batch : ℕ
  supervised : ℕ
  supervisors : ℕ
  deriving DecidableEq, Repr

/-- Where `launch_scheduler_cleanup` stands. -/
inductive LaunchStage
  | cancelControl
  | cancelRuns (tasks : List TaskId)
  | installSlot
  | launchJob
  | launchRecovery
  deriving DecidableEq, Repr

structure CleanupLauncher where
  generation : ℕ
  stage : LaunchStage
  recovery : Option RecoveryTicket
  deriving DecidableEq, Repr

/-- `CleanupJobSlotState`; `job` says that the job is in the slot. -/
structure CleanupSlot where
  job : Bool
  workerActive : Bool
  workerPending : ℕ
  deriving DecidableEq, Repr

inductive WorkerPhase
  | pending
  | permitted
  | leased
  | drained
  deriving DecidableEq, Repr

/-- A run of `run_cleanup_job`; `batches` are those it took out of the queue. -/
structure CleanupWorker where
  generation : ℕ
  phase : WorkerPhase
  batches : ℕ
  deriving DecidableEq, Repr

structure Scheduler where
  lifecycle : SchedulerLifecycle
  controls : ℕ → GenerationControl
  closedRuns : List (ℕ × TaskId)
  guards : List OwnerGuard
  flows : List StartFlow
  launchers : List CleanupLauncher
  slots : ℕ → CleanupSlot
  workers : List CleanupWorker
  /-- the explicit starts that wait for a cleanup -/
  claims : List ℕ
  /-- tickets that were reserved, tickets whose task runs, tickets whose task is gone -/
  launching : List RecoveryTicket
  recoveries : List RecoveryTicket
  abandoned : List RecoveryTicket
  begins : List (StartOwner × ℕ)
  publications : List ℕ
  completions : List ℕ

/-- How `launch_recovery_handler` ends. -/
inductive LaunchOutcome
  | spawned
  /-- the handler or the spawn panics, or the task is gone before it was installed -/
  | failed
  /-- no Tokio runtime, or the scheduler itself is gone -/
  | noRuntime
  deriving DecidableEq, Repr

inductive SchedAct
  | startExplicit
  | refreshClaim (i : ℕ)
  | dropClaim (i : ℕ)
  | flowCheck (i : ℕ)
  | flowSpawn (i : ℕ)
  | flowRegister (i : ℕ) (tasks : List TaskId)
  | flowWrap (i : ℕ)
  | flowInstall (i : ℕ)
  | flowFinishStart (i : ℕ)
  | flowCommit (i : ℕ)
  /-- an early return, or the future is dropped -/
  | flowFail (i : ℕ)
  | flowDefer (i : ℕ)
  | flowCleanup (i : ℕ)
  | flowRelease (i : ℕ)
  | loopReady (generation : ℕ) (task : TaskId)
  | loopApprove (generation : ℕ) (task : TaskId)
  | loopFailed (generation : ℕ)
  /-- the guard of a required loop, a supervised handle, a task run or an activity is dropped -/
  | ownerEnds (owner : OwnerGuard)
  /-- a supervisor is dropped with its handle: the handle is deferred with its owner -/
  | deferHandle (generation : ℕ)
  | claimRun (generation : ℕ) (task : TaskId)
  | claimActivity
  | stop
  | shutdown
  | launchStep (i : ℕ)
  | reserveWorker (generation : ℕ)
  | workerBegin (i : ℕ)
  | workerClaim (i : ℕ)
  | workerTake (i : ℕ)
  | workerPop (i : ℕ)
  | workerDrained (i : ℕ)
  | workerComplete (i : ℕ)
  | workerAbort (i : ℕ)
  | launchRecovery (i : ℕ) (outcome : LaunchOutcome)
  | recoveryStart (i : ℕ)
  | recoveryEnd (i : ℕ)
  | reconcile (i : ℕ)
  deriving Repr

namespace Scheduler

def init : Scheduler :=
  { lifecycle := .new
    controls := fun _ => .new
    closedRuns := []
    guards := []
    flows := []
    launchers := []
    slots := fun _ => ⟨false, false, 0⟩
    workers := []
    claims := []
    launching := []
    recoveries := []
    abandoned := []
    begins := []
    publications := []
    completions := [] }

variable (w : Scheduler)

/-! ## Controls and guards -/

def setControl (generation : ℕ) (f : GenerationControl → GenerationControl) : Scheduler :=
  { w with controls := Function.update w.controls generation (f (w.controls generation)) }

def ownerStarted (generation : ℕ) : Scheduler :=
  w.setControl generation fun c => { c with activeOwners := c.activeOwners + 1 }

def ownerFinished (generation : ℕ) : Scheduler :=
  w.setControl generation fun c => { c with activeOwners := c.activeOwners - 1 }

/-- `GenerationOwnerGuard::new` -/
def addGuard (owner : OwnerGuard) : Scheduler := { w with guards := owner :: w.guards }.ownerStarted owner.generation

def dropGuard (owner : OwnerGuard) : Scheduler := { w with guards := w.guards.erase owner }.ownerFinished owner.generation

def cancelled (generation : ℕ) : Bool := (w.controls generation).cancelled

/-! ## Starts -/

/-- A start begins: a new control, and the guard of the start on it. -/
def beginFlow (owner : StartOwner) (generation : ℕ) : Scheduler :=
  { w with
    flows := ⟨owner, generation, .begun, 0, 0, 0⟩ :: w.flows
    controls := Function.update w.controls generation .new
    begins := w.begins ++ [(owner, generation)] }.ownerStarted generation

/-- `SchedulerStartClaim::apply_decision` for the claim of an explicit start. -/
def applyDecision (desired : ℕ) : StartDecision → Scheduler
  | .begin generation => w.beginFlow (.explicit desired) generation
  | .wait => { w with claims := desired :: w.claims }
  | .alreadyRunning => w
  | .exhausted => w

/-- `claim_scheduler_start` of an explicit start -/
def startExplicit : Scheduler :=
  match w.lifecycle.requestExplicitStart with
  | (.desired desired, l) =>
    let (decision, l) := l.startDecisionFor desired
    { w with lifecycle := l }.applyDecision desired decision
  | (_, l) => { w with lifecycle := l }

/-- `SchedulerStartClaim::refresh` -/
def refreshClaim (i desired : ℕ) : Scheduler :=
  let (decision, l) := w.lifecycle.startDecisionFor desired
  { w with lifecycle := l, claims := w.claims.eraseIdx i }.applyDecision desired decision

def dropClaim (i desired : ℕ) : Scheduler :=
  let (ticket, l) := w.lifecycle.dropStartClaim desired
  { w with lifecycle := l, claims := w.claims.eraseIdx i, launching := ticket.toList ++ w.launching }

def setFlow (i : ℕ) (flow : StartFlow) : Scheduler := { w with flows := flow :: w.flows.eraseIdx i }

def flowCheck (i : ℕ) (f : StartFlow) : Scheduler :=
  if f.phase ≠ .begun then w
  else if w.lifecycle.isStarting f.generation then w.setFlow i { f with phase := .checked }
  else w.setFlow i { f with phase := .dropping }

/-- `spawn_required_loop_future` -/
def flowSpawn (i : ℕ) (f : StartFlow) : Scheduler :=
  if f.phase ≠ .checked then w
  else (w.setFlow i { f with batch := f.batch + 1 }).addGuard ⟨.requiredLoop, f.generation⟩

def flowRegister (i : ℕ) (f : StartFlow) (tasks : List TaskId) : Scheduler :=
  if f.phase ≠ .checked then w
  else
    let (registered, l) := w.lifecycle.registerRequiredLoops f.generation tasks
    { w.setFlow i { f with phase := if registered then .registered else .dropping } with lifecycle := l }

/-- `GenerationOwnedSchedulerHandle::new`, and its supervisor is spawned. -/
def flowWrap (i : ℕ) (f : StartFlow) : Scheduler :=
  if f.phase ≠ .registered ∨ f.batch = 0 then w
  else (w.setFlow i { f with
    batch := f.batch - 1, supervised := f.supervised + 1, supervisors := f.supervisors + 1 }).addGuard ⟨.handle, f.generation⟩

/-- `install_handles` -/
def flowInstall (i : ℕ) (f : StartFlow) : Scheduler :=
  if f.phase ≠ .registered ∨ f.batch ≠ 0 then w
  else if w.lifecycle.isStarting f.generation then w.setFlow i { f with phase := .installed, supervised := 0 }
  else w.setFlow i { f with phase := .dropping }

def flowFinishStart (i : ℕ) (f : StartFlow) : Scheduler :=
  if f.phase ≠ .installed ∨ f.supervisors ≠ 0 then w
  else
    let (committed, l) := w.lifecycle.finishStart w.cancelled f.generation
    { w.setFlow i { f with phase := if committed then .committing else .dropping } with
      lifecycle := l, publications := w.publications ++ if committed then [f.generation] else [] }

/-- `SchedulerStartGuard::commit`, up to its release -/
def flowCommit (i : ℕ) (f : StartFlow) : Scheduler :=
  if f.phase = .committing ∨ (f.phase = .installed ∧ f.generation ∈ w.publications) then
    { w.setFlow i { f with phase := .releasing } with lifecycle := w.lifecycle.markStartCommitted f.generation }
  else w

def flowFail (i : ℕ) (f : StartFlow) : Scheduler :=
  if f.phase = .releasing then w else w.setFlow i { f with phase := .dropping }

/-- `defer_handles` with no owner: a batch of handles is queued with a guard of its own. -/
def deferBatch (generation : ℕ) : Scheduler :=
  (w.addGuard ⟨.deferred, generation⟩).setControl generation fun c => { c with deferredHandles := c.deferredHandles + 1 }

/-- `SchedulerHandleBatch::drop`, of the supervised handles and of the others -/
def flowDefer (i : ℕ) (f : StartFlow) : Scheduler :=
  if f.phase ≠ .dropping then w
  else if f.supervised ≠ 0 then (w.setFlow i { f with supervised := 0 }).deferBatch f.generation
  else if f.batch ≠ 0 then (w.setFlow i { f with batch := 0 }).deferBatch f.generation
  else w

/-! ## Cleanups -/

/-- `launch_cleanup_job`: a worker is launched unless there is one. -/
def reserveWorker (generation : ℕ) : Scheduler :=
  let slot := w.slots generation
  if slot.workerActive ∨ slot.workerPending ≠ 0 ∨ ¬slot.job then w
  else { w with
    slots := Function.update w.slots generation { slot with workerPending := 1 }
    workers := ⟨generation, .pending, 0⟩ :: w.workers }

/-- `launch_scheduler_cleanup`, up to its first step -/
def launchCleanup (request : CleanupRequest) : Scheduler :=
  match request with
  | .start generation recovery => { w with launchers := ⟨generation, .cancelControl, recovery⟩ :: w.launchers }
  | .wait => w.lifecycle.cleanupJob.elim w w.reserveWorker
  | .inactive => w

def requestCleanup (generation : ℕ) (cause : CleanupCause) : Scheduler :=
  let (request, l) := w.lifecycle.beginCleanupWithCause generation cause
  { w with lifecycle := l }.launchCleanup request

/-- `SchedulerStartGuard::drop`, up to its release -/
def flowCleanup (i : ℕ) (f : StartFlow) : Scheduler :=
  if f.phase ≠ .dropping ∨ f.batch ≠ 0 ∨ f.supervised ≠ 0 then w
  else (w.setFlow i { f with phase := .releasing }).requestCleanup f.generation .startAborted

/-- `release_activity`: the start is over, and with it the task of a recovery. -/
def flowRelease (i : ℕ) (f : StartFlow) : Scheduler :=
  if f.phase ≠ .releasing then w
  else { w with flows := w.flows.eraseIdx i, abandoned := f.owner.ticket?.toList ++ w.abandoned }.ownerFinished f.generation

def loopReady (generation : ℕ) (task : TaskId) : Scheduler :=
  { w with lifecycle := (w.lifecycle.markRequiredLoopReady generation task).2 }

def loopApprove (generation : ℕ) (task : TaskId) : Scheduler :=
  let (outcome, l) := w.lifecycle.approveRequiredLoop w.cancelled generation task
  { w with lifecycle := l, publications := w.publications ++ if outcome = .published then [generation] else [] }

def deferHandle (generation : ℕ) : Scheduler :=
  { w with guards := ⟨.deferred, generation⟩ :: w.guards.erase ⟨.handle, generation⟩ }.setControl generation fun c =>
    { c with deferredHandles := c.deferredHandles + 1 }

/-- The claim of a task run: `run_scheduled_task` on the run state of a generation. -/
def claimRun (generation : ℕ) (task : TaskId) : Scheduler :=
  if generation = 0 ∨ w.lifecycle.nextGeneration < generation ∨ (generation, task) ∈ w.closedRuns ∨ w.cancelled generation then w
  else w.addGuard ⟨.taskRun, generation⟩

/-- `claim_generation_activity` -/
def claimActivity : Scheduler :=
  match w.lifecycle.state, w.lifecycle.control with
  | .starting _, some generation => w.addGuard ⟨.activity, generation⟩
  | .running _, some generation => w.addGuard ⟨.activity, generation⟩
  | _, _ => w

def stopWith (stop : CleanupRequest × SchedulerLifecycle) : Scheduler := { w with lifecycle := stop.2 }.launchCleanup stop.1

def setLauncher (i : ℕ) (launcher : CleanupLauncher) : Scheduler := { w with launchers := launcher :: w.launchers.eraseIdx i }

def launchStep (i : ℕ) (launcher : CleanupLauncher) : Scheduler :=
  let generation := launcher.generation
  match launcher.stage with
  | .cancelControl =>
    (w.setLauncher i { launcher with stage := .cancelRuns TaskId.all }).setControl generation fun c => { c with cancelled := true }
  | .cancelRuns [] => w.setLauncher i { launcher with stage := .installSlot }
  | .cancelRuns (task :: tasks) =>
    { w.setLauncher i { launcher with stage := .cancelRuns tasks } with closedRuns := (generation, task) :: w.closedRuns }
  | .installSlot =>
    { w.setLauncher i { launcher with stage := .launchJob } with
      slots := Function.update w.slots generation ⟨true, false, 0⟩
      lifecycle :=
        if w.lifecycle.state = .stopping generation ∧ w.lifecycle.cleanupJob = none
        then { w.lifecycle with cleanupJob := some generation } else w.lifecycle }
  | .launchJob => (w.setLauncher i { launcher with stage := .launchRecovery }).reserveWorker generation
  | .launchRecovery =>
    { w with launchers := w.launchers.eraseIdx i, launching := launcher.recovery.toList ++ w.launching }

/-! ## Cleanup workers -/

def setWorker (i : ℕ) (worker : CleanupWorker) : Scheduler := { w with workers := worker :: w.workers.eraseIdx i }

def setSlot (generation : ℕ) (slot : CleanupSlot) : Scheduler := { w with slots := Function.update w.slots generation slot }

/-- `CleanupLaunchPermit::begin` -/
def workerBegin (i : ℕ) (worker : CleanupWorker) : Scheduler :=
  let slot := w.slots worker.generation
  if worker.phase ≠ .pending then w
  else if slot.workerActive ∨ ¬slot.job then
    { w with workers := w.workers.eraseIdx i }.setSlot worker.generation { slot with workerPending := slot.workerPending - 1 }
  else
    (w.setWorker i { worker with phase := .permitted }).setSlot worker.generation
      { slot with workerPending := slot.workerPending - 1, workerActive := true }

/-- `claim_job` -/
def workerClaim (i : ℕ) (worker : CleanupWorker) : Scheduler :=
  let slot := w.slots worker.generation
  if worker.phase ≠ .permitted then w
  else if slot.job then
    (w.setWorker i { worker with phase := .leased }).setSlot worker.generation { slot with job := false }
  else { w with workers := w.workers.eraseIdx i }.setSlot worker.generation { slot with workerActive := false }

/-- `wait_drained` takes the queue of deferred handles. -/
def workerTake (i : ℕ) (worker : CleanupWorker) : Scheduler :=
  if worker.phase ≠ .leased then w
  else
    (w.setWorker i { worker with batches := worker.batches + (w.controls worker.generation).deferredHandles }).setControl
      worker.generation fun c => { c with deferredHandles := 0 }

/-- The handles of a batch have ended: it is dropped with its owner. -/
def workerPop (i : ℕ) (worker : CleanupWorker) : Scheduler :=
  if worker.phase ≠ .leased ∨ worker.batches = 0 then w
  else (w.setWorker i { worker with batches := worker.batches - 1 }).dropGuard ⟨.deferred, worker.generation⟩

/-- `wait_drained` returns. -/
def workerDrained (i : ℕ) (worker : CleanupWorker) : Scheduler :=
  let c := w.controls worker.generation
  if worker.phase ≠ .leased ∨ worker.batches ≠ 0 ∨ c.deferredHandles ≠ 0 ∨ c.activeOwners ≠ 0 then w
  else w.setWorker i { worker with phase := .drained }

/-- `CleanupCompletionGuard::complete`, and the permit is dropped. -/
def workerComplete (i : ℕ) (worker : CleanupWorker) : Scheduler :=
  let generation := worker.generation
  if worker.phase ≠ .drained then w
  else
    let (finished, l) := if w.lifecycle.cleanupJob = some generation then w.lifecycle.finishCleanup generation else (false, w.lifecycle)
    { w with
      lifecycle := l
      workers := w.workers.eraseIdx i
      completions := w.completions ++ if finished then [generation] else [] }.setSlot generation
        { w.slots generation with workerActive := false }

/-- The task of a worker is dropped at an await: before it has begun, or in `drain`. -/
def workerAbort (i : ℕ) (worker : CleanupWorker) : Scheduler :=
  let slot := w.slots worker.generation
  match worker.phase with
  | .pending =>
    { w with workers := w.workers.eraseIdx i }.setSlot worker.generation { slot with workerPending := slot.workerPending - 1 }
  | .leased =>
    ({ w with workers := w.workers.eraseIdx i }.setSlot worker.generation { slot with job := true, workerActive := false }).setControl
      worker.generation fun c => { c with deferredHandles := c.deferredHandles + worker.batches }
  | _ => w

/-! ## Recoveries -/

/-- `launch_recovery_handler` -/
def launchRecovery (i : ℕ) (ticket : RecoveryTicket) (outcome : LaunchOutcome) : Scheduler :=
  let w := { w with launching := w.launching.eraseIdx i }
  match outcome with
  | .noRuntime => { w with lifecycle := { w.lifecycle with terminal := true }.disableDesiredRunning }
  | .failed => { w with abandoned := ticket :: w.abandoned }
  | .spawned => if w.lifecycle.IsCurrent ticket then { w with recoveries := ticket :: w.recoveries } else w

/-- `start_recovery`: the recovery asks for its start, and is over when there is none. -/
def recoveryStart (i : ℕ) (ticket : RecoveryTicket) : Scheduler :=
  let (decision, l) := w.lifecycle.recoveryStartDecision ticket
  let w := { w with lifecycle := l, recoveries := w.recoveries.eraseIdx i }
  match decision with
  | .begin generation => w.beginFlow (.recovery ticket) generation
  | _ => { w with abandoned := ticket :: w.abandoned }

def recoveryEnd (i : ℕ) (ticket : RecoveryTicket) : Scheduler :=
  { w with recoveries := w.recoveries.eraseIdx i, abandoned := ticket :: w.abandoned }

def reconcile (i : ℕ) (ticket : RecoveryTicket) : Scheduler :=
  let (next, l) := w.lifecycle.reconcileAbandonedRecovery ticket
  { w with lifecycle := l, abandoned := w.abandoned.eraseIdx i, launching := next.toList ++ w.launching }

def step : SchedAct → Scheduler
  | .startExplicit => w.startExplicit
  | .refreshClaim i => (w.claims[i]?).elim w (w.refreshClaim i)
  | .dropClaim i => (w.claims[i]?).elim w (w.dropClaim i)
  | .flowCheck i => (w.flows[i]?).elim w (w.flowCheck i)
  | .flowSpawn i => (w.flows[i]?).elim w (w.flowSpawn i)
  | .flowRegister i tasks => (w.flows[i]?).elim w fun f => w.flowRegister i f tasks
  | .flowWrap i => (w.flows[i]?).elim w (w.flowWrap i)
  | .flowInstall i => (w.flows[i]?).elim w (w.flowInstall i)
  | .flowFinishStart i => (w.flows[i]?).elim w (w.flowFinishStart i)
  | .flowCommit i => (w.flows[i]?).elim w (w.flowCommit i)
  | .flowFail i => (w.flows[i]?).elim w (w.flowFail i)
  | .flowDefer i => (w.flows[i]?).elim w (w.flowDefer i)
  | .flowCleanup i => (w.flows[i]?).elim w (w.flowCleanup i)
  | .flowRelease i => (w.flows[i]?).elim w (w.flowRelease i)
  | .loopReady generation task => w.loopReady generation task
  | .loopApprove generation task => w.loopApprove generation task
  | .loopFailed generation => w.requestCleanup generation .unexpectedRequiredLoop
  | .ownerEnds owner => if owner ∈ w.guards ∧ owner.kind ≠ .deferred then w.dropGuard owner else w
  | .deferHandle generation => if ⟨.handle, generation⟩ ∈ w.guards then w.deferHandle generation else w
  | .claimRun generation task => w.claimRun generation task
  | .claimActivity => w.claimActivity
  | .stop => w.stopWith w.lifecycle.beginExplicitStop
  | .shutdown => w.stopWith w.lifecycle.beginTerminalShutdown
  | .launchStep i => (w.launchers[i]?).elim w (w.launchStep i)
  | .reserveWorker generation => w.reserveWorker generation
  | .workerBegin i => (w.workers[i]?).elim w (w.workerBegin i)
  | .workerClaim i => (w.workers[i]?).elim w (w.workerClaim i)
  | .workerTake i => (w.workers[i]?).elim w (w.workerTake i)
  | .workerPop i => (w.workers[i]?).elim w (w.workerPop i)
  | .workerDrained i => (w.workers[i]?).elim w (w.workerDrained i)
  | .workerComplete i => (w.workers[i]?).elim w (w.workerComplete i)
  | .workerAbort i => (w.workers[i]?).elim w (w.workerAbort i)
  | .launchRecovery i outcome => (w.launching[i]?).elim w fun ticket => w.launchRecovery i ticket outcome
  | .recoveryStart i => (w.recoveries[i]?).elim w (w.recoveryStart i)
  | .recoveryEnd i => (w.recoveries[i]?).elim w (w.recoveryEnd i)
  | .reconcile i => (w.abandoned[i]?).elim w (w.reconcile i)

end Scheduler

end EasiFlux
