import EasiFlux.Model.TaskRuns

/-!
# The lifecycle of the scheduler

`SchedulerLifecycle` of `services::scheduler`: the state machine behind its mutex, with one
function for each section of the code that takes the lock.

A generation's control, its cleanup slot and the channel of its cleanup are known by the
number of the generation, a desired token by the number of its allocation. Which tokens
were cancelled is kept with the record.
-/

namespace EasiFlux

inductive TaskId
  | timeSync
  | fundingRate
  | balances
  | privatePanels
  | dailyPnl
  | marketFallback
  | klineFlush
  | environment
  | notificationMaintenance
  deriving DecidableEq, Repr

def TaskId.all : List TaskId :=
  [.timeSync, .fundingRate, .balances, .privatePanels, .dailyPnl, .marketFallback, .klineFlush, .environment,
    .notificationMaintenance]

inductive LifecycleState
  | stopped
  | starting (generation : ℕ)
  | running (generation : ℕ)
  | stopping (generation : ℕ)
  deriving DecidableEq, Repr

inductive RequiredLoopStatus
  | booting
  | ready
  | commitApproved
  deriving DecidableEq, Repr

inductive RequiredCommitOutcome
  | approved
  | published
  | rejected
  deriving DecidableEq, Repr

inductive CleanupCause
  | explicitStop
  | startAborted
  | unexpectedRequiredLoop
  deriving DecidableEq, Repr

structure RecoveryTicket where
  failedGeneration : ℕ
  attempt : ℕ
  desired : ℕ
  deriving DecidableEq, Repr

inductive StartDecision
  | begin (generation : ℕ)
  | alreadyRunning
  | wait
  | exhausted
  deriving DecidableEq, Repr

inductive ExplicitStartRequest
  | alreadyRunning
  | desired (token : ℕ)
  | rejected
  deriving DecidableEq, Repr

inductive CleanupRequest
  | start (generation : ℕ) (recovery : Option RecoveryTicket)
  | wait
  | inactive
  deriving DecidableEq, Repr

structure SchedulerLifecycle where
  state : LifecycleState
  nextGeneration : ℕ
  generationExhausted : Bool
  control : Option ℕ
  cleanupCompletion : Option ℕ
  requiredLoops : List (TaskId × RequiredLoopStatus)
  desired : Option ℕ
  recoveryAttempt : ℕ
  pendingRecovery : Option RecoveryTicket
  recoveryHandler : Bool
  cleanupJob : Option ℕ
  terminal : Bool
  /-- the tokens there were, and those of them that are cancelled -/
  nextToken : ℕ
  cancelledTokens : List ℕ

namespace SchedulerLifecycle

/-- The record of a service that was just built: its recovery handler is installed. -/
def new : SchedulerLifecycle :=
  { state := .stopped
    nextGeneration := 0
    generationExhausted := false
    control := none
    cleanupCompletion := none
    requiredLoops := []
    desired := none
    recoveryAttempt := 0
    pendingRecovery := none
    recoveryHandler := true
    cleanupJob := none
    terminal := false
    nextToken := 0
    cancelledTokens := [] }

/-- `DesiredRunToken::is_active` of the token in place. -/
def IsDesired (l : SchedulerLifecycle) (token : ℕ) : Prop := l.desired = some token ∧ token ∉ l.cancelledTokens

instance (l : SchedulerLifecycle) (token : ℕ) : Decidable (l.IsDesired token) := inferInstanceAs (Decidable (_ ∧ _))

def activeGeneration (l : SchedulerLifecycle) : Option ℕ :=
  match l.state with
  | .starting generation => some generation
  | .running generation => some generation
  | .stopping generation => some generation
  | .stopped => none

/-- `desired.take()`, with the token that was there cancelled, and no recovery. -/
def disableDesiredRunning (l : SchedulerLifecycle) : SchedulerLifecycle :=
  { l with
    desired := none
    cancelledTokens := l.desired.toList ++ l.cancelledTokens
    pendingRecovery := none
    recoveryAttempt := 0 }

def failGenerationExhaustion (l : SchedulerLifecycle) : SchedulerLifecycle :=
  { l.disableDesiredRunning with generationExhausted := true }

def beginStart (l : SchedulerLifecycle) : Option ℕ × SchedulerLifecycle :=
  if l.state ≠ .stopped ∨ l.generationExhausted ∨ l.terminal then (none, l)
  else
    match checkedNext l.nextGeneration with
    | none => (none, l.failGenerationExhaustion)
    | some generation => (some generation, { l with
        nextGeneration := generation, state := .starting generation, control := some generation, requiredLoops := [] })

def requestExplicitStart (l : SchedulerLifecycle) : ExplicitStartRequest × SchedulerLifecycle :=
  if l.terminal ∨ l.generationExhausted then (.rejected, l)
  else
    match l.state with
    | .starting _ => (.alreadyRunning, l)
    | .running _ => (.alreadyRunning, l)
    | _ => (.desired l.nextToken, { l with
        desired := some l.nextToken
        nextToken := l.nextToken + 1
        cancelledTokens := l.desired.toList ++ l.cancelledTokens
        pendingRecovery := none
        recoveryAttempt := 0 })

def startDecisionFor (l : SchedulerLifecycle) (desired : ℕ) : StartDecision × SchedulerLifecycle :=
  if l.terminal ∨ l.generationExhausted ∨ ¬l.IsDesired desired then (.exhausted, l)
  else
    match l.state with
    | .starting _ => (.alreadyRunning, l)
    | .running _ => (.alreadyRunning, l)
    | .stopping _ => (if l.cleanupCompletion.isSome then .wait else .exhausted, l)
    | .stopped =>
      match l.beginStart with
      | (some generation, l) => (.begin generation, l)
      | (none, l) => (.exhausted, if l.generationExhausted then l.failGenerationExhaustion else l)

/-- The pending recovery is for the same failure. -/
def IsPending (l : SchedulerLifecycle) (ticket : RecoveryTicket) : Prop :=
  ∃ pending, l.pendingRecovery = some pending ∧ pending.failedGeneration = ticket.failedGeneration ∧ pending.desired = ticket.desired

instance (l : SchedulerLifecycle) (ticket : RecoveryTicket) : Decidable (l.IsPending ticket) :=
  match h : l.pendingRecovery with
  | none => .isFalse fun ⟨_, hp, _⟩ => by rw [h] at hp; cases hp
  | some pending =>
    if hp : pending.failedGeneration = ticket.failedGeneration ∧ pending.desired = ticket.desired then .isTrue ⟨pending, h, hp⟩
    else .isFalse fun ⟨_, hp', hq⟩ => by rw [h] at hp'; cases hp'; exact hp hq

def recoveryStartDecision (l : SchedulerLifecycle) (ticket : RecoveryTicket) : StartDecision × SchedulerLifecycle :=
  if ¬l.terminal ∧ ¬l.generationExhausted ∧ l.state = .stopped ∧ l.IsPending ticket ∧ l.IsDesired ticket.desired then
    match l.beginStart with
    | (some generation, l) => (.begin generation, l)
    | (none, l) => (.exhausted, l.failGenerationExhaustion)
  else (.exhausted, l)

def markStartCommitted (l : SchedulerLifecycle) (generation : ℕ) : SchedulerLifecycle :=
  if l.state ≠ .running generation then l else { l with pendingRecovery := none, recoveryAttempt := 0 }

def isStarting (l : SchedulerLifecycle) (generation : ℕ) : Bool := l.state = .starting generation

def registerRequiredLoops (l : SchedulerLifecycle) (generation : ℕ) (tasks : List TaskId) : Bool × SchedulerLifecycle :=
  if l.state ≠ .starting generation then (false, l)
  else (true, { l with requiredLoops := tasks.dedup.map fun task => (task, .booting) })

/-- `required_loops.get_mut(&task)`, set to `status`. -/
def setLoop (l : SchedulerLifecycle) (task : TaskId) (status : RequiredLoopStatus) : SchedulerLifecycle :=
  { l with requiredLoops := l.requiredLoops.map fun entry => if entry.1 = task then (task, status) else entry }

def loopStatus (l : SchedulerLifecycle) (task : TaskId) : Option RequiredLoopStatus :=
  (l.requiredLoops.find? fun entry => entry.1 = task).map Prod.snd

def markRequiredLoopReady (l : SchedulerLifecycle) (generation : ℕ) (task : TaskId) : Bool × SchedulerLifecycle :=
  if l.state ≠ .starting generation then (false, l)
  else if l.loopStatus task ≠ some .booting then (false, l)
  else (true, l.setLoop task .ready)

/-- Every required loop is approved. -/
def AllApproved (l : SchedulerLifecycle) : Prop := ∀ entry ∈ l.requiredLoops, entry.2 = .commitApproved

instance (l : SchedulerLifecycle) : Decidable l.AllApproved := inferInstanceAs (Decidable (∀ entry ∈ _, _))

/-- `approve_required_loop_and_maybe_publish`; `cancelled` says which controls are. -/
def approveRequiredLoop (l : SchedulerLifecycle) (cancelled : ℕ → Bool) (generation : ℕ) (task : TaskId) :
    RequiredCommitOutcome × SchedulerLifecycle :=
  if l.state ≠ .starting generation then (.rejected, l)
  else if l.loopStatus task ≠ some .ready then (.rejected, l)
  else
    let l := l.setLoop task .commitApproved
    if ¬l.AllApproved then (.approved, l)
    else if l.control.all cancelled then (.rejected, l)
    else (.published, { l with state := .running generation })

def finishStart (l : SchedulerLifecycle) (cancelled : ℕ → Bool) (generation : ℕ) : Bool × SchedulerLifecycle :=
  if l.state ≠ .starting generation ∨ l.control.all cancelled ∨ ¬l.AllApproved then (false, l)
  else (true, { l with state := .running generation })

/-- `saturating_add(1)` on a `u32` -/
def nextAttempt (attempt : ℕ) : ℕ := min (attempt + 1) (2 ^ 32 - 1)

def reserveRecovery (l : SchedulerLifecycle) (failedGeneration : ℕ) : Option RecoveryTicket × SchedulerLifecycle :=
  if l.terminal ∨ l.generationExhausted then (none, l)
  else
    match l.desired with
    | none => (none, l)
    | some desired =>
      if ¬l.recoveryHandler ∨ desired ∈ l.cancelledTokens ∨ l.IsPending ⟨failedGeneration, 0, desired⟩ then (none, l)
      else
        let attempt := nextAttempt l.recoveryAttempt
        let ticket := RecoveryTicket.mk failedGeneration attempt desired
        (some ticket, { l with recoveryAttempt := attempt, pendingRecovery := some ticket })

/-- A generation that is starting or running begins to stop. -/
def stopGeneration (l : SchedulerLifecycle) (generation : ℕ) (cause : CleanupCause) : CleanupRequest × SchedulerLifecycle :=
  let (recovery, l) := if cause = .explicitStop then (none, l) else l.reserveRecovery generation
  (.start generation recovery, { l with state := .stopping generation, cleanupCompletion := some generation, control := none })

def beginCleanupWithCause (l : SchedulerLifecycle) (generation : ℕ) (cause : CleanupCause) : CleanupRequest × SchedulerLifecycle :=
  match l.state with
  | .stopping active =>
    if active = generation then (if l.cleanupCompletion.isSome then .wait else .inactive, l) else (.inactive, l)
  | .starting active => if active = generation then l.stopGeneration generation cause else (.inactive, l)
  | .running active => if active = generation then l.stopGeneration generation cause else (.inactive, l)
  | .stopped => (.inactive, l)

def beginExplicitStop (l : SchedulerLifecycle) : CleanupRequest × SchedulerLifecycle :=
  let l := l.disableDesiredRunning
  match l.activeGeneration with
  | none => (.inactive, l)
  | some generation => l.beginCleanupWithCause generation .explicitStop

def beginTerminalShutdown (l : SchedulerLifecycle) : CleanupRequest × SchedulerLifecycle :=
  { l with terminal := true }.beginExplicitStop

def finishCleanup (l : SchedulerLifecycle) (generation : ℕ) : Bool × SchedulerLifecycle :=
  if l.state ≠ .stopping generation then (false, l)
  else (true, { l with
    state := .stopped, control := none, cleanupCompletion := none, cleanupJob := none, requiredLoops := [] })

/-- The ticket is the pending one, and the run it is for is still desired. -/
def IsCurrent (l : SchedulerLifecycle) (ticket : RecoveryTicket) : Prop :=
  l.pendingRecovery = some ticket ∧ l.IsDesired ticket.desired

instance (l : SchedulerLifecycle) (ticket : RecoveryTicket) : Decidable (l.IsCurrent ticket) :=
  inferInstanceAs (Decidable (_ ∧ _))

/-- `reconcile_abandoned_recovery`: the ticket of the next attempt, if one is to be launched. -/
def reconcileAbandonedRecovery (l : SchedulerLifecycle) (abandoned : RecoveryTicket) : Option RecoveryTicket × SchedulerLifecycle :=
  if l.terminal ∨ l.generationExhausted ∨ ¬l.IsCurrent abandoned then (none, l)
  else
    let attempt := nextAttempt l.recoveryAttempt
    let ticket := { abandoned with attempt := attempt }
    (if l.recoveryHandler then some ticket else none, { l with recoveryAttempt := attempt, pendingRecovery := some ticket })

/-- What the drop of a waiting explicit start leaves: a recovery takes its place. -/
def dropStartClaim (l : SchedulerLifecycle) (desired : ℕ) : Option RecoveryTicket × SchedulerLifecycle :=
  if ¬l.IsDesired desired then (none, l) else l.reserveRecovery (l.activeGeneration.getD l.nextGeneration)

end SchedulerLifecycle

end EasiFlux
