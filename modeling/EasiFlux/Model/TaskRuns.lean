import Mathlib.Data.List.Basic
import EasiFlux.Model.Trading

/-!
# Forced task runs

`run_scheduled_task` of `services::scheduler` over one `TaskRunState`. The first caller
owns the run and drains it; a forced caller that finds a run in flight registers a waiter
and shares one rerun with the others.

The code takes the lock of the run state four times: at the claim
(`TaskRunState.runScheduledTask`), after each execute (`TaskRunState.drainScheduledRuns`),
when the guard of an owner is dropped (`TaskRunState.dropOwnerGuard`) and at a cancellation
(`TaskRunState.cancelTaskRunState`). Each is one function, and `TaskRuns.step` lets any
number of callers, owners and senders interleave between them.

A waiter is known by the number of its arrival and an execute by the number of its start,
from one on. What a caller is due when it arrives is written down then (`TaskRuns.due`),
from what the owner is doing and not from the flags of the run state.
-/

namespace EasiFlux

/-- `cancelled_task_result` -/
def cancelledTaskResult : AppResult Unit := .error (.internal "调度任务在强制重跑完成前被取消")

/-- The result of a run: the cancellation, or what an execute returned. -/
inductive RunResult
  | cancelled
  | executed (run : ℕ) (result : AppResult Unit)

def RunResult.value : RunResult → AppResult Unit
  | .cancelled => cancelledTaskResult
  | .executed _ result => result

/-- `checked_add(1)` on a `u64` -/
def checkedNext (n : ℕ) : Option ℕ := if n + 1 < 2 ^ 64 then some (n + 1) else none

inductive TaskRunClaim
  | owner (ownerToken : ℕ)
  | skip
  | wait (waiter : ℕ)
  | closed
  deriving DecidableEq, Repr

structure TaskRunState where
  closed : Bool
  inFlight : Bool
  ownerToken : Option ℕ
  nextOwnerToken : ℕ
  pendingForce : Bool
  forcedRerun : Bool
  pendingForceWaiters : List ℕ
  activeForceWaiters : List ℕ
  deriving DecidableEq, Repr

/-- What the owner leaves the lock with. -/
structure SettledRun where
  completedWaiters : List ℕ
  finished : Bool
  releaseOwner : Bool
  result : RunResult

namespace TaskRunState

def new : TaskRunState := ⟨false, false, none, 0, false, false, [], []⟩

/-- The claim of `run_scheduled_task`; `waiter` is the channel made for this call. -/
def runScheduledTask (s : TaskRunState) (cancelled forceIfBusy : Bool) (waiter : ℕ) : TaskRunClaim × TaskRunState :=
  if s.closed || cancelled then (.closed, s)
  else if s.inFlight then
    if forceIfBusy then
      if s.forcedRerun then (.wait waiter, { s with activeForceWaiters := s.activeForceWaiters ++ [waiter] })
      else (.wait waiter, { s with pendingForce := true, pendingForceWaiters := s.pendingForceWaiters ++ [waiter] })
    else (.skip, s)
  else
    match checkedNext s.nextOwnerToken with
    | none => (.closed, { s with closed := true })
    | some ownerToken =>
      (.owner ownerToken, { s with
        nextOwnerToken := ownerToken, inFlight := true, ownerToken := some ownerToken, forcedRerun := false })

/-- No owner, no waiters. -/
def vacate (s : TaskRunState) : TaskRunState :=
  { s with
    ownerToken := none, inFlight := false, pendingForce := false, forcedRerun := false
    activeForceWaiters := [], pendingForceWaiters := [] }

/-- The section of `drain_scheduled_runs` after an execute. -/
def drainScheduledRuns (s : TaskRunState) (cancelled : Bool) (ownerToken : ℕ) (result : RunResult) : SettledRun × TaskRunState :=
  if s.ownerToken ≠ some ownerToken then (⟨[], true, false, .cancelled⟩, s)
  else if s.closed || cancelled then (⟨s.activeForceWaiters ++ s.pendingForceWaiters, true, true, .cancelled⟩, s.vacate)
  else if !s.forcedRerun && s.pendingForce then
    (⟨[], false, false, result⟩, { s with
      pendingForce := false, forcedRerun := true
      activeForceWaiters := s.activeForceWaiters ++ s.pendingForceWaiters, pendingForceWaiters := [] })
  else
    (⟨s.activeForceWaiters, true, true, result⟩, { s with
      ownerToken := none, inFlight := false, forcedRerun := false, activeForceWaiters := [] })

/-- `TaskRunOwnerGuard::drop` of an owner that was not released: the waiters it answers,
and whether it was the owner. -/
def dropOwnerGuard (s : TaskRunState) (ownerToken : ℕ) : (List ℕ × Bool) × TaskRunState :=
  if s.ownerToken ≠ some ownerToken then (([], false), s)
  else ((s.activeForceWaiters ++ s.pendingForceWaiters, true), s.vacate)

def cancelTaskRunState (s : TaskRunState) : List ℕ × TaskRunState :=
  (s.activeForceWaiters ++ s.pendingForceWaiters,
    { s with closed := true, pendingForce := false, forcedRerun := false, activeForceWaiters := [], pendingForceWaiters := [] })

end TaskRunState

/-! ## The callers, owners and senders -/

/-- Where an owner stands in `drain_scheduled_runs`. -/
inductive OwnerPhase
  | starting
  | executing
  | completed (result : RunResult)
  /-- its future is being dropped: the execute is gone, the guard is still to run -/
  | dropping

structure RunOwner where
  ownerToken : ℕ
  runs : ℕ
  phase : OwnerPhase

/-- Waiters that are off the lists, still to be sent their result; `release` says that
`owner_finished` is to be called before. -/
structure Delivery where
  waiters : List ℕ
  result : RunResult
  release : Bool

/-- What a forced caller is due: the result of an execute that starts after the `n` there
have been, or of the one with the number `n`. -/
inductive Due
  | after (n : ℕ)
  | rerun (n : ℕ)
  deriving DecidableEq, Repr

def Due.Met : Due → ℕ → Prop
  | .after n, run => n < run
  | .rerun n, run => run = n

structure TaskRuns where
  state : TaskRunState
  /-- the flag of the generation's control, and what its channel says -/
  cancelled : Bool
  signalled : Bool
  activeOwners : ℕ
  underflow : Bool
  /-- the owners of the generation that are not of this task -/
  others : ℕ
  owners : List RunOwner
  deliveries : List Delivery
  /-- the executes that were started, and what those that returned have returned -/
  executes : ℕ
  completions : List (ℕ × AppResult Unit)
  /-- what each waiter is due, by its number -/
  arrivals : List Due
  answers : List (ℕ × RunResult)

namespace RunOwner

/-- The owner is in its forced rerun: the second execute, or on the way to it. -/
def Rerunning (o : RunOwner) : Prop :=
  match o.phase with
  | .starting => o.runs = 1
  | _ => o.runs = 2

instance (o : RunOwner) : Decidable o.Rerunning := by
  unfold Rerunning
  split <;> infer_instance

/-- The number of the execute the owner is in, or is about to start. -/
def current (o : RunOwner) (executes : ℕ) : ℕ :=
  match o.phase with
  | .starting => executes + 1
  | _ => executes

end RunOwner

inductive RunAct
  /-- a call of `run_scheduled_task` takes the lock -/
  | call (forceIfBusy : Bool)
  /-- the select of an owner is polled first -/
  | start (i : ℕ)
  /-- its execute returns -/
  | finish (i : ℕ) (result : AppResult Unit)
  /-- its execute is dropped, the generation being cancelled -/
  | interrupt (i : ℕ)
  /-- it takes the lock again -/
  | settle (i : ℕ)
  /-- its future is dropped, at the only await -/
  | dropOwner (i : ℕ)
  | dropGuard (i : ℕ)
  /-- `owner_finished`, then one `send` after the other -/
  | release (j : ℕ)
  | send (j : ℕ)
  | cancelTaskRunState
  /-- `GenerationControl::cancel`: the flag, then the channel -/
  | cancel
  | signal
  /-- owners of the generation that are not of this task -/
  | otherStarted
  | otherFinished
  /-- a receiver is dropped: its `send` is to no one -/
  | dropReceiver (waiter : ℕ)

namespace TaskRuns

def init (others : ℕ) : TaskRuns :=
  { state := .new
    cancelled := false
    signalled := false
    activeOwners := others
    underflow := false
    others := others
    owners := []
    deliveries := []
    executes := 0
    completions := []
    arrivals := []
    answers := [] }

/-- What a forced caller that arrives now is due. -/
def due (w : TaskRuns) : Due :=
  match w.owners.head? with
  | some o => if o.Rerunning then .rerun (o.current w.executes) else .after w.executes
  | none => .after w.executes

def ownerStarted (w : TaskRuns) : TaskRuns := { w with activeOwners := w.activeOwners + 1 }

def ownerFinished (w : TaskRuns) : TaskRuns :=
  if w.activeOwners = 0 then { w with underflow := true } else { w with activeOwners := w.activeOwners - 1 }

/-- An owner goes on as `o`. -/
def setOwner (w : TaskRuns) (i : ℕ) (o : RunOwner) : TaskRuns := { w with owners := o :: w.owners.eraseIdx i }

/-- An owner is gone, its waiters are to be sent `result`. -/
def retire (w : TaskRuns) (i : ℕ) (state : TaskRunState) (d : Delivery) : TaskRuns :=
  { w with state := state, owners := w.owners.eraseIdx i, deliveries := d :: w.deliveries }

def claim (w : TaskRuns) (forceIfBusy : Bool) : TaskRunClaim :=
  (w.state.runScheduledTask w.cancelled forceIfBusy w.arrivals.length).1

def call (w : TaskRuns) (forceIfBusy : Bool) : TaskRuns :=
  let state := (w.state.runScheduledTask w.cancelled forceIfBusy w.arrivals.length).2
  match w.claim forceIfBusy with
  | .owner ownerToken => ownerStarted { w with state := state, owners := ⟨ownerToken, 0, .starting⟩ :: w.owners }
  | .wait _ => { w with state := state, arrivals := w.arrivals ++ [w.due] }
  | .skip => { w with state := state }
  | .closed => { w with state := state }

def start (w : TaskRuns) (i : ℕ) (o : RunOwner) : TaskRuns :=
  match o.phase with
  | .starting =>
    if w.signalled then w.setOwner i { o with phase := .completed .cancelled }
    else { w.setOwner i { o with phase := .executing, runs := o.runs + 1 } with executes := w.executes + 1 }
  | _ => w

def finish (w : TaskRuns) (i : ℕ) (o : RunOwner) (result : AppResult Unit) : TaskRuns :=
  match o.phase with
  | .executing =>
    { w.setOwner i { o with phase := .completed (.executed w.executes result) } with
      completions := w.completions ++ [(w.executes, result)] }
  | _ => w

def interrupt (w : TaskRuns) (i : ℕ) (o : RunOwner) : TaskRuns :=
  match o.phase with
  | .executing => if w.signalled then w.setOwner i { o with phase := .completed .cancelled } else w
  | _ => w

def settle (w : TaskRuns) (i : ℕ) (o : RunOwner) : TaskRuns :=
  match o.phase with
  | .completed result =>
    let (settled, state) := w.state.drainScheduledRuns w.cancelled o.ownerToken result
    if settled.finished then w.retire i state ⟨settled.completedWaiters, settled.result, settled.releaseOwner⟩
    else { w.setOwner i { o with phase := .starting } with state := state }
  | _ => w

def dropOwner (w : TaskRuns) (i : ℕ) (o : RunOwner) : TaskRuns :=
  match o.phase with
  | .executing => w.setOwner i { o with phase := .dropping }
  | _ => w

def dropGuard (w : TaskRuns) (i : ℕ) (o : RunOwner) : TaskRuns :=
  match o.phase with
  | .dropping =>
    let ((waiters, owned), state) := w.state.dropOwnerGuard o.ownerToken
    w.retire i state ⟨waiters, .cancelled, owned⟩
  | _ => w

def release (w : TaskRuns) (j : ℕ) (d : Delivery) : TaskRuns :=
  if d.release then ownerFinished { w with deliveries := { d with release := false } :: w.deliveries.eraseIdx j } else w

def send (w : TaskRuns) (j : ℕ) (d : Delivery) : TaskRuns :=
  if d.release then w
  else
    match d.waiters with
    | [] => { w with deliveries := w.deliveries.eraseIdx j }
    | waiter :: rest =>
      { w with
        deliveries := { d with waiters := rest } :: w.deliveries.eraseIdx j
        answers := w.answers ++ [(waiter, d.result)] }

/-- `cancel_task_run_state`, up to its sends. -/
def cancelState (w : TaskRuns) : TaskRuns :=
  let (waiters, state) := w.state.cancelTaskRunState
  { w with state := state, deliveries := ⟨waiters, .cancelled, false⟩ :: w.deliveries }

/-- `f` of the element with the number `i`, if there is one. -/
def withOwner (w : TaskRuns) (i : ℕ) (f : RunOwner → TaskRuns) : TaskRuns := (w.owners[i]?).elim w f

def withDelivery (w : TaskRuns) (j : ℕ) (f : Delivery → TaskRuns) : TaskRuns := (w.deliveries[j]?).elim w f

def step (w : TaskRuns) : RunAct → TaskRuns
  | .call forceIfBusy => w.call forceIfBusy
  | .start i => w.withOwner i (w.start i)
  | .finish i result => w.withOwner i fun o => w.finish i o result
  | .interrupt i => w.withOwner i (w.interrupt i)
  | .settle i => w.withOwner i (w.settle i)
  | .dropOwner i => w.withOwner i (w.dropOwner i)
  | .dropGuard i => w.withOwner i (w.dropGuard i)
  | .release j => w.withDelivery j (w.release j)
  | .send j => w.withDelivery j (w.send j)
  | .cancelTaskRunState => w.cancelState
  | .cancel => { w with cancelled := true }
  | .signal => if w.cancelled then { w with signalled := true } else w
  | .otherStarted => ownerStarted { w with others := w.others + 1 }
  | .otherFinished => if w.others = 0 then w else ownerFinished { w with others := w.others - 1 }
  | .dropReceiver _ => w

end TaskRuns

end EasiFlux
