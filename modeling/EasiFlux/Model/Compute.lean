import EasiFlux.Lib.FairLock
import EasiFlux.Lib.Results
import EasiFlux.Lib.Steps
import EasiFlux.Model.Packages

/-!
# Plugin computations beside lifecycle operations

`execute_compute` and `cancel_compute` of `plugin::runtime::compute`, the `ComputeSlot` of
`plugin::compute::slot` and the reservation of a lifecycle operation in `plugin::runtime`.

A computation takes the operation gate twice, at its admission and for its return, both
times without waiting; its guest runs in a worker of its own that owns the lease of the slot
and outlives the caller. A lifecycle operation takes a place in the line of the gate,
advances the epoch and invalidates the slot, in this order, and enters when it holds the
gate. `Compute.step` lets any number of computations, guests, lifecycle operations and other
users of the gate and of the slot (workflows and strategies) interleave between any two
accesses to what they share.

What `Registry::capture_compute` and the guest compute is left open: the registry and what
is captured from it are of any type, and a guest may end with any outcome at any time. The
clock (`ComputeClock`) is not in the code: it counts what lifecycle operations have done,
and a call notes it as it goes.
-/

namespace EasiFlux

open Results

/-- `plugin::compute::error` -/
def computeError (code : String) : AppError := .plugin code "插件计算请求未完成" none

/-- `validate_request_id` -/
def validateRequestId (id : String) : AppResult Unit :=
  ensure ((1 ≤ id.utf8ByteSize ∧ id.utf8ByteSize ≤ 64) ∧ (id.toList.all fun c => c.isAlphanum || c == '-') = true)
    (computeError "plugin_compute_invalid_request")

/-- `parse::<u64>` followed by `to_string` gives the text back. -/
def isCounter (text : String) : Bool :=
  let digits := text.toList
  let value := digits.foldl (fun n c => 10 * n + (c.toNat - '0'.toNat)) 0
  (digits.all Char.isDigit) && decide (value < 2 ^ 64) && Nat.toDigits 10 value == digits

structure ComputeRequest (Number : Type) where
  requestId : String
  pluginId : String
  contributionId : String
  expectedCatalogGeneration : String
  expectedRevision : String
  values : List Number
  parameter : Number

structure ComputeResult (Number : Type) where
  schemaVersion : ℕ
  requestId : String
  pluginId : String
  contributionId : String
  catalogGeneration : String
  revision : String
  value : Number
  inputCount : ℕ
  parameter : Number

namespace ComputeRequest

variable {Number : Type} (r : ComputeRequest Number)

def validate : AppResult Unit := do
  validateRequestId r.requestId
  ensure (Plugin.isReverseDomain r.pluginId ∧ Plugin.isReverseDomain r.contributionId) (computeError "plugin_compute_invalid_request")
  ensure (isCounter r.expectedCatalogGeneration ∧ isCounter r.expectedRevision)
    (computeError "plugin_compute_invalid_request")

def result (value : Number) : ComputeResult Number where
  schemaVersion := 1
  requestId := r.requestId
  pluginId := r.pluginId
  contributionId := r.contributionId
  catalogGeneration := r.expectedCatalogGeneration
  revision := r.expectedRevision
  value := value
  inputCount := r.values.length
  parameter := r.parameter

end ComputeRequest

/-- The slot, with the cancel flags of all its leases: a flag is known by the number of the
lease it was made for. -/
structure ComputeSlot where
  active : Option (String × ℕ)
  flags : List Bool
  deriving DecidableEq, Repr

namespace ComputeSlot

variable (s : ComputeSlot)

/-- `cancel.store(true)` -/
def cancelFlag (flag : ℕ) : ComputeSlot := { s with flags := s.flags.set flag true }

def acquire (id : String) : AppResult (ℕ × ComputeSlot) :=
  if s.active.isSome then .error (computeError "plugin_compute_busy")
  else .ok (s.flags.length, ⟨some (id, s.flags.length), s.flags ++ [false]⟩)

def cancel (id : String) : Bool × ComputeSlot :=
  match s.active.filter (·.1 == id) with
  | some (_, flag) => (true, s.cancelFlag flag)
  | none => (false, s)

def invalidate : ComputeSlot :=
  match s.active with
  | some (_, flag) => s.cancelFlag flag
  | none => s

/-- The drop of the lease with this flag. -/
def dropLease (flag : ℕ) : ComputeSlot :=
  if s.active.any (·.2 == flag) then { s with active := none } else s

end ComputeSlot

/-- How often a lifecycle operation was reserved, advanced the epoch, entered. -/
structure ComputeClock where
  reserved : ℕ
  advanced : ℕ
  entered : ℕ
  deriving DecidableEq, Repr

namespace Compute

/-- Who stands in the line of the operation gate. -/
inductive GateUser
  | call (c : ℕ)
  | lifecycle (l : ℕ)
  | other (o : ℕ)
  deriving DecidableEq, Repr

/-- Who acquires a lease of the slot; a call hands it on to its guest. -/
inductive Lessee
  | call (c : ℕ)
  | other (o : ℕ)
  deriving DecidableEq, Repr

/-- What a call still has to drop. -/
inductive Resource
  | cancelOnDrop (flag : ℕ)
  | lease (flag : ℕ)
  | operation
  deriving DecidableEq, Repr

variable (Number Captured : Type)

/-- The locals of a call from its admission on. `admitted` is the clock when it took the
gate. -/
structure Frame where
  request : ComputeRequest Number
  epoch : ℕ
  admitted : ComputeClock

/-- The clock when a call was admitted, when it took the gate for its return, when it
compared the epoch and when it gave the gate back and returned. -/
structure Passage where
  admitted : ComputeClock
  regated : ComputeClock
  compared : ComputeClock
  returned : ComputeClock
  deriving DecidableEq, Repr

/-- Where a call stands in `execute_compute`. -/
inductive Call
  | idle
  | loaded (request : ComputeRequest Number) (epoch : ℕ)
  | gated (f : Frame Number)
  | captured (f : Frame Number) (captured : Captured)
  | leased (f : Frame Number) (captured : Captured) (flag : ℕ)
  | confirmed (f : Frame Number) (captured : Captured) (flag : ℕ)
  | running (f : Frame Number) (captured : Captured) (flag : ℕ)
  | resumed (f : Frame Number) (captured : Captured) (flag : ℕ) (value : Number)
  | regated (f : Frame Number) (captured : Captured) (flag : ℕ) (value : Number) (regated : ComputeClock)
  | uncancelled (f : Frame Number) (captured : Captured) (flag : ℕ) (value : Number) (regated : ComputeClock)
  | current (f : Frame Number) (captured : Captured) (flag : ℕ) (value : Number) (regated compared : ComputeClock)
  | returning (f : Frame Number) (flag : ℕ) (value : Number) (regated compared : ComputeClock)
  | returned (result : ComputeResult Number) (passage : Passage)
  /-- The call has failed, or its caller is gone: it drops what it holds, one after the other. -/
  | leaving (error : Option AppError) (held : List Resource)
  | failed (error : Option AppError)

/-- The worker of a call. -/
inductive Guest
  | none
  | running (flag : ℕ)
  /-- The worker has dropped the lease; without an outcome it has panicked. -/
  | done (outcome : Option (AppResult Number))

/-- A lifecycle operation, step by step. -/
inductive Lifecycle
  | idle
  | reserved
  | advanced
  | ready
  | entered
  | finished
  deriving DecidableEq, Repr

variable (Registry : Type)

/-- The runtime and everything that runs in it. -/
structure World where
  gate : FairLock GateUser
  computeEpoch : ℕ
  initialDiscoveryAttempted : Bool
  registry : Registry
  slot : ComputeSlot
  /-- Who acquired each lease, and with which request id. -/
  lessees : List (Lessee × String)
  calls : ℕ → Call Number Captured
  guests : ℕ → Guest Number
  lifecycles : ℕ → Lifecycle
  /-- The lease another user of the slot holds. -/
  others : ℕ → Option ℕ
  clock : ComputeClock

/-- A step. What the code does not decide is given with it: the request, the outcome of
the guest, the published registry. -/
inductive Action
  | load (c : ℕ) (request : ComputeRequest Number)
  | tryLock (c : ℕ)
  | capture (c : ℕ)
  | acquire (c : ℕ)
  | confirm (c : ℕ)
  | spawn (c : ℕ)
  | guest (c : ℕ) (outcome : Option (AppResult Number))
  | resume (c : ℕ)
  | relock (c : ℕ)
  | readFlag (c : ℕ)
  | compare (c : ℕ)
  | revalidate (c : ℕ)
  | giveBack (c : ℕ)
  /-- The caller is dropped while the call awaits. -/
  | abandon (c : ℕ)
  /-- The next drop of a call that is leaving. -/
  | unwind (c : ℕ)
  | cancel (id : String)
  | reserve (l : ℕ)
  | advance (l : ℕ)
  | invalidate (l : ℕ)
  | enter (l : ℕ)
  | publish (l : ℕ) (registry : Registry) (discovered : Bool)
  | finish (l : ℕ)
  | queueOther (o : ℕ)
  | leaveOther (o : ℕ)
  | leaseOther (o : ℕ) (id : String)
  | cancelOther (o : ℕ)
  | dropOther (o : ℕ)

variable {Number Captured Registry}

namespace Call

/-- What an early return drops, or a drop of the caller at the points where it can be
dropped, in the order of the drops. -/
def held : Call Number Captured → List Resource
  | .gated _ | .captured _ _ => [.operation]
  | .leased _ _ flag | .confirmed _ _ flag => [.cancelOnDrop flag, .lease flag, .operation]
  | .running _ _ flag | .resumed _ _ flag _ => [.cancelOnDrop flag]
  | .regated _ _ flag _ _ | .uncancelled _ _ flag _ _ | .current _ _ flag _ _ _ | .returning _ flag _ _ _ =>
    [.operation, .cancelOnDrop flag]
  | .leaving _ held => held
  | .idle | .loaded _ _ | .returned _ _ | .failed _ => []

/-- The await points of `execute_compute`: the two reads of the registry and the join of
the worker. -/
def awaits : Call Number Captured → Bool
  | .gated _ | .running _ _ _ | .regated _ _ _ _ _ => true
  | _ => false

def fail (call : Call Number Captured) (error : AppError) : Call Number Captured := .leaving (some error) call.held

end Call

namespace World

variable (w : World Number Captured Registry)

def setCall (c : ℕ) (call : Call Number Captured) : World Number Captured Registry :=
  { w with calls := Function.update w.calls c call }

def setLifecycle (l : ℕ) (phase : Lifecycle) : World Number Captured Registry :=
  { w with lifecycles := Function.update w.lifecycles l phase }

/-- A drop of the call `c`. -/
def dropResource (c : ℕ) : Resource → World Number Captured Registry
  | .cancelOnDrop flag => { w with slot := w.slot.cancelFlag flag }
  | .lease flag => { w with slot := w.slot.dropLease flag }
  | .operation => { w with gate := w.gate.leave (.call c) }

/-- `u64::MAX` -/
def maxEpoch : ℕ := 2 ^ 64 - 1

variable [DecidableEq Captured] (captureCompute : Registry → ComputeRequest Number → AppResult Captured)

def step : Action Number Registry → World Number Captured Registry
  | .load c request =>
    match w.calls c, request.validate with
    | .idle, .ok () => w.setCall c (.loaded request w.computeEpoch)
    | .idle, .error e => w.setCall c (.leaving (some e) [])
    | _, _ => w
  | .tryLock c =>
    match w.calls c with
    | .loaded request epoch =>
      match w.gate.tryLock (.call c) with
      | none => w.setCall c (.leaving (some (computeError "plugin_compute_unavailable")) [])
      | some gate => { w with gate }.setCall c (.gated ⟨request, epoch, w.clock⟩)
    | _ => w
  | .capture c =>
    match w.calls c with
    | .gated f =>
      if w.initialDiscoveryAttempted then
        match captureCompute w.registry f.request with
        | .ok captured => w.setCall c (.captured f captured)
        | .error e => w.setCall c ((w.calls c).fail e)
      else w.setCall c ((w.calls c).fail (computeError "plugin_compute_unavailable"))
    | _ => w
  | .acquire c =>
    match w.calls c with
    | .captured f captured =>
      match w.slot.acquire f.request.requestId with
      | .ok (flag, slot) =>
        { w with slot, lessees := w.lessees ++ [(Lessee.call c, f.request.requestId)] }.setCall c (.leased f captured flag)
      | .error e => w.setCall c ((w.calls c).fail e)
    | _ => w
  | .confirm c =>
    match w.calls c with
    | .leased f captured flag =>
      if f.epoch = maxEpoch ∨ w.computeEpoch ≠ f.epoch then
        w.setCall c ((w.calls c).fail (computeError "plugin_compute_cancelled"))
      else w.setCall c (.confirmed f captured flag)
    | _ => w
  | .spawn c =>
    match w.calls c with
    | .confirmed f captured flag =>
      { w with gate := w.gate.leave (.call c), guests := Function.update w.guests c (.running flag) }.setCall c
        (.running f captured flag)
    | _ => w
  | .guest c outcome =>
    match w.guests c with
    | .running flag => { w with slot := w.slot.dropLease flag, guests := Function.update w.guests c (.done outcome) }
    | _ => w
  | .resume c =>
    match w.calls c, w.guests c with
    | .running f captured flag, .done (some (.ok value)) => w.setCall c (.resumed f captured flag value)
    | .running _ _ _, .done (some (.error e)) => w.setCall c ((w.calls c).fail e)
    | .running _ _ _, .done none => w.setCall c ((w.calls c).fail (computeError "plugin_compute_internal"))
    | _, _ => w
  | .relock c =>
    match w.calls c with
    | .resumed f captured flag value =>
      match w.gate.tryLock (.call c) with
      | none => w.setCall c ((w.calls c).fail (computeError "plugin_compute_unavailable"))
      | some gate => { w with gate }.setCall c (.regated f captured flag value w.clock)
    | _ => w
  | .readFlag c =>
    match w.calls c with
    | .regated f captured flag value regated =>
      if w.slot.flags[flag]? = some false then w.setCall c (.uncancelled f captured flag value regated)
      else w.setCall c ((w.calls c).fail (computeError "plugin_compute_cancelled"))
    | _ => w
  | .compare c =>
    match w.calls c with
    | .uncancelled f captured flag value regated =>
      if w.computeEpoch = f.epoch then w.setCall c (.current f captured flag value regated w.clock)
      else w.setCall c ((w.calls c).fail (computeError "plugin_compute_cancelled"))
    | _ => w
  | .revalidate c =>
    match w.calls c with
    | .current f captured flag value regated compared =>
      match captureCompute w.registry f.request with
      | .ok again =>
        if again = captured then w.setCall c (.returning f flag value regated compared)
        else w.setCall c ((w.calls c).fail (computeError "plugin_compute_stale"))
      | .error e => w.setCall c ((w.calls c).fail e)
    | _ => w
  | .giveBack c =>
    match w.calls c with
    | .returning f flag value regated compared =>
      -- nobody reads the flag any more: the guest is done, and this was the last read of the call
      ((w.dropResource c .operation).dropResource c (.cancelOnDrop flag)).setCall c
        (.returned (f.request.result value) ⟨f.admitted, regated, compared, w.clock⟩)
    | _ => w
  | .abandon c => if (w.calls c).awaits then w.setCall c (.leaving none (w.calls c).held) else w
  | .unwind c =>
    match w.calls c with
    | .leaving error [] => w.setCall c (.failed error)
    | .leaving error (resource :: held) => (w.dropResource c resource).setCall c (.leaving error held)
    | _ => w
  | .cancel id =>
    match validateRequestId id with
    | .ok () => { w with slot := (w.slot.cancel id).2 }
    | .error _ => w
  | .reserve l =>
    match w.lifecycles l with
    | .idle =>
      { w with gate := w.gate.lock (.lifecycle l), clock.reserved := w.clock.reserved + 1 }.setLifecycle l .reserved
    | _ => w
  | .advance l =>
    match w.lifecycles l with
    | .reserved =>
      { w with computeEpoch := min (w.computeEpoch + 1) maxEpoch, clock.advanced := w.clock.advanced + 1 }.setLifecycle l
        .advanced
    | _ => w
  | .invalidate l =>
    match w.lifecycles l with
    | .advanced => { w with slot := w.slot.invalidate }.setLifecycle l .ready
    | _ => w
  | .enter l =>
    match w.lifecycles l with
    | .ready =>
      if w.gate.Held (.lifecycle l) then { w with clock.entered := w.clock.entered + 1 }.setLifecycle l .entered else w
    | _ => w
  | .publish l registry discovered =>
    match w.lifecycles l with
    | .entered => { w with registry, initialDiscoveryAttempted := w.initialDiscoveryAttempted || discovered }
    | _ => w
  | .finish l =>
    match w.lifecycles l with
    | .entered => { w with gate := w.gate.leave (.lifecycle l) }.setLifecycle l .finished
    | _ => w
  | .queueOther o => { w with gate := w.gate.lock (.other o) }
  | .leaveOther o => { w with gate := w.gate.leave (.other o) }
  | .leaseOther o id =>
    match w.others o, w.slot.acquire id with
    | none, .ok (flag, slot) =>
      { w with slot, lessees := w.lessees ++ [(.other o, id)], others := Function.update w.others o (some flag) }
    | _, _ => w
  | .cancelOther o =>
    match w.others o with
    | some flag => { w with slot := w.slot.cancelFlag flag }
    | none => w
  | .dropOther o =>
    match w.others o with
    | some flag => { w with slot := w.slot.dropLease flag, others := Function.update w.others o none }
    | none => w

/-- Nothing runs yet. -/
def init (registry : Registry) : World Number Captured Registry where
  gate := .free
  computeEpoch := 0
  initialDiscoveryAttempted := false
  registry := registry
  slot := ⟨none, []⟩
  lessees := []
  calls _ := .idle
  guests _ := .none
  lifecycles _ := .idle
  others _ := none
  clock := ⟨0, 0, 0⟩

/-- What the runtime is after the steps `as`. -/
def run (registry : Registry) (as : List (Action Number Registry)) : World Number Captured Registry :=
  Steps.run (fun w a => w.step captureCompute a) (init registry) as

end World

end Compute

end EasiFlux
