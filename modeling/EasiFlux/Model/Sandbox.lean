import EasiFlux.Lib.Files
import EasiFlux.Lib.Stops
import EasiFlux.Model.Compute
import EasiFlux.Model.Manifest

/-!
# The sandbox of the guests

`plugin/compute/sandbox.rs`: a module is checked, instantiated in a store of its own and called;
what the calls may use together is the budget of `execute_guest` or `execute_json`. A call that
is out of fuel is resumed by `finish_call`, which refills the store from the budget.

The engine (`Wasmi`), the parser of modules and the arithmetic of `f64` (`Doubles`) are crates and
hardware. A subtraction that would go below zero stops the program (`Stop.underflow`). The loop of
`finish_call` has a limit on its turns (`Stop.unfinished`), which is not in the code; nor are the
events of the store.
-/

namespace EasiFlux.Sandbox

open Stops
open CrashIo (Bytes)

def totalFuel : ℕ := 2000000

def fuelSlice : ℕ := 10000

/-- `DEADLINE`, in milliseconds -/
def deadline : ℕ := 2000

/-! ## Modules -/

structure MemoryType where
  memory64 : Bool
  shared : Bool
  pageSizeLog2 : Option ℕ
  initial : ℕ
  maximum : Option ℕ

/-- `wasmparser::Payload`, with what is read of it; what cannot be read is `none`. A type is the
number of its parameters and of its results. -/
inductive Payload
  | version
  | «end»
  | customSection
  | typeSection (count : ℕ) (types : List (Option (ℕ × ℕ)))
  | importSection (count : ℕ)
  | functionSection (count : ℕ)
  | globalSection (count : ℕ)
  | exportSection (count : ℕ)
  | dataSection (count : ℕ)
  | dataCountSection (count : ℕ)
  | memorySection (count : ℕ) (memories : List (Option MemoryType))
  | codeSectionStart (count : ℕ)
  | codeSectionEntry (locals : Option (ℕ × List (Option ℕ)))
  | other

def invalidModule : AppError := computeError "plugin_compute_invalid_module"

/-- The locals of a function, in groups: at most 256 in all. -/
def sumLocals : ℕ → List (Option ℕ) → AppResult Unit
  | _, [] => .ok ()
  | _, none :: _ => .error invalidModule
  | locals, some n :: rest =>
    if 2 ^ 32 ≤ locals + n ∨ 256 < locals + n then .error invalidModule else sumLocals (locals + n) rest

def MemoryType.allowed (memory : MemoryType) : Bool :=
  !memory.memory64 && !memory.shared && memory.pageSizeLog2.isNone && decide (memory.initial ≤ 16) &&
    memory.maximum.all (· ≤ 16)

def Payload.check : Payload → AppResult Unit
  | .version | .end | .customSection => .ok ()
  | .typeSection count types =>
    Results.ensure (count ≤ 128 ∧ types.all fun ty => ty.any fun (params, results) => decide (params ≤ 16 ∧ results ≤ 1))
      invalidModule
  | .importSection count => Results.ensure (count = 0) invalidModule
  | .functionSection count => Results.ensure (count ≤ 128) invalidModule
  | .globalSection count => Results.ensure (count ≤ 64) invalidModule
  | .exportSection count => Results.ensure (count ≤ 32) invalidModule
  | .dataSection count => Results.ensure (count ≤ 32) invalidModule
  | .dataCountSection count => Results.ensure (count ≤ 32) invalidModule
  | .memorySection count memories =>
    Results.ensure (count = 1 ∧ memories.all fun memory => memory.any MemoryType.allowed) invalidModule
  | .codeSectionStart count => Results.ensure (count ≤ 128) invalidModule
  | .codeSectionEntry none => .error invalidModule
  | .codeSectionEntry (some (count, locals)) =>
    if 256 < count then .error invalidModule else sumLocals 0 locals
  | .other => .error invalidModule

/-! ## The engine -/

/-- The functions that are asked for: `i32 -> i32`, `(i32, i32, f64) -> f64` and
`(i32, i32, i32, i32) -> i64`. -/
inductive Signature
  | alloc
  | series
  | json

def Signature.Params (F64 : Type) : Signature → Type
  | .alloc => ℤ
  | .series => ℤ × ℤ × F64
  | .json => ℤ × ℤ × ℤ × ℤ

def Signature.Result (F64 : Type) : Signature → Type
  | .alloc => ℤ
  | .series => F64
  | .json => ℤ

/-- `wasmi::TypedResumableCall` -/
inductive ResumableCall (Suspended R : Type)
  | finished (value : R)
  | hostTrap
  | outOfFuel (suspended : Suspended)

structure Doubles where
  F64 : Type
  isFinite : F64 → Bool
  /-- `x < f64::from(n)` and `x > f64::from(n)` -/
  below : F64 → ℤ → Bool
  above : F64 → ℤ → Bool
  toLeBytes : F64 → Bytes

/-- `wasmi` and `wasmparser` -/
structure Wasmi (F64 : Type) where
  Module : Type
  Instance : Type
  Memory : Type
  Store : Type
  Func : Signature → Type
  Suspended : Signature → Type
  parseAll : Bytes → List (Option Payload)
  newModule : Bytes → Option Module
  hasImports : Module → Bool
  newStore : Store
  getFuel : Store → Option ℕ
  setFuel : Store → ℕ → Option Store
  instantiateAndStart : Module → Store → Option Instance × Store
  getMemory : Instance → Store → String → Option Memory
  getTypedFunc : (sig : Signature) → Instance → Store → String → Option (Func sig)
  dataSize : Memory → Store → ℕ
  data : Memory → Store → Bytes
  write : Memory → Store → ℕ → Bytes → Option Store
  callResumable : (sig : Signature) → Func sig → sig.Params F64 → Store →
    Option (ResumableCall (Suspended sig) (sig.Result F64)) × Store
  resume : (sig : Signature) → Suspended sig → Store →
    Option (ResumableCall (Suspended sig) (sig.Result F64)) × Store
  requiredFuel : (sig : Signature) → Suspended sig → ℕ

section Execution

variable {D : Doubles} (W : Wasmi D.F64)

/-- What changes a store. -/
inductive StoreAction
  | setFuel
  | instantiate
  | call
  | resume
  | write
  deriving DecidableEq

structure StoreEvent where
  action : StoreAction
  before : W.Store
  after : W.Store

/-- The budget (`unissued_fuel`), the store, how often the flag and the clock have been looked at,
and what has been done to the store, the last first. -/
structure Execution where
  unissuedFuel : ℕ
  store : W.Store
  checks : ℕ
  events : List (StoreEvent W)

inductive Stop
  | error (e : AppError)
  | underflow
  | unfinished
  deriving DecidableEq

abbrev Exec (α : Type) := Prog (Execution W) Stop α

/-- The cancel flag and the time since the start, as they are the `n`-th time they are looked at. -/
structure Surroundings where
  cancelled : ℕ → Bool
  elapsed : ℕ → ℕ

variable {W}

def fail {α : Type} (code : String) : Exec W α := throw (.error (computeError code))

/-- `ok_or` and `map_err` -/
def require {α : Type} (x : Option α) (code : String) : Exec W α :=
  match x with
  | some a => pure a
  | none => fail code

def lift {α : Type} : AppResult α → Exec W α
  | .ok a => pure a
  | .error e => throw (.error e)

/-- `a - b` of two `u64` -/
def checkedSub (a b : ℕ) : Exec W ℕ := if b ≤ a then pure (a - b) else throw .underflow

/-- Something is done to the store. -/
def act {α : Type} (action : StoreAction) (f : W.Store → α × W.Store) : Exec W α := do
  let x ← get
  let (a, after) := f x.store
  set { x with store := after, events := ⟨action, x.store, after⟩ :: x.events }
  pure a

def setFuel (fuel : ℕ) : Exec W Unit := do
  let done ← act .setFuel fun s =>
    match W.setFuel s fuel with
    | some s' => (some (), s')
    | none => (none, s)
  require done "plugin_compute_internal"

def writeMemory (memory : W.Memory) (offset : ℕ) (bytes : Bytes) : Exec W Unit := do
  let done ← act .write fun s =>
    match W.write memory s offset bytes with
    | some s' => (some (), s')
    | none => (none, s)
  require done "plugin_compute_memory"

/-! ## The budget -/

variable (S : Surroundings)

/-- `Budget::check` -/
def check : Exec W Unit := do
  let x ← get
  set { x with checks := x.checks + 1 }
  if S.cancelled x.checks then fail "plugin_compute_cancelled"
  else if deadline ≤ S.elapsed x.checks then fail "plugin_compute_deadline"
  else pure ()

/-- One turn of the loop of `finish_call`. -/
def finishTurn (sig : Signature) (call : ResumableCall (W.Suspended sig) (sig.Result D.F64)) :
    Exec W (ResumableCall (W.Suspended sig) (sig.Result D.F64) ⊕ sig.Result D.F64) := do
  check S
  match call with
  | .finished value => pure (.inr value)
  | .hostTrap => fail "plugin_compute_trap"
  | .outOfFuel suspended =>
    let x ← get
    let remaining ← require (W.getFuel x.store) "plugin_compute_internal"
    let room ← checkedSub fuelSlice remaining
    let added := min room x.unissuedFuel
    if added = 0 ∨ fuelSlice < W.requiredFuel sig suspended then fail "plugin_compute_budget"
    else
      let unissuedFuel ← checkedSub x.unissuedFuel added
      set { x with unissuedFuel := unissuedFuel }
      setFuel (remaining + added)
      let next ← act .resume (W.resume sig suspended)
      let next ← require next "plugin_compute_trap"
      pure (.inl next)

variable (turns : ℕ)

/-- `Budget::finish_call` -/
def finishCall (sig : Signature) (call : ResumableCall (W.Suspended sig) (sig.Result D.F64)) :
    Exec W (sig.Result D.F64) :=
  repeatUntil .unfinished (finishTurn S sig) turns call

/-- `Budget::call` -/
def call (sig : Signature) (func : W.Func sig) (params : sig.Params D.F64) : Exec W (sig.Result D.F64) := do
  check S
  let started ← act .call (W.callResumable sig func params)
  let started ← require started "plugin_compute_trap"
  finishCall S turns sig started

/-! ## The executions -/

variable (W)

def preflight (bytes : Bytes) : AppResult Unit :=
  (W.parseAll bytes).forM fun payload =>
    match payload with
    | some payload => payload.check
    | none => .error invalidModule

def instantiate (bytes : Bytes) : Exec W W.Instance := do
  lift (preflight W bytes)
  let module ← require (W.newModule bytes) "plugin_compute_invalid_module"
  if W.hasImports module then fail "plugin_compute_invalid_module"
  else
    check S
    let x ← get
    set { x with store := W.newStore }
    setFuel fuelSlice
    let inst ← act .instantiate (W.instantiateAndStart module)
    require inst "plugin_compute_invalid_module"

/-- `usize::try_from` of an `i32` -/
def toUsize (ptr : ℤ) : Option ℕ := if 0 ≤ ptr then some ptr.toNat else none

def checkedRange (offset len size : ℕ) : AppResult Unit :=
  Results.ensure (offset + len ≤ size) (computeError "plugin_compute_memory")

variable (D) in
def validateInput (values : List D.F64) (parameter : D.F64) (params : Plugin.Manifest.PluginComputeParams) : AppResult Unit := do
  Results.ensure ((1 ≤ values.length ∧ values.length ≤ 4096) ∧ values.all D.isFinite = true)
    (computeError "plugin_compute_invalid_input")
  Results.ensure (D.isFinite parameter ∧ ¬D.below parameter params.parameter.min ∧ ¬D.above parameter params.parameter.max)
    (computeError "plugin_compute_invalid_parameter")

def executeGuest {Version : Type} (crates : Plugin.Manifest.Crates Version) (params : Plugin.Manifest.PluginComputeParams)
    (values : List D.F64) (parameter : D.F64) : Exec W D.F64 := do
  check S
  lift (validateInput D values parameter params)
  lift ((params.validate crates).mapError fun _ => invalidModule)
  let bytes ← lift ((Plugin.Manifest.moduleBytes crates "compute module too large" "invalid compute module encoding"
    "invalid compute module header or encoding" params.moduleBase64).mapError fun _ => invalidModule)
  let inst ← instantiate W S bytes
  let x ← get
  let memory ← require (W.getMemory inst x.store "memory") "plugin_compute_invalid_abi"
  let alloc ← require (W.getTypedFunc .alloc inst x.store "alloc") "plugin_compute_invalid_abi"
  let run ← require (W.getTypedFunc .series inst x.store "run") "plugin_compute_invalid_abi"
  let length := values.length * 8
  let ptr ← call S turns .alloc alloc (length : ℤ)
  let offset ← require (toUsize ptr) "plugin_compute_memory"
  let x ← get
  lift (checkedRange offset length (W.dataSize memory x.store))
  writeMemory memory offset (values.flatMap D.toLeBytes)
  let value ← call S turns .series run (ptr, (values.length : ℤ), parameter)
  if D.isFinite value then pure value else fail "plugin_compute_invalid_output"

def executeJson (bytes context input : Bytes) : Exec W Bytes := do
  lift (Results.ensure (context.length ≤ 65536 ∧ input.length ≤ 4096) (computeError "plugin_compute_invalid_input"))
  check S
  let inst ← instantiate W S bytes
  let x ← get
  let memory ← require (W.getMemory inst x.store "memory") "plugin_compute_invalid_abi"
  let alloc ← require (W.getTypedFunc .alloc inst x.store "alloc") "plugin_compute_invalid_abi"
  let run ← require (W.getTypedFunc .json inst x.store "run") "plugin_compute_invalid_abi"
  let cp ← call S turns .alloc alloc (context.length : ℤ)
  let ip ← call S turns .alloc alloc (input.length : ℤ)
  let co ← require (toUsize cp) "plugin_compute_memory"
  let io ← require (toUsize ip) "plugin_compute_memory"
  let x ← get
  lift (checkedRange co context.length (W.dataSize memory x.store))
  lift (checkedRange io input.length (W.dataSize memory x.store))
  lift (Results.ensure (¬(co < io + input.length ∧ io < co + context.length)) (computeError "plugin_compute_memory"))
  writeMemory memory co context
  writeMemory memory io input
  let packed : ℤ ← call S turns .json run (cp, (context.length : ℤ), ip, (input.length : ℤ))
  -- `as u64`, and its two halves
  let word := (packed % 2 ^ 64).toNat
  let offset := word / 2 ^ 32
  let len := word % 2 ^ 32
  lift (Results.ensure (len ≤ 16384) (computeError "plugin_compute_invalid_output"))
  let x ← get
  lift (checkedRange offset len (W.dataSize memory x.store))
  let output := ((W.data memory x.store).drop offset).take len
  lift (Results.ensure ((String.fromUTF8? ⟨output.toArray⟩).isSome = true) (computeError "plugin_compute_invalid_output"))
  pure output

/-- The budget of a new execution; the store is made by `instantiate`. -/
def Execution.new : Execution W where
  unissuedFuel := totalFuel - fuelSlice
  store := W.newStore
  checks := 0
  events := []

end Execution

end EasiFlux.Sandbox
