import EasiFlux.Model.Sandbox

/-!
# A guest does not outrun its fuel

What an execution puts into its store comes out of `TOTAL_FUEL`: the first slice when the store is
made, the rest of it through `finish_call`. Each refill takes at least one unit of `unissued_fuel`,
and so does each resume, which follows a refill; hence the loop ends by itself.

* `Paid`: the invariant. The fuel put in and what is left of the budget are at most `TOTAL_FUEL`,
  the store holds at most a slice, and each resume is paid for.
* `meets_finishTurn`: what a turn of the loop keeps, and that a resume lowers `unissued_fuel`.
* **`guest_in_budget`**: both executions, whatever the guest, the flag and the clock do.
-/

namespace EasiFlux.Sandbox

open Stops
open CrashIo (Bytes)

variable {D : Doubles}

/-- How the engine meters fuel: a guest consumes at most what is in its store. What a suspended call
says it requires is not restricted. -/
structure Wasmi.Metered (W : Wasmi D.F64) : Prop where
  newStore : W.getFuel W.newStore = some 0
  setFuel : ∀ s n s', W.setFuel s n = some s' → W.getFuel s' = some n
  instantiate : ∀ module s n, W.getFuel s = some n → ∃ k ≤ n, W.getFuel (W.instantiateAndStart module s).2 = some k
  call : ∀ sig func params s n, W.getFuel s = some n →
    ∃ k ≤ n, W.getFuel (W.callResumable sig func params s).2 = some k
  resume : ∀ sig suspended s n, W.getFuel s = some n → ∃ k ≤ n, W.getFuel (W.resume sig suspended s).2 = some k
  write : ∀ memory s offset bytes s', W.write memory s offset bytes = some s' → W.getFuel s' = W.getFuel s

/-! ## What has been put in -/

section Ledger

variable {W : Wasmi D.F64}

def fuelOf (W : Wasmi D.F64) (s : W.Store) : ℕ := (W.getFuel s).getD 0

/-- The fuel an event puts into the store. -/
def StoreEvent.put (e : StoreEvent W) : ℕ :=
  if e.action = .setFuel then fuelOf W e.after - fuelOf W e.before else 0

def issued (events : List (StoreEvent W)) : ℕ := (events.map StoreEvent.put).sum

def resumes (events : List (StoreEvent W)) : ℕ := events.countP fun e => e.action = .resume

def StoreEvent.InSlice (e : StoreEvent W) : Prop := fuelOf W e.before ≤ fuelSlice ∧ fuelOf W e.after ≤ fuelSlice

/-- What may be said of an execution at any moment. -/
structure WithinBudget (x : Execution W) : Prop where
  issued : issued x.events ≤ totalFuel
  held : ∀ e ∈ x.events, e.InSlice
  resumes : resumes x.events ≤ totalFuel - fuelSlice

/-- Where and why an execution stops. -/
structure Stopped (turns : ℕ) (stop : Stop) (x : Execution W) : Prop where
  within : WithinBudget x
  no_underflow : stop ≠ .underflow
  ends : totalFuel - fuelSlice < turns → stop ≠ .unfinished

/-- The invariant once the store has its fuel; `paid` resumes have been paid for. -/
structure Paid (paid : ℕ) (x : Execution W) : Prop where
  fuel : ∃ n ≤ fuelSlice, W.getFuel x.store = some n
  balance : Sandbox.issued x.events + x.unissuedFuel ≤ totalFuel
  held : ∀ e ∈ x.events, e.InSlice
  resumed : Sandbox.resumes x.events + paid + x.unissuedFuel ≤ totalFuel - fuelSlice

/-- Before `added` is put into the store, which pays for `paid` resumes. -/
structure Refilling (remaining added paid : ℕ) (x : Execution W) : Prop where
  fuel : W.getFuel x.store = some remaining
  fits : remaining + added ≤ fuelSlice
  balance : Sandbox.issued x.events + added + x.unissuedFuel ≤ totalFuel
  held : ∀ e ∈ x.events, e.InSlice
  resumed : Sandbox.resumes x.events + paid + x.unissuedFuel ≤ totalFuel - fuelSlice

/-- Before the store is made. -/
structure Unfueled (x : Execution W) : Prop where
  unissued : x.unissuedFuel = totalFuel - fuelSlice
  events : x.events = []

variable {x : Execution W} {turns paid remaining added : ℕ}

theorem Paid.within (h : Paid paid x) : WithinBudget x where
  issued := le_trans (Nat.le_add_right _ _) h.balance
  held := h.held
  resumes := by
    have := h.resumed
    omega

theorem Refilling.within (h : Refilling remaining added paid x) : WithinBudget x where
  issued := by
    have := h.balance
    omega
  held := h.held
  resumes := by
    have := h.resumed
    omega

theorem Unfueled.within (h : Unfueled x) : WithinBudget x := by
  constructor <;> simp [h.events, Sandbox.issued, Sandbox.resumes]

theorem WithinBudget.error (h : WithinBudget x) (e : AppError) : Stopped turns (.error e) x :=
  ⟨h, by simp, fun _ => by simp⟩

/-- The execution after something was done to its store. -/
def Execution.after (x : Execution W) (action : StoreAction) (s : W.Store) : Execution W :=
  { x with store := s, events := ⟨action, x.store, s⟩ :: x.events }

theorem issued_after (x : Execution W) (action : StoreAction) (s : W.Store) :
    issued (x.after action s).events = StoreEvent.put ⟨action, x.store, s⟩ + issued x.events := by
  simp [Execution.after, issued]

theorem resumes_after (x : Execution W) (action : StoreAction) (s : W.Store) :
    resumes (x.after action s).events = resumes x.events + if action = .resume then 1 else 0 := by
  simp [Execution.after, resumes, List.countP_cons]

theorem fuelOf_eq {s : W.Store} {n : ℕ} (h : W.getFuel s = some n) : fuelOf W s = n := by
  unfold fuelOf
  rw [h, Option.getD_some]

/-- The guest runs, and consumes fuel. -/
theorem Paid.ran {action : StoreAction} {s : W.Store} (h : Paid (paid + if action = .resume then 1 else 0) x)
    (haction : action ≠ .setFuel) (hs : ∀ n, W.getFuel x.store = some n → ∃ k ≤ n, W.getFuel s = some k) :
    Paid paid (x.after action s) := by
  obtain ⟨n, hn, hfuel⟩ := h.fuel
  obtain ⟨k, hk, hleft⟩ := hs n hfuel
  have hput : StoreEvent.put (W := W) ⟨action, x.store, s⟩ = 0 := if_neg haction
  constructor
  · exact ⟨k, hk.trans hn, hleft⟩
  · rw [issued_after, hput, Nat.zero_add]
    exact h.balance
  · intro e he
    rcases List.mem_cons.1 he with rfl | he
    · exact ⟨(fuelOf_eq hfuel).trans_le hn, (fuelOf_eq hleft).trans_le (hk.trans hn)⟩
    · exact h.held e he
  · rw [resumes_after]
    have := h.resumed
    show _ + paid + x.unissuedFuel ≤ _
    omega

/-- The store is refilled. -/
theorem Refilling.filled {s : W.Store} (h : Refilling remaining added paid x)
    (hs : W.getFuel s = some (remaining + added)) : Paid paid (x.after .setFuel s) := by
  have hput : StoreEvent.put (W := W) ⟨.setFuel, x.store, s⟩ = added := by
    unfold StoreEvent.put
    rw [if_pos rfl, fuelOf_eq hs, fuelOf_eq h.fuel, Nat.add_sub_cancel_left]
  constructor
  · exact ⟨_, h.fits, hs⟩
  · rw [issued_after, hput]
    have := h.balance
    show _ + x.unissuedFuel ≤ _
    omega
  · intro e he
    rcases List.mem_cons.1 he with rfl | he
    · exact ⟨(fuelOf_eq h.fuel).trans_le (le_trans (Nat.le_add_right _ _) h.fits), (fuelOf_eq hs).trans_le h.fits⟩
    · exact h.held e he
  · rw [resumes_after]
    exact h.resumed

/-- Nothing is put in. -/
theorem Refilling.refused (h : Refilling remaining added paid x) : WithinBudget (x.after .setFuel x.store) := by
  have hfuel := fuelOf_eq h.fuel
  have hfits := h.fits
  constructor
  · rw [issued_after]
    have := h.balance
    simp only [StoreEvent.put, if_true, Nat.sub_self]
    omega
  · intro e he
    rcases List.mem_cons.1 he with rfl | he
    · exact ⟨by dsimp only; omega, by dsimp only; omega⟩
    · exact h.held e he
  · rw [resumes_after]
    exact h.within.resumes

end Ledger

/-! ## The steps of an execution -/

section Steps

variable {W : Wasmi D.F64} {S : Surroundings} {turns paid remaining added : ℕ} {P : Execution W → Prop} {α : Type}

/-- What an execution may stop with wherever `P` holds. -/
def Steady (P : Execution W → Prop) : Prop := ∀ x, P x → WithinBudget x

theorem meets_fail (hP : Steady P) {Q : α → Execution W → Prop} (code : String) :
    Meets P (fail code) Q (Stopped turns) :=
  .throw fun x hx => (hP x hx).error _

theorem meets_require {x : Option α} {Q : α → Execution W → Prop} (hP : Steady P) (code : String)
    (h : ∀ a s, x = some a → P s → Q a s) : Meets P (require x code) Q (Stopped turns) := by
  cases x with
  | none => exact meets_fail hP code
  | some a => exact .pure fun s hs => h a s rfl hs

theorem meets_lift (hP : Steady P) (x : AppResult α) : Meets P (lift x) (fun _ => P) (Stopped turns) := by
  cases x with
  | error e => exact .throw fun s hs => (hP s hs).error e
  | ok a => exact .pure fun s hs => hs

theorem meets_checkedSub {a b : ℕ} (h : b ≤ a) : Meets P (checkedSub a b) (fun n s => n = a - b ∧ P s) (Stopped turns) := by
  unfold checkedSub
  rw [if_pos h]
  exact .pure fun s hs => ⟨rfl, hs⟩

theorem meets_act {action : StoreAction} {f : W.Store → α × W.Store} {Q : α → Execution W → Prop}
    (h : ∀ x, P x → Q (f x.store).1 (x.after action (f x.store).2)) : Meets P (act action f) Q (Stopped turns) := by
  unfold act
  apply Meets.get.bind
  intro x
  apply Meets.bind (Q := fun _ s => Q (f x.store).1 s)
  · apply Meets.set
    rintro s ⟨rfl, hx⟩
    exact h x hx
  · exact fun _ => .pure fun s hs => hs

/-- A refill takes nothing from the budget by itself: `unissued_fuel` has been lowered before. -/
theorem meets_setFuel (hW : W.Metered) {fuel : ℕ} (hfuel : fuel = remaining + added) (unissued : ℕ) :
    Meets (fun x => Refilling (W := W) remaining added paid x ∧ x.unissuedFuel = unissued) (setFuel fuel)
      (fun _ x => Paid paid x ∧ x.unissuedFuel = unissued) (Stopped turns) := by
  subst hfuel
  unfold setFuel
  apply Meets.bind (Q := fun done x => (done = some () → Paid paid x ∧ x.unissuedFuel = unissued) ∧ WithinBudget x)
  · apply meets_act
    rintro x ⟨hx, hunissued⟩
    cases hset : W.setFuel x.store (remaining + added) with
    | none => exact ⟨nofun, hx.refused⟩
    | some s =>
      have hpaid := hx.filled (hW.setFuel _ _ _ hset)
      exact ⟨fun _ => ⟨hpaid, hunissued⟩, hpaid.within⟩
  · intro done
    apply meets_require fun x hx => hx.2
    intro u x hdone hx
    exact hx.1 hdone

theorem meets_check (hP : Steady P) (hchecks : ∀ x n, P x → P { x with checks := n }) :
    Meets P (check S) (fun _ => P) (Stopped turns) := by
  unfold check
  apply Meets.get.bind
  intro x
  apply Meets.bind (Q := fun _ => P)
  · apply Meets.set
    rintro s ⟨rfl, hx⟩
    exact hchecks x _ hx
  · intro _
    split
    · exact meets_fail hP _
    · split
      · exact meets_fail hP _
      · exact .pure fun s hs => hs

theorem Paid.checked {x : Execution W} (h : Paid paid x) (n : ℕ) : Paid paid { x with checks := n } :=
  ⟨h.fuel, h.balance, h.held, h.resumed⟩

/-- Something other than a refill is done to the store. -/
theorem meets_ran (action : StoreAction) {f : W.Store → α × W.Store} {before : ℕ} (haction : action ≠ .setFuel)
    (hpaid : before = paid + if action = .resume then 1 else 0)
    (hf : ∀ s n, W.getFuel s = some n → ∃ k ≤ n, W.getFuel (f s).2 = some k) (unissued : ℕ) :
    Meets (fun x => Paid before x ∧ x.unissuedFuel = unissued) (act action f)
      (fun _ x => Paid paid x ∧ x.unissuedFuel = unissued) (Stopped turns) := by
  subst hpaid
  apply meets_act
  rintro x ⟨hx, hunissued⟩
  exact ⟨hx.ran haction (hf x.store), hunissued⟩

theorem meets_consumed (action : StoreAction) {f : W.Store → α × W.Store} (hset : action ≠ .setFuel)
    (hresume : action ≠ .resume) (hf : ∀ s n, W.getFuel s = some n → ∃ k ≤ n, W.getFuel (f s).2 = some k) :
    Meets (Paid (W := W) paid) (act action f) (fun _ => Paid paid) (Stopped turns) := by
  have hpaid : paid = paid + if action = .resume then 1 else 0 := by rw [if_neg hresume, Nat.add_zero]
  apply Meets.of_value Execution.unissuedFuel
  intro unissued
  exact (meets_ran action hset hpaid hf unissued).post fun _ _ h => h.1

/-- The store is refilled and the guest resumed. -/
theorem meets_refilled (hW : W.Metered) (sig : Signature) (suspended : W.Suspended sig) (unissued : ℕ) :
    Meets (fun x => Refilling (W := W) remaining added 1 x ∧ x.unissuedFuel = unissued)
      (do
        setFuel (remaining + added)
        let next ← act .resume (W.resume sig suspended)
        let next ← require next "plugin_compute_trap"
        pure (.inl next))
      (Turned (fun _ => Paid 0) Execution.unissuedFuel (fun (_ : sig.Result D.F64) => Paid 0) (unissued + 1))
      (Stopped turns) := by
  apply (meets_setFuel hW rfl unissued).bind
  intro _
  have hresume : Meets (fun x => Paid 1 x ∧ x.unissuedFuel = unissued) (act .resume (W.resume sig suspended))
      (fun _ x => Paid 0 x ∧ x.unissuedFuel = unissued) (Stopped turns) :=
    meets_ran .resume (by decide) rfl (hW.resume sig suspended) unissued
  apply hresume.bind
  intro next
  apply Meets.bind (Q := fun _ x => Paid 0 x ∧ x.unissuedFuel = unissued)
  · exact meets_require (fun x hx => hx.1.within) _ fun _ _ _ hx => hx
  · intro next
    apply Meets.pure
    intro x hx
    exact ⟨hx.1, by omega⟩

/-- **One turn of the loop.** The guest goes on only with fuel that was taken from the budget. -/
theorem meets_finishTurn (hW : W.Metered) (sig : Signature) (call : ResumableCall (W.Suspended sig) (sig.Result D.F64))
    (k : ℕ) : Meets (fun x => Paid 0 x ∧ x.unissuedFuel = k) (finishTurn S sig call)
      (Turned (fun _ => Paid 0) Execution.unissuedFuel (fun _ => Paid 0) k) (Stopped turns) := by
  have hsteady : Steady (W := W) fun x => Paid 0 x ∧ x.unissuedFuel = k := fun x hx => hx.1.within
  unfold finishTurn
  apply (meets_check hsteady fun x n hx => ⟨hx.1.checked n, hx.2⟩).bind
  intro _
  cases call with
  | finished value => exact .pure fun x hx => hx.1
  | hostTrap => exact meets_fail hsteady _
  | outOfFuel suspended =>
    apply Meets.get.bind
    intro x
    have hknown : Steady (W := W) fun s => x = s ∧ Paid 0 s ∧ s.unissuedFuel = k := fun s hs => hs.2.1.within
    apply Meets.bind (Q := fun remaining s => W.getFuel x.store = some remaining ∧ x = s ∧ Paid 0 s ∧ s.unissuedFuel = k)
    · exact meets_require hknown _ fun remaining s hfuel hs => ⟨hfuel, hs⟩
    · intro remaining
      apply Meets.assume (p := remaining ≤ fuelSlice)
      · rintro s ⟨hfuel, rfl, hx, -⟩
        obtain ⟨n, hn, hheld⟩ := hx.fuel
        rw [hfuel, Option.some.injEq] at hheld
        omega
      · intro hle
        apply (meets_checkedSub hle).bind
        intro room
        dsimp only
        set added := min room x.unissuedFuel with hadded
        split
        · exact meets_fail (fun s hs => hs.2.2.2.1.within) _
        · rename_i hgoes
          rw [not_or] at hgoes
          apply (meets_checkedSub (min_le_right room x.unissuedFuel)).bind
          intro unissued
          -- what is added is taken from the budget, and is at least one unit
          apply Meets.assume (p := unissued < k)
          · rintro s ⟨rfl, -, -, rfl, -, rfl⟩
            omega
          · intro hless
            apply Meets.bind (Q := fun _ s => Refilling remaining added 1 s ∧ s.unissuedFuel = unissued)
            · apply Meets.set
              rintro s ⟨rfl, rfl, hfuel, rfl, hx, -⟩
              have hbalance := hx.balance
              have hresumed := hx.resumed
              refine ⟨⟨hfuel, by omega, ?_, hx.held, ?_⟩, rfl⟩
              · dsimp only
                omega
              · dsimp only
                omega
            · intro _
              exact (meets_refilled hW sig suspended unissued).post fun _ _ h => h.mono hless

/-- **The loop keeps within the budget, and ends.** -/
theorem meets_finishCall (hW : W.Metered) (sig : Signature) (call : ResumableCall (W.Suspended sig) (sig.Result D.F64)) :
    Meets (Paid (W := W) 0) (finishCall S turns sig call) (fun _ => Paid 0) (Stopped turns) := by
  have hlimit : ∀ (_ : ResumableCall (W.Suspended sig) (sig.Result D.F64)) (x : Execution W), Paid 0 x →
      turns ≤ totalFuel - fuelSlice → Stopped turns .unfinished x := by
    intro _ x hx hturns
    exact ⟨hx.within, nofun, fun hlt => absurd hturns (not_le.2 hlt)⟩
  have hloop := Meets.repeatUntil (meets_finishTurn (S := S) hW sig) turns (totalFuel - fuelSlice) hlimit call
  apply hloop.pre
  intro x hx
  have hresumed := hx.resumed
  exact ⟨hx, by omega⟩

theorem steady_paid : Steady (W := W) (Paid paid) := fun _ hx => hx.within

theorem meets_call (hW : W.Metered) (sig : Signature) (func : W.Func sig) (params : sig.Params D.F64) :
    Meets (Paid (W := W) 0) (call S turns sig func params) (fun _ => Paid 0) (Stopped turns) := by
  unfold call
  apply (meets_check steady_paid fun x n hx => hx.checked n).bind
  intro _
  apply Meets.bind (Q := fun _ => Paid 0)
  · exact meets_consumed .call (by decide) (by decide) (hW.call sig func params)
  · intro started
    apply Meets.bind (Q := fun _ => Paid 0)
    · exact meets_require steady_paid _ fun _ _ _ hx => hx
    · intro started
      exact meets_finishCall hW sig started

theorem meets_writeMemory (hW : W.Metered) (memory : W.Memory) (offset : ℕ) (bytes : Bytes) :
    Meets (Paid (W := W) 0) (writeMemory memory offset bytes) (fun _ => Paid 0) (Stopped turns) := by
  unfold writeMemory
  apply Meets.bind (Q := fun _ => Paid 0)
  · apply meets_consumed .write (by decide) (by decide)
    intro s n hs
    cases hwrite : W.write memory s offset bytes with
    | none => exact ⟨n, le_rfl, hs⟩
    | some s' => exact ⟨n, le_rfl, (hW.write _ _ _ _ _ hwrite).trans hs⟩
  · intro done
    exact meets_require steady_paid _ fun _ _ _ hx => hx

/-! ## The executions -/

theorem steady_unfueled : Steady (W := W) Unfueled := fun _ hx => hx.within

/-- The first slice. -/
theorem meets_instantiate (hW : W.Metered) (bytes : Bytes) :
    Meets (Unfueled (W := W)) (instantiate W S bytes) (fun _ => Paid 0) (Stopped turns) := by
  unfold instantiate
  apply (meets_lift steady_unfueled _).bind
  intro _
  apply Meets.bind (Q := fun _ => Unfueled)
  · exact meets_require steady_unfueled _ fun _ _ _ hx => hx
  · intro module
    split
    · exact meets_fail steady_unfueled _
    · apply (meets_check steady_unfueled fun x n hx => ⟨hx.unissued, hx.events⟩).bind
      intro _
      apply Meets.get.bind
      intro x
      apply Meets.bind (Q := fun _ s => Refilling 0 fuelSlice 0 s ∧ s.unissuedFuel = totalFuel - fuelSlice)
      · apply Meets.set
        rintro s ⟨rfl, hx⟩
        have hunissued := hx.unissued
        refine ⟨⟨hW.newStore, by decide, ?_, ?_, ?_⟩, hunissued⟩
        · simp only [hx.events, issued, List.map_nil, List.sum_nil, hunissued]
          decide
        · simp [hx.events]
        · simp [hx.events, resumes, hunissued]
      · intro _
        have hfirst : Meets (fun x => Refilling (W := W) 0 fuelSlice 0 x ∧ x.unissuedFuel = totalFuel - fuelSlice)
            (setFuel fuelSlice) (fun _ x => Paid 0 x ∧ x.unissuedFuel = totalFuel - fuelSlice) (Stopped turns) :=
          meets_setFuel hW (Nat.zero_add fuelSlice).symm (totalFuel - fuelSlice)
        apply hfirst.bind
        intro _
        apply Meets.bind (Q := fun _ => Paid 0)
        · exact (meets_consumed .instantiate (by decide) (by decide) (hW.instantiate module)).pre fun _ h => h.1
        · intro inst
          exact meets_require steady_paid _ fun _ _ _ hx => hx

theorem meets_read : Meets P (get : Exec W (Execution W)) (fun _ => P) (Stopped turns) :=
  Meets.get.post fun _ _ h => h.2

theorem meets_need (x : Option α) (code : String) :
    Meets (Paid (W := W) 0) (require x code) (fun _ => Paid 0) (Stopped turns) :=
  meets_require steady_paid code fun _ _ _ hx => hx

theorem meets_executeGuest (hW : W.Metered) {Version : Type} (crates : Plugin.Manifest.Crates Version)
    (params : Plugin.Manifest.PluginComputeParams) (values : List D.F64) (parameter : D.F64) :
    Meets (Unfueled (W := W)) (executeGuest W S turns crates params values parameter) (fun _ => Paid 0) (Stopped turns) := by
  unfold executeGuest
  -- the checks before there is a store
  apply (meets_check steady_unfueled fun x n hx => ⟨hx.unissued, hx.events⟩).bind
  intro _
  apply (meets_lift steady_unfueled _).bind
  intro _
  apply (meets_lift steady_unfueled _).bind
  intro _
  apply (meets_lift steady_unfueled _).bind
  intro bytes
  apply (meets_instantiate hW bytes).bind
  intro inst
  apply meets_read.bind
  intro x
  apply (meets_need _ _).bind
  intro memory
  apply (meets_need _ _).bind
  intro alloc
  apply (meets_need _ _).bind
  intro run
  -- `alloc`
  apply (meets_call hW .alloc alloc _).bind
  intro ptr
  apply (meets_need _ _).bind
  intro offset
  apply meets_read.bind
  intro x
  apply (meets_lift steady_paid _).bind
  intro _
  apply (meets_writeMemory hW memory offset _).bind
  intro _
  -- `run`
  apply (meets_call hW .series run _).bind
  intro value
  split
  · exact .pure fun _ hx => hx
  · exact meets_fail steady_paid _

theorem meets_executeJson (hW : W.Metered) (bytes context input : Bytes) :
    Meets (Unfueled (W := W)) (executeJson W S turns bytes context input) (fun _ => Paid 0) (Stopped turns) := by
  unfold executeJson
  apply (meets_lift steady_unfueled _).bind
  intro _
  apply (meets_check steady_unfueled fun x n hx => ⟨hx.unissued, hx.events⟩).bind
  intro _
  apply (meets_instantiate hW bytes).bind
  intro inst
  apply meets_read.bind
  intro x
  apply (meets_need _ _).bind
  intro memory
  apply (meets_need _ _).bind
  intro alloc
  apply (meets_need _ _).bind
  intro run
  -- `alloc`, twice
  apply (meets_call hW .alloc alloc _).bind
  intro cp
  apply (meets_call hW .alloc alloc _).bind
  intro ip
  apply (meets_need _ _).bind
  intro co
  apply (meets_need _ _).bind
  intro io
  apply meets_read.bind
  intro x
  apply (meets_lift steady_paid _).bind
  intro _
  apply (meets_lift steady_paid _).bind
  intro _
  apply (meets_lift steady_paid _).bind
  intro _
  apply (meets_writeMemory hW memory co _).bind
  intro _
  apply (meets_writeMemory hW memory io _).bind
  intro _
  -- `run`
  apply (meets_call hW .json run _).bind
  intro packed
  apply (meets_lift steady_paid _).bind
  intro _
  apply meets_read.bind
  intro x
  apply (meets_lift steady_paid _).bind
  intro _
  apply (meets_lift steady_paid _).bind
  intro _
  exact .pure fun _ hx => hx

end Steps

/-! ## The budget -/

section Budget

variable {W : Wasmi D.F64} {α : Type} {turns : ℕ}

/-- **An execution in its budget**: what is put into the store is at most `TOTAL_FUEL` in all, the
store never holds more than a slice, no subtraction goes below zero, and the loop of `finish_call`
ends by itself, after at most as many resumes as there is fuel to issue. -/
structure InBudget (turns : ℕ) (run : Except Stop α × Execution W) : Prop where
  issued : issued run.2.events ≤ totalFuel
  held : ∀ e ∈ run.2.events, fuelOf W e.before ≤ fuelSlice ∧ fuelOf W e.after ≤ fuelSlice
  resumes : resumes run.2.events ≤ totalFuel - fuelSlice
  no_underflow : run.1 ≠ .error .underflow
  ends : totalFuel - fuelSlice < turns → run.1 ≠ .error .unfinished

theorem InBudget.of_meets {m : Exec W α} (h : Meets Unfueled m (fun _ => Paid 0) (Stopped turns)) :
    InBudget turns (runFrom m (Execution.new W)) := by
  have hnew : Unfueled (Execution.new W) := ⟨rfl, rfl⟩
  cases hrun : runFrom m (Execution.new W) with
  | mk answer x =>
    cases answer with
    | ok a =>
      have hx := (h.answers _ hnew a x hrun).within
      exact ⟨hx.issued, hx.held, hx.resumes, nofun, fun _ => nofun⟩
    | error stop =>
      have hx := h.stops _ hnew stop x hrun
      refine ⟨hx.within.issued, hx.within.held, hx.within.resumes, ?_, ?_⟩
      · intro heq
        exact hx.no_underflow (Except.error.inj heq)
      · intro hturns heq
        exact hx.ends hturns (Except.error.inj heq)

/-- **A guest does not outrun its fuel**, whatever it does, and whenever the flag is set or the
deadline is over. -/
theorem guest_in_budget (hW : W.Metered) (S : Surroundings) (turns : ℕ) {Version : Type}
    (crates : Plugin.Manifest.Crates Version) (params : Plugin.Manifest.PluginComputeParams) (values : List D.F64)
    (parameter : D.F64) (bytes context input : Bytes) :
    InBudget turns (runFrom (executeGuest W S turns crates params values parameter) (Execution.new W)) ∧
      InBudget turns (runFrom (executeJson W S turns bytes context input) (Execution.new W)) :=
  ⟨.of_meets (meets_executeGuest hW crates params values parameter), .of_meets (meets_executeJson hW bytes context input)⟩

end Budget

/-! ## A guest that never ends -/

/-- Whole numbers in place of `f64`. -/
def wholes : Doubles where
  F64 := ℤ
  isFinite _ := true
  below x n := decide (x < n)
  above x n := decide (n < x)
  toLeBytes _ := List.replicate 8 0

/-- An engine whose guests use up what they are given and ask for one unit more. A store is its fuel. -/
def spinning : Wasmi wholes.F64 where
  Module := Unit
  Instance := Unit
  Memory := Unit
  Store := ℕ
  Func _ := Unit
  Suspended _ := Unit
  parseAll _ := [some .version]
  newModule _ := some ()
  hasImports _ := false
  newStore := 0
  getFuel s := some s
  setFuel _ n := some n
  instantiateAndStart _ s := (some (), s)
  getMemory _ _ _ := some ()
  getTypedFunc _ _ _ _ := some ()
  dataSize _ _ := 65536
  data _ _ := []
  write _ s _ _ := some s
  callResumable _ _ _ _ := (some (.outOfFuel ()), 0)
  resume _ _ _ := (some (.outOfFuel ()), 0)
  requiredFuel _ _ := 1

theorem spinning_metered : spinning.Metered where
  newStore := rfl
  setFuel _ _ _ h := h.symm
  instantiate _ s n h := ⟨n, le_rfl, h⟩
  call _ _ _ _ n _ := ⟨0, Nat.zero_le n, rfl⟩
  resume _ _ _ n _ := ⟨0, Nat.zero_le n, rfl⟩
  write _ _ _ _ _ h := by rw [← Option.some.inj h]

/-- Nobody cancels, and no time passes. -/
def undisturbed : Surroundings := ⟨fun _ => false, fun _ => 0⟩

/-- Base64 of the empty module alone. -/
def headerCrates : Plugin.Manifest.Crates Unit where
  parse _ := some ()
  toString _ := "1.0.0"
  parse_toString _ := rfl
  base64Decode text := if text = "AGFzbQEAAAA=" then some Plugin.Manifest.moduleHeader else none
  base64Encode bytes := if bytes = Plugin.Manifest.moduleHeader then "AGFzbQEAAAA=" else ""
  sha256 bytes := Fin.ofNat (2 ^ 256) bytes.size

def headerParams : Plugin.Manifest.PluginComputeParams :=
  ⟨"wasm-v1", "series-f64-v1", "AGFzbQEAAAA=", ⟨"length", 5, 1, 10⟩⟩

def twoValues : List wholes.F64 := ([1, 2] : List ℤ)

theorem spinning_in_budget :
    InBudget 2000000 (runFrom (executeGuest spinning undisturbed 2000000 headerCrates headerParams twoValues (5 : ℤ))
      (Execution.new spinning)) ∧
    InBudget 2000000 (runFrom (executeJson spinning undisturbed 2000000 Plugin.Manifest.moduleHeader [] [])
      (Execution.new spinning)) :=
  guest_in_budget spinning_metered undisturbed 2000000 headerCrates headerParams twoValues (5 : ℤ) Plugin.Manifest.moduleHeader [] []

-- 199 refills of a whole slice, and the budget is used up
example :
    let run := runFrom (executeGuest spinning undisturbed 300 headerCrates headerParams twoValues (5 : ℤ)) (Execution.new spinning)
    resumes run.2.events = 199 ∧ issued run.2.events = totalFuel := by
  decide +kernel

end EasiFlux.Sandbox
