import Mathlib.Tactic

/-!
# Fallible computations

`ensure c e` is the early return `if !c { return Err(e) }`. The lemmas take a
computation in `Except` apart from its result: a `do` block that ends in `ok`
ran each of its lines to `ok`.
-/

namespace Results

variable {ε α β : Type}

/-- Go on if `c`, else fail with `e`. -/
def ensure (c : Prop) [Decidable c] (e : ε) : Except ε Unit := if c then .ok () else .error e

@[simp] theorem ensure_eq_ok {c : Prop} [Decidable c] {e : ε} {u : Unit} :
    ensure c e = .ok u ↔ c := by
  unfold ensure; split <;> simp_all

theorem ensure_of {c : Prop} [Decidable c] {e : ε} (h : c) : ensure c e = .ok () := if_pos h

@[simp] theorem bind_eq_ok {x : Except ε α} {f : α → Except ε β} {b : β} :
    (x >>= f) = .ok b ↔ ∃ a, x = .ok a ∧ f a = .ok b := by
  cases x with
  | ok a => exact ⟨fun h => ⟨a, rfl, h⟩, by rintro ⟨_, h, hb⟩; cases h; exact hb⟩
  | error e => exact ⟨(fun h => nomatch h), by rintro ⟨_, h, _⟩; cases h⟩

theorem bind_eq_error {x : Except ε α} {f : α → Except ε β} {e : ε} :
    x >>= f = .error e ↔ x = .error e ∨ ∃ a, x = .ok a ∧ f a = .error e := by
  cases x with
  | error e' =>
    show (Except.error e' : Except ε β) = .error e ↔ _
    simp
  | ok a =>
    show f a = .error e ↔ _
    simp

theorem ensure_eq_error {c : Prop} [Decidable c] {e e' : ε} : ensure c e = .error e' ↔ ¬c ∧ e = e' := by
  unfold ensure
  by_cases hc : c
  · simp [hc]
  · simp [hc]

@[simp] theorem ok_bind {a : α} {f : α → Except ε β} : (Except.ok a >>= f) = f a := rfl

@[simp] theorem map_eq_ok {x : Except ε α} {f : α → β} {b : β} :
    x.map f = .ok b ↔ ∃ a, x = .ok a ∧ f a = b := by
  cases x <;> simp [Except.map]

@[simp] theorem mapError_eq_ok {ε' : Type} {x : Except ε α} {f : ε → ε'} {a : α} :
    x.mapError f = .ok a ↔ x = .ok a := by
  cases x <;> simp [Except.mapError]

@[simp] theorem pure_eq_ok {a b : α} : (pure a : Except ε α) = .ok b ↔ a = b :=
  Except.ok.injEq a b ▸ Iff.rfl

/-- The value, or the error `e`: `ok_or`. -/
def okOr (x : Option α) (e : ε) : Except ε α :=
  match x with
  | some a => .ok a
  | none => .error e

theorem okOr_eq_error {x : Option α} {e e' : ε} : okOr x e = .error e' ↔ x = none ∧ e = e' := by
  cases x <;> simp [okOr]

@[simp] theorem okOr_eq_ok {x : Option α} {e : ε} {a : α} : okOr x e = .ok a ↔ x = some a := by
  cases x <;> simp [okOr]

/-! ## Errors -/

section Errors

variable {P : ε → Prop}

/-- Every error of a computation has `P`. -/
def ErrorsIn (P : ε → Prop) (x : Except ε α) : Prop := ∀ e, x = .error e → P e

theorem ErrorsIn.ok {a : α} : ErrorsIn P (.ok a) := fun _ h => nomatch h

theorem ErrorsIn.pure {a : α} : ErrorsIn P (pure a : Except ε α) := ErrorsIn.ok

theorem ErrorsIn.error {e : ε} (h : P e) : ErrorsIn P (.error e : Except ε α) := by
  rintro _ ⟨⟩
  exact h

theorem ErrorsIn.bind {x : Except ε α} {f : α → Except ε β} (hx : ErrorsIn P x) (hf : ∀ a, ErrorsIn P (f a)) :
    ErrorsIn P (x >>= f) := by
  cases x with
  | ok a => exact hf a
  | error e => exact ErrorsIn.error (hx e rfl)

theorem ErrorsIn.ensure {c : Prop} [Decidable c] {e : ε} (h : P e) : ErrorsIn P (ensure c e) := by
  unfold Results.ensure
  split
  · exact ErrorsIn.ok
  · exact ErrorsIn.error h

theorem ErrorsIn.okOr {x : Option α} {e : ε} (h : P e) : ErrorsIn P (okOr x e) := by
  cases x with
  | some a => exact ErrorsIn.ok
  | none => exact ErrorsIn.error h

theorem ErrorsIn.mapError {ε' : Type} {x : Except ε' α} {e : ε} (h : P e) : ErrorsIn P (x.mapError fun _ => e) := by
  cases x with
  | ok a => exact ErrorsIn.ok
  | error _ => exact ErrorsIn.error h

end Errors

end Results
