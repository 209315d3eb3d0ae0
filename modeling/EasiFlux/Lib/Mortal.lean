import Mathlib.Tactic

/-!
# Programs that may be abandoned

A program of type `Mortal σ α` runs on a state `σ`. It may be abandoned at each answer it
waits for (`ask`): the process dies there, or the code below unwinds. Then it has no value,
and leaves the state as it was at that point.

`wp m Q C s`: from `s`, `m` ends in a value with `Q`, or is abandoned in a state with `C`.
-/

/-- A program on a state, see above. -/
def Mortal (σ α : Type) : Type := σ → Option α × σ

namespace Mortal

variable {σ α β : Type}

protected def pure (a : α) : Mortal σ α := fun s => (some a, s)

protected def bind (m : Mortal σ α) (f : α → Mortal σ β) : Mortal σ β := fun s =>
  match m s with
  | (some a, s) => f a s
  | (none, s) => (none, s)

instance : Monad (Mortal σ) where
  pure := Mortal.pure
  bind := Mortal.bind

/-- Wait for an answer. -/
def ask (answer : Option α) : Mortal σ α := fun s => (answer, s)

/-- The whole state. -/
def get : Mortal σ σ := fun s => (some s, s)

def modify (f : σ → σ) : Mortal σ Unit := fun s => (some (), f s)

/-- A value or an error that also changes the state if it is a value. -/
def attempt {ε : Type} (f : σ → Except ε σ) : Mortal σ (Except ε Unit) := fun s =>
  match f s with
  | .ok s => (some (.ok ()), s)
  | .error e => (some (.error e), s)

/-! ## Weakest preconditions -/

/-- From `s`, the program ends with `Q` or is abandoned with `C`. -/
def wp (m : Mortal σ α) (Q : α → σ → Prop) (C : σ → Prop) (s : σ) : Prop :=
  match m s with
  | (some a, s) => Q a s
  | (none, s) => C s

variable {Q : α → σ → Prop} {C : σ → Prop} {s : σ}

theorem wp_pure {a : α} (h : Q a s) : wp (pure a : Mortal σ α) Q C s := h

theorem wp_bind {m : Mortal σ β} {f : β → Mortal σ α} (h : wp m (fun b => wp (f b) Q C) C s) : wp (m >>= f) Q C s := by
  show wp (Mortal.bind m f) Q C s
  unfold wp Mortal.bind at *
  cases hm : m s with
  | mk b s' =>
    rw [hm] at h
    cases b with
    | none => exact h
    | some b => exact h

theorem wp_ask {answer : Option α} (hC : C s) (hQ : ∀ a, answer = some a → Q a s) : wp (ask answer) Q C s := by
  unfold wp ask
  cases answer with
  | none => exact hC
  | some a => exact hQ a rfl

theorem wp_get {Q : σ → σ → Prop} (h : Q s s) : wp get Q C s := h

theorem wp_modify {Q : Unit → σ → Prop} {f : σ → σ} (h : Q () (f s)) : wp (modify f) Q C s := h

theorem wp_attempt {ε : Type} {Q : Except ε Unit → σ → Prop} {f : σ → Except ε σ} (hok : ∀ s', f s = .ok s' → Q (.ok ()) s')
    (herr : ∀ e, f s = .error e → Q (.error e) s) : wp (attempt f) Q C s := by
  unfold wp attempt
  cases hf : f s with
  | ok s' => exact hok s' hf
  | error e => exact herr e hf

theorem wp_mono {m : Mortal σ α} {Q' : α → σ → Prop} {C' : σ → Prop} (h : wp m Q C s) (hQ : ∀ a s, Q a s → Q' a s)
    (hC : ∀ s, C s → C' s) : wp m Q' C' s := by
  unfold wp at *
  cases hm : m s with
  | mk a s' =>
    rw [hm] at h
    cases a with
    | none => exact hC s' h
    | some a => exact hQ a s' h

end Mortal
