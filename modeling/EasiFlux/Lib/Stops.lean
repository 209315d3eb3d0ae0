import Mathlib.Tactic

/-!
# Programs that can stop

A program works on a state, and answers or stops with an error; it leaves a state in both cases
(`Prog`). `Meets P m Q F` says of a program what holds where it answers, and where it stops, if it
is started where `P` holds.

* `Meets.bind`: one program after another.
* `repeatUntil`: a loop with a limit on its turns. `Meets.repeatUntil`: what a turn keeps, the loop
  keeps; if each turn that goes on lowers a measure, a limit above the measure is never met.
-/

namespace Stops

abbrev Prog (σ ε α : Type) := ExceptT ε (StateM σ) α

variable {σ ε α β : Type} {P P' : σ → Prop} {Q Q' : α → σ → Prop} {R : β → σ → Prop} {F F' : ε → σ → Prop}

def runFrom (m : Prog σ ε α) (s : σ) : Except ε α × σ := Id.run ((ExceptT.run m).run s)

@[simp] theorem runFrom_pure (a : α) (s : σ) : runFrom (pure a : Prog σ ε α) s = (.ok a, s) := rfl

@[simp] theorem runFrom_throw (e : ε) (s : σ) : runFrom (throw e : Prog σ ε α) s = (.error e, s) := rfl

@[simp] theorem runFrom_get (s : σ) : runFrom (get : Prog σ ε σ) s = (.ok s, s) := rfl

@[simp] theorem runFrom_set (s' s : σ) : runFrom (set s' : Prog σ ε PUnit) s = (.ok ⟨⟩, s') := rfl

theorem runFrom_bind (m : Prog σ ε α) (f : α → Prog σ ε β) (s : σ) : runFrom (m >>= f) s =
    match runFrom m s with
    | (.ok a, s') => runFrom (f a) s'
    | (.error e, s') => (.error e, s') := by
  show Id.run ((ExceptT.run (m >>= f)).run s) = _
  unfold runFrom
  simp only [ExceptT.run_bind, StateT.run_bind, Id.run_bind]
  cases h : Id.run ((ExceptT.run m).run s) with
  | mk r s' => cases r <;> rfl

/-- Started where `P` holds, `m` answers where `Q` holds or stops where `F` holds. -/
structure Meets (P : σ → Prop) (m : Prog σ ε α) (Q : α → σ → Prop) (F : ε → σ → Prop) : Prop where
  answers : ∀ s, P s → ∀ a s', runFrom m s = (.ok a, s') → Q a s'
  stops : ∀ s, P s → ∀ e s', runFrom m s = (.error e, s') → F e s'

namespace Meets

theorem mono {m : Prog σ ε α} (h : Meets P m Q F) (hP : ∀ s, P' s → P s) (hQ : ∀ a s, Q a s → Q' a s)
    (hF : ∀ e s, F e s → F' e s) : Meets P' m Q' F' where
  answers s hs a s' hm := hQ a s' (h.answers s (hP s hs) a s' hm)
  stops s hs e s' hm := hF e s' (h.stops s (hP s hs) e s' hm)

theorem pre {m : Prog σ ε α} (h : Meets P m Q F) (hP : ∀ s, P' s → P s) : Meets P' m Q F :=
  h.mono hP (fun _ _ hQ => hQ) fun _ _ hF => hF

theorem post {m : Prog σ ε α} (h : Meets P m Q F) (hQ : ∀ a s, Q a s → Q' a s) : Meets P m Q' F :=
  h.mono (fun _ hP => hP) hQ fun _ _ hF => hF

theorem pure {a : α} (h : ∀ s, P s → Q a s) : Meets P (pure a : Prog σ ε α) Q F where
  answers s hs b s' hm := by
    rw [runFrom_pure, Prod.mk.injEq, Except.ok.injEq] at hm
    obtain ⟨rfl, rfl⟩ := hm
    exact h s hs
  stops s hs e s' hm := by
    rw [runFrom_pure, Prod.mk.injEq] at hm
    cases hm.1

theorem throw {e : ε} (h : ∀ s, P s → F e s) : Meets P (throw e : Prog σ ε α) Q F where
  answers s hs a s' hm := by
    rw [runFrom_throw, Prod.mk.injEq] at hm
    cases hm.1
  stops s hs d s' hm := by
    rw [runFrom_throw, Prod.mk.injEq, Except.error.injEq] at hm
    obtain ⟨rfl, rfl⟩ := hm
    exact h s hs

theorem bind {m : Prog σ ε α} {f : α → Prog σ ε β} (hm : Meets P m Q F) (hf : ∀ a, Meets (Q a) (f a) R F) :
    Meets P (m >>= f) R F where
  answers s hs b s' hrun := by
    rw [runFrom_bind] at hrun
    cases hfirst : runFrom m s with
    | mk r s₁ =>
      rw [hfirst] at hrun
      cases r with
      | ok a => exact (hf a).answers s₁ (hm.answers s hs a s₁ hfirst) b s' hrun
      | error e => cases hrun
  stops s hs e s' hrun := by
    rw [runFrom_bind] at hrun
    cases hfirst : runFrom m s with
    | mk r s₁ =>
      rw [hfirst] at hrun
      cases r with
      | ok a => exact (hf a).stops s₁ (hm.answers s hs a s₁ hfirst) e s' hrun
      | error d =>
        cases hrun
        exact hm.stops s hs _ _ hfirst

theorem get : Meets P (get : Prog σ ε σ) (fun r s => r = s ∧ P s) F where
  answers s hs r s' hm := by
    rw [runFrom_get, Prod.mk.injEq, Except.ok.injEq] at hm
    obtain ⟨rfl, rfl⟩ := hm
    exact ⟨rfl, hs⟩
  stops s hs e s' hm := by
    rw [runFrom_get, Prod.mk.injEq] at hm
    cases hm.1

theorem set {s' : σ} {Q : PUnit → σ → Prop} (h : ∀ s, P s → Q ⟨⟩ s') : Meets P (set s' : Prog σ ε PUnit) Q F where
  answers s hs u t hm := by
    rw [runFrom_set, Prod.mk.injEq] at hm
    obtain ⟨-, rfl⟩ := hm
    exact h s hs
  stops s hs e t hm := by
    rw [runFrom_set, Prod.mk.injEq] at hm
    cases hm.1

/-- A precondition that cannot hold. -/
theorem absurd {m : Prog σ ε α} (h : ∀ s, ¬P s) : Meets P m Q F where
  answers s hs := (h s hs).elim
  stops s hs := (h s hs).elim

/-- What is known of the state may be assumed. -/
theorem assume {m : Prog σ ε α} {p : Prop} (hp : ∀ s, P s → p) (h : p → Meets P m Q F) : Meets P m Q F where
  answers s hs := (h (hp s hs)).answers s hs
  stops s hs := (h (hp s hs)).stops s hs

/-- Any value that is read off the state may be fixed. -/
theorem of_value {γ : Type} {m : Prog σ ε α} (f : σ → γ) (h : ∀ k, Meets (fun s => P s ∧ f s = k) m Q F) : Meets P m Q F where
  answers s hs := (h (f s)).answers s ⟨hs, rfl⟩
  stops s hs := (h (f s)).stops s ⟨hs, rfl⟩

end Meets

/-! ## Loops -/

/-- Turn by turn until one of them ends the loop; `limit` is the error of a loop that has not
ended after `n` turns. -/
def repeatUntil (limit : ε) (turn : α → Prog σ ε (α ⊕ β)) : ℕ → α → Prog σ ε β
  | 0, _ => throw limit
  | n + 1, a => do
    match ← turn a with
    | .inl next => repeatUntil limit turn n next
    | .inr b => pure b

section Loop

variable {limit : ε} {turn : α → Prog σ ε (α ⊕ β)} {I : α → σ → Prop} {measure : σ → ℕ}

/-- What a turn makes of the state: the loop goes on with a smaller measure, or ends. -/
def Turned (I : α → σ → Prop) (measure : σ → ℕ) (R : β → σ → Prop) (bound : ℕ) : α ⊕ β → σ → Prop
  | .inl next, s => I next s ∧ measure s < bound
  | .inr b, s => R b s

theorem Turned.mono {k bound : ℕ} (hk : k ≤ bound) {x : α ⊕ β} {s : σ} (h : Turned I measure R k x s) :
    Turned I measure R bound x s := by
  cases x with
  | inl next => exact ⟨h.1, h.2.trans_le hk⟩
  | inr b => exact h

/-- **A loop with an invariant and a measure.** The limit is met only if it is not above the measure. -/
theorem Meets.repeatUntil (hturn : ∀ a k, Meets (fun s => I a s ∧ measure s = k) (turn a) (Turned I measure R k) F)
    (n bound : ℕ) (hlimit : ∀ a s, I a s → n ≤ bound → F limit s) (a : α) :
    Meets (fun s => I a s ∧ measure s ≤ bound) (Stops.repeatUntil limit turn n a) R F := by
  induction n generalizing bound a with
  | zero => exact .throw fun s hs => hlimit a s hs.1 (Nat.zero_le _)
  | succ n ih =>
    have hfirst : Meets (fun s => I a s ∧ measure s ≤ bound) (turn a) (Turned I measure R bound) F := by
      apply Meets.of_value measure
      intro k
      apply Meets.assume (p := k ≤ bound)
      · rintro s ⟨hs, rfl⟩
        exact hs.2
      · intro hk
        have hk' := (hturn a k).post fun x s h => h.mono hk
        exact hk'.pre fun s hs => ⟨hs.1.1, hs.2⟩
    apply hfirst.bind
    intro x
    cases x with
    | inr b => exact .pure fun s hs => hs
    | inl next =>
      -- the turn has lowered the measure, so that of what is left is below `bound`
      by_cases hbound : bound = 0
      · apply Meets.absurd
        intro s hs
        have hlt : measure s < bound := hs.2
        omega
      · have hrest := ih (bound - 1) (fun a s hI hn => hlimit a s hI (by omega)) next
        apply hrest.pre
        intro s hs
        have hlt : measure s < bound := hs.2
        exact ⟨hs.1, by omega⟩

end Loop

end Stops
