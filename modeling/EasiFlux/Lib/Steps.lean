import Mathlib.Data.List.Basic

/-!
# Runs of a step function

`run step w as` is the state after the actions `as`. An action that is not
enabled leaves the state as it is, so every list of actions is a run.

* `run_inv`: what every step keeps, every run keeps.
* `run_inv_along`: the same for the runs all of whose steps meet a condition
  `G` on the state before the step and the action (`Along`).
* `along_iff`: the condition in terms of the prefixes of the run.
* `exists_run_of_measure`: what some action always brings closer can be reached.
-/

namespace Steps

variable {W A : Type*} (step : W → A → W)

/-- The state after the actions `as`, from `w`. -/
def run (w : W) (as : List A) : W := as.foldl step w

@[simp] theorem run_nil (w : W) : run step w [] = w := rfl

@[simp] theorem run_cons (w : W) (a : A) (as : List A) : run step w (a :: as) = run step (step w a) as := rfl

theorem run_append (w : W) (as bs : List A) : run step w (as ++ bs) = run step (run step w as) bs := by
  simp [run, List.foldl_append]

/-- Every step of the run meets `G` in the state it is taken in. -/
def Along (G : W → A → Prop) : W → List A → Prop
  | _, [] => True
  | w, a :: as => G w a ∧ Along G (step w a) as

instance (G : W → A → Prop) [∀ w a, Decidable (G w a)] : ∀ (w : W) (as : List A), Decidable (Along step G w as)
  | _, [] => .isTrue trivial
  | w, a :: as =>
    have : Decidable (Along step G (step w a) as) := instDecidableAlong G (step w a) as
    inferInstanceAs (Decidable (_ ∧ _))

variable {step}

theorem along_append {G : W → A → Prop} (w : W) (as bs : List A) :
    Along step G w (as ++ bs) ↔ Along step G w as ∧ Along step G (run step w as) bs := by
  induction as generalizing w with
  | nil => simp [Along]
  | cons a as ih => simp only [List.cons_append, Along, run_cons, ih, and_assoc]

theorem along_imp {G G' : W → A → Prop} (hG : ∀ w a, G w a → G' w a) {w : W} {as : List A} (h : Along step G w as) :
    Along step G' w as := by
  induction as generalizing w with
  | nil => trivial
  | cons a as ih => exact ⟨hG w a h.1, ih h.2⟩

/-- Along a run: in the state after each of its prefixes. -/
theorem along_iff {G : W → A → Prop} (w : W) (as : List A) :
    Along step G w as ↔ ∀ p a, p ++ [a] <+: as → G (run step w p) a := by
  induction as generalizing w with
  | nil => simp [Along]
  | cons b as ih =>
    unfold Along
    rw [ih]
    constructor
    · rintro ⟨hb, has⟩ p a hp
      cases p with
      | nil =>
        obtain rfl : a = b := (List.cons_prefix_cons.1 hp).1
        exact hb
      | cons c p =>
        obtain ⟨rfl, htail⟩ := List.cons_prefix_cons.1 (List.cons_append ▸ hp)
        exact has p a htail
    · intro h
      exact ⟨h [] b (List.cons_prefix_cons.2 ⟨rfl, List.nil_prefix⟩),
        fun p a hp => h (b :: p) a (List.cons_prefix_cons.2 ⟨rfl, hp⟩)⟩

/-- Actions that meet the condition in every state. -/
theorem along_of_forall {G : W → A → Prop} {as : List A} (h : ∀ a ∈ as, ∀ w, G w a) (w : W) : Along step G w as := by
  induction as generalizing w with
  | nil => trivial
  | cons a as ih => exact ⟨h a List.mem_cons_self w, ih (fun b hb => h b (List.mem_cons_of_mem a hb)) _⟩

theorem run_inv_along {I : W → Prop} {G : W → A → Prop} (h : ∀ w a, I w → G w a → I (step w a)) :
    ∀ (as : List A) (w : W), I w → Along step G w as → I (run step w as) := by
  intro as
  induction as with
  | nil => intro w hw _; exact hw
  | cons a as ih => intro w hw hG; exact ih _ (h w a hw hG.1) hG.2

theorem run_inv {I : W → Prop} (h : ∀ w a, I w → I (step w a)) (as : List A) (w : W) (hw : I w) :
    I (run step w as) :=
  List.foldlRecOn as step hw fun w hw a _ => h w a hw

/-- A relation that holds of every step, reflexive and transitive, holds between
the ends of every run. -/
theorem run_rel {R : W → W → Prop} (hr : ∀ w, R w w) (ht : ∀ u v w, R u v → R v w → R u w)
    (h : ∀ w a, R w (step w a)) : ∀ (as : List A) (w : W), R w (run step w as) := by
  intro as
  induction as with
  | nil => intro w; exact hr w
  | cons a as ih => intro w; exact ht _ _ _ (h w a) (ih _)

/-- While `P` does not hold some action of a kind brings the state closer to it: then `P`
can be reached by such actions. -/
theorem exists_run_of_measure {I P : W → Prop} {O : A → Prop} (μ : W → ℕ) (hI : ∀ w a, I w → I (step w a))
    (h : ∀ w, I w → ¬P w → ∃ a, O a ∧ μ (step w a) < μ w) (w : W) (hw : I w) :
    ∃ as, (∀ a ∈ as, O a) ∧ P (run step w as) := by
  induction hn : μ w using Nat.strongRecOn generalizing w with
  | ind n ih =>
    by_cases hP : P w
    · exact ⟨[], nofun, hP⟩
    · obtain ⟨a, ha, hlt⟩ := h w hw hP
      obtain ⟨as, has, hend⟩ := ih _ (hn ▸ hlt) _ (hI w a hw) rfl
      refine ⟨a :: as, fun b hb => ?_, hend⟩
      rcases List.mem_cons.1 hb with rfl | hb
      · exact ha
      · exact has b hb

end Steps
