import Mathlib.Order.Bounds.Basic
import Mathlib.Tactic

/-!
# Searching for the least number that passes

A probe tests a number, and may fail with an error. What passes is upward closed. Both loops count
their probes.

* `bisect_least`: halving between a number that does not pass and one that does ends with the least
  one that passes.
* `gallop_spec`: doubling up to a limit finds two such numbers, if the limit passes.
-/

namespace Search

variable {ε : Type*}

def bisect (probe : ℕ → Except ε Bool) (probes lower upper : ℕ) : Except ε (ℕ × ℕ) :=
  if lower + 1 < upper then
    match probe (lower + (upper - lower) / 2) with
    | .error e => .error e
    | .ok true => bisect probe (probes + 1) lower (lower + (upper - lower) / 2)
    | .ok false => bisect probe (probes + 1) (lower + (upper - lower) / 2) upper
  else .ok (probes, upper)
termination_by upper - lower

/-- Doubles the upper end until it passes. -/
def gallop (probe : ℕ → Except ε Bool) (limit probes lower upper : ℕ) (hpos : 0 < upper) (hle : upper ≤ limit) :
    Except ε (Option (ℕ × ℕ × ℕ)) :=
  match probe upper with
  | .error e => .error e
  | .ok true => .ok (some (probes + 1, lower, upper))
  | .ok false =>
    if upper = limit then .ok none
    else gallop probe limit (probes + 1) upper (min (upper * 2) limit) (by omega) (min_le_right _ _)
termination_by limit - upper

variable {probe : ℕ → Except ε Bool} {P : ℕ → Bool} {limit lower upper : ℕ}

/-- The least number that passes is between the ends all along. -/
theorem bisect_least (hprobe : ∀ n, probe n = .ok (P n)) (hmono : ∀ m n, m ≤ n → P m = true → P n = true) (probes : ℕ)
    (hlt : lower < upper) (hlower : P lower = false) (hupper : P upper = true) :
    ∃ k n, bisect probe probes lower upper = .ok (k, n) ∧ n ≤ upper ∧ IsLeast {n | P n = true} n := by
  induction hd : upper - lower using Nat.strong_induction_on generalizing probes lower upper with
  | _ d ih =>
    unfold bisect
    by_cases hgap : lower + 1 < upper
    · rw [if_pos hgap, hprobe]
      cases hmid : P (lower + (upper - lower) / 2) with
      | true =>
        obtain ⟨k, n, hrun, hn, hleast⟩ := ih _ (by omega) (probes + 1) (by omega) hlower hmid rfl
        exact ⟨k, n, hrun, by omega, hleast⟩
      | false => exact ih _ (by omega) (probes + 1) (by omega) hmid hupper rfl
    · rw [if_neg hgap]
      refine ⟨probes, upper, rfl, le_rfl, hupper, fun m hm => ?_⟩
      -- what passes is above the lower end
      by_contra hless
      have hbelow := hmono m lower (by omega) hm
      rw [hlower] at hbelow
      cases hbelow

theorem gallop_spec (hprobe : ∀ n, probe n = .ok (P n)) (probes : ℕ) (hpos : 0 < upper) (hle : upper ≤ limit)
    (hlt : lower < upper) (hlower : P lower = false) :
    gallop probe limit probes lower upper hpos hle = .ok none ∧ P limit = false ∨
      ∃ k lower' upper', gallop probe limit probes lower upper hpos hle = .ok (some (k, lower', upper')) ∧
        lower' < upper' ∧ upper' ≤ limit ∧ P lower' = false ∧ P upper' = true := by
  induction hd : limit - upper using Nat.strong_induction_on generalizing probes lower upper with
  | _ d ih =>
    unfold gallop
    rw [hprobe]
    cases hup : P upper with
    | true => exact Or.inr ⟨probes + 1, lower, upper, rfl, hlt, hle, hlower, hup⟩
    | false =>
      dsimp only
      by_cases hend : upper = limit
      · rw [if_pos hend]
        exact Or.inl ⟨rfl, hend ▸ hup⟩
      · rw [if_neg hend]
        exact ih _ (by omega) (probes + 1) _ _ (by omega) hup rfl

/-- What the halving ends with is between the ends, and passes. -/
theorem bisect_passes {probes k n : ℕ} (hlt : lower < upper) (hupper : probe upper = .ok true)
    (h : bisect probe probes lower upper = .ok (k, n)) : lower < n ∧ n ≤ upper ∧ probe n = .ok true := by
  induction hd : upper - lower using Nat.strong_induction_on generalizing probes lower upper with
  | _ d ih =>
    unfold bisect at h
    by_cases hgap : lower + 1 < upper
    · rw [if_pos hgap] at h
      cases hmid : probe (lower + (upper - lower) / 2) with
      | error e => rw [hmid] at h; cases h
      | ok passes =>
        rw [hmid] at h
        cases passes with
        | true =>
          obtain ⟨hlow, hup, hn⟩ := ih _ (by omega) (by omega) hmid h rfl
          exact ⟨hlow, by omega, hn⟩
        | false =>
          obtain ⟨hlow, hup, hn⟩ := ih _ (by omega) (by omega) hupper h rfl
          exact ⟨by omega, hup, hn⟩
    · rw [if_neg hgap] at h
      obtain ⟨-, rfl⟩ := Prod.mk.inj (Except.ok.inj h)
      exact ⟨hlt, le_rfl, hupper⟩

/-- What the doubling finds is an interval within the limit whose upper end passes. -/
theorem gallop_passes {probes k lower' upper' : ℕ} {hpos : 0 < upper} {hle : upper ≤ limit} (hlt : lower < upper)
    (h : gallop probe limit probes lower upper hpos hle = .ok (some (k, lower', upper'))) :
    lower' < upper' ∧ upper' ≤ limit ∧ probe upper' = .ok true := by
  induction hd : limit - upper using Nat.strong_induction_on generalizing probes lower upper with
  | _ d ih =>
    unfold gallop at h
    cases hup : probe upper with
    | error e => rw [hup] at h; cases h
    | ok passes =>
      rw [hup] at h
      cases passes with
      | true =>
        obtain ⟨-, rfl, rfl⟩ := h
        exact ⟨hlt, hle, hup⟩
      | false =>
        dsimp only at h
        by_cases hend : upper = limit
        · rw [if_pos hend] at h
          cases h
        · rw [if_neg hend] at h
          exact ih _ (by omega) (by omega) h rfl

/-- A probe that always fails ends the search. -/
theorem gallop_error {e : ε} (h : ∀ n, probe n = .error e) (probes lower : ℕ) (hpos : 0 < upper) (hle : upper ≤ limit) :
    gallop probe limit probes lower upper hpos hle = .error e := by
  unfold gallop
  rw [h]

end Search
