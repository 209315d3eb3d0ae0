import Mathlib.Tactic

/-!
# Hexadecimal numbers

Digits of both cases are read, lower-case ones are written. What is written of a number below
`16 ^ width` with a fixed width is read as that number (`num_fixed`).
-/

namespace Hex

def hexDigit (n : ℕ) : Char := if n < 10 then Char.ofNat (48 + n) else Char.ofNat (87 + n)

/-- The value of a hex digit of either case. -/
def hexValue (c : Char) : Option ℕ :=
  if c.isDigit then some (c.toNat - 48)
  else if 'a' ≤ c ∧ c ≤ 'f' then some (c.toNat - 87)
  else if 'A' ≤ c ∧ c ≤ 'F' then some (c.toNat - 55)
  else none

/-- A lower-case hex digit. -/
def isLower (c : Char) : Bool := c.isDigit || decide ('a' ≤ c ∧ c ≤ 'f')

/-- The last `width` hex digits of a number, with zeros in front. -/
def fixed : ℕ → ℕ → List Char
  | 0, _ => []
  | width + 1, n => fixed width (n / 16) ++ [hexDigit (n % 16)]

/-- The number that a text of lower-case hex digits stands for. -/
def num (text : List Char) : ℕ := text.foldl (fun n c => n * 16 + (hexValue c).getD 0) 0

theorem hexValue_hexDigit : ∀ n < 16, hexValue (hexDigit n) = some n := by decide

theorem isLower_hexDigit : ∀ n < 16, isLower (hexDigit n) = true := by decide

theorem digit_cases {c : Char} (h : isLower c = true) : (48 ≤ c.toNat ∧ c.toNat ≤ 57) ∨ (97 ≤ c.toNat ∧ c.toNat ≤ 102) := by
  rw [isLower, Bool.or_eq_true, decide_eq_true_eq] at h
  rcases h with h | ⟨hlow, hhigh⟩
  · exact Or.inl (Char.isDigit_iff_toNat.1 h)
  · have ha : 'a'.toNat ≤ c.toNat := hlow
    have hf : c.toNat ≤ 'f'.toNat := hhigh
    exact Or.inr ⟨ha, hf⟩

/-- A lower-case digit is the digit of its value. -/
theorem hexDigit_hexValue {c : Char} (h : isLower c = true) : ∃ n < 16, hexValue c = some n ∧ hexDigit n = c := by
  have hcode : c = Char.ofNat c.toNat := (Char.ofNat_toNat c).symm
  have hbounds := digit_cases h
  have hall : ∀ k < 128, isLower (Char.ofNat k) = true →
      ∃ n < 16, hexValue (Char.ofNat k) = some n ∧ hexDigit n = Char.ofNat k := by decide
  rw [hcode] at h ⊢
  exact hall c.toNat (by omega) h

theorem length_fixed (width n : ℕ) : (fixed width n).length = width := by
  induction width generalizing n with
  | zero => rfl
  | succ width ih => rw [fixed, List.length_append, ih, List.length_singleton]

theorem fixed_lower (width n : ℕ) : ∀ c ∈ fixed width n, isLower c = true := by
  induction width generalizing n with
  | zero => simp [fixed]
  | succ width ih =>
    intro c hc
    rw [fixed, List.mem_append, List.mem_singleton] at hc
    rcases hc with hc | rfl
    · exact ih _ c hc
    · exact isLower_hexDigit _ (by omega)

theorem num_concat (text : List Char) (c : Char) : num (text ++ [c]) = num text * 16 + (hexValue c).getD 0 := by
  rw [num, List.foldl_append]
  rfl

theorem num_fixed {width n : ℕ} (h : n < 16 ^ width) : num (fixed width n) = n := by
  induction width generalizing n with
  | zero =>
    rw [pow_zero] at h
    obtain rfl : n = 0 := by omega
    rfl
  | succ width ih =>
    have hhigh : n / 16 < 16 ^ width := by
      rw [pow_succ] at h
      omega
    rw [fixed, num_concat, ih hhigh, hexValue_hexDigit _ (by omega), Option.getD_some]
    omega

theorem num_lt (text : List Char) (h : ∀ c ∈ text, isLower c = true) : num text < 16 ^ text.length := by
  induction text using List.reverseRecOn with
  | nil => decide
  | append_singleton text c ih =>
    obtain ⟨n, hn, hvalue, -⟩ := hexDigit_hexValue (h c (by simp))
    have hlt := ih fun d hd => h d (List.mem_append_left _ hd)
    rw [num_concat, hvalue, Option.getD_some, List.length_append, List.length_singleton, pow_succ]
    omega

end Hex
