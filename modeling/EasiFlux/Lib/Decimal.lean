import Mathlib.Data.Rat.Defs
import Mathlib.Data.String.Basic
import Mathlib.Algebra.Order.Field.Rat
import Mathlib.Tactic

/-!
# Fixed-precision decimals

A `Decimal` is `mantissa / 10 ^ scale` with a mantissa below `2 ^ 96` in
absolute value and a scale of at most 28. Comparisons are of values, so `1.0`
and `1` compare equal though they are different representations.

* `ofString`: the exact value of a numeral, or nothing when the value has too
  many digits. It never rounds.
* `toString`: the numeral with exactly `scale` digits after the point.
  `ofString_toString`: reading it back gives the same representation.
* `normalize`: without trailing zeros after the point; idempotent, value kept.
* `addRounded`: the sum at the largest scale that holds it, rounded half to
  even. Exact whenever the sum is a `Decimal` (`addRounded_exact`).
-/

namespace Fixed

structure Decimal where
  mantissa : ℤ
  scale : ℕ
  fits : mantissa.natAbs < 2 ^ 96
  scale_le : scale ≤ 28
  deriving DecidableEq

namespace Decimal

def toRat (d : Decimal) : ℚ := d.mantissa / 10 ^ d.scale

theorem zero_le_scale : 0 ≤ 28 := by decide

instance : Zero Decimal := ⟨⟨0, 0, by decide, zero_le_scale⟩⟩

instance : LE Decimal := ⟨fun a b => a.mantissa * 10 ^ b.scale ≤ b.mantissa * 10 ^ a.scale⟩
instance : LT Decimal := ⟨fun a b => a.mantissa * 10 ^ b.scale < b.mantissa * 10 ^ a.scale⟩
instance (a b : Decimal) : Decidable (a ≤ b) :=
  inferInstanceAs (Decidable (a.mantissa * 10 ^ b.scale ≤ b.mantissa * 10 ^ a.scale))
instance (a b : Decimal) : Decidable (a < b) :=
  inferInstanceAs (Decidable (a.mantissa * 10 ^ b.scale < b.mantissa * 10 ^ a.scale))

/-- Equality of values. -/
def same (a b : Decimal) : Bool := a.mantissa * 10 ^ b.scale = b.mantissa * 10 ^ a.scale

theorem le_iff {a b : Decimal} : a ≤ b ↔ a.toRat ≤ b.toRat := by
  unfold toRat
  rw [div_le_div_iff₀ (by positivity) (by positivity)]
  show a.mantissa * 10 ^ b.scale ≤ b.mantissa * 10 ^ a.scale ↔ _
  exact_mod_cast Iff.rfl

theorem lt_iff {a b : Decimal} : a < b ↔ a.toRat < b.toRat := by
  unfold toRat
  rw [div_lt_div_iff₀ (by positivity) (by positivity)]
  show a.mantissa * 10 ^ b.scale < b.mantissa * 10 ^ a.scale ↔ _
  exact_mod_cast Iff.rfl

theorem same_iff {a b : Decimal} : a.same b = true ↔ a.toRat = b.toRat := by
  unfold toRat same
  rw [div_eq_div_iff (by positivity) (by positivity), decide_eq_true_eq]
  exact_mod_cast Iff.rfl

@[simp] theorem toRat_zero : (0 : Decimal).toRat = 0 := by
  show ((0 : ℤ) : ℚ) / 10 ^ 0 = 0
  norm_num

theorem pos_iff {a : Decimal} : 0 < a ↔ 0 < a.mantissa := by
  show 0 * 10 ^ a.scale < a.mantissa * 10 ^ 0 ↔ _
  simp

theorem nonneg_iff {a : Decimal} : 0 ≤ a ↔ 0 ≤ a.mantissa := by
  show 0 * 10 ^ a.scale ≤ a.mantissa * 10 ^ 0 ↔ _
  simp

/-! ## Numerals -/

/-- The decimal with the digits `int` before the point and `frac` after it. -/
def ofDigits (neg : Bool) (int frac : List Char) : Option Decimal :=
  let m := Nat.ofDigitChars 10 (int ++ frac) 0
  if h : m < 2 ^ 96 ∧ frac.length ≤ 28 then
    if int ++ frac = [] then none
    else some ⟨if neg then -(m : ℤ) else m, frac.length, by split <;> simpa using h.1, h.2⟩
  else none

/-- Digits with at most one point. -/
def ofUnsigned (neg : Bool) (body : List Char) : Option Decimal :=
  match body.dropWhile Char.isDigit with
  | [] => ofDigits neg body []
  | c :: frac =>
    if c = '.' ∧ frac.all Char.isDigit then ofDigits neg (body.takeWhile Char.isDigit) frac else none

/-- The exact value of a numeral: digits, at most one point, at most one sign in
front. Digit separators are not modelled. -/
def ofChars : List Char → Option Decimal
  | '-' :: r => ofUnsigned true r
  | '+' :: r => ofUnsigned false r
  | r => ofUnsigned false r

def ofString (s : String) : Option Decimal := ofChars s.toList

/-- The digits of the mantissa, at least `scale + 1` of them. -/
def digits (d : Decimal) : List Char :=
  (Nat.toDigits 10 d.mantissa.natAbs).leftpad (d.scale + 1) '0'

def intDigits (d : Decimal) : List Char := d.digits.take (d.digits.length - d.scale)

def fracDigits (d : Decimal) : List Char := d.digits.drop (d.digits.length - d.scale)

def toChars (d : Decimal) : List Char :=
  (if d.mantissa < 0 then ['-'] else []) ++ d.intDigits ++ (if d.scale = 0 then [] else '.' :: d.fracDigits)

protected def toString (d : Decimal) : String := String.ofList d.toChars

theorem digits_length (d : Decimal) : d.scale + 1 ≤ d.digits.length := by
  unfold digits List.leftpad; simp only [List.length_append, List.length_replicate]; omega

theorem digits_isDigit (d : Decimal) : ∀ c ∈ d.digits, c.isDigit := by
  intro c hc
  unfold digits List.leftpad at hc
  rcases List.mem_append.1 hc with h | h
  · rw [List.eq_of_mem_replicate h]; decide
  · exact Nat.isDigit_of_mem_toDigits (by decide) (by decide) h

theorem ofDigitChars_digits (d : Decimal) : Nat.ofDigitChars 10 d.digits 0 = d.mantissa.natAbs := by
  unfold digits List.leftpad
  rw [Nat.ofDigitChars_append, Nat.ofDigitChars_replicate_zero, Nat.mul_zero, Nat.ofDigitChars_ten_toDigits]

theorem intDigits_append_fracDigits (d : Decimal) : d.intDigits ++ d.fracDigits = d.digits :=
  List.take_append_drop _ _

theorem fracDigits_length (d : Decimal) : d.fracDigits.length = d.scale := by
  have := d.digits_length
  unfold fracDigits; rw [List.length_drop]; omega

theorem intDigits_isDigit (d : Decimal) : ∀ c ∈ d.intDigits, c.isDigit :=
  fun c hc => d.digits_isDigit c (List.mem_of_mem_take hc)

theorem fracDigits_isDigit (d : Decimal) : ∀ c ∈ d.fracDigits, c.isDigit :=
  fun c hc => d.digits_isDigit c (List.mem_of_mem_drop hc)

theorem intDigits_ne_nil (d : Decimal) : d.intDigits ≠ [] := by
  have := d.digits_length
  intro h
  have : d.intDigits.length = 0 := by rw [h]; rfl
  unfold intDigits at this; rw [List.length_take] at this; omega

/-- The digits of a decimal are read back as the decimal. -/
theorem ofDigits_digits (d : Decimal) {neg : Bool} (hn : (neg = true) ↔ d.mantissa < 0) :
    ofDigits neg d.intDigits d.fracDigits = some d := by
  unfold ofDigits
  have hne : d.intDigits ++ d.fracDigits ≠ [] := by simp [d.intDigits_ne_nil]
  simp only [d.intDigits_append_fracDigits, d.ofDigitChars_digits, d.fracDigits_length] at hne ⊢
  rw [dif_pos ⟨d.fits, d.scale_le⟩, if_neg hne]
  congr 1
  rcases d with ⟨m, s, hf, hs⟩
  simp only [Decimal.mk.injEq, and_true] at hn ⊢
  cases neg with
  | true => have := hn.1 rfl; simp only [if_true]; omega
  | false => have : ¬ m < 0 := fun h => by simpa using hn.2 h
             simp only [Bool.false_eq_true, if_false]; omega

theorem dropWhile_digits {int rest : List Char} (hi : ∀ c ∈ int, c.isDigit)
    (hr : ∀ c ∈ rest.head?, ¬ c.isDigit) : (int ++ rest).dropWhile Char.isDigit = rest := by
  induction int with
  | nil =>
    cases rest with
    | nil => rfl
    | cons c r => have := hr c rfl; simp [this]
  | cons c int ih =>
    have hc := hi c List.mem_cons_self
    simp only [List.cons_append, List.dropWhile_cons, hc, if_true]
    exact ih fun x hx => hi x (List.mem_cons_of_mem _ hx)

theorem takeWhile_digits {int rest : List Char} (hi : ∀ c ∈ int, c.isDigit)
    (hr : ∀ c ∈ rest.head?, ¬ c.isDigit) : (int ++ rest).takeWhile Char.isDigit = int := by
  induction int with
  | nil =>
    cases rest with
    | nil => rfl
    | cons c r => have := hr c rfl; simp [this]
  | cons c int ih =>
    have hc := hi c List.mem_cons_self
    simp only [List.cons_append, List.takeWhile_cons, hc, if_true]
    rw [ih fun x hx => hi x (List.mem_cons_of_mem _ hx)]

/-- The unsigned part of a numeral, read back. -/
theorem ofUnsigned_body (d : Decimal) (neg : Bool) (hn : (neg = true) ↔ d.mantissa < 0) :
    ofUnsigned neg (d.intDigits ++ (if d.scale = 0 then [] else '.' :: d.fracDigits)) = some d := by
  unfold ofUnsigned
  by_cases hs : d.scale = 0
  · have hf : d.fracDigits = [] := List.eq_nil_of_length_eq_zero (by rw [d.fracDigits_length, hs])
    have := d.ofDigits_digits hn
    rw [hf] at this
    simp only [hs, if_true]
    rw [dropWhile_digits d.intDigits_isDigit (by simp)]
    simpa using this
  · have hr : ∀ c ∈ ('.' :: d.fracDigits).head?, ¬ c.isDigit := by
      intro c hc; simp at hc; subst hc; decide
    simp only [hs, if_false]
    rw [dropWhile_digits d.intDigits_isDigit hr, takeWhile_digits d.intDigits_isDigit hr]
    have hall : d.fracDigits.all Char.isDigit = true := List.all_eq_true.2 d.fracDigits_isDigit
    simp only [hall, and_self, if_true]
    exact d.ofDigits_digits hn

/-- **A decimal is read back from its numeral, representation and all.** -/
theorem ofString_toString (d : Decimal) : ofString d.toString = some d := by
  unfold ofString Decimal.toString
  rw [String.toList_ofList]
  unfold toChars
  by_cases hm : d.mantissa < 0
  · simp only [hm, if_true, List.cons_append, List.nil_append]
    exact d.ofUnsigned_body true (by simp [hm])
  · simp only [hm, if_false, List.nil_append]
    -- the first digit is neither sign
    obtain ⟨c, r, hc⟩ : ∃ c r, d.intDigits = c :: r := List.exists_cons_of_ne_nil d.intDigits_ne_nil
    have hd := d.intDigits_isDigit c (by rw [hc]; exact List.mem_cons_self)
    have h := d.ofUnsigned_body false (by simp [hm])
    rw [hc] at h ⊢
    simp only [List.cons_append] at h ⊢
    unfold ofChars
    split
    · rename_i heq; simp only [List.cons.injEq] at heq; rw [heq.1] at hd; exact absurd hd (by decide)
    · rename_i heq; simp only [List.cons.injEq] at heq; rw [heq.1] at hd; exact absurd hd (by decide)
    · exact h

/-- A numeral has at most 29 digits before the point and 28 after it. -/
theorem toChars_length (d : Decimal) : d.toChars.length ≤ 60 := by
  have hm : (Nat.toDigits 10 d.mantissa.natAbs).length ≤ 29 :=
    (Nat.length_toDigits_le_iff (by decide) (by decide)).2 (lt_trans d.fits (by norm_num))
  have hl : d.digits.length ≤ 29 := by
    have := d.scale_le
    unfold digits List.leftpad; simp only [List.length_append, List.length_replicate]; omega
  have h1 : d.intDigits.length ≤ 29 := (List.length_take_le' _ _).trans hl
  have h2 := d.fracDigits_length
  have h3 := d.scale_le
  unfold toChars
  simp only [List.length_append]
  split <;> split <;> simp only [List.length_cons, List.length_nil] <;> omega

theorem toChars_of_nonneg {d : Decimal} (h : 0 ≤ d) :
    d.toChars = d.intDigits ++ (if d.scale = 0 then [] else '.' :: d.fracDigits) := by
  rw [nonneg_iff] at h
  unfold toChars
  rw [if_neg (by omega), List.nil_append]

/-- The numeral of a nonnegative decimal: digits and the point. -/
theorem toChars_isDigit {d : Decimal} (h : 0 ≤ d) : ∀ c ∈ d.toChars, c.isDigit ∨ c = '.' := by
  rw [toChars_of_nonneg h]
  intro c hc
  rcases List.mem_append.1 hc with hc | hc
  · exact Or.inl (d.intDigits_isDigit c hc)
  · split at hc
    · simp at hc
    · rcases List.mem_cons.1 hc with hc | hc
      · exact Or.inr hc
      · exact Or.inl (d.fracDigits_isDigit c hc)

theorem toChars_head {d : Decimal} (h : 0 ≤ d) : ∃ c, d.toChars.head? = some c ∧ c.isDigit := by
  obtain ⟨c, r, hc⟩ : ∃ c r, d.intDigits = c :: r := List.exists_cons_of_ne_nil d.intDigits_ne_nil
  refine ⟨c, ?_, d.intDigits_isDigit c (by rw [hc]; exact List.mem_cons_self)⟩
  rw [toChars_of_nonneg h, hc, List.cons_append, List.head?_cons]

theorem toChars_last {d : Decimal} (h : 0 ≤ d) : ∃ c, d.toChars.getLast? = some c ∧ c.isDigit := by
  rw [toChars_of_nonneg h]
  by_cases hs : d.scale = 0
  · rw [if_pos hs, List.append_nil]
    exact ⟨_, List.getLast?_eq_some_getLast d.intDigits_ne_nil,
      d.intDigits_isDigit _ (List.getLast_mem _)⟩
  · have hne : d.fracDigits ≠ [] := by
      intro h0; have := d.fracDigits_length; rw [h0] at this; exact hs this.symm
    rw [if_neg hs]
    refine ⟨d.fracDigits.getLast hne, ?_, d.fracDigits_isDigit _ (List.getLast_mem _)⟩
    rw [List.getLast?_append, List.getLast?_cons, List.getLast?_eq_some_getLast hne]
    rfl

theorem utf8Size_of_isDigit {c : Char} (h : c.isDigit ∨ c = '.') : c.utf8Size = 1 := by
  rcases h with h | rfl
  · rw [Char.isDigit_iff_toNat] at h
    have h9 : c.toNat ≤ 57 := h.2
    rw [Char.utf8Size_eq_one_iff, UInt32.le_iff_toNat_le]
    exact h9.trans (by decide)
  · rfl

/-- The length in bytes of the numeral of a nonnegative decimal. -/
theorem toString_utf8ByteSize {d : Decimal} (h : 0 ≤ d) : d.toString.utf8ByteSize ≤ 60 := by
  have key : ∀ l : List Char, (∀ c ∈ l, c.isDigit ∨ c = '.') → String.utf8Len l = l.length := by
    intro l
    induction l with
    | nil => intro _; rfl
    | cons c l ih =>
      intro hl
      rw [String.utf8Len_cons, ih (fun x hx => hl x (List.mem_cons_of_mem _ hx)),
        utf8Size_of_isDigit (hl c List.mem_cons_self), List.length_cons]
  unfold Decimal.toString
  rw [String.utf8ByteSize_ofList, key _ (toChars_isDigit h)]
  exact d.toChars_length

/-! ## Normal form -/

/-- `m / 10 ^ s` without trailing zeros after the point. -/
def strip : ℕ → ℤ → ℤ × ℕ
  | 0, m => (m, 0)
  | s + 1, m => if m % 10 = 0 then strip s (m / 10) else (m, s + 1)

theorem strip_scale_le (s : ℕ) (m : ℤ) : (strip s m).2 ≤ s := by
  induction s generalizing m with
  | zero => simp [strip]
  | succ s ih =>
    unfold strip; split
    · exact (ih _).trans (Nat.le_succ s)
    · exact le_rfl

theorem strip_natAbs_le (s : ℕ) (m : ℤ) : (strip s m).1.natAbs ≤ m.natAbs := by
  induction s generalizing m with
  | zero => simp [strip]
  | succ s ih =>
    unfold strip; split
    · exact (ih _).trans (by omega)
    · exact le_rfl

theorem strip_value (s : ℕ) (m : ℤ) : (strip s m).1 * 10 ^ s = m * 10 ^ (strip s m).2 := by
  induction s generalizing m with
  | zero => simp [strip]
  | succ s ih =>
    unfold strip; split
    · rename_i h
      rw [pow_succ, ← mul_assoc, ih]
      have : m / 10 * 10 = m := by omega
      rw [mul_assoc, mul_comm _ (10 : ℤ), ← mul_assoc, this]
    · rfl

theorem strip_strip (s : ℕ) (m : ℤ) : strip (strip s m).2 (strip s m).1 = strip s m := by
  induction s generalizing m with
  | zero => rfl
  | succ s ih =>
    by_cases h : m % 10 = 0
    · simp only [strip, h, if_true]; exact ih _
    · simp only [strip, h, if_false]

def normalize (d : Decimal) : Decimal :=
  ⟨(strip d.scale d.mantissa).1, (strip d.scale d.mantissa).2,
    lt_of_le_of_lt (strip_natAbs_le _ _) d.fits, (strip_scale_le _ _).trans d.scale_le⟩

theorem normalize_normalize (d : Decimal) : d.normalize.normalize = d.normalize := by
  unfold normalize; simp only [Decimal.mk.injEq]
  exact ⟨congrArg Prod.fst (strip_strip _ _), congrArg Prod.snd (strip_strip _ _)⟩

@[simp] theorem toRat_normalize (d : Decimal) : d.normalize.toRat = d.toRat := by
  unfold toRat
  rw [div_eq_div_iff (by positivity) (by positivity)]
  have := strip_value d.scale d.mantissa
  unfold normalize
  exact_mod_cast this

theorem strip_last (s : ℕ) (m : ℤ) : (strip s m).2 = 0 ∨ (strip s m).1 % 10 ≠ 0 := by
  induction s generalizing m with
  | zero => exact .inl rfl
  | succ s ih =>
    unfold strip
    split
    · exact ih _
    · rename_i h; exact .inr h

/-- A scale above that of an equal number leaves a trailing zero. -/
theorem scale_le_of_eq {m n : ℤ} {s t : ℕ} (h : m * 10 ^ t = n * 10 ^ s) (hs : s = 0 ∨ m % 10 ≠ 0) : s ≤ t := by
  by_contra hlt
  rcases hs with hs | hs
  · omega
  · obtain ⟨k, rfl⟩ := Nat.exists_eq_add_of_lt (not_le.1 hlt)
    apply hs
    have h10 : (10 : ℤ) ^ t ≠ 0 := by positivity
    have hm : m = n * 10 ^ k * 10 := by
      apply mul_right_cancel₀ h10
      rw [h, pow_succ, pow_add]
      ring
    rw [hm]
    exact Int.mul_emod_left _ _

/-- **The normal form is one for each value.** -/
theorem normalize_congr {a b : Decimal} (h : a.toRat = b.toRat) : a.normalize = b.normalize := by
  have hv : a.normalize.mantissa * 10 ^ b.normalize.scale = b.normalize.mantissa * 10 ^ a.normalize.scale := by
    have hsame : a.normalize.same b.normalize = true := by
      rw [same_iff, toRat_normalize, toRat_normalize, h]
    simpa [same] using hsame
  have hs : a.normalize.scale = b.normalize.scale :=
    le_antisymm (scale_le_of_eq hv (strip_last _ _)) (scale_le_of_eq hv.symm (strip_last _ _))
  have hm : a.normalize.mantissa = b.normalize.mantissa := by
    rw [hs] at hv
    exact mul_right_cancel₀ (by positivity) hv
  cases ha : a.normalize
  cases hb : b.normalize
  rw [ha, hb] at hs hm
  simp only at hs hm
  subst hs hm
  rfl

/-! ## Sums -/

/-- `m / n` rounded to the nearest integer, half to even. -/
def roundDiv (m n : ℕ) : ℕ :=
  let q := m / n
  let r := m % n
  if 2 * r < n ∨ (2 * r = n ∧ q % 2 = 0) then q else q + 1

theorem roundDiv_mul {n : ℕ} (hn : 0 < n) (q : ℕ) : roundDiv (q * n) n = q := by
  unfold roundDiv
  rw [Nat.mul_div_cancel _ hn, Nat.mul_mod_left]
  simp [hn]

theorem roundDiv_one (m : ℕ) : roundDiv m 1 = m := by
  simpa using roundDiv_mul Nat.one_pos m

/-- Rounding moves by at most half a unit. -/
theorem roundDiv_ge {m n : ℕ} (hn : 0 < n) : 2 * m ≤ 2 * (roundDiv m n * n) + n := by
  have h := Nat.div_add_mod m n
  have hr := Nat.mod_lt m hn
  unfold roundDiv; simp only
  rw [Nat.mul_comm n] at h
  split
  · rename_i hc; omega
  · rw [Nat.add_mul]; omega

theorem roundDiv_le {m n : ℕ} (hn : 0 < n) : 2 * (roundDiv m n * n) ≤ 2 * m + n := by
  have h := Nat.div_add_mod m n
  have hr := Nat.mod_lt m hn
  unfold roundDiv; simp only
  rw [Nat.mul_comm n] at h
  split
  · omega
  · rename_i hc; rw [Nat.add_mul]; omega

theorem roundDiv_mono {m m' n : ℕ} (h : m ≤ m') : roundDiv m n ≤ roundDiv m' n := by
  have hq := Nat.div_le_div_right (c := n) h
  rcases Nat.eq_or_lt_of_le hq with he | hlt
  · have h1 := Nat.div_add_mod m n
    have h2 := Nat.div_add_mod m' n
    rw [he] at h1
    unfold roundDiv; simp only
    rw [he]
    split <;> split <;> omega
  · unfold roundDiv; simp only
    split <;> split <;> omega

/-- The value `m / 10 ^ s` at the largest scale that holds it, dropping `k` digits
or more. -/
def fit (m s : ℕ) : ℕ → ℕ → Option (ℕ × ℕ)
  | _, 0 => none
  | k, fuel + 1 =>
    if k ≤ s then
      if roundDiv m (10 ^ k) < 2 ^ 96 then some (roundDiv m (10 ^ k), k) else fit m s (k + 1) fuel
    else none

theorem fit_spec {m s : ℕ} : ∀ (fuel k : ℕ) {r j : ℕ}, fit m s k fuel = some (r, j) →
    k ≤ j ∧ j ≤ s ∧ r = roundDiv m (10 ^ j) ∧ r < 2 ^ 96 ∧
      ∀ i, k ≤ i → i < j → 2 ^ 96 ≤ roundDiv m (10 ^ i) := by
  intro fuel
  induction fuel with
  | zero => intro k r j h; simp [fit] at h
  | succ fuel ih =>
    intro k r j h
    unfold fit at h
    split at h
    · rename_i hk
      split at h
      · rename_i hf
        simp only [Option.some.injEq, Prod.mk.injEq] at h
        obtain ⟨rfl, rfl⟩ := h
        exact ⟨le_rfl, hk, rfl, hf, fun i h1 h2 => by omega⟩
      · rename_i hf
        obtain ⟨h1, h2, h3, h4, h5⟩ := ih (k + 1) h
        refine ⟨by omega, h2, h3, h4, fun i hi hij => ?_⟩
        rcases Nat.eq_or_lt_of_le hi with rfl | hlt
        · omega
        · exact h5 i hlt hij
    · simp at h

theorem fit_some {m s j : ℕ} (hj : j ≤ s) (hf : roundDiv m (10 ^ j) < 2 ^ 96) :
    ∀ (fuel k : ℕ), k ≤ j → j < k + fuel → ∃ r i, fit m s k fuel = some (r, i) ∧ i ≤ j := by
  intro fuel
  induction fuel with
  | zero => intro k h1 h2; omega
  | succ fuel ih =>
    intro k h1 h2
    unfold fit
    rw [if_pos (by omega)]
    split
    · exact ⟨_, k, rfl, h1⟩
    · rename_i hk
      have hne : k ≠ j := by rintro rfl; exact hk hf
      exact ih (k + 1) (by omega) (by omega)

/-- The mantissa of `d` at scale `s`. -/
def rescale (d : Decimal) (s : ℕ) : ℤ := d.mantissa * 10 ^ (s - d.scale)

/-- The sum of two decimals, rounded half to even at the largest scale that holds
it; nothing when it is too large for every scale. -/
def addRounded (a b : Decimal) : Option Decimal :=
  let s := max a.scale b.scale
  let m := a.rescale s + b.rescale s
  match h : fit m.natAbs s 0 (s + 1) with
  | none => none
  | some (r, j) =>
    some ⟨if m < 0 then -(r : ℤ) else r, s - j, by
      have := (fit_spec _ _ h).2.2.2.1
      split <;> simpa using this, by
      have h1 := a.scale_le
      have h2 := b.scale_le
      have : s ≤ 28 := max_le h1 h2
      omega⟩

theorem toRat_eq_rescale {d : Decimal} {s : ℕ} (h : d.scale ≤ s) : d.toRat = d.rescale s / 10 ^ s := by
  unfold toRat rescale
  obtain ⟨k, rfl⟩ := Nat.exists_eq_add_of_le h
  rw [Nat.add_sub_cancel_left, pow_add]
  push_cast
  field_simp

/-- What `addRounded` returns: the sum `m` at the common scale `s`, with `j` digits
dropped. -/
theorem addRounded_eq {a b c : Decimal} (h : addRounded a b = some c) :
    ∃ r j, fit (a.rescale (max a.scale b.scale) + b.rescale (max a.scale b.scale)).natAbs
        (max a.scale b.scale) 0 (max a.scale b.scale + 1) = some (r, j) ∧
      c.scale = max a.scale b.scale - j ∧
      c.mantissa = if a.rescale (max a.scale b.scale) + b.rescale (max a.scale b.scale) < 0
        then -(r : ℤ) else r := by
  unfold addRounded at h
  simp only at h
  split at h
  · cases h
  · rename_i r j hf
    cases h
    exact ⟨r, j, hf, rfl, rfl⟩

theorem addRounded_isSome {a b : Decimal} {r j : ℕ}
    (hf : fit (a.rescale (max a.scale b.scale) + b.rescale (max a.scale b.scale)).natAbs
      (max a.scale b.scale) 0 (max a.scale b.scale + 1) = some (r, j)) : ∃ c, addRounded a b = some c := by
  unfold addRounded
  simp only
  split
  · rename_i h; rw [hf] at h; cases h
  · exact ⟨_, rfl⟩

/-- **A sum that is a decimal is computed exactly.** -/
theorem addRounded_exact {a b d : Decimal} (hd : d.toRat = a.toRat + b.toRat) :
    ∃ c, addRounded a b = some c ∧ c.toRat = a.toRat + b.toRat := by
  set s := max a.scale b.scale with hs
  set m := a.rescale s + b.rescale s with hm
  have hsum : a.toRat + b.toRat = (m : ℚ) / 10 ^ s := by
    rw [toRat_eq_rescale (le_max_left a.scale b.scale), toRat_eq_rescale (le_max_right a.scale b.scale),
      ← hs, ← add_div, hm]
    push_cast; rfl
  have hcross : d.mantissa * 10 ^ s = m * 10 ^ d.scale := by
    rw [hsum] at hd
    unfold toRat at hd
    rw [div_eq_div_iff (by positivity) (by positivity)] at hd
    exact_mod_cast hd
  -- the sum is `q` with `k` zeros behind it, and `q` fits
  obtain ⟨q, k, hk, hq, hqm⟩ : ∃ q k : ℕ, k ≤ s ∧ q < 2 ^ 96 ∧ m.natAbs = q * 10 ^ k := by
    have habs : d.mantissa.natAbs * 10 ^ s = m.natAbs * 10 ^ d.scale := by
      have := congrArg Int.natAbs hcross
      simpa [Int.natAbs_mul, Int.natAbs_pow] using this
    rcases Nat.le_total s d.scale with h | h
    · obtain ⟨t, ht⟩ := Nat.exists_eq_add_of_le h
      rw [ht, pow_add, mul_comm (10 ^ s), ← mul_assoc] at habs
      have h1 := Nat.eq_of_mul_eq_mul_right (by positivity) habs
      refine ⟨m.natAbs, 0, Nat.zero_le _, lt_of_le_of_lt ?_ d.fits, by simp⟩
      rw [h1]; exact Nat.le_mul_of_pos_right _ (by positivity)
    · obtain ⟨t, ht⟩ := Nat.exists_eq_add_of_le h
      rw [ht, pow_add, mul_comm (10 ^ d.scale), ← mul_assoc] at habs
      have h1 := Nat.eq_of_mul_eq_mul_right (by positivity) habs
      exact ⟨d.mantissa.natAbs, t, by omega, d.fits, h1.symm⟩
  have hfq : roundDiv m.natAbs (10 ^ k) < 2 ^ 96 := by rw [hqm, roundDiv_mul (by positivity)]; exact hq
  obtain ⟨r, i, hf, hi⟩ := fit_some hk hfq (s + 1) 0 (Nat.zero_le _) (by omega)
  obtain ⟨c, hc⟩ := addRounded_isSome hf
  refine ⟨c, hc, ?_⟩
  obtain ⟨r', j', hf', hsc, hman⟩ := addRounded_eq hc
  rw [hf] at hf'
  simp only [Option.some.injEq, Prod.mk.injEq] at hf'
  obtain ⟨rfl, rfl⟩ := hf'
  have hr : r * 10 ^ i = m.natAbs := by
    rw [(fit_spec _ _ hf).2.2.1]
    obtain ⟨t, rfl⟩ := Nat.exists_eq_add_of_le hi
    rw [hqm, pow_add, mul_comm (10 ^ i), ← mul_assoc, roundDiv_mul (by positivity)]
  have hcm : c.mantissa * 10 ^ i = m := by
    rw [hman]
    have : (r : ℤ) * 10 ^ i = (m.natAbs : ℤ) := by exact_mod_cast hr
    split
    · rename_i h; rw [neg_mul, this]; have : m < 0 := h; omega
    · rename_i h; rw [this]; have : ¬ m < 0 := h; omega
  rw [hsum]
  unfold toRat
  rw [hsc, div_eq_div_iff (by positivity) (by positivity), ← hcm]
  obtain ⟨t, ht⟩ := Nat.exists_eq_add_of_le (show i ≤ s by omega)
  rw [← hs, ht, Nat.add_sub_cancel_left, pow_add]
  push_cast; ring

/-- **A running total that never needs rounding is exact.** -/
theorem foldlM_addRounded {ds : List Decimal} {a : Decimal}
    (h : ∀ ps, ps <+: ds → ∃ d : Decimal, d.toRat = a.toRat + (ps.map toRat).sum) :
    ∃ c, ds.foldlM addRounded a = some c ∧ c.toRat = a.toRat + (ds.map toRat).sum := by
  induction ds generalizing a with
  | nil => exact ⟨a, rfl, by simp⟩
  | cons x ds ih =>
    obtain ⟨d, hd⟩ := h [x] (List.cons_prefix_cons.2 ⟨rfl, List.nil_prefix⟩)
    rw [List.map_singleton, List.sum_singleton] at hd
    obtain ⟨c, hc, hsum⟩ := addRounded_exact hd
    -- what is added after `x` is added to `c`
    have htail : ∀ ps, ps <+: ds → ∃ d : Decimal, d.toRat = c.toRat + (ps.map toRat).sum := by
      intro ps hps
      obtain ⟨e, he⟩ := h (x :: ps) (List.cons_prefix_cons.2 ⟨rfl, hps⟩)
      rw [List.map_cons, List.sum_cons, ← add_assoc, ← hsum] at he
      exact ⟨e, he⟩
    obtain ⟨t, ht, htsum⟩ := ih htail
    refine ⟨t, ?_, ?_⟩
    · rw [List.foldlM_cons, hc]
      exact ht
    · rw [htsum, hsum, List.map_cons, List.sum_cons, add_assoc]

/-! ## Differences, products and quotients -/

def neg (d : Decimal) : Decimal := ⟨-d.mantissa, d.scale, by rw [Int.natAbs_neg]; exact d.fits, d.scale_le⟩

def abs (d : Decimal) : Decimal := ⟨d.mantissa.natAbs, d.scale, by rw [Int.natAbs_natCast]; exact d.fits, d.scale_le⟩

/-- The difference, rounded as a sum is. -/
def subRounded (a b : Decimal) : Option Decimal := addRounded a b.neg

/-- The value `n / d`, rounded half to even at the largest scale up to `s` that holds it. -/
def fitQuot (n d : ℕ) : ℕ → Option (ℕ × ℕ)
  | 0 => if roundDiv n d < 2 ^ 96 then some (roundDiv n d, 0) else none
  | s + 1 =>
    if roundDiv (n * 10 ^ (s + 1)) d < 2 ^ 96 then some (roundDiv (n * 10 ^ (s + 1)) d, s + 1) else fitQuot n d s

theorem fitQuot_spec {n d : ℕ} : ∀ {s r t : ℕ}, fitQuot n d s = some (r, t) →
    t ≤ s ∧ r = roundDiv (n * 10 ^ t) d ∧ r < 2 ^ 96 ∧ ∀ i, t < i → i ≤ s → 2 ^ 96 ≤ roundDiv (n * 10 ^ i) d := by
  intro s
  induction s with
  | zero =>
    intro r t h
    unfold fitQuot at h
    split at h
    · rename_i hf
      simp only [Option.some.injEq, Prod.mk.injEq] at h
      obtain ⟨rfl, rfl⟩ := h
      exact ⟨le_rfl, by rw [pow_zero, mul_one], hf, fun i h1 h2 => by omega⟩
    · cases h
  | succ s ih =>
    intro r t h
    unfold fitQuot at h
    split at h
    · rename_i hf
      simp only [Option.some.injEq, Prod.mk.injEq] at h
      obtain ⟨rfl, rfl⟩ := h
      exact ⟨le_rfl, rfl, hf, fun i h1 h2 => by omega⟩
    · rename_i hf
      obtain ⟨h1, h2, h3, h4⟩ := ih h
      refine ⟨by omega, h2, h3, fun i hi his => ?_⟩
      rcases Nat.eq_or_lt_of_le his with rfl | hlt
      · omega
      · exact h4 i hi (by omega)

theorem fitQuot_some {n d t : ℕ} (hf : roundDiv (n * 10 ^ t) d < 2 ^ 96) : ∀ {s : ℕ}, t ≤ s →
    ∃ r i, fitQuot n d s = some (r, i) ∧ t ≤ i := by
  intro s
  induction s with
  | zero =>
    intro h
    obtain rfl : t = 0 := by omega
    rw [pow_zero, mul_one] at hf
    unfold fitQuot
    rw [if_pos hf]
    exact ⟨_, _, rfl, le_rfl⟩
  | succ s ih =>
    intro h
    unfold fitQuot
    split
    · exact ⟨_, _, rfl, h⟩
    · rename_i hbig
      have hne : t ≠ s + 1 := by
        rintro rfl
        exact hbig hf
      exact ih (by omega)

/-- The decimal with this sign and the absolute value `n / d`. -/
def ofQuot (negative : Bool) (n d s : ℕ) (hs : s ≤ 28) : Option Decimal :=
  match h : fitQuot n d s with
  | none => none
  | some (r, t) =>
    some ⟨if negative then -(r : ℤ) else r, t, by
      have := (fitQuot_spec h).2.2.1
      split <;> simpa using this, by
      have := (fitQuot_spec h).1
      omega⟩

theorem ofQuot_eq_none {negative : Bool} {n d s : ℕ} {hs : s ≤ 28} : ofQuot negative n d s hs = none ↔ fitQuot n d s = none := by
  unfold ofQuot
  split
  · rename_i h
    exact ⟨fun _ => h, fun _ => rfl⟩
  · rename_i r t h
    exact ⟨nofun, fun hn => nomatch h.symm.trans hn⟩

theorem ofQuot_some {negative : Bool} {n d s : ℕ} {hs : s ≤ 28} {q : Decimal} (h : ofQuot negative n d s hs = some q) :
    fitQuot n d s = some (q.mantissa.natAbs, q.scale) := by
  unfold ofQuot at h
  split at h
  · cases h
  · rename_i r t hf
    cases h
    refine hf.trans ?_
    dsimp only
    split <;> simp

/-- The product; nothing when it is too large for every scale. -/
def mulRounded (a b : Decimal) : Option Decimal :=
  ofQuot (decide (a.mantissa * b.mantissa < 0)) (a.mantissa.natAbs * b.mantissa.natAbs) (10 ^ (a.scale + b.scale))
    (min (a.scale + b.scale) 28) (min_le_right _ _)

/-- The quotient; nothing for a zero divisor, or when it is too large for every scale. -/
def divRounded (a b : Decimal) : Option Decimal :=
  if b.mantissa = 0 then none
  else ofQuot (decide (a.mantissa * b.mantissa < 0)) (a.mantissa.natAbs * 10 ^ b.scale) (b.mantissa.natAbs * 10 ^ a.scale)
    28 le_rfl

/-- **The difference of two positive decimals always fits**: it is not larger than the larger one. -/
theorem subRounded_of_pos {a b : Decimal} (ha : 0 < a) (hb : 0 < b) : ∃ c, subRounded a b = some c := by
  rw [pos_iff] at ha hb
  have hscale : b.neg.scale = b.scale := rfl
  set s := max a.scale b.scale with hs
  have hr : b.neg.rescale s = -b.rescale s := by
    unfold rescale neg
    dsimp only
    ring
  have hA : 0 ≤ a.rescale s := by unfold rescale; positivity
  have hB : 0 ≤ b.rescale s := by unfold rescale; positivity
  -- dropping the digits of the larger operand is enough
  have hdrop : ∀ d : Decimal, 0 < d.mantissa → d.scale ≤ s → (a.rescale s + b.neg.rescale s).natAbs ≤ (d.rescale s).natAbs →
      roundDiv (a.rescale s + b.neg.rescale s).natAbs (10 ^ (s - d.scale)) < 2 ^ 96 := by
    intro d hd hds hle
    have hle' : (a.rescale s + b.neg.rescale s).natAbs ≤ d.mantissa.natAbs * 10 ^ (s - d.scale) := by
      refine hle.trans (le_of_eq ?_)
      unfold rescale
      rw [Int.natAbs_mul, Int.natAbs_pow]
      rfl
    have hpos : 0 < 10 ^ (s - d.scale) := by positivity
    have hround := roundDiv_le (m := (a.rescale s + b.neg.rescale s).natAbs) hpos
    have hfit := d.fits
    by_contra hbig
    have hge : (d.mantissa.natAbs + 1) * 10 ^ (s - d.scale) ≤
        roundDiv (a.rescale s + b.neg.rescale s).natAbs (10 ^ (s - d.scale)) * 10 ^ (s - d.scale) :=
      Nat.mul_le_mul_right _ (by omega)
    rw [Nat.add_mul] at hge
    omega
  have hex : ∃ j ≤ s, roundDiv (a.rescale s + b.neg.rescale s).natAbs (10 ^ j) < 2 ^ 96 := by
    by_cases hab : b.rescale s ≤ a.rescale s
    · exact ⟨s - a.scale, by omega, hdrop a ha (le_max_left _ _) (by omega)⟩
    · exact ⟨s - b.scale, by omega, hdrop b hb (le_max_right _ _) (by omega)⟩
  obtain ⟨j, hj, hlt⟩ := hex
  obtain ⟨r, i, hf, -⟩ := fit_some hj hlt (s + 1) 0 (Nat.zero_le _) (by omega)
  unfold subRounded
  exact addRounded_isSome (by rw [hscale, ← hs]; exact hf)

end Decimal

end Fixed
