import Mathlib.Data.Rat.Defs
import Mathlib.Algebra.Order.Field.Rat
import Mathlib.Tactic

/-!
# Numbers as strings of digits

`num` reads a string of decimal digits. Strings of one length compare as the numbers they
stand for (`lt_iff_num_lt`), so numbers with a point can be compared without any arithmetic:
first by where their first digit stands, then, filled up with zeros, as strings.

`Stands ds mag q` says that `q` is the number whose digits `ds` begin `mag` places in front of
the point.
-/

namespace DigitStrings

/-- The number a string of digits stands for. -/
def num (ds : List Char) : ℕ := Nat.ofDigitChars 10 ds 0

/-- Only digits. -/
def Digits (ds : List Char) : Prop := ∀ c ∈ ds, c.isDigit = true

/-- What a digit counts. -/
def digit (c : Char) : ℕ := c.toNat - 48

variable {a b ds : List Char} {c : Char}

@[simp] theorem num_nil : num [] = 0 := rfl

theorem num_append (a b : List Char) : num (a ++ b) = num a * 10 ^ b.length + num b := by
  unfold num
  rw [Nat.ofDigitChars_append, Nat.ofDigitChars_eq_ofDigitChars_zero, mul_comm]

theorem num_cons (c : Char) (ds : List Char) : num (c :: ds) = digit c * 10 ^ ds.length + num ds := by
  unfold num digit
  rw [Nat.ofDigitChars_cons, Nat.ofDigitChars_eq_ofDigitChars_zero, mul_comm, Nat.mul_zero, Nat.zero_add]
  rfl

theorem num_concat (ds : List Char) (c : Char) : num (ds ++ [c]) = num ds * 10 + digit c := by
  rw [num_append, num_cons, List.length_nil, List.length_singleton]
  simp

theorem num_zeros (ds : List Char) (n : ℕ) : num (ds ++ List.replicate n '0') = num ds * 10 ^ n := by
  unfold num
  rw [Nat.ofDigitChars_append, Nat.ofDigitChars_replicate_zero, mul_comm]

theorem digit_lt (h : c.isDigit = true) : digit c < 10 := by
  have h9 : c.toNat ≤ 57 := (Char.isDigit_iff_toNat.1 h).2
  unfold digit
  omega

theorem digit_pos (h : c.isDigit = true) (hc : c ≠ '0') : 1 ≤ digit c := by
  have h0 : 48 ≤ c.toNat := (Char.isDigit_iff_toNat.1 h).1
  have hne : c.toNat ≠ 48 := fun he => hc (Char.toNat_inj.1 he)
  unfold digit
  omega

theorem digit_lt_iff {d : Char} (hc : c.isDigit = true) (hd : d.isDigit = true) : c < d ↔ digit c < digit d := by
  have hc0 : 48 ≤ c.toNat := (Char.isDigit_iff_toNat.1 hc).1
  have hd0 : 48 ≤ d.toNat := (Char.isDigit_iff_toNat.1 hd).1
  have hlt : c < d ↔ c.toNat < d.toNat := UInt32.lt_iff_toNat_lt
  rw [hlt]
  unfold digit
  omega

theorem digit_inj {d : Char} (hc : c.isDigit = true) (hd : d.isDigit = true) (h : digit c = digit d) : c = d := by
  have hc0 : 48 ≤ c.toNat := (Char.isDigit_iff_toNat.1 hc).1
  have hd0 : 48 ≤ d.toNat := (Char.isDigit_iff_toNat.1 hd).1
  unfold digit at h
  exact Char.toNat_inj.1 (by omega)

theorem Digits.of_cons (h : Digits (c :: ds)) : c.isDigit = true ∧ Digits ds :=
  ⟨h c List.mem_cons_self, fun d hd => h d (List.mem_cons_of_mem _ hd)⟩

theorem Digits.append (ha : Digits a) (hb : Digits b) : Digits (a ++ b) := fun c hc =>
  (List.mem_append.1 hc).elim (ha c) (hb c)

theorem Digits.zeros (ha : Digits a) (n : ℕ) : Digits (a ++ List.replicate n '0') := by
  refine ha.append fun c hc => ?_
  rw [List.eq_of_mem_replicate hc]
  rfl

theorem num_lt (h : Digits ds) : num ds < 10 ^ ds.length := by
  induction ds with
  | nil => simp
  | cons c ds ih =>
    obtain ⟨hc, hds⟩ := h.of_cons
    have hd := digit_lt hc
    have hr := ih hds
    rw [num_cons, List.length_cons, pow_succ]
    calc digit c * 10 ^ ds.length + num ds < digit c * 10 ^ ds.length + 10 ^ ds.length := by omega
      _ = (digit c + 1) * 10 ^ ds.length := by ring
      _ ≤ 10 * 10 ^ ds.length := Nat.mul_le_mul_right _ hd
      _ = 10 ^ ds.length * 10 := mul_comm _ _

/-- A number without leading zeros has as many places as digits. -/
theorem le_num (h : Digits (c :: ds)) (hc : c ≠ '0') : 10 ^ ds.length ≤ num (c :: ds) := by
  have hd := digit_pos h.of_cons.1 hc
  rw [num_cons]
  calc 10 ^ ds.length = 1 * 10 ^ ds.length := (one_mul _).symm
    _ ≤ digit c * 10 ^ ds.length := Nat.mul_le_mul_right _ hd
    _ ≤ _ := Nat.le_add_right _ _

/-- Strings of one length compare as numbers. -/
theorem lt_iff_num_lt (hlen : a.length = b.length) (ha : Digits a) (hb : Digits b) : a < b ↔ num a < num b := by
  induction a generalizing b with
  | nil =>
    obtain rfl := List.eq_nil_of_length_eq_zero hlen.symm
    simp
  | cons c a ih =>
    cases b with
    | nil => simp at hlen
    | cons d b =>
      have hlen' : a.length = b.length := Nat.succ.inj hlen
      obtain ⟨hc, hda⟩ := ha.of_cons
      obtain ⟨hd, hdb⟩ := hb.of_cons
      have hna := num_lt hda
      have hnb := num_lt hdb
      rw [List.cons_lt_cons_iff, num_cons, num_cons, hlen', ih hlen' hda hdb, digit_lt_iff hc hd]
      rw [hlen'] at hna
      rcases lt_trichotomy (digit c) (digit d) with hlt | heq | hgt
      · have hstep : (digit c + 1) * 10 ^ b.length ≤ digit d * 10 ^ b.length := Nat.mul_le_mul_right _ hlt
        rw [Nat.add_mul, one_mul] at hstep
        exact ⟨fun _ => by omega, fun _ => .inl hlt⟩
      · obtain rfl := digit_inj hc hd heq
        constructor
        · rintro (hlt | ⟨-, hlt⟩)
          · omega
          · omega
        · intro hlt
          exact .inr ⟨rfl, by omega⟩
      · have hstep : (digit d + 1) * 10 ^ b.length ≤ digit c * 10 ^ b.length := Nat.mul_le_mul_right _ hgt
        rw [Nat.add_mul, one_mul] at hstep
        constructor
        · rintro (hlt | ⟨rfl, -⟩)
          · omega
          · omega
        · intro hlt
          omega

theorem eq_iff_num_eq (hlen : a.length = b.length) (ha : Digits a) (hb : Digits b) : a = b ↔ num a = num b := by
  induction a generalizing b with
  | nil =>
    obtain rfl := List.eq_nil_of_length_eq_zero hlen.symm
    simp
  | cons c a ih =>
    cases b with
    | nil => simp at hlen
    | cons d b =>
      have hlen' : a.length = b.length := Nat.succ.inj hlen
      obtain ⟨hc, hda⟩ := ha.of_cons
      obtain ⟨hd, hdb⟩ := hb.of_cons
      have hna := hlen' ▸ num_lt hda
      have hnb := num_lt hdb
      constructor
      · intro h
        rw [h]
      · intro h
        rw [num_cons, num_cons, hlen', mul_comm (digit c), mul_comm (digit d)] at h
        -- the first digits are the quotients, the rests the remainders
        have hdiv : digit c = digit d := by
          have hq := congrArg (· / 10 ^ b.length) h
          simpa [Nat.mul_add_div, Nat.div_eq_of_lt hna, Nat.div_eq_of_lt hnb] using hq
        have hrest : num a = num b := by
          rw [hdiv] at h
          omega
        rw [digit_inj hc hd hdiv, (ih hlen' hda hdb).2 hrest]

/-- Leading zeros do not count. -/
theorem num_dropWhile (ds : List Char) : num (ds.dropWhile (· = '0')) = num ds := by
  induction ds with
  | nil => rfl
  | cons c ds ih =>
    by_cases hc : c = '0'
    · subst hc
      rw [List.dropWhile_cons_of_pos (by simp), ih, num_cons]
      simp [digit]
    · rw [List.dropWhile_cons_of_neg (by simpa using hc)]

/-! ## Numbers with a point -/

/-- `q` has the digits `ds`, without zeros in front, and the first of them is `mag` places before
the point. -/
structure Stands (ds : List Char) (mag : ℤ) (q : ℚ) : Prop where
  digits : Digits ds
  ne_nil : ds ≠ []
  head : ds.head? ≠ some '0'
  value : q = num ds * 10 ^ (mag - ds.length)

variable {mag mag' : ℤ} {q q' : ℚ}

theorem Stands.bounds (h : Stands ds mag q) : (10 : ℚ) ^ (mag - 1) ≤ q ∧ q < 10 ^ mag := by
  obtain ⟨c, rest, rfl⟩ := List.exists_cons_of_ne_nil h.ne_nil
  have hlow : ((10 ^ rest.length : ℕ) : ℚ) ≤ num (c :: rest) :=
    Nat.cast_le.2 (le_num h.digits fun hc => h.head (hc ▸ rfl))
  have hhigh : (num (c :: rest) : ℚ) < (10 ^ (c :: rest).length : ℕ) := Nat.cast_lt.2 (num_lt h.digits)
  rw [Nat.cast_pow, Nat.cast_ofNat, ← zpow_natCast] at hlow hhigh
  have hpos : (0 : ℚ) < 10 ^ (mag - ((c :: rest).length : ℤ)) := by positivity
  constructor
  · calc (10 : ℚ) ^ (mag - 1) = 10 ^ (rest.length : ℤ) * 10 ^ (mag - ((c :: rest).length : ℤ)) := by
          rw [← zpow_add₀ (by norm_num)]
          congr 1
          push_cast [List.length_cons]
          ring
      _ ≤ num (c :: rest) * 10 ^ (mag - ((c :: rest).length : ℤ)) := mul_le_mul_of_nonneg_right hlow hpos.le
      _ = q := h.value.symm
  · calc q = num (c :: rest) * 10 ^ (mag - ((c :: rest).length : ℤ)) := h.value
      _ < 10 ^ ((c :: rest).length : ℤ) * 10 ^ (mag - ((c :: rest).length : ℤ)) := mul_lt_mul_of_pos_right hhigh hpos
      _ = 10 ^ mag := by
          rw [← zpow_add₀ (by norm_num)]
          congr 1
          ring

theorem Stands.pos (h : Stands ds mag q) : 0 < q := lt_of_lt_of_le (by positivity) h.bounds.1

/-- What stands further in front is greater. -/
theorem Stands.lt_of_lt (h : Stands a mag q) (h' : Stands b mag' q') (hlt : mag < mag') : q < q' :=
  calc q < 10 ^ mag := h.bounds.2
    _ ≤ 10 ^ (mag' - 1) := zpow_le_zpow_right₀ (by norm_num) (by omega)
    _ ≤ q' := h'.bounds.1

/-- The digits with zeros behind them. -/
def padEnd (length : ℕ) (ds : List Char) : List Char := ds ++ List.replicate (length - ds.length) '0'

theorem length_padEnd {n : ℕ} (h : ds.length ≤ n) : (padEnd n ds).length = n := by
  unfold padEnd
  rw [List.length_append, List.length_replicate]
  omega

theorem Stands.padded (h : Stands ds mag q) {n : ℕ} (hn : ds.length ≤ n) : q = num (padEnd n ds) * 10 ^ (mag - n) := by
  have hnum : num (padEnd n ds) = num ds * 10 ^ (n - ds.length) := num_zeros ds _
  rw [hnum, Nat.cast_mul, Nat.cast_pow, Nat.cast_ofNat, ← zpow_natCast, Nat.cast_sub hn, mul_assoc,
    ← zpow_add₀ (by norm_num), h.value]
  congr 2
  ring

/-- What begins at the same place compares as its digits do. -/
theorem Stands.lt_iff (h : Stands a mag q) (h' : Stands b mag q') {n : ℕ} (ha : a.length ≤ n) (hb : b.length ≤ n) :
    q < q' ↔ padEnd n a < padEnd n b := by
  have hlen : (padEnd n a).length = (padEnd n b).length := (length_padEnd ha).trans (length_padEnd hb).symm
  have hpos : (0 : ℚ) < 10 ^ (mag - n) := by positivity
  rw [lt_iff_num_lt hlen (h.digits.zeros _) (h'.digits.zeros _), h.padded ha, h'.padded hb,
    mul_lt_mul_iff_left₀ hpos, Nat.cast_lt]

theorem Stands.eq_iff (h : Stands a mag q) (h' : Stands b mag q') {n : ℕ} (ha : a.length ≤ n) (hb : b.length ≤ n) :
    q = q' ↔ padEnd n a = padEnd n b := by
  have hlen : (padEnd n a).length = (padEnd n b).length := (length_padEnd ha).trans (length_padEnd hb).symm
  have hpos : (0 : ℚ) < 10 ^ (mag - n) := by positivity
  rw [eq_iff_num_eq hlen (h.digits.zeros _) (h'.digits.zeros _), h.padded ha, h'.padded hb,
    mul_left_inj' hpos.ne', Nat.cast_inj]

end DigitStrings
