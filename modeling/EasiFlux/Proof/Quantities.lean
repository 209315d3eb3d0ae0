import EasiFlux.Model.StrategyClient
import Mathlib.Data.List.TakeWhile

/-!
# Quantities are ordered alike

The frontend keeps of a numeral its digits without zeros at the ends, and where the first of
them stands. `comparableOf_represents`: this is the exact value. `compareDecimal_compares`: the
comparison is that of the values.

**`quantities_ordered_alike`**: what the backend accepts without a minus sign the frontend
accepts too, and orders in the same way. The backend also accepts a zero with a minus sign.
-/

namespace EasiFlux

open Fixed DigitStrings PluginStrategyService

/-! ## The specification -/

/-- The exact value of a numeral: the integer part, the fraction and the exponent. -/
def exactValue (raw : String) : ℚ :=
  let mantissa := mantissaOf (withoutPlus raw.toList)
  let frac := fractionOf mantissa
  (num (mantissa.takeWhile (· ≠ '.')) + num frac / 10 ^ frac.length) * 10 ^ exponentValue (exponentOf (withoutPlus raw.toList))

/-- The sign `n` says how `a` and `b` compare. -/
structure Compares (n : ℤ) (a b : ℚ) : Prop where
  below : n < 0 ↔ a < b
  equal : n = 0 ↔ a = b
  above : 0 < n ↔ b < a

/-- The backend accepts `v` as the value `q`: as a quantity, or else as a decimal that need not be
positive but is not negative. -/
def BackendAccepts (positive : Bool) (v : String) (q : ℚ) : Prop :=
  if positive then ∃ d, quantity v = .ok d ∧ q = d.toRat
  else ∃ d, decimal v false = .ok d.normalize.toString ∧ Decimal.ofString v = some d ∧ 0 ≤ d ∧ q = d.toRat

/-- The greatest value of 96 bits. -/
def maxValue : ℚ := 79228162514264337593543950335

/-! ## Parts of a numeral -/

section Parts

variable {text : List Char}

/-- The text is a mantissa with these digits in front of the point and behind it. -/
structure Mantissa (text int frac : List Char) : Prop where
  whole : Digits int
  rest : Digits frac
  shape : text = int ∧ frac = [] ∨ text = int ++ '.' :: frac

theorem Digits.no_point {ds : List Char} (h : Digits ds) : ∀ c ∈ ds, c ≠ '.' := by
  intro c hc he
  have hd := h c hc
  rw [he] at hd
  cases hd

theorem digits_takeWhile (text : List Char) : Digits (text.takeWhile Char.isDigit) := fun _ hc =>
  List.mem_takeWhile_imp hc

theorem isMantissa_parts (h : isMantissa text = true) : ∃ int frac, Mantissa text int frac := by
  have hsplit := List.takeWhile_append_dropWhile (p := Char.isDigit) (l := text)
  unfold isMantissa at h
  cases hrest : text.dropWhile Char.isDigit with
  | nil =>
    rw [hrest, List.append_nil] at hsplit
    exact ⟨text, [], hsplit ▸ digits_takeWhile text, nofun, .inl ⟨rfl, rfl⟩⟩
  | cons c frac =>
    rw [hrest] at h hsplit
    simp only [Bool.and_eq_true, beq_iff_eq] at h
    obtain ⟨⟨rfl, hfrac⟩, -⟩ := h
    exact ⟨_, frac, digits_takeWhile text, List.all_eq_true.1 hfrac, .inr hsplit.symm⟩

variable {int frac : List Char}

theorem Mantissa.takeWhile (h : Mantissa text int frac) : text.takeWhile (· ≠ '.') = int := by
  have hint : int.takeWhile (· ≠ '.') = int := List.takeWhile_eq_self_iff.2 fun c hc => by simpa using Digits.no_point h.whole c hc
  rcases h.shape with ⟨rfl, -⟩ | rfl
  · exact hint
  · rw [List.takeWhile_append_of_pos fun c hc => by simpa using Digits.no_point h.whole c hc]
    simp

theorem Mantissa.fraction (h : Mantissa text int frac) : fractionOf text = frac := by
  unfold fractionOf
  rcases h.shape with ⟨rfl, rfl⟩ | rfl
  · have hnone : text.dropWhile (· ≠ '.') = [] :=
      List.dropWhile_eq_nil_iff.2 fun c hc => by simpa using Digits.no_point h.whole c hc
    rw [hnone]
    rfl
  · rw [List.dropWhile_append_of_pos fun c hc => by simpa using Digits.no_point h.whole c hc]
    simp

theorem Mantissa.erase (h : Mantissa text int frac) : text.erase '.' = int ++ frac := by
  have hint : '.' ∉ int := fun hc => Digits.no_point h.whole _ hc rfl
  rcases h.shape with ⟨rfl, rfl⟩ | rfl
  · rw [List.erase_of_not_mem hint, List.append_nil]
  · rw [List.erase_append_right _ hint, List.erase_cons_head]

/-- All digits of the mantissa as one number, with the point `frac.length` from their end. -/
theorem Mantissa.value (_ : Mantissa text int frac) :
    (num int + num frac / 10 ^ frac.length : ℚ) = num (int ++ frac) * 10 ^ (-(frac.length : ℤ)) := by
  have hpos : (10 : ℚ) ^ frac.length ≠ 0 := by positivity
  rw [num_append, zpow_neg, zpow_natCast]
  push_cast
  field_simp

end Parts

/-! ## The comparable form -/

section Comparable

variable {ds : List Char} {scale : ℤ} {q a b : ℚ} {c l r : ComparableDecimal}

/-- `c` stands for the value `q`. -/
def Represents (c : ComparableDecimal) (q : ℚ) : Prop :=
  c = ⟨['0'], 0⟩ ∧ q = 0 ∨ Stands c.digits c.magnitude q

/-- The loop drops zeros that do not change the value. -/
theorem dropScale_value (hds : Digits ds) (hne : ds ≠ []) (hhead : ds.head? ≠ some '0') (scale : ℤ) :
    ∃ kept, (dropScale ds.reverse scale).1 = kept.reverse ∧ Digits kept ∧ kept ≠ [] ∧ kept.head? ≠ some '0' ∧
      (num ds : ℚ) * 10 ^ (-scale) = num kept * 10 ^ (-(dropScale ds.reverse scale).2) ∧
      (dropScale ds.reverse scale).2 ≤ scale := by
  induction ds using List.reverseRecOn generalizing scale with
  | nil => exact absurd rfl hne
  | append_singleton ds c ih =>
    rw [List.reverse_append, List.reverse_singleton, List.singleton_append]
    by_cases hdrop : c = '0' ∧ 0 < scale
    · obtain ⟨rfl, hpos⟩ := hdrop
      have hstep : dropScale ('0' :: ds.reverse) scale = dropScale ds.reverse (scale - 1) := if_pos hpos
      -- the zero is not the only digit, since there is none in front
      have hne' : ds ≠ [] := by
        rintro rfl
        exact hhead rfl
      have hhead' : ds.head? ≠ some '0' := by
        rwa [List.head?_append_of_ne_nil _ hne'] at hhead
      obtain ⟨kept, hkept, hd, hk, hkh, hval, hle⟩ :=
        ih (fun c hc => hds c (List.mem_append_left _ hc)) hne' hhead' (scale - 1)
      rw [hstep]
      refine ⟨kept, hkept, hd, hk, hkh, ?_, by omega⟩
      have hzero : digit '0' = 0 := rfl
      rw [← hval, num_concat, hzero, Nat.add_zero, Nat.cast_mul, Nat.cast_ofNat, mul_assoc, neg_sub, sub_eq_add_neg,
        zpow_add₀ (by norm_num), zpow_one]
    · have hstop : dropScale (c :: ds.reverse) scale = (c :: ds.reverse, scale) := by
        unfold dropScale
        split
        · rename_i heq
          obtain ⟨rfl, -⟩ := List.cons.inj heq
          rw [if_neg fun hpos => hdrop ⟨rfl, hpos⟩]
          simp_all
        · rfl
      rw [hstop]
      exact ⟨ds ++ [c], by simp, hds, hne, hhead, rfl, le_refl _⟩

/-- What `comparableOf` makes of digits without zeros in front: their value, and a scale that is
not greater and with which the value is still a whole number. -/
theorem comparableOf_represents (hds : Digits ds) (hhead : ds.head? ≠ some '0') (scale : ℤ) :
    Represents (comparableOf ds scale).1 (num ds * 10 ^ (-scale)) ∧ (comparableOf ds scale).2 ≤ scale ∧
      ∃ n : ℕ, (num ds * 10 ^ (-scale) : ℚ) = n * 10 ^ (-(comparableOf ds scale).2) := by
  by_cases hne : ds = []
  · subst hne
    refine ⟨.inl ⟨rfl, by simp⟩, le_refl _, 0, by simp⟩
  · obtain ⟨kept, hkept, hd, hk, hkh, hval, hle⟩ := dropScale_value hds hne hhead scale
    have hof : comparableOf ds scale = (⟨kept, kept.length - (dropScale ds.reverse scale).2⟩, (dropScale ds.reverse scale).2) := by
      unfold comparableOf
      simp only [hkept, List.reverse_reverse, if_neg hk]
    rw [hof]
    refine ⟨.inr ⟨hd, hk, hkh, ?_⟩, hle, num kept, hval⟩
    rw [hval]
    congr 2
    ring

theorem Represents.nonneg (h : Represents c q) : 0 ≤ q := by
  rcases h with ⟨-, rfl⟩ | h
  · exact le_refl _
  · exact h.pos.le

theorem Represents.zero_iff (h : Represents c q) : c.digits = ['0'] ↔ q = 0 := by
  rcases h with ⟨rfl, rfl⟩ | h
  · exact ⟨fun _ => rfl, fun _ => rfl⟩
  · refine ⟨fun hc => ?_, fun hq => absurd hq h.pos.ne'⟩
    have hhead := h.head
    rw [hc] at hhead
    exact absurd rfl hhead

theorem Represents.stands (h : Represents c q) (hq : q ≠ 0) : Stands c.digits c.magnitude q :=
  h.resolve_left fun h => hq h.2

theorem compares_of_lt (h : a < b) : Compares (-1) a b :=
  ⟨by simp [h], by simp [h.ne], by simp [h.le]⟩

theorem compares_of_gt (h : b < a) : Compares 1 a b :=
  ⟨by simp [h.le], by simp [h.ne'], by simp [h]⟩

theorem compares_of_eq (h : a = b) : Compares 0 a b := ⟨by simp [h], by simp [h], by simp [h]⟩

/-- **The comparison of the digits is that of the values.** -/
theorem compareDecimal_compares (hl : Represents l a) (hr : Represents r b) : Compares (compareDecimal l r) a b := by
  unfold compareDecimal
  by_cases ha : a = 0
  · rw [if_pos (hl.zero_iff.2 ha)]
    by_cases hb : b = 0
    · rw [if_pos (hr.zero_iff.2 hb)]
      exact compares_of_eq (ha.trans hb.symm)
    · rw [if_neg (mt hr.zero_iff.1 hb)]
      exact compares_of_lt (ha ▸ lt_of_le_of_ne hr.nonneg (Ne.symm hb))
  · rw [if_neg (mt hl.zero_iff.1 ha)]
    by_cases hb : b = 0
    · rw [if_pos (hr.zero_iff.2 hb)]
      exact compares_of_gt (hb ▸ lt_of_le_of_ne hl.nonneg (Ne.symm ha))
    · rw [if_neg (mt hr.zero_iff.1 hb)]
      have hsl := hl.stands ha
      have hsr := hr.stands hb
      by_cases hmag : l.magnitude = r.magnitude
      · rw [if_neg (not_not.2 hmag)]
        have hlen₁ : l.digits.length ≤ max l.digits.length r.digits.length := le_max_left _ _
        have hlen₂ : r.digits.length ≤ max l.digits.length r.digits.length := le_max_right _ _
        rw [← hmag] at hsr
        have heq_iff := hsl.eq_iff hsr hlen₁ hlen₂
        have hlt_iff := hsl.lt_iff hsr hlen₁ hlen₂
        by_cases heq : a = b
        · rw [if_pos (heq_iff.1 heq)]
          exact compares_of_eq heq
        · rw [if_neg (mt heq_iff.2 heq)]
          by_cases hlt : a < b
          · rw [if_pos (hlt_iff.1 hlt)]
            exact compares_of_lt hlt
          · rw [if_neg (mt hlt_iff.2 hlt)]
            exact compares_of_gt (lt_of_le_of_ne (not_lt.1 hlt) (Ne.symm heq))
      · rw [if_pos hmag]
        by_cases hlt : l.magnitude < r.magnitude
        · rw [if_pos hlt]
          exact compares_of_lt (hsl.lt_of_lt hsr hlt)
        · rw [if_neg hlt]
          exact compares_of_gt (hsr.lt_of_lt hsl (lt_of_le_of_ne (not_lt.1 hlt) (Ne.symm hmag)))

theorem decimalMax_represents : Represents decimalMax maxValue := by
  have hnum : num decimalMax.digits = 79228162514264337593543950335 := by decide +kernel
  refine .inr ⟨?_, by decide, by decide, ?_⟩
  · have hall : decimalMax.digits.all Char.isDigit = true := by decide
    exact List.all_eq_true.1 hall
  · rw [hnum]
    have hmag : decimalMax.magnitude - decimalMax.digits.length = 0 := by decide
    rw [hmag, zpow_zero, mul_one]
    norm_num [maxValue]

end Comparable

/-! ## What the frontend accepts -/

section Frontend

variable {v raw : String} {positive : Bool} {c : ComparableDecimal}

/-- The bounds of `boundedString`. -/
def Bounded (v : String) : Prop := v ≠ "" ∧ v.utf8ByteSize ≤ 64

theorem boundedString_eq (h : Bounded v) : boundedString v 64 = some v := by
  unfold boundedString
  rw [if_neg]
  rintro (hempty | hlong)
  · exact h.1 hempty
  · have := h.2
    omega

/-- `decimal` on a numeral of the pattern. -/
theorem decimal_spec (positive : Bool) (hv : Bounded v) (hp : decimalPattern v.toList = true) : ∃ c scale,
    Represents c (exactValue v) ∧ (∃ n : ℕ, exactValue v = n * 10 ^ (-scale)) ∧
      scale ≤ (fractionOf (mantissaOf (withoutPlus v.toList))).length - exponentValue (exponentOf (withoutPlus v.toList)) ∧
      PluginStrategyService.decimal v positive =
        if positive = true ∧ exactValue v = 0 then none
        else if 28 < scale ∨ maxValue < exactValue v then none else some (v, c) := by
  have hmant := (Bool.and_eq_true_iff.1 hp).1
  obtain ⟨int, frac, h⟩ := isMantissa_parts hmant
  let exponent := exponentValue (exponentOf (withoutPlus v.toList))
  let ds := (int ++ frac).dropWhile (· = '0')
  have hds : Digits ds := fun c hc => (h.whole.append h.rest) c (List.dropWhile_subset _ hc)
  have hhead : ds.head? ≠ some '0' := by
    intro hc
    have hfalse := List.head?_dropWhile_not (fun c : Char => decide (c = '0')) (int ++ frac)
    rw [show (int ++ frac).dropWhile (fun c => decide (c = '0')) = ds from rfl, hc] at hfalse
    simp at hfalse
  -- the value is that of all digits, with the point moved
  have hvalue : exactValue v = num ds * 10 ^ (-((frac.length : ℤ) - exponent)) := by
    have hnum : num ds = num (int ++ frac) := num_dropWhile _
    unfold exactValue
    simp only [h.takeWhile, h.fraction]
    rw [h.value, hnum, mul_assoc, ← zpow_add₀ (by norm_num)]
    congr 2
    ring
  obtain ⟨hrep, hscale, hwhole⟩ := comparableOf_represents hds hhead ((frac.length : ℤ) - exponent)
  rw [← hvalue] at hrep hwhole
  refine ⟨_, _, hrep, hwhole, by rw [h.fraction]; exact hscale, ?_⟩
  have hzero : ds = [] ↔ exactValue v = 0 := by
    rw [hvalue]
    constructor
    · intro he
      rw [he]
      simp
    · intro hz
      by_contra hne
      obtain ⟨c, rest, hc⟩ := List.exists_cons_of_ne_nil hne
      have hcrest : Digits (c :: rest) := hc ▸ hds
      have hpos := le_num hcrest fun h0 => hhead (by rw [hc, h0]; rfl)
      rw [← hc] at hpos
      have hnum : (num ds : ℚ) = 0 := (mul_eq_zero.1 hz).resolve_right (by positivity)
      have hten := Nat.pow_pos (n := rest.length) (show 0 < 10 by decide)
      have hnat : num ds = 0 := by exact_mod_cast hnum
      omega
  have hmax := compareDecimal_compares hrep decimalMax_represents
  have hunfold : PluginStrategyService.decimal v positive =
      if positive = true ∧ ds = [] then none
      else if 28 < (comparableOf ds ((frac.length : ℤ) - exponent)).2 ∨
          0 < compareDecimal (comparableOf ds ((frac.length : ℤ) - exponent)).1 decimalMax then none
      else some (v, (comparableOf ds ((frac.length : ℤ) - exponent)).1) := by
    unfold PluginStrategyService.decimal
    rw [boundedString_eq hv]
    simp only [Option.bind_eq_bind, Option.bind_some, hp, Bool.not_true, Bool.false_eq_true, if_false, h.erase, h.fraction]
    rfl
  rw [hunfold]
  simp only [hzero, hmax.above]

theorem decimal_bounded (h : PluginStrategyService.decimal v positive = some (raw, c)) :
    Bounded v ∧ decimalPattern v.toList = true := by
  unfold PluginStrategyService.decimal boundedString at h
  split at h
  · cases h
  · rename_i hb
    push Not at hb
    simp only [Option.bind_eq_bind, Option.bind_some] at h
    split at h
    · cases h
    · rename_i hp
      exact ⟨hb, by simpa using hp⟩

/-- What is accepted: its value, and its bounds. -/
theorem decimal_accepted (h : PluginStrategyService.decimal v positive = some (raw, c)) :
    Represents c (exactValue v) ∧ exactValue v ≤ maxValue ∧ ∃ n : ℕ, exactValue v * 10 ^ 28 = n := by
  obtain ⟨hv, hp⟩ := decimal_bounded h
  obtain ⟨c', scale, hrep, ⟨n, hn⟩, -, hdec⟩ := decimal_spec positive hv hp
  rw [hdec] at h
  split at h
  · cases h
  · split at h
    · cases h
    · rename_i hbounds
      push Not at hbounds
      obtain ⟨-, rfl⟩ := Prod.mk.inj (Option.some.inj h)
      refine ⟨hrep, hbounds.2, n * 10 ^ (28 - scale).toNat, ?_⟩
      have hscale : (((28 - scale).toNat : ℕ) : ℤ) = 28 - scale := Int.toNat_of_nonneg (by omega)
      have hrest : (10 : ℚ) ^ (28 - scale).toNat = 10 ^ (28 - scale) := by rw [← zpow_natCast, hscale]
      have hplaces : (10 : ℚ) ^ 28 = 10 ^ (28 : ℤ) := by norm_num
      rw [hn, Nat.cast_mul, Nat.cast_pow, Nat.cast_ofNat, hrest, hplaces, mul_assoc, ← zpow_add₀ (by norm_num)]
      congr 2
      ring

theorem accepts_of_bounds (hv : Bounded v) (hp : decimalPattern v.toList = true)
    (hpos : positive = true → exactValue v ≠ 0) (hmax : exactValue v ≤ maxValue)
    (hscale : (fractionOf (mantissaOf (withoutPlus v.toList))).length -
      exponentValue (exponentOf (withoutPlus v.toList)) ≤ 28) :
    ∃ c, PluginStrategyService.decimal v positive = some (v, c) := by
  obtain ⟨c, scale, -, -, hle, hdec⟩ := decimal_spec positive hv hp
  refine ⟨c, ?_⟩
  rw [hdec, if_neg fun h => hpos h.1 h.2, if_neg]
  rintro (hbig | hbig)
  · omega
  · exact absurd hmax (not_le.2 hbig)

end Frontend

/-! ## What the backend accepts -/

section Backend

variable {v : String} {positive : Bool} {d : Decimal} {q : ℚ}

theorem toRat_ofDigits {int frac : List Char} (h : Decimal.ofDigits false int frac = some d) :
    d.toRat = num (int ++ frac) * 10 ^ (-(frac.length : ℤ)) ∧ num (int ++ frac) < 2 ^ 96 ∧ frac.length ≤ 28 ∧ int ++ frac ≠ [] := by
  unfold Decimal.ofDigits at h
  dsimp only at h
  split at h
  · rename_i hfits
    split at h
    · cases h
    · rename_i hne
      obtain rfl := Option.some.inj h
      refine ⟨?_, hfits.1, hfits.2, hne⟩
      unfold Decimal.toRat
      rw [zpow_neg, zpow_natCast, div_eq_mul_inv]
      rfl
  · cases h

/-- The characters the backend lets through, without a sign. -/
def PlainChars (text : List Char) : Prop := ∀ c ∈ text, c.isDigit = true ∨ c = '.'

theorem PlainChars.ne {text : List Char} (h : PlainChars text) {c : Char} (hd : c.isDigit = false) (hp : c ≠ '.') : c ∉ text := by
  intro hc
  rcases h c hc with hdigit | hpoint
  · rw [hd] at hdigit
    cases hdigit
  · exact hp hpoint

theorem plain_parts {text : List Char} (h : PlainChars text) :
    withoutPlus text = text ∧ mantissaOf text = text ∧ exponentOf text = [] ∧ Decimal.ofChars text = Decimal.ofUnsigned false text := by
  have hmark : ∀ c ∈ text, (!isExponentMark c) = true := by
    intro c hc
    have he : c ≠ 'e' := fun he => h.ne (c := 'e') rfl (by decide) (he ▸ hc)
    have hE : c ≠ 'E' := fun hE => h.ne (c := 'E') rfl (by decide) (hE ▸ hc)
    simp [isExponentMark, he, hE]
  refine ⟨?_, List.takeWhile_eq_self_iff.2 hmark, List.dropWhile_eq_nil_iff.2 hmark, ?_⟩
  · unfold withoutPlus
    split
    · exact absurd List.mem_cons_self (h.ne (c := '+') rfl (by decide))
    · rfl
  · unfold Decimal.ofChars
    split
    · exact absurd List.mem_cons_self (h.ne (c := '-') rfl (by decide))
    · exact absurd List.mem_cons_self (h.ne (c := '+') rfl (by decide))
    · rfl

/-- A plain numeral of the backend, in parts. -/
theorem ofUnsigned_parts {text : List Char} (h : Decimal.ofUnsigned false text = some d) : ∃ int frac,
    Mantissa text int frac ∧ isMantissa text = true ∧ Decimal.ofDigits false int frac = some d := by
  have hsplit := List.takeWhile_append_dropWhile (p := Char.isDigit) (l := text)
  unfold Decimal.ofUnsigned at h
  unfold isMantissa
  cases hrest : text.dropWhile Char.isDigit with
  | nil =>
    rw [hrest] at h hsplit
    rw [List.append_nil] at hsplit
    have hne := (toRat_ofDigits h).2.2.2
    rw [List.append_nil] at hne
    exact ⟨text, [], ⟨hsplit ▸ digits_takeWhile text, nofun, .inl ⟨rfl, rfl⟩⟩, by simpa using hne, h⟩
  | cons c frac =>
    rw [hrest] at h hsplit
    dsimp only at h
    split at h
    · rename_i hpoint
      obtain ⟨rfl, hfrac⟩ := hpoint
      refine ⟨_, frac, ⟨digits_takeWhile text, List.all_eq_true.1 hfrac, .inr hsplit.symm⟩, ?_, h⟩
      have hne := (toRat_ofDigits h).2.2.2
      have hlen : 2 ≤ text.length := by
        have hpos := List.length_pos_of_ne_nil hne
        rw [← hsplit, List.length_append, List.length_cons]
        rw [List.length_append] at hpos
        omega
      simp [hfrac, hlen]
    · cases h

theorem decimalShape_plain (h : decimalShape v positive = true) (hminus : '-' ∉ v.toList) :
    Bounded v ∧ PlainChars v.toList := by
  unfold decimalShape byteLen at h
  simp only [Bool.and_eq_true, decide_eq_true_eq] at h
  obtain ⟨⟨⟨⟨hne, hlen⟩, hall⟩, -⟩, -⟩ := h
  refine ⟨⟨hne, hlen⟩, fun c hc => ?_⟩
  have hchar := List.all_eq_true.1 hall c hc
  simp only [Bool.or_eq_true, beq_iff_eq, Bool.and_eq_true] at hchar
  rcases hchar with (hd | hp) | ⟨-, rfl⟩
  · exact .inl hd
  · exact .inr hp
  · exact absurd hc hminus

theorem BackendAccepts.decimal (h : BackendAccepts positive v q) : ∃ d, decimalShape v positive = true ∧
    Decimal.ofString v = some d ∧ q = d.toRat ∧ (positive = true → 0 < q) := by
  unfold BackendAccepts at h
  split at h
  · rename_i hpos
    subst hpos
    obtain ⟨d, hq, rfl⟩ := h
    unfold quantity at hq
    split at hq
    · rename_i canonical p hdec hof
      obtain rfl := Except.ok.inj hq
      obtain ⟨p', hp', hshape, hgt, -⟩ := decimal_ok hdec
      obtain rfl := Option.some.inj (hof.symm.trans hp')
      have hlt := Decimal.lt_iff.1 (hgt rfl)
      rw [Decimal.toRat_zero] at hlt
      exact ⟨p, hshape, hof, rfl, fun _ => hlt⟩
    · cases hq
  · rename_i hpos
    obtain rfl := Bool.eq_false_iff.2 hpos
    obtain ⟨d, hdec, hof, -, rfl⟩ := h
    obtain ⟨p, -, hshape, -, -⟩ := decimal_ok hdec
    exact ⟨d, hshape, hof, rfl, nofun⟩

/-- What the backend accepts without a minus sign, the frontend accepts as the same value. -/
theorem frontend_accepts (h : BackendAccepts positive v q) (hminus : '-' ∉ v.toList) {strict : Bool}
    (hs : strict = true → positive = true) :
    exactValue v = q ∧ ∃ c, PluginStrategyService.decimal v strict = some (v, c) := by
  obtain ⟨d, hshape, hof, rfl, hpos⟩ := h.decimal
  obtain ⟨hbounded, hplain⟩ := decimalShape_plain hshape hminus
  obtain ⟨hplus, hmant, hexp, hchars⟩ := plain_parts hplain
  have hunsigned : Decimal.ofUnsigned false v.toList = some d := hchars ▸ hof
  obtain ⟨int, frac, hparts, hpattern, hdigits⟩ := ofUnsigned_parts hunsigned
  obtain ⟨hrat, hfits, hfrac, -⟩ := toRat_ofDigits hdigits
  have hvalue : exactValue v = d.toRat := by
    unfold exactValue
    simp only [hplus, hmant, hexp, hparts.takeWhile, hparts.fraction]
    rw [hparts.value, hrat]
    simp [exponentValue]
  refine ⟨hvalue, accepts_of_bounds hbounded ?_ ?_ ?_ ?_⟩
  · unfold decimalPattern
    rw [hplus, hmant, hexp, hpattern]
    rfl
  · intro hstrict
    rw [hvalue]
    exact (hpos (hs hstrict)).ne'
  · have hnum : (num (int ++ frac) : ℚ) ≤ maxValue := by
      have hle : num (int ++ frac) ≤ 79228162514264337593543950335 := by omega
      unfold maxValue
      exact_mod_cast hle
    have hle : (10 : ℚ) ^ (-(frac.length : ℤ)) ≤ 1 := zpow_le_one_of_nonpos₀ (by norm_num) (by omega)
    rw [hvalue, hrat]
    calc (num (int ++ frac) : ℚ) * 10 ^ (-(frac.length : ℤ)) ≤ num (int ++ frac) * 1 :=
          mul_le_mul_of_nonneg_left hle (Nat.cast_nonneg _)
      _ = num (int ++ frac) := mul_one _
      _ ≤ maxValue := hnum
  · rw [hplus, hmant, hexp, hparts.fraction]
    show (frac.length : ℤ) - 0 ≤ 28
    omega

/-- **Both sides order quantities in the same way**: what the backend accepts, without a minus
sign, is accepted and compared as its value by the frontend. Whatever else the frontend accepts is
compared as its value too, and is within the bounds of a decimal. -/
theorem quantities_ordered_alike :
    (∀ pa pb sa sb a b qa qb, BackendAccepts pa a qa → BackendAccepts pb b qb → '-' ∉ a.toList → '-' ∉ b.toList →
      (sa = true → pa = true) → (sb = true → pb = true) →
      ∃ ca cb, PluginStrategyService.decimal a sa = some (a, ca) ∧ PluginStrategyService.decimal b sb = some (b, cb) ∧
        Compares (compareDecimal ca cb) qa qb) ∧
    (∀ sa sb a b ra rb ca cb, PluginStrategyService.decimal a sa = some (ra, ca) →
      PluginStrategyService.decimal b sb = some (rb, cb) →
      Compares (compareDecimal ca cb) (exactValue a) (exactValue b)) ∧
    (∀ s v raw c, PluginStrategyService.decimal v s = some (raw, c) →
      exactValue v ≤ maxValue ∧ ∃ n : ℕ, exactValue v * 10 ^ 28 = n) := by
  have hcompare : ∀ sa sb a b ra rb ca cb, PluginStrategyService.decimal a sa = some (ra, ca) →
      PluginStrategyService.decimal b sb = some (rb, cb) →
      Compares (compareDecimal ca cb) (exactValue a) (exactValue b) := by
    intro sa sb a b ra rb ca cb ha hb
    exact compareDecimal_compares (decimal_accepted ha).1 (decimal_accepted hb).1
  refine ⟨fun pa pb sa sb a b qa qb ha hb hma hmb hsa hsb => ?_, hcompare, fun s v raw c h => (decimal_accepted h).2⟩
  obtain ⟨rfl, ca, hca⟩ := frontend_accepts ha hma hsa
  obtain ⟨rfl, cb, hcb⟩ := frontend_accepts hb hmb hsb
  exact ⟨ca, cb, hca, hcb, hcompare sa sb a b a b ca cb hca hcb⟩

/-- The backend accepts `-0`, and the frontend does not. -/
theorem negative_zero_accepted : ¬∀ v q, BackendAccepts false v q → ∃ c, PluginStrategyService.decimal v false = some (v, c) := by
  intro h
  have hbackend : BackendAccepts false "-0" 0 := by
    unfold BackendAccepts
    rw [if_neg Bool.false_ne_true]
    exact ⟨⟨0, 0, by decide, by decide⟩, by decide +kernel, by decide +kernel, by decide, Decimal.toRat_zero.symm⟩
  obtain ⟨c, hc⟩ := h "-0" 0 hbackend
  have hnone : PluginStrategyService.decimal "-0" false = none := by decide +kernel
  rw [hnone] at hc
  cases hc

/-- Both sides accept `1.50` as a quantity and `2.0` as a decimal, and take the first for the smaller; and the
frontend takes `1.50` for smaller than `+16e-1`. -/
theorem quantities_ordered_alike_sample :
    (∃ ca cb, PluginStrategyService.decimal "1.50" true = some ("1.50", ca) ∧
      PluginStrategyService.decimal "2.0" false = some ("2.0", cb) ∧ compareDecimal ca cb < 0) ∧
    exactValue "1.50" < exactValue "+16e-1" := by
  have hone : BackendAccepts true "1.50" (3 / 2) := by
    unfold BackendAccepts
    rw [if_pos rfl]
    refine ⟨⟨150, 2, by decide, by decide⟩, by decide +kernel, ?_⟩
    norm_num [Decimal.toRat]
  have htwo : BackendAccepts false "2.0" 2 := by
    unfold BackendAccepts
    rw [if_neg Bool.false_ne_true]
    refine ⟨⟨20, 1, by decide, by decide⟩, by decide +kernel, by decide +kernel, by decide, ?_⟩
    norm_num [Decimal.toRat]
  have ha : PluginStrategyService.decimal "1.50" true = some ("1.50", ⟨['1', '5'], 1⟩) := by decide +kernel
  have hb : PluginStrategyService.decimal "+16e-1" true = some ("+16e-1", ⟨['1', '6'], 1⟩) := by decide +kernel
  constructor
  · obtain ⟨ca, cb, hca, hcb, hcompare⟩ := quantities_ordered_alike.1 true false true false "1.50" "2.0" _ _ hone htwo
      (by decide) (by decide) (fun _ => rfl) nofun
    exact ⟨ca, cb, hca, hcb, hcompare.below.2 (by norm_num)⟩
  · exact (quantities_ordered_alike.2.1 true true "1.50" "+16e-1" _ _ _ _ ha hb).below.1 (by decide)

end Backend

end EasiFlux
