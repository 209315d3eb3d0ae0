import EasiFlux.Model.Deviation

/-!
# When the price check panics

A difference of two positive prices always fits, so the check panics iff the quotient or a
hundred times it is too large. The quotient is rounded before it is multiplied; still the
product fits iff the percentage, rounded once, does (`priceDeviation_isSome_iff`).

* **`reserveOrder_returns_iff`**: when `reserve_order` returns.
-/

namespace EasiFlux

open CrashIo Results Fixed RiskService

/-! ## The deviation -/

/-- The deviation in percent, rounded to an integer, has 96 bits. -/
def DeviationFits (price reference : Decimal) : Prop :=
  ∀ difference, Decimal.subRounded price reference = some difference →
    Decimal.roundDiv (100 * (difference.mantissa.natAbs * 10 ^ reference.scale))
      (reference.mantissa.natAbs * 10 ^ difference.scale) < 2 ^ 96

/-- With two decimals or more a percentage fits if it does as an integer. -/
theorem fitQuot_hundred_of_fits {n d : ℕ} (h : Decimal.roundDiv (100 * n) d < 2 ^ 96) :
    ∃ q t, Decimal.fitQuot n d 28 = some (q, t) ∧ ∃ r, Decimal.fitQuot (q * 100) (10 ^ t) t = some r := by
  have hn : n * 10 ^ 2 = 100 * n := by ring
  obtain ⟨q, t, hq, ht⟩ := Decimal.fitQuot_some (t := 2) (by rw [hn]; exact h) (show 2 ≤ 28 by norm_num)
  refine ⟨q, t, hq, ?_⟩
  have hpow : q * 100 * 10 ^ (t - 2) = q * 10 ^ t := by
    obtain ⟨k, rfl⟩ := Nat.exists_eq_add_of_le ht
    rw [Nat.add_sub_cancel_left, pow_add]
    ring
  have hround : Decimal.roundDiv (q * 100 * 10 ^ (t - 2)) (10 ^ t) = q := by
    rw [hpow]
    exact Decimal.roundDiv_mul (by positivity) q
  have hq96 := (Decimal.fitQuot_spec hq).2.2.1
  obtain ⟨r, i, hr, -⟩ := Decimal.fitQuot_some (by rw [hround]; exact hq96) (Nat.sub_le t 2)
  exact ⟨_, hr⟩

/-- A product that is kept is not larger than what 96 bits hold, up to the decimals it loses. -/
theorem fitQuot_hundred_bound {q t : ℕ} {r : ℕ × ℕ} (ht : t ≤ 1) (h : Decimal.fitQuot (q * 100) (10 ^ t) t = some r) :
    100 * q < 10 ^ t * 2 ^ 96 := by
  obtain ⟨hu, hr, hr96, -⟩ := Decimal.fitQuot_spec (r := r.1) (t := r.2) h
  obtain rfl | rfl : t = 0 ∨ t = 1 := by omega
  · have h0 : r.2 = 0 := by omega
    rw [h0, pow_zero, mul_one, Decimal.roundDiv_one] at hr
    omega
  · obtain h0 | h1 : r.2 = 0 ∨ r.2 = 1 := by omega
    · have hten : q * 100 * 10 ^ r.2 = 10 * q * 10 ^ 1 := by
        rw [h0]
        ring
      rw [hten, Decimal.roundDiv_mul (by norm_num)] at hr
      omega
    · rw [h1, Decimal.roundDiv_mul (by norm_num)] at hr
      omega

/-- **The percentage**: rounding the quotient first does not change whether it fits. -/
theorem fitQuot_hundred {n d : ℕ} (hd : 0 < d) :
    (∃ q t, Decimal.fitQuot n d 28 = some (q, t) ∧ ∃ r, Decimal.fitQuot (q * 100) (10 ^ t) t = some r) ↔
      Decimal.roundDiv (100 * n) d < 2 ^ 96 := by
  refine ⟨?_, fitQuot_hundred_of_fits⟩
  rintro ⟨q, t, hq, r, hr⟩
  obtain ⟨-, hqr, hq96, hmax⟩ := Decimal.fitQuot_spec hq
  by_contra hbig
  by_cases ht : 2 ≤ t
  · -- the quotient itself is not smaller than the percentage, and does not fit either
    have hle : 100 * n ≤ n * 10 ^ t := by
      obtain ⟨k, rfl⟩ := Nat.exists_eq_add_of_le ht
      have hone : 1 ≤ 10 ^ k := Nat.one_le_pow _ _ (by norm_num)
      calc 100 * n = 100 * n * 1 := (mul_one _).symm
        _ ≤ 100 * n * 10 ^ k := Nat.mul_le_mul_left _ hone
        _ = n * 10 ^ (2 + k) := by rw [pow_add]; ring
    have := Decimal.roundDiv_mono (n := d) hle
    omega
  · have hbound := fitQuot_hundred_bound (by omega) hr
    -- one decimal more did not fit, so the quotient is about a tenth of the bound at least
    have hnext : 2 ^ 96 ≤ Decimal.roundDiv (n * 10 ^ (t + 1)) d := by
      obtain rfl | rfl : t = 0 ∨ t = 1 := by omega
      · exact hmax 1 (by norm_num) (by norm_num)
      · have hn : n * 10 ^ (1 + 1) = 100 * n := by ring
        rw [hn]
        exact Nat.not_lt.1 hbig
    have hup := Decimal.roundDiv_le (m := n * 10 ^ (t + 1)) hd
    have hlarge : 2 ^ 96 * d ≤ Decimal.roundDiv (n * 10 ^ (t + 1)) d * d := Nat.mul_le_mul_right _ hnext
    have hlow := Decimal.roundDiv_ge (m := n * 10 ^ t) hd
    rw [← hqr] at hlow
    have hten : n * 10 ^ (t + 1) = 10 * (n * 10 ^ t) := by ring
    have hmul : (2 ^ 97 - 1) * d ≤ (20 * q + 10) * d := by
      have e1 : (2 ^ 97 - 1) * d = 2 * (2 ^ 96 * d) - d := by omega
      have e2 : (20 * q + 10) * d = 20 * (q * d) + 10 * d := by ring
      omega
    have hq20 : 2 ^ 97 - 1 ≤ 20 * q + 10 := Nat.le_of_mul_le_mul_right hmul hd
    obtain rfl | rfl : t = 0 ∨ t = 1 := by omega
    · omega
    · omega

/-- **The deviation is computed iff it fits.** -/
theorem priceDeviation_isSome_iff {price reference : Decimal} (hp : 0 < price) (hr : 0 < reference) :
    (priceDeviation price reference).isSome = true ↔ DeviationFits price reference := by
  obtain ⟨difference, hdiff⟩ := Decimal.subRounded_of_pos hp hr
  rw [Decimal.pos_iff] at hr
  have hd : 0 < reference.mantissa.natAbs * 10 ^ difference.scale := by
    have : 0 < reference.mantissa.natAbs := by omega
    positivity
  -- the difference is one number, so the condition is on it:
  have hfits : DeviationFits price reference ↔
      Decimal.roundDiv (100 * (difference.mantissa.natAbs * 10 ^ reference.scale))
        (reference.mantissa.natAbs * 10 ^ difference.scale) < 2 ^ 96 := by
    constructor
    · intro h
      exact h difference hdiff
    · intro h other hother
      rw [hdiff] at hother
      cases hother
      exact h
  -- the quotient, and its product with 100, are rounded to 28 digits:
  have hdiv : ∀ ratio, Decimal.divRounded difference.abs reference = some ratio →
      Decimal.fitQuot (difference.mantissa.natAbs * 10 ^ reference.scale)
        (reference.mantissa.natAbs * 10 ^ difference.scale) 28 = some (ratio.mantissa.natAbs, ratio.scale) := by
    intro ratio h
    unfold Decimal.divRounded at h
    rw [if_neg (by omega)] at h
    exact Decimal.ofQuot_some h
  have hmul : ∀ ratio : Decimal, Decimal.mulRounded ratio hundred = none ↔
      Decimal.fitQuot (ratio.mantissa.natAbs * 100) (10 ^ ratio.scale) ratio.scale = none := by
    intro ratio
    unfold Decimal.mulRounded
    rw [Decimal.ofQuot_eq_none]
    have hscale : min (ratio.scale + hundred.scale) 28 = ratio.scale := min_eq_left ratio.scale_le
    rw [hscale]
    rfl
  rw [hfits, ← fitQuot_hundred hd]
  unfold priceDeviation
  rw [hdiff, Option.bind_eq_bind, Option.bind_some]
  constructor
  · intro h
    cases hq : Decimal.divRounded difference.abs reference with
    | none =>
      rw [hq] at h
      cases h
    | some ratio =>
      rw [hq, Option.bind_some] at h
      refine ⟨_, _, hdiv ratio hq, ?_⟩
      rw [← Option.isSome_iff_exists, Option.isSome_iff_ne_none, Ne, ← hmul, ← Ne, ← Option.isSome_iff_ne_none]
      exact h
  · rintro ⟨q, t, hq, hprod⟩
    cases hratio : Decimal.divRounded difference.abs reference with
    | none =>
      unfold Decimal.divRounded at hratio
      rw [if_neg (by omega), Decimal.ofQuot_eq_none] at hratio
      exact absurd (hq.symm.trans hratio) nofun
    | some ratio =>
      have hsame := hq.symm.trans (hdiv ratio hratio)
      simp only [Option.some.injEq, Prod.mk.injEq] at hsame
      obtain ⟨rfl, rfl⟩ := hsame
      rw [Option.bind_some, Option.isSome_iff_ne_none, Ne, hmul, ← Ne, ← Option.isSome_iff_ne_none,
        Option.isSome_iff_exists]
      exact hprod

/-! ## The checks -/

/-- The order gets as far as the deviation, with what is read as its price and as the reference. -/
structure Compared (fromStr : String → Option Decimal) (config : RiskConfig) (request : PlaceOrderRequest)
    (referencePrice : Option String) (price reference : Decimal) : Prop where
  qty : ∃ qty, fromStr request.qty = some qty ∧ 0 < qty ∧ (request.reduceOnly ≠ some true →
    ∃ max, fromStr config.maxOrderQty = some max ∧ qty ≤ max)
  limit : request.orderType.toList.map Char.toLower = "limit".toList
  price : request.price.bind fromStr = some price ∧ 0 < price
  reference : referencePrice.bind fromStr = some reference ∧ 0 < reference

section Checks

variable {fromStr : String → Option Decimal} {config : RiskConfig} {request : PlaceOrderRequest} {referencePrice : Option String}

theorem validateLimitPrice_panics_iff : validateLimitPriceUnwinding fromStr config request referencePrice = .error none ↔
    ∃ price reference, (request.price.bind fromStr = some price ∧ 0 < price) ∧
      (referencePrice.bind fromStr = some reference ∧ 0 < reference) ∧ priceDeviation price reference = none := by
  unfold validateLimitPriceUnwinding
  -- only the deviation ends with `none`, every other error has its violation
  simp only [bind_eq_error, okOr_eq_error, ensure_eq_error, okOr_eq_ok, ensure_eq_ok, reduceCtorEq, and_false, false_or,
    and_true, exists_false, or_false, Option.filter_eq_some_iff, decide_eq_true_eq, Option.bind_eq_some_iff]
  constructor
  · rintro ⟨text, htext, price, hprice, -, hpos, reference, ⟨href, hrpos⟩, hdev⟩
    exact ⟨price, reference, ⟨⟨text, htext, hprice⟩, hpos⟩, ⟨href, hrpos⟩, hdev⟩
  · rintro ⟨price, reference, ⟨⟨text, htext, hprice⟩, hpos⟩, ⟨href, hrpos⟩, hdev⟩
    exact ⟨text, htext, price, hprice, (), hpos, reference, ⟨href, hrpos⟩, hdev⟩

theorem validateOrder_panics_iff : validateOrderUnwinding fromStr config request referencePrice = .error none ↔
    ∃ price reference, Compared fromStr config request referencePrice price reference ∧ priceDeviation price reference = none := by
  have hlast : (if request.orderType.toList.map Char.toLower = "limit".toList then
        validateLimitPriceUnwinding fromStr config request referencePrice else pure ()) = .error none ↔
      request.orderType.toList.map Char.toLower = "limit".toList ∧
        validateLimitPriceUnwinding fromStr config request referencePrice = .error none := by
    by_cases hl : request.orderType.toList.map Char.toLower = "limit".toList
    · rw [if_pos hl]
      exact ⟨fun h => ⟨hl, h⟩, And.right⟩
    · rw [if_neg hl]
      exact ⟨nofun, fun h => absurd h.1 hl⟩
  rw [validateLimitPrice_panics_iff] at hlast
  unfold validateOrderUnwinding
  simp only [bind_eq_error, okOr_eq_error, ensure_eq_error, okOr_eq_ok, ensure_eq_ok, reduceCtorEq, and_false, false_or]
  constructor
  · rintro ⟨qty, hqty, -, hpos, h⟩
    split at h
    · simp only [bind_eq_error, okOr_eq_error, ensure_eq_error, okOr_eq_ok, ensure_eq_ok, reduceCtorEq, and_false,
        false_or] at h
      obtain ⟨max, hmax, -, hle, h⟩ := h
      obtain ⟨hl, price, reference, hp, hr, hdev⟩ := hlast.1 h
      exact ⟨price, reference, ⟨⟨qty, hqty, hpos, fun _ => ⟨max, hmax, hle⟩⟩, hl, hp, hr⟩, hdev⟩
    · rename_i hred
      obtain ⟨hl, price, reference, hp, hr, hdev⟩ := hlast.1 h
      exact ⟨price, reference, ⟨⟨qty, hqty, hpos, fun h => absurd h hred⟩, hl, hp, hr⟩, hdev⟩
  · rintro ⟨price, reference, ⟨⟨qty, hqty, hpos, hmax⟩, hl, hp, hr⟩, hdev⟩
    refine ⟨qty, hqty, (), hpos, ?_⟩
    have hrest := hlast.2 ⟨hl, price, reference, hp, hr, hdev⟩
    rw [if_pos hl] at hrest ⊢
    split
    · rename_i hred
      obtain ⟨max, hmax, hle⟩ := hmax hred
      simp only [bind_eq_error, okOr_eq_error, ensure_eq_error, okOr_eq_ok, ensure_eq_ok, reduceCtorEq, and_false,
        false_or]
      exact ⟨max, hmax, (), hle, hrest⟩
    · exact hrest

end Checks

/-- **When `reserve_order` returns**, with a result or a violation, whatever happens to its ledger and however
texts are read: if an order that is compared with its reference has a deviation that fits. -/
theorem reserveOrder_returns_iff (fromStr : String → Option Decimal) (C : UsageCodec) (Z : Calendar)
    (request : PlaceOrderRequest) (referencePrice : Option String) (nowMs : ℕ) (utcNow : ℤ) (s : RiskService) :
    (∀ faults s' rest, reserveOrderUnwinding fromStr C Z request referencePrice nowMs utcNow s faults ≠ .err none s' rest) ↔
      (s.config.enabled = true → ∀ price reference, Compared fromStr s.config request referencePrice price reference →
        DeviationFits price reference) := by
  have hpanic : validateOrderUnwinding fromStr s.config request referencePrice = .error none ↔
      ¬∀ price reference, Compared fromStr s.config request referencePrice price reference → DeviationFits price reference := by
    rw [validateOrder_panics_iff]
    push Not
    refine exists_congr fun price => exists_congr fun reference => and_congr_right fun hc => ?_
    rw [← priceDeviation_isSome_iff hc.price.2 hc.reference.2, Option.isSome_iff_ne_none, not_not]
  constructor
  · intro h henabled
    by_contra hbad
    -- the check comes before the ledger, so no fault is needed
    have herr := hpanic.2 hbad
    refine h [] s [] ?_
    unfold reserveOrderUnwinding
    have hget : (Io.get : Io RiskService (Option RiskViolation) RiskService) s [] = .ok s s [] := rfl
    rw [Io.bind_of_ok hget, henabled, herr]
    rfl
  · intro h
    have hends : wp (reserveOrderUnwinding fromStr C Z request referencePrice nowMs utcNow) (fun _ _ => True) (fun e _ => e ≠ none)
        (fun _ => True) s := by
      unfold reserveOrderUnwinding
      refine wp_bind (wp_get.2 ?_)
      split
      · exact wp_pure.2 trivial
      · rename_i hon
        have hon' : s.config.enabled = true := by simpa using hon
        refine wp_bind (wp_lift (fun _ _ => ?_) fun e he => ?_)
        · split
          · exact wp_pure.2 trivial
          · -- from here on every error is a violation
            refine wp_bind (wp_lift (fun _ _ => ?_) fun e he => ?_)
            · refine wp_bind (wp_lift (fun _ _ => ?_) fun e he => ?_)
              · refine wp_bind (wp_within.2 (wp_mapErr.2 (wp_mono (wp_true _ _) (fun _ _ _ => ?_) (fun _ _ _ => nofun)
                  fun _ _ => trivial)))
                exact wp_bind (wp_modify.2 (wp_pure.2 trivial))
              · rw [ensure_eq_error] at he
                rw [← he.2]
                exact nofun
            · rw [ensure_eq_error] at he
              rw [← he.2]
              exact nofun
        · rintro rfl
          exact hpanic.1 he (h hon')
    intro faults s' rest heq
    have := hends faults
    rw [heq] at this
    exact this rfl

namespace Sample

def calendar : Calendar where
  isTimezone tz := tz == "Asia/Shanghai"
  instant ms := some ms
  date _ t := t / 86400000
  format d := String.ofList (List.replicate (Encodable.encode d) '0')
  format_inj := by
    intro a b h
    have hlen := congrArg (fun text => text.toList.length) h
    simp only [String.toList_ofList, List.length_replicate] at hlen
    exact Encodable.encode_injective hlen

/-- A limit order at the largest price there is. -/
def largestPrice : PlaceOrderRequest :=
  ⟨"BTCUSDT", "Buy", "Limit", "1", 0, some "79228162514264337593543950335", none, none, none, none⟩

def largestPriceService : RiskService := ⟨⟨"1000", "5", 10, "Asia/Shanghai", true⟩, none, none, ⟨∅, []⟩⟩

end Sample

/-- The largest price against a reference of one: the quotient fits, a hundred times it does not. -/
theorem largest_price_panics : validateRiskConfig Decimal.ofString Sample.calendar Sample.largestPriceService.config = .ok () ∧
    ∀ C : UsageCodec, reserveOrderUnwinding Decimal.ofString C Sample.calendar Sample.largestPrice (some "1") 0 0
      Sample.largestPriceService [] = .err none Sample.largestPriceService [] := by
  have herr : validateOrderUnwinding Decimal.ofString Sample.largestPriceService.config Sample.largestPrice (some "1") = .error none := by
    decide +kernel
  refine ⟨by decide +kernel, fun C => ?_⟩
  unfold reserveOrderUnwinding
  have hget : (Io.get : Io RiskService (Option RiskViolation) RiskService) Sample.largestPriceService [] =
      .ok Sample.largestPriceService Sample.largestPriceService [] := rfl
  rw [Io.bind_of_ok hget, herr]
  rfl

end EasiFlux
