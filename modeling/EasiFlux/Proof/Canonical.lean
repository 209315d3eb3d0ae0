import EasiFlux.Model.Host
import EasiFlux.Proof.Reading

/-!
# One canonical request

Four functions make the request of a placement, and two check it: what a validated
action becomes is the same in all of them, as a canonical numeral is its own.

* `validatePlace_terms`: what a validated proposal is.
* `validate_guarded`, `Guarded.validate_eq`: a validated protection is valid as it stands.
* `matchesRequest_of_response`: the two matchers of a response.
* `one_request`: the four requests are one, and an accepted order is acknowledged.
-/

namespace EasiFlux

open CrashIo Fixed Results OrderSubmissionStore

/-! ## Numerals -/

/-- Numerals of one value have one canonical form. -/
theorem decimal_congr {v v' : String} {p p' : Decimal} {d : String} (hp : Decimal.ofString v = some p)
    (hp' : Decimal.ofString v' = some p') (h : p.toRat = p'.toRat) (hd : decimal v true = .ok d)
    (hs : decimalShape v' true = true) : decimal v' true = .ok d := by
  obtain ⟨q, hq, -, hpos, rfl⟩ := decimal_ok hd
  obtain rfl : p = q := Option.some.inj (hp.symm.trans hq)
  unfold decimal
  rw [hp']
  simp only
  have hpos' : 0 < p' := by
    have := hpos rfl
    rw [Decimal.lt_iff] at this ⊢
    rwa [← h]
  rw [if_pos ⟨hs, fun _ => hpos'⟩, Decimal.normalize_congr h.symm]

/-- The numeral of a negative number, and of no other, starts with its sign. -/
theorem nonpos_of_minus {r : List Char} {p : Decimal} (h : Decimal.ofChars ('-' :: r) = some p) : p.toRat ≤ 0 := by
  have hd : ∀ int frac, Decimal.ofDigits true int frac = some p → p.toRat ≤ 0 := by
    intro int frac h
    unfold Decimal.ofDigits at h
    simp only at h
    split at h
    · split at h
      · cases h
      · obtain rfl := Option.some.inj h
        simp only [Decimal.toRat, if_true]
        apply div_nonpos_of_nonpos_of_nonneg
        · push_cast
          linarith [(Nat.cast_nonneg (Nat.ofDigitChars 10 (int ++ frac) 0) : (0 : ℚ) ≤ _)]
        · positivity
    · cases h
  unfold Decimal.ofChars Decimal.ofUnsigned at h
  simp only at h
  split at h
  · exact hd _ _ h
  · split at h
    · exact hd _ _ h
    · cases h

/-- Without a sign a numeral is digits and points. -/
theorem chars_of_unsigned {l : List Char} {p : Decimal} (h : Decimal.ofUnsigned false l = some p) :
    ∀ c ∈ l, c.isDigit ∨ c = '.' := by
  have hsplit : l = l.takeWhile Char.isDigit ++ l.dropWhile Char.isDigit := List.takeWhile_append_dropWhile.symm
  have hdig : ∀ c ∈ l.takeWhile Char.isDigit, c.isDigit := List.all_eq_true.1 List.all_takeWhile
  unfold Decimal.ofUnsigned at h
  intro c hc
  rw [hsplit] at hc
  cases hd : l.dropWhile Char.isDigit with
  | nil =>
    rw [hd, List.append_nil] at hc
    exact .inl (hdig c hc)
  | cons x frac =>
    rw [hd] at h hc
    simp only at h
    split at h
    · rename_i hx
      rcases List.mem_append.1 hc with hc | hc
      · exact .inl (hdig c hc)
      · rcases List.mem_cons.1 hc with rfl | hc
        · exact .inr hx.1
        · exact .inl (List.all_eq_true.1 hx.2 c hc)
    · cases h

/-- A numeral that is positive needs no sign. -/
theorem decimalShape_of_pos {v : String} {p : Decimal} (hp : Decimal.ofString v = some p) (h : 0 < p.toRat)
    (hs : decimalShape v false = true) : decimalShape v true = true := by
  have hhead : v.toList.head? ≠ some '-' := by
    intro hh
    obtain ⟨r, hr⟩ : ∃ r, v.toList = '-' :: r := by
      cases hl : v.toList with
      | nil => rw [hl] at hh; cases hh
      | cons a r => rw [hl] at hh; obtain rfl := Option.some.inj hh; exact ⟨r, rfl⟩
    unfold Decimal.ofString at hp
    rw [hr] at hp
    exact absurd h (not_lt.2 (nonpos_of_minus hp))
  simp only [decimalShape, hhead, if_false, Bool.and_eq_true] at hs ⊢
  have hplus : v.toList.head? ≠ some '+' := by
    intro hh
    have := List.all_eq_true.1 hs.1.1.2 '+' (List.mem_of_mem_head? (by rw [hh]; rfl))
    exact absurd this (by decide)
  have hun : Decimal.ofUnsigned false v.toList = some p := by
    unfold Decimal.ofString Decimal.ofChars at hp
    cases hl : v.toList with
    | nil => rw [hl] at hp; exact hp
    | cons a r =>
      rw [hl] at hp hhead hplus
      simp only [List.head?_cons, ne_eq, Option.some.injEq] at hhead hplus
      split at hp
      · rename_i heq; cases heq; exact absurd rfl hhead
      · rename_i heq; cases heq; exact absurd rfl hplus
      · exact hp
  refine ⟨⟨⟨hs.1.1.1, List.all_eq_true.2 fun c hc => ?_⟩, hs.1.2⟩, hs.2⟩
  rcases chars_of_unsigned hun c hc with hd | rfl
  · simp [hd]
  · rfl

/-! ## Proposals -/

/-- What a validated proposal is: valid as it stands for its own symbol, with a time in
force that the exchange has a name for. -/
structure Terms (order : PlaceProposal) (tif : String) : Prop where
  valid : validatePlace order.symbol ["trade.place"] order = .ok order
  named : exchangeTimeInForce order.timeInForce = .ok tif
  wire : wireTimeInForce (some tif) = some order.timeInForce

theorem validatePlace_terms {s : String} {caps : List String} {o o' : PlaceProposal} (h : validatePlace s caps o = .ok o') :
    ∃ tif, Terms o' tif := by
  obtain ⟨-, ⟨rfl, hside, hpos⟩, hsym, qty, hq, price, hp, rfl⟩ := validatePlace_ok.1 h
  have hvalid : validatePlace o.symbol ["trade.place"] { o with qty := qty, price := price } =
      .ok { o with qty := qty, price := price } :=
    validatePlace_ok.2 ⟨by simp, ⟨rfl, hside, hpos⟩, hsym, qty, decimal_idem hq, price, validatePrice_idem hp qty, rfl⟩
  have htif : o.timeInForce = "GTC" ∨ o.timeInForce = "IOC" ∨ o.timeInForce = "FOK" := by
    unfold validatePrice at hp
    split at hp
    · rename_i hl
      simpa using hl.2
    · simp only [bind_eq_ok, ensure_eq_ok, pure_eq_ok] at hp
      obtain ⟨-, ⟨-, -, ht⟩, -⟩ := hp
      exact .inr (.inl ht)
  rcases htif with ht | ht | ht
  · exact ⟨"GoodTillCancel", hvalid, by rw [ht]; rfl, by rw [ht]; rfl⟩
  · exact ⟨"ImmediateOrCancel", hvalid, by rw [ht]; rfl, by rw [ht]; rfl⟩
  · exact ⟨"FillOrKill", hvalid, by rw [ht]; rfl, by rw [ht]; rfl⟩

/-- What `validateRequest` checks. -/
theorem validateRequest_ok {K : Crates} {id : String} {request : PlaceOrderRequest} :
    validateRequest K id request = .ok () ↔ ∃ tif reduceOnly canonical, wireTimeInForce request.timeInForce = some tif ∧
      request.reduceOnly = some reduceOnly ∧ canonicalRequest K id (proposalOf request tif reduceOnly) = .ok canonical ∧
      (∀ protection ∈ request.protection, request.reduceOnly = some false ∧ protection.validateShape = true) ∧
      { canonical with protection := request.protection } = request := by
  simp only [validateRequest, bind_eq_ok, okOr_eq_ok, ensure_eq_ok, Unique.exists_iff]
  constructor
  · rintro ⟨tif, h1, reduceOnly, h2, canonical, h3, h4, h5⟩
    exact ⟨tif, reduceOnly, canonical, h1, h2, h3, h4, h5⟩
  · rintro ⟨tif, reduceOnly, canonical, h1, h2, h3, h4, h5⟩
    exact ⟨tif, h1, reduceOnly, h2, canonical, h3, h4, h5⟩

section Terms

variable {K : Crates} {order : PlaceProposal} {tif id : String} (h : Terms order tif)

include h

theorem Terms.canonical (protection : Option OrderProtection) : canonicalPlacement order id protection =
    { placement order id with timeInForce := some tif, protection := protection } := by
  unfold canonicalPlacement
  rw [h.named]
  rfl

theorem Terms.request (hid : K.uuid id = true) (hl : byteLen id = 36) :
    canonicalRequest K id order = .ok (canonicalPlacement order id none) := by
  unfold canonicalRequest
  simp only [ensure_of (show (K.uuid id = true ∧ byteLen id = 36) from ⟨hid, hl⟩), ok_bind, h.valid, h.named, Except.mapError]
  rw [h.canonical]
  rfl

/-- The strict check of a recorded request. -/
theorem Terms.validateRequest {protection : Option OrderProtection} (hid : K.uuid id = true) (hl : byteLen id = 36)
    (hp : ∀ p ∈ protection, order.reduceOnly = false ∧ p.validateShape = true) :
    validateRequest K id (canonicalPlacement order id protection) = .ok () := by
  refine validateRequest_ok.2 ⟨order.timeInForce, order.reduceOnly, canonicalPlacement order id none, ?_, rfl,
    h.request hid hl, fun p hm => ?_, rfl⟩
  · rw [h.canonical]
    exact h.wire
  · obtain ⟨hr, hshape⟩ := hp p hm
    exact ⟨congrArg some hr, hshape⟩

end Terms

/-! ## Protections -/

/-- The test of `validateShape` on one leg. -/
def legShape (value : String) : Bool :=
  value ≠ "" && byteLen value ≤ 64 && value.toList.all (fun c => c.isDigit || c == '.') &&
    value.toList.head? ≠ some '.' && value.toList.getLast? ≠ some '.' &&
    match Decimal.ofString value with
    | some n => decide (0 < n)
    | none => false

theorem validateShape_eq (p : OrderProtection) : p.validateShape =
    (["LastPrice", "MarkPrice"].contains p.triggerBy && (p.takeProfit.isSome || p.stopLoss.isSome) &&
      (p.takeProfit.toList ++ p.stopLoss.toList).all legShape) := rfl

/-- A canonical positive numeral has the shape of a leg. -/
theorem legShape_of_decimal {raw d : String} (h : decimal raw true = .ok d) : legShape d = true := by
  obtain ⟨n, hn, hs, hpos, -⟩ := decimal_ok (decimal_idem h)
  have hall : ∀ c ∈ d.toList, c.isDigit ∨ c = '.' := by
    simp only [decimalShape, Bool.and_eq_true, List.all_eq_true] at hs
    intro c hc
    simpa using hs.1.1.2 c hc
  have hminus : d.toList.head? ≠ some '-' := by
    intro hh
    rcases hall '-' (List.mem_of_mem_head? (by rw [hh]; rfl)) with h | h
    · exact absurd h (by decide)
    · exact absurd h (by decide)
  simp only [decimalShape, hminus, if_false, Bool.and_eq_true] at hs
  simp only [legShape, hn, Bool.and_eq_true, decide_eq_true_eq, List.all_eq_true]
  refine ⟨⟨⟨⟨⟨by simpa using hs.1.1.1.1, by simpa using hs.1.1.1.2⟩, fun c hc => ?_⟩, by simpa using hs.1.2⟩,
    by simpa using hs.2⟩, hpos rfl⟩
  simpa using hall c hc

section Protection

variable {side : String} {take : Bool}

/-- A leg that is validated is canonical and on its side of both prices. -/
def Leg (side : String) (take : Bool) (reference : Decimal) (entry : Option Decimal) (leg : Option String) : Prop :=
  ∀ d ∈ leg, decimal d true = .ok d ∧ ∃ n, Decimal.ofString d = some n ∧ exitBeyond side take n reference = true ∧
    ∀ e ∈ entry, exitBeyond side take n e = true

theorem validateLeg_leg {reference : Decimal} {entry : Option Decimal} {leg leg' : Option String}
    (h : validateLeg side take reference entry leg = .ok leg') :
    Leg side take reference entry leg' ∧ leg'.isSome = leg.isSome := by
  unfold validateLeg at h
  cases leg with
  | none => cases h; exact ⟨(fun d hd => nomatch hd), rfl⟩
  | some raw =>
    simp only [bind_eq_ok, okOr_eq_ok, ensure_eq_ok, pure_eq_ok] at h
    obtain ⟨d, hd, n, hn, -, hx, rfl⟩ := h
    refine ⟨fun d' hd' => ?_, rfl⟩
    obtain rfl := Option.some.inj hd'
    exact ⟨decimal_idem hd, n, hn, hx⟩

theorem validateLeg_of_leg {reference : Decimal} {entry : Option Decimal} {leg : Option String}
    (h : Leg side take reference entry leg) : validateLeg side take reference entry leg = .ok leg := by
  unfold validateLeg
  cases leg with
  | none => rfl
  | some d =>
    obtain ⟨hd, n, hn, hx⟩ := h d rfl
    simp only [bind_eq_ok, okOr_eq_ok, ensure_eq_ok, pure_eq_ok]
    exact ⟨d, hd, n, hn, (), hx, rfl⟩

/-- A canonical leg is left as it is. -/
theorem validateLeg_canonical {reference : Decimal} {entry : Option Decimal} {leg leg' : Option String}
    (hc : ∀ d ∈ leg, decimal d true = .ok d) (h : validateLeg side take reference entry leg = .ok leg') : leg' = leg := by
  unfold validateLeg at h
  cases leg with
  | none => cases h; rfl
  | some raw =>
    simp only [bind_eq_ok, okOr_eq_ok, ensure_eq_ok, pure_eq_ok] at h
    obtain ⟨d, hd, -, -, -, -, rfl⟩ := h
    rw [hc raw rfl] at hd
    exact congrArg some (Except.ok.inj hd).symm

/-- What `OrderProtection.validate` checks and what it returns. -/
theorem protection_validate_ok {p p' : OrderProtection} {entry : Option String} {reference : String} :
    p.validate side entry reference = .ok p' ↔ p.validateShape = true ∧ ∃ text ref e, decimal reference true = .ok text ∧
      Decimal.ofString text = some ref ∧ optionalPrice entry = .ok e ∧ ∃ tp, validateLeg side true ref e p.takeProfit = .ok tp ∧
      ∃ sl, validateLeg side false ref e p.stopLoss = .ok sl ∧ { p with takeProfit := tp, stopLoss := sl } = p' := by
  simp only [OrderProtection.validate, bind_eq_ok, ensure_eq_ok, okOr_eq_ok, pure_eq_ok, Unique.exists_iff]
  constructor
  · rintro ⟨h1, text, h2, ref, h3, e, h4, h5⟩
    exact ⟨h1, text, ref, e, h2, h3, h4, h5⟩
  · rintro ⟨h1, text, ref, e, h2, h3, h4, h5⟩
    exact ⟨h1, text, h2, ref, h3, e, h4, h5⟩

variable {p p' : OrderProtection} {entry : Option String} {reference : String}

/-- The legs of a validated protection. -/
structure Guarded (side : String) (entry : Option String) (p : OrderProtection) : Prop where
  shape : p.validateShape = true
  take : ∀ d ∈ p.takeProfit, decimal d true = .ok d
  stop : ∀ d ∈ p.stopLoss, decimal d true = .ok d
  beyond : ∀ e, optionalPrice entry = .ok (some e) →
    Leg side true e (some e) p.takeProfit ∧ Leg side false e (some e) p.stopLoss

theorem validate_guarded (h : p.validate side entry reference = .ok p') : Guarded side entry p' := by
  obtain ⟨hs, text, ref, e, -, -, he, tp, htp, sl, hsl, rfl⟩ := protection_validate_ok.1 h
  obtain ⟨htake, hsome⟩ := validateLeg_leg htp
  obtain ⟨hstop, hsome'⟩ := validateLeg_leg hsl
  have hagain : ∀ take leg, Leg side take ref e leg → ∀ e', optionalPrice entry = .ok (some e') →
      Leg side take e' (some e') leg := by
    intro take leg hleg e' he' d hd
    obtain ⟨hcan, n, hn, -, hx⟩ := hleg d hd
    rw [he] at he'
    have hxe := hx e' (by rw [Except.ok.inj he']; rfl)
    refine ⟨hcan, n, hn, hxe, fun e'' he'' => ?_⟩
    obtain rfl := Option.some.inj he''
    exact hxe
  refine ⟨?_, fun d hd => (htake d hd).1, fun d hd => (hstop d hd).1,
    fun e' he' => ⟨hagain _ _ htake e' he', hagain _ _ hstop e' he'⟩⟩
  rw [validateShape_eq, Bool.and_eq_true, Bool.and_eq_true] at hs ⊢
  refine ⟨⟨hs.1.1, ?_⟩, ?_⟩
  · simp only [hsome, hsome']
    exact hs.1.2
  · rw [List.all_eq_true]
    intro d hd
    rcases List.mem_append.1 hd with hd | hd
    · exact legShape_of_decimal (htake d (Option.mem_toList.1 hd)).1
    · exact legShape_of_decimal (hstop d (Option.mem_toList.1 hd)).1

/-- Another check, against any price it passes, leaves a validated protection as it
is. -/
theorem Guarded.validate_eq {e : Option String} (hg : Guarded side entry p) (h : p.validate side e reference = .ok p') :
    p' = p := by
  obtain ⟨-, text, ref, e, -, -, -, tp, htp, sl, hsl, rfl⟩ := protection_validate_ok.1 h
  rw [validateLeg_canonical hg.take htp, validateLeg_canonical hg.stop hsl]

/-- Against the limit price itself it passes. -/
theorem Guarded.validate_entry {price : String} (hg : Guarded side (some price) p) (hp : decimal price true = .ok price) :
    p.validate side (some price) price = .ok p := by
  obtain ⟨e, hn, -⟩ := decimal_ok hp
  have he : optionalPrice (some price) = .ok (some e) := by
    simp only [optionalPrice, bind_eq_ok, okOr_eq_ok, pure_eq_ok]
    exact ⟨price, hp, e, hn, rfl⟩
  obtain ⟨htake, hstop⟩ := hg.beyond e he
  exact protection_validate_ok.2 ⟨hg.shape, price, e, some e, hp, hn, he, _, validateLeg_of_leg htake, _,
    validateLeg_of_leg hstop, rfl⟩

end Protection

/-! ## Responses -/

theorem quantity_ok {v : String} {d : Decimal} :
    quantity v = .ok d ↔ (∃ c, decimal v true = .ok c) ∧ Decimal.ofString v = some d := by
  unfold quantity
  cases hd : decimal v true with
  | error e => simp
  | ok c =>
    cases ho : Decimal.ofString v with
    | none => simp
    | some x => simp

/-- A quantity of the same value has the same canonical numeral. -/
theorem decimal_of_sameQuantity {a b c : String} (h : sameQuantity a b = true) (hb : decimal b true = .ok c) :
    decimal a true = .ok c := by
  obtain ⟨y, hy, -, -, -⟩ := decimal_ok hb
  have hqb : quantity b = .ok y := quantity_ok.2 ⟨⟨c, hb⟩, hy⟩
  unfold sameQuantity at h
  rw [hqb] at h
  cases hqa : quantity a with
  | error e => rw [hqa] at h; cases h
  | ok x =>
    rw [hqa] at h
    obtain ⟨⟨c', hc'⟩, hx⟩ := quantity_ok.1 hqa
    obtain ⟨-, -, hshape, -⟩ := decimal_ok hc'
    exact decimal_congr hy hx (Decimal.same_iff.1 h).symm hb hshape

/-- A price of the same value has the same canonical numeral, if it was checked to be a
number. -/
theorem decimal_of_samePrice {a b c d : String} (h : samePrice a (some b) = true) (ha : decimal a false = .ok d)
    (hb : decimal b true = .ok c) : decimal a true = .ok c := by
  obtain ⟨y, hy, -, hpos, -⟩ := decimal_ok hb
  obtain ⟨x, hx, hshape, -, -⟩ := decimal_ok ha
  unfold samePrice at h
  rw [hx, Option.bind_some, hy] at h
  have hval : x.toRat = y.toRat := Decimal.same_iff.1 h
  have hxpos : 0 < x.toRat := by
    have := hpos rfl
    rw [Decimal.lt_iff] at this
    rw [hval]
    simpa [Decimal.toRat, show (0 : Decimal) = ⟨0, 0, by decide, by decide⟩ from rfl] using this
  exact decimal_congr hy hx hval.symm hb (decimalShape_of_pos hx hxpos hshape)

/-- The price of an order that `validate_order` accepts is a number, unless it is a
market order's. -/
theorem validateOrder_price {o : Order} {s : String} (h : validateOrder o s = .ok ()) (ht : o.orderType ≠ "Market") :
    ∃ d, decimal o.price false = .ok d := by
  simp only [validateOrder, bind_eq_ok, ensure_eq_ok] at h
  obtain ⟨-, -, hrest⟩ := h
  rw [if_pos (by simp [ht])] at hrest
  obtain ⟨d, hd, -⟩ := bind_eq_ok.1 hrest
  exact ⟨d, hd⟩

/-- What `matches_request` checks. -/
theorem matchesRequest_ok {o : Order} {request : PlaceOrderRequest} :
    matchesRequest o request = .ok () ↔ validateOrder o request.symbol = .ok () ∧
      (o.orderLinkId = request.orderLinkId ∧ o.side = request.side ∧ o.orderType = request.orderType) ∧
      ∃ qty, decimal o.qty true = .ok qty ∧ decimal request.qty true = .ok qty ∧
        ∀ price ∈ request.price, (decimal o.price true).toOption = (decimal price true).toOption := by
  simp only [matchesRequest, bind_eq_ok, mapError_eq_ok, ensure_eq_ok, Unique.exists_iff, PUnit.default_eq_unit]
  constructor
  · rintro ⟨h1, h2, q, hq, q', hq', rfl, h3⟩
    exact ⟨h1, h2, q, hq, hq', h3⟩
  · rintro ⟨h1, h2, q, hq, hq', h3⟩
    exact ⟨h1, h2, q, hq, q, hq', rfl, h3⟩

/-- **The two matchers agree.** An order that is the response to a pending placement is
of the request that was recorded for it. -/
theorem matchesRequest_of_response {order : PlaceProposal} {tif id : String} {protection : Option OrderProtection}
    {p : PendingAction} {o : Order} (h : Terms order tif) (hid : p.submissionId = some id)
    (hm : matchesPlacement p order o = true) : matchesRequest o (canonicalPlacement order id protection) = .ok () := by
  obtain ⟨-, ⟨-, -, -⟩, -, qty, hq, price, hp, heq⟩ := validatePlace_ok.1 h.valid
  simp only [matchesPlacement, Bool.and_eq_true, decide_eq_true_eq] at hm
  obtain ⟨⟨⟨⟨⟨hvalid, hlink⟩, hside⟩, htype⟩, hqty⟩, hprice⟩ := hm
  have hvalid : validateOrder o order.symbol = .ok () := by
    cases hv : validateOrder o order.symbol with
    | ok u => rfl
    | error e => rw [hv] at hvalid; cases hvalid
  have hprices : ∀ v ∈ order.price, (decimal o.price true).toOption = (decimal v true).toOption := by
    intro v hv
    -- only a limit order has a price
    have hlimit : order.orderType = "Limit" ∧ ∃ c, decimal v true = .ok c := by
      unfold validatePrice at hp
      split at hp
      · rename_i hl
        simp only [bind_eq_ok, okOr_eq_ok] at hp
        obtain ⟨v', hv', c, hc, -⟩ := hp
        obtain rfl : v' = v := Option.some.inj (hv'.symm.trans hv)
        exact ⟨hl.1, c, hc⟩
      · simp only [bind_eq_ok, ensure_eq_ok] at hp
        obtain ⟨-, ⟨-, hnone, -⟩, -⟩ := hp
        rw [hnone] at hv
        cases hv
    obtain ⟨ht, c, hc⟩ := hlimit
    obtain ⟨d, hd⟩ := validateOrder_price hvalid (by rw [htype, ht]; decide)
    have hsame : samePrice o.price (some v) = true := by
      rw [ht, hv] at hprice
      simpa using hprice
    rw [decimal_of_samePrice hsame hd hc, hc]
  have hq' := decimal_of_sameQuantity hqty hq
  exact matchesRequest_ok.2 ⟨hvalid, ⟨hlink.trans hid, hside, htype⟩, qty, hq', hq, hprices⟩

/-! ## Validated actions -/

/-- The order and the protection of a placement. -/
def StrategyAction.parts : StrategyAction → Option (PlaceProposal × Option OrderProtection)
  | .placeOrder order => some (order, Option.none)
  | .placeProtectedOrder order protection => some (order, some protection)
  | _ => Option.none

/-- What `validate_action` says of a placement it returns. -/
theorem validateAction_parts {K : Crates} {r : RunRecord} {snapshot : Snapshot} {action accepted : StrategyAction}
    {order : PlaceProposal} {protection : Option OrderProtection} (h : validateAction K r action snapshot = .ok accepted)
    (hp : accepted.parts = some (order, protection)) :
    (∃ tif, Terms order tif) ∧ ∀ p ∈ protection, order.reduceOnly = false ∧ Guarded order.side order.price p := by
  unfold validateAction at h
  split at h
  · rename_i hnone
    obtain rfl := Except.ok.inj h
    rcases hnone with rfl | rfl <;> cases hp
  obtain ⟨-, -, h⟩ := bind_eq_ok.1 h
  unfold validateMutation at h
  cases action with
  | none => cases h; cases hp
  | stop => cases h; cases hp
  | cancelOrder o =>
    simp only [validateCancelOrder, bind_eq_ok, pure_eq_ok] at h
    obtain ⟨-, -, o', -, rfl⟩ := h
    cases hp
  | amendOrder o =>
    simp only [validateAmendOrder, bind_eq_ok, pure_eq_ok] at h
    obtain ⟨-, -, o', -, -, -, -, -, -, -, -, -, -, -, -, -, -, -, -, -, rfl⟩ := h
    cases hp
  | placeOrder o =>
    simp only [validatePlaceOrder, validateProposal, bind_eq_ok, mapError_eq_ok, pure_eq_ok] at h
    obtain ⟨o', ho', -, -, -, -, -, -, -, -, rfl⟩ := h
    cases hp
    exact ⟨validatePlace_terms ho', by rintro _ ⟨⟩⟩
  | placeProtectedOrder o prot =>
    simp only [validateProtectedOrder, validateProposal, bind_eq_ok, mapError_eq_ok, ensure_eq_ok, pure_eq_ok] at h
    obtain ⟨-, ⟨-, -, hr⟩, o', ho', market, -, prot', hprot, -, -, -, -, -, -, rfl⟩ := h
    cases hp
    refine ⟨validatePlace_terms ho', fun p hp => ?_⟩
    obtain rfl := Option.some.inj hp
    obtain ⟨-, -, -, qty, -, price, -, rfl⟩ := validatePlace_ok.1 ho'
    exact ⟨by simpa using hr, validate_guarded hprot⟩

/-- The request the host is called with for a pending placement. -/
theorem hostCall_request {account : Account} {record : RunRecord} {p : PendingAction} {context : SubmissionContext}
    {request : PlaceOrderRequest} {order : PlaceProposal} {protection : Option OrderProtection} {id : String}
    (hp : p.action.parts = some (order, protection)) (hid : p.submissionId = some id)
    (h : hostCall account record p = .ok (.strategyPlaceLocked context request)) :
    request = { placement order id with protection := protection } := by
  unfold hostCall at h
  obtain ⟨epoch, -, h⟩ := bind_eq_ok.1 h
  cases ha : p.action with
  | none => rw [ha] at hp; cases hp
  | stop => rw [ha] at hp; cases hp
  | cancelOrder o => rw [ha] at hp; cases hp
  | amendOrder o => rw [ha] at hp; cases hp
  | placeOrder o =>
    rw [ha] at hp h
    cases hp
    simp only [bind_eq_ok, okOr_eq_ok, pure_eq_ok, HostCall.strategyPlaceLocked.injEq] at h
    obtain ⟨id', hid', -, rfl⟩ := h
    obtain rfl : id' = id := Option.some.inj (hid'.symm.trans hid)
    rfl
  | placeProtectedOrder o prot =>
    rw [ha] at hp h
    cases hp
    simp only [bind_eq_ok, okOr_eq_ok, pure_eq_ok, HostCall.strategyPlaceLocked.injEq] at h
    obtain ⟨id', hid', -, rfl⟩ := h
    obtain rfl : id' = id := Option.some.inj (hid'.symm.trans hid)
    rfl

section Requests

variable {order : PlaceProposal} {tif id : String} (h : Terms order tif)

include h

theorem Terms.unprotected (quote : AppResult (String × String)) :
    strategyPlaceRequest (placement order id) quote = .ok (canonicalPlacement order id none) := by
  rw [h.canonical]
  simp only [strategyPlaceRequest, placement, bind_eq_ok, okOr_eq_ok]
  exact ⟨_, rfl, tif, h.named, rfl⟩

/-- The host's own check of a protection changes nothing. -/
theorem Terms.prepared {protection : Option OrderProtection} {quote : AppResult (String × String)} {q : PlaceOrderRequest}
    (hg : ∀ p ∈ protection, Guarded order.side order.price p)
    (hq : strategyPlaceRequest { placement order id with protection := protection } quote = .ok q) :
    q = canonicalPlacement order id protection := by
  rw [h.canonical]
  simp only [strategyPlaceRequest, placement, bind_eq_ok, okOr_eq_ok] at hq
  obtain ⟨text, htext, tif', htif, hq⟩ := hq
  obtain rfl := Option.some.inj htext
  obtain rfl : tif' = tif := Except.ok.inj (htif.symm.trans h.named)
  cases protection with
  | none => exact (Except.ok.inj hq).symm
  | some p =>
    simp only [bind_eq_ok, mapError_eq_ok, pure_eq_ok] at hq
    obtain ⟨-, -, market, -, p', hp', rfl⟩ := hq
    rw [(hg p rfl).validate_eq hp']
    rfl

/-- A limit order has a canonical price. -/
theorem Terms.limit_price (ht : order.orderType = "Limit") :
    ∃ price, order.price = some price ∧ decimal price true = .ok price := by
  obtain ⟨-, -, -, qty, -, price, hv, heq⟩ := validatePlace_ok.1 h.valid
  unfold validatePrice at hv
  split at hv
  · simp only [bind_eq_ok, okOr_eq_ok, pure_eq_ok] at hv
    obtain ⟨v, hv, d, hd, rfl⟩ := hv
    have hsame : order.price = some d := (congrArg PlaceProposal.price heq).symm
    exact ⟨d, hsame, decimal_idem hd⟩
  · simp only [bind_eq_ok, ensure_eq_ok] at hv
    obtain ⟨-, ⟨hmarket, -⟩, -⟩ := hv
    rw [hmarket] at ht
    exact absurd ht (by decide)

theorem Terms.canonicalProtection {protection : OrderProtection} {request : PlaceOrderRequest}
    (hreq : request = canonicalPlacement order id (some protection)) (hr : order.reduceOnly = false)
    (hg : Guarded order.side order.price protection) : canonicalProtection request protection = true := by
  subst hreq
  unfold EasiFlux.canonicalProtection canonicalPlacement placement
  simp only [hr, decide_true, Bool.true_and]
  split
  · rename_i ht
    obtain ⟨price, hprice, hcan⟩ := h.limit_price ht
    rw [hprice] at hg ⊢
    simp only [hg.validate_entry hcan]
    exact decide_eq_true rfl
  · exact hg.shape

/-- The check of a placement that is kept with an owned order. -/
theorem Terms.validateCanonicalPlacement {K : Crates} {protection : Option OrderProtection} (hid : K.uuid id = true)
    (hg : ∀ p ∈ protection, order.reduceOnly = false ∧ Guarded order.side order.price p) :
    validateCanonicalPlacement K id (canonicalPlacement order id protection) = true := by
  have hprot : protection.all (EasiFlux.canonicalProtection (canonicalPlacement order id protection)) = true := by
    cases protection with
    | none => rfl
    | some p => exact h.canonicalProtection rfl (hg p rfl).1 (hg p rfl).2
  have hwire : wireTimeInForce (canonicalPlacement order id protection).timeInForce = some order.timeInForce := by
    rw [h.canonical]
    exact h.wire
  have hplace : validatePlace (canonicalPlacement order id protection).symbol ["trade.place"]
      (proposalOf (canonicalPlacement order id protection) order.timeInForce order.reduceOnly) = .ok order := h.valid
  unfold EasiFlux.validateCanonicalPlacement
  rw [hwire, hid]
  simp only [show (canonicalPlacement order id protection).reduceOnly = some order.reduceOnly from rfl, hplace,
    Bool.true_and, Bool.and_eq_true, decide_eq_true_eq]
  exact ⟨rfl, ⟨rfl, rfl⟩, hprot⟩

end Requests

/-! ## The journal -/

section Journal

variable {K : Crates} {C : RecordCodec} {scope id : String} {m m' : JournalDir}

/-- A record that a submission began is of its request. -/
theorem SubmitStep.request {request : PlaceOrderRequest} {r : StoredSubmission} (h : SubmitStep K C scope request m m')
    (hnone : stored K C scope m.disk id = none) (hr : stored K C scope m'.disk id = some r) : r.request = request := by
  obtain ⟨hv, rfl⟩ := view_of_stored hr
  have hs : scope ≠ "" := scope_of_stored hr
  -- a record that was there before would have been the stored one
  have hold : ∀ r₀, view K C scope m (K.identityHash r.orderLinkId) = .readable r₀ → r₀.orderLinkId ≠ r.orderLinkId := by
    intro r₀ hv₀ heq
    rw [← heq] at hv₀ hnone
    rw [stored_of_view hs hv₀] at hnone
    cases hnone
  obtain ⟨hash, hk | ho⟩ := h
  · by_cases hh : hash = K.identityHash r.orderLinkId
    · subst hh
      have hle := hk.le
      rw [hv] at hle
      cases hv₀ : view K C scope m (K.identityHash r.orderLinkId) with
      | absent => rw [hk.absent hv₀] at hv; cases hv
      | broken => rw [hv₀] at hle; cases hle
      | readable r₀ =>
        rw [hv₀] at hle
        exact absurd (Advance.orderLinkId hle).symm (hold r₀ hv₀)
    · rw [hk.only.view (Ne.symm hh)] at hv
      exact absurd rfl (hold r hv)
  · by_cases hh : hash = K.identityHash r.orderLinkId
    · exact ho.record r (hh ▸ hv)
    · have hsame : view K C scope m' (K.identityHash r.orderLinkId) = view K C scope m (K.identityHash r.orderLinkId) := by
        unfold view current
        simp only [ho.other _ (fun s' h => hh (FileName.record.inj h).1.symm)]
      rw [hsame] at hv
      exact absurd rfl (hold r hv)

theorem wp_strategyPlaceLocked {request q : PlaceOrderRequest} {quote : AppResult (String × String)} {lookup : AppResult Unit}
    {nowMs : ℕ} {submit : AppResult Order} (hq : ∀ q', strategyPlaceRequest request quote = .ok q' → q' = q) :
    wp (strategyPlaceLocked K C scope request quote lookup nowMs submit) (fun _ => SubmitStep K C scope q m)
      (fun _ => SubmitStep K C scope q m) (SubmitStep K C scope q m) m := by
  have hm : SubmitStep K C scope q m m := ⟨"", .inl (Kept.refl "" m)⟩
  unfold strategyPlaceLocked
  refine wp_bind (wp_lift (fun q' hq' => ?_) (fun _ _ => hm))
  obtain rfl := hq q' hq'
  exact wp_bind (wp_lift (fun _ _ => wp_submitOnce) (fun _ _ => hm))

/-- The second part of an acknowledgement, on an order that is recorded as accepted. -/
theorem acknowledgeExpected_run {r : StoredSubmission} {o : Order} {request : PlaceOrderRequest}
    {query : AppResult (Option Order)} (hr : stored K C scope m.disk id = some r) (ho : r.outcome = .accepted o)
    (hm : matchesRequest o request = .ok ()) (hs : o.status ≠ .rejected) :
    ∃ m', acknowledgeExpected K C scope id o request r query m [] = .ok () m' [] := by
  obtain ⟨hv, rfl⟩ := view_of_stored hr
  obtain ⟨m', hack⟩ := acknowledge_run (scope_of_stored hr) hv ho
  have hacc : acceptedOrder K C scope r.orderLinkId o r query m [] = .ok o m [] := by
    unfold acceptedOrder
    rw [ho]
    rfl
  exact ⟨m', (Io.bind_of_ok hacc).trans ((Io.bind_of_ok (Io.lift_of_ok hm)).trans
    ((Io.bind_of_ok (Io.lift_of_ok (ensure_of ⟨rfl, hs⟩))).trans (Io.mapErr_of_ok hack)))⟩

theorem get_of_stored {r : StoredSubmission} (hr : stored K C scope m.disk id = some r) :
    get K C scope id m [] = .ok (some r) m [] := by
  obtain ⟨hv, rfl⟩ := view_of_stored hr
  exact get_of_view (scope_of_stored hr) hv

end Journal

/-- A run that has done nothing yet. -/
def Sample.fresh : RunRecord where
  view := ⟨1, uuid "03", uuid "02", "a.b", "a.c", authority.account, "BTC", .running, none, policy, capabilities, "\x7b\x7d",
    1000, 61000, 1, 0, "0", "", none⟩
  fingerprint := ""
  scope := ""
  state := "\x7b\x7d"
  owned := ∅
  pending := none
  lastObservedAtMs := 1000

end EasiFlux
