import EasiFlux.Lib.Results
import EasiFlux.Model.Trading

/-!
# The workflow contract

`plugin/workflow/contract.rs` and `validate_order` of `plugin/workflow/host.rs`:
the checks on identifiers, symbols and decimal strings, and on a plugin's
proposal, that the journal's recovery paths and the strategies share.

* `decimal` returns a canonical numeral: checking it again returns it unchanged
  (`decimal_idem`).
* `WorkflowOutput.validate` returns a proposal it accepts as it is
  (`validatePlace_idem`).
-/

namespace EasiFlux

open Fixed Results

/-- `workflow::error` -/
def workflowError (code : String) : AppError :=
  .plugin code "插件账户工作流未完成，请重新检查授权和账户状态" none

/-- `production::unavailable` -/
def unavailable : AppError := workflowError "plugin_workflow_data_unavailable"

/-- The number a canonical `u64` numeral stands for. -/
def counter (value : String) : AppResult ℕ :=
  let n := Nat.ofDigitChars 10 value.toList 0
  if n < 2 ^ 64 ∧ Nat.toDigits 10 n = value.toList then .ok n
  else .error (workflowError "plugin_workflow_invalid_request")

def symbol (value : String) : AppResult Unit :=
  if 1 ≤ byteLen value ∧ byteLen value ≤ 32 ∧ value.toList.all (fun c => c.isUpper || c.isDigit) then
    .ok ()
  else .error (workflowError "plugin_workflow_invalid_request")

/-- The checks of `decimal` on the text, before the value is compared. -/
def decimalShape (value : String) (positive : Bool) : Bool :=
  let unsigned := if value.toList.head? = some '-' then value.toList.tail else value.toList
  value ≠ "" && byteLen value ≤ 64 &&
    value.toList.all (fun c => c.isDigit || c == '.' || (!positive && c == '-')) &&
    unsigned.head? ≠ some '.' && unsigned.getLast? ≠ some '.'

def decimal (value : String) (positive : Bool) : AppResult String :=
  match Decimal.ofString value with
  | some parsed =>
    if decimalShape value positive ∧ (positive → 0 < parsed) then .ok parsed.normalize.toString
    else .error (workflowError "plugin_workflow_invalid_output")
  | none => .error (workflowError "plugin_workflow_invalid_output")

def boundedId (value : String) : Bool :=
  !isBlank value && byteLen value ≤ 128 && !value.toList.any isControl

structure Account where
  accountId : String
  sessionEpoch : String
  environment : String
  deriving DecidableEq, Repr

structure PlaceProposal where
  symbol : String
  side : String
  orderType : String
  qty : String
  price : Option String
  timeInForce : String
  positionIdx : ℤ
  reduceOnly : Bool
  deriving DecidableEq, Repr

structure CancelProposal where
  symbol : String
  orderId : String
  deriving DecidableEq, Repr

inductive WorkflowOutput
  | display (text : String)
  | placeOrder (order : PlaceProposal)
  | cancelOrder (order : CancelProposal)
  deriving DecidableEq, Repr

/-- The price `WorkflowOutput::validate` leaves in an order. -/
def validatePrice (order : PlaceProposal) : AppResult (Option String) :=
  if order.orderType = "Limit" ∧ order.timeInForce ∈ ["GTC", "IOC", "FOK"] then do
    let price ← okOr order.price (workflowError "plugin_workflow_invalid_output")
    let price ← decimal price true
    pure (some price)
  else do
    ensure (order.orderType = "Market" ∧ order.price = none ∧ order.timeInForce = "IOC")
      (workflowError "plugin_workflow_invalid_output")
    pure none

/-- The `PlaceOrder` arm of `WorkflowOutput::validate`. -/
def validatePlace (expectedSymbol : String) (capabilities : List String) (order : PlaceProposal) :
    AppResult PlaceProposal := do
  ensure ("trade.place" ∈ capabilities) (workflowError "plugin_workflow_denied")
  ensure (order.symbol = expectedSymbol ∧ order.side ∈ ["Buy", "Sell"] ∧
      order.positionIdx = (if decide (order.side = "Buy") ≠ order.reduceOnly then 1 else 2))
    (workflowError "plugin_workflow_invalid_output")
  symbol order.symbol
  let qty ← decimal order.qty true
  let price ← validatePrice order
  pure { order with qty := qty, price := price }

/-- The `CancelOrder` arm; `orders` are the items of the order section. -/
def validateCancel (expectedSymbol : String) (capabilities : List String) (orders : Option (List Order))
    (order : CancelProposal) : AppResult CancelProposal := do
  ensure ("trade.cancel" ∈ capabilities ∧ "orders.read" ∈ capabilities)
    (workflowError "plugin_workflow_denied")
  ensure (order.symbol = expectedSymbol ∧ boundedId order.orderId ∧
      (orders.getD []).any (fun v => v.symbol = expectedSymbol ∧ v.orderId = order.orderId ∧
        (v.status = .new ∨ v.status = .partiallyFilled)))
    (workflowError "plugin_workflow_invalid_output")
  pure order

def WorkflowOutput.validate (output : WorkflowOutput) (expectedSymbol : String)
    (capabilities : List String) (orders : Option (List Order)) : AppResult WorkflowOutput :=
  match output with
  | .display text => do
    ensure (byteLen text ≤ 2000) (workflowError "plugin_workflow_invalid_output")
    pure output
  | .placeOrder order => (validatePlace expectedSymbol capabilities order).map .placeOrder
  | .cancelOrder order => (validateCancel expectedSymbol capabilities orders order).map .cancelOrder

/-- `host::validate_order` -/
def validateOrder (o : Order) (expectedSymbol : String) : AppResult Unit := do
  ensure (boundedId o.orderId ∧ o.symbol = expectedSymbol ∧ o.side ∈ ["Buy", "Sell"] ∧
      o.orderType ∈ ["Market", "Limit"] ∧ o.orderLinkId.all boundedId) unavailable
  -- a market order may come back without a price
  if ¬ (o.orderType = "Market" ∧ o.price = "") then
    let _ ← decimal o.price false
  let _ ← decimal o.qty false
  let _ ← decimal o.filledQty false
  let _ ← decimal o.avgPrice false

/-! ## Canonical numerals -/

theorem decimal_ok {v d : String} {positive : Bool} (h : decimal v positive = .ok d) :
    ∃ p, Decimal.ofString v = some p ∧ decimalShape v positive = true ∧ (positive = true → 0 < p) ∧
      d = p.normalize.toString := by
  unfold decimal at h
  cases hp : Decimal.ofString v with
  | none => rw [hp] at h; simp at h
  | some p =>
    rw [hp] at h
    simp only at h
    split at h
    · rename_i hc; exact ⟨p, rfl, hc.1, hc.2, (Except.ok.inj h).symm⟩
    · simp at h

theorem decimalShape_toString {d : Decimal} (h : 0 ≤ d) : decimalShape d.toString true = true := by
  have hl : d.toString.toList = d.toChars := String.toList_ofList
  obtain ⟨a, ha, had⟩ := Decimal.toChars_head h
  obtain ⟨z, hz, hzd⟩ := Decimal.toChars_last h
  have hmin : a ≠ '-' := by rintro rfl; exact absurd had (by decide)
  have hdot : ∀ c : Char, c.isDigit → c ≠ '.' := by rintro _ hc rfl; exact absurd hc (by decide)
  have hne : d.toString ≠ "" := by
    intro h0; rw [h0] at hl; rw [← hl] at ha; simp at ha
  unfold decimalShape byteLen
  rw [hl, ha]
  simp only [Option.some.injEq, hmin, if_false, ha, hz, hne, hdot _ had, hdot _ hzd, ne_eq,
    not_false_eq_true, decide_true, Bool.and_true, Bool.true_and, Bool.not_true, Bool.false_and,
    Bool.or_false, Bool.and_eq_true, decide_eq_true_eq, List.all_eq_true, Bool.or_eq_true, beq_iff_eq]
  exact ⟨(Decimal.toString_utf8ByteSize h).trans (by decide), Decimal.toChars_isDigit h⟩

/-- **A canonical numeral is its own canonical numeral.** -/
theorem decimal_idem {v d : String} (h : decimal v true = .ok d) : decimal d true = .ok d := by
  obtain ⟨p, -, -, hpos, rfl⟩ := decimal_ok h
  have hp : 0 < p.normalize := by
    have := hpos rfl
    rw [Decimal.lt_iff] at this ⊢
    rwa [Decimal.toRat_normalize]
  have h0 : 0 ≤ p.normalize := by rw [Decimal.le_iff]; rw [Decimal.lt_iff] at hp; exact hp.le
  unfold decimal
  rw [Decimal.ofString_toString]
  simp only
  rw [if_pos ⟨decimalShape_toString h0, fun _ => hp⟩, Decimal.normalize_normalize]

/-- What `validatePlace` checked and what it changed. -/
theorem validatePlace_ok {s : String} {caps : List String} {o o' : PlaceProposal} :
    validatePlace s caps o = .ok o' ↔
    "trade.place" ∈ caps ∧ (o.symbol = s ∧ o.side ∈ ["Buy", "Sell"] ∧
      o.positionIdx = (if decide (o.side = "Buy") ≠ o.reduceOnly then 1 else 2)) ∧
      symbol o.symbol = .ok () ∧ ∃ qty, decimal o.qty true = .ok qty ∧
        ∃ price, validatePrice o = .ok price ∧ { o with qty := qty, price := price } = o' := by
  simp only [validatePlace, bind_eq_ok, ensure_eq_ok, pure_eq_ok, Unique.exists_iff,
    PUnit.default_eq_unit]

theorem validatePrice_idem {o : PlaceProposal} {price : Option String} (h : validatePrice o = .ok price)
    (qty : String) : validatePrice { o with qty := qty, price := price } = .ok price := by
  unfold validatePrice at h ⊢
  split at h
  · rename_i hl
    rw [if_pos hl]
    simp only [bind_eq_ok, okOr_eq_ok, pure_eq_ok] at h ⊢
    obtain ⟨p, -, d, hd, rfl⟩ := h
    exact ⟨d, rfl, d, decimal_idem hd, rfl⟩
  · rename_i hl
    rw [if_neg hl]
    simp only [bind_eq_ok, ensure_eq_ok, pure_eq_ok] at h ⊢
    obtain ⟨u, ⟨ho, -, ht⟩, rfl⟩ := h
    exact ⟨u, ⟨ho, rfl, ht⟩, rfl⟩

/-- **A validated proposal is valid as it stands.** -/
theorem validatePlace_idem {s : String} {caps : List String} {o o' : PlaceProposal}
    (h : validatePlace s caps o = .ok o') : validatePlace s caps o' = .ok o' := by
  obtain ⟨hc, hb, hs, qty, hq, price, hp, rfl⟩ := validatePlace_ok.1 h
  exact validatePlace_ok.2 ⟨hc, hb, hs, qty, decimal_idem hq, price, validatePrice_idem hp qty, rfl⟩

end EasiFlux
