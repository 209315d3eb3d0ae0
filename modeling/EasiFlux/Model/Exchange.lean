import EasiFlux.Model.Execution

/-!
# Rows of the exchange

How an order is read from the JSON the exchange answers with. The lenient reader of
`api/mapper.rs` takes what it finds and fills in the rest; the strict one of
`plugin/workflow/production.rs` refuses a row it does not know in full. Over the
strict one, `query_exact` of `production/strategy.rs` and `query_amend_target` of
`production/management.rs` ask for one order by its identity.

The answers of the two order endpoints are arguments. `quotient` is
`rust_decimal`'s checked division, with the result in canonical form.
-/

namespace EasiFlux

open Fixed Results

/-- `serde_json::Value`. A number that is no integer is what `to_string` makes of it,
and the fields of an object are in the order of their keys. -/
inductive Json
  | null
  | bool (b : Bool)
  | int (n : ℤ)
  | float (text : String)
  | string (s : String)
  | array (items : List Json)
  | object (fields : List (String × Json))
  deriving Repr

namespace Json

mutual

/-- `==` on values -/
def beq : Json → Json → Bool
  | null, null => true
  | bool a, bool b => a == b
  | int a, int b => a == b
  | float a, float b => a == b
  | string a, string b => a == b
  | array a, array b => beqItems a b
  | object a, object b => beqFields a b
  | _, _ => false

def beqItems : List Json → List Json → Bool
  | [], [] => true
  | a :: as, b :: bs => a.beq b && beqItems as bs
  | _, _ => false

def beqFields : List (String × Json) → List (String × Json) → Bool
  | [], [] => true
  | (k, a) :: as, (l, b) :: bs => k == l && a.beq b && beqFields as bs
  | _, _ => false

end

def get (v : Json) (key : String) : Option Json :=
  match v with
  | object fields => fields.lookup key
  | _ => none

/-- The value of the first of the keys that is there. -/
def first (v : Json) (keys : List String) : Option Json := keys.findSome? v.get

def asStr : Json → Option String
  | string s => some s
  | _ => none

def asBool : Json → Option Bool
  | bool b => some b
  | _ => none

def asInt : Json → Option ℤ
  | int n => if -2 ^ 63 ≤ n ∧ n < 2 ^ 63 then some n else none
  | _ => none

/-- A string that is the canonical numeral of an `i64`. -/
def numeral : Json → Option ℤ
  | string s => s.toInt?.filter fun n => toString n = s ∧ -2 ^ 63 ≤ n ∧ n < 2 ^ 63
  | _ => none

theorem eq_of_beq_string {v : Json} {s : String} (h : v.beq (string s) = true) : v = string s := by
  cases v <;> simp_all [beq]

mutual

/-- `==` compares values field by field. -/
theorem beq_iff (a b : Json) : a.beq b = true ↔ a = b := by
  cases a with
  | array xs => cases b <;> simp [beq, beqItems_iff xs]
  | object xs => cases b <;> simp [beq, beqFields_iff xs]
  | _ => cases b <;> simp [beq]

theorem beqItems_iff (xs ys : List Json) : beqItems xs ys = true ↔ xs = ys := by
  cases xs with
  | nil => cases ys <;> simp [beqItems]
  | cons x xs => cases ys <;> simp [beqItems, beq_iff x, beqItems_iff xs]

theorem beqFields_iff (xs ys : List (String × Json)) : beqFields xs ys = true ↔ xs = ys := by
  match xs with
  | [] => cases ys <;> simp [beqFields]
  | (k, x) :: xs => cases ys <;> simp [beqFields, beq_iff x, beqFields_iff xs, Prod.ext_iff]

end

instance : DecidableEq Json := fun a b => decidable_of_iff _ (beq_iff a b)

end Json

def OrderStatus.fromRaw (value : String) : OrderStatus :=
  let lower := String.ofList (value.toList.map Char.toLower)
  if lower ∈ ["new", "created", "active", "untriggered"] then .new
  else if lower ∈ ["partiallyfilled", "partially_filled"] then .partiallyFilled
  else if lower = "filled" then .filled
  else if lower ∈ ["cancelled", "canceled"] then .cancelled
  else if lower = "rejected" then .rejected
  else .unknown

/-! ## The keys of a row -/

def orderIdKeys : List String := ["orderId", "order_id", "id"]
def symbolKeys : List String := ["symbol", "s"]
def orderTypeKeys : List String := ["orderType", "order_type", "type"]
def qtyKeys : List String := ["qty", "quantity", "size"]
def statusKeys : List String := ["status", "orderStatus", "order_status"]
def orderLinkKeys : List String := ["orderLinkId", "order_link_id"]
def filledKeys : List String := ["cumExecQty", "cum_exec_qty", "filled_qty", "filledQty"]
def averageKeys : List String := ["avgPrice", "avg_price"]
def filledValueKeys : List String := ["cumExecValue", "cum_exec_value"]
def timeInForceKeys : List String := ["timeInForce", "time_in_force"]
def positionIdxKeys : List String := ["positionIdx", "position_idx"]
def reduceOnlyKeys : List String := ["reduceOnly", "reduce_only"]

/-! ## The lenient reader -/

namespace Mapper

/-- `response::get_str`: the first of the keys that holds a string or a number. -/
def getStr (v : Json) (keys : List String) : Option String :=
  keys.findSome? fun key =>
    match v.get key with
    | some (.string s) => some s
    | some (.int n) => some (toString n)
    | some (.float text) => some text
    | _ => none

/-- `mapper::parse_order` -/
def parseOrder (v : Json) : Order where
  orderId := (getStr v orderIdKeys).getD ""
  symbol := (getStr v symbolKeys).getD ""
  side := (getStr v ["side"]).getD ""
  orderType := (getStr v orderTypeKeys).getD ""
  price := (getStr v ["price"]).getD "0"
  qty := (getStr v qtyKeys).getD "0"
  status := .fromRaw ((getStr v statusKeys).getD "")
  orderLinkId := getStr v orderLinkKeys
  filledQty := (getStr v filledKeys).getD "0"
  avgPrice := (getStr v averageKeys).getD "0"

end Mapper

/-! ## The strict reader -/

/-- The keys `production::list` looks for, in this order. -/
def listKeys : List String :=
  ["list", "items", "records", "orders", "positions", "balances", "tickers", "rows", "dataList", "orderList",
    "positionList", "order_list", "position_list", "data", "result"]

/-- `production::list` with at most `depth` envelopes around the rows. -/
def list : ℕ → Json → AppResult (List Json)
  | 0, _ => .error unavailable
  | depth + 1, v =>
    match v with
    | .array items => .ok items
    | .object _ =>
      match v.first listKeys with
      | some next => list depth next
      | none => .error unavailable
    | _ => .error unavailable

def text (v : Json) (keys : List String) : AppResult String := do
  let s ← okOr ((v.first keys).bind Json.asStr) unavailable
  ensure (s ≠ "" ∧ byteLen s ≤ 128 ∧ !s.toList.any isControl) unavailable
  pure s

def number (v : Json) (keys : List String) : AppResult String := do
  let value ← text v keys
  let _ ← (decimal value false).mapError fun _ => unavailable
  pure value

def exactNumber (v : Json) (keys : List String) : AppResult Decimal := do
  let value ← number v keys
  okOr (Decimal.ofString value) unavailable

/-- `Decimal::from_str_exact(value).map_err(|_| unavailable())` -/
def exact (value : String) : AppResult Decimal := okOr (Decimal.ofString value) unavailable

/-- The client identity of a row; an empty one is none. -/
def rowLink (v : Json) : AppResult (Option String) :=
  match v.first orderLinkKeys with
  | none | some .null => .ok none
  | some (.string s) =>
    if s = "" then .ok none
    else if boundedId s then .ok (some s)
    else .error unavailable
  | _ => .error unavailable

/-- The price of a row; that of a market order may be empty. -/
def rowPrice (v : Json) (orderType : String) : AppResult String :=
  match orderType == "Market", v.get "price" with
  | true, some (.string "") => .ok ""
  | _, _ => number v ["price"]

section Strict

variable (quotient : Decimal → Decimal → Option String)

/-- Only a fill that is known to be zero has a zero average. -/
def averageFill (v : Json) : AppResult String :=
  if averageKeys.any fun key => (v.get key).isSome then number v averageKeys
  else do
    let qty ← exactNumber v filledKeys
    if qty.same 0 then pure "0"
    else do
      let total ← exactNumber v filledValueKeys
      ensure (0 ≤ qty ∧ 0 ≤ total) unavailable
      okOr (quotient total qty) unavailable

/-- One row of `production::parse_orders`. -/
def parseRow (v : Json) : AppResult Order := do
  let status ← text v statusKeys
  let orderLinkId ← rowLink v
  let orderType ← text v orderTypeKeys
  let price ← rowPrice v orderType
  let orderId ← text v orderIdKeys
  let symbol ← text v symbolKeys
  let side ← text v ["side"]
  let qty ← number v qtyKeys
  let filledQty ← number v filledKeys
  let avgPrice ← averageFill quotient v
  pure
    { orderId := orderId, symbol := symbol, side := side, orderType := orderType, price := price, qty := qty,
      status := .fromRaw status, orderLinkId := orderLinkId, filledQty := filledQty, avgPrice := avgPrice }

end Strict

/-! ## Asking for one order -/

def aliasGroups : List (List String) :=
  [orderIdKeys, orderLinkKeys, symbolKeys, orderTypeKeys, statusKeys, qtyKeys, filledKeys, averageKeys, filledValueKeys,
    timeInForceKeys, positionIdxKeys, reduceOnlyKeys]

/-- The values a row gives for one alias group do not contradict each other. -/
def agrees (raw : Json) (aliases : List String) : Bool :=
  match aliases.filterMap raw.get with
  | [] => true
  | value :: others => others.all fun other => other.beq value

def rejectConflictingAliases (raw : Json) : AppResult Unit :=
  ensure (aliasGroups.all (agrees raw)) unavailable

/-- `management::normalized_tif` -/
def normalizedTif : String → String
  | "GTC" => "GoodTillCancel"
  | "IOC" => "ImmediateOrCancel"
  | "FOK" => "FillOrKill"
  | other => other

/-- The text of a field that may be missing, under either spelling. -/
def optionalRawText (raw : Json) (snake camel : String) : AppResult (Option String) :=
  match raw.get snake, raw.get camel with
  | some a, some b => if a.beq b then do pure (some (← okOr a.asStr unavailable)) else .error unavailable
  | some a, none | none, some a => do pure (some (← okOr a.asStr unavailable))
  | none, none => .ok none

/-- One leg of `strict_protection_raw`. A leg that was not asked for may be missing,
empty, or hold the exchange's sentinels. -/
def strictLeg (raw : Json) (expected trigger : Option String) (price triggerBy : String × String) : AppResult Unit := do
  let rawPrice ← optionalRawText raw price.1 price.2
  let rawTrigger ← optionalRawText raw triggerBy.1 triggerBy.2
  match expected with
  | some leg => do
    let observed ← okOr rawPrice unavailable
    ensure (samePrice observed (some leg) ∧ rawTrigger = trigger) unavailable
  | none => ensure ((∀ v ∈ rawPrice, v = "" ∨ ∃ d ∈ Decimal.ofString v, d.same 0) ∧
      ∀ v ∈ rawTrigger, v = "" ∨ v = "UNKNOWN") unavailable

def strictProtectionRaw (raw : Json) (request : PlaceOrderRequest) : AppResult Unit := do
  ensure (request.protection.all OrderProtection.validateShape) unavailable
  let trigger := request.protection.map (·.triggerBy)
  strictLeg raw (request.protection.bind (·.takeProfit)) trigger ("take_profit", "takeProfit")
    ("tp_trigger_by", "tpTriggerBy")
  strictLeg raw (request.protection.bind (·.stopLoss)) trigger ("stop_loss", "stopLoss") ("sl_trigger_by", "slTriggerBy")

/-- The numbers of an order make sense. -/
def soundNumbers (order : Order) : AppResult Unit := do
  let qty ← exact order.qty
  ensure (0 ≤ qty) unavailable
  let filled ← exact order.filledQty
  ensure (0 ≤ filled) unavailable
  let average ← exact order.avgPrice
  ensure (0 ≤ average) unavailable
  if ¬ (order.orderType = "Market" ∧ order.price = "") then
    let price ← exact order.price
    ensure (0 ≤ price) unavailable
  ensure (0 < qty ∧ filled ≤ qty) unavailable

/-- What the row of a placement says of it beside the order itself. -/
def sameTerms (raw : Json) (request : PlaceOrderRequest) : AppResult Unit := do
  let tif ← text raw timeInForceKeys
  let idx ← okOr (raw.first positionIdxKeys) unavailable
  let idx ← okOr (idx.asInt <|> idx.numeral) unavailable
  let reduce ← okOr ((raw.first reduceOnlyKeys).bind Json.asBool) unavailable
  ensure (request.timeInForce = some (normalizedTif tif) ∧ request.positionIdx = idx ∧ request.reduceOnly = some reduce)
    unavailable

/-- A row is of this placement. -/
def exactPlacement (raw : Json) (order : Order) (request : PlaceOrderRequest) : AppResult Unit := do
  matchesRequest order request
  if request.protection.isSome then strictProtectionRaw raw request
  sameTerms raw request

/-- What the two order endpoints answer. -/
structure OrderAnswers where
  openOrders : AppResult Json
  orders : AppResult Json

section Query

variable (quotient : Decimal → Decimal → Option String) (symbolValue : String)

/-- The checks of `query_exact` on a row. -/
def exactOrder (submission exchange : Option String) (request : Option PlaceOrderRequest) (raw : Json) : AppResult Order := do
  rejectConflictingAliases raw
  let order ← parseRow quotient raw
  (validateOrder order symbolValue).mapError fun _ => unavailable
  ensure ((∀ id ∈ submission, order.orderLinkId = some id) ∧ ∀ id ∈ exchange, order.orderId = id) unavailable
  ensure (∀ r ∈ request, r.protection.isSome → r.orderType = "Market" → ((raw.get "price").bind Json.asStr).isSome)
    unavailable
  soundNumbers order
  match request with
  | some r => exactPlacement raw order r
  | none => pure ()
  pure order

/-- The only row of an answer, if there is one. -/
def onlyRow (answer : AppResult Json) : AppResult (Option Json) := do
  let payload ← answer.mapError fun _ => unavailable
  let items ← list 4 payload
  match items with
  | [] => pure none
  | [raw] => pure (some raw)
  | _ => .error unavailable

/-- The two endpoints are asked in turn, the second one when the first has no row. -/
def findRow {α : Type} (check : Json → AppResult α) (answers : OrderAnswers) : AppResult (Option α) := do
  match ← onlyRow answers.openOrders with
  | some raw => do pure (some (← check raw))
  | none =>
    match ← onlyRow answers.orders with
    | some raw => do pure (some (← check raw))
    | none => pure none

def queryExact (submission exchange : Option String) (request : Option PlaceOrderRequest) (answers : OrderAnswers) :
    AppResult (Option Order) :=
  findRow (exactOrder quotient symbolValue submission exchange request) answers

end Query

/-! ## The target of an amendment -/

def strictText (raw : Json) (aliases : List String) : AppResult String := do
  ensure (agrees raw aliases) unavailable
  let s ← okOr ((aliases.filterMap raw.get).getLast?.bind Json.asStr) unavailable
  ensure (s ≠ "" ∧ byteLen s ≤ 128 ∧ !s.toList.any isControl) unavailable
  pure s

def strictPositionIdx (raw : Json) : AppResult ℤ := do
  ensure (agrees raw ["position_idx", "positionIdx"]) unavailable
  let idx ← okOr (raw.first ["position_idx", "positionIdx"]) unavailable
  let n ← okOr (idx.asInt <|> idx.numeral) unavailable
  ensure (-2 ^ 31 ≤ n ∧ n < 2 ^ 31) unavailable
  pure n

def strictReduceOnly (raw : Json) : AppResult Bool := do
  ensure (agrees raw ["reduce_only", "reduceOnly"]) unavailable
  okOr ((raw.first ["reduce_only", "reduceOnly"]).bind Json.asBool) unavailable

/-- The row of an order that is amended says it is the order placed. -/
def sameTarget (raw : Json) (request : AmendProposal) (original : PlaceOrderRequest) (client : String) (order : Order) :
    AppResult Unit := do
  ensure (order.orderId = request.orderId ∧ order.orderLinkId = some client ∧ order.symbol = original.symbol ∧
    order.side = original.side ∧ order.orderType = "Limit" ∧ order.status ≠ .unknown ∧ order.status ≠ .rejected) unavailable
  let orderId ← strictText raw ["order_id", "orderId", "id"]
  let link ← strictText raw ["order_link_id", "orderLinkId"]
  let symbol ← strictText raw ["symbol", "s"]
  let side ← strictText raw ["side"]
  let orderType ← strictText raw ["order_type", "orderType", "type"]
  let tif ← strictText raw ["time_in_force", "timeInForce"]
  let originalTif ← okOr original.timeInForce unavailable
  let idx ← strictPositionIdx raw
  let reduce ← strictReduceOnly raw
  let originalReduce ← okOr original.reduceOnly unavailable
  let stop ← optionalRawText raw "stop_order_type" "stopOrderType"
  ensure (orderId = request.orderId ∧ link = client ∧ symbol = original.symbol ∧ side = original.side ∧
    orderType = "Limit" ∧ normalizedTif tif = originalTif ∧ idx = original.positionIdx ∧ reduce = originalReduce ∧
    ∀ v ∈ stop, v = "" ∨ v = "UNKNOWN") unavailable

section Amend

variable (quotient : Decimal → Decimal → Option String) (request : AmendProposal) (original : PlaceOrderRequest)

/-- The checks of `query_amend_target` on a row. -/
def amendRow (client : String) (raw : Json) : AppResult Order := do
  rejectConflictingAliases raw
  let order ← parseRow quotient raw
  sameTarget raw request original client order
  strictProtectionRaw raw original
  let qty ← exact order.qty
  let filled ← exact order.filledQty
  let price ← exact order.price
  ensure (0 < qty ∧ 0 < price ∧ 0 ≤ filled ∧ filled ≤ qty) unavailable
  pure order

def queryAmendTarget (answers : OrderAnswers) : AppResult Order := do
  ensure (request.symbol = original.symbol ∧ original.orderType = "Limit" ∧ validateAmendEntry original request.price)
    unavailable
  let client ← okOr original.orderLinkId unavailable
  let found ← findRow (amendRow quotient request original client) answers
  okOr found unavailable

/-- `management::reconcile_amend`: the order, once it has the new price and quantity. -/
def reconcileAmend (answers : OrderAnswers) : AppResult (Option Order) := do
  let found ← queryAmendTarget quotient request original answers
  pure (if samePrice found.price (some request.price) ∧ samePrice found.qty (some request.qty) then some found else none)

end Amend

end EasiFlux
