import EasiFlux.Model.Responses
import EasiFlux.Model.TradingDay

/-!
# Daily profit

`build_snapshot` of `services/daily_pnl.rs`: the closed positions of a trading day are listed,
each is taken once, and the profits of those closed within the day are added up. The rows are
what `extract_list` of `api/response.rs` finds in the answer.

The reading of a numeral and the four decimals it is printed with are `rust_decimal`'s
(`DecimalText`).
-/

namespace EasiFlux

open Fixed

/-! ## The rows of an answer -/

namespace Response

def rowKeys : List String :=
  ["list", "items", "records", "orders", "positions", "balances", "tickers", "kline", "klines", "fills", "rows", "result",
    "dataList", "orderList", "positionList", "order_list", "position_list"]

def extractData (payload : Json) : Json := (payload.get "data").getD payload

def asArray : Json → Option (List Json)
  | .array items => some items
  | _ => none

def isEntityObject (v : Json) : Bool :=
  let has := fun key => (v.get key).isSome
  has "orderId" || has "order_id" || has "orderLinkId" || has "order_link_id" ||
    (has "symbol" && (has "side" || has "size")) || (has "symbol" && (has "position_idx" || has "positionIdx"))

mutual

/-- The array with the most objects, and their number; the first of several. -/
def collectObjectArrays (value : Json) (best : Option (List Json × ℕ)) : Option (List Json × ℕ) :=
  match value with
  | .array arr =>
    let objectCount := arr.countP Json.isObject
    if objectCount = 0 then best
    else if best.all fun b => b.2 < objectCount then some (arr, objectCount)
    else best
  | .object map => collectFields map best
  | _ => best

def collectFields (map : List (String × Json)) (best : Option (List Json × ℕ)) : Option (List Json × ℕ) :=
  match map with
  | [] => best
  | (key, child) :: rest =>
    if key ∈ ["symbol", "interval", "coin", "cursor", "total"] then collectFields rest best
    else collectFields rest (collectObjectArrays child best)

end

def findBestObjectArray (value : Json) : Option (List Json) := (collectObjectArrays value none).map Prod.fst

def extractList (payload : Json) : List Json :=
  let data := extractData payload
  match data with
  | .array arr => arr
  | .object _ =>
    match rowKeys.findSome? fun key => (data.get key).bind asArray with
    | some arr => arr
    | none =>
      match findBestObjectArray data with
      | some items => items
      | none => if isEntityObject data then [data] else []
  | _ => []

end Response

/-! ## The time a position was closed -/

def normalizeEpochMs (value : ℕ) : Option ℕ :=
  if 10 ^ 12 ≤ value then some value
  else if 10 ^ 9 ≤ value then some (value * 1000)
  else none

def normalizeEpochMsI64 (value : ℤ) : Option ℤ :=
  if value ≤ 0 then none else (normalizeEpochMs value.toNat).map asI64

namespace DailyPnl

def closedTimeKeys : List String := ["closedTime", "closed_time", "updatedTime", "updated_time", "time", "timestamp"]
def closedTimeNumberKeys : List String := ["closedTime", "closed_time", "time"]
def idKeys : List String := ["id", "closedPnlId", "closed_pnl_id", "orderId", "order_id"]
def sizeKeys : List String := ["closedSize", "closed_size", "qty", "size"]
def keyPnlKeys : List String := ["closedPnl", "closed_pnl", "pnl", "realisedPnl", "realised_pnl"]
def pnlKeys : List String :=
  ["closedPnl", "closed_pnl", "realisedPnl", "realised_pnl", "realizedPnl", "realized_pnl", "pnl"]

def closedTimeMs (row : Json) : ℤ :=
  let raw := (((Mapper.getStr row closedTimeKeys).bind parseI64).or
    ((row.first closedTimeNumberKeys).bind Json.asInt)).getD 0
  (normalizeEpochMsI64 raw).getD raw

/-- What tells that a row is the same as an earlier one. -/
def recordKey (row : Json) : String :=
  match Mapper.getStr row idKeys with
  | some id => id
  | none =>
    let symbol := (Mapper.getStr row symbolKeys).getD ""
    let side := (Mapper.getStr row ["side"]).getD ""
    let closedTime := closedTimeMs row
    let size := (Mapper.getStr row sizeKeys).getD ""
    let pnl := (Mapper.getStr row keyPnlKeys).getD ""
    symbol ++ ":" ++ side ++ ":" ++ toString closedTime ++ ":" ++ size ++ ":" ++ pnl

def pnlRaw (row : Json) : String := (Mapper.getStr row pnlKeys).getD "0"

end DailyPnl

/-! ## The snapshot -/

/-- `rust_decimal` as the profit is read and printed with it. -/
structure DecimalText where
  /-- `Decimal::from_str` -/
  fromStr : String → Option Decimal
  /-- A numeral that is a decimal is read as its value. -/
  fromStr_exact : ∀ s d, Decimal.ofString s = some d → ∃ e, fromStr s = some e ∧ e.toRat = d.toRat
  /-- `format!("{:.4}", d)` -/
  fixed4 : Decimal → String
  /-- It shows the value, not the number of trailing zeros. -/
  fixed4_congr : ∀ d e, d.toRat = e.toRat → fixed4 d = fixed4 e

structure DailyPnlSnapshot where
  value : String
  serverTime : ℕ
  updatedAt : ℕ
  recordCount : ℕ
  dayStart : ℤ
  dayEnd : ℤ
  timezone : String
  deriving DecidableEq, Repr

namespace DailyPnl

/-- What the loop carries. -/
structure Tally where
  seen : List String
  total : Decimal

variable (K : DecimalText)

/-- One turn of the loop; nothing when `+=` overflows. -/
def addRow (dayStart dayEnd : ℤ) (t : Tally) (row : Json) : Option Tally :=
  let key := recordKey row
  if key ∈ t.seen then some t
  else
    let closedTime := closedTimeMs row
    if closedTime < dayStart ∨ dayEnd ≤ closedTime then some { t with seen := key :: t.seen }
    else (t.total.addRounded ((K.fromStr (pnlRaw row)).getD 0)).map fun total => ⟨key :: t.seen, total⟩

def buildSnapshot (payload : Json) (serverTime : ℕ) (dayStart dayEnd : ℤ) (timezone : String) :
    Option DailyPnlSnapshot := do
  let rows := Response.extractList payload
  let t ← rows.foldlM (addRow K dayStart dayEnd) ⟨[], 0⟩
  pure
    { value := K.fixed4 t.total
      serverTime := serverTime
      updatedAt := serverTime
      recordCount := t.seen.length % 2 ^ 32
      dayStart := dayStart
      dayEnd := dayEnd
      timezone := timezone }

end DailyPnl

end EasiFlux
