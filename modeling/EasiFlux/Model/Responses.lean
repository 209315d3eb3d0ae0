import EasiFlux.Model.Exchange

/-!
# What is read from a response

`classify_create_order_outcome` of `api/response.rs`, which tells whether the answer to a
create-order request is an accepted order, and the tickers of `api/mapper.rs`: a message of
the stream is merged into the ticker that is held (`merge_ticker`).

What the code does with numbers of the type `f64` is opaque (`Floats`).
-/

namespace EasiFlux

/-! ## The answer to a create-order request -/

def Json.isObject : Json → Bool
  | .object _ => true
  | _ => false

inductive CreateOrderOutcome
  | accepted (candidate : Json)
  | rejected
  | ambiguous

namespace Response

/-- The first status key that holds a string. -/
def stringStatus (candidate : Json) : Option String :=
  statusKeys.findSome? fun key => (candidate.get key).bind Json.asStr

def classifyCreateOrderOutcome (payload : Json) : CreateOrderOutcome :=
  match payload.get "code" with
  | none => .ambiguous
  | some code =>
    if code.asInt ≠ some 0 then .ambiguous
    else
      match (payload.get "data").filter Json.isObject with
      | none => .ambiguous
      | some candidate =>
        if (stringStatus candidate).any fun status => OrderStatus.fromRaw status = .rejected then .rejected
        else if ((candidate.get "order_id").bind Json.asStr).any fun orderId => !isBlank orderId then .accepted candidate
        else .ambiguous

end Response

/-! ## Tickers -/

structure Ticker where
  symbol : String
  lastPrice : String
  bidPrice : String
  askPrice : String
  volume24h : String
  change24hPct : String
  markPrice : String
  high24h : String
  low24h : String
  fundingRate : String
  fundingRateUpdatedAt : Option ℕ
  fundingRateError : Option String
  nextFundingTime : Option ℤ
  deriving DecidableEq, Repr

def tickerLastKeys : List String := ["lastPrice", "last_price", "last", "price", "lp", "p"]
def tickerBidKeys : List String := ["bidPrice", "bid_price", "bid", "bid1Price", "bp", "b1"]
def tickerAskKeys : List String := ["askPrice", "ask_price", "ask", "ask1Price", "ap", "a1"]
def tickerVolumeKeys : List String := ["volume24h", "volume_24h", "volume", "v"]
def tickerMarkKeys : List String := ["markPrice", "mark_price", "mark", "mp"]
def tickerHigh24hKeys : List String := ["high24h", "high_24h", "highPrice24h", "high_price_24h", "h"]
def tickerLow24hKeys : List String := ["low24h", "low_24h", "lowPrice24h", "low_price_24h", "l"]
def tickerFundingRateKeys : List String := ["fundingRate", "funding_rate"]
def tickerNextFundingKeys : List String :=
  ["nextFundingTime", "next_funding_time", "fundingTime", "funding_time", "nextFunding"]
def tickerPrevKeys : List String := ["prev_price_24h", "prevPrice24h", "p24"]
def tickerChangeKeys : List String :=
  ["change24hPct", "change_24h_pct", "price24hPcnt", "price_24h_pcnt", "pP", "pp"]

/-- The operations on `f64` of the ticker functions. -/
structure Floats where
  F64 : Type
  /-- `str::parse` -/
  parse : String → Option F64
  zero : F64
  hundred : F64
  tenThousand : F64
  sub : F64 → F64 → F64
  mul : F64 → F64 → F64
  div : F64 → F64 → F64
  isZero : F64 → Bool
  /-- Finite, and not above `MAX_ABS_FUNDING_RATE` in absolute value -/
  isFundingRate : F64 → Bool
  /-- `format!("{:.6}")` -/
  format : F64 → String

/-- `str::parse::<i64>` -/
def parseI64 (s : String) : Option ℤ :=
  let (negative, digits) :=
    match s.toList with
    | '-' :: digits => (true, digits)
    | '+' :: digits => (false, digits)
    | digits => (false, digits)
  if digits ≠ [] ∧ digits.all Char.isDigit then
    let n : ℤ := Nat.ofDigitChars 10 digits 0
    let n := if negative then -n else n
    if -2 ^ 63 ≤ n ∧ n < 2 ^ 63 then some n else none
  else none

namespace Mapper

variable (X : Floats)

def normalizeOpenTimeMs (value : ℤ) : ℤ :=
  if 0 < value ∧ value < 10000000000 then value * 1000 else value

/-- A number that is only a `u64` is cast. -/
def parseI64Value : Json → Option ℤ
  | .int n =>
    if -2 ^ 63 ≤ n ∧ n < 2 ^ 63 then some n
    else if 0 ≤ n ∧ n < 2 ^ 64 then some (n - 2 ^ 64)
    else none
  | .string s => parseI64 s
  | _ => none

def normalizeChange24hPcnt (raw : String) : String :=
  X.format (X.div ((X.parse raw).getD X.zero) X.tenThousand)

def computeChangeFromPrices (last prev : String) : Option String := do
  let last ← X.parse last
  let prev ← X.parse prev
  if X.isZero prev then none else some (X.format (X.mul (X.div (X.sub last prev) prev) X.hundred))

def resolveChange24hPct (value : Json) (lastPrice : String) : String :=
  match getStr value tickerChangeKeys with
  | some raw => normalizeChange24hPcnt X raw
  | none => ((getStr value tickerPrevKeys).bind (computeChangeFromPrices X lastPrice)).getD "0"

def pickTickerField (base parsed : String) (value : Json) (keys : List String) : String :=
  if (getStr value keys).isSome then parsed else base

def parseFundingRate (value : Json) : Option String := do
  let raw ← getStr value tickerFundingRateKeys
  let parsed ← X.parse raw
  if X.isFundingRate parsed then some raw else none

/-- The next funding time, as `parse_ticker` reads it. -/
def parseNextFundingTime (value : Json) : Option ℤ :=
  ((tickerNextFundingKeys.findSome? fun key => (value.get key).bind parseI64Value).or
    ((getStr value tickerNextFundingKeys).bind parseI64)).map normalizeOpenTimeMs

def parseTicker (value : Json) (symbol : String) : Ticker :=
  let lastPrice := (getStr value tickerLastKeys).getD "0"
  { symbol := (getStr value symbolKeys).getD symbol
    lastPrice := lastPrice
    bidPrice := (getStr value tickerBidKeys).getD "0"
    askPrice := (getStr value tickerAskKeys).getD "0"
    volume24h := (getStr value tickerVolumeKeys).getD "0"
    change24hPct := resolveChange24hPct X value lastPrice
    markPrice := (getStr value tickerMarkKeys).getD ""
    high24h := (getStr value tickerHigh24hKeys).getD ""
    low24h := (getStr value tickerLow24hKeys).getD ""
    fundingRate := (parseFundingRate X value).getD ""
    fundingRateUpdatedAt := none
    fundingRateError := none
    nextFundingTime := parseNextFundingTime value }

/-- `merge_ticker`; the percentage is picked by the change keys once more at its end. -/
def mergeTicker (existing : Option Ticker) (value : Json) (symbol : String) : Ticker :=
  let delta := parseTicker X value symbol
  match existing with
  | none => delta
  | some base =>
    let changePct :=
      if (getStr value tickerChangeKeys).isSome then delta.change24hPct
      else if (getStr value tickerPrevKeys).isSome then
        resolveChange24hPct X value (pickTickerField base.lastPrice delta.lastPrice value tickerLastKeys)
      else base.change24hPct
    { symbol := if (getStr value symbolKeys).isSome then delta.symbol else base.symbol
      lastPrice := pickTickerField base.lastPrice delta.lastPrice value tickerLastKeys
      bidPrice := pickTickerField base.bidPrice delta.bidPrice value tickerBidKeys
      askPrice := pickTickerField base.askPrice delta.askPrice value tickerAskKeys
      volume24h := pickTickerField base.volume24h delta.volume24h value tickerVolumeKeys
      change24hPct := pickTickerField base.change24hPct changePct value tickerChangeKeys
      markPrice := pickTickerField base.markPrice delta.markPrice value tickerMarkKeys
      high24h := pickTickerField base.high24h delta.high24h value tickerHigh24hKeys
      low24h := pickTickerField base.low24h delta.low24h value tickerLow24hKeys
      fundingRate := (parseFundingRate X value).getD base.fundingRate
      fundingRateUpdatedAt := base.fundingRateUpdatedAt
      fundingRateError := base.fundingRateError
      nextFundingTime :=
        if (getStr value tickerNextFundingKeys).isSome then delta.nextFundingTime else base.nextFundingTime }

end Mapper

end EasiFlux
