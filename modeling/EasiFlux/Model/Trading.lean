import EasiFlux.Lib.Decimal

/-!
# Orders, requests and errors

The data of `models/trading.rs`, `models/order_submission.rs` and `error.rs`
that the order journal and the strategy supervisor pass around, with the
predicates on errors that decide whether an order may have been accepted.

`Crates` collects what the code calls outside the repository. Only what a
definition reads from a crate is a field.
-/

namespace EasiFlux

open Fixed

/-- What the code calls outside the repository. -/
structure Crates where
  /-- `uuid::Uuid::parse_str(value).is_ok()` -/
  uuid : String → Bool
  /-- `serde_json::from_str::<Value>(value).is_ok_and(|v| v.is_object())` -/
  jsonObject : String → Bool
  /-- `rust_decimal::Decimal::checked_add` -/
  checkedAdd : Decimal → Decimal → Option Decimal
  /-- `value.parse::<rust_decimal::Decimal>().ok() == Some(Decimal::ZERO)` -/
  parsesToZero : String → Bool
  /-- `hex::encode(Sha256::digest(id.as_bytes()))` -/
  identityHash : String → String

/-- A part of what the crates do, enough to run the model: hyphenated uuids, the
empty JSON object, decimal numerals, and the digest of `"a"`. -/
def Crates.sample : Crates where
  uuid value := value.length = 36 && (value.toList.zipIdx.all fun (c, i) =>
    if i ∈ [8, 13, 18, 23] then c == '-' else c.isDigit || ('a' ≤ c && c ≤ 'f'))
  jsonObject value := value == "\x7b\x7d"
  checkedAdd := Decimal.addRounded
  parsesToZero value := match Decimal.ofString value with
    | some d => d.same 0
    | none => false
  identityHash id :=
    if id = "a" then "ca978112ca1bbdcafac231b39a23dc4da786eff8147c4e72b9807785afee48bb" else ""

inductive AuthFailureKind
  | sessionExpired
  | missingCredential
  | credentialStorage
  | signingConfiguration
  | timestamp
  | signature
  | accessDenied
  | rateLimited
  | other
  deriving DecidableEq, Repr

inductive TradingFailureKind
  | rejected
  deriving DecidableEq, Repr

inductive AppError
  | auth (message : String)
  | authFailure (kind : AuthFailureKind)
  | connection (message : String)
  | trading (message : String)
  | tradingFailure (kind : TradingFailureKind)
  | risk (message : String)
  | config (message : String)
  | storage (message : String)
  | notConnected
  | internal (message : String)
  | notified (code message notificationId : String) (cause : Option AuthFailureKind)
  | observed (message : String)
  | orderSubmissionUnknown (orderLinkId : String)
  | orderSubmissionBlocked (orderLinkId : String)
  | orderSubmissionRejected (message : String)
  | plugin (code message : String) (diagnostic : Option String)
  deriving DecidableEq, Repr

abbrev AppResult := Except AppError

namespace AppError

def userMessage : AppError → String
  | auth m => "认证失败: " ++ m
  | authFailure _ => "认证失败"
  | connection m => "连接错误: " ++ m
  | trading m => "交易错误: " ++ m
  | tradingFailure .rejected => "交易错误: 订单请求被交易端拒绝"
  | risk m => "风控拒绝: " ++ m
  | config m => "配置错误: " ++ m
  | storage m => "存储错误: " ++ m
  | notConnected => "未连接"
  | internal m => "内部错误: " ++ m
  | notified _ m _ _ => m
  | observed m => m
  | orderSubmissionUnknown _ => "订单提交结果待确认，请查询原订单，勿重复提交"
  | orderSubmissionBlocked _ => "存在待确认订单，请先查询原订单结果"
  | orderSubmissionRejected m => m
  | plugin _ m _ => m

/-- `services::trading::is_confirmed_submission_rejection` -/
def isConfirmedSubmissionRejection : AppError → Bool
  | tradingFailure .rejected => true
  | _ => false

/-- `services::trading::is_certain_submission_failure` -/
def isCertainSubmissionFailure (e : AppError) : Bool :=
  e.isConfirmedSubmissionRejection ||
    match e with
    | authFailure .sessionExpired | authFailure .timestamp | authFailure .signature
    | authFailure .accessDenied | authFailure .rateLimited => true
    | notified _ _ _ (some .sessionExpired) => true
    | _ => false

/-- `services::order_submission::definitely_not_accepted` -/
def definitelyNotAccepted (e : AppError) : Bool :=
  e.isCertainSubmissionFailure ||
    match e with
    | risk _ | auth _ | notConnected | config _ | orderSubmissionRejected _ => true
    | notified code _ _ _ => code == "RISK_ORDER_BLOCKED" || code == "ORDER_REJECTED"
    | _ => false

def isNotified : AppError → Bool
  | notified .. => true
  | _ => false

end AppError

inductive OrderStatus
  | new
  | partiallyFilled
  | filled
  | cancelled
  | rejected
  | unknown
  deriving DecidableEq, Repr

structure Order where
  orderId : String
  symbol : String
  side : String
  orderType : String
  price : String
  qty : String
  status : OrderStatus
  orderLinkId : Option String
  filledQty : String
  avgPrice : String
  deriving DecidableEq, Repr

structure OrderProtection where
  takeProfit : Option String
  stopLoss : Option String
  triggerBy : String
  deriving DecidableEq, Repr

structure PlaceOrderRequest where
  symbol : String
  side : String
  orderType : String
  qty : String
  positionIdx : ℤ
  price : Option String
  timeInForce : Option String
  orderLinkId : Option String
  reduceOnly : Option Bool
  protection : Option OrderProtection
  deriving DecidableEq, Repr

structure OrderAcknowledgement where
  orderId : String
  orderLinkId : Option String
  deriving DecidableEq, Repr

inductive SubmissionOutcome
  | pending
  | accepted (order : Order)
  | rejected
  deriving DecidableEq, Repr

structure StoredSubmission where
  schemaVersion : ℕ
  scope : String
  orderLinkId : String
  request : PlaceOrderRequest
  createdAtMs : ℕ
  outcome : SubmissionOutcome
  acknowledged : Bool
  deriving DecidableEq, Repr

structure PendingOrderSubmission where
  orderLinkId : String
  symbol : String
  side : String
  orderType : String
  qty : String
  price : Option String
  reduceOnly : Option Bool
  createdAtMs : ℕ
  deriving DecidableEq, Repr

def PendingOrderSubmission.ofStored (record : StoredSubmission) : PendingOrderSubmission where
  orderLinkId := record.orderLinkId
  symbol := record.request.symbol
  side := record.request.side
  orderType := record.request.orderType
  qty := record.request.qty
  price := record.request.price
  reduceOnly := record.request.reduceOnly
  createdAtMs := record.createdAtMs

/-- `str::is_empty` and the other string tests are on bytes. -/
def byteLen (s : String) : ℕ := s.utf8ByteSize

/-- One of the characters `char::is_whitespace` accepts. -/
def isWhitespace (c : Char) : Bool :=
  (9 ≤ c.toNat && c.toNat ≤ 13) || c.toNat == 32 || c.toNat == 0x85 || c.toNat == 0xA0 ||
    c.toNat == 0x1680 || (0x2000 ≤ c.toNat && c.toNat ≤ 0x200A) || c.toNat == 0x2028 ||
    c.toNat == 0x2029 || c.toNat == 0x202F || c.toNat == 0x205F || c.toNat == 0x3000

/-- `char::is_control`: the general category `Cc`. -/
def isControl (c : Char) : Bool := c.toNat < 32 || (127 ≤ c.toNat && c.toNat < 160)

/-- `value.trim().is_empty()` -/
def isBlank (s : String) : Bool := s.toList.all isWhitespace

/-- `OrderProtection::validate_shape` -/
def OrderProtection.validateShape (p : OrderProtection) : Bool :=
  ["LastPrice", "MarkPrice"].contains p.triggerBy &&
    (p.takeProfit.isSome || p.stopLoss.isSome) &&
    (p.takeProfit.toList ++ p.stopLoss.toList).all fun value =>
      value ≠ "" && byteLen value ≤ 64 && value.toList.all (fun c => c.isDigit || c == '.') &&
        value.toList.head? ≠ some '.' && value.toList.getLast? ≠ some '.' &&
        match Decimal.ofString value with
        | some n => decide (0 < n)
        | none => false

end EasiFlux
