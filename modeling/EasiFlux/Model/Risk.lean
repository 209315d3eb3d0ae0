import EasiFlux.Lib.Results
import EasiFlux.Lib.Steps
import EasiFlux.Lib.Codec
import EasiFlux.Model.Trading

/-!
# The daily order limit

`services/risk.rs` with `storage/risk_usage.rs` and the trading day of
`services/time.rs`. The service counts the orders of one trading day in one time
zone. The count is saved before an order is let through, in a file that is
replaced through a `.tmp` and a `.bak` copy; the next process takes it up from
there.

`RiskWorld` is a run of the service: the process, its files, and what was
granted and released so far. The last is bookkeeping, the code keeps none of it.
-/

namespace EasiFlux

open CrashIo Results Fixed

/-! ## Trading days -/

/-- What the code asks `chrono` and `chrono_tz`. Days are counted, and `format`
writes one as `%Y-%m-%d`. -/
structure Calendar where
  /-- `tz.parse::<chrono_tz::Tz>().is_ok()` -/
  isTimezone : String → Bool
  /-- `Utc.timestamp_millis_opt(now_ms as i64).single()` -/
  instant : ℕ → Option ℤ
  /-- `with_timezone(&tz).date_naive()` -/
  date : String → ℤ → ℤ
  format : ℤ → String
  format_inj : Function.Injective format

def defaultTradingDayTimezone : String := "Asia/Shanghai"

section Days

variable (Z : Calendar)

def resolveTradingDayTimezone (tz : String) : String :=
  if Z.isTimezone tz then tz else defaultTradingDayTimezone

/-- The day of `trading_day_key`. A time `chrono` cannot represent is replaced by
the clock, `utcNow`. -/
def tradingDay (nowMs : ℕ) (utcNow : ℤ) (timezone : String) : ℤ :=
  Z.date (resolveTradingDayTimezone Z timezone) ((Z.instant nowMs).getD utcNow)

def tradingDayKey (nowMs : ℕ) (utcNow : ℤ) (timezone : String) : String :=
  Z.format (tradingDay Z nowMs utcNow timezone)

end Days

/-! ## The ledger file -/

structure RiskUsage where
  schemaVersion : ℕ
  tradingDay : String
  timezone : String
  occupiedOrders : ℕ
  updatedAtMs : ℕ
  deriving DecidableEq, Repr

/-- `toml::to_string_pretty` and `toml::from_str` on a ledger. The writer refuses a
time beyond `i64`. `updated_at_ms` is the last line of the text, so a text cut
short is refused or has lost digits of the time and nothing else. -/
structure UsageCodec where
  encode : RiskUsage → Option Bytes
  decode : Bytes → Option RiskUsage
  decode_encode : ∀ u b, encode u = some b → decode b = some u
  decode_torn : ∀ u b k t, encode u = some b → decode (b.take k) = some t →
    ∃ ms, t = { u with updatedAtMs := ms }

inductive RiskFile
  | main
  | tmp
  | bak
  deriving DecidableEq, Repr

abbrev RiskDir := Machine RiskFile Empty

namespace RiskUsageStore

variable (C : UsageCodec)

/-- `Path::exists`: no error, a path that cannot be looked at is not there. -/
def exists? {ε : Type} (name : RiskFile) : Io RiskDir ε Bool := do
  match ← Io.attempt (stat name) with
  | .ok () => pure true
  | .error _ => pure false

/-- The text of the error is the system's. -/
def storageError {α : Type} (call : Io RiskDir IoErr α) : Io RiskDir AppError α :=
  Io.mapErr (fun _ => .storage "io") call

def readUsage (name : RiskFile) : Io RiskDir AppError RiskUsage := do
  let text ← storageError (read name)
  Io.lift (okOr (C.decode text) (.storage "无法读取风控用量账本"))

def load : Io RiskDir AppError (Option RiskUsage) := do
  if ← exists? .main then
    let usage ← readUsage C .main
    pure (some usage)
  else if ← exists? .tmp then
    let usage ← readUsage C .tmp
    pure (some usage)
  else if ← exists? .bak then
    Io.throw (.storage "风控用量主账本缺失，且仅存在无法确认时效的备份")
  else
    pure none

def removeBackup : Io RiskDir AppError Unit := do
  if ← exists? .bak then storageError (remove .bak)

/-- Put the main file aside; whether there was one. -/
def rotateMain : Io RiskDir AppError Bool := do
  if ← exists? .main then
    storageError (rename .main .bak)
    pure true
  else
    pure false

/-- Put the old main file back, if it can be. -/
def restoreMain (hadMain : Bool) : Io RiskDir AppError Unit := do
  if hadMain then
    if ← exists? .bak then Io.ignore (rename .bak .main)

def replaceMain : Io RiskDir AppError Unit := do
  removeBackup
  let hadMain ← rotateMain
  match ← Io.attempt (rename .tmp .main) with
  | .ok () => pure ()
  | .error _ => do
    restoreMain hadMain
    Io.throw (.storage "io")

def save (usage : RiskUsage) : Io RiskDir AppError Unit := do
  storageError sync
  let text ← Io.lift (okOr (C.encode usage) (.storage "toml"))
  storageError (openTruncate .tmp)
  storageError (writeAll .tmp text)
  storageError sync
  replaceMain

end RiskUsageStore

/-! ## `services/risk.rs` -/

structure RiskConfig where
  maxOrderQty : String
  maxPriceDeviationPct : String
  maxDailyOrders : ℕ
  tradingDayTimezone : String
  enabled : Bool
  deriving DecidableEq, Repr

inductive RiskViolationCode
  | invalidQuantity
  | nonPositiveQuantity
  | maxOrderQty
  | missingLimitPrice
  | invalidLimitPrice
  | nonPositiveLimitPrice
  | referencePriceUnavailable
  | maxPriceDeviation
  | dailyOrderLimit
  | ledgerUnavailable
  deriving DecidableEq, Repr

/-- A refusal; the limit is the number whose nearest `f64` is shown. -/
structure RiskViolation where
  code : RiskViolationCode
  limit : Option ℚ
  deriving DecidableEq, Repr

def RiskViolation.new (code : RiskViolationCode) : RiskViolation := ⟨code, none⟩

def RiskViolation.withLimit (code : RiskViolationCode) (limit : ℚ) : RiskViolation :=
  ⟨code, if 0 ≤ limit then some limit else none⟩

def RiskViolation.userMessage (v : RiskViolation) : String :=
  match v.code, v.limit with
  | .invalidQuantity, _ => "订单数量格式无效"
  | .nonPositiveQuantity, _ => "订单数量必须大于 0"
  | .maxOrderQty, some limit => "订单数量超过最大限制 " ++ toString limit
  | .maxOrderQty, none => "订单数量超过最大限制"
  | .missingLimitPrice, _ => "限价单必须提供价格"
  | .invalidLimitPrice, _ => "限价格式无效"
  | .nonPositiveLimitPrice, _ => "限价必须大于 0"
  | .referencePriceUnavailable, _ => "无法获取有效的最新市价，请刷新行情后重试"
  | .maxPriceDeviation, some limit => "限价偏离市价超过限制 " ++ toString limit ++ "%"
  | .maxPriceDeviation, none => "限价偏离市价超过限制"
  | .dailyOrderLimit, some limit => "今日下单次数已达上限 " ++ toString limit
  | .dailyOrderLimit, none => "今日下单次数已达上限"
  | .ledgerUnavailable, _ => "风控用量账本不可用，请检查本地存储权限或文件格式。"

/-- A day in a zone: what one ledger is about. -/
abbrev RiskKey := String × String

structure RiskReservation where
  tradingDay : String
  timezone : String
  counted : Bool
  deriving DecidableEq, Repr

def RiskReservation.notCounted : RiskReservation := ⟨"", "", false⟩

def RiskReservation.key (r : RiskReservation) : RiskKey := (r.tradingDay, r.timezone)

def RiskUsage.key (u : RiskUsage) : RiskKey := (u.tradingDay, u.timezone)

/-- What the checks of an order take from `rust_decimal`. -/
structure RiskDecimals where
  /-- `Decimal::from_str(text).ok()`. It need not be exact: more digits than fit are rounded. -/
  fromStr : String → Option Decimal
  /-- `((price - ref_price).abs() / ref_price) * 100` -/
  deviation : Decimal → Decimal → Decimal

/-- The service: its configuration, what it keeps under the lock, and its files. -/
structure RiskService where
  config : RiskConfig
  usage : Option RiskUsage
  loadError : Option String
  files : RiskDir

namespace RiskService

def validateLimitPrice (R : RiskDecimals) (config : RiskConfig) (request : PlaceOrderRequest)
    (referencePrice : Option String) : Except RiskViolation Unit := do
  let text ← okOr request.price (.new .missingLimitPrice)
  let price ← okOr (R.fromStr text) (.new .invalidLimitPrice)
  ensure (0 < price) (.new .nonPositiveLimitPrice)
  let reference ← okOr ((referencePrice.bind R.fromStr).filter fun d => 0 < d)
    (.new .referencePriceUnavailable)
  let limit ← okOr (R.fromStr config.maxPriceDeviationPct) (.new .ledgerUnavailable)
  ensure (R.deviation price reference ≤ limit) (.withLimit .maxPriceDeviation limit.toRat)

def validateOrder (R : RiskDecimals) (config : RiskConfig) (request : PlaceOrderRequest)
    (referencePrice : Option String) : Except RiskViolation Unit := do
  let qty ← okOr (R.fromStr request.qty) (.new .invalidQuantity)
  ensure (0 < qty) (.new .nonPositiveQuantity)
  if request.reduceOnly ≠ some true then
    let max ← okOr (R.fromStr config.maxOrderQty) (.new .ledgerUnavailable)
    ensure (qty ≤ max) (.withLimit .maxOrderQty max.toRat)
  if request.orderType.toList.map Char.toLower = "limit".toList then
    validateLimitPrice R config request referencePrice

variable (C : UsageCodec) (Z : Calendar) (R : RiskDecimals)

/-- A call on the store. -/
def inStore {ε α : Type} (m : Io RiskDir ε α) : Io RiskService ε α :=
  Io.within files (fun s files => { s with files := files }) m

/-- What `load` answers when no call fails. -/
def loadUsage (files : RiskDir) : AppResult (Option RiskUsage) :=
  match RiskUsageStore.load C files [] with
  | .ok usage _ _ => .ok usage
  | .err e _ _ => .error e
  | .crashed _ => .error .notConnected

/-- The ledger as it is read: what is known of it, and why nothing is. -/
def loaded (files : RiskDir) : Option RiskUsage × Option String :=
  match loadUsage C files with
  | .ok usage => (usage, none)
  | .error error => (none, some error.userMessage)

def withStore (config : RiskConfig) (files : RiskDir) : RiskService :=
  if config.enabled then ⟨config, (loaded C files).1, (loaded C files).2, files⟩
  else ⟨config, none, none, files⟩

def updateConfig (s : RiskService) (config : RiskConfig) : RiskService :=
  if !config.enabled then { s with config := config, usage := none, loadError := none }
  else if !s.config.enabled then
    { s with config := config, usage := (loaded C s.files).1, loadError := (loaded C s.files).2 }
  else { s with config := config }

/-- The ledger a reservation is counted in: the one in memory if it is of the day
and the zone, else an empty one. -/
def currentUsage (s : RiskService) (tradingDay timezone : String) (nowMs : ℕ) : RiskUsage :=
  match s.usage with
  | some usage => if usage.tradingDay = tradingDay ∧ usage.timezone = timezone then usage
      else ⟨1, tradingDay, timezone, 0, nowMs⟩
  | none => ⟨1, tradingDay, timezone, 0, nowMs⟩

def reserveOrder (request : PlaceOrderRequest) (referencePrice : Option String) (nowMs : ℕ) (utcNow : ℤ) :
    Io RiskService RiskViolation RiskReservation := do
  let s ← Io.get
  if !s.config.enabled then
    return .notCounted
  Io.lift (validateOrder R s.config request referencePrice)
  if request.reduceOnly = some true then
    return .notCounted
  let timezone := resolveTradingDayTimezone Z s.config.tradingDayTimezone
  let day := tradingDayKey Z nowMs utcNow timezone
  Io.lift (ensure (s.loadError = none) (.new .ledgerUnavailable))
  let next := s.currentUsage day timezone nowMs
  Io.lift (ensure (next.occupiedOrders < s.config.maxDailyOrders)
    (.withLimit .dailyOrderLimit s.config.maxDailyOrders))
  let next := { next with occupiedOrders := next.occupiedOrders + 1, updatedAtMs := nowMs }
  inStore (Io.mapErr (fun _ => .new .ledgerUnavailable) (RiskUsageStore.save C next))
  Io.modify fun s => { s with usage := some next }
  return ⟨day, timezone, true⟩

def releaseReservation (reservation : RiskReservation) (nowMs : ℕ) : Io RiskService AppError Unit := do
  if !reservation.counted then
    return
  let s ← Io.get
  match s.usage with
  | none => return
  | some current =>
    if current.tradingDay ≠ reservation.tradingDay ∨ current.timezone ≠ reservation.timezone then
      return
    let next := { current with occupiedOrders := current.occupiedOrders - 1, updatedAtMs := nowMs }
    inStore (RiskUsageStore.save C next)
    Io.modify fun s => { s with usage := some next }

/-- The zone reservations are counted in. -/
def zone (s : RiskService) : String := resolveTradingDayTimezone Z s.config.tradingDayTimezone

/-- The day and zone a reservation made now is counted for. -/
def keyAt (s : RiskService) (nowMs : ℕ) (utcNow : ℤ) : RiskKey := (tradingDayKey Z nowMs utcNow (s.zone Z), s.zone Z)

/-- `occupied_orders` for a day and zone. -/
def occupied (usage : Option RiskUsage) (key : RiskKey) : ℕ :=
  match usage with
  | some u => if u.key = key then u.occupiedOrders else 0
  | none => 0

end RiskService

/-! ## Runs -/

/-- A counted reservation that was handed out. -/
structure Grant where
  reservation : RiskReservation
  /-- `max_daily_orders` at the time -/
  limit : ℕ
  /-- the number of the ledger that counted it -/
  ledger : ℕ
  /-- `release_reservation` returned `Ok` for it -/
  released : Bool
  deriving DecidableEq, Repr

structure RiskWorld where
  service : RiskService
  grants : List Grant
  /-- the trading day of the last `reserve_order` -/
  today : Option ℤ
  /-- how many ledgers were begun -/
  ledgers : ℕ
  /-- the keys of the calls whose save failed, or died, since the last save that
  went through or the last start -/
  failedReserves : List RiskKey
  failedReleases : List RiskKey
  /-- the same of all earlier starts, each key once a start -/
  raised : List RiskKey
  lowered : List RiskKey

inductive RiskAct
  | reserve (request : PlaceOrderRequest) (referencePrice : Option String) (nowMs : ℕ) (utcNow : ℤ)
      (faults : List Fault)
  | release (i : ℕ) (nowMs : ℕ) (faults : List Fault)
  | update (config : RiskConfig)
  | restart

namespace RiskWorld

variable (C : UsageCodec) (Z : Calendar) (R : RiskDecimals)

/-- A service started on an empty directory. -/
def init (config : RiskConfig) : RiskWorld where
  service := .withStore C config ⟨∅, []⟩
  grants := []
  today := none
  ledgers := 0
  failedReserves := []
  failedReleases := []
  raised := []
  lowered := []

/-- The next process, on the files the last one left. -/
def start (w : RiskWorld) (files : RiskDir) : RiskWorld :=
  { w with
    service := .withStore C w.service.config files
    failedReserves := []
    failedReleases := []
    raised := w.failedReserves.dedup ++ w.raised
    lowered := w.failedReleases.dedup ++ w.lowered }

/-- The ledger in memory is about `key`. -/
def covers (w : RiskWorld) (key : RiskKey) : Prop := ∃ u ∈ w.service.usage, u.key = key

instance (w : RiskWorld) (key : RiskKey) : Decidable (w.covers key) :=
  inferInstanceAs (Decidable (∃ u ∈ w.service.usage, u.key = key))

/-- A counted reservation was granted and `s` is the service after it. -/
def grant (w : RiskWorld) (r : RiskReservation) (s : RiskService) : RiskWorld :=
  let ledger := if w.covers r.key then w.ledgers else w.ledgers + 1
  { w with
    service := s
    grants := w.grants ++ [⟨r, w.service.config.maxDailyOrders, ledger, false⟩]
    ledgers := ledger
    failedReserves := []
    failedReleases := [] }

/-- `release_reservation` returned `Ok` for the `i`th grant. -/
def markReleased (w : RiskWorld) (i : ℕ) (g : Grant) (s : RiskService) : RiskWorld :=
  { w with
    service := s
    grants := w.grants.set i { g with released := true }
    failedReserves := if w.covers g.reservation.key then [] else w.failedReserves
    failedReleases := if w.covers g.reservation.key then [] else w.failedReleases }

def reserve (w : RiskWorld) (request : PlaceOrderRequest) (referencePrice : Option String) (nowMs : ℕ) (utcNow : ℤ)
    (faults : List Fault) : RiskWorld :=
  let w := { w with today := some (tradingDay Z nowMs utcNow (w.service.zone Z)) }
  let failed := w.service.keyAt Z nowMs utcNow :: w.failedReserves
  match RiskService.reserveOrder C Z R request referencePrice nowMs utcNow w.service faults with
  | .ok r s _ => if r.counted then w.grant r s else { w with service := s }
  | .err v s _ => { w with service := s, failedReserves := if v.code = .ledgerUnavailable then failed else w.failedReserves }
  | .crashed s => ({ w with failedReserves := failed }).start C s.files

def release (w : RiskWorld) (i : ℕ) (nowMs : ℕ) (faults : List Fault) : RiskWorld :=
  match w.grants[i]? with
  | none => w
  | some g =>
    let failed := g.reservation.key :: w.failedReleases
    match RiskService.releaseReservation C g.reservation nowMs w.service faults with
    | .ok () s _ => w.markReleased i g s
    | .err _ s _ => { w with service := s, failedReleases := failed }
    | .crashed s => ({ w with failedReleases := failed }).start C s.files

def step (w : RiskWorld) : RiskAct → RiskWorld
  | .reserve request referencePrice nowMs utcNow faults =>
    w.reserve C Z R request referencePrice nowMs utcNow faults
  | .release i nowMs faults => w.release C i nowMs faults
  | .update config => { w with service := w.service.updateConfig C config }
  | .restart => w.start C w.service.files

/-- The reservations granted for `key` and not released. -/
def outstanding (w : RiskWorld) (key : RiskKey) : ℕ :=
  w.grants.countP fun g => g.reservation.key = key ∧ !g.released

end RiskWorld

end EasiFlux
