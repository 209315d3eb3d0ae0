import EasiFlux.Model.Risk

/-!
# The price check with its arithmetic

`services/risk/validation.rs` once more, with the operators of `rust_decimal` as they are: `-`,
`/` and `*` panic if the result does not fit. In `Model.Risk` the deviation is a parameter. How a
text is read, `Decimal::from_str`, is a parameter here too: whatever it makes of exponents,
separators and surplus digits, it gives a `Decimal` or nothing.

A task that panics ends with the error `none`.
-/

namespace EasiFlux

open CrashIo Results Fixed

variable (fromStr : String → Option Decimal)

/-- `validate_risk_config` -/
def validateRiskConfig (Z : Calendar) (config : RiskConfig) : AppResult Unit := do
  let maxQty ← okOr (fromStr config.maxOrderQty) (.config "最大单笔下单数量格式无效")
  ensure (0 < maxQty) (.config "最大单笔下单数量必须大于 0")
  let maxDeviation ← okOr (fromStr config.maxPriceDeviationPct) (.config "最大价格偏离格式无效")
  ensure (0 ≤ maxDeviation) (.config "最大价格偏离不能为负数")
  ensure (config.maxDailyOrders ≠ 0) (.config "每日最大下单次数必须大于 0")
  ensure (Z.isTimezone config.tradingDayTimezone) (.config "交易日时区无效")

/-- `Decimal::from(100)` -/
def hundred : Decimal := ⟨100, 0, by decide, Decimal.zero_le_scale⟩

/-- `((price - ref_price).abs() / ref_price) * Decimal::from(100)`; `none` is a panic. -/
def priceDeviation (price refPrice : Decimal) : Option Decimal := do
  let difference ← Decimal.subRounded price refPrice
  let ratio ← Decimal.divRounded difference.abs refPrice
  Decimal.mulRounded ratio hundred

namespace RiskService

def validateLimitPriceUnwinding (config : RiskConfig) (request : PlaceOrderRequest) (referencePrice : Option String) :
    Except (Option RiskViolation) Unit := do
  let text ← okOr request.price (some (.new .missingLimitPrice))
  let price ← okOr (fromStr text) (some (.new .invalidLimitPrice))
  ensure (0 < price) (some (.new .nonPositiveLimitPrice))
  let reference ← okOr ((referencePrice.bind fromStr).filter fun d => 0 < d)
    (some (.new .referencePriceUnavailable))
  let deviation ← okOr (priceDeviation price reference) none
  let limit ← okOr (fromStr config.maxPriceDeviationPct) (some (.new .ledgerUnavailable))
  ensure (deviation ≤ limit) (some (.withLimit .maxPriceDeviation limit.toRat))

def validateOrderUnwinding (config : RiskConfig) (request : PlaceOrderRequest) (referencePrice : Option String) :
    Except (Option RiskViolation) Unit := do
  let qty ← okOr (fromStr request.qty) (some (.new .invalidQuantity))
  ensure (0 < qty) (some (.new .nonPositiveQuantity))
  if request.reduceOnly ≠ some true then
    let max ← okOr (fromStr config.maxOrderQty) (some (.new .ledgerUnavailable))
    ensure (qty ≤ max) (some (.withLimit .maxOrderQty max.toRat))
  if request.orderType.toList.map Char.toLower = "limit".toList then
    validateLimitPriceUnwinding fromStr config request referencePrice

/-- `reserve_order` -/
def reserveOrderUnwinding (C : UsageCodec) (Z : Calendar) (request : PlaceOrderRequest) (referencePrice : Option String)
    (nowMs : ℕ) (utcNow : ℤ) : Io RiskService (Option RiskViolation) RiskReservation := do
  let s ← Io.get
  if !s.config.enabled then
    return .notCounted
  Io.lift (validateOrderUnwinding fromStr s.config request referencePrice)
  if request.reduceOnly = some true then
    return .notCounted
  let timezone := resolveTradingDayTimezone Z s.config.tradingDayTimezone
  let day := tradingDayKey Z nowMs utcNow timezone
  Io.lift (ensure (s.loadError = none) (some (.new .ledgerUnavailable)))
  let next := s.currentUsage day timezone nowMs
  Io.lift (ensure (next.occupiedOrders < s.config.maxDailyOrders)
    (some (.withLimit .dailyOrderLimit s.config.maxDailyOrders)))
  let next := { next with occupiedOrders := next.occupiedOrders + 1, updatedAtMs := nowMs }
  inStore (Io.mapErr (fun _ => some (.new .ledgerUnavailable)) (RiskUsageStore.save C next))
  Io.modify fun s => { s with usage := some next }
  return ⟨day, timezone, true⟩

end RiskService

end EasiFlux
