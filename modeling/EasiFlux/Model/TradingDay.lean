import EasiFlux.Lib.LocalTime
import EasiFlux.Model.Risk

/-!
# Trading days

The two ways `services/time.rs` takes from an instant to its trading day: the key of the risk
ledger is the formatted local date (`trading_day_key`, in the model of the ledger), the window of
the daily profit starts at local midnight and has a fixed length (`trading_day_bounds`). Both ask
`chrono` and `chrono_tz` (`Chrono`).
-/

namespace EasiFlux

open LocalTime

/-- `chrono` and `chrono_tz`: time zones are tables of offsets. -/
structure Chrono where
  /-- `str::parse::<chrono_tz::Tz>` -/
  parse : String → Option Zone
  /-- `chrono_tz::Asia::Shanghai` -/
  shanghai : Zone
  parse_shanghai : parse defaultTradingDayTimezone = some shanghai
  /-- The first and the last millisecond that can be represented, also as a local time -/
  minMs : ℤ
  maxMs : ℤ
  /-- `format("%Y-%m-%d")` of a date, in days -/
  format : ℤ → String
  format_inj : Function.Injective format

/-- `value as i64` of a `u64` -/
def asI64 (value : ℕ) : ℤ := if value < 2 ^ 63 then value else value - 2 ^ 64

namespace Chrono

variable (K : Chrono)

def inRange (t : ℤ) : Bool := K.minMs ≤ t && t ≤ K.maxMs

/-- `timezone.parse().unwrap_or(chrono_tz::Asia::Shanghai)` -/
def zone (timezone : String) : Zone := (K.parse timezone).getD K.shanghai

/-- What the ledger asks of `chrono`. -/
def calendar : Calendar where
  isTimezone tz := (K.parse tz).isSome
  instant nowMs := if K.inRange (asI64 nowMs) then some (asI64 nowMs) else none
  date tz t := (K.zone tz).date t
  format := K.format
  format_inj := K.format_inj

/-- `trading_day_bounds`; `from_local_datetime(..).single()` is the only representable instant that
shows the local midnight. -/
def tradingDayBounds (nowMs : ℕ) (utcNow : ℤ) (timezone : String) : ℤ × ℤ :=
  let tz := K.zone timezone
  let now := (K.calendar.instant nowMs).getD utcNow
  let start := (tz.single K.inRange (tz.date now * dayMs)).getD 0
  (start, start + 86400000)

end Chrono

end EasiFlux
