import EasiFlux.Lib.Steps
import EasiFlux.Model.Klines

/-!
# The displayed klines

The three writers of the klines of one key in `services::market`: `merge_and_emit_klines`
(websocket), `fetch_kline_range` (detached REST) and `fetch_kline_range_under_account_guard`
(scheduler). Each merges its bars into the store, loads the newest 200 bars
(`buffer_display_klines`), for a REST call also the range asked for, and, if its bars have
changed the store, caches and emits what it has loaded.

The lock of the series is taken for every one of these by itself, and no lock is held from
the load to the cache and the emit: `DisplayWorld.step` lets any number of calls interleave
there. What the disk holds when the series is first loaded, and the bars, are given with the
step. The store's flushes change no bar and are left out.

A call of the websocket with other texts than those of the key has bars the store rejects
(`parse_klines` writes the texts of the call into its bars).
-/

namespace EasiFlux

open Newest

/-- `MAX_DISPLAY_KLINES` -/
def maxDisplayKlines : ℕ := 200

/-- `requested_kline_limit`, with `DEFAULT_KLINE_LIMIT` and `MAX_RANGE_FETCH_KLINES` -/
def requestedKlineLimit (limit : Option ℕ) : ℕ := max 1 (min 500 (limit.getD 200))

/-- The value of a text of digits as `parse::<i64>`; `None` where that overflows. -/
def parseDigits (text : List Char) : Option ℤ :=
  let value := text.foldl (fun n c => 10 * n + (c.toNat - '0'.toNat)) 0
  if value < 2 ^ 63 then some value else none

def intervalToMs (interval : String) : ℤ :=
  if interval = "D" ∨ interval = "d" then 86400000
  else if interval = "W" ∨ interval = "w" then 604800000
  else if interval.toList ≠ [] ∧ (interval.toList.all Char.isDigit) = true then
    (parseDigits interval.toList).getD 1 * 60000
  else 60000

/-- `KlineStore::detect_gaps` -/
def detectGaps (series : List Kline) (intervalMs : ℤ) : List (ℤ × ℤ) :=
  if series.length < 2 ∨ intervalMs ≤ 0 then []
  else
    (series.zip series.tail).filterMap fun (prev, next) =>
      if prev.openTime + intervalMs < next.openTime then some (prev.openTime + intervalMs, next.openTime - intervalMs)
      else none

/-- A range whose start exceeds its end -/
def reversed : Option ℤ → Option ℤ → Bool
  | some start, some «end» => «end» < start
  | _, _ => false

namespace BufferedSeries

/-- What `ensure_loaded` makes of the series with what the files hold: `load_from_disk`
ends in `crop_bars`. -/
def adopt (s : BufferedSeries) (loaded : LoadedSeries) : BufferedSeries :=
  { s with
    loaded := true
    bars := cropBars loaded.bars
    physicalRecords := loaded.physicalRecords
    compactionRevision :=
      if loaded.recoveredFallback ∨ compactPhysicalRecords < loaded.physicalRecords then some s.revision
      else s.compactionRevision }

end BufferedSeries

/-- Who has bars to merge. -/
inductive KlineWriter
  | mergeAndEmitKlines
  | fetchKlineRange (start «end» : Option ℤ) (limit : Option ℕ)
  | fetchKlineRangeUnderAccountGuard (start «end» : Option ℤ) (limit : Option ℕ)
  deriving DecidableEq, Repr

namespace KlineWriter

/-- The range a REST call loads after the display: start, end and how many. -/
def range : KlineWriter → Option (Option ℤ × Option ℤ × ℕ)
  | mergeAndEmitKlines => none
  | fetchKlineRange start «end» limit | fetchKlineRangeUnderAccountGuard start «end» limit =>
    some (start, «end», requestedKlineLimit limit)

end KlineWriter

/-- What a call returns: whether a backfill is needed, or the bars of the range. -/
inductive KlineAnswer
  | needsBackfill (needed : Bool)
  | range (bars : List Kline)
  | failed (error : AppError)

/-- What `buffer_display_klines` has loaded. `loadedAt` is the number of the load: it is
not in the code. -/
structure BufferedKlineUpdate where
  display : List Kline
  changed : Bool
  needsBackfill : Bool
  loadedAt : ℕ

/-- Where a call stands. -/
inductive KlineCall
  | idle
  | received (writer : KlineWriter) (bars : List Kline)
  | loaded (writer : KlineWriter) (bars : List Kline)
  | merged (writer : KlineWriter) (changed : Bool)
  | displayed (writer : KlineWriter) (update : BufferedKlineUpdate)
  | ranged (update : BufferedKlineUpdate) (answer : KlineAnswer)
  | cached (update : BufferedKlineUpdate) (answer : KlineAnswer)
  | finished (answer : KlineAnswer)

/-- The call has not started, or has returned. -/
def KlineCall.settled : KlineCall → Bool
  | .idle | .finished _ => true
  | _ => false

/-- The klines of one key: the series of the store, the cache and what was emitted last.
`loads` counts the loads of the display, `changedAt` is the count when a call last changed
the store, and `cachedAt`, `emittedAt` are the highest numbers of the loads cached and
emitted; these four are not in the code. -/
structure DisplayWorld where
  series : BufferedSeries
  cache : Option (List Kline)
  emitted : Option (List Kline)
  calls : ℕ → KlineCall
  loads : ℕ
  changedAt : Option ℕ
  cachedAt : ℕ
  emittedAt : ℕ

inductive DisplayAct
  | receive (c : ℕ) (writer : KlineWriter) (bars : List Kline)
  | ensureLoaded (c : ℕ) (disk : AppResult LoadedSeries)
  | upsert (c : ℕ)
  | display (c : ℕ)
  | range (c : ℕ)
  | cache (c : ℕ)
  | emit (c : ℕ)

/-- The call that takes the step -/
def DisplayAct.call : DisplayAct → ℕ
  | .receive c _ _ | .ensureLoaded c _ | .upsert c | .display c | .range c | .cache c | .emit c => c

namespace DisplayWorld

/-- A store whose series is not loaded, before any call. -/
def init : DisplayWorld := ⟨.default, none, none, fun _ => .idle, 0, none, 0, 0⟩

variable (key : ChartWorkspaceKey) (w : DisplayWorld)

def setCall (c : ℕ) (call : KlineCall) : DisplayWorld := { w with calls := Function.update w.calls c call }

def step : DisplayAct → DisplayWorld
  | .receive c writer bars =>
    match w.calls c with
    | .idle =>
      if writer = .mergeAndEmitKlines ∧ bars = [] then w.setCall c (.finished (.needsBackfill false))
      else if bars.any fun bar => bar.symbol ≠ key.symbol || bar.interval ≠ key.interval then
        w.setCall c (.finished (.failed (.storage s!"kline key mismatch for {key.symbol}_{key.interval}")))
      else w.setCall c (.received writer bars)
    | _ => w
  | .ensureLoaded c disk =>
    match w.calls c with
    | .received writer bars =>
      if w.series.loaded then w.setCall c (.loaded writer bars)
      else
        match disk with
        | .ok loaded => { w with series := w.series.adopt loaded }.setCall c (.loaded writer bars)
        | .error e => w.setCall c (.finished (.failed e))
    | _ => w
  | .upsert c =>
    match w.calls c with
    | .loaded writer bars =>
      match w.series.upsertBars key bars with
      | .ok (series, merge) =>
        { w with
          series := series
          changedAt := if merge.changed then some w.loads else w.changedAt }.setCall c (.merged writer merge.changed)
      | .error e => w.setCall c (.finished (.failed e))
    | _ => w
  | .display c =>
    match w.calls c with
    | .merged writer changed =>
      match w.series.loadRange none none maxDisplayKlines with
      | .ok display =>
        let needsBackfill := !(detectGaps display (intervalToMs key.interval)).isEmpty
        { w with loads := w.loads + 1 }.setCall c (.displayed writer ⟨display, changed, needsBackfill, w.loads + 1⟩)
      | .error e => w.setCall c (.finished (.failed e))
    | _ => w
  | .range c =>
    match w.calls c with
    | .displayed writer update =>
      match writer.range with
      | none => w.setCall c (.ranged update (.needsBackfill update.needsBackfill))
      | some (start, «end», requested) =>
        match w.series.loadRange start «end» requested with
        | .ok bars => w.setCall c (.ranged update (.range bars))
        | .error e => w.setCall c (.finished (.failed e))
    | _ => w
  | .cache c =>
    match w.calls c with
    | .ranged update answer =>
      if update.changed then
        { w with cache := some update.display, cachedAt := max w.cachedAt update.loadedAt }.setCall c
          (.cached update answer)
      else w.setCall c (.finished answer)
    | _ => w
  | .emit c =>
    match w.calls c with
    | .cached update answer =>
      { w with emitted := some update.display, emittedAt := max w.emittedAt update.loadedAt }.setCall c
        (.finished answer)
    | _ => w

def run (as : List DisplayAct) : DisplayWorld := Steps.run (step key) init as

/-- Every call has finished, and one of them has changed the store. -/
def Settled : Prop := (∀ c, (w.calls c).settled = true) ∧ w.changedAt.isSome = true

/-- The cache and the last event show what `load_range(None, None, 200)` of the store is. -/
def Shown : Prop :=
  ∃ display, w.series.loadRange none none maxDisplayKlines = .ok display ∧ w.cache = some display ∧
    w.emitted = some display

end DisplayWorld

end EasiFlux
