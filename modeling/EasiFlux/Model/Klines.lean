import EasiFlux.Lib.Lines
import EasiFlux.Lib.Newest
import EasiFlux.Model.Trading

/-!
# The kline store

`storage/kline_store.rs` for one key. The bars of a series are held in memory and
written to three files: the main file, one bar a line, which a flush appends to, and
the `.tmp` and `.bak` of a compaction, which rewrites the series as a whole. A flush
takes a copy of the series (`prepare_flush`), writes it without the lock, and then
drops from `pending` what the copy held (`acknowledge_flush`).

`KlineWorld.step` interleaves upserts with these three sections. The process may be
restarted anywhere, and a write runs under a script of faults. The JSON of a bar is a
`LineCodec`.
-/

namespace EasiFlux

open CrashIo Newest

/-! ## Data -/

structure ChartWorkspaceKey where
  symbol : String
  interval : String
  deriving DecidableEq, Repr

structure Kline where
  symbol : String
  interval : String
  openTime : ℤ
  «open» : String
  high : String
  low : String
  close : String
  volume : String
  deriving DecidableEq, Repr

abbrev Bars := OrdMap ℤ Kline

@[irreducible] def maxStoredBars : ℕ := 10000

@[irreducible] def compactPhysicalRecords : ℕ := 12000

structure PendingEntry where
  kline : Kline
  revision : ℕ
  deriving DecidableEq, Repr

structure BufferedSeries where
  loaded : Bool
  bars : Bars
  pending : OrdMap ℤ PendingEntry
  revision : ℕ
  physicalRecords : ℕ
  compactionRevision : Option ℕ

def BufferedSeries.default : BufferedSeries := ⟨false, ∅, ∅, 0, 0, none⟩

structure FlushBatch where
  entries : List PendingEntry
  snapshot : List Kline
  snapshotRevision : ℕ
  compact : Bool
  deriving DecidableEq, Repr

structure LoadedSeries where
  bars : Bars
  physicalRecords : ℕ
  recoveredFallback : Bool

structure KlineMergeResult where
  revision : ℕ
  changed : Bool
  deriving DecidableEq, Repr

/-- `values()` of an ordered map. -/
def mapValues {β : Type} (m : OrdMap ℤ β) : List β := m.toList.map Prod.snd

/-! ## The series -/

namespace BufferedSeries

/-- `revision.saturating_add(1)` on a `u64` -/
def nextRevision (s : BufferedSeries) : ℕ := min (s.revision + 1) (2 ^ 64 - 1)

/-- One bar of `upsert_bars`; the flag says whether anything has changed. -/
def upsertBar (sc : BufferedSeries × Bool) (bar : Kline) : BufferedSeries × Bool :=
  if bar.openTime ≤ 0 ∨ sc.1.bars[bar.openTime]? = some bar then sc
  else
    ({ sc.1 with
        revision := sc.1.nextRevision
        bars := sc.1.bars.insert bar.openTime bar
        pending := sc.1.pending.insert bar.openTime ⟨bar, sc.1.nextRevision⟩ }, true)

/-- The oldest bar is forgotten. -/
def evict (s : BufferedSeries) : BufferedSeries :=
  match s.bars.minKey? with
  | some oldest => { s with bars := s.bars.erase oldest, pending := s.pending.erase oldest }
  | none => s

/-- The end of `upsert_bars`: a series that is too long is cropped, and compacted. -/
def cropSeries (s : BufferedSeries) : BufferedSeries :=
  if maxStoredBars < s.bars.size then
    evict^[s.bars.size - maxStoredBars] { s with compactionRevision := some s.revision }
  else s

def upsertBars (key : ChartWorkspaceKey) (s : BufferedSeries) (bars : List Kline) :
    AppResult (BufferedSeries × KlineMergeResult) :=
  if bars.any fun bar => bar.symbol ≠ key.symbol || bar.interval ≠ key.interval then
    .error (.storage s!"kline key mismatch for {key.symbol}_{key.interval}")
  else
    let (s, changed) := bars.foldl upsertBar (s, false)
    let s := s.cropSeries
    .ok (s, ⟨s.revision, changed⟩)

/-- `load_range` of a loaded series; the times are `i64`. -/
def loadRange (s : BufferedSeries) («from» «to» : Option ℤ) (limit : ℕ) : AppResult (List Kline) :=
  if («from».any fun «from» => «to».any fun «to» => «to» < «from») then .error (.storage "kline range start exceeds end")
  else
    let bars := (s.bars.toList.filter fun e => «from».getD (-2 ^ 63) ≤ e.1 && e.1 ≤ «to».getD (2 ^ 63 - 1)).map Prod.snd
    let limit := min (max limit 1) maxStoredBars
    .ok (if limit < bars.length then bars.drop (bars.length - limit) else bars)

/-- Whether a flush has something to write. -/
def dirty (s : BufferedSeries) : Bool := s.pending.size ≠ 0 || s.compactionRevision.isSome

def prepareFlush (s : BufferedSeries) : Option FlushBatch :=
  if !s.dirty then none
  else
    let entries := mapValues s.pending
    some
      { entries := entries
        snapshot := mapValues s.bars
        snapshotRevision := s.revision
        compact := s.compactionRevision.isSome || compactPhysicalRecords < s.physicalRecords + entries.length }

def acknowledgeFlush (s : BufferedSeries) (batch : FlushBatch) : BufferedSeries :=
  let s := { s with pending := s.pending.filter fun _ pending => batch.snapshotRevision < pending.revision }
  if batch.compact then
    { s with
      physicalRecords := batch.snapshot.length
      compactionRevision := s.compactionRevision.filter fun revision => batch.snapshotRevision < revision }
  else { s with physicalRecords := s.physicalRecords + batch.entries.length }

end BufferedSeries

/-! ## Files -/

inductive KlineFile
  | main
  | tmp
  | bak
  deriving DecidableEq, Repr

abbrev KlineDir := Machine KlineFile Empty

abbrev KlineIo := Io KlineDir IoErr

section Files

variable (C : LineCodec Kline) (key : ChartWorkspaceKey)

/-- A bar that belongs in the file of the key. -/
def ChartWorkspaceKey.accepts (bar : Kline) : Bool :=
  0 < bar.openTime && bar.symbol = key.symbol && bar.interval = key.interval

/-- The loop of `parse_main_file`: what is no bar of the key is skipped, but counted. -/
def parseMain : List Bytes → Bars → ℕ → Except IoErr (Bars × ℕ)
  | [], bars, records => .ok (bars, records)
  | line :: rest, bars, records =>
    match C.decode line with
    | .invalid => .error .other
    | .record bar => parseMain rest (if key.accepts bar then bars.insert bar.openTime bar else bars) (records + 1)
    | _ => parseMain rest bars (records + 1)

/-- The loop of `parse_fallback_file`: every line is a bar of the key, or it is no
series. -/
def parseFallback : List Bytes → Bars → ℕ → Except IoErr (Option (Bars × ℕ))
  | [], bars, records => .ok (if 0 < records then some (bars, records) else none)
  | line :: rest, bars, records =>
    match C.decode line with
    | .invalid => .error .other
    | .record bar =>
      if key.accepts bar then parseFallback rest (bars.insert bar.openTime bar) (records + 1) else .ok none
    | _ => .ok none

/-- `is_file`, `exists`: a failure reads as a missing file. -/
def present (name : KlineFile) : KlineIo Bool := do
  match ← Io.attempt (stat name) with
  | .ok () => pure true
  | .error _ => pure false

/-- `metadata(path).len() > 0` of a file that is there. -/
def nonempty (name : KlineFile) : KlineIo Bool := do
  if ← present name then do
    let bytes ← CrashIo.read name
    pure (bytes ≠ [])
  else pure false

def parseFallbackFile (name : KlineFile) : KlineIo (Option (Bars × ℕ)) := do
  if ← nonempty name then do
    let bytes ← CrashIo.read name
    Io.lift (parseFallback C key (lines bytes) ∅ 0)
  else pure none

def isFullyParseableFile (name : KlineFile) : KlineIo Bool := do
  let parsed ← parseFallbackFile C key name
  pure parsed.isSome

def cropBars (bars : Bars) : Bars := crop maxStoredBars bars

def loadFromDisk : KlineIo LoadedSeries := do
  if ← nonempty .main then do
    let bytes ← CrashIo.read .main
    let (bars, records) ← Io.lift (parseMain C key (lines bytes) ∅ 0)
    pure ⟨cropBars bars, records, false⟩
  else do
    match ← parseFallbackFile C key .tmp with
    | some (bars, records) => pure ⟨cropBars bars, records, true⟩
    | none =>
      match ← parseFallbackFile C key .bak with
      | some (bars, records) => pure ⟨cropBars bars, records, true⟩
      | none => pure ⟨∅, 0, false⟩

/-- The bars, one a line: each is written, and then its newline. -/
def writeBars (name : KlineFile) : List Kline → KlineIo Unit
  | [] => pure ()
  | bar :: rest => do
    writeAll name (C.encode bar)
    writeAll name [newline]
    writeBars name rest

def appendBatch (batch : FlushBatch) : KlineIo Unit := do
  openAppend .main
  writeBars C .main (batch.entries.map (·.kline))
  sync

/-- The main file is out of the way of the new one: kept as the backup if it is
sound. -/
def retireMain (valid : Bool) : KlineIo Unit := do
  if valid then do
    if ← present .bak then do
      if ← present .bak then remove .bak else Io.throw .other
    rename .main .bak
  else do
    if ← present .main then do
      if ← present .main then remove .main

/-- A program under a script of its own. -/
def underFaults {α : Type} (script : List Fault) (m : KlineIo α) : KlineIo α := fun dir fs =>
  match m dir script with
  | .ok a dir _ => .ok a dir fs
  | .err e dir _ => .err e dir fs
  | .crashed dir => .crashed dir

/-- `restore` are the faults of the copy that is made when the promotion of the new
file fails. -/
def compactBatch (batch : FlushBatch) (restore : List Fault) : KlineIo Unit := do
  openTruncate .tmp
  writeBars C .tmp batch.snapshot
  sync
  let valid ← isFullyParseableFile C key .main
  retireMain valid
  match ← Io.attempt (rename .tmp .main) with
  | .ok () => pure ()
  | .error promoteError => do
    if valid then
      if ← present .bak then underFaults restore (copy .bak .main)
    Io.throw promoteError

end Files

/-! ## The store in use -/

/-- A flush between its sections: the batch, and whether it has been written. -/
structure Flight where
  batch : FlushBatch
  written : Bool
  deriving DecidableEq, Repr

structure KlineWorld where
  dir : KlineDir
  series : BufferedSeries
  flight : Option Flight

/-- A new process on a directory. -/
def KlineWorld.open (dir : KlineDir) : KlineWorld := ⟨dir, .default, none⟩

inductive KlineAct
  | load
  | upsert (bars : List Kline)
  | prepare
  | write (faults restore : List Fault)
  | acknowledge
  | restart

namespace KlineWorld

variable (C : LineCodec Kline) (key : ChartWorkspaceKey)

/-- `ensure_loaded`; a directory that cannot be read leaves the series unloaded. -/
def ensureLoaded (w : KlineWorld) : KlineWorld :=
  if w.series.loaded then w
  else
    match loadFromDisk C key w.dir [] with
    | .ok loaded _ _ => { w with
        series := { w.series with
          loaded := true
          bars := loaded.bars
          physicalRecords := loaded.physicalRecords
          compactionRevision :=
            if loaded.recoveredFallback ∨ compactPhysicalRecords < loaded.physicalRecords then some w.series.revision
            else w.series.compactionRevision } }
    | _ => w

/-- The disk write of a flush. A write that fails ends it; in one that the process dies
in, memory is lost. -/
def writeBatch (w : KlineWorld) (batch : FlushBatch) (faults restore : List Fault) : KlineWorld :=
  match (if batch.compact then compactBatch C key batch restore else appendBatch C batch) w.dir faults with
  | .ok () dir _ => { w with dir := dir, flight := some ⟨batch, true⟩ }
  | .err _ dir _ => { w with dir := dir, flight := none }
  | .crashed dir => .open dir

/-- An upsert or a flush comes after its `ensure_loaded`, and the flushes of a key one
after the other. -/
def step (w : KlineWorld) : KlineAct → KlineWorld
  | .load => w.ensureLoaded C key
  | .upsert bars =>
    if w.series.loaded then
      match w.series.upsertBars key bars with
      | .ok (s, _) => { w with series := s }
      | .error _ => w
    else w
  | .prepare =>
    match w.series.loaded, w.flight with
    | true, none => { w with flight := w.series.prepareFlush.map fun batch => ⟨batch, false⟩ }
    | _, _ => w
  | .write faults restore =>
    match w.flight with
    | some ⟨batch, false⟩ => w.writeBatch C key batch faults restore
    | _ => w
  | .acknowledge =>
    match w.flight with
    | some ⟨batch, true⟩ => { w with series := w.series.acknowledgeFlush batch, flight := none }
    | _ => w
  | .restart => .open w.dir

/-- `flush_key` with nothing between its sections, and whether it returns `Ok`. -/
def flushKey (w : KlineWorld) (faults restore : List Fault) : KlineWorld × Bool :=
  let w := (w.step C key .load).step C key .prepare
  match w.flight with
  | none => (w, w.series.loaded)
  | some _ =>
    let w := w.step C key (.write faults restore)
    (w.step C key .acknowledge, w.flight.isSome)

/-- The series a new store loads from the directory. -/
def fresh (dir : KlineDir) : Option Bars :=
  match loadFromDisk C key dir [] with
  | .ok loaded _ _ => some loaded.bars
  | _ => none

end KlineWorld

end EasiFlux
