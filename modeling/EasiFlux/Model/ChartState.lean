import EasiFlux.Lib.Codec
import EasiFlux.Lib.Results
import EasiFlux.Lib.Steps
import EasiFlux.Model.Accounts
import EasiFlux.Model.Config
import EasiFlux.Model.Klines

/-!
# Chart state

`services/chart_workspace.rs` on `storage/chart_state_store.rs`, for one key: the
view of the key and the preferences, each in a JSON file that is replaced through a
`.tmp` and a `.bak`. A save loads what is there, compares revisions and contents,
and writes or not. Both parts are stored in one way (`ChartPart`).

The calls of `save_value` run under faults, those that read do not. The latches of
the diagnostics are left out, and the locks, which a single caller never waits for.
-/

namespace EasiFlux.Chart

open CrashIo Results

/-! ## Data -/

/-- `CHART_WORKSPACE_SCHEMA_VERSION` -/
def chartWorkspaceSchemaVersion : ℕ := 1

inductive ChartPaneRef
  | candle
  | indicator (indicatorName : String)
  deriving DecidableEq, Repr

/-- `F` is `f64` up to `==`; JSON has no NaN. -/
structure ChartPointSnapshot (F : Type) where
  timestamp : Option ℤ
  dataIndex : Option ℤ
  value : Option F
  deriving DecidableEq, Repr

/-- `V` is `serde_json::Value`. -/
structure ChartOverlaySnapshot (F V : Type) where
  id : String
  groupId : String
  pane : ChartPaneRef
  name : String
  lock : Bool
  visible : Bool
  zLevel : ℤ
  mode : String
  modeSensitivity : F
  points : List (ChartPointSnapshot F)
  extendData : V
  styles : V
  deriving DecidableEq, Repr

structure ChartViewportSnapshot (F : Type) where
  barSpace : Option F
  rightTimestamp : Option ℤ
  deriving DecidableEq, Repr

structure ChartViewStateV1 (F V : Type) where
  schemaVersion : ℕ
  symbol : String
  interval : String
  revision : ℕ
  savedAtMs : ℤ
  overlays : List (ChartOverlaySnapshot F V)
  viewport : ChartViewportSnapshot F
  deriving DecidableEq, Repr

structure ChartPreferencesV1 where
  schemaVersion : ℕ
  revision : ℕ
  savedAtMs : ℤ
  mainIndicators : List String
  subIndicators : List String
  deriving DecidableEq, Repr

def klineIntervals : List String := ["1", "5", "15", "60", "240", "D"]

/-- `char::to_ascii_uppercase` -/
def toAsciiUppercase (c : Char) : Char := if c.isLower then c.toUpper else c

/-- `ChartWorkspaceKey::parse` -/
def parseKey (symbol interval : String) : AppResult ChartWorkspaceKey :=
  let symbol := String.ofList ((trim symbol).toList.map toAsciiUppercase)
  let interval := trim interval
  let validSymbol := 1 ≤ byteLen symbol ∧ byteLen symbol ≤ 64 ∧
    symbol.toList.all fun c => c.isUpper || c.isDigit || c == '_' || c == '-'
  if ¬validSymbol then
    .error (.storage "symbol must be 1-64 uppercase ASCII letters, digits, underscores, or hyphens")
  else if interval ∉ klineIntervals then .error (.storage "unsupported chart interval")
  else .ok ⟨symbol, interval⟩

/-- One stored document with a revision and the time it was saved at. -/
structure ChartPart (P : Type) where
  label : String
  revision : P → ℕ
  savedAtMs : P → ℤ
  /-- `saved_at_ms` set -/
  stamp : ℤ → P → P
  /-- `revision` and `saved_at_ms` set to 0 -/
  erase : P → P
  validate : P → AppResult Unit
  /-- what is returned when nothing can be read -/
  default : P
  revision_stamp : ∀ ms p, revision (stamp ms p) = revision p
  erase_stamp : ∀ ms p, erase (stamp ms p) = erase p
  validate_stamp : ∀ ms p, validate (stamp ms p) = validate p
  revision_default : revision default = 0

/-- `serde_json::to_vec_pretty` and `serde_json::from_slice` on a document. An object's
text is refused when its end is missing. A value need not be read back as it was:
the last digit of a float may differ. -/
structure StateText (P : Type) where
  toVecPretty : P → Bytes
  fromSlice : Bytes → Option P
  fromSlice_torn : ∀ p k, k < (toVecPretty p).length → fromSlice ((toVecPretty p).take k) = none

/-! ## The files -/

inductive StatePath
  | main
  | temp
  | backup
  deriving DecidableEq, Repr

abbrev StateDir := Machine StatePath Empty

/-- The text of the error is the system's. -/
def storageError {α : Type} (call : Io StateDir IoErr α) : Io StateDir AppError α :=
  Io.mapErr (fun _ => .storage "io") call

namespace ChartStateStore

section

variable {P : Type} (S : ChartPart P) (J : StateText P)

def readCandidate (path : StatePath) : Io StateDir AppError P := do
  let bytes ← storageError (CrashIo.read path)
  let value ← Io.lift (okOr (J.fromSlice bytes) (.storage "json"))
  Io.lift (S.validate value)
  pure value

def candidateIsValid (path : StatePath) : Io StateDir AppError Bool := do
  match ← Io.attempt (readCandidate S J path) with
  | .ok _ => pure true
  | .error _ => pure false

/-- The loop of `load_candidates` over the paths that are left. -/
def loadFrom : List StatePath → Bool → Io StateDir AppError (Option P)
  | [], foundCandidate =>
    if foundCandidate then Io.throw (.storage "no valid chart state candidate") else pure none
  | path :: rest, foundCandidate => do
    match ← Io.attempt (stat path) with
    | .error .notFound => loadFrom rest foundCandidate
    | .error _ => loadFrom rest true
    | .ok () => do
      match ← Io.attempt (readCandidate S J path) with
      | .ok value => pure (some value)
      | .error _ => loadFrom rest true

def loadCandidates : Io StateDir AppError (Option P) := loadFrom S J [.main, .temp, .backup] false

/-- On Unix the directory is opened and synced. -/
def syncParentDirectory : Io StateDir AppError Unit := storageError sync

def writeAndSync (bytes : Bytes) : Io StateDir AppError Unit := do
  storageError (openTruncate .temp)
  storageError (writeAll .temp bytes)
  storageError sync

def removeIfPresent (path : StatePath) : Io StateDir AppError Unit := do
  match ← Io.attempt (remove path) with
  | .ok () => syncParentDirectory
  | .error .notFound => pure ()
  | .error _ => Io.throw (.storage "io")

def removeOldBackupIfPresent : Io StateDir AppError Unit := removeIfPresent .backup

def removeInvalidMainIfPresent : Io StateDir AppError Unit := removeIfPresent .main

def renameAndSync (source target : StatePath) : Io StateDir AppError Unit := do
  storageError (rename source target)
  syncParentDirectory

def renameTempToMainOrRestoreBackup (backupIsValid : Bool) : Io StateDir AppError Unit := do
  match ← Io.attempt (renameAndSync .temp .main) with
  | .ok () => pure ()
  | .error replaceError =>
    if backupIsValid then do
      Io.ignore (renameAndSync .backup .main)
      Io.throw replaceError
    else Io.throw replaceError

/-- The main file is put aside if it could be read, and removed if not. -/
def clearMain (mainIsValid : Bool) : Io StateDir AppError Unit :=
  if mainIsValid then do
    removeOldBackupIfPresent
    renameAndSync .main .backup
  else removeInvalidMainIfPresent

def saveValue (value : P) : Io StateDir AppError Unit := do
  let mainIsValid ← candidateIsValid S J .main
  let backupIsValid ← candidateIsValid S J .backup
  storageError sync
  writeAndSync (J.toVecPretty value)
  clearMain mainIsValid
  renameTempToMainOrRestoreBackup (mainIsValid || backupIsValid)

/-- `save_view` and `save_preferences`. The former parses the key of the view again. -/
def save (value : P) : Io StateDir AppError Unit := do
  Io.lift (S.validate value)
  saveValue S J value

end

end ChartStateStore

/-! ## The service -/

structure PartSaveResult where
  saved : Bool
  revision : ℕ
  savedAtMs : ℤ
  wrote : Bool
  error : Option String
  deriving DecidableEq, Repr

namespace PartSaveResult

def success (revision : ℕ) (savedAtMs : ℤ) (wrote : Bool) : PartSaveResult := ⟨true, revision, savedAtMs, wrote, none⟩

def conflict (revision : ℕ) (savedAtMs : ℤ) (error : String) : PartSaveResult := ⟨false, revision, savedAtMs, false, some error⟩

def failed (revision : ℕ) (savedAtMs : ℤ) (error : String) : PartSaveResult := conflict revision savedAtMs error

end PartSaveResult

def revisionConflict (part : String) (durable requested : ℕ) : String :=
  "chart " ++ part ++ " revision conflict: durable revision " ++ toString durable ++ ", requested revision " ++ toString requested

section Parts

variable {P : Type} [DecidableEq P] (S : ChartPart P) (J : StateText P)

/-- `same_view_content`, `same_preferences_content` -/
def sameContent (left right : P) : Bool := S.erase left = S.erase right

/-- The answer to a request for which nothing is written. -/
def answered (durable : Option P) (requested : P) : Option PartSaveResult :=
  match durable with
  | none => none
  | some d =>
    if S.revision requested < S.revision d then
      some (.conflict (S.revision d) (S.savedAtMs d) (revisionConflict S.label (S.revision d) (S.revision requested)))
    else if S.revision requested = S.revision d then
      if sameContent S d requested then some (.success (S.revision d) (S.savedAtMs d) false)
      else some (.conflict (S.revision d) (S.savedAtMs d) (revisionConflict S.label (S.revision d) (S.revision requested)))
    else none

/-- `save_view_part` and `save_preferences_part`; the writes run under the faults. -/
def savePart (faults : List Fault) (requested : Option P) (nowMs : ℤ) : Io StateDir AppError PartSaveResult := do
  let loaded ← Io.attempt (Io.under [] (ChartStateStore.loadCandidates S J))
  let durable := loaded.toOption.join
  let durableRevision := (durable.map S.revision).getD 0
  let durableSavedAt := (durable.map S.savedAtMs).getD 0
  match requested with
  | none => pure (.success durableRevision durableSavedAt false)
  | some requested =>
    match answered S durable requested with
    | some answer => pure answer
    | none => do
      match ← Io.attempt (Io.under faults (ChartStateStore.save S J (S.stamp nowMs requested))) with
      | .ok () => pure (.success (S.revision requested) nowMs true)
      | .error error => pure (.failed durableRevision durableSavedAt error.userMessage)

/-- `load_view_or_default` and `load_preferences_or_default` -/
def loadOrDefault : Io StateDir AppError P := do
  let loaded ← Io.attempt (ChartStateStore.loadCandidates S J)
  pure (loaded.toOption.join.getD S.default)

end Parts

def validateSchema (schemaVersion : ℕ) : AppResult Unit :=
  ensure (schemaVersion = chartWorkspaceSchemaVersion)
    (.storage ("unsupported chart state schema version " ++ toString schemaVersion))

section Service

variable {F V : Type} [DecidableEq F] [DecidableEq V] (key : ChartWorkspaceKey)

def validateView (state : ChartViewStateV1 F V) : AppResult Unit := do
  validateSchema state.schemaVersion
  ensure (state.symbol = key.symbol ∧ state.interval = key.interval)
    (.storage ("chart state key mismatch: expected " ++ key.symbol ++ "_" ++ key.interval ++ ", found " ++ state.symbol ++ "_" ++
      state.interval))

def validatePreferences (preferences : ChartPreferencesV1) : AppResult Unit := validateSchema preferences.schemaVersion

def defaultViewState : ChartViewStateV1 F V where
  schemaVersion := chartWorkspaceSchemaVersion
  symbol := key.symbol
  interval := key.interval
  revision := 0
  savedAtMs := 0
  overlays := []
  viewport := ⟨none, none⟩

def defaultPreferences : ChartPreferencesV1 where
  schemaVersion := chartWorkspaceSchemaVersion
  revision := 0
  savedAtMs := 0
  mainIndicators := ["MA", "EMA"]
  subIndicators := ["VOL", "MACD"]

def viewPart : ChartPart (ChartViewStateV1 F V) where
  label := "view"
  revision := (·.revision)
  savedAtMs := (·.savedAtMs)
  stamp ms state := { state with savedAtMs := ms }
  erase state := { state with revision := 0, savedAtMs := 0 }
  validate := validateView key
  default := defaultViewState key
  revision_stamp _ _ := rfl
  erase_stamp _ _ := rfl
  validate_stamp _ _ := rfl
  revision_default := rfl

def preferencesPart : ChartPart ChartPreferencesV1 where
  label := "preferences"
  revision := (·.revision)
  savedAtMs := (·.savedAtMs)
  stamp ms preferences := { preferences with savedAtMs := ms }
  erase preferences := { preferences with revision := 0, savedAtMs := 0 }
  validate := validatePreferences
  default := defaultPreferences
  revision_stamp _ _ := rfl
  erase_stamp _ _ := rfl
  validate_stamp _ _ := rfl
  revision_default := rfl

structure SaveChartWorkspaceRequest (F V : Type) where
  key : ChartWorkspaceKey
  viewState : Option (ChartViewStateV1 F V)
  preferences : Option ChartPreferencesV1

structure ChartWorkspaceSaveResult where
  key : ChartWorkspaceKey
  viewRevision : ℕ
  preferencesRevision : ℕ
  savedAtMs : ℤ
  klineSaved : Bool
  viewStateSaved : Bool
  preferencesSaved : Bool
  klineError : Option String
  viewStateError : Option String
  preferencesError : Option String

structure ChartWorkspaceSnapshot (F V : Type) where
  key : ChartWorkspaceKey
  klines : List Kline
  viewState : ChartViewStateV1 F V
  preferences : ChartPreferencesV1

/-- The files of the view of a key and of the preferences. -/
structure ChartDirs where
  view : StateDir
  preferences : StateDir

/-- The faults of the two parts of a save. -/
structure ChartFaults where
  view : List Fault
  preferences : List Fault

def validateSaveRequest (request : SaveChartWorkspaceRequest F V) : AppResult Unit := do
  match request.viewState with
  | none => pure ()
  | some viewState => validateView key viewState
  match request.preferences with
  | none => pure ()
  | some preferences => validatePreferences preferences

variable (J : StateText (ChartViewStateV1 F V)) (K : StateText ChartPreferencesV1)

def onView {α : Type} (m : Io StateDir AppError α) : Io ChartDirs AppError α :=
  Io.within ChartDirs.view (fun d view => { d with view := view }) m

def onPreferences {α : Type} (m : Io StateDir AppError α) : Io ChartDirs AppError α :=
  Io.within ChartDirs.preferences (fun d preferences => { d with preferences := preferences }) m

namespace ChartWorkspaceService

/-- `load`, given what the kline store answers. -/
def load (rawKey : ChartWorkspaceKey) (start stop : Option ℤ) (limit : Option ℕ)
    (loadRange : Option ℤ → Option ℤ → ℕ → AppResult (List Kline)) : Io ChartDirs AppError (ChartWorkspaceSnapshot F V) := do
  let key ← Io.lift (parseKey rawKey.symbol rawKey.interval)
  Io.lift (ensure (¬∃ a ∈ start, ∃ b ∈ stop, a > b) (.storage "kline range start exceeds end"))
  let defaultLimit := if start.isNone ∧ stop.isNone then 200 else 10000
  let limit := (limit.map fun value => min (max value 1) 10000).getD defaultLimit
  let klines ← Io.lift (loadRange start stop limit)
  let viewState ← onView (loadOrDefault (viewPart key) J)
  let preferences ← onPreferences (loadOrDefault preferencesPart K)
  pure ⟨key, klines, viewState, preferences⟩

/-- `save`, given what the flush of the klines answers. -/
def save (faults : ChartFaults) (request : SaveChartWorkspaceRequest F V) (klineResult : AppResult Bool) (nowMs : ℤ) :
    Io ChartDirs AppError ChartWorkspaceSaveResult := do
  let key ← Io.lift (parseKey request.key.symbol request.key.interval)
  Io.lift (validateSaveRequest key request)
  let klineWrote := klineResult.toOption.getD false
  let view ← onView (savePart (viewPart key) J faults.view request.viewState nowMs)
  let preferences ← onPreferences (savePart preferencesPart K faults.preferences request.preferences nowMs)
  pure
    { key := key
      viewRevision := view.revision
      preferencesRevision := preferences.revision
      savedAtMs := if klineWrote || view.wrote || preferences.wrote then nowMs else max view.savedAtMs preferences.savedAtMs
      klineSaved := klineResult.toBool
      viewStateSaved := view.saved
      preferencesSaved := preferences.saved
      klineError := match klineResult with | .ok _ => none | .error error => some error.userMessage
      viewStateError := view.error
      preferencesError := preferences.error }

end ChartWorkspaceService

end Service

/-! ## Runs -/

section Runs

variable {F V : Type} [DecidableEq F] [DecidableEq V]

/-- A call on the service. -/
inductive ChartCall (F V : Type)
  | load (rawKey : ChartWorkspaceKey) (start stop : Option ℤ) (limit : Option ℕ)
      (loadRange : Option ℤ → Option ℤ → ℕ → AppResult (List Kline))
  | save (faults : ChartFaults) (request : SaveChartWorkspaceRequest F V) (klineResult : AppResult Bool) (nowMs : ℤ)

/-- The files after a call on the key. A process that died is started again. -/
def ChartDirs.step (key : ChartWorkspaceKey) (J : StateText (ChartViewStateV1 F V)) (K : StateText ChartPreferencesV1)
    (w : ChartDirs) : ChartCall F V → ChartDirs
  | .load rawKey start stop limit loadRange => (ChartWorkspaceService.load J K rawKey start stop limit loadRange w []).state
  | .save faults request klineResult nowMs =>
    if parseKey request.key.symbol request.key.interval = .ok key then
      (ChartWorkspaceService.save J K faults request klineResult nowMs w []).state
    else w

/-- No files. -/
def ChartDirs.init : ChartDirs := ⟨⟨∅, []⟩, ⟨∅, []⟩⟩

end Runs

/-! ## Faults of a save

Its calls: reading the main file and the backup, making the directory, opening the
temporary file, writing it and syncing it; putting the main file out of the way;
renaming the temporary file, and syncing the directory. -/

namespace ChartStateStore

/-- How much of its text a save leaves in the temporary file if it ends before the text is
written. -/
def cut : List Fault → Option ℕ
  | .crash _ :: _ => none
  | _ :: .crash _ :: _ => none
  | _ :: _ :: fs => Storage.ConfigPersistence.torn fs
  | _ => none

/-- A renaming is done, even if the process dies in it. -/
def goesThrough : List Fault → Bool
  | .fail _ :: _ => false
  | .crash 0 :: _ => false
  | _ => true

/-- The last renaming or its sync fails, and the backup is put back. -/
def undone : List Fault → Bool
  | .fail _ :: fs => goesThrough fs
  | .pass :: .fail _ :: fs => goesThrough fs
  | _ => false

/-- The main file is removed, if it is there, and the last renaming is undone. -/
def undoneAfter (mainThere : Bool) (fs : List Fault) : Bool :=
  match mainThere, fs with
  | true, .pass :: .pass :: fs => undone fs
  | false, .pass :: fs => undone fs
  | _, _ => false

/-- The main file is not read, though it may be there, and all goes well up to the last
renaming, which is undone. -/
def restores (mainThere : Bool) : List Fault → Bool
  | first :: .pass :: .pass :: .pass :: .pass :: .pass :: fs =>
    (match first with
      | .pass => !mainThere
      | .fail _ => true
      | .crash _ => false) && undoneAfter mainThere fs
  | _ => false

end ChartStateStore

end EasiFlux.Chart
