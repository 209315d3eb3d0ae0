import EasiFlux.Model.SafeDocument

/-!
# The configuration file

`storage/config.rs` on `storage/config_persistence.rs`. The configuration is one
TOML text. A save writes `.tmp`, puts the old file aside as `.bak` and renames
`.tmp` over it; a load takes the first of the main file, `.tmp` and `.bak` that
parses. Every key of the text has a default.

The names are those of regular files; the store keeps nothing in memory, so a
restart changes nothing here.
-/

namespace EasiFlux.Storage

open CrashIo Results

inductive ThemeMode
  | dark
  | light
  deriving DecidableEq, Repr

structure NotificationSettings where
  tradingToast : Bool := true
  riskAccountToast : Bool := true
  connectionSystemToast : Bool := true
  deriving DecidableEq, Repr

/-- `models::config::AppConfig`. `F` is `f64`, with one value for all NaN of a sign. -/
structure AppConfig (F : Type) where
  activeSymbol : String
  activeAccountId : String
  watchlistSymbols : List String
  theme : ThemeMode
  klineInterval : String
  useWebsocket : Bool
  wsPublicUrl : String
  wsPrivateUrl : String
  tickerPollInterval : F
  windowWidth : UInt32
  windowHeight : UInt32
  accounts : List String
  riskEnabled : Bool
  riskMaxOrderQty : String
  riskMaxPriceDeviationPct : String
  riskMaxDailyOrders : UInt32
  tradingDayTimezone : String
  notificationSettings : NotificationSettings
  deriving DecidableEq

/-- The text's fields. A key that is missing takes the value given here. -/
structure TomlConfig (F : Type) [One F] where
  activeSymbol : String := "BTCUSDT"
  activeAccountId : String := "default"
  watchlistSymbols : List String := ["BTCUSDT", "ETHUSDT", "SOLUSDT", "XRPUSDT"]
  theme : String := ""
  klineInterval : String := "1"
  useWebsocket : Bool := true
  wsPublicUrl : String := "wss://ws.easicoin.io/contract/public/v1"
  wsPrivateUrl : String := "wss://ws.easicoin.io/contract/private/v1"
  tickerPollInterval : F := 1
  windowWidth : UInt32 := 1400
  windowHeight : UInt32 := 900
  accounts : List String := ["default"]
  riskEnabled : Bool := true
  riskMaxOrderQty : String := "100"
  riskMaxPriceDeviationPct : String := "5"
  riskMaxDailyOrders : UInt32 := 500
  tradingDayTimezone : String := "Asia/Shanghai"
  notificationSettings : NotificationSettings := {}
  deriving DecidableEq

variable {F : Type} [One F]

/-- `AppConfig::default` -/
def AppConfig.default : AppConfig F where
  activeSymbol := "BTCUSDT"
  activeAccountId := "default"
  watchlistSymbols := ["BTCUSDT", "ETHUSDT", "SOLUSDT", "XRPUSDT"]
  theme := .dark
  klineInterval := "1"
  useWebsocket := true
  wsPublicUrl := "wss://ws.easicoin.io/contract/public/v1"
  wsPrivateUrl := "wss://ws.easicoin.io/contract/private/v1"
  tickerPollInterval := 1
  windowWidth := 1400
  windowHeight := 900
  accounts := ["default"]
  riskEnabled := true
  riskMaxOrderQty := "100"
  riskMaxPriceDeviationPct := "5"
  riskMaxDailyOrders := 500
  tradingDayTimezone := "Asia/Shanghai"
  notificationSettings := {}

/-- `impl From<TomlConfig> for AppConfig` -/
def TomlConfig.toApp (t : TomlConfig F) : AppConfig F where
  activeSymbol := t.activeSymbol
  activeAccountId := t.activeAccountId
  watchlistSymbols := t.watchlistSymbols
  theme := if t.theme = "light" then .light else .dark
  klineInterval := t.klineInterval
  useWebsocket := t.useWebsocket
  wsPublicUrl := t.wsPublicUrl
  wsPrivateUrl := t.wsPrivateUrl
  tickerPollInterval := t.tickerPollInterval
  windowWidth := t.windowWidth
  windowHeight := t.windowHeight
  accounts := t.accounts
  riskEnabled := t.riskEnabled
  riskMaxOrderQty := t.riskMaxOrderQty
  riskMaxPriceDeviationPct := t.riskMaxPriceDeviationPct
  riskMaxDailyOrders := t.riskMaxDailyOrders
  tradingDayTimezone := t.tradingDayTimezone
  notificationSettings := t.notificationSettings

/-- `impl From<&AppConfig> for TomlConfig` -/
def TomlConfig.ofApp (c : AppConfig F) : TomlConfig F where
  activeSymbol := c.activeSymbol
  activeAccountId := c.activeAccountId
  watchlistSymbols := c.watchlistSymbols
  theme := match c.theme with | .dark => "dark" | .light => "light"
  klineInterval := c.klineInterval
  useWebsocket := c.useWebsocket
  wsPublicUrl := c.wsPublicUrl
  wsPrivateUrl := c.wsPrivateUrl
  tickerPollInterval := c.tickerPollInterval
  windowWidth := c.windowWidth
  windowHeight := c.windowHeight
  accounts := c.accounts
  riskEnabled := c.riskEnabled
  riskMaxOrderQty := c.riskMaxOrderQty
  riskMaxPriceDeviationPct := c.riskMaxPriceDeviationPct
  riskMaxDailyOrders := c.riskMaxDailyOrders
  tradingDayTimezone := c.tradingDayTimezone
  notificationSettings := c.notificationSettings

/-- What is written is what is read back. -/
@[simp] theorem TomlConfig.toApp_ofApp (c : AppConfig F) : (TomlConfig.ofApp c).toApp = c := by
  obtain ⟨_, _, _, theme⟩ := c
  cases theme <;> rfl

/-- The defaults of the keys are the default configuration. -/
theorem TomlConfig.toApp_default : ({} : TomlConfig F).toApp = AppConfig.default := rfl

/-- `toml::to_string_pretty` and `toml::from_str`, the reading as UTF-8 included. The
empty text has every key missing. -/
structure TomlText (F : Type) [One F] where
  toStringPretty : TomlConfig F → Option Bytes
  fromStr : Bytes → Option (TomlConfig F)
  fromStr_toString : ∀ t b, toStringPretty t = some b → fromStr b = some t
  fromStr_empty : fromStr [] = some {}

inductive ConfigPath
  | main
  | temp
  | backup
  deriving DecidableEq, Repr

abbrev ConfigDir := Machine ConfigPath Empty

abbrev ConfigIo := Io ConfigDir IoErr

namespace ConfigPersistence

/-- The loop of `load` over the candidates that are left. -/
def loadFrom {T : Type} (parse : Bytes → AppResult T) :
    List (String × ConfigPath) → List String → Io ConfigDir AppError (Option T)
  | [], [] => pure none
  | [], invalidCandidates =>
    Io.throw (.config ("配置文件及恢复副本均不可用：" ++ "、".intercalate invalidCandidates))
  | (label, candidate) :: rest, invalidCandidates => do
    match ← Io.attempt (stat candidate) with
    | .error .notFound => loadFrom parse rest invalidCandidates
    | .error _ => loadFrom parse rest (invalidCandidates ++ [label])
    | .ok () => do
      match ← Io.attempt (CrashIo.read candidate) with
      | .error _ => loadFrom parse rest (invalidCandidates ++ [label])
      | .ok text =>
        match parse text with
        | .ok config => pure (some config)
        | .error _ => loadFrom parse rest (invalidCandidates ++ [label])

def candidates : List (String × ConfigPath) := [("主配置", .main), ("临时副本", .temp), ("备份", .backup)]

def load {T : Type} (parse : Bytes → AppResult T) : Io ConfigDir AppError (Option T) :=
  loadFrom parse candidates []

def writeTemp (contents : Bytes) : ConfigIo Unit := do
  openTruncate .temp
  writeAll .temp contents
  sync

def removeOldBackup : ConfigIo Unit := do
  match ← Io.attempt (remove .backup) with
  | .ok () => pure ()
  | .error .notFound => pure ()
  | .error e => Io.throw e

/-- The new file takes the main file's name, or the old one gets it back. -/
def installTemp : ConfigIo Unit := do
  match ← Io.attempt (rename .temp .main) with
  | .ok () => pure ()
  | .error replaceError => do
    Io.ignore (rename .backup .main)
    Io.throw replaceError

def replaceExistingMain : ConfigIo Unit := do
  removeOldBackup
  rename .main .backup
  installTemp

def replaceMain : ConfigIo Unit := do
  match ← Io.attempt (stat .main) with
  | .ok () => replaceExistingMain
  | .error .notFound => rename .temp .main
  | .error e => Io.throw e

def save (contents : Bytes) : ConfigIo Unit := do
  -- the directory
  sync
  writeTemp contents
  replaceMain

end ConfigPersistence

namespace ConfigStore

variable (T : TomlText F)

def parse (text : Bytes) : AppResult (AppConfig F) := do
  let tomlCfg ← okOr (T.fromStr text) (.config "toml")
  pure tomlCfg.toApp

def load : Io ConfigDir AppError (AppConfig F) := do
  let config ← ConfigPersistence.load (parse T)
  pure (config.getD AppConfig.default)

def save (config : AppConfig F) : Io ConfigDir AppError Unit := do
  let text ← Io.lift (okOr (T.toStringPretty (TomlConfig.ofApp config)) (.config "toml"))
  Io.mapErr (fun _ => .internal "io") (ConfigPersistence.save text)

end ConfigStore

/-! ## Runs -/

/-- The files, the configurations passed to `save` from the last one on that it
returned `Ok` for, newest first, and whether there is one. -/
structure ConfigRun (F : Type) where
  dir : ConfigDir
  recent : List (AppConfig F)
  acked : Bool

/-- One call. The calls of a save may fail, or the process die in one of them. -/
def ConfigRun.step (T : TomlText F) (w : ConfigRun F) (c : StoreCall (AppConfig F) × List Fault) : ConfigRun F :=
  match c.1 with
  | .load => { w with dir := (ConfigStore.load T w.dir []).state }
  | .save config =>
    match ConfigStore.save T config w.dir c.2 with
    | .ok _ dir _ => { dir := dir, recent := [config], acked := true }
    | .err _ dir _ | .crashed dir => { w with dir := dir, recent := config :: w.recent }

/-- An empty directory. -/
def ConfigRun.init : ConfigRun F := ⟨⟨∅, []⟩, [], false⟩

def ConfigRun.after (T : TomlText F) (calls : List (StoreCall (AppConfig F) × List Fault)) : ConfigRun F :=
  Steps.run (ConfigRun.step T) ConfigRun.init calls

/-- How much of its text a save leaves in the temporary file if it ends before the
text is written: its calls are making the directory, opening the file, which
empties it, and the write. -/
def ConfigPersistence.torn : List Fault → Option ℕ
  | .pass :: .crash (_ + 1) :: _ => some 0
  | .pass :: .pass :: .fail k :: _ => some k
  | .pass :: .pass :: .crash k :: _ => some k
  | _ => none

/-- No save is cut short in its temporary file, with the main file missing, at a point
where the text reads as some other configuration. Before a save was acknowledged it
may read as the default one. -/
def ConfigRun.Whole (T : TomlText F) (w : ConfigRun F) (c : StoreCall (AppConfig F) × List Fault) : Prop :=
  match c.1 with
  | .load => True
  | .save config => w.dir.get .main = none → ∀ k text t, ConfigPersistence.torn c.2 = some k →
      T.toStringPretty (TomlConfig.ofApp config) = some text → T.fromStr (text.take k) = some t →
      t.toApp = config ∨ (w.acked = false ∧ t.toApp = AppConfig.default)

end EasiFlux.Storage
