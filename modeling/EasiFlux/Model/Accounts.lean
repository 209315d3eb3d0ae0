import EasiFlux.Lib.CrashIo
import EasiFlux.Model.Execution

/-!
# Account mutations

`services/account_profiles`: switching to another account, deleting one and saving its
credentials. Each is a transaction over a port that reads and writes the runtime
configuration, the stored one, the keyring and the live connection; what it has done is
undone by hand when a later call fails.

A port call goes through or fails as the script says, and one that fails has no effect
(`portCall`). The calls of an operation that failed are kept in `failures`, with the
errors they returned. The parser of base URLs is the `url` crate's.
-/

namespace EasiFlux

open CrashIo

/-! ## Data -/

/-- `str::trim` -/
def trim (s : String) : String :=
  String.ofList ((s.toList.dropWhile isWhitespace).reverse.dropWhile isWhitespace).reverse

/-- `trim_end_matches('/')` -/
def trimSlashes (s : String) : String := String.ofList (s.toList.reverse.dropWhile (· == '/')).reverse

def defaultBaseUrl : String := "https://api.easicoin.io"

inductive ConnectionStatus
  | disconnected
  | connecting
  | connected
  | error
  deriving DecidableEq, Repr

structure ApiCredential where
  apiKey : String
  apiSecret : String
  baseUrl : String
  label : String
  deriving DecidableEq, Repr

structure AppConfig where
  activeAccountId : String
  useWebsocket : Bool
  accounts : List String
  deriving DecidableEq, Repr

namespace AppConfig

/-- Another account is the active one. -/
def retarget (c : AppConfig) (activeAccountId : String) (accounts : List String) : AppConfig :=
  { c with activeAccountId := activeAccountId, accounts := accounts }

@[simp] theorem retarget_active (c : AppConfig) (id : String) (accounts : List String) :
    (c.retarget id accounts).activeAccountId = id := rfl

@[simp] theorem retarget_accounts (c : AppConfig) (id : String) (accounts : List String) :
    (c.retarget id accounts).accounts = accounts := rfl

end AppConfig

structure SaveCredentialRequest where
  accountId : String
  apiKey : String
  apiSecret : String
  baseUrl : String
  label : String
  deriving DecidableEq, Repr

structure AccountSwitchResult where
  activeAccountId : String
  connected : Bool
  sessionEpoch : ℕ
  deriving DecidableEq, Repr

inductive DeleteAccountWarningCode
  | notificationCleanupPending
  deriving DecidableEq, Repr

structure DeleteAccountResult where
  notificationCleanupPending : Bool
  warningCode : Option DeleteAccountWarningCode
  deriving DecidableEq, Repr

def DeleteAccountResult.complete : DeleteAccountResult := ⟨false, none⟩

def DeleteAccountResult.cleanupPending : DeleteAccountResult := ⟨true, some .notificationCleanupPending⟩

/-- A URL as the `url` crate takes it apart. -/
structure Url where
  scheme : String
  username : String
  password : Option String
  host : Option String
  port : Option ℕ
  path : String
  query : Option String
  fragment : Option String
  deriving DecidableEq, Repr

/-- The `url` crate. -/
structure UrlCrate where
  parse : String → Option Url
  setPath : Url → String → Url
  toText : Url → String

def canonicalApiBaseUrl (U : UrlCrate) (value : String) : Option String := do
  let trimmed := trim value
  let url ← U.parse (if trimmed = "" then defaultBaseUrl else trimmed)
  if (url.scheme ≠ "http" ∧ url.scheme ≠ "https") ∨ url.username ≠ "" ∨ url.password.isSome ∨ url.query.isSome ∨
      url.fragment.isSome ∨ url.host.isNone then none
  else
    let url := if (url.scheme = "https" ∧ url.port = some 443) ∨ (url.scheme = "http" ∧ url.port = some 80)
      then { url with port := none } else url
    let url := U.setPath url (trimSlashes url.path)
    some (trimSlashes (U.toText url))

namespace ApiCredential

def normalize (U : UrlCrate) (c : ApiCredential) : ApiCredential :=
  { apiKey := trim c.apiKey
    apiSecret := trim c.apiSecret
    baseUrl :=
      if trim c.baseUrl = "" then defaultBaseUrl
      else (canonicalApiBaseUrl U (trim c.baseUrl)).getD (trim c.baseUrl)
    label := trim c.label }

def isValid (U : UrlCrate) (c : ApiCredential) : Bool :=
  c.apiKey ≠ "" && c.apiSecret ≠ "" && trim c.baseUrl ≠ "" && (canonicalApiBaseUrl U c.baseUrl).isSome

end ApiCredential

def normalizeAccountId (accountId : String) : String := if trim accountId = "" then "default" else trim accountId

/-- The loop of `normalize_account_ids`: each account once, where it stands first. -/
def distinctIds : List String → List String → List String
  | [], normalized => normalized
  | id :: rest, normalized =>
    if trim id = "" ∨ trim id ∈ normalized then distinctIds rest normalized else distinctIds rest (normalized ++ [trim id])

def normalizeAccountIds (accounts : List String) (activeAccountId : String) : List String :=
  let active := normalizeAccountId activeAccountId
  let normalized := distinctIds accounts []
  if active ∈ normalized then normalized else active :: normalized

/-! ## The port -/

/-- The connection, and the session it is up for. -/
structure Connection where
  status : ConnectionStatus
  session : Option SessionContext
  deriving DecidableEq, Repr

def Connection.down : Connection := ⟨.disconnected, none⟩

/-- The calls of `AccountLifecyclePort` that can fail. -/
inductive PortCall
  | persistConfig
  | loadCredential
  | saveCredential
  | deleteCredential
  | preflight
  | connect
  | deleteNotificationPartition
  deriving DecidableEq, Repr

structure FailedCall where
  call : PortCall
  error : AppError
  deriving DecidableEq

structure AccountPort where
  persisted : AppConfig
  runtime : AppConfig
  credentials : String → Option ApiCredential
  connection : Connection
  /-- what the live connection was made with -/
  link : Option (Bool × ApiCredential)
  publicEnvironment : Option ApiCredential
  activeSession : Option SessionContext
  dataClears : ℕ
  deletedPartitions : List String
  /-- the counter of the coordinator, an `AtomicU64` -/
  sessionEpoch : ℕ
  /-- the error of a call that fails -/
  answer : ℕ → AppError
  failures : List FailedCall

namespace AccountPort

def setRuntime (p : AccountPort) (config : AppConfig) : AccountPort := { p with runtime := config }

def setPersisted (p : AccountPort) (config : AppConfig) : AccountPort := { p with persisted := config }

def setCredential (p : AccountPort) (accountId : String) (credential : Option ApiCredential) : AccountPort :=
  { p with credentials := Function.update p.credentials accountId credential }

def setConnection (p : AccountPort) (connection : Connection) (link : Option (Bool × ApiCredential)) : AccountPort :=
  { p with connection := connection, link := link }

/-- These calls have failed. -/
def noteFailures (p : AccountPort) (failed : List FailedCall) : AccountPort := { p with failures := p.failures ++ failed }

/-- What a call that fails leaves. -/
def noteFailure (p : AccountPort) (call : PortCall) (n : ℕ) : AccountPort := p.noteFailures [⟨call, p.answer n⟩]

abbrev PortIo := Io AccountPort AppError

/-- A call that can fail. -/
def portCall {α : Type} (call : PortCall) (go : AccountPort → α × AccountPort) : PortIo α :=
  Io.call (fun p => (.ok (go p).1, (go p).2)) (fun n p => (p.answer n, p.noteFailure call n)) (fun _ p => p)

def readConfig : PortIo AppConfig := do
  let p ← Io.get
  pure p.runtime

def replaceRuntimeConfig (config : AppConfig) : PortIo Unit := Io.modify fun p => p.setRuntime config

def persistConfig (config : AppConfig) : PortIo Unit := portCall .persistConfig fun p => ((), p.setPersisted config)

def loadCredential (accountId : String) : PortIo (Option ApiCredential) := portCall .loadCredential fun p => (p.credentials accountId, p)

def saveCredential (accountId : String) (credential : ApiCredential) : PortIo Unit :=
  portCall .saveCredential fun p => ((), p.setCredential accountId (some credential))

def deleteCredential (accountId : String) : PortIo Unit :=
  portCall .deleteCredential fun p => ((), p.setCredential accountId none)

def connectionStatus : PortIo ConnectionStatus := do
  let p ← Io.get
  pure p.connection.status

def preflight (_ : ApiCredential) : PortIo Unit := portCall .preflight fun p => ((), p)

def disconnect : PortIo Unit := Io.modify fun p => p.setConnection .down none

def connect (accountId : String) (realtime : Bool) (credential : ApiCredential) (sessionEpoch : ℕ) : PortIo Unit :=
  portCall .connect fun p => ((), p.setConnection ⟨.connected, some ⟨accountId, sessionEpoch⟩⟩ (some (realtime, credential)))

def activatePublicEnvironment (credential : ApiCredential) : PortIo Unit :=
  Io.modify fun p => { p with publicEnvironment := some credential }

def activateSession (context : SessionContext) : PortIo Unit := Io.modify fun p => { p with activeSession := some context }

def clearAccountData : PortIo Unit := Io.modify fun p => { p with dataClears := p.dataClears + 1 }

def deleteNotificationPartition (accountId : String) : PortIo Unit :=
  portCall .deleteNotificationPartition fun p => ((), { p with deletedPartitions := p.deletedPartitions ++ [accountId] })

def currentSessionEpoch : PortIo ℕ := do
  let p ← Io.get
  pure p.sessionEpoch

/-- `saturating_add(1)` -/
def saturatingNext (epoch : ℕ) : ℕ := min (epoch + 1) (2 ^ 64 - 1)

/-- `fetch_add(1) + 1` -/
def wrappingNext (epoch : ℕ) : ℕ := (epoch + 1) % 2 ^ 64

def nextSessionEpoch : PortIo ℕ := do
  let p ← Io.get
  pure (saturatingNext p.sessionEpoch)

def advanceSessionEpoch : PortIo ℕ := do
  let p ← Io.get
  Io.modify fun p => { p with sessionEpoch := wrappingNext p.sessionEpoch }
  pure (wrappingNext p.sessionEpoch)

/-! ## The mutations -/

def safeLoad (accountId : String) : PortIo (Option ApiCredential) :=
  Io.mapErr (fun _ => AppError.auth "账户凭据不可用") (loadCredential accountId)

def validCredential (U : UrlCrate) (value : Option ApiCredential) : AppResult ApiCredential :=
  match value with
  | none => .error (.auth "未找到账户凭据")
  | some credential =>
    if (credential.normalize U).isValid U then .ok (credential.normalize U) else .error (.auth "账户凭据不可用")

def isNotified : AppError → Bool
  | .notified .. => true
  | _ => false

def recoveryRequired : AppError := .internal "ACCOUNT_SWITCH_RECOVERY_REQUIRED: 账户切换失败且恢复原账户失败"

/-- The error of a switch whose rollback failed too. -/
def rollbackFailure (primary : AppError) (errors : List AppError) : AppError :=
  match errors.find? isNotified with
  | some error => error
  | none => if isNotified primary then primary else recoveryRequired

/-- `if let Err(error) = … { errors.push(error) }` -/
def pushError (call : PortIo Unit) (errors : List AppError) : PortIo (List AppError) := do
  match ← Io.attempt call with
  | .ok () => pure errors
  | .error error => pure (errors ++ [error])

def rollbackSwitch (formerConfig : AppConfig) (formerStatus : ConnectionStatus) (formerCredential : Option ApiCredential)
    (primary : AppError) : PortIo AppError := do
  let errors ← pushError (persistConfig formerConfig) []
  replaceRuntimeConfig formerConfig
  let epoch ← currentSessionEpoch
  let errors ←
    match formerStatus, formerCredential with
    | .connected, some credential =>
      pushError (connect (normalizeAccountId formerConfig.activeAccountId) formerConfig.useWebsocket credential epoch) errors
    | _, _ => pure errors
  if errors = [] then pure primary
  else do
    disconnect
    pure (rollbackFailure primary errors)

/-- The credential the former account is brought back with. -/
def formerCredential (U : UrlCrate) (status : ConnectionStatus) (formerId : String) : PortIo (Option ApiCredential) :=
  if status = .connected then do
    let loaded ← safeLoad formerId
    let credential ← Io.lift (validCredential U loaded)
    pure (some credential)
  else pure none

/-- The end of a switch that went through. -/
def commitSwitch (targetId : String) (connected : Bool) : PortIo AccountSwitchResult := do
  clearAccountData
  let sessionEpoch ← advanceSessionEpoch
  activateSession ⟨targetId, sessionEpoch⟩
  pure ⟨targetId, connected, sessionEpoch⟩

/-- A switch that failed with `primary` after the former connection was closed. -/
def failSwitch (formerConfig : AppConfig) (formerStatus : ConnectionStatus) (former : Option ApiCredential) (primary : AppError) :
    PortIo AccountSwitchResult := do
  let error ← rollbackSwitch formerConfig formerStatus former primary
  Io.throw error

/-- The part of a switch that has effects. -/
def performSwitch (formerConfig targetConfig : AppConfig) (formerStatus : ConnectionStatus) (former : Option ApiCredential)
    (targetCredential : ApiCredential) (realtime : Bool) : PortIo AccountSwitchResult := do
  let targetId := targetConfig.activeAccountId
  disconnect
  match ← Io.attempt (persistConfig targetConfig) with
  | .error primary => failSwitch formerConfig formerStatus former primary
  | .ok () => do
    replaceRuntimeConfig targetConfig
    if formerStatus = .connected then do
      let sessionEpoch ← nextSessionEpoch
      match ← Io.attempt (connect targetId realtime targetCredential sessionEpoch) with
      | .error primary => failSwitch formerConfig formerStatus former primary
      | .ok () => commitSwitch targetId true
    else do
      activatePublicEnvironment targetCredential
      commitSwitch targetId false

def switchAccount (U : UrlCrate) (accountId : String) (startRealtime : Option Bool) : PortIo AccountSwitchResult := do
  let formerConfig ← readConfig
  let formerId := normalizeAccountId formerConfig.activeAccountId
  let targetId := normalizeAccountId accountId
  let formerStatus ← connectionStatus
  if targetId = formerId then do
    let sessionEpoch ← currentSessionEpoch
    pure ⟨formerId, formerStatus = .connected, sessionEpoch⟩
  else do
    let accounts := normalizeAccountIds formerConfig.accounts formerId
    if targetId ∉ accounts then Io.throw (.config "账户配置不存在")
    else do
      let loaded ← safeLoad targetId
      let targetCredential ← Io.lift (validCredential U loaded)
      preflight targetCredential
      let former ← formerCredential U formerStatus formerId
      performSwitch formerConfig (formerConfig.retarget targetId accounts) formerStatus former targetCredential
        (startRealtime.getD formerConfig.useWebsocket)

/-- The error of a mutation that could not put the credential back. -/
def credentialNotRestored (primary : AppError) : AppError := .internal s!"{primary.userMessage}；回滚失败：无法恢复账户凭据"

def deleteAccount (accountId : String) : PortIo DeleteAccountResult := do
  let config ← readConfig
  let active := normalizeAccountId config.activeAccountId
  let target := normalizeAccountId accountId
  let accounts := normalizeAccountIds config.accounts active
  if target = active then Io.throw (.config "不能删除当前账户")
  else if accounts.length ≤ 1 then Io.throw (.config "不能删除唯一账户")
  else if target ∉ accounts then Io.throw (.config "账户配置不存在")
  else do
    let formerCredential ← safeLoad target
    Io.mapErr (fun _ => AppError.auth "删除账户凭据失败") (deleteCredential target)
    let next := { config with accounts := accounts.filter (· ≠ target) }
    match ← Io.attempt (persistConfig next) with
    | .error primary =>
      match formerCredential with
      | none => Io.throw primary
      | some credential =>
        match ← Io.attempt (saveCredential target credential) with
        | .ok () => Io.throw primary
        | .error _ => Io.throw (credentialNotRestored primary)
    | .ok () => do
      replaceRuntimeConfig next
      match ← Io.attempt (deleteNotificationPartition target) with
      | .ok () => pure .complete
      | .error _ => pure .cleanupPending

/-- The credential that a request stands for; `existing` is the stored one. -/
def requestedCredential (U : UrlCrate) (accountId : String) (configured : Bool) (existing : Option ApiCredential)
    (request : SaveCredentialRequest) : AppResult ApiCredential := do
  let apiKey := trim request.apiKey
  let apiSecret := trim request.apiSecret
  if (apiKey = "") ≠ (apiSecret = "") then .error (.auth "API 访问密钥和签名密钥必须同时填写")
  else
    let credential ←
      if apiKey = "" ∧ configured then validCredential U existing
      else if apiKey = "" then .error (.auth "新账户必须填写 API 访问密钥和签名密钥")
      else .ok (ApiCredential.normalize U ⟨apiKey, apiSecret, request.baseUrl, request.label⟩)
    let credential := ApiCredential.normalize U { credential with baseUrl := request.baseUrl, label := request.label }
    let credential := if credential.label = "" then { credential with label := accountId } else credential
    if credential.isValid U then .ok credential else .error (.auth "API 服务地址无效")

def saveCredentials (U : UrlCrate) (request : SaveCredentialRequest) : PortIo Unit := do
  let accountId := normalizeAccountId request.accountId
  let config ← readConfig
  let configuredAccounts := normalizeAccountIds config.accounts config.activeAccountId
  let existing ← safeLoad accountId
  let credential ← Io.lift (requestedCredential U accountId (accountId ∈ configuredAccounts) existing request)
  Io.mapErr (fun _ => AppError.auth "保存账户凭据失败") (saveCredential accountId credential)
  let next := { config with
    accounts := if accountId ∈ configuredAccounts then configuredAccounts else configuredAccounts ++ [accountId] }
  match ← Io.attempt (persistConfig next) with
  | .error primary => do
    let restored ← Io.attempt (match existing with
      | some credential => saveCredential accountId credential
      | none => deleteCredential accountId)
    match restored with
    | .ok () => Io.throw primary
    | .error _ => Io.throw (credentialNotRestored primary)
  | .ok () => replaceRuntimeConfig next

end AccountPort

end EasiFlux
