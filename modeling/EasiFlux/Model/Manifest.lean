import EasiFlux.Model.OwnershipWire

/-!
# Plugin manifests as texts

`plugin::manifest`, `plugin::contribution` and what they check of the three guest contracts
(`plugin::compute`, `plugin::strategy`, `plugin::workflow`): the manifest with all its fields, its
checks, its canonical text and its reader, and the fingerprint of a local record (`plugin::record`).
The manifest of `Plugin.PluginManifest` is this one with most of its fields left as text.

Versions, base64 and SHA-256 are crates of their own, and parameters here (`Crates`).
-/

namespace EasiFlux.Plugin.Manifest

open Results
open JsonText (record string fields readText readInt readNat readList toBytes fromBytes)

instance digest_neZero : NeZero (2 ^ 256) := ⟨by decide⟩

/-- The crates. `semver` writes a version so that it is read back. -/
structure Crates (Version : Type) where
  parse : String → Option Version
  toString : Version → String
  parse_toString : ∀ version, parse (toString version) = some version
  base64Decode : String → Option (List UInt8)
  base64Encode : List UInt8 → String
  /-- The digest, as a number of 32 bytes -/
  sha256 : ByteArray → Fin (2 ^ 256)

variable {Version : Type} (crates : Crates Version)

/-! ## Checks -/

/-- Shared with the frontend: Unicode `White_Space` plus U+FEFF is blank. -/
def validateDisplayText (label value : String) (maxLength : ℕ) : Except String Unit :=
  if value.toList.all (fun c => isWhitespace c || c.toNat == 0xFEFF) || decide (maxLength < value.utf8ByteSize) then
    .error s!"plugin {label} must be non-blank and at most {maxLength} bytes"
  else .ok ()

/-- `MAX_MODULE_BYTES` -/
def maxModuleBytes : ℕ := 8192

/-- What starts every module: its magic number and its version -/
def moduleHeader : List UInt8 := [0, 97, 115, 109, 1, 0, 0, 0]

/-- `module_bytes`, with the texts of its three errors -/
def moduleBytes (tooLarge encoding header : String) (moduleBase64 : String) : Except String (List UInt8) := do
  ensure (moduleBase64.utf8ByteSize ≤ (maxModuleBytes + 2) / 3 * 4) tooLarge
  let bytes ← okOr (crates.base64Decode moduleBase64) encoding
  ensure (bytes.length ≤ maxModuleBytes ∧ moduleHeader.isPrefixOf bytes = true ∧ crates.base64Encode bytes = moduleBase64) header
  pure bytes

/-- `workflow::validate_input` -/
def validateInput (value : String) : Except String Unit :=
  ensure (value.utf8ByteSize ≤ 4096 ∧ (match JsonText.read value.toList with
    | some (.object _) => true
    | _ => false) = true) "input must be a bounded JSON object"

/-! ## Parameters -/

structure PluginInfoParams where
  title : String
  text : String
  deriving DecidableEq

/-- `MAX_COMMAND_TITLE_LENGTH` -/
def maxCommandTitleLength : ℕ := 80

/-- `MAX_COMMAND_TEXT_LENGTH` -/
def maxCommandTextLength : ℕ := 2000

def PluginInfoParams.validate (params : PluginInfoParams) : Except String Unit := do
  validateDisplayText "command params title" params.title maxCommandTitleLength
  validateDisplayText "command params text" params.text maxCommandTextLength

inductive PluginPageDestination
  | home
  | trading
  | charts
  | settingsGeneral
  | settingsNotifications
  | settingsAbout
  deriving DecidableEq

def PluginPageDestination.text : PluginPageDestination → String
  | .home => "home"
  | .trading => "trading"
  | .charts => "charts"
  | .settingsGeneral => "settings.general"
  | .settingsNotifications => "settings.notifications"
  | .settingsAbout => "settings.about"

structure PluginOpenPageParams where
  destination : PluginPageDestination
  deriving DecidableEq

structure ComputeParameter where
  label : String
  default : ℤ
  min : ℤ
  max : ℤ
  deriving DecidableEq

structure PluginComputeParams where
  runtime : String
  abi : String
  moduleBase64 : String
  parameter : ComputeParameter
  deriving DecidableEq

def PluginComputeParams.validate (params : PluginComputeParams) : Except String Unit := do
  ensure (params.runtime = "wasm-v1" ∧ params.abi = "series-f64-v1") "unsupported compute runtime or ABI"
  validateDisplayText "parameter label" params.parameter.label 80
  let p := params.parameter
  ensure (-1000000 ≤ p.min ∧ p.max ≤ 1000000 ∧ p.min ≤ p.default ∧ p.default ≤ p.max) "invalid compute parameter bounds"
  let _ ← moduleBytes crates "compute module too large" "invalid compute module encoding"
    "invalid compute module header or encoding" params.moduleBase64
  pure ()

structure PluginWorkflowParams where
  runtime : String
  abi : String
  moduleBase64 : String
  defaultInput : String
  deriving DecidableEq

/-- `PluginWorkflowParams::module_bytes` -/
def PluginWorkflowParams.moduleBytes (params : PluginWorkflowParams) : Except String (List UInt8) :=
  Manifest.moduleBytes crates "module too large" "invalid module encoding" "invalid module encoding" params.moduleBase64

def PluginWorkflowParams.validate (params : PluginWorkflowParams) : Except String Unit := do
  ensure (params.runtime = "wasm-v1" ∧ params.abi = "account-json-v1") "unsupported workflow ABI"
  validateInput params.defaultInput
  let _ ← params.moduleBytes crates
  pure ()

structure PluginStrategyParams where
  runtime : String
  abi : String
  moduleBase64 : String
  defaultInput : String
  deriving DecidableEq

/-- `PluginStrategyParams::module_bytes` asks a workflow of the same module. -/
def PluginStrategyParams.moduleBytes (params : PluginStrategyParams) : Except String (List UInt8) :=
  PluginWorkflowParams.moduleBytes crates ⟨params.runtime, "account-json-v1", params.moduleBase64, params.defaultInput⟩

def PluginStrategyParams.validate (params : PluginStrategyParams) : Except String Unit := do
  ensure (params.runtime = "wasm-v1" ∧ params.abi = "strategy-json-v1") "unsupported strategy ABI"
  validateInput params.defaultInput
  let _ ← params.moduleBytes crates
  pure ()

inductive PluginCommandParams
  | showInfo (params : PluginInfoParams)
  | openPage (params : PluginOpenPageParams)
  | computeSeries (params : PluginComputeParams)
  | strategy (params : PluginStrategyParams)
  | accountWorkflow (params : PluginWorkflowParams)
  deriving DecidableEq

/-! ## Contributions -/

inductive PluginContributionKind
  | command
  deriving DecidableEq

def PluginContributionKind.text : PluginContributionKind → String
  | .command => "command"

inductive PluginCommandActionId
  | hostShowInfo
  | hostOpenPage
  | sandboxComputeSeries
  | sandboxAccountWorkflow
  | sandboxStrategy
  deriving DecidableEq

def PluginCommandActionId.text : PluginCommandActionId → String
  | .hostShowInfo => "host.showInfo"
  | .hostOpenPage => "host.openPage"
  | .sandboxComputeSeries => "sandbox.computeSeries"
  | .sandboxAccountWorkflow => "sandbox.accountWorkflow"
  | .sandboxStrategy => "sandbox.strategy"

structure PluginCommandContribution where
  kind : PluginContributionKind
  contributionId : PluginId
  title : String
  actionId : PluginCommandActionId
  params : PluginCommandParams
  deriving DecidableEq

def PluginCommandContribution.validate (contribution : PluginCommandContribution) : Except String Unit := do
  validateDisplayText "command title" contribution.title maxCommandTitleLength
  match contribution.actionId, contribution.params with
  | .hostShowInfo, .showInfo params => params.validate
  | .hostOpenPage, .openPage _ => pure ()
  | .sandboxComputeSeries, .computeSeries params => params.validate crates
  | .sandboxAccountWorkflow, .accountWorkflow params => params.validate crates
  | .sandboxStrategy, .strategy params => params.validate crates
  | _, _ => .error "plugin command action does not match params"

/-! ## Capabilities -/

/-- `workflow::CAPABILITIES` -/
def workflowCapabilities : List String :=
  ["account.read", "balances.read", "positions.read", "orders.read", "market.read", "trade.place", "trade.cancel"]

/-- The loops over `seen`: every value is one of `allowed`, and none is there twice. -/
def distinctAmong (allowed values : List String) : Bool := values.all allowed.contains && decide values.Nodup

/-- `workflow::validate_capabilities` -/
def validateWorkflowCapabilities (values : List String) : Except String Unit := do
  ensure (distinctAmong workflowCapabilities values = true) "invalid or duplicate capability"
  ensure (values = [] ∨ "account.read" ∈ values) "account.read required"

/-- `strategy::validate_capabilities` -/
def validateStrategyCapabilities (values : List String) : Except String Unit := do
  ensure (distinctAmong (workflowCapabilities ++ ["strategy.run", "trade.amend", "trade.protect"]) values = true)
    "invalid strategy capability"
  ensure ("account.read" ∈ values ∧ "strategy.run" ∈ values) "mandatory strategy capability missing"

/-- `strategy::validate_management_dependencies` -/
def validateManagementDependencies (values : List String) : Except String Unit :=
  ensure (("trade.amend" ∈ values → "trade.place" ∈ values ∧ "orders.read" ∈ values ∧ "market.read" ∈ values) ∧
    ("trade.protect" ∈ values → "trade.place" ∈ values ∧ "market.read" ∈ values)) "management capability dependency missing"

/-! ## The manifest -/

structure PluginManifest (Version : Type) where
  schemaVersion : ℕ
  id : PluginId
  publisherId : PluginPublisherId
  publisher : String
  name : String
  description : String
  version : Version
  contributions : List PluginCommandContribution
  requestedCapabilities : List String
  deriving DecidableEq

/-- The loop over the contributions, after those whose ids are `seen` -/
def validateContributions (version : ℕ) : List PluginId → List PluginCommandContribution → Except String Unit
  | _, [] => .ok ()
  | seen, contribution :: contributions => do
    contribution.validate crates
    ensure (¬(contribution.actionId = .sandboxStrategy ∧ version < 6)) "strategy requires manifest v6"
    ensure (¬(6 ≤ version ∧ contribution.actionId = .sandboxAccountWorkflow)) "v6 excludes account workflows"
    ensure (¬(version < 5 ∧ contribution.actionId = .sandboxAccountWorkflow)) "account workflow requires manifest v5"
    ensure (¬(version < 4 ∧ contribution.actionId = .sandboxComputeSeries)) "compute requires plugin manifest v4"
    ensure (¬(version = 2 ∧ contribution.actionId ≠ .hostShowInfo)) "plugin manifest v2 only supports host.showInfo"
    ensure (contribution.contributionId ∉ seen) "duplicate plugin contribution id"
    validateContributions version (contribution.contributionId :: seen) contributions

namespace PluginManifest

variable (manifest : PluginManifest Version)

/-- The capabilities that the schema allows -/
def validateCapabilities : Except String Unit :=
  if manifest.schemaVersion = 5 then do
    validateWorkflowCapabilities manifest.requestedCapabilities
    ensure ("account.read" ∈ manifest.requestedCapabilities ∧
      manifest.contributions.any (fun c => decide (c.actionId = .sandboxAccountWorkflow)) = true)
      "v5 requires account.read and an account workflow"
  else if manifest.schemaVersion = 6 ∨ manifest.schemaVersion = 7 then do
    validateStrategyCapabilities manifest.requestedCapabilities
    validateManagementDependencies manifest.requestedCapabilities
    ensure (¬(manifest.schemaVersion = 6 ∧
      ("trade.amend" ∈ manifest.requestedCapabilities ∨ "trade.protect" ∈ manifest.requestedCapabilities)))
      "management capabilities require v7"
    ensure (manifest.contributions.any (fun c => decide (c.actionId = .sandboxStrategy)) = true)
      "strategy manifest requires a strategy"
  else ensure (manifest.requestedCapabilities = []) "plugin requested capabilities are reserved"

/-- The match on the schema -/
def validateSchema : Except String Unit :=
  if manifest.schemaVersion = 1 ∧ manifest.contributions = [] then .ok ()
  else if (2 ≤ manifest.schemaVersion ∧ manifest.schemaVersion ≤ 7) ∧
      (1 ≤ manifest.contributions.length ∧ manifest.contributions.length ≤ 16) then
    validateContributions crates manifest.schemaVersion [] manifest.contributions
  else .error "unsupported plugin manifest schema or contributions"

def validate : Except String Unit := do
  manifest.validateSchema crates
  validateDisplayText "publisher" manifest.publisher 80
  validateDisplayText "name" manifest.name 80
  validateDisplayText "description" manifest.description 500
  ensure ((crates.toString manifest.version).utf8ByteSize ≤ 64) "plugin version exceeds 64 bytes"
  manifest.validateCapabilities

end PluginManifest

/-! ## The canonical text -/

def PluginInfoParams.canonicalDto (params : PluginInfoParams) : JsonText.Json :=
  record [("title", string params.title), ("text", string params.text)]

def PluginOpenPageParams.canonicalDto (params : PluginOpenPageParams) : JsonText.Json :=
  record [("destination", string params.destination.text)]

def ComputeParameter.canonicalDto (parameter : ComputeParameter) : JsonText.Json :=
  record [("label", string parameter.label), ("default", .int parameter.default), ("min", .int parameter.min),
    ("max", .int parameter.max)]

def PluginComputeParams.canonicalDto (params : PluginComputeParams) : JsonText.Json :=
  record [("runtime", string params.runtime), ("abi", string params.abi), ("moduleBase64", string params.moduleBase64),
    ("parameter", params.parameter.canonicalDto)]

/-- The two guest contracts with an input have the same fields. -/
def guestDto (runtime abi moduleBase64 defaultInput : String) : JsonText.Json :=
  record [("runtime", string runtime), ("abi", string abi), ("moduleBase64", string moduleBase64),
    ("defaultInput", string defaultInput)]

/-- `#[serde(untagged)]`: the parameters alone -/
def PluginCommandParams.canonicalDto : PluginCommandParams → JsonText.Json
  | .showInfo params => params.canonicalDto
  | .openPage params => params.canonicalDto
  | .computeSeries params => params.canonicalDto
  | .strategy params => guestDto params.runtime params.abi params.moduleBase64 params.defaultInput
  | .accountWorkflow params => guestDto params.runtime params.abi params.moduleBase64 params.defaultInput

def PluginCommandContribution.canonicalDto (contribution : PluginCommandContribution) : JsonText.Json :=
  record [("kind", string contribution.kind.text), ("contributionId", string contribution.contributionId.1),
    ("title", string contribution.title), ("actionId", string contribution.actionId.text),
    ("params", contribution.params.canonicalDto)]

/-- `CanonicalManifestV1` -/
def PluginManifest.canonicalDto (manifest : PluginManifest Version) : JsonText.Json :=
  record [("schemaVersion", .int manifest.schemaVersion), ("id", string manifest.id.1),
    ("publisherId", string manifest.publisherId.1), ("publisher", string manifest.publisher), ("name", string manifest.name),
    ("description", string manifest.description), ("version", string (crates.toString manifest.version)),
    ("contributions", .array (manifest.contributions.map (·.canonicalDto))),
    ("requestedCapabilities", .array (manifest.requestedCapabilities.map string))]

/-- `canonical_manifest_bytes` -/
def canonicalManifestBytes (manifest : PluginManifest Version) : ByteArray := toBytes (manifest.canonicalDto crates)

/-! ## The reader -/

/-- An error of `validate` is one of the reader. -/
def checked {α : Type} (validate : α → Except String Unit) (a : α) : Option α :=
  match validate a with
  | .ok () => some a
  | .error _ => none

def PluginInfoParams.deserialize (v : JsonText.Json) : Option PluginInfoParams := do
  let field ← fields ["title", "text"] v
  let title ← (field "title").bind readText
  let text ← (field "text").bind readText
  checked PluginInfoParams.validate ⟨title, text⟩

def PluginPageDestination.parse : String → Option PluginPageDestination
  | "home" => some .home
  | "trading" => some .trading
  | "charts" => some .charts
  | "settings.general" => some .settingsGeneral
  | "settings.notifications" => some .settingsNotifications
  | "settings.about" => some .settingsAbout
  | _ => none

def PluginOpenPageParams.deserialize (v : JsonText.Json) : Option PluginOpenPageParams := do
  let field ← fields ["destination"] v
  let destination ← ((field "destination").bind readText).bind PluginPageDestination.parse
  some ⟨destination⟩

/-- An `i32` -/
def readI32 : JsonText.Json → Option ℤ := readInt (-2 ^ 31) (2 ^ 31 - 1)

def ComputeParameter.deserialize (v : JsonText.Json) : Option ComputeParameter := do
  let field ← fields ["label", "default", "min", "max"] v
  let label ← (field "label").bind readText
  let default ← (field "default").bind readI32
  let min ← (field "min").bind readI32
  let max ← (field "max").bind readI32
  some ⟨label, default, min, max⟩

def PluginComputeParams.deserialize (v : JsonText.Json) : Option PluginComputeParams := do
  let field ← fields ["runtime", "abi", "moduleBase64", "parameter"] v
  let runtime ← (field "runtime").bind readText
  let abi ← (field "abi").bind readText
  let moduleBase64 ← (field "moduleBase64").bind readText
  let parameter ← (field "parameter").bind ComputeParameter.deserialize
  checked (PluginComputeParams.validate crates) ⟨runtime, abi, moduleBase64, parameter⟩

/-- The fields of a guest contract with an input -/
def readGuest {α : Type} (build : String → String → String → String → Option α) (v : JsonText.Json) : Option α := do
  let field ← fields ["runtime", "abi", "moduleBase64", "defaultInput"] v
  let runtime ← (field "runtime").bind readText
  let abi ← (field "abi").bind readText
  let moduleBase64 ← (field "moduleBase64").bind readText
  let defaultInput ← (field "defaultInput").bind readText
  build runtime abi moduleBase64 defaultInput

def PluginStrategyParams.deserialize : JsonText.Json → Option PluginStrategyParams :=
  readGuest fun runtime abi moduleBase64 defaultInput =>
    checked (PluginStrategyParams.validate crates) ⟨runtime, abi, moduleBase64, defaultInput⟩

/-- This one is not validated while it is read. -/
def PluginWorkflowParams.deserialize : JsonText.Json → Option PluginWorkflowParams :=
  readGuest fun runtime abi moduleBase64 defaultInput => some ⟨runtime, abi, moduleBase64, defaultInput⟩

/-- `#[serde(untagged)]`: the first variant that can be read -/
def PluginCommandParams.deserialize (v : JsonText.Json) : Option PluginCommandParams :=
  ((PluginInfoParams.deserialize v).map .showInfo).or <|
    ((PluginOpenPageParams.deserialize v).map .openPage).or <|
      ((PluginComputeParams.deserialize crates v).map .computeSeries).or <|
        ((PluginStrategyParams.deserialize crates v).map .strategy).or <|
          (PluginWorkflowParams.deserialize v).map .accountWorkflow

def PluginContributionKind.parse : String → Option PluginContributionKind
  | "command" => some .command
  | _ => none

def PluginCommandActionId.parse : String → Option PluginCommandActionId
  | "host.showInfo" => some .hostShowInfo
  | "host.openPage" => some .hostOpenPage
  | "sandbox.computeSeries" => some .sandboxComputeSeries
  | "sandbox.accountWorkflow" => some .sandboxAccountWorkflow
  | "sandbox.strategy" => some .sandboxStrategy
  | _ => none

def PluginCommandContribution.deserialize (v : JsonText.Json) : Option PluginCommandContribution := do
  let field ← fields ["kind", "contributionId", "title", "actionId", "params"] v
  let kind ← ((field "kind").bind readText).bind PluginContributionKind.parse
  let contributionId ← ((field "contributionId").bind readText).bind parseReverseDomain
  let title ← (field "title").bind readText
  let actionId ← ((field "actionId").bind readText).bind PluginCommandActionId.parse
  let params ← (field "params").bind (PluginCommandParams.deserialize crates)
  checked (PluginCommandContribution.validate crates) ⟨kind, contributionId, title, actionId, params⟩

/-- `PluginManifestVisitor::visit_map` -/
def PluginManifest.deserialize (v : JsonText.Json) : Option (PluginManifest Version) := do
  let field ← fields ["schemaVersion", "id", "publisherId", "publisher", "name", "description", "version", "contributions",
    "requestedCapabilities"] v
  let schemaVersion ← (field "schemaVersion").bind (readNat 32)
  let id ← ((field "id").bind readText).bind parseReverseDomain
  let publisherId ← ((field "publisherId").bind readText).bind parseReverseDomain
  let publisher ← (field "publisher").bind readText
  let name ← (field "name").bind readText
  let description ← (field "description").bind readText
  let version ← ((field "version").bind readText).bind crates.parse
  let contributions ← (field "contributions").bind (readList (PluginCommandContribution.deserialize crates))
  let requestedCapabilities ← (field "requestedCapabilities").bind (readList readText)
  checked (PluginManifest.validate crates)
    ⟨schemaVersion, id, publisherId, publisher, name, description, version, contributions, requestedCapabilities⟩

/-- `serde_json::from_slice::<PluginManifest>` -/
def parseManifest (bytes : ByteArray) : Option (PluginManifest Version) := fromBytes (PluginManifest.deserialize crates) bytes

/-! ## Records -/

structure PluginRecord (Version : Type) where
  manifest : PluginManifest Version
  source : PluginSource
  approvalFingerprint : String

/-- `LOCAL_FINGERPRINT_DOMAIN`, in front of what is digested -/
def localFingerprintDomain : ByteArray := ("EasiFlux.localDeclarative.manifest.v1" ++ String.singleton (Char.ofNat 0)).toUTF8

def fingerprintInput (manifest : PluginManifest Version) : ByteArray :=
  localFingerprintDomain ++ canonicalManifestBytes crates manifest

/-- `PluginRecord::local_declarative` -/
def localDeclarative (manifest : PluginManifest Version) : Except String (PluginRecord Version) := do
  manifest.validate crates
  pure
    { manifest := manifest
      source := .localDeclarative
      approvalFingerprint := "v1:sha256:" ++ formatLowerHex 64 (crates.sha256 (fingerprintInput crates manifest)).val }

end EasiFlux.Plugin.Manifest
