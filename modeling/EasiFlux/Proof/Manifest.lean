import EasiFlux.Model.Manifest
import EasiFlux.Proof.OwnershipWire

/-!
# Plugin manifests have one canonical form

A manifest that `validate` accepts is read back from its canonical bytes, with its parameters in the
variant they were written from. The variants are tried in their order: each of the first three fails
at a name it does not know, and the fourth has the names of the fifth but checks the ABI
(`PluginCommandParams.deserialize_canonicalDto`).

The reader looks the members up by their names, so neither their order nor white space matters to it
(`insensitive_deserialize`).
-/

namespace EasiFlux.Plugin.Manifest

open Results
open JsonText (record string fields readText readInt readNat readList toBytes fromBytes fields_record fields_unknown bind_eq_of
  readText_string Insensitive SameField Reordered Written)

variable {Version : Type} {crates : Crates Version}

theorem checked_eq_some {α : Type} {validate : α → Except String Unit} {a : α} (h : validate a = .ok ()) :
    checked validate a = some a := by
  rw [checked, h]

theorem checked_eq_none {α : Type} {validate : α → Except String Unit} {a : α} {error : String} (h : validate a = .error error) :
    checked validate a = none := by
  rw [checked, h]

theorem of_checked {α : Type} {validate : α → Except String Unit} {a b : α} (h : checked validate a = some b) :
    b = a ∧ validate b = .ok () := by
  unfold checked at h
  split at h
  · rename_i hv
    obtain rfl := Option.some.inj h
    exact ⟨rfl, hv⟩
  · cases h

/-! ## Parameters -/

theorem PluginInfoParams.deserialize_canonicalDto {params : PluginInfoParams} (h : params.validate = .ok ()) :
    deserialize params.canonicalDto = some params := by
  obtain ⟨field, hfields, hfield, -⟩ : ∃ field, fields ["title", "text"] params.canonicalDto = some field ∧ _ :=
    fields_record (by simp) (by simp)
  simp only [List.forall_mem_cons, List.not_mem_nil, false_imp_iff, implies_true, and_true] at hfield
  obtain ⟨h1, h2⟩ := hfield
  exact bind_eq_of hfields <| bind_eq_of (bind_eq_of h1 (readText_string _)) <| bind_eq_of (bind_eq_of h2 (readText_string _)) <|
    checked_eq_some h

theorem PluginPageDestination.parse_text (destination : PluginPageDestination) : parse destination.text = some destination := by
  cases destination <;> rfl

theorem PluginOpenPageParams.deserialize_canonicalDto (params : PluginOpenPageParams) :
    deserialize params.canonicalDto = some params := by
  obtain ⟨field, hfields, hfield, -⟩ : ∃ field, fields ["destination"] params.canonicalDto = some field ∧ _ :=
    fields_record (by simp) (by simp)
  simp only [List.forall_mem_cons, List.not_mem_nil, false_imp_iff, implies_true, and_true] at hfield
  exact bind_eq_of hfields <|
    bind_eq_of (bind_eq_of (bind_eq_of hfield (readText_string _)) (PluginPageDestination.parse_text _)) rfl

/-- The bounds that `validate` checks are within those of an `i32`. -/
theorem PluginComputeParams.parameter_bounds {params : PluginComputeParams} (h : params.validate crates = .ok ()) :
    -1000000 ≤ params.parameter.min ∧ params.parameter.max ≤ 1000000 ∧ params.parameter.min ≤ params.parameter.default ∧
      params.parameter.default ≤ params.parameter.max := by
  simp only [validate, bind_eq_ok, ensure_eq_ok] at h
  obtain ⟨-, -, -, -, -, hbounds, -⟩ := h
  exact hbounds

theorem ComputeParameter.deserialize_canonicalDto {parameter : ComputeParameter}
    (h : -1000000 ≤ parameter.min ∧ parameter.max ≤ 1000000 ∧ parameter.min ≤ parameter.default ∧
      parameter.default ≤ parameter.max) : deserialize parameter.canonicalDto = some parameter := by
  obtain ⟨hmin, hmax, hlow, hhigh⟩ := h
  have hread : ∀ n : ℤ, -1000000 ≤ n → n ≤ 1000000 → readI32 (.int n) = some n := fun n hn hn' =>
    JsonText.readInt_int ⟨by omega, by omega⟩
  obtain ⟨field, hfields, hfield, -⟩ : ∃ field, fields ["label", "default", "min", "max"] parameter.canonicalDto = some field ∧ _ :=
    fields_record (by simp) (by simp)
  simp only [List.forall_mem_cons, List.not_mem_nil, false_imp_iff, implies_true, and_true] at hfield
  obtain ⟨h1, h2, h3, h4⟩ := hfield
  exact bind_eq_of hfields <| bind_eq_of (bind_eq_of h1 (readText_string _)) <|
    bind_eq_of (bind_eq_of h2 (hread _ (by omega) (by omega))) <| bind_eq_of (bind_eq_of h3 (hread _ (by omega) (by omega))) <|
    bind_eq_of (bind_eq_of h4 (hread _ (by omega) (by omega))) rfl

theorem PluginComputeParams.deserialize_canonicalDto {params : PluginComputeParams} (h : params.validate crates = .ok ()) :
    deserialize crates params.canonicalDto = some params := by
  obtain ⟨field, hfields, hfield, -⟩ :
      ∃ field, fields ["runtime", "abi", "moduleBase64", "parameter"] params.canonicalDto = some field ∧ _ :=
    fields_record (by simp) (by simp)
  simp only [List.forall_mem_cons, List.not_mem_nil, false_imp_iff, implies_true, and_true] at hfield
  obtain ⟨h1, h2, h3, h4⟩ := hfield
  exact bind_eq_of hfields <| bind_eq_of (bind_eq_of h1 (readText_string _)) <| bind_eq_of (bind_eq_of h2 (readText_string _)) <|
    bind_eq_of (bind_eq_of h3 (readText_string _)) <|
    bind_eq_of (bind_eq_of h4 (ComputeParameter.deserialize_canonicalDto (parameter_bounds h))) (checked_eq_some h)

theorem readGuest_guestDto {α : Type} (build : String → String → String → String → Option α)
    (runtime abi moduleBase64 defaultInput : String) :
    readGuest build (guestDto runtime abi moduleBase64 defaultInput) = build runtime abi moduleBase64 defaultInput := by
  obtain ⟨field, hfields, hfield, -⟩ : ∃ field, fields ["runtime", "abi", "moduleBase64", "defaultInput"]
      (guestDto runtime abi moduleBase64 defaultInput) = some field ∧ _ := fields_record (by simp) (by simp)
  simp only [List.forall_mem_cons, List.not_mem_nil, false_imp_iff, implies_true, and_true] at hfield
  obtain ⟨h1, h2, h3, h4⟩ := hfield
  unfold readGuest
  rw [hfields]
  simp only [Option.bind_eq_bind, Option.bind_some, h1, h2, h3, h4, readText_string]

/-- What the contribution checks of its parameters. -/
def PluginCommandParams.validate (crates : Crates Version) : PluginCommandParams → Except String Unit
  | .showInfo params => params.validate
  | .openPage _ => .ok ()
  | .computeSeries params => params.validate crates
  | .strategy params => params.validate crates
  | .accountWorkflow params => params.validate crates

/-- The first three variants fail at a name that they do not know. -/
theorem PluginInfoParams.deserialize_unknown {ms : List (String × JsonText.Json)} {name : String} {v : JsonText.Json}
    (hm : (name, v) ∈ ms) (h : name ∉ ["title", "text"]) : deserialize (record ms) = none := by
  rw [deserialize, fields_unknown hm h]
  rfl

theorem PluginOpenPageParams.deserialize_unknown {ms : List (String × JsonText.Json)} {name : String} {v : JsonText.Json}
    (hm : (name, v) ∈ ms) (h : name ∉ ["destination"]) : deserialize (record ms) = none := by
  rw [deserialize, fields_unknown hm h]
  rfl

theorem PluginComputeParams.deserialize_unknown {ms : List (String × JsonText.Json)} {name : String} {v : JsonText.Json}
    (hm : (name, v) ∈ ms) (h : name ∉ ["runtime", "abi", "moduleBase64", "parameter"]) :
    deserialize crates (record ms) = none := by
  rw [deserialize, fields_unknown hm h]
  rfl

/-- A guest contract with an input is read as one of the last two. -/
theorem deserialize_guestDto (runtime abi moduleBase64 defaultInput : String) :
    PluginCommandParams.deserialize crates (guestDto runtime abi moduleBase64 defaultInput) =
      ((checked (PluginStrategyParams.validate crates) ⟨runtime, abi, moduleBase64, defaultInput⟩).map .strategy).or
        (some (.accountWorkflow ⟨runtime, abi, moduleBase64, defaultInput⟩)) := by
  have h1 : PluginInfoParams.deserialize (guestDto runtime abi moduleBase64 defaultInput) = none :=
    PluginInfoParams.deserialize_unknown List.mem_cons_self (by decide)
  have h2 : PluginOpenPageParams.deserialize (guestDto runtime abi moduleBase64 defaultInput) = none :=
    PluginOpenPageParams.deserialize_unknown List.mem_cons_self (by decide)
  have h3 : PluginComputeParams.deserialize crates (guestDto runtime abi moduleBase64 defaultInput) = none :=
    PluginComputeParams.deserialize_unknown
      (List.mem_cons_of_mem _ (List.mem_cons_of_mem _ (List.mem_cons_of_mem _ List.mem_cons_self))) (by decide)
  rw [PluginCommandParams.deserialize, h1, h2, h3, PluginStrategyParams.deserialize, readGuest_guestDto,
    PluginWorkflowParams.deserialize, readGuest_guestDto]
  rfl

/-- **Parameters are read as the variant they were written from.** -/
theorem PluginCommandParams.deserialize_canonicalDto {params : PluginCommandParams} (h : params.validate crates = .ok ()) :
    deserialize crates params.canonicalDto = some params := by
  cases params with
  | showInfo params =>
    rw [canonicalDto, deserialize, PluginInfoParams.deserialize_canonicalDto h]
    rfl
  | openPage params =>
    have h1 : PluginInfoParams.deserialize params.canonicalDto = none :=
      PluginInfoParams.deserialize_unknown List.mem_cons_self (by decide)
    rw [canonicalDto, deserialize, h1, PluginOpenPageParams.deserialize_canonicalDto]
    rfl
  | computeSeries params =>
    have h1 : PluginInfoParams.deserialize params.canonicalDto = none :=
      PluginInfoParams.deserialize_unknown List.mem_cons_self (by decide)
    have h2 : PluginOpenPageParams.deserialize params.canonicalDto = none :=
      PluginOpenPageParams.deserialize_unknown List.mem_cons_self (by decide)
    rw [canonicalDto, deserialize, h1, h2, PluginComputeParams.deserialize_canonicalDto h]
    rfl
  | strategy params =>
    have hchecked : checked (PluginStrategyParams.validate crates) params = some params := checked_eq_some h
    rw [canonicalDto, deserialize_guestDto]
    show ((checked (PluginStrategyParams.validate crates) params).map _).or _ = _
    rw [hchecked]
    rfl
  | accountWorkflow params =>
    -- the ABI of a workflow is not the one of a strategy
    have habi : params.abi = "account-json-v1" := by
      simp only [validate, PluginWorkflowParams.validate, bind_eq_ok, ensure_eq_ok] at h
      obtain ⟨-, ⟨-, habi⟩, -⟩ := h
      exact habi
    have hstrategy : PluginStrategyParams.validate crates ⟨params.runtime, params.abi, params.moduleBase64, params.defaultInput⟩ =
        .error "unsupported strategy ABI" := by
      have hne : ¬(params.runtime = "wasm-v1" ∧ params.abi = "strategy-json-v1") := by
        rw [habi]
        rintro ⟨-, hother⟩
        exact absurd hother (by decide)
      rw [PluginStrategyParams.validate, ensure, if_neg hne]
      rfl
    rw [canonicalDto, deserialize_guestDto, checked_eq_none hstrategy]
    rfl

/-! ## Contributions -/

theorem PluginContributionKind.parse_text (kind : PluginContributionKind) : parse kind.text = some kind := by
  cases kind
  rfl

theorem PluginCommandActionId.parse_text (actionId : PluginCommandActionId) : parse actionId.text = some actionId := by
  cases actionId <;> rfl

theorem PluginCommandContribution.validate_params {contribution : PluginCommandContribution}
    (h : contribution.validate crates = .ok ()) : contribution.params.validate crates = .ok () := by
  rw [validate, bind_eq_ok] at h
  obtain ⟨-, -, h⟩ := h
  cases hparams : contribution.params <;> cases haction : contribution.actionId <;> rw [hparams, haction] at h <;>
    first
    | exact h
    | cases h

theorem PluginCommandContribution.deserialize_canonicalDto {contribution : PluginCommandContribution}
    (h : contribution.validate crates = .ok ()) : deserialize crates contribution.canonicalDto = some contribution := by
  obtain ⟨field, hfields, hfield, -⟩ :
      ∃ field, fields ["kind", "contributionId", "title", "actionId", "params"] contribution.canonicalDto = some field ∧ _ :=
    fields_record (by simp) (by simp)
  simp only [List.forall_mem_cons, List.not_mem_nil, false_imp_iff, implies_true, and_true] at hfield
  obtain ⟨h1, h2, h3, h4, h5⟩ := hfield
  have hid := bind_eq_of (bind_eq_of h2 (readText_string _)) (parseReverseDomain_val contribution.contributionId)
  exact bind_eq_of hfields <| bind_eq_of (bind_eq_of (bind_eq_of h1 (readText_string _)) (PluginContributionKind.parse_text _)) <|
    bind_eq_of hid <| bind_eq_of (bind_eq_of h3 (readText_string _)) <|
    bind_eq_of (bind_eq_of (bind_eq_of h4 (readText_string _)) (PluginCommandActionId.parse_text _)) <|
    bind_eq_of (bind_eq_of h5 (PluginCommandParams.deserialize_canonicalDto (validate_params h))) (checked_eq_some h)

/-! ## The manifest -/

theorem validateContributions_ok {version : ℕ} {seen : List PluginId} {contributions : List PluginCommandContribution}
    (h : validateContributions crates version seen contributions = .ok ()) : ∀ c ∈ contributions, c.validate crates = .ok () := by
  induction contributions generalizing seen with
  | nil => simp
  | cons contribution contributions ih =>
    simp only [validateContributions, bind_eq_ok] at h
    obtain ⟨⟨⟩, hvalid, -, -, -, -, -, -, -, -, -, -, -, -, hrest⟩ := h
    intro c hc
    rcases List.mem_cons.1 hc with rfl | hc
    · exact hvalid
    · exact ih hrest c hc

namespace PluginManifest

variable {manifest : PluginManifest Version}

/-- What the reader and the printer need of a manifest that `validate` accepts. -/
theorem validate_ok (h : manifest.validate crates = .ok ()) :
    manifest.schemaVersion ≤ 7 ∧ ∀ c ∈ manifest.contributions, c.validate crates = .ok () := by
  rw [validate, bind_eq_ok] at h
  obtain ⟨⟨⟩, h, -⟩ := h
  unfold validateSchema at h
  split at h
  · rename_i hv1
    refine ⟨by omega, ?_⟩
    rw [hv1.2]
    simp
  · split at h
    · rename_i hv2
      exact ⟨hv2.1.2, validateContributions_ok h⟩
    · cases h

theorem deserialize_canonicalDto (h : manifest.validate crates = .ok ()) :
    deserialize crates (manifest.canonicalDto crates) = some manifest := by
  obtain ⟨hschema, hcontributions⟩ := validate_ok h
  have hsmall : manifest.schemaVersion < 2 ^ 32 := by omega
  obtain ⟨field, hfields, hfield, -⟩ : ∃ field, fields ["schemaVersion", "id", "publisherId", "publisher", "name",
      "description", "version", "contributions", "requestedCapabilities"] (manifest.canonicalDto crates) = some field ∧ _ :=
    fields_record (by simp) (by simp)
  simp only [List.forall_mem_cons, List.not_mem_nil, false_imp_iff, implies_true, and_true] at hfield
  obtain ⟨h1, h2, h3, h4, h5, h6, h7, h8, h9⟩ := hfield
  have hid := bind_eq_of (bind_eq_of h2 (readText_string _)) (parseReverseDomain_val manifest.id)
  have hpublisher := bind_eq_of (bind_eq_of h3 (readText_string _)) (parseReverseDomain_val manifest.publisherId)
  have hversion := bind_eq_of (bind_eq_of h7 (readText_string _)) (crates.parse_toString manifest.version)
  have hlist : readList (PluginCommandContribution.deserialize crates)
      (.array (manifest.contributions.map (·.canonicalDto))) = some manifest.contributions := by
    have hall : ∀ c ∈ manifest.contributions, PluginCommandContribution.deserialize crates c.canonicalDto = some c :=
      fun c hc => PluginCommandContribution.deserialize_canonicalDto (hcontributions c hc)
    rw [JsonText.readList_map (f := fun c => c) hall, List.map_id']
  have hcapabilities : readList readText (.array (manifest.requestedCapabilities.map string)) =
      some manifest.requestedCapabilities := by
    have hall : ∀ c ∈ manifest.requestedCapabilities, readText (string c) = some c := fun c _ => readText_string c
    rw [JsonText.readList_map (f := fun c => c) hall, List.map_id']
  exact bind_eq_of hfields <| bind_eq_of (bind_eq_of h1 (JsonText.readNat_int hsmall)) <| bind_eq_of hid <|
    bind_eq_of hpublisher <| bind_eq_of (bind_eq_of h4 (readText_string _)) <| bind_eq_of (bind_eq_of h5 (readText_string _)) <|
    bind_eq_of (bind_eq_of h6 (readText_string _)) <| bind_eq_of hversion <| bind_eq_of (bind_eq_of h8 hlist) <|
    bind_eq_of (bind_eq_of h9 hcapabilities) (checked_eq_some h)

/-- What is read has been checked. -/
theorem deserialize_valid {v : JsonText.Json} (h : deserialize crates v = some manifest) : manifest.validate crates = .ok () := by
  obtain ⟨field, -, h⟩ := Option.bind_eq_some_iff.1 h
  obtain ⟨_, -, h⟩ := Option.bind_eq_some_iff.1 h
  obtain ⟨_, -, h⟩ := Option.bind_eq_some_iff.1 h
  obtain ⟨_, -, h⟩ := Option.bind_eq_some_iff.1 h
  obtain ⟨_, -, h⟩ := Option.bind_eq_some_iff.1 h
  obtain ⟨_, -, h⟩ := Option.bind_eq_some_iff.1 h
  obtain ⟨_, -, h⟩ := Option.bind_eq_some_iff.1 h
  obtain ⟨_, -, h⟩ := Option.bind_eq_some_iff.1 h
  obtain ⟨_, -, h⟩ := Option.bind_eq_some_iff.1 h
  obtain ⟨_, -, h⟩ := Option.bind_eq_some_iff.1 h
  exact (of_checked h).2

end PluginManifest

/-! ## The text -/

theorem plain_guestDto (depth : ℕ) (runtime abi moduleBase64 defaultInput : String) :
    JsonText.Plain (depth + 1) (guestDto runtime abi moduleBase64 defaultInput) := by
  apply JsonText.Plain.record
  simp only [List.forall_mem_cons, List.not_mem_nil, false_imp_iff, implies_true, and_true, plain_string]

theorem PluginCommandParams.plain_canonicalDto (depth : ℕ) {params : PluginCommandParams} (h : params.validate crates = .ok ()) :
    JsonText.Plain (depth + 2) params.canonicalDto := by
  cases params with
  | showInfo params =>
    apply JsonText.Plain.record
    simp only [List.forall_mem_cons, List.not_mem_nil, false_imp_iff, implies_true, and_true, plain_string]
  | openPage params =>
    apply JsonText.Plain.record
    simp only [List.forall_mem_cons, List.not_mem_nil, false_imp_iff, implies_true, and_true, plain_string]
  | computeSeries params =>
    obtain ⟨hmin, hmax, hlow, hhigh⟩ := PluginComputeParams.parameter_bounds h
    have hint : ∀ n : ℤ, -1000000 ≤ n → n ≤ 1000000 → JsonText.Plain depth (.int n) := by
      intro n hn hn'
      apply JsonText.Plain.int
      rw [JsonText.fitsInt, Bool.and_eq_true, decide_eq_true_eq, decide_eq_true_eq]
      omega
    have hparameter : JsonText.Plain (depth + 1) params.parameter.canonicalDto := by
      apply JsonText.Plain.record
      simp only [List.forall_mem_cons, List.not_mem_nil, false_imp_iff, implies_true, and_true, plain_string, true_and]
      exact ⟨hint _ (by omega) (by omega), hint _ (by omega) (by omega), hint _ (by omega) (by omega)⟩
    apply JsonText.Plain.record
    simp only [List.forall_mem_cons, List.not_mem_nil, false_imp_iff, implies_true, and_true, plain_string, true_and]
    exact hparameter
  | strategy params => exact plain_guestDto _ _ _ _ _
  | accountWorkflow params => exact plain_guestDto _ _ _ _ _

theorem PluginCommandContribution.plain_canonicalDto (depth : ℕ) {contribution : PluginCommandContribution}
    (h : contribution.validate crates = .ok ()) : JsonText.Plain (depth + 3) contribution.canonicalDto := by
  apply JsonText.Plain.record
  simp only [List.forall_mem_cons, List.not_mem_nil, false_imp_iff, implies_true, and_true, plain_string, true_and]
  exact PluginCommandParams.plain_canonicalDto depth (validate_params h)

theorem PluginManifest.plain_canonicalDto {manifest : PluginManifest Version} (h : manifest.validate crates = .ok ()) :
    JsonText.Plain JsonText.maxDepth (manifest.canonicalDto crates) := by
  obtain ⟨hschema, hcontributions⟩ := validate_ok h
  refine (JsonText.Plain.record ?_ : JsonText.Plain (126 + 1) _)
  simp only [List.forall_mem_cons, List.not_mem_nil, false_imp_iff, implies_true, and_true, plain_string, true_and]
  refine ⟨.int 126 ?_, ?_, ?_⟩
  · rw [JsonText.fitsInt, Bool.and_eq_true, decide_eq_true_eq, decide_eq_true_eq]
    omega
  · have hall : ∀ v ∈ manifest.contributions.map (·.canonicalDto), JsonText.Plain 125 v := by
      intro v hv
      obtain ⟨c, hc, rfl⟩ := List.mem_map.1 hv
      exact PluginCommandContribution.plain_canonicalDto 122 (hcontributions c hc)
    exact .array hall
  · have hall : ∀ v ∈ manifest.requestedCapabilities.map string, JsonText.Plain 125 v := by
      intro v hv
      obtain ⟨c, -, rfl⟩ := List.mem_map.1 hv
      exact plain_string 125 c
    exact .array hall

/-- A manifest is read back from its canonical bytes. -/
theorem parse_canonicalManifestBytes {manifest : PluginManifest Version} (h : manifest.validate crates = .ok ()) :
    parseManifest crates (canonicalManifestBytes crates manifest) = some manifest := by
  rw [parseManifest, canonicalManifestBytes, JsonText.fromBytes_toBytes (PluginManifest.plain_canonicalDto h),
    PluginManifest.deserialize_canonicalDto h]

/-! ## The order of the members -/

open JsonText (insensitive_readText insensitive_readInt insensitive_readNat)

theorem PluginInfoParams.insensitive_deserialize : Insensitive deserialize := by
  apply Insensitive.ofFields
  intro f g h
  rw [(h "title").bind insensitive_readText, (h "text").bind insensitive_readText]

theorem PluginOpenPageParams.insensitive_deserialize : Insensitive deserialize := by
  apply Insensitive.ofFields
  intro f g h
  rw [(h "destination").bind insensitive_readText]

theorem ComputeParameter.insensitive_deserialize : Insensitive deserialize := by
  have hint : Insensitive readI32 := insensitive_readInt _ _
  apply Insensitive.ofFields
  intro f g h
  rw [(h "label").bind insensitive_readText, (h "default").bind hint, (h "min").bind hint, (h "max").bind hint]

theorem PluginComputeParams.insensitive_deserialize : Insensitive (deserialize crates) := by
  apply Insensitive.ofFields
  intro f g h
  rw [(h "runtime").bind insensitive_readText, (h "abi").bind insensitive_readText,
    (h "moduleBase64").bind insensitive_readText, (h "parameter").bind ComputeParameter.insensitive_deserialize]

theorem insensitive_readGuest {α : Type} (build : String → String → String → String → Option α) :
    Insensitive (readGuest build) := by
  apply Insensitive.ofFields
  intro f g h
  rw [(h "runtime").bind insensitive_readText, (h "abi").bind insensitive_readText,
    (h "moduleBase64").bind insensitive_readText, (h "defaultInput").bind insensitive_readText]

theorem PluginCommandParams.insensitive_deserialize : Insensitive (deserialize crates) := by
  intro v w h
  unfold deserialize PluginStrategyParams.deserialize PluginWorkflowParams.deserialize
  rw [PluginInfoParams.insensitive_deserialize v w h, PluginOpenPageParams.insensitive_deserialize v w h,
    PluginComputeParams.insensitive_deserialize v w h, insensitive_readGuest _ v w h, insensitive_readGuest _ v w h]

theorem PluginCommandContribution.insensitive_deserialize : Insensitive (deserialize crates) := by
  apply Insensitive.ofFields
  intro f g h
  rw [(h "kind").bind insensitive_readText, (h "contributionId").bind insensitive_readText,
    (h "title").bind insensitive_readText, (h "actionId").bind insensitive_readText,
    (h "params").bind PluginCommandParams.insensitive_deserialize]

/-- **The reader of a manifest does not care in what order the members of its objects stand.** -/
theorem PluginManifest.insensitive_deserialize : Insensitive (deserialize crates) := by
  have hcontributions : Insensitive (readList (PluginCommandContribution.deserialize crates)) :=
    PluginCommandContribution.insensitive_deserialize.readList
  have hcapabilities : Insensitive (readList readText) := insensitive_readText.readList
  apply Insensitive.ofFields
  intro f g h
  rw [(h "schemaVersion").bind (insensitive_readNat 32), (h "id").bind insensitive_readText,
    (h "publisherId").bind insensitive_readText, (h "publisher").bind insensitive_readText,
    (h "name").bind insensitive_readText, (h "description").bind insensitive_readText, (h "version").bind insensitive_readText,
    (h "contributions").bind hcontributions, (h "requestedCapabilities").bind hcapabilities]

/-! ## Fingerprints -/

theorem canonicalManifestBytes_injective {m n : PluginManifest Version} (hm : m.validate crates = .ok ())
    (hn : n.validate crates = .ok ()) (h : canonicalManifestBytes crates m = canonicalManifestBytes crates n) : m = n := by
  have hread : some m = some n := by rw [← parse_canonicalManifestBytes hm, h, parse_canonicalManifestBytes hn]
  exact Option.some.inj hread

theorem fingerprintInput_injective {m n : PluginManifest Version} (hm : m.validate crates = .ok ())
    (hn : n.validate crates = .ok ()) (h : fingerprintInput crates m = fingerprintInput crates n) : m = n := by
  apply canonicalManifestBytes_injective hm hn
  exact (ByteArray.append_right_inj localFingerprintDomain).1 h

/-- The fingerprint shows the digest. -/
theorem fingerprint_injective {a b : Fin (2 ^ 256)}
    (h : "v1:sha256:" ++ formatLowerHex 64 a.val = "v1:sha256:" ++ formatLowerHex 64 b.val) : a = b := by
  have htext := congrArg String.toList h
  rw [String.toList_append, String.toList_append, List.append_cancel_left_eq] at htext
  have ha : parseFixedLowerHex 64 (formatLowerHex 64 a.val) = some a.val :=
    parse_formatLowerHex (a.isLt.trans_le (by norm_num))
  have hb : parseFixedLowerHex 64 (formatLowerHex 64 b.val) = some b.val :=
    parse_formatLowerHex (b.isLt.trans_le (by norm_num))
  rw [String.toList_inj.1 htext, hb] at ha
  exact Fin.ext (Option.some.inj ha).symm

theorem localDeclarative_ok {m : PluginManifest Version} {r : PluginRecord Version} (h : localDeclarative crates m = .ok r) :
    m.validate crates = .ok () ∧ r.manifest = m ∧
      r.approvalFingerprint = "v1:sha256:" ++ formatLowerHex 64 (crates.sha256 (fingerprintInput crates m)).val := by
  rw [localDeclarative, bind_eq_ok] at h
  obtain ⟨⟨⟩, hv, h⟩ := h
  obtain rfl := Except.ok.inj h
  exact ⟨hv, rfl, rfl⟩

/-- **Plugin manifests have one canonical form.** The texts that are read as a manifest may differ in white space and in the
order of their members, which is what `Written` and `Reordered` leave open. -/
theorem manifests_canonical (crates : Crates Version) :
    (∀ manifest : PluginManifest Version, manifest.validate crates = .ok () →
      parseManifest crates (canonicalManifestBytes crates manifest) = some manifest) ∧
    (∀ params : PluginCommandParams, params.validate crates = .ok () →
      PluginCommandParams.deserialize crates params.canonicalDto = some params) ∧
    (∀ (manifest : PluginManifest Version) (v : JsonText.Json) (text : List Char), manifest.validate crates = .ok () →
      Reordered (manifest.canonicalDto crates) v → Written JsonText.maxDepth v text →
      parseManifest crates (String.ofList text).toUTF8 = some manifest) ∧
    (∀ (bytes bytes' : ByteArray) (v v' : JsonText.Json), fromBytes some bytes = some v → fromBytes some bytes' = some v' →
      Reordered v v' → parseManifest crates bytes = parseManifest crates bytes' ∧
        (parseManifest crates bytes).map (canonicalManifestBytes crates) =
          (parseManifest crates bytes').map (canonicalManifestBytes crates)) ∧
    (∀ (bytes : ByteArray) (manifest : PluginManifest Version), parseManifest crates bytes = some manifest →
      manifest.validate crates = .ok ()) ∧
    ∀ (m n : PluginManifest Version) (r s : PluginRecord Version), localDeclarative crates m = .ok r →
      localDeclarative crates n = .ok s →
      (crates.sha256 (fingerprintInput crates m) = crates.sha256 (fingerprintInput crates n) →
        fingerprintInput crates m = fingerprintInput crates n) →
      (r.approvalFingerprint = s.approvalFingerprint ↔ r.manifest = s.manifest) := by
  refine ⟨fun manifest h => parse_canonicalManifestBytes h, fun params h => params.deserialize_canonicalDto h, ?_, ?_, ?_, ?_⟩
  · intro manifest v text h hv htext
    rw [parseManifest, JsonText.fromBytes_written htext, ← PluginManifest.insensitive_deserialize _ _ hv,
      PluginManifest.deserialize_canonicalDto h]
  · intro bytes bytes' v v' hread hread' hv
    -- reading is decoding the value, which does not see the order of members
    have hdecode : ∀ {bytes : ByteArray} {v : JsonText.Json}, fromBytes some bytes = some v →
        parseManifest crates bytes = PluginManifest.deserialize crates v := by
      intro bytes v h
      simp only [fromBytes, Option.bind_eq_some_iff] at h
      obtain ⟨text, htext, value, hvalue, heq⟩ := h
      obtain rfl := Option.some.inj heq
      simp only [parseManifest, fromBytes, htext, hvalue, Option.bind_some]
    have heq : parseManifest crates bytes = parseManifest crates bytes' := by
      rw [hdecode hread, hdecode hread', PluginManifest.insensitive_deserialize v v' hv]
    exact ⟨heq, by rw [heq]⟩
  · intro bytes manifest h
    simp only [parseManifest, fromBytes, Option.bind_eq_some_iff] at h
    obtain ⟨_, -, v, -, h⟩ := h
    exact PluginManifest.deserialize_valid h
  · intro m n r s hr hs hfree
    obtain ⟨hm, hrm, hrf⟩ := localDeclarative_ok hr
    obtain ⟨hn, hsn, hsf⟩ := localDeclarative_ok hs
    rw [hrm, hsn, hrf, hsf]
    constructor
    · intro h
      exact fingerprintInput_injective hm hn (hfree (fingerprint_injective h))
    · rintro rfl
      rfl

namespace Sample

/-- Versions of three numbers. -/
def isCoreVersion (value : String) : Bool :=
  let numbers := value.toList.splitOn '.'
  decide (numbers.length = 3) && numbers.all fun digits =>
    !digits.isEmpty && digits.all Char.isDigit && !(decide (1 < digits.length) && digits.head? == some '0')

/-- The crates on versions of three numbers and on the empty module. The digest here is the length. -/
def coreCrates : Crates { value : String // isCoreVersion value = true } where
  parse value := if h : isCoreVersion value = true then some ⟨value, h⟩ else none
  toString := Subtype.val
  parse_toString version := dif_pos version.2
  base64Decode text := if text = "AGFzbQEAAAA=" then some moduleHeader else none
  base64Encode bytes := if bytes = moduleHeader then "AGFzbQEAAAA=" else ""
  sha256 bytes := Fin.ofNat (2 ^ 256) bytes.size

/-- A manifest of one guest with an input. -/
def manifest (schemaVersion : ℕ) (actionId : PluginCommandActionId) (params : PluginCommandParams)
    (requestedCapabilities : List String) : PluginManifest { value : String // isCoreVersion value = true } where
  schemaVersion := schemaVersion
  id := Plugin.Sample.pluginId
  publisherId := Plugin.Sample.pluginId
  publisher := "Sample"
  name := "Sample"
  description := "A sample"
  version := ⟨"1.0.0", by decide +kernel⟩
  contributions := [⟨.command, Plugin.Sample.pluginId, "Run", actionId, params⟩]
  requestedCapabilities := requestedCapabilities

def strategy := manifest 6 .sandboxStrategy (.strategy ⟨"wasm-v1", "strategy-json-v1", "AGFzbQEAAAA=", "\x7b\x7d"⟩)
  ["account.read", "strategy.run"]

def workflow := manifest 5 .sandboxAccountWorkflow (.accountWorkflow ⟨"wasm-v1", "account-json-v1", "AGFzbQEAAAA=", "\x7b\x7d"⟩)
  ["account.read"]

end Sample

/-- A strategy and a workflow, which are written with the same names, are both read back. -/
theorem manifests_canonical_sample :
    parseManifest Sample.coreCrates (canonicalManifestBytes Sample.coreCrates Sample.strategy) = some Sample.strategy ∧
      parseManifest Sample.coreCrates (canonicalManifestBytes Sample.coreCrates Sample.workflow) = some Sample.workflow := by
  obtain ⟨hround, -⟩ := manifests_canonical Sample.coreCrates
  exact ⟨hround _ (by decide +kernel), hround _ (by decide +kernel)⟩

end EasiFlux.Plugin.Manifest
