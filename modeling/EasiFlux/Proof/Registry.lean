import EasiFlux.Model.PluginLifecycle
import EasiFlux.Proof.Ownership

/-!
# Catalog versions

A published snapshot is replaced by itself, by one of a later generation, or by one of the
same generation and a later revision (`Newer`). Two facts carry this:

* `publish_candidate` keeps the generation only if nothing it compares has changed, and then
  equal revisions mean equal snapshots;
* imports and removals hand over a newer state to the live registry before, or without, a
  new snapshot. `Coherent`: the snapshot is at most as new as the state, and if it is as
  new as the state it is what the registry derives.

**`versions_monotone`** is the theorem about whole runs.
-/

namespace EasiFlux.Plugin

open Results Newest

/-! ## Runtimes -/

namespace Runtime

/-- The revision a snapshot shows -/
def revision : Runtime → ℕ
  | .available state _ => state.revision
  | .unavailable _ => 0

/-- Nothing a snapshot shows of the two differs. -/
def Same : Runtime → Runtime → Prop
  | .available s _, .available s' _ => s.revision = s'.revision ∧ ∀ record, s.isEnabled record = s'.isEnabled record
  | .unavailable reason, .unavailable reason' => reason = reason'
  | _, _ => False

/-- The second is the first, or a later state. -/
def Leads : Runtime → Runtime → Prop
  | .available s b, .available s' b' => s.revision < s'.revision ∨ Same (.available s b) (.available s' b')
  | .unavailable reason, .unavailable reason' => reason = reason'
  | _, _ => False

theorem Same.refl (a : Runtime) : Same a a := by
  cases a with
  | available s b => exact ⟨rfl, fun _ => rfl⟩
  | unavailable reason => rfl

theorem Leads.refl (a : Runtime) : Leads a a := by
  cases a with
  | available s b => exact .inr (Same.refl _)
  | unavailable reason => rfl

variable {a b : Runtime}

theorem Leads.revision_le (h : Leads a b) : a.revision ≤ b.revision := by
  cases a with
  | available s rw =>
    cases b with
    | available s' rw' =>
      rcases h with h | h
      · exact le_of_lt h
      · exact le_of_eq h.1
    | unavailable reason => exact h.elim
  | unavailable reason =>
    cases b with
    | available s' rw' => exact h.elim
    | unavailable reason' => exact le_rfl

/-- Equal revisions of a runtime and one that leads it show the same. -/
theorem Leads.same (h : Leads a b) (he : a.revision = b.revision) : Same a b := by
  cases a with
  | available s rw =>
    cases b with
    | available s' rw' =>
      rcases h with h | h
      · exact absurd he (ne_of_lt h)
      · exact h
    | unavailable reason => exact h.elim
  | unavailable reason =>
    cases b with
    | available s' rw' => exact h.elim
    | unavailable reason' => exact h

theorem Leads.trans {c : Runtime} (h : Leads a b) (h' : Leads b c) : Leads a c := by
  cases a with
  | available s rw =>
    cases b with
    | unavailable reason => exact h.elim
    | available s' rw' =>
      cases c with
      | unavailable reason => exact h'.elim
      | available s'' rw'' =>
        rcases h with h | h
        · rcases h' with h' | h'
          · exact .inl (lt_trans h h')
          · exact .inl (h'.1 ▸ h)
        · rcases h' with h' | h'
          · exact .inl (h.1 ▸ h')
          · exact .inr ⟨h.1.trans h'.1, fun record => (h.2 record).trans (h'.2 record)⟩
  | unavailable reason =>
    cases b with
    | available s' rw' => exact h.elim
    | unavailable reason' =>
      cases c with
      | available s'' rw'' => exact h'.elim
      | unavailable reason'' => exact Eq.trans (show reason = reason' from h) h'

end Runtime

/-! ## What a snapshot is derived from -/

/-- What the items show of the structure of the catalog -/
def itemBasis (item : PluginCatalogItem) :
    PluginManifest × PluginSource × PluginManagement × Option PluginToggleBlockReason × List String :=
  (item.manifest, item.source, item.management, item.toggleBlockReasonCode, item.grantedCapabilities)

theorem sameStructure_iff {a b : PluginCatalogItem} : a.sameStructure b = true ↔ itemBasis a = itemBasis b := by
  unfold PluginCatalogItem.sameStructure itemBasis
  rw [decide_eq_true_eq]
  simp only [Prod.mk.injEq]

/-- The catalog structure: what `publish_candidate` compares. -/
structure Basis where
  locals : OrdMap PluginId PluginRecord
  locators : OrdMap PluginId LocalPackageLocator
  management : Classes
  localSummary : LocalDiscoverySummary
  ownershipSummary : ManagedOwnershipSummary
  entries : Option (List ManagedOwnershipEntryV1)
  occupiedSlots : List PackageSlot
  observations : List RemovalObservation
  removalSlots : List RemovalSlot
  unavailable : Option PluginAvailabilityReason
  deriving DecidableEq

def CatalogPublicationCandidate.basis (p : CatalogPublicationCandidate) : Basis where
  locals := p.locals
  locators := p.locators
  management := p.management
  localSummary := p.localSummary
  ownershipSummary := p.ownershipSummary
  entries := p.ownership.entries
  occupiedSlots := p.discovery.occupiedSlots
  observations := p.discovery.removals.observations
  removalSlots := p.discovery.removals.occupiedSlots
  unavailable := match p.runtime with
    | .available _ _ => none
    | .unavailable reason => some reason

section Derive

variable {B : OrdMap PluginId PluginRecord} {p q : CatalogPublicationCandidate}

@[simp] theorem deriveSnapshot_generation : (deriveSnapshot B p).catalogGeneration = p.catalogGeneration := rfl

@[simp] theorem deriveSnapshot_revision : (deriveSnapshot B p).revision = p.runtime.revision := by
  unfold deriveSnapshot Runtime.revision
  cases p.runtime <;> rfl

theorem deriveItem_congr (hm : p.management = q.management) (hr : p.runtime.Same q.runtime) (record : PluginRecord) :
    deriveItem p record = deriveItem q record := by
  unfold deriveItem managementForRecord
  rw [hm]
  revert hr
  cases hp : p.runtime with
  | available s b =>
    cases hq : q.runtime with
    | available s' b' =>
      intro hr
      dsimp only
      rw [hr.2 record]
    | unavailable reason => exact False.elim
  | unavailable reason =>
    cases hq : q.runtime with
    | available s' b' => exact False.elim
    | unavailable reason' =>
      intro hr
      cases hr
      rfl

/-- Equal structure and the same decisions derive the same snapshot. -/
theorem deriveSnapshot_congr (hl : p.locals = q.locals) (hm : p.management = q.management)
    (hs : p.localSummary = q.localSummary) (ho : p.ownershipSummary = q.ownershipSummary)
    (hg : p.catalogGeneration = q.catalogGeneration) (hr : p.runtime.Same q.runtime) :
    deriveSnapshot B p = deriveSnapshot B q := by
  have hitems : ∀ record, deriveItem p record = deriveItem q record := deriveItem_congr hm hr
  have hrev : (deriveSnapshot B p).revision = (deriveSnapshot B q).revision := by
    rw [deriveSnapshot_revision, deriveSnapshot_revision]
    revert hr
    unfold Runtime.revision
    cases p.runtime <;> cases q.runtime
    · exact fun h => h.1
    · exact False.elim
    · exact False.elim
    · exact fun _ => rfl
  unfold deriveSnapshot at *
  simp only [PluginCatalogSnapshot.mk.injEq, true_and]
  refine ⟨hrev, hg, ?_, ?_, hs, ho, ?_⟩
  · revert hr
    cases p.runtime <;> cases q.runtime
    · exact fun _ => rfl
    · exact False.elim
    · exact False.elim
    · exact fun _ => rfl
  · revert hr
    cases p.runtime <;> cases q.runtime
    · exact fun _ => rfl
    · exact False.elim
    · exact False.elim
    · exact fun h => congrArg some h
  · rw [hl]
    exact List.map_congr_left fun x _ => hitems x.2

@[simp] theorem catalogItem_manifest (record : PluginRecord) (enabled : Bool) :
    (catalogItem record enabled).manifest = record.manifest := by
  cases enabled <;> rfl

@[simp] theorem catalogItem_source (record : PluginRecord) (enabled : Bool) :
    (catalogItem record enabled).source = record.source := by
  cases enabled <;> rfl

theorem itemBasis_withManagement (item : PluginCatalogItem) (m : PluginManagement) :
    itemBasis (item.withManagement m) =
      (item.manifest, item.source, m, if m = .removalPending then some .removalPending else none, []) := by
  unfold itemBasis PluginCatalogItem.withManagement PluginCatalogItem.project
  simp

/-- The structure of the items does not depend on the decisions. -/
theorem itemBasis_deriveItem (p : CatalogPublicationCandidate) (record : PluginRecord) :
    itemBasis (deriveItem p record) =
      (record.manifest, record.source, managementForRecord p record,
        if managementForRecord p record = .removalPending then some .removalPending else none, []) := by
  unfold deriveItem
  rw [itemBasis_withManagement]
  cases p.runtime with
  | available s b => simp only [catalogItem_manifest, catalogItem_source]
  | unavailable reason => rfl

theorem itemBasis_deriveSnapshot (hl : p.locals = q.locals) (hm : p.management = q.management) :
    (deriveSnapshot B p).plugins.map itemBasis = (deriveSnapshot B q).plugins.map itemBasis := by
  unfold deriveSnapshot
  dsimp only
  rw [hl, List.map_map, List.map_map]
  refine List.map_congr_left fun x _ => ?_
  have hx : managementForRecord p x.2 = managementForRecord q x.2 := by
    unfold managementForRecord
    rw [hm]
  simp only [Function.comp, itemBasis_deriveItem, hx]

end Derive

/-! ## Publishing -/

theorem zip_eq_of_map_eq {α β : Type} {f : α → β} {as bs : List α} (h : as.map f = bs.map f) {a b : α}
    (hab : (a, b) ∈ as.zip bs) : f a = f b := by
  induction as generalizing bs with
  | nil => cases hab
  | cons x as ih =>
    cases bs with
    | nil => cases hab
    | cons y bs =>
      rw [List.map_cons, List.map_cons, List.cons.injEq] at h
      rw [List.zip_cons_cons, List.mem_cons] at hab
      rcases hab with hab | hab
      · cases hab
        exact h.1
      · exact ih h.2 hab

namespace PluginRegistry

variable {r r' : PluginRegistry} {next : CatalogPublicationCandidate} {first : Bool}

/-- The candidate that `publish_candidate` compares -/
def derived (r : PluginRegistry) (next : CatalogPublicationCandidate) : CatalogPublicationCandidate :=
  { next with snapshot := deriveSnapshot r.builtins next }

/-- The registry that has published `next` under the generation `g`. -/
def published (r : PluginRegistry) (next : CatalogPublicationCandidate) (g : ℕ) : PluginRegistry :=
  { r with publication :=
    { next with
      catalogGeneration := g
      snapshot := deriveSnapshot r.builtins { next with catalogGeneration := g } } }

/-- **What `publish_candidate` does**: a change of the structure gets the next generation, and
without one the generation of the candidate stays. -/
theorem publishCandidate_ok {changed : Bool} (h : r.publishCandidate next first = .ok (changed, r')) :
    (r.structural (r.derived next) first = true ∧ r.publication.catalogGeneration + 1 ≤ maxRevision ∧
      r' = r.published next (r.publication.catalogGeneration + 1)) ∨
    (r.structural (r.derived next) first = false ∧ r' = r.published next next.catalogGeneration) := by
  unfold publishCandidate at h
  dsimp only at h
  split at h
  · rename_i hs
    left
    rw [bind_eq_ok] at h
    obtain ⟨_, he, h⟩ := h
    rw [ensure_eq_ok] at he
    rw [pure_eq_ok, Prod.mk.injEq] at h
    exact ⟨hs, he, h.2.symm⟩
  · rename_i hs
    right
    rw [pure_eq_ok, Prod.mk.injEq] at h
    exact ⟨Bool.eq_false_iff.2 hs, h.2.symm⟩

/-- What stays the same if the structure does. -/
theorem structural_eq_false (h : r.structural next first = false) :
    next.locals = r.publication.locals ∧ next.management = r.publication.management ∧
    next.localSummary = r.publication.localSummary ∧ next.ownershipSummary = r.publication.ownershipSummary ∧
    next.ownership.entries = r.publication.ownership.entries ∧ next.locators = r.publication.locators ∧
    next.discovery.occupiedSlots = r.publication.discovery.occupiedSlots ∧
    next.discovery.removals.observations = r.publication.discovery.removals.observations ∧
    next.discovery.removals.occupiedSlots = r.publication.discovery.removals.occupiedSlots ∧
    next.snapshot.availability = r.publication.snapshot.availability ∧
    next.snapshot.availabilityReasonCode = r.publication.snapshot.availabilityReasonCode ∧
    (next.snapshot.revision = r.publication.snapshot.revision → next.snapshot = r.publication.snapshot) ∧
    (first = true → r.publication.catalogGeneration ≠ 0) := by
  unfold structural at h
  simp only [Bool.or_eq_false_iff, decide_eq_false_iff_not, not_or, not_not, not_and, Bool.and_eq_false_iff] at h
  obtain ⟨⟨⟨⟨h1, h2, h3, h4, h5, h6, h7, h8, h9, h10, h11, -⟩, -⟩, h12⟩, h13⟩ := h
  refine ⟨h1, h3, h4, h5, h6, h2, h7, h8, h9, h10, h11, h12, ?_⟩
  intro hf
  rcases h13 with h13 | h13
  · rw [hf] at h13
    cases h13
  · exact h13

/-! ### Newer snapshots -/

end PluginRegistry

/-- The second snapshot is the first one, or its version is later. -/
def Newer (s s' : PluginCatalogSnapshot) : Prop :=
  s = s' ∨ s.catalogGeneration < s'.catalogGeneration ∨
    (s.catalogGeneration = s'.catalogGeneration ∧ s.revision < s'.revision)

theorem Newer.refl (s : PluginCatalogSnapshot) : Newer s s := .inl rfl

theorem Newer.trans {a b c : PluginCatalogSnapshot} (h : Newer a b) (h' : Newer b c) : Newer a c := by
  rcases h with rfl | h
  · exact h'
  · rcases h' with rfl | h'
    · exact .inr h
    · right
      omega

/-- The snapshot of the registry is at most as new as its state. -/
structure Coherent (r : PluginRegistry) : Prop where
  generation : r.publication.snapshot.catalogGeneration = r.publication.catalogGeneration
  availability : r.publication.snapshot.availability = (deriveSnapshot r.builtins r.publication).availability
  reason : r.publication.snapshot.availabilityReasonCode =
    (deriveSnapshot r.builtins r.publication).availabilityReasonCode
  items : r.publication.snapshot.plugins.map itemBasis = (deriveSnapshot r.builtins r.publication).plugins.map itemBasis
  revision : r.publication.snapshot.revision ≤ r.publication.runtime.revision
  same : r.publication.snapshot.revision = r.publication.runtime.revision →
    r.publication.snapshot = deriveSnapshot r.builtins r.publication

namespace PluginRegistry

variable {r r' c : PluginRegistry} {next : CatalogPublicationCandidate} {first : Bool}

/-- A registry whose snapshot was just derived. -/
theorem coherent_of_derived (h : r.publication.snapshot = deriveSnapshot r.builtins r.publication) : Coherent r where
  generation := by rw [h]; rfl
  availability := by rw [h]
  reason := by rw [h]
  items := by rw [h]
  revision := by rw [h, deriveSnapshot_revision]
  same _ := h

theorem coherent_published (g : ℕ) : Coherent (r.published next g) := coherent_of_derived rfl

/-- **Publishing never goes back.** The candidate was derived from this registry: its generation
is not earlier, and neither is its state if both states can be read. -/
theorem publishCandidate_newer {changed : Bool} (hr : Coherent r) (h : r.publishCandidate next first = .ok (changed, r'))
    (hg : r.publication.catalogGeneration ≤ next.catalogGeneration)
    (hrev : r.publication.snapshot.availability = (deriveSnapshot r.builtins next).availability →
      r.publication.snapshot.revision ≤ next.runtime.revision) :
    Newer r.publication.snapshot r'.publication.snapshot := by
  rcases publishCandidate_ok h with ⟨-, -, rfl⟩ | ⟨hs, rfl⟩
  · right; left
    show r.publication.snapshot.catalogGeneration < r.publication.catalogGeneration + 1
    rw [hr.generation]
    exact Nat.lt_succ_self _
  · obtain ⟨-, -, -, -, -, -, -, -, -, hav, -, heq, -⟩ := structural_eq_false hs
    have hsnap : (r.published next next.catalogGeneration).publication.snapshot = deriveSnapshot r.builtins next := rfl
    have hle := hrev hav.symm
    rw [hsnap]
    by_cases hgen : r.publication.catalogGeneration < next.catalogGeneration
    · right; left
      rw [hr.generation]
      exact hgen
    · by_cases hlt : r.publication.snapshot.revision < next.runtime.revision
      · right; right
        rw [hr.generation, deriveSnapshot_generation, deriveSnapshot_revision]
        exact ⟨by omega, hlt⟩
      · left
        refine (heq ?_).symm
        show (deriveSnapshot r.builtins next).revision = _
        rw [deriveSnapshot_revision]
        omega

/-- **Publishing an unchanged structure keeps the generation**, unless it is the first scan. -/
theorem structural_of_basis (hr : Coherent r) (hb : next.basis = r.publication.basis)
    (hg : next.catalogGeneration = r.publication.catalogGeneration) (hl : r.publication.runtime.Leads next.runtime)
    (hfirst : first = true → r.publication.catalogGeneration ≠ 0) :
    r.structural (r.derived next) first = false := by
  have hb' := hb
  unfold CatalogPublicationCandidate.basis at hb'
  simp only [Basis.mk.injEq] at hb'
  obtain ⟨h1, h2, h3, h4, h5, h6, h7, h8, h9, h10⟩ := hb'
  have hav : (deriveSnapshot r.builtins next).availability = r.publication.snapshot.availability ∧
      (deriveSnapshot r.builtins next).availabilityReasonCode = r.publication.snapshot.availabilityReasonCode := by
    rw [hr.availability, hr.reason]
    unfold deriveSnapshot
    dsimp only
    revert h10
    cases next.runtime <;> cases r.publication.runtime
    · exact fun _ => ⟨rfl, rfl⟩
    · exact nofun
    · exact nofun
    · exact fun h => ⟨rfl, h⟩
  have hitems : (deriveSnapshot r.builtins next).plugins.map itemBasis = r.publication.snapshot.plugins.map itemBasis := by
    rw [hr.items]
    exact itemBasis_deriveSnapshot h1 h3
  -- equal revisions: the snapshot is as new as the state, and the state has not moved
  have hsame : (deriveSnapshot r.builtins next).revision = r.publication.snapshot.revision →
      deriveSnapshot r.builtins next = r.publication.snapshot := by
    intro he
    rw [deriveSnapshot_revision] at he
    have hle := hl.revision_le
    have hrev := hr.revision
    rw [hr.same (by omega)]
    exact (deriveSnapshot_congr h1.symm h3.symm h4.symm h5.symm hg.symm (hl.same (by omega))).symm
  unfold structural derived
  simp only [Bool.or_eq_false_iff, decide_eq_false_iff_not, not_or, not_not, not_and, Bool.and_eq_false_iff]
  refine ⟨⟨⟨⟨h1, h2, h3, h4, h5, h6, h7, h8, h9, hav.1, hav.2, ?_⟩, ?_⟩, hsame⟩, ?_⟩
  · have := congrArg List.length hitems
    rwa [List.length_map, List.length_map] at this
  · rw [List.any_eq_false]
    rintro ⟨a, b⟩ hab
    rw [Bool.not_eq_true', Bool.not_eq_false, sameStructure_iff]
    exact zip_eq_of_map_eq hitems hab
  · by_cases hf : first = true
    · exact .inr (hfirst hf)
    · exact .inl (Bool.eq_false_iff.2 hf)

end PluginRegistry

/-! ## The operations -/

namespace PluginRegistry

variable {r r' c : PluginRegistry} {next : CatalogPublicationCandidate} {first : Bool}

theorem basis_published (g : ℕ) : (r.published next g).publication.basis = next.basis := rfl

/-- If nothing `publish_candidate` compares has changed, the structure has not. -/
theorem basis_of_structural (hr : Coherent r) (h : r.structural (r.derived next) first = false) :
    next.basis = r.publication.basis := by
  obtain ⟨h1, h2, h3, h4, h5, h6, h7, h8, h9, hav, hre, -, -⟩ := structural_eq_false h
  have hu : next.basis.unavailable = r.publication.basis.unavailable := by
    have hre' : (deriveSnapshot r.builtins next).availabilityReasonCode =
        (deriveSnapshot r.builtins r.publication).availabilityReasonCode := hre.trans hr.reason
    unfold deriveSnapshot at hre'
    unfold CatalogPublicationCandidate.basis
    dsimp only at hre' ⊢
    exact hre'
  unfold CatalogPublicationCandidate.basis at *
  simp only [Basis.mk.injEq]
  exact ⟨h1, h6, h2, h3, h4, h5, h7, h8, h9, hu⟩

/-- New documents under an old snapshot. -/
def withDocuments (r : PluginRegistry) (runtime : Runtime) (ownership : OwnershipRuntime) (flag : Bool) : PluginRegistry :=
  { r with
    publication := { r.publication with runtime, ownership }
    removalAuthorityUnreconciled := flag }

theorem coherent_withDocuments (hr : Coherent r) {runtime : Runtime} (hl : r.publication.runtime.Leads runtime)
    (ownership : OwnershipRuntime) (flag : Bool) : Coherent (r.withDocuments runtime ownership flag) where
  generation := hr.generation
  availability := by
    show r.publication.snapshot.availability = _
    rw [hr.availability]
    unfold deriveSnapshot withDocuments
    revert hl
    dsimp only
    cases r.publication.runtime <;> cases runtime
    · exact fun _ => rfl
    · exact False.elim
    · exact False.elim
    · exact fun _ => rfl
  reason := by
    show r.publication.snapshot.availabilityReasonCode = _
    rw [hr.reason]
    unfold deriveSnapshot withDocuments
    revert hl
    dsimp only
    cases r.publication.runtime <;> cases runtime
    · exact fun _ => rfl
    · exact False.elim
    · exact False.elim
    · exact fun h => congrArg some h
  items := hr.items.trans (itemBasis_deriveSnapshot rfl rfl)
  revision := hr.revision.trans hl.revision_le
  same he := by
    have hle := hl.revision_le
    have hrev := hr.revision
    have he' : r.publication.snapshot.revision = runtime.revision := he
    have hsame : r.publication.snapshot = deriveSnapshot r.builtins r.publication := hr.same (by omega)
    exact hsame.trans (deriveSnapshot_congr rfl rfl rfl rfl rfl (hl.same (by omega)))

/-! ### Decisions -/

theorem isEnabled_of_perm {s s' : PluginStateFileV2} (h : s.entries.Perm s'.entries) (record : PluginRecord) :
    s.isEnabled record = s'.isEnabled record := by
  unfold PluginStateFileV2.isEnabled
  rw [Bool.eq_iff_iff, List.any_eq_true, List.any_eq_true]
  exact ⟨fun ⟨x, hx, hm⟩ => ⟨x, h.mem_iff.1 hx, hm⟩, fun ⟨x, hx, hm⟩ => ⟨x, h.mem_iff.2 hx, hm⟩⟩

/-- What a decision that has to be saved looks like. -/
theorem nextDecision_some {state next : PluginStateFileV2} {rewrite enabled : Bool} {record : PluginRecord}
    (h : nextDecision state rewrite record enabled = .ok (some next)) :
    next.validateForPersistence = true ∧ next.schemaVersion = state.schemaVersion ∧
      next.entries = sortStateEntries (decideEntries (sortStateEntries state.entries) record.identity enabled) ∧
      ((next.revision = state.revision + 1 ∧ next.revision ≤ maxRevision) ∨
        (next.revision = state.revision ∧ next.entries = sortStateEntries state.entries)) := by
  unfold nextDecision at h
  simp only [bind_eq_ok, ensure_eq_ok] at h
  obtain ⟨-, -, h⟩ := h
  split at h
  · cases h
  · split at h
    · simp only [bind_eq_ok, ensure_eq_ok, pure_eq_ok] at h
      obtain ⟨-, hmax, _, rfl, -, hval, h⟩ := h
      cases h
      exact ⟨hval, rfl, rfl, .inl ⟨rfl, hmax⟩⟩
    · rename_i he
      simp only [bind_eq_ok, ensure_eq_ok, pure_eq_ok] at h
      obtain ⟨_, rfl, -, hval, h⟩ := h
      cases h
      exact ⟨hval, rfl, rfl, .inr ⟨rfl, not_not.1 he⟩⟩

theorem nextDecision_leads {state next : PluginStateFileV2} {rewrite enabled : Bool} {record : PluginRecord}
    (h : nextDecision state rewrite record enabled = .ok (some next)) :
    (Runtime.available state rewrite).Leads (.available next false) := by
  obtain ⟨-, -, -, ⟨hrev, -⟩ | ⟨hrev, hent⟩⟩ := nextDecision_some h
  · left
    omega
  · right
    refine ⟨hrev.symm, isEnabled_of_perm ?_⟩
    rw [hent]
    exact (List.mergeSort_perm _ _).symm

/-- A registry with a saved decision, and its new snapshot. -/
def decided (r : PluginRegistry) (next : PluginStateFileV2) : PluginRegistry :=
  { r with publication :=
    { r.publication with
      runtime := .available next false
      snapshot := deriveSnapshot r.builtins { r.publication with runtime := .available next false } } }

/-- **What a decision does** to the registry: nothing, or the committed state is published. -/
theorem persistDecision_cases (record : PluginRecord) (enabled : Bool) (save : Option PersistResult) :
    (r.persistDecisionWithOutcome record enabled save).2 = r ∨
    ∃ state rewrite next result, r.removalAuthorityUnreconciled = false ∧
      r.publication.runtime = .available state rewrite ∧
      nextDecision state rewrite record enabled = .ok (some next) ∧ save = some result ∧
      result.outcome.committed = true ∧ (r.persistDecisionWithOutcome record enabled save).2 = r.decided next := by
  unfold persistDecisionWithOutcome
  by_cases hu : r.removalAuthorityUnreconciled = true
  · rw [if_pos hu]
    exact .inl rfl
  · rw [if_neg hu]
    cases hrt : r.publication.runtime with
    | unavailable reason => exact .inl rfl
    | available state rewrite =>
      dsimp only
      cases hd : nextDecision state rewrite record enabled with
      | error e => exact .inl rfl
      | ok d =>
        cases d with
        | none => exact .inl rfl
        | some next =>
          cases save with
          | none => exact .inl rfl
          | some result =>
            by_cases hc : result.outcome.committed = true
            · right
              refine ⟨state, rewrite, next, result, Bool.eq_false_iff.2 hu, rfl, hd, rfl, hc, ?_⟩
              cases result with
              | ok outcome =>
                dsimp only
                simp only [hc, if_true]
                split <;> rfl
              | error outcome =>
                dsimp only
                simp only [hc, if_true]
                rfl
            · left
              cases result with
              | ok outcome =>
                dsimp only
                simp only [hc, Bool.false_eq_true, if_false]
                split <;> rfl
              | error outcome =>
                dsimp only
                simp only [hc, Bool.false_eq_true, if_false]

theorem coherent_decided (next : PluginStateFileV2) : Coherent (r.decided next) := coherent_of_derived rfl

theorem decided_newer (hr : Coherent r) {next : PluginStateFileV2} (hl : r.publication.runtime.Leads (.available next false)) :
    Newer r.publication.snapshot (r.decided next).publication.snapshot := by
  have hle := hl.revision_le
  have hrev := hr.revision
  by_cases hlt : r.publication.snapshot.revision < (Runtime.available next false).revision
  · right; right
    exact ⟨hr.generation, hlt⟩
  · left
    rw [hr.same (by omega)]
    exact deriveSnapshot_congr (p := r.publication) (q := { r.publication with runtime := .available next false })
      rfl rfl rfl rfl rfl (hl.same (by omega))

/-! ### Scans -/

/-- The candidate of a scan -/
def scanned (r : PluginRegistry) (scan : Scan) : CatalogPublicationCandidate :=
  { r.withDiscovery r.publication scan.outcome (r.reconciliation scan) with
    runtime := (loadStateIfNeeded r.publication.runtime scan.stateLoad).2 }

theorem loadState_cases (runtime : Runtime) (load : Option (AppResult PluginStateLoad)) :
    (loadStateIfNeeded runtime load).2 = runtime ∨
    (runtime = .unavailable .stateUnavailable ∧ ∃ loaded, load = some (.ok loaded) ∧ loaded.state.validate = true ∧
      (loadStateIfNeeded runtime load).2 = .available loaded.state loaded.requiresRewrite) := by
  unfold loadStateIfNeeded
  by_cases h : runtime = .unavailable .stateUnavailable
  · rw [if_pos h]
    cases load with
    | none => exact .inl rfl
    | some load =>
      cases load with
      | error e => exact .inl rfl
      | ok loaded =>
        dsimp only [loadedState]
        by_cases hv : loaded.state.validate = true
        · right
          rw [if_pos hv]
          exact ⟨h, loaded, rfl, hv, rfl⟩
        · left
          rw [if_neg hv]
          rfl
  · rw [if_neg h]
    exact .inl rfl

theorem loadState_revision_le (runtime : Runtime) (load : Option (AppResult PluginStateLoad)) :
    runtime.revision ≤ (loadStateIfNeeded runtime load).2.revision := by
  rcases loadState_cases runtime load with h | ⟨rfl, -⟩
  · rw [h]
  · exact Nat.zero_le _

/-- **What a scan does**: nothing if there is no next generation, else its candidate is published. -/
theorem applyLocalDiscovery_cases (scan : Scan) :
    ((r.applyLocalDiscovery scan).1 = .error .catalogGenerationExhausted ∧ (r.applyLocalDiscovery scan).2 = r) ∨
    ∃ changed r' flag, r.publishCandidate (r.scanned scan) true = .ok (changed, r') ∧
      (r.applyLocalDiscovery scan).2 = { r' with removalAuthorityUnreconciled := flag } ∧
      ((r.applyLocalDiscovery scan).1 = .ok changed ∨
        ((r.applyLocalDiscovery scan).1 = .error .internal ∧ scan.stateLoad = none ∧
          r.publication.runtime = .unavailable .stateUnavailable)) := by
  have herr : ∀ e, r.publishCandidate (r.scanned scan) true = .error e → e = .catalogGenerationExhausted := by
    intro e he
    unfold publishCandidate at he
    dsimp only at he
    split at he
    · unfold ensure at he
      split at he
      · cases he
      · cases he
        rfl
    · cases he
  unfold applyLocalDiscovery
  dsimp only
  cases hl : loadStateIfNeeded (r.withDiscovery r.publication scan.outcome (r.reconciliation scan)).runtime scan.stateLoad with
  | mk retry runtime =>
    have hsc : r.scanned scan = { r.withDiscovery r.publication scan.outcome (r.reconciliation scan) with runtime } := by
      have : runtime = (loadStateIfNeeded r.publication.runtime scan.stateLoad).2 := (congrArg Prod.snd hl).symm
      rw [this]
      rfl
    -- the state is loaded again only if it was unavailable:
    have hretry : retry = .ok () ∨ (retry = .error .internal ∧ scan.stateLoad = none ∧
        r.publication.runtime = .unavailable .stateUnavailable) := by
      have : retry = (loadStateIfNeeded r.publication.runtime scan.stateLoad).1 := (congrArg Prod.fst hl).symm
      rw [this]
      unfold loadStateIfNeeded
      split
      · rename_i hrt
        cases scan.stateLoad with
        | none => exact .inr ⟨rfl, rfl, hrt⟩
        | some load => exact .inl rfl
      · exact .inl rfl
    dsimp only
    rw [← hsc]
    cases hp : r.publishCandidate (r.scanned scan) true with
    | error e =>
      left
      exact ⟨congrArg Except.error (herr e hp), rfl⟩
    | ok pair =>
      obtain ⟨changed, r'⟩ := pair
      right
      refine ⟨changed, r', _, rfl, rfl, ?_⟩
      rcases hretry with rfl | ⟨rfl, h1, h2⟩
      · exact .inl rfl
      · exact .inr ⟨rfl, h1, h2⟩

end PluginRegistry

/-! ### What each operation does to the version -/

/-- The registry is one that `r` may become: the same built-in plugins, and a catalog that is
not older. -/
structure Advance (r r' : PluginRegistry) : Prop where
  builtins : r'.builtins = r.builtins
  coherent : Coherent r'
  newer : Newer r.publication.snapshot r'.publication.snapshot

/-- An unchanged structure keeps its generation. -/
def KeepsGeneration (r r' : PluginRegistry) : Prop :=
  r'.publication.basis = r.publication.basis → r'.publication.catalogGeneration = r.publication.catalogGeneration

/-- The documents may be newer, the rest is that of `r`. -/
structure Kept (r l : PluginRegistry) : Prop where
  builtins : l.builtins = r.builtins
  coherent : Coherent l
  generation : l.publication.catalogGeneration = r.publication.catalogGeneration
  runtime : r.publication.runtime.Leads l.publication.runtime
  basis : l.publication.basis = { r.publication.basis with entries := l.publication.ownership.entries }

section Kept

open PluginRegistry

variable {r r' c l : PluginRegistry} {next : CatalogPublicationCandidate} {first : Bool}

theorem Advance.refl (hr : Coherent r) : Advance r r := ⟨rfl, hr, Newer.refl _⟩

theorem Kept.refl (hr : Coherent r) : Kept r r := ⟨rfl, hr, rfl, Runtime.Leads.refl _, rfl⟩

theorem Coherent.withFlag (h : Coherent r) (flag : Bool) : Coherent { r with removalAuthorityUnreconciled := flag } :=
  ⟨h.generation, h.availability, h.reason, h.items, h.revision, h.same⟩

/-- The part of the structure that says whether the state can be read. -/
theorem unavailable_of_leads {p q : CatalogPublicationCandidate} (h : p.runtime.Leads q.runtime) :
    q.basis.unavailable = p.basis.unavailable := by
  unfold CatalogPublicationCandidate.basis
  dsimp only
  revert h
  cases p.runtime <;> cases q.runtime
  · exact fun _ => rfl
  · exact False.elim
  · exact False.elim
  · exact fun h => congrArg some h.symm

theorem Kept.withDocuments (h : Kept r l) {runtime : Runtime} (hl : l.publication.runtime.Leads runtime)
    (ownership : OwnershipRuntime) (flag : Bool) : Kept r (l.withDocuments runtime ownership flag) where
  builtins := h.builtins
  coherent := coherent_withDocuments h.coherent hl ownership flag
  generation := h.generation
  runtime := h.runtime.trans hl
  basis := by
    have hb := h.basis
    have hu := unavailable_of_leads (p := l.publication) (q := (l.withDocuments runtime ownership flag).publication) hl
    unfold CatalogPublicationCandidate.basis PluginRegistry.withDocuments at *
    simp only [Basis.mk.injEq] at hb hu ⊢
    obtain ⟨h1, h2, h3, h4, h5, -, h7, h8, h9, h10⟩ := hb
    exact ⟨h1, h2, h3, h4, h5, trivial, h7, h8, h9, hu.trans h10⟩

theorem Kept.decided (h : Kept r l) {state : PluginStateFileV2} (hl : l.publication.runtime.Leads (.available state false)) :
    Kept r (l.decided state) where
  builtins := h.builtins
  coherent := coherent_decided state
  generation := h.generation
  runtime := h.runtime.trans hl
  basis := by
    have hb := h.basis
    have hu := unavailable_of_leads (p := l.publication) (q := (l.decided state).publication) hl
    unfold CatalogPublicationCandidate.basis PluginRegistry.decided at *
    simp only [Basis.mk.injEq] at hb hu ⊢
    obtain ⟨h1, h2, h3, h4, h5, -, h7, h8, h9, h10⟩ := hb
    exact ⟨h1, h2, h3, h4, h5, trivial, h7, h8, h9, hu.trans h10⟩

end Kept

namespace PluginRegistry

variable {r r' c l : PluginRegistry} {next : CatalogPublicationCandidate} {first : Bool}

theorem publish_keepsGeneration {changed : Bool} (hr : Coherent r) (h : r.publishCandidate next first = .ok (changed, r'))
    (hg : next.basis = r.publication.basis → next.catalogGeneration = r.publication.catalogGeneration ∧
      r.publication.runtime.Leads next.runtime)
    (hfirst : first = true → r.publication.catalogGeneration ≠ 0) : KeepsGeneration r r' := by
  intro hb
  rcases publishCandidate_ok h with ⟨hs, -, rfl⟩ | ⟨hs, rfl⟩
  · rw [basis_published] at hb
    obtain ⟨hgen, hl⟩ := hg hb
    rw [structural_of_basis hr hb hgen hl hfirst] at hs
    cases hs
  · rw [basis_published] at hb
    exact (hg hb).1

/-- A state that could not be read and now can is a change of the structure. -/
theorem runtime_of_basis {scan : Scan} (h : (r.scanned scan).basis = r.publication.basis) :
    (r.scanned scan).runtime = r.publication.runtime := by
  rcases loadState_cases r.publication.runtime scan.stateLoad with hl | ⟨hrt, loaded, -, -, hl⟩
  · exact hl
  · have hu := congrArg Basis.unavailable h
    have hn : (r.scanned scan).runtime = .available loaded.state loaded.requiresRewrite := hl
    unfold CatalogPublicationCandidate.basis at hu
    dsimp only at hu
    rw [hn, hrt] at hu
    cases hu

theorem applyLocalDiscovery_advance (hr : Coherent r) (scan : Scan) : Advance r (r.applyLocalDiscovery scan).2 := by
  rcases applyLocalDiscovery_cases (r := r) scan with ⟨-, h⟩ | ⟨changed, r', flag, hp, h, -⟩
  · rw [h]
    exact Advance.refl hr
  · rw [h]
    have hn := publishCandidate_newer hr hp le_rfl fun _ =>
      hr.revision.trans (loadState_revision_le _ _)
    rcases publishCandidate_ok hp with ⟨-, -, rfl⟩ | ⟨-, rfl⟩
    · exact ⟨rfl, (coherent_published _).withFlag flag, hn⟩
    · exact ⟨rfl, (coherent_published _).withFlag flag, hn⟩

theorem applyLocalDiscovery_keepsGeneration (hr : Coherent r) (scan : Scan) (h0 : r.publication.catalogGeneration ≠ 0) :
    KeepsGeneration r (r.applyLocalDiscovery scan).2 := by
  rcases applyLocalDiscovery_cases (r := r) scan with ⟨-, h⟩ | ⟨changed, r', flag, hp, h, -⟩
  · rw [h]
    exact fun _ => rfl
  · rw [h]
    have hk : KeepsGeneration r r' := publish_keepsGeneration hr hp
      (fun hb => ⟨rfl, by rw [runtime_of_basis hb]; exact Runtime.Leads.refl _⟩) fun _ => h0
    exact hk

theorem applyLocalDiscovery_generation_le (scan : Scan) :
    r.publication.catalogGeneration ≤ (r.applyLocalDiscovery scan).2.publication.catalogGeneration := by
  rcases applyLocalDiscovery_cases (r := r) scan with ⟨-, h⟩ | ⟨changed, r', flag, hp, h, -⟩
  · rw [h]
  · rw [h]
    rcases publishCandidate_ok hp with ⟨-, -, rfl⟩ | ⟨-, rfl⟩
    · exact Nat.le_succ _
    · exact le_rfl

/-- What a scan that was applied without a new generation leaves as it was. -/
theorem applyLocalDiscovery_kept (hr : Coherent r) {scan : Scan}
    (h : (r.applyLocalDiscovery scan).2.publication.catalogGeneration = r.publication.catalogGeneration) :
    Kept r (r.applyLocalDiscovery scan).2 ∧
      (r.applyLocalDiscovery scan).2.publication.basis = r.publication.basis ∧
      (r.applyLocalDiscovery scan).2.publication.runtime = r.publication.runtime := by
  rcases applyLocalDiscovery_cases (r := r) scan with ⟨-, he⟩ | ⟨changed, r', flag, hp, he, -⟩
  · rw [he]
    exact ⟨Kept.refl hr, rfl, rfl⟩
  · rw [he] at h ⊢
    rcases publishCandidate_ok hp with ⟨-, -, rfl⟩ | ⟨hs, rfl⟩
    · exact absurd h (Nat.succ_ne_self _)
    · have hb : (r.scanned scan).basis = r.publication.basis := basis_of_structural hr hs
      have hrt := runtime_of_basis hb
      have hb' : (r.published (r.scanned scan) (r.scanned scan).catalogGeneration).publication.basis =
          r.publication.basis := hb
      refine ⟨⟨rfl, (coherent_published _).withFlag flag, rfl, ?_, ?_⟩, hb', hrt⟩
      · show r.publication.runtime.Leads (r.scanned scan).runtime
        rw [hrt]
        exact Runtime.Leads.refl _
      · refine Eq.trans hb' ?_
        have hent : (r.scanned scan).ownership.entries = r.publication.ownership.entries := congrArg Basis.entries hb
        show r.publication.basis = { r.publication.basis with entries := (r.scanned scan).ownership.entries }
        rw [hent]
        rfl

theorem retryStateLoad_advance (hr : Coherent r) (load : Option (AppResult PluginStateLoad)) :
    Advance r (r.retryStateLoad load) ∧ KeepsGeneration r (r.retryStateLoad load) := by
  unfold retryStateLoad
  have hcases := loadState_cases r.publication.runtime load
  have hle := loadState_revision_le r.publication.runtime load
  cases hl : loadStateIfNeeded r.publication.runtime load with
  | mk retry runtime =>
    rw [hl] at hcases hle
    cases retry with
    | error e => exact ⟨Advance.refl hr, fun _ => rfl⟩
    | ok u =>
      dsimp only
      cases hp : r.publishCandidate { r.publication with runtime } false with
      | error e => exact ⟨Advance.refl hr, fun _ => rfl⟩
      | ok pair =>
        obtain ⟨changed, r'⟩ := pair
        have hn := publishCandidate_newer hr hp le_rfl fun _ => hr.revision.trans hle
        refine ⟨?_, ?_⟩
        · rcases publishCandidate_ok hp with ⟨-, -, rfl⟩ | ⟨-, rfl⟩
          · exact ⟨rfl, coherent_published _, hn⟩
          · exact ⟨rfl, coherent_published _, hn⟩
        · refine publish_keepsGeneration hr hp (fun hb => ⟨rfl, ?_⟩) nofun
          rcases hcases with rfl | ⟨hrt, loaded, -, -, rfl⟩
          · exact Runtime.Leads.refl _
          · have hu := congrArg Basis.unavailable hb
            unfold CatalogPublicationCandidate.basis at hu
            dsimp only at hu
            rw [hrt] at hu
            cases hu

/-- `set_enabled` does what its decision does. -/
theorem setEnabled_cases (id : String) (enabled : Bool) (expected : String) :
    (∀ save, (r.setEnabled id enabled expected save).2 = r) ∨
      ∃ record, ∀ save,
        (r.setEnabled id enabled expected save).2 = (r.persistDecisionWithOutcome record enabled save).2 ∧
        ((r.persistDecisionWithOutcome record enabled save).1 = none → (r.setEnabled id enabled expected save).1 = none) := by
  unfold setEnabled
  split
  · exact .inl fun _ => rfl
  · split
    · split
      · exact .inl fun _ => rfl
      · split
        · exact .inl fun _ => rfl
        · rename_i record _
          dsimp only
          split
          · exact .inl fun _ => rfl
          · right
            refine ⟨record, fun save => ?_⟩
            split <;> rename_i h <;> rw [h]
            · exact ⟨rfl, fun _ => rfl⟩
            · exact ⟨rfl, nofun⟩
            · exact ⟨rfl, nofun⟩
    · exact .inl fun _ => rfl

theorem persistDecision_kept (hr : Coherent r) (record : PluginRecord) (enabled : Bool) (save : Option PersistResult) :
    Kept r (r.persistDecisionWithOutcome record enabled save).2 ∧
      (r.persistDecisionWithOutcome record enabled save).2.publication.ownership = r.publication.ownership ∧
      Newer r.publication.snapshot (r.persistDecisionWithOutcome record enabled save).2.publication.snapshot := by
  rcases persistDecision_cases (r := r) record enabled save with h | ⟨state, rewrite, next, result, -, hrt, hd, -, -, h⟩
  · rw [h]
    exact ⟨Kept.refl hr, rfl, Newer.refl _⟩
  · have hl : r.publication.runtime.Leads (.available next false) := by
      rw [hrt]
      exact nextDecision_leads hd
    rw [h]
    exact ⟨(Kept.refl hr).decided hl, rfl, decided_newer hr hl⟩

theorem setEnabled_advance (hr : Coherent r) (id : String) (enabled : Bool) (expected : String) (save : Option PersistResult) :
    Advance r (r.setEnabled id enabled expected save).2 ∧
      (r.setEnabled id enabled expected save).2.publication.catalogGeneration = r.publication.catalogGeneration := by
  rcases setEnabled_cases (r := r) id enabled expected with h | ⟨record, h⟩
  · rw [h]
    exact ⟨Advance.refl hr, rfl⟩
  · obtain ⟨hk, -, hn⟩ := persistDecision_kept hr record enabled save
    rw [(h save).1]
    exact ⟨⟨hk.builtins, hk.coherent, hn⟩, hk.generation⟩

end PluginRegistry

end EasiFlux.Plugin
