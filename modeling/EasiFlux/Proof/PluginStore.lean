import EasiFlux.Lib.SortOn
import EasiFlux.Model.PluginStore

/-!
# The plugin store shows the newest catalog

All snapshots and results come from one history, in which each snapshot `Follows` the one before
it: two of them with one version are one snapshot (`eq_of_version`), and within a generation the
plugins and their contents stay (`structure_eq`). So an answer is as good as its version.

`Shows` is the invariant of the store: every shown item is what some answer says of it, at the
revision that the store has confirmed for it, and no answer that has come says more (`Shows.confirm`,
`Shows.showResult`).
-/

namespace EasiFlux.Plugin

/-! ## Items -/

theorem mem_of_itemOf {catalog : List PluginCatalogItem} {id : PluginId} {p : PluginCatalogItem}
    (h : itemOf catalog id = some p) : p ∈ catalog ∧ p.manifest.id = id :=
  ⟨List.mem_of_find?_eq_some h, by simpa using List.find?_some h⟩

theorem itemOf_cons (p : PluginCatalogItem) (catalog : List PluginCatalogItem) (id : PluginId) :
    itemOf (p :: catalog) id = if p.manifest.id = id then some p else itemOf catalog id := by
  unfold itemOf
  rw [List.find?_cons]
  by_cases h : p.manifest.id = id
  · rw [if_pos h, decide_eq_true h]
  · rw [if_neg h, decide_eq_false h]

/-- Distinct ids: an item is the one its id finds. -/
theorem itemOf_of_mem {catalog : List PluginCatalogItem} (h : (catalog.map (·.manifest.id)).Nodup) {p : PluginCatalogItem}
    (hp : p ∈ catalog) : itemOf catalog p.manifest.id = some p := by
  induction catalog with
  | nil => cases hp
  | cons q catalog ih =>
    rw [List.map_cons, List.nodup_cons] at h
    rw [itemOf_cons]
    rcases List.mem_cons.1 hp with rfl | hp
    · rw [if_pos rfl]
    · have hne : q.manifest.id ≠ p.manifest.id := fun heq => h.1 (heq ▸ List.mem_map_of_mem hp)
      rw [if_neg hne, ih h.2 hp]

theorem itemOf_isSome {catalog : List PluginCatalogItem} {id : PluginId} :
    (itemOf catalog id).isSome = true ↔ id ∈ catalog.map (·.manifest.id) := by
  unfold itemOf
  rw [List.find?_isSome, List.mem_map]
  simp only [decide_eq_true_eq]

theorem hasSameImmutableContent_iff {current returned : PluginCatalogItem} :
    current.hasSameImmutableContent returned = true ↔ current.content = returned.content := by
  unfold PluginCatalogItem.hasSameImmutableContent PluginCatalogItem.content
  rw [decide_eq_true_eq, ItemContent.mk.injEq]
  tauto

theorem id_eq_of_content {a b : PluginCatalogItem} (h : a.content = b.content) : a.manifest.id = b.manifest.id :=
  congrArg (fun c : ItemContent => c.manifest.id) h

theorem ids_eq_of_content {l l' : List PluginCatalogItem}
    (h : l.map PluginCatalogItem.content = l'.map PluginCatalogItem.content) :
    l.map (·.manifest.id) = l'.map (·.manifest.id) := by
  have h' := congrArg (List.map fun c : ItemContent => c.manifest.id) h
  rwa [List.map_map, List.map_map] at h'

/-- The content of a plugin is found in the contents of the catalog. -/
theorem itemOf_content {l l' : List PluginCatalogItem}
    (h : l.map PluginCatalogItem.content = l'.map PluginCatalogItem.content) (id : PluginId) :
    (itemOf l id).map PluginCatalogItem.content = (itemOf l' id).map PluginCatalogItem.content := by
  induction l generalizing l' with
  | nil =>
    rw [List.map_nil, eq_comm, List.map_eq_nil_iff] at h
    rw [h]
  | cons p l ih =>
    cases l' with
    | nil => cases h
    | cons q l' =>
      rw [List.map_cons, List.map_cons, List.cons.injEq] at h
      rw [itemOf_cons, itemOf_cons, id_eq_of_content h.1]
      by_cases hq : q.manifest.id = id
      · rw [if_pos hq, if_pos hq, Option.map_some, Option.map_some, h.1]
      · rw [if_neg hq, if_neg hq, ih h.2]

theorem PluginCatalogSnapshot.Ordered.nodup {s : PluginCatalogSnapshot} (h : s.Ordered) :
    (s.plugins.map (·.manifest.id)).Nodup :=
  (List.pairwise_map.2 h).imp fun hlt => ne_of_lt hlt

/-! ## The history -/

namespace PluginCatalogSnapshot

variable {a b c : PluginCatalogSnapshot}

theorem Follows.trans (h : a.Follows b) (h' : b.Follows c) : a.Follows c := by
  rcases h with h | ⟨hg, hr, ho, hc⟩
  · rcases h' with h' | ⟨hg', -⟩
    · exact .inl (h.trans h')
    · exact .inl (hg' ▸ h)
  · rcases h' with h' | ⟨hg', hr', ho', hc'⟩
    · exact .inl (hg ▸ h')
    · exact .inr ⟨hg.trans hg', hr.trans hr', ho.trans ho', hc.trans hc'⟩

theorem Follows.le (h : a.Follows b) : a.catalogGeneration < b.catalogGeneration ∨
    (a.catalogGeneration = b.catalogGeneration ∧ a.revision < b.revision) := by
  rcases h with h | ⟨hg, hr, -⟩
  · exact .inl h
  · exact .inr ⟨hg, hr⟩

end PluginCatalogSnapshot

/-- What has been published: each snapshot follows those before it. -/
structure Chronicle (history : List PluginCatalogSnapshot) : Prop where
  follows : history.Pairwise PluginCatalogSnapshot.Follows
  ordered : ∀ s ∈ history, s.Ordered

namespace Chronicle

variable {history : List PluginCatalogSnapshot} {a b : PluginCatalogSnapshot}

theorem cases_of_mem (h : Chronicle history) (ha : a ∈ history) (hb : b ∈ history) :
    a = b ∨ a.Follows b ∨ b.Follows a := by
  obtain ⟨i, hi, rfl⟩ := List.getElem_of_mem ha
  obtain ⟨j, hj, rfl⟩ := List.getElem_of_mem hb
  rcases lt_trichotomy i j with hij | rfl | hij
  · exact .inr (.inl (List.pairwise_iff_getElem.1 h.follows i j hi hj hij))
  · exact .inl rfl
  · exact .inr (.inr (List.pairwise_iff_getElem.1 h.follows j i hj hi hij))

theorem eq_of_version (h : Chronicle history) (ha : a ∈ history) (hb : b ∈ history)
    (hg : a.catalogGeneration = b.catalogGeneration) (hr : a.revision = b.revision) : a = b := by
  rcases h.cases_of_mem ha hb with hab | hab | hab
  · exact hab
  · have := hab.le
    omega
  · have := hab.le
    omega

theorem structure_eq (h : Chronicle history) (ha : a ∈ history) (hb : b ∈ history)
    (hg : a.catalogGeneration = b.catalogGeneration) : a.managedOwnership = b.managedOwnership ∧
      a.plugins.map PluginCatalogItem.content = b.plugins.map PluginCatalogItem.content := by
  rcases h.cases_of_mem ha hb with rfl | (hlt | ⟨-, -, ho, hc⟩) | hlt | ⟨-, -, ho, hc⟩
  · exact ⟨rfl, rfl⟩
  · omega
  · exact ⟨ho, hc⟩
  · omega
  · exact ⟨ho.symm, hc.symm⟩

theorem append (h : Chronicle (history ++ [a])) (hb : b.Ordered) (hf : a.Follows b) : Chronicle (history ++ [a] ++ [b]) := by
  refine ⟨?_, fun s hs => ?_⟩
  · rw [List.pairwise_append]
    refine ⟨h.follows, List.pairwise_singleton _ _, fun s hs t ht => ?_⟩
    obtain rfl := List.mem_singleton.1 ht
    rcases List.mem_append.1 hs with hs | hs
    · exact ((List.pairwise_append.1 h.follows).2.2 s hs a (List.mem_singleton_self a)).trans hf
    · rwa [List.mem_singleton.1 hs]
  · rcases List.mem_append.1 hs with hs | hs
    · exact h.ordered s hs
    · rwa [List.mem_singleton.1 hs]

end Chronicle

/-! ## What the store shows -/

/-- The part of the store that the versions decide. -/
structure ShownCatalog where
  catalog : List PluginCatalogItem
  revision : ℕ
  catalogGeneration : ℕ
  managedOwnership : Option ManagedOwnershipSummary
  hasConfirmedSnapshot : Bool
  confirmedSnapshotRevision : ℕ
  confirmedItemRevisions : PluginId → Option ℕ

def PluginStore.shown (s : PluginStore) : ShownCatalog :=
  ⟨s.catalog, s.revision, s.catalogGeneration, s.managedOwnership, s.hasConfirmedSnapshot, s.confirmedSnapshotRevision,
    s.confirmedItemRevisions⟩

/-- The answer says this of a plugin. -/
def PluginReceived.Tells (r : PluginReceived) (p : PluginCatalogItem) : Prop :=
  p ∈ r.snapshot.plugins ∧ (r.only = none ∨ r.only = some p.manifest.id)

/-- **The invariant of the shown catalog** -/
structure Shows (history : List PluginCatalogSnapshot) (received : List PluginReceived) (v : ShownCatalog) : Prop where
  mem : ∀ r ∈ received, r.snapshot ∈ history
  /-- The structure is that of the generation. -/
  structured : v.hasConfirmedSnapshot = true → ∃ base ∈ history, base.catalogGeneration = v.catalogGeneration ∧
    v.catalog.map PluginCatalogItem.content = base.plugins.map PluginCatalogItem.content ∧
    v.managedOwnership = some base.managedOwnership
  empty : v.hasConfirmedSnapshot = false → v.catalog = [] ∧ v.catalogGeneration = 0 ∧ v.revision = 0 ∧ received = []
  told : ∀ p ∈ v.catalog, ∃ r ∈ received, r.overtaken = false ∧ r.snapshot.catalogGeneration = v.catalogGeneration ∧
    r.Tells p ∧ v.confirmedItemRevisions p.manifest.id = some r.snapshot.revision
  known : ∀ id ρ, v.confirmedItemRevisions id = some ρ →
    (itemOf v.catalog id).isSome = true ∧ v.confirmedSnapshotRevision ≤ ρ ∧ ρ ≤ v.revision
  newest : ∀ r ∈ received, r.snapshot.catalogGeneration ≤ v.catalogGeneration
  /-- Nothing that has come is newer than what is shown. -/
  fresh : ∀ r ∈ received, r.overtaken = false → r.snapshot.catalogGeneration = v.catalogGeneration →
    ∀ p, r.Tells p → ∀ ρ, v.confirmedItemRevisions p.manifest.id = some ρ → r.snapshot.revision ≤ ρ
  versioned : v.hasConfirmedSnapshot = true → ∃ r ∈ received,
    r.snapshot.catalogGeneration = v.catalogGeneration ∧ r.snapshot.revision = v.revision
  snapshot_le : v.confirmedSnapshotRevision ≤ v.revision

theorem Shows.mono {history history' : List PluginCatalogSnapshot} {received : List PluginReceived} {v : ShownCatalog}
    (h : Shows history received v) (hm : ∀ s ∈ history, s ∈ history') : Shows history' received v where
  mem r hr := hm _ (h.mem r hr)
  structured hs := by
    obtain ⟨base, hb, hbase⟩ := h.structured hs
    exact ⟨base, hm base hb, hbase⟩
  empty := h.empty
  told := h.told
  known := h.known
  newest := h.newest
  fresh := h.fresh
  versioned := h.versioned
  snapshot_le := h.snapshot_le

section Adoption

variable {history : List PluginCatalogSnapshot} {received : List PluginReceived} {s : PluginStore}
  {snapshot : PluginCatalogSnapshot} {order : ℕ}

theorem Shows.structure_of_gen (hc : Chronicle history) (h : Shows history received s.shown)
    (hs : s.hasConfirmedSnapshot = true) (hm : snapshot ∈ history) (hg : snapshot.catalogGeneration = s.catalogGeneration) :
    s.managedOwnership = some snapshot.managedOwnership ∧
      s.catalog.map PluginCatalogItem.content = snapshot.plugins.map PluginCatalogItem.content := by
  obtain ⟨base, hb, hbg, hcontent, howner⟩ := h.structured hs
  have hgen : base.catalogGeneration = snapshot.catalogGeneration := hbg.trans hg.symm
  obtain ⟨ho, hcc⟩ := hc.structure_eq hb hm hgen
  exact ⟨by rw [← ho]; exact howner, hcontent.trans hcc⟩

/-- The ids of a catalog of this structure are distinct. -/
theorem Shows.nodup (hc : Chronicle history) (h : Shows history received s.shown) :
    (s.catalog.map (·.manifest.id)).Nodup := by
  by_cases hs : s.hasConfirmedSnapshot = true
  · obtain ⟨base, hb, -, hcontent, -⟩ := h.structured hs
    have hids : s.catalog.map (·.manifest.id) = base.plugins.map (·.manifest.id) := ids_eq_of_content hcontent
    rw [hids]
    exact (hc.ordered base hb).nodup
  · have hnil : s.catalog = [] := (h.empty (Bool.eq_false_iff.2 hs)).1
    rw [hnil]
    exact List.nodup_nil

/-- Within the generation the structure is never contradicted. -/
theorem Shows.hasSameGenerationStructure (hc : Chronicle history) (h : Shows history received s.shown)
    (hs : s.hasConfirmedSnapshot = true) (hm : snapshot ∈ history) (hg : snapshot.catalogGeneration = s.catalogGeneration) :
    s.hasSameGenerationStructure snapshot = true := by
  obtain ⟨ho, hcontent⟩ := h.structure_of_gen hc hs hm hg
  unfold PluginStore.hasSameGenerationStructure
  have hlen : snapshot.plugins.length = s.catalog.length := by
    have hl := congrArg List.length hcontent
    rw [List.length_map, List.length_map] at hl
    exact hl.symm
  rw [decide_eq_true ho, decide_eq_true hlen, Bool.true_and, Bool.true_and, List.all_eq_true]
  intro plugin hp
  have hitem := itemOf_content hcontent plugin.manifest.id
  rw [itemOf_of_mem (hc.ordered snapshot hm).nodup hp, Option.map_some, Option.map_eq_some_iff] at hitem
  obtain ⟨current, hcur, heq⟩ := hitem
  rw [hcur]
  exact hasSameImmutableContent_iff.2 heq

theorem Shows.adoptGeneration (h : Shows history received s.shown) (hm : snapshot ∈ history) (ho : snapshot.Ordered)
    (hg : s.catalogGeneration < snapshot.catalogGeneration ∨ s.hasConfirmedSnapshot = false) :
    Shows history (received ++ [⟨snapshot, none, false⟩])
      { (s.adoptGeneration snapshot order).shown with hasConfirmedSnapshot := true } := by
  -- whatever came before is of an older generation
  have hold : ∀ r ∈ received, r.snapshot.catalogGeneration < snapshot.catalogGeneration := by
    intro r hr
    rcases hg with hg | hg
    · exact lt_of_le_of_lt (h.newest r hr) hg
    · rw [(h.empty hg).2.2.2] at hr
      cases hr
  have hcases : ∀ r ∈ received ++ [⟨snapshot, none, false⟩], r.snapshot.catalogGeneration = snapshot.catalogGeneration →
      r.snapshot = snapshot := by
    intro r hr heq
    rcases List.mem_append.1 hr with hr | hr
    · have := hold r hr
      omega
    · rw [List.mem_singleton.1 hr]
  have hrev : ∀ id ρ, ((itemOf snapshot.plugins id).map fun _ => snapshot.revision) = some ρ →
      (itemOf snapshot.plugins id).isSome = true ∧ ρ = snapshot.revision := by
    intro id ρ hρ
    obtain ⟨p, hp, heq⟩ := Option.map_eq_some_iff.1 hρ
    exact ⟨by rw [hp]; rfl, heq.symm⟩
  refine ⟨?_, fun _ => ⟨snapshot, hm, rfl, rfl, rfl⟩, fun hf => (by cases hf), ?_, ?_, ?_, ?_, ?_, le_rfl⟩
  · intro r hr
    rcases List.mem_append.1 hr with hr | hr
    · exact h.mem r hr
    · rwa [List.mem_singleton.1 hr]
  · intro p hp
    refine ⟨⟨snapshot, none, false⟩, List.mem_append_right _ (List.mem_singleton_self _), rfl, rfl, ⟨hp, .inl rfl⟩, ?_⟩
    show (itemOf snapshot.plugins p.manifest.id).map _ = _
    rw [itemOf_of_mem ho.nodup hp]
    rfl
  · intro id ρ hρ
    obtain ⟨hi, heq⟩ := hrev id ρ hρ
    exact ⟨hi, heq.ge, heq.le⟩
  · intro r hr
    rcases List.mem_append.1 hr with hr | hr
    · exact (hold r hr).le
    · rw [List.mem_singleton.1 hr]
      exact le_rfl
  · intro r hr _ heq p _ ρ hρ
    rw [hcases r hr heq, (hrev _ ρ hρ).2]
  · intro _
    exact ⟨⟨snapshot, none, false⟩, List.mem_append_right _ (List.mem_singleton_self _), rfl, rfl⟩

/-! Merging a snapshot of the shown generation -/

theorem nextItem_content (hc : s.catalog.map PluginCatalogItem.content = snapshot.plugins.map PluginCatalogItem.content)
    (ho : snapshot.Ordered) {p : PluginCatalogItem} (hp : p ∈ snapshot.plugins) (rev : ℕ) :
    (s.nextItem rev p).1.content = p.content := by
  have hitem := itemOf_content hc p.manifest.id
  rw [itemOf_of_mem ho.nodup hp, Option.map_some, Option.map_eq_some_iff] at hitem
  obtain ⟨current, hcur, heq⟩ := hitem
  unfold PluginStore.nextItem
  rw [hcur]
  split
  · split_ifs
    · rename_i hsome _ _
      obtain rfl := Option.some.inj hsome
      exact heq
    · rfl
  · rfl

theorem laterItems_eq_nil (hc : s.catalog.map PluginCatalogItem.content = snapshot.plugins.map PluginCatalogItem.content) :
    s.laterItems snapshot = [] := by
  unfold PluginStore.laterItems
  rw [List.filterMap_eq_nil_iff]
  intro p hp
  have hmem : p.manifest.id ∈ snapshot.plugins.map (·.manifest.id) := by
    rw [← ids_eq_of_content hc]
    exact List.mem_map_of_mem hp
  obtain ⟨q, hq⟩ := Option.isSome_iff_exists.1 (itemOf_isSome.2 hmem)
  rw [hq]

theorem nextItems_eq (hc : s.catalog.map PluginCatalogItem.content = snapshot.plugins.map PluginCatalogItem.content) :
    s.nextItems snapshot = snapshot.plugins.map (s.nextItem snapshot.revision) := by
  rw [PluginStore.nextItems, laterItems_eq_nil hc, List.append_nil]

theorem mergeSnapshot_content (hc : s.catalog.map PluginCatalogItem.content = snapshot.plugins.map PluginCatalogItem.content)
    (ho : snapshot.Ordered) : ((s.nextItems snapshot).map (·.1)).map PluginCatalogItem.content =
      snapshot.plugins.map PluginCatalogItem.content := by
  rw [nextItems_eq hc, List.map_map, List.map_map]
  exact List.map_congr_left fun p hp => nextItem_content hc ho hp _

/-- The items come out in the order of their ids, so sorting them changes nothing. -/
theorem mergeSnapshot_catalog (hc : s.catalog.map PluginCatalogItem.content = snapshot.plugins.map PluginCatalogItem.content)
    (ho : snapshot.Ordered) : (s.mergeSnapshot snapshot order).catalog =
      snapshot.plugins.map fun p => (s.nextItem snapshot.revision p).1 := by
  have hids := ids_eq_of_content (mergeSnapshot_content hc ho)
  show ((s.nextItems snapshot).map (·.1)).mergeSort _ = _
  have hp : (snapshot.plugins.map (·.manifest.id)).Pairwise (· < ·) := List.pairwise_map.2 ho
  rw [← hids] at hp
  rw [SortOn.mergeSort_eq_self hp, nextItems_eq hc, List.map_map]
  rfl

theorem mergeSnapshot_revisions
    (hc : s.catalog.map PluginCatalogItem.content = snapshot.plugins.map PluginCatalogItem.content)
    (ho : snapshot.Ordered) (id : PluginId) : (s.mergeSnapshot snapshot order).confirmedItemRevisions id =
      (itemOf snapshot.plugins id).map fun p => (s.nextItem snapshot.revision p).2 := by
  show ((s.nextItems snapshot).find? _).map _ = _
  rw [nextItems_eq hc, List.find?_map, Option.map_map]
  unfold itemOf
  have hkey : ∀ p ∈ snapshot.plugins, ((fun item : PluginCatalogItem × ℕ => decide (item.1.manifest.id = id)) ∘
      s.nextItem snapshot.revision) p = decide (p.manifest.id = id) := by
    intro p hp
    have hid := id_eq_of_content (nextItem_content hc ho hp snapshot.revision)
    simp only [Function.comp_apply, hid]
  rw [List.find?_congr hkey]
  rfl

theorem adoptGlobalRevision_revision (n : ℕ) : (s.adoptGlobalRevision n).revision = max s.revision n := by
  show (if s.revision < n then n else s.revision) = max s.revision n
  split_ifs with h
  · omega
  · omega

/-- An item of the snapshot meets the shown one of the plugin, and the later of the two stays. -/
theorem Shows.nextItem_cases (hc : Chronicle history) (h : Shows history received s.shown) (hs : s.hasConfirmedSnapshot = true)
    (hm : snapshot ∈ history) (hg : snapshot.catalogGeneration = s.catalogGeneration) {p : PluginCatalogItem}
    (hp : p ∈ snapshot.plugins) : ∃ q ∈ s.catalog, q.manifest.id = p.manifest.id ∧ ∃ ρ,
      s.confirmedItemRevisions p.manifest.id = some ρ ∧ s.nextItem snapshot.revision p =
        if snapshot.revision < ρ then (q, ρ) else (p, snapshot.revision) := by
  obtain ⟨-, hcontent⟩ := h.structure_of_gen hc hs hm hg
  have hitem := itemOf_content hcontent p.manifest.id
  rw [itemOf_of_mem (hc.ordered snapshot hm).nodup hp, Option.map_some, Option.map_eq_some_iff] at hitem
  obtain ⟨q, hq, -⟩ := hitem
  obtain ⟨hmem, hid⟩ := mem_of_itemOf hq
  obtain ⟨r, -, -, -, -, hρ⟩ := h.told q hmem
  change s.confirmedItemRevisions q.manifest.id = some r.snapshot.revision at hρ
  rw [hid] at hρ
  refine ⟨q, hmem, hid, r.snapshot.revision, hρ, ?_⟩
  unfold PluginStore.nextItem
  rw [hq, hρ]

theorem Shows.mergeSnapshot (hc : Chronicle history) (h : Shows history received s.shown) (hs : s.hasConfirmedSnapshot = true)
    (hm : snapshot ∈ history) (hg : snapshot.catalogGeneration = s.catalogGeneration) :
    Shows history (received ++ [⟨snapshot, none, false⟩])
      { (s.mergeSnapshot snapshot order).shown with hasConfirmedSnapshot := true } := by
  have ho := hc.ordered snapshot hm
  obtain ⟨howner, hcontent⟩ := h.structure_of_gen hc hs hm hg
  have hcat := @mergeSnapshot_catalog _ _ order hcontent ho
  have hrevs := @mergeSnapshot_revisions _ _ order hcontent ho
  have hrevision : (s.mergeSnapshot snapshot order).revision = max s.revision snapshot.revision :=
    adoptGlobalRevision_revision _
  have hcontent' : (s.mergeSnapshot snapshot order).catalog.map PluginCatalogItem.content =
      snapshot.plugins.map PluginCatalogItem.content := by
    rw [hcat, List.map_map]
    exact List.map_congr_left fun p hp => nextItem_content hcontent ho hp _
  have hnew : (⟨snapshot, none, false⟩ : PluginReceived) ∈ received ++ [⟨snapshot, none, false⟩] :=
    List.mem_append_right _ (List.mem_singleton_self _)
  have hrev : ∀ id ρ', (s.mergeSnapshot snapshot order).confirmedItemRevisions id = some ρ' →
      ∃ p ∈ snapshot.plugins, p.manifest.id = id ∧ (s.nextItem snapshot.revision p).2 = ρ' := by
    intro id ρ' hρ
    rw [hrevs, Option.map_eq_some_iff] at hρ
    obtain ⟨p, hp, heq⟩ := hρ
    exact ⟨p, (mem_of_itemOf hp).1, (mem_of_itemOf hp).2, heq⟩
  refine ⟨?_, fun _ => ⟨snapshot, hm, hg, hcontent', ?_⟩, fun hf => (by cases hf), ?_, ?_, ?_, ?_, ?_, ?_⟩
  · -- what was received is of the history:
    intro r hr
    rcases List.mem_append.1 hr with hr | hr
    · exact h.mem r hr
    · rwa [List.mem_singleton.1 hr]
  · -- the generation says who owns the packages, so that stays:
    show (if _ then some snapshot.managedOwnership else s.managedOwnership) = _
    rw [howner, ite_self]
  · -- each shown item was told by an answer:
    intro p' hp'
    change p' ∈ (s.mergeSnapshot snapshot order).catalog at hp'
    rw [hcat, List.mem_map] at hp'
    obtain ⟨p, hp, rfl⟩ := hp'
    obtain ⟨q, hq, hid, ρ, hρ, hnext⟩ := h.nextItem_cases hc hs hm hg hp
    have hfound : (s.mergeSnapshot snapshot order).confirmedItemRevisions p.manifest.id =
        some (s.nextItem snapshot.revision p).2 := by
      rw [hrevs, itemOf_of_mem ho.nodup hp]
      rfl
    by_cases hlt : snapshot.revision < ρ
    · -- the shown item stays, with the answer that said it
      rw [if_pos hlt] at hnext
      obtain ⟨r, hr, hro, hrg, hrt, hrr⟩ := h.told q hq
      refine ⟨r, List.mem_append_left _ hr, hro, hrg, ?_, ?_⟩
      · rw [hnext]
        exact hrt
      · change s.confirmedItemRevisions q.manifest.id = _ at hrr
        rw [hid, hρ] at hrr
        show (s.mergeSnapshot snapshot order).confirmedItemRevisions _ = _
        rw [hnext, hid, hfound, hnext, hrr]
    · -- the item is the new one:
      rw [if_neg hlt] at hnext
      refine ⟨_, hnew, rfl, hg, ?_, ?_⟩
      · rw [hnext]
        exact ⟨hp, .inl rfl⟩
      · show (s.mergeSnapshot snapshot order).confirmedItemRevisions _ = _
        rw [hnext, hfound, hnext]
  · -- each confirmed revision is of a shown item:
    intro id ρ' hρ'
    obtain ⟨p, hp, rfl, rfl⟩ := hrev id ρ' hρ'
    obtain ⟨q, hq, hid, ρ, hρ, hnext⟩ := h.nextItem_cases hc hs hm hg hp
    have hle := (h.known _ _ hρ).2.2
    change ρ ≤ s.revision at hle
    refine ⟨?_, ?_⟩
    · show (itemOf (s.mergeSnapshot snapshot order).catalog _).isSome = true
      rw [itemOf_isSome, ids_eq_of_content hcontent']
      exact List.mem_map_of_mem hp
    · show snapshot.revision ≤ _ ∧ _ ≤ (s.mergeSnapshot snapshot order).revision
      rw [hrevision, hnext]
      split_ifs with hlt
      · dsimp only
        omega
      · dsimp only
        omega
  · -- no answer is of a later generation:
    intro r hr
    rcases List.mem_append.1 hr with hr | hr
    · exact h.newest r hr
    · rw [List.mem_singleton.1 hr]
      exact hg.le
  · -- no item is older than an answer that tells it:
    intro r hr hro hrg p' ht ρ' hρ'
    obtain ⟨p, hp, hid, rfl⟩ := hrev _ _ hρ'
    obtain ⟨q, hq, -, ρ, hρ, hnext⟩ := h.nextItem_cases hc hs hm hg hp
    have hle : r.snapshot.revision ≤ ρ ∨ r.snapshot.revision = snapshot.revision := by
      rcases List.mem_append.1 hr with hr | hr
      · exact .inl (h.fresh r hr hro hrg p' ht ρ (by rw [← hid]; exact hρ))
      · exact .inr (by rw [List.mem_singleton.1 hr])
    rw [hnext]
    split_ifs with hlt
    · dsimp only
      omega
    · dsimp only
      omega
  · -- an answer has the shown revision, the old one's or the new one:
    intro _
    show ∃ r ∈ (received ++ [⟨snapshot, none, false⟩] : List PluginReceived),
      r.snapshot.catalogGeneration = s.catalogGeneration ∧
      r.snapshot.revision = (s.mergeSnapshot snapshot order).revision
    rw [hrevision]
    rcases le_total s.revision snapshot.revision with hle | hle
    · exact ⟨_, hnew, hg, (max_eq_right hle).symm⟩
    · obtain ⟨r, hr, hrg, hrr⟩ := h.versioned hs
      exact ⟨r, List.mem_append_left _ hr, hrg, hrr.trans (max_eq_left hle).symm⟩
  · show snapshot.revision ≤ (s.mergeSnapshot snapshot order).revision
    rw [hrevision]
    exact le_max_right _ _

/-- An answer that says nothing new. -/
theorem Shows.refuse (h : Shows history received s.shown) (hs : s.hasConfirmedSnapshot = true) {r : PluginReceived}
    (hm : r.snapshot ∈ history) (hg : r.snapshot.catalogGeneration ≤ s.catalogGeneration)
    (hr : r.overtaken = false → r.snapshot.catalogGeneration = s.catalogGeneration → ∀ p, r.Tells p → ∀ ρ,
      s.confirmedItemRevisions p.manifest.id = some ρ → r.snapshot.revision ≤ ρ) :
    Shows history (received ++ [r]) s.shown := by
  refine ⟨?_, h.structured, fun hf => ?_, ?_, h.known, ?_, ?_, ?_, h.snapshot_le⟩
  · intro r' hr'
    rcases List.mem_append.1 hr' with hr' | hr'
    · exact h.mem r' hr'
    · rwa [List.mem_singleton.1 hr']
  · change s.hasConfirmedSnapshot = false at hf
    rw [hs] at hf
    cases hf
  · intro p hp
    obtain ⟨r', hr', htold⟩ := h.told p hp
    exact ⟨r', List.mem_append_left _ hr', htold⟩
  · intro r' hr'
    rcases List.mem_append.1 hr' with hr' | hr'
    · exact h.newest r' hr'
    · rwa [List.mem_singleton.1 hr']
  · intro r' hr'
    rcases List.mem_append.1 hr' with hr' | hr'
    · exact h.fresh r' hr'
    · rw [List.mem_singleton.1 hr']
      exact hr
  · intro _
    obtain ⟨r', hr', hv⟩ := h.versioned hs
    exact ⟨r', List.mem_append_left _ hr', hv⟩

@[simp] theorem markReady_shown : s.markReadyPreviewStaleAfterAdoption.shown = s.shown := by
  unfold PluginStore.markReadyPreviewStaleAfterAdoption
  split
  · split_ifs
    · rfl
    · rfl
  · rfl

@[simp] theorem markOpen_shown : s.markOpenRemovalConfirmationStaleAfterAdoption.shown = s.shown := by
  unfold PluginStore.markOpenRemovalConfirmationStaleAfterAdoption
  split
  · split_ifs
    · rfl
    · rfl
  · rfl

theorem adopted_shown (epoch : ℕ) (finishing : Bool) : (s.adopted snapshot epoch finishing).shown = s.shown := by
  show s.markReadyPreviewStaleAfterAdoption.markOpenRemovalConfirmationStaleAfterAdoption.shown = s.shown
  rw [markOpen_shown, markReady_shown]

theorem confirm_shown (epoch : ℕ) (finishing : Bool) :
    (s.confirmAuthoritativeSnapshot snapshot order epoch finishing).shown =
      { ((s.adoptSnapshot snapshot order).getD s).shown with hasConfirmedSnapshot := true } := by
  unfold PluginStore.confirmAuthoritativeSnapshot
  cases s.adoptSnapshot snapshot order with
  | none => rfl
  | some s' =>
    have h := @adopted_shown s' snapshot epoch finishing
    show { (s'.adopted snapshot epoch finishing).shown with hasConfirmedSnapshot := true } = _
    rw [h]
    rfl

theorem adoptSnapshot_cases {s' : PluginStore} (h : s.adoptSnapshot snapshot order = some s') :
    (s' = s.adoptGeneration snapshot order ∧ s.catalogGeneration ≤ snapshot.catalogGeneration ∧
      (s.catalogGeneration < snapshot.catalogGeneration ∨ s.hasConfirmedSnapshot = false)) ∨
    (s' = s.mergeSnapshot snapshot order ∧ snapshot.catalogGeneration = s.catalogGeneration ∧ s.hasConfirmedSnapshot = true) := by
  unfold PluginStore.adoptSnapshot at h
  split_ifs at h with hlt hgt hst hrev
  · exact .inl ⟨(Option.some.inj h).symm, not_lt.1 hlt, hgt⟩
  · obtain ⟨hle, hs⟩ := not_or.1 hgt
    exact .inr ⟨(Option.some.inj h).symm, by omega, by rwa [Bool.not_eq_false] at hs⟩

/-- Why a snapshot is refused: it says nothing new. -/
theorem Shows.adoptSnapshot_none (hc : Chronicle history) (h : Shows history received s.shown) (hm : snapshot ∈ history)
    (hn : s.adoptSnapshot snapshot order = none) : s.hasConfirmedSnapshot = true ∧
      (snapshot.catalogGeneration < s.catalogGeneration ∨
        (snapshot.catalogGeneration = s.catalogGeneration ∧ snapshot.revision ≤ s.confirmedSnapshotRevision)) := by
  unfold PluginStore.adoptSnapshot at hn
  by_cases hlt : snapshot.catalogGeneration < s.catalogGeneration
  · refine ⟨?_, .inl hlt⟩
    by_contra hs
    have hzero : s.catalogGeneration = 0 := (h.empty (Bool.eq_false_iff.2 hs)).2.1
    omega
  · rw [if_neg hlt] at hn
    by_cases hgt : s.catalogGeneration < snapshot.catalogGeneration ∨ s.hasConfirmedSnapshot = false
    · rw [if_pos hgt] at hn
      cases hn
    · rw [if_neg hgt] at hn
      obtain ⟨hle, hs⟩ := not_or.1 hgt
      rw [Bool.not_eq_false] at hs
      have hg : snapshot.catalogGeneration = s.catalogGeneration := by omega
      rw [if_neg (by rw [h.hasSameGenerationStructure hc hs hm hg]; exact Bool.noConfusion)] at hn
      split_ifs at hn with hrev
      exact ⟨hs, .inr ⟨hg, by omega⟩⟩

theorem Shows.confirm (hc : Chronicle history) (h : Shows history received s.shown) (hm : snapshot ∈ history)
    (epoch : ℕ) (finishing : Bool) : Shows history (received ++ [⟨snapshot, none, false⟩])
      (s.confirmAuthoritativeSnapshot snapshot order epoch finishing).shown := by
  rw [confirm_shown]
  cases hadopt : s.adoptSnapshot snapshot order with
  | none =>
    obtain ⟨hs, hle⟩ := h.adoptSnapshot_none hc hm hadopt
    have hshown : { s.shown with hasConfirmedSnapshot := true } = s.shown := by
      rw [← hs]
      rfl
    rw [Option.getD_none, hshown]
    refine h.refuse hs hm (by rcases hle with hle | ⟨hg, -⟩ <;> (dsimp only; omega)) fun _ hg p _ ρ hρ => ?_
    have hρ' : s.confirmedSnapshotRevision ≤ ρ := (h.known _ _ hρ).2.1
    dsimp only at hg ⊢
    omega
  | some s' =>
    rcases adoptSnapshot_cases hadopt with ⟨rfl, -, hg⟩ | ⟨rfl, hg, hs⟩
    · exact h.adoptGeneration hm (hc.ordered _ hm) hg
    · exact h.mergeSnapshot hc hs hm hg

/-! The answer to `setEnabled` -/

variable {id : PluginId} {generation owner : ℕ} {result : PluginCatalogMutationResult}

theorem showResult_shown : (s.showResult id result).shown =
    { s.shown with
      catalog := replaceItem s.catalog id result.plugin
      confirmedItemRevisions := Function.update s.confirmedItemRevisions id (some result.revision)
      revision := max s.revision result.revision } := by
  unfold PluginStore.showResult
  rw [markOpen_shown]
  unfold PluginStore.shown
  rw [adoptGlobalRevision_revision]
  rfl

theorem replaceItem_content {catalog : List PluginCatalogItem} (hn : (catalog.map (·.manifest.id)).Nodup)
    {current item : PluginCatalogItem} (hcur : itemOf catalog id = some current) (hsame : current.content = item.content) :
    (replaceItem catalog id item).map PluginCatalogItem.content = catalog.map PluginCatalogItem.content := by
  unfold replaceItem
  rw [List.map_map]
  refine List.map_congr_left fun p hp => ?_
  by_cases hid : p.manifest.id = id
  · have hpc : p = current := by
      have hfound := itemOf_of_mem hn hp
      rw [hid, hcur] at hfound
      exact (Option.some.inj hfound).symm
    rw [Function.comp_apply, if_pos hid, hpc, hsame]
  · rw [Function.comp_apply, if_neg hid]

theorem mem_replaceItem {catalog : List PluginCatalogItem} {item p : PluginCatalogItem} :
    p ∈ replaceItem catalog id item → p = item ∨ (p ∈ catalog ∧ p.manifest.id ≠ id) := by
  unfold replaceItem
  rw [List.mem_map]
  rintro ⟨q, hq, rfl⟩
  split_ifs with hid
  · exact .inl rfl
  · exact .inr ⟨hq, hid⟩

/-- What `acceptsResult` asks for. -/
theorem acceptsResult_iff : s.acceptsResult id generation owner result = true ↔
    s.mutationOwners id = some owner ∧ result.catalogGeneration = generation ∧ s.catalogGeneration = generation ∧
      ∃ current, itemOf s.catalog id = some current ∧ current.content = result.plugin.content ∧
        ∀ ρ, s.confirmedItemRevisions id = some ρ → ρ ≤ result.revision := by
  unfold PluginStore.acceptsResult
  rw [Bool.and_eq_true, decide_eq_true_eq]
  cases hcur : itemOf s.catalog id with
  | none => simp
  | some current =>
    cases hρ : s.confirmedItemRevisions id with
    | none => simp [hasSameImmutableContent_iff, and_assoc]
    | some ρ =>
      simp only [Bool.and_eq_true, decide_eq_true_eq, hasSameImmutableContent_iff, Option.some.injEq, exists_eq_left',
        forall_eq']
      tauto

/-- A snapshot of the history with the item that the result has. -/
structure Result (history : List PluginCatalogSnapshot) (id : PluginId) (result : PluginCatalogMutationResult)
    (snapshot : PluginCatalogSnapshot) : Prop where
  mem : snapshot ∈ history
  item : itemOf snapshot.plugins id = some result.plugin
  revision : result.revision = snapshot.revision
  generation : result.catalogGeneration = snapshot.catalogGeneration

theorem Shows.showResult (hc : Chronicle history) (h : Shows history received s.shown)
    (hs : s.hasConfirmedSnapshot = true) (hr : Result history id result snapshot)
    (ha : s.acceptsResult id generation owner result = true) :
    Shows history (received ++ [⟨snapshot, some id, false⟩]) (s.showResult id result).shown := by
  obtain ⟨-, hgen, hshown, current, hcur, hsame, hle⟩ := acceptsResult_iff.1 ha
  have hg : snapshot.catalogGeneration = s.catalogGeneration := by
    rw [← hr.generation, hgen, hshown]
  have hid : result.plugin.manifest.id = id := (mem_of_itemOf hr.item).2
  have hnew : (⟨snapshot, some id, false⟩ : PluginReceived) ∈ received ++ [⟨snapshot, some id, false⟩] :=
    List.mem_append_right _ (List.mem_singleton_self _)
  have hcontent := @replaceItem_content _ _ (h.nodup hc) _ result.plugin hcur hsame
  rw [showResult_shown]
  refine ⟨?_, fun _ => ?_, fun hf => ?_, ?_, ?_, ?_, ?_, fun _ => ?_, ?_⟩
  · intro r hr'
    rcases List.mem_append.1 hr' with hr' | hr'
    · exact h.mem r hr'
    · rw [List.mem_singleton.1 hr']
      exact hr.mem
  · obtain ⟨base, hb, hbg, hbc, hbo⟩ := h.structured hs
    exact ⟨base, hb, hbg, hcontent.trans hbc, hbo⟩
  · change s.hasConfirmedSnapshot = false at hf
    rw [hs] at hf
    cases hf
  · intro p hp
    rcases mem_replaceItem hp with rfl | ⟨hp, hne⟩
    · refine ⟨_, hnew, rfl, hg, ⟨(mem_of_itemOf hr.item).1, .inr (by rw [hid])⟩, ?_⟩
      show Function.update s.confirmedItemRevisions id _ _ = _
      rw [hid, Function.update_self, hr.revision]
    · obtain ⟨r, hr', hro, hrg, hrt, hrr⟩ := h.told p hp
      refine ⟨r, List.mem_append_left _ hr', hro, hrg, hrt, ?_⟩
      show Function.update s.confirmedItemRevisions id _ _ = _
      rw [Function.update_of_ne hne]
      exact hrr
  · intro j ρ hρ
    change Function.update s.confirmedItemRevisions id _ j = some ρ at hρ
    have hids : (replaceItem s.catalog id result.plugin).map (·.manifest.id) = s.catalog.map (·.manifest.id) :=
      ids_eq_of_content hcontent
    by_cases hj : j = id
    · subst hj
      rw [Function.update_self] at hρ
      obtain rfl := Option.some.inj hρ
      obtain ⟨r, -, -, -, -, hrr⟩ := h.told current (mem_of_itemOf hcur).1
      change s.confirmedItemRevisions current.manifest.id = _ at hrr
      rw [(mem_of_itemOf hcur).2] at hrr
      have hold := hle _ hrr
      have hsnap : s.confirmedSnapshotRevision ≤ r.snapshot.revision := (h.known _ _ hrr).2.1
      refine ⟨?_, hsnap.trans hold, le_max_right _ _⟩
      show (itemOf (replaceItem s.catalog j result.plugin) j).isSome = true
      rw [itemOf_isSome, hids, ← itemOf_isSome, hcur]
      rfl
    · rw [Function.update_of_ne hj] at hρ
      obtain ⟨hsome, hsnap, hrev⟩ := h.known _ _ hρ
      refine ⟨?_, hsnap, hrev.trans (le_max_left _ _)⟩
      show (itemOf (replaceItem s.catalog id result.plugin) j).isSome = true
      rw [itemOf_isSome, hids, ← itemOf_isSome]
      exact hsome
  · intro r hr'
    rcases List.mem_append.1 hr' with hr' | hr'
    · exact h.newest r hr'
    · rw [List.mem_singleton.1 hr']
      exact hg.le
  · intro r hr' hro hrg p ht ρ hρ
    change Function.update s.confirmedItemRevisions id _ _ = some ρ at hρ
    rcases List.mem_append.1 hr' with hr' | hr'
    · by_cases hp : p.manifest.id = id
      · rw [hp, Function.update_self] at hρ
        obtain rfl := Option.some.inj hρ
        obtain ⟨r', -, -, -, -, hrr⟩ := h.told current (mem_of_itemOf hcur).1
        change s.confirmedItemRevisions current.manifest.id = _ at hrr
        rw [(mem_of_itemOf hcur).2] at hrr
        have hfresh := h.fresh r hr' hro hrg p ht r'.snapshot.revision (by rw [hp]; exact hrr)
        exact hfresh.trans (hle _ hrr)
      · rw [Function.update_of_ne hp] at hρ
        exact h.fresh r hr' hro hrg p ht ρ hρ
    · obtain rfl := List.mem_singleton.1 hr'
      -- the result speaks of its own plugin only
      rcases ht.2 with hnone | hsome
      · cases hnone
      · rw [← Option.some.inj hsome, Function.update_self] at hρ
        exact (hr.revision.symm.trans (Option.some.inj hρ)).le
  · rcases le_total s.revision result.revision with hmax | hmax
    · exact ⟨_, hnew, hg, by rw [← hr.revision]; exact (max_eq_right hmax).symm⟩
    · obtain ⟨r, hr', hrg, hrr⟩ := h.versioned hs
      exact ⟨r, List.mem_append_left _ hr', hrg, hrr.trans (max_eq_left hmax).symm⟩
  · exact h.snapshot_le.trans (le_max_left _ _)

/-- A result that is refused, though no later call has set the plugin, says nothing new. -/
theorem Shows.refuseResult (hc : Chronicle history) (h : Shows history received s.shown)
    (hs : s.hasConfirmedSnapshot = true) (hr : Result history id result snapshot) (hgen : result.catalogGeneration = generation)
    (hle : generation ≤ s.catalogGeneration) {overtaken : Bool}
    (ho : overtaken = false → generation = s.catalogGeneration → s.mutationOwners id = some owner)
    (ha : s.acceptsResult id generation owner result = false) :
    Shows history (received ++ [⟨snapshot, some id, overtaken⟩]) s.shown := by
  have hg : snapshot.catalogGeneration = generation := hr.generation.symm.trans hgen
  refine h.refuse hs hr.mem (hg.le.trans hle) fun hov hsame p ht ρ hρ => ?_
  dsimp only at hov hsame
  have hp : p.manifest.id = id := by
    rcases ht.2 with hnone | hsome
    · cases hnone
    · exact (Option.some.inj hsome).symm
  -- the item is there with the content of the generation, so only its revision can be in the way
  obtain ⟨-, hcontent⟩ := h.structure_of_gen hc hs hr.mem hsame
  have hitem := itemOf_content hcontent id
  rw [hr.item, Option.map_some, Option.map_eq_some_iff] at hitem
  obtain ⟨current, hcur, heq⟩ := hitem
  by_contra hlt
  have hacc : s.acceptsResult id generation owner result = true :=
    acceptsResult_iff.2 ⟨ho hov (hg.symm.trans hsame), hgen, hsame.symm.trans hg, current, hcur, heq, fun ρ' hρ' => by
      rw [hp] at hρ
      change s.confirmedItemRevisions id = some ρ at hρ
      rw [hρ] at hρ'
      have hρρ := Option.some.inj hρ'
      have hrev := hr.revision
      dsimp only at hlt
      omega⟩
  rw [ha] at hacc
  cases hacc

/-! What is shown only becomes newer -/

/-- No plugin is shown at an older version than before. -/
def ShownCatalog.Advances (v v' : ShownCatalog) : Prop :=
  v.catalogGeneration ≤ v'.catalogGeneration ∧ (v.catalogGeneration = v'.catalogGeneration →
    ∀ id ρ, v.confirmedItemRevisions id = some ρ → ∃ ρ', v'.confirmedItemRevisions id = some ρ' ∧ ρ ≤ ρ')

theorem ShownCatalog.Advances.refl (v : ShownCatalog) : v.Advances v :=
  ⟨le_rfl, fun _ _ ρ hρ => ⟨ρ, hρ, le_rfl⟩⟩

theorem ShownCatalog.Advances.trans {u v v' : ShownCatalog} (h : u.Advances v) (h' : v.Advances v') : u.Advances v' := by
  refine ⟨h.1.trans h'.1, fun hg id ρ hρ => ?_⟩
  have hle := h.1
  have hle' := h'.1
  obtain ⟨ρ₁, hρ₁, hle₁⟩ := h.2 (by omega) id ρ hρ
  obtain ⟨ρ₂, hρ₂, hle₂⟩ := h'.2 (by omega) id ρ₁ hρ₁
  exact ⟨ρ₂, hρ₂, hle₁.trans hle₂⟩

theorem Shows.confirm_advances (hc : Chronicle history) (h : Shows history received s.shown) (hm : snapshot ∈ history)
    (epoch : ℕ) (finishing : Bool) :
    s.shown.Advances (s.confirmAuthoritativeSnapshot snapshot order epoch finishing).shown := by
  rw [confirm_shown]
  cases hadopt : s.adoptSnapshot snapshot order with
  | none => exact ShownCatalog.Advances.refl _
  | some s' =>
    rcases adoptSnapshot_cases hadopt with ⟨rfl, hle, hg⟩ | ⟨rfl, hg, hs⟩
    · refine ⟨hle, fun heq id ρ hρ => ?_⟩
      -- the generation is the one shown only where nothing was confirmed before
      rcases hg with hlt | hs
      · change s.catalogGeneration = snapshot.catalogGeneration at heq
        omega
      · have hsome := (h.known id ρ hρ).1
        rw [(h.empty hs).1] at hsome
        cases hsome
    · refine ⟨le_rfl, fun _ id ρ hρ => ?_⟩
      obtain ⟨-, hcontent⟩ := h.structure_of_gen hc hs hm hg
      have hid : id ∈ snapshot.plugins.map (·.manifest.id) := by
        rw [← ids_eq_of_content hcontent]
        exact itemOf_isSome.1 (h.known id ρ hρ).1
      obtain ⟨p, hp, rfl⟩ := List.mem_map.1 hid
      obtain ⟨q, -, -, ρ', hρ', hnext⟩ := h.nextItem_cases hc hs hm hg hp
      change s.confirmedItemRevisions p.manifest.id = some ρ at hρ
      have hsame : ρ = ρ' := Option.some.inj (hρ.symm.trans hρ')
      refine ⟨(s.nextItem snapshot.revision p).2, ?_, ?_⟩
      · show (s.mergeSnapshot snapshot order).confirmedItemRevisions _ = _
        rw [mergeSnapshot_revisions hcontent (hc.ordered _ hm), itemOf_of_mem (hc.ordered _ hm).nodup hp]
        rfl
      · rw [hnext]
        split_ifs
        · exact hsame.le
        · dsimp only
          omega

theorem showResult_advances (ha : s.acceptsResult id generation owner result = true) :
    s.shown.Advances (s.showResult id result).shown := by
  obtain ⟨-, -, -, current, -, -, hle⟩ := acceptsResult_iff.1 ha
  rw [showResult_shown]
  refine ⟨le_rfl, fun _ j ρ hρ => ?_⟩
  change s.confirmedItemRevisions j = some ρ at hρ
  by_cases hj : j = id
  · subst hj
    exact ⟨result.revision, Function.update_self .., hle ρ hρ⟩
  · exact ⟨ρ, (Function.update_of_ne hj ..).trans hρ, le_rfl⟩

end Adoption

/-! ## What a call does at once -/

/-- The order and the epoch of a request for a snapshot. -/
def PluginRequest.asks : PluginRequest → Option (ℕ × ℕ)
  | .load order epoch => some (order, epoch)
  | .reload order epoch => some (order, epoch)
  | .commitImport order epoch => some (order, epoch)
  | .removal _ order epoch => some (order, epoch)
  | .prepareImport _ => none
  | .setEnabled .. => none

/-- No call shows anything new or confirms anything; `r` is the request that it sends. -/
structure Called (s : PluginStore) (r : Option PluginRequest) (s' : PluginStore) : Prop where
  shown : s'.shown = s.shown
  active : s'.activeCommandMutations = s.activeCommandMutations + if r.any PluginRequest.isMutation then 1 else 0
  authority : s'.commandAuthorityConfirmed = true → s.commandAuthorityConfirmed = true
  epoch_le : s.commandEpoch ≤ s'.commandEpoch
  epoch_lt : ∀ q, r = some q → s.commandEpoch < s'.commandEpoch
  asks : ∀ q order epoch, r = some q → q.asks = some (order, epoch) →
    epoch = s'.commandEpoch ∧ s'.commandAuthorityConfirmed = false
  sets : ∀ id enabled generation owner, r = some (.setEnabled id enabled generation owner) →
    (itemOf s.catalog id).isSome = true ∧ generation = s.catalogGeneration ∧ owner = s.mutationSequence + 1 ∧
      s'.mutationSequence = s.mutationSequence + 1 ∧ s'.mutationOwners = Function.update s.mutationOwners id (some owner)
  others : (∀ id enabled generation owner, r ≠ some (.setEnabled id enabled generation owner)) →
    s'.mutationSequence = s.mutationSequence ∧ s'.mutationOwners = s.mutationOwners
  removing : s.removalStatus = .removing → s'.removalStatus = .removing ∧ s'.activeRemovalOwner = s.activeRemovalOwner ∧
    ∀ owner order epoch, r ≠ some (.removal owner order epoch)
  removal : ∀ owner order epoch, r = some (.removal owner order epoch) →
    s'.activeRemovalOwner = some owner ∧ s'.removalStatus = .removing

section Calls

variable (s : PluginStore)

theorem Called.idle : Called s none s :=
  ⟨rfl, rfl, id, le_rfl, nofun, nofun, nofun, fun _ => ⟨rfl, rfl⟩, fun h => ⟨h, rfl, nofun⟩, nofun⟩

theorem beginLoad_called : Called s s.beginLoad.1 s.beginLoad.2 where
  shown := rfl
  active := rfl
  authority h := by cases h
  epoch_le := Nat.le_succ _
  epoch_lt _ _ := Nat.lt_succ_self _
  asks q order epoch hq ha := by
    obtain rfl := Option.some.inj hq
    exact ⟨(Prod.mk.inj (Option.some.inj ha)).2.symm, rfl⟩
  sets _ _ _ _ h := by cases h
  others _ := ⟨rfl, rfl⟩
  removing h := ⟨h, rfl, fun _ _ _ h => (by cases h)⟩
  removal _ _ _ h := by cases h

/-- Nothing is sent, and the removal that is under way stays. -/
theorem Called.unsent {s s' : PluginStore} (hshown : s'.shown = s.shown)
    (hactive : s'.activeCommandMutations = s.activeCommandMutations)
    (hauth : s'.commandAuthorityConfirmed = s.commandAuthorityConfirmed) (hepoch : s.commandEpoch ≤ s'.commandEpoch)
    (hseq : s'.mutationSequence = s.mutationSequence) (howners : s'.mutationOwners = s.mutationOwners)
    (hremoving : s.removalStatus = .removing → s'.removalStatus = .removing ∧ s'.activeRemovalOwner = s.activeRemovalOwner) :
    Called s none s' where
  shown := hshown
  active := hactive
  authority h := hauth ▸ h
  epoch_le := hepoch
  epoch_lt _ h := by cases h
  asks _ _ _ h := by cases h
  sets _ _ _ _ h := by cases h
  others _ := ⟨hseq, howners⟩
  removing h := ⟨(hremoving h).1, (hremoving h).2, nofun⟩
  removal _ _ _ h := by cases h

theorem load_called : Called s s.load.1 s.load.2 := by
  unfold PluginStore.load
  split_ifs
  · exact Called.idle s
  · exact Called.idle s
  · exact beginLoad_called s

theorem retry_called : Called s s.retry.1 s.retry.2 := by
  unfold PluginStore.retry
  split_ifs
  · exact Called.idle s
  · exact beginLoad_called s

theorem reload_called : Called s s.reload.1 s.reload.2 := by
  unfold PluginStore.reload
  split_ifs
  · exact Called.idle s
  · exact {
      shown := rfl
      active := rfl
      authority := fun h => by cases h
      epoch_le := Nat.le_succ _
      epoch_lt := fun _ _ => Nat.lt_succ_self _
      asks := fun q order epoch hq ha => by
        obtain rfl := Option.some.inj hq
        exact ⟨(Prod.mk.inj (Option.some.inj ha)).2.symm, rfl⟩
      sets := fun _ _ _ _ h => by cases h
      others := fun _ => ⟨rfl, rfl⟩
      removing := fun h => ⟨h, rfl, fun _ _ _ h => (by cases h)⟩
      removal := fun _ _ _ h => by cases h }

theorem prepareImport_called : Called s s.prepareImport.1 s.prepareImport.2 := by
  unfold PluginStore.prepareImport
  split_ifs
  · exact Called.idle s
  · exact {
      shown := rfl
      active := rfl
      authority := id
      epoch_le := Nat.le_succ _
      epoch_lt := fun _ _ => Nat.lt_succ_self _
      asks := fun q order epoch hq ha => by
        obtain rfl := Option.some.inj hq
        cases ha
      sets := fun _ _ _ _ h => by cases h
      others := fun _ => ⟨rfl, rfl⟩
      removing := fun h => ⟨h, rfl, fun _ _ _ h => (by cases h)⟩
      removal := fun _ _ _ h => by cases h }

theorem cancelImport_called : Called s none s.cancelImport := by
  unfold PluginStore.cancelImport
  split_ifs
  · exact Called.idle s
  · exact Called.unsent rfl rfl rfl le_rfl rfl rfl fun h => ⟨h, rfl⟩

theorem commitImport_called : Called s s.commitImport.1 s.commitImport.2 := by
  unfold PluginStore.commitImport
  cases s.importPreview with
  | none =>
    dsimp only
    rw [ite_self]
    exact Called.idle s
  | some preview =>
    dsimp only
    split_ifs
    · exact Called.idle s
    · exact Called.idle s
    · exact Called.idle s
    · exact {
        shown := rfl
        active := rfl
        authority := fun h => by cases h
        epoch_le := Nat.le_succ _
        epoch_lt := fun _ _ => Nat.lt_succ_self _
        asks := fun q order epoch hq ha => by
          obtain rfl := Option.some.inj hq
          exact ⟨(Prod.mk.inj (Option.some.inj ha)).2.symm, rfl⟩
        sets := fun _ _ _ _ h => by cases h
        others := fun _ => ⟨rfl, rfl⟩
        removing := fun h => ⟨h, rfl, fun _ _ _ h => (by cases h)⟩
        removal := fun _ _ _ h => by cases h }

theorem releaseImportView_called : Called s none s.releaseImportView := by
  unfold PluginStore.releaseImportView
  split_ifs
  · exact Called.unsent rfl rfl rfl le_rfl rfl rfl fun h => ⟨h, rfl⟩
  · exact cancelImport_called s

theorem clearImportResult_called : Called s none s.clearImportResult := by
  unfold PluginStore.clearImportResult
  split_ifs
  · exact Called.idle s
  · exact Called.unsent rfl rfl rfl le_rfl rfl rfl fun h => ⟨h, rfl⟩

theorem beginRemoval_called (id : PluginId) : Called s none (s.beginRemoval id) := by
  unfold PluginStore.beginRemoval
  split_ifs with hidle
  · exact Called.idle s
  · cases itemOf s.catalog id with
    | none => exact Called.idle s
    | some plugin =>
      dsimp only
      split_ifs
      · exact Called.idle s
      · refine Called.unsent rfl rfl rfl (Nat.le_succ _) rfl rfl fun h => ?_
        rw [h] at hidle
        exact (hidle (.inr (.inr (.inr nofun)))).elim

theorem cancelRemoval_called : Called s none s.cancelRemoval := by
  unfold PluginStore.cancelRemoval
  split_ifs with h
  · exact Called.idle s
  · refine Called.unsent rfl rfl rfl le_rfl rfl rfl fun hr => ?_
    rw [hr] at h
    exact (h nofun).elim

theorem clearRemovalResult_called : Called s none s.clearRemovalResult := by
  unfold PluginStore.clearRemovalResult
  split_ifs with h
  · exact Called.idle s
  · refine Called.unsent rfl rfl rfl le_rfl rfl rfl fun hr => ?_
    rw [hr] at h
    exact (h nofun).elim

theorem confirmRemoval_called : Called s s.confirmRemoval.1 s.confirmRemoval.2 := by
  unfold PluginStore.confirmRemoval
  cases s.removalTarget with
  | none =>
    dsimp only
    rw [ite_self]
    exact Called.idle s
  | some target =>
    cases howner : s.activeRemovalOwner with
    | none =>
      dsimp only
      rw [ite_self]
      exact Called.idle s
    | some owner =>
      dsimp only
      split_ifs with _ h
      · exact Called.idle s
      · exact Called.idle s
      · exact Called.unsent rfl rfl rfl le_rfl rfl rfl fun h => ⟨h, howner.symm⟩
      · exact {
          shown := rfl
          active := rfl
          authority := fun h => by cases h
          epoch_le := Nat.le_succ _
          epoch_lt := fun _ _ => Nat.lt_succ_self _
          asks := fun q order epoch hq ha => by
            obtain rfl := Option.some.inj hq
            exact ⟨(Prod.mk.inj (Option.some.inj ha)).2.symm, rfl⟩
          sets := fun _ _ _ _ h => by cases h
          others := fun _ => ⟨rfl, rfl⟩
          removing := fun hr => by
            rw [hr] at h
            exact (h (.inl nofun)).elim
          removal := fun o _ _ hq => by
            obtain ⟨rfl, -, -⟩ := PluginRequest.removal.inj (Option.some.inj hq)
            exact ⟨howner, rfl⟩ }

theorem setEnabled_called (id : PluginId) (enabled : Bool) :
    Called s (s.setEnabled id enabled).1 (s.setEnabled id enabled).2 := by
  unfold PluginStore.setEnabled
  cases hitem : itemOf s.catalog id with
  | none => exact Called.idle s
  | some existing =>
    dsimp only
    split_ifs
    · exact Called.idle s
    · exact {
        shown := rfl
        active := rfl
        authority := fun h => h
        epoch_le := Nat.le_succ _
        epoch_lt := fun _ _ => Nat.lt_succ_self _
        asks := fun q order epoch hq ha => by
          obtain rfl := Option.some.inj hq
          cases ha
        sets := fun j b g o h => by
          obtain ⟨rfl, -, rfl, rfl⟩ := PluginRequest.setEnabled.inj (Option.some.inj h)
          exact ⟨by rw [hitem]; rfl, rfl, rfl, rfl, rfl⟩
        others := fun h => (h _ _ _ _ rfl).elim
        removing := fun h => ⟨h, rfl, fun _ _ _ h => (by cases h)⟩
        removal := fun _ _ _ h => by cases h }

theorem call_called (c : PluginCall) : Called s (s.call c).1 (s.call c).2 := by
  cases c with
  | load => exact load_called s
  | retry => exact retry_called s
  | reload => exact reload_called s
  | setEnabled id enabled => exact setEnabled_called s id enabled
  | prepareImport => exact prepareImport_called s
  | cancelImport => exact cancelImport_called s
  | commitImport => exact commitImport_called s
  | releaseImportView => exact releaseImportView_called s
  | clearImportResult => exact clearImportResult_called s
  | beginRemoval id => exact beginRemoval_called s id
  | cancelRemoval => exact cancelRemoval_called s
  | confirmRemoval => exact confirmRemoval_called s
  | clearRemovalResult => exact clearRemovalResult_called s

end Calls

/-! ## What an answer does -/

/-- The part of the store that decides which answers count. -/
structure Arbiter where
  mutationSequence : ℕ
  commandEpoch : ℕ
  activeCommandMutations : ℕ
  removalStatus : PluginRemovalStatus
  activeRemovalOwner : Option ℕ

def PluginStore.arbiter (s : PluginStore) : Arbiter :=
  ⟨s.mutationSequence, s.commandEpoch, s.activeCommandMutations, s.removalStatus, s.activeRemovalOwner⟩

section Answers

variable {s : PluginStore} {snapshot : PluginCatalogSnapshot} {order epoch : ℕ} {finishing : Bool}

theorem markReady_arbiter : s.markReadyPreviewStaleAfterAdoption.arbiter = s.arbiter ∧
    s.markReadyPreviewStaleAfterAdoption.mutationOwners = s.mutationOwners ∧
    s.markReadyPreviewStaleAfterAdoption.commandAuthorityConfirmed = s.commandAuthorityConfirmed := by
  unfold PluginStore.markReadyPreviewStaleAfterAdoption
  split
  · split_ifs
    · exact ⟨rfl, rfl, rfl⟩
    · exact ⟨rfl, rfl, rfl⟩
  · exact ⟨rfl, rfl, rfl⟩

theorem markOpen_arbiter : s.markOpenRemovalConfirmationStaleAfterAdoption.arbiter = s.arbiter ∧
    s.markOpenRemovalConfirmationStaleAfterAdoption.mutationOwners = s.mutationOwners ∧
    s.markOpenRemovalConfirmationStaleAfterAdoption.commandAuthorityConfirmed = s.commandAuthorityConfirmed := by
  unfold PluginStore.markOpenRemovalConfirmationStaleAfterAdoption
  split
  · split_ifs
    · exact ⟨rfl, rfl, rfl⟩
    · exact ⟨rfl, rfl, rfl⟩
  · exact ⟨rfl, rfl, rfl⟩

theorem adopted_arbiter : (s.adopted snapshot epoch finishing).arbiter = s.arbiter ∧
    (s.adopted snapshot epoch finishing).mutationOwners = s.mutationOwners ∧
    (s.adopted snapshot epoch finishing).commandAuthorityConfirmed =
      (decide (epoch = s.commandEpoch) && decide (s.activeCommandMutations = if finishing then 1 else 0) &&
        decide (snapshot.revision = s.revision)) := by
  have h := markOpen_arbiter (s := s.markReadyPreviewStaleAfterAdoption)
  have hv := @adopted_shown s snapshot epoch finishing
  rw [markReady_arbiter.1, markReady_arbiter.2.1] at h
  have hepoch := congrArg Arbiter.commandEpoch h.1
  have hactive := congrArg Arbiter.activeCommandMutations h.1
  have hrev := congrArg ShownCatalog.revision hv
  refine ⟨h.1, h.2.1, ?_⟩
  change PluginStore.commandEpoch _ = s.commandEpoch at hepoch
  change PluginStore.activeCommandMutations _ = s.activeCommandMutations at hactive
  change PluginStore.revision _ = s.revision at hrev
  rw [← hepoch, ← hactive, ← hrev]
  rfl

theorem confirm_arbiter : (s.confirmAuthoritativeSnapshot snapshot order epoch finishing).arbiter = s.arbiter := by
  unfold PluginStore.confirmAuthoritativeSnapshot
  cases hadopt : s.adoptSnapshot snapshot order with
  | none => rfl
  | some s' =>
    show (s'.adopted snapshot epoch finishing).arbiter = _
    rw [adopted_arbiter.1]
    rcases adoptSnapshot_cases hadopt with ⟨rfl, -⟩ | ⟨rfl, -⟩
    · rfl
    · rfl

/-- A new generation takes the plugins from the calls that are under way. -/
theorem confirm_owners :
    (s.confirmAuthoritativeSnapshot snapshot order epoch finishing).mutationOwners = s.mutationOwners ∨
    ((s.confirmAuthoritativeSnapshot snapshot order epoch finishing).mutationOwners = (fun _ => none) ∧
      (s.catalogGeneration < (s.confirmAuthoritativeSnapshot snapshot order epoch finishing).catalogGeneration ∨
        s.hasConfirmedSnapshot = false)) := by
  unfold PluginStore.confirmAuthoritativeSnapshot
  cases hadopt : s.adoptSnapshot snapshot order with
  | none => exact .inl rfl
  | some s' =>
    have hown : (s'.adopted snapshot epoch finishing).mutationOwners = s'.mutationOwners := adopted_arbiter.2.1
    have hgen := congrArg ShownCatalog.catalogGeneration (@adopted_shown s' snapshot epoch finishing)
    change PluginStore.catalogGeneration _ = s'.catalogGeneration at hgen
    show (s'.adopted snapshot epoch finishing).mutationOwners = _ ∨ (s'.adopted snapshot epoch finishing).mutationOwners = _ ∧
      (_ < (s'.adopted snapshot epoch finishing).catalogGeneration ∨ _)
    rw [hown, hgen]
    rcases adoptSnapshot_cases hadopt with ⟨rfl, -, hg⟩ | ⟨rfl, -⟩
    · exact .inr ⟨rfl, hg⟩
    · exact .inl rfl

theorem confirm_catalogGeneration_le :
    s.catalogGeneration ≤ (s.confirmAuthoritativeSnapshot snapshot order epoch finishing).catalogGeneration := by
  have h := congrArg ShownCatalog.catalogGeneration (@confirm_shown s snapshot order epoch finishing)
  change PluginStore.catalogGeneration _ = ((s.adoptSnapshot snapshot order).getD s).catalogGeneration at h
  rw [h]
  cases hadopt : s.adoptSnapshot snapshot order with
  | none => exact le_rfl
  | some s' =>
    rcases adoptSnapshot_cases hadopt with ⟨rfl, hle, -⟩ | ⟨rfl, -⟩
    · exact hle
    · exact le_rfl

/-- The answer to `q` has a snapshot. -/
structure Taken (s : PluginStore) (q : PluginRequest) (snapshot : PluginCatalogSnapshot) (order epoch : ℕ)
    (s' : PluginStore) : Prop where
  shown : s'.shown = (s.confirmAuthoritativeSnapshot snapshot order epoch q.isMutation).shown
  owners : s'.mutationOwners = (s.confirmAuthoritativeSnapshot snapshot order epoch q.isMutation).mutationOwners
  sequence : s'.mutationSequence = s.mutationSequence
  authority : s'.commandAuthorityConfirmed = true →
    (s.confirmAuthoritativeSnapshot snapshot order epoch q.isMutation).commandAuthorityConfirmed = true ∧
      s'.commandEpoch = s.commandEpoch
  epoch_le : s.commandEpoch ≤ s'.commandEpoch
  active : s'.activeCommandMutations = s.activeCommandMutations - if q.isMutation then 1 else 0
  removing : (∀ owner order epoch, q ≠ .removal owner order epoch) →
    s'.removalStatus = s.removalStatus ∧ s'.activeRemovalOwner = s.activeRemovalOwner

/-- The answer to `q` shows nothing. If `q` was a mutation, nothing is confirmed any more. -/
structure Dropped (s : PluginStore) (q : PluginRequest) (s' : PluginStore) : Prop where
  shown : s'.shown = s.shown
  owners : s'.mutationOwners = match q with
    | .setEnabled id _ _ owner =>
      if s.mutationOwners id = some owner then Function.update s.mutationOwners id none else s.mutationOwners
    | _ => s.mutationOwners
  sequence : s'.mutationSequence = s.mutationSequence
  authority : s'.commandAuthorityConfirmed = true → s.commandAuthorityConfirmed = true ∧ q.isMutation = false
  epoch_le : s.commandEpoch ≤ s'.commandEpoch
  epoch_lt : q.isMutation = true → s.commandEpoch < s'.commandEpoch
  active : s'.activeCommandMutations = s.activeCommandMutations - if q.isMutation then 1 else 0
  removing : (∀ owner order epoch, q ≠ .removal owner order epoch) →
    s'.removalStatus = s.removalStatus ∧ s'.activeRemovalOwner = s.activeRemovalOwner

variable {q : PluginRequest} {reply : PluginReply}

theorem loadAnswered_taken (partly : Bool) : Taken s (.load order epoch) snapshot order epoch
    (s.answered (.load order epoch) (.snapshot snapshot partly)) := by
  have h := @confirm_arbiter s snapshot order epoch false
  exact {
    shown := rfl
    owners := rfl
    sequence := congrArg Arbiter.mutationSequence h
    authority := fun ha => ⟨ha, congrArg Arbiter.commandEpoch h⟩
    epoch_le := (congrArg Arbiter.commandEpoch h).ge
    active := congrArg Arbiter.activeCommandMutations h
    removing := fun _ => ⟨congrArg Arbiter.removalStatus h, congrArg Arbiter.activeRemovalOwner h⟩ }

theorem reloadAnswered_taken (partly : Bool) : Taken s (.reload order epoch) snapshot order epoch
    (s.answered (.reload order epoch) (.snapshot snapshot partly)) := by
  have h := @confirm_arbiter s snapshot order epoch false
  exact {
    shown := rfl
    owners := rfl
    sequence := congrArg Arbiter.mutationSequence h
    authority := fun ha => ⟨ha, congrArg Arbiter.commandEpoch h⟩
    epoch_le := (congrArg Arbiter.commandEpoch h).ge
    active := congrArg Arbiter.activeCommandMutations h
    removing := fun _ => ⟨congrArg Arbiter.removalStatus h, congrArg Arbiter.activeRemovalOwner h⟩ }

theorem commitAnswered_taken (partly : Bool) : Taken s (.commitImport order epoch) snapshot order epoch
    (s.answered (.commitImport order epoch) (.snapshot snapshot partly)) := by
  have h := @confirm_arbiter s snapshot order epoch true
  have hactive : PluginStore.activeCommandMutations _ - 1 = s.activeCommandMutations - 1 :=
    congrArg (fun a : Arbiter => a.activeCommandMutations - 1) h
  cases partly with
  | false =>
    exact {
      shown := rfl
      owners := rfl
      sequence := congrArg Arbiter.mutationSequence h
      authority := fun ha => ⟨ha, congrArg Arbiter.commandEpoch h⟩
      epoch_le := (congrArg Arbiter.commandEpoch h).ge
      active := hactive
      removing := fun _ => ⟨congrArg Arbiter.removalStatus h, congrArg Arbiter.activeRemovalOwner h⟩ }
  | true =>
    exact {
      shown := rfl
      owners := rfl
      sequence := congrArg Arbiter.mutationSequence h
      authority := fun ha => by cases ha
      epoch_le := (congrArg Arbiter.commandEpoch h).ge.trans (Nat.le_succ _)
      active := hactive
      removing := fun _ => ⟨congrArg Arbiter.removalStatus h, congrArg Arbiter.activeRemovalOwner h⟩ }

theorem removalEnded_keeps (owner : ℕ) : (s.removalEnded owner).shown = s.shown ∧
    (s.removalEnded owner).mutationOwners = s.mutationOwners ∧ (s.removalEnded owner).mutationSequence = s.mutationSequence ∧
    (s.removalEnded owner).commandAuthorityConfirmed = s.commandAuthorityConfirmed ∧
    (s.removalEnded owner).commandEpoch = s.commandEpoch ∧
    (s.removalEnded owner).activeCommandMutations = s.activeCommandMutations - 1 := by
  unfold PluginStore.removalEnded
  split_ifs
  · exact ⟨rfl, rfl, rfl, rfl, rfl, rfl⟩
  · exact ⟨rfl, rfl, rfl, rfl, rfl, rfl⟩

theorem removalAnswered_taken {owner : ℕ} (hown : s.activeRemovalOwner = some owner) (partly : Bool) :
    Taken s (.removal owner order epoch) snapshot order epoch
      (s.answered (.removal owner order epoch) (.snapshot snapshot partly)) := by
  have h := @confirm_arbiter s snapshot order epoch true
  have heq : s.answered (.removal owner order epoch) (.snapshot snapshot partly) =
      (if partly then (s.confirmAuthoritativeSnapshot snapshot order epoch true).invalidateCommandAuthority
        else s.confirmAuthoritativeSnapshot snapshot order epoch true).removalEnded owner := if_neg (not_not.2 hown)
  rw [heq]
  obtain ⟨hshown, howners, hseq, hauth, hepoch, hactive⟩ := removalEnded_keeps owner
    (s := if partly then (s.confirmAuthoritativeSnapshot snapshot order epoch true).invalidateCommandAuthority
      else s.confirmAuthoritativeSnapshot snapshot order epoch true)
  refine ⟨hshown.trans ?_, howners.trans ?_, hseq.trans ?_, fun ha => ?_, hepoch.ge.trans' ?_, hactive.trans ?_,
    fun hq => (hq _ _ _ rfl).elim⟩
  · cases partly with
    | false => rfl
    | true => rfl
  · cases partly with
    | false => rfl
    | true => rfl
  · cases partly with
    | false => exact congrArg Arbiter.mutationSequence h
    | true => exact congrArg Arbiter.mutationSequence h
  · rw [hauth] at ha
    cases partly with
    | false => exact ⟨ha, hepoch.trans (congrArg Arbiter.commandEpoch h)⟩
    | true => cases ha
  · cases partly with
    | false => exact (congrArg Arbiter.commandEpoch h).ge
    | true => exact (congrArg Arbiter.commandEpoch h).ge.trans (Nat.le_succ _)
  · cases partly with
    | false => exact congrArg (fun a : Arbiter => a.activeCommandMutations - 1) h
    | true => exact congrArg (fun a : Arbiter => a.activeCommandMutations - 1) h

/-- What the end of a flow that is no mutation changes. -/
theorem Dropped.of_read {s' : PluginStore} (hq : q.isMutation = false) (hset : ∀ id b g o, q ≠ .setEnabled id b g o)
    (hshown : s'.shown = s.shown) (hown : s'.mutationOwners = s.mutationOwners) (harb : s'.arbiter = s.arbiter)
    (hauth : s'.commandAuthorityConfirmed = s.commandAuthorityConfirmed) : Dropped s q s' where
  shown := hshown
  owners := by
    rw [hown]
    cases q with
    | setEnabled id b g o => exact (hset _ _ _ _ rfl).elim
    | _ => rfl
  sequence := congrArg Arbiter.mutationSequence harb
  authority h := ⟨hauth ▸ h, hq⟩
  epoch_le := (congrArg Arbiter.commandEpoch harb).ge
  epoch_lt h := by
    rw [hq] at h
    cases h
  active := by
    rw [hq]
    exact congrArg Arbiter.activeCommandMutations harb
  removing _ := ⟨congrArg Arbiter.removalStatus harb, congrArg Arbiter.activeRemovalOwner harb⟩

theorem loadAnswered_dropped (message : String) (known : Bool) :
    Dropped s (.load order epoch) (s.answered (.load order epoch) (.failed message known)) := by
  show Dropped s _ (s.loadAnswered order epoch (.error message))
  unfold PluginStore.loadAnswered
  dsimp only
  split_ifs
  · exact Dropped.of_read rfl nofun rfl rfl rfl rfl
  · exact Dropped.of_read rfl nofun rfl rfl rfl rfl
  · exact Dropped.of_read rfl nofun rfl rfl rfl rfl

theorem reloadAnswered_dropped (message : String) (known : Bool) :
    Dropped s (.reload order epoch) (s.answered (.reload order epoch) (.failed message known)) := by
  show Dropped s _ (s.reloadAnswered order epoch (.error message))
  unfold PluginStore.reloadAnswered
  dsimp only
  split_ifs
  · exact Dropped.of_read rfl nofun rfl rfl rfl rfl
  · exact Dropped.of_read rfl nofun rfl rfl rfl rfl

theorem prepareImportAnswered_dropped (owner : ℕ) (answer : Except String (Option ReadyLocalManifestImport)) :
    Dropped s (.prepareImport owner) (s.prepareImportAnswered owner answer) := by
  unfold PluginStore.prepareImportAnswered
  split_ifs
  · exact Dropped.of_read rfl nofun rfl rfl rfl rfl
  · rcases answer with _ | _ | _
    · exact Dropped.of_read rfl nofun rfl rfl rfl rfl
    · exact Dropped.of_read rfl nofun rfl rfl rfl rfl
    · exact Dropped.of_read rfl nofun rfl rfl rfl rfl

theorem commitImportAnswered_dropped (message : String) (known : Bool) :
    Dropped s (.commitImport order epoch) (s.answered (.commitImport order epoch) (.failed message known)) where
  shown := rfl
  owners := rfl
  sequence := rfl
  authority h := by cases h
  epoch_le := Nat.le_succ _
  epoch_lt _ := Nat.lt_succ_self _
  active := rfl
  removing _ := ⟨rfl, rfl⟩

theorem removalAnswered_dropped {owner : ℕ} (message : String) (known : Bool) :
    Dropped s (.removal owner order epoch) (s.answered (.removal owner order epoch) (.failed message known)) := by
  show Dropped s _ (PluginStore.removalEnded
    (if s.activeRemovalOwner ≠ some owner then s.invalidateCommandAuthority
      else { s.invalidateCommandAuthority with removalOutcomeUnknown := true }) owner)
  obtain ⟨hshown, howners, hseq, hauth, hepoch, hactive⟩ := removalEnded_keeps owner
    (s := if s.activeRemovalOwner ≠ some owner then s.invalidateCommandAuthority
      else { s.invalidateCommandAuthority with removalOutcomeUnknown := true })
  split_ifs at * with hown
  · exact {
      shown := hshown
      owners := howners
      sequence := hseq
      authority := fun h => by
        rw [hauth] at h
        cases h
      epoch_le := hepoch.ge.trans' (Nat.le_succ _)
      epoch_lt := fun _ => hepoch.ge.trans_lt' (Nat.lt_succ_self _)
      active := hactive
      removing := fun hq => (hq _ _ _ rfl).elim }
  · exact {
      shown := hshown
      owners := howners
      sequence := hseq
      authority := fun h => by
        rw [hauth] at h
        cases h
      epoch_le := hepoch.ge.trans' (Nat.le_succ _)
      epoch_lt := fun _ => hepoch.ge.trans_lt' (Nat.lt_succ_self _)
      active := hactive
      removing := fun hq => (hq _ _ _ rfl).elim }

/-- The call ends without a result: the answer failed, or it is not accepted. -/
theorem setEnabledAnswered_dropped {id : PluginId} {enabled : Bool} {generation owner : ℕ}
    {answer : Option PluginCatalogMutationResult}
    (h : ∀ result, answer = some result → s.acceptsResult id generation owner result = false) :
    Dropped s (.setEnabled id enabled generation owner) (s.setEnabledAnswered id generation owner answer).2 := by
  have heq : s.setEnabledAnswered id generation owner answer =
      (false, s.invalidateCommandAuthority.setEnabledEnded id owner) := by
    cases answer with
    | none => rfl
    | some result => exact if_neg (by rw [h result rfl]; exact Bool.false_ne_true)
  rw [heq]
  show Dropped s _ (s.invalidateCommandAuthority.setEnabledEnded id owner)
  unfold PluginStore.setEnabledEnded
  by_cases hown : s.mutationOwners id = some owner
  · rw [if_pos (by exact hown)]
    exact {
      shown := rfl
      owners := (if_pos hown).symm
      sequence := rfl
      authority := fun h => by cases h
      epoch_le := Nat.le_succ _
      epoch_lt := fun _ => Nat.lt_succ_self _
      active := rfl
      removing := fun _ => ⟨rfl, rfl⟩ }
  · rw [if_neg (by exact hown)]
    exact {
      shown := rfl
      owners := (if_neg hown).symm
      sequence := rfl
      authority := fun h => by cases h
      epoch_le := Nat.le_succ _
      epoch_lt := fun _ => Nat.lt_succ_self _
      active := rfl
      removing := fun _ => ⟨rfl, rfl⟩ }

/-- A result that is accepted is shown, and nothing else changes that decides on answers. -/
structure Confirmed (s : PluginStore) (id : PluginId) (result : PluginCatalogMutationResult) (s' : PluginStore) : Prop where
  shown : s'.shown = (s.showResult id result).shown
  owners : s'.mutationOwners = Function.update s.mutationOwners id none
  sequence : s'.mutationSequence = s.mutationSequence
  authority : s'.commandAuthorityConfirmed = s.commandAuthorityConfirmed
  epoch : s'.commandEpoch = s.commandEpoch
  active : s'.activeCommandMutations = s.activeCommandMutations - 1
  removing : s'.removalStatus = s.removalStatus ∧ s'.activeRemovalOwner = s.activeRemovalOwner

theorem setEnabledAnswered_confirmed {id : PluginId} {generation owner : ℕ} {result : PluginCatalogMutationResult}
    (h : s.acceptsResult id generation owner result = true) :
    Confirmed s id result (s.setEnabledAnswered id generation owner (some result)).2 := by
  have hown : s.mutationOwners id = some owner := (acceptsResult_iff.1 h).1
  have hshow : (s.showResult id result).arbiter = s.arbiter ∧ (s.showResult id result).mutationOwners = s.mutationOwners ∧
      (s.showResult id result).commandAuthorityConfirmed = s.commandAuthorityConfirmed := markOpen_arbiter
  have heq : s.setEnabledAnswered id generation owner (some result) =
      (true, (s.showResult id result).setEnabledEnded id owner) := if_pos h
  rw [heq]
  show Confirmed s id result ((s.showResult id result).setEnabledEnded id owner)
  unfold PluginStore.setEnabledEnded
  rw [if_pos (by rw [hshow.2.1]; exact hown)]
  exact {
    shown := rfl
    owners := congrArg (Function.update · id none) hshow.2.1
    sequence := congrArg Arbiter.mutationSequence hshow.1
    authority := hshow.2.2
    epoch := congrArg Arbiter.commandEpoch hshow.1
    active := congrArg (fun a : Arbiter => a.activeCommandMutations - 1) hshow.1
    removing := ⟨congrArg Arbiter.removalStatus hshow.1, congrArg Arbiter.activeRemovalOwner hshow.1⟩ }

end Answers

end EasiFlux.Plugin
