import EasiFlux.Proof.Incidents

/-!
# Completing the source event index

The index after a normalization is known in closed form (`Sound.normalize_eq`): the entries it had, less
those of the keys with an incomplete history; those of these keys in the order of their incidents;
and what else was missing.

* `Sound.mem_completed`, `Sound.nodup_completed`: nothing is lost and nothing is there twice.
* `Sound.rebuild_completed`: the open incidents are the same before and after.
* **`normalization_settles`**: all of this, and when a second normalization changes nothing. A key
  with a record that has no source event stays incomplete: its entries move to the end again.
-/

namespace EasiFlux

open SortOn

variable {file : NotificationFileV1} {k k' : IncidentKey} {c e : NotificationSourceEventIndexEntry}

/-! ## The entries that move -/

/-- The creation entries of a key, in the order in which they are appended. -/
def entriesOf (file : NotificationFileV1) (k : IncidentKey) : List NotificationSourceEventIndexEntry :=
  (creationOrder (edgesOf file k)).flatten.filterMap (entryOf file)

def reordered (file : NotificationFileV1) : List NotificationSourceEventIndexEntry :=
  (sortOn incidentKeySortKey (incomplete file)).flatMap (entriesOf file)

/-- The entries that are in neither part of the index. -/
def missing (file : NotificationFileV1) : List NotificationSourceEventIndexEntry :=
  (file.indexCandidates.filterMap creationOf).filter fun c => c ∉ file.sourceEventIndex ∧ c ∉ reordered file

theorem mem_entriesOf : c ∈ entriesOf file k ↔ ∃ edge ∈ edgesOf file k, entryOf file edge = some c := by
  unfold entriesOf
  rw [List.mem_filterMap]
  simp only [(creationOrder_perm (edgesOf file k)).mem_iff]

theorem mem_reordered : c ∈ reordered file ↔ ∃ edge ∈ bareEdges file, edge.key ∈ incomplete file ∧ entryOf file edge = some c := by
  unfold reordered
  rw [List.mem_flatMap]
  constructor
  · rintro ⟨k, hk, hc⟩
    obtain ⟨edge, hedge, hentry⟩ := mem_entriesOf.1 hc
    obtain ⟨hmem, rfl⟩ := mem_edgesOf.1 hedge
    exact ⟨edge, hmem, mem_sortOn.1 hk, hentry⟩
  · rintro ⟨edge, hmem, hk, hentry⟩
    exact ⟨edge.key, mem_sortOn.2 hk, mem_entriesOf.2 ⟨edge, mem_edgesOf.2 ⟨hmem, rfl⟩, hentry⟩⟩

theorem Sound.entry_mem (hs : Sound file) {edge : IncidentHistoryEdge} (h : entryOf file edge = some c) :
    c ∈ file.creationEntries := (hs.creationEntry.1 h).1

theorem Sound.entry_id (hs : Sound file) {edge : IncidentHistoryEdge} (h : entryOf file edge = some c) :
    c.notificationId = edge.recordId := (hs.creationEntry.1 h).2

theorem nodup_incomplete (file : NotificationFileV1) : (incomplete file).Nodup := List.nodup_dedup _

/-- Edges of some keys, in any order within each key. -/
theorem Sound.nodup_flatMap (hs : Sound file) {ks : List IncidentKey} (hks : ks.Nodup) :
    ((ks.flatMap fun k => (creationOrder (edgesOf file k)).flatten).map (·.recordId)).Nodup := by
  have hperm : (ks.flatMap fun k => (creationOrder (edgesOf file k)).flatten).Perm
      ((bareEdges file).filter fun e => e.key ∈ ks) :=
    (List.Perm.flatMap_left ks fun k _ => creationOrder_perm (edgesOf file k)).trans
      (perm_flatMap_filter IncidentHistoryEdge.key (bareEdges file) hks)
  exact (hperm.map _).nodup_iff.2 (hs.edge_ids.sublist (List.filter_sublist.map _))

theorem Sound.nodup_reordered (hs : Sound file) : (reordered file).Nodup := by
  have hids := List.pairwise_map.1 (hs.nodup_flatMap (nodup_sortOn incidentKeySortKey (nodup_incomplete file)))
  have heq : reordered file = ((sortOn incidentKeySortKey (incomplete file)).flatMap fun k =>
      (creationOrder (edgesOf file k)).flatten).filterMap (entryOf file) := by
    rw [List.filterMap_flatMap]
    rfl
  rw [heq]
  refine List.Pairwise.filterMap (entryOf file) (fun a b hne c hc d hd => ?_) hids
  rintro rfl
  exact hne ((hs.entry_id hc).symm.trans (hs.entry_id hd))

/-! ## The loops -/

/-- Records that are not done yet are appended one after another. -/
theorem append_new {entries : String → Option NotificationSourceEventIndexEntry} {edges : List IncidentHistoryEdge}
    {st : List String × List NotificationSourceEventIndexEntry} (hids : (edges.map (·.recordId)).Nodup)
    (hnew : ∀ edge ∈ edges, edge.recordId ∉ st.1) :
    (appendIncidentCreationEntries edges entries st).2 = st.2 ++ edges.filterMap fun edge => entries edge.recordId := by
  unfold appendIncidentCreationEntries
  induction edges generalizing st with
  | nil => simp
  | cons edge edges ih =>
    obtain ⟨hnot, hids⟩ := List.nodup_cons.1 hids
    rw [List.foldl_cons, if_neg (hnew edge List.mem_cons_self), ih hids]
    · cases hentry : entries edge.recordId with
      | none => simp [hentry]
      | some c => simp [hentry]
    · intro edge' hedge' hdone
      rcases List.mem_cons.1 hdone with heq | hdone
      · exact hnot (List.mem_map.2 ⟨edge', hedge', heq⟩)
      · exact hnew edge' (List.mem_cons_of_mem _ hedge') hdone

theorem missingEntries_eq {indexed : List (NotificationScope × String)} {candidates : List (NotificationScope × NotificationRecord)}
    (h : ((candidates.filterMap creationOf).map (·.source)).Nodup) :
    NotificationFileV1.missingEntries indexed candidates =
      (candidates.filterMap creationOf).filter fun c => c.source ∉ indexed := by
  induction candidates generalizing indexed with
  | nil => rfl
  | cons sr candidates ih =>
    obtain ⟨scope, record⟩ := sr
    unfold NotificationFileV1.missingEntries
    cases hsource : record.sourceEventId with
    | none =>
      have hnone : creationOf (scope, record) = none := by simp [creationOf, hsource]
      rw [List.filterMap_cons_none hnone] at h ⊢
      exact ih h
    | some source =>
      have hsome : creationOf (scope, record) = some ⟨scope, source, record.id⟩ := by simp [creationOf, hsource]
      rw [List.filterMap_cons_some hsome] at h ⊢
      obtain ⟨hnot, h⟩ := List.nodup_cons.1 h
      dsimp only
      generalize hc : (⟨scope, source, record.id⟩ : NotificationSourceEventIndexEntry) = c at hnot ⊢
      have hcs : (scope, source) = c.source := by rw [← hc]; rfl
      rw [hcs]
      by_cases hin : c.source ∈ indexed
      · rw [if_pos hin, List.filter_cons_of_neg (by simpa using hin), ih h]
      · rw [if_neg hin, List.filter_cons_of_pos (by simpa using hin), ih h]
        -- the source that is indexed now is not met again
        congr 1
        refine List.filter_congr fun d hd => ?_
        have hne : d.source ≠ c.source := fun heq => hnot (List.mem_map.2 ⟨d, hd, heq⟩)
        simp [hne]

/-! ## The closed form -/

/-- An entry moves if it is the creation entry of a record of such a key. -/
theorem Sound.mem_reordered_iff (hs : Sound file) : e ∈ reordered file ↔
    e.notificationId ∈ ((bareEdges file).filter fun edge => edge.key ∈ incomplete file).map (·.recordId) ∧
      file.creationEntry e.notificationId = some e := by
  rw [mem_reordered]
  constructor
  · rintro ⟨edge, hmem, hk, hentry⟩
    rw [hs.entry_id hentry]
    exact ⟨List.mem_map.2 ⟨edge, List.mem_filter.2 ⟨hmem, by simpa using hk⟩, rfl⟩, hentry⟩
  · rintro ⟨hid, hentry⟩
    obtain ⟨edge, hedge, hid⟩ := List.mem_map.1 hid
    obtain ⟨hmem, hk⟩ := List.mem_filter.1 hedge
    refine ⟨edge, hmem, by simpa using hk, ?_⟩
    unfold entryOf
    rw [hid, hentry]

theorem Sound.canonicalize (hs : Sound file) : file.canonicalizePartialIncidentCreationOrder =
    { file with sourceEventIndex := file.sourceEventIndex.filter (fun e => e ∉ reordered file) ++ reordered file } := by
  unfold NotificationFileV1.canonicalizePartialIncidentCreationOrder
  simp only [hs.fallbackKeys_eq]
  by_cases hnone : incomplete file = []
  · have hreordered : reordered file = [] := by simp [reordered, hnone]
    rw [if_pos hnone, hreordered]
    simp
  rw [if_neg hnone]
  have hids : ((file.incidentEdges.filter fun edge => (incomplete file).contains edge.key).map (·.recordId)) =
      ((bareEdges file).filter fun edge => edge.key ∈ incomplete file).map (·.recordId) := by
    rw [incidentEdges_eq, List.filter_map, List.map_map]
    refine congrArg (List.map _) (List.filter_congr fun edge _ => ?_)
    rw [← List.elem_eq_mem]
    rfl
  have hkept : (file.sourceEventIndex.filter fun entry =>
      !((file.incidentEdges.filter fun edge => (incomplete file).contains edge.key).map (·.recordId)).contains entry.notificationId ||
        (file.creationEntry entry.notificationId).all fun creation =>
          decide (entry.scope ≠ creation.scope) || decide (entry.sourceEventId ≠ creation.sourceEventId)) =
      file.sourceEventIndex.filter fun e => e ∉ reordered file := by
    refine List.filter_congr fun e _ => ?_
    rw [hids, Bool.eq_iff_iff, decide_eq_true_iff, hs.mem_reordered_iff, not_and_or, Bool.or_eq_true, Bool.not_eq_true',
      List.contains_eq_mem, decide_eq_false_iff_not]
    refine or_congr_right ?_
    cases hentry : file.creationEntry e.notificationId with
    | none => simp
    | some creation =>
      have hid := (hs.creationEntry.1 hentry).2
      obtain ⟨scope, source, id⟩ := e
      obtain ⟨scope', source', id'⟩ := creation
      obtain rfl : id' = id := hid
      simp only [Option.all_some, Bool.or_eq_true, decide_eq_true_eq, Option.some.injEq,
        NotificationSourceEventIndexEntry.mk.injEq, and_true, ← not_and_or]
      exact not_congr (and_congr eq_comm eq_comm)
  rw [hkept]
  -- the groups of all keys are appended as one list
  have hgroups : ∀ (groups : List (List IncidentHistoryEdge)) (st : List String × List NotificationSourceEventIndexEntry),
      groups.foldl (fun st edges => appendIncidentCreationEntries edges file.creationEntry st) st =
        appendIncidentCreationEntries groups.flatten file.creationEntry st := fun groups st => List.foldl_flatten.symm
  have hflat : ((sortOn incidentKeySortKey (incomplete file)).flatMap fun key =>
      creationOrder (file.incidentEdges.filter fun edge => edge.key = key)).flatten =
      ((sortOn incidentKeySortKey (incomplete file)).flatMap fun k => (creationOrder (edgesOf file k)).flatten).map
        (placed file.incidentCreationPosition) := by
    simp only [filter_incidentEdges, creationOrder_placed]
    rw [List.map_flatMap]
    generalize sortOn incidentKeySortKey (incomplete file) = ks
    induction ks with
    | nil => rfl
    | cons k ks ih =>
      rw [List.flatMap_cons, List.flatten_append, ih, List.flatMap_cons, List.map_flatten]
  rw [hgroups, hflat, append_new]
  · congr 1
    rw [List.filterMap_map, reordered, List.filterMap_flatMap]
    rfl
  · rw [List.map_map]
    exact hs.nodup_flatMap (nodup_sortOn incidentKeySortKey (nodup_incomplete file))
  · simp

/-- The file with its index completed. -/
def completed (file : NotificationFileV1) : NotificationFileV1 :=
  { file with
    sourceEventIndex := file.sourceEventIndex.filter (fun e => e ∉ reordered file) ++ reordered file ++ missing file }

theorem candidates_perm (file : NotificationFileV1) : (file.indexCandidates.filterMap creationOf).Perm file.creationEntries := by
  have hperm := (perm_sortOn (fun sr : NotificationScope × NotificationRecord =>
    toLex (sr.2.createdAtMs, toLex (incidentEdgePriority sr.2.kind, toLex (sr.2.id, scopeSortKey sr.1))))
    (file.records.filter (·.2.sourceEventId.isSome))).filterMap creationOf
  have heq : (file.records.filter (·.2.sourceEventId.isSome)).filterMap creationOf = file.creationEntries := by
    rw [List.filterMap_filter]
    refine List.filterMap_congr fun sr _ => ?_
    cases hsource : sr.2.sourceEventId <;> simp [creationOf, hsource]
  rw [heq] at hperm
  exact hperm

theorem mem_missing : c ∈ missing file ↔ c ∈ file.creationEntries ∧ c ∉ file.sourceEventIndex ∧ c ∉ reordered file := by
  unfold missing
  rw [List.mem_filter, (candidates_perm file).mem_iff, decide_eq_true_eq]

theorem Sound.reordered_subset (hs : Sound file) (h : c ∈ reordered file) : c ∈ file.creationEntries :=
  (hs.creationEntry.1 (hs.mem_reordered_iff.1 h).2).1

/-- A source that created a record has one entry. -/
theorem Sound.source_unique (hs : Sound file) (hc : c ∈ file.creationEntries)
    (he : e ∈ file.sourceEventIndex ∨ e ∈ file.creationEntries) (h : c.source = e.source) : c = e := by
  rcases he with he | he
  · exact hs.creating e he c hc h
  · exact List.inj_on_of_nodup_map hs.sources hc he h

theorem Sound.normalize_eq (hs : Sound file) : file.normalizeSourceEventIndex =
    (completed file, sourceIndexMutationSince file.sourceEventIndex (completed file).sourceEventIndex) := by
  have hnodup : ((file.indexCandidates.filterMap creationOf).map (·.source)).Nodup :=
    ((candidates_perm file).map _).nodup_iff.2 hs.sources
  have hmissing : NotificationFileV1.missingEntries
      ((file.sourceEventIndex.filter (fun e => e ∉ reordered file) ++ reordered file).map fun entry =>
        (entry.scope, entry.sourceEventId)) file.indexCandidates = missing file := by
    rw [missingEntries_eq hnodup]
    refine List.filter_congr fun c hc => decide_eq_decide.2 ?_
    have hmem : c ∈ file.creationEntries := (candidates_perm file).mem_iff.1 hc
    rw [← not_or, not_iff_not, List.mem_map]
    constructor
    · rintro ⟨e, he, hsource⟩
      have he' : e ∈ file.sourceEventIndex ∨ e ∈ reordered file :=
        (List.mem_append.1 he).imp_left fun h => List.mem_of_mem_filter h
      obtain rfl := hs.source_unique hmem (he'.imp_right hs.reordered_subset) hsource.symm
      exact he'
    · intro h
      refine ⟨c, ?_, rfl⟩
      by_cases hr : c ∈ reordered file
      · exact List.mem_append_right _ hr
      · exact List.mem_append_left _ (List.mem_filter.2 ⟨h.resolve_right hr, by simpa using hr⟩)
  unfold NotificationFileV1.normalizeSourceEventIndex
  dsimp only
  rw [hs.canonicalize]
  have hcandidates : ∀ index, NotificationFileV1.indexCandidates { file with sourceEventIndex := index } =
      file.indexCandidates := fun _ => rfl
  simp only [hcandidates, hmissing]
  rfl

/-! ## What the index contains -/

theorem Sound.mem_completed (hs : Sound file) :
    e ∈ (completed file).sourceEventIndex ↔ e ∈ file.sourceEventIndex ∨ e ∈ file.creationEntries := by
  show e ∈ _ ++ _ ++ _ ↔ _
  rw [List.mem_append, List.mem_append, List.mem_filter, decide_eq_true_eq, mem_missing]
  have hsub : e ∈ reordered file → e ∈ file.creationEntries := hs.reordered_subset
  tauto

theorem Sound.nodup_completed (hs : Sound file) : (completed file).sourceEventIndex.Nodup := by
  have hmissing : (missing file).Nodup := ((candidates_perm file).nodup_iff.2 hs.sources.of_map).filter _
  refine List.Nodup.append (List.Nodup.append (hs.nodup_index.filter _) hs.nodup_reordered ?_) hmissing ?_
  · intro e he hr
    simpa [hr] using (List.mem_filter.1 he).2
  · intro e he hm
    obtain ⟨-, hindex, hr⟩ := mem_missing.1 hm
    rcases List.mem_append.1 he with he | he
    · exact hindex (List.mem_of_mem_filter he)
    · exact hr he

/-- Each source is there once. -/
theorem Sound.nodup_sources (hs : Sound file) : ((completed file).sourceEventIndex.map (·.source)).Nodup := by
  refine List.Nodup.map_on (fun e he d hd h => ?_) hs.nodup_completed
  rcases hs.mem_completed.1 he with hindex | hcreated
  · rcases hs.mem_completed.1 hd with hindex' | hcreated'
    · exact List.inj_on_of_nodup_map hs.index hindex hindex' h
    · exact (hs.source_unique hcreated' (Or.inl hindex) h.symm).symm
  · exact hs.source_unique hcreated (hs.mem_completed.1 hd) h

theorem Sound.sound_completed (hs : Sound file) : Sound (completed file) :=
  ⟨hs.ids, hs.scopes, hs.sources, hs.nodup_sources, fun _ he _ hc h => hs.source_unique hc (hs.mem_completed.1 he) h⟩

/-! ## The open incidents -/

/-- Only a record without a source event leaves a history incomplete. -/
theorem Sound.mem_incomplete_completed (hs : Sound file) :
    k ∈ incomplete (completed file) ↔ ∃ edge ∈ edgesOf file k, entryOf file edge = none := by
  rw [mem_incomplete]
  have hlisted : ∀ edge, listed (completed file) edge = (entryOf file edge).isSome := by
    intro edge
    show (file.creationEntry edge.recordId).any _ = (file.creationEntry edge.recordId).isSome
    cases hentry : file.creationEntry edge.recordId with
    | none => rfl
    | some c => simpa using hs.mem_completed.2 (Or.inr (hs.entry_mem hentry))
  constructor
  · rintro ⟨edge, hmem, hk, hl⟩
    rw [hlisted] at hl
    exact ⟨edge, mem_edgesOf.2 ⟨hmem, hk⟩, by simpa using hl⟩
  · rintro ⟨edge, hedge, hentry⟩
    obtain ⟨hmem, hk⟩ := mem_edgesOf.1 hedge
    exact ⟨edge, hmem, hk, by rw [hlisted, hentry]; rfl⟩

theorem Sound.incomplete_of_completed (hs : Sound file) (hk : k ∈ incomplete (completed file)) :
    k ∈ incomplete file := by
  obtain ⟨edge, hedge, hentry⟩ := hs.mem_incomplete_completed.1 hk
  obtain ⟨hmem, hk⟩ := mem_edgesOf.1 hedge
  refine mem_incomplete.2 ⟨edge, hmem, hk, ?_⟩
  unfold listed
  rw [show file.creationEntry edge.recordId = none from hentry, Option.any_none]

theorem reordered_sublist (file : NotificationFileV1) : (reordered file).Sublist (completed file).sourceEventIndex :=
  (List.sublist_append_right _ _).trans (List.sublist_append_left _ _)

theorem entriesOf_sublist (hk : k ∈ incomplete file) : (entriesOf file k).Sublist (reordered file) :=
  List.sublist_flatten_of_mem (List.mem_map.2 ⟨k, mem_sortOn.2 hk, rfl⟩)

/-- The open incidents are those before. -/
theorem Sound.rebuild_completed (hs : Sound file) :
    rebuildActiveIncidents (completed file) = rebuildActiveIncidents file := by
  funext k
  by_cases hk : k ∈ incomplete file
  · rw [hs.rebuild_incomplete hk]
    by_cases hk' : k ∈ incomplete (completed file)
    · exact hs.sound_completed.rebuild_incomplete hk'
    · -- the history is complete now, in the order of creation
      rw [hs.sound_completed.rebuild_complete hk' (creationOrder_perm (edgesOf file k))
        ((entriesOf_sublist hk).trans (reordered_sublist file))]
      exact activeOf_creationOrder (hs.separates_edgesOf k)
  · -- the entries of the key are where they were, among fewer others
    have hk' : k ∉ incomplete (completed file) := fun h => hk (hs.incomplete_of_completed h)
    obtain ⟨l, hperm, hsub⟩ := hs.exists_order hk
    rw [hs.rebuild_complete hk hperm hsub]
    refine hs.sound_completed.rebuild_complete hk' hperm ?_
    have hstay : (l.filterMap (entryOf file)).filter (fun e => e ∉ reordered file) = l.filterMap (entryOf file) := by
      refine List.filter_eq_self.2 fun e he => ?_
      obtain ⟨edge, hedge, hentry⟩ := List.mem_filterMap.1 he
      simp only [decide_not, Bool.not_eq_true', decide_eq_false_iff_not]
      intro hr
      obtain ⟨edge', hmem', hin, hentry'⟩ := mem_reordered.1 hr
      obtain ⟨hmem, hkey⟩ := mem_edgesOf.1 (hperm.mem_iff.1 hedge)
      obtain rfl := hs.edge_unique hmem hmem' ((hs.entry_id hentry).symm.trans (hs.entry_id hentry'))
      exact hk (hkey ▸ hin)
    show (l.filterMap (entryOf file)).Sublist _
    rw [← hstay]
    exact ((hsub.filter _).trans (List.sublist_append_left _ _)).trans (List.sublist_append_left _ _)

/-! ## A second time -/

/-- The key of the incident a record is about. -/
def incidentKeyOfRecord (sr : NotificationScope × NotificationRecord) : Option IncidentKey :=
  (incidentHistoryEdge sr.2 none).map (·.key)

def Sourceless (file : NotificationFileV1) (k : IncidentKey) : Prop :=
  ∃ sr ∈ file.records, incidentKeyOfRecord sr = some k ∧ creationOf sr = none

def Sourced (file : NotificationFileV1) (k : IncidentKey) : Prop :=
  ∃ sr ∈ file.records, incidentKeyOfRecord sr = some k ∧ creationOf sr ≠ none

/-- The record's source event is not in the index. -/
def Unindexed (file : NotificationFileV1) (sr : NotificationScope × NotificationRecord) : Prop :=
  ∃ c, creationOf sr = some c ∧ c ∉ file.sourceEventIndex

/-- No key has records with and without a source event; or only records of incidents are missing from
the index, and a key that becomes complete sorts before each key with both. -/
def SettlesAtOnce (file : NotificationFileV1) : Prop :=
  (∀ k, Sourceless file k → ¬Sourced file k) ∨
    (∀ sr ∈ file.records, Unindexed file sr → incidentKeyOfRecord sr ≠ none) ∧
      ∀ k k', Sourceless file k → Sourced file k → ¬Sourceless file k' →
        (∃ sr ∈ file.records, incidentKeyOfRecord sr = some k' ∧ Unindexed file sr) →
          incidentKeySortKey k' < incidentKeySortKey k

section Records

variable {sr : NotificationScope × NotificationRecord}

theorem exists_edge_iff {P : IncidentHistoryEdge → Prop} : (∃ edge ∈ edgesOf file k, P edge) ↔
    ∃ sr ∈ file.records, ∃ edge, incidentHistoryEdge sr.2 none = some edge ∧ edge.key = k ∧ P edge := by
  constructor
  · rintro ⟨edge, hedge, hP⟩
    obtain ⟨hmem, hk⟩ := mem_edgesOf.1 hedge
    obtain ⟨sr, hsr, he⟩ := List.mem_filterMap.1 hmem
    exact ⟨sr, hsr, edge, he, hk, hP⟩
  · rintro ⟨sr, hsr, edge, he, hk, hP⟩
    exact ⟨edge, mem_edgesOf.2 ⟨List.mem_filterMap.2 ⟨sr, hsr, he⟩, hk⟩, hP⟩

theorem Sound.entry_of_record (hs : Sound file) (hsr : sr ∈ file.records) {edge : IncidentHistoryEdge}
    (h : incidentHistoryEdge sr.2 none = some edge) : entryOf file edge = creationOf sr := by
  unfold entryOf
  rw [recordId_of_edge h]
  cases hc : creationOf sr with
  | some c => exact hs.creationEntry.2 ⟨List.mem_filterMap.2 ⟨sr, hsr, hc⟩, (creationOf_eq_some.1 hc).2.2.symm⟩
  | none =>
    by_contra hne
    obtain ⟨c, hc'⟩ := Option.ne_none_iff_exists'.1 hne
    obtain ⟨hmem, hid⟩ := hs.creationEntry.1 hc'
    obtain ⟨sr', hsr', hcreate⟩ := List.mem_filterMap.1 hmem
    obtain rfl := hs.record_unique hsr hsr' (hid.symm.trans (creationOf_eq_some.1 hcreate).2.2.symm)
    cases hc.symm.trans hcreate

/-- An edge of a key is a record of the key. -/
theorem Sound.exists_record_iff (hs : Sound file) {P : Option NotificationSourceEventIndexEntry → Prop} :
    (∃ edge ∈ edgesOf file k, P (entryOf file edge)) ↔
      ∃ sr ∈ file.records, incidentKeyOfRecord sr = some k ∧ P (creationOf sr) := by
  rw [exists_edge_iff]
  refine exists_congr fun sr => and_congr_right fun hsr => ?_
  constructor
  · rintro ⟨edge, he, hk, hP⟩
    rw [hs.entry_of_record hsr he] at hP
    exact ⟨by simp [incidentKeyOfRecord, he, hk], hP⟩
  · rintro ⟨hkey, hP⟩
    obtain ⟨edge, he, hk⟩ := Option.map_eq_some_iff.1 hkey
    exact ⟨edge, he, hk, by rwa [hs.entry_of_record hsr he]⟩

end Records

theorem Sound.sourceless_iff (hs : Sound file) : k ∈ incomplete (completed file) ↔ Sourceless file k :=
  hs.mem_incomplete_completed.trans (hs.exists_record_iff (P := (· = none)))

theorem Sound.sourced_iff (hs : Sound file) : entriesOf file k ≠ [] ↔ Sourced file k := by
  refine Iff.trans ?_ (hs.exists_record_iff (P := (· ≠ none)))
  constructor
  · intro h
    obtain ⟨c, hc⟩ := List.exists_mem_of_ne_nil _ h
    obtain ⟨edge, hedge, hentry⟩ := mem_entriesOf.1 hc
    exact ⟨edge, hedge, by simp [hentry]⟩
  · rintro ⟨edge, hedge, hentry⟩
    obtain ⟨c, hc⟩ := Option.ne_none_iff_exists'.1 hentry
    exact List.ne_nil_of_mem (mem_entriesOf.2 ⟨edge, hedge, hc⟩)

theorem incidentKeySortKey_injective : Function.Injective incidentKeySortKey := by
  intro k k' h
  cases k with
  | connection account channel =>
    cases k' with
    | connection account' channel' => cases channel <;> cases channel' <;> simp_all [incidentKeySortKey, channelTag]
    | environment account' environment' => simp [incidentKeySortKey] at h
  | environment account environment =>
    cases k' with
    | connection account' channel' => simp [incidentKeySortKey] at h
    | environment account' environment' => simp_all [incidentKeySortKey]

/-- The keys in their order, each once. -/
theorem strict_incomplete (file : NotificationFileV1) :
    (sortOn incidentKeySortKey (incomplete file)).Pairwise fun k k' => incidentKeySortKey k < incidentKeySortKey k' := by
  have hnodup := nodup_sortOn incidentKeySortKey (nodup_incomplete file)
  exact ((pairwise_sortOn incidentKeySortKey (incomplete file)).and hnodup).imp fun h =>
    lt_of_le_of_ne h.1 fun heq => h.2 (incidentKeySortKey_injective heq)

/-- What moves again: the entries of the keys that stay incomplete. -/
theorem Sound.reordered_completed (hs : Sound file) : reordered (completed file) =
    ((sortOn incidentKeySortKey (incomplete file)).filter fun k => k ∈ incomplete (completed file)).flatMap
      (entriesOf file) := by
  have hsep : Separates incidentKeySortKey (incomplete file) := fun _ _ _ _ h => incidentKeySortKey_injective h
  have hperm : ((incomplete file).filter fun k => k ∈ incomplete (completed file)).Perm
      (incomplete (completed file)) := by
    refine (List.perm_ext_iff_of_nodup ((nodup_incomplete file).filter _) (nodup_incomplete _)).2 fun k => ?_
    rw [List.mem_filter, decide_eq_true_eq]
    exact and_iff_right_of_imp hs.incomplete_of_completed
  rw [filter_sortOn hsep, sortOn_eq_of_perm (hsep.sublist List.filter_sublist) hperm]
  rfl

theorem Sound.missing_completed (hs : Sound file) : missing (completed file) = [] := by
  refine List.eq_nil_iff_forall_not_mem.2 fun c hc => ?_
  obtain ⟨hmem, hindex, -⟩ := mem_missing.1 hc
  exact hindex (hs.mem_completed.2 (Or.inr hmem))

/-- Nothing changes a second time if what moves again is the end of the index. -/
theorem Sound.completed_twice (hs : Sound file) : completed (completed file) = completed file ↔
    reordered (completed file) <:+ (completed file).sourceEventIndex := by
  rw [← filter_append_eq_iff hs.nodup_completed]
  have htwice : completed (completed file) = { completed file with
      sourceEventIndex := (completed file).sourceEventIndex.filter (fun e => e ∉ reordered (completed file)) ++
        reordered (completed file) } := by
    rw [← List.append_nil (_ ++ reordered (completed file)), ← hs.missing_completed]
    rfl
  rw [htwice]
  constructor
  · intro h
    exact congrArg NotificationFileV1.sourceEventIndex h
  · intro h
    rw [h]

theorem index_of_missing_nil (h : missing file = []) : (completed file).sourceEventIndex =
    file.sourceEventIndex.filter (fun e => e ∉ reordered file) ++ reordered file := by
  show _ ++ _ ++ missing file = _
  rw [h, List.append_nil]

/-- It is the end if there is nothing of it, or if only its keys' entries come last. -/
theorem Sound.suffix_iff (hs : Sound file) :
    reordered (completed file) <:+ (completed file).sourceEventIndex ↔
      reordered (completed file) = [] ∨
        missing file = [] ∧ reordered (completed file) <:+ reordered file := by
  have hsub : (reordered (completed file)).Sublist (reordered file) := by
    rw [hs.reordered_completed]
    exact filter_flatMap_sublist _ _ _
  constructor
  · intro h
    by_cases hnil : reordered (completed file) = []
    · exact Or.inl hnil
    · -- the last entry of the index is one of these, and not one that was missing
      have hmissing : missing file = [] := by
        by_contra hne
        have hlast : (missing file).getLast hne = (reordered (completed file)).getLast hnil := by
          have hsuffix : missing file <:+ (completed file).sourceEventIndex := List.suffix_append _ _
          rw [h.getLast hnil, hsuffix.getLast hne]
        have hmem := List.getLast_mem hne
        rw [hlast] at hmem
        exact (mem_missing.1 hmem).2.2 (hsub.subset (List.getLast_mem hnil))
      refine Or.inr ⟨hmissing, ?_⟩
      rw [index_of_missing_nil hmissing] at h
      exact List.suffix_of_suffix_length_le h (List.suffix_append _ _) hsub.length_le
  · rintro (hnil | ⟨hmissing, h⟩)
    · rw [hnil]
      exact List.nil_suffix
    · rw [index_of_missing_nil hmissing]
      exact h.trans (List.suffix_append _ _)

theorem Sound.missing_nil_iff (hs : Sound file) :
    missing file = [] ↔ ∀ sr ∈ file.records, Unindexed file sr → incidentKeyOfRecord sr ≠ none := by
  rw [List.eq_nil_iff_forall_not_mem]
  constructor
  · rintro h sr hsr ⟨c, hc, hindex⟩ hkey
    refine h c (mem_missing.2 ⟨List.mem_filterMap.2 ⟨sr, hsr, hc⟩, hindex, fun hr => ?_⟩)
    obtain ⟨edge, hmem, -, hentry⟩ := mem_reordered.1 hr
    obtain ⟨sr', hsr', hedge⟩ := List.mem_filterMap.1 hmem
    rw [hs.entry_of_record hsr' hedge] at hentry
    obtain rfl := hs.record_unique hsr hsr' ((creationOf_eq_some.1 hc).2.2.trans (creationOf_eq_some.1 hentry).2.2.symm)
    simp [incidentKeyOfRecord, hedge] at hkey
  · intro h c hc
    obtain ⟨hmem, hindex, hr⟩ := mem_missing.1 hc
    obtain ⟨sr, hsr, hcreate⟩ := List.mem_filterMap.1 hmem
    obtain ⟨k, hk⟩ := Option.ne_none_iff_exists'.1 (h sr hsr ⟨c, hcreate, hindex⟩)
    obtain ⟨edge, hedge, -⟩ := Option.map_eq_some_iff.1 hk
    have hentry := hs.entry_of_record hsr hedge
    -- the record is not in the index, so its key is one of an incomplete history
    have hl : listed file edge = false := by
      unfold listed
      rw [show file.creationEntry edge.recordId = some c from hentry.trans hcreate]
      simpa using hindex
    have hedge' : edge ∈ bareEdges file := List.mem_filterMap.2 ⟨sr, hsr, hedge⟩
    exact hr (mem_reordered.2 ⟨edge, hedge', mem_incomplete.2 ⟨edge, hedge', rfl, hl⟩, hentry.trans hcreate⟩)

/-- A key without records that lack a source event is incomplete when one is not indexed. -/
theorem Sound.mem_incomplete_iff (hs : Sound file) (hk : ¬Sourceless file k) :
    k ∈ incomplete file ↔ ∃ sr ∈ file.records, incidentKeyOfRecord sr = some k ∧ Unindexed file sr := by
  have hexists := hs.exists_record_iff (k := k) (P := fun entry => ∃ c, entry = some c ∧ c ∉ file.sourceEventIndex)
  unfold Unindexed
  rw [← hexists, mem_incomplete]
  constructor
  · rintro ⟨edge, hmem, hkey, hl⟩
    have hedge := mem_edgesOf.2 ⟨hmem, hkey⟩
    cases hentry : entryOf file edge with
    | none => exact absurd (hs.sourceless_iff.1 (hs.mem_incomplete_completed.2 ⟨edge, hedge, hentry⟩)) hk
    | some c =>
      refine ⟨edge, hedge, c, hentry, fun hin => ?_⟩
      have hl' : listed file edge = true := by
        unfold listed
        rw [show file.creationEntry edge.recordId = some c from hentry]
        simpa using hin
      rw [hl'] at hl
      cases hl
  · rintro ⟨edge, hedge, c, hentry, hindex⟩
    obtain ⟨hmem, hkey⟩ := mem_edgesOf.1 hedge
    refine ⟨edge, hmem, hkey, ?_⟩
    unfold listed
    rw [show file.creationEntry edge.recordId = some c from hentry]
    simpa using hindex

/-- The last keys are those that stay incomplete. -/
theorem Sound.keys_last_iff (hs : Sound file) : reordered (completed file) <:+ reordered file ↔
    ∀ k k', Sourceless file k → Sourced file k → ¬Sourceless file k' →
      (∃ sr ∈ file.records, incidentKeyOfRecord sr = some k' ∧ Unindexed file sr) →
        incidentKeySortKey k' < incidentKeySortKey k := by
  rw [hs.reordered_completed]
  have hnodup : ((sortOn incidentKeySortKey (incomplete file)).flatMap (entriesOf file)).Nodup := hs.nodup_reordered
  rw [show reordered file = (sortOn incidentKeySortKey (incomplete file)).flatMap (entriesOf file) from rfl,
    filter_flatMap_suffix_iff hnodup, pairwise_iff_of_strict (strict_incomplete file)]
  simp only [decide_eq_true_eq, decide_eq_false_iff_not, mem_sortOn, hs.sourceless_iff]
  constructor
  · intro h k k' hk hsourced hk' hun
    have hin : k ∈ incomplete file := hs.incomplete_of_completed (hs.sourceless_iff.2 hk)
    have hin' : k' ∈ incomplete file := (hs.mem_incomplete_iff hk').2 hun
    by_contra hlt
    have hne : incidentKeySortKey k ≠ incidentKeySortKey k' := fun heq => hk' (incidentKeySortKey_injective heq ▸ hk)
    have hnil := h k hin k' hin' (lt_of_le_of_ne (not_lt.1 hlt) hne) hk hk' (hs.sourced_iff.2 hsourced)
    -- the record that is not indexed has a source event
    obtain ⟨sr, hsr, hkey, c, hc, -⟩ := hun
    exact hs.sourced_iff.2 ⟨sr, hsr, hkey, by simp [hc]⟩ hnil
  · intro h k hin k' hin' hlt hk hk' hne
    exact absurd (h k k' hk (hs.sourced_iff.1 hne) hk' ((hs.mem_incomplete_iff hk').1 hin')) hlt.asymm

theorem Sound.reordered_nil_iff (hs : Sound file) :
    reordered (completed file) = [] ↔ ∀ k, Sourceless file k → ¬Sourced file k := by
  rw [hs.reordered_completed, List.flatMap_eq_nil_iff]
  constructor
  · intro h k hk hsourced
    have hin := hs.sourceless_iff.2 hk
    exact hs.sourced_iff.2 hsourced (h k (List.mem_filter.2 ⟨mem_sortOn.2 (hs.incomplete_of_completed hin), by simpa using hin⟩))
  · intro h k hk
    have hin : k ∈ incomplete (completed file) := by simpa using (List.mem_filter.1 hk).2
    by_contra hne
    exact h k (hs.sourceless_iff.1 hin) (hs.sourced_iff.1 hne)

theorem Sound.settles_iff (hs : Sound file) : completed (completed file) = completed file ↔ SettlesAtOnce file := by
  rw [hs.completed_twice, hs.suffix_iff, hs.reordered_nil_iff, hs.missing_nil_iff, hs.keys_last_iff]
  rfl

/-- **A normalization keeps the partitions, every index entry and the open incidents, and indexes every
source event once. A second one changes nothing exactly if the file settles.** -/
theorem normalization_settles (file : NotificationFileV1) (h : file.validateFile = true) :
    let after := file.normalizeSourceEventIndex.1
    (after.schemaVersion = file.schemaVersion ∧ after.revision = file.revision ∧ after.partitions = file.partitions) ∧
      (∀ e, e ∈ after.sourceEventIndex ↔ e ∈ file.sourceEventIndex ∨ e ∈ file.creationEntries) ∧
      (after.sourceEventIndex.map fun e => (e.scope, e.sourceEventId)).Nodup ∧
      rebuildActiveIncidents after = rebuildActiveIncidents file ∧
      (after.normalizeSourceEventIndex = (after, .default) ↔ SettlesAtOnce file) := by
  have hs := sound_of_validateFile h
  dsimp only
  rw [hs.normalize_eq]
  refine ⟨⟨rfl, rfl, rfl⟩, fun e => hs.mem_completed, hs.nodup_sources, hs.rebuild_completed, ?_⟩
  rw [← hs.settles_iff, hs.sound_completed.normalize_eq]
  constructor
  · intro h
    exact congrArg Prod.fst h
  · intro h
    rw [h]
    simp [sourceIndexMutationSince]

/-! ## A file that does not settle -/

/-- A record of one account. -/
def storedRecord (id : String) (kind : NotificationKind) (content : NotificationContent) (source : Option String)
    (atMs : ℕ) : NotificationRecord where
  id := id
  scope := .account "alpha"
  category := .connectionSystem
  kind := kind
  severity := .warning
  content := content
  entity := none
  action := none
  sourceEventId := source
  dedupeKey := "connection:api:outage"
  occurrenceCount := 1
  createdAtMs := atMs
  updatedAtMs := atMs
  readAtMs := none

def outageContent : NotificationContent :=
  ⟨"connection.unavailable", [("channel", .string "api")], "连接不可用", "交易连接暂时不可用，请检查网络或稍后重试。"⟩

/-- Two outages of one channel, the first without a source event, and a session that has expired, whose
source event is not indexed. -/
def partlyIndexed : NotificationFileV1 where
  schemaVersion := 1
  revision := 7
  sourceEventIndex := [⟨.account "alpha", "outage:2", "00000000-0000-4000-8000-000000000002"⟩]
  partitions :=
    [⟨.account "alpha",
      [storedRecord "00000000-0000-4000-8000-000000000001" .connectionUnavailable outageContent none 1,
        storedRecord "00000000-0000-4000-8000-000000000002" .connectionUnavailable outageContent (some "outage:2") 2,
        storedRecord "00000000-0000-4000-8000-000000000003" .accountSessionExpired
          ⟨"account.sessionExpired", [], "账户会话已失效", "请检查账户 API 设置。"⟩ (some "expiry:3") 3]⟩]

/-- The missing entry is appended first, and is overtaken the second time. -/
theorem second_normalization_moves :
    partlyIndexed.validateFile = true ∧
      let after := partlyIndexed.normalizeSourceEventIndex.1
      after.sourceEventIndex.map (·.sourceEventId) = ["outage:2", "expiry:3"] ∧
        after.normalizeSourceEventIndex.1.sourceEventIndex.map (·.sourceEventId) = ["expiry:3", "outage:2"] ∧
        after.normalizeSourceEventIndex.2.changed = true := by decide +kernel

theorem normalization_settles_partly_indexed :
    let after := partlyIndexed.normalizeSourceEventIndex.1
    after.partitions = partlyIndexed.partitions ∧ rebuildActiveIncidents after = rebuildActiveIncidents partlyIndexed := by
  obtain ⟨⟨-, -, hparts⟩, -, -, hincidents, -⟩ := normalization_settles partlyIndexed (by decide +kernel)
  exact ⟨hparts, hincidents⟩

end EasiFlux
