import EasiFlux.Model.Incidents

/-!
# The open incidents of a file

Of a file that passes its validation only a few facts matter (`Sound`): ids, sources and index
entries are unique, and an entry for a source that created a record leads to that record. The
incidents that are open are then told key by key.

* `rebuild_incomplete`: with a record that is not in the index, the latest outage without a recovery.
* `rebuild_complete`: otherwise what the outages and recoveries lead to in the order of the index.
* `activeOf_creationOrder`: in the order in which `append_incident_creation_entries` puts them, both
  are the same.
-/

namespace EasiFlux

open SortOn

/-! ## Sound files -/

/-- The entry of the source event a record was created for. -/
def creationOf (sr : NotificationScope × NotificationRecord) : Option NotificationSourceEventIndexEntry :=
  sr.2.sourceEventId.map fun source => ⟨sr.1, source, sr.2.id⟩

/-- What an entry is indexed by. -/
def NotificationSourceEventIndexEntry.source (e : NotificationSourceEventIndexEntry) : NotificationScope × String :=
  (e.scope, e.sourceEventId)

/-- What of the validation the index depends on. -/
structure Sound (file : NotificationFileV1) : Prop where
  ids : (file.records.map (·.2.id)).Nodup
  scopes : ∀ sr ∈ file.records, sr.2.scope = sr.1
  sources : ((file.records.filterMap creationOf).map (·.source)).Nodup
  index : (file.sourceEventIndex.map (·.source)).Nodup
  creating : ∀ e ∈ file.sourceEventIndex, ∀ c ∈ file.records.filterMap creationOf, c.source = e.source → c = e

variable {file : NotificationFileV1}

section Reading

variable {e c : NotificationSourceEventIndexEntry} {sr : NotificationScope × NotificationRecord} {id : String}

theorem creationOf_eq_some : creationOf sr = some e ↔
    sr.1 = e.scope ∧ sr.2.sourceEventId = some e.sourceEventId ∧ sr.2.id = e.notificationId := by
  unfold creationOf
  cases hsource : sr.2.sourceEventId with
  | none => simp
  | some source =>
    rw [Option.map_some, Option.some.injEq]
    constructor
    · rintro rfl
      exact ⟨rfl, rfl, rfl⟩
    · rintro ⟨h₁, h₂, h₃⟩
      obtain rfl := Option.some.inj h₂
      rw [h₁, h₃]

theorem creatingSources_eq (file : NotificationFileV1) : file.creatingSources =
    (file.records.filterMap creationOf).map fun c => (c.source, c.notificationId) := by
  unfold NotificationFileV1.creatingSources
  rw [List.map_filterMap]
  refine List.filterMap_congr fun sr _ => ?_
  unfold creationOf
  cases sr.2.sourceEventId <;> rfl

theorem sound_of_validateFile (h : file.validateFile = true) : Sound file := by
  unfold NotificationFileV1.validateFile at h
  simp only [Bool.and_eq_true] at h
  obtain ⟨⟨-, hparts⟩, hindex⟩ := h
  unfold NotificationFileV1.validPartitions at hparts
  unfold NotificationFileV1.validIndex at hindex
  simp only [Bool.and_eq_true, decide_eq_true_eq] at hparts hindex
  obtain ⟨⟨⟨hall, -⟩, hids⟩, hsources⟩ := hparts
  obtain ⟨hentries, hnodup⟩ := hindex
  have hcreating : file.creatingSources.map (·.1) = (file.records.filterMap creationOf).map (·.source) := by
    rw [creatingSources_eq, List.map_map]
    rfl
  rw [hcreating] at hsources
  refine ⟨hids, fun sr hsr => ?_, hsources, hnodup, fun e he c hc hce => ?_⟩
  · obtain ⟨partition, hp, hrec⟩ := List.mem_flatMap.1 hsr
    obtain ⟨record, hr, rfl⟩ := List.mem_map.1 hrec
    have hpart := List.all_eq_true.1 hall partition hp
    simp only [Bool.and_eq_true, List.all_eq_true, decide_eq_true_eq] at hpart
    exact (hpart.2 record hr).2
  · have hentry := List.all_eq_true.1 hentries e he
    simp only [Bool.and_eq_true] at hentry
    -- the source of `c` is found in the map of the creating sources
    have hlookup : file.creatingSources.lookup e.source = some c.notificationId := by
      rw [creatingSources_eq]
      generalize file.records.filterMap creationOf = cs at hc hsources
      induction cs with
      | nil => cases hc
      | cons d cs ih =>
        obtain ⟨hd, hcs⟩ := List.nodup_cons.1 hsources
        rw [List.map_cons, List.lookup_cons]
        rcases List.mem_cons.1 hc with rfl | hc
        · simp [hce]
        · have hne : e.source ≠ d.source := by
            rintro heq
            exact hd (List.mem_map.2 ⟨c, hc, hce.trans heq⟩)
          simp only [beq_eq_false_iff_ne.2 hne]
          exact ih hc hcs
    have hid := hentry.2
    rw [show (e.scope, e.sourceEventId) = e.source from rfl, hlookup, Option.all_some, decide_eq_true_eq] at hid
    have hs := Prod.mk.inj hce
    cases c
    cases e
    simp_all

theorem Sound.record_unique (hs : Sound file) {sr sr' : NotificationScope × NotificationRecord} (h : sr ∈ file.records)
    (h' : sr' ∈ file.records) (hid : sr.2.id = sr'.2.id) : sr = sr' :=
  List.inj_on_of_nodup_map hs.ids h h' hid

/-- Where a key tells the elements apart, looking for it finds its element. -/
theorem find_last_iff {α β : Type} [DecidableEq β] {l : List α} {f : α → β} {k : β} {a : α}
    (hu : ∀ a ∈ l, ∀ b ∈ l, f a = f b → a = b) : (l.reverse.find? fun x => f x = k) = some a ↔ a ∈ l ∧ f a = k := by
  constructor
  · intro h
    exact ⟨List.mem_reverse.1 (List.mem_of_find?_eq_some h), by simpa using List.find?_some h⟩
  · rintro ⟨hmem, rfl⟩
    cases hfind : l.reverse.find? fun x => f x = f a with
    | none =>
      have hnone := List.find?_eq_none.1 hfind a (List.mem_reverse.2 hmem)
      simp at hnone
    | some b =>
      have hkey : f b = f a := by simpa using List.find?_some hfind
      rw [hu b (List.mem_reverse.1 (List.mem_of_find?_eq_some hfind)) a hmem hkey]

/-- An id finds its record. -/
theorem Sound.recordOf (hs : Sound file) : file.recordOf id = some sr ↔ sr ∈ file.records ∧ sr.2.id = id :=
  find_last_iff fun _ ha _ hb => hs.record_unique ha hb

/-- An id finds its creation entry. -/
theorem Sound.creationEntry (hs : Sound file) : file.creationEntry id = some e ↔
    e ∈ file.creationEntries ∧ e.notificationId = id := by
  refine find_last_iff fun c hc d hd hid => ?_
  obtain ⟨sr, hsr, hc⟩ := List.mem_filterMap.1 hc
  obtain ⟨sr', hsr', hd⟩ := List.mem_filterMap.1 hd
  have hc' := creationOf_eq_some.1 hc
  have hd' := creationOf_eq_some.1 hd
  obtain rfl := hs.record_unique hsr hsr' (hc'.2.2.trans (hid.trans hd'.2.2.symm))
  exact Option.some.inj (hc.symm.trans hd)

theorem Sound.isCreation (hs : Sound file) : file.isCreation e = true ↔ e ∈ file.creationEntries := by
  unfold NotificationFileV1.isCreation
  constructor
  · intro h
    obtain ⟨sr, hsr, hcond⟩ := Option.any_eq_true _ _ |>.1 h
    obtain ⟨hmem, hid⟩ := hs.recordOf.1 hsr
    simp only [Bool.and_eq_true, decide_eq_true_eq] at hcond
    exact List.mem_filterMap.2 ⟨sr, hmem, creationOf_eq_some.2 ⟨(hs.scopes sr hmem).symm.trans hcond.1, hcond.2, hid⟩⟩
  · intro h
    obtain ⟨sr, hmem, he⟩ := List.mem_filterMap.1 h
    obtain ⟨hscope, hsource, hid⟩ := creationOf_eq_some.1 he
    rw [hs.recordOf.2 ⟨hmem, hid⟩]
    simp [hs.scopes sr hmem, hscope, hsource]

end Reading

/-! ## Edges -/

section Edges

variable {r : NotificationRecord} {p : Option ℕ} {edge : IncidentHistoryEdge} {k : IncidentKey}

/-- The edges, before their places in the index are known. -/
def bareEdges (file : NotificationFileV1) : List IncidentHistoryEdge :=
  file.records.filterMap fun sr => incidentHistoryEdge sr.2 none

/-- The edge with the place of its record. -/
def placed (position : String → Option ℕ) (edge : IncidentHistoryEdge) : IncidentHistoryEdge :=
  { edge with creationPosition := position edge.recordId }

theorem edge_at (r : NotificationRecord) (p : Option ℕ) :
    incidentHistoryEdge r p = (incidentHistoryEdge r none).map fun e => { e with creationPosition := p } := by
  unfold incidentHistoryEdge
  cases r.scope with
  | global => rfl
  | account accountId =>
    dsimp only
    cases incidentIdOf r.dedupeKey with
    | none => rfl
    | some id =>
      cases incidentKeyOf accountId r with
      | none => rfl
      | some key => rfl

theorem recordId_of_edge (h : incidentHistoryEdge r p = some edge) : edge.recordId = r.id := by
  unfold incidentHistoryEdge at h
  cases hscope : r.scope with
  | global => rw [hscope] at h; cases h
  | account accountId =>
    rw [hscope] at h
    dsimp only at h
    cases hid : incidentIdOf r.dedupeKey with
    | none => rw [hid] at h; cases h
    | some id =>
      cases hkey : incidentKeyOf accountId r with
      | none => rw [hid, hkey] at h; cases h
      | some key =>
        rw [hid, hkey] at h
        obtain rfl := Option.some.inj h
        rfl

theorem incidentEdges_eq (file : NotificationFileV1) :
    file.incidentEdges = (bareEdges file).map (placed file.incidentCreationPosition) := by
  unfold NotificationFileV1.incidentEdges bareEdges
  rw [List.map_filterMap]
  refine List.filterMap_congr fun sr _ => ?_
  rw [edge_at]
  cases hedge : incidentHistoryEdge sr.2 none with
  | none => rfl
  | some edge =>
    have hid := recordId_of_edge hedge
    rw [Option.map_some, Option.map_some, placed, hid]

theorem Sound.edge_ids (hs : Sound file) : ((bareEdges file).map (·.recordId)).Nodup := by
  have hids := List.pairwise_map.1 hs.ids
  refine List.pairwise_map.2 (hids.filterMap _ fun sr sr' hne e he e' he' => ?_)
  rw [recordId_of_edge he, recordId_of_edge he']
  exact hne

theorem Sound.edge_unique (hs : Sound file) {e e' : IncidentHistoryEdge} (h : e ∈ bareEdges file) (h' : e' ∈ bareEdges file)
    (hid : e.recordId = e'.recordId) : e = e' := List.inj_on_of_nodup_map hs.edge_ids h h' hid

/-- Times and ids tell the edges apart. -/
theorem Sound.separates (hs : Sound file) : Separates legacyOrder (bareEdges file) := by
  intro e he e' he' hkey
  have hid : e.recordId = e'.recordId := by
    have h := congrArg (fun x => (ofLex (ofLex x).2).1) hkey
    simpa [legacyOrder] using h
  exact hs.edge_unique he he' hid

/-- The creation entry of the edge's record is in the index. -/
def listed (file : NotificationFileV1) (edge : IncidentHistoryEdge) : Bool :=
  (file.creationEntry edge.recordId).any fun c => c ∈ file.sourceEventIndex

/-- The place of a record in the index is that of its creation entry. -/
theorem Sound.position (hs : Sound file) (id : String) : file.incidentCreationPosition id =
    (file.creationEntry id).bind fun c => if c ∈ file.sourceEventIndex then some (file.sourceEventIndex.idxOf c) else none := by
  have hp : ∀ e, (decide (e.notificationId = id) && file.isCreation e) = decide (file.creationEntry id = some e) := by
    intro e
    rw [Bool.eq_iff_iff, Bool.and_eq_true, decide_eq_true_eq, decide_eq_true_eq, hs.isCreation, hs.creationEntry, and_comm]
  unfold NotificationFileV1.incidentCreationPosition
  simp only [hp]
  cases hentry : file.creationEntry id with
  | none =>
    rw [Option.bind_none, List.findIdx?_eq_none_iff]
    intro e _
    simp
  | some c =>
    rw [Option.bind_some]
    by_cases hc : c ∈ file.sourceEventIndex
    · rw [if_pos hc, List.findIdx?_eq_some_iff_getElem]
      refine ⟨List.idxOf_lt_length_of_mem hc, by simp, fun j hj => ?_⟩
      have hlt : j < file.sourceEventIndex.length := hj.trans (List.idxOf_lt_length_of_mem hc)
      have hne : file.sourceEventIndex[j] ≠ c := by simpa using List.not_of_lt_findIdx hj
      simp [Ne.symm hne]
    · rw [if_neg hc, List.findIdx?_eq_none_iff]
      intro e he
      simp only [Option.some.injEq, decide_eq_false_iff_not]
      rintro rfl
      exact hc he

theorem Sound.position_isSome (hs : Sound file) (edge : IncidentHistoryEdge) :
    (file.incidentCreationPosition edge.recordId).isSome = listed file edge := by
  rw [hs.position]
  unfold listed
  cases file.creationEntry edge.recordId with
  | none => rfl
  | some c => by_cases hc : c ∈ file.sourceEventIndex <;> simp [hc]

/-- The keys with an incomplete history. -/
def incomplete (file : NotificationFileV1) : List IncidentKey :=
  (((bareEdges file).filter fun e => !listed file e).map (·.key)).dedup

theorem Sound.fallbackKeys_eq (hs : Sound file) : fallbackKeys file.incidentEdges = incomplete file := by
  unfold fallbackKeys incomplete
  rw [incidentEdges_eq, List.filter_map, List.map_map]
  congr 1
  have hcond : ∀ e, ((fun e : IncidentHistoryEdge => e.creationPosition.isNone) ∘ placed file.incidentCreationPosition) e =
      !listed file e := by
    intro e
    rw [← hs.position_isSome e]
    show (file.incidentCreationPosition e.recordId).isNone = _
    cases file.incidentCreationPosition e.recordId <;> rfl
  rw [List.filter_congr fun e _ => hcond e]
  rfl

theorem mem_incomplete : k ∈ incomplete file ↔ ∃ e ∈ bareEdges file, e.key = k ∧ listed file e = false := by
  unfold incomplete
  rw [List.mem_dedup, List.mem_map]
  constructor
  · rintro ⟨e, he, rfl⟩
    obtain ⟨hmem, hl⟩ := List.mem_filter.1 he
    exact ⟨e, hmem, rfl, by simpa using hl⟩
  · rintro ⟨e, hmem, rfl, hl⟩
    exact ⟨e, List.mem_filter.2 ⟨hmem, by simp [hl]⟩, rfl⟩

end Edges

/-! ## Key by key -/

section Keys

variable {k : IncidentKey} {l l' : List IncidentHistoryEdge} {inc : ActiveIncidents}

def edgesOf (file : NotificationFileV1) (k : IncidentKey) : List IncidentHistoryEdge :=
  (bareEdges file).filter fun e => e.key = k

/-- `applyEdge` at the edge's key. -/
def openStep (current : Option String) (edge : IncidentHistoryEdge) : Option String :=
  if edge.unavailable then some edge.incidentId
  else if current = some edge.incidentId then none
  else current

def activeOf (edges : List IncidentHistoryEdge) : Option String := edges.foldl openStep none

theorem foldl_applyEdge (l : List IncidentHistoryEdge) (inc : ActiveIncidents) (k : IncidentKey) :
    l.foldl applyEdge inc k = (l.filter fun e => e.key = k).foldl openStep (inc k) := by
  induction l generalizing inc with
  | nil => rfl
  | cons e l ih =>
    rw [List.foldl_cons, ih]
    by_cases hk : e.key = k
    · subst hk
      rw [List.filter_cons_of_pos (by simp), List.foldl_cons]
      congr 1
      unfold applyEdge openStep
      split_ifs <;> simp
    · rw [List.filter_cons_of_neg (by simp [hk])]
      congr 1
      unfold applyEdge
      split_ifs <;> simp [Function.update_of_ne (Ne.symm hk)]

/-- The fallback at one key. -/
theorem foldl_latest (latest : IncidentKey → Option IncidentHistoryEdge) (ks : List IncidentKey) (inc : ActiveIncidents)
    (k : IncidentKey) :
    ks.foldl
        (fun inc key =>
          match latest key with
          | some edge => Function.update inc key (some edge.incidentId)
          | none => inc)
        inc k =
      if k ∈ ks then ((latest k).map (·.incidentId)).or (inc k) else inc k := by
  induction ks generalizing inc with
  | nil => rfl
  | cons key ks ih =>
    rw [List.foldl_cons, ih]
    by_cases hk : k = key
    · subst hk
      cases hl : latest k with
      | none => simp
      | some edge => simp
    · have hstep : (match latest key with
          | some edge => Function.update inc key (some edge.incidentId)
          | none => inc) k = inc k := by
        cases latest key with
        | none => rfl
        | some edge => exact Function.update_of_ne hk _ _
      rw [hstep]
      simp [hk]

theorem unclosedEdges_perm (h : l.Perm l') : (unclosedEdges l).Perm (unclosedEdges l') := by
  unfold unclosedEdges
  have hcond : ∀ e ∈ l, (e.unavailable && !((l.filter fun e => !e.unavailable).map (·.incidentId)).contains e.incidentId) =
      (e.unavailable && !((l'.filter fun e => !e.unavailable).map (·.incidentId)).contains e.incidentId) := by
    intro e _
    rw [((h.filter _).map _).contains_eq]
  rw [List.filter_congr hcond]
  exact h.filter _

theorem unclosedEdges_placed (position : String → Option ℕ) (l : List IncidentHistoryEdge) :
    unclosedEdges (l.map (placed position)) = (unclosedEdges l).map (placed position) := by
  unfold unclosedEdges
  simp only [List.filter_map, List.map_map]
  rfl

theorem mem_edgesOf {e : IncidentHistoryEdge} : e ∈ edgesOf file k ↔ e ∈ bareEdges file ∧ e.key = k := by
  simp [edgesOf]

theorem Sound.separates_edgesOf (hs : Sound file) (k : IncidentKey) : Separates legacyOrder (edgesOf file k) :=
  hs.separates.sublist List.filter_sublist

theorem filter_incidentEdges (file : NotificationFileV1) (k : IncidentKey) :
    (file.incidentEdges.filter fun e => e.key = k) = (edgesOf file k).map (placed file.incidentCreationPosition) := by
  rw [incidentEdges_eq, List.filter_map]
  rfl

/-- The edges in the order of the index. -/
def byPosition (file : NotificationFileV1) : List IncidentHistoryEdge :=
  sortOn (fun e => e.creationPosition.getD (2 ^ 64 - 1)) file.incidentEdges

/-- The open incident of a key depends on the edges of the key. -/
theorem Sound.rebuild_apply (hs : Sound file) (k : IncidentKey) : rebuildActiveIncidents file k =
    if k ∈ incomplete file then
      (maxBy legacyOrder (unclosedEdges ((byPosition file).filter fun e => e.key = k))).map (·.incidentId)
    else activeOf ((byPosition file).filter fun e => e.key = k) := by
  unfold rebuildActiveIncidents
  simp only [hs.fallbackKeys_eq]
  refine (foldl_latest (fun key => maxBy legacyOrder (unclosedEdges ((byPosition file).filter fun e => e.key = key))) _ _
    k).trans ?_
  rw [foldl_applyEdge, List.filter_filter]
  by_cases hk : k ∈ incomplete file
  · rw [if_pos hk, if_pos hk]
    have hnone : ((byPosition file).filter fun e => decide (e.key = k) && !(incomplete file).contains e.key) = [] := by
      refine List.filter_eq_nil_iff.2 fun e _ => ?_
      by_cases hek : e.key = k <;> simp [hek, hk]
    rw [byPosition] at hnone
    rw [hnone, List.foldl_nil, Option.or_none]
  · rw [if_neg hk, if_neg hk]
    have hcond : ∀ e ∈ byPosition file, (decide (e.key = k) && !(incomplete file).contains e.key) = decide (e.key = k) := by
      intro e _
      by_cases hek : e.key = k <;> simp [hek, hk]
    have hfilter := List.filter_congr hcond
    rw [byPosition] at hfilter
    rw [hfilter]
    rfl

theorem filter_byPosition (file : NotificationFileV1) (k : IncidentKey) :
    ((byPosition file).filter fun e => e.key = k).Perm ((edgesOf file k).map (placed file.incidentCreationPosition)) := by
  have hperm := (perm_sortOn (fun e : IncidentHistoryEdge => e.creationPosition.getD (2 ^ 64 - 1))
    file.incidentEdges).filter fun e => decide (e.key = k)
  rw [filter_incidentEdges] at hperm
  exact hperm

/-- With a record that is not in the index, the latest outage that has no recovery is open. -/
theorem Sound.rebuild_incomplete (hs : Sound file) (hk : k ∈ incomplete file) :
    rebuildActiveIncidents file k = (maxBy legacyOrder (unclosedEdges (edgesOf file k))).map (·.incidentId) := by
  rw [hs.rebuild_apply, if_pos hk]
  have hperm := unclosedEdges_perm (filter_byPosition file k)
  rw [unclosedEdges_placed] at hperm
  have hsep : Separates legacyOrder (unclosedEdges (edgesOf file k)) :=
    (hs.separates_edgesOf k).sublist List.filter_sublist
  have hsep' : Separates legacyOrder ((unclosedEdges (edgesOf file k)).map (placed file.incidentCreationPosition)) := by
    intro a ha b hb hkey
    obtain ⟨c, hc, rfl⟩ := List.mem_map.1 ha
    obtain ⟨d, hd, rfl⟩ := List.mem_map.1 hb
    rw [hsep c hc d hd hkey]
  have hsep'' := hsep'.perm hperm.symm
  rw [maxBy_eq_getLast hsep'', sortOn_eq_of_perm hsep'' hperm, maxBy_eq_getLast hsep,
    ← map_sortOn (placed file.incidentCreationPosition), List.getLast?_map, Option.map_map]
  rfl

variable (file) in
/-- The creation entry of an edge's record. -/
def entryOf (edge : IncidentHistoryEdge) : Option NotificationSourceEventIndexEntry := file.creationEntry edge.recordId

theorem listed_of_complete (hk : k ∉ incomplete file) {e : IncidentHistoryEdge} (he : e ∈ edgesOf file k) :
    ∃ c, entryOf file e = some c ∧ c ∈ file.sourceEventIndex := by
  obtain ⟨hmem, hkey⟩ := mem_edgesOf.1 he
  have hl : listed file e = true := by
    by_contra hl
    exact hk (mem_incomplete.2 ⟨e, hmem, hkey, by simpa using hl⟩)
  obtain ⟨c, hc, hin⟩ := Option.any_eq_true _ _ |>.1 hl
  exact ⟨c, hc, by simpa using hin⟩

theorem Sound.nodup_index (hs : Sound file) : file.sourceEventIndex.Nodup := hs.index.of_map

theorem Sound.position_entry (hs : Sound file) {e : IncidentHistoryEdge} {c : NotificationSourceEventIndexEntry}
    (hc : entryOf file e = some c) (hin : c ∈ file.sourceEventIndex) :
    file.incidentCreationPosition e.recordId = some (file.sourceEventIndex.idxOf c) := by
  rw [hs.position, show file.creationEntry e.recordId = some c from hc, Option.bind_some, if_pos hin]

/-- With all records in the index, the edges count in its order. -/
theorem Sound.rebuild_complete (hs : Sound file) (hk : k ∉ incomplete file) (hl : l.Perm (edgesOf file k))
    (hsub : (l.filterMap (entryOf file)).Sublist file.sourceEventIndex) : rebuildActiveIncidents file k = activeOf l := by
  rw [hs.rebuild_apply, if_neg hk]
  have hperm := filter_byPosition file k
  have hplaces : (l.map (placed file.incidentCreationPosition)).Pairwise fun a b =>
      a.creationPosition.getD (2 ^ 64 - 1) < b.creationPosition.getD (2 ^ 64 - 1) := by
    have hpair := List.pairwise_filterMap.1 (pairwise_idxOf hs.nodup_index hsub)
    refine List.pairwise_map.2 (hpair.imp_of_mem fun ha hb hlt => ?_)
    obtain ⟨c, hc, hin⟩ := listed_of_complete hk (hl.mem_iff.1 ha)
    obtain ⟨d, hd, hin'⟩ := listed_of_complete hk (hl.mem_iff.1 hb)
    show (file.incidentCreationPosition _).getD _ < (file.incidentCreationPosition _).getD _
    rw [hs.position_entry hc hin, hs.position_entry hd hin']
    exact hlt c hc d hd
  rw [eq_of_perm (hperm.trans (hl.map _).symm) ((pairwise_sortOn _ _).filter _) hplaces]
  exact List.foldl_map

/-- There is such an order. -/
theorem Sound.exists_order (hs : Sound file) (hk : k ∉ incomplete file) :
    ∃ l : List IncidentHistoryEdge, l.Perm (edgesOf file k) ∧ (l.filterMap (entryOf file)).Sublist file.sourceEventIndex := by
  let place := fun e : IncidentHistoryEdge => (file.incidentCreationPosition e.recordId).getD 0
  have hperm := perm_sortOn place (edgesOf file k)
  refine ⟨sortOn place (edgesOf file k), hperm, sublist_of_pairwise_idxOf hs.nodup_index ?_ ?_⟩
  · intro c hc
    obtain ⟨e, he, hec⟩ := List.mem_filterMap.1 hc
    obtain ⟨d, hd, hin⟩ := listed_of_complete hk (hperm.mem_iff.1 he)
    obtain rfl := Option.some.inj (hec.symm.trans hd)
    exact hin
  · have hids : (sortOn place (edgesOf file k)).Pairwise fun a b => a.recordId ≠ b.recordId :=
      List.pairwise_map.1 ((hperm.map IncidentHistoryEdge.recordId).nodup_iff.2
        (hs.edge_ids.sublist (List.filter_sublist.map IncidentHistoryEdge.recordId)))
    refine List.pairwise_filterMap.2 (((pairwise_sortOn place _).and hids).imp_of_mem fun {a b} ha hb hle c hc d hd => ?_)
    obtain ⟨c', hc', hin⟩ := listed_of_complete hk (hperm.mem_iff.1 ha)
    obtain ⟨d', hd', hin'⟩ := listed_of_complete hk (hperm.mem_iff.1 hb)
    obtain rfl := Option.some.inj (hc.symm.trans hc')
    obtain rfl := Option.some.inj (hd.symm.trans hd')
    have hplace : place a ≤ place b := hle.1
    simp only [place, hs.position_entry hc hin, hs.position_entry hd hin', Option.getD_some] at hplace
    -- one place is one entry, and one entry is one record
    refine lt_of_le_of_ne hplace fun heq => hle.2 ?_
    obtain rfl := (List.idxOf_inj hin).1 heq
    rw [← (hs.creationEntry.1 hc).2, ← (hs.creationEntry.1 hd).2]

end Keys

/-! ## The order of creation -/

section CreationOrder

variable {l : List IncidentHistoryEdge}

theorem creationOrder_placed (position : String → Option ℕ) (l : List IncidentHistoryEdge) :
    creationOrder (l.map (placed position)) = (creationOrder l).map (List.map (placed position)) := by
  have hsort : ∀ p : IncidentHistoryEdge → Bool, (∀ e, p (placed position e) = p e) →
      sortOn legacyOrder ((l.map (placed position)).filter p) = (sortOn legacyOrder (l.filter p)).map (placed position) := by
    intro p hp
    rw [List.filter_map, ← map_sortOn (placed position)]
    exact congrArg (fun q => (sortOn legacyOrder (l.filter q)).map (placed position)) (funext hp)
  have hids : ∀ p : IncidentHistoryEdge → Bool, (∀ e, p (placed position e) = p e) →
      ((l.map (placed position)).filter p).map (·.incidentId) = (l.filter p).map (·.incidentId) := by
    intro p hp
    rw [List.filter_map, List.map_map]
    exact congrArg (fun q => (l.filter q).map (·.incidentId)) (funext hp)
  unfold creationOrder
  dsimp only
  rw [hids _ fun _ => rfl, hids _ fun _ => rfl, hsort _ fun _ => rfl, hsort _ fun _ => rfl]
  simp only [List.map_append, List.map_flatMap, List.map_cons, List.map_nil]
  congr 2
  refine List.flatMap_congr fun id _ => ?_
  rw [hsort _ fun _ => rfl, hsort _ fun _ => rfl]

/-- Each edge is in one of the groups. -/
theorem creationOrder_perm (l : List IncidentHistoryEdge) : (creationOrder l).flatten.Perm l := by
  unfold creationOrder
  dsimp only
  generalize hU : (l.filter fun e => e.unavailable).map (·.incidentId) = U
  generalize hR : (l.filter fun e => !e.unavailable).map (·.incidentId) = R
  have hU' : ∀ e ∈ l, e.unavailable = true → e.incidentId ∈ U := fun e he hu =>
    hU ▸ List.mem_map.2 ⟨e, List.mem_filter.2 ⟨he, hu⟩, rfl⟩
  have hR' : ∀ e ∈ l, e.unavailable = false → e.incidentId ∈ R := fun e he hu =>
    hR ▸ List.mem_map.2 ⟨e, List.mem_filter.2 ⟨he, by simp [hu]⟩, rfl⟩
  have hclosed : ∀ i, i ∈ sortOn id (U.filter R.contains).dedup ↔ i ∈ U ∧ i ∈ R := by simp
  generalize hC : sortOn id (U.filter R.contains).dedup = closed at hclosed
  have hnodup : closed.Nodup := hC ▸ nodup_sortOn id (List.nodup_dedup _)
  -- the two groups of one incident are its edges
  have hincident : ∀ i, (sortOn legacyOrder (l.filter fun e => e.unavailable && e.incidentId = i) ++
      sortOn legacyOrder (l.filter fun e => !e.unavailable && e.incidentId = i)).Perm (l.filter fun e => e.incidentId = i) := by
    intro i
    have hsplit := List.filter_append_perm (fun e : IncidentHistoryEdge => e.unavailable) (l.filter fun e => e.incidentId = i)
    rw [List.filter_filter, List.filter_filter] at hsplit
    exact ((perm_sortOn _ _).append (perm_sortOn _ _)).trans hsplit
  have hmiddle : (closed.flatMap fun i =>
      sortOn legacyOrder (l.filter fun e => e.unavailable && e.incidentId = i) ++
        sortOn legacyOrder (l.filter fun e => !e.unavailable && e.incidentId = i)).Perm
      (l.filter fun e => e.incidentId ∈ closed) :=
    (List.Perm.flatMap_left closed fun i _ => hincident i).trans (perm_flatMap_filter (·.incidentId) l hnodup)
  have hflat : ([sortOn legacyOrder (l.filter fun e => !e.unavailable && !U.contains e.incidentId)] ++
      (closed.flatMap fun i => [sortOn legacyOrder (l.filter fun e => e.unavailable && e.incidentId = i),
        sortOn legacyOrder (l.filter fun e => !e.unavailable && e.incidentId = i)]) ++
      [sortOn legacyOrder (l.filter fun e => e.unavailable && !R.contains e.incidentId)]).flatten =
      sortOn legacyOrder (l.filter fun e => !e.unavailable && !U.contains e.incidentId) ++
        (closed.flatMap fun i => sortOn legacyOrder (l.filter fun e => e.unavailable && e.incidentId = i) ++
          sortOn legacyOrder (l.filter fun e => !e.unavailable && e.incidentId = i)) ++
        sortOn legacyOrder (l.filter fun e => e.unavailable && !R.contains e.incidentId) := by
    simp [List.flatten_append, List.flatMap, List.flatten_flatten, List.map_map, Function.comp_def]
  rw [hflat]
  refine (((perm_sortOn _ _).append hmiddle).append (perm_sortOn _ _)).trans ?_
  -- outages and recoveries, each with and without the other
  have hout := List.filter_append_perm (fun e : IncidentHistoryEdge => decide (e.incidentId ∈ closed)) l
  have hrest := List.filter_append_perm (fun e : IncidentHistoryEdge => e.unavailable)
    (l.filter fun e => !decide (e.incidentId ∈ closed))
  rw [List.filter_filter, List.filter_filter] at hrest
  have horphan : (l.filter fun e => !e.unavailable && !U.contains e.incidentId) =
      l.filter fun e => !e.unavailable && !decide (e.incidentId ∈ closed) := by
    refine List.filter_congr fun e he => ?_
    cases hu : e.unavailable with
    | true => rfl
    | false => simp [hclosed, hR' e he hu]
  have hunclosed : (l.filter fun e => e.unavailable && !R.contains e.incidentId) =
      l.filter fun e => e.unavailable && !decide (e.incidentId ∈ closed) := by
    refine List.filter_congr fun e he => ?_
    cases hu : e.unavailable with
    | false => rfl
    | true => simp [hclosed, hU' e he hu]
  rw [horphan, hunclosed]
  refine (List.perm_append_comm.append_right _).trans ?_
  rw [List.append_assoc]
  exact ((List.perm_append_comm.trans hrest).append_left _).trans hout

/-- Recoveries open nothing. -/
theorem foldl_recoveries (h : ∀ e ∈ l, e.unavailable = false) : l.foldl openStep none = none := by
  induction l with
  | nil => rfl
  | cons e l ih =>
    have hstep : openStep none e = none := by simp [openStep, h e List.mem_cons_self]
    rw [List.foldl_cons, hstep]
    exact ih fun e he => h e (List.mem_cons_of_mem _ he)

/-- Of some outages the last one is open. -/
theorem foldl_outages (h : ∀ e ∈ l, e.unavailable = true) (current : Option String) :
    l.foldl openStep current = (l.getLast?.map (·.incidentId)).or current := by
  induction l using List.reverseRecOn with
  | nil => rfl
  | append_singleton l e _ =>
    rw [List.foldl_append, List.foldl_cons, List.foldl_nil, List.getLast?_concat]
    simp [openStep, h e (by simp)]

/-- An incident is over with its recoveries. -/
theorem foldl_incident {l' : List IncidentHistoryEdge} {i : String} (hl : ∀ e ∈ l, e.unavailable = true ∧ e.incidentId = i)
    (hl' : ∀ e ∈ l', e.unavailable = false ∧ e.incidentId = i) (hne : l' ≠ []) : (l ++ l').foldl openStep none = none := by
  rw [List.foldl_append, foldl_outages fun e he => (hl e he).1, Option.or_none]
  obtain ⟨e, l', rfl⟩ := List.exists_cons_of_ne_nil hne
  obtain ⟨hu, hi⟩ := hl' e List.mem_cons_self
  rw [List.foldl_cons]
  have hstep : openStep (l.getLast?.map (·.incidentId)) e = none := by
    cases hlast : l.getLast? with
    | none => simp [openStep, hu]
    | some d =>
      have hd := (hl d (List.mem_of_getLast? hlast)).2
      simp [openStep, hu, hi, hd]
  rw [hstep]
  exact foldl_recoveries fun e he => (hl' e (List.mem_cons_of_mem _ he)).1

/-- The order of creation leaves the latest outage without a recovery. -/
theorem activeOf_creationOrder (hs : Separates legacyOrder l) :
    activeOf (creationOrder l).flatten = (maxBy legacyOrder (unclosedEdges l)).map (·.incidentId) := by
  have hunclosed : unclosedEdges l = l.filter fun e =>
      e.unavailable && !((l.filter fun e => !e.unavailable).map (·.incidentId)).contains e.incidentId := rfl
  rw [maxBy_eq_getLast (hs.sublist (hunclosed ▸ List.filter_sublist)), hunclosed]
  unfold creationOrder activeOf
  dsimp only
  generalize hU : (l.filter fun e => e.unavailable).map (·.incidentId) = U
  generalize hR : (l.filter fun e => !e.unavailable).map (·.incidentId) = R
  rw [List.flatten_append, List.flatten_append, List.foldl_append, List.foldl_append, List.flatten_singleton,
    List.flatten_singleton]
  have horphans : ∀ e ∈ sortOn legacyOrder (l.filter fun e => !e.unavailable && !U.contains e.incidentId),
      e.unavailable = false := by
    intro e he
    have hcond := (List.mem_filter.1 (mem_sortOn.1 he)).2
    simp only [Bool.and_eq_true, Bool.not_eq_true'] at hcond
    exact hcond.1
  have houtages : ∀ e ∈ sortOn legacyOrder (l.filter fun e => e.unavailable && !R.contains e.incidentId),
      e.unavailable = true := by
    intro e he
    exact (Bool.and_eq_true_iff.1 (List.mem_filter.1 (mem_sortOn.1 he)).2).1
  have hclosed : ∀ i ∈ sortOn id (U.filter R.contains).dedup, i ∈ R := fun i hi => by simpa using
    (List.mem_filter.1 (List.mem_dedup.1 (mem_sortOn.1 hi))).2
  rw [foldl_recoveries horphans, foldl_outages houtages]
  -- each closed incident is opened and closed
  have hnone : ∀ is : List String, (∀ i ∈ is, i ∈ R) → ((is.flatMap fun i =>
      [sortOn legacyOrder (l.filter fun e => e.unavailable && e.incidentId = i),
        sortOn legacyOrder (l.filter fun e => !e.unavailable && e.incidentId = i)]).flatten).foldl openStep none = none := by
    intro is his
    induction is with
    | nil => rfl
    | cons i is ih =>
      rw [List.flatMap_cons, List.flatten_append, List.foldl_append, List.flatten_cons, List.flatten_singleton,
        foldl_incident (i := i)]
      · exact ih fun j hj => his j (List.mem_cons_of_mem _ hj)
      · intro e he
        simpa using (List.mem_filter.1 (mem_sortOn.1 he)).2
      · intro e he
        simpa using (List.mem_filter.1 (mem_sortOn.1 he)).2
      · have hi := his i List.mem_cons_self
        rw [← hR] at hi
        obtain ⟨e, he, rfl⟩ := List.mem_map.1 hi
        obtain ⟨hmem, hu⟩ := List.mem_filter.1 he
        exact List.ne_nil_of_mem (mem_sortOn.2 (List.mem_filter.2 ⟨hmem, by simpa using hu⟩))
  rw [hnone _ hclosed, Option.or_none]

end CreationOrder

end EasiFlux
