import EasiFlux.Model.NotificationService
import EasiFlux.Proof.Capacity

/-!
# What the housekeeping removes

Each function of the housekeeping removes records, with their entries, and says what it has removed
in a mutation. `Removal` is the first, of files; `Tidies` adds the second: a mutation that says
nothing has changed is right, and so is one that does not name a scope.

* `reserve_evicts`, `enforce_evicts`: how the two searches of the size limit end.
* `housekeeping_tidies`: all functions of the housekeeping tidy.
-/

namespace EasiFlux

open Results SortOn

/-! ## Files -/

/-- What an entry leads to. -/
def NotificationSourceEventIndexEntry.target (e : NotificationSourceEventIndexEntry) : NotificationScope × String :=
  (e.scope, e.notificationId)

/-- Every entry leads to a record. -/
def Attached (file : NotificationFileV1) : Prop := ∀ e ∈ file.sourceEventIndex, e.target ∈ file.targets

/-- The records of a scope. -/
def NotificationFileV1.recordsIn (file : NotificationFileV1) (s : NotificationScope) : List (NotificationScope × NotificationRecord) :=
  file.records.filter (·.1 = s)

/-- The files have the same records and entries of a scope. -/
def SameIn (s : NotificationScope) (file file' : NotificationFileV1) : Prop :=
  file'.recordsIn s = file.recordsIn s ∧ file'.entriesIn (some s) = file.entriesIn (some s)

/-- Records have been removed, and the entries that lead to them. -/
structure Removal (file file' : NotificationFileV1) : Prop where
  schemaVersion : file'.schemaVersion = file.schemaVersion
  revision : file'.revision = file.revision
  scopes : (file'.partitions.map (·.scope)).Sublist (file.partitions.map (·.scope))
  records : file'.records.Subperm file.records
  index : file'.sourceEventIndex = file.sourceEventIndex.filter fun e => e.target ∈ file'.targets

section Removals

variable {file file' file'' : NotificationFileV1} {s : NotificationScope} {ps : List NotificationPartition}

theorem Removal.refl (h : Attached file) : Removal file file where
  schemaVersion := rfl
  revision := rfl
  scopes := .refl _
  records := .refl _
  index := (List.filter_eq_self.2 fun e he => decide_eq_true (h e he)).symm

theorem Removal.targets (h : Removal file file') : file'.targets ⊆ file.targets := List.map_subset _ h.records.subset

theorem Removal.trans (h : Removal file file') (h' : Removal file' file'') : Removal file file'' where
  schemaVersion := h'.schemaVersion.trans h.schemaVersion
  revision := h'.revision.trans h.revision
  scopes := h'.scopes.trans h.scopes
  records := h'.records.trans h.records
  index := by
    rw [h'.index, h.index, List.filter_filter]
    refine List.filter_congr fun e _ => ?_
    -- a record that is left now was left before
    have hleft : e.target ∈ file''.targets → e.target ∈ file'.targets := fun he => h'.targets he
    rw [Bool.eq_iff_iff, Bool.and_eq_true, decide_eq_true_eq, decide_eq_true_eq]
    exact and_iff_left_of_imp hleft

theorem Removal.attached (h : Removal file file') : Attached file' := by
  intro e he
  rw [h.index] at he
  exact of_decide_eq_true (List.mem_filter.1 he).2

/-- Records are taken out of the partitions, and then the index is cleaned up. -/
theorem Removal.cleanup (hscopes : (ps.map (·.scope)).Sublist (file.partitions.map (·.scope)))
    (hrecords : ({ file with partitions := ps } : NotificationFileV1).records.Subperm file.records) :
    Removal file (cleanupSourceEventIndex { file with partitions := ps }).1 := ⟨rfl, rfl, hscopes, hrecords, rfl⟩

/-- The records and the entries of some targets are removed. -/
theorem Removal.of_targets {ts : List (NotificationScope × String)} (hfile : Attached file)
    (hschema : file'.schemaVersion = file.schemaVersion) (hrevision : file'.revision = file.revision)
    (hscopes : (file'.partitions.map (·.scope)).Sublist (file.partitions.map (·.scope)))
    (hrecords : file'.records = file.records.filter fun sr => (sr.1, sr.2.id) ∉ ts)
    (hindex : file'.sourceEventIndex = file.sourceEventIndex.filter fun e => e.target ∉ ts) : Removal file file' where
  schemaVersion := hschema
  revision := hrevision
  scopes := hscopes
  records := hrecords ▸ List.filter_sublist.subperm
  index := by
    rw [hindex]
    refine List.filter_congr fun e he => ?_
    rw [decide_eq_decide]
    unfold NotificationFileV1.targets
    rw [hrecords]
    constructor
    · intro hts
      obtain ⟨sr, hsr, htarget⟩ := List.mem_map.1 (hfile e he)
      exact List.mem_map.2 ⟨sr, List.mem_filter.2 ⟨hsr, by simpa [htarget] using hts⟩, htarget⟩
    · intro hleft hts
      obtain ⟨sr, hsr, htarget⟩ := List.mem_map.1 hleft
      have hnot := (List.mem_filter.1 hsr).2
      rw [decide_eq_true_eq, htarget] at hnot
      exact hnot hts

end Removals

/-! ## Mutations -/

/-- The scopes have been noted in a mutation. -/
structure Noted (ss : List NotificationScope) (m m' : HousekeepingMutation) : Prop where
  nothing : ss = [] → m' = m
  changed : ss ≠ [] → m'.changed = true
  mem_scopes : ∀ s, s ∈ m'.affectedScopes ↔ s ∈ m.affectedScopes ∨ s ∈ ss

namespace Noted

variable {ss ts : List NotificationScope} {m m' m'' : HousekeepingMutation}

theorem nil (m : HousekeepingMutation) : Noted [] m m := ⟨fun _ => rfl, fun h => absurd rfl h, fun s => by simp⟩

theorem noteScope (m : HousekeepingMutation) (s : NotificationScope) : Noted [s] m (m.noteScope s) where
  nothing h := absurd h (List.cons_ne_nil _ _)
  changed _ := rfl
  mem_scopes t := by
    unfold HousekeepingMutation.noteScope
    dsimp only
    split_ifs with hs
    · rw [List.mem_singleton]
      exact ⟨Or.inl, fun h => h.elim id fun heq => heq ▸ hs⟩
    · rw [List.mem_append]

theorem noteRemovedRecord (m : HousekeepingMutation) (s : NotificationScope) : Noted [s] m (m.noteRemovedRecord s) := by
  have h := noteScope { m with affectedCount := m.affectedCount + 1 } s
  exact ⟨fun hnil => absurd hnil (List.cons_ne_nil _ _), h.changed, h.mem_scopes⟩

theorem trans (h : Noted ss m m') (h' : Noted ts m' m'') : Noted (ss ++ ts) m m'' where
  nothing hnil := by
    obtain ⟨hs, ht⟩ := List.append_eq_nil_iff.1 hnil
    rw [h'.nothing ht, h.nothing hs]
  changed hne := by
    by_cases ht : ts = []
    · rw [h'.nothing ht]
      exact h.changed fun hs => hne (by rw [hs, ht]; rfl)
    · exact h'.changed ht
  mem_scopes s := by rw [h'.mem_scopes, h.mem_scopes, List.mem_append, or_assoc]

/-- A fold each of whose steps notes some scopes. -/
theorem foldl {α : Type} {f : HousekeepingMutation → α → HousekeepingMutation} (scopes : α → List NotificationScope)
    (hf : ∀ m a, Noted (scopes a) m (f m a)) (as : List α) (m : HousekeepingMutation) :
    Noted (as.flatMap scopes) m (as.foldl f m) := by
  induction as generalizing m with
  | nil => exact nil m
  | cons a as ih => exact (hf m a).trans (ih (f m a))

theorem noteScopes (ss : List NotificationScope) (m : HousekeepingMutation) :
    Noted ss m (ss.foldl HousekeepingMutation.noteScope m) := by
  have h := foldl (fun s => [s]) noteScope ss m
  rwa [List.flatMap_singleton'] at h

theorem noteRemovedRecords (ss : List NotificationScope) (m : HousekeepingMutation) : Noted ss m (m.noteRemovedRecords ss) := by
  have h := foldl (fun s => [s]) noteRemovedRecord ss m
  rwa [List.flatMap_singleton'] at h

/-- A mutation that says nothing has changed. -/
theorem eq_of_unchanged (h : Noted ss m m') (hm : m'.changed = false) : ss = [] ∧ m' = m := by
  by_cases hss : ss = []
  · exact ⟨hss, h.nothing hss⟩
  · rw [h.changed hss] at hm
    cases hm

end Noted

/-! ## Tidying -/

/-- Records are removed, and the mutation says so. -/
structure Tidies (st st' : NotificationFileV1 × HousekeepingMutation) : Prop where
  removal : Removal st.1 st'.1
  unchanged : st'.2.changed = false → st' = st
  grows : st.2.affectedScopes ⊆ st'.2.affectedScopes
  names : ∀ s, s ∉ st'.2.affectedScopes → SameIn s st.1 st'.1

namespace Tidies

variable {st st' st'' : NotificationFileV1 × HousekeepingMutation}

theorem refl (h : Attached st.1) : Tidies st st := ⟨.refl h, fun _ => rfl, fun _ hs => hs, fun _ _ => ⟨rfl, rfl⟩⟩

theorem trans (h : Tidies st st') (h' : Tidies st' st'') : Tidies st st'' where
  removal := h.removal.trans h'.removal
  unchanged hm := by
    obtain rfl := h'.unchanged hm
    exact h.unchanged hm
  grows _ hs := h'.grows (h.grows hs)
  names s hs := by
    have hfirst := h.names s fun hmem => hs (h'.grows hmem)
    have hrest := h'.names s hs
    exact ⟨hrest.1.trans hfirst.1, hrest.2.trans hfirst.2⟩

theorem attached (h : Tidies st st') : Attached st'.1 := h.removal.attached

/-- Records of the scopes that are noted are removed. -/
theorem of_noted {ss : List NotificationScope} (hremoval : Removal st.1 st'.1) (hnoted : Noted ss st.2 st'.2)
    (hnothing : ss = [] → st'.1 = st.1) (hsame : ∀ s, s ∉ ss → SameIn s st.1 st'.1) : Tidies st st' where
  removal := hremoval
  unchanged hm := by
    obtain ⟨hss, hmutation⟩ := hnoted.eq_of_unchanged hm
    exact Prod.ext (hnothing hss) hmutation
  grows s hs := (hnoted.mem_scopes s).2 (Or.inl hs)
  names s hs := hsame s fun hmem => hs ((hnoted.mem_scopes s).2 (Or.inr hmem))

end Tidies

/-! ## Partitions -/

/-- The records of some partitions. -/
def recordsOf (ps : List NotificationPartition) : List (NotificationScope × NotificationRecord) :=
  ps.flatMap fun p => p.items.map fun record => (p.scope, record)

section Partitions

variable {p : NotificationPartition} {ps : List NotificationPartition} {s : NotificationScope}

theorem recordsOf_cons (p : NotificationPartition) (ps : List NotificationPartition) :
    recordsOf (p :: ps) = (p.items.map fun record => (p.scope, record)) ++ recordsOf ps := List.flatMap_cons

theorem mem_recordsOf {sr : NotificationScope × NotificationRecord} :
    sr ∈ recordsOf ps ↔ ∃ p ∈ ps, p.scope = sr.1 ∧ sr.2 ∈ p.items := by
  constructor
  · intro h
    obtain ⟨p, hp, hsr⟩ := List.mem_flatMap.1 h
    obtain ⟨record, hrecord, rfl⟩ := List.mem_map.1 hsr
    exact ⟨p, hp, rfl, hrecord⟩
  · rintro ⟨p, hp, hscope, hrecord⟩
    exact List.mem_flatMap.2 ⟨p, hp, List.mem_map.2 ⟨sr.2, hrecord, Prod.ext hscope rfl⟩⟩

/-- Partitions that are dropped have no records. -/
theorem recordsOf_drop {q : NotificationPartition → Bool} (hq : ∀ p ∈ ps, q p = false → p.items = []) :
    recordsOf (ps.filter q) = recordsOf ps := by
  refine (filter_flatMap_eq_iff (g := fun p : NotificationPartition => p.items.map fun record => (p.scope, record))).2 fun p hp hdrop => ?_
  rw [hq p hp hdrop, List.map_nil]

theorem recordsOf_keepRecords (keep : NotificationScope → NotificationRecord → Bool) (ps : List NotificationPartition) :
    recordsOf (keepRecords keep ps) = (recordsOf ps).filter fun sr => keep sr.1 sr.2 := records_keepRecords keep ps

/-- The records that are not kept are taken out of their partitions. -/
theorem recordsOf_keep (keep : NotificationScope → NotificationRecord → Bool) (ps : List NotificationPartition) :
    recordsOf (ps.map fun p => { p with items := p.items.filter (keep p.scope) }) =
      (recordsOf ps).filter fun sr => keep sr.1 sr.2 := by
  rw [← recordsOf_keepRecords]
  refine (recordsOf_drop fun p _ hdrop => ?_).symm
  simpa using hdrop

/-- Partitions are changed and dropped, but their scopes stay. -/
theorem scopes_filter_map {f : NotificationPartition → NotificationPartition} (hf : ∀ p, (f p).scope = p.scope)
    (q : NotificationPartition → Bool) (ps : List NotificationPartition) :
    (((ps.map f).filter q).map (·.scope)).Sublist (ps.map (·.scope)) := by
  have hmap : (ps.map f).map (·.scope) = ps.map (·.scope) := by
    rw [List.map_map]
    exact List.map_congr_left fun p _ => hf p
  exact hmap ▸ List.filter_sublist.map _

/-- The records of a scope are those of the partitions of the scope. -/
theorem filter_recordsOf (s : NotificationScope) (ps : List NotificationPartition) :
    (recordsOf ps).filter (·.1 = s) = recordsOf (ps.filter (·.scope = s)) := by
  induction ps with
  | nil => rfl
  | cons p ps ih =>
    rw [recordsOf_cons, List.filter_append, ih, List.filter_map]
    by_cases hp : p.scope = s
    · rw [List.filter_cons_of_pos (by simpa using hp), recordsOf_cons]
      congr 2
      exact List.filter_eq_self.2 fun record _ => decide_eq_true hp
    · rw [List.filter_cons_of_neg (by simpa using hp), List.filter_eq_nil_iff.2 fun record _ => by simpa using hp]
      rfl

/-- Where no scope has two partitions, the records of a scope are the items of its partition. -/
theorem recordsOf_scope (hscopes : (ps.map (·.scope)).Nodup) (hp : p ∈ ps) :
    (recordsOf ps).filter (·.1 = p.scope) = p.items.map fun record => (p.scope, record) := by
  have honly : ps.filter (·.scope = p.scope) = [p] := by
    obtain ⟨before, after, rfl⟩ := List.append_of_mem hp
    rw [List.map_append, List.map_cons, List.nodup_middle, List.nodup_cons, ← List.map_append] at hscopes
    have hothers : ∀ q ∈ before ++ after, ¬decide (q.scope = p.scope) = true := by
      intro q hq
      rw [decide_eq_true_eq]
      intro heq
      exact hscopes.1 (List.mem_map.2 ⟨q, hq, heq⟩)
    rw [List.filter_append, List.filter_cons_of_pos (by simp),
      List.filter_eq_nil_iff.2 fun q hq => hothers q (List.mem_append_left _ hq),
      List.filter_eq_nil_iff.2 fun q hq => hothers q (List.mem_append_right _ hq), List.nil_append]
  rw [filter_recordsOf, honly]
  exact List.append_nil _

theorem recordsIn_of_mem {file : NotificationFileV1} (hscopes : (file.partitions.map (·.scope)).Nodup) (hp : p ∈ file.partitions) :
    (file.recordsIn p.scope).length = p.items.length := by
  show ((recordsOf file.partitions).filter _).length = _
  rw [recordsOf_scope hscopes hp, List.length_map]

theorem partitionRecordCount_eq {file : NotificationFileV1} (hscopes : (file.partitions.map (·.scope)).Nodup)
    (s : NotificationScope) : file.partitionRecordCount s = (file.recordsIn s).length := by
  unfold NotificationFileV1.partitionRecordCount
  cases hfind : file.partitions.find? (·.scope = s) with
  | none =>
    have hnone : (recordsOf file.partitions).filter (·.1 = s) = [] := by
      rw [filter_recordsOf, List.filter_eq_nil_iff.2 fun p hp => List.find?_eq_none.1 hfind p hp]
      rfl
    show 0 = ((recordsOf file.partitions).filter (·.1 = s)).length
    rw [hnone, List.length_nil]
  | some p =>
    obtain rfl : p.scope = s := by simpa using List.find?_some hfind
    exact (recordsIn_of_mem hscopes (List.mem_of_find?_eq_some hfind)).symm

end Partitions

/-! ## Evictions -/

section Evictions

variable {file file' : NotificationFileV1} {st : NotificationFileV1 × HousekeepingMutation}

/-- A scope that no target is of keeps its records and entries. -/
theorem SameIn.of_targets {ts : List (NotificationScope × String)} {s : NotificationScope} (hs : ∀ t ∈ ts, t.1 ≠ s)
    (hrecords : file'.records = file.records.filter fun sr => (sr.1, sr.2.id) ∉ ts)
    (hindex : file'.sourceEventIndex = file.sourceEventIndex.filter fun e => e.target ∉ ts) : SameIn s file file' := by
  constructor
  · unfold NotificationFileV1.recordsIn
    rw [hrecords, List.filter_filter]
    refine List.filter_congr fun sr _ => ?_
    rw [Bool.eq_iff_iff, Bool.and_eq_true, decide_eq_true_eq, decide_eq_true_eq]
    exact and_iff_left_of_imp fun hsr hmem => hs _ hmem hsr
  · unfold NotificationFileV1.entriesIn
    rw [hindex, List.filter_filter]
    refine List.filter_congr fun e _ => ?_
    rw [Bool.eq_iff_iff, Bool.and_eq_true, Option.all_some, decide_eq_true_eq, decide_eq_true_eq]
    exact and_iff_left_of_imp fun he hmem => hs _ hmem he.symm

/-- The targets of the records that are evicted. -/
def evictedTargets (records : List NotificationRecord) : List (NotificationScope × String) :=
  records.map fun record => (record.scope, record.id)

theorem evictIndexed_spec (file : NotificationFileV1) (requiredScope : Option NotificationScope) (limit : ℕ) (protectedId : Option String) :
    let (file', removed) := evictIndexedRecordsToLimit file requiredScope limit protectedId
    file'.schemaVersion = file.schemaVersion ∧ file'.revision = file.revision ∧
      (file'.partitions.map (·.scope)).Sublist (file.partitions.map (·.scope)) ∧
      file'.records = file.records.filter (fun sr => (sr.1, sr.2.id) ∉ evictedTargets removed) ∧
      file'.sourceEventIndex = file.sourceEventIndex.filter (fun e => e.target ∉ evictedTargets removed) ∧
      (removed = [] → file' = file) := by
  unfold evictIndexedRecordsToLimit
  dsimp only
  split_ifs with hle
  · exact ⟨rfl, rfl, .refl _, (List.filter_eq_self.2 fun _ _ => rfl).symm, (List.filter_eq_self.2 fun _ _ => rfl).symm, fun _ => rfl⟩
  · generalize selectToLimit limit _ _ = selected
    refine ⟨rfl, rfl, ?_, ?_, rfl, ?_⟩
    · refine scopes_filter_map ?_ _ _
      exact fun _ => rfl
    · have hkeep := recordsOf_keep (fun s record => (s, record.id) ∉ evictedTargets selected) file.partitions
      refine Eq.trans (recordsOf_drop fun p _ hdrop => ?_) hkeep
      rw [Bool.or_eq_false_iff, decide_eq_false_iff_not, not_not] at hdrop
      exact hdrop.1
    · rintro rfl
      -- nothing is removed
      simp

theorem tidies_evictNoting (h : Attached st.1) (requiredScope : Option NotificationScope) (limit : ℕ) (protectedId : Option String) :
    Tidies st (evictNoting requiredScope limit protectedId st) := by
  have hspec := evictIndexed_spec st.1 requiredScope limit protectedId
  unfold evictNoting
  generalize evictIndexedRecordsToLimit st.1 requiredScope limit protectedId = out at hspec ⊢
  obtain ⟨file', removed⟩ := out
  obtain ⟨hschema, hrevision, hscopes, hrecords, hindex, hnothing⟩ := hspec
  refine .of_noted (.of_targets h hschema hrevision hscopes hrecords hindex)
    (Noted.noteRemovedRecords (removed.map (·.scope)) st.2) (fun hnil => hnothing (List.map_eq_nil_iff.1 hnil)) fun s hs => ?_
  refine .of_targets (fun t ht hts => ?_) hrecords hindex
  obtain ⟨record, hrecord, rfl⟩ := List.mem_map.1 ht
  exact hs (List.mem_map.2 ⟨record, hrecord, hts⟩)

theorem Tidies.foldl {α : Type} {f : NotificationFileV1 × HousekeepingMutation → α → NotificationFileV1 × HousekeepingMutation}
    (hf : ∀ st a, Attached st.1 → Tidies st (f st a)) (as : List α) (h : Attached st.1) : Tidies st (as.foldl f st) := by
  induction as generalizing st with
  | nil => exact .refl h
  | cons a as ih =>
    have hstep := hf st a h
    exact hstep.trans (ih hstep.attached)

theorem tidies_enforceSourceIndexCaps (h : Attached st.1) : Tidies st (enforceSourceIndexCaps st) := by
  unfold enforceSourceIndexCaps
  dsimp only
  have hscopes : Tidies st ((overLimitScopes st.1).foldl
      (fun st scope => evictNoting (some scope) maxNotificationSourceIndexPerScope none st) st) :=
    .foldl (fun _ _ h => tidies_evictNoting h _ _ _) _ h
  split_ifs
  · exact hscopes.trans (tidies_evictNoting hscopes.attached _ _ _)
  · exact hscopes

end Evictions

/-! ## The size limit -/

section Size

variable {bytes : PrintedBytes} {file : NotificationFileV1} {mutation : HousekeepingMutation} {prepared : PreparedPublish}

/-- How a search for the records to remove ends: with an error, without a removal, or with the removal
of some candidates. -/
inductive Evicts {α : Type} (file : NotificationFileV1) (mutation : HousekeepingMutation) (cs : List RecordCandidate)
    (fits : List RecordCandidate → ℕ → Prop) (first again : ℕ) : EvictionOutcome α → Prop
  | fails (e : NotificationError) : Evicts file mutation cs fits first again (.error e, file, mutation)
  | fitting (a : α) (h : fits [] first) : Evicts file mutation cs fits first again (.ok a, file, mutation)
  | removed (a : α) (n : ℕ) (hpos : 0 < n) (hle : n ≤ cs.length) (h : fits (cs.take n) again) :
    Evicts file mutation cs fits first again
      (.ok a, removeRecordCandidates file (cs.take n), noteCandidates mutation (cs.take n))

theorem reserve_evicts (bytes : PrintedBytes) (file : NotificationFileV1) (prepared : PreparedPublish) (mutation : HousekeepingMutation) :
    Evicts file mutation (recordCandidates file prepared.protectedId)
      (fun cs increment => preparedFileFitsAfterEviction bytes file prepared cs increment = .ok true)
      (if mutation.changed then 2 else 1) 2 (reserveSerializedCapacityForPublish bytes file prepared mutation) := by
  unfold reserveSerializedCapacityForPublish
  dsimp only
  generalize (if mutation.changed then 2 else 1) = first
  cases hfirst : preparedFileFitsAfterEviction bytes file prepared [] first with
  | error e => exact .fails e
  | ok fit =>
    cases fit with
    | true => exact .fitting () hfirst
    | false =>
      dsimp only
      generalize recordCandidates file prepared.protectedId = cs
      split_ifs with hnil
      · exact .fails _
      · cases hall : preparedFileFitsAfterEviction bytes file prepared cs 2 with
        | error e => exact .fails e
        | ok fit =>
          cases fit with
          | false => exact .fails _
          | true =>
            dsimp only
            cases hrun : Search.bisect (fun n => preparedFileFitsAfterEviction bytes file prepared (cs.take n) 2) 0 0 cs.length with
            | error e => exact .fails e
            | ok out =>
              have hlength : preparedFileFitsAfterEviction bytes file prepared (cs.take cs.length) 2 = .ok true := by
                rw [List.take_length, hall]
              obtain ⟨hpos, hle, hfits⟩ := Search.bisect_passes (List.length_pos_iff.2 hnil) hlength hrun
              exact .removed () out.2 hpos hle hfits

theorem enforce_evicts (bytes : PrintedBytes) (file : NotificationFileV1) (mutation : HousekeepingMutation) (persistsRevision : Bool) :
    Evicts file mutation (recordCandidates file none)
      (fun cs increment => serializedFileFitsAfterEviction bytes file cs increment = .ok true)
      (persistsRevision && mutation.changed).toNat persistsRevision.toNat
      (enforceSerializedFileCap bytes file mutation persistsRevision) := by
  unfold enforceSerializedFileCap
  dsimp only
  cases hfirst : serializedFileFitsAfterEviction bytes file [] (persistsRevision && mutation.changed).toNat with
  | error e => exact .fails e
  | ok fit =>
    cases fit with
    | true => exact .fitting 1 hfirst
    | false =>
      dsimp only
      split_ifs with hnil
      · exact .fails _
      · have hne := List.length_pos_iff.2 hnil
        generalize hfits : (fun n => serializedFileFitsAfterEviction bytes file ((recordCandidates file none).take n)
          persistsRevision.toNat) = fits
        cases hgallop : Search.gallop fits (recordCandidates file none).length 1 0 1 Nat.one_pos hne with
        | error e => exact .fails e
        | ok found =>
          cases found with
          | none => exact .fails _
          | some ends =>
            obtain ⟨probes, lower, upper⟩ := ends
            obtain ⟨hlt, hlimit, hupper⟩ := Search.gallop_passes Nat.zero_lt_one hgallop
            dsimp only
            cases hrun : Search.bisect fits probes lower upper with
            | error e => exact .fails e
            | ok out =>
              obtain ⟨hlow, hle, hpasses⟩ := Search.bisect_passes hlt hupper hrun
              rw [← hfits] at hpasses
              exact .removed out.1 out.2 (by omega) (by omega) hpasses

/-- The search tidies. -/
theorem Evicts.tidies {α : Type} {cs : List RecordCandidate} {fits : List RecordCandidate → ℕ → Prop} {first again : ℕ}
    {out : EvictionOutcome α} (h : Evicts file mutation cs fits first again out) (hfile : Attached file) :
    Tidies (file, mutation) out.2 := by
  cases h with
  | fails e => exact .refl hfile
  | fitting a h => exact .refl hfile
  | removed a n hpos hle h =>
    have hremoved := removed_removeRecordCandidates file (cs.take n)
    have hscopes : ((removeRecordCandidates file (cs.take n)).partitions.map (·.scope)).Sublist (file.partitions.map (·.scope)) := by
      refine scopes_filter_map ?_ _ _
      exact fun _ => rfl
    have hnoted := Noted.foldl (fun c : RecordCandidate => [c.scope]) (fun m c => .noteRemovedRecord m c.scope)
      (cs.take n) mutation
    rw [← List.map_eq_flatMap] at hnoted
    refine .of_noted (.of_targets hfile rfl rfl hscopes hremoved.records hremoved.index) hnoted (fun hnil => ?_) fun s hs => ?_
    · -- there is a candidate among those that are removed
      have htake : (cs.take n).length = n := List.length_take_of_le hle
      rw [List.map_eq_nil_iff.1 hnil, List.length_nil] at htake
      omega
    · refine .of_targets (fun t ht hts => ?_) hremoved.records hremoved.index
      obtain ⟨c, hc, rfl⟩ := List.mem_map.1 ht
      exact hs (List.mem_map.2 ⟨c, hc, hts⟩)

end Size

/-! ## Pruning -/

section Pruning

variable {file : NotificationFileV1} {nowMs : ℕ}

theorem retainRecords_subperm (nowMs : ℕ) (items : List NotificationRecord) : (retainRecords nowMs items).Subperm items := by
  unfold retainRecords
  dsimp only
  split_ifs
  · exact ((List.take_sublist _ _).subperm.trans (perm_sortOn _ _).subperm).trans List.filter_sublist.subperm
  · exact List.filter_sublist.subperm

theorem retainRecords_le (nowMs : ℕ) (items : List NotificationRecord) :
    (retainRecords nowMs items).length ≤ maxNotificationPartitionItems := by
  unfold retainRecords
  dsimp only
  split_ifs with h
  · exact (List.length_take_le _ _)
  · omega

/-- Where none is removed, all are as they were. -/
theorem retainRecords_eq {items : List NotificationRecord} (h : items.length - (retainRecords nowMs items).length = 0) :
    retainRecords nowMs items = items := by
  have hle := retainRecords_le nowMs items
  have hkept := List.length_filter_le (fun record => !isExpired record nowMs) items
  unfold retainRecords at h hle ⊢
  dsimp only at h hle ⊢
  split_ifs at h hle ⊢ with hmany
  · rw [List.length_take, (perm_sortOn _ _).length_eq] at h hle
    omega
  · exact List.filter_sublist.eq_of_length (by omega)

theorem recordsOf_subperm {f : NotificationPartition → NotificationPartition} (hscope : ∀ p, (f p).scope = p.scope)
    (hitems : ∀ p, (f p).items.Subperm p.items) (ps : List NotificationPartition) :
    (recordsOf (ps.map f)).Subperm (recordsOf ps) := by
  induction ps with
  | nil => exact .refl _
  | cons p ps ih =>
    rw [List.map_cons, recordsOf_cons, recordsOf_cons, hscope]
    obtain ⟨l, hperm, hsub⟩ := hitems p
    have hhead : ((f p).items.map fun record => (p.scope, record)).Subperm (p.items.map fun record => (p.scope, record)) :=
      ⟨_, hperm.map _, hsub.map _⟩
    exact hhead.append ih

/-- A partition with the records that it retains. -/
def retained (nowMs : ℕ) (p : NotificationPartition) : NotificationPartition := { p with items := retainRecords nowMs p.items }

/-- The scopes of the records of a partition that are not retained. -/
def expiredScopes (nowMs : ℕ) (p : NotificationPartition) : List NotificationScope :=
  List.replicate (p.items.length - (retainRecords nowMs p.items).length) p.scope

def orphanScopes (p : NotificationPartition) : List NotificationScope :=
  if p.items = [] then [p.scope] else p.items.map fun _ => p.scope

theorem noted_noteOrphan (m : HousekeepingMutation) (p : NotificationPartition) : Noted (orphanScopes p) m (noteOrphan m p) := by
  unfold noteOrphan orphanScopes
  split_ifs
  · exact .noteScope m p.scope
  · exact .noteRemovedRecords _ m

theorem mem_orphanScopes {p : NotificationPartition} {s : NotificationScope} : s ∈ orphanScopes p ↔ s = p.scope := by
  unfold orphanScopes
  split_ifs with h
  · exact List.mem_singleton
  · obtain ⟨record, hrecord⟩ := List.exists_mem_of_ne_nil _ h
    constructor
    · intro hs
      obtain ⟨_, -, rfl⟩ := List.mem_map.1 hs
      rfl
    · rintro rfl
      exact List.mem_map.2 ⟨record, hrecord, rfl⟩

/-- The scopes of the entries that lead to no record. -/
theorem cleanup_scopes (file : NotificationFileV1) (s : NotificationScope) :
    s ∈ (cleanupSourceEventIndex file).2 ↔ ∃ e ∈ file.sourceEventIndex, e.scope = s ∧ e.target ∉ file.targets := by
  unfold cleanupSourceEventIndex
  dsimp only
  rw [List.mem_map]
  constructor
  · rintro ⟨e, he, hs⟩
    rw [List.mem_filter, Bool.not_eq_true', decide_eq_false_iff_not] at he
    exact ⟨e, he.1, hs, he.2⟩
  · rintro ⟨e, he, hs, htarget⟩
    refine ⟨e, List.mem_filter.2 ⟨he, ?_⟩, hs⟩
    rw [Bool.not_eq_true', decide_eq_false_iff_not]
    exact htarget

/-- Partitions are changed, which has been noted, and the index is cleaned up. -/
theorem Tidies.cleanup {ss : List NotificationScope} {m m' : HousekeepingMutation} {ps : List NotificationPartition}
    (hnoted : Noted ss m m') (hscopes : (ps.map (·.scope)).Sublist (file.partitions.map (·.scope)))
    (hrecords : (recordsOf ps).Subperm file.records) (hnothing : ss = [] → ps = file.partitions)
    (hsame : ∀ s, s ∉ ss → (recordsOf ps).filter (·.1 = s) = file.recordsIn s) :
    Tidies (file, m) ((cleanupSourceEventIndex { file with partitions := ps }).1,
      (cleanupSourceEventIndex { file with partitions := ps }).2.foldl HousekeepingMutation.noteScope m') := by
  have hindex : ∀ s, s ∉ (cleanupSourceEventIndex { file with partitions := ps }).2 → ∀ e ∈ file.sourceEventIndex, e.scope = s →
      e.target ∈ (recordsOf ps).map fun sr => (sr.1, sr.2.id) := by
    intro s hs e he hscope
    by_contra htarget
    exact hs ((cleanup_scopes _ s).2 ⟨e, he, hscope, htarget⟩)
  refine .of_noted (.cleanup hscopes hrecords) (hnoted.trans (.noteScopes _ m')) (fun hnil => ?_) fun s hs => ⟨?_, ?_⟩
  · obtain ⟨hss, hnone⟩ := List.append_eq_nil_iff.1 hnil
    obtain rfl := hnothing hss
    have hall : ∀ e ∈ file.sourceEventIndex, e.target ∈ file.targets := fun e he =>
      hindex e.scope (hnone ▸ List.not_mem_nil) e he rfl
    show ({ file with sourceEventIndex := _ } : NotificationFileV1) = file
    congr 1
    exact List.filter_eq_self.2 fun e he => decide_eq_true (hall e he)
  · exact hsame s fun hmem => hs (List.mem_append_left _ hmem)
  · have hkept := hindex s fun hmem => hs (List.mem_append_right _ hmem)
    unfold NotificationFileV1.entriesIn cleanupSourceEventIndex
    dsimp only
    rw [List.filter_filter]
    refine List.filter_congr fun e he => ?_
    rw [Bool.eq_iff_iff, Bool.and_eq_true, Option.all_some, decide_eq_true_eq, decide_eq_true_eq]
    exact and_iff_left_of_imp fun hscope => hkept e he hscope.symm

section Partitions

variable (file : NotificationFileV1) (configuredAccounts : Option (List String)) (nowMs : ℕ)

def isOrphaned (p : NotificationPartition) : Bool := configuredAccounts.any fun accounts => isOrphan accounts p.scope

def orphans : List NotificationPartition := (file.partitions.map (retained nowMs)).filter (isOrphaned configuredAccounts)

/-- What has been noted when the partitions are pruned. -/
def prunedMutation : HousekeepingMutation :=
  (orphans file configuredAccounts nowMs).foldl noteOrphan
    (file.partitions.foldl
      (fun m p => m.noteRemovedRecords (List.replicate (p.items.length - (retainRecords nowMs p.items).length) p.scope)) .default)

def prunedPartitions : List NotificationPartition :=
  ((file.partitions.map (retained nowMs)).filter fun p => !isOrphaned configuredAccounts p).filter fun p =>
    p.items ≠ [] || p.scope ∉ (prunedMutation file configuredAccounts nowMs).affectedScopes

def prunedScopes : List NotificationScope :=
  file.partitions.flatMap (expiredScopes nowMs) ++ (orphans file configuredAccounts nowMs).flatMap orphanScopes

theorem pruneFile_eq : pruneFile file configuredAccounts nowMs =
    enforceSourceIndexCaps
      ((cleanupSourceEventIndex { file with partitions := prunedPartitions file configuredAccounts nowMs }).1,
        (cleanupSourceEventIndex { file with partitions := prunedPartitions file configuredAccounts nowMs }).2.foldl
          HousekeepingMutation.noteScope (prunedMutation file configuredAccounts nowMs)) := rfl

theorem noted_pruned : Noted (prunedScopes file configuredAccounts nowMs) .default (prunedMutation file configuredAccounts nowMs) :=
  (Noted.foldl (expiredScopes nowMs) (fun m _ => .noteRemovedRecords _ m) file.partitions .default).trans
    (.foldl orphanScopes noted_noteOrphan _ _)

variable {file configuredAccounts nowMs}

/-- A partition of a scope that is not noted is as it was. -/
theorem retained_eq {p : NotificationPartition} (hp : p ∈ file.partitions) (hs : p.scope ∉ prunedScopes file configuredAccounts nowMs) :
    retained nowMs p = p := by
  have hnone : p.items.length - (retainRecords nowMs p.items).length = 0 := by
    by_contra hne
    exact hs (List.mem_append_left _ (List.mem_flatMap.2 ⟨p, hp, List.mem_replicate.2 ⟨hne, rfl⟩⟩))
  unfold retained
  rw [retainRecords_eq hnone]

theorem not_orphaned {p : NotificationPartition} (hp : p ∈ file.partitions) (hs : p.scope ∉ prunedScopes file configuredAccounts nowMs) :
    (!isOrphaned configuredAccounts p) = true := by
  rw [Bool.not_eq_true']
  by_contra hne
  have horphan : retained nowMs p ∈ orphans file configuredAccounts nowMs :=
    List.mem_filter.2 ⟨List.mem_map_of_mem hp, Bool.not_eq_false _ ▸ hne⟩
  exact hs (List.mem_append_right _ (List.mem_flatMap.2 ⟨_, horphan, mem_orphanScopes.2 rfl⟩))

theorem recordsOf_pruned : recordsOf (prunedPartitions file configuredAccounts nowMs) =
    recordsOf ((file.partitions.map (retained nowMs)).filter fun p => !isOrphaned configuredAccounts p) := by
  refine recordsOf_drop fun p _ hp => ?_
  rw [Bool.or_eq_false_iff, decide_eq_false_iff_not, not_not] at hp
  exact hp.1

/-- Nothing is noted only where nothing is pruned. -/
theorem prunedPartitions_eq (hs : prunedScopes file configuredAccounts nowMs = []) :
    prunedPartitions file configuredAccounts nowMs = file.partitions := by
  have hmap : file.partitions.map (retained nowMs) = file.partitions := by
    conv_rhs => rw [← List.map_id file.partitions]
    exact List.map_congr_left fun p hp => retained_eq hp (hs ▸ List.not_mem_nil)
  unfold prunedPartitions
  rw [(noted_pruned file configuredAccounts nowMs).nothing hs, hmap,
    List.filter_eq_self.2 fun p hp => not_orphaned hp (hs ▸ List.not_mem_nil)]
  exact List.filter_eq_self.2 fun p _ => by simp [HousekeepingMutation.default]

/-- The records of a scope that is not noted stay. -/
theorem recordsIn_pruned {s : NotificationScope} (hs : s ∉ prunedScopes file configuredAccounts nowMs) :
    (recordsOf (prunedPartitions file configuredAccounts nowMs)).filter (·.1 = s) = file.recordsIn s := by
  show _ = (recordsOf file.partitions).filter _
  rw [recordsOf_pruned, filter_recordsOf, filter_recordsOf, List.filter_filter, List.filter_map]
  have hown : (file.partitions.filter
      ((fun p : NotificationPartition => decide (p.scope = s) && !isOrphaned configuredAccounts p) ∘ retained nowMs)) =
        file.partitions.filter (·.scope = s) := by
    refine List.filter_congr fun p hp => ?_
    show (decide (p.scope = s) && !isOrphaned configuredAccounts p) = decide (p.scope = s)
    by_cases hscope : p.scope = s
    · rw [not_orphaned hp (hscope ▸ hs), Bool.and_true]
    · rw [decide_eq_false hscope, Bool.false_and]
  have hmap : (file.partitions.filter (·.scope = s)).map (retained nowMs) = file.partitions.filter (·.scope = s) := by
    conv_rhs => rw [← List.map_id (file.partitions.filter (·.scope = s))]
    refine List.map_congr_left fun p hp => ?_
    obtain ⟨hmem, hscope⟩ := List.mem_filter.1 hp
    exact retained_eq hmem (of_decide_eq_true hscope ▸ hs)
  rw [hown, hmap]

end Partitions

theorem tidies_pruneFile (file : NotificationFileV1) (configuredAccounts : Option (List String)) (nowMs : ℕ) :
    Tidies (file, .default) (pruneFile file configuredAccounts nowMs) := by
  have hscopes : ((prunedPartitions file configuredAccounts nowMs).map (·.scope)).Sublist (file.partitions.map (·.scope)) := by
    have hretained := scopes_filter_map (f := retained nowMs) (fun _ => rfl) (fun p => !isOrphaned configuredAccounts p) file.partitions
    exact (List.filter_sublist.map _).trans hretained
  have hrecords : (recordsOf (prunedPartitions file configuredAccounts nowMs)).Subperm file.records := by
    rw [recordsOf_pruned]
    exact (List.filter_sublist.flatMap _).subperm.trans
      (recordsOf_subperm (f := retained nowMs) (fun _ => rfl) (fun p => retainRecords_subperm nowMs p.items) file.partitions)
  have hfirst := Tidies.cleanup (noted_pruned file configuredAccounts nowMs) hscopes hrecords prunedPartitions_eq
    fun s hs => recordsIn_pruned hs
  rw [pruneFile_eq]
  exact hfirst.trans (tidies_enforceSourceIndexCaps hfirst.attached)

end Pruning

/-! ## Room for a record -/

section Oldest

variable {file file' : NotificationFileV1} {s : NotificationScope} {m : HousekeepingMutation}

/-- What is erased is not among the elements that are looked at. -/
theorem filter_eraseP {α : Type} {q r : α → Bool} (h : ∀ a, q a = true → r a = false) (l : List α) :
    (l.eraseP q).filter r = l.filter r := by
  induction l with
  | nil => rfl
  | cons a l ih =>
    cases hq : q a with
    | true => rw [List.eraseP_cons_of_pos hq, List.filter_cons_of_neg (by simp [h a hq])]
    | false => rw [List.eraseP_cons_of_neg (by simp [hq]), List.filter_cons, List.filter_cons, ih]

theorem recordsOf_eraseFirst (p : NotificationScope → NotificationRecord → Bool) (ps : List NotificationPartition) :
    recordsOf (eraseFirstRecord p ps) = (recordsOf ps).eraseP fun sr => p sr.1 sr.2 := by
  induction ps with
  | nil => rfl
  | cons partition ps ih =>
    have herase : (partition.items.map fun record => (partition.scope, record)).eraseP (fun sr => p sr.1 sr.2) =
        (partition.items.eraseP (p partition.scope)).map fun record => (partition.scope, record) := List.eraseP_map
    unfold eraseFirstRecord
    rw [recordsOf_cons]
    dsimp only
    split_ifs with hany hnil
    · obtain ⟨record, hmem, hp⟩ := List.any_eq_true.1 hany
      rw [List.eraseP_append_left (a := (partition.scope, record)) hp _ (List.mem_map_of_mem hmem), herase, hnil]
      rfl
    · obtain ⟨record, hmem, hp⟩ := List.any_eq_true.1 hany
      rw [List.eraseP_append_left (a := (partition.scope, record)) hp _ (List.mem_map_of_mem hmem), herase, recordsOf_cons]
    · rw [List.eraseP_append_right, recordsOf_cons, ih]
      intro sr hsr hp
      obtain ⟨record, hmem, rfl⟩ := List.mem_map.1 hsr
      exact hany (List.any_eq_true.2 ⟨record, hmem, hp⟩)

theorem scopes_eraseFirst (p : NotificationScope → NotificationRecord → Bool) (ps : List NotificationPartition) :
    ((eraseFirstRecord p ps).map (·.scope)).Sublist (ps.map (·.scope)) := by
  induction ps with
  | nil => exact .refl _
  | cons partition ps ih =>
    unfold eraseFirstRecord
    dsimp only
    split_ifs
    · exact List.sublist_cons_self _ _
    · exact .refl _
    · exact ih.cons_cons _

/-- The records of a scope stay, and so do the entries that lead to them. -/
theorem SameIn.of_removal (h : Removal file file') (hfile : Attached file) (hs : file'.recordsIn s = file.recordsIn s) :
    SameIn s file file' := by
  refine ⟨hs, ?_⟩
  unfold NotificationFileV1.entriesIn
  rw [h.index, List.filter_filter]
  refine List.filter_congr fun e he => ?_
  rw [Bool.eq_iff_iff, Bool.and_eq_true, Option.all_some, decide_eq_true_eq, decide_eq_true_eq]
  refine and_iff_left_of_imp fun hscope => ?_
  obtain ⟨sr, hsr, htarget⟩ := List.mem_map.1 (hfile e he)
  have hin : sr ∈ file'.recordsIn s :=
    hs ▸ List.mem_filter.2 ⟨hsr, decide_eq_true ((Prod.mk.inj htarget).1.trans hscope.symm)⟩
  exact List.mem_map.2 ⟨sr, List.mem_of_mem_filter hin, htarget⟩

theorem evictOldest_none (h : evictOldestRecord file s = none) : file.recordsIn s = [] := by
  unfold evictOldestRecord at h
  dsimp only at h
  cases hsorted : sortOn (fun record : NotificationRecord => toLex (record.createdAtMs, record.id))
    ((file.records.filter fun sr => sr.1 = s).map (·.2)) with
  | nil =>
    have hlength := (perm_sortOn (fun record : NotificationRecord => toLex (record.createdAtMs, record.id))
      ((file.records.filter fun sr => sr.1 = s).map (·.2))).length_eq
    rw [hsorted, List.length_nil, List.length_map] at hlength
    exact List.length_eq_zero_iff.1 hlength.symm
  | cons oldest others => rw [hsorted] at h; cases h

/-- What is erased is a record of the scope. -/
theorem evictOldest_some (h : evictOldestRecord file s = some file') : ∃ q : NotificationScope → NotificationRecord → Bool,
    file' = (cleanupSourceEventIndex { file with partitions := eraseFirstRecord q file.partitions }).1 ∧
      (∀ t record, q t record = true → t = s) ∧ ∃ sr ∈ file.records, q sr.1 sr.2 = true := by
  unfold evictOldestRecord at h
  dsimp only at h
  cases hsorted : sortOn (fun record : NotificationRecord => toLex (record.createdAtMs, record.id))
    ((file.records.filter fun sr => sr.1 = s).map (·.2)) with
  | nil => rw [hsorted] at h; cases h
  | cons oldest others =>
    rw [hsorted] at h
    refine ⟨_, (Option.some.inj h).symm, fun t record hq => of_decide_eq_true (Bool.and_eq_true_iff.1 hq).1, ?_⟩
    have holdest : oldest ∈ sortOn (fun record : NotificationRecord => toLex (record.createdAtMs, record.id))
        ((file.records.filter fun sr => sr.1 = s).map (·.2)) := hsorted ▸ List.mem_cons_self
    obtain ⟨sr, hsr, rfl⟩ := List.mem_map.1 (mem_sortOn.1 holdest)
    obtain ⟨hmem, hs⟩ := List.mem_filter.1 hsr
    exact ⟨sr, hmem, Bool.and_eq_true_iff.2 ⟨hs, decide_eq_true rfl⟩⟩

theorem evictOldest_spec (hfile : Attached file) (h : evictOldestRecord file s = some file') (m : HousekeepingMutation) :
    Tidies (file, m) (file', m.noteRemovedRecord s) ∧ (file'.recordsIn s).length + 1 = (file.recordsIn s).length := by
  obtain ⟨q, rfl, hscope, sr, hsr, hq⟩ := evictOldest_some h
  have hrecords : ∀ t, (cleanupSourceEventIndex { file with partitions := eraseFirstRecord q file.partitions }).1.recordsIn t =
      (file.records.eraseP fun sr => q sr.1 sr.2).filter (·.1 = t) := by
    intro t
    show (recordsOf (eraseFirstRecord q file.partitions)).filter _ = _
    rw [recordsOf_eraseFirst]
    rfl
  have hremoval : Removal file (cleanupSourceEventIndex { file with partitions := eraseFirstRecord q file.partitions }).1 := by
    refine .cleanup (scopes_eraseFirst q _) ?_
    show (recordsOf _).Subperm _
    rw [recordsOf_eraseFirst]
    exact List.eraseP_sublist.subperm
  constructor
  · refine .of_noted hremoval (.noteRemovedRecord m s) (fun hnil => absurd hnil (List.cons_ne_nil _ _)) fun t ht => ?_
    refine .of_removal hremoval hfile ((hrecords t).trans (filter_eraseP (fun sr hsr => ?_) _))
    rw [decide_eq_false_iff_not, hscope sr.1 sr.2 hsr]
    exact fun heq => ht (heq ▸ List.mem_singleton_self _)
  · obtain ⟨a, before, after, hbefore, ha, hsplit, herased⟩ := List.exists_of_eraseP (p := fun sr => q sr.1 sr.2) hsr hq
    have has : decide (a.1 = s) = true := decide_eq_true (hscope a.1 a.2 ha)
    rw [hrecords, herased]
    unfold NotificationFileV1.recordsIn
    rw [hsplit, List.filter_append, List.filter_append,
      List.filter_cons_of_pos (p := fun sr : NotificationScope × NotificationRecord => decide (sr.1 = s)) has,
      List.length_append, List.length_append, List.length_cons]
    omega

/-- The loop tidies, and leaves room in the scope. -/
theorem evictWhileFull_spec (s : NotificationScope) (n : ℕ) (st : NotificationFileV1 × HousekeepingMutation) (hfile : Attached st.1) :
    Tidies st (evictWhileFull s n st) ∧ ((st.1.partitions.map (·.scope)).Nodup → (st.1.recordsIn s).length ≤ n →
      ((evictWhileFull s n st).1.recordsIn s).length < maxNotificationPartitionItems) := by
  induction n generalizing st with
  | zero =>
    refine ⟨.refl hfile, fun _ hle => ?_⟩
    show (st.1.recordsIn s).length < 1000
    omega
  | succ n ih =>
    unfold evictWhileFull
    by_cases hfull : maxNotificationPartitionItems ≤ st.1.partitionRecordCount s
    · rw [if_pos hfull]
      cases holdest : evictOldestRecord st.1 s with
      | none =>
        refine ⟨.refl hfile, fun hscopes hle => ?_⟩
        -- a full partition has an oldest record
        rw [evictOldest_none holdest, List.length_nil]
        exact Nat.zero_lt_succ _
      | some file =>
        obtain ⟨hfirst, hcount⟩ := evictOldest_spec hfile holdest st.2
        obtain ⟨hrest, hroom⟩ := ih (file, st.2.noteRemovedRecord s) hfirst.attached
        refine ⟨hfirst.trans hrest, fun hscopes hle => hroom (hscopes.sublist hfirst.removal.scopes) ?_⟩
        show (file.recordsIn s).length ≤ n
        omega
    · rw [if_neg hfull]
      refine ⟨.refl hfile, fun hscopes _ => ?_⟩
      rw [partitionRecordCount_eq hscopes] at hfull
      omega

end Oldest

/-! ## Before a publish -/

section Prepare

variable {file : NotificationFileV1} {input : NotificationInput} {nowMs : ℕ} {st : NotificationFileV1 × HousekeepingMutation}

/-- The source event needs room in the index. -/
theorem tidies_prepare (h : prepareFileForPublish file input nowMs = .ok st) : Tidies (file, .default) st := by
  have hprune := tidies_pruneFile file none nowMs
  unfold prepareFileForPublish at h
  dsimp only at h
  generalize pruneFile file none nowMs = pruned at hprune h
  -- the index is evicted first, and then the partition
  have hend : ∀ st₁ : NotificationFileV1 × HousekeepingMutation, Tidies (file, .default) st₁ →
      (if (semanticTarget st₁.1 input).isNone then pure (evictWhileFull input.scope st₁.1.records.length st₁)
        else pure st₁ : Except NotificationError (NotificationFileV1 × HousekeepingMutation)) = .ok st →
      Tidies (file, .default) st := by
    intro st₁ hfirst hst
    split_ifs at hst
    · obtain rfl := Except.ok.inj hst
      exact hfirst.trans (evictWhileFull_spec input.scope _ st₁ hfirst.attached).1
    · obtain rfl := Except.ok.inj hst
      exact hfirst
  by_cases hsource : input.sourceEventId.isSome
  · rw [if_pos hsource] at h
    obtain ⟨-, -, h⟩ := bind_eq_ok.1 h
    refine hend _ (hprune.trans ?_) h
    exact .trans (tidies_evictNoting hprune.attached _ _ _) (tidies_evictNoting (tidies_evictNoting hprune.attached _ _ _).attached _ _ _)
  · rw [if_neg hsource] at h
    exact hend pruned hprune h

end Prepare

/-! ## All of it -/

/-- **The housekeeping removes records and the entries that lead to them, and nothing else.** Each of
its functions leaves the schema version and the revision as they are, does nothing unless its mutation
says that something has changed, and changes no scope that its mutation does not name. -/
theorem housekeeping_tidies (bytes : PrintedBytes) (file : NotificationFileV1) (nowMs : ℕ) :
    (∀ configuredAccounts, Tidies (file, .default) (pruneFile file configuredAccounts nowMs)) ∧
      (∀ input st, prepareFileForPublish file input nowMs = .ok st → Tidies (file, .default) st) ∧
      (Attached file → ∀ mutation, Tidies (file, mutation) (enforceSourceIndexCaps (file, mutation)) ∧
        (∀ prepared, Tidies (file, mutation) (reserveSerializedCapacityForPublish bytes file prepared mutation).2) ∧
        ∀ persistsRevision, Tidies (file, mutation) (enforceSerializedFileCap bytes file mutation persistsRevision).2) :=
  ⟨fun configuredAccounts => tidies_pruneFile file configuredAccounts nowMs, fun _ _ h => tidies_prepare h, fun hfile mutation =>
    ⟨tidies_enforceSourceIndexCaps hfile, fun prepared => (reserve_evicts bytes file prepared mutation).tidies hfile,
      fun persistsRevision => (enforce_evicts bytes file mutation persistsRevision).tidies hfile⟩⟩

def sampleNotificationRecord (id : String) (createdAtMs : ℕ) : NotificationRecord :=
  { id := id
    scope := .global
    category := .connectionSystem
    kind := .connectionRecovered
    severity := .info
    content := ⟨"connection.recovered", [("channel", .string "api")], "连接已恢复", "交易连接已恢复。"⟩
    entity := none
    action := none
    sourceEventId := none
    dedupeKey := "connection:" ++ id
    occurrenceCount := 1
    createdAtMs := createdAtMs
    updatedAtMs := createdAtMs
    readAtMs := none }

def olderNotification : NotificationRecord := sampleNotificationRecord "00000000-0000-4000-8000-000000000000" 4

def newerNotification : NotificationRecord := sampleNotificationRecord "00000000-0000-4000-8000-000000000001" 5

namespace IndexedSample

/-- Both records were made of a source event. -/
def older : NotificationRecord := { olderNotification with sourceEventId := some "event-1" }

def newer : NotificationRecord := { newerNotification with sourceEventId := some "event-2" }

def indexed : NotificationFileV1 :=
  ⟨1, 7, [⟨.global, "event-1", older.id⟩, ⟨.global, "event-2", newer.id⟩], [⟨.global, [newer, older]⟩]⟩

/-- The older record is gone, with its entry. -/
def tidied : NotificationFileV1 := ⟨1, 7, [⟨.global, "event-2", newer.id⟩], [⟨.global, [newer]⟩]⟩

/-- The file has room for one record. -/
def bulky : PrintedBytes := ⟨fun _ => 10000000, fun _ => 40, fun _ => 100⟩

end IndexedSample

open IndexedSample in
/-- The older record goes when it expires, and when the file is too large. -/
theorem housekeeping_tidies_sample :
    let pruned := pruneFile indexed none (retentionMs + 5)
    let searched := (enforceSerializedFileCap bulky indexed .default true).2
    Attached indexed ∧
      (pruned.1 = tidied ∧ pruned.2.affectedScopes = [.global] ∧ Tidies (indexed, .default) pruned) ∧
      (searched.1 = tidied ∧ searched.2.affectedScopes = [.global] ∧ Tidies (indexed, .default) searched) := by
  intro pruned searched
  have hfile : Attached indexed := by
    unfold Attached
    decide +kernel
  obtain ⟨hprune, -, hcaps⟩ := housekeeping_tidies bulky indexed (retentionMs + 5)
  exact ⟨hfile, ⟨by decide +kernel, by decide +kernel, hprune none⟩, by decide +kernel, by decide +kernel, (hcaps hfile .default).2.2 true⟩

end EasiFlux
