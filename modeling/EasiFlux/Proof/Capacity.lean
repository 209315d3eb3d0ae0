import EasiFlux.Model.Capacity

/-!
# Eviction for the size limit

Removing records makes the printed file smaller, also when a publish is applied afterwards: its
record goes into a partition that is still there, or into a new one that costs no more than the one
that was removed (`cost_pushRecord_keep`). So what fits is upward closed (`Trials`), and the two
searches find the shortest prefix of the oldest records.

* `recordCandidates_spec`, `removed_removeRecordCandidates`: what may be removed, and what a removal leaves.
* **`eviction_least`**: when the two functions succeed, and what they remove then, if the file does not
  fit only without its empty partitions: the first trial leaves these out, and is not what is kept.
* `empty_partition_left`: a file over the limit that is left so.
-/

namespace EasiFlux

open SortOn

variable {bytes : PrintedBytes} {file : NotificationFileV1} {r : NotificationRecord}

/-! ## Printed sizes -/

theorem printedArray_of_ne {depth : ℕ} {sizes : List ℕ} (h : sizes ≠ []) :
    printedArray depth sizes = (sizes.map fun size => size + 2 * depth + 2).sum + 2 * depth := by
  unfold printedArray
  rw [if_neg h]

theorem two_le_printedArray {depth : ℕ} (hd : 1 ≤ depth) (sizes : List ℕ) : 2 ≤ printedArray depth sizes := by
  unfold printedArray
  split_ifs
  · omega
  · omega

/-- Fewer elements take less. -/
theorem printedArray_sublist (depth : ℕ) (hd : 1 ≤ depth) {sizes sizes' : List ℕ} (h : sizes.Sublist sizes') :
    printedArray depth sizes ≤ printedArray depth sizes' := by
  by_cases hnil : sizes = []
  · rw [hnil]
    exact two_le_printedArray hd sizes'
  · have hne : sizes' ≠ [] := by
      rintro rfl
      exact hnil (List.sublist_nil.1 h)
    rw [printedArray_of_ne hnil, printedArray_of_ne hne]
    have hsum := (h.map fun size => size + 2 * depth + 2).sum_le_sum fun _ _ => Nat.zero_le _
    omega

theorem printedNumber_mono {m n : ℕ} (h : m ≤ n) : printedNumber m ≤ printedNumber n := by
  unfold printedNumber
  have hlog := Nat.log_mono_right (b := 10) h
  omega

/-! ## Partitions -/

/-- What is left of the partitions with some of their records. -/
def keepRecords (keep : NotificationScope → NotificationRecord → Bool) (partitions : List NotificationPartition) :
    List NotificationPartition :=
  (partitions.map fun p => { p with items := p.items.filter (keep p.scope) }).filter fun p => p.items ≠ []

/-- The bytes a partition adds to the array. -/
def partitionCost (bytes : PrintedBytes) (p : NotificationPartition) : ℕ := printedPartition bytes p + 6

def partitionsCost (bytes : PrintedBytes) (partitions : List NotificationPartition) : ℕ :=
  (partitions.map (partitionCost bytes)).sum

section Partitions

variable {keep keep' : NotificationScope → NotificationRecord → Bool} {p : NotificationPartition}
  {ps qs : List NotificationPartition}

theorem keepRecords_cons (keep : NotificationScope → NotificationRecord → Bool) (p : NotificationPartition)
    (ps : List NotificationPartition) : keepRecords keep (p :: ps) =
      if p.items.filter (keep p.scope) = [] then keepRecords keep ps
      else { p with items := p.items.filter (keep p.scope) } :: keepRecords keep ps := by
  unfold keepRecords
  rw [List.map_cons]
  by_cases h : p.items.filter (keep p.scope) = []
  · rw [List.filter_cons_of_neg (by simpa using h), if_pos h]
  · rw [List.filter_cons_of_pos (by simpa using h), if_neg h]

theorem items_keepRecords (keep : NotificationScope → NotificationRecord → Bool) (ps : List NotificationPartition) :
    ∀ p ∈ keepRecords keep ps, p.items ≠ [] := fun _ h => by simpa using (List.mem_filter.1 h).2

/-- Removing more removes what was removed before. -/
theorem keepRecords_keepRecords (h : ∀ s r, keep' s r = true → keep s r = true) (ps : List NotificationPartition) :
    keepRecords keep' (keepRecords keep ps) = keepRecords keep' ps := by
  have hitems : ∀ p : NotificationPartition, (p.items.filter (keep p.scope)).filter (keep' p.scope) =
      p.items.filter (keep' p.scope) := by
    intro p
    rw [List.filter_filter]
    refine List.filter_congr fun r _ => ?_
    by_cases hr : keep' p.scope r = true
    · simp [hr, h p.scope r hr]
    · simp [hr]
  induction ps with
  | nil => rfl
  | cons p ps ih =>
    rw [keepRecords_cons keep, keepRecords_cons keep' p]
    by_cases hnil : p.items.filter (keep p.scope) = []
    · rw [if_pos hnil, ih, ← hitems p, hnil, if_pos (by rfl)]
    · rw [if_neg hnil, keepRecords_cons, ih, hitems p]

variable (bytes) in
theorem partitionCost_sublist {items items' : List NotificationRecord} (h : items.Sublist items') (s : NotificationScope) :
    partitionCost bytes ⟨s, items⟩ ≤ partitionCost bytes ⟨s, items'⟩ := by
  have hle := printedArray_sublist 4 (by omega) (h.map bytes.record)
  unfold partitionCost printedPartition
  dsimp only
  omega

theorem partitionsCost_cons (p : NotificationPartition) (ps : List NotificationPartition) :
    partitionsCost bytes (p :: ps) = partitionCost bytes p + partitionsCost bytes ps := by
  simp [partitionsCost]

variable (bytes) in
theorem cost_keepRecords (keep : NotificationScope → NotificationRecord → Bool) (ps : List NotificationPartition) :
    partitionsCost bytes (keepRecords keep ps) ≤ partitionsCost bytes ps := by
  induction ps with
  | nil => exact le_rfl
  | cons p ps ih =>
    have hle : partitionCost bytes { p with items := p.items.filter (keep p.scope) } ≤ partitionCost bytes p :=
      partitionCost_sublist bytes List.filter_sublist p.scope
    rw [keepRecords_cons, partitionsCost_cons]
    split_ifs
    · omega
    · rw [partitionsCost_cons]
      omega

theorem partitionCost_push (hne : p.items ≠ []) :
    partitionCost bytes { p with items := p.items ++ [r] } = partitionCost bytes p + bytes.record r + 10 := by
  unfold partitionCost printedPartition
  rw [printedArray_of_ne (by simp), printedArray_of_ne (by simpa using hne)]
  simp only [List.map_append, List.map_cons, List.map_nil, List.sum_append, List.sum_cons, List.sum_nil]
  omega

variable (bytes) in
/-- A partition with a record costs at least as much as an empty one of its scope. -/
theorem le_partitionCost (hne : p.items ≠ []) : bytes.scope p.scope + 64 ≤ partitionCost bytes p := by
  obtain ⟨x, xs, hx⟩ := List.exists_cons_of_ne_nil hne
  unfold partitionCost printedPartition
  rw [printedArray_of_ne (by simpa using hne), hx]
  simp only [List.map_cons, List.sum_cons]
  omega

theorem partitionCost_single (r : NotificationRecord) :
    partitionCost bytes ⟨r.scope, [r]⟩ = bytes.scope r.scope + bytes.record r + 64 := by
  unfold partitionCost printedPartition
  rw [printedArray_of_ne (by simp)]
  simp only [List.map_cons, List.map_nil, List.sum_cons, List.sum_nil]
  omega

variable (bytes) in
theorem cost_pushRecord_le (r : NotificationRecord) (hne : ∀ p ∈ ps, p.items ≠ []) :
    partitionsCost bytes (pushRecord r ps) ≤ partitionsCost bytes ps + partitionCost bytes ⟨r.scope, [r]⟩ := by
  induction ps with
  | nil => simp [pushRecord, partitionsCost]
  | cons p ps ih =>
    have ih := ih fun q hq => hne q (List.mem_cons_of_mem _ hq)
    have hp := hne p List.mem_cons_self
    unfold pushRecord
    split_ifs with hs
    · rw [partitionsCost_cons, partitionsCost_cons, partitionCost_push hp, partitionCost_single]
      omega
    · rw [partitionsCost_cons, partitionsCost_cons]
      omega

/-- With fewer records the publish costs less. -/
theorem cost_pushRecord_keep (keep : NotificationScope → NotificationRecord → Bool) (ps : List NotificationPartition) :
    partitionsCost bytes (pushRecord r (keepRecords keep ps)) ≤ partitionsCost bytes (pushRecord r ps) := by
  induction ps with
  | nil => exact le_rfl
  | cons p ps ih =>
    have hpush := cost_pushRecord_le bytes r (items_keepRecords keep ps)
    have hkeep := cost_keepRecords bytes keep ps
    have hle : partitionCost bytes { p with items := p.items.filter (keep p.scope) } ≤ partitionCost bytes p :=
      partitionCost_sublist bytes List.filter_sublist p.scope
    rw [keepRecords_cons, pushRecord]
    by_cases hs : p.scope = r.scope
    · rw [if_pos hs, partitionsCost_cons]
      by_cases hp : p.items = []
      · -- the partition was empty: the record has one of its own either way
        have hsingle : ({ p with items := p.items ++ [r] } : NotificationPartition) = ⟨r.scope, [r]⟩ := by rw [hp, hs]; rfl
        rw [hsingle, hp, List.filter_nil, if_pos rfl]
        omega
      · rw [partitionCost_push hp]
        split_ifs with hnil
        · -- the partition is gone: a new one costs no more
          have hcost := le_partitionCost bytes hp
          rw [partitionCost_single] at hpush
          rw [hs] at hcost
          omega
        · rw [pushRecord, if_pos hs, partitionsCost_cons,
            partitionCost_push (p := { p with items := p.items.filter (keep p.scope) }) hnil]
          omega
    · rw [if_neg hs, partitionsCost_cons]
      split_ifs with hnil
      · omega
      · rw [pushRecord, if_neg hs, partitionsCost_cons]
        omega

theorem replaceRecord_filter {q : NotificationRecord → Bool} (hq : ∀ x, x.id = r.id → q x = true)
    {items new : List NotificationRecord} (h : replaceRecord r items = some new) :
    ∃ new', replaceRecord r (items.filter q) = some new' ∧ new'.Sublist new ∧ items.filter q ≠ [] := by
  induction items generalizing new with
  | nil => cases h
  | cons x items ih =>
    unfold replaceRecord at h
    by_cases hid : x.id = r.id
    · rw [if_pos hid, Option.some.injEq] at h
      subst h
      rw [List.filter_cons_of_pos (hq x hid), replaceRecord, if_pos hid]
      exact ⟨_, rfl, List.filter_sublist.cons_cons r, by simp⟩
    · rw [if_neg hid] at h
      obtain ⟨rest, hrest, rfl⟩ := Option.map_eq_some_iff.1 h
      obtain ⟨new', hnew, hsub, hne⟩ := ih hrest
      by_cases hx : q x = true
      · rw [List.filter_cons_of_pos hx, replaceRecord, if_neg hid, hnew]
        exact ⟨_, rfl, hsub.cons_cons x, by simp⟩
      · rw [List.filter_cons_of_neg hx]
        exact ⟨new', hnew, hsub.cons x, hne⟩

variable (bytes) in
/-- The record that is replaced is still there. -/
theorem replaceInPartition_keep (hkeep : ∀ s x, x.id = r.id → keep s x = true) (h : replaceInPartition r ps = some qs) :
    ∃ qs', replaceInPartition r (keepRecords keep ps) = some qs' ∧ partitionsCost bytes qs' ≤ partitionsCost bytes qs := by
  induction ps generalizing qs with
  | nil => cases h
  | cons p ps ih =>
    unfold replaceInPartition at h
    rw [keepRecords_cons]
    by_cases hs : p.scope = r.scope
    · rw [if_pos hs] at h
      obtain ⟨items, hitems, rfl⟩ := Option.map_eq_some_iff.1 h
      obtain ⟨items', hitems', hsub, hne⟩ := replaceRecord_filter (hkeep p.scope) hitems
      rw [if_neg hne, replaceInPartition, if_pos hs, hitems']
      refine ⟨_, rfl, ?_⟩
      have hle := partitionCost_sublist bytes hsub p.scope
      have hrest := cost_keepRecords bytes keep ps
      rw [partitionsCost_cons, partitionsCost_cons]
      exact Nat.add_le_add hle hrest
    · rw [if_neg hs] at h
      obtain ⟨rest, hrest, rfl⟩ := Option.map_eq_some_iff.1 h
      obtain ⟨qs', hqs', hle⟩ := ih hrest
      have hp : partitionCost bytes { p with items := p.items.filter (keep p.scope) } ≤ partitionCost bytes p :=
        partitionCost_sublist bytes List.filter_sublist p.scope
      rw [partitionsCost_cons]
      split_ifs with hnil
      · exact ⟨qs', hqs', by omega⟩
      · rw [replaceInPartition, if_neg hs, hqs']
        refine ⟨_, rfl, ?_⟩
        rw [partitionsCost_cons]
        omega

end Partitions

/-! ## Files -/

section Files

variable {prepared : PreparedPublish} {cs cs' : List RecordCandidate} {t : NotificationFileV1}

/-- The same file with less in it. -/
structure Smaller (bytes : PrintedBytes) (t' t : NotificationFileV1) : Prop where
  schemaVersion : t'.schemaVersion = t.schemaVersion
  revision : t'.revision = t.revision
  index : t'.sourceEventIndex.Sublist t.sourceEventIndex
  partitions : printedArray 2 (t'.partitions.map (printedPartition bytes)) ≤ printedArray 2 (t.partitions.map (printedPartition bytes))

/-- It takes less space, with a revision that is no longer. -/
theorem Smaller.size {t' t : NotificationFileV1} (h : Smaller bytes t' t) {rev rev' : ℕ} (hrev : rev' ≤ rev) :
    serializedSize bytes { t' with revision := rev' } ≤ serializedSize bytes { t with revision := rev } := by
  have hindex := printedArray_sublist 2 (by omega) (h.index.map bytes.entry)
  have hnumber := printedNumber_mono hrev
  have hparts := h.partitions
  unfold serializedSize
  simp only [h.schemaVersion]
  omega

theorem printedPartitions_of_ne {ps : List NotificationPartition} (h : ps ≠ []) :
    printedArray 2 (ps.map (printedPartition bytes)) = partitionsCost bytes ps + 4 := by
  rw [printedArray_of_ne (by simpa using h), List.map_map]
  rfl

theorem printedPartitions_le {ps qs : List NotificationPartition} (hps : ps ≠ []) (hqs : qs ≠ [])
    (h : partitionsCost bytes ps ≤ partitionsCost bytes qs) :
    printedArray 2 (ps.map (printedPartition bytes)) ≤ printedArray 2 (qs.map (printedPartition bytes)) := by
  rw [printedPartitions_of_ne hps, printedPartitions_of_ne hqs]
  omega

def keeps (cs : List RecordCandidate) (s : NotificationScope) (r : NotificationRecord) : Bool :=
  (s, r.id) ∉ cs.map RecordCandidate.target

theorem removeRecordCandidates_eq (file : NotificationFileV1) (cs : List RecordCandidate) :
    removeRecordCandidates file cs =
      { file with
        partitions := keepRecords (keeps cs) file.partitions
        sourceEventIndex := file.sourceEventIndex.filter fun e => (e.scope, e.notificationId) ∉ cs.map RecordCandidate.target } :=
  rfl

theorem remove_remove (h : cs ⊆ cs') (file : NotificationFileV1) :
    removeRecordCandidates (removeRecordCandidates file cs) cs' = removeRecordCandidates file cs' := by
  have htargets : ∀ x, x ∉ cs'.map RecordCandidate.target → x ∉ cs.map RecordCandidate.target := fun x hx hx' =>
    hx (List.map_subset _ h hx')
  have hkeep : ∀ s r, keeps cs' s r = true → keeps cs s r = true := by
    intro s r hr
    simp only [keeps, decide_eq_true_eq] at hr ⊢
    exact htargets _ hr
  simp only [removeRecordCandidates_eq, keepRecords_keepRecords hkeep, List.filter_filter]
  congr 1
  refine List.filter_congr fun e _ => ?_
  rw [Bool.eq_iff_iff, Bool.and_eq_true, decide_eq_true_eq, decide_eq_true_eq]
  exact and_iff_left_of_imp (htargets _)

variable (bytes) in
theorem smaller_remove (file : NotificationFileV1) (cs : List RecordCandidate) :
    Smaller bytes (removeRecordCandidates file cs) file := by
  refine ⟨rfl, rfl, List.filter_sublist, ?_⟩
  show printedArray 2 ((keepRecords (keeps cs) file.partitions).map _) ≤ _
  by_cases hnil : keepRecords (keeps cs) file.partitions = []
  · rw [hnil]
    exact two_le_printedArray (by omega) _
  · refine printedPartitions_le hnil ?_ (cost_keepRecords bytes _ _)
    intro hps
    rw [hps] at hnil
    exact hnil rfl

theorem pushRecord_ne (r : NotificationRecord) (ps : List NotificationPartition) : pushRecord r ps ≠ [] := by
  cases ps with
  | nil => simp [pushRecord]
  | cons p ps =>
    unfold pushRecord
    split_ifs <;> simp

theorem replaceInPartition_ne {ps qs : List NotificationPartition} (h : replaceInPartition r ps = some qs) : qs ≠ [] := by
  cases ps with
  | nil => cases h
  | cons p ps =>
    unfold replaceInPartition at h
    split_ifs at h
    · obtain ⟨items, -, rfl⟩ := Option.map_eq_some_iff.1 h
      simp
    · obtain ⟨rest, -, rfl⟩ := Option.map_eq_some_iff.1 h
      simp

variable (bytes) in
/-- Whether a publish can be applied does not depend on what is removed, and the result is smaller. -/
theorem apply_remove (cs : List RecordCandidate) (hcs : ∀ c ∈ cs, prepared.protectedId ≠ some c.id)
    (h : applyPreparedToFile file prepared = .ok t) :
    ∃ t', applyPreparedToFile (removeRecordCandidates file cs) prepared = .ok t' ∧ Smaller bytes t' t := by
  have hindex : (file.sourceEventIndex.filter (fun e => (e.scope, e.notificationId) ∉ cs.map RecordCandidate.target) ++
      prepared.sourceEntry.toList).Sublist (file.sourceEventIndex ++ prepared.sourceEntry.toList) :=
    List.filter_sublist.append (List.Sublist.refl _)
  rw [removeRecordCandidates_eq]
  unfold applyPreparedToFile at h ⊢
  cases hchange : prepared.change with
  | created =>
    rw [hchange] at h
    obtain rfl := Except.ok.inj h
    exact ⟨_, rfl, rfl, rfl, hindex, printedPartitions_le (pushRecord_ne _ _) (pushRecord_ne _ _) (cost_pushRecord_keep _ _)⟩
  | updated =>
    rw [hchange] at h
    dsimp only at h ⊢
    cases hreplace : replaceInPartition prepared.record file.partitions with
    | none => rw [hreplace] at h; cases h
    | some partitions =>
      rw [hreplace] at h
      obtain rfl := Except.ok.inj h
      -- the record that is updated is not among those that are removed
      have hkeep : ∀ s x, x.id = prepared.record.id → keeps cs s x = true := by
        intro s x hid
        simp only [keeps, decide_eq_true_eq, List.mem_map, not_exists, not_and]
        intro c hc htarget
        refine hcs c hc ?_
        unfold PreparedPublish.protectedId
        rw [if_pos hchange, ← hid, ← (Prod.mk.inj htarget).2]
      obtain ⟨partitions', hreplace', hcost⟩ := replaceInPartition_keep bytes hkeep hreplace
      rw [hreplace']
      exact ⟨_, rfl, rfl, rfl, hindex, printedPartitions_le (replaceInPartition_ne hreplace') (replaceInPartition_ne hreplace) hcost⟩
  | removed => rw [hchange] at h; cases h
  | reset => rw [hchange] at h; cases h

end Files

/-! ## Trials -/

/-- A trial removes so many candidates, and counts the revision up. -/
structure Trials (revision : ℕ) (trial : ℕ → ℕ → Except NotificationError Bool) (fits : ℕ → ℕ → Bool) : Prop where
  run : ∀ n inc, trial n inc = if revision + inc < 2 ^ 64 then .ok (fits n inc) else .error .revisionExhausted
  mono : ∀ {m n inc inc'}, m ≤ n → inc' ≤ inc → fits m inc = true → fits n inc' = true

section Trials

variable {prepared : PreparedPublish} {cs : List RecordCandidate} {t : NotificationFileV1}

theorem fitsLimit_smaller {t' t : NotificationFileV1} (h : Smaller bytes t' t) {rev rev' : ℕ} (hrev : rev' ≤ rev)
    (hfits : notificationFileFitsSerializedLimit bytes { t with revision := rev } = true) :
    notificationFileFitsSerializedLimit bytes { t' with revision := rev' } = true := by
  have hsize := h.size hrev
  unfold notificationFileFitsSerializedLimit at hfits ⊢
  rw [decide_eq_true_eq] at hfits ⊢
  omega

theorem take_subset_take {m n : ℕ} (h : m ≤ n) (cs : List RecordCandidate) : cs.take m ⊆ cs.take n :=
  (List.take_prefix_take_left h).subset

theorem apply_revision (h : applyPreparedToFile file prepared = .ok t) : t.revision = file.revision := by
  unfold applyPreparedToFile at h
  cases hchange : prepared.change with
  | created =>
    rw [hchange] at h
    obtain rfl := Except.ok.inj h
    rfl
  | updated =>
    rw [hchange] at h
    dsimp only at h
    cases hreplace : replaceInPartition prepared.record file.partitions with
    | none => rw [hreplace] at h; cases h
    | some partitions =>
      rw [hreplace] at h
      obtain rfl := Except.ok.inj h
      rfl
  | removed => rw [hchange] at h; cases h
  | reset => rw [hchange] at h; cases h

theorem serialized_trials (bytes : PrintedBytes) (file : NotificationFileV1) (cs : List RecordCandidate) :
    Trials file.revision (fun n inc => serializedFileFitsAfterEviction bytes file (cs.take n) inc) fun n inc =>
      notificationFileFitsSerializedLimit bytes
        { removeRecordCandidates file (cs.take n) with revision := file.revision + inc } := by
  refine ⟨fun n inc => ?_, fun {m n inc inc'} hmn hinc hfits => ?_⟩
  · unfold serializedFileFitsAfterEviction checkedRevision
    rw [show (removeRecordCandidates file (cs.take n)).revision = file.revision from rfl]
    split_ifs <;> rfl
  · have hsmaller := smaller_remove bytes (removeRecordCandidates file (cs.take m)) (cs.take n)
    rw [remove_remove (take_subset_take hmn cs)] at hsmaller
    exact fitsLimit_smaller hsmaller (by omega) hfits

variable (bytes) in
/-- Once the publish can be applied, all trials are made. -/
theorem prepared_trials (hcs : ∀ c ∈ cs, prepared.protectedId ≠ some c.id)
    (h : applyPreparedToFile (removeRecordCandidates file []) prepared = .ok t) :
    ∃ fits, Trials file.revision (fun n inc => preparedFileFitsAfterEviction bytes file prepared (cs.take n) inc) fits := by
  have happly : ∀ n, ∃ t', applyPreparedToFile (removeRecordCandidates file (cs.take n)) prepared = .ok t' ∧
      t'.revision = file.revision := by
    intro n
    obtain ⟨t', ht', -⟩ := apply_remove bytes (cs.take n) (fun c hc => hcs c (List.mem_of_mem_take hc)) h
    rw [remove_remove (List.nil_subset _)] at ht'
    have hrevision := apply_revision ht'
    exact ⟨t', ht', hrevision⟩
  choose result hresult hrevision using happly
  refine ⟨fun n inc => notificationFileFitsSerializedLimit bytes { result n with revision := file.revision + inc },
    fun n inc => ?_, fun {m n inc inc'} hmn hinc hfits => ?_⟩
  · unfold preparedFileFitsAfterEviction
    rw [hresult n]
    show (checkedRevision (result n) inc).bind _ = _
    unfold checkedRevision
    rw [hrevision n]
    split_ifs <;> rfl
  · obtain ⟨t', ht', hsmaller⟩ := apply_remove bytes (cs.take n) (fun c hc => hcs c (List.mem_of_mem_take hc)) (hresult m)
    rw [remove_remove (take_subset_take hmn cs), hresult n] at ht'
    obtain rfl := Except.ok.inj ht'
    exact fitsLimit_smaller hsmaller (by omega) hfits

end Trials

/-! ## Eviction -/

section Eviction

variable {prepared : PreparedPublish} {mutation : HousekeepingMutation}

/-- What is removed: the records of the candidates, with their index entries. -/
structure Removed (selected : List RecordCandidate) (file file' : NotificationFileV1) : Prop where
  schemaVersion : file'.schemaVersion = file.schemaVersion
  revision : file'.revision = file.revision
  records : file'.records = file.records.filter fun sr => (sr.1, sr.2.id) ∉ selected.map RecordCandidate.target
  index : file'.sourceEventIndex =
    file.sourceEventIndex.filter fun e => (e.scope, e.notificationId) ∉ selected.map RecordCandidate.target

theorem records_keepRecords (keep : NotificationScope → NotificationRecord → Bool) (ps : List NotificationPartition) :
    ((keepRecords keep ps).flatMap fun p => p.items.map fun r => (p.scope, r)) =
      (ps.flatMap fun p => p.items.map fun r => (p.scope, r)).filter fun sr => keep sr.1 sr.2 := by
  induction ps with
  | nil => rfl
  | cons p ps ih =>
    have hitems : (p.items.filter (keep p.scope)).map (fun r => (p.scope, r)) =
        (p.items.map fun r => (p.scope, r)).filter fun sr => keep sr.1 sr.2 := by
      rw [List.filter_map]
      rfl
    rw [keepRecords_cons, List.flatMap_cons, List.filter_append, ← hitems, ← ih]
    split_ifs with hnil
    · rw [hnil]
      rfl
    · rw [List.flatMap_cons]

theorem removed_removeRecordCandidates (file : NotificationFileV1) (selected : List RecordCandidate) :
    Removed selected file (removeRecordCandidates file selected) :=
  ⟨rfl, rfl, records_keepRecords (keeps selected) file.partitions, rfl⟩

/-- The candidates are the records but the protected one, in the order of their times and ids. -/
theorem recordCandidates_spec (file : NotificationFileV1) (protectedId : Option String) :
    (recordCandidates file protectedId).Perm
        ((file.records.filter fun sr => protectedId ≠ some sr.2.id).map fun sr => ⟨sr.2.createdAtMs, sr.2.id, sr.1⟩) ∧
      (recordCandidates file protectedId).Pairwise fun c d => toLex (c.createdAtMs, c.id) ≤ toLex (d.createdAtMs, d.id) :=
  ⟨perm_sortOn _ _, pairwise_sortOn _ _⟩

theorem recordCandidates_unprotected (file : NotificationFileV1) (protectedId : Option String) :
    ∀ c ∈ recordCandidates file protectedId, protectedId ≠ some c.id := by
  intro c hc
  obtain ⟨sr, hsr, rfl⟩ := List.mem_map.1 ((recordCandidates_spec file protectedId).1.mem_iff.1 hc)
  simpa using (List.mem_filter.1 hsr).2

/-- What is left without the candidates: their records are gone with their index entries, and the
partitions without a record. Where nothing is removed, nothing changes. -/
def evicted (file : NotificationFileV1) (cs : List RecordCandidate) : NotificationFileV1 :=
  if cs = [] then file
  else { file with
    partitions := keepRecords (keeps cs) file.partitions
    sourceEventIndex := file.sourceEventIndex.filter fun e => (e.scope, e.notificationId) ∉ cs.map RecordCandidate.target }

def withoutEmpty (file : NotificationFileV1) : NotificationFileV1 :=
  { file with partitions := file.partitions.filter fun p => p.items ≠ [] }

/-- What is made of the file can be saved: with the next revision it is not too long. -/
def FitsSaved (bytes : PrintedBytes) (apply : NotificationFileV1 → Except NotificationError NotificationFileV1) (increment : ℕ)
    (file : NotificationFileV1) : Prop :=
  ∃ t, apply file = .ok t ∧ t.revision + increment < 2 ^ 64 ∧
    serializedSize bytes { t with revision := t.revision + increment } ≤ maxNotificationFileBytes

/-- The outcome of a search for the shortest prefix of `cs` without which the file fits, first as it is
and then with another revision. -/
structure LeastEviction {α : Type} (file : NotificationFileV1) (mutation : HousekeepingMutation) (cs : List RecordCandidate)
    (able : Prop) (fits : ℕ → NotificationFileV1 → Prop) (first again : ℕ) (out : EvictionOutcome α) : Prop where
  succeeds : (∃ a, out.1 = .ok a) ↔ able ∧ (fits first file ∨ fits again (evicted file cs))
  kept : fits first file → out.2 = (file, mutation)
  failed : (∃ e, out.1 = .error e) → out.2 = (file, mutation)
  removed : (∃ a, out.1 = .ok a) → ¬fits first file → ∃ n, 0 < n ∧ n ≤ cs.length ∧ fits again (evicted file (cs.take n)) ∧
    (∀ m < n, ¬fits again (evicted file (cs.take m))) ∧ out.2 = (evicted file (cs.take n), noteCandidates mutation (cs.take n))

theorem remove_nil (file : NotificationFileV1) : removeRecordCandidates file [] = withoutEmpty file := by
  simp [removeRecordCandidates, withoutEmpty]

theorem evicted_nil (file : NotificationFileV1) : evicted file [] = file := if_pos rfl

theorem evicted_of_ne {cs : List RecordCandidate} (h : cs ≠ []) (file : NotificationFileV1) :
    evicted file cs = removeRecordCandidates file cs := if_neg h

/-- Where a record is removed, the file changes. -/
theorem evicted_ne {cs : List RecordCandidate} (hne : cs ≠ [])
    (hcs : ∀ c ∈ cs, ∃ sr ∈ file.records, (sr.1, sr.2.id) = c.target) : evicted file cs ≠ file := by
  obtain ⟨c, cs', rfl⟩ := List.exists_cons_of_ne_nil hne
  obtain ⟨sr, hsr, htarget⟩ := hcs c List.mem_cons_self
  intro heq
  have hrecords := (removed_removeRecordCandidates file (c :: cs')).records
  rw [← evicted_of_ne hne, heq] at hrecords
  rw [hrecords, List.mem_filter, decide_eq_true_eq, htarget] at hsr
  exact hsr.2 List.mem_cons_self

theorem target_recordCandidates (file : NotificationFileV1) (protectedId : Option String) :
    ∀ c ∈ recordCandidates file protectedId, ∃ sr ∈ file.records, (sr.1, sr.2.id) = c.target := by
  intro c hc
  obtain ⟨sr, hsr, rfl⟩ := List.mem_map.1 ((recordCandidates_spec file protectedId).1.mem_iff.1 hc)
  exact ⟨sr, (List.mem_filter.1 hsr).1, rfl⟩

/-- A trial fits when the file of the trial can be saved. -/
theorem trial_iff (apply : NotificationFileV1 → Except NotificationError NotificationFileV1) (f : NotificationFileV1) (inc : ℕ) :
    (apply f).bind (fun t => (checkedRevision t inc).bind fun t => .ok (notificationFileFitsSerializedLimit bytes t)) = .ok true ↔
      FitsSaved bytes apply inc f := by
  unfold FitsSaved checkedRevision
  cases apply f with
  | error e => exact ⟨nofun, nofun⟩
  | ok t =>
    have hfits : notificationFileFitsSerializedLimit bytes { t with revision := t.revision + inc } = true ↔
        serializedSize bytes { t with revision := t.revision + inc } ≤ maxNotificationFileBytes := by
      unfold notificationFileFitsSerializedLimit
      exact decide_eq_true_iff
    simp only [Except.bind, Except.ok.injEq, exists_eq_left', ← hfits]
    split_ifs with hrev
    · rw [Except.ok.injEq]
      exact (and_iff_right hrev).symm
    · exact ⟨nofun, fun h => absurd h.1 hrev⟩

/-- A smaller file can be saved, too. -/
theorem FitsSaved.of_smaller {apply : NotificationFileV1 → Except NotificationError NotificationFileV1} {inc : ℕ}
    {f f' : NotificationFileV1} (hsmaller : ∀ t, apply f = .ok t → ∃ t', apply f' = .ok t' ∧ Smaller bytes t' t)
    (h : FitsSaved bytes apply inc f) : FitsSaved bytes apply inc f' := by
  obtain ⟨t, ht, hrev, hsize⟩ := h
  obtain ⟨t', ht', hle⟩ := hsmaller t ht
  refine ⟨t', ht', ?_, ?_⟩
  · rw [hle.revision]
    exact hrev
  · rw [hle.revision]
    exact (hle.size le_rfl).trans hsize

variable {α : Type} {cs : List RecordCandidate} {able : Prop} {first again : ℕ} {out : EvictionOutcome α}
  {trial : ℕ → ℕ → Except NotificationError Bool} {fits : ℕ → ℕ → Bool}

theorem Trials.ok_iff {revision n inc : ℕ} (h : Trials revision trial fits) :
    trial n inc = .ok true ↔ revision + inc < 2 ^ 64 ∧ fits n inc = true := by
  rw [h.run]
  split_ifs with hrev
  · rw [Except.ok.injEq]
    exact (and_iff_right hrev).symm
  · exact ⟨nofun, fun h => absurd h.1 hrev⟩

/-- The ways in which a search ends. -/
inductive Ends (file : NotificationFileV1) (mutation : HousekeepingMutation) (cs : List RecordCandidate)
    (trial : ℕ → ℕ → Except NotificationError Bool) (fits : ℕ → ℕ → Bool) (first again : ℕ) : EvictionOutcome α → Prop
  | fails (e : NotificationError) (h : trial 0 first = .error e) : Ends file mutation cs trial fits first again (.error e, file, mutation)
  | fitting (a : α) (h : trial 0 first = .ok true) : Ends file mutation cs trial fits first again (.ok a, file, mutation)
  | full (e : NotificationError) (h : trial 0 first = .ok false) (hall : trial cs.length again ≠ .ok true) :
    Ends file mutation cs trial fits first again (.error e, file, mutation)
  | found (a : α) (n : ℕ) (h : trial 0 first = .ok false) (hrev : file.revision + again < 2 ^ 64) (hn : n ≤ cs.length)
    (hleast : IsLeast {n | fits n again = true} n) :
    Ends file mutation cs trial fits first again
      (.ok a, removeRecordCandidates file (cs.take n), noteCandidates mutation (cs.take n))

/-- However it ends, it is a least eviction, unless the file fits only without its empty partitions. -/
theorem Trials.least {saved : ℕ → NotificationFileV1 → Prop} (h : Trials file.revision trial fits) (hable : able)
    (hsaved : ∀ n inc, trial n inc = .ok true ↔ saved inc (removeRecordCandidates file (cs.take n)))
    (hempty : ∀ inc, saved inc file → saved inc (withoutEmpty file)) (hfile : saved first (withoutEmpty file) → saved first file)
    (hle : first ≤ again) (hout : Ends file mutation cs trial fits first again out) :
    LeastEviction file mutation cs able saved first again out := by
  have hnothing : ∀ inc, trial 0 inc = .ok true ↔ saved inc (withoutEmpty file) := by
    intro inc
    rw [hsaved, List.take_zero, remove_nil]
  have hfirst : saved first file ↔ trial 0 first = .ok true := by
    rw [hnothing]
    exact ⟨hempty first, hfile⟩
  -- with the higher revision the file is no smaller
  have hagain : saved again file → saved first file := by
    intro hyes
    have htrial := (hnothing again).2 (hempty again hyes)
    rw [h.ok_iff] at htrial
    exact hfirst.2 (h.ok_iff.2 ⟨by omega, h.mono le_rfl hle htrial.2⟩)
  have htaken : ∀ n, cs.take n ≠ [] → (saved again (evicted file (cs.take n)) ↔ trial n again = .ok true) := by
    intro n hne
    rw [hsaved, evicted_of_ne hne]
  have hall : saved again (evicted file cs) → saved first file ∨ trial cs.length again = .ok true := by
    intro hyes
    by_cases hnil : cs = []
    · rw [hnil, evicted_nil] at hyes
      exact Or.inl (hagain hyes)
    · right
      rw [← htaken cs.length (by rwa [List.take_length]), List.take_length]
      exact hyes
  cases hout with
  | fails e herror =>
    -- a revision that cannot be counted up now cannot be counted up further
    have hrev : ¬file.revision + first < 2 ^ 64 := by
      intro hrev
      rw [h.run, if_pos hrev] at herror
      cases herror
    have hno : ¬saved first file := by
      rw [hfirst, herror]
      nofun
    have hno' : ¬saved again (evicted file cs) := by
      intro hyes
      rcases hall hyes with hyes | hyes
      · exact hno hyes
      · rw [h.ok_iff] at hyes
        omega
    refine ⟨⟨fun ⟨a, ha⟩ => ?_, fun hyes => ?_⟩, fun _ => rfl, fun _ => rfl, fun ⟨a, ha⟩ _ => ?_⟩
    · cases ha
    · exact absurd hyes.2 (by simp [hno, hno'])
    · cases ha
  | fitting a hok =>
    have hyes := hfirst.2 hok
    exact ⟨⟨fun _ => ⟨hable, Or.inl hyes⟩, fun _ => ⟨a, rfl⟩⟩, fun _ => rfl, fun _ => rfl, fun _ hno => absurd hyes hno⟩
  | full e hfalse hlast =>
    have hno : ¬saved first file := by
      rw [hfirst, hfalse]
      nofun
    have hno' : ¬saved again (evicted file cs) := by
      intro hyes
      rcases hall hyes with hyes | hyes
      · exact hno hyes
      · exact hlast hyes
    refine ⟨⟨fun ⟨a, ha⟩ => ?_, fun hyes => ?_⟩, fun _ => rfl, fun _ => rfl, fun ⟨a, ha⟩ _ => ?_⟩
    · cases ha
    · exact absurd hyes.2 (by simp [hno, hno'])
    · cases ha
  | found a n hfalse hrev hn hleast =>
    have hno : ¬saved first file := by
      rw [hfirst, hfalse]
      nofun
    have hok : ∀ m, trial m again = .ok true ↔ fits m again = true := by
      intro m
      rw [h.ok_iff]
      exact and_iff_right hrev
    -- nothing removed does not fit, so the prefix is not empty
    have hpos : 0 < n := by
      by_contra hzero
      obtain rfl : n = 0 := by omega
      exact hno (hfirst.2 (h.ok_iff.2 ⟨by omega, h.mono le_rfl hle hleast.1⟩))
    have hcs : cs ≠ [] := by
      rintro rfl
      simp at hn
      omega
    have htake : ∀ m, 0 < m → cs.take m ≠ [] := by
      intro m hm hnil
      rcases List.take_eq_nil_iff.1 hnil with hm' | hnil'
      · omega
      · exact hcs hnil'
    refine ⟨⟨fun _ => ⟨hable, Or.inr ?_⟩, fun _ => ⟨a, rfl⟩⟩, fun hyes => absurd hyes hno, fun ⟨e, he⟩ => ?_, fun _ _ => ?_⟩
    · rw [evicted_of_ne hcs, ← List.take_length (l := cs), ← hsaved, hok]
      exact h.mono hn le_rfl hleast.1
    · cases he
    · refine ⟨n, hpos, hn, ?_, fun m hm hyes => ?_, ?_⟩
      · rw [htaken n (htake n hpos), hok]
        exact hleast.1
      · rcases Nat.eq_zero_or_pos m with rfl | hm0
        · rw [List.take_zero, evicted_nil] at hyes
          exact hno (hagain hyes)
        · rw [htaken m (htake m hm0), hok] at hyes
          have hle := hleast.2 hyes
          omega
      · rw [evicted_of_ne (htake n hpos)]

/-- Where a trial leaves out empty partitions only, the file is not changed. -/
theorem Ends.left (hfirst : trial 0 first = .ok true) (hout : Ends file mutation cs trial fits first again out) :
    (∃ a, out.1 = .ok a) ∧ out.2 = (file, mutation) := by
  cases hout with
  | fails e h =>
    rw [h] at hfirst
    cases hfirst
  | fitting a h => exact ⟨⟨a, rfl⟩, rfl⟩
  | full e h =>
    rw [h] at hfirst
    cases hfirst
  | found a n h =>
    rw [h] at hfirst
    cases hfirst

/-- So it was no least eviction if the file does not fit. -/
theorem LeastEviction.fits_of_left {saved : ℕ → NotificationFileV1 → Prop} (h : LeastEviction file mutation cs able saved first again out)
    (hcs : ∀ c ∈ cs, ∃ sr ∈ file.records, (sr.1, sr.2.id) = c.target)
    (hleft : (∃ a, out.1 = .ok a) ∧ out.2 = (file, mutation)) : saved first file := by
  by_contra hno
  obtain ⟨n, hpos, hn, -, -, hout⟩ := h.removed hleft.1 hno
  have hne : cs.take n ≠ [] := by
    intro hnil
    rcases List.take_eq_nil_iff.1 hnil with hzero | rfl
    · omega
    · simp at hn
      omega
  rw [hleft.2, Prod.mk.injEq] at hout
  exact evicted_ne hne (fun c hc => hcs c (List.mem_of_mem_take hc)) hout.1.symm

/-- A trial that does not fit and one that does. -/
theorem Trials.of_first {n inc : ℕ} (h : Trials file.revision trial fits) (hle : first ≤ inc) (hfirst : trial 0 first = .ok false)
    (hall : trial n inc = .ok true) : (∀ m, trial m inc = .ok (fits m inc)) ∧ fits 0 inc = false ∧ fits n inc = true := by
  obtain ⟨hrev, hn⟩ := h.ok_iff.1 hall
  refine ⟨fun m => by rw [h.run, if_pos hrev], ?_, hn⟩
  by_contra hzero
  have hyes : trial 0 first = .ok true := h.ok_iff.2 ⟨by omega, h.mono le_rfl hle (by simpa using hzero)⟩
  rw [hfirst] at hyes
  cases hyes

/-- What does not fit does not fit with a higher revision. -/
theorem Trials.again_ne {inc : ℕ} (h : Trials file.revision trial fits) (hle : first ≤ inc) (hfirst : trial 0 first = .ok false) :
    trial 0 inc ≠ .ok true := by
  intro hyes
  obtain ⟨-, hno, hfits⟩ := h.of_first hle hfirst hyes
  rw [hno] at hfits
  cases hfits

theorem reserve_ends (hle : (if mutation.changed then 2 else 1) ≤ 2)
    (h : Trials file.revision
      (fun n inc => preparedFileFitsAfterEviction bytes file prepared ((recordCandidates file prepared.protectedId).take n) inc) fits) :
    Ends file mutation (recordCandidates file prepared.protectedId)
      (fun n inc => preparedFileFitsAfterEviction bytes file prepared ((recordCandidates file prepared.protectedId).take n) inc)
      fits (if mutation.changed then 2 else 1) 2 (reserveSerializedCapacityForPublish bytes file prepared mutation) := by
  unfold reserveSerializedCapacityForPublish
  dsimp only
  generalize hfirst : preparedFileFitsAfterEviction bytes file prepared [] (if mutation.changed then 2 else 1) = answer
  generalize recordCandidates file prepared.protectedId = cs at h
  cases answer with
  | error e => exact .fails e hfirst
  | ok fit =>
    cases fit with
    | true => exact .fitting () hfirst
    | false =>
      have hall : cs.take cs.length = cs := List.take_length
      by_cases hnil : cs = []
      · rw [if_pos hnil]
        exact .full _ hfirst (by rw [hnil] at h ⊢; exact h.again_ne hle hfirst)
      · rw [if_neg hnil]
        generalize hlast : preparedFileFitsAfterEviction bytes file prepared cs 2 = answer
        cases answer with
        | error e => exact .full e hfirst (by rw [hall, hlast]; nofun)
        | ok fit =>
          cases fit with
          | false => exact .full _ hfirst (by rw [hall, hlast]; nofun)
          | true =>
            have hyes : preparedFileFitsAfterEviction bytes file prepared (cs.take cs.length) 2 = .ok true := by
              rw [hall, hlast]
            obtain ⟨hprobe, hzero, hlen⟩ := h.of_first hle hfirst hyes
            obtain ⟨k, n, hrun, hn, hleast⟩ := Search.bisect_least hprobe (fun m n hmn => h.mono hmn le_rfl) 0
              (List.length_pos_iff.2 hnil) hzero hlen
            dsimp only
            rw [hrun]
            exact .found () n hfirst (h.ok_iff.1 hyes).1 hn hleast

theorem existing_le (persistsRevision changed : Bool) : (persistsRevision && changed).toNat ≤ persistsRevision.toNat := by
  cases persistsRevision <;> cases changed <;> decide

variable (bytes file mutation) in
theorem enforce_ends (persistsRevision : Bool) :
    Ends file mutation (recordCandidates file none)
      (fun n inc => serializedFileFitsAfterEviction bytes file ((recordCandidates file none).take n) inc)
      (fun n inc => notificationFileFitsSerializedLimit bytes
        { removeRecordCandidates file ((recordCandidates file none).take n) with revision := file.revision + inc })
      (persistsRevision && mutation.changed).toNat persistsRevision.toNat
      (enforceSerializedFileCap bytes file mutation persistsRevision) := by
  have h := serialized_trials bytes file (recordCandidates file none)
  have hle := existing_le persistsRevision mutation.changed
  unfold enforceSerializedFileCap
  dsimp only
  generalize hfirst : serializedFileFitsAfterEviction bytes file [] (persistsRevision && mutation.changed).toNat = answer
  cases answer with
  | error e => exact .fails e hfirst
  | ok fit =>
    cases fit with
    | true => exact .fitting 1 hfirst
    | false =>
      dsimp only
      have hall : (recordCandidates file none).take (recordCandidates file none).length = recordCandidates file none :=
        List.take_length
      -- there may be nothing to remove:
      by_cases hnil : recordCandidates file none = []
      · rw [dif_pos hnil]
        refine .full _ hfirst ?_
        rw [hnil]
        exact h.again_ne hle hfirst
      · rw [dif_neg hnil]
        by_cases hrev : file.revision + persistsRevision.toNat < 2 ^ 64
        · have hprobe : ∀ n, serializedFileFitsAfterEviction bytes file ((recordCandidates file none).take n)
              persistsRevision.toNat = .ok (notificationFileFitsSerializedLimit bytes
                { removeRecordCandidates file ((recordCandidates file none).take n) with
                  revision := file.revision + persistsRevision.toNat }) := by
            intro n
            have hrun := h.run n persistsRevision.toNat
            rw [if_pos hrev] at hrun
            exact hrun
          have hzero := h.again_ne hle hfirst
          rw [hprobe 0, ne_eq, Except.ok.injEq, Bool.not_eq_true] at hzero
          -- the search doubles its steps, and then bisects the last one:
          rcases Search.gallop_spec hprobe 1 Nat.one_pos (List.length_pos_iff.2 hnil) Nat.zero_lt_one hzero with
            ⟨hrun, hno⟩ | ⟨k, lower, upper, hrun, hlt, hup, hlower, hupper⟩
          · rw [hrun]
            refine .full _ hfirst ?_
            rw [hprobe, hno]
            nofun
          · obtain ⟨k', n, hrun', hn, hleast⟩ := Search.bisect_least hprobe (fun m n hmn => h.mono hmn le_rfl) k hlt hlower hupper
            rw [hrun]
            dsimp only
            rw [hrun']
            exact .found k' n hfirst hrev (hn.trans hup) hleast
        · -- the revision cannot be counted up: the first trial of the search fails
          have herror : ∀ n, serializedFileFitsAfterEviction bytes file ((recordCandidates file none).take n)
              persistsRevision.toNat = .error .revisionExhausted := by
            intro n
            have hrun := h.run n persistsRevision.toNat
            rw [if_neg hrev] at hrun
            exact hrun
          have hrun := Search.gallop_error herror 1 0 Nat.one_pos
            (List.length_pos_iff.2 hnil)
          rw [hrun]
          refine .full _ hfirst ?_
          rw [herror]
          nofun

/-- **Both functions remove the shortest prefix of the oldest records without which the file can be
saved, and nothing when they fail, unless it can be saved only without its empty partitions.** -/
theorem eviction_least (bytes : PrintedBytes) (file : NotificationFileV1) (mutation : HousekeepingMutation) :
    (∀ prepared : PreparedPublish,
      LeastEviction file mutation (recordCandidates file prepared.protectedId)
          (∃ t, applyPreparedToFile (withoutEmpty file) prepared = .ok t) (FitsSaved bytes (applyPreparedToFile · prepared))
          (if mutation.changed then 2 else 1) 2 (reserveSerializedCapacityForPublish bytes file prepared mutation) ↔
        (FitsSaved bytes (applyPreparedToFile · prepared) (if mutation.changed then 2 else 1) (withoutEmpty file) →
          FitsSaved bytes (applyPreparedToFile · prepared) (if mutation.changed then 2 else 1) file)) ∧
      (∀ persistsRevision : Bool,
        LeastEviction file mutation (recordCandidates file none) True (FitsSaved bytes .ok)
            (persistsRevision && mutation.changed).toNat persistsRevision.toNat
            (enforceSerializedFileCap bytes file mutation persistsRevision) ↔
          (FitsSaved bytes .ok (persistsRevision && mutation.changed).toNat (withoutEmpty file) →
            FitsSaved bytes .ok (persistsRevision && mutation.changed).toNat file)) ∧
      ∀ protectedId,
        (recordCandidates file protectedId).Perm
            ((file.records.filter fun sr => protectedId ≠ some sr.2.id).map fun sr => ⟨sr.2.createdAtMs, sr.2.id, sr.1⟩) ∧
          (recordCandidates file protectedId).Pairwise fun c d => toLex (c.createdAtMs, c.id) ≤ toLex (d.createdAtMs, d.id) := by
  refine ⟨fun prepared => ?_, fun persistsRevision => ?_, recordCandidates_spec file⟩
  · have hcs := recordCandidates_unprotected file prepared.protectedId
    have hle : (if mutation.changed then 2 else 1) ≤ 2 := by split_ifs <;> omega
    have hempty : ∀ inc, FitsSaved bytes (applyPreparedToFile · prepared) inc file →
        FitsSaved bytes (applyPreparedToFile · prepared) inc (withoutEmpty file) := by
      intro inc hyes
      refine hyes.of_smaller fun t ht => ?_
      rw [← remove_nil]
      exact apply_remove bytes [] (by simp) ht
    by_cases hable : ∃ t, applyPreparedToFile (withoutEmpty file) prepared = .ok t
    · obtain ⟨t, ht⟩ := hable
      rw [← remove_nil] at ht
      obtain ⟨fits, htrials⟩ := prepared_trials bytes hcs ht
      have hsaved : ∀ n inc, preparedFileFitsAfterEviction bytes file prepared
          ((recordCandidates file prepared.protectedId).take n) inc = .ok true ↔
            FitsSaved bytes (applyPreparedToFile · prepared) inc
              (removeRecordCandidates file ((recordCandidates file prepared.protectedId).take n)) :=
        fun n inc => trial_iff (applyPreparedToFile · prepared) _ inc
      have hends := reserve_ends hle htrials
      constructor
      · intro h hyes
        rw [← remove_nil, ← List.take_zero, ← hsaved] at hyes
        exact h.fits_of_left (target_recordCandidates file _) (hends.left hyes)
      · intro hfile
        rw [remove_nil] at ht
        exact htrials.least ⟨t, ht⟩ hsaved hempty hfile hle hends
    · -- the first trial cannot be made
      have hno : ∀ inc, ¬FitsSaved bytes (applyPreparedToFile · prepared) inc (withoutEmpty file) :=
        fun inc ⟨t, ht, _⟩ => hable ⟨t, ht⟩
      refine ⟨fun _ hyes => absurd hyes (hno _), fun _ => ?_⟩
      cases happly : applyPreparedToFile (withoutEmpty file) prepared with
      | ok t => exact absurd ⟨t, happly⟩ hable
      | error e =>
        have hfirst : ∀ inc, preparedFileFitsAfterEviction bytes file prepared [] inc = .error e := by
          intro inc
          unfold preparedFileFitsAfterEviction
          rw [remove_nil, happly]
          rfl
        have hout : reserveSerializedCapacityForPublish bytes file prepared mutation = (.error e, file, mutation) := by
          unfold reserveSerializedCapacityForPublish
          simp only [hfirst]
        rw [hout]
        refine ⟨⟨fun ⟨_, ha⟩ => ?_, fun hyes => absurd hyes.1 ?_⟩, fun _ => rfl, fun _ => rfl, fun ⟨_, ha⟩ _ => ?_⟩
        · cases ha
        · rintro ⟨t, ht⟩
          cases ht
        · cases ha
  · have hempty : ∀ inc, FitsSaved bytes .ok inc file → FitsSaved bytes .ok inc (withoutEmpty file) := by
      intro inc hyes
      refine hyes.of_smaller fun t ht => ?_
      obtain rfl := Except.ok.inj ht
      rw [← remove_nil]
      exact ⟨_, rfl, smaller_remove bytes file []⟩
    have hsaved : ∀ n inc, serializedFileFitsAfterEviction bytes file ((recordCandidates file none).take n) inc = .ok true ↔
        FitsSaved bytes .ok inc (removeRecordCandidates file ((recordCandidates file none).take n)) :=
      fun n inc => trial_iff .ok _ inc
    have hends := enforce_ends bytes file mutation persistsRevision
    constructor
    · intro h hyes
      rw [← remove_nil, ← List.take_zero, ← hsaved] at hyes
      exact h.fits_of_left (target_recordCandidates file _) (hends.left hyes)
    · intro hfile
      exact (serialized_trials bytes file (recordCandidates file none)).least trivial hsaved hempty hfile
        (existing_le persistsRevision mutation.changed) hends

end Eviction

/-! ## A file that only fits without its empty partition -/

namespace CapacitySample

/-- A record about an environment with a long name. -/
def longRecord (n : ℕ) : NotificationRecord :=
  ⟨"11111111-1111-4111-8111-111111111111", .account "alpha", .connectionSystem, .environmentUnavailable, .error,
    ⟨"environment.unavailable", [], "环境不可达", "当前交易环境暂时不可达，请稍后重试。"⟩,
    some ⟨.environment, String.ofList (List.replicate n 'x')⟩, none, none, "env:1", 1, 1, 1, none⟩

/-- The account beta has a partition without records. -/
def longFile (n : ℕ) : NotificationFileV1 := ⟨1, 9, [], [⟨.account "alpha", [longRecord n]⟩, ⟨.account "beta", []⟩]⟩

/-- What is printed for this record, and for a scope; there is no entry. -/
def printed : PrintedBytes where
  record r := 740 + (r.entity.elim 0 fun e => e.id.length)
  scope
    | .global => 34
    | .account accountId => 60 + accountId.length
  entry _ := 0

theorem trim_replicate {n : ℕ} (hn : 0 < n) : trim (String.ofList (List.replicate n 'x')) ≠ "" := by
  obtain ⟨n, rfl⟩ : ∃ m, n = m + 1 := ⟨n - 1, by omega⟩
  have hx : isWhitespace 'x' = false := by decide
  unfold trim
  rw [String.toList_ofList, List.replicate_succ, List.dropWhile_cons_of_neg (by simp [hx]), ← List.replicate_succ,
    List.reverse_replicate, List.replicate_succ, List.dropWhile_cons_of_neg (by simp [hx])]
  simp

theorem validate_longRecord {n : ℕ} (hn : 0 < n) : (longRecord n).validate = true := by
  have hentity : ((longRecord n).entity.all NotificationEntity.validate) = true := by
    simp [longRecord, NotificationEntity.validate, trim_replicate hn]
  have hid : isGeneratedUuid (longRecord n).id = true := by
    show isGeneratedUuid "11111111-1111-4111-8111-111111111111" = true
    decide +kernel
  have hkey : isSafeNotificationDedupeKey (longRecord n).dedupeKey = true := by
    show isSafeNotificationDedupeKey "env:1" = true
    decide +kernel
  unfold NotificationRecord.validate
  rw [hentity, hid, hkey]
  rfl

theorem validateFile_longFile {n : ℕ} (hn : 0 < n) : (longFile n).validateFile = true := by
  unfold NotificationFileV1.validateFile NotificationFileV1.validPartitions
  simp only [longFile, List.all_cons, List.all_nil, validate_longRecord hn]
  rfl

theorem size_longFile (n : ℕ) : serializedSize printed (longFile n) = 1070 + n := by
  have halpha : "alpha".length = 5 := rfl
  have hbeta : "beta".length = 4 := rfl
  have hlog : Nat.log 10 9 = 0 := Nat.log_of_lt (by omega)
  simp [serializedSize, printedPartition, printedArray, printedNumber, longFile, longRecord, printed, halpha, hbeta, hlog]
  omega

theorem size_withoutEmpty (n : ℕ) : serializedSize printed (withoutEmpty (longFile n)) = 958 + n := by
  have halpha : "alpha".length = 5 := rfl
  have hlog : Nat.log 10 9 = 0 := Nat.log_of_lt (by omega)
  simp [serializedSize, printedPartition, printedArray, printedNumber, withoutEmpty, longFile, longRecord, printed, halpha, hlog]
  omega

theorem recordCandidates_ne (n : ℕ) : recordCandidates (longFile n) none ≠ [] := by
  have hlength := (recordCandidates_spec (longFile n) none).1.length_eq
  intro hnil
  rw [hnil] at hlength
  simp [longFile, NotificationFileV1.records] at hlength

theorem not_fits_longFile {n : ℕ} (hn : 16777216 < 1070 + n) : ¬FitsSaved printed .ok 0 (longFile n) := by
  rintro ⟨t, ht, -, hle⟩
  obtain rfl := Except.ok.inj ht
  have hle : serializedSize printed (longFile n) ≤ maxNotificationFileBytes := hle
  rw [size_longFile] at hle
  unfold maxNotificationFileBytes at hle
  omega

theorem fits_withoutEmpty {n : ℕ} (hn : 958 + n ≤ 16777216) : FitsSaved printed .ok 0 (withoutEmpty (longFile n)) := by
  refine ⟨_, rfl, ?_, ?_⟩
  · show 9 + 0 < 2 ^ 64
    omega
  · show serializedSize printed (withoutEmpty (longFile n)) ≤ maxNotificationFileBytes
    rw [size_withoutEmpty]
    unfold maxNotificationFileBytes
    omega

/-- The trial that removes nothing fits. -/
theorem enforce_longFile {n : ℕ} (hn : 958 + n ≤ 16777216) (mutation : HousekeepingMutation) :
    enforceSerializedFileCap printed (longFile n) mutation false = (.ok 1, longFile n, mutation) := by
  have htrial : serializedFileFitsAfterEviction printed (longFile n) [] 0 = .ok true := by
    refine (trial_iff .ok _ 0).2 ?_
    rw [remove_nil]
    exact fits_withoutEmpty hn
  unfold enforceSerializedFileCap
  simp only [Bool.false_and, Bool.toNat_false, htrial]

theorem fits_evicted {n : ℕ} (hn : 958 + n ≤ 16777216) :
    FitsSaved printed .ok 0 (evicted (longFile n) (recordCandidates (longFile n) none)) := by
  rw [evicted_of_ne (recordCandidates_ne n)]
  refine (fits_withoutEmpty hn).of_smaller fun t ht => ?_
  obtain rfl := Except.ok.inj ht
  refine ⟨_, rfl, ?_⟩
  rw [← remove_remove (List.nil_subset _), remove_nil]
  exact smaller_remove printed (withoutEmpty (longFile n)) _

theorem not_least {n : ℕ} (hlow : 16777216 < 1070 + n) (hhigh : 958 + n ≤ 16777216) (mutation : HousekeepingMutation) :
    ¬LeastEviction (longFile n) mutation (recordCandidates (longFile n) none) True (FitsSaved printed .ok) 0 0
      (enforceSerializedFileCap printed (longFile n) mutation false) := by
  intro h
  have hout := enforce_longFile hhigh mutation
  exact not_fits_longFile hlow (h.fits_of_left (target_recordCandidates _ none) ⟨⟨1, by rw [hout]⟩, by rw [hout]⟩)

end CapacitySample

open CapacitySample in
/-- A file of 16777270 bytes is left as it is, since its record alone would fit; removing this record
makes it fit. -/
theorem empty_partition_left :
    (longFile 16776200).validateFile = true ∧ serializedSize printed (longFile 16776200) = 16777270 ∧
      enforceSerializedFileCap printed (longFile 16776200) ⟨0, [], false⟩ false = (.ok 1, longFile 16776200, ⟨0, [], false⟩) ∧
      ¬FitsSaved printed .ok 0 (longFile 16776200) ∧
      FitsSaved printed .ok 0 (evicted (longFile 16776200) (recordCandidates (longFile 16776200) none)) ∧
      ¬LeastEviction (longFile 16776200) ⟨0, [], false⟩ (recordCandidates (longFile 16776200) none) True
        (FitsSaved printed .ok) 0 0 (enforceSerializedFileCap printed (longFile 16776200) ⟨0, [], false⟩ false) := by
  have hlow : 16777216 < 1070 + 16776200 := by omega
  have hhigh : 958 + 16776200 ≤ 16777216 := by omega
  exact ⟨validateFile_longFile (by omega), size_longFile 16776200, enforce_longFile hhigh _, not_fits_longFile hlow,
    fits_evicted hhigh, not_least hlow hhigh _⟩

end EasiFlux
