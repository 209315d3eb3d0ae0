import EasiFlux.Proof.Housekeeping
import EasiFlux.Proof.SourceIndex

/-!
# The commits of the notification service

What the service has in memory is the file that was saved last, and the source events it knows are
those of the index of this file (`Ledger`). Each save that goes through has the next revision and
leads to one event; a save that is refused leaves its revision for the next one.

* `meets_commit`: the one place where a file is handed to the store.
* `commits_gapless`: the ledger in every run.
-/

namespace EasiFlux

open Results SortOn Stops

/-! ## The ledger -/

/-- The files that were saved. -/
def NotificationService.saved (s : NotificationService) : List NotificationFileV1 := (s.handed.filter (·.2)).map (·.1)

structure Ledger (start : NotificationFileV1) (s : NotificationService) : Prop where
  attached : Attached s.state.file
  seen : s.state.seenSourceEvents = s.state.file.sourceEvents
  current : s.state.file = s.saved.getLastD start
  revisions : s.saved.map (·.revision) = List.range' (start.revision + 1) s.saved.length
  attempts : ∀ before file saved after, s.handed = before ++ (file, saved) :: after →
    file.revision = start.revision + before.countP (·.2) + 1
  events : s.events.map (fun e => (e.previousRevision, e.revision)) = s.saved.map fun file => (file.revision - 1, file.revision)

namespace Ledger

variable {start file : NotificationFileV1} {s : NotificationService} {state : ServiceState} {event : NotificationChangedEvent}

/-- The revision counts the saves. -/
theorem revision (h : Ledger start s) : s.state.file.revision = start.revision + s.saved.length := by
  rw [h.current]
  cases hlast : s.saved.reverse with
  | nil =>
    rw [List.reverse_eq_nil_iff.1 hlast]
    rfl
  | cons last others =>
    have hsaved : s.saved = others.reverse ++ [last] := by rw [← List.reverse_reverse s.saved, hlast, List.reverse_cons]
    have hrevisions := h.revisions
    rw [hsaved, List.map_append, List.length_append, List.length_singleton, List.range'_concat, List.map_singleton] at hrevisions
    have hend := List.append_inj_right' hrevisions rfl
    rw [hsaved, List.getLastD_concat, List.length_append, List.length_singleton]
    have hrevision := List.cons.inj hend
    omega

theorem countP_saved (s : NotificationService) : s.handed.countP (·.2) = s.saved.length := by
  unfold NotificationService.saved
  rw [List.length_map, List.countP_eq_length_filter]

/-- A save is attempted with the next revision. -/
theorem attempt (h : Ledger start s) (hrevision : file.revision = s.state.file.revision + 1) (saved : Bool) :
    ∀ before f b after, s.handed ++ [(file, saved)] = before ++ (f, b) :: after →
      f.revision = start.revision + before.countP (·.2) + 1 := by
  intro before f b after heq
  rcases List.eq_nil_or_concat after with rfl | ⟨after, last, rfl⟩
  · obtain ⟨rfl, hlast⟩ := List.append_inj' heq rfl
    obtain ⟨rfl, -⟩ := Prod.mk.inj (List.cons.inj hlast).1
    rw [hrevision, h.revision, countP_saved]
  · rw [List.concat_eq_append, ← List.cons_append, ← List.append_assoc] at heq
    exact h.attempts before f b after (List.append_inj_left' heq rfl)

theorem refuse (h : Ledger start s) (hrevision : file.revision = s.state.file.revision + 1) :
    Ledger start { s with handed := s.handed ++ [(file, false)] } := by
  have hsaved : ({ s with handed := s.handed ++ [(file, false)] } : NotificationService).saved = s.saved := by
    simp [NotificationService.saved]
  exact ⟨h.attached, h.seen, hsaved ▸ h.current, hsaved ▸ h.revisions, h.attempt hrevision false, hsaved ▸ h.events⟩

theorem commit (h : Ledger start s) (hrevision : state.file.revision = s.state.file.revision + 1) (hattached : Attached state.file)
    (hseen : state.seenSourceEvents = state.file.sourceEvents)
    (hevent : (event.previousRevision, event.revision) = (s.state.file.revision, state.file.revision)) :
    Ledger start { state := state, handed := s.handed ++ [(state.file, true)], events := s.events ++ [event] } := by
  have hsaved : ({ state := state, handed := s.handed ++ [(state.file, true)], events := s.events ++ [event] } :
      NotificationService).saved = s.saved ++ [state.file] := by
    simp [NotificationService.saved]
  refine ⟨hattached, hseen, ?_, ?_, h.attempt hrevision true, ?_⟩
  · rw [hsaved, List.getLastD_concat]
  · rw [hsaved, List.map_append, List.length_append, List.length_singleton, List.range'_concat, h.revisions, List.map_singleton,
      hrevision, h.revision]
    congr 2
    omega
  · rw [hsaved, List.map_append, List.map_append, h.events, List.map_singleton, List.map_singleton, hevent, hrevision]
    rfl

/-- What is kept beside the file may change. -/
theorem beside (h : Ledger start s) (hfile : state.file = s.state.file) (hseen : state.seenSourceEvents = s.state.seenSourceEvents) :
    Ledger start { s with state := state } :=
  ⟨hfile ▸ h.attached, by rw [hseen, hfile]; exact h.seen, hfile.trans h.current, h.revisions, h.attempts, h.events⟩

end Ledger

/-! ## Programs -/

section Programs

variable {α β : Type} {P : NotificationService → Prop} {start : NotificationFileV1} {s₀ r : NotificationService} {next : ServiceState}
  {saved : Bool} {change : NotificationChange} {scopes : List NotificationScope} {id : Option String}
  {toast : Option NotificationToastCandidate}

theorem meets_lift {x : Except NotificationError α} : Meets P (liftExcept x) (fun a s => x = .ok a ∧ P s) fun _ s => P s := by
  cases x with
  | ok a => exact .pure fun s hs => ⟨rfl, hs⟩
  | error e => exact .throw fun s hs => hs

theorem meets_map {m : ServiceM α} {Q : β → NotificationService → Prop} {F : NotificationError → NotificationService → Prop}
    (f : α → β) (h : Meets P m (fun a => Q (f a)) F) : Meets P (f <$> m) Q F := by
  rw [← bind_pure_comp]
  exact h.bind fun a => .pure fun s hs => hs

/-- In an operation that was started in `s₀`: as long as there was no event, nothing has changed. -/
structure Going (start : NotificationFileV1) (s₀ s : NotificationService) : Prop where
  ledger : Ledger start s
  grows : s₀.events.length ≤ s.events.length
  untouched : s.events.length ≤ s₀.events.length → s.state = s₀.state

theorem runFrom_commitFile (s : NotificationService) : runFrom (commitFile next saved change scopes id toast) s =
    if next.file.revision + 1 < 2 ^ 64 then
      let file := { next.file with revision := next.file.revision + 1 }
      if saved then
        (.ok (), { state := { next with file := file }
                   handed := s.handed ++ [(file, true)]
                   events := s.events ++ [⟨next.file.revision, file.revision, change, scopes, id, toast⟩] })
      else (.error .storageUnavailable, { s with handed := s.handed ++ [(file, false)] })
    else (.error .revisionExhausted, s) := by
  unfold commitFile checkedRevision
  split_ifs with hrevision hsaved
  · subst hsaved
    rfl
  · obtain rfl := Bool.eq_false_iff.2 hsaved
    rfl
  · rfl

/-- After a commit in an operation that was started in `s₀`. -/
structure Committed (start : NotificationFileV1) (s₀ : NotificationService) (next : ServiceState) (s : NotificationService) : Prop where
  going : Going start s₀ s
  state : s.state = { next with file.revision := next.file.revision + 1 }

/-- **A commit.** It goes through as a whole, or changes nothing. -/
theorem meets_commit (hrevision : next.file.revision = r.state.file.revision) (hattached : Attached next.file)
    (hseen : next.seenSourceEvents = next.file.sourceEvents) :
    Meets (fun s => r = s ∧ Going start s₀ s) (commitFile next saved change scopes id toast) (fun _ => Committed start s₀ next)
      fun _ => Going start s₀ := by
  constructor
  · rintro s ⟨rfl, hgoing⟩ a s' hrun
    rw [runFrom_commitFile] at hrun
    split_ifs at hrun
    · obtain ⟨-, rfl⟩ := Prod.mk.inj hrun
      have hgrows : s₀.events.length < (r.events ++ [(⟨next.file.revision, next.file.revision + 1, change, scopes, id, toast⟩ :
          NotificationChangedEvent)]).length := by
        rw [List.length_append, List.length_singleton]
        exact Nat.lt_succ_of_le hgoing.grows
      refine ⟨⟨hgoing.ledger.commit (congrArg (· + 1) hrevision) hattached hseen (by rw [hrevision]), hgrows.le, fun hnone => ?_⟩, rfl⟩
      exact absurd hgrows (not_lt.2 hnone)
    · cases (Prod.mk.inj hrun).1
    · cases (Prod.mk.inj hrun).1
  · rintro s ⟨rfl, hgoing⟩ e s' hrun
    rw [runFrom_commitFile] at hrun
    split_ifs at hrun
    · cases (Prod.mk.inj hrun).1
    · obtain ⟨-, rfl⟩ := Prod.mk.inj hrun
      exact ⟨hgoing.ledger.refuse (congrArg (· + 1) hrevision), hgoing.grows, hgoing.untouched⟩
    · obtain ⟨-, rfl⟩ := Prod.mk.inj hrun
      exact hgoing

/-- What an operation does with the service as it finds it. -/
theorem meets_get {f : NotificationService → ServiceM α} {Q : α → NotificationService → Prop}
    (h : ∀ r, Going start s₀ r → Meets (fun s => r = s ∧ Going start s₀ s) (f r) Q fun _ => Going start s₀) :
    Meets (Going start s₀) (get >>= f) Q fun _ => Going start s₀ := by
  refine Meets.get.bind fun r => ?_
  refine Meets.assume (p := Going start s₀ r) ?_ (h r)
  rintro s ⟨rfl, hgoing⟩
  exact hgoing

/-- An answer that is read off the service. -/
theorem meets_read {f : NotificationService → α} {Q : NotificationService → Prop} {F : NotificationError → NotificationService → Prop} :
    Meets Q (do let s ← get; return f s) (fun _ => Q) F := by
  refine Meets.get.bind fun r => .pure ?_
  rintro s ⟨rfl, hs⟩
  exact hs

theorem meets_mutationResult {notification : Option NotificationRecord} {affectedCount : ℕ} {context : ViewContext} {nowMs : ℕ}
    {Q : NotificationService → Prop} {F : NotificationError → NotificationService → Prop} :
    Meets Q (NotificationService.mutationResult notification affectedCount scopes context nowMs) (fun _ => Q) F := meets_read

end Programs

/-! ## Publications -/

section Publications

variable {file file' : NotificationFileV1} {prepared : PreparedPublish} {record : NotificationRecord}
  {ps qs : List NotificationPartition}
  {t : NotificationScope × String}

/-- What the index calls a record. -/
def targetOf (sr : NotificationScope × NotificationRecord) : NotificationScope × String := (sr.1, sr.2.id)

theorem attached_cleanup (file : NotificationFileV1) : Attached (cleanupSourceEventIndex file).1 := fun _ he =>
  of_decide_eq_true (List.mem_filter.1 he).2

theorem mem_pushRecord (record : NotificationRecord) (ps : List NotificationPartition) (sr : NotificationScope × NotificationRecord) :
    sr ∈ recordsOf (pushRecord record ps) ↔ sr = (record.scope, record) ∨ sr ∈ recordsOf ps := by
  induction ps with
  | nil => simp [pushRecord, recordsOf]
  | cons p ps ih =>
    unfold pushRecord
    split_ifs with hscope
    · rw [recordsOf_cons, recordsOf_cons, List.map_append, List.mem_append, List.mem_append, List.mem_append, hscope]
      simp only [List.map_cons, List.map_nil, List.mem_singleton]
      tauto
    · rw [recordsOf_cons, recordsOf_cons, List.mem_append, List.mem_append, ih]
      tauto

theorem ids_replaceRecord {items items' : List NotificationRecord} (h : replaceRecord record items = some items') :
    items'.map (·.id) = items.map (·.id) := by
  induction items generalizing items' with
  | nil => cases h
  | cons old items ih =>
    unfold replaceRecord at h
    split_ifs at h with hid
    · obtain rfl := Option.some.inj h
      rw [List.map_cons, List.map_cons, hid]
    · obtain ⟨rest, hrest, rfl⟩ := Option.map_eq_some_iff.1 h
      rw [List.map_cons, List.map_cons, ih hrest]

/-- A record is replaced by one with the same id. -/
theorem targets_replace (h : replaceInPartition record ps = some qs) : (recordsOf qs).map targetOf = (recordsOf ps).map targetOf := by
  induction ps generalizing qs with
  | nil => cases h
  | cons p ps ih =>
    unfold replaceInPartition at h
    split_ifs at h with hscope
    · obtain ⟨items, hitems, rfl⟩ := Option.map_eq_some_iff.1 h
      have hids := congrArg (List.map fun id => (p.scope, id)) (ids_replaceRecord hitems)
      rw [List.map_map, List.map_map] at hids
      rw [recordsOf_cons, recordsOf_cons, List.map_append, List.map_append, List.map_map, List.map_map]
      exact congrArg (· ++ _) hids
    · obtain ⟨rest, hrest, rfl⟩ := Option.map_eq_some_iff.1 h
      rw [recordsOf_cons, recordsOf_cons, List.map_append, List.map_append, ih hrest]

/-- The entry of the publish will lead to a record. -/
def Fitting (file : NotificationFileV1) (prepared : PreparedPublish) : Prop := ∀ e ∈ prepared.sourceEntry,
  prepared.change = .created ∧ e.target = (prepared.record.scope, prepared.record.id) ∨
    prepared.protectedId = some e.notificationId ∧ e.target ∈ file.targets

/-- What is applied adds its entry to the index. -/
theorem apply_spec (hfile : Attached file) (hfit : Fitting file prepared) (h : applyPreparedToFile file prepared = .ok file') :
    Attached file' ∧ file'.revision = file.revision ∧
      file'.sourceEvents = (prepared.sourceEntry.map fun entry => (entry.scope, entry.sourceEventId)).toFinset ∪ file.sourceEvents := by
  have hindex : file'.sourceEventIndex = file.sourceEventIndex ++ prepared.sourceEntry.toList ∧ file.targets ⊆ file'.targets ∧
      (prepared.change = .created → (prepared.record.scope, prepared.record.id) ∈ file'.targets) := by
    unfold applyPreparedToFile at h
    dsimp only at h
    cases hchange : prepared.change with
    | created =>
      rw [hchange] at h
      obtain rfl := Except.ok.inj h
      refine ⟨rfl, fun t ht => ?_, fun _ => ?_⟩
      · obtain ⟨sr, hsr, rfl⟩ := List.mem_map.1 ht
        exact List.mem_map.2 ⟨sr, (mem_pushRecord _ _ _).2 (Or.inr hsr), rfl⟩
      · exact List.mem_map.2 ⟨(prepared.record.scope, prepared.record), (mem_pushRecord _ _ _).2 (Or.inl rfl), rfl⟩
    | updated =>
      rw [hchange] at h
      dsimp only at h
      cases hreplace : replaceInPartition prepared.record file.partitions with
      | none => rw [hreplace] at h; cases h
      | some partitions =>
        rw [hreplace] at h
        obtain rfl := Except.ok.inj h
        refine ⟨rfl, fun t ht => ?_, nofun⟩
        show t ∈ (recordsOf partitions).map targetOf
        rw [targets_replace hreplace]
        exact ht
    | removed => rw [hchange] at h; cases h
    | reset => rw [hchange] at h; cases h
  refine ⟨fun e he => ?_, apply_revision h, ?_⟩
  · rw [hindex.1, List.mem_append] at he
    rcases he with he | he
    · exact hindex.2.1 (hfile e he)
    · rcases hfit e (Option.mem_toList.1 he) with ⟨hcreated, htarget⟩ | ⟨-, htarget⟩
      · exact htarget ▸ hindex.2.2 hcreated
      · exact hindex.2.1 htarget
  · unfold NotificationFileV1.sourceEvents
    rw [hindex.1, List.map_append, List.toFinset_append, Finset.union_comm]
    congr 1
    cases prepared.sourceEntry <;> rfl

/-- The publish of an input fits the file that it was prepared for. -/
theorem fitting_prepared {input : NotificationInput} {nowMs : ℕ} {id : String} {toast : Option NotificationToastCandidate}
    (h : preparePublishRecord file input nowMs id = .ok (prepared, toast)) : Fitting file prepared := by
  unfold preparePublishRecord at h
  dsimp only at h
  cases htarget : semanticTarget file input with
  | none =>
    rw [htarget] at h
    obtain ⟨-, -, h⟩ := bind_eq_ok.1 h
    obtain ⟨rfl, -⟩ := Prod.mk.inj (Except.ok.inj h)
    intro e he
    obtain ⟨key, hkey, rfl⟩ := Option.map_eq_some_iff.1 he
    obtain ⟨source, -, rfl⟩ := Option.map_eq_some_iff.1 hkey
    exact Or.inl ⟨rfl, rfl⟩
  | some existing =>
    rw [htarget] at h
    obtain ⟨-, -, h⟩ := bind_eq_ok.1 h
    obtain ⟨-, -, h⟩ := bind_eq_ok.1 h
    obtain ⟨rfl, -⟩ := Prod.mk.inj (Except.ok.inj h)
    intro e he
    obtain ⟨key, hkey, rfl⟩ := Option.map_eq_some_iff.1 he
    obtain ⟨source, -, rfl⟩ := Option.map_eq_some_iff.1 hkey
    refine Or.inr ⟨rfl, ?_⟩
    -- the record that is updated is one of its partition
    obtain ⟨p, hp, hexisting⟩ := Option.bind_eq_some_iff.1 htarget
    have hscope : p.scope = input.scope := by simpa using List.find?_some hp
    exact List.mem_map.2 ⟨(p.scope, existing),
      mem_recordsOf.2 ⟨p, List.mem_of_find?_eq_some hp, rfl, List.mem_of_find?_eq_some hexisting⟩, by rw [hscope]; rfl⟩

/-- The record that is updated is not removed for its publish. -/
theorem Fitting.reserve (h : Fitting file prepared) (bytes : PrintedBytes) (mutation : HousekeepingMutation) :
    Fitting (reserveSerializedCapacityForPublish bytes file prepared mutation).2.1 prepared := by
  intro e he
  refine (h e he).imp_right fun ⟨hid, htarget⟩ => ⟨hid, ?_⟩
  have hout := reserve_evicts bytes file prepared mutation
  generalize reserveSerializedCapacityForPublish bytes file prepared mutation = out at hout ⊢
  cases hout with
  | fails e => exact htarget
  | fitting a h => exact htarget
  | removed a n hpos hle hfits =>
    obtain ⟨sr, hsr, hsrt⟩ := List.mem_map.1 htarget
    refine List.mem_map.2 ⟨sr, ?_, hsrt⟩
    rw [(removed_removeRecordCandidates file _).records, List.mem_filter, decide_eq_true_eq]
    refine ⟨hsr, fun hmem => ?_⟩
    obtain ⟨c, hc, hct⟩ := List.mem_map.1 hmem
    have hunprotected := recordCandidates_unprotected file prepared.protectedId c (List.mem_of_mem_take hc)
    have heq : e.notificationId = c.id := ((Prod.mk.inj hsrt).2.symm.trans (Prod.mk.inj hct).2.symm)
    exact hunprotected (hid.trans (congrArg some heq))

end Publications

section Publish

variable {K : NotificationCrates} {start : NotificationFileV1} {s₀ : NotificationService} {input : NotificationInput} {nowMs : ℕ}
  {id : String} {saved : Bool} {saves : SaveAnswers} {toast : Option NotificationToastCandidate} {prepared : PreparedPublish}

/-- A publish that has been prepared fits the file that the service has then. -/
def Prepared (start : NotificationFileV1) (s₀ : NotificationService) (out : Option (PreparedPublish × Option NotificationToastCandidate))
    (s : NotificationService) : Prop := Going start s₀ s ∧ ∀ p ∈ out, Fitting s.state.file p.1

/-- A fallible computation, with what is known when it has gone through. -/
theorem meets_lift_bind {α β : Type} {x : Except NotificationError α} {f : α → ServiceM β} {r : NotificationService}
    {Q : β → NotificationService → Prop}
    (h : ∀ a, x = .ok a → Meets (fun s => r = s ∧ Going start s₀ s) (f a) Q fun _ => Going start s₀) :
    Meets (fun s => r = s ∧ Going start s₀ s) (liftExcept x >>= f) Q fun _ => Going start s₀ := by
  have hlift : Meets (fun s => r = s ∧ Going start s₀ s) (liftExcept x) (fun a s => x = .ok a ∧ r = s ∧ Going start s₀ s)
      fun _ => Going start s₀ := meets_lift.mono (fun _ hs => hs) (fun _ _ hs => hs) fun _ _ hs => hs.2
  refine hlift.bind fun a => ?_
  refine Meets.assume (p := x = .ok a) (fun _ hs => hs.1) fun hx => ?_
  exact (h a hx).pre fun s hs => hs.2

theorem meets_preparePublishLocked : Meets (Going start s₀) (NotificationService.preparePublishLocked K input nowMs id saved)
    (Prepared start s₀) fun _ => Going start s₀ := by
  unfold NotificationService.preparePublishLocked
  refine Meets.bind meets_lift fun _ => Meets.pre (meets_get fun r hr => ?_) fun s hs => hs.2
  by_cases hseen : input.sourceKey.any (· ∈ r.state.seenSourceEvents) = true
  · rw [if_pos hseen]
    refine .pure fun s hs => ⟨hs.2, fun p hp => ?_⟩
    cases hp
  rw [if_neg hseen]
  refine meets_lift_bind fun tidied htidied => ?_
  obtain ⟨file, mutation⟩ := tidied
  refine meets_lift_bind fun prep hprep => ?_
  obtain ⟨prepared, toast⟩ := prep
  dsimp only at hprep ⊢
  -- the records that make room are removed, but not the one that is updated
  have hfirst := tidies_prepare htidied
  have htidies := hfirst.trans ((reserve_evicts K.bytes file prepared mutation).tidies hfirst.attached)
  have hfit := (fitting_prepared hprep).reserve K.bytes mutation
  generalize reserveSerializedCapacityForPublish K.bytes file prepared mutation = out at htidies hfit ⊢
  obtain ⟨reserved, file', mutation'⟩ := out
  refine meets_lift_bind fun _ _ => ?_
  by_cases hchanged : mutation'.changed = true
  · rw [if_pos hchanged]
    refine Meets.bind (meets_commit htidies.removal.revision htidies.attached rfl) fun _ => .pure fun s hs => ⟨hs.going, ?_⟩
    intro p hp
    obtain rfl := Option.some.inj hp
    rw [hs.state]
    exact hfit
  · rw [if_neg hchanged]
    refine .pure fun s hs => ⟨hs.2, fun p hp => ?_⟩
    obtain rfl := Option.some.inj hp
    obtain rfl := hs.1
    have hsame := htidies.unchanged (Bool.eq_false_iff.2 hchanged)
    obtain rfl : file' = r.state.file := (Prod.mk.inj hsame).1
    exact hfit

theorem meets_commitPublish {r : NotificationService} {next : ServiceState} (hr : Going start s₀ r) (hfile : next.file = r.state.file)
    (hseen : next.seenSourceEvents = r.state.seenSourceEvents) (hfit : Fitting r.state.file prepared) :
    Meets (fun s => r = s ∧ Going start s₀ s) (NotificationService.commitPublish next prepared toast saved) (fun _ => Going start s₀)
      fun _ => Going start s₀ := by
  unfold NotificationService.commitPublish
  refine meets_lift_bind fun file hfile' => ?_
  rw [hfile] at hfile'
  obtain ⟨hattached, hrevision, hsources⟩ := apply_spec hr.ledger.attached hfit hfile'
  refine Meets.bind (meets_commit hrevision hattached ?_) fun _ => Meets.bind .get fun r' => .pure ?_
  · rw [hseen, hr.ledger.seen, hsources]
  · rintro s ⟨-, hs⟩
    exact hs.going

theorem meets_publishWith {update : ServiceState → ServiceState} (hfile : ∀ next, (update next).file = next.file)
    (hseen : ∀ next, (update next).seenSourceEvents = next.seenSourceEvents) :
    Meets (Going start s₀) (NotificationService.publishWith K update input nowMs id saves) (fun _ => Going start s₀)
      fun _ => Going start s₀ := by
  unfold NotificationService.publishWith
  refine meets_preparePublishLocked.bind fun out => ?_
  cases out with
  | none => exact meets_read.pre fun s hs => hs.1
  | some p =>
    obtain ⟨prepared, toast⟩ := p
    refine Meets.get.bind fun r => ?_
    refine Meets.assume (p := Prepared start s₀ (some (prepared, toast)) r) ?_ fun hr => ?_
    · rintro s ⟨rfl, hs⟩
      exact hs
    · exact (meets_commitPublish hr.1 (hfile _) (hseen _) (hr.2 _ rfl)).pre fun s hs => ⟨hs.1, hs.2.1⟩

end Publish

/-! ## Calls -/

section Calls

variable {K : NotificationCrates} {start : NotificationFileV1} {s₀ : NotificationService} {input : NotificationInput} {nowMs : ℕ}
  {id incidentId : String} {saved : Bool} {saves : SaveAnswers} {context : ViewContext}

/-- An operation keeps the ledger, and one that fails without an event has changed nothing. -/
def KeepsLedger {α : Type} (start : NotificationFileV1) (s₀ : NotificationService) (m : ServiceM α) : Prop :=
  Meets (Going start s₀) m (fun _ => Ledger start) fun _ => Going start s₀

theorem KeepsLedger.of_going {α : Type} {m : ServiceM α}
    (h : Meets (Going start s₀) m (fun _ => Going start s₀) fun _ => Going start s₀) :
    KeepsLedger start s₀ m := h.post fun _ _ hs => hs.ledger

/-- A check comes first. -/
theorem KeepsLedger.lift {α β : Type} {x : Except NotificationError α} {f : α → ServiceM β}
    (h : ∀ a, x = .ok a → KeepsLedger start s₀ (f a)) :
    KeepsLedger start s₀ (liftExcept x >>= f) := by
  have hlift : Meets (Going start s₀) (liftExcept x) (fun a s => x = .ok a ∧ Going start s₀ s) fun _ => Going start s₀ :=
    meets_lift
  refine hlift.bind fun a => Meets.assume (p := x = .ok a) (fun _ hs => hs.1) fun hx => ?_
  exact (h a hx).pre fun s hs => hs.2

theorem KeepsLedger.get {α : Type} {f : NotificationService → ServiceM α}
    (h : ∀ r, Going start s₀ r → Meets (fun s => r = s ∧ Going start s₀ s) (f r) (fun _ => Ledger start) fun _ => Going start s₀) :
    KeepsLedger start s₀ (get >>= f) := meets_get h

theorem meets_answer {α : Type} {r : NotificationService} {a : α} :
    Meets (fun s => r = s ∧ Going start s₀ s) (pure a : ServiceM α) (fun _ => Ledger start) fun _ => Going start s₀ :=
  .pure fun _ hs => hs.2.ledger

/-- A change of what is kept beside the file. -/
theorem meets_set {α : Type} {r : NotificationService} {state : ServiceState} {a : α} (hfile : state.file = r.state.file)
    (hseen : state.seenSourceEvents = r.state.seenSourceEvents) :
    Meets (fun s => r = s ∧ Going start s₀ s) (do set { r with state := state }; return a : ServiceM α) (fun _ => Ledger start)
      fun _ => Going start s₀ := by
  refine Meets.bind (Meets.set (Q := fun _ => Ledger start) fun s hs => ?_) fun _ => .pure fun _ hs => hs
  obtain ⟨rfl, hgoing⟩ := hs
  exact hgoing.ledger.beside hfile hseen

/-- A commit, and an answer that is read off the service then. -/
theorem meets_commit_answer {α : Type} {r : NotificationService} {next : ServiceState} {change : NotificationChange}
    {scopes : List NotificationScope} {notificationId : Option String} {m : ServiceM α}
    (hm : Meets (Ledger start) m (fun _ => Ledger start) fun _ => Going start s₀)
    (hrevision : next.file.revision = r.state.file.revision) (hattached : Attached next.file)
    (hseen : next.seenSourceEvents = next.file.sourceEvents) :
    Meets (fun s => r = s ∧ Going start s₀ s) (do commitFile next saved change scopes notificationId none; m) (fun _ => Ledger start)
      fun _ => Going start s₀ :=
  (meets_commit hrevision hattached hseen).bind fun _ => hm.pre fun _ hs => hs.going.ledger

theorem keeps_publishWith {update : ServiceState → ServiceState} (hfile : ∀ next, (update next).file = next.file)
    (hseen : ∀ next, (update next).seenSourceEvents = next.seenSourceEvents) :
    KeepsLedger start s₀ (NotificationService.publishWith K update input nowMs id saves) := .of_going (meets_publishWith hfile hseen)

theorem keeps_publish : KeepsLedger start s₀ (NotificationService.publish K input nowMs id saves) := by
  unfold NotificationService.publish
  refine .lift fun _ _ => .get fun r hr => ?_
  split
  · exact meets_lift_bind fun _ _ => meets_answer
  · exact (keeps_publishWith (fun _ => rfl) fun _ => rfl).pre fun s hs => hs.2

theorem keeps_publishClientAccountFailure :
    KeepsLedger start s₀ (NotificationService.publishClientAccountFailure K input nowMs id saves) := by
  unfold NotificationService.publishClientAccountFailure
  refine .lift fun _ _ => .lift fun _ _ => ?_
  cases input.scope with
  | global => exact .throw fun s hs => hs
  | account accountId =>
    refine .lift fun context _ => .lift fun source _ => .get fun r hr => ?_
    split_ifs
    · exact meets_lift_bind fun _ _ => meets_lift_bind fun _ _ => meets_answer
    · refine Meets.bind (meets_preparePublishLocked.pre fun s hs => hs.2) fun out => ?_
      cases out with
      | none => exact .throw fun s hs => hs.1
      | some p =>
        refine Meets.get.bind fun r' => Meets.assume (p := Prepared start s₀ (some p) r') ?_ fun hr' => ?_
        · rintro s ⟨rfl, hs⟩
          exact hs
        · have hcommit : Meets (fun s => r' = s ∧ Going start s₀ s) (NotificationService.commitPublish r'.state p.1 p.2 saves.publish)
              (fun _ => Going start s₀) fun _ => Going start s₀ := meets_commitPublish hr'.1 rfl rfl (hr'.2 p rfl)
          refine Meets.bind (hcommit.pre fun s hs => ⟨hs.1, hs.2.1⟩) fun outcome => KeepsLedger.lift fun notification _ => ?_
          exact .of_going meets_read

theorem keeps_observeIncident {key : IncidentKey} {state : AvailabilityState}
    {edge : String → Bool → Except NotificationError NotificationInput} :
    KeepsLedger start s₀ (NotificationService.observeIncident K key state incidentId edge nowMs id saves) := by
  unfold NotificationService.observeIncident
  refine .get fun r hr => ?_
  have hpublish : ∀ (x : Except NotificationError NotificationInput) (incident : Option String),
      KeepsLedger start s₀ (liftExcept x >>= fun input => NotificationService.publishWith K
        (fun next => { next with activeIncidents := Function.update next.activeIncidents key incident }) input nowMs id saves) :=
    fun x incident => .lift fun input _ => keeps_publishWith (fun _ => rfl) fun _ => rfl
  split
  · exact meets_answer
  · exact (hpublish _ _).pre fun s hs => hs.2
  · exact meets_answer
  · exact (hpublish _ _).pre fun s hs => hs.2

theorem keeps_observeConnection {o : ConnectionObservation} :
    KeepsLedger start s₀ (NotificationService.observeConnection K o nowMs incidentId id saves) := by
  unfold NotificationService.observeConnection
  exact .lift fun _ _ => keeps_observeIncident

theorem keeps_observeEnvironment {o : EnvironmentObservation} :
    KeepsLedger start s₀ (NotificationService.observeEnvironment K o nowMs incidentId id saves) := by
  unfold NotificationService.observeEnvironment
  exact .lift fun _ _ => .lift fun _ _ => keeps_observeIncident

theorem keeps_observeSessionExpired {accountId token : String} {epoch : ℕ} :
    KeepsLedger start s₀ (NotificationService.observeSessionExpired K accountId epoch token nowMs id saves) := by
  unfold NotificationService.observeSessionExpired
  exact .lift fun _ _ => .lift fun _ _ => .lift fun _ _ => .lift fun _ _ => keeps_publish

theorem keeps_observeOrder {o : OrderObservation} : KeepsLedger start s₀ (NotificationService.observeOrder K o nowMs id saves) := by
  unfold NotificationService.observeOrder
  refine .lift fun _ _ => .lift fun entityIds _ => .get fun r hr => ?_
  dsimp only
  split_ifs
  · exact meets_answer
  · exact meets_set rfl rfl
  · refine Meets.pre (P := Going start s₀) ?_ fun s hs => hs.2
    exact KeepsLedger.lift fun _ _ => KeepsLedger.lift fun _ _ => keeps_publishWith (fun _ => rfl) fun _ => rfl

theorem keeps_list {request : ListNotificationsRequest} : KeepsLedger start s₀ (NotificationService.list context request nowMs) := by
  unfold NotificationService.list
  refine .lift fun _ _ => .lift fun _ _ => ?_
  dsimp only
  cases request.cursor with
  | none => exact .of_going meets_read
  | some cursor => exact .lift fun _ _ => .of_going meets_read

/-- The index is as it was, and so is what it calls the records. -/
theorem attached_of_targets {file file' : NotificationFileV1} (hfile : Attached file)
    (hindex : file'.sourceEventIndex = file.sourceEventIndex)
    (htargets : file'.targets = file.targets) : Attached file' := by
  intro e he
  rw [htargets]
  exact hfile e (hindex ▸ he)

theorem targets_replaceFirst {f : NotificationRecord → NotificationRecord} (hf : ∀ record, (f record).id = record.id)
    (ps : List NotificationPartition) :
    (recordsOf (NotificationService.replaceFirst id f ps)).map targetOf = (recordsOf ps).map targetOf := by
  induction ps with
  | nil => rfl
  | cons p ps ih =>
    unfold NotificationService.replaceFirst
    cases p.items.findIdx? (·.id = id) with
    | none => rw [recordsOf_cons, recordsOf_cons, List.map_append, List.map_append, ih]
    | some i =>
      have hids : (p.items.modify i f).map (·.id) = p.items.map (·.id) := by
        refine List.ext_getElem (by simp) fun k h₁ h₂ => ?_
        simp only [List.getElem_map, List.getElem_modify]
        split_ifs
        · exact hf _
        · rfl
      have htargets := congrArg (List.map fun id => (p.scope, id)) hids
      rw [List.map_map, List.map_map] at htargets
      rw [recordsOf_cons, recordsOf_cons, List.map_append, List.map_append, List.map_map, List.map_map]
      exact congrArg (· ++ _) htargets

theorem keeps_markRead : KeepsLedger start s₀ (NotificationService.markRead context id nowMs saved) := by
  unfold NotificationService.markRead
  refine .get fun r hr => meets_lift_bind fun found _ => ?_
  obtain ⟨scope, record⟩ := found
  refine meets_lift_bind fun _ _ => ?_
  split_ifs
  · exact (KeepsLedger.of_going meets_mutationResult).pre fun s hs => hs.2
  · refine meets_commit_answer meets_mutationResult rfl (attached_of_targets hr.ledger.attached rfl ?_) hr.ledger.seen
    exact targets_replaceFirst (f := fun record => record.markedRead nowMs) (fun _ => rfl) r.state.file.partitions

theorem targets_map {f : NotificationPartition → NotificationPartition} (hscope : ∀ p, (f p).scope = p.scope)
    (hitems : ∀ p, (f p).items.map (·.id) = p.items.map (·.id)) (ps : List NotificationPartition) :
    (recordsOf (ps.map f)).map targetOf = (recordsOf ps).map targetOf := by
  induction ps with
  | nil => rfl
  | cons p ps ih =>
    have htargets := congrArg (List.map fun id => (p.scope, id)) (hitems p)
    rw [List.map_map, List.map_map] at htargets
    rw [List.map_cons, recordsOf_cons, recordsOf_cons, List.map_append, List.map_append, List.map_map, List.map_map, ih, hscope]
    exact congrArg (· ++ _) htargets

theorem keeps_markVisibleRead : KeepsLedger start s₀ (NotificationService.markVisibleRead context nowMs saved) := by
  unfold NotificationService.markVisibleRead
  refine .get fun r hr => ?_
  dsimp only
  split_ifs
  · exact (KeepsLedger.of_going meets_mutationResult).pre fun s hs => hs.2
  · refine meets_commit_answer meets_mutationResult rfl (attached_of_targets hr.ledger.attached rfl ?_) hr.ledger.seen
    refine targets_map (fun p => ?_) (fun p => ?_) r.state.file.partitions
    · split_ifs <;> rfl
    · split_ifs
      · rw [List.map_map]
        refine List.map_congr_left fun record _ => ?_
        show (if _ then _ else _ : NotificationRecord).id = _
        split_ifs <;> rfl
      · rfl

theorem keeps_deleteVisible : KeepsLedger start s₀ (NotificationService.deleteVisible context id nowMs saved) := by
  unfold NotificationService.deleteVisible
  refine .get fun r hr => meets_lift_bind fun found _ => ?_
  obtain ⟨scope, record⟩ := found
  exact meets_lift_bind fun _ _ => meets_commit_answer meets_mutationResult rfl (attached_cleanup _) rfl

theorem keeps_clearAccount {active requested : String} :
    KeepsLedger start s₀ (NotificationService.clearAccount active requested nowMs saved) := by
  unfold NotificationService.clearAccount
  refine .lift fun context _ => .lift fun _ _ => .get fun r hr => ?_
  dsimp only
  split_ifs
  · exact (KeepsLedger.of_going meets_mutationResult).pre fun s hs => hs.2
  · exact meets_commit_answer meets_mutationResult rfl (attached_cleanup _) rfl

theorem keeps_prune {configured : List String} : KeepsLedger start s₀ (NotificationService.prune K configured nowMs saved) := by
  unfold NotificationService.prune
  refine .get fun r hr => ?_
  have hprune := tidies_pruneFile r.state.file (some configured) nowMs
  generalize pruneFile r.state.file (some configured) nowMs = pruned at hprune ⊢
  obtain ⟨file, mutation⟩ := pruned
  dsimp only
  have htidies := hprune.trans ((enforce_evicts K.bytes file mutation true).tidies hprune.attached)
  generalize enforceSerializedFileCap K.bytes file mutation true = out at htidies ⊢
  obtain ⟨enforced, file', mutation'⟩ := out
  refine meets_lift_bind fun _ _ => ?_
  split_ifs with hchanged
  · -- nothing was removed
    have hsame := htidies.unchanged (by simpa using hchanged)
    obtain rfl : file' = r.state.file := (Prod.mk.inj hsame).1
    exact meets_set rfl hr.ledger.seen.symm
  · exact meets_commit_answer meets_read htidies.removal.revision htidies.attached rfl

/-- A scope without a partition has nothing to be removed. -/
theorem withoutScope_eq {file : NotificationFileV1} {scope : NotificationScope} (hfile : Attached file)
    (h : ¬file.partitions.any (·.scope = scope) = true) : NotificationService.withoutScope file scope = file := by
  have hparts : file.partitions.filter (·.scope ≠ scope) = file.partitions := by
    refine List.filter_eq_self.2 fun p hp => decide_eq_true fun heq => ?_
    exact h (List.any_eq_true.2 ⟨p, hp, decide_eq_true heq⟩)
  unfold NotificationService.withoutScope cleanupSourceEventIndex
  rw [hparts]
  show ({ file with sourceEventIndex := _ } : NotificationFileV1) = file
  congr 1
  exact List.filter_eq_self.2 fun e he => decide_eq_true (hfile e he)

theorem keeps_deleteAccountPartition {accountId : String} :
    KeepsLedger start s₀ (NotificationService.deleteAccountPartition accountId saved) := by
  unfold NotificationService.deleteAccountPartition
  refine .lift fun _ _ => .get fun r hr => ?_
  dsimp only
  split_ifs with hany
  · refine (meets_commit ?_ (attached_cleanup _) rfl).post fun _ s hs => hs.going.ledger
    rfl
  · rw [withoutScope_eq hr.ledger.attached hany]
    refine Meets.set fun s hs => ?_
    obtain ⟨rfl, hgoing⟩ := hs
    exact hgoing.ledger.beside rfl hr.ledger.seen.symm

/-- **Every call keeps the ledger**, and one that fails without an event has changed nothing. -/
theorem keeps_call (c : ServiceCall) : KeepsLedger start s₀ (c.program K) := by
  cases c with
  | publish => exact meets_map _ keeps_publish
  | publishClientAccountFailure => exact meets_map _ keeps_publishClientAccountFailure
  | list => exact meets_map _ keeps_list
  | summary => exact meets_map _ (KeepsLedger.of_going meets_read)
  | markRead => exact meets_map _ keeps_markRead
  | markVisibleRead => exact meets_map _ keeps_markVisibleRead
  | deleteVisible => exact meets_map _ keeps_deleteVisible
  | clearAccount => exact meets_map _ keeps_clearAccount
  | prune => exact meets_map _ keeps_prune
  | deleteAccountPartition => exact meets_map _ keeps_deleteAccountPartition
  | observeConnection => exact meets_map _ keeps_observeConnection
  | observeEnvironment => exact meets_map _ keeps_observeEnvironment
  | observeSessionExpired => exact meets_map _ keeps_observeSessionExpired
  | observeOrder => exact meets_map _ keeps_observeOrder

end Calls

/-! ## Runs -/

section Runs

variable {K : NotificationCrates} {file : NotificationFileV1}

theorem Ledger.start {s : NotificationService} (hattached : Attached s.state.file)
    (hseen : s.state.seenSourceEvents = s.state.file.sourceEvents)
    (hhanded : s.handed = []) (hevents : s.events = []) : Ledger s.state.file s := by
  have hsaved : s.saved = [] := by
    unfold NotificationService.saved
    rw [hhanded]
    rfl
  refine ⟨hattached, hseen, by rw [hsaved]; rfl, by rw [hsaved]; rfl, fun before f b after heq => ?_, by rw [hsaved, hevents]; rfl⟩
  rw [hhanded] at heq
  exact absurd heq.symm (List.append_ne_nil_of_right_ne_nil _ (List.cons_ne_nil _ _))

/-- The entries of a file that has been checked lead to records. -/
theorem attached_of_validateFile (h : file.validateFile = true) : Attached file := by
  have hs := sound_of_validateFile h
  unfold NotificationFileV1.validateFile NotificationFileV1.validIndex at h
  simp only [Bool.and_eq_true, List.all_eq_true] at h
  intro e he
  have hentry := (h.2.1 e he).1.1.2
  obtain ⟨sr, hrecord, hscope⟩ := (Option.any_eq_true _ _).1 hentry
  obtain ⟨hsr, hid⟩ := hs.recordOf.1 hrecord
  exact List.mem_map.2 ⟨sr, hsr, Prod.ext (of_decide_eq_true hscope) hid⟩

/-- The index is completed with entries that lead to their records. -/
theorem attached_completed (h : file.validateFile = true) : Attached (completed file) := by
  have hs := sound_of_validateFile h
  intro e he
  rcases (hs.mem_completed).1 he with he | he
  · exact attached_of_validateFile h e he
  · obtain ⟨sr, hsr, hcreation⟩ := List.mem_filterMap.1 he
    obtain ⟨hscope, -, hid⟩ := creationOf_eq_some.1 hcreation
    exact List.mem_map.2 ⟨sr, hsr, Prod.ext hscope hid⟩

/-- A service that is started has the completed file without what is over the limits; it knows its
source events and has saved nothing. -/
theorem fromSnapshot_spec (K : NotificationCrates) (h : file.validateFile = true) (lastPrunedAtMs : ℕ) :
    let s := NotificationService.fromSnapshot K file lastPrunedAtMs
    Removal (completed file) s.state.file ∧ s.state.seenSourceEvents = s.state.file.sourceEvents ∧ s.handed = [] ∧ s.events = [] := by
  unfold NotificationService.fromSnapshot
  rw [(sound_of_validateFile h).normalize_eq]
  dsimp only
  have hcaps : Tidies (completed file, .default) (enforceSourceIndexCaps (completed file, .default)) :=
    tidies_enforceSourceIndexCaps (attached_completed h)
  generalize enforceSourceIndexCaps (completed file, .default) = caps at hcaps ⊢
  obtain ⟨capped, mutation⟩ := caps
  have hsize := (hcaps.trans ((enforce_evicts K.bytes capped mutation false).tidies hcaps.attached)).removal
  dsimp only
  generalize enforceSerializedFileCap K.bytes capped mutation false = out at hsize ⊢
  obtain ⟨answer, enforced, rest⟩ := out
  exact ⟨hsize, rfl, rfl, rfl⟩

theorem ledger_fromSnapshot (K : NotificationCrates) (h : file.validateFile = true) (lastPrunedAtMs : ℕ) :
    Ledger (NotificationService.fromSnapshot K file lastPrunedAtMs).state.file
      (NotificationService.fromSnapshot K file lastPrunedAtMs) := by
  obtain ⟨hremoval, hseen, hhanded, hevents⟩ := fromSnapshot_spec K h lastPrunedAtMs
  exact .start hremoval.attached hseen hhanded hevents

/-- One call after another. -/
theorem ledger_step {start : NotificationFileV1} {s : NotificationService} (h : Ledger start s) (c : ServiceCall) :
    Ledger start (NotificationService.step K s c) := by
  have hcall : KeepsLedger start s (c.program K) := keeps_call c
  have hgoing : Going start s s := ⟨h, le_rfl, fun _ => rfl⟩
  unfold NotificationService.step
  cases hrun : runFrom (c.program K) s with
  | mk out s' =>
    cases out with
    | ok a => exact hcall.answers s hgoing a s' hrun
    | error e => exact (hcall.stops s hgoing e s' hrun).ledger

theorem ledger_run {start : NotificationFileV1} {s : NotificationService} (h : Ledger start s) (calls : List ServiceCall) :
    Ledger start (NotificationService.run K s calls) :=
  Steps.run_inv (I := Ledger start) (fun _ c hs => ledger_step hs c) calls s h

theorem untouched_step {start : NotificationFileV1} {s : NotificationService} (h : Ledger start s) (c : ServiceCall)
    (hfails : ∃ e, NotificationService.answer K s c = .error e) (hevents : (NotificationService.step K s c).events = s.events) :
    (NotificationService.step K s c).state = s.state := by
  have hcall : KeepsLedger start s (c.program K) := keeps_call c
  have hgoing : Going start s s := ⟨h, le_rfl, fun _ => rfl⟩
  obtain ⟨e, he⟩ := hfails
  unfold NotificationService.answer at he
  unfold NotificationService.step at hevents ⊢
  cases hrun : runFrom (c.program K) s with
  | mk out s' =>
    rw [hrun] at he hevents
    obtain rfl := he
    exact (hcall.stops s hgoing e s' hrun).untouched (congrArg List.length hevents).le

/-- **The commits of the notification service are atomic and gapless.** From a file that has been
checked, in every run: the file in memory is the one that was saved last, and the known source events
are those of its index; the revisions of the files that were saved count up one by one, and a save
that was refused has used the revision of the next one; there is one event for each save, with its
revision and the one before; and a call that fails without an event has changed nothing. -/
theorem commits_gapless (K : NotificationCrates) (file : NotificationFileV1) (h : file.validateFile = true) (lastPrunedAtMs : ℕ)
    (calls : List ServiceCall) :
    let s₀ := NotificationService.fromSnapshot K file lastPrunedAtMs
    let s := NotificationService.run K s₀ calls
    s.state.file = s.saved.getLastD s₀.state.file ∧ s.state.seenSourceEvents = s.state.file.sourceEvents ∧
      s.saved.map (·.revision) = List.range' (s₀.state.file.revision + 1) s.saved.length ∧
      (∀ before file saved after, s.handed = before ++ (file, saved) :: after →
        file.revision = s₀.state.file.revision + before.countP (·.2) + 1) ∧
      s.events.map (fun e => (e.previousRevision, e.revision)) = s.saved.map (fun file => (file.revision - 1, file.revision)) ∧
      ∀ c, (∃ e, NotificationService.answer K s c = .error e) → (NotificationService.step K s c).events = s.events →
        (NotificationService.step K s c).state = s.state := by
  have hledger := ledger_run (K := K) (ledger_fromSnapshot K h lastPrunedAtMs) calls
  exact ⟨hledger.current, hledger.seen, hledger.revisions, hledger.attempts, hledger.events, fun c => untouched_step hledger c⟩

/-- Crates that print one byte for each value. -/
def sampleNotificationCrates : NotificationCrates := ⟨⟨fun _ => 1, fun _ => 1, fun _ => 1⟩, id, fun _ => true⟩

def sampleNotificationFile : NotificationFileV1 := ⟨1, 7, [], [⟨.global, [newerNotification, olderNotification]⟩]⟩

def sampleNotificationService : NotificationService :=
  NotificationService.fromSnapshot sampleNotificationCrates sampleNotificationFile 0

/-- The newer record is read, and saved at the second try; then the older one is deleted. -/
def readAndDelete : List ServiceCall :=
  [.markRead .global newerNotification.id 8 false, .markRead .global newerNotification.id 9 true,
    .deleteVisible .global olderNotification.id 10 true]

/-- The refused save and the one after it have the same revision; a refused deletion changes nothing. -/
theorem commits_gapless_sample :
    let s := NotificationService.run sampleNotificationCrates sampleNotificationService readAndDelete
    s.handed.map (fun handed => (handed.1.revision, handed.2)) = [(8, false), (8, true), (9, true)] ∧
      s.state.file = ⟨1, 9, [], [⟨.global, [{ newerNotification with updatedAtMs := 9, readAtMs := some 9 }]⟩]⟩ ∧
      s.state.file = s.saved.getLastD sampleNotificationFile ∧
      s.saved.map (·.revision) = List.range' 8 2 ∧
      s.events.map (fun e => (e.previousRevision, e.revision)) = [(7, 8), (8, 9)] ∧
      (NotificationService.step sampleNotificationCrates s (.deleteVisible .global newerNotification.id 11 false)).state =
        s.state := by
  intro s
  have h := commits_gapless sampleNotificationCrates sampleNotificationFile (by decide +kernel) 0 readAndDelete
  obtain ⟨hcurrent, -, hrevisions, -, hevents, huntouched⟩ := h
  have hstart : sampleNotificationService.state.file = sampleNotificationFile := by decide +kernel
  have hsaved : s.saved.map (·.revision) = [8, 9] := by decide +kernel
  have hlength : s.saved.length = 2 := by simpa using congrArg List.length hsaved
  refine ⟨by decide +kernel, by decide +kernel, hstart ▸ hcurrent, hsaved, hevents.trans ?_, huntouched _ ?_ ?_⟩
  · have hpairs := congrArg (List.map fun revision => (revision - 1, revision)) hsaved
    rwa [List.map_map] at hpairs
  · exact ⟨.storageUnavailable, by rfl⟩
  · rfl

end Runs

end EasiFlux
