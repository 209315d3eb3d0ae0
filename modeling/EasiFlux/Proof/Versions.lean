import EasiFlux.Proof.Registry

/-!
# Versions over whole runs

The versions of imports and removals, and with them of every run of calls.

Both work on a copy of the registry (`Kept`: its documents may be newer, the rest is as it was),
hand the documents over and publish at most once, at their end.
-/

namespace EasiFlux.Plugin

open Results Newest PluginRegistry

/-! ## Imports -/

/-- No save of the index was committed. -/
def Quiet (log : List LifecycleEvent) : Prop :=
  ∀ index result, .indexSaved index result ∈ log → result.outcome.committed = false

/-- A save of the index that was committed. -/
def LifecycleEvent.indexCommitted : LifecycleEvent → Bool
  | .indexSaved _ result => result.outcome.committed
  | _ => false

/-- The live registry while an import or a removal works on a copy of `r`. -/
structure Handed (r : PluginRegistry) (s : Live) : Prop where
  kept : Kept r s.registry
  snapshot : s.registry.publication.snapshot = r.publication.snapshot

/-- What a finished import has done. -/
structure Done (r : PluginRegistry) (s : Live) : Prop where
  advance : Advance r s.registry
  keeps : r.publication.catalogGeneration ≠ 0 → Quiet s.log → KeepsGeneration r s.registry

theorem Handed.done {r : PluginRegistry} {s : Live} (h : Handed r s) : Done r s where
  advance := ⟨h.kept.builtins, h.kept.coherent, by rw [h.snapshot]; exact Newer.refl _⟩
  keeps _ _ _ := h.kept.generation

/-- An error leaves the snapshot as it was. -/
def Ended {α : Type} (r : PluginRegistry) (result : Except PluginError α) (s : Live) : Prop :=
  Done r s ∧ ((∃ e, result = .error e) → s.registry.publication.snapshot = r.publication.snapshot)

theorem Handed.ended {α : Type} {r : PluginRegistry} {s : Live} (h : Handed r s) (result : Except PluginError α) :
    Ended r result s := ⟨h.done, fun _ => h.snapshot⟩

theorem Done.ended {α : Type} {r : PluginRegistry} {s : Live} (h : Done r s) (a : α) : Ended r (.ok a) s := by
  refine ⟨h, ?_⟩
  rintro ⟨e, he⟩
  cases he

namespace ImportScript

variable {script : ImportScript} {r c : PluginRegistry} {s : Live} {C : Live → Prop}

theorem wp_failedImport {failure : ImportCommitFailure} {saved : Bool} (h : Done r s) :
    Mortal.wp (failedImport failure saved) (Ended r) C s :=
  Mortal.wp_bind (Mortal.wp_bind (Mortal.wp_get (Mortal.wp_pure (Mortal.wp_pure (h.ended _)))))

theorem wp_unconfirmedImport (h : Done r s) : Mortal.wp script.unconfirmedImport (Ended r) C s :=
  Mortal.wp_bind (Mortal.wp_bind (Mortal.wp_get (Mortal.wp_pure (Mortal.wp_pure (h.ended _)))))

/-- Publishing a candidate that was made from `r`. -/
theorem wp_publish {Q : Except PluginError Unit → Live → Prop} (h : Handed r s)
    (hg : r.publication.catalogGeneration ≤ c.publication.catalogGeneration)
    (hrev : s.registry.publication.runtime.revision ≤ c.publication.runtime.revision)
    (hkeep : r.publication.catalogGeneration ≠ 0 → Quiet s.log → c.publication.basis = r.publication.basis →
      c.publication.catalogGeneration = r.publication.catalogGeneration ∧
      s.registry.publication.runtime.Leads c.publication.runtime ∧
      s.registry.publication.ownership.entries = r.publication.ownership.entries)
    (hok : ∀ s', Done r s' → Q (.ok ()) s') (herr : ∀ e, Q (.error e) s) : Mortal.wp (publish c) Q C s := by
  refine Mortal.wp_attempt (fun s' hs => hok s' ?_) fun e _ => herr e
  rw [map_eq_ok] at hs
  obtain ⟨r', hp, rfl⟩ := hs
  unfold publishImportCandidate at hp
  rw [bind_eq_ok] at hp
  obtain ⟨⟨changed, r''⟩, hp, hr'⟩ := hp
  rw [pure_eq_ok] at hr'
  subst hr'
  have hcoh := h.kept.coherent
  have hn := publishCandidate_newer hcoh hp (h.kept.generation.trans_le hg) fun _ => hcoh.revision.trans hrev
  have hadv : Advance r { r'' with removalAuthorityUnreconciled := c.removalAuthorityUnreconciled } := by
    rw [h.snapshot] at hn
    rcases publishCandidate_ok hp with ⟨-, -, rfl⟩ | ⟨-, rfl⟩
    · exact ⟨h.kept.builtins, (coherent_published _).withFlag _, hn⟩
    · exact ⟨h.kept.builtins, (coherent_published _).withFlag _, hn⟩
  refine ⟨hadv, fun h0 hq hb => ?_⟩
  have hb'' : r''.publication.basis = c.publication.basis := by
    rcases publishCandidate_ok hp with ⟨-, -, rfl⟩ | ⟨-, rfl⟩ <;> rfl
  obtain ⟨hgen, hl, hent⟩ := hkeep h0 hq (hb''.symm.trans hb)
  -- the live registry has the structure of `r`, for its entries are those of `r`
  have hlive : s.registry.publication.basis = r.publication.basis := by
    rw [h.kept.basis, hent]
    rfl
  have hkg : KeepsGeneration s.registry r'' := publish_keepsGeneration hcoh hp
    (fun _ => ⟨hgen.trans h.kept.generation.symm, hl⟩) nofun
  exact (hkg (Eq.trans hb hlive.symm)).trans h.kept.generation

/-- The candidate and the live registry have the same state and entries. -/
structure Working (r c : PluginRegistry) (s : Live) : Prop where
  handed : Handed r s
  candidate : Kept r c
  runtime : s.registry.publication.runtime = c.publication.runtime
  ownership : s.registry.publication.ownership.entries = c.publication.ownership.entries
  entries : Quiet s.log → c.publication.ownership.entries = r.publication.ownership.entries

theorem applyLocalDiscovery_revision_le (scan : Scan) :
    c.publication.runtime.revision ≤ (c.applyLocalDiscovery scan).2.publication.runtime.revision := by
  rcases applyLocalDiscovery_cases (r := c) scan with ⟨-, h⟩ | ⟨changed, r', flag, hp, h, -⟩
  · rw [h]
  · rw [h]
    rcases publishCandidate_ok hp with ⟨-, -, rfl⟩ | ⟨-, rfl⟩
    · exact loadState_revision_le _ _
    · exact loadState_revision_le _ _

theorem Working.basis (h : Working r c s) (hq : Quiet s.log) : c.publication.basis = r.publication.basis := by
  rw [h.candidate.basis, h.entries hq]
  rfl

theorem wp_finishImport (h : Working r c s) {promoted : Option PromotedManagedPackage} {registered uncertain : Bool} :
    Mortal.wp (script.finishImport c promoted registered uncertain) (Ended r) C s := by
  unfold finishImport
  split
  · exact wp_unconfirmedImport h.handed.done
  · have hgen := h.candidate.generation
    split
    · rename_i _ _ _ ok candidate hp hap
      have hc4 : candidate = (c.applyLocalDiscovery script.postscan).2 := by rw [hap]
      split
      · exact wp_unconfirmedImport h.handed.done
      · refine Mortal.wp_bind (wp_publish h.handed ?_ ?_ ?_ ?_ ?_)
        · rw [hc4, ← hgen]
          exact applyLocalDiscovery_generation_le _
        · rw [hc4, h.runtime]
          exact applyLocalDiscovery_revision_le _
        · intro h0 hq hb
          have hcb := h.basis hq
          rw [hc4] at hb ⊢
          have hg := applyLocalDiscovery_keepsGeneration h.candidate.coherent script.postscan (hgen ▸ h0)
            (hb.trans hcb.symm)
          have hk := (applyLocalDiscovery_kept h.candidate.coherent hg).1
          refine ⟨hg.trans hgen, ?_, ?_⟩
          · rw [h.runtime]
            exact hk.runtime
          · rw [h.ownership]
            exact h.entries hq
        · intro s' hd
          exact Mortal.wp_bind (Mortal.wp_bind (Mortal.wp_get (Mortal.wp_pure (Mortal.wp_pure (hd.ended _)))))
        · intro e
          exact wp_unconfirmedImport h.handed.done
    · exact wp_unconfirmedImport h.handed.done

/-! ### Registering -/

theorem registerManagedImport_cases (entry : ManagedOwnershipEntryV1) (save : Option PersistResult) :
    (c.registerManagedImport entry save).2 = c ∨
    ∃ index next result, c.publication.ownership = .available index false ∧ index.register entry = .ok next ∧
      save = some result ∧ result.outcome.committed = true ∧
      (c.registerManagedImport entry save).2 = c.withOwnership (.available next false) := by
  unfold registerManagedImport
  split
  · rename_i index hown
    cases hreg : index.register entry with
    | error failure => exact .inl rfl
    | ok next =>
      cases save with
      | none => exact .inl rfl
      | some result =>
        by_cases hc : result.outcome.committed = true
        · right
          refine ⟨index, next, result, hown, hreg, rfl, hc, ?_⟩
          cases result with
          | ok outcome =>
            dsimp only
            simp only [hc, if_true]
            split <;> rfl
          | error outcome =>
            dsimp only
            simp only [hc, if_true]
        · left
          cases result with
          | ok outcome =>
            dsimp only
            simp only [hc, Bool.false_eq_true, if_false]
            split <;> rfl
          | error outcome =>
            dsimp only
            simp only [hc, Bool.false_eq_true, if_false]
  · exact .inl rfl

theorem Handed.note (h : Handed r s) (event : LifecycleEvent) : Handed r { s with log := s.log ++ [event] } :=
  ⟨h.kept, h.snapshot⟩

theorem quiet_append {log : List LifecycleEvent} {event : LifecycleEvent} (h : Quiet (log ++ [event])) : Quiet log :=
  fun index result hm => h index result (List.mem_append_left _ hm)

/-- The registry whose documents are those of the candidate. -/
theorem adoptImportDocuments_eq (l c : PluginRegistry) : ∃ flag, l.adoptImportDocuments c =
    l.withDocuments c.publication.runtime c.publication.ownership flag := ⟨_, rfl⟩

/-- Handing over the documents of a candidate. -/
theorem Handed.adopt (h : Handed r s) (hc : Kept r c) (hl : s.registry.publication.runtime.Leads c.publication.runtime)
    (he : Quiet s.log → c.publication.ownership.entries = r.publication.ownership.entries) :
    Working r c { s with registry := s.registry.adoptImportDocuments c } := by
  obtain ⟨flag, hf⟩ := adoptImportDocuments_eq s.registry c
  rw [hf]
  exact ⟨⟨h.kept.withDocuments hl _ _, h.snapshot⟩, hc, rfl, rfl, he⟩

theorem wp_registerPromoted (h : Working r c s) (proof : PromotedManagedPackage) :
    Mortal.wp (script.registerPromoted c proof) (Ended r) C s := by
  unfold registerPromoted
  split
  · -- the save of the index is noted before the candidate takes it
    have hnoted : Mortal.wp (Live.noteIndexSave c (fun index => index.register proof.entry) script.indexSave)
        (fun _ s' => Handed r s' ∧ s'.registry = s.registry ∧
          (Quiet s'.log → Quiet s.log ∧ ∀ index next result, c.publication.ownership = .available index false →
            index.register proof.entry = .ok next → script.indexSave = some result →
            result.outcome.committed = false)) C s := by
      unfold Live.noteIndexSave
      split
      · rename_i index rewrite result hown hsave
        dsimp only
        cases hreg : index.register proof.entry with
        | error e =>
          refine Mortal.wp_pure ⟨h.handed, rfl, fun hq => ⟨hq, fun index' next _ hown' hok => ?_⟩⟩
          rw [hown] at hown'
          cases hown'
          rw [hreg] at hok
          cases hok
        | ok next =>
          refine Mortal.wp_modify ⟨Handed.note h.handed _, rfl, fun hq => ⟨quiet_append hq, ?_⟩⟩
          intro index' next' result' hown' hok hsave'
          rw [hown] at hown'
          cases hown'
          rw [hreg] at hok
          cases hok
          rw [hsave] at hsave'
          cases hsave'
          exact hq next result (List.mem_append_right _ List.mem_cons_self)
      · rename_i hno
        refine Mortal.wp_pure ⟨h.handed, rfl, fun hq => ⟨hq, fun index next result hown _ hsave => ?_⟩⟩
        exact absurd hsave (hno index false result hown)
    refine Mortal.wp_bind (Mortal.wp_mono hnoted ?_ fun _ hC => hC)
    rintro ⟨⟩ s' ⟨hh, hreg, hq⟩
    -- the candidate after the registration
    have hworking : Working r (c.registerManagedImport proof.entry script.indexSave).2
        { s' with registry := s'.registry.adoptImportDocuments (c.registerManagedImport proof.entry script.indexSave).2 } := by
      rcases registerManagedImport_cases (c := c) proof.entry script.indexSave with
        hc | ⟨index, next, result, hown, hok, hsave, hcom, hc⟩
      · rw [hc]
        refine Handed.adopt hh h.candidate ?_ fun hq' => h.entries (hq hq').1
        rw [hreg, h.runtime]
        exact Runtime.Leads.refl _
      · rw [hc]
        have hkept : Kept r (c.withOwnership (.available next false)) :=
          h.candidate.withDocuments (Runtime.Leads.refl _) _ c.removalAuthorityUnreconciled
        refine Handed.adopt hh hkept ?_ fun hq' => ?_
        · rw [hreg, h.runtime]
          exact Runtime.Leads.refl _
        · have := (hq hq').2 index next result hown hok hsave
          rw [hcom] at this
          cases this
    cases hpair : c.registerManagedImport proof.entry script.indexSave with
    | mk registration candidate =>
      rw [hpair] at hworking
      dsimp only
      refine Mortal.wp_bind (Mortal.wp_modify ?_)
      cases registration with
      | none => exact wp_finishImport hworking
      | some answer =>
        cases answer with
        | ok outcome => exact wp_finishImport hworking
        | error failure => exact wp_finishImport hworking
  · exact wp_finishImport h

theorem Working.note (h : Working r c s) (event : LifecycleEvent) : Working r c { s with log := s.log ++ [event] } :=
  ⟨Handed.note h.handed event, h.candidate, h.runtime, h.ownership, fun hq => h.entries (quiet_append hq)⟩

theorem wp_promoteStaged (h : Working r c s) : Mortal.wp (script.promoteStaged c) (Ended r) C s := by
  unfold promoteStaged
  refine Mortal.wp_bind (Mortal.wp_modify ?_)
  have h' := h.note (.promotionTried script.promotion)
  split
  · exact wp_registerPromoted h' _
  · refine Mortal.wp_bind (wp_publish h'.handed ?_ ?_ ?_ ?_ ?_)
    · rw [h.candidate.generation]
    · rw [h'.runtime]
    · intro _ hq _
      refine ⟨h.candidate.generation, ?_, ?_⟩
      · rw [h'.runtime]
        exact Runtime.Leads.refl _
      · rw [h'.ownership]
        exact h'.entries hq
    · intro s' hd
      exact wp_failedImport hd
    · intro e
      exact Mortal.wp_pure (h'.handed.ended _)
  · exact wp_finishImport h'
  · exact wp_finishImport h'

theorem persistImportDisabled_kept (hc : Kept r c) (record : PluginRecord) (save : Option PersistResult) :
    Kept r (c.persistImportDisabled record save).2 ∧
      c.publication.runtime.Leads (c.persistImportDisabled record save).2.publication.runtime ∧
      (c.persistImportDisabled record save).2.publication.ownership = c.publication.ownership := by
  unfold persistImportDisabled
  split
  · exact ⟨hc, Runtime.Leads.refl _, rfl⟩
  · rcases persistDecision_cases (r := c) record false save with h | ⟨state, rewrite, next, result, -, hrt, hd, -, -, h⟩
    · rw [h]
      exact ⟨hc, Runtime.Leads.refl _, rfl⟩
    · have hl : c.publication.runtime.Leads (.available next false) := by
        rw [hrt]
        exact nextDecision_leads hd
      rw [h]
      exact ⟨hc.decided hl, hl, rfl⟩

theorem wp_commitStaged (h : Working r c s) : Mortal.wp (script.commitStaged c) (Ended r) C s := by
  unfold commitStaged
  have hnoted : Mortal.wp (Live.noteDecisionSave c script.record false script.stateSave) (fun _ s' => Working r c s') C s := by
    unfold Live.noteDecisionSave
    split
    · split
      · exact Mortal.wp_modify (h.note _)
      · exact Mortal.wp_pure h
    · exact Mortal.wp_pure h
  refine Mortal.wp_bind (Mortal.wp_mono hnoted ?_ fun _ hC => hC)
  rintro ⟨⟩ s' h'
  obtain ⟨hk, hl, hown⟩ := persistImportDisabled_kept h'.candidate script.record script.stateSave
  have hworking : Working r (c.persistImportDisabled script.record script.stateSave).2
      { s' with registry := s'.registry.adoptImportDocuments (c.persistImportDisabled script.record script.stateSave).2 } := by
    refine Handed.adopt h'.handed hk ?_ fun hq => ?_
    · rw [h'.runtime]
      exact hl
    · rw [hown]
      exact h'.entries hq
  cases hpair : c.persistImportDisabled script.record script.stateSave with
  | mk persisted candidate =>
    rw [hpair] at hworking
    dsimp only
    refine Mortal.wp_bind (Mortal.wp_modify ?_)
    cases persisted with
    | none => exact Mortal.wp_pure (hworking.handed.ended _)
    | some answer =>
      cases answer with
      | error failure => exact wp_failedImport hworking.handed.done
      | ok u => exact wp_promoteStaged hworking

/-- **A whole import.** -/
theorem wp_runCommit (hr : Coherent r) : Mortal.wp script.runCommit (Ended r) C ⟨r, []⟩ := by
  have hh : Handed r ⟨r, []⟩ := ⟨Kept.refl hr, rfl⟩
  unfold runCommit
  refine Mortal.wp_bind (Mortal.wp_get ?_)
  split
  · exact wp_failedImport hh.done
  · rename_i hlease
    split
    · exact Mortal.wp_pure (hh.ended _)
    · cases hap : r.applyLocalDiscovery script.prescan with
      | mk answer candidate =>
        have hc : candidate = (r.applyLocalDiscovery script.prescan).2 := by rw [hap]
        cases answer with
        | error e =>
          cases e
          case catalogGenerationExhausted => exact wp_failedImport hh.done
          all_goals exact Mortal.wp_pure (hh.ended _)
        | ok changed =>
          dsimp only
          split
          · -- the scan has changed the catalog, and is published as it is
            rename_i hstale
            refine Mortal.wp_bind (wp_publish hh ?_ ?_ ?_ ?_ ?_)
            · rw [hc]
              exact applyLocalDiscovery_generation_le _
            · rw [hc]
              exact applyLocalDiscovery_revision_le _
            · intro h0 _ hb
              rw [hc] at hb ⊢
              have hg := applyLocalDiscovery_keepsGeneration hr script.prescan h0 hb
              exact ⟨hg, (applyLocalDiscovery_kept hr hg).1.runtime, rfl⟩
            · intro s' hd
              exact wp_failedImport hd
            · intro e
              exact Mortal.wp_pure (hh.ended _)
          · rename_i hcurrent
            -- the scan has changed nothing, so the lease still holds:
            have hg : candidate.publication.catalogGeneration = r.publication.catalogGeneration := by
              simp only [matchesGeneration, Bool.not_eq_true', decide_eq_false_iff_not, not_not] at hlease hcurrent
              exact hcurrent.2.trans hlease.2.symm
            rw [hc] at hg
            obtain ⟨hk, hb, hrt⟩ := applyLocalDiscovery_kept hr hg
            rw [← hc] at hk hb hrt
            split
            · exact wp_failedImport hh.done
            · split
              · exact wp_failedImport hh.done
              · exact Mortal.wp_pure (hh.ended _)
              · exact wp_failedImport hh.done
              · have hent : r.publication.ownership.entries = candidate.publication.ownership.entries :=
                  (congrArg Basis.entries hb).symm
                exact wp_commitStaged ⟨hh, hk, hrt.symm, hent, fun _ => hent.symm⟩

end ImportScript

/-! ## Removals -/

/-- What `preflight_removal` has checked. -/
structure Preflighted (r : PluginRegistry) (id : PluginId) (preflight : RemovalPreflight) (state : PluginStateFileV2)
    (rewrite : Bool) (index : ManagedOwnershipIndexV1) (package : DiscoveredLocalPlugin) : Prop where
  reconciled : r.removalAuthorityUnreconciled = false
  runtime : r.publication.runtime = .available state rewrite
  generation : r.publication.catalogGeneration ≠ 0
  discovery : r.publication.discovery.summary.status ≠ .unavailable ∧
    r.publication.discovery.removals.status ≠ .unavailable
  ownership : r.publication.ownership = .available index false
  local' : id ∉ r.builtins
  record : r.publication.locals[id]? = some preflight.record
  managed : managementForRecord r.publication preflight.record = .managed
  found : (r.publication.discovery.plugins.filter fun found => decide (found.record.manifest.id = id)) = [package]
  locator : preflight.locator = package.locator
  entry : (index.entries.find? fun entry => entry.provesManaged package) = some preflight.entry
  disabled : state.isEnabled preflight.record = false
  reserved : r.reserveRemoval state index preflight.record preflight.entry = .ok ()

theorem preflightRemoval_ok {r : PluginRegistry} {id : PluginId} {expected : String} {preflight : RemovalPreflight}
    (h : r.preflightRemoval id expected = .ok preflight) :
    ∃ state rewrite index package, Preflighted r id preflight state rewrite index package := by
  unfold preflightRemoval at h
  simp only [bind_eq_ok, ensure_eq_ok] at h
  obtain ⟨-, ⟨hflag, -⟩, h⟩ := h
  split at h
  · cases h
  · cases h
  · rename_i state rewrite hrt
    simp only [bind_eq_ok, ensure_eq_ok] at h
    obtain ⟨-, ⟨hgen, hd1, hd2⟩, h⟩ := h
    split at h
    · rename_i index hown
      simp only [bind_eq_ok, ensure_eq_ok, okOr_eq_ok] at h
      obtain ⟨-, hid, record, hrec, h⟩ := h
      split at h
      · rename_i hman
        split at h
        · rename_i package hpack
          simp only [bind_eq_ok, ensure_eq_ok, okOr_eq_ok, pure_eq_ok] at h
          obtain ⟨entry, hentry, -, hdis, ⟨⟩, hres, rfl⟩ := h
          exact ⟨state, rewrite, index, package, hflag, hrt, hgen, ⟨hd1, hd2⟩, hown, hid, hrec, hman, hpack, rfl, hentry,
            hdis, hres⟩
        · cases h
      · cases h
      · cases h
      · cases h
    · cases h

theorem reserveRemoval_ok {r : PluginRegistry} {state : PluginStateFileV2} {index : ManagedOwnershipIndexV1}
    {record : PluginRecord} {entry : ManagedOwnershipEntryV1} (h : r.reserveRemoval state index record entry = .ok ()) :
    (removalDisabledCandidate state record).entries.length ≤ maxPluginStateEntries ∧
      (removalDisabledCandidate state record).byteLength ≤ maxPluginStateBytes ∧
      index.preflightRemovalCapacity entry.receiptId = .ok () ∧ r.publication.catalogGeneration + 1 ≤ maxRevision ∧
      state.revision + 1 ≤ maxRevision ∧ index.revision + 2 ≤ maxRevision := by
  unfold reserveRemoval ManagedOwnershipIndexV1.requireRevisionHeadroom at h
  simp only [bind_eq_ok, ensure_eq_ok, mapError_eq_ok] at h
  obtain ⟨-, ⟨h1, h2⟩, ⟨⟩, h3, -, h4, -, h5, h6⟩ := h
  exact ⟨h1, h2, h3, h4, h5, h6⟩

/-- What a removal has done: at most one catalog is published, and errors publish none. -/
structure RemovalEnded {α : Type} (r : PluginRegistry) (result : Except PluginError α) (s : Live) : Prop where
  advance : Advance r s.registry
  keeps : KeepsGeneration r s.registry
  error : (∃ e, result = .error e) → s.registry.publication.snapshot = r.publication.snapshot

theorem Handed.removalEnded {α : Type} {r : PluginRegistry} {s : Live} (h : Handed r s) (result : Except PluginError α) :
    RemovalEnded r result s :=
  ⟨h.done.advance, fun _ => h.kept.generation, fun _ => h.snapshot⟩

/-- A candidate of a removal: it has the generation of `r` and a state that is not older. -/
structure Follower (r c : PluginRegistry) : Prop where
  generation : c.publication.catalogGeneration = r.publication.catalogGeneration
  runtime : r.publication.runtime.Leads c.publication.runtime

theorem removalDisabledCandidate_leads {state : PluginStateFileV2} {rewrite : Bool} (record : PluginRecord)
    (h : state.revision + 1 ≤ maxRevision) :
    (Runtime.available state rewrite).Leads (.available (removalDisabledCandidate state record) false) := by
  left
  show state.revision < min (state.revision + 1) maxRevision
  omega

section

variable {r c : PluginRegistry} {s : Live}

theorem Follower.reconciled (h : Follower r c) (outcome : LocalDiscoveryOutcome) :
    Follower r (c.buildReconciledCandidate outcome) := ⟨h.generation, h.runtime⟩

theorem mutateRemovalIndex_keeps (c : PluginRegistry)
    (mutation : ManagedOwnershipIndexV1 → Except OwnershipFailure ManagedOwnershipIndexV1) (save : PersistResult) :
    (c.mutateRemovalIndex mutation save).2.publication.catalogGeneration = c.publication.catalogGeneration ∧
      (c.mutateRemovalIndex mutation save).2.publication.runtime = c.publication.runtime := by
  unfold mutateRemovalIndex
  split
  · exact ⟨rfl, rfl⟩
  · split
    · exact ⟨rfl, rfl⟩
    · dsimp only
      split <;> exact ⟨rfl, rfl⟩

theorem Follower.mutated (h : Follower r c) (mutation : ManagedOwnershipIndexV1 → Except OwnershipFailure ManagedOwnershipIndexV1)
    (save : PersistResult) : Follower r (c.mutateRemovalIndex mutation save).2 := by
  obtain ⟨h1, h2⟩ := mutateRemovalIndex_keeps c mutation save
  exact ⟨h1.trans h.generation, by rw [h2]; exact h.runtime⟩

theorem Handed.adoptRemoval (h : Handed r s) (hl : s.registry.publication.runtime.Leads c.publication.runtime) :
    Handed r { s with registry := s.registry.adoptRemovalDocuments c } :=
  ⟨h.kept.withDocuments hl _ _, h.snapshot⟩

end

namespace RemovalScript

variable {script : RemovalScript} {r c : PluginRegistry} {s : Live} {preflight : RemovalPreflight} {slot : RemovalSlot}

theorem wp_publishThen {result : PluginCatalogSnapshot → RemoveManagedLocalPluginResult} (hr : Coherent r) (h : Handed r s)
    (hc : Follower r c) : Mortal.wp (publishThen c r result) (RemovalEnded r) (Handed r) s := by
  unfold publishThen publishOnce
  refine Mortal.wp_bind (Mortal.wp_attempt ?_ ?_)
  · intro s' hs
    rw [map_eq_ok] at hs
    obtain ⟨r', hp, rfl⟩ := hs
    unfold publishCandidateOnce at hp
    rw [bind_eq_ok] at hp
    obtain ⟨⟨changed, r''⟩, hp, hr'⟩ := hp
    rw [pure_eq_ok] at hr'
    subst hr'
    have hn := publishCandidate_newer hr hp (le_of_eq hc.generation.symm) fun _ => hr.revision.trans hc.runtime.revision_le
    have hk : KeepsGeneration r r'' := publish_keepsGeneration hr hp (fun _ => ⟨hc.generation, hc.runtime⟩) nofun
    have hadv : Advance r r'' := by
      rcases publishCandidate_ok hp with ⟨-, -, rfl⟩ | ⟨-, rfl⟩
      · exact ⟨rfl, coherent_published _, hn⟩
      · exact ⟨rfl, coherent_published _, hn⟩
    refine Mortal.wp_bind (Mortal.wp_bind (Mortal.wp_get (Mortal.wp_pure (Mortal.wp_pure ⟨hadv, hk, ?_⟩))))
    rintro ⟨e, he⟩
    cases he
  · intro e _
    exact Mortal.wp_pure (h.removalEnded _)

/-- Handed over, and in step with the candidate. -/
structure InStep (r c : PluginRegistry) (s : Live) : Prop where
  handed : Handed r s
  follower : Follower r c
  runtime : s.registry.publication.runtime = c.publication.runtime

theorem InStep.adopt (h : InStep r c s) (mutation : ManagedOwnershipIndexV1 → Except OwnershipFailure ManagedOwnershipIndexV1)
    (save : PersistResult) :
    InStep r (c.mutateRemovalIndex mutation save).2
      { s with registry := s.registry.adoptRemovalDocuments (c.mutateRemovalIndex mutation save).2 } := by
  have hrt := (mutateRemovalIndex_keeps c mutation save).2
  refine ⟨h.handed.adoptRemoval ?_, h.follower.mutated mutation save, rfl⟩
  rw [h.runtime, hrt]
  exact Runtime.Leads.refl _

theorem InStep.note (h : InStep r c s) (event : LifecycleEvent) : InStep r c { s with log := s.log ++ [event] } :=
  ⟨⟨h.handed.kept, h.handed.snapshot⟩, h.follower, h.runtime⟩

theorem wp_noteIndexSave {C : Live → Prop} (h : InStep r c s) (c' : PluginRegistry)
    (mutation : ManagedOwnershipIndexV1 → Except OwnershipFailure ManagedOwnershipIndexV1) (answer : Option PersistResult) :
    Mortal.wp (Live.noteIndexSave c' mutation answer) (fun _ s' => InStep r c s') C s := by
  unfold Live.noteIndexSave
  split
  · split
    · exact Mortal.wp_modify (h.note _)
    · exact Mortal.wp_pure h
  · exact Mortal.wp_pure h

theorem wp_rollback (hr : Coherent r) (h : InStep r c s) {failure : AfterDisabledFailure} :
    Mortal.wp (script.rollback c r preflight failure) (RemovalEnded r) (Handed r) s := by
  unfold rollback
  refine Mortal.wp_bind (Mortal.wp_ask h.handed fun answer _ => ?_)
  refine Mortal.wp_bind (Mortal.wp_mono (wp_noteIndexSave h c _ _) ?_ fun _ hC => hC)
  rintro ⟨⟩ s' h'
  have h'' := h'.adopt (fun index => index.restoreManaged preflight.entry.receiptId) answer
  refine Mortal.wp_bind (Mortal.wp_modify ?_)
  exact wp_publishThen hr h''.handed (h''.follower.reconciled _)

theorem wp_finishRemoval (hr : Coherent r) (h : InStep r c s) {renameUncertain verified : Bool}
    {outcome : LocalDiscoveryOutcome} {cleanup : CleanupOutcome} {deletion : Option PersistResult} :
    Mortal.wp (finishRemoval c r preflight slot renameUncertain verified outcome cleanup deletion)
      (RemovalEnded r) (Handed r) s := by
  unfold finishRemoval
  dsimp only
  split
  · exact Mortal.wp_pure (h.handed.removalEnded _)
  · exact wp_publishThen hr h.handed (h.follower.reconciled _)

theorem wp_afterRename (hr : Coherent r) (h : InStep r c s) {renameUncertain : Bool} :
    Mortal.wp (script.afterRename c r preflight slot renameUncertain) (RemovalEnded r) (Handed r) s := by
  unfold afterRename
  refine Mortal.wp_bind (Mortal.wp_ask h.handed fun evidence _ => ?_)
  refine Mortal.wp_bind (Mortal.wp_ask h.handed fun outcome _ => ?_)
  refine Mortal.wp_bind (Mortal.wp_ask h.handed fun cleanup _ => ?_)
  have h1 := h.note (.cleanupTried cleanup)
  refine Mortal.wp_bind (Mortal.wp_modify ?_)
  split
  · refine Mortal.wp_bind (Mortal.wp_ask h1.handed fun answer _ => ?_)
    refine Mortal.wp_bind (Mortal.wp_mono (wp_noteIndexSave h1 c _ _) ?_ fun _ hC => hC)
    rintro ⟨⟩ s' h'
    have h'' := h'.adopt (fun index => index.remove preflight.entry.receiptId) answer
    refine Mortal.wp_bind (Mortal.wp_modify ?_)
    exact wp_finishRemoval hr h''
  · have hl : s.registry.publication.runtime.Leads c.publication.runtime := by
      rw [h.runtime]
      exact Runtime.Leads.refl _
    refine Mortal.wp_bind (Mortal.wp_modify ?_)
    exact wp_finishRemoval hr ⟨h1.handed.adoptRemoval hl, h1.follower, rfl⟩

theorem wp_quarantineOnce (hr : Coherent r) (h : InStep r c s) :
    Mortal.wp (script.quarantineOnce c r preflight slot) (RemovalEnded r) (Handed r) s := by
  unfold quarantineOnce
  refine Mortal.wp_bind (Mortal.wp_ask h.handed fun reverified _ => ?_)
  split
  · exact wp_rollback hr h
  · refine Mortal.wp_bind (Mortal.wp_ask h.handed fun rename _ => ?_)
    have h1 := h.note (.renameTried rename)
    refine Mortal.wp_bind (Mortal.wp_modify ?_)
    split
    · exact wp_rollback hr h1
    · split
      · exact wp_afterRename hr h1
      · exact Mortal.wp_pure (h1.handed.removalEnded _)
    · exact wp_afterRename hr h1

theorem wp_markRemoving (hr : Coherent r) (h : InStep r c s) :
    Mortal.wp (script.markRemoving c r preflight slot) (RemovalEnded r) (Handed r) s := by
  unfold markRemoving
  refine Mortal.wp_bind (Mortal.wp_ask h.handed fun answer _ => ?_)
  refine Mortal.wp_bind (Mortal.wp_mono (wp_noteIndexSave h c _ _) ?_ fun _ hC => hC)
  rintro ⟨⟩ s' h'
  have h'' := h'.adopt (fun index => index.beginRemoval preflight.entry.receiptId slot) answer
  cases hp : c.persistRemoving preflight.entry.receiptId slot answer with
  | mk removing candidate =>
    have hm : c.mutateRemovalIndex (fun index => index.beginRemoval preflight.entry.receiptId slot) answer =
        (removing, candidate) := hp
    rw [hm] at h''
    dsimp only
    refine Mortal.wp_bind (Mortal.wp_modify ?_)
    split
    · exact wp_quarantineOnce hr h''
    · exact wp_rollback hr h''

theorem persistDisabled_follower (windows : Bool) (record : PluginRecord) (save : PersistResult) {state : PluginStateFileV2}
    {rewrite : Bool} (hrt : r.publication.runtime = .available state rewrite) (hrev : state.revision + 1 ≤ maxRevision) :
    Follower r (r.persistDisabledBeforeRemoval windows record save).2 := by
  unfold persistDisabledBeforeRemoval
  rw [hrt]
  dsimp only
  split
  · refine ⟨rfl, ?_⟩
    rw [hrt]
    exact removalDisabledCandidate_leads record hrev
  · exact ⟨rfl, Runtime.Leads.refl _⟩

theorem wp_disable (hr : Coherent r) {state : PluginStateFileV2} {rewrite : Bool}
    (hrt : r.publication.runtime = .available state rewrite) (hrev : state.revision + 1 ≤ maxRevision) :
    Mortal.wp (script.disable r preflight slot) (RemovalEnded r) (Handed r) ⟨r, []⟩ := by
  have hh : Handed r ⟨r, []⟩ := ⟨Kept.refl hr, rfl⟩
  unfold disable
  refine Mortal.wp_bind (Mortal.wp_ask hh fun answer _ => ?_)
  have hnoted : Mortal.wp (Live.noteDisabledSave r preflight.record answer)
      (fun _ s' => Handed r s' ∧ s'.registry = r) (Handed r) ⟨r, []⟩ := by
    unfold Live.noteDisabledSave
    split
    · exact Mortal.wp_modify ⟨⟨hh.kept, hh.snapshot⟩, rfl⟩
    · exact Mortal.wp_pure ⟨hh, rfl⟩
  refine Mortal.wp_bind (Mortal.wp_mono hnoted ?_ fun _ hC => hC)
  rintro ⟨⟩ s' ⟨h', hreg⟩
  have hf := persistDisabled_follower script.windows preflight.record answer hrt hrev
  cases hp : r.persistDisabledBeforeRemoval script.windows preflight.record answer with
  | mk disabled candidate =>
    rw [hp] at hf
    have hstep : InStep r candidate { s' with registry := s'.registry.adoptRemovalDocuments candidate } := by
      refine ⟨h'.adoptRemoval ?_, hf, rfl⟩
      rw [hreg]
      exact hf.runtime
    dsimp only
    refine Mortal.wp_bind (Mortal.wp_modify ?_)
    split
    · exact wp_markRemoving hr hstep
    · split
      · exact wp_publishThen hr hstep.handed (hf.reconciled _)
      · exact Mortal.wp_pure (hstep.handed.removalEnded _)

/-- **A whole removal**, or the part of it before it was abandoned. -/
theorem wp_runRemoval (hr : Coherent r) : Mortal.wp script.runRemoval (RemovalEnded r) (Handed r) ⟨r, []⟩ := by
  have hh : Handed r ⟨r, []⟩ := ⟨Kept.refl hr, rfl⟩
  unfold runRemoval
  split
  · refine Mortal.wp_bind (Mortal.wp_get ?_)
    dsimp only
    split
    · exact Mortal.wp_pure (hh.removalEnded _)
    · rename_i preflight hp
      obtain ⟨state, rewrite, index, package, hpre⟩ := preflightRemoval_ok hp
      obtain ⟨-, -, -, -, hrev, -⟩ := reserveRemoval_ok hpre.reserved
      refine Mortal.wp_bind (Mortal.wp_ask hh fun prepared _ => ?_)
      split
      · exact Mortal.wp_pure (hh.removalEnded _)
      · exact wp_disable hr hpre.runtime hrev
  · exact Mortal.wp_pure (hh.removalEnded _)

end RemovalScript

/-! ## Runs -/

/-- What clients compare, in lexicographic order. -/
def PluginCatalogSnapshot.version (s : PluginCatalogSnapshot) : ℕ ×ₗ ℕ := toLex (s.catalogGeneration, s.revision)

theorem Newer.version_le {s s' : PluginCatalogSnapshot} (h : Newer s s') : s.version ≤ s'.version := by
  unfold PluginCatalogSnapshot.version
  rw [Prod.Lex.toLex_le_toLex]
  rcases h with rfl | h | ⟨hg, hr⟩
  · exact .inr ⟨rfl, le_rfl⟩
  · exact .inl h
  · exact .inr ⟨hg, hr.le⟩

theorem Newer.eq_of_version {s s' : PluginCatalogSnapshot} (h : Newer s s') (hv : s'.version = s.version) : s' = s := by
  have hpair := toLex.injective hv
  have hg : s'.catalogGeneration = s.catalogGeneration := congrArg Prod.fst hpair
  have hrev : s'.revision = s.revision := congrArg Prod.snd hpair
  rcases h with rfl | h | ⟨-, h⟩
  · rfl
  · omega
  · omega

namespace RegistryCall

/-- The call panics or answers with an error. -/
def fails (r : PluginRegistry) : RegistryCall → Bool
  | .applyLocalDiscovery _ true => true
  | .applyLocalDiscovery scan false => (r.applyLocalDiscovery scan).1.toOption.isNone
  | .retryStateLoad _ => false
  | .setEnabled id enabled expected save => ((r.setEnabled id enabled expected save).1.bind Except.toOption).isNone
  | .commitImport script => ((script.runCommit ⟨r, []⟩).1.bind Except.toOption).isNone
  | .removeManagedLocalPlugin script => ((script.runRemoval ⟨r, []⟩).1.bind Except.toOption).isNone

/-- A decision is saved (a store that panics lets the call panic), and the save is committed. -/
def decides (r : PluginRegistry) : RegistryCall → Bool
  | .setEnabled id enabled expected (some save) => (r.setEnabled id enabled expected none).1.isNone && save.outcome.committed
  | _ => false

/-- The state could not be read before, and reading it again panics. -/
def stateRetryPanics (r : PluginRegistry) : RegistryCall → Bool
  | .applyLocalDiscovery scan false => r.stateRequiresRetry && scan.stateLoad.isNone
  | _ => false

/-- An import that has saved an index with its package. -/
def Registers (r : PluginRegistry) : RegistryCall → Prop
  | .commitImport script => ¬Quiet (script.runCommit ⟨r, []⟩).2.log
  | _ => False

end RegistryCall

section Runs

variable {r : PluginRegistry}

theorem runCommit_ended (hr : Coherent r) (script : ImportScript) :
    Done r (script.runCommit ⟨r, []⟩).2 ∧ ((RegistryCall.commitImport script).fails r = true →
      (script.runCommit ⟨r, []⟩).2.registry.publication.snapshot = r.publication.snapshot) := by
  have h : Mortal.wp script.runCommit (Ended r) (fun _ => False) ⟨r, []⟩ := ImportScript.wp_runCommit hr
  unfold Mortal.wp at h
  show _ ∧ (((script.runCommit ⟨r, []⟩).1.bind Except.toOption).isNone = true → _)
  cases hrun : script.runCommit ⟨r, []⟩ with
  | mk answer s =>
    rw [hrun] at h
    cases answer with
    | none => exact h.elim
    | some result =>
      refine ⟨h.1, fun hf => h.2 ?_⟩
      cases result with
      | error e => exact ⟨e, rfl⟩
      | ok a => cases hf

theorem runRemoval_ended (hr : Coherent r) (script : RemovalScript) :
    Advance r (script.runRemoval ⟨r, []⟩).2.registry ∧ KeepsGeneration r (script.runRemoval ⟨r, []⟩).2.registry ∧
      ((RegistryCall.removeManagedLocalPlugin script).fails r = true →
        (script.runRemoval ⟨r, []⟩).2.registry.publication.snapshot = r.publication.snapshot) := by
  have h : Mortal.wp script.runRemoval (RemovalEnded r) (Handed r) ⟨r, []⟩ := RemovalScript.wp_runRemoval hr
  unfold Mortal.wp at h
  show _ ∧ _ ∧ (((script.runRemoval ⟨r, []⟩).1.bind Except.toOption).isNone = true → _)
  cases hrun : script.runRemoval ⟨r, []⟩ with
  | mk answer s =>
    rw [hrun] at h
    cases answer with
    | none => exact ⟨h.done.advance, fun _ => h.kept.generation, fun _ => h.snapshot⟩
    | some result =>
      refine ⟨h.advance, h.keeps, fun hf => h.error ?_⟩
      cases result with
      | error e => exact ⟨e, rfl⟩
      | ok a => cases hf

theorem step_advance (hr : Coherent r) (call : RegistryCall) : Advance r (r.step call) := by
  cases call with
  | applyLocalDiscovery scan panics =>
    cases panics with
    | true => exact Advance.refl hr
    | false => exact applyLocalDiscovery_advance hr scan
  | retryStateLoad load => exact (retryStateLoad_advance hr load).1
  | setEnabled id enabled expected save => exact (setEnabled_advance hr id enabled expected save).1
  | commitImport script => exact (runCommit_ended hr script).1.advance
  | removeManagedLocalPlugin script => exact (runRemoval_ended hr script).1

theorem step_keepsGeneration (hr : Coherent r) (call : RegistryCall) (h0 : r.publication.catalogGeneration ≠ 0)
    (hq : ¬call.Registers r) : KeepsGeneration r (r.step call) := by
  cases call with
  | applyLocalDiscovery scan panics =>
    cases panics with
    | true => exact fun _ => rfl
    | false => exact applyLocalDiscovery_keepsGeneration hr scan h0
  | retryStateLoad load => exact (retryStateLoad_advance hr load).2
  | setEnabled id enabled expected save => exact fun _ => (setEnabled_advance hr id enabled expected save).2
  | commitImport script => exact (runCommit_ended hr script).1.keeps h0 (not_not.1 hq)
  | removeManagedLocalPlugin script => exact (runRemoval_ended hr script).2.1

theorem step_of_fails (hr : Coherent r) (call : RegistryCall) (hf : call.fails r = true) (hd : call.decides r = false)
    (hp : call.stateRetryPanics r = false) : (r.step call).catalogSnapshot = r.catalogSnapshot := by
  cases call with
  | applyLocalDiscovery scan panics =>
    cases panics with
    | true => rfl
    | false =>
      show (r.applyLocalDiscovery scan).2.publication.snapshot = r.publication.snapshot
      change (r.applyLocalDiscovery scan).1.toOption.isNone = true at hf
      rcases applyLocalDiscovery_cases (r := r) scan with ⟨-, h⟩ | ⟨changed, r', flag, -, -, h | ⟨-, hload, hrt⟩⟩
      · rw [h]
      · rw [h] at hf
        cases hf
      · change (r.stateRequiresRetry && scan.stateLoad.isNone) = false at hp
        unfold stateRequiresRetry at hp
        rw [hrt, hload] at hp
        cases hp
  | retryStateLoad load => cases hf
  | setEnabled id enabled expected save =>
    show (r.setEnabled id enabled expected save).2.publication.snapshot = r.publication.snapshot
    rcases setEnabled_cases (r := r) id enabled expected with h | ⟨record, h⟩
    · rw [h]
    · rw [(h save).1]
      rcases persistDecision_cases (r := r) record enabled save with
        h' | ⟨state, rewrite, next, result, hu, hrt, hnext, rfl, hc, -⟩
      · rw [h']
      · have hnone : (r.persistDecisionWithOutcome record enabled none).1 = none := by
          unfold persistDecisionWithOutcome
          rw [hu, hrt]
          simp only [hnext, Bool.false_eq_true, if_false]
        have hask := (h none).2 hnone
        change ((r.setEnabled id enabled expected none).1.isNone && result.outcome.committed) = false at hd
        rw [hask, hc] at hd
        cases hd
  | commitImport script => exact (runCommit_ended hr script).2 hf
  | removeManagedLocalPlugin script => exact (runRemoval_ended hr script).2.2 hf

theorem coherent_initialized (builtins : List (Option BuiltInRecord)) (stateLoad : AppResult PluginStateLoad)
    (indexLoad : AppResult ManagedOwnershipLoad) : Coherent (initialized builtins stateLoad indexLoad) :=
  coherent_of_derived rfl

theorem run_coherent (hr : Coherent r) (calls : List RegistryCall) : Coherent (Steps.run step r calls) :=
  Steps.run_inv (I := Coherent) (fun _ call hw => (step_advance hw call).coherent) calls r hr

theorem run_newer (hr : Coherent r) (calls : List RegistryCall) :
    Newer r.catalogSnapshot (Steps.run step r calls).catalogSnapshot := by
  induction calls generalizing r with
  | nil => exact Newer.refl _
  | cons call calls ih =>
    have h := step_advance hr call
    exact h.newer.trans (ih h.coherent)

/-- **Versions over every run of calls.** Later snapshots are not older, and the version tells
them apart. A structure that did not change keeps its generation, but for the first scan and for
an import whose package was registered and then not found again. A call that fails without a
committed decision publishes nothing, unless it is a scan and what fails is the second try to
read the state. -/
theorem versions_monotone (builtins : List (Option BuiltInRecord)) (stateLoad : AppResult PluginStateLoad)
    (indexLoad : AppResult ManagedOwnershipLoad) (calls : List RegistryCall) :
    let r := Steps.run step (initialized builtins stateLoad indexLoad) calls
    (∀ later, r.catalogSnapshot.version ≤ (Steps.run step r later).catalogSnapshot.version ∧
      ((Steps.run step r later).catalogSnapshot.version = r.catalogSnapshot.version →
        (Steps.run step r later).catalogSnapshot = r.catalogSnapshot)) ∧
    ∀ call : RegistryCall,
      ((r.step call).publication.basis = r.publication.basis → r.catalogGeneration ≠ 0 → ¬call.Registers r →
        (r.step call).catalogGeneration = r.catalogGeneration) ∧
      (call.fails r = true → call.decides r = false → call.stateRetryPanics r = false →
        (r.step call).catalogSnapshot = r.catalogSnapshot) := by
  intro r
  have hr : Coherent r := run_coherent (coherent_initialized builtins stateLoad indexLoad) calls
  refine ⟨fun later => ?_, fun call => ⟨fun hb h0 hq => ?_, step_of_fails hr call⟩⟩
  · have h := run_newer hr later
    exact ⟨h.version_le, h.eq_of_version⟩
  · exact step_keepsGeneration hr call h0 hq hb

end Runs

namespace Sample

/-- Nothing is found, and a lost state stays lost: its store panics. -/
def emptyScan : Scan :=
  ⟨⟨[], [], ⟨[], .available, [], 0⟩, .available, none⟩, .ok ⟨.empty, false⟩, store .empty, none⟩

/-- A registry that starts with this state. -/
def started (stateLoad : AppResult PluginStateLoad) : PluginRegistry := initialized [] stateLoad (.ok ⟨.empty, false⟩)

def emptyState : PluginStateLoad := ⟨⟨2, 0, []⟩, false, by decide⟩

/-- Nothing is found, and the size of what is managed is known. -/
def measuredScan : Scan := { emptyScan with outcome := { emptyScan.outcome with usage := some ⟨0, 0, 0⟩ } }

/-- The index is saved with the new package; the last scan does not find the package, and reads the index of before. -/
def lostImport : ImportScript where
  record := record
  leaseGeneration := 1
  expectedGeneration := "1"
  prescan := measuredScan
  prescanPanics := false
  prepareStage := some (.ok ())
  stateSave := some (.ok .committedDurable)
  promotion := .promoted ⟨entry .managed, package.locator⟩
  indexSave := some (.ok .committedDurable)
  postscan := measuredScan
  postscanPanics := false

/-- After its first scan. -/
def scanned : PluginRegistry := (started (.ok emptyState)).step (.applyLocalDiscovery measuredScan false)

end Sample

theorem registers_of_saved {script : ImportScript} {r : PluginRegistry}
    (h : (script.runCommit ⟨r, []⟩).2.log.any LifecycleEvent.indexCommitted = true) :
    (RegistryCall.commitImport script).Registers r := by
  intro hq
  obtain ⟨event, he, hc⟩ := List.any_eq_true.1 h
  cases event with
  | indexSaved index result => exact absurd (hq index result he) (by simpa [LifecycleEvent.indexCommitted] using hc)
  | _ => cases hc

/-- The first scan counts as a change, whatever it finds; a scan publishes before it answers that the
state store panicked; and an import that registered its package, and then finds what was there before it,
publishes that as a next generation. -/
theorem first_scan_and_lost_state :
    (((Sample.started (.ok Sample.emptyState)).step (.applyLocalDiscovery Sample.emptyScan false)).publication.basis =
        (Sample.started (.ok Sample.emptyState)).publication.basis ∧
      ((Sample.started (.ok Sample.emptyState)).step (.applyLocalDiscovery Sample.emptyScan false)).catalogGeneration ≠
        (Sample.started (.ok Sample.emptyState)).catalogGeneration) ∧
    ((RegistryCall.applyLocalDiscovery Sample.emptyScan false).fails (Sample.started (.error (.storage "lost"))) = true ∧
      ((Sample.started (.error (.storage "lost"))).reconciliation Sample.emptyScan).store.saves = 0 ∧
      ((Sample.started (.error (.storage "lost"))).step (.applyLocalDiscovery Sample.emptyScan false)).catalogSnapshot ≠
        (Sample.started (.error (.storage "lost"))).catalogSnapshot) ∧
    ((RegistryCall.commitImport Sample.lostImport).Registers Sample.scanned ∧
      (Sample.scanned.step (.commitImport Sample.lostImport)).publication.basis = Sample.scanned.publication.basis ∧
      Sample.scanned.catalogGeneration = 1 ∧
      (Sample.scanned.step (.commitImport Sample.lostImport)).catalogGeneration = 2) := by
  refine ⟨by decide +kernel, by decide +kernel, registers_of_saved (by decide +kernel), ?_⟩
  decide +kernel

end EasiFlux.Plugin
