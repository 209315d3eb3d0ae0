import EasiFlux.Proof.Versions

/-!
# Rules for invariants of a registry

An import and a removal work on a copy of the registry, and hand it over in two ways: its
documents are adopted, or its catalog is published. So an invariant `I` of the live registry is kept
if the copy keeps it at each of these points.

* `ImportScript.Keeps`, `RemovalScript.Keeps`: what has to be shown about one call;
* `ImportScript.Keeps.run`, `RemovalScript.Keeps.run`: then the call keeps the invariant,
  wherever it ends.
-/

namespace EasiFlux.Plugin

open Results Newest PluginRegistry

/-- The registry at the end of a call, or where it was abandoned. -/
abbrev Mortal.Ends {α : Type} (m : Mortal Live α) (I : PluginRegistry → Prop) (s : Live) : Prop :=
  Mortal.wp m (fun _ s => I s.registry) (fun s => I s.registry) s

section Notes

variable {I : PluginRegistry → Prop} {s : Live}

/-- Notes are not part of the registry. -/
theorem Live.ends_noteIndexSave (c : PluginRegistry)
    (mutation : ManagedOwnershipIndexV1 → Except OwnershipFailure ManagedOwnershipIndexV1) (answer : Option PersistResult)
    (h : I s.registry) : Mortal.Ends (Live.noteIndexSave c mutation answer) I s := by
  unfold Live.noteIndexSave
  split
  · split
    · exact Mortal.wp_modify h
    · exact Mortal.wp_pure h
  · exact Mortal.wp_pure h

theorem Live.ends_noteDecisionSave (c : PluginRegistry) (record : PluginRecord) (enabled : Bool) (answer : Option PersistResult)
    (h : I s.registry) : Mortal.Ends (Live.noteDecisionSave c record enabled answer) I s := by
  unfold Live.noteDecisionSave
  split
  · split
    · exact Mortal.wp_modify h
    · exact Mortal.wp_pure h
  · exact Mortal.wp_pure h

theorem Live.ends_noteDisabledSave (c : PluginRegistry) (record : PluginRecord) (answer : PersistResult)
    (h : I s.registry) : Mortal.Ends (Live.noteDisabledSave c record answer) I s := by
  unfold Live.noteDisabledSave
  split
  · exact Mortal.wp_modify h
  · exact Mortal.wp_pure h

end Notes

/-! ## Imports -/

namespace ImportScript

variable {script : ImportScript} {r c : PluginRegistry} {s : Live} {I A : PluginRegistry → Prop}

/-- What an import must keep of the copy it works on: `I`, and `A` from the admission to the registration. -/
structure Keeps (script : ImportScript) (r : PluginRegistry) (I A : PluginRegistry → Prop) : Prop where
  scanned : ∀ c changed, r.applyLocalDiscovery script.prescan = (.ok changed, c) → I c
  admitted : ∀ c usage, I c → script.prescan.outcome.usage = some usage →
    c.validateManagedImport script.record usage script.expectedGeneration = .ok () → A c
  decided : ∀ c, A c → A (c.persistImportDisabled script.record script.stateSave).2
  started : ∀ c, A c → I c
  registered : ∀ c proof, A c → script.promotion = .promoted proof →
    proof.entry.provesManaged ⟨script.record, proof.locator⟩ = true →
    I (c.registerManagedImport proof.entry script.indexSave).2
  rescanned : ∀ c c' changed, I c → c.applyLocalDiscovery script.postscan = (.ok changed, c') → I c'
  adopted : ∀ l c, I l → I c → I (l.adoptImportDocuments c)
  published : ∀ l c l', I l → I c → l.publishImportCandidate c = .ok l' → I l'

variable (h : script.Keeps r I A)

include h

theorem Keeps.publish {C : Live → Prop} (hs : I s.registry) (hc : I c) :
    Mortal.wp (publish c) (fun _ s => I s.registry) C s := by
  refine Mortal.wp_attempt (fun s' hs' => ?_) fun _ _ => hs
  rw [map_eq_ok] at hs'
  obtain ⟨l', hp, rfl⟩ := hs'
  exact h.published _ _ _ hs hc hp

omit h in
theorem ends_failed {failure : ImportCommitFailure} {saved : Bool} (hs : I s.registry) :
    Mortal.Ends (failedImport failure saved) I s :=
  Mortal.wp_bind (Mortal.wp_bind (Mortal.wp_get (Mortal.wp_pure (Mortal.wp_pure hs))))

omit h in
theorem ends_unconfirmed (hs : I s.registry) : Mortal.Ends script.unconfirmedImport I s :=
  Mortal.wp_bind (Mortal.wp_bind (Mortal.wp_get (Mortal.wp_pure (Mortal.wp_pure hs))))

theorem Keeps.finish (hs : I s.registry) (hc : I c) {promoted : Option PromotedManagedPackage} {registered uncertain : Bool} :
    Mortal.Ends (script.finishImport c promoted registered uncertain) I s := by
  unfold finishImport
  split
  · exact ends_unconfirmed hs
  · split
    · rename_i changed candidate _ hap
      have hc' := h.rescanned c candidate changed hc hap
      split
      · exact ends_unconfirmed hs
      · refine Mortal.wp_bind (Mortal.wp_mono (h.publish hs hc') ?_ fun _ hC => hC)
        intro result s' hs'
        split
        · exact ends_unconfirmed hs'
        · exact Mortal.wp_bind (Mortal.wp_bind (Mortal.wp_get (Mortal.wp_pure (Mortal.wp_pure hs'))))
    · exact ends_unconfirmed hs

theorem Keeps.register (hs : I s.registry) (hc : A c) {proof : PromotedManagedPackage} (hp : script.promotion = .promoted proof) :
    Mortal.Ends (script.registerPromoted c proof) I s := by
  unfold registerPromoted
  split
  · rename_i hproof
    have hreg := h.registered c proof hc hp hproof
    refine Mortal.wp_bind (Mortal.wp_mono (Live.ends_noteIndexSave c _ _ hs) ?_ fun _ hC => hC)
    rintro ⟨⟩ s' hs'
    cases hpair : c.registerManagedImport proof.entry script.indexSave with
    | mk registration candidate =>
      rw [hpair] at hreg
      dsimp only
      have hl := h.adopted _ _ hs' hreg
      refine Mortal.wp_bind (Mortal.wp_modify ?_)
      cases registration with
      | none => exact h.finish hl hreg
      | some answer =>
        cases answer with
        | ok outcome => exact h.finish hl hreg
        | error failure => exact h.finish hl hreg
  · exact h.finish hs (h.started c hc)

theorem Keeps.promote (hs : I s.registry) (hc : A c) : Mortal.Ends (script.promoteStaged c) I s := by
  unfold promoteStaged
  refine Mortal.wp_bind (Mortal.wp_modify ?_)
  have hs : I ({ s with log := s.log ++ [.promotionTried script.promotion] } : Live).registry := hs
  split
  · rename_i proof hp
    exact h.register hs hc hp
  · refine Mortal.wp_bind (Mortal.wp_mono (h.publish hs (h.started c hc)) ?_ fun _ hC => hC)
    intro result s' hs'
    split
    · exact Mortal.wp_pure hs'
    · exact ends_failed hs'
  · exact h.finish hs (h.started c hc)
  · exact h.finish hs (h.started c hc)

theorem Keeps.commit (hs : I s.registry) (hc : A c) : Mortal.Ends (script.commitStaged c) I s := by
  unfold commitStaged
  refine Mortal.wp_bind (Mortal.wp_mono (Live.ends_noteDecisionSave c script.record false script.stateSave hs) ?_ fun _ hC => hC)
  rintro ⟨⟩ s' hs'
  have hd := h.decided c hc
  cases hpair : c.persistImportDisabled script.record script.stateSave with
  | mk persisted candidate =>
    rw [hpair] at hd
    dsimp only
    have hl := h.adopted _ _ hs' (h.started _ hd)
    refine Mortal.wp_bind (Mortal.wp_modify ?_)
    cases persisted with
    | none => exact Mortal.wp_pure hl
    | some answer =>
      cases answer with
      | error failure => exact ends_failed hl
      | ok u => exact h.promote hl hd

/-- **The rule for imports.** -/
theorem Keeps.run (hr : I r) : I (script.runCommit ⟨r, []⟩).2.registry := by
  have hends : Mortal.Ends script.runCommit I ⟨r, []⟩ := by
    unfold runCommit
    refine Mortal.wp_bind (Mortal.wp_get ?_)
    split
    · exact ends_failed hr
    · split
      · exact Mortal.wp_pure hr
      · cases hap : r.applyLocalDiscovery script.prescan with
        | mk answer candidate =>
          cases answer with
          | error e =>
            cases e
            case catalogGenerationExhausted => exact ends_failed hr
            all_goals exact Mortal.wp_pure hr
          | ok changed =>
            have hc := h.scanned candidate changed hap
            dsimp only
            split
            · refine Mortal.wp_bind (Mortal.wp_mono (h.publish hr hc) ?_ fun _ hC => hC)
              intro result s' hs'
              split
              · exact Mortal.wp_pure hs'
              · exact ends_failed hs'
            · split
              · exact ends_failed hr
              · rename_i usage husage
                split
                · exact ends_failed hr
                · exact Mortal.wp_pure hr
                · exact ends_failed hr
                · rename_i hadm _
                  exact h.commit hr (h.admitted _ _ hc husage hadm)
  unfold Mortal.Ends Mortal.wp at hends
  split at hends <;> rename_i heq <;> rw [heq] <;> exact hends

end ImportScript

/-! ## Removals -/

namespace RemovalScript

variable {script : RemovalScript} {r c : PluginRegistry} {s : Live} {preflight : RemovalPreflight} {slot : RemovalSlot}
  {I B M E : PluginRegistry → Prop}

/-- What a removal must keep of its copy: `B` once the plugin is disabled, `M` once the entry is marked, and
`E` from then on. -/
structure Keeps (script : RemovalScript) (r : PluginRegistry) (preflight : RemovalPreflight) (slot : RemovalSlot)
    (I B M E : PluginRegistry → Prop) : Prop where
  disabled : ∀ answer, script.disabledSave = some answer →
    B (r.persistDisabledBeforeRemoval script.windows preflight.record answer).2
  marked : ∀ c answer, B c → script.removingSave = some answer → M (c.persistRemoving preflight.entry.receiptId slot answer).2
  restored : ∀ c answer, M c → script.rollbackSave = some answer → E (c.rollbackRemoving preflight.entry.receiptId answer).2
  deleted : ∀ c answer, M c → script.deleteSave = some answer → E (c.deleteRemovedEntry preflight.entry.receiptId answer).2
  before : ∀ c, B c → E c
  during : ∀ c, M c → E c
  adopted : ∀ l c, I l → E c → I (l.adoptRemovalDocuments c)
  rebuilt : ∀ c l, E c → (c.buildReconciledCandidate r.publication.discovery).publishCandidateOnce r = .ok l → I l
  rediscovered : ∀ c l outcome cleanup, E c → script.discover = some outcome → script.cleanup = some cleanup →
    outcome.summary.status ≠ .unavailable → outcome.removals.status ≠ .unavailable →
    (c.buildReconciledCandidate (updateTargetObservation outcome preflight slot cleanup)).publishCandidateOnce r = .ok l → I l

theorem ends_publishThen {result : PluginCatalogSnapshot → RemoveManagedLocalPluginResult} (hs : I s.registry)
    (hp : ∀ l, c.publishCandidateOnce r = .ok l → I l) : Mortal.Ends (publishThen c r result) I s := by
  unfold publishThen publishOnce
  refine Mortal.wp_bind (Mortal.wp_attempt ?_ ?_)
  · intro s' hs'
    rw [map_eq_ok] at hs'
    obtain ⟨l, hl, rfl⟩ := hs'
    exact Mortal.wp_bind (Mortal.wp_bind (Mortal.wp_get (Mortal.wp_pure (Mortal.wp_pure (hp l hl)))))
  · intro e _
    exact Mortal.wp_pure hs

variable (h : script.Keeps r preflight slot I B M E)

include h

theorem Keeps.rollback (hs : I s.registry) (hc : M c) {failure : AfterDisabledFailure} :
    Mortal.Ends (script.rollback c r preflight failure) I s := by
  unfold RemovalScript.rollback
  refine Mortal.wp_bind (Mortal.wp_ask hs fun answer hanswer => ?_)
  refine Mortal.wp_bind (Mortal.wp_mono (Live.ends_noteIndexSave c _ _ hs) ?_ fun _ hC => hC)
  rintro ⟨⟩ s' hs'
  have he := h.restored c answer hc hanswer
  have hl := h.adopted _ _ hs' he
  refine Mortal.wp_bind (Mortal.wp_modify ?_)
  exact ends_publishThen hl fun l => h.rebuilt _ l he

theorem Keeps.finish (hs : I s.registry) (hc : E c) {renameUncertain verified : Bool} {outcome : LocalDiscoveryOutcome}
    {cleanup : CleanupOutcome} {deletion : Option PersistResult} (ho : script.discover = some outcome)
    (hcl : script.cleanup = some cleanup) :
    Mortal.Ends (finishRemoval c r preflight slot renameUncertain verified outcome cleanup deletion) I s := by
  unfold finishRemoval
  dsimp only
  split
  · exact Mortal.wp_pure hs
  · rename_i hok
    simp only [Bool.or_eq_true, Bool.not_eq_true', decide_eq_false_iff_not, not_or, not_not] at hok
    obtain ⟨⟨⟨h1, h2⟩, -⟩, -⟩ := hok
    exact ends_publishThen hs fun l => h.rediscovered c l outcome cleanup hc ho hcl h1 h2

theorem Keeps.afterRename (hs : I s.registry) (hc : M c) {renameUncertain : Bool} :
    Mortal.Ends (script.afterRename c r preflight slot renameUncertain) I s := by
  unfold RemovalScript.afterRename
  refine Mortal.wp_bind (Mortal.wp_ask hs fun evidence _ => ?_)
  refine Mortal.wp_bind (Mortal.wp_ask hs fun outcome ho => ?_)
  refine Mortal.wp_bind (Mortal.wp_ask hs fun cleanup hcl => ?_)
  refine Mortal.wp_bind (Mortal.wp_modify ?_)
  have hs : I ({ s with log := s.log ++ [.cleanupTried cleanup] } : Live).registry := hs
  split
  · refine Mortal.wp_bind (Mortal.wp_ask hs fun answer hanswer => ?_)
    refine Mortal.wp_bind (Mortal.wp_mono (Live.ends_noteIndexSave c _ _ hs) ?_ fun _ hC => hC)
    rintro ⟨⟩ s' hs'
    have he := h.deleted c answer hc hanswer
    have hl := h.adopted _ _ hs' he
    refine Mortal.wp_bind (Mortal.wp_modify ?_)
    exact h.finish hl he ho hcl
  · have he := h.during c hc
    have hl := h.adopted _ _ hs he
    refine Mortal.wp_bind (Mortal.wp_modify ?_)
    exact h.finish hl he ho hcl

theorem Keeps.quarantine (hs : I s.registry) (hc : M c) : Mortal.Ends (script.quarantineOnce c r preflight slot) I s := by
  unfold quarantineOnce
  refine Mortal.wp_bind (Mortal.wp_ask hs fun reverified _ => ?_)
  split
  · exact h.rollback hs hc
  · refine Mortal.wp_bind (Mortal.wp_ask hs fun rename _ => ?_)
    refine Mortal.wp_bind (Mortal.wp_modify ?_)
    have hs : I ({ s with log := s.log ++ [.renameTried rename] } : Live).registry := hs
    split
    · exact h.rollback hs hc
    · split
      · exact h.afterRename hs hc
      · exact Mortal.wp_pure hs
    · exact h.afterRename hs hc

theorem Keeps.mark (hs : I s.registry) (hc : B c) : Mortal.Ends (script.markRemoving c r preflight slot) I s := by
  unfold markRemoving
  refine Mortal.wp_bind (Mortal.wp_ask hs fun answer hanswer => ?_)
  refine Mortal.wp_bind (Mortal.wp_mono (Live.ends_noteIndexSave c _ _ hs) ?_ fun _ hC => hC)
  rintro ⟨⟩ s' hs'
  have hm := h.marked c answer hc hanswer
  cases hp : c.persistRemoving preflight.entry.receiptId slot answer with
  | mk removing candidate =>
    rw [hp] at hm
    have hl := h.adopted _ _ hs' (h.during _ hm)
    dsimp only
    refine Mortal.wp_bind (Mortal.wp_modify ?_)
    split
    · exact h.quarantine hl hm
    · exact h.rollback hl hm

theorem Keeps.disable (hs : I s.registry) : Mortal.Ends (script.disable r preflight slot) I s := by
  unfold RemovalScript.disable
  refine Mortal.wp_bind (Mortal.wp_ask hs fun answer hanswer => ?_)
  refine Mortal.wp_bind (Mortal.wp_mono (Live.ends_noteDisabledSave r _ _ hs) ?_ fun _ hC => hC)
  rintro ⟨⟩ s' hs'
  have hb := h.disabled answer hanswer
  cases hp : r.persistDisabledBeforeRemoval script.windows preflight.record answer with
  | mk disabled candidate =>
    rw [hp] at hb
    have hl := h.adopted _ _ hs' (h.before _ hb)
    dsimp only
    refine Mortal.wp_bind (Mortal.wp_modify ?_)
    split
    · exact h.mark hl hb
    · split
      · exact ends_publishThen hl fun l => h.rebuilt _ l (h.before _ hb)
      · exact Mortal.wp_pure hl

omit h in
/-- **The rule for removals.** -/
theorem run_keeps (hr : I r)
    (h : ∀ hid preflight slot, r.preflightRemoval ⟨script.id, hid⟩ script.generation = .ok preflight →
      script.prepare = some (.ok slot) → script.Keeps r preflight slot I B M E) :
    I (script.runRemoval ⟨r, []⟩).2.registry := by
  have hends : Mortal.Ends script.runRemoval I ⟨r, []⟩ := by
    unfold runRemoval
    split
    · rename_i hid
      refine Mortal.wp_bind (Mortal.wp_get ?_)
      dsimp only
      split
      · exact Mortal.wp_pure hr
      · rename_i preflight hp
        refine Mortal.wp_bind (Mortal.wp_ask hr fun prepared hprep => ?_)
        split
        · exact Mortal.wp_pure hr
        · rename_i slot
          exact (h hid preflight slot hp hprep).disable hr
    · exact Mortal.wp_pure hr
  unfold Mortal.Ends Mortal.wp at hends
  split at hends <;> rename_i heq <;> rw [heq] <;> exact hends

end RemovalScript

end EasiFlux.Plugin
