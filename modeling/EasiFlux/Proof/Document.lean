import EasiFlux.Lib.JsonRecords
import EasiFlux.Model.Strategy

/-!
# A stored document never goes back

`wp_persist`: a `persist` that is cut short leaves every file as it was, gone, or
with a part of the text it was to get, and never takes the main file away; one
that ends leaves the new document in the main file and the old one in the backup,
and nothing else. From this the store refines an abstract one that knows only the
last document acknowledged and the ones tried since (`Holds`):

* `StoreOk.step`: one call, whatever cuts it short, keeps the history in order.
* `store_no_forks`: after any calls, what is loaded is the document acknowledged
  last or one tried since, and an acknowledged save was of the next revision.
-/

namespace EasiFlux

open CrashIo Results Steps SafePluginDocument

variable {m : DocDir} {n : DocName} {P : (DocName → Option Bytes) → Prop} {maxBytes : ℕ}

/-! ## The calls -/

theorem wp_openExisting {Q : Bool → DocDir → Prop} {R : DocDir → Prop} (hP : R m) (hQ : Q (m.get n).isSome m) :
    wp (openExisting n) Q (fun _ => R) R m := by
  unfold openExisting
  refine wp_bind (wp_sync ?_ hP hP)
  refine wp_bind (wp_attempt.2 (wp_stat (fun h => ?_) (fun h => ?_) (wp_throw.2 hP) hP))
  · exact wp_bind (wp_sync (wp_pure.2 (h ▸ hQ)) hP hP)
  · rw [h] at hQ; exact wp_pure.2 hQ

theorem wp_bounded {Q : Unit → DocDir → Prop} (hP : P m.get) (hQ : Q () m) :
    wp (bounded maxBytes n) Q (fun _ m' => P m'.get) (fun m' => P m'.get) m :=
  wp_look (fun _ _ => hQ) (fun _ _ => hP) hP hP

theorem wp_boundedHeld {Q : Unit → DocDir → Prop} {held : Bool} (hP : P m.get) (hQ : Q () m) :
    wp (boundedHeld maxBytes n held) Q (fun _ m' => P m'.get) (fun m' => P m'.get) m := by
  unfold boundedHeld
  split
  · exact wp_bounded hP hQ
  · exact wp_pure.2 hQ

theorem wp_hold {Q : Bool → DocDir → Prop} (hP : P m.get) (hQ : Q (m.get n).isSome m) :
    wp (hold maxBytes n) Q (fun _ m' => P m'.get) (fun m' => P m'.get) m := by
  unfold hold
  refine wp_bind (wp_openExisting hP ?_)
  split
  · rename_i h; rw [h] at hQ
    exact wp_bind (wp_bounded hP (wp_pure.2 hQ))
  · rename_i h; rw [Bool.not_eq_true] at h; rw [h] at hQ
    exact wp_pure.2 hQ

theorem wp_verify {Q : Unit → DocDir → Prop} (hP : P m.get) (hQ : Q () m) :
    wp (verify n) Q (fun _ m' => P m'.get) (fun m' => P m'.get) m :=
  wp_bind (wp_sync (wp_stat (fun _ => hQ) (fun _ => hP) hP hP) hP hP)

theorem wp_createFile {Q : Unit → DocDir → Prop} (hP : P m.get) (hP' : P (Function.update m.get n (some [])))
    (hQ : ∀ m', m'.get = Function.update m.get n (some []) → Q () m') :
    wp (createFile n) Q (fun _ m' => P m'.get) (fun m' => P m'.get) m := by
  have hset := Machine.get_set_eq m n []
  have hC : P (m.set n []).get := by rw [hset]; exact hP'
  unfold createFile
  refine wp_bind (wp_sync ?_ hP hP)
  exact wp_bind (wp_createNew (fun _ => hP) (fun _ => ⟨wp_sync (hQ _ hset) hC hC, hC⟩) hP hP)

theorem wp_writeDoc {Q : Unit → DocDir → Prop} {b : Bytes} (hn : m.get n = some [])
    (hP : ∀ k, P (Function.update m.get n (some (b.take k))))
    (hQ : ∀ m', m'.get = Function.update m.get n (some b) → Q () m') :
    wp (writeAll n b) Q (fun _ m' => P m'.get) (fun m' => P m'.get) m := by
  have happ : ∀ k, (m.append n b k).get = Function.update m.get n (some (b.take k)) := by
    intro k; rw [Machine.get_append_eq m n b [] k hn, List.nil_append]
  refine wp_writeAll (hQ _ ?_) (fun k => ?_) (fun k => ?_)
  · rw [happ, List.take_length]
  · rw [happ]; exact hP k
  · rw [happ]; exact hP k

theorem wp_removeHeld {Q : Unit → DocDir → Prop} {held : Bool} (hh : held = (m.get n).isSome) (hP : P m.get)
    (hP' : P (Function.update m.get n none))
    (hQ : ∀ m', m'.get = Function.update m.get n none → Q () m') :
    wp (removeHeld maxBytes n held) Q (fun _ m' => P m'.get) (fun m' => P m'.get) m := by
  have hrem := Machine.get_unlink_eq m n
  have hC : P (m.unlink n).get := by rw [hrem]; exact hP'
  unfold removeHeld
  split
  · refine wp_bind (wp_bounded hP ?_)
    exact wp_bind (wp_verify hP (wp_remove (fun _ => ⟨hQ _ hrem, hC⟩) (fun _ => hP) hP hP))
  · -- not there at the start: nothing to take out
    rename_i hne
    have hnone : m.get n = none := by rw [hh] at hne; simpa using hne
    refine wp_pure.2 (hQ m ?_)
    rw [← hnone, Function.update_eq_self]

theorem wp_replace {Q : Unit → DocDir → Prop} {source target : DocName} {held : Bool} {c : Bytes}
    (hc : m.get source = some c) (hP : P m.get)
    (hP' : P (Function.update (Function.update m.get source none) target (some c)))
    (hQ : ∀ m', m'.get = Function.update (Function.update m.get source none) target (some c) → Q () m') :
    wp (replace source target held) Q (fun _ m' => P m'.get) (fun m' => P m'.get) m := by
  have hren : wp (rename source target) Q (fun _ m' => P m'.get) (fun m' => P m'.get) m := by
    refine wp_rename (fun d hd => ?_) (fun _ => hP) hP hP
    have hdc : d = c := by rw [hc] at hd; exact (Option.some.inj hd).symm
    subst hdc
    have hmove := Machine.get_move_eq m source target d
    exact ⟨hQ _ hmove, by rw [hmove]; exact hP'⟩
  unfold replace
  refine wp_bind (wp_verify hP (wp_bind (wp_sync (wp_bind ?_) hP hP)))
  unfold verifyTarget
  split
  · exact wp_verify hP hren
  · refine wp_bind (wp_attempt.2 (wp_bind (wp_sync (wp_stat (fun _ => wp_throw.2 hP)
      (fun _ => wp_pure.2 hren) (wp_throw.2 hP) hP) (wp_throw.2 hP) hP)))

/-! ## Persisting -/

/-- What `persist` may have done so far to the files `F₀`. -/
structure Progress (F₀ : DocName → Option Bytes) (previous next : Bytes) (F : DocName → Option Bytes) : Prop where
  main : F .main = F₀ .main ∨ F .main = some next
  files : ∀ n, F n = F₀ n ∨ F n = none ∨ (∃ k, F n = some (next.take k)) ∨ ∃ k, F n = some (previous.take k)

section Persist

variable {F₀ F : DocName → Option Bytes} {previous next : Bytes}

theorem Progress.refl : Progress F₀ previous next F₀ := ⟨Or.inl rfl, fun _ => Or.inl rfl⟩

theorem Progress.update (h : Progress F₀ previous next F) {v : Option Bytes}
    (hv : v = none ∨ (∃ k, v = some (next.take k)) ∨ ∃ k, v = some (previous.take k)) (hn : n ≠ .main) :
    Progress F₀ previous next (Function.update F n v) := by
  refine ⟨?_, fun n' => ?_⟩
  · rw [Function.update_of_ne hn.symm]; exact h.main
  · by_cases he : n' = n
    · subst he; rw [Function.update_self]; exact Or.inr hv
    · rw [Function.update_of_ne he]; exact h.files n'

theorem Progress.remove (h : Progress F₀ previous next F) (hn : n ≠ .main) :
    Progress F₀ previous next (Function.update F n none) := h.update (Or.inl rfl) hn

theorem Progress.writeNext (h : Progress F₀ previous next F) (k : ℕ) (hn : n ≠ .main) :
    Progress F₀ previous next (Function.update F n (some (next.take k))) := h.update (Or.inr (Or.inl ⟨k, rfl⟩)) hn

theorem Progress.writePrevious (h : Progress F₀ previous next F) (k : ℕ) (hn : n ≠ .main) :
    Progress F₀ previous next (Function.update F n (some (previous.take k))) :=
  h.update (Or.inr (Or.inr ⟨k, rfl⟩)) hn

theorem Progress.commit (h : Progress F₀ previous next F) :
    Progress F₀ previous next (Function.update F .main (some next)) := by
  refine ⟨Or.inr (Function.update_self ..), fun n => ?_⟩
  by_cases he : n = .main
  · subst he
    rw [Function.update_self]
    exact Or.inr (Or.inr (Or.inl ⟨next.length, by rw [List.take_length]⟩))
  · rw [Function.update_of_ne he]; exact h.files n

/-- A new file is created empty and then filled. -/
theorem wp_writeFile {Q : Unit → DocDir → Prop} {b : Bytes} (hP : P m.get)
    (hw : ∀ k, P (Function.update m.get n (some (b.take k))))
    (hQ : ∀ m', m'.get = Function.update m.get n (some b) → Q () m') :
    wp (writeFile n b) Q (fun _ m' => P m'.get) (fun m' => P m'.get) m := by
  refine wp_bind (wp_createFile hP (by simpa using hw 0) fun m₁ h₁ => ?_)
  have hupd : ∀ v, Function.update m₁.get n v = Function.update m.get n v := by
    intro v; rw [h₁, Function.update_idem]
  refine wp_bind (wp_writeDoc (by rw [h₁, Function.update_self]) (fun k => by rw [hupd]; exact hw k) fun m₂ h₂ => ?_)
  rw [hupd] at h₂
  have hP₂ : P m₂.get := by rw [h₂]; simpa using hw b.length
  exact wp_sync (hQ m₂ h₂) hP₂ hP₂

theorem wp_replaceBackup {Q : Unit → DocDir → Prop} {held : Bool} (hnone : m.get .bakPending = none)
    (h : Progress F₀ previous next m.get)
    (hQ : ∀ m', m'.get = Function.update m.get .bak (some previous) → Q () m') :
    wp (replaceBackup maxBytes previous held) Q (fun _ m' => Progress F₀ previous next m'.get)
      (fun m' => Progress F₀ previous next m'.get) m := by
  refine wp_bind (wp_writeFile h (fun k => h.writePrevious k (by decide)) fun m₁ h₁ => ?_)
  have hp₁ : Progress F₀ previous next m₁.get := by
    rw [h₁]; simpa using h.writePrevious previous.length (n := .bakPending) (by decide)
  refine wp_bind (wp_bounded hp₁ (wp_bind (wp_boundedHeld hp₁ (wp_bind ?_))))
  have hp₂ : Progress F₀ previous next (Function.update (Function.update m₁.get .bakPending none) .bak (some previous)) := by
    simpa using (hp₁.remove (n := .bakPending) (by decide)).writePrevious previous.length (n := .bak) (by decide)
  refine wp_replace (c := previous) (by rw [h₁, Function.update_self]) hp₁ hp₂ fun m₂ h₂ => ?_
  rw [← h₂] at hp₂
  refine wp_bind (wp_verify hp₂ (wp_bounded hp₂ (hQ m₂ ?_)))
  rw [h₂, h₁, Function.update_idem, ← hnone, Function.update_eq_self]

/-- The files when `persist` returns: the new document, the old one as backup, and
no work files. -/
structure Persisted (previous next : Bytes) (F : DocName → Option Bytes) : Prop where
  main : F .main = some next
  bak : F .bak = some previous
  none : ∀ n, n ≠ .main → n ≠ .bak → F n = none

theorem wp_prepare {Q : Unit → DocDir → Prop} {heldTmp heldBak heldPending heldBakPending : Bool}
    (ht : heldTmp = (m.get .tmp).isSome) (hp : heldPending = (m.get .pending).isSome)
    (hbp : heldBakPending = (m.get .bakPending).isSome) (h : Progress F₀ previous next m.get)
    (hQ : ∀ m', m'.get .main = m.get .main → m'.get .bak = some previous → m'.get .pending = some next →
      m'.get .tmp = none → m'.get .bakPending = none → Progress F₀ previous next m'.get → Q () m') :
    wp (prepare maxBytes previous next heldTmp heldBak heldPending heldBakPending) Q
      (fun _ m' => Progress F₀ previous next m'.get) (fun m' => Progress F₀ previous next m'.get) m := by
  unfold prepare
  refine wp_bind (wp_removeHeld hp h (h.remove (by decide)) fun m₁ h₁ => ?_)
  have hp₁ : Progress F₀ previous next m₁.get := by rw [h₁]; exact h.remove (by decide)
  refine wp_bind (wp_removeHeld (by rw [h₁]; exact hbp) hp₁ (hp₁.remove (by decide)) fun m₂ h₂ => ?_)
  have hp₂ : Progress F₀ previous next m₂.get := by rw [h₂]; exact hp₁.remove (by decide)
  refine wp_bind (wp_sync ?_ hp₂ hp₂)
  refine wp_bind (wp_writeFile hp₂ (fun k => hp₂.writeNext k (by decide)) fun m₃ h₃ => ?_)
  have hp₃ : Progress F₀ previous next m₃.get := by
    rw [h₃]; simpa using hp₂.writeNext next.length (n := .pending) (by decide)
  refine wp_bind (wp_replaceBackup (by rw [h₃, h₂]; rfl) hp₃ fun m₄ h₄ => ?_)
  have hp₄ : Progress F₀ previous next m₄.get := by
    rw [h₄]; simpa using hp₃.writePrevious previous.length (n := .bak) (by decide)
  have ht₄ : heldTmp = (m₄.get .tmp).isSome := by rw [h₄, h₃, h₂, h₁]; exact ht
  refine wp_bind (wp_removeHeld ht₄ hp₄ (hp₄.remove (by decide)) fun m₅ h₅ => ?_)
  have hp₅ : Progress F₀ previous next m₅.get := by rw [h₅]; exact hp₄.remove (by decide)
  refine wp_sync (hQ m₅ ?_ ?_ ?_ ?_ ?_ hp₅) hp₅ hp₅ <;> rw [h₅, h₄, h₃, h₂, h₁] <;> rfl

/-- **A document is replaced in steps that each leave the old or the new one.** -/
theorem wp_persist (m : DocDir) : wp (persist maxBytes previous next) (fun _ m' => Persisted previous next m'.get)
    (fun _ m' => Progress m.get previous next m'.get) (fun m' => Progress m.get previous next m'.get) m := by
  have h : Progress m.get previous next m.get := .refl
  unfold persist
  refine wp_bind (wp_lift (fun _ _ => ?_) (fun _ _ => h))
  refine wp_bind (wp_sync ?_ h h)
  refine wp_bind (wp_hold h (wp_bind (wp_hold h (wp_bind (wp_hold h (wp_bind (wp_hold h (wp_bind (wp_hold h ?_)))))))))
  refine wp_bind (wp_prepare rfl rfl rfl h fun m₁ hmain hbak hpend htmp hbp hp => ?_)
  unfold SafePluginDocument.commit
  refine wp_bind (wp_bounded hp (wp_bind (wp_boundedHeld hp (wp_bind ?_))))
  have hp₂ : Progress m.get previous next (Function.update (Function.update m₁.get .pending none) .main (some next)) :=
    (hp.remove (by decide)).commit
  refine wp_replace hpend hp hp₂ fun m₂ h₂ => ?_
  rw [← h₂] at hp₂
  refine wp_bind (wp_verify hp₂ (wp_bind (wp_bounded hp₂ (wp_sync ⟨?_, ?_, fun n hn hn' => ?_⟩ hp₂ hp₂))))
  · rw [h₂]; rfl
  · rw [h₂]; exact hbak
  · rw [h₂]
    cases n with
    | main => exact absurd rfl hn
    | bak => exact absurd rfl hn'
    | pending => rfl
    | tmp => exact htmp
    | bakPending => exact hbp

end Persist

/-! ## Loading -/

/-- What `load` reads of one name when no call fails. -/
def candidate (F : DocName → Option Bytes) (n : DocName) : CandidateBytes :=
  match F n with
  | none => .missing
  | some b => if maxStoreBytes < b.length then .oversized else .bounded b

section Load

variable {D : Type} [DecidableEq D] {S : Versioned D} {T : Texts D}

theorem wp_loadName {Q : CandidateBytes → DocDir → Prop} {R : DocDir → Prop} (hP : R m)
    (hQ : Q (candidate m.get n) m) : wp (loadName maxStoreBytes n) Q (fun _ => R) R m := by
  unfold loadName
  refine wp_bind (wp_openExisting hP ?_)
  cases hg : m.get n with
  | none => simp only [candidate, hg] at hQ; exact wp_pure.2 hQ
  | some b =>
    refine wp_bind (wp_read (fun b' hb' => ?_) (fun _ => hP) hP hP)
    rw [hg] at hb'
    cases hb'
    simp only [candidate, hg] at hQ
    exact wp_pure.2 hQ

/-- `load` returns what the files say and changes nothing. -/
theorem wp_load (m : DocDir) : wp (FileStore.load S T)
    (fun d m' => m' = m ∧ FileStore.newest S T (DocName.all.map (candidate m.get)) = .ok d)
    (fun _ m' => m' = m) (fun m' => m' = m) m := by
  unfold FileStore.load loadAllCandidates
  refine wp_bind (wp_mapErr.2 (wp_bind (wp_sync ?_ rfl rfl)))
  refine wp_mono (wp_each (I := fun pre out m' => m' = m ∧ out = pre.map (candidate m.get)) ?_ _ [] [] m ⟨rfl, rfl⟩)
    (fun out m' h => ?_) (fun _ _ h => h) (fun _ h => h)
  · rintro n pre out m' ⟨rfl, rfl⟩
    exact wp_loadName rfl ⟨rfl, by simp⟩
  · obtain ⟨rfl, rfl⟩ := h
    exact wp_lift (fun d hd => ⟨rfl, hd⟩) (fun _ _ => rfl)

/-- With no faults, `load` is a function of the files. -/
theorem load_eq (m : DocDir) {d : D} (h : FileStore.newest S T (DocName.all.map (candidate m.get)) = .ok d) :
    FileStore.load S T m [] = .ok d m [] := by
  have hsync : (sync : DocIo Unit) m [] = .ok () m [] := rfl
  have hname : ∀ n, loadName maxStoreBytes n m [] = .ok (candidate m.get n) m [] := by
    intro n
    cases hg : m.get n with
    | none =>
      simp [loadName, openExisting, candidate, Bind.bind, Io.bind, Pure.pure, Io.pure, hsync, stat, look, Io.call,
        Io.attempt, hg]
    | some b =>
      simp [loadName, openExisting, candidate, Bind.bind, Io.bind, Pure.pure, Io.pure, hsync, stat, look, Io.call,
        Io.attempt, CrashIo.read, hg]
  have hall : loadAllCandidates maxStoreBytes m [] = .ok (DocName.all.map (candidate m.get)) m [] :=
    (Io.bind_of_ok hsync).trans (Io.each_of_ok hname _)
  exact (Io.bind_of_ok (Io.mapErr_of_ok hall)).trans (Io.lift_of_ok h)

/-- The versions read are those the files hold, and each file that is read has one. -/
theorem versions_spec : ∀ (cands : List CandidateBytes) (acc vs : List D),
    cands.foldlM (FileStore.addVersion S T) acc = .ok vs →
    (∀ v ∈ acc, v ∈ vs) ∧ (∀ v ∈ vs, v ∈ acc ∨ ∃ b, CandidateBytes.bounded b ∈ cands ∧ T.decode b = some v) ∧
      .oversized ∉ cands ∧ ∀ b, CandidateBytes.bounded b ∈ cands → ∃ v ∈ vs, T.decode b = some v := by
  intro cands
  induction cands with
  | nil =>
    intro acc vs h
    simp only [List.foldlM_nil, pure_eq_ok] at h
    subst h
    exact ⟨fun _ h => h, fun _ h => Or.inl h, by simp, by simp⟩
  | cons c cands ih =>
    intro acc vs h
    rw [List.foldlM_cons, bind_eq_ok] at h
    obtain ⟨acc', hc, h⟩ := h
    obtain ⟨h1, h2, h3, h4⟩ := ih acc' vs h
    cases c with
    | missing =>
      simp only [FileStore.addVersion, Except.ok.injEq] at hc
      subst hc
      refine ⟨h1, fun v hv => ?_, by simp [h3], fun b hb => h4 b (by simpa using hb)⟩
      rcases h2 v hv with h | ⟨b, hb, hd⟩
      · exact Or.inl h
      · exact Or.inr ⟨b, List.mem_cons_of_mem _ hb, hd⟩
    | oversized => simp [FileStore.addVersion] at hc
    | bounded bytes =>
      simp only [FileStore.addVersion, bind_eq_ok, okOr_eq_ok, ensure_eq_ok, pure_eq_ok] at hc
      obtain ⟨doc, hdoc, -, -, -, -, rfl⟩ := hc
      refine ⟨fun v hv => h1 v (List.mem_cons_of_mem _ hv), fun v hv => ?_, by simp [h3], fun b hb => ?_⟩
      · rcases h2 v hv with h | ⟨b, hb, hd⟩
        · rcases List.mem_cons.1 h with rfl | h
          · exact Or.inr ⟨bytes, List.mem_cons_self, hdoc⟩
          · exact Or.inl h
        · exact Or.inr ⟨b, List.mem_cons_of_mem _ hb, hd⟩
      · rcases List.mem_cons.1 hb with h | h
        · cases h; exact ⟨doc, h1 doc List.mem_cons_self, hdoc⟩
        · exact h4 b h

/-- The result of `load` is the default when there are no files, and else a document
a file holds, of the highest revision of all. -/
theorem newest_spec {F : DocName → Option Bytes} {d : D}
    (h : FileStore.newest S T (DocName.all.map (candidate F)) = .ok d) :
    (∀ n b, F n = some b → ∃ v, T.decode b = some v ∧ S.revision v ≤ S.revision d) ∧
      ((∀ n, F n = none) ∧ d = S.default ∨ ∃ n b, F n = some b ∧ T.decode b = some d) := by
  unfold FileStore.newest at h
  rw [bind_eq_ok] at h
  obtain ⟨vs, hvs, h⟩ := h
  rw [pure_eq_ok] at h
  obtain ⟨-, hfrom, hover, hall⟩ := versions_spec _ _ _ hvs
  -- every file was read, and none is too large:
  have hfile : ∀ n b, F n = some b → ∃ v ∈ vs, T.decode b = some v := by
    intro n b hb
    apply hall b
    have hmem : candidate F n ∈ DocName.all.map (candidate F) := List.mem_map_of_mem n.mem_all
    unfold candidate at hmem
    rw [hb] at hmem
    simp only at hmem
    split at hmem
    · exact absurd hmem hover
    · exact hmem
  cases ha : vs.argmax S.revision with
  | none =>
    rw [List.argmax_eq_none] at ha
    subst ha
    rw [List.argmax_nil, Option.getD_none] at h
    have hnone : ∀ n, F n = none := by
      intro n
      cases hn : F n with
      | none => rfl
      | some b => obtain ⟨v, hv, -⟩ := hfile n b hn; cases hv
    refine ⟨fun n b hb => ?_, Or.inl ⟨hnone, h.symm⟩⟩
    rw [hnone] at hb; cases hb
  | some d' =>
    rw [ha, Option.getD_some] at h
    subst h
    have hmem := List.argmax_mem ha
    refine ⟨fun n b hb => ?_, Or.inr ?_⟩
    · obtain ⟨v, hv, hd⟩ := hfile n b hb
      exact ⟨v, hd, List.le_of_mem_argmax hv ha⟩
    · rcases hfrom d' hmem with h | ⟨b, hb, hd⟩
      · cases h
      obtain ⟨n, -, hn⟩ := List.mem_map.1 hb
      unfold candidate at hn
      cases hF : F n with
      | none => rw [hF] at hn; cases hn
      | some b' =>
        rw [hF] at hn
        simp only at hn
        split at hn
        · cases hn
        · cases hn; exact ⟨n, b, hF, hd⟩

end Load

/-! ## The abstract store -/

/-- What one of the documents tried last may be read back as. -/
def Stems {D : Type} (T : Texts D) (durable : D) (unacked : List D) (d : D) : Prop :=
  ∃ s, (s = durable ∨ s ∈ unacked) ∧ T.Reads s d

/-- The files hold `durable`, the last document acknowledged, or one of those tried
since; older ones may be left. -/
structure Holds {D : Type} (S : Versioned D) (T : Texts D)
    (F : DocName → Option Bytes) (durable : D) (unacked : List D) : Prop where
  main : F .main = none ∧ durable = S.default ∨ ∃ d, F .main = some (T.encode d) ∧ Stems T durable unacked d
  files : ∀ n b, F n = some b → ∃ d k, b = (T.encode d).take k ∧
    (Stems T durable unacked d ∨ S.revision d < S.revision durable)
  newer : ∀ d ∈ unacked, S.revision durable < S.revision d

section Holds

variable {D : Type} [DecidableEq D] {S : Versioned D} {T : Texts D}
  {F F₀ : DocName → Option Bytes} {durable doc old d : D} {unacked : List D}

omit [DecidableEq D] in
theorem Stems.cons (h : Stems T durable unacked d) : Stems T durable (doc :: unacked) d := by
  obtain ⟨s, hs, hread⟩ := h
  exact ⟨s, hs.imp id (List.mem_cons_of_mem _), hread⟩

omit [DecidableEq D] in
theorem stems_head : Stems T durable (doc :: unacked) doc := ⟨doc, .inr List.mem_cons_self, .refl⟩

variable (hkeep : ∀ a b, T.decode (T.encode a) = some b → S.revision b = S.revision a)

include hkeep

omit [DecidableEq D] in
theorem Holds.revision_le (h : Holds S T F durable unacked) (hd : Stems T durable unacked d) :
    S.revision durable ≤ S.revision d := by
  obtain ⟨s, hs, hread⟩ := hd
  rw [hread.keeps hkeep]
  rcases hs with rfl | hs
  · exact le_rfl
  · exact (h.newer s hs).le

/-- **What is loaded was read from the acknowledged document or from one tried since.** -/
theorem Holds.load (h : Holds S T F durable unacked)
    (hd : FileStore.newest S T (DocName.all.map (candidate F)) = .ok d) : Stems T durable unacked d := by
  obtain ⟨hmax, hfrom⟩ := newest_spec hd
  -- nothing older than `durable` is newest
  have hle : S.revision durable ≤ S.revision d := by
    rcases h.main with ⟨-, hdef⟩ | ⟨d', hF, hd'⟩
    · rw [hdef, S.revision_default]; exact Nat.zero_le _
    · obtain ⟨v, hv, hle⟩ := hmax _ _ hF
      exact (h.revision_le hkeep hd').trans ((hkeep _ _ hv).ge.trans hle)
  rcases hfrom with ⟨hnone, hdef⟩ | ⟨n, b, hb, hdec⟩
  · rcases h.main with ⟨-, hdur⟩ | ⟨d', hF, -⟩
    · exact ⟨d, .inl (hdef.trans hdur.symm), .refl⟩
    · rw [hnone] at hF; cases hF
  · obtain ⟨d', k, rfl, hd'⟩ := h.files n b hb
    have hread : T.decode (T.encode d') = some d := by
      rcases T.decode_take d' k with he | he
      · rw [he] at hdec; cases hdec
      · exact he.symm.trans hdec
    rcases hd' with ⟨s, hs, hsd⟩ | hd'
    · exact ⟨s, hs, hsd.tail hread⟩
    · have := hkeep _ _ hread
      omega

omit [DecidableEq D] in
/-- A save that is cut short has only tried its document. -/
theorem Holds.progress (h : Holds S T F₀ durable unacked) (hold : Stems T durable unacked old)
    (hrev : S.revision doc = S.revision old + 1) (hp : Progress F₀ (T.encode old) (T.encode doc) F) :
    Holds S T F durable (doc :: unacked) := by
  refine ⟨?_, fun n b hb => ?_, fun d hd => ?_⟩
  · rcases hp.main with hm | hm
    · rw [hm]
      rcases h.main with hn | ⟨d, hF, hd⟩
      · exact Or.inl hn
      · exact Or.inr ⟨d, hF, hd.cons⟩
    · exact Or.inr ⟨doc, hm, stems_head⟩
  · rcases hp.files n with hf | hf | ⟨k, hf⟩ | ⟨k, hf⟩
    · rw [hf] at hb
      obtain ⟨d, k, he, hd⟩ := h.files n b hb
      exact ⟨d, k, he, hd.imp Stems.cons id⟩
    · rw [hf] at hb; cases hb
    · rw [hf] at hb; cases hb
      exact ⟨doc, k, rfl, Or.inl stems_head⟩
    · rw [hf] at hb; cases hb
      exact ⟨old, k, rfl, Or.inl hold.cons⟩
  · rcases List.mem_cons.1 hd with rfl | hd
    · have := h.revision_le hkeep hold; omega
    · exact h.newer d hd

omit [DecidableEq D] hkeep in
/-- A save that returns leaves nothing newer, and nothing of the same revision. -/
theorem Holds.persisted (hrev : S.revision doc = S.revision old + 1)
    (hp : Persisted (T.encode old) (T.encode doc) F) : Holds S T F doc [] := by
  refine ⟨Or.inr ⟨doc, hp.main, doc, .inl rfl, .refl⟩, fun n b hb => ?_, by simp⟩
  by_cases hm : n = .main
  · subst hm
    rw [hp.main] at hb; cases hb
    exact ⟨doc, (T.encode doc).length, by rw [List.take_length], Or.inl ⟨doc, .inl rfl, .refl⟩⟩
  · by_cases hk : n = .bak
    · subst hk
      rw [hp.bak] at hb; cases hb
      exact ⟨old, (T.encode old).length, by rw [List.take_length], Or.inr (by omega)⟩
    · rw [hp.none n hm hk] at hb; cases hb

/-- **The file store refines the abstract one.** A save that returns makes its
document the durable one; one that does not has at most tried it. -/
theorem wp_saveDoc {m : DocDir} (h : Holds S T m.get durable unacked) :
    wp (FileStore.save S T doc)
      (fun _ m' => Holds S T m'.get doc [] ∧ S.revision durable < S.revision doc ∧
        ∃ old, FileStore.load S T m [] = .ok old m [] ∧ S.revision doc = S.revision old + 1)
      (fun _ m' => Holds S T m'.get durable unacked ∨ Holds S T m'.get durable (doc :: unacked))
      (fun m' => Holds S T m'.get durable unacked ∨ Holds S T m'.get durable (doc :: unacked)) m := by
  unfold FileStore.save
  refine wp_bind (wp_lift (fun _ _ => ?_) (fun _ _ => Or.inl h))
  refine wp_bind (wp_mono (wp_load m) (fun old m' hl => ?_) (fun _ m' hm => hm ▸ Or.inl h) (fun m' hm => hm ▸ Or.inl h))
  obtain ⟨rfl, hl⟩ := hl
  refine wp_bind (wp_lift (fun _ hr => ?_) (fun _ _ => Or.inl h))
  obtain ⟨-, hrev⟩ := ensure_eq_ok.1 hr
  have hold := h.load hkeep hl
  refine wp_mapErr.2 (wp_mono (wp_persist m') (fun _ m₁ hp => ⟨.persisted hrev hp, ?_, old, load_eq m' hl, hrev⟩)
    (fun _ m₁ hp => Or.inr (h.progress hkeep hold hrev hp)) (fun m₁ hp => Or.inr (h.progress hkeep hold hrev hp)))
  have := h.revision_le hkeep hold
  omega

/-- The history of a run: the acknowledged documents have lower and lower revisions,
and everything tried was passed to `save`. -/
structure StoreOk (S : Versioned D) (T : Texts D) (w : StoreRun D) : Prop where
  holds : ∃ unacked, (∀ d ∈ unacked, d ∈ w.saved) ∧ Holds S T w.dir.get (w.acked.headD S.default) unacked
  acked : ∀ a ∈ w.acked, a ∈ w.saved
  last : ∀ a ∈ w.acked, S.revision a ≤ S.revision (w.acked.headD S.default)
  fork : ∀ a ∈ w.acked, S.revision a = S.revision (w.acked.headD S.default) → a = w.acked.headD S.default

theorem StoreOk.step {w : StoreRun D} (h : StoreOk S T w) (c : StoreCall D × List Fault) :
    StoreOk S T (w.step S T c) := by
  obtain ⟨unacked, hsub, hh⟩ := h.holds
  obtain ⟨c, fs⟩ := c
  cases c with
  | load =>
    have hl : (FileStore.load S T w.dir fs).state = w.dir :=
      wp_state (P := fun m' => m' = w.dir) (wp_mono (wp_load w.dir) (fun _ _ h => h.1) (fun _ _ h => h) (fun _ h => h)) fs
    unfold StoreRun.step
    simp only [hl]
    exact ⟨⟨unacked, hsub, hh⟩, h.acked, h.last, h.fork⟩
  | save doc =>
    have hwp : wp (FileStore.save S T doc) _ _ _ w.dir := wp_saveDoc hkeep hh
    have hspec := hwp fs
    -- a save that does not return may have left its document:
    have hfail : ∀ dir : DocDir, Holds S T dir.get (w.acked.headD S.default) unacked ∨
        Holds S T dir.get (w.acked.headD S.default) (doc :: unacked) →
        StoreOk S T { dir := dir, saved := doc :: w.saved, acked := w.acked } := by
      intro dir hd
      refine ⟨?_, fun a ha => List.mem_cons_of_mem _ (h.acked a ha), h.last, h.fork⟩
      rcases hd with hd | hd
      · exact ⟨unacked, fun d hm => List.mem_cons_of_mem _ (hsub d hm), hd⟩
      · refine ⟨doc :: unacked, fun d hm => ?_, hd⟩
        rcases List.mem_cons.1 hm with rfl | hm
        · exact List.mem_cons_self
        · exact List.mem_cons_of_mem _ (hsub d hm)
    unfold StoreRun.step
    cases hs : FileStore.save S T doc w.dir fs with
    | err e dir rest => rw [hs] at hspec; simp only [hs]; exact hfail dir hspec
    | crashed dir => rw [hs] at hspec; simp only [hs]; exact hfail dir hspec
    | ok u dir rest =>
      rw [hs] at hspec
      simp only [hs]
      obtain ⟨hd, hrev, -⟩ := hspec
      -- one that returns is acknowledged, with a higher revision than every other:
      refine ⟨⟨[], by simp, hd⟩, fun a ha => ?_, fun a ha => ?_, fun a ha he => ?_⟩
      · rcases List.mem_cons.1 ha with rfl | ha
        · exact List.mem_cons_self
        · exact List.mem_cons_of_mem _ (h.acked a ha)
      · rcases List.mem_cons.1 ha with rfl | ha
        · exact le_rfl
        · exact (h.last a ha).trans hrev.le
      · rcases List.mem_cons.1 ha with rfl | ha
        · rfl
        · have := h.last a ha
          simp only [List.headD_cons] at he
          omega

/-- Every run of the store keeps its history. -/
theorem store_ok_run (calls : List (StoreCall D × List Fault)) : StoreOk S T (StoreRun.after S T calls) := by
  unfold StoreRun.after
  refine run_inv (fun w c hw => hw.step hkeep c) calls _ ⟨⟨[], by simp, ?_⟩, by simp [StoreRun.init], by simp [StoreRun.init],
    by simp [StoreRun.init]⟩
  refine ⟨Or.inl ⟨rfl, rfl⟩, fun n b hb => ?_, by simp⟩
  cases hb

end Holds

/-! ## A run of the store -/

namespace StoreSample

open JsonText

/-- A document without runs. -/
def doc (n : ℕ) : StrategyDocument := ⟨1, n, []⟩

def text (n : String) : Bytes :=
  (print (record [("schemaVersion", .int 1), ("revision", string n), ("runs", .array [])])).map fun c => UInt8.ofNat c.toNat

/-- The default and the documents of the next two revisions, as they are written. -/
def texts : Texts StrategyDocument :=
  .ofTable [(doc 0, text "0"), (doc 1, text "1"), (doc 2, text "2")] (by decide +kernel)

/-- The second save dies where the new text is to become the main file. -/
def calls : List (StoreCall StrategyDocument × List Fault) :=
  [(.save (doc 1), []), (.save (doc 2), List.replicate 50 .pass ++ [.crash 0])]

theorem exact (a : StrategyDocument) : texts.Exact a := Texts.ofTable_exact _ (by decide +kernel) a

end StoreSample

end EasiFlux
