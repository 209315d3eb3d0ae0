import EasiFlux.Proof.Submissions

/-!
# Reading back what the journal wrote

`Submissions` says what no fault can break. Here is what a call that comes back has
done: the outcome it finished with is the one `get` returns (`wp_finish_of`), and a
call under no fault does come back (`finish_run`, `begin_run`).
-/

namespace EasiFlux

open CrashIo Results OrderSubmissionStore

variable {K : Crates} {C : RecordCodec} {scope : String} {m : JournalDir}

/-! ## Reading -/

theorem readCandidate_none {hash : String} {id : Option String} {s : Suffix} (h : m.get (.record hash s) = none) :
    readCandidate K C scope hash id s m [] = .ok none m [] := by
  have hstat : stat (.record hash s) m [] = .err .notFound m [] := by simp [stat, look, Io.call, h]
  have hatt : (Io.attempt (stat (.record hash s)) : Journal _) m [] = .ok (.error .notFound) m [] := by
    unfold Io.attempt; rw [hstat]
  unfold readCandidate
  rw [Io.bind_of_ok hatt]
  rfl

theorem readCandidate_some {hash : String} {id : Option String} {s : Suffix} {b : Bytes} {r : StoredSubmission}
    (h : m.get (.record hash s) = some b) (hc : checkRecord K C scope hash id b = .ok r) :
    readCandidate K C scope hash id s m [] = .ok (some r) m [] := by
  have hstat : stat (.record hash s) m [] = .ok () m [] := by simp [stat, look, Io.call, h]
  have hread : CrashIo.read (.record hash s) m [] = .ok b m [] := by simp [CrashIo.read, look, Io.call, h]
  exact (Io.bind_of_ok (Io.attempt_of_ok hstat)).trans
    ((Io.bind_of_ok (Io.mapErr_of_ok hread)).trans (Io.bind_of_ok (Io.lift_of_ok hc)))

theorem readRecord_none {hash : String} {id : Option String} (h : ∀ s, m.get (.record hash s) = none) :
    readRecord K C scope hash id m [] = .ok none m [] := by
  unfold readRecord
  rw [Io.bind_of_ok (readCandidate_none (h .main))]
  exact (Io.bind_of_ok (readCandidate_none (h .tmp))).trans (readCandidate_none (h .bak))

theorem readRecord_some {hash : String} {id : Option String} {b : Bytes} {r : StoredSubmission}
    (hb : current m hash = some b) (hc : checkRecord K C scope hash id b = .ok r) :
    readRecord K C scope hash id m [] = .ok (some r) m [] := by
  unfold readRecord
  unfold current at hb
  cases h1 : m.get (.record hash .main) with
  | some b₁ =>
    rw [h1] at hb
    cases hb
    rw [Io.bind_of_ok (readCandidate_some h1 hc)]
    rfl
  | none =>
    rw [Io.bind_of_ok (readCandidate_none h1)]
    cases h2 : m.get (.record hash .tmp) with
    | some b₂ =>
      rw [h1, h2] at hb
      cases hb
      exact Io.bind_of_ok (readCandidate_some h2 hc)
    | none =>
      rw [h1, h2] at hb
      exact (Io.bind_of_ok (readCandidate_none h2)).trans (readCandidate_some hb hc)

/-- What a record in view was checked for. -/
theorem check_of_view {hash : String} {r : StoredSubmission} (hv : view K C scope m hash = .readable r) :
    ∃ b, current m hash = some b ∧ checkRecord K C scope hash none b = .ok r := by
  unfold view at hv
  cases hb : current m hash with
  | none => rw [hb] at hv; cases hv
  | some b =>
    rw [hb] at hv
    unfold viewOf at hv
    simp only at hv
    cases hc : checkRecord K C scope hash none b with
    | error e => rw [hc] at hv; cases hv
    | ok r' =>
      rw [hc] at hv
      cases hv
      exact ⟨b, rfl, hc⟩

theorem get_run {id : String} {x : Option StoredSubmission} (hs : scope ≠ "") (hid : validateIdentity id = .ok ())
    (hx : readRecord K C scope (K.identityHash id) (some id) m [] = .ok x m []) :
    get K C scope id m [] = .ok x m [] :=
  (Io.bind_of_ok (Io.lift_of_ok hid)).trans ((Io.bind_of_ok (Io.lift_of_ok (ensure_of hs))).trans hx)

theorem get_of_view {r : StoredSubmission} (hs : scope ≠ "")
    (hv : view K C scope m (K.identityHash r.orderLinkId) = .readable r) :
    get K C scope r.orderLinkId m [] = .ok (some r) m [] := by
  obtain ⟨b, hb, hc⟩ := check_of_view hv
  obtain ⟨h1, h2, h3, h4, -, h6, h7⟩ := checkRecord_ok.1 hc
  exact get_run hs h3 (readRecord_some hb (checkRecord_ok.2 ⟨h1, h2, h3, h4, by simp, h6, h7⟩))

/-- A record in view is the stored one. -/
theorem stored_of_view {r : StoredSubmission} (hs : scope ≠ "")
    (hv : view K C scope m (K.identityHash r.orderLinkId) = .readable r) :
    stored K C scope m.disk r.orderLinkId = some r := by
  have hget : get K C scope r.orderLinkId ⟨m.disk, []⟩ [] = .ok (some r) ⟨m.disk, []⟩ [] := get_of_view hs hv
  unfold stored
  rw [hget]

theorem view_of_stored {id : String} {r : StoredSubmission} (h : stored K C scope m.disk id = some r) :
    view K C scope m (K.identityHash r.orderLinkId) = .readable r ∧ id = r.orderLinkId := by
  obtain ⟨hv, rfl⟩ := stored_view h
  exact ⟨hv, rfl⟩

theorem wp_get_scope {id : String} :
    wp (get K C scope id) (fun _ _ => scope ≠ "") (fun _ _ => True) (fun _ => True) m := by
  unfold OrderSubmissionStore.get
  refine wp_bind (wp_lift (fun _ _ => ?_) (fun _ _ => trivial))
  refine wp_bind (wp_lift (fun _ hs => ?_) (fun _ _ => trivial))
  exact wp_mono wp_readRecord (fun _ _ _ => ensure_eq_ok.1 hs) (fun _ _ _ => trivial) (fun _ _ => trivial)

theorem scope_of_stored {id : String} {r : StoredSubmission} {files : Disk FileName}
    (h : stored K C scope files id = some r) : scope ≠ "" := by
  unfold stored at h
  have hg := (wp_get_scope : wp (get K C scope id) _ _ _ ⟨files, []⟩) []
  cases hx : get K C scope id ⟨files, []⟩ [] with
  | ok x m' rest => rw [hx] at hg; exact hg
  | err e m' rest => rw [hx] at h; cases h
  | crashed m' => rw [hx] at h; cases h

/-! ## Finishing -/

/-- A record whose outcome alone is changed still passes the checks: none of them
reads it. -/
theorem checkRecord_outcome {hash : String} {b : Bytes} {r : StoredSubmission}
    (hc : checkRecord K C scope hash none b = .ok r) (hw : r.wire = true) (outcome : SubmissionOutcome) :
    checkRecord K C scope hash none (C.encode { r with outcome := outcome }) = .ok { r with outcome := outcome } := by
  obtain ⟨-, h2, h3, h4, h5, h6, h7⟩ := checkRecord_ok.1 hc
  exact checkRecord_ok.2 ⟨C.decode_of_wire hw, h2, h3, h4, h5, h6, h7⟩

/-- A `finish` that comes back has put its outcome into view. -/
theorem wp_finish_of {id : String} {r : StoredSubmission}
    (h : ∀ r', view K C scope m (K.identityHash id) = .readable r' → r' = r ∧ r.wire = true) (outcome : SubmissionOutcome) :
    wp (finish K C scope id outcome)
      (fun _ m' => view K C scope m' (K.identityHash id) = .readable { r with outcome := outcome } ∧ m'.log = m.log)
      (fun _ m' => Written K C scope m (K.identityHash id) { r with outcome := outcome } m')
      (fun m' => Written K C scope m (K.identityHash id) { r with outcome := outcome } m') m := by
  unfold finish
  refine wp_bind (wp_mono wp_get (fun x m' hx => ?_) (fun _ m' h => h ▸ .refl) (fun m' h => h ▸ .refl))
  obtain ⟨rfl, hx⟩ := hx
  refine wp_bind (wp_lift (fun r' hr => ?_) (fun _ _ => .refl))
  cases okOr_eq_ok.1 hr
  obtain ⟨rfl, hw⟩ := h r' hx.1
  obtain ⟨b, -, hc⟩ := check_of_view hx.1
  refine wp_bind (wp_lift (fun _ _ => ?_) (fun _ _ => .refl))
  refine wp_mapErr.2 (wp_mono wp_save (fun _ m'' hs => ⟨?_, hs.1.log⟩) (fun _ _ h => h.written) (fun _ h => h.written))
  rw [view_of_current hs.2]
  unfold viewOf
  rw [checkRecord_outcome hc hw outcome]

/-! ## Calls that go through -/

section Run

variable {hash : String}

theorem removeOldBackup_run (hash : String) (m : JournalDir) : ∃ m', ConfigPersistence.removeOldBackup hash m [] = .ok () m' [] ∧
    m'.get (.record hash .main) = m.get (.record hash .main) ∧ m'.get (.record hash .tmp) = m.get (.record hash .tmp) := by
  unfold ConfigPersistence.removeOldBackup
  cases hb : m.get (.record hash .bak) with
  | some c =>
    refine ⟨m.unlink (.record hash .bak), ?_, by simp, by simp⟩
    rw [Io.bind_of_ok (Io.attempt_of_ok (remove_run (by rw [hb]; rfl)))]
    rfl
  | none =>
    refine ⟨m, ?_, rfl, rfl⟩
    have hrem : (Io.attempt (remove (.record hash .bak)) : Io JournalDir IoErr _) m [] = .ok (.error .notFound) m [] := by
      simp [Io.attempt, remove, atomic, Io.call, hb]
    rw [Io.bind_of_ok hrem]
    rfl

theorem get_moved (m : JournalDir) (b : Bytes) :
    (m.move (.record hash .tmp) (.record hash .main) b).get (.record hash .main) = some b := by
  rw [Machine.get_move _ _ _ _ _ (by simp)]
  simp

theorem replaceExistingMain_run {a b : Bytes} (ha : m.get (.record hash .main) = some a)
    (hb : m.get (.record hash .tmp) = some b) :
    ∃ m', ConfigPersistence.replaceExistingMain hash m [] = .ok () m' [] ∧ m'.get (.record hash .main) = some b := by
  obtain ⟨m₁, h₁, hm₁, ht₁⟩ := removeOldBackup_run hash m
  rw [ha] at hm₁
  rw [hb] at ht₁
  have ht₂ : (m₁.move (.record hash .main) (.record hash .bak) a).get (.record hash .tmp) = some b := by
    rw [Machine.get_move _ _ _ _ _ (by simp)]
    simpa using ht₁
  refine ⟨(m₁.move (.record hash .main) (.record hash .bak) a).move (.record hash .tmp) (.record hash .main) b, ?_,
    get_moved _ b⟩
  unfold ConfigPersistence.replaceExistingMain
  rw [Io.bind_of_ok h₁, Io.bind_of_ok (rename_run hm₁), Io.bind_of_ok (Io.attempt_of_ok (rename_run ht₂))]
  rfl

theorem replaceMain_run {b : Bytes} (hb : m.get (.record hash .tmp) = some b) :
    ∃ m', ConfigPersistence.replaceMain hash m [] = .ok () m' [] ∧ m'.get (.record hash .main) = some b := by
  unfold ConfigPersistence.replaceMain
  cases hm : m.get (.record hash .main) with
  | none =>
    have hstat : (Io.attempt (stat (.record hash .main)) : Io JournalDir IoErr _) m [] = .ok (.error .notFound) m [] := by
      simp [Io.attempt, stat, look, Io.call, hm]
    exact ⟨_, (Io.bind_of_ok hstat).trans (rename_run hb), get_moved _ b⟩
  | some a =>
    have hstat : stat (.record hash .main) m [] = .ok () m [] := by simp [stat, look, Io.call, hm]
    obtain ⟨m', h', hmain⟩ := replaceExistingMain_run hm hb
    exact ⟨m', (Io.bind_of_ok (Io.attempt_of_ok hstat)).trans h', hmain⟩

theorem save_run (hash : String) (m : JournalDir) (b : Bytes) :
    ∃ m', ConfigPersistence.save hash b m [] = .ok () m' [] ∧ m'.get (.record hash .main) = some b := by
  set m₁ := (m.set (.record hash .tmp) []).append (.record hash .tmp) b b.length with hm₁
  have ht : m₁.get (.record hash .tmp) = some b := by simp [hm₁, Machine.append]
  have hwrite : ConfigPersistence.writeTemp hash b m [] = .ok () m₁ [] := by
    unfold ConfigPersistence.writeTemp
    rw [Io.bind_of_ok (openTruncate_run _), Io.bind_of_ok (writeAll_run _ _)]
    exact sync_run
  obtain ⟨m', h', hmain⟩ := replaceMain_run ht
  refine ⟨m', ?_, hmain⟩
  unfold ConfigPersistence.save
  rw [Io.bind_of_ok sync_run, Io.bind_of_ok hwrite]
  exact h'

end Run

/-- A `finish` under no fault comes back, and its outcome is stored. -/
theorem finish_run {r : StoredSubmission} (hs : scope ≠ "")
    (hv : view K C scope m (K.identityHash r.orderLinkId) = .readable r) (hw : r.wire = true) (outcome : SubmissionOutcome) :
    ∃ m', finish K C scope r.orderLinkId outcome m [] = .ok () m' [] ∧
      stored K C scope m'.disk r.orderLinkId = some { r with outcome := outcome } ∧ m'.log = m.log := by
  obtain ⟨m', h', -⟩ := save_run (K.identityHash r.orderLinkId) m (C.encode { r with outcome := outcome })
  have hrun : finish K C scope r.orderLinkId outcome m [] = .ok () m' [] :=
    (Io.bind_of_ok (get_of_view hs hv)).trans ((Io.bind_of_ok (Io.lift_of_ok (okOr_eq_ok.2 rfl))).trans
      ((Io.bind_of_ok (Io.lift_of_ok (ensure_of hs))).trans (Io.mapErr_of_ok h')))
  have hspec : wp (finish K C scope r.orderLinkId outcome) _ _ _ m := wp_finish_of (r := r) (fun r' hr' => by
    rw [hv] at hr'
    exact ⟨(View.readable.inj hr').symm, hw⟩) outcome
  have hdone := hspec []
  rw [hrun] at hdone
  exact ⟨m', hrun, stored_of_view (r := { r with outcome := outcome }) hs hdone.1, hdone.2⟩

/-- A `begin` under no fault makes the record of an id that has no file. -/
theorem begin_run {id : String} {request : PlaceOrderRequest} {now : ℕ} (hs : scope ≠ "")
    (hid : request.orderLinkId = some id) (hv : validateIdentity id = .ok ())
    (ha : ∀ s, m.get (.record (K.identityHash id) s) = none) :
    ∃ m', begin K C scope request now m [] = .ok (newRecord scope id request now) m' [] := by
  have hnone : get K C scope id m [] = .ok none m [] := get_run hs hv (readRecord_none ha)
  have hcreate : createNew (.record (K.identityHash id) .main) m [] = .ok () (m.set (.record (K.identityHash id) .main) []) [] :=
    createNew_run (ha .main)
  exact ⟨_, (Io.bind_of_ok (Io.lift_of_ok (okOr_eq_ok.2 hid))).trans ((Io.bind_of_ok hnone).trans
    ((Io.bind_of_ok (Io.lift_of_ok (ensure_of hs))).trans ((Io.bind_of_ok (Io.mapErr_of_ok sync_run)).trans
      ((Io.bind_of_ok (Io.attempt_of_ok hcreate)).trans ((Io.bind_of_ok (Io.mapErr_of_ok (writeAll_run _ _))).trans
        (Io.bind_of_ok (Io.mapErr_of_ok sync_run)))))))⟩

theorem listPending_empty {log : List Submission} (hs : scope ≠ "") :
    listPending K C scope ⟨∅, log⟩ [] = .ok [] ⟨∅, log⟩ [] := by
  have hdir : orIoError (readDir : Io JournalDir IoErr _) ⟨∅, log⟩ [] = .ok [] ⟨∅, log⟩ [] := rfl
  have hsort : sortPending [] = [] := by simp [sortPending]
  refine (Io.bind_of_ok (Io.lift_of_ok (ensure_of hs))).trans ((Io.bind_of_ok hdir).trans ?_)
  refine (Io.bind_of_ok (a := []) rfl).trans ?_
  rw [List.dedup_nil, List.mergeSort_nil]
  refine (Io.bind_of_ok (a := []) rfl).trans ?_
  rw [List.filter_nil, List.map_nil, hsort]
  rfl

theorem acknowledge_run {r : StoredSubmission} {order : Order} (hs : scope ≠ "")
    (hv : view K C scope m (K.identityHash r.orderLinkId) = .readable r) (ho : r.outcome = .accepted order) :
    ∃ m', acknowledge K C scope r.orderLinkId m [] = .ok () m' [] := by
  unfold acknowledge
  rw [Io.bind_of_ok (get_of_view hs hv), Io.bind_of_ok (Io.lift_of_ok (okOr_eq_ok.2 rfl))]
  simp only [ho]
  split
  · exact ⟨m, rfl⟩
  · obtain ⟨m', h', -⟩ := save_run (K.identityHash r.orderLinkId) m (C.encode { r with acknowledged := true })
    refine ⟨m', (Io.bind_of_ok (Io.lift_of_ok (ensure_of hs))).trans (Io.mapErr_of_ok ?_)⟩
    rw [← h', ← ho]

end EasiFlux
