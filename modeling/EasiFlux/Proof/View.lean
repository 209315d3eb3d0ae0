import EasiFlux.Model.Submit

/-!
# What a reader sees of the journal

`view` is what the files of one hash say: nothing, a record, or something that
is refused. It looks at the first of `main`, `tmp` and `bak` that exists. Each
function of the store is specified by how it moves the view of one hash; the
files of the others, and the log, are left alone (`Only`).

* `wp_readRecord`, `wp_get`: reading returns the view and changes nothing.
* `wp_save`: a replacement, cut short anywhere, leaves the old contents, the new
  ones or a part of the new ones in view.
* `wp_begin`, `wp_finish`, `wp_acknowledge`, `wp_listPending`.
-/

namespace EasiFlux

open CrashIo Results OrderSubmissionStore

/-- The bytes a reader of `hash` looks at. -/
def current (m : JournalDir) (hash : String) : Option Bytes :=
  (m.get (.record hash .main)).or ((m.get (.record hash .tmp)).or (m.get (.record hash .bak)))

inductive View
  | absent
  | broken
  | readable (record : StoredSubmission)

section

variable (K : Crates) (C : RecordCodec) (scope : String)

def viewOf (hash : String) (contents : Bytes) : View :=
  match checkRecord K C scope hash none contents with
  | .ok record => .readable record
  | .error _ => .broken

def view (m : JournalDir) (hash : String) : View :=
  match current m hash with
  | none => .absent
  | some contents => viewOf K C scope hash contents

end

/-- Only files of `hash` differ. -/
structure Only (hash : String) (m m' : JournalDir) : Prop where
  other : ∀ n, (∀ s, n ≠ .record hash s) → m'.get n = m.get n
  log : m'.log = m.log

theorem Only.rfl {hash : String} {m : JournalDir} : Only hash m m := ⟨fun _ _ => Eq.refl _, Eq.refl _⟩

theorem Only.trans {hash : String} {m₁ m₂ m₃ : JournalDir} (h : Only hash m₁ m₂) (h' : Only hash m₂ m₃) :
    Only hash m₁ m₃ :=
  ⟨fun n hn => (h'.other n hn).trans (h.other n hn), h'.log.trans h.log⟩

/-- The files of `hash` are `F`, and all else is as in `m₀`. -/
structure At (m₀ : JournalDir) (hash : String) (F : Suffix → Option Bytes) (m : JournalDir) : Prop where
  files : ∀ s, m.get (.record hash s) = F s
  only : Only hash m₀ m

section At

variable {m₀ m : JournalDir} {hash : String} {F : Suffix → Option Bytes}

theorem At.start (m : JournalDir) (hash : String) : At m hash (fun s => m.get (.record hash s)) m :=
  ⟨fun _ => rfl, .rfl⟩

theorem At.set (h : At m₀ hash F m) (s : Suffix) (b : Bytes) :
    At m₀ hash (Function.update F s (some b)) (m.set (.record hash s) b) := by
  refine ⟨fun s' => ?_, fun n hn => ?_, h.only.log⟩
  · rw [Machine.get_set, h.files]; simp [Function.update_apply]
  · rw [Machine.get_set_ne _ _ (hn s), h.only.other n hn]

theorem At.unlink (h : At m₀ hash F m) (s : Suffix) :
    At m₀ hash (Function.update F s none) (m.unlink (.record hash s)) := by
  refine ⟨fun s' => ?_, fun n hn => ?_, h.only.log⟩
  · rw [Machine.get_unlink_eq]; simp [Function.update_apply, h.files]
  · rw [Machine.get_unlink_ne _ (hn s), h.only.other n hn]

theorem At.move (h : At m₀ hash F m) (a b : Suffix) (c : Bytes) :
    At m₀ hash (Function.update (Function.update F a none) b (some c))
      (m.move (.record hash a) (.record hash b) c) :=
  (h.unlink a).set b c

theorem At.append (h : At m₀ hash F m) (s : Suffix) (b c : Bytes) (k : ℕ) (hc : F s = some c) :
    At m₀ hash (Function.update F s (some (c ++ b.take k))) (m.append (.record hash s) b k) := by
  unfold Machine.append
  rw [h.files, hc]
  exact h.set s _

theorem At.current (h : At m₀ hash F m) : current m hash = (F .main).or ((F .tmp).or (F .bak)) := by
  unfold EasiFlux.current; rw [h.files, h.files, h.files]

end At

theorem Only.current {hash hash' : String} {m m' : JournalDir} (h : Only hash m m') (hne : hash' ≠ hash) :
    current m' hash' = current m hash' := by
  unfold EasiFlux.current
  have key : ∀ s, m'.get (.record hash' s) = m.get (.record hash' s) :=
    fun s => h.other _ fun s' he => hne (FileName.record.inj he).1
  rw [key, key, key]

variable {K : Crates} {C : RecordCodec} {scope : String}

theorem Only.view {hash hash' : String} {m m' : JournalDir} (h : Only hash m m') (hne : hash' ≠ hash) :
    view K C scope m' hash' = view K C scope m hash' := by
  unfold EasiFlux.view; rw [h.current hne]

/-! ## Reading -/

theorem checkRecord_ok {hash : String} {id : Option String} {b : Bytes} {r : StoredSubmission} :
    checkRecord K C scope hash id b = .ok r ↔
      C.decode b = some r ∧ r.schemaVersion = 1 ∧ validateIdentity r.orderLinkId = .ok () ∧
        r.scope = scope ∧ (∀ i ∈ id, i = r.orderLinkId) ∧ r.request.orderLinkId = some r.orderLinkId ∧
        hash = K.identityHash r.orderLinkId := by
  simp only [checkRecord, bind_eq_ok, okOr_eq_ok, ensure_eq_ok, pure_eq_ok, Unique.exists_iff,
    PUnit.default_eq_unit]
  constructor
  · rintro ⟨r', h1, h2, h3, h4, rfl⟩; exact ⟨h1, h2, h3, h4⟩
  · rintro ⟨h1, h2, h3, h4⟩; exact ⟨r, h1, h2, h3, h4, rfl⟩

/-- The record, if any, that reading `hash` gives when no call fails. -/
def Reads (K : Crates) (C : RecordCodec) (scope : String) (m : JournalDir) (hash : String) (id : Option String)
    (x : Option StoredSubmission) : Prop :=
  match x with
  | none => view K C scope m hash = .absent
  | some r => view K C scope m hash = .readable r ∧ ∀ i ∈ id, i = r.orderLinkId

theorem reads_of_current {m : JournalDir} {hash : String} {id : Option String} {b : Bytes} {r : StoredSubmission}
    (hb : current m hash = some b) (hr : checkRecord K C scope hash id b = .ok r) :
    Reads K C scope m hash id (some r) := by
  obtain ⟨h1, h2, h3, h4, h5, h6, h7⟩ := checkRecord_ok.1 hr
  have : checkRecord K C scope hash none b = .ok r :=
    checkRecord_ok.2 ⟨h1, h2, h3, h4, (fun _ h => nomatch h), h6, h7⟩
  refine ⟨?_, h5⟩
  unfold view viewOf; rw [hb]; simp only [this]

/-- A candidate that is there is read and checked, one that is not is skipped. -/
theorem wp_readCandidate {hash : String} {id : Option String} {s : Suffix} {m : JournalDir}
    {Q : Option StoredSubmission → JournalDir → Prop} {P : JournalDir → Prop}
    (hnone : m.get (.record hash s) = none → Q none m)
    (hsome : ∀ b r, m.get (.record hash s) = some b → checkRecord K C scope hash id b = .ok r → Q (some r) m)
    (hP : P m) : wp (readCandidate K C scope hash id s) Q (fun _ => P) P m := by
  unfold readCandidate
  refine wp_bind (wp_attempt.2 (wp_stat (fun h => ?_) (fun h => ?_) ?_ hP))
  · refine wp_bind (wp_mapErr.2 (wp_read (fun b hb => ?_) (fun h' => ?_) hP hP))
    · exact wp_bind (wp_lift (fun r hr => wp_pure.2 (hsome b r hb hr)) (fun _ _ => hP))
    · exact hP
  · exact wp_pure.2 (hnone h)
  · exact wp_throw.2 hP

theorem wp_readRecord {hash : String} {id : Option String} {m : JournalDir} :
    wp (readRecord K C scope hash id) (fun x m' => m' = m ∧ Reads K C scope m hash id x)
      (fun _ m' => m' = m) (fun m' => m' = m) m := by
  unfold readRecord
  refine wp_bind (wp_readCandidate (fun h1 => ?_) (fun b r hb hr => ?_) rfl)
  · refine wp_bind (wp_readCandidate (fun h2 => ?_) (fun b r hb hr => ?_) rfl)
    · refine wp_readCandidate (fun h3 => ⟨rfl, ?_⟩) (fun b r hb hr => ⟨rfl, ?_⟩) rfl
      · show view K C scope m hash = .absent
        unfold view current; rw [h1, h2, h3]; rfl
      · exact reads_of_current (by unfold current; rw [h1, h2, hb]; rfl) hr
    · exact wp_pure.2 ⟨rfl, reads_of_current (by unfold current; rw [h1, hb]; rfl) hr⟩
  · exact wp_pure.2 ⟨rfl, reads_of_current (by unfold current; rw [hb]; rfl) hr⟩

/-- `get` returns the view of the id's hash, when it is of that id. -/
theorem wp_get {id : String} {m : JournalDir} :
    wp (get K C scope id) (fun x m' => m' = m ∧ Reads K C scope m (K.identityHash id) (some id) x)
      (fun _ m' => m' = m) (fun m' => m' = m) m := by
  unfold OrderSubmissionStore.get
  refine wp_bind (wp_lift (fun _ _ => ?_) (fun _ _ => rfl))
  exact wp_bind (wp_lift (fun _ _ => wp_readRecord) (fun _ _ => rfl))

/-! ## Replacing a file -/

/-- The old contents, or the first part of the new ones, are in view. -/
structure Replaced (m : JournalDir) (hash : String) (contents : Bytes) (m' : JournalDir) : Prop where
  only : Only hash m m'
  current : current m' hash = current m hash ∨ ∃ k, current m' hash = some (contents.take k)

section Save

variable {m₀ m : JournalDir} {hash : String} {contents : Bytes} {F₀ : Suffix → Option Bytes}

theorem Replaced.old {F : Suffix → Option Bytes} (h₀ : At m₀ hash F₀ m₀) (h : At m₀ hash F m)
    {a : Bytes} (ha₀ : F₀ .main = some a) (ha : F .main = some a) : Replaced m₀ hash contents m := by
  refine ⟨h.only, Or.inl ?_⟩
  rw [h.current, h₀.current, ha, ha₀]; rfl

theorem Replaced.new {F : Suffix → Option Bytes} (h : At m₀ hash F m) (k : ℕ)
    (hF : (F .main).or ((F .tmp).or (F .bak)) = some (contents.take k)) : Replaced m₀ hash contents m :=
  ⟨h.only, Or.inr ⟨k, h.current.trans hF⟩⟩

/-- While the temporary file is written, the main file, if any, is in view. -/
theorem Replaced.writing (h₀ : At m₀ hash F₀ m₀) (k : ℕ)
    (h : At m₀ hash (Function.update F₀ .tmp (some (contents.take k))) m) : Replaced m₀ hash contents m := by
  cases hm : F₀ .main with
  | some a => exact .old h₀ h hm (by simpa using hm)
  | none => exact .new h k (by simp [hm])

theorem wp_writeTemp (h₀ : At m₀ hash F₀ m₀) :
    wp (ConfigPersistence.writeTemp hash contents)
      (fun _ m => At m₀ hash (Function.update F₀ .tmp (some contents)) m)
      (fun _ => Replaced m₀ hash contents) (Replaced m₀ hash contents) m₀ := by
  have hstart : Replaced m₀ hash contents m₀ := ⟨.rfl, Or.inl rfl⟩
  have hopen := h₀.set .tmp []
  have happ : ∀ k, At m₀ hash (Function.update F₀ .tmp (some (contents.take k)))
      ((m₀.set (.record hash .tmp) []).append (.record hash .tmp) contents k) := by
    intro k
    have := hopen.append .tmp contents [] k (by simp)
    simpa using this
  have hfull := happ contents.length
  rw [List.take_length] at hfull
  unfold ConfigPersistence.writeTemp
  refine wp_bind (wp_openTruncate ?_ hstart hstart (.writing h₀ 0 (by simpa using hopen)))
  refine wp_bind (wp_writeAll ?_ (fun k => .writing h₀ k (happ k)) (fun k => .writing h₀ k (happ k)))
  exact wp_sync hfull (.writing h₀ contents.length (happ _)) (.writing h₀ contents.length (happ _))

/-- The last part of `replace_existing_main`. -/
def rotateRecord (hash : String) : Io JournalDir IoErr Unit := do
  rename (.record hash .main) (.record hash .bak)
  match ← Io.attempt (rename (.record hash .tmp) (.record hash .main)) with
  | .ok () => pure ()
  | .error e => do
    Io.ignore (rename (.record hash .bak) (.record hash .main))
    Io.throw e

theorem wp_rotateRecord {a : Bytes} (h₀ : At m₀ hash F₀ m₀) (ha : F₀ .main = some a) {F : Suffix → Option Bytes}
    (hF : At m₀ hash F m) (hFm : F .main = some a) (hFt : F .tmp = some contents) :
    wp (rotateRecord hash) (fun _ m' => Only hash m₀ m' ∧ current m' hash = some contents)
      (fun _ => Replaced m₀ hash contents) (Replaced m₀ hash contents) m := by
  have hold : Replaced m₀ hash contents m := .old h₀ hF ha hFm
  refine wp_bind (wp_rename (fun c hc => ?_) (fun _ => hold) hold hold)
  have hca : c = a := by rw [hF.files, hFm] at hc; exact (Option.some.inj hc).symm
  subst hca
  have h1 := hF.move .main .bak c
  -- from here to the last rename the new contents are in view, in the temporary file
  have hnew : Replaced m₀ hash contents (m.move (.record hash .main) (.record hash .bak) c) :=
    .new h1 contents.length (by simp [hFt])
  have hrestore : wp (do
      Io.ignore (rename (.record hash .bak) (.record hash .main))
      Io.throw (α := Unit) IoErr.other) (fun _ m' => Only hash m₀ m' ∧ current m' hash = some contents)
      (fun _ => Replaced m₀ hash contents) (Replaced m₀ hash contents)
      (m.move (.record hash .main) (.record hash .bak) c) := by
    refine wp_bind (wp_ignore.2 (wp_rename (fun d hd => ?_) (fun _ => wp_throw.2 hnew) (wp_throw.2 hnew) hnew))
    have hdc : d = c := by rw [h1.files] at hd; simpa using hd.symm
    subst hdc
    have h2 : Replaced m₀ hash contents _ := .old h₀ (h1.move .bak .main d) ha (by simp)
    exact ⟨wp_throw.2 h2, h2⟩
  refine ⟨wp_bind (wp_attempt.2 (wp_rename (fun d hd => ?_) (fun hd => ?_) hrestore hnew)), hnew⟩
  · have hdc : d = contents := by rw [h1.files] at hd; simpa [hFt] using hd.symm
    subst hdc
    have h2 := h1.move .tmp .main d
    exact ⟨wp_pure.2 ⟨h2.only, by rw [h2.current]; simp⟩, .new h2 d.length (by simp)⟩
  · rw [h1.files] at hd; simp [hFt] at hd

/-- The main file is moved to the backup and the temporary one to its place; at
every moment the first file in order is the old one or the new one. -/
theorem wp_replaceExistingMain {a : Bytes} (h₀ : At m₀ hash F₀ m₀) (ha : F₀ .main = some a)
    (h : At m₀ hash (Function.update F₀ .tmp (some contents)) m) :
    wp (ConfigPersistence.replaceExistingMain hash) (fun _ m' => Only hash m₀ m' ∧ current m' hash = some contents)
      (fun _ => Replaced m₀ hash contents) (Replaced m₀ hash contents) m := by
  have hold : Replaced m₀ hash contents m := .old h₀ h ha (by simpa using ha)
  unfold ConfigPersistence.replaceExistingMain ConfigPersistence.removeOldBackup
  refine wp_bind (wp_bind (wp_attempt.2 (wp_remove (fun _ => ?_) (fun _ => ?_) (wp_throw.2 hold) hold)))
  · have h1 := h.unlink .bak
    exact ⟨wp_pure.2 (wp_rotateRecord h₀ ha h1 (by simpa using ha) (by simp)), .old h₀ h1 ha (by simpa using ha)⟩
  · exact wp_pure.2 (wp_rotateRecord h₀ ha h (by simpa using ha) (by simp))

/-- **A replacement is atomic to a reader**, up to a torn file. -/
theorem wp_save : wp (ConfigPersistence.save hash contents)
    (fun _ m' => Only hash m₀ m' ∧ current m' hash = some contents)
    (fun _ => Replaced m₀ hash contents) (Replaced m₀ hash contents) m₀ := by
  have h₀ := At.start m₀ hash
  have hstart : Replaced m₀ hash contents m₀ := ⟨.rfl, Or.inl rfl⟩
  unfold ConfigPersistence.save
  refine wp_bind (wp_sync ?_ hstart hstart)
  refine wp_bind (wp_mono (wp_writeTemp h₀) (fun _ m h => ?_) (fun _ _ h => h) (fun _ h => h))
  have hw : Replaced m₀ hash contents m := .writing h₀ contents.length (by simpa using h)
  unfold ConfigPersistence.replaceMain
  refine wp_bind (wp_attempt.2 (wp_stat (fun hs => ?_) (fun hn => ?_) (wp_throw.2 hw) hw))
  · obtain ⟨a, ha⟩ := Option.isSome_iff_exists.1 hs
    rw [h.files] at ha
    exact wp_replaceExistingMain h₀ (a := a) (by simpa using ha) h
  · refine wp_rename (fun d hd => ?_) (fun _ => hw) hw hw
    have hdc : d = contents := by rw [h.files] at hd; simpa using hd.symm
    subst hdc
    have h2 := h.move .tmp .main d
    exact ⟨⟨h2.only, by rw [h2.current]; simp⟩, .new h2 d.length (by simp)⟩

end Save

/-! ## Records -/

/-- What a torn or complete text of `r` is read as. -/
theorem viewOf_take (hash : String) (r : StoredSubmission) (k : ℕ) :
    viewOf K C scope hash ((C.encode r).take k) = .broken ∨
      viewOf K C scope hash ((C.encode r).take k) = .readable r := by
  unfold viewOf
  cases hc : checkRecord K C scope hash none ((C.encode r).take k) with
  | error e => exact Or.inl rfl
  | ok r' =>
    have hd := (checkRecord_ok.1 hc).1
    rcases C.decode_take r k with h | h
    · rw [h] at hd; cases hd
    · rw [h] at hd; cases hd; exact Or.inr rfl

theorem view_of_current {m : JournalDir} {hash : String} {b : Bytes} (h : current m hash = some b) :
    view K C scope m hash = viewOf K C scope hash b := by unfold view; rw [h]

/-- The text of `r` is put, whole or torn, in the view of `hash`, or nothing happens. -/
structure Written (K : Crates) (C : RecordCodec) (scope : String) (m : JournalDir) (hash : String)
    (r : StoredSubmission) (m' : JournalDir) : Prop where
  only : Only hash m m'
  view : view K C scope m' hash = view K C scope m hash ∨ view K C scope m' hash = .broken ∨
    view K C scope m' hash = .readable r

theorem Written.refl {m : JournalDir} {hash : String} {r : StoredSubmission} : Written K C scope m hash r m :=
  ⟨.rfl, Or.inl rfl⟩

theorem Written.of_take {m m' : JournalDir} {hash : String} {r : StoredSubmission} (ho : Only hash m m') {k : ℕ}
    (h : current m' hash = some ((C.encode r).take k)) : Written K C scope m hash r m' := by
  refine ⟨ho, Or.inr ?_⟩
  rw [view_of_current h]
  exact viewOf_take hash r k

theorem Replaced.written {m m' : JournalDir} {hash : String} {r : StoredSubmission}
    (h : Replaced m hash (C.encode r) m') : Written K C scope m hash r m' := by
  rcases h.current with hc | ⟨k, hk⟩
  · refine ⟨h.only, Or.inl ?_⟩
    unfold EasiFlux.view; rw [hc]
  · exact .of_take h.only hk

theorem wp_saveRecord {m : JournalDir} {hash : String} {r : StoredSubmission} {E : IoErr → AppError} :
    wp (Io.mapErr E (ConfigPersistence.save hash (C.encode r))) (fun _ => Written K C scope m hash r)
      (fun _ => Written K C scope m hash r) (Written K C scope m hash r) m := by
  refine wp_mapErr.2 (wp_mono wp_save (fun _ m' h => ?_) (fun _ _ h => h.written) (fun _ h => h.written))
  exact .of_take h.1 (h.2.trans (by rw [List.take_length]))

/-- `finish` writes its outcome to the record it reads. -/
theorem wp_finish {id : String} {outcome : SubmissionOutcome} {m : JournalDir} {P : JournalDir → Prop} (hm : P m)
    (h : ∀ r, view K C scope m (K.identityHash id) = .readable r → r.orderLinkId = id →
      ∀ m', Written K C scope m (K.identityHash id) { r with outcome := outcome } m' → P m') :
    wp (finish K C scope id outcome) (fun _ => P) (fun _ => P) P m := by
  unfold finish
  refine wp_bind (wp_mono wp_get (fun x m' hx => ?_) (fun _ m' h => h ▸ hm) (fun m' h => h ▸ hm))
  obtain ⟨rfl, hx⟩ := hx
  refine wp_bind (wp_lift (fun r hr => ?_) (fun _ _ => hm))
  cases okOr_eq_ok.1 hr
  have key := h r hx.1 (hx.2 id rfl).symm
  exact wp_bind (wp_lift (fun _ _ => wp_mono wp_saveRecord (fun _ m' h => key m' h) (fun _ m' h => key m' h)
    (fun m' h => key m' h)) (fun _ _ => hm))

/-- `acknowledge` marks the accepted record it reads. -/
theorem wp_acknowledge {id : String} {m : JournalDir} {P : JournalDir → Prop} (hm : P m)
    (h : ∀ r order, view K C scope m (K.identityHash id) = .readable r → r.outcome = .accepted order →
      r.acknowledged = false → ∀ m', Written K C scope m (K.identityHash id) { r with acknowledged := true } m' → P m') :
    wp (acknowledge K C scope id) (fun _ => P) (fun _ => P) P m := by
  unfold acknowledge
  refine wp_bind (wp_mono wp_get (fun x m' hx => ?_) (fun _ m' h => h ▸ hm) (fun m' h => h ▸ hm))
  obtain ⟨rfl, hx⟩ := hx
  refine wp_bind (wp_lift (fun r hr => ?_) (fun _ _ => hm))
  cases okOr_eq_ok.1 hr
  cases ho : r.outcome with
  | pending => exact wp_throw.2 hm
  | rejected => exact wp_throw.2 hm
  | accepted order =>
    simp only
    split
    · exact wp_pure.2 hm
    · rename_i ha
      have key := h r order hx.1 ho (by simpa using ha)
      rw [ho] at key
      exact wp_bind (wp_lift (fun _ _ => wp_mono wp_saveRecord (fun _ m' h => key m' h) (fun _ m' h => key m' h)
        (fun m' h => key m' h)) (fun _ _ => hm))

theorem current_none {m : JournalDir} {hash : String} :
    view K C scope m hash = .absent ↔ ∀ s, m.get (.record hash s) = none := by
  have hv : view K C scope m hash = .absent ↔ current m hash = none := by
    unfold view viewOf
    constructor
    · intro h
      cases hc : current m hash with
      | none => rfl
      | some b => rw [hc] at h; simp only at h; split at h <;> cases h
    · intro h; rw [h]
  rw [hv]
  unfold current
  simp only [Option.or_eq_none_iff]
  exact ⟨fun h s => by cases s; exacts [h.1, h.2.1, h.2.2], fun h => ⟨h _, h _, h _⟩⟩

/-- `begin` on an id without files makes its main file and writes the record. -/
theorem wp_begin {id : String} {request : PlaceOrderRequest} {now : ℕ} {m : JournalDir}
    (hid : request.orderLinkId = some id) (ha : view K C scope m (K.identityHash id) = .absent)
    {P : JournalDir → Prop}
    (hP : ∀ m', Written K C scope m (K.identityHash id) (newRecord scope id request now) m' → P m') :
    wp (begin K C scope request now)
      (fun r m' => r = newRecord scope id request now ∧
        Written K C scope m (K.identityHash id) (newRecord scope id request now) m' ∧
        (m'.get (.record (K.identityHash id) .main)).isSome ∧
        current m' (K.identityHash id) = some (C.encode (newRecord scope id request now)))
      (fun _ => P) P m := by
  set hash := K.identityHash id with hh
  set r := newRecord scope id request now with hr
  have hm : P m := hP m .refl
  have hcreate := (At.start m hash).set .main []
  have happ : ∀ k, At m hash (Function.update (fun s => m.get (.record hash s)) .main (some ((C.encode r).take k)))
      ((m.set (.record hash .main) []).append (.record hash .main) (C.encode r) k) := by
    intro k
    have := hcreate.append .main (C.encode r) [] k (by simp)
    simpa using this
  have hw : ∀ k, Written K C scope m hash r
      ((m.set (.record hash .main) []).append (.record hash .main) (C.encode r) k) :=
    fun k => .of_take (k := k) (happ k).only (by rw [(happ k).current]; simp)
  have hw0 : Written K C scope m hash r (m.set (.record hash .main) []) :=
    .of_take (k := 0) hcreate.only (by rw [hcreate.current]; simp)
  unfold begin
  refine wp_bind (wp_lift (fun i hi => ?_) (fun _ _ => hm))
  rw [hid] at hi
  cases okOr_eq_ok.1 hi
  refine wp_bind (wp_mono wp_get (fun x m' hx => ?_) (fun _ m' h => h ▸ hm) (fun m' h => h ▸ hm))
  obtain ⟨rfl, hx⟩ := hx
  cases x with
  | some r' => have h1 := hx.1; rw [← hh, ha] at h1; cases h1
  | none =>
    refine wp_bind (wp_lift (fun _ _ => ?_) (fun _ _ => hm))
    refine wp_bind (wp_mapErr.2 (wp_sync ?_ hm hm))
    refine wp_bind (wp_attempt.2 (wp_createNew (fun hs => ?_) (fun _ => ⟨?_, hP _ hw0⟩) (wp_throw.2 hm) hm))
    · -- the main file cannot be there: the view is of no file
      rw [current_none.1 ha] at hs; cases hs
    · refine wp_bind (wp_mapErr.2 (wp_writeAll ?_ (fun k => hP _ (hw k)) (fun k => hP _ (hw k))))
      refine wp_bind (wp_mapErr.2 (wp_sync ?_ (hP _ (hw _)) (hP _ (hw _))))
      exact wp_pure.2 ⟨rfl, hw _, by rw [(happ _).files]; simp, by rw [(happ _).current]; simp [hr]⟩

/-! ## The pending list -/

/-- Every file that is there is listed and reads back, and the list holds every
unresolved record. -/
theorem wp_listPending {m : JournalDir} :
    wp (listPending K C scope)
      (fun pending m' => m' = m ∧ ∀ hash, view K C scope m hash ≠ .broken ∧
        ∀ r, view K C scope m hash = .readable r → r.unresolved → .ofStored r ∈ pending)
      (fun _ m' => m' = m) (fun m' => m' = m) m := by
  unfold listPending
  refine wp_bind (wp_lift (fun _ _ => ?_) (fun _ _ => rfl))
  refine wp_bind (wp_mapErr.2 (wp_readDir ?_ rfl rfl))
  refine wp_bind (wp_mono (wp_each (I := fun pre out m' => m' = m ∧ ∀ h s, .record h s ∈ pre → h ∈ out)
    ?_ _ [] [] m ⟨rfl, by simp⟩) (fun hashes m' hh => ?_) (fun _ _ h => h) (fun _ h => h))
  · rintro name pre out m' ⟨rfl, hpre⟩
    refine wp_lift (fun h hh => ⟨rfl, fun h' s hm => ?_⟩) (fun _ _ => rfl)
    rcases List.mem_append.1 hm with hm | hm
    · exact List.mem_append_left _ (hpre h' s hm)
    · rw [List.mem_singleton] at hm
      subst hm
      simp only [entryHash, bind_eq_ok, ensure_eq_ok, pure_eq_ok] at hh
      obtain ⟨_, _, rfl⟩ := hh
      simp
  obtain ⟨hm', hhash⟩ := hh
  subst hm'
  simp only [List.nil_append] at hhash
  refine wp_bind (wp_mono (wp_each (I := fun pre out m₁ => m₁ = m' ∧ ∀ h ∈ pre, ∃ r ∈ out, view K C scope m' h = .readable r)
    ?_ _ [] [] m' ⟨rfl, by simp⟩) (fun records m₁ hr => ?_) (fun _ _ h => h) (fun _ h => h))
  · rintro hash pre out m₁ ⟨rfl, hpre⟩
    refine wp_bind (wp_mono wp_readRecord (fun x m₂ hx => ?_) (fun _ _ h => h) (fun _ h => h))
    obtain ⟨rfl, hx⟩ := hx
    refine wp_lift (fun r hr => ⟨rfl, fun h hm => ?_⟩) (fun _ _ => rfl)
    cases okOr_eq_ok.1 hr
    rcases List.mem_append.1 hm with hm | hm
    · obtain ⟨r', hr', hv⟩ := hpre h hm
      exact ⟨r', List.mem_append_left _ hr', hv⟩
    · rw [List.mem_singleton] at hm
      exact ⟨r, by simp, hm ▸ hx.1⟩
  obtain ⟨hm₁, hrec⟩ := hr
  subst hm₁
  simp only [List.nil_append] at hrec
  refine wp_pure.2 ⟨rfl, fun hash => ?_⟩
  -- a hash with a file is among those read
  have hread : view K C scope m₁ hash ≠ .absent → ∃ r ∈ records, view K C scope m₁ hash = .readable r := by
    intro hne
    apply hrec
    rw [List.mem_mergeSort, List.mem_dedup]
    rw [ne_eq, current_none] at hne
    push Not at hne
    obtain ⟨s, hs⟩ := hne
    exact hhash hash s ((Machine.mem_names _ _).2 (Option.isSome_iff_ne_none.2 hs))
  constructor
  · intro hb
    obtain ⟨r, -, hr⟩ := hread (by rw [hb]; simp)
    rw [hb] at hr; cases hr
  · intro r hr hu
    obtain ⟨r', hmem, hr'⟩ := hread (by rw [hr]; simp)
    rw [hr] at hr'; cases hr'
    unfold sortPending
    rw [List.mem_mergeSort]
    exact List.mem_map_of_mem (List.mem_filter.2 ⟨hmem, hu⟩)

end EasiFlux
