import EasiFlux.Model.ChartState

/-!
# An acknowledged chart save survives

What a load finds is a function of the files (`found`). `Left` lists what a save
leaves of them, however it ends, and `Kept` says what that means for what is found:
the same state, or one with a higher revision. Two kinds of save lose it: one that
is cut short while it writes over the only copy, and one that puts back the backup
though something newer was found.

* `savePart_kept`: one save of one part.
* `chart_saves_survive`: the service, over whole runs.
-/

namespace EasiFlux.Chart

open CrashIo Results Steps

namespace ChartStateStore

variable {P : Type} {S : ChartPart P} {J : StateText P} {m : StateDir} {b : Bytes} {v : P}
  {f f' : StatePath → Option Bytes}

/-! ## What is found -/

/-- A file read as a document. -/
def readAs (S : ChartPart P) (J : StateText P) (file : Option Bytes) : Option P :=
  match file.bind J.fromSlice with
  | some value => if S.validate value = .ok () then some value else none
  | none => none

/-- The first of the three files that can be read. -/
def found (S : ChartPart P) (J : StateText P) (f : StatePath → Option Bytes) : Option P :=
  readAs S J (f .main) <|> readAs S J (f .temp) <|> readAs S J (f .backup)

theorem found_of_main (h : readAs S J (f .main) = some v) : found S J f = some v := by
  unfold found; rw [h]; rfl

theorem found_of_temp (hm : f .main = none) (h : readAs S J (f .temp) = some v) : found S J f = some v := by
  unfold found; rw [hm, h]; rfl

theorem found_of_backup (hm : f .main = none) (ht : readAs S J (f .temp) = none) :
    found S J f = readAs S J (f .backup) := by
  unfold found; rw [hm, ht]; rfl

theorem readAs_text (hr : J.fromSlice (J.toVecPretty v) = some v) (hv : S.validate v = .ok ()) :
    readAs S J (some (J.toVecPretty v)) = some v := by
  simp [readAs, hr, hv]

/-- The next call goes through, and `rest` is left. -/
def Quiet (fs rest : List Fault) : Prop := fs = [] ∧ rest = [] ∨ fs = .pass :: rest

theorem quiet_nil : Quiet [] [] := .inl ⟨rfl, rfl⟩

theorem quiet_pass (rest : List Fault) : Quiet (.pass :: rest) rest := .inr rfl

/-- Reading a candidate when the call goes through. -/
theorem readCandidate_run (path : StatePath) (m : StateDir) {fs rest : List Fault} (hfs : Quiet fs rest) :
    (∃ v, readAs S J (m.get path) = some v ∧ readCandidate S J path m fs = .ok v m rest) ∨
      (readAs S J (m.get path) = none ∧ ∃ e, readCandidate S J path m fs = .err e m rest) := by
  have hread : CrashIo.read path m fs =
      (m.get path).elim (.err .notFound m rest) fun b => .ok b m rest := by
    rcases hfs with ⟨rfl, rfl⟩ | rfl <;> cases hg : m.get path <;> simp [CrashIo.read, look, Io.call, hg]
  have hrun : ∀ b, m.get path = some b → readCandidate S J path m fs =
      (Io.lift (okOr (J.fromSlice b) (.storage "json")) >>= fun value => Io.lift (S.validate value) >>= fun _ => pure value :
        Io StateDir AppError P) m rest := by
    intro b hb
    rw [hb] at hread
    exact Io.bind_of_ok (Io.mapErr_of_ok hread)
  cases hg : m.get path with
  | none =>
    rw [hg] at hread
    exact .inr ⟨rfl, .storage "io", Io.bind_of_err (Io.mapErr_of_err hread)⟩
  | some b =>
    rw [hrun b hg]
    cases hr : J.fromSlice b with
    | none => exact .inr ⟨by simp [readAs, hr], _, rfl⟩
    | some v =>
      cases hv : S.validate v with
      | error e =>
        refine .inr ⟨by simp [readAs, hr, hv], e, ?_⟩
        exact (Io.bind_of_ok rfl).trans (by rw [hv]; rfl)
      | ok _ =>
        refine .inl ⟨v, by simp [readAs, hr, hv], ?_⟩
        exact (Io.bind_of_ok rfl).trans (by rw [hv]; rfl)

theorem candidateIsValid_run (path : StatePath) (m : StateDir) {fs rest : List Fault} (hfs : Quiet fs rest) :
    candidateIsValid S J path m fs = .ok (readAs S J (m.get path)).isSome m rest := by
  unfold candidateIsValid
  rcases readCandidate_run (S := S) (J := J) path m hfs with ⟨v, hv, hrun⟩ | ⟨hn, e, hrun⟩
  · rw [Io.bind_of_ok (Io.attempt_of_ok hrun), hv]; rfl
  · rw [Io.bind_of_ok (Io.attempt_of_err hrun), hn]; rfl

theorem candidateIsValid_fail (path : StatePath) (m : StateDir) (n : ℕ) (fs : List Fault) :
    candidateIsValid S J path m (.fail n :: fs) = .ok false m fs := rfl

/-- A load that is not disturbed answers what is found. -/
theorem loadCandidates_run (m : StateDir) :
    ∃ r, (Io.attempt (loadCandidates S J) : Io StateDir AppError _) m [] = .ok r m [] ∧ r.toOption.join = found S J m.get := by
  -- the loop over any of the paths
  have hloop : ∀ (paths : List StatePath) (b : Bool),
      ∃ r, (Io.attempt (loadFrom S J paths b) : Io StateDir AppError _) m [] = .ok r m [] ∧
        r.toOption.join = paths.findSome? fun path => readAs S J (m.get path) := by
    intro paths
    induction paths with
    | nil =>
      intro b
      cases b with
      | true => exact ⟨_, rfl, rfl⟩
      | false => exact ⟨_, rfl, rfl⟩
    | cons path paths ih =>
      intro b
      rw [List.findSome?_cons]
      cases hg : m.get path with
      | none =>
        obtain ⟨r, hr, hj⟩ := ih b
        refine ⟨r, ?_, hj⟩
        rw [← hr]
        simp [loadFrom, Io.attempt, stat, look, Io.call, hg, bind, Io.bind]
      | some c =>
        have hstat : (Io.attempt (stat path) : Io StateDir AppError (Except IoErr Unit)) m [] = .ok (.ok ()) m [] := by
          simp [Io.attempt, stat, look, Io.call, hg]
        rcases readCandidate_run (S := S) (J := J) path m quiet_nil with ⟨v, hv, hrun⟩ | ⟨hn, e, hrun⟩
        · rw [hg] at hv
          rw [hv]
          refine ⟨.ok (some v), Io.attempt_of_ok ?_, rfl⟩
          unfold loadFrom
          rw [Io.bind_of_ok hstat]
          dsimp only
          rw [Io.bind_of_ok (Io.attempt_of_ok hrun)]; rfl
        · rw [hg] at hn
          rw [hn]
          obtain ⟨r, hr, hj⟩ := ih true
          refine ⟨r, ?_, hj⟩
          have hnext : loadFrom S J (path :: paths) b m [] = loadFrom S J paths true m [] := by
            conv_lhs => unfold loadFrom
            rw [Io.bind_of_ok hstat]
            dsimp only
            rw [Io.bind_of_ok (Io.attempt_of_err hrun)]
          rw [← hr]
          unfold Io.attempt
          rw [hnext]
  obtain ⟨r, hr, hj⟩ := hloop [.main, .temp, .backup] false
  refine ⟨r, hr, hj.trans ?_⟩
  unfold found
  simp only [List.findSome?_cons, List.findSome?_nil]
  cases readAs S J (m.get .main) with
  | some v => rfl
  | none =>
    cases readAs S J (m.get .temp) with
    | some v => rfl
    | none => cases readAs S J (m.get .backup) <;> rfl

/-! ## What a save leaves -/

/-- What a save of the text `b` leaves of the files `f`; `cut` is where its write is cut, and
`back` whether the backup may be put back. -/
inductive Left (b : Bytes) (cut : Option ℕ) (back : Bool) (f f' : StatePath → Option Bytes) : Prop
  | kept (h : f .main ≠ none) (main : f' .main = f .main)
  | same (files : f' = f)
  | torn (k : ℕ) (hk : cut = some k) (h : f .main = none) (files : f' = Function.update f .temp (some (b.take k)))
  | staged (main : f' .main = none) (temp : f' .temp = some b)
  | done (main : f' .main = some b)
  | restored (c : Bytes) (h : back = true) (backup : f .backup = some c) (main : f' .main = some c)

/-- How a save may end. -/
def Ended (b : Bytes) (cut : Option ℕ) (back : Bool) (f : StatePath → Option Bytes) : Outcome StateDir AppError Unit → Prop
  | .ok _ m' _ => m'.get .main = some b
  | .err _ m' _ => Left b cut back f m'.get
  | .crashed m' => Left b cut back f m'.get

variable {at' : Option ℕ} {back : Bool}

theorem Ended.of_wp {prog : Io StateDir AppError Unit} (h : wp prog (fun _ m' => m'.get .main = some b)
    (fun _ m' => Left b at' back f m'.get) (fun m' => Left b at' back f m'.get) m) (fs : List Fault) :
    Ended b at' back f (prog m fs) := by
  have hw := h fs
  cases hr : prog m fs with
  | ok _ _ _ => rw [hr] at hw; exact hw
  | err _ _ _ => rw [hr] at hw; exact hw
  | crashed _ => rw [hr] at hw; exact hw

theorem wp_renameAndSync {source target : StatePath} {Q : Unit → StateDir → Prop} {E : StateDir → Prop}
    (hy : ∀ c, m.get source = some c → Q () (m.move source target c) ∧ E (m.move source target c)) (hn : E m) :
    wp (renameAndSync source target) Q (fun _ => E) E m := by
  unfold renameAndSync syncParentDirectory storageError
  refine wp_bind (wp_mapErr.2 (wp_rename ?_ (fun _ => hn) hn hn))
  intro c hc
  obtain ⟨hq, he⟩ := hy c hc
  exact ⟨wp_mapErr.2 (wp_sync hq he he), he⟩

section Replace

variable {a : Bytes}

theorem Left.of_main (h : f .main = some a) (hm : f' .main = some a) : Left b at' back f f' :=
  .kept (by rw [h]; exact Option.some_ne_none a) (hm.trans h.symm)

/-- The old main file gets its name back, or keeps that of the backup. -/
theorem wp_putBack (h : f .main = some a) (hb : m.get .backup = some a) (hl : Left b at' back f m.get) (e : AppError) :
    wp (Io.ignore (renameAndSync .backup .main) >>= fun _ => Io.throw e : Io StateDir AppError Unit)
      (fun _ m' => m'.get .main = some b) (fun _ m' => Left b at' back f m'.get) (fun m' => Left b at' back f m'.get) m := by
  have hrename : wp (renameAndSync .backup .main) (fun _ m' => Left b at' back f m'.get) (fun _ m' => Left b at' back f m'.get)
      (fun m' => Left b at' back f m'.get) m := by
    refine wp_renameAndSync (E := fun m' => Left b at' back f m'.get) ?_ hl
    intro c hc
    have hca : c = a := Option.some.inj (hc.symm.trans hb)
    have hleft : Left b at' back f (m.move .backup .main c).get :=
      .of_main h (by rw [Machine.get_move _ _ _ _ _ (by decide), if_pos rfl, hca])
    exact ⟨hleft, hleft⟩
  exact wp_bind (wp_ignore.2 (wp_mono hrename (fun _ _ h => wp_throw.2 h) (fun _ _ h => wp_throw.2 h) (fun _ h => h)))

/-- Promoting the temporary file, with the old main file put aside. -/
theorem wp_promote (h : f .main = some a) (hm : m.get .main = none) (ht : m.get .temp = some b) (hb : m.get .backup = some a) :
    wp (renameTempToMainOrRestoreBackup true) (fun _ m' => m'.get .main = some b)
      (fun _ m' => Left b at' back f m'.get) (fun m' => Left b at' back f m'.get) m := by
  have hrename : wp (renameAndSync .temp .main) (fun _ m' => m'.get .main = some b)
      (fun _ m' => Left b at' back f m'.get ∧ m'.get .backup = some a)
      (fun m' => Left b at' back f m'.get ∧ m'.get .backup = some a) m := by
    refine wp_renameAndSync (E := fun m' => Left b at' back f m'.get ∧ m'.get .backup = some a) ?_ ⟨.staged hm ht, hb⟩
    intro c hc
    have hcb : c = b := Option.some.inj (hc.symm.trans ht)
    have hget : ∀ n, (m.move .temp .main c).get n = if n = .main then some c else if n = .temp then none else m.get n :=
      fun n => Machine.get_move _ _ _ _ _ (by decide)
    have hmain : (m.move .temp .main c).get .main = some b := by rw [hget, if_pos rfl, hcb]
    refine ⟨hmain, .done hmain, ?_⟩
    rw [hget, if_neg (by decide), if_neg (by decide), hb]
  unfold renameTempToMainOrRestoreBackup
  refine wp_bind (wp_attempt.2 (wp_mono hrename (fun _ _ h => wp_pure.2 h) (fun e m₃ h₃ => ?_) (fun _ h => h.1)))
  exact wp_putBack h h₃.2 h₃.1 e

/-- The main file could be read: it is put aside, and put back if it comes to that. -/
theorem wp_replace (h : f .main = some a) (hm : m.get .main = some a) (ht : m.get .temp = some b) :
    wp (clearMain true >>= fun _ => renameTempToMainOrRestoreBackup true) (fun _ m' => m'.get .main = some b)
      (fun _ m' => Left b at' back f m'.get) (fun m' => Left b at' back f m'.get) m := by
  have haside : ∀ m₁ : StateDir, m₁.get .main = some a → m₁.get .temp = some b →
      wp (renameAndSync .main .backup) (fun _ m' => wp (renameTempToMainOrRestoreBackup true) (fun _ m' => m'.get .main = some b)
        (fun _ m' => Left b at' back f m'.get) (fun m' => Left b at' back f m'.get) m')
        (fun _ m' => Left b at' back f m'.get) (fun m' => Left b at' back f m'.get) m₁ := by
    intro m₁ hm₁ ht₁
    refine wp_renameAndSync (E := fun m' => Left b at' back f m'.get) ?_ (.of_main h hm₁)
    intro c hc
    have hca : c = a := Option.some.inj (hc.symm.trans hm₁)
    have hget : ∀ n, (m₁.move .main .backup c).get n = if n = .backup then some c else if n = .main then none else m₁.get n :=
      fun n => Machine.get_move _ _ _ _ _ (by decide)
    have hmain : (m₁.move .main .backup c).get .main = none := by rw [hget]; rfl
    have htemp : (m₁.move .main .backup c).get .temp = some b := by rw [hget, if_neg (by decide), if_neg (by decide), ht₁]
    have hbackup : (m₁.move .main .backup c).get .backup = some a := by rw [hget, if_pos rfl, hca]
    exact ⟨wp_promote h hmain htemp hbackup, .staged hmain htemp⟩
  -- the old backup goes first
  unfold clearMain
  rw [if_pos rfl]
  refine wp_bind (wp_bind ?_)
  unfold removeOldBackupIfPresent removeIfPresent syncParentDirectory storageError
  refine wp_bind (wp_attempt.2 (wp_remove ?_ (fun _ => wp_pure.2 (haside m hm ht)) (wp_throw.2 (.of_main h hm)) (.of_main h hm)))
  intro _
  have hm₁ : (m.unlink .backup).get .main = some a := by rw [Machine.get_unlink_ne m (by decide), hm]
  have ht₁ : (m.unlink .backup).get .temp = some b := by rw [Machine.get_unlink_ne m (by decide), ht]
  exact ⟨wp_mapErr.2 (wp_sync (haside _ hm₁ ht₁) (.of_main h hm₁) (.of_main h hm₁)), .of_main h hm₁⟩

end Replace

/-! ### The main file could not be read

Here the faults decide whether the backup is put back. -/

/-- The backup is put back if the renaming goes through. -/
theorem ended_putBack (hl : Left b at' back f m.get) (hb : m.get .backup = f .backup) (backupIsValid : Bool) (e : AppError)
    (fs : List Fault) (hback : backupIsValid = true → goesThrough fs = true → back = true) :
    Ended b at' back f ((if backupIsValid then do
        Io.ignore (renameAndSync .backup .main)
        Io.throw e
      else Io.throw e : Io StateDir AppError Unit) m fs) := by
  cases backupIsValid with
  | false => exact hl
  | true =>
    rw [if_pos rfl]
    cases hg : m.get .backup with
    | none =>
      -- there is nothing to put back
      rcases fs with _ | ⟨_ | n | _ | n, fs⟩ <;>
        simpa [Io.ignore, renameAndSync, storageError, rename, atomic, Io.call, Io.mapErr, Io.bind, bind, Io.throw, hg, Ended]
          using hl
    | some c =>
      have hmain : (m.move .backup .main c).get .main = some c := by
        rw [Machine.get_move _ _ _ _ _ (by decide), if_pos rfl]
      have hrestored : goesThrough fs = true → Left b at' back f (m.move .backup .main c).get :=
        fun h => .restored c (hback rfl h) (hb.symm.trans hg) hmain
      rcases fs with _ | ⟨_ | n | _ | n, fs⟩
      case nil => simpa [Io.ignore, renameAndSync, syncParentDirectory, storageError, rename, sync, look, atomic, Io.call,
        Io.mapErr, Io.bind, bind, Io.throw, hg, Ended] using hrestored rfl
      case cons.pass =>
        rcases fs with _ | ⟨_ | n | n, fs⟩ <;>
          simpa [Io.ignore, renameAndSync, syncParentDirectory, storageError, rename, sync, look, atomic, Io.call,
            Io.mapErr, Io.bind, bind, Io.throw, hg, Ended] using hrestored rfl
      case cons.fail => simpa [Io.ignore, renameAndSync, storageError, rename, atomic, Io.call, Io.mapErr, Io.bind, bind,
        Io.throw, hg, Ended] using hl
      case cons.crash.zero => simpa [Io.ignore, renameAndSync, storageError, rename, atomic, Io.call, Io.mapErr, Io.bind, bind,
        Io.throw, hg, Ended] using hl
      case cons.crash.succ => simpa [Io.ignore, renameAndSync, storageError, rename, atomic, Io.call, Io.mapErr, Io.bind, bind,
        Io.throw, hg, Ended] using hrestored rfl

theorem ended_promote (hm : m.get .main = none) (ht : m.get .temp = some b) (hb : m.get .backup = f .backup)
    (backupIsValid : Bool) (fs : List Fault) (hback : backupIsValid = true → undone fs = true → back = true) :
    Ended b at' back f (renameTempToMainOrRestoreBackup backupIsValid m fs) := by
  have hstaged : Left b at' back f m.get := .staged hm ht
  have hget : ∀ n, (m.move .temp .main b).get n = if n = .main then some b else if n = .temp then none else m.get n :=
    fun n => Machine.get_move _ _ _ _ _ (by decide)
  have hmain : (m.move .temp .main b).get .main = some b := by rw [hget, if_pos rfl]
  have hbackup : (m.move .temp .main b).get .backup = f .backup := by
    rw [hget, if_neg (by decide), if_neg (by decide), hb]
  have hdone : Left b at' back f (m.move .temp .main b).get := .done hmain
  -- the renaming
  rcases fs with _ | ⟨_ | n | _ | n, fs⟩
  case nil =>
    simpa [renameTempToMainOrRestoreBackup, Io.attempt, renameAndSync, syncParentDirectory, storageError, rename, sync, look,
      atomic, Io.call, Io.mapErr, Io.bind, bind, pure, Io.pure, ht, Ended] using hmain
  case cons.fail =>
    exact ended_putBack hstaged hb backupIsValid _ fs hback
  case cons.crash.zero => exact hstaged
  case cons.crash.succ =>
    simpa [renameTempToMainOrRestoreBackup, Io.attempt, renameAndSync, storageError, rename,
      atomic, Io.call, Io.mapErr, Io.bind, bind, ht, Ended] using hdone
  -- the sync
  have hrename : rename .temp .main m (.pass :: fs) = .ok () (m.move .temp .main b) fs := by
    simp [rename, atomic, Io.call, ht]
  have hstep : renameAndSync .temp .main m (.pass :: fs) = syncParentDirectory (m.move .temp .main b) fs :=
    Io.bind_of_ok (Io.mapErr_of_ok hrename)
  unfold renameTempToMainOrRestoreBackup
  rcases fs with _ | ⟨_ | n | n, fs⟩
  case nil => rw [Io.bind_of_ok (Io.attempt_of_ok (hstep.trans rfl))]; exact hmain
  case cons.pass => rw [Io.bind_of_ok (Io.attempt_of_ok (hstep.trans rfl))]; exact hmain
  case cons.fail =>
    rw [Io.bind_of_ok (Io.attempt_of_err (hstep.trans rfl))]
    exact ended_putBack hdone hbackup backupIsValid _ fs hback
  case cons.crash => rw [Io.bind_of_crashed (Io.attempt_of_crashed (hstep.trans rfl))]; exact hdone

/-- The main file is taken away, not put aside. -/
theorem ended_clear (hm : m.get .main = f .main) (ht : m.get .temp = some b) (hb : m.get .backup = f .backup)
    (backupIsValid : Bool) (fs : List Fault)
    (hback : backupIsValid = true → undoneAfter (f .main).isSome fs = true → back = true) :
    Ended b at' back f ((clearMain false >>= fun _ => renameTempToMainOrRestoreBackup backupIsValid) m fs) := by
  cases hf : f .main with
  | none =>
    rw [hf] at hm hback
    have hstaged : Left b at' back f m.get := .staged hm ht
    have hquiet : ∀ rest, Quiet fs rest → clearMain false m fs = .ok () m rest := by
      rintro rest (⟨rfl, rfl⟩ | rfl) <;>
        simp [clearMain, removeInvalidMainIfPresent, removeIfPresent, Io.attempt, remove, atomic, Io.call, Io.bind, bind, pure,
          Io.pure, hm]
    rcases fs with _ | ⟨_ | n | n, fs⟩
    case nil =>
      rw [Io.bind_of_ok (hquiet [] quiet_nil)]
      exact ended_promote hm ht hb backupIsValid [] (fun _ h => by cases h)
    case cons.pass =>
      rw [Io.bind_of_ok (hquiet fs (quiet_pass fs))]
      exact ended_promote hm ht hb backupIsValid fs hback
    case cons.fail => exact hstaged
    case cons.crash =>
      have hdead : clearMain false m (.crash n :: fs) = .crashed m := by
        simp [clearMain, removeInvalidMainIfPresent, removeIfPresent, Io.attempt, remove, atomic, Io.call, Io.bind, bind, hm]
      rw [Io.bind_of_crashed hdead]
      exact hstaged
  | some a =>
    rw [hf] at hm hback
    have hkept : Left b at' back f m.get := .of_main hf hm
    have hmain : (m.unlink .main).get .main = none := Machine.get_unlink_self m .main
    have htemp : (m.unlink .main).get .temp = some b := by rw [Machine.get_unlink_ne m (by decide), ht]
    have hbackup : (m.unlink .main).get .backup = f .backup := by rw [Machine.get_unlink_ne m (by decide), hb]
    have hstaged : Left b at' back f (m.unlink .main).get := .staged hmain htemp
    have hremoved : ∀ rest, Quiet fs rest → clearMain false m fs = syncParentDirectory (m.unlink .main) rest := by
      rintro rest (⟨rfl, rfl⟩ | rfl) <;>
        simp [clearMain, removeInvalidMainIfPresent, removeIfPresent, Io.attempt, remove, atomic, Io.call, Io.bind, bind, hm]
    rcases fs with _ | ⟨_ | n | _ | n, fs⟩
    case nil =>
      rw [Io.bind_of_ok ((hremoved [] quiet_nil).trans rfl)]
      exact ended_promote hmain htemp hbackup backupIsValid [] (fun _ h => by cases h)
    case cons.fail => exact hkept
    case cons.crash.zero => exact hkept
    case cons.crash.succ =>
      have hdead : clearMain false m (.crash (n + 1) :: fs) = .crashed (m.unlink .main) := by
        simp [clearMain, removeInvalidMainIfPresent, removeIfPresent, Io.attempt, remove, atomic, Io.call, Io.bind, bind, hm]
      rw [Io.bind_of_crashed hdead]
      exact hstaged
    -- the sync of the directory
    have hsync := hremoved fs (quiet_pass fs)
    rcases fs with _ | ⟨_ | n | n, fs⟩
    case nil =>
      rw [Io.bind_of_ok (hsync.trans rfl)]
      exact ended_promote hmain htemp hbackup backupIsValid [] (fun _ h => by cases h)
    case cons.pass =>
      rw [Io.bind_of_ok (hsync.trans rfl)]
      exact ended_promote hmain htemp hbackup backupIsValid fs hback
    case cons.fail => rw [Io.bind_of_err (hsync.trans rfl)]; exact hstaged
    case cons.crash => rw [Io.bind_of_crashed (hsync.trans rfl)]; exact hstaged

/-! ### The whole save -/

/-- What follows the reading of the two files. -/
def writeAndReplace (bytes : Bytes) (mainIsValid backupIsValid : Bool) : Io StateDir AppError Unit := do
  storageError sync
  writeAndSync bytes
  clearMain mainIsValid
  renameTempToMainOrRestoreBackup (mainIsValid || backupIsValid)

theorem get_written (m : StateDir) (b : Bytes) (k : ℕ) :
    ((m.set .temp []).append .temp b k).get = Function.update m.get .temp (some (b.take k)) := by
  rw [Machine.get_append_eq _ _ _ [] _ (Machine.get_set_self m .temp []), Machine.get_set_eq, Function.update_idem,
    List.nil_append]

/-- A write that is cut short. -/
theorem Left.of_torn {k : ℕ} (hk : at' = some k) (h : f' = Function.update f .temp (some (b.take k))) : Left b at' back f f' := by
  cases hf : f .main with
  | none => exact .torn k hk hf h
  | some a => exact .of_main hf (by rw [h, Function.update_of_ne (by decide), hf])

/-- The temporary file is written and nothing else happened. -/
theorem Left.of_written (h : f' = Function.update f .temp (some b)) : Left b at' back f f' := by
  cases hf : f .main with
  | none =>
    refine .staged ?_ ?_
    · rw [h, Function.update_of_ne (by decide), hf]
    · rw [h, Function.update_self]
  | some a => exact .of_main hf (by rw [h, Function.update_of_ne (by decide), hf])

/-- Four calls that go through. -/
def undoneLater (mainThere : Bool) : List Fault → Bool
  | .pass :: .pass :: .pass :: .pass :: fs => undoneAfter mainThere fs
  | _ => false

theorem ended_writeAndReplace (b : Bytes) (m : StateDir) (mainIsValid backupIsValid : Bool) (fs : List Fault)
    (hmain : mainIsValid = true → m.get .main ≠ none)
    (hback : mainIsValid = false → backupIsValid = true → undoneLater (m.get .main).isSome fs = true → back = true) :
    Ended b (Storage.ConfigPersistence.torn fs) back m.get (writeAndReplace b mainIsValid backupIsValid m fs) := by
  have hfull : ((m.set .temp []).append .temp b b.length).get = Function.update m.get .temp (some b) := by
    rw [get_written, List.take_length]
  have hempty : (m.set .temp []).get = Function.update m.get .temp (some (b.take 0)) := Machine.get_set_eq m .temp []
  have hm₁ : ((m.set .temp []).append .temp b b.length).get .main = m.get .main := by
    rw [hfull, Function.update_of_ne (by decide)]
  have ht₁ : ((m.set .temp []).append .temp b b.length).get .temp = some b := by rw [hfull, Function.update_self]
  have hb₁ : ((m.set .temp []).append .temp b b.length).get .backup = m.get .backup := by
    rw [hfull, Function.update_of_ne (by decide)]
  -- once the text is written
  have hrest : ∀ (cut : Option ℕ) (rest : List Fault),
      (mainIsValid = false → backupIsValid = true → undoneAfter (m.get .main).isSome rest = true → back = true) →
      Ended b cut back m.get ((clearMain mainIsValid >>= fun _ => renameTempToMainOrRestoreBackup (mainIsValid || backupIsValid))
        ((m.set .temp []).append .temp b b.length) rest) := by
    intro cut rest hr
    cases mainIsValid with
    | true =>
      obtain ⟨a, ha⟩ := Option.ne_none_iff_exists'.1 (hmain rfl)
      exact Ended.of_wp (wp_replace ha (hm₁.trans ha) ht₁) rest
    | false => exact ended_clear hm₁ ht₁ hb₁ backupIsValid rest (hr rfl)
  have hnone : mainIsValid = false → backupIsValid = true → undoneAfter (m.get .main).isSome [] = true → back = true := by
    intro _ _ h
    cases hs : (m.get .main).isSome <;> rw [hs] at h <;> cases h
  -- making the directory
  rcases fs with _ | ⟨_ | n | n, fs⟩
  case cons.fail | cons.crash => exact Left.same rfl
  case nil => exact hrest _ [] hnone
  -- opening the file
  rcases fs with _ | ⟨_ | n | _ | n, fs⟩
  case nil => exact hrest _ [] hnone
  case cons.fail => exact Left.same rfl
  case cons.crash.zero => exact Left.same rfl
  case cons.crash.succ => exact Left.of_torn rfl hempty
  -- the write
  rcases fs with _ | ⟨_ | k | k, fs⟩
  case nil => exact hrest _ [] hnone
  case cons.fail | cons.crash => exact Left.of_torn rfl (get_written m b k)
  -- the sync
  rcases fs with _ | ⟨_ | n | n, fs⟩
  case nil => exact hrest _ [] hnone
  case cons.pass => exact hrest _ fs hback
  case cons.fail | cons.crash => exact Left.of_written hfull

theorem restores_of_undoneLater {there : Bool} {x : Fault} {fs : List Fault} (hx : (∃ n, x = .fail n) ∨ x = .pass ∧ there = false)
    (h : undoneLater there fs = true) : restores there (x :: .pass :: fs) = true := by
  unfold undoneLater at h
  split at h
  · rcases hx with ⟨n, rfl⟩ | ⟨rfl, rfl⟩
    · simpa [restores] using h
    · simpa [restores] using h
  · cases h

/-- The main file is there only if it can be read. -/
def Sound (S : ChartPart P) (J : StateText P) (f : StatePath → Option Bytes) : Prop :=
  ∀ b, f .main = some b → ∃ v, readAs S J (some b) = some v

/-- **What a save leaves**, read off its faults. -/
theorem ended_saveValue (h : Sound S J m.get) (v : P) (fs : List Fault) :
    Ended (J.toVecPretty v) (cut fs) (restores (m.get .main).isSome fs && (readAs S J (m.get .backup)).isSome) m.get
      (saveValue S J v m fs) := by
  have hthere : (readAs S J (m.get .main)).isSome = true → m.get .main ≠ none := by
    intro hr hn
    rw [hn] at hr
    cases hr
  -- a main file that is not read, though the call went through, is missing
  have hmissing : (readAs S J (m.get .main)).isSome = false → (m.get .main).isSome = false := by
    intro hr
    cases hg : m.get .main with
    | none => rfl
    | some c =>
      obtain ⟨u, hu⟩ := h c hg
      rw [hg, hu] at hr
      cases hr
  have heq : saveValue S J v = (candidateIsValid S J .main >>= fun mainIsValid => candidateIsValid S J .backup >>=
      fun backupIsValid => writeAndReplace (J.toVecPretty v) mainIsValid backupIsValid) := rfl
  rw [heq]
  -- the second read and what follows it, for a first read with this answer
  have hsecond : ∀ (x : Fault) (mainIsValid : Bool) (rest : List Fault), (mainIsValid = true → m.get .main ≠ none) →
      (∀ n, x ≠ .crash n) → (mainIsValid = false → (∃ n, x = .fail n) ∨ x = .pass ∧ (m.get .main).isSome = false) →
      Ended (J.toVecPretty v) (cut (x :: rest))
        (restores (m.get .main).isSome (x :: rest) && (readAs S J (m.get .backup)).isSome) m.get
        ((candidateIsValid S J .backup >>= fun backupIsValid => writeAndReplace (J.toVecPretty v) mainIsValid backupIsValid)
          m rest) := by
    intro x mainIsValid rest hm hx hread
    rcases rest with _ | ⟨_ | n | n, fs⟩
    case nil =>
      rw [Io.bind_of_ok (candidateIsValid_run .backup m quiet_nil)]
      have hcut : cut [x] = Storage.ConfigPersistence.torn [] := by cases x <;> rfl
      rw [hcut]
      exact ended_writeAndReplace _ m _ _ [] hm (fun _ _ hu => by cases hu)
    case cons.crash => exact Left.same rfl
    case cons.fail =>
      rw [Io.bind_of_ok (candidateIsValid_fail .backup m n fs)]
      have hcut : cut (x :: .fail n :: fs) = Storage.ConfigPersistence.torn fs := by
        cases x with
        | crash k => exact absurd rfl (hx k)
        | pass => rfl
        | fail k => rfl
      rw [hcut]
      exact ended_writeAndReplace _ m _ _ fs hm (fun _ hb _ => by cases hb)
    case cons.pass =>
      rw [Io.bind_of_ok (candidateIsValid_run .backup m (quiet_pass fs))]
      have hcut : cut (x :: .pass :: fs) = Storage.ConfigPersistence.torn fs := by
        cases x with
        | crash k => exact absurd rfl (hx k)
        | pass => rfl
        | fail k => rfl
      rw [hcut]
      refine ended_writeAndReplace _ m _ _ fs hm (fun hv hb hu => ?_)
      rw [hb, restores_of_undoneLater (hread hv) hu]
      rfl
  -- the first read
  rcases fs with _ | ⟨_ | n | n, fs⟩
  case nil =>
    rw [Io.bind_of_ok (candidateIsValid_run .main m quiet_nil), Io.bind_of_ok (candidateIsValid_run .backup m quiet_nil)]
    exact ended_writeAndReplace _ m _ _ [] hthere (fun _ _ hu => by cases hu)
  case cons.pass =>
    rw [Io.bind_of_ok (candidateIsValid_run .main m (quiet_pass fs))]
    exact hsecond .pass _ fs hthere (fun n hn => by cases hn) (fun hr => .inr ⟨rfl, hmissing hr⟩)
  case cons.fail =>
    rw [Io.bind_of_ok (candidateIsValid_fail .main m n fs)]
    exact hsecond (.fail n) false fs (fun hr => by cases hr) (fun k hn => by cases hn) (fun _ => .inl ⟨n, rfl⟩)
  case cons.crash => exact Left.same rfl

/-! ## What is found afterwards -/

/-- The same document is found, or one with a higher revision. -/
def Kept (S : ChartPart P) (before after : Option P) : Prop :=
  ∀ d, before = some d → ∃ d', after = some d' ∧ (d' = d ∨ S.revision d < S.revision d')

theorem Kept.refl (o : Option P) : Kept S o o := fun d hd => ⟨d, hd, .inl rfl⟩

theorem Kept.trans {x y z : Option P} (h : Kept S x y) (h' : Kept S y z) : Kept S x z := by
  intro d hd
  obtain ⟨d₁, h₁, hr₁⟩ := h d hd
  obtain ⟨d₂, h₂, hr₂⟩ := h' d₁ h₁
  refine ⟨d₂, h₂, ?_⟩
  rcases hr₁ with rfl | hr₁ <;> rcases hr₂ with rfl | hr₂
  · exact .inl rfl
  · exact .inr hr₂
  · exact .inr hr₁
  · exact .inr (hr₁.trans hr₂)

/-- A save of `v` from the files `f` under these faults loses nothing: its write is not cut
short over the only copy of what is found, and the backup is not put back in place of
something newer. -/
structure Spared (S : ChartPart P) (J : StateText P) (f : StatePath → Option Bytes) (v : P) (fs : List Fault) : Prop where
  whole : f .main = none → (readAs S J (f .temp)).isSome → ∀ k, cut fs = some k → (J.toVecPretty v).length ≤ k
  forward : restores (f .main).isSome fs = true → (readAs S J (f .backup)).isSome → f .main = none ∧ readAs S J (f .temp) = none
  reads : J.fromSlice (J.toVecPretty v) = some v

theorem readAs_torn (v : P) (k : ℕ) (hk : k < (J.toVecPretty v).length) :
    readAs S J (some ((J.toVecPretty v).take k)) = none := by
  simp [readAs, J.fromSlice_torn v k hk]

/-- What is left of the files, for what is found. -/
theorem Left.kept_found (h : Sound S J f) {fs : List Fault} (hs : Spared S J f v fs) (hv : S.validate v = .ok ())
    (hnew : ∀ d, found S J f = some d → S.revision d < S.revision v)
    (hl : Left (J.toVecPretty v) (cut fs) (restores (f .main).isSome fs && (readAs S J (f .backup)).isSome) f f') :
    Sound S J f' ∧ Kept S (found S J f) (found S J f') := by
  have htext : readAs S J (some (J.toVecPretty v)) = some v := readAs_text hs.reads hv
  have hnewer : found S J f' = some v → Kept S (found S J f) (found S J f') := by
    intro hf d hd
    exact ⟨v, hf, .inr (hnew d hd)⟩
  cases hl with
  -- the main file is what is found, as it was:
  | kept hne main =>
    obtain ⟨a, ha⟩ := Option.ne_none_iff_exists'.1 hne
    obtain ⟨u, hu⟩ := h a ha
    have hu' : readAs S J (f .main) = some u := by rw [ha]; exact hu
    refine ⟨fun c hc => h c (main ▸ hc), ?_⟩
    rw [found_of_main hu', found_of_main (main ▸ hu')]
    exact Kept.refl _
  | same files => subst files; exact ⟨h, Kept.refl _⟩
  | torn k hk hm files =>
    have hm' : f' .main = none := by rw [files, Function.update_of_ne (by decide), hm]
    have ht' : f' .temp = some ((J.toVecPretty v).take k) := by rw [files, Function.update_self]
    have hb' : f' .backup = f .backup := by rw [files, Function.update_of_ne (by decide)]
    refine ⟨fun c hc => (by rw [hm'] at hc; cases hc), ?_⟩
    by_cases hlen : (J.toVecPretty v).length ≤ k
    · -- all of it was written
      rw [List.take_of_length_le hlen] at ht'
      exact hnewer (found_of_temp hm' (ht' ▸ htext))
    · -- a torn text takes the place of a temporary file that was not read anyway:
      have htemp : readAs S J (f .temp) = none := by
        cases hr : readAs S J (f .temp) with
        | none => rfl
        | some u => exact absurd (hs.whole hm (by rw [hr]; rfl) k hk) hlen
      have htemp' : readAs S J (f' .temp) = none := by rw [ht']; exact readAs_torn v k (not_le.1 hlen)
      rw [found_of_backup hm htemp, found_of_backup hm' htemp', hb']
      exact Kept.refl _
  | staged main temp =>
    exact ⟨fun c hc => (by rw [main] at hc; cases hc), hnewer (found_of_temp main (temp ▸ htext))⟩
  | done main =>
    refine ⟨fun c hc => ?_, hnewer (found_of_main (main ▸ htext))⟩
    obtain rfl : J.toVecPretty v = c := Option.some.inj (main.symm.trans hc)
    exact ⟨v, htext⟩
  -- the backup is put back only where it was what is found:
  | restored c hback backup main =>
    rw [Bool.and_eq_true] at hback
    obtain ⟨hm, ht⟩ := hs.forward hback.1 hback.2
    obtain ⟨u, hu⟩ := Option.isSome_iff_exists.1 hback.2
    have hu' : readAs S J (f' .main) = some u := by rw [main, ← backup]; exact hu
    refine ⟨fun d hd => ⟨u, by rw [← hd]; exact hu'⟩, ?_⟩
    rw [found_of_backup hm ht, found_of_main hu', hu]
    exact Kept.refl _

end ChartStateStore

open ChartStateStore

/-! ## One part -/

section Part

variable {P : Type} [DecidableEq P] {S : ChartPart P} {J : StateText P} {m : StateDir} {requested : Option P} {nowMs : ℤ}
  {fs : List Fault}

/-- The request loses nothing, if it is written at all. -/
def SparedPart (S : ChartPart P) (J : StateText P) (f : StatePath → Option Bytes) (requested : Option P) (nowMs : ℤ)
    (fs : List Fault) : Prop :=
  ∀ v, requested = some v → answered S (found S J f) v = none → Spared S J f (S.stamp nowMs v) fs

/-- An acknowledged request: what is found has the revision, and the content if there was one. -/
structure Acked (S : ChartPart P) (requested : Option P) (revision : ℕ) (after : Option P) : Prop where
  omitted : requested = none → revision = (after.map S.revision).getD 0
  stored : ∀ v, requested = some v → ∃ d, after = some d ∧ S.revision d = revision ∧ S.erase d = S.erase v

theorem answered_eq_none {durable : Option P} {v : P} (h : answered S durable v = none) :
    ∀ d, durable = some d → S.revision d < S.revision v := by
  rintro d rfl
  unfold answered at h
  dsimp only at h
  split at h
  · cases h
  · split at h
    · split at h <;> cases h
    · omega

theorem answered_saved {durable : Option P} {v : P} {r : PartSaveResult} (h : answered S durable v = some r) (hr : r.saved = true) :
    Acked S (some v) r.revision durable := by
  cases durable with
  | none => cases h
  | some d =>
    unfold answered at h
    dsimp only at h
    split at h
    · cases h; cases hr
    · split at h
      · split at h
        · rename_i hsame
          cases h
          refine ⟨fun hn => (by cases hn), fun u hu => ⟨d, rfl, rfl, ?_⟩⟩
          cases hu
          simpa [sameContent] using hsame
        · cases h; cases hr
      · cases h

/-- How a save of one part ends. -/
def PartEnded (S : ChartPart P) (J : StateText P) (f : StatePath → Option Bytes) (requested : Option P) :
    Outcome StateDir AppError PartSaveResult → Prop
  | .ok r m' rest => rest = [] ∧ Sound S J m'.get ∧ Kept S (found S J f) (found S J m'.get) ∧
      (r.saved = true → Acked S requested r.revision (found S J m'.get))
  | .err _ _ _ => False
  | .crashed m' => Sound S J m'.get ∧ Kept S (found S J f) (found S J m'.get)

/-- The answer that writes nothing, or the write. -/
theorem savePart_eq (m : StateDir) : savePart S J fs requested nowMs m [] =
    match requested with
    | none => .ok (.success (((found S J m.get).map S.revision).getD 0) (((found S J m.get).map S.savedAtMs).getD 0) false) m []
    | some v =>
      match answered S (found S J m.get) v with
      | some answer => .ok answer m []
      | none =>
        match ChartStateStore.save S J (S.stamp nowMs v) m fs with
        | .ok _ m' _ => .ok (.success (S.revision v) nowMs true) m' []
        | .err e m' _ => .ok (.failed (((found S J m.get).map S.revision).getD 0) (((found S J m.get).map S.savedAtMs).getD 0)
            e.userMessage) m' []
        | .crashed m' => .crashed m' := by
  obtain ⟨r, hr, hj⟩ := loadCandidates_run (S := S) (J := J) m
  have hload : (Io.attempt (Io.under [] (loadCandidates S J)) : Io StateDir AppError _) m [] = .ok r m [] := by
    unfold Io.attempt Io.under at *
    cases hc : loadCandidates S J m [] with
    | ok o m' rest => rw [hc] at hr; cases hr; rfl
    | err e m' rest => rw [hc] at hr; cases hr; rfl
    | crashed m' => rw [hc] at hr; cases hr
  unfold savePart
  rw [Io.bind_of_ok hload, hj]
  cases requested with
  | none => rfl
  | some v =>
    dsimp only
    cases ha : answered S (found S J m.get) v with
    | some answer => rfl
    | none =>
      dsimp only
      cases hs : ChartStateStore.save S J (S.stamp nowMs v) m fs with
      | ok u m' rest => rw [Io.bind_of_ok (Io.attempt_of_ok (Io.under_of_ok hs))]; rfl
      | err e m' rest => rw [Io.bind_of_ok (Io.attempt_of_err (Io.under_of_err hs))]; rfl
      | crashed m' => rw [Io.bind_of_crashed (Io.attempt_of_crashed (Io.under_of_crashed hs))]

/-- **One save of one part**: what is found stays or has a higher revision, and an
acknowledged request is found. -/
theorem savePart_kept (h : Sound S J m.get) (hs : SparedPart S J m.get requested nowMs fs) :
    PartEnded S J m.get requested (savePart S J fs requested nowMs m []) := by
  rw [savePart_eq]
  cases requested with
  | none => exact ⟨rfl, h, Kept.refl _, fun _ => ⟨fun _ => rfl, fun v hv => by cases hv⟩⟩
  | some v =>
    dsimp only
    cases ha : answered S (found S J m.get) v with
    -- a conflict or a repeated request is answered without a save:
    | some answer => exact ⟨rfl, h, Kept.refl _, fun hr => answered_saved ha hr⟩
    | none =>
      dsimp only
      have hspared := hs v rfl ha
      cases hv : S.validate (S.stamp nowMs v) with
      | error e =>
        have hsave : ChartStateStore.save S J (S.stamp nowMs v) m fs = .err e m fs := by
          unfold ChartStateStore.save; rw [hv]; rfl
        rw [hsave]
        exact ⟨rfl, h, Kept.refl _, fun hr => by cases hr⟩
      | ok u =>
        have hsave : ChartStateStore.save S J (S.stamp nowMs v) m fs = saveValue S J (S.stamp nowMs v) m fs := by
          unfold ChartStateStore.save; rw [hv]; rfl
        have hnew : ∀ d, found S J m.get = some d → S.revision d < S.revision (S.stamp nowMs v) := by
          intro d hd
          rw [S.revision_stamp]
          exact answered_eq_none ha d hd
        rw [hsave]
        have hend := ended_saveValue h (S.stamp nowMs v) fs
        cases hr : saveValue S J (S.stamp nowMs v) m fs with
        -- the save returns: the new state is found
        | ok u' m' rest =>
          rw [hr] at hend
          obtain ⟨hsound, hkept⟩ := Left.kept_found h hspared hv hnew (.done hend)
          refine ⟨rfl, hsound, hkept, fun _ => ⟨fun hn => (by cases hn), fun u hu => ?_⟩⟩
          cases hu
          refine ⟨S.stamp nowMs v, ?_, S.revision_stamp nowMs v, S.erase_stamp nowMs v⟩
          exact found_of_main (by rw [show m'.get .main = _ from hend]; exact readAs_text hspared.reads hv)
        -- it fails or is cut short: the old one or the new one is
        | err e m' rest =>
          rw [hr] at hend
          obtain ⟨hsound, hkept⟩ := Left.kept_found h hspared hv hnew hend
          exact ⟨rfl, hsound, hkept, fun hr => by cases hr⟩
        | crashed m' =>
          rw [hr] at hend
          exact Left.kept_found h hspared hv hnew hend

/-- A request that conflicts changes no file. -/
theorem savePart_conflict {d v : P} (fs : List Fault) (nowMs : ℤ) (hd : found S J m.get = some d)
    (h : S.revision v < S.revision d ∨ S.revision v = S.revision d ∧ S.erase d ≠ S.erase v) :
    ∃ r, savePart S J fs (some v) nowMs m [] = .ok r m [] ∧ r.saved = false := by
  rw [savePart_eq]
  dsimp only
  rw [hd]
  unfold answered
  dsimp only
  rcases h with h | ⟨h, hne⟩
  · rw [if_pos h]; exact ⟨_, rfl, rfl⟩
  · rw [if_neg (by omega), if_pos h, if_neg (by simpa [sameContent] using hne)]
    exact ⟨_, rfl, rfl⟩

omit [DecidableEq P] in
theorem loadOrDefault_run (m : StateDir) : loadOrDefault S J m [] = .ok ((found S J m.get).getD S.default) m [] := by
  obtain ⟨r, hr, hj⟩ := loadCandidates_run (S := S) (J := J) m
  unfold loadOrDefault
  rw [Io.bind_of_ok hr, hj]
  rfl

end Part

/-! ## The service -/

section Service

variable {F V : Type} [DecidableEq F] [DecidableEq V] {key : ChartWorkspaceKey} {J : StateText (ChartViewStateV1 F V)}
  {K : StateText ChartPreferencesV1} {w w' : ChartDirs}

/-- What is found of the view of the key. -/
def foundView (key : ChartWorkspaceKey) (J : StateText (ChartViewStateV1 F V)) (w : ChartDirs) : Option (ChartViewStateV1 F V) :=
  found (viewPart key) J w.view.get

def foundPreferences (K : StateText ChartPreferencesV1) (w : ChartDirs) : Option ChartPreferencesV1 :=
  found preferencesPart K w.preferences.get

/-- The files of both parts are in order. -/
structure InOrder (key : ChartWorkspaceKey) (J : StateText (ChartViewStateV1 F V)) (K : StateText ChartPreferencesV1)
    (w : ChartDirs) : Prop where
  view : Sound (viewPart key) J w.view.get
  preferences : Sound preferencesPart K w.preferences.get

/-- Nothing found in `w` is lost in `w'`. -/
structure Onward (key : ChartWorkspaceKey) (J : StateText (ChartViewStateV1 F V)) (K : StateText ChartPreferencesV1)
    (w w' : ChartDirs) : Prop where
  view : Kept (viewPart key) (foundView key J w) (foundView key J w')
  preferences : Kept preferencesPart (foundPreferences K w) (foundPreferences K w')

/-- The call loses nothing. -/
def ChartCall.Spared (key : ChartWorkspaceKey) (J : StateText (ChartViewStateV1 F V)) (K : StateText ChartPreferencesV1)
    (w : ChartDirs) : ChartCall F V → Prop
  | .load _ _ _ _ _ => True
  | .save faults request _ nowMs =>
    parseKey request.key.symbol request.key.interval = .ok key → validateSaveRequest key request = .ok () →
      SparedPart (viewPart key) J w.view.get request.viewState nowMs faults.view ∧
        SparedPart preferencesPart K w.preferences.get request.preferences nowMs faults.preferences

omit [DecidableEq F] [DecidableEq V] in
theorem load_of_ok (w : ChartDirs) {rawKey : ChartWorkspaceKey} {start stop : Option ℤ} {limit : Option ℕ}
    {loadRange : Option ℤ → Option ℤ → ℕ → AppResult (List Kline)} {klines : List Kline}
    (hk : parseKey rawKey.symbol rawKey.interval = .ok key)
    (he : ensure (¬∃ a ∈ start, ∃ b ∈ stop, a > b) (AppError.storage "kline range start exceeds end") = .ok ())
    (hl : loadRange start stop ((limit.map fun value => min (max value 1) 10000).getD
      (if start.isNone ∧ stop.isNone then 200 else 10000)) = .ok klines) :
    ChartWorkspaceService.load J K rawKey start stop limit loadRange w [] =
      .ok ⟨key, klines, (foundView key J w).getD (defaultViewState key), (foundPreferences K w).getD defaultPreferences⟩ w [] := by
  have hview : onView (loadOrDefault (viewPart key) J) w [] =
      .ok ((foundView key J w).getD (defaultViewState key)) w [] := Io.within_of_ok (loadOrDefault_run w.view)
  have hpreferences : onPreferences (loadOrDefault preferencesPart K) w [] =
      .ok ((foundPreferences K w).getD defaultPreferences) w [] := Io.within_of_ok (loadOrDefault_run w.preferences)
  unfold ChartWorkspaceService.load
  rw [Io.bind_of_ok (Io.lift_of_ok hk), Io.bind_of_ok (Io.lift_of_ok he), Io.bind_of_ok (Io.lift_of_ok hl), Io.bind_of_ok hview,
    Io.bind_of_ok hpreferences]
  rfl

omit [DecidableEq F] [DecidableEq V] in
theorem load_run (w : ChartDirs) (rawKey : ChartWorkspaceKey) (start stop : Option ℤ) (limit : Option ℕ)
    (loadRange : Option ℤ → Option ℤ → ℕ → AppResult (List Kline)) :
    (∃ e, ChartWorkspaceService.load J K rawKey start stop limit loadRange w [] = .err e w []) ∨
      ∃ key klines, parseKey rawKey.symbol rawKey.interval = .ok key ∧
        ChartWorkspaceService.load J K rawKey start stop limit loadRange w [] =
          .ok ⟨key, klines, (foundView key J w).getD (defaultViewState key), (foundPreferences K w).getD defaultPreferences⟩ w [] := by
  cases hk : parseKey rawKey.symbol rawKey.interval with
  | error e =>
    unfold ChartWorkspaceService.load
    rw [hk]
    exact .inl ⟨e, rfl⟩
  | ok key =>
    cases he : ensure (¬∃ a ∈ start, ∃ b ∈ stop, a > b) (AppError.storage "kline range start exceeds end") with
    | error e =>
      unfold ChartWorkspaceService.load
      rw [Io.bind_of_ok (Io.lift_of_ok hk), he]
      exact .inl ⟨e, rfl⟩
    | ok u =>
      cases hl : loadRange start stop ((limit.map fun value => min (max value 1) 10000).getD
          (if start.isNone ∧ stop.isNone then 200 else 10000)) with
      | error e =>
        unfold ChartWorkspaceService.load
        rw [Io.bind_of_ok (Io.lift_of_ok hk), Io.bind_of_ok (Io.lift_of_ok he), hl]
        exact .inl ⟨e, rfl⟩
      | ok klines => exact .inr ⟨key, klines, rfl, load_of_ok w hk he hl⟩

omit [DecidableEq F] [DecidableEq V] in
theorem load_state (w : ChartDirs) (rawKey : ChartWorkspaceKey) (start stop : Option ℤ) (limit : Option ℕ)
    (loadRange : Option ℤ → Option ℤ → ℕ → AppResult (List Kline)) :
    (ChartWorkspaceService.load J K rawKey start stop limit loadRange w []).state = w := by
  rcases load_run (J := J) (K := K) w rawKey start stop limit loadRange with ⟨e, h⟩ | ⟨key, klines, -, h⟩
  · rw [h]; rfl
  · rw [h]; rfl

variable (w) (faults : ChartFaults) (request : SaveChartWorkspaceRequest F V) (klineResult : AppResult Bool) (nowMs : ℤ)

/-- A save whose request is refused, or the two parts one after the other. -/
theorem save_run (hk : parseKey request.key.symbol request.key.interval = .ok key) :
    (∃ e, validateSaveRequest key request = .error e ∧
      ChartWorkspaceService.save J K faults request klineResult nowMs w [] = .err e w []) ∨
    (validateSaveRequest key request = .ok () ∧
      ((∃ view, savePart (viewPart key) J faults.view request.viewState nowMs w.view [] = .crashed view ∧
        ChartWorkspaceService.save J K faults request klineResult nowMs w [] = .crashed { w with view := view }) ∨
      (∃ r view, savePart (viewPart key) J faults.view request.viewState nowMs w.view [] = .ok r view [] ∧
        ((∃ preferences, savePart preferencesPart K faults.preferences request.preferences nowMs w.preferences [] = .crashed preferences ∧
          ChartWorkspaceService.save J K faults request klineResult nowMs w [] = .crashed ⟨view, preferences⟩) ∨
        (∃ q preferences result, savePart preferencesPart K faults.preferences request.preferences nowMs w.preferences [] =
            .ok q preferences [] ∧
          ChartWorkspaceService.save J K faults request klineResult nowMs w [] = .ok result ⟨view, preferences⟩ [] ∧
          result.viewStateSaved = r.saved ∧ result.viewRevision = r.revision ∧ result.preferencesSaved = q.saved ∧
          result.preferencesRevision = q.revision))))) := by
  -- a part ends with an answer or the process dies
  have hpart : ∀ {P : Type} [DecidableEq P] (S : ChartPart P) (T : StateText P) (m : StateDir) (fs : List Fault) (requested : Option P),
      (∃ r m', savePart S T fs requested nowMs m [] = .ok r m' []) ∨ ∃ m', savePart S T fs requested nowMs m [] = .crashed m' := by
    intro P _ S T m fs requested
    rw [savePart_eq]
    cases requested with
    | none => exact .inl ⟨_, _, rfl⟩
    | some v =>
      dsimp only
      cases answered S (found S T m.get) v with
      | some answer => exact .inl ⟨_, _, rfl⟩
      | none =>
        dsimp only
        cases ChartStateStore.save S T (S.stamp nowMs v) m fs with
        | ok u m' rest => exact .inl ⟨_, _, rfl⟩
        | err e m' rest => exact .inl ⟨_, _, rfl⟩
        | crashed m' => exact .inr ⟨_, rfl⟩
  unfold ChartWorkspaceService.save
  rw [Io.bind_of_ok (Io.lift_of_ok hk)]
  cases hv : validateSaveRequest key request with
  | error e => exact .inl ⟨e, rfl, rfl⟩
  | ok u =>
    refine .inr ⟨rfl, ?_⟩
    rw [Io.bind_of_ok (Io.lift_of_ok rfl)]
    rcases hpart (viewPart key) J w.view faults.view request.viewState with ⟨r, view, hr⟩ | ⟨view, hr⟩
    · refine .inr ⟨r, view, hr, ?_⟩
      have hview : onView (savePart (viewPart key) J faults.view request.viewState nowMs) w [] =
          .ok r { w with view := view } [] := Io.within_of_ok hr
      rw [Io.bind_of_ok hview]
      rcases hpart preferencesPart K w.preferences faults.preferences request.preferences with ⟨q, preferences, hq⟩ | ⟨preferences, hq⟩
      · have hpreferences : onPreferences (savePart preferencesPart K faults.preferences request.preferences nowMs)
            { w with view := view } [] = .ok q ⟨view, preferences⟩ [] := Io.within_of_ok hq
        exact .inr ⟨q, preferences, _, hq, (Io.bind_of_ok hpreferences).trans rfl, rfl, rfl, rfl, rfl⟩
      · refine .inl ⟨preferences, hq, ?_⟩
        have hpreferences : onPreferences (savePart preferencesPart K faults.preferences request.preferences nowMs)
            { w with view := view } [] = .crashed ⟨view, preferences⟩ := by
          unfold onPreferences Io.within; rw [hq]
        rw [Io.bind_of_crashed hpreferences]
    · refine .inl ⟨view, hr, ?_⟩
      have hview : onView (savePart (viewPart key) J faults.view request.viewState nowMs) w [] =
          .crashed { w with view := view } := by
        unfold onView Io.within; rw [hr]
      rw [Io.bind_of_crashed hview]

/-! ## Runs -/

variable {w faults request klineResult nowMs}

omit [DecidableEq F] [DecidableEq V] in
theorem Onward.refl (w : ChartDirs) : Onward key J K w w := ⟨Kept.refl _, Kept.refl _⟩

/-- What a save that returned keeps and acknowledges. -/
theorem save_acked (hk : parseKey request.key.symbol request.key.interval = .ok key) (h : InOrder key J K w)
    (hs : (ChartCall.save faults request klineResult nowMs).Spared key J K w) {result : ChartWorkspaceSaveResult}
    {rest : List Fault} (hr : ChartWorkspaceService.save J K faults request klineResult nowMs w [] = .ok result w' rest) :
    (result.viewStateSaved = true → Acked (viewPart key) request.viewState result.viewRevision (foundView key J w')) ∧
      (result.preferencesSaved = true →
        Acked preferencesPart request.preferences result.preferencesRevision (foundPreferences K w')) := by
  rcases save_run (J := J) (K := K) w faults request klineResult nowMs hk with
    ⟨e, -, he⟩ | ⟨hv, ⟨view, -, he⟩ | ⟨r, view, hview, ⟨preferences, -, he⟩ | ⟨q, preferences, result', hpref, he, h1, h2, h3, h4⟩⟩⟩
  · rw [he] at hr; cases hr
  · rw [he] at hr; cases hr
  · rw [he] at hr; cases hr
  · rw [he] at hr
    cases hr
    obtain ⟨sv, sp⟩ := hs hk hv
    have hend := savePart_kept h.view sv
    have hend' := savePart_kept h.preferences sp
    rw [hview] at hend
    rw [hpref] at hend'
    refine ⟨fun ha => ?_, fun ha => ?_⟩
    · rw [h2]; exact hend.2.2.2 (h1 ▸ ha)
    · rw [h4]; exact hend'.2.2.2 (h3 ▸ ha)

/-- **One call**: the files stay in order and nothing found is lost. -/
theorem step_onward (w : ChartDirs) (c : ChartCall F V) (h : InOrder key J K w) (hs : c.Spared key J K w) :
    InOrder key J K (w.step key J K c) ∧ Onward key J K w (w.step key J K c) := by
  cases c with
  | load rawKey start stop limit loadRange =>
    have hstate : w.step key J K (.load rawKey start stop limit loadRange) = w := by
      rw [ChartDirs.step]
      exact load_state w rawKey start stop limit loadRange
    rw [hstate]
    exact ⟨h, Onward.refl w⟩
  | save faults request klineResult nowMs =>
    by_cases hk : parseKey request.key.symbol request.key.interval = .ok key
    · have hstate : w.step key J K (.save faults request klineResult nowMs) =
          (ChartWorkspaceService.save J K faults request klineResult nowMs w []).state := by
        rw [ChartDirs.step, if_pos hk]
      rw [hstate]
      rcases save_run (J := J) (K := K) w faults request klineResult nowMs hk with
        ⟨e, -, he⟩ | ⟨hv, ⟨view, hview, he⟩ | ⟨r, view, hview, ⟨preferences, hpref, he⟩ |
          ⟨q, preferences, result, hpref, he, -⟩⟩⟩
      · rw [he]; exact ⟨h, Onward.refl w⟩
      all_goals
        obtain ⟨sv, sp⟩ := hs hk hv
        have hend := savePart_kept h.view sv
        rw [hview] at hend
        rw [he]
      · exact ⟨⟨hend.1, h.preferences⟩, ⟨hend.2, Kept.refl _⟩⟩
      · have hend' := savePart_kept h.preferences sp
        rw [hpref] at hend'
        exact ⟨⟨hend.2.1, hend'.1⟩, ⟨hend.2.2.1, hend'.2⟩⟩
      · have hend' := savePart_kept h.preferences sp
        rw [hpref] at hend'
        exact ⟨⟨hend.2.1, hend'.2.1⟩, ⟨hend.2.2.1, hend'.2.2.1⟩⟩
    · have hstate : w.step key J K (.save faults request klineResult nowMs) = w := by
        rw [ChartDirs.step, if_neg hk]
      rw [hstate]
      exact ⟨h, Onward.refl w⟩

omit [DecidableEq F] [DecidableEq V] in
theorem init_inOrder : InOrder key J K ChartDirs.init := ⟨fun b hb => (by cases hb), fun b hb => (by cases hb)⟩

theorem run_inOrder (calls : List (ChartCall F V))
    (h : Along (ChartDirs.step key J K) (fun w c => c.Spared key J K w) ChartDirs.init calls) :
    InOrder key J K (run (ChartDirs.step key J K) ChartDirs.init calls) :=
  run_inv_along (fun w c hw hc => (step_onward w c hw hc).1) calls _ init_inOrder h

/-- From any state of a run to any later one. -/
theorem run_onward (more : List (ChartCall F V)) : ∀ w, InOrder key J K w →
    Along (ChartDirs.step key J K) (fun w c => c.Spared key J K w) w more →
    Onward key J K w (run (ChartDirs.step key J K) w more) := by
  induction more with
  | nil => intro w _ _; exact Onward.refl w
  | cons c more ih =>
    intro w hw hs
    obtain ⟨horder, hstep⟩ := step_onward w c hw hs.1
    obtain ⟨hv, hp⟩ := ih _ horder hs.2
    exact ⟨hstep.view.trans hv, hstep.preferences.trans hp⟩

/-- A load of the key that returns `snapshot`. -/
def Loads (key : ChartWorkspaceKey) (J : StateText (ChartViewStateV1 F V)) (K : StateText ChartPreferencesV1) (w : ChartDirs)
    (snapshot : ChartWorkspaceSnapshot F V) : Prop :=
  ∃ rawKey start stop limit loadRange w' rest, parseKey rawKey.symbol rawKey.interval = .ok key ∧
    ChartWorkspaceService.load J K rawKey start stop limit loadRange w [] = .ok snapshot w' rest

omit [DecidableEq F] [DecidableEq V] in
theorem Loads.eq {snapshot : ChartWorkspaceSnapshot F V} (h : Loads key J K w snapshot) :
    snapshot.viewState = (foundView key J w).getD (viewPart key).default ∧
      snapshot.preferences = (foundPreferences K w).getD preferencesPart.default := by
  obtain ⟨rawKey, start, stop, limit, loadRange, w', rest, hk, h⟩ := h
  rcases load_run (J := J) (K := K) w rawKey start stop limit loadRange with ⟨e, he⟩ | ⟨key', klines, hk', he⟩
  · rw [he] at h; cases h
  · rw [hk, Except.ok.injEq] at hk'
    subst hk'
    rw [he] at h
    cases h
    exact ⟨rfl, rfl⟩

section Later

variable {P : Type} {S : ChartPart P} {before after : Option P}

theorem ChartStateStore.Kept.revision_le (h : Kept S before after) :
    S.revision (before.getD S.default) ≤ S.revision (after.getD S.default) := by
  cases before with
  | none =>
    rw [Option.getD_none, S.revision_default]
    exact Nat.zero_le _
  | some d =>
    obtain ⟨d', rfl, rfl | hlt⟩ := h d rfl
    · exact le_rfl
    · exact hlt.le

/-- What was acknowledged is still there, or something of a higher revision. -/
theorem ChartStateStore.Kept.acked (h : Kept S before after) {requested : Option P} {revision : ℕ} (ha : Acked S requested revision before) :
    revision ≤ S.revision (after.getD S.default) ∧
      ∀ v, requested = some v → S.revision (after.getD S.default) = revision → S.erase (after.getD S.default) = S.erase v := by
  cases requested with
  | none =>
    refine ⟨?_, fun v hv => by cases hv⟩
    rw [ha.omitted rfl]
    have hle := h.revision_le
    cases before with
    | none => exact Nat.zero_le _
    | some d => exact hle
  | some v =>
    obtain ⟨d, hd, hrev, herase⟩ := ha.stored v rfl
    obtain ⟨d', rfl, rfl | hlt⟩ := h d hd
    · refine ⟨hrev.ge, fun u hu _ => ?_⟩
      cases hu
      exact herase
    · refine ⟨(hrev ▸ hlt).le, fun u hu he => ?_⟩
      rw [Option.getD_some] at he
      omega

end Later

/-- A request that conflicts with what is found leaves the files of its part alone. -/
theorem step_conflict (w : ChartDirs) (faults : ChartFaults) (request : SaveChartWorkspaceRequest F V) (klineResult : AppResult Bool)
    (nowMs : ℤ) :
    (∀ d v, foundView key J w = some d → request.viewState = some v →
      (v.revision < d.revision ∨ v.revision = d.revision ∧ sameContent (viewPart key) d v = false) →
      (w.step key J K (.save faults request klineResult nowMs)).view = w.view) ∧
    (∀ d v, foundPreferences K w = some d → request.preferences = some v →
      (v.revision < d.revision ∨ v.revision = d.revision ∧ sameContent preferencesPart d v = false) →
      (w.step key J K (.save faults request klineResult nowMs)).preferences = w.preferences) := by
  by_cases hk : parseKey request.key.symbol request.key.interval = .ok key
  swap
  · have hstate : w.step key J K (.save faults request klineResult nowMs) = w := by rw [ChartDirs.step, if_neg hk]
    rw [hstate]
    exact ⟨fun _ _ _ _ _ => rfl, fun _ _ _ _ _ => rfl⟩
  have hstate : w.step key J K (.save faults request klineResult nowMs) =
      (ChartWorkspaceService.save J K faults request klineResult nowMs w []).state := by
    rw [ChartDirs.step, if_pos hk]
  rw [hstate]
  refine ⟨fun d v hd hv hconf => ?_, fun d v hd hv hconf => ?_⟩
  · have hconf' : v.revision < d.revision ∨ v.revision = d.revision ∧ (viewPart key).erase d ≠ (viewPart key).erase v := by
      simpa [sameContent] using hconf
    obtain ⟨r, hr, -⟩ := savePart_conflict (S := viewPart key) (J := J) faults.view nowMs hd hconf'
    rcases save_run (J := J) (K := K) w faults request klineResult nowMs hk with
      ⟨e, -, he⟩ | ⟨-, ⟨view, hview, he⟩ | ⟨r', view, hview, ⟨preferences, hpref, he⟩ | ⟨q, preferences, result, hpref, he, -⟩⟩⟩
    · rw [he]; rfl
    all_goals
      rw [hv, hr] at hview
      cases hview
      try (rw [he]; rfl)
  · have hconf' : v.revision < d.revision ∨ v.revision = d.revision ∧ preferencesPart.erase d ≠ preferencesPart.erase v := by
      simpa [sameContent] using hconf
    obtain ⟨r, hr, -⟩ := savePart_conflict (S := preferencesPart) (J := K) faults.preferences nowMs hd hconf'
    rcases save_run (J := J) (K := K) w faults request klineResult nowMs hk with
      ⟨e, -, he⟩ | ⟨-, ⟨view, hview, he⟩ | ⟨r', view, hview, ⟨preferences, hpref, he⟩ | ⟨q, preferences, result, hpref, he, -⟩⟩⟩
    · rw [he]; rfl
    · rw [he]; rfl
    all_goals
      rw [hv, hr] at hpref
      cases hpref
      try (rw [he]; rfl)

/-- **An acknowledged chart save survives**, in every run none of whose saves is cut short
over the only copy of what is found, puts the backup back in its place, or is of a state
whose text is not read back as it was: what a later load returns has at least the
acknowledged revision, and the acknowledged content at that revision; revisions never
go back; a request that conflicts changes no file. The same holds of the preferences. -/
theorem chart_saves_survive (key : ChartWorkspaceKey) (J : StateText (ChartViewStateV1 F V)) (K : StateText ChartPreferencesV1)
    (calls more : List (ChartCall F V))
    (h : Along (ChartDirs.step key J K) (fun w c => c.Spared key J K w) ChartDirs.init (calls ++ more)) :
    let w := run (ChartDirs.step key J K) ChartDirs.init calls
    let w' := run (ChartDirs.step key J K) ChartDirs.init (calls ++ more)
    (∀ snapshot snapshot', Loads key J K w snapshot → Loads key J K w' snapshot' →
      snapshot.viewState.revision ≤ snapshot'.viewState.revision ∧
        snapshot.preferences.revision ≤ snapshot'.preferences.revision) ∧
    (∀ faults request klineResult nowMs later result dirs rest snapshot',
      more = .save faults request klineResult nowMs :: later → parseKey request.key.symbol request.key.interval = .ok key →
      ChartWorkspaceService.save J K faults request klineResult nowMs w [] = .ok result dirs rest → Loads key J K w' snapshot' →
      (result.viewStateSaved = true → result.viewRevision ≤ snapshot'.viewState.revision ∧
        ∀ v, request.viewState = some v → snapshot'.viewState.revision = result.viewRevision →
          sameContent (viewPart key) snapshot'.viewState v = true) ∧
      (result.preferencesSaved = true → result.preferencesRevision ≤ snapshot'.preferences.revision ∧
        ∀ v, request.preferences = some v → snapshot'.preferences.revision = result.preferencesRevision →
          sameContent preferencesPart snapshot'.preferences v = true)) ∧
    (∀ faults request klineResult nowMs,
      (∀ d v, foundView key J w = some d → request.viewState = some v →
        (v.revision < d.revision ∨ v.revision = d.revision ∧ sameContent (viewPart key) d v = false) →
        (w.step key J K (.save faults request klineResult nowMs)).view = w.view) ∧
      (∀ d v, foundPreferences K w = some d → request.preferences = some v →
        (v.revision < d.revision ∨ v.revision = d.revision ∧ sameContent preferencesPart d v = false) →
        (w.step key J K (.save faults request klineResult nowMs)).preferences = w.preferences)) := by
  intro w w'
  obtain ⟨hbefore, hafter⟩ := (along_append _ _ _).1 h
  have hw : InOrder key J K w := run_inOrder calls hbefore
  have hw' : w' = run (ChartDirs.step key J K) w more := run_append _ _ _ _
  refine ⟨?_, ?_, fun faults request klineResult nowMs => step_conflict w faults request klineResult nowMs⟩
  · intro snapshot snapshot' hl hl'
    -- both snapshots are what is found in their directories
    have honward := run_onward more w hw hafter
    rw [← hw'] at honward
    rw [hl.eq.1, hl.eq.2, hl'.eq.1, hl'.eq.2]
    exact ⟨honward.view.revision_le, honward.preferences.revision_le⟩
  · intro faults request klineResult nowMs later result dirs rest snapshot' hmore hk hsave hl'
    subst hmore
    -- the save ends in `dirs`, and the run goes on from there
    obtain ⟨hview, hpreferences⟩ := save_acked hk hw hafter.1 hsave
    have hstep : w.step key J K (.save faults request klineResult nowMs) = dirs := by
      rw [ChartDirs.step, if_pos hk, hsave]; rfl
    have horder := (step_onward w _ hw hafter.1).1
    have honward := run_onward later _ horder hafter.2
    rw [← run_cons, ← hw', hstep] at honward
    rw [hl'.eq.1, hl'.eq.2]
    refine ⟨fun hsaved => ?_, fun hsaved => ?_⟩
    · obtain ⟨hle, hsame⟩ := honward.view.acked (hview hsaved)
      exact ⟨hle, fun v hv hr => by simpa [sameContent] using hsame v hv hr⟩
    · obtain ⟨hle, hsame⟩ := honward.preferences.acked (hpreferences hsaved)
      exact ⟨hle, fun v hv hr => by simpa [sameContent] using hsame v hv hr⟩

end Service

/-! ## A run that meets the defect -/

section Runs

variable {P : Type} [DecidableEq P] {S : ChartPart P} {J : StateText P} {m : StateDir} {u v : P} {a : Bytes}

omit [DecidableEq P] in
/-- A first save that is not disturbed. -/
theorem saveValue_first (hm : ∀ n, m.get n = none) :
    ∃ m', saveValue S J v m [] = .ok () m' [] ∧ m'.get .main = some (J.toVecPretty v) ∧ m'.get .backup = none := by
  have hfull : ((m.set .temp []).append .temp (J.toVecPretty v) (J.toVecPretty v).length).get =
      Function.update m.get .temp (some (J.toVecPretty v)) := by rw [get_written, List.take_length]
  have hmain : ((m.set .temp []).append .temp (J.toVecPretty v) (J.toVecPretty v).length).get .main = none := by
    rw [hfull, Function.update_of_ne (by decide), hm]
  have htemp : ((m.set .temp []).append .temp (J.toVecPretty v) (J.toVecPretty v).length).get .temp = some (J.toVecPretty v) := by
    rw [hfull, Function.update_self]
  have hbackup : ((m.set .temp []).append .temp (J.toVecPretty v) (J.toVecPretty v).length).get .backup = none := by
    rw [hfull, Function.update_of_ne (by decide), hm]
  have hnone : ∀ n, (readAs S J (m.get n)).isSome = false := by intro n; rw [hm]; rfl
  refine ⟨((m.set .temp []).append .temp (J.toVecPretty v) (J.toVecPretty v).length).move .temp .main (J.toVecPretty v), ?_, ?_, ?_⟩
  · unfold saveValue
    rw [Io.bind_of_ok (candidateIsValid_run .main m quiet_nil), Io.bind_of_ok (candidateIsValid_run .backup m quiet_nil), hnone,
      hnone]
    show (clearMain false >>= fun _ => renameTempToMainOrRestoreBackup false)
      ((m.set .temp []).append .temp (J.toVecPretty v) (J.toVecPretty v).length) [] = _
    generalize (m.set .temp []).append .temp (J.toVecPretty v) (J.toVecPretty v).length = m₁ at hmain htemp
    simp [clearMain, removeInvalidMainIfPresent, removeIfPresent, renameTempToMainOrRestoreBackup, renameAndSync,
      syncParentDirectory, storageError, remove, rename, sync, look, atomic, Io.call, Io.attempt, Io.mapErr, Io.bind, bind, pure,
      Io.pure, hmain, htemp]
  · rw [Machine.get_move _ _ _ _ _ (by decide)]; rfl
  · rw [Machine.get_move _ _ _ _ _ (by decide)]; exact hbackup

/-- The process dies in the last renaming. -/
def inLastRename : List Fault := List.replicate 9 .pass ++ [.crash 0]

omit [DecidableEq P] in
theorem saveValue_inLastRename (hm : m.get .main = some a) (hu : readAs S J (some a) = some u) (hb : m.get .backup = none) :
    ∃ m', saveValue S J v m inLastRename = .crashed m' ∧ m'.get .main = none ∧ m'.get .temp = some (J.toVecPretty v) ∧
      m'.get .backup = some a := by
  have hfull : ((m.set .temp []).append .temp (J.toVecPretty v) (J.toVecPretty v).length).get =
      Function.update m.get .temp (some (J.toVecPretty v)) := by rw [get_written, List.take_length]
  have hmain : ((m.set .temp []).append .temp (J.toVecPretty v) (J.toVecPretty v).length).get .main = some a := by
    rw [hfull, Function.update_of_ne (by decide), hm]
  have htemp : ((m.set .temp []).append .temp (J.toVecPretty v) (J.toVecPretty v).length).get .temp = some (J.toVecPretty v) := by
    rw [hfull, Function.update_self]
  have hbackup : ((m.set .temp []).append .temp (J.toVecPretty v) (J.toVecPretty v).length).get .backup = none := by
    rw [hfull, Function.update_of_ne (by decide), hb]
  refine ⟨((m.set .temp []).append .temp (J.toVecPretty v) (J.toVecPretty v).length).move .main .backup a, ?_, ?_, ?_, ?_⟩
  · unfold saveValue inLastRename
    have hread : (readAs S J (m.get .main)).isSome = true := by rw [hm, hu]; rfl
    have hnone : (readAs S J (m.get .backup)).isSome = false := by rw [hb]; rfl
    rw [show List.replicate 9 Fault.pass ++ [.crash 0] = .pass :: .pass :: (List.replicate 7 .pass ++ [.crash 0]) from rfl,
      Io.bind_of_ok (candidateIsValid_run .main m (quiet_pass _)), Io.bind_of_ok (candidateIsValid_run .backup m (quiet_pass _)),
      hread, hnone]
    show (clearMain true >>= fun _ => renameTempToMainOrRestoreBackup true)
      ((m.set .temp []).append .temp (J.toVecPretty v) (J.toVecPretty v).length) [.pass, .pass, .pass, .crash 0] = _
    generalize (m.set .temp []).append .temp (J.toVecPretty v) (J.toVecPretty v).length = m₁ at hmain htemp hbackup
    simp [clearMain, removeOldBackupIfPresent, removeIfPresent, renameTempToMainOrRestoreBackup, renameAndSync,
      syncParentDirectory, storageError, remove, rename, sync, look, atomic, Io.call, Io.attempt, Io.mapErr, Io.bind, bind, pure,
      Io.pure, hmain, hbackup]
  · rw [Machine.get_move _ _ _ _ _ (by decide)]; rfl
  · rw [Machine.get_move _ _ _ _ _ (by decide)]; exact htemp
  · rw [Machine.get_move _ _ _ _ _ (by decide)]; rfl

omit [DecidableEq P] in
theorem saveValue_inOpen (v : P) : saveValue S J v m [.pass, .pass, .pass, .crash 1] = .crashed (m.set .temp []) := by
  unfold saveValue
  rw [Io.bind_of_ok (candidateIsValid_run .main m (quiet_pass _)), Io.bind_of_ok (candidateIsValid_run .backup m (quiet_pass _))]
  rfl

end Runs

namespace ChartSample

def key : ChartWorkspaceKey := ⟨"BTCUSDT", "1"⟩

abbrev View := ChartViewStateV1 ℕ ℕ

def view (revision : ℕ) : View := { defaultViewState key with revision := revision }

def request (revision : ℕ) : SaveChartWorkspaceRequest ℕ ℕ := ⟨key, some (view revision), none⟩

def saves (revision : ℕ) (fs : List Fault) : ChartCall ℕ ℕ := .save ⟨fs, []⟩ (request revision) (.ok false) 0

theorem key_ok : parseKey key.symbol key.interval = .ok key := by decide +kernel

theorem view_ok (revision : ℕ) : (viewPart key).validate (view revision) = .ok () := rfl

/-- The text of a view of this revision. -/
def viewText (revision : String) : Bytes :=
  ("\n".intercalate ["\x7b", "  \"schemaVersion\": 1,", "  \"symbol\": \"BTCUSDT\",", "  \"interval\": \"1\",",
    "  \"revision\": " ++ revision ++ ",", "  \"savedAtMs\": 0,", "  \"overlays\": [],", "  \"viewport\": \x7b\x7d",
    "\x7d"]).toUTF8.data.toList

/-- The views that are saved here, and their texts. -/
def J : StateText View :=
  let T : Texts View := .ofTable [(view 1, viewText "1"), (view 2, viewText "2"), (view 3, viewText "3")] (by decide +kernel)
  { toVecPretty := T.encode, fromSlice := T.decode, fromSlice_torn := T.decode_torn }

/-- No preferences are saved. -/
def K : StateText ChartPreferencesV1 :=
  let T : Texts ChartPreferencesV1 := .ofTable [] (by decide)
  { toVecPretty := T.encode, fromSlice := T.decode, fromSlice_torn := T.decode_torn }

theorem texts_read {revision : ℕ} (h : revision = 1 ∨ revision = 2) :
    J.fromSlice (J.toVecPretty (view revision)) = some (view revision) := by
  rcases h with rfl | rfl
  · decide +kernel
  · decide +kernel

/-- A view whose text is in a file. -/
theorem readAs_view {revision : ℕ} (h : revision = 1 ∨ revision = 2) :
    readAs (viewPart key) J (some (J.toVecPretty (view revision))) = some (view revision) :=
  readAs_text (texts_read h) (view_ok revision)

/-- A save of a view that is not answered at once runs the store's save. -/
theorem savePart_view {m : StateDir} {revision : ℕ} {fs : List Fault}
    (ha : answered (viewPart key) (found (viewPart key) J m.get) (view revision) = none) :
    savePart (viewPart key) J fs (some (view revision)) 0 m [] =
      match saveValue (viewPart key) J (view revision) m fs with
      | .ok _ m' _ => .ok (.success revision 0 true) m' []
      | .err e m' _ => .ok (.failed (((found (viewPart key) J m.get).map fun d => d.revision).getD 0)
          (((found (viewPart key) J m.get).map fun d => d.savedAtMs).getD 0) e.userMessage) m' []
      | .crashed m' => .crashed m' := by
  rw [savePart_eq]
  dsimp only
  rw [ha]
  rfl

/-- A save of a view alone that the process survives. -/
theorem step_ok {w : ChartDirs} {revision : ℕ} {fs : List Fault} {r : PartSaveResult} {m : StateDir}
    (h : savePart (viewPart key) J fs (some (view revision)) 0 w.view [] = .ok r m []) :
    ∃ result, ChartWorkspaceService.save J K ⟨fs, []⟩ (request revision) (.ok false) 0 w [] = .ok result { w with view := m } [] ∧
      result.viewStateSaved = r.saved ∧ result.viewRevision = r.revision := by
  have hpref : savePart preferencesPart K [] none 0 w.preferences [] = .ok _ w.preferences [] := savePart_eq w.preferences
  rcases save_run (J := J) (K := K) w ⟨fs, []⟩ (request revision) (.ok false) 0 key_ok with
    ⟨e, he, -⟩ | ⟨-, ⟨m', hm', -⟩ | ⟨r', m', hm', ⟨p, hp, -⟩ | ⟨q, p, result, hp, he, h1, h2, -⟩⟩⟩
  · cases he
  · rw [show (request revision).viewState = some (view revision) from rfl, h] at hm'; cases hm'
  · rw [show (request revision).preferences = none from rfl, hpref] at hp; cases hp
  · rw [show (request revision).viewState = some (view revision) from rfl, h] at hm'
    cases hm'
    rw [show (request revision).preferences = none from rfl, hpref] at hp
    cases hp
    exact ⟨result, he, h1, h2⟩

theorem step_eq (w : ChartDirs) (revision : ℕ) (fs : List Fault) : w.step key J K (saves revision fs) =
    (ChartWorkspaceService.save J K ⟨fs, []⟩ (request revision) (.ok false) 0 w []).state := by
  unfold saves
  rw [ChartDirs.step]
  exact if_pos key_ok

theorem step_crashed {w : ChartDirs} {revision : ℕ} {fs : List Fault} {m : StateDir}
    (h : savePart (viewPart key) J fs (some (view revision)) 0 w.view [] = .crashed m) :
    w.step key J K (saves revision fs) = { w with view := m } := by
  rw [step_eq]
  rcases save_run (J := J) (K := K) w ⟨fs, []⟩ (request revision) (.ok false) 0 key_ok with
    ⟨e, he, -⟩ | ⟨-, ⟨m', hm', he⟩ | ⟨r', m', hm', -⟩⟩
  · cases he
  · rw [show (request revision).viewState = some (view revision) from rfl, h] at hm'
    cases hm'
    rw [he]; rfl
  · rw [show (request revision).viewState = some (view revision) from rfl, h] at hm'; cases hm'

/-- A view is saved; the save of the next one dies in its last renaming; it is asked for
again and acknowledged. -/
def calls : List (ChartCall ℕ ℕ) := [saves 1 [], saves 2 inLastRename, saves 2 []]

/-- A third view, whose save dies when it has opened the temporary file. -/
def last : ChartCall ℕ ℕ := saves 3 [.pass, .pass, .pass, .crash 1]

/-- The states of the run. -/
theorem states : ∃ m₁ m₂ : StateDir,
    ChartDirs.init.step key J K (saves 1 []) = ⟨m₁, ⟨∅, []⟩⟩ ∧ m₁.get .main = some (J.toVecPretty (view 1)) ∧
    (⟨m₁, ⟨∅, []⟩⟩ : ChartDirs).step key J K (saves 2 inLastRename) = ⟨m₂, ⟨∅, []⟩⟩ ∧ m₂.get .main = none ∧
    m₂.get .temp = some (J.toVecPretty (view 2)) ∧ m₂.get .backup = some (J.toVecPretty (view 1)) := by
  obtain ⟨m₁, h₁, hm₁, hb₁⟩ := saveValue_first (S := viewPart key) (J := J) (m := ChartDirs.init.view) (v := view 1) fun n => rfl
  obtain ⟨m₂, h₂, hm₂, ht₂, hb₂⟩ := saveValue_inLastRename (S := viewPart key) (J := J) (v := view 2) hm₁ (readAs_view (.inl rfl)) hb₁
  refine ⟨m₁, m₂, ?_, hm₁, ?_, hm₂, ht₂, hb₂⟩
  · have hpart : savePart (viewPart key) J [] (some (view 1)) 0 ChartDirs.init.view [] = .ok (.success 1 0 true) m₁ [] := by
      rw [savePart_view rfl, h₁]
    obtain ⟨result, hr, -⟩ := step_ok hpart
    rw [step_eq, hr]; rfl
  · have hfound : found (viewPart key) J m₁.get = some (view 1) := found_of_main (hm₁ ▸ readAs_view (.inl rfl))
    have hpart : savePart (viewPart key) J inLastRename (some (view 2)) 0 m₁ [] = .crashed m₂ := by
      rw [savePart_view (by rw [hfound]; rfl), h₂]
    exact step_crashed hpart

/-- What is found in the two states, and the answer to the request that is repeated. -/
theorem repeated {m : StateDir} (hm : m.get .main = none) (ht : m.get .temp = some (J.toVecPretty (view 2))) :
    found (viewPart key) J m.get = some (view 2) ∧
      savePart (viewPart key) J [] (some (view 2)) 0 m [] = .ok (.success 2 0 false) m [] := by
  have hfound : found (viewPart key) J m.get = some (view 2) := found_of_temp hm (ht ▸ readAs_view (.inr rfl))
  refine ⟨hfound, ?_⟩
  rw [savePart_eq]
  dsimp only
  rw [hfound]
  rfl

/-- The view is acknowledged with revision 2, and a later load finds revision 1. -/
theorem acknowledged_then_lost :
    ∃ result dirs snapshot, ChartWorkspaceService.save J K ⟨[], []⟩ (request 2) (.ok false) 0
        (run (ChartDirs.step key J K) ChartDirs.init (calls.take 2)) [] = .ok result dirs [] ∧
      result.viewStateSaved = true ∧ result.viewRevision = 2 ∧
      Loads key J K (run (ChartDirs.step key J K) ChartDirs.init (calls ++ [last])) snapshot ∧
      snapshot.viewState.revision = 1 := by
  obtain ⟨m₁, m₂, h₁, hm₁, h₂, hm₂, ht₂, hb₂⟩ := states
  obtain ⟨hfound, hpart⟩ := repeated hm₂ ht₂
  have hw : run (ChartDirs.step key J K) ChartDirs.init (calls.take 2) = ⟨m₂, ⟨∅, []⟩⟩ := by
    show run _ _ [saves 1 [], saves 2 inLastRename] = _
    rw [run_cons, h₁, run_cons, h₂, run_nil]
  obtain ⟨result, hr, hsaved, hrev⟩ := step_ok (w := ⟨m₂, ⟨∅, []⟩⟩) hpart
  -- the last save empties the temporary file
  have hlast : (⟨m₂, ⟨∅, []⟩⟩ : ChartDirs).step key J K last = ⟨m₂.set .temp [], ⟨∅, []⟩⟩ := by
    refine step_crashed ?_
    rw [savePart_view (by rw [hfound]; rfl), saveValue_inOpen]
  have hend : run (ChartDirs.step key J K) ChartDirs.init (calls ++ [last]) = ⟨m₂.set .temp [], ⟨∅, []⟩⟩ := by
    show run _ _ [saves 1 [], saves 2 inLastRename, saves 2 [], last] = _
    rw [run_cons, h₁, run_cons, h₂, run_cons, step_eq, hr, run_cons]
    show run _ (ChartDirs.step key J K ⟨m₂, ⟨∅, []⟩⟩ last) [] = _
    rw [hlast, run_nil]
  have hempty : J.fromSlice [] = none := by decide +kernel
  have hview : foundView key J ⟨m₂.set .temp [], ⟨∅, []⟩⟩ = some (view 1) := by
    have hmain : (m₂.set .temp []).get .main = none := by rw [Machine.get_set_ne m₂ [] (by decide), hm₂]
    have htemp : readAs (viewPart key) J ((m₂.set .temp []).get .temp) = none := by
      rw [Machine.get_set_self]
      simp [readAs, hempty]
    show found (viewPart key) J (m₂.set .temp []).get = _
    rw [found_of_backup hmain htemp, Machine.get_set_ne m₂ [] (by decide), hb₂]
    exact readAs_view (.inl rfl)
  rw [hw, hend]
  have hload : ChartWorkspaceService.load J K key none none none (fun _ _ _ => .ok []) ⟨m₂.set .temp [], ⟨∅, []⟩⟩ [] =
      .ok ⟨key, [], (foundView key J ⟨m₂.set .temp [], ⟨∅, []⟩⟩).getD (defaultViewState key),
        (foundPreferences K ⟨m₂.set .temp [], ⟨∅, []⟩⟩).getD defaultPreferences⟩ ⟨m₂.set .temp [], ⟨∅, []⟩⟩ [] :=
    load_of_ok _ key_ok (by simp [ensure]) rfl
  refine ⟨result, _, _, hr, hsaved, hrev, ⟨key, none, none, none, _, _, _, key_ok, hload⟩, ?_⟩
  show ((foundView key J ⟨m₂.set .temp [], ⟨∅, []⟩⟩).getD (defaultViewState key)).revision = 1
  rw [hview]; rfl

/-- The first three calls. -/
theorem chart_saves_survive_sample :
    ∃ result dirs, ChartWorkspaceService.save J K ⟨[], []⟩ (request 2) (.ok false) 0
        (run (ChartDirs.step key J K) ChartDirs.init (calls.take 2)) [] = .ok result dirs [] ∧
      result.viewStateSaved = true ∧
      ∀ snapshot, Loads key J K (run (ChartDirs.step key J K) ChartDirs.init calls) snapshot →
        result.viewRevision ≤ snapshot.viewState.revision := by
  obtain ⟨m₁, m₂, h₁, hm₁, h₂, hm₂, ht₂, hb₂⟩ := states
  obtain ⟨hfound, hpart⟩ := repeated hm₂ ht₂
  have hw : run (ChartDirs.step key J K) ChartDirs.init (calls.take 2) = ⟨m₂, ⟨∅, []⟩⟩ := by
    show run _ _ [saves 1 [], saves 2 inLastRename] = _
    rw [run_cons, h₁, run_cons, h₂, run_nil]
  obtain ⟨result, hr, hsaved, hrev⟩ := step_ok (w := ⟨m₂, ⟨∅, []⟩⟩) hpart
  have halong : Along (ChartDirs.step key J K) (fun w c => c.Spared key J K w) ChartDirs.init (calls.take 2 ++ [saves 2 []]) := by
    show Along _ _ _ [saves 1 [], saves 2 inLastRename, saves 2 []]
    refine ⟨fun _ _ => ⟨?_, fun v hv => by cases hv⟩, ?_, ?_, trivial⟩
    · rintro v ⟨⟩ -
      exact ⟨fun _ h => (by cases h), fun _ h => (by cases h), texts_read (.inl rfl)⟩
    · rw [h₁]
      refine fun _ _ => ⟨?_, fun v hv => by cases hv⟩
      rintro v ⟨⟩ -
      refine ⟨fun h => ?_, fun h => ?_, texts_read (.inr rfl)⟩
      · rw [hm₁] at h; cases h
      · rw [hm₁] at h; cases h
    · rw [h₁, h₂]
      refine fun _ _ => ⟨?_, fun v hv => by cases hv⟩
      rintro v ⟨⟩ ha
      rw [hfound] at ha
      cases ha
  obtain ⟨-, hack, -⟩ := chart_saves_survive key J K (calls.take 2) [saves 2 []] halong
  rw [hw] at hack ⊢
  refine ⟨result, _, hr, hsaved, fun snapshot hl => ?_⟩
  exact ((hack ⟨[], []⟩ (request 2) (.ok false) 0 [] result _ [] snapshot rfl key_ok hr hl).1 hsaved).1

end ChartSample

end EasiFlux.Chart
