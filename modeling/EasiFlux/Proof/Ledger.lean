import Mathlib.Tactic.DeriveCountable
import EasiFlux.Model.Risk

/-!
# The daily count is exact

* `wp_save`: a save of the ledger is done, or leaves the old ledger, or leaves the
  new one in the temporary file to be taken up in its place.
* `daily_ledger`: on every run with a fixed configuration whose days never go
  back, the count in memory is the number of outstanding reservations, up to the
  saves that failed half way before a start.
-/

namespace EasiFlux

open CrashIo Results Steps

namespace RiskUsageStore

variable {C : UsageCodec}

section Rules

variable {ε : Type} {E : ε → RiskDir → Prop} {D : RiskDir → Prop} {m : RiskDir}

theorem wp_exists? {name : RiskFile} {Q : Bool → RiskDir → Prop} (hy : (m.get name).isSome → Q true m)
    (hn : Q false m) (hD : D m) : wp (exists? name : Io RiskDir ε Bool) Q E D m := by
  unfold exists?
  refine wp_bind (wp_attempt.2 (wp_stat ?_ (fun _ => ?_) ?_ hD))
  · intro h; exact wp_pure.2 (hy h)
  · exact wp_pure.2 hn
  · exact wp_pure.2 hn

end Rules

/-- The ledger `u` is in the main file. -/
def Saved (C : UsageCodec) (u : RiskUsage) (m : RiskDir) : Prop :=
  ∃ b, C.encode u = some b ∧ m.get .main = some b

/-- What a save of `u` that did not go through leaves of the files `m`: the main
file as it was; no file touched; or the text of `u`, cut short or not, in the
temporary file and no main file. -/
inductive Left (C : UsageCodec) (u : RiskUsage) (m m' : RiskDir) : Prop
  | main (b : Bytes) (was : m.get .main = some b) (is : m'.get .main = some b)
  | same (files : m'.get = m.get)
  | temp (b : Bytes) (k : ℕ) (text : C.encode u = some b) (main : m'.get .main = none)
      (tmp : m'.get .tmp = some (b.take k))

variable {u : RiskUsage} {m : RiskDir} {b : Bytes}

/-- The temporary file is written: whatever happens to the main file before it is
replaced, nothing is lost. -/
theorem Left.of_tmp {m' : RiskDir} (hb : C.encode u = some b) (ht : m'.get .tmp = some b)
    (hm : m'.get .main = m.get .main) : Left C u m m' := by
  cases hg : m.get .main with
  | none => exact .temp b b.length hb (hm.trans hg) (by rw [ht, List.take_length])
  | some c => exact .main c hg (hm.trans hg)

theorem Left.of_rotated {m' : RiskDir} (hb : C.encode u = some b) (ht : m'.get .tmp = some b)
    (hm : m'.get .main = none) : Left C u m m' :=
  .temp b b.length hb hm (by rw [ht, List.take_length])

theorem wp_removeBackup {Q : Unit → RiskDir → Prop} {E : AppError → RiskDir → Prop} {D : RiskDir → Prop}
    (hQ : ∀ m', m'.get .main = m.get .main → m'.get .tmp = m.get .tmp → Q () m')
    (hE : ∀ e, E e m) (hD : ∀ m', m'.get .main = m.get .main → m'.get .tmp = m.get .tmp → D m') :
    wp removeBackup Q E D m := by
  unfold removeBackup
  refine wp_bind (wp_exists? (fun _ => ?_) ?_ (hD m rfl rfl))
  · refine wp_mapErr.2 (wp_remove ?_ (fun _ => hE _) (hE _) (hD m rfl rfl))
    intro _
    have h1 : (m.unlink .bak).get .main = m.get .main := Machine.get_unlink_ne m (by decide)
    have h2 : (m.unlink .bak).get .tmp = m.get .tmp := Machine.get_unlink_ne m (by decide)
    exact ⟨hQ _ h1 h2, hD _ h1 h2⟩
  · exact wp_pure.2 (hQ m rfl rfl)

theorem wp_rotateMain {Q : Bool → RiskDir → Prop} {E : AppError → RiskDir → Prop} {D : RiskDir → Prop}
    (hr : ∀ c m', m.get .main = some c → m'.get .main = none → m'.get .bak = some c → m'.get .tmp = m.get .tmp →
      Q true m' ∧ D m')
    (hQ : Q false m) (hE : ∀ e, E e m) (hD : D m) : wp rotateMain Q E D m := by
  unfold rotateMain
  refine wp_bind (wp_exists? (fun h => ?_) (wp_pure.2 hQ) hD)
  refine wp_bind (wp_mapErr.2 (wp_rename ?_ (fun _ => hE _) (hE _) hD))
  intro c hc
  have h1 : (m.move .main .bak c).get .main = none := by rw [Machine.get_move _ _ _ _ _ (by decide)]; rfl
  have h2 : (m.move .main .bak c).get .bak = some c := by rw [Machine.get_move _ _ _ _ _ (by decide)]; rfl
  have h3 : (m.move .main .bak c).get .tmp = m.get .tmp := by rw [Machine.get_move _ _ _ _ _ (by decide)]; rfl
  obtain ⟨hq, hd⟩ := hr c _ hc h1 h2 h3
  exact ⟨wp_pure.2 hq, hd⟩

/-- The restore: the old main file is back, or nothing happened. -/
theorem wp_restoreMain {hadMain : Bool} {Q : Unit → RiskDir → Prop} {E : AppError → RiskDir → Prop}
    {D : RiskDir → Prop} (hs : Q () m) (hD : D m)
    (hr : hadMain = true → ∀ c m', m.get .bak = some c → m'.get .main = some c → Q () m' ∧ D m') :
    wp (restoreMain hadMain) Q E D m := by
  unfold restoreMain
  split
  · rename_i hh
    refine wp_bind (wp_exists? (fun h => ?_) (wp_pure.2 hs) hD)
    refine wp_ignore.2 (wp_rename ?_ (fun _ => hs) hs hD)
    intro c hc
    exact hr hh c _ hc (by rw [Machine.get_move _ _ _ _ _ (by decide)]; rfl)
  · exact wp_pure.2 hs

/-- The last part of `replaceMain`. -/
def installTmp (hadMain : Bool) : Io RiskDir AppError Unit := do
  match ← Io.attempt (rename .tmp .main) with
  | .ok () => pure ()
  | .error _ => do
    restoreMain hadMain
    Io.throw (.storage "io")

/-- The replacement itself, from files whose temporary one holds `u`. -/
theorem wp_installTmp (hb : C.encode u = some b) (ht : m.get .tmp = some b) {m₀ : RiskDir} (hl : Left C u m₀ m) {hadMain : Bool}
    (hback : hadMain = true → ∀ c, m.get .bak = some c → m₀.get .main = some c) :
    wp (installTmp hadMain) (fun _ m' => Saved C u m') (fun _ m' => Left C u m₀ m')
      (fun m' => Left C u m₀ m' ∨ Saved C u m') m := by
  have hrestore : wp (restoreMain hadMain >>= fun _ => Io.throw (AppError.storage "io"))
      (fun (_ : Unit) m' => Saved C u m') (fun _ m' => Left C u m₀ m') (fun m' => Left C u m₀ m' ∨ Saved C u m') m := by
    refine wp_bind (wp_restoreMain (wp_throw.2 hl) (.inl hl) ?_)
    intro hh c m' hc hm'
    have : Left C u m₀ m' := .main c (hback hh c hc) hm'
    exact ⟨wp_throw.2 this, .inl this⟩
  refine wp_bind (wp_attempt.2 (wp_rename ?_ (fun _ => hrestore) hrestore (.inl hl)))
  intro c hc
  have hs : Saved C u (m.move .tmp .main c) := by
    refine ⟨b, hb, ?_⟩
    rw [Machine.get_move _ _ _ _ _ (by decide), if_pos rfl, ← hc, ht]
  exact ⟨wp_pure.2 hs, .inr hs⟩

/-- The temporary file holds `u` and the main file is put aside, or was missing. -/
theorem wp_replaceMain (hb : C.encode u = some b) (ht : m.get .tmp = some b) {m₀ : RiskDir}
    (hm : m.get .main = m₀.get .main) :
    wp replaceMain (fun _ m' => Saved C u m') (fun _ m' => Left C u m₀ m')
      (fun m' => Left C u m₀ m' ∨ Saved C u m') m := by
  have hleft : ∀ m', m'.get .main = m.get .main → m'.get .tmp = m.get .tmp → Left C u m₀ m' :=
    fun m' h1 h2 => .of_tmp hb (h2.trans ht) (h1.trans hm)
  unfold replaceMain
  refine wp_bind (wp_removeBackup (fun m₁ h1 t1 => ?_) (fun _ => hleft m rfl rfl)
    (fun m₁ h1 t1 => .inl (hleft m₁ h1 t1)))
  refine wp_bind (wp_rotateMain ?_ ?_ (fun _ => hleft m₁ h1 t1) (.inl (hleft m₁ h1 t1)))
  · intro c m₂ hc hm₂ hbak htmp
    have hl : Left C u m₀ m₂ := .of_rotated hb (htmp.trans (t1.trans ht)) hm₂
    refine ⟨wp_installTmp hb (htmp.trans (t1.trans ht)) hl fun _ c' hc' => ?_, .inl hl⟩
    rw [hbak] at hc'
    rw [← hm, ← h1, hc, hc']
  · exact wp_installTmp hb (t1.trans ht) (hleft m₁ h1 t1) (fun h => by cases h)

/-- **A save is done, or leaves the old ledger, or leaves the new one to be taken
up in its place.** -/
theorem wp_save (u : RiskUsage) (m : RiskDir) :
    wp (save C u) (fun _ m' => Saved C u m') (fun _ m' => Left C u m m')
      (fun m' => Left C u m m' ∨ Saved C u m') m := by
  have hsame : Left C u m m := .same rfl
  unfold save
  refine wp_bind (wp_mapErr.2 (wp_sync ?_ hsame (.inl hsame)))
  refine wp_bind (wp_lift (fun b hb => ?_) (fun _ _ => hsame))
  rw [okOr_eq_ok] at hb
  -- writing the temporary file leaves the main one alone
  have htorn : ∀ (k : ℕ) (m' : RiskDir), m'.get .main = m.get .main → m'.get .tmp = some (b.take k) → Left C u m m' := by
    intro k m' h1 h2
    cases hg : m.get .main with
    | none => exact .temp b k hb (h1.trans hg) h2
    | some c => exact .main c hg (h1.trans hg)
  have h0 : (m.set .tmp []).get .main = m.get .main := Machine.get_set_ne m [] (by decide)
  have ht0 : (m.set .tmp []).get .tmp = some [] := Machine.get_set_self m .tmp []
  have hw : ∀ k, ((m.set .tmp []).append .tmp b k).get .main = m.get .main ∧
      ((m.set .tmp []).append .tmp b k).get .tmp = some (b.take k) := by
    intro k
    rw [Machine.get_append_eq _ _ _ _ _ ht0]
    exact ⟨h0, by simp⟩
  refine wp_bind (wp_mapErr.2 (wp_openTruncate ?_ hsame (.inl hsame) (.inl (htorn 0 _ h0 ht0))))
  refine wp_bind (wp_mapErr.2 (wp_writeAll ?_ (fun k => htorn k _ (hw k).1 (hw k).2)
    (fun k => .inl (htorn k _ (hw k).1 (hw k).2))))
  obtain ⟨hwm, hwt⟩ := hw b.length
  rw [List.take_length] at hwt
  refine wp_bind (wp_mapErr.2 (wp_sync ?_ (.of_tmp hb hwt hwm) (.inl (.of_tmp hb hwt hwm))))
  exact wp_replaceMain hb hwt hwm

/-! ## Saves on fixed scripts -/

theorem storageError_of_ok {α : Type} {call : Io RiskDir IoErr α} {fs rest : List Fault} {a : α} {m' : RiskDir}
    (h : call m fs = .ok a m' rest) : storageError call m fs = .ok a m' rest :=
  Io.mapErr_of_ok h

theorem exists?_run {ε : Type} (n : RiskFile) (m : RiskDir) :
    (exists? n : Io RiskDir ε Bool) m [] = .ok (m.get n).isSome m [] := by
  cases h : m.get n <;> simp [exists?, stat, look, Io.call, Io.attempt, Io.pure, Io.bind, bind, pure, h]

theorem removeBackup_run (m : RiskDir) :
    ∃ f, removeBackup m [] = .ok () f [] ∧ f.get .main = m.get .main ∧ f.get .tmp = m.get .tmp ∧ f.get .bak = none := by
  unfold removeBackup
  rw [Io.bind_of_ok (exists?_run _ m)]
  cases h : (m.get .bak).isSome with
  | true =>
    exact ⟨_, storageError_of_ok (remove_run h), Machine.get_unlink_ne m (by decide), Machine.get_unlink_ne m (by decide),
      Machine.get_unlink_self m .bak⟩
  | false => exact ⟨m, rfl, rfl, rfl, by simpa using h⟩

theorem rotateMain_run (m : RiskDir) :
    ∃ f, rotateMain m [] = .ok (m.get .main).isSome f [] ∧ f.get .tmp = m.get .tmp ∧
      (m.get .main = none → f.get .bak = m.get .bak) := by
  unfold rotateMain
  rw [Io.bind_of_ok (exists?_run _ m)]
  cases h : m.get .main with
  | some c =>
    refine ⟨m.move .main .bak c, Io.bind_of_ok (storageError_of_ok (rename_run h)), ?_, fun hn => by cases hn⟩
    rw [Machine.get_move _ _ _ _ _ (by decide)]; rfl
  | none => exact ⟨m, rfl, rfl, fun _ => rfl⟩

/-- A save whose calls go through. -/
theorem save_run {b : Bytes} (hb : C.encode u = some b) (m : RiskDir) :
    ∃ f, save C u m [] = .ok () f [] ∧ f.get .main = some b ∧ (m.get .main = none → f.get .bak = none) := by
  have ht : ((m.set .tmp []).append .tmp b b.length).get .tmp = some b := by
    rw [Machine.get_append_eq _ _ _ _ _ (Machine.get_set_self m .tmp [])]
    simp
  have hmain : ((m.set .tmp []).append .tmp b b.length).get .main = m.get .main := by
    rw [Machine.get_append_eq _ _ _ _ _ (Machine.get_set_self m .tmp []), Function.update_of_ne (by decide),
      Machine.get_set_ne m [] (by decide)]
  obtain ⟨m₁, h₁, e₁, t₁, b₁⟩ := removeBackup_run ((m.set .tmp []).append .tmp b b.length)
  obtain ⟨m₂, h₂, t₂, b₂⟩ := rotateMain_run m₁
  have ht₂ : m₂.get .tmp = some b := by rw [t₂, t₁, ht]
  refine ⟨m₂.move .tmp .main b, ?_, ?_, fun hn => ?_⟩
  rotate_left
  · rw [Machine.get_move _ _ _ _ _ (by decide)]; rfl
  · rw [Machine.get_move _ _ _ _ _ (by decide)]
    exact (b₂ (by rw [e₁, hmain, hn])).trans b₁
  unfold save
  rw [Io.bind_of_ok (storageError_of_ok sync_run), Io.bind_of_ok (Io.lift_of_ok (okOr_eq_ok.2 hb)),
    Io.bind_of_ok (storageError_of_ok (openTruncate_run _)), Io.bind_of_ok (storageError_of_ok (writeAll_run _ _)),
    Io.bind_of_ok (storageError_of_ok sync_run)]
  unfold replaceMain
  rw [Io.bind_of_ok h₁, Io.bind_of_ok h₂, Io.bind_of_ok (Io.attempt_of_ok (rename_run ht₂))]
  rfl

/-- Every call goes through up to the replacement, which fails, as does putting the old
file back. -/
def halfway : List Fault := List.replicate 7 .pass ++ [.fail 0, .pass, .fail 0]

theorem save_halfway {b c : Bytes} (hb : C.encode u = some b) (hm : m.get .main = some c) (hbak : m.get .bak = none) :
    ∃ f, save C u m halfway = .err (.storage "io") f [] ∧ f.get .main = none ∧ f.get .tmp = some b := by
  have hne : ∀ x, ((m.set .tmp []).append .tmp b b.length).get x = if x = .tmp then some b else m.get x := by
    intro x
    rw [Machine.get_append_eq _ _ _ _ _ (Machine.get_set_self m .tmp []), Machine.get_set_eq]
    by_cases hx : x = .tmp <;> simp [hx]
  refine ⟨((m.set .tmp []).append .tmp b b.length).move .main .bak c, ?_, ?_, ?_⟩
  · simp [save, replaceMain, removeBackup, rotateMain, restoreMain, storageError, exists?, halfway, sync, look, openTruncate,
      writeAll, atomic, rename, stat, Io.call, Io.attempt, Io.ignore, Io.mapErr, Io.lift, Io.throw, Io.pure, Io.bind, bind, pure,
      hb, hm, hbak, okOr, List.replicate, hne, Machine.get_move]
  · rw [Machine.get_move _ _ _ _ _ (by decide)]; rfl
  · rw [Machine.get_move _ _ _ _ _ (by decide), hne]; rfl

end RiskUsageStore

open RiskUsageStore

namespace RiskService

variable {C : UsageCodec} {m m' : RiskDir} {u : RiskUsage} {mem x : Option RiskUsage} {T T' : RiskUsage → Prop}

/-- The text of a file, read as a ledger. -/
def readText (C : UsageCodec) (b : Bytes) : AppResult (Option RiskUsage) :=
  match C.decode b with
  | some u => .ok (some u)
  | none => .error (.storage "无法读取风控用量账本")

theorem loadUsage_eq (m : RiskDir) :
    loadUsage C m = match m.get .main, m.get .tmp, m.get .bak with
      | some b, _, _ => readText C b
      | none, some b, _ => readText C b
      | none, none, some _ => .error (.storage "风控用量主账本缺失，且仅存在无法确认时效的备份")
      | none, none, none => .ok none := by
  have hread : ∀ n b, m.get n = some b → CrashIo.read n m [] = .ok b m [] := by
    intro n b h; simp [CrashIo.read, look, Io.call, h]
  unfold loadUsage load readText
  cases h1 : m.get .main with
  | some b =>
    rw [Io.bind_of_ok (exists?_run _ m), h1]
    cases hd : C.decode b <;>
      simp [readUsage, RiskUsageStore.storageError, Io.mapErr, Io.bind, bind, pure, Io.pure, Io.lift, Io.throw, hread _ _ h1, hd, okOr]
  | none =>
    rw [Io.bind_of_ok (exists?_run _ m), h1]
    simp only [Option.isSome_none, Bool.false_eq_true, if_false]
    rw [Io.bind_of_ok (exists?_run _ m)]
    cases h2 : m.get .tmp with
    | some b =>
      cases hd : C.decode b <;>
        simp [readUsage, RiskUsageStore.storageError, Io.mapErr, Io.bind, bind, pure, Io.pure, Io.lift, Io.throw, hread _ _ h2, hd, okOr]
    | none =>
      simp only [Option.isSome_none, Bool.false_eq_true, if_false]
      rw [Io.bind_of_ok (exists?_run _ m)]
      cases h3 : m.get .bak <;> rfl

theorem loadUsage_main {b : Bytes} (h : m.get .main = some b) : loadUsage C m = readText C b := by
  rw [loadUsage_eq, h]

theorem loadUsage_tmp {b : Bytes} (h : m.get .main = none) (ht : m.get .tmp = some b) :
    loadUsage C m = readText C b := by
  rw [loadUsage_eq, h, ht]

theorem loadUsage_empty (h : ∀ n, m.get n = none) : loadUsage C m = .ok none := by
  rw [loadUsage_eq, h, h, h]

theorem readText_eq_ok {b : Bytes} : readText C b = .ok x ↔ ∃ u, C.decode b = some u ∧ x = some u := by
  unfold readText
  cases C.decode b <;> simp [eq_comm]

/-- The files when `mem` is the ledger in memory: the main file holds it, or there
is no file yet, or the main file is missing and the temporary one holds what `T`
allows, if it can be read at all. -/
inductive FilesOk (C : UsageCodec) (m : RiskDir) (mem : Option RiskUsage) (T : RiskUsage → Prop) : Prop
  | main (b : Bytes) (u : RiskUsage) (file : m.get .main = some b) (text : C.decode b = some u) (known : mem = some u)
  | empty (files : ∀ n, m.get n = none) (known : mem = none)
  | temp (b : Bytes) (main : m.get .main = none) (tmp : m.get .tmp = some b)
      (text : ∀ t, C.decode b = some t → T t)

theorem FilesOk.saved (h : Saved C u m) : FilesOk C m (some u) T := by
  obtain ⟨b, hb, hm⟩ := h
  exact .main b u hm (C.decode_encode u b hb) rfl

theorem FilesOk.mono (h : FilesOk C m mem T) (hT : ∀ t, T t → T' t) : FilesOk C m mem T' := by
  cases h with
  | main b u file text known => exact .main b u file text known
  | empty files known => exact .empty files known
  | temp b main tmp text => exact .temp b main tmp fun t ht => hT t (text t ht)

theorem FilesOk.left (h : FilesOk C m mem T) (hl : Left C u m m') (hT : ∀ t, T t → T' t)
    (hu : ∀ ms, T' { u with updatedAtMs := ms }) : FilesOk C m' mem T' := by
  cases hl with
  | main b was is =>
    cases h with
    | main c v file text known =>
      rw [was, Option.some.injEq] at file
      subst file
      exact .main b v is text known
    | empty files _ => rw [files] at was; cases was
    | temp c main _ _ => rw [main] at was; cases was
  | same files =>
    cases h with
    | main c v file text known => exact .main c v (files ▸ file) text known
    | empty none known => exact .empty (files ▸ none) known
    | temp c main tmp text => exact .temp c (files ▸ main) (files ▸ tmp) fun t ht => hT t (text t ht)
  | temp b k text main tmp =>
    refine .temp _ main tmp fun t ht => ?_
    obtain ⟨ms, rfl⟩ := C.decode_torn u b k t text ht
    exact hu ms

/-- What `load` may answer. -/
theorem FilesOk.load (h : FilesOk C m mem T) (hx : loadUsage C m = .ok x) : x = mem ∨ ∃ t, T t ∧ x = some t := by
  cases h with
  | main b u file text known =>
    rw [loadUsage_main file, readText_eq_ok] at hx
    obtain ⟨v, hv, rfl⟩ := hx
    exact .inl (by rw [known, ← text, hv])
  | empty files known =>
    rw [loadUsage_empty files] at hx
    exact .inl ((Except.ok.inj hx).symm.trans known.symm)
  | temp b main tmp text =>
    rw [loadUsage_tmp main tmp, readText_eq_ok] at hx
    obtain ⟨t, ht, rfl⟩ := hx
    exact .inr ⟨t, text t ht, rfl⟩

/-- A process that read `x` has the files of a process that has `x`. -/
theorem FilesOk.start (h : FilesOk C m mem T) (hx : loadUsage C m = .ok x) : FilesOk C m x fun t => x = some t := by
  cases h with
  | main b u file text known =>
    rw [loadUsage_main file, readText_eq_ok] at hx
    obtain ⟨v, hv, rfl⟩ := hx
    exact .main b v file hv rfl
  | empty files known =>
    rw [loadUsage_empty files] at hx
    exact .empty files (Except.ok.inj hx).symm
  | temp b main tmp text =>
    rw [loadUsage_tmp main tmp, readText_eq_ok] at hx
    obtain ⟨v, hv, rfl⟩ := hx
    refine .temp b main tmp fun t ht => ?_
    rw [← hv, ht]

theorem loadUsage_saved (h : Saved C u m) : loadUsage C m = .ok (some u) := by
  obtain ⟨b, hb, hm⟩ := h
  rw [loadUsage_main hm, readText_eq_ok]
  exact ⟨u, C.decode_encode u b hb, rfl⟩

/-! ## The calls -/

/-- The ledger a reservation is granted with. -/
def reserved (s : RiskService) (key : RiskKey) (nowMs : ℕ) : RiskUsage :=
  { s.currentUsage key.1 key.2 nowMs with
    occupiedOrders := (s.currentUsage key.1 key.2 nowMs).occupiedOrders + 1, updatedAtMs := nowMs }

/-- The ledger a reservation is released with. -/
def freed (u : RiskUsage) (nowMs : ℕ) : RiskUsage :=
  { u with occupiedOrders := u.occupiedOrders - 1, updatedAtMs := nowMs }

@[simp] theorem freed_key (u : RiskUsage) (nowMs : ℕ) : (freed u nowMs).key = u.key := rfl

@[simp] theorem freed_occupied (u : RiskUsage) (nowMs : ℕ) : (freed u nowMs).occupiedOrders = u.occupiedOrders - 1 := rfl

theorem currentUsage_key (s : RiskService) (key : RiskKey) (nowMs : ℕ) : (s.currentUsage key.1 key.2 nowMs).key = key := by
  unfold currentUsage
  split
  · split
    · rename_i h; exact Prod.ext h.1 h.2
    · rfl
  · rfl

@[simp] theorem reserved_key (s : RiskService) (key : RiskKey) (nowMs : ℕ) : (s.reserved key nowMs).key = key :=
  s.currentUsage_key key nowMs

theorem reserved_occupied (s : RiskService) (key : RiskKey) (nowMs : ℕ) :
    (s.reserved key nowMs).occupiedOrders = occupied s.usage key + 1 := by
  have h : (s.currentUsage key.1 key.2 nowMs).occupiedOrders = occupied s.usage key := by
    unfold currentUsage occupied RiskUsage.key
    cases s.usage with
    | none => rfl
    | some u =>
      simp only [Prod.ext_iff]
      split <;> rfl
  exact congrArg (· + 1) h

/-- The service may count a reservation of `key`: it is on, its ledger is there and
the limit is not reached. -/
structure Open (s : RiskService) (key : RiskKey) (nowMs : ℕ) : Prop where
  enabled : s.config.enabled = true
  available : s.loadError = none
  room : (s.reserved key nowMs).occupiedOrders ≤ s.config.maxDailyOrders

/-- Such an order is counted: it passes the checks and is not one that only closes. -/
structure Asked (Z : Calendar) (R : RiskDecimals) (s : RiskService) (request : PlaceOrderRequest) (price : Option String)
    (nowMs : ℕ) (utcNow : ℤ) : Prop extends s.Open (s.keyAt Z nowMs utcNow) nowMs where
  valid : validateOrder R s.config request price = .ok ()
  opens : request.reduceOnly ≠ some true

variable {Z : Calendar} {R : RiskDecimals}

theorem wp_reserveOrder (request : PlaceOrderRequest) (price : Option String) (nowMs : ℕ) (utcNow : ℤ) (s : RiskService) :
    wp (reserveOrder C Z R request price nowMs utcNow)
      (fun r s' => r.counted = false ∧ s' = s ∨
        s.Asked Z R request price nowMs utcNow ∧ r.counted = true ∧ r.key = s.keyAt Z nowMs utcNow ∧
          ∃ f, Saved C (s.reserved (s.keyAt Z nowMs utcNow) nowMs) f ∧
            s' = { s with usage := some (s.reserved (s.keyAt Z nowMs utcNow) nowMs), files := f })
      (fun v s' => s' = s ∨
        v.code = .ledgerUnavailable ∧ s.Open (s.keyAt Z nowMs utcNow) nowMs ∧
          ∃ f, Left C (s.reserved (s.keyAt Z nowMs utcNow) nowMs) s.files f ∧ s' = { s with files := f })
      (fun s' => s.Open (s.keyAt Z nowMs utcNow) nowMs ∧
        ∃ f, (Left C (s.reserved (s.keyAt Z nowMs utcNow) nowMs) s.files f ∨
          Saved C (s.reserved (s.keyAt Z nowMs utcNow) nowMs) f) ∧ s' = { s with files := f }) s := by
  unfold reserveOrder
  refine wp_bind (wp_get.2 ?_)
  split
  · exact wp_pure.2 (.inl ⟨rfl, rfl⟩)
  rename_i hen
  refine wp_bind (wp_lift (fun _ hv => ?_) (fun _ _ => .inl rfl))
  split
  · exact wp_pure.2 (.inl ⟨rfl, rfl⟩)
  rename_i hred
  refine wp_bind (wp_lift (fun _ he => ?_) (fun _ _ => .inl rfl))
  rw [ensure_eq_ok] at he
  refine wp_bind (wp_lift (fun _ hl => ?_) (fun _ _ => .inl rfl))
  rw [ensure_eq_ok] at hl
  have hopen : s.Open (s.keyAt Z nowMs utcNow) nowMs := ⟨by simpa using hen, he, hl⟩
  refine wp_bind (wp_within.2 (wp_mapErr.2 (wp_mono (wp_save _ _) (fun _ f hf => ?_) (fun _ f hf => ?_) (fun f hf => ?_))))
  · refine wp_bind (wp_modify.2 (wp_pure.2 (.inr ⟨⟨hopen, hv, hred⟩, rfl, rfl, f, hf, rfl⟩)))
  · exact .inr ⟨rfl, hopen, f, hf, rfl⟩
  · exact ⟨hopen, f, hf, rfl⟩

/-- A reservation that is granted, when the store's calls go through. -/
theorem reserveOrder_run {request : PlaceOrderRequest} {price : Option String} {nowMs : ℕ} {utcNow : ℤ} {s : RiskService}
    {b : Bytes} (hv : validateOrder R s.config request price = .ok ()) (hr : request.reduceOnly ≠ some true)
    (ho : s.Open (s.keyAt Z nowMs utcNow) nowMs) (hb : C.encode (s.reserved (s.keyAt Z nowMs utcNow) nowMs) = some b) :
    ∃ f, reserveOrder C Z R request price nowMs utcNow s [] =
        .ok ⟨(s.keyAt Z nowMs utcNow).1, (s.keyAt Z nowMs utcNow).2, true⟩
          { s with usage := some (s.reserved (s.keyAt Z nowMs utcNow) nowMs), files := f } [] ∧
      f.get .main = some b ∧ (s.files.get .main = none → f.get .bak = none) := by
  obtain ⟨f, hf, hmain, hbak⟩ := save_run hb s.files
  refine ⟨f, ?_, hmain, hbak⟩
  unfold reserveOrder
  have hget : (Io.get : Io RiskService RiskViolation RiskService) s [] = .ok s s [] := rfl
  rw [Io.bind_of_ok hget, if_neg (by simp [ho.enabled]), Io.bind_of_ok (Io.lift_of_ok hv), if_neg hr,
    Io.bind_of_ok (Io.lift_of_ok (ensure_of ho.available))]
  refine (Io.bind_of_ok (Io.lift_of_ok (ensure_of ?_))).trans ?_
  · exact ho.room
  exact Io.bind_of_ok (Io.within_of_ok (Io.mapErr_of_ok hf))

theorem wp_releaseReservation (r : RiskReservation) (nowMs : ℕ) (s : RiskService) :
    wp (releaseReservation C r nowMs)
      (fun _ s' => (r.counted = true → ∀ u ∈ s.usage, u.key ≠ r.key) ∧ s' = s ∨
        ∃ u ∈ s.usage, u.key = r.key ∧ ∃ f, Saved C (freed u nowMs) f ∧
          s' = { s with usage := some (freed u nowMs), files := f })
      (fun _ s' => ∃ u ∈ s.usage, u.key = r.key ∧ ∃ f, Left C (freed u nowMs) s.files f ∧ s' = { s with files := f })
      (fun s' => ∃ u ∈ s.usage, u.key = r.key ∧ ∃ f, (Left C (freed u nowMs) s.files f ∨ Saved C (freed u nowMs) f) ∧
        s' = { s with files := f }) s := by
  unfold releaseReservation
  split
  · rename_i hc
    exact wp_pure.2 (.inl ⟨fun h => by simp [h] at hc, rfl⟩)
  refine wp_bind (wp_get.2 ?_)
  cases hu : s.usage with
  | none => exact wp_pure.2 (.inl ⟨by simp, rfl⟩)
  | some u =>
    simp only
    split
    · rename_i hne
      refine wp_pure.2 (.inl ⟨fun _ v hv => ?_, rfl⟩)
      obtain rfl := Option.some.inj hv
      intro hk
      rw [RiskUsage.key, RiskReservation.key, Prod.mk.injEq] at hk
      exact hne.elim (fun h => h hk.1) (fun h => h hk.2)
    · rename_i heq
      simp only [not_or, not_not] at heq
      have hk : u.key = r.key := Prod.ext heq.1 heq.2
      refine wp_bind (wp_within.2 (wp_mono (wp_save _ _) (fun _ f hf => ?_) (fun _ f hf => ?_) (fun f hf => ?_)))
      · exact wp_modify.2 (.inr ⟨u, rfl, hk, f, hf, rfl⟩)
      · exact ⟨u, rfl, hk, f, hf, by rw [hu]⟩
      · exact ⟨u, rfl, hk, f, hf, by rw [hu]⟩

end RiskService

/-! ## Runs with one configuration -/

open RiskService

namespace RiskWorld

/-- The key of a day not after `d`. -/
def Until (Z : Calendar) (zone : String) (d : ℤ) (key : RiskKey) : Prop := ∃ d' ≤ d, key = (Z.format d', zone)

theorem Until.mono {Z : Calendar} {zone : String} {d e : ℤ} {key : RiskKey} (h : Until Z zone d key) (hde : d ≤ e) :
    Until Z zone e key := by
  obtain ⟨d', hd, hk⟩ := h
  exact ⟨d', hd.trans hde, hk⟩

theorem Until.not_later {Z : Calendar} {zone : String} {d e : ℤ} (h : Until Z zone d (Z.format e, zone)) : e ≤ d := by
  obtain ⟨d', hd, hk⟩ := h
  rw [Prod.mk.injEq] at hk
  exact Z.format_inj hk.1 ▸ hd

/-- The calls of a run with one configuration: no day before an earlier call's, no
reservation released twice. -/
def Dated (Z : Calendar) (w : RiskWorld) : RiskAct → Prop
  | .reserve _ _ nowMs utcNow _ => ∀ t ∈ w.today, t ≤ tradingDay Z nowMs utcNow (w.service.zone Z)
  | .release i _ _ => ∀ g ∈ w.grants[i]?, g.released = false
  | .update _ => False
  | .restart => True

instance (Z : Calendar) (w : RiskWorld) : DecidablePred (Dated Z w)
  | .reserve _ _ nowMs utcNow _ => inferInstanceAs (Decidable (∀ t ∈ w.today, t ≤ tradingDay Z nowMs utcNow (w.service.zone Z)))
  | .release i _ _ => inferInstanceAs (Decidable (∀ g ∈ w.grants[i]?, g.released = false))
  | .update _ => .isFalse id
  | .restart => .isTrue trivial

/-- What the temporary file may hold: the ledger itself, or that of a call that
failed since. -/
def Tried (Z : Calendar) (w : RiskWorld) (t : RiskUsage) : Prop :=
  w.service.usage = some t ∨
  (∃ d, t.key = (Z.format d, w.service.zone Z) ∧ (∀ u ∈ w.service.usage, Until Z (w.service.zone Z) d u.key) ∧
    (∃ e ∈ w.today, d ≤ e) ∧ t.occupiedOrders = occupied w.service.usage t.key + 1 ∧
    t.occupiedOrders ≤ w.service.config.maxDailyOrders ∧ t.key ∈ w.failedReserves) ∨
  ∃ u ∈ w.service.usage, t.key = u.key ∧ t.occupiedOrders = u.occupiedOrders - 1 ∧ t.key ∈ w.failedReleases

/-- The ledger `u` in memory: it is of the latest day anything was granted for, and
counts the outstanding reservations up to what starts took up. -/
structure Counts (Z : Calendar) (w : RiskWorld) (u : RiskUsage) : Prop where
  day : ∃ d, u.key = (Z.format d, w.service.zone Z) ∧ (∃ e ∈ w.today, d ≤ e) ∧
    ∀ g ∈ w.grants, Until Z (w.service.zone Z) d g.reservation.key
  low : w.outstanding u.key ≤ u.occupiedOrders + w.lowered.count u.key
  high : u.occupiedOrders ≤ w.outstanding u.key + w.raised.count u.key
  limit : u.occupiedOrders ≤ w.service.config.maxDailyOrders

/-- What holds throughout a run with one configuration. -/
structure Exact (C : UsageCodec) (Z : Calendar) (config : RiskConfig) (w : RiskWorld) : Prop where
  fixed : w.service.config = config
  on : w.service.config.enabled = true
  stuck : w.service.loadError ≠ none → w.service.usage = none ∧ ∀ x, loadUsage C w.service.files ≠ .ok x
  files : w.service.loadError = none → FilesOk C w.service.files w.service.usage (w.Tried Z)
  ledger : ∀ u ∈ w.service.usage, w.Counts Z u
  fresh : w.service.loadError = none → w.service.usage = none → w.grants = []
  counted : ∀ g ∈ w.grants, g.reservation.counted = true
  settled : w.service.loadError = none → w.failedReserves = [] → w.failedReleases = [] →
    loadUsage C w.service.files = .ok w.service.usage

variable {C : UsageCodec} {Z : Calendar} {config : RiskConfig} {w : RiskWorld}

theorem outstanding_eq_zero {k : RiskKey} (h : ∀ g ∈ w.grants, g.reservation.key ≠ k) : w.outstanding k = 0 := by
  unfold outstanding
  rw [List.countP_eq_zero]
  intro g hg hk
  simp only [decide_eq_true_eq] at hk
  exact h g hg hk.1

/-- The bounds for a day not before the ledger's. -/
theorem Exact.bounds (h : w.Exact C Z config) (ha : w.service.loadError = none) {d : ℤ}
    (hd : ∀ u ∈ w.service.usage, Until Z (w.service.zone Z) d u.key) :
    (w.outstanding (Z.format d, w.service.zone Z) ≤
      occupied w.service.usage (Z.format d, w.service.zone Z) + w.lowered.count (Z.format d, w.service.zone Z)) ∧
    (occupied w.service.usage (Z.format d, w.service.zone Z) ≤
      w.outstanding (Z.format d, w.service.zone Z) + w.raised.count (Z.format d, w.service.zone Z)) ∧
    ∀ g ∈ w.grants, Until Z (w.service.zone Z) d g.reservation.key := by
  cases hu : w.service.usage with
  | none =>
    have hg := h.fresh ha hu
    simp [occupied, outstanding, hg]
  | some u =>
    have hc := h.ledger u hu
    obtain ⟨du, hdu, -, hgr⟩ := hc.day
    have hle : du ≤ d := (hdu ▸ hd u hu).not_later
    by_cases hk : u.key = (Z.format d, w.service.zone Z)
    · have hocc : occupied (some u) (Z.format d, w.service.zone Z) = u.occupiedOrders := if_pos hk
      rw [hocc, ← hk]
      exact ⟨hc.low, hc.high, fun g hg => (hgr g hg).mono hle⟩
    · have hocc : occupied (some u) (Z.format d, w.service.zone Z) = 0 := if_neg hk
      -- a grant of day `d` would make `d` the ledger's day
      have hout : w.outstanding (Z.format d, w.service.zone Z) = 0 := by
        refine outstanding_eq_zero fun g hg he => hk ?_
        have hge : d ≤ du := (he ▸ hgr g hg).not_later
        rw [hdu, le_antisymm hle hge]
      rw [hocc, hout]
      exact ⟨by omega, by omega, fun g hg => (hgr g hg).mono hle⟩

/-- The ledger is not of a day after the current one. -/
theorem Exact.until (h : w.Exact C Z config) {e : ℤ} (he : ∀ t ∈ w.today, t ≤ e) :
    ∀ u ∈ w.service.usage, Until Z (w.service.zone Z) e u.key := by
  intro u hu
  obtain ⟨d, hk, ⟨t, ht, hd⟩, -⟩ := (h.ledger u hu).day
  exact ⟨d, hd.trans (he t ht), hk⟩

/-- What `load` returns on the files `f` is the ledger of `w` or that of a call that
failed, and then the files are as a process that has it leaves them. -/
def Readable (C : UsageCodec) (Z : Calendar) (w : RiskWorld) (f : RiskDir) : Prop :=
  ∀ x, loadUsage C f = .ok x → (x = w.service.usage ∨ ∃ t, w.Tried Z t ∧ x = some t) ∧ FilesOk C f x fun t => x = some t

theorem Readable.of_files {f : RiskDir} (h : FilesOk C f w.service.usage (w.Tried Z)) : w.Readable C Z f :=
  fun _ hx => ⟨h.load hx, h.start hx⟩

theorem Readable.of_saved {f : RiskDir} {u : RiskUsage} (h : Saved C u f) (hu : w.Tried Z u) : w.Readable C Z f := by
  intro x hx
  have hf : FilesOk C f (some u) (w.Tried Z) := .saved h
  refine ⟨.inr ?_, hf.start hx⟩
  rcases hf.load hx with rfl | ⟨t, ht, rfl⟩
  · exact ⟨u, hu, rfl⟩
  · exact ⟨t, ht, rfl⟩

/-- A ledger that may be read back counts the outstanding reservations of the next
process. -/
theorem Exact.counts_start {f : RiskDir} {u : RiskUsage} (h : w.Exact C Z config) (ha : w.service.loadError = none)
    (hc : (w.start C f).service.config = w.service.config) (hu : w.Tried Z u) : (w.start C f).Counts Z u := by
  have hzone : (w.start C f).service.zone Z = w.service.zone Z := by rw [zone, hc, zone]
  have hraise : w.raised.count u.key + w.failedReserves.dedup.count u.key = (w.start C f).raised.count u.key := by
    rw [RiskWorld.start, List.count_append, Nat.add_comm]
  have hlower : w.lowered.count u.key + w.failedReleases.dedup.count u.key = (w.start C f).lowered.count u.key := by
    rw [RiskWorld.start, List.count_append, Nat.add_comm]
  have hout : (w.start C f).outstanding u.key = w.outstanding u.key := rfl
  rcases hu with hu | ⟨d, hk, hd, he, hocc, hlim, hfail⟩ | ⟨v, hv, hk, hocc, hfail⟩
  · have hl := (h.ledger u hu).low
    have hh := (h.ledger u hu).high
    exact ⟨by rw [hzone]; exact (h.ledger u hu).day, by omega, by omega, by rw [hc]; exact (h.ledger u hu).limit⟩
  · -- one more than before, and the failed call is in `raised`
    obtain ⟨hl, hh, hg⟩ := h.bounds ha hd
    rw [← hk] at hl hh
    have : 0 < w.failedReserves.dedup.count u.key := List.count_pos_iff.2 (List.mem_dedup.2 hfail)
    exact ⟨⟨d, by rw [hzone]; exact hk, he, by rw [hzone]; exact hg⟩, by omega, by omega, by rw [hc]; exact hlim⟩
  · -- one less than before, and the failed call is in `lowered`
    have hl := (h.ledger v hv).low
    have hh := (h.ledger v hv).high
    have hlim := (h.ledger v hv).limit
    rw [← hk] at hl hh
    have : 0 < w.failedReleases.dedup.count u.key := List.count_pos_iff.2 (List.mem_dedup.2 hfail)
    exact ⟨by rw [hzone, hk]; exact (h.ledger v hv).day, by omega, by omega, by rw [hc]; omega⟩

theorem start_service (h : w.service.config.enabled = true) (f : RiskDir) :
    (w.start C f).service = ⟨w.service.config, (loaded C f).1, (loaded C f).2, f⟩ := by
  simp only [RiskWorld.start, withStore, h, if_true]

theorem Exact.start_available {f : RiskDir} (h : w.Exact C Z config) (ha : w.service.loadError = none)
    (hf : w.Readable C Z f) : (w.start C f).Exact C Z config := by
  have hserv := start_service (C := C) h.on f
  have hconf : (w.start C f).service.config = w.service.config := by rw [hserv]
  refine ⟨hconf ▸ h.fixed, hconf ▸ h.on, ?_, ?_, ?_, ?_, h.counted, ?_⟩
  all_goals
    rw [hserv]
    unfold loaded
    cases hx : loadUsage C f with
    | error e => simp
    | ok x => ?_
  · simp
  · intro _
    refine (hf x hx).2.mono fun t ht => .inl ?_
    rw [hserv]
    simp only [loaded, hx]
    exact ht
  · intro u hu
    rcases (hf x hx).1 with rfl | ⟨t, ht, rfl⟩
    · exact h.counts_start ha hconf (.inl hu)
    · exact h.counts_start ha hconf (Option.some.inj hu ▸ ht)
  · intro _ hn
    rcases (hf x hx).1 with rfl | ⟨t, -, rfl⟩
    · exact h.fresh ha hn
    · cases hn
  · exact fun _ _ _ => rfl

/-- A ledger that could not be read is not read by the next process either. -/
theorem Exact.start_stuck (h : w.Exact C Z config) (ha : w.service.loadError ≠ none) :
    (w.start C w.service.files).Exact C Z config := by
  have hserv := start_service (C := C) h.on w.service.files
  have hconf : (w.start C w.service.files).service.config = w.service.config := by rw [hserv]
  have hload : ∃ e, loadUsage C w.service.files = .error e := by
    cases hx : loadUsage C w.service.files with
    | error e => exact ⟨e, rfl⟩
    | ok x => exact absurd hx ((h.stuck ha).2 x)
  obtain ⟨e, he⟩ := hload
  refine ⟨hconf ▸ h.fixed, hconf ▸ h.on, ?_, ?_, ?_, ?_, h.counted, ?_⟩ <;> rw [hserv] <;> simp [loaded, he]

theorem Exact.restart (h : w.Exact C Z config) : (w.start C w.service.files).Exact C Z config := by
  by_cases ha : w.service.loadError = none
  · exact h.start_available ha (.of_files (h.files ha))
  · exact h.start_stuck ha

/-- A later day. -/
theorem Exact.at (h : w.Exact C Z config) {e : ℤ} (he : ∀ t ∈ w.today, t ≤ e) :
    ({ w with today := some e } : RiskWorld).Exact C Z config := by
  have hday : ∀ d, (∃ t ∈ w.today, d ≤ t) → ∃ t ∈ some e, d ≤ t := by
    rintro d ⟨t, ht, hd⟩
    exact ⟨e, rfl, hd.trans (he t ht)⟩
  refine ⟨h.fixed, h.on, h.stuck, fun ha => ?_, fun u hu => ?_, h.fresh, h.counted, h.settled⟩
  · refine (h.files ha).mono ?_
    rintro t (ht | ⟨d, hk, hd, ht, hrest⟩ | ht)
    · exact .inl ht
    · exact .inr (.inl ⟨d, hk, hd, hday d ht, hrest⟩)
    · exact .inr (.inr ht)
  · obtain ⟨d, hk, ht, hg⟩ := (h.ledger u hu).day
    exact ⟨⟨d, hk, hday d ht, hg⟩, (h.ledger u hu).low, (h.ledger u hu).high, (h.ledger u hu).limit⟩

theorem Tried.mono {t : RiskUsage} {reserves releases : List RiskKey} (h : w.Tried Z t)
    (hr : ∀ k ∈ w.failedReserves, k ∈ reserves) (hl : ∀ k ∈ w.failedReleases, k ∈ releases) :
    ({ w with failedReserves := reserves, failedReleases := releases } : RiskWorld).Tried Z t := by
  rcases h with h | ⟨d, hk, hd, he, hocc, hlim, hfail⟩ | ⟨v, hv, hk, hocc, hfail⟩
  · exact .inl h
  · exact .inr (.inl ⟨d, hk, hd, he, hocc, hlim, hr _ hfail⟩)
  · exact .inr (.inr ⟨v, hv, hk, hocc, hl _ hfail⟩)

/-- A call that failed, and the files it left. -/
theorem Exact.failed {f : RiskDir} {reserves releases : List RiskKey} (h : w.Exact C Z config)
    (hf : w.service.loadError = none → FilesOk C f w.service.usage
      (({ w with failedReserves := reserves, failedReleases := releases } : RiskWorld).Tried Z))
    (hs : w.service.loadError ≠ none → f = w.service.files)
    (hn : reserves = [] → releases = [] → f = w.service.files ∧ w.failedReserves = [] ∧ w.failedReleases = []) :
    ({ w with service := { w.service with files := f }, failedReserves := reserves, failedReleases := releases } :
      RiskWorld).Exact C Z config :=
  ⟨h.fixed, h.on, fun ha => ⟨(h.stuck ha).1, hs ha ▸ (h.stuck ha).2⟩, hf,
    fun u hu => ⟨(h.ledger u hu).day, (h.ledger u hu).low, (h.ledger u hu).high, (h.ledger u hu).limit⟩, h.fresh, h.counted,
    fun ha hr hl => by
      obtain ⟨rfl, hr', hl'⟩ := hn hr hl
      exact h.settled ha hr' hl'⟩

/-! ### Reserving -/

section Reserve

variable {nowMs : ℕ} {utcNow : ℤ}

theorem today_le {e : ℤ} (h : w.today = some e) : ∀ t ∈ w.today, t ≤ e := by
  intro t ht
  rw [h, Option.mem_some] at ht
  exact ht.ge

/-- The ledger of a reservation that is not granted. -/
theorem Exact.tried_reserved (h : w.Exact C Z config) {e : ℤ} {k : RiskKey} (ht : w.today = some e)
    (hk : k = (Z.format e, w.service.zone Z)) (ho : w.service.Open k nowMs) (ms : ℕ) :
    ({ w with failedReserves := k :: w.failedReserves } : RiskWorld).Tried Z
      { w.service.reserved k nowMs with updatedAtMs := ms } := by
  have hkey : RiskUsage.key { w.service.reserved k nowMs with updatedAtMs := ms } = k := reserved_key w.service k nowMs
  refine .inr (.inl ⟨e, hkey.trans hk, h.until (today_le ht), ⟨e, ht, le_rfl⟩, ?_, ho.room, ?_⟩)
  · rw [hkey]
    exact reserved_occupied w.service k nowMs
  · rw [hkey]
    exact List.mem_cons_self

/-- A granted reservation. -/
theorem Exact.grant {f : RiskDir} {r : RiskReservation} {e : ℤ} {k : RiskKey} (h : w.Exact C Z config)
    (ht : w.today = some e) (hk : k = (Z.format e, w.service.zone Z)) (ho : w.service.Open k nowMs)
    (hc : r.counted = true) (hr : r.key = k) (hf : Saved C (w.service.reserved k nowMs) f) :
    (w.grant r { w.service with usage := some (w.service.reserved k nowMs), files := f }).Exact C Z config := by
  obtain ⟨hl, hh, hg⟩ := h.bounds ho.available (h.until (today_le ht))
  rw [← hk] at hl hh
  have hkey := reserved_key w.service k nowMs
  have hocc := reserved_occupied w.service k nowMs
  set w' := w.grant r { w.service with usage := some (w.service.reserved k nowMs), files := f } with hw'
  have hout : w'.outstanding k = w.outstanding k + 1 := by
    simp [hw', RiskWorld.outstanding, RiskWorld.grant, List.countP_append, hr]
  have hmem : ∀ g ∈ w'.grants, g ∈ w.grants ∨ g.reservation = r := by
    intro g hgm
    rcases List.mem_append.1 hgm with hgm | hgm
    · exact .inl hgm
    · exact .inr (by rw [List.mem_singleton.1 hgm])
  refine ⟨h.fixed, h.on, fun ha => absurd ho.available ha, fun _ => .saved hf, ?_, fun _ hn => ?_, ?_,
    fun _ _ _ => loadUsage_saved hf⟩
  · intro u hu
    obtain rfl := Option.some.inj hu
    refine ⟨⟨e, hkey.trans hk, ⟨e, ht, le_rfl⟩, ?_⟩, ?_, ?_, ho.room⟩
    · intro g hgm
      rcases hmem g hgm with hgm | hgm
      · exact hg g hgm
      · exact ⟨e, le_rfl, (congrArg RiskReservation.key hgm).trans (hr.trans hk)⟩
    · rw [hkey, hout, hocc]
      change _ ≤ _ + w.lowered.count k
      omega
    · rw [hkey, hout, hocc]
      change _ ≤ _ + w.raised.count k
      omega
  · exact absurd hn (Option.some_ne_none _)
  · intro g hgm
    rcases hmem g hgm with hgm | hgm
    · exact h.counted g hgm
    · rw [hgm]
      exact hc

variable {R : RiskDecimals}

theorem Exact.reserve (h : w.Exact C Z config) (request : PlaceOrderRequest) (price : Option String) (faults : List Fault)
    (hd : ∀ t ∈ w.today, t ≤ tradingDay Z nowMs utcNow (w.service.zone Z)) :
    (w.reserve C Z R request price nowMs utcNow faults).Exact C Z config := by
  have h1 := h.at hd
  have hwp : wp (reserveOrder C Z R request price nowMs utcNow) _ _ _ w.service :=
    wp_reserveOrder request price nowMs utcNow w.service
  have hspec := hwp faults
  unfold RiskWorld.reserve
  simp only
  set w1 : RiskWorld := { w with today := some (tradingDay Z nowMs utcNow (w.service.zone Z)) } with hw1
  cases hm : reserveOrder C Z R request price nowMs utcNow w.service faults with
  | ok r s rest =>
    rw [hm] at hspec
    rcases hspec with ⟨hc, rfl⟩ | ⟨ho, hc, hr, f, hf, rfl⟩
    · simp only [hc]
      exact h1
    · simp only [hc, if_true]
      exact h1.grant rfl rfl ho.toOpen hc hr hf
  -- the call fails before its save, or in it:
  | err v s rest =>
    rw [hm] at hspec
    rcases hspec with rfl | ⟨hv, ho, f, hf, rfl⟩
    · refine h1.failed (fun ha => (h1.files ha).mono fun t ht => ht.mono (fun k hk => ?_) fun k hk => hk) (fun _ => rfl)
        fun hr hl => ⟨rfl, ?_, hl⟩
      · split
        · exact List.mem_cons_of_mem _ hk
        · exact hk
      · split at hr
        · cases hr
        · exact hr
    · simp only [hv, if_true]
      refine h1.failed (fun ha => (h1.files ha).left hf (fun t ht => ?_) (h1.tried_reserved rfl rfl ho))
        (fun ha => absurd ho.available ha) fun hr => absurd hr (List.cons_ne_nil _ _)
      exact ht.mono (fun k hk => List.mem_cons_of_mem _ hk) fun k hk => hk
  | crashed s =>
    rw [hm] at hspec
    obtain ⟨ho, f, hf, rfl⟩ := hspec
    have h2 : ({ w1 with failedReserves := w1.service.keyAt Z nowMs utcNow :: w1.failedReserves } : RiskWorld).Exact
        C Z config :=
      h1.failed (fun ha => (h1.files ha).mono fun t ht =>
        ht.mono (fun k hk => List.mem_cons_of_mem _ hk) fun k hk => hk) (fun _ => rfl) fun hr => absurd hr (List.cons_ne_nil _ _)
    refine h2.start_available ho.available ?_
    -- the new process finds the old ledger or the new one:
    rcases hf with hf | hf
    · exact .of_files ((h2.files ho.available).left hf (fun t ht => ht) (h1.tried_reserved rfl rfl ho))
    · exact .of_saved hf (h1.tried_reserved rfl rfl ho _)

end Reserve

/-! ### Releasing -/

section Release

variable {i : ℕ} {g : Grant} {nowMs : ℕ}

/-- Releasing a grant takes one off its key and nothing off the others. -/
theorem outstanding_markReleased (hg : w.grants[i]? = some g) (hr : g.released = false) (s : RiskService) (k : RiskKey) :
    (w.markReleased i g s).outstanding k + (if g.reservation.key = k then 1 else 0) = w.outstanding k := by
  obtain ⟨hi, rfl⟩ := List.getElem?_eq_some_iff.1 hg
  unfold RiskWorld.outstanding RiskWorld.markReleased
  rw [List.countP_set hi]
  by_cases hk : w.grants[i].reservation.key = k
  · have hpos : 0 < w.grants.countP fun g => decide (g.reservation.key = k ∧ (!g.released) = true) :=
      List.countP_pos_iff.2 ⟨w.grants[i], List.getElem_mem hi, by simp [hk, hr]⟩
    simp only [hk, hr, Bool.not_false, Bool.not_true, Bool.false_eq_true, and_self, and_false, decide_true, decide_false, if_true,
      if_false]
    omega
  · simp [hk]

/-- What a release leaves of the counts of a ledger `u` when it was `v` before. -/
theorem Exact.counts_markReleased {u v : RiskUsage} {s : RiskService} (h : w.Exact C Z config) (hg : w.grants[i]? = some g)
    (hr : g.released = false) (hs : s.config = w.service.config) (hv : v ∈ w.service.usage) (hk : u.key = v.key)
    (hocc : u.occupiedOrders = v.occupiedOrders - if g.reservation.key = v.key then 1 else 0) :
    (w.markReleased i g s).Counts Z u := by
  have hc := h.ledger v hv
  obtain ⟨d, hd, he, hgr⟩ := hc.day
  have hzone : s.zone Z = w.service.zone Z := by rw [zone, hs, zone]
  have hout := outstanding_markReleased hg hr s u.key
  have hl := hc.low
  have hh := hc.high
  have hlim := hc.limit
  rw [← hk] at hl hh hocc
  have hbounds : (w.markReleased i g s).outstanding u.key ≤ u.occupiedOrders + w.lowered.count u.key ∧
      u.occupiedOrders ≤ (w.markReleased i g s).outstanding u.key + w.raised.count u.key := by
    by_cases hgk : g.reservation.key = u.key
    · rw [if_pos hgk] at hout hocc; omega
    · rw [if_neg hgk] at hout hocc; omega
  refine ⟨⟨d, ?_, he, fun g' hg' => ?_⟩, hbounds.1, hbounds.2, ?_⟩
  · exact hk.trans (hd.trans (by rw [← hzone]; rfl))
  · have : ∃ g₀ ∈ w.grants, g₀.reservation = g'.reservation := by
      rcases List.mem_or_eq_of_mem_set hg' with hm | rfl
      · exact ⟨g', hm, rfl⟩
      · exact ⟨g, List.mem_of_getElem? hg, rfl⟩
    obtain ⟨g₀, hm, he'⟩ := this
    have hu := hgr g₀ hm
    rw [he', ← hzone] at hu
    exact hu
  · show u.occupiedOrders ≤ s.config.maxDailyOrders
    rw [hs]; omega

theorem Exact.release (h : w.Exact C Z config) (faults : List Fault) (hg : ∀ g ∈ w.grants[i]?, g.released = false) :
    (w.release C i nowMs faults).Exact C Z config := by
  unfold RiskWorld.release
  cases hi : w.grants[i]? with
  | none => exact h
  | some g =>
    simp only
    have hmem : g ∈ w.grants := List.mem_of_getElem? hi
    have hr := hg g hi
    have hspec := wp_releaseReservation (C := C) g.reservation nowMs w.service faults
    -- a release that has a ledger to save finds it available
    have havail : ∀ u ∈ w.service.usage, w.service.loadError = none := by
      intro u hu
      by_contra ha
      rw [(h.stuck ha).1] at hu
      cases hu
    have htried : ∀ u ∈ w.service.usage, u.key = g.reservation.key → ∀ ms,
        ({ w with failedReleases := g.reservation.key :: w.failedReleases } : RiskWorld).Tried Z
          { freed u nowMs with updatedAtMs := ms } :=
      fun u hu hk ms => .inr (.inr ⟨u, hu, rfl, rfl, hk ▸ List.mem_cons_self⟩)
    have hcounted : ∀ s, ∀ g' ∈ (w.markReleased i g s).grants, g'.reservation.counted = true := by
      intro s g' hg'
      rcases List.mem_or_eq_of_mem_set hg' with hm | rfl
      · exact h.counted g' hm
      · exact h.counted g hmem
    have hnil : w.grants ≠ [] := List.ne_nil_of_mem hmem
    cases hm : releaseReservation C g.reservation nowMs w.service faults with
    | ok u s rest =>
      rw [hm] at hspec
      rcases hspec with ⟨hno, rfl⟩ | ⟨u, hu, hk, f, hf, rfl⟩
      · have hkey := hno (h.counted g hmem)
        have hcov : ¬ w.covers g.reservation.key := by rintro ⟨u, hu, hk⟩; exact hkey u hu hk
        refine ⟨h.fixed, h.on, h.stuck, fun ha => ?_, fun u hu => ?_, fun ha hn => absurd (h.fresh ha hn) hnil, hcounted _, ?_⟩
        · simp only [RiskWorld.markReleased, hcov, if_false]
          exact h.files ha
        · exact h.counts_markReleased hi hr rfl hu rfl (by rw [if_neg fun he => hkey u hu he.symm]; rfl)
        · simp only [RiskWorld.markReleased, hcov, if_false]
          exact h.settled
      · refine ⟨h.fixed, h.on, fun ha => absurd (havail u hu) ha, fun _ => .saved hf, fun v hv => ?_,
          fun _ hn => absurd hn (Option.some_ne_none _), hcounted _, fun _ _ _ => loadUsage_saved hf⟩
        obtain rfl := Option.some.inj hv
        exact h.counts_markReleased hi hr rfl hu rfl (by rw [if_pos hk.symm]; rfl)
    | err e s rest =>
      rw [hm] at hspec
      obtain ⟨u, hu, hk, f, hf, rfl⟩ := hspec
      refine h.failed (fun ha => (h.files ha).left hf (fun t ht => ?_) (htried u hu hk))
        (fun ha => absurd (havail u hu) ha) fun _ hl => absurd hl (List.cons_ne_nil _ _)
      exact ht.mono (fun k hk => hk) fun k hk => List.mem_cons_of_mem _ hk
    | crashed s =>
      rw [hm] at hspec
      obtain ⟨u, hu, hk, f, hf, rfl⟩ := hspec
      have h2 : ({ w with failedReleases := g.reservation.key :: w.failedReleases } : RiskWorld).Exact C Z config :=
        h.failed (fun ha => (h.files ha).mono fun t ht =>
          ht.mono (fun k hk => hk) fun k hk => List.mem_cons_of_mem _ hk) (fun _ => rfl) fun _ hl => absurd hl (List.cons_ne_nil _ _)
      refine h2.start_available (havail u hu) ?_
      rcases hf with hf | hf
      · exact .of_files ((h2.files (havail u hu)).left hf (fun t ht => ht) (htried u hu hk))
      · exact .of_saved hf (htried u hu hk _)

end Release

/-! ### Runs -/

variable {R : RiskDecimals}

theorem exact_init (he : config.enabled = true) : (init C config).Exact C Z config := by
  have hload : loadUsage C ⟨∅, []⟩ = .ok none := loadUsage_empty fun n => by rfl
  have hserv : (init C config).service = ⟨config, none, none, ⟨∅, []⟩⟩ := by
    simp only [init, withStore, he, if_true, loaded, hload]
  refine ⟨by rw [hserv], by rw [hserv]; exact he, ?_, fun _ => ?_, ?_, fun _ _ => rfl, by simp [init], fun _ _ _ => ?_⟩
  · rw [hserv]; simp
  · rw [hserv]; exact .empty (fun n => by rfl) rfl
  · rw [hserv]; simp
  · rw [hserv]; exact hload

theorem exact_step (a : RiskAct) (h : w.Exact C Z config) (ha : w.Dated Z a) : (w.step C Z R a).Exact C Z config := by
  cases a with
  | reserve request price nowMs utcNow faults => exact h.reserve request price faults ha
  | release i nowMs faults => exact h.release faults ha
  | update config' => exact ha.elim
  | restart => exact h.restart

theorem exact_run (he : config.enabled = true) (as : List RiskAct)
    (ha : Along (step C Z R) (Dated Z) (init C config) as) :
    (run (step C Z R) (init C config) as).Exact C Z config :=
  run_inv_along (fun _ a h ha => exact_step a h ha) as _ (exact_init he) ha

/-- What `load` returns counts the outstanding reservations of the current day, but
for a release that failed. -/
theorem Exact.disk (h : w.Exact C Z config) {d : ℤ} (hd : ∀ t ∈ w.today, t ≤ d) {x : Option RiskUsage}
    (hx : loadUsage C w.service.files = .ok x) :
    w.outstanding (Z.format d, w.service.zone Z) ≤ occupied x (Z.format d, w.service.zone Z) +
      w.lowered.count (Z.format d, w.service.zone Z) +
      if (Z.format d, w.service.zone Z) ∈ w.failedReleases then 1 else 0 := by
  have ha : w.service.loadError = none := by
    by_contra ha
    exact (h.stuck ha).2 x hx
  obtain ⟨hl, -, -⟩ := h.bounds ha (h.until hd)
  generalize hkey : (Z.format d, w.service.zone Z) = key at hl ⊢
  rcases (h.files ha).load hx with rfl | ⟨t, ht | ⟨d', hk, hdu, ⟨e, he, hde⟩, hocc, -, -⟩ | ⟨u, hum, hk, hocc, hfail⟩, rfl⟩
  · omega
  · rw [ht] at hl; omega
  · -- a reservation of an earlier day: nothing is outstanding today
    by_cases ht : t.key = key
    · have hot : occupied (some t) key = t.occupiedOrders := if_pos ht
      rw [ht] at hocc
      omega
    · have hlt : d' < d := by
        refine lt_of_le_of_ne (hde.trans (hd e he)) fun hdd => ht ?_
        rw [hk, hdd, hkey]
      have hz : w.outstanding key = 0 := by
        refine outstanding_eq_zero fun g hgm hgk => ?_
        obtain ⟨-, -, hg'⟩ := h.bounds ha hdu
        have := hg' g hgm
        rw [hgk, ← hkey] at this
        exact absurd this.not_later (not_le.2 hlt)
      omega
  · by_cases ht : t.key = key
    · have hot : occupied (some t) key = t.occupiedOrders := if_pos ht
      have hou : occupied w.service.usage key = u.occupiedOrders := by
        rw [hum]; exact if_pos (hk.symm.trans ht)
      rw [if_pos (ht ▸ hfail)]
      omega
    · have hou : occupied w.service.usage key = 0 := by
        rw [hum]; exact if_neg fun hc => ht (hk.trans hc)
      omega

/-- A release of another day's or zone's reservation that returns. -/
theorem release_other {r : RiskReservation} {key : RiskKey} (hr : r.key ≠ key) (nowMs : ℕ) (s : RiskService) :
    wp (releaseReservation C r nowMs) (fun _ s' => occupied s'.usage key = occupied s.usage key)
      (fun _ s' => occupied s'.usage key = occupied s.usage key) (fun _ => True) s := by
  refine wp_mono (wp_releaseReservation r nowMs s) ?_ ?_ (fun _ _ => trivial)
  · rintro _ _ (⟨-, rfl⟩ | ⟨u, hu, hk, f, -, rfl⟩)
    · rfl
    · have hne : u.key ≠ key := hk ▸ hr
      rw [hu]
      simp [occupied, hne]
  · rintro _ _ ⟨u, hu, hk, f, -, rfl⟩
    rfl

end RiskWorld

open RiskWorld

/-- **The daily count.** On every run of a service with one configuration, whose
days never go back and which releases no reservation twice, whatever fails and
wherever a process dies, for the current day: the count in memory is the number of
outstanding reservations, up to the starts that took up a call which had failed
(`raised`, `lowered`); it is within the limit; what can be read from disk is at
least the number of outstanding reservations, but for a release that failed; and
releases of other days leave it alone. A call that saves leaves on disk what it
leaves in memory, as does every call while none has failed, and a refused
reservation leaves the memory as it was. -/
theorem daily_ledger (C : UsageCodec) (Z : Calendar) (R : RiskDecimals) (config : RiskConfig)
    (he : config.enabled = true) (as : List RiskAct)
    (ha : Along (step C Z R) (Dated Z) (init C config) as) :
    let w := run (step C Z R) (init C config) as
    (∀ d, (∀ t ∈ w.today, t ≤ d) →
      let key := (Z.format d, w.service.zone Z)
      (w.service.loadError = none →
        w.outstanding key ≤ occupied w.service.usage key + w.lowered.count key ∧
        occupied w.service.usage key ≤ w.outstanding key + w.raised.count key) ∧
      occupied w.service.usage key ≤ config.maxDailyOrders ∧
      (∀ usage, loadUsage C w.service.files = .ok usage →
        w.outstanding key ≤ occupied usage key + w.lowered.count key + if key ∈ w.failedReleases then 1 else 0) ∧
      ∀ g ∈ w.grants, g.reservation.key ≠ key → ∀ nowMs, wp (releaseReservation C g.reservation nowMs)
        (fun _ s => occupied s.usage key = occupied w.service.usage key)
        (fun _ s => occupied s.usage key = occupied w.service.usage key) (fun _ => True) w.service) ∧
    (w.service.loadError = none → w.failedReserves = [] → w.failedReleases = [] →
      loadUsage C w.service.files = .ok w.service.usage) ∧
    (∀ request price nowMs utcNow, wp (reserveOrder C Z R request price nowMs utcNow)
      (fun r s => r.counted = true → loadUsage C s.files = .ok s.usage)
      (fun _ s => s.usage = w.service.usage ∧ s.loadError = w.service.loadError) (fun _ => True) w.service) ∧
    ∀ g ∈ w.grants, w.covers g.reservation.key → ∀ nowMs, wp (releaseReservation C g.reservation nowMs)
      (fun _ s => loadUsage C s.files = .ok s.usage) (fun _ _ => True) (fun _ => True) w.service := by
  intro w
  have h : w.Exact C Z config := exact_run he as ha
  refine ⟨fun d hd => ⟨fun hav => ?_, ?_, fun x hx => h.disk hd hx, fun g _ hg nowMs => release_other hg nowMs _⟩,
    h.settled, fun request price nowMs utcNow => ?_, fun g hg ⟨u, hu, hk⟩ nowMs => ?_⟩
  · obtain ⟨hl, hh, -⟩ := h.bounds hav (h.until hd)
    exact ⟨hl, hh⟩
  · cases hu : w.service.usage with
    | none => exact Nat.zero_le _
    | some u =>
      have := (h.ledger u hu).limit
      rw [h.fixed] at this
      simp only [occupied]
      split
      · exact this
      · exact Nat.zero_le _
  · refine wp_mono (wp_reserveOrder request price nowMs utcNow w.service) ?_ ?_ (fun _ _ => trivial)
    · rintro r s (⟨hc, -⟩ | ⟨-, -, -, f, hf, rfl⟩) hr
      -- a reservation that was not counted saves nothing
      · rw [hr] at hc; cases hc
      · exact loadUsage_saved hf
    · rintro v s (rfl | ⟨-, -, f, -, rfl⟩)
      · exact ⟨rfl, rfl⟩
      · exact ⟨rfl, rfl⟩
  · refine wp_mono (wp_releaseReservation g.reservation nowMs w.service) ?_ (fun _ _ _ => trivial) (fun _ _ => trivial)
    rintro _ s (⟨hno, -⟩ | ⟨v, -, -, f, hf, rfl⟩)
    -- the ledger has the key of the reservation, so the release finds it
    · exact absurd hk (hno (h.counted g hg) u hu)
    · exact loadUsage_saved hf

/-! ## A run -/

namespace RiskSample

deriving instance Countable for RiskUsage

/-- The early morning of 21 July in Shanghai. -/
def now : ℕ := 1784565000000

/-- The ledger of that day with so many orders. -/
def usageOf (occupied : ℕ) : RiskUsage := ⟨1, "2026-07-21", "Asia/Shanghai", occupied, now⟩

def usage : RiskUsage := usageOf 1

def usageText (occupied : ℕ) : Bytes :=
  ("\n".intercalate ["schema_version = 1", "trading_day = \"2026-07-21\"", "timezone = \"Asia/Shanghai\"",
    "occupied_orders = " ++ toString occupied, "updated_at_ms = 1784565000000", ""]).toUTF8.data.toList

def usageTexts : List (RiskUsage × Bytes) := [0, 1, 2, 3].map fun n => (usageOf n, usageText n)

noncomputable def codec : UsageCodec :=
  letI := Encodable.ofCountable RiskUsage
  let C : Codec RiskUsage fun _ => true := .ofTable _ usageTexts ⟨by decide +kernel, by decide +kernel⟩
  { encode := fun u => some (C.encode u)
    decode := C.decode
    decode_encode := by
      rintro u b ⟨⟩
      exact C.decode_of_wire rfl
    decode_torn := by
      rintro u b k t ⟨⟩ h
      rcases C.decode_take u k with hn | hs
      · rw [hn] at h; cases h
      · rw [hs] at h; exact ⟨u.updatedAtMs, (Option.some.inj h).symm⟩ }

/-- Two zones, and the names of two days. -/
def calendar : Calendar where
  isTimezone tz := tz == "UTC" || tz == "Asia/Shanghai"
  instant ms := some ms
  date tz ms := (ms + if tz = "Asia/Shanghai" then 28800000 else 0) / 86400000
  format d := if d = 20654 then "2026-07-20" else if d = 20655 then "2026-07-21"
    else String.ofList (List.replicate (Encodable.encode d) '0')
  format_inj := by
    have hday : ∀ (n : ℕ) (c : Char) (s : String), c ∈ s.toList → c ≠ '0' → String.ofList (List.replicate n '0') ≠ s := by
      intro n c s hc hne he
      rw [← he, String.toList_ofList] at hc
      exact hne (List.eq_of_mem_replicate hc)
    intro d e h
    simp only at h
    split_ifs at h with h1 h2 h3 h4 h5 h6 h7 h8
    · rw [h1, h2]
    · exact absurd h (by decide)
    · exact absurd h.symm (hday _ '2' _ (by decide) (by decide))
    · exact absurd h (by decide)
    · rw [h4, h6]
    · exact absurd h.symm (hday _ '2' _ (by decide) (by decide))
    · exact absurd h (hday _ '2' _ (by decide) (by decide))
    · exact absurd h (hday _ '2' _ (by decide) (by decide))
    · have := congrArg List.length (congrArg String.toList h)
      simp only [String.toList_ofList, List.length_replicate] at this
      exact Encodable.encode_injective this

def config (limit : ℕ) (timezone : String) : RiskConfig := ⟨"100", "5", limit, timezone, true⟩

def request : PlaceOrderRequest where
  symbol := "BTCUSDT"
  side := "Buy"
  orderType := "Market"
  qty := "1"
  positionIdx := 1
  price := none
  timeInForce := none
  orderLinkId := none
  reduceOnly := none
  protection := none

def decimals : RiskDecimals := ⟨Fixed.Decimal.ofString, fun _ _ => 0⟩

/-- A reservation made now, by calls that go through. -/
def reserve : RiskAct := .reserve request none now 0 []

theorem valid (limit : ℕ) (timezone : String) :
    RiskService.validateOrder decimals (config limit timezone) request none = .ok () := by
  have one : Fixed.Decimal.ofString "1" = some ⟨1, 0, by decide, by decide⟩ := by decide +kernel
  have hundred : Fixed.Decimal.ofString "100" = some ⟨100, 0, by decide, by decide⟩ := by decide +kernel
  have hle : 0 < (⟨1, 0, by decide, by decide⟩ : Fixed.Decimal) ∧
      (⟨1, 0, by decide, by decide⟩ : Fixed.Decimal) ≤ ⟨100, 0, by decide, by decide⟩ := by decide
  simpa [RiskService.validateOrder, decimals, config, request, one, hundred, okOr, ensure] using hle

/-- A reservation the limit has room for is granted. -/
theorem step_reserve {w : RiskWorld} (limit : ℕ) (timezone : String) (hc : w.service.config = config limit timezone)
    (ha : w.service.loadError = none) (hl : occupied w.service.usage (w.service.keyAt calendar now 0) < limit) :
    ∃ f, w.step codec calendar decimals reserve =
        ({ w with today := some (tradingDay calendar now 0 (w.service.zone calendar)) } : RiskWorld).grant
          ⟨(w.service.keyAt calendar now 0).1, (w.service.keyAt calendar now 0).2, true⟩
          { w.service with usage := some (w.service.reserved (w.service.keyAt calendar now 0) now), files := f } ∧
      Saved codec (w.service.reserved (w.service.keyAt calendar now 0) now) f ∧
      (w.service.files.get .main = none → f.get .bak = none) := by
  have ho : w.service.Open (w.service.keyAt calendar now 0) now :=
    ⟨by rw [hc]; rfl, ha, by rw [reserved_occupied, hc]; exact hl⟩
  obtain ⟨f, hf, hm, hb⟩ : ∃ f, reserveOrder codec calendar decimals request none now 0 w.service [] = _ ∧ _ :=
    reserveOrder_run (hc ▸ valid limit timezone) (by decide) ho rfl
  refine ⟨f, ?_, ⟨_, rfl, hm⟩, hb⟩
  show w.reserve codec calendar decimals request none now 0 [] = _
  unfold RiskWorld.reserve
  simp only [hf, if_true]

theorem init_service (limit : ℕ) (timezone : String) :
    (init codec (config limit timezone)).service = ⟨config limit timezone, none, none, ⟨∅, []⟩⟩ := by
  have hload : loadUsage codec ⟨∅, []⟩ = .ok none := loadUsage_empty fun n => by rfl
  simp only [init, withStore, config, if_true, loaded, hload]

end RiskSample

/-- A release that fails half way. -/
theorem release_halfway {C : UsageCodec} {w : RiskWorld} {i : ℕ} (nowMs : ℕ) {g : Grant} {u : RiskUsage} {b c : Bytes}
    (hg : w.grants[i]? = some g) (hu : w.service.usage = some u) (hk : u.key = g.reservation.key)
    (hc : g.reservation.counted = true) (hb : C.encode (freed u nowMs) = some b) (hm : w.service.files.get .main = some c)
    (hbak : w.service.files.get .bak = none) :
    ∃ f, w.release C i nowMs halfway = { w with
          service := { w.service with files := f }
          failedReleases := g.reservation.key :: w.failedReleases } ∧
      f.get .main = none ∧ f.get .tmp = some b := by
  obtain ⟨f, hf, hmain, htmp⟩ := save_halfway hb hm hbak
  refine ⟨f, ?_, hmain, htmp⟩
  have hrel : releaseReservation C g.reservation nowMs w.service halfway =
      .err (.storage "io") { w.service with files := f } [] := by
    unfold releaseReservation
    have hget : (Io.get : Io RiskService AppError RiskService) w.service halfway = .ok w.service w.service halfway := rfl
    rw [if_neg (by simp [hc]), Io.bind_of_ok hget, hu]
    simp only
    rw [RiskUsage.key, RiskReservation.key, Prod.mk.injEq] at hk
    rw [if_neg (by simp [hk.1, hk.2])]
    exact Io.bind_of_err (Io.within_of_err hf)
  unfold RiskWorld.release
  rw [hg]
  simp only [hrel]

namespace RiskSample

/-- The first reservation. -/
theorem reserved : ∃ f,
    (step codec calendar decimals (init codec (config 1 "Asia/Shanghai")) reserve).service =
      ⟨config 1 "Asia/Shanghai", some usage, none, f⟩ ∧
    (step codec calendar decimals (init codec (config 1 "Asia/Shanghai")) reserve).grants =
      [⟨⟨"2026-07-21", "Asia/Shanghai", true⟩, 1, 1, false⟩] ∧
    Saved codec usage f ∧ f.get .bak = none := by
  obtain ⟨f, hf, hs, hbak⟩ := step_reserve (w := init codec (config 1 "Asia/Shanghai")) 1 "Asia/Shanghai" (by rw [init_service])
    (by rw [init_service]) (by rw [init_service]; decide)
  rw [init_service] at hf hs hbak
  refine ⟨f, ?_, ?_, hs, hbak rfl⟩
  · rw [hf]; rfl
  · rw [hf]
    unfold RiskWorld.grant
    simp only
    rfl

end RiskSample

/-- Three orders a day: a reservation, one whose save fails half way, the next process, a third
reservation and the release of the first. -/
def halfReserved : List RiskAct :=
  [RiskSample.reserve, .reserve RiskSample.request none RiskSample.now 0 halfway, .restart, RiskSample.reserve,
    .release 0 RiskSample.now []]

noncomputable def halfReservedWorld : RiskWorld :=
  run (step RiskSample.codec RiskSample.calendar RiskSample.decimals) (init RiskSample.codec (RiskSample.config 3 "Asia/Shanghai"))
    halfReserved

/-- The start takes up what the failed call had written, so two are counted and one is outstanding. -/
theorem daily_ledger_half_reserved :
    let w := halfReservedWorld
    let key := ("2026-07-21", "Asia/Shanghai")
    (w.outstanding key = 1 ∧ occupied w.service.usage key = 2 ∧ w.raised.count key = 1) ∧
      occupied w.service.usage key ≤ w.outstanding key + w.raised.count key ∧
      loadUsage RiskSample.codec w.service.files = .ok w.service.usage := by
  have hcounts : halfReservedWorld.outstanding ("2026-07-21", "Asia/Shanghai") = 1 ∧
      occupied halfReservedWorld.service.usage ("2026-07-21", "Asia/Shanghai") = 2 ∧
      halfReservedWorld.raised.count ("2026-07-21", "Asia/Shanghai") = 1 := by decide +kernel
  have hkey : (RiskSample.calendar.format 20655, halfReservedWorld.service.zone RiskSample.calendar) =
      ("2026-07-21", "Asia/Shanghai") := by decide +kernel
  have hopen : halfReservedWorld.service.loadError.isNone = true ∧ halfReservedWorld.failedReserves = [] ∧
      halfReservedWorld.failedReleases = [] ∧ ∀ t ∈ halfReservedWorld.today, t ≤ 20655 := by decide +kernel
  have h := daily_ledger RiskSample.codec RiskSample.calendar RiskSample.decimals (RiskSample.config 3 "Asia/Shanghai") rfl
    halfReserved (by decide +kernel)
  rw [← halfReservedWorld] at h
  generalize halfReservedWorld = w at hcounts hkey hopen h
  obtain ⟨hnone, hreserves, hreleases, htoday⟩ := hopen
  have hnone := Option.isNone_iff_eq_none.1 hnone
  have hcount := ((h.1 20655 htoday).1 hnone).2
  rw [hkey] at hcount
  exact ⟨hcounts, hcount, h.2.1 hnone hreserves hreleases⟩

/-- A release whose last two renames fail: the reservation is still outstanding, and
the ledger on disk, which the next process takes up, counts none. -/
theorem release_undercounts :
    let w := run (step RiskSample.codec RiskSample.calendar RiskSample.decimals)
      (init RiskSample.codec (RiskSample.config 1 "Asia/Shanghai"))
      [RiskSample.reserve, .release 0 RiskSample.now halfway]
    w.outstanding ("2026-07-21", "Asia/Shanghai") = 1 ∧
    (∃ u, loadUsage RiskSample.codec w.service.files = .ok (some u) ∧ u.key = ("2026-07-21", "Asia/Shanghai") ∧
      u.occupiedOrders = 0) ∧
    occupied (w.step RiskSample.codec RiskSample.calendar RiskSample.decimals .restart).service.usage
      ("2026-07-21", "Asia/Shanghai") = 0 := by
  obtain ⟨f, hs, hg, ⟨c, -, hm⟩, hbak⟩ := RiskSample.reserved
  obtain ⟨f', hr, hm', ht⟩ := release_halfway (C := RiskSample.codec) RiskSample.now
    (w := step RiskSample.codec RiskSample.calendar RiskSample.decimals
      (init RiskSample.codec (RiskSample.config 1 "Asia/Shanghai")) RiskSample.reserve) (i := 0)
    (by rw [hg]; rfl) (by rw [hs]) rfl rfl rfl (by rw [hs]; exact hm) (by rw [hs]; exact hbak)
  have hload : loadUsage RiskSample.codec f' = .ok (some (freed RiskSample.usage RiskSample.now)) := by
    rw [loadUsage_tmp hm' ht, readText_eq_ok]
    exact ⟨_, RiskSample.codec.decode_encode _ _ rfl, rfl⟩
  intro w
  have hw : w = RiskWorld.release RiskSample.codec (step RiskSample.codec RiskSample.calendar RiskSample.decimals
      (init RiskSample.codec (RiskSample.config 1 "Asia/Shanghai")) RiskSample.reserve) 0 RiskSample.now halfway := rfl
  rw [hr] at hw
  rw [hw]
  refine ⟨?_, ⟨_, hload, rfl, rfl⟩, ?_⟩
  · simp only [RiskWorld.outstanding, hg]
    decide
  · show occupied (RiskWorld.start _ _ f').service.usage _ = 0
    rw [start_service (by simp only [hs]; rfl)]
    simp only [loaded, hload]
    decide

end EasiFlux
