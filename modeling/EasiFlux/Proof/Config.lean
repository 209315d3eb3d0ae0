import Mathlib.Tactic.DeriveCountable
import EasiFlux.Model.Config

/-!
# What a load finds

`Left` lists what a save leaves of the files, however it ends: the main file is as
it was, or new, or missing with the new text in the temporary file and the old one
in the backup. Only a save that finds no main file and is cut short while it
writes leaves less (`Left.torn`). `Held` is the invariant: the main file, or else
whatever of the two copies can be read, is a configuration of the recent ones.

* `ConfigRun.step_held`: one call keeps it.
* `never_mixed`: what is loaded after any calls.
-/

namespace EasiFlux.Storage

open CrashIo Results Steps Storage.ConfigPersistence

variable {F : Type} [One F] {m : ConfigDir} {b : Bytes}

/-- What a save of the text `b` leaves of the files `f`; `cut` is where its write is cut. -/
inductive Left (b : Bytes) (cut : Option ℕ) (f f' : ConfigPath → Option Bytes) : Prop
  | main (h : f .main ≠ none) (main : f' .main = f .main)
  | same (files : f' = f)
  | torn (k : ℕ) (h : f .main = none) (hk : cut = some k) (files : f' = Function.update f .temp (some (b.take k)))
  | staged (h : f .main = none) (files : f' = Function.update f .temp (some b))
  | aside (a : Bytes) (h : f .main = some a) (main : f' .main = none) (temp : f' .temp = some b)
      (backup : f' .backup = some a)
  | done (main : f' .main = some b)

namespace ConfigPersistence

variable {cut : Option ℕ} {f : ConfigPath → Option Bytes}

theorem wp_removeOldBackup {Q : Unit → ConfigDir → Prop} {E : IoErr → ConfigDir → Prop} {D : ConfigDir → Prop}
    (hQ : ∀ m', m'.get .main = m.get .main → m'.get .temp = m.get .temp → Q () m')
    (hE : ∀ e, E e m) (hD : ∀ m', m'.get .main = m.get .main → D m') : wp removeOldBackup Q E D m := by
  unfold removeOldBackup
  refine wp_bind (wp_attempt.2 (wp_remove ?_ ?_ ?_ (hD m rfl)))
  · intro _
    have h1 : (m.unlink .backup).get .main = m.get .main := Machine.get_unlink_ne m (by decide)
    have h2 : (m.unlink .backup).get .temp = m.get .temp := Machine.get_unlink_ne m (by decide)
    exact ⟨wp_pure.2 (hQ _ h1 h2), hD _ h1⟩
  · intro _
    exact wp_pure.2 (hQ m rfl rfl)
  · exact wp_throw.2 (hE _)

/-- The old main file `a` is put aside and the new one is in place of the temporary one. -/
theorem wp_installTemp {a : Bytes} (h : f .main = some a) (hm : m.get .main = none) (ht : m.get .temp = some b)
    (hb : m.get .backup = some a) :
    wp installTemp (fun _ m' => m'.get .main = some b) (fun _ m' => Left b cut f m'.get)
      (fun m' => Left b cut f m'.get) m := by
  have haside : Left b cut f m.get := .aside a h hm ht hb
  -- putting the old file back
  have hback : ∀ e, wp (Io.ignore (rename .backup .main) >>= fun _ => Io.throw e : ConfigIo Unit)
      (fun _ m' => m'.get .main = some b) (fun _ m' => Left b cut f m'.get) (fun m' => Left b cut f m'.get) m := by
    intro e
    refine wp_bind (wp_ignore.2 (wp_rename ?_ (fun _ => wp_throw.2 haside) (wp_throw.2 haside) haside))
    intro c hc
    have hca : c = a := Option.some.inj (hc.symm.trans hb)
    have hmain : (m.move .backup .main c).get .main = f .main := by
      rw [Machine.get_move _ _ _ _ _ (by decide), if_pos rfl, hca, h]
    have hleft : Left b cut f (m.move .backup .main c).get := .main (by rw [h]; exact Option.some_ne_none a) hmain
    exact ⟨wp_throw.2 hleft, hleft⟩
  unfold installTemp
  refine wp_bind (wp_attempt.2 (wp_rename ?_ (fun _ => hback _) (hback _) haside))
  intro c hc
  have hcb : c = b := Option.some.inj (hc.symm.trans ht)
  have hmain : (m.move .temp .main c).get .main = some b := by
    rw [Machine.get_move _ _ _ _ _ (by decide), if_pos rfl, hcb]
  exact ⟨wp_pure.2 hmain, .done hmain⟩

theorem wp_replaceExistingMain {a : Bytes} (h : f .main = some a) (hm : m.get .main = some a) (ht : m.get .temp = some b) :
    wp replaceExistingMain (fun _ m' => m'.get .main = some b) (fun _ m' => Left b cut f m'.get)
      (fun m' => Left b cut f m'.get) m := by
  have hkeep : ∀ m' : ConfigDir, m'.get .main = some a → Left b cut f m'.get := by
    intro m' hm'
    exact .main (by rw [h]; exact Option.some_ne_none a) (hm'.trans h.symm)
  unfold replaceExistingMain
  refine wp_bind (wp_removeOldBackup ?_ (fun _ => hkeep m hm) (fun m' h1 => hkeep m' (h1.trans hm)))
  intro m₁ h1 t1
  have hm₁ : m₁.get .main = some a := h1.trans hm
  refine wp_bind (wp_rename ?_ (fun _ => hkeep m₁ hm₁) (hkeep m₁ hm₁) (hkeep m₁ hm₁))
  intro c hc
  have hca : c = a := Option.some.inj (hc.symm.trans hm₁)
  have hget : ∀ n, (m₁.move .main .backup c).get n =
      if n = .backup then some c else if n = .main then none else m₁.get n :=
    fun n => Machine.get_move _ _ _ _ _ (by decide)
  have hmain : (m₁.move .main .backup c).get .main = none := by rw [hget]; rfl
  have htemp : (m₁.move .main .backup c).get .temp = some b := by
    rw [hget, if_neg (by decide), if_neg (by decide), t1, ht]
  have hbackup : (m₁.move .main .backup c).get .backup = some a := by rw [hget, if_pos rfl, hca]
  exact ⟨wp_installTemp h hmain htemp hbackup, .aside a h hmain htemp hbackup⟩

/-- The rest of a save whose text is in the temporary file. -/
theorem wp_replaceMain (h : m.get = Function.update f .temp (some b)) :
    wp replaceMain (fun _ m' => m'.get .main = some b) (fun _ m' => Left b cut f m'.get)
      (fun m' => Left b cut f m'.get) m := by
  have hm : m.get .main = f .main := by rw [h, Function.update_of_ne (by decide)]
  have ht : m.get .temp = some b := by rw [h, Function.update_self]
  have hwritten : Left b cut f m.get := by
    cases hf : f .main with
    | none => exact .staged hf h
    | some a => exact .main (by rw [hf]; exact Option.some_ne_none a) hm
  unfold replaceMain
  refine wp_bind (wp_attempt.2 (wp_stat ?_ ?_ (wp_throw.2 hwritten) hwritten))
  · intro hs
    obtain ⟨a, ha⟩ := Option.isSome_iff_exists.1 hs
    exact wp_replaceExistingMain (hm.symm.trans ha) ha ht
  · intro hn
    refine wp_rename ?_ (fun _ => hwritten) hwritten hwritten
    intro c hc
    have hcb : c = b := Option.some.inj (hc.symm.trans ht)
    have hmain : (m.move .temp .main c).get .main = some b := by
      rw [Machine.get_move _ _ _ _ _ (by decide), if_pos rfl, hcb]
    exact ⟨hmain, .done hmain⟩

/-- The files with the first `k` bytes of the new text in the temporary one. -/
theorem get_written (m : ConfigDir) (b : Bytes) (k : ℕ) :
    ((m.set .temp []).append .temp b k).get = Function.update m.get .temp (some (b.take k)) := by
  rw [Machine.get_append_eq _ _ _ [] _ (Machine.get_set_self m .temp []), Machine.get_set_eq, Function.update_idem,
    List.nil_append]

/-- A write that is cut short. -/
theorem Left.of_torn {k : ℕ} {f' : ConfigPath → Option Bytes} (hk : cut = some k)
    (h : f' = Function.update f .temp (some (b.take k))) : Left b cut f f' := by
  cases hf : f .main with
  | none => exact .torn k hf hk h
  | some a => exact .main (by rw [hf]; exact Option.some_ne_none a) (by rw [h, Function.update_of_ne (by decide)])

/-- The text is written and nothing else happened. -/
theorem Left.of_written {f' : ConfigPath → Option Bytes} (h : f' = Function.update f .temp (some b)) : Left b cut f f' := by
  cases hf : f .main with
  | none => exact .staged hf h
  | some a => exact .main (by rw [hf]; exact Option.some_ne_none a) (by rw [h, Function.update_of_ne (by decide)])

/-- How a save of `b` from the files `f` may end, when its write is cut at `cut`. -/
def Ended (b : Bytes) (cut : Option ℕ) (f : ConfigPath → Option Bytes) : Outcome ConfigDir IoErr Unit → Prop
  | .ok _ m' _ => m'.get .main = some b
  | .err _ m' _ => Left b cut f m'.get
  | .crashed m' => Left b cut f m'.get

theorem ended_replaceMain {m₁ : ConfigDir} (h : m₁.get = Function.update f .temp (some b)) (fs : List Fault) :
    Ended b cut f (replaceMain m₁ fs) := by
  have hw : wp replaceMain (fun _ m' => m'.get .main = some b) (fun _ m' => Left b cut f m'.get)
      (fun m' => Left b cut f m'.get) m₁ := wp_replaceMain h
  have hw := hw fs
  cases hr : replaceMain m₁ fs with
  | ok _ _ _ => rw [hr] at hw; exact hw
  | err _ _ _ => rw [hr] at hw; exact hw
  | crashed _ => rw [hr] at hw; exact hw

/-- **What a save leaves**, read off its faults call by call. -/
theorem ended_save (b : Bytes) (m : ConfigDir) (fs : List Fault) : Ended b (torn fs) m.get (save b m fs) := by
  have hfull : ((m.set .temp []).append .temp b b.length).get = Function.update m.get .temp (some b) := by
    rw [get_written, List.take_length]
  have hempty : (m.set .temp []).get = Function.update m.get .temp (some (b.take 0)) := Machine.get_set_eq m .temp []
  -- making the directory
  rcases fs with _ | ⟨_ | n | n, fs⟩
  case cons.fail | cons.crash => exact Left.same rfl
  case nil => exact ended_replaceMain hfull []
  -- opening the file
  rcases fs with _ | ⟨_ | n | _ | n, fs⟩
  case nil => exact ended_replaceMain hfull []
  case cons.fail => exact Left.same rfl
  case cons.crash.zero => exact Left.same rfl
  case cons.crash.succ => exact Left.of_torn rfl hempty
  -- the write
  rcases fs with _ | ⟨_ | k | k, fs⟩
  case nil => exact ended_replaceMain hfull []
  case cons.fail | cons.crash => exact Left.of_torn rfl (get_written m b k)
  -- the sync
  rcases fs with _ | ⟨_ | n | n, fs⟩
  case nil => exact ended_replaceMain hfull []
  case cons.pass => exact ended_replaceMain hfull fs
  case cons.fail | cons.crash => exact Left.of_written hfull

end ConfigPersistence

/-! ## The configuration kept -/

variable {T : TomlText F} {recent : List (AppConfig F)} {acked : Bool} {config : AppConfig F}
  {f f' : ConfigPath → Option Bytes}

/-- What a load may answer. -/
def Allowed (recent : List (AppConfig F)) (acked : Bool) (config : AppConfig F) : Prop :=
  config ∈ recent ∨ (acked = false ∧ config = AppConfig.default)

/-- The file, if it is there and can be read, holds such a configuration. -/
def Reads (T : TomlText F) (P : AppConfig F → Prop) (file : Option Bytes) : Prop :=
  ∀ b t, file = some b → T.fromStr b = some t → P t.toApp

/-- The main file holds a recent configuration. While it is missing the temporary file
holds what a load may answer, and the backup a recent configuration; there is a
backup once a save was acknowledged. -/
inductive Held (T : TomlText F) (recent : List (AppConfig F)) (acked : Bool) (f : ConfigPath → Option Bytes) : Prop
  | main (b : Bytes) (config : AppConfig F) (h : config ∈ recent) (main : f .main = some b)
      (text : T.toStringPretty (TomlConfig.ofApp config) = some b)
  | missing (main : f .main = none) (temp : Reads T (Allowed recent acked) (f .temp))
      (backup : Reads T (· ∈ recent) (f .backup)) (kept : acked = true → ∃ b config, f .backup = some b ∧
        T.toStringPretty (TomlConfig.ofApp config) = some b)

theorem Allowed.cons (h : Allowed recent acked config) (c : AppConfig F) : Allowed (c :: recent) acked config := by
  rcases h with h | h
  · exact .inl (List.mem_cons_of_mem c h)
  · exact .inr h

theorem Reads.mono {P P' : AppConfig F → Prop} {file : Option Bytes} (h : Reads T P file) (hP : ∀ c, P c → P' c) :
    Reads T P' file := fun b t hb ht => hP _ (h b t hb ht)

/-- The text of a configuration reads as that configuration. -/
theorem reads_text {P : AppConfig F → Prop} (h : T.toStringPretty (TomlConfig.ofApp config) = some b) (hP : P config) :
    Reads T P (some b) := by
  intro b' t hb ht
  obtain rfl := Option.some.inj hb
  rw [T.fromStr_toString _ _ h, Option.some.injEq] at ht
  rw [← ht, TomlConfig.toApp_ofApp]
  exact hP

theorem Held.cons (h : Held T recent acked f) (c : AppConfig F) : Held T (c :: recent) acked f := by
  cases h with
  | main b config h main text => exact .main b config (List.mem_cons_of_mem c h) main text
  | missing main temp backup kept =>
    exact .missing main (temp.mono fun _ h => h.cons c) (backup.mono fun _ h => List.mem_cons_of_mem c h) kept

/-- A save that was not acknowledged. `hcut` speaks of a write that is cut short while the
main file is missing. -/
theorem Held.left {cut : Option ℕ} (h : Held T recent acked f) (hl : Left b cut f f')
    (hb : T.toStringPretty (TomlConfig.ofApp config) = some b)
    (hcut : f .main = none → ∀ k t, cut = some k → T.fromStr (b.take k) = some t →
      Allowed (config :: recent) acked t.toApp) :
    Held T (config :: recent) acked f' := by
  have hmem : config ∈ config :: recent := List.mem_cons_self
  cases hl with
  | main hne main =>
    cases h with
    | main c old h file text => exact .main c old (List.mem_cons_of_mem _ h) (main.trans file) text
    | missing file => exact absurd file hne
  | same files => rw [files]; exact h.cons config
  | torn k hm hk files =>
    -- the temporary file is cut short and nothing else changed
    cases h with
    | main c old h file text => rw [hm] at file; cases file
    | missing file temp backup kept =>
      subst files
      refine .missing (by rw [Function.update_of_ne (by decide)]; exact hm) ?_ ?_ ?_
      · rw [Function.update_self]
        intro b' t hb' ht
        obtain rfl := Option.some.inj hb'
        exact hcut hm k t hk ht
      · rw [Function.update_of_ne (by decide)]
        exact backup.mono fun _ h => List.mem_cons_of_mem _ h
      · rw [Function.update_of_ne (by decide)]
        exact kept
  | staged hm files =>
    cases h with
    | main c old h file text => rw [hm] at file; cases file
    | missing file temp backup kept =>
      subst files
      refine .missing (by rw [Function.update_of_ne (by decide)]; exact hm) ?_ ?_ ?_
      · rw [Function.update_self]
        exact reads_text hb (.inl hmem)
      · rw [Function.update_of_ne (by decide)]
        exact backup.mono fun _ h => List.mem_cons_of_mem _ h
      · rw [Function.update_of_ne (by decide)]
        exact kept
  | aside a hm main temp backup =>
    -- the new text is in the temporary file, the old main file in the backup
    cases h with
    | main c old h file text =>
      obtain rfl : a = c := Option.some.inj (hm.symm.trans file)
      refine .missing main ?_ ?_ (fun _ => ⟨a, old, backup, text⟩)
      · rw [temp]; exact reads_text hb (.inl hmem)
      · rw [backup]; exact reads_text text (List.mem_cons_of_mem _ h)
    | missing file => rw [hm] at file; cases file
  | done main => exact .main b config hmem main hb

/-! ## Loading -/

/-- The first of these files that can be read. -/
def firstRead (T : TomlText F) : List (Option Bytes) → Option (AppConfig F)
  | [] => none
  | file :: files =>
    match file.bind T.fromStr with
    | some t => some t.toApp
    | none => firstRead T files

theorem loadFrom_ok (m : ConfigDir) (cs : List (String × ConfigPath)) (invalid : List String) {r : Option (AppConfig F)}
    {m' : ConfigDir} {rest : List Fault} (h : loadFrom (ConfigStore.parse T) cs invalid m [] = .ok r m' rest) :
    r = firstRead T (cs.map fun c => m.get c.2) ∧ (r = none → invalid = [] ∧ ∀ c ∈ cs, m.get c.2 = none) := by
  induction cs generalizing invalid with
  | nil =>
    cases invalid with
    | nil => cases h; exact ⟨rfl, fun _ => ⟨rfl, by simp⟩⟩
    | cons _ _ => cases h
  | cons c cs ih =>
    obtain ⟨label, name⟩ := c
    cases hg : m.get name with
    | none =>
      have hstep : loadFrom (ConfigStore.parse T) ((label, name) :: cs) invalid m [] =
          loadFrom (ConfigStore.parse T) cs invalid m [] := by
        simp [loadFrom, Io.attempt, stat, look, Io.call, hg, bind, Io.bind]
      obtain ⟨h1, h2⟩ := ih invalid (hstep ▸ h)
      refine ⟨by simpa [firstRead, hg] using h1, fun hr => ⟨(h2 hr).1, ?_⟩⟩
      intro d hd
      rcases List.mem_cons.1 hd with rfl | hd
      · exact hg
      · exact (h2 hr).2 d hd
    | some b =>
      cases ht : T.fromStr b with
      | some t =>
        have hstep : loadFrom (ConfigStore.parse T) ((label, name) :: cs) invalid m [] = .ok (some t.toApp) m [] := by
          simp [loadFrom, Io.attempt, stat, CrashIo.read, look, Io.call, hg, bind, Io.bind, ConfigStore.parse, ht, okOr, pure,
            Io.pure, Except.bind, Except.pure]
        rw [hstep] at h
        cases h
        exact ⟨by simp [firstRead, hg, ht], fun hr => by cases hr⟩
      | none =>
        have hstep : loadFrom (ConfigStore.parse T) ((label, name) :: cs) invalid m [] =
            loadFrom (ConfigStore.parse T) cs (invalid ++ [label]) m [] := by
          simp [loadFrom, Io.attempt, stat, CrashIo.read, look, Io.call, hg, bind, Io.bind, ConfigStore.parse, ht, okOr,
            Except.bind]
        obtain ⟨h1, h2⟩ := ih _ (hstep ▸ h)
        exact ⟨by simpa [firstRead, hg, ht] using h1, fun hr => absurd (h2 hr).1 (by simp)⟩

theorem Held.load (h : Held T recent acked m.get) {m' : ConfigDir} {rest : List Fault}
    (hl : ConfigStore.load T m [] = .ok config m' rest) : Allowed recent acked config := by
  have hloop : ∃ r, loadFrom (ConfigStore.parse T) candidates [] m [] = .ok r m' rest ∧ config = r.getD AppConfig.default := by
    unfold ConfigStore.load ConfigPersistence.load at hl
    cases hr : loadFrom (ConfigStore.parse T) candidates [] m [] with
    | ok r _ _ => rw [Io.bind_of_ok hr] at hl; cases hl; exact ⟨r, rfl, rfl⟩
    | err _ _ _ => rw [Io.bind_of_err hr] at hl; cases hl
    | crashed _ => rw [Io.bind_of_crashed hr] at hl; cases hl
  obtain ⟨r, hr, rfl⟩ := hloop
  obtain ⟨hfirst, hnone⟩ := loadFrom_ok m candidates [] hr
  simp only [candidates, List.map_cons, List.map_nil] at hfirst
  cases h with
  | main b c hc main text =>
    rw [firstRead, main, Option.bind_some, T.fromStr_toString _ _ text] at hfirst
    subst hfirst
    exact .inl (by simpa using hc)
  | missing main temp backup kept =>
    rw [firstRead, main, Option.bind_none] at hfirst
    -- the temporary file, then the backup
    simp only [firstRead] at hfirst
    cases ht : (m.get .temp).bind T.fromStr with
    | some t =>
      rw [ht] at hfirst
      subst hfirst
      obtain ⟨b, hb, hbt⟩ := Option.bind_eq_some_iff.1 ht
      exact temp b t hb hbt
    | none =>
      rw [ht] at hfirst
      cases hk : (m.get .backup).bind T.fromStr with
      | some t =>
        rw [hk] at hfirst
        subst hfirst
        obtain ⟨b, hb, hbt⟩ := Option.bind_eq_some_iff.1 hk
        exact .inl (backup b t hb hbt)
      | none =>
        -- nothing is there, so nothing was ever acknowledged
        rw [hk] at hfirst
        subst hfirst
        have hempty := (hnone rfl).2 ("备份", .backup) (by simp [candidates])
        refine .inr ⟨?_, rfl⟩
        cases hacked : acked with
        | false => rfl
        | true =>
          obtain ⟨b, c, hb, -⟩ := kept hacked
          rw [hempty] at hb
          cases hb

theorem load_state (T : TomlText F) (m : ConfigDir) : (ConfigStore.load T m []).state.get = m.get := by
  have hloop : ∀ (cs : List (String × ConfigPath)) (invalid : List String),
      wp (loadFrom (ConfigStore.parse T) cs invalid) (fun _ m' => m'.get = m.get) (fun _ m' => m'.get = m.get)
        (fun m' => m'.get = m.get) m := by
    intro cs
    induction cs with
    | nil =>
      intro invalid
      cases invalid with
      | nil => exact wp_pure.2 rfl
      | cons _ _ => exact wp_throw.2 rfl
    | cons c cs ih =>
      intro invalid
      obtain ⟨label, name⟩ := c
      refine wp_bind (wp_attempt.2 (wp_stat (fun _ => ?_) (fun _ => ih invalid) (ih _) rfl))
      refine wp_bind (wp_attempt.2 (wp_read (fun b _ => ?_) (fun _ => ih _) (ih _) rfl))
      dsimp only
      split
      · exact wp_pure.2 rfl
      · exact ih _
  exact wp_state (wp_bind (wp_mono (hloop candidates []) (fun _ _ h => wp_pure.2 h) (fun _ _ h => h) (fun _ h => h))) []

/-! ## Runs -/

variable {w : ConfigRun F}

/-- The files of the run hold what they should. -/
def ConfigRun.Held (T : TomlText F) (w : ConfigRun F) : Prop := Storage.Held T w.recent w.acked w.dir.get

theorem ConfigRun.init_held (T : TomlText F) : (ConfigRun.init : ConfigRun F).Held T :=
  .missing rfl (fun _ _ h => by cases h) (fun _ _ h => by cases h) (fun h => by cases h)

/-- **One call keeps the configuration.** -/
theorem ConfigRun.step_held (w : ConfigRun F) (c : StoreCall (AppConfig F) × List Fault) (h : w.Held T) (hw : w.Whole T c) :
    (w.step T c).Held T := by
  obtain ⟨call, fs⟩ := c
  cases call with
  | load =>
    have hget : (w.step T (.load, fs)).dir.get = w.dir.get := load_state T w.dir
    show Storage.Held T w.recent w.acked _
    rw [hget]
    exact h
  | save config =>
    cases ht : T.toStringPretty (TomlConfig.ofApp config) with
    | none =>
      -- the configuration has no text
      have hs : ConfigStore.save T config w.dir fs = .err (.config "toml") w.dir fs := by
        unfold ConfigStore.save; rw [ht]; rfl
      unfold ConfigRun.step ConfigRun.Held
      dsimp only
      rw [hs]
      exact Storage.Held.cons h config
    | some b =>
      have hs : ConfigStore.save T config w.dir fs =
          Io.mapErr (fun _ => .internal "io") (ConfigPersistence.save b) w.dir fs := by
        unfold ConfigStore.save; rw [ht]; rfl
      have hcut : w.dir.get .main = none → ∀ k t, torn fs = some k → T.fromStr (b.take k) = some t →
          Allowed (config :: w.recent) w.acked t.toApp := by
        intro hm k t hk hr
        rcases hw hm k b t hk ht hr with heq | hdefault
        · exact .inl (by rw [heq]; exact List.mem_cons_self)
        · exact .inr hdefault
      have hend := ended_save b w.dir fs
      unfold ConfigRun.step ConfigRun.Held
      dsimp only
      rw [hs]
      unfold Io.mapErr
      cases hr : ConfigPersistence.save b w.dir fs with
      | ok _ m' _ => rw [hr] at hend; exact .main b config List.mem_cons_self hend ht
      | err _ m' _ => rw [hr] at hend; exact Storage.Held.left h hend ht hcut
      | crashed m' => rw [hr] at hend; exact Storage.Held.left h hend ht hcut

/-- **Configuration is never mixed, reset or rolled back**, in every run no save of which
is cut short in the temporary file, with the main file missing, at a point where the
text reads as something else: what is loaded was passed to a save, not before the
last one acknowledged, or is the default one when none was. -/
theorem never_mixed (T : TomlText F) (calls : List (StoreCall (AppConfig F) × List Fault))
    (h : Along (ConfigRun.step T) (ConfigRun.Whole T) ConfigRun.init calls) {config : AppConfig F} {dir : ConfigDir}
    {rest : List Fault} (hl : ConfigStore.load T (ConfigRun.after T calls).dir [] = .ok config dir rest) :
    config ∈ (ConfigRun.after T calls).recent ∨
      ((ConfigRun.after T calls).acked = false ∧ config = AppConfig.default) :=
  Held.load (run_inv_along (fun w c hw hc => w.step_held c hw hc) calls _ (ConfigRun.init_held T) h) hl

/-! ## A run that meets the defect -/

section Runs

variable {a : Bytes}

theorem saved_of {w : ConfigRun F} {fs rest : List Fault} (ht : T.toStringPretty (TomlConfig.ofApp config) = some b)
    {m' : ConfigDir} (hs : ConfigPersistence.save b w.dir fs = .ok () m' rest) :
    w.step T (.save config, fs) = ⟨m', [config], true⟩ := by
  have h : ConfigStore.save T config w.dir fs = .ok () m' rest := by
    unfold ConfigStore.save; rw [ht]; exact Io.mapErr_of_ok hs
  unfold ConfigRun.step
  dsimp only
  rw [h]

theorem died_of {w : ConfigRun F} {fs : List Fault} (ht : T.toStringPretty (TomlConfig.ofApp config) = some b)
    {m' : ConfigDir} (hs : ConfigPersistence.save b w.dir fs = .crashed m') :
    w.step T (.save config, fs) = ⟨m', config :: w.recent, w.acked⟩ := by
  have h : ConfigStore.save T config w.dir fs = .crashed m' := by
    unfold ConfigStore.save; rw [ht]
    show Io.mapErr _ (ConfigPersistence.save b) w.dir fs = _
    unfold Io.mapErr; rw [hs]
  unfold ConfigRun.step
  dsimp only
  rw [h]

/-- A save that finds no main file and is not disturbed. -/
theorem save_first (hm : m.get .main = none) : ∃ m', ConfigPersistence.save b m [] = .ok () m' [] ∧ m'.get .main = some b := by
  have hw := get_written m b b.length
  have hmain : ((m.set .temp []).append .temp b b.length).get .main = none := by
    rw [hw, Function.update_of_ne (by decide), hm]
  have htemp : ((m.set .temp []).append .temp b b.length).get .temp = some b := by
    rw [hw, Function.update_self, List.take_length]
  refine ⟨((m.set .temp []).append .temp b b.length).move .temp .main b, ?_, ?_⟩
  · have hstat : (Io.attempt (stat .main) : Io ConfigDir IoErr (Except IoErr Unit))
        ((m.set .temp []).append .temp b b.length) [] =
          .ok (.error .notFound) ((m.set .temp []).append .temp b b.length) [] := by
      simp only [Io.attempt, stat, look, Io.call, hmain]
      rfl
    show replaceMain ((m.set .temp []).append .temp b b.length) [] = _
    exact (Io.bind_of_ok hstat).trans (rename_run htemp)
  · rw [Machine.get_move _ _ _ _ _ (by decide)]; rfl

theorem whole_of_uncut {w : ConfigRun F} {fs : List Fault} (h : torn fs = none) : w.Whole T (.save config, fs) := by
  intro _ k _ _ hk
  rw [h] at hk
  cases hk

/-- Every call of a save goes through up to the second renaming, in which the process dies. -/
def betweenRenames : List Fault := List.replicate 7 .pass ++ [.crash 0]

theorem save_betweenRenames (hm : m.get .main = some a) :
    ∃ m', ConfigPersistence.save b m betweenRenames = .crashed m' ∧ m'.get .main = none ∧ m'.get .temp = some b := by
  have hmain : ((m.set .temp []).append .temp b b.length).get .main = some a := by
    rw [get_written, Function.update_of_ne (by decide), hm]
  have htemp : ((m.set .temp []).append .temp b b.length).get .temp = some b := by
    rw [get_written, Function.update_self, List.take_length]
  show ∃ m', replaceMain ((m.set .temp []).append .temp b b.length) [.pass, .pass, .pass, .crash 0] = .crashed m' ∧ _
  generalize (m.set .temp []).append .temp b b.length = m₁ at hmain htemp
  cases hb : m₁.get .backup with
  | none =>
    refine ⟨m₁.move .main .backup a, ?_, ?_, ?_⟩
    · simp [replaceMain, replaceExistingMain, removeOldBackup, installTemp, stat, look, remove, rename, atomic, Io.call,
        Io.attempt, Io.bind, bind, pure, Io.pure, hmain, hb]
    · rw [Machine.get_move _ _ _ _ _ (by decide)]; rfl
    · rw [Machine.get_move _ _ _ _ _ (by decide)]; exact htemp
  | some c =>
    have hmain' : (m₁.unlink .backup).get .main = some a := by rw [Machine.get_unlink_ne m₁ (by decide), hmain]
    have htemp' : (m₁.unlink .backup).get .temp = some b := by rw [Machine.get_unlink_ne m₁ (by decide), htemp]
    refine ⟨(m₁.unlink .backup).move .main .backup a, ?_, ?_, ?_⟩
    · simp [replaceMain, replaceExistingMain, removeOldBackup, installTemp, stat, look, remove, rename, atomic, Io.call,
        Io.attempt, Io.bind, bind, pure, Io.pure, hmain, hb, hmain']
    · rw [Machine.get_move _ _ _ _ _ (by decide)]; rfl
    · rw [Machine.get_move _ _ _ _ _ (by decide)]; exact htemp'

theorem load_temp (hm : m.get .main = none) (hb : m.get .temp = some b)
    (ht : T.toStringPretty (TomlConfig.ofApp config) = some b) : ConfigStore.load T m [] = .ok config m [] := by
  simp [ConfigStore.load, ConfigPersistence.load, loadFrom, candidates, stat, CrashIo.read, look, Io.call, Io.attempt, Io.bind,
    bind, pure, Io.pure, hm, hb, ConfigStore.parse, T.fromStr_toString _ _ ht, okOr, Except.bind, Except.pure]

/-- An empty temporary file and no main file read as the default configuration. -/
theorem load_emptied (hm : m.get .main = none) : ConfigStore.load T (m.set .temp []) [] =
    .ok AppConfig.default (m.set .temp []) [] := by
  have hmain : (m.set .temp []).get .main = none := by rw [Machine.get_set_ne m [] (by decide), hm]
  simp [ConfigStore.load, ConfigPersistence.load, loadFrom, candidates, stat, CrashIo.read, look, Io.call, Io.attempt, Io.bind,
    bind, pure, Io.pure, hmain, ConfigStore.parse, T.fromStr_empty, okOr, Except.bind, Except.pure, TomlConfig.toApp_default]

end Runs

namespace ConfigSample

deriving instance Countable for NotificationSettings

instance countableUInt32 : Countable UInt32 := Function.Injective.countable (f := UInt32.toNat) fun _ _ h => UInt32.toNat_inj.1 h

deriving instance Countable for TomlConfig

noncomputable def texts : TomlText ℕ :=
  letI := Encodable.ofCountable (TomlConfig ℕ)
  let C : Codec (TomlConfig ℕ) fun _ => true := .unary _ _
  { toStringPretty := fun t => some (C.encode t)
    fromStr := fun b => if b = [] then some {} else C.decode b
    fromStr_toString := by
      rintro t b ⟨⟩
      rw [if_neg (by simp [C, Codec.unary, brace]), C.decode_of_wire rfl]
    fromStr_empty := rfl }

def ether : AppConfig ℕ := { AppConfig.default with activeSymbol := "ETHUSDT" }

/-- A configuration is saved; the next save dies between its two renames, and the one
after it when it has opened the temporary file. -/
def calls : List (StoreCall (AppConfig ℕ) × List Fault) :=
  [(.save ether, []), (.save ether, betweenRenames), (.save ether, [.pass, .crash 1])]

/-- The default configuration is loaded, though one was saved. -/
theorem reset_by_third_save : ∃ dir, ConfigStore.load texts (ConfigRun.after texts calls).dir [] = .ok AppConfig.default dir [] ∧
    (ConfigRun.after texts calls).acked = true ∧ (ConfigRun.after texts calls).recent = [ether, ether, ether] ∧
    (AppConfig.default : AppConfig ℕ) ≠ ether := by
  have ht : ∃ b, texts.toStringPretty (TomlConfig.ofApp ether) = some b := ⟨_, rfl⟩
  obtain ⟨b, ht⟩ := ht
  obtain ⟨m₁, h₁, hm₁⟩ := save_first (m := ConfigRun.init.dir (F := ℕ)) (b := b) rfl
  obtain ⟨m₂, h₂, hm₂, -⟩ := save_betweenRenames (b := b) hm₁
  have hafter : ConfigRun.after texts calls = ⟨m₂.set .temp [], [ether, ether, ether], true⟩ := by
    unfold ConfigRun.after calls
    rw [run_cons, saved_of ht h₁, run_cons, died_of ht h₂, run_cons, died_of ht rfl, run_nil]
    rfl
  rw [hafter]
  exact ⟨_, load_emptied hm₂, rfl, rfl, by decide⟩

/-- The first two calls. -/
theorem never_mixed_sample : ether ∈ (ConfigRun.after texts (calls.take 2)).recent ∨
    ((ConfigRun.after texts (calls.take 2)).acked = false ∧ ether = AppConfig.default) := by
  have ht : ∃ b, texts.toStringPretty (TomlConfig.ofApp ether) = some b := ⟨_, rfl⟩
  obtain ⟨b, ht⟩ := ht
  obtain ⟨m₁, h₁, hm₁⟩ := save_first (m := ConfigRun.init.dir (F := ℕ)) (b := b) rfl
  obtain ⟨m₂, h₂, hm₂, hb⟩ := save_betweenRenames (b := b) hm₁
  have hafter : ConfigRun.after texts (calls.take 2) = ⟨m₂, [ether, ether], true⟩ := by
    unfold ConfigRun.after
    rw [show calls.take 2 = [(.save ether, []), (.save ether, betweenRenames)] from rfl, run_cons, saved_of ht h₁, run_cons,
      died_of ht h₂, run_nil]
  have hl : ConfigStore.load texts (ConfigRun.after texts (calls.take 2)).dir [] = .ok ether m₂ [] := by
    rw [hafter]; exact load_temp hm₂ hb ht
  -- neither write is cut short
  have hwhole : Along (ConfigRun.step texts) (ConfigRun.Whole texts) ConfigRun.init (calls.take 2) :=
    ⟨whole_of_uncut rfl, whole_of_uncut rfl, trivial⟩
  exact never_mixed texts (calls.take 2) hwhole hl

end ConfigSample

end EasiFlux.Storage
