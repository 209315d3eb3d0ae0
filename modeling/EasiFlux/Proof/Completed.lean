import EasiFlux.Proof.Dispatch
import EasiFlux.Proof.Sections

/-!
# Completed is terminal

A run that a saved document shows as `Completed` stays so in every document saved
later, is not resumed and dispatches nothing.

* `Over`: what holds of a run once such a document was saved.
* `Terminal`: the invariant, with the trace so far.
* `KeepsCompleted`: no control has its lock section while a completed run is still
  live, and no run is marked `Completed` with an action pending. In both cases the run
  is moved on from `Completed` (`completed_resumed`).
* `completed_terminal`: **in every run that keeps to this, `Completed` is terminal.**
-/

namespace EasiFlux

open Fixed Results World Steps

variable {K : Crates} {w w' : World}

/-! ## Traces -/

/-- The document shows the run as completed. -/
def Shows (id : String) (d : StrategyDocument) : Prop := ∃ r, d.find id = some r ∧ r.view.status = .completed

/-- A saved document of the trace does. -/
def ShowsIn (id : String) (trace : List Event) : Prop := ∃ d, Event.saved d ∈ trace ∧ Shows id d

/-- What may happen after a run is completed. -/
def Event.Respects (id : String) : Event → Prop
  | .saved d => Shows id d
  | .resumed id' => id' ≠ id
  | .handed id' _ _ => id' ≠ id

/-- Every event respects the runs that were completed before it. -/
def TerminalTrace : List Event → Prop
  | [] => True
  | e :: trace => (∀ id, ShowsIn id trace → e.Respects id) ∧ TerminalTrace trace

theorem TerminalTrace.after {post pre : List Event} {d : StrategyDocument} {id : String}
    (h : TerminalTrace (post ++ .saved d :: pre)) (hd : Shows id d) : ∀ e ∈ post, e.Respects id := by
  induction post with
  | nil => exact fun e he => nomatch he
  | cons x post ih =>
    intro e he
    rcases List.mem_cons.1 he with rfl | he
    · exact h.1 id ⟨d, List.mem_append_right _ List.mem_cons_self, hd⟩
    · exact ih h.2 e he

/-! ## The invariant -/

/-- The document shows the run as completed, with nothing pending. -/
def DoneIn (id : String) (d : StrategyDocument) : Prop :=
  ∃ r, d.find id = some r ∧ r.view.status = .completed ∧ r.pending = none

/-- The run does nothing but finish. -/
structure Idles (w : World) (id : String) : Prop where
  finishing : ∀ s ∈ w.live, s.runId = id → s.phase = .finishing
  recovery : ∀ ρ, w.recovery = some ρ → ρ.runId ≠ id

/-- What holds of a run that a saved document showed as completed. -/
structure Over (w : World) (id : String) : Prop where
  stored : ∀ v ∈ w.durable :: w.unacked, DoneIn id v.doc
  memory : w.unavailable = false → DoneIn id w.memory.doc
  idles : Idles w id

structure Terminal (w : World) : Prop where
  fresh : w.unavailable = false → ∀ id r, w.state id = some r → r.view.status = .completed →
    r.pending = none ∧ Idles w id
  ended : ∀ id, ShowsIn id w.trace → Over w id
  trace : TerminalTrace w.trace

/-! ## Worlds that follow one another -/

/-- No run starts, and no recovery: a worker that finishes stays there. -/
structure Follows (w w' : World) : Prop where
  live : ∀ s' ∈ w'.live, ∃ s ∈ w.live, s'.runId = s.runId ∧ (s.phase = .finishing → s'.phase = .finishing)
  recovery : ∀ ρ', w'.recovery = some ρ' → ∃ ρ, w.recovery = some ρ ∧ ρ.runId = ρ'.runId

theorem Follows.of_live (hl : w'.live = w.live) (hr : w'.recovery = w.recovery) : Follows w w' := by
  refine ⟨fun s hs => ⟨s, hl ▸ hs, rfl, id⟩, fun ρ hρ => ⟨ρ, hr ▸ hρ, rfl⟩⟩

theorem Follows.of_map {f : Session → Session} (hl : w'.live = w.live.map f) (hr : w'.recovery = w.recovery)
    (hf : ∀ s ∈ w.live, (f s).runId = s.runId ∧ (s.phase = .finishing → (f s).phase = .finishing)) : Follows w w' := by
  refine ⟨fun s' hs' => ?_, fun ρ hρ => ⟨ρ, hr ▸ hρ, rfl⟩⟩
  rw [hl] at hs'
  obtain ⟨s, hs, rfl⟩ := List.mem_map.1 hs'
  exact ⟨s, hs, hf s hs⟩

theorem Follows.trans {u : World} (h : Follows u w) (h' : Follows w w') : Follows u w' := by
  refine ⟨fun s' hs' => ?_, fun ρ' hρ' => ?_⟩
  · obtain ⟨s, hs, hid, hp⟩ := h'.live s' hs'
    obtain ⟨t, ht, hid', hp'⟩ := h.live s hs
    exact ⟨t, ht, hid.trans hid', fun hf => hp (hp' hf)⟩
  · obtain ⟨ρ, hρ, he⟩ := h'.recovery ρ' hρ'
    obtain ⟨ρ₀, hρ₀, he₀⟩ := h.recovery ρ hρ
    exact ⟨ρ₀, hρ₀, he₀.trans he⟩

theorem Idles.follows {id : String} (h : Idles w id) (hf : Follows w w') : Idles w' id := by
  refine ⟨fun s' hs' hid => ?_, fun ρ' hρ' => ?_⟩
  · obtain ⟨s, hs, he, hp⟩ := hf.live s' hs'
    exact hp (h.finishing s hs (he.symm.trans hid))
  · obtain ⟨ρ, hρ, he⟩ := hf.recovery ρ' hρ'
    rw [← he]
    exact h.recovery ρ hρ

theorem save_follows (K : Crates) (w : World) (next : Version) (i : SaveInput) : Follows w (w.save K next i).1 := by
  have hf := save_frame K w next i
  rcases hf.live with hl | hl
  · exact .of_live hl hf.recovery
  · exact .of_map hl hf.recovery fun s _ => ⟨rfl, id⟩

/-- A step that leaves the documents and the trace. -/
theorem Terminal.quiet (h : Terminal w) (hd : w'.docs = w.docs) (hu : w'.unavailable = w.unavailable)
    (ht : w'.trace = w.trace) (hf : Follows w w') : Terminal w' := by
  have hm : w'.memory = w.memory := congrArg Docs.memory hd
  have hdu : w'.durable = w.durable := congrArg Docs.durable hd
  have hun : w'.unacked = w.unacked := congrArg Docs.unacked hd
  refine ⟨fun hav id r hr hc => ?_, fun id hid => ?_, ht ▸ h.trace⟩
  · obtain ⟨hp, hi⟩ := h.fresh (hu ▸ hav) id r (by rw [← hr]; unfold World.state; rw [hm]) hc
    exact ⟨hp, hi.follows hf⟩
  · have ho := h.ended id (ht ▸ hid)
    refine ⟨?_, fun hav => ?_, ho.idles.follows hf⟩
    · rw [hdu, hun]; exact ho.stored
    · rw [hm]; exact ho.memory (hu ▸ hav)

/-! ## Saves -/

theorem doneIn_prepare {id : String} {next : Version} (h : DoneIn id next.doc) (wall : ℕ) :
    DoneIn id (w.prepare next wall).doc := by
  obtain ⟨r, hr, hc, hp⟩ := h
  refine ⟨w.observe wall r, ?_, ?_, ?_⟩
  · rw [find_prepare, hr]; rfl
  · rw [observe_status]; exact hc
  · rw [pending_of_core (core_observe w wall r)]; exact hp

/-- A record of the document that is offered. -/
theorem prepare_find {id : String} {next : Version} {wall : ℕ} {r : RunRecord}
    (h : (w.prepare next wall).doc.find id = some r) :
    ∃ x, next.doc.find id = some x ∧ x.view.status = r.view.status ∧ x.pending = r.pending := by
  rw [find_prepare] at h
  obtain ⟨x, hx, rfl⟩ := Option.map_eq_some_iff.1 h
  exact ⟨x, hx, (observe_status w wall x).symm, (pending_of_core (core_observe w wall x)).symm⟩

/-- **A save keeps the invariant** when its document keeps the completed runs, and a
run it completes does nothing but finish. -/
theorem Terminal.save {next : Version} {i : SaveInput} (h : Terminal w) (hd : w'.docs = (w.save K next i).1.docs)
    (hu : w'.unavailable = (w.save K next i).1.unavailable) (ht : w'.trace = (w.save K next i).1.trace)
    (hf : Follows w w') (hkeep : w.unavailable = false → ∀ id, DoneIn id w.memory.doc → DoneIn id next.doc)
    (hnew : w.unavailable = false → ∀ id r, next.doc.find id = some r → r.view.status = .completed →
      r.pending = none ∧ ((w.save K next i).2 = true → Idles w' id)) :
    Terminal w' := by
  rcases save_cases K w next i with ⟨-, he⟩ | ⟨hav, -, he⟩ | ⟨u, o, hun, -, he⟩
  · -- nothing is saved:
    rw [he] at hd hu ht
    exact h.quiet hd hu ht hf
  · -- the document is saved: it shows every completed run
    have hshow : ∀ id, ShowsIn id w.trace → DoneIn id (w.prepare next i.wall.toNat).doc :=
      fun id hid => doneIn_prepare (hkeep hav id ((h.ended id hid).memory hav)) _
    have hdone : ∀ id, Shows id (w.prepare next i.wall.toNat).doc →
        DoneIn id (w.prepare next i.wall.toNat).doc ∧ Idles w' id := by
      rintro id ⟨r, hr, hc⟩
      obtain ⟨x, hx, hxs, hxp⟩ := prepare_find hr
      obtain ⟨hp, hi⟩ := hnew hav id x hx (hxs.trans hc)
      exact ⟨⟨r, hr, hc, hxp ▸ hp⟩, hi (by rw [he])⟩
    rw [he] at hd hu ht
    have hm : w'.memory = w.prepare next i.wall.toNat := congrArg Docs.memory hd
    have hdu : w'.durable = w.prepare next i.wall.toNat := congrArg Docs.durable hd
    have hun : w'.unacked = [] := congrArg Docs.unacked hd
    have htr : w'.trace = .saved (w.prepare next i.wall.toNat).doc :: w.trace := ht
    -- in memory, in the store, and in the trace:
    refine ⟨fun _ id r hr hc => ?_, fun id hid => ?_, ?_⟩
    · unfold World.state at hr
      rw [hm] at hr
      obtain ⟨⟨r', hr', -, hp⟩, hi⟩ := hdone id ⟨r, hr, hc⟩
      rw [hr] at hr'
      cases hr'
      exact ⟨hp, hi⟩
    · have hsh : DoneIn id (w.prepare next i.wall.toNat).doc ∧ Idles w' id := by
        rw [htr] at hid
        obtain ⟨d, hmem, hs⟩ := hid
        rcases List.mem_cons.1 hmem with he' | hmem
        · cases he'
          exact hdone id hs
        · obtain ⟨r, hr, hc, hp⟩ := hshow id ⟨d, hmem, hs⟩
          exact hdone id ⟨r, hr, hc⟩
      refine ⟨fun v hv => ?_, fun _ => ?_, hsh.2⟩
      · rw [hdu, hun, List.mem_singleton] at hv
        rw [hv]
        exact hsh.1
      · rw [hm]
        exact hsh.1
    · rw [htr]
      refine ⟨fun id hid => ?_, h.trace⟩
      obtain ⟨r, hr, hc, -⟩ := hshow id hid
      exact ⟨r, hr, hc⟩
  · rw [he] at hd hu ht
    have htr : w'.trace = w.trace := ht
    have hdu : w'.durable = w.durable := congrArg Docs.durable hd
    have hun' : w'.unacked = u := congrArg Docs.unacked hd
    refine ⟨fun hav => absurd (hu.symm.trans hav) (by simp [World.failedSave, World.storageFailed]), fun id hid => ?_,
      htr ▸ h.trace⟩
    have ho := h.ended id (htr ▸ hid)
    refine ⟨fun v hv => ?_, fun hav => absurd (hu.symm.trans hav) (by simp [World.failedSave, World.storageFailed]),
      ho.idles.follows hf⟩
    rw [hdu, hun'] at hv
    rcases List.mem_cons.1 hv with rfl | hv
    · exact ho.stored _ List.mem_cons_self
    · rcases hun with rfl | ⟨hav, rfl⟩
      · exact ho.stored v (List.mem_cons_of_mem _ hv)
      · rcases List.mem_cons.1 hv with rfl | hv
        · exact doneIn_prepare (hkeep hav id (ho.memory hav)) _
        · exact ho.stored v (List.mem_cons_of_mem _ hv)

/-! ## Sections -/

/-- The runs a control is about. -/
def Control.Covers : Control → String → Prop
  | .one id _, id' => id = id'
  | .all, _ => True

/-- The lock section of an action finds no completed run that it covers live. -/
def LockKeeps (w : World) (a : Act) : Prop :=
  ∀ k i, a = .locked k i → ∀ id r, k.Covers id → w.isLive id = true → w.state id = some r →
    r.view.status ≠ .completed

/-- A run that is marked `Completed` has nothing pending. -/
def MarkKeeps (w : World) (a : Act) : Prop :=
  ∀ id i s r reason, a = .worker id (.mark i) → w.session id = some s → s.phase = .marking .completed reason →
    w.state id = some r → r.pending = none

/-- A section of a worker is not one of a run that finishes. -/
theorem saves_phase {s : Session} {m : Move} {next : Version} {ok err : Phase} {minted : List String}
    (h : Saves K w s m next ok err minted) : s.phase ≠ .finishing := by
  cases h with
  | rest c output r now keep phase base => rw [phase]; simp
  | pending c output action r r' now id i move phase base mutation fresh commit => rw [phase]; simp
  | respond p response r r' order ok from_ state record next =>
    rcases from_ with ⟨c, d, i, hp, -⟩ | ⟨f, hp, -⟩ <;> rw [hp] <;> simp
  | clear p o denied r r' phase state record => rw [phase]; simp
  | ackFailed p o denied r phase state => rw [phase]; simp
  | mark status reason r i move phase state => rw [phase]; simp

theorem control_done {r : RunRecord} {stop : Bool} (hc : r.view.status = .completed) (hp : r.pending = none) :
    r.control false stop = r := by
  unfold RunRecord.control
  simp [hc, hp]

theorem stopAll_done {r : RunRecord} (hc : r.view.status = .completed) (hp : r.pending = none) :
    r.stopAll false = r := by
  unfold RunRecord.stopAll
  simp [hc, hp]

theorem finish_done {r : RunRecord} {intent : ℕ} (hc : r.view.status = .completed) (hp : r.pending = none) :
    r.finish intent = r := by
  unfold RunRecord.finish
  simp [hc, hp]

/-- Completed runs stay so in what a section saves. -/
theorem Section.keeps_done (h : Terminal w) (hav : w.unavailable = false) {a : Act} {next : Version}
    (hn : Section K w a next) (hG : LockKeeps w a) {id : String} (hd : DoneIn id w.memory.doc) : DoneIn id next.doc := by
  obtain ⟨r, hr, hc, hp⟩ := hd
  have hst : w.state id = some r := hr
  obtain ⟨-, hi⟩ := h.fresh hav id r hst hc
  -- another run's record is put
  have hother : ∀ {id' : String} {x y : RunRecord}, w.state id' = some x → y.view.runId = x.view.runId → id ≠ id' →
      DoneIn id (w.memory.doc.put id' y) := by
    intro id' x y hx hy hne
    refine ⟨r, ?_, hc, hp⟩
    rw [find_put_ne (hy.trans (find_runId hx)) hne]
    exact hr
  -- its own record is put again
  have hself : ∀ y, y = r → DoneIn id (w.memory.doc.put id y) := by
    rintro y rfl
    exact ⟨y, find_put_self hr (find_runId hr), hc, hp⟩
  cases hn with
  | worker id' s m next ok err minted session saves =>
    obtain ⟨x, y, hx, hk, hnext⟩ := saves_edit saves
    obtain ⟨hlive, rfl⟩ := session_some session
    rw [hnext]
    refine hother hx hk.runId fun he => saves_phase saves ?_
    exact hi.finishing s hlive he.symm
  | finish id' s i x session phase state =>
    by_cases he : id = s.runId
    · subst he
      have hx : x = r := Option.some.inj (state.symm.trans hst)
      subst hx
      exact hself _ (finish_done hc hp)
    · exact hother state (runId_of_core (core_finish _ _)) he
  | control id' stop i x state =>
    by_cases he : id = id'
    · subst he
      have hx : x = r := Option.some.inj (state.symm.trans hst)
      subst hx
      have hl : w.isLive id = false := by
        by_contra hl
        exact hG _ i rfl id x rfl (by simpa using hl) hst hc
      exact hself _ (by rw [hl]; exact control_done hc hp)
    · exact hother state (runId_of_core (core_control _ _ _)) he
  | stopAll i =>
    have hl : w.isLive id = false := by
      by_contra hl
      exact hG _ i rfl id r trivial (by simpa using hl) hst hc
    refine ⟨r, ?_, hc, hp⟩
    refine (find_mapRuns fun x => runId_of_core (core_stopAll x _)).trans ?_
    rw [hr, Option.map_some, find_runId hr, hl, stopAll_done hc hp]
  | start t i x doc valid admitted =>
    cases admitted.starts with
    | resume id' old asked state checks =>
      have hold : old.view.runId = id' := find_runId state
      have hid : (startRecord old i).view.runId = old.view.runId := rfl
      refine hother state hid fun he => ?_
      subst he
      have hx : old = r := Option.some.inj (state.symm.trans hst)
      have hres := (resumable_iff checks).1
      rw [hx, hc] at hres
      simp at hres
    | fresh asked room fresh expires => exact ⟨r, find_push_some hr, hc, hp⟩
  | recover m ρ x y recovery state recovers =>
    exact hother state recovers.kept.runId fun he => hi.recovery ρ recovery he.symm

theorem not_control {r : RunRecord} {live stop : Bool} (h : (r.control live stop).view.status = .completed) :
    r.control live stop = r := by
  unfold RunRecord.control RunRecord.setStatus at *
  split_ifs at h ⊢
  · unfold stoppedOrPaused at h
    split_ifs at h
  · rfl

theorem not_stopAll {r : RunRecord} {live : Bool} (h : (r.stopAll live).view.status = .completed) :
    r.stopAll live = r := by
  unfold RunRecord.stopAll RunRecord.setStatus at *
  split_ifs at h ⊢
  rfl

theorem not_finish {r : RunRecord} {intent : ℕ} (h : (r.finish intent).view.status = .completed) :
    r.finish intent = r := by
  unfold RunRecord.finish RunRecord.setStatus stoppedOrPaused at *
  split_ifs at h ⊢
  rfl

/-- A response leaves the status, or asks for recovery. -/
theorem respond_status {r r' : RunRecord} {p : PendingAction} {x : AppResult StrategyMutationResponse}
    {order : Option Order} (h : respondRecord r p x = .ok (r', order)) (hc : r'.view.status = .completed) :
    r.view.status = .completed ∧ r.pending = some p := by
  simp only [respondRecord, bind_eq_ok, ensure_eq_ok, pure_eq_ok, Prod.mk.injEq] at h
  obtain ⟨-, hp, receipt, -, owned, -, rfl, -⟩ := h
  unfold RunRecord.receive at hc
  simp only at hc
  split_ifs at hc
  exact ⟨hc, hp⟩

theorem clear_status {r r' : RunRecord} {p : PendingAction} (h : clearRecord r p = .ok r')
    (hc : r'.view.status = .completed) : r.view.status = .completed ∧ r.pending = some p := by
  simp only [clearRecord, bind_eq_ok, ensure_eq_ok, pure_eq_ok] at h
  obtain ⟨-, hp, rfl⟩ := h
  exact ⟨hc, hp⟩

/-- A worker completes its run when the guest stops, or by a mark; it finishes then. -/
theorem saves_completed {s : Session} {m : Move} {next : Version} {ok err : Phase} {minted : List String}
    {r' : RunRecord} (h : Terminal w) (hav : w.unavailable = false) (hs : w.session s.runId = some s)
    (hsaves : Saves K w s m next ok err minted) (hmark : MarkKeeps w (.worker s.runId m))
    (hnext : next.doc.find s.runId = some r') (hc : r'.view.status = .completed) : r'.pending = none ∧ ok = .finishing := by
  have hphase := saves_phase hsaves
  have hlive := (session_some hs).1
  -- the record was not completed before
  have hnot : ∀ r, w.state s.runId = some r → r.view.status ≠ .completed :=
    fun r hr hcr => hphase ((h.fresh hav _ r hr hcr).2.finishing s hlive rfl)
  have hput : ∀ {x y : RunRecord}, w.state s.runId = some x → y.view.runId = x.view.runId →
      next.doc = w.memory.doc.put s.runId y → r' = y := by
    intro x y hx hy he
    rw [he] at hnext
    rcases find_edit hx hy hnext with ⟨-, hr⟩ | ⟨hne, -⟩
    · exact hr
    · exact absurd rfl hne
  cases hsaves with
  | rest c output r now keep phase base =>
    have hb := commitBase_ok base
    have he := hput hb.2.2.1 (rest_kept r c output now keep).runId rfl
    subst he
    cases keep with
    | true => exact absurd hc (hnot r hb.2.2.1)
    | false => exact ⟨hb.2.2.2.2, rfl⟩
  | pending c output action r r₁ now id i move phase base mutation fresh commit =>
    have hb := commitBase_ok base
    have he := hput hb.2.2.1 (commit_kept commit).1.runId rfl
    subst he
    simp only [commitMutation, bind_eq_ok, ensure_eq_ok, pure_eq_ok] at commit
    obtain ⟨-, -, total, -, owned, -, rfl⟩ := commit
    exact absurd hc (hnot r hb.2.2.1)
  | respond p response r r₁ order ok from_ state record next =>
    have he := hput state (respond_kept record).runId rfl
    subst he
    exact absurd (respond_status record hc).1 (hnot r state)
  | clear p o denied r r₁ phase state record =>
    have he := hput state (clear_kept record).runId rfl
    subst he
    exact absurd (clear_status record hc).1 (hnot r state)
  | ackFailed p o denied r phase state =>
    have hid : (r.setStatus .recoveryRequired (some "plugin_strategy_ack_failed")).view.runId = r.view.runId := rfl
    have he := hput state hid rfl
    subst he
    cases hc
  | mark status reason r i move phase state =>
    have hid : (r.setStatus status (some reason)).view.runId = r.view.runId := rfl
    have he := hput state hid rfl
    subst he
    have hst : status = .completed := hc
    subst hst move
    exact ⟨hmark s.runId i s r reason rfl hs phase state, rfl⟩

/-- The completed runs of what a section saves: nothing is pending, and the run was
completed before or the section is its worker's. -/
theorem Section.completed (h : Terminal w) (hav : w.unavailable = false) {a : Act} {next : Version}
    (hn : Section K w a next) (hG : MarkKeeps w a) {id : String} {r' : RunRecord} (hf : next.doc.find id = some r')
    (hc : r'.view.status = .completed) :
    r'.pending = none ∧ (Idles w id ∨ ∃ m, a = .worker id m) := by
  have hold : ∀ r, w.state id = some r → r.view.status = .completed →
      r.pending = none ∧ (Idles w id ∨ ∃ m, a = .worker id m) :=
    fun r hr hcr => ⟨(h.fresh hav id r hr hcr).1, Or.inl (h.fresh hav id r hr hcr).2⟩
  cases hn with
  | worker id' s m next ok err minted session saves =>
    obtain ⟨x, y, hx, hk, hnext⟩ := saves_edit saves
    obtain ⟨hlive, rfl⟩ := session_some session
    have hf' := hf
    rw [hnext] at hf'
    rcases find_edit hx hk.runId hf' with ⟨rfl, rfl⟩ | ⟨-, hs⟩
    · exact ⟨(saves_completed h hav session saves hG hf hc).1, Or.inr ⟨m, rfl⟩⟩
    · exact hold r' hs hc
  -- neither `finish` nor a control completes a run:
  | finish id' s i x session phase state =>
    rcases find_edit state (runId_of_core (core_finish _ _)) hf with ⟨rfl, rfl⟩ | ⟨-, hs⟩
    · have he := not_finish hc
      rw [he] at hc
      obtain ⟨hp, hi⟩ := hold x state hc
      exact ⟨(congrArg RunRecord.pending he).trans hp, hi⟩
    · exact hold r' hs hc
  | control id' stop i x state =>
    rcases find_edit state (runId_of_core (core_control _ _ _)) hf with ⟨rfl, rfl⟩ | ⟨-, hs⟩
    · have he := not_control hc
      rw [he] at hc
      obtain ⟨hp, hi⟩ := hold x state hc
      exact ⟨(congrArg RunRecord.pending he).trans hp, hi⟩
    · exact hold r' hs hc
  | stopAll i =>
    have hf' := (find_mapRuns fun x => runId_of_core (core_stopAll x _)).symm.trans hf
    obtain ⟨x, hx, rfl⟩ := Option.map_eq_some_iff.1 hf'
    have he := not_stopAll hc
    rw [he] at hc
    obtain ⟨hp, hi⟩ := hold x hx hc
    exact ⟨(congrArg RunRecord.pending he).trans hp, hi⟩
  | start t i x doc valid admitted =>
    rcases admitted.starts.find hf with rfl | hs
    · cases admitted.starts <;> cases hc
    · exact hold r' hs hc
  -- a recovery works on a pending action, which a completed run has not:
  | recover m ρ x y recovery state recovers =>
    have hpend : ∀ p, x.view.status = .completed ∧ x.pending = some p → False := by
      rintro p ⟨hcx, hpx⟩
      rw [(h.fresh hav _ x state hcx).1] at hpx
      cases hpx
    rcases find_edit state recovers.kept.runId hf with ⟨rfl, rfl⟩ | ⟨-, hs⟩
    · cases recovers with
      | respond result i response r₁ order move asking from_ record =>
        exact (hpend _ (respond_status record hc)).elim
      | clear order r₁ phase record => exact (hpend _ (clear_status record hc)).elim
      | ackFailed order phase => cases hc
      | pause resolved phase => cases hc
    · exact hold r' hs hc

/-! ## Steps -/

/-- The conditions on a step: no control has its lock section while a completed run
that it covers is live, and no run is marked `Completed` with an action pending. -/
structure KeepsCompleted (w : World) (a : Act) : Prop where
  lock : w.unavailable = false → (∀ k i, a = .locked k i → k ∈ w.waiting) → LockKeeps w a
  mark : w.unavailable = false → MarkKeeps w a

/-- The step saves the document of a section, and no run starts. -/
theorem Terminal.section {a : Act} {next : Version} {i : SaveInput} (h : Terminal w) (hn : Section K w a next)
    (hlock : w.unavailable = false → LockKeeps w a) (hmark : w.unavailable = false → MarkKeeps w a)
    (hd : w'.docs = (w.save K next i).1.docs) (hu : w'.unavailable = (w.save K next i).1.unavailable)
    (ht : w'.trace = (w.save K next i).1.trace) (hf : Follows w w')
    (hworker : w.unavailable = false → ∀ id r m, a = .worker id m → next.doc.find id = some r →
      r.view.status = .completed → (w.save K next i).2 = true → Idles w' id) : Terminal w' := by
  refine h.save hd hu ht hf (fun hav id => hn.keeps_done h hav (hlock hav)) fun hav id r hr hc => ?_
  obtain ⟨hp, hi⟩ := hn.completed h hav (hmark hav) hr hc
  refine ⟨hp, fun hok => ?_⟩
  rcases hi with hi | ⟨m, ha⟩
  · exact hi.follows hf
  · exact hworker hav id r m ha hr hc hok

theorem Follows.setPhase {id : String} {ph : Phase}
    (h : ∀ s ∈ w.live, s.runId = id → s.phase = .finishing → ph = .finishing) : Follows w (w.setPhase id ph) := by
  refine .of_map rfl rfl fun s hs => ?_
  by_cases he : s.runId = id
  · rw [if_pos he]
    exact ⟨rfl, h s hs he⟩
  · rw [if_neg he]
    exact ⟨rfl, fun hp => hp⟩

/-- A lock section of a worker. -/
theorem Terminal.worker_save (hb : Base K w) (h : Terminal w) {s : Session} (hs : w.session s.runId = some s) {m : Move}
    {next : Version} {i : SaveInput} {ok err : Phase} {minted : List String}
    (hsaves : Saves K w s m next ok err minted) (hmark : w.unavailable = false → MarkKeeps w (.worker s.runId m)) :
    Terminal (w.apply K s (.save next i ok err minted)) := by
  have hlive := (session_some hs).1
  have hphase := saves_phase hsaves
  have h₁ := save_follows K w next i
  -- the worker is not finishing before the section
  have h₂ : Follows (w.save K next i).1 ((w.save K next i).1.setPhase s.runId (if (w.save K next i).2 then ok else err)) := by
    refine .setPhase fun t ht hid hp => ?_
    exfalso
    rcases (save_frame K w next i).live with hl | hl <;> rw [hl] at ht
    · rw [session_eq hb.liveIds ht hlive hid] at hp
      exact hphase hp
    · obtain ⟨t₀, ht₀, rfl⟩ := List.mem_map.1 ht
      rw [session_eq hb.liveIds ht₀ hlive hid] at hp
      exact hphase hp
  have hf : Follows w (w.apply K s (.save next i ok err minted)) :=
    (h₁.trans h₂).trans (.of_live rfl rfl)
  refine h.section (.worker s.runId s m next ok err minted hs hsaves)
    (fun _ k i he => nomatch he) hmark rfl rfl rfl hf fun hav id r m' ha hr hc hok => ?_
  cases ha
  have hfin := (saves_completed h hav hs hsaves (hmark hav) hr hc).2
  refine ⟨fun t ht hid => ?_, fun ρ hρ => ?_⟩
  · have ht' : t ∈ ((w.save K next i).1.setPhase s.runId (if (w.save K next i).2 then ok else err)).live := ht
    rw [hok, if_pos rfl, hfin] at ht'
    obtain ⟨t₀, -, rfl⟩ := List.mem_map.1 ht'
    by_cases he : t₀.runId = s.runId
    · rw [if_pos he]
      rfl
    · rw [if_neg he] at hid
      exact absurd hid he
  · have hρ' : w.recovery = some ρ := (save_frame K w next i).recovery ▸ hρ
    exact fun he => hb.recovery ρ hρ' s hlive he.symm

/-- The end of a session. -/
theorem Terminal.finish (hb : Base K w) (h : Terminal w) {s : Session} (hs : w.session s.runId = some s)
    (hp : s.phase = .finishing) (i : SaveInput) : Terminal (w.finish K s i) := by
  have hlive := (session_some hs).1
  obtain ⟨c, hc, -⟩ := (hb.sessions s hlive).known
  obtain ⟨r, hr, -⟩ := Version.core_eq_some.1 hc
  have hst : w.state s.runId = some r := hr
  have hdrop : ∀ w' : World, Follows w' { w' with live := w'.live.filter fun t => t.runId ≠ s.runId } := fun w' =>
    ⟨fun t ht => ⟨t, List.mem_of_mem_filter ht, rfl, id⟩, fun ρ hρ => ⟨ρ, hρ, rfl⟩⟩
  unfold World.finish
  simp only
  cases hu : w.unavailable with
  | true =>
    rw [if_pos rfl]
    exact h.quiet rfl rfl rfl (hdrop w)
  | false =>
    simp only [Bool.false_eq_true, if_false, hst]
    refine h.section (.finish s.runId s i r hs hp hst) (fun _ k i he => nomatch he)
      (fun _ id i s r reason he => nomatch he) rfl rfl rfl ((save_follows K w _ i).trans (hdrop _))
      fun hav id x m ha hx hcx hok => ?_
    cases ha
    refine ⟨fun t ht hid => ?_, fun ρ hρ he => ?_⟩
    · have := (List.mem_filter.1 ht).2
      simp [hid] at this
    · have hρ' : w.recovery = some ρ := (save_frame K w (w.edit s.runId (r.finish s.intent)) i).recovery ▸ hρ
      exact hb.recovery ρ hρ' s hlive he.symm

/-- A run that is completed neither dispatches nor is resumed: the event is of
another run. -/
theorem Terminal.event (h : Terminal w) {e : Event} (hd : w'.docs = w.docs) (hu : w'.unavailable = w.unavailable)
    (ht : w'.trace = e :: w.trace) (hf : Follows w w') (he : ∀ d, e ≠ .saved d)
    (hr : ∀ id, ShowsIn id w.trace → e.Respects id) : Terminal w' := by
  have h' : Terminal { w' with trace := w.trace } := h.quiet hd hu rfl ⟨hf.live, hf.recovery⟩
  have hshow : ∀ id, ShowsIn id w'.trace → ShowsIn id w.trace := by
    rintro id ⟨d, hm, hs⟩
    rw [ht] at hm
    rcases List.mem_cons.1 hm with rfl | hm
    · exact absurd rfl (he d)
    · exact ⟨d, hm, hs⟩
  refine ⟨fun hav id r hst hc => ?_, fun id hid => ?_, ?_⟩
  · obtain ⟨hp, hi⟩ := h'.fresh hav id r hst hc
    exact ⟨hp, hi.finishing, hi.recovery⟩
  · have ho := h'.ended id (hshow id hid)
    exact ⟨ho.stored, ho.memory, ho.idles.finishing, ho.idles.recovery⟩
  · rw [ht]
    exact ⟨hr, h.trace⟩

/-! ## Starts -/

/-- What a save shows of another run. -/
theorem Terminal.halt (h : Terminal w) {id : String} {r : RunRecord} {i : SaveInput} {st : StrategyStatus}
    {reason : Option String} (hr : w.state id = some r) (hc : r.view.status ≠ .completed) (hst : st ≠ .completed) :
    Terminal (w.save K (w.edit id (r.setStatus st reason)) i).1 := by
  have hid : (r.setStatus st reason).view.runId = r.view.runId := rfl
  refine h.save rfl rfl rfl (save_follows K w _ i) (fun _ id' hd => ?_) fun hav id' x hx hcx => ?_
  · obtain ⟨x, hx, hcx, hp⟩ := hd
    refine ⟨x, ?_, hcx, hp⟩
    have hne : id' ≠ id := by
      rintro rfl
      have he : x = r := Option.some.inj (hx.symm.trans hr)
      exact hc (he ▸ hcx)
    exact (find_put_ne (hid.trans (find_runId hr)) hne).trans hx
  · rcases find_edit hr hid hx with ⟨-, rfl⟩ | ⟨-, hs⟩
    · exact absurd hcx hst
    · obtain ⟨hp, hi⟩ := h.fresh hav id' x hs hcx
      exact ⟨hp, fun _ => hi.follows (save_follows K w _ i)⟩

/-- A run becomes live. -/
theorem Terminal.newSession (h : Terminal w) {t : Ticket} {i : Start} {r : RunRecord}
    (hnot : ∀ x, w.state r.view.runId = some x → x.view.status ≠ .completed)
    (hshow : ¬ ShowsIn r.view.runId w.trace) :
    Terminal ({ w with live := w.newSession t i r :: w.live } : World) := by
  have hidles : ∀ id, id ≠ r.view.runId → Idles w id →
      Idles ({ w with live := w.newSession t i r :: w.live } : World) id := by
    refine fun id hne hi => ⟨fun s hs hid => ?_, hi.recovery⟩
    rcases List.mem_cons.1 hs with rfl | hs
    · exact absurd hid.symm hne
    · exact hi.finishing s hs hid
  refine ⟨fun hav id x hx hc => ?_, fun id hid => ?_, h.trace⟩
  · have hne : id ≠ r.view.runId := by
      rintro rfl
      exact hnot x hx hc
    obtain ⟨hp, hi⟩ := h.fresh hav id x hx hc
    exact ⟨hp, hidles id hne hi⟩
  · have hne : id ≠ r.view.runId := by
      rintro rfl
      exact hshow hid
    have ho := h.ended id hid
    exact ⟨ho.stored, ho.memory, hidles id hne ho.idles⟩

theorem revokeRuns_follows (w : World) (k : Control) : Follows w (w.revokeRuns k) := by
  cases k with
  | one id stop =>
    refine .of_map rfl rfl fun s _ => ?_
    split_ifs <;> exact ⟨rfl, fun hp => hp⟩
  | all => exact .of_map rfl rfl fun s _ => ⟨rfl, fun hp => hp⟩

theorem Terminal.revokeIntent (h : Terminal w) (k : Control) : Terminal (w.revokeIntent k) := by
  unfold World.revokeIntent
  split
  · have hf := revokeRuns_follows ({ w with admission := w.admission + 1 } : World) k
    refine h.quiet ?_ ?_ ?_ ⟨hf.live, hf.recovery⟩ <;> cases k <;> rfl
  · exact h

theorem Terminal.race (h : Terminal w) (i : Start) : Terminal (w.race i) := by
  unfold World.race
  split
  · exact h
  · exact h.revokeIntent _

/-- The run that starts was not completed. -/
theorem Starts.not_shown (hb : Base K w) (h : Terminal w) {t : Ticket} {i : Start} {r : RunRecord} {doc : StrategyDocument}
    (hav : w.unavailable = false) (hst : Starts K w t i r doc) : ¬ ShowsIn r.view.runId w.trace := by
  intro hid
  have ho := h.ended _ hid
  cases hst with
  | resume id old asked state checks =>
    have hold : old.view.runId = id := find_runId state
    have hid' : (startRecord old i).view.runId = id := hold
    rw [hid'] at ho
    obtain ⟨x, hx, hc, -⟩ := ho.memory hav
    have he : x = old := Option.some.inj (hx.symm.trans state)
    have hres := (resumable_iff checks).1
    rw [← he, hc] at hres
    simp at hres
  | fresh asked room fresh expires =>
    obtain ⟨x, hx, -⟩ := ho.stored _ List.mem_cons_self
    have hm := hb.ids.durable.2 _ (List.mem_map.2 ⟨x, mem_of_find hx, find_runId hx⟩)
    exact (freshId_iff.1 fresh).2 hm

theorem race_trace (w : World) (i : Start) : (w.race i).trace = w.trace := by
  unfold World.race
  split
  · rfl
  · exact revokeIntent_trace w _

theorem noteStart_shows {i : Start} {r : RunRecord} {id : String} (h : ShowsIn id (w.noteStart i r).trace) :
    ShowsIn id w.trace := by
  unfold World.noteStart at h
  split at h
  · obtain ⟨d, hm, hd⟩ := h
    rcases List.mem_cons.1 hm with he | hm
    · cases he
    · exact ⟨d, hm, hd⟩
  · exact h

theorem Starts.running {t : Ticket} {i : Start} {r : RunRecord} {doc : StrategyDocument} (h : Starts K w t i r doc) :
    r.view.status = .running := by
  cases h <;> rfl

theorem Terminal.startWith (hb : Base K w) (h : Terminal w) (t : Ticket) {i : Start} (hv : i.request.validate K = true) :
    Terminal (w.startWith K t i) := by
  unfold World.startWith
  split
  · exact h
  · rename_i r doc hok
    have had := admitStart_ok hok
    have hav := had.available
    have h₁ : Terminal (w.startSave K i r doc).1 := by
      have hw : Terminal ({ w with minted := r.view.runId :: w.minted } : World) := h.quiet rfl rfl rfl (.of_live rfl rfl)
      have hsec : Section K w (.start i) { w.memory with doc := doc } := .start t i r doc hv had
      refine hw.save rfl rfl rfl (save_follows K _ _ _) (fun hav id hd => hsec.keeps_done h hav (fun k j he => nomatch he) hd)
        fun hav id x hx hc => ?_
      obtain ⟨hp, hi⟩ := hsec.completed h hav (fun id j s r reason he => nomatch he) hx hc
      refine ⟨hp, fun _ => ?_⟩
      rcases hi with hi | ⟨m, ha⟩
      · have hi' : Idles ({ w with minted := r.view.runId :: w.minted } : World) id := ⟨hi.finishing, hi.recovery⟩
        exact hi'.follows (save_follows K _ _ _)
      · cases ha
    split
    · rename_i hsaved
      -- the run that was saved is running
      have hstate : ∀ x, (w.startSave K i r doc).1.state r.view.runId = some x → x.view.status = .running := by
        intro x hx
        unfold World.startSave at hx hsaved
        obtain ⟨-, -, he⟩ := save_ok hsaved
        rw [he] at hx
        obtain ⟨y, hy, hys, -⟩ := prepare_find hx
        rw [had.starts.find_self hb] at hy
        cases hy
        exact hys.symm.trans had.starts.running
      have hshow : ¬ ShowsIn r.view.runId w.trace := had.starts.not_shown hb h hav
      have hshow₁ : ¬ ShowsIn r.view.runId (w.startSave K i r doc).1.trace := by
        rintro ⟨d, hm, x, hx, hc⟩
        have hs := hsaved
        unfold World.startSave at hm hs
        obtain ⟨-, -, he⟩ := save_ok hs
        rw [he] at hm
        rcases List.mem_cons.1 hm with hd | hm
        · cases hd
          have hrun := hstate x (by unfold World.startSave; rw [he]; exact hx)
          rw [hc] at hrun
          cases hrun
        · exact hshow ⟨d, hm, x, hx, hc⟩
      have h₂ : Terminal ((w.startSave K i r doc).1.noteStart i r) := by
        unfold World.noteStart
        split
        · refine h₁.event rfl rfl rfl (.of_live rfl rfl) (fun d he => nomatch he) fun id hid he => ?_
          subst he
          exact hshow₁ hid
        · exact h₁
      have h₃ := h₂.race i
      have hdocs := (race_frame ((w.startSave K i r doc).1.noteStart i r) i).1.trans
        (noteStart_frame (w.startSave K i r doc).1 i r).1
      have hstate₃ : ∀ x, (((w.startSave K i r doc).1.noteStart i r).race i).state r.view.runId = some x →
          x.view.status = .running := by
        intro x hx
        refine hstate x ?_
        rw [← hx]
        exact congrArg (fun d : Docs => d.memory.doc.find r.view.runId) hdocs.symm
      have hshow₃ : ¬ ShowsIn r.view.runId (((w.startSave K i r doc).1.noteStart i r).race i).trace := by
        rw [race_trace]
        exact fun hid => hshow₁ (noteStart_shows hid)
      unfold World.goLive
      split
      · refine h₃.newSession (fun x hx hc => ?_) hshow₃
        rw [hstate₃ x hx] at hc
        cases hc
      · split
        · exact h₃
        · rename_i x hx
          refine h₃.halt hx (fun hc => ?_) (by decide)
          rw [hstate₃ x hx] at hc
          cases hc
    · exact h₁

/-! ## Every step and every run -/

theorem Terminal.lockSection (h : Terminal w) (k : Control) (i : SaveInput)
    (hG : w.unavailable = false → LockKeeps w (.locked k i)) : Terminal (w.lockSection K k i) := by
  have h₀ : Terminal ({ w with tickets := [] } : World) := h.quiet rfl rfl rfl (.of_live rfl rfl)
  have hmark : MarkKeeps ({ w with tickets := [] } : World) (.locked k i) := fun id j s r reason he => nomatch he
  unfold World.lockSection
  simp only
  cases k with
  | one id stop =>
    simp only
    split
    · exact h₀
    · rename_i r hr
      exact h₀.section (K := K) (.control id stop i r hr) hG (fun _ => hmark) rfl rfl rfl (save_follows K _ _ i)
        fun _ id r m he => nomatch he
  | all =>
    simp only
    split
    · exact h₀
    · exact h₀.section (K := K) (.stopAll i) hG (fun _ => hmark) rfl rfl rfl (save_follows K _ _ i)
        fun _ id r m he => nomatch he

theorem Terminal.recover (h : Terminal w) {ρ : Recovery} (hρ : w.recovery = some ρ) (m : RecoveryMove) :
    Terminal (w.recover K ρ m) := by
  have hon : ∀ (w₁ : World) (ph : Option RecoveryPhase), w₁.recovery = some ρ → Follows w₁ (w₁.recoverOn ρ ph) := by
    refine fun w₁ ph h₁ => ⟨fun s hs => ⟨s, hs, rfl, id⟩, fun ρ' hρ' => ⟨ρ, h₁, ?_⟩⟩
    obtain ⟨p, -, rfl⟩ := Option.map_eq_some_iff.1 hρ'
    rfl
  rcases recover_cases K w ρ m with he | ⟨ph, he⟩ | ⟨r, r', i, stored, failed, hs, hr, he⟩ <;> rw [he]
  · exact h
  · exact h.quiet rfl rfl rfl (hon w ph hρ)
  · have hrec := (save_frame K w (w.edit ρ.runId r') i).recovery.trans hρ
    refine h.section (.recover m ρ r r' hρ hs hr) (fun _ k i he => nomatch he)
      (fun _ id i s r reason he => nomatch he) rfl rfl rfl ((save_follows K w _ i).trans (hon _ _ hrec))
      fun _ id r m he => nomatch he

/-- A recovery is of a run with an action pending. -/
theorem Terminal.reconcile (h : Terminal w) {ρ : Recovery} (hav : w.unavailable = false)
    (hst : w.state ρ.runId = some ρ.record) (hp : ρ.record.pending = some ρ.pending) :
    Terminal ({ w with recovery := some ρ } : World) := by
  have hne : ∀ id, DoneIn id w.memory.doc → ∀ ρ', some ρ = some ρ' → ρ'.runId ≠ id := by
    rintro id ⟨r, hr, -, hrp⟩ ρ' he rfl
    cases he
    have hx : r = ρ.record := Option.some.inj (hr.symm.trans hst)
    rw [hx, hp] at hrp
    cases hrp
  refine ⟨fun _ id r hr hc => ?_, fun id hid => ?_, h.trace⟩
  · obtain ⟨hrp, hi⟩ := h.fresh hav id r hr hc
    exact ⟨hrp, hi.finishing, hne id ⟨r, hr, hc, hrp⟩⟩
  · have ho := h.ended id hid
    exact ⟨ho.stored, ho.memory, ho.idles.finishing, hne id (ho.memory hav)⟩

theorem restore_done {r : RunRecord} (hc : r.view.status = .completed) (hp : r.pending = none) : r.restore = r := by
  unfold RunRecord.restore
  simp [hc, hp]

theorem Terminal.restart (h : ∀ id, ShowsIn id w.trace → ∀ v ∈ w.durable :: w.unacked, DoneIn id v.doc)
    (ht : TerminalTrace w.trace) (pick : Option ℕ) : Terminal (w.restart K pick) := by
  have hidles : ∀ id, Idles (w.restart K pick) id := fun id => ⟨(fun s hs => nomatch hs), (fun ρ hρ => nomatch hρ)⟩
  refine ⟨fun hav id r hr hc => ⟨?_, hidles id⟩, fun id hid => ⟨h id hid, fun hav => ?_, hidles id⟩, ht⟩
  · unfold World.state World.restart World.boot at hr
    simp only at hr
    split at hr
    · have hr' := (find_mapRuns fun x => runId_of_core (core_restore x)).symm.trans hr
      obtain ⟨x, -, rfl⟩ := Option.map_eq_some_iff.1 hr'
      cases hp : x.pending with
      | none => exact (pending_of_core (core_restore x)).trans hp
      | some p =>
        unfold RunRecord.restore at hc
        rw [if_pos (by rw [hp]; rfl)] at hc
        cases hc
    · cases hr
  · unfold World.restart World.boot at hav ⊢
    simp only at hav ⊢
    split
    · rename_i v hv
      obtain ⟨hv, -⟩ := Option.filter_eq_some_iff.1 hv
      obtain ⟨n, -, hn⟩ := Option.bind_eq_some_iff.1 hv
      obtain ⟨x, hx, hc, hp⟩ := h id hid v (List.mem_of_getElem? hn)
      refine ⟨x, ?_, hc, hp⟩
      refine (find_mapRuns fun y => runId_of_core (core_restore y)).trans ?_
      rw [hx, Option.map_some, restore_done hc hp]
    · rename_i hv
      rw [hv] at hav
      cases hav

/-- The step of a worker. -/
theorem Terminal.apply (hb : Base K w) (h : Terminal w) {s : Session} (hs : w.session s.runId = some s) (m : Move)
    (hG : w.unavailable = false → MarkKeeps w (.worker s.runId m)) : Terminal (w.apply K s (w.move K s m)) := by
  have hspec := move_spec K w s m
  have hlive := (session_some hs).1
  cases he : w.move K s m with
  | none => exact h
  | go ph lw =>
    rw [he] at hspec
    refine h.quiet rfl rfl rfl (.of_map rfl rfl fun t ht => ?_)
    by_cases hid : t.runId = s.runId
    · rw [if_pos hid, session_eq hb.liveIds ht hlive hid]
      exact ⟨rfl, fun hp => absurd hp hspec.notFinishing⟩
    · rw [if_neg hid]
      exact ⟨rfl, fun hp => hp⟩
  | save next i ok err minted =>
    rw [he] at hspec
    exact h.worker_save hb hs hspec hG
  | hand p call ph =>
    rw [he] at hspec
    obtain ⟨-, c, hp, -, -⟩ := hspec
    refine h.event rfl rfl rfl (.of_map rfl rfl fun t ht => ?_) (fun d he => nomatch he) fun id hid hne => ?_
    · by_cases hid : t.runId = s.runId
      · rw [if_pos hid, session_eq hb.liveIds ht hlive hid, hp]
        exact ⟨rfl, fun hp => nomatch hp⟩
      · rw [if_neg hid]
        exact ⟨rfl, fun hp => hp⟩
    · -- a completed run only finishes
      have := (h.ended id hid).idles.finishing s hlive hne
      rw [hp] at this
      cases this
  | finish i =>
    rw [he] at hspec
    exact h.finish hb hs hspec.1 i

/-- **One step keeps the invariant.** -/
theorem terminal_step (hb : Base K w) (h : Terminal w) (a : Act) (hG : KeepsCompleted w a) : Terminal (w.step K a) := by
  cases a with
  | tick d => exact h.quiet rfl rfl rfl (.of_live rfl rfl)
  | newEpoch => exact h.quiet rfl rfl rfl (.of_live rfl rfl)
  | access i =>
    simp only [World.step]
    unfold World.access
    split
    · exact h
    · simp only
      split_ifs
      · exact h.quiet rfl rfl rfl (.of_live rfl rfl)
      · exact h.quiet rfl rfl rfl (.of_live rfl rfl)
      · exact h
  | start i =>
    simp only [World.step]
    unfold World.start
    split
    · rename_i hc
      split
      · exact h
      · rename_i t _
        -- the ticket is gone before the run is started:
        let w₀ : World := { w with tickets := w.tickets.filter (·.1 ≠ i.request.authorizationToken) }
        have hb₀ : Base K w₀ := ⟨hb.ids, hb.liveIds, hb.sessions, hb.recovery⟩
        have h₀ : Terminal w₀ := h.quiet rfl rfl rfl (.of_live rfl rfl)
        exact h₀.startWith hb₀ t hc.1
    · exact h
  | revoke k =>
    simp only [World.step]
    split
    · exact h.revokeIntent k
    · exact h
  -- the guard of the run says that no completed run is live here:
  | locked k i =>
    simp only [World.step]
    split
    · rename_i hk
      have hw : Terminal ({ w with waiting := w.waiting.erase k } : World) := h.quiet rfl rfl rfl (.of_live rfl rfl)
      refine hw.lockSection k i fun hav => hG.lock hav fun k' i' he => ?_
      cases he
      exact hk
    · exact h
  | exit =>
    simp only [World.step]
    unfold World.exit
    simp only
    split
    · have hf := revokeRuns_follows ({ w with closed := true, admission := w.admission + 1 } : World) .all
      exact h.quiet rfl rfl rfl ⟨hf.live, hf.recovery⟩
    · exact h.quiet rfl rfl rfl (.of_live rfl rfl)
  | worker id m =>
    cases hs : w.session id with
    | none => simpa only [World.step, hs] using h
    | some s =>
      simp only [World.step, hs]
      obtain ⟨-, rfl⟩ := session_some hs
      exact h.apply hb hs m hG.mark
  | reconcile id current scope =>
    simp only [World.step]
    split
    · exact h
    · -- the run waits for recovery, so it is not completed:
      rename_i ρ hρ
      obtain ⟨rfl, hav, -, hst, hp, -⟩ := reconcileBegin_ok hρ
      exact h.reconcile hav hst hp
  | recover m =>
    simp only [World.step]
    split
    · exact h
    · rename_i ρ hρ
      exact h.recover hρ m
  | restart pick => exact .restart (fun id hid => (h.ended id hid).stored) h.trace pick

theorem terminal_init (K : Crates) (doc : StrategyDocument) : Terminal (World.init K doc) := by
  have ht : TerminalTrace (World.store doc).trace := trivial
  refine Terminal.restart (fun id hid => ?_) ht (some 0)
  obtain ⟨d, hm, -⟩ := hid
  cases hm

/-- **Completed is terminal.** In every run in which no control has its lock section
while a completed run is live, and no run is marked `Completed` with an action pending,
from any valid stored document: after a saved document shows a run as `Completed`,
every document saved shows it so, and the run is neither resumed nor does it hand
anything to the host. -/
theorem completed_terminal (K : Crates) (doc : StrategyDocument) (hdoc : doc.validate K = true) (acts : List Act)
    (hG : Along (World.step K) KeepsCompleted (World.init K doc) acts) :
    let w := run (World.step K) (World.init K doc) acts
    ∀ post d pre id r, w.trace = post ++ .saved d :: pre → d.find id = some r → r.view.status = .completed →
      (∀ d', .saved d' ∈ post → ∃ r', d'.find id = some r' ∧ r'.view.status = .completed) ∧
      .resumed id ∉ post ∧ ∀ p call, .handed id p call ∉ post := by
  intro w post d pre id r htr hr hc
  have hI : Base K w ∧ Terminal w :=
    -- a step keeps `Terminal` where `Base` holds, so both are carried along
    run_inv_along (I := fun w => Base K w ∧ Terminal w)
      (fun w a h hG => ⟨base_step w a h.1, terminal_step h.1 h.2 a hG⟩) acts _
      ⟨base_init hdoc, terminal_init K doc⟩ hG
  have htrace := hI.2.trace
  rw [htr] at htrace
  have hafter := htrace.after ⟨r, hr, hc⟩
  exact ⟨fun d' hd' => hafter _ hd', fun hm => hafter _ hm rfl, fun p call hm => hafter _ hm rfl⟩

/-! ## Runs of a guest that stops -/

namespace Sample

/-- The guest stops, and `Completed` is saved. -/
def stopped : List Act := started ++ pass .stop ++ [worker (.commit 1000 saved "")]

/-- A control comes before `finish`. -/
def controlled : List Act :=
  [.revoke (.one (uuid "03") true), .locked (.one (uuid "03") true) saved, worker (.finish saved)]

/-- What the document that was saved last shows. -/
def shown (w : World) : Option (List StrategyStatus) :=
  (lastSaved w.trace).map fun d => d.runs.map fun r => r.view.status

end Sample

/-- Most actions are neither a lock section nor a mark. -/
theorem keepsCompleted_other {a : Act} (hl : ∀ k i, a ≠ .locked k i) (hm : ∀ id i, a ≠ .worker id (.mark i)) :
    KeepsCompleted w a :=
  ⟨fun _ _ k i he => absurd he (hl k i), fun _ id i _ _ _ he => absurd he (hm id i)⟩

/-- With the control after `finish` the run stays completed. -/
theorem completed_terminal_stopped :
    let w := run (World.step Crates.sample) (World.init Crates.sample .default)
      ((Sample.stopped ++ [Sample.worker (.finish Sample.saved), .revoke .all]) ++ [.locked .all Sample.saved])
    Sample.shown w = some [.completed] ∧
      ∀ post d pre id r, w.trace = post ++ .saved d :: pre → d.find id = some r → r.view.status = .completed →
        (∀ d', .saved d' ∈ post → ∃ r', d'.find id = some r' ∧ r'.view.status = .completed) ∧
        .resumed id ∉ post ∧ ∀ p call, .handed id p call ∉ post := by
  refine ⟨by decide +kernel, completed_terminal Crates.sample .default (by decide +kernel) _ ?_⟩
  rw [along_append]
  refine ⟨along_of_forall (fun a ha w => keepsCompleted_other (fun k i he => ?_) fun id i he => ?_) _,
    ⟨fun _ _ k i _ id r _ hlive => ?_, fun _ id i s r reason he => nomatch he⟩, trivial⟩
  · subst he
    simp [Sample.stopped, Sample.started, Sample.pass, Sample.access, Sample.start, Sample.worker] at ha
  · subst he
    simp [Sample.stopped, Sample.started, Sample.pass, Sample.access, Sample.start, Sample.worker] at ha
  · -- the run has left the live map
    obtain ⟨s, hs, -⟩ := isLive_iff.1 hlive
    have hnil : (run (World.step Crates.sample) (World.init Crates.sample .default)
        (Sample.stopped ++ [Sample.worker (.finish Sample.saved), .revoke .all])).live.length = 0 := by
      decide +kernel
    rw [List.length_eq_zero_iff.1 hnil] at hs
    cases hs

namespace Sample

/-- The run expires while the host has its call, and the outcome is unknown. -/
def expired : List Act :=
  started ++ placed "10" "04" ++
    [.permit ⟨61000, 61000⟩, .respond (.error (.connection "timeout")) saved, .settle, .fail, .mark saved].map worker

end Sample

/-- A control whose lock section comes between the save of `Completed` and `finish`
makes the run `Stopped`, and it is resumed. A run that is marked `Completed` with its
action pending waits for recovery after `finish`. -/
theorem completed_resumed :
    let w := run (World.step Crates.sample) (World.init Crates.sample .default) Sample.stopped
    let w₁ := run (World.step Crates.sample) w Sample.controlled
    let w₂ := run (World.step Crates.sample) w₁
      [Sample.access Sample.authority "05", Sample.start Sample.authority "05" "06" (some (Sample.uuid "03")) 1000]
    let v := run (World.step Crates.sample) (World.init Crates.sample .default) Sample.expired
    (Sample.shown w = some [.completed] ∧ Sample.shown w₁ = some [.stopped] ∧ Sample.shown w₂ = some [.running] ∧
      w₂.live.map (·.runId) = [Sample.uuid "03"]) ∧
      Sample.shown v = some [.completed] ∧
      Sample.shown (v.step Crates.sample (Sample.worker (.finish Sample.saved))) = some [.recoveryRequired] := by
  decide +kernel

end EasiFlux
