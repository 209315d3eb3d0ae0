import EasiFlux.Proof.Base

/-!
# What a step does to the documents

`Base` knows what a live run may rely on. Here is, said once, what a step of the
system does to the documents and to the live map (`step_shape`), with the rest of a
world forgotten (`World.shape`):

* `Section`: the documents that a lock section passes to `save`;
* `Reshapes`: a step leaves the shape, or saves such a document, or a run starts,
  finishes, or the process restarts.

The invariants on documents are proved by cases on `Reshapes`.
-/

namespace EasiFlux

open Fixed Results World Steps

variable {K : Crates} {w : World}

/-! ## Shapes -/

/-- The part of a session that no step changes. -/
def Session.fixed (s : Session) : Session := { s with intent := 0, lastWall := 0, phase := .loop }

@[simp] theorem fixed_runId (s : Session) : s.fixed.runId = s.runId := rfl
@[simp] theorem fixed_authority (s : Session) : s.fixed.authority = s.authority := rfl
@[simp] theorem fixed_floor (s : Session) (mono : ℕ) : s.fixed.floor mono = s.floor mono := rfl

/-- What the invariants on documents see of a world. -/
structure Shape where
  docs : Docs
  unavailable : Bool
  live : List Session
  mono : ℕ
  spent : String → ℕ
  offered : List StrategyDocument

def World.shape (w : World) : Shape where
  docs := w.docs
  unavailable := w.unavailable
  live := w.live.map Session.fixed
  mono := w.mono
  spent := w.spent
  offered := w.offered

theorem map_fixed {l : List Session} {f : Session → Session} (h : ∀ s ∈ l, (f s).fixed = s.fixed) :
    (l.map f).map Session.fixed = l.map Session.fixed := by
  rw [List.map_map]
  exact List.map_congr_left h

theorem revoke_fixed (s : Session) (stop : Bool) : (s.revoke stop).fixed = s.fixed := rfl

theorem mem_shape_live {s : Session} (h : s ∈ w.live) : s.fixed ∈ w.shape.live := List.mem_map_of_mem h

/-- A run without a session is not live. -/
theorem notLive_shape {id : String} : w.isLive id = false ↔ ∀ s ∈ w.shape.live, s.runId ≠ id := by
  rw [isLive_eq_false]
  exact ⟨fun h s hs => by obtain ⟨t, ht, rfl⟩ := List.mem_map.1 hs; exact h t ht,
    fun h s hs => h s.fixed (mem_shape_live hs)⟩

/-! ## Saves -/

theorem find_prepare (w : World) (next : Version) (wall : ℕ) (id : String) :
    (w.prepare next wall).doc.find id = (next.doc.find id).map (w.observe wall) :=
  find_mapRuns fun r => runId_of_core (core_observe w wall r)

theorem find_overlay (d : StrategyDocument) (id : String) :
    (d.mapRuns RunRecord.overlay).find id = (d.find id).map RunRecord.overlay :=
  find_mapRuns fun _ => rfl

@[simp] theorem observe_status (w : World) (wall : ℕ) (r : RunRecord) :
    (w.observe wall r).view.status = r.view.status := by
  unfold World.observe; split <;> rfl

section Save

variable {next : Version} {i : SaveInput}

/-- The shape after the store acknowledged `next`. -/
def Shape.stored (σ : Shape) (next : Version) : Shape :=
  { σ with docs := ⟨next, next, []⟩, offered := next.doc :: σ.offered }

/-- The shape after a failed save of `next`. -/
def Shape.failed (σ : Shape) (next : Version) (unacked : List Version) (offered : List StrategyDocument) : Shape :=
  { σ with
    docs := ⟨{ next with doc := next.doc.mapRuns RunRecord.overlay }, σ.docs.durable, unacked⟩
    unavailable := true
    offered := offered }

theorem stored_shape (w : World) (n : Version) : (w.stored n).shape = w.shape.stored n := rfl

theorem storageFailed_shape (w : World) (n : Version) :
    (w.storageFailed n).shape = w.shape.failed n w.shape.docs.unacked w.shape.offered := by
  unfold World.storageFailed World.shape Shape.failed
  simp only [map_fixed fun s _ => revoke_fixed s false]
  rfl

theorem notStored_shape (w : World) (n : Version) (kept : Bool) :
    (w.notStored n kept).shape = w.shape.failed n
      (if kept then n :: w.shape.docs.unacked else w.shape.docs.unacked) (n.doc :: w.shape.offered) := by
  unfold World.notStored World.storageFailed World.shape Shape.failed
  simp only [map_fixed fun s _ => revoke_fixed s false]
  rfl

/-- **What a save does to the shape.** -/
theorem save_shape (K : Crates) (w : World) (next : Version) (i : SaveInput) :
    let n := w.prepare next i.wall.toNat
    (2 ^ 64 ≤ w.memory.doc.revision + 1 ∧ (w.save K next i).1.shape = w.shape) ∨
    (w.unavailable = false ∧ n.doc.validate K = true ∧ (w.save K next i).1.shape = w.shape.stored n) ∨
    ∃ unacked offered, (unacked = w.unacked ∨ w.unavailable = false ∧ unacked = n :: w.unacked) ∧
      (offered = w.offered ∨ w.unavailable = false ∧ offered = n.doc :: w.offered) ∧
      (w.save K next i).1.shape = w.shape.failed n unacked offered := by
  intro n
  rcases save_cases K w next i with ⟨hr, he⟩ | ⟨hu, hv, he⟩ | ⟨u, o, hu, ho, he⟩
  · exact Or.inl ⟨hr, by rw [he]⟩
  · exact Or.inr (Or.inl ⟨hu, hv, by rw [he]; rfl⟩)
  · refine Or.inr (Or.inr ⟨u, o, hu, ho, ?_⟩)
    have hs := storageFailed_shape w n
    rw [he]
    exact congrArg (fun σ : Shape => { σ with docs := { σ.docs with unacked := u }, offered := o }) hs

/-- A save that returned `Ok` was acknowledged. -/
theorem saved_shape (h : (w.save K next i).2 = true) :
    (w.save K next i).1.shape = w.shape.stored (w.prepare next i.wall.toNat) := by
  obtain ⟨-, -, he⟩ := save_ok h
  rw [he]
  rfl

/-- What no save changes of the shape. -/
theorem save_shape_frame (K : Crates) (w : World) (next : Version) (i : SaveInput) :
    (w.save K next i).1.shape.live = w.shape.live ∧ (w.save K next i).1.shape.mono = w.shape.mono ∧
      (w.save K next i).1.shape.spent = w.shape.spent := by
  rcases save_shape K w next i with ⟨-, he⟩ | ⟨-, -, he⟩ | ⟨_, _, -, -, he⟩ <;> rw [he] <;> exact ⟨rfl, rfl, rfl⟩

theorem session_shape {w w' : World} (h : w'.live.map Session.fixed = w.live.map Session.fixed) (id : String) :
    (w'.session id).map Session.fixed = (w.session id).map Session.fixed := by
  have hfind : ∀ l : List Session, (l.find? fun s => s.runId = id).map Session.fixed =
      (l.map Session.fixed).find? fun s => s.runId = id := by
    intro l
    rw [List.find?_map]
    rfl
  unfold World.session
  rw [hfind, hfind, h]

/-- What a save offers depends on the shape only. -/
theorem prepare_shape {w w' : World} (h : w'.shape = w.shape) (next : Version) (wall : ℕ) :
    w'.prepare next wall = w.prepare next wall := by
  have hm : w'.memory = w.memory := congrArg (·.docs.memory) h
  have hmono : w'.mono = w.mono := congrArg Shape.mono h
  have hob : w'.observe wall = w.observe wall := by
    funext r
    have hs := session_shape (congrArg Shape.live h) r.view.runId
    unfold World.observe
    cases h₁ : w'.session r.view.runId with
    | none =>
      rw [h₁] at hs
      have h₂ : w.session r.view.runId = none := by simpa using hs.symm
      rw [h₂]
    | some s' =>
      rw [h₁] at hs
      obtain ⟨s, h₂, hfix⟩ := Option.map_eq_some_iff.1 hs.symm
      have hfl : s'.floor w.mono = s.floor w.mono := by
        rw [← fixed_floor s', ← fixed_floor s, hfix]
      rw [h₂, hmono]
      simp only [hfl]
  unfold World.prepare
  rw [hob, hm]

/-- Saves of worlds of one shape do the same to it. -/
theorem save_shape_congr {w w' : World} (h : w'.shape = w.shape) (next : Version) (i : SaveInput) :
    (w'.save K next i).1.shape = (w.save K next i).1.shape ∧ (w'.save K next i).2 = (w.save K next i).2 := by
  have hp := prepare_shape h next i.wall.toNat
  have hm : w'.memory = w.memory := congrArg (·.docs.memory) h
  have hu : w'.unavailable = w.unavailable := congrArg Shape.unavailable h
  unfold World.save
  rw [hm, hp, hu]
  split_ifs
  · simp only [storageFailed_shape, h, and_self]
  · simp only [World.offer]
    split_ifs
    · cases i.stored <;> simp only [stored_shape, notStored_shape, h, and_self]
    · simp only [notStored_shape, h, and_self]
  · exact ⟨h, rfl⟩

end Save

/-! ## Sections -/

/-- **The documents of the lock sections** of an action in state `w`. -/
inductive Section (K : Crates) (w : World) : Act → Version → Prop
  | worker (id : String) (s : Session) (m : Move) (next : Version) (ok err : Phase) (minted : List String)
      (session : w.session id = some s) (saves : Saves K w s m next ok err minted) : Section K w (.worker id m) next
  | finish (id : String) (s : Session) (i : SaveInput) (r : RunRecord) (session : w.session id = some s)
      (phase : s.phase = .finishing) (state : w.state s.runId = some r) :
      Section K w (.worker id (.finish i)) (w.edit s.runId (r.finish s.intent))
  | control (id : String) (stop : Bool) (i : SaveInput) (r : RunRecord) (state : w.state id = some r) :
      Section K w (.locked (.one id stop) i) (w.edit id (r.control (w.isLive id) stop))
  | stopAll (i : SaveInput) :
      Section K w (.locked .all i)
        { w.memory with doc := w.memory.doc.mapRuns fun r => r.stopAll (w.isLive r.view.runId) }
  | start (t : Ticket) (i : Start) (r : RunRecord) (doc : StrategyDocument) (valid : i.request.validate K = true)
      (admitted : Admitted K w t i r doc) : Section K w (.start i) { w.memory with doc := doc }
  | recover (m : RecoveryMove) (ρ : Recovery) (r r' : RunRecord) (recovery : w.recovery = some ρ)
      (state : w.state ρ.runId = some r) (recovers : Recovers ρ r m r') :
      Section K w (.recover m) (w.edit ρ.runId r')

/-! ## Records -/

theorem Starts.resolved {t : Ticket} {i : Start} {r : RunRecord} {doc : StrategyDocument} (h : Starts K w t i r doc) :
    r.pending = none := by
  cases h with
  | resume id old asked state checks => exact (resumable_iff checks).2.1
  | fresh => rfl

/-- The runs of a document that starts a run. -/
theorem Starts.find {t : Ticket} {i : Start} {r : RunRecord} {doc : StrategyDocument} (h : Starts K w t i r doc)
    {id : String} {x : RunRecord} (hx : doc.find id = some x) : x = r ∨ w.memory.doc.find id = some x := by
  cases h with
  | resume id' old asked state checks =>
    have hold : old.view.runId = id' := find_runId state
    have hid : (startRecord old i).view.runId = id' := hold
    by_cases he : id = id'
    · subst he
      rw [find_put_self state hid] at hx
      exact Or.inl (Option.some.inj hx).symm
    · rw [find_put_ne hid he] at hx
      exact Or.inr hx
  | fresh asked room fresh expires =>
    cases hf : w.memory.doc.find id with
    | none =>
      rw [find_push_none hf] at hx
      split at hx
      · exact Or.inl (Option.some.inj hx).symm
      · cases hx
    | some y =>
      rw [find_push_some hf] at hx
      exact Or.inr (by rw [hx])

/-- Only known codes are given as reasons. -/
def ReasonOk (reason : Option String) : Prop := ∀ code ∈ reason, code ∈ reasons

/-- The action brings the answer to a pending action, from the host or in a recovery. -/
def Answered (w : World) (a : Act) (id : String) (p : PendingAction) (response : AppResult StrategyMutationResponse) :
    Prop :=
  (∃ i s c denied, a = .worker id (.respond response i) ∧ w.session id = some s ∧ s.phase = .calling c p denied) ∨
    ∃ result i ρ, a = .recover (.answer result i) ∧ w.recovery = some ρ ∧ ρ.runId = id ∧ ρ.pending = p ∧
      ρ.phase = .asking ∧ recoveryResponse p result = some response

/-- The answer a worker makes itself when it is refused. -/
def locallyRejected : AppResult StrategyMutationResponse :=
  .error (.orderSubmissionRejected "local admission revoked")

/-- The mutations made pending for a run in a document's history. -/
def Version.madeOf (v : Version) (id : String) : List PendingAction :=
  (v.made.filter fun e => e.1 = id).map (·.2)

/-- **What a lock section does to the record of a run that was there**, and the
mutation it makes pending. -/
inductive Rewrites (K : Crates) (w : World) : Act → RunRecord → List PendingAction → RunRecord → Prop
  | same (a : Act) (r : RunRecord) : Rewrites K w a r [] r
  | status (a : Act) (r : RunRecord) (st : StrategyStatus) (reason : Option String)
      (code : ReasonOk r.view.reason → ReasonOk reason) : Rewrites K w a r [] (r.setStatus st reason)
  | rest (s : Session) (m : Move) (c : Reading) (output : StrategyOutput) (r : RunRecord) (now : UInt64) (keep : Bool)
      (session : w.session s.runId = some s) (phase : s.phase = .validated c output (if keep then .none else .stop))
      (base : w.commitBase s c = .ok r) : Rewrites K w (.worker s.runId m) r [] (restRecord r c output now keep)
  | pending (s : Session) (c : Reading) (output : StrategyOutput) (action : StrategyAction) (r r' : RunRecord)
      (now : UInt64) (id : String) (i : SaveInput) (session : w.session s.runId = some s)
      (phase : s.phase = .validated c output action) (base : w.commitBase s c = .ok r)
      (mutation : action ≠ .none ∧ action ≠ .stop) (fresh : action.isPlacement = true → w.freshId K id = true)
      (commit : commitMutation K (r.advance (c.record.view.sequence + 1) now.toNat) action
        (pendingOf action output (c.record.view.sequence + 1) id) = .ok r') :
      Rewrites K w (.worker s.runId (.commit now i id)) r [pendingOf action output (c.record.view.sequence + 1) id] r'
  | respond (a : Act) (p : PendingAction) (response : AppResult StrategyMutationResponse) (r r' : RunRecord)
      (order : Option Order) (asked : Answered w a r.view.runId p response ∨ response = locallyRejected)
      (record : respondRecord r p response = .ok (r', order)) : Rewrites K w a r [] r'
  | clear (a : Act) (p : PendingAction) (r r' : RunRecord) (record : clearRecord r p = .ok r') :
      Rewrites K w a r [] r'
  | resume (t : Ticket) (i : Start) (old : RunRecord) (asked : i.request.resumeRunId = some old.view.runId)
      (checks : resumable t i old = true) : Rewrites K w (.start i) old [] (startRecord old i)

theorem stopReason_ok (stop : Bool) : ReasonOk (stopReason stop) := by
  intro code hc
  cases stop <;> cases hc <;> decide +kernel

theorem recoveryRequired_ok : ReasonOk recoveryRequired := by
  intro code hc
  cases hc
  decide +kernel

theorem control_rewrites (a : Act) (r : RunRecord) (live stop : Bool) : Rewrites K w a r [] (r.control live stop) := by
  unfold RunRecord.control
  split_ifs
  · exact .status a r _ _ fun _ => stopReason_ok stop
  · exact .status a r _ _ fun _ => recoveryRequired_ok
  · exact .status a r _ _ fun _ => stopReason_ok stop
  · exact .same a r

theorem stopAll_rewrites (a : Act) (r : RunRecord) (live : Bool) : Rewrites K w a r [] (r.stopAll live) := by
  unfold RunRecord.stopAll
  split_ifs
  · exact .status a r _ _ fun _ => stopReason_ok true
  · exact .status a r _ _ fun _ => recoveryRequired_ok
  · exact .status a r _ _ fun _ => stopReason_ok true
  · exact .same a r

theorem finish_rewrites (a : Act) (r : RunRecord) (intent : ℕ) : Rewrites K w a r [] (r.finish intent) := by
  unfold RunRecord.finish
  split_ifs
  · exact .status a r _ _ fun _ => recoveryRequired_ok
  · exact .status a r _ _ id
  · exact .status a r _ _ fun _ => stopReason_ok _
  · exact .same a r

/-- The records of an edited document. -/
theorem find_edit {id id' : String} {r r' x : RunRecord} (hs : w.state id = some r) (hr : r'.view.runId = r.view.runId)
    (hx : (w.memory.doc.put id r').find id' = some x) :
    id' = id ∧ x = r' ∨ id' ≠ id ∧ w.state id' = some x := by
  have hid : r'.view.runId = id := hr.trans (find_runId hs)
  by_cases he : id' = id
  · subst he
    rw [find_put_self hs hid] at hx
    exact Or.inl ⟨rfl, (Option.some.inj hx).symm⟩
  · rw [find_put_ne hid he] at hx
    exact Or.inr ⟨he, hx⟩

/-- The records of a worker's section. -/
theorem saves_rewrites {s : Session} {m : Move} {next : Version} {ok err : Phase} {minted : List String} (hb : Base K w)
    (hs : w.session s.runId = some s) (h : Saves K w s m next ok err minted) :
    ∃ r made r', w.state s.runId = some r ∧ SameRun r r' ∧ next.doc = w.memory.doc.put s.runId r' ∧
      next.made = made.map (s.runId, ·) ++ w.memory.made ∧ Rewrites K w (.worker s.runId m) r made r' := by
  have hack : ReasonOk (some "plugin_strategy_ack_failed") := by
    intro code hc
    cases hc
    decide +kernel
  cases h with
  | rest c output r now keep phase base =>
    exact ⟨r, [], _, (commitBase_ok base).2.2.1, rest_kept r c output now keep, rfl, rfl,
      .rest s m c output r now keep hs phase base⟩
  | pending c output action r r' now id i move phase base mutation fresh commit =>
    have hk := (commit_kept commit).1
    subst move
    exact ⟨r, _, r', (commitBase_ok base).2.2.1, ⟨hk.fixed⟩, rfl, rfl,
      .pending s c output action r r' now id i hs phase base mutation fresh commit⟩
  | respond p response r r' order ok from_ state record next =>
    refine ⟨r, [], r', state, respond_kept record, rfl, rfl, .respond _ p response r r' order ?_ record⟩
    rw [find_runId state]
    rcases from_ with ⟨c, denied, i, hp, rfl⟩ | ⟨failure, -, rfl⟩
    · exact Or.inl (Or.inl ⟨i, s, c, denied, rfl, hs, hp⟩)
    · exact Or.inr rfl
  | clear p o denied r r' phase state record => exact ⟨r, [], r', state, clear_kept record, rfl, rfl, .clear _ p r r' record⟩
  | ackFailed p o denied r phase state =>
    exact ⟨r, [], r.setStatus .recoveryRequired (some "plugin_strategy_ack_failed"), state, ⟨rfl⟩, rfl, rfl,
      .status _ r _ _ fun _ => hack⟩
  | mark status reason r i move phase state =>
    refine ⟨r, [], r.setStatus status (some reason), state, ⟨rfl⟩, rfl, rfl, .status _ r status _ fun _ code hc => ?_⟩
    have hch := (hb.sessions s (session_some hs).1).checked
    rw [phase] at hch
    cases hc
    exact hch

theorem Recovers.rewrites {ρ : Recovery} {r r' : RunRecord} {m : RecoveryMove} (hρ : w.recovery = some ρ)
    (hid : r.view.runId = ρ.runId) (h : Recovers ρ r m r') : Rewrites K w (.recover m) r [] r' := by
  cases h with
  | respond result i response r' order move asking from_ record =>
    subst move
    exact .respond _ ρ.pending response r r' order (Or.inl (Or.inr ⟨result, i, ρ, rfl, hρ, hid.symm, rfl, asking, from_⟩))
      record
  | clear order r' phase record => exact .clear _ ρ.pending r r' record
  | ackFailed order phase =>
    refine .status _ r _ _ fun _ code hc => ?_
    cases hc
    decide +kernel
  | pause resolved phase => exact .status _ r _ _ fun _ => stopReason_ok false

/-- **The records of a section**: of a run that was there, or of a new one. -/
theorem Section.rewrites (hb : Base K w) {a : Act} {next : Version} (hn : Section K w a next) {id : String}
    {r' : RunRecord} (hf : next.doc.find id = some r') :
    (∃ r made, w.state id = some r ∧ Rewrites K w a r made r' ∧ next.madeOf id = made ++ w.memory.madeOf id) ∨
      ∃ t i doc, a = .start i ∧ i.request.validate K = true ∧ Admitted K w t i r' doc ∧
        r' = startRecord (newRecord t i) i ∧ id = i.runId ∧ w.freshId K i.runId = true ∧
        i.now.toNat + i.request.policy.maxRunSeconds * 1000 < 2 ^ 64 ∧ next.made = w.memory.made := by
  have hsame : ∀ r, w.state id = some r → next.made = w.memory.made → ∀ {r'}, Rewrites K w a r [] r' →
      ∃ r made, w.state id = some r ∧ Rewrites K w a r made r' ∧ next.madeOf id = made ++ w.memory.madeOf id := by
    intro r hr hm r' hrw
    refine ⟨r, [], hr, hrw, ?_⟩
    unfold Version.madeOf
    rw [hm]
    rfl
  cases hn with
  | worker id₀ s m next ok err minted session saves =>
    obtain ⟨hlive, rfl⟩ := session_some session
    obtain ⟨r, made, r₁, hr, hk, hnext, hmade, hrw⟩ := saves_rewrites hb session saves
    rw [hnext] at hf
    refine Or.inl ?_
    rcases find_edit hr hk.runId hf with ⟨rfl, rfl⟩ | ⟨hne, hs⟩
    · -- the worker's own record, with what it has made:
      refine ⟨r, made, hr, hrw, ?_⟩
      unfold Version.madeOf
      rw [hmade, List.filter_append, List.map_append, List.filter_map]
      simp [Function.comp_def]
    · -- another record, for which nothing was made:
      refine ⟨r', [], hs, .same _ r', ?_⟩
      unfold Version.madeOf
      rw [hmade, List.filter_append, List.filter_map]
      have hnone : (made.filter ((fun e => decide (e.1 = id)) ∘ fun p => (s.runId, p))) = [] := by
        simp [Function.comp_def, Ne.symm hne]
      rw [hnone]
      rfl
  | finish id₀ s i r session phase state =>
    rcases find_edit state (runId_of_core (core_finish _ _)) hf with ⟨rfl, rfl⟩ | ⟨-, hs⟩
    · exact Or.inl (hsame r state rfl (finish_rewrites _ _ _))
    · exact Or.inl (hsame r' hs rfl (.same _ r'))
  | control id₀ stop i r state =>
    rcases find_edit state (runId_of_core (core_control _ _ _)) hf with ⟨rfl, rfl⟩ | ⟨-, hs⟩
    · exact Or.inl (hsame r state rfl (control_rewrites _ _ _ _))
    · exact Or.inl (hsame r' hs rfl (.same _ r'))
  | stopAll i =>
    have hf' := (find_mapRuns fun x => runId_of_core (core_stopAll x _)).symm.trans hf
    obtain ⟨x, hx, rfl⟩ := Option.map_eq_some_iff.1 hf'
    exact Or.inl (hsame x hx rfl (stopAll_rewrites _ _ _))
  | start t i r doc valid admitted =>
    have hst := admitted.starts
    cases hst with
    | resume id₀ old asked state checks =>
      have hold : old.view.runId = id₀ := find_runId state
      have hid : (startRecord old i).view.runId = old.view.runId := rfl
      rcases find_edit state hid hf with ⟨rfl, rfl⟩ | ⟨-, hs⟩
      · exact Or.inl (hsame old state rfl (.resume t i old (asked.trans (congrArg some hold.symm)) checks))
      · exact Or.inl (hsame r' hs rfl (.same _ r'))
    -- the new record is found under its id, where there was none:
    | fresh asked room fresh expires =>
      cases hm : w.memory.doc.find id with
      | none =>
        have hf' := (find_push_none hm).symm.trans hf
        split at hf'
        · rename_i hid
          cases hf'
          exact Or.inr ⟨t, i, _, rfl, valid, admitted, rfl, hid.symm, fresh, expires, rfl⟩
        · cases hf'
      | some y =>
        have hf' := (find_push_some hm).symm.trans hf
        cases hf'
        exact Or.inl (hsame r' hm rfl (.same _ r'))
  | recover m ρ r r₁ recovery state recovers =>
    rcases find_edit state recovers.kept.runId hf with ⟨rfl, rfl⟩ | ⟨-, hs⟩
    · exact Or.inl (hsame r state rfl (recovers.rewrites recovery (find_runId state)))
    · exact Or.inl (hsame r' hs rfl (.same _ r'))

/-! ## Shapes of a step -/

/-- The live map without a run. -/
def Shape.drop (σ : Shape) (id : String) : Shape := { σ with live := σ.live.filter fun t => t.runId ≠ id }

def Shape.add (σ : Shape) (s : Session) : Shape := { σ with live := s.fixed :: σ.live }

/-- **What a step does to the shape.** -/
inductive Reshapes (K : Crates) (w : World) : Act → Shape → Prop
  | quiet (a : Act) : Reshapes K w a w.shape
  | tick (d : ℕ) : Reshapes K w (.tick d) (w.tick d).shape
  | save (a : Act) (next : Version) (i : SaveInput) (section_ : Section K w a next) :
      Reshapes K w a (w.save K next i).1.shape
  /-- a run starts -/
  | start (t : Ticket) (i : Start) (r : RunRecord) (doc : StrategyDocument) (valid : i.request.validate K = true)
      (admitted : Admitted K w t i r doc) (saved : (w.save K { w.memory with doc := doc } i.save).2 = true) :
      Reshapes K w (.start i) ((w.save K { w.memory with doc := doc } i.save).1.shape.add (w.newSession t i r))
  /-- a run was saved to start, and a control came -/
  | halt (t : Ticket) (i : Start) (r r' : RunRecord) (doc : StrategyDocument) (w' : World)
      (valid : i.request.validate K = true) (admitted : Admitted K w t i r doc)
      (saved : (w.save K { w.memory with doc := doc } i.save).2 = true) (shape : w'.shape = (w.save K { w.memory with doc := doc } i.save).1.shape)
      (state : w'.state r.view.runId = some r') :
      Reshapes K w (.start i)
        (w'.save K (w'.edit r.view.runId (r'.setStatus .stopped (stopReason true))) i.second).1.shape
  | finish (id : String) (s : Session) (i : SaveInput) (r : RunRecord) (session : w.session id = some s)
      (phase : s.phase = .finishing) (available : w.unavailable = false) (state : w.state s.runId = some r) :
      Reshapes K w (.worker id (.finish i))
        ((w.save K (w.edit s.runId (r.finish s.intent)) i).1.shape.drop s.runId)
  | drop (id : String) (s : Session) (i : SaveInput) (session : w.session id = some s) (phase : s.phase = .finishing)
      (unavailable : w.unavailable = true) : Reshapes K w (.worker id (.finish i)) (w.shape.drop s.runId)
  | restart (pick : Option ℕ) : Reshapes K w (.restart pick) (w.restart K pick).shape

/-- A section of a world of the same shape. -/
theorem Reshapes.save_of {w₀ : World} {a : Act} {next : Version} (h : w₀.shape = w.shape) (i : SaveInput)
    (hs : Section K w a next) : Reshapes K w a (w₀.save K next i).1.shape := by
  rw [(save_shape_congr h next i).1]
  exact .save a next i hs

/-! ## The steps -/

/-- Revoking runs changes their intents only. -/
theorem revokeRuns_shape (w : World) (k : Control) : (w.revokeRuns k).shape = w.shape := by
  cases k with
  | one id stop =>
    have h : ∀ s ∈ w.live, (if s.runId = id then s.revoke stop else s).fixed = s.fixed := by
      intro s _
      split_ifs <;> rfl
    unfold World.revokeRuns World.shape
    simp only [map_fixed h]
    rfl
  | all =>
    unfold World.revokeRuns World.shape
    simp only [map_fixed fun s _ => revoke_fixed s true]
    rfl

theorem revokeIntent_shape (w : World) (k : Control) : (w.revokeIntent k).shape = w.shape := by
  unfold World.revokeIntent
  split
  · exact revokeRuns_shape ({ w with admission := w.admission + 1 } : World) k
  · rfl

theorem exit_shape (w : World) : w.exit.shape = w.shape := by
  unfold World.exit
  simp only
  split
  · exact revokeRuns_shape ({ w with closed := true, admission := w.admission + 1 } : World) .all
  · rfl

theorem access_shape (K : Crates) (w : World) (i : Access) : (w.access K i).shape = w.shape := by
  unfold World.access
  split
  · rfl
  · simp only
    split_ifs <;> rfl

theorem setPhase_shape (w : World) (id : String) (ph : Phase) : (w.setPhase id ph).shape = w.shape := by
  have h : ∀ s ∈ w.live, (if s.runId = id then s.goto ph else s).fixed = s.fixed := by
    intro s _
    split_ifs <;> rfl
  unfold World.setPhase World.shape
  simp only [map_fixed h]
  rfl

theorem go_shape (w : World) (s : Session) (ph : Phase) (lw : ℕ) : (w.apply K s (.go ph lw)).shape = w.shape := by
  have h : ∀ t ∈ w.live, (if t.runId = s.runId then { t.goto ph with lastWall := lw } else t).fixed = t.fixed := by
    intro t _
    split_ifs <;> rfl
  unfold World.apply World.shape
  simp only [map_fixed h]
  rfl

theorem noteStart_shape (w : World) (i : Start) (r : RunRecord) : (w.noteStart i r).shape = w.shape := by
  unfold World.noteStart
  split <;> rfl

theorem race_shape (w : World) (i : Start) : (w.race i).shape = w.shape := by
  unfold World.race
  split
  · rfl
  · exact revokeIntent_shape w _

/-- The section of a control. -/
theorem lockSection_shape (K : Crates) (w : World) (k : Control) (i : SaveInput) :
    Reshapes K w (.locked k i) (({ w with waiting := w.waiting.erase k } : World).lockSection K k i).shape := by
  unfold World.lockSection
  simp only
  cases k with
  | one id stop =>
    simp only
    split
    · exact .quiet _
    · rename_i r hr
      have hs : Section K w (.locked (.one id stop) i) (w.edit id (r.control (w.isLive id) stop)) := .control id stop i r hr
      refine Reshapes.save_of ?_ i hs
      rfl
  | all =>
    simp only
    split
    · exact .quiet _
    · have hs : Section K w (.locked .all i) _ := .stopAll i
      refine Reshapes.save_of ?_ i hs
      rfl

/-- The step of a worker. -/
theorem worker_shape (h : Base K w) {id : String} {s : Session} (hs : w.session id = some s) (m : Move) :
    Reshapes K w (.worker id m) (w.apply K s (w.move K s m)).shape := by
  have hspec := move_spec K w s m
  cases he : w.move K s m with
  | none => exact .quiet _
  | go ph lw => exact go_shape (K := K) w s ph lw ▸ .quiet _
  | save next i ok err minted =>
    rw [he] at hspec
    have hsh := setPhase_shape (w.save K next i).1 s.runId (if (w.save K next i).2 then ok else err)
    exact hsh ▸ .save _ next i (.worker id s m next ok err minted hs hspec)
  | hand p call ph =>
    have hsh := setPhase_shape ({ w with trace := .handed s.runId p call :: w.trace } : World) s.runId ph
    exact hsh ▸ .quiet _
  | finish i =>
    rw [he] at hspec
    obtain ⟨hp, rfl⟩ := hspec
    obtain ⟨c, hc, -⟩ := (h.sessions s (session_some hs).1).known
    obtain ⟨r, hr, -⟩ := Version.core_eq_some.1 hc
    have hdrop : ∀ w' : World, (({ w' with live := w'.live.filter fun t => t.runId ≠ s.runId } : World)).shape =
        w'.shape.drop s.runId := by
      intro w'
      unfold World.shape Shape.drop
      simp only [List.filter_map]
      rfl
    unfold World.apply World.finish
    simp only
    rw [hdrop]
    cases hu : w.unavailable with
    | true => exact .drop id s i hs hp hu
    | false =>
      have hst : w.state s.runId = some r := hr
      rw [if_neg (by simp), hst]
      exact .finish id s i r hs hp hu hst

/-- A start, by what became of it. -/
theorem start_shape (K : Crates) (w : World) (i : Start) : Reshapes K w (.start i) (w.start K i).shape := by
  unfold World.start
  split
  · rename_i hc
    split
    · exact .quiet _
    · rename_i t ht
      set w₀ : World := { w with tickets := w.tickets.filter (·.1 ≠ i.request.authorizationToken) } with hw₀
      have hadm : w₀.admitStart K t i = w.admitStart K t i := rfl
      unfold World.startWith
      rw [hadm]
      split
      · exact .quiet _
      · rename_i r doc hok
        have had := admitStart_ok hok
        have hsh : ({ w₀ with minted := r.view.runId :: w₀.minted } : World).shape = w.shape := rfl
        have hsave := save_shape_congr (K := K) hsh { w.memory with doc := doc } i.save
        have hstart : w₀.startSave K i r doc =
          ({ w₀ with minted := r.view.runId :: w₀.minted } : World).save K { w.memory with doc := doc } i.save := rfl
        rw [hstart]
        split
        · rename_i hsaved
          rw [hsave.2] at hsaved
          generalize ({ w₀ with minted := r.view.runId :: w₀.minted } : World).save K { w.memory with doc := doc }
            i.save = x at hsave
          have hw₁ : ((x.1.noteStart i r).race i).shape = (w.save K { w.memory with doc := doc } i.save).1.shape := by
            rw [race_shape, noteStart_shape, hsave.1]
          generalize (x.1.noteStart i r).race i = w₁ at hw₁
          unfold World.goLive
          split
          · have hmono : w₁.mono = w.mono := by
              have := congrArg Shape.mono hw₁
              exact this.trans (save_frame K w _ _).mono
            have hnew : w₁.newSession t i r = w.newSession t i r := by
              unfold World.newSession
              rw [hmono]
            have hadd : (({ w₁ with live := w₁.newSession t i r :: w₁.live } : World)).shape =
                w₁.shape.add (w₁.newSession t i r) := rfl
            rw [hadd, hnew, hw₁]
            exact .start t i r doc hc.1 had hsaved
          · split
            · exact hw₁ ▸ .save _ _ _ (.start t i r doc hc.1 had)
            · rename_i r' hr'
              exact .halt t i r r' doc w₁ hc.1 had hsaved hw₁ hr'
        · refine Reshapes.save_of ?_ _ (.start t i r doc hc.1 had)
          rfl
  · exact .quiet _

/-- The step of a recovery. -/
theorem recover_shape (K : Crates) (w : World) {ρ : Recovery} (hρ : w.recovery = some ρ) (m : RecoveryMove) :
    Reshapes K w (.recover m) (w.recover K ρ m).shape := by
  rcases recover_cases K w ρ m with he | ⟨ph, he⟩ | ⟨r, r', i, stored, failed, hs, hr, he⟩ <;> rw [he]
  · exact .quiet _
  · exact .quiet _
  · exact .save _ _ i (.recover m ρ r r' hρ hs hr)

/-- **Every step is one of these.** -/
theorem step_shape (h : Base K w) (a : Act) : Reshapes K w a (w.step K a).shape := by
  cases a with
  | tick d => exact .tick d
  | newEpoch => exact .quiet _
  | access i => exact access_shape K w i ▸ .quiet _
  | start i => exact start_shape K w i
  | revoke k =>
    simp only [World.step]
    split
    · exact revokeIntent_shape w k ▸ .quiet _
    · exact .quiet _
  | locked k i =>
    simp only [World.step]
    split
    · exact lockSection_shape K w k i
    · exact .quiet _
  | exit => exact exit_shape w ▸ .quiet _
  | worker id m =>
    simp only [World.step]
    split
    · exact .quiet _
    · rename_i s hs
      exact worker_shape h hs m
  | reconcile id current scope =>
    simp only [World.step]
    split <;> exact .quiet _
  | recover m =>
    simp only [World.step]
    split
    · exact .quiet _
    · rename_i ρ hρ
      exact recover_shape K w hρ m
  | restart pick => exact .restart pick

/-! ## The uuids in use -/

theorem goLive_minted (K : Crates) (w : World) (t : Ticket) (i : Start) (r : RunRecord) :
    (w.goLive K t i r).minted = w.minted := by
  unfold World.goLive
  split
  · rfl
  · split
    · rfl
    · exact (save_frame K w _ _).minted

theorem revokeIntent_minted (w : World) (k : Control) : (w.revokeIntent k).minted = w.minted := by
  unfold World.revokeIntent
  split
  · cases k <;> rfl
  · rfl

theorem race_minted (w : World) (i : Start) : (w.race i).minted = w.minted := by
  unfold World.race
  split
  · rfl
  · exact revokeIntent_minted w _

theorem startWith_minted (K : Crates) (w : World) (t : Ticket) (i : Start) : w.minted ⊆ (w.startWith K t i).minted := by
  unfold World.startWith
  split
  · exact List.Subset.refl _
  · rename_i r doc hok
    have hs : (w.startSave K i r doc).1.minted = r.view.runId :: w.minted := (save_frame K _ _ _).minted
    split
    · rw [goLive_minted, race_minted, (noteStart_frame _ i r).2.2.2, hs]
      exact List.subset_cons_self _ _
    · rw [hs]
      exact List.subset_cons_self _ _

theorem recover_minted (K : Crates) (w : World) (ρ : Recovery) (m : RecoveryMove) : (w.recover K ρ m).minted = w.minted := by
  rcases recover_cases K w ρ m with he | ⟨ph, he⟩ | ⟨r, r', i, stored, failed, -, -, he⟩ <;> rw [he]
  · rfl
  · exact (save_frame K w _ i).minted

theorem apply_minted (K : Crates) (w : World) (s : Session) (e : Effect) : w.minted ⊆ (w.apply K s e).minted := by
  cases e with
  | none => exact List.Subset.refl _
  | go ph lw => exact List.Subset.refl _
  | save next i ok err minted =>
    have hm : (w.apply K s (.save next i ok err minted)).minted = minted ++ (w.save K next i).1.minted := rfl
    rw [hm, (save_frame K w next i).minted]
    exact List.subset_append_right _ _
  | hand p call ph => exact List.Subset.refl _
  | finish i =>
    have hm : (w.apply K s (.finish i)).minted = w.minted := by
      unfold World.apply World.finish
      simp only
      split_ifs
      · rfl
      · split <;> exact (save_frame K w _ i).minted
    rw [hm]
    exact List.Subset.refl _

/-- A uuid in use stays in use. -/
theorem minted_step (K : Crates) (w : World) (a : Act) : w.minted ⊆ (w.step K a).minted := by
  cases a with
  | tick d => exact List.Subset.refl _
  | newEpoch => exact List.Subset.refl _
  | access i =>
    simp only [World.step]
    unfold World.access
    split
    · exact List.Subset.refl _
    · simp only
      split_ifs
      · -- a token is minted:
        exact List.subset_cons_self _ _
      · exact List.Subset.refl _
      · exact List.Subset.refl _
  | start i =>
    simp only [World.step]
    unfold World.start
    split
    · split
      · exact List.Subset.refl _
      · rename_i t _
        exact startWith_minted K
          ({ w with tickets := w.tickets.filter (·.1 ≠ i.request.authorizationToken) } : World) t i
    · exact List.Subset.refl _
  | revoke k =>
    simp only [World.step]
    split
    · rw [revokeIntent_minted]
      exact List.Subset.refl _
    · exact List.Subset.refl _
  | locked k i =>
    simp only [World.step]
    split
    · have hm : (({ w with waiting := w.waiting.erase k } : World).lockSection K k i).minted = w.minted := by
        unfold World.lockSection
        simp only
        cases k <;> simp only <;> split <;> first | rfl | exact (save_frame K _ _ i).minted
      rw [hm]
      exact List.Subset.refl _
    · exact List.Subset.refl _
  | exit =>
    simp only [World.step]
    unfold World.exit
    simp only
    split <;> exact List.Subset.refl _
  | worker id m =>
    simp only [World.step]
    split
    · exact List.Subset.refl _
    · exact apply_minted K w _ _
  | reconcile id current scope =>
    simp only [World.step]
    split <;> exact List.Subset.refl _
  | recover m =>
    simp only [World.step]
    split
    · exact List.Subset.refl _
    · rw [recover_minted]
      exact List.Subset.refl _
  | restart pick => exact List.Subset.refl _

end EasiFlux
