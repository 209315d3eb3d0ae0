import EasiFlux.Lib.Steps
import EasiFlux.Proof.Moves

/-!
# Live runs and their documents

The invariant that every property of the supervisor rests on (`Base`): a live run
has a record, a pass works on the core of that record, and what a worker has made
pending is pending in every document the system may go on with. It holds of a first process
(`base_init`) and is kept by every step (`base_step`).
-/

namespace EasiFlux

open Fixed Results World Steps

variable {K : Crates} {w : World}

/-! ## Sessions -/

theorem session_some {id : String} {s : Session} (h : w.session id = some s) : s ∈ w.live ∧ s.runId = id :=
  ⟨List.mem_of_find?_eq_some h, by simpa using List.find?_some h⟩

theorem session_none {id : String} : w.session id = none ↔ ∀ s ∈ w.live, s.runId ≠ id := by
  unfold World.session
  rw [List.find?_eq_none]
  simp

theorem isLive_iff {id : String} : w.isLive id = true ↔ ∃ s ∈ w.live, s.runId = id := by
  unfold World.isLive World.session
  rw [List.find?_isSome]
  simp

theorem isLive_eq_false {id : String} : w.isLive id = false ↔ ∀ s ∈ w.live, s.runId ≠ id := by
  rw [Bool.eq_false_iff, ne_eq, isLive_iff]
  simp

/-- There is one session for each run. -/
theorem session_eq (hnd : (w.live.map (·.runId)).Nodup) {s t : Session} (hs : s ∈ w.live) (ht : t ∈ w.live)
    (h : s.runId = t.runId) : s = t := List.inj_on_of_nodup_map hnd hs ht h

theorem session_of_mem (hnd : (w.live.map (·.runId)).Nodup) {s : Session} (hs : s ∈ w.live) :
    w.session s.runId = some s := by
  cases h : w.session s.runId with
  | none => exact absurd rfl (session_none.1 h s hs)
  | some t =>
    obtain ⟨ht, hid⟩ := session_some h
    rw [session_eq hnd ht hs hid]

@[simp] theorem revoke_runId (s : Session) (stop : Bool) : (s.revoke stop).runId = s.runId := rfl

/-! ## The invariant -/

/-- Every run of a document has its own id, and the id is in use. -/
def IdsOk (minted : List String) (v : Version) : Prop :=
  (v.doc.runs.map (·.view.runId)).Nodup ∧ ∀ id ∈ v.doc.runs.map (·.view.runId), id ∈ minted

/-- What is pending for a run in a document. -/
def PendingIs (id : String) (p : PendingAction) (v : Version) : Prop :=
  ∀ c, v.core id = some c → c.pending = some p

/-- What holds of a live run. -/
structure SessionOk (K : Crates) (d : Docs) (s : Session) : Prop where
  known : ∃ c, d.memory.core s.runId = some c ∧ c.view.account = s.authority.account
  copy : ∀ r, s.phase.copy = some r → d.memory.core s.runId = some r.core ∧ r.pending = none
  pending : ∀ p, s.phase.pending = some p → d.All (PendingIs s.runId p)
  checked : s.phase.Checked K

structure Base (K : Crates) (w : World) : Prop where
  ids : w.docs.All (IdsOk w.minted)
  liveIds : (w.live.map (·.runId)).Nodup
  sessions : ∀ s ∈ w.live, SessionOk K w.docs s
  recovery : ∀ ρ, w.recovery = some ρ → ∀ s ∈ w.live, s.runId ≠ ρ.runId

theorem closed_idsOk (minted : List String) : Closed (IdsOk minted) := by
  intro v v' h ⟨h1, h2⟩
  rw [h.ids] at h1 h2
  exact ⟨h1, h2⟩

theorem closed_pendingIs (id : String) (p : PendingAction) : Closed (PendingIs id p) := by
  intro v v' h hp c hc
  rw [← h.core] at hc
  exact hp c hc

/-- A document with the ids of the one in memory. -/
theorem idsOk_of_eq {v v' : Version} (h : v.doc.runs.map (·.view.runId) = v'.doc.runs.map (·.view.runId))
    (hv : IdsOk w.minted v') : IdsOk w.minted v := by
  unfold IdsOk at *
  rwa [h]

/-- A run that is live has an id in use. -/
theorem Base.live_minted (h : Base K w) {s : Session} (hs : s ∈ w.live) : s.runId ∈ w.minted := by
  obtain ⟨c, hc, -⟩ := (h.sessions s hs).known
  obtain ⟨r, hr, -⟩ := Version.core_eq_some.1 hc
  exact h.ids.memory.2 _ (List.mem_map.2 ⟨r, mem_of_find hr, find_runId hr⟩)

/-! ## Saves -/

section Save

variable {next : Version} {i : SaveInput} {s : Session}

/-- The document in memory after a save is the one before, or the one to be saved. -/
theorem save_memory (K : Crates) (w : World) (next : Version) (i : SaveInput) :
    (w.save K next i).1.memory = w.memory ∨ Same (w.save K next i).1.memory next := by
  rcases save_cases K w next i with ⟨-, he⟩ | ⟨-, -, he⟩ | ⟨_, _, -, -, he⟩ <;> rw [he]
  · exact Or.inl rfl
  · exact Or.inr (same_prepare w next _)
  · exact Or.inr ((same_overlay _).trans (same_prepare w next _))

theorem save_core {id : String} (h : next.core id = w.memory.core id) :
    (w.save K next i).1.memory.core id = w.memory.core id := by
  rcases save_memory K w next i with he | he
  · rw [he]
  · rw [he.core, h]

/-- A run that the save does not touch stays as it is. -/
theorem SessionOk.save (h : SessionOk K w.docs s) (hn : next.core s.runId = w.memory.core s.runId) :
    SessionOk K (w.save K next i).1.docs s := by
  have hm : (w.save K next i).1.docs.memory.core s.runId = w.docs.memory.core s.runId := save_core hn
  refine ⟨?_, fun r hr => ?_, fun p hp => ?_, h.checked⟩
  · rw [hm]; exact h.known
  · rw [hm]; exact h.copy r hr
  · refine (h.pending p hp).save (closed_pendingIs _ p) fun c hc => ?_
    rw [hn] at hc
    exact (h.pending p hp).memory c hc

/-- Where a worker goes on without a copy and without a pending action, only its
record matters. -/
theorem SessionOk.plain {t : Session} (hk : ∃ c, w.memory.core t.runId = some c ∧ c.view.account = t.authority.account)
    (hc : t.phase.copy = none) (hp : t.phase.pending = none) (hch : t.phase.Checked K) : SessionOk K w.docs t := by
  refine ⟨hk, fun r h => ?_, fun p h => ?_, hch⟩
  · rw [hc] at h; cases h
  · rw [hp] at h; cases h

/-- A session with other intents or clocks. -/
theorem SessionOk.congr {d : Docs} {t : Session} (h : SessionOk K d s) (hid : t.runId = s.runId) (ha : t.authority = s.authority)
    (hp : t.phase = s.phase) : SessionOk K d t := by
  refine ⟨?_, ?_, ?_, ?_⟩
  · rw [hid, ha]; exact h.known
  · rw [hid, hp]; exact h.copy
  · rw [hid, hp]; exact h.pending
  · rw [hp]; exact h.checked

/-- What a save leaves of `Base` when the sessions are as they should be. -/
theorem Base.save_of (h : Base K w) (hi : IdsOk w.minted next)
    (hs : ∀ s ∈ w.live, SessionOk K (w.save K next i).1.docs s) : Base K (w.save K next i).1 := by
  have hf := save_frame K w next i
  refine ⟨?_, ?_, fun s' hs' => ?_, fun ρ hρ s' hs' => ?_⟩
  · rw [hf.minted]; exact h.ids.save (closed_idsOk _) hi
  · rcases hf.live with hl | hl <;> rw [hl]
    · exact h.liveIds
    · simpa [List.map_map, Function.comp_def] using h.liveIds
  · rcases hf.live with hl | hl <;> rw [hl] at hs'
    · exact hs s' hs'
    · obtain ⟨s, hs₀, rfl⟩ := List.mem_map.1 hs'
      exact (hs s hs₀).congr rfl rfl rfl
  · rw [hf.recovery] at hρ
    rcases hf.live with hl | hl <;> rw [hl] at hs'
    · exact h.recovery ρ hρ s' hs'
    · obtain ⟨s, hs₀, rfl⟩ := List.mem_map.1 hs'
      exact h.recovery ρ hρ s hs₀

/-- A save that leaves the cores of the live runs. -/
theorem Base.save (h : Base K w) (hi : IdsOk w.minted next) (hs : ∀ s ∈ w.live, next.core s.runId = w.memory.core s.runId) :
    Base K (w.save K next i).1 :=
  h.save_of hi fun s hs' => (h.sessions s hs').save (hs s hs')

/-- A save of a document with the cores of the one in memory. -/
theorem Base.save_same (h : Base K w) (hn : Same next w.memory) : Base K (w.save K next i).1 :=
  h.save (idsOk_of_eq hn.ids h.ids.memory) fun s _ => hn.core s.runId

end Save

/-! ## The other lock sections -/

theorem same_edit {id : String} {r r' : RunRecord} (h : w.state id = some r) (hr : r'.core = r.core) :
    Same (w.edit id r') w.memory := same_put h hr

theorem idsOk_edit (h : Base K w) {id : String} {r r' : RunRecord} (hs : w.state id = some r)
    (hr : r'.view.runId = id) : IdsOk w.minted (w.edit id r') :=
  idsOk_of_eq (runIds_put hs hr) h.ids.memory

/-- Sessions that differ in intents only. -/
theorem Base.map_live (h : Base K w) (f : Session → Session) (hid : ∀ s, (f s).runId = s.runId)
    (ha : ∀ s, (f s).authority = s.authority) (hp : ∀ s, (f s).phase = s.phase) :
    Base K { w with live := w.live.map f } := by
  refine ⟨h.ids, ?_, fun s' hs' => ?_, fun ρ hρ s' hs' => ?_⟩
  · simpa [List.map_map, Function.comp_def, hid] using h.liveIds
  · obtain ⟨s, hs, rfl⟩ := List.mem_map.1 hs'
    exact (h.sessions s hs).congr (hid s) (ha s) (hp s)
  · obtain ⟨s, hs, rfl⟩ := List.mem_map.1 hs'
    rw [hid]
    exact h.recovery ρ hρ s hs

theorem Base.revokeRuns (h : Base K w) (k : Control) : Base K (w.revokeRuns k) := by
  cases k with
  | one id stop =>
    refine h.map_live _ (fun s => ?_) (fun s => ?_) (fun s => ?_) <;> split_ifs <;> rfl
  | all => exact h.map_live _ (fun _ => rfl) (fun _ => rfl) (fun _ => rfl)

theorem Base.revokeIntent (h : Base K w) (k : Control) : Base K (w.revokeIntent k) := by
  unfold World.revokeIntent
  split
  · have h' : Base K ({ w with admission := w.admission + 1 } : World) :=
      ⟨h.ids, h.liveIds, h.sessions, h.recovery⟩
    have h'' := h'.revokeRuns k
    exact ⟨h''.ids, h''.liveIds, h''.sessions, h''.recovery⟩
  · exact h

theorem Base.exit (h : Base K w) : Base K w.exit := by
  unfold World.exit
  simp only
  split
  · have h' : Base K ({ w with closed := true, admission := w.admission + 1 } : World) :=
      ⟨h.ids, h.liveIds, h.sessions, h.recovery⟩
    exact h'.revokeRuns .all
  · exact ⟨h.ids, h.liveIds, h.sessions, h.recovery⟩

theorem Base.lockSection (h : Base K w) (k : Control) (i : SaveInput) : Base K (w.lockSection K k i) := by
  have h' : Base K ({ w with tickets := [] } : World) := ⟨h.ids, h.liveIds, h.sessions, h.recovery⟩
  unfold World.lockSection
  simp only
  cases k with
  | one id stop =>
    simp only
    split
    · exact h'
    · rename_i r hr
      exact h'.save_same (same_edit hr (core_control _ _ _))
  | all =>
    simp only
    split
    · exact h'
    · exact h'.save_same (same_mapRuns _ fun r => core_stopAll r _)

/-! ## Workers -/

section Worker

variable {s : Session} {m : Move}

/-- The part of a record that is set when its run starts. -/
def RunRecord.fixed (r : RunRecord) : RunRecord :=
  { r.core with
    view := { r.core.view with
      sequence := 0, actionsSubmitted := 0, totalSubmittedQty := "", lastMessage := "", lastReceipt := none }
    state := "", owned := ∅, pending := none }

/-- The edits of a worker keep what the run was started with. -/
structure SameRun (r r' : RunRecord) : Prop where
  fixed : r'.fixed = r.fixed

theorem SameRun.view {r r' : RunRecord} (h : SameRun r r') : r'.fixed.view = r.fixed.view := congrArg (·.view) h.fixed

theorem SameRun.runId {r r' : RunRecord} (h : SameRun r r') : r'.view.runId = r.view.runId :=
  congrArg (·.runId) h.view

theorem SameRun.account {r r' : RunRecord} (h : SameRun r r') : r'.view.account = r.view.account :=
  congrArg (·.account) h.view

theorem respond_kept {r r' : RunRecord} {p : PendingAction} {x : AppResult StrategyMutationResponse}
    {order : Option Order} (h : respondRecord r p x = .ok (r', order)) : SameRun r r' := by
  simp only [respondRecord, bind_eq_ok, ensure_eq_ok, pure_eq_ok, Prod.mk.injEq] at h
  obtain ⟨-, -, receipt, -, owned, -, rfl, -⟩ := h
  exact ⟨rfl⟩

theorem clear_kept {r r' : RunRecord} {p : PendingAction} (h : clearRecord r p = .ok r') : SameRun r r' := by
  simp only [clearRecord, bind_eq_ok, ensure_eq_ok, pure_eq_ok] at h
  obtain ⟨-, -, rfl⟩ := h
  exact ⟨rfl⟩

theorem commit_kept {r r' : RunRecord} {action : StrategyAction} {p : PendingAction}
    (h : commitMutation K r action p = .ok r') : SameRun r r' ∧ r'.pending = some p := by
  simp only [commitMutation, bind_eq_ok, ensure_eq_ok, pure_eq_ok] at h
  obtain ⟨-, -, total, -, owned, -, rfl⟩ := h
  exact ⟨⟨rfl⟩, rfl⟩

theorem rest_kept (r : RunRecord) (c : Reading) (output : StrategyOutput) (now : UInt64) (keep : Bool) :
    SameRun r (restRecord r c output now keep) := by
  unfold restRecord
  cases keep <;> exact ⟨rfl⟩

theorem commitBase_ok {c : Reading} {r : RunRecord} (h : w.commitBase s c = .ok r) :
    w.unavailable = false ∧ s.intent = 0 ∧ w.state s.runId = some r ∧ r.view.sequence = c.record.view.sequence ∧
      r.pending = none := by
  simp only [World.commitBase, bind_eq_ok, ensure_eq_ok, okOr_eq_ok, pure_eq_ok] at h
  obtain ⟨-, hu, -, ⟨hi, -⟩, r', hr, -, ⟨hseq, hp⟩, rfl⟩ := h
  exact ⟨by simpa using hu, hi, hr, hseq, hp⟩

/-- Each section of a worker saves another record of its run. -/
theorem saves_edit {next : Version} {ok err : Phase} {minted : List String} (h : Saves K w s m next ok err minted) :
    ∃ r r', w.state s.runId = some r ∧ SameRun r r' ∧ next.doc = w.memory.doc.put s.runId r' := by
  cases h with
  | rest c output r now keep phase base => exact ⟨r, _, (commitBase_ok base).2.2.1, rest_kept r c output now keep, rfl⟩
  | pending c output action r r' now id i move phase base mutation fresh commit =>
    have hk := (commit_kept commit).1
    exact ⟨r, r', (commitBase_ok base).2.2.1, ⟨hk.fixed⟩, rfl⟩
  | respond p response r r' order ok from_ state record next => exact ⟨r, r', state, respond_kept record, rfl⟩
  | clear p o denied r r' phase state record => exact ⟨r, r', state, clear_kept record, rfl⟩
  | ackFailed p o denied r phase state =>
    exact ⟨r, r.setStatus .recoveryRequired (some "plugin_strategy_ack_failed"), state, ⟨rfl⟩, rfl⟩
  | mark status reason r i move phase state => exact ⟨r, r.setStatus status (some reason), state, ⟨rfl⟩, rfl⟩

theorem receiptKind_placement {a : StrategyAction} {kind : ReceiptKind} {id : Option String} (h : a.isPlacement = true)
    (hk : a.receiptKind = some (kind, id)) : kind = .placeOrder ∨ kind = .placeProtectedOrder := by
  cases a with
  | placeOrder order => cases hk; exact Or.inl rfl
  | placeProtectedOrder order protection => cases hk; exact Or.inr rfl
  | none | stop | cancelOrder _ | amendOrder _ => cases h

/-- A placement that was accepted stays pending until it is acknowledged. -/
theorem respond_pending {r r' : RunRecord} {p : PendingAction} {x : AppResult StrategyMutationResponse} {o : Order}
    (h : respondRecord r p x = .ok (r', some o)) : r'.pending = some p := by
  simp only [respondRecord, bind_eq_ok, ensure_eq_ok, okOr_eq_ok, pure_eq_ok, Prod.mk.injEq] at h
  obtain ⟨-, hr, receipt, hrec, owned, -, rfl, hord⟩ := h
  split at hord
  · rename_i hpl
    have hst : (classify r p x).1 = .accepted := by
      unfold classify at hord ⊢
      split <;> simp only at hord ⊢ <;> split at hord <;> simp_all
    have hnot : receipt.resolves = false := by
      unfold receiptOf at hrec
      obtain ⟨⟨kind, id⟩, hk, rfl⟩ := Option.map_eq_some_iff.1 hrec
      rcases receiptKind_placement hpl.1 hk with rfl | rfl <;> simp [StrategyReceipt.resolves, hst]
    unfold RunRecord.receive
    simp only [hnot, Bool.false_eq_true, and_false, if_false]
    exact hr
  · cases hord

/-- What is known of the worker's run after its section. -/
theorem known_save {next : Version} {ok err : Phase} {minted : List String} {i : SaveInput}
    (h : SessionOk K w.docs s) (hn : Saves K w s m next ok err minted) :
    ∃ c, (w.save K next i).1.docs.memory.core s.runId = some c ∧ c.view.account = s.authority.account := by
  obtain ⟨r, r', hr, hk, hnext⟩ := saves_edit hn
  obtain ⟨c, hc, hca⟩ := h.known
  rcases save_memory K w next i with he | he
  · exact ⟨c, by rw [World.docs, he]; exact hc, hca⟩
  · have hid : r'.view.runId = s.runId := hk.runId.trans (find_runId hr)
    refine ⟨r'.core, ?_, ?_⟩
    · rw [World.docs, he.core, Version.core, hnext, find_put_self hr hid]
      rfl
    · have : c = r.core := Option.some.inj (hc.symm.trans (Version.core_find hr))
      rw [this] at hca
      exact hk.account.trans hca

/-- Where the worker goes on has what it needs. -/
theorem SessionOk.saved {next : Version} {ok err : Phase} {minted : List String} {i : SaveInput}
    (h : SessionOk K w.docs s) (hn : Saves K w s m next ok err minted) :
    SessionOk K (w.save K next i).1.docs (s.goto (if (w.save K next i).2 then ok else err)) := by
  have hk := known_save (i := i) h hn
  have hplain : ∀ ph : Phase, ph.copy = none → ph.pending = none → ph.Checked K →
      SessionOk K (w.save K next i).1.docs (s.goto ph) :=
    fun ph hc hp hch => .plain hk hc hp hch
  have hpend : ∀ {r r' : RunRecord} {p : PendingAction} {made : List (String × PendingAction)},
      w.state s.runId = some r → SameRun r r' → r'.pending = some p →
      PendingIs s.runId p { w.edit s.runId r' with made := made } := by
    intro r r' p made hr hkept hp c hc
    have hself : ({ w.edit s.runId r' with made := made } : Version).core s.runId = some r'.core :=
      core_put_self hr (hkept.runId.trans (find_runId hr))
    rw [hself] at hc
    cases hc
    exact hp
  cases hok : (w.save K next i).2 with
  | false =>
    cases hn with
    | rest | pending | respond | clear | ackFailed | mark => exact hplain _ rfl rfl trivial
  | true =>
    cases hn with
    | rest c output r now keep phase base => cases keep <;> exact hplain _ rfl rfl trivial
    | pending c output action r r' now id i move phase base mutation fresh commit =>
      obtain ⟨hkept, hp⟩ := commit_kept commit
      refine ⟨hk, (fun _ hc => nomatch hc), fun p hp' => ?_, trivial⟩
      cases hp'
      exact .saved (closed_pendingIs _ _) hok (hpend (commitBase_ok base).2.2.1 ⟨hkept.fixed⟩ hp)
    | respond p response r r' order ok from_ state record next =>
      rcases next with ⟨o, denied, rfl, rfl⟩ | ⟨-, ⟨denied, rfl⟩ | ⟨e, rfl⟩⟩
      · refine ⟨hk, (fun _ hc => nomatch hc), fun p' hp' => ?_, trivial⟩
        cases hp'
        exact .saved (closed_pendingIs _ _) hok (hpend state (respond_kept record) (respond_pending record))
      · exact hplain _ rfl rfl trivial
      · exact hplain _ rfl rfl trivial
    | clear | ackFailed | mark => exact hplain _ rfl rfl trivial

/-- A save by a worker, which then goes on to `ph`. -/
theorem Base.save_phase {next : Version} {i : SaveInput} {ph : Phase} (h : Base K w) (hs : s ∈ w.live)
    (hi : IdsOk w.minted next) (hother : ∀ t ∈ w.live, t.runId ≠ s.runId → next.core t.runId = w.memory.core t.runId)
    (hself : SessionOk K (w.save K next i).1.docs (s.goto ph)) :
    Base K ((w.save K next i).1.setPhase s.runId ph) := by
  have hf := save_frame K w next i
  -- the sessions after the save are those before, with other intents
  obtain ⟨f, hl, hfr, hfa, hfp⟩ : ∃ f : Session → Session, (w.save K next i).1.live = w.live.map f ∧
      (∀ t, (f t).runId = t.runId) ∧ (∀ t, (f t).authority = t.authority) ∧ ∀ t, (f t).phase = t.phase := by
    rcases hf.live with hl | hl
    · exact ⟨id, by rw [hl, List.map_id], fun _ => rfl, fun _ => rfl, fun _ => rfl⟩
    · exact ⟨_, hl, fun _ => rfl, fun _ => rfl, fun _ => rfl⟩
  have hmem : ∀ t' ∈ ((w.save K next i).1.setPhase s.runId ph).live, ∃ t ∈ w.live,
      t' = if t.runId = s.runId then (f t).goto ph else f t := by
    intro t' ht'
    unfold World.setPhase at ht'
    simp only [hl, List.map_map, List.mem_map, Function.comp_apply, hfr] at ht'
    obtain ⟨t, ht, rfl⟩ := ht'
    exact ⟨t, ht, rfl⟩
  have hid : ∀ t : Session, (if t.runId = s.runId then (f t).goto ph else f t).runId = t.runId := by
    intro t; split_ifs <;> exact hfr t
  refine ⟨?_, ?_, fun t' ht' => ?_, fun ρ hρ t' ht' => ?_⟩
  · have := h.ids.save (K := K) (i := i) (closed_idsOk _) hi
    rw [← hf.minted] at this
    exact this
  · have hmap : ((w.save K next i).1.setPhase s.runId ph).live.map (·.runId) = w.live.map (·.runId) := by
      unfold World.setPhase
      simp only [hl, List.map_map]
      refine List.map_congr_left fun t _ => ?_
      simp only [Function.comp_apply, hfr]
      exact hid t
    rw [hmap]; exact h.liveIds
  · obtain ⟨t, ht, rfl⟩ := hmem t' ht'
    by_cases he : t.runId = s.runId
    · have := session_eq h.liveIds ht hs he
      subst this
      rw [if_pos rfl]
      exact hself.congr (hfr t) (hfa t) rfl
    · rw [if_neg he]
      exact ((h.sessions t ht).save (hother t ht he)).congr (hfr t) (hfa t) (hfp t)
  · obtain ⟨t, ht, rfl⟩ := hmem t' ht'
    have hρ' : w.recovery = some ρ := hf.recovery ▸ hρ
    rw [hid]
    exact h.recovery ρ hρ' t ht

theorem Base.mint (h : Base K w) (ids : List String) : Base K ({ w with minted := ids ++ w.minted } : World) := by
  refine ⟨h.ids.mono fun v hv => ⟨hv.1, fun id hid => ?_⟩, h.liveIds, h.sessions, h.recovery⟩
  exact List.mem_append_right _ (hv.2 id hid)

theorem Base.go (h : Base K w) (hs : s ∈ w.live) {ph : Phase} {lw : ℕ} (hg : Goes K w s ph lw) :
    Base K (w.apply K s (.go ph lw)) := by
  have hid : ∀ t : Session, (if t.runId = s.runId then { t.goto ph with lastWall := lw } else t).runId = t.runId := by
    intro t; split_ifs <;> rfl
  unfold World.apply
  refine ⟨h.ids, ?_, fun t' ht' => ?_, fun ρ hρ t' ht' => ?_⟩
  · simpa only [List.map_map, Function.comp_def, hid] using h.liveIds
  · obtain ⟨t, ht, rfl⟩ := List.mem_map.1 ht'
    by_cases he : t.runId = s.runId
    · have := session_eq h.liveIds ht hs he
      subst this
      rw [if_pos rfl]
      have ht := h.sessions t ht
      refine ⟨ht.known, fun r hr => ?_, fun p hp => ht.pending p (hg.pending p hp), hg.checked ht.checked⟩
      rcases hg.copy r hr with hc | ⟨hst, hp⟩
      · exact ht.copy r hc
      · exact ⟨Version.core_find hst, hp⟩
    · rw [if_neg he]
      exact h.sessions t ht
  · obtain ⟨t, ht, rfl⟩ := List.mem_map.1 ht'
    rw [hid]
    exact h.recovery ρ hρ t ht

theorem Base.setPhase (h : Base K w) {id : String} {ph : Phase}
    (hp : ∀ s ∈ w.live, s.runId = id → SessionOk K w.docs (s.goto ph)) : Base K (w.setPhase id ph) := by
  have hid : ∀ t : Session, (if t.runId = id then t.goto ph else t).runId = t.runId := by
    intro t; split_ifs <;> rfl
  unfold World.setPhase
  refine ⟨h.ids, ?_, fun t' ht' => ?_, fun ρ hρ t' ht' => ?_⟩
  · simpa only [List.map_map, Function.comp_def, hid] using h.liveIds
  · obtain ⟨t, ht, rfl⟩ := List.mem_map.1 ht'
    by_cases he : t.runId = id
    · rw [if_pos he]; exact hp t ht he
    · rw [if_neg he]; exact h.sessions t ht
  · obtain ⟨t, ht, rfl⟩ := List.mem_map.1 ht'
    rw [hid]
    exact h.recovery ρ hρ t ht

theorem Base.finish (h : Base K w) (s : Session) (i : SaveInput) : Base K (w.finish K s i) := by
  have hdrop : ∀ w' : World, Base K w' →
      Base K ({ w' with live := w'.live.filter fun t => t.runId ≠ s.runId } : World) := by
    intro w' h'
    refine ⟨h'.ids, h'.liveIds.sublist ((List.filter_sublist).map _), fun t ht => ?_, fun ρ hρ t ht => ?_⟩
    · exact h'.sessions t (List.mem_of_mem_filter ht)
    · exact h'.recovery ρ hρ t (List.mem_of_mem_filter ht)
  unfold World.finish
  refine hdrop _ ?_
  split_ifs
  · exact h
  · split
    · exact h.save_same (Same.refl _)
    · rename_i r hr
      exact h.save_same (same_edit hr (core_finish _ _))

/-- A worker's step keeps the invariant. -/
theorem Base.apply (h : Base K w) (hs : s ∈ w.live) (m : Move) : Base K (w.apply K s (w.move K s m)) := by
  have hspec := move_spec K w s m
  cases he : w.move K s m with
  | none => exact h
  | go ph lw => rw [he] at hspec; exact h.go hs hspec
  | save next i ok err minted =>
    rw [he] at hspec
    obtain ⟨r, r', hr, hkept, hnext⟩ := saves_edit hspec
    have hid : r'.view.runId = s.runId := hkept.runId.trans (find_runId hr)
    refine (h.save_phase hs ?_ (fun t _ hne => ?_) ((h.sessions s hs).saved hspec)).mint minted
    · refine idsOk_of_eq ?_ h.ids.memory
      rw [hnext]
      exact runIds_put hr hid
    · simp only [Version.core, hnext, find_put_ne hid hne]
  | hand p call ph =>
    rw [he] at hspec
    obtain ⟨-, c, hp, -, rfl⟩ := hspec
    have h' : Base K ({ w with trace := .handed s.runId p call :: w.trace } : World) :=
      ⟨h.ids, h.liveIds, h.sessions, h.recovery⟩
    refine h'.setPhase fun t ht hid => ?_
    have := session_eq h.liveIds ht hs hid
    subst this
    have ht := h.sessions t ht
    refine ⟨ht.known, by rintro _ ⟨⟩, fun p' hp' => ht.pending p' ?_, trivial⟩
    rw [hp]
    exact hp'
  | finish i => exact h.finish s i

end Worker

/-! ## Starts -/

section Start

variable {t : Ticket} {i : Start} {r : RunRecord} {doc : StrategyDocument}

/-- The run that starts: one that was there, or a new one. -/
inductive Starts (K : Crates) (w : World) (t : Ticket) (i : Start) : RunRecord → StrategyDocument → Prop
  | resume (id : String) (old : RunRecord) (asked : i.request.resumeRunId = some id) (state : w.state id = some old)
      (checks : resumable t i old = true) : Starts K w t i (startRecord old i) (w.memory.doc.put id (startRecord old i))
  | fresh (asked : i.request.resumeRunId = none) (room : w.memory.doc.runs.length < 32)
      (fresh : w.freshId K i.runId = true) (expires : i.now.toNat + i.request.policy.maxRunSeconds * 1000 < 2 ^ 64) :
      Starts K w t i (startRecord (newRecord t i) i) (w.memory.doc.push (startRecord (newRecord t i) i))

/-- What `start` checks before it saves. -/
structure Admitted (K : Crates) (w : World) (t : Ticket) (i : Start) (r : RunRecord) (doc : StrategyDocument) : Prop where
  ticket : w.ticketHolds t i = true
  available : w.unavailable = false
  admission : w.admissionEpoch = some t.admission
  request : ∀ x ∈ w.memory.doc.runs, x.view.requestId ≠ i.request.requestId
  room : w.live.length < 4
  blocked : w.blocked i.authority.account = false
  starts : Starts K w t i r doc

theorem admitStart_ok (h : w.admitStart K t i = .ok (r, doc)) : Admitted K w t i r doc := by
  simp only [World.admitStart, bind_eq_ok, ensure_eq_ok] at h
  obtain ⟨-, ht, -, hu, -, ⟨ha, hreq, hl⟩, -, hb, hrun⟩ := h
  refine ⟨ht, by simpa using hu, ha, hreq, hl, by simpa using hb, ?_⟩
  unfold World.startRun at hrun
  split at hrun
  · rename_i id hid
    simp only [bind_eq_ok, okOr_eq_ok, ensure_eq_ok, pure_eq_ok, Prod.mk.injEq] at hrun
    obtain ⟨old, hs, -, hres, rfl, rfl⟩ := hrun
    exact .resume id old hid hs hres
  · rename_i hid
    simp only [bind_eq_ok, ensure_eq_ok, pure_eq_ok, Prod.mk.injEq] at hrun
    obtain ⟨-, hroom, -, hf, -, hexp, rfl, rfl⟩ := hrun
    exact .fresh hid hroom hf hexp

theorem freshId_iff {id : String} : w.freshId K id = true ↔ K.uuid id = true ∧ id ∉ w.minted := by
  simp [World.freshId]

/-- A run of the account is not live when a start is admitted. -/
theorem blocked_live (hb : w.blocked i.authority.account = false) {x : RunRecord} (hx : x ∈ w.memory.doc.runs)
    (ha : x.view.account.accountId = i.authority.account.accountId) : ∀ s ∈ w.live, s.runId ≠ x.view.runId := by
  unfold World.blocked at hb
  have := List.any_eq_false.1 hb x hx
  simp only [Bool.or_eq_true, Bool.and_eq_true, decide_eq_true_eq, not_or, not_and] at this
  have hl : w.isLive x.view.runId = false := by
    by_contra hc
    exact this.1 (by simpa using hc) ha
  exact isLive_eq_false.1 hl

/-- The checks on a resumed run that the invariants need. -/
theorem resumable_iff {old : RunRecord} (h : resumable t i old = true) :
    (old.view.status = .paused ∨ old.view.status = .stopped ∨ old.view.status = .faulted) ∧ old.pending = none ∧
      old.view.account.accountId = i.authority.account.accountId ∧
      old.view.account.environment = i.authority.account.environment ∧ old.view.policy = i.request.policy ∧
      old.lastObservedAtMs ≤ i.now.toNat ∧ i.now.toNat < old.view.expiresAtMs := by
  unfold resumable at h
  simp only [Bool.and_eq_true, Bool.or_eq_true, decide_eq_true_eq, Option.isNone_iff_eq_none] at h
  obtain ⟨⟨⟨⟨⟨⟨⟨⟨⟨⟨⟨⟨⟨⟨h1, h2⟩, -⟩, -⟩, -⟩, -⟩, h3⟩, h4⟩, -⟩, -⟩, -⟩, h5⟩, h6⟩, h7⟩, -⟩ := h
  exact ⟨by tauto, h2, h3, h4, h5, h6, h7⟩

theorem Admitted.notLive (h : Admitted K w t i r doc) (hb : Base K w) : ∀ s ∈ w.live, s.runId ≠ r.view.runId := by
  have hblocked := h.blocked
  cases h.starts with
  | resume id old asked state checks =>
    have hold : old ∈ w.memory.doc.runs := mem_of_find state
    have hnot := blocked_live hblocked hold (resumable_iff checks).2.2.1
    exact hnot
  | fresh asked room fresh expires =>
    intro s hs he
    have hm := hb.live_minted hs
    rw [he] at hm
    exact (freshId_iff.1 fresh).2 hm

/-- The document of a start has the record. -/
theorem Starts.find_self (h : Starts K w t i r doc) (hb : Base K w) : doc.find r.view.runId = some r := by
  cases h with
  | resume id old asked state checks =>
    have hold : old.view.runId = id := find_runId state
    have hid : (startRecord old i).view.runId = id := hold
    rw [hid]
    exact find_put_self state hid
  | fresh asked room fresh expires =>
    have hnone : w.memory.doc.find i.runId = none := by
      cases hf : w.memory.doc.find i.runId with
      | none => rfl
      | some x =>
        have hm := hb.ids.memory.2 _ (List.mem_map.2 ⟨x, mem_of_find hf, find_runId hf⟩)
        exact absurd hm (freshId_iff.1 fresh).2
    exact (find_push_none hnone).trans (if_pos rfl)

/-- It leaves the other runs. -/
theorem Starts.core (h : Starts K w t i r doc) (hb : Base K w) :
    (⟨doc, w.memory.made⟩ : Version).core r.view.runId = some r.core ∧
      ∀ id ≠ r.view.runId, (⟨doc, w.memory.made⟩ : Version).core id = w.memory.core id := by
  refine ⟨Version.core_find (h.find_self hb), fun id hne => ?_⟩
  cases h with
  | resume id' old asked state checks =>
    have hold : old.view.runId = id' := find_runId state
    have hid : (startRecord old i).view.runId = id' := hold
    rw [hid] at hne
    exact core_put_ne hid hne
  | fresh asked room fresh expires =>
    unfold Version.core
    cases hf : w.memory.doc.find id with
    | none => rw [find_push_none hf, if_neg fun he => hne he.symm]
    | some x => rw [find_push_some hf]

theorem Starts.ids (h : Starts K w t i r doc) (hb : Base K w) :
    IdsOk (r.view.runId :: w.minted) ⟨doc, w.memory.made⟩ := by
  have hm := hb.ids.memory
  cases h with
  | resume id old asked state checks =>
    have hold : old.view.runId = id := find_runId state
    have hid : (startRecord old i).view.runId = id := hold
    unfold IdsOk
    rw [runIds_put state hid]
    exact ⟨hm.1, fun x hx => List.mem_cons_of_mem _ (hm.2 x hx)⟩
  | fresh asked room fresh expires =>
    unfold IdsOk StrategyDocument.push
    simp only [List.map_append, List.map_cons, List.map_nil]
    refine ⟨List.nodup_append.2 ⟨hm.1, List.nodup_singleton _, ?_⟩, fun x hx => ?_⟩
    · intro a ha b hb' he
      rw [List.mem_singleton] at hb'
      have ha' := hm.2 a ha
      rw [he, hb'] at ha'
      exact (freshId_iff.1 fresh).2 ha'
    · rcases List.mem_append.1 hx with hx | hx
      · exact List.mem_cons_of_mem _ (hm.2 x hx)
      · rw [List.mem_singleton] at hx
        exact hx ▸ List.mem_cons_self

/-- Revoking changes intents only. -/
theorem revokeIntent_frame (w : World) (k : Control) : (w.revokeIntent k).docs = w.docs ∧
    (w.revokeIntent k).live.map (·.runId) = w.live.map (·.runId) ∧ (w.revokeIntent k).recovery = w.recovery := by
  unfold World.revokeIntent
  split
  · cases k with
    | one id stop =>
      refine ⟨rfl, ?_, rfl⟩
      simp only [World.revokeRuns, List.map_map]
      refine List.map_congr_left fun s _ => ?_
      simp only [Function.comp_apply]
      split_ifs <;> rfl
    | all =>
      refine ⟨rfl, ?_, rfl⟩
      simp only [World.revokeRuns, List.map_map]
      rfl
  · exact ⟨rfl, rfl, rfl⟩

theorem revokeIntent_trace (w : World) (k : Control) : (w.revokeIntent k).trace = w.trace := by
  unfold World.revokeIntent
  split
  · cases k <;> rfl
  · rfl

theorem Base.newSession (h : Base K w) (hn : ∀ s ∈ w.live, s.runId ≠ r.view.runId) (hr : w.recovery = none)
    (hc : w.memory.core r.view.runId = some r.core) (ha : r.view.account = i.authority.account) :
    Base K ({ w with live := w.newSession t i r :: w.live } : World) := by
  refine ⟨h.ids, ?_, fun s hs => ?_, fun ρ hρ => ?_⟩
  · simp only [List.map_cons, List.nodup_cons]
    refine ⟨fun hm => ?_, h.liveIds⟩
    obtain ⟨s, hs, he⟩ := List.mem_map.1 hm
    exact hn s hs he
  · rcases List.mem_cons.1 hs with rfl | hs
    · exact ⟨⟨r.core, hc, ha⟩, (fun _ hx => nomatch hx), (fun _ hx => nomatch hx), trivial⟩
    · exact h.sessions s hs
  · have hρ' : w.recovery = some ρ := hρ
    rw [hr] at hρ'; cases hρ'

theorem Starts.account (h : Starts K w t i r doc) : r.view.account = i.authority.account := by
  cases h <;> rfl

theorem race_frame (w : World) (i : Start) : (w.race i).docs = w.docs ∧
    (w.race i).live.map (·.runId) = w.live.map (·.runId) ∧ (w.race i).recovery = w.recovery := by
  unfold World.race
  split
  · exact ⟨rfl, rfl, rfl⟩
  · exact revokeIntent_frame w _

theorem Base.race (h : Base K w) (i : Start) : Base K (w.race i) := by
  unfold World.race
  split
  · exact h
  · exact h.revokeIntent _

theorem Base.goLive (h : Base K w) (hn : ∀ s ∈ w.live, s.runId ≠ r.view.runId) (hr : w.recovery = none)
    (hc : w.memory.core r.view.runId = some r.core) (ha : r.view.account = i.authority.account) :
    Base K (w.goLive K t i r) := by
  unfold World.goLive
  split
  · exact h.newSession hn hr hc ha
  · split
    · exact h
    · rename_i r' hr'
      exact h.save_same (same_edit hr' (core_setStatus _ _ _))

/-- The run a start saved is in memory, and still not live. -/
theorem startSave_ok (h : Base K w) (had : Admitted K w t i r doc) (hok : (w.startSave K i r doc).2 = true) :
    ((w.startSave K i r doc).1.memory.core r.view.runId = some r.core) ∧
      ∀ s ∈ (w.startSave K i r doc).1.live, s.runId ≠ r.view.runId := by
  unfold World.startSave at *
  obtain ⟨-, -, he⟩ := save_ok hok
  rw [he]
  refine ⟨((same_prepare _ _ _).core _).trans (had.starts.core h).1, fun s hs => had.notLive h s hs⟩

theorem Base.startSave (h : Base K w) (had : Admitted K w t i r doc) : Base K (w.startSave K i r doc).1 := by
  have h₀ : Base K ({ w with minted := r.view.runId :: w.minted } : World) := h.mint [r.view.runId]
  exact h₀.save (had.starts.ids h) fun s hs => (had.starts.core h).2 _ (had.notLive h s hs)

theorem noteStart_frame (w : World) (i : Start) (r : RunRecord) : (w.noteStart i r).docs = w.docs ∧
    (w.noteStart i r).live = w.live ∧ (w.noteStart i r).recovery = w.recovery ∧ (w.noteStart i r).minted = w.minted := by
  unfold World.noteStart
  split <;> exact ⟨rfl, rfl, rfl, rfl⟩

theorem Base.noteStart (h : Base K w) (i : Start) (r : RunRecord) : Base K (w.noteStart i r) := by
  unfold World.noteStart
  split
  · exact ⟨h.ids, h.liveIds, h.sessions, h.recovery⟩
  · exact h

theorem Base.startWith (h : Base K w) (hg : w.recovery = none) : Base K (w.startWith K t i) := by
  unfold World.startWith
  split
  · exact h
  · rename_i r doc hok
    have had := admitStart_ok hok
    have h₁ := h.startSave had
    split
    · rename_i hsaved
      obtain ⟨hm, hn⟩ := startSave_ok h had hsaved
      obtain ⟨hd₁, hl₁, hr₁, -⟩ := noteStart_frame (w.startSave K i r doc).1 i r
      obtain ⟨hd₂, hl₂, hr₂⟩ := race_frame ((w.startSave K i r doc).1.noteStart i r) i
      have hmem := congrArg Docs.memory (hd₂.trans hd₁)
      refine ((h₁.noteStart i r).race i).goLive (fun s hs he => ?_) ?_ ?_ had.starts.account
      · have hin : s.runId ∈ (w.startSave K i r doc).1.live.map (·.runId) := by
          rw [← hl₁, ← hl₂]; exact List.mem_map_of_mem hs
        obtain ⟨x, hx, hxe⟩ := List.mem_map.1 hin
        exact hn x hx (hxe.trans he)
      · rw [hr₂, hr₁]
        exact (save_frame K _ _ _).recovery.trans hg
      · rw [← hm]
        exact congrArg (fun v : Version => v.core r.view.runId) hmem
    · exact h₁

theorem Base.start (h : Base K w) (i : Start) : Base K (w.start K i) := by
  unfold World.start
  split
  · rename_i hc
    split
    · exact h
    · refine Base.startWith ⟨h.ids, h.liveIds, h.sessions, h.recovery⟩ ?_
      have := hc.2.2
      simp only [World.gateFree, Bool.and_eq_true, Option.isNone_iff_eq_none] at this
      exact this.1
  · exact h

end Start

/-! ## Recovery -/

section Recovery

variable {ρ : Recovery} {r r' : RunRecord} {i : SaveInput}

/-- **The lock sections of a recovery**, on the record it finds. -/
inductive Recovers (ρ : Recovery) (r : RunRecord) (m : RecoveryMove) : RunRecord → Prop
  | respond (result : AppResult (Option Order)) (i : SaveInput) (response : AppResult StrategyMutationResponse)
      (r' : RunRecord) (order : Option Order) (move : m = .answer result i) (asking : ρ.phase = .asking)
      (from_ : recoveryResponse ρ.pending result = some response)
      (record : respondRecord r ρ.pending response = .ok (r', order)) : Recovers ρ r m r'
  | clear (order : Order) (r' : RunRecord) (phase : ρ.phase = .acknowledging order)
      (record : clearRecord r ρ.pending = .ok r') : Recovers ρ r m r'
  | ackFailed (order : Order) (phase : ρ.phase = .acknowledging order) :
      Recovers ρ r m (r.setStatus .recoveryRequired (some "plugin_strategy_ack_failed"))
  | pause (resolved : r.pending = none) (phase : ρ.phase = .ended) :
      Recovers ρ r m (r.setStatus .paused (stopReason false))

theorem Recovers.kept {m : RecoveryMove} (h : Recovers ρ r m r') : SameRun r r' := by
  cases h with
  | respond result i response r' order move asking from_ record => exact respond_kept record
  | clear order r' phase record => exact clear_kept record
  | ackFailed order phase => exact ⟨rfl⟩
  | pause resolved phase => exact ⟨rfl⟩

/-- **What a step of a recovery does**: it returns, or it saves another record of its
run and goes on. -/
theorem recover_cases (K : Crates) (w : World) (ρ : Recovery) (m : RecoveryMove) :
    w.recover K ρ m = w ∨ (∃ ph, w.recover K ρ m = w.recoverOn ρ ph) ∨
      ∃ r r' i stored failed, w.state ρ.runId = some r ∧ Recovers ρ r m r' ∧
        w.recover K ρ m = w.recoverSave K ρ r' i stored failed := by
  unfold World.recover
  split
  · rename_i result i hph
    unfold World.recoverAnswer
    split
    · rename_i response r hresp hst
      cases hr : respondRecord r ρ.pending response with
      | error e => exact Or.inr (Or.inl ⟨none, rfl⟩)
      | ok x =>
        obtain ⟨r', order⟩ := x
        refine Or.inr (Or.inr ⟨r, r', _, _, _, hst, .respond result i response r' order rfl hph ?_ hr, rfl⟩)
        split at hresp
        · exact hresp
        · cases hresp
    · exact Or.inr (Or.inl ⟨none, rfl⟩)
  · rename_i order ok i hph
    unfold World.recoverAcknowledge
    split
    · exact Or.inr (Or.inl ⟨none, rfl⟩)
    · rename_i r hst
      split
      · cases hr : clearRecord r ρ.pending with
        | error e => exact Or.inr (Or.inl ⟨none, rfl⟩)
        | ok r' => exact Or.inr (Or.inr ⟨r, r', _, _, _, hst, .clear order r' hph hr, rfl⟩)
      · exact Or.inr (Or.inr ⟨r, _, _, _, _, hst, .ackFailed order hph, rfl⟩)
  · rename_i i hph
    unfold World.recoverDone
    split
    · exact Or.inr (Or.inl ⟨none, rfl⟩)
    · rename_i r hst
      split
      · rename_i hp
        exact Or.inr (Or.inr ⟨r, _, _, _, _, hst, .pause (by simpa using hp) hph, rfl⟩)
      · exact Or.inr (Or.inl ⟨none, rfl⟩)
  · exact Or.inl rfl

theorem Base.recoverOn (h : Base K w) (hn : ∀ s ∈ w.live, s.runId ≠ ρ.runId) (ph : Option RecoveryPhase) :
    Base K (w.recoverOn ρ ph) := by
  refine ⟨h.ids, h.liveIds, h.sessions, fun ρ' hρ' => ?_⟩
  obtain ⟨p, -, rfl⟩ := Option.map_eq_some_iff.1 hρ'
  exact hn

/-- A save of a run that is not live. -/
theorem Base.recoverSave (h : Base K w) (hn : ∀ s ∈ w.live, s.runId ≠ ρ.runId) (hs : w.state ρ.runId = some r)
    (hk : SameRun r r') (stored failed : Option RecoveryPhase) : Base K (w.recoverSave K ρ r' i stored failed) := by
  have hid : r'.view.runId = ρ.runId := hk.runId.trans (find_runId hs)
  unfold World.recoverSave
  refine Base.recoverOn (h.save (idsOk_edit h hs hid) fun s hs' => core_put_ne hid (hn s hs')) (fun s hs' => ?_) _
  rcases (save_frame K w (w.edit ρ.runId r') i).live with hl | hl <;> rw [hl] at hs'
  · exact hn s hs'
  · obtain ⟨x, hx, rfl⟩ := List.mem_map.1 hs'
    exact hn x hx

theorem Base.recover (h : Base K w) (hρ : w.recovery = some ρ) (m : RecoveryMove) : Base K (w.recover K ρ m) := by
  have hn := h.recovery ρ hρ
  rcases recover_cases K w ρ m with he | ⟨ph, he⟩ | ⟨r, r', i, stored, failed, hs, hr, he⟩ <;> rw [he]
  · exact h
  · exact h.recoverOn hn ph
  · exact h.recoverSave hn hs hr.kept stored failed

/-- What `reconcile` found before it asks. -/
theorem reconcileBegin_ok {id : String} {current : AppResult AccountAuthority} {scope : AppResult Digest}
    (h : w.reconcileBegin K id current scope = .ok ρ) :
    ρ.runId = id ∧ w.unavailable = false ∧ w.isLive id = false ∧ w.state id = some ρ.record ∧
      ρ.record.pending = some ρ.pending ∧ ρ.phase = .asking ∧ w.recovery = none := by
  simp only [World.reconcileBegin, bind_eq_ok, ensure_eq_ok, okOr_eq_ok, pure_eq_ok] at h
  obtain ⟨-, ⟨-, hg⟩, -, hu, -, hl, record, hs, p, hp, cur, -, -, -, sc, -, -, -, rfl⟩ := h
  refine ⟨rfl, by simpa using hu, by simpa using hl, hs, hp, rfl, ?_⟩
  simp only [World.gateFree, Bool.and_eq_true, Option.isNone_iff_eq_none] at hg
  exact hg.1

end Recovery

/-! ## Every step and every run -/

theorem Base.restart (h : Base K w) (pick : Option ℕ) : Base K (w.restart K pick) := by
  refine ⟨h.ids.restart (closed_idsOk _) ⟨List.nodup_nil, (fun _ hx => nomatch hx)⟩ pick, List.nodup_nil,
    (fun _ hx => nomatch hx), (fun _ hx => nomatch hx)⟩

/-- **One step keeps the invariant.** -/
theorem base_step (w : World) (a : Act) (h : Base K w) : Base K (w.step K a) := by
  cases a with
  | tick d => exact ⟨h.ids, h.liveIds, h.sessions, h.recovery⟩
  | newEpoch => exact ⟨h.ids, h.liveIds, h.sessions, h.recovery⟩
  | access i =>
    simp only [World.step]
    unfold World.access
    split
    · exact h
    · simp only
      split_ifs
      · have h' := h.mint [i.token]
        exact ⟨h'.ids, h'.liveIds, h'.sessions, h'.recovery⟩
      · exact ⟨h.ids, h.liveIds, h.sessions, h.recovery⟩
      · exact h
  | start i => exact h.start i
  | revoke k =>
    simp only [World.step]
    split
    · exact h.revokeIntent k
    · exact h
  | locked k i =>
    simp only [World.step]
    split
    · have h' : Base K ({ w with waiting := w.waiting.erase k } : World) :=
        ⟨h.ids, h.liveIds, h.sessions, h.recovery⟩
      exact h'.lockSection k i
    · exact h
  | exit => exact h.exit
  | worker id m =>
    simp only [World.step]
    split
    · exact h
    · rename_i s hs
      exact h.apply (session_some hs).1 m
  | reconcile id current scope =>
    simp only [World.step]
    split
    · exact h
    · -- the run of a recovery is not live:
      rename_i ρ hρ
      obtain ⟨hid, -, hl, -⟩ := reconcileBegin_ok hρ
      refine ⟨h.ids, h.liveIds, h.sessions, fun ρ' hρ' => ?_⟩
      cases hρ'
      rw [hid]
      exact isLive_eq_false.1 hl
  | recover m =>
    simp only [World.step]
    split
    · exact h
    · rename_i ρ hρ
      exact h.recover hρ m
  | restart pick => exact h.restart pick

theorem validate_ids {doc : StrategyDocument} (h : doc.validate K = true) : (doc.runs.map (·.view.runId)).Nodup := by
  unfold StrategyDocument.validate at h
  simp only [Bool.and_eq_true, decide_eq_true_eq] at h
  exact h.1.1.2

theorem idsOk_store {doc : StrategyDocument} (h : doc.validate K = true) :
    IdsOk (World.store doc).minted ⟨doc, []⟩ := by
  refine ⟨validate_ids h, fun id hid => ?_⟩
  obtain ⟨r, hr, rfl⟩ := List.mem_map.1 hid
  exact List.mem_flatMap.2 ⟨r, hr, List.mem_cons_self⟩

/-- The invariant holds of a first process, on any valid stored document. -/
theorem base_init {doc : StrategyDocument} (h : doc.validate K = true) : Base K (World.init K doc) := by
  have hids := idsOk_store h
  have hstore : Base K (World.store doc) :=
    ⟨⟨hids, hids, (fun _ hx => nomatch hx)⟩, List.nodup_nil, (fun _ hx => nomatch hx), (fun _ hx => nomatch hx)⟩
  exact hstore.restart (some 0)

end EasiFlux
