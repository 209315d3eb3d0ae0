import EasiFlux.Proof.Base

/-!
# Dispatch is write-ahead and at most once

The calls of the host in a run of the system (`Event.handed`), against the documents
that were saved before them.

* `WriteAhead`: the invariant. A sequence number that was handed to the host is not above
  that of its run in any document the system may go on with, and an action that has
  not been handed has a higher one.
* `dispatch_write_ahead`: **what is handed to the host is the pending action of the
  last saved document, and no run hands a sequence number twice.**
-/

namespace EasiFlux

open Fixed Results World Steps

variable {K : Crates} {w : World}

/-! ## Traces -/

/-- The run and the sequence number of a call of the host. -/
def Event.handedKey : Event → Option (String × ℕ)
  | .handed id p _ => some (id, p.sequence)
  | _ => none

/-- The calls of the host in a trace. -/
def handedKeys (trace : List Event) : List (String × ℕ) := trace.filterMap Event.handedKey

/-- The document that was saved last. -/
def lastSaved : List Event → Option StrategyDocument
  | [] => none
  | .saved doc :: _ => some doc
  | _ :: trace => lastSaved trace

/-- The call that stands for a pending action. -/
def HostCall.IsOf (call : HostCall) (p : PendingAction) : Prop :=
  match call, p.action with
  | .strategyPlaceLocked context request, .placeOrder order =>
    p.submissionId = some context.submissionId ∧ request = placement order context.submissionId
  | .strategyPlaceLocked context request, .placeProtectedOrder order protection =>
    p.submissionId = some context.submissionId ∧
      request = { placement order context.submissionId with protection := some protection }
  | .strategyCancelLocked _ request, .cancelOrder order => request = ⟨order.symbol, some order.orderId, none⟩
  | .strategyAmendLocked _ request _, .amendOrder order => request = order
  | _, _ => False

theorem hostCall_isOf {account : Account} {record : RunRecord} {p : PendingAction} {call : HostCall}
    (h : hostCall account record p = .ok call) : call.IsOf p := by
  unfold hostCall at h
  rw [bind_eq_ok] at h
  obtain ⟨epoch, -, h⟩ := h
  unfold HostCall.IsOf
  cases ha : p.action with
  | none => rw [ha] at h; cases h
  | stop => rw [ha] at h; cases h
  | placeOrder order =>
    simp only [ha, bind_eq_ok, okOr_eq_ok, pure_eq_ok] at h
    obtain ⟨id, hid, rfl⟩ := h
    exact ⟨hid, rfl⟩
  | placeProtectedOrder order protection =>
    simp only [ha, bind_eq_ok, okOr_eq_ok, pure_eq_ok] at h
    obtain ⟨id, hid, rfl⟩ := h
    exact ⟨hid, rfl⟩
  | amendOrder order =>
    simp only [ha, bind_eq_ok, okOr_eq_ok, pure_eq_ok] at h
    obtain ⟨original, -, rfl⟩ := h
    rfl
  | cancelOrder order =>
    simp only [ha, pure_eq_ok] at h
    subst h
    rfl

/-- Every call of the host was of the pending action of the document saved last, and
of a new sequence number. -/
def TraceOk : List Event → Prop
  | [] => True
  | .handed id p call :: trace =>
    call.IsOf p ∧ (∃ d r, lastSaved trace = some d ∧ d.find id = some r ∧ r.pending = some p) ∧
      (id, p.sequence) ∉ handedKeys trace ∧ TraceOk trace
  | .saved _ :: trace | .resumed _ :: trace => TraceOk trace

theorem TraceOk.nodup {trace : List Event} (h : TraceOk trace) : (handedKeys trace).Nodup := by
  induction trace with
  | nil => exact List.nodup_nil
  | cons e trace ih =>
    cases e with
    | saved doc => exact ih h
    | resumed id => exact ih h
    | handed id p call => exact List.nodup_cons.2 ⟨h.2.2.1, ih h.2.2.2⟩

theorem TraceOk.handed {post pre : List Event} {id : String} {p : PendingAction} {call : HostCall}
    (h : TraceOk (post ++ .handed id p call :: pre)) :
    call.IsOf p ∧ ∃ d r, lastSaved pre = some d ∧ d.find id = some r ∧ r.pending = some p := by
  induction post with
  | nil => exact ⟨h.1, h.2.1⟩
  | cons e post ih =>
    cases e with
    | saved doc => exact ih h
    | resumed id => exact ih h
    | handed id p call => exact ih h.2.2.2

/-! ## The invariant -/

/-- A pending action has the sequence number of its run, and no number handed is
above it. -/
def SeqOk (keys : List (String × ℕ)) (v : Version) : Prop :=
  ∀ id c, v.core id = some c →
    (∀ p, c.pending = some p → p.sequence = c.view.sequence) ∧ ∀ n, (id, n) ∈ keys → n ≤ c.view.sequence

theorem closed_seqOk (keys : List (String × ℕ)) : Closed (SeqOk keys) := by
  intro v v' h hv id c hc
  rw [← h.core] at hc
  exact hv id c hc

/-- What holds of a live run whose action may still be handed to the host. -/
structure Unsent (trace : List Event) (durable : Version) (s : Session) (p : PendingAction) : Prop where
  saved : (lastSaved trace).isSome
  stored : (durable.core s.runId).isSome
  fresh : (s.runId, p.sequence) ∉ handedKeys trace

structure WriteAhead (w : World) : Prop where
  docs : w.docs.All (SeqOk (handedKeys w.trace))
  minted : ∀ k ∈ handedKeys w.trace, k.1 ∈ w.minted
  trace : TraceOk w.trace
  last : ∀ d, lastSaved w.trace = some d → d = w.durable.doc
  unsent : ∀ s ∈ w.live, ∀ p, s.phase.unsent = some p → Unsent w.trace w.durable s p

/-- Another record of one run, not of a lower sequence number. -/
theorem seqOk_edit {keys : List (String × ℕ)} {id : String} {r r' : RunRecord} {made : List (String × PendingAction)}
    (h : SeqOk keys w.memory) (hs : w.state id = some r) (hid : r'.view.runId = id)
    (hle : r.view.sequence ≤ r'.view.sequence) (hp : ∀ p, r'.pending = some p → p.sequence = r'.view.sequence) :
    SeqOk keys { w.edit id r' with made := made } := by
  intro id' c hc
  by_cases he : id' = id
  · subst he
    have hself : ({ w.edit id' r' with made := made } : Version).core id' = some r'.core := core_put_self hs hid
    rw [hself] at hc
    cases hc
    refine ⟨hp, fun n hn => ?_⟩
    exact ((h id' r.core (Version.core_find hs)).2 n hn).trans hle
  · have hother : ({ w.edit id r' with made := made } : Version).core id' = w.memory.core id' := core_put_ne hid he
    rw [hother] at hc
    exact h id' c hc

/-- A response leaves the sequence number, and at most what is pending. -/
theorem respond_seq {r r' : RunRecord} {p : PendingAction} {x : AppResult StrategyMutationResponse}
    {order : Option Order} (h : respondRecord r p x = .ok (r', order)) :
    r'.view.sequence = r.view.sequence ∧ (r'.pending = none ∨ r'.pending = r.pending) := by
  simp only [respondRecord, bind_eq_ok, ensure_eq_ok, pure_eq_ok, Prod.mk.injEq] at h
  obtain ⟨-, -, receipt, -, owned, -, rfl, -⟩ := h
  refine ⟨rfl, ?_⟩
  unfold RunRecord.receive
  simp only
  split_ifs
  · exact Or.inl rfl
  · exact Or.inr rfl

theorem clear_seq {r r' : RunRecord} {p : PendingAction} (h : clearRecord r p = .ok r') :
    r'.view.sequence = r.view.sequence ∧ r'.pending = none := by
  simp only [clearRecord, bind_eq_ok, ensure_eq_ok, pure_eq_ok] at h
  obtain ⟨-, -, rfl⟩ := h
  exact ⟨rfl, rfl⟩

theorem commit_seq {r r' : RunRecord} {action : StrategyAction} {p : PendingAction}
    (h : commitMutation K r action p = .ok r') : r'.view.sequence = r.view.sequence := by
  simp only [commitMutation, bind_eq_ok, ensure_eq_ok, pure_eq_ok] at h
  obtain ⟨-, -, total, -, owned, -, rfl⟩ := h
  rfl

theorem rest_seq (r : RunRecord) (c : Reading) (output : StrategyOutput) (now : UInt64) (keep : Bool) :
    (restRecord r c output now keep).view.sequence = c.record.view.sequence + 1 ∧
      (restRecord r c output now keep).pending = r.pending := by
  unfold restRecord
  cases keep <;> exact ⟨rfl, rfl⟩

/-- What a worker saves is not behind. -/
theorem seqOk_saves {s : Session} {m : Move} {next : Version} {ok err : Phase} {minted : List String}
    {keys : List (String × ℕ)} (h : SeqOk keys w.memory) (hn : Saves K w s m next ok err minted) : SeqOk keys next := by
  cases hn with
  | rest c output r now keep phase base =>
    obtain ⟨-, -, hs, hseq, hp⟩ := commitBase_ok base
    obtain ⟨h1, h2⟩ := rest_seq r c output now keep
    refine seqOk_edit h hs ((rest_kept r c output now keep).runId.trans (find_runId hs)) (by omega) fun p hp' => ?_
    rw [h2, hp] at hp'; cases hp'
  | pending c output action r r' now id i move phase base mutation fresh commit =>
    obtain ⟨-, -, hs, hseq, -⟩ := commitBase_ok base
    obtain ⟨hk, hp⟩ := commit_kept commit
    have hkept : SameRun r r' := ⟨hk.fixed⟩
    have hs' : r'.view.sequence = c.record.view.sequence + 1 := commit_seq commit
    refine seqOk_edit h hs (hkept.runId.trans (find_runId hs)) (by omega) fun p hp' => ?_
    rw [hp] at hp'; cases hp'
    exact hs'.symm
  | respond p response r r' order ok from_ state record next =>
    obtain ⟨h1, h2⟩ := respond_seq record
    refine seqOk_edit h state ((respond_kept record).runId.trans (find_runId state)) h1.ge fun p' hp' => ?_
    rcases h2 with h2 | h2
    · rw [h2] at hp'; cases hp'
    · rw [h2] at hp'; rw [h1]
      exact (h _ _ (Version.core_find state)).1 p' hp'
  | clear p o denied r r' phase state record =>
    obtain ⟨h1, h2⟩ := clear_seq record
    refine seqOk_edit h state ((clear_kept record).runId.trans (find_runId state)) h1.ge fun p' hp' => ?_
    rw [h2] at hp'; cases hp'
  | ackFailed p o denied r phase state => exact closed_seqOk keys _ _ (same_edit state (core_setStatus _ _ _)).symm h
  | mark status reason r i move phase state => exact closed_seqOk keys _ _ (same_edit state (core_setStatus _ _ _)).symm h

theorem seqOk_recovers {ρ : Recovery} {r r' : RunRecord} {m : RecoveryMove} {keys : List (String × ℕ)}
    (h : SeqOk keys w.memory) (hs : w.state ρ.runId = some r) (hr : Recovers ρ r m r') :
    SeqOk keys (w.edit ρ.runId r') := by
  have hid := hr.kept.runId.trans (find_runId hs)
  have hold := (h _ _ (Version.core_find hs)).1
  cases hr with
  | respond result i response r' order move asking from_ record =>
    obtain ⟨h1, h2⟩ := respond_seq record
    refine seqOk_edit h hs hid h1.ge fun p' hp' => ?_
    rcases h2 with h2 | h2
    · rw [h2] at hp'; cases hp'
    · rw [h2] at hp'; rw [h1]
      exact hold p' hp'
  | clear order r' phase record =>
    obtain ⟨h1, h2⟩ := clear_seq record
    refine seqOk_edit h hs hid h1.ge fun p' hp' => ?_
    rw [h2] at hp'; cases hp'
  | ackFailed order phase => exact closed_seqOk keys _ _ (same_edit hs (core_setStatus _ _ _)).symm h
  | pause resolved phase => exact closed_seqOk keys _ _ (same_edit hs (core_setStatus _ _ _)).symm h

/-! ## Saves -/

/-- What a save adds to the trace. -/
theorem save_trace (K : Crates) (w : World) (next : Version) (i : SaveInput) :
    ((w.save K next i).1.trace = w.trace ∧ (w.save K next i).1.durable = w.durable) ∨
      ((w.save K next i).1.trace = .saved (w.prepare next i.wall.toNat).doc :: w.trace ∧
        (w.save K next i).1.durable = w.prepare next i.wall.toNat) := by
  rcases save_cases K w next i with ⟨-, he⟩ | ⟨-, -, he⟩ | ⟨_, _, -, -, he⟩ <;> rw [he]
  · exact Or.inl ⟨rfl, rfl⟩
  · exact Or.inr ⟨rfl, rfl⟩
  · exact Or.inl ⟨rfl, rfl⟩

theorem save_handedKeys (K : Crates) (w : World) (next : Version) (i : SaveInput) :
    handedKeys (w.save K next i).1.trace = handedKeys w.trace := by
  rcases save_trace K w next i with ⟨h, -⟩ | ⟨h, -⟩ <;> rw [h]
  rfl

theorem Unsent.save {next : Version} {i : SaveInput} {s : Session} {p : PendingAction}
    (h : Unsent w.trace w.durable s p) (hn : (next.core s.runId).isSome) :
    Unsent (w.save K next i).1.trace (w.save K next i).1.durable s p := by
  rcases save_trace K w next i with ⟨ht, hd⟩ | ⟨ht, hd⟩ <;> rw [ht, hd]
  · exact h
  · exact ⟨rfl, by rw [(same_prepare w next _).core]; exact hn, h.fresh⟩

/-- A save of a document that is not behind and has every live run. -/
theorem WriteAhead.save {next : Version} {i : SaveInput} (h : WriteAhead w) (hn : SeqOk (handedKeys w.trace) next)
    (hl : ∀ s ∈ w.live, (next.core s.runId).isSome) : WriteAhead (w.save K next i).1 := by
  have hf := save_frame K w next i
  refine ⟨?_, ?_, ?_, fun d hd => ?_, fun s' hs' p hp => ?_⟩
  · rw [save_handedKeys]; exact h.docs.save (closed_seqOk _) hn
  · rw [save_handedKeys, hf.minted]; exact h.minted
  · rcases save_trace K w next i with ⟨ht, -⟩ | ⟨ht, -⟩ <;> rw [ht]
    · exact h.trace
    · exact h.trace
  · rcases save_trace K w next i with ⟨ht, he⟩ | ⟨ht, he⟩ <;> rw [ht] at hd <;> rw [he]
    · exact h.last d hd
    · cases hd; rfl
  · rcases hf.live with hlive | hlive <;> rw [hlive] at hs'
    · exact (h.unsent s' hs' p hp).save (hl s' hs')
    · obtain ⟨s, hs, rfl⟩ := List.mem_map.1 hs'
      have := (h.unsent s hs p hp).save (K := K) (i := i) (hl s hs)
      exact ⟨this.saved, this.stored, this.fresh⟩

/-- Every live run is in memory. -/
theorem Base.known_isSome (h : Base K w) {s : Session} (hs : s ∈ w.live) : (w.memory.core s.runId).isSome := by
  obtain ⟨c, hc, -⟩ := (h.sessions s hs).known
  have hc' : w.memory.core s.runId = some c := hc
  rw [hc']; rfl

theorem WriteAhead.save_same {next : Version} {i : SaveInput} (h : WriteAhead w) (hb : Base K w) (hn : Same next w.memory) :
    WriteAhead (w.save K next i).1 :=
  h.save (closed_seqOk _ _ _ hn.symm h.docs.memory) fun s hs => by rw [hn.core]; exact hb.known_isSome hs

/-! ## Steps -/

section Steps

variable {s : Session} {m : Move}

/-- Sessions in which no more is unsent than before. -/
theorem WriteAhead.map_live (h : WriteAhead w) (f : Session → Session) (hid : ∀ s, (f s).runId = s.runId)
    (hp : ∀ s ∈ w.live, ∀ p, (f s).phase.unsent = some p → s.phase.unsent = some p) :
    WriteAhead ({ w with live := w.live.map f } : World) := by
  refine ⟨h.docs, h.minted, h.trace, h.last, fun s' hs' p hp' => ?_⟩
  obtain ⟨s, hs, rfl⟩ := List.mem_map.1 hs'
  have := h.unsent s hs p (hp s hs p hp')
  refine ⟨this.saved, ?_, ?_⟩
  · rw [hid]; exact this.stored
  · rw [hid]; exact this.fresh

theorem WriteAhead.revokeRuns (h : WriteAhead w) (k : Control) : WriteAhead (w.revokeRuns k) := by
  cases k with
  | one id stop =>
    refine h.map_live _ (fun s => ?_) (fun s _ p hp => ?_)
    · split_ifs <;> rfl
    · split_ifs at hp <;> exact hp
  | all => exact h.map_live _ (fun _ => rfl) (fun _ _ _ hp => hp)

theorem WriteAhead.revokeIntent (h : WriteAhead w) (k : Control) : WriteAhead (w.revokeIntent k) := by
  unfold World.revokeIntent
  split
  · have h' : WriteAhead ({ w with admission := w.admission + 1 } : World) := ⟨h.docs, h.minted, h.trace, h.last, h.unsent⟩
    have h'' := h'.revokeRuns k
    exact ⟨h''.docs, h''.minted, h''.trace, h''.last, h''.unsent⟩
  · exact h

theorem WriteAhead.exit (h : WriteAhead w) : WriteAhead w.exit := by
  unfold World.exit
  simp only
  split
  · have h' : WriteAhead ({ w with closed := true, admission := w.admission + 1 } : World) :=
      ⟨h.docs, h.minted, h.trace, h.last, h.unsent⟩
    exact h'.revokeRuns .all
  · exact ⟨h.docs, h.minted, h.trace, h.last, h.unsent⟩

theorem WriteAhead.lockSection (h : WriteAhead w) (hb : Base K w) (k : Control) (i : SaveInput) : WriteAhead (w.lockSection K k i) := by
  have h' : WriteAhead ({ w with tickets := [] } : World) := ⟨h.docs, h.minted, h.trace, h.last, h.unsent⟩
  have hb' : Base K ({ w with tickets := [] } : World) := ⟨hb.ids, hb.liveIds, hb.sessions, hb.recovery⟩
  unfold World.lockSection
  simp only
  cases k with
  | one id stop =>
    simp only
    split
    · exact h'
    · rename_i r hr
      exact h'.save_same hb' (same_edit hr (core_control _ _ _))
  | all =>
    simp only
    split
    · exact h'
    · exact h'.save_same hb' (same_mapRuns _ fun r => core_stopAll r _)

theorem WriteAhead.mint (h : WriteAhead w) (ids : List String) : WriteAhead ({ w with minted := ids ++ w.minted } : World) :=
  ⟨h.docs, fun k hk => List.mem_append_right _ (h.minted k hk), h.trace, h.last, h.unsent⟩

theorem WriteAhead.finish (h : WriteAhead w) (hb : Base K w) (s : Session) (i : SaveInput) : WriteAhead (w.finish K s i) := by
  have hdrop : ∀ w' : World, WriteAhead w' → WriteAhead ({ w' with live := w'.live.filter fun t => t.runId ≠ s.runId } : World) :=
    fun w' h' => ⟨h'.docs, h'.minted, h'.trace, h'.last, fun t ht => h'.unsent t (List.mem_of_mem_filter ht)⟩
  unfold World.finish
  refine hdrop _ ?_
  split_ifs
  · exact h
  · split
    · exact h.save_same hb (Same.refl _)
    · rename_i r hr
      exact h.save_same hb (same_edit hr (core_finish _ _))

/-- The only phase with something unsent is the one after a commit that was saved. -/
theorem saves_unsent {next : Version} {ok err : Phase} {minted : List String} (hn : Saves K w s m next ok err minted) :
    err.unsent = none ∧
      ∀ p, ok.unsent = some p → ∃ r, w.state s.runId = some r ∧ p.sequence = r.view.sequence + 1 := by
  cases hn with
  | rest c output r now keep phase base => exact ⟨rfl, fun p hp => by cases keep <;> cases hp⟩
  | pending c output action r r' now id i move phase base mutation fresh commit =>
    obtain ⟨-, -, hst, hseq, -⟩ := commitBase_ok base
    refine ⟨rfl, fun p hp => ⟨r, hst, ?_⟩⟩
    cases hp
    exact congrArg (· + 1) hseq.symm
  | respond p response r r' order ok from_ state record next =>
    refine ⟨rfl, fun p hp => ?_⟩
    rcases next with ⟨o, denied, rfl, rfl⟩ | ⟨-, ⟨denied, rfl⟩ | ⟨e, rfl⟩⟩ <;> cases hp
  | clear | ackFailed | mark => exact ⟨rfl, fun p hp => nomatch hp⟩

/-- A worker's section: what it made pending is new, and saved. -/
theorem WriteAhead.save_worker {next : Version} {ok err : Phase} {minted : List String} (h : WriteAhead w) (hb : Base K w)
    (hs : s ∈ w.live) (i : SaveInput) (hn : Saves K w s m next ok err minted) :
    WriteAhead ((w.save K next i).1.setPhase s.runId (if (w.save K next i).2 then ok else err)) := by
  obtain ⟨r, r', hr, hkept, hnext⟩ := saves_edit hn
  have hid : r'.view.runId = s.runId := hkept.runId.trans (find_runId hr)
  have hsome : ∀ t ∈ w.live, (next.core t.runId).isSome := by
    intro t ht
    by_cases he : t.runId = s.runId
    · rw [he, Version.core, hnext, find_put_self hr hid]; rfl
    · rw [Version.core, hnext, find_put_ne hid he]; exact hb.known_isSome ht
  have h' : WriteAhead (w.save K next i).1 := h.save (seqOk_saves h.docs.memory hn) hsome
  obtain ⟨herr, hunsent⟩ := saves_unsent hn
  have hnew : ∀ p, (if (w.save K next i).2 then ok else err).unsent = some p →
      Unsent (w.save K next i).1.trace (w.save K next i).1.durable s p := by
    intro p hp
    cases hok : (w.save K next i).2 with
    | false => rw [hok] at hp; simp [herr] at hp
    | true =>
      rw [hok] at hp
      obtain ⟨x, hx, hseq⟩ := hunsent p hp
      obtain ⟨-, -, he⟩ := save_ok hok
      rw [he]
      refine ⟨rfl, ?_, fun hin => ?_⟩
      · rw [World.stored, (same_prepare w _ _).core]; exact hsome s hs
      · have hin' : (s.runId, p.sequence) ∈ handedKeys w.trace := hin
        have hle : p.sequence ≤ x.view.sequence := (h.docs.memory s.runId x.core (Version.core_find hx)).2 _ hin'
        omega
  refine ⟨h'.docs, h'.minted, h'.trace, h'.last, fun t' ht' p hp => ?_⟩
  obtain ⟨t, ht, rfl⟩ := List.mem_map.1 ht'
  by_cases he : t.runId = s.runId
  · rw [if_pos he] at hp ⊢
    have hu := hnew p hp
    have hid' : (t.goto (if (w.save K next i).2 then ok else err)).runId = s.runId := he
    exact ⟨hu.saved, by rw [hid']; exact hu.stored, by rw [hid']; exact hu.fresh⟩
  · rw [if_neg he] at hp ⊢
    exact h'.unsent t ht p hp

/-- The call of the host is of the pending action of the document saved last. -/
theorem WriteAhead.hand (h : WriteAhead w) (hb : Base K w) (hs : s ∈ w.live) {c : Reading} {p : PendingAction} {call : HostCall}
    (hp : s.phase = .dispatching c p) (hc : hostCall s.authority.account c.record p = .ok call) :
    WriteAhead (({ w with trace := .handed s.runId p call :: w.trace } : World).setPhase s.runId (.calling c p none)) := by
  have hu : s.phase.unsent = some p := by rw [hp]; rfl
  have hun := h.unsent s hs p hu
  have hpend := (hb.sessions s hs).pending p (unsent_pending hu)
  have hkeys : handedKeys (.handed s.runId p call :: w.trace) = (s.runId, p.sequence) :: handedKeys w.trace := rfl
  refine ⟨?_, fun k hk => ?_, ⟨hostCall_isOf hc, ?_, hun.fresh, h.trace⟩, h.last, fun t' ht' q hq => ?_⟩
  · -- the number just handed is the one of the run, wherever the action is pending
    have hseq : ∀ v, SeqOk (handedKeys w.trace) v → PendingIs s.runId p v →
        SeqOk (handedKeys (.handed s.runId p call :: w.trace)) v := by
      intro v hv hpv id x hx
      obtain ⟨h1, h2⟩ := hv id x hx
      refine ⟨h1, fun n hn => ?_⟩
      rw [hkeys] at hn
      rcases List.mem_cons.1 hn with he | hn
      · cases he
        exact (h1 p (hpv x hx)).le
      · exact h2 n hn
    exact ⟨hseq _ h.docs.memory hpend.memory, hseq _ h.docs.durable hpend.durable,
      fun v hv => hseq v (h.docs.unacked v hv) (hpend.unacked v hv)⟩
  · rcases List.mem_cons.1 hk with rfl | hk
    · exact hb.live_minted hs
    · exact h.minted k hk
  · obtain ⟨d, hd⟩ := Option.isSome_iff_exists.1 hun.saved
    obtain ⟨x, hx⟩ := Option.isSome_iff_exists.1 hun.stored
    obtain ⟨r, hr, rfl⟩ := Version.core_eq_some.1 hx
    have hdur := h.last d hd
    subst hdur
    have hrp : r.core.pending = some p := hpend.durable r.core hx
    exact ⟨_, r, hd, hr, hrp⟩
  · obtain ⟨t, ht, rfl⟩ := List.mem_map.1 ht'
    by_cases he : t.runId = s.runId
    · rw [if_pos he] at hq; cases hq
    · rw [if_neg he] at hq ⊢
      have := h.unsent t ht q hq
      refine ⟨this.saved, this.stored, fun hin => ?_⟩
      rcases List.mem_cons.1 hin with hin | hin
      · exact he (congrArg Prod.fst hin)
      · exact this.fresh hin

theorem WriteAhead.apply (h : WriteAhead w) (hb : Base K w) (hs : s ∈ w.live) (m : Move) : WriteAhead (w.apply K s (w.move K s m)) := by
  have hspec := move_spec K w s m
  cases he : w.move K s m with
  | none => exact h
  | go ph lw =>
    rw [he] at hspec
    refine h.map_live _ (fun t => ?_) (fun t ht p hp => ?_)
    · split_ifs <;> rfl
    · split_ifs at hp with hid
      · have := session_eq hb.liveIds ht hs hid
        subst this
        exact hspec.unsent p hp
      · exact hp
  | save next i ok err minted =>
    rw [he] at hspec
    exact (h.save_worker hb hs i hspec).mint minted
  | hand p call ph =>
    rw [he] at hspec
    obtain ⟨-, c, hp, hc, rfl⟩ := hspec
    exact h.hand hb hs hp hc
  | finish i => exact h.finish hb s i

end Steps

section Start

variable {t : Ticket} {i : Start} {r : RunRecord} {doc : StrategyDocument}

/-- A run that starts has no pending action, and its sequence number stays; a new run
has handed nothing. -/
theorem seqOk_starts (h : WriteAhead w) (hb : Base K w) (hst : Starts K w t i r doc) :
    SeqOk (handedKeys w.trace) ⟨doc, w.memory.made⟩ := by
  obtain ⟨hself, hother⟩ := hst.core hb
  intro id c hc
  by_cases he : id = r.view.runId
  · subst he
    rw [hself] at hc
    cases hc
    cases hst with
    | resume id old asked state checks =>
      have hold := (h.docs.memory id old.core (Version.core_find state)).2
      have hid : old.view.runId = id := find_runId state
      refine ⟨fun p hp => ?_, fun n hn => hold n ?_⟩
      · have hp' : old.pending = some p := hp
        rw [(resumable_iff checks).2.1] at hp'; cases hp'
      · rw [← hid]; exact hn
    | fresh asked room fresh expires =>
      refine ⟨(fun p hp => nomatch hp), fun n hn => ?_⟩
      exact absurd (h.minted _ hn) (freshId_iff.1 fresh).2
  · rw [hother id he] at hc
    exact h.docs.memory id c hc

theorem WriteAhead.startWith (h : WriteAhead w) (hb : Base K w) : WriteAhead (w.startWith K t i) := by
  unfold World.startWith
  split
  · exact h
  · rename_i r doc hok
    have had := admitStart_ok hok
    obtain ⟨hself, hother⟩ := had.starts.core hb
    have hseq := seqOk_starts h hb had.starts
    have h₁ : WriteAhead (w.startSave K i r doc).1 := by
      refine (h.mint [r.view.runId]).save hseq fun s hs => ?_
      rw [hother _ (had.notLive hb s hs)]
      exact hb.known_isSome hs
    have hb₁ := hb.startSave had
    split
    · -- a resumed run is noted, and the race changes intents only
      have h₂ : WriteAhead ((w.startSave K i r doc).1.noteStart i r) := by
        unfold World.noteStart
        split
        · exact ⟨h₁.docs, h₁.minted, h₁.trace, h₁.last, fun s hs p hp =>
            ⟨(h₁.unsent s hs p hp).saved, (h₁.unsent s hs p hp).stored, (h₁.unsent s hs p hp).fresh⟩⟩
        · exact h₁
      have hb₂ := hb₁.noteStart i r
      have h₃ : WriteAhead (((w.startSave K i r doc).1.noteStart i r).race i) := by
        unfold World.race
        split
        · exact h₂
        · exact h₂.revokeIntent _
      unfold World.goLive
      split
      · refine ⟨h₃.docs, h₃.minted, h₃.trace, h₃.last, fun s hs p hp => ?_⟩
        rcases List.mem_cons.1 hs with rfl | hs
        · cases hp
        · exact h₃.unsent s hs p hp
      · split
        · exact h₃
        · rename_i r' hr'
          exact h₃.save_same (hb₂.race i) (same_edit hr' (core_setStatus _ _ _))
    · exact h₁

end Start

/-- **One step keeps the invariant.** -/
theorem writeAhead_step (w : World) (a : Act) (hb : Base K w) (h : WriteAhead w) : WriteAhead (w.step K a) := by
  cases a with
  | tick d => exact ⟨h.docs, h.minted, h.trace, h.last, h.unsent⟩
  | newEpoch => exact ⟨h.docs, h.minted, h.trace, h.last, h.unsent⟩
  | access i =>
    simp only [World.step]
    unfold World.access
    split
    · exact h
    · simp only
      split_ifs
      · -- a token is minted:
        have h' := h.mint [i.token]
        exact ⟨h'.docs, h'.minted, h'.trace, h'.last, h'.unsent⟩
      · exact ⟨h.docs, h.minted, h.trace, h.last, h.unsent⟩
      · exact h
  | start i =>
    simp only [World.step]
    unfold World.start
    split
    · split
      · exact h
      · exact WriteAhead.startWith ⟨h.docs, h.minted, h.trace, h.last, h.unsent⟩
          ⟨hb.ids, hb.liveIds, hb.sessions, hb.recovery⟩
    · exact h
  | revoke k =>
    simp only [World.step]
    split
    · exact h.revokeIntent k
    · exact h
  | locked k i =>
    simp only [World.step]
    split
    · have h' : WriteAhead ({ w with waiting := w.waiting.erase k } : World) :=
        ⟨h.docs, h.minted, h.trace, h.last, h.unsent⟩
      exact h'.lockSection ⟨hb.ids, hb.liveIds, hb.sessions, hb.recovery⟩ k i
    · exact h
  | exit => exact h.exit
  | worker id m =>
    simp only [World.step]
    split
    · exact h
    · rename_i s hs
      exact h.apply hb (session_some hs).1 m
  | reconcile id current scope =>
    simp only [World.step]
    split
    · exact h
    · exact ⟨h.docs, h.minted, h.trace, h.last, h.unsent⟩
  | recover m =>
    simp only [World.step]
    split
    · exact h
    · rename_i ρ hρ
      rcases recover_cases K w ρ m with he | ⟨ph, he⟩ | ⟨r, r', i, stored, failed, hs, hr, he⟩ <;> rw [he]
      · exact h
      · exact ⟨h.docs, h.minted, h.trace, h.last, h.unsent⟩
      · -- the recovery saves the record of a run that is not live:
        have hid := hr.kept.runId.trans (find_runId hs)
        have h' : WriteAhead (w.save K (w.edit ρ.runId r') i).1 := by
          refine h.save (seqOk_recovers h.docs.memory hs hr) fun s hs' => ?_
          have hne := hb.recovery ρ hρ s hs'
          have hcore : (w.edit ρ.runId r').core s.runId = w.memory.core s.runId := core_put_ne hid hne
          rw [hcore]
          exact hb.known_isSome hs'
        exact ⟨h'.docs, h'.minted, h'.trace, h'.last, h'.unsent⟩
  | restart pick =>
    exact ⟨h.docs.restart (closed_seqOk _) (by rintro _ _ ⟨⟩) pick, h.minted, h.trace, h.last, by rintro _ ⟨⟩⟩

theorem writeAhead_init {doc : StrategyDocument} (h : doc.validate K = true) : WriteAhead (World.init K doc) := by
  have hseq : SeqOk [] ⟨doc, []⟩ := by
    intro id c hc
    obtain ⟨r, hr, rfl⟩ := Version.core_eq_some.1 hc
    refine ⟨fun p hp => ?_, (fun n hn => nomatch hn)⟩
    unfold StrategyDocument.validate at h
    simp only [Bool.and_eq_true, List.all_eq_true] at h
    have hrun := h.2 r (mem_of_find hr)
    have hp' : r.pending = some p := hp
    unfold RunRecord.validate at hrun
    simp only [Bool.and_eq_true, hp', Option.all_some] at hrun
    have hpend := hrun.1.2
    unfold PendingAction.validate at hpend
    simp only [Bool.and_eq_true, decide_eq_true_eq] at hpend
    exact hpend.1.1.1.2
  have hstore : WriteAhead (World.store doc) :=
    ⟨⟨hseq, hseq, (fun _ hx => nomatch hx)⟩, (fun _ hk => nomatch hk), trivial, (fun _ hd => nomatch hd),
      (fun _ hs => nomatch hs)⟩
  exact ⟨hstore.docs.restart (closed_seqOk _) (fun id c hc => nomatch hc) (some 0), hstore.minted, hstore.trace,
    hstore.last, (fun _ hs => nomatch hs)⟩

/-- **Every run keeps the invariant.** -/
theorem writeAhead_run {doc : StrategyDocument} (h : doc.validate K = true) (acts : List Act) :
    Base K (run (World.step K) (World.init K doc) acts) ∧ WriteAhead (run (World.step K) (World.init K doc) acts) :=
  run_inv (I := fun w => Base K w ∧ WriteAhead w) (fun w a h => ⟨base_step w a h.1, writeAhead_step w a h.1 h.2⟩) acts _
    ⟨base_init h, writeAhead_init h⟩

/-! ## Who calls the host -/

theorem startWith_handedKeys (w : World) (t : Ticket) (i : Start) :
    handedKeys (w.startWith K t i).trace = handedKeys w.trace := by
  unfold World.startWith
  split
  · rfl
  · rename_i r doc hok
    have h₁ : handedKeys (w.startSave K i r doc).1.trace = handedKeys w.trace := save_handedKeys K _ _ _
    split
    · have h₂ : handedKeys (((w.startSave K i r doc).1.noteStart i r).race i).trace = handedKeys w.trace := by
        have hrace : (((w.startSave K i r doc).1.noteStart i r).race i).trace =
            ((w.startSave K i r doc).1.noteStart i r).trace := by
          unfold World.race
          split
          · rfl
          · exact revokeIntent_trace _ _
        rw [hrace, ← h₁]
        unfold World.noteStart
        split <;> rfl
      unfold World.goLive
      split
      · exact h₂
      · split
        · exact h₂
        · rw [save_handedKeys]; exact h₂
    · exact h₁

theorem lockSection_handedKeys (w : World) (k : Control) (i : SaveInput) :
    handedKeys (w.lockSection K k i).trace = handedKeys w.trace := by
  unfold World.lockSection
  simp only
  cases k with
  | one id stop =>
    simp only
    split
    · rfl
    · exact save_handedKeys K _ _ _
  | all =>
    simp only
    split
    · rfl
    · exact save_handedKeys K _ _ _

theorem recover_handedKeys (w : World) (ρ : Recovery) (m : RecoveryMove) :
    handedKeys (w.recover K ρ m).trace = handedKeys w.trace := by
  rcases recover_cases K w ρ m with he | ⟨ph, he⟩ | ⟨r, r', i, stored, failed, -, -, he⟩ <;> rw [he]
  · rfl
  · exact save_handedKeys K w _ i

/-- Only the dispatch of a worker calls the host. -/
theorem step_handed (K : Crates) (w : World) (a : Act) :
    handedKeys (w.step K a).trace = handedKeys w.trace ∨
      ∃ id s c p call, a = .worker id .hand ∧ w.session id = some s ∧ s.phase = .dispatching c p ∧
        (w.step K a).trace = .handed id p call :: w.trace := by
  cases a with
  | tick d => exact Or.inl rfl
  | newEpoch => exact Or.inl rfl
  -- the commands do not reach the host:
  | access i =>
    refine Or.inl ?_
    simp only [World.step]
    unfold World.access
    split
    · rfl
    · simp only
      split_ifs <;> rfl
  | start i =>
    refine Or.inl ?_
    simp only [World.step]
    unfold World.start
    split
    · split
      · rfl
      · exact startWith_handedKeys _ _ _
    · rfl
  | revoke k =>
    refine Or.inl ?_
    simp only [World.step]
    split
    · rw [revokeIntent_trace]
    · rfl
  | locked k i =>
    refine Or.inl ?_
    simp only [World.step]
    split
    · exact lockSection_handedKeys _ k i
    · rfl
  | exit =>
    refine Or.inl ?_
    simp only [World.step]
    unfold World.exit
    simp only
    split <;> rfl
  | worker id m =>
    cases hs : w.session id with
    | none => exact Or.inl (by simp only [World.step, hs])
    | some s =>
      have hspec := move_spec K w s m
      simp only [World.step, hs]
      cases he : w.move K s m with
      | none => exact Or.inl rfl
      | go ph lw => exact Or.inl rfl
      | save next i ok err minted => exact Or.inl (save_handedKeys K w next i)
      -- the one effect that does:
      | hand p call ph =>
        rw [he] at hspec
        obtain ⟨rfl, c, hp, -, -⟩ := hspec
        have hid := (session_some hs).2
        subst hid
        exact Or.inr ⟨s.runId, s, c, p, call, rfl, hs, hp, rfl⟩
      | finish i =>
        refine Or.inl ?_
        unfold World.apply World.finish
        simp only
        split_ifs
        · rfl
        · split <;> exact save_handedKeys K w _ i
  -- nor does a recovery:
  | reconcile id current scope =>
    refine Or.inl ?_
    simp only [World.step]
    split <;> rfl
  | recover m =>
    refine Or.inl ?_
    simp only [World.step]
    split
    · rfl
    · exact recover_handedKeys w _ m
  | restart pick => exact Or.inl rfl

/-- **Dispatch is write-ahead and at most once.** In every run of the system, from any
valid stored document:

* every call of a mutation function of the host is of the action that is pending in
  the document saved last before it;
* no pair of a run and a sequence number is handed to the host twice;
* only the dispatch step of a worker calls the host, so no recovery does, and what it
  hands is pending in every document that the store may hold. -/
theorem dispatch_write_ahead (K : Crates) (doc : StrategyDocument) (hdoc : doc.validate K = true) (acts : List Act) :
    let w := run (World.step K) (World.init K doc) acts
    (∀ post id p call pre, w.trace = post ++ .handed id p call :: pre →
      call.IsOf p ∧ ∃ d r, lastSaved pre = some d ∧ d.find id = some r ∧ r.pending = some p) ∧
    (handedKeys w.trace).Nodup ∧
    ∀ a, handedKeys (w.step K a).trace = handedKeys w.trace ∨
      ∃ id p call, a = .worker id .hand ∧ (w.step K a).trace = .handed id p call :: w.trace ∧
        ∀ v ∈ w.durable :: w.unacked, ∀ r, v.doc.find id = some r → r.pending = some p := by
  intro w
  obtain ⟨hb, h⟩ := writeAhead_run hdoc acts
  refine ⟨fun post id p call pre htr => ?_, h.trace.nodup, fun a => ?_⟩
  · have htrace : TraceOk w.trace := h.trace
    rw [htr] at htrace
    exact htrace.handed
  · rcases step_handed K w a with hk | ⟨id, s, c, p, call, ha, hs, hp, htr⟩
    · exact Or.inl hk
    · refine Or.inr ⟨id, p, call, ha, htr, fun v hv r hr => ?_⟩
      obtain ⟨hmem, rfl⟩ := session_some hs
      -- what a session has handed on is pending in every document the store may hold
      have hpend := (hb.sessions s hmem).pending p (by rw [hp]; rfl)
      have hpv : PendingIs s.runId p v := by
        rcases List.mem_cons.1 hv with rfl | hv
        · exact hpend.durable
        · exact hpend.unacked v hv
      exact hpv r.core (Version.core_find hr)

/-- The call of a run that places an order. -/
theorem dispatch_write_ahead_placed :
    let w := run (World.step Crates.sample) (World.init Crates.sample .default) (Sample.started ++ Sample.placed "10" "04")
    handedKeys w.trace = [(Sample.uuid "03", 1)] ∧
      ∀ post id p call pre, w.trace = post ++ .handed id p call :: pre →
        call.IsOf p ∧ ∃ d r, lastSaved pre = some d ∧ d.find id = some r ∧ r.pending = some p :=
  ⟨by decide +kernel, (dispatch_write_ahead Crates.sample .default (by decide +kernel)
    (Sample.started ++ Sample.placed "10" "04")).1⟩

end EasiFlux
