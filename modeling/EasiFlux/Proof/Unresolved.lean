import EasiFlux.Proof.Dispatch
import EasiFlux.Proof.Sections

/-!
# Unresolved actions block their account

A run that is not live and has a pending action waits for recovery, and while it does,
no run of its account and environment starts or dispatches.

* `Blocks`: the invariant on the shape of a world.
* `FinishSaves`: a run that still has a pending action does not finish at the last
  revision. There `save` returns before it marks anything, and the run leaves the live
  map as it is (`finish_unmarked`).
* `unresolved_block`: **every run that keeps to this keeps the invariant.**
-/

namespace EasiFlux

open Fixed Results World Steps

variable {K : Crates} {w : World}

/-! ## The invariant -/

/-- An unresolved run is marked for recovery. -/
def RunRecord.Marked (r : RunRecord) : Prop := r.pending.isSome = true → r.view.status = .recoveryRequired

/-- The pending actions of an account and environment in a document are of one run. -/
def Owns (id : String) (account : Account) (v : Version) : Prop :=
  ∀ id' c, v.core id' = some c → c.pending.isSome = true → c.view.account.accountId = account.accountId →
    c.view.account.environment = account.environment → id' = id

structure Blocks (σ : Shape) : Prop where
  marked : ∀ id r, σ.docs.memory.doc.find id = some r → (∀ s ∈ σ.live, s.runId ≠ id) → r.Marked
  /-- after a failed save also the live runs are -/
  failed : σ.unavailable = true → ∀ id r, σ.docs.memory.doc.find id = some r → r.Marked
  accounts : (σ.live.map (·.authority.account.accountId)).Nodup
  room : σ.live.length ≤ 4
  own : ∀ s ∈ σ.live, σ.docs.All (Owns s.runId s.authority.account)

theorem closed_owns (id : String) (account : Account) : Closed (Owns id account) := by
  intro v v' h ho id' c hc
  rw [← h.core] at hc
  exact ho id' c hc

/-! ## Saves -/

section Save

variable {next : Version} {i : SaveInput}

theorem observe_marked {wall : ℕ} {r : RunRecord} (h : r.Marked) : (w.observe wall r).Marked := by
  unfold RunRecord.Marked at *
  rw [observe_status, pending_of_core (core_observe w wall r)]
  exact h

theorem overlay_marked (r : RunRecord) : r.overlay.Marked := by
  intro h
  have hp : r.pending.isSome = true := h
  unfold RunRecord.overlay RunRecord.setStatus
  simp [hp]

/-- A save of a document whose runs are marked, live ones apart. -/
theorem Blocks.save (h : Blocks w.shape) (hm : ∀ id r, next.doc.find id = some r → w.isLive id = false → r.Marked)
    (ho : ∀ s ∈ w.shape.live, Owns s.runId s.authority.account next) : Blocks (w.save K next i).1.shape := by
  have hown : ∀ s ∈ w.shape.live, (w.save K next i).1.docs.All (Owns s.runId s.authority.account) :=
    fun s hs => (h.own s hs).save (closed_owns _ _) (ho s hs)
  rcases save_shape K w next i with ⟨-, he⟩ | ⟨hu, -, he⟩ | ⟨u, o, -, -, he⟩
  · rw [he]; exact h
  · have hd := congrArg Shape.docs he
    rw [he]
    refine ⟨fun id r hr hl => ?_, fun hf => ?_, h.accounts, h.room, fun s hs => ?_⟩
    · have hr' : (w.prepare next i.wall.toNat).doc.find id = some r := hr
      rw [find_prepare] at hr'
      obtain ⟨x, hx, rfl⟩ := Option.map_eq_some_iff.1 hr'
      exact observe_marked (hm id x hx (notLive_shape.2 hl))
    · exact absurd (hu.symm.trans hf) (by simp)
    · exact hd ▸ hown s hs
  · have hd := congrArg Shape.docs he
    rw [he]
    have hall : ∀ id r, (w.shape.failed (w.prepare next i.wall.toNat) u o).docs.memory.doc.find id = some r →
        r.Marked := by
      intro id r hr
      have hr' : ((w.prepare next i.wall.toNat).doc.mapRuns RunRecord.overlay).find id = some r := hr
      rw [find_overlay] at hr'
      obtain ⟨x, -, rfl⟩ := Option.map_eq_some_iff.1 hr'
      exact overlay_marked x
    exact ⟨fun id r hr _ => hall id r hr, fun _ => hall, h.accounts, h.room, fun s hs => hd ▸ hown s hs⟩

/-- A document with the cores of the one in memory. -/
theorem Blocks.save_same (h : Blocks w.shape)
    (hm : ∀ id r, next.doc.find id = some r → w.isLive id = false → r.Marked) (hn : Same next w.memory) :
    Blocks (w.save K next i).1.shape :=
  h.save hm fun s hs => closed_owns _ _ _ _ hn.symm (h.own s hs).memory

/-- Another record for one run. -/
theorem edit_marked (h : Blocks w.shape) {id : String} {r r' : RunRecord} (hs : w.state id = some r)
    (hid : r'.view.runId = r.view.runId) (hr : w.isLive id = false → r'.Marked) :
    ∀ id' x, (w.edit id r').doc.find id' = some x → w.isLive id' = false → x.Marked := by
  intro id' x hx hl
  have hid' : r'.view.runId = id := hid.trans (find_runId hs)
  by_cases he : id' = id
  · subst he
    have hx' : (w.memory.doc.put id' r').find id' = some x := hx
    rw [find_put_self hs hid'] at hx'
    cases hx'
    exact hr hl
  · have hx' : (w.memory.doc.put id r').find id' = some x := hx
    rw [find_put_ne hid' he] at hx'
    exact h.marked id' x hx' (notLive_shape.1 hl)

end Save

/-! ## Sections -/

theorem control_marked {r : RunRecord} {stop : Bool} : (r.control false stop).Marked := by
  intro h
  have hp : r.pending.isSome = true := by rwa [pending_of_core (core_control r false stop)] at h
  unfold RunRecord.control RunRecord.setStatus
  simp [hp]

theorem stopAll_marked {r : RunRecord} : (r.stopAll false).Marked := by
  intro h
  have hp : r.pending.isSome = true := by rwa [pending_of_core (core_stopAll r false)] at h
  unfold RunRecord.stopAll RunRecord.setStatus
  simp [hp]

theorem finish_marked {r : RunRecord} {intent : ℕ} : (r.finish intent).Marked := by
  intro h
  have hp : r.pending.isSome = true := by rwa [pending_of_core (core_finish r intent)] at h
  unfold RunRecord.finish RunRecord.setStatus
  simp [hp]

theorem restore_marked {r : RunRecord} : r.restore.Marked := by
  intro h
  have hp : r.pending.isSome = true := by rwa [pending_of_core (core_restore r)] at h
  unfold RunRecord.restore RunRecord.setStatus
  simp [hp]

/-- A response leaves an action pending only as it was. -/
theorem respond_keeps {r r' : RunRecord} {p : PendingAction} {x : AppResult StrategyMutationResponse}
    {order : Option Order} (h : respondRecord r p x = .ok (r', order)) :
    r'.pending.isSome = true → r'.pending = r.pending ∧ (r.Marked → r'.view.status = .recoveryRequired) := by
  simp only [respondRecord, bind_eq_ok, ensure_eq_ok, pure_eq_ok, Prod.mk.injEq] at h
  obtain ⟨-, hr, receipt, -, owned, -, rfl, -⟩ := h
  intro hp
  unfold RunRecord.receive at hp ⊢
  simp only at hp ⊢
  by_cases hs : receipt.status ≠ .unknown ∧ receipt.resolves = true
  · rw [if_pos hs] at hp; cases hp
  · rw [if_neg hs]
    refine ⟨rfl, fun hm => ?_⟩
    split_ifs
    · rfl
    · exact hm (by rw [hr]; rfl)

/-- A recovery leaves its run marked, or resolved. -/
theorem Recovers.marked {ρ : Recovery} {r r' : RunRecord} {m : RecoveryMove} (h : Recovers ρ r m r') (hr : r.Marked) :
    r'.Marked ∧ (r'.pending.isSome = true → r.pending.isSome = true) := by
  cases h with
  | respond result i response r' order move asking from_ record =>
    exact ⟨fun hp => (respond_keeps record hp).2 hr, fun hp => (respond_keeps record hp).1 ▸ hp⟩
  | clear order r' phase record =>
    simp only [clearRecord, bind_eq_ok, ensure_eq_ok, pure_eq_ok] at record
    obtain ⟨-, -, rfl⟩ := record
    exact ⟨by rintro ⟨⟩, by rintro ⟨⟩⟩
  | ackFailed order phase => exact ⟨fun _ => rfl, fun hp => hp⟩
  | pause resolved phase =>
    refine ⟨fun hp => ?_, fun hp => hp⟩
    have hp' : r.pending.isSome = true := hp
    rw [resolved] at hp'
    cases hp'

/-- What a section saves has its runs marked, and no new pending action of another
run's account. -/
theorem Section.blocks (hb : Base K w) (h : Blocks w.shape) {a : Act} {next : Version} (hn : Section K w a next) :
    (∀ id r, next.doc.find id = some r → w.isLive id = false → r.Marked) ∧
      ∀ s ∈ w.shape.live, Owns s.runId s.authority.account next := by
  have hsame : ∀ {next : Version}, Same next w.memory → ∀ s ∈ w.shape.live, Owns s.runId s.authority.account next :=
    fun hs s hm => closed_owns _ _ _ _ hs.symm (h.own s hm).memory
  cases hn with
  -- a worker's run is live, so it need not be marked:
  | worker id s m next ok err minted session saves =>
    obtain ⟨r, r', hr, hk, hnext⟩ := saves_edit saves
    obtain ⟨hlive, rfl⟩ := session_some session
    have hid : r'.view.runId = s.runId := hk.runId.trans (find_runId hr)
    refine ⟨?_, fun t ht id' c hc hp hac hen => ?_⟩
    · rw [hnext]
      refine edit_marked h hr hk.runId fun hl => ?_
      exact absurd rfl (isLive_eq_false.1 hl s hlive)
    · by_cases he : id' = s.runId
      · -- the account of the worker's run is that of its session
        subst he
        have hself : c = r'.core := by
          have : next.core s.runId = some r'.core := by
            rw [Version.core, hnext, find_put_self hr hid]; rfl
          exact Option.some.inj (hc.symm.trans this)
        obtain ⟨c₀, hc₀, hacc⟩ := (hb.sessions s hlive).known
        have hr₀ : c₀ = r.core := Option.some.inj (hc₀.symm.trans (Version.core_find hr))
        have hacc' : r'.view.account = s.authority.account := by
          rw [hk.account]
          rw [hr₀] at hacc
          exact hacc
        rw [hself] at hac
        have hac' : s.authority.account.accountId = t.authority.account.accountId := by
          rw [← hacc']; exact hac
        have := List.inj_on_of_nodup_map h.accounts (mem_shape_live hlive) ht hac'
        rw [← this]
        rfl
      · -- the other runs stay as they were:
        rw [Version.core, hnext, find_put_ne hid he] at hc
        exact (h.own t ht).memory id' c hc hp hac hen
  -- `finish` and the controls mark a run that is no longer live, and add no pending action:
  | finish id s i r session phase state =>
    exact ⟨edit_marked h state (runId_of_core (core_finish _ _)) fun _ => finish_marked,
      hsame (same_edit state (core_finish _ _))⟩
  | control id stop i r state =>
    refine ⟨edit_marked h state (runId_of_core (core_control _ _ _)) fun hl => ?_,
      hsame (same_edit state (core_control _ _ _))⟩
    rw [hl]
    exact control_marked
  | stopAll i =>
    refine ⟨fun id r hr hl => ?_, hsame (same_mapRuns _ fun r => core_stopAll r _)⟩
    have hr' := (find_mapRuns fun x => runId_of_core (core_stopAll x _)).symm.trans hr
    obtain ⟨x, hx, rfl⟩ := Option.map_eq_some_iff.1 hr'
    rw [find_runId hx, hl]
    exact stopAll_marked
  -- a run is started with nothing pending:
  | start t i r doc valid admitted =>
    have hst := admitted.starts
    refine ⟨fun id x hx hl => ?_, fun s hs id' c hc hp hac hen => ?_⟩
    · rcases hst.find hx with rfl | hx
      · intro hp; rw [hst.resolved] at hp; cases hp
      · exact h.marked id x hx (notLive_shape.1 hl)
    · by_cases he : id' = r.view.runId
      · rw [he, (hst.core hb).1] at hc
        cases hc
        have hp' : r.pending.isSome = true := hp
        rw [hst.resolved] at hp'; cases hp'
      · rw [(hst.core hb).2 _ he] at hc
        exact (h.own s hs).memory id' c hc hp hac hen
  -- a recovery keeps the mark until nothing is pending:
  | recover m ρ r r' recovery state recovers =>
    have hnot := isLive_eq_false.2 (hb.recovery ρ recovery)
    have hk := recovers.kept
    have hid : r'.view.runId = ρ.runId := hk.runId.trans (find_runId state)
    obtain ⟨hmark, hpend⟩ := recovers.marked (h.marked _ r state (notLive_shape.1 hnot))
    refine ⟨edit_marked h state hk.runId fun _ => hmark, fun s hs id' c hc hp hac hen => ?_⟩
    by_cases he : id' = ρ.runId
    · subst he
      have hself : (w.edit ρ.runId r').core ρ.runId = some r'.core := core_put_self state hid
      rw [hself] at hc
      cases hc
      have hacc : r'.core.view.account = r.core.view.account := hk.account
      rw [hacc] at hac hen
      exact (h.own s hs).memory _ r.core (Version.core_find state) (hpend hp) hac hen
    · have hne : (w.edit ρ.runId r').core id' = w.memory.core id' := core_put_ne hid he
      rw [hne] at hc
      exact (h.own s hs).memory id' c hc hp hac hen

/-! ## Starts and ends of runs -/

/-- A live run of the account blocks a start. -/
theorem Admitted.account_free {t : Ticket} {i : Start} {r : RunRecord} {doc : StrategyDocument} (hb : Base K w)
    (h : Admitted K w t i r doc) : ∀ s ∈ w.live, s.authority.account.accountId ≠ i.authority.account.accountId := by
  intro s hs he
  obtain ⟨c, hc, hacc⟩ := (hb.sessions s hs).known
  obtain ⟨x, hx, rfl⟩ := Version.core_eq_some.1 hc
  have hxa : x.view.account.accountId = i.authority.account.accountId := by
    have : x.view.account = s.authority.account := hacc
    rw [this, he]
  exact blocked_live h.blocked (mem_of_find hx) hxa s hs (find_runId hx).symm

/-- So does an unresolved one of the account and environment. -/
theorem blocked_pending {account : Account} (hb : w.blocked account = false) {x : RunRecord}
    (hx : x ∈ w.memory.doc.runs) (ha : x.view.account.accountId = account.accountId)
    (he : x.view.account.environment = account.environment) : ¬ x.pending.isSome = true := by
  unfold World.blocked at hb
  have := List.any_eq_false.1 hb x hx
  simp only [Bool.or_eq_true, Bool.and_eq_true, decide_eq_true_eq, not_or, not_and] at this
  exact fun hp => this.2 ⟨hp, ha⟩ he

theorem Blocks.start (hb : Base K w) (h : Blocks w.shape) {t : Ticket} {i : Start} {r : RunRecord}
    {doc : StrategyDocument} (hv : i.request.validate K = true) (had : Admitted K w t i r doc)
    (hok : (w.save K { w.memory with doc := doc } i.save).2 = true) :
    Blocks ((w.save K { w.memory with doc := doc } i.save).1.shape.add (w.newSession t i r)) := by
  obtain ⟨hm, ho⟩ := Section.blocks hb h (.start t i r doc hv had)
  have h₁ : Blocks (w.save K { w.memory with doc := doc } i.save).1.shape := h.save hm ho
  have hlive : (w.save K { w.memory with doc := doc } i.save).1.shape.live = w.shape.live := by
    rw [saved_shape hok]
    rfl
  have hnew : Owns r.view.runId i.authority.account { w.memory with doc := doc } := by
    intro id' c hc hp hac hen
    by_contra hne
    rw [(had.starts.core hb).2 _ hne] at hc
    obtain ⟨x, hx, rfl⟩ := Version.core_eq_some.1 hc
    exact blocked_pending had.blocked (mem_of_find hx) hac hen hp
  refine ⟨fun id x hx hl => h₁.marked id x hx fun s hs => hl s (List.mem_cons_of_mem _ hs), h₁.failed, ?_, ?_,
    fun s hs => ?_⟩
  · refine List.nodup_cons.2 ⟨fun hin => ?_, h₁.accounts⟩
    rw [hlive] at hin
    obtain ⟨s, hs, he⟩ := List.mem_map.1 hin
    obtain ⟨s₀, hs₀, rfl⟩ := List.mem_map.1 hs
    exact had.account_free hb s₀ hs₀ he
  · have hroom := had.room
    have hlen : ((w.save K { w.memory with doc := doc } i.save).1.shape.add (w.newSession t i r)).live.length =
        w.live.length + 1 := by
      simp only [Shape.add, List.length_cons, hlive]
      simp [World.shape]
    omega
  · rcases List.mem_cons.1 hs with rfl | hs
    · exact .saved (closed_owns _ _) hok hnew
    · exact h₁.own s hs

theorem Blocks.halt (hb : Base K w) (h : Blocks w.shape) {t : Ticket} {i : Start} {r r' : RunRecord}
    {doc : StrategyDocument} {w' : World} (hv : i.request.validate K = true) (had : Admitted K w t i r doc)
    (hok : (w.save K { w.memory with doc := doc } i.save).2 = true)
    (hsh : w'.shape = (w.save K { w.memory with doc := doc } i.save).1.shape)
    (hst : w'.state r.view.runId = some r') :
    Blocks (w'.save K (w'.edit r.view.runId (r'.setStatus .stopped (stopReason true))) i.second).1.shape := by
  obtain ⟨hm, ho⟩ := Section.blocks hb h (.start t i r doc hv had)
  have h₁ : Blocks w'.shape := hsh ▸ h.save hm ho
  -- the run that was saved has nothing pending
  have hcore : r'.core = r.core := by
    have hmem : w'.memory = w.prepare { w.memory with doc := doc } i.save.wall.toNat := by
      have := congrArg (·.docs.memory) (hsh.trans (saved_shape hok))
      exact this
    have hc : w'.memory.core r.view.runId = some r.core := by
      rw [hmem, (same_prepare _ _ _).core]
      exact (had.starts.core hb).1
    exact Option.some.inj ((Version.core_find hst).symm.trans hc)
  refine h₁.save_same (edit_marked h₁ hst rfl fun _ hp => ?_) (same_edit hst rfl)
  have hp' : r'.pending.isSome = true := hp
  rw [pending_of_core hcore, had.starts.resolved] at hp'
  cases hp'

/-- A run leaves the live map. -/
theorem Blocks.drop {σ : Shape} (h : Blocks σ) {id : String}
    (hm : ∀ r, σ.docs.memory.doc.find id = some r → r.Marked) : Blocks (σ.drop id) := by
  refine ⟨fun id' r hr hl => ?_, h.failed, h.accounts.sublist ((List.filter_sublist).map _),
    (List.length_filter_le _ _).trans h.room, fun s hs => h.own s (List.mem_of_mem_filter hs)⟩
  by_cases he : id' = id
  · subst he
    exact hm r hr
  · refine h.marked id' r hr fun s hs hid => ?_
    exact hl s (List.mem_filter.2 ⟨hs, by simpa [hid] using he⟩) hid

/-- The condition on a step: a run that is unresolved, and not marked yet, does not
finish at the last revision. -/
def FinishSaves (w : World) (a : Act) : Prop :=
  ∀ id i s r, a = .worker id (.finish i) → w.session id = some s → s.phase = .finishing → w.state id = some r →
    r.pending.isSome = true → r.view.status ≠ .recoveryRequired → w.unavailable = false →
    w.memory.doc.revision + 1 < 2 ^ 64

theorem Blocks.finish (hb : Base K w) (h : Blocks w.shape) {id : String} {s : Session} {i : SaveInput} {r : RunRecord}
    (hs : w.session id = some s) (hph : s.phase = .finishing) (hu : w.unavailable = false)
    (hr : w.state s.runId = some r) (hG : FinishSaves w (.worker id (.finish i))) :
    Blocks ((w.save K (w.edit s.runId (r.finish s.intent)) i).1.shape.drop s.runId) := by
  have hid : (r.finish s.intent).view.runId = s.runId := (runId_of_core (core_finish _ _)).trans (find_runId hr)
  obtain ⟨hm, ho⟩ := Section.blocks hb h (.finish id s i r hs hph hr)
  have h₁ : Blocks (w.save K (w.edit s.runId (r.finish s.intent)) i).1.shape := h.save hm ho
  refine h₁.drop fun x hx => ?_
  rcases save_shape K w (w.edit s.runId (r.finish s.intent)) i with ⟨hrev, he⟩ | ⟨-, -, he⟩ | ⟨_, _, -, -, he⟩
  · -- the save returned early, and the record is the old one
    rw [he] at hx
    have hx' : w.state s.runId = some x := hx
    rw [hr] at hx'
    cases hx'
    intro hp
    by_contra hne
    obtain ⟨-, rfl⟩ := session_some hs
    have := hG s.runId i s r rfl hs hph hr hp hne hu
    omega
  · rw [he] at hx
    have hx' : (w.prepare (w.edit s.runId (r.finish s.intent)) i.wall.toNat).doc.find s.runId = some x := hx
    rw [find_prepare] at hx'
    obtain ⟨y, hy, rfl⟩ := Option.map_eq_some_iff.1 hx'
    have hy' : (w.memory.doc.put s.runId (r.finish s.intent)).find s.runId = some y := hy
    rw [find_put_self hr hid] at hy'
    cases hy'
    exact observe_marked finish_marked
  · have hf : (w.save K (w.edit s.runId (r.finish s.intent)) i).1.shape.unavailable = true := by rw [he]; rfl
    exact h₁.failed hf _ x hx

theorem Blocks.restart (w : World) (pick : Option ℕ) : Blocks (w.restart K pick).shape := by
  have hall : ∀ id r, (w.restart K pick).memory.doc.find id = some r → r.Marked := by
    intro id r hr
    unfold World.restart World.boot at hr
    simp only at hr
    split at hr
    · have hr' := (find_mapRuns fun x => runId_of_core (core_restore x)).symm.trans hr
      obtain ⟨x, -, rfl⟩ := Option.map_eq_some_iff.1 hr'
      exact restore_marked
    · cases hr
  exact ⟨fun id r hr _ => hall id r hr, fun _ => hall, List.nodup_nil, Nat.zero_le _, (fun s hs => nomatch hs)⟩

/-! ## Every step and every run -/

/-- **One step keeps the invariant.** -/
theorem blocks_step (hb : Base K w) (h : Blocks w.shape) {a : Act} (hG : FinishSaves w a) :
    Blocks (w.step K a).shape := by
  have hr := step_shape hb a
  generalize (w.step K a).shape = σ at hr
  cases hr with
  | quiet => exact h
  | tick d => exact ⟨h.marked, h.failed, h.accounts, h.room, h.own⟩
  | save _ next i sec =>
    obtain ⟨hm, ho⟩ := Section.blocks hb h sec
    exact h.save hm ho
  | start t i r doc valid admitted saved => exact h.start hb valid admitted saved
  | halt t i r r' doc w' valid admitted saved shape state => exact h.halt hb valid admitted saved shape state
  | finish id s i r session phase available state => exact h.finish hb session phase available state hG
  | drop id s i session phase unavailable => exact h.drop (h.failed unavailable _)
  | restart pick => exact Blocks.restart w pick

theorem blocks_run {doc : StrategyDocument} (hdoc : doc.validate K = true) (acts : List Act)
    (hG : Along (World.step K) FinishSaves (World.init K doc) acts) :
    Base K (run (World.step K) (World.init K doc) acts) ∧ Blocks (run (World.step K) (World.init K doc) acts).shape :=
  run_inv_along (I := fun w => Base K w ∧ Blocks w.shape)
    (fun w a h hG => ⟨base_step w a h.1, blocks_step h.1 h.2 hG⟩) acts _
    ⟨base_init hdoc, Blocks.restart _ _⟩ hG

/-- A start of a blocked account only takes its ticket. -/
theorem start_blocked {i : Start} (h : w.blocked i.authority.account = true) :
    ∃ tickets, w.start K i = { w with tickets := tickets } := by
  unfold World.start
  split
  · split
    · exact ⟨w.tickets, rfl⟩
    · rename_i t _
      refine ⟨w.tickets.filter (·.1 ≠ i.request.authorizationToken), ?_⟩
      unfold World.startWith
      split
      · rfl
      · rename_i r doc hok
        have hfree : w.blocked i.authority.account = false := (admitStart_ok hok).blocked
        rw [h] at hfree
        cases hfree
  · exact ⟨w.tickets, rfl⟩

/-- **Unresolved actions block their account.** In every run that finishes no
unresolved run at the last revision, from any valid stored document:

* a run that is not live and has a pending action waits for recovery;
* there are at most four live runs, of different accounts;
* a start of an account and environment with a pending action changes nothing but the
  tickets;
* what a step hands to the host is of the only run of its account and environment
  that has a pending action, in memory and in the store. -/
theorem unresolved_block (K : Crates) (doc : StrategyDocument) (hdoc : doc.validate K = true) (acts : List Act)
    (hG : Along (World.step K) FinishSaves (World.init K doc) acts) :
    let w := run (World.step K) (World.init K doc) acts
    (∀ r ∈ w.memory.doc.runs, w.isLive r.view.runId = false → r.pending.isSome = true →
      r.view.status = .recoveryRequired) ∧
    (w.live.length ≤ 4 ∧ (w.live.map (·.authority.account.accountId)).Nodup ∧
      ∀ s ∈ w.live, ∃ r, w.state s.runId = some r ∧ r.view.account = s.authority.account) ∧
    (∀ i : Start, (∃ r ∈ w.memory.doc.runs, r.pending.isSome = true ∧
        r.view.account.accountId = i.authority.account.accountId ∧
        r.view.account.environment = i.authority.account.environment) →
      ∃ tickets, w.step K (.start i) = { w with tickets := tickets }) ∧
    ∀ a id p call, (w.step K a).trace = .handed id p call :: w.trace →
      ∃ s ∈ w.live, s.runId = id ∧ ∀ v ∈ w.memory :: w.durable :: w.unacked, ∀ r ∈ v.doc.runs,
        r.pending.isSome = true → r.view.account.accountId = s.authority.account.accountId →
        r.view.account.environment = s.authority.account.environment → r.view.runId = id := by
  intro w
  obtain ⟨hb, h⟩ := blocks_run hdoc acts hG
  refine ⟨fun r hr hl hp => ?_, ⟨?_, ?_, fun s hs => ?_⟩, fun i ⟨r, hr, hp, hac, hen⟩ => ?_,
    fun a id p call htr => ?_⟩
  · exact h.marked _ r (find_of_mem hb.ids.memory.1 hr) (notLive_shape.1 hl) hp
  · simpa [World.shape] using h.room
  · simpa [World.shape, Function.comp_def] using h.accounts
  · obtain ⟨c, hc, hacc⟩ := (hb.sessions s hs).known
    obtain ⟨r, hr, rfl⟩ := Version.core_eq_some.1 hc
    exact ⟨r, hr, hacc⟩
  · refine start_blocked (List.any_eq_true.2 ⟨r, hr, ?_⟩)
    simp [hp, hac, hen]
  · rcases step_handed K w a with hk | ⟨id', s, c, p', call', rfl, hs, hph, htr'⟩
    · rw [htr] at hk
      simp [handedKeys, Event.handedKey] at hk
    · rw [htr'] at htr
      obtain ⟨hmem, rfl⟩ := session_some hs
      cases htr
      refine ⟨s, hmem, rfl, fun v hv r hr hp hac hen => ?_⟩
      have hown := h.own _ (mem_shape_live hmem)
      -- every document has its runs under their ids
      have hfind : ∀ v : Version, IdsOk w.minted v → Owns s.runId s.authority.account v → r ∈ v.doc.runs →
          r.view.runId = s.runId :=
        fun v hi ho hr => ho _ _ (Version.core_find (find_of_mem hi.1 hr)) hp hac hen
      rcases List.mem_cons.1 hv with rfl | hv
      · exact hfind _ hb.ids.memory hown.memory hr
      · rcases List.mem_cons.1 hv with rfl | hv
        · exact hfind _ hb.ids.durable hown.durable hr
        · exact hfind v (hb.ids.unacked v hv) (hown.unacked v hv) hr

/-- A run that is stopped while the host has its call. -/
def Sample.abandoned : List Act :=
  Sample.started ++ Sample.placed "10" "04" ++
    [Sample.worker (.respond (.error (.connection "timeout")) Sample.saved), Sample.worker .settle]

/-- That run has finished and waits for recovery. -/
theorem unresolved_block_abandoned :
    let w := run (World.step Crates.sample) (World.init Crates.sample .default)
      (Sample.abandoned ++ [Sample.worker (.finish Sample.saved)])
    w.memory.doc.runs.map (fun r => (w.isLive r.view.runId, r.pending.isSome)) = [(false, true)] ∧
      ∀ r ∈ w.memory.doc.runs, w.isLive r.view.runId = false → r.pending.isSome = true →
        r.view.status = .recoveryRequired := by
  refine ⟨by decide +kernel, (unresolved_block Crates.sample .default (by decide +kernel) _ ?_).1⟩
  rw [along_append]
  refine ⟨along_of_forall (fun a ha w id i s r he => ?_) _, fun id i s r _ _ _ _ _ _ _ => ?_, trivial⟩
  · subst he
    simp [Sample.abandoned, Sample.started, Sample.placed, Sample.pass, Sample.access, Sample.start, Sample.worker] at ha
  · decide +kernel

/-- A store two saves before the last revision. -/
def Sample.late : StrategyDocument := { StrategyDocument.default with revision := 2 ^ 64 - 3 }

/-- There the run finishes with its action pending and stays `Running`: the saves of
the response, of the mark and of `finish` return before anything is marked. -/
theorem finish_unmarked :
    let w := run (World.step Crates.sample) (World.init Crates.sample Sample.late)
      (Sample.started ++ Sample.placed "10" "04" ++ [Sample.accepted "10" "04" "x" Sample.saved, Sample.worker .fail,
        Sample.worker (.mark Sample.saved), Sample.worker (.finish Sample.saved)])
    Sample.late.validate Crates.sample = true ∧
      ∃ r ∈ w.memory.doc.runs, w.isLive r.view.runId = false ∧ r.pending.isSome = true ∧ r.view.status = .running := by
  decide +kernel

end EasiFlux
