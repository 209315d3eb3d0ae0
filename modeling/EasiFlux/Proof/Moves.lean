import EasiFlux.Proof.Records

/-!
# What a worker can do

The inversion lemma of `World.move`, `move_spec`, from which everything later about
workers is derived. By the effect of a move it says:

* a step without a lock section (`Goes`) keeps the record the pass copied and the
  action that is pending;
* a lock section (`Saves`) saves one of six documents, and where the worker goes on;
* only a dispatch calls the host, and only a worker that is done finishes.
-/

namespace EasiFlux

open Fixed Results World

/-- The record a pass works on. -/
def Phase.copy : Phase → Option RunRecord
  | .copied record | .entered record => some record
  | .reading c | .computing c _ | .computed c _ _ | .gated c _ _ | .checked c _ _ | .refreshed c _ _
  | .validated c _ _ => some c.record
  | _ => none

/-- The action a pass made pending and has not accounted for. -/
def Phase.pending : Phase → Option PendingAction
  | .prepared _ p | .rejecting p _ | .dispatching _ p | .calling _ p _ | .acknowledging p _ _ => some p
  | _ => none

/-- The pending action, while the host may still get it. -/
def Phase.unsent : Phase → Option PendingAction
  | .prepared _ p | .dispatching _ p => some p
  | _ => none

/-- What is known of a guest's output and its action. -/
def Phase.Checked (K : Crates) : Phase → Prop
  | .computed _ _ output | .gated _ _ output | .checked _ _ output | .refreshed _ _ output => output.validate K = true
  | .validated c output action =>
    output.validate K = true ∧ ∃ snapshot, validateAction K c.record output.action snapshot = .ok action
  | .marking _ reason => reason ∈ reasons
  | _ => True

theorem unsent_pending {ph : Phase} {p : PendingAction} (h : ph.unsent = some p) : ph.pending = some p := by
  cases ph <;> simp_all [Phase.unsent, Phase.pending]

theorem failureCode_mem (e : AppError) : failureCode e ∈ reasons := by
  unfold failureCode
  split
  · split
    · assumption
    · decide +kernel
  · decide +kernel

variable {K : Crates} {w : World} {s : Session} {m : Move}

theorem clockCheck_mem {expires now : ℕ} {code : String} (h : w.clockCheck s expires now = some code) :
    code ∈ reasons := by
  unfold World.clockCheck at h
  split_ifs at h <;> cases h <;> decide +kernel

/-! ## Steps without a lock section -/

/-- What a step without a lock section does to its session. -/
structure Goes (K : Crates) (w : World) (s : Session) (ph : Phase) (lastWall : ℕ) : Prop where
  copy : ∀ r, ph.copy = some r → s.phase.copy = some r ∨ w.state s.runId = some r ∧ r.pending = none
  pending : ∀ p, ph.pending = some p → s.phase.pending = some p
  unsent : ∀ p, ph.unsent = some p → s.phase.unsent = some p
  checked : s.phase.Checked K → ph.Checked K
  notFinishing : s.phase ≠ .finishing
  wall : s.lastWall ≤ lastWall

/-- A step that keeps what the pass carries. -/
theorem Goes.keep {ph old : Phase} {lw : ℕ} (ho : s.phase = old) (hc : ph.copy = old.copy)
    (hp : ph.pending = old.pending) (hu : ph.unsent = old.unsent) (hk : old.Checked K → ph.Checked K)
    (hf : old ≠ .finishing) (hw : s.lastWall ≤ lw) : Goes K w s ph lw := by
  subst ho
  exact ⟨fun _ h => Or.inl (hc ▸ h), fun _ h => hp ▸ h, fun _ h => hu ▸ h, hk, hf, hw⟩

/-- A step to a phase that carries nothing. -/
theorem Goes.drop {ph : Phase} {lw : ℕ} (hc : ph.copy = none) (hp : ph.pending = none) (hu : ph.unsent = none)
    (hk : ph.Checked K) (hf : s.phase ≠ .finishing) (hw : s.lastWall ≤ lw) : Goes K w s ph lw := by
  refine ⟨fun r h => ?_, fun p h => ?_, fun p h => ?_, fun _ => hk, hf, hw⟩
  · rw [hc] at h; cases h
  · rw [hp] at h; cases h
  · rw [hu] at h; cases h

theorem Goes.failed (e : AppError) {lw : ℕ} (hf : s.phase ≠ .finishing) (hw : s.lastWall ≤ lw) :
    Goes K w s (.failed e) lw := .drop rfl rfl rfl trivial hf hw

/-! ## The documents a worker saves -/

/-- The record of a pass that makes no mutation. -/
def restRecord (r : RunRecord) (c : Reading) (output : StrategyOutput) (now : UInt64) (keep : Bool) : RunRecord :=
  let r := (r.advance (c.record.view.sequence + 1) now.toNat).rest output
  if keep then r else r.setStatus .completed none

/-- Where a response leaves the pass: an accepted placement is acknowledged next. -/
def Responded (p : PendingAction) (order : Option Order) (ok : Phase) : Prop :=
  (∃ o denied, order = some o ∧ ok = .acknowledging p o denied) ∨
    order = none ∧ ((∃ denied, ok = .returning denied) ∨ ∃ e, ok = .failed e)

/-- The response comes from the host, or the pass was refused and makes it itself. -/
def RespondsTo (s : Session) (m : Move) (p : PendingAction) (response : AppResult StrategyMutationResponse) : Prop :=
  (∃ c denied i, s.phase = .calling c p denied ∧ m = .respond response i) ∨
    ∃ failure, s.phase = .rejecting p failure ∧
      response = .error (.orderSubmissionRejected "local admission revoked")

/-- **The lock sections of a worker**: the document to save, where the worker goes on
when it is saved and when not, and the uuids made. -/
inductive Saves (K : Crates) (w : World) (s : Session) (m : Move) : Version → Phase → Phase → List String → Prop
  | rest (c : Reading) (output : StrategyOutput) (r : RunRecord) (now : UInt64) (keep : Bool)
      (phase : s.phase = .validated c output (if keep then .none else .stop)) (base : w.commitBase s c = .ok r) :
      Saves K w s m (w.edit s.runId (restRecord r c output now keep)) (if keep then .resting else .finishing)
        (.failed storageUnavailable) []
  | pending (c : Reading) (output : StrategyOutput) (action : StrategyAction) (r r' : RunRecord) (now : UInt64)
      (id : String) (i : SaveInput) (move : m = .commit now i id) (phase : s.phase = .validated c output action)
      (base : w.commitBase s c = .ok r) (mutation : action ≠ .none ∧ action ≠ .stop)
      (fresh : action.isPlacement = true → w.freshId K id = true)
      (commit : commitMutation K (r.advance (c.record.view.sequence + 1) now.toNat) action
        (pendingOf action output (c.record.view.sequence + 1) id) = .ok r') :
      Saves K w s m
        { w.edit s.runId r' with
          made := (s.runId, pendingOf action output (c.record.view.sequence + 1) id) :: w.memory.made }
        (.prepared c (pendingOf action output (c.record.view.sequence + 1) id)) (.failed storageUnavailable)
        (pendingOf action output (c.record.view.sequence + 1) id).submissionId.toList
  | respond (p : PendingAction) (response : AppResult StrategyMutationResponse) (r r' : RunRecord)
      (order : Option Order) (ok : Phase) (from_ : RespondsTo s m p response) (state : w.state s.runId = some r)
      (record : respondRecord r p response = .ok (r', order)) (next : Responded p order ok) :
      Saves K w s m (w.edit s.runId r') ok (.failed storageUnavailable) []
  | clear (p : PendingAction) (o : Order) (denied : Option AppError) (r r' : RunRecord)
      (phase : s.phase = .acknowledging p o denied) (state : w.state s.runId = some r)
      (record : clearRecord r p = .ok r') :
      Saves K w s m (w.edit s.runId r') (.returning denied) (.failed storageUnavailable) []
  | ackFailed (p : PendingAction) (o : Order) (denied : Option AppError) (r : RunRecord)
      (phase : s.phase = .acknowledging p o denied) (state : w.state s.runId = some r) :
      Saves K w s m (w.edit s.runId (r.setStatus .recoveryRequired (some "plugin_strategy_ack_failed")))
        (.returning denied) (.returning denied) []
  | mark (status : StrategyStatus) (reason : String) (r : RunRecord) (i : SaveInput) (move : m = .mark i)
      (phase : s.phase = .marking status reason) (state : w.state s.runId = some r) :
      Saves K w s m (w.edit s.runId (r.setStatus status (some reason))) .finishing .finishing []

/-! ## The effects of a move -/

def EffectSpec (K : Crates) (w : World) (s : Session) (m : Move) : Effect → Prop
  | .none => True
  | .go ph lastWall => Goes K w s ph lastWall
  | .save next _ ok err minted => Saves K w s m next ok err minted
  | .hand p call ph => m = .hand ∧ ∃ c, s.phase = .dispatching c p ∧
      hostCall s.authority.account c.record p = .ok call ∧ ph = .calling c p none
  | .finish i => s.phase = .finishing ∧ m = .finish i

theorem spec_orFail {α : Type} {x : AppResult α} {next : α → Phase} (hf : s.phase ≠ .finishing)
    (h : ∀ a, x = .ok a → Goes K w s (next a) s.lastWall) : EffectSpec K w s m (orFail s x next) := by
  unfold orFail
  cases x with
  | ok a => exact h a rfl
  | error e => exact Goes.failed e hf le_rfl

theorem spec_afterCheck {x : AppResult Unit} {now : UInt64} {next : Phase} {otherwise : AppError → Phase}
    (h : Goes K w s next (max s.lastWall now.toNat))
    (ho : ∀ e, Goes K w s (otherwise e) (max s.lastWall now.toNat)) :
    EffectSpec K w s m (afterCheck s x now next otherwise) := by
  unfold afterCheck
  cases x with
  | ok a => exact h
  | error e => exact ho e

theorem spec_turn {now : UInt64} (hp : s.phase = .loop) : EffectSpec K w s m (w.turn s now) := by
  have hf : s.phase ≠ .finishing := by rw [hp]; simp
  have hfin : Goes K w s .finishing s.lastWall := .drop rfl rfl rfl trivial hf le_rfl
  unfold World.turn
  split
  · exact hfin
  · cases w.state s.runId with
    | none => exact hfin
    | some r =>
      simp only
      cases hc : w.clockCheck s r.view.expiresAtMs now.toNat with
      | none => exact Goes.drop rfl rfl rfl trivial hf (le_max_left _ _)
      | some code => exact Goes.drop rfl rfl rfl (clockCheck_mem hc) hf (le_max_left _ _)

theorem spec_respond {p : PendingAction} {response : AppResult StrategyMutationResponse} {i : SaveInput}
    {ack : Order → Phase} {done : Phase} (hm : RespondsTo s m p response)
    (hack : ∀ o, ∃ denied, ack o = .acknowledging p o denied)
    (hdone : (∃ denied, done = .returning denied) ∨ ∃ e, done = .failed e) :
    EffectSpec K w s m (w.respond s p response i ack done) := by
  have hf : s.phase ≠ .finishing := by
    rcases hm with ⟨c, d, i, hp, -⟩ | ⟨f, hp, -⟩ <;> rw [hp] <;> simp
  unfold World.respond
  cases hs : w.state s.runId with
  | none => exact Goes.failed _ hf le_rfl
  | some r =>
    simp only
    cases hr : respondRecord r p response with
    | error e => exact Goes.failed e hf le_rfl
    | ok x =>
      obtain ⟨r', order⟩ := x
      refine Saves.respond p response r r' order _ hm hs hr ?_
      cases order with
      | none => exact Or.inr ⟨rfl, hdone⟩
      | some o =>
        obtain ⟨denied, ho⟩ := hack o
        exact Or.inl ⟨o, denied, rfl, ho⟩

theorem spec_acknowledge {p : PendingAction} {o : Order} {denied : Option AppError} {ok : Bool} {i : SaveInput}
    (hp : s.phase = .acknowledging p o denied) : EffectSpec K w s m (w.acknowledge s p denied ok i) := by
  have hf : s.phase ≠ .finishing := by rw [hp]; simp
  unfold World.acknowledge
  cases hs : w.state s.runId with
  | none => exact Goes.failed _ hf le_rfl
  | some r =>
    simp only
    split
    · cases hr : clearRecord r p with
      | error e => exact Goes.failed e hf le_rfl
      | ok r' => exact Saves.clear p o denied r r' hp hs hr
    · exact Saves.ackFailed p o denied r hp hs

theorem spec_commitRest (keep : Bool) {c : Reading} {output : StrategyOutput} {r : RunRecord} {now : UInt64}
    {i : SaveInput} (hp : s.phase = .validated c output (if keep then .none else .stop))
    (hb : w.commitBase s c = .ok r) :
    EffectSpec K w s m
      (w.commitRest s (r.advance (c.record.view.sequence + 1) now.toNat) output i keep) :=
  Saves.rest c output r now keep hp hb

theorem spec_commitPending {c : Reading} {output : StrategyOutput} {action : StrategyAction} {r : RunRecord}
    {now : UInt64} {i : SaveInput} {id : String} (hm : m = .commit now i id)
    (hp : s.phase = .validated c output action) (hb : w.commitBase s c = .ok r)
    (ha : action ≠ .none ∧ action ≠ .stop) :
    EffectSpec K w s m
      (if action.isPlacement ∧ !w.freshId K id then .none
      else w.commitPending K s (r.advance (c.record.view.sequence + 1) now.toNat) c action
        (pendingOf action output (c.record.view.sequence + 1) id) i) := by
  split
  · trivial
  · rename_i hfresh
    unfold World.commitPending
    cases hc : commitMutation K (r.advance (c.record.view.sequence + 1) now.toNat) action
        (pendingOf action output (c.record.view.sequence + 1) id) with
    | error e => exact Goes.failed e (by rw [hp]; simp) le_rfl
    | ok r' =>
      refine Saves.pending c output action r r' now id i hm hp hb ha (fun hpl => ?_) hc
      simpa [hpl] using hfresh

theorem spec_commit {c : Reading} {output : StrategyOutput} {action : StrategyAction} {now : UInt64} {i : SaveInput}
    {id : String} (hm : m = .commit now i id) (hp : s.phase = .validated c output action) :
    EffectSpec K w s m (w.commit K s c output action now i id) := by
  unfold World.commit
  cases hb : w.commitBase s c with
  | error e => exact Goes.failed e (by rw [hp]; simp) le_rfl
  | ok r =>
    simp only
    cases action with
    | none => exact spec_commitRest true hp hb
    | stop => exact spec_commitRest false hp hb
    | placeOrder _ => exact spec_commitPending hm hp hb (by simp)
    | cancelOrder _ => exact spec_commitPending hm hp hb (by simp)
    | amendOrder _ => exact spec_commitPending hm hp hb (by simp)
    | placeProtectedOrder _ _ => exact spec_commitPending hm hp hb (by simp)

theorem spec_settle {denied : Option AppError} (hp : s.phase = .returning denied) :
    EffectSpec K w s m (w.settle s denied) := by
  have hf : s.phase ≠ .finishing := by rw [hp]; simp
  unfold World.settle
  split
  · exact Goes.failed _ hf le_rfl
  · exact Goes.failed _ hf le_rfl
  · unfold onto
    split
    · exact Goes.drop rfl rfl rfl trivial hf le_rfl
    · exact Goes.drop rfl rfl rfl trivial hf le_rfl

theorem spec_failPass {failure : AppError} (hf : s.phase ≠ .finishing) : EffectSpec K w s m (failPass s failure) := by
  unfold failPass
  split
  · exact Goes.drop rfl rfl rfl trivial hf le_rfl
  · split
    · exact Goes.drop rfl rfl rfl trivial hf le_rfl
    · exact Goes.drop rfl rfl rfl (failureCode_mem failure) hf le_rfl

theorem spec_markRun {status : StrategyStatus} {reason : String} {i : SaveInput} (hm : m = .mark i)
    (hp : s.phase = .marking status reason) : EffectSpec K w s m (w.markRun s status reason i) := by
  unfold World.markRun
  cases hs : w.state s.runId with
  | none => exact Goes.drop rfl rfl rfl trivial (by rw [hp]; simp) le_rfl
  | some r => exact Saves.mark status reason r i hm hp hs

theorem spec_wake {completed wall : ℕ} {now : UInt64} (hf : s.phase ≠ .finishing) :
    EffectSpec K w s m (w.wake s completed wall now) := by
  have stale : "plugin_strategy_stale" ∈ reasons := by decide +kernel
  unfold World.wake
  simp only
  split_ifs
  · exact Goes.drop rfl rfl rfl trivial hf le_rfl
  · trivial
  · exact Goes.drop rfl rfl rfl stale hf le_rfl
  · exact Goes.drop rfl rfl rfl trivial hf le_rfl

theorem spec_hand {c : Reading} {p : PendingAction} (hp : s.phase = .dispatching c p) :
    EffectSpec K w s .hand (match hostCall s.authority.account c.record p with
      | .error e => onto s (.failed e)
      | .ok call => .hand p call (.calling c p none)) := by
  cases hc : hostCall s.authority.account c.record p with
  | error e => exact Goes.failed e (by rw [hp]; simp) le_rfl
  | ok call => exact ⟨rfl, c, hp, hc, rfl⟩

/-- **What a move does**, by its effect. -/
theorem move_spec (K : Crates) (w : World) (s : Session) (m : Move) : EffectSpec K w s m (w.move K s m) := by
  unfold World.move
  split <;> rename_i hp
  · exact spec_turn hp
  · -- the record is copied while nothing is pending
    refine spec_orFail (by rw [hp]; simp) fun r hr => ?_
    simp only [World.copyRecord, bind_eq_ok, okOr_eq_ok, ensure_eq_ok, pure_eq_ok] at hr
    obtain ⟨r', hs, -, hn, rfl⟩ := hr
    refine ⟨fun x hx => Or.inr ?_, by rintro _ ⟨⟩, by rintro _ ⟨⟩, fun _ => trivial,
      by rw [hp]; simp, le_rfl⟩
    cases hx
    exact ⟨hs, by simpa using hn⟩
  · -- `enter`:
    split
    · exact Goes.keep hp rfl rfl rfl (fun _ => trivial) (by simp) le_rfl
    · exact Goes.failed _ (by rw [hp]; simp) le_rfl
  · -- `bind` and `snapshot` add nothing:
    exact spec_orFail (by rw [hp]; simp) fun _ _ =>
      .keep hp rfl rfl rfl (fun _ => trivial) (by simp) le_rfl
  · exact spec_orFail (by rw [hp]; simp) fun _ _ =>
      .keep hp rfl rfl rfl (fun _ => trivial) (by simp) le_rfl
  · -- `compute`: the output that is accepted has passed its check
    refine spec_orFail (by rw [hp]; simp) fun output ho =>
      .keep hp rfl rfl rfl (fun _ => ?_) (by simp) le_rfl
    simp only [World.acceptOutput, bind_eq_ok, ensure_eq_ok, pure_eq_ok] at ho
    obtain ⟨o, -, -, hv, -, -, rfl⟩ := ho
    exact hv
  · -- `gate`:
    split_ifs
    · exact Goes.failed _ (by rw [hp]; simp) le_rfl
    · exact Goes.keep hp rfl rfl rfl id (by simp) le_rfl
    · trivial
  · exact spec_afterCheck
      (.keep hp rfl rfl rfl id (by simp) (le_max_left _ _)) fun e => .failed e (by rw [hp]; simp) (le_max_left _ _)
  · split
    · exact spec_orFail (by rw [hp]; simp) fun _ _ =>
        .keep hp rfl rfl rfl id (by simp) le_rfl
    · exact Goes.keep hp rfl rfl rfl id (by simp) le_rfl
  · -- the second check: the action is validated against the snapshot
    rename_i c snapshot output binding clock
    cases hv : validateAction K c.record output.action snapshot with
    | ok action =>
      exact spec_afterCheck
        (.keep hp rfl rfl rfl (fun h => ⟨h, snapshot, hv⟩) (by simp) (le_max_left _ _))
        fun e => .failed e (by rw [hp]; simp) (le_max_left _ _)
    | error e =>
      exact spec_afterCheck (.failed e (by rw [hp]; simp) (le_max_left _ _))
        fun e => .failed e (by rw [hp]; simp) (le_max_left _ _)
  · -- `commit` makes the action pending:
    exact spec_commit rfl hp
  · exact spec_afterCheck
      (.keep hp rfl rfl rfl (fun _ => trivial) (by simp)
        (le_max_left _ _))
      fun e => ⟨by rintro _ ⟨⟩, (fun _ h => by rw [hp]; exact h), by rintro _ ⟨⟩, fun _ => trivial,
        by rw [hp]; simp, le_max_left _ _⟩
  · -- a rejection and an answer are responses both:
    rename_i p failure i
    exact spec_respond (Or.inr ⟨failure, hp, rfl⟩) (fun o => ⟨_, rfl⟩) (Or.inr ⟨failure, rfl⟩)
  · -- only this one calls the host:
    exact spec_hand hp
  · exact spec_afterCheck
      (.keep hp rfl rfl rfl (fun _ => trivial) (by simp) (le_max_left _ _))
      fun e => .keep hp rfl rfl rfl (fun _ => trivial) (by simp)
        (le_max_left _ _)
  · rename_i c p denied response i
    exact spec_respond (Or.inl ⟨c, denied, i, hp, rfl⟩) (fun o => ⟨_, rfl⟩) (Or.inl ⟨denied, rfl⟩)
  · exact spec_acknowledge hp
  · exact spec_settle hp
  · -- the end of a pass and of the run:
    exact spec_failPass (by rw [hp]; simp)
  · exact spec_markRun rfl hp
  · exact Goes.drop rfl rfl rfl trivial (by rw [hp]; simp) le_rfl
  · exact spec_wake (by rw [hp]; simp)
  · exact ⟨hp, rfl⟩
  · trivial
  · trivial
  · -- a panic marks the run:
    have hm : "plugin_strategy_unavailable" ∈ reasons := by decide +kernel
    exact Goes.drop rfl rfl rfl hm hp le_rfl
  · trivial

end EasiFlux
