import Mathlib.Tactic.DeriveCountable
import EasiFlux.Lib.Steps
import EasiFlux.Proof.View

/-!
# Orders are sent once and settle once

A record only advances (`Advance`), and a view only moves forward
(`View.Le`): from nothing to a record or a refused file, and never back to
nothing. `Call.run_ok` is the simulation: a call on any files, under any
faults, moves the view of one hash forward, and calls the submit closure only
when that view was of nothing and no unresolved record stood in the way
(`CallStep`). The three results are inductions over the calls of a run:

* `submit_at_most_once`: at most one submission per id, recorded before it is sent.
* `unresolved_exclusive`: at most one unresolved record that opens, and one that reduces.
* `outcome_absorbing`: what `get` returns for an id only advances.
-/

namespace EasiFlux

open CrashIo Results OrderSubmissionStore Steps

/-- A record on its way: the identity stays, a settled outcome stays, and only an
accepted record becomes acknowledged. -/
structure Advance (r r' : StoredSubmission) : Prop where
  scope : r'.scope = r.scope
  orderLinkId : r'.orderLinkId = r.orderLinkId
  request : r'.request = r.request
  createdAtMs : r'.createdAtMs = r.createdAtMs
  outcome : r'.outcome = r.outcome ∨ r.outcome = .pending
  acknowledged : r'.acknowledged = r.acknowledged ∨
    r.acknowledged = false ∧ r'.acknowledged = true ∧ ∃ order, r'.outcome = .accepted order

theorem Advance.refl (r : StoredSubmission) : Advance r r := ⟨rfl, rfl, rfl, rfl, Or.inl rfl, Or.inl rfl⟩

theorem Advance.trans {r₁ r₂ r₃ : StoredSubmission} (h : Advance r₁ r₂) (h' : Advance r₂ r₃) : Advance r₁ r₃ where
  scope := h'.scope.trans h.scope
  orderLinkId := h'.orderLinkId.trans h.orderLinkId
  request := h'.request.trans h.request
  createdAtMs := h'.createdAtMs.trans h.createdAtMs
  outcome := by
    rcases h.outcome with ho | ho
    · rw [← ho]; exact h'.outcome
    · exact Or.inr ho
  acknowledged := by
    rcases h.acknowledged with ha | ⟨ha, hb, order, ho⟩
    · rw [← ha]; exact h'.acknowledged
    · -- acknowledged in between: it was accepted, and stays both
      have ho' : r₃.outcome = .accepted order := by
        rcases h'.outcome with h3 | h3
        · rw [h3, ho]
        · rw [ho] at h3; cases h3
      rcases h'.acknowledged with h3 | ⟨h3, -, -⟩
      · exact Or.inr ⟨ha, h3.trans hb, order, ho'⟩
      · rw [hb] at h3; cases h3

/-- Nothing unresolved comes from a resolved record. -/
theorem Advance.unresolved {r r' : StoredSubmission} (h : Advance r r') (hu : r'.unresolved = true) :
    r.unresolved = true := by
  unfold StoredSubmission.unresolved at hu ⊢
  rcases h.outcome with ho | ho
  · rw [ho] at hu
    cases hr : r.outcome with
    | pending => rfl
    | rejected => rw [hr] at hu; exact hu
    | accepted order =>
      rw [hr] at hu
      rcases h.acknowledged with ha | ⟨ha, -, -⟩
      · rw [← ha]; exact hu
      · simp [ha]
  · rw [ho]

/-- Views move forward. -/
def View.Le : View → View → Prop
  | .absent, _ => True
  | .broken, v => v = .broken
  | .readable _, .absent => False
  | .readable _, .broken => True
  | .readable r, .readable r' => Advance r r'

theorem View.Le.refl (v : View) : v.Le v := by
  cases v with
  | absent => trivial
  | broken => rfl
  | readable r => exact Advance.refl r

theorem View.Le.trans {u v w : View} (h : u.Le v) (h' : v.Le w) : u.Le w := by
  cases u with
  | absent => trivial
  | broken => cases h; exact h'
  | readable r =>
    cases v with
    | absent => exact h.elim
    | broken => cases h'; trivial
    | readable r' =>
      cases w with
      | absent => exact h'.elim
      | broken => trivial
      | readable r'' => exact Advance.trans h h'

theorem View.Le.ne_absent {u v : View} (h : u.Le v) (hu : u ≠ .absent) : v ≠ .absent := by
  rintro rfl
  cases u with
  | absent => exact hu rfl
  | broken => cases h
  | readable r => exact h

section

variable (K : Crates) (C : RecordCodec) (scope : String)

/-- `hash` is the only one a call touched, it had a view before if it has one now,
and nothing was submitted. -/
structure Kept (hash : String) (m m' : JournalDir) : Prop where
  only : Only hash m m'
  le : (view K C scope m hash).Le (view K C scope m' hash)
  absent : view K C scope m hash = .absent → view K C scope m' hash = .absent

/-- Every file reads back, and nothing unresolved stands in the way of `request`. -/
def Clear (m : JournalDir) (request : PlaceOrderRequest) : Prop :=
  ∀ hash, view K C scope m hash ≠ .broken ∧ ∀ r, view K C scope m hash = .readable r → r.unresolved →
    request.reduceOnly = some true ∧ r.request.reduceOnly ≠ some true

/-- A record for `request` was begun in the files of `hash`, which had none; it was
submitted, if at all, with its main file in place. -/
structure Opened (hash : String) (request : PlaceOrderRequest) (m m' : JournalDir) : Prop where
  id : ∃ id, request.orderLinkId = some id ∧ hash = K.identityHash id
  absent : view K C scope m hash = .absent
  clear : Clear K C scope m request
  other : ∀ n, (∀ s, n ≠ .record hash s) → m'.get n = m.get n
  record : ∀ r, view K C scope m' hash = .readable r → r.request = request
  log : m'.log = m.log ∨ ∃ files, m'.log = m.log ++ [⟨request, files⟩] ∧ view K C scope m' hash ≠ .absent ∧
    ((⟨files, []⟩ : JournalDir).get (.record hash .main)).isSome ∧ Only hash ⟨m.disk, []⟩ ⟨files, []⟩ ∧
    ∀ r, view K C scope ⟨files, []⟩ hash = .readable r → r.request = request

/-- What a submission of `request` does to the journal. -/
def SubmitStep (request : PlaceOrderRequest) (m m' : JournalDir) : Prop :=
  ∃ hash, Kept K C scope hash m m' ∨ Opened K C scope hash request m m'

/-- What a call does to the journal. -/
def CallStep (m m' : JournalDir) : Prop :=
  ∃ hash, Kept K C scope hash m m' ∨ ∃ request, Opened K C scope hash request m m'

end

variable {K : Crates} {C : RecordCodec} {scope : String} {m m' : JournalDir}

theorem Kept.refl (hash : String) (m : JournalDir) : Kept K C scope hash m m := ⟨.rfl, .refl _, id⟩

theorem Kept.trans {hash : String} {m₁ m₂ m₃ : JournalDir} (h : Kept K C scope hash m₁ m₂)
    (h' : Kept K C scope hash m₂ m₃) : Kept K C scope hash m₁ m₃ :=
  ⟨h.only.trans h'.only, h.le.trans h'.le, fun ha => h'.absent (h.absent ha)⟩

/-- A record may be written over by one it advances to. -/
theorem Kept.of_written {hash : String} {r r' : StoredSubmission} (hv : view K C scope m hash = .readable r)
    (ha : Advance r r') (h : Written K C scope m hash r' m') : Kept K C scope hash m m' := by
  refine ⟨h.only, ?_, fun hn => by rw [hv] at hn; cases hn⟩
  rcases h.view with he | he | he
  · rw [he]; exact .refl _
  · rw [hv, he]; trivial
  · rw [hv, he]; exact ha

/-- `c` keeps the journal but for records of `id` that advance, whatever it ends in. -/
def Keeps {α : Type} (K : Crates) (C : RecordCodec) (scope id : String) (m : JournalDir) (c : Journal α) : Prop :=
  wp c (fun _ => Kept K C scope (K.identityHash id) m) (fun _ => Kept K C scope (K.identityHash id) m)
    (Kept K C scope (K.identityHash id) m) m

section Keeps

variable {α β : Type} {id : String}

theorem Keeps.pure (a : α) : Keeps K C scope id m (pure a : Journal α) := wp_pure.2 (.refl _ _)

theorem Keeps.throw (e : AppError) : Keeps K C scope id m (Io.throw e : Journal α) := wp_throw.2 (.refl _ _)

theorem Keeps.lift_bind {r : AppResult α} {f : α → Journal β} (h : ∀ a, r = .ok a → Keeps K C scope id m (f a)) :
    Keeps K C scope id m (Io.lift r >>= f) :=
  wp_bind (wp_lift h (fun _ _ => .refl _ _))

theorem Keeps.get_bind {f : Option StoredSubmission → Journal β}
    (h : ∀ x, Reads K C scope m (K.identityHash id) (some id) x → Keeps K C scope id m (f x)) :
    Keeps K C scope id m (get K C scope id >>= f) := by
  refine wp_bind (wp_mono wp_get ?_ (fun _ m' h => h ▸ .refl _ _) (fun m' h => h ▸ .refl _ _))
  rintro x m' ⟨rfl, hx⟩
  exact h x hx

theorem Keeps.orUnavailable {c : Journal α} (h : Keeps K C scope id m c) : Keeps K C scope id m (orUnavailable c) :=
  wp_mapErr.2 h

theorem Keeps.get_bind' {f : Option StoredSubmission → Journal β}
    (h : ∀ x, Reads K C scope m (K.identityHash id) (some id) x → Keeps K C scope id m (f x)) :
    Keeps K C scope id m (EasiFlux.orUnavailable (get K C scope id) >>= f) := by
  refine wp_bind (wp_mapErr.2 (wp_mono wp_get ?_ (fun _ m' h => h ▸ .refl _ _) (fun m' h => h ▸ .refl _ _)))
  rintro x m' ⟨rfl, hx⟩
  exact h x hx

theorem Keeps.ignore {c : Journal α} (h : Keeps K C scope id m c) : Keeps K C scope id m (Io.ignore c) :=
  wp_ignore.2 h

/-- What is done after a call that keeps the journal may go on from there. -/
theorem Keeps.bind {c : Journal α} {f : α → Journal β} (h : Keeps K C scope id m c)
    (hf : ∀ a m', Keeps K C scope id m' (f a)) : Keeps K C scope id m (c >>= f) := by
  refine wp_bind (wp_mono h (fun a m' hk => ?_) (fun _ _ h => h) (fun _ h => h))
  exact wp_mono (hf a m') (fun _ _ h => hk.trans h) (fun _ _ h => hk.trans h) (fun _ h => hk.trans h)

/-- An outcome is written only over a pending one. -/
theorem Keeps.finish {outcome : SubmissionOutcome}
    (h : ∀ r, view K C scope m (K.identityHash id) = .readable r → r.outcome = .pending) :
    Keeps K C scope id m (finish K C scope id outcome) := by
  refine wp_finish (.refl _ _) fun r hr _ m' hw => .of_written hr ?_ hw
  exact ⟨rfl, rfl, rfl, rfl, Or.inr (h r hr), Or.inl rfl⟩

theorem Keeps.acknowledge : Keeps K C scope id m (acknowledge K C scope id) := by
  refine wp_acknowledge (.refl _ _) fun r order hr ho ha m' hw => .of_written hr ?_ hw
  exact ⟨rfl, rfl, rfl, rfl, Or.inl rfl, Or.inr ⟨ha, rfl, order, ho⟩⟩

theorem Reads.finish {r : StoredSubmission} (h : Reads K C scope m (K.identityHash id) (some id) (some r))
    (hp : r.outcome = .pending) {outcome : SubmissionOutcome} :
    Keeps K C scope id m (finish K C scope id outcome) := by
  refine .finish fun r' hr' => ?_
  rw [h.1] at hr'; cases hr'; exact hp

/-! ## The calls that recover -/

theorem Keeps.reconcile (query : AppResult (List Order)) : Keeps K C scope id m (reconcile K C scope id query) := by
  refine .get_bind fun x hx => ?_
  cases x with
  | none => exact .pure _
  | some r =>
    dsimp only
    cases ho : r.outcome with
    | accepted order => exact .pure _
    | rejected => exact .throw _
    | pending =>
      refine .lift_bind fun orders _ => ?_
      split
      · exact .pure _
      · exact .bind (hx.finish ho) fun _ _ => .pure _

theorem Keeps.acceptedOrder {expected : Order} {r : StoredSubmission} {query : AppResult (Option Order)}
    (hr : Reads K C scope m (K.identityHash id) (some id) (some r)) :
    Keeps K C scope id m (acceptedOrder K C scope id expected r query) := by
  unfold EasiFlux.acceptedOrder
  cases ho : r.outcome with
  | accepted order => exact .pure _
  | rejected => exact .throw _
  | pending =>
    refine .lift_bind fun found _ => .lift_bind fun order _ => .lift_bind fun _ _ => ?_
    exact .bind (.orUnavailable (hr.finish ho)) fun _ _ => .pure _

theorem Keeps.acknowledgeExpected {expected : Order} {request : PlaceOrderRequest} {r : StoredSubmission}
    {query : AppResult (Option Order)} (hr : Reads K C scope m (K.identityHash id) (some id) (some r)) :
    Keeps K C scope id m (acknowledgeExpected K C scope id expected request r query) :=
  .bind (.acceptedOrder hr) fun _ _ => .lift_bind fun _ _ => .lift_bind fun _ _ => .orUnavailable .acknowledge

theorem Keeps.strategyAcknowledge {current : String} {expected : Order} {proposal : PlaceProposal}
    {query : AppResult (Option Order)} :
    Keeps K C scope id m (strategyAcknowledge K C scope current id expected proposal query) := by
  refine .lift_bind fun _ _ => .lift_bind fun canonical _ => .get_bind' fun x hx => .lift_bind fun r hr => ?_
  cases okOr_eq_ok.1 hr
  exact .lift_bind fun _ _ => .lift_bind fun _ _ => .acknowledgeExpected hx

theorem Keeps.acknowledgeProtected {current : String} {expected : Order} {request : PlaceOrderRequest}
    {query : AppResult (Option Order)} :
    Keeps K C scope id m (acknowledgeProtected K C scope current id expected request query) := by
  refine .lift_bind fun _ _ => .lift_bind fun _ _ => .lift_bind fun _ _ => .get_bind' fun x hx =>
    .lift_bind fun r hr => ?_
  cases okOr_eq_ok.1 hr
  exact .lift_bind fun _ _ => .lift_bind fun _ _ => .acknowledgeExpected hx

theorem Keeps.reconcileSubmission {symbolValue : String} {query : AppResult (Option Order)} :
    Keeps K C scope id m (reconcileSubmission K C scope symbolValue id query) := by
  refine .get_bind' fun x hx => ?_
  cases x with
  | none => exact .pure _
  | some r =>
    refine .lift_bind fun _ _ => .lift_bind fun _ _ => ?_
    cases ho : r.outcome with
    | accepted order => exact .lift_bind fun _ _ => .lift_bind fun _ _ => .pure _
    | rejected => exact .throw _
    | pending =>
      refine .lift_bind fun found _ => ?_
      cases found with
      | none => exact .pure _
      | some order =>
        simp only
        split
        · exact .bind (.orUnavailable (hx.finish ho)) fun _ _ => .throw _
        · exact .bind (.orUnavailable (hx.finish ho)) fun _ _ => .pure _

theorem Keeps.reconcileProtected {current : String} {request : PlaceOrderRequest} {query : AppResult (Option Order)}
    (hid : request.orderLinkId = some id) :
    Keeps K C scope id m (reconcileProtected K C scope current request query) := by
  refine .lift_bind fun _ _ => .lift_bind fun i hi => ?_
  rw [hid] at hi
  cases okOr_eq_ok.1 hi
  refine .lift_bind fun _ _ => .get_bind' fun x hx => .lift_bind fun r hr => ?_
  cases okOr_eq_ok.1 hr
  refine .lift_bind fun _ _ => .lift_bind fun found _ => ?_
  cases found with
  | none => exact .pure _
  | some order =>
    refine .lift_bind fun _ _ => ?_
    cases ho : r.outcome with
    | accepted known => exact .lift_bind fun _ _ => .pure _
    | rejected => exact .pure _
    | pending => exact .bind (.orUnavailable (hx.finish ho)) fun _ _ => .pure _

theorem Keeps.settle {original : StoredSubmission} {answer : Except AppError Order}
    (h : ∀ r, view K C scope m (K.identityHash id) = .readable r → r.outcome = .pending) :
    Keeps K C scope id m (settle K C scope id original answer) := by
  unfold EasiFlux.settle
  cases answer with
  | ok order =>
    dsimp only
    split
    · exact .throw _
    · exact .bind (.ignore (.finish h)) fun _ _ => .pure _
  | error e =>
    dsimp only
    split
    · refine .bind (wp_mapErr.2 (Keeps.finish h)) fun _ _ => ?_
      split
      · exact .throw _
      · exact .throw _
    · exact .throw _

end Keeps

theorem SubmitStep.callStep {request : PlaceOrderRequest} (h : SubmitStep K C scope request m m') : CallStep K C scope m m' := by
  obtain ⟨hash, hk | ho⟩ := h
  · exact ⟨hash, .inl hk⟩
  · exact ⟨hash, .inr ⟨request, ho⟩⟩

theorem Kept.callStep {hash : String} (h : Kept K C scope hash m m') : CallStep K C scope m m' := ⟨hash, Or.inl h⟩

theorem Keeps.callStep {α : Type} {id : String} {c : Journal α} (h : Keeps K C scope id m c) :
    wp c (fun _ => CallStep K C scope m) (fun _ => CallStep K C scope m) (CallStep K C scope m) m :=
  wp_mono h (fun _ _ h => h.callStep) (fun _ _ h => h.callStep) (fun _ h => h.callStep)

/-! ## The call that submits -/

/-- `begin`, cut short anywhere, has submitted nothing. -/
theorem Opened.of_written {id : String} {request : PlaceOrderRequest} {now : ℕ} (hid : request.orderLinkId = some id)
    (ha : view K C scope m (K.identityHash id) = .absent) (hc : Clear K C scope m request)
    (h : Written K C scope m (K.identityHash id) (newRecord scope id request now) m') :
    Opened K C scope (K.identityHash id) request m m' := by
  refine ⟨⟨id, hid, rfl⟩, ha, hc, h.only.other, fun r hr => ?_, Or.inl h.only.log⟩
  rcases h.view with hv | hv | hv
  · rw [hv, ha] at hr; cases hr
  · rw [hv] at hr; cases hr
  · rw [hv] at hr; cases hr; rfl

/-- The record that was begun, the closure called on it, and its outcome. -/
theorem Opened.of_settled {id : String} {request : PlaceOrderRequest} {now : ℕ} {m₁ : JournalDir}
    (hid : request.orderLinkId = some id) (ha : view K C scope m (K.identityHash id) = .absent)
    (hc : Clear K C scope m request)
    (hw : Written K C scope m (K.identityHash id) (newRecord scope id request now) m₁)
    (hmain : (m₁.get (.record (K.identityHash id) .main)).isSome)
    (hk : Kept K C scope (K.identityHash id) (m₁.called ⟨request, m₁.disk⟩) m') :
    Opened K C scope (K.identityHash id) request m m' := by
  have hv₁ : view K C scope m₁ (K.identityHash id) ≠ .absent := by
    intro h; rw [current_none.1 h] at hmain; cases hmain
  have hle : (view K C scope m₁ (K.identityHash id)).Le (view K C scope m' (K.identityHash id)) := hk.le
  -- a record read on the way is the one begun
  have hrec : ∀ r, (view K C scope m₁ (K.identityHash id)).Le (.readable r) → r.request = request := by
    intro r hr
    rcases hw.view with hv | hv | hv
    · exact absurd (hv.trans ha) hv₁
    · rw [hv] at hr; cases hr
    · rw [hv] at hr; exact Advance.request hr
  refine ⟨⟨id, hid, rfl⟩, ha, hc, fun n hn => ?_, fun r hr => hrec r (hr ▸ hle),
    Or.inr ⟨m₁.disk, ?_, ?_, hmain, ⟨hw.only.other, rfl⟩, fun r hr => hrec r ?_⟩⟩
  · rw [hk.only.other n hn]; exact hw.only.other n hn
  · rw [hk.only.log, Machine.called, hw.only.log]
  · exact hle.ne_absent hv₁
  · rw [show view K C scope m₁ (K.identityHash id) = .readable r from hr]; exact .refl _

/-- **The submit closure is called only on a fresh id with nothing in the way.** -/
theorem wp_submitOnce {request : PlaceOrderRequest} {nowMs : ℕ} {submit : AppResult Order} :
    wp (submitOnce K C scope request nowMs submit) (fun _ => SubmitStep K C scope request m)
      (fun _ => SubmitStep K C scope request m) (SubmitStep K C scope request m) m := by
  have hm : SubmitStep K C scope request m m := ⟨"", .inl (Kept.refl "" m)⟩
  unfold submitOnce
  refine wp_bind (wp_lift (fun id hid => ?_) (fun _ _ => hm))
  have hid := (Option.filter_eq_some_iff.1 (okOr_eq_ok.1 hid)).1
  refine wp_bind (wp_mapErr.2 (wp_mono wp_get (fun x m₁ hx => ?_) (fun _ _ h => h ▸ hm) (fun _ h => h ▸ hm)))
  obtain ⟨rfl, hx⟩ := hx
  cases x with
  | some r => exact wp_lift (fun _ _ => hm) (fun _ _ => hm)
  | none =>
    refine wp_bind (wp_mapErr.2 (wp_mono wp_listPending (fun pending m₂ hp => ?_) (fun _ _ h => h ▸ hm)
      (fun _ h => h ▸ hm)))
    obtain ⟨rfl, hp⟩ := hp
    split
    · exact wp_throw.2 hm
    rename_i hblock
    -- no unresolved record is in the way, or the request would have been refused:
    have hclear : Clear K C scope m₂ request := by
      intro hash
      refine ⟨(hp hash).1, fun r hr hu => ?_⟩
      have hn : ¬ (request.reduceOnly ≠ some true ∨ r.request.reduceOnly = some true) :=
        fun h => List.find?_eq_none.1 hblock _ ((hp hash).2 r hr hu) (decide_eq_true h)
      exact ⟨not_not.1 fun h => hn (Or.inl h), fun h => hn (Or.inr h)⟩
    refine wp_bind (wp_mapErr.2 (wp_mono (wp_begin hid hx (P := SubmitStep K C scope request m₂)
      (fun m' h => ⟨_, Or.inr (.of_written hid hx hclear h)⟩)) (fun original m₃ h => ?_)
      (fun _ _ h => h) (fun _ h => h)))
    obtain ⟨-, hw, hmain, -⟩ := h
    have hdone : ∀ m', Kept K C scope (K.identityHash id) (m₃.called ⟨request, m₃.disk⟩) m' → SubmitStep K C scope request m₂ m' :=
      fun m' hk => ⟨_, Or.inr (.of_settled hid hx hclear hw hmain hk)⟩
    -- the record is as `begin` has written it:
    have hpending : ∀ r, view K C scope (m₃.called ⟨request, m₃.disk⟩) (K.identityHash id) = .readable r →
        r.outcome = .pending := by
      intro r hr
      have hr : view K C scope m₃ (K.identityHash id) = .readable r := hr
      rcases hw.view with hv | hv | hv
      · rw [hv, show view K C scope m₂ (K.identityHash id) = .absent from hx] at hr; cases hr
      · rw [hv] at hr; cases hr
      · rw [hv] at hr; cases hr; rfl
    -- what is done with the answer keeps the step:
    have hsettle : ∀ answer, wp (settle K C scope id original answer) (fun _ => SubmitStep K C scope request m₂)
        (fun _ => SubmitStep K C scope request m₂) (SubmitStep K C scope request m₂) (m₃.called ⟨request, m₃.disk⟩) :=
      fun answer => wp_mono (Keeps.settle hpending) (fun _ m' h => hdone m' h) (fun _ m' h => hdone m' h)
        (fun m' h => hdone m' h)
    exact wp_bind (wp_attempt.2 (wp_invoke (fun _ _ => hsettle _) (fun _ _ => hsettle _) (hdone _ (.refl _ _))))

/-! ## Runs -/

/-- **One call, under any faults, is one step of the journal.** -/
theorem Call.run_ok (c : Call) : wp (c.run K C scope) (fun _ => CallStep K C scope m)
    (fun _ => CallStep K C scope m) (CallStep K C scope m) m := by
  have hm : CallStep K C scope m m := (Kept.refl "" m).callStep
  cases c with
  | submitOnce request nowMs submit =>
    exact wp_ignore.2 (wp_mono wp_submitOnce (fun _ _ h => h.callStep) (fun _ _ h => h.callStep) (fun _ h => h.callStep))
  | reconcile orderLinkId query => exact wp_ignore.2 (Keeps.reconcile query).callStep
  | acknowledge id => exact Keeps.acknowledge.callStep
  | strategyAcknowledge current id expected proposal query => exact Keeps.strategyAcknowledge.callStep
  | acknowledgeProtected current id expected request query => exact Keeps.acknowledgeProtected.callStep
  | strategyReconcile current symbolValue submission exchange query =>
    refine wp_ignore.2 (wp_bind (wp_lift (fun _ _ => wp_bind (wp_lift (fun _ _ => ?_) (fun _ _ => hm))) (fun _ _ => hm)))
    cases submission with
    | some id =>
      cases exchange with
      | none => exact Keeps.reconcileSubmission.callStep
      | some _ => exact wp_throw.2 hm
    | none =>
      cases exchange with
      | none => exact wp_throw.2 hm
      | some id =>
        exact wp_bind (wp_lift (fun _ _ => wp_lift (fun _ _ => hm) (fun _ _ => hm)) (fun _ _ => hm))
  | reconcileProtected current request query =>
    cases hid : request.orderLinkId with
    | some id => exact wp_ignore.2 (Keeps.reconcileProtected hid).callStep
    | none =>
      refine wp_ignore.2 (wp_bind (wp_lift (fun _ _ => wp_bind (wp_lift (fun i hi => ?_) (fun _ _ => hm)))
        (fun _ _ => hm)))
      rw [hid] at hi
      cases okOr_eq_ok.1 hi

theorem step_ok (m : JournalDir) (c : Call × List Fault) : CallStep K C scope m (Call.step K C scope m c) :=
  wp_state c.1.run_ok c.2

theorem Opened.view_other {hash hash' : String} {request : PlaceOrderRequest}
    (h : Opened K C scope hash request m m') (hne : hash' ≠ hash) :
    view K C scope m' hash' = view K C scope m hash' :=
  have ho : Only hash ⟨m.disk, []⟩ ⟨m'.disk, []⟩ := ⟨h.other, rfl⟩
  ho.view hne

/-- A call moves every view forward. -/
theorem CallStep.le (h : CallStep K C scope m m') (hash : String) :
    (view K C scope m hash).Le (view K C scope m' hash) := by
  obtain ⟨hash', h | ⟨request, h⟩⟩ := h
  · by_cases he : hash = hash'
    · rw [he]; exact h.le
    · rw [h.only.view he]; exact .refl _
  · by_cases he : hash = hash'
    · rw [he, h.absent]; trivial
    · rw [h.view_other he]; exact .refl _

theorem run_le (calls : List (Call × List Fault)) (m : JournalDir) (hash : String) :
    (view K C scope m hash).Le (view K C scope (run (Call.step K C scope) m calls) hash) :=
  run_rel (R := fun m m' => (view K C scope m hash).Le (view K C scope m' hash)) (fun _ => .refl _)
    (fun _ _ _ h h' => h.trans h') (fun m c => (step_ok m c).le hash) calls m

/-- What has been submitted: one entry per id, each made on files that hold a
journal file of the id, and each id with files to this moment. -/
structure Sent (K : Crates) (C : RecordCodec) (scope : String) (m : JournalDir) : Prop where
  once : ∀ id, m.log.countP (fun s => s.request.orderLinkId = some id) ≤ 1
  recorded : ∀ s ∈ m.log, ∃ id, s.request.orderLinkId = some id ∧
    ((⟨s.files, []⟩ : JournalDir).get (.record (K.identityHash id) .main)).isSome ∧
    view K C scope m (K.identityHash id) ≠ .absent

theorem Sent.step (h : Sent K C scope m) (hs : CallStep K C scope m m') : Sent K C scope m' := by
  have hkeep : ∀ s ∈ m.log, ∃ id, s.request.orderLinkId = some id ∧
      ((⟨s.files, []⟩ : JournalDir).get (.record (K.identityHash id) .main)).isSome ∧
      view K C scope m' (K.identityHash id) ≠ .absent := by
    intro s hmem
    obtain ⟨id, hid, hf, hv⟩ := h.recorded s hmem
    exact ⟨id, hid, hf, (hs.le _).ne_absent hv⟩
  have hsame : m'.log = m.log → Sent K C scope m' := by
    intro hl
    exact ⟨by rw [hl]; exact h.once, by rw [hl]; exact hkeep⟩
  obtain ⟨hash, hk | ⟨request, ho⟩⟩ := hs
  · exact hsame hk.only.log
  rcases ho.log with hl | ⟨files, hl, hv, hmain, -, -⟩
  · exact hsame hl
  obtain ⟨id, hid, rfl⟩ := ho.id
  refine ⟨fun id' => ?_, fun s hmem => ?_⟩
  · rw [hl, List.countP_append, List.countP_singleton]
    by_cases he : id' = id
    · -- the id had no file, so it was never submitted
      subst he
      have h0 : m.log.countP (fun s => s.request.orderLinkId = some id') = 0 := by
        rw [List.countP_eq_zero]
        intro s hmem hs
        obtain ⟨id'', hid'', -, hv'⟩ := h.recorded s hmem
        have : id'' = id' := by
          rw [decide_eq_true_eq, hid''] at hs; exact Option.some.inj hs
        exact hv' (this ▸ ho.absent)
      rw [h0]; split <;> omega
    · have hne : ¬ request.orderLinkId = some id' := by
        rw [hid, Option.some.injEq]; exact fun h => he h.symm
      simp only [hne, decide_false, Bool.false_eq_true, if_false, add_zero]
      exact h.once id'
  · rw [hl, List.mem_append, List.mem_singleton] at hmem
    rcases hmem with hmem | rfl
    · exact hkeep s hmem
    · exact ⟨id, hid, hmain, hv⟩

/-- **At-most-once order submission.** From any files, over any calls with any
answers, failing system calls and crashes: every id is submitted at most once, and
on files that hold its record. -/
theorem submit_at_most_once (K : Crates) (C : RecordCodec) (scope : String) (files : Disk FileName)
    (calls : List (Call × List Fault)) :
    (∀ id, (run (Call.step K C scope) ⟨files, []⟩ calls).log.countP (fun s => s.request.orderLinkId = some id) ≤ 1) ∧
      ∀ s ∈ (run (Call.step K C scope) ⟨files, []⟩ calls).log, ∃ id, s.request.orderLinkId = some id ∧
        ∃ suffix, (s.files.lookup (.record (K.identityHash id) suffix)).isSome := by
  have h : Sent K C scope (run (Call.step K C scope) ⟨files, []⟩ calls) :=
    run_inv (fun m c hm => hm.step (step_ok m c)) calls _ ⟨by simp, by simp⟩
  refine ⟨h.once, fun s hs => ?_⟩
  obtain ⟨id, hid, hf, -⟩ := h.recorded s hs
  exact ⟨id, hid, .main, hf⟩

/-- At most one unresolved record of each kind, and every submission that opens was
made with no other unresolved record. -/
structure Exclusive (K : Crates) (C : RecordCodec) (scope : String) (m : JournalDir) : Prop where
  one : ∀ h₁ h₂ r₁ r₂, view K C scope m h₁ = .readable r₁ → view K C scope m h₂ = .readable r₂ →
    r₁.unresolved → r₂.unresolved → (r₁.request.reduceOnly = some true ↔ r₂.request.reduceOnly = some true) → h₁ = h₂
  alone : ∀ s ∈ m.log, s.request.reduceOnly ≠ some true → ∀ hash r,
    view K C scope ⟨s.files, []⟩ hash = .readable r → r.unresolved → r.request = s.request

/-- Where the unresolved records of a later state come from. -/
theorem CallStep.unresolved (hs : CallStep K C scope m m') {hash : String} {r' : StoredSubmission}
    (hr : view K C scope m' hash = .readable r') (hu : r'.unresolved = true) :
    (∃ r, view K C scope m hash = .readable r ∧ r.unresolved = true ∧ r'.request = r.request) ∨
      (view K C scope m hash = .absent ∧ ∃ request, Opened K C scope hash request m m' ∧ r'.request = request) := by
  have hle := hs.le hash
  rw [hr] at hle
  cases hv : view K C scope m hash with
  | readable r =>
    rw [hv] at hle
    exact Or.inl ⟨r, rfl, Advance.unresolved hle hu, Advance.request hle⟩
  | broken => rw [hv] at hle; cases hle
  | absent =>
    refine Or.inr ⟨rfl, ?_⟩
    obtain ⟨hash', hk | ⟨request, ho⟩⟩ := hs
    · by_cases he : hash = hash'
      · subst he; rw [hk.absent hv] at hr; cases hr
      · rw [hk.only.view he, hv] at hr; cases hr
    · by_cases he : hash = hash'
      · subst he; exact ⟨request, ho, ho.record r' hr⟩
      · rw [ho.view_other he, hv] at hr; cases hr

/-- Two hashes opened in one call are the same. -/
theorem Opened.unique {h₁ h₂ : String} {request : PlaceOrderRequest} {r₂ : StoredSubmission}
    (ho : Opened K C scope h₁ request m m') (hv : view K C scope m h₂ = .absent)
    (hr : view K C scope m' h₂ = .readable r₂) : h₂ = h₁ := by
  by_contra hne
  rw [ho.view_other hne, hv] at hr
  cases hr

theorem Exclusive.step (h : Exclusive K C scope m) (hs : CallStep K C scope m m') : Exclusive K C scope m' := by
  refine ⟨fun h₁ h₂ r₁ r₂ hr₁ hr₂ hu₁ hu₂ hiff => ?_, ?_⟩
  · rcases hs.unresolved hr₁ hu₁ with ⟨s₁, hs₁, hv₁, he₁⟩ | ⟨ha₁, q₁, ho₁, he₁⟩
    · rcases hs.unresolved hr₂ hu₂ with ⟨s₂, hs₂, hv₂, he₂⟩ | ⟨ha₂, q₂, ho₂, he₂⟩
      · exact h.one h₁ h₂ s₁ s₂ hs₁ hs₂ hv₁ hv₂ (by rw [← he₁, ← he₂]; exact hiff)
      · -- the second was opened past the first, so the first opens and the second reduces
        obtain ⟨hq, hn⟩ := (ho₂.clear h₁).2 s₁ hs₁ hv₁
        rw [he₁, he₂] at hiff
        exact absurd (hiff.2 hq) hn
    · rcases hs.unresolved hr₂ hu₂ with ⟨s₂, hs₂, hv₂, he₂⟩ | ⟨ha₂, q₂, ho₂, he₂⟩
      · obtain ⟨hq, hn⟩ := (ho₁.clear h₂).2 s₂ hs₂ hv₂
        rw [he₁, he₂] at hiff
        exact absurd (hiff.1 hq) hn
      · exact ho₂.unique ha₁ hr₁
  · obtain ⟨hash, hk | ⟨request, ho⟩⟩ := hs
    · rw [hk.only.log]; exact h.alone
    rcases ho.log with hl | ⟨files, hl, -, -, honly, hreq⟩
    · rw [hl]; exact h.alone
    rw [hl]
    intro s hmem hred hash' r hr hu
    rw [List.mem_append, List.mem_singleton] at hmem
    rcases hmem with hmem | rfl
    · exact h.alone s hmem hred hash' r hr hu
    · by_cases he : hash' = hash
      · subst he; exact hreq r hr
      · rw [honly.view he] at hr
        exact absurd ((ho.clear hash').2 r hr hu).1 hred

/-- The record `get` returns for an id on these files, when no call fails. -/
def stored (K : Crates) (C : RecordCodec) (scope : String) (files : Disk FileName) (id : String) :
    Option StoredSubmission :=
  match get K C scope id ⟨files, []⟩ [] with
  | .ok x _ _ => x
  | _ => none

theorem stored_view {files : Disk FileName} {id : String} {r : StoredSubmission}
    (h : stored K C scope files id = some r) :
    view K C scope ⟨files, []⟩ (K.identityHash id) = .readable r ∧ id = r.orderLinkId := by
  unfold stored at h
  have hg := (wp_get : wp (get K C scope id) _ _ _ ⟨files, []⟩) []
  cases hx : get K C scope id ⟨files, []⟩ [] with
  | ok x m' rest =>
    rw [hx] at h hg
    simp only at h
    subst h
    exact ⟨hg.2.1, hg.2.2 id rfl⟩
  | err e m' rest => rw [hx] at h; cases h
  | crashed m' => rw [hx] at h; cases h

theorem view_orderLinkId {hash : String} {r : StoredSubmission} (h : view K C scope m hash = .readable r) :
    r.request.orderLinkId = some r.orderLinkId := by
  unfold view viewOf at h
  cases hc : current m hash with
  | none => rw [hc] at h; cases h
  | some b =>
    rw [hc] at h
    simp only at h
    split at h
    · rename_i r' hr
      cases h
      exact (checkRecord_ok.1 hr).2.2.2.2.2.1
    · cases h

/-- **Unresolved intents are exclusive.** From an empty journal, over any calls,
answers, faults and crashes: of the unresolved records at most one reduces and at
most one does not, and a request that does not reduce is submitted only on files
without another unresolved record. -/
theorem unresolved_exclusive (K : Crates) (C : RecordCodec) (scope : String) (calls : List (Call × List Fault)) :
    (∀ id₁ id₂ r₁ r₂, stored K C scope (run (Call.step K C scope) ⟨∅, []⟩ calls).disk id₁ = some r₁ →
      stored K C scope (run (Call.step K C scope) ⟨∅, []⟩ calls).disk id₂ = some r₂ →
      r₁.unresolved → r₂.unresolved →
      (r₁.request.reduceOnly = some true ↔ r₂.request.reduceOnly = some true) → id₁ = id₂) ∧
    ∀ s ∈ (run (Call.step K C scope) ⟨∅, []⟩ calls).log, s.request.reduceOnly ≠ some true →
      ∀ id r, stored K C scope s.files id = some r → r.unresolved → s.request.orderLinkId = some id := by
  have hnone : ∀ hash, view K C scope ⟨∅, []⟩ hash = .absent := fun hash => current_none.2 fun s => rfl
  have h : Exclusive K C scope (run (Call.step K C scope) ⟨∅, []⟩ calls) := by
    refine run_inv (fun m c hm => hm.step (step_ok m c)) calls _ ⟨fun h₁ _ r₁ _ hr₁ => ?_, by simp⟩
    rw [hnone] at hr₁; cases hr₁
  refine ⟨fun id₁ id₂ r₁ r₂ hr₁ hr₂ hu₁ hu₂ hiff => ?_, fun s hs hred id r hr hu => ?_⟩
  · obtain ⟨hv₁, he₁⟩ := stored_view hr₁
    obtain ⟨hv₂, he₂⟩ := stored_view hr₂
    -- the two views are one, and a view has the id of its record
    have := h.one _ _ r₁ r₂ hv₁ hv₂ hu₁ hu₂ hiff
    rw [this] at hv₁
    have hr : r₁ = r₂ := View.readable.inj (hv₁.symm.trans hv₂)
    rw [he₁, he₂, hr]
  · obtain ⟨hv, he⟩ := stored_view hr
    rw [← h.alone s hs hred _ r hv hu, view_orderLinkId hv, he]

/-- **Journal outcomes are absorbing.** From any files, over any calls, answers,
faults and crashes: once `get` has returned a record for an id it never returns
nothing again, and every record it returns later advances the earlier one. -/
theorem outcome_absorbing (K : Crates) (C : RecordCodec) (scope id : String) (files : Disk FileName)
    (earlier later : List (Call × List Fault)) {fs fs' rest rest' : List Fault} {m m' : JournalDir}
    {r : StoredSubmission} {x : Option StoredSubmission}
    (hr : get K C scope id (run (Call.step K C scope) ⟨files, []⟩ earlier) fs = .ok (some r) m rest)
    (hx : get K C scope id (run (Call.step K C scope) ⟨files, []⟩ (earlier ++ later)) fs' = .ok x m' rest') :
    ∃ r', x = some r' ∧ Advance r r' := by
  set m₁ := run (Call.step K C scope) ⟨files, []⟩ earlier with hm₁
  rw [run_append, ← hm₁] at hx
  -- both answers are views of the id, and a view only advances
  have h₁ := (wp_get : wp (get K C scope id) _ _ _ m₁) fs
  rw [hr] at h₁
  have h₂ := (wp_get : wp (get K C scope id) _ _ _ (run (Call.step K C scope) m₁ later)) fs'
  rw [hx] at h₂
  have hle : (view K C scope m₁ (K.identityHash id)).Le _ := run_le later m₁ (K.identityHash id)
  rw [h₁.2.1] at hle
  cases x with
  | none => rw [show view K C scope _ _ = .absent from h₂.2] at hle; exact hle.elim
  | some r' => rw [h₂.2.1] at hle; exact ⟨r', rfl, hle⟩

/-- A record in its main file is read back. -/
theorem get_of_main {r : StoredSubmission} (hscope : scope ≠ "")
    (hmain : m.get (.record (K.identityHash r.orderLinkId) .main) = some (C.encode r)) (hw : r.wire = true)
    (hid : validateIdentity r.orderLinkId = .ok ()) (hv : r.schemaVersion = 1) (hs : r.scope = scope)
    (hreq : r.request.orderLinkId = some r.orderLinkId) :
    get K C scope r.orderLinkId m [] = .ok (some r) m [] := by
  have hcheck : checkRecord K C scope (K.identityHash r.orderLinkId) (some r.orderLinkId) (C.encode r) = .ok r :=
    checkRecord_ok.2 ⟨C.decode_of_wire hw, hv, hid, hs, by simp, hreq, rfl⟩
  have hstat : stat (.record (K.identityHash r.orderLinkId) .main) m [] = .ok () m [] := by
    simp [stat, look, Io.call, hmain]
  have hread : CrashIo.read (.record (K.identityHash r.orderLinkId) .main) m [] = .ok (C.encode r) m [] := by
    simp [CrashIo.read, look, Io.call, hmain]
  have hcand : readCandidate K C scope (K.identityHash r.orderLinkId) (some r.orderLinkId) .main m [] =
      .ok (some r) m [] :=
    (Io.bind_of_ok (Io.attempt_of_ok hstat)).trans
      ((Io.bind_of_ok (Io.mapErr_of_ok hread)).trans (Io.bind_of_ok (Io.lift_of_ok hcheck)))
  exact (Io.bind_of_ok (Io.lift_of_ok hid)).trans
    ((Io.bind_of_ok (Io.lift_of_ok (ensure_of hscope))).trans (Io.bind_of_ok hcand))

/-- A pending order of the account `main`, with id `a`. -/
def sampleRecord : StoredSubmission where
  schemaVersion := 1
  scope := "main"
  orderLinkId := "a"
  request := { symbol := "BTCUSDT", side := "Buy", orderType := "Market", qty := "1", positionIdx := 1, price := none,
               timeInForce := some "ImmediateOrCancel", orderLinkId := some "a", reduceOnly := some false,
               protection := none }
  createdAtMs := 0
  outcome := .pending
  acknowledged := false

deriving instance Countable for OrderStatus, Order, OrderProtection, PlaceOrderRequest, SubmissionOutcome,
  StoredSubmission

def sampleOrder : Order where
  orderId := "1"
  symbol := "BTCUSDT"
  side := "Buy"
  orderType := "Market"
  price := "0"
  qty := "1"
  status := .filled
  orderLinkId := some "a"
  filledQty := "1"
  avgPrice := "100"

/-- The text of the record with this outcome. -/
def recordText (outcome : String) : Bytes :=
  ("\x7b\"schemaVersion\":1,\"scope\":\"main\",\"orderLinkId\":\"a\",\"request\":\x7b\"symbol\":\"BTCUSDT\",\"side\":\"Buy\"," ++
    "\"orderType\":\"Market\",\"qty\":\"1\",\"positionIdx\":1,\"price\":null,\"timeInForce\":\"ImmediateOrCancel\"," ++
    "\"orderLinkId\":\"a\",\"reduceOnly\":false\x7d,\"createdAtMs\":0,\"outcome\":" ++ outcome ++
    ",\"acknowledged\":false\x7d").toUTF8.data.toList

def recordTexts : List (StoredSubmission × Bytes) :=
  [(sampleRecord, recordText "\x7b\"status\":\"pending\"\x7d"),
    ({ sampleRecord with outcome := .accepted sampleOrder },
      recordText ("\x7b\"status\":\"accepted\",\"order\":\x7b\"orderId\":\"1\",\"symbol\":\"BTCUSDT\",\"side\":\"Buy\"," ++
        "\"orderType\":\"Market\",\"price\":\"0\",\"qty\":\"1\",\"status\":\"Filled\",\"orderLinkId\":\"a\"," ++
        "\"filledQty\":\"1\",\"avgPrice\":\"100\"\x7d\x7d"))]

noncomputable def sampleCodec : RecordCodec :=
  letI := Encodable.ofCountable StoredSubmission
  .ofTable _ recordTexts ⟨by decide +kernel, by decide +kernel⟩

/-- The files of a journal that holds only `sampleRecord`. -/
noncomputable def sampleFiles : Disk FileName :=
  (∅ : Disk FileName).insert (.record (Crates.sample.identityHash "a") .main) (sampleCodec.encode sampleRecord)

/-- The exchange has the pending order; the same request comes again and is not sent; the
acknowledgement dies in its first system call. -/
def settledCalls : List (Call × List Fault) :=
  [(.reconcile "a" (.ok [sampleOrder]), []), (.submitOnce sampleRecord.request 9 (.error .notConnected), []),
    (.acknowledge "a", [.crash 0])]

theorem outcome_absorbing_settled : ∃ m' r',
    get Crates.sample sampleCodec "main" "a" (run (Call.step Crates.sample sampleCodec "main") ⟨sampleFiles, []⟩ settledCalls) [] =
      .ok (some r') m' [] ∧ r'.outcome = .accepted sampleOrder ∧ m'.log = [] ∧ Advance sampleRecord r' := by
  have hget : get Crates.sample sampleCodec "main" "a" ⟨sampleFiles, []⟩ [] =
      .ok (some sampleRecord) ⟨sampleFiles, []⟩ [] :=
    get_of_main (r := sampleRecord) (by decide) (AList.lookup_insert _) (by decide) (by decide) rfl rfl rfl
  have hsettled : (match get Crates.sample sampleCodec "main" "a"
      (run (Call.step Crates.sample sampleCodec "main") ⟨sampleFiles, []⟩ settledCalls) [] with
      | .ok x m' rest => decide (x.map (·.outcome) = some (.accepted sampleOrder)) && m'.log.isEmpty && rest.isEmpty
      | _ => false) = true := by decide +kernel
  cases hlater : get Crates.sample sampleCodec "main" "a"
      (run (Call.step Crates.sample sampleCodec "main") ⟨sampleFiles, []⟩ settledCalls) [] with
  | ok x m' rest =>
    rw [hlater] at hsettled
    simp only [Bool.and_eq_true, decide_eq_true_eq, List.isEmpty_iff] at hsettled
    obtain ⟨⟨hout, hlog⟩, rfl⟩ := hsettled
    obtain ⟨r', rfl, hadvance⟩ := outcome_absorbing Crates.sample sampleCodec "main" "a" sampleFiles [] settledCalls hget hlater
    exact ⟨m', r', rfl, Option.some.inj hout, hlog, hadvance⟩
  | err e m' rest =>
    rw [hlater] at hsettled
    cases hsettled
  | crashed m' =>
    rw [hlater] at hsettled
    cases hsettled

end EasiFlux
