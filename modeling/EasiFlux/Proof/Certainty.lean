import EasiFlux.Model.Placement
import EasiFlux.Proof.Ledger
import EasiFlux.Proof.Reading

/-!
# The quota and the journal on a failed order

An order that fails is settled twice: the risk service gives its reservation back
if the failure is certain, and the journal writes its outcome as rejected if the
order was definitely not accepted. The journal's test is the weaker one.

* `wp_executePlaceOrder`: the six ways a placement ends (`PlaceEnd`).
* `wp_submitOnce_outcome`: what the journal makes of the closure's answer.
* `quota_journal`: whatever was released is written as rejected, and what may have
  been accepted keeps its reservation and is not.
-/

namespace EasiFlux

open CrashIo Results OrderSubmissionStore

/-! ## The journal -/

section Journal

variable {K : Crates} {C : RecordCodec} {scope id : String} {m : JournalDir}

/-- The record of `hash`, if there is one to read, is not rejected. -/
def NotRejected (K : Crates) (C : RecordCodec) (scope : String) (m : JournalDir) (hash : String) : Prop :=
  ∀ r, view K C scope m hash = .readable r → r.outcome ≠ .rejected

/-- The files hold the record `r` of the order. -/
structure Begun (K : Crates) (C : RecordCodec) (scope : String) (m : JournalDir) (id : String) (r : StoredSubmission) :
    Prop where
  bytes : current m (K.identityHash id) = some (C.encode r)
  pending : r.outcome = .pending

theorem Begun.view {r r' : StoredSubmission} (h : Begun K C scope m id r)
    (hv : EasiFlux.view K C scope m (K.identityHash id) = .readable r') : r' = r ∧ r.wire = true := by
  obtain ⟨b, hb, hc⟩ := check_of_view hv
  obtain rfl : b = C.encode r := Option.some.inj (hb.symm.trans h.bytes)
  have hd := (checkRecord_ok.1 hc).1
  rw [C.decode_encode] at hd
  split at hd
  · rename_i hw
    exact ⟨(Option.some.inj hd).symm, hw⟩
  · cases hd

theorem Begun.notRejected {r : StoredSubmission} (h : Begun K C scope m id r) :
    NotRejected K C scope m (K.identityHash id) := by
  intro r' hv
  rw [(h.view hv).1, h.pending]
  exact (nomatch ·)

theorem Written.notRejected {m' : JournalDir} {r : StoredSubmission} (h : Written K C scope m (K.identityHash id) r m')
    (hm : NotRejected K C scope m (K.identityHash id)) (hr : r.outcome ≠ .rejected) :
    NotRejected K C scope m' (K.identityHash id) := by
  intro r' hv
  rcases h.view with hw | hw | hw
  · exact hm r' (hw ▸ hv)
  · rw [hw] at hv; cases hv
  · rw [hw] at hv; cases hv; exact hr

/-- The answer is written as rejected exactly if the order was definitely not
accepted. A failed write is answered with `OrderSubmissionUnknown`. -/
def SettledAs (K : Crates) (C : RecordCodec) (scope id : String) (answer : AppResult Order) (written : Prop)
    (m : JournalDir) : Prop :=
  match answer with
  | .ok _ => NotRejected K C scope m (K.identityHash id)
  | .error e =>
    if e.definitelyNotAccepted then
      written → ∃ r, view K C scope m (K.identityHash id) = .readable r ∧ r.orderLinkId = id ∧ r.outcome = .rejected
    else NotRejected K C scope m (K.identityHash id)

theorem wp_settle {r original : StoredSubmission} {answer : AppResult Order} (h : Begun K C scope m id r)
    (hid : r.orderLinkId = id) :
    wp (settle K C scope id original answer) (fun _ m' => (∃ o, answer = .ok o) ∧ SettledAs K C scope id answer True m')
      (fun e m' => SettledAs K C scope id answer (e ≠ .orderSubmissionUnknown id) m')
      (fun m' => SettledAs K C scope id answer False m') m := by
  unfold settle
  cases answer with
  | ok order =>
    dsimp only
    split
    · exact wp_throw.2 h.notRejected
    · -- an acceptance that is written, or half written, is no rejection:
      have hw : ∀ m', Written K C scope m (K.identityHash id)
            { r with outcome := .accepted (completeOrder K id original.request order) } m' →
          NotRejected K C scope m' (K.identityHash id) :=
        fun m' hw => hw.notRejected h.notRejected (by simp)
      refine wp_bind (wp_ignore.2 (wp_mono (wp_finish_of (fun _ hv => h.view hv) _) (fun _ m' hf => ?_) (fun _ m' hf => ?_)
        (fun m' hf => hw m' hf)))
      · refine wp_pure.2 ⟨⟨order, rfl⟩, fun r' hv => ?_⟩
        rw [hf.1] at hv
        cases hv
        simp
      · exact wp_pure.2 ⟨⟨order, rfl⟩, hw m' hf⟩
  | error e =>
    dsimp only
    split
    · -- an error that says the order was not accepted is recorded as a rejection:
      rename_i hd
      refine wp_bind (wp_mapErr.2 (wp_mono (wp_finish_of (fun _ hv => h.view hv) _) (fun _ m' hf => ?_) (fun _ m' _ => ?_)
        (fun m' _ => ?_)))
      · have hr : SettledAs K C scope id (.error e) (True) m' := by
          simp only [SettledAs, hd, if_true]
          exact fun _ => ⟨_, hf.1, hid, rfl⟩
        have hany : ∀ p, SettledAs K C scope id (.error e) p m' := by
          intro p
          simp only [SettledAs, hd, if_true] at hr ⊢
          exact fun _ => hr trivial
        split
        · exact wp_throw.2 (hany _)
        · exact wp_throw.2 (hany _)
      · simp only [SettledAs, hd, if_true]
        exact fun hne => absurd rfl hne
      · simp only [SettledAs, hd, if_true]
        exact fun hf => hf.elim
    · -- any other leaves the record pending:
      rename_i hd
      refine wp_throw.2 ?_
      simp only [SettledAs, hd]
      exact h.notRejected

/-- What `submit_once` leaves of the journal `m`: the closure was not called, or its
answer is settled in the record of the order. -/
def Settles (K : Crates) (C : RecordCodec) (scope : String) (request : PlaceOrderRequest) (answer : AppResult Order)
    (written : String → Prop) (m m' : JournalDir) : Prop :=
  m'.log.length ≠ m.log.length → ∃ id, request.orderLinkId = some id ∧ scope ≠ "" ∧
    validateIdentity id = .ok () ∧ SettledAs K C scope id answer (written id) m'

theorem wp_submitOnce_outcome {request : PlaceOrderRequest} {nowMs : ℕ} {answer : AppResult Order} :
    wp (submitOnce K C scope request nowMs answer)
      (fun _ m' => Settles K C scope request answer (fun _ => True) m m')
      (fun e m' => Settles K C scope request answer (fun id => e ≠ .orderSubmissionUnknown id) m m')
      (fun m' => Settles K C scope request answer (fun _ => False) m m') m := by
  -- an answer before the call is about nothing that was sent:
  have hsame : ∀ {w : String → Prop} {m' : JournalDir}, m'.log = m.log → Settles K C scope request answer w m m' :=
    fun h hne => absurd (congrArg List.length h) hne
  unfold submitOnce
  refine wp_bind (wp_lift (fun id hid => ?_) (fun _ _ => hsame rfl))
  obtain ⟨hid, hvalid⟩ := Option.filter_eq_some_iff.1 (okOr_eq_ok.1 hid)
  have hvalid' : validateIdentity id = .ok () := ensure_of (by simpa using hvalid)
  refine wp_bind (wp_mapErr.2 (wp_mono (wp_and wp_get wp_get_scope) (fun x m₁ hx => ?_) (fun _ m' h => hsame (h.1 ▸ rfl))
    (fun m' h => hsame (h.1 ▸ rfl))))
  obtain ⟨⟨rfl, hx⟩, hscope⟩ := hx
  cases x with
  | some r => exact wp_lift (fun _ _ => hsame rfl) (fun _ _ => hsame rfl)
  | none =>
    refine wp_bind (wp_mapErr.2 (wp_mono wp_listPending (fun pending m₂ hp => ?_) (fun _ _ h => hsame (h ▸ rfl))
      (fun _ h => hsame (h ▸ rfl))))
    obtain ⟨rfl, -⟩ := hp
    split
    · exact wp_throw.2 (hsame rfl)
    refine wp_bind (wp_mapErr.2 (wp_mono (wp_begin hid hx (P := fun m' => m'.log = m₂.log) (fun m' h => h.only.log))
      (fun original m₃ h => ?_) (fun _ _ h => hsame h) (fun _ h => hsame h)))
    obtain ⟨rfl, hw, -, hbytes⟩ := h
    have hbegun : Begun K C scope (m₃.called ⟨request, m₃.disk⟩) id (newRecord scope id request nowMs) := ⟨hbytes, rfl⟩
    have hset : ∀ {w : String → Prop} {m' : JournalDir}, SettledAs K C scope id answer (w id) m' →
        Settles K C scope request answer w m₂ m' := fun h _ => ⟨id, hid, hscope, hvalid', h⟩
    -- after the call `settle` has the last word:
    have hdone : wp (settle K C scope id (newRecord scope id request nowMs) answer)
        (fun _ m' => Settles K C scope request answer (fun _ => True) m₂ m')
        (fun e m' => Settles K C scope request answer (fun id => e ≠ .orderSubmissionUnknown id) m₂ m')
        (fun m' => Settles K C scope request answer (fun _ => False) m₂ m') (m₃.called ⟨request, m₃.disk⟩) :=
      wp_mono (wp_settle hbegun rfl) (fun _ _ h => hset h.2) (fun _ _ h => hset h) (fun _ h => hset h)
    refine wp_bind (wp_attempt.2 (wp_invoke (fun o ho => ?_) (fun e he => ?_) ?_))
    · subst ho; exact hdone
    · subst he; exact hdone
    · -- the process dies in the closure
      intro _
      refine ⟨id, hid, hscope, hvalid', ?_⟩
      unfold SettledAs
      split
      · exact hbegun.notRejected
      · split
        · exact fun hf => hf.elim
        · exact hbegun.notRejected

end Journal

/-! ## The placement -/

section Place

variable {C : UsageCodec} {Z : Calendar} {R : RiskDecimals}

/-- The reservation `r` is in the count of `s`, on top of that of `s₀`. -/
def CountedIn (s₀ s : RiskService) (r : RiskReservation) : Prop :=
  r.counted = true → RiskService.occupied s.usage r.key = RiskService.occupied s₀.usage r.key + 1

/-- The ways a placement ends, with its answer. `s` is the risk service with the
reservation. -/
inductive PlaceEnd (input : PlaceInput) (s₀ : RiskService) : Desk → AppResult Order → Prop
  /-- no reservation was granted -/
  | refused (d : Desk) (answer : AppResult Order) (events : d.events = []) : PlaceEnd input s₀ d answer
  /-- given back before the hand-off, for an error the journal knows -/
  | unsent (d : Desk) (r : RiskReservation) (ok : Bool) (e : AppError) (events : d.events = [.reserved r, .released ok])
      (known : e.definitelyNotAccepted = true) : PlaceEnd input s₀ d (.error e)
  | accepted (d : Desk) (r : RiskReservation) (order : Order) (events : d.events = [.reserved r, .submitted])
      (counted : CountedIn s₀ d.risk r) (sent : input.submit = .ok order) : PlaceEnd input s₀ d (.ok order)
  /-- not certain: the reservation stays -/
  | uncertain (d : Desk) (r : RiskReservation) (e : AppError) (events : d.events = [.reserved r, .submitted])
      (counted : CountedIn s₀ d.risk r) (sent : input.submit = .error e) (certain : e.isCertainSubmissionFailure = false) :
      PlaceEnd input s₀ d (.error e)
  | certain (d : Desk) (r : RiskReservation) (ok : Bool) (e e' : AppError)
      (events : d.events = [.reserved r, .submitted, .released ok]) (sent : input.submit = .error e)
      (certain : e.isCertainSubmissionFailure = true) (known : e'.definitelyNotAccepted = true) :
      PlaceEnd input s₀ d (.error e')

theorem definitelyNotAccepted_of_certain {e : AppError} (h : e.isCertainSubmissionFailure = true) :
    e.definitelyNotAccepted = true := by
  unfold AppError.definitelyNotAccepted
  rw [h]
  rfl

theorem certain_of_confirmed {e : AppError} (h : e.isConfirmedSubmissionRejection = true) :
    e.isCertainSubmissionFailure = true := by
  unfold AppError.isCertainSubmissionFailure
  rw [h]
  rfl

/-- What is made of a certain failure is still definite. -/
theorem finalize_certain {e : AppError} (h : e.isCertainSubmissionFailure = true) (failed : Bool) (notice : Option String) :
    (finalizeSubmissionFailure e failed notice).definitelyNotAccepted = true := by
  unfold finalizeSubmissionFailure
  split
  · exact definitelyNotAccepted_of_certain h
  · cases notice with
    | some id => rfl
    | none =>
      simp only [h, Bool.not_true, Bool.and_false, Bool.false_eq_true, if_false]
      exact definitelyNotAccepted_of_certain h

/-- Any other failure is passed on. -/
theorem finalize_uncertain (e : AppError) : finalizeSubmissionFailure e false none = e := by
  unfold finalizeSubmissionFailure
  split <;> rfl

theorem wp_releaseFails {ε : Type} {r : RiskReservation} {nowMs : ℕ} {d : Desk} {Q : Bool → Desk → Prop}
    {E : ε → Desk → Prop} {D : Desk → Prop}
    (hQ : ∀ s ok, Q (!ok) { risk := s, events := d.events ++ [.released ok] }) (hD : ∀ d, D d) :
    wp (releaseFails C r nowMs) Q E D d := by
  unfold releaseFails Desk.onRisk
  refine wp_bind (wp_attempt.2 (wp_within.2 ?_))
  intro fs
  cases hm : RiskService.releaseReservation C r nowMs d.risk fs with
  | ok u s rest => exact wp_bind (wp_modify.2 (wp_pure.2 (hQ s true)))
  | err e s rest => exact wp_bind (wp_modify.2 (wp_pure.2 (hQ s false)))
  | crashed s => exact hD _

/-- The rejections `pass` returns. -/
def PlaceInput.Admits (input : PlaceInput) : Prop := ∀ e, input.admission = some (.error e) → e = admissionRevoked

variable {input : PlaceInput} {s₀ : RiskService} {r : RiskReservation}

theorem wp_executeReserved (ha : input.Admits) {d : Desk} (hd : d.events = [.reserved r]) (hc : CountedIn s₀ d.risk r) :
    wp (executeReserved C r input) (fun order d' => PlaceEnd input s₀ d' (.ok order))
      (fun e d' => PlaceEnd input s₀ d' (.error e)) (fun _ => True) d := by
  unfold executeReserved
  cases input.prepare with
  | error preflight =>
    refine wp_bind (wp_releaseFails (fun s ok => wp_throw.2 ?_) (fun _ => trivial))
    exact .unsent _ r ok _ (by rw [hd]; rfl) rfl
  | ok u =>
    refine wp_bind (wp_attempt.2 ?_)
    unfold dispatchReserved
    -- an order that is handed over
    have hsend : wp (do Desk.note .submitted; Io.lift input.submit : Io Desk AppError Order)
        (fun order d' => wp (pure order : Io Desk AppError Order) (fun order d' => PlaceEnd input s₀ d' (.ok order))
          (fun e d' => PlaceEnd input s₀ d' (.error e)) (fun _ => True) d')
        (fun submitError d' => wp (do
            let error ← handleFailedSubmission C r input submitError
            Io.throw error : Io Desk AppError Order) (fun order d' => PlaceEnd input s₀ d' (.ok order))
          (fun e d' => PlaceEnd input s₀ d' (.error e)) (fun _ => True) d') (fun _ => True) d := by
      refine wp_bind (wp_modify.2 (wp_lift (fun order ho => ?_) (fun e he => ?_)))
      · exact wp_pure.2 (.accepted _ r order (by rw [hd]; rfl) hc ho)
      · unfold handleFailedSubmission
        by_cases hcert : e.isCertainSubmissionFailure = true
        · simp only [hcert, if_true]
          refine wp_bind (wp_bind (wp_releaseFails (fun s ok => wp_pure.2 (wp_throw.2 ?_)) (fun _ => trivial)))
          exact .certain _ r ok e _ (by rw [hd]; rfl) he hcert (finalize_certain hcert _ _)
        · have hconf : e.isConfirmedSubmissionRejection = false := by
            cases hconf : e.isConfirmedSubmissionRejection with
            | false => rfl
            | true => exact absurd (certain_of_confirmed hconf) hcert
          simp only [hcert, hconf]
          refine wp_bind (wp_bind (wp_pure.2 (wp_pure.2 (wp_throw.2 ?_))))
          simp only [Bool.false_eq_true, if_false, finalize_uncertain]
          exact .uncertain _ r e (by rw [hd]; rfl) hc he (by simpa using hcert)
    cases hadm : input.admission with
    | none => exact hsend
    | some admitted =>
      cases admitted with
      | ok _ => exact hsend
      | error rejection =>
        obtain rfl := ha rejection hadm
        -- the rejection is not certain, so the quota is not given back again
        have hrev : admissionRevoked.isCertainSubmissionFailure = false := rfl
        have hconf : admissionRevoked.isConfirmedSubmissionRejection = false := rfl
        refine wp_bind (wp_releaseFails (fun s ok => wp_throw.2 ?_) (fun _ => trivial))
        unfold handleFailedSubmission
        simp only [hrev, hconf]
        refine wp_bind (wp_bind (wp_pure.2 (wp_pure.2 (wp_throw.2 ?_))))
        exact .unsent _ r ok _ (by rw [hd]; rfl) rfl

theorem wp_executePlaceOrder (ha : input.Admits) (request : PlaceOrderRequest) {d : Desk} (hd : d.events = []) :
    wp (executePlaceOrder C Z R request input) (fun order d' => PlaceEnd input d.risk d' (.ok order))
      (fun e d' => PlaceEnd input d.risk d' (.error e)) (fun _ => True) d := by
  unfold executePlaceOrder
  refine wp_bind (wp_lift (fun _ _ => ?_) (fun _ _ => .refused _ _ hd))
  refine wp_bind (wp_attempt.2 (wp_within.2 (wp_mono (RiskService.wp_reserveOrder _ _ _ _ _) ?_ ?_ (fun _ _ => trivial))))
  · intro r s hr
    refine wp_bind (wp_modify.2 (wp_executeReserved ha (by simp [hd]) ?_))
    rcases hr with ⟨hn, -⟩ | ⟨-, -, hk, f, -, rfl⟩
    · intro hc; rw [hn] at hc; cases hc
    · intro _
      have hkey := RiskService.reserved_key d.risk (d.risk.keyAt Z input.nowMs input.utcNow) input.nowMs
      have hocc := RiskService.reserved_occupied d.risk (d.risk.keyAt Z input.nowMs input.utcNow) input.nowMs
      rw [hk]
      exact (if_pos hkey).trans hocc
  · intro v s _
    exact wp_throw.2 (.refused _ _ hd)

end Place

/-! ## Both together -/

/-- The journal call came back and its write went through: a failed one is answered
with `OrderSubmissionUnknown`. -/
def Placed.written (p : Placed) (id : String) : Prop :=
  match p.journal with
  | .ok _ _ _ => True
  | .err e _ _ => e ≠ .orderSubmissionUnknown id
  | .crashed _ => False

def PlaceEvent.isRelease : PlaceEvent → Bool
  | .released _ => true
  | _ => false

section Both

variable {K : Crates} {J : RecordCodec} {C : UsageCodec} {Z : Calendar} {R : RiskDecimals} {scope : String}
  {request : PlaceOrderRequest} {input : PlaceInput} {localNow : ℕ} {m : JournalDir} {desk : Desk} {fj fr : List Fault}

/-- A placement that came back did nothing, or it ended in one of the six ways and the
journal settled its answer. -/
theorem placeOnce_cases (ha : input.Admits) (hd : desk.events = []) {p : Placed}
    (hp : placeOnce K J C Z R scope request input localNow m desk fj fr = some p) :
    p.desk.events = [] ∨ ∃ answer id, PlaceEnd input desk.risk p.desk answer ∧ request.orderLinkId = some id ∧
      scope ≠ "" ∧ validateIdentity id = .ok () ∧ SettledAs K J scope id answer (p.written id) p.journal.state := by
  have hplace : wp (executePlaceOrder C Z R request input) _ _ _ desk := wp_executePlaceOrder ha request hd
  have hplace := hplace fr
  have key : ∀ answer done, PlaceEnd input desk.risk done answer →
      p = submitPlaced K J scope request localNow m fj desk answer done → p.desk.events = [] ∨
        ∃ answer id, PlaceEnd input desk.risk p.desk answer ∧ request.orderLinkId = some id ∧ scope ≠ "" ∧
          validateIdentity id = .ok () ∧ SettledAs K J scope id answer (p.written id) p.journal.state := by
    rintro answer done hend rfl
    have hj : wp (submitOnce K J scope request localNow answer) _ _ _ m := wp_submitOnce_outcome
    have hj := hj fj
    by_cases hlog : (submitOnce K J scope request localNow answer m fj).state.log.length = m.log.length
    · refine .inl ?_
      simp only [submitPlaced, hlog, if_true]
      exact hd
    · have hdesk : (submitPlaced K J scope request localNow m fj desk answer done).desk = done := by
        simp only [submitPlaced, hlog, if_false]
      refine .inr ?_
      rw [hdesk]
      unfold Placed.written submitPlaced
      dsimp only
      cases hm : submitOnce K J scope request localNow answer m fj with
      | ok o m' rest =>
        rw [hm] at hj hlog
        obtain ⟨id, h⟩ := hj hlog
        exact ⟨answer, id, hend, h⟩
      | err e m' rest =>
        rw [hm] at hj hlog
        obtain ⟨id, h⟩ := hj hlog
        exact ⟨answer, id, hend, h⟩
      | crashed m' =>
        rw [hm] at hj hlog
        obtain ⟨id, h⟩ := hj hlog
        exact ⟨answer, id, hend, h⟩
  unfold placeOnce at hp
  cases hm : executePlaceOrder C Z R request input desk fr with
  | ok order done rest =>
    rw [hm] at hp hplace
    exact key _ done hplace (Option.some.inj hp).symm
  | err e done rest =>
    rw [hm] at hp hplace
    exact key _ done hplace (Option.some.inj hp).symm
  | crashed done => rw [hm] at hp; cases hp

end Both

/-- **The quota and the journal.** For every placement that comes back, with any
answers of its closures, any rejection `pass` can return and any failing write: its
reservation is given back at most once, and only when the order was not handed over
or failed certainly; then the journal's outcome, if it could be written, is
rejected. When the exchange answered anything but a certain failure the reservation
is still counted, and when it answered an order or an error that does not rule out
its acceptance the journal's outcome is not rejected; when it answered one of the
other errors the outcome, if it could be written, is rejected. -/
theorem quota_journal (K : Crates) (J : RecordCodec) (C : UsageCodec) (Z : Calendar) (R : RiskDecimals)
    (scope : String) (request : PlaceOrderRequest) (input : PlaceInput) (localNow : ℕ) (m : JournalDir) (desk : Desk)
    (journalFaults riskFaults : List Fault) (p : Placed) (ha : input.Admits) (hd : desk.events = [])
    (hp : placeOnce K J C Z R scope request input localNow m desk journalFaults riskFaults = some p) :
    p.desk.events.countP PlaceEvent.isRelease ≤ 1 ∧
    (.released true ∈ p.desk.events →
      .submitted ∉ p.desk.events ∨ ∃ e, input.submit = .error e ∧ e.isCertainSubmissionFailure = true) ∧
    (.released true ∈ p.desk.events → ∃ id, request.orderLinkId = some id ∧
      (p.written id → ∃ r, stored K J scope p.journal.state.disk id = some r ∧ r.outcome = .rejected)) ∧
    (.submitted ∈ p.desk.events → (∀ e, input.submit = .error e → e.isCertainSubmissionFailure = false) →
      (∀ ok, .released ok ∉ p.desk.events) ∧ ∃ r, .reserved r ∈ p.desk.events ∧ CountedIn desk.risk p.desk.risk r) ∧
    (.submitted ∈ p.desk.events → (∀ e, input.submit = .error e → e.definitelyNotAccepted = false) →
      ∀ id r, request.orderLinkId = some id → stored K J scope p.journal.state.disk id = some r → r.outcome ≠ .rejected) ∧
    (.submitted ∈ p.desk.events → ∀ e, input.submit = .error e → e.definitelyNotAccepted = true →
      ∃ id, request.orderLinkId = some id ∧
        (p.written id → ∃ r, stored K J scope p.journal.state.disk id = some r ∧ r.outcome = .rejected)) := by
  rcases placeOnce_cases ha hd hp with hnone | ⟨answer, id, hend, hid, hscope, hvalid, hset⟩
  · simp [hnone]
  -- what the journal holds, in the words of the two tests
  have hrej : ∀ e, answer = .error e → e.definitelyNotAccepted = true → ∃ id, request.orderLinkId = some id ∧
      (p.written id → ∃ r, stored K J scope p.journal.state.disk id = some r ∧ r.outcome = .rejected) := by
    rintro e rfl hdef
    refine ⟨id, hid, fun hw => ?_⟩
    simp only [SettledAs, hdef, if_true] at hset
    obtain ⟨r, hv, hl, ho⟩ := hset hw
    subst hl
    exact ⟨r, stored_of_view hscope hv, ho⟩
  have hacc : (∀ e, answer = .error e → e.definitelyNotAccepted = false) → ∀ id' r, request.orderLinkId = some id' →
      stored K J scope p.journal.state.disk id' = some r → r.outcome ≠ .rejected := by
    intro hdef id' r hid' hr
    obtain rfl : id = id' := Option.some.inj (hid.symm.trans hid')
    have hnr : NotRejected K J scope p.journal.state (K.identityHash id) := by
      cases answer with
      | ok o => exact hset
      | error e => simpa [SettledAs, hdef e rfl] using hset
    exact hnr r (stored_view hr).1
  cases hend with
  | refused _ events => simp [events]
  | unsent r ok e events known =>
    refine ⟨by simp [events, PlaceEvent.isRelease, List.countP_cons], fun _ => .inl (by simp [events]),
      fun _ => hrej _ rfl known, ?_, ?_, ?_⟩ <;> simp [events]
  | accepted r order events counted sent =>
    refine ⟨by simp [events, PlaceEvent.isRelease], by simp [events], by simp [events],
      fun _ _ => ⟨by simp [events], r, by simp [events], counted⟩, fun _ _ => hacc (by simp), fun _ e he => ?_⟩
    rw [sent] at he; cases he
  | uncertain r e events counted sent hunc =>
    refine ⟨by simp [events, PlaceEvent.isRelease], by simp [events], by simp [events],
      fun _ _ => ⟨by simp [events], r, by simp [events], counted⟩, fun _ hdef => hacc ?_, fun _ e' he' hdef => ?_⟩
    · rintro e' he'
      cases he'
      exact hdef e sent
    · rw [sent] at he'
      cases he'
      exact hrej _ rfl hdef
  | certain r ok e e' events sent hcert known =>
    refine ⟨by simp [events, PlaceEvent.isRelease, List.countP_cons], fun _ => .inr ⟨e, sent, hcert⟩,
      fun _ => hrej _ rfl known, fun _ hunc => ?_, fun _ hdef => ?_, fun _ _ _ _ => hrej _ rfl known⟩
    · have := hunc e sent
      rw [hcert] at this; cases this
    · have := hdef e sent
      rw [definitelyNotAccepted_of_certain hcert] at this; cases this

/-! ## A run -/

/-- The first submission of a journal, under no fault, for an error that rules out the
order's acceptance. -/
theorem submitOnce_refused {K : Crates} {C : RecordCodec} {scope id : String} {request : PlaceOrderRequest} {nowMs : ℕ}
    {e : AppError} (hs : scope ≠ "") (hid : request.orderLinkId = some id) (hv : validateIdentity id = .ok ())
    (hw : request.protection.all OrderProtection.validateShape = true) (he : e.definitelyNotAccepted = true)
    (hn : e.isNotified = false) :
    ∃ m', submitOnce K C scope request nowMs (.error e) ⟨∅, []⟩ [] = .err (.orderSubmissionRejected e.userMessage) m' [] ∧
      stored K C scope m'.disk id = some { newRecord scope id request nowMs with outcome := .rejected } ∧
      m'.log.length = 1 := by
  have hempty : ∀ s, Machine.get (⟨∅, []⟩ : JournalDir) (.record (K.identityHash id) s) = none := fun _ => rfl
  have hnone : get K C scope id ⟨∅, []⟩ [] = .ok none ⟨∅, []⟩ [] := get_run hs hv (readRecord_none hempty)
  obtain ⟨m₁, h₁⟩ : ∃ m', begin K C scope request nowMs ⟨∅, []⟩ [] = .ok (newRecord scope id request nowMs) m' [] :=
    begin_run hs hid hv hempty
  have hbegin : wp (begin K C scope request nowMs) _ (fun _ _ => True) (fun _ => True) ⟨∅, []⟩ :=
    wp_begin hid (current_none.2 hempty) (fun _ _ => trivial)
  have hrun := hbegin []
  rw [h₁] at hrun
  -- the record can be read, so the outcome can be written
  set m₂ := m₁.called ⟨request, m₁.disk⟩ with hm₂
  have hview : view K C scope m₂ (K.identityHash id) = .readable (newRecord scope id request nowMs) := by
    have hcur : current m₂ (K.identityHash id) = some (C.encode (newRecord scope id request nowMs)) := hrun.2.2.2
    have hcheck : checkRecord K C scope (K.identityHash id) none (C.encode (newRecord scope id request nowMs)) =
        .ok (newRecord scope id request nowMs) :=
      checkRecord_ok.2 ⟨C.decode_of_wire hw, rfl, hv, rfl, (fun _ h => nomatch h), hid, rfl⟩
    rw [view_of_current hcur]
    unfold viewOf
    rw [hcheck]
  obtain ⟨m₃, h₃, hst, hlog⟩ : ∃ m', finish K C scope id .rejected m₂ [] = .ok () m' [] ∧
      stored K C scope m'.disk id = some { newRecord scope id request nowMs with outcome := .rejected } ∧ m'.log = m₂.log :=
    finish_run (r := newRecord scope id request nowMs) hs hview hw .rejected
  have hvalid : request.orderLinkId.filter (fun id => id ≠ "" ∧ byteLen id ≤ 36) = some id := by
    rw [hid, Option.filter_some, if_pos (by simpa using ensure_eq_ok.1 hv)]
  have hcall : (Io.attempt (invoke (fun files => ⟨request, files⟩) (.error e : AppResult Order)) : Journal _) m₁ [] =
      .ok (.error e) m₂ [] := rfl
  have hsettle : settle K C scope id (newRecord scope id request nowMs) (.error e) m₂ [] =
      .err (.orderSubmissionRejected e.userMessage) m₃ [] := by
    unfold settle
    simp only [he, if_true]
    refine (Io.bind_of_ok (Io.mapErr_of_ok h₃)).trans ?_
    rw [hn]
    rfl
  refine ⟨m₃, (Io.bind_of_ok (Io.lift_of_ok (okOr_eq_ok.2 hvalid))).trans
    ((Io.bind_of_ok (Io.mapErr_of_ok hnone)).trans ((Io.bind_of_ok (Io.mapErr_of_ok (listPending_empty hs))).trans
      ((Io.bind_of_ok (Io.mapErr_of_ok h₁)).trans ((Io.bind_of_ok hcall).trans hsettle)))), hst, ?_⟩
  rw [hlog, hm₂, Machine.called, List.length_append, hrun.2.1.only.log]
  rfl

namespace RiskSample

/-- A market order with the client identity `a`. -/
def linked : PlaceOrderRequest := { request with orderLinkId := some "a" }

/-- A placement that the exchange answers with `submit`. -/
def placing (submit : AppResult Order) : PlaceInput where
  submissionId := "a"
  referencePrice := none
  nowMs := now
  utcNow := 0
  admission := none
  prepare := .ok ()
  submit := submit
  blockNotice := none
  rejectionNotice := none

/-- The desk of an account that has not traded, with room for one order a day. -/
def desk : Desk := ⟨⟨config 1 "Asia/Shanghai", none, none, ⟨∅, []⟩⟩, []⟩

/-- The first order is reserved and handed over, and the session turns out not to be
connected. -/
theorem handed_over : ∃ s r, executePlaceOrder codec calendar decimals linked (placing (.error .notConnected)) desk [] =
    .err .notConnected ⟨s, [.reserved r, .submitted]⟩ [] := by
  obtain ⟨f, hf, -, -⟩ : ∃ f, RiskService.reserveOrder codec calendar decimals linked none now 0 desk.risk [] = _ ∧ _ ∧ _ :=
    RiskService.reserveOrder_run (valid 1 "Asia/Shanghai") (by decide) ⟨rfl, rfl, by decide⟩ rfl
  exact ⟨_, _, (Io.bind_of_ok (Io.lift_of_ok (ensure_of (by decide)))).trans
    ((Io.bind_of_ok (Io.attempt_of_ok (Io.within_of_ok hf))).trans rfl)⟩

/-- It is placed through an empty journal. -/
theorem placed : ∃ s r,
    placeOnce Crates.sample sampleCodec codec calendar decimals "main" linked (placing (.error .notConnected)) 0 ⟨∅, []⟩
      desk [] [] =
    some (submitPlaced Crates.sample sampleCodec "main" linked 0 ⟨∅, []⟩ [] desk (.error .notConnected)
      ⟨s, [.reserved r, .submitted]⟩) := by
  obtain ⟨s, r, hrun⟩ := handed_over
  refine ⟨s, r, ?_⟩
  unfold placeOnce
  rw [hrun]

end RiskSample

/-- An order that fails before it is sent, as the session is not connected. -/
theorem quota_journal_unconnected : ∃ p,
    placeOnce Crates.sample sampleCodec RiskSample.codec RiskSample.calendar RiskSample.decimals "main" RiskSample.linked
      (RiskSample.placing (.error .notConnected)) 0 ⟨∅, []⟩ RiskSample.desk [] [] = some p ∧
    p.desk.events.countP PlaceEvent.isRelease ≤ 1 := by
  obtain ⟨s, r, hp⟩ := RiskSample.placed
  exact ⟨_, hp, (quota_journal _ _ _ _ _ _ _ _ _ _ _ _ _ _ (fun e he => by cases he) rfl hp).1⟩

/-- The exchange's answer is not a certain failure, so the reservation stays; the
journal takes it for a rejection. -/
theorem unconnected_rejected : ∃ p,
    placeOnce Crates.sample sampleCodec RiskSample.codec RiskSample.calendar RiskSample.decimals "main" RiskSample.linked
      (RiskSample.placing (.error .notConnected)) 0 ⟨∅, []⟩ RiskSample.desk [] [] = some p ∧
    .submitted ∈ p.desk.events ∧ AppError.notConnected.isCertainSubmissionFailure = false ∧
    ∃ r, stored Crates.sample sampleCodec "main" p.journal.state.disk "a" = some r ∧ r.outcome = .rejected := by
  obtain ⟨s, r, hp⟩ := RiskSample.placed
  obtain ⟨m', hm', hstored, hlog⟩ : ∃ m', submitOnce Crates.sample sampleCodec "main" RiskSample.linked 0
      (.error .notConnected) ⟨∅, []⟩ [] = _ ∧ _ ∧ _ := submitOnce_refused (by decide) rfl (by decide) rfl rfl rfl
  have hrec : ∃ r, stored Crates.sample sampleCodec "main" m'.disk "a" = some r ∧ r.outcome = .rejected :=
    ⟨_, hstored, rfl⟩
  refine ⟨_, hp, ?_, rfl, ?_⟩
  · simp [submitPlaced, hm', Outcome.state, hlog]
  · simpa only [submitPlaced, hm', Outcome.state] using hrec

end EasiFlux
