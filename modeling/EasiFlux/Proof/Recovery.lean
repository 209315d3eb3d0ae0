import EasiFlux.Proof.Reconcilers

/-!
# What a recovery may conclude

`reconcile_owned` resolves the pending action of a run from what the journal and the
exchange say. `Shown` lists what shows that an action took effect, and
`RejectionShown` what shows that it did not.

* `wp_askHost`: the host answers on no less.
* `confirmHost_congr`: the acknowledgement of an order that was found asks nothing more.
* `recovery_evidence`: a recovery without such evidence leaves every document alone.
-/

namespace EasiFlux

open CrashIo Fixed Results OrderSubmissionStore

variable {K : Crates} {C : RecordCodec} {quotient : Decimal → Decimal → Option String}

/-! ## Evidence -/

/-- What shows that the pending action of a run took effect, as the order `o`. -/
inductive Shown (K : Crates) (C : RecordCodec) (quotient : Decimal → Decimal → Option String) (m : JournalDir) (ρ : Recovery)
    (answers : OrderAnswers) (o : Order) : Prop
  /-- the journal holds the order -/
  | recorded (proposal : PlaceProposal) (id : String) (record : StoredSubmission)
      (action : ρ.pending.action = .placeOrder proposal) (submission : ρ.pending.submissionId = some id)
      (journal : stored K C ρ.record.scope m.disk id = some record) (accepted : record.outcome = .accepted o)
      (same : matchesPlacement ρ.pending proposal o = true)
  /-- the exchange has it, under the identity of the submission -/
  | placed (proposal : PlaceProposal) (id : String) (record : StoredSubmission) (raw : Json)
      (action : ρ.pending.action = .placeOrder proposal) (submission : ρ.pending.submissionId = some id)
      (journal : stored K C ρ.record.scope m.disk id = some record) (pending : record.outcome = .pending)
      (row : answers.Row raw)
      (exact : exactOrder quotient ρ.record.view.symbol (some id) none (some record.request) raw = .ok o)
      (live : o.status ≠ .rejected) (same : matchesPlacement ρ.pending proposal o = true)
  /-- it has the protected order of the very request -/
  | guarded (proposal : PlaceProposal) (protection : OrderProtection) (id : String) (record : StoredSubmission) (raw : Json)
      (action : ρ.pending.action = .placeProtectedOrder proposal protection) (submission : ρ.pending.submissionId = some id)
      (journal : stored K C ρ.record.scope m.disk id = some record)
      (request : record.request = canonicalPlacement proposal id (some protection))
      (known : ∀ a, record.outcome = .accepted a → a.orderId = o.orderId) (row : answers.Row raw)
      (exact : exactOrder quotient record.request.symbol (some id) none (some record.request) raw = .ok o)
      (live : o.status ≠ .rejected) (same : matchesPlacement ρ.pending proposal o = true)
  /-- the order to cancel has ended -/
  | cancelled (target : CancelProposal) (raw : Json) (action : ρ.pending.action = .cancelOrder target) (row : answers.Row raw)
      (exact : exactOrder quotient ρ.record.view.symbol none (some target.orderId) none raw = .ok o)
      (ended : o.status = .filled ∨ o.status = .cancelled ∨ o.status = .rejected)
  /-- the order to amend has the new price and quantity -/
  | amended (target : AmendProposal) (original : PlaceOrderRequest) (client : String) (raw : Json)
      (action : ρ.pending.action = .amendOrder target)
      (owned : (ρ.record.owned.lookup target.orderId).bind (·.placement) = some original)
      (link : original.orderLinkId = some client) (row : answers.Row raw)
      (exact : amendRow quotient target original client raw = .ok o) (price : samePrice o.price (some target.price) = true)
      (qty : samePrice o.qty (some target.qty) = true)

/-- What shows that a pending placement was not accepted. -/
def RejectionShown (K : Crates) (C : RecordCodec) (quotient : Decimal → Decimal → Option String) (m : JournalDir) (ρ : Recovery)
    (answers : OrderAnswers) : Prop :=
  ∃ proposal id record, ρ.pending.action = .placeOrder proposal ∧ ρ.pending.submissionId = some id ∧
    stored K C ρ.record.scope m.disk id = some record ∧ (record.outcome = .rejected ∨ record.outcome = .pending ∧
      ∃ raw o, answers.Row raw ∧ exactOrder quotient ρ.record.view.symbol (some id) none (some record.request) raw = .ok o ∧
        o.status = .rejected)

/-! ## Errors that say nothing -/

/-- An error that does not say the order was rejected. -/
def Silent (e : AppError) : Prop := knownRejection e = false

instance (e : AppError) : Decidable (Silent e) := inferInstanceAs (Decidable (_ = _))

theorem silent_unavailable : Silent unavailable := by decide

section Silent

variable {raw : Json} {keys : List String} {request : PlaceOrderRequest} {order : Order}

theorem text_silent : ErrorsIn Silent (text raw keys) :=
  .bind (.okOr silent_unavailable) fun _ => .bind (.ensure silent_unavailable) fun _ => .pure

theorem number_silent : ErrorsIn Silent (number raw keys) :=
  .bind text_silent fun _ => .bind (.mapError silent_unavailable) fun _ => .pure

theorem exactNumber_silent : ErrorsIn Silent (exactNumber raw keys) :=
  .bind number_silent fun _ => .okOr silent_unavailable

theorem rowLink_silent : ErrorsIn Silent (rowLink raw) := by
  unfold rowLink
  split
  · exact .ok
  · exact .ok
  · split
    · exact .ok
    · split
      · exact .ok
      · exact .error silent_unavailable
  · exact .error silent_unavailable

theorem rowPrice_silent {orderType : String} : ErrorsIn Silent (rowPrice raw orderType) := by
  unfold rowPrice
  split
  · exact .ok
  · exact number_silent

theorem averageFill_silent : ErrorsIn Silent (averageFill quotient raw) := by
  unfold averageFill
  split
  · exact number_silent
  · refine .bind exactNumber_silent fun qty => ?_
    split
    · exact .pure
    · exact .bind exactNumber_silent fun _ => .bind (.ensure silent_unavailable) fun _ => .okOr silent_unavailable

theorem parseRow_silent : ErrorsIn Silent (parseRow quotient raw) :=
  .bind text_silent fun _ => .bind rowLink_silent fun _ => .bind text_silent fun _ => .bind rowPrice_silent fun _ =>
    .bind text_silent fun _ => .bind text_silent fun _ => .bind text_silent fun _ => .bind number_silent fun _ =>
    .bind number_silent fun _ => .bind averageFill_silent fun _ => .pure

theorem soundNumbers_silent : ErrorsIn Silent (soundNumbers order) := by
  have hexact : ∀ value, ErrorsIn Silent (exact value) := fun _ => .okOr silent_unavailable
  unfold soundNumbers
  refine .bind (hexact _) fun qty => .bind (.ensure silent_unavailable) fun _ => .bind (hexact _) fun _ =>
    .bind (.ensure silent_unavailable) fun _ => .bind (hexact _) fun _ => .bind (.ensure silent_unavailable) fun _ => ?_
  split
  · exact .bind (hexact _) fun _ => .bind (.ensure silent_unavailable) fun _ => .ensure silent_unavailable
  · exact .ensure silent_unavailable

theorem matchesRequest_silent : ErrorsIn Silent (matchesRequest order request) :=
  .bind (.mapError silent_unavailable) fun _ => .bind (.ensure silent_unavailable) fun _ =>
    .bind (.mapError silent_unavailable) fun _ => .bind (.mapError silent_unavailable) fun _ => .ensure silent_unavailable

theorem sameTerms_silent : ErrorsIn Silent (sameTerms raw request) :=
  .bind text_silent fun _ => .bind (.okOr silent_unavailable) fun _ => .bind (.okOr silent_unavailable) fun _ =>
    .bind (.okOr silent_unavailable) fun _ => .ensure silent_unavailable

theorem optionalRawText_silent {snake camel : String} : ErrorsIn Silent (optionalRawText raw snake camel) := by
  unfold optionalRawText
  split
  · split
    · exact .bind (.okOr silent_unavailable) fun _ => .pure
    · exact .error silent_unavailable
  · exact .bind (.okOr silent_unavailable) fun _ => .pure
  · exact .bind (.okOr silent_unavailable) fun _ => .pure
  · exact .ok

theorem strictLeg_silent {expected trigger : Option String} {price triggerBy : String × String} :
    ErrorsIn Silent (strictLeg raw expected trigger price triggerBy) := by
  unfold strictLeg
  refine .bind optionalRawText_silent fun _ => .bind optionalRawText_silent fun _ => ?_
  split
  · exact .bind (.okOr silent_unavailable) fun _ => .ensure silent_unavailable
  · exact .ensure silent_unavailable

theorem exactPlacement_silent : ErrorsIn Silent (exactPlacement raw order request) := by
  unfold exactPlacement
  refine .bind matchesRequest_silent fun _ => ?_
  split
  · exact .bind (.bind (.ensure silent_unavailable) fun _ => .bind strictLeg_silent fun _ => strictLeg_silent)
      fun _ => sameTerms_silent
  · exact sameTerms_silent

theorem exactOrder_silent {symbolValue : String} {submission exchange : Option String} {request : Option PlaceOrderRequest} :
    ErrorsIn Silent (exactOrder quotient symbolValue submission exchange request raw) := by
  unfold exactOrder
  refine .bind (.ensure silent_unavailable) fun _ => .bind parseRow_silent fun _ => .bind (.mapError silent_unavailable) fun _ =>
    .bind (.ensure silent_unavailable) fun _ => .bind (.ensure silent_unavailable) fun _ => .bind soundNumbers_silent fun _ => ?_
  cases request with
  | none => exact .pure
  | some r => exact .bind exactPlacement_silent fun _ => .pure

theorem list_silent : ∀ (depth : ℕ) (v : Json), ErrorsIn Silent (list depth v)
  | 0, _ => .error silent_unavailable
  | depth + 1, v => by
    unfold list
    split
    · exact .ok
    · split
      · exact list_silent depth _
      · exact .error silent_unavailable
    · exact .error silent_unavailable

theorem onlyRow_silent {answer : AppResult Json} : ErrorsIn Silent (onlyRow answer) := by
  unfold onlyRow
  refine .bind (.mapError silent_unavailable) fun payload => .bind (list_silent 4 payload) fun items => ?_
  split
  · exact .pure
  · exact .pure
  · exact .error silent_unavailable

theorem findRow_silent {α : Type} {check : Json → AppResult α} {answers : OrderAnswers}
    (hc : ∀ raw, ErrorsIn Silent (check raw)) : ErrorsIn Silent (findRow check answers) := by
  unfold findRow
  refine .bind onlyRow_silent fun found => ?_
  split
  · exact .bind (hc _) fun _ => .pure
  · refine .bind onlyRow_silent fun found => ?_
    split
    · exact .bind (hc _) fun _ => .pure
    · exact .pure

/-- A failed query of an order says nothing of it. -/
theorem queryExact_silent {symbolValue : String} {submission exchange : Option String} {request : Option PlaceOrderRequest}
    {answers : OrderAnswers} : ErrorsIn Silent (queryExact quotient symbolValue submission exchange request answers) :=
  findRow_silent fun _ => exactOrder_silent

theorem canonicalRequest_silent {id : String} {proposal : PlaceProposal} :
    ErrorsIn Silent (canonicalRequest K id proposal) := by
  have htif : ∀ s, ErrorsIn Silent (exchangeTimeInForce s) := by
    intro s
    unfold exchangeTimeInForce
    split
    · exact .ok
    · exact .ok
    · exact .ok
    · exact .error (by decide)
  exact .bind (.ensure silent_unavailable) fun _ => .bind (.mapError silent_unavailable) fun _ => .bind (htif _) fun _ => .pure

theorem validateRequest_silent {id : String} : ErrorsIn Silent (validateRequest K id request) :=
  .bind (.okOr silent_unavailable) fun _ => .bind (.okOr silent_unavailable) fun _ => .bind canonicalRequest_silent fun _ =>
    .bind (.ensure silent_unavailable) fun _ => .ensure silent_unavailable

end Silent

/-! ## The host -/

section Host

variable {m : JournalDir} {scope current symbolValue : String} {answers : OrderAnswers}

/-- Whatever `get` returns is what is stored. -/
theorem wp_get_is_stored {id : String} : wp (get K C scope id)
    (fun x m' => m' = m ∧ x = stored K C scope m.disk id) (fun _ m' => m' = m) (fun m' => m' = m) m := by
  refine wp_mono (wp_and wp_get wp_get_scope) (fun x m' h => ⟨h.1.1, ?_⟩) (fun _ _ h => h.1) (fun _ h => h.1)
  obtain ⟨⟨-, hx⟩, hs⟩ := h
  cases x with
  | some r =>
    obtain rfl := hx.2 id rfl
    exact (stored_of_view hs hx.1).symm
  | none =>
    cases hst : stored K C scope m.disk id with
    | none => rfl
    | some r =>
      obtain ⟨hv, rfl⟩ := view_of_stored hst
      rw [show view K C scope m (K.identityHash r.orderLinkId) = .absent from hx] at hv
      cases hv

/-- The answers of `strategy_reconcile_locked` for a submission. -/
theorem wp_reconcileSubmission {id : String} {query : AppResult (Option Order)} (hq : ErrorsIn Silent query) :
    wp (reconcileSubmission K C scope symbolValue id query)
      (fun x m' => ∀ o, x = some o → ∃ r, stored K C scope m.disk id = some r ∧
        (r.outcome = .accepted o ∨ r.outcome = .pending ∧ query = .ok (some o)) ∧ o.status ≠ .rejected ∧
        ∃ r', stored K C scope m'.disk id = some r' ∧ r'.outcome = .accepted o)
      (fun e _ => knownRejection e → ∃ r, stored K C scope m.disk id = some r ∧
          (r.outcome = .rejected ∨ r.outcome = .pending ∧ ∃ o, query = .ok (some o) ∧ o.status = .rejected))
      (fun _ => True) m := by
  have hsilent : ∀ {e : AppError} {P : Prop}, Silent e → knownRejection e → P :=
    fun he hk => absurd (he.symm.trans hk) Bool.false_ne_true
  unfold reconcileSubmission
  refine wp_bind (wp_mapErr.2 (wp_mono wp_get_is_stored (fun x m' hx => ?_) (fun _ _ _ => hsilent silent_unavailable)
    (fun _ _ => trivial)))
  obtain ⟨rfl, rfl⟩ := hx
  cases hst : stored K C scope m'.disk id with
  | none => exact wp_pure.2 fun o ho => nomatch ho
  | some r =>
    simp only
    refine wp_bind (wp_lift (fun _ hval => ?_) (fun e he => hsilent (validateRequest_silent e he)))
    refine wp_bind (wp_lift (fun _ _ => ?_) (fun e he => hsilent (ErrorsIn.ensure silent_unavailable e he)))
    have hfin := wp_finish_stored hst (wire_of_validateRequest hval)
    cases ho : r.outcome with
    | accepted order =>
      simp only
      refine wp_bind (wp_lift (fun _ _ => ?_) (fun e he => hsilent (matchesRequest_silent e he)))
      refine wp_bind (wp_lift (fun _ hl => wp_pure.2 ?_) (fun e he => hsilent (ErrorsIn.ensure silent_unavailable e he)))
      rintro o ⟨⟩
      exact ⟨r, rfl, .inl ho, ensure_eq_ok.1 hl, r, hst, ho⟩
    | rejected => exact wp_throw.2 fun _ => ⟨r, rfl, .inl ho⟩
    | pending =>
      simp only
      refine wp_bind (wp_lift (fun x hx => ?_) (fun e he => hsilent (hq e he)))
      cases x with
      | none => exact wp_pure.2 fun o ho => nomatch ho
      | some o =>
        simp only
        split
        · rename_i hrej
          refine wp_bind (wp_mapErr.2 (wp_mono (hfin .rejected) (fun _ _ _ => wp_throw.2 fun _ => ?_)
            (fun _ _ _ => hsilent silent_unavailable) (fun _ _ => trivial)))
          exact ⟨r, rfl, .inr ⟨ho, o, hx, hrej⟩⟩
        · rename_i hlive
          refine wp_bind (wp_mapErr.2 (wp_mono (hfin (.accepted o)) (fun _ m'' hm => wp_pure.2 ?_)
            (fun _ _ _ => hsilent silent_unavailable) (fun _ _ => trivial)))
          rintro _ ⟨⟩
          exact ⟨r, rfl, .inr ⟨ho, hx⟩, hlive, _, hm, rfl⟩

/-- A run of `reconcile` for a submission alone. -/
theorem wp_strategyReconcileLocked {id : String} :
    wp (strategyReconcileLocked K C quotient scope current symbolValue (some id) none answers)
      (fun x m' => ∀ o, x = some o → ∃ r, stored K C scope m.disk id = some r ∧
        (r.outcome = .accepted o ∨ r.outcome = .pending ∧ ∃ raw, answers.Row raw ∧
          exactOrder quotient symbolValue (some id) none (some r.request) raw = .ok o) ∧ o.status ≠ .rejected ∧
        ∃ r', stored K C scope m'.disk id = some r' ∧ r'.outcome = .accepted o)
      (fun e _ => knownRejection e → ∃ r, stored K C scope m.disk id = some r ∧
        (r.outcome = .rejected ∨ r.outcome = .pending ∧ ∃ raw o, answers.Row raw ∧
          exactOrder quotient symbolValue (some id) none (some r.request) raw = .ok o ∧ o.status = .rejected))
      (fun _ => True) m := by
  have hsilent : ∀ {e : AppError} {P : Prop}, Silent e → knownRejection e → P :=
    fun he hk => absurd (he.symm.trans hk) Bool.false_ne_true
  -- the row is matched with the request that is stored
  have hrow : ∀ {r : StoredSubmission} {o : Order}, stored K C scope m.disk id = some r →
      queryExact quotient symbolValue (some id) none (recordedRequest K C scope m (some id)) answers = .ok (some o) →
      ∃ raw, answers.Row raw ∧ exactOrder quotient symbolValue (some id) none (some r.request) raw = .ok o := by
    intro r o hr h
    rw [recordedRequest_of_stored hr] at h
    exact findRow_some.1 h
  show wp (strategyReconcile K C scope current symbolValue (some id) none
    (queryExact quotient symbolValue (some id) none (recordedRequest K C scope m (some id)) answers)) _ _ _ m
  unfold strategyReconcile
  refine wp_bind (wp_lift (fun _ _ => ?_) (fun e he => hsilent (ErrorsIn.ensure silent_unavailable e he)))
  refine wp_bind (wp_lift (fun _ _ => ?_) (fun e he => hsilent (ErrorsIn.mapError silent_unavailable e he)))
  refine wp_mono (wp_reconcileSubmission queryExact_silent) (fun x m' h o ho => ?_) (fun e m' h hk => ?_) (fun _ h => h)
  · obtain ⟨r, hr, hout, hlive, hkept⟩ := h o ho
    refine ⟨r, hr, hout.imp_right fun ⟨hp, hq⟩ => ⟨hp, hrow hr hq⟩, hlive, hkept⟩
  · obtain ⟨r, hr, hout⟩ := h hk
    refine ⟨r, hr, hout.imp_right fun ⟨hp, o, hq, hrej⟩ => ⟨hp, ?_⟩⟩
    obtain ⟨raw, hraw, hex⟩ := hrow hr hq
    exact ⟨raw, o, hraw, hex, hrej⟩

/-- A run of `reconcile` for an order alone; any other pair of identities is refused. -/
theorem wp_strategyReconcileLocked_order {submission exchange : Option String} (h : submission = none ∨ exchange.isSome) :
    wp (strategyReconcileLocked K C quotient scope current symbolValue submission exchange answers)
      (fun x _ => ∀ o, x = some o → ∃ target raw, exchange = some target ∧ answers.Row raw ∧
        exactOrder quotient symbolValue none (some target) none raw = .ok o)
      (fun e _ => Silent e) (fun _ => True) m := by
  show wp (strategyReconcile K C scope current symbolValue submission exchange
    (queryExact quotient symbolValue submission exchange (recordedRequest K C scope m submission) answers)) _ _ _ m
  unfold strategyReconcile
  refine wp_bind (wp_lift (fun _ _ => ?_) (fun e he => ErrorsIn.ensure silent_unavailable e he))
  refine wp_bind (wp_lift (fun _ _ => ?_) (fun e he => ErrorsIn.mapError silent_unavailable e he))
  cases submission with
  | some id =>
    obtain ⟨target, rfl⟩ := Option.isSome_iff_exists.1 (h.resolve_left (Option.some_ne_none id))
    exact wp_throw.2 silent_unavailable
  | none =>
    cases exchange with
    | none => exact wp_throw.2 silent_unavailable
    | some target =>
      refine wp_bind (wp_lift (fun _ _ => ?_) (fun e he => ErrorsIn.ensure silent_unavailable e he))
      refine wp_lift (fun x hx o ho => ?_) (fun e he => queryExact_silent e he)
      obtain ⟨raw, hrow, hex⟩ := findRow_some.1 (ho ▸ hx)
      exact ⟨target, raw, rfl, hrow, hex⟩

theorem wp_reconcileProtected {request : PlaceOrderRequest} {id : String} (hid : request.orderLinkId = some id) :
    wp (strategyReconcileProtectedLocked K C quotient scope current request answers)
      (fun x m' => ∀ o, x = some o → ∃ r, stored K C scope m.disk id = some r ∧ r.request = request ∧
        (∀ a, r.outcome = .accepted a → a.orderId = o.orderId) ∧ o.status ≠ .rejected ∧
        (∃ raw, answers.Row raw ∧ exactOrder quotient request.symbol (some id) none (some request) raw = .ok o) ∧
        ∃ r' a, stored K C scope m'.disk id = some r' ∧ r'.outcome = .accepted a)
      (fun _ _ => True) (fun _ => True) m := by
  unfold strategyReconcileProtectedLocked reconcileProtected
  rw [hid]
  refine wp_bind (wp_lift (fun _ _ => wp_bind (wp_lift (fun id' hid' => ?_) fun _ _ => trivial)) fun _ _ => trivial)
  obtain rfl := Except.ok.inj hid'
  refine wp_bind (wp_lift (fun _ hval => ?_) fun _ _ => trivial)
  refine wp_bind (wp_mapErr.2 (wp_mono wp_get_is_stored (fun x m' hx => ?_) (fun _ _ _ => trivial) (fun _ _ => trivial)))
  obtain ⟨rfl, hx⟩ := hx
  refine wp_bind (wp_lift (fun r hr => wp_bind (wp_lift (fun _ hreq => ?_) fun _ _ => trivial)) fun _ _ => trivial)
  obtain rfl := okOr_eq_ok.1 hr
  obtain ⟨hreq, hnot⟩ := ensure_eq_ok.1 hreq
  have hst := hx.symm
  refine wp_bind (wp_lift (fun y hy => ?_) fun _ _ => trivial)
  cases y with
  | none => exact wp_pure.2 (by rintro _ ⟨⟩)
  | some o =>
    simp only
    refine wp_bind (wp_lift (fun _ hlive => ?_) fun _ _ => trivial)
    have hlive := ensure_eq_ok.1 hlive
    have hrow := findRow_some.1 hy
    cases ho : r.outcome with
    -- a record that is accepted already is compared, one that is pending is finished:
    | accepted known =>
      simp only
      refine wp_bind (wp_lift (fun _ hknown => wp_pure.2 ?_) fun _ _ => trivial)
      rintro _ ⟨⟩
      refine ⟨r, hst, hreq, fun a ha => ?_, hlive, hrow, r, known, hst, ho⟩
      obtain rfl := SubmissionOutcome.accepted.inj (ho.symm.trans ha)
      exact ensure_eq_ok.1 hknown
    | pending =>
      simp only
      refine wp_bind (wp_mapErr.2 (wp_mono (wp_finish_stored hst (wire_of_validateRequest (hreq ▸ hval)) (.accepted o))
        (fun _ m'' hm => wp_pure.2 ?_) (fun _ _ _ => trivial) (fun _ _ => trivial)))
      rintro _ ⟨⟩
      refine ⟨r, hst, hreq, fun a ha => ?_, hlive, hrow, _, o, hm, rfl⟩
      rw [ho] at ha
      cases ha
    | rejected => exact absurd ho hnot

/-- The order to amend, with its new terms. -/
theorem reconcileAmend_ok {target : AmendProposal} {original : PlaceOrderRequest} {o : Order}
    (h : reconcileAmend quotient target original answers = .ok (some o)) :
    ∃ client raw, original.orderLinkId = some client ∧ answers.Row raw ∧ amendRow quotient target original client raw = .ok o ∧
      samePrice o.price (some target.price) = true ∧ samePrice o.qty (some target.qty) = true := by
  simp only [reconcileAmend, queryAmendTarget, bind_eq_ok, pure_eq_ok, okOr_eq_ok, ensure_eq_ok] at h
  obtain ⟨found, ⟨_, -, client, hclient, x, hx, rfl⟩, hif⟩ := h
  obtain ⟨raw, hrow, hex⟩ := findRow_some.1 hx
  split at hif
  · rename_i hsame
    obtain rfl := Option.some.inj hif
    exact ⟨client, raw, hclient, hrow, hex, hsame.1, hsame.2⟩
  · cases hif

end Host

/-! ## The answer -/

/-- The journal holds the pending placement of the run as an accepted one. -/
def Held (K : Crates) (C : RecordCodec) (m : JournalDir) (ρ : Recovery) : Prop :=
  ρ.pending.action.isPlacement → ∀ id, ρ.pending.submissionId = some id →
    ∃ r a, stored K C ρ.record.scope m.disk id = some r ∧ r.outcome = .accepted a

section Answer

variable {m : JournalDir} {current : String} {ρ : Recovery} {answers : OrderAnswers}

theorem recoveryResponse_order {p : PendingAction} {o : Order} {response : AppResult StrategyMutationResponse}
    (h : World.recoveryResponse p (.ok (some o)) = some response) :
    response = .ok (.order o) ∧ matchesResponse p o = true ∧
      ∀ target, p.action = .cancelOrder target → o.status = .filled ∨ o.status = .cancelled ∨ o.status = .rejected := by
  simp only [World.recoveryResponse] at h
  split at h
  · rename_i target hact
    split at h
    · rename_i hm
      exact ⟨(Option.some.inj h).symm, hm.1, fun _ _ => hm.2⟩
    · cases h
  · rename_i hact
    split at h
    · rename_i hm
      exact ⟨(Option.some.inj h).symm, hm, fun target ht => absurd ht (hact target)⟩
    · cases h

theorem recoveryResponse_error {p : PendingAction} {e : AppError} {response : AppResult StrategyMutationResponse}
    (h : World.recoveryResponse p (.error e) = some response) :
    response = .error e ∧ knownRejection e = true ∧ ∃ proposal, p.action = .placeOrder proposal := by
  simp only [World.recoveryResponse] at h
  split at h
  · rename_i proposal hact
    split at h
    · rename_i hk
      exact ⟨(Option.some.inj h).symm, hk, proposal, hact⟩
    · cases h
  · cases h

/-- The host answers a recovery on evidence only. -/
theorem wp_askHost : wp (askHost K C quotient current ρ answers)
    (fun x m' => ∀ o, x = some o → matchesResponse ρ.pending o = true →
      (∀ target, ρ.pending.action = .cancelOrder target → o.status = .filled ∨ o.status = .cancelled ∨ o.status = .rejected) →
      Shown K C quotient m ρ answers o ∧ Held K C m' ρ)
    (fun e _ => ∀ proposal, ρ.pending.action = .placeOrder proposal → knownRejection e = true →
      RejectionShown K C quotient m ρ answers)
    (fun _ => True) m := by
  unfold askHost
  cases hact : ρ.pending.action with
  | none =>
    refine fun fs => ?_
    simp only [matchesResponse, hact]
    split
    · simp
    · exact fun proposal hp => nomatch hp
    · trivial
  | stop =>
    refine fun fs => ?_
    simp only [matchesResponse, hact]
    split
    · simp
    · exact fun proposal hp => nomatch hp
    · trivial
  | placeOrder proposal =>
    simp only
    cases hsub : ρ.pending.submissionId with
    -- without an id nothing can be found:
    | none =>
      refine wp_mono (wp_strategyReconcileLocked_order (.inl rfl)) (fun x m' h o ho => ?_) (fun e m' h _ _ hk => ?_) (fun _ h => h)
      · obtain ⟨target, _, ht, -⟩ := h o ho
        cases ht
      · exact absurd (h.symm.trans hk) Bool.false_ne_true
    | some id =>
      refine wp_mono wp_strategyReconcileLocked (fun x m' h o ho hm _ => ?_) (fun e m' h _ _ hk => ?_) (fun _ h => h)
      · -- the order is the one recorded, or a row of the exchange:
        obtain ⟨r, hr, hout, hlive, r', hr', ho'⟩ := h o ho
        have hsame : matchesPlacement ρ.pending proposal o = true := by
          simpa only [matchesResponse, hact] using hm
        refine ⟨?_, fun _ id' hid' => ?_⟩
        · rcases hout with hacc | ⟨hp, raw, hrow, hex⟩
          · exact .recorded proposal id r hact hsub hr hacc hsame
          · exact .placed proposal id r raw hact hsub hr hp hrow hex hlive hsame
        · obtain rfl := Option.some.inj (hsub.symm.trans hid')
          exact ⟨r', o, hr', ho'⟩
      · obtain ⟨r, hr, hout⟩ := h hk
        exact ⟨proposal, id, r, hact, hsub, hr, hout⟩
  | placeProtectedOrder proposal protection =>
    simp only
    cases hsub : ρ.pending.submissionId with
    | none => exact wp_throw.2 fun _ h => nomatch h
    | some id =>
      refine wp_mono (wp_reconcileProtected rfl) (fun x m' h o ho hm _ => ?_) (fun e m' h _ hp => nomatch hp) (fun _ h => h)
      obtain ⟨r, hr, hreq, hknown, hlive, ⟨raw, hrow, hex⟩, hkept⟩ := h o ho
      refine ⟨.guarded proposal protection id r raw hact hsub hr hreq hknown hrow (hreq ▸ hex) hlive ?_, fun _ id' hid' => ?_⟩
      · simpa only [matchesResponse, hact] using hm
      · obtain rfl := Option.some.inj (hsub.symm.trans hid')
        exact hkept
  | cancelOrder target =>
    simp only
    refine wp_mono (wp_strategyReconcileLocked_order (.inr rfl)) (fun x m' h o ho hm hend => ?_) (fun e m' h _ hp => nomatch hp)
      (fun _ h => h)
    obtain ⟨target', raw, ht, hrow, hex⟩ := h o ho
    obtain rfl := Option.some.inj ht
    exact ⟨.cancelled target raw hact hrow hex (hend target rfl),
      fun hp => by simp [hact, StrategyAction.isPlacement] at hp⟩
  -- an amended order is compared with the placement the run owns:
  | amendOrder target =>
    simp only
    cases hown : (ρ.record.owned.lookup target.orderId).bind (·.placement) with
    | none => exact wp_throw.2 fun _ h => nomatch h
    | some original =>
      refine wp_lift (fun x hx o ho hm _ => ?_) (fun e he _ h => nomatch h)
      obtain rfl := ho
      simp only [strategyReconcileAmendLocked, bind_eq_ok] at hx
      obtain ⟨_, -, hx⟩ := hx
      obtain ⟨client, raw, hlink, hrow, hex, hprice, hqty⟩ := reconcileAmend_ok hx
      exact ⟨.amended target original client raw hact hown hlink hrow hex hprice hqty, fun hp => by simp [hact, StrategyAction.isPlacement] at hp⟩

end Answer

/-! ## The acknowledgement -/

section Acknowledge

variable {m : JournalDir} {scope current id : String} {r : StoredSubmission} {a : Order}
  (hr : stored K C scope m.disk id = some r) (ha : r.outcome = .accepted a)

theorem wp_lift_same {α : Type} (x : AppResult α) :
    wp (Io.lift x : Journal α) (fun _ m' => m' = m) (fun _ _ => True) (fun _ => True) m :=
  wp_lift (fun _ _ => rfl) (fun _ _ => trivial)

include hr ha

/-- The part of an acknowledgement from the reading of the record on. -/
theorem acknowledge_rest_congr (expected : Order) (request : PlaceOrderRequest) (check : StoredSubmission → AppResult Unit)
    (same : AppResult Unit) (q₁ q₂ : AppResult (Option Order)) :
    (do let record ← orUnavailable (get K C scope id)
        let record ← Io.lift (okOr record unavailable)
        Io.lift (check record)
        Io.lift same
        acknowledgeExpected K C scope id expected request record q₁ : Journal Unit) m =
    (do let record ← orUnavailable (get K C scope id)
        let record ← Io.lift (okOr record unavailable)
        Io.lift (check record)
        Io.lift same
        acknowledgeExpected K C scope id expected request record q₂ : Journal Unit) m := by
  refine bind_congr (wp_mapErr.2 (wp_mono (wp_get_stored hr) (fun _ _ h => h) (fun _ _ _ => trivial) (fun _ _ => trivial))) ?_
  rintro _ m' ⟨rfl, rfl⟩
  refine bind_congr (Q := fun record m'' => m'' = m' ∧ record = r) ?_ ?_
  · exact wp_lift (fun record h => ⟨rfl, (Except.ok.inj h).symm⟩) (fun _ _ => trivial)
  · rintro _ _ ⟨rfl, rfl⟩
    refine bind_congr (wp_lift_same _) fun _ m'' hm => ?_
    subst hm
    refine bind_congr (wp_lift_same _) fun _ m'' hm => ?_
    subst hm
    unfold acknowledgeExpected acceptedOrder
    rw [ha]

theorem strategyAcknowledge_congr (expected : Order) (proposal : PlaceProposal) (q₁ q₂ : AppResult (Option Order)) :
    strategyAcknowledge K C scope current id expected proposal q₁ m =
      strategyAcknowledge K C scope current id expected proposal q₂ m := by
  unfold strategyAcknowledge
  refine bind_congr (wp_lift_same _) fun _ m' hm => ?_
  subst hm
  refine bind_congr (wp_lift_same _) fun canonical m'' hm => ?_
  subst hm
  exact acknowledge_rest_congr hr ha ..

theorem acknowledgeProtected_congr (expected : Order) (request : PlaceOrderRequest) (q₁ q₂ : AppResult (Option Order)) :
    acknowledgeProtected K C scope current id expected request q₁ m =
      acknowledgeProtected K C scope current id expected request q₂ m := by
  unfold acknowledgeProtected
  refine bind_congr (wp_lift_same _) fun _ m' hm => ?_
  subst hm
  refine bind_congr (wp_lift_same _) fun _ m'' hm => ?_
  subst hm
  refine bind_congr (wp_lift_same _) fun _ m₃ hm => ?_
  subst hm
  exact acknowledge_rest_congr hr ha ..

end Acknowledge

/-- An acknowledgement of a record that is accepted asks the exchange nothing. -/
theorem confirmHost_congr {m : JournalDir} {current : String} {ρ : Recovery} (hh : Held K C m ρ) (expected : Order)
    (answers₁ answers₂ : OrderAnswers) :
    confirmHost K C quotient current ρ expected answers₁ m = confirmHost K C quotient current ρ expected answers₂ m := by
  unfold Held at hh
  unfold confirmHost
  cases hid : ρ.pending.submissionId with
  | none => cases ρ.pending.action <;> rfl
  | some id =>
    cases hact : ρ.pending.action with
    | placeOrder order =>
      obtain ⟨r, a, hr, ha⟩ := hh (by rw [hact]; rfl) id hid
      exact strategyAcknowledge_congr hr ha ..
    | placeProtectedOrder order protection =>
      obtain ⟨r, a, hr, ha⟩ := hh (by rw [hact]; rfl) id hid
      exact acknowledgeProtected_congr hr ha ..
    | none => rfl
    | stop => rfl
    | cancelOrder target => rfl
    | amendOrder target => rfl

/-! ## The recovery -/

/-- The call came back with `result`, and left `m`. -/
def Returned {α : Type} (outcome : Outcome JournalDir AppError α) (result : AppResult α) (m : JournalDir) : Prop :=
  (∃ a rest, outcome = .ok a m rest ∧ result = .ok a) ∨ ∃ e rest, outcome = .err e m rest ∧ result = .error e

/-- The receipt, the owned orders and the order to acknowledge, if any, that a recovery
goes on with rest on evidence. -/
inductive Justified (K : Crates) (C : RecordCodec) (quotient : Decimal → Decimal → Option String) (m : JournalDir) (ρ : Recovery)
    (answers : OrderAnswers) (r : RunRecord) (receipt : StrategyReceipt) (owned : AList fun _ : String => OwnedOrder) :
    Option Order → Prop
  | rejected (status : receipt.status = .rejected) (same : owned = r.owned) (shown : RejectionShown K C quotient m ρ answers) :
      Justified K C quotient m ρ answers r receipt owned none
  | accepted (o : Order) (status : receipt.status = .accepted) (id : receipt.orderId = some o.orderId)
      (shown : Shown K C quotient m ρ answers o) (entry : acceptedOwned r.owned ρ.pending (some o) = .ok owned) :
      Justified K C quotient m ρ answers r receipt owned
        (if ρ.pending.action.isPlacement ∧ ρ.pending.submissionId.isSome then some o else none)

section Recovery

variable {m m' : JournalDir} {current : String} {ρ : Recovery} {answers : OrderAnswers} {result : AppResult (Option Order)}
  {fs : List Fault}

/-- A response that is accounted for rests on evidence. -/
theorem justified_of_respond {r r' : RunRecord} {next : Option Order} {response : AppResult StrategyMutationResponse}
    (h : Returned (askHost K C quotient current ρ answers m fs) result m')
    (hresp : World.recoveryResponse ρ.pending result = some response) (hr : respondRecord r ρ.pending response = .ok (r', next)) :
    ∃ receipt owned, r' = r.receive ρ.pending receipt owned ∧ Justified K C quotient m ρ answers r receipt owned next ∧
      (next.isSome → Held K C m' ρ) := by
  have hwp : wp (askHost K C quotient current ρ answers) _ _ _ m := wp_askHost
  have hspec := hwp fs
  simp only [respondRecord, bind_eq_ok, okOr_eq_ok, pure_eq_ok, Prod.mk.injEq, ensure_eq_ok] at hr
  obtain ⟨_, -, receipt, hrec, owned, hown, rfl, rfl⟩ := hr
  obtain ⟨⟨kind, _⟩, -, rfl⟩ := Option.map_eq_some_iff.1 hrec
  rcases h with ⟨x, rest, hout, rfl⟩ | ⟨e, rest, hout, rfl⟩
  · rw [hout] at hspec
    cases x with
    | none => cases hresp
    | some o =>
      obtain ⟨rfl, hm, hend⟩ := recoveryResponse_order hresp
      obtain ⟨hshown, hheld⟩ := hspec o rfl hm hend
      simp only [classify, hm, if_true] at hown ⊢
      exact ⟨_, owned, rfl, .accepted o rfl rfl hshown hown, fun _ => hheld⟩
  · rw [hout] at hspec
    obtain ⟨rfl, hk, proposal, hact⟩ := recoveryResponse_error hresp
    simp only [classify, hk, if_true, acceptedOwned, ite_self] at hown ⊢
    obtain rfl := Except.ok.inj hown
    exact ⟨_, r.owned, rfl, .rejected rfl rfl (hspec proposal hact hk), by rintro ⟨⟩⟩

/-- **A recovery never guesses.** For every pending action of a run, every state of the
journal and all answers of the exchange: what `reconcile_owned` does with the answer
of the host either ends the recovery and touches no document, or saves a receipt that
rests on evidence. Without evidence it is the former. The acknowledgement that follows
an accepted placement asks the exchange nothing. -/
theorem recovery_evidence (K : Crates) (C : RecordCodec) (quotient : Decimal → Decimal → Option String) (current : String)
    (w : World) (ρ : Recovery) (m m' : JournalDir) (fs : List Fault) (answers : OrderAnswers) (result : AppResult (Option Order))
    (i : SaveInput) (hρ : w.recovery = some ρ) (hph : ρ.phase = .asking)
    (h : Returned (askHost K C quotient current ρ answers m fs) result m') :
    (w.step K (.recover (.answer result i)) = w.recoverOn ρ none ∨
      ∃ r receipt owned next, w.state ρ.runId = some r ∧ Justified K C quotient m ρ answers r receipt owned next ∧
        w.step K (.recover (.answer result i)) = w.recoverSave K ρ (r.receive ρ.pending receipt owned) i
          (match next with
            | some o => some (.acknowledging o)
            | none => some .ended) none ∧
        ∀ o, next = some o → ∀ answers₁ answers₂,
          confirmHost K C quotient current ρ o answers₁ m' = confirmHost K C quotient current ρ o answers₂ m') ∧
    ((∀ o, ¬ Shown K C quotient m ρ answers o) → ¬ RejectionShown K C quotient m ρ answers →
      w.step K (.recover (.answer result i)) = w.recoverOn ρ none) := by
  have hstep : w.step K (.recover (.answer result i)) = w.recoverAnswer K ρ result i := by
    simp only [World.step, hρ, World.recover, hph]
  -- an answer is of use only if `respond` takes it, which needs evidence
  have hmain : w.recoverAnswer K ρ result i = w.recoverOn ρ none ∨
      ∃ r receipt owned next, w.state ρ.runId = some r ∧ Justified K C quotient m ρ answers r receipt owned next ∧
        w.recoverAnswer K ρ result i = w.recoverSave K ρ (r.receive ρ.pending receipt owned) i
          (match next with
            | some o => some (.acknowledging o)
            | none => some .ended) none ∧ (next.isSome → Held K C m' ρ) := by
    unfold World.recoverAnswer
    split
    · rename_i response r hresp hstate
      split
      · exact .inl rfl
      · rename_i r' next hr
        refine .inr ?_
        split at hresp
        · obtain ⟨receipt, owned, rfl, hj, hheld⟩ := justified_of_respond h hresp hr
          exact ⟨r, receipt, owned, next, hstate, hj, rfl, hheld⟩
        · cases hresp
    · exact .inl rfl
  rw [hstep]
  refine ⟨hmain.imp_right ?_, fun hs hj => hmain.resolve_right ?_⟩
  · rintro ⟨r, receipt, owned, next, hstate, hj, heq, hheld⟩
    refine ⟨r, receipt, owned, next, hstate, hj, heq, ?_⟩
    rintro o rfl answers₁ answers₂
    exact confirmHost_congr (hheld rfl) o answers₁ answers₂
  · rintro ⟨r, receipt, owned, next, -, hjust, -⟩
    cases hjust with
    | rejected _ _ shown => exact hj shown
    | accepted o _ _ shown => exact hs o shown

end Recovery

/-! ## An order that is found -/

namespace Sample

/-- The submission of a run, in the scope of its account. -/
def doubtful : StoredSubmission := { submission with scope := digest.text }

noncomputable def doubtfulJournal : JournalDir :=
  ⟨(∅ : Disk FileName).insert (.record (crates.identityHash (uuid "04")) .main) (sampleCodec.encode doubtful), []⟩

theorem stored_doubtful : stored crates sampleCodec digest.text doubtfulJournal.disk (uuid "04") = some doubtful := by
  have hget : get crates sampleCodec digest.text (uuid "04") ⟨doubtfulJournal.disk, []⟩ [] =
      .ok (some doubtful) ⟨doubtfulJournal.disk, []⟩ [] :=
    get_of_main (r := doubtful) (by decide) (AList.lookup_insert _) (by decide) (by decide +kernel) rfl rfl rfl
  unfold stored
  rw [hget]

def doubtfulAction : PendingAction := ⟨1, place "1.5", some (uuid "04"), "\x7b\x7d", ""⟩

/-- The recovery of a run that has it pending. -/
def recovery : Recovery where
  runId := uuid "03"
  record := { fresh with
    view := { fresh.view with status := .recoveryRequired, actionsSubmitted := 1, totalSubmittedQty := "1.5" }
    fingerprint := "v1:sha256:" ++ digest.text
    scope := digest.text
    pending := some doubtfulAction }
  pending := doubtfulAction
  phase := .asking

def recovering : World := { World.store ⟨1, 1, [recovery.record]⟩ with recovery := some recovery }

end Sample

/-- The recovery finds the order at the exchange. -/
theorem recovery_evidence_new : ∃ m',
    Returned (askHost Sample.crates sampleCodec (fun _ _ => none) Sample.digest.text Sample.recovery (Sample.answers "New")
      Sample.doubtfulJournal []) (.ok (some (Sample.rowOrder .new))) m' ∧
    ∃ receipt owned next, Justified Sample.crates sampleCodec (fun _ _ => none) Sample.doubtfulJournal Sample.recovery
      (Sample.answers "New") Sample.recovery.record receipt owned next := by
  have hquery : askHost Sample.crates sampleCodec (fun _ _ => none) Sample.digest.text Sample.recovery (Sample.answers "New")
      Sample.doubtfulJournal = strategyReconcile Sample.crates sampleCodec Sample.digest.text Sample.digest.text "BTC"
        (some (Sample.uuid "04")) none (.ok (some (Sample.rowOrder .new))) Sample.doubtfulJournal := by
    show strategyReconcileLocked Sample.crates sampleCodec (fun _ _ => none) Sample.digest.text Sample.digest.text "BTC"
      (some (Sample.uuid "04")) none (Sample.answers "New") Sample.doubtfulJournal = _
    unfold strategyReconcileLocked
    rw [recordedRequest_of_stored Sample.stored_doubtful, show queryExact (fun _ _ => none) "BTC" (some (Sample.uuid "04"))
      none (some Sample.doubtful.request) (Sample.answers "New") = .ok (some (Sample.rowOrder .new)) by decide +kernel]
  obtain ⟨m', hrun⟩ : ∃ m', strategyReconcile Sample.crates sampleCodec Sample.digest.text Sample.digest.text "BTC"
      (some (Sample.uuid "04")) none (.ok (some (Sample.rowOrder .new))) Sample.doubtfulJournal [] =
        .ok (some (Sample.rowOrder .new)) m' [] :=
    strategyReconcile_run Sample.stored_doubtful rfl Sample.valid_submission
  have hret : Returned (askHost Sample.crates sampleCodec (fun _ _ => none) Sample.digest.text Sample.recovery
      (Sample.answers "New") Sample.doubtfulJournal []) (.ok (some (Sample.rowOrder .new))) m' :=
    .inl ⟨_, [], by rw [hquery]; exact hrun, rfl⟩
  have hgoes : (Sample.recovering.step Sample.crates
      (.recover (.answer (.ok (some (Sample.rowOrder .new))) Sample.saved))).recovery.isSome = true := by decide +kernel
  refine ⟨m', hret, ?_⟩
  rcases (recovery_evidence Sample.crates sampleCodec (fun _ _ => none) Sample.digest.text Sample.recovering Sample.recovery
    Sample.doubtfulJournal m' [] (Sample.answers "New") (.ok (some (Sample.rowOrder .new))) Sample.saved rfl rfl hret).1 with
    hend | ⟨r, receipt, owned, next, hr, hj, -⟩
  · rw [hend] at hgoes
    cases hgoes
  · obtain rfl : Sample.recovery.record = r := Option.some.inj hr
    exact ⟨receipt, owned, next, hj⟩

end EasiFlux
