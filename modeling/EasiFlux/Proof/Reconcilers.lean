import EasiFlux.Proof.Canonical

/-!
# Two reconcilers of one journal

The account screen and a strategy's recovery settle the same pending record, the one
from leniently read rows, the other from the row `query_exact` accepts. On an
accepted row the two readers agree on identity and status (`mapper_agrees`); the
reconcilers agree unless that status is `Rejected`, which the screen records as an
accepted order.
-/

namespace EasiFlux

open CrashIo Fixed Results OrderSubmissionStore

/-! ## Reading a row twice -/

section Rows

variable {raw : Json} {keys : List String} {s : String}

/-- Aliases that do not contradict each other hold one string, or nothing. -/
theorem get_of_agrees (ha : agrees raw keys = true) (hf : raw.first keys = some (.string s)) :
    ∀ key ∈ keys, raw.get key = none ∨ raw.get key = some (.string s) := by
  intro key hk
  have hhead : (keys.filterMap raw.get).head? = some (.string s) := by rw [List.head?_filterMap]; exact hf
  cases hg : raw.get key with
  | none => exact .inl rfl
  | some v =>
    have hmem : v ∈ keys.filterMap raw.get := List.mem_filterMap.2 ⟨key, hk, hg⟩
    unfold agrees at ha
    cases hl : keys.filterMap raw.get with
    | nil => rw [hl] at hhead; cases hhead
    | cons a rest =>
      rw [hl] at ha hhead hmem
      obtain rfl := Option.some.inj hhead
      rcases List.mem_cons.1 hmem with rfl | hrest
      · exact .inr rfl
      · exact .inr (congrArg some (Json.eq_of_beq_string (List.all_eq_true.1 ha v hrest)))

/-- The lenient reader takes the string the strict one takes. -/
theorem getStr_of_first (ha : agrees raw keys = true) (hf : raw.first keys = some (.string s)) :
    Mapper.getStr raw keys = some s := by
  have hall := get_of_agrees ha hf
  clear ha
  unfold Mapper.getStr
  unfold Json.first at hf
  induction keys with
  | nil => cases hf
  | cons key rest ih =>
    rw [List.findSome?_cons] at hf ⊢
    rcases hall key (List.mem_cons_self ..) with hn | hs
    · rw [hn] at hf ⊢
      exact ih hf fun k hk => hall k (List.mem_cons_of_mem _ hk)
    · rw [hs]

theorem first_of_text (h : text raw keys = .ok s) : raw.first keys = some (.string s) := by
  simp only [text, bind_eq_ok, okOr_eq_ok, pure_eq_ok] at h
  obtain ⟨s', hs', -, -, rfl⟩ := h
  cases hf : raw.first keys with
  | none => rw [hf] at hs'; cases hs'
  | some v =>
    rw [hf] at hs'
    cases v <;> simp_all [Json.asStr]

theorem first_of_rowLink (h : rowLink raw = .ok (some s)) : raw.first orderLinkKeys = some (.string s) := by
  unfold rowLink at h
  split at h
  · cases h
  · cases h
  · rename_i s' hs'
    split at h
    · cases h
    · split at h
      · obtain rfl := Option.some.inj (Except.ok.inj h)
        exact hs'
      · cases h
  · cases h

end Rows

/-- What the two readers make of a row without contradictions. -/
theorem mapper_agrees {quotient : Decimal → Decimal → Option String} {raw : Json} {order : Order}
    (ha : rejectConflictingAliases raw = .ok ()) (h : parseRow quotient raw = .ok order) :
    (Mapper.parseOrder raw).orderId = order.orderId ∧ (Mapper.parseOrder raw).symbol = order.symbol ∧
      (Mapper.parseOrder raw).status = order.status ∧
      ∀ id, order.orderLinkId = some id → (Mapper.parseOrder raw).orderLinkId = some id := by
  have hgroup : ∀ g ∈ aliasGroups, agrees raw g = true := List.all_eq_true.1 (ensure_eq_ok.1 ha)
  simp only [parseRow, bind_eq_ok, pure_eq_ok] at h
  obtain ⟨status, hst, link, hlink, orderType, -, price, -, orderId, hid, symbol, hsym, side, -, qty, -, filled, -, avg, -, rfl⟩ := h
  have hread : ∀ keys ∈ aliasGroups, ∀ s, text raw keys = .ok s → Mapper.getStr raw keys = some s :=
    fun keys hk s ht => getStr_of_first (hgroup keys hk) (first_of_text ht)
  refine ⟨?_, ?_, ?_, ?_⟩
  · simp only [Mapper.parseOrder, hread orderIdKeys (by simp [aliasGroups]) _ hid, Option.getD_some]
  · simp only [Mapper.parseOrder, hread symbolKeys (by simp [aliasGroups]) _ hsym, Option.getD_some]
  · simp only [Mapper.parseOrder, hread statusKeys (by simp [aliasGroups]) _ hst, Option.getD_some]
  · rintro id rfl
    exact getStr_of_first (hgroup orderLinkKeys (by simp [aliasGroups])) (first_of_rowLink hlink)

/-! ## The row that is read -/

/-- The row that is read in the answers: the first endpoint's, or the second's when the
first has none. -/
def OrderAnswers.Row (answers : OrderAnswers) (raw : Json) : Prop :=
  onlyRow answers.openOrders = .ok (some raw) ∨
    onlyRow answers.openOrders = .ok none ∧ onlyRow answers.orders = .ok (some raw)

theorem findRow_some {α : Type} {check : Json → AppResult α} {answers : OrderAnswers} {a : α} :
    findRow check answers = .ok (some a) ↔ ∃ raw, answers.Row raw ∧ check raw = .ok a := by
  unfold findRow OrderAnswers.Row
  cases ho : onlyRow answers.openOrders with
  | error e => simp [Bind.bind, Except.bind]
  | ok x =>
    cases x with
    | some raw =>
      simp only [ok_bind, bind_eq_ok, pure_eq_ok, Option.some.injEq, Except.ok.injEq]
      constructor
      · rintro ⟨b, hb, rfl⟩
        exact ⟨raw, .inl rfl, hb⟩
      · rintro ⟨raw', rfl | ⟨h, -⟩, hb⟩
        · exact ⟨a, hb, rfl⟩
        · cases h
    | none =>
      cases hr : onlyRow answers.orders with
      | error e => simp [Bind.bind, Except.bind]
      | ok y =>
        cases y with
        | none => simp
        | some raw =>
          simp only [ok_bind, bind_eq_ok, pure_eq_ok, Option.some.injEq, Except.ok.injEq]
          constructor
          · rintro ⟨b, hb, rfl⟩
            exact ⟨raw, .inr ⟨trivial, rfl⟩, hb⟩
          · rintro ⟨raw', h | ⟨-, rfl⟩, hb⟩
            · cases h
            · exact ⟨a, hb, rfl⟩

/-- What an order that `query_exact` returns was checked for. -/
structure ExactOrder (quotient : Decimal → Decimal → Option String) (symbolValue : String) (submission exchange : Option String)
    (request : Option PlaceOrderRequest) (raw : Json) (order : Order) : Prop where
  aliases : rejectConflictingAliases raw = .ok ()
  parsed : parseRow quotient raw = .ok order
  valid : validateOrder order symbolValue = .ok ()
  link : ∀ id ∈ submission, order.orderLinkId = some id
  id : ∀ id ∈ exchange, order.orderId = id
  placement : ∀ r ∈ request, matchesRequest order r = .ok () ∧ sameTerms raw r = .ok ()

theorem exactOrder_ok {quotient : Decimal → Decimal → Option String} {symbolValue : String} {submission exchange : Option String}
    {request : Option PlaceOrderRequest} {raw : Json} {order : Order}
    (h : exactOrder quotient symbolValue submission exchange request raw = .ok order) :
    ExactOrder quotient symbolValue submission exchange request raw order := by
  simp only [exactOrder, bind_eq_ok, mapError_eq_ok, ensure_eq_ok] at h
  obtain ⟨_, h1, o, h2, _, h3, _, ⟨h4, h5⟩, _, _, _, _, h⟩ := h
  have hrest : o = order ∧ ∀ r ∈ request, exactPlacement raw o r = .ok () := by
    cases request with
    | none =>
      simp only [pure_eq_ok] at h
      exact ⟨h, by rintro _ ⟨⟩⟩
    | some r =>
      simp only [bind_eq_ok, pure_eq_ok] at h
      obtain ⟨_, hp, rfl⟩ := h
      refine ⟨rfl, fun r' hr' => ?_⟩
      obtain rfl := Option.some.inj hr'
      exact hp
  obtain ⟨rfl, hp⟩ := hrest
  refine ⟨h1, h2, h3, h4, h5, fun r hr => ?_⟩
  have hpl := hp r hr
  simp only [exactPlacement, bind_eq_ok] at hpl
  obtain ⟨_, hm, hpl⟩ := hpl
  split at hpl
  · obtain ⟨_, -, ht⟩ := bind_eq_ok.1 hpl
    exact ⟨hm, ht⟩
  · exact ⟨hm, hpl⟩

/-! ## Settling a pending record -/

section Settle

variable {K : Crates} {C : RecordCodec} {quotient : Decimal → Decimal → Option String} {scope id : String} {m : JournalDir}
  {r : StoredSubmission} {order : Order}

theorem recordedRequest_of_stored (hr : stored K C scope m.disk id = some r) :
    recordedRequest K C scope m (some id) = some r.request := by
  unfold stored at hr
  unfold recordedRequest
  rw [Option.bind_some]
  cases hg : get K C scope id ⟨m.disk, []⟩ [] with
  | ok x m' rest =>
    rw [hg] at hr
    simp only at hr
    rw [hr]
  | err e m' rest => rw [hg] at hr; cases hr
  | crashed m' => rw [hg] at hr; cases hr

/-- A request that passes the strict check can be read back. -/
theorem wire_of_validateRequest (h : validateRequest K id r.request = .ok ()) : r.wire = true := by
  obtain ⟨-, -, -, -, -, -, hp, -⟩ := validateRequest_ok.1 h
  unfold StoredSubmission.wire
  cases hprot : r.request.protection with
  | none => rfl
  | some p => exact (hp p hprot).2

theorem symbol_of_validateRequest {request : PlaceOrderRequest} (h : validateRequest K id request = .ok ()) :
    symbol request.symbol = .ok () := by
  obtain ⟨tif, reduceOnly, canonical, -, -, hc, -⟩ := validateRequest_ok.1 h
  simp only [canonicalRequest, bind_eq_ok, mapError_eq_ok] at hc
  obtain ⟨_, -, o, ho, -⟩ := hc
  exact (validatePlace_ok.1 ho).2.2.1

/-- The outcome the strategy's recovery finishes a pending record with. -/
def recoveredOutcome (order : Order) : SubmissionOutcome :=
  if order.status = .rejected then .rejected else .accepted order

variable (hr : stored K C scope m.disk id = some r) (hp : r.outcome = .pending)

include hr

/-- A `finish` of the record that comes back is the outcome that is stored. -/
theorem wp_finish_stored (hw : r.wire = true) (outcome : SubmissionOutcome) :
    wp (finish K C scope id outcome) (fun _ m' => stored K C scope m'.disk id = some { r with outcome := outcome })
      (fun _ _ => True) (fun _ => True) m := by
  obtain ⟨hv, rfl⟩ := view_of_stored hr
  refine wp_mono (wp_finish_of (r := r) (fun r' hr' => ?_) outcome) (fun _ m' h => ?_) (fun _ _ _ => trivial)
    (fun _ _ => trivial)
  · rw [hv] at hr'
    exact ⟨(View.readable.inj hr').symm, hw⟩
  · exact stored_of_view (r := { r with outcome := outcome }) (scope_of_stored hr) h.1

theorem finish_stored (hw : r.wire = true) (outcome : SubmissionOutcome) :
    ∃ m', finish K C scope id outcome m [] = .ok () m' [] := by
  obtain ⟨hv, rfl⟩ := view_of_stored hr
  obtain ⟨m', h, -⟩ := finish_run (scope_of_stored hr) hv hw outcome
  exact ⟨m', h⟩

/-- The record that is stored is the one that is read. -/
theorem wp_get_stored : wp (get K C scope id) (fun x m' => m' = m ∧ x = some r) (fun _ m' => m' = m) (fun m' => m' = m) m := by
  obtain ⟨hv, rfl⟩ := view_of_stored hr
  refine wp_mono wp_get (fun x m' h => ⟨h.1, ?_⟩) (fun _ _ h => h) (fun _ h => h)
  cases x with
  | none =>
    have := h.2
    unfold Reads at this
    rw [hv] at this
    cases this
  | some r' => exact congrArg some (View.readable.inj (h.2.1.symm.trans hv))

include hp

/-- The strategy's recovery of a pending record finishes it by the status of the row. -/
theorem wp_strategyReconcile_pending (hval : validateRequest K id r.request = .ok ()) :
    wp (strategyReconcile K C scope scope r.request.symbol (some id) none (.ok (some order)))
      (fun _ m' => stored K C scope m'.disk id = some { r with outcome := recoveredOutcome order })
      (fun e m' => e = strategyRejected → stored K C scope m'.disk id = some { r with outcome := recoveredOutcome order })
      (fun _ => True) m := by
  have hun : unavailable ≠ strategyRejected := by decide
  unfold strategyReconcile
  refine wp_bind (wp_lift (fun _ _ => wp_bind (wp_lift (fun _ _ => ?_) (fun e he => ?_))) (fun e he => ?_))
  · unfold reconcileSubmission
    refine wp_bind (wp_mapErr.2 (wp_mono (wp_get_stored hr) (fun x m' hx => ?_) (fun _ _ _ he => absurd he hun)
      (fun _ _ => trivial)))
    obtain ⟨rfl, rfl⟩ := hx
    simp only [hval, hp]
    refine wp_bind (wp_lift (fun _ _ => wp_bind (wp_lift (fun _ _ => wp_bind (wp_lift (fun x hx => ?_) (fun e he => ?_)))
      (fun e he => ?_))) (fun e he => ?_))
    · obtain rfl := Except.ok.inj hx
      simp only
      have hfin := wp_finish_stored hr (wire_of_validateRequest hval) (recoveredOutcome order)
      split
      · rename_i hst
        rw [recoveredOutcome, if_pos hst] at hfin ⊢
        exact wp_bind (wp_mapErr.2 (wp_mono hfin (fun _ m'' h => wp_throw.2 fun _ => h) (fun _ _ _ he => absurd he hun)
          (fun _ _ => trivial)))
      · rename_i hst
        rw [recoveredOutcome, if_neg hst] at hfin ⊢
        exact wp_bind (wp_mapErr.2 (wp_mono hfin (fun _ m'' h => wp_pure.2 h) (fun _ _ _ he => absurd he hun)
          (fun _ _ => trivial)))
    all_goals cases he
  · rw [symbol_of_validateRequest hval] at he
    cases he
  · rw [ensure_of ⟨scope_of_stored hr, rfl⟩] at he
    cases he

theorem strategyReconcile_run (hval : validateRequest K id r.request = .ok ()) :
    ∃ m', strategyReconcile K C scope scope r.request.symbol (some id) none (.ok (some order)) m [] =
      if order.status = .rejected then .err strategyRejected m' [] else .ok (some order) m' [] := by
  obtain ⟨m', hfin⟩ := finish_stored hr (wire_of_validateRequest hval) (recoveredOutcome order)
  have hsym : ((symbol r.request.symbol).mapError fun _ => unavailable) = .ok () := by
    rw [symbol_of_validateRequest hval]; rfl
  refine ⟨m', (Io.bind_of_ok (Io.lift_of_ok (ensure_of ⟨scope_of_stored hr, rfl⟩))).trans
    ((Io.bind_of_ok (Io.lift_of_ok hsym)).trans ((Io.bind_of_ok (Io.mapErr_of_ok (get_of_stored hr))).trans
      ((Io.bind_of_ok (Io.lift_of_ok hval)).trans ((Io.bind_of_ok (Io.lift_of_ok (ensure_of rfl))).trans ?_))))⟩
  rw [hp]
  refine (Io.bind_of_ok (Io.lift_of_ok rfl)).trans ?_
  simp only
  split
  · rename_i hst
    rw [recoveredOutcome, if_pos hst] at hfin
    exact Io.bind_of_ok (Io.mapErr_of_ok hfin)
  · rename_i hst
    rw [recoveredOutcome, if_neg hst] at hfin
    exact Io.bind_of_ok (Io.mapErr_of_ok hfin)

/-- The account screen finishes a pending record as accepted, whatever the status of
the first order it finds. -/
theorem wp_reconcile_pending {orders : List Order} (hw : r.wire = true)
    (ho : orders.find? (fun order => order.orderLinkId = some id ∧ order.symbol = r.request.symbol ∧ !isBlank order.orderId) =
      some order) :
    wp (reconcile K C scope id (.ok orders))
      (fun _ m' => stored K C scope m'.disk id = some { r with outcome := .accepted order })
      (fun _ _ => True) (fun _ => True) m := by
  unfold reconcile
  refine wp_bind (wp_mono (wp_get_stored hr) (fun x m' hx => ?_) (fun _ _ _ => trivial) (fun _ _ => trivial))
  obtain ⟨rfl, rfl⟩ := hx
  simp only [hp]
  refine wp_bind (wp_lift (fun os hos => ?_) (fun _ _ => trivial))
  obtain rfl := Except.ok.inj hos
  rw [ho]
  exact wp_bind (wp_mono (wp_finish_stored hr hw _) (fun _ m'' h => wp_pure.2 h) (fun _ _ _ => trivial)
    (fun _ _ => trivial))

theorem reconcile_run {orders : List Order} (hw : r.wire = true)
    (ho : orders.find? (fun order => order.orderLinkId = some id ∧ order.symbol = r.request.symbol ∧ !isBlank order.orderId) =
      some order) : ∃ m', reconcile K C scope id (.ok orders) m [] = .ok (some order) m' [] := by
  obtain ⟨m', hfin⟩ := finish_stored hr hw (.accepted order)
  refine ⟨m', (Io.bind_of_ok (get_of_stored hr)).trans ?_⟩
  simp only [hp]
  refine (Io.bind_of_ok (Io.lift_of_ok rfl)).trans ?_
  rw [ho]
  exact Io.bind_of_ok hfin

end Settle

/-- The two outcomes are of one kind, with the id of the row. -/
def AlikeOutcomes (order : Order) (strict lenient : SubmissionOutcome) : Prop :=
  if order.status = .rejected then strict = .rejected ∧ lenient = .rejected
  else ∃ a b, strict = .accepted a ∧ lenient = .accepted b ∧ a.orderId = order.orderId ∧ b.orderId = order.orderId

/-- A recovery that finished its record: it returned the order, or that the order was
rejected. -/
def Recovered (o : Outcome JournalDir AppError (Option Order)) (m : JournalDir) : Prop :=
  (∃ x rest, o = .ok x m rest) ∨ ∃ rest, o = .err strategyRejected m rest

/-- The reconcilers settle the record of `id` alike: under no fault both finish it, and
whenever both do their outcomes are alike. -/
def SettleAlike (K : Crates) (C : RecordCodec) (quotient : Decimal → Decimal → Option String) (scope id : String) (m : JournalDir)
    (r : StoredSubmission) (order : Order) (answers : OrderAnswers) (orders : List Order) : Prop :=
  (∃ m₁, Recovered (strategyReconcileLocked K C quotient scope scope r.request.symbol (some id) none answers m []) m₁) ∧
  (∃ x m₂ rest, reconcile K C scope id (.ok orders) m [] = .ok x m₂ rest) ∧
  ∀ fs₁ fs₂ m₁ m₂ x rest,
    Recovered (strategyReconcileLocked K C quotient scope scope r.request.symbol (some id) none answers m fs₁) m₁ →
    reconcile K C scope id (.ok orders) m fs₂ = .ok x m₂ rest →
    ∃ o₁ o₂, stored K C scope m₁.disk id = some { r with outcome := o₁ } ∧
      stored K C scope m₂.disk id = some { r with outcome := o₂ } ∧ AlikeOutcomes order o₁ o₂

/-- **The two reconcilers agree unless the order was rejected.** For every pending
record with a canonical request, every row that the strategy's recovery accepts for
it, and the same row as the account screen reads it, with any other rows after it. -/
theorem reconcilers_agree (K : Crates) (C : RecordCodec) (quotient : Decimal → Decimal → Option String) (scope id : String)
    (m : JournalDir) (r : StoredSubmission) (answers : OrderAnswers) (raw : Json) (order : Order) (rest : List Order)
    (hr : stored K C scope m.disk id = some r) (hp : r.outcome = .pending) (hval : validateRequest K id r.request = .ok ())
    (hrow : answers.Row raw) (hex : exactOrder quotient r.request.symbol (some id) none (some r.request) raw = .ok order) :
    SettleAlike K C quotient scope id m r order answers (Mapper.parseOrder raw :: rest) ↔ order.status ≠ .rejected := by
  have hx := exactOrder_ok hex
  have hquery : queryExact quotient r.request.symbol (some id) none (recordedRequest K C scope m (some id)) answers =
      .ok (some order) := by
    rw [recordedRequest_of_stored hr]
    exact findRow_some.2 ⟨raw, hrow, hex⟩
  have hstrict : strategyReconcileLocked K C quotient scope scope r.request.symbol (some id) none answers m =
      strategyReconcile K C scope scope r.request.symbol (some id) none (.ok (some order)) m := by
    unfold strategyReconcileLocked
    rw [hquery]
  -- the lenient reader finds the row too
  obtain ⟨hid, hsym, hst, hlink⟩ := mapper_agrees hx.aliases hx.parsed
  have hw := wire_of_validateRequest hval
  have hfind : (Mapper.parseOrder raw :: rest).find?
      (fun order => order.orderLinkId = some id ∧ order.symbol = r.request.symbol ∧ !isBlank order.orderId) =
      some (Mapper.parseOrder raw) := by
    have hv := hx.valid
    simp only [validateOrder, bind_eq_ok, ensure_eq_ok] at hv
    obtain ⟨_, ⟨hb, hs, -⟩, -⟩ := hv
    refine List.find?_cons_of_pos ?_
    simp only [hlink id (hx.link id rfl), hsym, hs, hid, true_and, decide_eq_true_eq]
    simp only [boundedId, Bool.and_eq_true] at hb
    exact hb.1.1
  -- what each of them records, if it returns
  have hset : ∀ fs₁ m₁, Recovered (strategyReconcileLocked K C quotient scope scope r.request.symbol (some id) none answers m fs₁)
      m₁ → stored K C scope m₁.disk id = some { r with outcome := recoveredOutcome order } := by
    intro fs₁ m₁ hrec
    have hwp : wp (strategyReconcile K C scope scope r.request.symbol (some id) none (.ok (some order))) _ _ _ m :=
      wp_strategyReconcile_pending hr hp hval
    have hspec := hwp fs₁
    rw [hstrict] at hrec
    rcases hrec with ⟨x, rest, h⟩ | ⟨rest, h⟩
    · rw [h] at hspec; exact hspec
    · rw [h] at hspec; exact hspec rfl
  have hlen : ∀ fs₂ x m₂ rest', reconcile K C scope id (.ok (Mapper.parseOrder raw :: rest)) m fs₂ = .ok x m₂ rest' →
      stored K C scope m₂.disk id = some { r with outcome := .accepted (Mapper.parseOrder raw) } := by
    intro fs₂ x m₂ rest' h
    have hspec := wp_reconcile_pending hr hp hw hfind fs₂
    rw [h] at hspec
    exact hspec
  -- without a fault both return
  obtain ⟨m₁, hrun₁⟩ : ∃ m', strategyReconcile K C scope scope r.request.symbol (some id) none (.ok (some order)) m [] = _ :=
    strategyReconcile_run hr hp hval
  have hrec₁ : Recovered (strategyReconcileLocked K C quotient scope scope r.request.symbol (some id) none answers m []) m₁ := by
    rw [hstrict, hrun₁]
    split
    · exact .inr ⟨[], rfl⟩
    · exact .inl ⟨_, [], rfl⟩
  obtain ⟨m₂, hrun₂⟩ := reconcile_run hr hp hw hfind
  constructor
  · rintro ⟨-, -, halike⟩ hrej
    -- the strategy records a rejection here, and the account screen an acceptance
    obtain ⟨o₁, o₂, -, h₂, ha⟩ := halike [] [] m₁ m₂ _ _ hrec₁ hrun₂
    rw [AlikeOutcomes, if_pos hrej] at ha
    rw [hlen [] _ m₂ _ hrun₂, ha.2] at h₂
    have := congrArg StoredSubmission.outcome (Option.some.inj h₂)
    cases this
  · intro hne
    refine ⟨⟨m₁, hrec₁⟩, ⟨_, m₂, _, hrun₂⟩, fun fs₁ fs₂ m₁ m₂ x rest' h₁ h₂ => ?_⟩
    refine ⟨_, _, hset fs₁ m₁ h₁, hlen fs₂ x m₂ rest' h₂, ?_⟩
    rw [AlikeOutcomes, if_neg hne, recoveredOutcome, if_neg hne]
    exact ⟨order, Mapper.parseOrder raw, rfl, rfl, rfl, hid⟩

/-! ## A rejected order -/

namespace Sample

/-- The digest of the client identity `04` besides. -/
def crates : Crates :=
  { Crates.sample with
    identityHash := fun id =>
      if id = uuid "04" then "ca55ceea2bd0618bfde6675690a3dc40b6b9311064e2772f89b60492ca0ee60c"
      else Crates.sample.identityHash id }

/-- A pending market order of a strategy. -/
def submission : StoredSubmission where
  schemaVersion := 1
  scope := "main"
  orderLinkId := uuid "04"
  request := canonicalPlacement ⟨"BTC", "Buy", "Market", "1.5", none, "IOC", 1, false⟩ (uuid "04") none
  createdAtMs := 0
  outcome := .pending
  acknowledged := false

noncomputable def journal : JournalDir :=
  ⟨(∅ : Disk FileName).insert (.record (crates.identityHash (uuid "04")) .main) (sampleCodec.encode submission), []⟩

/-- The row of the order, with this status. -/
def row (status : String) : Json :=
  .object [("avg_price", .string "0"), ("cum_exec_qty", .string "0"), ("order_id", .string "x"),
    ("order_link_id", .string (uuid "04")), ("order_status", .string status), ("order_type", .string "Market"),
    ("position_idx", .int 1), ("price", .string ""), ("qty", .string "1.5"), ("reduce_only", .bool false),
    ("side", .string "Buy"), ("symbol", .string "BTC"), ("time_in_force", .string "ImmediateOrCancel")]

def answers (status : String) : OrderAnswers := ⟨.ok (.object [("data", .array [row status])]), .ok .null⟩

def rowOrder (status : OrderStatus) : Order := ⟨"x", "BTC", "Buy", "Market", "", "1.5", status, some (uuid "04"), "0", "0"⟩

theorem stored_submission : stored crates sampleCodec "main" journal.disk (uuid "04") = some submission := by
  have hget : get crates sampleCodec "main" (uuid "04") ⟨journal.disk, []⟩ [] =
      .ok (some submission) ⟨journal.disk, []⟩ [] :=
    get_of_main (r := submission) (by decide) (AList.lookup_insert _) (by decide) (by decide +kernel) rfl rfl rfl
  unfold stored
  rw [hget]

theorem valid_submission : validateRequest crates (uuid "04") submission.request = .ok () := by decide +kernel

end Sample

/-- The row of an order that is new. -/
theorem reconcilers_agree_new :
    SettleAlike Sample.crates sampleCodec (fun _ _ => none) "main" (Sample.uuid "04") Sample.journal Sample.submission
      (Sample.rowOrder .new) (Sample.answers "New") [Mapper.parseOrder (Sample.row "New")] :=
  (reconcilers_agree _ _ _ _ _ _ _ _ (Sample.row "New") _ [] Sample.stored_submission rfl Sample.valid_submission (.inl rfl)
    (by decide +kernel)).2 (by decide)

/-- The row of an order the exchange rejected: the recovery records it as rejected, the
account screen as accepted. -/
theorem rejected_accepted :
    (∃ m₁, strategyReconcileLocked Sample.crates sampleCodec (fun _ _ => none) "main" "main" "BTC" (some (Sample.uuid "04"))
        none (Sample.answers "Rejected") Sample.journal [] = .err strategyRejected m₁ [] ∧
      stored Sample.crates sampleCodec "main" m₁.disk (Sample.uuid "04") =
        some { Sample.submission with outcome := .rejected }) ∧
    ∃ m₂, reconcile Sample.crates sampleCodec "main" (Sample.uuid "04") (.ok [Mapper.parseOrder (Sample.row "Rejected")])
        Sample.journal [] = .ok (some (Sample.rowOrder .rejected)) m₂ [] ∧
      stored Sample.crates sampleCodec "main" m₂.disk (Sample.uuid "04") =
        some { Sample.submission with outcome := .accepted (Sample.rowOrder .rejected) } := by
  have hquery : strategyReconcileLocked Sample.crates sampleCodec (fun _ _ => none) "main" "main" "BTC"
      (some (Sample.uuid "04")) none (Sample.answers "Rejected") Sample.journal =
      strategyReconcile Sample.crates sampleCodec "main" "main" "BTC" (some (Sample.uuid "04")) none
        (.ok (some (Sample.rowOrder .rejected))) Sample.journal := by
    unfold strategyReconcileLocked
    rw [recordedRequest_of_stored Sample.stored_submission, show queryExact (fun _ _ => none) "BTC" (some (Sample.uuid "04"))
      none (some Sample.submission.request) (Sample.answers "Rejected") = .ok (some (Sample.rowOrder .rejected)) by
        decide +kernel]
  constructor
  · obtain ⟨m₁, hrun⟩ : ∃ m', strategyReconcile Sample.crates sampleCodec "main" "main" "BTC" (some (Sample.uuid "04")) none
        (.ok (some (Sample.rowOrder .rejected))) Sample.journal [] = .err strategyRejected m' [] :=
      strategyReconcile_run Sample.stored_submission rfl Sample.valid_submission
    have hwp : wp (strategyReconcile Sample.crates sampleCodec "main" "main" "BTC" (some (Sample.uuid "04")) none
        (.ok (some (Sample.rowOrder .rejected)))) _ _ _ Sample.journal :=
      wp_strategyReconcile_pending Sample.stored_submission rfl Sample.valid_submission
    have hspec := hwp []
    rw [hrun] at hspec
    exact ⟨m₁, by rw [hquery, hrun], hspec rfl⟩
  · have hfind : [Mapper.parseOrder (Sample.row "Rejected")].find? (fun order => order.orderLinkId = some (Sample.uuid "04") ∧
        order.symbol = Sample.submission.request.symbol ∧ !isBlank order.orderId) = some (Sample.rowOrder .rejected) := by
      decide +kernel
    obtain ⟨m₂, hrun⟩ := reconcile_run Sample.stored_submission rfl (by decide) hfind
    have hspec := wp_reconcile_pending Sample.stored_submission rfl (by decide) hfind []
    rw [hrun] at hspec
    exact ⟨m₂, hrun, hspec⟩

end EasiFlux
