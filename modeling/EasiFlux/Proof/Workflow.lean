import EasiFlux.Proof.Grants

/-!
# What a confirmation hands to the host

A proposal is in one place: it is pending, or a confirmation has taken it, or it was sent
(`Once`). Whoever holds the gate finds the grant again that it has found before, up to its
intent (`Inv.standing`). With `StateInv` these are invariants of every step (`Inv.step`).

* `sent_authorized`: what is handed to the host was proposed and is still wanted.
* `sent_once`: no proposal is sent twice, and a receipt reports the host's answer.
* `results_current`: what a run returns.
* `grants_serialized`: how the grants change.
-/

namespace EasiFlux

namespace Workflow

open Results

variable {Params Registry : Type}

/-! ## Calls -/

/-- A call that ends so has sent its proposal. -/
def isReceipt : Option (AppResult Answer) → Bool
  | some (.ok (.receipt _)) => true
  | _ => false

namespace Call

/-- The proposal a confirmation has taken and not sent. -/
def proposal : Call Params → Option Prepared
  | .confirmTaken _ p | .confirmBound _ p _ | .confirmGranted _ p _ _ _ | .confirmChecked _ p _ _ _ => some p
  | _ => none

/-- The confirmation has sent its proposal. -/
def sent : Call Params → Bool
  | .confirmSent .. => true
  | .leaving answer _ | .finished answer => isReceipt answer
  | _ => false

/-- The confirmation has the host's answer. -/
def answered : Call Params → Bool
  | .leaving answer _ | .finished answer => isReceipt answer
  | _ => false

/-- The call holds the gate. -/
def inside : Call Params → Bool
  | .getBound .. | .setBound .. | .runGated _ | .runBound .. | .runGranted _ | .runLeased .. | .runCaptured ..
  | .runRegated .. | .runRebound .. | .confirmTaken .. | .confirmBound .. | .confirmGranted .. | .confirmChecked ..
  | .confirmSent .. => true
  | _ => false

/-- The grant a confirmation has found for its proposal. -/
def found : Call Params → Option (Prepared × Grant)
  | .confirmGranted _ p _ g _ | .confirmChecked _ p _ g _ => some (p, g)
  | _ => none

end Call

section Facts

variable (n : ℕ) (h : History)

/-- What a run knows once it has read its grant. -/
structure FrameInv (f : Frame Params) : Prop where
  intent_le : f.grant.intent ≤ n
  since : Since h.accepted f.accepted f.grant.intent
  epoch : f.binding.epoch = f.advanced
  binding : f.grant.binding = f.binding
  consented : Consented h.applied f.request.pluginId f.grant
  reads : "account.read" ∈ f.grant.capabilities

/-- The snapshot of a run shows what the host has answered it. -/
def Frame.Captured (c : ℕ) (f : Frame Params) (s : Snapshot) : Prop :=
  ∃ x ∈ h.fetched, x.call = c ∧ s.Shows f.binding.authority.account f.request.symbol f.grant.capabilities x.answers

/-- The output of a run is that of its guest. -/
def Frame.Valid (c : ℕ) (f : Frame Params) (s : Snapshot) (output : WorkflowOutput) : Prop :=
  ∃ raw, Produced.mk c (some (.ok raw)) ∈ h.produced ∧
    raw.validate f.request.symbol f.grant.capabilities (s.orders.map (·.items)) = .ok output

/-- The proposal that a run has left behind under the token of its result. -/
structure Returned.Leaves (x : Returned) (token : String) (p : Prepared) : Prop where
  request : p.request = x.request.authority
  binding : p.binding = x.binding
  revision : p.revision = x.grant.revision
  intent : p.intent = x.grant.intent
  output : p.output = x.result.output
  target : p.target = World.cancelTarget x.result.snapshot x.result.output
  confirmation : ∃ expiresAtMs, x.result.confirmation = some ⟨token, expiresAtMs, p.submissionId⟩
  origin : p.origin = ⟨p.origin.number, x.request.symbol, x.grant.capabilities, x.accepted, x.advanced, x.checked.now⟩

def Proposed (token : String) (p : Prepared) : Prop := ∃ x ∈ h.returned, x.Leaves token p

/-- What a confirmation knows of the grant it has found. -/
structure Found (p : Prepared) (current : Binding) (g : Grant) (k : ℕ) : Prop where
  binding : g.binding = current
  newest : Newest (h.accepted.take k) p.request.pluginId g.intent
  le_length : k ≤ h.accepted.length
  consented : Consented h.applied p.request.pluginId g

/-- Between two reads of the grant of a plugin nothing was accepted for it, and the epoch was not
advanced. -/
structure Quiet (id : String) (accepted advanced : ℕ) (checked : Checked) : Prop where
  accepted : ∀ e ∈ (h.accepted.take checked.accepted).drop accepted, e.pluginId ≠ id
  le_length : checked.accepted ≤ h.accepted.length
  advanced : advanced = checked.advanced

/-- What a confirmation knows after its check. -/
structure Current (p : Prepared) (current : Binding) (g : Grant) (checked : Checked) : Prop where
  quiet : Quiet h p.request.pluginId p.origin.accepted p.origin.advanced checked
  now : checked.now < p.origin.preparedAt + World.confirmationNs
  binding : current = p.binding ∧ g.binding = p.binding
  revision : g.revision = p.revision
  consented : Consented h.applied p.request.pluginId g

/-- The call has sent a request, and a receipt is about the host's answer to it. -/
def Receipt (c : ℕ) (r : TradeReceipt) : Prop :=
  ∃ s ∈ h.sent, s.call = c ∧ ∃ x ∈ h.answered, x.call = c ∧
    r = receipt s.token s.prepared.binding.authority.account s.request s.prepared x.response

def AnswerInv (c : ℕ) : Option (AppResult Answer) → Prop
  | some (.ok (.receipt r)) => Receipt h c r
  | some (.ok (.result r)) => ∃ x ∈ h.returned, x.call = c ∧ x.result = r
  | _ => True

def CallInv (c : ℕ) : Call Params → Prop
  | .setReserved r => World.validateGrantRequest r = .ok ()
  | .setAccepted r i | .setBound r i _ _ => World.validateGrantRequest r = .ok () ∧ Change.mk r.pluginId i ∈ h.accepted
  | .runBound _ _ b advanced => b.epoch = advanced
  | .runGranted f | .runLeased f _ => FrameInv n h f
  | .runCaptured f _ s | .runRunning f _ s => FrameInv n h f ∧ f.Captured h c s
  | .runResumed f _ s o | .runRegated f _ s o | .runRebound f _ s o _ => FrameInv n h f ∧ f.Captured h c s ∧ f.Valid h c s o
  | .confirmTaken token p | .confirmBound token p _ => PreparedInv n h p ∧ Proposed h token p
  | .confirmGranted token p current g k => PreparedInv n h p ∧ Proposed h token p ∧ Found h p current g k
  | .confirmChecked token p current g checked => PreparedInv n h p ∧ Proposed h token p ∧ Current h p current g checked
  | .confirmSent token p account call => ∃ s ∈ h.sent, s.call = c ∧ s.token = token ∧ s.prepared = p ∧ s.request = call ∧
      account = p.binding.authority.account
  | .leaving answer _ | .finished answer => AnswerInv h c answer
  | .idle | .getQueued _ | .getBound .. | .runGated _ | .confirmQueued _ => True

/-- What is proposed is what the guest's output was found to be, for the symbol of the run. -/
def Prepared.Proposes (p : Prepared) (capabilities : List String) : Prop :=
  match p.output with
  | .placeOrder order => order.symbol = p.origin.symbol ∧ validatePlace order.symbol capabilities order = .ok order
  | .cancelOrder order => order.symbol = p.origin.symbol ∧ "trade.cancel" ∈ capabilities ∧ "orders.read" ∈ capabilities ∧
    ∃ target ∈ p.target, target.orderId = order.orderId ∧ target.symbol = order.symbol ∧
      (target.status = .new ∨ target.status = .partiallyFilled)
  | .display _ => False

/-- **A result that was returned**: it shows what the user has granted, as the host has answered, the
output of its own guest, which was checked against that, and what was read twice is the same. -/
structure Returned.Current (r : Returned) : Prop where
  quiet : Quiet h r.request.pluginId r.accepted r.advanced r.checked
  consent : ∃ a ∈ h.applied, a.request.pluginId = r.request.pluginId ∧ a.binding = r.binding ∧ a.revision = r.grant.revision ∧
    a.request.capabilities = r.grant.capabilities
  granted : r.grant.binding = r.binding
  rebound : r.rebound = r.binding
  reread : r.reread.binding = r.binding ∧ r.reread.revision = r.grant.revision ∧ r.reread.intent = r.grant.intent
  reads : "account.read" ∈ r.grant.capabilities
  request : r.result.requestId = r.request.requestId ∧ r.result.pluginId = r.request.pluginId
  account : r.result.account = r.binding.authority.account
  snapshot : ∃ x ∈ h.fetched, x.call = r.call ∧
    r.result.snapshot.Shows r.binding.authority.account r.request.symbol r.grant.capabilities x.answers
  valid : ∃ raw, Produced.mk r.call (some (.ok raw)) ∈ h.produced ∧
    raw.validate r.request.symbol r.grant.capabilities (r.result.snapshot.orders.map (·.items)) = .ok r.result.output

/-- **A request that was handed to the host**: a run has returned its proposal with this token, and
the proposal was found current, under a consent of the user that has not been changed since that run,
and stands. -/
structure Authorized (s : Sent) : Prop where
  run : ∃ x ∈ h.returned, x.Current h ∧ x.Leaves s.token s.prepared ∧ x.grant.capabilities = s.capabilities
  quiet : Quiet h s.prepared.request.pluginId s.prepared.origin.accepted s.prepared.origin.advanced s.checked
  now : s.checked.now < s.prepared.origin.preparedAt + World.confirmationNs
  consent : ∃ a ∈ h.applied, a.request.pluginId = s.prepared.request.pluginId ∧ a.binding = s.prepared.binding ∧
    a.revision = s.prepared.revision ∧ a.request.capabilities = s.capabilities
  standing : ∃ g ∈ s.standing, g.binding = s.prepared.binding ∧ g.revision = s.prepared.revision ∧ g.capabilities = s.capabilities
  proposes : s.prepared.Proposes s.capabilities
  request : tradeCall s.prepared.binding.authority.account s.capabilities s.prepared = .ok s.request

end Facts

/-! ## What later steps leave of a fact -/

/-- What the history has recorded of guests, of the host and of the results is still there. -/
structure Recorded (h h' : History) : Prop where
  produced : ∀ x ∈ h.produced, x ∈ h'.produced
  fetched : ∀ x ∈ h.fetched, x ∈ h'.fetched
  returned : ∀ x ∈ h.returned, x ∈ h'.returned
  sent : ∀ x ∈ h.sent, x ∈ h'.sent
  answered : ∀ x ∈ h.answered, x ∈ h'.answered

section Grown

variable {n n' : ℕ} {h h' : History}

theorem Recorded.of_eq (hp : h'.produced = h.produced) (hf : h'.fetched = h.fetched) (hr : h'.returned = h.returned)
    (hs : h'.sent = h.sent) (ha : h'.answered = h.answered) : Recorded h h' :=
  ⟨fun _ hx => hp ▸ hx, fun _ hx => hf ▸ hx, fun _ hx => hr ▸ hx, fun _ hx => hs ▸ hx, fun _ hx => ha ▸ hx⟩

theorem Frame.Captured.grown {c : ℕ} {f : Frame Params} {s : Snapshot} (hf : f.Captured h c s) (hr : Recorded h h') :
    f.Captured h' c s := hf.imp fun x hx => ⟨hr.fetched x hx.1, hx.2⟩

theorem Frame.Valid.grown {c : ℕ} {f : Frame Params} {s : Snapshot} {output : WorkflowOutput} (hf : f.Valid h c s output)
    (hr : Recorded h h') : f.Valid h' c s output := hf.imp fun _ hx => ⟨hr.produced _ hx.1, hx.2⟩

theorem Proposed.grown {token : String} {p : Prepared} (hp : Proposed h token p) (hr : Recorded h h') : Proposed h' token p :=
  hp.imp fun x hx => ⟨hr.returned x hx.1, hx.2⟩

theorem FrameInv.grown {f : Frame Params} (hf : FrameInv n h f) (hg : Grown n n' h h') : FrameInv n' h' f :=
  { hf with
    intent_le := hf.intent_le.trans hg.serial
    since := hg.since hf.intent_le hf.since
    consented := hg.consented hf.consented }

theorem Found.grown {p : Prepared} {current : Binding} {g : Grant} {k : ℕ} (hf : Found h p current g k) (hg : Grown n n' h h') :
    Found h' p current g k where
  binding := hf.binding
  newest := by
    rw [hg.take hf.le_length]
    exact hf.newest
  le_length := hf.le_length.trans hg.length_le
  consented := hg.consented hf.consented

theorem Quiet.grown {id : String} {accepted advanced : ℕ} {checked : Checked} (hq : Quiet h id accepted advanced checked)
    (hg : Grown n n' h h') : Quiet h' id accepted advanced checked where
  accepted := by
    rw [hg.take hq.le_length]
    exact hq.accepted
  le_length := hq.le_length.trans hg.length_le
  advanced := hq.advanced

theorem Current.grown {p : Prepared} {current : Binding} {g : Grant} {checked : Checked} (hc : Current h p current g checked)
    (hg : Grown n n' h h') : Current h' p current g checked :=
  { hc with quiet := hc.quiet.grown hg, consented := hg.consented hc.consented }

theorem Returned.Current.grown {r : Returned} (hc : r.Current h) (hg : Grown n n' h h') (hr : Recorded h h') : r.Current h' :=
  { hc with
    quiet := hc.quiet.grown hg
    consent := hc.consent.imp fun _ ha => ⟨hg.mem_applied ha.1, ha.2⟩
    snapshot := hc.snapshot.imp fun x hx => ⟨hr.fetched x hx.1, hx.2⟩
    valid := hc.valid.imp fun _ hx => ⟨hr.produced _ hx.1, hx.2⟩ }

theorem Authorized.grown {s : Sent} (hs : Authorized h s) (hg : Grown n n' h h') (hr : Recorded h h') : Authorized h' s :=
  { hs with
    run := hs.run.imp fun x hx => ⟨hr.returned x hx.1, hx.2.1.grown hg hr, hx.2.2⟩
    quiet := hs.quiet.grown hg
    consent := hs.consent.imp fun _ ha => ⟨hg.mem_applied ha.1, ha.2⟩ }

theorem AnswerInv.mono {c : ℕ} {answer : Option (AppResult Answer)} (ha : AnswerInv h c answer) (hr : Recorded h h') :
    AnswerInv h' c answer := by
  unfold AnswerInv at ha ⊢
  split at ha
  · obtain ⟨s, hs, hc, x, hx, hrest⟩ := ha
    exact ⟨s, hr.sent s hs, hc, x, hr.answered x hx, hrest⟩
  · exact ha.imp fun x hx => ⟨hr.returned x hx.1, hx.2⟩
  · trivial

/-- A call keeps what it knows. -/
theorem CallInv.grown {c : ℕ} {call : Call Params} (hc : CallInv n h c call) (hg : Grown n n' h h') (hr : Recorded h h') :
    CallInv n' h' c call := by
  have haccepted : ∀ e ∈ h.accepted, e ∈ h'.accepted := by
    obtain ⟨new, hnew, -⟩ := hg.accepted
    intro e he
    rw [hnew]
    exact List.mem_append_left _ he
  cases call with
  | idle | getQueued | getBound | runGated | confirmQueued => trivial
  | setReserved r => exact hc
  | setAccepted r i | setBound r i captured binding => exact ⟨hc.1, haccepted _ hc.2⟩
  | runBound r captured b advanced => exact hc
  | runGranted f | runLeased f flag => exact FrameInv.grown hc hg
  | runCaptured f flag s | runRunning f flag s => exact ⟨hc.1.grown hg, hc.2.grown hr⟩
  | runResumed f flag s o | runRegated f flag s o | runRebound f flag s o current =>
    exact ⟨hc.1.grown hg, hc.2.1.grown hr, hc.2.2.grown hr⟩
  | confirmTaken token p | confirmBound token p current => exact ⟨hc.1.grown hg, hc.2.grown hr⟩
  | confirmGranted token p current g k => exact ⟨hc.1.grown hg, hc.2.1.grown hr, hc.2.2.grown hg⟩
  | confirmChecked token p current g checked => exact ⟨hc.1.grown hg, hc.2.1.grown hr, hc.2.2.grown hg⟩
  | confirmSent token p account request => exact Exists.imp (fun s hs => ⟨hr.sent s hs.1, hs.2⟩) hc
  | leaving answer held | finished answer => exact AnswerInv.mono hc hr

end Grown

/-! ## Proposals -/

section Proposals

variable {capabilities capabilities' : List String} {sym : String}

/-- The capabilities are only asked for. -/
theorem validatePlace_capabilities {order order' : PlaceProposal} (h : validatePlace sym capabilities order = .ok order')
    (hc : "trade.place" ∈ capabilities') : validatePlace sym capabilities' order = .ok order' := by
  rw [validatePlace_ok] at h ⊢
  exact ⟨hc, h.2⟩

theorem validate_place {raw : WorkflowOutput} {orders : Option (List Order)} {order : PlaceProposal}
    (h : raw.validate sym capabilities orders = .ok (.placeOrder order)) :
    order.symbol = sym ∧ validatePlace sym capabilities order = .ok order := by
  cases raw with
  | display text =>
    simp only [WorkflowOutput.validate, bind_eq_ok, pure_eq_ok] at h
    obtain ⟨_, -, hcontra⟩ := h
    cases hcontra
  | placeOrder o =>
    simp only [WorkflowOutput.validate, map_eq_ok, WorkflowOutput.placeOrder.injEq] at h
    obtain ⟨o', ho, rfl⟩ := h
    refine ⟨?_, validatePlace_idem ho⟩
    obtain ⟨-, ⟨hsymbol, -⟩, -, qty, -, price, -, rfl⟩ := validatePlace_ok.1 ho
    exact hsymbol
  | cancelOrder o =>
    simp only [WorkflowOutput.validate, map_eq_ok] at h
    obtain ⟨_, -, hcontra⟩ := h
    cases hcontra

theorem validateCancel_ok {orders : Option (List Order)} {order order' : CancelProposal}
    (h : validateCancel sym capabilities orders order = .ok order') : order' = order ∧ "trade.cancel" ∈ capabilities ∧
      "orders.read" ∈ capabilities ∧ order.symbol = sym ∧ ∃ v ∈ orders.getD [], v.symbol = sym ∧ v.orderId = order.orderId ∧
        (v.status = .new ∨ v.status = .partiallyFilled) := by
  simp only [validateCancel, bind_eq_ok, ensure_eq_ok, pure_eq_ok, List.any_eq_true, decide_eq_true_eq] at h
  obtain ⟨_, ⟨hcancel, hread⟩, _, ⟨hsymbol, -, hany⟩, rfl⟩ := h
  exact ⟨rfl, hcancel, hread, hsymbol, hany⟩

theorem validate_cancel {raw : WorkflowOutput} {orders : Option (List Order)} {order : CancelProposal}
    (h : raw.validate sym capabilities orders = .ok (.cancelOrder order)) : order.symbol = sym := by
  cases raw with
  | display text =>
    simp only [WorkflowOutput.validate, bind_eq_ok, pure_eq_ok] at h
    obtain ⟨_, -, hcontra⟩ := h
    cases hcontra
  | placeOrder o =>
    simp only [WorkflowOutput.validate, map_eq_ok] at h
    obtain ⟨_, -, hcontra⟩ := h
    cases hcontra
  | cancelOrder o =>
    simp only [WorkflowOutput.validate, map_eq_ok, WorkflowOutput.cancelOrder.injEq] at h
    obtain ⟨o', ho, rfl⟩ := h
    obtain ⟨rfl, -, -, hsymbol, -⟩ := validateCancel_ok ho
    exact hsymbol

/-- A request is made of a proposal only if it is what the run has proposed. -/
theorem proposes_of_tradeCall {n : ℕ} {h : History} {p : Prepared} {account : Account} {call : TradeCall} (hp : PreparedInv n h p)
    (hc : tradeCall account capabilities p = .ok call) : p.Proposes capabilities ∧ capabilities ≠ [] := by
  obtain ⟨raw, orders, hvalid, -⟩ := hp.valid
  unfold tradeCall at hc
  unfold Prepared.Proposes
  cases ho : p.output with
  | display text => simp [ho, bind_eq_ok] at hc
  | placeOrder order =>
    simp only [ho, bind_eq_ok, WorkflowOutput.validate, map_eq_ok] at hc
    obtain ⟨_, -, _, ⟨order', hagain, -⟩, -⟩ := hc
    obtain ⟨hsymbol, hplace⟩ := validate_place (ho ▸ hvalid)
    have htrade : "trade.place" ∈ capabilities := (validatePlace_ok.1 hagain).1
    refine ⟨⟨hsymbol, ?_⟩, List.ne_nil_of_mem htrade⟩
    rw [hsymbol]
    exact validatePlace_capabilities hplace htrade
  | cancelOrder order =>
    simp only [ho, bind_eq_ok, okOr_eq_ok, WorkflowOutput.validate, map_eq_ok] at hc
    obtain ⟨_, -, target, htarget, _, ⟨order', hagain, -⟩, -⟩ := hc
    obtain ⟨-, hcancel, hread, -, v, hv, hvsymbol, hvid, hstatus⟩ := validateCancel_ok hagain
    obtain rfl : v = target := by simpa using hv
    exact ⟨⟨validate_cancel (ho ▸ hvalid), hcancel, hread, v, htarget, hvid, hvsymbol, hstatus⟩, List.ne_nil_of_mem hcancel⟩

end Proposals

/-! ## The invariant -/

/-- Where a proposal can be. -/
inductive Place
  | pending (token : String)
  | taken (c : ℕ)
  deriving DecidableEq

def World.Holds (w : World Params Registry) : Place → Prepared → Prop
  | .pending token, p => w.workflow.pending.lookup token = some p
  | .taken c, p => (w.calls c).proposal = some p

/-- Every proposal is in one place, and was sent at most once. -/
structure Once (w : World Params Registry) : Prop where
  unique : ∀ x y p q, w.Holds x p → w.Holds y q → p.origin.number = q.origin.number → x = y
  unsent : ∀ x p, w.Holds x p → p.origin.number < w.history.prepared ∧ ∀ s ∈ w.history.sent, s.prepared.origin.number ≠ p.origin.number
  sent_lt : ∀ s ∈ w.history.sent, s.prepared.origin.number < w.history.prepared
  numbers : (w.history.sent.map (·.prepared.origin.number)).Nodup
  calls : (w.history.sent.map (·.call)).Nodup

structure Inv (w : World Params Registry) : Prop where
  epoch : w.computeEpoch = min w.history.advanced Compute.World.maxEpoch
  state : StateInv w.workflow w.history
  calls : ∀ c, CallInv w.workflow.serial w.history c (w.calls c)
  guests : ∀ c outcome, w.guests c = .done outcome → Produced.mk c outcome ∈ w.history.produced
  pending : ∀ token p, w.workflow.pending.lookup token = some p → Proposed w.history token p
  unsent : ∀ c, (w.calls c).sent = false → ∀ s ∈ w.history.sent, s.call ≠ c
  unanswered : ∀ c, (w.calls c).answered = false → ∀ x ∈ w.history.answered, x.call ≠ c
  answers : (w.history.answered.map (·.call)).Nodup
  once : Once w
  gate : ∀ c, (w.calls c).inside = true → w.gate.Held (.call c)
  standing : ∀ c p g, (w.calls c).found = some (p, g) → ∃ g', w.workflow.grants.lookup p.request.pluginId = some g' ∧
    g'.binding = g.binding ∧ g'.revision = g.revision ∧ g'.capabilities = g.capabilities
  sent : ∀ s ∈ w.history.sent, Authorized w.history s
  returned : ∀ r ∈ w.history.returned, r.Current w.history

theorem Call.inside_of_found {call : Call Params} {pg : Prepared × Grant} (h : call.found = some pg) : call.inside = true := by
  cases call <;> first | rfl | cases h

namespace Inv

attribute [local simp] World.step

variable {w w' : World Params Registry} {c : ℕ} {call : Call Params}

/-- Only who holds the gate has found a grant. -/
theorem found_none (h : Inv w) (hc : (w.calls c).inside = true) {c' : ℕ} (hne : c' ≠ c) : (w.calls c').found = none := by
  by_contra hsome
  obtain ⟨pg, hpg⟩ := Option.ne_none_iff_exists'.1 hsome
  have hheld := (h.gate c' (Call.inside_of_found hpg)).unique (h.gate c hc)
  exact hne (Compute.GateUser.call.inj hheld)

/-- A step that leaves the mutex, the history and the calls alone. -/
theorem quiet (h : Inv w) (hw : w'.workflow = w.workflow) (hc : w'.calls = w.calls)
    (hh : w'.history = { w.history with advanced := w'.history.advanced })
    (he : w'.computeEpoch = min w'.history.advanced Compute.World.maxEpoch)
    (hd : ∀ c outcome, w'.guests c = .done outcome → w.guests c = .done outcome)
    (hg : ∀ c, (w.calls c).inside = true → w.gate.Held (.call c) → w'.gate.Held (.call c)) : Inv w' := by
  have haccepted : w'.history.accepted = w.history.accepted := by rw [hh]
  have happlied : w'.history.applied = w.history.applied := by rw [hh]
  have hproduced : w'.history.produced = w.history.produced := by rw [hh]
  have hsent : w'.history.sent = w.history.sent := by rw [hh]
  have hreturned : w'.history.returned = w.history.returned := by rw [hh]
  have hprepared : w'.history.prepared = w.history.prepared := by rw [hh]
  have hanswered : w'.history.answered = w.history.answered := by rw [hh]
  have hgrown : Grown w.workflow.serial w.workflow.serial w.history w'.history := .of_eq le_rfl haccepted happlied
  have hrecorded : Recorded w.history w'.history := .of_eq hproduced (by rw [hh]) hreturned hsent hanswered
  have hholds : ∀ x p, w'.Holds x p → w.Holds x p := by
    intro x p hx
    cases x with
    | pending token =>
      change w'.workflow.pending.lookup token = some p at hx
      rwa [hw] at hx
    | taken c =>
      change (w'.calls c).proposal = some p at hx
      rwa [hc] at hx
  exact {
    epoch := he
    state := by
      rw [hw]
      exact h.state.congr haccepted happlied
    calls := fun c => by
      rw [hw, hc]
      exact (h.calls c).grown hgrown hrecorded
    guests := fun c outcome hdone => hproduced ▸ h.guests c outcome (hd c outcome hdone)
    pending := fun token p hp => (h.pending token p (hw ▸ hp)).grown hrecorded
    unsent := fun c hs s hm => h.unsent c (hc ▸ hs) s (hsent ▸ hm)
    unanswered := fun c hs x hm => h.unanswered c (hc ▸ hs) x (hanswered ▸ hm)
    answers := by
      rw [hanswered]
      exact h.answers
    once := {
      unique := fun x y p q hx hy => h.once.unique x y p q (hholds x p hx) (hholds y q hy)
      unsent := fun x p hx => by
        rw [hsent, hprepared]
        exact h.once.unsent x p (hholds x p hx)
      sent_lt := by
        rw [hsent, hprepared]
        exact h.once.sent_lt
      numbers := by
        rw [hsent]
        exact h.once.numbers
      calls := by
        rw [hsent]
        exact h.once.calls }
    gate := fun c hi => hg c (hc ▸ hi) (h.gate c (hc ▸ hi))
    standing := fun c p g hf => by
      rw [hc] at hf
      rw [hw]
      exact h.standing c p g hf
    sent := fun s hs => (h.sent s (hsent ▸ hs)).grown hgrown hrecorded
    returned := fun r hr => (h.returned r (hreturned ▸ hr)).grown hgrown hrecorded }

/-- A call moves on: it takes no proposal and sends none. -/
structure Moves (w : World Params Registry) (c : ℕ) (call : Call Params) : Prop where
  inv : CallInv w.workflow.serial w.history c call
  sent : call.sent = false → (w.calls c).sent = false
  answered : call.answered = false → (w.calls c).answered = false
  proposal : ∀ p, call.proposal = some p → (w.calls c).proposal = some p
  found : ∀ p g, call.found = some (p, g) → (w.calls c).found = some (p, g) ∨
    ∃ g', w.workflow.grants.lookup p.request.pluginId = some g' ∧ g'.binding = g.binding ∧ g'.revision = g.revision ∧
      g'.capabilities = g.capabilities
  gate : call.inside = true → w.gate.Held (.call c)

theorem Call.answered_of_sent {call : Call Params} (h : call.sent = false) : call.answered = false := by
  cases call <;> first | rfl | exact h

/-- A call that has no proposal afterwards. -/
theorem Moves.of_none (hinv : CallInv w.workflow.serial w.history c call) (hs : (w.calls c).sent = false)
    (hp : call.proposal = none) (hf : call.found = none) (hg : call.inside = true → w.gate.Held (.call c)) : Moves w c call where
  inv := hinv
  sent _ := hs
  answered _ := Call.answered_of_sent hs
  proposal p hq := by
    rw [hp] at hq
    cases hq
  found p g hq := by
    rw [hf] at hq
    cases hq
  gate := hg

theorem setCall (h : Inv w) (hm : Moves w c call) : Inv (w.setCall c call) := by
  have hcall : ∀ c', (w.setCall c call).calls c' = if c' = c then call else w.calls c' := fun c' => Function.update_apply ..
  have hholds : ∀ x p, (w.setCall c call).Holds x p → w.Holds x p := by
    intro x p hx
    cases x with
    | pending token => exact hx
    | taken c' =>
      change ((w.setCall c call).calls c').proposal = some p at hx
      rw [hcall] at hx
      split at hx
      · next heq =>
        subst heq
        exact hm.proposal p hx
      · exact hx
  exact { h with
    calls := fun c' => by
      rw [hcall]
      split
      · next heq => exact heq ▸ hm.inv
      · exact h.calls c'
    unsent := fun c' hs => by
      rw [hcall] at hs
      split at hs
      · next heq => exact h.unsent c' (heq ▸ hm.sent hs)
      · exact h.unsent c' hs
    unanswered := fun c' hs => by
      rw [hcall] at hs
      split at hs
      · next heq => exact h.unanswered c' (heq ▸ hm.answered hs)
      · exact h.unanswered c' hs
    once := ⟨fun x y p q hx hy => h.once.unique x y p q (hholds x p hx) (hholds y q hy),
      fun x p hx => h.once.unsent x p (hholds x p hx), h.once.sent_lt, h.once.numbers, h.once.calls⟩
    gate := fun c' hi => by
      rw [hcall] at hi
      split at hi
      · next heq => exact heq ▸ hm.gate hi
      · exact h.gate c' hi
    standing := fun c' p g hf => by
      rw [hcall] at hf
      split at hf
      · next heq =>
        subst heq
        rcases hm.found p g hf with hold | hnew
        · exact h.standing c' p g hold
        · exact hnew
      · exact h.standing c' p g hf }

/-- A call returns an answer that is none of a confirmation and none of a run, or no answer. -/
theorem leaving (h : Inv w) (hs : (w.calls c).sent = false) (answer : Option (AppResult Answer)) (held : List Compute.Resource)
    (ha : AnswerInv w.history c answer) : Inv (w.setCall c (.leaving answer held)) := by
  exact h.setCall (.of_none ha hs rfl rfl fun hi => by cases hi)

theorem fail (h : Inv w) (hs : (w.calls c).sent = false) (e : AppError) : Inv (w.setCall c ((w.calls c).fail e)) :=
  h.leaving hs _ _ trivial

/-- The table of grants is read or changed by a call that holds the gate. -/
theorem «section» (h : Inv w) (hc : (w.calls c).inside = true) (hf : (w.calls c).found = none) {workflow : WorkflowState}
    (hs : StateInv workflow w.history) (hn : w.workflow.serial ≤ workflow.serial)
    (hp : ∀ t p, workflow.pending.lookup t = some p → w.workflow.pending.lookup t = some p) : Inv { w with workflow } := by
  have hholds : ∀ x p, ({ w with workflow } : World Params Registry).Holds x p → w.Holds x p := by
    intro x p hx
    cases x with
    | pending token => exact hp token p hx
    | taken c => exact hx
  exact { h with
    state := hs
    calls := fun c' => (h.calls c').grown (.of_eq hn rfl rfl) (.of_eq rfl rfl rfl rfl rfl)
    pending := fun t p hlookup => h.pending t p (hp t p hlookup)
    once := ⟨fun x y p q hx hy => h.once.unique x y p q (hholds x p hx) (hholds y q hy),
      fun x p hx => h.once.unsent x p (hholds x p hx), h.once.sent_lt, h.once.numbers, h.once.calls⟩
    standing := fun c' p g hfound => by
      -- nobody else has found a grant
      have hfound : (w.calls c').found = some (p, g) := hfound
      by_cases hne : c' = c
      · subst hne
        rw [hf] at hfound
        cases hfound
      · rw [h.found_none hc hne] at hfound
        cases hfound }

/-! ### The sections of the mutex -/

section Sections

variable {S : Sources Registry Params} {id : String} {binding : Binding}

/-- The epoch that is read is how often it was advanced. -/
theorem workflowEpoch_ok (h : Inv w) {epoch : ℕ} (he : w.workflowEpoch = .ok epoch) : epoch = w.history.advanced := by
  unfold World.workflowEpoch at he
  split at he
  · cases he
  · next hne =>
    cases he
    have heq := h.epoch
    have hmax : w.computeEpoch ≠ Compute.World.maxEpoch := fun hm => hne (.inl hm)
    omega

theorem bindingLocked_ok {request : AuthorityRequest} {authority : AppResult AccountAuthority} {captured : CapturedWorkflow Params}
    (h : Inv w) (hb : w.bindingLocked S request authority = .ok (captured, binding)) : binding.epoch = w.history.advanced := by
  simp only [World.bindingLocked, bind_eq_ok, pure_eq_ok, Prod.mk.injEq] at hb
  obtain ⟨_, -, epoch, hepoch, _, -, _, -, _, -, -, rfl⟩ := hb
  exact h.workflowEpoch_ok hepoch

/-- A call reads what it is bound to. -/
theorem bound (h : Inv w) (hs : (w.calls c).sent = false) {request : AuthorityRequest} {authority : AppResult AccountAuthority}
    {next : CapturedWorkflow Params → Binding → Call Params}
    (hnext : ∀ captured b, b.epoch = w.history.advanced → Moves w c (next captured b)) : Inv (w.bound S c request authority next) := by
  unfold World.bound
  split
  · next captured b hb => exact h.setCall (hnext captured b (h.bindingLocked_ok hb))
  · exact h.fail hs _

/-- A section in which the grant is looked up goes on in a world in which it is there. -/
theorem granted (h : Inv w) (hc : (w.calls c).inside = true) (hf : (w.calls c).found = none) (hs : (w.calls c).sent = false)
    {next : World Params Registry → Grant → World Params Registry}
    (hnext : ∀ w₁ g, Inv w₁ → w₁.calls = w.calls → w₁.history = w.history → w₁.gate = w.gate →
      w₁.workflow.grants.lookup id = some g → g.binding = binding → Inv (next w₁ g)) : Inv (w.granted c id binding next) := by
  have hg := h.state.grant id binding w.now
  unfold World.granted
  split
  · next g workflow heq =>
    rw [heq] at hg
    obtain ⟨hlookup, hbinding⟩ := hg.found g rfl
    exact hnext _ g (h.section hc hf hg.inv hg.serial hg.pending) rfl rfl rfl hlookup hbinding
  · next e workflow heq =>
    rw [heq] at hg
    exact (h.section hc hf hg.inv hg.serial hg.pending).fail hs e

/-- A call comes to the line of the gate. -/
theorem queue (h : Inv w) {checks : AppResult Unit} (hp : call.proposal = none) (hf : call.found = none) (hi : call.inside = false)
    (hc : checks = .ok () → ∀ n h', CallInv n h' c call) : Inv (w.queue c checks call) := by
  unfold World.queue
  split
  · next hidle =>
    have hw : Inv ({ w with gate := w.gate.lock (.call c) } : World Params Registry) :=
      h.quiet rfl rfl rfl h.epoch (fun _ _ hd => hd) fun _ _ hheld => hheld.lock
    have hs : (w.calls c).sent = false := by rw [hidle]; rfl
    refine hw.setCall (.of_none (hc rfl _ _) hs hp hf fun hin => ?_)
    rw [hi] at hin
    cases hin
  · next hidle =>
    refine h.leaving ?_ _ _ trivial
    rw [hidle]
    rfl
  · exact h

/-- The others keep what they know. -/
theorem others (h : Inv w) (hg : Grown w.workflow.serial w'.workflow.serial w.history w'.history)
    (hr : Recorded w.history w'.history) (c : ℕ) : CallInv w'.workflow.serial w'.history c (w.calls c) := (h.calls c).grown hg hr

theorem acceptChange (h : Inv w) {request : GrantRequest} (hcall : w.calls c = .setReserved request) :
    Inv (w.acceptChange c request) := by
  have hvalid : World.validateGrantRequest request = .ok () := by
    have hinv := h.calls c
    rwa [hcall] at hinv
  have hs : (w.calls c).sent = false := by rw [hcall]; rfl
  unfold World.acceptChange
  split
  · next intent workflow heq =>
    have ha := h.state.accept heq
    set w₁ : World Params Registry := { w with
      workflow := workflow
      history := { w.history with accepted := w.history.accepted ++ [Change.mk request.pluginId intent] } } with hw₁
    have hgrown : Grown w.workflow.serial workflow.serial w.history w₁.history := by
      refine ⟨by have := ha.intent; have := ha.serial; omega, ⟨_, rfl, fun e he => ?_⟩, ⟨[], by simp [hw₁]⟩⟩
      rw [List.mem_singleton.1 he, show (Change.mk request.pluginId intent).intent = intent from rfl, ha.intent]
      exact Nat.lt_succ_self _
    have hrecorded : Recorded w.history w₁.history := .of_eq rfl rfl rfl rfl rfl
    have hholds : ∀ x p, w₁.Holds x p → w.Holds x p := by
      intro x p hx
      cases x with
      | pending token => exact (ha.pending token p hx).1
      | taken c => exact hx
    have hinv : Inv w₁ := { h with
      state := ha.inv
      calls := h.others hgrown hrecorded
      pending := fun token p hp => (h.pending token p (ha.pending token p hp).1).grown hrecorded
      once := ⟨fun x y p q hx hy => h.once.unique x y p q (hholds x p hx) (hholds y q hy),
        fun x p hx => h.once.unsent x p (hholds x p hx), h.once.sent_lt, h.once.numbers, h.once.calls⟩
      standing := fun c' p g hf => by
        -- a change that is accepted raises an intent, and nothing else
        obtain ⟨g', hg', hrest⟩ := h.standing c' p g hf
        refine ⟨{ g' with intent := if p.request.pluginId = request.pluginId then intent else g'.intent }, ?_, hrest⟩
        rw [ha.grants, hg']
        rfl
      sent := fun s hm => (h.sent s hm).grown hgrown hrecorded
      returned := fun r hm => (h.returned r hm).grown hgrown hrecorded }
    exact hinv.setCall (.of_none ⟨hvalid, List.mem_append_right _ (List.mem_singleton_self _)⟩ hs rfl rfl fun hi => by cases hi)
  · next e workflow heq =>
    have hw : workflow = w.workflow := by
      unfold WorkflowState.accept at heq
      rcases w.workflow.next_cases with ⟨_, hnext⟩ | hnext
      · rw [hnext] at heq
        exact (congrArg Prod.snd heq).symm
      · rw [hnext] at heq
        cases heq
    subst hw
    exact h.fail hs e

theorem applyChange (h : Inv w) {request : GrantRequest} {intent : ℕ} {captured : CapturedWorkflow Params}
    (hcall : w.calls c = .setBound request intent captured binding) : Inv (w.applyChange c request intent captured binding) := by
  obtain ⟨hvalid, hmem⟩ : World.validateGrantRequest request = .ok () ∧ Change.mk request.pluginId intent ∈ w.history.accepted := by
    have hinv := h.calls c
    rwa [hcall] at hinv
  have hs : (w.calls c).sent = false := by rw [hcall]; rfl
  have hi : (w.calls c).inside = true := by rw [hcall]; rfl
  have hf : (w.calls c).found = none := by rw [hcall]; rfl
  unfold World.applyChange
  split
  · next g workflow heq =>
    have ha := h.state.change hvalid hmem heq
    set a := Applied.mk request captured.requested binding (w.workflow.grants.lookup request.pluginId) g.revision intent
      w.history.accepted.length
    set w₁ : World Params Registry := { w with
      workflow := workflow
      history := { w.history with applied := w.history.applied ++ [a] } } with hw₁
    have hgrown : Grown w.workflow.serial workflow.serial w.history w₁.history :=
      ⟨ha.serial, ⟨[], by simp [hw₁], by simp⟩, ⟨[a], rfl⟩⟩
    have hrecorded : Recorded w.history w₁.history := .of_eq rfl rfl rfl rfl rfl
    have hholds : ∀ x p, w₁.Holds x p → w.Holds x p := by
      intro x p hx
      cases x with
      | pending token => exact ha.pending token p hx
      | taken c => exact hx
    have hinv : Inv w₁ := { h with
      state := ha.inv
      calls := h.others hgrown hrecorded
      pending := fun token p hp => (h.pending token p (ha.pending token p hp)).grown hrecorded
      once := ⟨fun x y p q hx hy => h.once.unique x y p q (hholds x p hx) (hholds y q hy),
        fun x p hx => h.once.unsent x p (hholds x p hx), h.once.sent_lt, h.once.numbers, h.once.calls⟩
      standing := fun c' p g' hfound => by
        -- the gate is held by this call, which has found nothing
        have hfound : (w.calls c').found = some (p, g') := hfound
        by_cases hne : c' = c
        · rw [hne, hf] at hfound
          cases hfound
        · rw [h.found_none hi hne] at hfound
          cases hfound
      sent := fun s hm => (h.sent s hm).grown hgrown hrecorded
      returned := fun r hm => (h.returned r hm).grown hgrown hrecorded }
    exact hinv.leaving hs _ _ trivial
  · next e workflow heq =>
    obtain ⟨hstate, hserial, hpending⟩ := h.state.change_error heq
    exact (h.section hi hf hstate hserial hpending).fail hs e

/-- A proposal is taken. -/
theorem take (h : Inv w) {token : String} {p : Prepared} (hcall : w.calls c = .confirmQueued token)
    (hheld : w.gate.Held (.call c)) (hlookup : w.workflow.pending.lookup token = some p) :
    Inv ({ w with workflow.pending := w.workflow.pending.erase token }.setCall c (.confirmTaken token p)) := by
  set w₁ : World Params Registry := { w with workflow := { w.workflow with pending := w.workflow.pending.erase token } }
  have hcalls : ∀ c', (w₁.setCall c (.confirmTaken token p)).calls c' = if c' = c then .confirmTaken token p else w.calls c' :=
    fun c' => Function.update_apply ..
  -- where a proposal is now, it was before; this one is with the call
  have hholds : ∀ x q, (w₁.setCall c (.confirmTaken token p)).Holds x q →
      w.Holds x q ∧ x ≠ .pending token ∨ x = .taken c ∧ q = p := by
    intro x q hx
    cases x with
    | pending t =>
      obtain ⟨hne, hold⟩ := Table.lookup_erase_eq_some.1 hx
      exact .inl ⟨hold, fun ht => hne (Place.pending.inj ht).symm⟩
    | taken c' =>
      change ((w₁.setCall c (.confirmTaken token p)).calls c').proposal = some q at hx
      rw [hcalls] at hx
      split at hx
      · next heq =>
        subst heq
        exact .inr ⟨rfl, (Option.some.inj hx).symm⟩
      · exact .inl ⟨hx, nofun⟩
  have hstate : StateInv w₁.workflow w.history := h.state.within
    { serial := rfl
      grants := fun _ _ hg => hg
      pending := fun _ _ hq => (Table.lookup_erase_eq_some.1 hq).2
      grants_size := le_rfl
      pending_size := AList.size_erase_le }
  have hcallinv : CallInv w.workflow.serial w.history c (.confirmTaken token p : Call Params) :=
    ⟨h.state.pending token p hlookup, h.pending token p hlookup⟩
  exact { h with
    state := hstate
    calls := fun c' => by
      rw [hcalls]
      split
      · next heq => exact heq ▸ hcallinv
      · exact h.calls c'
    pending := fun t q hq => h.pending t q (Table.lookup_erase_eq_some.1 hq).2
    unsent := fun c' hs => by
      rw [hcalls] at hs
      split at hs
      · next heq =>
        refine h.unsent c' ?_
        rw [heq, hcall]
        rfl
      · exact h.unsent c' hs
    unanswered := fun c' hs => by
      rw [hcalls] at hs
      split at hs
      · next heq =>
        refine h.unanswered c' ?_
        rw [heq, hcall]
        rfl
      · exact h.unanswered c' hs
    once := by
      refine ⟨fun x y q q' hx hy hn => ?_, fun x q hx => ?_, h.once.sent_lt, h.once.numbers, h.once.calls⟩
      · rcases hholds x q hx with ⟨hold, hxt⟩ | ⟨hxc, hq⟩
        · rcases hholds y q' hy with ⟨hold', -⟩ | ⟨-, hq'⟩
          · exact h.once.unique x y q q' hold hold' hn
          · exact absurd (h.once.unique x (.pending token) q p hold hlookup (hq' ▸ hn)) hxt
        · rcases hholds y q' hy with ⟨hold', hyt⟩ | ⟨hyc, -⟩
          · exact absurd (h.once.unique y (.pending token) q' p hold' hlookup (hq ▸ hn).symm) hyt
          · rw [hxc, hyc]
      · rcases hholds x q hx with ⟨hx, -⟩ | ⟨-, rfl⟩
        · exact h.once.unsent x q hx
        · exact h.once.unsent (.pending token) q hlookup
    gate := fun c' hi => by
      rw [hcalls] at hi
      split at hi
      · next heq => exact heq ▸ hheld
      · exact h.gate c' hi
    standing := fun c' q g hf => by
      rw [hcalls] at hf
      split at hf
      · cases hf
      · exact h.standing c' q g hf }

theorem checkCurrent_ok {f : Frame Params} {flag : ℕ} {current : Binding} {g : Grant}
    (h : w.checkCurrent f flag current g = .ok ()) :
    f.binding = current ∧ f.grant.revision = g.revision ∧ f.grant.intent = g.intent ∧ w.workflowEpoch = .ok f.binding.epoch := by
  simp only [World.checkCurrent, bind_eq_ok, ensure_eq_ok] at h
  obtain ⟨_, ⟨-, hcurrent, hrevision, hintent⟩, epoch, hepoch, rfl⟩ := h
  exact ⟨hcurrent, hrevision, hintent, hepoch⟩

/-- A run returns what it has found. -/
theorem returns (h : Inv w) {r : Returned} (hr : r.Current w.history) :
    Inv ({ w with history.returned := w.history.returned ++ [r] } : World Params Registry) := by
  set w₁ : World Params Registry := { w with history := { w.history with returned := w.history.returned ++ [r] } } with hw₁
  have hgrown : Grown w.workflow.serial w₁.workflow.serial w.history w₁.history := .of_eq le_rfl rfl rfl
  have hrecorded : Recorded w.history w₁.history :=
    ⟨fun _ hx => hx, fun _ hx => hx, fun _ hx => List.mem_append_left _ hx, fun _ hx => hx, fun _ hx => hx⟩
  exact { h with
    state := h.state.congr rfl rfl
    calls := h.others hgrown hrecorded
    pending := fun token p hp => (h.pending token p hp).grown hrecorded
    once := ⟨h.once.unique, h.once.unsent, h.once.sent_lt, h.once.numbers, h.once.calls⟩
    sent := fun s hm => (h.sent s hm).grown hgrown hrecorded
    returned := fun x hx => by
      rcases List.mem_append.1 hx with hx | hx
      · exact (h.returned x hx).grown hgrown hrecorded
      · rw [List.mem_singleton.1 hx]
        exact hr.grown hgrown hrecorded }

theorem FrameInv.quiet {n : ℕ} {f : Frame Params} (h : Inv w) (hf : FrameInv n w.history f) {g : Grant}
    (hg : GrantInv w.workflow.serial w.history f.request.pluginId g) (hintent : f.grant.intent = g.intent)
    (hepoch : w.workflowEpoch = .ok f.binding.epoch) :
    Quiet w.history f.request.pluginId f.accepted f.advanced ⟨w.history.accepted.length, w.history.advanced, w.now⟩ where
  accepted := hf.since.quiet (by
    rw [List.take_length, hintent]
    exact hg.newest)
  le_length := le_rfl
  advanced := hf.epoch.symm.trans (h.workflowEpoch_ok hepoch)

/-- What a run returns is current. -/
theorem returned_current {n : ℕ} {f : Frame Params} {snapshot : Snapshot} {output : WorkflowOutput} {current : Binding} {g : Grant}
    {confirmation : Option Confirmation} {checked : Checked} (hf : FrameInv n w.history f) (hs : f.Captured w.history c snapshot)
    (ho : f.Valid w.history c snapshot output) (hq : Quiet w.history f.request.pluginId f.accepted f.advanced checked)
    (hb : f.binding = current) (hg : g.binding = current ∧ f.grant.revision = g.revision ∧ f.grant.intent = g.intent) :
    (Returned.mk c f.request f.binding f.grant f.accepted f.advanced current g checked
      (World.result f snapshot output confirmation)).Current w.history where
  quiet := hq
  consent := by
    rcases hf.consented with hnil | ⟨a, ha, hid, hbinding, hrest⟩
    · exact absurd hf.reads (by simp [hnil])
    · exact ⟨a, ha, hid, hbinding.trans hf.binding, hrest⟩
  granted := hf.binding
  rebound := hb.symm
  reread := ⟨hg.1.trans hb.symm, hg.2.1.symm, hg.2.2.symm⟩
  reads := hf.reads
  request := ⟨rfl, rfl⟩
  account := rfl
  snapshot := hs
  valid := ho

/-- A proposal is prepared. -/
theorem prepare (h : Inv w) {p : Prepared} {token : String} (hp : PreparedInv w.workflow.serial w.history p)
    (hleft : Proposed w.history token p) (hn : p.origin.number = w.history.prepared) (hsize : w.workflow.pending.size < 32) :
    Inv ({ w with workflow.pending := w.workflow.pending.insert token p, history.prepared := w.history.prepared + 1 } :
      World Params Registry) := by
  set w₁ : World Params Registry := { w with
    workflow := { w.workflow with pending := w.workflow.pending.insert token p }
    history := { w.history with prepared := w.history.prepared + 1 } } with hw₁
  have hgrown : Grown w.workflow.serial w₁.workflow.serial w.history w₁.history := .of_eq le_rfl rfl rfl
  have hrecorded : Recorded w.history w₁.history := .of_eq rfl rfl rfl rfl rfl
  have hholds : ∀ x q, w₁.Holds x q → w.Holds x q ∨ x = .pending token ∧ q = p := by
    intro x q hx
    cases x with
    | pending t =>
      rcases Table.lookup_insert_eq_some.1 hx with ⟨rfl, rfl⟩ | ⟨-, hold⟩
      · exact .inr ⟨rfl, rfl⟩
      · exact .inl hold
    | taken c => exact .inl hx
  exact { h with
    state := (h.state.insert hp hsize).congr rfl rfl
    calls := h.others hgrown hrecorded
    pending := fun t q hq => by
      rcases Table.lookup_insert_eq_some.1 hq with ⟨rfl, rfl⟩ | ⟨-, hold⟩
      · exact hleft.grown hrecorded
      · exact (h.pending t q hold).grown hrecorded
    once := {
      unique := fun x y q q' hx hy hnum => by
        -- the new number is above those of all other proposals
        rcases hholds x q hx with hold | ⟨hxt, hq⟩
        · rcases hholds y q' hy with hold' | ⟨-, hq'⟩
          · exact h.once.unique x y q q' hold hold' hnum
          · have hlt := (h.once.unsent x q hold).1
            rw [hnum, hq', hn] at hlt
            exact absurd hlt (lt_irrefl _)
        · rcases hholds y q' hy with hold' | ⟨hyt, -⟩
          · have hlt := (h.once.unsent y q' hold').1
            rw [← hnum, hq, hn] at hlt
            exact absurd hlt (lt_irrefl _)
          · rw [hxt, hyt]
      unsent := fun x q hx => by
        rcases hholds x q hx with hold | ⟨-, hq⟩
        · exact ⟨Nat.lt_succ_of_lt (h.once.unsent x q hold).1, (h.once.unsent x q hold).2⟩
        · rw [hq, hn]
          exact ⟨Nat.lt_succ_self _, fun s hs => (h.once.sent_lt s hs).ne⟩
      sent_lt := fun s hs => Nat.lt_succ_of_lt (h.once.sent_lt s hs)
      numbers := h.once.numbers
      calls := h.once.calls }
    sent := fun s hm => (h.sent s hm).grown hgrown hrecorded
    returned := fun r hm => (h.returned r hm).grown hgrown hrecorded }

/-- **The last section of a run.** -/
theorem settleRun (h : Inv w) {f : Frame Params} {flag : ℕ} {snapshot : Snapshot} {output : WorkflowOutput} {current : Binding}
    {token submissionId : String} {nowMs : ℕ} (hcall : w.calls c = .runRebound f flag snapshot output current) :
    Inv (w.settleRun c f flag snapshot output current token submissionId nowMs) := by
  unfold World.settleRun
  refine h.granted (by rw [hcall]; rfl) (by rw [hcall]; rfl) (by rw [hcall]; rfl) fun w₁ g h₁ hcalls hhistory hgate hlookup hbinding => ?_
  have hs : (w₁.calls c).sent = false := by rw [hcalls, hcall]; rfl
  obtain ⟨hf, hcaptured, hvalid⟩ : FrameInv w₁.workflow.serial w₁.history f ∧ f.Captured w₁.history c snapshot ∧
      f.Valid w₁.history c snapshot output := by
    have hinv := h₁.calls c
    rwa [hcalls, hcall] at hinv
  split
  · exact h₁.fail hs _
  next hcheck =>
  obtain ⟨hcurrent, hrevision, hintent, hepoch⟩ := checkCurrent_ok hcheck
  have hquiet := FrameInv.quiet h₁ hf (h₁.state.grants _ _ hlookup) hintent hepoch
  have hreturned : ∀ confirmation, (Returned.mk c f.request f.binding f.grant f.accepted f.advanced current g
      ⟨w₁.history.accepted.length, w₁.history.advanced, w₁.now⟩ (World.result f snapshot output confirmation)).Current w₁.history :=
    fun _ => returned_current hf hcaptured hvalid hquiet hcurrent ⟨hbinding, hrevision, hintent⟩
  split
  · exact (h₁.returns (hreturned none)).leaving hs _ _ ⟨_, List.mem_append_right _ (List.mem_singleton_self _), rfl, rfl⟩
  split
  · exact h₁.fail hs _
  next hsize =>
  -- the proposal of this run
  set p := w₁.prepare f snapshot output submissionId with hp
  have hprepared : PreparedInv w₁.workflow.serial w₁.history p := by
    obtain ⟨raw, -, hraw⟩ := hvalid
    refine ⟨hf.intent_le, hf.since, hf.epoch, rfl, raw, _, hraw, fun t ht => ?_⟩
    change t ∈ World.cancelTarget snapshot output at ht
    unfold World.cancelTarget at ht
    split at ht
    · obtain ⟨x, hx, hfind⟩ := Option.bind_eq_some_iff.1 ht
      exact ⟨x.items, by rw [hx]; rfl, List.mem_of_find?_eq_some hfind⟩
    · cases ht
  -- first its result, then the proposal
  set confirmation := Confirmation.mk token (min (nowMs + 60000) (2 ^ 64 - 1)) p.submissionId with hconfirmation
  set r := Returned.mk c f.request f.binding f.grant f.accepted f.advanced current g
    ⟨w₁.history.accepted.length, w₁.history.advanced, w₁.now⟩ (World.result f snapshot output (some confirmation)) with hr
  have hmem : r ∈ w₁.history.returned ++ [r] := List.mem_append_right _ (List.mem_singleton_self r)
  have hleaves : r.Leaves token p := ⟨rfl, rfl, rfl, rfl, rfl, rfl, ⟨_, rfl⟩, rfl⟩
  have hproposed : Proposed { w₁.history with returned := w₁.history.returned ++ [r] } token p := ⟨r, hmem, hleaves⟩
  have h₂ := h₁.returns (hreturned (some confirmation))
  have hgrown : Grown w₁.workflow.serial w₁.workflow.serial w₁.history { w₁.history with returned := w₁.history.returned ++ [r] } :=
    .of_eq le_rfl rfl rfl
  have h₃ := h₂.prepare (hprepared.grown hgrown) hproposed rfl (not_le.1 hsize)
  exact h₃.leaving hs (some (.ok (.result r.result))) _ ⟨r, hmem, rfl, rfl⟩

/-- A confirmation has compared its proposal with what there is. -/
theorem checkPrepared (h : Inv w) {token : String} {p : Prepared} {current : Binding} {g : Grant} {k : ℕ}
    (hcall : w.calls c = .confirmGranted token p current g k) (hcheck : w.checkPrepared p current g = .ok ()) :
    Inv (w.setCall c (.confirmChecked token p current g ⟨k, w.history.advanced, w.now⟩)) := by
  obtain ⟨hp, hleft, hfound⟩ : PreparedInv w.workflow.serial w.history p ∧ Proposed w.history token p ∧
      Found w.history p current g k := by
    have hinv := h.calls c
    rwa [hcall] at hinv
  simp only [World.checkPrepared, bind_eq_ok, ensure_eq_ok] at hcheck
  obtain ⟨_, ⟨hnow, hcurrent, hrevision, hintent⟩, epoch, hepoch, rfl⟩ := hcheck
  refine h.setCall ⟨⟨hp, hleft, ?_⟩, fun _ => ?_, fun _ => ?_, fun q hq => ?_, fun q g' hq => .inl ?_, fun _ => ?_⟩
  · refine ⟨⟨?_, hfound.le_length, hp.epoch.symm.trans (h.workflowEpoch_ok hepoch)⟩, ?_, ⟨hcurrent, hfound.binding.trans hcurrent⟩,
      hrevision, hfound.consented⟩
    · refine hp.since.quiet ?_
      rw [← hintent]
      exact hfound.newest
    · rw [← hp.deadline]
      exact hnow
  · rw [hcall]
    rfl
  · rw [hcall]
    rfl
  · rw [hcall]
    exact hq
  · rw [hcall]
    exact hq
  · refine h.gate c ?_
    rw [hcall]
    rfl

/-- **A confirmation hands its request to the host.** -/
theorem send (h : Inv w) {token : String} {p : Prepared} {current : Binding} {g : Grant} {checked : Checked} {call : TradeCall}
    (hcall : w.calls c = .confirmChecked token p current g checked)
    (htrade : tradeCall current.authority.account g.capabilities p = .ok call) :
    Inv ({ w with
      history.sent := w.history.sent ++
        [Sent.mk c token p g.capabilities checked call (w.workflow.grants.lookup p.request.pluginId)] }.setCall c
      (.confirmSent token p current.authority.account call)) := by
  obtain ⟨hp, ⟨x, hx, hleaves⟩, hcurrent⟩ : PreparedInv w.workflow.serial w.history p ∧ Proposed w.history token p ∧
      Current w.history p current g checked := by
    have hinv := h.calls c
    rwa [hcall] at hinv
  obtain ⟨hcb, hgb⟩ := hcurrent.binding
  set s := Sent.mk c token p g.capabilities checked call (w.workflow.grants.lookup p.request.pluginId) with hs
  set w₁ : World Params Registry := { w with history := { w.history with sent := w.history.sent ++ [s] } } with hw₁
  have hgrown : Grown w.workflow.serial w₁.workflow.serial w.history w₁.history := .of_eq le_rfl rfl rfl
  have hrecorded : Recorded w.history w₁.history :=
    ⟨fun _ hx => hx, fun _ hx => hx, fun _ hx => hx, fun _ hx => List.mem_append_left _ hx, fun _ hx => hx⟩
  obtain ⟨hproposes, hne⟩ := proposes_of_tradeCall hp htrade
  have hauthorized : Authorized w₁.history s := by
    obtain ⟨g', hg', hstanding⟩ := h.standing c p g (by rw [hcall]; rfl)
    obtain ⟨a, ha, hid, hbinding, hrevision, hcapabilities⟩ := hcurrent.consented.resolve_left hne
    have hxcurrent := h.returned x hx
    -- the run has read the same revision
    have hsame : x.grant.capabilities = g.capabilities := by
      obtain ⟨b, hb, -, -, hbrevision, hbcapabilities⟩ := hxcurrent.consent
      have heq : a.revision = b.revision := by
        rw [hrevision, hcurrent.revision, hleaves.revision, hbrevision]
      rw [← hbcapabilities, ← hcapabilities, h.state.eq_of_revision ha hb heq]
    exact ⟨⟨x, hx, hxcurrent.grown hgrown hrecorded, hleaves, hsame⟩, hcurrent.quiet.grown hgrown, hcurrent.now,
      ⟨a, ha, hid, hbinding.trans hgb, hrevision.trans hcurrent.revision, hcapabilities⟩,
      ⟨g', hg', hstanding.1.trans hgb, hstanding.2.1.trans hcurrent.revision, hstanding.2.2⟩, hproposes, hcb ▸ htrade⟩
  have hcalls : ∀ c', (w₁.setCall c (.confirmSent token p current.authority.account call)).calls c' =
      if c' = c then .confirmSent token p current.authority.account call else w.calls c' := fun c' => Function.update_apply ..
  -- the proposal is with nobody any more
  have hholds : ∀ x q, (w₁.setCall c (.confirmSent token p current.authority.account call)).Holds x q →
      w.Holds x q ∧ x ≠ .taken c := by
    intro x q hx
    cases x with
    | pending t => exact ⟨hx, nofun⟩
    | taken c' =>
      change ((w₁.setCall c (.confirmSent token p current.authority.account call)).calls c').proposal = some q at hx
      rw [hcalls] at hx
      split at hx
      · cases hx
      · next hne' => exact ⟨hx, fun heq => hne' (Place.taken.inj heq)⟩
  have hheld : w.Holds (.taken c) p := by
    show (w.calls c).proposal = some p
    rw [hcall]
    rfl
  have hunsent : ∀ s ∈ w.history.sent, s.call ≠ c := h.unsent c (by rw [hcall]; rfl)
  exact { h with
    state := h.state.congr rfl rfl
    calls := fun c' => by
      rw [hcalls]
      split
      · next heq =>
        exact ⟨s, List.mem_append_right _ (List.mem_singleton_self s), heq.symm, rfl, rfl, rfl, by rw [hcb]⟩
      · exact h.others hgrown hrecorded c'
    pending := fun t q hq => (h.pending t q hq).grown hrecorded
    unsent := fun c' hs' t ht => by
      rw [hcalls] at hs'
      split at hs'
      · cases hs'
      · next hne' =>
        rcases List.mem_append.1 ht with ht | ht
        · exact h.unsent c' hs' t ht
        · rw [List.mem_singleton.1 ht]
          exact fun heq => hne' heq.symm
    unanswered := fun c' hs' => by
      rw [hcalls] at hs'
      split at hs'
      · next heq =>
        refine h.unanswered c' ?_
        rw [heq, hcall]
        rfl
      · exact h.unanswered c' hs'
    once := {
      unique := fun x y q q' hx hy => h.once.unique x y q q' (hholds x q hx).1 (hholds y q' hy).1
      unsent := fun x q hx => by
        obtain ⟨hold, hxc⟩ := hholds x q hx
        refine ⟨(h.once.unsent x q hold).1, fun t ht => ?_⟩
        rcases List.mem_append.1 ht with ht | ht
        · exact (h.once.unsent x q hold).2 t ht
        · rw [List.mem_singleton.1 ht]
          exact fun heq => hxc (h.once.unique x (.taken c) q p hold hheld heq.symm)
      sent_lt := fun t ht => by
        rcases List.mem_append.1 ht with ht | ht
        · exact h.once.sent_lt t ht
        · rw [List.mem_singleton.1 ht]
          exact (h.once.unsent _ p hheld).1
      numbers := by
        show ((w.history.sent ++ [s]).map _).Nodup
        rw [List.map_append, List.nodup_append]
        refine ⟨h.once.numbers, List.nodup_singleton _, fun x hx y hy => ?_⟩
        obtain ⟨t, ht, rfl⟩ := List.mem_map.1 hx
        rw [List.mem_singleton.1 hy]
        exact (h.once.unsent _ p hheld).2 t ht
      calls := by
        show ((w.history.sent ++ [s]).map _).Nodup
        rw [List.map_append, List.nodup_append]
        refine ⟨h.once.calls, List.nodup_singleton _, fun x hx y hy => ?_⟩
        obtain ⟨t, ht, rfl⟩ := List.mem_map.1 hx
        rw [List.mem_singleton.1 hy]
        exact hunsent t ht }
    gate := fun c' hi => by
      rw [hcalls] at hi
      split at hi
      · next heq =>
        subst heq
        refine h.gate c' ?_
        rw [hcall]
        rfl
      · exact h.gate c' hi
    standing := fun c' q g' hf => by
      rw [hcalls] at hf
      split at hf
      · cases hf
      · exact h.standing c' q g' hf
    sent := fun t ht => by
      rcases List.mem_append.1 ht with ht | ht
      · exact (h.sent t ht).grown hgrown hrecorded
      · rw [List.mem_singleton.1 ht]
        exact hauthorized
    returned := fun r hr => (h.returned r hr).grown hgrown hrecorded }

/-- The host has answered. -/
theorem respond (h : Inv w) {token : String} {p : Prepared} {account : Account} {request : TradeCall}
    (hcall : w.calls c = .confirmSent token p account request) (response : AppResult Order) :
    Inv ({ w with history.answered := w.history.answered ++ [Answered.mk c response] }.setCall c
      ((w.calls c).answer (.receipt (receipt token account request p response)))) := by
  obtain ⟨s, hs, hc, htoken, hp, hrequest, haccount⟩ : ∃ s ∈ w.history.sent, s.call = c ∧ s.token = token ∧ s.prepared = p ∧
      s.request = request ∧ account = p.binding.authority.account := by
    have hinv := h.calls c
    rwa [hcall] at hinv
  set call : Call Params := (w.calls c).answer (.receipt (receipt token account request p response)) with hcall'
  set w₁ : World Params Registry := { w with
    history := { w.history with answered := w.history.answered ++ [Answered.mk c response] } } with hw₁
  have hcalls : ∀ c', (w₁.setCall c call).calls c' = if c' = c then call else w.calls c' := fun c' => Function.update_apply ..
  have hgrown : Grown w.workflow.serial w₁.workflow.serial w.history w₁.history := .of_eq le_rfl rfl rfl
  have hrecorded : Recorded w.history w₁.history :=
    ⟨fun _ hx => hx, fun _ hx => hx, fun _ hx => hx, fun _ hx => hx, fun _ hx => List.mem_append_left _ hx⟩
  have hunanswered : ∀ x ∈ w.history.answered, x.call ≠ c := h.unanswered c (by rw [hcall]; rfl)
  have hholds : ∀ x q, (w₁.setCall c call).Holds x q → w.Holds x q := by
    intro x q hx
    cases x with
    | pending t => exact hx
    | taken c' =>
      change ((w₁.setCall c call).calls c').proposal = some q at hx
      rw [hcalls] at hx
      split at hx
      · cases hx
      · exact hx
  exact { h with
    state := h.state.congr rfl rfl
    calls := fun c' => by
      rw [hcalls]
      split
      · next heq =>
        refine ⟨s, hs, hc.trans heq.symm, _, List.mem_append_right _ (List.mem_singleton_self _), heq.symm, ?_⟩
        rw [htoken, hp, hrequest, haccount]
      · exact h.others hgrown hrecorded c'
    pending := fun t q hq => (h.pending t q hq).grown hrecorded
    unsent := fun c' hs' => by
      rw [hcalls] at hs'
      split at hs'
      · cases hs'
      · exact h.unsent c' hs'
    unanswered := fun c' hs' x hx => by
      rw [hcalls] at hs'
      split at hs'
      · cases hs'
      · next hne =>
        rcases List.mem_append.1 hx with hx | hx
        · exact h.unanswered c' hs' x hx
        · rw [List.mem_singleton.1 hx]
          exact fun heq => hne heq.symm
    answers := by
      show ((w.history.answered ++ [Answered.mk c response]).map _).Nodup
      rw [List.map_append, List.nodup_append]
      refine ⟨h.answers, List.nodup_singleton _, fun x hx y hy => ?_⟩
      obtain ⟨t, ht, rfl⟩ := List.mem_map.1 hx
      rw [List.mem_singleton.1 hy]
      exact hunanswered t ht
    once := ⟨fun x y q q' hx hy => h.once.unique x y q q' (hholds x q hx) (hholds y q' hy),
      fun x q hx => h.once.unsent x q (hholds x q hx), h.once.sent_lt, h.once.numbers, h.once.calls⟩
    gate := fun c' hi => by
      rw [hcalls] at hi
      split at hi
      · cases hi
      · exact h.gate c' hi
    standing := fun c' q g hf => by
      rw [hcalls] at hf
      split at hf
      · cases hf
      · exact h.standing c' q g hf
    sent := fun t ht => (h.sent t ht).grown hgrown hrecorded
    returned := fun r hr => (h.returned r hr).grown hgrown hrecorded }

/-! ### Every step -/

/-- A call that holds nothing any more ends. -/
theorem finished (h : Inv w) {answer : Option (AppResult Answer)} (hcall : w.calls c = .leaving answer []) :
    Inv (w.setCall c (.finished answer)) := by
  have hinv : AnswerInv w.history c answer := by
    have hinv := h.calls c
    rwa [hcall] at hinv
  refine h.setCall ⟨hinv, fun hs => ?_, fun hs => ?_, fun p hp => ?_, fun p g hf => ?_, fun hi => ?_⟩
  · rw [hcall]
    exact hs
  · rw [hcall]
    exact hs
  · cases hp
  · cases hf
  · cases hi

/-- A call drops what it holds. -/
theorem unwound (h : Inv w) {answer : Option (AppResult Answer)} {resource : Compute.Resource} {held : List Compute.Resource}
    (hcall : w.calls c = .leaving answer (resource :: held)) :
    Inv ((w.dropResource c resource).setCall c (.leaving answer held)) := by
  have hinv : AnswerInv w.history c answer := by
    have hinv := h.calls c
    rwa [hcall] at hinv
  have hdrop : Inv (w.dropResource c resource) := by
    cases resource with
    | cancelOnDrop flag | lease flag => exact h.quiet rfl rfl rfl h.epoch (fun _ _ hd => hd) fun _ _ hh => hh
    | operation =>
      refine h.quiet rfl rfl rfl h.epoch (fun _ _ hd => hd) fun c' hi hh => hh.leave fun heq => ?_
      obtain rfl := Compute.GateUser.call.inj heq
      rw [hcall] at hi
      cases hi
  have hcalls : (w.dropResource c resource).calls c = .leaving answer (resource :: held) := by
    cases resource <;> exact hcall
  have hhistory : (w.dropResource c resource).history = w.history := by cases resource <;> rfl
  refine hdrop.setCall ⟨?_, fun hs => ?_, fun hs => ?_, fun p hp => ?_, fun p g hf => ?_, fun hi => ?_⟩
  · rw [hhistory]
    exact hinv
  · rw [hcalls]
    exact hs
  · rw [hcalls]
    exact hs
  · cases hp
  · cases hf
  · cases hi

/-- The caller is gone, or a call returns an error: nothing was sent. -/
theorem abandoned (h : Inv w) (ha : (w.calls c).awaits = true) : Inv (w.setCall c (.leaving none (w.calls c).held)) := by
  refine h.leaving ?_ _ _ trivial
  cases hcall : w.calls c <;> rw [hcall] at ha <;> first | rfl | cases ha

/-- A call goes on with what it knows. -/
theorem goes (h : Inv w) {old : Call Params} (hcall : w.calls c = old) (hc : CallInv w.workflow.serial w.history c call)
    (hs : old.sent = false) (hp : call.proposal = none) (hf : call.found = none) (hi : call.inside = true → old.inside = true) :
    Inv (w.setCall c call) := by
  refine h.setCall (.of_none hc (by rw [hcall]; exact hs) hp hf fun hin => h.gate c ?_)
  rw [hcall]
  exact hi hin

/-- A call takes the free gate. -/
theorem gated (h : Inv w) {gate : FairLock Compute.GateUser} (hg : w.gate.tryLock (.call c) = some gate)
    (hs : (w.calls c).sent = false) (hc : CallInv w.workflow.serial w.history c call) (hp : call.proposal = none)
    (hf : call.found = none) : Inv ({ w with gate }.setCall c call) := by
  obtain ⟨hfree, hline⟩ := FairLock.tryLock_some hg
  have hw : Inv ({ w with gate } : World Params Registry) := h.quiet rfl rfl rfl h.epoch (fun _ _ hd => hd) fun c' _ hheld => by
    have hmem := hheld.mem
    rw [hfree] at hmem
    cases hmem
  refine hw.setCall (.of_none hc hs hp hf fun _ => ?_)
  show gate.line.head? = _
  rw [hline]
  rfl

/-- A call gives the gate back. -/
theorem ungated (h : Inv w) (call : Call Params) (hi : call.inside = false) (hs : (w.calls c).sent = false)
    (hc : CallInv w.workflow.serial w.history c call) (hp : call.proposal = none) (hf : call.found = none)
    (hw : w'.workflow = w.workflow) (hh : w'.history = w.history) (he : w'.computeEpoch = w.computeEpoch)
    (hgate : w'.gate = w.gate.leave (.call c)) (hcalls : w'.calls = Function.update w.calls c call)
    (hd : ∀ c outcome, w'.guests c = .done outcome → w.guests c = .done outcome) : Inv w' := by
  -- first the call, which is not inside any more, then the gate
  have hset : Inv (w.setCall c call) := by
    refine h.setCall (.of_none hc hs hp hf fun hin => ?_)
    rw [hi] at hin
    cases hin
  refine hset.quiet hw hcalls ?_ ?_ hd fun c' hin hheld => ?_
  · rw [hh]
    rfl
  · rw [he, hh]
    exact h.epoch
  · rw [hgate]
    refine FairLock.Held.leave hheld fun heq => ?_
    obtain rfl := Compute.GateUser.call.inj heq
    change ((w.setCall c' call).calls c').inside = true at hin
    rw [show (w.setCall c' call).calls c' = call from Function.update_self .., hi] at hin
    cases hin

/-- The other users of the gate leave the calls their place in its line. -/
theorem regated (h : Inv w) {gate : FairLock Compute.GateUser}
    (hg : ∀ c, w.gate.Held (.call c) → gate.Held (.call c)) : Inv ({ w with gate } : World Params Registry) :=
  h.quiet rfl rfl rfl h.epoch (fun _ _ hd => hd) fun c _ => hg c

/-- A phase of a lifecycle operation. -/
theorem setLifecycle (h : Inv w) (l : ℕ) (phase : Compute.Lifecycle) : Inv (w.setLifecycle l phase) :=
  h.quiet rfl rfl rfl h.epoch (fun _ _ hd => hd) fun _ _ hh => hh

/-- A call reads what it is bound to. -/
theorem bind (h : Inv w) (authority : AppResult AccountAuthority) (K : Crates) : Inv (w.step S K (.bind c authority)) := by
  simp only [World.step]
  split
  · next hheld =>
    have hinv := h.calls c
    split
    · next request hcall =>
      have hs : (w.calls c).sent = false := by rw [hcall]; rfl
      exact h.bound hs fun _ _ _ => .of_none trivial hs rfl rfl fun _ => hheld
    · next request intent hcall =>
      have hs : (w.calls c).sent = false := by rw [hcall]; rfl
      rw [hcall] at hinv
      exact h.bound hs fun _ _ _ => .of_none hinv hs rfl rfl fun _ => hheld
    · next request hcall =>
      have hs : (w.calls c).sent = false := by rw [hcall]; rfl
      exact h.bound hs fun _ _ hb => .of_none hb hs rfl rfl fun _ => hheld
    · next f flag snapshot output hcall =>
      have hs : (w.calls c).sent = false := by rw [hcall]; rfl
      rw [hcall] at hinv
      exact h.bound hs fun _ _ _ => .of_none hinv hs rfl rfl fun _ => hheld
    · next token prepared hcall =>
      have hs : (w.calls c).sent = false := by rw [hcall]; rfl
      rw [hcall] at hinv
      refine h.bound hs fun _ current _ =>
        ⟨hinv, fun _ => hs, fun _ => Call.answered_of_sent hs, fun p hp => ?_, fun p g hf => ?_, fun _ => hheld⟩
      · rw [hcall]
        exact hp
      · cases hf
    · exact h
  · exact h

/-- A section of the mutex in which a grant is looked up. -/
theorem grant (h : Inv w) (K : Crates) : Inv (w.step S K (.grant c)) := by
  simp only [World.step]
  have hinv := h.calls c
  split
  · next request captured b hcall =>
    refine h.granted (by rw [hcall]; rfl) (by rw [hcall]; rfl) (by rw [hcall]; rfl) fun w₁ g h₁ hcalls _ _ _ _ => ?_
    exact h₁.leaving (by rw [hcalls, hcall]; rfl) _ _ trivial
  · next request intent captured b hcall => exact h.applyChange hcall
  · next request captured b advanced hcall =>
    rw [hcall] at hinv
    refine h.granted (by rw [hcall]; rfl) (by rw [hcall]; rfl) (by rw [hcall]; rfl)
      fun w₁ g h₁ hcalls hhistory hgate hlookup hbinding => ?_
    have hs : (w₁.calls c).sent = false := by rw [hcalls, hcall]; rfl
    split
    · next hcheck =>
      -- what the run knows of the grant it has read
      have hg := h₁.state.grants _ _ hlookup
      have hreads : "account.read" ∈ g.capabilities := by
        simp only [World.checkRun, bind_eq_ok, ensure_eq_ok] at hcheck
        obtain ⟨_, -, hmem⟩ := hcheck
        exact hmem
      refine h₁.goes (hcalls ▸ hcall) ⟨hg.intent_le, .now, hinv, hbinding, hg.consented, hreads⟩ rfl rfl rfl fun _ => rfl
    · exact h₁.fail hs _
  · next token prepared current hcall =>
    rw [hcall] at hinv
    refine h.granted (by rw [hcall]; rfl) (by rw [hcall]; rfl) (by rw [hcall]; rfl)
      fun w₁ g h₁ hcalls hhistory hgate hlookup hbinding => ?_
    have hs : (w₁.calls c).sent = false := by rw [hcalls, hcall]; rfl
    obtain ⟨hinv₁, hleft⟩ : PreparedInv w₁.workflow.serial w₁.history prepared ∧ Proposed w₁.history token prepared := by
      have := h₁.calls c
      rwa [hcalls, hcall] at this
    have hg := h₁.state.grants _ _ hlookup
    have hfound : Found w₁.history prepared current g w₁.history.accepted.length :=
      ⟨hbinding, by rw [List.take_length]; exact hg.newest, le_rfl, hg.consented⟩
    refine h₁.setCall ⟨⟨hinv₁, hleft, hfound⟩, fun _ => hs, fun _ => Call.answered_of_sent hs, fun p hp => ?_,
      fun p g' hf => .inr ?_, fun _ => ?_⟩
    · rw [hcalls, hcall]
      exact hp
    · cases hf
      exact ⟨g, hlookup, rfl, rfl, rfl⟩
    · rw [hgate]
      exact h.gate c (by rw [hcall]; rfl)
  · exact h

/-- A run takes the lease. -/
theorem lease (h : Inv w) (K : Crates) : Inv (w.step S K (.lease c)) := by
  have hinv := h.calls c
  simp only [World.step]
  split
  · next f hcall =>
    rw [hcall] at hinv
    split
    · next flag slot hacquire =>
      have hw : Inv ({ w with slot } : World Params Registry) := h.quiet rfl rfl rfl h.epoch (fun _ _ hd => hd) fun _ _ hh => hh
      exact hw.goes hcall hinv rfl rfl rfl fun _ => rfl
    · exact h.fail (by rw [hcall]; rfl) _
  · exact h

/-- The host has answered a run that takes its snapshot. -/
theorem fetches (h : Inv w) (c : ℕ) (answers : SnapshotAnswers) :
    Inv ({ w with history.fetched := w.history.fetched ++ [Fetched.mk c answers] } : World Params Registry) := by
  set w₁ : World Params Registry := { w with
    history := { w.history with fetched := w.history.fetched ++ [Fetched.mk c answers] } } with hw₁
  have hgrown : Grown w.workflow.serial w₁.workflow.serial w.history w₁.history := .of_eq le_rfl rfl rfl
  have hrecorded : Recorded w.history w₁.history :=
    ⟨fun _ hx => hx, fun _ hx => List.mem_append_left _ hx, fun _ hx => hx, fun _ hx => hx, fun _ hx => hx⟩
  exact { h with
    state := h.state.congr rfl rfl
    calls := h.others hgrown hrecorded
    pending := fun token p hp => (h.pending token p hp).grown hrecorded
    once := ⟨h.once.unique, h.once.unsent, h.once.sent_lt, h.once.numbers, h.once.calls⟩
    sent := fun s hm => (h.sent s hm).grown hgrown hrecorded
    returned := fun r hm => (h.returned r hm).grown hgrown hrecorded }

/-- A guest ends. -/
theorem guest (h : Inv w) (c : ℕ) (slot : ComputeSlot) (outcome : Option (AppResult WorkflowOutput)) :
    Inv ({ w with
      slot
      guests := Function.update w.guests c (.done outcome)
      history.produced := w.history.produced ++ [Produced.mk c outcome] } : World Params Registry) := by
  set w₁ : World Params Registry := { w with
    slot := slot
    guests := Function.update w.guests c (.done outcome)
    history := { w.history with produced := w.history.produced ++ [Produced.mk c outcome] } } with hw₁
  have hgrown : Grown w.workflow.serial w₁.workflow.serial w.history w₁.history := .of_eq le_rfl rfl rfl
  have hrecorded : Recorded w.history w₁.history :=
    ⟨fun _ hx => List.mem_append_left _ hx, fun _ hx => hx, fun _ hx => hx, fun _ hx => hx, fun _ hx => hx⟩
  exact { h with
    state := h.state.congr rfl rfl
    calls := h.others hgrown hrecorded
    guests := fun c' outcome' hd => by
      change Function.update w.guests c _ c' = _ at hd
      rw [Function.update_apply] at hd
      split at hd
      · next heq =>
        obtain rfl := Compute.Guest.done.inj hd
        rw [heq]
        exact List.mem_append_right _ (List.mem_singleton_self _)
      · exact List.mem_append_left _ (h.guests c' outcome' hd)
    pending := fun token p hp => (h.pending token p hp).grown hrecorded
    once := ⟨h.once.unique, h.once.unsent, h.once.sent_lt, h.once.numbers, h.once.calls⟩
    sent := fun s hm => (h.sent s hm).grown hgrown hrecorded
    returned := fun r hm => (h.returned r hm).grown hgrown hrecorded }

/-- A run takes its snapshot. -/
theorem snapshot (h : Inv w) (K : Crates) (answers : SnapshotAnswers) : Inv (w.step S K (.snapshot c answers)) := by
  have hinv := h.calls c
  simp only [World.step]
  split
  · next f flag hcall =>
    rw [hcall] at hinv
    split
    · next snapshot hsnapshot =>
      split
      · have hw := h.fetches c answers
        have hframe : FrameInv w.workflow.serial w.history f := hinv
        have hshown := snapshotLocked_shows hsnapshot
        exact hw.goes hcall ⟨hframe.grown (.of_eq le_rfl rfl rfl), _, List.mem_append_right _ (List.mem_singleton_self _), rfl, hshown⟩
          rfl rfl rfl fun _ => rfl
      · exact h.fail (by rw [hcall]; rfl) _
    · exact h.fail (by rw [hcall]; rfl) _
  · exact h

/-- A run lets its guest go. -/
theorem spawn (h : Inv w) (K : Crates) : Inv (w.step S K (.spawn c)) := by
  have hinv := h.calls c
  simp only [World.step]
  split
  · next f flag snapshot hcall =>
    rw [hcall] at hinv
    split
    · refine h.ungated (.runRunning f flag snapshot) rfl (by rw [hcall]; rfl) hinv rfl rfl rfl rfl rfl rfl rfl fun c' outcome hd => ?_
      change Function.update w.guests c _ c' = _ at hd
      rw [Function.update_apply] at hd
      split at hd
      · cases hd
      · exact hd
    · exact h.ungated (.leaving (some (.error _)) _) rfl (by rw [hcall]; rfl) trivial rfl rfl rfl rfl rfl rfl rfl fun _ _ hd => hd
  · exact h

/-- A run reads the output of its guest. -/
theorem resume (h : Inv w) (K : Crates) : Inv (w.step S K (.resume c)) := by
  simp only [World.step]
  have hinv := h.calls c
  split
  · next f flag snapshot output hcall hguest =>
    rw [hcall] at hinv
    split
    · next output' hvalid =>
      exact h.goes hcall ⟨hinv.1, hinv.2, output, h.guests c _ hguest, hvalid⟩ rfl rfl rfl fun hi => nomatch hi
    · exact h.fail (by rw [hcall]; rfl) _
  · next hcall _ => exact h.fail (by rw [hcall]; rfl) _
  · next hcall _ => exact h.fail (by rw [hcall]; rfl) _
  · exact h

/-- **Every step keeps the invariant.** -/
theorem step (h : Inv w) (K : Crates) (a : Action Registry) : Inv (w.step S K a) := by
  cases a with
  | get c request => exact h.queue rfl rfl rfl fun _ _ _ => trivial
  | set c request => exact h.queue rfl rfl rfl fun hvalid _ _ => hvalid
  | confirm c token => exact h.queue rfl rfl rfl fun _ _ _ => trivial
  | run c request =>
    simp only [World.step]
    split
    · next hidle _ =>
      have hs : (w.calls c).sent = false := by rw [hidle]; rfl
      split
      · next gate hgate => exact h.gated hgate hs trivial rfl rfl
      · exact h.leaving hs _ _ trivial
    · next hidle _ => exact h.leaving (by rw [hidle]; rfl) _ _ trivial
    · exact h
  | accept c =>
    simp only [World.step]
    split
    · next request hcall => exact h.acceptChange hcall
    · exact h
  | bind c authority => exact h.bind authority K
  | grant c => exact h.grant K
  | lease c => exact h.lease K
  | snapshot c answers => exact h.snapshot K answers
  | spawn c => exact h.spawn K
  | guest c outcome =>
    simp only [World.step]
    split
    · exact h.guest c _ outcome
    · exact h
  | resume c => exact h.resume K
  | relock c =>
    simp only [World.step]
    split
    · next f flag snapshot output hcall =>
      have hinv := h.calls c
      rw [hcall] at hinv
      split
      · next gate hgate => exact h.gated hgate (by rw [hcall]; rfl) hinv rfl rfl
      · exact h.fail (by rw [hcall]; rfl) _
    · exact h
  | settle c token submissionId nowMs =>
    simp only [World.step]
    split
    · next hcall => exact h.settleRun hcall
    · exact h
  | take c =>
    simp only [World.step]
    split
    · next token hcall =>
      split
      · next hheld =>
        split
        · next prepared hlookup => exact h.take hcall hheld hlookup
        · exact h.fail (by rw [hcall]; rfl) _
      · exact h
    · exact h
  | check c =>
    simp only [World.step]
    split
    · next hcall =>
      split
      · next hcheck => exact h.checkPrepared hcall hcheck
      · exact h.fail (by rw [hcall]; rfl) _
    · exact h
  | send c =>
    simp only [World.step]
    split
    · next hcall =>
      split
      · next htrade => exact h.send hcall htrade
      · exact h.fail (by rw [hcall]; rfl) _
    · exact h
  | respond c response =>
    simp only [World.step]
    split
    · next token prepared account call hcall => exact h.respond hcall response
    · exact h
  | abandon c =>
    simp only [World.step]
    split
    · next ha => exact h.abandoned ha
    · exact h
  | unwind c =>
    simp only [World.step]
    split
    · next hcall => exact h.finished hcall
    · next hcall => exact h.unwound hcall
    · exact h
  | tick d => exact h.quiet rfl rfl rfl h.epoch (fun _ _ hd => hd) fun _ _ hh => hh
  | cancel id =>
    simp only [World.step]
    split
    · exact h.quiet rfl rfl rfl h.epoch (fun _ _ hd => hd) fun _ _ hh => hh
    · exact h
  | reserve l =>
    simp only [World.step]
    split
    · exact (h.regated fun _ hh => hh.lock).setLifecycle l _
    · exact h
  | advance l =>
    simp only [World.step]
    split
    · refine h.quiet rfl rfl rfl ?_ (fun _ _ hd => hd) fun _ _ hh => hh
      have hepoch := h.epoch
      show min (w.computeEpoch + 1) Compute.World.maxEpoch = min (w.history.advanced + 1) Compute.World.maxEpoch
      omega
    · exact h
  | invalidate l =>
    simp only [World.step]
    split
    · exact h.quiet rfl rfl rfl h.epoch (fun _ _ hd => hd) fun _ _ hh => hh
    · exact h
  | enter l =>
    simp only [World.step]
    split
    · split
      · exact h.setLifecycle l _
      · exact h
    · exact h
  | publish l registry discovered =>
    simp only [World.step]
    split
    · exact h.quiet rfl rfl rfl h.epoch (fun _ _ hd => hd) fun _ _ hh => hh
    · exact h
  | finish l =>
    simp only [World.step]
    split
    · exact (h.regated fun _ hh => hh.leave fun heq => by cases heq).setLifecycle l _
    · exact h
  | queueOther o => exact h.regated fun _ hh => hh.lock
  | leaveOther o => exact h.regated fun _ hh => hh.leave fun heq => by cases heq
  | leaseOther o id =>
    simp only [World.step]
    split
    · exact h.quiet rfl rfl rfl h.epoch (fun _ _ hd => hd) fun _ _ hh => hh
    · exact h
  | cancelOther o =>
    simp only [World.step]
    split
    · exact h.quiet rfl rfl rfl h.epoch (fun _ _ hd => hd) fun _ _ hh => hh
    · exact h
  | dropOther o =>
    simp only [World.step]
    split
    · exact h.quiet rfl rfl rfl h.epoch (fun _ _ hd => hd) fun _ _ hh => hh
    · exact h

theorem init (registry : Registry) : Inv (World.init registry : World Params Registry) where
  epoch := rfl
  state := .init
  calls _ := trivial
  guests _ _ hd := by cases hd
  pending token p hp := by
    change (∅ : Table String Prepared).lookup token = some p at hp
    rw [AList.lookup_empty] at hp
    cases hp
  unsent _ _ _ hm := by cases hm
  unanswered _ _ _ hm := by cases hm
  answers := List.nodup_nil
  once := by
    have hnone : ∀ x p, ¬(World.init registry : World Params Registry).Holds x p := by
      intro x p hx
      cases x with
      | pending token =>
        change (∅ : Table String Prepared).lookup token = some p at hx
        rw [AList.lookup_empty] at hx
        cases hx
      | taken c => cases hx
    exact ⟨fun x _ p _ hx => absurd hx (hnone x p), fun x p hx => absurd hx (hnone x p), fun _ hs => (by cases hs), List.nodup_nil,
      List.nodup_nil⟩
  gate _ hi := by cases hi
  standing _ _ _ hf := by cases hf
  sent _ hm := by cases hm
  returned _ hm := by cases hm

end Sections

end Inv

/-! ## Receipts -/

/-- The order that is shown of the host's answer: of an order that is cancelled, what was known
before. -/
def shownOrder (target : Option Order) (order : Order) : Order := (target.map fun t => { t with status := .unknown }).getD order

/-- The host's answer is believed: a valid order, which is the one to cancel if there is one. -/
structure Believed (expected : String) (target : Option Order) (order : Order) : Prop where
  bounded : boundedId order.orderId = true
  cancelled : ∀ t ∈ target, order.orderId = t.orderId
  valid : validateOrder (shownOrder target order) expected = .ok ()

/-- What a receipt says about the host's answer to a request that was sent. -/
structure Reports (s : Sent) (response : AppResult Order) (r : TradeReceipt) : Prop where
  token : r.token = s.token
  account : r.account = s.prepared.binding.authority.account
  action : r.action = s.request.action
  submission : r.submissionId = s.prepared.submissionId
  accepted : r.status = .accepted ↔ ∃ order, response = .ok order ∧ Believed (proposedSymbol s.prepared.output) s.prepared.target order
  rejected : r.status = .rejected ↔ ∃ e, response = .error e ∧ knownRejection e = true
  order : ∀ o, r.order = some o ↔ ∃ order, response = .ok order ∧
    Believed (proposedSymbol s.prepared.output) s.prepared.target order ∧ shownOrder s.prepared.target order = o
  code : r.errorCode = match r.status with
    | .accepted => none
    | .rejected => some "plugin_workflow_rejected"
    | .unknown => some "plugin_workflow_unknown"

theorem toOption_isSome {α : Type} {x : AppResult α} : x.toOption.isSome = true ↔ ∃ a, x = .ok a := by
  cases x with
  | ok a => exact ⟨fun _ => ⟨a, rfl⟩, fun _ => rfl⟩
  | error e => exact ⟨nofun, nofun⟩

/-- An order is shown if it is believed; otherwise the outcome is unknown. -/
theorem tradeOutcome_ok (expected : String) (target : Option Order) (order : Order) :
    (Believed expected target order ∧ tradeOutcome expected target (.ok order) = (.accepted, some (shownOrder target order), none)) ∨
    (¬Believed expected target order ∧
      tradeOutcome expected target (.ok order) = (.unknown, none, some "plugin_workflow_unknown")) := by
  unfold tradeOutcome
  dsimp only
  split
  · next hid =>
    cases target with
    | none =>
      dsimp only
      split
      · next hvalid =>
        obtain ⟨_, hvalid⟩ := toOption_isSome.1 hvalid
        exact .inl ⟨⟨hid, nofun, hvalid⟩, rfl⟩
      · next hvalid => exact .inr ⟨fun h => hvalid (toOption_isSome.2 ⟨(), h.valid⟩), rfl⟩
    | some t =>
      dsimp only
      split
      · next hne => exact .inr ⟨fun h => hne (h.cancelled t rfl), rfl⟩
      next heq =>
      split
      · next hvalid =>
        obtain ⟨_, hvalid⟩ := toOption_isSome.1 hvalid
        refine .inl ⟨⟨hid, fun t' ht' => ?_, hvalid⟩, rfl⟩
        cases ht'
        exact not_not.1 heq
      · next hvalid => exact .inr ⟨fun h => hvalid (toOption_isSome.2 ⟨(), h.valid⟩), rfl⟩
  · next hid => exact .inr ⟨fun h => hid h.bounded, rfl⟩

theorem reports_receipt (s : Sent) (response : AppResult Order) :
    Reports s response (receipt s.token s.prepared.binding.authority.account s.request s.prepared response) := by
  cases response with
  | ok order =>
    rcases tradeOutcome_ok (proposedSymbol s.prepared.output) s.prepared.target order with ⟨hb, hout⟩ | ⟨hb, hout⟩
    · unfold receipt
      rw [hout]
      exact ⟨rfl, rfl, rfl, rfl, ⟨fun _ => ⟨order, rfl, hb⟩, fun _ => rfl⟩, ⟨nofun, nofun⟩,
        fun o => ⟨fun h => ⟨order, rfl, hb, Option.some.inj h⟩, fun ⟨_, heq, _, ho⟩ => by cases heq; exact congrArg some ho⟩, rfl⟩
    · unfold receipt
      rw [hout]
      exact ⟨rfl, rfl, rfl, rfl, ⟨nofun, fun ⟨_, heq, h⟩ => absurd (by cases heq; exact h) hb⟩, ⟨nofun, nofun⟩,
        fun o => ⟨nofun, fun ⟨_, heq, h, _⟩ => absurd (by cases heq; exact h) hb⟩, rfl⟩
  | error failure =>
    have hnone : ¬∃ order, (Except.error failure : AppResult Order) = .ok order ∧
        Believed (proposedSymbol s.prepared.output) s.prepared.target order := nofun
    unfold receipt tradeOutcome
    dsimp only
    split
    · next hknown =>
      exact ⟨rfl, rfl, rfl, rfl, ⟨nofun, nofun⟩, ⟨fun _ => ⟨failure, rfl, hknown⟩, fun _ => rfl⟩, fun o => ⟨nofun, nofun⟩, rfl⟩
    · next hknown =>
      exact ⟨rfl, rfl, rfl, rfl, ⟨nofun, nofun⟩, ⟨nofun, fun ⟨_, heq, h⟩ => absurd (by cases heq; exact h) hknown⟩,
        fun o => ⟨nofun, nofun⟩, rfl⟩

/-! ## Every run -/

section Runs

variable (S : Sources Registry Params) (K : Crates) (registry : Registry) (as : List (Action Registry))

theorem inv_run : Inv (World.run S K registry as) := Steps.run_inv (fun _ a h => h.step K a) as _ (.init registry)

/-- **Whatever is handed to the host is authorized**, in every run: it was returned, under the token
that was confirmed, by a run whose own guest has proposed it, and is valid; the user has consented to
the capabilities it needs as the very grant the run has read, no change of the plugin's grants was
accepted and no epoch has passed between that reading and the check, which came within a minute, and
the consent stands. -/
theorem sent_authorized : ∀ s ∈ (World.run S K registry as).history.sent, Authorized (World.run S K registry as).history s :=
  (inv_run S K registry as).sent

end Runs

theorem sampleDigest : byteLen (String.ofList (List.replicate 64 'a')) = 64 ∧
    (String.ofList (List.replicate 64 'a')).toList.all isHex := by decide +kernel

def sampleSources : Sources Unit Unit where
  captureWorkflow _ _ := .ok ⟨(), ⟨"a.b", .localDeclarative, "a.b", ⟨_, sampleDigest⟩⟩, ["account.read", "market.read", "trade.place"]⟩
  hasModule _ := true
  contextSize _ := 2

def sampleAuthority : AppResult AccountAuthority := .ok ⟨⟨"u-1", "7", "https://api"⟩, "p-1"⟩

def sampleToken : String := "00000000-0000-4000-8000-000000000000"

/-- The user grants three capabilities, the guest is shown the market and proposes an order, and the
user confirms it. -/
def sampleSteps : List (Action Unit) :=
  [.reserve 0, .advance 0, .invalidate 0, .enter 0, .publish 0 () true, .finish 0,
    .get 0 ⟨"a.b", "a.b", "1", "1"⟩, .bind 0 sampleAuthority, .grant 0, .unwind 0, .unwind 0,
    .set 1 ⟨"a.b", "a.b", "1", "1", "u-1", "7", "1", ["account.read", "market.read", "trade.place"]⟩, .accept 1, .bind 1 sampleAuthority,
    .grant 1, .unwind 1, .unwind 1,
    .run 2 ⟨"a.b", "a.b", "1", "1", "r-1", "u-1", "7", "3", "BTCUSDT", "\x7b\x7d"⟩, .bind 2 sampleAuthority, .grant 2, .lease 2,
    .snapshot 2 ⟨(.ok [], 0), (.ok [], 0), (.ok [], 0), (.ok ⟨"BTCUSDT", "100", "99", "101", "100"⟩, 0), 0⟩, .spawn 2,
    .guest 2 (some (.ok (.placeOrder ⟨"BTCUSDT", "Buy", "Market", "1", none, "IOC", 1, false⟩))), .resume 2, .relock 2,
    .bind 2 sampleAuthority, .settle 2 sampleToken sampleToken 0, .unwind 2, .unwind 2, .unwind 2, .unwind 2,
    .confirm 3 sampleToken, .take 3, .bind 3 sampleAuthority, .grant 3, .check 3, .send 3]

theorem sent_authorized_sample : ∃ s ∈ (World.run sampleSources Crates.sample () sampleSteps).history.sent,
    Authorized (World.run sampleSources Crates.sample () sampleSteps).history s := by
  have hlength : (World.run sampleSources Crates.sample () sampleSteps).history.sent.length = 1 := by decide +kernel
  obtain ⟨s, hs⟩ := List.exists_mem_of_length_pos (by rw [hlength]; exact Nat.one_pos)
  exact ⟨s, hs, sent_authorized sampleSources Crates.sample () sampleSteps s hs⟩

section Runs

variable (S : Sources Registry Params) (K : Crates) (registry : Registry) (as : List (Action Registry))

/-- The receipt a call has returned. -/
def Call.receipt : Call Params → Option TradeReceipt
  | .finished (some (.ok (.receipt r))) => some r
  | _ => none

theorem Call.eq_of_receipt {call : Call Params} {r : TradeReceipt} (h : call.receipt = some r) :
    call = .finished (some (.ok (.receipt r))) := by
  unfold Call.receipt at h
  split at h
  · cases h
    rfl
  · cases h

/-- The host accepts the order, and the confirmation returns its receipt. -/
def answeredSteps : List (Action Unit) :=
  sampleSteps ++ [.respond 3 (.ok ⟨"o-1", "BTCUSDT", "Buy", "Market", "", "1", .filled, none, "1", "100"⟩), .unwind 3, .unwind 3]

/-- **What a run returns is current**: it shows exactly the sections that the user has granted, of the
account the grant is for, with the output of its guest, which was checked against them, and neither
the grant nor the binding has changed between its reads. -/
theorem results_current : ∀ c r, (World.run S K registry as).calls c = .finished (some (.ok (.result r))) →
    ∃ x ∈ (World.run S K registry as).history.returned, x.call = c ∧ x.result = r ∧
      x.Current (World.run S K registry as).history := by
  intro c r hcall
  have h := inv_run S K registry as
  have hinv := h.calls c
  rw [hcall] at hinv
  obtain ⟨x, hx, hxc, hresult⟩ := hinv
  exact ⟨x, hx, hxc, hresult, h.returned x hx⟩

/-- The result a call has returned. -/
def Call.returned : Call Params → Option WorkflowResult
  | .finished (some (.ok (.result r))) => some r
  | _ => none

theorem Call.eq_of_returned {call : Call Params} {r : WorkflowResult} (h : call.returned = some r) :
    call = .finished (some (.ok (.result r))) := by
  unfold Call.returned at h
  split at h
  · cases h
    rfl
  · cases h

theorem results_current_sample :
    ∃ r, (World.run sampleSources Crates.sample () sampleSteps).calls 2 = .finished (some (.ok (.result r))) ∧
      r.snapshot.market.isSome = true ∧ r.snapshot.orders = none ∧
      ∃ x ∈ (World.run sampleSources Crates.sample () sampleSteps).history.returned, x.call = 2 ∧ x.result = r ∧
        x.Current (World.run sampleSources Crates.sample () sampleSteps).history := by
  have hcall : ((World.run sampleSources Crates.sample () sampleSteps).calls 2).returned.map
      (fun r => (r.snapshot.market.isSome, r.snapshot.orders)) = some (true, none) := by decide +kernel
  obtain ⟨r, hr, hshown⟩ := Option.map_eq_some_iff.1 hcall
  obtain ⟨hmarket, horders⟩ := Prod.mk.inj hshown
  have hfinished := Call.eq_of_returned hr
  exact ⟨r, hfinished, hmarket, horders, results_current sampleSources Crates.sample () sampleSteps 2 r hfinished⟩

/-- **The grants are changed one after the other**: a change that is applied was valid, within
what the plugin asks for, the last that was accepted for the plugin, and has replaced the
revision it expected; two that were applied for one plugin did not expect the same. -/
theorem grants_serialized :
    (∀ a ∈ (World.run S K registry as).history.applied,
      AppliedInv (World.run S K registry as).workflow.serial (World.run S K registry as).history a) ∧
    ((World.run S K registry as).history.applied.Pairwise fun a b => a.revision < b.revision ∧
      (a.request.pluginId = b.request.pluginId → a.request.expectedGrantRevision ≠ b.request.expectedGrantRevision)) ∧
    (World.run S K registry as).workflow.grants.size ≤ 256 ∧ (World.run S K registry as).workflow.pending.size ≤ 32 := by
  have h := (inv_run S K registry as).state
  refine ⟨h.applied, ?_, h.grants_size, h.pending_size⟩
  refine h.chain.imp_of_mem fun {a b} ha hb hab => ⟨hab.1, fun hid heq => ?_⟩
  obtain ⟨g, -, -, hg, -, hlt⟩ := (h.applied a ha).replaced
  obtain ⟨g', hstanding', -, hg', -, -⟩ := (h.applied b hb).replaced
  have hle := hab.2 hid g' hstanding'
  -- `a` has replaced a revision before its own, and `b` none before that
  have hsame : g.revision = g'.revision := by
    have hread := congrArg (fun v => Nat.ofDigitChars 10 v.toList 0) (hg.trans (heq.trans hg'.symm))
    simpa [Nat.ofDigitChars_toDigits] using hread
  omega

end Runs

end Workflow

end EasiFlux
