import EasiFlux.Model.Contract
import EasiFlux.Model.Manifest
import EasiFlux.Model.Supervisor

/-!
# The contract of account workflows

The requests, answers and checks of `plugin/workflow/contract.rs` beside those of
`Model.Contract`, `snapshot_locked` of `plugin/workflow/host.rs`, and the receipt that
`confirm_owned` of `plugin/runtime/workflow.rs` makes of what the host has answered.

What the host returns, and the time it shows, are arguments. A time in milliseconds is kept as
a number where the code makes a text of it.

* `snapshotLocked_shows`: a snapshot shows what was granted, and every row of it was checked.
-/

namespace EasiFlux

namespace Workflow

open Fixed Results

/-! ## Requests -/

/-- `contract::error` with the code of a request that is not well formed. -/
def invalidRequest : AppError := workflowError "plugin_workflow_invalid_request"

structure GrantRequest where
  pluginId : String
  contributionId : String
  expectedCatalogGeneration : String
  expectedRevision : String
  expectedAccountId : String
  expectedSessionEpoch : String
  expectedGrantRevision : String
  capabilities : List String
  deriving DecidableEq, Repr

structure RunRequest where
  pluginId : String
  contributionId : String
  expectedCatalogGeneration : String
  expectedRevision : String
  requestId : String
  expectedAccountId : String
  expectedSessionEpoch : String
  expectedGrantRevision : String
  symbol : String
  inputJson : String
  deriving DecidableEq, Repr

def GrantRequest.authority (r : GrantRequest) : AuthorityRequest :=
  ⟨r.pluginId, r.contributionId, r.expectedCatalogGeneration, r.expectedRevision⟩

def RunRequest.authority (r : RunRequest) : AuthorityRequest :=
  ⟨r.pluginId, r.contributionId, r.expectedCatalogGeneration, r.expectedRevision⟩

/-! ## Snapshots -/

structure Balance where
  asset : String
  available : String
  frozen : String
  total : String
  deriving DecidableEq, Repr

structure Position where
  symbol : String
  side : String
  size : String
  entryPrice : String
  leverage : String
  unrealisedPnl : String
  positionIdx : ℤ
  deriving DecidableEq, Repr

structure Quote where
  symbol : String
  lastPrice : String
  bidPrice : String
  askPrice : String
  markPrice : String
  deriving DecidableEq, Repr

structure Section (α : Type) where
  items : List α
  fetchedAtMs : ℕ
  isPartial : Bool
  deriving DecidableEq, Repr

structure MarketSection where
  ticker : Quote
  fetchedAtMs : ℕ
  deriving DecidableEq, Repr

structure Snapshot where
  schemaVersion : ℕ
  account : Account
  capturedAtMs : ℕ
  symbol : String
  grantedCapabilities : List String
  balances : Option (Section Balance)
  positions : Option (Section Position)
  orders : Option (Section Order)
  market : Option MarketSection
  deriving DecidableEq, Repr

/-- What the host answers while a snapshot is taken, and the clock after each answer. -/
structure SnapshotAnswers where
  balances : AppResult (List Balance) × ℕ
  positions : AppResult (List Position) × ℕ
  orders : AppResult (List Order) × ℕ
  market : AppResult Quote × ℕ
  capturedAtMs : ℕ

/-- Every one of the values is a decimal numeral. -/
def decimals (values : List String) (positive : Bool) : AppResult Unit :=
  values.forM fun value => do
    let _ ← decimal value positive

def checkBalance (b : Balance) : AppResult Unit := do
  symbol b.asset
  decimals [b.available, b.frozen, b.total] false

def checkPosition (symbolValue : String) (p : Position) : AppResult Unit := do
  ensure (p.symbol = symbolValue ∧ p.side ∈ ["Buy", "Sell"] ∧ 0 ≤ p.positionIdx ∧ p.positionIdx ≤ 2) unavailable
  decimals [p.size, p.entryPrice, p.leverage, p.unrealisedPnl] false

def checkQuote (symbolValue : String) (q : Quote) : AppResult Unit := do
  ensure (q.symbol = symbolValue) unavailable
  decimals [q.lastPrice, q.bidPrice, q.askPrice, q.markPrice] true

/-- A section of at most a hundred rows, each of them checked; every error is `safe()`. -/
def readSection {α : Type} (check : α → AppResult Unit) (answer : AppResult (List α) × ℕ) : AppResult (Section α) := do
  let items ← answer.1.mapError fun _ => unavailable
  let items := items.take 100
  (items.forM check).mapError fun _ => unavailable
  pure ⟨items, answer.2, true⟩

def readMarket (symbolValue : String) (answer : AppResult Quote × ℕ) : AppResult MarketSection := do
  let ticker ← answer.1.mapError fun _ => unavailable
  (checkQuote symbolValue ticker).mapError fun _ => unavailable
  pure ⟨ticker, answer.2⟩

/-- The section is read when its capability is granted. -/
def whenGranted {α : Type} (capabilities : List String) (capability : String) (read : AppResult α) : AppResult (Option α) :=
  if capability ∈ capabilities then read.map some else .ok none

def snapshotLocked (authority : AccountAuthority) (symbolValue : String) (capabilities : List String)
    (answers : SnapshotAnswers) : AppResult Snapshot := do
  let balances ← whenGranted capabilities "balances.read" (readSection checkBalance answers.balances)
  let positions ← whenGranted capabilities "positions.read" (readSection (checkPosition symbolValue) answers.positions)
  let orders ← whenGranted capabilities "orders.read" (readSection (fun o => validateOrder o symbolValue) answers.orders)
  let market ← whenGranted capabilities "market.read" (readMarket symbolValue answers.market)
  pure {
    schemaVersion := 1
    account := authority.account
    capturedAtMs := answers.capturedAtMs
    symbol := symbolValue
    grantedCapabilities := capabilities
    balances := balances
    positions := positions
    orders := orders
    market := market }

/-! ## Receipts -/

inductive TradeStatus
  | accepted
  | rejected
  | unknown
  deriving DecidableEq, Repr

structure TradeReceipt where
  schemaVersion : ℕ
  token : String
  account : Account
  action : String
  status : TradeStatus
  submissionId : Option String
  order : Option Order
  errorCode : Option String
  deriving DecidableEq, Repr

/-- The status, the order and the error code of a receipt. A host that has answered with another
order than the one to cancel is not believed, and of the order that was cancelled nothing is
said but what was captured before. -/
def tradeOutcome (expected : String) (target : Option Order) (response : AppResult Order) :
    TradeStatus × Option Order × Option String :=
  let unknown := (TradeStatus.unknown, none, some "plugin_workflow_unknown")
  match response with
  | .ok order =>
    if boundedId order.orderId then
      match target with
      | some target =>
        if order.orderId ≠ target.orderId then unknown
        else
          let order := { target with status := .unknown }
          if (validateOrder order expected).toOption.isSome then (.accepted, some order, none) else unknown
      | none => if (validateOrder order expected).toOption.isSome then (.accepted, some order, none) else unknown
    else unknown
  | .error failure => if knownRejection failure then (.rejected, none, some "plugin_workflow_rejected") else unknown

/-! ## What a snapshot holds -/

section Snapshots

variable {α : Type} {capabilities : List String} {capability : String} {read : AppResult α} {o : Option α}

theorem forM_eq_ok {check : α → AppResult Unit} : ∀ {items : List α}, items.forM check = .ok () ↔ ∀ x ∈ items, check x = .ok ()
  | [] => by
    show (Except.ok () : AppResult Unit) = .ok () ↔ _
    simp
  | x :: items => by
    show (check x >>= fun _ => items.forM check) = .ok () ↔ _
    rw [bind_eq_ok, List.forall_mem_cons]
    constructor
    · rintro ⟨_, hx, hrest⟩
      exact ⟨hx, forM_eq_ok.1 hrest⟩
    · rintro ⟨hx, hrest⟩
      exact ⟨(), hx, forM_eq_ok.2 hrest⟩

theorem whenGranted_ok : whenGranted capabilities capability read = .ok o ↔
    (capability ∈ capabilities → ∃ x, read = .ok x ∧ o = some x) ∧ (capability ∉ capabilities → o = none) := by
  unfold whenGranted
  split
  · next h =>
    rw [map_eq_ok]
    constructor
    · rintro ⟨x, hx, rfl⟩
      exact ⟨fun _ => ⟨x, hx, rfl⟩, fun hn => absurd h hn⟩
    · rintro ⟨hin, -⟩
      obtain ⟨x, hx, rfl⟩ := hin h
      exact ⟨x, hx, rfl⟩
  · next h =>
    simp only [Except.ok.injEq, h, false_implies, not_false_eq_true, true_implies, true_and]
    exact eq_comm

/-- A section was read because its capability is granted. -/
theorem granted_of_mem {x : α} (h : whenGranted capabilities capability read = .ok o) (hx : x ∈ o) :
    capability ∈ capabilities ∧ read = .ok x := by
  obtain ⟨hin, hout⟩ := whenGranted_ok.1 h
  by_cases hc : capability ∈ capabilities
  · obtain ⟨y, hy, rfl⟩ := hin hc
    cases hx
    exact ⟨hc, hy⟩
  · cases hout hc
    cases hx

theorem readSection_ok {check : α → AppResult Unit} {answer : AppResult (List α) × ℕ} {s : Section α}
    (h : readSection check answer = .ok s) : (∃ items, answer.1 = .ok items ∧ s.items = items.take 100) ∧
      s.fetchedAtMs = answer.2 ∧ ∀ x ∈ s.items, check x = .ok () := by
  simp only [readSection, bind_eq_ok, mapError_eq_ok, pure_eq_ok] at h
  obtain ⟨items, hitems, _, hcheck, rfl⟩ := h
  exact ⟨⟨items, hitems, rfl⟩, rfl, forM_eq_ok.1 hcheck⟩

theorem readMarket_ok {symbolValue : String} {answer : AppResult Quote × ℕ} {s : MarketSection}
    (h : readMarket symbolValue answer = .ok s) :
    answer.1 = .ok s.ticker ∧ s.fetchedAtMs = answer.2 ∧ checkQuote symbolValue s.ticker = .ok () := by
  simp only [readMarket, bind_eq_ok, mapError_eq_ok, pure_eq_ok] at h
  obtain ⟨ticker, hticker, _, hcheck, rfl⟩ := h
  exact ⟨hticker, rfl, hcheck⟩

/-- A section is shown if and only if its capability was granted: the first hundred rows of the
host's answer, each of them checked. -/
def ShowsRows (capabilities : List String) (capability : String) (check : α → AppResult Unit) (answer : AppResult (List α) × ℕ)
    (shown : Option (Section α)) : Prop :=
  (capability ∈ capabilities ↔ shown.isSome) ∧ ∀ x ∈ shown,
    (∃ items, answer.1 = .ok items ∧ x.items = items.take 100) ∧ x.fetchedAtMs = answer.2 ∧ ∀ row ∈ x.items, check row = .ok ()

/-- What a snapshot shows of an account for a symbol: the sections that were granted, as the host has
answered. -/
structure Snapshot.Shows (s : Snapshot) (account : Account) (symbolValue : String) (capabilities : List String)
    (answers : SnapshotAnswers) : Prop where
  of_account : s.account = account
  of_symbol : s.symbol = symbolValue
  granted : s.grantedCapabilities = capabilities
  balances : ShowsRows capabilities "balances.read" checkBalance answers.balances s.balances
  positions : ShowsRows capabilities "positions.read" (checkPosition symbolValue) answers.positions s.positions
  orders : ShowsRows capabilities "orders.read" (fun o => validateOrder o symbolValue) answers.orders s.orders
  market : ("market.read" ∈ capabilities ↔ s.market.isSome) ∧ ∀ x ∈ s.market,
    answers.market.1 = .ok x.ticker ∧ x.fetchedAtMs = answers.market.2 ∧ checkQuote symbolValue x.ticker = .ok ()

theorem shown_iff (h : whenGranted capabilities capability read = .ok o) : capability ∈ capabilities ↔ o.isSome := by
  obtain ⟨hin, hout⟩ := whenGranted_ok.1 h
  constructor
  · intro hc
    obtain ⟨x, -, rfl⟩ := hin hc
    rfl
  · intro hsome
    by_contra hc
    rw [hout hc] at hsome
    cases hsome

theorem showsRows {check : α → AppResult Unit} {answer : AppResult (List α) × ℕ} {shown : Option (Section α)}
    (h : whenGranted capabilities capability (readSection check answer) = .ok shown) :
    ShowsRows capabilities capability check answer shown :=
  ⟨shown_iff h, fun _ hx => readSection_ok (granted_of_mem h hx).2⟩

theorem snapshotLocked_shows {authority : AccountAuthority} {symbolValue : String} {answers : SnapshotAnswers} {s : Snapshot}
    (h : snapshotLocked authority symbolValue capabilities answers = .ok s) :
    s.Shows authority.account symbolValue capabilities answers := by
  simp only [snapshotLocked, bind_eq_ok, pure_eq_ok] at h
  obtain ⟨balances, hb, positions, hp, orders, ho, market, hm, rfl⟩ := h
  exact ⟨rfl, rfl, rfl, showsRows hb, showsRows hp, showsRows ho, shown_iff hm, fun x hx => readMarket_ok (granted_of_mem hm hx).2⟩

end Snapshots

end Workflow

end EasiFlux
