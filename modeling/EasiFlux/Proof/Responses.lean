import EasiFlux.Lib.Steps
import EasiFlux.Model.Responses

/-!
# Orders and tickers as they are read

* **`create_order_agrees`**: when the classification of a create-order answer and the parsed
  order say the same. They look at the identity and at the status under different keys.
* **`ticker_follows`**: a ticker after a sequence of messages. Each price field is what was last
  read for it; the 24-hour change and the next funding time are right exactly as long as no
  message has a previous price to compute from, or a funding time that cannot be read.
-/

namespace EasiFlux

open Mapper Response Steps

/-! ## Accepted orders -/

section Orders

/-- The payload is a successful envelope around an object. -/
structure Enveloped (payload data : Json) : Prop where
  code : ∃ code, payload.get "code" = some code ∧ code.asInt = some 0
  unwrapped : payload.get "data" = some data
  object : data.isObject = true

/-- Numbers are not written with letters in front. -/
def isNumeral (text : String) : Bool := text.toList.head?.any fun c => c.isDigit || c == '-'

/-- What `serde_json` prints a number as. -/
def PrintsNumbers (data : Json) : Prop := ∀ key text, data.get key = some (.float text) → isNumeral text = true

variable {payload data : Json}

/-- The answer says that the order was rejected. -/
def RejectedStatus (data : Json) : Prop := (stringStatus data).any (fun status => OrderStatus.fromRaw status = .rejected) = true

/-- The answer names the order. -/
def Identified (data : Json) : Prop := ∃ id, data.get "order_id" = some (.string id) ∧ isBlank id = false

theorem identified_iff :
    ((data.get "order_id").bind Json.asStr).any (fun orderId => !isBlank orderId) = true ↔ Identified data := by
  unfold Identified
  cases data.get "order_id" with
  | none => simp
  | some v => cases v <;> simp [Json.asStr]

theorem classify_of_enveloped (h : Enveloped payload data) : classifyCreateOrderOutcome payload =
    if (stringStatus data).any fun status => OrderStatus.fromRaw status = .rejected then .rejected
    else if ((data.get "order_id").bind Json.asStr).any fun orderId => !isBlank orderId then .accepted data
    else .ambiguous := by
  obtain ⟨⟨code, hcode, hzero⟩, hdata, hobj⟩ := h
  have hfilter : (some data).filter Json.isObject = some data := by simp [Option.filter, hobj]
  unfold classifyCreateOrderOutcome
  simp only [hcode, hzero, ne_eq, not_true_eq_false, if_false, hdata, hfilter]

/-- Outside of a successful envelope nothing is decided. -/
theorem enveloped_of_classify (payload : Json) (h : classifyCreateOrderOutcome payload ≠ .ambiguous) : ∃ data, Enveloped payload data := by
  unfold classifyCreateOrderOutcome at h
  cases hcode : payload.get "code" with
  | none => rw [hcode] at h; exact (h rfl).elim
  | some code =>
    rw [hcode] at h
    dsimp only at h
    split at h
    · exact (h rfl).elim
    · rename_i hzero
      cases hdata : (payload.get "data").filter Json.isObject with
      | none => rw [hdata] at h; exact (h rfl).elim
      | some data =>
        obtain ⟨hget, hobj⟩ := Option.filter_eq_some_iff.1 hdata
        exact ⟨data, ⟨code, hcode, not_not.1 hzero⟩, hget, hobj⟩

theorem classify_rejected (h : Enveloped payload data) :
    classifyCreateOrderOutcome payload = .rejected ↔ RejectedStatus data := by
  rw [classify_of_enveloped h]
  unfold RejectedStatus
  split_ifs with hrej hid
  · simp [hrej]
  · simp [hrej]
  · simp [hrej]

theorem classify_accepted (h : Enveloped payload data) {c : Json} :
    classifyCreateOrderOutcome payload = .accepted c ↔ c = data ∧ ¬RejectedStatus data ∧ Identified data := by
  rw [classify_of_enveloped h, ← identified_iff]
  unfold RejectedStatus
  split_ifs with hrej hid
  · simp [hrej]
  · exact ⟨fun hc => ⟨(CreateOrderOutcome.accepted.inj hc).symm, hrej, hid⟩, fun hc => congrArg _ hc.1.symm⟩
  · simp [hrej, hid]

/-! ### Texts and numbers -/

theorem isNumeral_toString (n : ℤ) : isNumeral (toString n) = true := by
  have hdigits : ∀ m : ℕ, ∃ c rest, m.repr.toList = c :: rest ∧ c.isDigit = true := by
    intro m
    rw [Nat.toList_repr]
    obtain ⟨c, rest, hc⟩ := List.exists_cons_of_ne_nil (Nat.toDigits_ne_nil (n := m) (b := 10))
    have hmem : c ∈ Nat.toDigits 10 m := hc ▸ List.mem_cons_self
    exact ⟨c, rest, hc, Nat.isDigit_of_mem_toDigits (by decide) (by decide) hmem⟩
  unfold isNumeral
  cases n with
  | ofNat m =>
    obtain ⟨c, rest, hc, hd⟩ := hdigits m
    show ((m.repr).toList.head?.any fun c => c.isDigit || c == '-') = true
    simp [hc, hd]
  | negSucc m =>
    show (("-" ++ (m + 1).repr).toList.head?.any fun c => c.isDigit || c == '-') = true
    simp

/-- No numeral is a status. -/
theorem fromRaw_of_isNumeral {text : String} (h : isNumeral text = true) : OrderStatus.fromRaw text = .unknown := by
  obtain ⟨c, hc, hnum⟩ : ∃ c, text.toList.head? = some c ∧ (c.isDigit || c == '-') = true := by
    unfold isNumeral at h
    cases hhead : text.toList.head? with
    | none => rw [hhead] at h; cases h
    | some c => rw [hhead] at h; exact ⟨c, rfl, h⟩
  have hlower : c.toLower = c := by
    have hlt : c.toNat < 65 := by
      rcases Bool.or_eq_true_iff.1 hnum with hd | hm
      · have h9 : c.toNat ≤ 57 := (Char.isDigit_iff_toNat.1 hd).2
        omega
      · rw [beq_iff_eq.1 hm]
        decide
    unfold Char.toLower
    rw [dif_neg]
    intro hup
    have h65 : 65 ≤ c.toNat := UInt32.le_iff_toNat_le.1 hup.1
    omega
  have hhead : (String.ofList (text.toList.map Char.toLower)).toList.head? = some c := by
    rw [String.toList_ofList, List.head?_map, hc, Option.map_some, hlower]
  have hne : ∀ s : String, (s.toList.head?.any fun c => c.isDigit || c == '-') = false →
      String.ofList (text.toList.map Char.toLower) ≠ s := by
    intro s hs he
    rw [← he, hhead, Option.any_some, hnum] at hs
    cases hs
  unfold OrderStatus.fromRaw
  simp only [List.mem_cons, List.not_mem_nil, or_false, hne "new" rfl, hne "created" rfl, hne "active" rfl,
    hne "untriggered" rfl, hne "partiallyfilled" rfl, hne "partially_filled" rfl, hne "filled" rfl,
    hne "cancelled" rfl, hne "canceled" rfl, hne "rejected" rfl, if_false]

/-- The first of the keys that holds a string or a number holds a number. -/
def numberFirst (data : Json) (keys : List String) : Bool :=
  (keys.findSome? fun key =>
    match data.get key with
    | some (.string _) => some false
    | some (.int _) => some true
    | some (.float _) => some true
    | _ => none).getD false

/-- Without a number in front the first text is the first string. -/
theorem getStr_of_stringFirst {keys : List String} (h : numberFirst data keys = false) :
    getStr data keys = keys.findSome? fun key => (data.get key).bind Json.asStr := by
  unfold getStr
  unfold numberFirst at h
  induction keys with
  | nil => rfl
  | cons key rest ih =>
    rw [List.findSome?_cons] at h ⊢
    rw [List.findSome?_cons]
    cases hget : data.get key with
    | none =>
      rw [hget] at h
      exact ih h
    | some v =>
      rw [hget] at h
      cases v with
      | string s => rfl
      | int n => cases h
      | float text => cases h
      | _ => exact ih h

theorem getStr_of_numberFirst (hp : PrintsNumbers data) {keys : List String} (h : numberFirst data keys = true) :
    ∃ text, getStr data keys = some text ∧ isNumeral text = true := by
  unfold getStr
  unfold numberFirst at h
  induction keys with
  | nil => cases h
  | cons key rest ih =>
    rw [List.findSome?_cons] at h ⊢
    cases hget : data.get key with
    | none =>
      rw [hget] at h
      exact ih h
    | some v =>
      rw [hget] at h
      cases v with
      | string s => cases h
      | int n => exact ⟨_, rfl, isNumeral_toString n⟩
      | float text => exact ⟨text, rfl, hp key text hget⟩
      | _ => exact ih h

/-! ### The two readings of one object -/

/-- What makes the classification and the parser read the same. -/
structure ReadAlike (data : Json) : Prop where
  status : RejectedStatus data → numberFirst data statusKeys = false
  orderId : ¬RejectedStatus data → ∀ id, data.get "order_id" = some (.string id) → isBlank id = false →
    ∀ text, getStr data ["orderId"] = some text → text = id

/-- The parsed order of an answer agrees with its classification. -/
structure OrderAgrees (payload : Json) : Prop where
  accepted : ∀ c, classifyCreateOrderOutcome payload = .accepted c →
    c.get "order_id" = some (.string (parseOrder c).orderId) ∧ isBlank (parseOrder c).orderId = false ∧
      (parseOrder c).status ≠ .rejected
  rejected : ∀ data, classifyCreateOrderOutcome payload = .rejected → payload.get "data" = some data →
    (parseOrder data).status = .rejected

/-- The parsed status of a number is `Unknown`, and else it is that of the first string. -/
theorem parseOrder_status (hp : PrintsNumbers data) :
    (parseOrder data).status = .rejected ↔ RejectedStatus data ∧ numberFirst data statusKeys = false := by
  show OrderStatus.fromRaw ((getStr data statusKeys).getD "") = .rejected ↔ _
  cases hfirst : numberFirst data statusKeys with
  | true =>
    obtain ⟨text, htext, hnum⟩ := getStr_of_numberFirst hp hfirst
    rw [htext, Option.getD_some, fromRaw_of_isNumeral hnum]
    simp
  | false =>
    rw [getStr_of_stringFirst hfirst]
    unfold RejectedStatus stringStatus
    cases hstatus : statusKeys.findSome? fun key => (data.get key).bind Json.asStr with
    | none =>
      have hempty : OrderStatus.fromRaw "" = .unknown := rfl
      simp [hempty]
    | some status => simp

theorem parseOrder_orderId {id : String} (hid : data.get "order_id" = some (.string id)) :
    (parseOrder data).orderId = (getStr data ["orderId"]).getD id := by
  show (getStr data orderIdKeys).getD "" = _
  unfold getStr orderIdKeys
  simp only [List.findSome?_cons, List.findSome?_nil, hid]
  cases data.get "orderId" with
  | none => rfl
  | some v => cases v <;> rfl

/-- **When the parsed order is the one that was classified**: no number stands in front of the
status of a rejected order, and `orderId` does not say otherwise than the `order_id` of an
accepted one. -/
theorem create_order_agrees (payload : Json) (hp : ∀ data, payload.get "data" = some data → PrintsNumbers data) :
    OrderAgrees payload ↔ ∀ data, Enveloped payload data → ReadAlike data := by
  constructor
  · intro h data henv
    have hstatus := parseOrder_status (hp data henv.unwrapped)
    refine ⟨fun hrej => ?_, fun hrej id hid hblank text htext => ?_⟩
    · exact (hstatus.1 (h.rejected data ((classify_rejected henv).2 hrej) henv.unwrapped)).2
    · have hsame := (h.accepted data ((classify_accepted henv).2 ⟨rfl, hrej, id, hid, hblank⟩)).1
      rw [hid, parseOrder_orderId hid, htext] at hsame
      exact (Json.string.inj (Option.some.inj hsame)).symm
  · intro h
    refine ⟨fun c hc => ?_, fun data hc hdata => ?_⟩
    · obtain ⟨data, henv⟩ := enveloped_of_classify payload (by rw [hc]; nofun)
      obtain ⟨rfl, hrej, id, hid, hblank⟩ := (classify_accepted henv).1 hc
      -- `orderId` is looked up first, and agrees where it is there
      have hparsed : (parseOrder c).orderId = id := by
        rw [parseOrder_orderId hid]
        cases htext : getStr c ["orderId"] with
        | none => rfl
        | some text => exact (h c henv).orderId hrej id hid hblank text htext
      have hstatus := parseOrder_status (hp c henv.unwrapped)
      rw [hparsed]
      exact ⟨hid, hblank, fun hst => hrej (hstatus.1 hst).1⟩
    · obtain ⟨data', henv⟩ := enveloped_of_classify payload (by rw [hc]; nofun)
      obtain rfl := Option.some.inj (hdata.symm.trans henv.unwrapped)
      have hrej := (classify_rejected henv).1 hc
      exact (parseOrder_status (hp data hdata)).2 ⟨hrej, (h data henv).status hrej⟩

/-- The answer with this order. -/
def orderAnswer (fields : List (String × Json)) : Json := .object [("code", .int 0), ("data", .object fields)]

/-- The order `A1` is accepted, and parsed as the order `B2`. -/
theorem accepted_under_two_names :
    ¬OrderAgrees (orderAnswer [("orderId", .string "B2"), ("order_id", .string "A1")]) := by
  intro h
  have hsame := (h.accepted (.object [("orderId", .string "B2"), ("order_id", .string "A1")]) rfl).1
  simp [Json.get, List.lookup_cons, parseOrder, getStr, orderIdKeys] at hsame

theorem create_order_agrees_sample : OrderAgrees (orderAnswer [("order_id", .string "A1"), ("status", .int 1)]) := by
  have hprints : ∀ data, (orderAnswer [("order_id", .string "A1"), ("status", .int 1)]).get "data" = some data →
      PrintsNumbers data := by
    intro data hdata key text htext
    obtain rfl : Json.object [("order_id", .string "A1"), ("status", .int 1)] = data := Option.some.inj hdata
    simp only [Json.get, List.lookup_cons, List.lookup_nil] at htext
    split at htext
    · cases htext
    · split at htext <;> cases htext
  refine (create_order_agrees _ hprints).2 fun data henv => ?_
  obtain rfl : Json.object [("order_id", .string "A1"), ("status", .int 1)] = data := Option.some.inj henv.unwrapped
  exact ⟨fun hrej => (by cases hrej), fun _ _ _ _ _ htext => (by cases htext)⟩

end Orders

/-! ## Merged tickers -/

section Tickers

variable (X : Floats) (symbol : String)

/-- The ticker after the messages `deltas`. -/
def mergeDeltas (base : Ticker) (deltas : List Json) : Ticker :=
  run (fun t v => mergeTicker X (some t) v symbol) base deltas

/-! ### What should be shown -/

/-- What was last read under the keys; `held` if nothing was. -/
def lastRead (keys : List String) (held : String) (deltas : List Json) : String :=
  (deltas.filterMap (getStr · keys)).getLast?.getD held

/-- Each price field of `t` is what the messages last said of it. -/
structure PricesFollow (base : Ticker) (deltas : List Json) (t : Ticker) : Prop where
  symbol : t.symbol = lastRead symbolKeys base.symbol deltas
  lastPrice : t.lastPrice = lastRead tickerLastKeys base.lastPrice deltas
  bidPrice : t.bidPrice = lastRead tickerBidKeys base.bidPrice deltas
  askPrice : t.askPrice = lastRead tickerAskKeys base.askPrice deltas
  volume24h : t.volume24h = lastRead tickerVolumeKeys base.volume24h deltas
  markPrice : t.markPrice = lastRead tickerMarkKeys base.markPrice deltas
  high24h : t.high24h = lastRead tickerHigh24hKeys base.high24h deltas
  low24h : t.low24h = lastRead tickerLow24hKeys base.low24h deltas

/-- The change from the previous price of a message, if it can be computed. -/
def computedChange (last : String) (v : Json) : Option String :=
  (getStr v tickerPrevKeys).bind (computeChangeFromPrices X last)

/-- What a message says of the change, when `last` is the last price merged up to it. -/
def changeReading (last : String) (v : Json) : Option String :=
  if (getStr v tickerChangeKeys).isSome ∨ (computedChange X last v).isSome then some (resolveChange24hPct X v last)
  else none

/-- What the messages say of the change, one after the other. -/
def changeReadings : String → List Json → List String
  | _, [] => []
  | last, v :: rest =>
    let last := (getStr v tickerLastKeys).getD last
    (changeReading X last v).toList ++ changeReadings last rest

/-- The change that should be shown. -/
def changeAfter (base : Ticker) (deltas : List Json) : String :=
  (changeReadings X base.lastPrice deltas).getLast?.getD base.change24hPct

/-- A message without a readable funding time does not lose the one that is held. -/
def KeepsTime (t t' : Ticker) (v : Json) : Prop :=
  t.nextFundingTime.isSome → parseNextFundingTime v = none → t'.nextFundingTime.isSome

/-- The change and the funding time are right after each message. -/
structure RatesFollow (base : Ticker) (deltas : List Json) : Prop where
  change : ∀ p, p <+: deltas → (mergeDeltas X symbol base p).change24hPct = changeAfter X base p
  time : ∀ p v, p ++ [v] <+: deltas → KeepsTime (mergeDeltas X symbol base p) (mergeDeltas X symbol base (p ++ [v])) v

/-- The message is read completely: it has no previous price from which another change than the
one held can be computed, unless it says the change itself; and a funding time in it can be read. -/
structure Readable (t : Ticker) (v : Json) : Prop where
  change : getStr v tickerChangeKeys = none →
    ∀ pct, computedChange X ((getStr v tickerLastKeys).getD t.lastPrice) v = some pct → pct = t.change24hPct
  time : t.nextFundingTime.isSome → (getStr v tickerNextFundingKeys).isSome → parseNextFundingTime v ≠ none

/-! ### Reading the last message -/

variable {keys : List String} {base t : Ticker} {deltas : List Json} {v : Json}

theorem lastRead_cons (held : String) (deltas : List Json) (v : Json) :
    lastRead keys held (v :: deltas) = lastRead keys ((getStr v keys).getD held) deltas := by
  unfold lastRead
  rw [List.filterMap_cons]
  cases getStr v keys with
  | none => rfl
  | some s =>
    rw [List.getLast?_cons]
    simp

theorem lastRead_concat (held : String) (deltas : List Json) (v : Json) :
    lastRead keys held (deltas ++ [v]) = (getStr v keys).getD (lastRead keys held deltas) := by
  induction deltas generalizing held with
  | nil => rw [List.nil_append, lastRead_cons]; rfl
  | cons w deltas ih => rw [List.cons_append, lastRead_cons, lastRead_cons, ih]

theorem changeReadings_concat (last : String) (deltas : List Json) (v : Json) :
    changeReadings X last (deltas ++ [v]) = changeReadings X last deltas ++
      (changeReading X ((getStr v tickerLastKeys).getD (lastRead tickerLastKeys last deltas)) v).toList := by
  induction deltas generalizing last with
  | nil =>
    show (changeReading X _ v).toList ++ [] = _
    rw [List.append_nil]
    rfl
  | cons w deltas ih =>
    show (changeReading X _ w).toList ++ changeReadings X _ (deltas ++ [v]) = _
    rw [ih, lastRead_cons, ← List.append_assoc]
    rfl

/-- One more message: its reading if it has one. -/
theorem changeAfter_concat (base : Ticker) (deltas : List Json) (v : Json) :
    changeAfter X base (deltas ++ [v]) =
      (changeReading X ((getStr v tickerLastKeys).getD (lastRead tickerLastKeys base.lastPrice deltas)) v).getD
        (changeAfter X base deltas) := by
  unfold changeAfter
  rw [changeReadings_concat]
  cases changeReading X ((getStr v tickerLastKeys).getD (lastRead tickerLastKeys base.lastPrice deltas)) v with
  | none => rw [Option.toList_none, List.append_nil]; rfl
  | some s => rw [Option.toList_some, List.getLast?_concat]; rfl

/-! ### One merge -/

theorem mergeDeltas_concat (base : Ticker) (deltas : List Json) (v : Json) :
    mergeDeltas X symbol base (deltas ++ [v]) = mergeTicker X (some (mergeDeltas X symbol base deltas)) v symbol :=
  run_append _ _ _ _

theorem pickTickerField_read (base default : String) (v : Json) (keys : List String) :
    pickTickerField base ((getStr v keys).getD default) v keys = (getStr v keys).getD base := by
  unfold pickTickerField
  cases getStr v keys <;> rfl

/-- What the merge does to the change: only a change key counts. -/
theorem mergeTicker_change (t : Ticker) (v : Json) : (mergeTicker X (some t) v symbol).change24hPct =
    ((getStr v tickerChangeKeys).map (normalizeChange24hPcnt X)).getD t.change24hPct := by
  unfold mergeTicker parseTicker resolveChange24hPct pickTickerField
  cases getStr v tickerChangeKeys <;> rfl

theorem PricesFollow.merge (h : PricesFollow base deltas t) (v : Json) :
    PricesFollow base (deltas ++ [v]) (mergeTicker X (some t) v symbol) := by
  refine ⟨?_, ?_, ?_, ?_, ?_, ?_, ?_, ?_⟩
  · rw [lastRead_concat, ← h.symbol]
    show (if (getStr v symbolKeys).isSome then (getStr v symbolKeys).getD symbol else t.symbol) = _
    cases getStr v symbolKeys <;> rfl
  · rw [lastRead_concat, ← h.lastPrice]
    exact pickTickerField_read _ _ _ _
  · rw [lastRead_concat, ← h.bidPrice]
    exact pickTickerField_read _ _ _ _
  · rw [lastRead_concat, ← h.askPrice]
    exact pickTickerField_read _ _ _ _
  · rw [lastRead_concat, ← h.volume24h]
    exact pickTickerField_read _ _ _ _
  · rw [lastRead_concat, ← h.markPrice]
    exact pickTickerField_read _ _ _ _
  · rw [lastRead_concat, ← h.high24h]
    exact pickTickerField_read _ _ _ _
  · rw [lastRead_concat, ← h.low24h]
    exact pickTickerField_read _ _ _ _

theorem prices_follow (base : Ticker) (deltas : List Json) :
    PricesFollow base deltas (mergeDeltas X symbol base deltas) := by
  induction deltas using List.reverseRecOn with
  | nil => exact ⟨rfl, rfl, rfl, rfl, rfl, rfl, rfl, rfl⟩
  | append_singleton deltas v ih =>
    rw [mergeDeltas_concat]
    exact ih.merge X symbol v

/-- A message that says the change, or from which none can be computed, is merged as it should. -/
theorem merge_change_iff (h : t.lastPrice = lastRead tickerLastKeys base.lastPrice deltas)
    (hc : t.change24hPct = changeAfter X base deltas) :
    (mergeTicker X (some t) v symbol).change24hPct = changeAfter X base (deltas ++ [v]) ↔
      (getStr v tickerChangeKeys = none →
        ∀ pct, computedChange X ((getStr v tickerLastKeys).getD t.lastPrice) v = some pct → pct = t.change24hPct) := by
  rw [mergeTicker_change, changeAfter_concat, ← h, ← hc]
  unfold changeReading resolveChange24hPct
  cases hkey : getStr v tickerChangeKeys with
  | some raw => simp
  | none =>
    change _ ↔ (none = none → ∀ pct, (getStr v tickerPrevKeys).bind _ = some pct → _)
    cases hpct : (getStr v tickerPrevKeys).bind (computeChangeFromPrices X ((getStr v tickerLastKeys).getD t.lastPrice)) with
    | none => simp [computedChange, hpct]
    | some pct => simp [computedChange, hpct, eq_comm]

theorem merge_time_iff : KeepsTime t (mergeTicker X (some t) v symbol) v ↔
    (t.nextFundingTime.isSome → (getStr v tickerNextFundingKeys).isSome → parseNextFundingTime v ≠ none) := by
  have hmerge : (mergeTicker X (some t) v symbol).nextFundingTime =
      if (getStr v tickerNextFundingKeys).isSome then parseNextFundingTime v else t.nextFundingTime := rfl
  unfold KeepsTime
  rw [hmerge]
  by_cases hkey : (getStr v tickerNextFundingKeys).isSome = true
  · simp only [hkey, if_true]
    cases parseNextFundingTime v <;> simp
  · simp only [hkey]
    exact ⟨fun _ _ hkey => absurd hkey nofun, fun _ ht _ => ht⟩

/-- **Tickers follow their messages.** The price fields always do; the change and the funding
time do after every message as long as each can be read completely. -/
theorem ticker_follows (base : Ticker) (deltas : List Json) :
    (∀ p, p <+: deltas → PricesFollow base p (mergeDeltas X symbol base p)) ∧
      (RatesFollow X symbol base deltas ↔ Along (fun t v => mergeTicker X (some t) v symbol) (Readable X) base deltas) := by
  refine ⟨fun p _ => prices_follow X symbol base p, ?_⟩
  rw [along_iff]
  constructor
  · intro h p v hp
    have hprices := (prices_follow X symbol base p).lastPrice
    have hc := h.change p ((List.prefix_append p [v]).trans hp)
    have hc' := h.change (p ++ [v]) hp
    have ht := h.time p v hp
    rw [mergeDeltas_concat] at hc' ht
    exact ⟨(merge_change_iff X symbol hprices hc).1 hc', (merge_time_iff X symbol).1 ht⟩
  · intro h
    refine ⟨fun p hp => ?_, fun p v hp => ?_⟩
    -- the change of each message rests on that of the one before it
    · induction p using List.reverseRecOn with
      | nil => rfl
      | append_singleton p v ih =>
        have hc := ih ((List.prefix_append p [v]).trans hp)
        rw [mergeDeltas_concat]
        exact (merge_change_iff X symbol (prices_follow X symbol base p).lastPrice hc).2 (h p v hp).change
    · rw [mergeDeltas_concat]
      exact (merge_time_iff X symbol).2 (h p v hp).time

/-- Floats that only hold whole numbers. -/
def wholeFloats : Floats where
  F64 := ℤ
  parse := parseI64
  zero := 0
  hundred := 100
  tenThousand := 10000
  sub := (· - ·)
  mul := (· * ·)
  div := (· / ·)
  isZero := (· == 0)
  isFundingRate n := n == 0
  format n := toString n

/-- A ticker at the price 300. -/
def tickerAt300 : Ticker where
  symbol := "BTCUSDT"
  lastPrice := "300"
  bidPrice := "299"
  askPrice := "301"
  volume24h := "12"
  change24hPct := "0"
  markPrice := ""
  high24h := ""
  low24h := ""
  fundingRate := ""
  fundingRateUpdatedAt := none
  fundingRateError := none
  nextFundingTime := none

/-- The previous price 100 alone makes it a change of 200 percent, and the merge drops it. -/
theorem computed_change_dropped :
    ¬RatesFollow wholeFloats "BTCUSDT" tickerAt300 [.object [("prevPrice24h", .string "100")]] := by
  intro h
  have hchange := h.change _ (List.prefix_refl _)
  have hshown : (mergeDeltas wholeFloats "BTCUSDT" tickerAt300
      [.object [("prevPrice24h", .string "100")]]).change24hPct = "0" := by decide +kernel
  have hright : changeAfter wholeFloats tickerAt300 [.object [("prevPrice24h", .string "100")]] = "200" := by
    decide +kernel
  rw [hshown, hright] at hchange
  exact absurd hchange (by decide)

end Tickers

end EasiFlux
