import EasiFlux.Lib.Firsts
import EasiFlux.Model.DailyPnl

/-!
# When the daily profit is the sum of the day

A row is skipped when its key has been seen, before its time is looked at, and the rows that
are skipped are counted nowhere. Two rows of one order have the same key; a row of another day
has a key of its own.

* `buildSnapshot_eq`: the total is that of the first row of each key, the count that of the keys.
* **`sumsTheDay_iff`**: the snapshot is the sum of the day, in every order of the rows, exactly
  when there are as many keys as different rows of the day, and no choice of one row for each
  key misses anything that shows.
* `keysTell_iff`: when all rows are of the day, this says that no two of them have the same key.
-/

namespace EasiFlux.DailyPnl

open Fixed Response Firsts

variable {K : DecimalText} {payload : Json} {rows rows' ps : List Json} {dayStart dayEnd : ℤ}

/-! ## The sum of the day -/

def inDay (dayStart dayEnd : ℤ) (row : Json) : Bool :=
  dayStart ≤ closedTimeMs row ∧ closedTimeMs row < dayEnd

/-- The pairwise different rows that were closed within the day. -/
def dayRows (dayStart dayEnd : ℤ) (rows : List Json) : List Json := rows.dedup.filter (inDay dayStart dayEnd)

/-- The exact profit of a row. -/
def pnl (row : Json) : ℚ := ((Decimal.ofString (pnlRaw row)).map Decimal.toRat).getD 0

def pnlSum (rows : List Json) : ℚ := (rows.map pnl).sum

/-- The profit of every row is a decimal. -/
def Numeric (rows : List Json) : Prop := ∀ row ∈ rows, (Decimal.ofString (pnlRaw row)).isSome

def Representable (q : ℚ) : Prop := ∃ d : Decimal, d.toRat = q

/-- The text shows the four decimals of `q`. -/
def Shows (K : DecimalText) (q : ℚ) (text : String) : Prop := ∃ d : Decimal, d.toRat = q ∧ text = K.fixed4 d

/-- The snapshot is the sum of the day's different rows, whatever the order they come in. -/
structure SumsTheDay (K : DecimalText) (dayStart dayEnd : ℤ) (payload : Json) : Prop where
  exact : ∀ serverTime timezone, ∃ s, buildSnapshot K payload serverTime dayStart dayEnd timezone = some s ∧
    Shows K (pnlSum (dayRows dayStart dayEnd (extractList payload))) s.value ∧
    s.recordCount = (dayRows dayStart dayEnd (extractList payload)).length
  ordered : ∀ payload', (extractList payload').Perm (extractList payload) → ∀ serverTime timezone, ∃ s s',
    buildSnapshot K payload serverTime dayStart dayEnd timezone = some s ∧
    buildSnapshot K payload' serverTime dayStart dayEnd timezone = some s' ∧
    s'.value = s.value ∧ s'.recordCount = s.recordCount

/-- No running total has to be rounded: what rows of the day with different keys sum up to is
a decimal. -/
def NeverRounds (dayStart dayEnd : ℤ) (rows : List Json) : Prop :=
  ∀ ps ⊆ dayRows dayStart dayEnd rows, (ps.map recordKey).Nodup → Representable (pnlSum ps)

/-- The keys tell the rows of the day apart, up to what does not show. -/
structure KeysTell (K : DecimalText) (dayStart dayEnd : ℤ) (rows : List Json) : Prop where
  number : (rows.map recordKey).dedup.length % 2 ^ 32 = (dayRows dayStart dayEnd rows).length
  shown : ∀ ps, Picks recordKey rows ps → ∀ d e : Decimal, d.toRat = pnlSum (ps.filter (inDay dayStart dayEnd)) →
    e.toRat = pnlSum (dayRows dayStart dayEnd rows) → K.fixed4 d = K.fixed4 e

/-! ## What the loop adds up -/

/-- What a row adds to the total. -/
def amount (K : DecimalText) (row : Json) : Decimal := (K.fromStr (pnlRaw row)).getD 0

theorem toRat_amount {row : Json} (h : (Decimal.ofString (pnlRaw row)).isSome) :
    (amount K row).toRat = pnl row := by
  obtain ⟨d, hd⟩ := Option.isSome_iff_exists.1 h
  obtain ⟨e, he, hval⟩ := K.fromStr_exact _ d hd
  unfold amount pnl
  rw [he, hd, Option.getD_some, hval, Option.map_some, Option.getD_some]

theorem sum_amount (h : Numeric rows) (hsub : ps ⊆ rows) :
    ((ps.map (amount K)).map Decimal.toRat).sum = pnlSum ps := by
  unfold pnlSum
  rw [List.map_map]
  congr 1
  apply List.map_congr_left
  intro row hrow
  exact toRat_amount (h row (hsub hrow))

section Turn

variable {t : Tally} {row : Json}

theorem addRow_seen (h : recordKey row ∈ t.seen) : addRow K dayStart dayEnd t row = some t := by
  unfold addRow
  rw [if_pos h]

theorem addRow_other (h : recordKey row ∉ t.seen) (hday : inDay dayStart dayEnd row = false) :
    addRow K dayStart dayEnd t row = some ⟨recordKey row :: t.seen, t.total⟩ := by
  have hout : closedTimeMs row < dayStart ∨ dayEnd ≤ closedTimeMs row := by
    unfold inDay at hday
    rw [decide_eq_false_iff_not] at hday
    omega
  unfold addRow
  rw [if_neg h]
  exact if_pos hout

theorem addRow_day (h : recordKey row ∉ t.seen) (hday : inDay dayStart dayEnd row = true) :
    addRow K dayStart dayEnd t row =
      (t.total.addRounded (amount K row)).map fun total => ⟨recordKey row :: t.seen, total⟩ := by
  have hin : ¬(closedTimeMs row < dayStart ∨ dayEnd ≤ closedTimeMs row) := by
    unfold inDay at hday
    rw [decide_eq_true_eq] at hday
    omega
  unfold addRow
  rw [if_neg h]
  exact if_neg hin

end Turn

/-- The loop adds up the first row of each key, and remembers the keys. -/
theorem foldlM_addRow (seen : List String) (total : Decimal) (rows : List Json) :
    rows.foldlM (addRow K dayStart dayEnd) ⟨seen, total⟩ =
      ((((firsts recordKey seen rows).filter (inDay dayStart dayEnd)).map (amount K)).foldlM Decimal.addRounded total).map
        fun total => ⟨((firsts recordKey seen rows).map recordKey).reverse ++ seen, total⟩ := by
  induction rows generalizing seen total with
  | nil => rfl
  | cons row rows ih =>
    rw [List.foldlM_cons, firsts]
    by_cases hseen : recordKey row ∈ seen
    · rw [addRow_seen hseen, if_pos hseen]
      exact ih seen total
    · rw [if_neg hseen, List.map_cons, List.reverse_cons, List.append_assoc, List.singleton_append]
      cases hday : inDay dayStart dayEnd row with
      | false =>
        rw [addRow_other hseen hday, List.filter_cons_of_neg (by simp [hday])]
        exact ih (recordKey row :: seen) total
      | true =>
        rw [addRow_day hseen hday, List.filter_cons_of_pos hday, List.map_cons, List.foldlM_cons]
        cases hadd : total.addRounded (amount K row) with
        | none => rfl
        | some next => exact ih (recordKey row :: seen) next

theorem mem_dayRows {row : Json} :
    row ∈ dayRows dayStart dayEnd rows ↔ row ∈ rows ∧ inDay dayStart dayEnd row = true := by
  unfold dayRows
  rw [List.mem_filter, List.mem_dedup]

/-- **The total is that of the first row of each key, the count that of the keys.** -/
theorem buildSnapshot_eq (hnum : Numeric rows) (hrun : NeverRounds dayStart dayEnd rows)
    (hperm : (extractList payload).Perm rows) (serverTime : ℕ) (timezone : String) :
    ∃ total : Decimal, buildSnapshot K payload serverTime dayStart dayEnd timezone =
        some ⟨K.fixed4 total, serverTime, serverTime, (rows.map recordKey).dedup.length % 2 ^ 32, dayStart, dayEnd, timezone⟩ ∧
      total.toRat = pnlSum ((firsts recordKey [] (extractList payload)).filter (inDay dayStart dayEnd)) := by
  set kept := firsts recordKey [] (extractList payload) with hkept
  have hpicks : Picks recordKey rows kept := (picks_firsts recordKey (extractList payload)).congr hperm
  have hsub : kept.filter (inDay dayStart dayEnd) ⊆ dayRows dayStart dayEnd rows := by
    intro row hrow
    obtain ⟨hmem, hday⟩ := List.mem_filter.1 hrow
    exact mem_dayRows.2 ⟨hpicks.subset hmem, hday⟩
  have hrows : kept.filter (inDay dayStart dayEnd) ⊆ rows := fun row hrow => (mem_dayRows.1 (hsub hrow)).1
  -- the rows before any turn of the loop have different keys
  have hexact : ∀ ds, ds <+: (kept.filter (inDay dayStart dayEnd)).map (amount K) →
      ∃ d : Decimal, d.toRat = (0 : Decimal).toRat + (ds.map Decimal.toRat).sum := by
    intro ds hds
    obtain ⟨front, hfront, rfl⟩ := List.prefix_map_iff.1 hds
    have hfsub : front.Sublist kept := hfront.sublist.trans List.filter_sublist
    rw [sum_amount hnum fun row hrow => hrows (hfront.subset hrow), Decimal.toRat_zero, zero_add]
    exact hrun front (fun row hrow => hsub (hfront.subset hrow)) ((hfsub.map recordKey).nodup hpicks.nodup)
  obtain ⟨total, htotal, hsum⟩ := Decimal.foldlM_addRounded hexact
  refine ⟨total, ?_, ?_⟩
  · have hlen := hpicks.length_eq
    unfold buildSnapshot
    simp only [foldlM_addRow, ← hkept, htotal, Option.map_some, Option.bind_eq_bind, Option.bind_some, List.append_nil,
      List.length_reverse, List.length_map, hlen]
    rfl
  · rw [hsum, sum_amount hnum hrows, Decimal.toRat_zero, zero_add]

theorem extractList_array (rows : List Json) : extractList (.array rows) = rows := rfl

/-! ## Exactly when it is the sum of the day -/

/-- Any choice of one row for each key is what the total is of, in some order of the rows. -/
theorem exists_snapshot (hnum : Numeric rows) (hrun : NeverRounds dayStart dayEnd rows) (hps : Picks recordKey rows ps)
    (serverTime : ℕ) (timezone : String) : ∃ payload total, (extractList payload).Perm rows ∧
      buildSnapshot K payload serverTime dayStart dayEnd timezone =
        some ⟨K.fixed4 total, serverTime, serverTime, (rows.map recordKey).dedup.length % 2 ^ 32, dayStart, dayEnd, timezone⟩ ∧
      total.toRat = pnlSum (ps.filter (inDay dayStart dayEnd)) := by
  obtain ⟨ys, hperm, hfirsts⟩ := hps.perm
  rw [← extractList_array ys] at hperm hfirsts
  obtain ⟨total, hbuild, htotal⟩ := buildSnapshot_eq (K := K) hnum hrun hperm serverTime timezone
  rw [hfirsts] at htotal
  exact ⟨.array ys, total, hperm, hbuild, htotal⟩

theorem KeysTell.of_sumsTheDay (hnum : Numeric (extractList payload))
    (hrun : NeverRounds dayStart dayEnd (extractList payload)) (h : SumsTheDay K dayStart dayEnd payload) :
    KeysTell K dayStart dayEnd (extractList payload) where
  number := by
    obtain ⟨total, hbuild, -⟩ := buildSnapshot_eq (K := K) hnum hrun (List.Perm.refl _) 0 ""
    obtain ⟨s, hs, -, hcount⟩ := h.exact 0 ""
    rw [hbuild, Option.some.injEq] at hs
    rw [← hcount, ← hs]
  shown := by
    intro ps hps d e hd he
    -- the rows can come in an order in which `ps` is what is added up
    obtain ⟨payload', total, hperm, hbuild, htotal⟩ := exists_snapshot (K := K) hnum hrun hps 0 ""
    obtain ⟨s, s', hs, hs', hvalue, -⟩ := h.ordered payload' hperm 0 ""
    obtain ⟨s₀, hs₀, ⟨f, hf, htext⟩, -⟩ := h.exact 0 ""
    rw [hs, Option.some.injEq] at hs₀
    rw [hbuild, Option.some.injEq] at hs'
    calc K.fixed4 d = K.fixed4 total := K.fixed4_congr d total (hd.trans htotal.symm)
      _ = s.value := by rw [← hvalue, ← hs']
      _ = K.fixed4 f := by rw [hs₀, htext]
      _ = K.fixed4 e := K.fixed4_congr f e (hf.trans he.symm)

theorem SumsTheDay.of_keysTell (hnum : Numeric (extractList payload))
    (hsum : Representable (pnlSum (dayRows dayStart dayEnd (extractList payload))))
    (hrun : NeverRounds dayStart dayEnd (extractList payload)) (h : KeysTell K dayStart dayEnd (extractList payload)) :
    SumsTheDay K dayStart dayEnd payload := by
  obtain ⟨e, he⟩ := hsum
  -- every order of the rows shows `e`
  have hshows : ∀ payload', (extractList payload').Perm (extractList payload) → ∀ serverTime timezone,
      buildSnapshot K payload' serverTime dayStart dayEnd timezone =
        some ⟨K.fixed4 e, serverTime, serverTime, (dayRows dayStart dayEnd (extractList payload)).length, dayStart, dayEnd,
          timezone⟩ := by
    intro payload' hperm serverTime timezone
    obtain ⟨total, hbuild, htotal⟩ := buildSnapshot_eq (K := K) hnum hrun hperm serverTime timezone
    have hpicks := (picks_firsts recordKey (extractList payload')).congr hperm
    rw [hbuild, h.shown _ hpicks total e htotal he, h.number]
  constructor
  · intro serverTime timezone
    exact ⟨_, hshows payload (List.Perm.refl _) serverTime timezone, ⟨e, he, rfl⟩, rfl⟩
  · intro payload' hperm serverTime timezone
    exact ⟨_, _, hshows payload (List.Perm.refl _) serverTime timezone, hshows payload' hperm serverTime timezone, rfl, rfl⟩

/-! ## Rows of one day -/

section OneDay

variable (hall : ∀ row ∈ rows, inDay dayStart dayEnd row = true)

include hall

theorem dayRows_of_all : dayRows dayStart dayEnd rows = rows.dedup := by
  unfold dayRows
  rw [List.filter_eq_self]
  intro row hrow
  exact hall row (List.mem_dedup.1 hrow)

/-- **When all rows are of the day, the keys tell exactly when no two rows share one.** -/
theorem keysTell_iff (hlt : rows.dedup.length < 2 ^ 32) : KeysTell K dayStart dayEnd rows ↔
    ∀ x ∈ rows, ∀ y ∈ rows, recordKey x = recordKey y → x = y := by
  have hfirsts := picks_firsts recordKey rows
  have hlen := hfirsts.length_eq
  have hle := hfirsts.subperm_dedup.length_le
  have hmod : (rows.map recordKey).dedup.length % 2 ^ 32 = (rows.map recordKey).dedup.length := Nat.mod_eq_of_lt (by omega)
  constructor
  · intro h
    have hnumber := h.number
    rw [hmod, dayRows_of_all hall] at hnumber
    exact hfirsts.injective (by omega)
  · intro hinj
    constructor
    · rw [hmod, dayRows_of_all hall, ← hlen]
      exact (hfirsts.perm_dedup hinj).length_eq
    · intro ps hps d e hd he
      have hfilter : ps.filter (inDay dayStart dayEnd) = ps := by
        rw [List.filter_eq_self]
        intro row hrow
        exact hall row (hps.subset hrow)
      have hsum : pnlSum ps = pnlSum rows.dedup := ((hps.perm_dedup hinj).map pnl).sum_eq
      rw [hfilter, hsum] at hd
      rw [dayRows_of_all hall] at he
      exact K.fixed4_congr d e (hd.trans he.symm)

end OneDay

/-! ## The daily profit -/

/-- **The snapshot is the sum of the day, in every order, exactly when the keys tell.** -/
theorem sumsTheDay_iff (hnum : Numeric (extractList payload))
    (hsum : Representable (pnlSum (dayRows dayStart dayEnd (extractList payload))))
    (hrun : NeverRounds dayStart dayEnd (extractList payload)) :
    SumsTheDay K dayStart dayEnd payload ↔ KeysTell K dayStart dayEnd (extractList payload) :=
  ⟨KeysTell.of_sumsTheDay hnum hrun, SumsTheDay.of_keysTell hnum hsum hrun⟩

/-- Reading and printing when nothing is cut off. -/
def plainText : DecimalText where
  fromStr := Decimal.ofString
  fromStr_exact _ d h := ⟨d, h, rfl⟩
  fixed4 d :=
    let n := d.normalize
    String.ofList ((if n.mantissa < 0 then ['-'] else []) ++ n.intDigits ++ '.' ::
      (n.fracDigits ++ List.replicate 4 '0').take 4)
  fixed4_congr d e h := by rw [Decimal.normalize_congr h]

def closedRow (key id profit : String) : Json :=
  .object [("closedPnl", .string profit), ("closedTime", .string "1700000000000"), (key, .string id)]

/-- One row twice, and another one. -/
def repeated : Json :=
  .object [("data", .object [("list",
    .array [closedRow "id" "a1" "1.5", closedRow "id" "a1" "1.5", closedRow "id" "a2" "-0.5"])])]

theorem neverRounds_of_sublists (h : ∀ ps ∈ (dayRows dayStart dayEnd rows).sublists, Representable (pnlSum ps)) :
    NeverRounds dayStart dayEnd rows := by
  intro ps hsub hnodup
  obtain ⟨l, hperm, hl⟩ := List.Nodup.subperm (nodup_of_keys hnodup) hsub
  have hsum : pnlSum l = pnlSum ps := (hperm.map pnl).sum_eq
  rw [← hsum]
  exact h l (List.mem_sublists.2 hl)

theorem repeated_sublists : (dayRows 1699948800000 1700035200000 (extractList repeated)).sublists =
    [[], [closedRow "id" "a1" "1.5"], [closedRow "id" "a2" "-0.5"],
      [closedRow "id" "a1" "1.5", closedRow "id" "a2" "-0.5"]] := by
  decide

theorem repeated_neverRounds : NeverRounds 1699948800000 1700035200000 (extractList repeated) := by
  apply neverRounds_of_sublists
  rw [repeated_sublists]
  intro ps hps
  simp only [List.mem_cons, List.not_mem_nil, or_false] at hps
  rcases hps with rfl | rfl | rfl | rfl
  · exact ⟨⟨0, 0, by decide, by decide⟩, by decide +kernel⟩
  · exact ⟨⟨15, 1, by decide, by decide⟩, by decide +kernel⟩
  · exact ⟨⟨-5, 1, by decide, by decide⟩, by decide +kernel⟩
  · exact ⟨⟨10, 1, by decide, by decide⟩, by decide +kernel⟩

theorem repeated_keysTell : KeysTell plainText 1699948800000 1700035200000 (extractList repeated) := by
  have hall : ∀ row ∈ extractList repeated, inDay 1699948800000 1700035200000 row = true := by decide
  rw [keysTell_iff hall (by decide)]
  decide

theorem repeated_summed : SumsTheDay plainText 1699948800000 1700035200000 repeated :=
  (sumsTheDay_iff (by unfold Numeric; decide +kernel) ⟨⟨10, 1, by decide, by decide⟩, by decide +kernel⟩
    repeated_neverRounds).2 repeated_keysTell

/-- Two rows of one order: the second is not added, and which is the second depends on the order. -/
def parts : Json :=
  .object [("data", .object [("list", .array [closedRow "orderId" "o1" "1.5", closedRow "orderId" "o1" "2.5"])])]

theorem parts_snapshot : buildSnapshot plainText parts 0 1699948800000 1700035200000 "UTC" =
    some ⟨"1.5000", 0, 0, 1, 1699948800000, 1700035200000, "UTC"⟩ := by
  decide

theorem parts_dayRows : dayRows 1699948800000 1700035200000 (extractList parts) =
    [closedRow "orderId" "o1" "1.5", closedRow "orderId" "o1" "2.5"] := by
  decide

theorem parts_dropped : ¬∀ (K : DecimalText) (payload : Json) (dayStart dayEnd : ℤ), Numeric (extractList payload) →
    Representable (pnlSum (dayRows dayStart dayEnd (extractList payload))) → SumsTheDay K dayStart dayEnd payload := by
  intro h
  have hnum : Numeric (extractList parts) := by unfold Numeric; decide +kernel
  have hsum : Representable (pnlSum (dayRows 1699948800000 1700035200000 (extractList parts))) :=
    ⟨⟨4, 0, by decide, by decide⟩, by decide +kernel⟩
  obtain ⟨s, hs, -, hcount⟩ := (h plainText parts 1699948800000 1700035200000 hnum hsum).exact 0 "UTC"
  rw [parts_snapshot, Option.some.injEq] at hs
  rw [parts_dayRows, ← hs] at hcount
  exact absurd hcount (by decide)

-- a row of the day before is not added, but counted
example : buildSnapshot plainText (.array [closedRow "id" "a1" "1.5"]) 0 1700035200000 1700121600000 "UTC" =
    some ⟨"0.0000", 0, 0, 1, 1700035200000, 1700121600000, "UTC"⟩ := by
  decide

end EasiFlux.DailyPnl
