import EasiFlux.Model.TradingDay

/-!
# The key and the window of a trading day

The window of `trading_day_bounds` is the trading day of `trading_day_key` unless a transition of the
zone comes too near. `QuietDay` is a check of its table: one stretch shows the midnight of the date,
each stretch of another offset lies in the day or outside it, both by the instants and by its clock,
and the midnight 24 hours later is shown once too. **`trading_day_bounds_match`**: this is exactly
when they match.

`quietDay_of_steady`: without transitions nearby every day is such a day. A day of 25 hours is not
(`long_day_not_matched`).
-/

namespace EasiFlux

open LocalTime

variable {K : Chrono} {timezone : String} {utcNow : ℤ} {z : Zone} {nowMs : ℕ} {n a d t : ℤ}

/-! ## The specification -/

/-- The time `ms` is the instant `t`, and it and its local time can be represented. -/
structure ShownAs (K : Chrono) (z : Zone) (ms : ℕ) (t : ℤ) : Prop where
  asI64 : asI64 ms = t
  range : K.inRange t = true
  localRange : K.inRange (z.localTime t) = true

/-- The bounds are those of the trading day: `n` lies in them, the key is the same exactly in them,
and at their end the next ones begin. -/
structure BoundsMatch (K : Chrono) (timezone : String) (utcNow : ℤ) (nowMs : ℕ) (n : ℤ) : Prop where
  within : (K.tradingDayBounds nowMs utcNow timezone).1 ≤ n ∧ n < (K.tradingDayBounds nowMs utcNow timezone).2
  key : ∀ ms t, ShownAs K (K.zone timezone) ms t →
    (tradingDayKey K.calendar ms utcNow timezone = tradingDayKey K.calendar nowMs utcNow timezone ↔
      (K.tradingDayBounds nowMs utcNow timezone).1 ≤ t ∧ t < (K.tradingDayBounds nowMs utcNow timezone).2)
  next : ∀ ms, ShownAs K (K.zone timezone) ms (K.tradingDayBounds nowMs utcNow timezone).2 →
    (K.tradingDayBounds ms utcNow timezone).1 = (K.tradingDayBounds nowMs utcNow timezone).2

/-- The date `d` opens at `a`: one stretch shows its midnight, then. For the first instant of 1970 it
will do that not exactly one does. -/
def Opens (K : Chrono) (z : Zone) (d a : ℤ) : Prop :=
  (a ∈ z.midnights K.inRange d ∧ ∀ b ∈ z.midnights K.inRange d, b = a) ∨
    a = 0 ∧ ¬∃ b ∈ z.midnights K.inRange d, ∀ c ∈ z.midnights K.inRange d, c = b

instance (K : Chrono) (z : Zone) (d a : ℤ) : Decidable (Opens K z d a) := inferInstanceAs (Decidable (_ ∨ _))

namespace Chrono

/-- The first instant of a stretch that can be represented, with its local time. -/
def firstOf (K : Chrono) (s : Stretch) : ℤ :=
  max (max (-2 ^ 63) (max K.minMs (K.minMs - s.offset * 1000))) (s.start.getD K.minMs)

/-- The first one behind them. -/
def endOf (K : Chrono) (s : Stretch) : ℤ :=
  min (min (K.maxMs + 1) (K.maxMs + 1 - s.offset * 1000)) (s.stop.getD (K.maxMs + 1))

end Chrono

/-- The table of the zone is quiet around the date of `n`, from `a`. -/
structure QuietDay (K : Chrono) (z : Zone) (n a : ℤ) : Prop where
  opens : Opens K z (z.date n) a
  quiet : ∀ s ∈ z.stretches, Zone.SameDay (K.firstOf s) (K.endOf s) a (s.midnight (z.date n))
  next : ∀ s ∈ z.stretches, K.firstOf s ≤ a + dayMs ∧ a + dayMs < K.endOf s →
    Opens K z ((a + dayMs + s.offset * 1000) / dayMs) (a + dayMs)

/-! ## What the functions compute -/

theorem instant_of_shown (h : ShownAs K z nowMs n) : K.calendar.instant nowMs = some n := by
  show (if K.inRange (asI64 nowMs) then some (asI64 nowMs) else none) = some n
  rw [h.asI64, if_pos h.range]

/-- Both functions fall back to the same zone. -/
theorem zone_resolve (timezone : String) : K.zone (resolveTradingDayTimezone K.calendar timezone) = K.zone timezone := by
  unfold resolveTradingDayTimezone
  cases hparse : K.parse timezone with
  | none =>
    have hinvalid : ¬K.calendar.isTimezone timezone = true := by
      show ¬(K.parse timezone).isSome = true
      simp [hparse]
    rw [if_neg hinvalid]
    unfold Chrono.zone
    rw [K.parse_shanghai, hparse]
    rfl
  | some tz =>
    have hvalid : K.calendar.isTimezone timezone = true := by
      show (K.parse timezone).isSome = true
      rw [hparse]
      rfl
    rw [if_pos hvalid]

theorem tradingDayKey_shown (h : ShownAs K (K.zone timezone) nowMs n) :
    tradingDayKey K.calendar nowMs utcNow timezone = K.format ((K.zone timezone).date n) := by
  unfold tradingDayKey tradingDay
  rw [instant_of_shown h, Option.getD_some]
  show K.format ((K.zone (resolveTradingDayTimezone K.calendar timezone)).date n) = _
  rw [zone_resolve]

variable (utcNow) in
theorem key_eq_iff {ms ms' : ℕ} {t t' : ℤ} (h : ShownAs K (K.zone timezone) ms t) (h' : ShownAs K (K.zone timezone) ms' t') :
    tradingDayKey K.calendar ms utcNow timezone = tradingDayKey K.calendar ms' utcNow timezone ↔
      (K.zone timezone).date t = (K.zone timezone).date t' := by
  rw [tradingDayKey_shown h, tradingDayKey_shown h']
  exact K.format_inj.eq_iff

theorem opens_of_shown (h : ∀ t, K.inRange t = true ∧ z.localTime t = d * dayMs ↔ t = a) : Opens K z d a := by
  refine .inl ⟨Zone.mem_midnights.2 ((h a).2 rfl), fun b hb => (h b).1 (Zone.mem_midnights.1 hb)⟩

theorem start_eq_iff : (z.single K.inRange (d * dayMs)).getD 0 = a ↔ Opens K z d a := by
  have hone : ∀ b, z.single K.inRange (d * dayMs) = some b ↔
      b ∈ z.midnights K.inRange d ∧ ∀ c ∈ z.midnights K.inRange d, c = b := by
    intro b
    simp only [Zone.single_eq_some_iff, Zone.mem_midnights]
    exact ⟨fun h => ⟨(h b).2 rfl, fun c => (h c).1⟩, fun h t => ⟨h.2 t, fun ht => ht ▸ h.1⟩⟩
  unfold Opens
  cases hs : z.single K.inRange (d * dayMs) with
  | some b =>
    obtain ⟨hb, hall⟩ := (hone b).1 hs
    rw [Option.getD_some]
    constructor
    · rintro rfl
      exact .inl ⟨hb, hall⟩
    · rintro (ha | ⟨-, hnone⟩)
      · exact ha.2 b hb
      · exact absurd ⟨b, hb, hall⟩ hnone
  | none =>
    have hnone : ¬∃ b ∈ z.midnights K.inRange d, ∀ c ∈ z.midnights K.inRange d, c = b := by
      rintro ⟨b, hb⟩
      rw [(hone b).2 hb] at hs
      cases hs
    rw [Option.getD_none]
    constructor
    · rintro rfl
      exact .inr ⟨rfl, hnone⟩
    · rintro (ha | ⟨rfl, -⟩)
      · exact absurd ⟨a, ha⟩ hnone
      · rfl

/-- The instants of a stretch that are shown are those from the first to the last. -/
theorem shown_iff {s : Stretch} (hs : s ∈ z.stretches) : (∃ ms, ShownAs K z ms t) ∧ s.Has t ↔ K.firstOf s ≤ t ∧ t < K.endOf s := by
  have hrange : ∀ x, K.inRange x = true ↔ K.minMs ≤ x ∧ x ≤ K.maxMs := fun x => by
    unfold Chrono.inRange
    rw [Bool.and_eq_true, decide_eq_true_eq, decide_eq_true_eq]
  have hi64 : (∃ ms, asI64 ms = t) ↔ -2 ^ 63 ≤ t := by
    constructor
    · rintro ⟨ms, rfl⟩
      unfold asI64
      split <;> omega
    · intro hle
      -- what does not fit is its difference from 2 ^ 64
      refine ⟨if 0 ≤ t ∧ t < 2 ^ 63 then t.toNat else (t + 2 ^ 64).toNat, ?_⟩
      unfold asI64
      split_ifs <;> omega
  have hhas : s.Has t ↔ (∀ a ∈ s.start, a ≤ t) ∧ ∀ b ∈ s.stop, t < b := Iff.rfl
  have hshown : (∃ ms, ShownAs K z ms t) ∧ s.Has t ↔ (-2 ^ 63 ≤ t ∧ (K.minMs ≤ t ∧ t ≤ K.maxMs) ∧
      K.minMs ≤ t + s.offset * 1000 ∧ t + s.offset * 1000 ≤ K.maxMs) ∧ s.Has t := by
    refine and_congr_left fun h => ⟨fun ⟨ms, hms⟩ => ?_, fun ⟨h1, h2, h3⟩ => ?_⟩
    · have hlocal := hms.localRange
      rw [Zone.local_of_has hs h] at hlocal
      exact ⟨hi64.1 ⟨ms, hms.asI64⟩, (hrange t).1 hms.range, (hrange _).1 hlocal⟩
    · obtain ⟨ms, hms⟩ := hi64.2 h1
      exact ⟨ms, hms, (hrange t).2 h2, by rw [Zone.local_of_has hs h]; exact (hrange _).2 h3⟩
  rw [hshown, hhas]
  unfold Chrono.firstOf Chrono.endOf
  cases s.start <;> cases s.stop <;> simp <;> omega

variable (utcNow) in
/-- The bounds of an instant: its day opens at the first, and the second is 24 hours later. -/
theorem bounds_of_shown (h : ShownAs K (K.zone timezone) nowMs n) :
    Opens K (K.zone timezone) ((K.zone timezone).date n) (K.tradingDayBounds nowMs utcNow timezone).1 ∧
      (K.tradingDayBounds nowMs utcNow timezone).2 = (K.tradingDayBounds nowMs utcNow timezone).1 + dayMs := by
  refine ⟨start_eq_iff.1 ?_, rfl⟩
  unfold Chrono.tradingDayBounds
  rw [instant_of_shown h, Option.getD_some]

theorem opens_unique {b : ℤ} (ha : Opens K z d a) (hb : Opens K z d b) : a = b :=
  (start_eq_iff.2 ha).symm.trans (start_eq_iff.2 hb)

/-! ## When they match -/

/-- Stretch by stretch, the date of `n` is the 24 hours from `a`. -/
theorem quiet_iff : (∀ s ∈ z.stretches, Zone.SameDay (K.firstOf s) (K.endOf s) a (s.midnight (z.date n))) ↔
    ∀ ms t, ShownAs K z ms t → (z.date t = z.date n ↔ a ≤ t ∧ t < a + dayMs) := by
  constructor
  · intro hquiet ms t ht
    obtain ⟨s, hs, hhas⟩ := Zone.exists_stretch z t
    obtain ⟨h1, h2⟩ := (shown_iff hs).1 ⟨⟨ms, ht⟩, hhas⟩
    rw [Zone.date_of_has hs hhas]
    exact (Zone.sameDay_iff.1 (hquiet s hs) t h1 h2).symm
  · intro hdate s hs
    refine Zone.sameDay_iff.2 fun t h1 h2 => ?_
    obtain ⟨⟨ms, ht⟩, hhas⟩ := (shown_iff hs).2 ⟨h1, h2⟩
    rw [← hdate ms t ht, Zone.date_of_has hs hhas]

/-- **When the window is the trading day**: the table is quiet around the date of `n` from somewhere. -/
theorem trading_day_bounds_match (K : Chrono) (timezone : String) (utcNow : ℤ) (nowMs : ℕ) (n : ℤ)
    (h : ShownAs K (K.zone timezone) nowMs n) :
    BoundsMatch K timezone utcNow nowMs n ↔ ∃ a, QuietDay K (K.zone timezone) n a := by
  obtain ⟨hopens, hend⟩ := bounds_of_shown utcNow h
  -- the midnight that a stretch shows as the next one
  have hnext : ∀ a, ∀ s ∈ (K.zone timezone).stretches, s.Has (a + dayMs) →
      (a + dayMs + s.offset * 1000) / dayMs = (K.zone timezone).date (a + dayMs) := by
    intro a s hs hhas
    unfold Zone.date
    rw [Zone.local_of_has hs hhas]
  constructor
  · intro hm
    refine ⟨_, hopens, quiet_iff.2 fun ms t ht => ?_, fun s hs hin => ?_⟩
    · rw [← key_eq_iff utcNow ht h, hm.key ms t ht, hend]
    · obtain ⟨⟨ms, hms⟩, hhas⟩ := (shown_iff hs).2 hin
      rw [hnext _ s hs hhas]
      have hopens' := (bounds_of_shown utcNow hms).1
      rwa [← hend, hm.next ms (hend ▸ hms), hend] at hopens'
  · rintro ⟨a, hday⟩
    have hstart := opens_unique hopens hday.opens
    rw [hstart] at hend
    have hdate := quiet_iff.1 hday.quiet
    refine ⟨?_, fun ms t ht => ?_, fun ms hms => ?_⟩
    · rw [hstart, hend]
      exact (hdate nowMs n h).1 rfl
    · rw [key_eq_iff utcNow ht h, hdate ms t ht, hstart, hend]
    · rw [hend] at hms ⊢
      obtain ⟨s, hs, hhas⟩ := Zone.exists_stretch (K.zone timezone) (a + dayMs)
      have hquiet := hday.next s hs ((shown_iff hs).1 ⟨⟨ms, hms⟩, hhas⟩)
      rw [hnext a s hs hhas] at hquiet
      exact opens_unique (bounds_of_shown utcNow hms).1 hquiet

/-! ## Quiet days -/

/-- Without a transition around it, a day is quiet from the instant that shows its midnight. -/
theorem quietDay_of_steady (hb : z.Bounded) (hs : z.Steady a) (ha : z.localTime a = z.date n * dayMs)
    (hr : K.inRange a = true) : QuietDay K z n a := by
  have hlocal := Zone.local_of_steady hb hs
  have hdate := Zone.date_of_steady hb hs ha
  refine ⟨opens_of_shown fun t => ⟨fun ht => ?_, ?_⟩, quiet_iff.2 fun ms t _ => hdate t, fun s hst hin => ?_⟩
  · have hcases := hlocal t
    have heq := ht.2.trans ha.symm
    unfold dayMs at hcases
    omega
  · rintro rfl
    exact ⟨hr, ha⟩
  · -- the next midnight is shown 24 hours later, and only then
    obtain ⟨⟨ms, hms⟩, hhas⟩ := (shown_iff hst).2 hin
    have hnext : z.localTime (a + dayMs) = (z.date n + 1) * dayMs := by
      have hoff := hs (a + dayMs) (by unfold dayMs; omega) (by unfold dayMs; omega)
      unfold Zone.localTime at ha ⊢
      rw [hoff]
      unfold dayMs at *
      omega
    have hday : (a + dayMs + s.offset * 1000) / dayMs = z.date n + 1 := by
      rw [← Zone.local_of_has hst hhas, hnext]
      exact Int.mul_ediv_cancel _ (by decide)
    rw [hday]
    refine opens_of_shown fun t => ⟨fun ht => ?_, ?_⟩
    · have hcases := hlocal t
      have hlt := ht.2
      rw [ha] at hcases
      unfold dayMs at *
      omega
    · rintro rfl
      exact ⟨hms.range, hnext⟩

/-! ## Two zones -/

/-- Days by their names, and by a tally. -/
def dayName (d : ℤ) : String :=
  if d = 20089 then "2025-01-01" else if d = 20394 then "2025-11-02" else if d = 20395 then "2025-11-03"
  else String.ofList ('d' :: List.replicate (Encodable.encode d) '0')

theorem dayName_injective : Function.Injective dayName := by
  have htally : ∀ (n : ℕ) (s : String), s.toList.head? ≠ some 'd' → String.ofList ('d' :: List.replicate n '0') ≠ s := by
    intro n s hs he
    rw [← he, String.toList_ofList] at hs
    exact hs rfl
  intro d e h
  unfold dayName at h
  have hlen : ∀ m n : ℕ, String.ofList ('d' :: List.replicate m '0') = String.ofList ('d' :: List.replicate n '0') → m = n := by
    intro m n he
    simpa using congrArg (fun s => s.toList.length) he
  split_ifs at h
  all_goals first
    | omega
    | exact Encodable.encode_injective (hlen _ _ h)
    | exact absurd h (by decide)
    | exact absurd h (htally _ _ (by decide))
    | exact absurd h.symm (htally _ _ (by decide))

def shanghaiZone : Zone := ⟨28800, [], List.Pairwise.nil⟩

/-- New York in 2025. -/
def newYorkZone : Zone := ⟨-18000, [(1741503600, -14400), (1762063200, -18000)], by decide⟩

def chronoSample : Chrono where
  parse name := if name = "Asia/Shanghai" then some shanghaiZone else if name = "America/New_York" then some newYorkZone else none
  shanghai := shanghaiZone
  parse_shanghai := rfl
  minMs := -8334601228800000
  maxMs := 8210266876799999
  format := dayName
  format_inj := dayName_injective

/-- The second of November 2025 has 25 hours: at half past four UTC of the third it is still that
day in New York, and the window is over. -/
theorem long_day_not_matched : ¬BoundsMatch chronoSample "America/New_York" 0 1762144200000 1762144200000 := by
  intro h
  have hend : (chronoSample.tradingDayBounds 1762144200000 0 "America/New_York").2 = 1762142400000 := by decide +kernel
  have hlt := h.within.2
  rw [hend] at hlt
  omega

/-- The first of November has 24 hours, and the long day begins as they end; in Shanghai no transition is near. -/
theorem trading_day_bounds_match_two_zones :
    BoundsMatch chronoSample "America/New_York" 0 1762000000000 1762000000000 ∧
      BoundsMatch chronoSample "Asia/Shanghai" 0 1762000000000 1762000000000 := by
  constructor
  · have hshown : ShownAs chronoSample (chronoSample.zone "America/New_York") 1762000000000 1762000000000 :=
      ⟨by decide, by decide, by decide⟩
    have hday : QuietDay chronoSample (chronoSample.zone "America/New_York") 1762000000000 1761969600000 :=
      ⟨by decide +kernel, by decide +kernel, by decide +kernel⟩
    exact (trading_day_bounds_match chronoSample "America/New_York" 0 1762000000000 1762000000000 hshown).2 ⟨_, hday⟩
  · have hshown : ShownAs chronoSample (chronoSample.zone "Asia/Shanghai") 1762000000000 1762000000000 :=
      ⟨by decide, by decide, by decide⟩
    have hday : QuietDay chronoSample (chronoSample.zone "Asia/Shanghai") 1762000000000 1761926400000 :=
      quietDay_of_steady (by unfold Zone.Bounded; decide) (fun _ _ _ => rfl) (by decide) (by decide)
    exact (trading_day_bounds_match chronoSample "Asia/Shanghai" 0 1762000000000 1762000000000 hshown).2 ⟨_, hday⟩

end EasiFlux
