import EasiFlux.Proof.KlineFiles

/-!
# What an upsert does to a series

`Upserted s s'` says it once, time by time: a bar is as it was, or new and pending, or
cropped. Everything later is read off it.
-/

namespace EasiFlux

open CrashIo Newest

variable {key : ChartWorkspaceKey}

/-- What holds of a series in memory. -/
structure SeriesOk (key : ChartWorkspaceKey) (s : BufferedSeries) : Prop where
  filed : Filed key s.bars
  size : s.bars.size ≤ maxStoredBars
  pending : ∀ (t : ℤ) (p : PendingEntry), s.pending[t]? = some p → s.bars[t]? = some p.kline ∧ p.revision ≤ s.revision
  flag : ∀ r ∈ s.compactionRevision, r ≤ s.revision
  physical : s.compactionRevision.isSome ∨ s.physicalRecords ≤ compactPhysicalRecords

/-- The bar of a time is new, and waits to be written. -/
def Renewed (key : ChartWorkspaceKey) (s s' : BufferedSeries) (t : ℤ) : Prop :=
  ∃ p, s'.bars[t]? = some p.kline ∧ s'.pending[t]? = some p ∧ s.revision < p.revision ∧ p.revision ≤ s'.revision ∧
    p.kline.openTime = t ∧ key.accepts p.kline = true

/-- Nothing has happened to a time. -/
def SameAt (s s' : BufferedSeries) (t : ℤ) : Prop := s'.bars[t]? = s.bars[t]? ∧ s'.pending[t]? = s.pending[t]?

/-- A time has been forgotten. -/
def Cropped (s' : BufferedSeries) (t : ℤ) : Prop := s'.bars[t]? = none ∧ s'.pending[t]? = none

/-- The series before the crop at the end of an upsert. -/
structure Grown (key : ChartWorkspaceKey) (s s' : BufferedSeries) : Prop where
  revision : s.revision ≤ s'.revision
  loaded : s'.loaded = s.loaded
  physical : s'.physicalRecords = s.physicalRecords
  flag : s'.compactionRevision = s.compactionRevision
  at_ : ∀ t, SameAt s s' t ∨ Renewed key s s' t

theorem Grown.refl (s : BufferedSeries) : Grown key s s := ⟨le_refl _, rfl, rfl, rfl, fun _ => .inl ⟨rfl, rfl⟩⟩

theorem Grown.trans {s₁ s₂ s₃ : BufferedSeries} (h : Grown key s₁ s₂) (h' : Grown key s₂ s₃) : Grown key s₁ s₃ := by
  refine ⟨h.revision.trans h'.revision, h'.loaded.trans h.loaded, h'.physical.trans h.physical, h'.flag.trans h.flag, fun t => ?_⟩
  rcases h'.at_ t with hs | ⟨p, hb, hp, hlt, hle, hk⟩
  · rcases h.at_ t with hs' | ⟨p, hb, hp, hlt, hle, hk⟩
    · exact .inl ⟨hs.1.trans hs'.1, hs.2.trans hs'.2⟩
    · exact .inr ⟨p, hs.1.trans hb, hs.2.trans hp, hlt, hle.trans h'.revision, hk⟩
  · exact .inr ⟨p, hb, hp, lt_of_le_of_lt h.revision hlt, hle, hk⟩

/-- Revisions are far from the end of their range. -/
def Fresh64 (s : BufferedSeries) (n : ℕ) : Prop := s.revision + n < 2 ^ 64

theorem nextRevision_eq {s : BufferedSeries} (h : s.revision + 1 < 2 ^ 64) : s.nextRevision = s.revision + 1 := by
  unfold BufferedSeries.nextRevision
  exact min_eq_left (by omega)

theorem grown_upsertBar (sc : BufferedSeries × Bool) (bar : Kline) (hr : sc.1.revision + 1 < 2 ^ 64)
    (hb : bar.symbol = key.symbol ∧ bar.interval = key.interval) :
    Grown key sc.1 (BufferedSeries.upsertBar sc bar).1 ∧ (BufferedSeries.upsertBar sc bar).1.revision ≤ sc.1.revision + 1 := by
  unfold BufferedSeries.upsertBar
  split
  · exact ⟨.refl _, by omega⟩
  · rename_i hnew
    push Not at hnew
    refine ⟨⟨?_, rfl, rfl, rfl, fun t => ?_⟩, ?_⟩
    · show sc.1.revision ≤ sc.1.nextRevision
      rw [nextRevision_eq hr]; omega
    · by_cases ht : bar.openTime = t
      · subst ht
        refine .inr ⟨⟨bar, sc.1.nextRevision⟩, ?_, ?_, ?_, le_refl _, rfl, ?_⟩
        · show (sc.1.bars.insert bar.openTime bar)[bar.openTime]? = _
          rw [get_insert, if_pos rfl]
        · show (sc.1.pending.insert bar.openTime ⟨bar, sc.1.nextRevision⟩)[bar.openTime]? = _
          rw [get_insert, if_pos rfl]
        · rw [nextRevision_eq hr]; exact Nat.lt_succ_self _
        · simp only [ChartWorkspaceKey.accepts, hb.1, hb.2, decide_true, Bool.and_true, decide_eq_true_eq]
          exact hnew.1
      · refine .inl ⟨?_, ?_⟩
        · show (sc.1.bars.insert bar.openTime bar)[t]? = _
          rw [get_insert, if_neg ht]
        · show (sc.1.pending.insert bar.openTime ⟨bar, sc.1.nextRevision⟩)[t]? = _
          rw [get_insert, if_neg ht]
    · show sc.1.nextRevision ≤ _
      rw [nextRevision_eq hr]

theorem grown_foldl {bars : List Kline} (hb : ∀ bar ∈ bars, bar.symbol = key.symbol ∧ bar.interval = key.interval)
    (sc : BufferedSeries × Bool) (hr : Fresh64 sc.1 bars.length) :
    Grown key sc.1 (bars.foldl BufferedSeries.upsertBar sc).1 := by
  induction bars generalizing sc with
  | nil => exact .refl _
  | cons bar bars ih =>
    rw [Fresh64, List.length_cons] at hr
    obtain ⟨hg, hle⟩ := grown_upsertBar sc bar (by omega) (hb bar List.mem_cons_self)
    exact hg.trans (ih (fun b h => hb b (List.mem_cons_of_mem _ h)) _ (by rw [Fresh64]; omega))

/-! ## The crop -/

theorem evict_iterate (s : BufferedSeries) (i : ℕ) :
    (BufferedSeries.evict^[i] s).bars = dropOldest^[i] s.bars ∧
    (∀ t, (BufferedSeries.evict^[i] s).pending[t]? =
      if t ∈ s.bars ∧ t ∉ dropOldest^[i] s.bars then none else s.pending[t]?) ∧
    (BufferedSeries.evict^[i] s).revision = s.revision ∧ (BufferedSeries.evict^[i] s).loaded = s.loaded ∧
    (BufferedSeries.evict^[i] s).physicalRecords = s.physicalRecords ∧
    (BufferedSeries.evict^[i] s).compactionRevision = s.compactionRevision := by
  induction i generalizing s with
  | zero => exact ⟨rfl, fun t => by simp, rfl, rfl, rfl, rfl⟩
  | succ i ih =>
    have hone : s.evict.bars = dropOldest s.bars ∧
        (∀ t, s.evict.pending[t]? = if s.bars.minKey? = some t then none else s.pending[t]?) ∧
        s.evict.revision = s.revision ∧ s.evict.loaded = s.loaded ∧ s.evict.physicalRecords = s.physicalRecords ∧
        s.evict.compactionRevision = s.compactionRevision := by
      unfold BufferedSeries.evict dropOldest
      cases hm : s.bars.minKey? with
      | none => exact ⟨rfl, fun t => by simp, rfl, rfl, rfl, rfl⟩
      | some k =>
        refine ⟨rfl, fun t => ?_, rfl, rfl, rfl, rfl⟩
        show (s.pending.erase k)[t]? = _
        rw [get_erase]
        simp only [Option.some.injEq]
    obtain ⟨hb, hp, hr, hl, hph, hc⟩ := ih s.evict
    obtain ⟨hb₁, hp₁, hr₁, hl₁, hph₁, hc₁⟩ := hone
    rw [hb₁] at hb hp
    refine ⟨hb, fun t => ?_, hr.trans hr₁, hl.trans hl₁, hph.trans hph₁, hc.trans hc₁⟩
    rw [Function.iterate_succ_apply, Function.iterate_succ_apply, hp, hp₁]
    by_cases hmin : s.bars.minKey? = some t
    · -- the oldest one goes now, and is not there later
      have hin : t ∈ s.bars := Std.ExtTreeMap.minKey?_mem hmin
      have hout : t ∉ dropOldest s.bars := by
        rw [← get_eq_none, get_dropOldest, if_pos hmin]
      have hgone : t ∉ dropOldest^[i] (dropOldest s.bars) := fun h => by
        obtain ⟨v, hv⟩ := mem_iff_get.1 h
        exact hout (mem_of_get (get_of_iterate i hv))
      rw [if_pos hmin, ite_self, if_pos ⟨hin, hgone⟩]
    · have hsame : t ∈ dropOldest s.bars ↔ t ∈ s.bars := by
        rw [mem_iff_get, mem_iff_get]
        simp only [get_dropOldest, if_neg hmin]
      rw [if_neg hmin]
      simp only [hsame]

/-- One upsert on a series: what became of each time, and of the compaction. -/
structure Upserted (key : ChartWorkspaceKey) (s s' : BufferedSeries) : Prop where
  revision : s.revision ≤ s'.revision
  loaded : s'.loaded = s.loaded
  physical : s'.physicalRecords = s.physicalRecords
  at_ : ∀ t, SameAt s s' t ∨ Renewed key s s' t ∨ Cropped s' t
  size : s'.bars.size ≤ maxStoredBars
  flag : s'.compactionRevision = s.compactionRevision ∧ (∀ t, SameAt s s' t ∨ Renewed key s s' t) ∨
    s'.compactionRevision = some s'.revision ∧ s.revision < s'.revision

theorem upserted_crop {s s₁ : BufferedSeries} (hs : SeriesOk key s) (h : Grown key s s₁) : Upserted key s s₁.cropSeries := by
  unfold BufferedSeries.cropSeries
  split
  · rename_i hbig
    obtain ⟨hb, hp, hr, hl, hph, hc⟩ :=
      evict_iterate { s₁ with compactionRevision := some s₁.revision } (s₁.bars.size - maxStoredBars)
    have hb : _ = crop maxStoredBars s₁.bars := hb
    have hp : ∀ t, _ = if t ∈ s₁.bars ∧ t ∉ crop maxStoredBars s₁.bars then none else s₁.pending[t]? := hp
    -- a series can only have become too long by a new bar
    have hlt : s.revision < s₁.revision := by
      refine lt_of_le_of_ne h.revision fun he => ?_
      have hsame : s₁.bars = s.bars := by
        refine Std.ExtTreeMap.ext_getElem? fun t => ?_
        rcases h.at_ t with hs | ⟨p, -, -, hlt, hle, -⟩
        · exact hs.1
        · omega
      rw [hsame] at hbig
      exact absurd hs.size (not_le.2 hbig)
    refine ⟨?_, hl.trans h.loaded, hph.trans h.physical, fun t => ?_, ?_, .inr ⟨?_, ?_⟩⟩
    · rw [hr]; exact h.revision
    · by_cases hout : t ∈ s₁.bars ∧ t ∉ crop maxStoredBars s₁.bars
      · refine .inr (.inr ⟨?_, ?_⟩)
        · rw [hb]; exact get_eq_none.2 hout.2
        · rw [hp, if_pos hout]
      · have hbt : (crop maxStoredBars s₁.bars)[t]? = s₁.bars[t]? := by
          by_cases hin : t ∈ crop maxStoredBars s₁.bars
          · exact get_crop hin
          · have : t ∉ s₁.bars := fun hm => hout ⟨hm, hin⟩
            rw [get_eq_none.2 hin, get_eq_none.2 this]
        have hpt := hp t
        rw [if_neg hout] at hpt
        rcases h.at_ t with hsame | ⟨p, hpb, hpp, hpl, hple, hk⟩
        · exact .inl ⟨by rw [hb, hbt]; exact hsame.1, hpt.trans hsame.2⟩
        · exact .inr (.inl ⟨p, by rw [hb, hbt]; exact hpb, hpt.trans hpp, hpl, by rw [hr]; exact hple, hk⟩)
    · rw [hb]; exact size_crop_le _ _
    · rw [hc, hr]
    · rw [hr]; exact hlt
  · rename_i hfit
    refine ⟨h.revision, h.loaded, h.physical, fun t => ?_, not_lt.1 hfit, .inl ⟨h.flag, h.at_⟩⟩
    exact (h.at_ t).imp_right .inl

theorem upserted_of_ok {s s' : BufferedSeries} {bars : List Kline} {result : KlineMergeResult} (hs : SeriesOk key s)
    (hr : Fresh64 s bars.length) (h : s.upsertBars key bars = .ok (s', result)) : Upserted key s s' := by
  unfold BufferedSeries.upsertBars at h
  split at h
  · cases h
  · rename_i hany
    simp only [Except.ok.injEq, Prod.mk.injEq] at h
    obtain ⟨rfl, -⟩ := h
    refine upserted_crop hs (grown_foldl (fun bar hb => ?_) (s, false) hr)
    have := mt (fun h => List.any_eq_true.2 ⟨bar, hb, h⟩) hany
    simpa using this

end EasiFlux
