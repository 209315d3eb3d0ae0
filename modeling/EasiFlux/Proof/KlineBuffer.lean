import Mathlib.Tactic.DeriveCountable
import EasiFlux.Lib.Codec
import EasiFlux.Proof.KlineFlush

/-!
# The buffer loses no bar

`buffer_keeps`: in a run in which nothing fails, whatever the interleaving of upserts
with the sections of a flush, a bar in memory is pending or on disk, and a series that
is not dirty is what a new store loads. `flush_durable`: in a run in which anything may
fail, a flush that returns `Ok` has stored the series, and an append that fails takes
nothing away. Both need the steps to be `Calm`: `torn_append_loses_update` says what happens
to a bar that is appended to a line without an end.
-/

namespace EasiFlux

open CrashIo Newest Steps

variable {C : LineCodec Kline} {key : ChartWorkspaceKey} {s s' : BufferedSeries} {dir dir' : KlineDir} {w : KlineWorld}

/-! ## Nothing fails -/

/-- A step of a process that lives on, in which no file operation fails. -/
def Faultless : KlineAct → Prop
  | .write faults restore => faults = [] ∧ restore = []
  | .restart => False
  | _ => True

instance : DecidablePred Faultless
  | .write faults restore => inferInstanceAs (Decidable (faults = [] ∧ restore = []))
  | .restart => .isFalse id
  | .load | .upsert _ | .prepare | .acknowledge => .isTrue trivial

/-- Every bar in memory is pending or loaded by a new store. -/
def Covered (C : LineCodec Kline) (key : ChartWorkspaceKey) (dir : KlineDir) (s : BufferedSeries) : Prop :=
  ∃ f, KlineWorld.fresh C key dir = some f ∧ ∀ (t : ℤ) (bar : Kline), s.bars[t]? = some bar → t ∈ s.pending ∨ f[t]? = some bar

theorem Covered.upsert (h : Covered C key dir s) (hu : Upserted key s s') : Covered C key dir s' := by
  obtain ⟨f, hf, hc⟩ := h
  refine ⟨f, hf, fun t bar ht => ?_⟩
  rcases hu.at_ t with hsame | ⟨e, -, hp, -⟩ | hcrop
  · refine (hc t bar (hsame.1.symm.trans ht)).imp_left fun hp => ?_
    exact hu.pending_mem hp (mem_of_get ht)
  · exact .inl (mem_of_get hp)
  · rw [hcrop.1] at ht; cases ht

/-- A file that can be loaded as the main file can be checked as one. -/
theorem parseFallback_of_parseMain {ls : List Bytes} {bars bars' : Bars} {n n' : ℕ} {p : Bars × ℕ}
    (h : parseMain C key ls bars n = .ok p) : ∃ x, parseFallback C key ls bars' n' = .ok x := by
  induction ls generalizing bars bars' n n' with
  | nil => exact ⟨_, rfl⟩
  | cons l ls ih =>
    simp only [parseMain] at h
    simp only [parseFallback]
    cases hd : C.decode l with
    | invalid => rw [hd] at h; cases h
    | blank => exact ⟨_, rfl⟩
    | corrupt => exact ⟨_, rfl⟩
    | record bar =>
      rw [hd] at h
      simp only
      split
      · exact ih h
      · exact ⟨_, rfl⟩

theorem fallbackOf_main_ok {f : Bars} (h : KlineWorld.fresh C key dir = some f) : ∃ x, fallbackOf C key dir .main = .ok x := by
  by_cases hm : contents dir .main = []
  · refine ⟨none, ?_⟩
    rw [fallbackOf, hm]
    rfl
  · rw [fresh_main hm, mainBars] at h
    cases hp : parseMain C key (lines (contents dir .main)) ∅ 0 with
    | error e => rw [hp] at h; cases h
    | ok p => exact parseFallback_of_parseMain hp

/-- A write in which nothing fails goes through. -/
theorem writeBatch_faultless (hc : Covered C key w.dir w.series) (batch : FlushBatch) :
    ∃ d, w.writeBatch C key batch [] [] = { w with dir := d, flight := some ⟨batch, true⟩ } := by
  obtain ⟨f, hf, -⟩ := hc
  unfold KlineWorld.writeBatch
  cases batch.compact with
  | true =>
    obtain ⟨x, hx⟩ := fallbackOf_main_ok hf
    obtain ⟨d, hd⟩ := compactBatch_run batch [] hx
    rw [if_pos rfl, hd]
    exact ⟨d, rfl⟩
  | false =>
    obtain ⟨d, hd⟩ : ∃ d, appendBatch C batch w.dir [] = .ok () d [] := appendBatch_run batch
    rw [if_neg Bool.false_ne_true, hd]
    exact ⟨d, rfl⟩

/-- The invariant of a run in which nothing fails. -/
def Buffered (C : LineCodec Kline) (key : ChartWorkspaceKey) (w : KlineWorld) : Prop :=
  KlineOk C key w ∧ (w.series.loaded = true → Covered C key w.dir w.series)

theorem acknowledge_pending (s : BufferedSeries) (batch : FlushBatch) (t : ℤ) :
    (s.acknowledgeFlush batch).pending[t]? = s.pending[t]?.filter fun e => batch.snapshotRevision < e.revision := by
  unfold BufferedSeries.acknowledgeFlush
  split <;> exact get_filter _ _ t

theorem acknowledge_bars (s : BufferedSeries) (batch : FlushBatch) : (s.acknowledgeFlush batch).bars = s.bars := by
  unfold BufferedSeries.acknowledgeFlush
  split <;> rfl

theorem acknowledge_loaded (s : BufferedSeries) (batch : FlushBatch) : (s.acknowledgeFlush batch).loaded = s.loaded := by
  unfold BufferedSeries.acknowledgeFlush
  split <;> rfl

theorem KlineOk.loaded_of_flight (h : KlineOk C key w) {f : Flight} (hf : w.flight = some f) : w.series.loaded = true := by
  by_contra hn
  rw [(h.unloaded (Bool.eq_false_iff.2 hn)).2] at hf
  cases hf

theorem Buffered.step (h : Buffered C key w) {a : KlineAct} (hfl : Faultless a) (ha : Calm C key w a) :
    Buffered C key (w.step C key a) := by
  have hok := h.1.step ha
  refine ⟨hok, ?_⟩
  cases a with
  | load =>
    intro hl
    simp only [KlineWorld.step, KlineWorld.ensureLoaded] at hl ⊢
    split
    · exact h.2 ‹_›
    · rename_i hn
      split
      · rename_i loaded d rest hload
        obtain ⟨-, -, hfresh, -⟩ := loadFromDisk_ok hload
        exact ⟨_, hfresh, fun t bar ht => .inr ht⟩
      · rename_i hload
        rw [if_neg hn] at hl
        split at hl
        · exact absurd ‹_› (hload _ _ _)
        · exact absurd hl hn
  | upsert bars =>
    simp only [KlineWorld.step]
    split
    · rename_i hl
      split
      · rename_i s' result hres
        exact fun _ => (h.2 hl).upsert (upserted_of_ok h.1.series ha hres)
      · exact h.2
    · exact h.2
  | prepare =>
    simp only [KlineWorld.step]
    split <;> exact h.2
  | write faults restore =>
    obtain ⟨rfl, rfl⟩ := hfl
    simp only [KlineWorld.step] at hok ⊢
    split
    · rename_i batch hf
      have hl := h.1.loaded_of_flight hf
      obtain ⟨d, hd⟩ := writeBatch_faultless (h.2 hl) batch
      simp only [hf, hd] at hok
      rw [hd]
      -- the directory holds the copy; what differs from it is pending
      obtain ⟨b, p, hfo, hst⟩ := hok.flight _ rfl
      obtain ⟨m, -, -, hfresh⟩ := hst
      refine fun _ => ⟨b, hfresh, fun t bar ht => ?_⟩
      rcases hfo.current t bar ht with ⟨e, he, -⟩ | hb
      · exact .inl (mem_of_get he)
      · exact .inr hb
    · exact h.2
  | acknowledge =>
    simp only [KlineWorld.step]
    split
    · rename_i batch hf
      obtain ⟨b, p, hfo, m, -, -, hfresh⟩ := h.1.flight _ hf
      refine fun _ => ⟨b, hfresh, fun t bar ht => ?_⟩
      rw [acknowledge_bars] at ht
      rcases hfo.current t bar ht with ⟨e, he, hlt⟩ | hb
      · refine .inl (mem_of_get (v := e) ?_)
        rw [acknowledge_pending, he]
        exact Option.filter_eq_some_iff.2 ⟨rfl, by simpa using hlt⟩
      · exact .inr hb
    · exact h.2
  | restart => exact absurd hfl id

/-- What the buffer promises of the memory and the directory. -/
structure BufferKept (C : LineCodec Kline) (key : ChartWorkspaceKey) (w : KlineWorld) : Prop where
  buffered : ∀ (t : ℤ) (bar : Kline), w.series.bars[t]? = some bar →
    (∃ e, w.series.pending[t]? = some e ∧ e.kline = bar) ∨ ∃ f, KlineWorld.fresh C key w.dir = some f ∧ f[t]? = some bar
  clean : w.series.loaded = true → w.series.dirty = false → KlineWorld.fresh C key w.dir = some w.series.bars

/-- A pending entry stays in a step unless a later one takes its place, its time is
cropped, or a new store loads its bar. -/
def PendingKept (C : LineCodec Kline) (key : ChartWorkspaceKey) (w w' : KlineWorld) : Prop :=
  ∀ (t : ℤ) (e : PendingEntry), w.series.pending[t]? = some e →
    w'.series.pending[t]? = some e ∨ (∃ e', w'.series.pending[t]? = some e' ∧ e.revision < e'.revision) ∨
      w'.series.bars[t]? = none ∨ ∃ f, KlineWorld.fresh C key w'.dir = some f ∧ f[t]? = some e.kline

/-- A series that is not dirty owes no compaction and has nothing pending. -/
theorem SeriesOk.not_dirty (h : SeriesOk key s) (hd : s.dirty = false) : ¬ mustCompact s ∧ ∀ t, t ∉ s.pending := by
  unfold BufferedSeries.dirty at hd
  simp only [ne_eq, Bool.or_eq_false_iff, decide_eq_false_iff_not, not_not, Option.isSome_eq_false_iff,
    Option.isNone_iff_eq_none] at hd
  have hphys : s.physicalRecords ≤ compactPhysicalRecords := h.physical.resolve_left (by simp [hd.2])
  refine ⟨?_, fun t ht => ?_⟩
  · rintro (hc | hc)
    · simp [hd.2] at hc
    · omega
  · have hempty : s.pending = ∅ := Std.ExtTreeMap.eq_empty_iff_size_eq_zero.2 hd.1
    rw [hempty] at ht
    simp at ht

/-- The series and the directory agree when nothing waits. -/
theorem KlineOk.clean (h : KlineOk C key w) (hl : w.series.loaded = true) (hd : w.series.dirty = false) :
    KlineWorld.fresh C key w.dir = some w.series.bars := by
  obtain ⟨hm, hp⟩ := h.series.not_dirty hd
  obtain ⟨d, hs⟩ := h.synced hl hm
  rw [hs.fresh]
  refine congrArg some (Std.ExtTreeMap.ext_getElem? fun t => ?_)
  cases hb : w.series.bars[t]? with
  | some bar => exact (hs.covered t bar hb).resolve_left (hp t)
  | none => exact get_eq_none.2 fun ht => get_eq_none.1 hb (hs.within t ht)

theorem Buffered.kept (h : Buffered C key w) : BufferKept C key w := by
  refine ⟨fun t bar ht => ?_, h.1.clean⟩
  have hl : w.series.loaded = true := by
    by_contra hn
    rw [(h.1.unloaded (Bool.eq_false_iff.2 hn)).1] at ht
    have ht : (∅ : Bars)[t]? = some bar := ht
    simp at ht
  obtain ⟨f, hf, hc⟩ := h.2 hl
  refine (hc t bar ht).imp (fun hp => ?_) fun hb => ⟨f, hf, hb⟩
  obtain ⟨e, he⟩ := mem_iff_get.1 hp
  exact ⟨e, he, Option.some.inj ((h.1.series.pending t e he).1.symm.trans ht)⟩

theorem Upserted.pendingKept {d : KlineDir} {fl : Option Flight} (hs : SeriesOk key s) (hu : Upserted key s s') :
    PendingKept C key ⟨d, s, fl⟩ ⟨d, s', fl⟩ := by
  intro t e he
  rcases hu.at_ t with hsame | ⟨e', -, hp, hlt, -⟩ | hc
  · exact .inl (hsame.2.trans he)
  · exact .inr (.inl ⟨e', hp, (hs.pending t e he).2.trans_lt hlt⟩)
  · exact .inr (.inr (.inl hc.1))

theorem Buffered.pendingKept (h : Buffered C key w) {a : KlineAct} (hfl : Faultless a) (ha : Calm C key w a) :
    PendingKept C key w (w.step C key a) := by
  have hsame : PendingKept C key w w := fun t e he => .inl he
  cases a with
  | load =>
    simp only [KlineWorld.step, KlineWorld.ensureLoaded]
    split
    · exact hsame
    · split
      · exact fun t e he => .inl he
      · exact hsame
  | upsert bars =>
    simp only [KlineWorld.step]
    split
    · split
      · rename_i s' result hres
        exact (upserted_of_ok h.1.series ha hres).pendingKept h.1.series
      · exact hsame
    · exact hsame
  | prepare =>
    simp only [KlineWorld.step]
    split <;> exact fun t e he => .inl he
  | write faults restore =>
    obtain ⟨rfl, rfl⟩ := hfl
    simp only [KlineWorld.step]
    split
    · rename_i batch hf
      obtain ⟨d, hd⟩ := writeBatch_faultless (h.2 (h.1.loaded_of_flight hf)) batch
      rw [hd]
      exact fun t e he => .inl he
    · exact hsame
  | acknowledge =>
    simp only [KlineWorld.step]
    split
    · rename_i batch hf
      obtain ⟨b, p, hfo, m, -, -, hfresh⟩ := h.1.flight _ hf
      intro t e he
      by_cases hle : e.revision ≤ batch.snapshotRevision
      · -- the entry was in the batch, and the batch is on disk
        exact .inr (.inr (.inr ⟨b, hfresh, hfo.taken t e (hfo.old t e he hle)⟩))
      · refine .inl ?_
        show (w.series.acknowledgeFlush batch).pending[t]? = some e
        rw [acknowledge_pending, he]
        exact Option.filter_eq_some_iff.2 ⟨rfl, by simpa using hle⟩
    · exact hsame
  | restart => exact absurd hfl id

/-- **Nothing an upsert has brought is lost.** In a run without a fault, whatever comes
between the sections of a flush, the buffer keeps its promise in every state, and no
step loses a pending bar. -/
theorem buffer_keeps (C : LineCodec Kline) (key : ChartWorkspaceKey) (dir : KlineDir) (as : List KlineAct)
    (h : Along (KlineWorld.step C key) (fun w a => Faultless a ∧ Calm C key w a) (.open dir) as) :
    BufferKept C key (run (KlineWorld.step C key) (.open dir) as) ∧
      ∀ a, Faultless a → Calm C key (run (KlineWorld.step C key) (.open dir) as) a →
        PendingKept C key (run (KlineWorld.step C key) (.open dir) as)
          ((run (KlineWorld.step C key) (.open dir) as).step C key a) := by
  have hinv : Buffered C key (run (KlineWorld.step C key) (.open dir) as) :=
    run_inv_along (fun _ _ hw ha => hw.step ha.1 ha.2) as _ ⟨klineOk_open dir, (fun hl => nomatch hl)⟩ h
  exact ⟨hinv.kept, fun a hf ha => hinv.pendingKept hf ha⟩

/-! ## A flush that returns `Ok` -/

/-- `flush_key` is its four sections; the last two do nothing when there is nothing to
write. -/
theorem flushKey_fst (w : KlineWorld) (faults restore : List Fault) :
    (w.flushKey C key faults restore).1 =
      run (KlineWorld.step C key) w [.load, .prepare, .write faults restore, .acknowledge] := by
  unfold KlineWorld.flushKey
  simp only [run_cons, run_nil]
  split
  · rename_i hf
    simp only [KlineWorld.step] at hf ⊢
    rw [hf]
    simp only [hf]
  · rfl

/-- A copy of a series that is acknowledged with nothing in between leaves nothing to
do. -/
theorem SeriesOk.acknowledge_clean {batch : FlushBatch} (h : SeriesOk key s) (hb : s.prepareFlush = some batch) :
    (s.acknowledgeFlush batch).dirty = false := by
  obtain ⟨hf, hm⟩ := flightOk_prepare h hb
  have hrev : batch.snapshotRevision = s.revision := by
    unfold BufferedSeries.prepareFlush at hb
    split at hb
    · cases hb
    · obtain rfl := Option.some.inj hb; rfl
  have hpend : (s.acknowledgeFlush batch).pending = ∅ := by
    refine Std.ExtTreeMap.ext_getElem? fun t => ?_
    rw [acknowledge_pending, hrev]
    cases he : s.pending[t]? with
    | none => simp
    | some e => simpa [Option.filter_eq_none_iff] using (h.pending t e he).2
  have hflag : (s.acknowledgeFlush batch).compactionRevision = none := by
    unfold BufferedSeries.acknowledgeFlush
    split
    · simp only [Option.filter_eq_none_iff, hrev, decide_eq_true_eq, not_lt]
      exact fun r hr => h.flag r hr
    · rename_i hc
      have hno := hm (Bool.eq_false_iff.2 hc)
      cases hr : s.compactionRevision with
      | none => rfl
      | some r => exact absurd (.inl (by rw [hr]; rfl)) hno
  unfold BufferedSeries.dirty
  rw [hpend, hflag]
  rfl

/-- A write after which a flush is under way went through. -/
theorem writeBatch_written {batch : FlushBatch} {faults restore : List Fault}
    (h : (w.writeBatch C key batch faults restore).flight.isSome = true) :
    ∃ d, w.writeBatch C key batch faults restore = { w with dir := d, flight := some ⟨batch, true⟩ } := by
  unfold KlineWorld.writeBatch at h ⊢
  split
  · exact ⟨_, rfl⟩
  · rename_i hrun; rw [hrun] at h; cases h
  · rename_i hrun; rw [hrun] at h; cases h

/-- What a flush that is alone makes of the store, if it returns `Ok`. -/
theorem flushKey_ok (h : KlineOk C key w) (hf : w.flight = none) {faults restore : List Fault}
    (hcalm : Along (KlineWorld.step C key) (Calm C key) w [.load, .prepare, .write faults restore, .acknowledge])
    (hok : (w.flushKey C key faults restore).2 = true) :
    KlineOk C key (w.flushKey C key faults restore).1 ∧ (w.flushKey C key faults restore).1.series.loaded = true ∧
      (w.flushKey C key faults restore).1.series.dirty = false := by
  have hend : KlineOk C key (w.flushKey C key faults restore).1 := by
    rw [flushKey_fst]
    exact run_inv_along (fun _ _ hw ha => hw.step ha) _ _ h hcalm
  refine ⟨hend, ?_⟩
  -- the flush goes on from the loaded series, with no other in flight:
  have hload : KlineOk C key (w.step C key .load) := h.load
  have hlf : (w.step C key .load).flight = none := by
    simp only [KlineWorld.step, KlineWorld.ensureLoaded]
    split
    · exact hf
    · split <;> exact hf
  generalize hw₁ : w.step C key .load = w₁ at hload hlf
  have hp : w₁.step C key .prepare =
      if w₁.series.loaded then { w₁ with flight := w₁.series.prepareFlush.map fun batch => ⟨batch, false⟩ } else w₁ := by
    simp only [KlineWorld.step, hlf]
    cases hl : w₁.series.loaded <;> rfl
  unfold KlineWorld.flushKey at hok ⊢
  simp only [hw₁] at hok ⊢
  cases hl : w₁.series.loaded with
  | false =>
    rw [hp, hl, if_neg Bool.false_ne_true] at hok
    simp only [hlf, hl] at hok
    cases hok
  | true =>
    rw [hp, hl, if_pos rfl] at hok ⊢
    cases hb : w₁.series.prepareFlush with
    -- there is nothing to write:
    | none =>
      simp only [Option.map_none]
      refine ⟨hl, ?_⟩
      unfold BufferedSeries.prepareFlush at hb
      split at hb
      · rename_i hd
        simpa using hd
      · cases hb
    -- the batch is written, and acknowledged:
    | some batch =>
      simp only [hb, Option.map_some, KlineWorld.step] at hok ⊢
      obtain ⟨d, hd⟩ := writeBatch_written hok
      simp only [hd]
      exact ⟨(acknowledge_loaded _ _).trans hl, hload.series.acknowledge_clean hb⟩

/-- What a new store loads after an append, whatever became of it: everything it loaded
before, except where a bar of the batch took the place of an older one. -/
theorem append_keeps (h : KlineOk C key w) {batch : FlushBatch} (hf : w.flight = some ⟨batch, false⟩) (hc : batch.compact = false)
    {faults restore : List Fault} (hcalm : Calm C key w (.write faults restore)) :
    ∃ f f', KlineWorld.fresh C key w.dir = some f ∧
      KlineWorld.fresh C key (w.step C key (.write faults restore)).dir = some f' ∧
      ∀ (t : ℤ) (bar : Kline), f[t]? = some bar →
        f'[t]? = some bar ∨ ∃ e ∈ batch.entries, e.kline.openTime = t ∧ f'[t]? = some e.kline := by
  obtain ⟨b, p, hfl, hstage⟩ := h.flight _ hf
  obtain ⟨m, hm⟩ := hstage hc
  have hcalm := hcalm _ hf rfl
  rw [hc, if_neg Bool.false_ne_true] at hcalm
  have hwp : wp (appendBatch C batch) _ _ _ w.dir := wp_appendBatch batch
  have hspec := hwp faults
  -- the directory holds the lines up to some byte
  have hdir : ∃ k, OnlyFile .main (contents w.dir .main ++ (C.text (batch.entries.map (·.kline))).take k) w.dir
      (w.step C key (.write faults restore)).dir ∧
      (C.text (batch.entries.map (·.kline)) = (C.text (batch.entries.map (·.kline))).take k ∨
        ∀ e ∈ batch.entries, Plain C e.kline) := by
    simp only [KlineWorld.step, hf, KlineWorld.writeBatch, hc, if_neg Bool.false_ne_true]
    have hfaulty : ∀ {x : Outcome KlineDir IoErr Unit}, appendBatch C batch w.dir faults = x → (∀ d fs, x ≠ .ok () d fs) →
        ∀ e ∈ batch.entries, Plain C e.kline := by
      intro x hx hne
      refine hcalm.2.resolve_left fun hnil => ?_
      subst hnil
      obtain ⟨d', hd'⟩ : ∃ d', appendBatch C batch w.dir [] = .ok () d' [] := appendBatch_run batch
      exact hne _ _ (hx.symm.trans hd')
    cases hrun : appendBatch C batch w.dir faults with
    | ok u d rest =>
      rw [hrun] at hspec
      refine ⟨(C.text (batch.entries.map (·.kline))).length, ?_, .inl List.take_length.symm⟩
      rw [List.take_length]
      exact hspec
    | err e d rest =>
      rw [hrun] at hspec
      obtain ⟨k, hk⟩ := hspec
      exact ⟨k, hk, .inr (hfaulty hrun (by rintro _ _ ⟨⟩))⟩
    | crashed d =>
      rw [hrun] at hspec
      obtain ⟨k, hk⟩ := hspec
      exact ⟨k, hk, .inr (hfaulty hrun (by rintro _ _ ⟨⟩))⟩
  obtain ⟨k, hk, hv⟩ := hdir
  obtain ⟨bs, cs, hes, -, hfresh, hget, -⟩ := append_shows hfl hm hcalm.1 hk hv
  refine ⟨_, _, hm.fresh, hfresh, fun t bar ht => ?_⟩
  rw [hget]
  cases hl : lastOf bs t with
  | none => exact .inl (by rw [Option.none_or]; exact ht)
  | some bar' =>
    obtain ⟨hmem, hopen⟩ := mem_of_lastOf hl
    obtain ⟨e, he, rfl⟩ := List.mem_map.1 (hes ▸ List.mem_append_left cs hmem)
    exact .inr ⟨e, he, hopen, rfl⟩

/-- **A flush that returned `Ok` is on disk.** Whatever failed or crashed before it, a
new store loads the series; and an append that fails later, or is cut off by a crash,
removes none of the bars a new store loads. -/
theorem flush_durable (C : LineCodec Kline) (key : ChartWorkspaceKey) (dir : KlineDir) (as : List KlineAct)
    (h : Along (KlineWorld.step C key) (Calm C key) (.open dir) as) :
    (∀ faults restore, (run (KlineWorld.step C key) (.open dir) as).flight = none →
      Along (KlineWorld.step C key) (Calm C key) (run (KlineWorld.step C key) (.open dir) as)
        [.load, .prepare, .write faults restore, .acknowledge] →
      ((run (KlineWorld.step C key) (.open dir) as).flushKey C key faults restore).2 = true →
      KlineWorld.fresh C key ((run (KlineWorld.step C key) (.open dir) as).flushKey C key faults restore).1.dir =
        some ((run (KlineWorld.step C key) (.open dir) as).flushKey C key faults restore).1.series.bars) ∧
    ∀ batch faults restore, (run (KlineWorld.step C key) (.open dir) as).flight = some ⟨batch, false⟩ → batch.compact = false →
      Calm C key (run (KlineWorld.step C key) (.open dir) as) (.write faults restore) →
      ∃ f f', KlineWorld.fresh C key (run (KlineWorld.step C key) (.open dir) as).dir = some f ∧
        KlineWorld.fresh C key ((run (KlineWorld.step C key) (.open dir) as).step C key (.write faults restore)).dir = some f' ∧
        ∀ (t : ℤ) (bar : Kline), f[t]? = some bar →
          f'[t]? = some bar ∨ ∃ e ∈ batch.entries, e.kline.openTime = t ∧ f'[t]? = some e.kline := by
  have hinv := klineOk_run dir as h
  refine ⟨fun faults restore hf hcalm hok => ?_, fun batch faults restore hf hc hcalm => append_keeps hinv hf hc hcalm⟩
  obtain ⟨hend, hl, hd⟩ := flushKey_ok hinv hf hcalm hok
  exact hend.clean hl hd

/-! ## A line without an end -/

section Torn

/-- The state after a bar that is new to the series, with room for it. -/
def BufferedSeries.withBar (s : BufferedSeries) (bar : Kline) : BufferedSeries :=
  { s with
    revision := s.nextRevision
    bars := s.bars.insert bar.openTime bar
    pending := s.pending.insert bar.openTime ⟨bar, s.nextRevision⟩ }

theorem upsertBars_one {bar : Kline} (hk : key.accepts bar = true) (hnew : s.bars[bar.openTime]? ≠ some bar)
    (hroom : s.bars.size + 1 ≤ maxStoredBars) :
    s.upsertBars key [bar] = .ok (s.withBar bar, ⟨s.nextRevision, true⟩) := by
  simp only [ChartWorkspaceKey.accepts, Bool.and_eq_true, decide_eq_true_eq] at hk
  obtain ⟨⟨ht, hsym⟩, hint⟩ := hk
  have hsize : (s.bars.insert bar.openTime bar).size ≤ s.bars.size + 1 := Std.ExtTreeMap.size_insert_le
  have hfold : BufferedSeries.upsertBar (s, false) bar = (s.withBar bar, true) := by
    unfold BufferedSeries.upsertBar
    rw [if_neg (by push Not; exact ⟨ht, hnew⟩)]
    rfl
  have hcrop : (s.withBar bar).cropSeries = s.withBar bar := by
    exact if_neg (not_lt.2 (hsize.trans hroom))
  unfold BufferedSeries.upsertBars
  rw [if_neg (by simp [hsym, hint])]
  simp only [List.foldl_cons, List.foldl_nil, hfold, hcrop]
  rfl

variable {x : Bytes} {bar : Kline} {n : ℕ}

/-- A store that has loaded nothing from `n` records, and the bar that comes then. -/
def soleSeries (n : ℕ) (bar : Kline) : BufferedSeries :=
  ⟨true, (∅ : Bars).insert bar.openTime bar, (∅ : OrdMap ℤ PendingEntry).insert bar.openTime ⟨bar, 1⟩, 1, n, none⟩

def soleBatch (bar : Kline) : FlushBatch := ⟨[⟨bar, 1⟩], [bar], 1, false⟩

theorem upserted_sole (h : loadFromDisk C key dir [] = .ok ⟨∅, n, false⟩ dir []) (hn : n ≤ compactPhysicalRecords)
    (hk : key.accepts bar = true) :
    run (KlineWorld.step C key) (.open dir) [.load, .upsert [bar]] = ⟨dir, soleSeries n bar, none⟩ := by
  have hload : (KlineWorld.open dir).step C key .load = ⟨dir, ⟨true, ∅, ∅, 0, n, none⟩, none⟩ := by
    simp only [KlineWorld.step, KlineWorld.ensureLoaded, KlineWorld.open, BufferedSeries.default, h]
    rw [if_neg Bool.false_ne_true, if_neg]
    rintro (hf | hf)
    · cases hf
    · exact absurd hn (not_le.2 hf)
  have hup := upsertBars_one (s := ⟨true, ∅, ∅, 0, n, none⟩) hk (by simp) (by unfold maxStoredBars; simp)
  simp only [run_cons, run_nil, hload]
  simp only [KlineWorld.step, hup]
  rfl

theorem mapValues_single {β : Type} (t : ℤ) (v : β) : mapValues ((∅ : OrdMap ℤ β).insert t v) = [v] := by
  have hlen : (mapValues ((∅ : OrdMap ℤ β).insert t v)).length = 1 := by
    rw [length_mapValues, Std.ExtTreeMap.size_insert]
    simp
  obtain ⟨a, ha⟩ := List.length_eq_one_iff.1 hlen
  have hmem : v ∈ mapValues ((∅ : OrdMap ℤ β).insert t v) := mem_mapValues.2 ⟨t, by rw [get_insert, if_pos rfl]⟩
  rw [ha] at hmem ⊢
  rw [List.mem_singleton.1 hmem]

theorem prepareFlush_sole (hn : n + 1 ≤ compactPhysicalRecords) : (soleSeries n bar).prepareFlush = some (soleBatch bar) := by
  have hdirty : (soleSeries n bar).dirty = true := by
    unfold BufferedSeries.dirty soleSeries
    simp [Std.ExtTreeMap.size_insert]
  unfold BufferedSeries.prepareFlush
  rw [hdirty]
  simp only [soleSeries, mapValues_single, List.length_singleton]
  rw [decide_eq_false (not_lt.2 hn)]
  rfl

/-- A main file that is one line without an end, and no record. -/
structure TornMain (C : LineCodec Kline) (x : Bytes) (dir : KlineDir) : Prop where
  main : contents dir .main = x
  filled : x ≠ []
  line : newline ∉ x
  corrupt : C.decode x = .corrupt

theorem TornMain.loaded (h : TornMain C x dir) : loadFromDisk C key dir [] = .ok ⟨∅, 1, false⟩ dir [] := by
  rw [loadFromDisk_main (h.main ▸ h.filled), h.main, lines_torn h.line, if_neg h.filled]
  simp only [parseMain, h.corrupt]
  exact congrArg (fun b => Outcome.ok (LoadedSeries.mk b 1 false) dir []) (crop_of_size_le (Nat.zero_le _))

/-- A flush of the bar appends its line. -/
theorem flushKey_sole (dir : KlineDir) (hn : n + 1 ≤ compactPhysicalRecords) :
    ∃ d, KlineWorld.flushKey C key ⟨dir, soleSeries n bar, none⟩ [] [] =
        (⟨d, (soleSeries n bar).acknowledgeFlush (soleBatch bar), none⟩, true) ∧
      contents d .main = contents dir .main ++ C.encode bar ++ newline :: [] := by
  have hprep : (soleSeries n bar).prepareFlush = some (soleBatch bar) := prepareFlush_sole hn
  have hwp : wp (appendBatch C (soleBatch bar)) _ _ _ dir := wp_appendBatch _
  obtain ⟨d, hd⟩ : ∃ d, appendBatch C (soleBatch bar) dir [] = .ok () d [] := appendBatch_run _
  have hspec := hwp []
  rw [hd] at hspec
  refine ⟨d, ?_, ?_⟩
  · unfold KlineWorld.flushKey
    simp only [KlineWorld.step, KlineWorld.ensureLoaded]
    rw [if_pos (show (soleSeries n bar).loaded = true from rfl)]
    simp only [show (soleSeries n bar).loaded = true from rfl, hprep, Option.map_some, KlineWorld.writeBatch,
      show (soleBatch bar).compact = false from rfl, if_neg Bool.false_ne_true, hd]
    rfl
  · rw [hspec .main, if_pos rfl]
    simp [soleBatch]

/-- **A bar appended to a line without an end is lost**, and the flush returns `Ok`. -/
theorem TornMain.loses (h : TornMain C x dir) (hc : C.decode (x ++ C.encode bar) = .corrupt) :
    ∃ d, KlineWorld.flushKey C key ⟨dir, soleSeries 1 bar, none⟩ [] [] =
        (⟨d, (soleSeries 1 bar).acknowledgeFlush (soleBatch bar), none⟩, true) ∧
      KlineWorld.fresh C key d = some ∅ := by
  have hsmall : 1 + 1 ≤ compactPhysicalRecords := by unfold compactPhysicalRecords; omega
  obtain ⟨d, hd, hmain⟩ : ∃ d, KlineWorld.flushKey C key ⟨dir, soleSeries 1 bar, none⟩ [] [] = _ ∧
      contents d .main = contents dir .main ++ C.encode bar ++ newline :: [] := flushKey_sole dir hsmall
  rw [h.main] at hmain
  have hnl : newline ∉ x ++ C.encode bar := by
    simp only [List.mem_append, not_or]
    exact ⟨h.line, C.newline_encode bar⟩
  refine ⟨d, hd, ?_⟩
  rw [fresh_main (by rw [hmain]; simp), mainBars, hmain, lines_line hnl, lines_nil]
  simp only [parseMain, hc, Except.toOption, Option.map_some]
  exact congrArg some (crop_of_size_le (Nat.zero_le _))

deriving instance Countable for Kline

noncomputable instance : Encodable Kline := Encodable.ofCountable Kline

def btcKey : ChartWorkspaceKey := ⟨"BTCUSDT", "1"⟩

def btcBar (t : ℤ) : Kline := ⟨"BTCUSDT", "1", t, "1", "1", "1", "1", "1"⟩

/-- The second bar, closed at another price. -/
def closedBar : Kline := { btcBar 2 with close := "2" }

/-- The line of a bar. -/
def barLine (bar : Kline) : Bytes :=
  ("\x7b\"symbol\":\"" ++ bar.symbol ++ "\",\"interval\":\"" ++ bar.interval ++ "\",\"openTime\":" ++ toString bar.openTime ++
    ",\"open\":\"" ++ bar.open ++ "\",\"high\":\"" ++ bar.high ++ "\",\"low\":\"" ++ bar.low ++ "\",\"close\":\"" ++ bar.close ++
    "\",\"volume\":\"" ++ bar.volume ++ "\"\x7d").toUTF8.data.toList

def barLines : List (Kline × Bytes) := [btcBar 1, btcBar 2, closedBar].map fun bar => (bar, barLine bar)

noncomputable def klineCodec : LineCodec Kline := .ofTable barLines ⟨by decide +kernel, by decide +kernel⟩ (by decide +kernel)

def emptyDir : KlineDir := ⟨∅, []⟩

theorem emptyDir_loaded : loadFromDisk C key emptyDir [] = .ok ⟨∅, 0, false⟩ emptyDir [] := by
  rw [loadFromDisk_fallback rfl]
  rfl

theorem load_empty : (KlineWorld.open emptyDir).step C key .load = ⟨emptyDir, ⟨true, ∅, ∅, 0, 0, none⟩, none⟩ := by
  simp only [KlineWorld.step, KlineWorld.ensureLoaded, KlineWorld.open, BufferedSeries.default, emptyDir_loaded]
  rw [if_neg Bool.false_ne_true, if_neg]
  rintro (hf | hf)
  · cases hf
  · exact absurd hf (Nat.not_lt_zero _)

/-- The first bar of a new store. -/
theorem upserted_empty (hk : key.accepts bar = true) :
    run (KlineWorld.step C key) (.open emptyDir) [.load, .upsert [bar]] = ⟨emptyDir, soleSeries 0 bar, none⟩ :=
  upserted_sole emptyDir_loaded (Nat.zero_le _) hk

/-- A bar of which one byte is written when the process dies. -/
def tornAppend : List KlineAct := [.load, .upsert [btcBar 1], .prepare, .write [.pass, .crash 1] []]

theorem tornAppend_run : run (KlineWorld.step klineCodec btcKey) (.open emptyDir) tornAppend =
    KlineWorld.open ((emptyDir.set .main []).append .main (klineCodec.encode (btcBar 1)) 1) := by
  have hprep : (soleSeries 0 (btcBar 1)).prepareFlush = some (soleBatch (btcBar 1)) :=
    prepareFlush_sole (by unfold compactPhysicalRecords; omega)
  rw [show tornAppend = [.load, .upsert [btcBar 1]] ++ [.prepare, .write [.pass, .crash 1] []] from rfl, run_append,
    upserted_empty (by decide)]
  simp only [run_cons, run_nil, KlineWorld.step, show (soleSeries 0 (btcBar 1)).loaded = true from rfl, hprep, Option.map_some,
    KlineWorld.writeBatch, show (soleBatch (btcBar 1)).compact = false from rfl, if_neg Bool.false_ne_true]
  rfl

theorem tornAppend_torn :
    TornMain klineCodec [123] (run (KlineWorld.step klineCodec btcKey) (.open emptyDir) tornAppend).dir := by
  refine ⟨by decide +kernel, by simp, by decide, ?_⟩
  unfold klineCodec
  rw [LineCodec.ofTable_decode (by decide +kernel)]
  refine LineCodec.braced_decode_corrupt (by simp) fun n h => ?_
  have := congrArg List.length h
  simp [brace] at this

theorem tornAppend_joined : klineCodec.decode ([123] ++ klineCodec.encode (btcBar 2)) = .corrupt := by
  have hline : klineCodec.encode (btcBar 2) = barLine (btcBar 2) := by decide +kernel
  rw [hline]
  unfold klineCodec
  rw [LineCodec.ofTable_decode (by decide +kernel)]
  refine LineCodec.braced_decode_corrupt (by simp) fun n h => ?_
  -- the second byte is a brace, which no code has there
  have hsecond := congrArg (·[1]?) h
  have hbrace : (barLine (btcBar 2))[0]? = some 123 := by decide +kernel
  cases n with
  | zero => simp [hbrace, brace] at hsecond
  | succ n => simp [hbrace, brace, List.replicate_succ] at hsecond

/-- The next process on that directory, and a bar that comes then. -/
theorem tornAppend_upserted :
    run (KlineWorld.step klineCodec btcKey) (.open (run (KlineWorld.step klineCodec btcKey) (.open emptyDir) tornAppend).dir)
        [.load, .upsert [btcBar 2]] =
      ⟨(run (KlineWorld.step klineCodec btcKey) (.open emptyDir) tornAppend).dir, soleSeries 1 (btcBar 2), none⟩ :=
  upserted_sole tornAppend_torn.loaded (by unfold compactPhysicalRecords; omega) (by decide)

/-- Its flush returns `Ok`, and nothing waits any more; a new store loads nothing. -/
theorem tornAppend_flushed : ∃ d,
    KlineWorld.flushKey klineCodec btcKey
        ⟨(run (KlineWorld.step klineCodec btcKey) (.open emptyDir) tornAppend).dir, soleSeries 1 (btcBar 2), none⟩ [] [] =
      (⟨d, (soleSeries 1 (btcBar 2)).acknowledgeFlush (soleBatch (btcBar 2)), none⟩, true) ∧
    KlineWorld.fresh klineCodec btcKey d = some ∅ ∧
    ((soleSeries 1 (btcBar 2)).acknowledgeFlush (soleBatch (btcBar 2))).bars[(2 : ℤ)]? = some (btcBar 2) ∧
    ((soleSeries 1 (btcBar 2)).acknowledgeFlush (soleBatch (btcBar 2))).pending[(2 : ℤ)]? = none := by
  obtain ⟨d, hd, hfresh⟩ := tornAppend_torn.loses tornAppend_joined
  refine ⟨d, hd, hfresh, ?_, ?_⟩
  · rw [acknowledge_bars]
    exact (get_insert ..).trans (if_pos rfl)
  · have hp : (soleSeries 1 (btcBar 2)).pending[(2 : ℤ)]? = some ⟨btcBar 2, 1⟩ := (get_insert ..).trans (if_pos rfl)
    rw [acknowledge_pending, hp]
    rfl

/-- A crash in an append leaves a directory on which a store, with no further fault,
holds a bar that is neither pending nor loaded by a new store. -/
theorem torn_append_loses_update :
    (∀ a ∈ ([.load, .upsert [btcBar 2], .load, .prepare, .write [] [], .acknowledge] : List KlineAct), Faultless a) ∧
      ¬ BufferKept klineCodec btcKey (run (KlineWorld.step klineCodec btcKey)
        (.open (run (KlineWorld.step klineCodec btcKey) (.open emptyDir) tornAppend).dir)
        [.load, .upsert [btcBar 2], .load, .prepare, .write [] [], .acknowledge]) := by
  refine ⟨by simp [Faultless], fun h => ?_⟩
  obtain ⟨d, hd, hfresh, hbar, hpend⟩ := tornAppend_flushed
  rw [show ([.load, .upsert [btcBar 2], .load, .prepare, .write [] [], .acknowledge] : List KlineAct) =
    [.load, .upsert [btcBar 2]] ++ [.load, .prepare, .write [] [], .acknowledge] from rfl, run_append, tornAppend_upserted,
    ← flushKey_fst, hd] at h
  rcases h.buffered 2 _ hbar with ⟨e, he, -⟩ | ⟨f, hf, hin⟩
  · rw [hpend] at he; cases he
  · obtain rfl := Option.some.inj (hfresh.symm.trans hf)
    simp at hin

/-- A flush that returns `Ok`, after a crash in an append and a restart, whose series a
new store does not load. -/
theorem torn_append_not_durable :
    let w := run (KlineWorld.step klineCodec btcKey) (.open emptyDir) (tornAppend ++ [.load, .upsert [btcBar 2]])
    w.flight = none ∧ (w.flushKey klineCodec btcKey [] []).2 = true ∧
      KlineWorld.fresh klineCodec btcKey (w.flushKey klineCodec btcKey [] []).1.dir ≠
        some (w.flushKey klineCodec btcKey [] []).1.series.bars := by
  have hopen : run (KlineWorld.step klineCodec btcKey) (.open emptyDir) tornAppend =
      .open (run (KlineWorld.step klineCodec btcKey) (.open emptyDir) tornAppend).dir := by
    rw [tornAppend_run]
    rfl
  have hw : run (KlineWorld.step klineCodec btcKey) (.open emptyDir) (tornAppend ++ [.load, .upsert [btcBar 2]]) =
      ⟨(run (KlineWorld.step klineCodec btcKey) (.open emptyDir) tornAppend).dir, soleSeries 1 (btcBar 2), none⟩ := by
    rw [run_append, hopen]
    exact tornAppend_upserted
  obtain ⟨d, hd, hfresh, hbar, -⟩ := tornAppend_flushed
  intro w
  simp only [w, hw, hd, hfresh, ne_eq, true_and, Option.some.injEq]
  intro h
  rw [← h] at hbar
  simp at hbar

/-! ### Runs that go well -/

/-- What a step with these bars must not run into: their lines can be cut anywhere. -/
def quiet (w : KlineWorld) : KlineAct → Bool
  | .upsert bars => w.series.revision + bars.length < 2 ^ 64
  | .write _ _ => w.flight.all fun f =>
      f.written || (if f.batch.compact then f.batch.snapshot ≠ [] else Terminated (contents w.dir .main))
  | _ => true

theorem calm_of_quiet {a : KlineAct} (h : quiet w a = true) : Calm klineCodec key w a := by
  cases a with
  | upsert bars =>
    have hroom : w.series.revision + bars.length < 2 ^ 64 := of_decide_eq_true h
    exact hroom
  | write faults restore =>
    intro f hf hw
    simp only [quiet, hf, Option.all_some, hw, Bool.false_or] at h
    split at h
    · rename_i hc
      rw [if_pos hc]
      exact fun hnil => absurd hnil (of_decide_eq_true h)
    · rename_i hc
      rw [if_neg hc]
      exact ⟨of_decide_eq_true h, .inr fun e _ k => LineCodec.ofTable_ne_invalid _⟩
  | _ => trivial

/-- The second bar comes while the first one is written. -/
def upsertInFlush : List KlineAct := [.load, .upsert [btcBar 1], .prepare, .upsert [btcBar 2], .write [] [], .acknowledge]

/-- The first bar is on disk and the second one waits, until another value takes its place. -/
theorem buffer_keeps_in_flush :
    let w := run (KlineWorld.step klineCodec btcKey) (.open emptyDir) upsertInFlush
    w.series.bars.toList = [(1, btcBar 1), (2, btcBar 2)] ∧ w.series.pending.toList = [(2, ⟨btcBar 2, 2⟩)] ∧
      BufferKept klineCodec btcKey w ∧
      PendingKept klineCodec btcKey w (w.step klineCodec btcKey (.upsert [closedBar])) := by
  have halong : Along (KlineWorld.step klineCodec btcKey) (fun w a => Faultless a ∧ quiet w a = true) (.open emptyDir) upsertInFlush := by
    decide +kernel
  obtain ⟨hkept, hpending⟩ := buffer_keeps klineCodec btcKey emptyDir upsertInFlush
    (along_imp (fun _ _ h => ⟨h.1, calm_of_quiet h.2⟩) halong)
  exact ⟨by decide +kernel, by decide +kernel, hkept, hpending _ trivial (calm_of_quiet (by decide +kernel))⟩

/-- A flush of two bars that fails after the first line, and another value of the second bar. -/
def failedFlush : List KlineAct :=
  [.load, .upsert [btcBar 1, btcBar 2], .prepare, .write [.pass, .pass, .pass, .fail 0] [], .upsert [closedBar]]

/-- The next flush stores both bars; and one that dies in its first line leaves the bar of the first. -/
theorem flush_durable_after_failure :
    let w := run (KlineWorld.step klineCodec btcKey) (.open emptyDir) failedFlush
    let flushed := w.flushKey klineCodec btcKey [] []
    let copied := run (KlineWorld.step klineCodec btcKey) (.open emptyDir) (failedFlush ++ [.prepare])
    (flushed.2 = true ∧ flushed.1.series.bars.toList = [(1, btcBar 1), (2, closedBar)] ∧
      KlineWorld.fresh klineCodec btcKey flushed.1.dir = some flushed.1.series.bars) ∧
    ∃ f f', KlineWorld.fresh klineCodec btcKey copied.dir = some f ∧ f.toList = [(1, btcBar 1)] ∧
      KlineWorld.fresh klineCodec btcKey (copied.step klineCodec btcKey (.write [.pass, .crash 9] [])).dir = some f' ∧
      f'[(1 : ℤ)]? = some (btcBar 1) := by
  intro w flushed copied
  have halong : ∀ as, Along (KlineWorld.step klineCodec btcKey) (fun w a => quiet w a = true) (.open emptyDir) as →
      Along (KlineWorld.step klineCodec btcKey) (Calm klineCodec btcKey) (.open emptyDir) as :=
    fun as => along_imp fun _ _ => calm_of_quiet
  have hok : flushed.2 = true := by decide +kernel
  have hidle : w.flight = none := Option.isNone_iff_eq_none.1 (by decide +kernel)
  refine ⟨⟨hok, by decide +kernel, (flush_durable klineCodec btcKey emptyDir failedFlush (halong _ (by decide +kernel))).1 [] []
    hidle ?_ hok⟩, ?_⟩
  · exact along_imp (fun _ _ => calm_of_quiet) (by decide +kernel)
  · have hflight : copied.flight =
        some ⟨⟨[⟨btcBar 1, 1⟩, ⟨closedBar, 3⟩], [btcBar 1, closedBar], 3, false⟩, false⟩ := by decide +kernel
    obtain ⟨f, f', hf, hf', hkeeps⟩ := (flush_durable klineCodec btcKey emptyDir (failedFlush ++ [.prepare])
      (halong _ (by decide +kernel))).2 _ [.pass, .crash 9] [] hflight rfl (calm_of_quiet (by decide +kernel))
    have hbars : f.toList = [(1, btcBar 1)] := by
      have hshown : (KlineWorld.fresh klineCodec btcKey copied.dir).map (·.toList) = some [(1, btcBar 1)] := by decide +kernel
      rw [show KlineWorld.fresh klineCodec btcKey copied.dir = some f from hf] at hshown
      exact Option.some.inj hshown
    refine ⟨f, f', hf, hbars, hf', ?_⟩
    have hone : f[(1 : ℤ)]? = some (btcBar 1) := Std.ExtTreeMap.mem_toList_iff_getElem?_eq_some.1 (hbars ▸ List.mem_singleton_self _)
    rcases hkeeps 1 _ hone with h | ⟨e, he, hopen, h⟩
    · exact h
    · -- the batch has the first bar, and the other one is of another time
      rcases List.mem_cons.1 he with rfl | he
      · exact h
      · obtain rfl := List.mem_singleton.1 he
        cases hopen

end Torn

end EasiFlux
