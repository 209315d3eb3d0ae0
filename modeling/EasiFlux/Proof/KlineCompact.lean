import EasiFlux.Proof.KlineBuffer

/-!
# Crashes in a compaction

A flush that returned `Ok` owes its bars: they are loaded by every new store until an
upsert replaces them or they are cropped. `OwingWorld` carries what is owed beside the
store, and `compaction_owes` says that it is loaded in every state of a run, crashes and
failures in compactions included, if the steps are `Calm` and `Whole`.

`Whole` keeps out the two windows of `compact_batch`: one that begins with the main file
out of the way truncates the `.tmp` it may have been loaded from, and a part of the new
one that ends on a line wins over the `.bak`; and the copy that brings the main file back
may stop half way.
-/

namespace EasiFlux

open CrashIo Newest Steps

variable {C : LineCodec Kline} {key : ChartWorkspaceKey} {w : KlineWorld} {owed : ℤ → Option Kline}

/-! ## What is owed -/

/-- A flush has returned `Ok`: what a new store loads as it is in memory is owed. -/
def settled (loadable : Option Bars) (bars : Bars) (owed : ℤ → Option Kline) (t : ℤ) : Option Kline :=
  if bars[t]?.isSome ∧ loadable.bind (·[t]?) = bars[t]? then bars[t]? else owed t

/-- What is owed after a step. An upsert takes back what it replaces or crops. -/
def owing (C : LineCodec Kline) (key : ChartWorkspaceKey) (w : KlineWorld) (owed : ℤ → Option Kline) : KlineAct → ℤ → Option Kline
  | .acknowledge =>
    match w.flight with
    | some ⟨_, true⟩ => settled (KlineWorld.fresh C key w.dir) w.series.bars owed
    | _ => owed
  | .prepare =>
    if w.series.loaded ∧ w.flight.isNone ∧ w.series.dirty = false then
      settled (KlineWorld.fresh C key w.dir) w.series.bars owed
    else owed
  | .upsert bars => fun t =>
    if w.series.bars[t]? = owed t ∧ (w.step C key (.upsert bars)).series.bars[t]? ≠ owed t then none else owed t
  | _ => owed

structure OwingWorld where
  world : KlineWorld
  owed : ℤ → Option Kline

def OwingWorld.step (C : LineCodec Kline) (key : ChartWorkspaceKey) (o : OwingWorld) (a : KlineAct) : OwingWorld :=
  ⟨o.world.step C key a, owing C key o.world o.owed a⟩

def OwingWorld.open (dir : KlineDir) : OwingWorld := ⟨.open dir, fun _ => none⟩

/-- Everything owed is loaded by a new store. -/
def Loadable (C : LineCodec Kline) (key : ChartWorkspaceKey) (dir : KlineDir) (owed : ℤ → Option Kline) : Prop :=
  ∀ t bar, owed t = some bar → ∃ f, KlineWorld.fresh C key dir = some f ∧ f[t]? = some bar

/-- A compaction that begins without a main file but with something to lose meets no
fault, and the copy that undoes a promotion meets none either. -/
def Whole (C : LineCodec Kline) (key : ChartWorkspaceKey) (w : KlineWorld) : KlineAct → Prop
  | .write faults restore => ∀ f, w.flight = some f → f.written = false → f.batch.compact = true →
      restore = [] ∧ (contents w.dir .main = [] → KlineWorld.fresh C key w.dir ≠ some ∅ → faults = [])
  | _ => True

/-- What is owed is in memory, in the copy of a flush under way, and loaded by a new
store. -/
structure Owes (C : LineCodec Kline) (key : ChartWorkspaceKey) (w : KlineWorld) (owed : ℤ → Option Kline) : Prop where
  ok : KlineOk C key w
  loadable : Loadable C key w.dir owed
  held : w.series.loaded = true → ∀ t bar, owed t = some bar → w.series.bars[t]? = some bar
  copied : ∀ f, w.flight = some f → ∀ t bar, owed t = some bar → bar.openTime = t ∧ bar ∈ f.batch.snapshot

theorem loadable_settled {bars : Bars} {dir : KlineDir} (h : Loadable C key dir owed) :
    Loadable C key dir (settled (KlineWorld.fresh C key dir) bars owed) := by
  intro t bar ht
  unfold settled at ht
  split at ht
  · rename_i hs
    have hf := hs.2.trans ht
    obtain ⟨f, hf, hb⟩ := Option.bind_eq_some_iff.1 hf
    exact ⟨f, hf, hb⟩
  · exact h t bar ht

theorem held_settled {loadable : Option Bars} {bars : Bars} (h : ∀ t bar, owed t = some bar → bars[t]? = some bar) :
    ∀ t bar, settled loadable bars owed t = some bar → bars[t]? = some bar := by
  intro t bar ht
  unfold settled at ht
  split at ht
  · exact ht
  · exact h t bar ht

/-! ## The steps -/

/-- A copy of the series, and what is owed of it. -/
theorem FlightOk.snapshot_get {s : BufferedSeries} {batch : FlushBatch} {b : Bars} {p : OrdMap ℤ PendingEntry}
    (hf : FlightOk key s batch b p) {t : ℤ} {bar : Kline} (ht : bar.openTime = t) (hm : bar ∈ batch.snapshot) :
    b[t]? = some bar := by
  rw [hf.snapshot] at hm
  obtain ⟨t', ht'⟩ := mem_mapValues.1 hm
  obtain rfl : t' = t := (hf.filed t' bar ht').1.symm.trans ht
  exact ht'

/-- Whatever becomes of a compaction, what is owed is loaded. -/
theorem Owes.compact (h : Owes C key w owed) {batch : FlushBatch} (hf : w.flight = some ⟨batch, false⟩) (hc : batch.compact = true)
    {faults restore : List Fault} (hcalm : Calm C key w (.write faults restore)) (hw : Whole C key w (.write faults restore)) :
    Loadable C key (w.writeBatch C key batch faults restore).dir owed := by
  obtain ⟨b, p, hfl, -⟩ := h.ok.flight _ hf
  obtain ⟨hrestore, hfaults⟩ := hw _ hf rfl hc
  have hcalm := hcalm _ hf rfl
  rw [hc, if_pos rfl] at hcalm
  have hget : ∀ t bar, owed t = some bar → b[t]? = some bar := by
    intro t bar ht
    obtain ⟨hopen, hmem⟩ := h.copied _ hf t bar ht
    exact hfl.snapshot_get hopen hmem
  have hstored : ∀ d, Compacted C key batch w.dir d → Loadable C key d owed := by
    intro d hd t bar ht
    obtain ⟨m, -, -, hfresh⟩ := compact_stores hfl hd hcalm
    exact ⟨b, hfresh, hget t bar ht⟩
  -- where it can stop, unless it meets no fault
  have hhalted : ∀ d, Halted C key batch restore w.dir d → (faults = [] → False) → Loadable C key d owed := by
    intro d hd hfault
    cases hd with
    | kept hm =>
      by_cases hnil : contents w.dir .main = []
      · intro t bar ht
        obtain ⟨f, hfresh, hbar⟩ := h.loadable t bar ht
        refine absurd (hfaults hnil fun he => ?_) hfault
        obtain rfl := Option.some.inj (hfresh.symm.trans he)
        simp at hbar
      · intro t bar ht
        rw [fresh_congr hm hnil]
        exact h.loadable t bar ht
    | moved hm htmp =>
      intro t bar ht
      have hb := hget t bar ht
      have hne : b.size ≠ 0 := fun h0 => by
        rw [Std.ExtTreeMap.eq_empty_iff_size_eq_zero.2 h0] at hb
        simp at hb
      refine ⟨b, ?_, hb⟩
      rw [fresh_tmp hm (fallbackOf_text hfl.filed hne (hfl.snapshot ▸ htmp))]
      exact congrArg some (crop_of_size_le hfl.size)
    | torn k _ hfaulty => exact absurd hrestore hfaulty
    | done hd => exact hstored d hd
  have hwp : wp (compactBatch C key batch restore) _ _ _ w.dir := wp_compactBatch batch restore
  have hspec := hwp faults
  have hfault : (∀ d fs, compactBatch C key batch restore w.dir faults ≠ .ok () d fs) → ∀ t bar, owed t = some bar → faults ≠ [] := by
    intro hne t bar ht hnil
    obtain ⟨f, hfresh, -⟩ := h.loadable t bar ht
    obtain ⟨x, hx⟩ := fallbackOf_main_ok hfresh
    obtain ⟨d, hd⟩ := compactBatch_run batch restore hx
    rw [hnil] at hne
    exact hne _ _ hd
  unfold KlineWorld.writeBatch
  rw [hc, if_pos rfl]
  cases hrun : compactBatch C key batch restore w.dir faults with
  | ok u d rest =>
    rw [hrun] at hspec
    exact hstored d hspec
  | err e d rest =>
    rw [hrun] at hspec
    intro t bar ht
    exact hhalted d hspec (fun hnil => hfault (by rw [hrun]; exact fun _ _ h => nomatch h) t bar ht hnil) t bar ht
  | crashed d =>
    rw [hrun] at hspec
    intro t bar ht
    exact hhalted d hspec (fun hnil => hfault (by rw [hrun]; exact fun _ _ h => nomatch h) t bar ht hnil) t bar ht

/-- Whatever becomes of an append, what is owed is loaded. -/
theorem Owes.append (h : Owes C key w owed) {batch : FlushBatch} (hf : w.flight = some ⟨batch, false⟩) (hc : batch.compact = false)
    {faults restore : List Fault} (hcalm : Calm C key w (.write faults restore)) :
    Loadable C key (w.step C key (.write faults restore)).dir owed := by
  obtain ⟨b, p, hfl, -⟩ := h.ok.flight _ hf
  obtain ⟨f, f', hfresh, hfresh', hkeep⟩ := append_keeps h.ok hf hc hcalm
  intro t bar ht
  refine ⟨f', hfresh', ?_⟩
  obtain ⟨f₀, hf₀, hbar⟩ := h.loadable t bar ht
  obtain rfl := Option.some.inj (hfresh.symm.trans hf₀)
  rcases hkeep t bar hbar with hsame | ⟨e, he, hopen, hnew⟩
  · exact hsame
  · -- the batch was copied with the series, so its bar is the owed one
    obtain ⟨hot, hmem⟩ := h.copied _ hf t bar ht
    obtain ⟨-, -, -, hb⟩ := hfl.entry (List.mem_map_of_mem he)
    rw [hopen] at hb
    rw [hnew, ← hb, hfl.snapshot_get hot hmem]

theorem Owes.write (h : Owes C key w owed) {faults restore : List Fault} (hcalm : Calm C key w (.write faults restore))
    (hw : Whole C key w (.write faults restore)) : Owes C key (w.step C key (.write faults restore)) owed := by
  have hok := h.ok.step hcalm
  cases hf : w.flight with
  | none =>
    simp only [KlineWorld.step, hf]
    exact h
  | some f =>
    obtain ⟨batch, written⟩ := f
    cases written with
    | true =>
      simp only [KlineWorld.step, hf]
      exact h
    | false =>
      have hload : Loadable C key (w.step C key (.write faults restore)).dir owed := by
        cases hc : batch.compact with
        | true =>
          simp only [KlineWorld.step, hf]
          exact h.compact hf hc hcalm hw
        | false => exact h.append hf hc hcalm
      refine ⟨hok, hload, ?_, ?_⟩
      · simp only [KlineWorld.step, hf, KlineWorld.writeBatch]
        split
        · exact h.held
        · exact h.held
        · rintro ⟨⟩
      · simp only [KlineWorld.step, hf, KlineWorld.writeBatch]
        split
        · intro f' hf'
          obtain rfl := Option.some.inj hf'
          exact h.copied ⟨batch, false⟩ hf
        · rintro _ ⟨⟩
        · rintro _ ⟨⟩

/-- A series that has just been loaded holds what is owed. -/
theorem Owes.load (h : Owes C key w owed) : Owes C key (w.ensureLoaded C key) owed := by
  have hok := h.ok.load
  unfold KlineWorld.ensureLoaded at hok ⊢
  split
  · exact h
  · rename_i hl
    rw [if_neg hl] at hok
    split
    · rename_i loaded d rest hload
      rw [hload] at hok
      refine ⟨hok, h.loadable, fun _ t bar ht => ?_, h.copied⟩
      obtain ⟨-, -, hfresh, -⟩ := loadFromDisk_ok hload
      obtain ⟨f, hf, hbar⟩ := h.loadable t bar ht
      obtain rfl := Option.some.inj (hfresh.symm.trans hf)
      exact hbar
    · exact h

/-- **What is owed stays owed in every step.** -/
theorem Owes.step (h : Owes C key w owed) {a : KlineAct} (hcalm : Calm C key w a) (hw : Whole C key w a) :
    Owes C key (w.step C key a) (owing C key w owed a) := by
  have hok := h.ok.step hcalm
  cases a with
  | load => exact h.load
  | upsert bars =>
    have hdir : (w.step C key (.upsert bars)).dir = w.dir ∧ (w.step C key (.upsert bars)).flight = w.flight := by
      simp only [KlineWorld.step]
      split
      · split <;> exact ⟨rfl, rfl⟩
      · exact ⟨rfl, rfl⟩
    -- an upsert only takes back
    have hsub : ∀ t bar, owing C key w owed (.upsert bars) t = some bar → owed t = some bar := by
      intro t bar ht
      simp only [owing] at ht
      split at ht
      · cases ht
      · exact ht
    refine ⟨hok, fun t bar ht => ?_, fun hl t bar ht => ?_, fun f hf t bar ht => ?_⟩
    · rw [hdir.1]
      exact h.loadable t bar (hsub t bar ht)
    · have hl' : w.series.loaded = true := by
        by_contra hn
        simp only [KlineWorld.step, if_neg hn] at hl
        exact hn hl
      have howed := hsub t bar ht
      simp only [owing] at ht
      split at ht
      · cases ht
      · rename_i hkeep
        by_contra hne
        exact hkeep ⟨(h.held hl' t bar howed).trans howed.symm, by rw [howed]; exact hne⟩
    · exact h.copied f (hdir.2.symm.trans hf) t bar (hsub t bar ht)
  | prepare =>
    by_cases hidle : w.series.loaded ∧ w.flight.isNone ∧ w.series.dirty = false
    · have hstep : w.step C key .prepare = w := by
        obtain ⟨hl, hn, hd⟩ := hidle
        rw [Option.isNone_iff_eq_none] at hn
        obtain ⟨dir, series, flight⟩ := w
        simp only at hl hn hd
        subst hn
        simp only [KlineWorld.step, hl, BufferedSeries.prepareFlush, hd]
        rfl
      simp only [owing, if_pos hidle]
      rw [hstep]
      refine ⟨h.ok, loadable_settled h.loadable, fun _ => held_settled (h.held hidle.1), fun f hf => ?_⟩
      rw [Option.isNone_iff_eq_none.1 hidle.2.1] at hf
      cases hf
    · simp only [owing, if_neg hidle]
      refine ⟨hok, ?_, ?_, fun f hf t bar ht => ?_⟩
      · simp only [KlineWorld.step]
        split <;> exact h.loadable
      · simp only [KlineWorld.step]
        split <;> exact h.held
      · simp only [KlineWorld.step] at hf
        split at hf
        · -- the copy is the series, which holds what is owed
          rename_i hl hnone
          obtain ⟨batch, hb, rfl⟩ := Option.map_eq_some_iff.1 hf
          obtain ⟨hfl, -⟩ := flightOk_prepare h.ok.series hb
          have hbar := h.held hl t bar ht
          exact ⟨(h.ok.series.filed t bar hbar).1, hfl.snapshot ▸ mem_mapValues.2 ⟨t, hbar⟩⟩
        · exact h.copied f hf t bar ht
  | write faults restore => exact h.write hcalm hw
  | acknowledge =>
    cases hf : w.flight with
    | none =>
      simp only [KlineWorld.step, owing, hf]
      exact h
    | some f =>
      obtain ⟨batch, written⟩ := f
      simp only [KlineWorld.step, owing, hf] at hok ⊢
      cases written with
      | false => exact h
      | true =>
        refine ⟨hok, loadable_settled h.loadable, fun _ t bar ht => ?_, by rintro _ ⟨⟩⟩
        show (w.series.acknowledgeFlush batch).bars[t]? = some bar
        rw [acknowledge_bars]
        exact held_settled (h.held (h.ok.loaded_of_flight hf)) t bar ht
  | restart => exact ⟨hok, h.loadable, by rintro ⟨⟩, by rintro _ ⟨⟩⟩

/-- **What a flush that returned `Ok` has left is loaded by every later store**, until
it is replaced or cropped, whatever fails in between. -/
theorem compaction_owes (C : LineCodec Kline) (key : ChartWorkspaceKey) (dir : KlineDir) (as : List KlineAct)
    (h : Along (OwingWorld.step C key) (fun o a => Calm C key o.world a ∧ Whole C key o.world a) (.open dir) as) :
    Loadable C key (run (OwingWorld.step C key) (.open dir) as).world.dir (run (OwingWorld.step C key) (.open dir) as).owed := by
  have hinv : Owes C key (run (OwingWorld.step C key) (.open dir) as).world (run (OwingWorld.step C key) (.open dir) as).owed :=
    run_inv_along (I := fun o : OwingWorld => Owes C key o.world o.owed) (fun _ _ ho ha => ho.step ha.1 ha.2) as _
      ⟨klineOk_open dir, (fun _ _ ht => nomatch ht), (fun hl => nomatch hl), (fun _ hf => nomatch hf)⟩ h
  exact hinv.loadable

/-! ## Two crashes in a row -/

section Crashes

/-- The bars of an upsert, before the crop. -/
theorem foldl_bars {bs : List Kline} (hb : ∀ b ∈ bs, 0 < b.openTime) (sc : BufferedSeries × Bool) :
    (bs.foldl BufferedSeries.upsertBar sc).1.bars = written sc.1.bars bs ∧
      (bs.foldl BufferedSeries.upsertBar sc).1.loaded = sc.1.loaded ∧
      (bs.foldl BufferedSeries.upsertBar sc).1.revision ≤ sc.1.revision + bs.length := by
  induction bs generalizing sc with
  | nil => exact ⟨rfl, rfl, le_rfl⟩
  | cons b bs ih =>
    have hload : (BufferedSeries.upsertBar sc b).1.loaded = sc.1.loaded := by
      unfold BufferedSeries.upsertBar
      split <;> rfl
    have hrev : (BufferedSeries.upsertBar sc b).1.revision ≤ sc.1.revision + 1 := by
      unfold BufferedSeries.upsertBar
      split
      · exact Nat.le_succ _
      · exact min_le_left _ _
    have hone : (BufferedSeries.upsertBar sc b).1.bars = sc.1.bars.insert b.openTime b := by
      unfold BufferedSeries.upsertBar
      split
      · rename_i hsame
        have hsame := hsame.resolve_left (not_le.2 (hb b List.mem_cons_self))
        refine Std.ExtTreeMap.ext_getElem? fun t => ?_
        rw [get_insert]
        split
        · rename_i ht
          rw [← ht, hsame]
        · rfl
      · rfl
    obtain ⟨hbars, hloaded, hrevs⟩ := ih (fun b' h => hb b' (List.mem_cons_of_mem _ h)) (BufferedSeries.upsertBar sc b)
    rw [List.foldl_cons, hbars, hloaded, hone, hload, List.length_cons]
    exact ⟨rfl, rfl, by omega⟩

/-- An upsert that makes the series too long. -/
theorem upsertBars_over {s : BufferedSeries} {bs : List Kline} (hk : ∀ b ∈ bs, key.accepts b = true)
    (hbig : maxStoredBars < (written s.bars bs).size) :
    ∃ s' r, s.upsertBars key bs = .ok (s', r) ∧ s'.bars = cropBars (written s.bars bs) ∧ s'.loaded = s.loaded ∧
      s'.compactionRevision.isSome = true ∧ s'.revision ≤ s.revision + bs.length := by
  have hk' : ∀ b ∈ bs, 0 < b.openTime ∧ b.symbol = key.symbol ∧ b.interval = key.interval := by
    intro b hb
    simpa [ChartWorkspaceKey.accepts, and_assoc] using hk b hb
  obtain ⟨hbars, hloaded, hrev⟩ := foldl_bars (fun b hb => (hk' b hb).1) (s, false)
  have hnone : bs.any (fun bar => bar.symbol ≠ key.symbol || bar.interval ≠ key.interval) = false := by
    rw [List.any_eq_false]
    intro b hb
    simp [(hk' b hb).2.1, (hk' b hb).2.2]
  unfold BufferedSeries.upsertBars
  rw [hnone, if_neg Bool.false_ne_true]
  generalize hf : bs.foldl BufferedSeries.upsertBar (s, false) = sc at hbars hloaded hrev
  obtain ⟨s₁, changed⟩ := sc
  simp only at hbars hloaded hrev
  refine ⟨_, _, rfl, ?_, ?_, ?_, ?_⟩
  · unfold BufferedSeries.cropSeries
    rw [if_pos (by rw [hbars]; exact hbig)]
    refine ((evict_iterate _ _).1).trans ?_
    show crop maxStoredBars s₁.bars = _
    rw [hbars]
    rfl
  · unfold BufferedSeries.cropSeries
    rw [if_pos (by rw [hbars]; exact hbig), (evict_iterate _ _).2.2.2.1]
    exact hloaded
  · unfold BufferedSeries.cropSeries
    rw [if_pos (by rw [hbars]; exact hbig)]
    rw [(evict_iterate _ _).2.2.2.2.2]
    rfl
  · unfold BufferedSeries.cropSeries
    rw [if_pos (by rw [hbars]; exact hbig), (evict_iterate _ _).2.2.1]
    exact hrev

/-- A flush of a series that is to be compacted. -/
theorem prepare_compact {dir : KlineDir} {s : BufferedSeries} (hl : s.loaded = true) (hc : s.compactionRevision.isSome = true) :
    (KlineWorld.step C key ⟨dir, s, none⟩ .prepare) =
      ⟨dir, s, some ⟨⟨mapValues s.pending, mapValues s.bars, s.revision, true⟩, false⟩⟩ := by
  have hdirty : s.dirty = true := by
    unfold BufferedSeries.dirty
    rw [hc, Bool.or_true]
  simp only [KlineWorld.step, hl, BufferedSeries.prepareFlush, hdirty, hc, Bool.true_or]
  rfl

theorem reaches_writeBars (name : KlineFile) (bs : List Kline) (dir : KlineDir) :
    ∃ d, Reaches (writeBars C name bs) dir () d := by
  induction bs generalizing dir with
  | nil => exact ⟨dir, reaches_pure⟩
  | cons b bs ih =>
    obtain ⟨d, hd⟩ := ih ((dir.append name (C.encode b) (C.encode b).length).append name [newline] [newline].length)
    exact ⟨d, (reaches_writeAll name _).bind ((reaches_writeAll name _).bind hd)⟩

theorem reaches_present (name : KlineFile) (dir : KlineDir) :
    Reaches (present name) dir (dir.get name).isSome dir := by
  unfold present
  refine (reaches_attempt_stat name).bind ?_
  cases (dir.get name).isSome with
  | true => exact reaches_pure
  | false => exact reaches_pure

/-- The process may die when the main file has just become the backup. -/
theorem compact_dies_moved {dir : KlineDir} {batch : FlushBatch} {p : Bars × ℕ} (hm : contents dir .main ≠ [])
    (hp : fallbackOf C key dir .main = .ok (some p)) :
    ∃ fs d, compactBatch C key batch [] dir fs = .crashed d ∧ contents d .main = [] ∧ contents d .tmp = C.text batch.snapshot := by
  obtain ⟨d, hw⟩ : ∃ d, Reaches (writeBars C .tmp batch.snapshot) (dir.set .tmp []) () d := reaches_writeBars _ _ _
  have hd : OnlyFile .tmp (contents (dir.set .tmp []) .tmp ++ C.text batch.snapshot) (dir.set .tmp []) d :=
    hw.wp (wp_writeBars _ _)
  have hmain : contents d .main = contents dir .main := by
    rw [hd .main, if_neg (by decide), contents_set, if_neg (by decide)]
  have htmp : contents d .tmp = C.text batch.snapshot := by
    rw [hd .tmp, if_pos rfl, contents_set, if_pos rfl, List.nil_append]
  obtain ⟨c, hc⟩ := Option.isSome_iff_exists.1 (present_of_contents (hmain ▸ hm))
  -- the main file is sound
  have hread : Reaches (CrashIo.read KlineFile.main : KlineIo Bytes) d c d := reaches_read hc
  have hcc : contents d .main = c := contents_of_get hc
  have hvalid : Reaches (isFullyParseableFile C key .main) d true d := by
    have hnonempty : Reaches (nonempty KlineFile.main) d true d := by
      unfold nonempty
      have hpres := reaches_present .main d
      rw [hc] at hpres
      refine hpres.bind ?_
      rw [Option.isSome_some, if_pos rfl]
      refine hread.bind ?_
      rw [decide_eq_true (show c ≠ [] by rw [← hcc, hmain]; exact hm)]
      exact reaches_pure
    have hparse : Reaches (parseFallbackFile C key .main) d (some p) d := by
      unfold parseFallbackFile
      refine hnonempty.bind ?_
      rw [if_pos rfl]
      refine hread.bind ⟨[], fun rest => ?_⟩
      rw [← hcc, hmain, show parseFallback C key (lines (contents dir .main)) ∅ 0 = .ok (some p) from hp]
      rfl
    exact hparse.bind reaches_pure
  -- the backup is removed, and the main file takes its name
  have hrename : ∀ d' : KlineDir, d'.get .main = some c → contents d' .tmp = C.text batch.snapshot →
      ∃ d'', (rename .main .bak : KlineIo Unit) d' [.crash 1] = .crashed d'' ∧ contents d'' .main = [] ∧
        contents d'' .tmp = C.text batch.snapshot := by
    intro d' hc' ht'
    refine ⟨d'.move .main .bak c, by simp [rename, atomic, Io.call, hc'], ?_, ?_⟩
    · rw [contents_move _ _ _ _ (by decide)]; rfl
    · rw [contents_move _ _ _ _ (by decide)]; exact ht'
  have hretire : ∃ fs d', retireMain true d fs = .crashed d' ∧ contents d' .main = [] ∧ contents d' .tmp = C.text batch.snapshot := by
    cases hb : (d.get .bak).isSome with
    | false =>
      obtain ⟨d', hd', hm', ht'⟩ := hrename d hc htmp
      have hrun : ∃ fs, retireMain true d fs = .crashed d' := by
        unfold retireMain
        rw [if_pos rfl]
        have hpres := reaches_present .bak d
        rw [hb] at hpres
        exact hpres.crash ⟨_, hd'⟩
      obtain ⟨fs, hfs⟩ := hrun
      exact ⟨fs, d', hfs, hm', ht'⟩
    | true =>
      have hget : (d.unlink .bak).get .main = some c := by rw [Machine.get_unlink_ne _ (by decide)]; exact hc
      have hut : contents (d.unlink .bak) .tmp = C.text batch.snapshot := by
        rw [contents_unlink, if_neg (by decide)]; exact htmp
      obtain ⟨d', hd', hm', ht'⟩ := hrename (d.unlink .bak) hget hut
      have hrun : ∃ fs, retireMain true d fs = .crashed d' := by
        unfold retireMain
        rw [if_pos rfl]
        have hpres := reaches_present .bak d
        rw [hb] at hpres
        refine hpres.crash ?_
        rw [if_pos rfl]
        have hagain := reaches_present .bak d
        rw [hb] at hagain
        refine hagain.crash ?_
        rw [if_pos rfl]
        exact (reaches_remove hb).crash ⟨_, hd'⟩
      obtain ⟨fs, hfs⟩ := hrun
      exact ⟨fs, d', hfs, hm', ht'⟩
  obtain ⟨fs, d', hfs, hm', ht'⟩ := hretire
  have hall : ∃ fs, compactBatch C key batch [] dir fs = .crashed d' := by
    unfold compactBatch
    refine (reaches_openTruncate _).crash (hw.crash (reaches_sync.crash (hvalid.crash ⟨fs, ?_⟩)))
    exact Io.bind_of_crashed hfs
  obtain ⟨fs, hfs⟩ := hall
  exact ⟨fs, d', hfs, hm', ht'⟩

theorem filed_written {bars : Bars} {bs : List Kline} (h : Filed key bars) (hk : ∀ b ∈ bs, key.accepts b = true) :
    Filed key (written bars bs) := by
  intro t bar ht
  rw [get_written] at ht
  cases hl : lastOf bs t with
  | none => rw [hl, Option.none_or] at ht; exact h t bar ht
  | some b =>
    rw [hl, Option.some_or] at ht
    obtain rfl := Option.some.inj ht
    obtain ⟨hmem, hopen⟩ := mem_of_lastOf hl
    exact ⟨hopen, hk b hmem⟩

theorem fresh_text {bars : Bars} {dir : KlineDir} (hf : Filed key bars) (hsize : bars.size ≤ maxStoredBars) (hne : bars.size ≠ 0)
    (h : contents dir .main = C.text (mapValues bars)) :
    contents dir .main ≠ [] ∧ KlineWorld.fresh C key dir = some bars ∧ fallbackOf C key dir .main = .ok (some (bars, bars.size)) := by
  have hmain : contents dir .main ≠ [] := by
    rw [h]
    intro hnil
    have := C.text_eq_nil.1 hnil
    rw [← List.length_eq_zero_iff, length_mapValues] at this
    exact hne this
  refine ⟨hmain, ?_, fallbackOf_text hf hne h⟩
  rw [fresh_main hmain, mainBars_text hf h, Option.map_some]
  exact congrArg some (crop_of_size_le hsize)

/-- A compaction that goes well, and what is owed then. -/
theorem owing_compaction {dir : KlineDir} {s : BufferedSeries} {x : Option (Bars × ℕ)} (hl : s.loaded = true)
    (hc : s.compactionRevision.isSome = true) (hf : Filed key s.bars) (hsize : s.bars.size ≤ maxStoredBars) (hne : s.bars.size ≠ 0)
    (hx : fallbackOf C key dir .main = .ok x) :
    ∃ d s' owed', run (OwingWorld.step C key) ⟨⟨dir, s, none⟩, owed⟩ [.prepare, .write [] [], .acknowledge] =
        ⟨⟨d, s', none⟩, owed'⟩ ∧
      s'.bars = s.bars ∧ s'.loaded = true ∧ s'.revision = s.revision ∧ contents d .main = C.text (mapValues s.bars) ∧
      ∀ (t : ℤ) (bar : Kline), s.bars[t]? = some bar → owed' t = some bar := by
  have hdirty : s.dirty = true := by
    unfold BufferedSeries.dirty
    rw [hc, Bool.or_true]
  obtain ⟨d, hd⟩ := compactBatch_run ⟨mapValues s.pending, mapValues s.bars, s.revision, true⟩ [] hx
  have hwp : wp (compactBatch C key ⟨mapValues s.pending, mapValues s.bars, s.revision, true⟩ []) _ _ _ dir := wp_compactBatch _ _
  have hspec := hwp []
  rw [hd] at hspec
  have hmain : contents d .main = C.text (mapValues s.bars) := hspec.main
  obtain ⟨-, hfresh, -⟩ := fresh_text hf hsize hne hmain
  refine ⟨d, s.acknowledgeFlush ⟨mapValues s.pending, mapValues s.bars, s.revision, true⟩,
    settled (KlineWorld.fresh C key d) s.bars owed, ?_, acknowledge_bars _ _, (acknowledge_loaded _ _).trans hl, rfl, hmain, ?_⟩
  · simp only [run_cons, run_nil, OwingWorld.step, prepare_compact hl hc, owing, hl, hdirty]
    simp only [KlineWorld.step, KlineWorld.writeBatch, if_true, hd]
    rfl
  · intro t bar ht
    unfold settled
    rw [if_pos, ht]
    rw [hfresh]
    exact ⟨by rw [ht]; rfl, rfl⟩

/-- A compaction that dies with the main file out of the way. -/
theorem owing_dies {dir : KlineDir} {s : BufferedSeries} {bars : Bars} (hl : s.loaded = true)
    (hc : s.compactionRevision.isSome = true) (hfb : Filed key bars) (hsb : bars.size ≤ maxStoredBars) (hnb : bars.size ≠ 0)
    (hmain : contents dir .main = C.text (mapValues bars)) :
    ∃ fs d, run (OwingWorld.step C key) ⟨⟨dir, s, none⟩, owed⟩ [.prepare, .write fs []] = ⟨.open d, owed⟩ ∧
      contents d .main = [] ∧ contents d .tmp = C.text (mapValues s.bars) := by
  have hdirty : s.dirty = true := by
    unfold BufferedSeries.dirty
    rw [hc, Bool.or_true]
  obtain ⟨hmne, -, hfall⟩ := fresh_text hfb hsb hnb hmain
  obtain ⟨fs, d, hd, hdm, hdt⟩ : ∃ fs d,
      compactBatch C key ⟨mapValues s.pending, mapValues s.bars, s.revision, true⟩ [] dir fs = .crashed d ∧ contents d .main = [] ∧
        contents d .tmp = C.text (mapValues s.bars) := compact_dies_moved hmne hfall
  refine ⟨fs, d, ?_, hdm, hdt⟩
  simp only [run_cons, run_nil, OwingWorld.step, prepare_compact hl hc, owing, hl, hdirty]
  simp only [KlineWorld.step, KlineWorld.writeBatch, if_true, hd]
  rfl

/-- The next process recovers from the `.tmp`, and its compaction dies after its first line. -/
theorem owing_dies_again {d : KlineDir} {bars : Bars} (hf : Filed key bars) (hsize : bars.size ≤ maxStoredBars) (htwo : 2 ≤ bars.size)
    (hdm : contents d .main = []) (hdt : contents d .tmp = C.text (mapValues bars)) :
    ∃ d' first, run (OwingWorld.step C key) ⟨.open d, owed⟩ [.load, .prepare, .write [.pass, .pass, .pass, .crash 0] []] =
        ⟨.open d', owed⟩ ∧ KlineWorld.fresh C key d' = some (written ∅ [first]) := by
  have hload : loadFromDisk C key d [] = .ok ⟨bars, bars.size, true⟩ d [] := by
    rw [loadFromDisk_fallback hdm, fallbackOf_text hf (by omega) hdt]
    exact congrArg (fun b => Outcome.ok (LoadedSeries.mk b bars.size true) d []) (crop_of_size_le hsize)
  -- the first two bars
  obtain ⟨first, second, rest, hvals⟩ : ∃ first second rest, mapValues bars = first :: second :: rest := by
    have hlen := length_mapValues bars
    match mapValues bars, hlen with
    | [], h => simp at h; omega
    | [_], h => simp at h; omega
    | a :: b :: rest, _ => exact ⟨a, b, rest, rfl⟩
  have hacc : ∀ b ∈ [first], key.accepts b = true := by
    intro b hb
    obtain rfl := List.mem_singleton.1 hb
    obtain ⟨t, ht⟩ := mem_mapValues.1 (show b ∈ mapValues bars by rw [hvals]; exact List.mem_cons_self)
    exact (hf t b ht).2
  let d' := ((((d.set .tmp []).append .tmp (C.encode first) (C.encode first).length).append .tmp [newline] 1).append .tmp
    (C.encode second) 0)
  have hd' : ∀ p r, compactBatch C key ⟨p, mapValues bars, r, true⟩ [] d [.pass, .pass, .pass, .crash 0] = .crashed d' := by
    intro p r
    unfold compactBatch
    refine (Io.bind_of_ok (show openTruncate _ d _ = .ok () (d.set .tmp []) [.pass, .pass, .crash 0] from rfl)).trans ?_
    simp only [hvals, writeBars]
    refine Io.bind_of_crashed ?_
    refine (Io.bind_of_ok (show writeAll _ _ _ _ = .ok () _ [.pass, .crash 0] from rfl)).trans ?_
    refine (Io.bind_of_ok (show writeAll _ _ _ _ = .ok () _ [.crash 0] from rfl)).trans ?_
    exact Io.bind_of_crashed rfl
  refine ⟨d', first, ?_, ?_⟩
  · have hloaded : OwingWorld.step C key ⟨.open d, owed⟩ .load = ⟨⟨d, ⟨true, bars, ∅, 0, bars.size, some 0⟩, none⟩, owed⟩ := by
      simp only [OwingWorld.step, KlineWorld.step, KlineWorld.ensureLoaded, KlineWorld.open, BufferedSeries.default, hload]
      rw [if_neg Bool.false_ne_true, if_pos (.inl trivial)]
      rfl
    simp only [run_cons, run_nil, hloaded]
    simp only [OwingWorld.step, prepare_compact (s := ⟨true, bars, ∅, 0, bars.size, some 0⟩) rfl rfl, owing]
    simp only [KlineWorld.step, KlineWorld.writeBatch, if_true, hd']
    rfl
  · have hm : contents d' .main = [] := by
      simp only [d', contents_append, contents_set]
      exact hdm
    have ht : contents d' .tmp = C.text [first] := by
      simp only [d', contents_append, contents_set, if_true]
      simp
    have hfall : fallbackOf C key d' .tmp = .ok (some (written ∅ [first], 1)) := by
      unfold fallbackOf
      rw [ht, C.lines_text, parseFallback_encode hacc]
      rfl
    rw [fresh_tmp hm hfall]
    refine congrArg some (crop_of_size_le ?_)
    show (written ∅ [first]).size ≤ maxStoredBars
    have hone : (written ∅ [first]).size ≤ (∅ : Bars).size + 1 := Std.ExtTreeMap.size_insert_le
    have hzero : (∅ : Bars).size = 0 := rfl
    omega

/-- One bar more than are kept. -/
def manyBars : List Kline := (List.range (maxStoredBars + 1)).map fun i : ℕ => btcBar (i + 1)

theorem manyBars_accepted : ∀ b ∈ manyBars, btcKey.accepts b = true := by
  intro b hb
  obtain ⟨i, -, rfl⟩ := List.mem_map.1 hb
  have hpos : (0 : ℤ) < i + 1 := by omega
  simp [ChartWorkspaceKey.accepts, btcBar, btcKey, hpos]

theorem get_manyBars (t : ℤ) :
    (written ∅ manyBars)[t]? = if 1 ≤ t ∧ t ≤ maxStoredBars + 1 then some (btcBar t) else none := by
  rw [get_written]
  split
  · rename_i ht
    have hmem : btcBar t ∈ manyBars := by
      refine List.mem_map.2 ⟨(t - 1).toNat, ?_, ?_⟩
      · rw [List.mem_range]; omega
      · congr 1; omega
    have hlast : lastOf manyBars t = some (btcBar t) := lastOf_unique hmem rfl fun b hb hbt => by
      obtain ⟨i, -, rfl⟩ := List.mem_map.1 hb
      exact congrArg btcBar hbt
    rw [hlast, Option.some_or]
  · rename_i ht
    cases hl : lastOf manyBars t with
    | none => simp
    | some b =>
      obtain ⟨hb, hbt⟩ := mem_of_lastOf hl
      obtain ⟨i, hi, rfl⟩ := List.mem_map.1 hb
      rw [List.mem_range] at hi
      have hbt : (i : ℤ) + 1 = t := hbt
      omega

theorem mem_manyBars {t : ℤ} : t ∈ written ∅ manyBars ↔ 1 ≤ t ∧ t ≤ maxStoredBars + 1 := by
  rw [mem_iff_get, get_manyBars]
  split
  · rename_i h
    simp [h]
  · rename_i h
    simpa using h

theorem size_manyBars : (written ∅ manyBars).size = maxStoredBars + 1 := by
  have hset : keySet (written ∅ manyBars) = Finset.Icc (1 : ℤ) (maxStoredBars + 1) := by
    ext t
    rw [mem_keySet, mem_manyBars, Finset.mem_Icc]
  rw [← card_keySet, hset, Int.card_Icc]
  omega

/-- The store after them: the first bar is cropped, the last two are kept. -/
theorem keptBars : (cropBars (written ∅ manyBars)).size = maxStoredBars ∧
    (∀ t ∈ cropBars (written ∅ manyBars), t ≤ maxStoredBars + 1) ∧
    (cropBars (written ∅ manyBars))[(maxStoredBars : ℤ)]? = some (btcBar maxStoredBars) ∧
    (cropBars (written ∅ manyBars))[(maxStoredBars + 1 : ℤ)]? = some (btcBar (maxStoredBars + 1)) := by
  have hbig : 2 < maxStoredBars := by unfold maxStoredBars; omega
  have hget : ∀ t ∈ cropBars (written ∅ manyBars), (cropBars (written ∅ manyBars))[t]? = some (btcBar t) := by
    intro t ht
    rw [cropBars, get_crop ht, get_manyBars, if_pos (mem_manyBars.1 (mem_of_mem_crop ht))]
  refine ⟨by rw [cropBars, size_crop, size_manyBars]; omega, fun t ht => (mem_manyBars.1 (mem_of_mem_crop ht)).2,
    hget _ (mem_crop_of_card_lt (S := {(maxStoredBars : ℤ) + 1}) ?_ ?_ ?_), hget _ (mem_crop_of_card_lt (S := ∅) ?_ ?_ ?_)⟩
  · rw [mem_manyBars]; omega
  · intro j hj hlt
    rw [mem_manyBars] at hj
    rw [Finset.mem_singleton]; omega
  · rw [Finset.card_singleton, size_manyBars]; omega
  · rw [mem_manyBars]; omega
  · intro j hj hlt
    rw [mem_manyBars] at hj
    omega
  · rw [Finset.card_empty, size_manyBars]; omega

/-- The same after one bar more. -/
theorem keptBars_next {bars : Bars} (hsize : bars.size = maxStoredBars) (hle : ∀ t ∈ bars, t ≤ maxStoredBars + 1)
    {t : ℤ} (ht : t = maxStoredBars ∨ t = maxStoredBars + 1) {bar : Kline} (hbar : bars[t]? = some bar) :
    maxStoredBars < (written bars [btcBar (maxStoredBars + 2)]).size ∧
      (cropBars (written bars [btcBar (maxStoredBars + 2)]))[t]? = some bar := by
  have hbig : 2 < maxStoredBars := by unfold maxStoredBars; omega
  have hins : written bars [btcBar (maxStoredBars + 2)] = bars.insert (maxStoredBars + 2 : ℤ) (btcBar (maxStoredBars + 2)) := rfl
  have hnew : (maxStoredBars + 2 : ℤ) ∉ bars := fun h => by
    have := hle _ h
    omega
  have hlen : (written bars [btcBar (maxStoredBars + 2)]).size = maxStoredBars + 1 := by
    rw [hins, Std.ExtTreeMap.size_insert, if_neg (fun h => hnew (Std.ExtTreeMap.contains_iff_mem.1 h)), hsize]
  have hget : (written bars [btcBar (maxStoredBars + 2)])[t]? = some bar := by
    rw [hins, get_insert, if_neg (by omega), hbar]
  refine ⟨by rw [hlen]; omega, ?_⟩
  have hmem : t ∈ cropBars (written bars [btcBar (maxStoredBars + 2)]) := by
    refine mem_crop_of_card_lt (S := {(maxStoredBars : ℤ) + 1, (maxStoredBars : ℤ) + 2}) (mem_of_get hget) ?_ ?_
    · intro j hj hlt
      obtain ⟨v, hv⟩ := mem_iff_get.1 hj
      rw [hins, get_insert] at hv
      split at hv
      · rename_i he
        simp [← he]
      · have := hle j (mem_of_get hv)
        simp only [Finset.mem_insert, Finset.mem_singleton]
        omega
    · have hcard : ({(maxStoredBars : ℤ) + 1, (maxStoredBars : ℤ) + 2} : Finset ℤ).card ≤ 2 := Finset.card_le_two
      rw [hlen]
      omega
  rw [cropBars, get_crop hmem, hget]

theorem owing_upsert {dir : KlineDir} {s s' : BufferedSeries} {bs : List Kline} {r : KlineMergeResult} (hl : s.loaded = true)
    (h : s.upsertBars key bs = .ok (s', r)) : OwingWorld.step C key ⟨⟨dir, s, none⟩, owed⟩ (.upsert bs) =
      ⟨⟨dir, s', none⟩, fun t => if s.bars[t]? = owed t ∧ s'.bars[t]? ≠ owed t then none else owed t⟩ := by
  have hstep : KlineWorld.step C key ⟨dir, s, none⟩ (.upsert bs) = ⟨dir, s', none⟩ := by
    simp only [KlineWorld.step, hl, if_true, h]
  simp only [OwingWorld.step, owing, hstep]

/-- The series of a new store that got more bars than it keeps. -/
theorem owing_many {bs : List Kline} (hk : ∀ b ∈ bs, key.accepts b = true) (hbig : maxStoredBars < (written ∅ bs).size) :
    ∃ s : BufferedSeries, run (OwingWorld.step C key) (.open emptyDir) [.load, .upsert bs] = ⟨⟨emptyDir, s, none⟩, fun _ => none⟩ ∧
      s.loaded = true ∧ s.compactionRevision.isSome = true ∧ s.bars = cropBars (written ∅ bs) ∧ s.revision ≤ bs.length := by
  obtain ⟨s, r, hup, hbars, hl, hc, hrev⟩ := upsertBars_over (s := ⟨true, ∅, ∅, 0, 0, none⟩) hk hbig
  refine ⟨s, ?_, hl, hc, hbars, (Nat.zero_add bs.length).symm ▸ hrev⟩
  have hloaded : OwingWorld.step C key (.open emptyDir) .load = ⟨⟨emptyDir, ⟨true, ∅, ∅, 0, 0, none⟩, none⟩, fun _ => none⟩ := by
    simp only [OwingWorld.step, OwingWorld.open, owing, load_empty]
  simp only [run_cons, run_nil, hloaded, owing_upsert rfl hup, ite_self]

/-- A flush that is to compact meets no condition but that its series is not empty, and that a main
file is there when it does not go well. -/
theorem along_compact {dir : KlineDir} {s : BufferedSeries} {fs : List Fault} (hl : s.loaded = true)
    (hc : s.compactionRevision.isSome = true) (hne : s.bars.size ≠ 0) (hw : contents dir .main = [] → fs = []) :
    Along (OwingWorld.step C key) (fun o a => Calm C key o.world a ∧ Whole C key o.world a) ⟨⟨dir, s, none⟩, owed⟩
      [.prepare, .write fs []] := by
  have hsnapshot : mapValues s.bars ≠ [] := by
    rw [← List.length_eq_zero_iff.ne, length_mapValues]
    exact hne
  refine ⟨⟨trivial, trivial⟩, ⟨fun f hf _ => ?_, fun f hf _ _ => ⟨rfl, fun hmain _ => ?_⟩⟩, trivial⟩
  · simp only [OwingWorld.step, prepare_compact hl hc, Option.some.injEq] at hf
    rw [← hf]
    exact fun hnil => absurd hnil hsnapshot
  · simp only [OwingWorld.step, prepare_compact hl hc] at hmain
    exact hw hmain

/-- More bars than are kept, a flush that returns `Ok`, and one bar more. -/
def overfilled : List KlineAct :=
  [.load, .upsert manyBars, .prepare, .write [] [], .acknowledge, .upsert [btcBar (maxStoredBars + 2)]]

/-- The last two bars of the flush are owed, and another compaction is. -/
theorem overfilled_run : ∃ d s bars owed,
    run (OwingWorld.step klineCodec btcKey) (.open emptyDir) overfilled = ⟨⟨d, s, none⟩, owed⟩ ∧
      (s.loaded = true ∧ s.compactionRevision.isSome = true ∧ Filed btcKey s.bars ∧ s.bars.size = maxStoredBars) ∧
      (Filed btcKey bars ∧ bars.size = maxStoredBars ∧ contents d .main = klineCodec.text (mapValues bars)) ∧
      (∀ t : ℤ, t = maxStoredBars ∨ t = maxStoredBars + 1 → owed t = some (btcBar t)) ∧
      Along (OwingWorld.step klineCodec btcKey) (fun o a => Calm klineCodec btcKey o.world a ∧ Whole klineCodec btcKey o.world a)
        (.open emptyDir) overfilled := by
  have hbig : 2 < maxStoredBars ∧ maxStoredBars < 2 ^ 62 := by unfold maxStoredBars; omega
  have hmany : maxStoredBars < (written ∅ manyBars).size := by rw [size_manyBars]; exact Nat.lt_succ_self _
  have hlength : manyBars.length = maxStoredBars + 1 := by rw [manyBars, List.length_map, List.length_range]
  obtain ⟨hsize, hle, hlow, hhigh⟩ := keptBars
  have hfiled : Filed btcKey (cropBars (written ∅ manyBars)) := filed_crop (filed_written filed_empty manyBars_accepted)
  generalize hB : cropBars (written ∅ manyBars) = bars at hsize hle hlow hhigh hfiled
  -- the first flush returns `Ok`
  obtain ⟨s₁, hrun₁, hl₁, hc₁, hb₁, hr₁⟩ := owing_many (C := klineCodec) manyBars_accepted hmany
  rw [hB] at hb₁
  have hne₁ : s₁.bars.size ≠ 0 := by rw [hb₁, hsize]; omega
  obtain ⟨d, s₂, owed₂, hrun₂, hb₂, hl₂, hr₂, hmain, howed⟩ : ∃ d s₂ owed₂,
      run (OwingWorld.step klineCodec btcKey) ⟨⟨emptyDir, s₁, none⟩, fun _ => none⟩ [.prepare, .write [] [], .acknowledge] =
        ⟨⟨d, s₂, none⟩, owed₂⟩ ∧ _ :=
    owing_compaction (x := none) hl₁ hc₁ (hb₁ ▸ hfiled) (by rw [hb₁, hsize]) hne₁ rfl
  rw [hb₁] at hb₂ hmain howed
  -- one bar more, and it has to be compacted again
  have hnew : ∀ b ∈ [btcBar (maxStoredBars + 2)], btcKey.accepts b = true := by
    intro b hb
    obtain rfl := List.mem_singleton.1 hb
    have hpos : (0 : ℤ) < maxStoredBars + 2 := by omega
    simp [ChartWorkspaceKey.accepts, btcBar, btcKey, hpos]
  have hkept : ∀ t : ℤ, t = maxStoredBars ∨ t = maxStoredBars + 1 → bars[t]? = some (btcBar t) := by
    rintro t (rfl | rfl)
    · exact hlow
    · exact hhigh
  have hover := (keptBars_next hsize hle (.inl rfl) hlow).1
  rw [← hb₂] at hover
  obtain ⟨s₃, r, hup, hb₃, hl₃, hc₃, -⟩ := upsertBars_over hnew hover
  have hsize₃ : s₃.bars.size = maxStoredBars := by
    rw [hb₃, cropBars, size_crop]
    omega
  rw [hb₂] at hb₃
  have hrun₃ : run (OwingWorld.step klineCodec btcKey) ⟨⟨d, s₂, none⟩, owed₂⟩ [.upsert [btcBar (maxStoredBars + 2)]] =
      ⟨⟨d, s₃, none⟩, fun t => if s₂.bars[t]? = owed₂ t ∧ s₃.bars[t]? ≠ owed₂ t then none else owed₂ t⟩ := owing_upsert hl₂ hup
  have hparts : overfilled = [.load, .upsert manyBars] ++ ([.prepare, .write [] [], .acknowledge] ++
    [.upsert [btcBar (maxStoredBars + 2)]]) := rfl
  refine ⟨d, s₃, bars, fun t => if s₂.bars[t]? = owed₂ t ∧ s₃.bars[t]? ≠ owed₂ t then none else owed₂ t, ?_,
    ⟨hl₃.trans hl₂, hc₃, hb₃ ▸ filed_crop (filed_written hfiled hnew), hsize₃⟩, ⟨hfiled, hsize, hmain⟩, fun t ht => ?_, ?_⟩
  · rw [hparts, run_append, hrun₁, run_append, hrun₂, hrun₃]
  · have hb := hkept t ht
    have hb' : s₃.bars[t]? = some (btcBar t) := hb₃ ▸ (keptBars_next hsize hle ht hb).2
    show (if _ then _ else _) = _
    rw [howed t _ hb, if_neg (fun h => h.2 hb')]
  · rw [hparts, along_append, hrun₁, along_append, hrun₂]
    refine ⟨⟨⟨trivial, trivial⟩, ⟨?_, trivial⟩, trivial⟩, ?_, ⟨?_, trivial⟩, trivial⟩
    · show Fresh64 ((KlineWorld.open emptyDir).step klineCodec btcKey .load).series manyBars.length
      rw [load_empty, hlength]
      show 0 + (maxStoredBars + 1) < 2 ^ 64
      omega
    · have hcompact : Along (OwingWorld.step klineCodec btcKey)
          (fun o a => Calm klineCodec btcKey o.world a ∧ Whole klineCodec btcKey o.world a) ⟨⟨emptyDir, s₁, none⟩, fun _ => none⟩
          [.prepare, .write [] []] := along_compact hl₁ hc₁ hne₁ (fun _ => rfl)
      obtain ⟨hprepare, hwrite, -⟩ := hcompact
      exact ⟨hprepare, hwrite, ⟨trivial, trivial⟩, trivial⟩
    · show s₂.revision + 1 < 2 ^ 64
      omega

/-- **Two crashes in a row lose bars of a flush that returned `Ok`**: the first with the
main file out of the way, the second when the store that recovered writes its first
line. -/
theorem compaction_crashes_lose : ∃ as : List KlineAct,
    ¬ Loadable klineCodec btcKey (run (OwingWorld.step klineCodec btcKey) (.open emptyDir) as).world.dir
      (run (OwingWorld.step klineCodec btcKey) (.open emptyDir) as).owed := by
  have hbig : 2 < maxStoredBars := by unfold maxStoredBars; omega
  obtain ⟨d, s, bars, owed, hrun, ⟨hl, hc, hf, hsize⟩, ⟨hfb, hsb, hmain⟩, howed, -⟩ := overfilled_run
  obtain ⟨fs, d₁, hrun₁, hdm, hdt⟩ : ∃ fs d₁, run (OwingWorld.step klineCodec btcKey) ⟨⟨d, s, none⟩, owed⟩ [.prepare, .write fs []] =
    ⟨.open d₁, owed⟩ ∧ _ := owing_dies hl hc hfb hsb.le (by omega) hmain
  obtain ⟨d₂, first, hrun₂, hfresh⟩ : ∃ d₂ first, run (OwingWorld.step klineCodec btcKey) ⟨.open d₁, owed⟩
      [.load, .prepare, .write [.pass, .pass, .pass, .crash 0] []] = ⟨.open d₂, owed⟩ ∧ _ :=
    owing_dies_again hf hsize.le (by omega) hdm hdt
  refine ⟨overfilled ++ ([.prepare, .write fs []] ++ [.load, .prepare, .write [.pass, .pass, .pass, .crash 0] []]), fun hlost => ?_⟩
  rw [run_append, hrun, run_append, hrun₁, hrun₂] at hlost
  -- two bars are owed, and one line is left
  have hone : ∀ t : ℤ, t = maxStoredBars ∨ t = maxStoredBars + 1 → t = first.openTime := by
    intro t ht
    obtain ⟨f, hf, hin⟩ := hlost t _ (howed t ht)
    obtain rfl := Option.some.inj (hfresh.symm.trans hf)
    rw [get_written] at hin
    cases hl : lastOf [first] t with
    | none => rw [hl] at hin; simp at hin
    | some b =>
      obtain ⟨hb, hbt⟩ := mem_of_lastOf hl
      rw [← hbt, List.mem_singleton.1 hb]
  have h₁ := hone _ (.inl rfl)
  have h₂ := hone _ (.inr rfl)
  omega

/-- One crash, with the main file out of the way, loses none of them. -/
theorem compaction_owes_crash : ∃ faults,
    let o := run (OwingWorld.step klineCodec btcKey) (.open emptyDir) (overfilled ++ [.prepare, .write faults []])
    contents o.world.dir .main = [] ∧
      ∀ t : ℤ, t = maxStoredBars ∨ t = maxStoredBars + 1 → o.owed t = some (btcBar t) ∧
        ∃ f, KlineWorld.fresh klineCodec btcKey o.world.dir = some f ∧ f[t]? = some (btcBar t) := by
  have hbig : 2 < maxStoredBars := by unfold maxStoredBars; omega
  obtain ⟨d, s, bars, owed, hrun, ⟨hl, hc, hf, hsize⟩, ⟨hfb, hsb, hmain⟩, howed, halong⟩ := overfilled_run
  obtain ⟨fs, d₁, hrun₁, hdm, -⟩ : ∃ fs d₁, run (OwingWorld.step klineCodec btcKey) ⟨⟨d, s, none⟩, owed⟩ [.prepare, .write fs []] =
    ⟨.open d₁, owed⟩ ∧ _ := owing_dies hl hc hfb hsb.le (by omega) hmain
  refine ⟨fs, ?_⟩
  have hloadable := compaction_owes klineCodec btcKey emptyDir (overfilled ++ [.prepare, .write fs []]) ?_
  · rw [run_append, hrun, hrun₁] at hloadable ⊢
    exact ⟨hdm, fun t ht => ⟨howed t ht, hloadable t _ (howed t ht)⟩⟩
  · rw [along_append, hrun]
    refine ⟨halong, along_compact hl hc (by omega) fun hnil => ?_⟩
    exact absurd hnil (fresh_text hfb hsb.le (by omega) hmain).1

end Crashes

end EasiFlux
