import EasiFlux.Lib.Steps
import EasiFlux.Proof.KlineSeries

/-!
# Flushes and upserts of a kline series

The invariant `KlineOk` of a store in use. While no compaction is due the main file,
with the pending bars over it, is the series in memory (`SyncedBy`). A flush that is
under way knows the series it copied: the bars that differ by now are pending with a
later revision (`FlightOk`), and once it is written the directory loads that copy
(`StoredAs`).

`Calm` is what a run needs for it: appends go to a main file that ends its last line,
and no empty series is compacted over a backup.
-/

namespace EasiFlux

open CrashIo Newest Steps

variable {C : LineCodec Kline} {key : ChartWorkspaceKey} {s s' : BufferedSeries} {dir dir' : KlineDir} {w : KlineWorld}

/-- The next flush rewrites the series. -/
def mustCompact (s : BufferedSeries) : Prop :=
  s.compactionRevision.isSome ∨ compactPhysicalRecords < s.physicalRecords + s.pending.size

/-- The main file holds `d`, and with the pending bars over it that is the series. -/
structure SyncedBy (C : LineCodec Kline) (key : ChartWorkspaceKey) (d : Bars) (dir : KlineDir) (s : BufferedSeries) : Prop where
  main : mainBars C key dir = some d
  fresh : KlineWorld.fresh C key dir = some (cropBars d)
  covered : ∀ (t : ℤ) (bar : Kline), s.bars[t]? = some bar → t ∈ s.pending ∨ (cropBars d)[t]? = some bar
  within : ∀ t ∈ cropBars d, t ∈ s.bars

/-- A batch that copied the bars `b` and the pending entries `p`. -/
structure FlightOk (key : ChartWorkspaceKey) (s : BufferedSeries) (batch : FlushBatch) (b : Bars) (p : OrdMap ℤ PendingEntry) :
    Prop where
  snapshot : batch.snapshot = mapValues b
  entries : batch.entries = mapValues p
  filed : Filed key b
  size : b.size ≤ maxStoredBars
  revision : batch.snapshotRevision ≤ s.revision
  current : ∀ (t : ℤ) (bar : Kline), s.bars[t]? = some bar →
    (∃ e, s.pending[t]? = some e ∧ batch.snapshotRevision < e.revision) ∨ b[t]? = some bar
  within : (∀ r ∈ s.compactionRevision, r ≤ batch.snapshotRevision) → ∀ t ∈ b, t ∈ s.bars
  taken : ∀ (t : ℤ) (e : PendingEntry), p[t]? = some e → b[t]? = some e.kline
  old : ∀ (t : ℤ) (e : PendingEntry), s.pending[t]? = some e → e.revision ≤ batch.snapshotRevision → p[t]? = some e
  still : ∀ t ∈ p, t ∈ s.bars → t ∈ s.pending
  room : batch.compact = false → s.physicalRecords + batch.entries.length ≤ compactPhysicalRecords
  must : batch.compact = true → mustCompact s

/-- The main file, with the batch over it, is the copied series. -/
structure Batched (C : LineCodec Kline) (key : ChartWorkspaceKey) (d : Bars) (dir : KlineDir) (b : Bars)
    (p : OrdMap ℤ PendingEntry) : Prop where
  main : mainBars C key dir = some d
  fresh : KlineWorld.fresh C key dir = some (cropBars d)
  covered : ∀ (t : ℤ) (bar : Kline), b[t]? = some bar → t ∈ p ∨ (cropBars d)[t]? = some bar
  within : ∀ t ∈ cropBars d, t ∈ b

/-- The directory loads the copied series. -/
def StoredAs (C : LineCodec Kline) (key : ChartWorkspaceKey) (dir : KlineDir) (b : Bars) : Prop :=
  ∃ d, mainBars C key dir = some d ∧ cropBars d = b ∧ KlineWorld.fresh C key dir = some b

structure KlineOk (C : LineCodec Kline) (key : ChartWorkspaceKey) (w : KlineWorld) : Prop where
  unloaded : w.series.loaded = false → w.series = .default ∧ w.flight = none
  series : SeriesOk key w.series
  synced : w.series.loaded = true → ¬ mustCompact w.series → ∃ d, SyncedBy C key d w.dir w.series
  flight : ∀ f, w.flight = some f → ∃ b p, FlightOk key w.series f.batch b p ∧
    if f.written then StoredAs C key w.dir b else f.batch.compact = false → ∃ d, Batched C key d w.dir b p

/-! ## Upserts -/

section Upsert

theorem SeriesOk.upsert (hs : SeriesOk key s) (hu : Upserted key s s') : SeriesOk key s' := by
  refine ⟨fun t bar ht => ?_, hu.size, fun t e he => ?_, fun r hr => ?_, ?_⟩
  · rcases hu.at_ t with h | ⟨e, hb, -, -, -, hk⟩ | h
    · exact hs.filed t bar (h.1.symm.trans ht)
    · obtain rfl := Option.some.inj (hb.symm.trans ht)
      exact hk
    · rw [h.1] at ht; cases ht
  · rcases hu.at_ t with h | ⟨e', hb, hp, -, hle, -⟩ | h
    · obtain ⟨hb, hle⟩ := hs.pending t e (h.2.symm.trans he)
      exact ⟨h.1.trans hb, hle.trans hu.revision⟩
    · obtain rfl := Option.some.inj (hp.symm.trans he)
      exact ⟨hb, hle⟩
    · rw [h.2] at he; cases he
  · rcases hu.flag with ⟨hf, -⟩ | ⟨hf, -⟩
    · exact (hs.flag r (hf ▸ hr)).trans hu.revision
    · rw [hf] at hr
      obtain rfl := Option.some.inj hr
      exact le_refl _
  · rcases hu.flag with ⟨hf, -⟩ | ⟨hf, -⟩
    · rw [hf, hu.physical]; exact hs.physical
    · exact .inl (by rw [hf]; rfl)

/-- A pending time is pending until it is cropped. -/
theorem Upserted.pending_mem (hu : Upserted key s s') {t : ℤ} (ht : t ∈ s.pending) (hb : t ∈ s'.bars) : t ∈ s'.pending := by
  obtain ⟨e, he⟩ := mem_iff_get.1 ht
  rcases hu.at_ t with h | ⟨e', -, hp, -⟩ | h
  · exact mem_of_get (h.2.trans he)
  · exact mem_of_get hp
  · exact absurd hb (get_eq_none.1 h.1)

theorem mustCompact_upsert (hu : Upserted key s s') (h : mustCompact s) : mustCompact s' := by
  rcases hu.flag with ⟨hf, hat⟩ | ⟨hf, -⟩
  · rcases h with h | h
    · exact .inl (by rw [hf]; exact h)
    · refine .inr (lt_of_lt_of_le h ?_)
      rw [hu.physical]
      refine Nat.add_le_add_left (size_le_of_subset fun t ht => ?_) _
      obtain ⟨e, he⟩ := mem_iff_get.1 ht
      rcases hat t with h | ⟨e', -, hp, -⟩
      · exact mem_of_get (h.2.trans he)
      · exact mem_of_get hp
  · exact .inl (by rw [hf]; rfl)

/-- Unless something is cropped, every time is kept. -/
theorem Upserted.bars_mem (hu : Upserted key s s') {n : ℕ} (hn : n ≤ s.revision)
    (hf : ∀ r ∈ s'.compactionRevision, r ≤ n) {t : ℤ} (ht : t ∈ s.bars) : t ∈ s'.bars := by
  rcases hu.flag with ⟨-, hat⟩ | ⟨hflag, hlt⟩
  · obtain ⟨bar, hb⟩ := mem_iff_get.1 ht
    rcases hat t with h | ⟨e', hb', -⟩
    · exact mem_of_get (h.1.trans hb)
    · exact mem_of_get hb'
  · have := hf _ hflag
    omega

theorem SyncedBy.upsert {d : Bars} (h : SyncedBy C key d dir s) (hu : Upserted key s s') (hm : ¬ mustCompact s') :
    SyncedBy C key d dir s' := by
  have hflag : ∀ r ∈ s'.compactionRevision, r ≤ 0 := fun r hr => absurd (.inl (Option.isSome_of_mem hr)) hm
  refine ⟨h.main, h.fresh, fun t bar ht => ?_, fun t ht => hu.bars_mem (Nat.zero_le _) hflag (h.within t ht)⟩
  rcases hu.at_ t with hsame | ⟨e, -, hp, -⟩ | hc
  · refine (h.covered t bar (hsame.1.symm.trans ht)).imp_left fun hp => ?_
    exact hu.pending_mem hp (mem_of_get ht)
  · exact .inl (mem_of_get hp)
  · rw [hc.1] at ht; cases ht

theorem FlightOk.upsert {batch : FlushBatch} {b : Bars} {p : OrdMap ℤ PendingEntry} (h : FlightOk key s batch b p)
    (hu : Upserted key s s') : FlightOk key s' batch b p := by
  refine
    { snapshot := h.snapshot, entries := h.entries, filed := h.filed, size := h.size, taken := h.taken
      revision := h.revision.trans hu.revision
      current := fun t bar ht => ?_
      within := fun hf t ht => ?_
      old := fun t e he hle => ?_
      still := fun t ht hb => ?_
      room := fun hc => by rw [hu.physical]; exact h.room hc
      must := fun hc => mustCompact_upsert hu (h.must hc) }
  · rcases hu.at_ t with hsame | ⟨e, -, hp, hlt, -⟩ | hc
    · refine (h.current t bar (hsame.1.symm.trans ht)).imp_left fun ⟨e, he, hlt⟩ => ⟨e, hsame.2.trans he, hlt⟩
    · exact .inl ⟨e, hp, lt_of_le_of_lt h.revision hlt⟩
    · rw [hc.1] at ht; cases ht
  · refine hu.bars_mem h.revision hf (h.within (fun r hr => ?_) t ht)
    rcases hu.flag with ⟨hflag, -⟩ | ⟨hflag, hlt⟩
    · exact hf r (hflag ▸ hr)
    · have := hf _ hflag
      exact absurd (h.revision.trans_lt hlt) (not_lt.2 this)
  · rcases hu.at_ t with hsame | ⟨e', -, hp, hlt, -⟩ | hc
    · exact h.old t e (hsame.2.symm.trans he) hle
    · obtain rfl := Option.some.inj (hp.symm.trans he)
      exact absurd (h.revision.trans_lt hlt) (not_lt.2 hle)
    · rw [hc.2] at he; cases he
  · rcases hu.at_ t with hsame | ⟨e', -, hp, -⟩ | hc
    · have hb' : t ∈ s.bars := by
        obtain ⟨bar, hbar⟩ := mem_iff_get.1 hb
        exact mem_of_get (hsame.1.symm.trans hbar)
      exact hu.pending_mem (h.still t ht hb') hb
    · exact mem_of_get hp
    · exact absurd hb (get_eq_none.1 hc.1)

theorem KlineOk.upsert (h : KlineOk C key w) (hl : w.series.loaded = true) (hu : Upserted key w.series s') :
    KlineOk C key { w with series := s' } := by
  refine ⟨fun hn => ?_, h.series.upsert hu, fun _ hm => ?_, fun f hf => ?_⟩
  · rw [show s'.loaded = true from hu.loaded.trans hl] at hn; cases hn
  · obtain ⟨d, hd⟩ := h.synced hl fun hm' => hm (mustCompact_upsert hu hm')
    exact ⟨d, hd.upsert hu hm⟩
  · obtain ⟨b, p, hfl, hrest⟩ := h.flight f hf
    exact ⟨b, p, hfl.upsert hu, hrest⟩

end Upsert

/-! ## Loading and copying -/

section Load

theorem seriesOk_default : SeriesOk key .default := by
  refine ⟨filed_empty, Nat.zero_le _, fun t e he => ?_, (fun r hr => nomatch hr), .inr (Nat.zero_le _)⟩
  have : (∅ : OrdMap ℤ PendingEntry)[t]? = some e := he
  simp at this

/-- A new process. -/
theorem klineOk_open (dir : KlineDir) : KlineOk C key (.open dir) :=
  ⟨fun _ => ⟨rfl, rfl⟩, seriesOk_default, (fun h => nomatch h), (fun _ hf => nomatch hf)⟩

theorem filed_crop {bars : Bars} (h : Filed key bars) : Filed key (cropBars bars) := fun t bar ht => h t bar (get_of_crop ht)

/-- The series a directory loads, and that the main file is all of it unless it was
recovered. -/
theorem loadFromDisk_ok {loaded : LoadedSeries} {d : KlineDir} {rest : List Fault}
    (h : loadFromDisk C key dir [] = .ok loaded d rest) :
    Filed key loaded.bars ∧ loaded.bars.size ≤ maxStoredBars ∧ KlineWorld.fresh C key dir = some loaded.bars ∧
      (loaded.recoveredFallback = false → ∃ m, mainBars C key dir = some m ∧ cropBars m = loaded.bars) := by
  have hfresh : KlineWorld.fresh C key dir = some loaded.bars := by
    unfold KlineWorld.fresh
    rw [h]
  by_cases hm : contents dir .main = []
  · rw [loadFromDisk_fallback hm] at h
    split at h
    · cases h
    · rename_i p hp
      simp only [Outcome.ok.injEq] at h
      obtain ⟨rfl, -, -⟩ := h
      exact ⟨filed_crop (parseFallback_filed filed_empty hp), size_crop_le _ _, hfresh, (fun h => nomatch h)⟩
    · split at h
      · cases h
      · rename_i p hp
        simp only [Outcome.ok.injEq] at h
        obtain ⟨rfl, -, -⟩ := h
        exact ⟨filed_crop (parseFallback_filed filed_empty hp), size_crop_le _ _, hfresh, (fun h => nomatch h)⟩
      · simp only [Outcome.ok.injEq] at h
        obtain ⟨rfl, -, -⟩ := h
        refine ⟨filed_empty, Nat.zero_le _, hfresh, fun _ => ⟨∅, mainBars_nil hm, ?_⟩⟩
        exact crop_of_size_le (Nat.zero_le _)
  · rw [fresh_main hm] at hfresh
    cases hb : mainBars C key dir with
    | none => rw [hb] at hfresh; cases hfresh
    | some m =>
      rw [hb] at hfresh
      have he : cropBars m = loaded.bars := Option.some.inj hfresh
      rw [← he]
      refine ⟨filed_crop (mainBars_filed hb), size_crop_le _ _, ?_, fun _ => ⟨m, rfl, rfl⟩⟩
      rw [fresh_main hm, hb]
      rfl

theorem KlineOk.load (h : KlineOk C key w) : KlineOk C key (w.ensureLoaded C key) := by
  unfold KlineWorld.ensureLoaded
  split
  · exact h
  · rename_i hl
    obtain ⟨hs, hf⟩ := h.unloaded (Bool.eq_false_iff.2 hl)
    split
    · rename_i loaded d rest hload
      obtain ⟨hfiled, hsize, hfresh, hmain⟩ := loadFromDisk_ok hload
      refine ⟨(fun h => nomatch h), ⟨hfiled, hsize, ?_, ?_, ?_⟩, fun _ hm => ?_, fun f hf' => ?_⟩
      · intro t e he
        rw [hs] at he
        have he : (∅ : OrdMap ℤ PendingEntry)[t]? = some e := he
        simp at he
      · intro r hr
        rw [hs] at hr ⊢
        simp only at hr
        split at hr
        · obtain rfl := Option.some.inj hr
          exact le_refl _
        · cases hr
      · simp only
        split
        · exact .inl rfl
        · rename_i hc
          push Not at hc
          exact .inr hc.2
      · -- nothing is due, so the main file is the series
        unfold mustCompact at hm
        simp only at hm
        split at hm
        · exact absurd (.inl rfl) hm
        · rename_i hc
          obtain ⟨m, hm', he⟩ := hmain (by simpa using fun hr => hc (.inl hr))
          refine ⟨m, hm', he ▸ hfresh, fun t bar ht => .inr ?_, fun t ht => ?_⟩
          · rw [he]; exact ht
          · rw [he] at ht; exact ht
      · rw [hf] at hf'; cases hf'
    · exact h

/-- What a flush copies. -/
theorem flightOk_prepare {batch : FlushBatch} (h : SeriesOk key s) (hb : s.prepareFlush = some batch) :
    FlightOk key s batch s.bars s.pending ∧ (batch.compact = false → ¬ mustCompact s) := by
  unfold BufferedSeries.prepareFlush at hb
  split at hb
  · cases hb
  · obtain rfl := Option.some.inj hb
    have hmust : (s.compactionRevision.isSome || decide (compactPhysicalRecords < s.physicalRecords + (mapValues s.pending).length)) =
        true ↔ mustCompact s := by
      rw [length_mapValues, Bool.or_eq_true, decide_eq_true_eq]
      rfl
    refine ⟨?_, fun hc hm => ?_⟩
    · refine
        { snapshot := rfl, entries := rfl, filed := h.filed, size := h.size, revision := le_refl _
          current := fun t bar ht => .inr ht
          within := fun _ t ht => ht
          taken := fun t e he => (h.pending t e he).1
          old := fun t e he _ => he
          still := fun t ht _ => ht
          room := fun hc => ?_
          must := hmust.1 }
      have : ¬ mustCompact s := fun hm => Bool.eq_false_iff.1 hc (hmust.2 hm)
      rw [length_mapValues]
      unfold mustCompact at this
      push Not at this
      exact this.2
    · rw [Bool.eq_false_iff] at hc
      exact hc (hmust.2 hm)

theorem KlineOk.prepare (h : KlineOk C key w) : KlineOk C key (w.step C key .prepare) := by
  simp only [KlineWorld.step]
  split
  · rename_i hl hfn
    refine ⟨fun hn => ?_, h.series, h.synced, fun f hf => ?_⟩
    · rw [show w.series.loaded = true from hl] at hn; cases hn
    · obtain ⟨batch, hb, rfl⟩ := Option.map_eq_some_iff.1 hf
      obtain ⟨hfl, hm⟩ := flightOk_prepare h.series hb
      refine ⟨_, _, hfl, fun hc => ?_⟩
      obtain ⟨d, hd⟩ := h.synced hl (hm hc)
      exact ⟨d, hd.main, hd.fresh, hd.covered, hd.within⟩
  · exact h

end Load

/-! ## An append -/

section Append

theorem fresh_of_contents (h : ∀ n, contents dir' n = contents dir n) : KlineWorld.fresh C key dir' = KlineWorld.fresh C key dir := by
  by_cases hm : contents dir .main = []
  · unfold KlineWorld.fresh
    rw [loadFromDisk_fallback hm, loadFromDisk_fallback ((h .main).trans hm)]
    simp only [fallbackOf, h]
    cases parseFallback C key (lines (contents dir .tmp)) ∅ 0 with
    | error e => rfl
    | ok x =>
      cases x with
      | some p => rfl
      | none =>
        simp only
        cases parseFallback C key (lines (contents dir .bak)) ∅ 0 with
        | error e => rfl
        | ok y => cases y <;> rfl
  · exact fresh_congr (h .main) hm

/-- A bar whose text cannot be cut inside a character. -/
def Plain (C : LineCodec Kline) (bar : Kline) : Prop := ∀ k, C.decode ((C.encode bar).take k) ≠ .invalid

/-- What the main file holds after lines were added to it, up to some byte. -/
theorem mainBars_append {d : Bars} {es : List Kline} {k : ℕ} (ht : Terminated (contents dir .main))
    (hd : mainBars C key dir = some d) (hacc : ∀ e ∈ es, key.accepts e = true)
    (hc : contents dir' .main = contents dir .main ++ (C.text es).take k)
    (hv : C.text es = (C.text es).take k ∨ ∀ e ∈ es, Plain C e) :
    ∃ bs cs, es = bs ++ cs ∧ mainBars C key dir' = some (written d bs) ∧ (C.text es = (C.text es).take k → cs = []) := by
  obtain ⟨p, hp, hpd⟩ : ∃ p, parseMain C key (lines (contents dir .main)) ∅ 0 = .ok p ∧ p.1 = d := by
    unfold mainBars at hd
    cases hp : parseMain C key (lines (contents dir .main)) ∅ 0 with
    | error e => rw [hp] at hd; cases hd
    | ok p => rw [hp] at hd; exact ⟨p, rfl, Option.some.inj hd⟩
  subst hpd
  -- the new lines are read after the old ones
  have hparse : ∀ {x : Bytes} {q : Bars × ℕ}, contents dir' .main = contents dir .main ++ x →
      parseMain C key (lines x) p.1 p.2 = .ok q → mainBars C key dir' = some q.1 := by
    intro x q hx hq
    unfold mainBars
    rw [hx, lines_append ht, parseMain_append, hp]
    show (parseMain C key (lines x) p.1 p.2).toOption.map Prod.fst = some q.1
    rw [hq]
    rfl
  by_cases hfull : C.text es = (C.text es).take k
  · refine ⟨es, [], (List.append_nil _).symm, ?_, fun _ => rfl⟩
    exact hparse (hc.trans (by rw [← hfull])) (by rw [C.lines_text, parseMain_encode hacc])
  · obtain ⟨bs, a, cs, j, rfl, hj, htake⟩ := (C.take_text es k).resolve_left hfull
    have hbs : ∀ b ∈ bs, key.accepts b = true := fun b hb => hacc b (List.mem_append_left _ hb)
    have ha : key.accepts a = true := hacc a (List.mem_append_right _ List.mem_cons_self)
    have hplain : Plain C a := (hv.resolve_left hfull) a (List.mem_append_right _ List.mem_cons_self)
    have hnl : newline ∉ (C.encode a).take j := fun h => C.newline_encode a (List.mem_of_mem_take h)
    have hlines : parseMain C key (lines (C.text bs ++ (C.encode a).take j)) p.1 p.2 =
        parseMain C key (if (C.encode a).take j = [] then [] else [(C.encode a).take j]) (written p.1 bs) (p.2 + bs.length) := by
      rw [C.lines_text_append, parseMain_append, parseMain_encode hbs, lines_torn hnl]
      rfl
    rcases Nat.lt_or_eq_of_le hj with hlt | heq
    · -- a part of a line is skipped
      refine ⟨bs, a :: cs, rfl, ?_, fun h => absurd h hfull⟩
      obtain ⟨n, hn⟩ : ∃ n, parseMain C key (if (C.encode a).take j = [] then [] else [(C.encode a).take j]) (written p.1 bs)
          (p.2 + bs.length) = .ok (written p.1 bs, n) := by
        split
        · exact ⟨_, rfl⟩
        · simp only [parseMain]
          cases hdec : C.decode ((C.encode a).take j) with
          | invalid => exact absurd hdec (hplain j)
          | record b => exact absurd hdec (C.decode_torn a b j hlt)
          | blank => exact ⟨_, rfl⟩
          | corrupt => exact ⟨_, rfl⟩
      exact hparse (hc.trans (by rw [htake])) (hlines.trans hn)
    · -- only its newline is missing
      refine ⟨bs ++ [a], cs, by simp, ?_, fun h => absurd h hfull⟩
      have hwhole : (C.encode a).take j = C.encode a := List.take_of_length_le (le_of_eq heq.symm)
      have hn : parseMain C key (if (C.encode a).take j = [] then [] else [(C.encode a).take j]) (written p.1 bs)
          (p.2 + bs.length) = .ok (written p.1 (bs ++ [a]), p.2 + bs.length + 1) := by
        rw [hwhole, if_neg (C.encode_ne_nil a)]
        simp only [parseMain, C.decode_encode, if_pos ha, written, List.foldl_append, List.foldl_cons, List.foldl_nil]
      exact hparse (hc.trans (by rw [htake])) (hlines.trans hn)

variable {batch : FlushBatch} {b d : Bars} {p : OrdMap ℤ PendingEntry}

theorem FlightOk.entry (hf : FlightOk key s batch b p) {bar : Kline} (h : bar ∈ batch.entries.map (·.kline)) :
    ∃ e, p[bar.openTime]? = some e ∧ e.kline = bar ∧ b[bar.openTime]? = some bar := by
  obtain ⟨e, he, rfl⟩ := List.mem_map.1 h
  rw [hf.entries] at he
  obtain ⟨t, ht⟩ := mem_mapValues.1 he
  have hb := hf.taken t e ht
  obtain rfl := (hf.filed t _ hb).1
  exact ⟨e, ht, rfl, hb⟩

/-- The bar a batch writes for a time. -/
theorem FlightOk.lastOf_entries (hf : FlightOk key s batch b p) (t : ℤ) :
    lastOf (batch.entries.map (·.kline)) t = p[t]?.map (·.kline) := by
  cases ht : p[t]? with
  | some e =>
    have hb := hf.taken t e ht
    refine lastOf_unique (List.mem_map.2 ⟨e, ?_, rfl⟩) (hf.filed t _ hb).1 fun bar hbar htb => ?_
    · rw [hf.entries]; exact mem_mapValues.2 ⟨t, ht⟩
    · obtain ⟨e', -, -, hb'⟩ := hf.entry hbar
      rw [htb] at hb'
      exact Option.some.inj (hb'.symm.trans hb)
  | none =>
    cases hl : lastOf (batch.entries.map (·.kline)) t with
    | none => rfl
    | some bar =>
      obtain ⟨hbar, htb⟩ := mem_of_lastOf hl
      obtain ⟨e, he, -⟩ := hf.entry hbar
      rw [htb, ht] at he
      cases he

/-- An append shows what it has written, over what was there. -/
theorem append_shows {k : ℕ} (hf : FlightOk key s batch b p) (hb : Batched C key d dir b p) (ht : Terminated (contents dir .main))
    (ho : OnlyFile .main (contents dir .main ++ (C.text (batch.entries.map (·.kline))).take k) dir dir')
    (hv : C.text (batch.entries.map (·.kline)) = (C.text (batch.entries.map (·.kline))).take k ∨
      ∀ e ∈ batch.entries, Plain C e.kline) :
    ∃ bs cs, batch.entries.map (·.kline) = bs ++ cs ∧ mainBars C key dir' = some (written d bs) ∧
      KlineWorld.fresh C key dir' = some (cropBars (written d bs)) ∧
      (∀ t, (cropBars (written d bs))[t]? = (lastOf bs t).or (cropBars d)[t]?) ∧
      (C.text (batch.entries.map (·.kline)) = (C.text (batch.entries.map (·.kline))).take k → cs = []) := by
  have hacc : ∀ e ∈ batch.entries.map (·.kline), key.accepts e = true := fun e he => by
    obtain ⟨-, -, -, hb⟩ := hf.entry he
    exact (hf.filed _ _ hb).2
  obtain ⟨bs, cs, hes, hmain, hfull⟩ := mainBars_append ht hb.main hacc ((ho .main).trans (if_pos rfl))
    (hv.imp_right fun h e he => by
      obtain ⟨e', he', rfl⟩ := List.mem_map.1 he
      exact h e' he')
  refine ⟨bs, cs, hes, hmain, ?_, fun t => ?_, hfull⟩
  · by_cases hnil : contents dir' .main = []
    · -- nothing was written to a main file that had nothing
      have hsplit := (ho .main).trans (if_pos rfl)
      rw [hnil] at hsplit
      have hempty := (List.append_eq_nil_iff.1 hsplit.symm).1
      have hsame : ∀ n, contents dir' n = contents dir n := by
        intro n
        by_cases hn : n = .main
        · rw [hn, hnil, hempty]
        · exact (ho n).trans (if_neg hn)
      have he : written d bs = d := by
        have hm := hmain
        rw [mainBars, hsame, ← mainBars, hb.main] at hm
        exact (Option.some.inj hm).symm
      rw [fresh_of_contents hsame, he]
      exact hb.fresh
    · rw [fresh_main hnil, hmain]
      rfl
  · refine crop_over hf.size hb.within (fun t bar h => ?_) (fun t => get_written d bs t) t
    obtain ⟨hm, rfl⟩ := mem_of_lastOf h
    obtain ⟨-, -, -, hb'⟩ := hf.entry (hes ▸ List.mem_append_left _ hm)
    exact mem_of_get hb'

/-- An append that is complete stores the series that was copied. -/
theorem append_stores (hf : FlightOk key s batch b p) (hb : Batched C key d dir b p) (ht : Terminated (contents dir .main))
    (ho : OnlyFile .main (contents dir .main ++ C.text (batch.entries.map (·.kline))) dir dir') : StoredAs C key dir' b := by
  have hwhole : C.text (batch.entries.map (·.kline)) =
      (C.text (batch.entries.map (·.kline))).take (C.text (batch.entries.map (·.kline))).length := List.take_length.symm
  obtain ⟨bs, cs, hes, hmain, hfresh, hget, hfull⟩ := append_shows hf hb ht (hwhole ▸ ho) (.inl hwhole)
  obtain rfl := hfull hwhole
  rw [List.append_nil] at hes
  subst hes
  have hcrop : cropBars (written d (batch.entries.map (·.kline))) = b := by
    refine Std.ExtTreeMap.ext_getElem? fun t => ?_
    rw [hget, hf.lastOf_entries]
    cases hpt : p[t]? with
    | some e => rw [Option.map_some, Option.some_or, hf.taken t e hpt]
    | none =>
      rw [Option.map_none, Option.none_or]
      cases hbt : b[t]? with
      | some bar => exact (hb.covered t bar hbt).resolve_left (get_eq_none.1 hpt)
      | none => exact get_eq_none.2 fun h => get_eq_none.1 hbt (hb.within t h)
  exact ⟨_, hmain, hcrop, hcrop ▸ hfresh⟩

/-- After an append that failed the series is still in step with the file. -/
theorem append_synced {k : ℕ} (hf : FlightOk key s batch b p) (hb : Batched C key d dir b p) (hs : SyncedBy C key d dir s)
    (hm : ¬ mustCompact s) (ht : Terminated (contents dir .main))
    (ho : OnlyFile .main (contents dir .main ++ (C.text (batch.entries.map (·.kline))).take k) dir dir')
    (hv : C.text (batch.entries.map (·.kline)) = (C.text (batch.entries.map (·.kline))).take k ∨
      ∀ e ∈ batch.entries, Plain C e.kline) : ∃ d', SyncedBy C key d' dir' s := by
  obtain ⟨bs, cs, hes, hmain, hfresh, hget, -⟩ := append_shows hf hb ht ho hv
  have hentry : ∀ {t : ℤ} {bar : Kline}, lastOf bs t = some bar → t ∈ p ∧ t ∈ b := by
    intro t bar h
    obtain ⟨hmem, rfl⟩ := mem_of_lastOf h
    obtain ⟨e, he, -, hb'⟩ := hf.entry (hes ▸ List.mem_append_left _ hmem)
    exact ⟨mem_of_get he, mem_of_get hb'⟩
  refine ⟨written d bs, hmain, hfresh, fun t bar hbar => ?_, fun t htm => ?_⟩
  · rw [hget]
    cases hl : lastOf bs t with
    | some bar' => exact .inl (hf.still t (hentry hl).1 (mem_of_get hbar))
    | none => rw [Option.none_or]; exact hs.covered t bar hbar
  · obtain ⟨bar, hbar⟩ := mem_iff_get.1 htm
    rw [hget] at hbar
    cases hl : lastOf bs t with
    | some bar' => exact hf.within (fun r hr => absurd (.inl (Option.isSome_of_mem hr)) hm) t (hentry hl).2
    | none =>
      rw [hl, Option.none_or] at hbar
      exact hs.within t (mem_of_get hbar)

end Append

/-! ## The steps -/

/-- What a step must not run into: a revision at the end of its range, an append to a
main file that does not end its last line, an interrupted append of bars that can be cut
inside a character, and a compaction of an empty series over a sound main or backup
file. -/
def Calm (C : LineCodec Kline) (key : ChartWorkspaceKey) (w : KlineWorld) : KlineAct → Prop
  | .upsert bars => Fresh64 w.series bars.length
  | .write faults _ => ∀ f, w.flight = some f → f.written = false →
      if f.batch.compact then
        f.batch.snapshot = [] → fallbackOf C key w.dir .main = .ok none ∧ fallbackOf C key w.dir .bak = .ok none
      else Terminated (contents w.dir .main) ∧ (faults = [] ∨ ∀ e ∈ f.batch.entries, Plain C e.kline)
  | _ => True

section Steps

variable {batch : FlushBatch} {b : Bars} {p : OrdMap ℤ PendingEntry}

/-- A compaction that is done stores the series that was copied. -/
theorem compact_stores (hf : FlightOk key s batch b p) (hc : Compacted C key batch dir dir')
    (he : batch.snapshot = [] → fallbackOf C key dir .main = .ok none ∧ fallbackOf C key dir .bak = .ok none) :
    StoredAs C key dir' b := by
  have hmain : contents dir' .main = C.text (mapValues b) := hf.snapshot ▸ hc.main
  have hcrop : cropBars b = b := crop_of_size_le hf.size
  refine ⟨b, mainBars_text hf.filed hmain, hcrop, ?_⟩
  by_cases hnil : contents dir' .main = []
  · -- an empty main file counts as missing, so the fallbacks must not be series
    have hempty : batch.snapshot = [] := C.text_eq_nil.1 (hc.main.symm.trans hnil)
    obtain ⟨hm, hb⟩ := he hempty
    have hb' : fallbackOf C key dir' .bak = .ok none := by
      rw [fallbackOf, hc.bak hm]
      exact hb
    have ht' : fallbackOf C key dir' .tmp = .ok none := by
      rw [fallbackOf, hc.tmp]
      rfl
    have hbe : b = ∅ := by
      rw [← written_mapValues hf.filed, ← hf.snapshot, hempty]
      rfl
    rw [fresh_none hnil ht' hb', hbe]
  · rw [fresh_main hnil, mainBars_text hf.filed hmain, Option.map_some, hcrop]

/-- The invariant once the directory has changed and the flush is over or written. -/
theorem KlineOk.write (h : KlineOk C key w) {f : Flight} (hf : w.flight = some f) (hw : f.written = false)
    {faults restore : List Fault} (hcalm : Calm C key w (.write faults restore)) :
    KlineOk C key (w.writeBatch C key f.batch faults restore) := by
  obtain ⟨b, p, hfl, hstage⟩ := h.flight f hf
  rw [hw] at hstage
  have hl : w.series.loaded = true := by
    by_contra hn
    rw [(h.unloaded (Bool.eq_false_iff.2 hn)).2] at hf
    cases hf
  have hc := hcalm f hf hw
  -- a write that went through
  have hok : ∀ d, StoredAs C key d b → KlineOk C key { w with dir := d, flight := some ⟨f.batch, true⟩ } := by
    intro d hd
    refine ⟨fun hn => ?_, h.series, fun _ hm => ?_, fun f' hf' => ?_⟩
    · rw [show w.series.loaded = true from hl] at hn; cases hn
    · obtain ⟨m, hm', hcrop, hfresh⟩ := hd
      refine ⟨m, hm', hcrop ▸ hfresh, fun t bar ht => ?_, fun t ht => ?_⟩
      · rcases hfl.current t bar ht with ⟨e, he, -⟩ | hb
        · exact .inl (mem_of_get he)
        · exact .inr (by rw [hcrop]; exact hb)
      · rw [hcrop] at ht
        exact hfl.within (fun r hr => absurd (.inl (Option.isSome_of_mem hr)) hm) t ht
    · obtain rfl := Option.some.inj hf'
      exact ⟨b, p, hfl, hd⟩
  -- one that failed
  have herr : ∀ d, (¬ mustCompact w.series → ∃ m, SyncedBy C key m d w.series) →
      KlineOk C key { w with dir := d, flight := none } := by
    intro d hd
    refine ⟨fun hn => ?_, h.series, fun _ hm => hd hm, (fun _ hf' => nomatch hf')⟩
    rw [show w.series.loaded = true from hl] at hn
    cases hn
  unfold KlineWorld.writeBatch
  cases hcomp : f.batch.compact with
  | true =>
    rw [hcomp, if_pos rfl] at hc
    have hwp : wp (compactBatch C key f.batch restore) _ _ _ w.dir := wp_compactBatch f.batch restore
    have hspec := hwp faults
    rw [if_pos rfl]
    cases hrun : compactBatch C key f.batch restore w.dir faults with
    | ok u d rest =>
      rw [hrun] at hspec
      exact hok d (compact_stores hfl hspec hc)
    | err e d rest => exact herr d fun hm => absurd (hfl.must hcomp) hm
    | crashed d => exact klineOk_open d
  | false =>
    rw [hcomp, if_neg Bool.false_ne_true] at hc
    obtain ⟨m, hm⟩ := hstage hcomp
    have hwp : wp (appendBatch C f.batch) _ _ _ w.dir := wp_appendBatch f.batch
    have hspec := hwp faults
    rw [if_neg Bool.false_ne_true]
    cases hrun : appendBatch C f.batch w.dir faults with
    | ok u d rest =>
      rw [hrun] at hspec
      exact hok d (append_stores hfl hm hc.1 hspec)
    | err e d rest =>
      rw [hrun] at hspec
      obtain ⟨k, hk⟩ := hspec
      refine herr d fun hmust => ?_
      obtain ⟨m', hs⟩ := h.synced hl hmust
      obtain rfl : m = m' := Option.some.inj (hm.main.symm.trans hs.main)
      refine append_synced hfl hm hs hmust hc.1 hk (.inr (hc.2.resolve_left fun hnil => ?_))
      -- without faults an append goes through
      subst hnil
      obtain ⟨d', hd'⟩ : ∃ d', appendBatch C f.batch w.dir [] = .ok () d' [] := appendBatch_run f.batch
      rw [hd'] at hrun
      cases hrun
    | crashed d => exact klineOk_open d

/-- The invariant once a written flush is acknowledged. -/
theorem KlineOk.acknowledge (h : KlineOk C key w) {batch : FlushBatch} (hf : w.flight = some ⟨batch, true⟩) :
    KlineOk C key { w with series := w.series.acknowledgeFlush batch, flight := none } := by
  obtain ⟨b, p, hfl, d, hd, hcrop, hfresh⟩ := h.flight _ hf
  -- what an acknowledgement changes of the series:
  have hl : w.series.loaded = true := by
    by_contra hn
    rw [(h.unloaded (Bool.eq_false_iff.2 hn)).2] at hf
    cases hf
  have hbars : (w.series.acknowledgeFlush batch).bars = w.series.bars := by
    unfold BufferedSeries.acknowledgeFlush; split <;> rfl
  have hrev : (w.series.acknowledgeFlush batch).revision = w.series.revision := by
    unfold BufferedSeries.acknowledgeFlush; split <;> rfl
  have hload : (w.series.acknowledgeFlush batch).loaded = w.series.loaded := by
    unfold BufferedSeries.acknowledgeFlush; split <;> rfl
  have hpend : ∀ t : ℤ, (w.series.acknowledgeFlush batch).pending[t]? =
      w.series.pending[t]?.filter fun e => batch.snapshotRevision < e.revision := by
    intro t
    unfold BufferedSeries.acknowledgeFlush
    split <;> exact get_filter _ _ t
  have hflag : (w.series.acknowledgeFlush batch).compactionRevision =
      if batch.compact then w.series.compactionRevision.filter fun r => batch.snapshotRevision < r
      else w.series.compactionRevision := by
    unfold BufferedSeries.acknowledgeFlush; split <;> rfl
  have hsub : ∀ r ∈ (w.series.acknowledgeFlush batch).compactionRevision, r ∈ w.series.compactionRevision := by
    intro r hr
    rw [hflag] at hr
    split at hr
    · exact (Option.filter_eq_some_iff.1 hr).1
    · exact hr
  refine ⟨fun hn => ?_, ⟨?_, ?_, fun t e he => ?_, fun r hr => ?_, ?_⟩, fun _ hm => ?_, (fun _ hf' => nomatch hf')⟩
  · rw [show (w.series.acknowledgeFlush batch).loaded = true from hload.trans hl] at hn; cases hn
  · rw [hbars]; exact h.series.filed
  · rw [hbars]; exact h.series.size
  · rw [hpend] at he
    rw [hbars, hrev]
    exact h.series.pending t e (Option.filter_eq_some_iff.1 he).1
  · rw [hrev]; exact h.series.flag r (hsub r hr)
  · cases hcomp : batch.compact with
    | true =>
      refine .inr ?_
      show (w.series.acknowledgeFlush batch).physicalRecords ≤ _
      have hphys : (w.series.acknowledgeFlush batch).physicalRecords = b.size := by
        unfold BufferedSeries.acknowledgeFlush
        rw [hcomp, if_pos rfl]
        show batch.snapshot.length = _
        rw [hfl.snapshot, length_mapValues]
      rw [hphys]
      exact hfl.size.trans (by unfold maxStoredBars compactPhysicalRecords; omega)
    | false =>
      refine .inr ?_
      have hphys : (w.series.acknowledgeFlush batch).physicalRecords = w.series.physicalRecords + batch.entries.length := by
        unfold BufferedSeries.acknowledgeFlush
        rw [hcomp, if_neg Bool.false_ne_true]
      rw [hphys]
      exact hfl.room hcomp
  · -- the directory holds the copy, and what differs from it is still pending
    have hnone : ∀ r ∈ w.series.compactionRevision, r ≤ batch.snapshotRevision := by
      intro r hr
      by_contra hlt
      refine hm (.inl (Option.isSome_iff_exists.2 ⟨r, ?_⟩))
      show (w.series.acknowledgeFlush batch).compactionRevision = some r
      rw [hflag]
      split
      · exact Option.filter_eq_some_iff.2 ⟨hr, by simpa using hlt⟩
      · exact hr
    refine ⟨d, hd, hcrop ▸ hfresh, fun t bar ht => ?_, fun t ht => ?_⟩
    · rw [hbars] at ht
      rcases hfl.current t bar ht with ⟨e, he, hlt⟩ | hb
      · refine .inl (mem_of_get (v := e) ?_)
        rw [hpend, he]
        exact Option.filter_eq_some_iff.2 ⟨rfl, by simpa using hlt⟩
      · exact .inr (by rw [hcrop]; exact hb)
    · rw [hcrop] at ht
      rw [hbars]
      exact hfl.within hnone t ht

/-- **Every calm step keeps the invariant.** -/
theorem KlineOk.step (h : KlineOk C key w) {a : KlineAct} (ha : Calm C key w a) : KlineOk C key (w.step C key a) := by
  cases a with
  | load => exact h.load
  | upsert bars =>
    simp only [KlineWorld.step]
    split
    · rename_i hl
      split
      · rename_i s' result hok
        exact h.upsert hl (upserted_of_ok h.series ha hok)
      · exact h
    · exact h
  | prepare => exact h.prepare
  | write faults restore =>
    simp only [KlineWorld.step]
    split
    · rename_i batch hf
      exact h.write hf rfl ha
    · exact h
  | acknowledge =>
    simp only [KlineWorld.step]
    split
    · rename_i batch hf
      exact h.acknowledge hf
    · exact h
  | restart => exact klineOk_open w.dir

/-- The invariant of a calm run, on any directory. -/
theorem klineOk_run (dir : KlineDir) (as : List KlineAct)
    (h : Along (KlineWorld.step C key) (Calm C key) (.open dir) as) : KlineOk C key (run (KlineWorld.step C key) (.open dir) as) :=
  run_inv_along (fun _ _ hw ha => hw.step ha) as _ (klineOk_open dir) h

end Steps

end EasiFlux
