import EasiFlux.Proof.KlineBuffer

/-!
# What the kline buffer holds and returns

A store loads the series of a key, and batches of bars are upserted. What it then holds is
known without the maps (`heldAfter`): each batch is written bar by bar, the last one of a time
wins, and the newest `maxStoredBars` times are kept.

* `Contents.upsert`: one batch.
* **`buffer_contents`**: every sequence of batches, what the next call answers, and what
  `load_range` reads. A range that ends before it starts is an error, not an empty answer.
-/

namespace EasiFlux

open CrashIo Newest Steps

variable {C : LineCodec Kline} {key : ChartWorkspaceKey}

/-! ## The specification -/

/-- What is held at a time. -/
abbrev HeldBars := ℤ → Option Kline

/-- The bar is one of the key. -/
def ChartWorkspaceKey.owns (key : ChartWorkspaceKey) (bar : Kline) : Prop :=
  bar.symbol = key.symbol ∧ bar.interval = key.interval

instance (bar : Kline) : Decidable (key.owns bar) := inferInstanceAs (Decidable (_ ∧ _))

/-- A bar of a positive time is written over what is held. -/
def write (held : HeldBars) (bar : Kline) : HeldBars :=
  if 0 < bar.openTime then Function.update held bar.openTime (some bar) else held

def writeAllOver (held : HeldBars) (bars : List Kline) : HeldBars := bars.foldl write held

/-- A batch with a foreign bar changes nothing. -/
noncomputable def heldStep (key : ChartWorkspaceKey) (held : HeldBars) (bars : List Kline) : HeldBars :=
  if ∀ bar ∈ bars, key.owns bar then newest maxStoredBars (writeAllOver held bars) else held

/-- What is held after the batches. -/
noncomputable def heldAfter (key : ChartWorkspaceKey) (held : HeldBars) (batches : List (List Kline)) : HeldBars :=
  run (heldStep key) held batches

/-- Some accepted bar of the batch is not the one held at that moment. -/
def Differs (held : HeldBars) (bars : List Kline) : Prop :=
  ∃ before bar rest, bars = before ++ bar :: rest ∧ 0 < bar.openTime ∧ writeAllOver held before bar.openTime ≠ some bar

/-- What is held in the range. -/
def within (held : HeldBars) («from» «to» : Option ℤ) : HeldBars := fun t =>
  if «from».getD (-2 ^ 63) ≤ t ∧ t ≤ «to».getD (2 ^ 63 - 1) then held t else none

/-- The newest bars of the range, ascending. -/
structure RangeOf (held : HeldBars) («from» «to» : Option ℤ) (limit : ℕ) (bars : List Kline) : Prop where
  sorted : bars.Pairwise fun a b => a.openTime < b.openTime
  mem : ∀ bar, bar ∈ bars ↔ newest (min (max limit 1) maxStoredBars) (within held «from» «to») bar.openTime = some bar

/-- The series is what is held, and waits to be written only in part. -/
structure Contents (held : HeldBars) (s : BufferedSeries) : Prop where
  bars : ∀ t, s.bars[t]? = held t
  filed : ∀ t bar, held t = some bar → bar.openTime = t
  pending : ∀ (t : ℤ) (p : PendingEntry), s.pending[t]? = some p → held t = some p.kline

/-- What the next batch is answered. -/
structure UpsertAnswers (key : ChartWorkspaceKey) (held : HeldBars) (s : BufferedSeries) (bars : List Kline) : Prop where
  foreign : (∃ bar ∈ bars, ¬key.owns bar) → ∃ e, s.upsertBars key bars = .error e
  own : (∀ bar ∈ bars, key.owns bar) → ∃ s' result, s.upsertBars key bars = .ok (s', result) ∧
    (result.changed = true ↔ Differs held bars)

/-- What `load_range` reads. -/
structure RangeAnswers (held : HeldBars) (s : BufferedSeries) («from» «to» : Option ℤ) (limit : ℕ) : Prop where
  empty : (∃ a ∈ «from», ∃ b ∈ «to», b < a) → ∃ e, s.loadRange «from» «to» limit = .error e
  range : (∀ a ∈ «from», ∀ b ∈ «to», a ≤ b) → ∃ bars, s.loadRange «from» «to» limit = .ok bars ∧
    RangeOf held «from» «to» limit bars

/-! ## One batch -/

section Upsert

variable {held : HeldBars} {s : BufferedSeries} {sc : BufferedSeries × Bool} {bars : List Kline} {bar : Kline}

theorem write_apply (held : HeldBars) (bar : Kline) (t : ℤ) :
    write held bar t = if 0 < bar.openTime ∧ bar.openTime = t then some bar else held t := by
  unfold write
  by_cases hpos : 0 < bar.openTime
  · rw [if_pos hpos]
    by_cases ht : bar.openTime = t
    · rw [if_pos ⟨hpos, ht⟩, ht, Function.update_self]
    · rw [if_neg fun h => ht h.2, Function.update_of_ne (Ne.symm ht)]
  · rw [if_neg hpos, if_neg fun h => hpos h.1]

/-- One bar, before the crop. -/
theorem Contents.upsertBar (h : Contents held sc.1) (bar : Kline) :
    Contents (write held bar) (BufferedSeries.upsertBar sc bar).1 := by
  unfold BufferedSeries.upsertBar
  split
  · rename_i hskip
    have hsame : write held bar = held := by
      funext t
      rw [write_apply]
      split
      · rename_i ht
        rcases hskip with hneg | hheld
        · omega
        · rw [← hheld, h.bars, ht.2]
      · rfl
    rwa [hsame]
  · rename_i hnew
    push Not at hnew
    refine ⟨fun t => ?_, fun t b hb => ?_, fun t p hp => ?_⟩
    · change (sc.1.bars.insert bar.openTime bar)[t]? = _
      rw [get_insert, write_apply, h.bars]
      simp only [hnew.1, true_and]
    · rw [write_apply] at hb
      split at hb
      · rename_i ht
        obtain rfl := Option.some.inj hb
        exact ht.2
      · exact h.filed t b hb
    · change (sc.1.pending.insert bar.openTime ⟨bar, sc.1.nextRevision⟩)[t]? = _ at hp
      rw [get_insert] at hp
      rw [write_apply]
      split at hp
      · rename_i ht
        rw [if_pos ⟨hnew.1, ht⟩, ← Option.some.inj hp]
      · rename_i ht
        rw [if_neg fun h => ht h.2]
        exact h.pending t p hp

theorem upsertBar_changed (h : Contents held sc.1) (bar : Kline) :
    (BufferedSeries.upsertBar sc bar).2 = true ↔ sc.2 = true ∨ 0 < bar.openTime ∧ held bar.openTime ≠ some bar := by
  unfold BufferedSeries.upsertBar
  rw [h.bars]
  split
  · rename_i hskip
    refine ⟨.inl, fun hc => hc.elim id fun hnew => ?_⟩
    rcases hskip with hneg | hheld
    · omega
    · exact absurd hheld hnew.2
  · rename_i hnew
    push Not at hnew
    exact ⟨fun _ => .inr hnew, fun _ => rfl⟩

theorem differs_cons : Differs held (bar :: bars) ↔
    (0 < bar.openTime ∧ held bar.openTime ≠ some bar) ∨ Differs (write held bar) bars := by
  constructor
  · rintro ⟨before, b, rest, hb, hpos, hne⟩
    cases before with
    | nil =>
      obtain ⟨rfl, -⟩ := List.cons.inj hb
      exact .inl ⟨hpos, hne⟩
    | cons c before =>
      obtain ⟨rfl, htail⟩ := List.cons.inj hb
      exact .inr ⟨before, b, rest, htail, hpos, hne⟩
  · rintro (⟨hpos, hne⟩ | ⟨before, b, rest, rfl, hpos, hne⟩)
    · exact ⟨[], bar, bars, rfl, hpos, hne⟩
    · exact ⟨bar :: before, b, rest, rfl, hpos, hne⟩

/-- A batch, before the crop. -/
theorem Contents.foldl (sc : BufferedSeries × Bool) (h : Contents held sc.1) (bars : List Kline) :
    Contents (writeAllOver held bars) (bars.foldl BufferedSeries.upsertBar sc).1 ∧
      ((bars.foldl BufferedSeries.upsertBar sc).2 = true ↔ sc.2 = true ∨ Differs held bars) := by
  induction bars generalizing held sc with
  | nil =>
    have hnone : ¬Differs held [] := by
      rintro ⟨before, bar, rest, hb, -⟩
      simp at hb
    exact ⟨h, by simp [hnone]⟩
  | cons bar bars ih =>
    have hstep := ih _ (h.upsertBar bar)
    refine ⟨hstep.1, ?_⟩
    rw [List.foldl_cons, hstep.2, upsertBar_changed h, differs_cons, or_assoc]

/-- The crop keeps the newest, and forgets what waits of the others. -/
theorem Contents.crop (h : Contents held s) : Contents (newest maxStoredBars held) s.cropSeries := by
  have hcrop : ∀ t, (Newest.crop maxStoredBars s.bars)[t]? = newest maxStoredBars held t := by
    intro t
    rw [crop_newest]
    simp only [h.bars]
  have hfiled : ∀ t bar, newest maxStoredBars held t = some bar → bar.openTime = t := by
    intro t bar hbar
    rw [← hcrop] at hbar
    exact h.filed t bar (h.bars t ▸ get_of_crop hbar)
  unfold BufferedSeries.cropSeries
  split
  · obtain ⟨hb, hp, -, -, -, -⟩ :=
      evict_iterate { s with compactionRevision := some s.revision } (s.bars.size - maxStoredBars)
    have hb : _ = Newest.crop maxStoredBars s.bars := hb
    have hp : ∀ t, _ = if t ∈ s.bars ∧ t ∉ Newest.crop maxStoredBars s.bars then none else s.pending[t]? := hp
    refine ⟨fun t => by rw [hb, hcrop], hfiled, fun t p hpt => ?_⟩
    rw [hp] at hpt
    split at hpt
    · cases hpt
    · rename_i hin
      have hheld := h.pending t p hpt
      rw [← h.bars] at hheld
      have hkept : t ∈ Newest.crop maxStoredBars s.bars := by
        by_contra hn
        exact hin ⟨mem_of_get hheld, hn⟩
      rw [← hcrop, get_crop hkept, hheld]
  · rename_i hfit
    have hall : Newest.crop maxStoredBars s.bars = s.bars := crop_of_size_le (not_lt.1 hfit)
    refine ⟨fun t => by rw [← hcrop, hall], hfiled, fun t p hpt => ?_⟩
    rw [← hcrop, hall, h.bars]
    exact h.pending t p hpt

theorem loaded_foldl (bars : List Kline) (sc : BufferedSeries × Bool) :
    (bars.foldl BufferedSeries.upsertBar sc).1.loaded = sc.1.loaded := by
  induction bars generalizing sc with
  | nil => rfl
  | cons bar bars ih =>
    rw [List.foldl_cons, ih]
    unfold BufferedSeries.upsertBar
    split <;> rfl

theorem loaded_crop (s : BufferedSeries) : s.cropSeries.loaded = s.loaded := by
  unfold BufferedSeries.cropSeries
  split
  · exact (evict_iterate { s with compactionRevision := some s.revision } _).2.2.2.1
  · rfl

theorem upsertBars_foreign (hbars : ∃ bar ∈ bars, ¬key.owns bar) : ∃ e, s.upsertBars key bars = .error e := by
  obtain ⟨bar, hmem, hforeign⟩ := hbars
  have hany : bars.any (fun bar => bar.symbol ≠ key.symbol || bar.interval ≠ key.interval) = true := by
    refine List.any_eq_true.2 ⟨bar, hmem, ?_⟩
    unfold ChartWorkspaceKey.owns at hforeign
    rw [not_and_or] at hforeign
    simpa using hforeign
  unfold BufferedSeries.upsertBars
  rw [if_pos hany]
  exact ⟨_, rfl⟩

theorem upsertBars_own (hbars : ∀ bar ∈ bars, key.owns bar) : s.upsertBars key bars =
    .ok ((bars.foldl BufferedSeries.upsertBar (s, false)).1.cropSeries,
      ⟨(bars.foldl BufferedSeries.upsertBar (s, false)).1.cropSeries.revision,
        (bars.foldl BufferedSeries.upsertBar (s, false)).2⟩) := by
  have hany : ¬bars.any (fun bar => bar.symbol ≠ key.symbol || bar.interval ≠ key.interval) = true := by
    intro h
    obtain ⟨bar, hmem, hforeign⟩ := List.any_eq_true.1 h
    have hown := hbars bar hmem
    simp [hown.1, hown.2] at hforeign
  unfold BufferedSeries.upsertBars
  rw [if_neg hany]

theorem Contents.answers (h : Contents held s) (bars : List Kline) : UpsertAnswers key held s bars := by
  refine ⟨upsertBars_foreign, fun hown => ⟨_, _, upsertBars_own hown, ?_⟩⟩
  have hchanged := (Contents.foldl (s, false) h bars).2
  simpa using hchanged

/-- The batch as a step of the store. -/
theorem Contents.upsert {w : KlineWorld} (h : Contents held w.series) (hl : w.series.loaded = true) (bars : List Kline) :
    Contents (heldStep key held bars) (w.step C key (.upsert bars)).series ∧
      (w.step C key (.upsert bars)).series.loaded = true := by
  unfold heldStep KlineWorld.step
  simp only [hl, if_true]
  by_cases hown : ∀ bar ∈ bars, key.owns bar
  · rw [if_pos hown, upsertBars_own hown]
    refine ⟨(Contents.foldl (w.series, false) h bars).1.crop, ?_⟩
    exact (loaded_crop _).trans ((loaded_foldl bars _).trans hl)
  · rw [if_neg hown]
    push Not at hown
    obtain ⟨e, he⟩ := upsertBars_foreign (s := w.series) hown
    rw [he]
    exact ⟨h, hl⟩

end Upsert

/-! ## Reading a range -/

section Range

variable {held : HeldBars} {s : BufferedSeries}

theorem keys_sorted {β : Type} (m : OrdMap ℤ β) : (m.toList.map Prod.fst).Pairwise (· < ·) := by
  rw [List.pairwise_map]
  exact Std.ExtTreeMap.ordered_keys_toList.imp fun h => compare_lt_iff_lt.1 h

theorem Contents.range (h : Contents held s) («from» «to» : Option ℤ) (limit : ℕ) :
    RangeAnswers held s «from» «to» limit := by
  refine ⟨fun hbad => ?_, fun hgood => ?_⟩
  · obtain ⟨a, ha, b, hb, hlt⟩ := hbad
    have hany : («from».any fun a => «to».any fun b => decide (b < a)) = true := by
      rw [Option.mem_def.1 ha, Option.mem_def.1 hb]
      simpa using hlt
    unfold BufferedSeries.loadRange
    rw [if_pos hany]
    exact ⟨_, rfl⟩
  · have hany : ¬(«from».any fun a => «to».any fun b => decide (b < a)) = true := by
      cases ha : «from» with
      | none => simp
      | some a =>
        cases hb : «to» with
        | none => simp
        | some b => simpa using hgood a ha b hb
    let p := fun e : ℤ × Kline => decide («from».getD (-2 ^ 63) ≤ e.1) && decide (e.1 ≤ «to».getD (2 ^ 63 - 1))
    let es := s.bars.toList.filter p
    let n := min (max limit 1) maxStoredBars
    have hload : s.loadRange «from» «to» limit = .ok ((es.drop (es.length - n)).map Prod.snd) := by
      unfold BufferedSeries.loadRange
      rw [if_neg hany]
      show Except.ok (if n < (es.map Prod.snd).length then (es.map Prod.snd).drop ((es.map Prod.snd).length - n) else
        es.map Prod.snd) = _
      rw [List.length_map, List.map_drop]
      split
      · rfl
      · rename_i hfew
        rw [Nat.sub_eq_zero_of_le (not_lt.1 hfew), List.drop_zero]
    have hsorted : (es.map Prod.fst).Pairwise (· < ·) := by
      rw [List.pairwise_map]
      exact (List.pairwise_map.1 (keys_sorted s.bars)).filter _
    have hes : ∀ t bar, within held «from» «to» t = some bar ↔ (t, bar) ∈ es := by
      intro t bar
      simp only [es, p, within, List.mem_filter, Std.ExtTreeMap.mem_toList_iff_getElem?_eq_some, h.bars,
        Bool.and_eq_true, decide_eq_true_eq]
      split
      · rename_i hin
        exact ⟨fun hb => ⟨hb, hin⟩, And.left⟩
      · rename_i hout
        exact ⟨nofun, fun hb => absurd hb.2 hout⟩
    -- a bar stands under its own time
    have htime : ∀ e ∈ es, e.2.openTime = e.1 := by
      intro e he
      have hheld := (List.mem_filter.1 he).1
      rw [Std.ExtTreeMap.mem_toList_iff_getElem?_eq_some, h.bars] at hheld
      exact h.filed e.1 e.2 hheld
    refine ⟨_, hload, ?_, fun bar => ?_⟩
    · have hdrop := List.Pairwise.drop (i := es.length - n) (List.pairwise_map.1 hsorted)
      rw [List.pairwise_map]
      refine hdrop.imp_of_mem fun ha hb hlt => ?_
      rw [htime _ (List.mem_of_mem_drop ha), htime _ (List.mem_of_mem_drop hb)]
      exact hlt
    · rw [← mem_drop_newest hsorted hes n bar.openTime bar, List.mem_map]
      constructor
      · rintro ⟨e, he, rfl⟩
        rw [htime e (List.mem_of_mem_drop he)]
        exact he
      · intro he
        exact ⟨_, he, rfl⟩

end Range

/-! ## Every sequence of batches -/

section Runs

variable {dir : KlineDir} {bars : Bars}

theorem contents_loaded (hf : KlineWorld.fresh C key dir = some bars) :
    Contents (fun t => bars[t]?) ((KlineWorld.open dir).step C key .load).series ∧
      ((KlineWorld.open dir).step C key .load).series.loaded = true := by
  unfold KlineWorld.fresh at hf
  cases hload : loadFromDisk C key dir [] with
  | ok loaded dir' fs =>
    rw [hload] at hf
    obtain rfl := Option.some.inj hf
    have hfiled := (loadFromDisk_ok hload).1
    have hstep : (KlineWorld.open dir).step C key .load = (KlineWorld.open dir).ensureLoaded C key := rfl
    rw [hstep]
    unfold KlineWorld.ensureLoaded
    rw [if_neg (by exact Bool.false_ne_true)]
    simp only [show (KlineWorld.open dir).dir = dir from rfl, hload]
    refine ⟨⟨fun t => rfl, fun t bar hbar => (hfiled t bar hbar).1, fun t p hp => ?_⟩, trivial⟩
    change (∅ : OrdMap ℤ PendingEntry)[t]? = some p at hp
    simp at hp
  | err e dir' fs => rw [hload] at hf; cases hf
  | crashed dir' => rw [hload] at hf; cases hf

/-- The store that has loaded the directory, after the batches. -/
def upserted (C : LineCodec Kline) (key : ChartWorkspaceKey) (dir : KlineDir) (batches : List (List Kline)) : KlineWorld :=
  run (KlineWorld.step C key) (.open dir) (.load :: batches.map .upsert)

theorem contents_upserted (hf : KlineWorld.fresh C key dir = some bars) (batches : List (List Kline)) :
    Contents (heldAfter key (fun t => bars[t]?) batches) (upserted C key dir batches).series ∧
      (upserted C key dir batches).series.loaded = true := by
  induction batches using List.reverseRecOn with
  | nil => exact contents_loaded hf
  | append_singleton batches batch ih =>
    have hheld : heldAfter key (fun t => bars[t]?) (batches ++ [batch]) =
        heldStep key (heldAfter key (fun t => bars[t]?) batches) batch := run_append _ _ _ _
    have hrun : upserted C key dir (batches ++ [batch]) = (upserted C key dir batches).step C key (.upsert batch) := by
      unfold upserted
      rw [List.map_append, ← List.cons_append, run_append]
      rfl
    rw [hheld, hrun]
    exact ih.1.upsert ih.2 batch

/-- **What the buffer holds** after any batches on a freshly loaded store: what was written last,
cropped after each batch; what the next batch is answered; and what a range reads. -/
theorem buffer_contents (C : LineCodec Kline) (key : ChartWorkspaceKey) (dir : KlineDir) (bars : Bars)
    (hf : KlineWorld.fresh C key dir = some bars) (batches : List (List Kline)) :
    let held := heldAfter key (fun t => bars[t]?) batches
    let s := (upserted C key dir batches).series
    Contents held s ∧ (∀ batch, UpsertAnswers key held s batch) ∧
      ∀ «from» «to» limit, RangeAnswers held s «from» «to» limit := by
  intro held s
  have h := (contents_upserted hf batches).1
  exact ⟨h, h.answers, h.range⟩

/-- A range that ends before it starts is not read as an empty one. -/
theorem range_start_exceeds_end : ¬∀ («from» «to» : Option ℤ) (limit : ℕ), ∃ bars,
    (upserted klineCodec btcKey emptyDir []).series.loadRange «from» «to» limit = .ok bars ∧
      RangeOf (heldAfter btcKey (fun _ => none) []) «from» «to» limit bars := by
  intro h
  obtain ⟨bars, hload, -⟩ := h (some 5) (some 3) 1
  unfold BufferedSeries.loadRange at hload
  rw [if_pos (by decide)] at hload
  cases hload

/-- Two bars, and another value of the second one: it is what is held, and the range from it has
it alone; the same value again changes nothing. -/
theorem buffer_contents_closed :
    let held := heldAfter btcKey (fun t => (∅ : Bars)[t]?) [[btcBar 1, btcBar 2], [closedBar]]
    let s := (upserted klineCodec btcKey emptyDir [[btcBar 1, btcBar 2], [closedBar]]).series
    Contents held s ∧ s.bars.toList = [(1, btcBar 1), (2, closedBar)] ∧
      RangeOf held (some 2) (some 9) 5 [closedBar] ∧
      ∃ s' result, s.upsertBars btcKey [closedBar] = .ok (s', result) ∧ result.changed = false ∧ ¬Differs held [closedBar] := by
  intro held s
  have hf : KlineWorld.fresh klineCodec btcKey emptyDir = some ∅ := by
    unfold KlineWorld.fresh
    rw [emptyDir_loaded]
  obtain ⟨hcontents, hupsert, hrange⟩ := buffer_contents klineCodec btcKey emptyDir ∅ hf [[btcBar 1, btcBar 2], [closedBar]]
  refine ⟨hcontents, by decide +kernel, ?_, ?_⟩
  · obtain ⟨bars, hload, hbars⟩ := (hrange (some 2) (some 9) 5).range (by decide)
    have hone : (s.loadRange (some 2) (some 9) 5).toOption = some [closedBar] := by decide +kernel
    rw [show s.loadRange (some 2) (some 9) 5 = .ok bars from hload] at hone
    cases hone
    exact hbars
  · obtain ⟨s', result, hup, hiff⟩ := (hupsert [closedBar]).own (by decide)
    have hsame : (s.upsertBars btcKey [closedBar]).toOption.map (·.2.changed) = some false := by decide +kernel
    rw [show s.upsertBars btcKey [closedBar] = .ok (s', result) from hup] at hsame
    have hchanged : result.changed = false := Option.some.inj hsame
    exact ⟨s', result, hup, hchanged, fun hdiffers => Bool.false_ne_true (hchanged.symm.trans (hiff.2 hdiffers))⟩

end Runs

end EasiFlux
