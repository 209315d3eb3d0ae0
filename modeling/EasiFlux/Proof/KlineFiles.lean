import EasiFlux.Model.Klines
import EasiFlux.Lib.Results

/-!
# The files of a kline series

What a store loads depends on the contents of its three files alone (`fresh_main`,
`fresh_tmp`, `fresh_none`). An append adds lines to the main file, or a part of them
(`wp_appendBatch`); a compaction ends with the new main file, or stops where the old
main file is untouched, retired, or half restored (`wp_compactBatch`).
-/

namespace EasiFlux

open CrashIo Newest Results

variable {C : LineCodec Kline} {key : ChartWorkspaceKey}

/-! ## Lines of bars -/

/-- Every bar is under its time and belongs to the key. -/
def Filed (key : ChartWorkspaceKey) (bars : Bars) : Prop :=
  ∀ t bar, bars[t]? = some bar → bar.openTime = t ∧ key.accepts bar = true

theorem filed_empty : Filed key ∅ := fun _ _ h => by simp at h

theorem Filed.insert {bars : Bars} {bar : Kline} (h : Filed key bars) (hb : key.accepts bar = true) :
    Filed key (bars.insert bar.openTime bar) := by
  intro t b ht
  rw [get_insert] at ht
  split at ht
  · rename_i he
    obtain rfl := Option.some.inj ht
    exact ⟨he, hb⟩
  · exact h t b ht

/-- The bars written over a series, in order. -/
def written (bars : Bars) (bs : List Kline) : Bars := bs.foldl (fun m bar => m.insert bar.openTime bar) bars

/-- The last bar of a time. -/
def lastOf (bs : List Kline) (t : ℤ) : Option Kline := bs.reverse.find? fun bar => bar.openTime = t

theorem get_written (bars : Bars) (bs : List Kline) (t : ℤ) : (written bars bs)[t]? = (lastOf bs t).or bars[t]? := by
  induction bs generalizing bars with
  | nil => rfl
  | cons b bs ih =>
    rw [written, List.foldl_cons, ← written, ih, get_insert, lastOf, lastOf, List.reverse_cons, List.find?_append]
    cases h : bs.reverse.find? fun bar => bar.openTime = t with
    | some x => rfl
    | none =>
      by_cases ht : b.openTime = t
      · simp [ht]
      · simp [ht]

theorem mem_of_lastOf {bs : List Kline} {t : ℤ} {bar : Kline} (h : lastOf bs t = some bar) : bar ∈ bs ∧ bar.openTime = t :=
  ⟨List.mem_reverse.1 (List.mem_of_find?_eq_some h), by simpa using List.find?_some h⟩

theorem lastOf_unique {bs : List Kline} {t : ℤ} {bar : Kline} (hm : bar ∈ bs) (ht : bar.openTime = t)
    (hu : ∀ b ∈ bs, b.openTime = t → b = bar) : lastOf bs t = some bar := by
  cases h : lastOf bs t with
  | none =>
    have := List.find?_eq_none.1 h bar (List.mem_reverse.2 hm)
    simp [ht] at this
  | some b =>
    obtain ⟨hb, htb⟩ := mem_of_lastOf h
    rw [hu b hb htb]

theorem mem_mapValues {β : Type} {m : OrdMap ℤ β} {v : β} : v ∈ mapValues m ↔ ∃ t : ℤ, m[t]? = some v := by
  simp only [mapValues, List.mem_map, Prod.exists, exists_eq_right, Std.ExtTreeMap.mem_toList_iff_getElem?_eq_some]

theorem length_mapValues {β : Type} (m : OrdMap ℤ β) : (mapValues m).length = m.size := by
  rw [mapValues, List.length_map, Std.ExtTreeMap.length_toList]

/-- The values of a series, as lines, are the series. -/
theorem lastOf_mapValues {s : Bars} (hs : Filed key s) (t : ℤ) : lastOf (mapValues s) t = s[t]? := by
  cases h : s[t]? with
  | some bar =>
    refine lastOf_unique (mem_mapValues.2 ⟨t, h⟩) (hs t bar h).1 fun b hb htb => ?_
    obtain ⟨t', ht'⟩ := mem_mapValues.1 hb
    obtain rfl : t' = t := (hs t' b ht').1.symm.trans htb
    exact Option.some.inj (ht'.symm.trans h)
  | none =>
    cases hl : lastOf (mapValues s) t with
    | none => rfl
    | some b =>
      obtain ⟨hb, htb⟩ := mem_of_lastOf hl
      obtain ⟨t', ht'⟩ := mem_mapValues.1 hb
      obtain rfl : t' = t := (hs t' b ht').1.symm.trans htb
      rw [ht'] at h
      cases h

theorem written_mapValues {s : Bars} (hs : Filed key s) : written ∅ (mapValues s) = s := by
  refine Std.ExtTreeMap.ext_getElem? fun t => ?_
  rw [get_written, lastOf_mapValues hs]
  simp

/-! ## Reading them -/

theorem parseMain_append (xs ys : List Bytes) (bars : Bars) (n : ℕ) :
    parseMain C key (xs ++ ys) bars n = (parseMain C key xs bars n >>= fun p => parseMain C key ys p.1 p.2) := by
  induction xs generalizing bars n with
  | nil => rfl
  | cons x xs ih =>
    simp only [List.cons_append, parseMain]
    cases C.decode x with
    | invalid => rfl
    | blank => exact ih ..
    | corrupt => exact ih ..
    | record bar => exact ih ..

theorem parseMain_encode {bs : List Kline} (hb : ∀ b ∈ bs, key.accepts b = true) (bars : Bars) (n : ℕ) :
    parseMain C key (bs.map C.encode) bars n = .ok (written bars bs, n + bs.length) := by
  induction bs generalizing bars n with
  | nil => rfl
  | cons b bs ih =>
    simp only [List.map_cons, parseMain, C.decode_encode, if_pos (hb b List.mem_cons_self)]
    rw [ih (fun b' h => hb b' (List.mem_cons_of_mem _ h)), List.length_cons]
    simp only [written, List.foldl_cons]
    congr 2
    omega

theorem parseFallback_encode {bs : List Kline} (hb : ∀ b ∈ bs, key.accepts b = true) (bars : Bars) (n : ℕ) :
    parseFallback C key (bs.map C.encode) bars n =
      .ok (if 0 < n + bs.length then some (written bars bs, n + bs.length) else none) := by
  induction bs generalizing bars n with
  | nil => rfl
  | cons b bs ih =>
    simp only [List.map_cons, parseFallback, C.decode_encode, if_pos (hb b List.mem_cons_self)]
    rw [ih (fun b' h => hb b' (List.mem_cons_of_mem _ h)), List.length_cons]
    simp only [written, List.foldl_cons, show n + 1 + bs.length = n + (bs.length + 1) by omega]

theorem parseMain_filed {ls : List Bytes} {bars : Bars} {n : ℕ} {p : Bars × ℕ} (h : Filed key bars)
    (hp : parseMain C key ls bars n = .ok p) : Filed key p.1 := by
  induction ls generalizing bars n with
  | nil =>
    obtain rfl := Except.ok.inj hp
    exact h
  | cons l ls ih =>
    simp only [parseMain] at hp
    cases hd : C.decode l with
    | invalid => rw [hd] at hp; cases hp
    | blank => rw [hd] at hp; exact ih h hp
    | corrupt => rw [hd] at hp; exact ih h hp
    | record bar =>
      rw [hd] at hp
      refine ih ?_ hp
      split
      · exact h.insert ‹_›
      · exact h

theorem parseFallback_filed {ls : List Bytes} {bars : Bars} {n : ℕ} {p : Bars × ℕ} (h : Filed key bars)
    (hp : parseFallback C key ls bars n = .ok (some p)) : Filed key p.1 := by
  induction ls generalizing bars n with
  | nil =>
    simp only [parseFallback, Except.ok.injEq] at hp
    split at hp
    · obtain rfl := Option.some.inj hp
      exact h
    · cases hp
  | cons l ls ih =>
    simp only [parseFallback] at hp
    cases hd : C.decode l with
    | invalid => rw [hd] at hp; cases hp
    | blank => rw [hd] at hp; cases hp
    | corrupt => rw [hd] at hp; cases hp
    | record bar =>
      rw [hd] at hp
      simp only at hp
      split at hp
      · exact ih (h.insert ‹_›) hp
      · cases hp

/-! ## Loading -/

/-- The contents of a file; a missing one reads as an empty one. -/
def contents (dir : KlineDir) (name : KlineFile) : Bytes := (dir.get name).getD []

/-- What the main file holds, before it is cropped. -/
def mainBars (C : LineCodec Kline) (key : ChartWorkspaceKey) (dir : KlineDir) : Option Bars :=
  (parseMain C key (lines (contents dir .main)) ∅ 0).toOption.map Prod.fst

/-- What `parse_fallback_file` makes of a file. -/
def fallbackOf (C : LineCodec Kline) (key : ChartWorkspaceKey) (dir : KlineDir) (name : KlineFile) :
    Except IoErr (Option (Bars × ℕ)) :=
  parseFallback C key (lines (contents dir name)) ∅ 0

section Loading

variable {dir : KlineDir}

theorem present_run (name : KlineFile) : present name dir [] = .ok (dir.get name).isSome dir [] := by
  cases h : dir.get name <;> simp [present, stat, look, Io.call, Io.attempt, Bind.bind, Io.bind, Pure.pure, Io.pure, h]

theorem read_run {name : KlineFile} (h : (dir.get name).isSome) :
    (CrashIo.read name : KlineIo Bytes) dir [] = .ok (contents dir name) dir [] := by
  obtain ⟨b, hb⟩ := Option.isSome_iff_exists.1 h
  simp [CrashIo.read, look, Io.call, contents, hb]

theorem present_of_contents {name : KlineFile} (h : contents dir name ≠ []) : (dir.get name).isSome = true := by
  unfold contents at h
  cases hg : dir.get name with
  | some b => rfl
  | none => rw [hg] at h; exact absurd rfl h

theorem nonempty_run (name : KlineFile) : nonempty name dir [] = .ok (decide (contents dir name ≠ [])) dir [] := by
  unfold nonempty
  refine (Io.bind_of_ok (present_run name)).trans ?_
  cases h : (dir.get name).isSome with
  | true => exact Io.bind_of_ok (read_run h)
  | false =>
    have : contents dir name = [] := by
      by_contra hne
      rw [present_of_contents hne] at h
      cases h
    simp [this, Pure.pure, Io.pure]

theorem parseFallbackFile_run (name : KlineFile) :
    parseFallbackFile C key name dir [] = Io.lift (fallbackOf C key dir name) dir [] := by
  unfold parseFallbackFile
  refine (Io.bind_of_ok (nonempty_run name)).trans ?_
  by_cases h : contents dir name = []
  · simp [h, fallbackOf, parseFallback, Io.lift, Pure.pure]
  · rw [if_pos (by simpa using h)]
    exact Io.bind_of_ok (read_run (present_of_contents h))

/-- A directory with a main file that is not empty loads it. -/
theorem loadFromDisk_main (h : contents dir .main ≠ []) :
    loadFromDisk C key dir [] = match parseMain C key (lines (contents dir .main)) ∅ 0 with
      | .ok p => .ok ⟨cropBars p.1, p.2, false⟩ dir []
      | .error e => .err e dir [] := by
  unfold loadFromDisk
  refine (Io.bind_of_ok (nonempty_run _)).trans ?_
  rw [if_pos (by simpa using h)]
  refine (Io.bind_of_ok (read_run (present_of_contents h))).trans ?_
  cases parseMain C key (lines (contents dir .main)) ∅ 0 with
  | ok p => exact Io.bind_of_ok rfl
  | error e => exact Io.bind_of_err rfl

/-- Any other directory loads the first fallback that is a series. -/
theorem loadFromDisk_fallback (h : contents dir .main = []) :
    loadFromDisk C key dir [] = match fallbackOf C key dir .tmp with
      | .error e => .err e dir []
      | .ok (some p) => .ok ⟨cropBars p.1, p.2, true⟩ dir []
      | .ok none =>
        match fallbackOf C key dir .bak with
        | .error e => .err e dir []
        | .ok (some p) => .ok ⟨cropBars p.1, p.2, true⟩ dir []
        | .ok none => .ok ⟨∅, 0, false⟩ dir [] := by
  unfold loadFromDisk
  refine (Io.bind_of_ok (nonempty_run _)).trans ?_
  rw [if_neg (by simpa using h)]
  cases ht : fallbackOf C key dir .tmp with
  | error e => exact Io.bind_of_err (by rw [parseFallbackFile_run, ht]; rfl)
  | ok x =>
    refine (Io.bind_of_ok (by rw [parseFallbackFile_run, ht]; rfl)).trans ?_
    cases x with
    | some p => rfl
    | none =>
      cases hb : fallbackOf C key dir .bak with
      | error e => exact Io.bind_of_err (by rw [parseFallbackFile_run, hb]; rfl)
      | ok y =>
        refine (Io.bind_of_ok (by rw [parseFallbackFile_run, hb]; rfl)).trans ?_
        cases y <;> rfl

theorem fresh_main (h : contents dir .main ≠ []) : KlineWorld.fresh C key dir = (mainBars C key dir).map cropBars := by
  unfold KlineWorld.fresh mainBars
  rw [loadFromDisk_main h]
  cases parseMain C key (lines (contents dir .main)) ∅ 0 with
  | ok p => simp only [Except.toOption, Option.map_some]
  | error e => rfl

theorem fresh_tmp {p : Bars × ℕ} (h : contents dir .main = []) (ht : fallbackOf C key dir .tmp = .ok (some p)) :
    KlineWorld.fresh C key dir = some (cropBars p.1) := by
  unfold KlineWorld.fresh
  rw [loadFromDisk_fallback h, ht]

theorem fresh_none (h : contents dir .main = []) (ht : fallbackOf C key dir .tmp = .ok none)
    (hb : fallbackOf C key dir .bak = .ok none) : KlineWorld.fresh C key dir = some ∅ := by
  unfold KlineWorld.fresh
  rw [loadFromDisk_fallback h, ht]
  simp only [hb]

/-- What is loaded is in the main file when that is not empty. -/
theorem fresh_congr {dir' : KlineDir} (hm : contents dir' .main = contents dir .main) (hne : contents dir .main ≠ []) :
    KlineWorld.fresh C key dir' = KlineWorld.fresh C key dir := by
  rw [fresh_main hne, fresh_main (hm ▸ hne), mainBars, mainBars, hm]

theorem mainBars_filed {bars : Bars} (h : mainBars C key dir = some bars) : Filed key bars := by
  unfold mainBars at h
  cases hp : parseMain C key (lines (contents dir .main)) ∅ 0 with
  | error e => rw [hp] at h; cases h
  | ok p =>
    rw [hp] at h
    obtain rfl := Option.some.inj h
    exact parseMain_filed filed_empty hp

theorem mainBars_nil (h : contents dir .main = []) : mainBars C key dir = some ∅ := by
  unfold mainBars
  rw [h]
  rfl

/-- A file of the lines of a series is that series. -/
theorem mainBars_text {s : Bars} (hs : Filed key s) (h : contents dir .main = C.text (mapValues s)) :
    mainBars C key dir = some s := by
  have hacc : ∀ b ∈ mapValues s, key.accepts b = true := fun b hb => by
    obtain ⟨t, ht⟩ := mem_mapValues.1 hb
    exact (hs t b ht).2
  unfold mainBars
  rw [h, C.lines_text, parseMain_encode hacc, written_mapValues hs]
  rfl

theorem fallbackOf_text {s : Bars} {name : KlineFile} (hs : Filed key s) (hne : s.size ≠ 0)
    (h : contents dir name = C.text (mapValues s)) : fallbackOf C key dir name = .ok (some (s, s.size)) := by
  have hacc : ∀ b ∈ mapValues s, key.accepts b = true := fun b hb => by
    obtain ⟨t, ht⟩ := mem_mapValues.1 hb
    exact (hs t b ht).2
  unfold fallbackOf
  rw [h, C.lines_text, parseFallback_encode hacc, written_mapValues hs, length_mapValues, Nat.zero_add,
    if_pos (Nat.pos_of_ne_zero hne)]

end Loading

/-! ## Writing -/

section Writing

variable {dir : KlineDir}

/-- The directory is `dir` but for the contents of one file. -/
def OnlyFile (name : KlineFile) (bytes : Bytes) (dir dir' : KlineDir) : Prop :=
  ∀ n, contents dir' n = if n = name then bytes else contents dir n

theorem contents_set (name n : KlineFile) (b : Bytes) :
    contents (dir.set name b) n = if n = name then b else contents dir n := by
  unfold contents
  rw [Machine.get_set]
  split <;> rfl

theorem contents_unlink (name n : KlineFile) : contents (dir.unlink name) n = if n = name then [] else contents dir n := by
  unfold contents
  split
  · rename_i h; subst h; simp
  · rename_i h; simp [h]

theorem contents_append (name n : KlineFile) (b : Bytes) (k : ℕ) :
    contents (dir.append name b k) n = if n = name then contents dir name ++ b.take k else contents dir n :=
  contents_set name n _

theorem contents_move (a b n : KlineFile) (c : Bytes) (hab : a ≠ b) :
    contents (dir.move a b c) n = if n = b then c else if n = a then [] else contents dir n := by
  unfold contents
  rw [Machine.get_move _ _ _ _ _ hab]
  split
  · rfl
  · split <;> rfl

theorem contents_of_get {name : KlineFile} {c : Bytes} (h : dir.get name = some c) : contents dir name = c := by
  rw [contents, h]; rfl

/-- Lines that are written reach the file up to some byte. -/
theorem wp_writeBars (name : KlineFile) (bs : List Kline) :
    wp (writeBars C name bs) (fun _ dir' => OnlyFile name (contents dir name ++ C.text bs) dir dir')
      (fun _ dir' => ∃ k, OnlyFile name (contents dir name ++ (C.text bs).take k) dir dir')
      (fun dir' => ∃ k, OnlyFile name (contents dir name ++ (C.text bs).take k) dir dir') dir := by
  induction bs generalizing dir with
  | nil =>
    refine wp_pure.2 fun n => ?_
    split
    · rename_i h; subst h; simp
    · rfl
  | cons b bs ih =>
    unfold writeBars
    -- the text of the line may be cut:
    have htorn : ∀ k, OnlyFile name (contents dir name ++ (C.text (b :: bs)).take (min k (C.encode b).length)) dir
        (dir.append name (C.encode b) k) := by
      intro k n
      rw [contents_append, C.text_cons, List.take_append_of_le_length (min_le_right _ _), ← List.take_take]
      simp
    refine wp_bind (wp_writeAll ?_ (fun k => ⟨_, htorn k⟩) (fun k => ⟨_, htorn k⟩))
    -- or only its end:
    have hline : ∀ k, OnlyFile name (contents dir name ++ (C.text (b :: bs)).take ((C.encode b).length + min k 1)) dir
        ((dir.append name (C.encode b) (C.encode b).length).append name [newline] k) := by
      intro k n
      rw [contents_append, contents_append, contents_append, if_pos rfl, C.text_cons, List.take_length_add_append,
        List.take_of_length_le (le_refl _)]
      split
      · cases k with
        | zero => simp
        | succ k => simp
      · rfl
    refine wp_bind (wp_writeAll ?_ (fun k => ⟨_, hline k⟩) (fun k => ⟨_, hline k⟩))
    have hdone := hline 1
    simp only [min_self, C.text_cons, List.take_length_add_append, List.take_succ_cons, List.take_zero] at hdone
    -- the other lines come after this one:
    have hrest : ∀ (x : Bytes) (dir' : KlineDir), OnlyFile name
        (contents ((dir.append name (C.encode b) (C.encode b).length).append name [newline] [newline].length) name ++ x)
        ((dir.append name (C.encode b) (C.encode b).length).append name [newline] [newline].length) dir' →
        OnlyFile name (contents dir name ++ (C.encode b ++ newline :: x)) dir dir' := by
      intro x dir' h n
      have hd := hdone n
      have hn := hdone name
      rw [if_pos rfl] at hn
      rw [h n]
      split
      · rw [List.length_singleton, hn]; simp
      · rename_i hne
        rw [List.length_singleton, hd, if_neg hne]
    refine wp_mono ih (fun _ dir' h => ?_) (fun _ dir' h => ?_) (fun dir' h => ?_)
    · rw [C.text_cons]; exact hrest _ _ h
    all_goals
      obtain ⟨k, hk⟩ := h
      refine ⟨(C.encode b).length + (k + 1), ?_⟩
      rw [C.text_cons, List.take_length_add_append, List.take_succ_cons]
      exact hrest _ _ hk

/-- What an append leaves: all of its lines, or a part of them. -/
theorem wp_appendBatch (batch : FlushBatch) :
    wp (appendBatch C batch)
      (fun _ dir' => OnlyFile .main (contents dir .main ++ C.text (batch.entries.map (·.kline))) dir dir')
      (fun _ dir' => ∃ k, OnlyFile .main (contents dir .main ++ (C.text (batch.entries.map (·.kline))).take k) dir dir')
      (fun dir' => ∃ k, OnlyFile .main (contents dir .main ++ (C.text (batch.entries.map (·.kline))).take k) dir dir') dir := by
  have hsame : OnlyFile .main (contents dir .main ++ (C.text (batch.entries.map (·.kline))).take 0) dir dir := by
    intro n
    split
    · rename_i h; subst h; simp
    · rfl
  have hnew : dir.get .main = none → ∀ n, contents (dir.set .main []) n = contents dir n := by
    intro h n
    rw [contents_set]
    split
    · rename_i hn; subst hn; rw [contents, h]; rfl
    · rfl
  -- the file is created empty, which reads as a missing one
  have hrest : ∀ d : KlineDir, (∀ n, contents d n = contents dir n) →
      wp (do writeBars C .main (batch.entries.map (·.kline)); sync : KlineIo Unit)
        (fun _ dir' => OnlyFile .main (contents dir .main ++ C.text (batch.entries.map (·.kline))) dir dir')
        (fun _ dir' => ∃ k, OnlyFile .main (contents dir .main ++ (C.text (batch.entries.map (·.kline))).take k) dir dir')
        (fun dir' => ∃ k, OnlyFile .main (contents dir .main ++ (C.text (batch.entries.map (·.kline))).take k) dir dir') d := by
    intro d hd
    have hcongr : ∀ x dir', OnlyFile .main (contents d .main ++ x) d dir' → OnlyFile .main (contents dir .main ++ x) dir dir' := by
      intro x dir' h n
      rw [h n, hd, hd]
    refine wp_bind (wp_mono (wp_writeBars .main _) (fun _ d' h => ?_) (fun _ d' h => ?_) (fun d' h => ?_))
    · have hfull : OnlyFile .main (contents dir .main ++ (C.text (batch.entries.map (·.kline))).take
          (C.text (batch.entries.map (·.kline))).length) dir d' := by
        rw [List.take_length]; exact hcongr _ _ h
      exact wp_sync (hcongr _ _ h) ⟨_, hfull⟩ ⟨_, hfull⟩
    · obtain ⟨k, hk⟩ := h; exact ⟨k, hcongr _ _ hk⟩
    · obtain ⟨k, hk⟩ := h; exact ⟨k, hcongr _ _ hk⟩
  unfold appendBatch
  refine wp_bind (wp_openAppend (fun _ => hrest dir fun _ => rfl) (fun h => ⟨hrest _ (hnew h), ⟨0, ?_⟩⟩) ⟨0, hsame⟩ ⟨0, hsame⟩)
  intro n
  rw [hnew h]
  exact hsame n

/-! ## Compacting -/

/-- The directory after a compaction. The backup is the old one unless the main file
was sound. -/
structure Compacted (C : LineCodec Kline) (key : ChartWorkspaceKey) (batch : FlushBatch) (dir dir' : KlineDir) : Prop where
  main : contents dir' .main = C.text batch.snapshot
  tmp : contents dir' .tmp = []
  bak : fallbackOf C key dir .main = .ok none → contents dir' .bak = contents dir .bak

/-- Where a compaction can stop. -/
inductive Halted (C : LineCodec Kline) (key : ChartWorkspaceKey) (batch : FlushBatch) (restore : List Fault) (dir dir' : KlineDir) :
    Prop
  | kept (main : contents dir' .main = contents dir .main)
  | moved (main : contents dir' .main = []) (tmp : contents dir' .tmp = C.text batch.snapshot)
  /-- the promotion failed, and so did the copy that should have undone it -/
  | torn (k : ℕ) (main : contents dir' .main = (contents dir .main).take k) (faulty : restore ≠ [])
  | done (compacted : Compacted C key batch dir dir')

theorem wp_present (name : KlineFile) :
    wp (present name) (fun x dir' => dir' = dir ∧ (x = true → (dir.get name).isSome)) (fun _ dir' => dir' = dir)
      (fun dir' => dir' = dir) dir := by
  unfold present
  refine wp_bind (wp_attempt.2 (wp_stat (fun h => wp_pure.2 ⟨rfl, fun _ => h⟩) (fun _ => ?_) ?_ rfl))
  · exact wp_pure.2 ⟨rfl, (fun h => nomatch h)⟩
  · exact wp_pure.2 ⟨rfl, (fun h => nomatch h)⟩

theorem wp_parseFallbackFile (name : KlineFile) :
    wp (parseFallbackFile C key name) (fun x dir' => dir' = dir ∧ (x.isSome → fallbackOf C key dir name = .ok x))
      (fun _ dir' => dir' = dir) (fun dir' => dir' = dir) dir := by
  have hread : ∀ {E : IoErr → KlineDir → Prop} {Q : Bytes → KlineDir → Prop}, Q (contents dir name) dir →
      (∀ e, E e dir) → wp (CrashIo.read name) Q E (fun dir' => dir' = dir) dir := by
    intro E Q hq he
    refine wp_read (fun b hb => ?_) (fun _ => he _) (he _) rfl
    rw [← contents_of_get hb]
    exact hq
  unfold parseFallbackFile nonempty
  refine wp_bind (wp_bind (wp_mono (wp_present name) (fun x dir' hx => ?_) (fun _ _ h => h) (fun _ h => h)))
  obtain ⟨rfl, -⟩ := hx
  split
  · refine wp_bind (hread (wp_pure.2 ?_) fun _ => rfl)
    split
    · refine wp_bind (hread ?_ fun _ => rfl)
      exact wp_lift (fun y hy => ⟨rfl, fun _ => hy⟩) (fun _ _ => rfl)
    · exact wp_pure.2 ⟨rfl, (fun h => nomatch h)⟩
  · exact wp_pure.2 (wp_pure.2 ⟨rfl, (fun h => nomatch h)⟩)

theorem wp_isFullyParseableFile (name : KlineFile) :
    wp (isFullyParseableFile C key name)
      (fun valid dir' => dir' = dir ∧ (valid = true → ∃ p, fallbackOf C key dir name = .ok (some p)))
      (fun _ dir' => dir' = dir) (fun dir' => dir' = dir) dir := by
  unfold isFullyParseableFile
  refine wp_bind (wp_mono (wp_parseFallbackFile name) (fun x dir' hx => wp_pure.2 ⟨hx.1, fun hv => ?_⟩) (fun _ _ h => h)
    (fun _ h => h))
  obtain ⟨p, rfl⟩ := Option.isSome_iff_exists.1 hv
  exact ⟨p, hx.2 rfl⟩

/-- The main file is still there or out of the way, and nothing happened to `.tmp`. -/
def Retiring (dir dir' : KlineDir) : Prop :=
  (contents dir' .main = contents dir .main ∨ contents dir' .main = []) ∧ contents dir' .tmp = contents dir .tmp

theorem wp_retireMain (valid : Bool) :
    wp (retireMain valid)
      (fun _ dir' => Retiring dir dir' ∧
        if valid then contents dir' .bak = contents dir .main else contents dir' .bak = contents dir .bak)
      (fun _ dir' => Retiring dir dir') (fun dir' => Retiring dir dir') dir := by
  have hself : Retiring dir dir := ⟨.inl rfl, rfl⟩
  have hunbak : Retiring dir (dir.unlink .bak) := ⟨.inl (by rw [contents_unlink]; rfl), by rw [contents_unlink]; rfl⟩
  -- the rename that keeps the old file as the backup
  have hrename : ∀ d : KlineDir, Retiring dir d → contents d .main = contents dir .main →
      wp (rename .main .bak : KlineIo Unit) (fun _ dir' => Retiring dir dir' ∧ contents dir' .bak = contents dir .main)
        (fun _ dir' => Retiring dir dir') (fun dir' => Retiring dir dir') d := by
    intro d hd hmain
    have hmoved : ∀ c, d.get .main = some c → Retiring dir (d.move .main .bak c) ∧
        contents (d.move .main .bak c) .bak = contents dir .main := by
      intro c hc
      refine ⟨⟨.inr ?_, ?_⟩, ?_⟩
      · rw [contents_move _ _ _ _ (by decide)]; rfl
      · rw [contents_move _ _ _ _ (by decide)]; exact hd.2
      · rw [contents_move _ _ _ _ (by decide), if_pos rfl, ← hmain, contents_of_get hc]
    exact wp_rename (fun c hc => ⟨hmoved c hc, (hmoved c hc).1⟩) (fun _ => hd) hd hd
  unfold retireMain
  cases valid with
  | true =>
    simp only [if_true]
    refine wp_bind (wp_mono (wp_present .bak) (fun x d hx => ?_) (fun _ _ h => h ▸ hself) (fun _ h => h ▸ hself))
    obtain ⟨rfl, -⟩ := hx
    split
    · refine wp_bind (wp_mono (wp_present .bak) (fun y d' hy => ?_) (fun _ _ h => h ▸ hself) (fun _ h => h ▸ hself))
      obtain ⟨rfl, -⟩ := hy
      split
      · refine wp_bind (wp_remove (fun _ => ⟨hrename _ hunbak (by rw [contents_unlink]; rfl), hunbak⟩) (fun _ => hself) hself hself)
      · exact wp_throw.2 hself
    · exact wp_bind (wp_pure.2 (hrename d hself rfl))
  | false =>
    simp only [Bool.false_eq_true, if_false]
    have hout : Retiring dir (dir.unlink .main) := ⟨.inr (by rw [contents_unlink]; rfl), by rw [contents_unlink]; rfl⟩
    refine wp_bind (wp_mono (wp_present .main) (fun x d hx => ?_) (fun _ _ h => h ▸ hself) (fun _ h => h ▸ hself))
    obtain ⟨rfl, -⟩ := hx
    split
    · refine wp_bind (wp_mono (wp_present .main) (fun y d' hy => ?_) (fun _ _ h => h ▸ hself) (fun _ h => h ▸ hself))
      obtain ⟨rfl, -⟩ := hy
      split
      · refine wp_remove (fun _ => ⟨⟨hout, ?_⟩, hout⟩) (fun _ => hself) hself hself
        rw [contents_unlink]; rfl
      · exact wp_pure.2 ⟨hself, rfl⟩
    · exact wp_pure.2 ⟨hself, rfl⟩

theorem wp_underFaults {α : Type} {m : KlineIo α} {script : List Fault} {Q : α → KlineDir → Prop} {E : IoErr → KlineDir → Prop}
    {P : KlineDir → Prop} (h : match m dir script with
      | .ok a d _ => Q a d
      | .err e d _ => E e d
      | .crashed d => P d) : wp (underFaults script m) Q E P dir := by
  intro fs
  unfold underFaults
  cases hm : m dir script with
  | ok a d rest => rw [hm] at h; exact h
  | err e d rest => rw [hm] at h; exact h
  | crashed d => rw [hm] at h; exact h

/-- The copy that brings the main file back. -/
theorem wp_restoreMain {batch : FlushBatch} {restore : List Fault} {d : KlineDir} (hbak : contents d .bak = contents dir .main)
    (hd : Halted C key batch restore dir d) :
    wp (underFaults restore (copy .bak .main)) (fun _ => Halted C key batch restore dir)
      (fun _ => Halted C key batch restore dir) (Halted C key batch restore dir) d := by
  refine wp_underFaults ?_
  cases hg : d.get .bak with
  | none =>
    have hwp : wp (copy .bak .main : KlineIo Unit) (fun _ d' => d' = d) (fun _ d' => d' = d) (fun d' => d' = d) d := by
      refine wp_call ?_ ?_ (fun k => ?_) (fun k => ?_)
      · intro u s h; rw [hg] at h; cases h
      · intro e s h; rw [hg] at h; exact (Prod.mk.inj h).2.symm
      · rw [hg]
      · rw [hg]
    have hspec := hwp restore
    split <;> rename_i hm <;> rw [hm] at hspec <;> rw [hspec] <;> exact hd
  | some c =>
    have hc : c = contents dir .main := (contents_of_get hg).symm.trans hbak
    have hfull : Halted C key batch restore dir (d.set .main c) := .kept (by rw [contents_set, if_pos rfl, hc])
    by_cases hr : restore = []
    · subst hr
      have hrun : (copy .bak .main : KlineIo Unit) d [] = .ok () (d.set .main c) [] := by simp [copy, Io.call, hg]
      rw [hrun]
      exact hfull
    · have htorn : ∀ k, Halted C key batch restore dir (d.set .main (c.take k)) :=
        fun k => .torn k (by rw [contents_set, if_pos rfl, hc]) hr
      have hwp : wp (copy .bak .main : KlineIo Unit) (fun _ => Halted C key batch restore dir)
          (fun _ => Halted C key batch restore dir) (Halted C key batch restore dir) d := wp_copy hg hfull htorn htorn
      have hspec := hwp restore
      cases hm : (copy .bak .main : KlineIo Unit) d restore <;> rw [hm] at hspec <;> exact hspec

/-- Whatever goes wrong in a compaction, it is done or stops in one of four ways. -/
theorem wp_compactBatch (batch : FlushBatch) (restore : List Fault) :
    wp (compactBatch C key batch restore) (fun _ => Compacted C key batch dir) (fun _ => Halted C key batch restore dir)
      (Halted C key batch restore dir) dir := by
  have hkept : ∀ {d : KlineDir} {bytes : Bytes}, OnlyFile .tmp bytes dir d → Halted C key batch restore dir d :=
    fun h => .kept (by rw [h]; rfl)
  have hopen : OnlyFile .tmp [] dir (dir.set .tmp []) := fun n => contents_set .tmp n []
  unfold compactBatch
  refine wp_bind (wp_openTruncate ?_ (.kept rfl) (.kept rfl) (hkept hopen))
  have hover : ∀ {d : KlineDir} {x : Bytes}, OnlyFile .tmp (contents (dir.set .tmp []) .tmp ++ x) (dir.set .tmp []) d →
      OnlyFile .tmp x dir d := by
    intro d x h n
    rw [h n, hopen n, hopen]
    split <;> simp
  refine wp_bind (wp_mono (wp_writeBars .tmp _) (fun _ d hd => ?_) (fun _ d ⟨k, hk⟩ => hkept (hover hk))
    (fun d ⟨k, hk⟩ => hkept (hover hk)))
  have hd : OnlyFile .tmp (C.text batch.snapshot) dir d := hover hd
  have hmain : contents d .main = contents dir .main := by rw [hd]; rfl
  refine wp_bind (wp_sync ?_ (hkept hd) (hkept hd))
  refine wp_bind (wp_mono (wp_isFullyParseableFile .main) (fun valid d' hv => ?_) (fun _ _ h => h ▸ hkept hd)
    (fun _ h => h ▸ hkept hd))
  obtain ⟨rfl, hv⟩ := hv
  -- the main file is retired
  have hretiring : ∀ {d : KlineDir}, Retiring d' d → Halted C key batch restore dir d := by
    rintro d ⟨hm | hm, ht⟩
    · exact .kept (hm.trans hmain)
    · exact .moved hm (ht.trans (by rw [hd]; rfl))
  refine wp_bind (wp_mono (wp_retireMain valid) (fun _ d₁ h₁ => ?_) (fun _ _ h => hretiring h) (fun _ h => hretiring h))
  obtain ⟨hret, hbak⟩ := h₁
  have htmp : contents d₁ .tmp = C.text batch.snapshot := hret.2.trans (by rw [hd]; rfl)
  -- the new one takes its place
  have hdone : ∀ c, d₁.get .tmp = some c → Compacted C key batch dir (d₁.move .tmp .main c) := by
    intro c hc
    refine ⟨?_, ?_, fun hnone => ?_⟩
    · rw [contents_move _ _ _ _ (by decide), if_pos rfl, ← htmp, contents_of_get hc]
    · rw [contents_move _ _ _ _ (by decide)]; rfl
    · rw [contents_move _ _ _ _ (by decide), if_neg (by decide), if_neg (by decide)]
      have hfalse : valid = false := by
        cases valid with
        | false => rfl
        | true =>
          obtain ⟨p, hp⟩ := hv rfl
          rw [fallbackOf, hmain] at hp
          rw [fallbackOf, hp] at hnone
          cases hnone
      rw [hfalse] at hbak
      exact hbak.trans (by rw [hd]; rfl)
  have hfailed : ∀ e : IoErr, wp (do
      if valid then
        if ← present .bak then underFaults restore (copy .bak .main)
      Io.throw e : KlineIo Unit) (fun _ => Compacted C key batch dir) (fun _ => Halted C key batch restore dir)
      (Halted C key batch restore dir) d₁ := by
    intro e
    have hh := hretiring hret
    cases valid with
    | false => exact wp_throw.2 hh
    | true =>
      refine wp_bind (wp_mono (wp_present .bak) (fun x d₂ hx => ?_) (fun _ _ h => h ▸ hh) (fun _ h => h ▸ hh))
      obtain ⟨rfl, -⟩ := hx
      split
      · exact wp_bind (wp_mono (wp_restoreMain (hbak.trans hmain) hh) (fun _ _ h => wp_throw.2 h) (fun _ _ h => h) (fun _ h => h))
      · exact wp_throw.2 hh
  refine wp_bind (wp_attempt.2 (wp_rename (fun c hc => ⟨wp_pure.2 (hdone c hc), .done (hdone c hc)⟩) (fun _ => hfailed _)
    (hfailed _) (hretiring hret)))

/-! ## Nothing goes wrong -/

theorem writeBars_run (C : LineCodec Kline) (dir : KlineDir) (name : KlineFile) (bs : List Kline) :
    ∃ d, writeBars C name bs dir [] = .ok () d [] ∧ ∀ n, (dir.get n).isSome → (d.get n).isSome := by
  induction bs generalizing dir with
  | nil => exact ⟨dir, rfl, fun _ h => h⟩
  | cons b bs ih =>
    have hsome : ∀ (d : KlineDir) (x : Bytes) n, (d.get n).isSome → ((d.append name x x.length).get n).isSome := by
      intro d x n h
      rw [Machine.append, Machine.get_set]
      split
      · rfl
      · exact h
    obtain ⟨d, hd, hn⟩ := ih ((dir.append name (C.encode b) (C.encode b).length).append name [newline] [newline].length)
    refine ⟨d, (Io.bind_of_ok (writeAll_run name _)).trans ((Io.bind_of_ok (writeAll_run name _)).trans hd), fun n h => hn n ?_⟩
    exact hsome _ _ n (hsome _ _ n h)

theorem appendBatch_run (batch : FlushBatch) : ∃ d, appendBatch C batch dir [] = .ok () d [] := by
  obtain ⟨d, hd, -⟩ := writeBars_run C (if (dir.get KlineFile.main).isSome then dir else dir.set .main []) .main
    (batch.entries.map (·.kline))
  exact ⟨d, (Io.bind_of_ok (openAppend_run KlineFile.main)).trans ((Io.bind_of_ok hd).trans sync_run)⟩

theorem retireMain_run (valid : Bool) (hv : valid = true → (dir.get .main).isSome) :
    ∃ d, retireMain valid dir [] = .ok () d [] ∧ ((dir.get .tmp).isSome → (d.get .tmp).isSome) := by
  unfold retireMain
  cases valid with
  | true =>
    simp only [if_true]
    have hrename : ∀ d : KlineDir, (d.get .main).isSome → ∃ d', (rename .main .bak : KlineIo Unit) d [] = .ok () d' [] ∧
        ((d.get .tmp).isSome → (d'.get .tmp).isSome) := by
      intro d hd
      obtain ⟨c, hc⟩ := Option.isSome_iff_exists.1 hd
      refine ⟨_, rename_run hc, fun h => ?_⟩
      rw [Machine.get_move _ _ _ _ _ (by decide)]
      exact h
    cases hb : (dir.get .bak).isSome with
    | true =>
      obtain ⟨d', hd', ht⟩ := hrename (dir.unlink .bak) (by rw [Machine.get_unlink_ne _ (by decide)]; exact hv rfl)
      refine ⟨d', (Io.bind_of_ok (present_run .bak)).trans ?_, fun h => ht (by rw [Machine.get_unlink_ne _ (by decide)]; exact h)⟩
      rw [hb]
      refine (Io.bind_of_ok (present_run .bak)).trans ?_
      rw [hb]
      exact (Io.bind_of_ok (remove_run hb)).trans hd'
    | false =>
      obtain ⟨d', hd', ht⟩ := hrename dir (hv rfl)
      refine ⟨d', (Io.bind_of_ok (present_run .bak)).trans ?_, ht⟩
      rw [hb]
      exact hd'
  | false =>
    cases hm : (dir.get .main).isSome with
    | true =>
      refine ⟨dir.unlink .main, (Io.bind_of_ok (present_run .main)).trans ?_, fun h => ?_⟩
      · rw [hm]
        refine (Io.bind_of_ok (present_run .main)).trans ?_
        rw [hm]
        exact remove_run hm
      · rw [Machine.get_unlink_ne _ (by decide)]; exact h
    | false =>
      refine ⟨dir, (Io.bind_of_ok (present_run .main)).trans ?_, fun h => h⟩
      rw [hm]
      rfl

/-- A compaction in which nothing fails goes through, if the main file can be read. -/
theorem compactBatch_run (batch : FlushBatch) (restore : List Fault) {x : Option (Bars × ℕ)}
    (h : fallbackOf C key dir .main = .ok x) : ∃ d, compactBatch C key batch restore dir [] = .ok () d [] := by
  obtain ⟨d, hd, hsome⟩ := writeBars_run C (dir.set KlineFile.tmp []) .tmp batch.snapshot
  have hwp : wp (writeBars C .tmp batch.snapshot) _ _ _ (dir.set .tmp []) := wp_writeBars .tmp batch.snapshot
  have hspec := hwp []
  rw [hd] at hspec
  have hmain : contents d .main = contents dir .main := by
    rw [hspec, if_neg (by decide), contents_set, if_neg (by decide)]
  have hparse : isFullyParseableFile C key .main d [] = .ok x.isSome d [] := by
    refine (Io.bind_of_ok (a := x) ?_).trans rfl
    rw [parseFallbackFile_run, fallbackOf, hmain, ← fallbackOf, h]
    rfl
  have hthere : x.isSome = true → (d.get .main).isSome := by
    intro hx
    refine present_of_contents fun hnil => ?_
    rw [fallbackOf, ← hmain, hnil] at h
    cases x with
    | none => cases hx
    | some p => cases h
  obtain ⟨d₁, hd₁, ht⟩ := retireMain_run x.isSome hthere
  obtain ⟨c, hc⟩ := Option.isSome_iff_exists.1 (ht (hsome .tmp (by rw [Machine.get_set_self]; rfl)))
  exact ⟨d₁.move .tmp .main c, (Io.bind_of_ok (openTruncate_run KlineFile.tmp)).trans ((Io.bind_of_ok hd).trans ((Io.bind_of_ok sync_run).trans
    ((Io.bind_of_ok hparse).trans ((Io.bind_of_ok hd₁).trans (Io.bind_of_ok (Io.attempt_of_ok (rename_run hc)))))))⟩

end Writing

end EasiFlux
