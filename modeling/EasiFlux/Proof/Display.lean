import EasiFlux.Model.Market
import EasiFlux.Proof.KlineSeries

/-!
# The displayed klines follow the store

The loads of the display are numbered. A load with a number above `changedAt` was made
after the last change of the store, so it shows the store as it is (`DisplayInv.fresh`); and
whenever the store was changed, either such a load is cached already or some call that
changed the store still has to cache one (`DisplayInv.caching`), and so for the events. A
call that replaces the cached load by an earlier one, or that fails between its merge and
its cache, breaks this: `Ordered` excludes both, and nothing else does.
-/

namespace EasiFlux

open Newest

namespace BufferedSeries

/-- What `load_range(None, None, 200)` returns; it does not fail. -/
def newest (s : BufferedSeries) : List Kline :=
  match s.loadRange none none maxDisplayKlines with
  | .ok display => display
  | .error _ => []

theorem loadRange_newest (s : BufferedSeries) : s.loadRange none none maxDisplayKlines = .ok s.newest := rfl

/-- A load fails only for a reversed range. -/
theorem exists_loadRange (s : BufferedSeries) (limit : ℕ) {start «end» : Option ℤ} (h : reversed start «end» = false) :
    ∃ bars, s.loadRange start «end» limit = .ok bars := by
  have hany : (start.any fun start => «end».any fun «end» => decide («end» < start)) = reversed start «end» := by
    cases start with
    | none => rfl
    | some start => cases «end» <;> rfl
  unfold loadRange
  rw [hany, h, if_neg Bool.false_ne_true]
  exact ⟨_, rfl⟩

theorem cropSeries_of_size_le {s : BufferedSeries} (h : s.bars.size ≤ maxStoredBars) : s.cropSeries = s :=
  if_neg (not_lt.2 h)

theorem size_cropSeries_le (s : BufferedSeries) : s.cropSeries.bars.size ≤ maxStoredBars := by
  unfold cropSeries
  split
  · rw [(evict_iterate _ _).1]
    exact size_crop_le maxStoredBars s.bars
  · next h => exact not_lt.1 h

theorem loaded_cropSeries (s : BufferedSeries) : s.cropSeries.loaded = s.loaded := by
  unfold cropSeries
  split
  · exact (evict_iterate _ _).2.2.2.1
  · rfl

/-- The flag of the merge never falls back, and while it is down the series is the same. -/
theorem foldl_upsertBar (bars : List Kline) (sc : BufferedSeries × Bool) :
    (bars.foldl upsertBar sc).1.loaded = sc.1.loaded ∧
      ((bars.foldl upsertBar sc).2 = false → bars.foldl upsertBar sc = sc) := by
  induction bars generalizing sc with
  | nil => exact ⟨rfl, fun _ => rfl⟩
  | cons bar bars ih =>
    obtain ⟨hloaded, hsame⟩ := ih (upsertBar sc bar)
    have hone : (upsertBar sc bar).1.loaded = sc.1.loaded ∧ ((upsertBar sc bar).2 = false → upsertBar sc bar = sc) := by
      unfold upsertBar
      split
      · exact ⟨rfl, fun _ => rfl⟩
      · exact ⟨rfl, nofun⟩
    refine ⟨hloaded.trans hone.1, fun hflag => ?_⟩
    have hrest := hsame hflag
    rw [List.foldl_cons] at hflag ⊢
    rw [hrest] at hflag
    exact hrest.trans (hone.2 hflag)

/-- What `upsert_bars` says of a series that is not too long: without a change it is as it
was. -/
theorem upsertBars_ok {key : ChartWorkspaceKey} {s s' : BufferedSeries} {bars : List Kline} {merge : KlineMergeResult}
    (h : s.upsertBars key bars = .ok (s', merge)) (hs : s.bars.size ≤ maxStoredBars) :
    s'.bars.size ≤ maxStoredBars ∧ s'.loaded = s.loaded ∧ (merge.changed = false → s' = s) := by
  unfold upsertBars at h
  split at h
  · cases h
  · obtain ⟨hloaded, hsame⟩ := foldl_upsertBar bars (s, false)
    cases h
    refine ⟨size_cropSeries_le _, (loaded_cropSeries _).trans hloaded, fun hflag => ?_⟩
    rw [hsame hflag]
    exact cropSeries_of_size_le hs

end BufferedSeries

namespace KlineCall

/-- What the call has loaded. -/
def update : KlineCall → Option BufferedKlineUpdate
  | .displayed _ update | .ranged update _ | .cached update _ => some update
  | .idle | .received _ _ | .loaded _ _ | .merged _ _ | .finished _ => none

/-- The call has not come to the series yet, or no more. -/
def outside : KlineCall → Bool
  | .idle | .received _ _ | .finished _ => true
  | .loaded _ _ | .merged _ _ | .displayed _ _ | .ranged _ _ | .cached _ _ => false

/-- The call will cache a load made after the `t`-th. -/
def caches (t : ℕ) : KlineCall → Prop
  | .merged _ changed => changed = true
  | .displayed _ update | .ranged update _ => update.changed = true ∧ t < update.loadedAt
  | _ => False

/-- The call will emit a load made after the `t`-th. -/
def emits (t : ℕ) : KlineCall → Prop
  | .cached update _ => t < update.loadedAt
  | call => call.caches t

end KlineCall

theorem KlineCall.caches.emits {call : KlineCall} {t : ℕ} (h : call.caches t) : call.emits t := by
  cases call with
  | cached update answer => exact h.elim
  | _ => exact h

namespace DisplayWorld

variable (key : ChartWorkspaceKey)

/-- **The condition.** The step does not replace the klines that are cached, or were emitted
last, by others that were loaded before them, and it does not fail a call that has changed
the store because the range asked for is reversed. -/
def Ordered (w : DisplayWorld) : DisplayAct → Bool
  | .range c =>
    match w.calls c with
    | .displayed writer update => !update.changed || writer.range.all fun (start, «end», _) => !reversed start «end»
    | _ => true
  | .cache c =>
    match w.calls c with
    | .ranged update _ =>
      !update.changed || decide (w.cachedAt < update.loadedAt) || decide (w.cache = some update.display)
    | _ => true
  | .emit c =>
    match w.calls c with
    | .cached update _ => decide (w.emittedAt < update.loadedAt) || decide (w.emitted = some update.display)
    | _ => true
  | _ => true

structure DisplayInv (w : DisplayWorld) : Prop where
  size : w.series.bars.size ≤ maxStoredBars
  unloaded : w.series.loaded = false → w.changedAt = none ∧ ∀ c, (w.calls c).outside = true
  loads : w.cachedAt ≤ w.loads ∧ w.emittedAt ≤ w.loads ∧ ∀ c update, (w.calls c).update = some update → update.loadedAt ≤ w.loads
  changedAt_le : ∀ t, w.changedAt = some t → t ≤ w.loads
  fresh : ∀ c update, (w.calls c).update = some update → (∀ t, w.changedAt = some t → t < update.loadedAt) →
    update.display = w.series.newest
  cached : ∀ t, w.changedAt = some t → t < w.cachedAt → w.cache = some w.series.newest
  emitted : ∀ t, w.changedAt = some t → t < w.emittedAt → w.emitted = some w.series.newest
  caching : ∀ t, w.changedAt = some t → t < w.cachedAt ∨ ∃ c, (w.calls c).caches t
  emitting : ∀ t, w.changedAt = some t → t < w.emittedAt ∨ ∃ c, (w.calls c).emits t

variable {key} {w : DisplayWorld}

theorem init_inv : DisplayInv init where
  size := Nat.zero_le _
  unloaded _ := ⟨rfl, fun _ => rfl⟩
  loads := ⟨le_rfl, le_rfl, nofun⟩
  changedAt_le := nofun
  fresh := nofun
  cached := nofun
  emitted := nofun
  caching := nofun
  emitting := nofun

theorem update_cases {c c' : ℕ} {call : KlineCall} {update : BufferedKlineUpdate}
    (h : (Function.update w.calls c call c').update = some update) :
    call.update = some update ∨ (w.calls c').update = some update := by
  by_cases hne : c' = c
  · subst hne
    rw [Function.update_self] at h
    exact .inl h
  · rw [Function.update_of_ne hne] at h
    exact .inr h

/-- Some call still does what one did before, unless that was this one. -/
theorem exists_update {P : KlineCall → Prop} {Q : Prop} {c : ℕ} {call : KlineCall} (hP : P (w.calls c) → Q ∨ P call)
    (h : ∃ c, P (w.calls c)) : Q ∨ ∃ c', P (Function.update w.calls c call c') := by
  obtain ⟨c', hc'⟩ := h
  by_cases hne : c' = c
  · subst hne
    refine (hP hc').imp id fun hcall => ⟨c', ?_⟩
    rw [Function.update_self]
    exact hcall
  · refine .inr ⟨c', ?_⟩
    rw [Function.update_of_ne hne]
    exact hc'

namespace DisplayInv

/-- A step of the call `c` that leaves the series as it is. -/
theorem onward {w' : DisplayWorld} {c : ℕ} {call : KlineCall} (h : DisplayInv w) (hs : w'.series = w.series)
    (ht : w'.changedAt = w.changedAt) (hcalls : w'.calls = Function.update w.calls c call)
    (hloads : w.loads ≤ w'.loads) (hout : w.series.loaded = false → call.outside = true)
    (hup : ∀ update, call.update = some update →
      (w.calls c).update = some update ∨ update.display = w.series.newest ∧ update.loadedAt ≤ w'.loads)
    (hcle : w.cachedAt ≤ w'.cachedAt ∧ w'.cachedAt ≤ w'.loads)
    (hcached : ∀ t, w.changedAt = some t → t < w'.cachedAt → w'.cache = some w.series.newest)
    (hcaches : ∀ t, w.changedAt = some t → (w.calls c).caches t → t < w'.cachedAt ∨ call.caches t)
    (hele : w.emittedAt ≤ w'.emittedAt ∧ w'.emittedAt ≤ w'.loads)
    (hemitted : ∀ t, w.changedAt = some t → t < w'.emittedAt → w'.emitted = some w.series.newest)
    (hemits : ∀ t, w.changedAt = some t → (w.calls c).emits t → t < w'.emittedAt ∨ call.emits t) : DisplayInv w' where
  size := by rw [hs]; exact h.size
  unloaded hl := by
    rw [hs] at hl
    rw [ht, hcalls]
    refine ⟨(h.unloaded hl).1, fun c' => ?_⟩
    by_cases hne : c' = c
    · subst hne
      rw [Function.update_self]
      exact hout hl
    · rw [Function.update_of_ne hne]
      exact (h.unloaded hl).2 c'
  loads := by
    refine ⟨hcle.2, hele.2, fun c' update hu => ?_⟩
    rw [hcalls] at hu
    have hold : ∀ c', (w.calls c').update = some update → update.loadedAt ≤ w'.loads := fun c' hu =>
      le_trans (h.loads.2.2 c' update hu) hloads
    -- an update is the one of `c`, or of a call that did nothing:
    rcases update_cases hu with hu | hu
    · exact (hup update hu).elim (hold c) And.right
    · exact hold c' hu
  changedAt_le t htt := le_trans (h.changedAt_le t (ht ▸ htt)) hloads
  fresh c' update hu hlt := by
    rw [hcalls] at hu
    rw [ht] at hlt
    rw [hs]
    rcases update_cases hu with hu | hu
    · exact (hup update hu).elim (fun hu => h.fresh c update hu hlt) And.left
    · exact h.fresh c' update hu hlt
  cached t htt := by rw [hs]; exact hcached t (ht ▸ htt)
  emitted t htt := by rw [hs]; exact hemitted t (ht ▸ htt)
  caching t htt := by
    rw [hcalls]
    rcases h.caching t (ht ▸ htt) with hlt | hex
    · exact .inl (lt_of_lt_of_le hlt hcle.1)
    · exact exists_update (hcaches t (ht ▸ htt)) hex
  emitting t htt := by
    rw [hcalls]
    rcases h.emitting t (ht ▸ htt) with hlt | hex
    · exact .inl (lt_of_lt_of_le hlt hele.1)
    · exact exists_update (hemits t (ht ▸ htt)) hex

/-- A step of the call `c` that touches nothing else. -/
theorem setCall {c : ℕ} {call : KlineCall} (h : DisplayInv w) (hout : w.series.loaded = false → call.outside = true)
    (hup : ∀ update, call.update = some update → (w.calls c).update = some update)
    (hcaches : ∀ t, (w.calls c).caches t → call.caches t) (hemits : ∀ t, (w.calls c).emits t → call.emits t) :
    DisplayInv (w.setCall c call) :=
  h.onward rfl rfl rfl le_rfl hout (fun update hu => .inl (hup update hu)) ⟨le_rfl, h.loads.1⟩ h.cached
    (fun t _ hc => .inr (hcaches t hc)) ⟨le_rfl, h.loads.2.1⟩ h.emitted fun t _ hc => .inr (hemits t hc)

/-- A call that has nothing to publish ends, or goes on to the series. -/
theorem silent {c : ℕ} {call : KlineCall} (h : DisplayInv w) (hout : w.series.loaded = false → call.outside = true)
    (hup : call.update = none) (hold : ∀ t, ¬(w.calls c).emits t) : DisplayInv (w.setCall c call) := by
  refine h.setCall hout ?_ ?_ fun t ht => absurd ht (hold t)
  · intro update hu
    rw [hup] at hu
    cases hu
  · intro t ht
    exact absurd ht.emits (hold t)

/-- The series is loaded: nobody has seen it before. -/
theorem adopt {c : ℕ} {writer : KlineWriter} {bars : List Kline} {loaded : LoadedSeries} (h : DisplayInv w)
    (hl : w.series.loaded = false) :
    DisplayInv ({ w with series := w.series.adopt loaded }.setCall c (.loaded writer bars)) := by
  obtain ⟨hnone, hout⟩ := h.unloaded hl
  have hupdate : ∀ c' update, (Function.update w.calls c (.loaded writer bars) c').update ≠ some update := by
    intro c' update hu
    rcases update_cases hu with hu | hu
    · cases hu
    · have hc' := hout c'
      cases hcall : w.calls c' with
      | displayed | ranged | cached =>
        rw [hcall] at hc'
        cases hc'
      | _ =>
        rw [hcall] at hu
        cases hu
  have hchanged : ∀ t, w.changedAt ≠ some t := by
    rw [hnone]
    nofun
  exact {
    size := size_crop_le maxStoredBars loaded.bars
    unloaded := nofun
    loads := ⟨h.loads.1, h.loads.2.1, fun c' update hu => absurd hu (hupdate c' update)⟩
    changedAt_le := fun t ht => absurd ht (hchanged t)
    fresh := fun c' update hu => absurd hu (hupdate c' update)
    cached := fun t ht => absurd ht (hchanged t)
    emitted := fun t ht => absurd ht (hchanged t)
    caching := fun t ht => absurd ht (hchanged t)
    emitting := fun t ht => absurd ht (hchanged t) }

/-- Bars that change the store make every load so far an old one. -/
theorem changed {c : ℕ} {writer : KlineWriter} {series : BufferedSeries} (h : DisplayInv w)
    (hsize : series.bars.size ≤ maxStoredBars) (hl : series.loaded = true) :
    DisplayInv ({ w with series := series, changedAt := some w.loads }.setCall c (.merged writer true)) := by
  have hup : ∀ c' update, (Function.update w.calls c (.merged writer true) c').update = some update →
      (w.calls c').update = some update := by
    intro c' update hu
    rcases update_cases hu with hu | hu
    · cases hu
    · exact hu
  have hself : Function.update w.calls c (.merged writer true) c = .merged writer true := Function.update_self ..
  exact {
    size := hsize
    unloaded := fun hl' => by
      have hl'' : series.loaded = false := hl'
      rw [hl] at hl''
      cases hl''
    loads := ⟨h.loads.1, h.loads.2.1, fun c' update hu => h.loads.2.2 c' update (hup c' update hu)⟩
    changedAt_le := fun t ht => by
      cases ht
      exact le_rfl
    fresh := fun c' update hu hlt => by
      have hle := h.loads.2.2 c' update (hup c' update hu)
      have hlt' := hlt w.loads rfl
      omega
    cached := fun t ht hlt => by
      cases ht
      exact absurd h.loads.1 (not_le.2 hlt)
    emitted := fun t ht hlt => by
      cases ht
      exact absurd h.loads.2.1 (not_le.2 hlt)
    caching := fun t _ => .inr ⟨c, by
      show (Function.update w.calls c (.merged writer true) c).caches t
      rw [hself]
      rfl⟩
    emitting := fun t _ => .inr ⟨c, by
      show (Function.update w.calls c (.merged writer true) c).emits t
      rw [hself]
      rfl⟩ }

/-- A call that has come to the series has loaded it. -/
theorem loaded {c : ℕ} (h : DisplayInv w) (hc : (w.calls c).outside = false) : w.series.loaded = true := by
  by_contra hl
  have hout := (h.unloaded (by simpa using hl)).2 c
  rw [hc] at hout
  cases hout

theorem upsert {c : ℕ} {writer : KlineWriter} {bars : List Kline} {series : BufferedSeries} {merge : KlineMergeResult}
    (h : DisplayInv w) (hc : w.calls c = .loaded writer bars)
    (hu : w.series.upsertBars key bars = .ok (series, merge)) :
    DisplayInv ({ w with
      series := series
      changedAt := if merge.changed then some w.loads else w.changedAt }.setCall c (.merged writer merge.changed)) := by
  obtain ⟨hsize, hloaded, hsame⟩ := BufferedSeries.upsertBars_ok hu h.size
  have hl : w.series.loaded = true := h.loaded (by rw [hc]; rfl)
  cases hm : merge.changed with
  | true => exact h.changed hsize (hloaded.trans hl)
  | false =>
    have hseries := hsame hm
    subst hseries
    refine h.silent (fun hl' => ?_) rfl fun t ht => ?_
    · rw [hl] at hl'
      cases hl'
    · rw [hc] at ht
      exact ht

theorem display {c : ℕ} {writer : KlineWriter} {changed needsBackfill : Bool} (h : DisplayInv w)
    (hc : w.calls c = .merged writer changed) :
    DisplayInv ({ w with loads := w.loads + 1 }.setCall c
      (.displayed writer ⟨w.series.newest, changed, needsBackfill, w.loads + 1⟩)) := by
  have hl : w.series.loaded = true := h.loaded (by rw [hc]; rfl)
  refine h.onward rfl rfl rfl (Nat.le_succ _) (fun hl' => ?_) ?_ ⟨le_rfl, Nat.le_succ_of_le h.loads.1⟩ h.cached ?_
    ⟨le_rfl, Nat.le_succ_of_le h.loads.2.1⟩ h.emitted ?_
  · rw [hl] at hl'
    cases hl'
  · rintro update ⟨⟩
    exact .inr ⟨rfl, le_rfl⟩
  -- the number of this load is above that of the last change
  · intro t ht hp
    rw [hc] at hp
    exact .inr ⟨hp, Nat.lt_succ_of_le (h.changedAt_le t ht)⟩
  · intro t ht hp
    rw [hc] at hp
    exact .inr ⟨hp, Nat.lt_succ_of_le (h.changedAt_le t ht)⟩

/-- The loads of a call that goes on to publish them. -/
theorem ranged {c : ℕ} {writer : KlineWriter} {update : BufferedKlineUpdate} {answer : KlineAnswer} (h : DisplayInv w)
    (hc : w.calls c = .displayed writer update) : DisplayInv (w.setCall c (.ranged update answer)) := by
  have hl : w.series.loaded = true := h.loaded (by rw [hc]; rfl)
  refine h.setCall (fun hl' => ?_) ?_ ?_ ?_
  · rw [hl] at hl'
    cases hl'
  · rintro _ ⟨⟩
    rw [hc]
    rfl
  · intro t hp
    rw [hc] at hp
    exact hp
  · intro t hp
    rw [hc] at hp
    exact hp

/-- A call that has changed nothing ends without a publication. -/
theorem finished {c : ℕ} {answer : KlineAnswer} {update : BufferedKlineUpdate} (h : DisplayInv w)
    (hc : (∃ writer, w.calls c = .displayed writer update) ∨ ∃ answer, w.calls c = .ranged update answer)
    (hchanged : update.changed = false) : DisplayInv (w.setCall c (.finished answer)) := by
  refine h.silent (fun _ => rfl) rfl fun t ht => ?_
  rcases hc with ⟨writer, hc⟩ | ⟨answer', hc⟩
  · rw [hc] at ht
    have hp : update.changed = true := ht.1
    rw [hchanged] at hp
    cases hp
  · rw [hc] at ht
    have hp : update.changed = true := ht.1
    rw [hchanged] at hp
    cases hp

/-- A load that is published in order shows the store, if it is newer than the last change. -/
theorem published {c at_ t : ℕ} {update : BufferedKlineUpdate} {old : Option (List Kline)} (h : DisplayInv w)
    (hc : (w.calls c).update = some update) (ht : w.changedAt = some t)
    (hold : t < at_ → old = some w.series.newest) (hord : at_ < update.loadedAt ∨ old = some update.display)
    (hlt : t < max at_ update.loadedAt) : some update.display = some w.series.newest := by
  have hfresh : t < update.loadedAt → update.display = w.series.newest := by
    intro hlt
    refine h.fresh c update hc fun t' ht' => ?_
    rw [ht] at ht'
    cases ht'
    exact hlt
  rcases hord with hord | hord
  · exact congrArg some (hfresh (by omega))
  · by_cases hload : t < update.loadedAt
    · exact congrArg some (hfresh hload)
    · exact hord ▸ hold (by omega)

theorem cache {c : ℕ} {update : BufferedKlineUpdate} {answer : KlineAnswer} (h : DisplayInv w)
    (hc : w.calls c = .ranged update answer)
    (hord : w.cachedAt < update.loadedAt ∨ w.cache = some update.display) :
    DisplayInv ({ w with cache := some update.display, cachedAt := max w.cachedAt update.loadedAt }.setCall c
      (.cached update answer)) := by
  have hl : w.series.loaded = true := h.loaded (by rw [hc]; rfl)
  have hup : (w.calls c).update = some update := by rw [hc]; rfl
  have hle := h.loads.2.2 c update hup
  refine h.onward rfl rfl rfl le_rfl (fun hl' => ?_) ?_ ⟨le_max_left _ _, max_le h.loads.1 hle⟩ ?_ ?_
    ⟨le_rfl, h.loads.2.1⟩ h.emitted ?_
  · rw [hl] at hl'
    cases hl'
  · rintro _ ⟨⟩
    exact .inl hup
  · intro t ht hlt
    exact h.published hup ht (h.cached t ht) hord hlt
  · intro t _ hp
    rw [hc] at hp
    exact .inl (lt_of_lt_of_le hp.2 (le_max_right _ _))
  · intro t _ hp
    rw [hc] at hp
    exact .inr hp.2

theorem emit {c : ℕ} {update : BufferedKlineUpdate} {answer : KlineAnswer} (h : DisplayInv w)
    (hc : w.calls c = .cached update answer)
    (hord : w.emittedAt < update.loadedAt ∨ w.emitted = some update.display) :
    DisplayInv ({ w with emitted := some update.display, emittedAt := max w.emittedAt update.loadedAt }.setCall c
      (.finished answer)) := by
  have hup : (w.calls c).update = some update := by rw [hc]; rfl
  have hle := h.loads.2.2 c update hup
  refine h.onward rfl rfl rfl le_rfl (fun _ => rfl) nofun ⟨le_rfl, h.loads.1⟩ h.cached ?_
    ⟨le_max_left _ _, max_le h.loads.2.1 hle⟩ ?_ ?_
  · intro t _ hp
    rw [hc] at hp
    exact hp.elim
  · intro t ht hlt
    exact h.published hup ht (h.emitted t ht) hord hlt
  · intro t _ hp
    rw [hc] at hp
    exact .inl (lt_of_lt_of_le hp (le_max_right _ _))

theorem step (h : DisplayInv w) (a : DisplayAct) (hord : Ordered w a = true) : DisplayInv (w.step key a) := by
  cases a with
  -- until its upsert a call emits nothing:
  | receive c writer bars =>
    simp only [DisplayWorld.step]
    split
    · next hc =>
      have hquiet : ∀ t, ¬(w.calls c).emits t := by
        rw [hc]
        exact fun t ht => ht
      split
      · exact h.silent (fun _ => rfl) rfl hquiet
      · split
        · exact h.silent (fun _ => rfl) rfl hquiet
        · exact h.silent (fun _ => rfl) rfl hquiet
    · exact h
  | ensureLoaded c disk =>
    simp only [DisplayWorld.step]
    split
    · next writer bars hc =>
      have hquiet : ∀ t, ¬(w.calls c).emits t := by
        rw [hc]
        exact fun t ht => ht
      split
      · next hl =>
        refine h.silent (fun hl' => ?_) rfl hquiet
        rw [hl] at hl'
        cases hl'
      · next hl =>
        split
        · exact h.adopt (by simpa using hl)
        · exact h.silent (fun _ => rfl) rfl hquiet
    · exact h
  -- the series changes, and the call owes its emission:
  | upsert c =>
    simp only [DisplayWorld.step]
    split
    · next writer bars hc =>
      split
      · next series merge hu => exact h.upsert hc hu
      · refine h.silent (fun _ => rfl) rfl ?_
        rw [hc]
        exact fun t ht => ht
    · exact h
  | display c =>
    simp only [DisplayWorld.step, BufferedSeries.loadRange_newest]
    split
    · next writer changed hc => exact h.display hc
    · exact h
  -- only a range that is reversed can fail, which the order of the run excludes:
  | range c =>
    simp only [DisplayWorld.step]
    split
    · next writer update hc =>
      split
      · exact h.ranged hc
      · next start «end» requested hrange =>
        split
        · exact h.ranged hc
        · next e hfail =>
          refine h.finished (.inl ⟨writer, hc⟩) ?_
          have hcond : update.changed = false ∨ reversed start «end» = false := by
            simpa [Ordered, hc, hrange] using hord
          refine hcond.resolve_right fun hrev => ?_
          obtain ⟨bars, hload⟩ := BufferedSeries.exists_loadRange w.series requested hrev
          rw [hload] at hfail
          cases hfail
    · exact h
  | cache c =>
    simp only [DisplayWorld.step]
    split
    · next update answer hc =>
      split
      · next hchanged => exact h.cache hc (by simpa [Ordered, hc, hchanged] using hord)
      · next hchanged => exact h.finished (.inr ⟨answer, hc⟩) (by simpa using hchanged)
    · exact h
  | emit c =>
    simp only [DisplayWorld.step]
    split
    · next update answer hc => exact h.emit hc (by simpa [Ordered, hc] using hord)
    · exact h

end DisplayInv

/-- **The display converges.** In a run whose steps publish the loads in order and fail no
call that has changed the store, the cached klines and the last event show the store
whenever every call has finished and one has changed the store. -/
theorem display_converges (key : ChartWorkspaceKey) (as : List DisplayAct)
    (hord : Steps.Along (step key) (fun w a => w.Ordered a = true) init as) (hdone : (run key as).Settled) : (run key as).Shown := by
  have h : DisplayInv (run key as) := Steps.run_inv_along (fun w a hw ha => hw.step a ha) as init init_inv hord
  obtain ⟨hcalls, hchanged⟩ := hdone
  obtain ⟨t, ht⟩ := Option.isSome_iff_exists.1 hchanged
  have hnone : ∀ c, ¬((run key as).calls c).emits t := by
    intro c hp
    have hc := hcalls c
    cases hcall : (run key as).calls c with
    | idle | finished answer =>
      rw [hcall] at hp
      exact hp
    | _ =>
      rw [hcall] at hc
      cases hc
  have hnone' : ∀ c, ¬((run key as).calls c).caches t := fun c hp => hnone c (hp.emits)
  have hcached : t < (run key as).cachedAt := (h.caching t ht).resolve_right fun ⟨c, hp⟩ => hnone' c hp
  have hemitted : t < (run key as).emittedAt := (h.emitting t ht).resolve_right fun ⟨c, hp⟩ => hnone c hp
  exact ⟨_, BufferedSeries.loadRange_newest _, h.cached t ht hcached, h.emitted t ht hemitted⟩

/-- A call that takes no step does not start. -/
theorem calls_of_ne (key : ChartWorkspaceKey) {c : ℕ} {as : List DisplayAct} (h : ∀ a ∈ as, a.call ≠ c) :
    (run key as).calls c = .idle := by
  have hstep : ∀ (w : DisplayWorld) a, a.call ≠ c → (w.step key a).calls c = w.calls c := by
    intro w a ha
    have hset : ∀ (w : DisplayWorld) call, (w.setCall a.call call).calls c = w.calls c := fun w call =>
      Function.update_of_ne ha.symm ..
    cases a <;> simp only [DisplayWorld.step] <;> repeat' split
    all_goals first | rfl | exact hset _ _
  have hrun : ∀ (as : List DisplayAct) (w : DisplayWorld), (∀ a ∈ as, a.call ≠ c) →
      (Steps.run (step key) w as).calls c = w.calls c := by
    intro as
    induction as with
    | nil => intro w _; rfl
    | cons a as ih =>
      intro w h
      rw [Steps.run_cons, ih _ fun b hb => h b (List.mem_cons_of_mem a hb)]
      exact hstep w a (h a List.mem_cons_self)
  exact hrun as init h

/-- A run of the calls 0 and 1 is over when these two are. -/
theorem settled_of_two (key : ChartWorkspaceKey) {as : List DisplayAct} (h : ∀ a ∈ as, a.call = 0 ∨ a.call = 1)
    (h0 : ((run key as).calls 0).settled = true) (h1 : ((run key as).calls 1).settled = true) (c : ℕ) :
    ((run key as).calls c).settled = true := by
  by_cases hc : c = 0 ∨ c = 1
  · rcases hc with rfl | rfl
    · exact h0
    · exact h1
  · have hidle : (run key as).calls c = .idle := calls_of_ne key fun a ha hac => hc (hac ▸ h a ha)
    rw [hidle]
    rfl

/-- A bar of the key below. -/
def sampleBar (close : String) : Kline := ⟨"BTCUSDT", "1", 1000, close, close, close, close, "1"⟩

/-- A websocket call and a REST call with a newer close publish one after the other. -/
theorem display_converges_sample :
    (run ⟨"BTCUSDT", "1"⟩
      [.receive 0 .mergeAndEmitKlines [sampleBar "2"], .ensureLoaded 0 (.ok ⟨∅, 0, false⟩), .upsert 0, .display 0, .range 0,
        .receive 1 (.fetchKlineRange none none none) [sampleBar "3"], .ensureLoaded 1 (.ok ⟨∅, 0, false⟩), .upsert 1,
        .cache 0, .display 1, .range 1, .emit 0, .cache 1, .emit 1]).Shown :=
  display_converges _ _ (by decide +kernel)
    ⟨settled_of_two _ (by decide +kernel) (by decide +kernel) (by decide +kernel), by decide +kernel⟩

/-- A REST call loads the display, a websocket call merges and publishes a newer close, and
then the REST call publishes what it has loaded. -/
theorem display_left_stale :
    ∃ as, (run ⟨"BTCUSDT", "1"⟩ as).Settled ∧ ¬(run ⟨"BTCUSDT", "1"⟩ as).Shown := by
  refine ⟨[.receive 0 (.fetchKlineRange none none none) [sampleBar "2"], .ensureLoaded 0 (.ok ⟨∅, 0, false⟩), .upsert 0,
    .display 0, .range 0, .receive 1 .mergeAndEmitKlines [sampleBar "3"], .ensureLoaded 1 (.ok ⟨∅, 0, false⟩), .upsert 1,
    .display 1, .range 1, .cache 1, .emit 1, .cache 0, .emit 0],
    ⟨settled_of_two _ (by decide +kernel) (by decide +kernel) (by decide +kernel), by decide +kernel⟩, ?_⟩
  rintro ⟨display, hd, hcache, -⟩
  rw [BufferedSeries.loadRange_newest] at hd
  cases hd
  revert hcache
  decide +kernel

end DisplayWorld

end EasiFlux
