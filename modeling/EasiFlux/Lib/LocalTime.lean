import Mathlib.Data.List.Dedup
import Mathlib.Tactic

/-!
# Local time

A time zone is a table of its UTC offsets: the first one, and the transitions, each with the
offset from then on. Instants and local times are milliseconds.

`single` is the instant that shows a local time, if there is exactly one. A date is the days its
local times have behind them: `date_eq_iff`. While the offset is constant, and all offsets are less
than a day, a date is 24 hours long and its midnight is shown once (`date_of_steady`,
`local_of_steady`).

The transitions cut the time into stretches of one offset. In a stretch the clock shows a midnight
at one instant at most (`mem_midnights`), and whether a date covers the same part of a stretch as
24 hours from a given instant is a question of their ends (`sameDay_iff`).
-/

namespace LocalTime

/-- A day of 24 hours. -/
abbrev dayMs : ℤ := 86400000

/-- A table of offsets, in seconds. -/
structure Zone where
  first : ℤ
  /-- The second of a transition, and the offset from then on. -/
  transitions : List (ℤ × ℤ)
  sorted : transitions.Pairwise fun a b => a.1 < b.1

namespace Zone

variable (z : Zone)

/-- The offset at an instant: that of the last transition before it. -/
def offset (t : ℤ) : ℤ :=
  z.transitions.foldl (fun offset tr => if tr.1 * 1000 ≤ t then tr.2 else offset) z.first

/-- The local time that is shown at an instant. -/
def localTime (t : ℤ) : ℤ := t + z.offset t * 1000

/-- The local date at an instant, in days. -/
def date (t : ℤ) : ℤ := z.localTime t / dayMs

/-- All offsets of the zone. -/
def offsets : List ℤ := z.first :: z.transitions.map Prod.snd

/-- The instants with `p` that show the local time `l`. -/
def shownAt (p : ℤ → Bool) (l : ℤ) : List ℤ :=
  ((z.offsets.map fun o => l - o * 1000).dedup).filter fun t => p t && z.localTime t = l

/-- The only instant with `p` that shows the local time `l`. -/
def single (p : ℤ → Bool) (l : ℤ) : Option ℤ :=
  match z.shownAt p l with
  | [t] => some t
  | _ => none

variable {z} {p : ℤ → Bool} {l t a d : ℤ}

theorem offset_mem (t : ℤ) : z.offset t ∈ z.offsets := by
  have hfold : ∀ (trs : List (ℤ × ℤ)) (o : ℤ),
      trs.foldl (fun offset tr => if tr.1 * 1000 ≤ t then tr.2 else offset) o ∈ o :: trs.map Prod.snd := by
    intro trs
    induction trs with
    | nil => intro o; exact List.mem_cons_self
    | cons tr trs ih =>
      intro o
      rw [List.foldl_cons, List.map_cons]
      have hrest := ih (if tr.1 * 1000 ≤ t then tr.2 else o)
      rcases List.mem_cons.1 hrest with hhead | htail
      · rw [hhead]
        split
        · exact List.mem_cons_of_mem _ List.mem_cons_self
        · exact List.mem_cons_self
      · exact List.mem_cons_of_mem _ (List.mem_cons_of_mem _ htail)
  exact hfold z.transitions z.first

theorem mem_shownAt : t ∈ z.shownAt p l ↔ p t = true ∧ z.localTime t = l := by
  unfold shownAt
  rw [List.mem_filter, List.mem_dedup, List.mem_map, Bool.and_eq_true, decide_eq_true_eq]
  refine ⟨And.right, fun h => ⟨⟨z.offset t, offset_mem t, ?_⟩, h⟩⟩
  have hl := h.2
  unfold localTime at hl
  omega

theorem nodup_shownAt : (z.shownAt p l).Nodup := (List.nodup_dedup _).filter _

theorem single_eq_some_iff : z.single p l = some a ↔ ∀ t, p t = true ∧ z.localTime t = l ↔ t = a := by
  unfold single
  simp only [← mem_shownAt]
  have hnodup : (z.shownAt p l).Nodup := nodup_shownAt
  constructor
  · intro h t
    split at h
    · rename_i b hb
      rw [hb, Option.some.inj h, List.mem_singleton]
    · cases h
  · intro h
    have ha : a ∈ z.shownAt p l := (h a).2 rfl
    match hs : z.shownAt p l with
    | [] => rw [hs] at ha; cases ha
    | [b] => rw [hs, List.mem_singleton] at ha; rw [ha]
    | b :: c :: rest =>
      -- two of them would be `a`
      have hb : b = a := (h b).1 (hs ▸ List.mem_cons_self)
      have hc : c = a := (h c).1 (hs ▸ List.mem_cons_of_mem _ List.mem_cons_self)
      rw [hs, hb, hc] at hnodup
      simp at hnodup

theorem date_eq_iff : z.date t = d ↔ d * dayMs ≤ z.localTime t ∧ z.localTime t < (d + 1) * dayMs := by
  unfold date dayMs
  omega

/-! ## Steady offsets -/

/-- All offsets are less than a day. -/
def Bounded (z : Zone) : Prop := ∀ o ∈ z.offsets, -86400 < o ∧ o < 86400

/-- The offset is the same from two days before `a` to three days after it. -/
def Steady (z : Zone) (a : ℤ) : Prop := ∀ t, a - 2 * dayMs ≤ t → t < a + 3 * dayMs → z.offset t = z.offset a

/-- Around `a` the local time goes as the instants do, and elsewhere it does not come near. -/
theorem local_of_steady (hb : z.Bounded) (hs : z.Steady a) (t : ℤ) :
    z.localTime t = z.localTime a + (t - a) ∨ t < a ∧ z.localTime t < z.localTime a ∨
      a + dayMs < t ∧ z.localTime a + dayMs < z.localTime t := by
  have ht := hb _ (offset_mem (z := z) t)
  have ha := hb _ (offset_mem (z := z) a)
  unfold localTime dayMs
  by_cases hin : a - 2 * dayMs ≤ t ∧ t < a + 3 * dayMs
  · have heq := hs t hin.1 hin.2
    rw [heq]
    omega
  · unfold dayMs at hin
    omega

theorem date_of_steady (hb : z.Bounded) (hs : z.Steady a) (ha : z.localTime a = d * dayMs) (t : ℤ) :
    z.date t = d ↔ a ≤ t ∧ t < a + dayMs := by
  rw [date_eq_iff]
  have hcases := local_of_steady hb hs t
  rw [ha] at hcases
  unfold dayMs at *
  omega

/-! ## Stretches of one offset -/

end Zone

/-- A stretch of one offset: its first instant and the first one behind it, if it has them. -/
structure Stretch where
  start : Option ℤ
  stop : Option ℤ
  offset : ℤ

namespace Stretch

def Has (s : Stretch) (t : ℤ) : Prop := (∀ a ∈ s.start, a ≤ t) ∧ ∀ b ∈ s.stop, t < b

instance (s : Stretch) (t : ℤ) : Decidable (s.Has t) := inferInstanceAs (Decidable (_ ∧ _))

/-- When a clock with this offset shows the midnight of `d`. -/
def midnight (s : Stretch) (d : ℤ) : ℤ := d * dayMs - s.offset * 1000

end Stretch

namespace Zone

def stretchesFrom (start : Option ℤ) (offset : ℤ) : List (ℤ × ℤ) → List Stretch
  | [] => [⟨start, none, offset⟩]
  | tr :: trs => ⟨start, some (tr.1 * 1000), offset⟩ :: stretchesFrom (some (tr.1 * 1000)) tr.2 trs

/-- From each transition to the next one. -/
def stretches (z : Zone) : List Stretch := stretchesFrom none z.first z.transitions

/-- The instants with `p` at which a stretch shows the midnight of `d`. -/
def midnights (z : Zone) (p : ℤ → Bool) (d : ℤ) : List ℤ :=
  ((z.stretches.filter fun s => s.Has (s.midnight d)).map fun s => s.midnight d).filter p

variable {z : Zone} {p : ℤ → Bool} {s : Stretch} {t a d o : ℤ} {tr : ℤ × ℤ} {trs : List (ℤ × ℤ)}

theorem exists_stretchesFrom {start : Option ℤ} (h : ∀ a ∈ start, a ≤ t) : ∃ s ∈ stretchesFrom start o trs, s.Has t := by
  induction trs generalizing start o with
  | nil => exact ⟨_, List.mem_singleton_self _, h, by simp⟩
  | cons tr trs ih =>
    by_cases hlt : t < tr.1 * 1000
    · exact ⟨_, List.mem_cons_self, h, by simpa using hlt⟩
    · have hfrom : ∀ a ∈ some (tr.1 * 1000), a ≤ t := by simpa using hlt
      obtain ⟨s, hs, hhas⟩ : ∃ s ∈ stretchesFrom (some (tr.1 * 1000)) tr.2 trs, s.Has t := ih hfrom
      exact ⟨s, List.mem_cons_of_mem _ hs, hhas⟩

/-- The stretches behind a transition are later than it. -/
theorem le_of_stretchesFrom (hsorted : (tr :: trs).Pairwise fun a b => a.1 < b.1)
    (hs : s ∈ stretchesFrom (some (tr.1 * 1000)) o trs) (h : s.Has t) : tr.1 * 1000 ≤ t := by
  induction trs generalizing tr o with
  | nil =>
    rw [List.mem_singleton.1 hs] at h
    exact h.1 _ rfl
  | cons tr' trs ih =>
    rcases List.mem_cons.1 hs with rfl | hs
    · exact h.1 _ rfl
    · have hlt := List.rel_of_pairwise_cons hsorted List.mem_cons_self
      have hle := ih hsorted.of_cons hs
      omega

theorem foldl_of_lt (h : ∀ tr ∈ trs, t < tr.1 * 1000) :
    trs.foldl (fun offset tr => if tr.1 * 1000 ≤ t then tr.2 else offset) o = o := by
  induction trs with
  | nil => rfl
  | cons tr trs ih =>
    have hlt := h tr List.mem_cons_self
    rw [List.foldl_cons, if_neg (by omega)]
    exact ih fun tr' htr' => h tr' (List.mem_cons_of_mem _ htr')

theorem foldl_of_has {start : Option ℤ} (hsorted : trs.Pairwise fun a b => a.1 < b.1)
    (hs : s ∈ stretchesFrom start o trs) (h : s.Has t) :
    trs.foldl (fun offset tr => if tr.1 * 1000 ≤ t then tr.2 else offset) o = s.offset := by
  induction trs generalizing start o with
  | nil => rw [List.mem_singleton.1 hs]; rfl
  | cons tr trs ih =>
    rcases List.mem_cons.1 hs with rfl | hs
    · -- the transitions are all behind the first stretch
      have hlt : t < tr.1 * 1000 := h.2 _ rfl
      refine foldl_of_lt fun tr' htr' => ?_
      rcases List.mem_cons.1 htr' with rfl | htr'
      · exact hlt
      · have := List.rel_of_pairwise_cons hsorted htr'
        omega
    · rw [List.foldl_cons, if_pos (le_of_stretchesFrom hsorted hs h)]
      exact ih hsorted.of_cons hs

theorem exists_stretch (z : Zone) (t : ℤ) : ∃ s ∈ z.stretches, s.Has t := exists_stretchesFrom (by simp)

theorem local_of_has (hs : s ∈ z.stretches) (h : s.Has t) : z.localTime t = t + s.offset * 1000 :=
  congrArg (fun o => t + o * 1000) (foldl_of_has z.sorted hs h)

theorem date_of_has (hs : s ∈ z.stretches) (h : s.Has t) : z.date t = d ↔ s.midnight d ≤ t ∧ t < s.midnight d + dayMs := by
  rw [date_eq_iff, local_of_has hs h]
  unfold Stretch.midnight dayMs
  omega

theorem mem_midnights : t ∈ z.midnights p d ↔ p t = true ∧ z.localTime t = d * dayMs := by
  unfold midnights
  simp only [List.mem_filter, List.mem_map, decide_eq_true_eq]
  constructor
  · rintro ⟨⟨s, ⟨hs, hhas⟩, rfl⟩, hp⟩
    refine ⟨hp, ?_⟩
    rw [local_of_has hs hhas]
    unfold Stretch.midnight
    omega
  · rintro ⟨hp, hlocal⟩
    obtain ⟨s, hs, hhas⟩ := exists_stretch z t
    rw [local_of_has hs hhas] at hlocal
    have ht : s.midnight d = t := by unfold Stretch.midnight; omega
    exact ⟨⟨s, ⟨hs, by rwa [ht]⟩, ht⟩, hp⟩

/-- From `first` up to `last` the 24 hours from `a` are those from `m`: there is nothing between, or `m`
is `a`, or all of it lies in both, or all of it outside both. -/
def SameDay (first last a m : ℤ) : Prop :=
  last ≤ first ∨ m = a ∨ (max a m ≤ first ∧ last ≤ min a m + dayMs) ∨
    last ≤ min a m ∨ max a m + dayMs ≤ first ∨ (min a m + dayMs ≤ first ∧ last ≤ max a m)

instance (first last a m : ℤ) : Decidable (SameDay first last a m) := inferInstanceAs (Decidable (_ ∨ _))

theorem sameDay_iff {first last a m : ℤ} : SameDay first last a m ↔
    ∀ t, first ≤ t → t < last → (a ≤ t ∧ t < a + dayMs ↔ m ≤ t ∧ t < m + dayMs) := by
  unfold SameDay dayMs
  constructor
  · intro h t h1 h2
    omega
  · intro h
    -- the ends decide, and the first and the last instant
    have h1 := h first le_rfl
    have h2 := h (last - 1)
    have h3 := h (min a m)
    have h4 := h (max a m)
    have h5 := h (min a m + 86400000)
    have h6 := h (max a m + 86400000 - 1)
    have h7 := h (max a m - 1)
    omega

end Zone

end LocalTime
