import EasiFlux.Proof.Ledger

/-!
# Changes of the configuration and the daily limit

The service keeps one ledger, for one day in one zone, and a reservation for
another day or zone begins a new one. When the zone is changed and changed back,
the ledger that counted the first reservations is gone:

* `limit_reset`: two reservations of a day and zone whose limit is one.
* `limit_kept`: while no ledger is begun for a day and zone that still has
  outstanding reservations, no change of the configuration resets the limit.
-/

namespace EasiFlux

open CrashIo Results Steps RiskUsageStore RiskService

namespace RiskService

variable {C : UsageCodec} {Z : Calendar} {R : RiskDecimals} {s : RiskService}

/-- A save whose calls go through saves, or refuses the ledger. -/
theorem save_works (C : UsageCodec) (u : RiskUsage) (m : RiskDir) :
    (∃ f, save C u m [] = .ok () f [] ∧ Saved C u f) ∨ ∃ e, save C u m [] = .err e m [] := by
  cases hb : C.encode u with
  | some b =>
    obtain ⟨f, hf, hm, -⟩ := save_run hb m
    exact .inl ⟨f, hf, b, hb, hm⟩
  | none =>
    refine .inr ⟨.storage "toml", ?_⟩
    unfold save
    rw [Io.bind_of_ok (storageError_of_ok sync_run)]
    exact Io.bind_of_err (by rw [hb]; rfl)

theorem reserveOrder_works (request : PlaceOrderRequest) (price : Option String) (nowMs : ℕ) (utcNow : ℤ)
    (s : RiskService) : (∃ r s', reserveOrder C Z R request price nowMs utcNow s [] = .ok r s' []) ∨
      ∃ v, reserveOrder C Z R request price nowMs utcNow s [] = .err v s [] := by
  unfold reserveOrder
  have hget : (Io.get : Io RiskService RiskViolation RiskService) s [] = .ok s s [] := rfl
  rw [Io.bind_of_ok hget]
  split
  · exact .inl ⟨_, _, rfl⟩
  cases hv : validateOrder R s.config request price with
  | error v => exact .inr ⟨v, Io.bind_of_err rfl⟩
  | ok _ =>
    rw [Io.bind_of_ok (Io.lift_of_ok rfl)]
    split
    · exact .inl ⟨_, _, rfl⟩
    rename_i hred
    dsimp only
    rcases hl : ensure (s.loadError = none) (RiskViolation.new .ledgerUnavailable) with v | _
    · exact .inr ⟨v, Io.bind_of_err rfl⟩
    rw [Io.bind_of_ok (Io.lift_of_ok rfl)]
    generalize s.currentUsage _ _ nowMs = next
    rcases hm : ensure (next.occupiedOrders < s.config.maxDailyOrders)
        (RiskViolation.withLimit .dailyOrderLimit s.config.maxDailyOrders) with v | _
    · exact .inr ⟨v, Io.bind_of_err rfl⟩
    rw [Io.bind_of_ok (Io.lift_of_ok rfl)]
    rcases save_works C { next with occupiedOrders := next.occupiedOrders + 1, updatedAtMs := nowMs } s.files with
      ⟨f, hf, -⟩ | ⟨e, hf⟩
    · exact .inl ⟨_, _, Io.bind_of_ok (Io.within_of_ok (Io.mapErr_of_ok hf))⟩
    · exact .inr ⟨_, Io.bind_of_err (Io.within_of_err (Io.mapErr_of_err hf))⟩

theorem releaseReservation_works (r : RiskReservation) (nowMs : ℕ) (s : RiskService) :
    (∃ s', releaseReservation C r nowMs s [] = .ok () s' []) ∨ ∃ e, releaseReservation C r nowMs s [] = .err e s [] := by
  unfold releaseReservation
  split
  · exact .inl ⟨_, rfl⟩
  have hget : (Io.get : Io RiskService AppError RiskService) s [] = .ok s s [] := rfl
  rw [Io.bind_of_ok hget]
  cases s.usage with
  | none => exact .inl ⟨_, rfl⟩
  | some current =>
    dsimp only
    split
    · exact .inl ⟨_, rfl⟩
    rcases save_works C { current with occupiedOrders := current.occupiedOrders - 1, updatedAtMs := nowMs } s.files with
      ⟨f, hf, -⟩ | ⟨e, hf⟩
    · exact .inl ⟨_, Io.bind_of_ok (Io.within_of_ok hf)⟩
    · exact .inr ⟨_, Io.bind_of_err (Io.within_of_err hf)⟩

end RiskService

namespace RiskWorld

/-- A working store; no order that is counted begins a ledger for a day and zone that has outstanding
reservations, and no reservation that the ledger counts is released twice. -/
def Returns (Z : Calendar) (R : RiskDecimals) (w : RiskWorld) : RiskAct → Prop
  | .reserve request price nowMs utcNow faults => faults = [] ∧ (w.service.Asked Z R request price nowMs utcNow →
      w.covers (w.service.keyAt Z nowMs utcNow) ∨ w.outstanding (w.service.keyAt Z nowMs utcNow) = 0)
  | .release i _ faults => faults = [] ∧ ∀ g ∈ w.grants[i]?, w.covers g.reservation.key → g.released = false
  | .update _ => True
  | .restart => True

/-- `p` holds of a grant that is outstanding for `key`. -/
def isOpen (key : RiskKey) (g : Grant) : Bool := g.reservation.key = key ∧ !g.released

/-- The ledger on disk counts the outstanding reservations of its key, and it is the
one that counted them. -/
structure Covered (w : RiskWorld) (u : RiskUsage) : Prop where
  count : w.outstanding u.key ≤ u.occupiedOrders
  last : ∀ g ∈ w.grants, isOpen u.key g → g.ledger = w.ledgers

/-- What holds whatever the configuration does. `slot` is the ledger on disk; in
memory it is dropped while the service is off. -/
structure Limited (C : UsageCodec) (w : RiskWorld) (slot : Option RiskUsage) : Prop where
  disk : loadUsage C w.service.files = .ok slot
  memory : w.service.usage = if w.service.config.enabled then slot else none
  available : w.service.loadError = none
  covered : ∀ u ∈ slot, w.Covered u
  counted : ∀ g ∈ w.grants, g.reservation.counted = true
  limit : ∀ i g, w.grants[i]? = some g → g.released = false →
    (w.grants.take (i + 1)).countP (isOpen g.reservation.key) ≤ g.limit

variable {C : UsageCodec} {Z : Calendar} {w : RiskWorld} {slot : Option RiskUsage}

theorem outstanding_eq (w : RiskWorld) (key : RiskKey) : w.outstanding key = w.grants.countP (isOpen key) := rfl

theorem isOpen_iff {key : RiskKey} {g : Grant} : isOpen key g = true ↔ g.reservation.key = key ∧ g.released = false := by
  simp [isOpen]

/-- Some outstanding reservation was granted when all the others were. -/
theorem exists_last {p : Grant → Bool} (l : List Grant) (h : 0 < l.countP p) :
    ∃ i g, l[i]? = some g ∧ p g = true ∧ (l.take (i + 1)).countP p = l.countP p := by
  induction l using List.reverseRecOn with
  | nil => simp at h
  | append_singleton l g ih =>
    by_cases hg : p g = true
    · refine ⟨l.length, g, by simp, hg, ?_⟩
      rw [List.take_of_length_le (by simp)]
    · have hc : (l ++ [g]).countP p = l.countP p := by simp [List.countP_append, hg]
      rw [hc] at h ⊢
      obtain ⟨i, g', hi, hp, he⟩ := ih h
      have hlt : i < l.length := (List.getElem?_eq_some_iff.1 hi).1
      refine ⟨i, g', by rw [List.getElem?_append_left hlt]; exact hi, hp, ?_⟩
      rw [List.take_append_of_le_length (by omega), he]

theorem Limited.bound (h : w.Limited C slot) (key : RiskKey) :
    w.outstanding key = 0 ∨ ∃ g ∈ w.grants, g.reservation.key = key ∧ g.released = false ∧ w.outstanding key ≤ g.limit := by
  rcases Nat.eq_zero_or_pos (w.outstanding key) with h0 | h0
  · exact .inl h0
  · obtain ⟨i, g, hi, hp, he⟩ := exists_last (p := isOpen key) w.grants h0
    obtain ⟨hk, hr⟩ := isOpen_iff.1 hp
    have hl := h.limit i g hi hr
    rw [hk, he, ← outstanding_eq] at hl
    exact .inr ⟨g, List.mem_of_getElem? hi, hk, hr, hl⟩

/-- Changing the service and its ledger only. -/
theorem Limited.service {s : RiskService} (h : w.Limited C slot) (hf : s.files = w.service.files)
    (hm : s.usage = if s.config.enabled then slot else none) (ha : s.loadError = none) :
    ({ w with service := s } : RiskWorld).Limited C slot :=
  ⟨hf ▸ h.disk, hm, ha, fun u hu => ⟨(h.covered u hu).count, (h.covered u hu).last⟩, h.counted, h.limit⟩

theorem Limited.loaded (h : w.Limited C slot) : RiskService.loaded C w.service.files = (slot, none) := by
  unfold RiskService.loaded
  rw [h.disk]

theorem Limited.update (h : w.Limited C slot) (config : RiskConfig) :
    ({ w with service := w.service.updateConfig C config } : RiskWorld).Limited C slot := by
  unfold updateConfig
  split
  · rename_i he
    refine h.service rfl ?_ rfl
    simp only [Bool.not_eq_eq_eq_not, Bool.not_true] at he
    simp [he]
  · rename_i he
    have he' : config.enabled = true := by simpa using he
    split
    · refine h.service rfl ?_ ?_
      · simp [he', h.loaded]
      · simp [h.loaded]
    · rename_i hw
      have hw' : w.service.config.enabled = true := by simpa using hw
      refine h.service rfl ?_ h.available
      have hm := h.memory
      rw [hw', if_pos rfl] at hm
      simp [he', hm]

theorem Limited.start (h : w.Limited C slot) : (w.start C w.service.files).Limited C slot := by
  have hs : (withStore C w.service.config w.service.files).files = w.service.files := by
    unfold withStore; split <;> rfl
  refine ⟨?_, ?_, ?_, fun u hu => ⟨(h.covered u hu).count, (h.covered u hu).last⟩, h.counted, h.limit⟩
  · show loadUsage C (withStore C w.service.config w.service.files).files = _
    rw [hs]
    exact h.disk
  · show (withStore C w.service.config w.service.files).usage = _
    unfold withStore RiskWorld.start withStore
    rw [h.loaded]
    split <;> simp_all
  · show (withStore C w.service.config w.service.files).loadError = _
    unfold withStore
    rw [h.loaded]
    split <;> rfl

/-- A granted reservation is counted by the ledger it is saved in. -/
theorem Limited.grant {r : RiskReservation} {f : RiskDir} {key : RiskKey} {nowMs : ℕ} (h : w.Limited C slot)
    (ho : w.service.Open key nowMs) (hret : w.covers key ∨ w.outstanding key = 0) (hc : r.counted = true) (hr : r.key = key)
    (hf : Saved C (w.service.reserved key nowMs) f) :
    (w.grant r { w.service with usage := some (w.service.reserved key nowMs), files := f }).Limited C
      (some (w.service.reserved key nowMs)) := by
  have hmem : w.service.usage = slot := by rw [h.memory, if_pos ho.enabled]
  have hkey := reserved_key w.service key nowMs
  have hocc := reserved_occupied w.service key nowMs
  -- the ledger in memory counts what is outstanding, or nothing is
  have hle : w.outstanding key ≤ occupied w.service.usage key := by
    rcases hret with ⟨u, hu, hk⟩ | h0
    · have := (h.covered u (hmem ▸ hu)).count
      rw [hu, ← hk]
      exact this.trans (le_of_eq (if_pos rfl).symm)
    · omega
  have hlast : ∀ g ∈ w.grants, isOpen key g → g.ledger = if w.covers key then w.ledgers else w.ledgers + 1 := by
    intro g hg hgo
    rcases hret with hcov | h0
    · obtain ⟨u, hu, hk⟩ := id hcov
      rw [if_pos hcov]
      exact (h.covered u (hmem ▸ hu)).last g hg (hk ▸ hgo)
    · rw [outstanding_eq, List.countP_eq_zero] at h0
      exact absurd hgo (h0 g hg)
  set w' := w.grant r { w.service with usage := some (w.service.reserved key nowMs), files := f } with hw'
  have hout : w'.outstanding key = w.outstanding key + 1 := by
    simp [hw', RiskWorld.outstanding, RiskWorld.grant, List.countP_append, hr]
  have hgrants : w'.grants = w.grants ++ [⟨r, w.service.config.maxDailyOrders, w'.ledgers, false⟩] := rfl
  have hledgers : w'.ledgers = if w.covers key then w.ledgers else w.ledgers + 1 := by
    rw [← hr]; rfl
  refine ⟨loadUsage_saved hf, (if_pos ho.enabled).symm, h.available, fun u hu => ?_, ?_, ?_⟩
  · obtain rfl := Option.some.inj hu
    refine ⟨by rw [hkey, hout, hocc]; omega, fun g hg hgo => ?_⟩
    rw [hgrants] at hg
    rcases List.mem_append.1 hg with hg | hg
    · rw [hledgers]
      exact hlast g hg (hkey ▸ hgo)
    · rw [List.mem_singleton.1 hg]
  · intro g hg
    rw [hgrants] at hg
    rcases List.mem_append.1 hg with hg | hg
    · exact h.counted g hg
    · rw [List.mem_singleton.1 hg]
      exact hc
  · intro i g hi hrel
    rw [hgrants] at hi ⊢
    by_cases hlt : i < w.grants.length
    · rw [List.getElem?_append_left hlt] at hi
      rw [List.take_append_of_le_length (by omega)]
      exact h.limit i g hi hrel
    · obtain ⟨hil, hge⟩ := List.getElem?_eq_some_iff.1 hi
      have hi' : i = w.grants.length := by simp at hil; omega
      subst hi'
      have hg : g = ⟨r, w.service.config.maxDailyOrders, w'.ledgers, false⟩ := by simpa using hge.symm
      subst hg
      rw [List.take_of_length_le (by simp), ← hgrants, ← outstanding_eq, hr, hout]
      have hroom := ho.room
      rw [hocc] at hroom
      exact (Nat.succ_le_succ hle).trans hroom

/-- A release that is repeated when the ledger is another one changes nothing. -/
theorem markReleased_again {i : ℕ} {g : Grant} (hg : w.grants[i]? = some g) (hr : g.released = true)
    (hc : ¬w.covers g.reservation.key) : w.markReleased i g w.service = w := by
  obtain ⟨hi, hget⟩ := List.getElem?_eq_some_iff.1 hg
  have hsame : ({ g with released := true } : Grant) = w.grants[i] := by rw [hget, ← hr]
  unfold RiskWorld.markReleased
  rw [if_neg hc, if_neg hc, hsame, List.set_getElem_self]

/-- Marking a grant as released takes nothing away from the others. -/
theorem Limited.markReleased {i : ℕ} {g : Grant} {s : RiskService} {slot' : Option RiskUsage} (h : w.Limited C slot)
    (hg : w.grants[i]? = some g) (hr : g.released = false) (hd : loadUsage C s.files = .ok slot')
    (hm : s.usage = if s.config.enabled then slot' else none) (ha : s.loadError = none)
    (hs : ∀ u ∈ slot', ∃ v ∈ slot, u.key = v.key ∧
      v.occupiedOrders ≤ u.occupiedOrders + if g.reservation.key = v.key then 1 else 0) :
    (w.markReleased i g s).Limited C slot' := by
  have hset : ∀ (l : List Grant) (j : ℕ) (key : RiskKey), l[j]? = some g →
      (l.set j { g with released := true }).countP (isOpen key) ≤ l.countP (isOpen key) := by
    intro l j key hj
    obtain ⟨hj', -⟩ := List.getElem?_eq_some_iff.1 hj
    rw [List.countP_set hj']
    have : isOpen key { g with released := true } = false := by simp [isOpen]
    simp [this]
  refine ⟨hd, hm, ha, fun u hu => ?_, ?_, ?_⟩
  · obtain ⟨v, hv, hk, hle⟩ := hs u hu
    have hcount := (h.covered v hv).count
    have hout := outstanding_markReleased hg hr s v.key
    refine ⟨by rw [hk]; omega, fun g' hg' hgo => ?_⟩
    rcases List.mem_or_eq_of_mem_set hg' with hg' | rfl
    · exact (h.covered v hv).last g' hg' (hk ▸ hgo)
    · simp [isOpen] at hgo
  · intro g' hg'
    rcases List.mem_or_eq_of_mem_set hg' with hg' | rfl
    · exact h.counted g' hg'
    · exact h.counted g (List.mem_of_getElem? hg)
  · intro j g' hj hrel
    have hj' : (w.grants.set i { g with released := true })[j]? = some g' := hj
    rw [List.getElem?_set] at hj'
    split at hj'
    · split at hj'
      · rw [← Option.some.inj hj'] at hrel; cases hrel
      · cases hj'
    · rename_i hne
      refine le_trans ?_ (h.limit j g' hj' hrel)
      show ((w.grants.set i { g with released := true }).take (j + 1)).countP _ ≤ _
      rw [List.take_set]
      by_cases hi : i < j + 1
      · exact hset _ i _ (by rw [List.getElem?_take_of_lt hi]; exact hg)
      · rw [List.set_eq_of_length_le (by simp; omega)]

variable {R : RiskDecimals}

theorem limited_step (a : RiskAct) (h : w.Limited C slot) (ha : w.Returns Z R a) :
    ∃ slot', (w.step C Z R a).Limited C slot' := by
  cases a with
  | update config => exact ⟨slot, h.update config⟩
  | restart => exact ⟨slot, h.start⟩
  | reserve request price nowMs utcNow faults =>
    obtain ⟨rfl, hret⟩ := ha
    have hwp : wp (reserveOrder C Z R request price nowMs utcNow) _ _ _ w.service :=
      wp_reserveOrder request price nowMs utcNow w.service
    have hspec := hwp []
    have h1 : ({ w with today := some (tradingDay Z nowMs utcNow (w.service.zone Z)) } : RiskWorld).Limited C slot :=
      ⟨h.disk, h.memory, h.available, fun u hu => ⟨(h.covered u hu).count, (h.covered u hu).last⟩, h.counted, h.limit⟩
    show ∃ slot', (w.reserve C Z R request price nowMs utcNow []).Limited C slot'
    unfold RiskWorld.reserve
    have hworks : (∃ r s', reserveOrder C Z R request price nowMs utcNow w.service [] = .ok r s' []) ∨ _ :=
      reserveOrder_works request price nowMs utcNow w.service
    rcases hworks with ⟨r, s, hm⟩ | ⟨v, hm⟩
    · simp only [hm] at hspec ⊢
      rcases hspec with ⟨hc, rfl⟩ | ⟨ho, hc, hr, f, hf, rfl⟩
      · -- a reservation that is not counted saves nothing:
        simp only [hc]
        exact ⟨slot, h1⟩
      · simp only [hc, if_true]
        exact ⟨_, h1.grant ho.toOpen (hret ho) hc hr hf⟩
    · simp only [hm]
      exact ⟨slot, h1.disk, h1.memory, h1.available, fun u hu => ⟨(h1.covered u hu).count, (h1.covered u hu).last⟩,
        h1.counted, h1.limit⟩
  | release i nowMs faults =>
    obtain ⟨rfl, hrel⟩ := ha
    show ∃ slot', (w.release C i nowMs []).Limited C slot'
    unfold RiskWorld.release
    cases hi : w.grants[i]? with
    | none => exact ⟨slot, h⟩
    | some g =>
      have hr := hrel g hi
      have hspec := wp_releaseReservation (C := C) g.reservation nowMs w.service []
      simp only
      rcases releaseReservation_works (C := C) g.reservation nowMs w.service with ⟨s, hm⟩ | ⟨e, hm⟩
      · simp only [hm] at hspec ⊢
        rcases hspec with ⟨hno, rfl⟩ | ⟨u, hu, hk, f, hf, rfl⟩
        · cases hagain : g.released with
          | true =>
            have hc : ¬w.covers g.reservation.key := fun ⟨u, hu, hk⟩ => hno (h.counted g (List.mem_of_getElem? hi)) u hu hk
            rw [markReleased_again hi hagain hc]
            exact ⟨slot, h⟩
          | false =>
            exact ⟨slot, h.markReleased hi hagain h.disk h.memory h.available fun u hu => ⟨u, hu, rfl, Nat.le_add_right _ _⟩⟩
        · -- the ledger has the key, and the release is saved in it:
          have hen : w.service.config.enabled = true := by
            by_contra hen
            rw [h.memory, if_neg hen] at hu
            cases hu
          refine ⟨some (freed u nowMs), h.markReleased hi (hr ⟨u, hu, hk⟩) (loadUsage_saved hf) (if_pos hen).symm h.available ?_⟩
          rintro v ⟨⟩
          rw [h.memory, if_pos hen] at hu
          refine ⟨u, hu, rfl, ?_⟩
          rw [if_pos hk.symm, freed_occupied]
          omega
      · simp only [hm]
        exact ⟨slot, h.disk, h.memory, h.available, fun u hu => ⟨(h.covered u hu).count, (h.covered u hu).last⟩,
          h.counted, h.limit⟩

theorem limited_init (config : RiskConfig) : (init C config).Limited C none := by
  have hload : loadUsage C ⟨∅, []⟩ = .ok none := loadUsage_empty fun n => by rfl
  have hserv : (init C config).service = ⟨config, none, none, ⟨∅, []⟩⟩ := by
    simp only [init, withStore, RiskService.loaded, hload]
    split <;> rfl
  refine ⟨by rw [hserv]; exact hload, by rw [hserv]; simp, by rw [hserv], by simp, by simp [init], by simp [init]⟩

theorem limited_run (config : RiskConfig) (as : List RiskAct)
    (ha : Along (step C Z R) (Returns Z R) (init C config) as) :
    ∃ slot, (run (step C Z R) (init C config) as).Limited C slot :=
  run_inv_along (I := fun w : RiskWorld => ∃ slot, w.Limited C slot) (fun _ a ⟨_, h⟩ ha => limited_step a h ha) as _
    ⟨none, limited_init config⟩ ha

end RiskWorld

open RiskWorld

/-- A release whose calls go through. -/
theorem release_run {C : UsageCodec} {w : RiskWorld} {i : ℕ} (nowMs : ℕ) {g : Grant} {u : RiskUsage} {b : Bytes}
    (hg : w.grants[i]? = some g) (hu : w.service.usage = some u) (hk : u.key = g.reservation.key)
    (hc : g.reservation.counted = true) (hb : C.encode (freed u nowMs) = some b) :
    (w.release C i nowMs []).service.usage = some (freed u nowMs) := by
  obtain ⟨f, hf, -⟩ := save_run hb w.service.files
  have hrel : releaseReservation C g.reservation nowMs w.service [] =
      .ok () { w.service with usage := some (freed u nowMs), files := f } [] := by
    unfold releaseReservation
    have hget : (Io.get : Io RiskService AppError RiskService) w.service [] = .ok w.service w.service [] := rfl
    rw [if_neg (by simp [hc]), Io.bind_of_ok hget, hu]
    simp only
    rw [RiskUsage.key, RiskReservation.key, Prod.mk.injEq] at hk
    rw [if_neg (by simp [hk.1, hk.2])]
    exact Io.bind_of_ok (Io.within_of_ok hf)
  unfold RiskWorld.release
  rw [hg]
  simp only [hrel]
  rfl

/-- A release whose ledger is not the one in memory. -/
theorem release_late {C : UsageCodec} {w : RiskWorld} {i : ℕ} (nowMs : ℕ) {g : Grant} (hg : w.grants[i]? = some g)
    (hu : ∀ u ∈ w.service.usage, u.key ≠ g.reservation.key) : w.release C i nowMs [] = w.markReleased i g w.service := by
  have hrel : releaseReservation C g.reservation nowMs w.service [] = .ok () w.service [] := by
    unfold releaseReservation
    split_ifs
    · rfl
    have hget : (Io.get : Io RiskService AppError RiskService) w.service [] = .ok w.service w.service [] := rfl
    rw [Io.bind_of_ok hget]
    cases husage : w.service.usage with
    | none => rfl
    | some u =>
      have hne : u.tradingDay ≠ g.reservation.tradingDay ∨ u.timezone ≠ g.reservation.timezone := by
        by_contra hboth
        rw [not_or, not_not, not_not] at hboth
        exact hu u husage (Prod.ext hboth.1 hboth.2)
      dsimp only
      rw [if_pos hne]
      rfl
  unfold RiskWorld.release
  rw [hg]
  simp only [hrel]

namespace RiskSample

/-- A reservation that begins a ledger. -/
theorem begins {w : RiskWorld} {timezone : String} {usage : Option RiskUsage} {files : RiskDir} (key : RiskKey)
    (hs : w.service = ⟨config 1 timezone, usage, none, files⟩) (hk : w.service.keyAt calendar now 0 = key)
    (hn : ∀ u ∈ usage, u.key ≠ key) :
    ∃ f, (w.step codec calendar decimals reserve).service =
        ⟨config 1 timezone, some ⟨1, key.1, key.2, 1, now⟩, none, f⟩ ∧
      (w.step codec calendar decimals reserve).grants = w.grants ++ [⟨⟨key.1, key.2, true⟩, 1, w.ledgers + 1, false⟩] ∧
      (w.step codec calendar decimals reserve).ledgers = w.ledgers + 1 := by
  have hcov : ¬ w.covers key := by
    rintro ⟨u, hu, hu'⟩
    rw [hs] at hu
    exact hn u hu hu'
  have hres : w.service.reserved key now = ⟨1, key.1, key.2, 1, now⟩ := by
    unfold RiskService.reserved currentUsage
    cases hu : w.service.usage with
    | none => rfl
    | some u =>
      have hne : ¬ (u.tradingDay = key.1 ∧ u.timezone = key.2) := fun h => hcov ⟨u, hu, Prod.ext h.1 h.2⟩
      simp only [hne, if_false]
  have hocc : occupied w.service.usage key = 0 := by
    have := reserved_occupied w.service key now
    rw [hres] at this
    simpa using this.symm
  obtain ⟨f, hf, -, -⟩ := step_reserve (w := w) 1 timezone (by rw [hs]) (by rw [hs])
    (by rw [hk, hocc]; decide)
  rw [hk, hres] at hf
  have hlim : w.service.config.maxDailyOrders = 1 := by rw [hs]; rfl
  have hled : (if w.covers key then w.ledgers else w.ledgers + 1) = w.ledgers + 1 := if_neg hcov
  refine ⟨f, ?_, ?_, ?_⟩
  · rw [hf]
    show RiskService.mk w.service.config _ w.service.loadError f = _
    rw [hs]
  · rw [hf]
    show w.grants ++ [⟨_, w.service.config.maxDailyOrders, if w.covers key then w.ledgers else w.ledgers + 1, false⟩] = _
    rw [hled, hlim]
  · rw [hf]
    exact hled

/-- A change of the zone while the service is on. -/
theorem setZone_service {w : RiskWorld} {timezone : String} (other : String) {usage : Option RiskUsage} {files : RiskDir}
    (hs : w.service = ⟨config 1 timezone, usage, none, files⟩) :
    (w.step codec calendar decimals (.update (config 1 other))).service = ⟨config 1 other, usage, none, files⟩ := by
  show w.service.updateConfig codec (config 1 other) = _
  rw [hs]
  rfl

theorem setZone_grants {w : RiskWorld} {other : String} :
    (w.step codec calendar decimals (.update (config 1 other))).grants = w.grants := rfl

theorem setZone_ledgers {w : RiskWorld} {other : String} :
    (w.step codec calendar decimals (.update (config 1 other))).ledgers = w.ledgers := rfl

/-- The zone of a service with a limit of one order a day. -/
def setZone (timezone : String) : RiskAct := .update (config 1 timezone)

/-- A reservation, one in another zone, the late release of the first, and one more in the zone of the first. -/
def rezoned : List RiskAct := [reserve, setZone "UTC", reserve, .release 0 now [], setZone "Asia/Shanghai", reserve]

theorem rezoned_returns :
    let w₀ := init codec (config 1 "Asia/Shanghai")
    let w := run (step codec calendar decimals) w₀ rezoned
    Along (step codec calendar decimals) (Returns calendar decimals) w₀ rezoned ∧
    w.grants = [⟨⟨"2026-07-21", "Asia/Shanghai", true⟩, 1, 1, true⟩, ⟨⟨"2026-07-20", "UTC", true⟩, 1, 2, false⟩,
      ⟨⟨"2026-07-21", "Asia/Shanghai", true⟩, 1, 3, false⟩] ∧
    w.ledgers = 3 ∧ w.service.usage = some usage := by
  obtain ⟨f₁, hs₁, hg₁, hl₁⟩ := begins ("2026-07-21", "Asia/Shanghai") (init_service 1 "Asia/Shanghai")
    (by rw [init_service]; decide) (by simp)
  have hz₁ := setZone_service "UTC" hs₁
  obtain ⟨f₂, hs₂, hg₂, hl₂⟩ := begins ("2026-07-20", "UTC") hz₁ (by rw [hz₁]; rfl) (by rintro u ⟨⟩; decide)
  rw [setZone_grants, hg₁, setZone_ledgers, hl₁] at hg₂
  rw [setZone_ledgers, hl₁] at hl₂
  -- the ledger is of the other zone now, so the release finds nothing
  set w₃ := step codec calendar decimals (step codec calendar decimals (step codec calendar decimals
    (init codec (config 1 "Asia/Shanghai")) reserve) (.update (config 1 "UTC"))) reserve with hw₃
  have hlate : step codec calendar decimals w₃ (.release 0 now []) =
      w₃.markReleased 0 ⟨⟨"2026-07-21", "Asia/Shanghai", true⟩, 1, 1, false⟩ w₃.service := by
    show w₃.release codec 0 now [] = _
    refine release_late now (by rw [hg₂]; rfl) ?_
    rw [hs₂]
    rintro u ⟨⟩
    decide
  have hs₄ : (step codec calendar decimals w₃ (.release 0 now [])).service =
      ⟨config 1 "UTC", some ⟨1, "2026-07-20", "UTC", 1, now⟩, none, f₂⟩ := by
    rw [hlate]
    exact hs₂
  have hg₄ : (step codec calendar decimals w₃ (.release 0 now [])).grants =
      [⟨⟨"2026-07-21", "Asia/Shanghai", true⟩, 1, 1, true⟩, ⟨⟨"2026-07-20", "UTC", true⟩, 1, 2, false⟩] := by
    rw [hlate]
    show w₃.grants.set 0 _ = _
    rw [hg₂]
    rfl
  have hl₄ : (step codec calendar decimals w₃ (.release 0 now [])).ledgers = 2 := by
    rw [hlate]
    exact hl₂
  have hz₄ := setZone_service "Asia/Shanghai" hs₄
  obtain ⟨f₅, hs₅, hg₅, hl₅⟩ := begins ("2026-07-21", "Asia/Shanghai") hz₄ (by rw [hz₄]; rfl) (by rintro u ⟨⟩; decide)
  rw [setZone_grants, hg₄, setZone_ledgers, hl₄] at hg₅
  rw [setZone_ledgers, hl₄] at hl₅
  have hrun : run (step codec calendar decimals) (init codec (config 1 "Asia/Shanghai")) rezoned =
      step codec calendar decimals (step codec calendar decimals (step codec calendar decimals w₃ (.release 0 now []))
        (.update (config 1 "Asia/Shanghai"))) reserve := by
    simp only [rezoned, run, List.foldl_cons, List.foldl_nil, setZone, hw₃]
  have hout₁ : RiskWorld.outstanding (step codec calendar decimals (step codec calendar decimals
      (init codec (config 1 "Asia/Shanghai")) reserve) (.update (config 1 "UTC"))) ("2026-07-20", "UTC") = 0 := by
    unfold RiskWorld.outstanding
    rw [setZone_grants, hg₁]
    decide
  have hout₄ : RiskWorld.outstanding (step codec calendar decimals (step codec calendar decimals w₃ (.release 0 now []))
      (.update (config 1 "Asia/Shanghai"))) ("2026-07-21", "Asia/Shanghai") = 0 := by
    unfold RiskWorld.outstanding
    rw [setZone_grants, hg₄]
    decide
  have hkey₁ := congrArg (RiskService.keyAt calendar · now 0) hz₁
  have hkey₄ := congrArg (RiskService.keyAt calendar · now 0) hz₄
  intro w₀ w
  have hw : w = _ := hrun
  refine ⟨⟨⟨rfl, fun _ => .inr rfl⟩, trivial, ⟨rfl, fun _ => .inr ?_⟩, ⟨rfl, fun g hg _ => ?_⟩, trivial,
    ⟨rfl, fun _ => .inr ?_⟩, trivial⟩, ?_, ?_, ?_⟩
  · exact (congrArg _ hkey₁).trans hout₁
  · have hfirst : w₃.grants[0]? = some g := hg
    rw [hg₂] at hfirst
    obtain rfl := Option.some.inj hfirst
    rfl
  · exact (congrArg _ hkey₄).trans hout₄
  · rw [hw]
    exact hg₅
  · rw [hw]
    exact hl₅
  · rw [hw]
    exact congrArg RiskService.usage hs₅

end RiskSample

/-- **Reconfiguring does not reset the limit** while no ledger is begun for a day and
zone that still has outstanding reservations: those of a day and zone are at most
the limit one of them was granted under, and releasing one that an earlier ledger
counted leaves the ledger as it is. -/
theorem limit_kept (C : UsageCodec) (Z : Calendar) (R : RiskDecimals) (config : RiskConfig) (as : List RiskAct)
    (ha : Along (step C Z R) (Returns Z R) (init C config) as) :
    let w := run (step C Z R) (init C config) as
    (∀ key, w.outstanding key = 0 ∨
      ∃ g ∈ w.grants, g.reservation.key = key ∧ g.released = false ∧ w.outstanding key ≤ g.limit) ∧
    ∀ i nowMs, ∀ g ∈ w.grants[i]?, g.released = false → g.ledger < w.ledgers →
      (w.step C Z R (.release i nowMs [])).service.usage = w.service.usage := by
  intro w
  obtain ⟨slot, h⟩ : ∃ slot, w.Limited C slot := limited_run config as ha
  refine ⟨h.bound, fun i nowMs g hg hr hlt => ?_⟩
  -- an open reservation of the key in memory is of the newest ledger
  have hno : ∀ u ∈ w.service.usage, u.key ≠ g.reservation.key := by
    intro u hu hk
    have hslot : u ∈ slot := by
      rw [h.memory] at hu
      split at hu
      · exact hu
      · cases hu
    have := (h.covered u hslot).last g (List.mem_of_getElem? hg) (isOpen_iff.2 ⟨hk.symm, hr⟩)
    omega
  have hspec := wp_releaseReservation (C := C) g.reservation nowMs w.service []
  show (w.release C i nowMs []).service.usage = _
  unfold RiskWorld.release
  rw [hg]
  simp only
  rcases releaseReservation_works (C := C) g.reservation nowMs w.service with ⟨s, hm⟩ | ⟨e, hm⟩
  · simp only [hm] at hspec ⊢
    rcases hspec with ⟨-, rfl⟩ | ⟨u, hu, hk, -⟩
    · rfl
    · exact absurd hk (hno u hu)
  · simp only [hm]

/-- A reservation, one after a change of the zone, the late release of the first, and a third in the zone
of the first: releasing the second then leaves the ledger of the third as it is. -/
theorem limit_kept_rezoned :
    let w := run (step RiskSample.codec RiskSample.calendar RiskSample.decimals)
      (init RiskSample.codec (RiskSample.config 1 "Asia/Shanghai")) RiskSample.rezoned
    w.outstanding ("2026-07-21", "Asia/Shanghai") = 1 ∧ w.outstanding ("2026-07-20", "UTC") = 1 ∧
    (∀ key, w.outstanding key = 0 ∨
      ∃ g ∈ w.grants, g.reservation.key = key ∧ g.released = false ∧ w.outstanding key ≤ g.limit) ∧
    (w.step RiskSample.codec RiskSample.calendar RiskSample.decimals (.release 1 RiskSample.now [])).service.usage =
      some RiskSample.usage := by
  obtain ⟨ha, hgrants, hledgers, husage⟩ := RiskSample.rezoned_returns
  obtain ⟨hlimit, hlate⟩ := limit_kept RiskSample.codec RiskSample.calendar RiskSample.decimals _ _ ha
  intro w
  refine ⟨?_, ?_, hlimit, ?_⟩
  · simp only [w, RiskWorld.outstanding, hgrants]
    decide
  · simp only [w, RiskWorld.outstanding, hgrants]
    decide
  · refine (hlate 1 RiskSample.now ⟨⟨"2026-07-20", "UTC", true⟩, 1, 2, false⟩ ?_ rfl ?_).trans husage
    · rw [hgrants]
      rfl
    · rw [hledgers]
      decide

/-- **The zone is changed and changed back**: a second reservation of the day is
granted under a limit of one, and releasing the first takes the second off the
count. -/
theorem limit_reset :
    let w := run (step RiskSample.codec RiskSample.calendar RiskSample.decimals)
      (init RiskSample.codec (RiskSample.config 1 "Asia/Shanghai"))
      [RiskSample.reserve, RiskSample.setZone "UTC", RiskSample.reserve, RiskSample.setZone "Asia/Shanghai",
        RiskSample.reserve]
    w.outstanding ("2026-07-21", "Asia/Shanghai") = 2 ∧ (∀ g ∈ w.grants, g.limit = 1) ∧
    (∃ g h, w.grants[0]? = some g ∧ w.grants[2]? = some h ∧ g.ledger < h.ledger ∧ h.released = false) ∧
    occupied w.service.usage ("2026-07-21", "Asia/Shanghai") = 1 ∧
    occupied (w.step RiskSample.codec RiskSample.calendar RiskSample.decimals (.release 0 RiskSample.now [])).service.usage
      ("2026-07-21", "Asia/Shanghai") = 0 := by
  obtain ⟨f₁, hs₁, hg₁, hl₁⟩ := RiskSample.begins ("2026-07-21", "Asia/Shanghai")
    (RiskSample.init_service 1 "Asia/Shanghai") (by rw [RiskSample.init_service]; decide) (by simp)
  have hz₁ := RiskSample.setZone_service "UTC" hs₁
  obtain ⟨f₂, hs₂, hg₂, hl₂⟩ := RiskSample.begins ("2026-07-20", "UTC") hz₁ (by rw [hz₁]; rfl)
    (by rintro u ⟨⟩; decide)
  have hz₂ := RiskSample.setZone_service "Asia/Shanghai" hs₂
  obtain ⟨f₃, hs₃, hg₃, -⟩ := RiskSample.begins ("2026-07-21", "Asia/Shanghai") hz₂ (by rw [hz₂]; rfl)
    (by rintro u ⟨⟩; decide)
  intro w
  have hgrants : w.grants = [⟨⟨"2026-07-21", "Asia/Shanghai", true⟩, 1, 1, false⟩, ⟨⟨"2026-07-20", "UTC", true⟩, 1, 2, false⟩,
      ⟨⟨"2026-07-21", "Asia/Shanghai", true⟩, 1, 3, false⟩] := by
    refine hg₃.trans ?_
    rw [RiskSample.setZone_grants, RiskSample.setZone_ledgers, hg₂, hl₂, RiskSample.setZone_grants,
      RiskSample.setZone_ledgers, hg₁, hl₁]
    rfl
  have hserv : w.service = ⟨RiskSample.config 1 "Asia/Shanghai", some RiskSample.usage, none, f₃⟩ := hs₃
  refine ⟨?_, ?_, ?_, ?_, ?_⟩
  · simp only [RiskWorld.outstanding, hgrants]
    decide
  · rw [hgrants]
    decide
  · rw [hgrants]
    exact ⟨_, _, rfl, rfl, by decide, rfl⟩
  · rw [hserv]
    rfl
  · have hrel := release_run (C := RiskSample.codec) RiskSample.now (w := w) (i := 0) (by rw [hgrants]; rfl)
      (by rw [hserv]) rfl rfl rfl
    show occupied (w.release _ _ _ _).service.usage _ = 0
    rw [hrel]
    decide

end EasiFlux
