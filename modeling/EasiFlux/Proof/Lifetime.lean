import EasiFlux.Proof.Sections

/-!
# The lifetime of a run

`World.spent` counts the monotonic nanoseconds in which a run could dispatch
(`dispatch_spends`), over all its sessions. Pausing and restarting must not let it go
beyond `max_run_seconds`, whatever the wall clock shows.

* `Observed`: what a run that is not live has spent is covered by the time it was last
  observed.
* `Timed`: what a live run has spent, before its session and in it.
* `FinishObserves`: a session ends after whole milliseconds. `save` drops the rest, and
  the resumed run gets it again (`session_renews`).
* `lifetime_kept`: **in every run that keeps to this, no run spends more than its
  lifetime.**
-/

namespace EasiFlux

open Fixed Results World Steps

variable {K : Crates} {w : World}

/-- A run that can dispatch spends its lifetime. -/
theorem dispatch_spends {s : Session} (hs : w.session s.runId = some s) {c : Reading} {clock : Clock}
    (h : w.checkDispatch s c clock = .ok ()) :
    w.mono < s.deadline ∧ ∀ d, (w.tick d).spent s.runId = w.spent s.runId + (min (w.mono + d) s.deadline - w.mono) := by
  unfold World.checkDispatch at h
  split at h
  · cases h
  · rename_i hclock
    simp only [bind_eq_ok, ensure_eq_ok] at h
    obtain ⟨-, -, -, he, hi⟩ := h
    refine ⟨?_, fun d => ?_⟩
    · unfold World.clockCheck at hclock
      split_ifs at hclock with h1 h2
      omega
    · unfold World.tick
      simp only [hs]
      rw [if_pos ⟨hi, he⟩]

/-! ## The invariant -/

/-- What a run has spent was observed. -/
structure Observed (spent : ℕ) (r : RunRecord) : Prop where
  expires : r.view.expiresAtMs = r.view.startedAtMs + r.view.policy.maxRunSeconds * 1000
  width : r.view.expiresAtMs < 2 ^ 64
  started : r.view.startedAtMs ≤ r.lastObservedAtMs
  used : spent ≤ (min r.lastObservedAtMs r.view.expiresAtMs - r.view.startedAtMs) * 1000000

def ObservedIn (spent : ℕ) (id : String) (v : Version) : Prop := ∀ r, v.doc.find id = some r → Observed spent r

/-- What a live run has spent: before its session at most what its anchor shows, and
in it the time since, up to the deadline. -/
structure Timed (spent mono : ℕ) (s : Session) (r : RunRecord) : Prop where
  expires : r.view.expiresAtMs = r.view.startedAtMs + r.view.policy.maxRunSeconds * 1000
  width : r.view.expiresAtMs < 2 ^ 64
  started : r.view.startedAtMs ≤ s.wallAnchorMs
  anchor : s.wallAnchorMs ≤ r.view.expiresAtMs
  deadline : s.deadline = s.clockAnchor + (r.view.expiresAtMs - s.wallAnchorMs) * 1000000
  clock : s.clockAnchor ≤ mono
  used : spent ≤ (s.wallAnchorMs - r.view.startedAtMs) * 1000000 + (min mono s.deadline - s.clockAnchor)

def TimedIn (spent mono : ℕ) (s : Session) (v : Version) : Prop :=
  ∀ c, v.core s.runId = some c → Timed spent mono s c

structure Spends (id : String) (σ : Shape) : Prop where
  idle : (∀ s ∈ σ.live, s.runId ≠ id) → σ.docs.All (ObservedIn (σ.spent id) id)
  live : ∀ s ∈ σ.live, s.runId = id → σ.docs.All (TimedIn (σ.spent id) σ.mono s)

theorem closed_timedIn (spent mono : ℕ) (s : Session) : Closed (TimedIn spent mono s) := by
  intro v v' h ht c hc
  rw [← h.core] at hc
  exact ht c hc

/-- A run that is live has not spent more than its lifetime. -/
theorem Timed.le {spent mono : ℕ} {s : Session} {r : RunRecord} (h : Timed spent mono s r) :
    spent ≤ r.view.policy.maxRunSeconds * 1000 * 1000000 := by
  obtain ⟨h1, -, h3, h4, h5, -, h7⟩ := h
  grind

theorem Observed.le {spent : ℕ} {r : RunRecord} (h : Observed spent r) :
    spent ≤ r.view.policy.maxRunSeconds * 1000 * 1000000 := by
  obtain ⟨h1, -, -, h4⟩ := h
  grind

/-! ## Records -/

theorem Observed.setStatus {spent : ℕ} {r : RunRecord} (h : Observed spent r) (st : StrategyStatus)
    (reason : Option String) : Observed spent (r.setStatus st reason) := ⟨h.expires, h.width, h.started, h.used⟩

/-- A section keeps what a run was started with. -/
theorem Rewrites.terms {a : Act} {r r' : RunRecord} {made : List PendingAction} (h : Rewrites K w a r made r') :
    r'.view.startedAtMs = r.view.startedAtMs ∧ r'.view.expiresAtMs = r.view.expiresAtMs ∧
      r'.view.policy = r.view.policy := by
  have hsame : ∀ {x y : RunRecord}, SameRun x y → y.view.startedAtMs = x.view.startedAtMs ∧
      y.view.expiresAtMs = x.view.expiresAtMs ∧ y.view.policy = x.view.policy :=
    fun hk => ⟨congrArg (·.startedAtMs) hk.view, congrArg (·.expiresAtMs) hk.view, congrArg (·.policy) hk.view⟩
  cases h with
  | same => exact ⟨rfl, rfl, rfl⟩
  | status => exact ⟨rfl, rfl, rfl⟩
  | rest s m c output r now keep session phase base => exact hsame (rest_kept r c output now keep)
  | pending s c output action r r' now id i session phase base mutation fresh commit =>
    exact hsame ⟨(commit_kept commit).1.fixed⟩
  | respond a p response r r' order asked record => exact hsame (respond_kept record)
  | clear a p r r' record => exact hsame (clear_kept record)
  | resume t i old asked checks => exact ⟨rfl, rfl, rfl⟩

/-- Only the worker of a live run moves the time it was observed back. -/
theorem Rewrites.observed {a : Act} {r r' : RunRecord} {made : List PendingAction} {n : ℕ} (h : Rewrites K w a r made r')
    (hidle : w.isLive r.view.runId = false) (ho : Observed n r) : Observed n r' := by
  have hlive : ∀ {s : Session} {c : Reading} {x : RunRecord}, w.session s.runId = some s → w.commitBase s c = .ok x →
      w.isLive x.view.runId = false → False := by
    intro s c x hs hb hl
    rw [find_runId (commitBase_ok hb).2.2.1] at hl
    exact isLive_eq_false.1 hl s (session_some hs).1 rfl
  cases h with
  | same => exact ho
  | status a r st reason code => exact ho.setStatus st reason
  | rest s m c output r now keep session phase base => exact (hlive session base hidle).elim
  | pending s c output action r r' now id i session phase base mutation fresh commit =>
    exact (hlive session base hidle).elim
  | respond a p response r r' order asked record =>
    simp only [respondRecord, bind_eq_ok, ensure_eq_ok, pure_eq_ok, Prod.mk.injEq] at record
    obtain ⟨-, -, receipt, -, owned, -, rfl, -⟩ := record
    exact ⟨ho.expires, ho.width, ho.started, ho.used⟩
  | clear a p r r' record =>
    simp only [clearRecord, bind_eq_ok, ensure_eq_ok, pure_eq_ok] at record
    obtain ⟨-, -, rfl⟩ := record
    exact ⟨ho.expires, ho.width, ho.started, ho.used⟩
  | resume t i old asked checks => exact ⟨ho.expires, ho.width, ho.started, ho.used⟩

theorem Timed.of_terms {spent mono : ℕ} {s : Session} {r r' : RunRecord} (h : Timed spent mono s r)
    (ht : r'.view.startedAtMs = r.view.startedAtMs ∧ r'.view.expiresAtMs = r.view.expiresAtMs ∧
      r'.view.policy = r.view.policy) : Timed spent mono s r' := by
  obtain ⟨h1, h2, h3⟩ := ht
  refine ⟨?_, ?_, ?_, ?_, ?_, h.clock, ?_⟩
  · rw [h1, h2, h3]; exact h.expires
  · rw [h2]; exact h.width
  · rw [h1]; exact h.started
  · rw [h2]; exact h.anchor
  · rw [h2]; exact h.deadline
  · rw [h1]; exact h.used

/-! ## Saves -/

section Save

variable {next : Version} {i : SaveInput} {id : String} {n : ℕ}

/-- The saves of others leave the times of a run that is not live. -/
theorem observedIn_prepare (hidle : w.isLive id = false) (h : ObservedIn n id next) (wall : ℕ) :
    ObservedIn n id (w.prepare next wall) := by
  intro r hr
  rw [find_prepare] at hr
  obtain ⟨x, hx, rfl⟩ := Option.map_eq_some_iff.1 hr
  have hnone : w.session x.view.runId = none := by
    rw [find_runId hx]
    exact session_none.2 (isLive_eq_false.1 hidle)
  unfold World.observe
  rw [hnone]
  exact h x hx

theorem observedIn_overlay {v : Version} (h : ObservedIn n id v) :
    ObservedIn n id { v with doc := v.doc.mapRuns RunRecord.overlay } := by
  intro r hr
  have hr' : (v.doc.mapRuns RunRecord.overlay).find id = some r := hr
  rw [find_overlay] at hr'
  obtain ⟨x, hx, rfl⟩ := Option.map_eq_some_iff.1 hr'
  exact (h x hx).setStatus _ _

theorem idle_save (hidle : w.isLive id = false) (h : w.docs.All (ObservedIn n id)) (hn : ObservedIn n id next) :
    (w.save K next i).1.docs.All (ObservedIn n id) := by
  have hp := observedIn_prepare hidle hn i.wall.toNat
  rcases save_cases K w next i with ⟨-, he⟩ | ⟨-, -, he⟩ | ⟨u, o, hu, -, he⟩ <;> rw [he]
  · exact h
  · exact ⟨hp, hp, (fun v hv => nomatch hv)⟩
  · refine ⟨observedIn_overlay hp, h.durable, fun v hv => ?_⟩
    rcases hu with rfl | ⟨-, rfl⟩
    · exact h.unacked v hv
    · rcases List.mem_cons.1 hv with rfl | hv
      · exact hp
      · exact h.unacked v hv

end Save

/-! ## The end of a session -/

/-- A session of `e` nanoseconds from wall time `a` is covered when the run was
observed at `observed`. -/
theorem spent_covered {spent e a started expires observed : ℕ} (hs : started ≤ a) (ha : a ≤ expires)
    (hu : spent ≤ (a - started) * 1000000 + min e ((expires - a) * 1000000))
    (ho : expires ≤ observed ∨ a * 1000000 + e ≤ observed * 1000000) :
    spent ≤ (min observed expires - started) * 1000000 := by
  grind

/-- The floor of `save` covers whole milliseconds, and a session that reached its
deadline. -/
theorem floor_covers {e a expires observed : ℕ} (hw : expires ≤ u64Max)
    (ho : min (a + min (e / 1000000) u64Max) u64Max ≤ observed) (h : 1000000 ∣ e ∨ (expires - a) * 1000000 ≤ e) :
    expires ≤ observed ∨ a * 1000000 + e ≤ observed * 1000000 := by
  generalize u64Max = top at hw ho
  rcases h with ⟨k, rfl⟩ | h
  · rw [Nat.mul_div_cancel_left k (by decide)] at ho
    grind
  · have hk : expires - a ≤ e / 1000000 := (Nat.le_div_iff_mul_le (by decide)).2 h
    left
    omega

/-- The condition on a step: a session ends after whole milliseconds, or after its
deadline, or the wall clock was seen to go at least as far as the monotonic one. -/
def FinishObserves (id : String) (w : World) (a : Act) : Prop :=
  ∀ i s r, a = .worker id (.finish i) → w.session id = some s → s.phase = .finishing → w.state id = some r →
    1000000 ∣ w.mono - s.clockAnchor ∨ s.deadline ≤ w.mono ∨
      s.wallAnchorMs * 1000000 + (w.mono - s.clockAnchor) ≤ max r.lastObservedAtMs i.wall.toNat * 1000000

/-- Each session of the run ends with a successful save by `finish`. -/
def EndsSaved (K : Crates) (id : String) (w : World) (a : Act) : Prop :=
  (∀ pick, a = .restart pick → w.isLive id = false) ∧
    ∀ i s r, a = .worker id (.finish i) → w.session id = some s → s.phase = .finishing → w.state id = some r →
      w.unavailable = false ∧ (w.save K (w.edit id (r.finish s.intent)) i).2 = true

/-- What the save of `finish` shows was observed. -/
theorem Timed.finish {spent : ℕ} {s : Session} {r : RunRecord} {wall : ℕ} (h : Timed spent w.mono s r)
    (hc : 1000000 ∣ w.mono - s.clockAnchor ∨ s.deadline ≤ w.mono ∨
      s.wallAnchorMs * 1000000 + (w.mono - s.clockAnchor) ≤ max r.lastObservedAtMs wall * 1000000) :
    Observed spent { r with lastObservedAtMs := max (max r.lastObservedAtMs wall) (s.floor w.mono) } := by
  obtain ⟨hexp, hwid, hst, han, hdl, hcl, hu⟩ := h
  have hmax : r.view.expiresAtMs ≤ u64Max := by unfold u64Max; omega
  have hfl : s.wallAnchorMs ≤ s.floor w.mono := by
    unfold Session.floor
    generalize u64Max = top at hmax
    omega
  refine ⟨hexp, hwid, ?_, ?_⟩
  · show r.view.startedAtMs ≤ max (max r.lastObservedAtMs wall) (s.floor w.mono)
    omega
  · have hmin : min w.mono s.deadline - s.clockAnchor =
        min (w.mono - s.clockAnchor) ((r.view.expiresAtMs - s.wallAnchorMs) * 1000000) := by
      rw [hdl]
      generalize (r.view.expiresAtMs - s.wallAnchorMs) * 1000000 = x
      omega
    rw [hmin] at hu
    refine spent_covered hst han hu ?_
    have hle : s.floor w.mono ≤ max (max r.lastObservedAtMs wall) (s.floor w.mono) := le_max_right _ _
    rcases hc with hc | hc | hc
    · exact floor_covers hmax hle (Or.inl hc)
    · refine floor_covers hmax hle (Or.inr ?_)
      rw [hdl] at hc
      generalize (r.view.expiresAtMs - s.wallAnchorMs) * 1000000 = x at hc ⊢
      omega
    · refine Or.inr (hc.trans (Nat.mul_le_mul_right _ (le_max_left _ _)))

/-! ## Steps -/

section Step

variable {id : String} {n mono : ℕ} {a : Act} {next : Version} {i : SaveInput}

theorem Section.observedIn (hb : Base K w) (hn : Section K w a next) (hidle : w.isLive id = false)
    (ho : ObservedIn n id w.memory) (hfresh : id ∉ w.minted → n = 0) : ObservedIn n id next := by
  intro r' hr'
  rcases hn.rewrites hb hr' with ⟨r, made, hr, hrw, -⟩ | ⟨t, j, doc, -, -, -, rfl, rfl, hf, hexp, -⟩
  · refine hrw.observed ?_ (ho r hr)
    rw [find_runId hr]
    exact hidle
  · rw [hfresh (freshId_iff.1 hf).2]
    exact ⟨rfl, hexp, le_rfl, Nat.zero_le _⟩

theorem Section.timedIn (hb : Base K w) (hn : Section K w a next) {s : Session} (hs : s ∈ w.shape.live)
    (ht : TimedIn n mono s w.memory) : TimedIn n mono s next := by
  intro c hc
  obtain ⟨r', hr', rfl⟩ := Version.core_eq_some.1 hc
  rcases hn.rewrites hb hr' with ⟨r, made, hr, hrw, -⟩ | ⟨t, j, doc, -, -, -, -, hid, hf, -⟩
  · exact (ht r.core (Version.core_find hr)).of_terms hrw.terms
  · obtain ⟨s₀, hs₀, rfl⟩ := List.mem_map.1 hs
    have hm := hb.live_minted hs₀
    rw [← fixed_runId, hid] at hm
    exact absurd hm (freshId_iff.1 hf).2

/-- A save of a document in which the run has spent what was observed, and is timed. -/
theorem Spends.save (h : Spends id w.shape) (ho : w.isLive id = false → ObservedIn (w.spent id) id next)
    (ht : ∀ s ∈ w.shape.live, s.runId = id → TimedIn (w.spent id) w.mono s next) :
    Spends id (w.save K next i).1.shape := by
  obtain ⟨hl, hm, hs⟩ := save_shape_frame K w next i
  refine ⟨fun hidle => ?_, fun s hsl hid => ?_⟩
  · rw [hl] at hidle
    rw [hs]
    have hidle' := notLive_shape.2 hidle
    exact idle_save hidle' (h.idle hidle) (ho hidle')
  · rw [hl] at hsl
    rw [hs, hm]
    exact (h.live s hsl hid).save (closed_timedIn _ _ s) (ht s hsl hid)

theorem Spends.section (hb : Base K w) (h : Spends id w.shape) (hfresh : id ∉ w.minted → w.spent id = 0)
    (hn : Section K w a next) : Spends id (w.save K next i).1.shape :=
  h.save (fun hidle => hn.observedIn hb hidle (h.idle (notLive_shape.1 hidle)).memory hfresh)
    fun s hs hid => hn.timedIn hb hs (h.live s hs hid).memory

theorem Spends.tick (hb : Base K w) (h : Spends id w.shape) (d : ℕ) : Spends id (w.tick d).shape := by
  refine ⟨fun hidle => ?_, fun s hs hid => ?_⟩
  · have hnone : w.session id = none := session_none.2 (isLive_eq_false.1 (notLive_shape.2 hidle))
    have hspent : (w.tick d).spent id = w.spent id := by
      unfold World.tick
      simp only [hnone]
    show w.docs.All (ObservedIn ((w.tick d).spent id) id)
    rw [hspent]
    exact h.idle hidle
  · obtain ⟨s₀, hs₀, rfl⟩ := List.mem_map.1 (show s ∈ w.live.map Session.fixed from hs)
    have hsess : w.session id = some s₀ := by
      rw [← hid]
      exact session_of_mem hb.liveIds hs₀
    -- the time that passes counts up to the deadline
    have hspent : (w.tick d).spent id ≤ w.spent id + (min (w.mono + d) s₀.deadline - w.mono) := by
      unfold World.tick
      simp only [hsess]
      split_ifs
      · exact le_rfl
      · exact Nat.le_add_right _ _
    refine (h.live _ (mem_shape_live hs₀) hid).mono fun v hv c hc => ?_
    obtain ⟨h1, h2, h3, h4, h5, h6, h7⟩ := hv c hc
    refine ⟨h1, h2, h3, h4, h5, h6.trans (Nat.le_add_right _ d), hspent.trans ?_⟩
    have hdl : s₀.clockAnchor ≤ s₀.deadline := by
      have : s₀.deadline = s₀.clockAnchor + (c.view.expiresAtMs - s₀.wallAnchorMs) * 1000000 := h5
      rw [this]
      exact Nat.le_add_right _ _
    have h6' : s₀.clockAnchor ≤ w.mono := h6
    have h7' : w.spent id ≤ (s₀.wallAnchorMs - c.view.startedAtMs) * 1000000 +
      (min w.mono s₀.deadline - s₀.clockAnchor) := h7
    show w.spent id + (min (w.mono + d) s₀.deadline - w.mono) ≤
      (s₀.wallAnchorMs - c.view.startedAtMs) * 1000000 + (min (w.mono + d) s₀.deadline - s₀.clockAnchor)
    generalize (s₀.wallAnchorMs - c.view.startedAtMs) * 1000000 = x at h7' ⊢
    omega

/-- The session of a run that starts. -/
theorem Starts.timed {t : Ticket} {j : Start} {r : RunRecord} {doc : StrategyDocument} (h : Starts K w t j r doc)
    (ho : ObservedIn (w.spent r.view.runId) r.view.runId w.memory)
    (hfresh : r.view.runId ∉ w.minted → w.spent r.view.runId = 0) :
    Timed (w.spent r.view.runId) w.mono (w.newSession t j r) r := by
  cases h with
  | resume id old asked state checks =>
    obtain ⟨-, -, -, -, -, hseen, hexp⟩ := resumable_iff checks
    have hold : old.view.runId = id := find_runId state
    subst hold
    obtain ⟨h1, h2, h3, h4⟩ := ho old state
    refine ⟨h1, h2, h3.trans hseen, hexp.le, rfl, Nat.sub_le _ _, le_trans h4 (le_trans ?_ (Nat.le_add_right _ _))⟩
    refine Nat.mul_le_mul_right _ (Nat.sub_le_sub_right ?_ _)
    exact (min_le_left _ _).trans hseen
  | fresh asked room fresh expires =>
    have hzero : w.spent j.runId = 0 := hfresh (freshId_iff.1 fresh).2
    refine ⟨rfl, expires, le_rfl, Nat.le_add_right _ _, rfl, Nat.sub_le _ _, ?_⟩
    exact hzero.le.trans (Nat.zero_le _)

theorem Spends.start (hb : Base K w) (h : Spends id w.shape) (hfresh : id ∉ w.minted → w.spent id = 0) {t : Ticket}
    {j : Start} {r : RunRecord} {doc : StrategyDocument} (hv : j.request.validate K = true) (had : Admitted K w t j r doc)
    (hok : (w.save K { w.memory with doc := doc } j.save).2 = true) :
    Spends id ((w.save K { w.memory with doc := doc } j.save).1.shape.add (w.newSession t j r)) := by
  have h₁ : Spends id (w.save K { w.memory with doc := doc } j.save).1.shape :=
    h.section hb hfresh (.start t j r doc hv had)
  obtain ⟨hl, hm, hs⟩ := save_shape_frame K w { w.memory with doc := doc } j.save
  refine ⟨fun hidle => h₁.idle fun s hs' => hidle s (List.mem_cons_of_mem _ hs'), fun s hs' hid => ?_⟩
  rcases List.mem_cons.1 hs' with rfl | hs'
  · have hid' : r.view.runId = id := hid
    subst hid'
    have hnot := isLive_eq_false.2 (had.notLive hb)
    have htimed := had.starts.timed (h.idle (notLive_shape.1 hnot)).memory hfresh
    show (w.save K { w.memory with doc := doc } j.save).1.docs.All (TimedIn
      ((w.save K { w.memory with doc := doc } j.save).1.shape.spent r.view.runId)
      (w.save K { w.memory with doc := doc } j.save).1.shape.mono (w.newSession t j r).fixed)
    rw [hs, hm]
    refine .saved (closed_timedIn _ _ _) hok fun c hc => ?_
    have hc' := (had.starts.core hb).1.symm.trans hc
    cases hc'
    exact ⟨htimed.expires, htimed.width, htimed.started, htimed.anchor, htimed.deadline, htimed.clock, htimed.used⟩
  · exact h₁.live s hs' hid

theorem Spends.halt (hb : Base K w) (h : Spends id w.shape) (hfresh : id ∉ w.minted → w.spent id = 0) {t : Ticket}
    {j : Start} {r r' : RunRecord} {doc : StrategyDocument} {w' : World} (hv : j.request.validate K = true)
    (had : Admitted K w t j r doc) (hsh : w'.shape = (w.save K { w.memory with doc := doc } j.save).1.shape)
    (hst : w'.state r.view.runId = some r') :
    Spends id (w'.save K (w'.edit r.view.runId (r'.setStatus .stopped (stopReason true))) j.second).1.shape := by
  have h₁ : Spends id w'.shape := by
    rw [hsh]
    exact h.section hb hfresh (.start t j r doc hv had)
  refine h₁.save (fun hidle x hx => ?_) fun s hs hid => ?_
  · have ho := (h₁.idle (notLive_shape.1 hidle)).memory
    have hid : (r'.setStatus .stopped (stopReason true)).view.runId = r'.view.runId := rfl
    rcases find_edit hst hid hx with ⟨rfl, rfl⟩ | ⟨-, hs⟩
    · exact (ho r' hst).setStatus _ _
    · exact ho x hs
  · have hsame := same_edit hst (core_setStatus r' .stopped (stopReason true))
    exact closed_timedIn _ _ _ _ _ hsame.symm (h₁.live s hs hid).memory

/-- A session ends. -/
theorem Spends.finish (hb : Base K w) (h : Spends id w.shape) (hfresh : id ∉ w.minted → w.spent id = 0) {id' : String}
    {s : Session} {r : RunRecord} (hs : w.session id' = some s) (hph : s.phase = .finishing) (hr : w.state s.runId = some r)
    (hends : EndsSaved K id w (.worker id' (.finish i))) (hG : FinishObserves id w (.worker id' (.finish i))) :
    Spends id ((w.save K (w.edit s.runId (r.finish s.intent)) i).1.shape.drop s.runId) := by
  obtain ⟨hmem, rfl⟩ := session_some hs
  have hcore : (r.finish s.intent).core = r.core := core_finish _ _
  have hrid : (r.finish s.intent).view.runId = r.view.runId := runId_of_core hcore
  have hobs : (r.finish s.intent).lastObservedAtMs = r.lastObservedAtMs := by
    unfold RunRecord.finish; split_ifs <;> rfl
  by_cases he : s.runId = id
  · -- the session is this run's: what it spent is observed by the save
    subst he
    obtain ⟨-, hok⟩ := hends.2 i s r rfl hs hph hr
    have hcov := hG i s r rfl hs hph hr
    have htimed : Timed (w.spent s.runId) w.mono s r := by
      have := (h.live _ (mem_shape_live hmem) rfl).memory r.core (Version.core_find hr)
      exact ⟨this.expires, this.width, this.started, this.anchor, this.deadline, this.clock, this.used⟩
    have hn : ObservedIn (w.spent s.runId) s.runId (w.prepare (w.edit s.runId (r.finish s.intent)) i.wall.toNat) := by
      intro x hx
      rw [find_prepare] at hx
      obtain ⟨y, hy, rfl⟩ := Option.map_eq_some_iff.1 hx
      have hy' : y = r.finish s.intent := by
        rcases find_edit hr hrid hy with ⟨-, hy⟩ | ⟨hne, -⟩
        · exact hy
        · exact absurd rfl hne
      subst hy'
      have hsess : w.session (r.finish s.intent).view.runId = some s := by
        rw [hrid, find_runId hr]
        exact hs
      have hf := htimed.finish hcov
      have hterms := (finish_rewrites (K := K) (w := w) (.exit) r s.intent).terms
      unfold World.observe
      rw [hsess]
      simp only [hobs]
      -- `finish` moves none of the dates of the record:
      refine ⟨?_, ?_, ?_, ?_⟩
      · show (r.finish s.intent).view.expiresAtMs = (r.finish s.intent).view.startedAtMs +
          (r.finish s.intent).view.policy.maxRunSeconds * 1000
        rw [hterms.1, hterms.2.1, hterms.2.2]
        exact hf.expires
      · show (r.finish s.intent).view.expiresAtMs < 2 ^ 64
        rw [hterms.2.1]
        exact hf.width
      · show (r.finish s.intent).view.startedAtMs ≤ _
        rw [hterms.1]
        exact hf.started
      · show w.spent s.runId ≤ (min _ (r.finish s.intent).view.expiresAtMs - (r.finish s.intent).view.startedAtMs) * 1000000
        rw [hterms.1, hterms.2.1]
        exact hf.used
    rw [saved_shape hok]
    refine ⟨fun _ => ⟨hn, hn, (fun v hv => nomatch hv)⟩, fun t ht hid => ?_⟩
    have := (List.mem_filter.1 ht).2
    simp [hid] at this
  · -- another run ends its session:
    have h₁ : Spends id (w.save K (w.edit s.runId (r.finish s.intent)) i).1.shape :=
      h.section hb hfresh (.finish s.runId s i r hs hph hr)
    refine ⟨fun hidle => h₁.idle fun t ht hid => ?_, fun t ht hid => h₁.live t (List.mem_of_mem_filter ht) hid⟩
    refine hidle t (List.mem_filter.2 ⟨ht, ?_⟩) hid
    simpa [hid] using fun h : id = s.runId => he h.symm

theorem Spends.restart (h : Spends id w.shape) (hidle : w.isLive id = false) (pick : Option ℕ) :
    Spends id (w.restart K pick).shape := by
  have ho := h.idle (notLive_shape.1 hidle)
  refine ⟨fun _ => ⟨?_, ho.durable, ho.unacked⟩, (fun s hs => nomatch hs)⟩
  show ObservedIn (w.spent id) id (w.restart K pick).memory
  intro r hr
  unfold World.restart World.boot at hr
  simp only at hr
  split at hr
  · rename_i v hv
    obtain ⟨hv, -⟩ := Option.filter_eq_some_iff.1 hv
    obtain ⟨k, -, hk⟩ := Option.bind_eq_some_iff.1 hv
    have hov : ObservedIn (w.spent id) id v := by
      rcases List.mem_cons.1 (List.mem_of_getElem? hk) with rfl | hm
      · exact ho.durable
      · exact ho.unacked v hm
    have hr' := (find_mapRuns fun x => runId_of_core (core_restore x)).symm.trans hr
    obtain ⟨x, hx, rfl⟩ := Option.map_eq_some_iff.1 hr'
    unfold RunRecord.restore
    split_ifs
    · exact (hov x hx).setStatus _ _
    · exact (hov x hx).setStatus _ _
    · exact hov x hx
  · cases hr

/-- **One step keeps the invariant.** -/
theorem spends_step (hb : Base K w) (h : Spends id w.shape) (hfresh : id ∉ w.minted → w.spent id = 0)
    (hends : EndsSaved K id w a) (hG : FinishObserves id w a) : Spends id (w.step K a).shape := by
  have hr := step_shape hb a
  generalize (w.step K a).shape = σ at hr
  cases hr with
  | quiet => exact h
  | tick d => exact h.tick hb d
  | save _ next i sec => exact h.section hb hfresh sec
  | start t j r doc valid admitted saved => exact h.start hb hfresh valid admitted saved
  | halt t j r r' doc w' valid admitted saved shape state => exact h.halt hb hfresh valid admitted shape state
  | finish id' s i r session phase available state => exact h.finish hb hfresh session phase state hends hG
  | drop id' s i session phase unavailable =>
    obtain ⟨hmem, rfl⟩ := session_some session
    by_cases he : s.runId = id
    · -- such a session does not end with a save
      subst he
      obtain ⟨c, hc, -⟩ := (hb.sessions s hmem).known
      obtain ⟨r, hr, -⟩ := Version.core_eq_some.1 hc
      have := (hends.2 i s r rfl session phase hr).1
      rw [unavailable] at this
      cases this
    · refine ⟨fun hidle => h.idle fun t ht hid => ?_, fun t ht hid => h.live t (List.mem_of_mem_filter ht) hid⟩
      refine hidle t (List.mem_filter.2 ⟨ht, ?_⟩) hid
      simpa [hid] using fun h : id = s.runId => he h.symm
  | restart pick => exact h.restart (hends.1 pick rfl) pick

/-- Only a run that is live spends anything. -/
theorem spent_step (hb : Base K w) (a : Act) (hfresh : id ∉ w.minted → w.spent id = 0) :
    id ∉ (w.step K a).minted → (w.step K a).spent id = 0 := by
  intro hn
  have hn' : id ∉ w.minted := fun hm => hn (minted_step K w a hm)
  have hr := step_shape hb a
  have hspent : (w.step K a).spent = (w.step K a).shape.spent := rfl
  rw [hspent]
  generalize (w.step K a).shape = σ at hr
  have hsave : ∀ (w : World) (next : Version) (i : SaveInput), (w.save K next i).1.shape.spent = w.spent :=
    fun w next i => (save_shape_frame K w next i).2.2
  cases hr with
  | quiet => exact hfresh hn'
  | tick d =>
    have hnone : w.session id = none := by
      refine session_none.2 fun s hs hid => hn' ?_
      rw [← hid]
      exact hb.live_minted hs
    show (w.tick d).spent id = 0
    unfold World.tick
    simp only [hnone]
    exact hfresh hn'
  | save _ next i sec => rw [hsave]; exact hfresh hn'
  | start t j r doc valid admitted saved =>
    show (w.save K { w.memory with doc := doc } j.save).1.shape.spent id = 0
    rw [hsave]
    exact hfresh hn'
  | halt t j r r' doc w' valid admitted saved shape state =>
    rw [hsave]
    have hw' : w'.spent = w.spent := (congrArg Shape.spent shape).trans (hsave w _ _)
    rw [hw']
    exact hfresh hn'
  | finish id' s i r session phase available state =>
    show (w.save K (w.edit s.runId (r.finish s.intent)) i).1.shape.spent id = 0
    rw [hsave]
    exact hfresh hn'
  | drop => exact hfresh hn'
  | restart pick => exact hfresh hn'

end Step

/-! ## Every run -/

theorem validate_runs {doc : StrategyDocument} (h : doc.validate K = true) {r : RunRecord} (hr : r ∈ doc.runs) :
    r.validate K = true := by
  unfold StrategyDocument.validate at h
  simp only [Bool.and_eq_true] at h
  exact List.all_eq_true.1 h.2 r hr

/-- A valid record has spent nothing yet. -/
theorem observed_of_validate {r : RunRecord} (h : r.validate K = true) : Observed 0 r := by
  unfold RunRecord.validate StrategyRunView.validate at h
  simp only [Bool.and_eq_true, decide_eq_true_eq] at h
  exact ⟨by tauto, by tauto, by tauto, Nat.zero_le _⟩

theorem spends_init {doc : StrategyDocument} (h : doc.validate K = true) (id : String) :
    Spends id (World.init K doc).shape := by
  have ho : ObservedIn 0 id ⟨doc, []⟩ := fun r hr => observed_of_validate (validate_runs h (mem_of_find hr))
  have hstore : Spends id (World.store doc).shape :=
    ⟨fun _ => ⟨ho, ho, (fun v hv => nomatch hv)⟩, (fun s hs => nomatch hs)⟩
  exact hstore.restart rfl (some 0)

/-- **Pausing and restarting do not renew a run's lifetime.** In every run of the
system in which each session of the run `id` ends with a successful save by `finish`,
and after whole milliseconds (or after its deadline, or with the wall clock at least
as far), and for all readings of the wall clock: what is counted is the time in which
a run may dispatch, and for `id` it is at most `max_run_seconds`. -/
theorem lifetime_kept (K : Crates) (doc : StrategyDocument) (hdoc : doc.validate K = true) (id : String)
    (acts : List Act)
    (h : Along (World.step K) (fun w a => EndsSaved K id w a ∧ FinishObserves id w a) (World.init K doc) acts) :
    let w := run (World.step K) (World.init K doc) acts
    (∀ s c clock, w.session s.runId = some s → w.checkDispatch s c clock = .ok () → w.mono < s.deadline ∧
      ∀ d, (w.tick d).spent s.runId = w.spent s.runId + (min (w.mono + d) s.deadline - w.mono)) ∧
    ∀ v ∈ w.memory :: w.durable :: w.unacked, ∀ r, v.doc.find id = some r →
      w.spent id ≤ r.view.policy.maxRunSeconds * 1000 * 1000000 := by
  intro w
  refine ⟨fun s c clock hs hd => dispatch_spends hs hd, ?_⟩
  have hI : Base K w ∧ Spends id w.shape ∧ (id ∉ w.minted → w.spent id = 0) :=
    run_inv_along (I := fun w => Base K w ∧ Spends id w.shape ∧ (id ∉ w.minted → w.spent id = 0))
      (fun w a h hG => ⟨base_step w a h.1, spends_step h.1 h.2.1 h.2.2 hG.1 hG.2, spent_step h.1 a h.2.2⟩)
      acts _ ⟨base_init hdoc, spends_init hdoc id, fun _ => rfl⟩ h
  obtain ⟨hb, hs, -⟩ := hI
  -- an idle run has spent what its record says, a live one what its session knows of it
  have hall : w.docs.All fun v => ∀ r, v.doc.find id = some r → w.spent id ≤ r.view.policy.maxRunSeconds * 1000 * 1000000 := by
    cases hl : w.isLive id with
    | false => exact (hs.idle (notLive_shape.1 hl)).mono fun v hv r hr => (hv r hr).le
    | true =>
      obtain ⟨s, hmem, rfl⟩ := isLive_iff.1 hl
      exact (hs.live _ (mem_shape_live hmem) rfl).mono fun v hv r hr => (hv r.core (Version.core_find hr)).le
  intro v hv
  rcases List.mem_cons.1 hv with rfl | hv
  · exact hall.memory
  · rcases List.mem_cons.1 hv with rfl | hv
    · exact hall.durable
    · exact hall.unacked v hv

/-! ## Two sessions -/

namespace Sample

/-- A run is paused after `ns` nanoseconds, up to its `finish`. -/
def pausing (ns : ℕ) : List Act :=
  started ++ [.tick ns, .revoke (.one (uuid "03") false), .locked (.one (uuid "03") false) saved, worker (.turn 1000)]

/-- It is resumed at wall time `now`, and expires. -/
def resuming (now : UInt64) : List Act :=
  [access authority "05", start authority "05" "06" (some (uuid "03")) now, .tick 60000000000, worker (.turn now),
    worker (.mark saved)]

end Sample

/-- What is known of the session and the record, from a check of both. -/
theorem of_session_state {P : Session → RunRecord → Bool} {id : String} {s : Session} {r : RunRecord}
    (h : ((w.session id).all fun s => (w.state id).all fun r => P s r) = true) (hs : w.session id = some s)
    (hr : w.state id = some r) : P s r = true := by
  rw [hs, hr] at h
  exact h

/-- The save of the first `finish`, after one millisecond. -/
theorem pausing_saved :
    let w := run (World.step Crates.sample) (World.init Crates.sample .default) (Sample.pausing 1000000)
    ((w.session (Sample.uuid "03")).all fun s => (w.state (Sample.uuid "03")).all fun r =>
      decide (w.unavailable = false ∧
        (w.save Crates.sample (w.edit (Sample.uuid "03") (r.finish s.intent)) Sample.saved).2 = true ∧
        1000000 ∣ w.mono - s.clockAnchor)) = true := by
  decide +kernel

/-- A session of one millisecond, and one of all that is left. -/
theorem lifetime_kept_paused :
    let w := run (World.step Crates.sample) (World.init Crates.sample .default)
      (Sample.pausing 1000000 ++ ([Sample.worker (.finish Sample.saved)] ++ Sample.resuming 1001))
    w.spent (Sample.uuid "03") = 60000 * 1000000 ∧
      ∀ v ∈ w.memory :: w.durable :: w.unacked, ∀ r, v.doc.find (Sample.uuid "03") = some r →
        w.spent (Sample.uuid "03") ≤ r.view.policy.maxRunSeconds * 1000 * 1000000 := by
  refine ⟨by decide +kernel, (lifetime_kept Crates.sample .default (by decide +kernel) _ _ ?_).2⟩
  have hother : ∀ {as : List Act} {w : World},
      (∀ a ∈ as, (∀ pick, a ≠ .restart pick) ∧ ∀ i, a ≠ Sample.worker (.finish i)) →
      Along (World.step Crates.sample)
        (fun w a => EndsSaved Crates.sample (Sample.uuid "03") w a ∧ FinishObserves (Sample.uuid "03") w a) w as := by
    intro as w h
    refine along_of_forall (fun a ha w => ⟨⟨fun pick he => ?_, fun i s r he => ?_⟩, fun i s r he => ?_⟩) _
    · exact absurd he ((h a ha).1 pick)
    · exact absurd he ((h a ha).2 i)
    · exact absurd he ((h a ha).2 i)
  rw [along_append, along_append]
  refine ⟨hother ?_, ⟨⟨⟨(fun pick he => nomatch he), fun i s r he hs _ hr => ?_⟩, fun i s r he hs _ hr => ?_⟩, trivial⟩,
    hother ?_⟩
  · simp [Sample.pausing, Sample.started, Sample.access, Sample.start, Sample.worker]
  · cases he
    have hP := of_decide_eq_true (of_session_state pausing_saved hs hr)
    exact ⟨hP.1, hP.2.1⟩
  · cases he
    exact Or.inl (of_decide_eq_true (of_session_state pausing_saved hs hr)).2.2
  · simp [Sample.resuming, Sample.access, Sample.start, Sample.worker]

/-- A session of half a millisecond is not seen by `save`: with the wall clock
standing still the run gets its whole lifetime again, and can dispatch after it. -/
theorem session_renews :
    let acts := Sample.pausing 500000 ++ [Sample.worker (.finish Sample.saved)]
    let w := run (World.step Crates.sample) (World.init Crates.sample .default) acts
    let late := run (World.step Crates.sample) w ((Sample.resuming 1000).take 2 ++ [.tick 59999999999])
    let w' := run (World.step Crates.sample) w (Sample.resuming 1000 ++ [Sample.worker (.finish Sample.saved)])
    (w.unavailable = false ∧ w.live.length = 0) ∧
      (late.live.all fun s => late.memory.doc.runs.all fun r =>
        (late.checkDispatch s ⟨r, late.mono, 1000⟩ Sample.clock).toOption.isSome &&
          decide (r.view.policy.maxRunSeconds * 1000 * 1000000 < late.spent s.runId)) = true ∧
      late.live.length = 1 ∧ (w'.unavailable = false ∧ w'.live.length = 0) ∧
      ∃ r ∈ w'.memory.doc.runs, r.view.policy.maxRunSeconds * 1000 * 1000000 < w'.spent r.view.runId := by
  decide +kernel

end EasiFlux
