import Mathlib.Data.List.Perm.Basic
import Mathlib.Data.List.Count
import EasiFlux.Lib.Steps
import EasiFlux.Model.TaskRuns

/-!
# Forced runs are coalesced without loss

`RunInv` holds in every state of every interleaving (`run_runInv`): there is one owner at
most, the flags say what it is doing, each waiter is in one place, and what a waiter can
still be answered with is what it was due when it arrived.

* `forced_runs_coalesced`: what follows for the executes, the waiters and the owner count.
* `exists_drained`: from every state the executes and senders can run to their end, and
  then every waiter has its answer.
-/

namespace EasiFlux

namespace TaskRunState

variable {s : TaskRunState} {cancelled : Bool} {token : ℕ} {result : RunResult}

/-- What the flags say of the lists. -/
structure Flags (s : TaskRunState) : Prop where
  flight : s.inFlight = s.ownerToken.isSome
  pending : s.pendingForce = true ↔ s.pendingForceWaiters ≠ []
  rerun : s.forcedRerun = true → s.pendingForceWaiters = []
  active : s.forcedRerun = false → s.activeForceWaiters = []
  idle : s.inFlight = false → s.pendingForceWaiters = [] ∧ s.forcedRerun = false
  closed : s.closed = true → s.pendingForceWaiters = [] ∧ s.forcedRerun = false

theorem Flags.new : Flags new := by
  refine ⟨rfl, ?_, ?_, ?_, ?_, ?_⟩ <;> simp [TaskRunState.new]

theorem Flags.vacate (s : TaskRunState) : Flags s.vacate := by
  refine ⟨rfl, ?_, ?_, ?_, ?_, ?_⟩ <;> simp [TaskRunState.vacate]

theorem Flags.pendingForce_eq_false (h : Flags s) (hp : s.pendingForceWaiters = []) : s.pendingForce = false := by
  by_contra hne
  exact h.pending.1 (by simpa using hne) hp

/-- The pending waiters become those of the rerun. -/
def handOff (s : TaskRunState) : TaskRunState :=
  { s with
    pendingForce := false, forcedRerun := true
    activeForceWaiters := s.activeForceWaiters ++ s.pendingForceWaiters, pendingForceWaiters := [] }

/-- What the owner does when it takes the lock again. -/
theorem drainScheduledRuns_cases (h : Flags s) (ht : s.ownerToken = some token) (cancelled : Bool) (result : RunResult) :
    (s.drainScheduledRuns cancelled token result =
      (⟨s.activeForceWaiters ++ s.pendingForceWaiters, true, true, .cancelled⟩, s.vacate)) ∨
    (s.closed = false ∧ cancelled = false ∧ s.forcedRerun = false ∧
      s.drainScheduledRuns cancelled token result = (⟨[], false, false, result⟩, s.handOff)) ∨
    (s.closed = false ∧ cancelled = false ∧ s.pendingForceWaiters = [] ∧
      s.drainScheduledRuns cancelled token result = (⟨s.activeForceWaiters, true, true, result⟩, s.vacate)) := by
  unfold drainScheduledRuns
  rw [if_neg (not_not.2 ht)]
  split
  · exact .inl rfl
  · rename_i hopen
    rw [Bool.or_eq_true, not_or, Bool.not_eq_true, Bool.not_eq_true] at hopen
    split
    · rename_i hhand
      rw [Bool.and_eq_true, Bool.not_eq_true'] at hhand
      exact .inr (.inl ⟨hopen.1, hopen.2, hhand.1, rfl⟩)
    · -- no waiter is pending: in a rerun they are active, else the flag would be up
      rename_i hdone
      have hp : s.pendingForceWaiters = [] := by
        cases hr : s.forcedRerun with
        | true => exact h.rerun hr
        | false =>
          by_contra hne
          exact hdone (by rw [hr, h.pending.2 hne]; rfl)
      refine .inr (.inr ⟨hopen.1, hopen.2, hp, ?_⟩)
      rw [TaskRunState.vacate, hp, h.pendingForce_eq_false hp]

theorem Flags.handOff (h : Flags s) (hf : s.inFlight = true) (hc : s.closed = false) : Flags s.handOff := by
  refine ⟨h.flight, ?_, fun _ => rfl, ?_, ?_, ?_⟩
  · simp [TaskRunState.handOff]
  · simp [TaskRunState.handOff]
  · simp [TaskRunState.handOff, hf]
  · simp [TaskRunState.handOff, hc]

theorem Flags.cancel (h : Flags s) : Flags s.cancelTaskRunState.2 := by
  refine ⟨h.flight, ?_, fun _ => rfl, fun _ => rfl, fun _ => ⟨rfl, rfl⟩, fun _ => ⟨rfl, rfl⟩⟩
  simp [cancelTaskRunState]

/-- What a call finds. -/
inductive Claimed (s : TaskRunState) (cancelled : Bool) (waiter : ℕ) : Bool → TaskRunClaim × TaskRunState → Prop
  | closed {force : Bool} (close : Bool) (hclose : close = true → s.inFlight = false) :
    Claimed s cancelled waiter force (.closed, { s with closed := s.closed || close })
  | skip : Claimed s cancelled waiter false (.skip, s)
  | active (hc : s.closed = false) (hg : cancelled = false) (hf : s.inFlight = true) (hr : s.forcedRerun = true) :
    Claimed s cancelled waiter true (.wait waiter, { s with activeForceWaiters := s.activeForceWaiters ++ [waiter] })
  | pending (hc : s.closed = false) (hg : cancelled = false) (hf : s.inFlight = true) (hr : s.forcedRerun = false) :
    Claimed s cancelled waiter true
      (.wait waiter, { s with pendingForce := true, pendingForceWaiters := s.pendingForceWaiters ++ [waiter] })
  | owner {force : Bool} (token : ℕ) (hc : s.closed = false) (hg : cancelled = false) (hf : s.inFlight = false) :
    Claimed s cancelled waiter force
      (.owner token, { s with nextOwnerToken := token, inFlight := true, ownerToken := some token, forcedRerun := false })

theorem runScheduledTask_claimed (s : TaskRunState) (cancelled force : Bool) (waiter : ℕ) :
    Claimed s cancelled waiter force (s.runScheduledTask cancelled force waiter) := by
  unfold runScheduledTask
  split
  · have hsame : s = { s with closed := s.closed || false } := by rw [Bool.or_false]
    have hclaimed : Claimed s cancelled waiter force (.closed, { s with closed := s.closed || false }) := .closed false nofun
    rwa [← hsame] at hclaimed
  · rename_i hopen
    rw [Bool.or_eq_true, not_or, Bool.not_eq_true, Bool.not_eq_true] at hopen
    split
    · rename_i hf
      split
      · rename_i hforce
        obtain rfl := hforce
        split
        · rename_i hr
          exact .active hopen.1 hopen.2 hf hr
        · rename_i hr
          exact .pending hopen.1 hopen.2 hf (by simpa using hr)
      · rename_i hforce
        rw [Bool.not_eq_true] at hforce
        obtain rfl := hforce
        exact .skip
    · rename_i hf
      rw [Bool.not_eq_true] at hf
      split
      · have hclaimed : Claimed s cancelled waiter force (.closed, { s with closed := s.closed || true }) := .closed true fun _ => hf
        rwa [Bool.or_true] at hclaimed
      · exact .owner _ hopen.1 hopen.2 hf

theorem Flags.claimed {force : Bool} {waiter : ℕ} {r : TaskRunClaim × TaskRunState} (h : Flags s)
    (hr : Claimed s cancelled waiter force r) : Flags r.2 := by
  cases hr with
  | closed close hclose =>
    refine ⟨h.flight, h.pending, h.rerun, h.active, h.idle, fun hc => ?_⟩
    rcases Bool.or_eq_true_iff.1 hc with hc | hc
    · exact h.closed hc
    · exact h.idle (hclose hc)
  | skip => exact h
  | active hc hg hf hr =>
    refine ⟨h.flight, h.pending, h.rerun, fun hr' => ?_, h.idle, h.closed⟩
    rw [hr] at hr'
    cases hr'
  | pending hc hg hf hr =>
    refine ⟨h.flight, by simp, fun hr' => ?_, h.active, fun hf' => ?_, fun hc' => ?_⟩
    · rw [hr] at hr'
      cases hr'
    · rw [hf] at hf'
      cases hf'
    · rw [hc] at hc'
      cases hc'
  | owner token hc hg hf =>
    obtain ⟨hp, hr⟩ := h.idle hf
    exact ⟨rfl, h.pending, fun _ => hp, fun _ => h.active hr, nofun, fun _ => ⟨hp, rfl⟩⟩

end TaskRunState

namespace TaskRuns

variable {w : TaskRuns} {o : RunOwner} {r : RunResult} {x : ℕ}

/-! ## The invariant -/

/-- The waiter `x` may be answered with `r`. -/
def Answers (w : TaskRuns) (x : ℕ) : RunResult → Prop
  | .cancelled => True
  | .executed run result => (run, result) ∈ w.completions ∧ ∃ d, w.arrivals[x]? = some d ∧ d.Met run

/-- What an owner is doing, by what the rest of the state says. -/
structure OwnerOk (s : TaskRunState) (cancelled : Bool) (executes : ℕ) (completions : List (ℕ × AppResult Unit))
    (arrivals : List Due) (o : RunOwner) : Prop where
  runs : o.runs ≤ 2
  phase : match o.phase with
    | .starting => o.runs ≤ 1
    | .executing => 1 ≤ o.runs
    | .completed .cancelled => cancelled = true
    | .completed (.executed run result) => 1 ≤ o.runs ∧ run = executes ∧ (run, result) ∈ completions
    | .dropping => True
  rerun : s.closed = false → o.phase ≠ .completed .cancelled → (s.forcedRerun = true ↔ o.Rerunning)
  due : o.phase ≠ .completed .cancelled → ∀ x ∈ s.activeForceWaiters,
    ∃ d, arrivals[x]? = some d ∧ d.Met (o.current executes)

/-- Every waiter there is, wherever it is. -/
def waiters (w : TaskRuns) : List ℕ :=
  w.state.activeForceWaiters ++ w.state.pendingForceWaiters ++ (w.deliveries.flatMap Delivery.waiters ++ w.answers.map Prod.fst)

structure RunInv (w : TaskRuns) : Prop where
  flags : w.state.Flags
  owner : (w.owners = [] ∧ w.state.ownerToken = none) ∨
    ∃ o, w.owners = [o] ∧ w.state.ownerToken = some o.ownerToken ∧
      OwnerOk w.state w.cancelled w.executes w.completions w.arrivals o
  signalled : w.signalled = true → w.cancelled = true
  count : w.activeOwners = w.others + w.owners.length + w.deliveries.countP Delivery.release
  noUnderflow : w.underflow = false
  once : w.waiters.Perm (List.range w.arrivals.length)
  pending : ∀ x ∈ w.state.pendingForceWaiters, ∃ n, w.arrivals[x]? = some (.after n) ∧ n ≤ w.executes
  delivered : ∀ d ∈ w.deliveries, ∀ x ∈ d.waiters, Answers w x d.result
  answered : ∀ a ∈ w.answers, Answers w a.1 a.2

theorem runInv_init (others : ℕ) : RunInv (init others) := by
  refine ⟨.new, .inl ⟨rfl, rfl⟩, nofun, ?_, rfl, ?_, nofun, nofun, nofun⟩
  · rfl
  · exact List.Perm.refl _

/-- There is one owner, the one an action names. -/
theorem RunInv.owner_of_get (h : RunInv w) {i : ℕ} (ho : w.owners[i]? = some o) :
    w.owners = [o] ∧ i = 0 ∧ w.state.ownerToken = some o.ownerToken ∧
      OwnerOk w.state w.cancelled w.executes w.completions w.arrivals o := by
  rcases h.owner with ⟨hnil, -⟩ | ⟨o', hone, ht, hok⟩
  · rw [hnil] at ho
    cases ho
  · rw [hone] at ho
    match i, ho with
    | 0, ho =>
      obtain rfl := Option.some.inj ho
      exact ⟨hone, rfl, ht, hok⟩

/-- Answers stay right when executes return and callers arrive. -/
theorem Answers.mono {w' : TaskRuns} (h : Answers w x r) (hc : ∀ c ∈ w.completions, c ∈ w'.completions)
    (ha : ∀ d, w.arrivals[x]? = some d → w'.arrivals[x]? = some d) : Answers w' x r := by
  cases r with
  | cancelled => trivial
  | executed run result =>
    obtain ⟨hmem, d, hd, hmet⟩ := h
    exact ⟨hc _ hmem, d, ha d hd, hmet⟩

/-! ## One step -/

/-- The owner goes on; more executes may have started and returned. -/
theorem RunInv.setOwner (h : RunInv w) (ho : w.owners = [o]) {o' : RunOwner} {executes : ℕ}
    {completions : List (ℕ × AppResult Unit)} (ht : w.state.ownerToken = some o'.ownerToken) (he : w.executes ≤ executes)
    (hc : ∀ c ∈ w.completions, c ∈ completions)
    (hok : OwnerOk w.state w.cancelled executes completions w.arrivals o') :
    RunInv { w.setOwner 0 o' with executes := executes, completions := completions } := by
  have howners : (w.setOwner 0 o').owners = [o'] := by
    show o' :: w.owners.eraseIdx 0 = _
    rw [ho]
    rfl
  refine ⟨h.flags, .inr ⟨o', howners, ht, hok⟩, h.signalled, ?_, h.noUnderflow, h.once, fun x hx => ?_,
    fun d hd x hx => (h.delivered d hd x hx).mono hc fun _ h => h, fun a ha => (h.answered a ha).mono hc fun _ h => h⟩
  · show w.activeOwners = w.others + (w.setOwner 0 o').owners.length + _
    rw [howners, h.count, ho]
    rfl
  · obtain ⟨n, hn, hle⟩ := h.pending x hx
    exact ⟨n, hn, hle.trans he⟩

theorem RunInv.start (h : RunInv w) {i : ℕ} (ho : w.owners[i]? = some o) : RunInv (w.start i o) := by
  obtain ⟨hone, rfl, ht, hok⟩ := h.owner_of_get ho
  unfold TaskRuns.start
  split
  · rename_i hphase
    have hstart : o.runs ≤ 1 := by simpa [hphase] using hok.phase
    split
    · rename_i hsig
      refine h.setOwner hone ht le_rfl (fun _ h => h) ⟨hok.runs, h.signalled hsig, ?_, ?_⟩
      · exact fun _ hne => absurd rfl hne
      · exact fun hne => absurd rfl hne
    · refine h.setOwner hone ht (Nat.le_succ _) (fun _ h => h) ⟨?_, ?_, fun hc _ => ?_, fun _ x hx => ?_⟩
      · show o.runs + 1 ≤ 2
        omega
      · show 1 ≤ o.runs + 1
        omega
      · have hr := hok.rerun hc (by rw [hphase]; rintro ⟨⟩)
        simp only [RunOwner.Rerunning, hphase] at hr
        show _ ↔ o.runs + 1 = 2
        rw [hr]
        omega
      · have hd := hok.due (by rw [hphase]; rintro ⟨⟩) x hx
        simpa only [RunOwner.current, hphase] using hd
  · exact h

theorem RunInv.finish (h : RunInv w) {i : ℕ} (ho : w.owners[i]? = some o) (result : AppResult Unit) :
    RunInv (w.finish i o result) := by
  obtain ⟨hone, rfl, ht, hok⟩ := h.owner_of_get ho
  unfold TaskRuns.finish
  split
  · rename_i hphase
    have hruns : 1 ≤ o.runs := by simpa [hphase] using hok.phase
    have hne : o.phase ≠ .completed .cancelled := by rw [hphase]; exact nofun
    refine h.setOwner hone ht le_rfl (fun _ h => List.mem_append_left _ h) ⟨hok.runs, ⟨hruns, rfl, ?_⟩, fun hc _ => ?_, fun _ x hx => ?_⟩
    · exact List.mem_append_right _ (List.mem_singleton.2 rfl)
    · simpa only [RunOwner.Rerunning, hphase] using hok.rerun hc hne
    · have hd := hok.due hne x hx
      simp only [RunOwner.current, hphase] at hd
      exact hd
  · exact h

theorem RunInv.interrupt (h : RunInv w) {i : ℕ} (ho : w.owners[i]? = some o) : RunInv (w.interrupt i o) := by
  obtain ⟨hone, rfl, ht, hok⟩ := h.owner_of_get ho
  unfold TaskRuns.interrupt
  split
  · split
    · rename_i hsig
      refine h.setOwner hone ht le_rfl (fun _ h => h) ⟨hok.runs, h.signalled hsig, ?_, ?_⟩
      · exact fun _ hne => absurd rfl hne
      · exact fun hne => absurd rfl hne
    · exact h
  · exact h

theorem RunInv.dropOwner (h : RunInv w) {i : ℕ} (ho : w.owners[i]? = some o) : RunInv (w.dropOwner i o) := by
  obtain ⟨hone, rfl, ht, hok⟩ := h.owner_of_get ho
  unfold TaskRuns.dropOwner
  split
  · rename_i hphase
    have hne : o.phase ≠ .completed .cancelled := by rw [hphase]; exact nofun
    refine h.setOwner hone ht le_rfl (fun _ h => h) ⟨hok.runs, trivial, fun hc _ => ?_, fun _ x hx => ?_⟩
    · simpa only [RunOwner.Rerunning, hphase] using hok.rerun hc hne
    · simpa only [RunOwner.current, hphase] using hok.due hne x hx
  · exact h

/-- The owner is gone, and its waiters are on their way to an answer. -/
theorem RunInv.retire (h : RunInv w) (ho : w.owners = [o]) {ws : List ℕ}
    (hws : ws.Perm (w.state.activeForceWaiters ++ w.state.pendingForceWaiters)) (hr : ∀ x ∈ ws, Answers w x r) :
    RunInv (w.retire 0 w.state.vacate ⟨ws, r, true⟩) := by
  have howners : w.owners.eraseIdx 0 = [] := by rw [ho]; rfl
  refine ⟨.vacate _, .inl ⟨howners, rfl⟩, h.signalled, ?_, h.noUnderflow, ?_, nofun, fun d hd x hx => ?_, h.answered⟩
  · show w.activeOwners = w.others + (w.owners.eraseIdx 0).length + _
    rw [howners, h.count, ho]
    show w.others + 1 + _ = w.others + 0 + List.countP Delivery.release (_ :: w.deliveries)
    rw [List.countP_cons_of_pos rfl]
    omega
  · refine List.Perm.trans ?_ h.once
    show (ws ++ w.deliveries.flatMap Delivery.waiters ++ w.answers.map Prod.fst).Perm _
    rw [List.append_assoc]
    exact hws.append_right _
  · rcases List.mem_cons.1 hd with rfl | hd
    · exact hr x hx
    · exact h.delivered d hd x hx

/-- The pending waiters are due an execute after their arrival: the rerun is one. -/
theorem RunInv.handOff (h : RunInv w) (ho : w.owners[0]? = some o) {run : ℕ} {result : AppResult Unit}
    (hphase : o.phase = .completed (.executed run result)) (hc : w.state.closed = false) (hr : w.state.forcedRerun = false) :
    RunInv { w.setOwner 0 { o with phase := .starting } with state := w.state.handOff } := by
  obtain ⟨hone, -, ht, hok⟩ := h.owner_of_get ho
  have hflight : w.state.inFlight = true := by rw [h.flags.flight, ht]; rfl
  have hruns : 1 ≤ o.runs := by
    have hp := hok.phase
    simp only [hphase] at hp
    exact hp.1
  have hfirst : o.runs ≠ 2 := by
    have hrr := hok.rerun hc (by rw [hphase]; exact nofun)
    simp only [RunOwner.Rerunning, hphase, hr] at hrr
    exact fun h2 => nomatch hrr.2 h2
  have htwo := hok.runs
  refine ⟨h.flags.handOff hflight hc, .inr ⟨{ o with phase := .starting }, ?_, ht, ⟨hok.runs, ?_, fun _ _ => ?_, fun _ x hx => ?_⟩⟩,
    h.signalled, ?_, h.noUnderflow, ?_, nofun, h.delivered, h.answered⟩
  · show { o with phase := .starting } :: w.owners.eraseIdx 0 = _
    rw [hone]
    rfl
  · show o.runs ≤ 1
    omega
  · show true = true ↔ o.runs = 1
    constructor
    · intro _
      omega
    · exact fun _ => rfl
  · rw [show w.state.handOff.activeForceWaiters = w.state.activeForceWaiters ++ w.state.pendingForceWaiters from rfl,
      h.flags.active hr, List.nil_append] at hx
    obtain ⟨n, hn, hle⟩ := h.pending x hx
    exact ⟨_, hn, Nat.lt_succ_of_le hle⟩
  · show w.activeOwners = w.others + (_ :: w.owners.eraseIdx 0).length + _
    rw [hone, h.count, hone]
    rfl
  · refine List.Perm.trans (List.Perm.of_eq ?_) h.once
    show w.state.activeForceWaiters ++ w.state.pendingForceWaiters ++ [] ++ _ = _
    rw [List.append_nil]
    rfl

theorem RunInv.settle (h : RunInv w) {i : ℕ} (ho : w.owners[i]? = some o) : RunInv (w.settle i o) := by
  obtain ⟨hone, rfl, ht, hok⟩ := h.owner_of_get ho
  unfold TaskRuns.settle
  split
  · rename_i result hphase
    rcases TaskRunState.drainScheduledRuns_cases h.flags ht w.cancelled result with hd | ⟨hc, hg, hr, hd⟩ | ⟨hc, hg, hp, hd⟩
    · rw [hd]
      exact h.retire hone (List.Perm.refl _) fun _ _ => trivial
    · rw [hd]
      cases result with
      | cancelled =>
        have hcancelled : w.cancelled = true := by simpa [hphase] using hok.phase
        rw [hcancelled] at hg
        cases hg
      | executed run result => exact h.handOff ho hphase hc hr
    · rw [hd]
      refine h.retire hone (by rw [hp, List.append_nil]) fun x hx => ?_
      cases result with
      | cancelled => trivial
      | executed run result =>
        have hp := hok.phase
        simp only [hphase] at hp
        obtain ⟨-, rfl, hmem⟩ := hp
        have hdue := hok.due (by rw [hphase]; exact nofun) x hx
        simp only [RunOwner.current, hphase] at hdue
        exact ⟨hmem, hdue⟩
  · exact h

theorem RunInv.dropGuard (h : RunInv w) {i : ℕ} (ho : w.owners[i]? = some o) : RunInv (w.dropGuard i o) := by
  obtain ⟨hone, rfl, ht, -⟩ := h.owner_of_get ho
  unfold TaskRuns.dropGuard
  split
  · unfold TaskRunState.dropOwnerGuard
    rw [if_neg (not_not.2 ht)]
    exact h.retire hone (List.Perm.refl _) fun _ _ => trivial
  · exact h

/-- A run in flight that is not cancelled has an owner in its run. -/
theorem RunInv.owner_of_flight (h : RunInv w) (hf : w.state.inFlight = true) (hg : w.cancelled = false) :
    ∃ o, w.owners = [o] ∧ w.state.ownerToken = some o.ownerToken ∧
      OwnerOk w.state w.cancelled w.executes w.completions w.arrivals o ∧ o.phase ≠ .completed .cancelled := by
  rcases h.owner with ⟨-, hnone⟩ | ⟨o, hone, ht, hok⟩
  · rw [h.flags.flight, hnone] at hf
    cases hf
  · refine ⟨o, hone, ht, hok, fun hphase => ?_⟩
    have hp := hok.phase
    simp only [hphase, hg] at hp
    cases hp

theorem getElem?_concat_of {arrivals : List Due} {d e : Due} (hx : arrivals[x]? = some d) : (arrivals ++ [e])[x]? = some d := by
  rw [List.getElem?_append_left (List.getElem?_eq_some_iff.1 hx).1]
  exact hx

/-- A waiter registers; what it is due the owner can still give. -/
theorem RunInv.register (h : RunInv w) {s : TaskRunState} (hs : s.Flags) (ho : w.owners = [o])
    (ht : s.ownerToken = some o.ownerToken)
    (hok : OwnerOk s w.cancelled w.executes w.completions (w.arrivals ++ [w.due]) o)
    (hlists : (s.activeForceWaiters ++ s.pendingForceWaiters).Perm
      (w.arrivals.length :: (w.state.activeForceWaiters ++ w.state.pendingForceWaiters)))
    (hpending : ∀ x ∈ s.pendingForceWaiters, ∃ n, (w.arrivals ++ [w.due])[x]? = some (.after n) ∧ n ≤ w.executes) :
    RunInv { w with state := s, arrivals := w.arrivals ++ [w.due] } := by
  refine ⟨hs, .inr ⟨o, ho, ht, hok⟩, h.signalled, h.count, h.noUnderflow, ?_, hpending, fun d hd x hx => ?_, fun a ha => ?_⟩
  · rw [List.length_append, List.length_singleton, List.range_succ]
    refine (hlists.append_right _).trans ?_
    refine List.Perm.trans ?_ (List.perm_append_singleton _ _).symm
    exact h.once.cons _
  · exact (h.delivered d hd x hx).mono (fun _ h => h) fun _ => getElem?_concat_of
  · exact (h.answered a ha).mono (fun _ h => h) fun _ => getElem?_concat_of

theorem RunInv.call (h : RunInv w) (force : Bool) : RunInv (w.call force) := by
  have hclaimed := w.state.runScheduledTask_claimed w.cancelled force w.arrivals.length
  have hflags := h.flags.claimed hclaimed
  unfold TaskRuns.call TaskRuns.claim
  generalize w.state.runScheduledTask w.cancelled force w.arrivals.length = r at hclaimed hflags ⊢
  have hlast : (w.arrivals ++ [w.due])[w.arrivals.length]? = some w.due := by simp
  cases hclaimed with
  | closed close hclose =>
    refine ⟨hflags, ?_, h.signalled, h.count, h.noUnderflow, h.once, h.pending, h.delivered, h.answered⟩
    rcases h.owner with hnone | ⟨o, hone, ht, hok⟩
    · exact .inl hnone
    · refine .inr ⟨o, hone, ht, ⟨hok.runs, hok.phase, fun hc => hok.rerun ?_, hok.due⟩⟩
      exact (Bool.or_eq_false_iff.1 hc).1
  | skip => exact h
  | active hc hg hf hr =>
    obtain ⟨o, hone, ht, hok, hne⟩ := h.owner_of_flight hf hg
    have hdue : w.due = .rerun (o.current w.executes) := by
      rw [due, hone]
      exact if_pos ((hok.rerun hc hne).1 hr)
    refine h.register hflags hone ht ⟨hok.runs, hok.phase, hok.rerun, fun _ x hx => ?_⟩ ?_ fun x hx => ?_
    · rcases List.mem_append.1 hx with hx | hx
      · obtain ⟨d, hd, hmet⟩ := hok.due hne x hx
        exact ⟨d, getElem?_concat_of hd, hmet⟩
      · rw [List.mem_singleton.1 hx]
        refine ⟨_, hlast, ?_⟩
        rw [hdue]
        rfl
    · rw [List.append_assoc]
      exact List.perm_middle
    · obtain ⟨n, hn, hle⟩ := h.pending x hx
      exact ⟨n, getElem?_concat_of hn, hle⟩
  | pending hc hg hf hr =>
    obtain ⟨o, hone, ht, hok, hne⟩ := h.owner_of_flight hf hg
    have hfirst : ¬o.Rerunning := by
      intro hre
      rw [(hok.rerun hc hne).2 hre] at hr
      cases hr
    have hdue : w.due = .after w.executes := by
      rw [due, hone]
      exact if_neg hfirst
    refine h.register hflags hone ht ⟨hok.runs, hok.phase, hok.rerun, fun _ x hx => ?_⟩ ?_ fun x hx => ?_
    · obtain ⟨d, hd, hmet⟩ := hok.due hne x hx
      exact ⟨d, getElem?_concat_of hd, hmet⟩
    · rw [← List.append_assoc]
      exact List.perm_append_singleton _ _
    · rcases List.mem_append.1 hx with hx | hx
      · obtain ⟨n, hn, hle⟩ := h.pending x hx
        exact ⟨n, getElem?_concat_of hn, hle⟩
      · rw [List.mem_singleton.1 hx]
        exact ⟨w.executes, by rw [hlast, hdue], le_rfl⟩
  | owner token hc hg hf =>
    -- nobody owns a run that is not in flight
    have hnone : w.owners = [] := by
      rcases h.owner with ⟨hnil, -⟩ | ⟨o, -, ht, -⟩
      · exact hnil
      · rw [h.flags.flight, ht] at hf
        cases hf
    have hactive : w.state.activeForceWaiters = [] := h.flags.active (h.flags.idle hf).2
    refine ⟨hflags, .inr ⟨⟨token, 0, .starting⟩, ?_, rfl, ⟨Nat.zero_le _, Nat.zero_le _, fun _ _ => ?_, fun _ x hx => ?_⟩⟩,
      h.signalled, ?_, h.noUnderflow, h.once, h.pending, h.delivered, h.answered⟩
    · show _ :: w.owners = _
      rw [hnone]
    · show false = true ↔ (0 : ℕ) = 1
      simp
    · rw [show _ = w.state.activeForceWaiters from rfl, hactive] at hx
      cases hx
    · show w.activeOwners + 1 = w.others + (w.owners.length + 1) + w.deliveries.countP Delivery.release
      rw [h.count]
      omega

/-! ### Senders -/

/-- An element taken out of a list, at its head. -/
theorem perm_of_get {α : Type} {l : List α} {j : ℕ} {a : α} (ha : l[j]? = some a) : (a :: l.eraseIdx j).Perm l := by
  obtain ⟨hj, rfl⟩ := List.getElem?_eq_some_iff.1 ha
  exact List.getElem_cons_eraseIdx_perm hj

theorem RunInv.release (h : RunInv w) {j : ℕ} {d : Delivery} (hd : w.deliveries[j]? = some d) : RunInv (w.release j d) := by
  have hperm := perm_of_get hd
  unfold TaskRuns.release
  split
  · rename_i hrel
    have hcount := h.count
    rw [← hperm.countP_eq, List.countP_cons_of_pos hrel] at hcount
    unfold ownerFinished
    rw [if_neg (by show w.activeOwners ≠ 0; omega)]
    refine ⟨h.flags, h.owner, h.signalled, ?_, h.noUnderflow, ?_, h.pending, fun e he x hx => ?_, h.answered⟩
    · show w.activeOwners - 1 = w.others + w.owners.length + List.countP Delivery.release (_ :: w.deliveries.eraseIdx j)
      rw [List.countP_cons_of_neg (by simp)]
      omega
    · refine List.Perm.trans ?_ h.once
      have hflat : ({ d with release := false } :: w.deliveries.eraseIdx j).flatMap Delivery.waiters =
        (d :: w.deliveries.eraseIdx j).flatMap Delivery.waiters := rfl
      exact ((List.Perm.of_eq hflat).trans (hperm.flatMap_right _)).append_right _ |>.append_left _
    · rcases List.mem_cons.1 he with rfl | he
      · exact h.delivered d (List.mem_of_getElem? hd) x hx
      · exact h.delivered e (List.mem_of_mem_eraseIdx he) x hx
  · exact h

theorem RunInv.send (h : RunInv w) {j : ℕ} {d : Delivery} (hd : w.deliveries[j]? = some d) : RunInv (w.send j d) := by
  have hperm := perm_of_get hd
  have hmem := List.mem_of_getElem? hd
  unfold TaskRuns.send
  split
  · exact h
  · rename_i hrel
    have hcount := h.count
    rw [← hperm.countP_eq, List.countP_cons_of_neg hrel] at hcount
    have hflat := hperm.flatMap_right Delivery.waiters
    rw [List.flatMap_cons] at hflat
    split
    · rename_i hnil
      refine ⟨h.flags, h.owner, h.signalled, hcount, h.noUnderflow, ?_, h.pending,
        fun e he => h.delivered e (List.mem_of_mem_eraseIdx he), h.answered⟩
      rw [hnil, List.nil_append] at hflat
      exact ((hflat.append_right _).append_left _).trans h.once
    · rename_i waiter rest hcons
      rw [hcons] at hflat
      refine ⟨h.flags, h.owner, h.signalled, ?_, h.noUnderflow, ?_, h.pending, fun e he x hx => ?_, fun a ha => ?_⟩
      · show w.activeOwners = w.others + w.owners.length + List.countP Delivery.release (_ :: w.deliveries.eraseIdx j)
        rw [List.countP_cons_of_neg (by exact hrel)]
        exact hcount
      · -- the waiter moves from the delivery to the answers
        refine List.Perm.trans (List.Perm.append_left _ ?_) h.once
        rw [List.map_append, ← List.append_assoc]
        refine (List.perm_append_singleton _ _).trans ?_
        exact hflat.append_right _
      · rcases List.mem_cons.1 he with rfl | he
        · exact h.delivered d hmem x (by rw [hcons]; exact List.mem_cons_of_mem _ hx)
        · exact h.delivered e (List.mem_of_mem_eraseIdx he) x hx
      · rcases List.mem_append.1 ha with ha | ha
        · exact h.answered a ha
        · rw [List.mem_singleton.1 ha]
          exact h.delivered d hmem waiter (by rw [hcons]; exact List.mem_cons_self)

theorem RunInv.cancelState (h : RunInv w) : RunInv w.cancelState := by
  refine ⟨h.flags.cancel, ?_, h.signalled, ?_, h.noUnderflow, ?_, nofun, fun d hd x hx => ?_, h.answered⟩
  · rcases h.owner with hnone | ⟨o, hone, ht, hok⟩
    · exact .inl hnone
    · exact .inr ⟨o, hone, ht, ⟨hok.runs, hok.phase, nofun, fun _ => nofun⟩⟩
  · show w.activeOwners = w.others + w.owners.length + List.countP Delivery.release (_ :: w.deliveries)
    rw [List.countP_cons_of_neg Bool.false_ne_true, h.count]
  · refine List.Perm.trans (List.Perm.of_eq ?_) h.once
    show (_ ++ w.deliveries.flatMap Delivery.waiters) ++ _ = _
    rw [List.append_assoc]
    rfl
  · rcases List.mem_cons.1 hd with rfl | hd
    · trivial
    · exact h.delivered d hd x hx

theorem OwnerOk.cancel {s : TaskRunState} {cancelled : Bool} {executes : ℕ} {completions : List (ℕ × AppResult Unit)}
    {arrivals : List Due} (h : OwnerOk s cancelled executes completions arrivals o) :
    OwnerOk s true executes completions arrivals o := by
  refine ⟨h.runs, ?_, h.rerun, h.due⟩
  have hp := h.phase
  cases hphase : o.phase with
  | completed result =>
    cases result with
    | cancelled => rfl
    | executed run result =>
      simp only [hphase] at hp
      exact hp
  | _ =>
    simp only [hphase] at hp
    exact hp

theorem RunInv.withOwner (h : RunInv w) {i : ℕ} {f : RunOwner → TaskRuns} (hf : ∀ o, w.owners[i]? = some o → RunInv (f o)) :
    RunInv (w.withOwner i f) := by
  unfold TaskRuns.withOwner
  cases ho : w.owners[i]? with
  | none => exact h
  | some o => exact hf o ho

theorem RunInv.withDelivery (h : RunInv w) {j : ℕ} {f : Delivery → TaskRuns}
    (hf : ∀ d, w.deliveries[j]? = some d → RunInv (f d)) : RunInv (w.withDelivery j f) := by
  unfold TaskRuns.withDelivery
  cases hd : w.deliveries[j]? with
  | none => exact h
  | some d => exact hf d hd

/-- **Every step keeps the invariant.** -/
theorem RunInv.step (h : RunInv w) (a : RunAct) : RunInv (w.step a) := by
  cases a with
  | call force => exact h.call force
  | start i => exact h.withOwner fun _ => h.start
  | finish i result => exact h.withOwner fun _ ho => h.finish ho result
  | interrupt i => exact h.withOwner fun _ => h.interrupt
  | settle i => exact h.withOwner fun _ => h.settle
  | dropOwner i => exact h.withOwner fun _ => h.dropOwner
  | dropGuard i => exact h.withOwner fun _ => h.dropGuard
  | release j => exact h.withDelivery fun _ => h.release
  | send j => exact h.withDelivery fun _ => h.send
  | cancelTaskRunState => exact h.cancelState
  | cancel =>
    refine ⟨h.flags, ?_, fun _ => rfl, h.count, h.noUnderflow, h.once, h.pending, h.delivered, h.answered⟩
    rcases h.owner with hnone | ⟨o, hone, ht, hok⟩
    · exact .inl hnone
    · exact .inr ⟨o, hone, ht, hok.cancel⟩
  | signal =>
    show RunInv (if w.cancelled = true then { w with signalled := true } else w)
    split
    · rename_i hc
      exact ⟨h.flags, h.owner, fun _ => hc, h.count, h.noUnderflow, h.once, h.pending, h.delivered, h.answered⟩
    · exact h
  | otherStarted =>
    refine ⟨h.flags, h.owner, h.signalled, ?_, h.noUnderflow, h.once, h.pending, h.delivered, h.answered⟩
    show w.activeOwners + 1 = w.others + 1 + w.owners.length + w.deliveries.countP Delivery.release
    rw [h.count]
    omega
  | otherFinished =>
    show RunInv (if w.others = 0 then w else ownerFinished { w with others := w.others - 1 })
    split
    · exact h
    · rename_i hothers
      have hcount := h.count
      unfold ownerFinished
      rw [if_neg (by show w.activeOwners ≠ 0; omega)]
      refine ⟨h.flags, h.owner, h.signalled, ?_, h.noUnderflow, h.once, h.pending, h.delivered, h.answered⟩
      show w.activeOwners - 1 = w.others - 1 + w.owners.length + w.deliveries.countP Delivery.release
      omega
  | dropReceiver waiter => exact h

/-- **The invariant holds in every state of every interleaving.** -/
theorem run_runInv (others : ℕ) (as : List RunAct) : RunInv (Steps.run step (init others) as) :=
  Steps.run_inv (fun _ a h => h.step a) as _ (runInv_init others)

/-! ## Every waiter gets its answer -/

/-- An action that brings what is under way to its end. -/
def IsOwn : RunAct → Prop
  | .start _ => True
  | .finish _ _ => True
  | .settle _ => True
  | .dropGuard _ => True
  | .release _ => True
  | .send _ => True
  | _ => False

/-- What an owner has to do yet. -/
def ownerWork (s : TaskRunState) (o : RunOwner) : ℕ :=
  (match o.phase with
    | .starting => 3
    | .executing => 2
    | .completed _ => 1
    | .dropping => 1) + if s.forcedRerun then 0 else 3

def deliveryWork (d : Delivery) : ℕ := d.waiters.length + 1 + if d.release then 1 else 0

/-- What is still to be done until everybody is gone. -/
def work (w : TaskRuns) : ℕ :=
  3 * (w.owners.map (ownerWork w.state)).sum + (w.deliveries.map deliveryWork).sum +
    (w.state.activeForceWaiters.length + w.state.pendingForceWaiters.length)

/-- No execute and no sender is under way. -/
def Quiet (w : TaskRuns) : Prop := w.owners = [] ∧ w.deliveries = []

theorem ownerWork_pos (s : TaskRunState) (o : RunOwner) : 1 ≤ ownerWork s o := by
  unfold ownerWork
  split <;> omega

/-- An owner that goes has less to do than its waiters' delivery takes. -/
theorem work_retire (ho : w.owners = [o]) {ws : List ℕ} {release : Bool}
    (hws : ws.length ≤ w.state.activeForceWaiters.length + w.state.pendingForceWaiters.length) :
    (w.retire 0 w.state.vacate ⟨ws, r, release⟩).work < w.work := by
  have hpos := ownerWork_pos w.state o
  have hd : deliveryWork ⟨ws, r, release⟩ ≤ ws.length + 2 := by
    show ws.length + 1 + (if release = true then 1 else 0) ≤ _
    split <;> omega
  simp only [work, TaskRuns.retire, ho, TaskRunState.vacate, List.eraseIdx_cons_zero, List.map_nil, List.sum_nil, List.map_cons,
    List.sum_cons, List.length_nil]
  omega

theorem exists_owner_step (h : RunInv w) (ho : w.owners = [o]) : ∃ a, IsOwn a ∧ (w.step a).work < w.work := by
  have hget : w.owners[0]? = some o := by rw [ho]; rfl
  have hwith : ∀ f, w.withOwner 0 f = f o := by
    intro f
    rw [TaskRuns.withOwner, hget]
    rfl
  obtain ⟨-, -, ht, hok⟩ := h.owner_of_get hget
  -- in every phase the owner has a step of its own:
  cases hphase : o.phase with
  | starting =>
    refine ⟨.start 0, trivial, ?_⟩
    show (w.withOwner 0 (w.start 0)).work < _
    rw [hwith, TaskRuns.start, hphase]
    dsimp only
    split
    all_goals
      simp only [work, TaskRuns.setOwner, ho, ownerWork, hphase, List.eraseIdx_cons_zero, List.map_cons, List.map_nil,
        List.sum_cons, List.sum_nil]
      omega
  | executing =>
    refine ⟨.finish 0 (.ok ()), trivial, ?_⟩
    show (w.withOwner 0 fun o => w.finish 0 o (.ok ())).work < _
    rw [hwith, TaskRuns.finish, hphase]
    simp only [work, TaskRuns.setOwner, ho, ownerWork, hphase, List.eraseIdx_cons_zero, List.map_cons, List.map_nil,
      List.sum_cons, List.sum_nil]
    omega
  | completed result =>
    refine ⟨.settle 0, trivial, ?_⟩
    show (w.withOwner 0 (w.settle 0)).work < _
    rw [hwith, TaskRuns.settle, hphase]
    dsimp only
    rcases TaskRunState.drainScheduledRuns_cases h.flags ht w.cancelled result with hd | ⟨-, -, hr, hd⟩ | ⟨-, -, -, hd⟩
    · rw [hd]
      exact work_retire ho (List.length_append ▸ le_rfl)
    · -- the hand-off comes once: the flag of the rerun is up then
      rw [hd]
      simp only [work, TaskRuns.setOwner, ho, ownerWork, hphase, hr, TaskRunState.handOff, List.eraseIdx_cons_zero, List.map_cons,
        List.map_nil, List.sum_cons, List.sum_nil, List.length_append, List.length_nil, Bool.false_eq_true, if_false, if_true]
      omega
    · rw [hd]
      exact work_retire ho (Nat.le_add_right _ _)
  | dropping =>
    refine ⟨.dropGuard 0, trivial, ?_⟩
    show (w.withOwner 0 (w.dropGuard 0)).work < _
    rw [hwith, TaskRuns.dropGuard, hphase]
    dsimp only
    rw [TaskRunState.dropOwnerGuard, if_neg (not_not.2 ht)]
    exact work_retire ho (List.length_append ▸ le_rfl)

theorem exists_sender_step {d : Delivery} {ds : List Delivery} (hd : w.deliveries = d :: ds) :
    ∃ a, IsOwn a ∧ (w.step a).work < w.work := by
  have hwith : ∀ f, w.withDelivery 0 f = f d := by
    intro f
    rw [TaskRuns.withDelivery, hd]
    rfl
  by_cases hrel : d.release = true
  · refine ⟨.release 0, trivial, ?_⟩
    show (w.withDelivery 0 (w.release 0)).work < _
    rw [hwith, TaskRuns.release, if_pos hrel, ownerFinished]
    split
    all_goals
      simp only [work, hd, deliveryWork, hrel, List.eraseIdx_cons_zero, List.map_cons, List.sum_cons, Bool.false_eq_true, if_false,
        if_true]
      omega
  · refine ⟨.send 0, trivial, ?_⟩
    show (w.withDelivery 0 (w.send 0)).work < _
    rw [hwith, TaskRuns.send, if_neg hrel]
    split
    · simp only [work, hd, deliveryWork, List.eraseIdx_cons_zero, List.map_cons, List.sum_cons]
      omega
    · rename_i hcons
      simp only [work, hd, deliveryWork, hcons, List.eraseIdx_cons_zero, List.map_cons, List.sum_cons, List.length_cons]
      omega

/-- **Nothing is stuck**: what is under way can run to its end. -/
theorem exists_drained (h : RunInv w) : ∃ as, (∀ a ∈ as, IsOwn a) ∧ Quiet (Steps.run step w as) := by
  refine Steps.exists_run_of_measure work (fun _ a h => h.step a) (fun w h hq => ?_) w h
  rcases h.owner with ⟨hnil, -⟩ | ⟨o, hone, -⟩
  · cases hd : w.deliveries with
    | nil => exact absurd ⟨hnil, hd⟩ hq
    | cons d ds => exact exists_sender_step hd
  · exact exists_owner_step h hone

/-! ## The result -/

/-- What holds of the callers, executes and waiters of one task. An execute in progress is
an owner's. -/
structure Coalesced (w : TaskRuns) : Prop where
  oneOwner : w.owners.length ≤ 1
  twoRuns : ∀ o ∈ w.owners, o.runs ≤ 2
  /-- an answer is the cancellation, or the result of an execute the waiter is due -/
  answers : ∀ a ∈ w.answers, Answers w a.1 a.2
  answeredOnce : (w.answers.map Prod.fst).Nodup
  /-- a waiter is registered, on its way or answered, and in one of these alone -/
  onePlace : w.waiters.Perm (List.range w.arrivals.length)
  noneLeft : w.state.inFlight = false → w.state.pendingForceWaiters = [] ∧ w.state.activeForceWaiters = []
  neverWaits : ∀ waiter, w.claim false ≠ .wait waiter
  owners : w.activeOwners = w.others + w.owners.length + w.deliveries.countP Delivery.release
  flight : w.owners.length = if w.state.inFlight then 1 else 0
  noUnderflow : w.underflow = false

theorem claim_ne_wait (w : TaskRuns) (waiter : ℕ) : w.claim false ≠ .wait waiter := by
  have hclaimed := w.state.runScheduledTask_claimed w.cancelled false w.arrivals.length
  unfold claim
  intro h
  generalize w.state.runScheduledTask w.cancelled false w.arrivals.length = r at hclaimed h
  generalize hforce : false = force at hclaimed
  cases hclaimed with
  | active => cases hforce
  | pending => cases hforce
  | _ => cases h

theorem RunInv.coalesced (h : RunInv w) : Coalesced w := by
  refine ⟨?_, ?_, h.answered, ?_, h.once, fun hf => ?_, claim_ne_wait w, h.count, ?_, h.noUnderflow⟩
  · rcases h.owner with ⟨hnil, -⟩ | ⟨o, hone, -⟩
    · rw [hnil]
      exact Nat.zero_le _
    · rw [hone]
      exact le_rfl
  · intro o ho
    rcases h.owner with ⟨hnil, -⟩ | ⟨o', hone, -, hok⟩
    · rw [hnil] at ho
      cases ho
    · rw [hone] at ho
      rw [List.mem_singleton.1 ho]
      exact hok.runs
  · have hnodup := h.once.nodup_iff.2 List.nodup_range
    exact (List.nodup_append.1 (List.nodup_append.1 hnodup).2.1).2.1
  · obtain ⟨hp, hr⟩ := h.flags.idle hf
    exact ⟨hp, h.flags.active hr⟩
  · rw [h.flags.flight]
    rcases h.owner with ⟨hnil, hnone⟩ | ⟨o, hone, ht, -⟩
    · rw [hnil, hnone]
      rfl
    · rw [hone, ht]
      rfl

/-- When nothing is under way every waiter has had its answer, once. -/
theorem RunInv.answered_of_quiet (h : RunInv w) (hq : Quiet w) :
    (w.answers.map Prod.fst).Perm (List.range w.arrivals.length) := by
  have hf : w.state.inFlight = false := by
    rcases h.owner with ⟨-, hnone⟩ | ⟨o, hone, -⟩
    · rw [h.flags.flight, hnone]
      rfl
    · rw [hq.1] at hone
      cases hone
  obtain ⟨hp, ha⟩ := h.coalesced.noneLeft hf
  have honce := h.once
  unfold waiters at honce
  rwa [hp, ha, hq.2] at honce

end TaskRuns

end EasiFlux
