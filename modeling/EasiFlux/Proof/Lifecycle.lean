import EasiFlux.Model.Scheduler

/-!
# What the lifecycle does under its lock

One inversion for each function of `SchedulerLifecycle`: all it can answer, and the record
it leaves. The proofs about generations and about recoveries cite these and unfold nothing.
-/

namespace EasiFlux

namespace SchedulerLifecycle

variable {l : SchedulerLifecycle}

/-- The record of a generation that has begun. -/
def started (l : SchedulerLifecycle) (generation : ℕ) : SchedulerLifecycle :=
  { l with nextGeneration := generation, state := .starting generation, control := some generation, requiredLoops := [] }

/-- The record of a generation that stops. -/
def stoppingAt (l : SchedulerLifecycle) (generation : ℕ) : SchedulerLifecycle :=
  { l with state := .stopping generation, cleanupCompletion := some generation, control := none }

/-- The record of a generation that is complete. -/
def completed (l : SchedulerLifecycle) : SchedulerLifecycle :=
  { l with state := .stopped, control := none, cleanupCompletion := none, cleanupJob := none, requiredLoops := [] }

/-- The record with a new explicit start. -/
def requested (l : SchedulerLifecycle) : SchedulerLifecycle :=
  { l with
    desired := some l.nextToken
    nextToken := l.nextToken + 1
    cancelledTokens := l.desired.toList ++ l.cancelledTokens
    pendingRecovery := none
    recoveryAttempt := 0 }

/-- The record with a ticket reserved. -/
def withTicket (l : SchedulerLifecycle) (ticket : RecoveryTicket) : SchedulerLifecycle :=
  { l with recoveryAttempt := ticket.attempt, pendingRecovery := some ticket }

/-- A generation is starting or running. -/
def Live (l : SchedulerLifecycle) (generation : ℕ) : Prop := l.state = .starting generation ∨ l.state = .running generation

theorem checkedNext_eq {n m : ℕ} (h : checkedNext n = some m) : m = n + 1 := by
  unfold checkedNext at h
  split at h
  · exact (Option.some.inj h).symm
  · cases h

/-- What the claim of a start can be answered. -/
inductive Decided (l : SchedulerLifecycle) (token : ℕ) : StartDecision × SchedulerLifecycle → Prop
  | denied (h : l.terminal = true ∨ l.generationExhausted = true ∨ ¬l.IsDesired token) : Decided l token (.exhausted, l)
  | busy (generation : ℕ) (h : l.Live generation) : Decided l token (.alreadyRunning, l)
  | waits (generation : ℕ) (h : l.state = .stopping generation) (hd : l.IsDesired token) : Decided l token (.wait, l)
  | lost (generation : ℕ) (h : l.state = .stopping generation) (hc : l.cleanupCompletion = none) :
    Decided l token (.exhausted, l)
  | exhausted (h : l.state = .stopped) : Decided l token (.exhausted, l.failGenerationExhaustion)
  | begins (h : l.state = .stopped) (ht : l.terminal = false) (he : l.generationExhausted = false) (hd : l.IsDesired token) :
    Decided l token (.begin (l.nextGeneration + 1), l.started (l.nextGeneration + 1))

/-- What `begin_start` does where it is asked. -/
theorem beginStart_cases (hs : l.state = .stopped) (ht : l.terminal = false) (he : l.generationExhausted = false) :
    l.beginStart = (none, l.failGenerationExhaustion) ∨
      l.beginStart = (some (l.nextGeneration + 1), l.started (l.nextGeneration + 1)) := by
  unfold beginStart
  rw [if_neg (by rw [hs, ht, he]; simp)]
  split
  · exact .inl rfl
  · rename_i generation hnext
    obtain rfl := checkedNext_eq hnext
    exact .inr rfl

theorem startDecisionFor_decided (l : SchedulerLifecycle) (token : ℕ) : Decided l token (l.startDecisionFor token) := by
  unfold startDecisionFor
  split
  · rename_i h
    exact .denied h
  · rename_i h
    rw [not_or, not_or, not_not, Bool.not_eq_true, Bool.not_eq_true] at h
    obtain ⟨ht, he, hd⟩ := h
    split
    · rename_i generation hs
      exact .busy generation (.inl hs)
    · rename_i generation hs
      exact .busy generation (.inr hs)
    · rename_i generation hs
      cases hc : l.cleanupCompletion with
      | none => exact .lost generation hs hc
      | some _ => exact .waits generation hs hd
    · rename_i hs
      rcases beginStart_cases hs ht he with hb | hb
      · rw [hb]
        exact .exhausted hs
      · rw [hb]
        exact .begins hs ht he hd

/-- What a recovery can be answered. -/
inductive RecoveryDecided (l : SchedulerLifecycle) (ticket : RecoveryTicket) : StartDecision × SchedulerLifecycle → Prop
  | denied : RecoveryDecided l ticket (.exhausted, l)
  | exhausted (h : l.state = .stopped) : RecoveryDecided l ticket (.exhausted, l.failGenerationExhaustion)
  | begins (h : l.state = .stopped) (ht : l.terminal = false) (he : l.generationExhausted = false) (hp : l.IsPending ticket)
      (hd : l.IsDesired ticket.desired) :
    RecoveryDecided l ticket (.begin (l.nextGeneration + 1), l.started (l.nextGeneration + 1))

theorem recoveryStartDecision_decided (l : SchedulerLifecycle) (ticket : RecoveryTicket) :
    RecoveryDecided l ticket (l.recoveryStartDecision ticket) := by
  unfold recoveryStartDecision
  split
  · rename_i h
    rw [Bool.not_eq_true, Bool.not_eq_true] at h
    obtain ⟨ht, he, hs, hp, hd⟩ := h
    rcases beginStart_cases hs ht he with hb | hb
    · rw [hb]
      exact .exhausted hs
    · rw [hb]
      exact .begins hs ht he hp hd
  · exact .denied

/-- What an explicit start finds. -/
theorem requestExplicitStart_cases (l : SchedulerLifecycle) :
    (∃ r, (∀ token, r ≠ .desired token) ∧ l.requestExplicitStart = (r, l)) ∨
      (l.terminal = false ∧ l.generationExhausted = false ∧ (∀ generation, ¬l.Live generation) ∧
        l.requestExplicitStart = (.desired l.nextToken, l.requested)) := by
  unfold requestExplicitStart
  split
  · exact .inl ⟨.rejected, nofun, rfl⟩
  · rename_i h
    rw [not_or, Bool.not_eq_true, Bool.not_eq_true] at h
    split
    · exact .inl ⟨.alreadyRunning, nofun, rfl⟩
    · exact .inl ⟨.alreadyRunning, nofun, rfl⟩
    · rename_i hns hnr
      refine .inr ⟨h.1, h.2, fun generation hlive => ?_, rfl⟩
      rcases hlive with hs | hs
      · exact hns _ hs
      · exact hnr _ hs

/-- What comes of a reservation. -/
inductive Reserved (l : SchedulerLifecycle) (failed : ℕ) : Option RecoveryTicket × SchedulerLifecycle → Prop
  | refused (h : l.terminal = true ∨ l.generationExhausted = true ∨ l.desired = none ∨ l.recoveryHandler = false ∨
      ∃ desired, l.desired = some desired ∧ (desired ∈ l.cancelledTokens ∨ l.IsPending ⟨failed, 0, desired⟩)) :
    Reserved l failed (none, l)
  | granted (desired attempt : ℕ) (hd : l.IsDesired desired) (hp : ¬l.IsPending ⟨failed, 0, desired⟩) :
    Reserved l failed (some ⟨failed, attempt, desired⟩, l.withTicket ⟨failed, attempt, desired⟩)

theorem reserveRecovery_reserved (l : SchedulerLifecycle) (failed : ℕ) : Reserved l failed (l.reserveRecovery failed) := by
  unfold reserveRecovery
  split
  · rename_i h
    exact .refused (h.imp_right .inl)
  · split
    · rename_i hnone
      exact .refused (.inr (.inr (.inl hnone)))
    · rename_i desired hsome
      split
      · rename_i h
        rw [Bool.not_eq_true] at h
        rcases h with h | h | h
        · exact .refused (.inr (.inr (.inr (.inl h))))
        · exact .refused (.inr (.inr (.inr (.inr ⟨desired, hsome, .inl h⟩))))
        · exact .refused (.inr (.inr (.inr (.inr ⟨desired, hsome, .inr h⟩))))
      · rename_i h
        rw [not_or, not_or] at h
        exact .granted desired _ ⟨hsome, h.2.1⟩ h.2.2

/-- What a request for a cleanup finds. -/
inductive CleanupBegun (l : SchedulerLifecycle) (generation : ℕ) (cause : CleanupCause) : CleanupRequest × SchedulerLifecycle → Prop
  | inactive (h : ¬l.Live generation) : CleanupBegun l generation cause (.inactive, l)
  | wait (h : l.state = .stopping generation) : CleanupBegun l generation cause (.wait, l)
  | stops (h : l.Live generation) (hc : cause = .explicitStop) :
    CleanupBegun l generation cause (.start generation none, l.stoppingAt generation)
  | fails (h : l.Live generation) (hc : cause ≠ .explicitStop) (r : Option RecoveryTicket × SchedulerLifecycle)
      (hr : Reserved l generation r) :
    CleanupBegun l generation cause (.start generation r.1, r.2.stoppingAt generation)

theorem stopGeneration_begun {generation : ℕ} (h : l.Live generation) (cause : CleanupCause) :
    CleanupBegun l generation cause (l.stopGeneration generation cause) := by
  unfold stopGeneration
  split
  rename_i recovery l' heq
  split at heq
  · rename_i hc
    obtain ⟨rfl, rfl⟩ := Prod.mk.inj heq
    exact .stops h hc
  · rename_i hc
    exact .fails h hc (recovery, l') (heq ▸ l.reserveRecovery_reserved generation)

/-- The generation in the state. -/
theorem activeGeneration_of_live {generation : ℕ} (h : l.Live generation) : l.activeGeneration = some generation := by
  unfold activeGeneration
  rcases h with h | h <;> rw [h]

theorem not_live_of_stopping {generation g : ℕ} (h : l.state = .stopping generation) : ¬l.Live g := by
  rintro (hs | hs) <;> rw [h] at hs <;> cases hs

theorem not_live_of_stopped {g : ℕ} (h : l.state = .stopped) : ¬l.Live g := by
  rintro (hs | hs) <;> rw [h] at hs <;> cases hs

theorem beginCleanupWithCause_begun (l : SchedulerLifecycle) (generation : ℕ) (cause : CleanupCause) :
    CleanupBegun l generation cause (l.beginCleanupWithCause generation cause) := by
  unfold beginCleanupWithCause
  split
  · rename_i active hs
    split
    · rename_i heq
      subst heq
      split
      · exact .wait hs
      · exact .inactive (not_live_of_stopping hs)
    · exact .inactive (not_live_of_stopping hs)
  · rename_i active hs
    split
    · rename_i heq
      subst heq
      exact stopGeneration_begun (.inl hs) cause
    · rename_i hne
      refine .inactive fun hlive => hne ?_
      have hactive := activeGeneration_of_live hlive
      rw [activeGeneration, hs] at hactive
      exact Option.some.inj hactive
  · rename_i active hs
    split
    · rename_i heq
      subst heq
      exact stopGeneration_begun (.inr hs) cause
    · rename_i hne
      refine .inactive fun hlive => hne ?_
      have hactive := activeGeneration_of_live hlive
      rw [activeGeneration, hs] at hactive
      exact Option.some.inj hactive
  · rename_i hs
    exact .inactive (not_live_of_stopped hs)

/-- What a stop finds; the run is not desired any more whatever it is. -/
inductive Stopped (l : SchedulerLifecycle) : CleanupRequest × SchedulerLifecycle → Prop
  | inactive (h : ∀ generation, ¬l.Live generation) : Stopped l (.inactive, l.disableDesiredRunning)
  | wait (generation : ℕ) (h : l.state = .stopping generation) : Stopped l (.wait, l.disableDesiredRunning)
  | stops (generation : ℕ) (h : l.Live generation) :
    Stopped l (.start generation none, l.disableDesiredRunning.stoppingAt generation)

theorem beginExplicitStop_stopped (l : SchedulerLifecycle) : Stopped l l.beginExplicitStop := by
  unfold beginExplicitStop
  dsimp only
  split
  · rename_i hnone
    refine .inactive fun generation hlive => ?_
    rw [activeGeneration_of_live (show l.disableDesiredRunning.Live generation from hlive)] at hnone
    cases hnone
  · rename_i generation hactive
    have hbegun := l.disableDesiredRunning.beginCleanupWithCause_begun generation .explicitStop
    generalize l.disableDesiredRunning.beginCleanupWithCause generation .explicitStop = r at hbegun ⊢
    cases hbegun with
    | inactive h =>
      refine .inactive fun g hlive => h ?_
      have hg := activeGeneration_of_live (show l.disableDesiredRunning.Live g from hlive)
      rw [hactive] at hg
      obtain rfl := Option.some.inj hg
      exact hlive
    | wait h => exact .wait generation h
    | stops h _ => exact .stops generation h
    | fails _ hc _ _ => exact absurd rfl hc

theorem finishCleanup_completed {generation : ℕ} (h : l.state = .stopping generation) :
    l.finishCleanup generation = (true, l.completed) := by
  unfold finishCleanup
  exact if_neg (not_not.2 h)

/-- What comes of a ticket whose task is gone. -/
inductive Reconciled (l : SchedulerLifecycle) (ticket : RecoveryTicket) : Option RecoveryTicket × SchedulerLifecycle → Prop
  | dead (h : l.terminal = true ∨ l.generationExhausted = true ∨ ¬l.IsCurrent ticket) : Reconciled l ticket (none, l)
  | again (attempt : ℕ) (hc : l.IsCurrent ticket) (next : Option RecoveryTicket)
      (hn : l.recoveryHandler = true → next = some { ticket with attempt := attempt }) :
    Reconciled l ticket (next, l.withTicket { ticket with attempt := attempt })

theorem reconcile_reconciled (l : SchedulerLifecycle) (ticket : RecoveryTicket) :
    Reconciled l ticket (l.reconcileAbandonedRecovery ticket) := by
  unfold reconcileAbandonedRecovery
  split
  · rename_i h
    exact .dead h
  · rename_i h
    rw [not_or, not_or, not_not] at h
    exact .again _ h.2.2 _ fun hh => if_pos hh

/-- What the drop of a waiting start leaves. -/
inductive ClaimDropped (l : SchedulerLifecycle) (token : ℕ) : Option RecoveryTicket × SchedulerLifecycle → Prop
  | stale (h : ¬l.IsDesired token) : ClaimDropped l token (none, l)
  | reserves (h : l.IsDesired token) (r : Option RecoveryTicket × SchedulerLifecycle)
      (hr : Reserved l (l.activeGeneration.getD l.nextGeneration) r) : ClaimDropped l token r

theorem dropStartClaim_dropped (l : SchedulerLifecycle) (token : ℕ) : ClaimDropped l token (l.dropStartClaim token) := by
  unfold dropStartClaim
  split
  · rename_i h
    exact .stale h
  · rename_i h
    exact .reserves (not_not.1 h) _ (l.reserveRecovery_reserved _)

theorem registerRequiredLoops_cases (l : SchedulerLifecycle) (generation : ℕ) (tasks : List TaskId) :
    ∃ registered loops, l.registerRequiredLoops generation tasks = (registered, { l with requiredLoops := loops }) := by
  unfold registerRequiredLoops
  split
  · exact ⟨_, l.requiredLoops, rfl⟩
  · exact ⟨_, _, rfl⟩

theorem markRequiredLoopReady_cases (l : SchedulerLifecycle) (generation : ℕ) (task : TaskId) :
    ∃ ready loops, l.markRequiredLoopReady generation task = (ready, { l with requiredLoops := loops }) := by
  unfold markRequiredLoopReady
  split
  · exact ⟨_, l.requiredLoops, rfl⟩
  split
  · exact ⟨_, l.requiredLoops, rfl⟩
  · exact ⟨_, _, rfl⟩

/-- What is published: every required loop is approved and the control is not cancelled. -/
inductive Published (l : SchedulerLifecycle) (cancelled : ℕ → Bool) (generation : ℕ) : SchedulerLifecycle → Prop
  | mk (l' : SchedulerLifecycle) (hs : l.state = .starting generation)
      (hl : l' = { l with requiredLoops := l'.requiredLoops }) (ha : l'.AllApproved) (control : ℕ) (hc : l.control = some control)
      (hn : cancelled control = false) : Published l cancelled generation { l' with state := .running generation }

theorem exists_of_not_all {control : Option ℕ} {cancelled : ℕ → Bool} (h : ¬control.all cancelled = true) :
    ∃ c, control = some c ∧ cancelled c = false := by
  cases control with
  | none => exact absurd rfl h
  | some c => exact ⟨c, rfl, by simpa using h⟩

theorem approveRequiredLoop_cases (l : SchedulerLifecycle) (cancelled : ℕ → Bool) (generation : ℕ) (task : TaskId) :
    (∃ outcome loops, outcome ≠ .published ∧
      l.approveRequiredLoop cancelled generation task = (outcome, { l with requiredLoops := loops })) ∨
    ∃ l', Published l cancelled generation l' ∧ l.approveRequiredLoop cancelled generation task = (.published, l') := by
  unfold approveRequiredLoop
  split
  · exact .inl ⟨.rejected, l.requiredLoops, nofun, rfl⟩
  · rename_i hs
    rw [not_not] at hs
    split
    · exact .inl ⟨.rejected, l.requiredLoops, nofun, rfl⟩
    · dsimp only
      split
      · exact .inl ⟨.approved, _, nofun, rfl⟩
      · rename_i hall
        split
        · exact .inl ⟨.rejected, _, nofun, rfl⟩
        · rename_i hnc
          rw [not_not] at hall
          obtain ⟨control, hcontrol, hn⟩ := exists_of_not_all hnc
          exact .inr ⟨_, ⟨l.setLoop task .commitApproved, hs, rfl, hall, control, hcontrol, hn⟩, rfl⟩

theorem finishStart_cases (l : SchedulerLifecycle) (cancelled : ℕ → Bool) (generation : ℕ) :
    l.finishStart cancelled generation = (false, l) ∨
      ∃ l', Published l cancelled generation l' ∧ l.finishStart cancelled generation = (true, l') := by
  unfold finishStart
  split
  · exact .inl rfl
  · rename_i h
    rw [not_or, not_or, not_not, not_not] at h
    obtain ⟨hs, hnc, hall⟩ := h
    obtain ⟨control, hcontrol, hn⟩ := exists_of_not_all hnc
    exact .inr ⟨_, ⟨l, hs, rfl, hall, control, hcontrol, hn⟩, rfl⟩

end SchedulerLifecycle

namespace Scheduler

/-- A worker is reserved in a slot, and nothing else. -/
theorem reserveWorker_eq (w : Scheduler) (g : ℕ) :
    ∃ slots workers, w.reserveWorker g = { w with slots := slots, workers := workers } := by
  unfold reserveWorker
  dsimp only
  split
  · exact ⟨w.slots, w.workers, rfl⟩
  · exact ⟨_, _, rfl⟩

theorem launchCleanup_eq (w : Scheduler) (request : CleanupRequest) :
    ∃ launchers slots workers, w.launchCleanup request = { w with launchers := launchers, slots := slots, workers := workers } := by
  cases request with
  | start => exact ⟨_, w.slots, w.workers, rfl⟩
  | inactive => exact ⟨w.launchers, w.slots, w.workers, rfl⟩
  | wait =>
    unfold launchCleanup
    cases w.lifecycle.cleanupJob with
    | none => exact ⟨w.launchers, w.slots, w.workers, rfl⟩
    | some slot =>
      obtain ⟨slots, workers, heq⟩ := w.reserveWorker_eq slot
      exact ⟨w.launchers, slots, workers, heq⟩

end Scheduler

end EasiFlux
