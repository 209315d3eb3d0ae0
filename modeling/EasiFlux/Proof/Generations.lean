import EasiFlux.Proof.Cleanups

/-!
# Generations never overlap

`Turn`: what one step can do to the state, the guards, the starts and the completions. With
`GenInv`, which every run keeps, this is all there is to say about two generations.

* `generations_never_overlap`: the generations that begin, stop and complete, who is an
  owner when, and what is published.
-/

namespace EasiFlux

namespace Scheduler

open SchedulerLifecycle

variable {w w' : Scheduler} {i g : ℕ}

/-! ## What a step can do -/

/-- A guard that a step makes, by what there is before it. -/
structure Admitted (w : Scheduler) (o : OwnerGuard) : Prop where
  active : w.lifecycle.activeGeneration = some o.generation
  /-- a run or an activity starts before the cleanup job is installed -/
  work : o.kind = .taskRun ∨ o.kind = .activity → w.lifecycle.cleanupJob ≠ some o.generation
  /-- a loop and a handle are made by a start that has its own guard -/
  started : o.kind = .requiredLoop ∨ o.kind = .handle → ∃ f ∈ w.flows, f.generation = o.generation
  /-- a batch is deferred by such a start, or with the guard of its handle -/
  batch : o.kind = .deferred → (∃ f ∈ w.flows, f.generation = o.generation) ∨ ⟨.handle, o.generation⟩ ∈ w.guards

/-- The control of a generation has drained: no owner, and no deferred handle. -/
def Drained (w : Scheduler) (g : ℕ) : Prop := (w.controls g).activeOwners = 0 ∧ (w.controls g).deferredHandles = 0

structure Turn (w w' : Scheduler) : Prop where
  stopped : w'.lifecycle.state = .stopped → w.lifecycle.state = .stopped ∨
    ∃ g, w.lifecycle.state = .stopping g ∧ Drained w g ∧ w'.completions = w.completions ++ [g]
  running : ∀ g, w'.lifecycle.state = .running g → w.lifecycle.state = .running g ∨
    (w.lifecycle.state = .starting g ∧ w'.lifecycle.AllApproved ∧ w.cancelled g = false)
  guards : ∀ o, w.guards.count o < w'.guards.count o → Admitted w o
  flows : ∀ f ∈ w'.flows, (∃ f' ∈ w.flows, f'.generation = f.generation) ∨
    (w.lifecycle.state = .stopped ∧ f.generation = w.lifecycle.nextGeneration + 1)
  completions : w'.completions = w.completions ∨ (w.lifecycle.state ≠ .stopped ∧ w'.lifecycle.state = .stopped)

/-- The state is as before, or one that nothing is asked of. -/
def StateKept (l l' : SchedulerLifecycle) : Prop := l'.state = l.state ∨ ∃ g, l'.state = .stopping g ∨ l'.state = .starting g

theorem Turn.stopped_of_kept {l : SchedulerLifecycle} {P : Prop} (hs : StateKept w.lifecycle l) (h : l.state = .stopped) :
    w.lifecycle.state = .stopped ∨ P := by
  rcases hs with hs | ⟨g, hs | hs⟩
  · exact .inl (hs.symm.trans h)
  · cases hs.symm.trans h
  · cases hs.symm.trans h

theorem Turn.running_of_kept {l : SchedulerLifecycle} {P : Prop} (hs : StateKept w.lifecycle l) (h : l.state = .running g) :
    w.lifecycle.state = .running g ∨ P := by
  rcases hs with hs | ⟨g', hs | hs⟩
  · exact .inl (hs.symm.trans h)
  · cases hs.symm.trans h
  · cases hs.symm.trans h

/-- A step that keeps the state and makes no guard. -/
theorem Turn.quiet (hs : StateKept w.lifecycle w'.lifecycle) (hg : ∀ o, w'.guards.count o ≤ w.guards.count o)
    (hf : ∀ f ∈ w'.flows, ∃ f' ∈ w.flows, f'.generation = f.generation) (hc : w'.completions = w.completions) : Turn w w' :=
  ⟨fun h => stopped_of_kept hs h, fun _ h => running_of_kept hs h, fun o ho => absurd ho (not_lt.2 (hg o)), fun f hf' => .inl (hf f hf'),
    .inl hc⟩

/-- A step that leaves the guards and the starts alone. -/
theorem Turn.still (hs : StateKept w.lifecycle w'.lifecycle) (hg : w'.guards = w.guards) (hf : w'.flows = w.flows)
    (hc : w'.completions = w.completions) : Turn w w' :=
  .quiet hs (fun _ => hg ▸ le_rfl) (fun f hmem => ⟨f, hf ▸ hmem, rfl⟩) hc

theorem Turn.refl (w : Scheduler) : Turn w w := .still (.inl rfl) rfl rfl rfl

theorem Turn.elim {α : Type} {o : Option α} {f : α → Scheduler} (hf : ∀ a, o = some a → Turn w (f a)) : Turn w (o.elim w f) := by
  cases ho : o with
  | none => exact .refl w
  | some a => exact hf a ho

theorem Turn.ite {P : Prop} [Decidable P] {u v : Scheduler} (hu : P → Turn w u) (hv : ¬P → Turn w v) : Turn w (if P then u else v) := by
  split
  · rename_i hP
    exact hu hP
  · rename_i hP
    exact hv hP

theorem flows_setFlow {f f' : StartFlow} (hf : w.flows[i]? = some f) (hg : f'.generation = f.generation) :
    ∀ f'' ∈ f' :: w.flows.eraseIdx i, ∃ f₀ ∈ w.flows, f₀.generation = f''.generation := by
  intro f'' hmem
  rcases List.mem_cons.1 hmem with rfl | hmem
  · exact ⟨f, List.mem_of_getElem? hf, hg.symm⟩
  · exact ⟨f'', List.mem_of_mem_eraseIdx hmem, rfl⟩

/-- A start goes on, and the lifecycle keeps its state. -/
theorem Turn.flow {f f' : StartFlow} (hf : w.flows[i]? = some f) (hg : f'.generation = f.generation)
    (hs : StateKept w.lifecycle w'.lifecycle) (hguards : w'.guards = w.guards) (hflows : w'.flows = f' :: w.flows.eraseIdx i)
    (hc : w'.completions = w.completions) : Turn w w' :=
  .quiet hs (fun _ => hguards ▸ le_rfl) (fun f'' hmem => flows_setFlow hf hg f'' (hflows ▸ hmem)) hc

/-- One guard is made, with or without a start that goes on. -/
theorem Turn.admits {o : OwnerGuard} (hs : w'.lifecycle = w.lifecycle) (hg : ∀ o', w'.guards.count o' ≤ (o :: w.guards).count o')
    (hf : ∀ f ∈ w'.flows, ∃ f' ∈ w.flows, f'.generation = f.generation) (hc : w'.completions = w.completions) (ho : Admitted w o) :
    Turn w w' := by
  have hkept : StateKept w.lifecycle w'.lifecycle := .inl (by rw [hs])
  refine ⟨fun h => stopped_of_kept hkept h, fun _ h => running_of_kept hkept h, fun o' hlt => ?_, fun f hf' => .inl (hf f hf'), .inl hc⟩
  by_cases heq : o = o'
  · exact heq ▸ ho
  · have hle := hg o'
    rw [List.count_cons_of_ne heq] at hle
    omega

/-- A generation begins. -/
theorem Turn.begins {owner : StartOwner} {n : ℕ} {l : SchedulerLifecycle} (hs : w.lifecycle.state = .stopped)
    (hn : n = w.lifecycle.nextGeneration + 1) (hl : l.state = .starting n) (hlife : w'.lifecycle = l) (hguards : w'.guards = w.guards)
    (hflows : w'.flows = w.flows) (hc : w'.completions = w.completions) : Turn w (w'.beginFlow owner n) := by
  have hkept : StateKept w.lifecycle (w'.beginFlow owner n).lifecycle := .inr ⟨n, .inr ((congrArg _ hlife).trans hl)⟩
  refine ⟨fun h => stopped_of_kept hkept h, fun _ h => running_of_kept hkept h, fun o hlt => ?_, fun f hf => ?_, .inl hc⟩
  · exact absurd (hguards ▸ hlt) (lt_irrefl _)
  · rcases List.mem_cons.1 hf with rfl | hf
    · exact .inr ⟨hs, hn⟩
    · exact .inl ⟨f, hflows ▸ hf, rfl⟩

theorem Turn.decided (w' : Scheduler) {d : ℕ} {r : StartDecision × SchedulerLifecycle} {l : SchedulerLifecycle} (hr : Decided l d r)
    (hs : l.state = w.lifecycle.state) (hn : l.nextGeneration = w.lifecycle.nextGeneration)
    (hguards : w'.guards = w.guards) (hflows : w'.flows = w.flows) (hc : w'.completions = w.completions) :
    Turn w ({ w' with lifecycle := r.2 }.applyDecision d r.1) := by
  cases hr with
  | begins hstopped => exact .begins (hs.symm.trans hstopped) (by rw [hn]) rfl rfl hguards hflows hc
  | _ => exact .still (.inl hs) hguards hflows hc

theorem turn_startExplicit (w : Scheduler) : Turn w w.startExplicit := by
  unfold Scheduler.startExplicit
  rcases requestExplicitStart_cases w.lifecycle with ⟨r, hr, heq⟩ | ⟨-, -, -, heq⟩
  · rw [heq]
    cases r with
    | desired token => exact absurd rfl (hr token)
    | alreadyRunning => exact .refl w
    | rejected => exact .refl w
  · rw [heq]
    exact Turn.decided { w with lifecycle := w.lifecycle.requested } (startDecisionFor_decided _ _) rfl rfl rfl rfl rfl

theorem turn_refreshClaim (w : Scheduler) (i d : ℕ) : Turn w (w.refreshClaim i d) :=
  Turn.decided { w with claims := w.claims.eraseIdx i } (startDecisionFor_decided w.lifecycle d) rfl rfl rfl rfl rfl

theorem turn_recoveryStart (w : Scheduler) (i : ℕ) (t : RecoveryTicket) : Turn w (w.recoveryStart i t) := by
  have hdecided := recoveryStartDecision_decided w.lifecycle t
  unfold Scheduler.recoveryStart
  generalize w.lifecycle.recoveryStartDecision t = r at hdecided ⊢
  cases hdecided with
  | denied => exact .still (.inl rfl) rfl rfl rfl
  | exhausted => exact .still (.inl rfl) rfl rfl rfl
  | begins hs => exact .begins hs rfl rfl rfl rfl rfl rfl

theorem kept_cleanupBegun {l : SchedulerLifecycle} {cause : CleanupCause} {r : CleanupRequest × SchedulerLifecycle}
    (h : CleanupBegun l g cause r) : StateKept l r.2 := by
  cases h with
  | inactive => exact .inl rfl
  | wait => exact .inl rfl
  | stops => exact .inr ⟨g, .inl rfl⟩
  | fails => exact .inr ⟨g, .inl rfl⟩

theorem kept_stopped {l : SchedulerLifecycle} {r : CleanupRequest × SchedulerLifecycle} (h : Stopped l r) : StateKept l r.2 := by
  cases h with
  | inactive => exact .inl rfl
  | wait => exact .inl rfl
  | stops g => exact .inr ⟨g, .inl rfl⟩

/-- A cleanup is launched: its launcher or its worker is all that is new. -/
theorem Turn.launchCleanup (h : Turn w w') (request : CleanupRequest) : Turn w (w'.launchCleanup request) := by
  obtain ⟨launchers, slots, workers, heq⟩ := w'.launchCleanup_eq request
  rw [heq]
  exact ⟨h.stopped, h.running, h.guards, h.flows, h.completions⟩

theorem turn_requestCleanup (w : Scheduler) (g : ℕ) (cause : CleanupCause) : Turn w (w.requestCleanup g cause) := by
  have hstill : Turn w { w with lifecycle := (w.lifecycle.beginCleanupWithCause g cause).2 } := by
    refine .still ?_ rfl rfl rfl
    exact kept_cleanupBegun (beginCleanupWithCause_begun w.lifecycle g cause)
  exact hstill.launchCleanup _

/-- A start or a step publishes its generation, with its control not cancelled. -/
theorem Turn.published (h : GenInv w) (hp : Published w.lifecycle w.cancelled g w'.lifecycle) (hguards : w'.guards = w.guards)
    (hflows : ∀ f ∈ w'.flows, ∃ f' ∈ w.flows, f'.generation = f.generation) (hc : w'.completions = w.completions) : Turn w w' := by
  generalize hlife : w'.lifecycle = l at hp
  obtain ⟨l', hs, -, hall, control, hcontrol, hn⟩ := hp
  obtain rfl := Option.some.inj (hcontrol.symm.trans (h.control g (.inl hs)).1)
  refine ⟨fun h' => ?_, fun g' h' => ?_, fun o hlt => absurd (hguards ▸ hlt) (lt_irrefl _), fun f hf => .inl (hflows f hf), .inl hc⟩
  · rw [hlife] at h'
    cases h'
  · rw [hlife] at h'
    obtain rfl := LifecycleState.running.inj h'
    refine .inr ⟨hs, ?_, hn⟩
    rw [hlife]
    exact hall

section Flows

variable {f : StartFlow}

theorem turn_flowCheck (hf : w.flows[i]? = some f) : Turn w (w.flowCheck i f) := by
  unfold Scheduler.flowCheck
  refine .ite (fun _ => .refl w) fun _ => .ite (fun _ => ?_) fun _ => ?_
  · exact .flow hf (by rfl) (.inl rfl) rfl rfl rfl
  · exact .flow hf (by rfl) (.inl rfl) rfl rfl rfl

/-- A start makes a guard of its own generation. -/
theorem turn_flowGuard (h : GenInv w) (hf : w.flows[i]? = some f) {f' : StartFlow} (hg : f'.generation = f.generation) {kind : OwnerKind}
    (hk : kind ≠ .taskRun ∧ kind ≠ .activity) (hs : w'.lifecycle = w.lifecycle) (hguards : w'.guards = ⟨kind, f.generation⟩ :: w.guards)
    (hflows : w'.flows = f' :: w.flows.eraseIdx i) (hc : w'.completions = w.completions) : Turn w w' := by
  have hmem := List.mem_of_getElem? hf
  refine .admits (o := ⟨kind, f.generation⟩) hs (fun o => (congrArg (List.count o) hguards).le)
    (fun f'' hmem => flows_setFlow hf hg f'' (hflows ▸ hmem)) hc ⟨h.flows f hmem, ?_, ?_, ?_⟩
  · rintro (hkind | hkind)
    · exact absurd hkind hk.1
    · exact absurd hkind hk.2
  · exact fun _ => ⟨f, hmem, rfl⟩
  · exact fun _ => .inl ⟨f, hmem, rfl⟩

theorem turn_flowSpawn (h : GenInv w) (hf : w.flows[i]? = some f) : Turn w (w.flowSpawn i f) := by
  unfold Scheduler.flowSpawn
  refine .ite (fun _ => .refl w) fun _ => ?_
  exact turn_flowGuard h hf (by rfl) (by decide) rfl rfl rfl rfl

theorem turn_flowRegister (hf : w.flows[i]? = some f) (tasks : List TaskId) : Turn w (w.flowRegister i f tasks) := by
  unfold Scheduler.flowRegister
  refine .ite (fun _ => .refl w) fun _ => ?_
  obtain ⟨registered, loops, heq⟩ := registerRequiredLoops_cases w.lifecycle f.generation tasks
  rw [heq]
  exact .flow hf (by rfl) (.inl rfl) rfl rfl rfl

theorem turn_flowWrap (h : GenInv w) (hf : w.flows[i]? = some f) : Turn w (w.flowWrap i f) := by
  unfold Scheduler.flowWrap
  refine .ite (fun _ => .refl w) fun _ => ?_
  exact turn_flowGuard h hf (by rfl) (by decide) rfl rfl rfl rfl

theorem turn_flowInstall (hf : w.flows[i]? = some f) : Turn w (w.flowInstall i f) := by
  unfold Scheduler.flowInstall
  refine .ite (fun _ => .refl w) fun _ => .ite (fun _ => ?_) fun _ => ?_
  · exact .flow hf (by rfl) (.inl rfl) rfl rfl rfl
  · exact .flow hf (by rfl) (.inl rfl) rfl rfl rfl

theorem turn_flowFinishStart (h : GenInv w) (hf : w.flows[i]? = some f) : Turn w (w.flowFinishStart i f) := by
  unfold Scheduler.flowFinishStart
  refine .ite (fun _ => .refl w) fun _ => ?_
  rcases finishStart_cases w.lifecycle w.cancelled f.generation with heq | ⟨l, hp, heq⟩
  · rw [heq]
    exact .flow hf (by rfl) (.inl rfl) rfl rfl rfl
  · rw [heq]
    exact .published h hp rfl (flows_setFlow hf rfl) rfl

theorem turn_flowCommit (hf : w.flows[i]? = some f) : Turn w (w.flowCommit i f) := by
  unfold Scheduler.flowCommit
  refine .ite (fun _ => ?_) fun _ => .refl w
  refine .flow hf (by rfl) (.inl ?_) rfl rfl rfl
  show (w.lifecycle.markStartCommitted f.generation).state = w.lifecycle.state
  unfold markStartCommitted
  split <;> rfl

theorem turn_flowFail (hf : w.flows[i]? = some f) : Turn w (w.flowFail i f) := by
  unfold Scheduler.flowFail
  refine .ite (fun _ => .refl w) fun _ => ?_
  exact .flow hf (by rfl) (.inl rfl) rfl rfl rfl

theorem turn_flowDefer (h : GenInv w) (hf : w.flows[i]? = some f) : Turn w (w.flowDefer i f) := by
  unfold Scheduler.flowDefer
  refine .ite (fun _ => .refl w) fun _ => .ite (fun _ => ?_) fun _ => .ite (fun _ => ?_) fun _ => .refl w
  · exact turn_flowGuard h hf (by rfl) (by decide) rfl rfl rfl rfl
  · exact turn_flowGuard h hf (by rfl) (by decide) rfl rfl rfl rfl

theorem turn_flowCleanup (hf : w.flows[i]? = some f) : Turn w (w.flowCleanup i f) := by
  unfold Scheduler.flowCleanup
  refine .ite (fun _ => .refl w) fun _ => ?_
  set r := w.lifecycle.beginCleanupWithCause f.generation .startAborted with hr
  have hflow : Turn w { w.setFlow i { f with phase := .releasing } with lifecycle := r.2 } := by
    refine .flow hf (by rfl) ?_ rfl rfl rfl
    exact kept_cleanupBegun (beginCleanupWithCause_begun w.lifecycle _ _)
  exact hflow.launchCleanup r.1

theorem turn_flowRelease (w : Scheduler) (i : ℕ) (f : StartFlow) : Turn w (w.flowRelease i f) := by
  unfold Scheduler.flowRelease
  refine .ite (fun _ => .refl w) fun _ => ?_
  exact .quiet (.inl rfl) (fun _ => le_rfl) (fun f' hf' => ⟨f', List.mem_of_mem_eraseIdx hf', rfl⟩) rfl

end Flows

theorem turn_loopReady (w : Scheduler) (g : ℕ) (task : TaskId) : Turn w (w.loopReady g task) := by
  unfold Scheduler.loopReady
  obtain ⟨ready, loops, heq⟩ := markRequiredLoopReady_cases w.lifecycle g task
  rw [heq]
  exact .still (.inl rfl) rfl rfl rfl

theorem turn_loopApprove (h : GenInv w) (g : ℕ) (task : TaskId) : Turn w (w.loopApprove g task) := by
  unfold Scheduler.loopApprove
  rcases approveRequiredLoop_cases w.lifecycle w.cancelled g task with ⟨outcome, loops, -, heq⟩ | ⟨l, hp, heq⟩
  · rw [heq]
    exact .still (.inl rfl) rfl rfl rfl
  · rw [heq]
    exact .published h hp rfl (fun f hf => ⟨f, hf, rfl⟩) rfl

theorem turn_deferHandle (h : GenInv w) (ho : ⟨.handle, g⟩ ∈ w.guards) : Turn w (w.deferHandle g) := by
  refine .admits (o := ⟨.deferred, g⟩) rfl (fun o => ?_) (fun f hf => ⟨f, hf, rfl⟩) rfl ⟨h.guards ⟨.handle, g⟩ ho, by simp, by simp, fun _ => .inr ho⟩
  exact (List.Sublist.cons_cons _ List.erase_sublist).count_le o

theorem turn_claimRun (h : GenInv w) (g : ℕ) (task : TaskId) : Turn w (w.claimRun g task) := by
  unfold Scheduler.claimRun
  refine .ite (fun _ => .refl w) fun hfree => ?_
  rw [not_or, not_or, not_or] at hfree
  obtain ⟨hpos, hle, hopen, -⟩ := hfree
  refine .admits (o := ⟨.taskRun, g⟩) rfl (fun o => le_rfl) (fun f hf => ⟨f, hf, rfl⟩) rfl ⟨?_, fun _ hjob => ?_, by simp, by simp⟩
  · by_contra hne
    exact hopen (h.closed g (Nat.pos_of_ne_zero hpos) (not_lt.1 hle) hne task)
  · exact hopen ((h.retired_of_job hjob).closed task)

theorem turn_activity (h : GenInv w) (hl : w.lifecycle.Live g) : Turn w (w.addGuard ⟨.activity, g⟩) := by
  refine .admits (o := ⟨.activity, g⟩) rfl (fun o => le_rfl) (fun f hf => ⟨f, hf, rfl⟩) rfl
    ⟨activeGeneration_of_live hl, fun _ hjob => ?_, by simp, by simp⟩
  exact (h.retired_of_job hjob).down hl

theorem turn_claimActivity (h : GenInv w) : Turn w w.claimActivity := by
  unfold Scheduler.claimActivity
  split
  · rename_i g' g hs hc
    obtain rfl := Option.some.inj (hc.symm.trans (h.control g' (.inl hs)).1)
    exact turn_activity h (.inl hs)
  · rename_i g' g hs hc
    obtain rfl := Option.some.inj (hc.symm.trans (h.control g' (.inr hs)).1)
    exact turn_activity h (.inr hs)
  · exact .refl w

theorem turn_reserveWorker (w : Scheduler) (g : ℕ) : Turn w (w.reserveWorker g) := by
  obtain ⟨slots, workers, heq⟩ := w.reserveWorker_eq g
  rw [heq]
  exact .still (.inl rfl) rfl rfl rfl

theorem turn_launchStep (w : Scheduler) (i : ℕ) (launcher : CleanupLauncher) : Turn w (w.launchStep i launcher) := by
  unfold Scheduler.launchStep
  dsimp only
  split
  · exact .still (.inl rfl) rfl rfl rfl
  · exact .still (.inl rfl) rfl rfl rfl
  · exact .still (.inl rfl) rfl rfl rfl
  · refine .still (.inl ?_) rfl rfl rfl
    dsimp only
    split <;> rfl
  · have hturn := turn_reserveWorker (w.setLauncher i { launcher with stage := .launchRecovery }) launcher.generation
    exact ⟨hturn.stopped, hturn.running, fun o ho => ⟨(hturn.guards o ho).active, (hturn.guards o ho).work, (hturn.guards o ho).started,
      (hturn.guards o ho).batch⟩, hturn.flows, hturn.completions⟩
  · exact .still (.inl rfl) rfl rfl rfl

theorem turn_workerBegin (w : Scheduler) (i : ℕ) (worker : CleanupWorker) : Turn w (w.workerBegin i worker) := by
  unfold Scheduler.workerBegin
  refine .ite (fun _ => .refl w) fun _ => .ite (fun _ => ?_) fun _ => ?_
  · exact .still (.inl rfl) rfl rfl rfl
  · exact .still (.inl rfl) rfl rfl rfl

theorem turn_workerClaim (w : Scheduler) (i : ℕ) (worker : CleanupWorker) : Turn w (w.workerClaim i worker) := by
  unfold Scheduler.workerClaim
  refine .ite (fun _ => .refl w) fun _ => .ite (fun _ => ?_) fun _ => ?_
  · exact .still (.inl rfl) rfl rfl rfl
  · exact .still (.inl rfl) rfl rfl rfl

theorem turn_workerTake (w : Scheduler) (i : ℕ) (worker : CleanupWorker) : Turn w (w.workerTake i worker) := by
  unfold Scheduler.workerTake
  refine .ite (fun _ => .refl w) fun _ => ?_
  exact .still (.inl rfl) rfl rfl rfl

theorem turn_workerPop (w : Scheduler) (i : ℕ) (worker : CleanupWorker) : Turn w (w.workerPop i worker) := by
  unfold Scheduler.workerPop
  refine .ite (fun _ => .refl w) fun _ => ?_
  exact .quiet (.inl rfl) (fun o => List.erase_sublist.count_le o) (fun f hf => ⟨f, hf, rfl⟩) rfl

theorem turn_workerDrained (w : Scheduler) (i : ℕ) (worker : CleanupWorker) : Turn w (w.workerDrained i worker) := by
  unfold Scheduler.workerDrained
  refine .ite (fun _ => .refl w) fun _ => ?_
  exact .still (.inl rfl) rfl rfl rfl

theorem turn_workerAbort (w : Scheduler) (i : ℕ) (worker : CleanupWorker) : Turn w (w.workerAbort i worker) := by
  unfold Scheduler.workerAbort
  dsimp only
  split
  · exact .still (.inl rfl) rfl rfl rfl
  · exact .still (.inl rfl) rfl rfl rfl
  · exact .refl w

/-- Without owners there is no deferred handle either: each has a guard. -/
theorem GenInv.drained (h : GenInv w) (hg : w.ownersOf g = 0) : Drained w g := by
  refine ⟨(h.owners g).trans hg, ?_⟩
  have hnone : w.guards.count ⟨.deferred, g⟩ = 0 := by
    refine List.count_eq_zero_of_not_mem fun hmem => ?_
    exact ownersOf_of_guard hmem hg
  have hdeferred := h.deferred g
  omega

theorem turn_workerComplete (h : GenInv w) {worker : CleanupWorker} (hw : w.workers[i]? = some worker) :
    Turn w (w.workerComplete i worker) := by
  unfold Scheduler.workerComplete
  refine .ite (fun _ => .refl w) fun hp => ?_
  rw [not_not] at hp
  by_cases hj : w.lifecycle.cleanupJob = some worker.generation
  · have hs := (h.job _ hj).1
    rw [if_pos hj, finishCleanup_completed hs]
    have hdrained := h.drained ((h.workers worker (List.mem_of_getElem? hw)).drained hp)
    refine ⟨fun _ => .inr ⟨worker.generation, hs, hdrained, rfl⟩, nofun, fun o hlt => absurd hlt (lt_irrefl _),
      fun f hf => .inl ⟨f, hf, rfl⟩, .inr ⟨?_, rfl⟩⟩
    rw [hs]
    nofun
  · rw [if_neg hj]
    exact .still (.inl rfl) rfl rfl (List.append_nil _)

theorem turn_launchRecovery (w : Scheduler) (i : ℕ) (t : RecoveryTicket) (outcome : LaunchOutcome) :
    Turn w (w.launchRecovery i t outcome) := by
  unfold Scheduler.launchRecovery
  cases outcome with
  | spawned => exact .ite (fun _ => .still (.inl rfl) rfl rfl rfl) fun _ => .still (.inl rfl) rfl rfl rfl
  | failed => exact .still (.inl rfl) rfl rfl rfl
  | noRuntime => exact .still (.inl rfl) rfl rfl rfl

theorem kept_claimDropped {l : SchedulerLifecycle} {d : ℕ} {r : Option RecoveryTicket × SchedulerLifecycle} (h : ClaimDropped l d r) :
    r.2.state = l.state := by
  cases h with
  | stale => rfl
  | reserves _ r hr => cases hr <;> rfl

theorem kept_reconciled {l : SchedulerLifecycle} {t : RecoveryTicket} {r : Option RecoveryTicket × SchedulerLifecycle}
    (h : Reconciled l t r) : r.2.state = l.state := by
  cases h <;> rfl

theorem GenInv.turn (h : GenInv w) (a : SchedAct) : Turn w (w.step a) := by
  cases a with
  -- the start of a generation, from the claim to the commit:
  | startExplicit => exact turn_startExplicit w
  | refreshClaim i => exact .elim fun d _ => turn_refreshClaim w i d
  | dropClaim i => exact .elim fun d _ => .still (.inl (kept_claimDropped (dropStartClaim_dropped w.lifecycle d))) rfl rfl rfl
  | flowCheck i => exact .elim fun _ hf => turn_flowCheck hf
  | flowSpawn i => exact .elim fun _ hf => turn_flowSpawn h hf
  | flowRegister i tasks => exact .elim fun _ hf => turn_flowRegister hf tasks
  | flowWrap i => exact .elim fun _ hf => turn_flowWrap h hf
  | flowInstall i => exact .elim fun _ hf => turn_flowInstall hf
  | flowFinishStart i => exact .elim fun _ hf => turn_flowFinishStart h hf
  | flowCommit i => exact .elim fun _ hf => turn_flowCommit hf
  | flowFail i => exact .elim fun _ hf => turn_flowFail hf
  | flowDefer i => exact .elim fun _ hf => turn_flowDefer h hf
  | flowCleanup i => exact .elim fun _ hf => turn_flowCleanup hf
  | flowRelease i => exact .elim fun f _ => turn_flowRelease w i f
  -- the loops and the runs:
  | loopReady g task => exact turn_loopReady w g task
  | loopApprove g task => exact turn_loopApprove h g task
  | loopFailed g => exact turn_requestCleanup w g .unexpectedRequiredLoop
  | ownerEnds o =>
    refine .ite (fun _ => ?_) fun _ => .refl w
    exact .quiet (.inl rfl) (fun o' => List.erase_sublist.count_le o') (fun f hf => ⟨f, hf, rfl⟩) rfl
  | deferHandle g => exact .ite (fun ho => turn_deferHandle h ho) fun _ => .refl w
  | claimRun g task => exact turn_claimRun h g task
  | claimActivity => exact turn_claimActivity h
  -- a stop, and the cleanup that follows it:
  | stop =>
    have hstill : Turn w { w with lifecycle := w.lifecycle.beginExplicitStop.2 } :=
      .still (kept_stopped (beginExplicitStop_stopped w.lifecycle)) rfl rfl rfl
    exact hstill.launchCleanup _
  | shutdown =>
    have hkept := kept_stopped (beginExplicitStop_stopped { w.lifecycle with terminal := true })
    have hstill : Turn w { w with lifecycle := w.lifecycle.beginTerminalShutdown.2 } := .still hkept rfl rfl rfl
    exact hstill.launchCleanup _
  | launchStep i => exact .elim fun launcher _ => turn_launchStep w i launcher
  | reserveWorker g => exact turn_reserveWorker w g
  | workerBegin i => exact .elim fun worker _ => turn_workerBegin w i worker
  | workerClaim i => exact .elim fun worker _ => turn_workerClaim w i worker
  | workerTake i => exact .elim fun worker _ => turn_workerTake w i worker
  | workerPop i => exact .elim fun worker _ => turn_workerPop w i worker
  | workerDrained i => exact .elim fun worker _ => turn_workerDrained w i worker
  | workerComplete i => exact .elim fun _ hw => turn_workerComplete h hw
  | workerAbort i => exact .elim fun worker _ => turn_workerAbort w i worker
  -- the recovery of a failed generation:
  | launchRecovery i outcome => exact .elim fun t _ => turn_launchRecovery w i t outcome
  | recoveryStart i => exact .elim fun t _ => turn_recoveryStart w i t
  | recoveryEnd i => exact .elim fun _ _ => .still (.inl rfl) rfl rfl rfl
  | reconcile i => exact .elim fun t _ => .still (.inl (kept_reconciled (reconcile_reconciled w.lifecycle t))) rfl rfl rfl

/-! ## Every run -/

theorem GenInv.active_of_owned (h : GenInv w) (hg : w.ownersOf g ≠ 0) : w.lifecycle.activeGeneration = some g := by
  by_contra hne
  apply hg
  unfold ownersOf
  have hguards : w.guards.countP (·.generation = g) = 0 := by
    refine List.countP_eq_zero.2 fun o ho heq => hne ?_
    rw [h.guards o ho, of_decide_eq_true heq]
  have hflows : w.flows.countP (·.generation = g) = 0 := by
    refine List.countP_eq_zero.2 fun f hf heq => hne ?_
    rw [h.flows f hf, of_decide_eq_true heq]
  omega

theorem GenInv.mem_completions (h : GenInv w) :
    g ∈ w.completions ↔ g ∈ w.begins.map Prod.snd ∧ w.lifecycle.activeGeneration ≠ some g := by
  rw [h.completed.2 g, h.begins, List.mem_range'_1]
  constructor
  · rintro ⟨hpos, hle, hne⟩
    exact ⟨by omega, hne⟩
  · rintro ⟨hrange, hne⟩
    exact ⟨by omega, by omega, hne⟩

/-- A generation that is complete stays complete. -/
theorem Turn.completed (h : Turn w w') (hg : g ∈ w.completions) : g ∈ w'.completions := by
  rcases h.completions with hc | ⟨hne, hs⟩
  · exact hc ▸ hg
  · obtain hs | ⟨g', -, -, hc⟩ := h.stopped hs
    · exact absurd hs hne
    · rw [hc]
      exact List.mem_append_left _ hg

/-- Two generations do not overlap in `w`, nor in the step from `w` to `w'`. -/
structure NeverOverlap (w w' : Scheduler) : Prop where
  /-- generations that begin are new ones -/
  begins : (w.begins.map Prod.snd).Pairwise (· < ·)
  /-- the lifecycle stops for a generation whose control has drained, and that is what completes it -/
  stopped : w'.lifecycle.state = .stopped → w.lifecycle.state ≠ .stopped →
    ∃ g, w.lifecycle.state = .stopping g ∧ Drained w g ∧ w'.completions = w.completions ++ [g]
  /-- the owners there are, starts included, are of one generation -/
  owned : ∀ g g', w.ownersOf g ≠ 0 → w.ownersOf g' ≠ 0 → g = g'
  owners : ∀ g, (w.controls g).activeOwners = w.ownersOf g
  admitted : ∀ o, w.guards.count o < w'.guards.count o → Admitted w o
  /-- a start begins with a new generation, when the lifecycle has stopped -/
  flows : ∀ f ∈ w'.flows, (∃ f' ∈ w.flows, f'.generation = f.generation) ∨
    (w.lifecycle.state = .stopped ∧ f.generation = w.lifecycle.nextGeneration + 1)
  released : ∀ g ∈ w.completions, w'.ownersOf g = 0
  /-- what is published as running -/
  running : ∀ g, w'.lifecycle.state = .running g → w.lifecycle.state ≠ .running g →
    w'.lifecycle.AllApproved ∧ w.cancelled g = false
  /-- every generation that has begun and is not active is complete, once -/
  once : w.completions.Nodup
  completed : ∀ g, g ∈ w.completions ↔ g ∈ w.begins.map Prod.snd ∧ w.lifecycle.activeGeneration ≠ some g
  /-- a cleanup job is not lost until then -/
  job : ∀ g, w.lifecycle.cleanupJob = some g → w.lifecycle.state = .stopping g ∧ ((w.slots g).job = true ∨ Held w.workers g)

/-- **Generations never overlap**, in every run and in every step after it. -/
theorem generations_never_overlap (as : List SchedAct) (a : SchedAct) :
    NeverOverlap (Steps.run step init as) ((Steps.run step init as).step a) := by
  generalize hw : Steps.run step init as = w
  have h : GenInv w := hw ▸ run_genInv as
  have hturn : Turn w (w.step a) := h.turn a
  have h' : GenInv (w.step a) := h.step a
  constructor
  case begins =>
    rw [h.begins]
    exact List.pairwise_lt_range'
  case stopped => exact fun hs hne => (hturn.stopped hs).resolve_left hne
  case owned => exact fun g g' hg hg' => Option.some.inj ((h.active_of_owned hg).symm.trans (h.active_of_owned hg'))
  case owners => exact h.owners
  case admitted => exact hturn.guards
  case flows => exact hturn.flows
  case released =>
    intro g hg
    by_contra howned
    exact (h'.mem_completions.1 (hturn.completed hg)).2 (h'.active_of_owned howned)
  case running =>
    intro g hs hne
    obtain hs' | ⟨-, hall, hn⟩ := hturn.running g hs
    · exact absurd hs' hne
    · exact ⟨hall, hn⟩
  case once => exact h.completed.1
  case completed => exact fun g => h.mem_completions
  case job => exact h.job

/-- A stop that comes between the check of a start and its loops: a loop of the generation
starts with its cleanup job launched already. -/
theorem loop_starts_after_launch :
    let w := Steps.run step init ([.startExplicit, .flowCheck 0, .stop] ++ List.replicate 13 (.launchStep 0))
    w.lifecycle.cleanupJob = some 1 ∧ (∃ worker ∈ w.workers, worker.generation = 1) ∧
      w.guards.count ⟨.requiredLoop, 1⟩ < (w.step (.flowSpawn 0)).guards.count ⟨.requiredLoop, 1⟩ := by
  decide

end Scheduler

end EasiFlux
