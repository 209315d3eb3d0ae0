import EasiFlux.Proof.Lifecycle
import EasiFlux.Proof.TaskRuns

/-!
# The owners of a generation

`GenInv`: a control counts the guards there are of its generation, every guard is of the
generation the lifecycle is in, and a generation whose cleanup has drained has no guard and
can get none. Here it is kept by what makes, drops and moves guards, by starts that begin
and by what does not touch the generation; `Proof.Generations` has the cleanups.
-/

namespace EasiFlux

/-- The launcher has yet to install the slot of the cleanup. -/
def CleanupLauncher.preInstall (launcher : CleanupLauncher) : Bool :=
  match launcher.stage with
  | .cancelControl => true
  | .cancelRuns _ => true
  | .installSlot => true
  | .launchJob => false
  | .launchRecovery => false

namespace Scheduler

open SchedulerLifecycle

variable {w w' : Scheduler} {i g : ℕ}

/-! ## The invariant -/

/-- The guards of a generation, those of its starts included. -/
def ownersOf (w : Scheduler) (g : ℕ) : ℕ := w.guards.countP (·.generation = g) + w.flows.countP (·.generation = g)

/-- The batches of a generation that cleanup workers hold. -/
def batchesOf (workers : List CleanupWorker) (g : ℕ) : ℕ :=
  (workers.map fun worker => if worker.generation = g then worker.batches else 0).sum

/-- A worker has the cleanup job of a generation. -/
def Held (workers : List CleanupWorker) (g : ℕ) : Prop :=
  ∃ worker ∈ workers, worker.generation = g ∧ (worker.phase = .leased ∨ worker.phase = .drained)

/-- The runs of a generation are closed. -/
def RunsClosed (w : Scheduler) (g : ℕ) : Prop := ∀ task, (g, task) ∈ w.closedRuns

/-- A generation that has begun, is not up any more and whose runs are closed. -/
structure Retired (w : Scheduler) (g : ℕ) : Prop where
  begun : 0 < g ∧ g ≤ w.lifecycle.nextGeneration
  down : ¬w.lifecycle.Live g
  closed : w.RunsClosed g

structure LauncherOk (w : Scheduler) (launcher : CleanupLauncher) : Prop where
  begun : 0 < launcher.generation ∧ launcher.generation ≤ w.lifecycle.nextGeneration
  stopping : launcher.preInstall = true → w.lifecycle.state = .stopping launcher.generation
  runs : match launcher.stage with
    | .cancelControl => True
    | .cancelRuns tasks => w.cancelled launcher.generation = true ∧ ∀ task, task ∈ tasks ∨ (launcher.generation, task) ∈ w.closedRuns
    | _ => Retired w launcher.generation

structure WorkerOk (w : Scheduler) (worker : CleanupWorker) : Prop where
  retired : Retired w worker.generation
  drained : worker.phase = .drained → w.ownersOf worker.generation = 0
  batches : worker.phase ≠ .leased → worker.batches = 0

/-- A generation is stopping, and nobody has installed its cleanup yet. -/
def Uninstalled (l : SchedulerLifecycle) : Prop := (∃ g, l.state = .stopping g) ∧ l.cleanupJob = none

structure GenInv (w : Scheduler) : Prop where
  owners : ∀ g, (w.controls g).activeOwners = w.ownersOf g
  guards : ∀ o ∈ w.guards, w.lifecycle.activeGeneration = some o.generation
  flows : ∀ f ∈ w.flows, w.lifecycle.activeGeneration = some f.generation
  active : ∀ g, w.lifecycle.activeGeneration = some g → g = w.lifecycle.nextGeneration ∧ 0 < g
  control : ∀ g, w.lifecycle.Live g → w.lifecycle.control = some g ∧ w.cancelled g = false
  closed : ∀ g, 0 < g → g ≤ w.lifecycle.nextGeneration → w.lifecycle.activeGeneration ≠ some g → w.RunsClosed g
  deferred : ∀ g, w.guards.count ⟨.deferred, g⟩ = (w.controls g).deferredHandles + batchesOf w.workers g
  launchers : ∀ launcher ∈ w.launchers, LauncherOk w launcher
  /-- a cleanup that is not installed has its launcher, and that alone -/
  uninstalled : (Uninstalled w.lifecycle → w.launchers.countP CleanupLauncher.preInstall = 1) ∧
    (¬Uninstalled w.lifecycle → w.launchers.countP CleanupLauncher.preInstall = 0)
  /-- the job of an installed cleanup is in its slot or with a worker -/
  job : ∀ g, w.lifecycle.cleanupJob = some g → w.lifecycle.state = .stopping g ∧
    ((w.slots g).job = true ∨ Held w.workers g)
  slots : ∀ g, (w.slots g).job = true → Retired w g
  workers : ∀ worker ∈ w.workers, WorkerOk w worker
  begins : w.begins.map Prod.snd = List.range' 1 w.lifecycle.nextGeneration
  completed : w.completions.Nodup ∧
    ∀ g, g ∈ w.completions ↔ 0 < g ∧ g ≤ w.lifecycle.nextGeneration ∧ w.lifecycle.activeGeneration ≠ some g

theorem genInv_init : GenInv init := by
  constructor <;> simp [init, SchedulerLifecycle.new, ownersOf, batchesOf, GenerationControl.new, Live, activeGeneration, Uninstalled]
  all_goals omega

/-- The runs that are closed stay closed, and a generation that is down stays down. -/
structure Onward (w w' : Scheduler) (g : ℕ) : Prop where
  generation : w.lifecycle.nextGeneration ≤ w'.lifecycle.nextGeneration
  live : w'.lifecycle.Live g → w.lifecycle.Live g
  runs : ∀ r ∈ w.closedRuns, r ∈ w'.closedRuns

theorem Onward.same (hl : w'.lifecycle = w.lifecycle) (hr : w'.closedRuns = w.closedRuns) : Onward w w' g :=
  ⟨hl ▸ le_rfl, fun h => hl ▸ h, fun _ h => hr ▸ h⟩

theorem Retired.onward (h : Retired w g) (ho : Onward w w' g) : Retired w' g :=
  ⟨⟨h.begun.1, h.begun.2.trans ho.generation⟩, fun hl => h.down (ho.live hl), fun task => ho.runs _ (h.closed task)⟩

theorem LauncherOk.onward {launcher : CleanupLauncher} (h : LauncherOk w launcher) (ho : Onward w w' launcher.generation)
    (hs : launcher.preInstall = true → w.lifecycle.state = .stopping launcher.generation →
      w'.lifecycle.state = .stopping launcher.generation)
    (hc : w.cancelled launcher.generation = true → w'.cancelled launcher.generation = true) : LauncherOk w' launcher := by
  obtain ⟨hbegun, hstopping, hruns⟩ := h
  refine ⟨⟨hbegun.1, hbegun.2.trans ho.generation⟩, fun hp => hs hp (hstopping hp), ?_⟩
  cases hstage : launcher.stage with
  | cancelControl => trivial
  | cancelRuns tasks =>
    simp only [hstage] at hruns
    exact ⟨hc hruns.1, fun task => (hruns.2 task).imp_right (ho.runs _)⟩
  | _ =>
    simp only [hstage] at hruns
    exact hruns.onward ho

/-- The tickets and claims are not read. -/
theorem GenInv.tickets (h : GenInv w) {claims : List ℕ} {launching recoveries abandoned : List RecoveryTicket} :
    GenInv { w with claims := claims, launching := launching, recoveries := recoveries, abandoned := abandoned } :=
  { h with
    launchers := fun launcher hl => (h.launchers launcher hl).onward (.same rfl rfl) (fun _ hs => hs) fun hc => hc
    slots := fun g hj => (h.slots g hj).onward (.same rfl rfl)
    workers := fun worker hw =>
      ⟨(h.workers worker hw).retired.onward (.same rfl rfl), (h.workers worker hw).drained, (h.workers worker hw).batches⟩ }

theorem GenInv.elim {α : Type} {o : Option α} {f : α → Scheduler} (h : GenInv w) (hf : ∀ a, o = some a → GenInv (f a)) :
    GenInv (o.elim w f) := by
  cases ho : o with
  | none => exact h
  | some a => exact hf a ho

theorem GenInv.ite {P : Prop} [Decidable P] {u v : Scheduler} (hu : P → GenInv u) (hv : ¬P → GenInv v) : GenInv (if P then u else v) := by
  split
  · rename_i hP
    exact hu hP
  · rename_i hP
    exact hv hP

/-! ## Steps that leave the generation alone -/

theorem activeGeneration_iff {l : SchedulerLifecycle} : l.activeGeneration = some g ↔ l.Live g ∨ l.state = .stopping g := by
  unfold activeGeneration Live
  cases l.state <;> simp

/-- What the invariant reads of the lifecycle is the same. -/
structure SameCore (l l' : SchedulerLifecycle) : Prop where
  live : ∀ g, l'.Live g ↔ l.Live g
  stopping : ∀ g, l'.state = .stopping g ↔ l.state = .stopping g
  generation : l'.nextGeneration = l.nextGeneration
  control : l'.control = l.control
  job : l'.cleanupJob = l.cleanupJob

theorem SameCore.of_state {l l' : SchedulerLifecycle} (hs : l'.state = l.state) (hn : l'.nextGeneration = l.nextGeneration)
    (hc : l'.control = l.control) (hj : l'.cleanupJob = l.cleanupJob) : SameCore l l' :=
  ⟨fun g => by unfold Live; rw [hs], fun g => by rw [hs], hn, hc, hj⟩

theorem SameCore.refl (l : SchedulerLifecycle) : SameCore l l := .of_state rfl rfl rfl rfl

theorem SameCore.active {l l' : SchedulerLifecycle} (h : SameCore l l') : l'.activeGeneration = l.activeGeneration := by
  refine Option.ext fun g => ?_
  rw [activeGeneration_iff, activeGeneration_iff, h.live, h.stopping]

theorem SameCore.uninstalled {l l' : SchedulerLifecycle} (h : SameCore l l') : Uninstalled l' ↔ Uninstalled l := by
  unfold Uninstalled
  rw [h.job, exists_congr h.stopping]

theorem SameCore.reserved {l : SchedulerLifecycle} {r : Option RecoveryTicket × SchedulerLifecycle} (h : Reserved l g r) :
    SameCore l r.2 := by
  cases h <;> exact .of_state rfl rfl rfl rfl

theorem SameCore.reconciled {l : SchedulerLifecycle} {t : RecoveryTicket} {r : Option RecoveryTicket × SchedulerLifecycle}
    (h : Reconciled l t r) : SameCore l r.2 := by
  cases h <;> exact .of_state rfl rfl rfl rfl

theorem SameCore.claimDropped {l : SchedulerLifecycle} {d : ℕ} {r : Option RecoveryTicket × SchedulerLifecycle}
    (h : ClaimDropped l d r) : SameCore l r.2 := by
  cases h with
  | stale => exact .refl l
  | reserves _ r hr => exact .reserved hr

theorem SameCore.committed (l : SchedulerLifecycle) (g : ℕ) : SameCore l (l.markStartCommitted g) := by
  unfold markStartCommitted
  split <;> exact .of_state rfl rfl rfl rfl

/-- A generation that is published was up already. -/
theorem SameCore.published {l l' : SchedulerLifecycle} {cancelled : ℕ → Bool} (h : Published l cancelled g l') : SameCore l l' := by
  obtain ⟨l', hs, hl, -, -, -, -⟩ := h
  refine ⟨fun g' => ?_, fun g' => ?_, ?_, ?_, ?_⟩
  · unfold Live
    rw [hs]
    simp
  · rw [hs]
    exact ⟨nofun, nofun⟩
  all_goals
    rw [hl]

theorem GenInv.lifecycle (h : GenInv w) {l : SchedulerLifecycle} (hc : SameCore w.lifecycle l) : GenInv { w with lifecycle := l } := by
  have honward : ∀ g, Onward w { w with lifecycle := l } g := fun g => ⟨hc.generation.ge, (hc.live g).1, fun _ h => h⟩
  refine { h with
    guards := fun o ho => hc.active.trans (h.guards o ho)
    flows := fun f hf => hc.active.trans (h.flows f hf)
    active := fun g hg => ?_
    control := fun g hl => ?_
    closed := fun g hpos hle hne => h.closed g hpos (hc.generation ▸ hle) fun he => hne (hc.active.trans he)
    launchers := fun launcher hl => (h.launchers launcher hl).onward (honward _) (fun _ hs => (hc.stopping _).2 hs) fun hcan => hcan
    uninstalled := ⟨fun hu => h.uninstalled.1 (hc.uninstalled.1 hu), fun hu => h.uninstalled.2 fun hu' => hu (hc.uninstalled.2 hu')⟩
    job := fun g hj => ?_
    slots := fun g hj => (h.slots g hj).onward (honward g)
    workers := fun worker hw =>
      ⟨(h.workers worker hw).retired.onward (honward _), (h.workers worker hw).drained, (h.workers worker hw).batches⟩
    begins := h.begins.trans (by rw [← hc.generation])
    completed := ⟨h.completed.1, fun g => ?_⟩ }
  · obtain ⟨heq, hpos⟩ := h.active g (hc.active.symm.trans hg)
    exact ⟨heq.trans hc.generation.symm, hpos⟩
  · obtain ⟨hcontrol, hcancelled⟩ := h.control g ((hc.live g).1 hl)
    exact ⟨hc.control.trans hcontrol, hcancelled⟩
  · obtain ⟨hs, hplace⟩ := h.job g (hc.job.symm.trans hj)
    exact ⟨(hc.stopping g).2 hs, hplace⟩
  · show g ∈ w.completions ↔ 0 < g ∧ g ≤ l.nextGeneration ∧ l.activeGeneration ≠ some g
    rw [hc.generation, hc.active]
    exact h.completed.2 g

/-! ## Guards come and go -/

/-- The guards, the starts, the counts of the controls, the slots and the workers change; the rest is as before. -/
theorem GenInv.rearranged (h : GenInv w) {guards : List OwnerGuard} {flows : List StartFlow} {controls : ℕ → GenerationControl}
    {slots : ℕ → CleanupSlot} {workers : List CleanupWorker}
    (howners : ∀ g, (controls g).activeOwners = guards.countP (·.generation = g) + flows.countP (·.generation = g))
    (hguards : ∀ o ∈ guards, w.lifecycle.activeGeneration = some o.generation)
    (hflows : ∀ f ∈ flows, w.lifecycle.activeGeneration = some f.generation)
    (hcancelled : ∀ g, (controls g).cancelled = (w.controls g).cancelled)
    (hdeferred : ∀ g, guards.count ⟨.deferred, g⟩ = (controls g).deferredHandles + batchesOf workers g)
    (hjob : ∀ g, w.lifecycle.cleanupJob = some g → (slots g).job = true ∨ Held workers g)
    (hslots : ∀ g, (slots g).job = true → Retired w g)
    (hworkers : ∀ worker ∈ workers, Retired w worker.generation ∧
      (worker.phase = .drained → guards.countP (·.generation = worker.generation) + flows.countP (·.generation = worker.generation) = 0) ∧
      (worker.phase ≠ .leased → worker.batches = 0)) :
    GenInv { w with guards := guards, flows := flows, controls := controls, slots := slots, workers := workers } :=
  { h with
    owners := howners
    guards := hguards
    flows := hflows
    control := fun g hl => ⟨(h.control g hl).1, (hcancelled g).trans (h.control g hl).2⟩
    deferred := hdeferred
    launchers := fun launcher hl =>
      (h.launchers launcher hl).onward (.same rfl rfl) (fun _ hs => hs) fun hc => (hcancelled _).trans hc
    job := fun g hj => ⟨(h.job g hj).1, hjob g hj⟩
    slots := fun g hj => (hslots g hj).onward (.same rfl rfl)
    workers := fun worker hw =>
      ⟨(hworkers worker hw).1.onward (.same rfl rfl), (hworkers worker hw).2.1, (hworkers worker hw).2.2⟩ }

/-- The guards, the starts and the counts of the controls change; the rest is as before. -/
theorem GenInv.reowned (h : GenInv w) {guards : List OwnerGuard} {flows : List StartFlow} {controls : ℕ → GenerationControl}
    (howners : ∀ g, (controls g).activeOwners = guards.countP (·.generation = g) + flows.countP (·.generation = g))
    (hguards : ∀ o ∈ guards, w.lifecycle.activeGeneration = some o.generation)
    (hflows : ∀ f ∈ flows, w.lifecycle.activeGeneration = some f.generation)
    (hcancelled : ∀ g, (controls g).cancelled = (w.controls g).cancelled)
    (hdeferred : ∀ g, guards.count ⟨.deferred, g⟩ = (controls g).deferredHandles + batchesOf w.workers g)
    (hdrained : ∀ worker ∈ w.workers, worker.phase = .drained →
      guards.countP (·.generation = worker.generation) + flows.countP (·.generation = worker.generation) = 0) :
    GenInv { w with guards := guards, flows := flows, controls := controls } :=
  h.rearranged howners hguards hflows hcancelled hdeferred (fun g hj => (h.job g hj).2) h.slots fun worker hw =>
    ⟨(h.workers worker hw).retired, hdrained worker hw, (h.workers worker hw).batches⟩

/-- A generation with an owner is not drained. -/
theorem GenInv.not_drained (h : GenInv w) (hg : w.ownersOf g ≠ 0) : ∀ worker ∈ w.workers, worker.generation = g → worker.phase ≠ .drained :=
  fun worker hw heq hphase => hg (heq ▸ (h.workers worker hw).drained hphase)

theorem ownersOf_of_flow {f : StartFlow} (hf : f ∈ w.flows) : w.ownersOf f.generation ≠ 0 := by
  have hpos : 0 < w.flows.countP (·.generation = f.generation) := List.countP_pos_iff.2 ⟨f, hf, by simp⟩
  unfold ownersOf
  omega

theorem ownersOf_of_guard {o : OwnerGuard} (ho : o ∈ w.guards) : w.ownersOf o.generation ≠ 0 := by
  have hpos : 0 < w.guards.countP (·.generation = o.generation) := List.countP_pos_iff.2 ⟨o, ho, by simp⟩
  unfold ownersOf
  omega

/-- The counts of one control. -/
def recounted (w : Scheduler) (g owners deferred : ℕ) : ℕ → GenerationControl :=
  Function.update w.controls g { w.controls g with activeOwners := owners, deferredHandles := deferred }

theorem recounted_cancelled (w : Scheduler) (g owners deferred g' : ℕ) :
    (w.recounted g owners deferred g').cancelled = (w.controls g').cancelled := by
  rw [recounted, Function.update_apply]
  split
  · rename_i heq
    rw [heq]
  · rfl

theorem recounted_owners (w : Scheduler) (g owners deferred g' : ℕ) :
    (w.recounted g owners deferred g').activeOwners = if g' = g then owners else (w.controls g').activeOwners := by
  rw [recounted, Function.update_apply]
  split <;> rfl

theorem recounted_deferred (w : Scheduler) (g owners deferred g' : ℕ) :
    (w.recounted g owners deferred g').deferredHandles = if g' = g then deferred else (w.controls g').deferredHandles := by
  rw [recounted, Function.update_apply]
  split <;> rfl

theorem addGuard_eq (w : Scheduler) (o : OwnerGuard) : w.addGuard o = { w with
    guards := o :: w.guards
    flows := w.flows
    controls := w.recounted o.generation ((w.controls o.generation).activeOwners + 1) (w.controls o.generation).deferredHandles } := rfl

theorem dropGuard_eq (w : Scheduler) (o : OwnerGuard) : w.dropGuard o = { w with
    guards := w.guards.erase o
    flows := w.flows
    controls := w.recounted o.generation ((w.controls o.generation).activeOwners - 1) (w.controls o.generation).deferredHandles } := rfl

/-- A guard is made on the generation that is active. -/
theorem GenInv.addGuard (h : GenInv w) {o : OwnerGuard} (ha : w.lifecycle.activeGeneration = some o.generation)
    (hk : o.kind ≠ .deferred) (hd : ∀ worker ∈ w.workers, worker.generation = o.generation → worker.phase ≠ .drained) :
    GenInv (w.addGuard o) := by
  have hcount : ∀ g, (o :: w.guards).count ⟨.deferred, g⟩ = w.guards.count ⟨.deferred, g⟩ := by
    intro g
    refine List.count_cons_of_ne fun heq => hk ?_
    rw [heq]
  rw [addGuard_eq]
  refine h.reowned (fun g => ?_) (fun o' ho => ?_) h.flows (recounted_cancelled _ _ _ _) (fun g => ?_) fun worker hw hphase => ?_
  · have howners := h.owners g
    unfold ownersOf at howners
    rw [List.countP_cons, recounted_owners]
    split
    · rename_i heq
      rw [if_pos (by simp [heq]), ← heq]
      omega
    · rename_i hne
      rw [if_neg (by simpa using fun he => hne he.symm)]
      omega
  · rcases List.mem_cons.1 ho with rfl | ho
    · exact ha
    · exact h.guards o' ho
  · rw [hcount, h.deferred, recounted_deferred]
    split
    · rename_i heq
      rw [heq]
    · rfl
  · have hzero := (h.workers worker hw).drained hphase
    have hne : ¬o.generation = worker.generation := fun he => hd worker hw he.symm hphase
    rw [List.countP_cons_of_neg (by simpa using hne)]
    exact hzero

theorem countP_erase_add {o : OwnerGuard} (ho : o ∈ w.guards) (g : ℕ) :
    w.guards.countP (·.generation = g) = (w.guards.erase o).countP (·.generation = g) + if o.generation = g then 1 else 0 := by
  rw [(List.perm_cons_erase ho).countP_eq, List.countP_cons]
  simp

/-- A guard that is there is dropped. -/
theorem GenInv.dropGuard (h : GenInv w) {o : OwnerGuard} (ho : o ∈ w.guards) (hk : o.kind ≠ .deferred) : GenInv (w.dropGuard o) := by
  have hcount : ∀ g, (w.guards.erase o).count ⟨.deferred, g⟩ = w.guards.count ⟨.deferred, g⟩ := by
    intro g
    refine List.count_erase_of_ne fun heq => hk ?_
    rw [← heq]
  rw [dropGuard_eq]
  refine h.reowned (fun g => ?_) (fun o' ho' => h.guards o' (List.mem_of_mem_erase ho')) h.flows (recounted_cancelled _ _ _ _)
    (fun g => ?_) fun worker hw hphase => ?_
  · have herase := countP_erase_add ho g
    have howners := h.owners g
    unfold ownersOf at howners
    rw [recounted_owners]
    split
    · rename_i heq
      rw [if_pos heq.symm] at herase
      rw [← heq]
      omega
    · rename_i hne
      rw [if_neg (fun he => hne he.symm)] at herase
      omega
  · rw [hcount, h.deferred, recounted_deferred]
    split
    · rename_i heq
      rw [heq]
    · rfl
  · have hzero := (h.workers worker hw).drained hphase
    have herase := countP_erase_add ho worker.generation
    unfold ownersOf at hzero
    omega

/-- A start goes on. -/
theorem GenInv.setFlow (h : GenInv w) {f f' : StartFlow} (hf : w.flows[i]? = some f) (hg : f'.generation = f.generation) :
    GenInv (w.setFlow i f') := by
  have hcount : ∀ g, (f' :: w.flows.eraseIdx i).countP (·.generation = g) = w.flows.countP (·.generation = g) := by
    intro g
    rw [← (TaskRuns.perm_of_get hf).countP_eq, List.countP_cons, List.countP_cons, hg]
  refine h.reowned (fun g => ?_) h.guards (fun f'' hf'' => ?_) (fun _ => rfl) h.deferred fun worker hw hphase => ?_
  · rw [hcount]
    exact h.owners g
  · rcases List.mem_cons.1 hf'' with rfl | hf''
    · rw [hg]
      exact h.flows f (List.mem_of_getElem? hf)
    · exact h.flows f'' (List.mem_of_mem_eraseIdx hf'')
  · rw [hcount]
    exact (h.workers worker hw).drained hphase

theorem deferBatch_eq (w : Scheduler) (g : ℕ) : w.deferBatch g = { w with
    guards := ⟨.deferred, g⟩ :: w.guards
    flows := w.flows
    controls := w.recounted g ((w.controls g).activeOwners + 1) ((w.controls g).deferredHandles + 1) } := by
  unfold Scheduler.deferBatch Scheduler.addGuard Scheduler.ownerStarted Scheduler.setControl recounted
  simp

/-- A batch of handles is queued with a guard of its own, by a start that has one too. -/
theorem GenInv.deferBatch (h : GenInv w) (ha : w.lifecycle.activeGeneration = some g)
    (hd : ∀ worker ∈ w.workers, worker.generation = g → worker.phase ≠ .drained) : GenInv (w.deferBatch g) := by
  rw [deferBatch_eq]
  refine h.reowned (fun g' => ?_) (fun o ho => ?_) h.flows (recounted_cancelled _ _ _ _) (fun g' => ?_) fun worker hw hphase => ?_
  · have howners := h.owners g'
    unfold ownersOf at howners
    rw [List.countP_cons, recounted_owners]
    split
    · rename_i heq
      rw [if_pos (by simp [heq]), ← heq]
      omega
    · rename_i hne
      rw [if_neg (by simpa using fun he => hne he.symm)]
      omega
  · rcases List.mem_cons.1 ho with rfl | ho
    · exact ha
    · exact h.guards o ho
  · have hdeferred := h.deferred g'
    rw [recounted_deferred]
    split
    · rename_i heq
      rw [heq, List.count_cons_self, ← heq]
      omega
    · rename_i hne
      rw [List.count_cons_of_ne (by simpa using fun he => hne he.symm)]
      exact hdeferred
  · have hzero := (h.workers worker hw).drained hphase
    have hne : ¬g = worker.generation := fun he => hd worker hw he.symm hphase
    rw [List.countP_cons_of_neg (by simpa using hne)]
    exact hzero

theorem deferHandle_eq (w : Scheduler) (g : ℕ) : w.deferHandle g = { w with
    guards := ⟨.deferred, g⟩ :: w.guards.erase ⟨.handle, g⟩
    flows := w.flows
    controls := w.recounted g (w.controls g).activeOwners ((w.controls g).deferredHandles + 1) } := rfl

/-- A handle is queued with the guard it has. -/
theorem GenInv.deferHandle (h : GenInv w) (ho : ⟨.handle, g⟩ ∈ w.guards) : GenInv (w.deferHandle g) := by
  have hcount : ∀ g', (⟨.deferred, g⟩ :: w.guards.erase ⟨.handle, g⟩ : List OwnerGuard).countP (·.generation = g') =
      w.guards.countP (·.generation = g') := by
    intro g'
    rw [countP_erase_add ho g', List.countP_cons]
    simp
  rw [deferHandle_eq]
  refine h.reowned (fun g' => ?_) (fun o ho' => ?_) h.flows (recounted_cancelled _ _ _ _) (fun g' => ?_) fun worker hw hphase => ?_
  · have howners := h.owners g'
    unfold ownersOf at howners
    rw [hcount, recounted_owners]
    split
    · rename_i heq
      rw [← heq]
      exact howners
    · exact howners
  · rcases List.mem_cons.1 ho' with rfl | ho'
    · exact h.guards ⟨.handle, g⟩ ho
    · exact h.guards o (List.mem_of_mem_erase ho')
  · have hdeferred := h.deferred g'
    rw [recounted_deferred]
    split
    · rename_i heq
      rw [heq, List.count_cons_self, List.count_erase_of_ne (by simp), ← heq]
      omega
    · rename_i hne
      rw [List.count_cons_of_ne (by simpa using fun he => hne he.symm), List.count_erase_of_ne (by simp)]
      exact hdeferred
  · rw [hcount]
    exact (h.workers worker hw).drained hphase

/-- A start is over. -/
theorem GenInv.endFlow (h : GenInv w) {f : StartFlow} (hf : w.flows[i]? = some f) {abandoned : List RecoveryTicket} :
    GenInv ({ w with flows := w.flows.eraseIdx i, abandoned := abandoned }.ownerFinished f.generation) := by
  have hcount : ∀ g, w.flows.countP (·.generation = g) =
      (w.flows.eraseIdx i).countP (·.generation = g) + if f.generation = g then 1 else 0 := by
    intro g
    rw [← (TaskRuns.perm_of_get hf).countP_eq, List.countP_cons]
    simp
  have heq : { w with flows := w.flows.eraseIdx i, abandoned := abandoned }.ownerFinished f.generation =
      { { w with abandoned := abandoned } with
        guards := w.guards
        flows := w.flows.eraseIdx i
        controls := w.recounted f.generation ((w.controls f.generation).activeOwners - 1)
          (w.controls f.generation).deferredHandles } := rfl
  rw [heq]
  have h' : GenInv { w with abandoned := abandoned } := h.tickets
  refine h'.reowned (fun g => ?_) h.guards (fun f' hf' => h.flows f' (List.mem_of_mem_eraseIdx hf')) (recounted_cancelled _ _ _ _)
    (fun g => ?_) fun worker hw hphase => ?_
  · have hc := hcount g
    have howners := h.owners g
    unfold ownersOf at howners
    rw [recounted_owners]
    split
    · rename_i heq
      rw [if_pos heq.symm] at hc
      rw [← heq]
      omega
    · rename_i hne
      rw [if_neg (fun he => hne he.symm)] at hc
      omega
  · have hdeferred := h.deferred g
    rw [recounted_deferred]
    split
    · rename_i heq
      rw [← heq]
      exact hdeferred
    · exact hdeferred
  · have hzero := (h.workers worker hw).drained hphase
    have hc := hcount worker.generation
    unfold ownersOf at hzero
    omega

/-! ## Generations begin, are published, stop and complete -/

theorem active_of_stopped {l : SchedulerLifecycle} (hs : l.state = .stopped) : l.activeGeneration = none := by
  rw [activeGeneration, hs]

/-- Nobody is left when the scheduler is stopped. -/
theorem GenInv.empty (h : GenInv w) (hs : w.lifecycle.state = .stopped) : w.guards = [] ∧ w.flows = [] := by
  have hnone := active_of_stopped hs
  constructor
  · refine List.eq_nil_iff_forall_not_mem.2 fun o ho => ?_
    have hsome := h.guards o ho
    rw [hnone] at hsome
    cases hsome
  · refine List.eq_nil_iff_forall_not_mem.2 fun f hf => ?_
    have hsome := h.flows f hf
    rw [hnone] at hsome
    cases hsome

theorem beginFlow_eq (w : Scheduler) (owner : StartOwner) (g : ℕ) : w.beginFlow owner g = { w with
    flows := ⟨owner, g, .begun, 0, 0, 0⟩ :: w.flows
    controls := Function.update w.controls g ⟨false, 1, 0⟩
    begins := w.begins ++ [(owner, g)] } := by
  unfold Scheduler.beginFlow Scheduler.ownerStarted Scheduler.setControl
  simp [GenerationControl.new]

/-- A generation begins with the guard of its start. -/
theorem GenInv.beginFlow (h : GenInv w) (hs : w.lifecycle.state = .stopped) (owner : StartOwner) :
    GenInv ({ w with lifecycle := w.lifecycle.started (w.lifecycle.nextGeneration + 1) }.beginFlow owner (w.lifecycle.nextGeneration + 1)) := by
  obtain ⟨hguards, hflows⟩ := h.empty hs
  have hnone := active_of_stopped hs
  set n := w.lifecycle.nextGeneration + 1 with hn
  rw [beginFlow_eq]
  -- `n` is new: no record of a generation is of it
  have hne : ∀ g, g ≤ w.lifecycle.nextGeneration → g ≠ n := by omega
  have hcontrol : ∀ g, g ≠ n → Function.update w.controls n ⟨false, 1, 0⟩ g = w.controls g := fun g hg => Function.update_of_ne hg _ _
  have hlive : ∀ g, (w.lifecycle.started n).Live g → g = n := by
    rintro g (hstate | hstate)
    · exact (LifecycleState.starting.inj hstate).symm
    · cases hstate
  have honward : ∀ g, g ≤ w.lifecycle.nextGeneration → ∀ w' : Scheduler, w'.lifecycle = w.lifecycle.started n →
      w'.closedRuns = w.closedRuns → Onward w w' g := by
    intro g hg w' hl hr
    refine ⟨hl ▸ Nat.le_succ _, fun hlv => ?_, fun _ hmem => hr ▸ hmem⟩
    exact absurd (hlive g (hl ▸ hlv)) (hne g hg)
  have hbatches : batchesOf w.workers n = 0 := by
    unfold batchesOf
    refine List.sum_eq_zero fun b hb => ?_
    obtain ⟨worker, hworker, rfl⟩ := List.mem_map.1 hb
    exact if_neg (hne _ (h.workers worker hworker).retired.begun.2)
  refine ⟨fun g => ?_, fun o ho => ?_, fun f hf => ?_, fun g hg => ?_, fun g hg => ?_, fun g hpos hle hact => ?_, fun g => ?_,
    fun launcher hl => ?_, ⟨fun hu => ?_, fun _ => ?_⟩, fun g hj => ?_, fun g hj => ?_, fun worker hw => ?_, ?_, ⟨h.completed.1, fun g => ?_⟩⟩
  · -- `n` has one owner, its flow, and the others keep theirs:
    show (Function.update w.controls n ⟨false, 1, 0⟩ g).activeOwners = w.guards.countP _ + List.countP _ (_ :: w.flows)
    rw [hguards, hflows]
    by_cases hg : g = n
    · rw [hg, Function.update_self]
      simp
    · have howners := h.owners g
      rw [ownersOf, hguards, hflows] at howners
      rw [hcontrol g hg, howners, List.countP_cons_of_neg (by simpa using fun he => hg he.symm)]
  · -- there are no guards:
    rw [show _ = w.guards from rfl, hguards] at ho
    cases ho
  · -- the one flow is of `n`:
    rw [show _ = (⟨owner, n, .begun, 0, 0, 0⟩ : StartFlow) :: w.flows from rfl, hflows] at hf
    rw [List.mem_singleton.1 hf]
    rfl
  · -- `n` is active:
    obtain rfl := Option.some.inj hg
    exact ⟨rfl, Nat.succ_pos _⟩
  · -- and live, and not cancelled:
    obtain rfl := hlive g hg
    refine ⟨rfl, ?_⟩
    show (Function.update w.controls n ⟨false, 1, 0⟩ n).cancelled = false
    rw [Function.update_self]
  · -- the runs of an earlier generation are closed:
    have hgn : g ≠ n := fun he => hact (he ▸ rfl)
    have hle' : g ≤ w.lifecycle.nextGeneration := Nat.le_of_lt_succ (lt_of_le_of_ne hle hgn)
    exact h.closed g hpos hle' (by rw [hnone]; exact nofun)
  · -- no handle of `n` is deferred:
    show w.guards.count _ = (Function.update w.controls n ⟨false, 1, 0⟩ g).deferredHandles + batchesOf w.workers g
    by_cases hg : g = n
    · rw [hg, Function.update_self, hbatches, hguards]
      rfl
    · rw [hcontrol g hg]
      exact h.deferred g
  · -- the launchers, the slots and the workers are of earlier generations, which stay down:
    have hok := h.launchers launcher hl
    refine hok.onward (honward _ hok.begun.2 _ rfl rfl) (fun _ hstop => ?_) fun hc => ?_
    · rw [hs] at hstop
      cases hstop
    · show (Function.update w.controls n ⟨false, 1, 0⟩ launcher.generation).cancelled = true
      rw [hcontrol _ (hne _ hok.begun.2)]
      exact hc
  · -- a generation that starts has no cleanup:
    obtain ⟨⟨g, hg⟩, -⟩ := hu
    cases hg
  · refine h.uninstalled.2 ?_
    rintro ⟨⟨g, hg⟩, -⟩
    rw [hs] at hg
    cases hg
  · have hstop := (h.job g hj).1
    rw [hs] at hstop
    cases hstop
  · have hr := h.slots g hj
    exact hr.onward (honward g hr.begun.2 _ rfl rfl)
  · have hok := h.workers worker hw
    refine ⟨hok.retired.onward (honward _ hok.retired.begun.2 _ rfl rfl), fun hphase => ?_, hok.batches⟩
    have hzero := hok.drained hphase
    show w.guards.countP _ + List.countP _ (_ :: w.flows) = 0
    rw [List.countP_cons_of_neg (by simpa using fun he => hne _ hok.retired.begun.2 he.symm)]
    exact hzero
  · -- the generations begin one after the other:
    show (w.begins ++ [(owner, n)]).map Prod.snd = List.range' 1 (w.lifecycle.nextGeneration + 1)
    rw [List.map_append, h.begins, List.range'_concat, hn]
    simp [Nat.add_comm]
  · -- `n` is active, so not completed:
    show g ∈ w.completions ↔ 0 < g ∧ g ≤ n ∧ some n ≠ some g
    rw [h.completed.2 g, hnone]
    constructor
    · rintro ⟨hpos, hle, -⟩
      exact ⟨hpos, by omega, fun he => hne g hle (Option.some.inj he).symm⟩
    · rintro ⟨hpos, hle, hne'⟩
      refine ⟨hpos, ?_, nofun⟩
      have hgn : g ≠ n := fun he => hne' (he ▸ rfl)
      omega

end Scheduler

end EasiFlux
