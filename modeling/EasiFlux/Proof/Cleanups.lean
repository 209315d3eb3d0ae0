import EasiFlux.Proof.Owners

/-!
# The cleanups of generations

A generation stops, its launcher closes its runs and installs the job, and workers, which
may be dropped and relaunched, drain its control and complete it. With `Proof.Owners` every
step keeps `GenInv` (`GenInv.step`).
-/

namespace EasiFlux

namespace Scheduler

open SchedulerLifecycle

variable {w w' : Scheduler} {i g : ℕ}

/-! ## Launchers -/

/-- The launchers change, and as many of them as before have a cleanup to install. -/
theorem GenInv.relaunched (h : GenInv w) {launchers : List CleanupLauncher} (hok : ∀ launcher ∈ launchers, LauncherOk w launcher)
    (hcount : launchers.countP CleanupLauncher.preInstall = w.launchers.countP CleanupLauncher.preInstall) :
    GenInv { w with launchers := launchers } :=
  { h with
    launchers := fun launcher hl => (hok launcher hl).onward (.same rfl rfl) (fun _ hs => hs) fun hc => hc
    uninstalled := ⟨fun hu => hcount.trans (h.uninstalled.1 hu), fun hu => hcount.trans (h.uninstalled.2 hu)⟩
    slots := fun g hj => (h.slots g hj).onward (.same rfl rfl)
    workers := fun worker hw =>
      ⟨(h.workers worker hw).retired.onward (.same rfl rfl), (h.workers worker hw).drained, (h.workers worker hw).batches⟩ }

theorem countP_launchers {launcher : CleanupLauncher} (hl : w.launchers[i]? = some launcher) :
    w.launchers.countP CleanupLauncher.preInstall =
      (w.launchers.eraseIdx i).countP CleanupLauncher.preInstall + if launcher.preInstall then 1 else 0 := by
  rw [← (TaskRuns.perm_of_get hl).countP_eq, List.countP_cons]

/-- A launcher goes on, with the cleanup still to install or with it installed already. -/
theorem GenInv.setLauncher (h : GenInv w) {launcher launcher' : CleanupLauncher} (hl : w.launchers[i]? = some launcher)
    (hp : launcher'.preInstall = launcher.preInstall) (hok : LauncherOk w launcher') : GenInv (w.setLauncher i launcher') := by
  refine h.relaunched (fun l hmem => ?_) ?_
  · rcases List.mem_cons.1 hmem with rfl | hmem
    · exact hok
    · exact h.launchers l (List.mem_of_mem_eraseIdx hmem)
  · rw [List.countP_cons, countP_launchers hl, hp]

/-- A control is cancelled when its generation stops. -/
theorem GenInv.cancel (h : GenInv w) (hs : w.lifecycle.state = .stopping g) :
    GenInv (w.setControl g fun c => { c with cancelled := true }) := by
  have hcontrol : ∀ g', (w.setControl g fun c => { c with cancelled := true }).controls g' =
      { w.controls g' with cancelled := if g' = g then true else (w.controls g').cancelled } := by
    intro g'
    show Function.update w.controls g _ g' = _
    rw [Function.update_apply]
    split
    · rename_i heq
      rw [heq]
    · rfl
  exact { h with
    owners := fun g' => by rw [hcontrol g']; exact h.owners g'
    control := fun g' hl => absurd hl (not_live_of_stopping hs)
    deferred := fun g' => by rw [hcontrol g']; exact h.deferred g'
    launchers := fun launcher hl => by
      refine (h.launchers launcher hl).onward (.same rfl rfl) (fun _ hs => hs) fun hc => ?_
      rw [Scheduler.cancelled, hcontrol]
      dsimp only
      split
      · rfl
      · exact hc
    slots := fun g' hj => (h.slots g' hj).onward (.same rfl rfl)
    workers := fun worker hw =>
      ⟨(h.workers worker hw).retired.onward (.same rfl rfl), (h.workers worker hw).drained, (h.workers worker hw).batches⟩ }

theorem GenInv.closeRun (h : GenInv w) (run : ℕ × TaskId) : GenInv { w with closedRuns := run :: w.closedRuns } := by
  have honward : ∀ g, Onward w { w with closedRuns := run :: w.closedRuns } g :=
    fun g => ⟨le_rfl, fun hl => hl, fun _ hr => List.mem_cons_of_mem _ hr⟩
  exact { h with
    closed := fun g hpos hle hne task => List.mem_cons_of_mem _ (h.closed g hpos hle hne task)
    launchers := fun launcher hl => (h.launchers launcher hl).onward (honward _) (fun _ hs => hs) fun hc => hc
    slots := fun g hj => (h.slots g hj).onward (honward g)
    workers := fun worker hw =>
      ⟨(h.workers worker hw).retired.onward (honward _), (h.workers worker hw).drained, (h.workers worker hw).batches⟩ }

/-- A generation that is up begins to stop: there is a launcher for its cleanup. -/
theorem GenInv.stopping (h : GenInv w) (hl : w.lifecycle.Live g) {l : SchedulerLifecycle} (hs : l.state = .stopping g)
    (hn : l.nextGeneration = w.lifecycle.nextGeneration) (hj : l.cleanupJob = w.lifecycle.cleanupJob) (recovery : Option RecoveryTicket) :
    GenInv { w with lifecycle := l, launchers := ⟨g, .cancelControl, recovery⟩ :: w.launchers } := by
  have hactive : l.activeGeneration = w.lifecycle.activeGeneration :=
    (activeGeneration_iff.2 (.inr hs)).trans (activeGeneration_of_live hl).symm
  -- the state was not stopping: no job was installed, and no launcher has one to install
  have hnot : ∀ g', w.lifecycle.state ≠ .stopping g' := fun g' he => not_live_of_stopping he hl
  have hnone : w.lifecycle.cleanupJob = none := by
    cases hjob : w.lifecycle.cleanupJob with
    | none => rfl
    | some g' => exact absurd (h.job g' hjob).1 (hnot g')
  have hzero : w.launchers.countP CleanupLauncher.preInstall = 0 := h.uninstalled.2 fun ⟨⟨g', hg'⟩, _⟩ => hnot g' hg'
  have honward : ∀ g', Onward w { w with lifecycle := l, launchers := ⟨g, .cancelControl, recovery⟩ :: w.launchers } g' :=
    fun g' => ⟨hn.ge, fun hlive => absurd hlive (not_live_of_stopping hs), fun _ hr => hr⟩
  have hbegun := h.active g (activeGeneration_of_live hl)
  refine { h with
    guards := fun o ho => hactive.trans (h.guards o ho)
    flows := fun f hf => hactive.trans (h.flows f hf)
    active := fun g' hg' => ?_
    control := fun g' hlive => absurd hlive (not_live_of_stopping hs)
    closed := fun g' hpos hle hne => h.closed g' hpos (hn ▸ hle) fun he => hne (hactive.trans he)
    launchers := fun launcher hmem => ?_
    uninstalled := ⟨fun _ => ?_, fun hu => absurd ⟨⟨g, hs⟩, hj.trans hnone⟩ hu⟩
    job := fun g' hj' => ?_
    slots := fun g' hj' => (h.slots g' hj').onward (honward g')
    workers := fun worker hw =>
      ⟨(h.workers worker hw).retired.onward (honward _), (h.workers worker hw).drained, (h.workers worker hw).batches⟩
    begins := h.begins.trans (by rw [← hn])
    completed := ⟨h.completed.1, fun g' => ?_⟩ }
  · obtain ⟨heq, hpos⟩ := h.active g' (hactive.symm.trans hg')
    exact ⟨heq.trans hn.symm, hpos⟩
  · rcases List.mem_cons.1 hmem with rfl | hmem
    · exact ⟨⟨hbegun.2, (hbegun.1.trans hn.symm).le⟩, fun _ => hs, trivial⟩
    · refine (h.launchers launcher hmem).onward (honward _) (fun hp _ => ?_) fun hc => hc
      exact absurd hp (List.countP_eq_zero.1 hzero launcher hmem)
  · show List.countP _ (_ :: w.launchers) = 1
    rw [List.countP_cons_of_pos rfl, hzero]
  · rw [show _ = l.cleanupJob from rfl, hj, hnone] at hj'
    cases hj'
  · show g' ∈ w.completions ↔ 0 < g' ∧ g' ≤ l.nextGeneration ∧ l.activeGeneration ≠ some g'
    rw [hn, hactive]
    exact h.completed.2 g'

/-- The job is installed by the one launcher that has it to install. -/
theorem GenInv.install (h : GenInv w) {launcher : CleanupLauncher} (hl : w.launchers[i]? = some launcher)
    (hstage : launcher.stage = .installSlot) : GenInv (w.launchStep i launcher) := by
  have hpre : launcher.preInstall = true := by rw [CleanupLauncher.preInstall, hstage]
  have hok := h.launchers launcher (List.mem_of_getElem? hl)
  have hs := hok.stopping hpre
  have hretired : Retired w launcher.generation := by simpa only [hstage] using hok.runs
  have hcount := countP_launchers hl
  rw [hpre, if_pos rfl] at hcount
  -- a launcher that has not installed is there only for a cleanup without its job:
  have hun : Uninstalled w.lifecycle := by
    by_contra hun
    have hzero := h.uninstalled.2 hun
    omega
  have hone := h.uninstalled.1 hun
  have hzero : (w.launchers.eraseIdx i).countP CleanupLauncher.preInstall = 0 := by omega
  unfold Scheduler.launchStep
  simp only [hstage]
  rw [if_pos ⟨hs, hun.2⟩]
  set l := { w.lifecycle with cleanupJob := some launcher.generation } with hldef
  have honward : ∀ (g' : ℕ) (w' : Scheduler), w'.lifecycle = l → w'.closedRuns = w.closedRuns → Onward w w' g' :=
    fun g' w' hl' hr => ⟨by rw [hl'], fun hlive => by rw [hl'] at hlive; exact hlive, fun _ hm => hr ▸ hm⟩
  refine { h with
    launchers := fun launcher' hmem => ?_
    uninstalled := ⟨(fun hu => nomatch hu.2), fun _ => ?_⟩
    job := fun g' hj => ?_
    slots := fun g' hj => ?_
    workers := fun worker hw =>
      ⟨(h.workers worker hw).retired.onward (honward _ _ rfl rfl), (h.workers worker hw).drained, (h.workers worker hw).batches⟩ }
  · rcases List.mem_cons.1 hmem with rfl | hmem
    · exact ⟨hok.begun, nofun, hretired.onward (honward _ _ rfl rfl)⟩
    · exact (h.launchers launcher' (List.mem_of_mem_eraseIdx hmem)).onward (honward _ _ rfl rfl) (fun _ he => he) fun hc => hc
  · -- it was the only one:
    show List.countP _ (_ :: w.launchers.eraseIdx i) = 0
    rw [List.countP_cons_of_neg (by simp [CleanupLauncher.preInstall]), hzero]
  · obtain rfl := Option.some.inj hj
    refine ⟨hs, .inl ?_⟩
    show (Function.update w.slots launcher.generation ⟨true, false, 0⟩ launcher.generation).job = true
    rw [Function.update_self]
  · by_cases hg : g' = launcher.generation
    · rw [hg]
      exact hretired.onward (honward _ _ rfl rfl)
    · have hj' : (Function.update w.slots launcher.generation ⟨true, false, 0⟩ g').job = true := hj
      rw [Function.update_of_ne hg] at hj'
      exact (h.slots g' hj').onward (honward _ _ rfl rfl)

/-! ## Workers -/

theorem batchesOf_eraseIdx {workers : List CleanupWorker} {worker : CleanupWorker} (hw : workers[i]? = some worker) (g : ℕ) :
    batchesOf workers g = batchesOf (worker :: workers.eraseIdx i) g :=
  ((TaskRuns.perm_of_get hw).map _).sum_eq.symm

theorem batchesOf_cons (worker : CleanupWorker) (workers : List CleanupWorker) (g : ℕ) :
    batchesOf (worker :: workers) g = (if worker.generation = g then worker.batches else 0) + batchesOf workers g := rfl

theorem Held.cons {workers : List CleanupWorker} (h : Held workers g) (worker : CleanupWorker) : Held (worker :: workers) g := by
  obtain ⟨holder, hmem, hholder⟩ := h
  exact ⟨holder, List.mem_cons_of_mem _ hmem, hholder⟩

/-- Who has the job when one worker is left out. -/
theorem Held.eraseIdx {workers : List CleanupWorker} {worker : CleanupWorker} (h : Held workers g) (hw : workers[i]? = some worker) :
    (worker.generation = g ∧ (worker.phase = .leased ∨ worker.phase = .drained)) ∨ Held (workers.eraseIdx i) g := by
  obtain ⟨holder, hmem, hholder⟩ := h
  rcases List.mem_cons.1 ((TaskRuns.perm_of_get hw).mem_iff.2 hmem) with rfl | hmem
  · exact .inl hholder
  · exact .inr ⟨holder, hmem, hholder⟩

/-- The slots, the workers and one count of deferred batches change. -/
theorem GenInv.reworked (h : GenInv w) {slots : ℕ → CleanupSlot} {workers : List CleanupWorker} {controls : ℕ → GenerationControl}
    (hcontrols : ∀ g, (controls g).activeOwners = (w.controls g).activeOwners ∧ (controls g).cancelled = (w.controls g).cancelled ∧
      (controls g).deferredHandles + batchesOf workers g = (w.controls g).deferredHandles + batchesOf w.workers g)
    (hjob : ∀ g, w.lifecycle.cleanupJob = some g → (w.slots g).job = true ∨ Held w.workers g → (slots g).job = true ∨ Held workers g)
    (hslots : ∀ g, (slots g).job = true → Retired w g) (hworkers : ∀ worker ∈ workers, WorkerOk w worker) :
    GenInv { w with slots := slots, workers := workers, controls := controls } := by
  refine h.rearranged (fun g => (hcontrols g).1.trans (h.owners g)) h.guards h.flows (fun g => (hcontrols g).2.1) (fun g => ?_)
    (fun g hj => hjob g hj (h.job g hj).2) hslots fun worker hw => ?_
  · rw [(hcontrols g).2.2]
    exact h.deferred g
  · exact ⟨(hworkers worker hw).retired, (hworkers worker hw).drained, (hworkers worker hw).batches⟩

/-- The slots and the workers change, and nothing is taken out of a queue. -/
theorem GenInv.reassigned (h : GenInv w) {slots : ℕ → CleanupSlot} {workers : List CleanupWorker}
    (hbatches : ∀ g, batchesOf workers g = batchesOf w.workers g)
    (hjob : ∀ g, w.lifecycle.cleanupJob = some g → (w.slots g).job = true ∨ Held w.workers g → (slots g).job = true ∨ Held workers g)
    (hslots : ∀ g, (slots g).job = true → Retired w g) (hworkers : ∀ worker ∈ workers, WorkerOk w worker) :
    GenInv { w with slots := slots, workers := workers } :=
  h.reworked (fun g => ⟨rfl, rfl, congrArg _ (hbatches g)⟩) hjob hslots hworkers

theorem update_job {slots : ℕ → CleanupSlot} {slot : CleanupSlot} (hslot : slot.job = (slots g).job) (g' : ℕ) :
    (Function.update slots g slot g').job = (slots g').job := by
  rw [Function.update_apply]
  split
  · rename_i heq
    rw [heq, hslot]
  · rfl

theorem GenInv.reserveWorker (h : GenInv w) (g : ℕ) : GenInv (w.reserveWorker g) := by
  unfold Scheduler.reserveWorker
  refine GenInv.ite (fun _ => h) fun hfree => ?_
  rw [not_or, not_or] at hfree
  have hjob : (w.slots g).job = true := not_not.1 hfree.2.2
  have hslot : ∀ g', (Function.update w.slots g { w.slots g with workerPending := 1 } g').job = (w.slots g').job := update_job rfl
  refine h.reassigned (fun g' => ?_) (fun g' _ hplace => ?_) (fun g' hj => ?_) fun worker hw => ?_
  · rw [batchesOf_cons, ite_self, Nat.zero_add]
  · rw [hslot]
    exact hplace.imp_right fun hheld => hheld.cons _
  · rw [hslot] at hj
    exact h.slots g' hj
  · rcases List.mem_cons.1 hw with rfl | hw
    · exact ⟨h.slots g hjob, nofun, fun _ => rfl⟩
    · exact h.workers worker hw

/-- A worker that holds nothing goes on, or is gone, with the job where it is. -/
theorem GenInv.idle (h : GenInv w) {worker : CleanupWorker} (hw : w.workers[i]? = some worker)
    (hphase : worker.phase = .pending ∨ worker.phase = .permitted) (active : Bool) (pending : ℕ) (rest : List CleanupWorker)
    (hrest : ∀ worker' ∈ rest, worker' = { worker with phase := .permitted }) :
    GenInv { w with
      slots := Function.update w.slots worker.generation ⟨(w.slots worker.generation).job, active, pending⟩
      workers := rest ++ w.workers.eraseIdx i } := by
  have hslot : ∀ g, (Function.update w.slots worker.generation ⟨(w.slots worker.generation).job, active, pending⟩ g).job =
      (w.slots g).job := update_job rfl
  have hmem := List.mem_of_getElem? hw
  have hzero : worker.batches = 0 := (h.workers worker hmem).batches (by rcases hphase with hp | hp <;> rw [hp] <;> simp)
  have hnone : ∀ g, batchesOf rest g = 0 := by
    intro g
    refine List.sum_eq_zero fun b hb => ?_
    obtain ⟨worker', hworker', rfl⟩ := List.mem_map.1 hb
    rw [hrest worker' hworker', hzero, ite_self]
  refine h.reassigned (fun g => ?_) (fun g _ hplace => ?_) (fun g hj => ?_) fun worker' hw' => ?_
  · rw [batchesOf_eraseIdx hw, batchesOf_cons, hzero, ite_self, Nat.zero_add]
    have happend : batchesOf (rest ++ w.workers.eraseIdx i) g = batchesOf rest g + batchesOf (w.workers.eraseIdx i) g := by
      unfold batchesOf
      rw [List.map_append, List.sum_append]
    rw [happend, hnone, Nat.zero_add]
  · rw [hslot]
    refine hplace.imp_right fun hheld => ?_
    rcases hheld.eraseIdx hw with ⟨-, hp | hp⟩ | ⟨holder, hholder, hh⟩
    · rcases hphase with hq | hq <;> rw [hp] at hq <;> cases hq
    · rcases hphase with hq | hq <;> rw [hp] at hq <;> cases hq
    · exact ⟨holder, List.mem_append_right _ hholder, hh⟩
  · rw [hslot] at hj
    exact h.slots g hj
  · rcases List.mem_append.1 hw' with hw' | hw'
    · rw [hrest worker' hw']
      exact ⟨(h.workers worker hmem).retired, nofun, fun _ => hzero⟩
    · exact h.workers worker' (List.mem_of_mem_eraseIdx hw')

theorem GenInv.workerBegin (h : GenInv w) {worker : CleanupWorker} (hw : w.workers[i]? = some worker) :
    GenInv (w.workerBegin i worker) := by
  unfold Scheduler.workerBegin
  refine GenInv.ite (fun _ => h) fun hp => ?_
  rw [not_not] at hp
  refine GenInv.ite (fun _ => ?_) fun _ => ?_
  · exact h.idle hw (.inl hp) _ _ [] nofun
  · exact h.idle hw (.inl hp) _ _ [_] fun _ hmem => List.mem_singleton.1 hmem

/-- A worker takes the job out of the slot. -/
theorem GenInv.workerClaim (h : GenInv w) {worker : CleanupWorker} (hw : w.workers[i]? = some worker) :
    GenInv (w.workerClaim i worker) := by
  have hok := h.workers worker (List.mem_of_getElem? hw)
  unfold Scheduler.workerClaim
  refine GenInv.ite (fun _ => h) fun hp => ?_
  rw [not_not] at hp
  refine GenInv.ite (fun hjob => ?_) fun _ => ?_
  · refine h.reassigned (fun g => ?_) (fun g _ hplace => ?_) (fun g hj => ?_) fun worker' hw' => ?_
    · exact (batchesOf_eraseIdx hw g).symm
    · by_cases hg : worker.generation = g
      · exact .inr ⟨_, List.mem_cons_self, hg, .inl rfl⟩
      · rw [Function.update_of_ne fun he => hg he.symm]
        refine hplace.imp_right fun hheld => ?_
        rcases hheld.eraseIdx hw with ⟨heq, -⟩ | hheld
        · exact absurd heq hg
        · exact hheld.cons _
    · rw [Function.update_apply] at hj
      split at hj
      · cases hj
      · exact h.slots g hj
    · rcases List.mem_cons.1 hw' with rfl | hw'
      · exact ⟨hok.retired, nofun, fun hne => absurd rfl hne⟩
      · exact h.workers worker' (List.mem_of_mem_eraseIdx hw')
  · exact h.idle hw (.inr hp) _ _ [] nofun

/-- A worker with the job goes on. -/
theorem held_setWorker {worker worker' : CleanupWorker} (hw : w.workers[i]? = some worker) (hg : worker'.generation = worker.generation)
    (hp : worker'.phase = .leased ∨ worker'.phase = .drained) (hheld : Held w.workers g) : Held (worker' :: w.workers.eraseIdx i) g := by
  rcases hheld.eraseIdx hw with ⟨heq, -⟩ | hheld
  · exact ⟨worker', List.mem_cons_self, hg.trans heq, hp⟩
  · exact hheld.cons _

theorem GenInv.workerTake (h : GenInv w) {worker : CleanupWorker} (hw : w.workers[i]? = some worker) :
    GenInv (w.workerTake i worker) := by
  have hok := h.workers worker (List.mem_of_getElem? hw)
  unfold Scheduler.workerTake
  refine GenInv.ite (fun _ => h) fun hp => ?_
  rw [not_not] at hp
  set worker₁ := { worker with batches := worker.batches + (w.controls worker.generation).deferredHandles } with hworker₁
  show GenInv { w with
    slots := w.slots
    workers := worker₁ :: w.workers.eraseIdx i
    controls := Function.update w.controls worker.generation { w.controls worker.generation with deferredHandles := 0 } }
  refine h.reworked (fun g => ?_) (fun g _ hplace => hplace.imp_right (held_setWorker hw rfl (.inl hp))) h.slots fun worker' hw' => ?_
  · rw [Function.update_apply, batchesOf_cons, batchesOf_eraseIdx hw, batchesOf_cons]
    split
    · rename_i heq
      subst heq
      rw [if_pos rfl, if_pos rfl]
      refine ⟨rfl, rfl, ?_⟩
      show 0 + (worker.batches + (w.controls worker.generation).deferredHandles + _) = _
      omega
    · rename_i hne
      rw [if_neg fun he => hne he.symm, if_neg fun he => hne he.symm]
      exact ⟨rfl, rfl, rfl⟩
  · rcases List.mem_cons.1 hw' with rfl | hw'
    · exact ⟨hok.retired, fun hd => hok.drained hd, fun hne => absurd hp hne⟩
    · exact h.workers worker' (List.mem_of_mem_eraseIdx hw')

/-- The guard of a batch that a worker holds is there, and is dropped with it. -/
theorem GenInv.workerPop (h : GenInv w) {worker : CleanupWorker} (hw : w.workers[i]? = some worker) :
    GenInv (w.workerPop i worker) := by
  have hok := h.workers worker (List.mem_of_getElem? hw)
  unfold Scheduler.workerPop
  refine GenInv.ite (fun _ => h) fun hp => ?_
  rw [not_or, not_not] at hp
  obtain ⟨hp, hbatches⟩ := hp
  set o : OwnerGuard := ⟨.deferred, worker.generation⟩ with ho
  -- the batch counts a guard of its generation, so there is one to drop:
  have hcount := h.deferred worker.generation
  rw [batchesOf_eraseIdx hw, batchesOf_cons, if_pos rfl] at hcount
  have hmem : o ∈ w.guards := List.count_pos_iff.1 (by rw [ho]; omega)
  set worker₁ := { worker with batches := worker.batches - 1 } with hworker₁
  show GenInv { w with
    guards := w.guards.erase o
    flows := w.flows
    controls := w.recounted worker.generation ((w.controls worker.generation).activeOwners - 1)
      (w.controls worker.generation).deferredHandles
    slots := w.slots
    workers := worker₁ :: w.workers.eraseIdx i }
  refine h.rearranged (fun g => ?_) (fun o' ho' => h.guards o' (List.mem_of_mem_erase ho')) h.flows
    (recounted_cancelled _ _ _ _) (fun g => ?_) (fun g hj => (h.job g hj).2.imp_right (held_setWorker hw rfl (.inl hp))) h.slots
    fun worker' hw' => ⟨?_, fun hd => ?_, fun hne => ?_⟩
  · -- one owner less, of this generation:
    have herase := countP_erase_add hmem g
    have howners := h.owners g
    unfold ownersOf at howners
    rw [recounted_owners]
    split
    · rename_i heq
      rw [if_pos heq.symm] at herase
      rw [← heq]
      omega
    · rename_i hne
      rw [if_neg (fun he => hne he.symm)] at herase
      omega
  · -- and one deferred handle less:
    have hdeferred := h.deferred g
    rw [batchesOf_eraseIdx hw, batchesOf_cons] at hdeferred
    rw [batchesOf_cons, recounted_deferred, show worker₁.batches = worker.batches - 1 from rfl]
    by_cases hg : worker.generation = g
    · rw [if_pos hg] at hdeferred
      rw [if_pos hg, if_pos hg.symm, hg, ho, hg, List.count_erase_self]
      omega
    · rw [if_neg hg] at hdeferred
      rw [if_neg hg, if_neg fun he => hg he.symm, List.count_erase_of_ne (by simpa [ho] using fun he => hg he.symm)]
      omega
  · rcases List.mem_cons.1 hw' with rfl | hw'
    · exact hok.retired
    · exact (h.workers worker' (List.mem_of_mem_eraseIdx hw')).retired
  · -- a worker that is drained has no owners, and keeps none:
    have hzero : w.ownersOf worker'.generation = 0 := by
      rcases List.mem_cons.1 hw' with rfl | hw'
      · exact hok.drained hd
      · exact (h.workers worker' (List.mem_of_mem_eraseIdx hw')).drained hd
    have herase := countP_erase_add hmem worker'.generation
    unfold ownersOf at hzero
    omega
  · rcases List.mem_cons.1 hw' with rfl | hw'
    · exact absurd hp hne
    · exact (h.workers worker' (List.mem_of_mem_eraseIdx hw')).batches hne

/-- A worker finds that the control has drained. -/
theorem GenInv.workerDrained (h : GenInv w) {worker : CleanupWorker} (hw : w.workers[i]? = some worker) :
    GenInv (w.workerDrained i worker) := by
  have hok := h.workers worker (List.mem_of_getElem? hw)
  unfold Scheduler.workerDrained
  refine GenInv.ite (fun _ => h) fun hp => ?_
  rw [not_or, not_or, not_or, not_not, not_not, not_not, not_not] at hp
  obtain ⟨hp, hbatches, -, howners⟩ := hp
  refine h.reassigned (fun g => (batchesOf_eraseIdx hw g).symm)
    (fun g _ hplace => hplace.imp_right (held_setWorker hw rfl (.inr rfl))) h.slots fun worker' hw' => ?_
  rcases List.mem_cons.1 hw' with rfl | hw'
  · exact ⟨hok.retired, fun _ => (h.owners _).symm.trans howners, fun _ => hbatches⟩
  · exact h.workers worker' (List.mem_of_mem_eraseIdx hw')

/-- A worker is dropped: the job is back in the slot, and its batches in the queue. -/
theorem GenInv.workerAbort (h : GenInv w) {worker : CleanupWorker} (hw : w.workers[i]? = some worker) :
    GenInv (w.workerAbort i worker) := by
  have hok := h.workers worker (List.mem_of_getElem? hw)
  unfold Scheduler.workerAbort
  dsimp only
  split
  · rename_i hp
    exact h.idle hw (.inl hp) _ _ [] nofun
  · show GenInv { w with
      slots := Function.update w.slots worker.generation { w.slots worker.generation with job := true, workerActive := false }
      workers := w.workers.eraseIdx i
      controls := Function.update w.controls worker.generation { w.controls worker.generation with
        deferredHandles := (w.controls worker.generation).deferredHandles + worker.batches } }
    refine h.reworked (fun g => ?_) (fun g _ hplace => ?_) (fun g hj => ?_) fun worker' hw' => ?_
    · rw [Function.update_apply, batchesOf_eraseIdx hw, batchesOf_cons]
      split
      · rename_i heq
        subst heq
        rw [if_pos rfl]
        exact ⟨rfl, rfl, by dsimp only; omega⟩
      · rename_i hne
        rw [if_neg fun he => hne he.symm, Nat.zero_add]
        exact ⟨rfl, rfl, rfl⟩
    · rw [Function.update_apply]
      split
      · exact .inl rfl
      · rename_i hne
        refine hplace.imp_right fun hheld => ?_
        rcases hheld.eraseIdx hw with ⟨heq, -⟩ | hheld
        · exact absurd heq.symm hne
        · exact hheld
    · rw [Function.update_apply] at hj
      split at hj
      · rename_i heq
        rw [heq]
        exact hok.retired
      · exact h.slots g hj
    · exact h.workers worker' (List.mem_of_mem_eraseIdx hw')
  · exact h

/-- The job of a cleanup is that of a generation whose runs are closed. -/
theorem GenInv.retired_of_job (h : GenInv w) (hj : w.lifecycle.cleanupJob = some g) : Retired w g := by
  rcases (h.job g hj).2 with hslot | ⟨worker, hw, rfl, -⟩
  · exact h.slots g hslot
  · exact (h.workers worker hw).retired

/-- A generation that has drained is complete, and nobody is left. -/
theorem GenInv.complete (h : GenInv w) {worker : CleanupWorker} (hw : w.workers[i]? = some worker) (hp : worker.phase = .drained)
    (hj : w.lifecycle.cleanupJob = some worker.generation) {l : SchedulerLifecycle} (hs : l.state = .stopped)
    (hn : l.nextGeneration = w.lifecycle.nextGeneration) (hjob : l.cleanupJob = none) {slots : ℕ → CleanupSlot}
    (hslots : ∀ g, (slots g).job = (w.slots g).job) :
    GenInv { w with
      lifecycle := l
      workers := w.workers.eraseIdx i
      completions := w.completions ++ [worker.generation]
      slots := slots } := by
  have hok := h.workers worker (List.mem_of_getElem? hw)
  have hstop := (h.job _ hj).1
  have hactive : w.lifecycle.activeGeneration = some worker.generation := activeGeneration_iff.2 (.inr hstop)
  obtain ⟨heq, hpos⟩ := h.active _ hactive
  have hnone := active_of_stopped hs
  have hzero := hok.drained hp
  -- every guard there is would be one of this generation
  have hguards : w.guards = [] := by
    refine List.eq_nil_iff_forall_not_mem.2 fun o ho => ownersOf_of_guard ho ?_
    rw [← Option.some.inj (hactive.symm.trans (h.guards o ho))]
    exact hzero
  have hflows : w.flows = [] := by
    refine List.eq_nil_iff_forall_not_mem.2 fun f hf => ownersOf_of_flow hf ?_
    rw [← Option.some.inj (hactive.symm.trans (h.flows f hf))]
    exact hzero
  have hpre : w.launchers.countP CleanupLauncher.preInstall = 0 := h.uninstalled.2 fun hu => nomatch hj.symm.trans hu.2
  have honward : ∀ (g : ℕ) (w' : Scheduler), w'.lifecycle = l → w'.closedRuns = w.closedRuns → Onward w w' g :=
    fun g w' hl hr => ⟨by rw [hl, hn], fun hlive => absurd hlive (by rw [hl]; exact not_live_of_stopped hs), fun _ hm => hr ▸ hm⟩
  refine { h with
    guards := fun o ho => ?_
    flows := fun f hf => ?_
    active := fun g hg => nomatch hnone.symm.trans hg
    control := fun g hl => absurd hl (not_live_of_stopped hs)
    closed := fun g hpos' hle _ => ?_
    deferred := fun g => ?_
    launchers := fun launcher hl => ?_
    uninstalled := ⟨fun hu => ?_, fun _ => hpre⟩
    job := fun g hg => nomatch hjob.symm.trans hg
    slots := fun g hg => (h.slots g ((hslots g).symm.trans hg)).onward (honward _ _ rfl rfl)
    workers := fun worker' hw' => ?_
    begins := h.begins.trans (by rw [← hn])
    completed := ⟨?_, fun g => ?_⟩ }
  · rw [show _ = w.guards from rfl, hguards] at ho
    cases ho
  · rw [show _ = w.flows from rfl, hflows] at hf
    cases hf
  · by_cases hg : w.lifecycle.activeGeneration = some g
    · obtain rfl := Option.some.inj (hactive.symm.trans hg)
      exact hok.retired.closed
    · exact h.closed g hpos' (hn ▸ hle) hg
  · have hdeferred := h.deferred g
    have hbatches : worker.batches = 0 := hok.batches (by rw [hp]; nofun)
    rw [batchesOf_eraseIdx hw, batchesOf_cons, hbatches, ite_self, Nat.zero_add] at hdeferred
    exact hdeferred
  · refine (h.launchers launcher hl).onward (honward _ _ rfl rfl) (fun hpi _ => ?_) fun hc => hc
    exact absurd hpi (List.countP_eq_zero.1 hpre launcher hl)
  · obtain ⟨⟨g, hg⟩, -⟩ := hu
    rw [show _ = l.state from rfl, hs] at hg
    cases hg
  · have hok' := h.workers worker' (List.mem_of_mem_eraseIdx hw')
    exact ⟨hok'.retired.onward (honward _ _ rfl rfl), hok'.drained, hok'.batches⟩
  · refine List.nodup_append.2 ⟨h.completed.1, List.nodup_singleton _, fun a ha b hb he => ?_⟩
    rw [he, List.mem_singleton.1 hb] at ha
    exact ((h.completed.2 _).1 ha).2.2 hactive
  · show g ∈ w.completions ++ [worker.generation] ↔ 0 < g ∧ g ≤ l.nextGeneration ∧ l.activeGeneration ≠ some g
    rw [List.mem_append, List.mem_singleton, h.completed.2 g, hnone, hn, hactive]
    constructor
    · rintro (⟨hpos', hle, -⟩ | rfl)
      · exact ⟨hpos', hle, nofun⟩
      · exact ⟨hpos, heq.le, nofun⟩
    · rintro ⟨hpos', hle, -⟩
      by_cases hg : g = worker.generation
      · exact .inr hg
      · exact .inl ⟨hpos', hle, fun he => hg (Option.some.inj he).symm⟩

/-- A worker that has drained completes its generation, or finds another one. -/
theorem GenInv.workerComplete (h : GenInv w) {worker : CleanupWorker} (hw : w.workers[i]? = some worker) :
    GenInv (w.workerComplete i worker) := by
  have hok := h.workers worker (List.mem_of_getElem? hw)
  have hslot : ∀ g, (Function.update w.slots worker.generation { w.slots worker.generation with workerActive := false } g).job =
      (w.slots g).job := update_job rfl
  unfold Scheduler.workerComplete
  refine GenInv.ite (fun _ => h) fun hp => ?_
  rw [not_not] at hp
  by_cases hj : w.lifecycle.cleanupJob = some worker.generation
  · rw [if_pos hj, finishCleanup_completed (h.job _ hj).1]
    exact h.complete hw hp hj (l := w.lifecycle.completed) rfl rfl rfl hslot
  · rw [if_neg hj]
    have hbatches : worker.batches = 0 := hok.batches (by rw [hp]; nofun)
    show GenInv { w with
      slots := Function.update w.slots worker.generation { w.slots worker.generation with workerActive := false }
      workers := w.workers.eraseIdx i
      completions := w.completions ++ [] }
    rw [List.append_nil]
    refine h.reassigned (fun g => ?_) (fun g hjob hplace => ?_) (fun g hs => ?_) fun worker' hw' => ?_
    · rw [batchesOf_eraseIdx hw, batchesOf_cons, hbatches, ite_self, Nat.zero_add]
    · rw [hslot]
      refine hplace.imp_right fun hheld => ?_
      rcases hheld.eraseIdx hw with ⟨rfl, -⟩ | hheld
      · exact absurd hjob hj
      · exact hheld
    · rw [hslot] at hs
      exact h.slots g hs
    · exact h.workers worker' (List.mem_of_mem_eraseIdx hw')

/-! ## Every step -/

theorem TaskId.mem_all (task : TaskId) : task ∈ TaskId.all := by
  cases task <;> decide

theorem GenInv.launchStep (h : GenInv w) {launcher : CleanupLauncher} (hl : w.launchers[i]? = some launcher) :
    GenInv (w.launchStep i launcher) := by
  have hok := h.launchers launcher (List.mem_of_getElem? hl)
  cases hstage : launcher.stage with
  -- the runs are cancelled first, then closed one by one:
  | cancelControl =>
    have hs := hok.stopping (by rw [CleanupLauncher.preInstall, hstage])
    have hcancel := h.cancel hs
    unfold Scheduler.launchStep
    simp only [hstage]
    refine hcancel.setLauncher hl ?_ ⟨hok.begun, fun _ => hs, ?_, fun task => .inl (TaskId.mem_all task)⟩
    · simp [CleanupLauncher.preInstall, hstage]
    · show (Function.update w.controls _ _ _).cancelled = true
      rw [Function.update_self]
  | cancelRuns tasks =>
    have hs := hok.stopping (by rw [CleanupLauncher.preInstall, hstage])
    have hruns := hok.runs
    simp only [hstage] at hruns
    cases tasks with
    | nil =>
      unfold Scheduler.launchStep
      simp only [hstage]
      refine h.setLauncher hl ?_ ⟨hok.begun, fun _ => hs, ⟨hok.begun, not_live_of_stopping hs, fun task => ?_⟩⟩
      · simp [CleanupLauncher.preInstall, hstage]
      · -- no run is left over:
        exact (hruns.2 task).resolve_left List.not_mem_nil
    | cons task tasks =>
      unfold Scheduler.launchStep
      simp only [hstage]
      refine (h.closeRun (launcher.generation, task)).setLauncher hl ?_
        ⟨hok.begun, fun _ => hs, hruns.1, fun task' => ?_⟩
      · simp [CleanupLauncher.preInstall, hstage]
      · rcases hruns.2 task' with hmem | hmem
        · rcases List.mem_cons.1 hmem with rfl | hmem
          · exact .inr List.mem_cons_self
          · exact .inl hmem
        · exact .inr (List.mem_cons_of_mem _ hmem)
  | installSlot => exact h.install hl hstage
  -- from here on the generation is retired, and the launcher only starts others:
  | launchJob =>
    have hretired : Retired w launcher.generation := by simpa only [hstage] using hok.runs
    unfold Scheduler.launchStep
    simp only [hstage]
    have hok' : LauncherOk w { launcher with stage := .launchRecovery } := ⟨hok.begun, nofun, hretired⟩
    refine (h.setLauncher hl ?_ hok').reserveWorker _
    simp [CleanupLauncher.preInstall, hstage]
  | launchRecovery =>
    unfold Scheduler.launchStep
    simp only [hstage]
    have hcount := countP_launchers hl
    rw [CleanupLauncher.preInstall, hstage] at hcount
    exact (h.relaunched (fun l hmem => h.launchers l (List.mem_of_mem_eraseIdx hmem)) hcount.symm).tickets

/-- A run is claimed in the generation that is active, before its cleanup has drained. -/
theorem GenInv.claimRun (h : GenInv w) (g : ℕ) (task : TaskId) : GenInv (w.claimRun g task) := by
  unfold Scheduler.claimRun
  refine GenInv.ite (fun _ => h) fun hfree => ?_
  rw [not_or, not_or, not_or] at hfree
  obtain ⟨hpos, hle, hopen, -⟩ := hfree
  refine h.addGuard ?_ nofun fun worker hw heq _ => ?_
  · by_contra hne
    exact hopen (h.closed g (Nat.pos_of_ne_zero hpos) (not_lt.1 hle) hne task)
  · have hclosed := (h.workers worker hw).retired.closed task
    rw [heq] at hclosed
    exact hopen hclosed

/-- An activity is claimed in the generation that is up. -/
theorem GenInv.activity (h : GenInv w) (hl : w.lifecycle.Live g) : GenInv (w.addGuard ⟨.activity, g⟩) :=
  h.addGuard (activeGeneration_of_live hl) nofun fun worker hw heq _ => (h.workers worker hw).retired.down (heq ▸ hl)

theorem GenInv.claimActivity (h : GenInv w) : GenInv w.claimActivity := by
  unfold Scheduler.claimActivity
  split
  · rename_i g' g hs hc
    obtain rfl := Option.some.inj (hc.symm.trans (h.control g' (.inl hs)).1)
    exact h.activity (.inl hs)
  · rename_i g' g hs hc
    obtain rfl := Option.some.inj (hc.symm.trans (h.control g' (.inr hs)).1)
    exact h.activity (.inr hs)
  · exact h

theorem GenInv.decided (h : GenInv w) {d : ℕ} {r : StartDecision × SchedulerLifecycle} (hr : Decided w.lifecycle d r) :
    GenInv ({ w with lifecycle := r.2 }.applyDecision d r.1) := by
  cases hr with
  | denied => exact h
  | busy => exact h
  | waits => exact h.tickets
  | lost => exact h
  | exhausted => exact h.lifecycle (.of_state rfl rfl rfl rfl)
  | begins hs => exact h.beginFlow hs (.explicit d)

theorem GenInv.startExplicit (h : GenInv w) : GenInv w.startExplicit := by
  unfold Scheduler.startExplicit
  rcases requestExplicitStart_cases w.lifecycle with ⟨r, hr, heq⟩ | ⟨-, -, -, heq⟩
  · rw [heq]
    cases r with
    | desired token => exact absurd rfl (hr token)
    | alreadyRunning => exact h
    | rejected => exact h
  · rw [heq]
    have hrequested : GenInv { w with lifecycle := w.lifecycle.requested } := h.lifecycle (.of_state rfl rfl rfl rfl)
    exact hrequested.decided (startDecisionFor_decided _ _)

theorem GenInv.refreshClaim (h : GenInv w) (i d : ℕ) : GenInv (w.refreshClaim i d) := by
  have hclaims : GenInv { w with claims := w.claims.eraseIdx i } := h.tickets
  exact hclaims.decided (startDecisionFor_decided _ _)

theorem GenInv.recoveryStart (h : GenInv w) (i : ℕ) (t : RecoveryTicket) : GenInv (w.recoveryStart i t) := by
  have hdecided := recoveryStartDecision_decided w.lifecycle t
  unfold Scheduler.recoveryStart
  generalize w.lifecycle.recoveryStartDecision t = r at hdecided ⊢
  cases hdecided with
  | denied => exact h.tickets
  | exhausted => exact (h.lifecycle (l := w.lifecycle.failGenerationExhaustion) (.of_state rfl rfl rfl rfl)).tickets
  | begins hs =>
    have hrecoveries : GenInv { w with recoveries := w.recoveries.eraseIdx i } := h.tickets
    exact hrecoveries.beginFlow hs (.recovery t)

/-- Whoever waits for a cleanup sees that it has a worker. -/
theorem GenInv.awaitCleanup (h : GenInv w) : GenInv (w.launchCleanup .wait) := by
  unfold Scheduler.launchCleanup
  exact h.elim fun g _ => h.reserveWorker g

theorem GenInv.requestCleanup (h : GenInv w) (g : ℕ) (cause : CleanupCause) : GenInv (w.requestCleanup g cause) := by
  have hbegun := beginCleanupWithCause_begun w.lifecycle g cause
  unfold Scheduler.requestCleanup
  generalize w.lifecycle.beginCleanupWithCause g cause = r at hbegun ⊢
  cases hbegun with
  | inactive => exact h
  | wait => exact h.awaitCleanup
  | stops hl => exact h.stopping hl (l := w.lifecycle.stoppingAt g) rfl rfl rfl none
  | fails hl _ r hr =>
    have hcore := SameCore.reserved hr
    exact h.stopping hl (l := r.2.stoppingAt g) rfl hcore.generation hcore.job r.1

theorem GenInv.stopWith {l : SchedulerLifecycle} {r : CleanupRequest × SchedulerLifecycle} (hr : Stopped l r)
    (h : GenInv { w with lifecycle := l }) : GenInv (w.stopWith r) := by
  have hdisabled : GenInv { w with lifecycle := l.disableDesiredRunning } := h.lifecycle (.of_state rfl rfl rfl rfl)
  cases hr with
  | inactive => exact hdisabled
  | wait => exact hdisabled.awaitCleanup
  | stops g hl => exact hdisabled.stopping (g := g) hl (l := l.disableDesiredRunning.stoppingAt g) rfl rfl rfl none

theorem GenInv.published (h : GenInv w) {l : SchedulerLifecycle} (hp : Published w.lifecycle w.cancelled g l) (publications : List ℕ) :
    GenInv { w with lifecycle := l, publications := publications } := by
  have h' := h.lifecycle (SameCore.published hp)
  exact { h' with
    launchers := fun launcher hl => (h'.launchers launcher hl).onward (.same rfl rfl) (fun _ hs => hs) fun hc => hc
    slots := fun g hj => (h'.slots g hj).onward (.same rfl rfl)
    workers := fun worker hw =>
      ⟨(h'.workers worker hw).retired.onward (.same rfl rfl), (h'.workers worker hw).drained, (h'.workers worker hw).batches⟩ }

section Flows

variable {f : StartFlow}

theorem GenInv.flowActive (h : GenInv w) (hf : w.flows[i]? = some f) :
    w.lifecycle.activeGeneration = some f.generation ∧ ∀ worker ∈ w.workers, worker.generation = f.generation → worker.phase ≠ .drained :=
  ⟨h.flows f (List.mem_of_getElem? hf), h.not_drained (ownersOf_of_flow (List.mem_of_getElem? hf))⟩

theorem GenInv.flowCheck (h : GenInv w) (hf : w.flows[i]? = some f) : GenInv (w.flowCheck i f) := by
  unfold Scheduler.flowCheck
  exact GenInv.ite (fun _ => h) fun _ => GenInv.ite (fun _ => h.setFlow hf rfl) fun _ => h.setFlow hf rfl

theorem GenInv.flowSpawn (h : GenInv w) (hf : w.flows[i]? = some f) : GenInv (w.flowSpawn i f) := by
  obtain ⟨hactive, hdrained⟩ := h.flowActive hf
  unfold Scheduler.flowSpawn
  refine GenInv.ite (fun _ => h) fun _ => ?_
  exact GenInv.addGuard (h.setFlow hf (by rfl)) hactive (by nofun) hdrained

theorem GenInv.flowRegister (h : GenInv w) (hf : w.flows[i]? = some f) (tasks : List TaskId) : GenInv (w.flowRegister i f tasks) := by
  unfold Scheduler.flowRegister
  refine GenInv.ite (fun _ => h) fun _ => ?_
  obtain ⟨registered, loops, heq⟩ := registerRequiredLoops_cases w.lifecycle f.generation tasks
  rw [heq]
  exact (h.lifecycle (l := { w.lifecycle with requiredLoops := loops }) (.of_state rfl rfl rfl rfl)).setFlow hf rfl

theorem GenInv.flowWrap (h : GenInv w) (hf : w.flows[i]? = some f) : GenInv (w.flowWrap i f) := by
  obtain ⟨hactive, hdrained⟩ := h.flowActive hf
  unfold Scheduler.flowWrap
  refine GenInv.ite (fun _ => h) fun _ => ?_
  exact GenInv.addGuard (h.setFlow hf (by rfl)) hactive (by nofun) hdrained

theorem GenInv.flowInstall (h : GenInv w) (hf : w.flows[i]? = some f) : GenInv (w.flowInstall i f) := by
  unfold Scheduler.flowInstall
  exact GenInv.ite (fun _ => h) fun _ => GenInv.ite (fun _ => h.setFlow hf rfl) fun _ => h.setFlow hf rfl

theorem GenInv.flowFinishStart (h : GenInv w) (hf : w.flows[i]? = some f) : GenInv (w.flowFinishStart i f) := by
  unfold Scheduler.flowFinishStart
  refine GenInv.ite (fun _ => h) fun _ => ?_
  rcases finishStart_cases w.lifecycle w.cancelled f.generation with heq | ⟨l, hp, heq⟩
  · rw [heq]
    show GenInv { w.setFlow i _ with publications := w.publications ++ [] }
    rw [List.append_nil]
    exact h.setFlow hf rfl
  · rw [heq]
    exact (h.published hp (w.publications ++ [f.generation])).setFlow hf rfl

theorem GenInv.flowCommit (h : GenInv w) (hf : w.flows[i]? = some f) : GenInv (w.flowCommit i f) := by
  unfold Scheduler.flowCommit
  exact GenInv.ite (fun _ => (h.lifecycle (SameCore.committed _ _)).setFlow hf rfl) fun _ => h

theorem GenInv.flowFail (h : GenInv w) (hf : w.flows[i]? = some f) : GenInv (w.flowFail i f) := by
  unfold Scheduler.flowFail
  exact GenInv.ite (fun _ => h) fun _ => h.setFlow hf rfl

theorem GenInv.flowDefer (h : GenInv w) (hf : w.flows[i]? = some f) : GenInv (w.flowDefer i f) := by
  obtain ⟨hactive, hdrained⟩ := h.flowActive hf
  unfold Scheduler.flowDefer
  refine GenInv.ite (fun _ => h) fun _ => GenInv.ite (fun _ => ?_) fun _ => GenInv.ite (fun _ => ?_) fun _ => h
  · exact GenInv.deferBatch (h.setFlow hf rfl) hactive hdrained
  · exact GenInv.deferBatch (h.setFlow hf rfl) hactive hdrained

theorem GenInv.flowCleanup (h : GenInv w) (hf : w.flows[i]? = some f) : GenInv (w.flowCleanup i f) := by
  unfold Scheduler.flowCleanup
  refine GenInv.ite (fun _ => h) fun _ => ?_
  exact GenInv.requestCleanup (h.setFlow hf (by rfl)) _ _

theorem GenInv.flowRelease (h : GenInv w) (hf : w.flows[i]? = some f) : GenInv (w.flowRelease i f) := by
  unfold Scheduler.flowRelease
  exact GenInv.ite (fun _ => h) fun _ => h.endFlow hf

end Flows

theorem GenInv.loopReady (h : GenInv w) (g : ℕ) (task : TaskId) : GenInv (w.loopReady g task) := by
  unfold Scheduler.loopReady
  obtain ⟨ready, loops, heq⟩ := markRequiredLoopReady_cases w.lifecycle g task
  rw [heq]
  exact h.lifecycle (.of_state rfl rfl rfl rfl)

theorem GenInv.loopApprove (h : GenInv w) (g : ℕ) (task : TaskId) : GenInv (w.loopApprove g task) := by
  unfold Scheduler.loopApprove
  rcases approveRequiredLoop_cases w.lifecycle w.cancelled g task with ⟨outcome, loops, hne, heq⟩ | ⟨l, hp, heq⟩
  · rw [heq]
    dsimp only
    rw [if_neg hne, List.append_nil]
    exact h.lifecycle (.of_state rfl rfl rfl rfl)
  · rw [heq]
    exact h.published hp _

theorem GenInv.launchRecovery (h : GenInv w) (i : ℕ) (t : RecoveryTicket) (outcome : LaunchOutcome) :
    GenInv (w.launchRecovery i t outcome) := by
  unfold Scheduler.launchRecovery
  cases outcome with
  | spawned => exact GenInv.ite (fun _ => h.tickets) fun _ => h.tickets
  | failed => exact h.tickets
  | noRuntime =>
    exact (h.lifecycle (l := { w.lifecycle with terminal := true }.disableDesiredRunning) (.of_state rfl rfl rfl rfl)).tickets

theorem GenInv.step (h : GenInv w) (a : SchedAct) : GenInv (w.step a) := by
  cases a with
  | startExplicit => exact h.startExplicit
  | refreshClaim i => exact h.elim fun d _ => h.refreshClaim i d
  | dropClaim i => exact h.elim fun d _ => (h.lifecycle (SameCore.claimDropped (dropStartClaim_dropped w.lifecycle d))).tickets
  | flowCheck i => exact h.elim fun _ hf => h.flowCheck hf
  | flowSpawn i => exact h.elim fun _ hf => h.flowSpawn hf
  | flowRegister i tasks => exact h.elim fun _ hf => h.flowRegister hf tasks
  | flowWrap i => exact h.elim fun _ hf => h.flowWrap hf
  | flowInstall i => exact h.elim fun _ hf => h.flowInstall hf
  | flowFinishStart i => exact h.elim fun _ hf => h.flowFinishStart hf
  | flowCommit i => exact h.elim fun _ hf => h.flowCommit hf
  | flowFail i => exact h.elim fun _ hf => h.flowFail hf
  | flowDefer i => exact h.elim fun _ hf => h.flowDefer hf
  | flowCleanup i => exact h.elim fun _ hf => h.flowCleanup hf
  | flowRelease i => exact h.elim fun _ hf => h.flowRelease hf
  | loopReady g task => exact h.loopReady g task
  | loopApprove g task => exact h.loopApprove g task
  | loopFailed g => exact h.requestCleanup g .unexpectedRequiredLoop
  | ownerEnds o => exact GenInv.ite (fun ho => h.dropGuard ho.1 ho.2) fun _ => h
  | deferHandle g => exact GenInv.ite (fun ho => h.deferHandle ho) fun _ => h
  | claimRun g task => exact h.claimRun g task
  | claimActivity => exact h.claimActivity
  | stop => exact GenInv.stopWith (beginExplicitStop_stopped w.lifecycle) h
  | shutdown =>
    exact GenInv.stopWith (beginExplicitStop_stopped { w.lifecycle with terminal := true }) (h.lifecycle (.of_state rfl rfl rfl rfl))
  | launchStep i => exact h.elim fun _ hl => h.launchStep hl
  | reserveWorker g => exact h.reserveWorker g
  | workerBegin i => exact h.elim fun _ hw => h.workerBegin hw
  | workerClaim i => exact h.elim fun _ hw => h.workerClaim hw
  | workerTake i => exact h.elim fun _ hw => h.workerTake hw
  | workerPop i => exact h.elim fun _ hw => h.workerPop hw
  | workerDrained i => exact h.elim fun _ hw => h.workerDrained hw
  | workerComplete i => exact h.elim fun _ hw => h.workerComplete hw
  | workerAbort i => exact h.elim fun _ hw => h.workerAbort hw
  | launchRecovery i outcome => exact h.elim fun t _ => h.launchRecovery i t outcome
  | recoveryStart i => exact h.elim fun t _ => h.recoveryStart i t
  | recoveryEnd i => exact h.elim fun _ _ => h.tickets
  | reconcile i => exact h.elim fun t _ => (h.lifecycle (SameCore.reconciled (reconcile_reconciled w.lifecycle t))).tickets

theorem run_genInv (as : List SchedAct) : GenInv (Steps.run Scheduler.step init as) :=
  Steps.run_inv (fun _ a h => h.step a) as _ genInv_init

end Scheduler

end EasiFlux
