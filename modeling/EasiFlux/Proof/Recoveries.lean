import EasiFlux.Proof.Lifecycle
import EasiFlux.Proof.TaskRuns

/-!
# A stop wins over every recovery and start

`TicketInv` ties the token of the desired run and the pending ticket to the tasks and
waiting starts that hold them, in every state (`run_tickets`): the pending ticket of a
desired run is held by one task and no more, and a desired run that is not up has a task
or a waiting start.

* `stop_wins`: what a stop and a shutdown end, that no ticket begins twice, and that a
  failure is followed up until a new generation has begun.
-/

namespace EasiFlux

namespace SchedulerLifecycle

variable {l : SchedulerLifecycle} {claims : List ℕ} {tasks tasks' : List RecoveryTicket} {begins : List (StartOwner × ℕ)}

/-- The tickets of the same failure and run. -/
def SameFailure (t u : RecoveryTicket) : Prop := t.failedGeneration = u.failedGeneration ∧ t.desired = u.desired

instance (t u : RecoveryTicket) : Decidable (SameFailure t u) := inferInstanceAs (Decidable (_ ∧ _))

/-- What holds of the lifecycle, the waiting starts, the tickets that some task is for and
the starts that have begun. -/
structure TicketInv (l : SchedulerLifecycle) (claims : List ℕ) (tasks : List RecoveryTicket) (begins : List (StartOwner × ℕ)) : Prop where
  handler : l.recoveryHandler = true
  active : ∀ d, l.desired = some d → d < l.nextToken ∧ d ∉ l.cancelledTokens
  cancelled : ∀ d ∈ l.cancelledTokens, d < l.nextToken
  claimTokens : ∀ d ∈ claims, d < l.nextToken
  taskTokens : ∀ t ∈ tasks, t.desired < l.nextToken
  closed : l.terminal = true ∨ l.generationExhausted = true → l.desired = none
  live : ∀ g, l.Live g → l.desired.isSome = true ∨ l.terminal = true
  generation : ∀ g, l.activeGeneration = some g → g = l.nextGeneration
  completion : ∀ g, l.state = .stopping g → l.cleanupCompletion.isSome = true
  claimsOnce : claims.Nodup
  claimsLive : ∀ g, l.Live g → ∀ d ∈ claims, l.desired ≠ some d
  claimsPending : ∀ d ∈ claims, l.desired = some d → l.pendingRecovery = none
  /-- the pending ticket of a desired run has a task, and no other is for that failure -/
  held : ∀ p, l.pendingRecovery = some p → l.desired = some p.desired → p ∈ tasks
  heldOnce : ∀ p, l.pendingRecovery = some p → l.desired = some p.desired → tasks.countP (SameFailure p ·) ≤ 1
  issued : ∀ t ∈ tasks, l.desired = some t.desired → t.failedGeneration ≤ l.nextGeneration ∧
    (t.failedGeneration = l.nextGeneration → l.IsPending t)
  issuedLive : ∀ g, l.Live g → ∀ t ∈ tasks, l.desired = some t.desired → t.failedGeneration < l.nextGeneration
  /-- a desired run that is not up is waited for -/
  served : (∀ g, ¬l.Live g) → ∀ d, l.desired = some d → d ∈ claims ∨ ∃ p, l.pendingRecovery = some p ∧ p.desired = d
  begun : ∀ t g, (StartOwner.recovery t, g) ∈ begins → t.failedGeneration < g ∧ g ≤ l.nextGeneration
  later : (∀ g, ¬l.Live g) → ∀ p, l.pendingRecovery = some p → l.desired = some p.desired →
    ∀ t g, (StartOwner.recovery t, g) ∈ begins → t.desired = p.desired → t.failedGeneration < p.failedGeneration
  beginsOnce : begins.Pairwise fun a b => ∀ t u, a.1 = .recovery t → b.1 = .recovery u → ¬SameFailure t u

namespace TicketInv

/-- The token in place is active. -/
theorem isDesired_iff (h : TicketInv l claims tasks begins) {d : ℕ} : l.IsDesired d ↔ l.desired = some d :=
  ⟨And.left, fun hd => ⟨hd, (h.active d hd).2⟩⟩

theorem perm (h : TicketInv l claims tasks begins) (hp : tasks.Perm tasks') : TicketInv l claims tasks' begins :=
  { h with
    taskTokens := fun t ht => h.taskTokens t (hp.mem_iff.2 ht)
    held := fun p hpend hd => hp.mem_iff.1 (h.held p hpend hd)
    heldOnce := fun p hpend hd => hp.countP_eq _ ▸ h.heldOnce p hpend hd
    issued := fun t ht => h.issued t (hp.mem_iff.2 ht)
    issuedLive := fun g hg t ht => h.issuedLive g hg t (hp.mem_iff.2 ht) }

theorem new : TicketInv new [] [] [] := by
  constructor <;> simp [SchedulerLifecycle.new, Live, activeGeneration]

/-- A run that is not desired asks for nothing. -/
theorem undesired (h : TicketInv l claims tasks begins) {l' : SchedulerLifecycle} (hd : l'.desired = none)
    (hhandler : l'.recoveryHandler = true) (hc : ∀ d ∈ l'.cancelledTokens, d < l.nextToken) (htoken : l'.nextToken = l.nextToken)
    (hlive : ∀ g, l'.Live g → l'.terminal = true) (hgen : ∀ g, l'.activeGeneration = some g → g = l'.nextGeneration)
    (hcompletion : ∀ g, l'.state = .stopping g → l'.cleanupCompletion.isSome = true) (hnext : l'.nextGeneration = l.nextGeneration) :
    TicketInv l' claims tasks begins := by
  refine ⟨hhandler, ?_, fun d hd => htoken ▸ hc d hd, fun d hd => htoken ▸ h.claimTokens d hd,
    fun t ht => htoken ▸ h.taskTokens t ht, fun _ => hd, fun g hg => .inr (hlive g hg), hgen, hcompletion, h.claimsOnce, ?_, ?_, ?_, ?_,
    ?_, ?_, ?_, fun t g hb => hnext ▸ h.begun t g hb, ?_, h.beginsOnce⟩
  all_goals
    intros
    simp_all

theorem disable (h : TicketInv l claims tasks begins) (hl : ∀ g, ¬l.Live g) : TicketInv l.disableDesiredRunning claims tasks begins := by
  refine h.undesired rfl h.handler (fun d hd => ?_) rfl (fun g hg => absurd hg (hl g)) h.generation h.completion rfl
  rcases List.mem_append.1 hd with hd | hd
  · exact (h.active d (Option.mem_toList.1 hd)).1
  · exact h.cancelled d hd

theorem exhaust (h : TicketInv l claims tasks begins) (hs : l.state = .stopped) :
    TicketInv l.failGenerationExhaustion claims tasks begins := by
  have hd := h.disable fun g => not_live_of_stopped hs
  exact { hd with closed := fun _ => rfl }

/-- The scheduler is shut for good. -/
theorem shut (h : TicketInv l claims tasks begins) : TicketInv { l with terminal := true }.disableDesiredRunning claims tasks begins := by
  refine h.undesired rfl h.handler (fun d hd => ?_) rfl (fun _ _ => rfl) h.generation h.completion rfl
  rcases List.mem_append.1 hd with hd | hd
  · exact (h.active d (Option.mem_toList.1 hd)).1
  · exact h.cancelled d hd

theorem stoppingAt (h : TicketInv l claims tasks begins) (hd : l.desired = none) {g : ℕ} (hg : g = l.nextGeneration) :
    TicketInv (l.stoppingAt g) claims tasks begins := by
  refine h.undesired hd h.handler h.cancelled rfl (fun g' hl => ?_) (fun g' hg' => ?_) (fun _ _ => rfl) rfl
  · exact absurd hl (not_live_of_stopping rfl)
  · obtain rfl := Option.some.inj hg'
    exact hg

/-- A stop, or a shutdown when `terminal` is set. -/
theorem stop (h : TicketInv l claims tasks begins) {r : CleanupRequest × SchedulerLifecycle} (hr : Stopped l r) :
    TicketInv r.2 claims tasks begins := by
  cases hr with
  | inactive hl => exact h.disable hl
  | wait g hs => exact h.disable fun _ => not_live_of_stopping hs
  | stops g hl =>
    refine h.undesired rfl h.handler (fun d hd => ?_) rfl (fun g' hl' => ?_) (fun g' hg' => ?_) (fun _ _ => rfl) rfl
    · rcases List.mem_append.1 hd with hd | hd
      · exact (h.active d (Option.mem_toList.1 hd)).1
      · exact h.cancelled d hd
    · exact absurd hl' (not_live_of_stopping rfl)
    · obtain rfl := Option.some.inj hg'
      exact h.generation _ (activeGeneration_of_live hl)

theorem shutdown (h : TicketInv l claims tasks begins) {r : CleanupRequest × SchedulerLifecycle}
    (hr : Stopped { l with terminal := true } r) : TicketInv r.2 claims tasks begins := by
  cases hr with
  | inactive hl => exact h.shut
  | wait g hs => exact h.shut
  | stops g hl => exact h.shut.stoppingAt rfl (h.generation _ (activeGeneration_of_live hl))

theorem permClaims (h : TicketInv l claims tasks begins) {claims' : List ℕ} (hp : claims.Perm claims') :
    TicketInv l claims' tasks begins :=
  { h with
    claimTokens := fun d hd => h.claimTokens d (hp.mem_iff.2 hd)
    claimsOnce := hp.nodup_iff.1 h.claimsOnce
    claimsLive := fun g hg d hd => h.claimsLive g hg d (hp.mem_iff.2 hd)
    claimsPending := fun d hd => h.claimsPending d (hp.mem_iff.2 hd)
    served := fun hl d hd => (h.served hl d hd).imp_left hp.mem_iff.1 }

/-- A new explicit start waits: whatever there is was for another run. -/
theorem requested (h : TicketInv l claims tasks begins) (ht : l.terminal = false) (he : l.generationExhausted = false)
    (hl : ∀ g, ¬l.Live g) : TicketInv l.requested (l.nextToken :: claims) tasks begins := by
  have hnew : ∀ d, l.requested.desired = some d → d = l.nextToken := fun d hd => (Option.some.inj hd).symm
  have hold : ∀ t ∈ tasks, l.requested.desired ≠ some t.desired := by
    intro t htask hd
    have hlt := h.taskTokens t htask
    rw [hnew _ hd] at hlt
    exact lt_irrefl _ hlt
  have hcancelled : ∀ d ∈ l.requested.cancelledTokens, d < l.nextToken := by
    intro d hd
    rcases List.mem_append.1 hd with hd | hd
    · exact (h.active d (Option.mem_toList.1 hd)).1
    · exact h.cancelled d hd
  refine ⟨h.handler, fun d hd => ?_, fun d hd => Nat.lt_succ_of_lt (hcancelled d hd), fun d hd => ?_,
    fun t ht => Nat.lt_succ_of_lt (h.taskTokens t ht), fun hc => ?_, fun g hg => absurd hg (hl g), h.generation, h.completion, ?_,
    fun g hg => absurd hg (hl g), fun _ _ _ => rfl, (fun _ hp => nomatch hp), (fun _ hp => nomatch hp),
    fun t ht hd => absurd hd (hold t ht), fun g hg => absurd hg (hl g), fun _ d hd => ?_, h.begun, (fun _ _ hp => nomatch hp),
    h.beginsOnce⟩
  · rw [hnew d hd]
    exact ⟨Nat.lt_succ_self _, fun hmem => lt_irrefl _ (hcancelled _ hmem)⟩
  · rcases List.mem_cons.1 hd with rfl | hd
    · exact Nat.lt_succ_self _
    · exact Nat.lt_succ_of_lt (h.claimTokens d hd)
  · rcases hc with hc | hc
    · rw [show l.requested.terminal = l.terminal from rfl, ht] at hc
      cases hc
    · rw [show l.requested.generationExhausted = l.generationExhausted from rfl, he] at hc
      cases hc
  · exact List.nodup_cons.2 ⟨fun hmem => lt_irrefl _ (h.claimTokens _ hmem), h.claimsOnce⟩
  · rw [hnew d hd]
    exact .inl List.mem_cons_self

/-- A generation begins: everything that was issued is of an earlier one. -/
theorem started (h : TicketInv l claims tasks begins) {rest : List ℕ} (hsub : rest.Sublist claims) (hs : l.state = .stopped)
    {owner : StartOwner} (hd : l.desired = some owner.token) (hclaims : owner.token ∉ rest)
    (howner : ∀ t, owner = .recovery t → t ∈ tasks ∧ l.IsPending t) :
    TicketInv (l.started (l.nextGeneration + 1)) rest tasks (begins ++ [(owner, l.nextGeneration + 1)]) := by
  have hnl : ∀ g, ¬l.Live g := fun g => not_live_of_stopped hs
  have hlive : (l.started (l.nextGeneration + 1)).Live (l.nextGeneration + 1) := .inl rfl
  have hfailed : ∀ t ∈ tasks, l.desired = some t.desired → t.failedGeneration < l.nextGeneration + 1 :=
    fun t ht hd => Nat.lt_succ_of_le (h.issued t ht hd).1
  refine ⟨h.handler, h.active, h.cancelled, fun d hd => h.claimTokens d (hsub.subset hd), h.taskTokens, h.closed, fun _ _ => .inl ?_,
    fun g hg => ?_, nofun, hsub.nodup h.claimsOnce, fun _ _ d hmem hd' => ?_, fun d hd => h.claimsPending d (hsub.subset hd), h.held, h.heldOnce, fun t ht hd => ⟨(hfailed t ht hd).le, fun he => ?_⟩,
    fun _ _ t ht hd => hfailed t ht hd, fun hnl => absurd hlive (hnl _), fun t g hmem => ?_, fun hnl => absurd hlive (hnl _), ?_⟩
  · show l.desired.isSome = true
    rw [hd]
    rfl
  · obtain rfl := Option.some.inj hg
    rfl
  · have htoken : some owner.token = some d := hd.symm.trans hd'
    obtain rfl := Option.some.inj htoken
    exact hclaims hmem
  · exact absurd he (hfailed t ht hd).ne
  · rcases List.mem_append.1 hmem with hmem | hmem
    · obtain ⟨hlt, hle⟩ := h.begun t g hmem
      exact ⟨hlt, hle.trans (Nat.le_succ _)⟩
    · obtain ⟨ho, rfl⟩ := Prod.mk.inj (List.mem_singleton.1 hmem)
      obtain ⟨ht, -⟩ := howner t ho.symm
      rw [← ho] at hd
      exact ⟨hfailed t ht hd, le_rfl⟩
  · -- a ticket that begins is for a later failure than every one that has begun
    rw [List.pairwise_append]
    refine ⟨h.beginsOnce, List.pairwise_singleton _ _, fun a ha b hb t u hat hbu hsame => ?_⟩
    rw [List.mem_singleton.1 hb] at hbu
    obtain ⟨-, p, hp, hpf, hpd⟩ := howner u hbu
    have hdp : l.desired = some p.desired := by
      rw [hd, hpd, show owner = .recovery u from hbu]
      rfl
    obtain ⟨a1, g⟩ := a
    obtain rfl : a1 = .recovery t := hat
    have hlt := h.later hnl p hp hdp t g ha (hsame.2.trans hpd.symm)
    rw [hpf, hsame.1] at hlt
    exact lt_irrefl _ hlt

/-- The claim of a waiting start is answered. -/
theorem decided (h : TicketInv l claims tasks begins) {d : ℕ} {rest : List ℕ} (hc : claims.Perm (d :: rest))
    {r : StartDecision × SchedulerLifecycle} (hr : Decided l d r) :
    match r.1 with
    | .begin g => TicketInv r.2 rest tasks (begins ++ [(.explicit d, g)])
    | .wait => TicketInv r.2 claims tasks begins
    | _ => TicketInv r.2 rest tasks begins := by
  have h' := h.permClaims hc
  have hnodup := List.nodup_cons.1 h'.claimsOnce
  -- a claim whose run is not desired can go
  have hgone : (∀ d', l.desired = some d' → (∀ g, ¬l.Live g) → d' ≠ d) → TicketInv l rest tasks begins := by
    intro hne
    refine { h' with
      claimTokens := fun d hd => h'.claimTokens d (List.mem_cons_of_mem _ hd)
      claimsOnce := hnodup.2
      claimsLive := fun g hg d hd => h'.claimsLive g hg d (List.mem_cons_of_mem _ hd)
      claimsPending := fun d hd => h'.claimsPending d (List.mem_cons_of_mem _ hd)
      served := fun hl d' hd' => ?_ }
    rcases h'.served hl d' hd' with hmem | hp
    · rcases List.mem_cons.1 hmem with rfl | hmem
      · exact absurd rfl (hne _ hd' hl)
      · exact .inl hmem
    · exact .inr hp
  cases hr with
  | denied hden =>
    refine hgone fun d' hd' _ heq => ?_
    rcases hden with hden | hden | hden
    · rw [h.closed (.inl hden)] at hd'
      cases hd'
    · rw [h.closed (.inr hden)] at hd'
      cases hd'
    · rw [heq] at hd'
      exact hden (h.isDesired_iff.2 hd')
  | busy g hlive => exact hgone fun _ _ hl => absurd hlive (hl g)
  | waits g hs hd => exact h
  | lost g hs hnone =>
    have hsome := h.completion g hs
    rw [hnone] at hsome
    cases hsome
  | exhausted hs =>
    have hx := h'.exhaust hs
    exact { hx with
      claimTokens := fun d hd => hx.claimTokens d (List.mem_cons_of_mem _ hd)
      claimsOnce := hnodup.2
      claimsLive := fun g hg d hd => hx.claimsLive g hg d (List.mem_cons_of_mem _ hd)
      claimsPending := fun d hd => hx.claimsPending d (List.mem_cons_of_mem _ hd)
      served := nofun }
  | begins hs ht he hd =>
    exact h'.started (List.sublist_cons_self _ _) hs hd.1 hnodup.1 nofun

/-- A recovery asks for its start. -/
theorem recoveryDecided (h : TicketInv l claims tasks begins) {t : RecoveryTicket} (ht : t ∈ tasks)
    {r : StartDecision × SchedulerLifecycle} (hr : RecoveryDecided l t r) :
    match r.1 with
    | .begin g => TicketInv r.2 claims tasks (begins ++ [(.recovery t, g)])
    | _ => TicketInv r.2 claims tasks begins := by
  cases hr with
  | denied => exact h
  | exhausted hs => exact h.exhaust hs
  | begins hs hterm he hp hd =>
    refine h.started (List.Sublist.refl _) hs hd.1 (fun hmem => ?_) fun u hu => ?_
    · -- a run whose start waits has no pending ticket
      obtain ⟨p, hpend, -⟩ := hp
      rw [h.claimsPending _ hmem hd.1] at hpend
      cases hpend
    · obtain rfl := StartOwner.recovery.inj hu
      exact ⟨ht, hp⟩

/-- A ticket is issued for the last generation, which is not up any more. -/
theorem granted (h : TicketInv l claims tasks begins) {t : RecoveryTicket} {rest : List ℕ} (hsub : rest.Sublist claims)
    {state : LifecycleState} {completion control : Option ℕ} (hd : l.desired = some t.desired)
    (hfailed : t.failedGeneration = l.nextGeneration)
    (hbefore : ∀ u ∈ tasks, l.desired = some u.desired → u.failedGeneration < l.nextGeneration) (hclaims : t.desired ∉ rest)
    (hstate : state = .stopped ∨ state = .stopping l.nextGeneration)
    (hcompletion : ∀ g, state = .stopping g → completion.isSome = true) :
    TicketInv { l.withTicket t with state := state, cleanupCompletion := completion, control := control } rest (t :: tasks) begins := by
  set l' : SchedulerLifecycle := { l.withTicket t with state := state, cleanupCompletion := completion, control := control } with hl'
  -- nothing is live, and the ticket is the one that is pending
  have hnl : ∀ g, ¬l'.Live g := by
    intro g
    rcases hstate with hs | hs
    · exact not_live_of_stopped hs
    · exact not_live_of_stopping hs
  have hpending : ∀ p, l'.pendingRecovery = some p → p = t := fun p hp => (Option.some.inj hp).symm
  refine ⟨h.handler, h.active, h.cancelled, fun d hd => h.claimTokens d (hsub.subset hd), fun u hu => ?_, h.closed,
    fun g hg => absurd hg (hnl g), fun g hg => ?_, hcompletion, hsub.nodup h.claimsOnce, fun g hg => absurd hg (hnl g),
    fun d hmem hd' => ?_, fun p hp _ => ?_, fun p hp _ => ?_, fun u hu hd' => ?_, fun g hg => absurd hg (hnl g),
    fun _ d hd' => .inr ⟨t, rfl, ?_⟩, h.begun, fun _ p hp _ u g hmem _ => ?_, h.beginsOnce⟩
  · rcases List.mem_cons.1 hu with rfl | hu
    · exact (h.active _ hd).1
    · exact h.taskTokens u hu
  · rcases hstate with hs | hs
    · rw [activeGeneration, show l'.state = .stopped from hs] at hg
      cases hg
    · rw [activeGeneration, show l'.state = .stopping l.nextGeneration from hs] at hg
      exact (Option.some.inj hg).symm
  · obtain rfl := Option.some.inj (hd.symm.trans hd')
    exact absurd hmem hclaims
  · rw [hpending p hp]
    exact List.mem_cons_self
  · -- the other tasks are of earlier failures:
    have hzero : tasks.countP (SameFailure t ·) = 0 := by
      refine List.countP_eq_zero.2 fun u hu hsame => ?_
      obtain ⟨hf, hd'⟩ : SameFailure t u := of_decide_eq_true hsame
      have hlt := hbefore u hu (hd' ▸ hd)
      omega
    rw [hpending p hp, List.countP_cons_of_pos (by simp [SameFailure]), hzero]
  · rcases List.mem_cons.1 hu with rfl | hu
    · exact ⟨hfailed.le, fun _ => ⟨_, rfl, rfl, rfl⟩⟩
    · have hlt := hbefore u hu hd'
      exact ⟨hlt.le, fun he => absurd he hlt.ne⟩
  · exact Option.some.inj (hd.symm.trans hd')
  · -- what was begun before is of an earlier failure, too:
    obtain ⟨hlt, hle⟩ := h.begun u g hmem
    rw [hpending p hp, hfailed]
    omega

/-- A generation that was up fails: a ticket is reserved for it. -/
theorem fails (h : TicketInv l claims tasks begins) {g : ℕ} (hl : l.Live g) {r : Option RecoveryTicket × SchedulerLifecycle}
    (hr : Reserved l g r) : TicketInv (r.2.stoppingAt g) claims (r.1.toList ++ tasks) begins := by
  have hg : g = l.nextGeneration := h.generation g (activeGeneration_of_live hl)
  cases hr with
  | refused hno =>
    -- the run is not desired: else there would be nothing to refuse the ticket for
    refine h.stoppingAt ?_ hg
    rcases hno with hno | hno | hno | hno | ⟨d, hd, hno⟩
    · exact h.closed (.inl hno)
    · exact h.closed (.inr hno)
    · exact hno
    · rw [h.handler] at hno
      cases hno
    · rcases hno with hno | ⟨p, hp, hpf, hpd⟩
      · exact absurd hno (h.active d hd).2
      · have hdp : l.desired = some p.desired := hd.trans (congrArg some hpd.symm)
        have hlt := h.issuedLive g hl p (h.held p hp hdp) hdp
        rw [hpf, ← hg] at hlt
        exact absurd hlt (lt_irrefl g)
  | granted d attempt hd hp =>
    refine h.granted (List.Sublist.refl _) (t := ⟨g, attempt, d⟩) hd.1 hg (h.issuedLive g hl) (fun hmem => ?_) (.inr (by rw [hg]))
      fun _ _ => rfl
    exact h.claimsLive g hl d hmem hd.1

/-- A waiting start is dropped: a recovery takes its place. -/
theorem claimDropped (h : TicketInv l claims tasks begins) {d : ℕ} {rest : List ℕ} (hc : claims.Perm (d :: rest))
    {r : Option RecoveryTicket × SchedulerLifecycle} (hr : ClaimDropped l d r) : TicketInv r.2 rest (r.1.toList ++ tasks) begins := by
  have h' := h.permClaims hc
  have hnodup := List.nodup_cons.1 h'.claimsOnce
  cases hr with
  | stale hstale =>
    have hden : Decided l d (.exhausted, l) := .denied (.inr (.inr hstale))
    exact h.decided hc hden
  | reserves hd r hr =>
    -- while the claim waits nothing is live and no ticket is pending:
    have hnl : ∀ g, ¬l.Live g := fun g hl => h'.claimsLive g hl d List.mem_cons_self hd.1
    have hnone := h'.claimsPending d List.mem_cons_self hd.1
    have hgen : l.activeGeneration.getD l.nextGeneration = l.nextGeneration := by
      cases hactive : l.activeGeneration with
      | none => rfl
      | some g => exact h.generation g hactive
    rw [hgen] at hr
    have hnp : ∀ t, ¬l.IsPending t := by
      rintro t ⟨p, hp, -⟩
      rw [hnone] at hp
      cases hp
    cases hr with
    -- none of the reasons to refuse holds:
    | refused hno =>
      exfalso
      rcases hno with hno | hno | hno | hno | ⟨d', hd', hno⟩
      · have hn := h.closed (.inl hno)
        rw [hd.1] at hn
        cases hn
      · have hn := h.closed (.inr hno)
        rw [hd.1] at hn
        cases hn
      · rw [hd.1] at hno
        cases hno
      · rw [h.handler] at hno
        cases hno
      · rcases hno with hno | hno
        · exact (h.active d' hd').2 hno
        · exact hnp _ hno
    | granted d' attempt hd' hp =>
      obtain rfl := Option.some.inj (hd.1.symm.trans hd'.1)
      refine h'.granted (List.sublist_cons_self _ _) (t := ⟨l.nextGeneration, attempt, d⟩) hd.1 rfl (fun u hu hdu => ?_) hnodup.1 ?_
        h.completion
      · obtain ⟨hle, hpend⟩ := h.issued u hu hdu
        exact lt_of_le_of_ne hle fun he => hnp u (hpend he)
      · -- the failure is that of the generation which ended last:
        cases hs : l.state with
        | stopped => exact .inl rfl
        | stopping g =>
          have hactive : l.activeGeneration = some g := by rw [activeGeneration, hs]
          rw [h.generation g hactive]
          exact .inr rfl
        | starting g => exact absurd (.inl hs) (hnl g)
        | running g => exact absurd (.inr hs) (hnl g)

/-- A task that is not for the pending ticket can go. -/
theorem dropTask (h : TicketInv l claims tasks begins) {t : RecoveryTicket} {rest : List RecoveryTicket} (hp : tasks.Perm (t :: rest))
    (hc : ¬l.IsCurrent t) : TicketInv l claims rest begins := by
  have h' := h.perm hp
  refine { h' with
    taskTokens := fun u hu => h'.taskTokens u (List.mem_cons_of_mem _ hu)
    held := fun p hpend hd => ?_
    heldOnce := fun p hpend hd => (List.Sublist.countP_le (List.sublist_cons_self _ _)).trans (h'.heldOnce p hpend hd)
    issued := fun u hu => h'.issued u (List.mem_cons_of_mem _ hu)
    issuedLive := fun g hg u hu => h'.issuedLive g hg u (List.mem_cons_of_mem _ hu) }
  rcases List.mem_cons.1 (h'.held p hpend hd) with rfl | hmem
  · exact absurd ⟨hpend, h.isDesired_iff.2 hd⟩ hc
  · exact hmem

/-- The task of a ticket is gone: the next attempt takes its place. -/
theorem reconciled (h : TicketInv l claims tasks begins) {t : RecoveryTicket} {rest : List RecoveryTicket} (hp : tasks.Perm (t :: rest))
    {r : Option RecoveryTicket × SchedulerLifecycle} (hr : Reconciled l t r) : TicketInv r.2 claims (r.1.toList ++ rest) begins := by
  cases hr with
  -- a ticket that is not current is dropped:
  | dead hdead =>
    refine h.dropTask hp fun hc => ?_
    rcases hdead with hdead | hdead | hdead
    · have hn := h.closed (.inl hdead)
      rw [hc.2.1] at hn
      cases hn
    · have hn := h.closed (.inr hdead)
      rw [hc.2.1] at hn
      cases hn
    · exact hdead hc
  | again attempt hc next hn =>
    obtain rfl := hn h.handler
    have h' := h.perm hp
    set u : RecoveryTicket := { t with attempt := attempt } with hu
    have hpending : ∀ p, (l.withTicket u).pendingRecovery = some p → p = u := fun p hp => (Option.some.inj hp).symm
    have hpair : ∀ v, SameFailure u v ↔ SameFailure t v := fun _ => Iff.rfl
    -- the new ticket is of the same failure, and no other task is
    have hrest : rest.countP (SameFailure u ·) = 0 := by
      have hle := h'.heldOnce t hc.1 hc.2.1
      rw [List.countP_cons_of_pos (by simp [SameFailure])] at hle
      exact Nat.le_zero.1 (Nat.le_of_succ_le_succ hle)
    refine { h' with
      taskTokens := fun v hv => ?_
      claimsPending := fun d hd hdes => ?_
      held := fun p hpend _ => ?_
      heldOnce := fun p hpend _ => ?_
      issued := fun v hv hd => ?_
      issuedLive := fun g hg v hv hd => ?_
      served := fun _ d hd => .inr ⟨u, rfl, ?_⟩
      later := fun hl p hpend hd => ?_ }
    · rcases List.mem_cons.1 hv with rfl | hv
      · exact h'.taskTokens t List.mem_cons_self
      · exact h'.taskTokens v (List.mem_cons_of_mem _ hv)
    · -- a claim for the desired run would exclude the pending ticket:
      have hn := h.claimsPending d hd hdes
      rw [hc.1] at hn
      cases hn
    · rw [hpending p hpend]
      exact List.mem_cons_self
    · rw [hpending p hpend]
      show List.countP (SameFailure u ·) (u :: rest) ≤ 1
      rw [List.countP_cons_of_pos (by simp [SameFailure]), hrest]
    · -- what was issued for this failure is pending still:
      rcases List.mem_cons.1 hv with rfl | hv
      · exact ⟨(h'.issued t List.mem_cons_self hd).1, fun _ => ⟨u, rfl, rfl, rfl⟩⟩
      · obtain ⟨hle, hpend⟩ := h'.issued v (List.mem_cons_of_mem _ hv) hd
        refine ⟨hle, fun he => ?_⟩
        obtain ⟨p, hp, hpf, hpd⟩ := hpend he
        obtain rfl := Option.some.inj (hc.1.symm.trans hp)
        exact ⟨u, rfl, hpf, hpd⟩
    · rcases List.mem_cons.1 hv with rfl | hv
      · exact h'.issuedLive g hg t List.mem_cons_self hd
      · exact h'.issuedLive g hg v (List.mem_cons_of_mem _ hv) hd
    · exact Option.some.inj (hc.2.1.symm.trans hd)
    · rw [hpending p hpend]
      exact h'.later hl t hc.1 hc.2.1

/-- The start has been committed: what it recovered from is settled. -/
theorem committed (h : TicketInv l claims tasks begins) (g : ℕ) : TicketInv (l.markStartCommitted g) claims tasks begins := by
  unfold markStartCommitted
  split
  · exact h
  · rename_i hrun
    rw [not_not] at hrun
    have hlive : l.Live g := .inr hrun
    refine { h with
      claimsPending := fun _ _ _ => rfl
      held := nofun
      heldOnce := nofun
      issued := fun t ht hd => ?_
      served := fun hl => absurd hlive (hl g)
      later := fun hl => absurd hlive (hl g) }
    have hlt := h.issuedLive g hlive t ht hd
    exact ⟨hlt.le, fun he => absurd he hlt.ne⟩

/-- What the start and the supervisors write, and the cleanup's slot. -/
theorem frame (h : TicketInv l claims tasks begins) (loops : List (TaskId × RequiredLoopStatus)) (control job : Option ℕ) :
    TicketInv { l with requiredLoops := loops, control := control, cleanupJob := job } claims tasks begins :=
  { h with }

/-- A generation that is up stays up: the state moves from starting to running. -/
theorem published (h : TicketInv l claims tasks begins) {cancelled : ℕ → Bool} {g : ℕ} {l' : SchedulerLifecycle}
    (hp : Published l cancelled g l') : TicketInv l' claims tasks begins := by
  obtain ⟨l₁, hs, hl₁, -, -, -, -⟩ := hp
  have h₁ : TicketInv l₁ claims tasks begins := hl₁ ▸ h.frame _ l.control l.cleanupJob
  have hs₁ : l₁.state = .starting g := by rw [hl₁]; exact hs
  have hlive : ∀ g', Live { l₁ with state := .running g } g' → l₁.Live g' := by
    rintro g' (hs' | hs')
    · cases hs'
    · obtain rfl := LifecycleState.running.inj hs'
      exact .inl hs₁
  have hup : Live { l₁ with state := .running g } g := .inr rfl
  refine { h₁ with
    live := fun g' hg' => h₁.live g' (hlive g' hg')
    generation := fun g' hg' => ?_
    completion := nofun
    claimsLive := fun g' hg' => h₁.claimsLive g' (hlive g' hg')
    issuedLive := fun g' hg' => h₁.issuedLive g' (hlive g' hg')
    served := fun hl => absurd hup (hl g)
    later := fun hl => absurd hup (hl g) }
  obtain rfl := Option.some.inj hg'
  exact h₁.generation _ (by rw [activeGeneration, hs₁])

/-- The cleanup of a generation is done. -/
theorem cleaned (h : TicketInv l claims tasks begins) (g : ℕ) : TicketInv (l.finishCleanup g).2 claims tasks begins := by
  unfold finishCleanup
  split
  · exact h
  · rename_i hs
    rw [not_not] at hs
    have hnl : ∀ g', ¬l.Live g' := fun g' => not_live_of_stopping hs
    have hnl' : ∀ (l' : SchedulerLifecycle) g', l'.state = .stopped → ¬l'.Live g' := fun _ _ hs => not_live_of_stopped hs
    exact { h with
      live := fun g' hg' => absurd hg' (hnl' _ g' rfl)
      generation := nofun
      completion := nofun
      claimsLive := fun g' hg' => absurd hg' (hnl' _ g' rfl)
      issuedLive := fun g' hg' => absurd hg' (hnl' _ g' rfl)
      served := fun _ => h.served hnl
      later := fun _ => h.later hnl }

end TicketInv

/-- What a step can do to the run that is desired; `stop` says that it is a stop. -/
structure Moves (stop : Prop) (l l' : SchedulerLifecycle) : Prop where
  token : l.nextToken ≤ l'.nextToken
  desired : ∀ d, l'.desired = some d → l.desired = some d ∨ l.nextToken ≤ d
  terminal : l.terminal = true → l'.terminal = true
  exhausted : l.generationExhausted = true → l'.generationExhausted = true
  generation : l.nextGeneration ≤ l'.nextGeneration
  live : (∀ g, ¬l.Live g) → l'.nextGeneration = l.nextGeneration → ∀ g, ¬l'.Live g
  kept : l'.desired = none → l.desired = none ∨ l'.terminal = true ∨ l'.generationExhausted = true ∨ stop

namespace Moves

variable {stop : Prop} {l' l'' : SchedulerLifecycle}

theorem refl (l : SchedulerLifecycle) : Moves stop l l :=
  ⟨le_rfl, fun _ h => .inl h, fun h => h, fun h => h, le_rfl, fun h _ => h, .inl⟩

theorem trans (h : Moves stop l l') (h' : Moves stop l' l'') : Moves stop l l'' := by
  refine ⟨h.token.trans h'.token, fun d hd => ?_, fun ht => h'.terminal (h.terminal ht), fun ht => h'.exhausted (h.exhausted ht),
    h.generation.trans h'.generation, fun hl hg => ?_, fun hn => ?_⟩
  · rcases h'.desired d hd with hd' | hd'
    · exact h.desired d hd'
    · exact .inr (h.token.trans hd')
  · have h₁ := h.generation
    have h₂ := h'.generation
    exact h'.live (h.live hl (by omega)) (by omega)
  · rcases h'.kept hn with hn' | hn'
    · rcases h.kept hn' with hn'' | hn'' | hn'' | hn''
      · exact .inl hn''
      · exact .inr (.inl (h'.terminal hn''))
      · exact .inr (.inr (.inl (h'.exhausted hn'')))
      · exact .inr (.inr (.inr hn''))
    · exact .inr hn'

theorem disable (hs : stop) (l : SchedulerLifecycle) : Moves stop l l.disableDesiredRunning :=
  ⟨le_rfl, nofun, fun h => h, fun h => h, le_rfl, fun h _ => h, fun _ => .inr (.inr (.inr hs))⟩

theorem exhaust (l : SchedulerLifecycle) : Moves stop l l.failGenerationExhaustion :=
  ⟨le_rfl, nofun, fun h => h, fun _ => rfl, le_rfl, fun h _ => h, fun _ => .inr (.inr (.inl rfl))⟩

theorem shut (l : SchedulerLifecycle) : Moves stop l { l with terminal := true }.disableDesiredRunning :=
  ⟨le_rfl, nofun, fun _ => rfl, fun h => h, le_rfl, fun h _ => h, fun _ => .inr (.inl rfl)⟩

theorem started (l : SchedulerLifecycle) : Moves stop l (l.started (l.nextGeneration + 1)) :=
  ⟨le_rfl, fun _ h => .inl h, fun h => h, fun h => h, Nat.le_succ _, fun _ h => absurd h (Nat.succ_ne_self _), .inl⟩

theorem stoppingAt (l : SchedulerLifecycle) (g : ℕ) : Moves stop l (l.stoppingAt g) :=
  ⟨le_rfl, fun _ h => .inl h, fun h => h, fun h => h, le_rfl, fun _ _ _ => not_live_of_stopping rfl, .inl⟩

theorem withTicket (l : SchedulerLifecycle) (t : RecoveryTicket) : Moves stop l (l.withTicket t) :=
  ⟨le_rfl, fun _ h => .inl h, fun h => h, fun h => h, le_rfl, fun h _ => h, .inl⟩

theorem requested (l : SchedulerLifecycle) : Moves stop l l.requested :=
  ⟨Nat.le_succ _, fun _ h => .inr (Option.some.inj h).le, fun h => h, fun h => h, le_rfl, fun h _ => h, nofun⟩

theorem frame (l : SchedulerLifecycle) (loops : List (TaskId × RequiredLoopStatus)) (control job : Option ℕ) :
    Moves stop l { l with requiredLoops := loops, control := control, cleanupJob := job } :=
  ⟨le_rfl, fun _ h => .inl h, fun h => h, fun h => h, le_rfl, fun h _ => h, .inl⟩

theorem decided {token : ℕ} {r : StartDecision × SchedulerLifecycle} (h : Decided l token r) : Moves stop l r.2 := by
  cases h with
  | exhausted => exact exhaust l
  | begins => exact started l
  | _ => exact refl l

theorem recoveryDecided {t : RecoveryTicket} {r : StartDecision × SchedulerLifecycle} (h : RecoveryDecided l t r) : Moves stop l r.2 := by
  cases h with
  | exhausted => exact exhaust l
  | begins => exact started l
  | denied => exact refl l

theorem reserved {g : ℕ} {r : Option RecoveryTicket × SchedulerLifecycle} (h : Reserved l g r) : Moves stop l r.2 := by
  cases h with
  | refused => exact refl l
  | granted d attempt => exact withTicket l ⟨g, attempt, d⟩

theorem cleanupBegun {g : ℕ} {cause : CleanupCause} {r : CleanupRequest × SchedulerLifecycle} (h : CleanupBegun l g cause r) :
    Moves stop l r.2 := by
  cases h with
  | inactive => exact refl l
  | wait => exact refl l
  | stops => exact stoppingAt l g
  | fails _ _ r hr => exact (reserved hr).trans (stoppingAt r.2 g)

theorem stopped (hs : stop) {r : CleanupRequest × SchedulerLifecycle} (h : Stopped l r) : Moves stop l r.2 := by
  cases h with
  | inactive => exact disable hs l
  | wait => exact disable hs l
  | stops g => exact (disable hs l).trans (stoppingAt _ g)

theorem claimDropped {d : ℕ} {r : Option RecoveryTicket × SchedulerLifecycle} (h : ClaimDropped l d r) : Moves stop l r.2 := by
  cases h with
  | stale => exact refl l
  | reserves _ r hr => exact reserved hr

theorem reconciled {t : RecoveryTicket} {r : Option RecoveryTicket × SchedulerLifecycle} (h : Reconciled l t r) : Moves stop l r.2 := by
  cases h with
  | dead => exact refl l
  | again attempt => exact withTicket l { t with attempt := attempt }

theorem committed (l : SchedulerLifecycle) (g : ℕ) : Moves stop l (l.markStartCommitted g) := by
  unfold markStartCommitted
  split
  · exact refl l
  · exact ⟨le_rfl, fun _ h => .inl h, fun h => h, fun h => h, le_rfl, fun h _ => h, .inl⟩

theorem published {cancelled : ℕ → Bool} {g : ℕ} (h : Published l cancelled g l') : Moves stop l l' := by
  obtain ⟨l₁, hs, hl₁, -, -, -, -⟩ := h
  rw [hl₁]
  exact ⟨le_rfl, fun _ h => .inl h, fun h => h, fun h => h, le_rfl, fun h => absurd (.inl hs) (h g), .inl⟩

theorem cleaned (l : SchedulerLifecycle) (g : ℕ) : Moves stop l (l.finishCleanup g).2 := by
  unfold finishCleanup
  split
  · exact refl l
  · exact ⟨le_rfl, fun _ h => .inl h, fun h => h, fun h => h, le_rfl, fun _ _ _ => not_live_of_stopped rfl, .inl⟩

end Moves

end SchedulerLifecycle

namespace Scheduler

open SchedulerLifecycle

variable {w : Scheduler} {i : ℕ}

/-- The tickets that some task is for, whatever it is doing. -/
def tasks (w : Scheduler) : List RecoveryTicket :=
  w.launching ++ (w.recoveries ++ (w.abandoned ++ (w.launchers.filterMap (·.recovery) ++ w.flows.filterMap (·.owner.ticket?))))

def Tickets (w : Scheduler) : Prop := TicketInv w.lifecycle w.claims w.tasks w.begins

theorem Tickets.elim {α : Type} {o : Option α} {f : α → Scheduler} (h : Tickets w) (hf : ∀ a, o = some a → Tickets (f a)) :
    Tickets (o.elim w f) := by
  cases ho : o with
  | none => exact h
  | some a => exact hf a ho

/-! ## One step -/

/-! Guards, controls and workers hold no tickets. -/

theorem Tickets.setControl (h : Tickets w) (g : ℕ) (f : GenerationControl → GenerationControl) : Tickets (w.setControl g f) := h

theorem Tickets.addGuard (h : Tickets w) (owner : OwnerGuard) : Tickets (w.addGuard owner) := h

theorem Tickets.dropGuard (h : Tickets w) (owner : OwnerGuard) : Tickets (w.dropGuard owner) := h

theorem ite_tickets {P : Prop} [Decidable P] {u : Scheduler} (h : Tickets w) (hu : Tickets u) : Tickets (if P then u else w) := by
  split
  · exact hu
  · exact h

theorem Tickets.deferBatch (h : Tickets w) (g : ℕ) : Tickets (w.deferBatch g) := h

theorem tasks_setFlow {f f' : StartFlow} (hf : w.flows[i]? = some f) (ho : f'.owner = f.owner) : w.tasks.Perm (w.setFlow i f').tasks := by
  refine ((((List.Perm.append_left _ ?_).append_left _).append_left _).append_left _)
  refine ((TaskRuns.perm_of_get hf).symm.filterMap _).trans (List.Perm.of_eq ?_)
  show List.filterMap _ (f :: _) = List.filterMap _ (f' :: _)
  rw [List.filterMap_cons, List.filterMap_cons, ho]

/-- A start goes on; the lifecycle may have moved. -/
theorem Tickets.flow {f f' : StartFlow} (hf : w.flows[i]? = some f) (ho : f'.owner = f.owner)
    {l : SchedulerLifecycle} (hl : TicketInv l w.claims w.tasks w.begins) :
    TicketInv l (w.setFlow i f').claims (w.setFlow i f').tasks (w.setFlow i f').begins :=
  hl.perm (tasks_setFlow hf ho)

theorem tasks_launcher {launcher launcher' : CleanupLauncher} (hf : w.launchers[i]? = some launcher)
    (ho : launcher'.recovery = launcher.recovery) : w.tasks.Perm (w.setLauncher i launcher').tasks := by
  refine ((List.Perm.append_right _ ?_).append_left _).append_left _ |>.append_left _
  refine ((TaskRuns.perm_of_get hf).symm.filterMap _).trans (List.Perm.of_eq ?_)
  show List.filterMap _ (launcher :: _) = List.filterMap _ (launcher' :: _)
  rw [List.filterMap_cons, List.filterMap_cons, ho]

/-- The waiting starts are answered as `apply_decision` does. -/
theorem Tickets.startExplicit (h : Tickets w) : Tickets w.startExplicit := by
  unfold Scheduler.startExplicit
  rcases w.lifecycle.requestExplicitStart_cases with ⟨r, hr, heq⟩ | ⟨ht, he, hl, heq⟩
  · rw [heq]
    cases r with
    | desired token => exact absurd rfl (hr token)
    | _ => exact h
  · rw [heq]
    have hreq := TicketInv.requested h ht he hl
    have hdec := hreq.decided (List.Perm.refl _) (w.lifecycle.requested.startDecisionFor_decided w.lifecycle.nextToken)
    dsimp only
    generalize w.lifecycle.requested.startDecisionFor w.lifecycle.nextToken = r at hdec ⊢
    obtain ⟨decision, l⟩ := r
    cases decision <;> exact hdec

theorem Tickets.refreshClaim (h : Tickets w) {d : ℕ} (hd : w.claims[i]? = some d) : Tickets (w.refreshClaim i d) := by
  have hperm := (TaskRuns.perm_of_get hd).symm
  have hdec := TicketInv.decided h hperm (w.lifecycle.startDecisionFor_decided d)
  unfold Scheduler.refreshClaim
  generalize w.lifecycle.startDecisionFor d = r at hdec ⊢
  obtain ⟨decision, l⟩ := r
  cases decision with
  | wait => exact TicketInv.permClaims hdec hperm
  | _ => exact hdec

theorem Tickets.dropClaim (h : Tickets w) {d : ℕ} (hd : w.claims[i]? = some d) : Tickets (w.dropClaim i d) := by
  have hdrop := TicketInv.claimDropped h (TaskRuns.perm_of_get hd).symm (w.lifecycle.dropStartClaim_dropped d)
  unfold Scheduler.dropClaim
  generalize w.lifecycle.dropStartClaim d = r at hdrop ⊢
  refine TicketInv.perm hdrop (List.Perm.of_eq ?_)
  exact (List.append_assoc _ _ _).symm

theorem Tickets.reserveWorker (h : Tickets w) (g : ℕ) : Tickets (w.reserveWorker g) := by
  unfold Scheduler.reserveWorker
  dsimp only
  split
  · exact h
  · exact h

/-- A cleanup that was requested is launched: its ticket is with the launcher. -/
theorem tickets_launchCleanup {g : ℕ} {cause : CleanupCause} (h : Tickets w) {r : CleanupRequest × SchedulerLifecycle}
    (hr : CleanupBegun w.lifecycle g cause r) (hc : cause ≠ .explicitStop) : Tickets ({ w with lifecycle := r.2 }.launchCleanup r.1) := by
  cases hr with
  | inactive => exact h
  | wait hs =>
    refine Tickets.elim (w := w) h fun slot _ => ?_
    exact Tickets.reserveWorker (w := w) h slot
  | stops _ hstop => exact absurd hstop hc
  | fails hl _ r hr =>
    refine TicketInv.perm (TicketInv.fails h hl hr) ?_
    -- the ticket moves to the place of the launchers
    obtain ⟨ticket, l⟩ := r
    cases ticket with
    | none => exact List.Perm.refl _
    | some ticket =>
      show (ticket :: w.tasks).Perm (w.launching ++ (w.recoveries ++ (w.abandoned ++ (ticket :: (_ ++ _)))))
      refine List.Perm.symm (List.Perm.trans ?_ List.perm_middle)
      refine List.Perm.append_left _ (List.Perm.trans ?_ List.perm_middle)
      exact List.Perm.append_left _ List.perm_middle

theorem Tickets.requestCleanup (h : Tickets w) (g : ℕ) {cause : CleanupCause} (hc : cause ≠ .explicitStop) :
    Tickets (w.requestCleanup g cause) :=
  tickets_launchCleanup h (w.lifecycle.beginCleanupWithCause_begun g cause) hc

/-- A stop or a shutdown, by what it leaves of the lifecycle. -/
theorem tickets_stopWith {l : SchedulerLifecycle} {r : CleanupRequest × SchedulerLifecycle} (hs : Stopped l r)
    (h : TicketInv r.2 w.claims w.tasks w.begins) : Tickets (w.stopWith r) := by
  unfold Scheduler.stopWith
  cases hs with
  | inactive => exact h
  | wait g _ =>
    refine Tickets.elim (w := { w with lifecycle := _ }) h fun slot _ => ?_
    exact Tickets.reserveWorker (w := { w with lifecycle := _ }) h slot
  | stops g _ => exact h

theorem Tickets.flowCheck (h : Tickets w) {f : StartFlow} (hf : w.flows[i]? = some f) : Tickets (w.flowCheck i f) := by
  unfold Scheduler.flowCheck
  split
  · exact h
  split
  · exact Tickets.flow hf rfl h
  · exact Tickets.flow hf rfl h

theorem Tickets.flowSpawn (h : Tickets w) {f : StartFlow} (hf : w.flows[i]? = some f) : Tickets (w.flowSpawn i f) := by
  unfold Scheduler.flowSpawn
  split
  · exact h
  · refine Tickets.addGuard ?_ _
    exact Tickets.flow hf rfl h

theorem Tickets.flowRegister (h : Tickets w) {f : StartFlow} (hf : w.flows[i]? = some f) (ts : List TaskId) :
    Tickets (w.flowRegister i f ts) := by
  unfold Scheduler.flowRegister
  split
  · exact h
  · obtain ⟨registered, loops, heq⟩ := w.lifecycle.registerRequiredLoops_cases f.generation ts
    rw [heq]
    exact Tickets.flow hf rfl (TicketInv.frame h loops w.lifecycle.control w.lifecycle.cleanupJob)

theorem Tickets.flowWrap (h : Tickets w) {f : StartFlow} (hf : w.flows[i]? = some f) : Tickets (w.flowWrap i f) := by
  unfold Scheduler.flowWrap
  split
  · exact h
  · refine Tickets.addGuard ?_ _
    exact Tickets.flow hf rfl h

theorem Tickets.flowInstall (h : Tickets w) {f : StartFlow} (hf : w.flows[i]? = some f) : Tickets (w.flowInstall i f) := by
  unfold Scheduler.flowInstall
  split
  · exact h
  split
  · exact Tickets.flow hf rfl h
  · exact Tickets.flow hf rfl h

theorem Tickets.flowFinishStart (h : Tickets w) {f : StartFlow} (hf : w.flows[i]? = some f) : Tickets (w.flowFinishStart i f) := by
  unfold Scheduler.flowFinishStart
  split
  · exact h
  · rcases w.lifecycle.finishStart_cases w.cancelled f.generation with heq | ⟨l, hp, heq⟩
    · rw [heq]
      exact Tickets.flow hf rfl h
    · rw [heq]
      exact Tickets.flow hf rfl (TicketInv.published h hp)

theorem Tickets.flowCommit (h : Tickets w) {f : StartFlow} (hf : w.flows[i]? = some f) : Tickets (w.flowCommit i f) := by
  unfold Scheduler.flowCommit
  split
  · exact Tickets.flow hf rfl (TicketInv.committed h f.generation)
  · exact h

theorem Tickets.flowFail (h : Tickets w) {f : StartFlow} (hf : w.flows[i]? = some f) : Tickets (w.flowFail i f) := by
  unfold Scheduler.flowFail
  split
  · exact h
  · exact Tickets.flow hf rfl h

theorem Tickets.flowDefer (h : Tickets w) {f : StartFlow} (hf : w.flows[i]? = some f) : Tickets (w.flowDefer i f) := by
  unfold Scheduler.flowDefer
  split
  · exact h
  split
  · refine Tickets.deferBatch ?_ _
    exact Tickets.flow hf rfl h
  split
  · refine Tickets.deferBatch ?_ _
    exact Tickets.flow hf rfl h
  · exact h

theorem Tickets.flowCleanup (h : Tickets w) {f : StartFlow} (hf : w.flows[i]? = some f) : Tickets (w.flowCleanup i f) := by
  unfold Scheduler.flowCleanup
  split
  · exact h
  · have hflow : Tickets (w.setFlow i { f with phase := .releasing }) := Tickets.flow hf rfl h
    exact hflow.requestCleanup f.generation nofun

/-- A ticket moves from one place to another. -/
theorem perm_move {launching recoveries abandoned launchers flows : List RecoveryTicket} (t : List RecoveryTicket) :
    (launching ++ (recoveries ++ (abandoned ++ (launchers ++ (t ++ flows))))).Perm
      (launching ++ (recoveries ++ (t ++ abandoned ++ (launchers ++ flows)))) := by
  refine (List.Perm.append_left _ ?_).append_left _
  rw [List.append_assoc]
  refine List.Perm.trans ?_ (List.perm_append_comm_assoc _ _ _)
  refine List.Perm.append_left _ ?_
  exact List.perm_append_comm_assoc _ _ _

theorem perm_launch {launching recoveries abandoned launchers flows : List RecoveryTicket} (t : List RecoveryTicket) :
    (launching ++ (recoveries ++ (abandoned ++ (t ++ (launchers ++ flows))))).Perm
      (t ++ launching ++ (recoveries ++ (abandoned ++ (launchers ++ flows)))) := by
  rw [List.append_assoc]
  refine List.Perm.trans ?_ (List.perm_append_comm_assoc _ _ _)
  refine List.Perm.append_left _ (List.Perm.trans ?_ (List.perm_append_comm_assoc _ _ _))
  exact List.Perm.append_left _ (List.perm_append_comm_assoc _ _ _)

theorem Tickets.flowRelease (h : Tickets w) {f : StartFlow} (hf : w.flows[i]? = some f) : Tickets (w.flowRelease i f) := by
  unfold Scheduler.flowRelease
  split
  · exact h
  · have hflows : (w.flows.filterMap (·.owner.ticket?)).Perm
        (f.owner.ticket?.toList ++ (w.flows.eraseIdx i).filterMap (·.owner.ticket?)) := by
      refine ((TaskRuns.perm_of_get hf).symm.filterMap _).trans (List.Perm.of_eq ?_)
      rw [List.filterMap_cons]
      cases f.owner.ticket? <;> rfl
    refine TicketInv.perm (show TicketInv _ _ w.tasks _ from h) (List.Perm.trans ?_ (perm_move f.owner.ticket?.toList))
    exact (((hflows.append_left _).append_left _).append_left _).append_left _

theorem Tickets.loopReady (h : Tickets w) (g : ℕ) (task : TaskId) : Tickets (w.loopReady g task) := by
  unfold Scheduler.loopReady
  obtain ⟨ready, loops, heq⟩ := w.lifecycle.markRequiredLoopReady_cases g task
  rw [heq]
  exact TicketInv.frame h loops w.lifecycle.control w.lifecycle.cleanupJob

theorem Tickets.loopApprove (h : Tickets w) (g : ℕ) (task : TaskId) : Tickets (w.loopApprove g task) := by
  unfold Scheduler.loopApprove
  rcases w.lifecycle.approveRequiredLoop_cases w.cancelled g task with ⟨outcome, loops, -, heq⟩ | ⟨l, hp, heq⟩
  · rw [heq]
    exact TicketInv.frame h loops w.lifecycle.control w.lifecycle.cleanupJob
  · rw [heq]
    exact TicketInv.published h hp

theorem Tickets.claimActivity (h : Tickets w) : Tickets w.claimActivity := by
  unfold Scheduler.claimActivity
  split
  · exact h
  · exact h
  · exact h

theorem Tickets.launchStep (h : Tickets w) {launcher : CleanupLauncher} (hl : w.launchers[i]? = some launcher) :
    Tickets (w.launchStep i launcher) := by
  have hset : ∀ stage, Tickets (w.setLauncher i { launcher with stage := stage }) :=
    fun stage => TicketInv.perm h (tasks_launcher hl rfl)
  unfold Scheduler.launchStep
  dsimp only
  split
  · exact (hset _).setControl _ _
  · exact hset _
  · exact hset _
  · split
    · exact TicketInv.frame (hset .launchJob) w.lifecycle.requiredLoops w.lifecycle.control _
    · exact hset .launchJob
  · exact (hset _).reserveWorker _
  · have hlaunchers : (w.launchers.filterMap (·.recovery)).Perm
        (launcher.recovery.toList ++ (w.launchers.eraseIdx i).filterMap (·.recovery)) := by
      refine ((TaskRuns.perm_of_get hl).symm.filterMap _).trans (List.Perm.of_eq ?_)
      rw [List.filterMap_cons]
      cases launcher.recovery <;> rfl
    refine TicketInv.perm (show TicketInv _ _ w.tasks _ from h) (List.Perm.trans ?_ (perm_launch launcher.recovery.toList))
    exact ((((hlaunchers.append_right _).trans (List.Perm.of_eq (List.append_assoc _ _ _))).append_left _).append_left _).append_left _

theorem Tickets.workerBegin (h : Tickets w) (worker : CleanupWorker) : Tickets (w.workerBegin i worker) := by
  unfold Scheduler.workerBegin
  dsimp only
  split
  · exact h
  · exact ite_tickets h h

theorem Tickets.workerClaim (h : Tickets w) (worker : CleanupWorker) : Tickets (w.workerClaim i worker) := by
  unfold Scheduler.workerClaim
  dsimp only
  split
  · exact h
  · exact ite_tickets h h

theorem Tickets.workerAbort (h : Tickets w) (worker : CleanupWorker) : Tickets (w.workerAbort i worker) := by
  unfold Scheduler.workerAbort
  dsimp only
  split
  · exact h
  · exact h
  · exact h

theorem Tickets.workerComplete (h : Tickets w) (worker : CleanupWorker) : Tickets (w.workerComplete i worker) := by
  unfold Scheduler.workerComplete
  dsimp only
  split
  · exact h
  split
  · exact TicketInv.cleaned h worker.generation
  · exact h

theorem perm_abandoned (w : Scheduler) (t : RecoveryTicket) : (t :: w.tasks).Perm { w with abandoned := t :: w.abandoned }.tasks := by
  refine List.Perm.symm (List.Perm.trans ?_ List.perm_middle)
  exact List.Perm.append_left _ List.perm_middle

theorem perm_recoveries (w : Scheduler) (t : RecoveryTicket) : (t :: w.tasks).Perm { w with recoveries := t :: w.recoveries }.tasks :=
  List.perm_middle.symm

theorem perm_launching {t : RecoveryTicket} (ht : w.launching[i]? = some t) :
    w.tasks.Perm (t :: { w with launching := w.launching.eraseIdx i }.tasks) :=
  (TaskRuns.perm_of_get ht).symm.append_right _

theorem perm_recovery {t : RecoveryTicket} (ht : w.recoveries[i]? = some t) :
    w.tasks.Perm (t :: { w with recoveries := w.recoveries.eraseIdx i }.tasks) :=
  (((TaskRuns.perm_of_get ht).symm.append_right _).append_left _).trans List.perm_middle

theorem perm_abandon {t : RecoveryTicket} (ht : w.abandoned[i]? = some t) :
    w.tasks.Perm (t :: { w with abandoned := w.abandoned.eraseIdx i }.tasks) := by
  refine ((((TaskRuns.perm_of_get ht).symm.append_right _).append_left _).append_left _).trans ?_
  exact (List.Perm.append_left _ List.perm_middle).trans List.perm_middle

theorem Tickets.launchRecovery (h : Tickets w) {t : RecoveryTicket} (ht : w.launching[i]? = some t) (outcome : LaunchOutcome) :
    Tickets (w.launchRecovery i t outcome) := by
  have hperm := perm_launching ht
  unfold Scheduler.launchRecovery
  dsimp only
  split
  · refine TicketInv.dropTask (TicketInv.shut h) hperm fun hc => ?_
    cases hc.2.1
  · exact TicketInv.perm h (hperm.trans (perm_abandoned _ t))
  · split
    · exact TicketInv.perm h (hperm.trans (perm_recoveries _ t))
    · rename_i hc
      exact TicketInv.dropTask h hperm hc

theorem Tickets.recoveryStart (h : Tickets w) {t : RecoveryTicket} (ht : w.recoveries[i]? = some t) :
    Tickets (w.recoveryStart i t) := by
  have hperm := perm_recovery ht
  have hmem : t ∈ w.tasks := hperm.mem_iff.2 List.mem_cons_self
  have hdec := TicketInv.recoveryDecided h hmem (w.lifecycle.recoveryStartDecision_decided t)
  unfold Scheduler.recoveryStart
  generalize w.lifecycle.recoveryStartDecision t = r at hdec ⊢
  obtain ⟨decision, l⟩ := r
  cases decision with
  | begin g =>
    refine TicketInv.perm hdec (hperm.trans ?_)
    -- the ticket is with the start now
    refine List.Perm.symm (List.Perm.trans ?_ List.perm_middle)
    refine List.Perm.append_left _ (List.Perm.trans ?_ List.perm_middle)
    refine List.Perm.append_left _ (List.Perm.trans ?_ List.perm_middle)
    exact List.Perm.append_left _ List.perm_middle
  | _ => exact TicketInv.perm hdec (hperm.trans (perm_abandoned _ t))

theorem Tickets.recoveryEnd (h : Tickets w) {t : RecoveryTicket} (ht : w.recoveries[i]? = some t) : Tickets (w.recoveryEnd i t) :=
  TicketInv.perm h ((perm_recovery ht).trans (perm_abandoned _ t))

theorem Tickets.reconcile (h : Tickets w) {t : RecoveryTicket} (ht : w.abandoned[i]? = some t) : Tickets (w.reconcile i t) := by
  have hrec := TicketInv.reconciled h (perm_abandon ht) (w.lifecycle.reconcile_reconciled t)
  unfold Scheduler.reconcile
  generalize w.lifecycle.reconcileAbandonedRecovery t = r at hrec ⊢
  refine TicketInv.perm hrec (List.Perm.of_eq ?_)
  exact (List.append_assoc _ _ _).symm

/-- **Every step keeps the tickets in order.** -/
theorem Tickets.step (h : Tickets w) (a : SchedAct) : Tickets (w.step a) := by
  cases a with
  | startExplicit => exact h.startExplicit
  | refreshClaim i => exact h.elim fun _ => h.refreshClaim
  | dropClaim i => exact h.elim fun _ => h.dropClaim
  | flowCheck i => exact h.elim fun _ => h.flowCheck
  | flowSpawn i => exact h.elim fun _ => h.flowSpawn
  | flowRegister i ts => exact h.elim fun _ hf => h.flowRegister hf ts
  | flowWrap i => exact h.elim fun _ => h.flowWrap
  | flowInstall i => exact h.elim fun _ => h.flowInstall
  | flowFinishStart i => exact h.elim fun _ => h.flowFinishStart
  | flowCommit i => exact h.elim fun _ => h.flowCommit
  | flowFail i => exact h.elim fun _ => h.flowFail
  | flowDefer i => exact h.elim fun _ => h.flowDefer
  | flowCleanup i => exact h.elim fun _ => h.flowCleanup
  | flowRelease i => exact h.elim fun _ => h.flowRelease
  | loopReady g task => exact h.loopReady g task
  | loopApprove g task => exact h.loopApprove g task
  | loopFailed g => exact h.requestCleanup g nofun
  | ownerEnds owner => exact ite_tickets h (h.dropGuard owner)
  | deferHandle g => exact ite_tickets h h
  | claimRun g task => exact ite_tickets h h
  | claimActivity => exact h.claimActivity
  | stop => exact tickets_stopWith w.lifecycle.beginExplicitStop_stopped (TicketInv.stop h w.lifecycle.beginExplicitStop_stopped)
  | shutdown =>
    have hs := { w.lifecycle with terminal := true }.beginExplicitStop_stopped
    exact tickets_stopWith hs (TicketInv.shutdown h hs)
  | launchStep i => exact h.elim fun _ => h.launchStep
  | reserveWorker g => exact h.reserveWorker g
  | workerBegin i => exact h.elim fun worker _ => h.workerBegin worker
  | workerClaim i => exact h.elim fun worker _ => h.workerClaim worker
  | workerTake i => exact h.elim fun _ _ => ite_tickets h h
  | workerPop i => exact h.elim fun _ _ => ite_tickets h h
  | workerDrained i => exact h.elim fun _ _ => ite_tickets h h
  | workerComplete i => exact h.elim fun worker _ => h.workerComplete worker
  | workerAbort i => exact h.elim fun worker _ => h.workerAbort worker
  | launchRecovery i outcome => exact h.elim fun _ ht => h.launchRecovery ht outcome
  | recoveryStart i => exact h.elim fun _ => h.recoveryStart
  | recoveryEnd i => exact h.elim fun _ => h.recoveryEnd
  | reconcile i => exact h.elim fun _ => h.reconcile

/-- **The tickets are in order in every state of every interleaving.** -/
theorem run_tickets (as : List SchedAct) : Tickets (Steps.run step init as) :=
  Steps.run_inv (fun _ a h => h.step a) as _ TicketInv.new

/-! ## What a step can begin -/

/-- What a step does to the desired run, and what it can begin: a start of the desired
run or of one that is requested in the step. -/
structure Follows (stop : Prop) (w w' : Scheduler) : Prop where
  lifecycle : Moves stop w.lifecycle w'.lifecycle
  begins : w'.begins = w.begins ∨ ∃ owner g, w'.begins = w.begins ++ [(owner, g)] ∧ w.lifecycle.terminal = false ∧
    (w.lifecycle.desired = some owner.token ∨ w.lifecycle.nextToken ≤ owner.token)

variable {stop : Prop} {w' : Scheduler}

theorem Follows.of_begins (h : Moves stop w.lifecycle w'.lifecycle) (hb : w'.begins = w.begins) : Follows stop w w' := ⟨h, .inl hb⟩

theorem Follows.same (hl : w'.lifecycle = w.lifecycle) (hb : w'.begins = w.begins) : Follows stop w w' :=
  .of_begins (hl ▸ Moves.refl _) hb

theorem Follows.elim {α : Type} {o : Option α} {f : α → Scheduler} (hf : ∀ a, Follows stop w (f a)) : Follows stop w (o.elim w f) := by
  cases o with
  | none => exact .same rfl rfl
  | some a => exact hf a

theorem Follows.ite {P : Prop} [Decidable P] {u v : Scheduler} (hu : Follows stop w u) (hv : Follows stop w v) :
    Follows stop w (if P then u else v) := by
  split
  · exact hu
  · exact hv

theorem reserveWorker_same (w : Scheduler) (g : ℕ) :
    (w.reserveWorker g).lifecycle = w.lifecycle ∧ (w.reserveWorker g).begins = w.begins := by
  obtain ⟨slots, workers, heq⟩ := w.reserveWorker_eq g
  rw [heq]
  exact ⟨rfl, rfl⟩

theorem launchCleanup_same (w : Scheduler) (request : CleanupRequest) :
    (w.launchCleanup request).lifecycle = w.lifecycle ∧ (w.launchCleanup request).begins = w.begins := by
  obtain ⟨launchers, slots, workers, heq⟩ := w.launchCleanup_eq request
  rw [heq]
  exact ⟨rfl, rfl⟩

theorem Follows.launchCleanup (h : Moves stop w.lifecycle w'.lifecycle) (hb : w'.begins = w.begins) (request : CleanupRequest) :
    Follows stop w (w'.launchCleanup request) := by
  obtain ⟨hlife, hbegins⟩ := w'.launchCleanup_same request
  exact .of_begins (by rw [hlife]; exact h) (hbegins.trans hb)

theorem follows_requestCleanup (hl : w'.lifecycle = w.lifecycle) (hb : w'.begins = w.begins) (g : ℕ) (cause : CleanupCause) :
    Follows stop w (w'.requestCleanup g cause) := by
  have hmoves : Moves stop w'.lifecycle _ := Moves.cleanupBegun (w'.lifecycle.beginCleanupWithCause_begun g cause)
  unfold Scheduler.requestCleanup
  generalize w'.lifecycle.beginCleanupWithCause g cause = r at hmoves ⊢
  rw [hl] at hmoves
  refine Follows.launchCleanup ?_ ?_ _
  · exact hmoves
  · exact hb

/-- A start of the desired run begins. -/
theorem follows_startExplicit (w : Scheduler) : Follows stop w w.startExplicit := by
  unfold Scheduler.startExplicit
  rcases w.lifecycle.requestExplicitStart_cases with ⟨r, hr, heq⟩ | ⟨ht, he, hl, heq⟩
  · rw [heq]
    cases r with
    | desired token => exact absurd rfl (hr token)
    | _ => exact .same rfl rfl
  · rw [heq]
    have hmoves : Moves stop w.lifecycle (w.lifecycle.requested.startDecisionFor w.lifecycle.nextToken).2 :=
      (Moves.requested _).trans (Moves.decided (startDecisionFor_decided _ _))
    dsimp only
    generalize w.lifecycle.requested.startDecisionFor w.lifecycle.nextToken = r at hmoves ⊢
    obtain ⟨decision, l⟩ := r
    cases decision with
    | begin g => exact ⟨hmoves, .inr ⟨.explicit w.lifecycle.nextToken, g, rfl, ht, .inr le_rfl⟩⟩
    | _ => exact .of_begins hmoves rfl

theorem follows_refreshClaim (w : Scheduler) (i d : ℕ) : Follows stop w (w.refreshClaim i d) := by
  have hdec := w.lifecycle.startDecisionFor_decided d
  have hmoves : Moves stop w.lifecycle _ := Moves.decided hdec
  unfold Scheduler.refreshClaim
  generalize w.lifecycle.startDecisionFor d = r at hdec hmoves ⊢
  cases hdec with
  | begins hs ht he hd => exact ⟨hmoves, .inr ⟨.explicit d, _, rfl, ht, .inl hd.1⟩⟩
  | _ => exact .of_begins hmoves rfl

theorem follows_recoveryStart (w : Scheduler) (i : ℕ) (t : RecoveryTicket) : Follows stop w (w.recoveryStart i t) := by
  have hdec := w.lifecycle.recoveryStartDecision_decided t
  have hmoves : Moves stop w.lifecycle _ := Moves.recoveryDecided hdec
  unfold Scheduler.recoveryStart
  generalize w.lifecycle.recoveryStartDecision t = r at hdec hmoves ⊢
  cases hdec with
  | begins hs ht he hp hd => exact ⟨hmoves, .inr ⟨.recovery t, _, rfl, ht, .inl hd.1⟩⟩
  | _ => exact .of_begins hmoves rfl

theorem follows_launchStep (w : Scheduler) (i : ℕ) (launcher : CleanupLauncher) : Follows stop w (w.launchStep i launcher) := by
  unfold Scheduler.launchStep
  dsimp only
  split
  · exact .same rfl rfl
  · exact .same rfl rfl
  · exact .same rfl rfl
  · split
    · exact .of_begins (Moves.frame _ w.lifecycle.requiredLoops w.lifecycle.control _) rfl
    · exact .same rfl rfl
  · obtain ⟨hl, hb⟩ := (w.setLauncher i { launcher with stage := .launchRecovery }).reserveWorker_same launcher.generation
    exact .same hl hb
  · exact .same rfl rfl

theorem follows_workerComplete (w : Scheduler) (i : ℕ) (worker : CleanupWorker) : Follows stop w (w.workerComplete i worker) := by
  unfold Scheduler.workerComplete
  dsimp only
  split
  · exact .same rfl rfl
  split
  · exact .of_begins (Moves.cleaned _ worker.generation) rfl
  · exact .same rfl rfl

theorem follows_launchRecovery (w : Scheduler) (i : ℕ) (t : RecoveryTicket) (outcome : LaunchOutcome) :
    Follows stop w (w.launchRecovery i t outcome) := by
  unfold Scheduler.launchRecovery
  dsimp only
  split
  · exact .of_begins (Moves.shut _) rfl
  · exact .same rfl rfl
  · exact .ite (.same rfl rfl) (.same rfl rfl)

theorem follows_flow (w : Scheduler) (i : ℕ) (f : StartFlow) (ts : List TaskId) :
    Follows stop w (w.flowCheck i f) ∧ Follows stop w (w.flowSpawn i f) ∧ Follows stop w (w.flowRegister i f ts) ∧
      Follows stop w (w.flowWrap i f) ∧ Follows stop w (w.flowInstall i f) ∧ Follows stop w (w.flowFinishStart i f) ∧
      Follows stop w (w.flowCommit i f) := by
  have hsame : ∀ f', Follows stop w (w.setFlow i f') := fun _ => .same rfl rfl
  refine ⟨?_, ?_, ?_, ?_, ?_, ?_, ?_⟩
  · exact .ite (.same rfl rfl) (.ite (hsame _) (hsame _))
  · exact .ite (.same rfl rfl) (.same rfl rfl)
  · refine .ite (.same rfl rfl) ?_
    obtain ⟨registered, loops, heq⟩ := w.lifecycle.registerRequiredLoops_cases f.generation ts
    rw [heq]
    exact .of_begins (Moves.frame _ loops w.lifecycle.control w.lifecycle.cleanupJob) rfl
  · exact .ite (.same rfl rfl) (.same rfl rfl)
  · exact .ite (.same rfl rfl) (.ite (hsame _) (hsame _))
  · refine .ite (.same rfl rfl) ?_
    rcases w.lifecycle.finishStart_cases w.cancelled f.generation with heq | ⟨l, hp, heq⟩
    · rw [heq]
      exact .same rfl rfl
    · rw [heq]
      exact .of_begins (Moves.published hp) rfl
  · exact .ite (.of_begins (Moves.committed _ _) rfl) (.same rfl rfl)

theorem follows_loops (w : Scheduler) (g : ℕ) (task : TaskId) :
    Follows stop w (w.loopReady g task) ∧ Follows stop w (w.loopApprove g task) := by
  constructor
  · obtain ⟨ready, loops, heq⟩ := w.lifecycle.markRequiredLoopReady_cases g task
    refine .of_begins ?_ rfl
    show Moves stop w.lifecycle (w.lifecycle.markRequiredLoopReady g task).2
    rw [heq]
    exact Moves.frame _ loops w.lifecycle.control w.lifecycle.cleanupJob
  · unfold Scheduler.loopApprove
    rcases w.lifecycle.approveRequiredLoop_cases w.cancelled g task with ⟨outcome, loops, -, heq⟩ | ⟨l, hp, heq⟩
    · rw [heq]
      exact .of_begins (Moves.frame _ loops w.lifecycle.control w.lifecycle.cleanupJob) rfl
    · rw [heq]
      exact .of_begins (Moves.published hp) rfl

theorem follows_worker (w : Scheduler) (i : ℕ) (worker : CleanupWorker) :
    Follows stop w (w.workerBegin i worker) ∧ Follows stop w (w.workerClaim i worker) ∧ Follows stop w (w.workerAbort i worker) := by
  refine ⟨.ite (.same rfl rfl) (.ite (.same rfl rfl) (.same rfl rfl)), .ite (.same rfl rfl) (.ite (.same rfl rfl) (.same rfl rfl)), ?_⟩
  unfold Scheduler.workerAbort
  dsimp only
  split <;> exact .same rfl rfl

theorem follows_claimActivity (w : Scheduler) : Follows stop w w.claimActivity := by
  unfold Scheduler.claimActivity
  split <;> exact .same rfl rfl

/-- What a step begins is the desired run, or one that it requests. -/
theorem step_follows (w : Scheduler) (a : SchedAct) : Follows (a = .stop ∨ a = .shutdown) w (w.step a) := by
  cases a with
  | startExplicit => exact follows_startExplicit w
  | refreshClaim i => exact .elim fun d => follows_refreshClaim w i d
  | dropClaim i => exact .elim fun d => .of_begins (Moves.claimDropped (w.lifecycle.dropStartClaim_dropped d)) rfl
  | flowCheck i => exact .elim fun f => (follows_flow w i f []).1
  | flowSpawn i => exact .elim fun f => (follows_flow w i f []).2.1
  | flowRegister i ts => exact .elim fun f => (follows_flow w i f ts).2.2.1
  | flowWrap i => exact .elim fun f => (follows_flow w i f []).2.2.2.1
  | flowInstall i => exact .elim fun f => (follows_flow w i f []).2.2.2.2.1
  | flowFinishStart i => exact .elim fun f => (follows_flow w i f []).2.2.2.2.2.1
  | flowCommit i => exact .elim fun f => (follows_flow w i f []).2.2.2.2.2.2
  | flowFail i => exact .elim fun f => .ite (.same rfl rfl) (.same rfl rfl)
  | flowDefer i => exact .elim fun f => .ite (.same rfl rfl) (.ite (.same rfl rfl) (.ite (.same rfl rfl) (.same rfl rfl)))
  | flowCleanup i =>
    refine .elim fun f => .ite (.same rfl rfl) ?_
    refine follows_requestCleanup ?_ ?_ f.generation .startAborted
    · rfl
    · rfl
  | flowRelease i => exact .elim fun f => .ite (.same rfl rfl) (.same rfl rfl)
  | loopReady g task => exact (follows_loops w g task).1
  | loopApprove g task => exact (follows_loops w g task).2
  | loopFailed g => exact follows_requestCleanup rfl rfl g .unexpectedRequiredLoop
  | ownerEnds owner => exact .ite (.same rfl rfl) (.same rfl rfl)
  | deferHandle g => exact .ite (.same rfl rfl) (.same rfl rfl)
  | claimRun g task => exact .ite (.same rfl rfl) (.same rfl rfl)
  | claimActivity => exact follows_claimActivity w
  -- only these two may take the desired run away:
  | stop =>
    refine Follows.launchCleanup ?_ ?_ _
    · exact Moves.stopped (.inl rfl) w.lifecycle.beginExplicitStop_stopped
    · rfl
  | shutdown =>
    have hs := { w.lifecycle with terminal := true }.beginExplicitStop_stopped
    refine Follows.launchCleanup ?_ ?_ _
    · refine Moves.trans ?_ (Moves.stopped (.inr rfl) hs)
      exact ⟨le_rfl, fun _ h => .inl h, fun _ => rfl, fun h => h, le_rfl, fun h _ => h, .inl⟩
    · rfl
  | launchStep i => exact .elim fun launcher => follows_launchStep w i launcher
  | reserveWorker g => exact .same (w.reserveWorker_same g).1 (w.reserveWorker_same g).2
  | workerBegin i => exact .elim fun worker => (follows_worker w i worker).1
  | workerClaim i => exact .elim fun worker => (follows_worker w i worker).2.1
  | workerTake i => exact .elim fun worker => .ite (.same rfl rfl) (.same rfl rfl)
  | workerPop i => exact .elim fun worker => .ite (.same rfl rfl) (.same rfl rfl)
  | workerDrained i => exact .elim fun worker => .ite (.same rfl rfl) (.same rfl rfl)
  | workerComplete i => exact .elim fun worker => follows_workerComplete w i worker
  | workerAbort i => exact .elim fun worker => (follows_worker w i worker).2.2
  | launchRecovery i outcome => exact .elim fun t => follows_launchRecovery w i t outcome
  | recoveryStart i => exact .elim fun t => follows_recoveryStart w i t
  | recoveryEnd i => exact .elim fun t => .same rfl rfl
  | reconcile i => exact .elim fun t => .of_begins (Moves.reconciled (w.lifecycle.reconcile_reconciled t)) rfl

/-! ## Runs -/

/-- The starts that began after a point are of tokens from `n` on. -/
structure Later (n : ℕ) (before : List (StartOwner × ℕ)) (w : Scheduler) : Prop where
  token : n ≤ w.lifecycle.nextToken
  desired : ∀ d, w.lifecycle.desired = some d → n ≤ d
  begins : ∃ later, w.begins = before ++ later ∧ ∀ b ∈ later, n ≤ b.1.token

theorem Later.step {n : ℕ} {before : List (StartOwner × ℕ)} (h : Later n before w) (a : SchedAct) : Later n before (w.step a) := by
  obtain ⟨hmoves, hbegins⟩ := step_follows w a
  obtain ⟨later, hlater, htokens⟩ := h.begins
  refine ⟨h.token.trans hmoves.token, fun d hd => ?_, ?_⟩
  · rcases hmoves.desired d hd with hd' | hd'
    · exact h.desired d hd'
    · exact h.token.trans hd'
  · rcases hbegins with heq | ⟨owner, g, heq, -, howner⟩
    · exact ⟨later, heq.trans hlater, htokens⟩
    · refine ⟨later ++ [(owner, g)], by rw [heq, hlater, List.append_assoc], fun b hb => ?_⟩
      rcases List.mem_append.1 hb with hb | hb
      · exact htokens b hb
      · rw [List.mem_singleton.1 hb]
        rcases howner with howner | howner
        · exact h.desired _ howner
        · exact h.token.trans howner

theorem desired_of_stopped {l : SchedulerLifecycle} {r : CleanupRequest × SchedulerLifecycle} (h : Stopped l r) :
    r.2.desired = none ∧ r.2.nextToken = l.nextToken ∧ r.2.terminal = l.terminal := by
  cases h <;> exact ⟨rfl, rfl, rfl⟩

/-- A stop leaves no run desired. -/
theorem later_stopWith {l : SchedulerLifecycle} {r : CleanupRequest × SchedulerLifecycle} (h : Stopped l r)
    (hl : l.nextToken = w.lifecycle.nextToken) : Later w.lifecycle.nextToken w.begins (w.stopWith r) := by
  obtain ⟨hd, ht, -⟩ := desired_of_stopped h
  obtain ⟨hlife, hbegins⟩ := { w with lifecycle := r.2 }.launchCleanup_same r.1
  unfold Scheduler.stopWith
  refine ⟨?_, fun d hsome => ?_, ⟨[], ?_, nofun⟩⟩
  · rw [hlife]
    exact (ht.trans hl).ge
  · rw [hlife, show ({ w with lifecycle := r.2 } : Scheduler).lifecycle.desired = none from hd] at hsome
    cases hsome
  · rw [hbegins, List.append_nil]

/-- Nothing begins any more. -/
theorem terminal_step (h : w.lifecycle.terminal = true) (a : SchedAct) :
    (w.step a).lifecycle.terminal = true ∧ (w.step a).begins = w.begins := by
  obtain ⟨hmoves, hbegins⟩ := step_follows w a
  refine ⟨hmoves.terminal h, ?_⟩
  rcases hbegins with heq | ⟨-, -, -, hterm, -⟩
  · exact heq
  · rw [h] at hterm
    cases hterm

theorem terminal_run (bs : List SchedAct) (h : w.lifecycle.terminal = true) : (Steps.run step w bs).begins = w.begins := by
  induction bs generalizing w with
  | nil => rfl
  | cons a bs ih =>
    obtain ⟨ht, hb⟩ := terminal_step h a
    exact (ih ht).trans hb

/-- What a run without a stop does to the desired run. -/
theorem run_moves (bs : List SchedAct) (h : ∀ a ∈ bs, a ≠ .stop ∧ a ≠ .shutdown) :
    Moves False w.lifecycle (Steps.run step w bs).lifecycle := by
  induction bs generalizing w with
  | nil => exact .refl _
  | cons a bs ih =>
    have hmoves := (step_follows w a).lifecycle
    have ha := h a List.mem_cons_self
    have hno : ¬(a = .stop ∨ a = .shutdown) := fun hor => hor.elim ha.1 ha.2
    refine Moves.trans ?_ (ih fun b hb => h b (List.mem_cons_of_mem _ hb))
    exact { hmoves with kept := fun hn => (hmoves.kept hn).imp_right (Or.imp_right (Or.imp_right hno)) }

theorem requestCleanup_lifecycle (w : Scheduler) (g : ℕ) (cause : CleanupCause) :
    (w.requestCleanup g cause).lifecycle = (w.lifecycle.beginCleanupWithCause g cause).2 :=
  (launchCleanup_same _ _).1

/-- The failure of a generation that is up ends it. -/
theorem not_live_loopFailed {g : ℕ} (hl : w.lifecycle.Live g) :
    (∀ g', ¬(w.step (.loopFailed g)).lifecycle.Live g') ∧
      (w.step (.loopFailed g)).lifecycle.nextGeneration = w.lifecycle.nextGeneration := by
  have hbegun := w.lifecycle.beginCleanupWithCause_begun g .unexpectedRequiredLoop
  have hlife : (w.step (.loopFailed g)).lifecycle = _ := w.requestCleanup_lifecycle g .unexpectedRequiredLoop
  rw [hlife]
  generalize w.lifecycle.beginCleanupWithCause g .unexpectedRequiredLoop = r at hbegun ⊢
  cases hbegun with
  | inactive hno => exact absurd hl hno
  | wait hs => exact absurd hl (not_live_of_stopping hs)
  | stops _ hc => cases hc
  | fails _ _ r hr =>
    refine ⟨fun _ => not_live_of_stopping rfl, ?_⟩
    cases hr <;> rfl

/-- A ticket that would be given a start, were the scheduler stopped. -/
def Valid (w : Scheduler) (t : RecoveryTicket) : Prop := w.lifecycle.IsPending t ∧ w.lifecycle.IsDesired t.desired

instance (w : Scheduler) (t : RecoveryTicket) : Decidable (w.Valid t) := inferInstanceAs (Decidable (_ ∧ _))

theorem Tickets.valid_once (h : Tickets w) : w.tasks.countP (w.Valid ·) ≤ 1 := by
  cases hp : w.lifecycle.pendingRecovery with
  | none =>
    refine (List.countP_eq_zero.2 fun t _ hvalid => ?_).le.trans (Nat.zero_le 1)
    obtain ⟨⟨p, hpend, -⟩, -⟩ : w.Valid t := of_decide_eq_true hvalid
    rw [hp] at hpend
    cases hpend
  | some p =>
    by_cases hd : w.lifecycle.desired = some p.desired
    · refine (List.countP_mono_left fun t _ hvalid => ?_).trans (h.heldOnce p hp hd)
      obtain ⟨⟨p', hpend, hf, hdes⟩, -⟩ : w.Valid t := of_decide_eq_true hvalid
      obtain rfl := Option.some.inj (hp.symm.trans hpend)
      exact decide_eq_true ⟨hf, hdes⟩
    · refine (List.countP_eq_zero.2 fun t _ hvalid => hd ?_).le.trans (Nat.zero_le 1)
      obtain ⟨⟨p', hpend, -, hdes⟩, hdesired⟩ : w.Valid t := of_decide_eq_true hvalid
      obtain rfl := Option.some.inj (hp.symm.trans hpend)
      rw [hdes]
      exact hdesired.1

/-- A failure of a generation that is up is followed up: until a new generation has begun
there is a ticket with a task, or an explicit start that waits in its place. -/
theorem followed_of_tickets (h : Tickets w) {g : ℕ} (hl : w.lifecycle.Live g) (bs : List SchedAct)
    (hbs : ∀ a ∈ bs, a ≠ .stop ∧ a ≠ .shutdown) :
    let w' := Steps.run step (w.step (.loopFailed g)) bs
    w'.lifecycle.terminal = false → w'.lifecycle.generationExhausted = false →
      w'.lifecycle.nextGeneration = w.lifecycle.nextGeneration →
      ∃ d, w'.lifecycle.IsDesired d ∧ (d ∈ w'.claims ∨ ∃ t ∈ w'.tasks, w'.lifecycle.IsCurrent t ∧ t.desired = d) := by
  intro w' hterm hexh hgen
  have hfirst : Moves False w.lifecycle (w.step (.loopFailed g)).lifecycle :=
    run_moves [.loopFailed g] fun a ha => by
      rw [List.mem_singleton.1 ha]
      exact ⟨nofun, nofun⟩
  have hrest : Moves False (w.step (.loopFailed g)).lifecycle w'.lifecycle := run_moves bs hbs
  have h' : Tickets w' := Steps.run_inv (fun _ a h => h.step a) bs _ (h.step _)
  obtain ⟨hnl, hgen'⟩ := not_live_loopFailed hl
  have hdown : ∀ g', ¬w'.lifecycle.Live g' := hrest.live hnl (hgen.trans hgen'.symm)
  -- the run was desired, and nothing has ended that
  have hdesired : w'.lifecycle.desired ≠ none := by
    intro hnone
    rcases (hfirst.trans hrest).kept hnone with hn | hn | hn | hn
    · rcases h.live g hl with hs | ht
      · rw [hn] at hs
        cases hs
      · rw [(hfirst.trans hrest).terminal ht] at hterm
        cases hterm
    · rw [hn] at hterm
      cases hterm
    · rw [hn] at hexh
      cases hexh
    · exact hn
  obtain ⟨d, hd⟩ := Option.ne_none_iff_exists'.1 hdesired
  refine ⟨d, h'.isDesired_iff.2 hd, ?_⟩
  rcases h'.served hdown d hd with hmem | ⟨p, hp, rfl⟩
  · exact .inl hmem
  · exact .inr ⟨p, h'.held p hp hd, ⟨hp, h'.isDesired_iff.2 hd⟩, rfl⟩

/-- **A stop wins.** In every state of every interleaving: after a stop or a shutdown only
starts with a later token begin, and every ticket and claim there is has an earlier one;
after a shutdown none begins; one ticket at most is valid, and no failure is begun from
twice; and a failed generation is followed up. -/
theorem stop_wins (as : List SchedAct) :
    let w := Steps.run step init as
    (∀ bs, ∃ later, (Steps.run step (w.step .stop) bs).begins = w.begins ++ later ∧ ∀ b ∈ later, w.lifecycle.nextToken ≤ b.1.token) ∧
    (∀ bs, (Steps.run step (w.step .shutdown) bs).begins = w.begins) ∧
    ((∀ d ∈ w.claims, d < w.lifecycle.nextToken) ∧ ∀ t ∈ w.tasks, t.desired < w.lifecycle.nextToken) ∧
    w.tasks.countP (w.Valid ·) ≤ 1 ∧
    (w.begins.Pairwise fun a b => ∀ t u, a.1 = .recovery t → b.1 = .recovery u → ¬SameFailure t u) ∧
    ∀ g, w.lifecycle.Live g → ∀ bs, (∀ a ∈ bs, a ≠ .stop ∧ a ≠ .shutdown) →
      let w' := Steps.run step (w.step (.loopFailed g)) bs
      w'.lifecycle.terminal = false → w'.lifecycle.generationExhausted = false →
        w'.lifecycle.nextGeneration = w.lifecycle.nextGeneration →
        ∃ d, w'.lifecycle.IsDesired d ∧ (d ∈ w'.claims ∨ ∃ t ∈ w'.tasks, w'.lifecycle.IsCurrent t ∧ t.desired = d) := by
  intro w
  have h : Tickets w := run_tickets as
  refine ⟨fun bs => ?_, fun bs => ?_, ⟨h.claimTokens, h.taskTokens⟩, h.valid_once, h.beginsOnce, fun g hl bs hbs => followed_of_tickets h hl bs hbs⟩
  · have hlater : Later w.lifecycle.nextToken w.begins (w.step .stop) := later_stopWith w.lifecycle.beginExplicitStop_stopped rfl
    exact (Steps.run_inv (fun _ a h => h.step a) bs _ hlater).begins
  -- a shutdown is a stop with the flag set, and the flag stays
  · have hstopped := { w.lifecycle with terminal := true }.beginExplicitStop_stopped
    have hsame := { w with lifecycle := w.lifecycle.beginTerminalShutdown.2 }.launchCleanup_same w.lifecycle.beginTerminalShutdown.1
    have hterm : (w.step .shutdown).lifecycle.terminal = true := by
      show (w.stopWith _).lifecycle.terminal = true
      rw [Scheduler.stopWith, hsame.1]
      exact (desired_of_stopped hstopped).2.2
    exact (terminal_run bs hterm).trans hsame.2

/-- An explicit start after a failure takes the place of the recovery: no ticket is valid
while it waits, though nothing was stopped and no new generation has begun. -/
theorem restart_replaces_ticket :
    let w := Steps.run step init [.startExplicit, .loopFailed 1, .startExplicit]
    w.lifecycle.terminal = false ∧ w.lifecycle.generationExhausted = false ∧ w.lifecycle.nextGeneration = 1 ∧
      w.lifecycle.state = .stopping 1 ∧ w.lifecycle.pendingRecovery = none ∧ w.claims = [1] := by
  decide

end Scheduler

end EasiFlux
