import EasiFlux.Model.Accounts

/-!
# Account mutations are all or nothing

`account_mutations_atomic`: whatever port calls fail, a mutation that returns `Ok` has
stored and put in force the configuration it is for, and one that returns an error has
left everything as it was, unless a call of its rollback failed too. A switch that could
not be rolled back leaves the connection down.

Until it closes the connection a switch only reads. What it puts back later is the runtime
configuration it read and the connection of the active account, so the stored configuration
and the connection are as before when they agreed with these (`InStep`, `ConnectionSettled`).
-/

namespace EasiFlux

open CrashIo

/-- The calls of a switch that come before it closes the connection. -/
def PortCall.reads : PortCall → Bool
  | .loadCredential | .preflight => true
  | _ => false

namespace AccountPort

variable {p q : AccountPort} {α : Type}

/-- The stored configuration is the one in force. -/
def InStep (p : AccountPort) : Prop := p.persisted = p.runtime

/-- The connection is down, or up for the active account in the current session. -/
def ConnectionSettled (p : AccountPort) : Prop :=
  p.connection = .down ∨
    p.connection = ⟨.connected, some ⟨normalizeAccountId p.runtime.activeAccountId, p.sessionEpoch⟩⟩

/-- Everything a mutation may touch is as before. -/
structure Restored (p p' : AccountPort) : Prop where
  persisted : p.InStep → p'.persisted = p.persisted
  runtime : p'.runtime = p.runtime
  credentials : p'.credentials = p.credentials
  epoch : p'.sessionEpoch = p.sessionEpoch
  connection : p.ConnectionSettled → p'.connection = p.connection

/-! ## Port calls -/

theorem wp_portCall {call : PortCall} {go : AccountPort → α × AccountPort} {Q : α → AccountPort → Prop}
    {E : AppError → AccountPort → Prop} (hQ : Q (go p).1 (go p).2) (hE : ∀ n, E (p.answer n) (p.noteFailure call n)) :
    wp (portCall call go) Q E (fun _ => True) p := by
  refine wp_call (fun a s h => ?_) (fun e s h => ?_) hE (fun _ => trivial)
  · obtain ⟨ha, rfl⟩ := Prod.mk.inj h
    obtain rfl := Except.ok.inj ha
    exact hQ
  · obtain ⟨ha, -⟩ := Prod.mk.inj h
    cases ha

theorem wp_readConfig {Q : AppConfig → AccountPort → Prop} {E : AppError → AccountPort → Prop} (h : Q p.runtime p) :
    wp readConfig Q E (fun _ => True) p := wp_bind (wp_get.2 (wp_pure.2 h))

theorem wp_connectionStatus {Q : ConnectionStatus → AccountPort → Prop} {E : AppError → AccountPort → Prop}
    (h : Q p.connection.status p) : wp connectionStatus Q E (fun _ => True) p := wp_bind (wp_get.2 (wp_pure.2 h))

theorem wp_currentSessionEpoch {Q : ℕ → AccountPort → Prop} {E : AppError → AccountPort → Prop} (h : Q p.sessionEpoch p) :
    wp currentSessionEpoch Q E (fun _ => True) p := wp_bind (wp_get.2 (wp_pure.2 h))

section Calls

variable {config : AppConfig} {Q : Unit → AccountPort → Prop} {E : AppError → AccountPort → Prop}

theorem wp_persistConfig (hQ : Q () (p.setPersisted config)) (hE : ∀ n, E (p.answer n) (p.noteFailure .persistConfig n)) :
    wp (persistConfig config) Q E (fun _ => True) p := wp_portCall hQ hE

theorem wp_connect {accountId : String} {realtime : Bool} {credential : ApiCredential} {epoch : ℕ}
    (hQ : Q () (p.setConnection ⟨.connected, some ⟨accountId, epoch⟩⟩ (some (realtime, credential))))
    (hE : ∀ n, E (p.answer n) (p.noteFailure .connect n)) :
    wp (connect accountId realtime credential epoch) Q E (fun _ => True) p := wp_portCall hQ hE

theorem wp_saveCredential {accountId : String} {credential : ApiCredential} (hQ : Q () (p.setCredential accountId (some credential)))
    (hE : ∀ n, E (p.answer n) (p.noteFailure .saveCredential n)) :
    wp (saveCredential accountId credential) Q E (fun _ => True) p :=
  wp_portCall hQ hE

theorem wp_deleteCredential {accountId : String} (hQ : Q () (p.setCredential accountId none))
    (hE : ∀ n, E (p.answer n) (p.noteFailure .deleteCredential n)) : wp (deleteCredential accountId) Q E (fun _ => True) p :=
  wp_portCall hQ hE

end Calls

theorem mem_distinctIds {ids normalized : List String} (h : normalized.Nodup) : (distinctIds ids normalized).Nodup := by
  induction ids generalizing normalized with
  | nil => exact h
  | cons id rest ih =>
    unfold distinctIds
    split
    · exact ih h
    · rename_i hnew
      push Not at hnew
      exact ih (List.nodup_append.2 ⟨h, List.nodup_singleton _, fun a ha b hb => by
        rw [List.mem_singleton.1 hb]
        exact fun he => hnew.2 (he ▸ ha)⟩)

/-- **The accounts are listed once each.** -/
theorem nodup_normalizeAccountIds (accounts : List String) (active : String) : (normalizeAccountIds accounts active).Nodup := by
  have hnodup : (distinctIds accounts []).Nodup := mem_distinctIds List.nodup_nil
  unfold normalizeAccountIds
  simp only
  split
  · exact hnodup
  · rename_i hnew
    exact List.nodup_cons.2 ⟨hnew, hnodup⟩

/-! ## The rollback of a switch -/

/-- What a rollback leaves of the state `q` it starts in. -/
structure RolledBack (config : AppConfig) (status : ConnectionStatus) (credential : Option ApiCredential) (primary : AppError)
    (q : AccountPort) (error : AppError) (q' : AccountPort) : Prop where
  runtime : q'.runtime = config
  credentials : q'.credentials = q.credentials
  epoch : q'.sessionEpoch = q.sessionEpoch
  outcome : q'.failures = q.failures ∧ error = primary ∧ q'.persisted = config ∧
      q'.connection = (if status = .connected ∧ credential.isSome
        then ⟨.connected, some ⟨normalizeAccountId config.activeAccountId, q.sessionEpoch⟩⟩ else q.connection) ∨
    ∃ failed, failed ≠ [] ∧ q'.failures = q.failures ++ failed ∧ error = rollbackFailure primary (failed.map FailedCall.error) ∧
      q'.connection = .down

theorem wp_pushError {call : PortIo Unit} {errors : List AppError} {Q : List AppError → AccountPort → Prop}
    (h : wp call (fun _ => Q errors) (fun e => Q (errors ++ [e])) (fun _ => True) q) :
    wp (pushError call errors) Q (fun _ _ => False) (fun _ => True) q := by
  unfold pushError
  refine wp_bind (wp_attempt.2 (wp_mono h (fun _ _ hq => ?_) (fun _ _ hq => ?_) (fun _ h => h)))
  · exact wp_pure.2 hq
  · exact wp_pure.2 hq

/-- The end of a rollback: the errors decide what becomes of the connection. -/
theorem wp_rollbackEnd {config : AppConfig} {status : ConnectionStatus} {credential : Option ApiCredential} {primary : AppError}
    {errors : List AppError} {failed : List FailedCall} {q' : AccountPort} (hr : q'.runtime = config)
    (hc : q'.credentials = q.credentials) (he : q'.sessionEpoch = q.sessionEpoch) (hf : q'.failures = q.failures ++ failed)
    (herr : failed.map FailedCall.error = errors) (hok : errors = [] → q'.persisted = config ∧ q'.connection =
      (if status = .connected ∧ credential.isSome
        then ⟨.connected, some ⟨normalizeAccountId config.activeAccountId, q.sessionEpoch⟩⟩ else q.connection)) :
    wp (if errors = [] then pure primary else do
        disconnect
        pure (rollbackFailure primary errors) : PortIo AppError)
      (RolledBack config status credential primary q) (fun _ _ => False) (fun _ => True) q' := by
  subst herr
  split
  · rename_i hnil
    obtain ⟨hp, hcon⟩ := hok hnil
    rw [List.map_eq_nil_iff.1 hnil, List.append_nil] at hf
    exact wp_pure.2 ⟨hr, hc, he, .inl ⟨hf, rfl, hp, hcon⟩⟩
  · rename_i hne
    refine wp_bind (wp_modify.2 (wp_pure.2 ?_))
    exact ⟨hr, hc, he, .inr ⟨failed, fun h => hne (congrArg _ h), hf, rfl, rfl⟩⟩

/-- What a rollback does once the stored configuration is put back, or an error is noted. -/
def rollbackRest (config : AppConfig) (status : ConnectionStatus) (credential : Option ApiCredential) (primary : AppError)
    (errors : List AppError) : PortIo AppError := do
  replaceRuntimeConfig config
  let epoch ← currentSessionEpoch
  let errors ←
    match status, credential with
    | .connected, some credential =>
      pushError (connect (normalizeAccountId config.activeAccountId) config.useWebsocket credential epoch) errors
    | _, _ => pure errors
  if errors = [] then pure primary
  else do
    disconnect
    pure (rollbackFailure primary errors)

theorem wp_rollbackRest {config : AppConfig} {status : ConnectionStatus} {credential : Option ApiCredential} {primary : AppError}
    {errors : List AppError} {failed : List FailedCall} {q₁ : AccountPort} (hc : q₁.credentials = q.credentials)
    (he : q₁.sessionEpoch = q.sessionEpoch) (hcon : q₁.connection = q.connection) (hf : q₁.failures = q.failures ++ failed)
    (herr : failed.map FailedCall.error = errors) (hp : errors = [] → q₁.persisted = config) :
    wp (rollbackRest config status credential primary errors) (RolledBack config status credential primary q)
      (fun _ _ => False) (fun _ => True) q₁ := by
  unfold rollbackRest
  refine wp_bind (wp_modify.2 (wp_bind (wp_bind (wp_get.2 (wp_pure.2 ?_)))))
  split
  · rename_i credential
    refine wp_bind (wp_pushError (wp_portCall ?_ fun n => ?_))
    · refine wp_rollbackEnd rfl hc he hf herr fun hnil => ⟨hp hnil, ?_⟩
      rw [if_pos ⟨rfl, rfl⟩, ← he]
      rfl
    · have hfailures : (q₁.noteFailure .connect n).failures = q.failures ++ (failed ++ [⟨.connect, q₁.answer n⟩]) := by
        show q₁.failures ++ [_] = _
        rw [hf, List.append_assoc]
      refine wp_rollbackEnd rfl hc he hfailures ?_ fun hnil => ?_
      · rw [List.map_append, herr]
        rfl
      · simp at hnil
  · rename_i hno
    refine wp_bind (wp_pure.2 (wp_rollbackEnd rfl hc he hf herr fun hnil => ⟨hp hnil, ?_⟩))
    rw [if_neg]
    · exact hcon
    · rintro ⟨rfl, hs⟩
      obtain ⟨c, rfl⟩ := Option.isSome_iff_exists.1 hs
      exact hno c rfl rfl

theorem wp_rollbackSwitch (config : AppConfig) (status : ConnectionStatus) (credential : Option ApiCredential) (primary : AppError) :
    wp (rollbackSwitch config status credential primary) (RolledBack config status credential primary q) (fun _ _ => False)
      (fun _ => True) q := by
  show wp (pushError (persistConfig config) [] >>= rollbackRest config status credential primary) _ _ _ q
  refine wp_bind (wp_pushError (wp_portCall ?_ fun n => ?_))
  · exact wp_rollbackRest rfl rfl rfl (List.append_nil _).symm rfl fun _ => rfl
  · exact wp_rollbackRest rfl rfl rfl rfl rfl fun h => by simp at h

/-! ## The switch -/

/-- What a switch that returns `Ok` has done. -/
structure Switched (p : AccountPort) (accountId : String) (result : AccountSwitchResult) (p' : AccountPort) : Prop where
  config : p'.persisted = p'.runtime
  runtime : p'.runtime = p.runtime.retarget (normalizeAccountId accountId)
    (normalizeAccountIds p.runtime.accounts (normalizeAccountId p.runtime.activeAccountId))
  member : normalizeAccountId accountId ∈ p'.runtime.accounts
  nodup : p'.runtime.accounts.Nodup
  credentials : p'.credentials = p.credentials
  epoch : p'.sessionEpoch = wrappingNext p.sessionEpoch
  result : result = ⟨normalizeAccountId accountId, p.connection.status = .connected, p'.sessionEpoch⟩
  connection : p'.connection = (if p.connection.status = .connected
    then ⟨.connected, some ⟨normalizeAccountId accountId, saturatingNext p.sessionEpoch⟩⟩ else .down)
  session : p'.activeSession = some ⟨normalizeAccountId accountId, p'.sessionEpoch⟩
  failures : p'.failures = p.failures

/-- What a switch that returns an error has left; `new` are the calls that failed in it. -/
structure SwitchFailed (p : AccountPort) (error : AppError) (p' : AccountPort) (new : List FailedCall) : Prop where
  failures : p'.failures = p.failures ++ new
  epoch : p'.sessionEpoch = p.sessionEpoch
  /-- before the connection is closed nothing is done -/
  untouched : (∀ f ∈ new, f.call.reads) → p' = p.noteFailures new
  restored : new.length ≤ 1 → Restored p p'
  notRestored : ∀ primary failed, new = primary :: failed → failed ≠ [] →
    p'.connection = .down ∧ error = rollbackFailure primary.error (failed.map FailedCall.error)

theorem noteFailures_nil (p : AccountPort) : p.noteFailures [] = p := by
  unfold noteFailures
  rw [List.append_nil]

theorem Restored.refl (p : AccountPort) : Restored p p := ⟨fun _ => rfl, rfl, rfl, rfl, fun _ => rfl⟩

/-- An error of a check. -/
theorem switchFailed_same (error : AppError) : SwitchFailed p error p [] :=
  ⟨(List.append_nil _).symm, rfl, fun _ => (noteFailures_nil p).symm, fun _ => .refl p, fun _ _ h => nomatch h⟩

theorem switchFailed_call (call : PortCall) (n : ℕ) (error : AppError) :
    SwitchFailed p error (p.noteFailure call n) [⟨call, p.answer n⟩] := by
  refine ⟨rfl, rfl, fun _ => rfl, fun _ => ⟨fun _ => rfl, rfl, rfl, rfl, fun _ => rfl⟩, fun primary failed h hne => ?_⟩
  obtain ⟨-, rfl⟩ := List.cons.inj h
  exact absurd rfl hne

/-- A rollback undoes what the switch had done by then. -/
theorem RolledBack.switchFailed {primary : FailedCall} {error : AppError} {p' : AccountPort} {credential : Option ApiCredential}
    (hcall : primary.call.reads = false) (hcred : credential.isSome = (p.connection.status = .connected : Bool))
    (hq : q.credentials = p.credentials ∧ q.sessionEpoch = p.sessionEpoch ∧ q.connection = .down ∧
      q.failures = p.failures ++ [primary])
    (h : RolledBack p.runtime p.connection.status credential primary.error q error p') :
    ∃ new, SwitchFailed p error p' new := by
  obtain ⟨hc, he, hcon, hf⟩ := hq
  have hlate : ∀ failed, ¬∀ f ∈ primary :: failed, f.call.reads := fun failed hall => by
    rw [hall primary List.mem_cons_self] at hcall
    cases hcall
  rcases h.outcome with ⟨hf', rfl, hp, hcon'⟩ | ⟨failed, hne, hf', rfl, hcon'⟩
  · refine ⟨[primary], hf'.trans hf, h.epoch.trans he, fun hall => absurd hall (hlate []), fun _ => ⟨fun hin => hp.trans hin.symm,
      h.runtime, h.credentials.trans hc, h.epoch.trans he, fun hs => ?_⟩, fun primary failed heq hne => ?_⟩
    · rw [hcon', hcon, he]
      rcases hs with hs | hs
      · rw [if_neg (by rw [hs]; exact fun h => nomatch h.1), hs]
      · have hst : p.connection.status = .connected := by rw [hs]
        rw [if_pos ⟨hst, by rw [hcred]; simpa using hst⟩, hs]
    · obtain ⟨-, rfl⟩ := List.cons.inj heq
      exact absurd rfl hne
  · refine ⟨primary :: failed, by rw [hf', hf, List.append_assoc]; rfl, h.epoch.trans he, fun hall => absurd hall (hlate failed),
      fun hlen => ?_, fun primary' failed' heq _ => ?_⟩
    · rw [List.length_cons] at hlen
      exact absurd (List.length_eq_zero_iff.1 (by omega)) hne
    · obtain ⟨rfl, rfl⟩ := List.cons.inj heq
      exact ⟨hcon', rfl⟩

theorem wp_safeLoad {accountId : String} {Q : Option ApiCredential → AccountPort → Prop} {E : AppError → AccountPort → Prop}
    (hQ : Q (p.credentials accountId) p)
    (hE : ∀ n, E (.auth "账户凭据不可用") (p.noteFailure .loadCredential n)) :
    wp (safeLoad accountId) Q E (fun _ => True) p :=
  wp_mapErr.2 (wp_portCall hQ hE)

/-- The configuration a switch is for. -/
structure TargetConfig (p : AccountPort) (accountId : String) (target : AppConfig) : Prop where
  eq : target = p.runtime.retarget (normalizeAccountId accountId)
    (normalizeAccountIds p.runtime.accounts (normalizeAccountId p.runtime.activeAccountId))
  member : normalizeAccountId accountId ∈ target.accounts
  nodup : target.accounts.Nodup

theorem TargetConfig.active {accountId : String} {target : AppConfig} (h : TargetConfig p accountId target) :
    target.activeAccountId = normalizeAccountId accountId := by
  rw [h.eq, AppConfig.retarget_active]

/-- The end of a switch: everything is in place but the session. -/
theorem wp_commitSwitch {accountId : String} {target : AppConfig} {connected : Bool}
    (ht : TargetConfig p accountId target) (hcon : connected = decide (p.connection.status = .connected))
    (hc : q.credentials = p.credentials) (he : q.sessionEpoch = p.sessionEpoch) (hp : q.persisted = target)
    (hr : q.runtime = target) (hconn : q.connection = (if p.connection.status = .connected
      then ⟨.connected, some ⟨target.activeAccountId, saturatingNext p.sessionEpoch⟩⟩ else .down))
    (hf : q.failures = p.failures) {E : AppError → AccountPort → Prop} :
    wp (commitSwitch target.activeAccountId connected) (Switched p accountId) E (fun _ => True) q := by
  unfold commitSwitch advanceSessionEpoch
  refine wp_bind (wp_modify.2 (wp_bind (wp_bind (wp_get.2 (wp_bind (wp_modify.2 (wp_pure.2 (wp_bind (wp_modify.2 (wp_pure.2 ?_))))))))))
  have hruntime : ∀ q' : AccountPort, q'.runtime = q.runtime → q'.runtime = target := fun q' h => h.trans hr
  refine ⟨hp.trans hr.symm, ?_, ?_, ?_, hc, ?_, ?_, ?_, ?_, hf⟩
  · rw [hruntime _ rfl, ht.eq]
  · rw [hruntime _ rfl]
    exact ht.member
  · rw [hruntime _ rfl]
    exact ht.nodup
  · exact congrArg wrappingNext he
  · rw [hcon, ht.active]
  · rw [← ht.active]
    exact hconn
  · rw [← ht.active]

theorem wp_formerCredential {U : UrlCrate} {status : ConnectionStatus} {formerId : String}
    {Q : Option ApiCredential → AccountPort → Prop}
    (hQ : ∀ credential : Option ApiCredential, credential.isSome = decide (status = .connected) → Q credential p) :
    wp (formerCredential U status formerId) Q (fun e p' => ∃ new, SwitchFailed p e p' new) (fun _ => True) p := by
  unfold formerCredential
  split
  · rename_i hs
    refine wp_bind (wp_safeLoad (wp_bind (wp_lift (fun credential _ => wp_pure.2 (hQ _ ?_)) fun e _ => ?_)) fun n => ?_)
    · simp [hs]
    · exact ⟨_, switchFailed_same e⟩
    · exact ⟨_, switchFailed_call _ n _⟩
  · rename_i hs
    exact wp_pure.2 (hQ none (by simp [hs]))

theorem wp_failSwitch {former : Option ApiCredential} (primary : FailedCall) {accountId : String}
    (hcall : primary.call.reads = false) (hformer : former.isSome = decide (p.connection.status = .connected))
    (hc : q.credentials = p.credentials) (he : q.sessionEpoch = p.sessionEpoch) (hcon : q.connection = .down)
    (hf : q.failures = p.failures ++ [primary]) :
    wp (failSwitch p.runtime p.connection.status former primary.error) (Switched p accountId)
      (fun error p' => ∃ new, SwitchFailed p error p' new) (fun _ => True) q := by
  unfold failSwitch
  refine wp_bind (wp_mono (wp_rollbackSwitch _ _ _ _) (fun error q' h => ?_) (fun _ _ h => h.elim) (fun _ h => h))
  exact wp_throw.2 (h.switchFailed hcall hformer ⟨hc, he, hcon, hf⟩)

theorem wp_performSwitch {former : Option ApiCredential} {accountId : String} {target : AppConfig} {credential : ApiCredential}
    {realtime : Bool} (hformer : former.isSome = decide (p.connection.status = .connected)) (ht : TargetConfig p accountId target) :
    wp (performSwitch p.runtime target p.connection.status former credential realtime) (Switched p accountId)
      (fun error p' => ∃ new, SwitchFailed p error p' new) (fun _ => True) p := by
  unfold performSwitch
  dsimp only
  refine wp_bind (wp_modify.2 (wp_bind (wp_attempt.2 (wp_persistConfig ?_ fun n => ?_))))
  · refine wp_bind (wp_modify.2 ?_)
    split
    · rename_i hst
      refine wp_bind (wp_bind (wp_get.2 (wp_pure.2 (wp_bind (wp_attempt.2 (wp_connect ?_ fun n => ?_))))))
      · refine wp_commitSwitch ht (decide_eq_true hst).symm ?_ ?_ ?_ ?_ ?_ ?_
        · rfl
        · rfl
        · rfl
        · rfl
        · rw [if_pos hst]
          rfl
        · rfl
      · refine wp_failSwitch ⟨.connect, p.answer n⟩ rfl hformer ?_ ?_ ?_ ?_ <;> rfl
    · rename_i hst
      refine wp_bind (wp_modify.2 (wp_commitSwitch ht (decide_eq_false hst).symm ?_ ?_ ?_ ?_ ?_ ?_))
      · rfl
      · rfl
      · rfl
      · rfl
      · rw [if_neg hst]
        rfl
      · rfl
  · refine wp_failSwitch ⟨.persistConfig, p.answer n⟩ rfl hformer ?_ ?_ ?_ ?_ <;> rfl

/-- **A switch is all or nothing.** A switch to the active account does nothing. -/
theorem wp_switchAccount (U : UrlCrate) (accountId : String) (startRealtime : Option Bool) :
    wp (switchAccount U accountId startRealtime)
      (fun result p' => if normalizeAccountId accountId = normalizeAccountId p.runtime.activeAccountId
        then p' = p ∧ result = ⟨normalizeAccountId accountId, p.connection.status = .connected, p.sessionEpoch⟩
        else Switched p accountId result p')
      (fun error p' => ∃ new, SwitchFailed p error p' new) (fun _ => True) p := by
  unfold switchAccount
  refine wp_bind (wp_readConfig ?_)
  refine wp_bind (wp_connectionStatus ?_)
  split
  · rename_i hsame
    refine wp_bind (wp_currentSessionEpoch (wp_pure.2 ?_))
    exact ⟨rfl, by rw [hsame]⟩
  · dsimp only
    split
    · exact wp_throw.2 ⟨_, switchFailed_same _⟩
    · rename_i hmem
      rw [not_not] at hmem
      refine wp_bind (wp_safeLoad (wp_bind (wp_lift (fun target _ => ?_) fun e _ => ⟨_, switchFailed_same e⟩))
        fun n => ⟨_, switchFailed_call _ n _⟩)
      refine wp_bind (wp_portCall ?_ fun n => ⟨_, switchFailed_call _ n _⟩)
      refine wp_bind (wp_formerCredential fun former hformer => ?_)
      exact wp_performSwitch hformer ⟨rfl, hmem, nodup_normalizeAccountIds _ _⟩

/-! ## Deleting an account, saving its credentials -/

/-- What these leave when they return an error: at most the credential has changed. -/
structure CredentialFailed (p : AccountPort) (error : AppError) (p' : AccountPort) (new : List FailedCall) : Prop where
  failures : p'.failures = p.failures ++ new
  persisted : p'.persisted = p.persisted
  runtime : p'.runtime = p.runtime
  epoch : p'.sessionEpoch = p.sessionEpoch
  connection : p'.connection = p.connection
  credentials : new.length ≤ 1 → p'.credentials = p.credentials
  notRestored : ∀ primary failed, new = primary :: failed → failed ≠ [] →
    error = credentialNotRestored primary.error ∧ error ≠ primary.error

/-- What the deletion of an account that returns `Ok` has done. Its notifications are
deleted too, or are still to be. -/
structure Deleted (p : AccountPort) (target : String) (result : DeleteAccountResult) (p' : AccountPort) : Prop where
  config : p'.persisted = p'.runtime
  runtime : p'.runtime = { p.runtime with accounts :=
    (normalizeAccountIds p.runtime.accounts (normalizeAccountId p.runtime.activeAccountId)).filter (· ≠ target) }
  deleted : target ∉ p'.runtime.accounts
  nodup : p'.runtime.accounts.Nodup
  notifications : result = .complete ∧ p'.deletedPartitions = p.deletedPartitions ++ [target] ∧ p'.failures = p.failures ∨
    result = .cleanupPending ∧ p'.deletedPartitions = p.deletedPartitions ∧
      ∃ error, p'.failures = p.failures ++ [⟨.deleteNotificationPartition, error⟩]
  credentials : p'.credentials = Function.update p.credentials target none
  epoch : p'.sessionEpoch = p.sessionEpoch
  connection : p'.connection = p.connection

/-- The accounts with `target` at the end, if it is new. -/
def listed (accounts : List String) (target : String) : List String :=
  if target ∈ accounts then accounts else accounts ++ [target]

/-- What a saved credential has changed. -/
structure CredentialSaved (U : UrlCrate) (p : AccountPort) (target : String) (request : SaveCredentialRequest)
    (p' : AccountPort) : Prop where
  config : p'.persisted = p'.runtime
  runtime : p'.runtime = { p.runtime with
    accounts := listed (normalizeAccountIds p.runtime.accounts p.runtime.activeAccountId) target }
  member : target ∈ p'.runtime.accounts
  nodup : p'.runtime.accounts.Nodup
  credentials : ∃ credential, credential.isValid U ∧ p'.credentials = Function.update p.credentials target (some credential) ∧
    requestedCredential U target (target ∈ normalizeAccountIds p.runtime.accounts p.runtime.activeAccountId)
      (p.credentials target) request = .ok credential
  epoch : p'.sessionEpoch = p.sessionEpoch
  connection : p'.connection = p.connection

theorem credentialNotRestored_ne (primary : AppError) : credentialNotRestored primary ≠ primary := by
  intro h
  cases primary with
  | internal m =>
    have hm : ("内部错误: " ++ m ++ "；回滚失败：无法恢复账户凭据").length = m.length :=
      congrArg String.length (AppError.internal.inj h)
    have hpos : 0 < "内部错误: ".length := by decide
    rw [String.length_append, String.length_append] at hm
    omega
  | _ => cases h

/-- The state differs in the credentials alone, and one call has failed. -/
theorem credentialFailed_of {error : AppError} {p' : AccountPort} (primary : FailedCall) (hp : p'.persisted = p.persisted)
    (hr : p'.runtime = p.runtime) (he : p'.sessionEpoch = p.sessionEpoch) (hcon : p'.connection = p.connection)
    (hf : p'.failures = p.failures ++ [primary]) (hc : p'.credentials = p.credentials) :
    ∃ new, CredentialFailed p error p' new := by
  refine ⟨[primary], hf, hp, hr, he, hcon, fun _ => hc, fun _ failed heq hne => ?_⟩
  obtain ⟨-, rfl⟩ := List.cons.inj heq
  exact absurd rfl hne

theorem credentialFailed_same (error : AppError) : ∃ new, CredentialFailed p error p new :=
  ⟨[], (List.append_nil _).symm, rfl, rfl, rfl, rfl, fun _ => rfl, fun _ _ h => nomatch h⟩

/-- The rollback failed too. -/
theorem credentialFailed_twice {primary : FailedCall} {p' : AccountPort} (second : FailedCall) (hp : p'.persisted = p.persisted)
    (hr : p'.runtime = p.runtime) (he : p'.sessionEpoch = p.sessionEpoch) (hcon : p'.connection = p.connection)
    (hf : p'.failures = p.failures ++ [primary] ++ [second]) :
    ∃ new, CredentialFailed p (credentialNotRestored primary.error) p' new := by
  refine ⟨[primary, second], by rw [hf, List.append_assoc]; rfl, hp, hr, he, hcon, fun hlen => ?_, fun _ failed heq _ => ?_⟩
  · simp at hlen
  · obtain ⟨rfl, -⟩ := List.cons.inj heq
    exact ⟨rfl, credentialNotRestored_ne _⟩

/-- A credential that is put back is the one that was there. -/
theorem update_back {f : String → Option ApiCredential} {id : String} {c : Option ApiCredential} :
    Function.update (Function.update f id c) id (f id) = f := by
  rw [Function.update_idem, Function.update_eq_self]

/-- The stored configuration could not be replaced: the credential is put back. -/
theorem wp_restoreDeleted {target : String} (primary : FailedCall) (hp : q.persisted = p.persisted) (hr : q.runtime = p.runtime)
    (he : q.sessionEpoch = p.sessionEpoch) (hcon : q.connection = p.connection) (hf : q.failures = p.failures ++ [primary])
    (hc : q.credentials = Function.update p.credentials target none) {Q : DeleteAccountResult → AccountPort → Prop} :
    wp (match p.credentials target with
      | none => Io.throw primary.error
      | some credential => do
        match ← Io.attempt (saveCredential target credential) with
        | .ok () => Io.throw primary.error
        | .error _ => Io.throw (credentialNotRestored primary.error) : PortIo DeleteAccountResult)
      Q (fun error p' => ∃ new, CredentialFailed p error p' new) (fun _ => True) q := by
  split
  · rename_i hnone
    refine wp_throw.2 (credentialFailed_of primary hp hr he hcon hf ?_)
    rw [hc, ← hnone, Function.update_eq_self]
  · rename_i credential hsome
    refine wp_bind (wp_attempt.2 (wp_saveCredential ?_ fun n => ?_))
    · refine wp_throw.2 (credentialFailed_of primary hp hr he hcon hf ?_)
      show Function.update q.credentials target (some credential) = _
      rw [hc, ← hsome, update_back]
    · refine wp_throw.2 (credentialFailed_twice ⟨.saveCredential, q.answer n⟩ hp hr he hcon ?_)
      rw [← hf]
      rfl

theorem wp_deleteAccount (accountId : String) :
    wp (deleteAccount accountId) (Deleted p (normalizeAccountId accountId))
      (fun error p' => ∃ new, CredentialFailed p error p' new) (fun _ => True) p := by
  unfold deleteAccount
  refine wp_bind (wp_readConfig ?_)
  dsimp only
  generalize normalizeAccountId accountId = target
  split
  · exact wp_throw.2 (credentialFailed_same _)
  split
  · exact wp_throw.2 (credentialFailed_same _)
  split
  · exact wp_throw.2 (credentialFailed_same _)
  -- the configuration without the account, once and for all
  have hnodup := nodup_normalizeAccountIds p.runtime.accounts (normalizeAccountId p.runtime.activeAccountId)
  set accounts := normalizeAccountIds p.runtime.accounts (normalizeAccountId p.runtime.activeAccountId) with haccounts
  have hgone : target ∉ accounts.filter (· ≠ target) := fun h => of_decide_eq_true (List.mem_filter.1 h).2 rfl
  have hlist : (accounts.filter (· ≠ target)).Nodup := hnodup.filter _
  refine wp_bind (wp_safeLoad ?_ fun n => ?_)
  · refine wp_bind (wp_mapErr.2 (wp_deleteCredential ?_ fun n => ?_))
    · refine wp_bind (wp_attempt.2 (wp_persistConfig ?_ fun n => ?_))
      · refine wp_bind (wp_modify.2 (wp_bind (wp_attempt.2 (wp_portCall ?_ fun n => ?_))))
        · exact wp_pure.2 ⟨rfl, rfl, hgone, hlist, .inl ⟨rfl, rfl, rfl⟩, rfl, rfl, rfl⟩
        · exact wp_pure.2 ⟨rfl, rfl, hgone, hlist, .inr ⟨rfl, rfl, _, rfl⟩, rfl, rfl, rfl⟩
      · refine wp_restoreDeleted ⟨.persistConfig, p.answer n⟩ ?_ ?_ ?_ ?_ ?_ ?_ <;> rfl
    · refine credentialFailed_of ⟨.deleteCredential, p.answer n⟩ ?_ ?_ ?_ ?_ ?_ ?_ <;> rfl
  · refine credentialFailed_of ⟨.loadCredential, p.answer n⟩ ?_ ?_ ?_ ?_ ?_ ?_ <;> rfl

theorem nodup_listed {accounts : List String} {target : String} (h : accounts.Nodup) : (listed accounts target).Nodup := by
  unfold listed
  split
  · exact h
  · rename_i hnew
    refine List.nodup_append.2 ⟨h, List.nodup_singleton _, fun a ha b hb => ?_⟩
    rw [List.mem_singleton.1 hb]
    exact fun he => hnew (he ▸ ha)

theorem mem_listed {accounts : List String} {target : String} : target ∈ listed accounts target := by
  unfold listed
  split
  · assumption
  · exact List.mem_append_right _ (List.mem_singleton.2 rfl)

/-- The credential a request stands for passes the check. -/
theorem valid_of_requested {U : UrlCrate} {target : String} {configured : Bool} {existing : Option ApiCredential}
    {request : SaveCredentialRequest} {credential : ApiCredential}
    (h : requestedCredential U target configured existing request = .ok credential) : credential.isValid U := by
  have hcheck : ∀ {c : ApiCredential} {e : AppError}, (if c.isValid U then .ok c else .error e : AppResult ApiCredential) =
      .ok credential → credential.isValid U := by
    intro c e hc
    split at hc
    · rename_i hvalid
      rwa [← Except.ok.inj hc]
    · cases hc
  unfold requestedCredential at h
  simp only at h
  split at h
  · cases h
  split at h
  · obtain ⟨base, -, h⟩ := Results.bind_eq_ok.1 h
    exact hcheck h
  split at h
  · cases h
  · exact hcheck h

/-- The configuration could not be stored: what was there before the credential is put
back. -/
theorem wp_restoreSaved {target : String} (credential : ApiCredential) (primary : FailedCall) (hp : q.persisted = p.persisted)
    (hr : q.runtime = p.runtime) (he : q.sessionEpoch = p.sessionEpoch) (hcon : q.connection = p.connection)
    (hf : q.failures = p.failures ++ [primary]) (hc : q.credentials = Function.update p.credentials target (some credential))
    {Q : Unit → AccountPort → Prop} :
    wp (do
      let restored ← Io.attempt (match p.credentials target with
        | some credential => saveCredential target credential
        | none => deleteCredential target)
      match restored with
      | .ok () => Io.throw primary.error
      | .error _ => Io.throw (credentialNotRestored primary.error) : PortIo Unit)
      Q (fun error p' => ∃ new, CredentialFailed p error p' new) (fun _ => True) q := by
  have hfail : ∀ call n, ∃ new, CredentialFailed p (credentialNotRestored primary.error) (q.noteFailure call n) new := by
    intro call n
    refine credentialFailed_twice ⟨call, q.answer n⟩ hp hr he hcon ?_
    rw [← hf]
    rfl
  have hback : ∀ former, p.credentials target = former →
      ∃ new, CredentialFailed p primary.error (q.setCredential target former) new := by
    rintro former rfl
    refine credentialFailed_of primary hp hr he hcon hf ?_
    show Function.update q.credentials target _ = _
    rw [hc, update_back]
  split
  · rename_i former hsome
    exact wp_bind (wp_attempt.2 (wp_saveCredential (wp_throw.2 (hback _ hsome)) fun n => wp_throw.2 (hfail _ n)))
  · rename_i hnone
    exact wp_bind (wp_attempt.2 (wp_deleteCredential (wp_throw.2 (hback _ hnone)) fun n => wp_throw.2 (hfail _ n)))

theorem wp_saveCredentials (U : UrlCrate) (request : SaveCredentialRequest) :
    wp (saveCredentials U request) (fun _ p' => CredentialSaved U p (normalizeAccountId request.accountId) request p')
      (fun error p' => ∃ new, CredentialFailed p error p' new) (fun _ => True) p := by
  unfold saveCredentials
  refine wp_bind (wp_readConfig ?_)
  dsimp only
  generalize normalizeAccountId request.accountId = target
  have hnodup := nodup_normalizeAccountIds p.runtime.accounts p.runtime.activeAccountId
  refine wp_bind (wp_safeLoad ?_ fun n => ?_)
  · refine wp_bind (wp_lift (fun credential hreq => ?_) fun e _ => credentialFailed_same e)
    refine wp_bind (wp_mapErr.2 (wp_saveCredential ?_ fun n => ?_))
    · refine wp_bind (wp_attempt.2 (wp_persistConfig ?_ fun n => ?_))
      · exact wp_modify.2 ⟨rfl, rfl, mem_listed, nodup_listed hnodup, ⟨credential, valid_of_requested hreq, rfl, hreq⟩, rfl, rfl⟩
      · refine wp_restoreSaved credential ⟨.persistConfig, p.answer n⟩ ?_ ?_ ?_ ?_ ?_ ?_ <;> rfl
    · refine credentialFailed_of ⟨.saveCredential, p.answer n⟩ ?_ ?_ ?_ ?_ ?_ ?_ <;> rfl
  · refine credentialFailed_of ⟨.loadCredential, p.answer n⟩ ?_ ?_ ?_ ?_ ?_ ?_ <;> rfl

/-! ## The mutations -/

/-- Below the last epoch a switch moves to the next one, and a connection it has made is
for that one. -/
theorem Switched.next {accountId : String} {result : AccountSwitchResult} {p' : AccountPort} (h : Switched p accountId result p')
    (hepoch : p.sessionEpoch + 1 < 2 ^ 64) :
    p'.sessionEpoch = p.sessionEpoch + 1 ∧ ∀ session, p'.connection.session = some session → session.sessionEpoch = p'.sessionEpoch := by
  have hwrap : wrappingNext p.sessionEpoch = p.sessionEpoch + 1 := Nat.mod_eq_of_lt hepoch
  have hsat : saturatingNext p.sessionEpoch = p.sessionEpoch + 1 := Nat.min_eq_left (Nat.le_sub_one_of_lt hepoch)
  refine ⟨h.epoch.trans hwrap, fun session hs => ?_⟩
  rw [h.connection] at hs
  split at hs
  · obtain rfl := Option.some.inj hs
    rw [h.epoch, hwrap, ← hsat]
  · cases hs

/-- **Account mutations are all or nothing.** -/
theorem account_mutations_atomic (U : UrlCrate) (p : AccountPort) :
    (∀ accountId startRealtime, wp (switchAccount U accountId startRealtime)
      (fun result p' => if normalizeAccountId accountId = normalizeAccountId p.runtime.activeAccountId
        then p' = p ∧ result = ⟨normalizeAccountId accountId, p.connection.status = .connected, p.sessionEpoch⟩
        else Switched p accountId result p' ∧ (p.sessionEpoch + 1 < 2 ^ 64 → p'.sessionEpoch = p.sessionEpoch + 1 ∧
          ∀ session, p'.connection.session = some session → session.sessionEpoch = p'.sessionEpoch))
      (fun error p' => ∃ new, SwitchFailed p error p' new) (fun _ => True) p) ∧
    (∀ accountId, wp (deleteAccount accountId) (Deleted p (normalizeAccountId accountId))
      (fun error p' => ∃ new, CredentialFailed p error p' new) (fun _ => True) p) ∧
    (∀ request, wp (saveCredentials U request)
      (fun _ p' => CredentialSaved U p (normalizeAccountId request.accountId) request p')
      (fun error p' => ∃ new, CredentialFailed p error p' new) (fun _ => True) p) := by
  refine ⟨fun accountId startRealtime => ?_, wp_deleteAccount, wp_saveCredentials U⟩
  refine wp_mono (wp_switchAccount U accountId startRealtime) (fun result p' h => ?_) (fun _ _ h => h) (fun _ h => h)
  split
  · rename_i hsame
    rwa [if_pos hsame] at h
  · rename_i hother
    rw [if_neg hother] at h
    exact ⟨h, h.next⟩

/-- A `url` crate that takes every text for a plain `https` URL. -/
def plainUrls : UrlCrate :=
  { parse := fun s => some ⟨"https", "", none, some s, none, "", none, none⟩
    setPath := fun url path => { url with path := path }
    toText := fun url => url.host.getD "" }

def sampleCredential : ApiCredential := ⟨"k", "s", "h", "l"⟩

/-- Two accounts, `a` active. -/
def samplePort (stored : String) (connection : Connection) (answer : ℕ → AppError) : AccountPort :=
  { persisted := ⟨stored, true, ["a", "b"]⟩
    runtime := ⟨"a", true, ["a", "b"]⟩
    credentials := fun _ => some sampleCredential
    connection := connection
    link := none
    publicEnvironment := none
    activeSession := none
    dataClears := 0
    deletedPartitions := []
    sessionEpoch := 7
    answer := answer
    failures := [] }

/-- What is not as a plain transaction would have it. A switch to the active account
returns `Ok` in the same epoch. A switch whose only failure is that the configuration
could not be stored leaves the stored configuration replaced by the one in force, and
a connection that was still being made down. A deletion whose rollback failed leaves
the connection up. A switch whose rollback failed returns the primary error when that
one was notified. -/
theorem mutations_not_plain :
    (∃ p', switchAccount plainUrls "a" none (samplePort "a" .down fun _ => .notConnected) [] = .ok ⟨"a", false, 7⟩ p' [] ∧
      p'.sessionEpoch = 7) ∧
    (let p := samplePort "b" ⟨.connecting, some ⟨"a", 7⟩⟩ fun _ => .notConnected
      ∃ p', switchAccount plainUrls "b" none p [.pass, .pass, .fail 0] = .err .notConnected p' [] ∧
        p'.failures = [⟨.persistConfig, .notConnected⟩] ∧ p'.persisted ≠ p.persisted ∧ p'.connection ≠ p.connection) ∧
    (let p := samplePort "a" ⟨.connected, some ⟨"a", 7⟩⟩ fun _ => .notConnected
      ∃ e p', deleteAccount "b" p [.pass, .pass, .fail 0, .fail 1] = .err e p' [] ∧
        p'.credentials "b" = none ∧ p'.connection.status = .connected) ∧
    (let notified := AppError.notified "c" "m" "n" none
      let p := samplePort "a" ⟨.connected, some ⟨"a", 7⟩⟩ fun n => if n = 0 then notified else .notConnected
      ∃ p', switchAccount plainUrls "b" none p [.pass, .pass, .pass, .fail 0, .fail 1] = .err notified p' [] ∧
        p'.failures = [⟨.persistConfig, notified⟩, ⟨.persistConfig, .notConnected⟩] ∧ p'.connection = .down) := by
  refine ⟨⟨_, rfl, rfl⟩, ⟨_, rfl, rfl, ?_, ?_⟩, ⟨_, _, rfl, rfl, rfl⟩, ⟨_, rfl, rfl, rfl⟩⟩
  · decide
  · decide

end AccountPort

end EasiFlux
