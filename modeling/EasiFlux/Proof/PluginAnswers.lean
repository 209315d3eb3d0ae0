import EasiFlux.Proof.PluginStore

/-!
# Answers in any order

`Sound` is what holds of the store together with its requests, whatever order the answers come
in. A call keeps it (`Sound.call`), and so does every answer (`Sound.answered`): a snapshot is
adopted or says nothing new, a result is shown or says nothing new, unless a later call has set
the plugin.
-/

namespace EasiFlux.Plugin

/-! ## The answers of a request -/

/-- What can come in for a request. -/
inductive Replied (f : PluginFlight) : PluginReply → Prop
  | failed (message : String) (known : Bool) : Replied f (.failed message known)
  | prepared (owner : ℕ) (preview : Option ReadyLocalManifestImport) (hq : f.request = .prepareImport owner) :
    Replied f (.prepared preview)
  | snapshot (e : PluginExecution) (partly : Bool) (order epoch : ℕ) (he : f.execution = some e) (hok : e.ok = true)
    (hq : f.request.asks = some (order, epoch)) : Replied f (.snapshot e.snapshot partly)
  | mutation (e : PluginExecution) (id : PluginId) (enabled : Bool) (generation owner : ℕ)
    (result : PluginCatalogMutationResult) (he : f.execution = some e) (hok : e.ok = true)
    (hq : f.request = .setEnabled id enabled generation owner) (hitem : itemOf e.snapshot.plugins id = some result.plugin)
    (hrev : result.revision = e.snapshot.revision) (hgen : result.catalogGeneration = e.snapshot.catalogGeneration)
    (hsame : result.catalogGeneration = generation) : Replied f (.mutation result)

theorem setPluginEnabled_some {id : PluginId} {enabled : Bool} {generation : ℕ} {result result' : PluginCatalogMutationResult}
    (h : setPluginEnabled id enabled generation result = some result') :
    result' = result ∧ result.catalogGeneration = generation := by
  unfold setPluginEnabled at h
  obtain ⟨hgood, heq⟩ := Option.ite_none_left_eq_some.1 h
  exact ⟨(Option.some.inj heq).symm, by_contra fun hne => hgood (.inr (.inr hne))⟩

theorem reply_replied {f : PluginFlight} {a : PluginAnswer} {reply : PluginReply} (h : f.reply a = some reply) :
    Replied f reply := by
  cases a with
  | failed message known =>
    obtain rfl := Option.some.inj h
    exact .failed message known
  | prepared preview =>
    unfold PluginFlight.reply at h
    cases hq : f.request with
    | prepareImport owner =>
      rw [hq] at h
      obtain rfl := Option.some.inj h
      exact .prepared owner preview hq
    | _ =>
      rw [hq] at h
      cases h
  | done partly =>
    unfold PluginFlight.reply at h
    obtain ⟨e, he, h⟩ := Option.bind_eq_some_iff.1 h
    split_ifs at h with hok
    cases hq : f.request with
    | setEnabled id enabled generation owner =>
      rw [hq] at h
      obtain ⟨item, hitem, h⟩ := Option.bind_eq_some_iff.1 h
      obtain ⟨result, hresult, h⟩ := Option.bind_eq_some_iff.1 h
      obtain rfl := Option.some.inj h
      obtain ⟨rfl, hsame⟩ := setPluginEnabled_some hresult
      exact .mutation e id enabled generation owner _ he hok hq hitem rfl rfl hsame
    | prepareImport owner =>
      rw [hq] at h
      cases h
    | load order epoch =>
      rw [hq] at h
      obtain rfl := Option.some.inj h
      exact .snapshot e partly order epoch he hok (by rw [hq]; rfl)
    | reload order epoch =>
      rw [hq] at h
      obtain rfl := Option.some.inj h
      exact .snapshot e partly order epoch he hok (by rw [hq]; rfl)
    | commitImport order epoch =>
      rw [hq] at h
      obtain rfl := Option.some.inj h
      exact .snapshot e partly order epoch he hok (by rw [hq]; rfl)
    | removal owner order epoch =>
      rw [hq] at h
      obtain rfl := Option.some.inj h
      exact .snapshot e partly order epoch he hok (by rw [hq]; rfl)

section Answered

variable {s : PluginStore} {q : PluginRequest}

theorem answered_failed (message : String) (known : Bool) : Dropped s q (s.answered q (.failed message known)) := by
  cases q with
  | load order epoch => exact loadAnswered_dropped message known
  | reload order epoch => exact reloadAnswered_dropped message known
  | prepareImport owner => exact prepareImportAnswered_dropped owner (.error message)
  | commitImport order epoch => exact commitImportAnswered_dropped message known
  | removal owner order epoch => exact removalAnswered_dropped message known
  | setEnabled id enabled generation owner => exact setEnabledAnswered_dropped nofun

theorem answered_snapshot {order epoch : ℕ} (hq : q.asks = some (order, epoch))
    (hr : ∀ owner order epoch, q = .removal owner order epoch → s.activeRemovalOwner = some owner)
    (snapshot : PluginCatalogSnapshot) (partly : Bool) :
    Taken s q snapshot order epoch (s.answered q (.snapshot snapshot partly)) := by
  cases q with
  | load o e =>
    obtain ⟨rfl, rfl⟩ := Prod.mk.inj (Option.some.inj hq)
    exact loadAnswered_taken partly
  | reload o e =>
    obtain ⟨rfl, rfl⟩ := Prod.mk.inj (Option.some.inj hq)
    exact reloadAnswered_taken partly
  | prepareImport owner => cases hq
  | commitImport o e =>
    obtain ⟨rfl, rfl⟩ := Prod.mk.inj (Option.some.inj hq)
    exact commitAnswered_taken partly
  | removal owner o e =>
    obtain ⟨rfl, rfl⟩ := Prod.mk.inj (Option.some.inj hq)
    exact removalAnswered_taken (hr owner o e rfl) partly
  | setEnabled id enabled generation owner => cases hq

end Answered

/-! ## The requests and the store -/

namespace PluginWorld

variable (w : PluginWorld)

/-- The requests that are under way, with their tickets. -/
def asked : List (ℕ × PluginRequest) := w.flights.map fun f => (f.ticket, f.request)

/-- What the store knows of its own requests. -/
structure Orderly (s : PluginStore) (lastCall : PluginId → Option ℕ) (issued : ℕ) (asked : List (ℕ × PluginRequest)) :
    Prop where
  tickets : ∀ a ∈ asked, a.1 < issued
  apart : (asked.map (·.1)).Nodup
  /-- The plugin belongs to the last call that sets it, until the generation is over. -/
  sets : ∀ t id enabled generation owner, (t, .setEnabled id enabled generation owner) ∈ asked →
    s.hasConfirmedSnapshot = true ∧ generation ≤ s.catalogGeneration ∧ owner ≤ s.mutationSequence ∧
      (generation = s.catalogGeneration → (s.mutationOwners id = some owner ↔ lastCall id = some owner))
  owners : ∀ t t' id id' enabled enabled' generation generation' owner,
    (t, .setEnabled id enabled generation owner) ∈ asked → (t', .setEnabled id' enabled' generation' owner) ∈ asked → t = t'
  removing : ∀ t owner order epoch, (t, .removal owner order epoch) ∈ asked →
    s.activeRemovalOwner = some owner ∧ s.removalStatus = .removing
  removals : ∀ t t' owner owner' order order' epoch epoch', (t, .removal owner order epoch) ∈ asked →
    (t', .removal owner' order' epoch') ∈ asked → t = t'

/-- The invariant of the system -/
structure Sound : Prop where
  chronicle : Chronicle w.history
  shows : Shows w.history w.received w.store.shown
  executed : ∀ f ∈ w.flights, ∀ e, f.execution = some e → w.history[e.position]? = some e.snapshot
  orderly : Orderly w.store w.lastCall w.issued w.asked

section Orderly

variable {s s' : PluginStore} {lastCall : PluginId → Option ℕ} {issued : ℕ} {asked : List (ℕ × PluginRequest)}

/-- A call that sends nothing. -/
theorem Orderly.called (h : Orderly s lastCall issued asked) (hc : Called s none s') : Orderly s' lastCall issued asked := by
  have hgen : s'.catalogGeneration = s.catalogGeneration := congrArg ShownCatalog.catalogGeneration hc.shown
  have hconf : s'.hasConfirmedSnapshot = s.hasConfirmedSnapshot := congrArg ShownCatalog.hasConfirmedSnapshot hc.shown
  obtain ⟨hseq, hown⟩ := hc.others nofun
  refine ⟨h.tickets, h.apart, fun t id b g o hm => ?_, h.owners, fun t o a e hm => ?_, h.removals⟩
  · rw [hgen, hconf, hseq, hown]
    exact h.sets t id b g o hm
  · obtain ⟨ho, hs⟩ := h.removing t o a e hm
    obtain ⟨hs', ho', -⟩ := hc.removing hs
    exact ⟨ho'.trans ho, hs'⟩

theorem Orderly.sent (h : Orderly s lastCall issued asked) (hs : ∀ id, (itemOf s.catalog id).isSome = true → s.hasConfirmedSnapshot = true)
    {q : PluginRequest} (hc : Called s (some q) s') :
    Orderly s' (lastCallAfter lastCall q) (issued + 1) (asked ++ [(issued, q)]) := by
  have hgen : s'.catalogGeneration = s.catalogGeneration := congrArg ShownCatalog.catalogGeneration hc.shown
  have hconf : s'.hasConfirmedSnapshot = s.hasConfirmedSnapshot := congrArg ShownCatalog.hasConfirmedSnapshot hc.shown
  have hsplit : ∀ {t q'}, (t, q') ∈ asked ++ [(issued, q)] → (t, q') ∈ asked ∨ (t = issued ∧ q' = q) := by
    intro t q' hm
    rcases List.mem_append.1 hm with hm | hm
    · exact .inl hm
    · exact .inr (Prod.mk.inj (List.mem_singleton.1 hm))
  refine ⟨?_, ?_, ?_, ?_, ?_, ?_⟩
  · -- the new ticket is the last:
    rintro ⟨t, q'⟩ hm
    rcases hsplit hm with hm | ⟨rfl, -⟩
    · exact Nat.lt_succ_of_lt (h.tickets _ hm)
    · exact Nat.lt_succ_self _
  · -- and differs from every earlier one:
    rw [List.map_append, List.nodup_append]
    refine ⟨h.apart, List.nodup_singleton _, fun t ht t' ht' => ?_⟩
    obtain ⟨a, ha, rfl⟩ := List.mem_map.1 ht
    have hlt := h.tickets a ha
    rw [List.map_singleton, List.mem_singleton] at ht'
    omega
  · intro t id b g o hm
    rw [hgen, hconf]
    rcases hsplit hm with hm | ⟨rfl, rfl⟩
    · obtain ⟨hcs, hle, ho, hiff⟩ := h.sets t id b g o hm
      by_cases hq : ∃ j b' g' o', q = .setEnabled j b' g' o'
      · -- the call sets a plugin: the sequence goes on, and the plugin has a new owner
        obtain ⟨j, b', g', o', rfl⟩ := hq
        obtain ⟨-, -, rfl, hseq, hown⟩ := hc.sets j b' g' o' rfl
        refine ⟨hcs, hle, by omega, fun hg => ?_⟩
        rw [hown]
        show Function.update s.mutationOwners j _ id = _ ↔ Function.update lastCall j _ id = _
        by_cases hid : id = j
        · subst hid
          rw [Function.update_self, Function.update_self]
        · rw [Function.update_of_ne hid, Function.update_of_ne hid]
          exact hiff hg
      · -- any other call leaves the owners as they are:
        obtain ⟨hseq, hown⟩ := hc.others fun j b' g' o' hj => hq ⟨j, b', g', o', Option.some.inj hj⟩
        have hlast : lastCallAfter lastCall q = lastCall := by
          cases q with
          | setEnabled j b' g' o' => exact (hq ⟨j, b', g', o', rfl⟩).elim
          | _ => rfl
        rw [hseq, hown, hlast]
        exact ⟨hcs, hle, ho, hiff⟩
    · -- the new request itself owns its plugin:
      obtain ⟨hitem, rfl, rfl, hseq, hown⟩ := hc.sets id b g o rfl
      refine ⟨hs id hitem, le_rfl, hseq.ge, fun _ => ?_⟩
      rw [hown]
      show Function.update s.mutationOwners id _ id = _ ↔ Function.update lastCall id _ id = _
      rw [Function.update_self, Function.update_self]
  · -- a new owner is above every earlier one:
    intro t t' id id' b b' g g' o hm hm'
    rcases hsplit hm with hold | ⟨rfl, rfl⟩
    · rcases hsplit hm' with hold' | ⟨rfl, rfl⟩
      · exact h.owners t t' id id' b b' g g' o hold hold'
      · obtain ⟨-, -, rfl, -, -⟩ := hc.sets id' b' g' o rfl
        have hle := (h.sets t id b g _ hold).2.2.1
        omega
    · rcases hsplit hm' with hold' | ⟨rfl, -⟩
      · obtain ⟨-, -, rfl, -, -⟩ := hc.sets id b g o rfl
        have hle := (h.sets t' id' b' g' _ hold').2.2.1
        omega
      · rfl
  · -- a removal is under way until it is answered, and no second one is sent:
    intro t o a e hm
    rcases hsplit hm with hold | ⟨-, rfl⟩
    · obtain ⟨ho, hst⟩ := h.removing t o a e hold
      obtain ⟨hst', ho', -⟩ := hc.removing hst
      exact ⟨ho'.trans ho, hst'⟩
    · exact hc.removal o a e rfl
  · intro t t' o o' a a' e e' hm hm'
    rcases hsplit hm with hold | ⟨rfl, rfl⟩
    · rcases hsplit hm' with hold' | ⟨rfl, rfl⟩
      · exact h.removals t t' o o' a a' e e' hold hold'
      · exact ((hc.removing (h.removing t o a e hold).2).2.2 o' a' e' rfl).elim
    · rcases hsplit hm' with hold' | ⟨rfl, -⟩
      · exact ((hc.removing (h.removing t' o' a' e' hold').2).2.2 o a e rfl).elim
      · rfl

/-- A request that is answered; what is left of the others is as before. -/
theorem Orderly.settled (h : Orderly s lastCall issued asked) {t₀ : ℕ} {q : PluginRequest} (hq : (t₀, q) ∈ asked)
    (hconf : s.hasConfirmedSnapshot = true → s'.hasConfirmedSnapshot = true)
    (hgen : s.catalogGeneration ≤ s'.catalogGeneration) (hseq : s'.mutationSequence = s.mutationSequence)
    (howners : ∀ t id b g o, (t, .setEnabled id b g o) ∈ asked → t ≠ t₀ → g = s'.catalogGeneration →
      (s'.mutationOwners id = some o ↔ s.mutationOwners id = some o))
    (hremoving : (∀ o a e, q ≠ .removal o a e) →
      s'.removalStatus = s.removalStatus ∧ s'.activeRemovalOwner = s.activeRemovalOwner) :
    Orderly s' lastCall issued (asked.filter fun a => decide (a.1 ≠ t₀)) := by
  have hsplit : ∀ {t q'}, (t, q') ∈ asked.filter (fun a => decide (a.1 ≠ t₀)) → (t, q') ∈ asked ∧ t ≠ t₀ := by
    intro t q' hm
    obtain ⟨hm, hne⟩ := List.mem_filter.1 hm
    exact ⟨hm, of_decide_eq_true hne⟩
  refine ⟨fun a ha => h.tickets a (List.mem_of_mem_filter ha),
    h.apart.sublist ((List.filter_sublist).map _), fun t id b g o hm => ?_, fun t t' id id' b b' g g' o hm hm' => ?_,
    fun t o a e hm => ?_, fun t t' o o' a a' e e' hm hm' => ?_⟩
  · obtain ⟨hm, hne⟩ := hsplit hm
    obtain ⟨hcs, hle, ho, hiff⟩ := h.sets t id b g o hm
    refine ⟨hconf hcs, hle.trans hgen, hseq ▸ ho, fun hg => ?_⟩
    rw [howners t id b g o hm hne hg]
    exact hiff (by omega)
  · exact h.owners t t' id id' b b' g g' o (hsplit hm).1 (hsplit hm').1
  · obtain ⟨hm, hne⟩ := hsplit hm
    obtain ⟨ho, hst⟩ := h.removing t o a e hm
    have hother : ∀ o' a' e', q ≠ .removal o' a' e' := by
      rintro o' a' e' rfl
      exact hne (h.removals t t₀ o o' a a' e e' hm hq)
    obtain ⟨hst', ho'⟩ := hremoving hother
    exact ⟨ho'.trans ho, hst'.trans hst⟩
  · exact h.removals t t' o o' a a' e e' (hsplit hm).1 (hsplit hm').1

end Orderly

/-! ## Every step keeps the invariant -/

section Sound

variable {w : PluginWorld}

theorem mem_asked {f : PluginFlight} (h : f ∈ w.flights) : (f.ticket, f.request) ∈ w.asked :=
  List.mem_map_of_mem (f := fun f : PluginFlight => (f.ticket, f.request)) h

theorem flight_some {ticket : ℕ} {f : PluginFlight} (h : w.flight ticket = some f) : f ∈ w.flights ∧ f.ticket = ticket :=
  ⟨List.mem_of_find?_eq_some h, by simpa using List.find?_some h⟩

theorem step_call_none {c : PluginCall} {s : PluginStore} (h : w.store.call c = (none, s)) :
    w.step (.call c) = { w with store := s } := by
  simp only [step, h]

theorem step_call_some {c : PluginCall} {q : PluginRequest} {s : PluginStore} (h : w.store.call c = (some q, s)) :
    w.step (.call c) = w.sent s q := by
  simp only [step, h]

theorem step_execute_cases (ticket : ℕ) (snapshot : PluginCatalogSnapshot) (ok : Bool) :
    w.step (.execute ticket snapshot ok) = w ∨ ∃ f ∈ w.flights, f.ticket = ticket ∧ f.execution = none ∧
      ∃ w', w.published snapshot = some w' ∧ w.step (.execute ticket snapshot ok) = w'.executed f ok := by
  simp only [step]
  cases hf : w.flight ticket with
  | none => exact .inl rfl
  | some f =>
    cases hp : w.published snapshot with
    | none => exact .inl rfl
    | some w' =>
      dsimp only
      split_ifs with he
      · exact .inr ⟨f, (flight_some hf).1, (flight_some hf).2, Option.isNone_iff_eq_none.1 he, w', rfl, rfl⟩
      · exact .inl rfl

theorem step_answer_cases (ticket : ℕ) (a : PluginAnswer) :
    w.step (.answer ticket a) = w ∨ ∃ f ∈ w.flights, w.flight ticket = some f ∧ ∃ reply, f.reply a = some reply ∧
      Replied f reply ∧ w.step (.answer ticket a) = w.answered f reply := by
  simp only [step]
  cases hf : w.flight ticket with
  | none => exact .inl rfl
  | some f =>
    dsimp only
    cases hr : f.reply a with
    | none => exact .inl rfl
    | some reply => exact .inr ⟨f, (flight_some hf).1, rfl, reply, hr, reply_replied hr, rfl⟩

/-- Before anything is confirmed there is nothing to set. -/
theorem Sound.confirmed_of_item (h : Sound w) (id : PluginId) (hi : (itemOf w.store.catalog id).isSome = true) :
    w.store.hasConfirmedSnapshot = true := by
  by_contra hs
  have hnil : w.store.catalog = [] := (h.shows.empty (Bool.eq_false_iff.2 hs)).1
  rw [hnil] at hi
  cases hi

theorem Sound.call (h : Sound w) (c : PluginCall) : Sound (w.step (.call c)) := by
  have hcalled := call_called w.store c
  cases hcall : w.store.call c with
  | mk r store =>
    rw [hcall] at hcalled
    have hshows : Shows w.history w.received store.shown := by
      rw [hcalled.shown]
      exact h.shows
    cases r with
    | none =>
      rw [step_call_none hcall]
      exact ⟨h.chronicle, hshows, h.executed, h.orderly.called hcalled⟩
    | some q =>
      rw [step_call_some hcall]
      refine ⟨h.chronicle, hshows, fun f hf e he => ?_, ?_⟩
      · rcases List.mem_append.1 hf with hf | hf
        · exact h.executed f hf e he
        · rw [List.mem_singleton.1 hf] at he
          cases he
      · have horderly := h.orderly.sent h.confirmed_of_item hcalled
        have hasked : (w.sent store q).asked = w.asked ++ [(w.issued, q)] := List.map_append
        show Orderly store (lastCallAfter w.lastCall q) (w.issued + 1) (w.sent store q).asked
        rw [hasked]
        exact horderly

/-- What may be published grows the history. -/
theorem published_some {w' : PluginWorld} {snapshot : PluginCatalogSnapshot} (h : w.published snapshot = some w') :
    w'.current = snapshot ∧ w'.store = w.store ∧ w'.flights = w.flights ∧ w'.issued = w.issued ∧
      w'.received = w.received ∧ w'.settled = w.settled ∧ w'.lastCall = w.lastCall ∧
      ((snapshot = w.current ∧ w'.history = w.history ∧ w'.past = w.past) ∨
        (snapshot.Ordered ∧ w.current.Follows snapshot ∧ w'.history = w.history ++ [snapshot] ∧
          w'.past = w.history)) := by
  unfold PluginWorld.published at h
  split_ifs at h with hsame hlaw
  · obtain rfl := Option.some.inj h
    exact ⟨hsame.symm, rfl, rfl, rfl, rfl, rfl, rfl, .inl ⟨hsame, rfl, rfl⟩⟩
  · obtain rfl := Option.some.inj h
    exact ⟨rfl, rfl, rfl, rfl, rfl, rfl, rfl, .inr ⟨hlaw.1, hlaw.2, rfl, rfl⟩⟩

theorem Sound.published (h : Sound w) {w' : PluginWorld} {snapshot : PluginCatalogSnapshot}
    (hp : w.published snapshot = some w') : Sound w' := by
  obtain ⟨-, hstore, hflights, hissued, hreceived, -, hlast, hcases⟩ := published_some hp
  have horderly : Orderly w'.store w'.lastCall w'.issued w'.asked := by
    unfold PluginWorld.asked
    rw [hstore, hflights, hissued, hlast]
    exact h.orderly
  rcases hcases with ⟨-, hhist, -⟩ | ⟨ho, hf, hhist, -⟩
  · refine ⟨?_, ?_, ?_, horderly⟩
    · rw [hhist]
      exact h.chronicle
    · rw [hhist, hreceived, hstore]
      exact h.shows
    · rw [hhist, hflights]
      exact h.executed
  · refine ⟨?_, ?_, ?_, horderly⟩
    · rw [hhist]
      exact Chronicle.append h.chronicle ho hf
    · rw [hhist, hreceived, hstore]
      exact h.shows.mono fun s hs => List.mem_append_left _ hs
    · rw [hhist, hflights]
      intro f hf e he
      have hpos := h.executed f hf e he
      rw [List.getElem?_append_left (List.getElem?_eq_some_iff.1 hpos).1]
      exact hpos

theorem history_getElem_past (w : PluginWorld) : w.history[w.past.length]? = some w.current := by
  unfold PluginWorld.history
  rw [List.getElem?_append_right le_rfl, Nat.sub_self]
  rfl

theorem executed_asked {f : PluginFlight} (hf : f ∈ w.flights) (hn : (w.asked.map (·.1)).Nodup) (ok : Bool) :
    (w.executed f ok).asked = w.asked := by
  unfold PluginWorld.asked PluginWorld.executed
  rw [List.map_map]
  refine List.map_congr_left fun g hg => ?_
  by_cases ht : g.ticket = f.ticket
  · have hgf : g = f := by
      unfold PluginWorld.asked at hn
      rw [List.map_map] at hn
      exact List.inj_on_of_nodup_map hn hg hf ht
    rw [Function.comp_apply, if_pos ht, hgf]
  · rw [Function.comp_apply, if_neg ht]

theorem Sound.executed_flight (h : Sound w) {f : PluginFlight} (hf : f ∈ w.flights) (ok : Bool) : Sound (w.executed f ok) := by
  refine ⟨h.chronicle, h.shows, fun g hg e he => ?_, ?_⟩
  · obtain ⟨g', hg', rfl⟩ := List.mem_map.1 hg
    by_cases ht : g'.ticket = f.ticket
    · rw [if_pos ht] at he
      obtain rfl := Option.some.inj he
      exact history_getElem_past w
    · rw [if_neg ht] at he
      exact h.executed g' hg' e he
  · have hasked := executed_asked hf h.orderly.apart ok
    show Orderly w.store w.lastCall w.issued (w.executed f ok).asked
    rw [hasked]
    exact h.orderly

theorem answered_asked {f : PluginFlight} {reply : PluginReply} :
    (w.answered f reply).asked = w.asked.filter fun a => decide (a.1 ≠ f.ticket) := by
  show List.map _ (w.flights.filter fun g => decide (g.ticket ≠ f.ticket)) = (w.flights.map _).filter _
  rw [List.filter_map]
  rfl

/-- An answer, where it keeps what is shown and leaves the other requests as they are. -/
theorem Sound.settled (h : Sound w) {f : PluginFlight} {reply : PluginReply}
    (hshows : Shows w.history (w.received ++ w.news f reply) (w.store.answered f.request reply).shown)
    (horderly : Orderly (w.store.answered f.request reply) w.lastCall w.issued
      (w.asked.filter fun a => decide (a.1 ≠ f.ticket))) : Sound (w.answered f reply) := by
  refine ⟨h.chronicle, hshows, fun g hg e he => h.executed g (List.mem_of_mem_filter hg) e he, ?_⟩
  rw [answered_asked]
  exact horderly

/-- The owner of another plugin, or of the same one, is not touched by a call that ends. -/
theorem Orderly.released {s : PluginStore} {lastCall : PluginId → Option ℕ} {issued : ℕ} {asked : List (ℕ × PluginRequest)}
    (h : Orderly s lastCall issued asked) {t₀ t : ℕ} {id id₀ : PluginId} {b b₀ : Bool} {g g₀ o o₀ : ℕ}
    (h₀ : (t₀, .setEnabled id₀ b₀ g₀ o₀) ∈ asked) (hm : (t, .setEnabled id b g o) ∈ asked) (hne : t ≠ t₀)
    (hown : s.mutationOwners id₀ = some o₀) :
    Function.update s.mutationOwners id₀ none id = some o ↔ s.mutationOwners id = some o := by
  by_cases hid : id = id₀
  · subst hid
    have ho : o₀ ≠ o := by
      rintro rfl
      exact hne (h.owners t t₀ id id b b₀ g g₀ _ hm h₀)
    rw [Function.update_self, hown]
    simp [ho]
  · rw [Function.update_of_ne hid]

theorem Sound.dropped (h : Sound w) {f : PluginFlight} (hf : f ∈ w.flights) {reply : PluginReply}
    (hd : Dropped w.store f.request (w.store.answered f.request reply))
    (hshows : Shows w.history (w.received ++ w.news f reply) w.store.shown) : Sound (w.answered f reply) := by
  have hgen : (w.store.answered f.request reply).catalogGeneration = w.store.catalogGeneration :=
    congrArg ShownCatalog.catalogGeneration hd.shown
  have hconf : (w.store.answered f.request reply).hasConfirmedSnapshot = w.store.hasConfirmedSnapshot :=
    congrArg ShownCatalog.hasConfirmedSnapshot hd.shown
  refine h.settled (by rw [hd.shown]; exact hshows) (h.orderly.settled (mem_asked hf) (fun hs => hconf.trans hs) hgen.ge
    hd.sequence (fun t id b g o hm hne _ => ?_) hd.removing)
  rw [hd.owners]
  have hmem := mem_asked hf
  cases hq : f.request with
  | setEnabled id₀ b₀ g₀ o₀ =>
    dsimp only
    split_ifs with hown
    · exact h.orderly.released (hq ▸ hmem) hm hne hown
    · exact Iff.rfl
  | _ => exact Iff.rfl

theorem Sound.taken (h : Sound w) {f : PluginFlight} (hf : f ∈ w.flights) {snapshot : PluginCatalogSnapshot} {partly : Bool}
    {order epoch : ℕ} (hm : snapshot ∈ w.history)
    (ht : Taken w.store f.request snapshot order epoch (w.store.answered f.request (.snapshot snapshot partly))) :
    Sound (w.answered f (.snapshot snapshot partly)) := by
  have hgen : (w.store.answered f.request (.snapshot snapshot partly)).catalogGeneration =
      (w.store.confirmAuthoritativeSnapshot snapshot order epoch f.request.isMutation).catalogGeneration :=
    congrArg ShownCatalog.catalogGeneration ht.shown
  have hconf : (w.store.answered f.request (.snapshot snapshot partly)).hasConfirmedSnapshot = true :=
    congrArg ShownCatalog.hasConfirmedSnapshot ht.shown
  refine h.settled ?_ (h.orderly.settled (mem_asked hf) (fun _ => hconf) (by rw [hgen]; exact confirm_catalogGeneration_le)
    ht.sequence (fun t id b g o hq hne hg => ?_) ht.removing)
  · rw [ht.shown]
    exact h.shows.confirm h.chronicle hm _ _
  · rw [ht.owners]
    rcases @confirm_owners w.store snapshot order epoch f.request.isMutation with hown | ⟨-, hnew⟩
    · rw [hown]
    · -- a new generation is shown, and the request is of an older one
      obtain ⟨hs, hle, -⟩ := h.orderly.sets t id b g o hq
      rcases hnew with hlt | hfalse
      · omega
      · rw [hs] at hfalse
        cases hfalse

theorem Sound.result (h : Sound w) {f : PluginFlight} (hf : f ∈ w.flights) {e : PluginExecution} {id : PluginId}
    {enabled : Bool} {generation owner : ℕ} {result : PluginCatalogMutationResult} (he : f.execution = some e)
    (hq : f.request = .setEnabled id enabled generation owner) (hr : Result w.history id result e.snapshot)
    (hsame : result.catalogGeneration = generation) : Sound (w.answered f (.mutation result)) := by
  have hnews : w.news f (.mutation result) = [⟨e.snapshot, some id, decide (w.lastCall id ≠ some owner)⟩] := by
    unfold news
    rw [hq, he]
  have hmem : (f.ticket, .setEnabled id enabled generation owner) ∈ w.asked := hq ▸ mem_asked hf
  obtain ⟨hs, hle, -, hiff⟩ := h.orderly.sets _ _ _ _ _ hmem
  have hanswered : w.store.answered f.request (.mutation result) =
      (w.store.setEnabledAnswered id generation owner (some result)).2 := by
    rw [hq]
    rfl
  cases ha : w.store.acceptsResult id generation owner result with
  | false =>
    refine h.dropped hf ?_ ?_
    · rw [hanswered, hq]
      exact setEnabledAnswered_dropped fun result' hr' => (Option.some.inj hr') ▸ ha
    · rw [hnews]
      refine h.shows.refuseResult h.chronicle hs hr hsame hle (fun hov hg => (hiff hg).2 ?_) ha
      exact not_not.1 (of_decide_eq_false hov)
  | true =>
    have hc := setEnabledAnswered_confirmed ha
    obtain ⟨hown, -, hg, -⟩ := acceptsResult_iff.1 ha
    have hlast : decide (w.lastCall id ≠ some owner) = false :=
      decide_eq_false (not_not.2 ((hiff hg.symm).1 hown))
    have hshown := hc.shown
    rw [showResult_shown] at hshown
    have hgen : (w.store.answered f.request (.mutation result)).catalogGeneration = w.store.catalogGeneration := by
      rw [hanswered]
      exact congrArg ShownCatalog.catalogGeneration hshown
    have hconf : (w.store.answered f.request (.mutation result)).hasConfirmedSnapshot = w.store.hasConfirmedSnapshot := by
      rw [hanswered]
      exact congrArg ShownCatalog.hasConfirmedSnapshot hshown
    refine h.settled ?_ (h.orderly.settled (mem_asked hf) (fun hs => hconf.trans hs) hgen.ge (by rw [hanswered]; exact hc.sequence)
      (fun t j b g o hm hne _ => ?_) fun _ => by rw [hanswered]; exact hc.removing)
    · rw [hnews, hlast, hanswered, hc.shown]
      exact h.shows.showResult h.chronicle hs hr ha
    · rw [hanswered, hc.owners]
      exact h.orderly.released hmem hm hne hown

theorem Sound.answered (h : Sound w) {f : PluginFlight} (hf : f ∈ w.flights) {reply : PluginReply} (hr : Replied f reply) :
    Sound (w.answered f reply) := by
  have hnil : ∀ {news}, news = [] → Shows w.history (w.received ++ news) w.store.shown := by
    rintro _ rfl
    rw [List.append_nil]
    exact h.shows
  cases hr with
  | failed message known => exact h.dropped hf (answered_failed message known) (hnil rfl)
  | prepared owner preview hq =>
    refine h.dropped hf ?_ (hnil rfl)
    rw [hq]
    exact prepareImportAnswered_dropped owner (.ok preview)
  | snapshot e partly order epoch he hok hq =>
    refine h.taken hf (List.mem_of_getElem? (h.executed f hf e he)) (answered_snapshot hq (fun o a e hr => ?_) _ _)
    exact (h.orderly.removing f.ticket o a e (hr ▸ mem_asked hf)).1
  | mutation e id enabled generation owner result he hok hq hitem hrev hgen hsame =>
    exact h.result hf he hq ⟨List.mem_of_getElem? (h.executed f hf e he), hitem, hrev, hgen⟩ hsame

/-- **Every step keeps the invariant.** -/
theorem step_sound (h : Sound w) (event : PluginEvent) : Sound (w.step event) := by
  cases event with
  | call c => exact h.call c
  | publish snapshot =>
    show Sound ((w.published snapshot).getD w)
    cases hp : w.published snapshot with
    | none => exact h
    | some w' => exact h.published hp
  | execute ticket snapshot ok =>
    rcases step_execute_cases (w := w) ticket snapshot ok with heq | ⟨f, hf, -, -, w', hp, heq⟩
    · rw [heq]
      exact h
    · rw [heq]
      have hflights : w'.flights = w.flights := (published_some hp).2.2.1
      exact (h.published hp).executed_flight (hflights ▸ hf) ok
  | answer ticket a =>
    rcases step_answer_cases (w := w) ticket a with heq | ⟨f, hf, -, reply, -, hr, heq⟩
    · rw [heq]
      exact h
    · rw [heq]
      exact h.answered hf hr

/-- **No step shows a plugin at an older version.** -/
theorem step_advances (h : Sound w) (event : PluginEvent) : w.store.shown.Advances (w.step event).store.shown := by
  have hsame : ∀ {v}, v = w.store.shown → w.store.shown.Advances v := by
    rintro _ rfl
    exact ShownCatalog.Advances.refl _
  cases event with
  | call c =>
    have hcalled := call_called w.store c
    cases hcall : w.store.call c with
    | mk r store =>
      rw [hcall] at hcalled
      cases r with
      | none =>
        rw [step_call_none hcall]
        exact hsame hcalled.shown
      | some q =>
        rw [step_call_some hcall]
        exact hsame hcalled.shown
  -- what the backend does is not shown before it is answered:
  | publish snapshot =>
    show w.store.shown.Advances ((w.published snapshot).getD w).store.shown
    cases hp : w.published snapshot with
    | none => exact hsame rfl
    | some w' => exact hsame (congrArg PluginStore.shown (published_some hp).2.1)
  | execute ticket snapshot ok =>
    rcases step_execute_cases (w := w) ticket snapshot ok with heq | ⟨f, hf, -, -, w', hp, heq⟩
    · rw [heq]
      exact hsame rfl
    · rw [heq]
      exact hsame (congrArg PluginStore.shown (published_some hp).2.1)
  | answer ticket a =>
    rcases step_answer_cases (w := w) ticket a with heq | ⟨f, hf, -, reply, -, hr, heq⟩
    · rw [heq]
      exact hsame rfl
    rw [heq]
    show w.store.shown.Advances (w.store.answered f.request reply).shown
    cases hr with
    | failed message known => exact hsame (answered_failed message known).shown
    | prepared owner preview hq =>
      rw [hq]
      exact hsame (prepareImportAnswered_dropped owner (.ok preview)).shown
    -- a whole snapshot is confirmed item by item:
    | snapshot e partly order epoch he hok hq =>
      have ht := answered_snapshot hq (fun o a e hr => (h.orderly.removing f.ticket o a e (hr ▸ mem_asked hf)).1)
        e.snapshot partly
      rw [ht.shown]
      exact h.shows.confirm_advances h.chronicle (List.mem_of_getElem? (h.executed f hf e he)) _ _
    -- a single item is taken only from the newest call for it:
    | mutation e id enabled generation owner result he hok hq hitem hrev hgen hsame' =>
      rw [hq]
      show w.store.shown.Advances (w.store.setEnabledAnswered id generation owner (some result)).2.shown
      cases ha : w.store.acceptsResult id generation owner result with
      | false =>
        have hd := @setEnabledAnswered_dropped w.store id enabled generation owner (some result)
          fun result' hr' => (Option.some.inj hr') ▸ ha
        exact hsame hd.shown
      | true =>
        rw [(setEnabledAnswered_confirmed ha).shown]
        exact showResult_advances ha

end Sound

/-! ## The newest answers are shown -/

variable (w : PluginWorld)

/-- The shown generation is the largest that has come. -/
def NewestGeneration : Prop :=
  (∀ r ∈ w.received, r.snapshot.catalogGeneration ≤ w.store.catalogGeneration) ∧
  (w.received ≠ [] → ∃ r ∈ w.received, r.snapshot.catalogGeneration = w.store.catalogGeneration)

/-- Each shown plugin is what the newest of `answers` in the shown generation says of it. -/
def NewestItems (answers : List PluginReceived) : Prop :=
  (∀ p ∈ w.store.catalog, ∃ r ∈ answers, r.snapshot.catalogGeneration = w.store.catalogGeneration ∧ r.Tells p ∧
    ∀ r' ∈ answers, r'.snapshot.catalogGeneration = w.store.catalogGeneration → ∀ p', r'.Tells p' →
      p'.manifest.id = p.manifest.id → r'.snapshot.revision ≤ r.snapshot.revision) ∧
  ∀ r ∈ answers, r.snapshot.catalogGeneration = w.store.catalogGeneration → ∀ p, r.Tells p →
    ∃ q ∈ w.store.catalog, q.manifest.id = p.manifest.id

/-- The answers that no later call for the plugin has overtaken. -/
def counted : List PluginReceived := w.received.filter fun r => !r.overtaken

/-- The plugin is shown as some answer of this version says it. -/
def ShownAt (p : PluginCatalogItem) (generation revision : ℕ) : Prop :=
  p ∈ w.store.catalog ∧ w.store.catalogGeneration = generation ∧
  w.store.confirmedItemRevisions p.manifest.id = some revision ∧
  ∃ r ∈ w.received, r.snapshot.catalogGeneration = generation ∧ r.snapshot.revision = revision ∧ r.Tells p

variable {w}

theorem Sound.newestGeneration (h : Sound w) : w.NewestGeneration := by
  refine ⟨h.shows.newest, fun hne => ?_⟩
  have hs : w.store.hasConfirmedSnapshot = true := by
    by_contra hs
    exact hne (h.shows.empty (Bool.eq_false_iff.2 hs)).2.2.2
  obtain ⟨r, hr, hg, -⟩ := h.shows.versioned hs
  exact ⟨r, hr, hg⟩

theorem Sound.newestItems (h : Sound w) : w.NewestItems w.counted := by
  have hcounted : ∀ {r}, r ∈ w.counted → r ∈ w.received ∧ r.overtaken = false := by
    intro r hr
    obtain ⟨hr, hover⟩ := List.mem_filter.1 hr
    exact ⟨hr, by simpa using hover⟩
  refine ⟨fun p hp => ?_, fun r hr hg p ht => ?_⟩
  · obtain ⟨r, hr, hover, hg, ht, hρ⟩ := h.shows.told p hp
    refine ⟨r, List.mem_filter.2 ⟨hr, by rw [hover]; rfl⟩, hg, ht, fun r' hr' hg' p' ht' hid => ?_⟩
    obtain ⟨hr', hover'⟩ := hcounted hr'
    exact h.shows.fresh r' hr' hover' hg' p' ht' _ (by rw [hid]; exact hρ)
  · have hs : w.store.hasConfirmedSnapshot = true := by
      by_contra hs
      have hnil := (h.shows.empty (Bool.eq_false_iff.2 hs)).2.2.2
      rw [hnil] at hcounted
      cases (hcounted hr).1
    obtain ⟨-, hcontent⟩ := h.shows.structure_of_gen h.chronicle hs (h.shows.mem r (hcounted hr).1) hg
    have hid : p.manifest.id ∈ w.store.catalog.map (·.manifest.id) := by
      rw [ids_eq_of_content hcontent]
      exact List.mem_map_of_mem ht.1
    obtain ⟨q, hq, heq⟩ := List.mem_map.1 hid
    exact ⟨q, hq, heq⟩

theorem Sound.shownAt (h : Sound w) {p : PluginCatalogItem} (hp : p ∈ w.store.catalog) :
    ∃ revision, w.ShownAt p w.store.catalogGeneration revision := by
  obtain ⟨r, hr, -, hg, ht, hρ⟩ := h.shows.told p hp
  exact ⟨_, hp, rfl, hρ, r, hr, hg, rfl, ht⟩

/-- Between two states, the later of which is no older, no plugin goes back. -/
theorem Sound.no_older {w' : PluginWorld} (h' : Sound w') (ha : w.store.shown.Advances w'.store.shown)
    {p q : PluginCatalogItem} {ρ : ℕ} (hp : w.ShownAt p w.store.catalogGeneration ρ) (hq : q ∈ w'.store.catalog)
    (hid : q.manifest.id = p.manifest.id) : ∃ g' ρ', w'.ShownAt q g' ρ' ∧
      (w.store.catalogGeneration < g' ∨ (w.store.catalogGeneration = g' ∧ ρ ≤ ρ')) := by
  obtain ⟨ρ', hat'⟩ := h'.shownAt hq
  refine ⟨_, ρ', hat', ?_⟩
  obtain ⟨hle, hrevs⟩ := ha
  change w.store.catalogGeneration ≤ w'.store.catalogGeneration at hle
  rcases Nat.lt_or_eq_of_le hle with hlt | heq
  · exact .inl hlt
  · obtain ⟨ρ'', hρ'', hle'⟩ := hrevs heq p.manifest.id ρ hp.2.2.1
    have hfound := hat'.2.2.1
    rw [hid] at hfound
    have hsame : ρ'' = ρ' := Option.some.inj (hρ''.symm.trans hfound)
    exact .inr ⟨heq, hsame ▸ hle'⟩

theorem initial_shows (history : List PluginCatalogSnapshot) : Shows history [] PluginStore.initial.shown where
  mem _ hr := absurd hr List.not_mem_nil
  structured hs := by cases hs
  empty _ := ⟨rfl, rfl, rfl, rfl⟩
  told _ hp := absurd hp List.not_mem_nil
  known _ _ hρ := by cases hρ
  newest _ hr := absurd hr List.not_mem_nil
  fresh _ hr := absurd hr List.not_mem_nil
  versioned hs := by cases hs
  snapshot_le := le_rfl

theorem initial_orderly (lastCall : PluginId → Option ℕ) : Orderly .initial lastCall 0 [] where
  tickets _ ha := absurd ha List.not_mem_nil
  apart := List.nodup_nil
  sets _ _ _ _ _ hm := absurd hm List.not_mem_nil
  owners _ _ _ _ _ _ _ _ _ hm := absurd hm List.not_mem_nil
  removing _ _ _ _ hm := absurd hm List.not_mem_nil
  removals _ _ _ _ _ _ _ _ hm := absurd hm List.not_mem_nil

theorem initial_sound {first : PluginCatalogSnapshot} (h : first.Ordered) : Sound (initial first) where
  chronicle := ⟨List.pairwise_singleton _ _, fun s hs => by rwa [List.mem_singleton.1 hs]⟩
  shows := initial_shows _
  executed _ hf := absurd hf List.not_mem_nil
  orderly := initial_orderly _

theorem run_sound {first : PluginCatalogSnapshot} (h : first.Ordered) (events : List PluginEvent) : Sound (run first events) :=
  Steps.run_inv (I := Sound) (fun _ event hw => step_sound hw event) events _ (initial_sound h)

theorem run_advances {first : PluginCatalogSnapshot} (h : first.Ordered) (events later : List PluginEvent) :
    (run first events).store.shown.Advances (run first (events ++ later)).store.shown := by
  induction later using List.reverseRecOn with
  | nil =>
    rw [List.append_nil]
    exact ShownCatalog.Advances.refl _
  | append_singleton later event ih =>
    have hrun : run first (events ++ (later ++ [event])) = (run first (events ++ later)).step event := by
      rw [← List.append_assoc]
      exact Steps.run_append _ _ _ _
    rw [hrun]
    exact ih.trans (step_advances (run_sound h _) event)

/-- **The newest catalog is shown**: the generation is the largest that has come, every plugin of it
is as the newest answer says that no later call for the plugin has overtaken, and no plugin goes
back to an older version. -/
theorem newest_catalog_shown (first : PluginCatalogSnapshot) (h : first.Ordered) (events : List PluginEvent) :
    (run first events).NewestGeneration ∧ (run first events).NewestItems (run first events).counted ∧
    ∀ later, ∀ p ∈ (run first events).store.catalog, ∃ g ρ, (run first events).ShownAt p g ρ ∧
      ∀ q ∈ (run first (events ++ later)).store.catalog, q.manifest.id = p.manifest.id → ∃ g' ρ',
        (run first (events ++ later)).ShownAt q g' ρ' ∧ (g < g' ∨ (g = g' ∧ ρ ≤ ρ')) := by
  have hsound := run_sound h events
  refine ⟨hsound.newestGeneration, hsound.newestItems, fun later p hp => ?_⟩
  obtain ⟨ρ, hat⟩ := hsound.shownAt hp
  exact ⟨_, ρ, hat, fun q hq hid =>
    (run_sound h (events ++ later)).no_older (run_advances h events later) hat hq hid⟩

end PluginWorld

namespace PluginSample

theorem isReverseDomain_sample : isReverseDomain "org.sample" = true := by decide +kernel

def id : PluginId := ⟨"org.sample", isReverseDomain_sample⟩

def manifest : PluginManifest := ⟨2, id, ⟨"org.sample", isReverseDomain_sample⟩, "", []⟩

/-- A catalog of one plugin, at this revision of generation 1. -/
def snapshot (revision : ℕ) (item : PluginCatalogItem) : PluginCatalogSnapshot :=
  ⟨3, revision, 1, .available, none, .available, .available, [item]⟩

def disabled : PluginCatalogSnapshot := snapshot 1 (.disabled manifest .localDeclarative)

def enabled : PluginCatalogSnapshot := snapshot 2 (.enabled manifest .localDeclarative)

/-- The plugin is enabled twice at once; the first call succeeds, and then the second fails. -/
def overtaken : List PluginEvent :=
  [.call .load, .execute 0 disabled true, .answer 0 (.done false),
    .call (.setEnabled id true), .call (.setEnabled id true), .execute 1 enabled true, .answer 1 (.done false),
    .answer 2 (.failed "plugin_state_persist_failed" false)]

theorem overtaken_received : (PluginWorld.run disabled overtaken).received =
    [⟨disabled, none, false⟩, ⟨enabled, some id, true⟩] := by decide +kernel

theorem overtaken_store : (PluginWorld.run disabled overtaken).store.catalog = disabled.plugins ∧
    (PluginWorld.run disabled overtaken).store.catalogGeneration = 1 ∧
    (PluginWorld.run disabled overtaken).flights.length = 0 := by decide +kernel

/-- The answer of the first call is newer than what is shown, and is not shown. -/
theorem overtaken_answer_not_shown : ¬∀ (first : PluginCatalogSnapshot) (events : List PluginEvent), first.Ordered →
    (PluginWorld.run first events).flights = [] →
      (PluginWorld.run first events).NewestItems (PluginWorld.run first events).received := by
  intro h
  have hnewest := h disabled overtaken (by decide +kernel) (List.length_eq_zero_iff.1 overtaken_store.2.2)
  obtain ⟨r, hr, -, ht, hmax⟩ := hnewest.1 (.disabled manifest .localDeclarative)
    (by rw [overtaken_store.1]; exact List.mem_singleton_self _)
  rw [overtaken_received] at hr hmax
  rw [overtaken_store.2.1] at hmax
  have hle := hmax ⟨enabled, some id, true⟩ (List.mem_cons_of_mem _ (List.mem_singleton_self _)) rfl
    (.enabled manifest .localDeclarative) ⟨List.mem_singleton_self _, .inr rfl⟩ rfl
  rcases List.mem_cons.1 hr with rfl | hr
  · exact absurd hle (by decide)
  · rw [List.mem_singleton.1 hr] at ht
    exact absurd (List.mem_singleton.1 ht.1) (by decide +kernel)

end PluginSample

/-- The run of the sample, and whatever comes after it -/
theorem newest_catalog_shown_sample :
    (PluginWorld.run PluginSample.disabled PluginSample.overtaken).NewestGeneration ∧
    (PluginWorld.run PluginSample.disabled PluginSample.overtaken).NewestItems
      (PluginWorld.run PluginSample.disabled PluginSample.overtaken).counted := by
  obtain ⟨hgeneration, hitems, -⟩ :=
    PluginWorld.newest_catalog_shown PluginSample.disabled (by decide +kernel) PluginSample.overtaken
  exact And.intro hgeneration hitems

end EasiFlux.Plugin
