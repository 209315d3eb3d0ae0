import EasiFlux.Model.Workflow

/-!
# The grants of account workflows

Every grant, every change of one and every proposal carries numbers of one serial. A change
is given its number when it is accepted, and the grant it is for takes this number as its
intent; so the intent of a grant tells what has been accepted for its plugin (`Newest`), and
whoever has noted an intent and finds it again knows that nothing was accepted since
(`Since.quiet`).

`StateInv` is what every section of the mutex keeps, with the history:

* `StateInv.grant`, `StateInv.accept`, `StateInv.change`, `StateInv.insert`: the four sections.
-/

namespace EasiFlux

namespace Workflow

open Results

/-! ## Numbers -/

/-- No change accepted for the plugin has a number above `i`. -/
def Newest (accepted : List Change) (id : String) (i : ℕ) : Prop := ∀ e ∈ accepted, e.pluginId = id → e.intent ≤ i

/-- What was accepted after the first `k` changes has a number above `i`. -/
structure Since (accepted : List Change) (k i : ℕ) : Prop where
  le_length : k ≤ accepted.length
  above : ∀ e ∈ accepted.drop k, i < e.intent

theorem Newest.nil {id : String} {i : ℕ} : Newest [] id i := nofun

theorem Newest.append {accepted new : List Change} {id : String} {i : ℕ} (h : Newest accepted id i) (hn : Newest new id i) :
    Newest (accepted ++ new) id i := fun e he => (List.mem_append.1 he).elim (h e) (hn e)

/-- Whoever finds an intent again knows that nothing was accepted for the plugin since. -/
theorem Since.quiet {accepted : List Change} {k j i : ℕ} {id : String} (h : Since accepted k i)
    (hn : Newest (accepted.take j) id i) : ∀ e ∈ (accepted.take j).drop k, e.pluginId ≠ id := by
  intro e he hid
  have hdrop : e ∈ accepted.drop k := (((List.take_sublist j accepted).drop k).mem he)
  have hlow : e.intent ≤ i := hn e (List.mem_of_mem_drop he) hid
  exact absurd (h.above e hdrop) (not_lt.2 hlow)

/-- Later numbers are higher. -/
theorem Since.append {accepted new : List Change} {k i : ℕ} (h : Since accepted k i) (hn : ∀ e ∈ new, i < e.intent) :
    Since (accepted ++ new) k i where
  le_length := h.le_length.trans (by simp)
  above e he := by
    rw [List.drop_append_of_le_length h.le_length] at he
    exact (List.mem_append.1 he).elim (h.above e) (hn e)

theorem Since.now {accepted : List Change} {i : ℕ} : Since accepted accepted.length i where
  le_length := le_rfl
  above e he := by simp at he

/-! ## What the sections keep -/

/-- The capabilities of the grant are those of a change that was applied as its revision, if it
has any. -/
def Consented (applied : List Applied) (id : String) (g : Grant) : Prop :=
  g.capabilities = [] ∨ ∃ a ∈ applied, a.request.pluginId = id ∧ a.binding = g.binding ∧ a.revision = g.revision ∧
    a.request.capabilities = g.capabilities

structure GrantInv (serial : ℕ) (h : History) (id : String) (g : Grant) : Prop where
  revision_le : g.revision ≤ serial
  intent_le : g.intent ≤ serial
  newest : Newest h.accepted id g.intent
  consented : Consented h.applied id g
  after : ∀ a ∈ h.applied, a.request.pluginId = id → a.revision ≤ g.revision

/-- What a proposal says about the changes that were accepted, and the epoch. -/
structure PreparedInv (serial : ℕ) (h : History) (p : Prepared) : Prop where
  intent_le : p.intent ≤ serial
  since : Since h.accepted p.origin.accepted p.intent
  epoch : p.binding.epoch = p.origin.advanced
  deadline : p.deadline = p.origin.preparedAt + World.confirmationNs
  valid : ∃ raw orders, WorkflowOutput.validate raw p.origin.symbol p.origin.capabilities orders = .ok p.output ∧
    ∀ t ∈ p.target, ∃ items, orders = some items ∧ t ∈ items

/-- A change that was applied: it was checked, it was the last that was accepted for its plugin,
and the grant that stood then is of the revision it expected, and was made for it. -/
structure AppliedInv (serial : ℕ) (h : History) (a : Applied) : Prop where
  valid : World.validateGrantRequest a.request = .ok ()
  requested : ∀ v ∈ a.request.capabilities, v ∈ a.requested
  mem : Change.mk a.request.pluginId a.intent ∈ h.accepted.take a.accepted
  last : Newest (h.accepted.take a.accepted) a.request.pluginId a.intent
  accepted_le : a.accepted ≤ h.accepted.length
  revision_le : a.revision ≤ serial
  replaced : ∃ g ∈ a.standing, g.binding = a.binding ∧ toString g.revision = a.request.expectedGrantRevision ∧
    g.intent = a.intent ∧ g.revision < a.revision

/-- Of two changes the second was applied as a later revision, and has replaced none before the
first if they are for one plugin. -/
def Follows (a b : Applied) : Prop :=
  a.revision < b.revision ∧ (a.request.pluginId = b.request.pluginId → ∀ g ∈ b.standing, a.revision ≤ g.revision)

structure StateInv (s : WorkflowState) (h : History) : Prop where
  grants : ∀ id g, s.grants.lookup id = some g → GrantInv s.serial h id g
  pending : ∀ t p, s.pending.lookup t = some p → PreparedInv s.serial h p
  accepted : ∀ e ∈ h.accepted, e.intent ≤ s.serial
  rising : h.accepted.Pairwise fun a b => a.intent < b.intent
  applied : ∀ a ∈ h.applied, AppliedInv s.serial h a
  chain : h.applied.Pairwise Follows
  grants_size : s.grants.size ≤ 256
  pending_size : s.pending.size ≤ 32

/-- The serial has grown, and so has the history, by what a section may add to it. -/
structure Grown (n n' : ℕ) (h h' : History) : Prop where
  serial : n ≤ n'
  accepted : ∃ new, h'.accepted = h.accepted ++ new ∧ ∀ e ∈ new, n < e.intent
  applied : ∃ new, h'.applied = h.applied ++ new

section Grown

variable {n n' : ℕ} {h h' : History}

theorem Grown.of_eq (hn : n ≤ n') (ha : h'.accepted = h.accepted) (hb : h'.applied = h.applied) : Grown n n' h h' :=
  ⟨hn, ⟨[], by simp [ha], nofun⟩, ⟨[], by simp [hb]⟩⟩

theorem Grown.length_le (hg : Grown n n' h h') : h.accepted.length ≤ h'.accepted.length := by
  obtain ⟨new, hnew, -⟩ := hg.accepted
  rw [hnew, List.length_append]
  exact Nat.le_add_right ..

theorem Grown.take (hg : Grown n n' h h') {k : ℕ} (hk : k ≤ h.accepted.length) : h'.accepted.take k = h.accepted.take k := by
  obtain ⟨new, hnew, -⟩ := hg.accepted
  rw [hnew, List.take_append_of_le_length hk]

theorem Grown.since (hg : Grown n n' h h') {k i : ℕ} (hi : i ≤ n) (hs : Since h.accepted k i) : Since h'.accepted k i := by
  obtain ⟨new, hnew, habove⟩ := hg.accepted
  rw [hnew]
  exact hs.append fun e he => lt_of_le_of_lt hi (habove e he)

theorem Grown.mem_applied (hg : Grown n n' h h') {a : Applied} (ha : a ∈ h.applied) : a ∈ h'.applied := by
  obtain ⟨new, hnew⟩ := hg.applied
  rw [hnew]
  exact List.mem_append_left _ ha

theorem Grown.consented (hg : Grown n n' h h') {id : String} {g : Grant} (hc : Consented h.applied id g) :
    Consented h'.applied id g :=
  hc.imp_right fun ⟨a, ha, hrest⟩ => ⟨a, hg.mem_applied ha, hrest⟩

theorem PreparedInv.grown {p : Prepared} (hp : PreparedInv n h p) (hg : Grown n n' h h') : PreparedInv n' h' p :=
  { hp with intent_le := hp.intent_le.trans hg.serial, since := hg.since hp.intent_le hp.since }

theorem AppliedInv.grown {a : Applied} (ha : AppliedInv n h a) (hg : Grown n n' h h') : AppliedInv n' h' a where
  valid := ha.valid
  requested := ha.requested
  mem := by
    rw [hg.take ha.accepted_le]
    exact ha.mem
  last := by
    rw [hg.take ha.accepted_le]
    exact ha.last
  accepted_le := ha.accepted_le.trans hg.length_le
  revision_le := ha.revision_le.trans hg.serial
  replaced := ha.replaced

end Grown

/-! ## The sections -/

namespace WorkflowState

variable {s s' : WorkflowState} {r : AppResult ℕ} {id : String} {binding : Binding} {now : ℕ}

theorem next_cases (s : WorkflowState) : (∃ e, s.next = (.error e, s)) ∨ s.next = (.ok (s.serial + 1), { s with serial := s.serial + 1 }) := by
  unfold next
  split
  · exact .inr rfl
  · exact .inl ⟨_, rfl⟩

/-- What a `retain` leaves. -/
structure Within (s s' : WorkflowState) : Prop where
  serial : s'.serial = s.serial
  grants : ∀ id g, s'.grants.lookup id = some g → s.grants.lookup id = some g
  pending : ∀ t p, s'.pending.lookup t = some p → s.pending.lookup t = some p
  grants_size : s'.grants.size ≤ s.grants.size
  pending_size : s'.pending.size ≤ s.pending.size

theorem Within.trans {s'' : WorkflowState} (h : Within s s') (h' : Within s' s'') : Within s s'' where
  serial := h'.serial.trans h.serial
  grants id g hg := h.grants id g (h'.grants id g hg)
  pending t p hp := h.pending t p (h'.pending t p hp)
  grants_size := h'.grants_size.trans h.grants_size
  pending_size := h'.pending_size.trans h.pending_size

theorem prune_within (s : WorkflowState) (binding : Binding) (now : ℕ) : Within s (s.prune binding now) where
  serial := rfl
  grants _ _ hg := (AList.lookup_retain_eq_some.1 hg).1
  pending _ _ hp := (AList.lookup_retain_eq_some.1 hp).1
  grants_size := AList.size_retain_le
  pending_size := AList.size_retain_le

@[simp] theorem raise_serial (s : WorkflowState) (id : String) (n : ℕ) : (s.raise id n).serial = s.serial := by
  unfold raise
  split <;> rfl

@[simp] theorem raise_pending (s : WorkflowState) (id : String) (n : ℕ) : (s.raise id n).pending = s.pending := by
  unfold raise
  split <;> rfl

theorem lookup_raise (s : WorkflowState) (id : String) (n : ℕ) (j : String) : (s.raise id n).grants.lookup j =
    (s.grants.lookup j).map fun g => { g with intent := if j = id then n else g.intent } := by
  unfold raise
  by_cases hj : j = id
  · subst hj
    cases hlookup : s.grants.lookup j with
    | none => simp [hlookup]
    | some g => simp [AList.lookup_insert]
  · cases hlookup : s.grants.lookup id with
    | none => simp [hj]
    | some g => simp [hj, AList.lookup_insert_ne hj]

theorem size_raise (s : WorkflowState) (id : String) (n : ℕ) : (s.raise id n).grants.size = s.grants.size := by
  unfold raise
  split
  · next g hlookup => exact AList.size_insert_of_mem (AList.lookup_isSome.1 (by rw [hlookup]; rfl))
  · rfl

theorem withdraw_within (s : WorkflowState) (id : String) : Within s (s.withdraw id) where
  serial := rfl
  grants _ _ hg := hg
  pending _ _ hp := (AList.lookup_retain_eq_some.1 hp).1
  grants_size := le_rfl
  pending_size := AList.size_retain_le

/-- The grant is there, made anew, or refused. -/
theorem grant_cases (s : WorkflowState) (id : String) (binding : Binding) (now : ℕ) :
    (∃ g, s.grants.lookup id = some g ∧ g.binding = binding ∧ s.grant id binding now = (.ok g, s.prune binding now)) ∨
    (∃ e s', Within s s' ∧ s.grant id binding now = (.error e, s')) ∨
    (∃ s', Within s s' ∧ s'.grants.size < 256 ∧ s.grant id binding now =
      (.ok ⟨binding, s.serial + 1, s.serial + 1, []⟩,
        { s' with serial := s.serial + 1, grants := s'.grants.insert id ⟨binding, s.serial + 1, s.serial + 1, []⟩ })) := by
  have hprune := prune_within s binding now
  unfold grant
  dsimp only
  split
  · next g hg =>
    obtain ⟨hlookup, hb⟩ := Option.filter_eq_some_iff.1 hg
    exact .inl ⟨g, hprune.grants id g hlookup, of_decide_eq_true hb, rfl⟩
  · have hwithdraw := hprune.trans (withdraw_within (s.prune binding now) id)
    split
    · exact .inr (.inl ⟨_, _, hwithdraw, rfl⟩)
    · next hsize =>
      rcases next_cases ((s.prune binding now).withdraw id) with ⟨e, hnext⟩ | hnext
      · rw [hnext]
        exact .inr (.inl ⟨e, _, hwithdraw, rfl⟩)
      · rw [hnext]
        exact .inr (.inr ⟨_, hwithdraw, not_le.1 hsize, rfl⟩)

end WorkflowState

namespace StateInv

variable {s s' : WorkflowState} {h h' : History} {id : String} {binding : Binding} {now : ℕ}

theorem init {advanced : ℕ} : StateInv ⟨0, ∅, ∅⟩ ⟨advanced, [], [], [], [], [], 0, [], []⟩ where
  grants id g hg := by
    rw [AList.lookup_empty] at hg
    cases hg
  pending t p hp := by
    rw [AList.lookup_empty] at hp
    cases hp
  accepted := nofun
  rising := .nil
  applied := nofun
  chain := .nil
  grants_size := Nat.zero_le _
  pending_size := Nat.zero_le _

/-- Nothing but entries that are dropped. -/
theorem within (hi : StateInv s h) (hw : s.Within s') : StateInv s' h where
  grants id g hg := hw.serial ▸ hi.grants id g (hw.grants id g hg)
  pending t p hp := hw.serial ▸ hi.pending t p (hw.pending t p hp)
  accepted := hw.serial ▸ hi.accepted
  rising := hi.rising
  applied := hw.serial ▸ hi.applied
  chain := hi.chain
  grants_size := hw.grants_size.trans hi.grants_size
  pending_size := hw.pending_size.trans hi.pending_size

/-- A later serial alone. -/
theorem serial (hi : StateInv s h) {n : ℕ} (hn : s.serial ≤ n) : StateInv { s with serial := n } h where
  grants id g hg := { hi.grants id g hg with
    revision_le := (hi.grants id g hg).revision_le.trans hn
    intent_le := (hi.grants id g hg).intent_le.trans hn }
  pending t p hp := { hi.pending t p hp with intent_le := (hi.pending t p hp).intent_le.trans hn }
  accepted e he := (hi.accepted e he).trans hn
  rising := hi.rising
  applied a ha := { hi.applied a ha with revision_le := (hi.applied a ha).revision_le.trans hn }
  chain := hi.chain
  grants_size := hi.grants_size
  pending_size := hi.pending_size

/-- A grant is written into the table. -/
theorem insertGrant (hi : StateInv s h) {g : Grant} (hg : GrantInv s.serial h id g) (hsize : (s.grants.insert id g).size ≤ 256) :
    StateInv { s with grants := s.grants.insert id g } h where
  grants j g' hg' := by
    rcases Table.lookup_insert_eq_some.1 hg' with ⟨rfl, rfl⟩ | ⟨-, hold⟩
    · exact hg
    · exact hi.grants j g' hold
  pending := hi.pending
  accepted := hi.accepted
  rising := hi.rising
  applied := hi.applied
  chain := hi.chain
  grants_size := hsize
  pending_size := hi.pending_size

/-- What `grant` leaves, and what it returns. -/
structure Granted (s s' : WorkflowState) (h : History) (id : String) (binding : Binding) (r : AppResult Grant) : Prop where
  inv : StateInv s' h
  serial : s.serial ≤ s'.serial
  pending : ∀ t p, s'.pending.lookup t = some p → s.pending.lookup t = some p
  found : ∀ g, r = .ok g → s'.grants.lookup id = some g ∧ g.binding = binding
  /-- A grant that did not stand before has a number of its own. -/
  stood : ∀ g, r = .ok g → s.grants.lookup id = some g ∨ s.serial < g.intent

/-- **The section that reads or makes a grant.** -/
theorem grant (hi : StateInv s h) (id : String) (binding : Binding) (now : ℕ) :
    Granted s (s.grant id binding now).2 h id binding (s.grant id binding now).1 := by
  rcases s.grant_cases id binding now with ⟨g, hlookup, hb, heq⟩ | ⟨e, s', hw, heq⟩ | ⟨s', hw, hsize, heq⟩
  · -- the grant of this binding is not pruned
    have hkept : (s.prune binding now).grants.lookup id = some g := by
      refine AList.lookup_retain_eq_some.2 ⟨hlookup, ?_⟩
      simp [hb]
    rw [heq]
    refine ⟨hi.within (s.prune_within binding now), le_rfl, (s.prune_within binding now).pending, ?_, ?_⟩
    · rintro _ ⟨⟩
      exact ⟨hkept, hb⟩
    · rintro _ ⟨⟩
      exact .inl hlookup
  · rw [heq]
    exact ⟨hi.within hw, hw.serial.ge, hw.pending, nofun, nofun⟩
  · -- a new grant has the highest number of all
    have hnew : GrantInv (s.serial + 1) h id ⟨binding, s.serial + 1, s.serial + 1, []⟩ := by
      refine ⟨le_rfl, le_rfl, fun e he _ => ?_, .inl rfl, fun a ha _ => ?_⟩
      · exact Nat.le_succ_of_le (hi.accepted e he)
      · exact Nat.le_succ_of_le (hi.applied a ha).revision_le
    have hs' : StateInv { s' with serial := s.serial + 1 } h := (hi.within hw).serial (by
      rw [hw.serial]
      exact Nat.le_succ _)
    rw [heq]
    refine ⟨hs'.insertGrant hnew ?_, Nat.le_succ _, hw.pending, ?_, ?_⟩
    · exact AList.size_insert_le.trans hsize
    · rintro _ ⟨⟩
      exact ⟨AList.lookup_insert _, rfl⟩
    · rintro _ ⟨⟩
      exact .inr (Nat.lt_succ_self _)

/-- What `accept` leaves. -/
structure Accepted (s s' : WorkflowState) (h : History) (id : String) (n : ℕ) : Prop where
  intent : n = s.serial + 1
  serial : s'.serial = n
  inv : StateInv s' { h with accepted := h.accepted ++ [Change.mk id n] }
  pending : ∀ t p, s'.pending.lookup t = some p → s.pending.lookup t = some p ∧ p.request.pluginId ≠ id
  grants : ∀ j, s'.grants.lookup j = (s.grants.lookup j).map fun g => { g with intent := if j = id then n else g.intent }

/-- **The section that accepts a change**: the intent of the grant is its number. -/
theorem accept (hi : StateInv s h) {n : ℕ} (heq : s.accept id = (.ok n, s')) : Accepted s s' h id n := by
  unfold WorkflowState.accept at heq
  rcases s.next_cases with ⟨e, hnext⟩ | hnext
  · rw [hnext] at heq
    cases heq
  rw [hnext] at heq
  obtain ⟨rfl, rfl⟩ : s.serial + 1 = n ∧ (({ s with serial := s.serial + 1 } : WorkflowState).raise id (s.serial + 1)).withdraw id = s' :=
    ⟨Except.ok.inj (congrArg Prod.fst heq), congrArg Prod.snd heq⟩
  set s₁ : WorkflowState := { s with serial := s.serial + 1 } with hs₁
  set h' : History := { h with accepted := h.accepted ++ [Change.mk id (s.serial + 1)] } with hh'
  have hgrown : Grown s.serial (s.serial + 1) h h' := by
    refine ⟨Nat.le_succ _, ⟨[Change.mk id (s.serial + 1)], rfl, fun e he => ?_⟩, ⟨[], by simp [hh']⟩⟩
    rw [List.mem_singleton.1 he]
    exact Nat.lt_succ_self _
  have hwithin := (s₁.raise id (s.serial + 1)).withdraw_within id
  have hgrants : ∀ j, ((s₁.raise id (s.serial + 1)).withdraw id).grants.lookup j = (s.grants.lookup j).map fun g =>
      { g with intent := if j = id then s.serial + 1 else g.intent } := s₁.lookup_raise id (s.serial + 1)
  have hpending : ∀ t p, ((s₁.raise id (s.serial + 1)).withdraw id).pending.lookup t = some p →
      s.pending.lookup t = some p ∧ p.request.pluginId ≠ id := by
    intro t p hp
    obtain ⟨hp, hne⟩ := AList.lookup_retain_eq_some.1 hp
    rw [s₁.raise_pending] at hp
    exact ⟨hp, of_decide_eq_true hne⟩
  have hserial : ((s₁.raise id (s.serial + 1)).withdraw id).serial = s.serial + 1 := s₁.raise_serial id _
  refine ⟨rfl, hserial, ?_, hpending, hgrants⟩
  refine ⟨fun j g hg => ?_, fun t p hp => ?_, fun e he => ?_, ?_, fun a ha => ?_, hi.chain, ?_, ?_⟩
  · rw [hgrants, Option.map_eq_some_iff] at hg
    obtain ⟨g, hg, rfl⟩ := hg
    have hold := hi.grants j g hg
    rw [hserial]
    refine ⟨Nat.le_succ_of_le hold.revision_le, ?_, ?_, hold.consented, hold.after⟩
    · dsimp only
      split
      · exact le_rfl
      · exact Nat.le_succ_of_le hold.intent_le
    · -- the new change is for this plugin, whose intent is its number, or for another
      refine Newest.append (fun e he hid => ?_) fun e he hid => ?_
      · have hnew := hi.accepted e he
        have hintent := hold.newest e he hid
        dsimp only
        split
        · exact Nat.le_succ_of_le hnew
        · exact hintent
      · rw [List.mem_singleton.1 he] at hid ⊢
        rw [if_pos hid.symm]
  · rw [hserial]
    exact (hi.pending t p (hpending t p hp).1).grown hgrown
  · rw [hserial]
    rcases List.mem_append.1 he with he | he
    · exact Nat.le_succ_of_le (hi.accepted e he)
    · rw [List.mem_singleton.1 he]
  · refine List.pairwise_append.2 ⟨hi.rising, List.pairwise_singleton .., fun a ha b hb => ?_⟩
    rw [List.mem_singleton.1 hb]
    exact Nat.lt_succ_of_le (hi.accepted a ha)
  · rw [hserial]
    exact (hi.applied a ha).grown hgrown
  · exact hwithin.grants_size.trans ((s₁.size_raise id _).trans_le hi.grants_size)
  · refine hwithin.pending_size.trans ?_
    rw [s₁.raise_pending]
    exact hi.pending_size

/-- What `change` leaves. -/
structure Changed (s s' : WorkflowState) (h : History) (request : GrantRequest) (requested : List String) (binding : Binding)
    (intent : ℕ) (g : Grant) : Prop where
  binding_eq : g.binding = binding
  capabilities : g.capabilities = request.capabilities
  inv : StateInv s' { h with
    applied := h.applied ++
      [Applied.mk request requested binding (s.grants.lookup request.pluginId) g.revision intent h.accepted.length] }
  serial : s.serial ≤ s'.serial
  pending : ∀ t p, s'.pending.lookup t = some p → s.pending.lookup t = some p

theorem checkChange_ok {g : Grant} {request : GrantRequest} {requested : List String} {intent : ℕ} :
    checkChange g request requested intent = .ok () →
    toString g.revision = request.expectedGrantRevision ∧ (∀ v ∈ request.capabilities, v ∈ requested) ∧ g.intent = intent := by
  simp only [checkChange, checkExpected, bind_eq_ok, ensure_eq_ok]
  rintro ⟨_, ⟨_, -, _, -, -, -, hrevision⟩, _, hrequested, hintent⟩
  exact ⟨hrevision, hrequested, hintent⟩

/-- A change that fails leaves what `grant` has left. -/
theorem change_error (hi : StateInv s h) {request : GrantRequest} {requested : List String} {intent : ℕ} {e : AppError}
    (heq : s.change request requested binding intent now = (.error e, s')) :
    StateInv s' h ∧ s.serial ≤ s'.serial ∧ ∀ t p, s'.pending.lookup t = some p → s.pending.lookup t = some p := by
  have hg := hi.grant request.pluginId binding now
  -- no serial is used, whichever check fails
  have hend : s' = (s.grant request.pluginId binding now).2 := by
    unfold WorkflowState.change at heq
    split at heq
    · next hgrant =>
      rw [hgrant]
      exact (congrArg Prod.snd heq).symm
    next g s₀ hgrant =>
    rw [hgrant]
    split at heq
    · exact (congrArg Prod.snd heq).symm
    rcases s₀.next_cases with ⟨_, hnext⟩ | hnext
    · rw [hnext] at heq
      exact (congrArg Prod.snd heq).symm
    · rw [hnext] at heq
      cases heq
  subst hend
  exact ⟨hg.inv, hg.serial, hg.pending⟩

/-- **The section that applies a change**: it was the last that was accepted, and the revision it
expected is replaced by the highest of all. -/
theorem change (hi : StateInv s h) {request : GrantRequest} {requested : List String} {intent : ℕ} {g : Grant}
    (hvalid : World.validateGrantRequest request = .ok ()) (hmem : Change.mk request.pluginId intent ∈ h.accepted)
    (heq : s.change request requested binding intent now = (.ok g, s')) : Changed s s' h request requested binding intent g := by
  have hgrant := hi.grant request.pluginId binding now
  unfold WorkflowState.change at heq
  split at heq
  · cases heq
  next g₀ s₀ hfound =>
  rw [hfound] at hgrant
  split at heq
  · cases heq
  next hcheck =>
  obtain ⟨hrevision, hrequested, hintent⟩ := checkChange_ok hcheck
  obtain ⟨hlookup, hbinding⟩ := hgrant.found g₀ rfl
  have hold := hgrant.inv.grants _ _ hlookup
  -- a new grant has a higher number than the change
  have hstood : s.grants.lookup request.pluginId = some g₀ := by
    have haccepted : intent ≤ s.serial := hi.accepted _ hmem
    rcases hgrant.stood g₀ rfl with hstood | hnew
    · exact hstood
    · omega
  split at heq
  · cases heq
  next revision s₁ hnext =>
  obtain ⟨rfl, rfl⟩ : s₀.serial + 1 = revision ∧ { s₀ with serial := s₀.serial + 1 } = s₁ := by
    rcases s₀.next_cases with ⟨_, hcases⟩ | hcases
    · rw [hcases] at hnext
      cases hnext
    · rw [hcases] at hnext
      exact ⟨Except.ok.inj (congrArg Prod.fst hnext), congrArg Prod.snd hnext⟩
  obtain ⟨rfl, rfl⟩ : { g₀ with revision := s₀.serial + 1, capabilities := request.capabilities } = g ∧ _ = s' :=
    ⟨Except.ok.inj (congrArg Prod.fst heq), congrArg Prod.snd heq⟩
  set s₁ : WorkflowState := { s₀ with serial := s₀.serial + 1 }
  set a := Applied.mk request requested binding (s.grants.lookup request.pluginId) (s₀.serial + 1) intent h.accepted.length with ha
  set h' : History := { h with applied := h.applied ++ [a] }
  have hserial : StateInv s₁ h := hgrant.inv.serial (Nat.le_succ _)
  have hgrown : Grown (s₀.serial + 1) (s₀.serial + 1) h h' := ⟨le_rfl, ⟨[], by simp [h'], nofun⟩, ⟨[a], rfl⟩⟩
  -- the change that is applied
  have happlied : AppliedInv (s₀.serial + 1) h' a := by
    refine ⟨hvalid, hrequested, ?_, ?_, le_rfl, le_rfl,
      ⟨g₀, hstood, hbinding, hrevision, hintent, Nat.lt_succ_of_le hold.revision_le⟩⟩
    · rw [List.take_length]
      exact hmem
    · rw [List.take_length]
      show Newest h.accepted request.pluginId intent
      rw [← hintent]
      exact hold.newest
  -- it follows all that were applied before
  have hfollows : ∀ b ∈ h.applied, Follows b a := by
    refine fun b hb => ⟨Nat.lt_succ_of_le (hgrant.inv.applied b hb).revision_le, fun hid g hg => ?_⟩
    obtain rfl : g₀ = g := Option.some.inj (hstood.symm.trans hg)
    exact hold.after b hb hid
  -- the grant it makes
  have hgrant' : GrantInv (s₀.serial + 1) h' request.pluginId
      { g₀ with revision := s₀.serial + 1, capabilities := request.capabilities } := by
    refine ⟨le_rfl, Nat.le_succ_of_le hold.intent_le, hold.newest, .inr ⟨a, ?_, rfl, hbinding.symm, rfl, rfl⟩, ?_⟩
    · exact List.mem_append_right _ (List.mem_singleton_self a)
    · intro b hb _
      rcases List.mem_append.1 hb with hb | hb
      · exact Nat.le_succ_of_le (hgrant.inv.applied b hb).revision_le
      · rw [List.mem_singleton.1 hb]
  refine ⟨hbinding, rfl, ?_, hgrant.serial.trans (Nat.le_succ _), hgrant.pending⟩
  refine ⟨fun j g' hg' => ?_, fun t p hp => (hserial.pending t p hp).grown hgrown, hserial.accepted, hserial.rising,
    fun b hb => ?_, ?_, ?_, hserial.pending_size⟩
  · rcases Table.lookup_insert_eq_some.1 hg' with ⟨rfl, rfl⟩ | ⟨hne, hg'⟩
    · exact hgrant'
    · have hj := hserial.grants j g' hg'
      refine { hj with consented := hgrown.consented hj.consented, after := fun b hb hid => ?_ }
      rcases List.mem_append.1 hb with hb | hb
      · exact hj.after b hb hid
      · rw [List.mem_singleton.1 hb] at hid
        exact absurd hid hne
  · rcases List.mem_append.1 hb with hb | hb
    · exact (hserial.applied b hb).grown hgrown
    · rw [List.mem_singleton.1 hb]
      exact happlied
  · refine List.pairwise_append.2 ⟨hserial.chain, List.pairwise_singleton .., fun b hb c hc => ?_⟩
    rw [List.mem_singleton.1 hc]
    exact hfollows b hb
  · -- the plugin has a grant already
    rw [AList.size_insert_of_mem (AList.lookup_isSome.1 (by
      show (s₀.grants.lookup request.pluginId).isSome = true
      rw [hlookup]
      rfl))]
    exact hserial.grants_size

/-- Of the history only what was accepted and applied matters. -/
theorem congr (hi : StateInv s h) (ha : h'.accepted = h.accepted) (hb : h'.applied = h.applied) : StateInv s h' := by
  have hgrown : Grown s.serial s.serial h h' := .of_eq le_rfl ha hb
  refine ⟨fun id g hg => ?_, fun t p hp => (hi.pending t p hp).grown hgrown, ?_, ?_, fun a hm => ?_, ?_, hi.grants_size,
    hi.pending_size⟩
  · have hg := hi.grants id g hg
    exact ⟨hg.revision_le, hg.intent_le, ha ▸ hg.newest, hgrown.consented hg.consented, hb ▸ hg.after⟩
  · exact ha ▸ hi.accepted
  · exact ha ▸ hi.rising
  · exact (hi.applied a (hb ▸ hm)).grown hgrown
  · exact hb ▸ hi.chain

/-- A revision is that of one change. -/
theorem eq_of_revision (hi : StateInv s h) {a b : Applied} (ha : a ∈ h.applied) (hb : b ∈ h.applied)
    (heq : a.revision = b.revision) : a = b := by
  have hrising : (h.applied.map (·.revision)).Nodup := by
    rw [List.Nodup, List.pairwise_map]
    exact hi.chain.imp fun hab => hab.1.ne
  exact List.inj_on_of_nodup_map hrising ha hb heq

/-- **The section that prepares a proposal.** -/
theorem insert (hi : StateInv s h) {token : String} {p : Prepared} (hp : PreparedInv s.serial h p) (hsize : s.pending.size < 32) :
    StateInv { s with pending := s.pending.insert token p } h where
  grants := hi.grants
  pending t q hq := by
    rcases Table.lookup_insert_eq_some.1 hq with ⟨rfl, rfl⟩ | ⟨-, hold⟩
    · exact hp
    · exact hi.pending t q hold
  accepted := hi.accepted
  rising := hi.rising
  applied := hi.applied
  chain := hi.chain
  grants_size := hi.grants_size
  pending_size := AList.size_insert_le.trans hsize

end StateInv

end Workflow

end EasiFlux
