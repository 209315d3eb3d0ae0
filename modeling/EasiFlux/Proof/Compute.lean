import EasiFlux.Model.Compute

/-!
# A result does not cross a lifecycle operation

A call keeps three promises of its surroundings (`Admitted`): the epoch it has loaded is
not ahead of the runtime's; as long as no operation was reserved since its admission, none
stands in the line of the gate and none has entered; and once one was reserved, the epoch
has moved on or that operation still stands in line before its advance. When the call takes
the gate for its return the line is empty, so an operation reserved in between has advanced
the epoch, for good, and the comparison finds it (`Late`).

While the call holds the gate operations can still be reserved, but none enters.
-/

namespace EasiFlux

namespace Compute

variable {Number Captured Registry : Type}

namespace Lifecycle

/-- The operation stands in the line of the gate. -/
def queued : Lifecycle → Bool
  | .reserved | .advanced | .ready | .entered => true
  | .idle | .finished => false

end Lifecycle

namespace Call

/-- The locals of an admitted call. -/
def frame : Call Number Captured → Option (Frame Number)
  | .gated f | .captured f _ | .leased f _ _ | .confirmed f _ _ | .running f _ _ | .resumed f _ _ _
  | .regated f _ _ _ _ | .uncancelled f _ _ _ _ | .current f _ _ _ _ _ | .returning f _ _ _ _ => some f
  | .idle | .loaded _ _ | .returned _ _ | .leaving _ _ | .failed _ => none

end Call

/-- What calls and operations share: the gate, the epoch, the operations and the clock. -/
structure Shared where
  gate : FairLock GateUser
  computeEpoch : ℕ
  lifecycles : ℕ → Lifecycle
  clock : ComputeClock

def World.shared (w : World Number Captured Registry) : Shared :=
  ⟨w.gate, w.computeEpoch, w.lifecycles, w.clock⟩

variable (s : Shared)

/-- The epoch has moved past the one of `f`; at the last epoch nothing moves any more. -/
def Past (f : Frame Number) : Prop := f.epoch < s.computeEpoch ∨ f.epoch = World.maxEpoch

structure Admitted (f : Frame Number) : Prop where
  epoch_le : f.epoch ≤ s.computeEpoch
  reserved_le : f.admitted.reserved ≤ s.clock.reserved
  quiet : f.admitted.reserved = s.clock.reserved →
    (∀ l, GateUser.lifecycle l ∉ s.gate.line) ∧ f.admitted.entered = s.clock.entered
  moved : f.admitted.reserved < s.clock.reserved → Past s f ∨ ∃ l, s.lifecycles l = .reserved
  advanced : f.admitted.advanced = s.clock.advanced ∨ Past s f

/-- No operation was reserved before the call took the gate again, none advanced the epoch
before the comparison. -/
structure Through (f : Frame Number) (regated compared : ComputeClock) : Prop where
  reserved : f.admitted.reserved = regated.reserved
  advanced : f.admitted.advanced = compared.advanced

/-- What a call that has taken the gate again knows. -/
structure Regated (f : Frame Number) (regated : ComputeClock) : Prop where
  epoch : f.epoch ≠ World.maxEpoch
  reserved_le : f.admitted.reserved ≤ regated.reserved
  moved : f.admitted.reserved < regated.reserved → f.epoch < s.computeEpoch
  entered : f.admitted.reserved = regated.reserved → f.admitted.entered = s.clock.entered

/-- What the later points of a call add. -/
def Late : Call Number Captured → Prop
  | .confirmed f _ _ | .running f _ _ | .resumed f _ _ _ => f.epoch ≠ World.maxEpoch
  | .regated f _ _ _ regated | .uncancelled f _ _ _ regated => Regated s f regated
  | .current f _ _ _ regated compared | .returning f _ _ regated compared =>
    Through f regated compared ∧ f.admitted.entered = s.clock.entered
  | .returned _ p =>
    p.admitted.reserved = p.regated.reserved ∧ p.admitted.advanced = p.compared.advanced ∧
      p.admitted.entered = p.returned.entered
  | _ => True

/-- A call holds the gate exactly when it has its guard to drop. -/
structure Gated (c : ℕ) (call : Call Number Captured) : Prop where
  held : Resource.operation ∈ call.held → s.gate.Held (.call c)
  mem : GateUser.call c ∈ s.gate.line → Resource.operation ∈ call.held

structure CallInv (c : ℕ) (call : Call Number Captured) : Prop extends Gated s c call where
  nodup : call.held.Nodup
  admitted : ∀ f, call.frame = some f → Admitted s f
  late : Late s call
  loaded : ∀ request epoch, call = .loaded request epoch → epoch ≤ s.computeEpoch

structure SharedInv : Prop where
  epoch_le : s.computeEpoch ≤ World.maxEpoch
  queued : ∀ l, (s.lifecycles l).queued = true → GateUser.lifecycle l ∈ s.gate.line

structure GateInv (w : World Number Captured Registry) : Prop where
  shared : SharedInv w.shared
  calls : ∀ c, CallInv w.shared c (w.calls c)

variable {s}

/-! ### What an update of the shared state leaves of a call

The updates are those of the steps: of the gate, of the epoch and of the operations. -/

/-- An update under which the promises to a call are kept: the epoch does not go back, and
`Admitted` is kept; while the call holds the gate nobody enters. -/
structure Kept (s s' : Shared) (c : ℕ) : Prop where
  epoch_le : s.computeEpoch ≤ s'.computeEpoch
  admitted : ∀ {N : Type} (f : Frame N), Admitted s f → Admitted s' f
  entered : s.gate.Held (.call c) → s'.clock.entered = s.clock.entered
  held : s.gate.Held (.call c) → s'.gate.Held (.call c)
  mem : GateUser.call c ∈ s'.gate.line → GateUser.call c ∈ s.gate.line

theorem CallInv.kept {s' : Shared} {c : ℕ} {call : Call Number Captured}
    (h : CallInv s c call) (hk : Kept s s' c) : CallInv s' c call where
  held ho := hk.held (h.held ho)
  mem hm := h.mem (hk.mem hm)
  nodup := h.nodup
  admitted f hf := hk.admitted f (h.admitted f hf)
  loaded request epoch hl := le_trans (h.loaded request epoch hl) hk.epoch_le
  late := by
    have hlate := h.late
    have hheld := h.held
    cases call with
    | regated f captured flag value r | uncancelled f captured flag value r =>
      have he := hk.entered (hheld (by simp [Call.held]))
      exact ⟨hlate.epoch, hlate.reserved_le, fun hr => lt_of_lt_of_le (hlate.moved hr) hk.epoch_le,
        fun hr => he ▸ hlate.entered hr⟩
    | current f captured flag value r k =>
      have he := hk.entered (hheld (by simp [Call.held]))
      exact ⟨hlate.1, he ▸ hlate.2⟩
    | returning f flag value r k =>
      have he := hk.entered (hheld (by simp [Call.held]))
      exact ⟨hlate.1, he ▸ hlate.2⟩
    | _ => exact hlate

/-- Nothing but the gate changes, and no operation is new in its line. -/
theorem Admitted.of_gate {f : Frame Number} {gate : FairLock GateUser} (h : Admitted s f)
    (hl : ∀ l, GateUser.lifecycle l ∈ gate.line → GateUser.lifecycle l ∈ s.gate.line) : Admitted { s with gate } f :=
  { h with quiet := fun hr => ⟨fun l hm => (h.quiet hr).1 l (hl l hm), (h.quiet hr).2⟩ }

theorem Kept.of_gate {gate : FairLock GateUser} {c : ℕ}
    (hl : ∀ l, GateUser.lifecycle l ∈ gate.line → GateUser.lifecycle l ∈ s.gate.line)
    (hh : s.gate.Held (.call c) → gate.Held (.call c)) (hm : GateUser.call c ∈ gate.line → GateUser.call c ∈ s.gate.line) :
    Kept s { s with gate } c where
  epoch_le := le_rfl
  admitted _ h := h.of_gate hl
  entered _ := rfl
  held := hh
  mem := hm

/-- A user of the gate other than the call comes. -/
theorem Kept.lockOther (o c : ℕ) : Kept s { s with gate := s.gate.lock (.other o) } c := by
  apply Kept.of_gate
  · intro l hm
    simpa using hm
  · exact FairLock.Held.lock
  · intro hm
    simpa using hm

/-- A user of the gate other than the call goes. -/
theorem Kept.leave {u : GateUser} {c : ℕ} (hu : u ≠ .call c) : Kept s { s with gate := s.gate.leave u } c := by
  apply Kept.of_gate
  · intro l hm
    exact (FairLock.mem_leave.1 hm).2
  · intro hh
    exact hh.leave fun h => hu h.symm
  · intro hm
    exact (FairLock.mem_leave.1 hm).2

/-- Another call takes the free gate. -/
theorem Kept.tryLock {gate : FairLock GateUser} {c c' : ℕ} (hc : c' ≠ c) (h : s.gate.tryLock (.call c') = some gate) :
    Kept s { s with gate } c := by
  obtain ⟨hfree, hline⟩ := FairLock.tryLock_some h
  apply Kept.of_gate
  · intro l hm
    simp [hline] at hm
  · intro hh
    have hmem := hh.mem
    simp [hfree] at hmem
  · intro hm
    rw [hline, List.mem_singleton, GateUser.call.injEq] at hm
    exact absurd hm.symm hc

theorem Kept.reserve {l c : ℕ} :
    Kept s { s with
      gate := s.gate.lock (.lifecycle l)
      clock.reserved := s.clock.reserved + 1
      lifecycles := Function.update s.lifecycles l .reserved } c where
  epoch_le := le_rfl
  admitted f h := {
    epoch_le := h.epoch_le
    reserved_le := Nat.le_succ_of_le h.reserved_le
    quiet := fun hr => absurd h.reserved_le (by
      have hr' : f.admitted.reserved = s.clock.reserved + 1 := hr
      omega)
    moved := fun _ => .inr ⟨l, Function.update_self ..⟩
    advanced := h.advanced }
  entered _ := rfl
  held hh := hh.lock
  mem hm := by simpa using hm

theorem Kept.advance {l c : ℕ} (hs : s.computeEpoch ≤ World.maxEpoch) :
    Kept s { s with
      computeEpoch := min (s.computeEpoch + 1) World.maxEpoch
      clock.advanced := s.clock.advanced + 1
      lifecycles := Function.update s.lifecycles l .advanced } c := by
  have hle : s.computeEpoch ≤ min (s.computeEpoch + 1) World.maxEpoch := by omega
  -- whoever is not past the last epoch falls behind
  have hpast : ∀ {N : Type} (f : Frame N), Admitted s f → f.epoch < min (s.computeEpoch + 1) World.maxEpoch ∨ f.epoch = World.maxEpoch := by
    intro N f h
    have hf := h.epoch_le
    omega
  exact {
    epoch_le := hle
    admitted := fun f h => {
      epoch_le := le_trans h.epoch_le hle
      reserved_le := h.reserved_le
      quiet := h.quiet
      moved := fun _ => .inl (hpast f h)
      advanced := .inr (hpast f h) }
    entered := fun _ => rfl
    held := id
    mem := id }

/-- An operation that has advanced the epoch goes on. -/
theorem Kept.setLifecycle {l c : ℕ} {phase : Lifecycle} (hl : s.lifecycles l ≠ .reserved) :
    Kept s { s with lifecycles := Function.update s.lifecycles l phase } c where
  epoch_le := le_rfl
  admitted f h := { h with
    moved := fun hr => (h.moved hr).imp id fun ⟨l', hl'⟩ => ⟨l', by
      have hne : l' ≠ l := by rintro rfl; exact hl hl'
      exact (Function.update_of_ne hne ..).trans hl'⟩ }
  entered _ := rfl
  held := id
  mem := id

theorem Kept.trans {s' s'' : Shared} {c : ℕ} (h : Kept s s' c) (h' : Kept s' s'' c) :
    Kept s s'' c where
  epoch_le := h.epoch_le.trans h'.epoch_le
  admitted f hf := h'.admitted f (h.admitted f hf)
  entered hh := (h'.entered (h.held hh)).trans (h.entered hh)
  held hh := h'.held (h.held hh)
  mem hm := h.mem (h'.mem hm)

theorem Kept.enter {l c : ℕ} (hh : s.gate.Held (.lifecycle l)) :
    Kept s { s with clock.entered := s.clock.entered + 1 } c where
  epoch_le := le_rfl
  admitted _ h := { h with quiet := fun hr => absurd hh.mem ((h.quiet hr).1 l) }
  entered hc := nomatch hh.unique hc
  held := id
  mem := id

/-! ### The steps of a call -/

/-- The call goes on to a point with the same locals. -/
theorem CallInv.next {c : ℕ} {call call' : Call Number Captured} (h : CallInv s c call)
    (ho : Resource.operation ∈ call'.held ↔ Resource.operation ∈ call.held) (hn : call'.held.Nodup)
    (hf : call'.frame = call.frame) (hlate : Late s call') (hl : ∀ request epoch, call' ≠ .loaded request epoch) :
    CallInv s c call' where
  held hm := h.held (ho.1 hm)
  mem hm := ho.2 (h.mem hm)
  nodup := hn
  admitted f hf' := h.admitted f (hf ▸ hf')
  late := hlate
  loaded request epoch hl' := absurd hl' (hl request epoch)

/-- The call returns early, or its caller is dropped. -/
theorem CallInv.leaving {c : ℕ} {call : Call Number Captured} (h : CallInv s c call) (error : Option AppError) :
    CallInv s c (.leaving error call.held : Call Number Captured) where
  held := h.held
  mem := h.mem
  nodup := h.nodup
  admitted := nofun
  late := trivial
  loaded := nofun

/-- A call that holds nothing. -/
theorem CallInv.free {c : ℕ} {call call' : Call Number Captured} (h : CallInv s c call)
    (ho : Resource.operation ∉ call.held) (hh : call'.held = []) (hf : call'.frame = none) (hlate : Late s call')
    (hl : ∀ request epoch, call' = .loaded request epoch → epoch ≤ s.computeEpoch) : CallInv s c call' where
  held hm := by
    rw [hh] at hm
    cases hm
  mem hm := absurd (h.mem hm) ho
  nodup := by
    rw [hh]
    exact List.nodup_nil
  admitted f hf' := by
    rw [hf] at hf'
    cases hf'
  late := hlate
  loaded := hl

/-- What a call knows of the epoch and the entries does not depend on the gate. -/
theorem Late.of_gate {call : Call Number Captured} {gate : FairLock GateUser} (h : Late s call) :
    Late { s with gate } call := by
  cases call with
  | regated f captured flag value r | uncancelled f captured flag value r =>
    exact ⟨h.epoch, h.reserved_le, h.moved, h.entered⟩
  | _ => exact h

/-- A call that has given the gate back. -/
theorem CallInv.ungated {c : ℕ} {call : Call Number Captured} (ho : Resource.operation ∉ call.held)
    (hn : call.held.Nodup) (ha : ∀ f, call.frame = some f → Admitted s f) (hlate : Late s call)
    (hl : ∀ request epoch, call ≠ .loaded request epoch) :
    CallInv { s with gate := s.gate.leave (.call c) } c call where
  held hm := absurd hm ho
  mem hm := absurd rfl (FairLock.mem_leave.1 hm).1
  nodup := hn
  admitted f hf := (ha f hf).of_gate fun _ hm => (FairLock.mem_leave.1 hm).2
  late := hlate.of_gate
  loaded request epoch hl' := absurd hl' (hl request epoch)

/-- A call that has taken the free gate. -/
theorem CallInv.gated {c : ℕ} {call : Call Number Captured} {gate : FairLock GateUser}
    (h : s.gate.tryLock (.call c) = some gate) (ho : Resource.operation ∈ call.held) (hn : call.held.Nodup)
    (ha : ∀ f, call.frame = some f → Admitted s f) (hlate : Late s call)
    (hl : ∀ request epoch, call ≠ .loaded request epoch) : CallInv { s with gate } c call where
  held _ := by
    show gate.line.head? = _
    rw [(FairLock.tryLock_some h).2]
    rfl
  mem _ := ho
  nodup := hn
  admitted f hf := by
    apply (ha f hf).of_gate
    intro l hm
    simp [(FairLock.tryLock_some h).2] at hm
  late := hlate.of_gate
  loaded request epoch hl' := absurd hl' (hl request epoch)

/-- At its admission a call has the line of the gate to itself. -/
theorem Admitted.of_free {request : ComputeRequest Number} {epoch : ℕ} (hfree : s.gate.line = [])
    (he : epoch ≤ s.computeEpoch) : Admitted s ⟨request, epoch, s.clock⟩ where
  epoch_le := he
  reserved_le := le_rfl
  quiet _ := ⟨fun l hm => by simp [hfree] at hm, rfl⟩
  moved h := absurd h (lt_irrefl _)
  advanced := .inl rfl

/-- When the call takes the gate again, every operation reserved since has advanced the
epoch. -/
theorem Regated.of_free {f : Frame Number} (hs : SharedInv s) (hfree : s.gate.line = []) (ha : Admitted s f)
    (he : f.epoch ≠ World.maxEpoch) : Regated s f s.clock where
  epoch := he
  reserved_le := ha.reserved_le
  moved hr := by
    rcases ha.moved hr with (hlt | hmax) | ⟨l, hl⟩
    · exact hlt
    · exact absurd hmax he
    · have hm := hs.queued l (by rw [hl]; rfl)
      simp [hfree] at hm
  entered hr := (ha.quiet hr).2

/-- The comparison of the epoch finds what was reserved before the gate was taken, and what
was advanced until now. -/
theorem Regated.through {f : Frame Number} {regated : ComputeClock} (h : Regated s f regated) (ha : Admitted s f)
    (he : s.computeEpoch = f.epoch) : Through f regated s.clock ∧ f.admitted.entered = s.clock.entered := by
  have hnot : ¬f.epoch < s.computeEpoch := by omega
  have hreserved : f.admitted.reserved = regated.reserved := by
    by_contra hne
    exact hnot (h.moved (lt_of_le_of_ne h.reserved_le hne))
  have hadvanced : f.admitted.advanced = s.clock.advanced := by
    rcases ha.advanced with heq | hlt | hmax
    · exact heq
    · exact absurd hlt hnot
    · exact absurd hmax h.epoch
  exact ⟨⟨hreserved, hadvanced⟩, h.entered hreserved⟩

theorem Kept.refl (c : ℕ) : Kept s s c := ⟨le_rfl, fun _ h => h, fun _ => rfl, id, id⟩

namespace GateInv

variable {w w' : World Number Captured Registry} {c : ℕ} {call : Call Number Captured}

/-- A step of the call `c`. -/
theorem actor (h : GateInv w) (hs : SharedInv w'.shared) (hk : ∀ c', c' ≠ c → Kept w.shared w'.shared c')
    (hcalls : w'.calls = Function.update w.calls c call) (hc : CallInv w'.shared c call) : GateInv w' where
  shared := hs
  calls c' := by
    rw [hcalls]
    by_cases hne : c' = c
    · subst hne
      rw [Function.update_self]
      exact hc
    · rw [Function.update_of_ne hne]
      exact (h.calls c').kept (hk c' hne)

theorem setCall (h : GateInv w) (hc : CallInv w.shared c call) : GateInv (w.setCall c call) :=
  h.actor h.shared (fun c' _ => Kept.refl c') rfl hc

theorem fail (h : GateInv w) (c : ℕ) (error : AppError) : GateInv (w.setCall c ((w.calls c).fail error)) :=
  h.setCall ((h.calls c).leaving (some error))

/-- A call takes the free gate. -/
theorem taken {gate : FairLock GateUser} (h : GateInv w) (hg : w.gate.tryLock (.call c) = some gate)
    (hc : CallInv { w.shared with gate } c call) : GateInv ({ w with gate }.setCall c call) := by
  refine h.actor ⟨h.shared.epoch_le, ?_⟩ (fun c' hc' => Kept.tryLock hc'.symm hg) rfl hc
  intro l hl
  have hm := h.shared.queued l hl
  have hfree : w.shared.gate.line = [] := (FairLock.tryLock_some hg).1
  simp [hfree] at hm

/-- A call gives the gate back. -/
theorem given (h : GateInv w) (call : Call Number Captured)
    (hs : w'.shared = { w.shared with gate := w.gate.leave (.call c) })
    (hcalls : w'.calls = Function.update w.calls c call) (ho : Resource.operation ∉ call.held) (hn : call.held.Nodup)
    (ha : ∀ f, call.frame = some f → Admitted w.shared f) (hlate : Late w.shared call)
    (hl : ∀ request epoch, call ≠ .loaded request epoch) : GateInv w' := by
  have hc : CallInv { w.shared with gate := w.gate.leave (.call c) } c call := CallInv.ungated ho hn ha hlate hl
  refine h.actor (c := c) ?_ ?_ hcalls (hs ▸ hc)
  · rw [hs]
    refine ⟨h.shared.epoch_le, fun l hl => FairLock.mem_leave.2 ⟨?_, h.shared.queued l hl⟩⟩
    simp
  · intro c' hc'
    rw [hs]
    exact Kept.leave fun hu => hc' (GateUser.call.inj hu).symm

/-- A step of somebody else. -/
theorem beside (h : GateInv w) (hs : SharedInv w'.shared) (hk : ∀ c, Kept w.shared w'.shared c)
    (hcalls : w'.calls = w.calls) : GateInv w' :=
  ⟨hs, fun c => hcalls ▸ (h.calls c).kept (hk c)⟩

/-- The operation `l` goes on while the line of the gate stays as it is. -/
theorem queued_update {s : Shared} {l : ℕ} {phase : Lifecycle} (h : SharedInv s) (hl : (s.lifecycles l).queued = true)
    (l' : ℕ) (hl' : (Function.update s.lifecycles l phase l').queued = true) : GateUser.lifecycle l' ∈ s.gate.line := by
  by_cases hne : l' = l
  · subst hne
    exact h.queued l' hl
  · rw [Function.update_of_ne hne] at hl'
    exact h.queued l' hl'

theorem queued_of {l : ℕ} {phase : Lifecycle} (hl : w.lifecycles l = phase) (hphase : phase.queued = true) :
    (w.shared.lifecycles l).queued = true := by
  show (w.lifecycles l).queued = true
  rw [hl]
  exact hphase

theorem reserve (h : GateInv w) (l : ℕ) :
    GateInv ({ w with gate := w.gate.lock (.lifecycle l), clock.reserved := w.clock.reserved + 1 }.setLifecycle l
      .reserved) := by
  refine h.beside ⟨h.shared.epoch_le, ?_⟩ (fun c => Kept.reserve) rfl
  intro l' hl'
  refine FairLock.mem_lock.2 ?_
  by_cases hne : l' = l
  · exact .inr (congrArg _ hne)
  · have hq : (Function.update w.lifecycles l .reserved l').queued = true := hl'
    rw [Function.update_of_ne hne] at hq
    exact .inl (h.shared.queued l' hq)

theorem invalidate (h : GateInv w) {l : ℕ} (hl : w.lifecycles l = .advanced) :
    GateInv ({ w with slot := w.slot.invalidate }.setLifecycle l .ready) := by
  refine h.beside ⟨h.shared.epoch_le, queued_update h.shared (queued_of hl rfl)⟩ (fun c => Kept.setLifecycle ?_) rfl
  show w.lifecycles l ≠ _
  simp [hl]

theorem enter (h : GateInv w) {l : ℕ} (hl : w.lifecycles l = .ready) (hheld : w.gate.Held (.lifecycle l)) :
    GateInv ({ w with clock.entered := w.clock.entered + 1 }.setLifecycle l .entered) := by
  refine h.beside ⟨h.shared.epoch_le, queued_update h.shared (queued_of hl rfl)⟩ (fun c => ?_) rfl
  have hk : Kept w.shared { w.shared with clock.entered := w.clock.entered + 1 } c := Kept.enter hheld
  refine hk.trans (Kept.setLifecycle ?_)
  show w.lifecycles l ≠ _
  simp [hl]

theorem finish (h : GateInv w) {l : ℕ} (hl : w.lifecycles l = .entered) :
    GateInv ({ w with gate := w.gate.leave (.lifecycle l) }.setLifecycle l .finished) := by
  refine h.beside ⟨h.shared.epoch_le, ?_⟩ (fun c => ?_) rfl
  · intro l' hl'
    have hq : (Function.update w.lifecycles l .finished l').queued = true := hl'
    have hne : l' ≠ l := by
      rintro rfl
      rw [Function.update_self] at hq
      cases hq
    rw [Function.update_of_ne hne] at hq
    exact FairLock.mem_leave.2 ⟨fun hu => hne (GateUser.lifecycle.inj hu), h.shared.queued l' hq⟩
  · have hk : Kept w.shared { w.shared with gate := w.gate.leave (.lifecycle l) } c := Kept.leave (by simp)
    refine hk.trans (Kept.setLifecycle ?_)
    show w.lifecycles l ≠ _
    simp [hl]

/-- A call drops the next thing it holds. -/
theorem unwind (h : GateInv w) {error : Option AppError} {resource : Resource} {held : List Resource}
    (hc : w.calls c = .leaving error (resource :: held)) :
    GateInv ((w.dropResource c resource).setCall c (.leaving error held)) := by
  have hold := h.calls c
  rw [hc] at hold
  have hnodup : (resource :: held).Nodup := hold.nodup
  cases resource with
  | operation =>
    exact h.given (.leaving error held) rfl rfl (List.nodup_cons.1 hnodup).1 (List.nodup_cons.1 hnodup).2 nofun trivial
      nofun
  | cancelOnDrop flag | lease flag =>
    refine h.actor h.shared (fun c' _ => Kept.refl c') rfl ?_
    refine hold.next ?_ (List.nodup_cons.1 hnodup).2 rfl trivial nofun
    show _ ∈ held ↔ _ ∈ _ :: held
    simp

variable [DecidableEq Captured] {captureCompute : Registry → ComputeRequest Number → AppResult Captured}

theorem step (h : GateInv w) (a : Action Number Registry) : GateInv (w.step captureCompute a) := by
  cases a with
  -- the admission: epoch and flag are read, the gate is taken, the plugin is captured and leased
  | load c request =>
    simp only [World.step]
    split
    · next hc _ =>
      have hold := hc ▸ h.calls c
      refine h.setCall (hold.free nofun rfl rfl trivial ?_)
      rintro _ _ ⟨⟩
      exact le_rfl
    · next hc _ =>
      have hold := hc ▸ h.calls c
      exact h.setCall (hold.free nofun rfl rfl trivial nofun)
    · exact h
  | tryLock c =>
    simp only [World.step]
    split
    · next request epoch hc =>
      have hold := hc ▸ h.calls c
      split
      · exact h.setCall (hold.free nofun rfl rfl trivial nofun)
      · next gate hg =>
        have hfree : w.shared.gate.line = [] := (FairLock.tryLock_some hg).1
        refine h.taken hg (CallInv.gated hg (by simp [Call.held]) (by simp [Call.held]) ?_ trivial nofun)
        rintro _ ⟨⟩
        exact Admitted.of_free hfree (hold.loaded request epoch rfl)
    · exact h
  | capture c =>
    simp only [World.step]
    split
    · next f hc =>
      have hold := hc ▸ h.calls c
      split
      · split
        · exact h.setCall (hold.next Iff.rfl hold.nodup rfl trivial nofun)
        · exact h.fail c _
      · exact h.fail c _
    · exact h
  | acquire c =>
    simp only [World.step]
    split
    · next f captured hc =>
      have hold := hc ▸ h.calls c
      split
      · next flag slot _ =>
        refine h.actor h.shared (fun c' _ => Kept.refl c') rfl (hold.next ?_ ?_ rfl trivial nofun)
        · simp [Call.held]
        · simp [Call.held]
      · exact h.fail c _
    · exact h
  | confirm c =>
    simp only [World.step]
    split
    · next f captured flag hc =>
      have hold := hc ▸ h.calls c
      split
      · exact h.fail c _
      · next hepoch =>
        have hmax : f.epoch ≠ World.maxEpoch := fun he => hepoch (.inl he)
        exact h.setCall (hold.next Iff.rfl hold.nodup rfl hmax nofun)
    · exact h
  -- the run, without the gate
  | spawn c =>
    simp only [World.step]
    split
    · next f captured flag hc =>
      have hold := hc ▸ h.calls c
      refine h.given (.running f captured flag) rfl rfl ?_ ?_ hold.admitted hold.late nofun
      · simp [Call.held]
      · simp [Call.held]
    · exact h
  | guest c outcome =>
    simp only [World.step]
    split
    · exact ⟨h.shared, h.calls⟩
    · exact h
  | resume c =>
    simp only [World.step]
    split
    · next f captured flag value hc _ =>
      have hold := hc ▸ h.calls c
      exact h.setCall (hold.next Iff.rfl hold.nodup rfl hold.late nofun)
    · exact h.fail c _
    · exact h.fail c _
    · exact h
  -- the return: every comparison is made with the gate held
  | relock c =>
    simp only [World.step]
    split
    · next f captured flag value hc =>
      have hold := hc ▸ h.calls c
      split
      · exact h.fail c _
      · next gate hg =>
        have hfree : w.shared.gate.line = [] := (FairLock.tryLock_some hg).1
        have hlate := Regated.of_free h.shared hfree (hold.admitted f rfl) hold.late
        exact h.taken hg (CallInv.gated hg (by simp [Call.held]) (by simp [Call.held]) hold.admitted hlate nofun)
    · exact h
  | readFlag c =>
    simp only [World.step]
    split
    · next f captured flag value regated hc =>
      have hold := hc ▸ h.calls c
      split
      · exact h.setCall (hold.next Iff.rfl hold.nodup rfl hold.late nofun)
      · exact h.fail c _
    · exact h
  | compare c =>
    simp only [World.step]
    split
    · next f captured flag value regated hc =>
      have hold := hc ▸ h.calls c
      split
      · next he =>
        have hlate := Regated.through hold.late (hold.admitted f rfl) he
        exact h.setCall (hold.next Iff.rfl hold.nodup rfl hlate nofun)
      · exact h.fail c _
    · exact h
  | revalidate c =>
    simp only [World.step]
    split
    · next f captured flag value regated compared hc =>
      have hold := hc ▸ h.calls c
      split
      · split
        · exact h.setCall (hold.next Iff.rfl hold.nodup rfl hold.late nofun)
        · exact h.fail c _
      · exact h.fail c _
    · exact h
  | giveBack c =>
    simp only [World.step]
    split
    · next f flag value regated compared hc =>
      have hold := hc ▸ h.calls c
      obtain ⟨hthrough, hentered⟩ := hold.late
      refine h.given (.returned (f.request.result value) ⟨f.admitted, regated, compared, w.clock⟩) rfl rfl nofun
        List.nodup_nil nofun ?_ nofun
      exact ⟨hthrough.reserved, hthrough.advanced, hentered⟩
    · exact h
  -- a call that ends early drops what it holds
  | abandon c =>
    simp only [World.step]
    split
    · exact h.setCall ((h.calls c).leaving none)
    · exact h
  | unwind c =>
    simp only [World.step]
    split
    · next hc =>
      have hold := hc ▸ h.calls c
      exact h.setCall (hold.free nofun rfl rfl trivial nofun)
    · next hc => exact h.unwind hc
    · exact h
  | cancel id =>
    simp only [World.step]
    split
    · exact ⟨h.shared, h.calls⟩
    · exact h
  -- the lifecycle operations
  | reserve l =>
    simp only [World.step]
    split
    · exact h.reserve l
    · exact h
  | advance l =>
    simp only [World.step]
    split
    · next hl =>
      have hq : (w.shared.lifecycles l).queued = true := queued_of hl rfl
      exact h.beside ⟨min_le_right _ _, queued_update h.shared hq⟩ (fun c => Kept.advance h.shared.epoch_le) rfl
    · exact h
  | invalidate l =>
    simp only [World.step]
    split
    · next hl => exact h.invalidate hl
    · exact h
  | enter l =>
    simp only [World.step]
    split
    · next hl =>
      split
      · next hheld => exact h.enter hl hheld
      · exact h
    · exact h
  | publish l registry discovered =>
    simp only [World.step]
    split
    · exact ⟨h.shared, h.calls⟩
    · exact h
  | finish l =>
    simp only [World.step]
    split
    · next hl => exact h.finish hl
    · exact h
  -- whoever else uses the gate or the slot
  | queueOther o =>
    refine h.beside ⟨h.shared.epoch_le, fun l hl => ?_⟩ (fun c => Kept.lockOther o c) rfl
    exact FairLock.mem_lock.2 (.inl (h.shared.queued l hl))
  | leaveOther o =>
    refine h.beside ⟨h.shared.epoch_le, fun l hl => ?_⟩ (fun c => Kept.leave (by simp)) rfl
    exact FairLock.mem_leave.2 ⟨by simp, h.shared.queued l hl⟩
  | leaseOther o id =>
    simp only [World.step]
    split
    · exact ⟨h.shared, h.calls⟩
    · exact h
  | cancelOther o =>
    simp only [World.step]
    split
    · exact ⟨h.shared, h.calls⟩
    · exact h
  | dropOther o =>
    simp only [World.step]
    split
    · exact ⟨h.shared, h.calls⟩
    · exact h

end GateInv

end Compute

end EasiFlux
