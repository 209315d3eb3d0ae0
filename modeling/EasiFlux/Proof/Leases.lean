import EasiFlux.Proof.Compute

/-!
# The leases of the compute slot

Every lease that is held, by a call, by the guest of a call whose caller may be gone, or by
another user of the slot, is the one the slot names (`SlotInv.leased`), and the slot names
it with the request id it was acquired with. So there is one at most, a cancellation by id
reaches no other run, and only the drop of that lease frees the slot.
-/

namespace EasiFlux

namespace ComputeSlot

variable {s s' : ComputeSlot}

theorem acquire_ok {id : String} {flag : ℕ} (h : s.acquire id = .ok (flag, s')) :
    s.active = none ∧ flag = s.flags.length ∧ s' = ⟨some (id, s.flags.length), s.flags ++ [false]⟩ := by
  unfold acquire at h
  split at h
  · cases h
  · next hs =>
    cases h
    exact ⟨by simpa using hs, rfl, rfl⟩

theorem acquire_busy {x : String × ℕ} (h : s.active = some x) (id : String) :
    s.acquire id = .error (computeError "plugin_compute_busy") := if_pos (by rw [h]; rfl)

theorem dropLease_active {id : String} {flag : ℕ} (h : s.active = some (id, flag)) :
    s.dropLease flag = { s with active := none } := by
  unfold dropLease
  rw [if_pos (by simp [h])]

@[simp] theorem cancelFlag_active (s : ComputeSlot) (flag : ℕ) : (s.cancelFlag flag).active = s.active := rfl

@[simp] theorem cancelFlag_length (s : ComputeSlot) (flag : ℕ) :
    (s.cancelFlag flag).flags.length = s.flags.length := List.length_set

theorem cancel_active (s : ComputeSlot) (id : String) : (s.cancel id).2.active = s.active := by
  unfold cancel
  split <;> rfl

theorem cancel_length (s : ComputeSlot) (id : String) : (s.cancel id).2.flags.length = s.flags.length := by
  unfold cancel
  split <;> simp

theorem invalidate_active (s : ComputeSlot) : s.invalidate.active = s.active := by
  unfold invalidate
  split <;> rfl

theorem invalidate_length (s : ComputeSlot) : s.invalidate.flags.length = s.flags.length := by
  unfold invalidate
  split <;> simp

end ComputeSlot

namespace Compute

variable {Number Captured Registry : Type}

namespace Call

/-- The call has not handed its lease on to a guest. -/
def unspawned : Call Number Captured → Bool
  | .idle | .loaded _ _ | .gated _ | .captured _ _ | .leased _ _ _ | .confirmed _ _ _ => true
  | .leaving _ held => held.any fun | .lease _ => true | _ => false
  | _ => false

/-- The run of a call: its locals and its cancel flag. -/
def run : Call Number Captured → Option (Frame Number × ℕ)
  | .leased f _ flag | .confirmed f _ flag | .running f _ flag | .resumed f _ flag _ | .regated f _ flag _ _
  | .uncancelled f _ flag _ _ | .current f _ flag _ _ _ | .returning f flag _ _ _ => some (f, flag)
  | _ => none

theorem unspawned_of_lease {call : Call Number Captured} {flag : ℕ} (h : Resource.lease flag ∈ call.held) :
    call.unspawned = true := by
  cases call with
  | leaving error held => exact List.any_eq_true.2 ⟨_, h, rfl⟩
  | idle | loaded request epoch | gated f | captured f captured | leased f captured flag' | confirmed f captured flag' =>
    rfl
  | _ => simp [Call.held] at h

end Call

variable (w : World Number Captured Registry)

/-- Somebody holds the lease with this flag. -/
inductive Leased : Lessee → ℕ → Prop
  | call {c flag : ℕ} (h : Resource.lease flag ∈ (w.calls c).held) : Leased (.call c) flag
  | guest {c flag : ℕ} (h : w.guests c = .running flag) : Leased (.call c) flag
  | other {o flag : ℕ} (h : w.others o = some flag) : Leased (.other o) flag

structure SlotInv : Prop where
  length : w.lessees.length = w.slot.flags.length
  active : ∀ id flag, w.slot.active = some (id, flag) → ∃ h, w.lessees[flag]? = some (h, id)
  leased : ∀ h flag, Leased w h flag → ∃ id, w.slot.active = some (id, flag) ∧ w.lessees[flag]? = some (h, id)
  unspawned : ∀ c, (w.calls c).unspawned = true → w.guests c = .none
  runs : ∀ c f flag, (w.calls c).run = some (f, flag) → w.lessees[flag]? = some (.call c, f.request.requestId)

variable {w}

/-- Whatever holds of the call `c` in `calls` or of the new call holds of the updated calls. -/
theorem update_call {P : ℕ → Call Number Captured → Prop} {c : ℕ} {call : Call Number Captured} (hc : P c call)
    (h : ∀ c', c' ≠ c → P c' (w.calls c')) (c' : ℕ) : P c' (Function.update w.calls c call c') := by
  by_cases hne : c' = c
  · subst hne
    rw [Function.update_self]
    exact hc
  · rw [Function.update_of_ne hne]
    exact h c' hne

namespace SlotInv

variable {w' : World Number Captured Registry} {c : ℕ} {call : Call Number Captured}

/-- **One lease at a time.** -/
theorem unique (h : SlotInv w) {x y : Lessee} {f g : ℕ} (hx : Leased w x f) (hy : Leased w y g) : x = y ∧ f = g := by
  obtain ⟨id, ha, hl⟩ := h.leased x f hx
  obtain ⟨id', ha', hl'⟩ := h.leased y g hy
  rw [ha] at ha'
  cases ha'
  rw [hl] at hl'
  cases hl'
  exact ⟨rfl, rfl⟩

/-- A step after which no lease is new and the slot names what it did. -/
theorem same (h : SlotInv w) (ha : w'.slot.active = w.slot.active) (hn : w'.slot.flags.length = w.slot.flags.length)
    (hl : w'.lessees = w.lessees) (hle : ∀ x f, Leased w' x f → Leased w x f)
    (hu : ∀ c, (w'.calls c).unspawned = true → w'.guests c = .none)
    (hr : ∀ c f flag, (w'.calls c).run = some (f, flag) → (w.calls c).run = some (f, flag)) : SlotInv w' where
  length := by rw [hl, hn]; exact h.length
  active := by rw [ha, hl]; exact h.active
  leased x f hx := by rw [ha, hl]; exact h.leased x f (hle x f hx)
  unspawned := hu
  runs c f flag hf := by rw [hl]; exact h.runs c f flag (hr c f flag hf)

/-- A call goes on, without a lease it had not. -/
theorem actor (h : SlotInv w) (ha : w'.slot.active = w.slot.active) (hn : w'.slot.flags.length = w.slot.flags.length)
    (hl : w'.lessees = w.lessees) (hg : w'.guests = w.guests) (ho : w'.others = w.others)
    (hcalls : w'.calls = Function.update w.calls c call)
    (hheld : ∀ f, Resource.lease f ∈ call.held → Resource.lease f ∈ (w.calls c).held)
    (hu : call.unspawned = true → (w.calls c).unspawned = true)
    (hr : ∀ f flag, call.run = some (f, flag) → (w.calls c).run = some (f, flag)) : SlotInv w' := by
  refine h.same ha hn hl ?_ ?_ ?_
  · rintro x f (hx | hx | hx)
    · next c' =>
      rw [hcalls] at hx
      have hsub := update_call (w := w) (P := fun c' call => Resource.lease f ∈ call.held → Resource.lease f ∈ (w.calls c').held)
        (hheld f) (fun c' _ hx => hx) c'
      exact .call (hsub hx)
    · exact .guest (hg ▸ hx)
    · exact .other (ho ▸ hx)
  · rw [hcalls, hg]
    exact update_call (P := fun c' call => call.unspawned = true → w.guests c' = .none) (fun hc => h.unspawned c (hu hc))
      fun c' _ => h.unspawned c'
  · rw [hcalls]
    exact update_call (P := fun c' call => ∀ f flag, call.run = some (f, flag) → (w.calls c').run = some (f, flag)) hr
      fun c' _ f flag hf => hf

theorem setCall (h : SlotInv w) (hheld : ∀ f, Resource.lease f ∈ call.held → Resource.lease f ∈ (w.calls c).held)
    (hu : call.unspawned = true → (w.calls c).unspawned = true)
    (hr : ∀ f flag, call.run = some (f, flag) → (w.calls c).run = some (f, flag)) : SlotInv (w.setCall c call) :=
  h.actor rfl rfl rfl rfl rfl rfl hheld hu hr

/-- A call that holds nothing and runs nothing. -/
theorem emptied (h : SlotInv w) (hheld : call.held = []) (hu : call.unspawned = false) (hr : call.run = none) :
    SlotInv (w.setCall c call) := by
  refine h.setCall ?_ ?_ ?_
  · intro f hf
    rw [hheld] at hf
    cases hf
  · intro hf
    rw [hu] at hf
    cases hf
  · intro f flag hf
    rw [hr] at hf
    cases hf

theorem leaving (h : SlotInv w) (c : ℕ) (error : Option AppError) :
    SlotInv (w.setCall c (.leaving error (w.calls c).held)) := by
  refine h.setCall (fun f hf => hf) (fun hu => ?_) nofun
  obtain ⟨resource, hm, hr⟩ := List.any_eq_true.1 hu
  cases resource with
  | lease flag => exact Call.unspawned_of_lease hm
  | cancelOnDrop flag | operation => cases hr

/-- The slot is free, so the lease that was acquired is the only one. -/
theorem acquired (h : SlotInv w) {x : Lessee} {id : String} {flag : ℕ} {slot : ComputeSlot}
    (hacq : w.slot.acquire id = .ok (flag, slot)) (hs : w'.slot = slot) (hl : w'.lessees = w.lessees ++ [(x, id)])
    (hle : ∀ y f, Leased w' y f → Leased w y f ∨ (y = x ∧ f = flag))
    (hu : ∀ c, (w'.calls c).unspawned = true → w'.guests c = .none)
    (hr : ∀ c f g, (w'.calls c).run = some (f, g) →
      (w.calls c).run = some (f, g) ∨ (x = .call c ∧ id = f.request.requestId ∧ g = flag)) : SlotInv w' := by
  obtain ⟨hnone, rfl, rfl⟩ := ComputeSlot.acquire_ok hacq
  have hat : w'.lessees[w.slot.flags.length]? = some (x, id) := by
    rw [hl, ← h.length, List.getElem?_concat_length]
  refine ⟨?_, ?_, ?_, hu, ?_⟩
  · rw [hl, hs]
    simp [h.length]
  · intro id' flag' ha
    rw [hs] at ha
    cases ha
    exact ⟨x, hat⟩
  · intro y f hy
    rcases hle y f hy with hold | ⟨rfl, rfl⟩
    · obtain ⟨_, ha, _⟩ := h.leased y f hold
      rw [hnone] at ha
      cases ha
    · exact ⟨id, by rw [hs], hat⟩
  · intro c f g hf
    rcases hr c f g hf with hold | ⟨rfl, rfl, rfl⟩
    · have hold' := h.runs c f g hold
      obtain ⟨hlt, -⟩ := List.getElem?_eq_some_iff.1 hold'
      rw [hl, List.getElem?_append_left hlt]
      exact hold'
    · exact hat

/-- The lease that is dropped was the only one. -/
theorem dropped (h : SlotInv w) {x : Lessee} {flag : ℕ} (hx : Leased w x flag) (hs : w'.slot = w.slot.dropLease flag)
    (hl : w'.lessees = w.lessees) (hle : ∀ y f, Leased w' y f → Leased w y f) (hgone : ¬Leased w' x flag)
    (hu : ∀ c, (w'.calls c).unspawned = true → w'.guests c = .none)
    (hr : ∀ c f g, (w'.calls c).run = some (f, g) → (w.calls c).run = some (f, g)) : SlotInv w' := by
  obtain ⟨id, ha, -⟩ := h.leased x flag hx
  have hs' := hs.trans (ComputeSlot.dropLease_active ha)
  refine ⟨?_, ?_, ?_, hu, fun c f g hf => hl ▸ h.runs c f g (hr c f g hf)⟩
  · rw [hl, hs']
    exact h.length
  · intro id' flag' ha'
    rw [hs'] at ha'
    cases ha'
  · intro y f hy
    obtain ⟨rfl, rfl⟩ := h.unique (hle y f hy) hx
    exact absurd hy hgone

/-- The drops of a call that is leaving. -/
theorem unwind (h : SlotInv w) (hg : GateInv w) {error : Option AppError} {resource : Resource} {held : List Resource}
    (hc : w.calls c = .leaving error (resource :: held)) :
    SlotInv ((w.dropResource c resource).setCall c (.leaving error held)) := by
  have hheld : (w.calls c).held = resource :: held := by rw [hc]; rfl
  have hnodup : (resource :: held).Nodup := hheld ▸ (hg.calls c).nodup
  have hsub : ∀ f, Resource.lease f ∈ (Call.leaving error held : Call Number Captured).held →
      Resource.lease f ∈ (w.calls c).held := fun f hf => hheld ▸ List.mem_cons_of_mem _ hf
  have hun : (Call.leaving error held : Call Number Captured).unspawned = true → (w.calls c).unspawned = true := by
    intro hu
    obtain ⟨r, hm, hr⟩ := List.any_eq_true.1 hu
    rw [hc]
    exact List.any_eq_true.2 ⟨r, List.mem_cons_of_mem _ hm, hr⟩
  have hset : SlotInv (w.setCall c (.leaving error held)) := h.setCall hsub hun nofun
  cases resource with
  | operation => exact h.actor rfl rfl rfl rfl rfl rfl hsub hun nofun
  | cancelOnDrop flag => exact h.actor rfl (by simp [World.setCall, World.dropResource]) rfl rfl rfl rfl hsub hun nofun
  | lease flag =>
    have hin : Resource.lease flag ∈ (w.calls c).held := hheld ▸ List.mem_cons_self
    have hnone := h.unspawned c (Call.unspawned_of_lease hin)
    refine h.dropped (.call hin) rfl rfl ?_ ?_ hset.unspawned ?_
    · rintro x f (hx | hx | hx)
      · next c' =>
        exact .call (update_call (w := w)
          (P := fun c' call => Resource.lease f ∈ call.held → Resource.lease f ∈ (w.calls c').held) (hsub f)
          (fun c' _ hx => hx) c' hx)
      · exact .guest hx
      · exact .other hx
    · rintro (hx | hx | hx)
      · have hx' : Resource.lease flag ∈ (Function.update w.calls c (.leaving error held) c).held := hx
        rw [Function.update_self] at hx'
        exact (List.nodup_cons.1 hnodup).1 hx'
      · have hx' : w.guests c = .running flag := hx
        rw [hnone] at hx'
        cases hx'
    · exact update_call (P := fun c' call => ∀ f g, call.run = some (f, g) → (w.calls c').run = some (f, g)) nofun
        fun c' _ f g hf => hf

theorem acquire (h : SlotInv w) {f : Frame Number} {captured : Captured} {flag : ℕ} {slot : ComputeSlot}
    (hc : w.calls c = .captured f captured) (hacq : w.slot.acquire f.request.requestId = .ok (flag, slot)) :
    SlotInv ({ w with slot, lessees := w.lessees ++ [(Lessee.call c, f.request.requestId)] }.setCall c
      (.leased f captured flag)) := by
  refine h.acquired hacq rfl rfl ?_ ?_ ?_
  · rintro x g (hx | hx | hx)
    · next c' =>
      exact update_call (w := w)
        (P := fun c' call => Resource.lease g ∈ call.held → Leased w (.call c') g ∨ (Lessee.call c' = .call c ∧ g = flag))
        (fun hm => .inr ⟨rfl, by simpa [Call.held] using hm⟩) (fun c' _ hm => .inl (.call hm)) c' hx
    · exact .inl (.guest hx)
    · exact .inl (.other hx)
  · exact update_call (P := fun c' call => call.unspawned = true → w.guests c' = .none)
      (fun _ => h.unspawned c (by rw [hc]; rfl)) fun c' _ => h.unspawned c'
  · refine update_call (P := fun c' call => ∀ f' g, call.run = some (f', g) →
      (w.calls c').run = some (f', g) ∨ (Lessee.call c = .call c' ∧ f.request.requestId = f'.request.requestId ∧ g = flag))
      ?_ fun c' _ f' g hf => .inl hf
    rintro f' g ⟨⟩
    exact .inr ⟨rfl, rfl, rfl⟩

/-- The lease goes from the call to its guest. -/
theorem spawn (h : SlotInv w) {f : Frame Number} {captured : Captured} {flag : ℕ}
    (hc : w.calls c = .confirmed f captured flag) :
    SlotInv ({ w with
      gate := w.gate.leave (.call c)
      guests := Function.update w.guests c (.running flag) }.setCall c (.running f captured flag)) := by
  have hheld : Resource.lease flag ∈ (w.calls c).held := by
    rw [hc]
    simp [Call.held]
  refine h.same rfl rfl rfl ?_ ?_ ?_
  · rintro x g (hx | hx | hx)
    · next c' =>
      exact .call (update_call (w := w)
        (P := fun c' call => Resource.lease g ∈ call.held → Resource.lease g ∈ (w.calls c').held)
        (fun hm => by simp [Call.held] at hm) (fun c' _ hm => hm) c' hx)
    · next c' =>
      have hx' : Function.update w.guests c (.running flag) c' = .running g := hx
      by_cases hne : c' = c
      · subst hne
        rw [Function.update_self] at hx'
        cases hx'
        exact .call hheld
      · rw [Function.update_of_ne hne] at hx'
        exact .guest hx'
    · exact .other hx
  · exact update_call (P := fun c' call => call.unspawned = true → Function.update w.guests c (.running flag) c' = .none)
      (by rintro ⟨⟩) fun c' hne hu => (Function.update_of_ne hne ..).trans (h.unspawned c' hu)
  · refine update_call (P := fun c' call => ∀ f g, call.run = some (f, g) → (w.calls c').run = some (f, g)) ?_
      fun c' _ f' g hf => hf
    rintro f' g ⟨⟩
    rw [hc]
    rfl

theorem guest (h : SlotInv w) {flag : ℕ} (outcome : Option (AppResult Number)) (hg : w.guests c = .running flag) :
    SlotInv { w with slot := w.slot.dropLease flag, guests := Function.update w.guests c (.done outcome) } := by
  refine h.dropped (.guest hg) rfl rfl ?_ ?_ ?_ fun c f g hf => hf
  · rintro x f (hx | hx | hx)
    · exact .call hx
    · next c' =>
      have hx' : Function.update w.guests c (.done outcome) c' = .running f := hx
      by_cases hne : c' = c
      · subst hne
        rw [Function.update_self] at hx'
        cases hx'
      · rw [Function.update_of_ne hne] at hx'
        exact .guest hx'
    · exact .other hx
  · rintro (hx | hx | hx)
    · have hnone := h.unspawned c (Call.unspawned_of_lease hx)
      rw [hg] at hnone
      cases hnone
    · have hx' : Function.update w.guests c (.done outcome) c = .running flag := hx
      rw [Function.update_self] at hx'
      cases hx'
  · intro c' hu
    have hnone := h.unspawned c' hu
    have hne : c' ≠ c := by
      rintro rfl
      rw [hg] at hnone
      cases hnone
    exact (Function.update_of_ne hne ..).trans hnone

theorem leaseOther (h : SlotInv w) {o : ℕ} {id : String} {flag : ℕ} {slot : ComputeSlot}
    (hacq : w.slot.acquire id = .ok (flag, slot)) :
    SlotInv { w with
      slot := slot
      lessees := w.lessees ++ [(.other o, id)]
      others := Function.update w.others o (some flag) } := by
  refine h.acquired hacq rfl rfl ?_ h.unspawned fun c f g hf => .inl hf
  rintro x f (hx | hx | hx)
  · exact .inl (.call hx)
  · exact .inl (.guest hx)
  · next o' =>
    have hx' : Function.update w.others o (some flag) o' = some f := hx
    by_cases hne : o' = o
    · subst hne
      rw [Function.update_self] at hx'
      cases hx'
      exact .inr ⟨rfl, rfl⟩
    · rw [Function.update_of_ne hne] at hx'
      exact .inl (.other hx')

theorem dropOther (h : SlotInv w) {o flag : ℕ} (ho : w.others o = some flag) :
    SlotInv { w with slot := w.slot.dropLease flag, others := Function.update w.others o none } := by
  refine h.dropped (.other ho) rfl rfl ?_ ?_ h.unspawned fun c f g hf => hf
  · rintro x f (hx | hx | hx)
    · exact .call hx
    · exact .guest hx
    · next o' =>
      have hx' : Function.update w.others o none o' = some f := hx
      by_cases hne : o' = o
      · subst hne
        rw [Function.update_self] at hx'
        cases hx'
      · rw [Function.update_of_ne hne] at hx'
        exact .other hx'
  · rintro (hx | hx | hx)
    have hx' : Function.update w.others o none o = some flag := hx
    rw [Function.update_self] at hx'
    cases hx'

/-- A step that acquires and drops no lease; it may set flags. -/
theorem beside (h : SlotInv w) (ha : w'.slot.active = w.slot.active) (hn : w'.slot.flags.length = w.slot.flags.length)
    (hl : w'.lessees = w.lessees) (hc : w'.calls = w.calls) (hg : w'.guests = w.guests) (ho : w'.others = w.others) :
    SlotInv w' := by
  refine h.same ha hn hl ?_ ?_ ?_
  · rintro x f (hx | hx | hx)
    · exact .call (hc ▸ hx)
    · exact .guest (hg ▸ hx)
    · exact .other (ho ▸ hx)
  · rw [hc, hg]
    exact h.unspawned
  · rw [hc]
    exact fun c f flag hf => hf

variable [DecidableEq Captured] {captureCompute : Registry → ComputeRequest Number → AppResult Captured}

theorem step (h : SlotInv w) (hg : GateInv w) (a : Action Number Registry) : SlotInv (w.step captureCompute a) := by
  cases a with
  -- before its run a call has no lease:
  | load c request =>
    simp only [World.step]
    split
    · next hc _ => exact h.setCall (by rintro _ ⟨⟩) (fun _ => by rw [hc]; rfl) (by rintro _ _ ⟨⟩)
    · exact h.emptied rfl rfl rfl
    · exact h
  | tryLock c =>
    simp only [World.step]
    split
    · next request epoch hc =>
      split
      · exact h.emptied rfl rfl rfl
      · exact h.actor rfl rfl rfl rfl rfl rfl (by simp [Call.held]) (fun _ => by rw [hc]; rfl) (by rintro _ _ ⟨⟩)
    · exact h
  | capture c =>
    simp only [World.step]
    split
    · next f hc =>
      split
      · split
        · exact h.setCall (by simp [Call.held]) (fun _ => by rw [hc]; rfl) (by rintro _ _ ⟨⟩)
        · exact h.leaving c _
      · exact h.leaving c _
    · exact h
  -- the lease is taken, and passes from the call to its guest and back:
  | acquire c =>
    simp only [World.step]
    split
    · next f captured hc =>
      split
      · next flag slot hacq => exact h.acquire hc hacq
      · exact h.leaving c _
    · exact h
  | confirm c =>
    simp only [World.step]
    split
    · next f captured flag hc =>
      split
      · exact h.leaving c _
      · exact h.setCall (by simp [hc, Call.held]) (fun _ => by rw [hc]; rfl) (by simp [hc, Call.run])
    · exact h
  | spawn c =>
    simp only [World.step]
    split
    · next f captured flag hc => exact h.spawn hc
    · exact h
  | guest c outcome =>
    simp only [World.step]
    split
    · next flag hrunning => exact h.guest outcome hrunning
    · exact h
  | resume c =>
    simp only [World.step]
    split
    · next f captured flag value hc _ => exact h.setCall (by simp [Call.held]) (by rintro ⟨⟩) (by simp [hc, Call.run])
    · exact h.leaving c _
    · exact h.leaving c _
    · exact h
  -- the return keeps the lease until the result is out:
  | relock c =>
    simp only [World.step]
    split
    · next f captured flag value hc =>
      split
      · exact h.leaving c _
      · exact h.actor rfl rfl rfl rfl rfl rfl (by simp [Call.held]) (by rintro ⟨⟩) (by simp [hc, Call.run])
    · exact h
  | readFlag c =>
    simp only [World.step]
    split
    · next f captured flag value regated hc =>
      split
      · exact h.setCall (by simp [Call.held]) (by rintro ⟨⟩) (by simp [hc, Call.run])
      · exact h.leaving c _
    · exact h
  | compare c =>
    simp only [World.step]
    split
    · next f captured flag value regated hc =>
      split
      · exact h.setCall (by simp [Call.held]) (by rintro ⟨⟩) (by simp [hc, Call.run])
      · exact h.leaving c _
    · exact h
  | revalidate c =>
    simp only [World.step]
    split
    · next f captured flag value regated compared hc =>
      split
      · split
        · exact h.setCall (by simp [Call.held]) (by rintro ⟨⟩) (by simp [hc, Call.run])
        · exact h.leaving c _
      · exact h.leaving c _
    · exact h
  | giveBack c =>
    simp only [World.step]
    split
    · exact h.actor rfl (by simp [World.setCall, World.dropResource]) rfl rfl rfl rfl (by rintro _ ⟨⟩) (by rintro ⟨⟩) (by rintro _ _ ⟨⟩)
    · exact h
  -- a call that ends early drops its lease:
  | abandon c =>
    simp only [World.step]
    split
    · exact h.leaving c none
    · exact h
  | unwind c =>
    simp only [World.step]
    split
    · exact h.emptied rfl rfl rfl
    · next hc => exact h.unwind hg hc
    · exact h
  -- flags are set, and no lease changes hands:
  | cancel id =>
    simp only [World.step]
    split
    · exact h.beside (ComputeSlot.cancel_active _ id) (ComputeSlot.cancel_length _ id) rfl rfl rfl rfl
    · exact h
  | reserve l | publish l registry discovered | finish l | advance l =>
    simp only [World.step]
    split
    · exact h.beside rfl rfl rfl rfl rfl rfl
    · exact h
  | enter l =>
    simp only [World.step]
    split
    · split
      · exact h.beside rfl rfl rfl rfl rfl rfl
      · exact h
    · exact h
  | invalidate l =>
    simp only [World.step]
    split
    · exact h.beside (ComputeSlot.invalidate_active _) (ComputeSlot.invalidate_length _) rfl rfl rfl rfl
    · exact h
  | queueOther o | leaveOther o => exact h.beside rfl rfl rfl rfl rfl rfl
  -- leases of others than calls:
  | leaseOther o id =>
    simp only [World.step]
    split
    · next hacq => exact h.leaseOther hacq
    · exact h
  | cancelOther o =>
    simp only [World.step]
    split
    · exact h.beside rfl (ComputeSlot.cancelFlag_length _ _) rfl rfl rfl rfl
    · exact h
  | dropOther o =>
    simp only [World.step]
    split
    · next ho => exact h.dropOther ho
    · exact h

end SlotInv

/-- A cancellation by id sets the flag of no run with another id. -/
theorem cancel_flag (hs : SlotInv w) {id : String} {flag : ℕ} (hf : w.slot.flags[flag]? = some false)
    (ht : (w.slot.cancel id).2.flags[flag]? = some true) : ∃ x, w.lessees[flag]? = some (x, id) := by
  unfold ComputeSlot.cancel at ht
  split at ht
  · next id' g hactive =>
    obtain ⟨ha, hid⟩ := Option.filter_eq_some_iff.1 hactive
    have hid' : id' = id := by simpa using hid
    by_cases hg : g = flag
    · subst hid' hg
      exact hs.active _ _ ha
    · have hsame : (w.slot.cancelFlag g).flags[flag]? = some false := by
        unfold ComputeSlot.cancelFlag
        rw [← hf]
        exact List.getElem?_set_ne hg
      rw [hsame] at ht
      cases ht
  · rw [hf] at ht
    cases ht

variable [DecidableEq Captured] (captureCompute : Registry → ComputeRequest Number → AppResult Captured)

theorem run_inv (registry : Registry) (as : List (Action Number Registry)) :
    GateInv (World.run captureCompute registry as) ∧ SlotInv (World.run captureCompute registry as) := by
  apply Steps.run_inv (I := fun w => GateInv w ∧ SlotInv w)
  · intro w a ⟨hg, hs⟩
    exact ⟨hg.step a, hs.step hg a⟩
  · refine ⟨⟨⟨Nat.zero_le _, nofun⟩, fun c => ⟨⟨nofun, nofun⟩, List.nodup_nil, nofun, trivial, nofun⟩⟩, ?_⟩
    refine ⟨rfl, nofun, ?_, fun c _ => rfl, nofun⟩
    rintro x f (hx | hx | hx)
    · exact absurd hx List.not_mem_nil
    · cases hx
    · cases hx

/-- Who gives a lease back with the step: a guest, a call on its way out, another user. -/
def Action.releases : Action Number Registry → Option Lessee
  | .guest c _ | .unwind c => some (.call c)
  | .dropOther o => some (.other o)
  | _ => none

/-- The slot is freed by the drop of the lease it names, and else names the lease it did. -/
theorem step_active (hs : SlotInv w) (a : Action Number Registry) {id : String} {flag : ℕ}
    (ha : w.slot.active = some (id, flag)) :
    (w.step captureCompute a).slot.active = some (id, flag) ∨
      ((w.step captureCompute a).slot.active = none ∧ ∃ x, a.releases = some x ∧ Leased w x flag) := by
  -- whoever drops a lease drops the one the slot names
  have hdrop : ∀ {x g}, Leased w x g → (w.slot.dropLease g).active = none ∧ Leased w x flag := by
    intro x g hx
    obtain ⟨id', ha', -⟩ := hs.leased x g hx
    have hg : g = flag := by
      rw [ha] at ha'
      cases ha'
      rfl
    exact ⟨by rw [ComputeSlot.dropLease_active ha'], hg ▸ hx⟩
  cases a with
  | guest c outcome =>
    simp only [World.step]
    split
    · next g hg =>
      obtain ⟨hnone, hl⟩ := hdrop (.guest hg)
      exact .inr ⟨hnone, _, rfl, hl⟩
    · exact .inl ha
  | unwind c =>
    simp only [World.step]
    split
    · exact .inl ha
    · next error resource held hc =>
      cases resource with
      | lease g =>
        have hm : Resource.lease g ∈ (w.calls c).held := by
          rw [hc]
          exact List.mem_cons_self
        obtain ⟨hnone, hl⟩ := hdrop (.call hm)
        exact .inr ⟨hnone, _, rfl, hl⟩
      | cancelOnDrop g | operation => exact .inl ha
    · exact .inl ha
  | dropOther o =>
    simp only [World.step]
    split
    · next g hg =>
      obtain ⟨hnone, hl⟩ := hdrop (.other hg)
      exact .inr ⟨hnone, _, rfl, hl⟩
    · exact .inl ha
  | acquire c =>
    simp only [World.step, ComputeSlot.acquire_busy ha]
    split <;> exact .inl ha
  | leaseOther o id' =>
    simp only [World.step, ComputeSlot.acquire_busy ha]
    cases w.others o <;> exact .inl ha
  | cancel id' =>
    simp only [World.step]
    split
    · exact .inl ((ComputeSlot.cancel_active _ id').trans ha)
    · exact .inl ha
  | invalidate l =>
    simp only [World.step]
    split
    · exact .inl ((ComputeSlot.invalidate_active _).trans ha)
    · exact .inl ha
  | load c request | resume c =>
    simp only [World.step]
    split <;> exact .inl ha
  | capture c | revalidate c =>
    simp only [World.step]
    split
    · split
      · split <;> exact .inl ha
      · exact .inl ha
    · exact .inl ha
  | tryLock c | confirm c | relock c | readFlag c | compare c | enter l =>
    simp only [World.step]
    split
    · split <;> exact .inl ha
    · exact .inl ha
  | spawn c | giveBack c | abandon c | reserve l | advance l | publish l registry discovered | finish l | cancelOther o =>
    simp only [World.step]
    split <;> exact .inl ha
  | queueOther o | leaveOther o => exact .inl ha

/-- **A result does not cross a lifecycle operation.** A call that returns a result has seen
no operation reserved from its admission until it took the gate for its return, none that
advanced the epoch until its last comparison, and none that entered until it gave the gate
back. One lease is held at a time; cancelling an id sets the flag of runs admitted with that
id only; and the slot is freed only by the release of the lease it names. -/
theorem results_never_cross (registry : Registry) (as : List (Action Number Registry)) :
    let w := World.run captureCompute registry as
    (∀ c result p, w.calls c = .returned result p →
      p.admitted.reserved = p.regated.reserved ∧ p.admitted.advanced = p.compared.advanced ∧
        p.admitted.entered = p.returned.entered) ∧
    (∀ x y f g, Leased w x f → Leased w y g → x = y ∧ f = g) ∧
    (∀ (id : String) (flag : ℕ), w.slot.flags[flag]? = some false →
      (w.step captureCompute (.cancel id)).slot.flags[flag]? = some true → ∃ x, w.lessees[flag]? = some (x, id)) ∧
    (∀ c f flag, (w.calls c).run = some (f, flag) → w.lessees[flag]? = some (.call c, f.request.requestId)) ∧
    (∀ a id flag, w.slot.active = some (id, flag) → (w.step captureCompute a).slot.active ≠ some (id, flag) →
      (w.step captureCompute a).slot.active = none ∧ ∃ x, a.releases = some x ∧ Leased w x flag) := by
  intro w
  obtain ⟨hg, hs⟩ := run_inv captureCompute registry as
  refine ⟨?_, fun x y f g => hs.unique, ?_, hs.runs, ?_⟩
  · intro c result p hc
    have hlate := (hg.calls c).late
    rw [hc] at hlate
    exact hlate
  · intro id flag hf ht
    simp only [World.step] at ht
    split at ht
    · exact cancel_flag hs hf ht
    · rw [hf] at ht
      cases ht
  · intro a id flag ha hne
    exact (step_active captureCompute hs a ha).resolve_left hne

/-- A request for the run below. -/
def sampleRequest : ComputeRequest ℕ := ⟨"r-1", "a.b", "c.d", "1", "2", [3], 4⟩

/-- An operation reserved while the call holds the gate for its return, after the
comparison, waits in line behind it, and the call returns its result. -/
theorem reserved_before_return :
    ∃ as c result p, (World.run (fun (_ : Unit) (_ : ComputeRequest ℕ) => .ok ()) () as).calls c = .returned result p ∧
      p.admitted.reserved < p.returned.reserved :=
  ⟨[.reserve 0, .advance 0, .invalidate 0, .enter 0, .publish 0 () true, .finish 0,
    .load 0 sampleRequest, .tryLock 0, .capture 0, .acquire 0, .confirm 0, .spawn 0, .guest 0 (some (.ok 7)), .resume 0,
    .relock 0, .readFlag 0, .compare 0, .reserve 1, .revalidate 0, .giveBack 0],
    0, sampleRequest.result 7, ⟨⟨1, 1, 1⟩, ⟨1, 1, 1⟩, ⟨1, 1, 1⟩, ⟨2, 1, 1⟩⟩, by rfl, by decide⟩

end Compute

end EasiFlux
