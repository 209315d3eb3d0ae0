import Mathlib.Data.List.Nodup

/-!
# A fair lock

A lock whose waiters stand in a line: the head holds it, and when the head leaves, the
next one holds it at once. So an attempt that does not wait (`tryLock`) succeeds only when
nobody holds the lock and nobody waits for it.

Nobody stands in the line twice; the line carries that.
-/

structure FairLock (α : Type*) where
  line : List α
  nodup : line.Nodup

namespace FairLock

variable {α : Type*}

def free : FairLock α := ⟨[], List.nodup_nil⟩

/-- `a` holds the lock. -/
def Held (l : FairLock α) (a : α) : Prop := l.line.head? = some a

/-- Take the lock without waiting. -/
def tryLock (l : FairLock α) (a : α) : Option (FairLock α) :=
  if l.line = [] then some ⟨[a], List.nodup_singleton a⟩ else none

variable {l l' : FairLock α} {a b : α}

theorem Held.mem (h : l.Held a) : a ∈ l.line := List.mem_of_head? h

theorem Held.unique (ha : l.Held a) (hb : l.Held b) : a = b := Option.some.inj (ha.symm.trans hb)

@[simp] theorem not_mem_free : a ∉ (free : FairLock α).line := List.not_mem_nil

theorem tryLock_some (h : l.tryLock a = some l') : l.line = [] ∧ l'.line = [a] := by
  unfold tryLock at h
  split at h
  · next hl => exact ⟨hl, congrArg FairLock.line (Option.some.inj h).symm⟩
  · cases h

variable [DecidableEq α]

instance (l : FairLock α) (a : α) : Decidable (l.Held a) := inferInstanceAs (Decidable (_ = _))

/-- Stand in line; who stands there already stays where they are. -/
def lock (l : FairLock α) (a : α) : FairLock α :=
  if h : a ∈ l.line then l else ⟨l.line ++ [a], List.nodup_append.2 ⟨l.nodup, List.nodup_singleton a, fun x hx y hy => by
    rintro rfl
    exact h (List.mem_singleton.1 hy ▸ hx)⟩⟩

/-- Give the lock back, or give up waiting for it. -/
def leave (l : FairLock α) (a : α) : FairLock α := ⟨l.line.erase a, l.nodup.erase a⟩

@[simp] theorem mem_lock : b ∈ (l.lock a).line ↔ b ∈ l.line ∨ b = a := by
  unfold lock
  split
  · next h => exact ⟨Or.inl, fun hb => hb.elim id fun hb => hb ▸ h⟩
  · simp

@[simp] theorem mem_leave : b ∈ (l.leave a).line ↔ b ≠ a ∧ b ∈ l.line := l.nodup.mem_erase_iff

/-- Those who come do not take the lock from its holder. -/
theorem Held.lock (h : l.Held a) : (l.lock b).Held a := by
  unfold FairLock.lock
  split
  · exact h
  · unfold Held at h ⊢
    rw [List.head?_append, h]
    rfl

/-- Nor do the others who go. -/
theorem Held.leave (h : l.Held a) (hab : a ≠ b) : (l.leave b).Held a := by
  obtain ⟨rest, hl⟩ : ∃ rest, l.line = a :: rest := by
    unfold Held at h
    cases hl : l.line with
    | nil => rw [hl] at h; cases h
    | cons x rest => rw [hl] at h; exact ⟨rest, by rw [Option.some.inj h]⟩
  show (l.line.erase b).head? = some a
  rw [hl, List.erase_cons_tail (by simpa using hab)]
  rfl

end FairLock
