import EasiFlux.Lib.CrashIo

/-!
# The system calls on files

`Machine N X` is a directory of files named by `N` and a log of the calls the
program made to the outside (`X`). Each call comes with its `wp` rule; the rules
name the four ways a call can end, so a proof reads off every crash point.
-/

namespace CrashIo

abbrev Bytes := List UInt8

abbrev Disk (N : Type) := AList fun _ : N => Bytes

inductive IoErr
  | notFound
  | alreadyExists
  | other
  deriving DecidableEq, Repr

/-- The files, and the outside calls made so far, oldest first. -/
structure Machine (N X : Type) where
  disk : Disk N
  log : List X

namespace Machine

variable {N X : Type} [DecidableEq N]

def get (m : Machine N X) (n : N) : Option Bytes := m.disk.lookup n

def set (m : Machine N X) (n : N) (b : Bytes) : Machine N X := { m with disk := m.disk.insert n b }

def unlink (m : Machine N X) (n : N) : Machine N X := { m with disk := m.disk.erase n }

/-- `a` renamed to `b`, with contents `c`. -/
def move (m : Machine N X) (a b : N) (c : Bytes) : Machine N X := (m.unlink a).set b c

variable (m : Machine N X)

@[simp] theorem get_set_self (n : N) (b : Bytes) : (m.set n b).get n = some b := by simp [get, set]

@[simp] theorem get_set_ne {n k : N} (b : Bytes) (h : k ≠ n) : (m.set n b).get k = m.get k := by
  simp [get, set, AList.lookup_insert_ne h]

@[simp] theorem get_unlink_self (n : N) : (m.unlink n).get n = none := by simp [get, unlink]

@[simp] theorem get_unlink_ne {n k : N} (h : k ≠ n) : (m.unlink n).get k = m.get k := by
  simp [get, unlink, AList.lookup_erase_ne h]

theorem get_set (n k : N) (b : Bytes) : (m.set n b).get k = if k = n then some b else m.get k := by
  split
  · rename_i h; subst h; simp
  · rename_i h; simp [h]

theorem get_move (a b k : N) (c : Bytes) (hab : a ≠ b) :
    (m.move a b c).get k = if k = b then some c else if k = a then none else m.get k := by
  unfold move
  rw [get_set]
  split
  · rfl
  · split
    · rename_i h; subst h; simp
    · rename_i h; simp [h]

@[simp] theorem log_set (n : N) (b : Bytes) : (m.set n b).log = m.log := rfl
@[simp] theorem log_unlink (n : N) : (m.unlink n).log = m.log := rfl
@[simp] theorem log_move (a b : N) (c : Bytes) : (m.move a b c).log = m.log := rfl

/-! The files as a function of the name. -/

theorem get_set_eq (n : N) (b : Bytes) : (m.set n b).get = Function.update m.get n (some b) := by
  funext k; rw [get_set, Function.update_apply]

theorem get_unlink_eq (n : N) : (m.unlink n).get = Function.update m.get n none := by
  funext k
  by_cases h : k = n
  · subst h; simp
  · simp [h]

theorem get_move_eq (a b : N) (c : Bytes) :
    (m.move a b c).get = Function.update (Function.update m.get a none) b (some c) := by
  rw [move, get_set_eq, get_unlink_eq]

/-- A name is listed exactly when it has a file. -/
theorem mem_names (n : N) : n ∈ m.disk.keys ↔ (m.get n).isSome := by
  rw [get, AList.lookup_isSome, AList.mem_keys]

end Machine

variable {N X : Type} [DecidableEq N] {α : Type}

/-- A call that reads: a fault or a crash in it changes nothing. -/
def look (f : Machine N X → Except IoErr α) : Io (Machine N X) IoErr α :=
  Io.call (fun m => (f m, m)) (fun _ m => (.other, m)) (fun _ m => m)

/-- A call that happens completely or not at all. -/
def atomic (f : Machine N X → Except IoErr (Machine N X)) : Io (Machine N X) IoErr Unit :=
  Io.call (fun m => match f m with | .ok m' => (.ok (), m') | .error e => (.error e, m))
    (fun _ m => (.other, m))
    (fun k m => if k = 0 then m else match f m with | .ok m' => m' | .error _ => m)

/-- Whether the file is there (`symlink_metadata`). -/
def stat (n : N) : Io (Machine N X) IoErr Unit :=
  look fun m => if (m.get n).isSome then .ok () else .error .notFound

def read (n : N) : Io (Machine N X) IoErr Bytes :=
  look fun m => match m.get n with | some b => .ok b | none => .error .notFound

def readDir : Io (Machine N X) IoErr (List N) := look fun m => .ok m.disk.keys

/-- A call with no effect on the files: making the directory, a sync. -/
def sync : Io (Machine N X) IoErr Unit := look fun _ => .ok ()

def createNew (n : N) : Io (Machine N X) IoErr Unit :=
  atomic fun m => if (m.get n).isSome then .error .alreadyExists else .ok (m.set n [])

/-- Open for writing, created if missing, emptied if not. -/
def openTruncate (n : N) : Io (Machine N X) IoErr Unit := atomic fun m => .ok (m.set n [])

/-- Open for writing at the end, created if missing. -/
def openAppend (n : N) : Io (Machine N X) IoErr Unit :=
  atomic fun m => .ok (if (m.get n).isSome then m else m.set n [])

/-- The contents of `a` written to `b`, which is emptied first. -/
def copy (a b : N) : Io (Machine N X) IoErr Unit :=
  Io.call (fun m => match m.get a with | some c => (.ok (), m.set b c) | none => (.error .notFound, m))
    (fun k m => (.other, match m.get a with | some c => m.set b (c.take k) | none => m))
    (fun k m => match m.get a with | some c => m.set b (c.take k) | none => m)

def rename (a b : N) : Io (Machine N X) IoErr Unit :=
  atomic fun m => match m.get a with | some c => .ok (m.move a b c) | none => .error .notFound

def remove (n : N) : Io (Machine N X) IoErr Unit :=
  atomic fun m => if (m.get n).isSome then .ok (m.unlink n) else .error .notFound

/-- The file after the first `k` of the bytes `b` were written to its end. -/
def Machine.append (m : Machine N X) (n : N) (b : Bytes) (k : ℕ) : Machine N X :=
  m.set n ((m.get n).getD [] ++ b.take k)

theorem Machine.get_append_eq (m : Machine N X) (n : N) (b c : Bytes) (k : ℕ) (h : m.get n = some c) :
    (m.append n b k).get = Function.update m.get n (some (c ++ b.take k)) := by
  rw [Machine.append, Machine.get_set_eq, h]; rfl

/-- Write at the end of the open file. A fault or a crash leaves a prefix. -/
def writeAll (n : N) (b : Bytes) : Io (Machine N X) IoErr Unit :=
  Io.call (fun m => (.ok (), m.append n b b.length)) (fun k m => (.other, m.append n b k))
    (fun k m => m.append n b k)

def Machine.called (m : Machine N X) (x : X) : Machine N X := { m with log := m.log ++ [x] }

@[simp] theorem Machine.get_called (m : Machine N X) (x : X) (n : N) : (m.called x).get n = m.get n := rfl

/-- Call the outside, which answers `r`; `x` is the log entry, from the files the
call finds. The call has been made even if the process dies before the answer. -/
def invoke {ε : Type} (x : Disk N → X) (r : Except ε α) : Io (Machine N X) ε α := fun m fs =>
  match fs with
  | .crash _ :: _ => .crashed (m.called (x m.disk))
  | _ =>
    match r with
    | .ok a => .ok a (m.called (x m.disk)) fs.tail
    | .error e => .err e (m.called (x m.disk)) fs.tail

/-! ## The rules -/

variable {Q : α → Machine N X → Prop} {E : IoErr → Machine N X → Prop} {C : Machine N X → Prop}
  {m : Machine N X}

omit [DecidableEq N] in
theorem wp_look {f : Machine N X → Except IoErr α} (hQ : ∀ a, f m = .ok a → Q a m)
    (hE : ∀ e, f m = .error e → E e m) (ho : E .other m) (hC : C m) : wp (look f) Q E C m := by
  refine wp_call ?_ ?_ (fun _ => ho) (fun _ => hC)
  · intro a s h; rw [Prod.mk.injEq] at h; exact h.2 ▸ hQ a h.1
  · intro e s h; rw [Prod.mk.injEq] at h; exact h.2 ▸ hE e h.1

variable {P : Unit → Machine N X → Prop}

omit [DecidableEq N] in
theorem wp_atomic {f : Machine N X → Except IoErr (Machine N X)} (hQ : ∀ m', f m = .ok m' → P () m')
    (hE : ∀ e, f m = .error e → E e m) (ho : E .other m) (hC : C m) (hC' : ∀ m', f m = .ok m' → C m') :
    wp (atomic f) P E C m := by
  refine wp_call ?_ ?_ (fun _ => ho) (fun k => ?_)
  · intro a s h
    cases hf : f m with
    | ok m' => rw [hf] at h; simp only [Prod.mk.injEq] at h; exact h.2 ▸ hQ m' hf
    | error e => rw [hf] at h; simp at h
  · intro e s h
    cases hf : f m with
    | ok m' => rw [hf] at h; simp at h
    | error e' =>
      rw [hf] at h; simp only [Prod.mk.injEq, Except.error.injEq] at h
      exact h.2 ▸ h.1 ▸ hE e' hf
  · split
    · exact hC
    · cases hf : f m with
      | ok m' => exact hC' m' hf
      | error e => exact hC

theorem wp_stat {n : N} (hy : (m.get n).isSome → P () m) (hn : m.get n = none → E .notFound m)
    (ho : E .other m) (hC : C m) : wp (stat n) P E C m := by
  refine wp_look ?_ ?_ ho hC
  · intro a h; split at h
    · exact hy ‹_›
    · simp at h
  · intro e h; split at h
    · simp at h
    · rename_i hs; cases h; exact hn (by simpa using hs)

theorem wp_read {R : Bytes → Machine N X → Prop} {n : N} (hy : ∀ b, m.get n = some b → R b m)
    (hn : m.get n = none → E .notFound m) (ho : E .other m) (hC : C m) : wp (read n) R E C m := by
  refine wp_look ?_ ?_ ho hC
  · intro a h
    cases hg : m.get n with
    | some b => rw [hg] at h; cases h; exact hy _ hg
    | none => rw [hg] at h; cases h
  · intro e h
    cases hg : m.get n with
    | some b => rw [hg] at h; cases h
    | none => rw [hg] at h; cases h; exact hn hg

omit [DecidableEq N] in
theorem wp_readDir {R : List N → Machine N X → Prop} (hQ : R m.disk.keys m) (ho : E .other m) (hC : C m) :
    wp readDir R E C m :=
  wp_look (fun a h => by cases h; exact hQ) (fun e h => by cases h) ho hC

omit [DecidableEq N] in
theorem wp_sync (hQ : P () m) (ho : E .other m) (hC : C m) : wp sync P E C m :=
  wp_look (fun a _ => hQ) (fun e h => by cases h) ho hC

theorem wp_createNew {n : N} (hy : (m.get n).isSome → E .alreadyExists m)
    (hn : m.get n = none → P () (m.set n []) ∧ C (m.set n [])) (ho : E .other m) (hC : C m) :
    wp (createNew n) P E C m := by
  refine wp_atomic ?_ ?_ ho hC ?_
  · intro m' h; split at h
    · cases h
    · rename_i hs; cases h; exact (hn (by simpa using hs)).1
  · intro e h; split at h
    · cases h; exact hy ‹_›
    · cases h
  · intro m' h; split at h
    · cases h
    · rename_i hs; cases h; exact (hn (by simpa using hs)).2

theorem wp_openTruncate {n : N} (hQ : P () (m.set n [])) (ho : E .other m) (hC : C m)
    (hC' : C (m.set n [])) : wp (openTruncate n) P E C m :=
  wp_atomic (fun _ h => by cases h; exact hQ) (fun _ h => by cases h) ho hC
    (fun _ h => by cases h; exact hC')

theorem wp_openAppend {n : N} (hy : (m.get n).isSome → P () m) (hn : m.get n = none → P () (m.set n []) ∧ C (m.set n []))
    (ho : E .other m) (hC : C m) : wp (openAppend n) P E C m := by
  refine wp_atomic ?_ (fun _ h => by cases h) ho hC ?_
  · intro m' h
    cases h
    split
    · exact hy ‹_›
    · rename_i hs; exact (hn (by simpa using hs)).1
  · intro m' h
    cases h
    split
    · exact hC
    · rename_i hs; exact (hn (by simpa using hs)).2

theorem wp_copy {a b : N} {c : Bytes} (ha : m.get a = some c) (hQ : P () (m.set b c)) (ho : ∀ k, E .other (m.set b (c.take k)))
    (hC : ∀ k, C (m.set b (c.take k))) : wp (copy a b) P E C m := by
  refine wp_call ?_ ?_ (fun k => ?_) (fun k => ?_)
  · intro u s h
    rw [ha] at h
    simp only [Prod.mk.injEq] at h
    exact h.2 ▸ hQ
  · intro e s h
    rw [ha] at h
    simp at h
  · rw [ha]; exact ho k
  · rw [ha]; exact hC k

theorem wp_rename {a b : N} (hy : ∀ c, m.get a = some c → P () (m.move a b c) ∧ C (m.move a b c))
    (hn : m.get a = none → E .notFound m) (ho : E .other m) (hC : C m) : wp (rename a b) P E C m := by
  refine wp_atomic ?_ ?_ ho hC ?_
  all_goals
    intro x h
    cases hg : m.get a with
    | none => rw [hg] at h; cases h; try exact hn hg
    | some c => rw [hg] at h; cases h; try first | exact (hy c hg).1 | exact (hy c hg).2

theorem wp_remove {n : N} (hy : (m.get n).isSome → P () (m.unlink n) ∧ C (m.unlink n))
    (hn : m.get n = none → E .notFound m) (ho : E .other m) (hC : C m) : wp (remove n) P E C m := by
  refine wp_atomic ?_ ?_ ho hC ?_
  · intro m' h; split at h
    · cases h; exact (hy ‹_›).1
    · cases h
  · intro e h; split at h
    · cases h
    · rename_i hs; cases h; exact hn (by simpa using hs)
  · intro m' h; split at h
    · cases h; exact (hy ‹_›).2
    · cases h

theorem wp_writeAll {n : N} {b : Bytes} (hQ : P () (m.append n b b.length))
    (ho : ∀ k, E .other (m.append n b k)) (hC : ∀ k, C (m.append n b k)) : wp (writeAll n b) P E C m :=
  wp_call (fun a s h => by rw [Prod.mk.injEq] at h; exact h.2 ▸ hQ) (fun e s h => by simp at h) ho hC

omit [DecidableEq N] in
theorem wp_invoke {ε : Type} {F : ε → Machine N X → Prop} {x : Disk N → X} {r : Except ε α}
    (hQ : ∀ a, r = .ok a → Q a (m.called (x m.disk)))
    (hE : ∀ e, r = .error e → F e (m.called (x m.disk))) (hC : C (m.called (x m.disk))) :
    wp (invoke x r) Q F C m := by
  intro fs
  rcases fs with _ | ⟨_ | n | n, fs⟩
  case cons.crash => exact hC
  all_goals
    cases r with
    | ok a => exact hQ a rfl
    | error e => exact hE e rfl

/-! ## Calls that go through -/

section Run

variable {N X : Type} [DecidableEq N] {m : Machine N X}

omit [DecidableEq N] in
theorem sync_run : (sync : Io (Machine N X) IoErr Unit) m [] = .ok () m [] := rfl

theorem createNew_run {n : N} (h : m.get n = none) : createNew n m [] = .ok () (m.set n []) [] := by
  simp [createNew, atomic, Io.call, h]

theorem openAppend_run (n : N) :
    openAppend n m [] = .ok () (if (m.get n).isSome then m else m.set n []) [] := rfl

theorem openTruncate_run (n : N) : openTruncate n m [] = .ok () (m.set n []) [] := rfl

theorem writeAll_run (n : N) (b : Bytes) : writeAll n b m [] = .ok () (m.append n b b.length) [] := rfl

theorem rename_run {a b : N} {c : Bytes} (h : m.get a = some c) : rename a b m [] = .ok () (m.move a b c) [] := by
  simp [rename, atomic, Io.call, h]

theorem remove_run {n : N} (h : (m.get n).isSome) : remove n m [] = .ok () (m.unlink n) [] := by
  simp [remove, atomic, Io.call, h]

omit [DecidableEq N] in
theorem reaches_sync : Reaches (sync : Io (Machine N X) IoErr Unit) m () m := ⟨[.pass], fun _ => rfl⟩

theorem reaches_openTruncate (n : N) : Reaches (openTruncate n) m () (m.set n []) :=
  ⟨[.pass], fun _ => rfl⟩

theorem reaches_writeAll (n : N) (b : Bytes) : Reaches (writeAll n b) m () (m.append n b b.length) :=
  ⟨[.pass], fun _ => rfl⟩

theorem reaches_read {n : N} {b : Bytes} (h : m.get n = some b) : Reaches (read n) m b m :=
  ⟨[.pass], fun _ => by simp [read, look, Io.call, h]⟩

theorem reaches_remove {n : N} (h : (m.get n).isSome) : Reaches (remove n) m () (m.unlink n) :=
  ⟨[.pass], fun _ => by simp [remove, atomic, Io.call, h]⟩

theorem reaches_attempt_stat (n : N) :
    Reaches (Io.attempt (stat n) : Io (Machine N X) IoErr _) m (if (m.get n).isSome then .ok () else .error .notFound) m := by
  refine ⟨[.pass], fun rest => ?_⟩
  cases h : (m.get n).isSome <;> simp [Io.attempt, stat, look, Io.call, h]

end Run

end CrashIo
