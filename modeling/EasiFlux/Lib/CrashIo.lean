import Mathlib.Data.List.AList

/-!
# File-system programs that fail and crash

A program of type `Io σ ε α` runs on a state `σ` under a script of faults, one
per system call: the call goes through, fails, or the process dies in it. It
ends with a value, with an error, or dead (`Outcome`). An empty script has no
faults, so a program is tested by running it and verified over all scripts.

`wp m Q E C s` says that from `s`, whatever the script, `m` ends in a value
with `Q`, in an error with `E`, or dead with `C`. The rules below run a program
symbolically: one per combinator, one per system call.

The files are a finite map from names to bytes. A write that fails or that the
process dies in leaves any prefix of its bytes; every other call happens
completely or not at all. A missing file is the only cause of `notFound` and an
existing one the only cause of `alreadyExists`; a fault gives `other`.
-/

namespace CrashIo

/-- What happens to one system call. The number is how much of it was done: for
a write the bytes that reached the file, else nothing (`0`) or all of it. -/
inductive Fault
  | pass
  | fail (n : ℕ)
  | crash (n : ℕ)
  deriving DecidableEq, Repr

inductive Outcome (σ ε α : Type)
  | ok (a : α) (s : σ) (rest : List Fault)
  | err (e : ε) (s : σ) (rest : List Fault)
  | crashed (s : σ)

/-- The state a program leaves. -/
def Outcome.state {σ ε α : Type} : Outcome σ ε α → σ
  | .ok _ s _ => s
  | .err _ s _ => s
  | .crashed s => s

def Io (σ ε α : Type) : Type := σ → List Fault → Outcome σ ε α

variable {σ ε ε' α β : Type}

namespace Io

protected def pure (a : α) : Io σ ε α := fun s fs => .ok a s fs

protected def bind (m : Io σ ε α) (f : α → Io σ ε β) : Io σ ε β := fun s fs =>
  match m s fs with
  | .ok a s rest => f a s rest
  | .err e s rest => .err e s rest
  | .crashed s => .crashed s

instance : Monad (Io σ ε) where
  pure := Io.pure
  bind := Io.bind

def throw (e : ε) : Io σ ε α := fun s fs => .err e s fs

/-- The result of `m`, error or not, as a value. -/
def attempt (m : Io σ ε α) : Io σ ε' (Except ε α) := fun s fs =>
  match m s fs with
  | .ok a s rest => .ok (.ok a) s rest
  | .err e s rest => .ok (.error e) s rest
  | .crashed s => .crashed s

/-- `m`, whatever its result. -/
def ignore (m : Io σ ε α) : Io σ ε' Unit := fun s fs =>
  match m s fs with
  | .ok _ s rest => .ok () s rest
  | .err _ s rest => .ok () s rest
  | .crashed s => .crashed s

def mapErr (f : ε → ε') (m : Io σ ε α) : Io σ ε' α := fun s fs =>
  match m s fs with
  | .ok a s rest => .ok a s rest
  | .err e s rest => .err (f e) s rest
  | .crashed s => .crashed s

/-- `m` under its own faults `fs`. -/
def under (fs : List Fault) (m : Io σ ε α) : Io σ ε α := fun s rest =>
  match m s fs with
  | .ok a s _ => .ok a s rest
  | .err e s _ => .err e s rest
  | .crashed s => .crashed s

/-- A pure result, error or not. -/
def lift : Except ε α → Io σ ε α
  | .ok a => Io.pure a
  | .error e => throw e

/-- One system call: what it does, what it does when it fails, and what it has
done when the process dies in it. -/
def call (go : σ → Except ε α × σ) (bad : ℕ → σ → ε × σ) (dead : ℕ → σ → σ) : Io σ ε α := fun s fs =>
  match fs with
  | .fail n :: rest => .err (bad n s).1 (bad n s).2 rest
  | .crash n :: _ => .crashed (dead n s)
  | .pass :: rest =>
    match go s with
    | (.ok a, s') => .ok a s' rest
    | (.error e, s') => .err e s' rest
  | [] =>
    match go s with
    | (.ok a, s') => .ok a s' []
    | (.error e, s') => .err e s' []

/-- The whole state. -/
def get : Io σ ε σ := fun s fs => .ok s s fs

def modify (f : σ → σ) : Io σ ε Unit := fun s fs => .ok () (f s) fs

/-- A program on a part of the state: `part` reads the part, `put` writes it back. -/
def within {τ : Type} (part : τ → σ) (put : τ → σ → τ) (m : Io σ ε α) : Io τ ε α := fun t fs =>
  match m (part t) fs with
  | .ok a s rest => .ok a (put t s) rest
  | .err e s rest => .err e (put t s) rest
  | .crashed s => .crashed (put t s)

/-- `m` for each element of a list, in order. -/
def each (f : α → Io σ ε β) : List α → Io σ ε (List β)
  | [] => pure []
  | a :: as => do
    let b ← f a
    let bs ← each f as
    pure (b :: bs)

/-! Running a program whose calls go through. -/

variable {m : Io σ ε α} {s s' : σ} {fs rest : List Fault} {a : α}

theorem bind_of_ok {f : α → Io σ ε β} (h : m s fs = .ok a s' rest) : (m >>= f) s fs = f a s' rest := by
  show Io.bind m f s fs = _
  unfold Io.bind; rw [h]

theorem bind_of_err {e : ε} {f : α → Io σ ε β} (h : m s fs = .err e s' rest) : (m >>= f) s fs = .err e s' rest := by
  show Io.bind m f s fs = _
  unfold Io.bind; rw [h]

theorem bind_of_crashed {f : α → Io σ ε β} (h : m s fs = .crashed s') : (m >>= f) s fs = .crashed s' := by
  show Io.bind m f s fs = _
  unfold Io.bind; rw [h]

theorem attempt_of_ok (h : m s fs = .ok a s' rest) : (attempt m : Io σ ε' _) s fs = .ok (.ok a) s' rest := by
  unfold attempt; rw [h]

theorem attempt_of_err {e : ε} (h : m s fs = .err e s' rest) : (attempt m : Io σ ε' _) s fs = .ok (.error e) s' rest := by
  unfold attempt; rw [h]

theorem attempt_of_crashed (h : m s fs = .crashed s') : (attempt m : Io σ ε' _) s fs = .crashed s' := by
  unfold attempt; rw [h]

theorem under_of_ok {own rest' : List Fault} (h : m s own = .ok a s' rest') : under own m s fs = .ok a s' fs := by
  unfold under; rw [h]

theorem under_of_err {own rest' : List Fault} {e : ε} (h : m s own = .err e s' rest') : under own m s fs = .err e s' fs := by
  unfold under; rw [h]

theorem under_of_crashed {own : List Fault} (h : m s own = .crashed s') : under own m s fs = .crashed s' := by
  unfold under; rw [h]

theorem mapErr_of_ok {f : ε → ε'} (h : m s fs = .ok a s' rest) : mapErr f m s fs = .ok a s' rest := by
  unfold mapErr; rw [h]

theorem mapErr_of_err {e : ε} {f : ε → ε'} (h : m s fs = .err e s' rest) : mapErr f m s fs = .err (f e) s' rest := by
  unfold mapErr; rw [h]

theorem within_of_ok {τ : Type} {part : τ → σ} {put : τ → σ → τ} {t : τ} (h : m (part t) fs = .ok a s' rest) :
    within part put m t fs = .ok a (put t s') rest := by
  unfold within; rw [h]

theorem within_of_err {τ : Type} {part : τ → σ} {put : τ → σ → τ} {t : τ} {e : ε} (h : m (part t) fs = .err e s' rest) :
    within part put m t fs = .err e (put t s') rest := by
  unfold within; rw [h]

theorem lift_of_ok {r : Except ε α} (h : r = .ok a) : lift r s fs = .ok a s fs := by rw [h]; rfl

theorem each_of_ok {f : α → Io σ ε β} {g : α → β} (h : ∀ a, f a s fs = .ok (g a) s fs) (as : List α) :
    each f as s fs = .ok (as.map g) s fs := by
  induction as with
  | nil => rfl
  | cons a as ih => exact (bind_of_ok (h a)).trans (bind_of_ok ih)

end Io

/-! ## What a program may end in -/

def wp (m : Io σ ε α) (Q : α → σ → Prop) (E : ε → σ → Prop) (C : σ → Prop) (s : σ) : Prop :=
  ∀ fs, match m s fs with
    | .ok a s' _ => Q a s'
    | .err e s' _ => E e s'
    | .crashed s' => C s'

variable {Q Q' : α → σ → Prop} {E E' : ε → σ → Prop} {C C' : σ → Prop} {s : σ}

theorem wp_mono {m : Io σ ε α} (h : wp m Q E C s) (hQ : ∀ a s, Q a s → Q' a s)
    (hE : ∀ e s, E e s → E' e s) (hC : ∀ s, C s → C' s) : wp m Q' E' C' s := by
  intro fs
  have := h fs
  cases hm : m s fs <;> simp only [hm] at this ⊢
  · exact hQ _ _ this
  · exact hE _ _ this
  · exact hC _ this

theorem wp_true (m : Io σ ε α) (s : σ) : wp m (fun _ _ => True) (fun _ _ => True) (fun _ => True) s := by
  intro fs
  cases m s fs <;> trivial

theorem wp_and {m : Io σ ε α} (h : wp m Q E C s) (h' : wp m Q' E' C' s) :
    wp m (fun a s => Q a s ∧ Q' a s) (fun e s => E e s ∧ E' e s) (fun s => C s ∧ C' s) s := by
  intro fs
  have := h fs
  have := h' fs
  cases hm : m s fs <;> simp only [hm] at * <;> exact ⟨‹_›, ‹_›⟩

/-- What holds however the program ends holds of the state it leaves. -/
theorem wp_state {m : Io σ ε α} {P : σ → Prop} (h : wp m (fun _ => P) (fun _ => P) P s) (fs : List Fault) :
    P (m s fs).state := by
  have := h fs
  cases hm : m s fs <;> simp only [hm] at this <;> exact this

@[simp] theorem wp_pure {a : α} : wp (pure a : Io σ ε α) Q E C s ↔ Q a s :=
  ⟨fun h => h [], fun h _ => h⟩

@[simp] theorem wp_throw {e : ε} : wp (Io.throw e : Io σ ε α) Q E C s ↔ E e s :=
  ⟨fun h => h [], fun h _ => h⟩

theorem wp_bind {m : Io σ ε α} {f : α → Io σ ε β} {R : β → σ → Prop}
    (h : wp m (fun a s => wp (f a) R E C s) E C s) : wp (m >>= f) R E C s := by
  intro fs
  have := h fs
  show match Io.bind m f s fs with | .ok b s' _ => R b s' | .err e s' _ => E e s' | .crashed s' => C s'
  unfold Io.bind
  cases hm : m s fs <;> simp only [hm] at this ⊢
  · exact this _
  · exact this
  · exact this

/-- Two programs that go on alike from every result of their first part. -/
theorem bind_congr {m : Io σ ε α} {f g : α → Io σ ε β} (h : wp m Q (fun _ _ => True) (fun _ => True) s)
    (hfg : ∀ a s', Q a s' → f a s' = g a s') : (m >>= f) s = (m >>= g) s := by
  funext fs
  have hspec := h fs
  cases hm : m s fs with
  | ok a s' rest =>
    rw [hm] at hspec
    rw [Io.bind_of_ok hm, Io.bind_of_ok hm, hfg a s' hspec]
  | err e s' rest => rw [Io.bind_of_err hm, Io.bind_of_err hm]
  | crashed s' => rw [Io.bind_of_crashed hm, Io.bind_of_crashed hm]

@[simp] theorem wp_attempt {m : Io σ ε α} {R : Except ε α → σ → Prop} {E' : ε' → σ → Prop} :
    wp (Io.attempt m) R E' C s ↔ wp m (fun a s => R (.ok a) s) (fun e s => R (.error e) s) C s := by
  unfold wp Io.attempt
  apply forall_congr'
  intro fs
  cases m s fs <;> rfl

@[simp] theorem wp_ignore {m : Io σ ε α} {R : Unit → σ → Prop} {E' : ε' → σ → Prop} :
    wp (Io.ignore m) R E' C s ↔ wp m (fun _ s => R () s) (fun _ s => R () s) C s := by
  unfold wp Io.ignore
  apply forall_congr'
  intro fs
  cases m s fs <;> rfl

@[simp] theorem wp_mapErr {m : Io σ ε α} {f : ε → ε'} {E' : ε' → σ → Prop} :
    wp (Io.mapErr f m) Q E' C s ↔ wp m Q (fun e s => E' (f e) s) C s := by
  unfold wp Io.mapErr
  apply forall_congr'
  intro fs
  cases m s fs <;> rfl

@[simp] theorem wp_get {R : σ → σ → Prop} : wp (Io.get : Io σ ε σ) R E C s ↔ R s s :=
  ⟨fun h => h [], fun h _ => h⟩

@[simp] theorem wp_modify {R : Unit → σ → Prop} {f : σ → σ} :
    wp (Io.modify f : Io σ ε Unit) R E C s ↔ R () (f s) :=
  ⟨fun h => h [], fun h _ => h⟩

theorem wp_within {τ : Type} {part : τ → σ} {put : τ → σ → τ} {m : Io σ ε α} {R : α → τ → Prop}
    {F : ε → τ → Prop} {D : τ → Prop} {t : τ} :
    wp (Io.within part put m) R F D t ↔
      wp m (fun a s => R a (put t s)) (fun e s => F e (put t s)) (fun s => D (put t s)) (part t) := by
  unfold wp Io.within
  apply forall_congr'
  intro fs
  cases m (part t) fs <;> rfl

theorem wp_lift {r : Except ε α} (hQ : ∀ a, r = .ok a → Q a s) (hE : ∀ e, r = .error e → E e s) :
    wp (Io.lift r : Io σ ε α) Q E C s := by
  cases r with
  | ok a => exact wp_pure.2 (hQ a rfl)
  | error e => exact wp_throw.2 (hE e rfl)

theorem wp_call {go : σ → Except ε α × σ} {bad : ℕ → σ → ε × σ} {dead : ℕ → σ → σ}
    (hgo : ∀ a s', go s = (.ok a, s') → Q a s') (herr : ∀ e s', go s = (.error e, s') → E e s')
    (hbad : ∀ n, E (bad n s).1 (bad n s).2) (hdead : ∀ n, C (dead n s)) :
    wp (Io.call go bad dead) Q E C s := by
  intro fs
  rcases fs with _ | ⟨_ | n | n, fs⟩
  · simp only [Io.call]
    rcases hg : go s with ⟨_ | a, s'⟩
    · exact herr _ _ hg
    · exact hgo _ _ hg
  · simp only [Io.call]
    rcases hg : go s with ⟨_ | a, s'⟩
    · exact herr _ _ hg
    · exact hgo _ _ hg
  · exact hbad n
  · exact hdead n

/-- The rule of `Io.each`: an invariant `I` of what was done so far. -/
theorem wp_each {f : α → Io σ ε β} {I : List α → List β → σ → Prop}
    (hf : ∀ a pre out s, I pre out s → wp (f a) (fun b s => I (pre ++ [a]) (out ++ [b]) s) E C s) :
    ∀ (as : List α) (pre : List α) (out : List β) (s : σ), I pre out s →
      wp (Io.each f as) (fun bs s => I (pre ++ as) (out ++ bs) s) E C s := by
  intro as
  induction as with
  | nil => intro pre out s h; simpa [Io.each] using h
  | cons a as ih =>
    intro pre out s h
    unfold Io.each
    refine wp_bind (wp_mono (hf a pre out s h) (fun b s hb => ?_) (fun _ _ h => h) (fun _ h => h))
    refine wp_bind (wp_mono (ih _ _ s hb) (fun bs s hbs => ?_) (fun _ _ h => h) (fun _ h => h))
    simpa using hbs

/-! ### Reaching a point

A run that gets to some point of a program, to have the process die there. -/

/-- Some script takes `m` from `s` to its value `a` in `s'`, whatever is to come. -/
def Reaches (m : Io σ ε α) (s : σ) (a : α) (s' : σ) : Prop := ∃ p, ∀ rest, m s (p ++ rest) = .ok a s' rest

section Reaches

variable {m : Io σ ε α} {f : α → Io σ ε β} {s' s'' : σ} {a : α} {b : β}

theorem reaches_pure : Reaches (pure a : Io σ ε α) s a s := ⟨[], fun _ => rfl⟩

theorem Reaches.bind (h : Reaches m s a s') (h' : Reaches (f a) s' b s'') : Reaches (m >>= f) s b s'' := by
  obtain ⟨p, hp⟩ := h
  obtain ⟨q, hq⟩ := h'
  refine ⟨p ++ q, fun rest => ?_⟩
  rw [List.append_assoc]
  exact (Io.bind_of_ok (hp _)).trans (hq rest)

/-- The process dies in what comes after. -/
theorem Reaches.crash (h : Reaches m s a s') (h' : ∃ fs, f a s' fs = .crashed s'') : ∃ fs, (m >>= f) s fs = .crashed s'' := by
  obtain ⟨p, hp⟩ := h
  obtain ⟨fs, hfs⟩ := h'
  exact ⟨p ++ fs, (Io.bind_of_ok (hp fs)).trans hfs⟩

/-- What every run ensures, one that gets there has. -/
theorem Reaches.wp {Q : α → σ → Prop} {E : ε → σ → Prop} {C : σ → Prop} (h : Reaches m s a s') (hw : wp m Q E C s) : Q a s' := by
  obtain ⟨p, hp⟩ := h
  have hspec := hw (p ++ [])
  rw [hp []] at hspec
  exact hspec

end Reaches

end CrashIo
