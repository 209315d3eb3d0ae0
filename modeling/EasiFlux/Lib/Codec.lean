import Mathlib.Logic.Encodable.Basic
import Mathlib.Logic.Equiv.List
import Mathlib.Logic.Relation
import EasiFlux.Lib.Files

/-!
# Texts of records

`Texts α` writes records as bytes and reads bytes as records. It refuses a text
that is cut short. A record need not be read back as it was written (`Exact`);
`Reads a b` says that `b` is what is left of `a` after it was written and read some
times.

A `Codec α wire` does read records back; it refuses the text of a record that fails
`wire`, the check its reader makes. Nothing is said about bytes that no record was
written as: a reader may accept other spellings.

`decode_take` is what is read from a write that may be torn. `Texts.ofTable` and
`Codec.ofTable` have the texts of given records.
-/

namespace CrashIo

structure Texts (α : Type) where
  encode : α → Bytes
  decode : Bytes → Option α
  /-- the text of a record is refused when its end is missing -/
  decode_torn : ∀ a k, k < (encode a).length → decode ((encode a).take k) = none

namespace Texts

variable {α : Type} (T : Texts α)

/-- The text of `a` is read as `a`, or refused. -/
def Exact (a : α) : Prop := ∀ b, T.decode (T.encode a) = some b → b = a

def Reads : α → α → Prop := Relation.ReflTransGen fun a b => T.decode (T.encode a) = some b

variable {T} {a b : α}

theorem Reads.eq_of_exact (h : T.Reads a b) (ha : T.Exact a) : b = a := by
  induction h with
  | refl => rfl
  | tail _ hread ih => exact ha _ (ih ▸ hread)

/-- What every reading keeps. -/
theorem Reads.keeps {β : Type} {f : α → β} (hf : ∀ a b, T.decode (T.encode a) = some b → f b = f a)
    (h : T.Reads a b) : f b = f a := by
  induction h with
  | refl => rfl
  | tail _ hread ih => exact (hf _ _ hread).trans ih

theorem decode_take (a : α) (k : ℕ) :
    T.decode ((T.encode a).take k) = none ∨ T.decode ((T.encode a).take k) = T.decode (T.encode a) := by
  by_cases hk : k < (T.encode a).length
  · exact .inl (T.decode_torn a k hk)
  · exact .inr (by rw [List.take_of_length_le (not_lt.1 hk)])

end Texts

/-! ## Tables -/

section Rows

variable {α : Type} {rows : List (α × Bytes)} {r : α × Bytes}

theorem mem_of_lookup [DecidableEq α] {a : α} {t : Bytes} (h : rows.lookup a = some t) : (a, t) ∈ rows := by
  obtain ⟨l, m, hrows, -⟩ := List.lookup_eq_some_iff.1 h
  rw [hrows]
  simp

/-- No text begins another. -/
def Apart (rows : List (α × Bytes)) : Prop := ∀ r ∈ rows, ∀ s ∈ rows, r.2 <+: s.2 → r = s

instance [DecidableEq α] : Decidable (Apart rows) := inferInstanceAs (Decidable (∀ r ∈ rows, ∀ s ∈ rows, r.2 <+: s.2 → r = s))

/-- The row found is the only one with this text. -/
theorem Apart.find (h : Apart rows) (hr : r ∈ rows) : rows.find? (·.2 = r.2) = some r := by
  cases hfind : rows.find? (·.2 = r.2) with
  | none => exact absurd (decide_eq_true rfl) (List.find?_eq_none.1 hfind r hr)
  | some s =>
    have hfound := List.find?_some hfind
    have hs : s.2 = r.2 := of_decide_eq_true hfound
    rw [h s (List.mem_of_find?_eq_some hfind) r hr (hs ▸ List.prefix_rfl)]

/-- A row found would begin the row that was written. -/
theorem Apart.find_torn (h : Apart rows) (hr : r ∈ rows) {k : ℕ} (hk : k < r.2.length) : rows.find? (·.2 = r.2.take k) = none := by
  refine List.find?_eq_none.2 fun s hs heq => ?_
  have heq : s.2 = r.2.take k := of_decide_eq_true heq
  obtain rfl := h s hs r hr (heq ▸ List.take_prefix k r.2)
  have hlen := congrArg List.length heq
  rw [List.length_take] at hlen
  omega

end Rows

namespace Texts

variable {α : Type} [DecidableEq α] {rows : List (α × Bytes)}

/-- The texts of a table, none of which begins another. A record that is not there is
written as nothing. -/
def ofTable (rows : List (α × Bytes)) (h : Apart rows) : Texts α where
  encode a := (rows.lookup a).getD []
  decode b := (rows.find? (·.2 = b)).map Prod.fst
  decode_torn := by
    intro a k hk
    cases hrow : rows.lookup a with
    | none => simp [hrow] at hk
    | some t =>
      rw [hrow, Option.getD_some] at hk
      rw [Option.getD_some, h.find_torn (mem_of_lookup hrow) hk, Option.map_none]

theorem ofTable_exact (h : Apart rows) (hne : ∀ r ∈ rows, r.2 ≠ []) (a : α) : (ofTable rows h).Exact a := by
  intro b hb
  cases hrow : rows.lookup a with
  | none =>
    obtain ⟨r, hr, rfl⟩ := Option.map_eq_some_iff.1 hb
    have hfound := List.find?_some hr
    have htext : r.2 = (rows.lookup a).getD [] := of_decide_eq_true hfound
    rw [hrow] at htext
    exact absurd htext (hne r (List.mem_of_find?_eq_some hr))
  | some t =>
    have hdecode : (rows.find? (·.2 = (rows.lookup a).getD [])).map Prod.fst = some b := hb
    rw [hrow, Option.getD_some, h.find (mem_of_lookup hrow)] at hdecode
    exact (Option.some.inj hdecode).symm

end Texts

/-! ## Codecs -/

structure Codec (α : Type) (wire : α → Bool) extends Texts α where
  decode_encode : ∀ a, decode (encode a) = if wire a then some a else none

namespace Codec

variable {α : Type} {wire : α → Bool} (C : Codec α wire)

theorem decode_of_wire {a : α} (h : wire a = true) : C.decode (C.encode a) = some a := by
  rw [C.decode_encode, if_pos h]

/-- What is read from a text that may be cut short. -/
theorem decode_take (a : α) (k : ℕ) :
    C.decode ((C.encode a).take k) = none ∨ C.decode ((C.encode a).take k) = some a := by
  rcases C.toTexts.decode_take a k with h | h
  · exact Or.inl h
  · rw [h, C.decode_encode]
    split
    · exact Or.inr rfl
    · exact Or.inl rfl

instance : Countable Char :=
  Function.Injective.countable (f := Char.toNat) fun _ _ h => Char.toNat_inj.1 h

instance : Countable String :=
  Function.Injective.countable (f := String.toList) fun _ _ h => String.toList_inj.1 h

end Codec

/-- The code of a record in unary, between braces. -/
def brace (n : ℕ) : Bytes := 123 :: (List.replicate n 49 ++ [125])

theorem brace_injective {m n : ℕ} (h : brace m = brace n) : m = n := by
  simpa [brace] using congrArg List.length h

/-- The closing brace is the end. -/
theorem brace_ne_take {m n k : ℕ} (hk : k < (brace m).length) : (brace m).take k ≠ brace n := by
  intro h
  have hmem : (125 : UInt8) ∈ (brace m).take k := by rw [h]; simp [brace]
  rw [brace, List.length_cons, List.length_append, List.length_replicate, List.length_singleton] at hk
  cases k with
  | zero => simp at hmem
  | succ k =>
    rw [brace, List.take_succ_cons, List.take_append_of_le_length (by rw [List.length_replicate]; omega), List.take_replicate] at hmem
    rcases List.mem_cons.1 hmem with h | h
    · exact absurd h (by decide)
    · exact absurd (List.eq_of_mem_replicate h) (by decide)

/-- Texts none of which begins another, and whose second byte no code between braces has. -/
structure TextTable {α : Type} (rows : List (α × Bytes)) : Prop where
  second : ∀ r ∈ rows, ∃ b ∈ r.2[1]?, b ≠ 49 ∧ b ≠ 125
  apart : Apart rows

theorem brace_second {n : ℕ} {b : UInt8} (h : b ∈ (brace n)[1]?) : b = 49 ∨ b = 125 := by
  cases n with
  | zero => exact .inr (Option.some.inj h).symm
  | succ n =>
    rw [brace, List.replicate_succ] at h
    exact .inl (Option.some.inj h).symm

namespace TextTable

variable {α : Type} {rows : List (α × Bytes)} {r : α × Bytes}

/-- A code between braces begins no text of the table, and is begun by none. -/
theorem ne_brace (h : TextTable rows) (hr : r ∈ rows) (k n : ℕ) : r.2.take k ≠ brace n ∧ (brace n).take k ≠ r.2 := by
  obtain ⟨b, hb, h49, h125⟩ := h.second r hr
  have hno : ¬ b ∈ (brace n)[1]? := fun hmem => (brace_second hmem).elim h49 h125
  constructor
  · intro hk
    have hlen := congrArg List.length hk
    rw [brace, List.length_cons, List.length_append, List.length_singleton, List.length_take] at hlen
    rw [← hk, List.getElem?_take_of_lt (by omega)] at hno
    exact hno hb
  · intro hk
    rw [← hk] at hb
    have htwo : 1 < k := by
      by_contra hle
      rw [List.getElem?_eq_none (by rw [List.length_take]; omega)] at hb
      cases hb
    rw [List.getElem?_take_of_lt htwo] at hb
    exact hno hb

theorem find_brace (h : TextTable rows) (n k : ℕ) : rows.find? (·.2 = (brace n).take k) = none :=
  List.find?_eq_none.2 fun _ hs heq => (h.ne_brace hs k n).2 (of_decide_eq_true heq).symm

end TextTable

namespace Codec

variable {α : Type} {wire : α → Bool}

open Classical in
/-- Some codec exists for every countable type: like an object in JSON a record is
between braces, and anything else is no record. -/
noncomputable def unary (α : Type) [Encodable α] (wire : α → Bool) : Codec α wire where
  encode a := brace (Encodable.encode a)
  decode b := if h : ∃ a, wire a ∧ b = brace (Encodable.encode a) then some h.choose else none
  decode_encode := by
    intro a
    by_cases hw : wire a = true
    · have h : ∃ a', wire a' ∧ brace (Encodable.encode a) = brace (Encodable.encode a') := ⟨a, hw, rfl⟩
      rw [dif_pos h, if_pos hw, Option.some.injEq]
      exact (Encodable.encode_injective (brace_injective h.choose_spec.2)).symm
    · rw [dif_neg, if_neg hw]
      rintro ⟨a', hw', he⟩
      rw [Encodable.encode_injective (brace_injective he)] at hw
      exact hw hw'
  decode_torn := by
    intro a k hk
    rw [dif_neg]
    rintro ⟨a', -, he⟩
    exact brace_ne_take hk he

theorem unary_decode [Encodable α] {b : Bytes} (hb : ∀ n, b ≠ brace n) : (unary α wire).decode b = none := by
  unfold unary
  dsimp only
  rw [dif_neg]
  rintro ⟨a, -, ha⟩
  exact hb _ ha

/-- The records of a table with their texts; any other is a code between braces. -/
noncomputable def ofTable [DecidableEq α] [Encodable α] (wire : α → Bool) (rows : List (α × Bytes)) (h : TextTable rows) :
    Codec α wire where
  encode a := (rows.lookup a).getD ((unary α wire).encode a)
  decode b := match rows.find? (·.2 = b) with
    | some r => if wire r.1 then some r.1 else none
    | none => (unary α wire).decode b
  decode_encode := by
    intro a
    cases hrow : rows.lookup a with
    | none =>
      have hfind := h.find_brace (Encodable.encode a) (brace (Encodable.encode a)).length
      rw [List.take_length] at hfind
      rw [Option.getD_none, show (unary α wire).encode a = brace (Encodable.encode a) from rfl, hfind]
      exact (unary α wire).decode_encode a
    | some t => rw [Option.getD_some, h.apart.find (r := (a, t)) (mem_of_lookup hrow)]
  decode_torn := by
    intro a k hk
    cases hrow : rows.lookup a with
    | none =>
      rw [hrow] at hk
      rw [Option.getD_none, show (unary α wire).encode a = brace (Encodable.encode a) from rfl, h.find_brace]
      exact (unary α wire).decode_torn a k hk
    | some t =>
      have hmem : (a, t) ∈ rows := mem_of_lookup hrow
      rw [hrow, Option.getD_some] at hk
      rw [Option.getD_some, h.apart.find_torn hmem hk]
      exact unary_decode fun n => (h.ne_brace hmem k n).1

end Codec

end CrashIo
