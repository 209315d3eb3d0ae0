import Mathlib.Logic.Encodable.Basic
import EasiFlux.Lib.Codec

/-!
# Files of lines

A log file holds one record a line and is appended to. `lines` reads it as Rust's
`BufRead::lines` does: a last line without its newline is a line too. So what is
appended starts a new line only if the file ends one (`Terminated`), and then
`lines_append` reads the old and the new lines apart.

A `LineCodec` writes a record as a line and says what a line reads as; a line that is
cut short is never a record.
-/

namespace CrashIo

def newline : UInt8 := 10

/-- The lines of a text, of which `acc` has been read of the first one, backwards. -/
def linesFrom : Bytes → Bytes → List Bytes
  | acc, [] => if acc = [] then [] else [acc.reverse]
  | acc, b :: rest => if b = newline then acc.reverse :: linesFrom [] rest else linesFrom (b :: acc) rest

def lines (text : Bytes) : List Bytes := linesFrom [] text

/-- The text is empty or ends a line. -/
def Terminated (text : Bytes) : Prop := ∀ b ∈ text.getLast?, b = newline

instance (text : Bytes) : Decidable (Terminated text) := inferInstanceAs (Decidable (∀ b ∈ text.getLast?, b = newline))

@[simp] theorem lines_nil : lines [] = [] := rfl

theorem linesFrom_line {x : Bytes} (hx : newline ∉ x) (acc y : Bytes) :
    linesFrom acc (x ++ newline :: y) = (acc.reverse ++ x) :: lines y := by
  induction x generalizing acc with
  | nil => simp [linesFrom, lines]
  | cons b x ih =>
    have hb : b ≠ newline := fun h => hx (h ▸ List.mem_cons_self)
    rw [List.cons_append, linesFrom, if_neg hb, ih (fun h => hx (List.mem_cons_of_mem _ h))]
    simp

/-- A line and what comes after it. -/
theorem lines_line {x : Bytes} (hx : newline ∉ x) (y : Bytes) : lines (x ++ newline :: y) = x :: lines y :=
  linesFrom_line hx [] y

theorem linesFrom_torn {x : Bytes} (hx : newline ∉ x) (acc : Bytes) :
    linesFrom acc x = if acc.reverse ++ x = [] then [] else [acc.reverse ++ x] := by
  induction x generalizing acc with
  | nil => simp [linesFrom]
  | cons b x ih =>
    have hb : b ≠ newline := fun h => hx (h ▸ List.mem_cons_self)
    rw [linesFrom, if_neg hb, ih (fun h => hx (List.mem_cons_of_mem _ h))]
    simp

/-- A line that is not ended. -/
theorem lines_torn {x : Bytes} (hx : newline ∉ x) : lines x = if x = [] then [] else [x] := linesFrom_torn hx []

theorem linesFrom_append {x : Bytes} (hx : Terminated x) (hne : x ≠ []) (acc y : Bytes) :
    linesFrom acc (x ++ y) = linesFrom acc x ++ lines y := by
  induction x generalizing acc with
  | nil => exact absurd rfl hne
  | cons b x ih =>
    have hlast : x ≠ [] → Terminated x := by
      intro hx' c hc
      refine hx c ?_
      rw [List.getLast?_cons]
      obtain ⟨d, hd⟩ := Option.isSome_iff_exists.1 (List.getLast?_isSome.2 hx')
      rw [hd] at hc ⊢
      exact hc
    by_cases hb : b = newline
    · rw [List.cons_append, linesFrom, if_pos hb, linesFrom, if_pos hb]
      by_cases hx' : x = []
      · subst hx'; simp [linesFrom, lines]
      · rw [ih (hlast hx') hx', List.cons_append]
    · rw [List.cons_append, linesFrom, if_neg hb, linesFrom, if_neg hb]
      by_cases hx' : x = []
      · -- the text is one byte that is no newline
        subst hx'
        exact absurd (hx b rfl) hb
      · exact ih (hlast hx') hx' _

/-- What is appended to a text that ends its last line is lines of its own. -/
theorem lines_append {x : Bytes} (hx : Terminated x) (y : Bytes) : lines (x ++ y) = lines x ++ lines y := by
  by_cases hne : x = []
  · subst hne; simp
  · exact linesFrom_append hx hne [] y

/-! ## Records on lines -/

/-- What a line reads as: bytes that are no text, blanks, a text that is no record, or
a record. -/
inductive Line (α : Type)
  | invalid
  | blank
  | corrupt
  | record (a : α)
  deriving DecidableEq, Repr

structure LineCodec (α : Type) where
  encode : α → Bytes
  decode : Bytes → Line α
  decode_encode : ∀ a, decode (encode a) = .record a
  decode_nil : decode [] = .blank
  newline_encode : ∀ a, newline ∉ encode a
  /-- the line of a record that is cut short is no record -/
  decode_torn : ∀ a b k, k < (encode a).length → decode ((encode a).take k) ≠ .record b

namespace LineCodec

variable {α : Type} (C : LineCodec α)

/-- The records, one a line. -/
def text (as : List α) : Bytes := as.flatMap fun a => C.encode a ++ [newline]

@[simp] theorem text_nil : C.text [] = [] := rfl

@[simp] theorem text_cons (a : α) (as : List α) : C.text (a :: as) = C.encode a ++ newline :: C.text as := by
  simp [text, List.flatMap_cons]

theorem encode_ne_nil (a : α) : C.encode a ≠ [] := by
  intro h
  have := C.decode_encode a
  rw [h, C.decode_nil] at this
  cases this

theorem lines_text_append (as : List α) (y : Bytes) : lines (C.text as ++ y) = as.map C.encode ++ lines y := by
  induction as with
  | nil => rfl
  | cons a as ih =>
    rw [text_cons, List.append_assoc, List.cons_append, lines_line (C.newline_encode a), ih]
    rfl

theorem lines_text (as : List α) : lines (C.text as) = as.map C.encode := by
  have h := C.lines_text_append as []
  rwa [List.append_nil, lines_nil, List.append_nil] at h

theorem text_eq_nil {as : List α} : C.text as = [] ↔ as = [] := by
  cases as with
  | nil => simp
  | cons a as => simp [C.encode_ne_nil a]

/-- The texts a write of records can stop at: some of them, and a part of the next
line, the newline not included. -/
theorem take_text (as : List α) (k : ℕ) : C.text as = (C.text as).take k ∨
    ∃ bs a cs j, as = bs ++ a :: cs ∧ j ≤ (C.encode a).length ∧ (C.text as).take k = C.text bs ++ (C.encode a).take j := by
  induction as generalizing k with
  | nil => exact .inl (by simp)
  | cons a as ih =>
    by_cases hk : k ≤ (C.encode a).length
    · refine .inr ⟨[], a, as, k, rfl, hk, ?_⟩
      rw [text_cons, List.take_append_of_le_length hk]
      rfl
    · obtain ⟨i, rfl⟩ : ∃ i, k = (C.encode a).length + 1 + i := ⟨k - (C.encode a).length - 1, by omega⟩
      have htake : (C.text (a :: as)).take ((C.encode a).length + 1 + i) = C.encode a ++ newline :: (C.text as).take i := by
        rw [text_cons, show (C.encode a).length + 1 + i = (C.encode a).length + (i + 1) by omega, List.take_length_add_append,
          List.take_succ_cons]
      rw [htake]
      rcases ih i with h | ⟨bs, b, cs, j, rfl, hj, h⟩
      · exact .inl (by rw [text_cons, ← h])
      · exact .inr ⟨a :: bs, b, cs, j, rfl, hj, by rw [h, text_cons, List.append_assoc, List.cons_append]⟩

/-! ### A codec -/

open Classical in
/-- Some codec exists for every countable type; like an object in JSON a record is
between braces, and anything else is no record. -/
noncomputable def braced (α : Type) [Encodable α] : LineCodec α where
  encode a := brace (Encodable.encode a)
  decode l :=
    if l = [] then .blank
    else if h : ∃ a : α, l = brace (Encodable.encode a) then .record h.choose
    else .corrupt
  decode_encode := by
    intro a
    have h : ∃ a' : α, brace (Encodable.encode a) = brace (Encodable.encode a') := ⟨a, rfl⟩
    rw [if_neg (by simp [brace]), dif_pos h]
    exact congrArg _ (Encodable.encode_injective (brace_injective h.choose_spec)).symm
  decode_nil := if_pos rfl
  newline_encode := by
    intro a h
    simp only [brace, newline, List.mem_cons, List.mem_append, List.mem_replicate, List.not_mem_nil, or_false] at h
    rcases h with h | ⟨-, h⟩ | h <;> exact absurd h (by decide)
  decode_torn := by
    intro a b k hk h
    split at h
    · cases h
    · split at h
      · rename_i hex
        exact brace_ne_take hk hex.choose_spec
      · cases h

/-- A line that is not a code between braces is no record. -/
theorem braced_decode_corrupt {α : Type} [Encodable α] {l : Bytes} (hne : l ≠ []) (hl : ∀ n, l ≠ brace n) :
    (braced α).decode l = .corrupt := by
  unfold braced
  simp only [if_neg hne]
  rw [dif_neg]
  rintro ⟨a, ha⟩
  exact hl _ ha

theorem braced_decode_record {α : Type} [Encodable α] {l : Bytes} {a : α} (h : (braced α).decode l = .record a) :
    ∃ n, l = brace n := by
  by_contra hl
  push Not at hl
  by_cases hne : l = []
  · rw [hne, (braced α).decode_nil] at h
    cases h
  · rw [braced_decode_corrupt hne hl] at h
    cases h

section Table

variable [DecidableEq α] [Encodable α] {rows : List (α × Bytes)}

/-- The records of a table with their lines; any other is a code between braces. -/
noncomputable def ofTable (rows : List (α × Bytes)) (h : TextTable rows) (hline : ∀ r ∈ rows, newline ∉ r.2) : LineCodec α where
  encode a := (rows.lookup a).getD ((braced α).encode a)
  decode l := match rows.find? (·.2 = l) with
    | some r => .record r.1
    | none => (braced α).decode l
  decode_encode := by
    intro a
    cases hrow : rows.lookup a with
    | none =>
      have hfind := h.find_brace (Encodable.encode a) (brace (Encodable.encode a)).length
      rw [List.take_length] at hfind
      rw [Option.getD_none, show (braced α).encode a = brace (Encodable.encode a) from rfl, hfind]
      exact (braced α).decode_encode a
    | some t => rw [Option.getD_some, h.apart.find (r := (a, t)) (mem_of_lookup hrow)]
  decode_nil := by
    have hfind : rows.find? (·.2 = []) = none := by
      refine List.find?_eq_none.2 fun r hr heq => ?_
      obtain ⟨b, hb, -⟩ := h.second r hr
      rw [of_decide_eq_true heq] at hb
      cases hb
    rw [hfind]
    exact (braced α).decode_nil
  newline_encode := by
    intro a
    cases hrow : rows.lookup a with
    | none => exact (braced α).newline_encode a
    | some t => exact hline _ (mem_of_lookup hrow)
  decode_torn := by
    intro a b k hk
    cases hrow : rows.lookup a with
    | none =>
      rw [hrow] at hk
      rw [Option.getD_none, show (braced α).encode a = brace (Encodable.encode a) from rfl, h.find_brace]
      exact (braced α).decode_torn a b k hk
    | some t =>
      have hmem : (a, t) ∈ rows := mem_of_lookup hrow
      rw [hrow, Option.getD_some] at hk
      rw [Option.getD_some, h.apart.find_torn hmem hk]
      intro hdec
      obtain ⟨n, hn⟩ := braced_decode_record hdec
      exact (h.ne_brace hmem k n).1 hn

variable {l : Bytes} {h : TextTable rows} {hline : ∀ r ∈ rows, newline ∉ r.2}

theorem ofTable_decode (hl : ∀ r ∈ rows, r.2 ≠ l) : (ofTable rows h hline).decode l = (braced α).decode l := by
  have hfind : rows.find? (·.2 = l) = none := List.find?_eq_none.2 fun r hr heq => hl r hr (of_decide_eq_true heq)
  unfold ofTable
  dsimp only
  rw [hfind]

theorem ofTable_ne_invalid (l : Bytes) : (ofTable rows h hline).decode l ≠ .invalid := by
  unfold ofTable
  dsimp only
  cases rows.find? (·.2 = l) with
  | some r => exact nofun
  | none =>
    unfold braced
    dsimp only
    split_ifs <;> exact nofun

end Table

end LineCodec

end CrashIo
