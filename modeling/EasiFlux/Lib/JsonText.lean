import Mathlib.Tactic
import EasiFlux.Lib.DigitStrings
import EasiFlux.Lib.Hex

/-!
# JSON texts

Values, the compact printer and a reader as `serde_json` has them: an object keeps its members in
their order, also two of one name; an integer of 64 bits is a number of its own kind, any other
number keeps its literal; arrays and objects may be nested 127 deep. Texts are lists of characters.

* `Written.read`: a value of integers, strings and the like is read back, however it is spaced.
* `Plain.written`: so is what the printer writes.
-/

namespace JsonText

open Hex (hexDigit hexValue hexValue_hexDigit)

inductive Json
  | null
  | bool (value : Bool)
  | int (value : ℤ)
  | real (literal : List Char)
  | string (text : List Char)
  | array (elements : List Json)
  | object (members : List (List Char × Json))

/-! ## Characters -/

def quote : Char := Char.ofNat 34

def backslash : Char := Char.ofNat 92

def openBrace : Char := Char.ofNat 123

def closeBrace : Char := Char.ofNat 125

def isSpace (c : Char) : Bool := c = ' ' || c.toNat = 10 || c.toNat = 13 || c.toNat = 9

def skipSpace (cs : List Char) : List Char := cs.dropWhile isSpace

/-! ## Printing -/

/-- The escapes of one letter: the character and the letter. -/
def shortEscapes : List (Char × Char) :=
  [(quote, quote), (backslash, backslash), (Char.ofNat 8, 'b'), (Char.ofNat 12, 'f'), (Char.ofNat 10, 'n'),
    (Char.ofNat 13, 'r'), (Char.ofNat 9, 't')]

def printChar (c : Char) : List Char :=
  match shortEscapes.lookup c with
  | some letter => [backslash, letter]
  | none =>
    if c.toNat < 32 then [backslash, 'u', '0', '0', hexDigit (c.toNat / 16), hexDigit (c.toNat % 16)] else [c]

def printString (text : List Char) : List Char := quote :: (text.flatMap printChar ++ [quote])

def printInt (n : ℤ) : List Char :=
  if n < 0 then '-' :: Nat.toDigits 10 n.natAbs else Nat.toDigits 10 n.natAbs

mutual

def print : Json → List Char
  | .null => "null".toList
  | .bool true => "true".toList
  | .bool false => "false".toList
  | .int value => printInt value
  | .real literal => literal
  | .string text => printString text
  | .array elements => '[' :: (printElements elements ++ [']'])
  | .object members => openBrace :: (printMembers members ++ [closeBrace])

def printElements : List Json → List Char
  | [] => []
  | [v] => print v
  | v :: vs => print v ++ ',' :: printElements vs

def printMembers : List (List Char × Json) → List Char
  | [] => []
  | [(name, v)] => printString name ++ ':' :: print v
  | (name, v) :: ms => printString name ++ ':' :: (print v ++ ',' :: printMembers ms)

end

/-! ## Reading -/

/-- Four hex digits. -/
def readUnit : List Char → Option (ℕ × List Char)
  | a :: b :: c :: d :: rest => do
    let a ← hexValue a
    let b ← hexValue b
    let c ← hexValue c
    let d ← hexValue d
    some (a * 4096 + b * 256 + c * 16 + d, rest)
  | _ => none

/-- The character after `\u`: a unit of UTF-16, or two of them. -/
def readUnicode (cs : List Char) : Option (Char × List Char) := do
  let (unit, rest) ← readUnit cs
  if 0xDC00 ≤ unit ∧ unit < 0xE000 then none
  else if 0xD800 ≤ unit ∧ unit < 0xDC00 then
    match rest with
    | c :: d :: rest =>
      if c = backslash ∧ d = 'u' then do
        let (low, rest) ← readUnit rest
        if 0xDC00 ≤ low ∧ low < 0xE000 then
          some (Char.ofNat (0x10000 + (unit - 0xD800) * 1024 + (low - 0xDC00)), rest)
        else none
      else none
    | _ => none
  else some (Char.ofNat unit, rest)

/-- The rest of a string, and what follows it. -/
def readString : ℕ → List Char → Option (List Char × List Char)
  | 0, _ => none
  | _, [] => none
  | fuel + 1, c :: rest =>
    if c = quote then some ([], rest)
    else if c = backslash then
      match rest with
      | [] => none
      | letter :: rest =>
        if letter = 'u' then do
          let (decoded, rest) ← readUnicode rest
          let (text, rest) ← readString fuel rest
          some (decoded :: text, rest)
        else do
          let decoded ← if letter = '/' then some '/' else (shortEscapes.find? (·.2 = letter)).map (·.1)
          let (text, rest) ← readString fuel rest
          some (decoded :: text, rest)
    else if c.toNat < 32 then none
    else do
      let (text, rest) ← readString fuel rest
      some (c :: text, rest)

/-- A number of digits and what follows. -/
def readDigits (cs : List Char) : Option (List Char × List Char) :=
  if cs.takeWhile Char.isDigit = [] then none else some (cs.takeWhile Char.isDigit, cs.dropWhile Char.isDigit)

def readFraction : List Char → Option (List Char × List Char)
  | '.' :: rest => readDigits rest
  | rest => some ([], rest)

/-- The exponent, with its sign. -/
def readExponent : List Char → Option (ℤ × List Char)
  | [] => some (0, [])
  | c :: rest =>
    if c = 'e' ∨ c = 'E' then
      match rest with
      | '-' :: rest => (readDigits rest).map fun (ds, rest) => (-(DigitStrings.num ds : ℤ), rest)
      | '+' :: rest => (readDigits rest).map fun (ds, rest) => ((DigitStrings.num ds : ℤ), rest)
      | rest => (readDigits rest).map fun (ds, rest) => ((DigitStrings.num ds : ℤ), rest)
    else some (0, c :: rest)

/-- `mantissa * 10 ^ exponent` rounds to an infinite `f64`. -/
def overflows (mantissa : ℕ) (exponent : ℤ) : Bool :=
  if exponent < 0 then (2 ^ 1024 - 2 ^ 970) * 10 ^ exponent.natAbs ≤ mantissa
  else 2 ^ 1024 - 2 ^ 970 ≤ mantissa * 10 ^ exponent.natAbs

/-- The integers that are not read as floating-point numbers: those of `u64` and `i64`. -/
def fitsInt (n : ℤ) : Bool := -2 ^ 63 ≤ n && n < 2 ^ 64

def readNumber (cs : List Char) : Option (Json × List Char) := do
  let negative := cs.head? = some '-'
  let (whole, rest) ← readDigits (if negative then cs.tail else cs)
  if 1 < whole.length ∧ whole.head? = some '0' then none
  else do
    let (fraction, tail) ← readFraction rest
    let (exponent, tail) ← readExponent tail
    let value : ℤ := if negative then -(DigitStrings.num whole : ℤ) else DigitStrings.num whole
    if tail.length = rest.length ∧ fitsInt value ∧ (negative → value ≠ 0) then some (.int value, tail)
    else if overflows (DigitStrings.num (whole ++ fraction)) (exponent - fraction.length) then none
    else some (.real (cs.take (cs.length - tail.length)), tail)

/-- A fixed word. -/
def readWord (word : String) (value : Json) (cs : List Char) : Option (Json × List Char) :=
  if word.toList.isPrefixOf cs then some (value, cs.drop word.length) else none

mutual

/-- A value at the start of the text, with `depth` levels left, and what follows it. -/
def readValue : ℕ → ℕ → List Char → Option (Json × List Char)
  | 0, _, _ => none
  | fuel + 1, depth, cs =>
    match skipSpace cs with
    | [] => none
    | c :: rest =>
      if c = quote then (readString (rest.length + 1) rest).map fun (text, rest) => (.string text, rest)
      else if c = '[' then
        match depth with
        | 0 => none
        | depth + 1 =>
          if (skipSpace rest).head? = some ']' then some (.array [], (skipSpace rest).tail)
          else (readElements fuel depth rest).map fun (vs, rest) => (.array vs, rest)
      else if c = openBrace then
        match depth with
        | 0 => none
        | depth + 1 =>
          if (skipSpace rest).head? = some closeBrace then some (.object [], (skipSpace rest).tail)
          else (readMembers fuel depth rest).map fun (ms, rest) => (.object ms, rest)
      else if c = 'n' then readWord "null" .null (c :: rest)
      else if c = 't' then readWord "true" (.bool true) (c :: rest)
      else if c = 'f' then readWord "false" (.bool false) (c :: rest)
      else readNumber (c :: rest)

/-- The elements of an array that has some, to its end. -/
def readElements : ℕ → ℕ → List Char → Option (List Json × List Char)
  | 0, _, _ => none
  | fuel + 1, depth, cs =>
    match readValue fuel depth cs with
    | none => none
    | some (v, rest) =>
      match skipSpace rest with
      | [] => none
      | c :: rest =>
        if c = ',' then (readElements fuel depth rest).map fun (vs, rest) => (v :: vs, rest)
        else if c = ']' then some ([v], rest)
        else none

/-- The members of an object that has some, to its end. -/
def readMembers : ℕ → ℕ → List Char → Option (List (List Char × Json) × List Char)
  | 0, _, _ => none
  | fuel + 1, depth, cs =>
    match skipSpace cs with
    | [] => none
    | c :: rest =>
      if c = quote then
        match readString (rest.length + 1) rest with
        | none => none
        | some (name, rest) =>
          match skipSpace rest with
          | [] => none
          | c :: rest =>
            if c = ':' then
              match readValue fuel depth rest with
              | none => none
              | some (v, rest) =>
                match skipSpace rest with
                | [] => none
                | c :: rest =>
                  if c = ',' then (readMembers fuel depth rest).map fun (ms, rest) => ((name, v) :: ms, rest)
                  else if c = closeBrace then some ([(name, v)], rest)
                  else none
            else none
      else none

end

/-- The levels a text may be nested. -/
def maxDepth : ℕ := 127

/-- A text that is one value. -/
def read (cs : List Char) : Option Json :=
  match readValue (cs.length + 1) maxDepth cs with
  | some (v, rest) => if skipSpace rest = [] then some v else none
  | none => none

/-! ## Round trips -/

open DigitStrings

section Characters

variable {c letter : Char}

theorem shortEscapes_spec :
    ∀ p ∈ shortEscapes, p.2 ≠ 'u' ∧ p.2 ≠ '/' ∧ shortEscapes.find? (·.2 = p.2) = some p := by decide

theorem mem_of_lookup (h : shortEscapes.lookup c = some letter) : (c, letter) ∈ shortEscapes := by
  obtain ⟨l₁, l₂, hl, -⟩ := List.lookup_eq_some_iff.1 h
  rw [hl]
  simp

theorem readUnit_hexDigits {n : ℕ} (h : n < 256) (rest : List Char) :
    readUnit ('0' :: '0' :: hexDigit (n / 16) :: hexDigit (n % 16) :: rest) = some (n, rest) := by
  have hzero : hexValue '0' = some 0 := by decide
  have hhigh := hexValue_hexDigit (n / 16) (by omega)
  have hlow := hexValue_hexDigit (n % 16) (by omega)
  simp only [readUnit, hzero, hhigh, hlow, Option.bind_eq_bind, Option.bind_some]
  congr 2
  omega

theorem readUnicode_hexDigits (h : c.toNat < 32) (rest : List Char) :
    readUnicode ('0' :: '0' :: hexDigit (c.toNat / 16) :: hexDigit (c.toNat % 16) :: rest) = some (c, rest) := by
  have hlow : ¬(0xDC00 ≤ c.toNat ∧ c.toNat < 0xE000) := by omega
  have hhigh : ¬(0xD800 ≤ c.toNat ∧ c.toNat < 0xDC00) := by omega
  simp only [readUnicode, readUnit_hexDigits (show c.toNat < 256 by omega), Option.bind_eq_bind, Option.bind_some,
    if_neg hlow, if_neg hhigh, Char.ofNat_toNat]

/-- A character is read back from what is printed for it. -/
theorem readString_printChar (c : Char) (fuel : ℕ) (rest : List Char) : readString (fuel + 1) (printChar c ++ rest) =
    (readString fuel rest).map fun p => (c :: p.1, p.2) := by
  have hback : backslash ≠ quote := by decide
  unfold printChar
  cases hlookup : shortEscapes.lookup c with
  | some letter =>
    obtain ⟨hu, hslash, hfind⟩ := shortEscapes_spec _ (mem_of_lookup hlookup)
    dsimp only at hu hslash hfind
    simp only [List.cons_append, List.nil_append, readString, if_neg hback, if_pos, if_neg hu, if_neg hslash, hfind]
    cases readString fuel rest <;> rfl
  | none =>
    have hquote : c ≠ quote := by
      rintro rfl
      exact absurd hlookup (by decide)
    have hslash : c ≠ backslash := by
      rintro rfl
      exact absurd hlookup (by decide)
    by_cases hsmall : c.toNat < 32
    · simp only [if_pos hsmall, List.cons_append, List.nil_append, readString, if_neg hback, if_pos,
        readUnicode_hexDigits hsmall, Option.bind_eq_bind, Option.bind_some]
      cases readString fuel rest <;> rfl
    · simp only [if_neg hsmall, List.cons_append, List.nil_append, readString, if_neg hquote, if_neg hslash]
      cases readString fuel rest <;> rfl

theorem readString_print (text : List Char) (fuel : ℕ) (h : text.length < fuel) (rest : List Char) :
    readString fuel (text.flatMap printChar ++ quote :: rest) = some (text, rest) := by
  induction text generalizing fuel with
  | nil =>
    obtain ⟨fuel, rfl⟩ : ∃ n, fuel = n + 1 := ⟨fuel - 1, by simp at h; omega⟩
    simp [readString]
  | cons c text ih =>
    obtain ⟨fuel, rfl⟩ : ∃ n, fuel = n + 1 := ⟨fuel - 1, by simp at h; omega⟩
    have hshort : text.length < fuel := by simpa using h
    rw [List.flatMap_cons, List.append_assoc, readString_printChar, ih fuel hshort]
    rfl

theorem length_le_flatMap (text : List Char) : text.length ≤ (text.flatMap printChar).length := by
  have hone : ∀ c, 1 ≤ (printChar c).length := by
    intro c
    unfold printChar
    split
    · simp
    · split <;> simp
  induction text with
  | nil => simp
  | cons c text ih =>
    have := hone c
    simp only [List.flatMap_cons, List.length_append, List.length_cons]
    omega

end Characters

section Numbers

variable {rest : List Char}

/-- Nothing that could go on with a number. -/
def Follows (rest : List Char) : Prop := ∀ c, rest.head? = some c → c.isDigit = false ∧ c ≠ '.' ∧ c ≠ 'e' ∧ c ≠ 'E'

theorem Follows.nil : Follows [] := fun _ h => by simp at h

theorem Follows.cons {c : Char} (h : c = ',' ∨ c = ']' ∨ c = closeBrace) (rest : List Char) : Follows (c :: rest) := by
  intro d hd
  obtain rfl : c = d := by simpa using hd
  rcases h with rfl | rfl | rfl <;> decide

theorem readDigits_append {ds : List Char} (hds : Digits ds) (hne : ds ≠ [])
    (hrest : ∀ c, rest.head? = some c → c.isDigit = false) : readDigits (ds ++ rest) = some (ds, rest) := by
  have hstop : rest.takeWhile Char.isDigit = [] ∧ rest.dropWhile Char.isDigit = rest := by
    cases rest with
    | nil => exact ⟨rfl, rfl⟩
    | cons c rest =>
      have hc : c.isDigit = false := hrest c rfl
      simp [hc]
  have htake : (ds ++ rest).takeWhile Char.isDigit = ds := by
    rw [List.takeWhile_append_of_pos hds, hstop.1, List.append_nil]
  have hdrop : (ds ++ rest).dropWhile Char.isDigit = rest := by
    rw [List.dropWhile_append_of_pos hds, hstop.2]
  rw [readDigits, htake, hdrop, if_neg hne]

theorem digits_toDigits (n : ℕ) : Digits (Nat.toDigits 10 n) := fun _ hc =>
  Nat.isDigit_of_mem_toDigits (by decide) (by decide) hc

/-- A number is written without leading zeros. -/
theorem toDigits_head (n : ℕ) : ¬(1 < (Nat.toDigits 10 n).length ∧ (Nat.toDigits 10 n).head? = some '0') := by
  rintro ⟨hlen, hhead⟩
  obtain ⟨ds, hds⟩ : ∃ ds, Nat.toDigits 10 n = '0' :: ds := by
    cases hn : Nat.toDigits 10 n with
    | nil => rw [hn] at hlen; simp at hlen
    | cons c ds =>
      rw [hn] at hhead
      obtain rfl : c = '0' := by simpa using hhead
      exact ⟨ds, rfl⟩
  have hpos : 0 < ds.length := by rw [hds] at hlen; simpa using hlen
  have hvalue : num (Nat.toDigits 10 n) = n := Nat.ofDigitChars_ten_toDigits
  have hsmall : n < 10 ^ ds.length := by
    have hdigits : Digits ds := ((hds ▸ digits_toDigits n : Digits ('0' :: ds))).of_cons.2
    have hzero : digit '0' = 0 := by decide
    have := num_lt hdigits
    rw [hds, num_cons, hzero] at hvalue
    omega
  have hshort := (Nat.length_toDigits_le_iff (by decide) hpos).2 hsmall
  rw [hds, List.length_cons] at hshort
  omega

theorem readFraction_none (h : Follows rest) : readFraction rest = some ([], rest) := by
  unfold readFraction
  split
  · exact absurd rfl (h '.' rfl).2.1
  · rfl

theorem readExponent_none (h : Follows rest) : readExponent rest = some (0, rest) := by
  cases rest with
  | nil => rfl
  | cons c rest =>
    have hc : ¬(c = 'e' ∨ c = 'E') := not_or.2 (h c rfl).2.2
    unfold readExponent
    dsimp only
    rw [if_neg hc]

theorem head_toDigits (n : ℕ) : ∃ c ds, Nat.toDigits 10 n = c :: ds ∧ c.isDigit = true := by
  cases hn : Nat.toDigits 10 n with
  | nil => exact absurd hn Nat.toDigits_ne_nil
  | cons c ds => exact ⟨c, ds, rfl, digits_toDigits n c (hn ▸ List.mem_cons_self)⟩

/-- An integer is read back, up to where it cannot go on. -/
theorem readNumber_printInt {n : ℤ} (hn : fitsInt n = true) (hrest : Follows rest) :
    readNumber (printInt n ++ rest) = some (.int n, rest) := by
  have hread := readDigits_append (digits_toDigits n.natAbs) Nat.toDigits_ne_nil fun c hc => (hrest c hc).1
  have hvalue : num (Nat.toDigits 10 n.natAbs) = n.natAbs := Nat.ofDigitChars_ten_toDigits
  have hminus : '-'.isDigit = false := by decide
  by_cases hneg : n < 0
  · have hint : -((n.natAbs : ℕ) : ℤ) = n := by omega
    have hne : n ≠ 0 := by omega
    simp only [readNumber, printInt, if_pos hneg, List.cons_append, List.head?_cons, List.tail_cons, hread,
      Option.bind_eq_bind, Option.bind_some, if_neg (toDigits_head _), readFraction_none hrest, readExponent_none hrest,
      hvalue, hint, hn, if_true]
    simp [hne]
  · have hint : ((n.natAbs : ℕ) : ℤ) = n := by omega
    obtain ⟨c, ds, hc, hdigit⟩ := head_toDigits n.natAbs
    have hhead : (Nat.toDigits 10 n.natAbs ++ rest).head? ≠ some '-' := by
      rw [hc]
      simp only [List.cons_append, List.head?_cons]
      intro h
      obtain rfl : c = '-' := by simpa using h
      simp [hminus] at hdigit
    simp only [readNumber, printInt, if_neg hneg, hhead, if_false, hread,
      Option.bind_eq_bind, Option.bind_some, if_neg (toDigits_head _), readFraction_none hrest, readExponent_none hrest,
      hvalue, hint, hn]
    simp

end Numbers

/-! ## Spellings -/

/-- Only white space. -/
def Blank (sp : List Char) : Prop := ∀ c ∈ sp, isSpace c = true

/-- Texts with commas between them. -/
def commaList : List (List Char) → List Char
  | [] => []
  | [t] => t
  | t :: ts => t ++ ',' :: commaList ts

/-- A member and how it is written: what stands before its name and between the name and the colon, and its value. -/
structure Spelled where
  before : List Char
  name : List Char
  between : List Char
  value : Json
  text : List Char

def Spelled.member (m : Spelled) : List Char × Json := (m.name, m.value)

def Spelled.spelling (m : Spelled) : List Char := m.before ++ (printString m.name ++ (m.between ++ ':' :: m.text))

/-- The ways to write a value with any white space between its parts. Integers are those of 64 bits, there are no other
numbers, and the value is nested `depth` deep at most. -/
inductive Written : ℕ → Json → List Char → Prop
  | null (depth : ℕ) : Written depth .null "null".toList
  | bool (depth : ℕ) (value : Bool) : Written depth (.bool value) (print (.bool value))
  | int (depth : ℕ) {value : ℤ} (fits : fitsInt value = true) : Written depth (.int value) (printInt value)
  | string (depth : ℕ) (text : List Char) : Written depth (.string text) (printString text)
  | array {depth : ℕ} {sp : List Char} {es : List (Json × List Char)} (blank : Blank sp)
      (elements : ∀ e ∈ es, Written depth e.1 e.2) :
      Written (depth + 1) (.array (es.map Prod.fst)) ('[' :: (sp ++ (commaList (es.map Prod.snd) ++ [']'])))
  | object {depth : ℕ} {sp : List Char} {ms : List Spelled} (blank : Blank sp)
      (names : ∀ m ∈ ms, Blank m.before ∧ Blank m.between) (values : ∀ m ∈ ms, Written depth m.value m.text) :
      Written (depth + 1) (.object (ms.map Spelled.member))
        (openBrace :: (sp ++ (commaList (ms.map Spelled.spelling) ++ [closeBrace])))
  | spaced {depth : ℕ} {v : Json} {before text after : List Char} (written : Written depth v text) (blankBefore : Blank before)
      (blankAfter : Blank after) : Written depth v (before ++ (text ++ after))

section Values

variable {depth : ℕ} {v : Json} {sp t rest : List Char} {es : List (Json × List Char)} {ms : List Spelled}

theorem commaList_cons (t u : List Char) (ts : List (List Char)) :
    commaList (t :: u :: ts) = t ++ ',' :: commaList (u :: ts) := by
  rw [commaList]
  simp

theorem skipSpace_cons {c : Char} (h : isSpace c = false) (rest : List Char) : skipSpace (c :: rest) = c :: rest := by
  rw [skipSpace, List.dropWhile_cons_of_neg (by simp [h])]

theorem skipSpace_blank (h : Blank sp) (rest : List Char) : skipSpace (sp ++ rest) = skipSpace rest :=
  List.dropWhile_append_of_pos h

/-- White space ends a number. -/
theorem Follows.blank (h : Blank sp) (hrest : Follows rest) : Follows (sp ++ rest) := by
  cases sp with
  | nil => exact hrest
  | cons c sp =>
    intro d hd
    obtain rfl : c = d := by simpa using hd
    have hc : isSpace c = true := h c List.mem_cons_self
    have hcode : c.toNat = 32 ∨ c.toNat = 10 ∨ c.toNat = 13 ∨ c.toNat = 9 := by
      simp only [isSpace, Bool.or_eq_true, decide_eq_true_eq] at hc
      rcases hc with ((rfl | hc) | hc) | hc
      · exact Or.inl rfl
      · omega
      · omega
      · omega
    have hne : ∀ e : Char, 32 < e.toNat → c ≠ e := by
      rintro e he rfl
      omega
    have hdigit : c.isDigit = false := by
      rw [Bool.eq_false_iff]
      intro hdigit
      have hlow : 48 ≤ c.toNat := (Char.isDigit_iff_toNat.1 hdigit).1
      omega
    exact ⟨hdigit, hne _ (by decide), hne _ (by decide), hne _ (by decide)⟩

/-- The first character of a value is neither a space nor the end of an array. -/
def Opens (c : Char) : Prop := isSpace c = false ∧ c ≠ ']'

instance : DecidablePred Opens := fun c => inferInstanceAs (Decidable (isSpace c = false ∧ c ≠ ']'))

theorem head_printInt (n : ℤ) : ∃ c rest, printInt n = c :: rest ∧ (c = '-' ∨ c.isDigit = true) := by
  unfold printInt
  by_cases hneg : n < 0
  · exact ⟨'-', _, if_pos hneg, Or.inl rfl⟩
  · obtain ⟨c, ds, hc, hdigit⟩ := head_toDigits n.natAbs
    exact ⟨c, ds, by rw [if_neg hneg, hc], Or.inr hdigit⟩

/-- A digit or a sign starts a number and nothing else. -/
theorem number_start {c : Char} (h : c = '-' ∨ c.isDigit = true) :
    Opens c ∧ c ≠ quote ∧ c ≠ '[' ∧ c ≠ openBrace ∧ c ≠ 'n' ∧ c ≠ 't' ∧ c ≠ 'f' := by
  have hrange : c.toNat = 45 ∨ 48 ≤ c.toNat ∧ c.toNat ≤ 57 := by
    rcases h with rfl | h
    · exact Or.inl rfl
    · exact Or.inr (Char.isDigit_iff_toNat.1 h)
  have hne : ∀ d : Char, d.toNat ≠ 45 → (d.toNat < 48 ∨ 57 < d.toNat) → c ≠ d := by
    rintro d hd hd' rfl
    omega
  have hspace : isSpace c = false := by
    have hblank : c ≠ ' ' := hne ' ' (by decide) (by decide)
    simp only [isSpace, Bool.or_eq_false_iff, decide_eq_false_iff_not]
    exact ⟨⟨⟨hblank, by omega⟩, by omega⟩, by omega⟩
  exact ⟨⟨hspace, hne _ (by decide) (by decide)⟩, hne _ (by decide) (by decide), hne _ (by decide) (by decide),
    hne _ (by decide) (by decide), hne _ (by decide) (by decide), hne _ (by decide) (by decide), hne _ (by decide) (by decide)⟩

theorem Written.head (h : Written depth v t) : ∃ c cs, skipSpace t = c :: cs ∧ Opens c := by
  have hstart : ∀ (c : Char) (cs : List Char), Opens c → ∃ d ds, skipSpace (c :: cs) = d :: ds ∧ Opens d := fun c cs hc =>
    ⟨c, cs, skipSpace_cons hc.1 cs, hc⟩
  induction h with
  | null => exact hstart 'n' _ (by decide)
  | bool _ value =>
    cases value with
    | true => exact hstart 't' _ (by decide)
    | false => exact hstart 'f' _ (by decide)
  | int =>
    obtain ⟨c, rest, hc, hnumber⟩ := head_printInt _
    rw [hc]
    exact hstart c rest (number_start hnumber).1
  | string => exact hstart quote _ (by decide)
  | array => exact hstart '[' _ (by decide)
  | object => exact hstart openBrace _ (by decide)
  | spaced _ hbefore _ ih =>
    obtain ⟨c, cs, hc, hopen⟩ := ih
    rw [skipSpace_blank hbefore, skipSpace, List.dropWhile_append]
    rw [skipSpace] at hc
    exact ⟨c, _, by rw [hc]; rfl, hopen⟩

theorem Written.skipSpace_append (h : Written depth v t) (rest : List Char) :
    ∃ c cs, skipSpace (t ++ rest) = c :: cs ∧ Opens c := by
  obtain ⟨c, cs, hc, hopen⟩ := h.head
  rw [skipSpace] at hc
  exact ⟨c, cs ++ rest, by rw [skipSpace, List.dropWhile_append, hc]; rfl, hopen⟩

/-- `readValue` reads `t` as `v`, up to white space, with fuel for the length of `t`. -/
def ReadsBack (depth : ℕ) (v : Json) (t : List Char) : Prop :=
  ∀ (fuel : ℕ) (rest : List Char), t.length < fuel → Follows rest →
    ∃ rest', readValue fuel depth (t ++ rest) = some (v, rest') ∧ skipSpace rest' = skipSpace rest

theorem readWord_append (word : String) (value : Json) (rest : List Char) :
    readWord word value (word.toList ++ rest) = some (value, rest) := by
  have hlen : word.length = word.toList.length := String.length_toList.symm
  rw [readWord, if_pos (List.isPrefixOf_iff_prefix.2 (List.prefix_append _ _)), hlen, List.drop_left]

theorem readString_printed (text rest : List Char) :
    readString ((text.flatMap printChar ++ quote :: rest).length + 1) (text.flatMap printChar ++ quote :: rest) =
      some (text, rest) := by
  have := length_le_flatMap text
  apply readString_print
  simp only [List.length_append]
  omega

/-- Reading starts behind white space. -/
theorem readValue_skipSpace (fuel : ℕ) {a b : List Char} (h : skipSpace a = skipSpace b) :
    readValue fuel depth a = readValue fuel depth b := by
  cases fuel with
  | zero => rfl
  | succ fuel => rw [readValue, readValue, h]

theorem readElements_skipSpace (fuel : ℕ) {a b : List Char} (h : skipSpace a = skipSpace b) :
    readElements fuel depth a = readElements fuel depth b := by
  cases fuel with
  | zero => rfl
  | succ fuel => rw [readElements, readElements, readValue_skipSpace fuel h]

theorem readMembers_skipSpace (fuel : ℕ) {a b : List Char} (h : skipSpace a = skipSpace b) :
    readMembers fuel depth a = readMembers fuel depth b := by
  cases fuel with
  | zero => rfl
  | succ fuel => rw [readMembers, readMembers, h]

theorem readElements_written (hne : es ≠ []) (hes : ∀ e ∈ es, ReadsBack depth e.1 e.2) (fuel : ℕ)
    (hfuel : (commaList (es.map Prod.snd)).length + 1 < fuel) :
    readElements fuel depth (commaList (es.map Prod.snd) ++ ']' :: rest) = some (es.map Prod.fst, rest) := by
  have hcomma : isSpace ',' = false := by decide
  have hend : isSpace ']' = false := by decide
  induction es generalizing fuel with
  | nil => exact absurd rfl hne
  | cons e es ih =>
    obtain ⟨fuel, rfl⟩ : ∃ n, fuel = n + 1 := ⟨fuel - 1, by omega⟩
    have hback := hes e List.mem_cons_self
    cases es with
    | nil =>
      simp only [List.map_cons, List.map_nil, commaList] at hfuel ⊢
      obtain ⟨rest', hread, hskip⟩ := hback fuel (']' :: rest) (by omega) (.cons (by simp) rest)
      rw [skipSpace_cons hend] at hskip
      simp only [readElements, hread, hskip]
      simp
    | cons f es =>
      rw [List.map_cons, List.map_cons, commaList_cons, ← List.map_cons] at hfuel ⊢
      simp only [List.length_append, List.length_cons] at hfuel
      obtain ⟨rest', hread, hskip⟩ := hback fuel (',' :: (commaList ((f :: es).map Prod.snd) ++ ']' :: rest)) (by omega)
        (.cons (by simp) _)
      have hrest := ih (by simp) (fun u hu => hes u (List.mem_cons_of_mem _ hu)) fuel (by omega)
      rw [skipSpace_cons hcomma] at hskip
      rw [List.append_assoc, List.cons_append, readElements, hread]
      dsimp only
      rw [hskip]
      dsimp only
      rw [if_pos rfl, hrest]
      rfl

/-- A member is read up to the comma or the end behind it. -/
theorem readMembers_spelling {m : Spelled} (hbefore : Blank m.before) (hbetween : Blank m.between)
    (hm : ReadsBack depth m.value m.text) (fuel : ℕ) (hfuel : m.text.length < fuel) (hrest : Follows rest) {c : Char}
    {cs : List Char} (hc : skipSpace rest = c :: cs) :
    readMembers (fuel + 1) depth (m.spelling ++ rest) =
      if c = ',' then (readMembers fuel depth cs).map fun p => (m.member :: p.1, p.2)
      else if c = closeBrace then some ([m.member], cs) else none := by
  have hquote : isSpace quote = false := by decide
  have hcolon : isSpace ':' = false := by decide
  obtain ⟨rest', hread, hskip⟩ := hm fuel rest hfuel hrest
  rw [Spelled.spelling, List.append_assoc, readMembers_skipSpace _ (skipSpace_blank hbefore _)]
  simp only [printString, readMembers, List.append_assoc, List.cons_append, List.nil_append, skipSpace_cons hquote, if_true,
    readString_printed, skipSpace_blank hbetween, skipSpace_cons hcolon, hread, hskip, hc, Spelled.member]

theorem readMembers_written (hne : ms ≠ []) (hnames : ∀ m ∈ ms, Blank m.before ∧ Blank m.between)
    (hms : ∀ m ∈ ms, ReadsBack depth m.value m.text) (fuel : ℕ)
    (hfuel : (commaList (ms.map Spelled.spelling)).length + 1 < fuel) :
    readMembers fuel depth (commaList (ms.map Spelled.spelling) ++ closeBrace :: rest) =
      some (ms.map Spelled.member, rest) := by
  have hcomma : isSpace ',' = false := by decide
  have hend : isSpace closeBrace = false ∧ closeBrace ≠ ',' := by decide
  have hlen : ∀ m : Spelled, m.text.length < m.spelling.length := by
    intro m
    simp only [Spelled.spelling, List.length_append, List.length_cons]
    omega
  induction ms generalizing fuel with
  | nil => exact absurd rfl hne
  | cons m ms ih =>
    obtain ⟨fuel, rfl⟩ : ∃ n, fuel = n + 1 := ⟨fuel - 1, by omega⟩
    obtain ⟨hbefore, hbetween⟩ := hnames m List.mem_cons_self
    have hback := hms m List.mem_cons_self
    have hshort := hlen m
    cases ms with
    | nil =>
      simp only [List.map_cons, List.map_nil, commaList] at hfuel ⊢
      rw [readMembers_spelling hbefore hbetween hback fuel (by omega) (.cons (by simp) rest) (skipSpace_cons hend.1 rest),
        if_neg hend.2, if_pos rfl]
    | cons n ms =>
      rw [List.map_cons, List.map_cons, commaList_cons, ← List.map_cons] at hfuel ⊢
      simp only [List.length_append, List.length_cons] at hfuel
      have hrest := ih (by simp) (fun u hu => hnames u (List.mem_cons_of_mem _ hu))
        (fun u hu => hms u (List.mem_cons_of_mem _ hu)) fuel (by omega)
      rw [List.append_assoc, List.cons_append, readMembers_spelling hbefore hbetween hback fuel (by omega)
        (.cons (by simp) _) (skipSpace_cons hcomma _), if_pos rfl, hrest]
      rfl

/-- The fixed words are told apart from every other value by their first letter. -/
theorem readsBack_word (h : v = .null ∨ ∃ b, v = .bool b) : ReadsBack depth v (print v) := by
  intro fuel rest hfuel _
  obtain ⟨fuel, rfl⟩ : ∃ n, fuel = n + 1 := ⟨fuel - 1, by omega⟩
  have hnull : "null".toList = ['n', 'u', 'l', 'l'] := rfl
  have htrue : "true".toList = ['t', 'r', 'u', 'e'] := rfl
  have hfalse : "false".toList = ['f', 'a', 'l', 's', 'e'] := rfl
  have hn : isSpace 'n' = false ∧ 'n' ≠ quote ∧ 'n' ≠ '[' ∧ 'n' ≠ openBrace := by decide
  have ht : isSpace 't' = false ∧ 't' ≠ quote ∧ 't' ≠ '[' ∧ 't' ≠ openBrace ∧ 't' ≠ 'n' := by decide
  have hf : isSpace 'f' = false ∧ 'f' ≠ quote ∧ 'f' ≠ '[' ∧ 'f' ≠ openBrace ∧ 'f' ≠ 'n' ∧ 'f' ≠ 't' := by decide
  refine ⟨rest, ?_, rfl⟩
  rcases h with rfl | ⟨_ | _, rfl⟩
  · have hword := readWord_append "null" .null rest
    rw [print]
    rw [hnull, List.cons_append] at hword ⊢
    simp only [readValue, skipSpace_cons hn.1, if_neg hn.2.1, if_neg hn.2.2.1, if_neg hn.2.2.2, if_true]
    exact hword
  · have hword := readWord_append "false" (.bool false) rest
    rw [print]
    rw [hfalse, List.cons_append] at hword ⊢
    simp only [readValue, skipSpace_cons hf.1, if_neg hf.2.1, if_neg hf.2.2.1, if_neg hf.2.2.2.1, if_neg hf.2.2.2.2.1,
      if_neg hf.2.2.2.2.2, if_true]
    exact hword
  · have hword := readWord_append "true" (.bool true) rest
    rw [print]
    rw [htrue, List.cons_append] at hword ⊢
    simp only [readValue, skipSpace_cons ht.1, if_neg ht.2.1, if_neg ht.2.2.1, if_neg ht.2.2.2.1, if_neg ht.2.2.2.2, if_true]
    exact hword

theorem readsBack_int {n : ℤ} (hn : fitsInt n = true) : ReadsBack depth (.int n) (printInt n) := by
  intro fuel rest hfuel hrest
  obtain ⟨fuel, rfl⟩ : ∃ n, fuel = n + 1 := ⟨fuel - 1, by omega⟩
  have hread := readNumber_printInt hn hrest
  obtain ⟨c, cs, hc, hstart⟩ := head_printInt n
  obtain ⟨⟨hopen, -⟩, hquote, harray, hobject, hnull, htrue, hfalse⟩ := number_start hstart
  rw [hc, List.cons_append] at hread ⊢
  simp only [readValue, skipSpace_cons hopen, if_neg hquote, if_neg harray, if_neg hobject, if_neg hnull, if_neg htrue,
    if_neg hfalse]
  exact ⟨rest, hread, rfl⟩

theorem readsBack_string (text : List Char) : ReadsBack depth (.string text) (printString text) := by
  intro fuel rest hfuel _
  obtain ⟨fuel, rfl⟩ : ∃ n, fuel = n + 1 := ⟨fuel - 1, by omega⟩
  have hopen : isSpace quote = false := by decide
  refine ⟨rest, ?_, rfl⟩
  simp only [printString, readValue, List.cons_append, List.append_assoc, List.nil_append, skipSpace_cons hopen, if_true,
    readString_printed, Option.map_some]

theorem readsBack_array (hsp : Blank sp) (hes : ∀ e ∈ es, Written depth e.1 e.2)
    (hback : ∀ e ∈ es, ReadsBack depth e.1 e.2) :
    ReadsBack (depth + 1) (.array (es.map Prod.fst)) ('[' :: (sp ++ (commaList (es.map Prod.snd) ++ [']']))) := by
  intro fuel rest hfuel _
  have hopen : isSpace '[' = false ∧ '[' ≠ quote := by decide
  obtain ⟨fuel, rfl⟩ : ∃ n, fuel = n + 1 := ⟨fuel - 1, by omega⟩
  simp only [List.length_cons, List.length_append, List.length_nil] at hfuel
  refine ⟨rest, ?_, rfl⟩
  cases es with
  | nil =>
    have hclose : isSpace ']' = false := by decide
    simp only [readValue, List.map_nil, commaList, List.cons_append, List.append_assoc, List.nil_append,
      skipSpace_cons hopen.1, if_neg hopen.2, if_true, skipSpace_blank hsp, skipSpace_cons hclose, List.head?_cons,
      List.tail_cons]
  | cons e es =>
    have hread : readElements fuel depth (commaList ((e :: es).map Prod.snd) ++ ']' :: rest) =
        some ((e :: es).map Prod.fst, rest) := readElements_written (by simp) hback fuel (by omega)
    obtain ⟨c, cs, hc, -, hend⟩ : ∃ c cs, skipSpace (commaList ((e :: es).map Prod.snd) ++ ']' :: rest) = c :: cs ∧ Opens c := by
      have hfirst := hes e List.mem_cons_self
      cases es with
      | nil => exact hfirst.skipSpace_append _
      | cons f es =>
        rw [List.map_cons, List.map_cons, commaList_cons, List.append_assoc]
        exact hfirst.skipSpace_append _
    have hstart : (skipSpace (commaList ((e :: es).map Prod.snd) ++ ']' :: rest)).head? ≠ some ']' := by
      rw [hc]
      simpa using hend
    rw [List.cons_append, List.append_assoc, List.append_assoc, readValue, skipSpace_cons hopen.1]
    dsimp only
    rw [if_neg hopen.2, if_pos rfl, skipSpace_blank hsp, readElements_skipSpace _ (skipSpace_blank hsp _)]
    rw [List.singleton_append, if_neg hstart, hread]
    rfl

theorem readsBack_object (hsp : Blank sp) (hnames : ∀ m ∈ ms, Blank m.before ∧ Blank m.between)
    (hback : ∀ m ∈ ms, ReadsBack depth m.value m.text) :
    ReadsBack (depth + 1) (.object (ms.map Spelled.member))
      (openBrace :: (sp ++ (commaList (ms.map Spelled.spelling) ++ [closeBrace]))) := by
  intro fuel rest hfuel _
  have hopen : isSpace openBrace = false ∧ openBrace ≠ quote ∧ openBrace ≠ '[' := by decide
  obtain ⟨fuel, rfl⟩ : ∃ n, fuel = n + 1 := ⟨fuel - 1, by omega⟩
  simp only [List.length_cons, List.length_append, List.length_nil] at hfuel
  refine ⟨rest, ?_, rfl⟩
  cases ms with
  | nil =>
    have hclose : isSpace closeBrace = false := by decide
    simp only [readValue, List.map_nil, commaList, List.cons_append, List.append_assoc, List.nil_append,
      skipSpace_cons hopen.1, if_neg hopen.2.1, if_neg hopen.2.2, if_true, skipSpace_blank hsp, skipSpace_cons hclose,
      List.head?_cons, List.tail_cons]
  | cons m ms =>
    have hread : readMembers fuel depth (commaList ((m :: ms).map Spelled.spelling) ++ closeBrace :: rest) =
        some ((m :: ms).map Spelled.member, rest) := readMembers_written (by simp) hnames hback fuel (by omega)
    have hspace : isSpace quote = false ∧ quote ≠ closeBrace := by decide
    have hfirst : ∀ rest, ∃ cs, skipSpace (m.spelling ++ rest) = quote :: cs := by
      intro rest
      rw [Spelled.spelling, List.append_assoc, skipSpace_blank (hnames m List.mem_cons_self).1, printString,
        List.cons_append, List.cons_append, skipSpace_cons hspace.1]
      exact ⟨_, rfl⟩
    obtain ⟨cs, hc⟩ : ∃ cs, skipSpace (commaList ((m :: ms).map Spelled.spelling) ++ closeBrace :: rest) = quote :: cs := by
      cases ms with
      | nil => exact hfirst _
      | cons n ms =>
        rw [List.map_cons, List.map_cons, commaList_cons, List.append_assoc]
        exact hfirst _
    have hstart : (skipSpace (commaList ((m :: ms).map Spelled.spelling) ++ closeBrace :: rest)).head? ≠ some closeBrace := by
      rw [hc]
      simpa using hspace.2
    rw [List.cons_append, List.append_assoc, List.append_assoc, readValue, skipSpace_cons hopen.1]
    dsimp only
    rw [if_neg hopen.2.1, if_neg hopen.2.2, if_pos rfl, skipSpace_blank hsp, readMembers_skipSpace _ (skipSpace_blank hsp _)]
    rw [List.singleton_append, if_neg hstart, hread]
    rfl

theorem Written.readsBack (h : Written depth v t) : ReadsBack depth v t := by
  induction h with
  | null => exact readsBack_word (.inl rfl)
  | bool _ value => exact readsBack_word (.inr ⟨value, rfl⟩)
  | int _ fits => exact readsBack_int fits
  | string _ text => exact readsBack_string text
  | array blank elements ih => exact readsBack_array blank elements ih
  | object blank names _ ih => exact readsBack_object blank names ih
  | spaced _ blankBefore blankAfter ih =>
    intro fuel rest hfuel hrest
    simp only [List.length_append] at hfuel
    rw [List.append_assoc, List.append_assoc, readValue_skipSpace _ (skipSpace_blank blankBefore _)]
    obtain ⟨rest', hread, hskip⟩ := ih fuel _ (by omega) (hrest.blank blankAfter)
    exact ⟨rest', hread, by rw [hskip, skipSpace_blank blankAfter]⟩

/-- However it is spaced, a value is read back. -/
theorem Written.read (h : Written maxDepth v t) : read t = some v := by
  obtain ⟨rest, hread, hskip⟩ := h.readsBack (t.length + 1) [] (by omega) .nil
  rw [List.append_nil] at hread
  unfold JsonText.read
  rw [hread]
  exact if_pos hskip

end Values

section Printing

/-- Values that `print` writes in full: integers of 64 bits, no other numbers, nested `depth` deep at most. -/
inductive Plain : ℕ → Json → Prop
  | null (depth : ℕ) : Plain depth .null
  | bool (depth : ℕ) (value : Bool) : Plain depth (.bool value)
  | int (depth : ℕ) {value : ℤ} (fits : fitsInt value = true) : Plain depth (.int value)
  | string (depth : ℕ) (text : List Char) : Plain depth (.string text)
  | array {depth : ℕ} {vs : List Json} (elements : ∀ v ∈ vs, Plain depth v) : Plain (depth + 1) (.array vs)
  | object {depth : ℕ} {ms : List (List Char × Json)} (members : ∀ m ∈ ms, Plain depth m.2) : Plain (depth + 1) (.object ms)

variable {depth : ℕ} {v : Json}

theorem printElements_eq (vs : List Json) : printElements vs = commaList (vs.map print) := by
  induction vs with
  | nil => rfl
  | cons v vs ih =>
    cases vs with
    | nil => rw [printElements]; rfl
    | cons w vs =>
      rw [printElements, ih]
      · rfl
      · simp

theorem printMembers_eq (ms : List (List Char × Json)) :
    printMembers ms = commaList (ms.map fun m => printString m.1 ++ ':' :: print m.2) := by
  induction ms with
  | nil => rfl
  | cons m ms ih =>
    cases ms with
    | nil => rw [printMembers]; rfl
    | cons n ms =>
      rw [printMembers, ih]
      · simp [commaList]
      · simp

/-- The printer writes no white space. -/
theorem Plain.written (h : Plain depth v) : Written depth v (print v) := by
  have hblank : Blank [] := by simp [Blank]
  induction h with
  | null depth => exact .null depth
  | bool depth value => exact .bool depth value
  | int depth fits => rw [print]; exact .int depth fits
  | string depth text => rw [print]; exact .string depth text
  | @array depth vs elements ih =>
    have hmem : ∀ e ∈ vs.map fun v => (v, print v), Written depth e.1 e.2 := by
      intro e he
      obtain ⟨v, hv, rfl⟩ := List.mem_map.1 he
      exact ih v hv
    have h := Written.array hblank hmem
    simp only [List.map_map, Function.comp_def, List.map_id', List.nil_append] at h
    rw [print, printElements_eq]
    exact h
  | @object depth ms members ih =>
    have hnames : ∀ m ∈ ms.map fun m => (⟨[], m.1, [], m.2, print m.2⟩ : Spelled), Blank m.before ∧ Blank m.between := by
      intro s hs
      obtain ⟨m, -, rfl⟩ := List.mem_map.1 hs
      exact ⟨hblank, hblank⟩
    have hvalues : ∀ m ∈ ms.map fun m => (⟨[], m.1, [], m.2, print m.2⟩ : Spelled), Written depth m.value m.text := by
      intro s hs
      obtain ⟨m, hm, rfl⟩ := List.mem_map.1 hs
      exact ih m hm
    have h := Written.object hblank hnames hvalues
    simp only [List.map_map, Function.comp_def, Spelled.member, Spelled.spelling, List.map_id', List.nil_append] at h
    rw [print, printMembers_eq]
    exact h

end Printing

end JsonText
