import Mathlib.Data.String.Basic
import EasiFlux.Lib.JsonText

/-!
# Records as JSON objects

What `serde` derives for a record: its fields are the members of an object, all known and none
twice, in any order; a record that is not forced to be an object may be an array of its fields
instead. Texts are UTF-8.

* `fields_record`: the fields of a written record are found again.
* `Insensitive`: a reader that does not care in what order the members of objects stand.
-/

namespace JsonText

/-! ## Writing and reading -/

def record (ms : List (String × Json)) : Json := .object (ms.map fun m => (m.1.toList, m.2))

def string (text : String) : Json := .string text.toList

/-- The members of an object, by their names: none is unknown and none is there twice. -/
def fields (names : List String) : Json → Option (String → Option Json)
  | .object ms =>
    if (ms.map Prod.fst).Nodup ∧ ∀ m ∈ ms, m.1 ∈ names.map String.toList then some fun name => ms.lookup name.toList
    else none
  | _ => none

/-- As `fields`, or the elements of an array in the order of the names. -/
def fieldsOrElements (names : List String) : Json → Option (String → Option Json)
  | .array vs => if vs.length ≤ names.length then some fun name => (names.zip vs).lookup name else none
  | v => fields names v

def readText : Json → Option String
  | .string text => some (String.ofList text)
  | _ => none

/-- An integer of a type with these bounds. -/
def readInt (low high : ℤ) : Json → Option ℤ
  | .int n => if low ≤ n ∧ n ≤ high then some n else none
  | _ => none

/-- A natural number of so many bits. -/
def readNat (bits : ℕ) (v : Json) : Option ℕ := (readInt 0 (2 ^ bits - 1) v).map Int.toNat

def readList {α : Type} (read : Json → Option α) : Json → Option (List α)
  | .array vs => vs.mapM read
  | _ => none

/-- The name of a variant without data. -/
def readVariant : Json → Option String
  | .string name => some (String.ofList name)
  | .object [(name, .null)] => some (String.ofList name)
  | _ => none

/-- A field that may be missing. -/
def readOptional {α : Type} (read : Json → Option α) : Option Json → Option (Option α)
  | none => some none
  | some v => (read v).map some

def toBytes (v : Json) : ByteArray := (String.ofList (print v)).toUTF8

def fromBytes {α : Type} (decode : Json → Option α) (bytes : ByteArray) : Option α :=
  (String.fromUTF8? bytes).bind fun text => (read text.toList).bind decode

/-! ## What was written -/

section Written

variable {names : List String} {ms : List (String × Json)}

theorem lookup_toList (name : String) :
    (ms.map fun m => (m.1.toList, m.2)).lookup name.toList = ms.lookup name := by
  induction ms with
  | nil => rfl
  | cons m ms ih =>
    have hname : (name.toList == m.1.toList) = (name == m.1) := by
      rw [Bool.eq_iff_iff, beq_iff_eq, beq_iff_eq, String.toList_inj]
    rw [List.map_cons, List.lookup_cons, List.lookup_cons, hname, ih]

theorem lookup_of_mem (hnodup : (ms.map Prod.fst).Nodup) : ∀ m ∈ ms, ms.lookup m.1 = some m.2 := by
  induction ms with
  | nil => simp
  | cons m ms ih =>
    rw [List.map_cons, List.nodup_cons] at hnodup
    intro n hn
    by_cases hname : n.1 = m.1
    · have heq : n = m := by
        rcases List.mem_cons.1 hn with rfl | hn
        · rfl
        · exact absurd (hname ▸ List.mem_map_of_mem hn) hnodup.1
      rw [heq, List.lookup_cons, beq_self_eq_true]
    · have hne : (n.1 == m.1) = false := by simpa using hname
      have hmem : n ∈ ms := (List.mem_cons.1 hn).resolve_left fun h => hname (h ▸ rfl)
      rw [List.lookup_cons, hne]
      exact ih hnodup.2 n hmem

theorem lookup_of_not_mem {name : String} (h : ∀ m ∈ ms, m.1 ≠ name) : ms.lookup name = none := by
  rw [List.lookup_eq_none_iff]
  intro m hm
  simpa using (h m hm).symm

/-- The fields of a written record are found again, and no others. -/
theorem fields_record (hnodup : (ms.map Prod.fst).Nodup) (hnames : ∀ m ∈ ms, m.1 ∈ names) :
    ∃ field, fields names (record ms) = some field ∧ (∀ m ∈ ms, field m.1 = some m.2) ∧
      ∀ name, (∀ m ∈ ms, m.1 ≠ name) → field name = none := by
  have hkeys : ((ms.map fun m => (m.1.toList, m.2)).map Prod.fst).Nodup := by
    rw [List.map_map]
    have hinj : Function.Injective String.toList := fun _ _ h => String.toList_inj.1 h
    have := hnodup.map hinj
    rwa [List.map_map] at this
  have hknown : ∀ m ∈ ms.map fun m => (m.1.toList, m.2), m.1 ∈ names.map String.toList := by
    intro m hm
    obtain ⟨m, hmem, rfl⟩ := List.mem_map.1 hm
    exact List.mem_map_of_mem (hnames m hmem)
  refine ⟨_, by rw [record, fields, if_pos ⟨hkeys, hknown⟩], fun m hm => ?_, fun name hname => ?_⟩
  · rw [lookup_toList, lookup_of_mem hnodup m hm]
  · rw [lookup_toList, lookup_of_not_mem hname]

theorem fields_unknown {name : String} {v : Json} (hm : (name, v) ∈ ms) (h : name ∉ names) : fields names (record ms) = none := by
  rw [record, fields, if_neg]
  rintro ⟨-, hknown⟩
  have hmem : (name.toList, v) ∈ ms.map fun m => (m.1.toList, m.2) := List.mem_map_of_mem hm
  obtain ⟨known, hin, heq⟩ := List.mem_map.1 (hknown _ hmem)
  rw [String.toList_inj.1 heq] at hin
  exact h hin

theorem bind_eq_of {α β : Type} {x : Option α} {f : α → Option β} {a : α} {b : β} (hx : x = some a) (hf : f a = some b) :
    x.bind f = some b := by
  rw [hx, Option.bind_some, hf]

@[simp] theorem readText_string (text : String) : readText (string text) = some text := by
  rw [string, readText, String.ofList_toList]

theorem readInt_int {low high n : ℤ} (h : low ≤ n ∧ n ≤ high) : readInt low high (.int n) = some n := if_pos h

theorem readNat_int {bits n : ℕ} (h : n < 2 ^ bits) : readNat bits (.int n) = some n := by
  have hbounds : (0 : ℤ) ≤ n ∧ (n : ℤ) ≤ 2 ^ bits - 1 := by
    have hcast : (n : ℤ) < ((2 ^ bits : ℕ) : ℤ) := Int.ofNat_lt.2 h
    push_cast at hcast
    omega
  rw [readNat, readInt_int hbounds]
  rfl

theorem readList_map {α β : Type} {read : Json → Option α} {write : β → Json} {f : β → α} {as : List β}
    (h : ∀ a ∈ as, read (write a) = some (f a)) : readList read (.array (as.map write)) = some (as.map f) := by
  rw [readList, List.mapM_map]
  induction as with
  | nil => rfl
  | cons a as ih =>
    rw [List.mapM_cons, Function.comp_apply, h a List.mem_cons_self, Option.bind_eq_bind, Option.bind_some,
      ih fun b hb => h b (List.mem_cons_of_mem _ hb)]
    rfl

theorem mem_readList {α : Type} {read : Json → Option α} {v : Json} {as : List α} (h : readList read v = some as) {a : α}
    (ha : a ∈ as) : ∃ w, read w = some a := by
  cases v with
  | array vs =>
    rw [readList] at h
    induction vs generalizing as with
    | nil =>
      obtain rfl := Option.some.inj h
      cases ha
    | cons w vs ih =>
      rw [List.mapM_cons] at h
      obtain ⟨b, hb, h⟩ := Option.bind_eq_some_iff.1 h
      obtain ⟨bs, hbs, h⟩ := Option.bind_eq_some_iff.1 h
      obtain rfl := Option.some.inj h
      rcases List.mem_cons.1 ha with rfl | ha
      · exact ⟨w, hb⟩
      · exact ih ha hbs
  | _ => cases h

theorem fromUTF8_ofList (text : List Char) : String.fromUTF8? (String.ofList text).toUTF8 = some (String.ofList text) := by
  have hvalid : (String.ofList text).toUTF8.IsValidUTF8 := (String.ofList text).isValidUTF8
  rw [String.fromUTF8?, dif_pos hvalid]
  rfl

/-- However it is spaced, the text of a value is decoded as the value is. -/
theorem fromBytes_written {α : Type} {v : Json} {text : List Char} (h : Written maxDepth v text) (decode : Json → Option α) :
    fromBytes decode (String.ofList text).toUTF8 = decode v := by
  rw [fromBytes, fromUTF8_ofList, Option.bind_some, String.toList_ofList, h.read, Option.bind_some]

theorem fromBytes_toBytes {α : Type} {v : Json} (h : Plain maxDepth v) (decode : Json → Option α) :
    fromBytes decode (toBytes v) = decode v := fromBytes_written h.written decode

theorem Plain.record {depth : ℕ} (h : ∀ m ∈ ms, Plain depth m.2) : Plain (depth + 1) (record ms) := by
  apply Plain.object
  intro m hm
  obtain ⟨m, hmem, rfl⟩ := List.mem_map.1 hm
  exact h m hmem

end Written

/-! ## Sizes -/

/-- Characters that are written as they are. -/
def Clean (c : Char) : Prop := 32 ≤ c.toNat ∧ c ≠ quote ∧ c ≠ backslash

instance : DecidablePred Clean := fun c => inferInstanceAs (Decidable (32 ≤ c.toNat ∧ c ≠ quote ∧ c ≠ backslash))

/-- Looks at the characters of the text only. -/
instance (cs : List Char) : Decidable (∀ c ∈ cs, Clean c) := List.decidableBAll Clean cs

/-- The bytes that `print` writes. -/
def size (v : Json) : ℕ := String.utf8Len (print v)

section Sizes

variable {ms : List (String × Json)} {text : String}

theorem size_toBytes (v : Json) : (toBytes v).size = size v := by
  rw [toBytes, String.toUTF8_eq_toByteArray, String.size_toByteArray, String.utf8ByteSize_ofList, size]

theorem Clean.of_code {c : Char} (h : 93 ≤ c.toNat ∨ 48 ≤ c.toNat ∧ c.toNat ≤ 58 ∨ c.toNat = 45 ∨ c.toNat = 46) : Clean c := by
  have hquote : c ≠ quote := by
    rintro rfl
    exact absurd h (by decide)
  have hback : c ≠ backslash := by
    rintro rfl
    exact absurd h (by decide)
  exact ⟨by omega, hquote, hback⟩

theorem printChar_clean {c : Char} (h : Clean c) : printChar c = [c] := by
  have hlookup : shortEscapes.lookup c = none := by
    rw [List.lookup_eq_none_iff]
    intro p hp
    have hsmall : ∀ p ∈ shortEscapes, p.1 = quote ∨ p.1 = backslash ∨ p.1.toNat < 32 := by decide
    rw [bne_iff_ne]
    rintro rfl
    rcases hsmall p hp with hc | hc | hc
    · exact h.2.1 hc
    · exact h.2.2 hc
    · have := h.1
      omega
  rw [printChar, hlookup]
  exact if_neg (by have := h.1; omega)

theorem size_string (h : ∀ c ∈ text.toList, Clean c) : size (string text) = text.utf8ByteSize + 2 := by
  have hchars : text.toList.flatMap printChar = text.toList := by
    generalize text.toList = cs at h
    induction cs with
    | nil => rfl
    | cons c cs ih =>
      rw [List.flatMap_cons, printChar_clean (h c List.mem_cons_self), ih fun d hd => h d (List.mem_cons_of_mem _ hd)]
      rfl
  have hquote : quote.utf8Size = 1 := by decide
  have hlen : text.utf8ByteSize = String.utf8Len text.toList := by
    rw [← String.utf8ByteSize_ofList, String.ofList_toList]
  rw [size, string, print, printString, hchars, String.utf8Len_cons, String.utf8Len_append, String.utf8Len_cons,
    String.utf8Len_nil, hquote, hlen]

theorem utf8Len_digits {ds : List Char} (h : DigitStrings.Digits ds) : String.utf8Len ds = ds.length := by
  induction ds with
  | nil => rfl
  | cons c ds ih =>
    have hc : c.utf8Size = 1 := by
      have hcode : c.toNat ≤ 57 := (Char.isDigit_iff_toNat.1 h.of_cons.1).2
      rw [Char.utf8Size_eq_one_iff, UInt32.le_iff_toNat_le]
      exact hcode.trans (by decide)
    rw [String.utf8Len_cons, ih h.of_cons.2, hc, List.length_cons]

theorem size_int (n : ℕ) : size (.int n) = (Nat.toDigits 10 n).length := by
  have hnat : printInt n = Nat.toDigits 10 n := if_neg (by omega)
  rw [size, print, hnat, utf8Len_digits (digits_toDigits n)]

theorem utf8Len_commaList (ts : List (List Char)) :
    String.utf8Len (commaList ts) = (ts.map String.utf8Len).sum + (ts.length - 1) := by
  have hcomma : ','.utf8Size = 1 := by decide
  induction ts with
  | nil => rfl
  | cons t ts ih =>
    cases ts with
    | nil => simp [commaList]
    | cons u ts =>
      rw [commaList_cons, String.utf8Len_append, String.utf8Len_cons, ih, hcomma]
      simp only [List.map_cons, List.sum_cons, List.length_cons]
      omega

theorem size_array (vs : List Json) : size (.array vs) = 2 + (vs.map size).sum + (vs.length - 1) := by
  have hopen : '['.utf8Size = 1 := by decide
  have hclose : ']'.utf8Size = 1 := by decide
  rw [size, print, printElements_eq, String.utf8Len_cons, String.utf8Len_append, utf8Len_commaList, String.utf8Len_cons,
    String.utf8Len_nil, hopen, hclose, List.map_map, List.length_map]
  show (vs.map size).sum + _ + _ + _ = _
  omega

theorem size_record (h : ∀ m ∈ ms, ∀ c ∈ m.1.toList, Clean c) :
    size (record ms) = 2 + (ms.map fun m => m.1.utf8ByteSize + 3 + size m.2).sum + (ms.length - 1) := by
  have hopen : openBrace.utf8Size = 1 := by decide
  have hclose : closeBrace.utf8Size = 1 := by decide
  have hcolon : ':'.utf8Size = 1 := by decide
  have hmembers : (ms.map fun m => String.utf8Len (printString m.1.toList ++ ':' :: print m.2)) =
      ms.map fun m => m.1.utf8ByteSize + 3 + size m.2 := by
    apply List.map_congr_left
    intro m hm
    have hname : String.utf8Len (printString m.1.toList) = m.1.utf8ByteSize + 2 := by
      rw [← size_string (h m hm), size, string, print]
    rw [String.utf8Len_append, String.utf8Len_cons, hname, hcolon, size]
    omega
  rw [size, record, print, printMembers_eq, String.utf8Len_cons, String.utf8Len_append, utf8Len_commaList,
    String.utf8Len_cons, String.utf8Len_nil, hopen, hclose, List.map_map, List.map_map, List.length_map, List.length_map]
  show (ms.map fun m => String.utf8Len (printString m.1.toList ++ ':' :: print m.2)).sum + _ + _ + _ = _
  rw [hmembers]
  omega

end Sizes

/-! ## The order of members -/

/-- The same value but for the order in which the members of its objects stand. -/
inductive Reordered : Json → Json → Prop
  | refl (v : Json) : Reordered v v
  | array {es : List (Json × Json)} (elements : ∀ e ∈ es, Reordered e.1 e.2) :
      Reordered (.array (es.map Prod.fst)) (.array (es.map Prod.snd))
  | object {ms : List (List Char × Json × Json)} {ns : List (List Char × Json)} (values : ∀ m ∈ ms, Reordered m.2.1 m.2.2)
      (order : (ms.map fun m => (m.1, m.2.2)).Perm ns) : Reordered (.object (ms.map fun m => (m.1, m.2.1))) (.object ns)

/-- Both are missing, or the one is the other with its members reordered. -/
def SameField (a b : Option Json) : Prop := (a = none ∧ b = none) ∨ ∃ v w, a = some v ∧ b = some w ∧ Reordered v w

/-- The order of the members does not matter to `decode`. -/
def Insensitive {α : Type} (decode : Json → Option α) : Prop := ∀ v w, Reordered v w → decode v = decode w

section Order

variable {v w : Json} {names : List String}

/-- The value of a name does not depend on the order, when no name is there twice. -/
theorem lookup_perm {ms ns : List (List Char × Json)} (hnodup : (ms.map Prod.fst).Nodup) (h : ms.Perm ns) (name : List Char) :
    ms.lookup name = ns.lookup name := by
  have hmem : ∀ {l : List (List Char × Json)}, (l.map Prod.fst).Nodup → ∀ v, l.lookup name = some v ↔ (name, v) ∈ l := by
    intro l hl v
    induction l with
    | nil => simp
    | cons m l ih =>
      rw [List.map_cons, List.nodup_cons] at hl
      by_cases hname : name = m.1
      · subst hname
        rw [List.lookup_cons, beq_self_eq_true]
        simp only [Option.some.injEq, List.mem_cons]
        constructor
        · rintro rfl
          exact Or.inl rfl
        · rintro (heq | hin)
          · exact (congrArg Prod.snd heq).symm
          · exact absurd (List.mem_map_of_mem hin) hl.1
      · have hne : (name == m.1) = false := by simpa using hname
        rw [List.lookup_cons, hne]
        simp only [ih hl.2, List.mem_cons]
        constructor
        · exact Or.inr
        · rintro (rfl | hin)
          · exact absurd rfl hname
          · exact hin
  ext v
  rw [hmem hnodup, hmem ((h.map _).nodup_iff.1 hnodup), h.mem_iff]

theorem sameField_refl (a : Option Json) : SameField a a := by
  cases a with
  | none => exact Or.inl ⟨rfl, rfl⟩
  | some v => exact Or.inr ⟨v, v, rfl, rfl, .refl v⟩

theorem lookup_values {ms : List (List Char × Json × Json)} (h : ∀ m ∈ ms, Reordered m.2.1 m.2.2) (name : List Char) :
    SameField ((ms.map fun m => (m.1, m.2.1)).lookup name) ((ms.map fun m => (m.1, m.2.2)).lookup name) := by
  induction ms with
  | nil => exact Or.inl ⟨rfl, rfl⟩
  | cons m ms ih =>
    rw [List.map_cons, List.map_cons, List.lookup_cons, List.lookup_cons]
    by_cases hname : name = m.1
    · subst hname
      rw [beq_self_eq_true]
      exact Or.inr ⟨_, _, rfl, rfl, h m List.mem_cons_self⟩
    · have hne : (name == m.1) = false := by simpa using hname
      simp only [hne]
      exact ih fun n hn => h n (List.mem_cons_of_mem _ hn)

theorem fields_reordered (h : Reordered v w) : (fields names v = none ∧ fields names w = none) ∨
    ∃ f g, fields names v = some f ∧ fields names w = some g ∧ ∀ name, SameField (f name) (g name) := by
  cases h with
  | refl =>
    cases hf : fields names v with
    | none => exact Or.inl ⟨rfl, rfl⟩
    | some f => exact Or.inr ⟨f, f, rfl, rfl, fun name => sameField_refl _⟩
  | array => exact Or.inl ⟨rfl, rfl⟩
  | @object ms ns values order =>
    have hkeys : ((ms.map fun m => (m.1, m.2.1)).map Prod.fst).Perm (ns.map Prod.fst) := by
      have := order.map Prod.fst
      rwa [List.map_map] at this ⊢
    have hknown : (∀ m ∈ ms.map fun m => (m.1, m.2.1), m.1 ∈ names.map String.toList) ↔
        ∀ m ∈ ns, m.1 ∈ names.map String.toList := by
      rw [← List.forall_mem_map (f := Prod.fst) (P := fun n => n ∈ names.map String.toList),
        ← List.forall_mem_map (f := Prod.fst) (l := ns) (P := fun n => n ∈ names.map String.toList)]
      exact ⟨fun h n hn => h n (hkeys.mem_iff.2 hn), fun h n hn => h n (hkeys.mem_iff.1 hn)⟩
    simp only [fields]
    by_cases hgood : ((ms.map fun m => (m.1, m.2.1)).map Prod.fst).Nodup ∧
        ∀ m ∈ ms.map fun m => (m.1, m.2.1), m.1 ∈ names.map String.toList
    · rw [if_pos hgood, if_pos ⟨hkeys.nodup_iff.1 hgood.1, hknown.1 hgood.2⟩]
      refine Or.inr ⟨_, _, rfl, rfl, fun name => ?_⟩
      have hnodup : ((ms.map fun m => (m.1, m.2.2)).map Prod.fst).Nodup := by
        have := hgood.1
        rwa [List.map_map] at this ⊢
      rw [← lookup_perm hnodup order]
      exact lookup_values values _
    · rw [if_neg hgood, if_neg fun h => hgood ⟨hkeys.nodup_iff.2 h.1, hknown.2 h.2⟩]
      exact Or.inl ⟨rfl, rfl⟩

theorem SameField.bind {α : Type} {decode : Json → Option α} (hd : Insensitive decode) {a b : Option Json} (h : SameField a b) :
    a.bind decode = b.bind decode := by
  obtain ⟨rfl, rfl⟩ | ⟨v, w, rfl, rfl, hvw⟩ := h
  · rfl
  · exact hd v w hvw

/-- A reader of the fields of an object is insensitive when it is for each field. -/
theorem Insensitive.ofFields {α : Type} {build : (String → Option Json) → Option α}
    (h : ∀ f g, (∀ name, SameField (f name) (g name)) → build f = build g) :
    Insensitive fun v => (fields names v).bind build := by
  intro v w hvw
  have hfields : (fields names v = none ∧ fields names w = none) ∨ ∃ f g, fields names v = some f ∧ fields names w = some g ∧
      ∀ name, SameField (f name) (g name) := fields_reordered hvw
  obtain ⟨hv, hw⟩ | ⟨f, g, hv, hw, hfg⟩ := hfields
  · simp only [hv, hw]
  · simp only [hv, hw, Option.bind_some]
    exact h f g hfg

theorem insensitive_readText : Insensitive readText := by
  intro v w h
  cases h <;> rfl

theorem insensitive_readInt (low high : ℤ) : Insensitive (readInt low high) := by
  intro v w h
  cases h <;> rfl

theorem insensitive_readNat (bits : ℕ) : Insensitive (readNat bits) := by
  intro v w h
  rw [readNat, readNat, insensitive_readInt _ _ v w h]

theorem Insensitive.readList {α : Type} {read : Json → Option α} (hread : Insensitive read) : Insensitive (readList read) := by
  intro v w h
  cases h with
  | refl => rfl
  | object => rfl
  | @array es elements =>
    simp only [JsonText.readList]
    induction es with
    | nil => rfl
    | cons e es ih =>
      rw [List.map_cons, List.map_cons, List.mapM_cons, List.mapM_cons, hread _ _ (elements e List.mem_cons_self),
        ih fun u hu => elements u (List.mem_cons_of_mem _ hu)]

end Order

end JsonText
