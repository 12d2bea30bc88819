import Lineage.Data.Json
import Mathlib.Algebra.Group.Int.Defs
import Mathlib.Algebra.Group.Nat.Defs

/-!
# Reading back JSON text

A value that is spread over lines reads back as itself (`ofJson?_pretty`), if its integers have at
most 64 bits and it holds no reals (`Exact`).  The proof follows the reader: a written string ends
at its own closing quote whatever comes after it (`readString_writeText`), a written number ends
where no digit, point or exponent follows, and each value leaves the reader in front of what comes
after it (`readValue_prettyChars`).  Enough fuel is a step for each character that is read.
-/

namespace Lineage

/-! ### Numbers -/

namespace Number

@[simp] theorem ofDigits_digits (n : Nat) : ofDigits (digits n) = n := by
  calc ofDigits (digits n) = Nat.ofDigitChars 10 (Nat.toDigits 10 n) 0 := by
        simp only [ofDigits, digits, Nat.ofDigitChars, Nat.mul_comm]
    _ = n := Nat.ofDigitChars_toDigits (by decide) (by decide)

theorem digits_ne_nil (n : Nat) : digits n ≠ [] :=
  Nat.toDigits_ne_nil

theorem isDigit_of_mem_digits {n : Nat} {c : Char} (h : c ∈ digits n) : c.isDigit = true :=
  Nat.isDigit_of_mem_toDigits (by decide) (by decide) h

theorem exists_digits (n : Nat) : ∃ c tail, digits n = c :: tail ∧ c.isDigit = true := by
  obtain ⟨c, tail, h⟩ := List.exists_cons_of_ne_nil (digits_ne_nil n)
  have hmem : c ∈ digits n := h ▸ List.mem_cons_self
  exact ⟨c, tail, h, isDigit_of_mem_digits hmem⟩

/-- Only zero is written with a zero in front. -/
theorem head?_digits_ne (n : Nat) (hn : 0 < n) : (digits n).head? ≠ some '0' := by
  induction n using Nat.strongRecOn with
  | _ n ih =>
    have hdigits : digits n = if n < 10 then [n.digitChar]
        else digits (n / 10) ++ [(n % 10).digitChar] := Nat.toDigits_eq_if (by decide)
    rw [hdigits]
    split
    · rename_i hlt
      have hchars : ∀ m < 10, 0 < m → m.digitChar ≠ '0' := by decide
      simpa using hchars n hlt hn
    · have hfirst := ih (n / 10) (by omega) (by omega)
      rw [List.head?_append, List.head?_eq_some_head (digits_ne_nil _)] at *
      exact hfirst

end Number

namespace Data

/-! ### Strings -/

theorem hexUnit?_hex4 : ∀ n < 32, ∃ a b c d, hex4 n = [a, b, c, d] ∧ hexUnit? a b c d = some n := by
  have hdigit : ∀ n < 32, hex4 n = ['0', '0', (hex4 n).getD 2 '0', (hex4 n).getD 3 '0'] := by
    decide
  have hread : ∀ n < 32,
      hexUnit? '0' '0' ((hex4 n).getD 2 '0') ((hex4 n).getD 3 '0') = some n := by
    decide
  exact fun n hn => ⟨'0', '0', _, _, hdigit n hn, hread n hn⟩

theorem readString_plain {c : Char} (done rest : List Char) (hc : 0x20 ≤ c.toNat) (hquote : c ≠ '"')
    (hslash : c ≠ '\\') : readString done (c :: rest) = readString (c :: done) rest := by
  have hlt : ¬ c.toNat < 0x20 := by omega
  rw [readString.eq_4 done c rest hquote (fun _ _ _ _ _ h _ => hslash h)
    (fun _ _ h _ => hslash h)]
  simp [hlt, hslash]

theorem readString_escape {c d : Char} (done rest : List Char) (h : simpleEscape? c = some d) :
    readString done ('\\' :: c :: rest) = readString (d :: done) rest := by
  have hc : c ≠ 'u' := by
    rintro rfl
    cases h
  rw [readString.eq_3 done c rest (fun _ _ _ _ _ hu _ => hc hu)]
  simp only [h]

theorem readString_unit {a b c d : Char} {n : Nat} (done rest : List Char)
    (h : hexUnit? a b c d = some n) (hn : n < 32) :
    readString done ('\\' :: 'u' :: a :: b :: c :: d :: rest) =
      readString (Char.ofNat n :: done) rest := by
  have hscalar : scalar? n = some (Char.ofNat n) := by
    rw [scalar?, if_pos (by simp; omega)]
  have hhigh : ¬ 0xD800 ≤ n := by omega
  rw [readString.eq_def]
  simp only [h]
  split
  · simp [hhigh, hscalar]
  · simp [hscalar]

/-- A written character reads back, whatever comes after it. -/
theorem readString_escapeChar (c : Char) (done rest : List Char) :
    readString done (escapeChar c ++ rest) = readString (c :: done) rest := by
  unfold escapeChar
  split
  -- the characters with an escape of two characters
  iterate 7 exact readString_escape done rest rfl
  rename_i hquote hslash _ _ _ _ _
  split
  · rename_i hc
    obtain ⟨a, b, x, y, hhex, hunit⟩ := hexUnit?_hex4 c.toNat hc
    rw [hhex]
    have := readString_unit done rest hunit hc
    rwa [Char.ofNat_toNat] at this
  · rename_i hc
    exact readString_plain done rest (by omega) hquote hslash

theorem readString_flatMap (text done rest : List Char) :
    readString done (text.flatMap escapeChar ++ '"' :: rest) =
      some (String.ofList (done.reverse ++ text), rest) := by
  induction text generalizing done with
  | nil => simp [readString]
  | cons c text ih =>
    rw [List.flatMap_cons, List.append_assoc, readString_escapeChar, ih]
    simp

/-- A written text ends at its closing quote, whatever comes after it. -/
theorem readString_writeText (text : String) (rest : List Char) :
    ∃ tail, writeText text ++ rest = '"' :: tail ∧ readString [] tail = some (text, rest) := by
  refine ⟨text.toList.flatMap escapeChar ++ '"' :: rest, by simp [writeText], ?_⟩
  simp [readString_flatMap]

/-! ### Integers -/

/-- What may stand behind a value: nothing, a comma or a gap. -/
def Parted (rest : List Char) : Prop :=
  ∀ c tail, rest = c :: tail → c = ',' ∨ isGap c = true

theorem not_isDigit_of_parted {rest : List Char} (h : Parted rest) :
    rest.takeWhile Char.isDigit = [] ∧ rest.dropWhile Char.isDigit = rest := by
  cases rest with
  | nil => simp
  | cons c tail =>
    have hc : c.isDigit = false := by
      rcases h c tail rfl with rfl | hgap
      · decide
      · simp only [isGap, Bool.or_eq_true, beq_iff_eq] at hgap
        rcases hgap with ((rfl | rfl) | rfl) | rfl <;> decide
    simp [hc]

theorem readDigits_digits (n : Nat) {rest : List Char} (h : Parted rest) :
    readDigits (Number.digits n ++ rest) = some (Number.digits n, rest) := by
  obtain ⟨htake, hdrop⟩ := not_isDigit_of_parted h
  have hall : ∀ c ∈ Number.digits n, Char.isDigit c = true := fun _ hc =>
    Number.isDigit_of_mem_digits hc
  rw [readDigits, List.takeWhile_append_of_pos hall, List.dropWhile_append_of_pos hall, htake,
    hdrop, List.append_nil]
  simp [Number.digits_ne_nil]

theorem readFraction_parted {rest : List Char} (h : Parted rest) :
    readFraction rest = some ([], rest) := by
  unfold readFraction
  split
  · have := h _ _ rfl
    simp [isGap] at this
  · rfl

theorem readExponent_parted {rest : List Char} (h : Parted rest) :
    readExponent rest = some (none, rest) := by
  unfold readExponent
  split
  · have := h _ _ rfl
    simp [isGap] at this
  · have := h _ _ rfl
    simp [isGap] at this
  · rfl

/-- Digits without a sign read as a whole number. -/
theorem wholeNumber?_digits (negative : Bool) (n : Nat) (h : n < 2 ^ 64)
    (hneg : negative = true → 0 < n ∧ n ≤ 2 ^ 63) :
    wholeNumber? negative (Number.digits n) = some (.integer (if negative then -n else n)) := by
  simp only [wholeNumber?, Number.ofDigits_digits]
  cases negative with
  | false =>
    have hlt : n < Nat.pow 2 64 := h
    simp only [Bool.false_and, Bool.false_eq_true, if_false, Bool.not_false, Bool.true_and, hlt,
      decide_true, if_true]
  | true =>
    obtain ⟨hpos, hle⟩ := hneg rfl
    have hle : n ≤ Nat.pow 2 63 := hle
    simp only [Bool.true_and, hpos, hle, decide_true, if_true]

/-- Written digits are not refused for a zero in front. -/
theorem not_zero_ahead (n : Nat) (hlength : 1 < (Number.digits n).length) :
    (Number.digits n).head? ≠ some '0' := by
  have hn : 0 < n := by
    refine Nat.pos_of_ne_zero ?_
    rintro rfl
    exact absurd hlength (by decide)
  exact Number.head?_digits_ne n hn

theorem readNumber_natural {n : Nat} (hn : n < 2 ^ 64) {rest : List Char} (h : Parted rest) :
    readNumber (Number.digits n ++ rest) = some (.integer n, rest) := by
  have hsign : ∀ tail, Number.digits n ++ rest ≠ '-' :: tail := by
    intro tail htail
    obtain ⟨c, more, hdigits, hc⟩ := Number.exists_digits n
    rw [hdigits] at htail
    obtain rfl : c = '-' := by simpa using (List.cons.inj htail).1
    cases hc
  have hvalue := wholeNumber?_digits false n hn (by simp)
  unfold readNumber
  split
  rename_i negative chars hchars
  split at hchars
  · exact absurd ‹_› (hsign _)
  · obtain ⟨rfl, rfl⟩ := Prod.mk.inj hchars
    simpa [readDigits_digits n h, readFraction_parted h, readExponent_parted h, hvalue]
      using not_zero_ahead n

theorem readNumber_negative {n : Nat} (hpos : 0 < n) (hn : n ≤ 2 ^ 63) {rest : List Char}
    (h : Parted rest) :
    readNumber ('-' :: Number.digits n ++ rest) = some (.integer (-n), rest) := by
  have hvalue := wholeNumber?_digits true n (by omega) (fun _ => ⟨hpos, hn⟩)
  unfold readNumber
  simpa [readDigits_digits n h, readFraction_parted h, readExponent_parted h, hvalue]
    using not_zero_ahead n

/-- A written integer of at most 64 bits reads back. -/
theorem readNumber_writeInteger {value : Int} (hlow : -2 ^ 63 ≤ value) (hhigh : value < 2 ^ 64)
    {rest : List Char} (h : Parted rest) :
    readNumber (writeInteger value ++ rest) = some (.integer value, rest) := by
  cases value with
  | ofNat n =>
    rw [Int.ofNat_eq_natCast] at hhigh
    exact readNumber_natural (by omega) h
  | negSucc n => exact readNumber_negative (Nat.succ_pos n) (by omega) h

/-! ### Values -/

/-- Whether a value reads back as it is written: its integers have at most 64 bits, and it holds no
reals. -/
inductive Exact : Data → Prop where
  | null : Exact .null
  | bool (value : Bool) : Exact (.bool value)
  | integer {value : Int} (hlow : -2 ^ 63 ≤ value) (hhigh : value < 2 ^ 64) :
      Exact (.integer value)
  | text (value : String) : Exact (.text value)
  | list {items : List Data} (h : ∀ item ∈ items, Exact item) : Exact (.list items)
  | record {fields : List (String × Data)} (h : ∀ field ∈ fields, Exact field.2) :
      Exact (.record fields)

theorem isGap_of_isDigit {c : Char} (h : c.isDigit = true) : isGap c = false := by
  rw [isGap, Bool.eq_false_iff]
  simp only [ne_eq, Bool.or_eq_true, beq_iff_eq]
  rintro (((rfl | rfl) | rfl) | rfl) <;> cases h

theorem skipGap_newline (level : Nat) (rest : List Char) :
    skipGap (newline level ++ rest) = skipGap rest := by
  have hall : ∀ c ∈ newline level, isGap c = true := by
    intro c hc
    rcases List.mem_cons.1 hc with rfl | hc
    · decide
    · rw [List.eq_of_mem_replicate hc]
      decide
  exact List.dropWhile_append_of_pos hall

theorem skipGap_cons {c : Char} (h : isGap c = false) (rest : List Char) :
    skipGap (c :: rest) = c :: rest := by
  simp [skipGap, h]

theorem parted_newline (level : Nat) (rest : List Char) : Parted (newline level ++ rest) := by
  rintro c tail h
  obtain rfl : '\n' = c := (List.cons.inj h).1
  exact .inr rfl

theorem parted_comma (rest : List Char) : Parted (',' :: rest) := by
  rintro c tail h
  exact .inl (List.cons.inj h).1.symm

theorem prettyItems_eq (level : Nat) (items : List Data) :
    prettyItems level items = items.map (prettyChars level) := by
  induction items with
  | nil => rfl
  | cons item more ih => rw [prettyItems, ih, List.map_cons]

theorem prettyFields_eq (level : Nat) (fields : List (String × Data)) :
    prettyFields level fields =
      fields.map (fun field => writeText field.1 ++ ':' :: ' ' :: prettyChars level field.2) := by
  induction fields with
  | nil => rfl
  | cons field more ih => rw [prettyFields, ih, List.map_cons]

theorem prettyChars_list {items : List Data} (h : items ≠ []) (level : Nat) :
    prettyChars level (.list items) = '[' :: newline (level + 1) ++
      separated (',' :: newline (level + 1)) (items.map (prettyChars (level + 1))) ++
      newline level ++ [']'] := by
  rw [prettyChars, prettyItems_eq]
  exact h

theorem prettyChars_record {fields : List (String × Data)} (h : fields ≠ []) (level : Nat) :
    prettyChars level (.record fields) = '{' :: newline (level + 1) ++
      separated (',' :: newline (level + 1)) (fields.map (fun field =>
        writeText field.1 ++ ':' :: ' ' :: prettyChars (level + 1) field.2)) ++
      newline level ++ ['}'] := by
  rw [prettyChars, prettyFields_eq]
  exact h

/-- A written value starts neither with a gap nor with a closing bracket. -/
theorem Exact.exists_cons {value : Data} (h : value.Exact) (level : Nat) :
    ∃ c tail, prettyChars level value = c :: tail ∧ isGap c = false ∧ c ≠ ']' := by
  cases h with
  | null => exact ⟨'n', "ull".toList, rfl, rfl, by decide⟩
  | bool value =>
    cases value
    · exact ⟨'f', "alse".toList, rfl, rfl, by decide⟩
    · exact ⟨'t', "rue".toList, rfl, rfl, by decide⟩
  | @integer value hlow hhigh =>
    cases value with
    | negSucc n => exact ⟨'-', Number.digits (n + 1), rfl, rfl, by decide⟩
    | ofNat n =>
      obtain ⟨c, tail, hdigits, hc⟩ := Number.exists_digits n
      refine ⟨c, tail, hdigits, isGap_of_isDigit hc, ?_⟩
      rintro rfl
      cases hc
  | text value => exact ⟨'"', _, rfl, rfl, by decide⟩
  | @list items h =>
    by_cases hitems : items = []
    · exact ⟨'[', "]".toList, by rw [hitems]; rfl, rfl, by decide⟩
    · exact ⟨'[', _, prettyChars_list hitems level, rfl, by decide⟩
  | @record fields h =>
    by_cases hfields : fields = []
    · exact ⟨'{', ['}'], by rw [hfields]; rfl, rfl, by decide⟩
    · exact ⟨'{', _, prettyChars_record hfields level, rfl, by decide⟩

theorem readValue_newline (fuel level : Nat) (rest : List Char) :
    readValue fuel (newline level ++ rest) = readValue fuel rest := by
  cases fuel with
  | zero => rfl
  | succ fuel => rw [readValue, readValue, skipGap_newline]

theorem readValue_blank (fuel : Nat) (rest : List Char) :
    readValue fuel (' ' :: rest) = readValue fuel rest := by
  cases fuel with
  | zero => rfl
  | succ fuel => rfl

theorem readItems_newline (fuel level : Nat) (done : List Data) (rest : List Char) :
    readItems fuel done (newline level ++ rest) = readItems fuel done rest := by
  cases fuel with
  | zero => rfl
  | succ fuel => rw [readItems, readItems, readValue_newline]

theorem readFields_newline (fuel level : Nat) (done : List (String × Data)) (rest : List Char) :
    readFields fuel done (newline level ++ rest) = readFields fuel done rest := by
  cases fuel with
  | zero => rfl
  | succ fuel => rw [readFields, readFields, skipGap_newline]

/-- Reading stops right behind the value, if what follows is parted from it. -/
def ReadsBack (value : Data) : Prop :=
  ∀ level fuel rest, (prettyChars level value).length < fuel → Parted rest →
    readValue fuel (prettyChars level value ++ rest) = some (value, rest)

theorem readValue_number (fuel : Nat) {c : Char} (hc : c.isDigit = true ∨ c = '-')
    (rest : List Char) : readValue (fuel + 1) (c :: rest) = readNumber (c :: rest) := by
  have hgap : isGap c = false := by
    rcases hc with hc | rfl
    · exact isGap_of_isDigit hc
    · rfl
  rw [readValue, skipGap_cons hgap]
  split <;> simp_all

theorem readsBack_integer {value : Int} (hlow : -2 ^ 63 ≤ value) (hhigh : value < 2 ^ 64) :
    ReadsBack (.integer value) := by
  intro level fuel rest hfuel hrest
  obtain ⟨fuel, rfl⟩ := Nat.exists_eq_add_of_lt (Nat.zero_lt_of_lt hfuel)
  have hread := readNumber_writeInteger hlow hhigh hrest
  have hfirst : ∃ c tail, writeInteger value = c :: tail ∧ (c.isDigit = true ∨ c = '-') := by
    cases value with
    | ofNat n =>
      obtain ⟨c, tail, hdigits, hc⟩ := Number.exists_digits n
      exact ⟨c, tail, hdigits, .inl hc⟩
    | negSucc n => exact ⟨'-', Number.digits (n + 1), rfl, .inr rfl⟩
  obtain ⟨c, tail, hwrite, hc⟩ := hfirst
  rw [prettyChars]
  rw [hwrite] at hread ⊢
  rw [Nat.zero_add, List.cons_append, readValue_number fuel hc]
  exact hread

/-! ### Lists and records -/

section Items

variable {item : Data} {level fuel : Nat} {done : List Data} {rest : List Char}

theorem readItems_more (h : item.ReadsBack) (hfuel : (prettyChars level item).length < fuel) :
    readItems (fuel + 1) done (prettyChars level item ++ ',' :: (newline level ++ rest)) =
      readItems fuel (item :: done) rest := by
  rw [readItems, h level fuel _ hfuel (parted_comma _)]
  exact readItems_newline fuel level (item :: done) rest

theorem readItems_last (h : item.ReadsBack) (hfuel : (prettyChars level item).length < fuel)
    (outer : Nat) :
    readItems (fuel + 1) done (prettyChars level item ++ (newline outer ++ ']' :: rest)) =
      some ((item :: done).reverse, rest) := by
  rw [readItems, h level fuel _ hfuel (parted_newline outer _)]
  simp only [skipGap_newline]
  rfl

end Items

section Fields

variable {name : String} {value : Data} {level fuel : Nat} {done : List (String × Data)}
  {rest : List Char}

section Name

variable {chars after : List Char} (hvalue : readValue fuel chars = some (value, after))

include hvalue

/-- Behind a name and a value comes another field. -/
theorem readFields_comma (hafter : skipGap after = ',' :: rest) :
    readFields (fuel + 1) done (writeText name ++ ':' :: ' ' :: chars) =
      readFields fuel ((name, value) :: done) rest := by
  obtain ⟨tail, htail, hread⟩ := readString_writeText name (':' :: ' ' :: chars)
  rw [htail, readFields, skipGap_cons rfl]
  simp only [hread, skipGap_cons (show isGap ':' = false from rfl), readValue_blank, hvalue, hafter]

/-- Behind a name and a value the record ends. -/
theorem readFields_brace (hafter : skipGap after = '}' :: rest) :
    readFields (fuel + 1) done (writeText name ++ ':' :: ' ' :: chars) =
      some (((name, value) :: done).reverse, rest) := by
  obtain ⟨tail, htail, hread⟩ := readString_writeText name (':' :: ' ' :: chars)
  rw [htail, readFields, skipGap_cons rfl]
  simp only [hread, skipGap_cons (show isGap ':' = false from rfl), readValue_blank, hvalue, hafter]

end Name

theorem readFields_more (h : value.ReadsBack) (hfuel : (prettyChars level value).length < fuel) :
    readFields (fuel + 1) done (writeText name ++ ':' :: ' ' :: (prettyChars level value ++
      ',' :: (newline level ++ rest))) = readFields fuel ((name, value) :: done) rest := by
  rw [readFields_comma (h level fuel _ hfuel (parted_comma _)) (skipGap_cons rfl _)]
  exact readFields_newline fuel level ((name, value) :: done) rest

theorem readFields_last (h : value.ReadsBack) (hfuel : (prettyChars level value).length < fuel)
    (outer : Nat) :
    readFields (fuel + 1) done (writeText name ++ ':' :: ' ' :: (prettyChars level value ++
      (newline outer ++ '}' :: rest))) = some (((name, value) :: done).reverse, rest) := by
  refine readFields_brace (h level fuel _ hfuel (parted_newline outer _)) ?_
  rw [skipGap_newline, skipGap_cons rfl]

end Fields

theorem readItems_separated {items : List Data} (h : ∀ item ∈ items, ReadsBack item)
    (hitems : items ≠ []) (level outer fuel : Nat) (done : List Data) (rest : List Char)
    (hfuel : (separated (',' :: newline level) (items.map (prettyChars level))).length < fuel) :
    readItems (fuel + 1) done (separated (',' :: newline level) (items.map (prettyChars level)) ++
      (newline outer ++ ']' :: rest)) = some (done.reverse ++ items, rest) := by
  induction items generalizing fuel done with
  | nil => exact absurd rfl hitems
  | cons item more ih =>
    have hitem := h item List.mem_cons_self
    -- the last item is read up to the bracket, the others up to a comma
    cases more with
    | nil =>
      simp only [List.map_cons, List.map_nil, separated] at hfuel ⊢
      simp [readItems_last hitem hfuel]
    | cons next more =>
      have hmore := ih (fun item hmem => h item (List.mem_cons_of_mem _ hmem)) (by simp)
      simp only [List.map_cons, separated, List.length_append, List.length_cons] at hfuel hmore ⊢
      obtain ⟨fuel, rfl⟩ : ∃ less, fuel = less + 1 := Nat.exists_eq_succ_of_ne_zero (by omega)
      simp only [List.append_assoc, List.cons_append]
      rw [readItems_more hitem (by omega), hmore fuel (item :: done) (by omega)]
      simp

theorem readFields_separated {fields : List (String × Data)}
    (h : ∀ field ∈ fields, ReadsBack field.2) (hfields : fields ≠ []) (level outer fuel : Nat)
    (done : List (String × Data)) (rest : List Char)
    (hfuel : (separated (',' :: newline level) (fields.map (fun field =>
      writeText field.1 ++ ':' :: ' ' :: prettyChars level field.2))).length < fuel) :
    readFields (fuel + 1) done (separated (',' :: newline level) (fields.map (fun field =>
      writeText field.1 ++ ':' :: ' ' :: prettyChars level field.2)) ++
        (newline outer ++ '}' :: rest)) = some (done.reverse ++ fields, rest) := by
  induction fields generalizing fuel done with
  | nil => exact absurd rfl hfields
  | cons field more ih =>
    have hfield := h field List.mem_cons_self
    cases more with
    | nil =>
      simp only [List.map_cons, List.map_nil, separated, List.length_append, List.length_cons]
        at hfuel ⊢
      simp only [List.append_assoc, List.cons_append]
      rw [readFields_last hfield (by omega)]
      simp
    | cons next more =>
      have hmore := ih (fun field hmem => h field (List.mem_cons_of_mem _ hmem)) (by simp)
      simp only [List.map_cons, separated, List.length_append, List.length_cons] at hfuel hmore ⊢
      obtain ⟨fuel, rfl⟩ : ∃ less, fuel = less + 1 := Nat.exists_eq_succ_of_ne_zero (by omega)
      simp only [List.append_assoc, List.cons_append]
      rw [readFields_more hfield (by omega), hmore fuel (field :: done) (by omega)]
      simp

theorem exists_separated (separator first : List Char) (more : List (List Char)) :
    ∃ tail, separated separator (first :: more) = first ++ tail := by
  cases more with
  | nil => exact ⟨[], (List.append_nil _).symm⟩
  | cons next more => exact ⟨separator ++ separated separator (next :: more), by simp [separated]⟩

theorem readValue_list {c : Char} {chars tail : List Char} (hchars : skipGap chars = c :: tail)
    (hc : c ≠ ']') (fuel : Nat) :
    readValue (fuel + 1) ('[' :: chars) =
      (readItems fuel [] (c :: tail)).map (fun (items, rest) => (.list items, rest)) := by
  rw [readValue, skipGap_cons rfl]
  simp only [hchars]
  split
  · simp_all
  · rfl

theorem readValue_record {c : Char} {chars tail : List Char} (hchars : skipGap chars = c :: tail)
    (hc : c ≠ '}') (fuel : Nat) :
    readValue (fuel + 1) ('{' :: chars) =
      (readFields fuel [] (c :: tail)).map (fun (fields, rest) => (.record fields, rest)) := by
  rw [readValue, skipGap_cons rfl]
  simp only [hchars]
  split
  · simp_all
  · rfl

theorem readsBack_list {items : List Data} (hexact : ∀ item ∈ items, item.Exact)
    (h : ∀ item ∈ items, ReadsBack item) : ReadsBack (.list items) := by
  intro level fuel rest hfuel hrest
  cases items with
  | nil =>
    obtain ⟨fuel, rfl⟩ : ∃ less, fuel = less + 1 := Nat.exists_eq_succ_of_ne_zero (by omega)
    rfl
  | cons item more =>
    rw [prettyChars_list (by simp)] at hfuel ⊢
    simp only [List.length_append, List.length_cons] at hfuel
    obtain ⟨fuel, rfl⟩ : ∃ less, fuel = less + 2 := Nat.exists_eq_add_of_le' (by omega)
    have hread := readItems_separated h (by simp) (level + 1) level fuel [] rest (by omega)
    -- the first character decides that the list is not empty
    obtain ⟨c, tail, hitem, hgap, hc⟩ :=
      (hexact item List.mem_cons_self).exists_cons (level + 1)
    obtain ⟨others, hothers⟩ := exists_separated (',' :: newline (level + 1))
      (prettyChars (level + 1) item) (more.map (prettyChars (level + 1)))
    rw [List.map_cons, hothers, hitem] at hread ⊢
    simp only [List.cons_append, List.append_assoc, List.nil_append] at hread ⊢
    rw [readValue_list (by rw [skipGap_newline, skipGap_cons hgap]) hc, hread]
    rfl

theorem readsBack_record {fields : List (String × Data)} (h : ∀ field ∈ fields, ReadsBack field.2) :
    ReadsBack (.record fields) := by
  intro level fuel rest hfuel hrest
  cases fields with
  | nil =>
    obtain ⟨fuel, rfl⟩ : ∃ less, fuel = less + 1 := Nat.exists_eq_succ_of_ne_zero (by omega)
    rfl
  | cons field more =>
    rw [prettyChars_record (by simp)] at hfuel ⊢
    simp only [List.length_append, List.length_cons] at hfuel
    obtain ⟨fuel, rfl⟩ : ∃ less, fuel = less + 2 := Nat.exists_eq_add_of_le' (by omega)
    have hread := readFields_separated h (by simp) (level + 1) level fuel [] rest (by omega)
    obtain ⟨others, hothers⟩ := exists_separated (',' :: newline (level + 1))
      (writeText field.1 ++ ':' :: ' ' :: prettyChars (level + 1) field.2)
      (more.map (fun field => writeText field.1 ++ ':' :: ' ' :: prettyChars (level + 1) field.2))
    rw [List.map_cons, hothers, writeText] at hread ⊢
    simp only [List.cons_append, List.append_assoc, List.nil_append] at hread ⊢
    rw [readValue_record (by rw [skipGap_newline, skipGap_cons rfl]) (by decide), hread]
    rfl

/-- **A written value reads back**, and the reader stands right behind it. -/
theorem Exact.readsBack {value : Data} (h : value.Exact) : value.ReadsBack := by
  induction h with
  | null =>
    intro level fuel rest hfuel hrest
    obtain ⟨fuel, rfl⟩ : ∃ less, fuel = less + 1 := Nat.exists_eq_succ_of_ne_zero (by omega)
    simp [prettyChars, readValue, skipGap, isGap, dropWord?]
  | bool value =>
    intro level fuel rest hfuel hrest
    obtain ⟨fuel, rfl⟩ : ∃ less, fuel = less + 1 := Nat.exists_eq_succ_of_ne_zero (by omega)
    cases value <;> simp [prettyChars, readValue, skipGap, isGap, dropWord?]
  | integer hlow hhigh => exact readsBack_integer hlow hhigh
  | text value =>
    intro level fuel rest hfuel hrest
    obtain ⟨fuel, rfl⟩ : ∃ less, fuel = less + 1 := Nat.exists_eq_succ_of_ne_zero (by omega)
    obtain ⟨tail, htail, hread⟩ := readString_writeText value rest
    rw [prettyChars, htail, readValue, skipGap_cons rfl]
    simp [hread]
  | list hexact ih => exact readsBack_list hexact ih
  | record hexact ih => exact readsBack_record ih

/-- **Text and value**: a value spread over lines reads back as itself. -/
theorem ofJson?_pretty {value : Data} (h : value.Exact) :
    ofJson? (value.pretty ++ "\n") = some value := by
  have hchars : (value.pretty ++ "\n").toList = prettyChars 0 value ++ ['\n'] := by
    simp [pretty]
  have hfuel : (prettyChars 0 value).length < (prettyChars 0 value ++ ['\n']).length + 1 := by
    rw [List.length_append]
    omega
  have hread := h.readsBack 0 _ ['\n'] hfuel (parted_newline 0 [])
  rw [ofJson?, hchars]
  simp only [hread]
  rfl

end Data

end Lineage
