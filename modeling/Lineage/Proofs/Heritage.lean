import Lineage.Proofs.Returns
import Lineage.Source.Classes
import Mathlib.Data.List.TakeWhile

/-!
# The names of an inheritance list

An inheritance list is cut at its commas first, and then each entry at its first parenthesis.  So a
list is read part by part (`splitHeritage_append`), and a base without a comma in its arguments
leaves its name and nothing else.  A comma in the arguments cuts them too: what follows it is read
as a further entry, which has the closing parenthesis in it and is never empty
(`splitHeritage_ne_nil`).

The main statement is `splitHeritage_join_written`: the names that are found are the names that are
written exactly if no argument has a comma in it, and otherwise the rests of the arguments are
found beside them (`arguments_among_interfaces`).
-/

namespace Lineage

/-! ### Words -/

namespace Text

variable {text : List Char}

/-- A blank parts the words before it from those after it. -/
theorem words_append_of_blank {c : Char} (hc : isBlank c = true) (text rest : List Char) :
    words (text ++ c :: rest) = words text ++ words rest := by
  simp only [words, pieces_append_of_pos hc, List.filter_append]

/-- A text of blanks has no words. -/
theorem words_eq_nil (h : ∀ c ∈ text, isBlank c = true) : words text = [] := by
  induction text with
  | nil => rfl
  | cons c rest ih =>
    have hsplit := words_append_of_blank (h c List.mem_cons_self) [] rest
    rw [List.nil_append] at hsplit
    rw [hsplit, ih (fun a ha => h a (List.mem_cons_of_mem c ha))]
    rfl

/-- A text without blanks is one word. -/
theorem words_eq_singleton (hne : text ≠ []) (h : ∀ c ∈ text, isBlank c = false) :
    words text = [text] := by
  rw [words, pieces_eq_singleton (fun c hc => by simp [h c hc])]
  simp [hne]

/-- Blanks in front of a text are in no word. -/
theorem words_blanks_append {lead : List Char} (h : ∀ c ∈ lead, isBlank c = true)
    (text : List Char) : words (lead ++ text) = words text := by
  induction lead with
  | nil => rfl
  | cons c lead ih =>
    have hsplit := words_append_of_blank (h c List.mem_cons_self) [] (lead ++ text)
    rw [List.nil_append] at hsplit
    rw [List.cons_append, hsplit, ih (fun a ha => h a (List.mem_cons_of_mem c ha))]
    rfl

/-- Blanks behind a text are in no word. -/
theorem words_append_blanks {trail : List Char} (h : ∀ c ∈ trail, isBlank c = true)
    (text : List Char) : words (text ++ trail) = words text := by
  cases trail with
  | nil => rw [List.append_nil]
  | cons c trail =>
    rw [words_append_of_blank (h c List.mem_cons_self),
      words_eq_nil (fun a ha => h a (List.mem_cons_of_mem c ha)), List.append_nil]

/-- A text with more than blanks has a word. -/
theorem words_ne_nil {c : Char} (h : c ∈ text) (hc : isBlank c = false) : words text ≠ [] := by
  obtain ⟨part, hpart, hmem⟩ := @exists_mem_pieces isBlank text c h (by simp [hc])
  apply List.ne_nil_of_mem (a := part)
  rw [words, List.mem_filter]
  exact ⟨hpart, by simp [List.ne_nil_of_mem hmem]⟩

theorem ne_nil_of_mem_words {word : List Char} (h : word ∈ words text) : word ≠ [] := by
  rw [words, List.mem_filter] at h
  simpa using h.2

theorem join_ne_nil {separator : List Char} {parts : List (List Char)} (hne : parts ≠ [])
    (h : ∀ part ∈ parts, part ≠ []) : join separator parts ≠ [] := by
  match parts, hne with
  | [part], _ => exact h part List.mem_cons_self
  | part :: next :: more, _ =>
    show part ++ separator ++ join separator (next :: more) ≠ []
    simp [h part List.mem_cons_self]

end Text

namespace Source

open Text

variable {text : List Char} {skipped : List String}

/-! ### Entries -/

theorem dropSkipped_ne_nil {words : List (List Char)} (h : words ≠ []) :
    dropSkipped skipped words ≠ [] := by
  fun_induction dropSkipped skipped words with
  | case1 word next rest hskip ih => exact ih (List.cons_ne_nil next rest)
  | case2 word next rest hskip => exact List.cons_ne_nil word _
  | case3 short => exact h

theorem mem_of_mem_dropSkipped {words : List (List Char)} {word : List Char}
    (h : word ∈ dropSkipped skipped words) : word ∈ words := by
  fun_induction dropSkipped skipped words with
  | case1 first next rest hskip ih => exact List.mem_cons_of_mem first (ih h)
  | case2 first next rest hskip => exact h
  | case3 short => exact h

/-- An entry with more than blanks before its first parenthesis is not empty. -/
theorem heritageEntry_ne_nil {c : Char} (h : c ∈ text.takeWhile (· != '('))
    (hc : isBlank c = false) : heritageEntry skipped text ≠ [] := by
  apply join_ne_nil
  · exact dropSkipped_ne_nil (words_ne_nil h hc)
  · intro word hword
    exact ne_nil_of_mem_words (mem_of_mem_dropSkipped hword)

/-- A single word between blanks is read as it is, up to a parenthesis. -/
theorem heritageEntry_of_word {lead name trail rest : List Char}
    (hlead : ∀ c ∈ lead, isBlank c = true) (htrail : ∀ c ∈ trail, isBlank c = true)
    (hne : name ≠ []) (hname : ∀ c ∈ name, isBlank c = false ∧ c ≠ '(')
    (hrest : rest.head?.all (· == '(') = true) :
    heritageEntry skipped (lead ++ name ++ trail ++ rest) = name := by
  have hblank : ∀ c, isBlank c = true → c ≠ '(' := by
    rintro c hc rfl
    exact absurd hc (by decide)
  have hkept : (lead ++ name ++ trail ++ rest).takeWhile (· != '(') = lead ++ name ++ trail := by
    have hall : ∀ c ∈ lead ++ name ++ trail, (c != '(') = true := by
      intro c hc
      rw [List.mem_append, List.mem_append] at hc
      rw [bne_iff_ne]
      rcases hc with (hc | hc) | hc
      · exact hblank c (hlead c hc)
      · exact (hname c hc).2
      · exact hblank c (htrail c hc)
    have hstop : rest.takeWhile (· != '(') = [] := by
      cases rest with
      | nil => rfl
      | cons c rest =>
        have hc : c = '(' := by simpa using hrest
        rw [hc]
        rfl
    rw [List.takeWhile_append_of_pos hall, hstop, List.append_nil]
  unfold heritageEntry
  dsimp only
  rw [hkept, words_append_blanks htrail, words_blanks_append hlead,
    words_eq_singleton hne (fun c hc => (hname c hc).1)]
  rfl

/-! ### Lists -/

/-- A list is read part by part. -/
theorem splitHeritage_append (text rest : List Char) (skipped : List String) :
    splitHeritage (text ++ ',' :: rest) skipped =
      splitHeritage text skipped ++ splitHeritage rest skipped := by
  have hpieces : pieces (· == ',') (text ++ ',' :: rest) =
      pieces (· == ',') text ++ pieces (· == ',') rest := pieces_append_of_pos rfl text rest
  simp only [splitHeritage, hpieces, List.map_append, List.filter_append]

theorem splitHeritage_join (parts : List (List Char)) (skipped : List String) :
    splitHeritage (join [','] parts) skipped =
      parts.flatMap (fun part => splitHeritage part skipped) := by
  induction parts with
  | nil => rfl
  | cons part parts ih =>
    cases parts with
    | nil => simp [join]
    | cons next more =>
      show splitHeritage (part ++ [','] ++ join [','] (next :: more)) skipped = _
      rw [List.append_assoc, List.singleton_append, splitHeritage_append, ih]
      rfl

/-- A part without commas is one entry. -/
theorem splitHeritage_eq_singleton (hcomma : ',' ∉ text) {name : List Char} (hne : name ≠ [])
    (h : heritageEntry skipped text = name) :
    splitHeritage text skipped = [String.ofList name] := by
  have hcut : ∀ c ∈ text, ¬ (c == ',') = true := by
    intro c hc heq
    exact hcomma (beq_iff_eq.1 heq ▸ hc)
  simp [splitHeritage, pieces_eq_singleton hcut, h, hne]

/-- A list without parentheses and with more than blanks and commas has an entry. -/
theorem splitHeritage_ne_nil (hopen : '(' ∉ text) {c : Char} (h : c ∈ text) (hcomma : c ≠ ',')
    (hblank : isBlank c = false) : splitHeritage text skipped ≠ [] := by
  obtain ⟨part, hpart, hmem⟩ := @exists_mem_pieces (· == ',') text c h (by simpa using hcomma)
  have hkept : c ∈ part.takeWhile (· != '(') := by
    have hopen' : ∀ a ∈ part, (a != '(') = true := by
      intro a ha
      rw [bne_iff_ne]
      rintro rfl
      exact hopen ((isInfix_of_mem_pieces hpart).subset ha)
    have hall : (part ++ []).takeWhile (· != '(') = part ++ [].takeWhile (· != '(') :=
      List.takeWhile_append_of_pos hopen'
    rw [List.append_nil, List.takeWhile_nil, List.append_nil] at hall
    rw [hall]
    exact hmem
  apply List.ne_nil_of_mem (a := String.ofList (heritageEntry skipped part))
  unfold splitHeritage
  apply List.mem_map_of_mem
  rw [List.mem_filter]
  refine ⟨List.mem_map_of_mem hpart, ?_⟩
  have hentry : heritageEntry skipped part ≠ [] := heritageEntry_ne_nil hkept hblank
  simp [hentry]

/-! ### Bases as they are written -/

/-- A base of an inheritance list as it is written: a name, perhaps with arguments in parentheses,
and blanks around both. -/
structure WrittenBase where
  lead : List Char := []
  name : List Char
  gap : List Char := []
  arguments : Option (List Char) := none
  trail : List Char := []
  blank_lead : lead.all isBlank = true := by decide
  blank_gap : gap.all isBlank = true := by decide
  blank_trail : trail.all isBlank = true := by decide
  name_ne_nil : name ≠ [] := by decide
  plain_name : name.all (fun c => !isBlank c && Pattern.noneOf ",()" c) = true := by decide
  plain_arguments : arguments.all (·.all (Pattern.noneOf "()")) = true := by decide

namespace WrittenBase

/-- The text of a base. -/
def written (b : WrittenBase) : List Char :=
  b.lead ++ b.name ++
    match b.arguments with
    | none => b.trail
    | some a => b.gap ++ '(' :: (a ++ ')' :: b.trail)

/-- What stands behind the first comma of the arguments, if there is one. -/
def spill (b : WrittenBase) : List Char :=
  match b.arguments with
  | none => []
  | some a =>
    match a.dropWhile (· != ',') with
    | [] => []
    | _ :: rest => rest ++ ')' :: b.trail

variable (b : WrittenBase) {a rest : List Char}

theorem spill_of_not_mem (h : ∀ a ∈ b.arguments, ',' ∉ a) : b.spill = [] := by
  unfold spill
  cases harguments : b.arguments with
  | none => rfl
  | some a =>
    have hnil : a.dropWhile (· != ',') = [] := by
      rw [List.dropWhile_eq_nil_iff]
      intro c hc
      rw [bne_iff_ne]
      rintro rfl
      exact h a harguments hc
    simp only [hnil]

theorem spill_of_append (harguments : b.arguments = some (a ++ ',' :: rest)) (h : ',' ∉ a) :
    b.spill = rest ++ ')' :: b.trail := by
  have hdrop : (a ++ ',' :: rest).dropWhile (· != ',') = ',' :: rest := by
    have hall : ∀ c ∈ a, (c != ',') = true := by
      intro c hc
      rw [bne_iff_ne]
      rintro rfl
      exact h hc
    rw [List.dropWhile_append_of_pos hall]
    rfl
  unfold spill
  simp only [harguments, hdrop]

theorem plain_of_mem_name {c : Char} (hc : c ∈ b.name) :
    isBlank c = false ∧ c ≠ ',' ∧ c ≠ '(' := by
  have hplain := List.all_eq_true.1 b.plain_name c hc
  simp only [Pattern.noneOf, Bool.and_eq_true, Bool.not_eq_true'] at hplain
  refine ⟨hplain.1, ?_, ?_⟩
  · rintro rfl
    exact absurd hplain.2 (by decide)
  · rintro rfl
    exact absurd hplain.2 (by decide)

theorem opening_not_mem_arguments (ha : b.arguments = some a) : '(' ∉ a := by
  intro hmem
  have hplain := b.plain_arguments
  rw [ha, Option.all_some] at hplain
  exact absurd (List.all_eq_true.1 hplain '(' hmem) (by decide)

/-- Blanks are nothing else. -/
theorem not_mem_of_blank (h : a.all isBlank = true) {c : Char} (hc : isBlank c = false) :
    c ∉ a := by
  intro hmem
  rw [List.all_eq_true.1 h c hmem] at hc
  cases hc

/-- An entry that starts with the name leaves the name. -/
theorem splitHeritage_front {blanks : List Char} (skipped : List String)
    (hblanks : blanks.all isBlank = true) (hcomma : ',' ∉ rest)
    (hrest : rest.head?.all (· == '(') = true) :
    splitHeritage (b.lead ++ b.name ++ blanks ++ rest) skipped = [String.ofList b.name] := by
  have hname : ∀ c ∈ b.name, isBlank c = false ∧ c ≠ '(' := fun c hc =>
    ⟨(b.plain_of_mem_name hc).1, (b.plain_of_mem_name hc).2.2⟩
  have hfront : ',' ∉ b.lead ++ b.name ++ blanks ++ rest := by
    simp only [List.mem_append, not_or]
    refine ⟨⟨⟨not_mem_of_blank b.blank_lead rfl, fun h => ?_⟩,
      not_mem_of_blank hblanks rfl⟩, hcomma⟩
    exact (b.plain_of_mem_name h).2.1 rfl
  apply splitHeritage_eq_singleton hfront b.name_ne_nil
  exact heritageEntry_of_word (List.all_eq_true.1 b.blank_lead) (List.all_eq_true.1 hblanks)
    b.name_ne_nil hname hrest

/-- A base leaves its name and the entries behind the first comma of its arguments. -/
theorem splitHeritage_written (skipped : List String) :
    splitHeritage b.written skipped =
      String.ofList b.name :: splitHeritage b.spill skipped := by
  have htrail : ',' ∉ b.trail := not_mem_of_blank b.blank_trail rfl
  cases harguments : b.arguments with
  | none =>
    have hwritten : b.written = b.lead ++ b.name ++ b.trail ++ [] := by
      simp [written, harguments]
    have hspill : b.spill = [] := b.spill_of_not_mem (by simp [harguments])
    rw [hwritten, b.splitHeritage_front skipped b.blank_trail (by simp) rfl, hspill]
    rfl
  | some a =>
    have hwritten : b.written = b.lead ++ b.name ++ b.gap ++ '(' :: (a ++ ')' :: b.trail) := by
      simp [written, harguments]
    by_cases hcomma : ',' ∈ a
    · -- the comma cuts the arguments, and the entry before it ends at the parenthesis
      obtain ⟨first, rest, rfl, hfirst⟩ := List.eq_append_cons_of_mem hcomma
      have hcut : b.written =
          (b.lead ++ b.name ++ b.gap ++ '(' :: first) ++ ',' :: (rest ++ ')' :: b.trail) := by
        simp [hwritten]
      have hopen : ',' ∉ '(' :: first := by simpa using hfirst
      rw [hcut, splitHeritage_append, b.splitHeritage_front skipped b.blank_gap hopen rfl,
        b.spill_of_append harguments hfirst]
      rfl
    · have hopen : ',' ∉ '(' :: (a ++ ')' :: b.trail) := by simp [hcomma, htrail]
      have hspill : b.spill = [] := b.spill_of_not_mem (by simpa [harguments] using hcomma)
      rw [hwritten, b.splitHeritage_front skipped b.blank_gap hopen rfl, hspill]
      rfl

/-- Arguments with a comma always leave an entry, since the closing parenthesis is in it. -/
theorem splitHeritage_spill_eq_nil_iff (skipped : List String) :
    splitHeritage b.spill skipped = [] ↔ ∀ a ∈ b.arguments, ',' ∉ a := by
  refine ⟨fun hnil a ha hcomma => ?_, fun h => ?_⟩
  · obtain ⟨first, rest, rfl, hfirst⟩ := List.eq_append_cons_of_mem hcomma
    rw [b.spill_of_append ha hfirst] at hnil
    have hopen : '(' ∉ rest ++ ')' :: b.trail := by
      simp only [List.mem_append, List.mem_cons, not_or]
      refine ⟨fun h => ?_, by decide, not_mem_of_blank b.blank_trail rfl⟩
      exact b.opening_not_mem_arguments ha (by simp [h])
    have hclose : ')' ∈ rest ++ ')' :: b.trail := by simp
    exact splitHeritage_ne_nil hopen hclose (by decide) (by decide) hnil
  · rw [b.spill_of_not_mem h]
    rfl

end WrittenBase

section Found

variable {α β : Type} {f : α → β} {g : α → List β} {l : List α}

theorem length_le_flatMap_cons : l.length ≤ (l.flatMap (fun a => f a :: g a)).length := by
  induction l with
  | nil => exact Nat.le_refl 0
  | cons a l ih =>
    rw [List.flatMap_cons, List.length_append, List.length_cons, List.length_cons]
    omega

/-- Lists that each start with a name hold the names alone exactly if they hold nothing else. -/
theorem flatMap_cons_eq_map_iff :
    l.flatMap (fun a => f a :: g a) = l.map f ↔ ∀ a ∈ l, g a = [] := by
  induction l with
  | nil => simp
  | cons a l ih =>
    rw [List.flatMap_cons, List.map_cons, List.cons_append, List.cons.injEq, List.forall_mem_cons,
      ← ih]
    refine ⟨fun ⟨_, h⟩ => ?_, fun ⟨hnil, h⟩ => ⟨rfl, by rw [hnil, h, List.nil_append]⟩⟩
    -- the rest is as long as there are names, so it has no room for more
    have hlength := congrArg List.length h
    have hle := length_le_flatMap_cons (f := f) (g := g) (l := l)
    rw [List.length_append, List.length_map] at hlength
    have hnil : g a = [] := List.eq_nil_of_length_eq_zero (by omega)
    rw [hnil, List.nil_append] at h
    exact ⟨hnil, h⟩

end Found

/-- The base and the interfaces are the names of the list, in order. -/
theorem toList_base_append_interfaces (names : List String) (marksInterfaces : Bool) :
    (assignBases names marksInterfaces).base.toList ++
      (assignBases names marksInterfaces).interfaces = names := by
  unfold assignBases
  cases names with
  | nil => rfl
  | cons first rest =>
    dsimp only
    split_ifs <;> rfl

/-- **The names of a list are found without its arguments exactly if no argument has a comma in
it.**  Otherwise the arguments behind the commas are found beside the names, and they end up with
them as the base and the interfaces. -/
theorem splitHeritage_join_written (bases : List WrittenBase) (skipped : List String) :
    let names := bases.map (fun b => String.ofList b.name)
    let found := splitHeritage (join [','] (bases.map WrittenBase.written)) skipped
    found = bases.flatMap (fun b => String.ofList b.name :: splitHeritage b.spill skipped) ∧
      (found = names ↔ ∀ b ∈ bases, ∀ a ∈ b.arguments, ',' ∉ a) ∧
      ∀ marksInterfaces,
        (assignBases found marksInterfaces).base.toList ++
          (assignBases found marksInterfaces).interfaces = found := by
  intro names found
  have hfound : found =
      bases.flatMap (fun b => String.ofList b.name :: splitHeritage b.spill skipped) := by
    show splitHeritage (join [','] (bases.map WrittenBase.written)) skipped = _
    rw [splitHeritage_join, List.flatMap_map]
    simp only [WrittenBase.splitHeritage_written]
  refine ⟨hfound, ?_, toList_base_append_interfaces found⟩
  rw [hfound]
  show bases.flatMap _ = bases.map _ ↔ _
  rw [flatMap_cons_eq_map_iff]
  simp only [WrittenBase.splitHeritage_spill_eq_nil_iff]

/-- The second argument of the base of a record is found among the interfaces. -/
theorem arguments_among_interfaces :
    let base : WrittenBase := { name := "Person".toList, arguments := some "Name, Age".toList }
    let other : WrittenBase := { lead := [' '], name := "IThing".toList }
    join [','] [base.written, other.written] = "Person(Name, Age), IThing".toList ∧
      splitHeritage "Person(Name, Age), IThing".toList [] = ["Person", "Age)", "IThing"] ∧
      (classes .csharp "a.cs"
          "record Student(string Name, int Age) : Person(Name, Age), IThing;").map
        (fun d => (d.base, d.interfaces)) = [(some "Person", ["Age)", "IThing"])] := by
  decide +kernel

end Source

end Lineage
