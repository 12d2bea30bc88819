import Lineage.Proofs.Twins
import Mathlib.Data.Bool.AllAny

/-!
# Classes and line comments

Comments are not taken out of a text before headers are looked for.  A match that starts in a
comment is discarded, but it may have swallowed the header after it, and a comment inside a header
can hide its class.  If a line comment leaves the headers and the namespaces around it readable, and
where it matters the pure virtual methods, it changes nothing but numbers of lines and methods:
`classes_comment`.

Only matches near the comment are compared, those between two places that no match goes on over
(`Frame`); all others are moved (`matchesIn_insert`).  So each header that declares a class has a
twin (`KeepsHeaders.twins`), twins have the same scope (`KeepsScopes.scopeAt_eq`), and their bodies
hold the same signs (`Sign.occursIn_body`).
-/

namespace Lineage.Source

open Pattern

variable {before comment after : List Char} {i : Nat}

/-! ### What a comment may not change -/

/-- Whether a match starts in the comment after the text `before`. -/
def commented (before comment : List Char) (found : Match) : Bool :=
  before.length + 2 ≤ found.start && found.start ≤ before.length + (lineComment comment).length

/-- Between two places that no header goes on over, the class headers are read alike with and
without the comment, but for those that start in it. -/
structure KeepsHeaders (grammar : Grammar) (before comment after : List Char)
    (left right : Nat) : Prop where
  plain : grammar.header.Frame before [] after left right
  frame : grammar.header.Frame before (lineComment comment) after left right
  alike : List.Forall₂
    (grammar.ReadAlike (past before.length (lineComment comment).length)
      (joinLines before [] after))
    ((grammar.header.framed before [] after left right).filter grammar.declares)
    ((grammar.header.framed before (lineComment comment) after left right).filter
      (fun found => grammar.declares found && !commented before comment found))

/-- Whether a class header stands in the namespace that a match opens. -/
def Grammar.holdsClass (grammar : Grammar) (text : List Char) (found : Match) : Bool :=
  (found.get? .opening).any (fun opening =>
    let stop := if opening.chars == ['{'] then blockEnd text opening.start else text.length
    (headers grammar text).any (fun x => opening.start < x.1.start && x.1.start < stop))

/-- Between two places that no namespace pattern goes on over, the namespaces with classes are alike
with and without the comment, but for those that start in it. -/
structure KeepsScopes (grammar : Grammar) (before comment after : List Char)
    (left right : Nat) : Prop where
  plain : grammar.enclosure.Frame before [] after left right
  frame : grammar.enclosure.Frame before (lineComment comment) after left right
  alike : List.Forall₂ (OpensAlike (past before.length (lineComment comment).length))
    ((grammar.enclosure.framed before [] after left right).filter
      (grammar.holdsClass (joinLines before [] after)))
    ((grammar.enclosure.framed before (lineComment comment) after left right).filter
      (fun found => grammar.holdsClass (joinLines before (lineComment comment) after) found &&
        !commented before comment found))

/-- The patterns that are looked for in the body of a class. -/
def bodySigns : Language → List Pattern
  | .cpp => [Grammar.cppPureVirtual]
  | _ => []

/-- The comment makes and breaks no match of a sign, or each class around it has another one. -/
def KeepsSign (grammar : Grammar) (before comment after : List Char) (sign : Pattern) : Prop :=
  (sign.Meets before (lineComment comment) after ↔ sign.Meets before [] after) ∨
    ∀ x ∈ headers grammar (joinLines before [] after),
      x.2.start ≤ before.length → before.length < x.2.stop →
        sign.occursIn (before.drop x.2.start) = true ∨
        sign.occursIn (after.take (x.2.stop - (before.length + 1))) = true

/-- A comment that leaves all that is read around it as it is. -/
structure Harmless (language : Language) (grammar : Grammar) (before comment after : List Char) :
    Prop where
  headers : ∃ left right, KeepsHeaders grammar before comment after left right
  scopes : ∃ left right, KeepsScopes grammar before comment after left right
  signs : ∀ sign ∈ bodySigns language, KeepsSign grammar before comment after sign

/-! ### What the grammars read -/

theorem reads_of_grammar? {language : Language} {grammar : Grammar}
    (h : grammar? language = some grammar) : grammar.Reads (bodySigns language) := by
  cases language with
  | csharp =>
    obtain rfl := Option.some.inj h
    refine ⟨fun hchars => listedHeritage_congr hchars _ _, fun hchars => ?_, fun _ => rfl⟩
    unfold Grammar.csharp
    dsimp only
    rw [modifierWords_congr hchars]
  | java =>
    obtain rfl := Option.some.inj h
    refine ⟨fun hchars => javaHeritage_congr hchars, fun hchars => ?_, fun _ => rfl⟩
    unfold Grammar.java
    dsimp only
    rw [modifierWords_congr hchars]
  | cpp =>
    obtain rfl := Option.some.inj h
    refine ⟨fun hchars => listedHeritage_congr hchars _ _,
      fun {found found'} hchars => ?_, fun hinside => ?_⟩
    · have hfinal : (found'.get? .final).isSome = (found.get? .final).isSome := by
        rw [← Option.isSome_map, hchars .final, Option.isSome_map]
      unfold Grammar.cpp
      dsimp only
      rw [hfinal]
    · unfold Grammar.cpp
      dsimp only
      rw [hinside _ List.mem_cons_self]
  | python => cases h

/-- A pattern whose routes do not overlap and have no braces. -/
structure Sign (p : Pattern) : Prop where
  delimited : p.Delimited
  plain : p.avoids '{' = true ∧ p.avoids '}' = true

theorem sign_of_mem_bodySigns {language : Language} {p : Pattern} (h : p ∈ bodySigns language) :
    Sign p := by
  cases language with
  | cpp =>
    obtain rfl := List.mem_singleton.1 h
    exact ⟨⟨rfl, ⟨')', _, rfl, by decide +kernel⟩, ⟨';', by decide +kernel, rfl⟩⟩,
      by decide +kernel⟩
  | csharp | java | python => cases h

/-! ### Signs in bodies -/

section Signs

variable {added : List Char} {sign : Pattern} {start stop : Nat}

/-- A route of a sign that meets the end of a line in a block lies in the block. -/
theorem Sign.inside (hsign : Sign sign) (hblock : IsBlock (joinLines before added after) start stop)
    (hstart : start < before.length) (hstop : before.length + added.length < stop) {r : Route}
    (hr : r ∈ sign.routes (joinLines before added after) i) (hi : i ≤ before.length + added.length)
    (hmeets : before.length < r.stop) : start ≤ i ∧ r.stop ≤ stop := by
  have hfits := fits_of_mem_routes sign i r hr
  have hle := hfits.le_stop
  have hend := hfits.stop_le (by rw [length_joinLines]; omega)
  have hplain : ∀ c ∈ slice (joinLines before added after) i r.stop, c ≠ '{' ∧ c ≠ '}' := by
    intro c hc
    obtain ⟨k, hik, hk, hget⟩ := getElem?_of_mem_slice hc
    constructor
    · rintro rfl
      exact ne_of_avoids hsign.plain.1 i r hr k hik hk hget
    · rintro rfl
      exact ne_of_avoids hsign.plain.2 i r hr k hik hk hget
  obtain ⟨hout, hout'⟩ := hblock.around_part hplain (k := max i before.length)
    (Nat.le_max_left _ _) (by omega) (by omega) (by omega)
  omega

/-- A sign occurs in a block around the end of a line if it occurs before it, after it, or if it
meets it. -/
theorem Sign.occursIn_block (hsign : Sign sign)
    (hblock : IsBlock (joinLines before added after) start stop)
    (hstart : start < before.length) (hstop : before.length + added.length < stop) :
    sign.occursIn (slice (joinLines before added after) start stop) = true ↔
      sign.occursIn (before.drop start) = true ∨
      sign.occursIn (after.take (stop - (before.length + added.length + 1))) = true ∨
      sign.Meets before added after := by
  rw [slice, occursIn_joinLines_iff hsign.delimited.free (Nat.le_of_lt hstart) hstop hblock.stop_le,
    hsign.delimited.meets_iff]
  refine or_congr_right (or_congr_right ?_)
  constructor
  · rintro ⟨i, r, hr, _, _, hi, hmeets⟩
    exact ⟨i, r, hr, hi, hmeets⟩
  · rintro ⟨i, r, hr, hi, hmeets⟩
    obtain ⟨hle, hle'⟩ := hsign.inside hblock hstart hstop hr hi hmeets
    exact ⟨i, r, hr, hle, hle', hi, hmeets⟩

/-- The same bodies hold a sign with and without the comment. -/
theorem Sign.occursIn_body {grammar : Grammar} (hsign : Sign sign)
    (hkeeps : KeepsSign grammar before comment after sign) {x : Match × Stretch}
    (hx : x ∈ headers grammar (joinLines before [] after)) (hle : x.2.start ≤ x.2.stop)
    (hblock : x.2.start ≤ before.length → before.length < x.2.stop → x.2.start < before.length ∧
      IsBlock (joinLines before [] after) x.2.start x.2.stop ∧
      IsBlock (joinLines before (lineComment comment) after) x.2.start
        (x.2.stop + (lineComment comment).length)) :
    sign.occursIn (slice (joinLines before (lineComment comment) after)
        (past before.length (lineComment comment).length x.2.start)
        (past before.length (lineComment comment).length x.2.stop)) =
      sign.occursIn (slice (joinLines before [] after) x.2.start x.2.stop) := by
  by_cases haside : x.2.stop ≤ before.length ∨ before.length < x.2.start
  · rw [slice, slice, part_past _ hle haside]
  · rw [not_or, Nat.not_le, Nat.not_lt] at haside
    obtain ⟨hstart, hplain, hlong⟩ := hblock haside.2 haside.1
    have hrest : x.2.stop + (lineComment comment).length -
        (before.length + (lineComment comment).length + 1) = x.2.stop - (before.length + 1) := by
      omega
    rw [past_of_le _ haside.2, past_of_lt _ haside.1, Bool.eq_iff_iff,
      hsign.occursIn_block hlong hstart (by omega), hsign.occursIn_block hplain hstart haside.1,
      hrest, List.length_nil, Nat.add_zero]
    rcases hkeeps with hmeets | hother
    · rw [hmeets]
    · rcases hother x hx haside.2 haside.1 with hfront | hback
      · simp only [hfront, true_or]
      · simp only [hback, true_or, or_true]

end Signs

/-! ### Texts with a comment and without it -/

section Comment

variable {grammar : Grammar} {found found' : Match} {left right : Nat}

theorem commented_eq_false_of_past {k : Nat}
    (h : found.start = past before.length (lineComment comment).length k) :
    commented before comment found = false := by
  rw [commented, h, Bool.and_eq_false_iff, decide_eq_false_iff_not, decide_eq_false_iff_not]
  unfold past
  split_ifs <;> omega

/-- A match that does not start in the comment is not in one. -/
theorem Remark.inComment_of_not_commented (h : Remark before comment after)
    (hfound : commented before comment found = false) :
    inComment ((joinLines before (lineComment comment) after).take found.start) = false := by
  rw [← Bool.not_eq_true, h.inComment_iff]
  rintro ⟨hle, hle'⟩
  rw [commented, decide_eq_true hle, decide_eq_true hle'] at hfound
  cases hfound

/-- A match that starts in the comment is in one. -/
theorem Remark.inComment_of_commented (h : Remark before comment after)
    (hfound : commented before comment found = true) :
    inComment ((joinLines before (lineComment comment) after).take found.start) = true := by
  rw [commented, Bool.and_eq_true, decide_eq_true_eq, decide_eq_true_eq] at hfound
  exact (h.inComment_iff _).2 hfound

theorem readAlike_filter_of_moved {inside : List Pattern} (hreads : grammar.Reads inside)
    (text : List Char) {text' : List Char} {l l' : List Match}
    (h : List.Forall₂
      (Match.Moved (past before.length (lineComment comment).length) text') l l') :
    List.Forall₂ (grammar.ReadAlike (past before.length (lineComment comment).length) text)
      (l.filter grammar.declares)
      (l'.filter (fun found => grammar.declares found && !commented before comment found)) := by
  refine (List.rel_filter (fun found found' hfound => ?_) h).imp
    (fun found found' hfound => readAlike_of_moved hfound hreads text)
  dsimp only
  rw [declares_of_moved hfound, commented_eq_false_of_past hfound.start, Bool.not_false,
    Bool.and_true]

/-- **The headers that declare a class are twins**, but for those that start in the comment. -/
theorem KeepsHeaders.twins {inside : List Pattern} (hreads : grammar.Reads inside)
    (hremark : Remark before comment after)
    (hkeeps : KeepsHeaders grammar before comment after left right) :
    let text := joinLines before [] after
    let text' := joinLines before (lineComment comment) after
    List.Forall₂ (grammar.Twins (past before.length (lineComment comment).length) text text')
      ((grammar.header.matchesIn text).filter grammar.declares)
      ((grammar.header.matchesIn text').filter
        (fun found => grammar.declares found && !commented before comment found)) := by
  intro text text'
  obtain ⟨first, first', last, last', hplain, hlong, hfirst, hlast⟩ :=
    matchesIn_insert (not_isWord_lineComment comment) hkeeps.frame hkeeps.plain
  have halike : List.Forall₂
      (grammar.ReadAlike (past before.length (lineComment comment).length) text)
      ((grammar.header.matchesIn text).filter grammar.declares)
      ((grammar.header.matchesIn text').filter
        (fun found => grammar.declares found && !commented before comment found)) := by
    rw [hplain, hlong, List.filter_append, List.filter_append, List.filter_append,
      List.filter_append]
    exact List.rel_append (readAlike_filter_of_moved hreads text hfirst)
      (List.rel_append hkeeps.alike (readAlike_filter_of_moved hreads text hlast))
  refine forall₂_imp_of_mem halike (fun found hfound found' hfound' h => ?_)
  rw [List.mem_filter] at hfound hfound'
  rw [Bool.and_eq_true, Bool.not_eq_true'] at hfound'
  refine ⟨h, hfound.1, hfound'.1, ?_⟩
  exact body?_alike (carries_past hremark.plain before after) h.toOpensAlike hfound.2 hfound'.2.1
    (hremark.inComment_eq_false _) (hremark.inComment_of_not_commented hfound'.2.2)

/-! ### Namespaces around a header -/

/-- A namespace around a class header holds a class. -/
theorem holdsClass_of_surrounds {text : List Char} {x : Match × Stretch}
    (hx : x ∈ headers grammar text) {s : Stretch} (hs : enclosure? text found = some s)
    (hsurrounds : s.surrounds x.1.start = true) :
    grammar.holdsClass text found = true ∧ inComment (text.take found.start) = false := by
  unfold enclosure? at hs
  simp only [Option.bind_eq_bind, Option.bind_eq_some_iff] at hs
  obtain ⟨name, _, opening, hopening, hs⟩ := hs
  split at hs
  · cases hs
  · rename_i hshown
    obtain rfl := Option.some.inj hs
    refine ⟨?_, by simpa using hshown⟩
    rw [Grammar.holdsClass, hopening, Option.any_some]
    exact List.any_eq_true.2 ⟨x, hx, hsurrounds⟩

/-- Namespaces that open alike are around a header and around its twin. -/
theorem around_twins (hopens : grammar.Opens) (hremark : Remark before comment after)
    {body : Stretch}
    (htwins : grammar.Twins (past before.length (lineComment comment).length)
      (joinLines before [] after) (joinLines before (lineComment comment) after) found found')
    (hbody : body? grammar (joinLines before [] after) found = some body)
    {founds founds' : List Match}
    (hmem : ∀ m ∈ founds, m ∈ grammar.enclosure.matchesIn (joinLines before [] after))
    (h : List.Forall₂ (fun m m' =>
      OpensAlike (past before.length (lineComment comment).length) m m' ∧
        commented before comment m' = false) founds founds') :
    (founds'.filterMap (enclosure? (joinLines before (lineComment comment) after))).filter
        (·.surrounds found'.start) =
      ((founds.filterMap (enclosure? (joinLines before [] after))).filter
        (·.surrounds found.start)).map
          (Stretch.move (past before.length (lineComment comment).length)) := by
  have hcarries := carries_past hremark.plain before after
  refine around_move (h.imp (fun m m' hm => ?_)) (fun m hm s hs => ?_)
  · exact enclosure?_alike hcarries hm.1 (hremark.inComment_eq_false _)
      (hremark.inComment_of_not_commented hm.2)
  · exact htwins.surrounds hcarries hopens hbody (opened_of_enclosure? hopens (hmem m hm) hs)

/-- Of the namespaces in the frame, those around a header are alike. -/
theorem KeepsScopes.around_framed (hopens : grammar.Opens) (hremark : Remark before comment after)
    (hkeeps : KeepsScopes grammar before comment after left right) {body : Stretch}
    (htwins : grammar.Twins (past before.length (lineComment comment).length)
      (joinLines before [] after) (joinLines before (lineComment comment) after) found found')
    (hbody : body? grammar (joinLines before [] after) found = some body) :
    ((grammar.enclosure.framed before (lineComment comment) after left right).filterMap
        (enclosure? (joinLines before (lineComment comment) after))).filter
          (·.surrounds found'.start) =
      (((grammar.enclosure.framed before [] after left right).filterMap
        (enclosure? (joinLines before [] after))).filter (·.surrounds found.start)).map
          (Stretch.move (past before.length (lineComment comment).length)) := by
  obtain ⟨hx, hx'⟩ := htwins.mem_headers hbody
  have hkept := around_twins hopens hremark htwins hbody
    (fun m hm => mem_of_mem_framed (List.mem_of_mem_filter hm))
    (forall₂_imp_of_mem hkeeps.alike (fun m _ m' hm' h => ⟨h, by
      rw [List.mem_filter, Bool.and_eq_true, Bool.not_eq_true'] at hm'
      exact hm'.2.2⟩))
  -- a namespace around a header holds a class, and it does not start in the comment
  have hkeep : ∀ m ∈ grammar.enclosure.framed before (lineComment comment) after left right,
      ∀ s, enclosure? (joinLines before (lineComment comment) after) m = some s →
        s.surrounds found'.start = true →
        (grammar.holdsClass (joinLines before (lineComment comment) after) m &&
          !commented before comment m) = true := by
    intro m _ s hs hsurrounds
    obtain ⟨hholds, hshown⟩ := holdsClass_of_surrounds hx' hs hsurrounds
    rw [hholds, Bool.true_and, Bool.not_eq_true', ← Bool.not_eq_true]
    intro hcommented
    rw [hremark.inComment_of_commented hcommented] at hshown
    cases hshown
  rwa [around_filter (fun m _ s hs hsurrounds => (holdsClass_of_surrounds hx hs hsurrounds).1),
    around_filter hkeep] at hkept

/-- **Twins have the same scope.** -/
theorem KeepsScopes.scopeAt_eq (hopens : grammar.Opens) (hremark : Remark before comment after)
    (hkeeps : KeepsScopes grammar before comment after left right) {body : Stretch}
    (htwins : grammar.Twins (past before.length (lineComment comment).length)
      (joinLines before [] after) (joinLines before (lineComment comment) after) found found')
    (hbody : body? grammar (joinLines before [] after) found = some body) :
    scopeAt (enclosures grammar (joinLines before (lineComment comment) after)) found'.start =
      scopeAt (enclosures grammar (joinLines before [] after)) found.start := by
  obtain ⟨first, first', last, last', hplain, hlong, hfirst, hlast⟩ :=
    matchesIn_insert (not_isWord_lineComment comment) hkeeps.frame hkeeps.plain
  have hmem : ∀ m ∈ first ++ (grammar.enclosure.framed before [] after left right ++ last),
      m ∈ grammar.enclosure.matchesIn (joinLines before [] after) := by
    rw [hplain]
    exact fun m hm => hm
  simp only [List.forall_mem_append] at hmem
  have hmoved : ∀ {m m' : Match}, m.Moved (past before.length (lineComment comment).length)
      (joinLines before (lineComment comment) after) m' →
        OpensAlike (past before.length (lineComment comment).length) m m' ∧
          commented before comment m' = false :=
    fun hm => ⟨opensAlike_of_moved hm, commented_eq_false_of_past hm.start⟩
  refine scopeAt_of_filter (f := past before.length (lineComment comment).length) ?_
  unfold enclosures
  rw [hplain, hlong]
  simp only [List.filterMap_append, List.filter_append, List.map_append]
  rw [around_twins hopens hremark htwins hbody hmem.1 (hfirst.imp fun _ _ => hmoved),
    hkeeps.around_framed hopens hremark htwins hbody,
    around_twins hopens hremark htwins hbody hmem.2.2 (hlast.imp fun _ _ => hmoved)]

/-! ### Classes -/

/-- A body around the end of the line is a block, with and without the comment. -/
theorem isBlock_of_around (hopens : grammar.Opens) {body : Stretch}
    (htwins : grammar.Twins (past before.length (lineComment comment).length)
      (joinLines before [] after) (joinLines before (lineComment comment) after) found found')
    (hbody : body? grammar (joinLines before [] after) found = some body)
    (hstart : body.start ≤ before.length) (hstop : before.length < body.stop) :
    body.start < before.length ∧ IsBlock (joinLines before [] after) body.start body.stop ∧
      IsBlock (joinLines before (lineComment comment) after) body.start
        (body.stop + (lineComment comment).length) := by
  obtain ⟨hx, hx'⟩ := htwins.mem_headers hbody
  have hlt : body.start < before.length := by
    refine Nat.lt_of_le_of_ne hstart (fun heq => ?_)
    -- a newline opens no body
    obtain ⟨opening, hopening, hplace, _⟩ := body?_eq_some hbody
    have hchar := (hopens.header.spec htwins.mem hopening).2
    rw [← hplace, heq, joinLines, List.append_nil, List.getElem?_append_right (Nat.le_refl _),
      Nat.sub_self, List.getElem?_cons_zero] at hchar
    exact absurd hchar (by decide)
  have haround : body.surrounds before.length = true := Stretch.surrounds_iff.2 ⟨hlt, hstop⟩
  have haround' : (body.move (past before.length (lineComment comment).length)).surrounds
      before.length = true := by
    rw [Stretch.surrounds_iff, Stretch.move]
    dsimp only
    rw [past_of_le _ hstart, past_of_lt _ hstop]
    omega
  have hblock := isBlock_of_surrounds hopens hx' haround'
  rw [Stretch.move] at hblock
  dsimp only at hblock
  rw [past_of_le _ hstart, past_of_lt _ hstop] at hblock
  exact ⟨hlt, isBlock_of_surrounds hopens hx haround, hblock⟩

/-- **A harmless comment leaves the classes as they are.** -/
theorem blockClasses_comment {language : Language} (hgrammar : grammar? language = some grammar)
    (hremark : Remark before comment after)
    (hharmless : Harmless language grammar before comment after) (file : String) :
    (blockClasses grammar file (joinLines before (lineComment comment) after)).map
        Declaration.unmeasured =
      (blockClasses grammar file (joinLines before [] after)).map Declaration.unmeasured := by
  have hopens := opens_of_grammar? hgrammar
  have hreads := reads_of_grammar? hgrammar
  obtain ⟨left, right, hheaders⟩ := hharmless.headers
  obtain ⟨left', right', hscopes⟩ := hharmless.scopes
  have hcommented : ∀ found : Match,
      (grammar.declares found && !commented before comment found) = false →
        body? grammar (joinLines before (lineComment comment) after) found = none := by
    intro found hkeep
    rw [Bool.and_eq_false_iff, Bool.not_eq_false'] at hkeep
    exact body?_eq_none (hkeep.imp_right hremark.inComment_of_commented)
  have hundeclared : ∀ found : Match, grammar.declares found = false →
      body? grammar (joinLines before [] after) found = none :=
    fun _ hkeep => body?_eq_none (Or.inl hkeep)
  rw [blockClasses, blockClasses, ← readHeaders_filter (fun found _ => hcommented found),
    ← readHeaders_filter (fun found _ => hundeclared found)]
  refine readHeaders_twins (carries_past hremark.plain before after) hopens
    (hheaders.twins hreads hremark)
    (fun htwins hbody => hscopes.scopeAt_eq hopens hremark htwins hbody)
    (fun {found found' body} htwins hbody => hreads.body (fun sign hsign => ?_)) file
    (List.forall_mem_nil _)
  exact (sign_of_mem_bodySigns hsign).occursIn_body (hharmless.signs sign hsign)
    (htwins.mem_headers hbody).1 (fits_of_body? (Match.fits_of_mem htwins.mem) hbody).2.start_le
    (isBlock_of_around hopens htwins hbody)

end Comment

-- a match that starts in the comment can swallow a header, and is discarded with it
example :
    (classes .cpp "a.h" "// class Foo :\nclass B \x7b \x7d;").map (·.name) = [] ∧
      (classes .cpp "a.h" "\nclass B \x7b \x7d;").map (·.name) = ["B"] := by
  decide +kernel

end Lineage.Source
