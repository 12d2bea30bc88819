import Lineage.Proofs.Clauses
import Lineage.Proofs.Comments

/-!
# Classes and line endings

Carriage returns before newlines do not change the classes of a text in a language with braces:
`classes_withReturns`.  Headers, methods and namespaces are found at the same places (`Bared`).
Names, result types and openings hold no carriage return (`exact`), modifiers and inheritance lists
are split at blanks, and blocks, comments and numbers of lines do not depend on carriage returns.

In Java, a clause that names nothing before the brace on the next line is the exception:
`classes_withReturns_emptyClause`.
-/

namespace Lineage

open Text

/-! ### Remembered parts -/

namespace Pattern

variable {text : List Char} {p : Pattern} {i : Nat} {r : Route}

/-- The marks whose text is read as it stands. -/
def exactMarks : List Mark := [.name, .opening, .result]

/-- Whether no carriage return is remembered under a mark whose text is read as it stands. -/
def exact (p : Pattern) : Bool :=
  exactMarks.all (fun mark => (p.bodies mark).all (fun body => body.avoids '\r' && body.lands))

/-- Whether a pattern finds the same in a text and in the bare text. -/
def steady (p : Pattern) : Bool :=
  p.solid && p.tight && p.insight.sighted

end Pattern

namespace Source

open Pattern

variable {text : List Char} {found found' : Match} {mark : Mark} {c : Capture}

/-- `found'` is the match of the bare text that `found` is in the text. -/
structure Bared (text : List Char) (found found' : Match) : Prop where
  fits : found.Fits text
  apart : ¬ Between text found.start
  start : found'.start = bareAt text found.start
  get? : ∀ mark, found'.get? mark =
    (found.get? mark).map (Capture.move (bareAt text) (bare text))
  exact : ∀ mark ∈ exactMarks, ∀ c, found.get? mark = some c →
    '\r' ∉ c.chars ∧ ¬ Between text c.stop

theorem chars_eq_slice (hsource : c.source = text.drop c.start) :
    c.chars = slice text c.start c.stop := by
  rw [Capture.chars, slice, hsource]

theorem bared_of_mem {p : Pattern} {h : Hit} (htext : Paired text) (hsolid : p.solid = true)
    (hexact : p.exact = true) (hmem : h ∈ p.hitsIn text) :
    Bared text (h.toMatch text) ((h.move (bareAt text)).toMatch (bare text)) := by
  obtain ⟨hstart, hroute⟩ := mem_routes_of_mem_hitsIn hmem
  have hfits := Match.fits_toMatch hstart (fits_of_mem_routes p _ _ hroute)
  have hapart : ¬ Between text h.start := by
    -- there stands a newline, where a solid pattern does not start
    intro hbetween
    rw [(solid_still (Or.inr (hbetween.getElem? htext)) p).1 hsolid] at hroute
    cases hroute
  refine ⟨hfits, hapart, rfl, Match.get?_move _ _ _ h, fun mark hmark c hc => ?_⟩
  have hsource := (hfits.capture hc).2.2.2
  rw [Match.get?_toMatch, Option.map_eq_some_iff] at hc
  obtain ⟨s, hs, rfl⟩ := hc
  have hsmark : (s.mark == mark) = true := List.find?_some (p := fun s : Spot => s.mark == mark) hs
  obtain ⟨body, hbody, inner, hinner, hstop⟩ :=
    exists_mem_bodies p _ _ hroute s (List.mem_of_find?_eq_some hs)
  rw [beq_iff_eq.1 hsmark] at hbody
  -- the part is a route of a pattern that reads no carriage return and lands
  have hclean := List.all_eq_true.1 (List.all_eq_true.1 hexact mark hmark) body hbody
  rw [Bool.and_eq_true] at hclean
  constructor
  · intro hreturn
    rw [chars_eq_slice hsource] at hreturn
    obtain ⟨k, hle, hlt, hk⟩ := getElem?_of_mem_slice hreturn
    have hlt : k < inner.stop := hstop ▸ hlt
    exact ne_of_avoids hclean.1 s.start inner hinner k hle hlt hk
  · have hlands := (lands_tight text body).1 hclean.2 s.start inner hinner
    rw [hstop] at hlands
    exact hlands

theorem matchesIn_bare {p : Pattern} (htext : Paired text) (hsolid : p.solid = true)
    (htight : p.tight = true) (hexact : p.exact = true)
    (hp : ∀ i, ¬ Between text i → Agrees text some p i) :
    List.Forall₂ (Bared text) (p.matchesIn text) (p.matchesIn (bare text)) := by
  rw [matchesIn_eq, matchesIn_eq, ← hitsIn_bare htext hsolid htight hp, List.map_map,
    List.forall₂_map_left_iff, List.forall₂_map_right_iff, List.forall₂_same]
  exact fun h hmem => bared_of_mem htext hsolid hexact hmem

theorem matchesIn_bare_of_steady {p : Pattern} (htext : Paired text)
    (hp : (p.steady && p.exact) = true) :
    List.Forall₂ (Bared text) (p.matchesIn text) (p.matchesIn (bare text)) := by
  simp only [Bool.and_eq_true, steady] at hp
  exact matchesIn_bare htext hp.1.1.1 hp.1.1.2 hp.2
    (fun i hi => (sees_insight htext p).sighted hp.1.2 i hi some)

theorem occursIn_bare {p : Pattern} (htext : Paired text) (hp : (p.steady && p.exact) = true) :
    p.occursIn (bare text) = p.occursIn text := by
  have hlength := (matchesIn_bare_of_steady htext hp).length_eq
  have hempty : (p.matchesIn (bare text)).isEmpty = (p.matchesIn text).isEmpty := by
    rw [Bool.eq_iff_iff, List.isEmpty_iff_length_eq_zero, List.isEmpty_iff_length_eq_zero, hlength]
  rw [occursIn, occursIn, hempty]

/-! ### Headers and signatures -/

namespace Bared

section Parts

variable (h : Bared text found found') (hc : found.get? mark = some c)

include h

theorem isSome_get? (mark : Mark) : (found'.get? mark).isSome = (found.get? mark).isSome := by
  rw [h.get? mark, Option.isSome_map]

include hc

theorem chars_move : (c.move (bareAt text) (bare text)).chars = bare c.chars := by
  obtain ⟨_, hle, _, hsource⟩ := h.fits.capture hc
  rw [chars_eq_slice hsource, ← slice_bareAt text hle]
  rfl

/-- A name, a result type and an opening are the same in the bare text. -/
theorem chars_move_of_exact (hmark : mark ∈ exactMarks) :
    (c.move (bareAt text) (bare text)).chars = c.chars := by
  rw [h.chars_move hc, bare_eq_self (h.exact mark hmark c hc).1]

theorem text_move_of_exact (hmark : mark ∈ exactMarks) :
    (c.move (bareAt text) (bare text)).text = c.text :=
  congrArg String.ofList (h.chars_move_of_exact hc hmark)

theorem linked (htext : Paired text) : Linked c.chars := by
  have hpart : slice text c.start c.stop <:+: text :=
    (List.take_prefix _ _).isInfix.trans (List.drop_suffix _ _).isInfix
  rw [chars_eq_slice (h.fits.capture hc).2.2.2]
  exact htext.linked.part hpart

end Parts

section Whole

variable (h : Bared text found found')

include h

theorem isMethod_eq (signature : Pattern) (className : String) :
    isMethod signature className found' = isMethod signature className found := by
  unfold isMethod
  rw [h.get? .name, h.get? .result]
  cases hname : found.get? .name with
  | none => rfl
  | some name =>
    have hchars := h.chars_move_of_exact hname (by decide)
    have htext := h.text_move_of_exact hname (by decide)
    cases hresult : found.get? .result with
    | none => simp only [Option.map_some, Option.map_none, hchars, htext]
    | some result =>
      simp only [Option.map_some, htext, h.text_move_of_exact hresult (by decide)]

variable (htext : Paired text)

include htext

theorem modifierWords_eq : Grammar.modifierWords found' = Grammar.modifierWords found := by
  unfold Grammar.modifierWords
  rw [h.get? .modifiers]
  cases hc : found.get? .modifiers with
  | none => rfl
  | some c => simp only [Option.map_some, h.chars_move hc, words_bare (h.linked hc htext)]

theorem listedHeritage_eq (language : Language) (skipped : List String) :
    Grammar.listedHeritage language skipped found' =
      Grammar.listedHeritage language skipped found := by
  unfold Grammar.listedHeritage
  rw [h.get? .bases]
  cases hc : found.get? .bases with
  | none => rfl
  | some c => simp only [Option.map_some, h.chars_move hc, splitHeritage_bare (h.linked hc htext)]

theorem javaHeritage_eq : Grammar.javaHeritage found' = Grammar.javaHeritage found := by
  unfold Grammar.javaHeritage
  rw [h.get? .superclass, h.get? .interfaces]
  congr 1
  · cases hc : found.get? .superclass with
    | none => rfl
    | some c =>
      simp only [Option.map_some, Option.bind_some, h.chars_move hc,
        splitHeritage_bare (h.linked hc htext)]
  · cases hc : found.get? .interfaces with
    | none => rfl
    | some c => simp only [Option.map_some, h.chars_move hc, splitHeritage_bare (h.linked hc htext)]

end Whole

end Bared

theorem countMethods_bare {signature : Pattern} (htext : Paired text)
    (hsignature : (signature.steady && signature.exact) = true) (className : String) :
    countMethods (bare text) signature className = countMethods text signature className := by
  have hmatches := matchesIn_bare_of_steady htext hsignature
  unfold countMethods
  generalize signature.matchesIn text = founds at hmatches
  generalize signature.matchesIn (bare text) = founds' at hmatches
  induction hmatches with
  | nil => rfl
  | cons hfound _ ih => rw [List.countP_cons, List.countP_cons, ih, hfound.isMethod_eq]

/-! ### Bodies and namespaces -/

section Stretches

variable {grammar : Grammar} {body : Stretch}

theorem inComment_bareAt (htext : Paired text) (i : Nat) :
    inComment ((bare text).take (bareAt text i)) = inComment (text.take i) := by
  have hpart : text.take i <:+: text := (List.take_prefix i text).isInfix
  rw [take_bareAt]
  exact inComment_bare (htext.linked.part hpart)

theorem body?_bare (htext : Paired text) (h : Bared text found found') :
    body? grammar (bare text) found' =
      (body? grammar text found).map (Stretch.move (bareAt text)) := by
  unfold body?
  rw [h.start, inComment_bareAt htext, h.isSome_get? .enumeration, h.get? .name, h.get? .opening]
  cases hname : found.get? .name with
  | none => rfl
  | some name =>
    cases hopening : found.get? .opening with
    | none => rfl
    | some opening =>
      have hstart : (opening.move (bareAt text) (bare text)).start =
        bareAt text opening.start := rfl
      simp only [Option.map_some, Option.bind_eq_bind, Option.bind_some]
      rw [h.chars_move_of_exact hopening (by decide), h.text_move_of_exact hname (by decide),
        hstart, blockEnd_bareAt]
      split_ifs <;> rfl

theorem enclosure?_bare (htext : Paired text) (h : Bared text found found') :
    enclosure? (bare text) found' = (enclosure? text found).map (Stretch.move (bareAt text)) := by
  unfold enclosure?
  rw [h.start, inComment_bareAt htext, h.get? .name, h.get? .opening]
  cases hname : found.get? .name with
  | none => rfl
  | some name =>
    cases hopening : found.get? .opening with
    | none => rfl
    | some opening =>
      have hstart : (opening.move (bareAt text) (bare text)).start =
        bareAt text opening.start := rfl
      simp only [Option.map_some, Option.bind_eq_bind, Option.bind_some]
      rw [h.chars_move_of_exact hopening (by decide), h.chars_move_of_exact hname (by decide),
        hstart, blockEnd_bareAt, ← bareAt_length, ← apply_ite (bareAt text)]
      split_ifs <;> rfl

/-- A stretch that does not end between a carriage return and its newline. -/
structure Stretch.EndsApart (text : List Char) (s : Stretch) : Prop where
  apart : ¬ Between text s.stop
  stop_le : s.stop ≤ text.length

theorem endsApart_body (htext : Paired text) (h : Bared text found found')
    (hbody : body? grammar text found = some body) : body.EndsApart text := by
  obtain ⟨opening, hopening, _, hstop⟩ := body?_eq_some hbody
  obtain ⟨_, hle, hle', _⟩ := h.fits.capture hopening
  have hlength := h.fits.stop_le
  refine ⟨?_, (fits_of_body? h.fits hbody).2.stop_le⟩
  rcases hstop with ⟨_, hstop⟩ | hstop
  · rw [hstop]
    exact not_between_blockEnd htext (by omega)
  · rw [hstop]
    exact (h.exact .opening (by decide) opening hopening).2

theorem blockEnd_le {i : Nat} (hi : i ≤ text.length) : blockEnd text i ≤ text.length := by
  rw [blockEnd, blockLength]
  cases hclosing : closing? 0 0 (text.drop i) with
  | none =>
    rw [Option.getD_none, List.length_drop]
    omega
  | some n =>
    obtain ⟨k, rfl, hk⟩ := getElem?_of_closing? hclosing
    have hlt := (List.getElem?_eq_some_iff.1 hk).1
    rw [List.length_drop] at hlt
    rw [Option.getD_some]
    omega

theorem endsApart_enclosure (htext : Paired text) (h : Bared text found found')
    (hbody : enclosure? text found = some body) : body.EndsApart text := by
  unfold enclosure? at hbody
  simp only [Option.bind_eq_bind, Option.bind_eq_some_iff] at hbody
  obtain ⟨name, _, opening, hopening, hbody⟩ := hbody
  obtain ⟨_, hle, hle', _⟩ := h.fits.capture hopening
  have hlength := h.fits.stop_le
  split_ifs at hbody with _ hbrace
  · obtain rfl := Option.some.inj hbody
    exact ⟨not_between_blockEnd htext (by omega), blockEnd_le (by omega)⟩
  · obtain rfl := Option.some.inj hbody
    exact ⟨not_between_length htext, Nat.le_refl _⟩

theorem surrounds_bare {s : Stretch} (hs : s.EndsApart text) {position : Nat}
    (hposition : ¬ Between text position) (hlength : position ≤ text.length) :
    (s.move (bareAt text)).surrounds (bareAt text position) = s.surrounds position :=
  Stretch.surrounds_move (bareAt_lt_iff hposition hlength _)
    (bareAt_lt_iff hs.apart hs.stop_le _)

end Stretches

/-! ### Classes -/

/-- A grammar that reads nothing from carriage returns, its headers apart. -/
structure Grammar.Steady (grammar : Grammar) : Prop where
  header : (grammar.header.solid && grammar.header.tight && grammar.header.exact) = true
  method : (grammar.method.steady && grammar.method.exact) = true
  enclosure : (grammar.enclosure.steady && grammar.enclosure.exact) = true
  heritage : ∀ {text : List Char} {found found' : Match}, Paired text → Bared text found found' →
    grammar.heritage found' = grammar.heritage found
  traits : ∀ {text body : List Char} {found found' : Match}, Paired text →
    Bared text found found' → Paired body →
      grammar.traits found' (bare body) = grammar.traits found body

theorem steady_of_grammar? {language : Language} {grammar : Grammar}
    (h : grammar? language = some grammar) : grammar.Steady := by
  cases language with
  | csharp =>
    obtain rfl := Option.some.inj h
    refine ⟨by decide +kernel, by decide +kernel, by decide +kernel,
      fun htext hbared => hbared.listedHeritage_eq htext _ _, fun htext hbared _ => ?_⟩
    unfold Grammar.csharp
    dsimp only
    rw [hbared.modifierWords_eq htext]
  | java =>
    obtain rfl := Option.some.inj h
    refine ⟨by decide +kernel, by decide +kernel, by decide +kernel,
      fun htext hbared => hbared.javaHeritage_eq htext, fun htext hbared _ => ?_⟩
    unfold Grammar.java
    dsimp only
    rw [hbared.modifierWords_eq htext]
  | cpp =>
    obtain rfl := Option.some.inj h
    refine ⟨by decide +kernel, by decide +kernel, by decide +kernel,
      fun htext hbared => hbared.listedHeritage_eq htext _ _, fun _ hbared hbody => ?_⟩
    unfold Grammar.cpp
    dsimp only
    rw [hbared.isSome_get?, occursIn_bare hbody (by decide +kernel)]
  | python => cases h

section Classes

variable {grammar : Grammar} (hgrammar : grammar.Steady) (htext : Paired text)

include hgrammar htext

theorem declare_bare {body : Stretch} (h : Bared text found found') (hfits : body.Fits text)
    (hstart : found.start ≤ body.stop) (hbody : body.EndsApart text)
    {namespaces earlier : List Stretch} (hnamespaces : ∀ s ∈ namespaces, s.EndsApart text)
    (hearlier : ∀ s ∈ earlier, s.EndsApart text) (file : String) :
    declare grammar file (bare text) (namespaces.map (Stretch.move (bareAt text)))
        (earlier.map (Stretch.move (bareAt text))) found' (body.move (bareAt text)) =
      declare grammar file text namespaces earlier found body := by
  have hlength : found.start ≤ text.length := Nat.le_trans h.fits.start_le h.fits.stop_le
  have hpaired : Paired (slice text body.start body.stop) := htext.slice hbody.apart
  have hinside : slice (bare text) (body.move (bareAt text)).start (body.move (bareAt text)).stop =
      bare (slice text body.start body.stop) := slice_bareAt text hfits.start_le
  have hspan : slice (bare text) (bareAt text found.start) (body.move (bareAt text)).stop =
      bare (slice text found.start body.stop) := slice_bareAt text hstart
  have hsurrounds : ∀ s : Stretch, s.EndsApart text →
      (s.move (bareAt text)).surrounds (bareAt text found.start) = s.surrounds found.start :=
    fun s hs => surrounds_bare hs h.apart hlength
  unfold declare containerAt
  dsimp only
  rw [h.start, hinside, hspan, take_bareAt, balance_bare, lineSpan_bare,
    scopeAt_move (fun s hs => hsurrounds s (hnamespaces s hs)),
    Stretch.find?_move (fun s hs => hsurrounds s (hearlier s hs)), Option.map_map,
    hgrammar.heritage htext h, hgrammar.traits htext h hpaired,
    countMethods_bare hpaired hgrammar.method]
  rfl

theorem readHeaders_bare {founds founds' : List Match}
    (h : List.Forall₂ (Bared text) founds founds') {namespaces earlier : List Stretch}
    (hnamespaces : ∀ s ∈ namespaces, s.EndsApart text)
    (hearlier : ∀ s ∈ earlier, s.EndsApart text) (file : String) :
    readHeaders grammar file (bare text) (namespaces.map (Stretch.move (bareAt text)))
        (earlier.map (Stretch.move (bareAt text))) founds' =
      readHeaders grammar file text namespaces earlier founds := by
  induction h generalizing earlier with
  | nil => rfl
  | @cons found found' rest rest' hfound _ ih =>
    rw [readHeaders, readHeaders, body?_bare htext hfound]
    cases hbody : body? grammar text found with
    | none => exact ih hearlier
    | some body =>
      have hfits := fits_of_body? hfound.fits hbody
      have hends := endsApart_body htext hfound hbody
      have hnext := ih (List.forall_mem_cons.2 ⟨hends, hearlier⟩)
      rw [List.map_cons] at hnext
      rw [Option.map_some]
      dsimp only
      rw [hnext, declare_bare hgrammar htext hfound hfits.2
        (Nat.le_trans hfits.1 hfits.2.start_le) hends hnamespaces hearlier]

theorem enclosures_bare : enclosures grammar (bare text) =
    (enclosures grammar text).map (Stretch.move (bareAt text)) ∧
      ∀ s ∈ enclosures grammar text, s.EndsApart text := by
  have hmatches := matchesIn_bare_of_steady htext hgrammar.enclosure
  unfold enclosures
  generalize grammar.enclosure.matchesIn text = founds at hmatches
  generalize grammar.enclosure.matchesIn (bare text) = founds' at hmatches
  induction hmatches with
  | nil => exact ⟨rfl, fun s hs => absurd hs List.not_mem_nil⟩
  | @cons found found' rest rest' hfound _ ih =>
    rw [List.filterMap_cons, List.filterMap_cons, enclosure?_bare htext hfound]
    cases henclosure : enclosure? text found with
    | none => exact ih
    | some s =>
      refine ⟨congrArg _ ih.1, ?_⟩
      exact List.forall_mem_cons.2 ⟨endsApart_enclosure htext hfound henclosure, ih.2⟩

/-- **Carriage returns before newlines do not change the classes of a text**, if they do not change
where its headers are. -/
theorem blockClasses_bare
    (hheader : ∀ i, ¬ Between text i → Agrees text some grammar.header i) (file : String) :
    blockClasses grammar file (bare text) = blockClasses grammar file text := by
  have hpattern := hgrammar.header
  simp only [Bool.and_eq_true] at hpattern
  obtain ⟨henclosures, hends⟩ := enclosures_bare hgrammar htext
  rw [blockClasses, blockClasses, henclosures]
  exact readHeaders_bare hgrammar htext
    (matchesIn_bare htext hpattern.1.1 hpattern.1.2 hpattern.2 hheader) hends
    (fun s hs => absurd hs List.not_mem_nil) file

end Classes

/-! ### Line endings -/

theorem agrees_header {language : Language} {grammar : Grammar}
    (h : grammar? language = some grammar) (htext : Paired text)
    (hclause : language = .java → hasEmptyClause (bare text) = false) {i : Nat}
    (hi : ¬ Between text i) : Agrees text some grammar.header i := by
  cases language with
  | csharp =>
    obtain rfl := Option.some.inj h
    exact agrees_csharpHeader htext hi
  | java =>
    obtain rfl := Option.some.inj h
    exact agrees_javaHeader htext (fun _ hword => unbroken_of_bare htext (hclause rfl) hword) hi
  | cpp =>
    obtain rfl := Option.some.inj h
    exact agrees_cppHeader htext hi
  | python => cases h

/-- **Line endings do not matter to a language with braces**: the classes of a text are those of the
text with a carriage return before each newline.  In Java this takes that no clause is empty up to
the end of its line, with the brace on the next one. -/
theorem classes_withReturns {language : Language} (hlanguage : language ∈ [.csharp, .java, .cpp])
    (file source : String) (hreturns : '\r' ∉ source.toList)
    (hclause : language = .java → hasEmptyClause source.toList = false) :
    classes language file (String.ofList (withReturns source.toList)) =
      classes language file source := by
  have hgrammars : ∀ language ∈ [Language.csharp, .java, .cpp], (grammar? language).isSome := by
    decide
  obtain ⟨grammar, hgrammar⟩ := Option.isSome_iff_exists.1 (hgrammars language hlanguage)
  have hpaired := paired_withReturns hreturns
  have hbare := bare_withReturns hreturns
  have hclasses := blockClasses_bare (steady_of_grammar? hgrammar) hpaired
    (fun _ => agrees_header hgrammar hpaired (by rwa [hbare])) file
  rw [hbare] at hclasses
  unfold classes
  simp only [hgrammar, String.toList_ofList]
  exact hclasses.symm

/-- A header over several lines, with an inner class behind it. -/
theorem classes_withReturns_severalLines :
    '\r' ∉ "class A\n  extends\n  B implements I\n\x7b\n  class C \x7b \x7d\n\x7d\n".toList ∧
      hasEmptyClause
        "class A\n  extends\n  B implements I\n\x7b\n  class C \x7b \x7d\n\x7d\n".toList = false ∧
      classes .java "A.java" (String.ofList (withReturns
          "class A\n  extends\n  B implements I\n\x7b\n  class C \x7b \x7d\n\x7d\n".toList)) =
        classes .java "A.java"
          "class A\n  extends\n  B implements I\n\x7b\n  class C \x7b \x7d\n\x7d\n" :=
  ⟨by decide, by decide, classes_withReturns (by decide) _ _ (by decide) (fun _ => by decide)⟩

/-- A clause that names nothing before the brace on the next line is read with one line ending, and
not with the other. -/
theorem classes_withReturns_emptyClause :
    ¬ ∀ language ∈ [Language.csharp, .java, .cpp], ∀ file source : String,
      '\r' ∉ source.toList →
        classes language file (String.ofList (withReturns source.toList)) =
          classes language file source := by
  intro h
  have hsame := h .java (by decide) "A.java" "class A extends\n\x7b \x7d" (by decide)
  exact absurd hsame (by decide +kernel)

end Source

end Lineage
