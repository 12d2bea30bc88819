import Lineage.Proofs.Insertion
import Lineage.Proofs.Nesting

/-!
# Headers of the same class in two texts

When the places of a text are moved, together with its braces and blocks (`Carries`), a header of
the moved text need not be a moved header.  It is enough that it is read alike (`ReadAlike`): that
it has the same name, inheritance and modifiers, opens at the same place and starts in the same
blocks.  Then the bodies and namespaces are moved (`body?_alike`, `enclosure?_alike`), the same of
them are around the header (`Twins.surrounds`), and the class is the same (`declare_twin`), whatever
headers that declare none stand between (`readHeaders_filter`, `readHeaders_twins`).
-/

namespace Lineage

/-- A class without the numbers that are counted in its text. -/
def Declaration.unmeasured (d : Declaration) : Declaration :=
  { d with methods := 0, lines := 0 }

namespace Source

open Pattern

/-! ### Headers that are read alike -/

/-- `found'` has the name of `found` and opens at the same place, moved. -/
structure OpensAlike (f : Nat → Nat) (found found' : Match) : Prop where
  name : (found'.get? .name).map Capture.chars = (found.get? .name).map Capture.chars
  opening : (found'.get? .opening).map (fun c => (c.start, c.stop, c.chars)) =
    (found.get? .opening).map (fun c => (f c.start, f c.stop, c.chars))

/-- `found'` is read like `found`: it may start later, but not behind a brace or a semicolon, and
what it inherits and its modifiers are the same. -/
structure Grammar.ReadAlike (grammar : Grammar) (f : Nat → Nat) (text : List Char)
    (found found' : Match) : Prop extends OpensAlike f found found' where
  start : ∃ i, found.start ≤ i ∧ found'.start = f i ∧
    ∀ c ∈ slice text found.start i, c ≠ '{' ∧ c ≠ '}' ∧ c ≠ ';'
  heritage : grammar.heritage found' = grammar.heritage found
  traits : grammar.traits found' = grammar.traits found

/-- Whether a header declares a class, unless it is in a comment. -/
def Grammar.declares (grammar : Grammar) (found : Match) : Bool :=
  (found.get? .name).isSome && !(found.get? .enumeration).isSome &&
    (found.get? .opening).any (fun opening => opening.chars == ['{'] || grammar.allowsBodiless)

/-! ### Options and lists in step -/

/-- Two optional values that are mapped to the same are both there or both missing. -/
theorem cases_of_map_eq {α β : Type} {o o' : Option α} {g g' : α → β}
    (h : o'.map g' = o.map g) :
    o' = none ∧ o = none ∨ ∃ a' a, o' = some a' ∧ o = some a ∧ g' a' = g a := by
  cases o with
  | none =>
    rw [Option.map_none, Option.map_eq_none_iff] at h
    exact Or.inl ⟨h, rfl⟩
  | some a =>
    rw [Option.map_some, Option.map_eq_some_iff] at h
    obtain ⟨a', ha', heq⟩ := h
    exact Or.inr ⟨a', a, ha', rfl, heq⟩

theorem forall₂_imp_of_mem {α β : Type} {R S : α → β → Prop} {l : List α} {l' : List β}
    (h : List.Forall₂ R l l') (himp : ∀ a ∈ l, ∀ b ∈ l', R a b → S a b) : List.Forall₂ S l l' := by
  rw [List.forall₂_iff_zip] at h ⊢
  refine ⟨h.1, fun hab => ?_⟩
  obtain ⟨ha, hb⟩ := List.of_mem_zip hab
  exact himp _ ha _ hb (h.2 hab)

theorem forall₂_of_isEmpty {α β : Type} {R : α → β → Prop} {l : List α} {l' : List β}
    (h : (l.isEmpty && l'.isEmpty) = true) : List.Forall₂ R l l' := by
  rw [Bool.and_eq_true, List.isEmpty_iff, List.isEmpty_iff] at h
  rw [h.1, h.2]
  exact List.Forall₂.nil

/-! ### Bodies and namespaces -/

section OpensAlike

variable {f : Nat → Nat} {text text' : List Char} {found found' : Match} {grammar : Grammar}

theorem body?_eq_none
    (h : grammar.declares found = false ∨ inComment (text.take found.start) = true) :
    body? grammar text found = none := by
  unfold body?
  unfold Grammar.declares at h
  cases hname : found.get? .name with
  | none => rfl
  | some name =>
    cases hopening : found.get? .opening with
    | none => rfl
    | some opening =>
      simp only [Option.bind_eq_bind, Option.bind_some]
      rw [hname, hopening, Option.isSome_some, Bool.true_and, Option.any_some] at h
      rcases h with h | h
      · rw [Bool.and_eq_false_iff, Bool.not_eq_false', Bool.or_eq_false_iff] at h
        rcases h with henumeration | ⟨hbrace, hbodiless⟩
        · rw [henumeration, Bool.true_or, if_pos rfl]
        · rw [hbrace, hbodiless, if_neg Bool.false_ne_true, if_neg Bool.false_ne_true, ite_self]
      · rw [h, Bool.or_true, if_pos rfl]

theorem body?_alike (hcarries : Carries f text text') (h : OpensAlike f found found')
    (hdeclares : grammar.declares found = true) (hdeclares' : grammar.declares found' = true)
    (hshown : inComment (text.take found.start) = false)
    (hshown' : inComment (text'.take found'.start) = false) :
    body? grammar text' found' = (body? grammar text found).map (Stretch.move f) := by
  simp only [Grammar.declares, Bool.and_eq_true, Bool.not_eq_true'] at hdeclares hdeclares'
  unfold body?
  rw [hshown, hshown', hdeclares.1.2, hdeclares'.1.2]
  rcases cases_of_map_eq h.name with ⟨hname', hname⟩ | ⟨name', name, hname', hname, hchars⟩
  · rw [hname, hname']
    rfl
  · rcases cases_of_map_eq h.opening with ⟨ho', ho⟩ | ⟨opening', opening, ho', ho, heq⟩
    · rw [hname, hname', ho, ho']
      rfl
    · rw [Prod.mk.injEq, Prod.mk.injEq] at heq
      obtain ⟨hstart, hstop, hopening⟩ := heq
      have htext : name'.text = name.text := congrArg String.ofList hchars
      simp only [hname, hname', ho, ho', Option.bind_eq_bind, Option.bind_some]
      rw [hopening, htext, hstart, hstop, hcarries.blockEnd]
      split_ifs <;> rfl

theorem enclosure?_alike (hcarries : Carries f text text') (h : OpensAlike f found found')
    (hshown : inComment (text.take found.start) = false)
    (hshown' : inComment (text'.take found'.start) = false) :
    enclosure? text' found' = (enclosure? text found).map (Stretch.move f) := by
  unfold enclosure?
  rw [hshown, hshown']
  rcases cases_of_map_eq h.name with ⟨hname', hname⟩ | ⟨name', name, hname', hname, hchars⟩
  · rw [hname, hname']
    rfl
  · rcases cases_of_map_eq h.opening with ⟨ho', ho⟩ | ⟨opening', opening, ho', ho, heq⟩
    · rw [hname, hname', ho, ho']
      rfl
    · rw [Prod.mk.injEq, Prod.mk.injEq] at heq
      obtain ⟨hstart, _, hopening⟩ := heq
      simp only [hname, hname', ho, ho', Option.bind_eq_bind, Option.bind_some]
      rw [hopening, hchars, hstart, hcarries.blockEnd, hcarries.length, ← apply_ite f]
      rfl

end OpensAlike

/-! ### What is read from headers and bodies -/

/-- A grammar that reads from a header only the characters of its parts, and from a body only
whether some patterns occur in it. -/
structure Grammar.Reads (grammar : Grammar) (inside : List Pattern) : Prop where
  heritage : ∀ {found found' : Match},
    (∀ mark, (found'.get? mark).map Capture.chars = (found.get? mark).map Capture.chars) →
      grammar.heritage found' = grammar.heritage found
  traits : ∀ {found found' : Match},
    (∀ mark, (found'.get? mark).map Capture.chars = (found.get? mark).map Capture.chars) →
      grammar.traits found' = grammar.traits found
  body : ∀ {found : Match} {body body' : List Char},
    (∀ p ∈ inside, p.occursIn body' = p.occursIn body) →
      grammar.traits found body' = grammar.traits found body

section Reads

variable {found found' : Match}
  (h : ∀ mark, (found'.get? mark).map Capture.chars = (found.get? mark).map Capture.chars)
include h

theorem modifierWords_congr : Grammar.modifierWords found' = Grammar.modifierWords found := by
  unfold Grammar.modifierWords
  rcases cases_of_map_eq (h .modifiers) with ⟨hc', hc⟩ | ⟨c', c, hc', hc, hchars⟩
  · rw [hc', hc]
  · simp only [hc', hc, hchars]

theorem listedHeritage_congr (language : Language) (skipped : List String) :
    Grammar.listedHeritage language skipped found' =
      Grammar.listedHeritage language skipped found := by
  unfold Grammar.listedHeritage
  rcases cases_of_map_eq (h .bases) with ⟨hc', hc⟩ | ⟨c', c, hc', hc, hchars⟩
  · rw [hc', hc]
  · simp only [hc', hc, hchars]

theorem javaHeritage_congr : Grammar.javaHeritage found' = Grammar.javaHeritage found := by
  unfold Grammar.javaHeritage
  congr 1
  · rcases cases_of_map_eq (h .superclass) with ⟨hc', hc⟩ | ⟨c', c, hc', hc, hchars⟩
    · rw [hc', hc]
    · simp only [hc', hc, hchars, Option.bind_some]
  · rcases cases_of_map_eq (h .interfaces) with ⟨hc', hc⟩ | ⟨c', c, hc', hc, hchars⟩
    · rw [hc', hc]
    · simp only [hc', hc, hchars]

end Reads

section Moved

variable {f : Nat → Nat} {text text' : List Char} {found found' : Match} {grammar : Grammar}
  {inside : List Pattern} (h : found.Moved f text' found')
include h

theorem opensAlike_of_moved : OpensAlike f found found' where
  name := h.map_chars .name
  opening := by
    rw [h.get? .opening, Option.map_map]
    cases hopening : found.get? .opening with
    | none => rfl
    | some opening =>
      show some (f opening.start, f opening.stop, (opening.move f text').chars) = _
      rw [h.chars hopening]
      rfl

theorem readAlike_of_moved (hreads : grammar.Reads inside) (text : List Char) :
    grammar.ReadAlike f text found found' where
  toOpensAlike := opensAlike_of_moved h
  start := by
    refine ⟨found.start, Nat.le_refl _, h.start, fun c hc => ?_⟩
    rw [slice, Nat.sub_self, List.take_zero] at hc
    cases hc
  heritage := hreads.heritage h.map_chars
  traits := hreads.traits h.map_chars

theorem declares_of_moved : grammar.declares found' = grammar.declares found := by
  unfold Grammar.declares
  rw [h.get? .name, h.get? .enumeration, h.get? .opening, Option.isSome_map, Option.isSome_map]
  cases hopening : found.get? .opening with
  | none => rfl
  | some opening =>
    rw [Option.map_some, Option.any_some, Option.any_some, h.chars hopening]

end Moved

/-! ### Stretches around a header -/

section Surrounds

variable {f : Nat → Nat} {text text' : List Char} {i : Nat}

/-- A stretch that a header opens: a block, one character, or all from a semicolon on. -/
def Stretch.Opened (text : List Char) (s : Stretch) : Prop :=
  IsBlock text s.start s.stop ∨ s.stop = s.start + 1 ∨
    text[s.start]? = some ';' ∧ s.stop = text.length

/-- A header that starts later, but not behind a brace or a semicolon, is inside the same
stretches. -/
theorem surrounds_alike (hcarries : Carries f text text') {start : Nat} (hle : start ≤ i)
    (hi : i < text.length) (hpart : ∀ c ∈ slice text start i, c ≠ '{' ∧ c ≠ '}' ∧ c ≠ ';')
    {s : Stretch} (hs : s.Opened text) :
    (s.move f).surrounds (f i) = s.surrounds start := by
  have hplain : ∀ c ∈ slice text start i, c ≠ '{' ∧ c ≠ '}' :=
    fun c hc => ⟨(hpart c hc).1, (hpart c hc).2.1⟩
  rw [Bool.eq_iff_iff, Stretch.surrounds_iff, Stretch.surrounds_iff, Stretch.move,
    hcarries.lt_iff, hcarries.lt_iff]
  rcases hs with hblock | hone | ⟨hchar, hend⟩
  · constructor
    · rintro ⟨hstart, hstop⟩
      have := hblock.around_part hplain hle (Nat.le_refl i) hstart hstop
      omega
    · rintro ⟨hstart, hstop⟩
      have := hblock.around_part hplain (Nat.le_refl start) hle hstart hstop
      omega
  · omega
  · constructor
    · rintro ⟨hstart, hstop⟩
      refine ⟨Nat.lt_of_not_le (fun hinside => ?_), by omega⟩
      exact (hpart _ (mem_slice_of_getElem? hchar hinside hstart)).2.2 rfl
    · omega

end Surrounds

/-! ### Headers -/

section Twins

variable {f : Nat → Nat} {text text' : List Char} {grammar : Grammar} {found found' : Match}
  {body : Stretch}

/-- `found` and `found'` are headers of the same class in two texts. -/
structure Grammar.Twins (grammar : Grammar) (f : Nat → Nat) (text text' : List Char)
    (found found' : Match) : Prop extends grammar.ReadAlike f text found found' where
  mem : found ∈ grammar.header.matchesIn text
  mem' : found' ∈ grammar.header.matchesIn text'
  body : body? grammar text' found' = (body? grammar text found).map (Stretch.move f)

theorem Grammar.Twins.mem_headers (h : grammar.Twins f text text' found found')
    (hbody : body? grammar text found = some body) :
    (found, body) ∈ headers grammar text ∧ (found', body.move f) ∈ headers grammar text' := by
  rw [Source.mem_headers, Source.mem_headers]
  refine ⟨⟨h.mem, hbody⟩, h.mem', ?_⟩
  rw [h.body, hbody]
  rfl

/-- What surrounds a header surrounds its twin. -/
theorem Grammar.Twins.surrounds (hcarries : Carries f text text') (hopens : grammar.Opens)
    (h : grammar.Twins f text text' found found') (hbody : body? grammar text found = some body)
    {s : Stretch} (hs : s.Opened text) :
    (s.move f).surrounds found'.start = s.surrounds found.start := by
  obtain ⟨i, hle, hstart, hpart⟩ := h.start
  have hbody' : body? grammar text' found' = some (body.move f) := by
    rw [h.body, hbody]
    rfl
  have hopening : ¬ f body.start < f i := by
    rw [← hstart, Nat.not_lt]
    exact (body_spec hopens h.mem' hbody').1
  rw [hcarries.lt_iff, Nat.not_lt] at hopening
  have hlt : body.start < text.length := by
    have hlast := (body_spec hopens h.mem hbody).2.1
    have hend := (Match.fits_of_mem h.mem).stop_le
    omega
  rw [hstart]
  exact surrounds_alike hcarries hle (by omega) hpart hs

theorem opened_of_body? (hopens : grammar.Opens) (hfound : found ∈ grammar.header.matchesIn text)
    (hbody : body? grammar text found = some body) : body.Opened text :=
  (body_spec hopens hfound hbody).2.2.imp_right Or.inl

theorem opened_of_enclosure? (hopens : grammar.Opens)
    (hfound : found ∈ grammar.enclosure.matchesIn text)
    (hbody : enclosure? text found = some body) : body.Opened text :=
  (enclosure_spec hopens hfound hbody).2.2.imp And.right Or.inr

/-- Twins declare the same class. -/
theorem declare_twin (hcarries : Carries f text text') (hopens : grammar.Opens)
    (h : grammar.Twins f text text' found found') (hbody : body? grammar text found = some body)
    {namespaces namespaces' : List Stretch}
    (hscope : scopeAt namespaces' found'.start = scopeAt namespaces found.start)
    (htraits : grammar.traits found (slice text' (f body.start) (f body.stop)) =
      grammar.traits found (slice text body.start body.stop))
    {earlier : List Stretch} (hearlier : ∀ b ∈ earlier, b.Opened text) (file : String) :
    (declare grammar file text' namespaces' (earlier.map (Stretch.move f)) found'
        (body.move f)).unmeasured =
      (declare grammar file text namespaces earlier found body).unmeasured := by
  obtain ⟨i, hle, hstart, hpart⟩ := h.start
  have hbalance : balance (text'.take found'.start) = balance (text.take found.start) := by
    rw [hstart, hcarries.balance]
    exact balance_take_of_plain (fun c hc => ⟨(hpart c hc).1, (hpart c hc).2.1⟩) hle (Nat.le_refl i)
  have hinside : (earlier.map (Stretch.move f)).find? (·.surrounds found'.start) =
      (earlier.find? (·.surrounds found.start)).map (Stretch.move f) :=
    Stretch.find?_move (fun b hb => h.surrounds hcarries hopens hbody (hearlier b hb))
  have htraits' : grammar.traits found' (slice text' (body.move f).start (body.move f).stop) =
      grammar.traits found (slice text body.start body.stop) := by
    rw [h.traits]
    exact htraits
  unfold declare containerAt Declaration.unmeasured
  dsimp only
  rw [hbalance, hscope, hinside, htraits', h.heritage, Option.map_map]
  rfl

/-- Headers without a body do not count. -/
theorem readHeaders_filter {keep : Match → Bool} {founds : List Match}
    (h : ∀ found ∈ founds, keep found = false → body? grammar text found = none) (file : String)
    (namespaces earlier : List Stretch) :
    readHeaders grammar file text namespaces earlier (founds.filter keep) =
      readHeaders grammar file text namespaces earlier founds := by
  induction founds generalizing earlier with
  | nil => rfl
  | cons found rest ih =>
    have hrest := ih (fun m hm => h m (List.mem_cons_of_mem found hm))
    by_cases hkeep : keep found = true
    · rw [List.filter_cons_of_pos hkeep, readHeaders, readHeaders]
      cases body? grammar text found with
      | none => exact hrest earlier
      | some body => exact congrArg _ (hrest (body :: earlier))
    · have hnone := h found List.mem_cons_self (by simpa using hkeep)
      rw [List.filter_cons_of_neg hkeep, readHeaders, hnone]
      exact hrest earlier

/-- Lists of twins declare the same classes. -/
theorem readHeaders_twins (hcarries : Carries f text text') (hopens : grammar.Opens)
    {founds founds' : List Match} (h : List.Forall₂ (grammar.Twins f text text') founds founds')
    {namespaces namespaces' : List Stretch}
    (hscope : ∀ {found found' body}, grammar.Twins f text text' found found' →
      body? grammar text found = some body →
        scopeAt namespaces' found'.start = scopeAt namespaces found.start)
    (htraits : ∀ {found found' body}, grammar.Twins f text text' found found' →
      body? grammar text found = some body →
        grammar.traits found (slice text' (f body.start) (f body.stop)) =
          grammar.traits found (slice text body.start body.stop))
    (file : String) {earlier : List Stretch} (hearlier : ∀ b ∈ earlier, b.Opened text) :
    (readHeaders grammar file text' namespaces' (earlier.map (Stretch.move f)) founds').map
        Declaration.unmeasured =
      (readHeaders grammar file text namespaces earlier founds).map Declaration.unmeasured := by
  induction h generalizing earlier with
  | nil => rfl
  | @cons found found' rest rest' hfound _ ih =>
    rw [readHeaders, readHeaders, hfound.body]
    cases hbody : body? grammar text found with
    | none => exact ih hearlier
    | some body =>
      have hopened := opened_of_body? hopens hfound.mem hbody
      have hlater := ih (List.forall_mem_cons.2 ⟨hopened, hearlier⟩)
      rw [List.map_cons] at hlater
      rw [Option.map_some]
      dsimp only
      rw [List.map_cons, List.map_cons, hlater, declare_twin hcarries hopens hfound hbody
        (hscope hfound hbody) (htraits hfound hbody) hearlier]

end Twins

/-! ### Namespaces -/

section Around

variable {f : Nat → Nat} {text text' : List Char} {position position' : Nat}

/-- Only namespaces around a place matter to its scope. -/
theorem around_filter {keep : Match → Bool} {founds : List Match}
    (h : ∀ found ∈ founds, ∀ s, enclosure? text found = some s → s.surrounds position = true →
      keep found = true) :
    ((founds.filter keep).filterMap (enclosure? text)).filter (·.surrounds position) =
      (founds.filterMap (enclosure? text)).filter (·.surrounds position) := by
  rw [List.filterMap_filter, List.filter_filterMap, List.filter_filterMap]
  refine List.filterMap_congr (fun found hfound => ?_)
  cases hs : enclosure? text found with
  | none => split_ifs <;> rfl
  | some s =>
    by_cases hsurrounds : s.surrounds position = true
    · rw [if_pos (h found hfound s hs hsurrounds)]
    · have hnone : (some s).filter (·.surrounds position) = none := by simp [hsurrounds]
      split_ifs
      · rfl
      · exact hnone.symm

/-- Namespaces that are moved are around the same places. -/
theorem around_move {founds founds' : List Match}
    (h : List.Forall₂ (fun found found' =>
      enclosure? text' found' = (enclosure? text found).map (Stretch.move f)) founds founds')
    (hsurrounds : ∀ found ∈ founds, ∀ s, enclosure? text found = some s →
      (s.move f).surrounds position' = s.surrounds position) :
    (founds'.filterMap (enclosure? text')).filter (·.surrounds position') =
      ((founds.filterMap (enclosure? text)).filter (·.surrounds position)).map
        (Stretch.move f) := by
  have hmove : founds'.filterMap (enclosure? text') =
      (founds.filterMap (enclosure? text)).map (Stretch.move f) := by
    clear hsurrounds
    induction h with
    | nil => rfl
    | @cons found found' rest rest' hfound _ ih =>
      rw [List.filterMap_cons, List.filterMap_cons, hfound, ih]
      cases enclosure? text found <;> rfl
  rw [hmove]
  refine Stretch.filter_move (fun s hs => ?_)
  obtain ⟨found, hfound, hs⟩ := List.mem_filterMap.1 hs
  exact hsurrounds found hfound s hs

end Around

end Source

end Lineage
