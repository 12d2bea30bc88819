import Lineage.Proofs.Offsets

/-!
# Reading classes by byte offsets

`classesAt?` reads the classes of a text on its UTF-8 form: at byte offsets, with slices, searches
and tables that can fail.  It is `none` as soon as a slice has no text, a line number is not in the
list of lines, or a class ends before it starts.

The main statement is `classesAt?_eq`: it never fails, it finds the classes that are read at
positions, and each of them takes at least one line and at most as many as there are.
-/

namespace Lineage.Source

variable {grammar : Grammar} {text : List Char} {found : Match} {body : Stretch} {position : Nat}

/-! ### Stretches -/

theorem Stretch.surrounds_offsetOf {s : Stretch} (hs : s.Fits text)
    (hposition : position ≤ text.length) :
    (s.move (offsetOf text)).surrounds (offsetOf text position) = s.surrounds position :=
  surrounds_move (offsetOf_lt_iff hposition) (offsetOf_lt_iff hs.stop_le)

/-! ### Namespaces -/

/-- The stretch that a match of a namespace pattern names, by byte offsets. -/
def enclosureAt? (text : List Char) (found : Match) : Option (Option Stretch) :=
  match found.get? .name, found.get? .opening with
  | some name, some opening => do
    if ← inCommentByte? text (offsetOf text found.start) then return none
    let start := offsetOf text opening.start
    let stop ← if opening.chars == ['{'] then blockEndByte? text start else some (byteLength text)
    return some ⟨String.ofList (dotted name.chars), start, stop⟩
  | _, _ => some none

/-- The namespaces of a list of matches, by byte offsets. -/
def enclosuresAt? (text : List Char) : List Match → Option (List Stretch)
  | [] => some []
  | found :: rest => do
    let first ← enclosureAt? text found
    let others ← enclosuresAt? text rest
    return first.toList ++ others

theorem enclosureAt?_eq (hfound : found.Fits text) :
    enclosureAt? text found =
      some ((enclosure? text found).map (Stretch.move (offsetOf text))) := by
  unfold enclosureAt? enclosure?
  cases hname : found.get? .name with
  | none => rfl
  | some name =>
    cases hopening : found.get? .opening with
    | none => rfl
    | some opening =>
      obtain ⟨_, hle, hstop, _⟩ := hfound.capture hopening
      have hlength := hfound.stop_le
      dsimp only
      rw [inCommentByte?_offsetOf, blockEndByte?_offsetOf (by omega), ← offsetOf_length]
      cases inComment (text.take found.start) with
      | true => rfl
      | false =>
        simp only [Option.bind_eq_bind, Option.bind_some]
        split_ifs <;> rfl

theorem fits_of_enclosure? (hfound : found.Fits text) (h : enclosure? text found = some body) :
    body.Fits text := by
  unfold enclosure? at h
  simp only [Option.bind_eq_bind, Option.bind_eq_some_iff] at h
  obtain ⟨name, _, opening, hopening, h⟩ := h
  obtain ⟨_, hle, hstop, hsource⟩ := hfound.capture hopening
  have hlength := hfound.stop_le
  split at h
  · cases h
  · obtain rfl := Option.some.inj h
    split_ifs with hchars
    · have hblock := isBlock_blockEnd (getElem?_of_chars hsource (by simpa using hchars))
      exact ⟨Nat.le_of_lt hblock.start_lt, hblock.stop_le⟩
    · exact ⟨by dsimp only; omega, Nat.le_refl _⟩

theorem enclosuresAt?_eq {matches' : List Match} (h : ∀ found ∈ matches', found.Fits text) :
    enclosuresAt? text matches' =
      some ((matches'.filterMap (enclosure? text)).map (Stretch.move (offsetOf text))) := by
  induction matches' with
  | nil => rfl
  | cons found rest ih =>
    rw [enclosuresAt?, enclosureAt?_eq (h found List.mem_cons_self),
      ih (fun m hm => h m (List.mem_cons_of_mem found hm))]
    cases hfound : enclosure? text found with
    | none =>
      rw [List.filterMap_cons_none hfound]
      rfl
    | some e =>
      rw [List.filterMap_cons_some hfound]
      rfl

/-! ### Bodies -/

/-- The body that a header opens, by byte offsets. -/
def bodyAt? (grammar : Grammar) (text : List Char) (found : Match) : Option (Option Stretch) := do
  let hidden ← inCommentByte? text (offsetOf text found.start)
  if (found.get? .enumeration).isSome || hidden then return none
  match found.get? .name, found.get? .opening with
  | some name, some opening =>
    let start := offsetOf text opening.start
    if opening.chars == ['{'] then
      let stop ← blockEndByte? text start
      return some ⟨name.text, start, stop⟩
    else if grammar.allowsBodiless then return some ⟨name.text, start, offsetOf text opening.stop⟩
    else return none
  | _, _ => return none

theorem bodyAt?_eq (grammar : Grammar) (hfound : found.Fits text) :
    bodyAt? grammar text found =
      some ((body? grammar text found).map (Stretch.move (offsetOf text))) := by
  unfold bodyAt? body?
  rw [inCommentByte?_offsetOf, Option.bind_eq_bind, Option.bind_some]
  cases hname : found.get? .name with
  | none => split_ifs <;> rfl
  | some name =>
    cases hopening : found.get? .opening with
    | none => split_ifs <;> rfl
    | some opening =>
      obtain ⟨_, hle, hstop, _⟩ := hfound.capture hopening
      have hlength := hfound.stop_le
      dsimp only
      rw [blockEndByte?_offsetOf (by omega)]
      simp only [Option.bind_eq_bind, Option.bind_some]
      split_ifs <;> rfl

/-! ### Classes between braces -/

/-- The class of a header with the given body, by byte offsets. -/
def declareAt? (grammar : Grammar) (file : String) (text : List Char) (namespaces : List Stretch)
    (earlier : List Stretch) (found : Match) (body : Stretch) : Option Declaration := do
  let start := offsetOf text found.start
  let depth ← balanceAt? text start
  let inside ← sliceAt? text body.start body.stop
  let whole ← sliceAt? text start body.stop
  let heritage := grammar.heritage found
  let traits := grammar.traits found inside
  return {
    name := body.name
    file
    scope := scopeAt namespaces start
    base := heritage.base
    interfaces := heritage.interfaces
    isAbstract := traits.isAbstract
    isSealed := traits.isSealed
    isStatic := traits.isStatic
    methods := countMethods inside grammar.method body.name
    lines := lineSpan whole
    container :=
      if 0 < depth then (earlier.find? (·.surrounds start)).map (·.name) else none }

/-- Reads the classes of a list of header matches, by byte offsets. -/
def readHeadersAt? (grammar : Grammar) (file : String) (text : List Char)
    (namespaces : List Stretch) (earlier : List Stretch) : List Match → Option (List Declaration)
  | [] => some []
  | found :: rest => do
    match ← bodyAt? grammar text found with
    | none => readHeadersAt? grammar file text namespaces earlier rest
    | some body =>
      let first ← declareAt? grammar file text namespaces earlier found body
      let others ← readHeadersAt? grammar file text namespaces (body :: earlier) rest
      return first :: others

section Blocks

variable {namespaces earlier : List Stretch}

theorem declareAt?_eq (grammar : Grammar) (file : String)
    (hnamespaces : ∀ s ∈ namespaces, s.Fits text) (hearlier : ∀ s ∈ earlier, s.Fits text)
    (hfound : found.start ≤ body.start) (hbody : body.Fits text) :
    declareAt? grammar file text (namespaces.map (Stretch.move (offsetOf text)))
        (earlier.map (Stretch.move (offsetOf text))) found (body.move (offsetOf text)) =
      some (declare grammar file text namespaces earlier found body) := by
  have hstop := hbody.stop_le
  have hstart : found.start ≤ body.stop := Nat.le_trans hfound hbody.start_le
  have hposition : found.start ≤ text.length := Nat.le_trans hstart hstop
  have hinside : sliceAt? text (body.move (offsetOf text)).start (body.move (offsetOf text)).stop =
      some (slice text body.start body.stop) := sliceAt?_offsetOf hbody.start_le hstop
  have hwhole : sliceAt? text (offsetOf text found.start) (body.move (offsetOf text)).stop =
      some (slice text found.start body.stop) := sliceAt?_offsetOf hstart hstop
  unfold declareAt? declare containerAt
  dsimp only
  rw [balanceAt?_offsetOf, hinside, hwhole,
    scopeAt_move (fun s hs => Stretch.surrounds_offsetOf (hnamespaces s hs) hposition),
    Stretch.find?_move (fun s hs => Stretch.surrounds_offsetOf (hearlier s hs) hposition),
    Option.map_map]
  rfl

theorem readHeadersAt?_eq (grammar : Grammar) (file : String)
    (hnamespaces : ∀ s ∈ namespaces, s.Fits text) (hearlier : ∀ s ∈ earlier, s.Fits text)
    {matches' : List Match} (h : ∀ found ∈ matches', found.Fits text) :
    readHeadersAt? grammar file text (namespaces.map (Stretch.move (offsetOf text)))
        (earlier.map (Stretch.move (offsetOf text))) matches' =
      some (readHeaders grammar file text namespaces earlier matches') := by
  induction matches' generalizing earlier with
  | nil => rfl
  | cons found rest ih =>
    have hfound := h found List.mem_cons_self
    have hrest := fun m hm => h m (List.mem_cons_of_mem found hm)
    rw [readHeadersAt?, readHeaders, bodyAt?_eq grammar hfound]
    cases hbody : body? grammar text found with
    | none => exact ih hearlier hrest
    | some body =>
      obtain ⟨hstart, hfits⟩ := fits_of_body? hfound hbody
      have hbodies : ∀ s ∈ body :: earlier, s.Fits text :=
        List.forall_mem_cons.2 ⟨hfits, hearlier⟩
      have hnext := ih hbodies hrest
      rw [Option.map_some, Option.bind_eq_bind, Option.bind_some]
      dsimp only
      rw [declareAt?_eq grammar file hnamespaces hearlier hstart hfits]
      rw [List.map_cons] at hnext
      rw [hnext]
      rfl

theorem lines_readHeaders (grammar : Grammar) (file : String) (namespaces earlier : List Stretch)
    (matches' : List Match) :
    ∀ d ∈ readHeaders grammar file text namespaces earlier matches',
      1 ≤ d.lines ∧ d.lines ≤ text.count '\n' + 1 := by
  induction matches' generalizing earlier with
  | nil =>
    intro d hd
    cases hd
  | cons found rest ih =>
    intro d hd
    rw [readHeaders] at hd
    cases hbody : body? grammar text found with
    | none =>
      rw [hbody] at hd
      exact ih earlier d hd
    | some body =>
      rw [hbody] at hd
      rcases List.mem_cons.1 hd with rfl | hd
      · -- the lines of a class are counted in a part of the text
        have hslice : (slice text found.start body.stop).Sublist text :=
          (List.take_sublist _ _).trans (List.drop_sublist _ _)
        exact ⟨Nat.le_add_left 1 _, Nat.succ_le_succ (hslice.count_le '\n')⟩
      · exact ih (body :: earlier) d hd

end Blocks

/-! ### Classes set apart by indentation -/

/-- The lines of the class of a header, by byte offsets and line starts. -/
def extentAt? (text : List Char) (lines : List (List Char)) (starts : List Nat) (found : Match) :
    Option (Option Extent) :=
  match found.get? .name, found.get? .indent with
  | some name, some margin =>
    let indent := indentation margin.chars
    let first := lineIndex starts (offsetOf text found.start)
    let header := lineIndex starts (offsetOf text found.stop - 1)
    let last := extentEnd lines header indent
    if first ≤ last ∧ last < lines.length then some (some ⟨name.text, indent, first, last⟩)
    else none
  | _, _ => some none

/-- Reads the classes of a list of header matches, by byte offsets. -/
def readLayoutAt? (file : String) (text : List Char) (lines : List (List Char))
    (starts : List Nat) (earlier : List Extent) : List Match → Option (List Declaration)
  | [] => some []
  | found :: rest => do
    match ← extentAt? text lines starts found with
    | none => readLayoutAt? file text lines starts earlier rest
    | some extent =>
      let others ← readLayoutAt? file text lines starts (extent :: earlier) rest
      return declareLines file lines earlier found extent :: others

/-- The last byte of a header is that of its last character. -/
theorem offsetOf_stop_sub_one (h : found ∈ layoutHeader.matchesIn text) :
    offsetOf text found.stop - 1 = offsetOf text (found.stop - 1) := by
  obtain ⟨hlt, hcolon⟩ := colon_of_mem h
  have hstop : found.stop = found.stop - 1 + 1 := by omega
  have hlast : offsetOf (text.drop (found.stop - 1)) 1 = 1 := by
    rw [Cursor.drop_of_getElem? hcolon]
    rfl
  have hsucc := offsetOf_add text (found.stop - 1) 1
  rw [← hstop, hlast] at hsucc
  rw [hsucc, Nat.add_sub_cancel]

theorem extentAt?_eq (h : found ∈ layoutHeader.matchesIn text) :
    extentAt? text (Text.lines text) (lineStarts text) found =
      some (extent? text (Text.lines text) found) := by
  unfold extentAt? extent?
  rw [offsetOf_stop_sub_one h, lineIndex_offsetOf, lineIndex_offsetOf]
  cases found.get? .name with
  | none => rfl
  | some name =>
    cases found.get? .indent with
    | none => rfl
    | some margin => exact if_pos (extent_of_mem h (indentation margin.chars))

theorem readLayoutAt?_eq (file : String) (earlier : List Extent) {matches' : List Match}
    (h : ∀ found ∈ matches', found ∈ layoutHeader.matchesIn text) :
    readLayoutAt? file text (Text.lines text) (lineStarts text) earlier matches' =
      some (readLayout file text (Text.lines text) earlier matches') := by
  induction matches' generalizing earlier with
  | nil => rfl
  | cons found rest ih =>
    have hrest := fun m hm => h m (List.mem_cons_of_mem found hm)
    rw [readLayoutAt?, readLayout, extentAt?_eq (h found List.mem_cons_self)]
    cases extent? text (Text.lines text) found with
    | none => exact ih earlier hrest
    | some extent =>
      rw [Option.bind_eq_bind, Option.bind_some]
      dsimp only
      rw [ih (extent :: earlier) hrest]
      rfl

/-- The lines of a class are lines of the text. -/
theorem last_lt_of_extent? (h : found ∈ layoutHeader.matchesIn text) {extent : Extent}
    (hextent : extent? text (Text.lines text) found = some extent) :
    extent.last < (Text.lines text).length := by
  unfold extent? at hextent
  simp only [Option.bind_eq_bind, Option.bind_eq_some_iff] at hextent
  obtain ⟨name, _, margin, _, hextent⟩ := hextent
  obtain rfl := Option.some.inj hextent
  exact (extent_of_mem h (indentation margin.chars)).2

theorem lines_readLayout (file : String) (earlier : List Extent) {matches' : List Match}
    (h : ∀ found ∈ matches', found ∈ layoutHeader.matchesIn text) :
    ∀ d ∈ readLayout file text (Text.lines text) earlier matches',
      1 ≤ d.lines ∧ d.lines ≤ text.count '\n' + 1 := by
  induction matches' generalizing earlier with
  | nil =>
    intro d hd
    cases hd
  | cons found rest ih =>
    intro d hd
    have hrest := fun m hm => h m (List.mem_cons_of_mem found hm)
    rw [readLayout] at hd
    cases hextent : extent? text (Text.lines text) found with
    | none =>
      rw [hextent] at hd
      exact ih earlier hrest d hd
    | some extent =>
      rw [hextent] at hd
      rcases List.mem_cons.1 hd with rfl | hd
      · have hlast := last_lt_of_extent? (h found List.mem_cons_self) hextent
        have hlines := Text.length_lines_le text
        show 1 ≤ extent.last - extent.first + 1 ∧ extent.last - extent.first + 1 ≤ _
        omega
      · exact ih (extent :: earlier) hrest d hd

/-! ### All classes -/

/-- The classes of a text, read by byte offsets; none if that goes wrong at any place. -/
def classesAt? (language : Language) (file : String) (text : String) : Option (List Declaration) :=
  match grammar? language with
  | some grammar => do
    let namespaces ← enclosuresAt? text.toList (grammar.enclosure.matchesIn text.toList)
    readHeadersAt? grammar file text.toList namespaces [] (grammar.header.matchesIn text.toList)
  | none => readLayoutAt? file text.toList (Text.lines text.toList) (lineStarts text.toList) []
    (layoutHeader.matchesIn text.toList)

/-- **Reading never goes wrong**: at byte offsets every slice is in the text, every line is in the
list and no class ends before it starts, so the classes are found, and each takes between one line
and all. -/
theorem classesAt?_eq (language : Language) (file : String) (text : String) :
    classesAt? language file text = some (classes language file text) ∧
      ∀ d ∈ classes language file text, 1 ≤ d.lines ∧ d.lines ≤ text.toList.count '\n' + 1 := by
  unfold classesAt? classes
  cases grammar? language with
  | none =>
    have hmem := fun (found : Match) (h : found ∈ layoutHeader.matchesIn text.toList) => h
    exact ⟨readLayoutAt?_eq file [] hmem, lines_readLayout file [] hmem⟩
  | some grammar =>
    have hnamespaces : ∀ s ∈ enclosures grammar text.toList, s.Fits text.toList := by
      intro s hs
      obtain ⟨found, hfound, hs⟩ := List.mem_filterMap.1 hs
      exact fits_of_enclosure? (Match.fits_of_mem hfound) hs
    -- all matches lie in the text, and with them all namespaces and bodies
    refine ⟨?_, lines_readHeaders grammar file _ _ _⟩
    dsimp only
    rw [enclosuresAt?_eq (fun found hfound => Match.fits_of_mem hfound)]
    have hnone : ∀ s ∈ ([] : List Stretch), s.Fits text.toList := by simp
    exact readHeadersAt?_eq grammar file hnamespaces hnone
      (fun found hfound => Match.fits_of_mem hfound)

/-- A body that is never closed, with a character of two bytes on both sides of its brace and a
carriage return before the end of the only line. -/
theorem classesAt?_eq_unclosed :
    let text := "class Aé\x7bé\r\n"
    (classes .csharp "a.cs" text).map (fun d => (d.name, d.lines)) = [("Aé", 2)] ∧
      classesAt? .csharp "a.cs" text = some (classes .csharp "a.cs" text) ∧
      ∀ d ∈ classes .csharp "a.cs" text, 1 ≤ d.lines ∧ d.lines ≤ text.toList.count '\n' + 1 :=
  ⟨by decide +kernel, classesAt?_eq .csharp "a.cs" _⟩

end Lineage.Source
