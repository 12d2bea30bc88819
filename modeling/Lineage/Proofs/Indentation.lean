import Lineage.Proofs.LineEndings
import Lineage.Proofs.Lines
import Lineage.Source.Classes
import Mathlib.Data.List.TakeWhile

/-!
# Classes below classes

In a language with indentation a class gets the name of the last earlier class that is indented less
and reaches to its line.  The body of a class goes on through the lines that are silent or deeper
than the class (`le_extentEnd_iff`), and the line of a class header is neither silent nor deeper
than the header itself (`laid_of_mem`).  So the classes that reach to a line are indented deeper and
deeper in the order of their headers, and the last of them is the innermost one.  The main statement
is `indented_classes`.
-/

namespace Lineage

/-! ### Lines as they are listed -/

namespace Text

theorem dropReturn_eq (line : List Char) :
    dropReturn line = line ∨ line = dropReturn line ++ ['\r'] := by
  unfold dropReturn
  split
  · next rest hrest =>
    have hline := congrArg List.reverse hrest
    rw [List.reverse_reverse, List.reverse_cons] at hline
    exact Or.inr hline
  · exact Or.inl rfl

/-- A line keeps its start without the carriage return at its end. -/
theorem dropReturn_append_cons {c : Char} (hc : c ≠ '\r') (front more : List Char) :
    ∃ more', dropReturn (front ++ c :: more) = front ++ c :: more' := by
  rcases dropReturn_eq (front ++ c :: more) with heq | heq
  · exact ⟨more, heq⟩
  · rcases List.eq_nil_or_concat' more with rfl | ⟨more', d, rfl⟩
    · exact absurd (List.cons.inj (List.append_inj' heq rfl).2).1 hc
    · rw [← List.cons_append, ← List.append_assoc] at heq ⊢
      exact ⟨more', (List.append_inj' heq rfl).1.symm⟩

/-- Trimming stops at the first character that is not blank. -/
theorem head?_trim {margin : List Char} {c : Char} (hmargin : ∀ a ∈ margin, isBlank a = true)
    (hc : isBlank c = false) (more : List Char) :
    (trim (margin ++ c :: more)).head? = some c := by
  have hstart : trimStart (margin ++ c :: more) = c :: more := by
    rw [trimStart, List.dropWhile_append_of_pos hmargin,
      List.dropWhile_cons_of_neg (by simp [hc])]
  have hend : trimEnd (c :: more) = c :: trimEnd more := by
    rw [trimEnd, List.reverse_cons, List.dropWhile_append]
    split_ifs with hempty
    · rw [List.dropWhile_cons_of_neg (by simp [hc]), trimEnd, List.isEmpty_iff.1 hempty]
      rfl
    · rw [List.reverse_append, trimEnd]
      rfl
  rw [trim, hstart, hend, List.head?_cons]

end Text

namespace Source

open Pattern

variable {text : List Char} {i : Nat}

/-- The blanks before a character that is not blank make up the indentation. -/
theorem indentation_append_cons {margin : List Char} {c : Char}
    (hmargin : ∀ a ∈ margin, Text.isBlank a = true) (hc : Text.isBlank c = false)
    (more : List Char) : indentation (margin ++ c :: more) = indentation margin := by
  rw [indentation, indentation, List.takeWhile_append_of_pos hmargin,
    List.takeWhile_cons_of_neg (by simp [hc]), List.append_nil,
    List.takeWhile_eq_self_iff.2 hmargin]

theorem isSilent_append_cons {margin : List Char} {c : Char}
    (hmargin : ∀ a ∈ margin, Text.isBlank a = true) (hc : Text.isBlank c = false) (hmark : c ≠ '#')
    (more : List Char) : isSilent (margin ++ c :: more) = false := by
  obtain ⟨rest, hrest⟩ := List.head?_eq_some_iff.1 (Text.head?_trim hmargin hc more)
  rw [isSilent, hrest]
  exact beq_false_of_ne hmark

theorem lineAt_succ (h : text[i]? = some '\n') : lineAt text (i + 1) = lineAt text i + 1 := by
  rw [lineAt, List.take_add_one, h, List.count_append]
  rfl

/-- A line that is not the first one starts behind a newline. -/
theorem newline_of_atLineStart (hi : i < text.length)
    (h : (Cursor.place text (i + 1)).atLineStart = true) : text[i]? = some '\n' := by
  have hc : text[i]? = some (text.get ⟨i, hi⟩) := List.getElem?_eq_getElem hi
  rw [Cursor.place_succ hc] at h
  rw [hc, beq_iff_eq.1 h]

/-- The piece of a text at the start of a line. -/
theorem getElem?_pieces_lineAt (hi : i ≤ text.length)
    (h : (Cursor.place text i).atLineStart = true) :
    (Text.pieces (· == '\n') text)[lineAt text i]? =
      some ((text.drop i).takeWhile (fun c => !(c == '\n'))) := by
  cases i with
  | zero => rw [← Text.head?_pieces, List.head?_eq_getElem?]; rfl
  | succ i =>
    have hnewline := newline_of_atLineStart hi h
    have hsplit : text = text.take i ++ '\n' :: text.drop (i + 1) := by
      rw [← Cursor.drop_of_getElem? hnewline, List.take_append_drop]
    have hlength : (Text.pieces (· == '\n') (text.take i)).length = lineAt text (i + 1) := by
      rw [Text.length_pieces, lineAt_succ hnewline]
      rfl
    have hpieces : Text.pieces (· == '\n') text =
        Text.pieces (· == '\n') (text.take i) ++ Text.pieces (· == '\n') (text.drop (i + 1)) := by
      conv_lhs => rw [hsplit]
      exact Text.pieces_append_of_pos rfl _ _
    rw [hpieces, ← hlength, List.getElem?_append_right (Nat.le_refl _), Nat.sub_self,
      ← List.head?_eq_getElem?, Text.head?_pieces]

/-- A line that starts with blanks and a character other than a blank is listed with them. -/
theorem exists_line {margin more : List Char} {c : Char} (hi : i ≤ text.length)
    (hstart : (Cursor.place text i).atLineStart = true)
    (hdrop : text.drop i = margin ++ c :: more)
    (hmargin : ∀ a ∈ margin, Text.isBlank a = true ∧ a ≠ '\n') (hc : Text.isBlank c = false) :
    ∃ more', (Text.lines text)[lineAt text i]? = some (margin ++ c :: more') := by
  have hcn : c ≠ '\n' := by rintro rfl; cases hc
  have hcr : c ≠ '\r' := by rintro rfl; cases hc
  have hpart := getElem?_pieces_lineAt hi hstart
  rw [hdrop, List.takeWhile_append_of_pos (fun a ha => by simp [(hmargin a ha).2]),
    List.takeWhile_cons_of_pos (by simp [hcn])] at hpart
  obtain ⟨line, hline, rfl | rfl⟩ := Text.getElem?_lines hpart (by simp)
  · exact ⟨_, hline⟩
  · obtain ⟨more', hmore⟩ := Text.dropReturn_append_cons hcr margin
      (more.takeWhile (fun c => !(c == '\n')))
    exact ⟨more', hmore ▸ hline⟩

/-! ### Headers at the start of a line -/

theorem find?_spots_eq_none {p : Pattern} (mark : Mark) (hp : p.bodies mark = []) {r : Route}
    (hr : r ∈ p.routes text i) : r.spots.find? (·.mark == mark) = none := by
  rw [List.find?_eq_none]
  intro s hs hmark
  obtain ⟨body, hbody, _⟩ := exists_mem_bodies p i r hr s hs
  rw [beq_iff_eq.1 hmark, hp] at hbody
  cases hbody

/-- A route from the start of a line over a remembered run of characters. -/
theorem exists_of_mem_margin {mark : Mark} {set : Char → Bool} {q : Pattern} {r : Route}
    (hr : r ∈ (seq lineStart (seq (marked mark (run set true)) q)).routes text i) :
    (Cursor.place text i).atLineStart = true ∧ ∃ j ∈ Cursor.runEnds set text i,
      ∃ r' ∈ q.routes text j, r.spots = r'.spots ++ [⟨mark, i, j⟩] := by
  obtain ⟨r₁, h₁, r₂, h₂, rfl⟩ := mem_andThen.1 hr
  rw [routes, List.mem_ite_nil_right, List.mem_singleton] at h₁
  obtain ⟨hline, rfl⟩ := h₁
  obtain ⟨r₃, h₃, r', hr', rfl⟩ := mem_andThen.1 h₂
  obtain ⟨r₄, h₄, rfl⟩ := List.mem_map.1 h₃
  obtain ⟨j, hj, rfl⟩ := mem_routes_run.1 h₄
  exact ⟨hline, j, hj, r', hr', by simp [Route.after, Route.note]⟩

theorem forall_mem_slice_of_mem_runEnds {set : Char → Bool} {j : Nat}
    (hj : j ∈ Cursor.runEnds set text i) : ∀ c ∈ slice text i j, set c = true := by
  intro c hc
  obtain ⟨k, hik, hkj, hk⟩ := getElem?_of_mem_slice hc
  obtain ⟨c', hc', hset⟩ := getElem?_of_mem_runEnds hj hik hkj
  rw [hk] at hc'
  exact Option.some.inj hc' ▸ hset

/-- The parts of a header that say where its class stands. -/
structure Margin (text : List Char) (found : Match) (margin : List Char) : Prop where
  start : (Cursor.place text found.start).atLineStart = true
  blank : ∀ c ∈ margin, c = ' ' ∨ c = '\t'
  word : ∃ more, text.drop found.start = margin ++ 'c' :: more

/-- A header starts a line with its margin and the word of a class. -/
theorem margin_of_mem {found : Match} (h : found ∈ layoutHeader.matchesIn text) :
    ∃ margin, found.get? .indent = some margin ∧ Margin text found margin.chars := by
  rw [Pattern.matchesIn_eq, List.mem_map] at h
  obtain ⟨hit, hmem, rfl⟩ := h
  have hroute := (mem_routes_of_mem_hitsIn hmem).2
  have hheader : layoutHeader = seq lineStart (seq (marked .indent tabs)
      (seq (literal "class") (back 3 layoutHeader))) := rfl
  rw [hheader] at hroute
  obtain ⟨hline, j, hj, r, hr, hspots⟩ := exists_of_mem_margin hroute
  have hindent : (hit.toMatch text).get? .indent =
      some ⟨hit.start, j, text.drop hit.start⟩ := by
    rw [Match.get?_toMatch, hspots, List.find?_append,
      find?_spots_eq_none .indent (by decide +kernel) hr]
    rfl
  have hchars : (Capture.mk hit.start j (text.drop hit.start)).chars = slice text hit.start j := rfl
  refine ⟨_, hindent, hline, ?_, ?_⟩
  · intro c hc
    have hset := forall_mem_slice_of_mem_runEnds hj c (hchars ▸ hc)
    simpa using hset
  · obtain ⟨r', hr', _⟩ := mem_andThen.1 hr
    have hword := drop_of_mem_literal hr'
    refine ⟨"lass".toList ++ text.drop r'.stop, ?_⟩
    have hle := (mem_runEnds hj).1
    calc text.drop hit.start = slice text hit.start j ++ text.drop j := by
          rw [slice, ← Nat.add_sub_cancel' hle, ← List.drop_drop, Nat.add_sub_cancel_left,
            List.take_append_drop]
      _ = _ := by rw [hword]; rfl

/-! ### How far a class reaches -/

/-- Whether a line that follows a class header goes on with its body. -/
def goesOn (indent : Nat) (content : List Char) : Bool :=
  isSilent content || decide (indent < indentation content)

theorem goesOn_mono {indent indent' : Nat} (h : indent ≤ indent') {content : List Char}
    (hon : goesOn indent' content = true) : goesOn indent content = true := by
  rw [goesOn, Bool.or_eq_true, decide_eq_true_eq] at hon ⊢
  exact hon.imp_right (Nat.lt_of_le_of_lt h)

/-- A body has the lines that follow its header up to the first one that does not go on. -/
theorem lastOfBody_eq (indent last : Nat) (rest : List (List Char)) :
    lastOfBody indent (last + 1) last rest = last + (rest.takeWhile (goesOn indent)).length := by
  induction rest generalizing last with
  | nil => rfl
  | cons content rest ih =>
    unfold lastOfBody
    by_cases hsilent : isSilent content = true
    · rw [if_pos hsilent, ih, List.takeWhile_cons_of_pos (by simp [goesOn, hsilent]),
        List.length_cons]
      omega
    · by_cases hindent : indentation content ≤ indent
      · rw [if_neg hsilent, if_pos hindent,
          List.takeWhile_cons_of_neg (by simp [goesOn, hsilent, hindent])]
        rfl
      · rw [if_neg hsilent, if_neg hindent, ih,
          List.takeWhile_cons_of_pos (by simp [goesOn]; omega), List.length_cons]
        omega

theorem le_length_takeWhile_iff {p : List Char → Bool} {n : Nat} {rest : List (List Char)} :
    n ≤ (rest.takeWhile p).length ↔ ∀ k < n, ∃ content, rest[k]? = some content ∧ p content := by
  induction rest generalizing n with
  | nil =>
    cases n with
    | zero => simp
    | succ n => exact iff_of_false (by simp) (fun h => by simpa using h 0 (Nat.succ_pos n))
  | cons content rest ih =>
    cases n with
    | zero => simp
    | succ n =>
      rw [Nat.forall_lt_succ_left]
      by_cases hp : p content = true
      · simp [List.takeWhile_cons_of_pos hp, ih, hp]
      · simp [List.takeWhile_cons_of_neg hp, hp]

/-- A class reaches to a line below its header if the body goes on through all lines up to it. -/
theorem le_extentEnd_iff {lines : List (List Char)} {header indent line : Nat}
    (h : header ≤ line) :
    line ≤ extentEnd lines header indent ↔ ∀ k, header < k → k ≤ line →
      ∃ content, lines[k]? = some content ∧ goesOn indent content = true := by
  have hcount : line ≤ extentEnd lines header indent ↔
      line - header ≤ ((lines.drop (header + 1)).takeWhile (goesOn indent)).length := by
    rw [extentEnd, lastOfBody_eq]
    omega
  rw [hcount, le_length_takeWhile_iff]
  constructor
  · intro hall k hlt hle
    obtain ⟨content, hcontent, hon⟩ := hall (k - (header + 1)) (by omega)
    rw [List.getElem?_drop, Nat.add_sub_cancel' hlt] at hcontent
    exact ⟨content, hcontent, hon⟩
  · intro hall k hlt
    obtain ⟨content, hcontent, hon⟩ := hall (header + 1 + k) (by omega) (by omega)
    exact ⟨content, by rw [List.getElem?_drop, hcontent], hon⟩

/-- A class as it stands among the lines of a text: its header starts on a line with its
indentation and ends on line `header`. -/
structure Laid (lines : List (List Char)) (header : Nat) (e : Extent) : Prop where
  first_le : e.first ≤ header
  line : ∃ content, lines[e.first]? = some content ∧ isSilent content = false ∧
    indentation content = e.indent
  last : e.last = extentEnd lines header e.indent

namespace Laid

variable {lines : List (List Char)} {header header' : Nat} {outer inner : Extent}

/-- A class that starts in the body of another one is indented deeper. -/
theorem indent_lt (houter : Laid lines header outer) (hinner : Laid lines header' inner)
    (hbelow : header < inner.first) (hreach : inner.first ≤ outer.last) :
    outer.indent < inner.indent := by
  rw [houter.last, le_extentEnd_iff (Nat.le_of_lt hbelow)] at hreach
  obtain ⟨content, hcontent, hon⟩ := hreach inner.first hbelow (Nat.le_refl _)
  obtain ⟨content', hcontent', hsilent, hindent⟩ := hinner.line
  obtain rfl : content = content' := Option.some.inj (hcontent.symm.trans hcontent')
  rw [goesOn, hsilent, hindent, Bool.false_or, decide_eq_true_eq] at hon
  exact hon

theorem first_le_last (h : Laid lines header inner) : inner.first ≤ inner.last := by
  rw [h.last]
  exact Nat.le_trans h.first_le (le_lastOfBody inner.indent (Nat.le_succ header) _)

/-- A class with a header of one line ends no later than one that reaches to this line. -/
theorem last_le (houter : Laid lines header outer) (hinner : Laid lines inner.first inner)
    (hbelow : header < inner.first) (hreach : inner.first ≤ outer.last) :
    inner.last ≤ outer.last := by
  have hindent := houter.indent_lt hinner hbelow hreach
  have hlast := hinner.first_le_last
  rw [houter.last, le_extentEnd_iff (by omega)] at hreach ⊢
  intro k hk hle
  -- up to the inner header the outer body goes on by itself, and then through the inner body
  rcases Nat.lt_or_ge inner.first k with hfirst | hfirst
  · have hbody := (le_extentEnd_iff hlast).1 (Nat.le_of_eq hinner.last)
    obtain ⟨content, hcontent, hon⟩ := hbody k hfirst hle
    exact ⟨content, hcontent, goesOn_mono (Nat.le_of_lt hindent) hon⟩
  · exact hreach k hk hfirst

end Laid

/-! ### Headers with their extents -/

/-- The headers of a text, each with the lines of its class. -/
def layouts (text : List Char) : List (Match × Extent) :=
  (layoutHeader.matchesIn text).filterMap (fun found =>
    (extent? text (Text.lines text) found).map (found, ·))

/-- The line on which a header ends. -/
def headerEnd (text : List Char) (found : Match) : Nat :=
  lineAt text (found.stop - 1)

theorem mem_layouts {x : Match × Extent} : x ∈ layouts text ↔
    x.1 ∈ layoutHeader.matchesIn text ∧ extent? text (Text.lines text) x.1 = some x.2 := by
  rw [layouts, mem_filterMap_pair]

/-- The class of a header stands on its line with its margin. -/
theorem laid_of_mem {x : Match × Extent} (h : x ∈ layouts text) :
    x.2.first = lineAt text x.1.start ∧ Laid (Text.lines text) (headerEnd text x.1) x.2 := by
  obtain ⟨hmem, hextent⟩ := mem_layouts.1 h
  obtain ⟨margin, hindent, hmargin⟩ := margin_of_mem hmem
  have hfits := Match.fits_of_mem hmem
  obtain ⟨hlt, _⟩ := colon_of_mem hmem
  simp only [extent?, hindent, Option.bind_eq_bind, Option.bind_some,
    Option.bind_eq_some_iff, Option.some.injEq] at hextent
  obtain ⟨name, _, hx⟩ := hextent
  have hblank : ∀ c ∈ margin.chars, Text.isBlank c = true ∧ c ≠ '\n' := by
    intro c hc
    rcases hmargin.blank c hc with rfl | rfl
    · exact ⟨rfl, by decide⟩
    · exact ⟨rfl, by decide⟩
  obtain ⟨more, hmore⟩ := hmargin.word
  obtain ⟨more', hline⟩ := exists_line (Nat.le_trans hfits.start_le hfits.stop_le) hmargin.start
    hmore hblank rfl
  rw [← hx]
  refine ⟨rfl, lineAt_mono text (by omega), ⟨_, hline, ?_, ?_⟩, rfl⟩
  · exact isSilent_append_cons (fun c hc => (hblank c hc).1) rfl (by decide) more'
  · exact indentation_append_cons (fun c hc => (hblank c hc).1) rfl more'

/-- A line that starts behind a place that is no newline is a later one. -/
theorem lineAt_lt_of_atLineStart {j : Nat} {c : Char} (hc : text[i]? = some c) (hne : c ≠ '\n')
    (hij : i < j) (hj : j ≤ text.length) (h : (Cursor.place text j).atLineStart = true) :
    lineAt text i < lineAt text j := by
  obtain ⟨k, rfl⟩ := Nat.exists_eq_add_one_of_ne_zero (Nat.ne_zero_of_lt hij)
  have hnewline := newline_of_atLineStart hj h
  have hik : i ≠ k := by
    rintro rfl
    exact hne (Option.some.inj (hc.symm.trans hnewline))
  have hle := lineAt_mono text (show i ≤ k by omega)
  rw [lineAt_succ hnewline]
  omega

/-- A class starts below the headers of the classes before it. -/
theorem pairwise_layouts (text : List Char) :
    (layouts text).Pairwise (fun x y => headerEnd text x.1 < y.2.first) := by
  refine (pairwise_filterMap_pair (Match.pairwise_matchesIn layoutHeader text)).imp_of_mem ?_
  intro x y hx hy hxy
  obtain ⟨hlt, hcolon⟩ := colon_of_mem (mem_layouts.1 hx).1
  obtain ⟨_, _, hmargin⟩ := margin_of_mem (mem_layouts.1 hy).1
  have hfits := Match.fits_of_mem (mem_layouts.1 hy).1
  rw [(laid_of_mem hy).1]
  exact lineAt_lt_of_atLineStart hcolon (by decide) (by omega)
    (Nat.le_trans hfits.start_le hfits.stop_le) hmargin.start

/-! ### The classes that are read -/

namespace Extent

/-- Whether a line is one of the lines of a class. -/
def reaches (e : Extent) (line : Nat) : Bool :=
  decide (e.first ≤ line) && decide (line ≤ e.last)

theorem reaches_iff {e : Extent} {line : Nat} :
    e.reaches line = true ↔ e.first ≤ line ∧ line ≤ e.last := by
  rw [reaches, Bool.and_eq_true, decide_eq_true_eq, decide_eq_true_eq]

end Extent

/-- The classes before number `i` that reach to a line, in the order of their headers. -/
def reaching (text : List Char) (i line : Nat) : List (Match × Extent) :=
  ((layouts text).take i).filter (·.2.reaches line)

/-- The classes that are read belong to the headers, one by one. -/
theorem getElem?_readLayout (file : String) (lines : List (List Char)) (earlier : List Extent)
    (founds : List Match) (i : Nat) :
    (readLayout file text lines earlier founds)[i]? =
      let found := founds.filterMap (fun found => (extent? text lines found).map (found, ·))
      found[i]?.map (fun x => declareLines file lines
        (((found.take i).map Prod.snd).reverse ++ earlier) x.1 x.2) := by
  induction founds generalizing i earlier with
  | nil => rfl
  | cons found rest ih =>
    unfold readLayout
    cases hextent : extent? text lines found with
    | none =>
      rw [List.filterMap_cons_none (by rw [hextent]; rfl)]
      exact ih earlier i
    | some extent =>
      rw [List.filterMap_cons_some (b := (found, extent)) (by rw [hextent]; rfl)]
      cases i with
      | zero => rfl
      | succ i =>
        rw [List.getElem?_cons_succ, ih (extent :: earlier) i]
        simp

theorem layoutClasses_eq (file : String) (text : List Char) :
    layoutClasses file text = (layouts text).mapIdx (fun i x =>
      declareLines file (Text.lines text) (((layouts text).take i).map Prod.snd).reverse
        x.1 x.2) := by
  refine List.ext_getElem? (fun i => ?_)
  rw [layoutClasses, getElem?_readLayout, List.getElem?_mapIdx]
  dsimp only
  rw [List.append_nil]
  rfl

section Container

variable {x : Match × Extent}

theorem lt_first_of_mem_take (hx : (layouts text)[i]? = some x) {y : Match × Extent}
    (hy : y ∈ (layouts text).take i) : headerEnd text y.1 < x.2.first := by
  obtain ⟨hi, rfl⟩ := List.getElem?_eq_some_iff.1 hx
  obtain ⟨j, hj, rfl⟩ := List.mem_take_iff_getElem.1 hy
  exact List.pairwise_iff_getElem.1 (pairwise_layouts text) j i _ hi (by omega)

/-- For an earlier class, to reach to the line of a class is all that it takes to hold it. -/
theorem holds_eq_reaches (hx : (layouts text)[i]? = some x) {y : Match × Extent}
    (hy : y ∈ (layouts text).take i) :
    y.2.holds x.2.indent x.2.first = y.2.reaches x.2.first := by
  have hbelow := lt_first_of_mem_take hx hy
  have houter := (laid_of_mem (List.mem_of_mem_take hy)).2
  have hinner := (laid_of_mem (List.mem_of_getElem? hx)).2
  have hfirst := houter.first_le
  rw [Bool.eq_iff_iff, Extent.reaches_iff, Extent.holds]
  simp only [Bool.and_eq_true, decide_eq_true_eq]
  constructor
  · rintro ⟨⟨_, _⟩, hlast⟩
    exact ⟨by omega, hlast⟩
  · rintro ⟨_, hlast⟩
    exact ⟨⟨houter.indent_lt hinner hbelow hlast, by omega⟩, hlast⟩

/-- The container is the last one of the classes that reach to the line. -/
theorem container_eq (hx : (layouts text)[i]? = some x) (file : String) :
    (declareLines file (Text.lines text) (((layouts text).take i).map Prod.snd).reverse
      x.1 x.2).container = (reaching text i x.2.first).getLast?.map (·.2.name) := by
  have hfilter : ((layouts text).take i).filter (·.2.holds x.2.indent x.2.first) =
      reaching text i x.2.first :=
    List.filter_congr (fun y hy => holds_eq_reaches hx hy)
  have hfind : ((((layouts text).take i).map Prod.snd).reverse.find?
      (·.holds x.2.indent x.2.first)) = (reaching text i x.2.first).getLast?.map Prod.snd := by
    rw [← List.map_reverse, List.find?_map, ← List.head?_filter, List.filter_reverse,
      List.head?_reverse, ← hfilter]
    rfl
  rw [declareLines, hfind, Option.map_map]
  rfl

/-- A class starts below the headers of the classes that reach to its line. -/
theorem laid_of_mem_reaching (hx : (layouts text)[i]? = some x) {y : Match × Extent}
    (hy : y ∈ reaching text i x.2.first) :
    Laid (Text.lines text) (headerEnd text y.1) y.2 ∧ headerEnd text y.1 < x.2.first ∧
      x.2.first ≤ y.2.last := by
  obtain ⟨hmem, hreaches⟩ := List.mem_filter.1 hy
  exact ⟨(laid_of_mem (List.mem_of_mem_take hmem)).2, lt_first_of_mem_take hx hmem,
    (Extent.reaches_iff.1 hreaches).2⟩

/-- The classes that reach to the line of a class are indented less. -/
theorem indent_lt_of_mem_reaching (hx : (layouts text)[i]? = some x) {y : Match × Extent}
    (hy : y ∈ reaching text i x.2.first) : y.2.indent < x.2.indent := by
  obtain ⟨houter, hbelow, hreach⟩ := laid_of_mem_reaching hx hy
  exact houter.indent_lt (laid_of_mem (List.mem_of_getElem? hx)).2 hbelow hreach

/-- A class with a header of one line ends no later than the classes that reach to this line. -/
theorem last_le_of_mem_reaching (hx : (layouts text)[i]? = some x)
    (hheader : headerEnd text x.1 = x.2.first) {y : Match × Extent}
    (hy : y ∈ reaching text i x.2.first) : x.2.last ≤ y.2.last := by
  obtain ⟨houter, hbelow, hreach⟩ := laid_of_mem_reaching hx hy
  have hinner := (laid_of_mem (List.mem_of_getElem? hx)).2
  rw [hheader] at hinner
  exact houter.last_le hinner hbelow hreach

/-- The classes that reach to a line are indented deeper and deeper. -/
theorem pairwise_reaching (text : List Char) (i line : Nat) :
    (reaching text i line).Pairwise (fun y z => y.2.indent < z.2.indent) := by
  have hsublist : List.Sublist (reaching text i line) (layouts text) :=
    List.filter_sublist.trans (List.take_sublist i _)
  refine ((pairwise_layouts text).sublist hsublist).imp_of_mem ?_
  intro y z hy hz hbelow
  have houter := (laid_of_mem (hsublist.subset hy)).2
  have hinner := (laid_of_mem (hsublist.subset hz)).2
  have hlast := Extent.reaches_iff.1 (List.mem_filter.1 hy).2
  have hfirst := Extent.reaches_iff.1 (List.mem_filter.1 hz).2
  exact houter.indent_lt hinner hbelow (by omega)

end Container

/-- How the class `d` of header number `i` stands below the classes before it that reach to its
first line. -/
structure Indented (text : List Char) (i : Nat) (x : Match × Extent) (d : Declaration) : Prop where
  /-- The first line of the class is that of its header, which is indented like the class, and the
  last one that of its body. -/
  laid : x.2.first = lineAt text x.1.start ∧ Laid (Text.lines text) (headerEnd text x.1) x.2
  lines : d.lines = x.2.last - x.2.first + 1
  deeper : ∀ y ∈ reaching text i x.2.first, y.2.indent < x.2.indent
  increasing : (reaching text i x.2.first).Pairwise (fun y z => y.2.indent < z.2.indent)
  /-- The container is the innermost one, if there is any. -/
  container : d.container = none ∧ reaching text i x.2.first = [] ∨
    ∃ y ∈ reaching text i x.2.first, d.container = some y.2.name ∧
      ∀ z ∈ reaching text i x.2.first, z.2.indent ≤ y.2.indent
  /-- With a header of one line, the class ends in all of them. -/
  inside : headerEnd text x.1 = x.2.first →
    ∀ y ∈ reaching text i x.2.first, x.2.last ≤ y.2.last

theorem indented_declareLines {x : Match × Extent} (hx : (layouts text)[i]? = some x)
    (file : String) :
    Indented text i x (declareLines file (Text.lines text)
      (((layouts text).take i).map Prod.snd).reverse x.1 x.2) where
  laid := laid_of_mem (List.mem_of_getElem? hx)
  lines := rfl
  deeper := fun _ hy => indent_lt_of_mem_reaching hx hy
  increasing := pairwise_reaching text i x.2.first
  container := by
    rw [container_eq hx]
    rcases List.eq_nil_or_concat' (reaching text i x.2.first) with hnil | ⟨front, y, hlast⟩
    · rw [hnil]
      exact Or.inl ⟨rfl, rfl⟩
    · have hsorted := pairwise_reaching text i x.2.first
      rw [hlast] at hsorted ⊢
      refine Or.inr ⟨y, by simp, by simp, fun z hz => ?_⟩
      rcases List.mem_append.1 hz with hz | hz
      · exact Nat.le_of_lt ((List.pairwise_append.1 hsorted).2.2 z hz y (by simp))
      · rw [List.mem_singleton.1 hz]
  inside := fun hheader _ hy => last_le_of_mem_reaching hx hheader hy

/-- **The container of a class is the innermost class that reaches to its line**: the classes before
it that do are indented deeper and deeper, and all of them less than the class itself. -/
theorem indented_classes (file text : String) :
    (classes .python file text).length = (layouts text.toList).length ∧
      ∀ i x, (layouts text.toList)[i]? = some x →
        ∃ d, (classes .python file text)[i]? = some d ∧ d.name = x.2.name ∧
          Indented text.toList i x d := by
  have hclasses : classes .python file text = layoutClasses file text.toList := rfl
  rw [hclasses, layoutClasses_eq]
  refine ⟨List.length_mapIdx, fun i x hx => ⟨_, ?_, rfl, indented_declareLines hx file⟩⟩
  rw [List.getElem?_mapIdx, hx, Option.map_some]

/-- Classes with margins of spaces and of tabs, and a comment that is not indented. -/
def mixedMargins : String :=
  "class A:\n  class B(A):\n# note\n\tclass C:\n\t\tpass\n  class D: pass\n"

/-- A tab is deeper than two spaces, and the comment ends no class. -/
theorem indented_classes_mixedMargins :
    (classes .python "a.py" mixedMargins).map (fun d => (d.name, d.container, d.lines)) =
        [("A", none, 6), ("B", some "A", 4), ("C", some "B", 2), ("D", some "A", 1)] ∧
      ∃ x d, (layouts mixedMargins.toList)[2]? = some x ∧ x.2 = ⟨"C", 4, 3, 4⟩ ∧
        (classes .python "a.py" mixedMargins)[2]? = some d ∧
        Indented mixedMargins.toList 2 x d := by
  refine ⟨by decide +kernel, ?_⟩
  obtain ⟨x, hx, hextent⟩ :
      ∃ x, (layouts mixedMargins.toList)[2]? = some x ∧ x.2 = ⟨"C", 4, 3, 4⟩ :=
    Option.map_eq_some_iff.1 (by decide +kernel)
  obtain ⟨d, hd, _, hindented⟩ := (indented_classes "a.py" mixedMargins).2 2 x hx
  exact ⟨x, d, hx, hextent, hd, hindented⟩

-- with a header of several lines, a class may end later than the one it belongs to
example : (layouts "class A:\n  class B(\nA):\n    pass".toList).map (fun x =>
    (x.2.name, x.2.first, x.2.last)) = [("A", 0, 1), ("B", 1, 3)] := by
  decide +kernel

end Source

end Lineage
