import Lineage.Proofs.Blocks
import Lineage.Proofs.Routes
import Lineage.Source.Classes

/-!
# Classes inside classes

A class gets the name of the last earlier class whose body is around its header.  Bodies are blocks
of braces, and blocks do not cross, so the bodies around a place lie inside each other and the last
one is the innermost (`inside_of_find?`).  In the same way the namespaces around a place lie inside
each other in the order of their openings.  The main statement is `placed_classes`.
-/

namespace Lineage

/-! ### Remembered parts -/

namespace Pattern

variable {text : List Char} {p : Pattern} {mark : Mark} {m : Match} {c : Capture}

/-- The patterns whose text is remembered under a mark. -/
def bodies (mark : Mark) : Pattern → List Pattern
  | seq p q | alt p q => p.bodies mark ++ q.bodies mark
  | many p => p.bodies mark
  | marked m p => (if m == mark then [p] else []) ++ p.bodies mark
  | _ => []

/-- What is remembered under a mark is a route of one of its patterns. -/
theorem exists_mem_bodies (p : Pattern) (i : Nat) : ∀ r ∈ p.routes text i, ∀ s ∈ r.spots,
    ∃ body ∈ p.bodies s.mark, ∃ inner ∈ body.routes text s.start, inner.stop = s.stop := by
  induction p generalizing i with
  | seq p q ihp ihq =>
    intro r hr s hs
    obtain ⟨r₁, h₁, r₂, h₂, rfl⟩ := mem_andThen.1 hr
    rcases List.mem_append.1 hs with hs | hs
    · obtain ⟨body, hbody, hinner⟩ := ihq _ r₂ h₂ s hs
      exact ⟨body, List.mem_append_right _ hbody, hinner⟩
    · obtain ⟨body, hbody, hinner⟩ := ihp i r₁ h₁ s hs
      exact ⟨body, List.mem_append_left _ hbody, hinner⟩
  | alt p q ihp ihq =>
    intro r hr s hs
    rcases List.mem_append.1 hr with hr | hr
    · obtain ⟨body, hbody, hinner⟩ := ihp i r hr s hs
      exact ⟨body, List.mem_append_left _ hbody, hinner⟩
    · obtain ⟨body, hbody, hinner⟩ := ihq i r hr s hs
      exact ⟨body, List.mem_append_right _ hbody, hinner⟩
  | many p ih =>
    refine repeated_induction (fun _ s hs => absurd hs List.not_mem_nil) ?_ ih _ i
    intro _ r r' h h' s hs
    rcases List.mem_append.1 hs with hs | hs
    · exact h' s hs
    · exact h s hs
  | marked mark p ih =>
    intro r hr s hs
    obtain ⟨inner, hinner, rfl⟩ := List.mem_map.1 hr
    rcases List.mem_cons.1 hs with rfl | hs
    · exact ⟨p, by simp [bodies], inner, hinner, rfl⟩
    · obtain ⟨body, hbody, hroute⟩ := ih i inner hinner s hs
      exact ⟨body, List.mem_append_right _ hbody, hroute⟩
  | run set eager =>
    intro r hr s hs
    obtain ⟨j, _, rfl⟩ := mem_routes_run.1 hr
    cases hs
  | empty =>
    intro r hr s hs
    rw [routes, List.mem_singleton] at hr
    rw [hr] at hs
    cases hs
  | one set | lineStart | wordEdge =>
    intro r hr s hs
    rw [routes, List.mem_ite_nil_right, List.mem_singleton] at hr
    rw [hr.2] at hs
    cases hs

theorem exists_route_of_get? (hm : m ∈ p.matchesIn text) (hc : m.get? mark = some c) :
    ∃ body ∈ p.bodies mark, ∃ r ∈ body.routes text c.start, r.stop = c.stop := by
  rw [matchesIn_eq, List.mem_map] at hm
  obtain ⟨hit, hmem, rfl⟩ := hm
  rw [Match.get?_toMatch, Option.map_eq_some_iff] at hc
  obtain ⟨s, hs, rfl⟩ := hc
  have hmark : (s.mark == mark) = true := List.find?_some (p := fun s : Spot => s.mark == mark) hs
  have hroute := (mem_routes_of_mem_hitsIn hmem).2
  have hbody := exists_mem_bodies p _ _ hroute s (List.mem_of_find?_eq_some hs)
  rwa [beq_iff_eq.1 hmark] at hbody

/-- A pattern that remembers as its opening one character, a brace or a semicolon. -/
def Opens (p : Pattern) : Prop :=
  ∃ set, p.bodies .opening = [one set] ∧ ∀ c, set c = true → c = '{' ∨ c = ';'

theorem Opens.spec (hp : p.Opens) (hm : m ∈ p.matchesIn text) (hc : m.get? .opening = some c) :
    c.stop = c.start + 1 ∧ (text[c.start]? = some '{' ∨ text[c.start]? = some ';') := by
  obtain ⟨set, hbodies, hset⟩ := hp
  obtain ⟨body, hbody, r, hr, hstop⟩ := exists_route_of_get? hm hc
  obtain rfl : body = one set := by rwa [hbodies, List.mem_singleton] at hbody
  rw [routes, List.mem_ite_nil_right, List.mem_singleton] at hr
  obtain ⟨x, hx, hxset⟩ := (Option.any_eq_true _ _).1 hr.1
  refine ⟨by rw [← hstop, hr.2], ?_⟩
  rw [hx]
  exact (hset x hxset).imp (congrArg some) (congrArg some)

end Pattern

namespace Source

variable {grammar : Grammar} {text : List Char} {found : Match} {body : Stretch} {position : Nat}

/-! ### Bodies -/

/-- A stretch inside another one. -/
def Stretch.Inside (inner outer : Stretch) : Prop :=
  outer.start ≤ inner.start ∧ inner.stop ≤ outer.stop

theorem Stretch.surrounds_iff {s : Stretch} :
    s.surrounds position = true ↔ s.start < position ∧ position < s.stop := by
  simp [Stretch.surrounds]

/-- Blocks around one place lie inside each other in the order of their openings. -/
theorem Stretch.inside_of_le {outer inner : Stretch} (houter : IsBlock text outer.start outer.stop)
    (hinner : IsBlock text inner.start inner.stop) (hle : outer.start ≤ inner.start)
    (h : outer.surrounds position = true) (h' : inner.surrounds position = true) :
    inner.Inside outer := by
  refine ⟨hle, ?_⟩
  obtain heq | hlt := Nat.eq_or_lt_of_le hle
  · rw [← heq] at hinner
    exact houter.stop_le_of_start_eq hinner
  · rw [surrounds_iff] at h h'
    have hcases := houter.le_or_le hinner hlt
    omega

/-- A stretch at other positions. -/
def Stretch.move (f : Nat → Nat) (s : Stretch) : Stretch :=
  ⟨s.name, f s.start, f s.stop⟩

section Move

variable {f : Nat → Nat} {stretches : List Stretch} {position' : Nat}

theorem Stretch.surrounds_move {s : Stretch} (hstart : f s.start < f position ↔ s.start < position)
    (hstop : f position < f s.stop ↔ position < s.stop) :
    (s.move f).surrounds (f position) = s.surrounds position := by
  rw [Bool.eq_iff_iff, surrounds_iff, surrounds_iff]
  exact and_congr hstart hstop

theorem Stretch.filter_move
    (h : ∀ s ∈ stretches, (s.move f).surrounds position' = s.surrounds position) :
    (stretches.map (move f)).filter (·.surrounds position') =
      (stretches.filter (·.surrounds position)).map (move f) := by
  have hcongr : stretches.filter ((·.surrounds position') ∘ move f) =
      stretches.filter (·.surrounds position) := List.filter_congr h
  rw [List.filter_map, hcongr]

theorem Stretch.find?_move
    (h : ∀ s ∈ stretches, (s.move f).surrounds position' = s.surrounds position) :
    (stretches.map (move f)).find? (·.surrounds position') =
      (stretches.find? (·.surrounds position)).map (move f) := by
  rw [← List.head?_filter, filter_move h, List.head?_map, List.head?_filter]

/-- The scope of a place depends on the names of the stretches around it. -/
theorem scopeAt_of_filter {stretches' : List Stretch}
    (h : stretches'.filter (·.surrounds position') =
      (stretches.filter (·.surrounds position)).map (Stretch.move f)) :
    scopeAt stretches' position' = scopeAt stretches position := by
  unfold scopeAt
  rw [h]
  cases stretches.filter (·.surrounds position) with
  | nil => rfl
  | cons e rest =>
    rw [List.map_cons]
    dsimp only
    rw [← List.map_cons, List.map_map]
    rfl

theorem scopeAt_move
    (h : ∀ s ∈ stretches, (s.move f).surrounds position' = s.surrounds position) :
    scopeAt (stretches.map (Stretch.move f)) position' = scopeAt stretches position :=
  scopeAt_of_filter (Stretch.filter_move h)

end Move

/-- The character that a capture of one brace stands on. -/
theorem getElem?_of_chars {c : Capture} {x : Char} (hsource : c.source = text.drop c.start)
    (hchars : c.chars = [x]) : text[c.start]? = some x := by
  rw [Capture.chars, hsource] at hchars
  have hlength := congrArg List.length hchars
  rw [List.length_take, List.length_singleton] at hlength
  have hfirst := congrArg (·[0]?) hchars
  simp only [List.getElem?_cons_zero] at hfirst
  rw [List.getElem?_take_of_lt (by omega), List.getElem?_drop, Nat.add_zero] at hfirst
  exact hfirst

/-- A body opens where its header ends.  It is the block there if a brace opens it. -/
theorem body?_eq_some (h : body? grammar text found = some body) :
    ∃ opening, found.get? .opening = some opening ∧ body.start = opening.start ∧
      (opening.chars = ['{'] ∧ body.stop = blockEnd text opening.start ∨
        body.stop = opening.stop) := by
  unfold body? at h
  simp only [Option.bind_eq_bind, Option.bind_eq_some_iff] at h
  obtain ⟨name, _, opening, hopening, h⟩ := h
  refine ⟨opening, hopening, ?_⟩
  split at h
  · cases h
  · split at h
    · rename_i hchars
      obtain rfl := Option.some.inj h
      exact ⟨rfl, Or.inl ⟨by simpa using hchars, rfl⟩⟩
    · split at h
      · obtain rfl := Option.some.inj h
        exact ⟨rfl, Or.inr rfl⟩
      · cases h

/-- A stretch that lies in a text. -/
structure Stretch.Fits (text : List Char) (s : Stretch) : Prop where
  start_le : s.start ≤ s.stop
  stop_le : s.stop ≤ text.length

/-- A body lies after the start of its header. -/
theorem fits_of_body? (hfound : found.Fits text) (h : body? grammar text found = some body) :
    found.start ≤ body.start ∧ body.Fits text := by
  obtain ⟨opening, hopening, hstart, hstop⟩ := body?_eq_some h
  obtain ⟨hle, hle', hle'', hsource⟩ := hfound.capture hopening
  have hlength := hfound.stop_le
  refine ⟨by omega, ?_⟩
  rcases hstop with ⟨hchars, hstop⟩ | hstop
  · have hblock := isBlock_blockEnd (getElem?_of_chars hsource hchars)
    rw [← hstart] at hblock hstop
    rw [← hstop] at hblock
    exact ⟨Nat.le_of_lt hblock.start_lt, hblock.stop_le⟩
  · exact ⟨by omega, by omega⟩

/-- A grammar in which classes and namespaces open at a brace or a semicolon. -/
structure Grammar.Opens (grammar : Grammar) : Prop where
  header : grammar.header.Opens
  enclosure : grammar.enclosure.Opens

theorem opens_of_grammar? {language : Language} (h : grammar? language = some grammar) :
    grammar.Opens := by
  have hboth : ∀ c, Pattern.anyOf "\x7b;" c = true → c = '{' ∨ c = ';' := by
    simp [Pattern.anyOf]
  have hbrace : ∀ c, (c == '{') = true → c = '{' ∨ c = ';' := by simp
  have hsemicolon : ∀ c, (c == ';') = true → c = '{' ∨ c = ';' := by simp
  cases language with
  | csharp =>
    obtain rfl := Option.some.inj h
    exact ⟨⟨_, rfl, hboth⟩, ⟨_, rfl, hboth⟩⟩
  | java =>
    obtain rfl := Option.some.inj h
    exact ⟨⟨_, rfl, hbrace⟩, ⟨_, rfl, hsemicolon⟩⟩
  | cpp =>
    obtain rfl := Option.some.inj h
    exact ⟨⟨_, rfl, hboth⟩, ⟨_, rfl, hbrace⟩⟩
  | python => cases h

/-- A body opens inside its header, and it is a block or holds no place. -/
theorem body_spec (hopens : grammar.Opens) (hfound : found ∈ grammar.header.matchesIn text)
    (h : body? grammar text found = some body) :
    found.start ≤ body.start ∧ body.start < found.stop ∧
      (IsBlock text body.start body.stop ∨ body.stop = body.start + 1) := by
  have hfits := Match.fits_of_mem hfound
  obtain ⟨opening, hopening, hstart, hstop⟩ := body?_eq_some h
  obtain ⟨hle, _, hle', hsource⟩ := hfits.capture hopening
  have hsingle := (hopens.header.spec hfound hopening).1
  rw [hstart]
  refine ⟨hle, by omega, ?_⟩
  rcases hstop with ⟨hchars, hstop⟩ | hstop
  · rw [hstop]
    exact Or.inl (isBlock_blockEnd (getElem?_of_chars hsource hchars))
  · rw [hstop]
    exact Or.inr hsingle

/-! ### Headers -/

section Pairs

variable {α β : Type} {l : List α} {f : α → Option β}

/-- The entries that have a partner, each with its partner. -/
theorem mem_filterMap_pair {x : α × β} :
    x ∈ l.filterMap (fun a => (f a).map (a, ·)) ↔ x.1 ∈ l ∧ f x.1 = some x.2 := by
  simp only [List.mem_filterMap, Option.map_eq_some_iff]
  constructor
  · rintro ⟨a, ha, b, hb, rfl⟩
    exact ⟨ha, hb⟩
  · rintro ⟨ha, hb⟩
    exact ⟨x.1, ha, x.2, hb, rfl⟩

theorem pairwise_filterMap_pair {r : α → α → Prop} (h : l.Pairwise r) :
    (l.filterMap (fun a => (f a).map (a, ·))).Pairwise (fun x y => r x.1 y.1) := by
  refine List.pairwise_filterMap.2 (h.imp ?_)
  intro a b hab x hx y hy
  obtain ⟨_, _, rfl⟩ := Option.map_eq_some_iff.1 hx
  obtain ⟨_, _, rfl⟩ := Option.map_eq_some_iff.1 hy
  exact hab

end Pairs

/-- The headers of a text that declare a class, each with its body. -/
def headers (grammar : Grammar) (text : List Char) : List (Match × Stretch) :=
  (grammar.header.matchesIn text).filterMap (fun found =>
    (body? grammar text found).map (found, ·))

theorem mem_headers {x : Match × Stretch} :
    x ∈ headers grammar text ↔
      x.1 ∈ grammar.header.matchesIn text ∧ body? grammar text x.1 = some x.2 := by
  rw [headers, mem_filterMap_pair]

theorem pairwise_headers (grammar : Grammar) (text : List Char) :
    (headers grammar text).Pairwise (fun x y => x.1.start < y.1.start ∧ x.1.stop ≤ y.1.start) :=
  pairwise_filterMap_pair (Match.pairwise_matchesIn grammar.header text)

/-- Bodies open in the order of their headers. -/
theorem pairwise_bodies (hopens : grammar.Opens) (text : List Char) :
    (headers grammar text).Pairwise (fun x y => x.2.start < y.2.start) := by
  refine (pairwise_headers grammar text).imp_of_mem ?_
  intro x y hx hy hxy
  obtain ⟨_, hlt, _⟩ := body_spec hopens (mem_headers.1 hx).1 (mem_headers.1 hx).2
  obtain ⟨hle, _⟩ := body_spec hopens (mem_headers.1 hy).1 (mem_headers.1 hy).2
  omega

/-- A body around a place is a block. -/
theorem isBlock_of_surrounds (hopens : grammar.Opens) {x : Match × Stretch}
    (hx : x ∈ headers grammar text) (h : x.2.surrounds position = true) :
    IsBlock text x.2.start x.2.stop := by
  rw [Stretch.surrounds_iff] at h
  refine (body_spec hopens (mem_headers.1 hx).1 (mem_headers.1 hx).2).2.2.resolve_right ?_
  omega

/-- The bodies around the start of a header are those of earlier headers. -/
theorem lt_of_surrounds (hopens : grammar.Opens) {i j : Nat} {x y : Match × Stretch}
    (hx : (headers grammar text)[i]? = some x) (hy : (headers grammar text)[j]? = some y)
    (h : y.2.surrounds x.1.start = true) : j < i := by
  by_contra hji
  have hymem := mem_headers.1 (List.mem_of_getElem? hy)
  have hle := (body_spec hopens hymem.1 hymem.2).1
  have hstart : x.1.start ≤ y.1.start := by
    obtain rfl | hlt := Nat.eq_or_lt_of_le (Nat.le_of_not_lt hji)
    · rw [hx] at hy
      exact Nat.le_of_eq (congrArg (·.1.start) (Option.some.inj hy))
    · obtain ⟨hi, rfl⟩ := List.getElem?_eq_some_iff.1 hx
      obtain ⟨hj, rfl⟩ := List.getElem?_eq_some_iff.1 hy
      exact Nat.le_of_lt
        (List.pairwise_iff_getElem.1 (pairwise_headers grammar text) i j hi hj hlt).1
  rw [Stretch.surrounds_iff] at h
  omega

/-- The classes that are read belong to the headers, one by one. -/
theorem getElem?_readHeaders (file : String) (namespaces earlier : List Stretch)
    (matches' : List Match) (i : Nat) :
    (readHeaders grammar file text namespaces earlier matches')[i]? =
      let found := matches'.filterMap (fun found => (body? grammar text found).map (found, ·))
      found[i]?.map (fun x => declare grammar file text namespaces
        (((found.take i).map Prod.snd).reverse ++ earlier) x.1 x.2) := by
  induction matches' generalizing i earlier with
  | nil => rfl
  | cons found rest ih =>
    unfold readHeaders
    cases hbody : body? grammar text found with
    | none =>
      rw [List.filterMap_cons_none (by rw [hbody]; rfl)]
      exact ih earlier i
    | some body =>
      rw [List.filterMap_cons_some (b := (found, body)) (by rw [hbody]; rfl)]
      cases i with
      | zero => rfl
      | succ i =>
        rw [List.getElem?_cons_succ, ih (body :: earlier) i]
        simp

/-- The bodies of the headers before number `i`, the last one first. -/
def bodiesBefore (grammar : Grammar) (text : List Char) (i : Nat) : List Stretch :=
  (((headers grammar text).take i).map Prod.snd).reverse

theorem blockClasses_eq (grammar : Grammar) (file : String) (text : List Char) :
    blockClasses grammar file text = (headers grammar text).mapIdx (fun i x =>
      declare grammar file text (enclosures grammar text) (bodiesBefore grammar text i)
        x.1 x.2) := by
  refine List.ext_getElem? (fun i => ?_)
  rw [blockClasses, getElem?_readHeaders, List.getElem?_mapIdx]
  dsimp only
  rw [List.append_nil]
  rfl

/-! ### The class around a header -/

/-- The last of the stretches around a place holds no other one around it. -/
theorem start_le_of_find? {earlier : List Stretch} {b : Stretch}
    (hsorted : earlier.Pairwise (fun a b => b.start < a.start))
    (h : earlier.find? (·.surrounds position) = some b) :
    ∀ c ∈ earlier, c.surrounds position = true → c.start ≤ b.start := by
  obtain ⟨_, front, back, rfl, hfront⟩ := List.find?_eq_some_iff_append.1 h
  intro c hc hsurrounds
  rw [List.pairwise_append, List.pairwise_cons] at hsorted
  rcases List.mem_append.1 hc with hc | hc
  · have hnot := hfront c hc
    rw [hsurrounds] at hnot
    cases hnot
  · rcases List.mem_cons.1 hc with rfl | hc
    · exact Nat.le_refl _
    · exact Nat.le_of_lt (hsorted.2.1.1 c hc)

section Container

variable {i : Nat} {x : Match × Stretch}

theorem mem_bodiesBefore {b : Stretch} :
    b ∈ bodiesBefore grammar text i ↔
      ∃ j < i, ∃ y, (headers grammar text)[j]? = some y ∧ y.2 = b := by
  rw [bodiesBefore, List.mem_reverse, List.mem_map]
  constructor
  · rintro ⟨y, hy, rfl⟩
    obtain ⟨j, hj⟩ := List.mem_iff_getElem?.1 hy
    rw [List.getElem?_take] at hj
    split_ifs at hj with hlt
    exact ⟨j, hlt, y, hj, rfl⟩
  · rintro ⟨j, hlt, y, hj, rfl⟩
    rw [← List.getElem?_take_of_lt hlt] at hj
    exact ⟨y, List.mem_of_getElem? hj, rfl⟩

/-- Looking among the bodies of earlier headers is looking among all. -/
theorem find?_bodiesBefore_eq_none (hopens : grammar.Opens)
    (hx : (headers grammar text)[i]? = some x) :
    (bodiesBefore grammar text i).find? (·.surrounds x.1.start) = none ↔
      ∀ y ∈ headers grammar text, ¬ y.2.surrounds x.1.start = true := by
  rw [List.find?_eq_none]
  constructor
  · intro h y hy hsurrounds
    obtain ⟨j, hj⟩ := List.mem_iff_getElem?.1 hy
    have hmem : y.2 ∈ bodiesBefore grammar text i :=
      mem_bodiesBefore.2 ⟨j, lt_of_surrounds hopens hx hj hsurrounds, y, hj, rfl⟩
    exact h y.2 hmem hsurrounds
  · intro h b hb
    obtain ⟨j, _, y, hj, rfl⟩ := mem_bodiesBefore.1 hb
    exact h y (List.mem_of_getElem? hj)

/-- The body that is found lies inside all others around the header. -/
theorem inside_of_find? (hopens : grammar.Opens) (hx : (headers grammar text)[i]? = some x)
    {b : Stretch} (h : (bodiesBefore grammar text i).find? (·.surrounds x.1.start) = some b) :
    ∃ y ∈ headers grammar text, y.2.surrounds x.1.start = true ∧ y.2 = b ∧
      ∀ z ∈ headers grammar text, z.2.surrounds x.1.start = true → y.2.Inside z.2 := by
  have hb : b.surrounds x.1.start = true :=
    List.find?_some (p := fun b : Stretch => b.surrounds x.1.start) h
  obtain ⟨j, _, y, hj, rfl⟩ := mem_bodiesBefore.1 (List.mem_of_find?_eq_some h)
  have hy := List.mem_of_getElem? hj
  refine ⟨y, hy, hb, rfl, fun z hz hsurrounds => ?_⟩
  have hsorted : (bodiesBefore grammar text i).Pairwise (fun a b => b.start < a.start) := by
    rw [bodiesBefore, List.pairwise_reverse, List.pairwise_map]
    exact (pairwise_bodies hopens text).sublist (List.take_sublist i _)
  have hstart : z.2.start ≤ y.2.start := by
    obtain ⟨k, hk⟩ := List.mem_iff_getElem?.1 hz
    have hmem : z.2 ∈ bodiesBefore grammar text i :=
      mem_bodiesBefore.2 ⟨k, lt_of_surrounds hopens hx hk hsurrounds, z, hk, rfl⟩
    exact start_le_of_find? hsorted h z.2 hmem hsurrounds
  exact Stretch.inside_of_le (isBlock_of_surrounds hopens hz hsurrounds)
    (isBlock_of_surrounds hopens hy hb) hstart hsurrounds hb

/-- A place in a body is one where braces are open, if nothing is closed before it was opened. -/
theorem balance_pos_of_surrounds (hopens : grammar.Opens)
    (hbalance : ∀ k, 0 ≤ balance (text.take k)) {y : Match × Stretch}
    (hy : y ∈ headers grammar text) (h : y.2.surrounds position = true) :
    0 < balance (text.take position) := by
  have hblock := isBlock_of_surrounds hopens hy h
  rw [Stretch.surrounds_iff] at h
  exact hblock.lt_balance h.1 h.2 (hbalance _)

end Container

/-! ### The namespaces around a header -/

/-- A namespace opens inside its header.  It is the block there if a brace opens it, or it reaches
to the end of the text. -/
theorem enclosure_spec (hopens : grammar.Opens)
    (hfound : found ∈ grammar.enclosure.matchesIn text) (h : enclosure? text found = some body) :
    found.start ≤ body.start ∧ body.start < found.stop ∧
      (text[body.start]? = some '{' ∧ IsBlock text body.start body.stop ∨
        text[body.start]? = some ';' ∧ body.stop = text.length) := by
  have hfits := Match.fits_of_mem hfound
  unfold enclosure? at h
  simp only [Option.bind_eq_bind, Option.bind_eq_some_iff] at h
  obtain ⟨name, _, opening, hopening, h⟩ := h
  obtain ⟨hle, _, hle', hsource⟩ := hfits.capture hopening
  obtain ⟨hsingle, hchar⟩ := hopens.enclosure.spec hfound hopening
  split at h
  · cases h
  · obtain rfl := Option.some.inj h
    refine ⟨hle, by dsimp only; omega, ?_⟩
    dsimp only
    split_ifs with hchars
    · have hbrace := getElem?_of_chars hsource (by simpa using hchars)
      exact Or.inl ⟨hbrace, isBlock_blockEnd hbrace⟩
    · refine Or.inr ⟨hchar.resolve_left (fun hbrace => hchars ?_), rfl⟩
      rw [Capture.chars, hsource, hsingle, Cursor.drop_of_getElem? hbrace]
      simp

theorem enclosure_of_mem (hopens : grammar.Opens) (h : body ∈ enclosures grammar text) :
    text[body.start]? = some '{' ∧ IsBlock text body.start body.stop ∨
      text[body.start]? ≠ some '{' ∧ body.stop = text.length := by
  obtain ⟨found, hfound, hbody⟩ := List.mem_filterMap.1 h
  refine (enclosure_spec hopens hfound hbody).2.2.imp_right (And.imp_left fun hchar => ?_)
  rw [hchar]
  decide

theorem pairwise_enclosures (hopens : grammar.Opens) (text : List Char) :
    (enclosures grammar text).Pairwise (fun a b => a.start < b.start) := by
  refine List.pairwise_filterMap.2 ((Match.pairwise_matchesIn grammar.enclosure text).imp_of_mem ?_)
  intro a b ha hb hab x hx y hy
  have hx' := enclosure_spec hopens ha hx
  have hy' := enclosure_spec hopens hb hy
  omega

/-- Of two namespaces around a place the later one lies inside the earlier one, if it is a
block. -/
theorem enclosure_inside (hopens : grammar.Opens) {outer inner : Stretch}
    (houter : outer ∈ enclosures grammar text) (hinner : inner ∈ enclosures grammar text)
    (hlt : outer.start < inner.start) (hbrace : text[inner.start]? = some '{')
    (h : outer.surrounds position = true) (h' : inner.surrounds position = true) :
    inner.Inside outer := by
  have hblock : IsBlock text inner.start inner.stop :=
    ((enclosure_of_mem hopens hinner).resolve_right (fun hend => hend.1 hbrace)).2
  rcases enclosure_of_mem hopens houter with ⟨_, houterBlock⟩ | ⟨_, hend⟩
  · exact Stretch.inside_of_le houterBlock hblock (Nat.le_of_lt hlt) h h'
  · refine ⟨Nat.le_of_lt hlt, ?_⟩
    rw [hend]
    exact hblock.stop_le

/-! ### Where a class stands -/

/-- Where the class `d` of header number `i` stands, given the place of the header: among the bodies
of all classes of the text and among its namespaces. -/
structure Placed (grammar : Grammar) (text : List Char) (i position : Nat) (d : Declaration) :
    Prop where
  /-- The bodies around the place are blocks of earlier classes. -/
  earlier : ∀ j x, (headers grammar text)[j]? = some x → x.2.surrounds position = true →
    j < i ∧ IsBlock text x.2.start x.2.stop
  /-- They lie inside each other. -/
  chain : ∀ x ∈ headers grammar text, ∀ y ∈ headers grammar text,
    x.2.surrounds position = true → y.2.surrounds position = true →
      x.2.Inside y.2 ∨ y.2.Inside x.2
  /-- Where braces are open, the innermost one is that of the container, if there is any. -/
  container : 0 < balance (text.take position) →
    (d.container = none ∧ ∀ x ∈ headers grammar text, ¬ x.2.surrounds position = true) ∨
    ∃ x ∈ headers grammar text, x.2.surrounds position = true ∧
      d.container = some x.2.name ∧
      ∀ y ∈ headers grammar text, y.2.surrounds position = true → x.2.Inside y.2
  container_of_closed : balance (text.take position) ≤ 0 → d.container = none
  /-- If nothing is closed before it was opened, there is a container in every body. -/
  container_iff : (∀ k, 0 ≤ balance (text.take k)) →
    (d.container.isSome = true ↔ ∃ x ∈ headers grammar text, x.2.surrounds position = true)
  /-- The scope joins the namespaces around the place. -/
  scope : d.scope =
    let around := (enclosures grammar text).filter (·.surrounds position)
    if around = [] then none else some (".".intercalate (around.map (·.name)))
  /-- Each of them holds those after it that are blocks. -/
  scope_nested : ((enclosures grammar text).filter (·.surrounds position)).Pairwise
    (fun outer inner => outer.start < inner.start ∧
      (text[inner.start]? = some '{' → inner.Inside outer))
  /-- The others reach to the end of the text. -/
  scope_blocks : ∀ e ∈ (enclosures grammar text).filter (·.surrounds position),
    text[e.start]? = some '{' ∧ IsBlock text e.start e.stop ∨
      text[e.start]? ≠ some '{' ∧ e.stop = text.length

theorem scopeAt_eq (namespaces : List Stretch) (position : Nat) :
    scopeAt namespaces position =
      let around := namespaces.filter (·.surrounds position)
      if around = [] then none else some (".".intercalate (around.map (·.name))) := by
  unfold scopeAt
  cases namespaces.filter (·.surrounds position) with
  | nil => rfl
  | cons e rest => simp

theorem placed_declare (hopens : grammar.Opens) {i : Nat} {x : Match × Stretch}
    (hx : (headers grammar text)[i]? = some x) (file : String) :
    Placed grammar text i x.1.start (declare grammar file text (enclosures grammar text)
      (bodiesBefore grammar text i) x.1 x.2) where
  earlier := fun j y hy hsurrounds => ⟨lt_of_surrounds hopens hx hy hsurrounds,
    isBlock_of_surrounds hopens (List.mem_of_getElem? hy) hsurrounds⟩
  chain := by
    intro y hy z hz hysurrounds hzsurrounds
    have hyBlock := isBlock_of_surrounds hopens hy hysurrounds
    have hzBlock := isBlock_of_surrounds hopens hz hzsurrounds
    rcases Nat.le_total y.2.start z.2.start with hle | hle
    · exact Or.inr (Stretch.inside_of_le hyBlock hzBlock hle hysurrounds hzsurrounds)
    · exact Or.inl (Stretch.inside_of_le hzBlock hyBlock hle hzsurrounds hysurrounds)
  container := by
    intro hpos
    rw [declare, containerAt, if_pos hpos]
    cases hfind : (bodiesBefore grammar text i).find? (·.surrounds x.1.start) with
    | none => exact Or.inl ⟨rfl, (find?_bodiesBefore_eq_none hopens hx).1 hfind⟩
    | some b =>
      obtain ⟨y, hy, hsurrounds, rfl, hinside⟩ := inside_of_find? hopens hx hfind
      exact Or.inr ⟨y, hy, hsurrounds, rfl, hinside⟩
  container_of_closed := by
    intro hclosed
    rw [declare, containerAt, if_neg (by omega)]
  container_iff := by
    intro hbalance
    rw [declare, containerAt]
    constructor
    · intro hsome
      by_contra hnone
      have hfind : (bodiesBefore grammar text i).find? (·.surrounds x.1.start) = none :=
        (find?_bodiesBefore_eq_none hopens hx).2 (fun y hy h => hnone ⟨y, hy, h⟩)
      rw [hfind] at hsome
      split_ifs at hsome <;> cases hsome
    · rintro ⟨y, hy, hsurrounds⟩
      rw [if_pos (balance_pos_of_surrounds hopens hbalance hy hsurrounds), Option.isSome_map,
        Option.isSome_iff_ne_none]
      exact fun hfind => (find?_bodiesBefore_eq_none hopens hx).1 hfind y hy hsurrounds
  scope := scopeAt_eq _ _
  scope_nested := by
    refine ((pairwise_enclosures hopens text).filter _).imp_of_mem ?_
    intro outer inner houter hinner hlt
    rw [List.mem_filter] at houter hinner
    exact ⟨hlt, fun hbrace =>
      enclosure_inside hopens houter.1 hinner.1 hlt hbrace houter.2 hinner.2⟩
  scope_blocks := fun _ he => enclosure_of_mem hopens (List.mem_filter.1 he).1

/-- **The container of a class is the innermost class around it**, and its scope joins the
namespaces around it from the outside in. -/
theorem placed_classes {language : Language} {grammar : Grammar}
    (hgrammar : grammar? language = some grammar) (file text : String) :
    (classes language file text).length = (headers grammar text.toList).length ∧
      ∀ i x, (headers grammar text.toList)[i]? = some x →
        ∃ d, (classes language file text)[i]? = some d ∧ d.name = x.2.name ∧
          Placed grammar text.toList i x.1.start d := by
  have hclasses : classes language file text = blockClasses grammar file text.toList := by
    rw [classes, hgrammar]
  rw [hclasses]
  rw [blockClasses_eq]
  refine ⟨List.length_mapIdx, fun i x hx => ⟨_, ?_, rfl, placed_declare ?_ hx file⟩⟩
  · rw [List.getElem?_mapIdx, hx, Option.map_some]
  · exact opens_of_grammar? hgrammar

/-- A class in a class in a class in a namespace. -/
def threeDeep : String :=
  "namespace N \x7b class A \x7b class B \x7b class C \x7b \x7d; \x7d; \x7d; \x7d"

/-- The innermost class is in the second one, not in the first. -/
theorem placed_classes_threeDeep :
    (classes .cpp "a.h" threeDeep)[2]?.map (fun d => (d.name, d.container, d.scope)) =
        some ("C", some "B", some "N") ∧
      ∃ d, (classes .cpp "a.h" threeDeep)[2]? = some d ∧
        Placed Grammar.cpp threeDeep.toList 2 34 d := by
  refine ⟨by decide +kernel, ?_⟩
  obtain ⟨x, hx, hstart⟩ :
      ∃ x, (headers Grammar.cpp threeDeep.toList)[2]? = some x ∧ x.1.start = 34 :=
    Option.map_eq_some_iff.1 (by decide +kernel)
  obtain ⟨d, hd, _, hplaced⟩ :=
    (placed_classes (show grammar? .cpp = some Grammar.cpp from rfl) "a.h" threeDeep).2 2 x hx
  rw [hstart] at hplaced
  exact ⟨d, hd, hplaced⟩

end Source

end Lineage
