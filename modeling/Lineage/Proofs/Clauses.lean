import Lineage.Proofs.Insight
import Lineage.Source.Grammar

/-!
# Inheritance clauses and carriage returns

The inheritance list of a header is as few characters as possible, of any kind but braces and
semicolons.  With blanks before it, which can be part of the list too, its start is not settled by
the pattern alone (`insight` says nothing of it): blanks give up characters until the list can be
read.  A list that ends where the header does can also start one place later, unless nothing is left
of it (`list_ne_nil_succ`), so blanks never give up a newline that stands behind a carriage return,
and lists behind blanks are read alike (`agrees_blanks_list`).

The exception are blanks of which there has to be one: a carriage return can be that blank, and its
newline the list, where a newline alone cannot be both (`agrees_blanks1_list`).  Only the clauses of
Java are affected, in front of a brace (`hasEmptyClause`).  The headers of the three languages
follow: `agrees_csharpHeader`, `agrees_cppHeader` and `agrees_javaHeader`.
-/

namespace Lineage.Pattern

open Cursor Text Source Grammar

variable {text : List Char} {p q : Pattern} {i : Nat} {r : Route}

/-! ### First routes -/

/-- Patterns that have the same first route have the same one for what turns it into another. -/
theorem Agrees.map_some (h : Agrees text some p i) (g : Route → Route) :
    Agrees text (fun r => some (g r)) p i := by
  have hmap : ∀ found : List Route, found.findSome? (fun r => some (g r)) = found.head?.map g := by
    intro found
    cases found <;> rfl
  unfold Agrees Alike at *
  rw [findSome?_some, findSome?_some] at h
  rw [hmap, hmap, h]

theorem agrees_first_seq (hp : ∀ f, Agrees text f p i)
    (hq : ∀ r ∈ p.routes text i, Agrees text some q r.stop) : Agrees text some (seq p q) i :=
  agrees_seq (hp _) (fun r hr => (hq r hr).map_some _)

theorem agrees_first_seq_lax (hp : ∀ f, Shuns (bare text) f → Agrees text f p i)
    (hsolid : q.solid = true) (hq : ∀ r ∈ p.routes text i, Agrees text some q r.stop) :
    Agrees text some (seq p q) i :=
  agrees_seq (hp _ (shuns_of_solid hsolid _)) (fun r hr => (hq r hr).map_some _)

theorem andThen_append (first more : List Route) (second : Nat → List Route) :
    andThen (first ++ more) second = andThen first second ++ andThen more second :=
  List.flatMap_append

theorem andThen_assoc (first : List Route) (second third : Nat → List Route) :
    andThen (andThen first second) third =
      andThen first (fun j => andThen (second j) third) := by
  have hafter : ∀ (spots : List Spot) (found : List Route),
      andThen (found.map (Route.after spots)) third =
        (andThen found third).map (Route.after spots) := by
    intro spots found
    simp only [andThen, List.flatMap_map, List.map_flatMap, List.map_map]
    congr 1
    funext r
    congr 1
    funext r'
    simp [Route.after]
  induction first with
  | nil => rfl
  | cons r first ih =>
    have hcons : ∀ second, andThen (r :: first) second =
        (second r.stop).map (Route.after r.spots) ++ andThen first second := fun _ =>
      List.flatMap_cons
    rw [hcons, hcons, andThen_append, ih, hafter]

theorem agrees_assoc {a b c : Pattern} {f : Route → Option Route}
    (h : Agrees text f (seq a (seq b c)) i) : Agrees text f (seq (seq a b) c) i := by
  have hroutes : ∀ text i, (seq (seq a b) c).routes text i = (seq a (seq b c)).routes text i :=
    fun text i => andThen_assoc _ _ _
  unfold Agrees
  rw [hroutes, hroutes]
  exact h

theorem agrees_optional_seq {f : Route → Option Route} (h : Agrees text f (seq p q) i)
    (hq : Agrees text f q i) : Agrees text f (seq (optional p) q) i := by
  have hroutes : ∀ text i, (seq (optional p) q).routes text i =
      (seq p q).routes text i ++ q.routes text i := by
    intro text i
    conv_rhs => rw [← andThen_here i (q.routes text)]
    exact andThen_append _ _ _
  unfold Agrees
  rw [hroutes, hroutes]
  exact Alike.append h hq

/-! ### Reading to the end of a header -/

/-- From where a pattern has a route, no more than characters of headers stand before one of
`accepted`, and there it has a route too. -/
def Closes (text : List Char) (accepted : Char → Bool) (p : Pattern) : Prop :=
  ∀ i, p.routes text i ≠ [] → ∃ j, i ≤ j ∧ (∀ k, i ≤ k → k < j → text[k]?.any inHeader = true) ∧
    text[j]?.any accepted = true ∧ p.routes text j ≠ []

theorem closes_marked_one (text : List Char) (accepted : Char → Bool) (mark : Mark) :
    Closes text accepted (marked mark (one accepted)) := by
  intro i hi
  refine ⟨i, Nat.le_refl i, fun k hik hki => absurd hik (Nat.not_le.2 hki), ?_, hi⟩
  by_contra hnot
  rw [routes, routes, if_neg hnot] at hi
  exact hi rfl

theorem inHeader_of_ne {c : Char} (hbrace : c ≠ '{') (hsemicolon : c ≠ ';') :
    inHeader c = true := by
  simp [inHeader, noneOf, hbrace, hsemicolon]

theorem closes_seq {accepted : Char → Bool} (hp : (p.avoids '{' && p.avoids ';') = true)
    (hidle : ∀ i, ⟨i, []⟩ ∈ p.routes text i) (hq : Closes text accepted q) :
    Closes text accepted (seq p q) := by
  intro i hi
  rw [Bool.and_eq_true] at hp
  obtain ⟨r, hr⟩ := List.exists_mem_of_ne_nil _ hi
  obtain ⟨r₁, h₁, r₂, h₂, rfl⟩ := mem_andThen.1 hr
  obtain ⟨j, hj, hbetween, haccepted, hroutes⟩ := hq r₁.stop (List.ne_nil_of_mem h₂)
  have hle := (fits_of_mem_routes p i r₁ h₁).le_stop
  refine ⟨j, Nat.le_trans hle hj, fun k hik hkj => ?_, haccepted, ?_⟩
  · by_cases hk : k < r₁.stop
    · obtain ⟨c, hc, _⟩ := (Option.any_eq_true _ _).1 haccepted
      have hlt := (List.getElem?_eq_some_iff.1 hc).1
      have hbrace := ne_of_avoids hp.1 i r₁ h₁ k hik hk
      have hsemicolon := ne_of_avoids hp.2 i r₁ h₁ k hik hk
      rw [List.getElem?_eq_getElem (by omega)] at hbrace hsemicolon ⊢
      exact inHeader_of_ne (fun h => hbrace (congrArg some h))
        (fun h => hsemicolon (congrArg some h))
    · exact hbetween k (Nat.le_of_not_lt hk) hkj
  · obtain ⟨r', hr'⟩ := List.exists_mem_of_ne_nil _ hroutes
    exact List.ne_nil_of_mem (mem_andThen.2 ⟨⟨j, []⟩, hidle j, r', hr', rfl⟩)

theorem mem_routes_optional (p : Pattern) (text : List Char) (i : Nat) :
    ⟨i, []⟩ ∈ (optional p).routes text i :=
  List.mem_append_right _ (List.mem_singleton.2 rfl)

theorem mem_routes_blanks (text : List Char) (i : Nat) : ⟨i, []⟩ ∈ blanks.routes text i :=
  mem_routes_run.2 ⟨i, by rw [runEnds, List.mem_range'_1]; omega, rfl⟩

/-! ### Lists -/

/-- A pattern that reads at least one character of a header and as few as possible, and remembers
`spots` of them. -/
structure Lists (p : Pattern) (spots : Nat → Nat → List Spot) : Prop where
  routes : ∀ text i, p.routes text i = if text[i]?.any inHeader then
    (runEnds inHeader text (i + 1)).map (fun j => ⟨j, spots i j⟩) else []
  move : ∀ (f : Nat → Nat) i j, (spots i j).map (Spot.move f) = spots (f i) (f j)

theorem lists_few : Lists (few1 inHeader) (fun _ _ => []) where
  routes := by
    intro text i
    by_cases h : text[i]?.any inHeader = true
    · rw [few1, routes_seq_one h, if_pos h]
      rfl
    · rw [if_neg h, few1, routes_seq_one_of_not (by simpa using h)]
  move := fun _ _ _ => rfl

theorem lists_marked (mark : Mark) :
    Lists (marked mark (few1 inHeader)) (fun i j => [⟨mark, i, j⟩]) where
  routes := by
    intro text i
    rw [Pattern.routes, lists_few.routes]
    by_cases h : text[i]?.any inHeader = true
    · rw [if_pos h, if_pos h, List.map_map]
      rfl
    · rw [if_neg h, if_neg h, List.map_nil]
  move := fun _ _ _ => rfl

section Lists

variable {spots : Nat → Nat → List Spot} {accepted : Char → Bool}

theorem mem_runEnds_of_any {set : Char → Bool} {j : Nat} (hij : i ≤ j)
    (h : ∀ k, i ≤ k → k < j → text[k]?.any set = true) : j ∈ runEnds set text i := by
  obtain ⟨n, rfl⟩ := Nat.exists_eq_add_of_le hij
  induction n generalizing i with
  | zero => simp [runEnds]
  | succ n ih =>
    have hnext := ih (i := i + 1) (by omega) (fun k hk hk' => h k (by omega) (by omega))
    rw [runEnds_of_any (h i (Nat.le_refl i) (by omega))]
    have heq : i + (n + 1) = i + 1 + n := by omega
    exact List.mem_cons_of_mem i (heq ▸ hnext)

theorem findSome?_list (hp : Lists p spots) (q : Pattern) (text : List Char) (i : Nat) :
    ((seq p q).routes text i).findSome? some = if text[i]?.any inHeader then
      (runEnds inHeader text (i + 1)).findSome? (fun j =>
        (q.routes text j).findSome? (fun r => some (r.after (spots i j)))) else none := by
  rw [Pattern.routes, findSome?_andThen, hp.routes]
  split_ifs
  · rw [List.findSome?_map]
    rfl
  · rfl

/-- A list that starts with no carriage return is read alike. -/
theorem agrees_list (htext : Paired text) (hp : Lists p spots) (hq : ∀ i, Agrees text some q i)
    (hi : text[i]? ≠ some '\r') : Agrees text some (seq p q) i := by
  have hmove : ∀ found : List Route, (found.map (Route.move (bareAt text))).findSome? some =
      (found.findSome? some).map (Route.move (bareAt text)) := by
    intro found
    rw [findSome?_some, findSome?_some, List.head?_map]
  have hany : (bare text)[bareAt text i]?.any inHeader = text[i]?.any inHeader :=
    any_bareAt htext rfl i
  unfold Agrees Alike
  rw [hmove, findSome?_list hp, findSome?_list hp, hany]
  -- the first character of the list is no carriage return, so the runs behind it start at places
  -- that go to each other
  split_ifs with hone
  · obtain ⟨c, hc, _⟩ := (Option.any_eq_true _ _).1 hone
    have heven : inHeader '\r' = inHeader '\n' := rfl
    have hends := (findSome?_runEnds htext heven (fun j =>
      (q.routes (bare text) j).findSome? (fun r => some (r.after (spots (bareAt text i) j))))
      (i + 1)).1
    rw [bareAt_succ hc (fun h => hi (h ▸ hc)), List.findSome?_map] at hends
    rw [← hends, List.map_findSome?]
    refine findSome?_congr (fun j _ => ?_)
    have hj := (hq j).map_some (Route.after (spots (bareAt text i) (bareAt text j)))
    unfold Agrees Alike at hj
    rw [Function.comp_apply, Function.comp_apply, ← hj, List.findSome?_map, List.map_findSome?]
    congr 1
    funext r
    rw [Function.comp_apply, Function.comp_apply, Option.map_some, Route.move_after, hp.move]
  · rfl

/-- A list can be read where characters of a header stand before the end of the header. -/
theorem list_ne_nil_iff (hp : Lists p spots) (hq : Closes text accepted q) :
    (seq p q).routes text i ≠ [] ↔ ∃ j, i < j ∧
      (∀ k, i ≤ k → k < j → text[k]?.any inHeader = true) ∧ text[j]?.any accepted = true ∧
      q.routes text j ≠ [] := by
  constructor
  · intro hne
    obtain ⟨r, hr⟩ := List.exists_mem_of_ne_nil _ hne
    obtain ⟨r₁, h₁, r₂, h₂, rfl⟩ := mem_andThen.1 hr
    rw [hp.routes, List.mem_ite_nil_right, List.mem_map] at h₁
    obtain ⟨hone, j, hj, rfl⟩ := h₁
    obtain ⟨x, hx, hbetween, haccepted, hroutes⟩ := hq j (List.ne_nil_of_mem h₂)
    have hle := (mem_runEnds hj).1
    -- the list can be extended to the end of the header, whatever follows it
    refine ⟨x, by omega, fun k hik hkx => ?_, haccepted, hroutes⟩
    obtain rfl | hlt := Nat.eq_or_lt_of_le hik
    · exact hone
    · by_cases hkj : k < j
      · obtain ⟨c, hc, hset⟩ := getElem?_of_mem_runEnds hj hlt hkj
        rw [hc]
        exact hset
      · exact hbetween k (Nat.le_of_not_lt hkj) hkx
  · rintro ⟨j, hij, hbetween, _, hroutes⟩
    have hmem : (⟨j, spots i j⟩ : Route) ∈ p.routes text i := by
      rw [hp.routes, if_pos (hbetween i (Nat.le_refl i) hij)]
      exact List.mem_map_of_mem (mem_runEnds_of_any hij (fun k hk hkj =>
        hbetween k (Nat.le_of_succ_le hk) hkj))
    obtain ⟨r, hr⟩ := List.exists_mem_of_ne_nil _ hroutes
    exact List.ne_nil_of_mem (mem_andThen.2 ⟨_, hmem, r, hr, rfl⟩)

/-- A list that can start at a place can also start at the next one, unless the header ends
there. -/
theorem list_ne_nil_succ (hp : Lists p spots) (hq : Closes text accepted q)
    (hnext : text[i + 1]?.any accepted = false) (h : (seq p q).routes text i ≠ []) :
    (seq p q).routes text (i + 1) ≠ [] := by
  obtain ⟨j, hij, hbetween, haccepted, hroutes⟩ := (list_ne_nil_iff hp hq).1 h
  refine (list_ne_nil_iff hp hq).2 ⟨j, ?_, fun k hk hkj => hbetween k (by omega) hkj, haccepted,
    hroutes⟩
  refine Nat.lt_of_le_of_ne hij ?_
  rintro rfl
  rw [hnext] at haccepted
  cases haccepted

end Lists

/-! ### Blanks before a list -/

section Blanks

theorem routes_blanks_seq (h : text[i]?.any isBlank = true) (q : Pattern) :
    (seq blanks q).routes text i = (seq blanks q).routes text (i + 1) ++ q.routes text i := by
  have hblanks : ∀ i, blanks.routes text i = (runEnds isBlank text i).reverse.map (⟨·, []⟩) :=
    fun _ => rfl
  rw [routes, routes, hblanks, hblanks, runEnds_of_any h, List.reverse_cons, List.map_append,
    andThen_append, List.map_singleton, andThen_here]

theorem routes_blanks_seq_of_not (h : text[i]?.any isBlank = false) (q : Pattern) :
    (seq blanks q).routes text i = q.routes text i := by
  have hblanks : blanks.routes text i = (runEnds isBlank text i).reverse.map (⟨·, []⟩) := rfl
  rw [routes, hblanks, runEnds_of_not_any h, List.reverse_singleton, List.map_singleton,
    andThen_here]

theorem blanks_seq_ne_nil (h : q.routes text i ≠ []) : (seq blanks q).routes text i ≠ [] := by
  by_cases hblank : text[i]?.any isBlank = true
  · rw [routes_blanks_seq hblank]
    exact List.append_ne_nil_of_right_ne_nil _ h
  · rwa [routes_blanks_seq_of_not (by simpa using hblank)]

theorem head?_append_of_imp {found more : List Route} (h : more ≠ [] → found ≠ []) :
    (found ++ more).findSome? some = found.findSome? some := by
  rw [findSome?_some, findSome?_some]
  cases found with
  | nil =>
    cases more with
    | nil => rfl
    | cons r more => exact absurd rfl (h (List.cons_ne_nil r more))
  | cons r found => rfl

/-- Blanks are read alike before what agrees apart from carriage returns, and before them has a
route only if it has one before their newlines. -/
theorem agrees_blanks (htext : Paired text)
    (hq : ∀ i, text[i]? ≠ some '\r' → Agrees text some q i)
    (hreturn : ∀ i, text[i]? = some '\r' → q.routes text i ≠ [] → q.routes text (i + 1) ≠ [])
    (i : Nat) : Agrees text some (seq blanks q) i := by
  have hany : ∀ i, (bare text)[bareAt text i]?.any isBlank = text[i]?.any isBlank :=
    any_bareAt htext rfl
  -- blanks are eager: the places further on come first, so the induction is on what is left
  generalize hn : text.length - i = n
  induction n generalizing i with
  | zero =>
    have hnone : text[i]? = none := List.getElem?_eq_none (by omega)
    have hblank : text[i]?.any isBlank = false := by
      rw [hnone]
      rfl
    unfold Agrees
    rw [routes_blanks_seq_of_not hblank, routes_blanks_seq_of_not ((hany i).trans hblank)]
    exact hq i (by rw [hnone]; exact (Option.some_ne_none _).symm)
  | succ n ih =>
    have hnext := ih (i + 1) (by omega)
    unfold Agrees at hnext ⊢
    by_cases hblank : text[i]?.any isBlank = true
    · rw [routes_blanks_seq hblank]
      by_cases hcr : text[i]? = some '\r'
      · -- behind the carriage return the same blanks follow, and one start of `q` less
        rw [bareAt_succ_return hcr] at hnext
        unfold Alike at hnext ⊢
        rw [← hnext, List.map_append]
        refine head?_append_of_imp (fun hne => ?_)
        rw [ne_eq, List.map_eq_nil_iff] at hne ⊢
        exact blanks_seq_ne_nil (hreturn i hcr hne)
      · obtain ⟨c, hc, _⟩ := (Option.any_eq_true _ _).1 hblank
        rw [bareAt_succ hc (fun h => hcr (h ▸ hc))] at hnext
        rw [routes_blanks_seq ((hany i).trans hblank)]
        exact Alike.append hnext (hq i hcr)
    · have hcr : text[i]? ≠ some '\r' := by
        intro hcr
        rw [hcr] at hblank
        exact hblank rfl
      rw [Bool.not_eq_true] at hblank
      rw [routes_blanks_seq_of_not hblank, routes_blanks_seq_of_not ((hany i).trans hblank)]
      exact hq i hcr

/-- At least one blank is read alike too, if after a carriage return and a newline what follows is
not read from the newline on alone. -/
theorem agrees_blanks1 (htext : Paired text)
    (hq : ∀ i, text[i]? ≠ some '\r' → Agrees text some q i)
    (hreturn : ∀ i, text[i]? = some '\r' → q.routes text i ≠ [] → q.routes text (i + 1) ≠ [])
    (hfew : text[i]? = some '\r' → q.routes (bare text) (bareAt text i) ≠ [] →
      q.routes (bare text) (bareAt text i + 1) ≠ []) :
    Agrees text some (seq blanks1 q) i := by
  refine agrees_assoc ?_
  have hany : (bare text)[bareAt text i]?.any isBlank = text[i]?.any isBlank :=
    any_bareAt htext rfl i
  have hblanks := agrees_blanks htext hq hreturn (i + 1)
  unfold Agrees at hblanks ⊢
  by_cases hblank : text[i]?.any isBlank = true
  · rw [routes_seq_one hblank, routes_seq_one (hany.trans hblank)]
    by_cases hcr : text[i]? = some '\r'
    · -- the carriage return is the blank that has to be there; in the bare text the newline is,
      -- and cannot be given up
      rw [bareAt_succ_return hcr] at hblanks
      refine hblanks.trans ?_
      show List.findSome? some ((seq blanks q).routes (bare text) (bareAt text i)) = _
      rw [routes_blanks_seq (hany.trans hblank)]
      exact head?_append_of_imp (fun hne => blanks_seq_ne_nil (hfew hcr hne))
    · obtain ⟨c, hc, _⟩ := (Option.any_eq_true _ _).1 hblank
      rwa [bareAt_succ hc (fun h => hcr (h ▸ hc))] at hblanks
  · rw [Bool.not_eq_true] at hblank
    rw [routes_seq_one_of_not hblank, routes_seq_one_of_not (hany.trans hblank)]
    exact alike_nil

end Blanks

/-! ### Clauses -/

section Clauses

variable {spots : Nat → Nat → List Spot} {accepted : Char → Bool}

theorem list_ne_nil_of_return (htext : Paired text) (hp : Lists p spots)
    (hclose : Closes text accepted q) (haccepted : accepted '\n' = false)
    (hi : text[i]? = some '\r') (h : (seq p q).routes text i ≠ []) :
    (seq p q).routes text (i + 1) ≠ [] := by
  refine list_ne_nil_succ hp hclose ?_ h
  rw [htext i hi]
  exact haccepted

/-- A list behind blanks is read alike. -/
theorem agrees_blanks_list (htext : Paired text) (hp : Lists p spots)
    (hq : ∀ i, Agrees text some q i) (hclose : Closes text accepted q)
    (haccepted : accepted '\n' = false) (i : Nat) :
    Agrees text some (seq blanks (seq p q)) i :=
  agrees_blanks htext (fun _ hi => agrees_list htext hp hq hi)
    (fun _ hi => list_ne_nil_of_return htext hp hclose haccepted hi) i

/-- A list behind at least one blank is read alike, unless a newline with nothing between it and
the end of the header stands for the blank and for the list. -/
theorem agrees_blanks1_list (htext : Paired text) (hp : Lists p spots)
    (hq : ∀ i, Agrees text some q i) (hclose : Closes text accepted q)
    (hclose' : Closes (bare text) accepted q) (haccepted : accepted '\n' = false)
    (hfew : text[i]? = some '\r' → (bare text)[bareAt text i + 1]?.any accepted = false) :
    Agrees text some (seq blanks1 (seq p q)) i :=
  agrees_blanks1 htext (fun _ hi => agrees_list htext hp hq hi)
    (fun _ hi => list_ne_nil_of_return htext hp hclose haccepted hi)
    (fun hi hne => list_ne_nil_succ hp hclose' (hfew hi) hne)

/-- No word behind blanks stands directly before a newline and an opening brace. -/
def Unbroken (text : List Char) (word : String) : Prop :=
  ∀ i, ∀ r ∈ blanks1.routes text i, ∀ r' ∈ (literal word).routes text r.stop,
    text[r'.stop]? = some '\r' → (bare text)[bareAt text r'.stop + 1]? ≠ some '{'

/-- A clause that a word introduces is read alike, if no such word is broken. -/
theorem agrees_clause (htext : Paired text) (hp : Lists p spots) (hq : ∀ i, Agrees text some q i)
    (hclose : ∀ text, Closes text (· == '{') q) {word : String}
    (hword : ((literal word).solid && (literal word).insight.blind) = true)
    (hbroken : Unbroken text word) (i : Nat) :
    Agrees text some (seq (optional (sequence [blanks1, literal word, blanks1, p])) q) i := by
  rw [Bool.and_eq_true] at hword
  have hblanks := (sees_insight htext blanks1).lax (by decide)
  have hliteral := (sees_insight htext (literal word)).blind hword.2
  have hsolid : (seq (seq (literal word) (seq blanks1 p)) q).solid = true := by
    rw [solid, solid, hword.1]
    rfl
  -- the blanks before the word may stop before a newline, but there the word cannot start
  refine agrees_optional_seq (agrees_assoc (agrees_first_seq_lax (hblanks i) hsolid ?_)) (hq i)
  intro r hr
  refine agrees_assoc (agrees_first_seq (hliteral r.stop) ?_)
  intro r' hr'
  refine agrees_assoc (agrees_blanks1_list htext hp hq (hclose _) (hclose _) rfl ?_)
  intro hreturn
  have hbrace := hbroken i r hr r' hr' hreturn
  cases hget : (bare text)[bareAt text r'.stop + 1]? with
  | none => rfl
  | some c =>
    rw [Option.any_some, beq_eq_false_iff_ne]
    rintro rfl
    exact hbrace hget

end Clauses

/-! ### Empty clauses -/

/-- The words that introduce clauses. -/
def clauseWords : List String := ["extends", "implements", "permits"]

/-- Whether one of the words that introduce clauses stands behind a blank and directly before a
newline and an opening brace. -/
def hasEmptyClause : List Char → Bool
  | [] => false
  | c :: rest =>
    (isBlank c && clauseWords.any (fun word => (word.toList ++ ['\n', '{']).isPrefixOf rest)) ||
      hasEmptyClause rest

theorem hasEmptyClause_of_drop {n : Nat} (h : hasEmptyClause (text.drop n) = true) :
    hasEmptyClause text = true := by
  induction text generalizing n with
  | nil => rwa [List.drop_nil] at h
  | cons c rest ih =>
    cases n with
    | zero => exact h
    | succ n =>
      rw [hasEmptyClause, ih h, Bool.or_true]

/-- At least one blank ends with a blank. -/
theorem exists_blank_of_mem_blanks1 (hr : r ∈ blanks1.routes text i) :
    ∃ k c, r.stop = k + 1 ∧ text[k]? = some c ∧ isBlank c = true := by
  obtain ⟨r₁, h₁, r₂, h₂, rfl⟩ := mem_andThen.1 hr
  rw [routes, List.mem_ite_nil_right, List.mem_singleton] at h₁
  obtain ⟨hone, rfl⟩ := h₁
  obtain ⟨j, hj, rfl⟩ := mem_routes_run.1 h₂
  obtain rfl | hlt := Nat.eq_or_lt_of_le (mem_runEnds hj).1
  · obtain ⟨c, hc, hblank⟩ := (Option.any_eq_true _ _).1 hone
    exact ⟨i, c, rfl, hc, hblank⟩
  · obtain ⟨k, rfl⟩ := Nat.exists_eq_succ_of_ne_zero (Nat.ne_zero_of_lt hlt)
    obtain ⟨c, hc, hblank⟩ := getElem?_of_mem_runEnds hj (Nat.le_of_lt_succ hlt)
      (Nat.lt_succ_self k)
    exact ⟨k, c, rfl, hc, hblank⟩

theorem drop_of_mem_literal {word : String} (hr : r ∈ (literal word).routes text i) :
    text.drop i = word.toList ++ text.drop r.stop := by
  unfold literal at hr
  generalize word.toList = chars at hr
  induction chars generalizing i r with
  | nil =>
    obtain rfl := List.mem_singleton.1 hr
    rfl
  | cons c chars ih =>
    have hone : ∀ r ∈ (one (· == c)).routes text i, text[i]? = some c ∧ r = ⟨i + 1, []⟩ := by
      intro r hr
      rw [routes, List.mem_ite_nil_right, List.mem_singleton] at hr
      obtain ⟨d, hd, heq⟩ := (Option.any_eq_true _ _).1 hr.1
      exact ⟨beq_iff_eq.1 heq ▸ hd, hr.2⟩
    cases chars with
    | nil =>
      obtain ⟨hc, rfl⟩ := hone r hr
      exact drop_of_getElem? hc
    | cons d chars =>
      obtain ⟨r₁, h₁, r₂, h₂, rfl⟩ := mem_andThen.1 hr
      obtain ⟨hc, rfl⟩ := hone r₁ h₁
      have hrest : text.drop (i + 1) = d :: chars ++ text.drop r₂.stop := ih h₂
      rw [drop_of_getElem? hc, hrest]
      rfl

/-- Where the bare text has no empty clause, the words of clauses are not broken. -/
theorem unbroken_of_bare (htext : Paired text) (h : hasEmptyClause (bare text) = false)
    {word : String} (hword : word ∈ clauseWords) : Unbroken text word := by
  intro i r hr r' hr' hreturn hbrace
  obtain ⟨k, c, hstop, hc, hblank⟩ := exists_blank_of_mem_blanks1 hr
  have hplain : ∀ word ∈ clauseWords,
      bare word.toList = word.toList ∧ word.toList.head?.any (· != '\n') = true := by
    decide
  obtain ⟨hbare, hhead⟩ := hplain word hword
  have hrest := drop_of_mem_literal hr'
  have hne : c ≠ '\r' := by
    -- a newline would follow, and no word starts with one
    rintro rfl
    have hnewline := htext k hc
    rw [← hstop, ← List.head?_drop, hrest, List.head?_append] at hnewline
    obtain ⟨d, hd, hdne⟩ := (Option.any_eq_true _ _).1 hhead
    rw [hd, Option.some_or, Option.some.injEq] at hnewline
    rw [hnewline] at hdne
    cases hdne
  have hline : bare (text.drop r'.stop) = '\n' :: bare (text.drop (r'.stop + 1 + 1)) := by
    rw [drop_of_getElem? hreturn, drop_of_getElem? (htext _ hreturn), bare_return,
      bare_cons (by decide)]
  obtain ⟨more, hmore⟩ : ∃ more, bare (text.drop (r'.stop + 1 + 1)) = '{' :: more := by
    rw [← List.head?_drop, ← List.drop_drop, drop_bareAt, hline] at hbrace
    exact List.head?_eq_some_iff.1 hbrace
  have hempty : hasEmptyClause (bare (text.drop k)) = true := by
    have hbegins : (word.toList ++ ['\n', '{']).isPrefixOf (word.toList ++ '\n' :: '{' :: more) =
        true := by
      refine List.isPrefixOf_iff_prefix.2 ⟨more, ?_⟩
      rw [List.append_assoc]
      rfl
    rw [drop_of_getElem? hc, bare_cons hne, ← hstop, hrest, bare_append, hbare, hline, hmore,
      hasEmptyClause, hblank, List.any_eq_true.2 ⟨word, hword, hbegins⟩]
    rfl
  rw [← drop_bareAt] at hempty
  rw [hasEmptyClause_of_drop hempty] at h
  cases h

/-! ### Headers -/

/-- The first `n` parts of a sequence. -/
def front : Nat → Pattern → Pattern
  | n + 1, seq p q => seq p (front n q)
  | _, _ => empty

/-- The parts of a sequence after the first `n`. -/
def back : Nat → Pattern → Pattern
  | n + 1, seq _ q => back n q
  | _, p => p

theorem routes_front_back (n : Nat) (p : Pattern) (text : List Char) (i : Nat) :
    (seq (front n p) (back n p)).routes text i = p.routes text i := by
  induction n generalizing p i with
  | zero => exact andThen_here i _
  | succ n ih =>
    cases p with
    | seq p q =>
      show andThen (andThen _ _) _ = andThen _ _
      rw [andThen_assoc]
      exact andThen_congr (fun r _ => ih q r.stop)
    | empty | one | run | alt | many | marked | lineStart | wordEdge => exact andThen_here i _

/-- A pattern is read alike if it is up to some part, and what follows is. -/
theorem agrees_first_of_front (htext : Paired text) (n : Nat) {p : Pattern}
    (hfront : (front n p).insight.sighted = true) (hback : ∀ i, Agrees text some (back n p) i)
    (hi : ¬ Between text i) : Agrees text some p i := by
  have h := agrees_first_seq ((sees_insight htext (front n p)).sighted hfront i hi)
    (fun r _ => hback r.stop)
  unfold Agrees at h ⊢
  rwa [routes_front_back, routes_front_back] at h

theorem agrees_csharpHeader (htext : Paired text) (hi : ¬ Between text i) :
    Agrees text some csharpHeader i := by
  refine agrees_first_of_front htext 7 (by decide +kernel) (fun i => ?_) hi
  have hback : back 7 csharpHeader =
      seq (optional (seq blanks (seq (one (· == ':')) (seq blanks
        (marked .bases (few1 inHeader)))))) (back 8 csharpHeader) := rfl
  have hrest : ∀ i, Agrees text some (back 8 csharpHeader) i := fun i =>
    (sees_insight htext _).blind (by decide +kernel) i some
  have hclose : Closes text (anyOf "\x7b;") (back 8 csharpHeader) :=
    closes_seq (by decide +kernel) (mem_routes_blanks text)
      (closes_seq (by decide +kernel) (mem_routes_optional _ text) (closes_marked_one _ _ _))
  rw [hback]
  refine agrees_optional_seq (agrees_assoc (agrees_first_seq
    ((sees_insight htext blanks).blind (by decide) i) (fun r _ => ?_))) (hrest i)
  refine agrees_assoc (agrees_first_seq ((sees_insight htext _).blind (by decide) r.stop)
    (fun r' _ => ?_))
  exact agrees_assoc (agrees_blanks_list htext (lists_marked .bases) hrest hclose
    (by decide) r'.stop)

theorem agrees_cppHeader (htext : Paired text) (hi : ¬ Between text i) :
    Agrees text some cppHeader i := by
  refine agrees_first_of_front htext 8 (by decide +kernel) (fun i => ?_) hi
  have hback : back 8 cppHeader = seq (optional (seq (one (· == ':')) (seq blanks
      (marked .bases (few1 inHeader))))) (back 9 cppHeader) := rfl
  have hrest : ∀ i, Agrees text some (back 9 cppHeader) i := fun i =>
    (sees_insight htext _).blind (by decide +kernel) i some
  have hclose : Closes text (anyOf "\x7b;") (back 9 cppHeader) :=
    closes_seq (by decide +kernel) (mem_routes_blanks text) (closes_marked_one _ _ _)
  rw [hback]
  refine agrees_optional_seq (agrees_assoc (agrees_first_seq
    ((sees_insight htext _).blind (by decide) i) (fun r _ => ?_))) (hrest i)
  exact agrees_assoc (agrees_blanks_list htext (lists_marked .bases) hrest hclose
    (by decide) r.stop)

theorem agrees_javaHeader (htext : Paired text)
    (hbroken : ∀ word ∈ clauseWords, Unbroken text word)
    (hi : ¬ Between text i) : Agrees text some javaHeader i := by
  refine agrees_first_of_front htext 7 (by decide +kernel) (fun i => ?_) hi
  -- from the last clause to the first, since each list is read up to what follows it
  have hbody : ∀ i, Agrees text some (back 10 javaHeader) i := fun i =>
    (sees_insight htext _).blind (by decide +kernel) i some
  have hbodyClose : ∀ text, Closes text (· == '{') (back 10 javaHeader) := fun text =>
    closes_seq (by decide +kernel) (mem_routes_blanks text) (closes_marked_one _ _ _)
  have hpermits : ∀ i, Agrees text some (back 9 javaHeader) i :=
    agrees_clause htext lists_few hbody hbodyClose (by decide) (hbroken "permits" (by decide))
  have hpermitsClose : ∀ text, Closes text (· == '{') (back 9 javaHeader) := fun text =>
    closes_seq (by decide +kernel) (mem_routes_optional _ text) (hbodyClose text)
  have himplements : ∀ i, Agrees text some (back 8 javaHeader) i :=
    agrees_clause htext (lists_marked .interfaces) hpermits hpermitsClose (by decide)
      (hbroken "implements" (by decide))
  have himplementsClose : ∀ text, Closes text (· == '{') (back 8 javaHeader) := fun text =>
    closes_seq (by decide +kernel) (mem_routes_optional _ text) (hpermitsClose text)
  exact agrees_clause htext (lists_marked .superclass) himplements himplementsClose (by decide)
    (hbroken "extends" (by decide)) i

end Lineage.Pattern
