import Lineage.Files.Path
import Mathlib.Data.List.Basic

/-!
# Components and the order of paths

The order of paths is the strict order of their components, which is total (`precedes_of_le`): so a
sorted list of paths with different components ascends (`pairwise_sort`), and two ascending lists
with the same paths are equal (`eq_of_pairwise_precedes`).

A list of names below a folder gives the path `below root names`.  Its components are those of the
folder and then the names (`components_below`), so the names can be read back from the path
(`namesBelow_below`).
-/

namespace Lineage

namespace Component

variable {a b c : Component}

theorem before_irrefl (a : Component) : a.before a = false := by
  cases a with
  | name s => exact decide_eq_false (String.lt_irrefl s)
  | root | here | up => rfl

theorem before_trans (hab : a.before b = true) (hbc : b.before c = true) : a.before c = true := by
  cases a <;> cases b <;> cases c
  case name.name.name =>
    exact decide_eq_true (String.lt_trans (of_decide_eq_true hab) (of_decide_eq_true hbc))
  all_goals simp [before, rank] at hab hbc ⊢

theorem eq_of_not_before (hab : a.before b = false) (hba : b.before a = false) : a = b := by
  cases a <;> cases b
  case name.name =>
    exact congrArg name (String.le_antisymm (of_decide_eq_false hba) (of_decide_eq_false hab))
  all_goals simp [before, rank] at hab hba ⊢

end Component

namespace Path

variable {a b c : List Component} {root path : String} {names : List String}

/-! ### The order -/

theorem componentsBefore_irrefl (a : List Component) : componentsBefore a a = false := by
  induction a with
  | nil => rfl
  | cons x a ih => simp [componentsBefore, ih, Component.before_irrefl]

theorem componentsBefore_cons {x y : Component} :
    componentsBefore (x :: a) (y :: b) = true ↔
      x.before y = true ∨ x = y ∧ componentsBefore a b = true := by
  rw [componentsBefore, Bool.or_eq_true, Bool.and_eq_true, beq_iff_eq]

theorem componentsBefore_trans (hab : componentsBefore a b = true)
    (hbc : componentsBefore b c = true) : componentsBefore a c = true := by
  induction a generalizing b c with
  | nil =>
    cases c with
    | nil => cases b <;> exact hbc
    | cons z c => rfl
  | cons x a ih =>
    cases b with
    | nil => cases hab
    | cons y b =>
      cases c with
      | nil => cases hbc
      | cons z c =>
        rw [componentsBefore_cons] at hab hbc ⊢
        rcases hab with hxy | ⟨rfl, hab⟩
        · rcases hbc with hyz | ⟨rfl, _⟩
          · exact Or.inl (Component.before_trans hxy hyz)
          · exact Or.inl hxy
        · rcases hbc with hyz | ⟨rfl, hbc⟩
          · exact Or.inl hyz
          · exact Or.inr ⟨rfl, ih hab hbc⟩

theorem eq_of_not_componentsBefore (hab : componentsBefore a b = false)
    (hba : componentsBefore b a = false) : a = b := by
  induction a generalizing b with
  | nil =>
    cases b with
    | nil => rfl
    | cons y b => cases hab
  | cons x a ih =>
    cases b with
    | nil => cases hba
    | cons y b =>
      rw [← Bool.not_eq_true, componentsBefore_cons, not_or, Bool.not_eq_true] at hab hba
      obtain rfl := Component.eq_of_not_before hab.1 hba.1
      rw [ih (by simpa using hab.2) (by simpa using hba.2)]

theorem precedes_asymm {p q : String} (hpq : precedes p q = true) : precedes q p = false := by
  rw [← Bool.not_eq_true]
  intro hqp
  have hloop : precedes p p = true := componentsBefore_trans hpq hqp
  rw [precedes, componentsBefore_irrefl] at hloop
  cases hloop

/-- Of two paths with different components one precedes the other. -/
theorem precedes_of_le {p q : String} (hle : precedes q p = false)
    (hne : components p ≠ components q) : precedes p q = true := by
  by_contra hpq
  exact hne (eq_of_not_componentsBefore (Bool.eq_false_iff.2 hpq) hle)

theorem not_precedes_trans {p q r : String} (hpq : precedes q p = false)
    (hqr : precedes r q = false) : precedes r p = false := by
  rw [← Bool.not_eq_true]
  intro hrp
  by_cases heq : components q = components r
  · rw [precedes, ← heq] at hrp
    rw [precedes, hrp] at hpq
    cases hpq
  · have hqp : precedes q p = true := componentsBefore_trans (precedes_of_le hqr heq) hrp
    rw [hqp] at hpq
    cases hpq

/-- **A sorted list ascends**, if no two of its paths have the same components. -/
theorem pairwise_sort {paths : List String}
    (h : paths.Pairwise (fun p q => components p ≠ components q)) :
    (sort paths).Pairwise (fun p q => precedes p q = true) := by
  have hsorted : (sort paths).Pairwise (fun p q => (!precedes q p) = true) := by
    refine List.pairwise_mergeSort (fun p q r hpq hqr => ?_) (fun p q => ?_) paths
    · rw [Bool.not_eq_true'] at hpq hqr ⊢
      exact not_precedes_trans hpq hqr
    · cases hqp : precedes q p with
      | false => rfl
      | true => rw [precedes_asymm hqp]; rfl
  have hdistinct : (sort paths).Pairwise (fun p q => components p ≠ components q) :=
    (List.mergeSort_perm paths _).symm.pairwise h (fun hpq => hpq.symm)
  exact hsorted.imp₂ (fun p q hle hne => precedes_of_le (by simpa using hle) hne) hdistinct

/-- Two ascending lists with the same paths are equal. -/
theorem eq_of_pairwise_precedes {paths paths' : List String}
    (h : paths.Pairwise (fun p q => precedes p q = true))
    (h' : paths'.Pairwise (fun p q => precedes p q = true))
    (hmem : ∀ path, path ∈ paths ↔ path ∈ paths') : paths = paths' := by
  have hne : ∀ p q : String, precedes p q = true → p ≠ q := by
    rintro p _ hpq rfl
    rw [precedes, componentsBefore_irrefl] at hpq
    cases hpq
  have hperm : paths.Perm paths' :=
    (List.perm_ext_iff_of_nodup (h.imp (fun hpq => hne _ _ hpq))
      (h'.imp (fun hpq => hne _ _ hpq))).2 hmem
  refine hperm.eq_of_pairwise (fun p q _ _ hpq hqp => ?_) h h'
  rw [precedes_asymm hpq] at hqp
  cases hqp

/-! ### Names below a folder -/

/-- A text that can be the name of an entry of a folder. -/
structure IsName (text : String) : Prop where
  ne_empty : text.toList ≠ []
  ne_here : text.toList ≠ ['.']
  ne_up : text.toList ≠ ['.', '.']
  not_slash : '/' ∉ text.toList

instance (text : String) : Decidable (IsName text) :=
  decidable_of_iff (text.toList ≠ [] ∧ text.toList ≠ ['.'] ∧ text.toList ≠ ['.', '.'] ∧
      '/' ∉ text.toList)
    ⟨fun h => ⟨h.1, h.2.1, h.2.2.1, h.2.2.2⟩,
      fun h => ⟨h.ne_empty, h.ne_here, h.ne_up, h.not_slash⟩⟩

/-- The path of the entry that names lead to from a folder. -/
def below (root : String) (names : List String) : String :=
  join root ("/".intercalate names)

/-- The names that lead from a folder to a path below it. -/
def namesBelow (root path : String) : List String :=
  ((components path).drop (components root).length).filterMap fun
    | .name text => some text
    | _ => none

theorem segments_append (current text rest : List Char) :
    (segments current (text ++ '/' :: rest)).map (·.1) =
      (segments current text).map (·.1) ++ (segments [] rest).map (·.1) := by
  induction text generalizing current with
  | nil =>
    rw [List.nil_append, segments, segments, List.map_append]
    congr 1
    cases segment? current.reverse <;> rfl
  | cons c text ih =>
    by_cases hc : c = '/'
    · subst hc
      rw [List.cons_append, segments, segments, List.map_append, List.map_append,
        List.append_assoc, ih]
      congr 1
      cases segment? current.reverse <;> rfl
    · have hcons : ∀ more, segments current (c :: more) = segments (c :: current) more := by
        intro more
        rw [segments]
        exact fun h => hc h
      rw [List.cons_append, hcons, hcons, ih]

theorem segments_of_not_slash {text : List Char} (h : '/' ∉ text) (current : List Char) :
    (segments current text).map (·.1) = (segment? (current.reverse ++ text)).toList := by
  induction text generalizing current with
  | nil =>
    rw [segments, List.append_nil]
    cases segment? current.reverse <;> rfl
  | cons c text ih =>
    rw [List.mem_cons, not_or] at h
    have hcons : segments current (c :: text) = segments (c :: current) text := by
      rw [segments]
      exact fun hc => h.1 hc.symm
    rw [hcons, ih h.2, List.reverse_cons, List.append_assoc]
    rfl

theorem IsName.segment? {text : String} (h : IsName text) :
    segment? text.toList = some (.name text) := by
  unfold Path.segment?
  split
  · exact absurd ‹_› h.ne_empty
  · exact absurd ‹_› h.ne_here
  · exact absurd ‹_› h.ne_up
  · rw [String.ofList_toList]

/-- The components of a text of names between slashes. -/
theorem segments_intercalate (h : ∀ name ∈ names, IsName name) :
    (segments [] ("/".intercalate names).toList).map (·.1) = names.map .name := by
  rw [String.toList_intercalate]
  induction names with
  | nil => rfl
  | cons name names ih =>
    have hname := h name List.mem_cons_self
    have hfirst : (segments [] name.toList).map (·.1) = [.name name] := by
      rw [segments_of_not_slash hname.not_slash, List.reverse_nil, List.nil_append, hname.segment?]
      rfl
    cases names with
    | nil => simpa using hfirst
    | cons next names =>
      have hrest := ih (fun n hn => h n (List.mem_cons_of_mem name hn))
      have hslash : "/".toList = ['/'] := rfl
      rw [hslash] at hrest ⊢
      rw [List.map_cons, List.map_cons, List.intercalate_cons_cons, ← List.map_cons,
        List.append_assoc, List.singleton_append, segments_append, hfirst, hrest]
      rfl

theorem isAbsolute_intercalate (h : ∀ name ∈ names, IsName name) :
    isAbsolute ("/".intercalate names) = false := by
  cases names with
  | nil => rfl
  | cons name names =>
    have hname := h name List.mem_cons_self
    obtain ⟨c, text, htext⟩ := List.exists_cons_of_ne_nil hname.ne_empty
    have hc : c ≠ '/' := by
      rintro rfl
      exact hname.not_slash (by rw [htext]; exact List.mem_cons_self)
    have hhead : ("/".intercalate (name :: names)).toList.head? = some c := by
      rw [String.toList_intercalate]
      cases names with
      | nil => simp [htext]
      | cons next names =>
        rw [List.map_cons, List.map_cons, List.intercalate_cons_cons, htext]
        rfl
    rw [isAbsolute, hhead]
    simpa using hc

theorem steps_of_plain {text : List Char} (habsolute : ∀ rest, text ≠ '/' :: rest)
    (hdot : text ≠ ['.']) (hhere : ∀ rest, text ≠ '.' :: '/' :: rest) :
    steps text = segments [] text := by
  rw [steps]
  · exact habsolute
  · exact hdot
  · exact hhere

/-- A slash separates the components of what is before it from those of what is after it. -/
theorem map_steps_append {text : List Char} (h : text ≠ []) (rest : List Char) :
    (steps (text ++ '/' :: rest)).map (·.1) =
      (steps text).map (·.1) ++ (segments [] rest).map (·.1) := by
  fun_cases steps text with
  | case1 text =>
    rw [List.cons_append, steps, List.map_cons, List.map_cons, segments_append]
    rfl
  | case2 => rfl
  | case3 text =>
    rw [List.cons_append, List.cons_append, steps, List.map_cons, List.map_cons, segments_append]
    rfl
  | case4 text habsolute hdot hhere =>
    obtain ⟨c, text, rfl⟩ := List.exists_cons_of_ne_nil h
    rw [steps_of_plain, segments_append]
    · rintro rest' heq
      exact habsolute text (by rw [(List.cons.inj heq).1])
    · simp
    · rintro rest' heq
      obtain ⟨rfl, htext⟩ := List.cons.inj heq
      cases text with
      | nil => exact hdot rfl
      | cons d text => exact hhere text (by rw [(List.cons.inj htext).1])

/-- **The components of a path below a folder** are those of the folder and the names. -/
theorem components_below (hroot : root.isEmpty = false) (h : ∀ name ∈ names, IsName name) :
    components (below root names) = components root ++ names.map .name := by
  have habsolute := isAbsolute_intercalate h
  have hne : root.toList ≠ [] := by
    intro hnil
    rw [String.toList_eq_nil_iff] at hnil
    subst hnil
    cases hroot
  unfold below join
  rw [habsolute, hroot, Bool.or_false, if_neg Bool.false_ne_true]
  unfold components
  split_ifs with hslash
  · -- the slash at the end of the folder separates
    obtain ⟨start, hstart⟩ : ∃ start, root.toList = start ++ ['/'] := by
      rw [beq_iff_eq, List.getLast?_eq_some_iff] at hslash
      exact hslash
    rw [String.toList_append, hstart, List.append_assoc, List.singleton_append]
    cases start with
    | nil =>
      rw [List.nil_append, List.nil_append, steps, List.map_cons, segments_intercalate h]
      rfl
    | cons c start =>
      rw [map_steps_append (by simp), map_steps_append (by simp), segments_intercalate h]
      simp [segments, segment?]
  · have hslash : "/".toList = ['/'] := rfl
    rw [String.toList_append, String.toList_append, hslash, List.append_assoc,
      List.singleton_append, map_steps_append hne, segments_intercalate h]

theorem exists_intercalate_concat (names : List String) (last : String) :
    ∃ front, '/' :: ("/".intercalate (names ++ [last])).toList = front ++ '/' :: last.toList := by
  rw [String.toList_intercalate]
  induction names with
  | nil => exact ⟨[], by simp⟩
  | cons name names ih =>
    obtain ⟨front, hfront⟩ := ih
    refine ⟨'/' :: name.toList ++ front, ?_⟩
    rw [List.append_assoc, ← hfront]
    cases names with
    | nil => simp
    | cons next names =>
      have hslash : "/".toList = ['/'] := rfl
      rw [hslash, List.cons_append, List.map_cons, List.cons_append, List.map_cons,
        List.intercalate_cons_cons]
      simp

/-- A path below a folder ends with a slash and the last name. -/
theorem exists_toList_below {last : String} (hroot : root.isEmpty = false)
    (h : ∀ name ∈ names, IsName name) (hlast : names.getLast? = some last) :
    ∃ start, (below root names).toList = start ++ '/' :: last.toList := by
  have habsolute := isAbsolute_intercalate h
  obtain ⟨names, rfl⟩ : ∃ start, names = start ++ [last] := List.getLast?_eq_some_iff.1 hlast
  obtain ⟨front, hfront⟩ := exists_intercalate_concat names last
  unfold below join
  rw [habsolute, hroot, Bool.or_false, if_neg Bool.false_ne_true]
  split_ifs with hslash
  · obtain ⟨start, hstart⟩ : ∃ start, root.toList = start ++ ['/'] := by
      rwa [beq_iff_eq, List.getLast?_eq_some_iff] at hslash
    refine ⟨start ++ front, ?_⟩
    rw [String.toList_append, hstart, List.append_assoc, List.singleton_append, hfront,
      List.append_assoc]
  · refine ⟨root.toList ++ front, ?_⟩
    have hslash : "/".toList = ['/'] := rfl
    rw [String.toList_append, String.toList_append, hslash, List.append_assoc,
      List.singleton_append, hfront, List.append_assoc]

theorem isAbsolute_below (hroot : root.isEmpty = false) (h : ∀ name ∈ names, IsName name) :
    isAbsolute (below root names) = isAbsolute root := by
  have habsolute := isAbsolute_intercalate h
  have hne : root.toList ≠ [] := by
    intro hnil
    rw [String.toList_eq_nil_iff] at hnil
    subst hnil
    cases hroot
  obtain ⟨c, text, htext⟩ := List.exists_cons_of_ne_nil hne
  unfold below join
  rw [habsolute, hroot, Bool.or_false, if_neg Bool.false_ne_true]
  unfold isAbsolute
  split_ifs <;> simp [htext]

theorem namesBelow_below (hroot : root.isEmpty = false) (h : ∀ name ∈ names, IsName name) :
    namesBelow root (below root names) = names := by
  rw [namesBelow, components_below hroot h, List.drop_left, List.filterMap_map]
  exact List.filterMap_some

end Path

end Lineage
