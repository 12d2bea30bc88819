import Lineage.Proofs.Forest
import Mathlib.Data.List.Induction

/-!
# One class for each qualified name

A table is filled from left to right: a declaration whose qualified name is new goes to the end, and
one whose name is known takes the place of the declaration before it.  So the table of a list has
each qualified name of the list once, in the order of the first occurrences, and with the last
declaration of that name (`Table.merges_ofList`).

Places can be found by an index of the qualified names, which gets an entry when a name is new and
is left alone when a declaration is replaced.  Such a `Catalogue` has the entries of the table, and
its index is the search for qualified names (`Catalogue.ofList_agrees`).

The main statement is `Forest.lists_build`, on the classes of a forest and its look-ups.
-/

namespace Lineage

/-! ### Merging -/

namespace Table

variable {t : Table} {ds : List Declaration} {d e : Declaration} {name : String} {i : NodeId}

/-- `d` is the last declaration of a list with its qualified name. -/
def LastOf (ds : List Declaration) (d : Declaration) : Prop :=
  ∃ front back, ds = front ++ d :: back ∧ ∀ e ∈ back, e.qualifiedName ≠ d.qualifiedName

/-- The place of the first declaration of a list with the given qualified name. -/
def firstOf (ds : List Declaration) (name : String) : Nat :=
  ds.findIdx (fun d => d.qualifiedName == name)

theorem LastOf.mem (h : LastOf ds d) : d ∈ ds := by
  obtain ⟨front, back, rfl, _⟩ := h
  simp

/-- A declaration of another name does not change which one is the last. -/
theorem LastOf.concat (h : LastOf ds d) (hne : e.qualifiedName ≠ d.qualifiedName) :
    LastOf (ds ++ [e]) d := by
  obtain ⟨front, back, rfl, hback⟩ := h
  refine ⟨front, back ++ [e], by simp, fun a ha => ?_⟩
  rcases List.mem_append.1 ha with ha | ha
  · exact hback a ha
  · rw [List.mem_singleton.1 ha]
    exact hne

theorem lastOf_concat_self (ds : List Declaration) (d : Declaration) : LastOf (ds ++ [d]) d :=
  ⟨ds, [], rfl, by simp⟩

theorem firstOf_lt_length (hd : d ∈ ds) : firstOf ds d.qualifiedName < ds.length :=
  List.findIdx_lt_length.2 ⟨d, hd, by simp⟩

theorem firstOf_concat_of_mem (hd : d ∈ ds) (e : Declaration) :
    firstOf (ds ++ [e]) d.qualifiedName = firstOf ds d.qualifiedName := by
  have hlt := firstOf_lt_length hd
  unfold firstOf at hlt ⊢
  rw [List.findIdx_append, if_pos hlt]

theorem firstOf_concat_of_new (hnew : ∀ e ∈ ds, e.qualifiedName ≠ d.qualifiedName) :
    firstOf (ds ++ [d]) d.qualifiedName = ds.length := by
  have hlength : firstOf ds d.qualifiedName = ds.length :=
    List.findIdx_eq_length.2 (fun e he => by simpa using hnew e he)
  unfold firstOf at hlength ⊢
  rw [List.findIdx_append, if_neg (by omega)]
  simp [List.findIdx_cons]

theorem ofList_concat (ds : List Declaration) (d : Declaration) :
    ofList (ds ++ [d]) = (ofList ds).insert d := by
  simp [ofList]

/-- After inserting `d`, every place holds `d` or what it held before, which has another name. -/
theorem eq_or_ne_of_getElem?_insert (ht : t.Distinct)
    (h : (t.insert d).entries[i]? = some e) :
    e = d ∨ t.entries[i]? = some e ∧ d.qualifiedName ≠ e.qualifiedName := by
  unfold insert at h
  cases hfind : t.findQualified? d.qualifiedName with
  | some k =>
    simp only [hfind] at h
    have hk : t.Qualified d.qualifiedName k := qualified_of_findQualified? hfind
    by_cases hik : k = i
    · subst hik
      rw [Array.getElem?_setIfInBounds_self_of_lt hk.lt_size] at h
      exact Or.inl (Option.some.inj h).symm
    · rw [Array.getElem?_setIfInBounds_ne hik] at h
      refine Or.inr ⟨h, fun hname => hik ?_⟩
      exact ht d.qualifiedName k i hk ⟨e, h, hname.symm⟩
  | none =>
    simp only [hfind] at h
    rw [Array.getElem?_push] at h
    split_ifs at h with hi
    · exact Or.inl (Option.some.inj h).symm
    · refine Or.inr ⟨h, fun hname => ?_⟩
      exact findQualified?_eq_none_iff.1 hfind i ⟨e, h, hname.symm⟩

/-- What the table of a list holds. -/
structure Merges (ds : List Declaration) (t : Table) : Prop where
  /-- Every qualified name of the list has a place. -/
  covers : ∀ d ∈ ds, ∃ i, t.Qualified d.qualifiedName i
  /-- Every place holds the last declaration of its name. -/
  last : ∀ (i : NodeId) d, t.entries[i]? = some d → LastOf ds d
  /-- The places are in the order of the first declarations of each name. -/
  ordered : ∀ (i j : NodeId) d e, t.entries[i]? = some d → t.entries[j]? = some e → i < j →
    firstOf ds d.qualifiedName < firstOf ds e.qualifiedName

theorem merges_nil : Merges [] {} where
  covers := by simp
  last := by simp
  ordered := by simp

/-- A name with a place is the name of a declaration of the list. -/
theorem Merges.exists_mem (h : Merges ds t) (hname : t.Qualified name i) :
    ∃ d ∈ ds, d.qualifiedName = name := by
  obtain ⟨d, hd, rfl⟩ := hname
  exact ⟨d, (h.last i d hd).mem, rfl⟩

/-- Inserting the next declaration of a list. -/
theorem Merges.insert (ht : t.Distinct) (h : Merges ds t) (d : Declaration) :
    Merges (ds ++ [d]) (t.insert d) where
  covers := by
    intro e he
    rcases List.mem_append.1 he with he | he
    · obtain ⟨i, hi⟩ := h.covers e he
      exact ⟨i, (qualified_insert_iff t d).2 (Or.inl hi)⟩
    · obtain rfl := List.mem_singleton.1 he
      by_cases hnew : ∀ j, ¬ t.Qualified e.qualifiedName j
      · exact ⟨t.size, (qualified_insert_iff t e).2 (Or.inr ⟨hnew, rfl, rfl⟩)⟩
      · push Not at hnew
        obtain ⟨j, hj⟩ := hnew
        exact ⟨j, (qualified_insert_iff t e).2 (Or.inl hj)⟩
  last := by
    intro i e he
    rcases eq_or_ne_of_getElem?_insert ht he with rfl | ⟨he, hne⟩
    · exact lastOf_concat_self ds e
    · exact (h.last i e he).concat hne
  ordered := by
    intro i j a b ha hb hij
    have hqa : (t.insert d).Qualified a.qualifiedName i := ⟨a, ha, rfl⟩
    have hqb : (t.insert d).Qualified b.qualifiedName j := ⟨b, hb, rfl⟩
    rw [qualified_insert_iff] at hqa hqb
    rcases hqa with ⟨a', ha', haname⟩ | ⟨_, _, rfl⟩
    · have hamem := (h.last i a' ha').mem
      rw [← haname, firstOf_concat_of_mem hamem d]
      rcases hqb with ⟨b', hb', hbname⟩ | ⟨hnew, hbname, _⟩
      · rw [← hbname, firstOf_concat_of_mem (h.last j b' hb').mem d]
        exact h.ordered i j a' b' ha' hb' hij
      · -- the new name comes after all the names of the list
        have hnew' : ∀ e ∈ ds, e.qualifiedName ≠ d.qualifiedName := by
          intro e he hname
          obtain ⟨k, hk⟩ := h.covers e he
          exact hnew k (hname ▸ hk)
        rw [← hbname, firstOf_concat_of_new hnew']
        exact firstOf_lt_length hamem
    · -- the last place comes before no other
      rcases hqb with hqb | ⟨_, _, rfl⟩
      · exact absurd hij (Nat.lt_asymm hqb.lt_size)
      · exact absurd hij (Nat.lt_irrefl _)

/-- The table of a list has each qualified name once, in the order of the first declarations and
with the last ones. -/
theorem merges_ofList (ds : List Declaration) : Merges ds (ofList ds) := by
  induction ds using List.reverseRecOn with
  | nil => exact merges_nil
  | append_singleton ds d ih =>
    rw [ofList_concat]
    exact ih.insert (distinct_ofList ds) d

end Table

/-! ### An index of the qualified names -/

/-- A table that is filled along with an index of its qualified names. -/
structure Catalogue where
  entries : Array Declaration := #[]
  index : Std.HashMap String NodeId := {}

namespace Catalogue

/-- A declaration whose name is in the index takes the place given there, and the index stays as it
is.  Another one goes to the end, and the index gets its place. -/
def insert (c : Catalogue) (d : Declaration) : Catalogue :=
  match c.index[d.qualifiedName]? with
  | some i => { c with entries := c.entries.setIfInBounds i d }
  | none => ⟨c.entries.push d, c.index.insert d.qualifiedName c.entries.size⟩

/-- The catalogue of a list of declarations. -/
def ofList (declarations : List Declaration) : Catalogue :=
  declarations.foldl insert {}

/-- A catalogue with the entries of a table and an index that finds what a search finds. -/
structure Agrees (c : Catalogue) (t : Table) : Prop where
  entries : c.entries = t.entries
  index : ∀ name, c.index[name]? = t.findQualified? name

variable {c : Catalogue} {t : Table}

theorem Agrees.insert (ht : t.Distinct) (h : c.Agrees t) (d : Declaration) :
    (c.insert d).Agrees (t.insert d) := by
  have hinsert := ht.insert d
  cases hfind : t.findQualified? d.qualifiedName with
  | some k =>
    have hc : c.insert d = { c with entries := c.entries.setIfInBounds k d } := by
      simp only [Catalogue.insert, h.index, hfind]
    have ht' : t.insert d = ⟨t.entries.setIfInBounds k d⟩ := by simp only [Table.insert, hfind]
    refine ⟨by rw [hc, ht', h.entries], fun name => ?_⟩
    -- the name at the place stays, so the old index is still right
    rw [hc]
    show c.index[name]? = _
    rw [h.index]
    ext i
    rw [Table.findQualified?_eq_some_iff ht, Table.findQualified?_eq_some_iff hinsert,
      Table.qualified_insert_iff]
    refine ⟨Or.inl, fun h => h.resolve_right fun hnew => ?_⟩
    exact hnew.1 k (Table.qualified_of_findQualified? hfind)
  | none =>
    have hc : c.insert d = ⟨c.entries.push d, c.index.insert d.qualifiedName c.entries.size⟩ := by
      simp only [Catalogue.insert, h.index, hfind]
    have ht' : t.insert d = ⟨t.entries.push d⟩ := by simp only [Table.insert, hfind]
    have hnew := Table.findQualified?_eq_none_iff.1 hfind
    refine ⟨by rw [hc, ht', h.entries], fun name => ?_⟩
    rw [hc]
    show (c.index.insert d.qualifiedName c.entries.size)[name]? = _
    ext i
    rw [Std.HashMap.getElem?_insert, Table.findQualified?_eq_some_iff hinsert,
      Table.qualified_insert_iff]
    split_ifs with hname
    · obtain rfl := beq_iff_eq.1 hname
      rw [h.entries, Option.some.injEq]
      exact ⟨fun hi => Or.inr ⟨hnew, rfl, hi.symm⟩,
        fun h => (h.resolve_left (hnew i)).2.2.symm⟩
    · rw [h.index, Table.findQualified?_eq_some_iff ht]
      refine ⟨Or.inl, fun h => h.resolve_right fun hlast => hname ?_⟩
      exact beq_iff_eq.2 hlast.2.1

/-- A catalogue is the table of its list, and its index finds what a search finds. -/
theorem ofList_agrees (ds : List Declaration) : (ofList ds).Agrees (Table.ofList ds) := by
  induction ds using List.reverseRecOn with
  | nil =>
    refine ⟨rfl, fun name => ?_⟩
    show (∅ : Std.HashMap String NodeId)[name]? = _
    rw [Std.HashMap.getElem?_empty]
    exact (Array.findIdx?_empty).symm
  | append_singleton ds d ih =>
    have hconcat : ofList (ds ++ [d]) = (ofList ds).insert d := by simp [ofList]
    rw [hconcat, Table.ofList_concat]
    exact ih.insert (Table.distinct_ofList ds) d

end Catalogue

/-! ### The classes of a forest -/

namespace Forest

variable {ds : List Declaration} {name : String} {i : NodeId}

/-- The classes of a forest are the entries of its table. -/
theorem map_declaration_build (ds : List Declaration) :
    (build ds).nodes.map (·.declaration) = (Table.ofList ds).entries := by
  rw [← Array.toList_inj, Array.toList_map]
  exact declarations_build ds

theorem getElem?_entries (ds : List Declaration) (i : NodeId) :
    (Table.ofList ds).entries[i]? = ((build ds).node? i).map (·.declaration) := by
  rw [← map_declaration_build, Array.getElem?_map]
  rfl

theorem getElem?_of_node? {n : Node} (h : (build ds).node? i = some n) :
    (Table.ofList ds).entries[i]? = some n.declaration := by
  rw [getElem?_entries, h, Option.map_some]

/-- A place of the table holds what the class at this place was built from. -/
theorem exists_entry_iff {p : Declaration → Prop} :
    (∃ d, (Table.ofList ds).entries[i]? = some d ∧ p d) ↔
      ∃ n, (build ds).node? i = some n ∧ p n.declaration := by
  simp only [getElem?_entries, Option.map_eq_some_iff]
  constructor
  · rintro ⟨d, ⟨n, hn, rfl⟩, hp⟩
    exact ⟨n, hn, hp⟩
  · rintro ⟨n, hn, hp⟩
    exact ⟨n.declaration, ⟨n, hn, rfl⟩, hp⟩

theorem qualified_iff : (Table.ofList ds).Qualified name i ↔
    ∃ n, (build ds).node? i = some n ∧ n.qualifiedName = name :=
  exists_entry_iff

theorem named_iff : (Table.ofList ds).Named name i ↔
    ∃ n, (build ds).node? i = some n ∧ n.name = name :=
  exists_entry_iff

theorem findQualified?_build (ds : List Declaration) (name : String) :
    (build ds).findQualified? name = (Table.ofList ds).findQualified? name := by
  unfold findQualified? Table.findQualified?
  rw [← map_declaration_build, Array.findIdx?_map]
  rfl

theorem findNamed?_build (ds : List Declaration) (name : String) :
    (build ds).findNamed? name = (Table.ofList ds).findNamed? name := by
  unfold findNamed? Table.findNamed?
  rw [← map_declaration_build, Array.findIdx?_map]
  rfl

/-- How the classes of a forest stand for a list of declarations, and how they are found. -/
structure Lists (ds : List Declaration) (f : Forest) : Prop where
  /-- The qualified names of the classes are those of the declarations. -/
  covers : ∀ name, (∃ i n, f.node? i = some n ∧ n.qualifiedName = name) ↔
    ∃ d ∈ ds, d.qualifiedName = name
  /-- No two classes have one qualified name. -/
  distinct : ∀ i j m n, f.node? i = some m → f.node? j = some n →
    m.qualifiedName = n.qualifiedName → i = j
  /-- The classes come in the order of the first declarations of their names. -/
  ordered : ∀ i j m n, f.node? i = some m → f.node? j = some n → i < j →
    Table.firstOf ds m.qualifiedName < Table.firstOf ds n.qualifiedName
  /-- Each class is the last declaration of its name. -/
  last : ∀ i n, f.node? i = some n → Table.LastOf ds n.declaration
  /-- A qualified name is found exactly where it stands. -/
  findQualified? : ∀ name i, f.findQualified? name = some i ↔
    ∃ n, f.node? i = some n ∧ n.qualifiedName = name
  /-- A simple name is found at the first place where it stands. -/
  findNamed? : ∀ name i, f.findNamed? name = some i ↔
    (∃ n, f.node? i = some n ∧ n.name = name) ∧
      ∀ j < i, ¬ ∃ n, f.node? j = some n ∧ n.name = name
  /-- A catalogue holds the same classes, and its index finds them. -/
  entries : (Catalogue.ofList ds).entries.toList = f.declarations
  index : ∀ name, (Catalogue.ofList ds).index[name]? = f.findQualified? name

/-- **Each qualified name has one class**, at the place of its first declaration and with its last
one, and the look-ups find the classes by their names. -/
theorem lists_build (ds : List Declaration) : Lists ds (build ds) := by
  have hmerges := Table.merges_ofList ds
  have hdistinct := Table.distinct_ofList ds
  have hcatalogue := Catalogue.ofList_agrees ds
  refine ⟨?_, ?_, ?_, ?_, ?_, ?_, ?_, ?_⟩
  · intro name
    simp only [← qualified_iff]
    constructor
    · rintro ⟨i, hi⟩
      exact hmerges.exists_mem hi
    · rintro ⟨d, hd, rfl⟩
      exact hmerges.covers d hd
  · intro i j m n hm hn hname
    exact hdistinct n.qualifiedName i j (qualified_iff.2 ⟨m, hm, hname⟩)
      (qualified_iff.2 ⟨n, hn, rfl⟩)
  · intro i j m n hm hn hij
    exact hmerges.ordered i j _ _ (getElem?_of_node? hm) (getElem?_of_node? hn) hij
  · intro i n hn
    exact hmerges.last i _ (getElem?_of_node? hn)
  · intro name i
    rw [findQualified?_build, Table.findQualified?_eq_some_iff hdistinct, qualified_iff]
  · intro name i
    rw [findNamed?_build, Table.findNamed?_eq_some_iff]
    simp only [Table.FirstNamed, named_iff]
  · rw [declarations_build, hcatalogue.entries]
  · intro name
    rw [findQualified?_build, hcatalogue.index]

-- a scope with a name and a name with a dot in it may be one qualified name
example : (build [
      { name := "B", scope := some "A", file := "a.cs" }, { name := "C", file := "a.cs" },
      { name := "A.B", file := "b.cs" }]).declarations.map (fun d => (d.name, d.file)) =
    [("A.B", "b.cs"), ("C", "a.cs")] := by
  decide +kernel

end Forest

end Lineage
