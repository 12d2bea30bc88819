import Lineage.CommandLine.Run
import Lineage.Proofs.Census
import Lineage.Proofs.Json

/-!
# Listings restore the forest

A listing holds all that a forest is built from.  The fields of a declaration that are left out of
its record are the ones that reading fills in again (`ofData_toData`), and the declarations of a
forest have pairwise different qualified names, so that building a forest from them merges nothing
and keeps their places (`build_declarations`).
-/

namespace Lineage

open Data

/-! ### Declarations as records -/

namespace Data

@[simp] theorem field?_append (left right : List (String × Data)) (name : String) :
    field? (left ++ right) name = (field? right name).or (field? left name) := by
  simp only [field?, List.reverse_append, List.find?_append, Option.map_or]

@[simp] theorem field?_cons (key name : String) (value : Data) (more : List (String × Data)) :
    field? ((key, value) :: more) name =
      (field? more name).or (if key == name then some value else none) := by
  rw [← List.singleton_append, field?_append]
  congr 1
  by_cases h : key = name <;> simp [field?, h]

@[simp] theorem field?_nil (name : String) : field? [] name = none := rfl

theorem decodeTexts_texts (texts : List String) :
    decodeTexts (.list (texts.map .text)) = .ok texts := by
  rw [decodeTexts, List.mapM_map]
  exact (List.mapM_pure (f := id)).trans (by rw [List.map_id]; rfl)

theorem decodeCount_integer {n : Nat} (h : n < 2 ^ 64) : decodeCount (.integer n) = .ok n := by
  simp [decodeCount]
  omega

section Fields

variable {α : Type} {fields : List (String × Data)} {name : String} {decode : Decoder α}

theorem fieldWith_some (data : Data) {value : α} (hfield : field? fields name = some data)
    (hdata : decode data = .ok value) : fieldWith fields name decode = .ok (some value) := by
  rw [fieldWith, hfield]
  simp only [hdata, Except.map]

theorem fieldWith_none (hfield : field? fields name = none) :
    fieldWith fields name decode = .ok none := by
  rw [fieldWith, hfield]

/-- A text that may be absent is read as the value it was written from. -/
theorem fieldWith_optional {value : Option String} (hfield : field? fields name = value.map .text) :
    fieldWith fields name (decodeOption decodeText) = .ok (value.map some) := by
  cases value with
  | none => exact fieldWith_none hfield
  | some value => exact fieldWith_some (.text value) hfield rfl

end Fields

end Data

namespace Declaration

variable {d : Declaration}

@[simp] theorem field?_optionalText (key name : String) (value : Option String) :
    field? (optionalText key value) name = if key == name then value.map .text else none := by
  cases value with
  | none => simp [optionalText]
  | some value => simp [optionalText]

/-- The list of interfaces, which is written unless it is empty. -/
def interfaceField (d : Declaration) : List (String × Data) :=
  if d.interfaces.isEmpty then [] else [("interfaces", .list (d.interfaces.map .text))]

@[simp] theorem field?_interfaceField (d : Declaration) (name : String) :
    field? d.interfaceField name = if "interfaces" = name ∧ d.interfaces ≠ [] then
      some (.list (d.interfaces.map .text)) else none := by
  cases h : d.interfaces with
  | nil => simp [interfaceField, h]
  | cons first more => simp [interfaceField, h]

/-- The fields of a declaration. -/
def fields (d : Declaration) : List (String × Data) :=
  [("name", .text d.name)] ++
  optionalText "namespace" d.scope ++
  optionalText "base_class" d.base ++
  d.interfaceField ++
  [("is_abstract", .bool d.isAbstract),
   ("is_sealed", .bool d.isSealed),
   ("is_static", .bool d.isStatic),
   ("method_count", .integer d.methods),
   ("line_count", .integer d.lines),
   ("file_path", .text d.file)] ++
  optionalText "parent_class_name" d.container

theorem toData_eq (d : Declaration) : d.toData = .record d.fields := rfl

theorem fieldWith_interfaces (d : Declaration) :
    fieldWith d.fields "interfaces" decodeTexts =
      .ok (if d.interfaces = [] then none else some d.interfaces) := by
  split
  · rename_i h
    exact fieldWith_none (by simp [fields, h])
  · rename_i h
    exact fieldWith_some _ (by simp [fields, h]) (decodeTexts_texts d.interfaces)

/-- A declaration whose counts have at most 64 bits. -/
def Fits (d : Declaration) : Prop :=
  d.methods < 2 ^ 64 ∧ d.lines < 2 ^ 64

/-- A record reads back as its declaration. -/
theorem ofData_toData (h : d.Fits) : ofData d.toData = .ok d := by
  have hname : fieldWith d.fields "name" decodeText = .ok (some d.name) :=
    fieldWith_some (.text d.name) (by simp [fields]) rfl
  have hscope : fieldWith d.fields "namespace" (decodeOption decodeText) =
      .ok (d.scope.map some) := fieldWith_optional (by simp [fields])
  have hbase : fieldWith d.fields "base_class" (decodeOption decodeText) =
      .ok (d.base.map some) := fieldWith_optional (by simp [fields])
  have hcontainer : fieldWith d.fields "parent_class_name" (decodeOption decodeText) =
      .ok (d.container.map some) := fieldWith_optional (by simp [fields])
  have habstract : fieldWith d.fields "is_abstract" decodeBool = .ok (some d.isAbstract) :=
    fieldWith_some (.bool d.isAbstract) (by simp [fields]) rfl
  have hsealed : fieldWith d.fields "is_sealed" decodeBool = .ok (some d.isSealed) :=
    fieldWith_some (.bool d.isSealed) (by simp [fields]) rfl
  have hstatic : fieldWith d.fields "is_static" decodeBool = .ok (some d.isStatic) :=
    fieldWith_some (.bool d.isStatic) (by simp [fields]) rfl
  have hmethods : fieldWith d.fields "method_count" decodeCount = .ok (some d.methods) :=
    fieldWith_some (.integer d.methods) (by simp [fields]) (decodeCount_integer h.1)
  have hlines : fieldWith d.fields "line_count" decodeCount = .ok (some d.lines) :=
    fieldWith_some (.integer d.lines) (by simp [fields]) (decodeCount_integer h.2)
  have hfile : fieldWith d.fields "file_path" decodePath = .ok (some d.file) :=
    fieldWith_some (.text d.file) (by simp [fields]) rfl
  rw [toData_eq, ofData, ofFields]
  simp only [hname, hscope, hbase, hcontainer, habstract, hsealed, hstatic, hmethods, hlines, hfile,
    fieldWith_interfaces]
  -- what is left out when it is empty comes back as its default
  obtain ⟨name, scope, base, interfaces, isAbstract, isSealed, isStatic, methods, lines, file,
    container⟩ := d
  cases scope <;> cases base <;> cases container <;> cases interfaces <;> rfl

/-- A listing reads back as its declarations. -/
theorem listOfData_map_toData {ds : List Declaration} (h : ∀ d ∈ ds, d.Fits) :
    listOfData (.list (ds.map toData)) = .ok ds := by
  rw [listOfData, List.mapM_map]
  induction ds with
  | nil => rfl
  | cons d ds ih =>
    have hd := ofData_toData (h d List.mem_cons_self)
    have hds := ih fun d hd => h d (List.mem_cons_of_mem _ hd)
    rw [List.mapM_cons, Function.comp_apply, hd, hds]
    rfl

theorem exact_optionalText (key : String) (value : Option String) :
    ∀ field ∈ optionalText key value, field.2.Exact := by
  cases value with
  | none => simp [optionalText]
  | some value => simpa [optionalText] using Exact.text value

theorem exact_interfaceField (d : Declaration) : ∀ field ∈ d.interfaceField, field.2.Exact := by
  unfold interfaceField
  split
  · simp
  · simp only [List.forall_mem_singleton]
    refine .list fun item hitem => ?_
    obtain ⟨text, _, rfl⟩ := List.mem_map.1 hitem
    exact .text text

/-- A declaration has a record that reads back from its text. -/
theorem exact_toData (h : d.Fits) : d.toData.Exact := by
  have hcount : ∀ n : Nat, n < 2 ^ 64 → (Data.integer n).Exact := fun n hn =>
    .integer (by omega) (by omega)
  have hmethods := hcount _ h.1
  have hlines := hcount _ h.2
  rw [toData_eq]
  refine .record ?_
  simp only [fields, List.forall_mem_append, List.forall_mem_cons]
  have hnone : ∀ field ∈ ([] : List (String × Data)), field.2.Exact := by simp
  exact ⟨⟨⟨⟨⟨⟨.text _, hnone⟩, exact_optionalText _ _⟩, exact_optionalText _ _⟩,
    exact_interfaceField d⟩, .bool _, .bool _, .bool _, hmethods, hlines, .text _, hnone⟩,
    exact_optionalText _ _⟩

/-- A listing is read as the list of the records of its declarations. -/
theorem ofJson?_listing {ds : List Declaration} (h : ∀ d ∈ ds, d.Fits) :
    ofJson? (listing ds ++ "\n") = some (.list (ds.map toData)) := by
  refine ofJson?_pretty (.list fun item hitem => ?_)
  obtain ⟨d, hd, rfl⟩ := List.mem_map.1 hitem
  exact exact_toData (h d hd)

end Declaration

/-! ### The forest of its own declarations -/

namespace Table

theorem Distinct.nodup {t : Table} (h : t.Distinct) :
    (t.entries.toList.map Declaration.qualifiedName).Nodup := by
  rw [List.Nodup, List.pairwise_iff_getElem]
  intro i j hi hj hlt heq
  rw [List.length_map, Array.length_toList] at hi hj
  rw [List.getElem_map, List.getElem_map, Array.getElem_toList, Array.getElem_toList] at heq
  have hij : i = j := h _ i j ⟨t.entries[i], Array.getElem?_eq_getElem hi, heq⟩
    ⟨t.entries[j], Array.getElem?_eq_getElem hj, rfl⟩
  omega

/-- A table is the table of its own entries. -/
theorem ofList_entries (ds : List Declaration) :
    ofList (ofList ds).entries.toList = ofList ds := by
  have hentries := entries_ofList_of_nodup (distinct_ofList ds).nodup
  rw [Array.toArray_toList] at hentries
  exact congrArg Table.mk hentries

theorem mem_insert {t : Table} {d e : Declaration} (h : e ∈ (t.insert d).entries) :
    e ∈ t.entries ∨ e = d := by
  unfold insert at h
  split at h
  · exact Array.mem_or_eq_of_mem_setIfInBounds h
  · simpa using h

theorem mem_of_mem_entries {ds : List Declaration} {e : Declaration}
    (h : e ∈ (ofList ds).entries) : e ∈ ds := by
  -- over tables that hold something already
  suffices hfold : ∀ t : Table, e ∈ (ds.foldl insert t).entries → e ∈ t.entries ∨ e ∈ ds by
    rcases hfold {} h with hempty | hds
    · simp at hempty
    · exact hds
  clear h
  induction ds with
  | nil => exact fun t h => .inl h
  | cons d ds ih =>
    intro t h
    rcases ih (t.insert d) h with hinsert | hds
    · rcases mem_insert hinsert with ht | rfl
      · exact .inl ht
      · exact .inr List.mem_cons_self
    · exact .inr (List.mem_cons_of_mem d hds)

end Table

namespace Forest

/-- A forest is the forest of its own declarations. -/
theorem build_declarations (ds : List Declaration) :
    build (build ds).declarations = build ds := by
  rw [declarations_build]
  simp only [build, Table.ofList_entries]

end Forest

namespace Census

open Forest in
theorem total_ofForest (ds : List Declaration) :
    (ofForest (build ds)).total = (build ds).declarations.length := by
  have hseen := Outline.nodes_lines_perm ds
  have htally : Tally (build ds) ((Outline.lines (build ds)).map (·.node))
      (ofForest (build ds)) := by
    rw [ofForest_eq_foldl]
    exact tally_foldl fun i hi => List.mem_range.1 (hseen.mem_iff.1 hi)
  rw [htally.total, hseen.length_eq, List.length_range]
  simp [declarations, Forest.size]

end Census

namespace CommandLine.Findings

variable (f : Findings)

/-- The report on a forest names the number of its classes right after the outline. -/
theorem outlineText_eq : ∃ rest, f.outlineText =
    String.join ((Outline.lines f.forest).map (·.plain ++ "\n")) ++ "\n" ++ "Classes: " ++
      toString f.forest.declarations.length ++ " (" ++ rest := by
  have htotal := Census.total_ofForest f.report.declarations
  have hsummary : ∃ nested more, (Census.ofForest f.forest).summary f.forest =
      ("Classes: " ++ toString f.forest.declarations.length ++ " (" ++ nested) :: more := by
    rw [forest, ← htotal]
    exact ⟨_, _, congrArg₂ List.cons String.append_assoc rfl⟩
  obtain ⟨nested, more, hsummary⟩ := hsummary
  refine ⟨nested ++ "\n" ++ String.join (more.map (· ++ "\n")), ?_⟩
  rw [outlineText, Census.report, hsummary]
  simp only [List.map_append, List.map_cons, List.map_map, Function.comp_def, String.join_append,
    String.join_cons, String.empty_append, String.append_assoc]

/-- **A listing restores the forest.**  It reads back as the declarations of the forest, whose
number is the total of the report, and these build the same forest again. -/
theorem listing_restores (h : ∀ d ∈ f.report.declarations, d.Fits) :
    ∃ value decoded, ofJson? f.listingText = some value ∧
      Declaration.listOfData value = .ok decoded ∧
      decoded = f.forest.declarations ∧
      (∃ rest, f.outlineText = String.join ((Outline.lines f.forest).map (·.plain ++ "\n")) ++
        "\n" ++ "Classes: " ++ toString decoded.length ++ " (" ++ rest) ∧
      Forest.build decoded = f.forest := by
  have hfits : ∀ d ∈ f.forest.declarations, d.Fits := by
    intro d hd
    rw [forest, Forest.declarations_build] at hd
    exact h d (Table.mem_of_mem_entries (Array.mem_toList_iff.1 hd))
  exact ⟨_, _, Declaration.ofJson?_listing hfits, Declaration.listOfData_map_toData hfits, rfl,
    f.outlineText_eq, Forest.build_declarations f.report.declarations⟩

/-- Two classes that derive from each other, one of them declared twice: the second time with an
empty base and the greatest counts. -/
def loopWithDuplicate : Findings where
  root := "/src"
  language := .java
  view := {}
  report :=
    { declarations :=
        [{ name := "A", base := some "B", file := "/src/A.java", methods := 1, lines := 3 },
         { name := "B", base := some "A", interfaces := ["I", ""], isStatic := true,
           file := "/src/\"B\"\n.java" },
         { name := "A", scope := some "", base := some "", container := some "B",
           isSealed := true, methods := 2 ^ 64 - 1, lines := 2 ^ 64 - 1, file := "" }] }

theorem listing_restores_loopWithDuplicate :
    (∀ d ∈ loopWithDuplicate.report.declarations, d.Fits) ∧
    ∃ value decoded, ofJson? loopWithDuplicate.listingText = some value ∧
      Declaration.listOfData value = .ok decoded ∧
      decoded = loopWithDuplicate.forest.declarations ∧
      (∃ rest, loopWithDuplicate.outlineText =
        String.join ((Outline.lines loopWithDuplicate.forest).map (·.plain ++ "\n")) ++
          "\n" ++ "Classes: " ++ toString decoded.length ++ " (" ++ rest) ∧
      Forest.build decoded = loopWithDuplicate.forest := by
  have hfits : ∀ d ∈ loopWithDuplicate.report.declarations, d.Fits := by
    simp [loopWithDuplicate, Declaration.Fits]
  exact ⟨hfits, listing_restores loopWithDuplicate hfits⟩

end CommandLine.Findings

end Lineage
