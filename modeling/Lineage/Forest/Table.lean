import Lineage.Declaration

/-!
# The table of declarations

Before classes are linked, declarations with one qualified name are merged: the last of them
stands at the place of the first.  The table also says which class a written name refers to.
-/

namespace Lineage

/-- The position of a class in the table. -/
abbrev NodeId := Nat

/-- Declarations with pairwise different qualified names. -/
structure Table where
  entries : Array Declaration := #[]
  deriving DecidableEq, Repr, Inhabited

namespace Table

/-- The number of classes. -/
def size (t : Table) : Nat :=
  t.entries.size

/-- The class with the given qualified name. -/
def findQualified? (t : Table) (name : String) : Option NodeId :=
  t.entries.findIdx? (fun d => d.qualifiedName == name)

/-- The first class with the given simple name. -/
def findNamed? (t : Table) (name : String) : Option NodeId :=
  t.entries.findIdx? (fun d => d.name == name)

/-- Puts a declaration in the place of the one with its qualified name, or at the end if there is
none. -/
def insert (t : Table) (d : Declaration) : Table :=
  match t.findQualified? d.qualifiedName with
  | some i => ⟨t.entries.setIfInBounds i d⟩
  | none => ⟨t.entries.push d⟩

/-- The table of a list of declarations. -/
def ofList (declarations : List Declaration) : Table :=
  declarations.foldl insert {}

/-- The class around class `i`: the first other class with the name that `i` gives. -/
def containerOf (t : Table) (i : NodeId) : Option NodeId := do
  let d ← t.entries[i]?
  let name ← d.container
  (List.range t.size).find? (fun j =>
    j != i && (t.entries[j]?.map (·.name)) == some name)

/-- The class that class `i` names as its base: the one with that qualified name, else the one of
that name in the scope of `i`, else the first one with that simple name. -/
def baseOf (t : Table) (i : NodeId) : Option NodeId := do
  let d ← t.entries[i]?
  let base ← d.declaredBase
  (t.findQualified? base).or
    ((d.scope.bind (fun scope => t.findQualified? (scope ++ "." ++ base))).or
      (t.findNamed? base))

end Table

end Lineage
