/-!
# Class declarations

A declaration is what the extractors find: the name of a class with the names it refers to, its
modifiers and two sizes.  The names it refers to are not resolved here.
-/

namespace Lineage

/-- One class-like declaration of a source file. -/
structure Declaration where
  name : String
  /-- The enclosing namespace or package. -/
  scope : Option String := none
  /-- The class it derives from, as it is written. -/
  base : Option String := none
  /-- The further names of its inheritance list, in order. -/
  interfaces : List String := []
  isAbstract : Bool := false
  isSealed : Bool := false
  isStatic : Bool := false
  methods : Nat := 0
  lines : Nat := 0
  file : String
  /-- The name of the class around it, if it is declared inside one. -/
  container : Option String := none
  deriving DecidableEq, Repr, Inhabited

/-- The kind of class that a declaration counts as. -/
inductive Modifier where
  | normal
  | abstract
  | sealed
  | static
  deriving DecidableEq, Repr, Inhabited

namespace Modifier

/-- Every modifier, in the order of reports. -/
def all : List Modifier :=
  [normal, abstract, sealed, static]

/-- The word for a modifier. -/
def label : Modifier → String
  | normal => "normal"
  | abstract => "abstract"
  | sealed => "sealed"
  | static => "static"

/-- The modifier with the given word. -/
def ofLabel? (text : String) : Option Modifier :=
  all.find? (fun modifier => modifier.label == text)

end Modifier

namespace Declaration

/-- The name behind its scope and a dot; an empty scope counts as none. -/
def qualifiedName (d : Declaration) : String :=
  match d.scope with
  | some scope => if scope.isEmpty then d.name else scope ++ "." ++ d.name
  | none => d.name

/-- Whether it is declared inside another class. -/
def isNested (d : Declaration) : Bool :=
  d.container.isSome

/-- The base class; an empty name counts as none. -/
def declaredBase (d : Declaration) : Option String :=
  d.base.filter (fun base => !base.isEmpty)

/-- The first of abstract, sealed and static that applies. -/
def modifier (d : Declaration) : Modifier :=
  if d.isAbstract then .abstract
  else if d.isSealed then .sealed
  else if d.isStatic then .static
  else .normal

/-- A word for each property that the declaration has. -/
def badges (d : Declaration) : List String :=
  (if d.isAbstract then ["abstract"] else []) ++
  (if d.isSealed then ["sealed"] else []) ++
  (if d.isStatic then ["static"] else []) ++
  (if d.isNested then ["nested"] else [])

end Declaration

end Lineage
