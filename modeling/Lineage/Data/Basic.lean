import Lineage.Number.Binary

/-!
# Structured data

The values that configuration files and listings are made of: scalars, lists and records with
named fields.
-/

namespace Lineage

/-- A value of structured data. -/
inductive Data where
  | null
  | bool (value : Bool)
  | integer (value : Int)
  | real (value : Number.Signed)
  | text (value : String)
  | list (items : List Data)
  | record (fields : List (String × Data))
  deriving Repr, Inhabited

namespace Data

/-- The field of a record with the given name; the last of several. -/
def field? (fields : List (String × Data)) (name : String) : Option Data :=
  (fields.reverse.find? (fun field => field.1 == name)).map (·.2)

end Data

end Lineage
