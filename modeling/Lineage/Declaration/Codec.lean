import Lineage.Declaration
import Lineage.Data.Decode
import Lineage.Data.Json

/-!
# Declarations as structured data

A declaration is written as a record.  Names that are absent and an empty list of interfaces are
left out; flags and counts are always written.  A record is read back whatever the order of its
fields, and a list of field values is read too.
-/

namespace Lineage.Declaration

open Data

/-- A field that is written only if it has a value. -/
def optionalText (name : String) : Option String → List (String × Data)
  | none => []
  | some value => [(name, .text value)]

/-- A declaration as a record. -/
def toData (d : Declaration) : Data :=
  .record <|
    [("name", .text d.name)] ++
    optionalText "namespace" d.scope ++
    optionalText "base_class" d.base ++
    (if d.interfaces.isEmpty then []
      else [("interfaces", .list (d.interfaces.map .text))]) ++
    [("is_abstract", .bool d.isAbstract),
     ("is_sealed", .bool d.isSealed),
     ("is_static", .bool d.isStatic),
     ("method_count", .integer d.methods),
     ("line_count", .integer d.lines),
     ("file_path", .text d.file)] ++
    optionalText "parent_class_name" d.container

/-- What a reader expects of a declaration. -/
def expectation : String := "struct ClassEntity"

/-- The field's value, or the complaint that a record lacks it. -/
def present {α : Type} (name : String) : Option α → Except DecodeError α
  | some value => .ok value
  | none => .error (.missingField name)

/-- Reads a declaration from the fields of a record.  The fields are read in the order of their
names, and missing ones are noticed after that. -/
def ofFields (fields : List (String × Data)) : Except DecodeError Declaration := do
  let base ← fieldWith fields "base_class" (decodeOption decodeText)
  let file ← fieldWith fields "file_path" decodePath
  let interfaces ← fieldWith fields "interfaces" decodeTexts
  let isAbstract ← fieldWith fields "is_abstract" decodeBool
  let isSealed ← fieldWith fields "is_sealed" decodeBool
  let isStatic ← fieldWith fields "is_static" decodeBool
  let lines ← fieldWith fields "line_count" decodeCount
  let methods ← fieldWith fields "method_count" decodeCount
  let name ← fieldWith fields "name" decodeText
  let scope ← fieldWith fields "namespace" (decodeOption decodeText)
  let container ← fieldWith fields "parent_class_name" (decodeOption decodeText)
  let name ← present "name" name
  let methods ← present "method_count" methods
  let lines ← present "line_count" lines
  let file ← present "file_path" file
  return {
    name, file, methods, lines
    scope := scope.join
    base := base.join
    interfaces := interfaces.getD []
    isAbstract := isAbstract.getD false
    isSealed := isSealed.getD false
    isStatic := isStatic.getD false
    container := container.join }

/-- The item's value, or the complaint that a list ends before it. -/
def reached {α : Type} (index : Nat) : Option α → Except DecodeError α
  | some value => .ok value
  | none => .error (.wrongLength index (expectation ++ " with 11 elements"))

/-- Reads a declaration from the list of its field values. -/
def ofItems (items : List Data) : Except DecodeError Declaration := do
  let name ← itemWith items 0 decodeText
  let name ← reached 0 name
  let scope ← itemWith items 1 (decodeOption decodeText)
  let base ← itemWith items 2 (decodeOption decodeText)
  let interfaces ← itemWith items 3 decodeTexts
  let isAbstract ← itemWith items 4 decodeBool
  let isSealed ← itemWith items 5 decodeBool
  let isStatic ← itemWith items 6 decodeBool
  let methods ← itemWith items 7 decodeCount
  let methods ← reached 7 methods
  let lines ← itemWith items 8 decodeCount
  let lines ← reached 8 lines
  let file ← itemWith items 9 decodePath
  let file ← reached 9 file
  let container ← itemWith items 10 (decodeOption decodeText)
  if 11 < items.length then
    throw (.wrongLength items.length "fewer elements in array")
  return {
    name, file, methods, lines
    scope := scope.join
    base := base.join
    interfaces := interfaces.getD []
    isAbstract := isAbstract.getD false
    isSealed := isSealed.getD false
    isStatic := isStatic.getD false
    container := container.join }

/-- Reads a declaration. -/
def ofData : Data → Except DecodeError Declaration
  | .record fields => ofFields fields
  | .list items => ofItems items
  | value => .error (.wrongType value.describe expectation)

/-- Reads a list of declarations. -/
def listOfData : Data → Except DecodeError (List Declaration)
  | .list items => items.mapM ofData
  | value => .error (.wrongType value.describe "a sequence")

/-- A listing of declarations as JSON text. -/
def listing (declarations : List Declaration) : String :=
  (Data.list (declarations.map toData)).pretty

end Lineage.Declaration
