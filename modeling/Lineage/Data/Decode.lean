import Lineage.Data.Basic
import Lineage.Text.Quoted

/-!
# Decoding structured data

Readers that turn a value into a typed one, and the reasons for which they fail.  A record type
may also be given as the list of its fields.
-/

namespace Lineage

/-- Why a value does not decode. -/
inductive DecodeError where
  /-- A value of another type stands where the type was expected. -/
  | wrongType (found expected : String)
  /-- The value has the right type, but not for what was expected. -/
  | wrongValue (found expected : String)
  /-- A list ends before a field that has no default, or goes on after the last one. -/
  | wrongLength (length : Nat) (expected : String)
  | missingField (name : String)
  | unknownVariant (found : String) (known : List String)
  deriving DecidableEq, Repr, Inhabited

namespace DecodeError

/-- A name between backticks. -/
def ticked (name : String) : String :=
  "`" ++ name ++ "`"

/-- The reason in words. -/
def message : DecodeError → String
  | wrongType found expected => "invalid type: " ++ found ++ ", expected " ++ expected
  | wrongValue found expected => "invalid value: " ++ found ++ ", expected " ++ expected
  | wrongLength length expected =>
    "invalid length " ++ toString length ++ ", expected " ++ expected
  | missingField name => "missing field " ++ ticked name
  | unknownVariant found known =>
    "unknown variant " ++ ticked found ++ ", expected one of " ++
      ", ".intercalate (known.map ticked)

end DecodeError

namespace Data

/-- A value as error messages show it. -/
def describe : Data → String
  | .null => "null"
  | .bool value => "boolean " ++ DecodeError.ticked (if value then "true" else "false")
  | .integer value => "integer " ++ DecodeError.ticked (toString value)
  | .real value => "floating point " ++ DecodeError.ticked value.toText
  | .text value => "string " ++ Text.quoted value
  | .list _ => "sequence"
  | .record _ => "map"

/-- A reader of one type. -/
abbrev Decoder (α : Type) := Data → Except DecodeError α

/-- Reads a text; `expected` is what the reader calls it. -/
def decodeTextAs (expected : String) : Decoder String
  | .text value => .ok value
  | value => .error (.wrongType value.describe expected)

/-- Reads a text. -/
def decodeText : Decoder String :=
  decodeTextAs "a string"

/-- Reads the text of a path. -/
def decodePath : Decoder String :=
  decodeTextAs "path string"

/-- Reads a truth value. -/
def decodeBool : Decoder Bool
  | .bool value => .ok value
  | value => .error (.wrongType value.describe "a boolean")

/-- Reads a count of at most 64 bits. -/
def decodeCount : Decoder Nat
  | .integer value =>
    if 0 ≤ value && value < Nat.pow 2 64 then .ok value.toNat
    else .error (.wrongValue (describe (.integer value)) "usize")
  | value => .error (.wrongType value.describe "usize")

/-- Reads null as none. -/
def decodeOption {α : Type} (decode : Decoder α) : Decoder (Option α)
  | .null => .ok none
  | value => (decode value).map some

/-- Reads a list of texts. -/
def decodeTexts : Decoder (List String)
  | .list items => items.mapM decodeText
  | value => .error (.wrongType value.describe "a sequence")

/-- Reads a field if the record has it. -/
def fieldWith {α : Type} (fields : List (String × Data)) (name : String) (decode : Decoder α) :
    Except DecodeError (Option α) :=
  match field? fields name with
  | none => .ok none
  | some value => (decode value).map some

/-- Reads an item of a list if the list is long enough. -/
def itemWith {α : Type} (items : List Data) (index : Nat) (decode : Decoder α) :
    Except DecodeError (Option α) :=
  match items[index]? with
  | none => .ok none
  | some value => (decode value).map some

end Data

end Lineage
