import Lineage.Pattern.Match

/-!
# Methods

Methods are counted by the matches of a pattern for their signatures, apart from statements that
look like one.
-/

namespace Lineage.Source

/-- Words that introduce a statement where a signature would have a name or a result type. -/
def statementWords : List String :=
  ["if", "else", "for", "foreach", "while", "do", "switch", "case", "catch", "return", "using",
   "lock", "sizeof", "typeof", "nameof", "new", "await", "throw", "yield", "goto", "fixed",
   "when", "class", "struct", "record", "interface", "enum", "delete", "synchronized"]

/-- Whether a match is the signature of a method of class `className`.  If the pattern asks for a
result type, one without it has to be a constructor or a destructor. -/
def isMethod (signature : Pattern) (className : String) (found : Match) : Bool :=
  match found.get? .name with
  | none => false
  | some name =>
    if statementWords.contains name.text then false
    else match found.get? .result with
      | some result => !statementWords.contains result.text
      | none =>
        !signature.remembers .result ||
          name.text == className ||
          String.ofList (name.chars.dropWhile (· == '~')) == className

/-- The number of methods in the body of a class. -/
def countMethods (body : List Char) (signature : Pattern) (className : String) : Nat :=
  (signature.matchesIn body).countP (isMethod signature className)

end Lineage.Source
