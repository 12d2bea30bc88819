import Lineage.Language
import Lineage.Pattern.Match
import Lineage.Source.Heritage

/-!
# The shape of declarations between braces

For each language with braces, the patterns of its class headers, its method signatures and its
namespaces, and how the words of a header are understood.
-/

namespace Lineage.Source

open Pattern

/-- The modifiers that are read from the header and the body of a class. -/
structure Traits where
  isAbstract : Bool := false
  isSealed : Bool := false
  isStatic : Bool := false
  deriving DecidableEq, Repr, Inhabited

/-- How a language with braces writes its classes. -/
structure Grammar where
  /-- A class header up to the brace that opens its body, or a semicolon. -/
  header : Pattern
  /-- A method signature. -/
  method : Pattern
  /-- A namespace up to the brace that opens it, or a semicolon if it holds for the whole file. -/
  enclosure : Pattern
  /-- Whether a header that ends in a semicolon declares a class. -/
  allowsBodiless : Bool
  /-- What a class inherits. -/
  heritage : Match → Heritage
  /-- The modifiers of a class, from its header and its body. -/
  traits : Match → List Char → Traits

namespace Grammar

/-- A text between word edges in front, followed by blanks: any number of the given words. -/
def wordsBefore (texts : List String) : Pattern :=
  many (sequence [wordEdge, oneOf texts, blanks1])

/-- Any number of the given words, each followed by blanks. -/
def wordsThen (texts : List String) : Pattern :=
  many (seq (oneOf texts) blanks1)

/-- A character that does not end a class header. -/
def inHeader : Char → Bool :=
  noneOf "\x7b;"

/-- The place where a signature may start: a line, a brace or a semicolon, and then spaces. -/
def statementStart : Pattern :=
  seq (alt lineStart (one (anyOf "\x7b;\x7d"))) tabs

/-- Type parameters after a class name, which reach to some closing bracket. -/
def typeParameters : Pattern :=
  optional (sequence [blanks, literal "<", run inHeader false, literal ">"])

/-- Parameters after a class name. -/
def parameters : Pattern :=
  optional (sequence [blanks, literal "(", run (noneOf ")") true, literal ")"])

/-- The words of the modifiers of a header. -/
def modifierWords (found : Match) : List String :=
  match found.get? .modifiers with
  | none => []
  | some capture => (Text.words capture.chars).map String.ofList

/-- The inheritance list of a header that has one list for all. -/
def listedHeritage (language : Language) (skipped : List String) (found : Match) : Heritage :=
  let names := match found.get? .bases with
    | none => []
    | some capture => splitHeritage capture.chars skipped
  assignBases names language.marksInterfaces

/-! ### C# -/

/-- A class, struct or record header. -/
def csharpHeader : Pattern :=
  sequence [
    marked .modifiers (wordsBefore ["public", "private", "protected", "internal", "abstract",
      "sealed", "static", "partial", "unsafe", "new", "readonly", "ref", "file"]),
    wordEdge,
    choice [
      sequence [literal "record", blanks1, oneOf ["class", "struct"]],
      literal "class", literal "struct", literal "record"],
    blanks1,
    marked .name identifier,
    typeParameters,
    parameters,
    optional (sequence [blanks, literal ":", blanks, marked .bases (few1 inHeader)]),
    blanks,
    optional (sequence [wordEdge, literal "where", wordEdge, run inHeader true]),
    marked .opening (one (anyOf "\x7b;"))]

/-- A method with a result type. -/
def csharpMethod : Pattern :=
  sequence [
    statementStart,
    wordsThen ["public", "private", "protected", "internal", "static", "virtual", "override",
      "abstract", "sealed", "async", "extern", "unsafe", "new", "partial", "readonly"],
    marked .result (some1 (fun c => Text.isWord c || anyOf "<>[],.?" c)),
    blanks1,
    marked .name identifier,
    blanks,
    optional (sequence [literal "<", run (noneOf ">(") true, literal ">"]),
    blanks,
    literal "("]

/-- A namespace for a block or for the rest of the file. -/
def csharpNamespace : Pattern :=
  sequence [
    lineStart, tabs, literal "namespace", blanks1,
    marked .name (some1 (fun c => Text.isWord c || c == '.')),
    blanks,
    marked .opening (one (anyOf "\x7b;"))]

/-- The grammar of C#: records may lack a body. -/
def csharp : Grammar where
  header := csharpHeader
  method := csharpMethod
  enclosure := csharpNamespace
  allowsBodiless := true
  heritage := listedHeritage .csharp []
  traits := fun found _ =>
    let words := modifierWords found
    { isAbstract := words.contains "abstract"
      isSealed := words.contains "sealed"
      isStatic := words.contains "static" }

/-! ### Java -/

/-- A class or record header. -/
def javaHeader : Pattern :=
  sequence [
    marked .modifiers (wordsBefore ["public", "private", "protected", "abstract", "final",
      "static", "sealed", "non-sealed", "strictfp"]),
    wordEdge,
    oneOf ["class", "record"],
    blanks1,
    marked .name identifier,
    typeParameters,
    parameters,
    optional (sequence [blanks1, literal "extends", blanks1,
      marked .superclass (few1 inHeader)]),
    optional (sequence [blanks1, literal "implements", blanks1,
      marked .interfaces (few1 inHeader)]),
    optional (sequence [blanks1, literal "permits", blanks1, few1 inHeader]),
    blanks,
    marked .opening (one (· == '{'))]

/-- A method with a result type. -/
def javaMethod : Pattern :=
  sequence [
    statementStart,
    wordsThen ["public", "private", "protected", "static", "final", "abstract", "synchronized",
      "native", "default", "strictfp"],
    optional (sequence [literal "<", run (noneOf ">(") true, literal ">", blanks1]),
    marked .result (some1 (fun c => Text.isWord c || anyOf "<>[],.?" c)),
    blanks1,
    marked .name identifier,
    blanks,
    literal "("]

/-- A package, which holds for the rest of the file. -/
def javaPackage : Pattern :=
  sequence [
    lineStart, tabs, literal "package", blanks1,
    marked .name (some1 (fun c => Text.isWord c || c == '.')),
    blanks,
    marked .opening (one (· == ';'))]

/-- A superclass and interfaces are written apart. -/
def javaHeritage (found : Match) : Heritage where
  base := (found.get? .superclass).bind (fun c => (splitHeritage c.chars []).head?)
  interfaces := match found.get? .interfaces with
    | none => []
    | some capture => splitHeritage capture.chars []

/-- The grammar of Java. -/
def java : Grammar where
  header := javaHeader
  method := javaMethod
  enclosure := javaPackage
  allowsBodiless := false
  heritage := javaHeritage
  traits := fun found _ =>
    let words := modifierWords found
    { isAbstract := words.contains "abstract"
      isSealed := words.contains "final" || words.contains "sealed"
      isStatic := words.contains "static" }

/-! ### C++ -/

/-- A class or struct header, perhaps of an enumeration, with room for an attribute before the
name. -/
def cppHeader : Pattern :=
  sequence [
    optional (marked .enumeration (sequence [wordEdge, literal "enum", blanks1])),
    wordEdge,
    oneOf ["class", "struct"],
    blanks1,
    optional (seq
      (choice [
        sequence [literal "alignas", blanks, literal "(", run (noneOf ")") true, literal ")"],
        sequence [literal "[[", run (noneOf "]") true, literal "]]"],
        seq (one (fun c => 'A' ≤ c && c ≤ 'Z')) (seq
          (run (fun c => ('A' ≤ c && c ≤ 'Z') || c.isDigit || c == '_') true)
          (literal "_API"))])
      blanks1),
    marked .name identifier,
    optional (marked .final (seq blanks1 (literal "final"))),
    blanks,
    optional (sequence [literal ":", blanks, marked .bases (few1 inHeader)]),
    blanks,
    marked .opening (one (anyOf "\x7b;"))]

/-- A method with its parameters and what may follow them up to its body or end. -/
def cppMethod : Pattern :=
  let trailing (word : String) := optional (sequence [literal word, wordEdge, blanks])
  sequence [
    statementStart,
    wordsThen ["virtual", "static", "inline", "explicit", "constexpr", "friend"],
    optional (seq
      (marked .result (seq
        (some1 (fun c => Text.isWord c || anyOf ":<>,*&[]" c))
        (run (anyOf "*&") true)))
      blanks1),
    marked .name (seq (optional (literal "~")) identifier),
    blanks,
    literal "(", run (noneOf ";\x7b\x7d") true, literal ")",
    blanks,
    trailing "const",
    trailing "noexcept",
    trailing "override",
    trailing "final",
    optional (sequence [literal "=", blanks, oneOf ["0", "default", "delete"], blanks]),
    alt (one (anyOf "\x7b;:")) (literal "->")]

/-- A namespace block. -/
def cppNamespace : Pattern :=
  sequence [
    wordEdge, literal "namespace", blanks1,
    marked .name (seq (one Text.isNameStart) (run (fun c => Text.isWord c || c == ':') true)),
    blanks,
    marked .opening (one (· == '{'))]

/-- A method that is declared without a body of its own. -/
def cppPureVirtual : Pattern :=
  sequence [literal ")", blanks, optional (seq (literal "const") blanks), literal "=", blanks,
    literal "0", blanks, literal ";"]

/-- The grammar of C++: a class is abstract if its body has a pure virtual method. -/
def cpp : Grammar where
  header := cppHeader
  method := cppMethod
  enclosure := cppNamespace
  allowsBodiless := false
  heritage := listedHeritage .cpp ["public", "protected", "private", "virtual"]
  traits := fun found body =>
    { isAbstract := cppPureVirtual.occursIn body
      isSealed := (found.get? .final).isSome }

end Grammar

end Lineage.Source
