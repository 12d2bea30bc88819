import Lineage.Declaration
import Lineage.Source.Brace
import Lineage.Source.Grammar
import Lineage.Source.Method

/-!
# Classes between braces

Class headers are found by the pattern of a language.  The body of a class is the block that its
header opens, a class belongs to the last earlier class whose body is around it, and its scope
joins the namespaces around it.
-/

namespace Lineage.Source

/-- A named stretch of a text, from the character that opens it to the place after its end. -/
structure Stretch where
  name : String
  start : Nat
  stop : Nat
  deriving DecidableEq, Repr, Inhabited

namespace Stretch

/-- Whether a place lies strictly inside. -/
def surrounds (s : Stretch) (position : Nat) : Bool :=
  s.start < position && position < s.stop

end Stretch

/-- `text` with each pair of colons replaced by a dot. -/
def dotted : List Char → List Char
  | ':' :: ':' :: rest => '.' :: dotted rest
  | c :: rest => c :: dotted rest
  | [] => []

/-- The place after the block that opens at a place. -/
def blockEnd (text : List Char) (start : Nat) : Nat :=
  start + blockLength (text.drop start)

/-- The stretch that a match of a namespace pattern names, unless it lies in a comment. -/
def enclosure? (text : List Char) (found : Match) : Option Stretch := do
  let name ← found.get? .name
  let opening ← found.get? .opening
  if inComment (text.take found.start) then none
  else
    let stop := if opening.chars == ['{'] then blockEnd text opening.start else text.length
    some ⟨String.ofList (dotted name.chars), opening.start, stop⟩

/-- The namespaces of a text, in the order of their openings. -/
def enclosures (grammar : Grammar) (text : List Char) : List Stretch :=
  (grammar.enclosure.matchesIn text).filterMap (enclosure? text)

/-- The names of the namespaces around a place, from the outside in, joined by dots. -/
def scopeAt (namespaces : List Stretch) (position : Nat) : Option String :=
  match namespaces.filter (·.surrounds position) with
  | [] => none
  | around => some (".".intercalate (around.map (·.name)))

/-- The body that a header opens: a block, or nothing where a semicolon may stand for it.  Headers
of enumerations and headers in comments have none. -/
def body? (grammar : Grammar) (text : List Char) (found : Match) : Option Stretch := do
  let name ← found.get? .name
  let opening ← found.get? .opening
  if (found.get? .enumeration).isSome || inComment (text.take found.start) then none
  else if opening.chars == ['{'] then
    some ⟨name.text, opening.start, blockEnd text opening.start⟩
  else if grammar.allowsBodiless then some ⟨name.text, opening.start, opening.stop⟩
  else none

/-- The name of the class around a place: the last of the earlier classes whose body surrounds
it, if any brace is open there. -/
def containerAt (text : List Char) (earlier : List Stretch) (position : Nat) : Option String :=
  if 0 < balance (text.take position) then
    (earlier.find? (·.surrounds position)).map (·.name)
  else none

/-- The part of a text between two places. -/
def slice (text : List Char) (start stop : Nat) : List Char :=
  (text.drop start).take (stop - start)

/-- The class of a header with the given body; `earlier` holds the bodies of the classes before it,
the last one first. -/
def declare (grammar : Grammar) (file : String) (text : List Char) (namespaces : List Stretch)
    (earlier : List Stretch) (found : Match) (body : Stretch) : Declaration :=
  let inside := slice text body.start body.stop
  let heritage := grammar.heritage found
  let traits := grammar.traits found inside
  { name := body.name
    file
    scope := scopeAt namespaces found.start
    base := heritage.base
    interfaces := heritage.interfaces
    isAbstract := traits.isAbstract
    isSealed := traits.isSealed
    isStatic := traits.isStatic
    methods := countMethods inside grammar.method body.name
    lines := lineSpan (slice text found.start body.stop)
    container := containerAt text earlier found.start }

/-- Reads the classes of a list of header matches; `earlier` holds the bodies of the classes read
so far, the last one first. -/
def readHeaders (grammar : Grammar) (file : String) (text : List Char)
    (namespaces : List Stretch) (earlier : List Stretch) : List Match → List Declaration
  | [] => []
  | found :: rest =>
    match body? grammar text found with
    | none => readHeaders grammar file text namespaces earlier rest
    | some body =>
      declare grammar file text namespaces earlier found body ::
        readHeaders grammar file text namespaces (body :: earlier) rest

/-- The classes of a text in a language with braces. -/
def blockClasses (grammar : Grammar) (file : String) (text : List Char) : List Declaration :=
  readHeaders grammar file text (enclosures grammar text) [] (grammar.header.matchesIn text)

end Lineage.Source
