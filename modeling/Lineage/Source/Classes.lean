import Lineage.Source.Block
import Lineage.Source.Layout

/-!
# The classes of a source text
-/

namespace Lineage.Source

/-- The grammar of a language with braces. -/
def grammar? : Language → Option Grammar
  | .csharp => some Grammar.csharp
  | .java => some Grammar.java
  | .cpp => some Grammar.cpp
  | .python => none

/-- The classes that a text declares, in the order of their headers; `file` is the path they are
recorded with. -/
def classes (language : Language) (file : String) (text : String) : List Declaration :=
  match grammar? language with
  | some grammar => blockClasses grammar file text.toList
  | none => layoutClasses file text.toList

end Lineage.Source
