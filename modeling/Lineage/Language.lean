import Lineage.Text.Blank

/-!
# The languages whose classes are read

Each language has a short name, a display name, the file extensions that belong to it and the
folders in which its tools leave their output.
-/

namespace Lineage

/-- A language whose class declarations can be extracted. -/
inductive Language where
  | csharp
  | java
  | cpp
  | python
  deriving DecidableEq, Repr, Inhabited

namespace Language

/-- Every language, in the order in which ties between them are settled. -/
def all : List Language :=
  [csharp, java, cpp, python]

/-- The position of a language in `all`. -/
def index : Language → Nat
  | csharp => 0
  | java => 1
  | cpp => 2
  | python => 3

/-- The short name, in small letters. -/
def name : Language → String
  | csharp => "csharp"
  | java => "java"
  | cpp => "cpp"
  | python => "python"

/-- The name shown to a reader. -/
def displayName : Language → String
  | csharp => "C#"
  | java => "Java"
  | cpp => "C++"
  | python => "Python"

/-- The names by which a language can be asked for. -/
def aliases : Language → List String
  | csharp => ["csharp", "cs", "c#"]
  | java => ["java"]
  | cpp => ["cpp", "c++", "cxx", "cc"]
  | python => ["python", "py"]

/-- The language with the given name or alias.  Blanks around it and the case of ASCII letters do
not matter. -/
def ofName? (text : String) : Option Language :=
  let wanted := Text.asciiLower (Text.trimString text)
  all.find? (fun language => language.aliases.contains wanted)

/-- The file extensions of a language, without the dot. -/
def extensions : Language → List String
  | csharp => ["cs"]
  | java => ["java"]
  | cpp => ["cpp", "cc", "cxx", "hpp", "hh", "hxx", "h"]
  | python => ["py"]

/-- The language of a file extension, which may be given with leading dots and in any case. -/
def ofExtension? (extension : String) : Option Language :=
  let wanted := Text.asciiLower (String.ofList (extension.toList.dropWhile (· == '.')))
  all.find? (fun language => language.extensions.contains wanted)

/-- The names of the folders that are never entered: build output, caches and environments. -/
def outputFolders : Language → List String
  | csharp => ["bin", "obj"]
  | java => ["target", "build", "out"]
  | cpp => ["build", "out", "cmake-build-debug", "cmake-build-release"]
  | python => ["__pycache__", "venv", ".venv", "build", "dist", ".tox"]

/-- Whether a name of the form `I` and a capital is taken for an interface. -/
def marksInterfaces : Language → Bool
  | csharp | cpp => true
  | java | python => false

/-- Whether bodies are set apart by indentation instead of braces. -/
def indented : Language → Bool
  | python => true
  | csharp | java | cpp => false

end Language

end Lineage
