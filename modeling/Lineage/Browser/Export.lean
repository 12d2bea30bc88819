import Lineage.Census
import Lineage.Files.Disk
import Lineage.Language

/-!
# Exporting an outline

The outline and the census of a forest are written to a text file named for the language.
-/

namespace Lineage

namespace Export

/-- The file that is written in a folder. -/
def target (folder : String) (language : Language) : String :=
  Path.join folder ("classtree-" ++ language.name ++ ".txt")

/-- Why an export fails: the file that could not be written, and the cause. -/
structure Error where
  path : String
  cause : DiskError
  deriving DecidableEq, Repr, Inhabited

namespace Error

/-- The failure in words. -/
def message (e : Error) : String :=
  "failed to write " ++ e.path

end Error

/-- Writes the outline of a forest into a folder and returns the path of the file with the disk
afterwards. -/
def run (d : Disk) (folder : String) (f : Forest) (outline : List OutlineLine) (c : Census)
    (language : Language) : Except Error (String × Disk) :=
  let path := target folder language
  match d.write path (Census.report f outline c).toUTF8 with
  | .error cause => .error ⟨path, cause⟩
  | .ok d => .ok (path, d)

end Export

end Lineage
