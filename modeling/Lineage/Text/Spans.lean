/-!
# Sets of code points given by their boundaries

A property of characters is stored as the increasing list of the code points at which membership
changes, starting outside the set: `[a, b, c, d]` is the set of `n` with `a ≤ n < b` or
`c ≤ n < d`.
-/

namespace Lineage.Text

/-- Whether `n` lies in the set with the given boundaries. -/
def inSpans : List Nat → Nat → Bool
  | low :: high :: rest, n =>
    if n < low then false
    else if n < high then true
    else inSpans rest n
  | _, _ => false

end Lineage.Text
