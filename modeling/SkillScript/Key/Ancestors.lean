import SkillScript.Document
import SkillScript.Key.KeyLine

/-!
# Ancestor keys

The ancestors of a line are the keys it nests under, innermost first. Walking up from the line, each
key that is indented less than every key met before it is an ancestor. A line that is no key line
counts as one deeper than it is indented, so that list items written flush with their key still
nest under it.
-/

namespace SkillScript

namespace Document

/-- The key that line `n` defines. -/
def keyAt? (d : Document) (n : Nat) : Option Key :=
  match d.line? n with
  | some text => Key.parse? text n
  | none => none

/-- The keys among the given numbered lines, nearest first, that are indented less than `floor` and
less than every key before them. -/
def keysBelow (floor : Nat) : List (List Char × Nat) → List Key
  | [] => []
  | (text, n) :: rest =>
    if floor = 0 then []
    else match Key.parse? text n with
      | some key =>
        if key.indent < floor then key :: keysBelow key.indent rest else keysBelow floor rest
      | none => keysBelow floor rest

/-- The keys at or above line `n` that something at `floor` on that line nests under. -/
def keysAbove (d : Document) (n floor : Nat) : List Key :=
  keysBelow floor (d.lines.take (n + 1)).zipIdx.reverse

/-- The ancestors of line `n`, innermost first. -/
def ancestors (d : Document) (n : Nat) : List Key :=
  match d.line? n with
  | none => []
  | some text =>
    let floor := if (KeyLine.parse? text).isSome then indentation text else indentation text + 1
    d.keysAbove n floor

/-- The ancestors of a key that is about to be typed at indentation `indent` on line `n`. -/
def ancestorsAt (d : Document) (n indent : Nat) : List Key :=
  if n < d.lineCount then d.keysAbove n indent else []

/-- The names of the ancestors of line `n`, outermost first. -/
def keyPath (d : Document) (n : Nat) : List String :=
  (d.ancestors n).reverse.map Key.name

end Document

end SkillScript
