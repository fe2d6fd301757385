import SkillScript.Key.Ancestors
import SkillScript.Line.Attribute
import SkillScript.Line.Scope

/-!
# The excerpt before the cursor

A query about the cursor reads a bounded excerpt of the text before it. The excerpt starts past the
colon of the cursor line's own key, or else of the nearest ancestor key, or else at the start of the
document. It starts over at the last list item that is written outside any open square bracket, so
an argument group left open on an earlier item does not reach into it.
-/

namespace SkillScript

/-- A stretch of a document that ends at the cursor. -/
structure Excerpt where
  /-- The line on which the stretch starts. -/
  baseLine : Nat
  text : List Char
  deriving DecidableEq, Repr

/-- The depth of square brackets after `c`. -/
def bracketNest (depth : Nat) (c : Char) : Nat :=
  if c = '[' then depth + 1 else if c = ']' then depth - 1 else depth

/-- The text starts, after blanks, with the dash of a list item. -/
def startsItem (line : List Char) : Bool := (trimStart line).head? == some '-'

/-- The number of the last line, after the first, that starts a list item outside any square
bracket; `best` when there is none. The lines given are those from number `index` on, and `depth`
is the bracket depth before them. -/
def lastItem (depth index best : Nat) : List (List Char) → Nat
  | [] => best
  | line :: rest =>
    let best := if 0 < index && depth == 0 && startsItem line then index else best
    lastItem (line.foldl bracketNest depth) (index + 1) best rest

/-- The lines without the key that starts the first of them. -/
def dropKey : List (List Char) → List (List Char)
  | [] => []
  | line :: rest =>
    match KeyLine.parse? line with
    | some key => key.value :: rest
    | none => line :: rest

namespace Document

/-- The key that bounds the text before the cursor: the cursor line's own, or its nearest
ancestor. -/
def boundary? (d : Document) (n : Nat) : Option Key :=
  match d.keyAt? n with
  | some key => some key
  | none => (d.ancestors n).head?

/-- The excerpt before the cursor. -/
def excerpt (d : Document) (p : Position) : Excerpt :=
  let (base, lines) := match d.boundary? p.line with
    | some key => (key.line, dropKey (d.linesBetween key.line p))
    | none => (0, d.linesBetween 0 p)
  let start := lastItem 0 0 0 lines
  ⟨base + start, List.intercalate ['\n'] (lines.drop start)⟩

end Document

/-- Where the cursor stands inside the arguments of an object. -/
structure ArgumentContext where
  /-- The excerpt that was searched. -/
  excerpt : Excerpt
  /-- The innermost open scope, whose offsets count from the start of the excerpt. -/
  owner : Scope
  /-- The attribute whose value is being typed, when the cursor is past its equals sign. -/
  attributeName : Option String
  deriving DecidableEq, Repr

/-- The argument scope that is open at the cursor. -/
def Document.argumentContext? (d : Document) (p : Position) : Option ArgumentContext :=
  let excerpt := d.excerpt p
  (Scope.find? excerpt.text).map fun owner =>
    { excerpt, owner, attributeName := currentAttribute? owner.inner }

end SkillScript
