import SkillScript.Line.Sigil
import SkillScript.Text.Alphanumeric
import SkillScript.Text.Offset

/-!
# The word under the cursor

A word is a run of letters and numbers of any script, `_`, `:` and `-`, without its leading dashes.
The cursor may stand anywhere in the run or at either end of it.
-/

namespace SkillScript

/-- A word of a line with the sigil written directly before it. -/
structure Word where
  /-- The text of the line before the sigil. -/
  before : List Char
  sigil : Option Sigil
  text : List Char
  deriving DecidableEq, Repr

/-- `c` may be part of a word. -/
def isWordChar (c : Char) : Bool := isAlphanumeric c || c == '_' || c == ':' || c == '-'

namespace Word

/-- The byte offset of the sigil, or of the word when it has none. -/
def sigilStart (w : Word) : Nat := byteLength w.before

/-- The byte offset of the word. -/
def start (w : Word) : Nat := byteLength (w.before ++ Sigil.chars w.sigil)

/-- The byte offset just past the word. -/
def stop (w : Word) : Nat := byteLength (w.before ++ Sigil.chars w.sigil ++ w.text)

/-- The word around the boundary between two parts of a line. -/
def between (left right : List Char) : Option Word :=
  let backward := left.reverse
  let run := (backward.takeWhile isWordChar).reverse ++ right.takeWhile isWordChar
  let dashes := run.takeWhile (· == '-')
  let text := run.dropWhile (· == '-')
  if text.isEmpty then none
  else
    let (sigil, lead) := Sigil.splitEnd (dashes ++ backward.dropWhile isWordChar)
    some { before := lead.reverse, sigil, text }

end Word

/-- A byte offset that falls inside a character. -/
structure OffBoundary where
  offset : Nat
  deriving DecidableEq, Repr

/-- The word that spans byte offset `cursor` of a line, if there is one. An offset past the end
counts as the end. -/
def wordAt (line : List Char) (cursor : Nat) : Except OffBoundary (Option Word) :=
  let offset := min cursor (byteLength line)
  match splitAtByte? line offset with
  | some (left, right) => .ok (Word.between left right)
  | none => .error ⟨offset⟩

end SkillScript
