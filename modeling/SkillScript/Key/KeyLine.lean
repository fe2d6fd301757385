import SkillScript.Text.Blank
import SkillScript.Text.Offset

/-!
# Key lines

A key line has blanks, a key, and a colon that a blank or the end of the line follows. The key is a
text between double or single quotes, or a bare word. A bare word has no blank, colon, hash or
quote in it and does not start with a dash.
-/

namespace SkillScript

/-- A key line, split without loss around its colon. -/
structure KeyLine where
  /-- The leading blanks. -/
  indent : List Char
  /-- The key as it is written. -/
  token : List Char
  /-- The key without its quotes. -/
  name : String
  /-- The text after the colon. -/
  value : List Char
  deriving DecidableEq, Repr

/-- `c` may be part of a bare key. -/
def isBareChar (c : Char) : Bool :=
  !(isBlank c || c == ':' || c == '#' || c == '\'' || c == '"')

namespace KeyLine

/-- The key line that `token`, written as `name`, makes with what follows it. -/
def finish (indent token name : List Char) : List Char → Option KeyLine
  | ':' :: value =>
    match value with
    | [] => some ⟨indent, token, String.ofList name, value⟩
    | c :: _ => if isBlank c then some ⟨indent, token, String.ofList name, value⟩ else none
  | _ => none

/-- The key line whose key stands between two of the given quotes. The text starts after the
first. -/
def quotedKey (indent : List Char) (quote : Char) (cs : List Char) : Option KeyLine :=
  let name := cs.takeWhile (· != quote)
  match cs.dropWhile (· != quote) with
  | _ :: rest => finish indent (quote :: name ++ [quote]) name rest
  | [] => none

/-- The key line that a text is. -/
def parse? (cs : List Char) : Option KeyLine :=
  let indent := cs.takeWhile isBlank
  match cs.dropWhile isBlank with
  | [] => none
  | c :: rest =>
    if c = '"' || c = '\'' then quotedKey indent c rest
    else if isBareChar c && c != '-' then
      let token := c :: rest.takeWhile isBareChar
      finish indent token token (rest.dropWhile isBareChar)
    else none

/-- The byte offset just past the colon. -/
def valueOffset (k : KeyLine) : Nat := byteLength (k.indent ++ k.token) + 1

end KeyLine

/-- A key of a document: its name, its line and its indentation. -/
structure Key where
  name : String
  line : Nat
  indent : Nat
  deriving DecidableEq, Repr

/-- The key that `text`, standing on line `line`, defines. -/
def Key.parse? (text : List Char) (line : Nat) : Option Key :=
  (KeyLine.parse? text).map fun k => ⟨k.name, line, k.indent.length⟩

end SkillScript
