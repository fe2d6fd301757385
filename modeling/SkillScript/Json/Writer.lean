import SkillScript.Json.Basic

/-!
# Writing JSON

`Json.compact` writes a value on one line without blanks. `Json.pretty` puts every item and field on
a line of its own and indents it by two spaces; an empty array or object stays on its line.
Characters beyond ASCII are written as they are.
-/

namespace SkillScript

namespace Json

/-- One character inside a string. Controls without a letter of their own are written by their
code point. -/
def writeChar (c : Char) : List Char :=
  if c = '"' then ['\\', '"']
  else if c = '\\' then ['\\', '\\']
  else if c = '\n' then ['\\', 'n']
  else if c = '\r' then ['\\', 'r']
  else if c = '\t' then ['\\', 't']
  else if c = '\x08' then ['\\', 'b']
  else if c = '\x0c' then ['\\', 'f']
  else if c.toNat < 16 then ['\\', 'u', '0', '0', '0'] ++ Nat.toDigits 16 c.toNat
  else if c.toNat < 32 then ['\\', 'u', '0', '0'] ++ Nat.toDigits 16 c.toNat
  else [c]

/-- A string between quotes. -/
def writeString (s : String) : String :=
  String.ofList ('"' :: s.toList.flatMap writeChar ++ ['"'])

/-- A line break and `depth` steps of indentation. -/
def newLine (depth : Nat) : String := String.ofList ('\n' :: List.replicate (2 * depth) ' ')

mutual

/-- The text of a value on one line. -/
def compact : Json → String
  | null => "null"
  | bool b => if b then "true" else "false"
  | int n => toString n
  | decimal text => text
  | str s => writeString s
  | arr items => "[" ++ compactItems items ++ "]"
  | obj fields => "\x7b" ++ compactFields fields ++ "\x7d"
  | unreadable => "null"

/-- Items with commas between them. -/
def compactItems : List Json → String
  | [] => ""
  | [v] => compact v
  | v :: w :: rest => compact v ++ "," ++ compactItems (w :: rest)

/-- Fields with commas between them. -/
def compactFields : List (String × Json) → String
  | [] => ""
  | [(name, v)] => writeString name ++ ":" ++ compact v
  | (name, v) :: f :: rest =>
    writeString name ++ ":" ++ compact v ++ "," ++ compactFields (f :: rest)

end

mutual

/-- The indented text of a value that stands at `depth`. -/
def prettyAt (depth : Nat) : Json → String
  | null => "null"
  | bool b => if b then "true" else "false"
  | int n => toString n
  | decimal text => text
  | str s => writeString s
  | arr [] => "[]"
  | arr (v :: rest) => "[" ++ prettyItems (depth + 1) (v :: rest) ++ newLine depth ++ "]"
  | obj [] => "\x7b\x7d"
  | obj (f :: rest) => "\x7b" ++ prettyFields (depth + 1) (f :: rest) ++ newLine depth ++ "\x7d"
  | unreadable => "null"

/-- Items on lines of their own at `depth`. -/
def prettyItems (depth : Nat) : List Json → String
  | [] => ""
  | [v] => newLine depth ++ prettyAt depth v
  | v :: w :: rest => newLine depth ++ prettyAt depth v ++ "," ++ prettyItems depth (w :: rest)

/-- Fields on lines of their own at `depth`. -/
def prettyFields (depth : Nat) : List (String × Json) → String
  | [] => ""
  | [(name, v)] => newLine depth ++ writeString name ++ ": " ++ prettyAt depth v
  | (name, v) :: f :: rest =>
    newLine depth ++ writeString name ++ ": " ++ prettyAt depth v ++ "," ++
      prettyFields depth (f :: rest)

end

/-- The indented text of a value. -/
def pretty (v : Json) : String := prettyAt 0 v

end Json

end SkillScript
