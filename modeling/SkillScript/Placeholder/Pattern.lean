import SkillScript.Dataset
import SkillScript.Text.Alphanumeric
import SkillScript.Text.Blank
import SkillScript.Text.Numeral
import SkillScript.Text.Split

/-!
# Patterns of placeholder elements

An element of a placeholder path may be a pattern, written by its name between braces, which stands
for every text that it owns. Some patterns are built in, and every dataset is one.
-/

namespace SkillScript

/-- A set of texts that an element of a placeholder path may be. -/
inductive Pattern where
  /-- A signed integer of 64 bits. -/
  | integer
  /-- A number without a decimal point, since paths are divided at points. -/
  | float
  /-- Pairs `key=value` separated by semicolons. -/
  | map
  /-- Letters, numbers, `_`, `-` and `:`, under the given name. -/
  | identifier (name : String)
  /-- The keys of a dataset. -/
  | dataset (d : Dataset)
  deriving DecidableEq, Repr

namespace Pattern

/-- The name of a pattern, which is in lower case for a dataset. -/
def name : Pattern → String
  | integer => "integer"
  | float => "float"
  | map => "map"
  | identifier name => name
  | dataset d => lower d.name

/-- The texts that a pattern offers; none when there is no end of them. -/
def candidates : Pattern → List String
  | dataset d => d.keys
  | _ => []

/-- `pair` is `key=value` with a key that is not blank. -/
def isPair (pair : List Char) : Bool :=
  pair.contains '=' && (pair.takeWhile (· != '=')).any fun c => !isBlank c

/-- `c` may be part of an identifier. -/
def isIdentifierChar (c : Char) : Bool := isAlphanumeric c || c == '_' || c == '-' || c == ':'

/-- The text is an instance of the pattern. -/
def owns (p : Pattern) (value : String) : Bool :=
  let cs := value.toList
  match p with
  | integer => (int64? cs).isSome
  | float => !cs.contains '.' && cs.any Char.isDigit && isReal cs
  | map => cs.contains '=' && ((splitAtChar ';' cs).filter (!·.isEmpty)).all isPair
  | identifier _ => !cs.isEmpty && cs.all isIdentifierChar
  | dataset d => d.contains value

end Pattern

/-- Patterns, of which no two have one name in lower case. -/
abbrev Patterns := List Pattern

namespace Patterns

/-- The patterns that need no reference data. -/
def builtIn : Patterns := [.integer, .float, .map, .identifier "name", .identifier "variable"]

/-- The pattern called `name`, in any case. -/
def named? (ps : Patterns) (name : String) : Option Pattern :=
  List.find? (fun p => lower p.name == lower name) ps

/-- The built-in patterns and one for each dataset. A dataset does not replace a pattern whose name
is taken. -/
def ofDatasets (ds : Datasets) : Patterns :=
  ds.foldl (fun ps d => if (named? ps d.name).isSome then ps else ps ++ [.dataset d]) builtIn

/-- The name between the braces of a written pattern. -/
def inBraces? : List Char → Option (List Char)
  | '\x7b' :: cs => if cs.getLast? = some '\x7d' then some cs.dropLast else none
  | _ => none

/-- The pattern that is written as `raw`, braces included. -/
def find? (ps : Patterns) (raw : String) : Option Pattern :=
  (inBraces? raw.toList).bind fun name => ps.named? (String.ofList name)

end Patterns

end SkillScript
