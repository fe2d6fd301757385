import SkillScript.Text.Hidden

/-!
# Quoted text

A text between double quotes. Quotes and backslashes are escaped by a backslash, tabs, line breaks
and the null character by their letters, and every other hidden character by its code point in
hexadecimal between braces.
-/

namespace SkillScript

/-- One character as it stands between quotes. -/
def quoteChar (c : Char) : List Char :=
  if c = '\x00' then ['\\', '0']
  else if c = '\t' then ['\\', 't']
  else if c = '\r' then ['\\', 'r']
  else if c = '\n' then ['\\', 'n']
  else if c = '\\' then ['\\', '\\']
  else if c = '"' then ['\\', '"']
  else if isHidden c then ['\\', 'u', '\x7b'] ++ Nat.toDigits 16 c.toNat ++ ['\x7d']
  else [c]

/-- The text between double quotes. -/
def quoted (s : String) : String :=
  String.ofList ('"' :: s.toList.flatMap quoteChar ++ ['"'])

end SkillScript
