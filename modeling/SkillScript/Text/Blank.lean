import SkillScript.Text.Range

/-!
# Blank characters

A blank is a character with the Unicode property `White_Space`: the ASCII blanks and line breaks,
next line, the no-break spaces, the typographic spaces and the two Unicode separators. Zero-width
characters are no blanks.
-/

namespace SkillScript

/-- The ranges of `White_Space`. -/
def blankRanges : List (Nat × Nat) := [
  (0x9, 0xd), (0x20, 0x20), (0x85, 0x85), (0xa0, 0xa0), (0x1680, 0x1680), (0x2000, 0x200a),
  (0x2028, 0x2029), (0x202f, 0x202f), (0x205f, 0x205f), (0x3000, 0x3000)]

/-- `c` is white space. -/
def isBlank (c : Char) : Bool := inRanges blankRanges c

/-- The text without its leading blanks. -/
def trimStart (cs : List Char) : List Char := cs.dropWhile isBlank

/-- The text without its trailing blanks. -/
def trimEnd (cs : List Char) : List Char := (cs.reverse.dropWhile isBlank).reverse

/-- The text without its blanks on either side. -/
def trim (cs : List Char) : List Char := trimEnd (trimStart cs)

/-- The number of leading blanks; a tab counts as one. -/
def indentation (cs : List Char) : Nat := (cs.takeWhile isBlank).length

end SkillScript
