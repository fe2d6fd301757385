/-!
# Nesting of argument groups

Braces hold the arguments of an object and square brackets hold an inline list. Both open a group,
and a closer closes the innermost open group whatever its kind. A closer with nothing open leaves
the depth at zero, so malformed text still has a depth everywhere.
-/

namespace SkillScript

/-- The kinds of group. -/
inductive Delimiter where
  /-- `{`, the arguments of an object. -/
  | brace
  /-- `[`, an inline list owned by an attribute. -/
  | bracket
  deriving DecidableEq, Repr

/-- The character that opens a group. -/
def Delimiter.opener : Delimiter → Char
  | .brace => '\x7b'
  | .bracket => '['

/-- The kind of group that `c` opens. -/
def Delimiter.ofOpener? (c : Char) : Option Delimiter :=
  if c = '\x7b' then some .brace else if c = '[' then some .bracket else none

/-- `c` opens a group. -/
def isOpener (c : Char) : Bool := c == '\x7b' || c == '['

/-- `c` closes a group. -/
def isCloser (c : Char) : Bool := c == '\x7d' || c == ']'

/-- The depth after `c`, from the depth before it. -/
def nest (depth : Nat) (c : Char) : Nat :=
  if isOpener c then depth + 1 else if isCloser c then depth - 1 else depth

/-- The depth at the end of a text that starts at `depth`. -/
def depthAfter (depth : Nat) (cs : List Char) : Nat := cs.foldl nest depth

@[simp] theorem depthAfter_nil (depth : Nat) : depthAfter depth [] = depth := rfl

@[simp] theorem depthAfter_cons (depth : Nat) (c : Char) (cs : List Char) :
    depthAfter depth (c :: cs) = depthAfter (nest depth c) cs := rfl

@[simp] theorem depthAfter_append (depth : Nat) (a b : List Char) :
    depthAfter depth (a ++ b) = depthAfter (depthAfter depth a) b :=
  List.foldl_append

/-- What is left of a text once its groups are removed, from `depth`. A closer with nothing open is
plain text. -/
def stripGroupsFrom (depth : Nat) : List Char → List Char
  | [] => []
  | c :: cs =>
    if isOpener c || (isCloser c && decide (0 < depth)) || decide (0 < depth) then
      stripGroupsFrom (nest depth c) cs
    else c :: stripGroupsFrom depth cs

/-- The text without its groups. -/
def stripGroups (cs : List Char) : List Char := stripGroupsFrom 0 cs

/-- The text up to its first group: the name of an object without its arguments. -/
def stripArguments (cs : List Char) : List Char := cs.takeWhile fun c => !isOpener c

end SkillScript
