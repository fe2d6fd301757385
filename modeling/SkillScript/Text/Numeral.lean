/-!
# Written numbers

`isReal` recognises the written floating-point numbers: an optional sign, then `inf`, `infinity` or
`nan` in any case, or decimal digits with at most one point among them, and an optional exponent.
At least one digit stands before or after the point. `int64?` reads a signed decimal integer of
64 bits; leading zeros are fine.
-/

namespace SkillScript

/-- The text after an optional sign. -/
def dropSign : List Char → List Char
  | '+' :: cs => cs
  | '-' :: cs => cs
  | cs => cs

/-- A non-empty run of ASCII digits. -/
def isDigits (cs : List Char) : Bool := !cs.isEmpty && cs.all Char.isDigit

/-- Nothing, or `e` with an optional sign and at least one digit. -/
def isExponent : List Char → Bool
  | [] => true
  | c :: cs => (c == 'e' || c == 'E') && isDigits (dropSign cs)

/-- The digits after a decimal point, if there is one, and what follows them. -/
def fraction : List Char → List Char × List Char
  | '.' :: cs => (cs.takeWhile Char.isDigit, cs.dropWhile Char.isDigit)
  | cs => ([], cs)

/-- An unsigned decimal number with an optional exponent. -/
def isDecimal (cs : List Char) : Bool :=
  let whole := cs.takeWhile Char.isDigit
  let (part, rest) := fraction (cs.dropWhile Char.isDigit)
  !(whole.isEmpty && part.isEmpty) && isExponent rest

/-- A written floating-point number. -/
def isReal (cs : List Char) : Bool :=
  let body := dropSign cs
  isDecimal body ||
    ["inf", "infinity", "nan"].any fun name => body.map Char.toLower == name.toList

/-- The value of a run of ASCII digits. -/
def digitsValue (cs : List Char) : Nat := cs.foldl (fun n c => 10 * n + (c.toNat - 48)) 0

/-- The integer that the text writes, when it fits 64 bits. -/
def int64? (cs : List Char) : Option Int :=
  if isDigits (dropSign cs) then
    let magnitude : Int := digitsValue (dropSign cs)
    let n := if cs.head? = some '-' then -magnitude else magnitude
    if -9223372036854775808 ≤ n ∧ n ≤ 9223372036854775807 then some n else none
  else none

end SkillScript
