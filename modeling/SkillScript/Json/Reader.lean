import SkillScript.Json.Basic
import SkillScript.Json.Number
import SkillScript.Text.Numeral

/-!
# Reading JSON

`Json.parse?` reads one value and accepts nothing but blanks around it. It allows no comments, no
trailing commas, no leading zeros, and no control characters inside strings.
-/

namespace SkillScript

namespace Json

/-- The text after leading blanks; only the four blanks of JSON count. -/
def skipSpace (cs : List Char) : List Char :=
  cs.dropWhile fun c => c == ' ' || c == '\n' || c == '\t' || c == '\r'

/-- The value of a hexadecimal digit. -/
def hexDigit? (c : Char) : Option Nat :=
  if c.isDigit then some (c.toNat - 48)
  else if 'a' ≤ c ∧ c ≤ 'f' then some (c.toNat - 87)
  else if 'A' ≤ c ∧ c ≤ 'F' then some (c.toNat - 55)
  else none

/-- The value of four hexadecimal digits. -/
def hexUnit? (a b c d : Char) : Option Nat := do
  let a ← hexDigit? a
  let b ← hexDigit? b
  let c ← hexDigit? c
  let d ← hexDigit? d
  return ((a * 16 + b) * 16 + c) * 16 + d

/-- The character that a backslash and a letter stand for. -/
def escaped? (c : Char) : Option Char :=
  if c = '"' ∨ c = '\\' ∨ c = '/' then some c
  else if c = 'b' then some '\x08'
  else if c = 'f' then some '\x0c'
  else if c = 'n' then some '\n'
  else if c = 'r' then some '\r'
  else if c = 't' then some '\t'
  else none

/-- The code points and escaped UTF-16 units of a string up to its closing quote, after those in
`units`, which are held last first, and the text after the quote. -/
def readUnits (units : List Nat) : List Char → Option (List Nat × List Char)
  | [] => none
  | '"' :: cs => some (units.reverse, cs)
  | '\\' :: 'u' :: a :: b :: c :: d :: cs =>
    match hexUnit? a b c d with
    | some n => readUnits (n :: units) cs
    | none => none
  | '\\' :: e :: cs =>
    match escaped? e with
    | some c => readUnits (c.toNat :: units) cs
    | none => none
  | c :: cs => if c = '\\' ∨ c.toNat < 32 then none else readUnits (c.toNat :: units) cs

/-- The unit is the first half of a surrogate pair. -/
def isHighSurrogate (n : Nat) : Bool := decide (0xd800 ≤ n) && decide (n ≤ 0xdbff)

/-- The unit is the second half of a surrogate pair. -/
def isLowSurrogate (n : Nat) : Bool := decide (0xdc00 ≤ n) && decide (n ≤ 0xdfff)

/-- The characters of a list of units, after those in `chars`, which are held last first. Half of a
pair is no character. -/
def joinUnits (chars : List Char) : List Nat → Option String
  | [] => some (String.ofList chars.reverse)
  | m :: n :: units =>
    if isHighSurrogate m then
      if isLowSurrogate n then
        joinUnits (Char.ofNat (0x10000 + (m - 0xd800) * 0x400 + (n - 0xdc00)) :: chars) units
      else none
    else if isLowSurrogate m then none
    else joinUnits (Char.ofNat m :: chars) (n :: units)
  | [m] =>
    if isHighSurrogate m || isLowSurrogate m then none
    else some (String.ofList (Char.ofNat m :: chars).reverse)

/-- The fraction of a number: its digits and the text after them. A point needs a digit. -/
def readFraction? : List Char → Option (List Char × List Char)
  | '.' :: cs =>
    let digits := cs.takeWhile Char.isDigit
    if digits.isEmpty then none else some (digits, cs.dropWhile Char.isDigit)
  | cs => some ([], cs)

/-- The exponent of a number, when it has one, and the text after it. -/
def readExponent? : List Char → Option (Option Int × List Char)
  | [] => some (none, [])
  | c :: cs =>
    if c = 'e' ∨ c = 'E' then
      let digits := (dropSign cs).takeWhile Char.isDigit
      let magnitude : Int := digitsValue digits
      if digits.isEmpty then none
      else
        some (some (if cs.head? = some '-' then -magnitude else magnitude),
          (dropSign cs).dropWhile Char.isDigit)
    else some (none, c :: cs)

/-- The number at the start of a text, and the text after it. -/
def readNumber? (cs : List Char) : Option (Json × List Char) := do
  let negative := cs.head? == some '-'
  let body := if negative then cs.drop 1 else cs
  let whole := body.takeWhile Char.isDigit
  guard (!whole.isEmpty && (whole.length == 1 || whole.head? != some '0'))
  let (part, rest) ← readFraction? (body.dropWhile Char.isDigit)
  let (exponent, rest) ← readExponent? rest
  let value :=
    if (Scientific.ofDigits whole part (exponent.getD 0)).isOutOfRange then unreadable
    else if part.isEmpty && exponent.isNone && !(negative && whole == ['0']) then
      let n : Int := digitsValue whole
      int (if negative then -n else n)
    else decimal (String.ofList (cs.take (cs.length - rest.length)))
  return (value, rest)

/-- The text after `word`, when it starts with it. -/
def dropWord? (word cs : List Char) : Option (List Char) :=
  if word.isPrefixOf cs then some (cs.drop word.length) else none

mutual

/-- The value at the start of a text, and the text after it. Every call takes one of `fuel`. -/
def readValue? : Nat → List Char → Option (Json × List Char)
  | 0, _ => none
  | fuel + 1, cs =>
    let cs := skipSpace cs
    match cs with
    | [] => none
    | c :: rest =>
      if c = '"' then
        match readUnits [] rest with
        | some (units, rest) =>
          match joinUnits [] units with
          | some s => some (str s, rest)
          | none => some (unreadable, rest)
        | none => none
      else if c = '[' then
        match skipSpace rest with
        | ']' :: rest => some (arr [], rest)
        | rest => readItems? fuel [] rest
      else if c = '\x7b' then
        match skipSpace rest with
        | '\x7d' :: rest => some (obj [], rest)
        | rest => readFields? fuel [] true rest
      else if c = 't' then (dropWord? ['t', 'r', 'u', 'e'] cs).map (bool true, ·)
      else if c = 'f' then (dropWord? ['f', 'a', 'l', 's', 'e'] cs).map (bool false, ·)
      else if c = 'n' then (dropWord? ['n', 'u', 'l', 'l'] cs).map (null, ·)
      else readNumber? cs

/-- The rest of an array after the items in `items`, which are held last first. -/
def readItems? : Nat → List Json → List Char → Option (Json × List Char)
  | 0, _, _ => none
  | fuel + 1, items, cs =>
    match readValue? fuel cs with
    | none => none
    | some (item, rest) =>
      match skipSpace rest with
      | ',' :: rest => readItems? fuel (item :: items) rest
      | ']' :: rest => some (arr (item :: items).reverse, rest)
      | _ => none

/-- The rest of an object after the fields in `fields`, which are held last first. The object is
unreadable when one of its names was. -/
def readFields? : Nat → List (String × Json) → Bool → List Char → Option (Json × List Char)
  | 0, _, _, _ => none
  | fuel + 1, fields, readable, cs =>
    match skipSpace cs with
    | '"' :: rest =>
      match readUnits [] rest with
      | none => none
      | some (units, rest) =>
        match skipSpace rest with
        | ':' :: rest =>
          match readValue? fuel rest with
          | none => none
          | some (value, rest) =>
            let name := joinUnits [] units
            let fields := (name.getD "", value) :: fields
            let readable := readable && name.isSome
            match skipSpace rest with
            | ',' :: rest => readFields? fuel fields readable rest
            | '\x7d' :: rest => some (if readable then obj fields.reverse else unreadable, rest)
            | _ => none
        | _ => none
    | _ => none

end

/-- The value that a text writes, as it is written. -/
def parse? (text : String) : Option Json :=
  let cs := text.toList
  match readValue? (2 * cs.length + 2) cs with
  | some (value, rest) => if (skipSpace rest).isEmpty then some value else none
  | none => none

/-- The value that a text writes, with one field per name in every object. -/
def parseValue? (text : String) : Option Json := (parse? text).bind (value? maxDepth)

end Json

end SkillScript
