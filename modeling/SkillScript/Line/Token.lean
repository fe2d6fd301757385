import SkillScript.Nesting
import SkillScript.Text.Blank
import SkillScript.Text.Offset

/-!
# Tokens of a line

A token is a maximal stretch without a blank at depth zero: blanks inside an argument group belong
to the token. Each token carries the byte offset at which it starts.
-/

namespace SkillScript

/-- A token with its byte offset. -/
structure Token where
  offset : Nat
  text : List Char
  deriving DecidableEq, Repr

namespace Token

/-- `text` as a first token at `offset`, unless it is empty. -/
def cons (offset : Nat) (text : List Char) (rest : List Token) : List Token :=
  if text.isEmpty then rest else ⟨offset, text⟩ :: rest

/-- The rest of the token that is being read at `depth`, and the tokens after it. -/
def scan (offset depth : Nat) : List Char → List Char × List Token
  | [] => ([], [])
  | c :: cs =>
    if isBlank c && depth == 0 then
      let (text, rest) := scan (offset + c.utf8Size) 0 cs
      ([], cons (offset + c.utf8Size) text rest)
    else
      let (text, rest) := scan (offset + c.utf8Size) (nest depth c) cs
      (c :: text, rest)

/-- The tokens of a line, left to right. -/
def tokenize (cs : List Char) : List Token :=
  let (text, rest) := scan 0 0 cs
  cons 0 text rest

/-- The byte offset just past the token. -/
def stop (t : Token) : Nat := t.offset + byteLength t.text

/-- The token starts with `c`. -/
def startsWith (c : Char) (t : Token) : Bool := t.text.head? == some c

end Token

/-- The token that is still being typed at the end of a text: its last token, when nothing
separates it from the end. -/
def typedToken? (cs : List Char) : Option (List Char) :=
  match (Token.tokenize cs).getLast? with
  | some t => if t.stop = byteLength cs then some t.text else none
  | none => none

/-- The number of the slot that is being typed at the end of a text. A token that is still being
typed is the current slot and not a finished one. -/
def slotIndex (cs : List Char) : Nat :=
  let count := (Token.tokenize cs).length
  if (typedToken? cs).isSome then count - 1 else count

end SkillScript
