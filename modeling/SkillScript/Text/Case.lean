import SkillScript.Text.CaseTable

/-!
# Case

Two foldings are in use. `lower` and `upper` are the full Unicode mappings: a character may become
several, and a capital sigma becomes a final sigma at the end of a word. `sameAscii` folds the
letters of ASCII and nothing else.
-/

namespace SkillScript

/-- The lower case of one character outside any word. -/
def lowerChar (c : Char) : List Char :=
  if c.toNat < 128 then [c.toLower]
  else if c = 'İ' then ['i', '\u0307']
  else [Char.ofNat (CaseRun.apply lowerRuns c.toNat)]

/-- The upper case of one character. -/
def upperChar (c : Char) : List Char :=
  if c.toNat < 128 then [c.toUpper]
  else match upperExpansions.lookup c.toNat with
    | some codes => codes.map Char.ofNat
    | none => [Char.ofNat (CaseRun.apply upperRuns c.toNat)]

/-- The first character that is not case-ignorable has case. -/
def startsCased (cs : List Char) : Bool :=
  match cs.dropWhile (inRanges caseIgnorableRanges) with
  | [] => false
  | c :: _ => inRanges casedRanges c

/-- The lower case of `rest`, where `before` is what precedes it, last character first. A capital
sigma is final when a cased character stands before it and none after it. -/
def lowerAfter (before : List Char) : List Char → List Char
  | [] => []
  | c :: rest =>
    let image :=
      if c = 'Σ' then
        if startsCased before && !startsCased rest then ['ς'] else ['σ']
      else lowerChar c
    image ++ lowerAfter (c :: before) rest

/-- The full lower case of a text. -/
def lower (s : String) : String := String.ofList (lowerAfter [] s.toList)

/-- The full upper case of a text. -/
def upper (s : String) : String := String.ofList (s.toList.flatMap upperChar)

/-- The texts are equal once the letters of ASCII are folded. -/
def sameAscii (a b : String) : Bool := a.toList.map Char.toLower == b.toList.map Char.toLower

theorem sameAscii_iff (a b : String) :
    sameAscii a b = true ↔ a.toList.map Char.toLower = b.toList.map Char.toLower := by
  simp [sameAscii]

@[simp] theorem sameAscii_refl (a : String) : sameAscii a a = true := by simp [sameAscii]

theorem sameAscii_comm (a b : String) : sameAscii a b = sameAscii b a := by
  simp only [sameAscii, Bool.beq_comm]

end SkillScript
