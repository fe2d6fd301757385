/-!
# Byte offsets

Positions inside a line are counted in characters by an editor and in UTF-8 bytes by the queries of
this library. A byte offset that falls inside a character belongs to no position.
-/

namespace SkillScript

/-- The number of UTF-8 bytes of a text. -/
def byteLength : List Char → Nat
  | [] => 0
  | c :: cs => c.utf8Size + byteLength cs

@[simp] theorem byteLength_nil : byteLength [] = 0 := rfl

@[simp] theorem byteLength_cons (c : Char) (cs : List Char) :
    byteLength (c :: cs) = c.utf8Size + byteLength cs := rfl

@[simp] theorem byteLength_append (a b : List Char) :
    byteLength (a ++ b) = byteLength a + byteLength b := by
  induction a with
  | nil => simp
  | cons c a ih => simp [ih, Nat.add_assoc]

/-- The measure is the size of the text as a string. -/
theorem utf8ByteSize_ofList (cs : List Char) :
    (String.ofList cs).utf8ByteSize = byteLength cs := by
  induction cs with
  | nil => rfl
  | cons c cs ih => simp [String.ofList_cons, ih]

/-- The byte offset of character number `n`, or the length of the text when it has no more than
`n` characters. -/
def byteOffset (cs : List Char) (n : Nat) : Nat := byteLength (cs.take n)

/-- The text before and from byte offset `n`, or `none` when the offset lies inside a character or
past the end. -/
def splitAtByte? : List Char → Nat → Option (List Char × List Char)
  | cs, 0 => some ([], cs)
  | [], _ + 1 => none
  | c :: cs, n + 1 =>
    if c.utf8Size ≤ n + 1 then
      (splitAtByte? cs (n + 1 - c.utf8Size)).map fun (before, after) => (c :: before, after)
    else none

/-- The characters that start in the first `n` bytes. -/
def takeBytes : Nat → List Char → List Char
  | 0, _ => []
  | _ + 1, [] => []
  | n + 1, c :: cs => c :: takeBytes (n + 1 - c.utf8Size) cs

/-- The characters that start at byte `n` or later. -/
def dropBytes : Nat → List Char → List Char
  | 0, cs => cs
  | _ + 1, [] => []
  | n + 1, c :: cs => dropBytes (n + 1 - c.utf8Size) cs

theorem splitAtByte?_append (a b : List Char) :
    splitAtByte? (a ++ b) (byteLength a) = some (a, b) := by
  induction a with
  | nil => cases b <;> simp [splitAtByte?]
  | cons c a ih =>
    have hc : 0 < c.utf8Size := c.utf8Size_pos
    obtain ⟨n, hn⟩ : ∃ n, c.utf8Size + byteLength a = n + 1 :=
      ⟨_, (Nat.succ_pred_eq_of_pos (by omega)).symm⟩
    have hle : c.utf8Size ≤ n + 1 := by omega
    have hsub : n + 1 - c.utf8Size = byteLength a := by omega
    simp [splitAtByte?, hn, hle, hsub, ih]

theorem takeBytes_append (a b : List Char) : takeBytes (byteLength a) (a ++ b) = a := by
  induction a with
  | nil => simp [takeBytes]
  | cons c a ih =>
    have hc : 0 < c.utf8Size := c.utf8Size_pos
    obtain ⟨n, hn⟩ : ∃ n, c.utf8Size + byteLength a = n + 1 :=
      ⟨_, (Nat.succ_pred_eq_of_pos (by omega)).symm⟩
    have hsub : n + 1 - c.utf8Size = byteLength a := by omega
    simp [takeBytes, hn, hsub, ih]

theorem dropBytes_append (a b : List Char) : dropBytes (byteLength a) (a ++ b) = b := by
  induction a with
  | nil => simp [dropBytes]
  | cons c a ih =>
    have hc : 0 < c.utf8Size := c.utf8Size_pos
    obtain ⟨n, hn⟩ : ∃ n, c.utf8Size + byteLength a = n + 1 :=
      ⟨_, (Nat.succ_pred_eq_of_pos (by omega)).symm⟩
    have hsub : n + 1 - c.utf8Size = byteLength a := by omega
    simp [dropBytes, hn, hsub, ih]

end SkillScript
