/-!
# Splitting at a character

`splitAtChar sep` divides a text at every `sep`. There is always one piece more than there are
separators, and no piece contains one.
-/

namespace SkillScript

/-- The pieces of a text between the occurrences of `sep`. -/
def splitAtChar (sep : Char) : List Char → List (List Char)
  | [] => [[]]
  | c :: cs =>
    if c = sep then [] :: splitAtChar sep cs
    else match splitAtChar sep cs with
      | piece :: rest => (c :: piece) :: rest
      | [] => [[c]]

theorem notMem_of_mem_splitAtChar (sep : Char) (cs : List Char) :
    ∀ piece ∈ splitAtChar sep cs, sep ∉ piece := by
  fun_induction splitAtChar sep cs with
  | case1 => simp
  | case2 cs ih => simpa using ih
  | case3 c cs hc piece rest h ih =>
    intro p hp
    rw [h] at ih
    rcases List.mem_cons.1 hp with rfl | hp
    · simpa [Ne.symm hc] using ih piece (by simp)
    · exact ih p (by simp [hp])
  | case4 c cs hc h ih => simpa using Ne.symm hc

theorem splitAtChar_ne_nil (sep : Char) (cs : List Char) : splitAtChar sep cs ≠ [] := by
  fun_cases splitAtChar sep cs <;> simp

theorem splitAtChar_eq_splitOn (sep : Char) (cs : List Char) :
    splitAtChar sep cs = List.splitOn sep cs := by
  fun_induction splitAtChar sep cs with
  | case1 => rfl
  | case2 cs ih => simp [List.splitOn_cons_eq_if_modifyHead, ih]
  | case3 c cs hc piece rest h ih => simp [List.splitOn_cons_eq_if_modifyHead, hc, ← ih, h]
  | case4 c cs hc h => exact absurd h (splitAtChar_ne_nil sep cs)

theorem length_splitAtChar (sep : Char) (cs : List Char) :
    (splitAtChar sep cs).length = cs.count sep + 1 := by
  fun_induction splitAtChar sep cs with
  | case1 => rfl
  | case2 cs ih => simp [ih]
  | case3 c cs hc piece rest h ih => simpa [h, hc] using ih
  | case4 c cs hc h => exact absurd h (splitAtChar_ne_nil sep cs)

/-- A text without the separator is one piece. -/
theorem splitAtChar_of_notMem {sep : Char} {cs : List Char} (h : sep ∉ cs) :
    splitAtChar sep cs = [cs] := by
  rw [splitAtChar_eq_splitOn, List.splitOn_eq_singleton h]

/-- A separator divides the pieces of the text before it from those of the text behind it. -/
theorem splitAtChar_append (sep : Char) (a b : List Char) :
    splitAtChar sep (a ++ sep :: b) = splitAtChar sep a ++ splitAtChar sep b := by
  simp only [splitAtChar_eq_splitOn, List.splitOn_append_cons_self]

end SkillScript
