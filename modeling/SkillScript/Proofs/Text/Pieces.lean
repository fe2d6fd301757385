import Mathlib.Data.List.DropRight
import Mathlib.Data.List.TakeWhile
import SkillScript.Text.Blank
import SkillScript.Text.Offset
import SkillScript.Text.Range
import SkillScript.Text.Split

/-!
# Pieces of a text

A run of characters with a property ends where a character without it follows. Trimming stops at
the first character that is no blank. Two starts of one text, or two ends of it, are compared by
their bytes. A text of several lines is added to by adding to its last line, its last lines end it,
and the lines are read back from it.
-/

namespace SkillScript

/-- What holds of all code points of some ranges holds of the characters in them. -/
theorem of_inRanges {ranges : List (Nat × Nat)} {p : Nat → Bool} {c : Char}
    (hall : (ranges.all fun r => (List.range' r.1 (r.2 + 1 - r.1)).all p) = true)
    (h : inRanges ranges c = true) : p c.toNat = true := by
  obtain ⟨r, hr, hle⟩ := (inRanges_iff ranges c).mp h
  refine List.all_eq_true.mp (List.all_eq_true.mp hall r hr) c.toNat ?_
  rw [List.mem_range'_1]
  omega

/-- A run of characters with `p` ends where the next character is without. -/
theorem span_append {α : Type} {p : α → Bool} {run rest : List α} (hrun : ∀ c ∈ run, p c = true)
    (hrest : ∀ c, rest.head? = some c → p c = false) :
    (run ++ rest).takeWhile p = run ∧ (run ++ rest).dropWhile p = rest := by
  rw [List.takeWhile_append_of_pos hrun, List.dropWhile_append_of_pos hrun]
  cases rest with
  | nil => simp
  | cons c rest => simp [hrest c rfl]

theorem of_head?_dropWhile {p : Char → Bool} {cs : List Char} {c : Char}
    (h : (cs.dropWhile p).head? = some c) : p c = false := by
  have := List.head?_dropWhile_not p cs
  simpa [h] using this

/-! ## Trimming -/

section Trimming

variable {text : List Char}

theorem trimStart_of_head (h : ∀ c, text.head? = some c → isBlank c = false) :
    trimStart text = text :=
  (span_append (fun _ h => absurd h List.not_mem_nil) h).2

theorem trimEnd_of_last (h : ∀ c, text.getLast? = some c → isBlank c = false) :
    trimEnd text = text := by
  have hrev : trimStart text.reverse = text.reverse := trimStart_of_head (by simpa using h)
  unfold trimStart at hrev
  rw [trimEnd, hrev, List.reverse_reverse]

theorem trimEnd_prefix (text : List Char) : trimEnd text <+: text :=
  List.rdropWhile_prefix isBlank text

theorem trimEnd_eq_nil_iff : trimEnd text = [] ↔ ∀ c ∈ text, isBlank c = true :=
  List.rdropWhile_eq_nil_iff

theorem trim_eq_nil_iff : trim text = [] ↔ ∀ c ∈ text, isBlank c = true := by
  rw [trim, trimEnd_eq_nil_iff]
  constructor
  · intro h
    by_contra hne
    have hstart : trimStart text ≠ [] := fun hnil => hne (List.dropWhile_eq_nil_iff.mp hnil)
    obtain ⟨c, hc⟩ := Option.isSome_iff_exists.mp (List.isSome_head?.mpr hstart)
    have hblank := h c (List.mem_of_head? hc)
    rw [of_head?_dropWhile hc] at hblank
    cases hblank
  · intro h c hc
    exact h c (List.dropWhile_subset _ hc)

/-- Nothing before a character that is no blank is trimmed from the end. -/
theorem trimEnd_append (lead : List Char) {c : Char} (hmem : c ∈ text) (hc : isBlank c = false) :
    trimEnd (lead ++ text) = lead ++ trimEnd text := by
  have hne : text.reverse.dropWhile isBlank ≠ [] := by
    intro hnil
    have hall := List.dropWhile_eq_nil_iff.mp hnil
    simp [hall c (by simpa using hmem)] at hc
  simp [trimEnd, List.dropWhile_append, hne]

theorem trimEnd_trimEnd (text : List Char) : trimEnd (trimEnd text) = trimEnd text := by
  apply trimEnd_of_last
  intro c hc
  rw [trimEnd, List.getLast?_reverse] at hc
  exact of_head?_dropWhile hc

/-- Trimming takes blanks off both sides. -/
theorem exists_trim (text : List Char) :
    ∃ left right, text = left ++ trim text ++ right ∧ (∀ c ∈ left, isBlank c = true) ∧
      ∀ c ∈ right, isBlank c = true := by
  refine ⟨text.takeWhile isBlank, ((trimStart text).reverse.takeWhile isBlank).reverse, ?_, ?_, ?_⟩
  · have hend : trim text ++ ((trimStart text).reverse.takeWhile isBlank).reverse =
        trimStart text := by
      rw [trim, trimEnd, ← List.reverse_append, List.takeWhile_append_dropWhile,
        List.reverse_reverse]
    rw [List.append_assoc, hend, trimStart, List.takeWhile_append_dropWhile]
  · exact fun c hc => List.mem_takeWhile_imp hc
  · exact fun c hc => List.mem_takeWhile_imp (List.mem_reverse.mp hc)

/-- The blanks around a text without any are trimmed. -/
theorem trim_between {left right : List Char} (hleft : ∀ c ∈ left, isBlank c = true)
    (hright : ∀ c ∈ right, isBlank c = true) (hne : text ≠ [])
    (htext : ∀ c ∈ text, isBlank c = false) : trim (left ++ text ++ right) = text := by
  have hstart : ∀ c, (text ++ right).head? = some c → isBlank c = false := fun c hc => by
    rw [List.head?_append_of_ne_nil _ hne] at hc
    exact htext c (List.mem_of_mem_head? hc)
  have hend : ∀ c, text.reverse.head? = some c → isBlank c = false :=
    fun c hc => htext c (List.mem_reverse.mp (List.mem_of_mem_head? hc))
  have hright : ∀ c ∈ right.reverse, isBlank c = true :=
    fun c hc => hright c (List.mem_reverse.mp hc)
  rw [List.append_assoc, trim, trimStart, (span_append hleft hstart).2, trimEnd,
    List.reverse_append, (span_append hright hend).2, List.reverse_reverse]

end Trimming

/-! ## Bytes -/

theorem byteLength_pos {cs : List Char} (h : cs ≠ []) : 0 < byteLength cs := by
  obtain ⟨c, cs, rfl⟩ := List.exists_cons_of_ne_nil h
  have := c.utf8Size_pos
  rw [byteLength_cons]
  omega

/-- Of two starts of a text, the one with fewer bytes starts the other. -/
theorem prefix_of_byteLength_le {a b cs : List Char} (ha : a <+: cs) (hb : b <+: cs)
    (h : byteLength a ≤ byteLength b) : a <+: b := by
  rcases List.prefix_or_prefix_of_prefix ha hb with hab | ⟨rest, rfl⟩
  · exact hab
  · by_cases hrest : rest = []
    · simp [hrest]
    · have := byteLength_pos hrest
      rw [byteLength_append] at h
      omega

/-- Of two ends of a text, the one with fewer bytes ends the other. -/
theorem suffix_of_byteLength_le {a b cs : List Char} (ha : a <:+ cs) (hb : b <:+ cs)
    (h : byteLength a ≤ byteLength b) : a <:+ b := by
  rcases List.suffix_or_suffix_of_suffix ha hb with hab | ⟨rest, rfl⟩
  · exact hab
  · by_cases hrest : rest = []
    · simp [hrest]
    · have := byteLength_pos hrest
      rw [byteLength_append] at h
      omega

theorem splitAtByte?_eq_some {cs left right : List Char} {n : Nat}
    (h : splitAtByte? cs n = some (left, right)) : left ++ right = cs := by
  fun_induction splitAtByte? cs n generalizing left with
  | case1 cs => cases h; rfl
  | case2 => cases h
  | case3 c cs n hle ih =>
    obtain ⟨⟨before, after⟩, hsplit, heq⟩ := Option.map_eq_some_iff.mp h
    cases heq
    rw [List.cons_append, ih hsplit]
  | case4 => cases h

/-! ## Lines -/

/-- What starts the first line of a text starts the text. -/
theorem intercalate_cons_append (sep lead line : List Char) (rest : List (List Char)) :
    List.intercalate sep ((lead ++ line) :: rest) =
      lead ++ List.intercalate sep (line :: rest) := by
  cases rest with
  | nil => simp
  | cons next rest => simp only [List.intercalate_cons_cons, List.append_assoc]

/-- What is added to the last line of a text is added to the text. -/
theorem intercalate_concat_append (sep : List Char) (lines : List (List Char))
    (last piece : List Char) :
    List.intercalate sep (lines ++ [last ++ piece]) =
      List.intercalate sep (lines ++ [last]) ++ piece := by
  induction lines with
  | nil => simp
  | cons line lines ih =>
    have hne : ∀ last : List Char, lines ++ [last] ≠ [] := fun last => by simp
    rw [List.cons_append, List.cons_append, List.intercalate_cons_of_ne_nil (hne _),
      List.intercalate_cons_of_ne_nil (hne _), ih, List.append_assoc _ _ piece]

/-- The last lines of a text end it. -/
theorem intercalate_suffix (sep : List Char) {lines all : List (List Char)} (h : lines <:+ all) :
    List.intercalate sep lines <:+ List.intercalate sep all := by
  obtain ⟨before, rfl⟩ := h
  induction before with
  | nil => exact List.suffix_refl _
  | cons line before ih =>
    by_cases hnil : before ++ lines = []
    · obtain ⟨rfl, rfl⟩ := List.append_eq_nil_iff.mp hnil
      exact List.nil_suffix
    · rw [List.cons_append, List.intercalate_cons_of_ne_nil hnil]
      exact ih.trans (List.suffix_append _ _)

/-- The lines of a text are read back from it. -/
theorem splitAtChar_intercalate {c : Char} {lines : List (List Char)} (hne : lines ≠ [])
    (h : ∀ line ∈ lines, c ∉ line) : splitAtChar c (List.intercalate [c] lines) = lines := by
  rw [splitAtChar_eq_splitOn, List.splitOn_intercalate c h hne]

end SkillScript
