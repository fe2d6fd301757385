import SkillScript.Proofs.Key.Chain

/-!
# Editing one line of a document

A line is typed anew (`Document.withLine`), or more is typed at its end (`Document.TypedOn`). Either
way the lines above stay as they are, so that the line's place among the keys is decided by its
indentation and by whether it is a key line.

* `Document.ancestors_withLine`: a key that is typed where the blanks before the cursor end nests
  under the keys that were found before it was there.
* `Document.TypedOn.ancestors_eq`: a line that is typed on keeps its key and its ancestors.
-/

namespace SkillScript

/-! ## The cursor line and its indentation -/

theorem indentation_le_append (a b : List Char) : indentation a ≤ indentation (a ++ b) := by
  unfold indentation
  rw [List.takeWhile_append]
  split
  · next hall => rw [hall, List.length_append]; exact Nat.le_add_right _ _
  · exact Nat.le_refl _

/-- The indentation of a key line is the same with more text behind it. -/
theorem KeyLine.indentation_append {line : List Char} {k : KeyLine} (h : parse? line = some k)
    (more : List Char) : indentation (line ++ more) = k.indent.length := by
  rw [indentation, (written_of_parse? h).takeWhile_append]

namespace Document

variable {d : Document} {p : Position} {typed : List Char}

/-- The cursor line is what is before the cursor and what is behind it. -/
theorem exists_line?_of_linePrefix? (h : d.linePrefix? p = some typed) :
    ∃ line, d.line? p.line = some line ∧ typed ++ line.drop p.character = line := by
  obtain ⟨line, hline, rfl⟩ := Option.map_eq_some_iff.mp h
  exact ⟨line, hline, List.take_append_drop p.character line⟩

/-! ## A line typed anew -/

/-- The document with another text on line `n`. -/
def withLine (d : Document) (n : Nat) (text : List Char) (h : '\n' ∉ text) : Document where
  lines := d.lines.set n text
  lineFeed_notMem line hline := by
    rcases List.mem_or_eq_of_mem_set hline with hline | rfl
    · exact d.lineFeed_notMem line hline
    · exact h

theorem line?_withLine {n : Nat} (hn : n < d.lineCount) (text : List Char) (h : '\n' ∉ text) :
    (d.withLine n text h).line? n = some text := by
  have : n < d.lines.length := hn
  simp [withLine, line?, this]

/-- The other lines stay as they are. -/
theorem line?_withLine_of_ne {m n : Nat} (hne : m ≠ n) (text : List Char) (h : '\n' ∉ text) :
    (d.withLine n text h).line? m = d.line? m :=
  List.getElem?_set_ne hne.symm

theorem numberedAbove_withLine (n : Nat) (text : List Char) (h : '\n' ∉ text) :
    (d.withLine n text h).numberedAbove n = d.numberedAbove n := by
  simp only [numberedAbove, withLine, List.take_set_of_le (Nat.le_refl n)]

/-- A key about to be typed where the blanks before the cursor end has the ancestors of a key line
that starts there. -/
theorem ancestors_withLine (htyped : d.linePrefix? p = some typed) {text : List Char}
    (hfeed : '\n' ∉ text) (hfloor : nestingFloor text = indentation typed) :
    (d.withLine p.line text hfeed).ancestors p.line = d.ancestorsAt p.line (indentation typed) := by
  obtain ⟨line, hline, hsplit⟩ := exists_line?_of_linePrefix? htyped
  have hlt : p.line < d.lineCount := (List.getElem?_eq_some_iff.mp hline).1
  have hown : ∀ k, d.keyAt? p.line = some k → indentation typed ≤ k.indent := by
    intro k hk
    rw [keyAt?_of_line? hline] at hk
    rw [Key.indent_of_parse? hk, ← hsplit]
    exact indentation_le_append _ _
  rw [ancestors_eq (line?_withLine hlt text hfeed), numberedAbove_withLine, hfloor, ancestorsAt,
    if_pos hlt, keysAbove_eq hlt hown]

/-! ## More at the end of a line -/

/-- The document `d'` is `d` with `piece` typed at the end of line `n`, up to the lines below. The
piece belongs to the text before it: it has no colon, starts neither with a blank nor with a dash,
and does not directly follow the colon of a key. -/
structure TypedOn (d d' : Document) (n : Nat) (line piece : List Char) : Prop where
  line_before : d.line? n = some line
  line_after : d'.line? n = some (line ++ piece)
  above : ∀ m < n, d'.line? m = d.line? m
  colon : ':' ∉ piece
  head : ∀ c, piece.head? = some c → isBlank c = false ∧ c ≠ '-'
  value : ∀ k, KeyLine.parse? line = some k → k.value ≠ []

namespace TypedOn

variable {d d' : Document} {n : Nat} {line piece : List Char}

theorem parse?_eq (h : TypedOn d d' n line piece) :
    KeyLine.parse? (line ++ piece) =
      (KeyLine.parse? line).map fun k => { k with value := k.value ++ piece } :=
  KeyLine.parse?_append_of_notMem h.colon h.value

theorem indentation_eq (h : TypedOn d d' n line piece) :
    indentation (line ++ piece) = indentation line := by
  unfold indentation
  rw [List.takeWhile_append]
  split
  · next hall =>
    have hnone : piece.takeWhile isBlank = [] :=
      (@span_append _ isBlank [] piece nofun fun c hc => (h.head c hc).1).1
    rw [hnone, List.append_nil, hall]
  · rfl

theorem nestingFloor_eq (h : TypedOn d d' n line piece) :
    nestingFloor (line ++ piece) = nestingFloor line := by
  simp only [nestingFloor, h.parse?_eq, h.indentation_eq, Option.isSome_map]

theorem keyAt?_eq (h : TypedOn d d' n line piece) : d'.keyAt? n = d.keyAt? n := by
  rw [keyAt?_of_line? h.line_before, keyAt?_of_line? h.line_after, Key.parse?, Key.parse?,
    h.parse?_eq, Option.map_map]
  rfl

/-- The line keeps its place among the keys. -/
theorem ancestors_eq (h : TypedOn d d' n line piece) : d'.ancestors n = d.ancestors n := by
  have hchain := (chain_ancestors h.line_before).congr h.above
  rw [← h.nestingFloor_eq] at hchain
  exact (chain_ancestors h.line_after).unique hchain

end TypedOn

/-- A line of a document can be typed on. -/
theorem typedOn_withLine {d : Document} {n : Nat} {line piece : List Char}
    (hline : d.line? n = some line) (hfeed : '\n' ∉ line ++ piece) (hcolon : ':' ∉ piece)
    (hhead : ∀ c, piece.head? = some c → isBlank c = false ∧ c ≠ '-')
    (hvalue : ∀ k, KeyLine.parse? line = some k → k.value ≠ []) :
    TypedOn d (d.withLine n (line ++ piece) hfeed) n line piece where
  line_before := hline
  line_after := line?_withLine (List.getElem?_eq_some_iff.mp hline).1 _ hfeed
  above _ hm := line?_withLine_of_ne (Nat.ne_of_lt hm) _ hfeed
  colon := hcolon
  head := hhead
  value := hvalue

end Document

end SkillScript
