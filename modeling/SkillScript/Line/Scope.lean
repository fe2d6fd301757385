import SkillScript.Line.Sigil
import SkillScript.Nesting
import SkillScript.Text.Blank
import SkillScript.Text.Offset

/-!
# Open scopes

The scope at the end of a text is the innermost group that is still open there, with the identifier
that owns it. A scope splits its text without loss: what precedes the owner, the owner's sigil and
name, the blanks and the equals sign before the group, the opener, and the text inside.
-/

namespace SkillScript

/-- The group that is open at the end of a text. -/
structure Scope where
  /-- The text before the owner. -/
  before : List Char
  sigil : Option Sigil
  /-- The name of the owner: ASCII letters, digits, `_`, and after the first also `:` and `-`. -/
  name : List Char
  /-- What stands between the owner and the opener: blanks and at most one `=`. -/
  gap : List Char
  delimiter : Delimiter
  /-- The text after the opener. -/
  inner : List Char
  deriving DecidableEq, Repr

namespace Scope

/-- A character that an owner's name may start with. -/
def isNameStart (c : Char) : Bool := c.isAlphanum || c == '_'

/-- A character that an owner's name may contain. -/
def isNameChar (c : Char) : Bool := isNameStart c || c == ':' || c == '-'

/-- Walks back through a text, given last character first, to the first opener that no closer
between it and the end has closed. Gives the text before it, its kind and the text after it. -/
def lastOpener? (closers : Nat) (after : List Char) :
    List Char → Option (List Char × Delimiter × List Char)
  | [] => none
  | c :: cs =>
    if isCloser c then lastOpener? (closers + 1) (c :: after) cs
    else match Delimiter.ofOpener? c with
      | none => lastOpener? closers (c :: after) cs
      | some delimiter =>
        match closers with
        | 0 => some (cs.reverse, delimiter, after)
        | closers + 1 => lastOpener? closers (c :: after) cs

/-- The end of a text, last character first, that may stand between an owner and its opener, and
the text before it. -/
def splitGap (cs : List Char) : List Char × List Char :=
  let blanks := cs.takeWhile isBlank
  match cs.dropWhile isBlank with
  | '=' :: rest => (blanks ++ '=' :: rest.takeWhile isBlank, rest.dropWhile isBlank)
  | rest => (blanks, rest)

/-- The sigil at the end of a text, given last character first. A lone trigger sigil does not mark
the owner of a scope. -/
def splitSigil (cs : List Char) : Option Sigil × List Char :=
  match Sigil.splitEnd cs with
  | (some .trigger, _) => (none, cs)
  | split => split

/-- The owner at the end of a text, as the text before it, its sigil, its name and the gap. -/
def owner? (cs : List Char) : Option (List Char × Option Sigil × List Char × List Char) :=
  let (gap, rest) := splitGap cs.reverse
  let run := (rest.takeWhile isNameChar).reverse
  let joiners := run.takeWhile fun c => !isNameStart c
  let name := run.dropWhile fun c => !isNameStart c
  let lead := joiners.reverse ++ rest.dropWhile isNameChar
  if name.isEmpty then none
  else
    let (sigil, lead) := splitSigil lead
    some (lead.reverse, sigil, name, gap.reverse)

/-- The scope at the end of a text. There is none when every group is closed, or when no identifier
owns the innermost open one. -/
def find? (cs : List Char) : Option Scope :=
  match lastOpener? 0 [] cs.reverse with
  | none => none
  | some (text, delimiter, inner) =>
    match owner? text with
    | none => none
    | some (before, sigil, name, gap) => some { before, sigil, name, gap, delimiter, inner }

/-- The text up to the opener. -/
def outer (s : Scope) : List Char := s.before ++ Sigil.chars s.sigil ++ s.name ++ s.gap

/-- The byte offset of the owner, its sigil included. -/
def nameOffset (s : Scope) : Nat := byteLength s.before

/-- The byte offset of the opener. -/
def openOffset (s : Scope) : Nat := byteLength s.outer

/-- The text that the scope ends. -/
def text (s : Scope) : List Char := s.outer ++ s.delimiter.opener :: s.inner

/-! ## A scope splits its text without loss -/

theorem lastOpener?_eq_some {closers : Nat} {after cs before inner : List Char}
    {delimiter : Delimiter} (h : lastOpener? closers after cs = some (before, delimiter, inner)) :
    cs.reverse ++ after = before ++ delimiter.opener :: inner := by
  fun_induction lastOpener? closers after cs with
  | case1 => cases h
  | case2 closers after c cs hc ih => simpa using ih h
  | case3 closers after c cs hc ho ih => simpa using ih h
  | case4 after c cs hc d ho =>
    have hopen : d.opener = c := by
      unfold Delimiter.ofOpener? at ho
      split at ho
      · cases ho; simp_all [Delimiter.opener]
      · split at ho
        · cases ho; simp_all [Delimiter.opener]
        · cases ho
    cases h
    simp [hopen]
  | case5 after c cs hc d ho closers ih => simpa using ih h

theorem splitGap_append (cs : List Char) : (splitGap cs).1 ++ (splitGap cs).2 = cs := by
  unfold splitGap
  split
  · next rest h =>
    simp only [List.append_assoc, List.cons_append, List.takeWhile_append_dropWhile]
    rw [← h, List.takeWhile_append_dropWhile]
  · simp only [List.takeWhile_append_dropWhile]

theorem splitSigil_append (cs : List Char) :
    (Sigil.chars (splitSigil cs).1).reverse ++ (splitSigil cs).2 = cs := by
  unfold splitSigil
  split
  · rfl
  · exact Sigil.splitEnd_append cs

theorem owner?_eq_some {cs before name gap : List Char} {sigil : Option Sigil}
    (h : owner? cs = some (before, sigil, name, gap)) :
    cs = before ++ Sigil.chars sigil ++ name ++ gap ∧ name ≠ [] := by
  unfold owner? at h
  have hgap := splitGap_append cs.reverse
  generalize splitGap cs.reverse = split at h hgap
  obtain ⟨g, rest⟩ := split
  have hrun : (rest.takeWhile isNameChar).reverse =
      (rest.takeWhile isNameChar).reverse.takeWhile (fun c => !isNameStart c) ++
        (rest.takeWhile isNameChar).reverse.dropWhile (fun c => !isNameStart c) :=
    List.takeWhile_append_dropWhile.symm
  have hrest : rest.takeWhile isNameChar ++ rest.dropWhile isNameChar = rest :=
    List.takeWhile_append_dropWhile
  simp only at h hgap
  generalize (rest.takeWhile isNameChar).reverse.takeWhile (fun c => !isNameStart c) = joiners
    at h hrun
  generalize (rest.takeWhile isNameChar).reverse.dropWhile (fun c => !isNameStart c) = word
    at h hrun
  split at h
  · cases h
  · next hne =>
    have hsig := splitSigil_append (joiners.reverse ++ rest.dropWhile isNameChar)
    generalize splitSigil (joiners.reverse ++ rest.dropWhile isNameChar) = pair at h hsig
    obtain ⟨s, lead⟩ := pair
    simp only [Option.some.injEq, Prod.mk.injEq] at h hsig
    obtain ⟨rfl, rfl, rfl, rfl⟩ := h
    refine ⟨?_, by simpa using hne⟩
    have hlead : lead.reverse ++ Sigil.chars s =
        (rest.dropWhile isNameChar).reverse ++ joiners := by
      have := congrArg List.reverse hsig
      simpa using this
    have hcs : cs = rest.reverse ++ g.reverse := by
      have := congrArg List.reverse hgap
      simpa using this.symm
    have hrev : rest.reverse = (rest.dropWhile isNameChar).reverse ++ (joiners ++ word) := by
      rw [← hrun, ← List.reverse_append, hrest]
    rw [hcs, hrev, ← List.append_assoc _ joiners word, ← hlead]

/-- The parts of a scope, put together, are the text it was found in. -/
theorem text_of_find? {cs : List Char} {s : Scope} (h : find? cs = some s) : s.text = cs := by
  unfold find? at h
  split at h
  · cases h
  · next text delimiter inner hopen =>
    split at h
    · cases h
    · next before sigil name gap hown =>
      cases h
      have h₁ := lastOpener?_eq_some hopen
      have h₂ := (owner?_eq_some hown).1
      simp only [List.reverse_reverse, List.append_nil] at h₁
      simp [Scope.text, outer, h₁, h₂]

theorem name_ne_nil_of_find? {cs : List Char} {s : Scope} (h : find? cs = some s) :
    s.name ≠ [] := by
  unfold find? at h
  split at h
  · cases h
  · split at h
    · cases h
    · next hown => cases h; exact (owner?_eq_some hown).2

/-- The text before the owner is shorter than the text that the scope was found in. -/
theorem length_before_lt {cs : List Char} {s : Scope} (h : find? cs = some s) :
    s.before.length < cs.length := by
  rw [← text_of_find? h]
  simp only [Scope.text, outer, List.length_append, List.length_cons]
  omega

end Scope

end SkillScript
