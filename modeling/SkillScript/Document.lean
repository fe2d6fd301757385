import SkillScript.Text.Blank
import SkillScript.Text.Offset
import SkillScript.Text.Split

/-!
# Documents and positions

A document is the list of its lines. There are two ways to divide a text into lines: at line feeds
only, or at every line break that Unicode knows. Either way a line loses one trailing line feed and
then one trailing carriage return, and any other break stays at the end of its line.
-/

namespace SkillScript

/-- Where the lines of a text end. -/
inductive LineBreaks where
  /-- At line feeds. -/
  | lineFeed
  /-- At line feeds, carriage returns, vertical tabs, form feeds, next lines, and the line and
  paragraph separators. A carriage return and a line feed together are one break. -/
  | unicode
  deriving DecidableEq, Repr

/-- A cursor position: a line and a number of characters on it, both from zero. -/
structure Position where
  line : Nat
  character : Nat
  deriving DecidableEq, Repr

/-- The lines of a text. No line contains a line feed. -/
structure Document where
  lines : List (List Char)
  lineFeed_notMem : ∀ line ∈ lines, '\n' ∉ line

namespace Document

/-- A break of one character that stays in the text of the line it ends. -/
def isKeptBreak (c : Char) : Bool :=
  c == '\x0b' || c == '\x0c' || c == '\u0085' || c == '\u2028' || c == '\u2029'

/-- The line without a carriage return at its end. -/
def dropReturn (line : List Char) : List Char :=
  match line.reverse with
  | '\r' :: cs => cs.reverse
  | _ => line

/-- The lines of a text that is divided at every break of Unicode. -/
def splitUnicode : List Char → List (List Char)
  | [] => [[]]
  | '\r' :: '\n' :: cs => [] :: splitUnicode cs
  | c :: cs =>
    if c = '\n' ∨ c = '\r' then [] :: splitUnicode cs
    else if isKeptBreak c then [c] :: splitUnicode cs
    else match splitUnicode cs with
      | line :: rest => (c :: line) :: rest
      | [] => [[c]]

/-- The lines of a text. -/
def splitLines : LineBreaks → List Char → List (List Char)
  | .lineFeed, cs => (splitAtChar '\n' cs).map dropReturn
  | .unicode, cs => splitUnicode cs

theorem lineFeed_notMem_splitUnicode (cs : List Char) :
    ∀ line ∈ splitUnicode cs, '\n' ∉ line := by
  fun_induction splitUnicode cs with
  | case1 => simp
  | case2 cs ih => simpa using ih
  | case3 c cs _ hc ih => simpa using ih
  | case4 c cs _ hn hk ih =>
    have hc : '\n' ≠ c := fun h => hn (Or.inl h.symm)
    simpa [hc] using ih
  | case5 c cs _ hn hk line rest h ih =>
    have hc : '\n' ≠ c := fun h => hn (Or.inl h.symm)
    intro l hl
    rw [h] at ih
    rcases List.mem_cons.1 hl with rfl | hl
    · simpa [hc] using ih line (by simp)
    · exact ih l (by simp [hl])
  | case6 c cs _ hn hk h ih =>
    have hc : '\n' ≠ c := fun h => hn (Or.inl h.symm)
    simpa using hc

theorem lineFeed_notMem_dropReturn {line : List Char} (h : '\n' ∉ line) :
    '\n' ∉ dropReturn line := by
  unfold dropReturn
  split
  · next cs hcs =>
    intro hmem
    apply h
    have : '\n' ∈ line.reverse := by rw [hcs]; simp_all
    simpa using this
  · exact h

theorem lineFeed_notMem_splitLines (breaks : LineBreaks) (cs : List Char) :
    ∀ line ∈ splitLines breaks cs, '\n' ∉ line := by
  cases breaks with
  | lineFeed =>
    intro line hl
    obtain ⟨l, hmem, rfl⟩ := List.mem_map.1 hl
    exact lineFeed_notMem_dropReturn (notMem_of_mem_splitAtChar '\n' cs l hmem)
  | unicode => exact lineFeed_notMem_splitUnicode cs

/-- The document of a text. -/
def ofText (breaks : LineBreaks) (text : List Char) : Document :=
  ⟨splitLines breaks text, lineFeed_notMem_splitLines breaks text⟩

/-- The text of line `n`. -/
def line? (d : Document) (n : Nat) : Option (List Char) := d.lines[n]?

/-- The number of lines. -/
def lineCount (d : Document) : Nat := d.lines.length

/-- The cursor line up to the cursor. A cursor past the end of the line counts as the end. -/
def linePrefix? (d : Document) (p : Position) : Option (List Char) :=
  (d.line? p.line).map (·.take p.character)

/-- The lines from line `start` to the cursor line, which ends at the cursor. A line that the
document lacks is empty. -/
def linesBetween (d : Document) (start : Nat) (p : Position) : List (List Char) :=
  (List.range' start (p.line - start)).map (fun n => (d.line? n).getD [])
    ++ [(d.linePrefix? p).getD []]

/-- The text from the start of line `start` to the cursor, with line feeds between lines. -/
def textBetween (d : Document) (start : Nat) (p : Position) : List Char :=
  List.intercalate ['\n'] (d.linesBetween start p)

end Document

end SkillScript
