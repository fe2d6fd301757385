import SkillScript.Reference.Context

/-!
# Line feeds and the other line breaks

A text is divided into lines at line feeds, or at every line break that Unicode knows. The two ways
give one document when every carriage return is followed by a line feed and no other break occurs,
and every query then has one answer.

Both ways first cut the text and then take endings off the lines. Divided at every break, a line
keeps the break that ends it (`Document.brokenLines`), and loses a line feed and then a carriage
return. Divided at line feeds, it has lost the line feed already.

* `splitUnicode_eq_map`: the lines without their endings, for any text.
* `map_dropEnd_brokenLines`: with plain breaks, only line feeds make the two ways differ.
* `Document.ofText_agree`: with plain breaks, both ways give one document.
-/

namespace SkillScript

namespace Document

/-- The line without `ending` at its end. -/
def dropEnd (ending : Char) (line : List Char) : List Char :=
  if line.getLast? = some ending then line.dropLast else line

/-- The lines of a text, each with the break that ends it. The last line has none. -/
def brokenLines : List Char → List (List Char)
  | [] => [[]]
  | '\r' :: '\n' :: cs => ['\r', '\n'] :: brokenLines cs
  | c :: cs =>
    if c = '\n' ∨ c = '\r' ∨ isKeptBreak c = true then [c] :: brokenLines cs
    else match brokenLines cs with
      | line :: rest => (c :: line) :: rest
      | [] => [[c]]

/-- Every carriage return is followed by a line feed, and there is no break but line feeds and such
pairs. -/
structure PlainBreaks (text : List Char) : Prop where
  returns : ∀ i, text[i]? = some '\r' → text[i + 1]? = some '\n'
  kept : ∀ c ∈ text, isKeptBreak c = false

instance (text : List Char) : Decidable (PlainBreaks text) :=
  decidable_of_iff ((∀ i < text.length, text[i]? = some '\r' → text[i + 1]? = some '\n') ∧
      text.all (!isKeptBreak ·) = true) <| by
    refine ⟨fun ⟨hreturns, hkept⟩ => ⟨fun i hi => ?_, by simpa using hkept⟩,
      fun h => ⟨fun i _ => h.returns i, by simpa using h.kept⟩⟩
    exact hreturns i (List.getElem?_eq_some_iff.mp hi).1 hi

/-! ## Endings -/

theorem dropReturn_eq_dropEnd (line : List Char) : dropReturn line = dropEnd '\r' line := by
  unfold dropReturn dropEnd
  split
  · next cs hcs =>
    obtain rfl : line = cs.reverse ++ ['\r'] := by
      rw [← List.reverse_reverse line, hcs, List.reverse_cons]
    simp
  · next hne =>
    rw [if_neg]
    intro hlast
    obtain ⟨before, rfl⟩ := List.getLast?_eq_some_iff.mp hlast
    exact hne before.reverse (by simp)

/-- Only the last character of a line is taken off. -/
theorem dropEnd_cons {ending c : Char} (h : c ≠ ending) (line : List Char) :
    dropEnd ending (c :: line) = c :: dropEnd ending line := by
  cases line with
  | nil => simp [dropEnd, h]
  | cons c' line =>
    simp only [dropEnd, List.getLast?_cons_cons, List.dropLast_cons_cons]
    split <;> rfl

theorem brokenLines_ne_nil (text : List Char) : brokenLines text ≠ [] := by
  fun_cases brokenLines text <;> simp

/-- Divided at every break, a line loses a line feed at its end and then a carriage return. -/
theorem splitUnicode_eq_map (text : List Char) :
    splitUnicode text = (brokenLines text).map fun l => dropEnd '\r' (dropEnd '\n' l) := by
  fun_induction brokenLines text with
  | case1 => rfl
  | case2 cs ih => simp [splitUnicode, ih, dropEnd]
  | case3 c cs hpair hbreak ih =>
    rw [splitUnicode.eq_3 c cs hpair, ih]
    rcases hbreak with rfl | rfl | hkept
    · simp [dropEnd]
    · simp [dropEnd]
    · have hfeed : c ≠ '\n' := by rintro rfl; cases hkept
      have hreturn : c ≠ '\r' := by rintro rfl; cases hkept
      simp [hfeed, hreturn, hkept, dropEnd]
  | case4 c cs hpair hbreak line rest hlines ih =>
    obtain ⟨hfeed, hreturn, hkept⟩ : c ≠ '\n' ∧ c ≠ '\r' ∧ ¬ isKeptBreak c = true := by
      simpa [not_or] using hbreak
    rw [hlines] at ih
    rw [splitUnicode.eq_3 c cs hpair, ih]
    simp [hfeed, hreturn, hkept, dropEnd_cons]
  | case5 c cs _ _ hlines => exact absurd hlines (brokenLines_ne_nil cs)

/-! ## Plain breaks -/

theorem PlainBreaks.tail {c : Char} {text : List Char} (h : PlainBreaks (c :: text)) :
    PlainBreaks text :=
  ⟨fun i hi => h.returns (i + 1) hi, fun c' hc' => h.kept c' (List.mem_cons_of_mem c hc')⟩

/-- With plain breaks, the lines end at line feeds. -/
theorem map_dropEnd_brokenLines {text : List Char} (h : PlainBreaks text) :
    (brokenLines text).map (dropEnd '\n') = splitAtChar '\n' text := by
  fun_induction brokenLines text with
  | case1 => rfl
  | case2 cs ih => simp [splitAtChar, ih h.tail.tail, dropEnd]
  | case3 c cs hpair hbreak ih =>
    rcases hbreak with rfl | rfl | hkept
    · simp [splitAtChar, ih h.tail, dropEnd]
    · -- A carriage return that no line feed follows is not plain.
      obtain ⟨rest, rfl⟩ : ∃ rest, cs = '\n' :: rest := by
        have hnext := h.returns 0 rfl
        cases cs with
        | nil => cases hnext
        | cons c' rest => exact ⟨rest, by simpa using hnext⟩
      exact absurd rfl (hpair rest rfl)
    · rw [h.kept c List.mem_cons_self] at hkept
      cases hkept
  | case4 c cs hpair hbreak line rest hlines ih =>
    have hfeed : c ≠ '\n' := fun hc => hbreak (.inl hc)
    have ih := ih h.tail
    rw [hlines, List.map_cons] at ih
    rw [List.map_cons, dropEnd_cons hfeed, splitAtChar, if_neg hfeed, ← ih]
  | case5 c cs _ _ hlines => exact absurd hlines (brokenLines_ne_nil cs)

/-- With plain breaks, it does not matter which breaks divide the text. -/
theorem ofText_of_plainBreaks {text : List Char} (h : PlainBreaks text) :
    ofText .lineFeed text = ofText .unicode text := by
  have hlines : splitLines .lineFeed text = splitLines .unicode text :=
    calc (splitAtChar '\n' text).map dropReturn
      _ = ((brokenLines text).map (dropEnd '\n')).map (dropEnd '\r') := by
        rw [map_dropEnd_brokenLines h, funext dropReturn_eq_dropEnd]
      _ = splitUnicode text := by rw [splitUnicode_eq_map, List.map_map]; rfl
  simp only [ofText, hlines]

/-! ## Queries -/

/-- Every query about a position has the same answer in both documents. -/
structure SameAnswers (d d' : Document) : Prop where
  linePrefix : ∀ p, d.linePrefix? p = d'.linePrefix? p
  textBetween : ∀ start p, d.textBetween start p = d'.textBetween start p
  key : ∀ n, d.keyAt? n = d'.keyAt? n
  ancestors : ∀ n, d.ancestors n = d'.ancestors n
  ancestorsAt : ∀ n indent, d.ancestorsAt n indent = d'.ancestorsAt n indent
  keyPath : ∀ n, d.keyPath n = d'.keyPath n
  excerpt : ∀ p, d.excerpt p = d'.excerpt p
  arguments : ∀ p, d.argumentContext? p = d'.argumentContext? p
  owner : ∀ (c : Context) p, c.owner d p = c.owner d' p
  category : ∀ (c : Context) p, c.objectCategory? d p = c.objectCategory? d' p
  contextOwner : ∀ registry settings p,
    d.contextOwner? registry settings p = d'.contextOwner? registry settings p
  schema : ∀ (c : Context) p file, c.completeSchema d p file = c.completeSchema d' p file
  placeholder : ∀ (c : Context) p, c.completePlaceholder d p = c.completePlaceholder d' p
  attributes : ∀ (c : Context) p, c.completeAttributes d p = c.completeAttributes d' p

/-- A text with plain breaks has the same lines whichever breaks divide it, and there is no line
past the last in either document. Every query about a position has one answer. -/
theorem ofText_agree (text : List Char) (h : PlainBreaks text) :
    let d := ofText .lineFeed text
    let d' := ofText .unicode text
    d.lineCount = d'.lineCount ∧ (∀ n, d.line? n = d'.line? n) ∧
      (∀ n, d.lineCount ≤ n → d.line? n = none ∧ d'.line? n = none) ∧ d.SameAnswers d' := by
  intro d d'
  have hsame : d = d' := ofText_of_plainBreaks h
  have hpast : ∀ n, d.lineCount ≤ n → d.line? n = none := fun n hn => List.getElem?_eq_none hn
  rw [← hsame]
  refine ⟨rfl, fun n => rfl, fun n hn => ⟨hpast n hn, hpast n hn⟩, ?_⟩
  constructor <;> intros <;> rfl

/-- Both plain breaks, between lines and at the end, and a line that is empty. -/
theorem ofText_agree_mixed :
    let text := "Skills:\r\n- dmg\n\r\n".toList
    PlainBreaks text ∧ (ofText .unicode text).lineCount = 4 ∧
      (ofText .unicode text).line? 0 = some "Skills:".toList ∧
      (ofText .unicode text).line? 3 = some [] ∧ (ofText .unicode text).line? 4 = none := by
  intro text
  have h : PlainBreaks text := by decide +kernel
  obtain ⟨hcount, hline, hpast, -⟩ := ofText_agree text h
  have hfour : (ofText .lineFeed text).lineCount = 4 := by decide +kernel
  refine ⟨h, hcount.symm.trans hfour, (hline 0).symm.trans ?_, (hline 3).symm.trans ?_,
    (hpast 4 (Nat.le_of_eq hfour)).2⟩
  · decide +kernel
  · decide +kernel

end Document

end SkillScript
