import SkillScript.Proofs.Cursor.Agreement
import SkillScript.Proofs.Cursor.Locality
import SkillScript.Proofs.Key.Grammar
import SkillScript.Proofs.Line.Words

/-!
# The answers are the same all over a word

The excerpt before the cursor, its restart at a list item and the cut before the word are taken
anew for every cursor. While the cursor moves over a word, only a piece of the word is added to
the last line of the excerpt (`Document.excerptLines_within`). The piece starts no list item, and it
is cut off again with the sigil (`Document.beforeWord?_within`), so neither the text before the word
nor an answer changes.
-/

namespace SkillScript

/-! ## A piece of a word at the end of a text -/

/-- A piece that starts with neither a blank nor a dash does not make its line a list item. -/
theorem startsItem_append (line : List Char) {piece : List Char}
    (hpiece : ∀ c, piece.head? = some c → isBlank c = false ∧ c ≠ '-') :
    startsItem (line ++ piece) = startsItem line := by
  unfold startsItem trimStart
  rw [List.dropWhile_append]
  split
  · next hnil =>
    rw [List.isEmpty_iff.mp hnil]
    cases piece with
    | nil => rfl
    | cons c piece =>
      obtain ⟨hblank, hdash⟩ := hpiece c rfl
      simp [hblank, hdash]
  · next hne =>
    cases hdrop : line.dropWhile isBlank with
    | nil => exact absurd (by rw [hdrop]; rfl) hne
    | cons c rest => rfl

/-- Only whether the last line starts a list item has a part in where the text starts over. -/
theorem lastItem_concat_congr (depth index best : Nat) (lines : List (List Char))
    {last last' : List Char} (h : startsItem last = startsItem last') :
    lastItem depth index best (lines ++ [last]) = lastItem depth index best (lines ++ [last']) := by
  rw [lastItem_append, lastItem_append]
  simp only [lastItem, h]

/-- What is added to the last line without starting a list item is added to what is left when the
text starts over. -/
theorem intercalate_restart_append (lines : List (List Char)) (last : List Char) {piece : List Char}
    (hpiece : ∀ c, piece.head? = some c → isBlank c = false ∧ c ≠ '-') :
    List.intercalate ['\n'] (restart (lines ++ [last ++ piece])) =
      List.intercalate ['\n'] (restart (lines ++ [last])) ++ piece := by
  have hsame := lastItem_concat_congr 0 0 0 lines (startsItem_append last hpiece)
  have hlt : lastItem 0 0 0 (lines ++ [last]) < lines.length + 1 := by
    simpa using lastItem_lt 0 0 0 (lines ++ [last]) (by simp)
  rw [restart, restart, hsame, List.drop_append_of_le_length (by omega),
    List.drop_append_of_le_length (by omega), intercalate_concat_append]

/-! ## The excerpt while the cursor moves over a word -/

/-- A word past the colon of a key line has the colon and a blank before it, and its sigil is behind
them. -/
theorem KeyLine.parse?_before_word {line tail : List Char} {k : KeyLine} {w : Word}
    (hkey : parse? line = some k)
    (hline : line = w.before ++ Sigil.chars w.sigil ++ w.text ++ tail)
    (hstarts : ∃ c rest, w.text = c :: rest ∧ isBlank c = false) (hpast : k.valueOffset ≤ w.start) :
    ∃ k', parse? (w.before ++ Sigil.chars w.sigil) = some k' ∧ k'.value ≠ [] ∧
      Sigil.chars w.sigil <:+ k'.value := by
  obtain ⟨hwritten, hblank, ⟨name, htoken, -⟩, hvalue⟩ := written_of_parse? hkey
  have hcolon : k.indent ++ k.token ++ [':'] <+: line := ⟨k.value, by rw [hwritten]; simp⟩
  have hlead : w.before ++ Sigil.chars w.sigil <+: line := ⟨w.text ++ tail, by rw [hline]; simp⟩
  obtain ⟨value, hsplit⟩ : k.indent ++ k.token ++ [':'] <+: w.before ++ Sigil.chars w.sigil := by
    refine prefix_of_byteLength_le hcolon hlead ?_
    have hbytes : byteLength [':'] = 1 := by decide
    simpa only [valueOffset, Word.start, byteLength_append, hbytes] using hpast
  have hvalue_eq : k.value = value ++ (w.text ++ tail) := by
    have : k.indent ++ k.token ++ [':'] ++ k.value =
        k.indent ++ k.token ++ [':'] ++ (value ++ (w.text ++ tail)) := by
      rw [← List.append_assoc _ value, hsplit, ← List.append_assoc _ w.text, ← hline, hwritten]
      simp
    exact List.append_cancel_left this
  rw [hvalue_eq] at hvalue
  obtain ⟨c, rest, htext, hc⟩ := hstarts
  -- The word itself cannot follow the colon, since it does not start with a blank.
  have hne : value ≠ [] := by
    rintro rfl
    have := hvalue c (by simp [htext])
    simp [hc] at this
  have hvalue' : IsValue value := (isValue_append hne).mp hvalue
  refine ⟨⟨k.indent, k.token, String.ofList name, value⟩, ?_, hne, ?_⟩
  · have := parse?_token hblank htoken value
    rw [if_pos hvalue'] at this
    rw [← hsplit, ← this]
    simp
  · have hsigil : Sigil.chars w.sigil <:+ w.before ++ Sigil.chars w.sigil := List.suffix_append _ _
    rcases List.suffix_or_suffix_of_suffix hsigil ⟨_, hsplit⟩ with h | h
    · exact h
    · -- The value starts with a blank, which no sigil has.
      obtain ⟨b, value', rfl⟩ := List.exists_cons_of_ne_nil hne
      have hb := (not_blank_of_mem_sigil (h.subset List.mem_cons_self)).1
      simp [hvalue' b rfl] at hb

namespace Document

variable {d : Document}

/-- The lines of the excerpt before it starts over at a list item. -/
def excerptLines (d : Document) (p : Position) : List (List Char) :=
  match d.boundary? p.line with
  | some key => dropKey (d.linesBetween key.line p)
  | none => d.linesBetween 0 p

theorem excerpt_text_eq (d : Document) (p : Position) :
    (d.excerpt p).text = List.intercalate ['\n'] (restart (d.excerptLines p)) := by
  unfold excerpt excerptLines
  cases d.boundary? p.line <;> rfl

/-- The key that bounds the excerpt is the one of the cursor line, or is above it. -/
theorem boundary?_eq_some {n : Nat} {key : Key} (h : d.boundary? n = some key) :
    d.keyAt? n = some key ∨ key.line < n := by
  unfold boundary? at h
  split at h
  · next own hown => exact .inl (hown.trans h)
  · obtain ⟨text, htext⟩ := exists_line?_of_ancestors h
    exact .inr ((head?_ancestors_iff htext key).mp h).above

/-- While the cursor moves over a word, the excerpt has the same lines but for the sigil and the
piece of the word at the end of the last one. -/
theorem excerptLines_within {l : Nat} {line tail : List Char} {w : Word}
    (hline : d.line? l = some line)
    (hword : line = w.before ++ Sigil.chars w.sigil ++ w.text ++ tail)
    (hstarts : ∃ c rest, w.text = c :: rest ∧ isBlank c = false)
    (hpast : ∀ k, KeyLine.parse? line = some k → k.valueOffset ≤ w.start) :
    ∃ lines last, ∀ i piece, line.take i = w.before ++ Sigil.chars w.sigil ++ piece →
      d.excerptLines ⟨l, i⟩ = lines ++ [last ++ (Sigil.chars w.sigil ++ piece)] := by
  have hlines : ∀ start i piece, line.take i = w.before ++ Sigil.chars w.sigil ++ piece →
      d.linesBetween start ⟨l, i⟩ =
        (List.range' start (l - start)).map (fun n => (d.line? n).getD []) ++
          [w.before ++ Sigil.chars w.sigil ++ piece] := by
    intro start i piece htake
    simp only [linesBetween, linePrefix?, hline, Option.map_some, htake, Option.getD_some]
  cases hboundary : d.boundary? l with
  | none =>
    refine ⟨(List.range' 0 (l - 0)).map fun n => (d.line? n).getD [], w.before,
      fun i piece htake => ?_⟩
    simp only [excerptLines, hboundary, hlines 0 i piece htake, List.append_assoc]
  | some key =>
    rcases boundary?_eq_some hboundary with hown | habove
    · -- The excerpt is the value of the cursor line's own key.
      obtain ⟨k, hk, rfl⟩ :
          ∃ k, KeyLine.parse? line = some k ∧ ⟨k.name, l, k.indent.length⟩ = key := by
        rw [keyAt?_of_line? hline] at hown
        exact Option.map_eq_some_iff.mp hown
      obtain ⟨k', hk', hne, last, hlast⟩ := KeyLine.parse?_before_word hk hword hstarts (hpast k hk)
      refine ⟨[], last, fun i piece htake => ?_⟩
      have hparse := KeyLine.parse?_append hk' piece
      rw [if_pos ((isValue_append hne).mpr (KeyLine.written_of_parse? hk').value)] at hparse
      simp only [excerptLines, hboundary, hlines l i piece htake, Nat.sub_self, List.range'_zero,
        List.map_nil, List.nil_append, dropKey, hparse]
      rw [← hlast, List.append_assoc]
    · -- The key is on an earlier line, so the last line is whole.
      refine ⟨dropKey ((List.range' key.line (l - key.line)).map fun n => (d.line? n).getD []),
        w.before, fun i piece htake => ?_⟩
      obtain ⟨m, hm⟩ : ∃ m, l - key.line = m + 1 := ⟨l - key.line - 1, by omega⟩
      simp only [excerptLines, hboundary, hlines key.line i piece htake, hm, List.range'_succ,
        List.map_cons, List.cons_append, dropKey, List.append_assoc]
      split <;> rfl

/-- While the cursor moves over a word, the text before the word stays the same. -/
theorem beforeWord?_within {l : Nat} {line lead dashes tail : List Char} {w : Word}
    (hline : d.line? l = some line) (hstands : w.Stands lead dashes tail)
    (hword : line = w.before ++ Sigil.chars w.sigil ++ w.text ++ tail)
    (hpast : ∀ k, KeyLine.parse? line = some k → k.valueOffset ≤ w.start) :
    ∃ before, ∀ i piece rest, line.take i = w.before ++ Sigil.chars w.sigil ++ piece →
      w.text = piece ++ rest → d.beforeWord? ⟨l, i⟩ w = some before := by
  obtain ⟨c, cs, htext, hblank, hdash⟩ := hstands.head
  obtain ⟨lines, last, hlines⟩ := excerptLines_within hline hword ⟨c, cs, htext, hblank⟩ hpast
  refine ⟨List.intercalate ['\n'] (restart (lines ++ [last])), fun i piece rest htake hpiece => ?_⟩
  have hhead :
      ∀ x, (Sigil.chars w.sigil ++ piece).head? = some x → isBlank x = false ∧ x ≠ '-' := by
    intro x hx
    cases hsigil : Sigil.chars w.sigil with
    | nil =>
      rw [hsigil, List.nil_append] at hx
      have : x = c := by
        cases piece with
        | nil => cases hx
        | cons y piece =>
          rw [htext, List.cons_append] at hpiece
          cases hx
          exact (List.cons.inj hpiece).1.symm
      exact this ▸ ⟨hblank, hdash⟩
    | cons y ys =>
      have hx : x ∈ Sigil.chars w.sigil := by
        rw [hsigil] at hx ⊢
        cases hx
        exact List.mem_cons_self
      exact not_blank_of_mem_sigil hx
  have htext : (d.excerpt ⟨l, i⟩).text =
      List.intercalate ['\n'] (restart (lines ++ [last])) ++ (Sigil.chars w.sigil ++ piece) := by
    rw [excerpt_text_eq, hlines i piece htake, intercalate_restart_append lines last hhead]
  have htyped : byteOffset line i - w.sigilStart = byteLength (Sigil.chars w.sigil ++ piece) := by
    rw [byteOffset, htake, Word.sigilStart, List.append_assoc, byteLength_append]
    exact Nat.add_sub_cancel_left _ _
  exact beforeWord?_of_append hline htext htyped

/-- What the cursor stands on is the same all over a word. -/
theorem cursorTarget?_within {settings : Settings} {l i j cursor : Nat} {line : List Char}
    {w : Word} (hline : d.line? l = some line) (hword : wordAt line cursor = .ok (some w))
    (hpast : ∀ k, KeyLine.parse? line = some k → k.valueOffset ≤ w.start)
    (hi : w.start ≤ byteOffset line i ∧ byteOffset line i ≤ w.stop)
    (hj : w.start ≤ byteOffset line j ∧ byteOffset line j ≤ w.stop) :
    d.cursorTarget? settings ⟨l, i⟩ = d.cursorTarget? settings ⟨l, j⟩ := by
  obtain ⟨left, right, hsplit, hbetween⟩ := between_of_wordAt hword
  obtain ⟨lead, dashes, tail, a, b, hstands, hleft, hright, hrun⟩ := Word.stands_of_between hbetween
  have hwhole : line = w.before ++ Sigil.chars w.sigil ++ w.text ++ tail := by
    rw [← hsplit, hleft, hright, hstands.before_append, List.append_assoc, ← List.append_assoc a,
      hrun]
    simp
  obtain ⟨before, hbefore⟩ := beforeWord?_within hline hstands hwhole hpast
  have hcursor : ∀ {n}, w.start ≤ byteOffset line n ∧ byteOffset line n ≤ w.stop →
      d.wordAt? ⟨l, n⟩ = some w ∧ d.beforeWord? ⟨l, n⟩ w = some before := by
    intro n hn
    have htake := List.take_append_drop n line
    constructor
    · have := Word.between_of_within hbetween (htake.trans hsplit.symm) hn.1 hn.2
      simp only [wordAt?, hline, wordAt_byteOffset, this]
    · obtain ⟨piece, rest, hpiece, htext⟩ :=
        Word.exists_piece_of_within (htake.trans hwhole) hn.1 hn.2
      exact hbefore n piece rest hpiece htext
  simp only [cursorTarget?, hcursor hi, hcursor hj, Option.bind_eq_bind, Option.bind_some]

/-- Over a word, from its start to its end, the queries for what is under the cursor and for its
category do not change. On a key line the word is past the colon. -/
theorem queries_steady_over_word (d : Document) (registry : Registry) (settings : Settings)
    (l cursor i j : Nat) (line : List Char) (w : Word) (hline : d.line? l = some line)
    (hword : wordAt line cursor = .ok (some w))
    (hpast : ∀ k, KeyLine.parse? line = some k → k.valueOffset ≤ w.start)
    (hi : w.start ≤ byteOffset line i ∧ byteOffset line i ≤ w.stop)
    (hj : w.start ≤ byteOffset line j ∧ byteOffset line j ≤ w.stop) :
    d.found registry settings ⟨l, i⟩ = d.found registry settings ⟨l, j⟩ ∧
      d.category? registry settings ⟨l, i⟩ = d.category? registry settings ⟨l, j⟩ := by
  have htarget : d.cursorTarget? settings ⟨l, i⟩ = d.cursorTarget? settings ⟨l, j⟩ :=
    cursorTarget?_within hline hword hpast hi hj
  constructor
  · simp only [found, htarget]
  · simp only [category?, htarget]

/-- Both ends of a negated condition, behind arguments with a letter of two bytes. -/
theorem queries_steady_over_word_condition :
    let night : ObjectEntry :=
      { name := "nächte", aliases := [], description := none, link := none, attributes := [] }
    let registry := { Registry.empty with conditions := .ofList [night] }
    let line := "  -- dmg\x7bm=ä\x7d ?!Nächte\x7bd=1\x7d".toList
    let d := ofText .lineFeed ("Skills:\n".toList ++ line)
    let w : Word := ⟨"  -- dmg\x7bm=ä\x7d ".toList, some .negatedCondition, "Nächte".toList⟩
    d.line? 1 = some line ∧ wordAt line 20 = .ok (some w) ∧ KeyLine.parse? line = none ∧
      (w.start = 17 ∧ w.stop = 24 ∧ byteOffset line 16 = 17 ∧ byteOffset line 22 = 24) ∧
      d.found registry .standard ⟨1, 16⟩ = .object ⟨.condition, night, "Nächte"⟩ ∧
      d.found registry .standard ⟨1, 22⟩ = .object ⟨.condition, night, "Nächte"⟩ := by
  intro night registry line d w
  have hline : d.line? 1 = some line := by decide +kernel
  have hword : wordAt line 20 = .ok (some w) := by decide +kernel
  have hkey : KeyLine.parse? line = none := by decide +kernel
  have hspan : w.start = 17 ∧ w.stop = 24 ∧ byteOffset line 16 = 17 ∧ byteOffset line 22 = 24 := by
    decide +kernel
  have hfound : d.found registry .standard ⟨1, 16⟩ = .object ⟨.condition, night, "Nächte"⟩ := by
    decide +kernel
  have h := queries_steady_over_word d registry .standard 1 20 16 22 line w hline hword
    (by simp [hkey]) (by omega) (by omega)
  exact ⟨hline, hword, hkey, hspan, hfound, h.1.symm.trans hfound⟩

end Document

end SkillScript
