import SkillScript.Proofs.Cursor.Excerpts
import SkillScript.Proofs.Cursor.Nesting

/-!
# Where the text around the cursor is cut

The queries cut texts by byte offsets of three kinds: on the cursor line, in the excerpt before the
cursor, and in the text before the word under it. An offset of one text is taken from the length of
another, and characters have one to four bytes, so every cut has to be shown to fall between two
characters (`IsBoundary`) and to leave what it should (`IsSlice`).

* `Document.excerpt_text_of_own`, `Document.take_suffix_excerpt`: the excerpt is what the cursor
  line has between the colon of its key and the cursor, or it ends in that line up to the cursor.
* `Document.byteLength_excerpt_lt_iff`: when the word starts before the excerpt does.
* `Document.exists_cut`: the cut before the word.
* `Scope.slices_of_find?`: the cuts at the offsets of a scope.
-/

namespace SkillScript

/-- Byte `n` of the text is the start of a character or the end of the text. -/
def IsBoundary (text : List Char) (n : Nat) : Prop := ∃ a b, text = a ++ b ∧ byteLength a = n

/-- `piece` is the text from byte `i` to byte `j`. -/
def IsSlice (text : List Char) (i j : Nat) (piece : List Char) : Prop :=
  ∃ a b, text = a ++ piece ++ b ∧ byteLength a = i ∧ byteLength (a ++ piece) = j

theorem IsSlice.isBoundary_start {text piece : List Char} {i j : Nat}
    (h : IsSlice text i j piece) : IsBoundary text i := by
  obtain ⟨a, b, rfl, hi, -⟩ := h
  exact ⟨a, piece ++ b, by rw [List.append_assoc], hi⟩

theorem IsSlice.isBoundary_stop {text piece : List Char} {i j : Nat}
    (h : IsSlice text i j piece) : IsBoundary text j := by
  obtain ⟨a, b, rfl, -, hj⟩ := h
  exact ⟨a ++ piece, b, rfl, hj⟩

/-! ## The offsets of a scope -/

/-- The text inside a scope and the text before its owner are slices of the text that the scope was
found in. The latter is one also when that text goes on. -/
theorem Scope.slices_of_find? {text : List Char} {scope : Scope} (h : find? text = some scope)
    (more : List Char) :
    IsSlice text (scope.openOffset + 1) (byteLength text) scope.inner ∧
      IsSlice (text ++ more) 0 scope.nameOffset scope.before := by
  have hopener : byteLength [scope.delimiter.opener] = 1 := by cases scope.delimiter <;> decide
  have htext := text_of_find? h
  refine ⟨⟨scope.outer ++ [scope.delimiter.opener], [], ?_, ?_, ?_⟩, ?_⟩
  · rw [← htext, Scope.text]
    simp
  · rw [byteLength_append, hopener, openOffset]
  · rw [← htext, Scope.text]
    simp
  · obtain ⟨rest, hrest⟩ := (offsets_of_find? h).2.2
    exact ⟨[], rest ++ more, by rw [← hrest]; simp, rfl, rfl⟩

/-! ## The excerpt and the cursor line -/

theorem KeyLine.valueOffset_add (k : KeyLine) (value : List Char) :
    byteLength (k.indent ++ k.token ++ ':' :: value) = k.valueOffset + byteLength value := by
  have hcolon : ':'.utf8Size = 1 := by decide
  simp only [valueOffset, byteLength_append, byteLength_cons, hcolon]
  omega

namespace Document

variable {d : Document} {p : Position} {line : List Char}

/-- When the cursor line up to the cursor is a key line, the cursor is past the colon. -/
theorem valueOffset_le_of_parse?_take {n : Nat} {k k' : KeyLine}
    (hk : KeyLine.parse? line = some k) (hk' : KeyLine.parse? (line.take n) = some k') :
    k.valueOffset ≤ byteOffset line n := by
  have happend := KeyLine.parse?_append hk' (line.drop n)
  rw [List.take_append_drop, hk] at happend
  split at happend
  · cases happend
    rw [byteOffset, (KeyLine.written_of_parse? hk').line_eq, KeyLine.valueOffset_add]
    exact Nat.le_add_right _ _
  · cases happend

/-- Past the colon of the cursor line's own key, the excerpt is what is between the two. -/
theorem excerpt_text_of_own {k : KeyLine} (hline : d.line? p.line = some line)
    (hk : KeyLine.parse? line = some k) (hpast : k.valueOffset ≤ byteOffset line p.character) :
    line.take p.character = k.indent ++ k.token ++ ':' :: (d.excerpt p).text := by
  have hkey : d.boundary? p.line = some ⟨k.name, p.line, k.indent.length⟩ := by
    rw [boundary?_eq_or, keyAt?_of_line? hline, Key.parse?, hk]
    rfl
  have hlength : (k.indent ++ k.token).length + 1 ≤ p.character := by
    have hcolon : k.indent ++ k.token ++ [':'] <+: line :=
      ⟨k.value, by rw [(KeyLine.written_of_parse? hk).line_eq]; simp⟩
    have hprefix : k.indent ++ k.token ++ [':'] <+: line.take p.character := by
      refine prefix_of_byteLength_le hcolon (List.take_prefix _ _) ?_
      rw [KeyLine.valueOffset_add k []]
      exact hpast
    have := hprefix.length_le
    rw [List.length_append, List.length_singleton, List.length_take] at this
    omega
  obtain ⟨value, rest, hlines, hexcerpt⟩ :=
    excerptLines_past_colon hkey hline hk fun _ => hlength
  have hown : d.linesBetween p.line p = [line.take p.character] := by
    simp [linesBetween, linePrefix?, hline]
  rw [hown, List.cons.injEq] at hlines
  obtain ⟨htake, rfl⟩ := hlines
  rw [htake, excerpt_text_eq, hexcerpt]
  simp [restart, lastItem]

/-- Elsewhere the excerpt ends in the cursor line up to the cursor. -/
theorem take_suffix_excerpt (hline : d.line? p.line = some line)
    (hpast : ∀ k, KeyLine.parse? line = some k → byteOffset line p.character < k.valueOffset) :
    line.take p.character <:+ (d.excerpt p).text := by
  have hlines : ∀ start, d.linesBetween start p =
      (List.range' start (p.line - start)).map (fun n => (d.line? n).getD []) ++
        [line.take p.character] := by
    intro start
    simp [linesBetween, linePrefix?, hline]
  rw [excerpt_text_eq, excerptLines]
  cases hboundary : d.boundary? p.line with
  | none =>
    simp only [hlines]
    exact suffix_drop_lastItem _ _
  | some key =>
    simp only [hlines]
    rcases boundary?_eq_some hboundary with hown | habove
    · -- The line has a key, and up to the cursor it has none.
      rw [line_of_keyAt? hown, Nat.sub_self, List.range'_zero, List.map_nil, List.nil_append]
      rw [keyAt?_of_line? hline] at hown
      obtain ⟨k, hk, -⟩ := Option.map_eq_some_iff.mp hown
      cases htake : KeyLine.parse? (line.take p.character) with
      | none =>
        simp only [dropKey, htake]
        exact suffix_drop_lastItem [] _
      | some k' =>
        have := valueOffset_le_of_parse?_take hk htake
        have := hpast k hk
        omega
    · obtain ⟨m, hm⟩ : ∃ m, p.line - key.line = m + 1 := ⟨p.line - key.line - 1, by omega⟩
      rw [hm, List.range'_succ, List.map_cons, List.cons_append]
      obtain ⟨value, -, hdrop⟩ := dropKey_cons ((d.line? key.line).getD []) _
      rw [hdrop, ← List.cons_append]
      exact suffix_drop_lastItem _ _

/-- Bytes from the start of the word to the cursor are missing in the excerpt just when the cursor
is past the colon of the line's own key, and the word starts before. -/
theorem byteLength_excerpt_lt_iff (hline : d.line? p.line = some line) (start : Nat) :
    byteLength (d.excerpt p).text < byteOffset line p.character - start ↔
      ∃ k, KeyLine.parse? line = some k ∧ k.valueOffset ≤ byteOffset line p.character ∧
        start < k.valueOffset := by
  by_cases hown : ∃ k, KeyLine.parse? line = some k ∧
      k.valueOffset ≤ byteOffset line p.character
  · obtain ⟨k, hk, hpast⟩ := hown
    have hcursor : byteOffset line p.character =
        k.valueOffset + byteLength (d.excerpt p).text := by
      rw [byteOffset, excerpt_text_of_own hline hk hpast, KeyLine.valueOffset_add]
    constructor
    · intro hlt
      exact ⟨k, hk, hpast, by omega⟩
    · rintro ⟨k', hk', -, hstart⟩
      cases hk.symm.trans hk'
      omega
  · have hsuffix := take_suffix_excerpt hline fun k hk => by
      by_contra hle
      exact hown ⟨k, hk, by omega⟩
    have hlength : byteOffset line p.character ≤ byteLength (d.excerpt p).text := by
      obtain ⟨before, hbefore⟩ := hsuffix
      rw [← hbefore, byteLength_append, byteOffset]
      exact Nat.le_add_left _ _
    constructor
    · intro hlt
      omega
    · rintro ⟨k, hk, hpast, -⟩
      exact absurd ⟨k, hk, hpast⟩ hown

/-! ## The cut before the word -/

variable {word : Word}

/-- When the excerpt has as many bytes as there are from the start of the word to the cursor, it is
cut before them. -/
theorem exists_cut (hline : d.line? p.line = some line) (hword : d.wordAt? p = some word)
    (hle : byteOffset line p.character - word.sigilStart ≤ byteLength (d.excerpt p).text) :
    ∃ before piece, d.beforeWord? p word = some before ∧ (d.excerpt p).text = before ++ piece ∧
      byteLength piece = byteOffset line p.character - word.sigilStart ∧
      (word.sigilStart ≤ byteOffset line p.character →
        IsSlice line word.sigilStart (byteOffset line p.character) piece) := by
  obtain ⟨line', hline', hbetween⟩ := between_of_wordAt? hword
  cases hline.symm.trans hline'
  rcases Word.before_of_between hbetween with ⟨piece, -, hleft⟩ | ⟨dashes, hbefore⟩
  · have htyped : byteOffset line p.character - word.sigilStart = byteLength piece := by
      rw [byteOffset, hleft, byteLength_append, Word.sigilStart]
      exact Nat.add_sub_cancel_left _ _
    obtain ⟨before, htext⟩ : piece <:+ (d.excerpt p).text :=
      suffix_excerpt hline ⟨word.before, hleft.symm⟩ (htyped ▸ hle)
    refine ⟨before, piece, beforeWord?_of_append hline htext.symm htyped, htext.symm, htyped.symm,
      fun _ => ⟨word.before, line.drop p.character, ?_, rfl, ?_⟩⟩
    · rw [← hleft, List.take_append_drop]
    · rw [← hleft, byteOffset]
  · -- The cursor is before the word, in or before its dashes.
    have hstart : word.sigilStart = byteOffset line p.character + byteLength dashes := by
      rw [Word.sigilStart, hbefore, byteLength_append, byteOffset]
    have htyped : byteOffset line p.character - word.sigilStart = byteLength [] := by
      rw [byteLength_nil]
      omega
    have htext := (List.append_nil (d.excerpt p).text).symm
    refine ⟨_, [], beforeWord?_of_append hline htext htyped, htext, htyped.symm, fun hle => ?_⟩
    refine ⟨line.take p.character, line.drop p.character, ?_, ?_, ?_⟩
    · rw [List.append_nil, List.take_append_drop]
    · rw [hstart, byteOffset]
      omega
    · rw [List.append_nil, byteOffset]

theorem beforeWord?_eq_none_iff (hline : d.line? p.line = some line)
    (hword : d.wordAt? p = some word) :
    d.beforeWord? p word = none ↔
      byteLength (d.excerpt p).text < byteOffset line p.character - word.sigilStart := by
  constructor
  · intro hnone
    by_contra hle
    obtain ⟨before, piece, hbefore, -⟩ := exists_cut hline hword (by omega)
    rw [hnone] at hbefore
    cases hbefore
  · intro hlt
    simp only [beforeWord?, hline, Nat.not_le.mpr hlt, ↓reduceIte]

theorem found_of_beforeWord?_eq_none (registry : Registry) (settings : Settings)
    (hword : d.wordAt? p = some word) (h : d.beforeWord? p word = none) :
    d.found registry settings p = .nothing := by
  have htarget : d.cursorTarget? settings p = none := by
    cases hsection : d.sectionCategory? settings p.line <;>
      simp [cursorTarget?, hsection, hword, h]
  simp only [found, htarget]

/-- Every cut around the cursor falls between two characters and leaves the right text. On the
cursor line the cursor is a boundary, so that the word under it can be looked for. The excerpt is
cut at a boundary, and it is the text before the word with what the line has from the word's sigil
to the cursor. When the cursor is before the word, it is not cut. There is no text before the word,
and nothing is found, just when the line is a key line with the cursor past its colon and the word's
sigil before the end of the colon. The offsets of a scope are boundaries of the text that it is
found in, first that of the owner and then that past the opener. -/
theorem cursor_slices (d : Document) (settings : Settings) (p : Position) :
    (∀ line, d.line? p.line = some line →
      IsBoundary line (byteOffset line p.character) ∧
      ∃ word?, wordAt line (byteOffset line p.character) = .ok word? ∧ d.wordAt? p = word?) ∧
    (∀ line word, d.line? p.line = some line → d.wordAt? p = some word →
      let cursor := byteOffset line p.character
      let text := (d.excerpt p).text
      let start := word.sigilStart
      (cursor - start ≤ byteLength text →
        IsBoundary text (byteLength text - (cursor - start)) ∧
        ∃ before, d.beforeWord? p word = some before ∧
          byteLength before = byteLength text - (cursor - start) ∧
          (start ≤ cursor → ∃ piece, IsSlice line start cursor piece ∧ text = before ++ piece) ∧
          (cursor < start → before = text)) ∧
      (d.beforeWord? p word = none ↔ byteLength text < cursor - start) ∧
      (byteLength text < cursor - start ↔ ∃ k, KeyLine.parse? line = some k ∧
        k.valueOffset ≤ cursor ∧ start < k.valueOffset) ∧
      (d.beforeWord? p word = none → ∀ registry, d.found registry settings p = .nothing)) ∧
    (∀ text more scope, Scope.find? text = some scope →
      IsBoundary text (scope.openOffset + 1) ∧ IsBoundary (text ++ more) scope.nameOffset ∧
      scope.nameOffset < scope.openOffset ∧ scope.openOffset + 1 ≤ byteLength text ∧
      IsSlice text (scope.openOffset + 1) (byteLength text) scope.inner ∧
      IsSlice (text ++ more) 0 scope.nameOffset scope.before) := by
  refine ⟨fun line hline => ⟨?_, ?_⟩, fun line word hline hword =>
    ⟨fun hle => ?_, beforeWord?_eq_none_iff hline hword, byteLength_excerpt_lt_iff hline _,
      fun hnone registry => found_of_beforeWord?_eq_none registry settings hword hnone⟩,
    fun text more scope hscope => ?_⟩
  · exact ⟨line.take p.character, line.drop p.character, (List.take_append_drop _ _).symm, rfl⟩
  · refine ⟨_, wordAt_byteOffset line p.character, ?_⟩
    simp only [wordAt?, hline, wordAt_byteOffset]
  · obtain ⟨before, piece, hbefore, htext, hpiece, hslice⟩ := exists_cut hline hword hle
    have hlength : byteLength before = byteLength (d.excerpt p).text -
        (byteOffset line p.character - word.sigilStart) := by
      rw [htext, byteLength_append]
      omega
    refine ⟨⟨before, piece, htext, hlength⟩, before, hbefore, hlength,
      fun hstart => ⟨piece, hslice hstart, htext⟩, fun hcursor => ?_⟩
    have hnil : piece = [] := by
      by_contra hne
      have := byteLength_pos hne
      omega
    rw [htext, hnil, List.append_nil]
  · obtain ⟨hinner, hbefore⟩ := Scope.slices_of_find? hscope more
    obtain ⟨hname, hopen, -⟩ := Scope.offsets_of_find? hscope
    exact ⟨hinner.isBoundary_start, hbefore.isBoundary_stop, hname, hopen, hinner, hbefore⟩

/-- A negated condition behind letters of two bytes, cut before the cursor and inside the arguments
before it, a cursor among the dashes before a word, and one right behind the colon of a key. -/
theorem cursor_slices_accented :
    let line := "- ä\x7bm=é\x7d ?!Nächte".toList
    let d := ofText .lineFeed ("Skills:\n".toList ++ line ++ "\n--x".toList)
    let w : Word := ⟨"- ä\x7bm=é\x7d ".toList, some .negatedCondition, "Nächte".toList⟩
    let x : Word := ⟨"--".toList, none, "x".toList⟩
    let key : Word := ⟨[], none, "Skills:".toList⟩
    let scope : Scope := ⟨"é-".toList, none, "a".toList, [], .brace, "m=é".toList⟩
    (d.line? 1 = some line ∧ d.wordAt? ⟨1, 13⟩ = some w ∧
      IsBoundary line (byteOffset line 13) ∧
      ∃ before piece, d.beforeWord? ⟨1, 13⟩ w = some before ∧ IsSlice line 11 16 piece ∧
        (d.excerpt ⟨1, 13⟩).text = before ++ piece) ∧
    (d.wordAt? ⟨2, 1⟩ = some x ∧
      ∃ before, d.beforeWord? ⟨2, 1⟩ x = some before ∧ before = (d.excerpt ⟨2, 1⟩).text) ∧
    (d.wordAt? ⟨0, 7⟩ = some key ∧ d.beforeWord? ⟨0, 7⟩ key = none ∧
      d.found Registry.empty .standard ⟨0, 7⟩ = .nothing) ∧
    Scope.find? "é-a\x7bm=é".toList = some scope ∧ IsBoundary "é-a\x7bm=é".toList 5 ∧
      IsBoundary ("é-a\x7bm=é".toList ++ ['ä']) 3 := by
  intro line d w x key scope
  have hline : d.line? 1 = some line := by decide +kernel
  have hw : d.wordAt? ⟨1, 13⟩ = some w := by decide +kernel
  have hx : d.wordAt? ⟨2, 1⟩ = some x := by decide +kernel
  have hkey : d.wordAt? ⟨0, 7⟩ = some key := by decide +kernel
  have hscope : Scope.find? "é-a\x7bm=é".toList = some scope := by decide +kernel
  obtain ⟨hboundary, hcut, -⟩ := cursor_slices d .standard ⟨1, 13⟩
  obtain ⟨-, before, hbefore, -, hslice, -⟩ := (hcut line w hline hw).1 (by decide +kernel)
  obtain ⟨piece, hpiece, htext⟩ := hslice (by decide +kernel)
  obtain ⟨-, before', hbefore', -, -, hsame⟩ := ((cursor_slices d .standard ⟨2, 1⟩).2.1
    "--x".toList x (by decide +kernel) hx).1 (by decide +kernel)
  obtain ⟨-, hrefused, hlt, hnothing⟩ := (cursor_slices d .standard ⟨0, 7⟩).2.1
    "Skills:".toList key (by decide +kernel) hkey
  have hnone := hrefused.mpr (hlt.mpr ⟨⟨[], "Skills".toList, "Skills", []⟩, by decide +kernel,
    by decide +kernel, by decide +kernel⟩)
  obtain ⟨hopen, hname, -⟩ := (cursor_slices d .standard ⟨0, 7⟩).2.2 _ ['ä'] scope hscope
  exact ⟨⟨hline, hw, (hboundary line hline).1, before, piece, hbefore, hpiece, htext⟩,
    ⟨hx, before', hbefore', hsame (by decide +kernel)⟩, ⟨hkey, hnone, hnothing hnone _⟩, hscope,
    hopen, hname⟩

end Document

end SkillScript
