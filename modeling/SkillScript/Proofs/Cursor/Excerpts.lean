import SkillScript.Proofs.Cursor.Hover

/-!
# Where the excerpt before the cursor starts

The excerpt is cut twice: at the key that bounds it, and where it starts over at a list item.
Offsets into it are turned into places of the document by its base line, so both cuts have to keep
count.

* `restart_restart`: behind the last list item outside square brackets there is no other one.
* `Document.excerptLines_past_colon`: the first cut is past the colon of the key, unless the cursor
  is before it.
* `Document.excerpt_bounds`: the excerpt ends the text before the cursor, has a line feed for every
  line from its base line to the cursor line, starts past its key, and has no place to start over.
-/

namespace SkillScript

/-! ## Starting over -/

/-- The search for the last list item ends with what it started with, or at an item outside square
brackets. -/
theorem lastItem_eq_or (depth index best : Nat) (lines : List (List Char)) :
    lastItem depth index best lines = best ∨
      ∃ before item rest, lines = before ++ item :: rest ∧ 0 < index + before.length ∧
        before.flatten.foldl bracketNest depth = 0 ∧ startsItem item = true ∧
        lastItem depth index best lines = index + before.length := by
  induction lines generalizing depth index best with
  | nil => exact .inl rfl
  | cons line lines ih =>
    rw [lastItem]
    rcases ih (line.foldl bracketNest depth) (index + 1)
      (if 0 < index && depth == 0 && startsItem line then index else best) with
      h | ⟨before, item, rest, rfl, -, hdepth, hitem, hlast⟩
    · rw [h]
      split
      · next hline =>
        simp only [Bool.and_eq_true, decide_eq_true_eq, beq_iff_eq] at hline
        exact .inr ⟨[], line, lines, rfl, hline.1.1, hline.1.2, hline.2, rfl⟩
      · exact .inl rfl
    · refine .inr ⟨line :: before, item, rest, rfl, ?_, ?_, hitem, ?_⟩
      · rw [List.length_cons]
        omega
      · rw [List.flatten_cons, List.foldl_append, hdepth]
      · rw [hlast, List.length_cons]
        omega

theorem restart_suffix (lines : List (List Char)) : restart lines <:+ lines :=
  List.drop_suffix _ _

theorem restart_restart (lines : List (List Char)) : restart (restart lines) = restart lines := by
  rcases lastItem_eq_or 0 0 0 lines with h | ⟨before, item, rest, rfl, hpos, hdepth, hitem, hlast⟩
  · have hsame : restart lines = lines := by rw [restart, h, List.drop_zero]
    rw [hsame, hsame]
  · have hitems : restart (before ++ item :: rest) = item :: rest := by
      rw [restart, hlast, Nat.zero_add, List.drop_left]
    have hne : before ≠ [] := List.length_pos_iff.mp (by omega)
    rw [hitems, ← restart_append hne hdepth hitem, hitems]

/-- After starting over, no later line starts a list item outside square brackets. -/
theorem startsItem_of_restart {lines before rest : List (List Char)} {item : List Char}
    (h : restart lines = before ++ item :: rest) (hbefore : before ≠ [])
    (hdepth : before.flatten.foldl bracketNest 0 = 0) : startsItem item = false := by
  by_contra hitem
  rw [Bool.not_eq_false] at hitem
  have hagain : before ++ item :: rest = restart (item :: rest) := by
    rw [← restart_append hbefore hdepth hitem, ← h, restart_restart]
  have hlength := (restart_suffix (item :: rest)).length_le
  rw [← hagain, List.length_append] at hlength
  have := List.length_pos_iff.mpr hbefore
  omega

/-- Line feeds do not count as brackets. -/
theorem foldl_bracketNest_splitAtChar (depth : Nat) (cs : List Char) :
    (splitAtChar '\n' cs).flatten.foldl bracketNest depth = cs.foldl bracketNest depth := by
  fun_induction splitAtChar '\n' cs generalizing depth with
  | case1 => rfl
  | case2 cs ih => simpa [bracketNest] using ih depth
  | case3 c cs hc piece rest h ih => simpa [h] using ih (bracketNest depth c)
  | case4 c cs hc h => exact absurd h (splitAtChar_ne_nil _ cs)

/-- The first piece of a text reaches to the first separator. -/
theorem exists_splitAtChar_eq_cons (sep : Char) (cs : List Char) :
    ∃ rest, splitAtChar sep cs = cs.takeWhile (· != sep) :: rest := by
  fun_induction splitAtChar sep cs with
  | case1 => exact ⟨[], rfl⟩
  | case2 cs ih => exact ⟨splitAtChar sep cs, by simp⟩
  | case3 c cs hc piece rest h ih =>
    obtain ⟨rest', hrest⟩ := ih
    cases h.symm.trans hrest
    exact ⟨rest, by simp [hc]⟩
  | case4 c cs hc h => exact absurd h (splitAtChar_ne_nil sep cs)

namespace Document

variable {d : Document} {p : Position} {key : Key}

/-! ## The lines before the cursor -/

theorem length_linesBetween (d : Document) (start : Nat) (p : Position) :
    (d.linesBetween start p).length = p.line - start + 1 := by
  simp [linesBetween]

theorem lineFeed_notMem_linesBetween (d : Document) (start : Nat) (p : Position) :
    ∀ line ∈ d.linesBetween start p, '\n' ∉ line := by
  have hline : ∀ n, '\n' ∉ (d.line? n).getD [] := by
    intro n
    cases h : d.line? n with
    | none => simp
    | some text => exact d.lineFeed_notMem text (List.mem_of_getElem? h)
  intro line hmem
  rcases List.mem_append.mp hmem with hmem | hmem
  · obtain ⟨n, -, rfl⟩ := List.mem_map.mp hmem
    exact hline n
  · rw [List.mem_singleton.mp hmem, linePrefix?]
    intro hfeed
    refine hline p.line ?_
    cases h : d.line? p.line with
    | none => simp [h] at hfeed
    | some text =>
      rw [h] at hfeed
      exact List.mem_of_mem_take hfeed

theorem linesBetween_suffix {start : Nat} (h : start ≤ p.line) :
    d.linesBetween start p <:+ d.linesBetween 0 p := by
  refine ⟨(List.range' 0 start).map fun n => (d.line? n).getD [], ?_⟩
  have hrange := @List.range'_append_1 0 start (p.line - start)
  rw [Nat.zero_add, Nat.add_sub_cancel' h] at hrange
  rw [linesBetween, linesBetween, Nat.sub_zero, ← hrange, List.map_append, List.append_assoc]

/-! ## The cut at the key -/

theorem length_dropKey (lines : List (List Char)) : (dropKey lines).length = lines.length := by
  cases lines with
  | nil => rfl
  | cons line rest =>
    rw [dropKey]
    split <;> rfl

/-- What is dropped with a key is the start of the first line. -/
theorem dropKey_cons (line : List Char) (rest : List (List Char)) :
    ∃ value, value <:+ line ∧ dropKey (line :: rest) = value :: rest := by
  rw [dropKey]
  split
  · next k hk => exact ⟨k.value, KeyLine.value_suffix hk, rfl⟩
  · exact ⟨line, List.suffix_refl line, rfl⟩

theorem lineFeed_notMem_dropKey {lines : List (List Char)} (h : ∀ line ∈ lines, '\n' ∉ line) :
    ∀ line ∈ dropKey lines, '\n' ∉ line := by
  cases lines with
  | nil => exact h
  | cons first rest =>
    obtain ⟨value, hvalue, hdrop⟩ := dropKey_cons first rest
    rw [hdrop]
    intro line hline hfeed
    rcases List.mem_cons.mp hline with rfl | hline
    · exact h first List.mem_cons_self (hvalue.subset hfeed)
    · exact h line (List.mem_cons_of_mem _ hline) hfeed

theorem intercalate_dropKey_suffix (lines : List (List Char)) :
    List.intercalate ['\n'] (dropKey lines) <:+ List.intercalate ['\n'] lines := by
  cases lines with
  | nil => exact List.suffix_refl _
  | cons line rest =>
    obtain ⟨value, ⟨lead, rfl⟩, hdrop⟩ := dropKey_cons line rest
    rw [hdrop, intercalate_cons_append]
    exact List.suffix_append _ _

theorem boundary?_eq_or (d : Document) (n : Nat) :
    d.boundary? n = (d.keyAt? n).or (d.ancestors n).head? := by
  unfold boundary?
  cases d.keyAt? n <;> rfl

/-- The key that bounds the excerpt is a key of the document, on the cursor line or above it. -/
theorem defined_of_boundary? {n : Nat} (h : d.boundary? n = some key) :
    d.keyAt? key.line = some key ∧ key.line ≤ n := by
  unfold boundary? at h
  split at h
  · next own hown =>
    cases h
    rw [line_of_keyAt? hown]
    exact ⟨hown, Nat.le_refl n⟩
  · obtain ⟨text, htext⟩ := exists_line?_of_ancestors h
    have hnear := (head?_ancestors_iff htext key).mp h
    exact ⟨hnear.defined, Nat.le_of_lt hnear.above⟩

/-- The line on which the lines of the excerpt start, before it starts over. -/
def excerptBase (d : Document) (n : Nat) : Nat := (d.boundary? n).elim 0 Key.line

theorem excerpt_baseLine_eq (d : Document) (p : Position) :
    (d.excerpt p).baseLine = d.excerptBase p.line + lastItem 0 0 0 (d.excerptLines p) := by
  unfold excerpt excerptBase excerptLines
  cases d.boundary? p.line <;> rfl

theorem excerptBase_le (d : Document) (n : Nat) : d.excerptBase n ≤ n := by
  unfold excerptBase
  cases h : d.boundary? n with
  | none => exact Nat.zero_le n
  | some key => exact (defined_of_boundary? h).2

theorem length_excerptLines (d : Document) (p : Position) :
    (d.excerptLines p).length = p.line - d.excerptBase p.line + 1 := by
  unfold excerptLines excerptBase
  cases d.boundary? p.line with
  | none => exact length_linesBetween d 0 p
  | some key => exact (length_dropKey _).trans (length_linesBetween d key.line p)

theorem excerptLines_ne_nil (d : Document) (p : Position) : d.excerptLines p ≠ [] := by
  rw [← List.length_pos_iff, length_excerptLines]
  exact Nat.succ_pos _

theorem lineFeed_notMem_excerptLines (d : Document) (p : Position) :
    ∀ line ∈ d.excerptLines p, '\n' ∉ line := by
  unfold excerptLines
  cases d.boundary? p.line with
  | none => exact lineFeed_notMem_linesBetween d 0 p
  | some key => exact lineFeed_notMem_dropKey (lineFeed_notMem_linesBetween d key.line p)

theorem intercalate_excerptLines_suffix (d : Document) (p : Position) :
    List.intercalate ['\n'] (d.excerptLines p) <:+ d.textBetween 0 p := by
  unfold excerptLines
  cases h : d.boundary? p.line with
  | none => exact List.suffix_refl _
  | some key =>
    have hlines := linesBetween_suffix (d := d) (defined_of_boundary? h).2
    exact (intercalate_dropKey_suffix _).trans (intercalate_suffix ['\n'] hlines)

/-- Unless the cursor is before the end of the colon, the lines of the excerpt start past it. -/
theorem excerptLines_past_colon {text : List Char} {k : KeyLine}
    (hkey : d.boundary? p.line = some key) (htext : d.line? key.line = some text)
    (hk : KeyLine.parse? text = some k)
    (hpast : p.line = key.line → (k.indent ++ k.token).length + 1 ≤ p.character) :
    ∃ value rest, d.linesBetween key.line p = (k.indent ++ k.token ++ ':' :: value) :: rest ∧
      d.excerptLines p = value :: rest := by
  obtain ⟨hline, hblank, ⟨name, htoken, -⟩, hvalue⟩ := KeyLine.written_of_parse? hk
  -- What is before the cursor on the line of the key is a key line too.
  obtain ⟨value, rest, hlines, hvalue⟩ : ∃ value rest,
      d.linesBetween key.line p = (k.indent ++ k.token ++ ':' :: value) :: rest ∧
        IsValue value := by
    rcases Nat.lt_or_eq_of_le (defined_of_boundary? hkey).2 with habove | hown
    · refine ⟨k.value, d.linesBetween (key.line + 1) p, ?_, hvalue⟩
      rw [← hline]
      have hsplit := linesBetween_eq_append (d := d) (Nat.lt_succ_self key.line) habove p.character
      simpa [htext] using hsplit
    · obtain ⟨more, hmore⟩ : ∃ more, p.character = (k.indent ++ k.token).length + (more + 1) :=
        ⟨p.character - ((k.indent ++ k.token).length + 1), by have := hpast hown.symm; omega⟩
      refine ⟨k.value.take more, [], ?_, fun c hc => hvalue c ?_⟩
      · have htake : text.take p.character = k.indent ++ k.token ++ ':' :: k.value.take more := by
          rw [hmore, hline, List.take_length_add_append, List.take_succ_cons]
        simp [linesBetween, linePrefix?, ← hown, htext, htake]
      · cases more with
        | zero => simp at hc
        | succ more => rwa [List.head?_take, if_neg (Nat.succ_ne_zero more)] at hc
  refine ⟨value, rest, hlines, ?_⟩
  have hparse := KeyLine.parse?_token hblank htoken value
  rw [if_pos hvalue] at hparse
  simp only [excerptLines, hkey, hlines, dropKey, hparse]

/-! ## The excerpt -/

/-- The lines of the excerpt are those that are left when it starts over. -/
theorem splitAtChar_excerpt (d : Document) (p : Position) :
    splitAtChar '\n' (d.excerpt p).text = restart (d.excerptLines p) := by
  have hsuffix := restart_suffix (d.excerptLines p)
  rw [excerpt_text_eq, splitAtChar_intercalate]
  · have hlt := lastItem_lt 0 0 0 (d.excerptLines p)
      (by simpa using List.length_pos_iff.mpr (excerptLines_ne_nil d p))
    rw [restart, Ne, List.drop_eq_nil_iff]
    omega
  · exact fun line hline => lineFeed_notMem_excerptLines d p line (hsuffix.subset hline)

theorem excerpt_text_suffix (d : Document) (p : Position) :
    (d.excerpt p).text <:+ List.intercalate ['\n'] (d.excerptLines p) := by
  rw [excerpt_text_eq]
  exact intercalate_suffix ['\n'] (restart_suffix _)

/-- Unless the cursor is before the end of the colon, the excerpt starts past it. -/
theorem excerpt_past_colon (hkey : d.boundary? p.line = some key) :
    ∃ text k, d.line? key.line = some text ∧ KeyLine.parse? text = some k ∧
      ((p.line = key.line → (k.indent ++ k.token).length + 1 ≤ p.character) →
        ∃ rest, d.textBetween key.line p = k.indent ++ k.token ++ ':' :: rest ∧
          (d.excerpt p).text <:+ rest) := by
  obtain ⟨text, htext, hread⟩ := exists_line?_of_keyAt? (defined_of_boundary? hkey).1
  obtain ⟨k, hk, -⟩ := Option.map_eq_some_iff.mp hread
  refine ⟨text, k, htext, hk, fun hpast => ?_⟩
  obtain ⟨value, rest, hlines, hexcerpt⟩ := excerptLines_past_colon hkey htext hk hpast
  refine ⟨List.intercalate ['\n'] (value :: rest), ?_, hexcerpt ▸ excerpt_text_suffix d p⟩
  have hlead := intercalate_cons_append ['\n'] (k.indent ++ k.token ++ [':']) value rest
  rw [textBetween, hlines]
  simpa using hlead

/-- The excerpt has a line feed for every line from its base line to the cursor line. -/
theorem excerpt_baseLine_add_count (d : Document) (p : Position) :
    (d.excerpt p).baseLine + (d.excerpt p).text.count '\n' = p.line := by
  have hcount := length_splitAtChar '\n' (d.excerpt p).text
  rw [splitAtChar_excerpt, restart, List.length_drop, length_excerptLines] at hcount
  have hle := excerptBase_le d p.line
  have hlt := lastItem_lt 0 0 0 (d.excerptLines p) (by rw [length_excerptLines]; omega)
  rw [length_excerptLines] at hlt
  rw [excerpt_baseLine_eq]
  omega

/-- Behind a line feed of the excerpt, a list item stands inside square brackets. -/
theorem excerpt_item_nested {before rest : List Char}
    (h : (d.excerpt p).text = before ++ '\n' :: rest)
    (hitem : startsItem (rest.takeWhile (· != '\n')) = true) : before.foldl bracketNest 0 ≠ 0 := by
  intro hdepth
  obtain ⟨more, hrest⟩ := exists_splitAtChar_eq_cons '\n' rest
  have hlines := splitAtChar_excerpt d p
  rw [h, splitAtChar_append, hrest] at hlines
  rw [← foldl_bracketNest_splitAtChar] at hdepth
  have hnone := startsItem_of_restart hlines.symm (splitAtChar_ne_nil _ before) hdepth
  rw [hitem] at hnone
  cases hnone

/-- The excerpt before the cursor ends the text before the cursor and has one line feed for every
line from its base line to the cursor line. It starts on the line of the key that bounds it or
below, and past the colon of the key unless the cursor is on that line and before the end of the
colon. No line after its first starts a list item outside the square brackets that are open from its
start, so starting over once more changes nothing. -/
theorem excerpt_bounds (d : Document) (p : Position) :
    let e := d.excerpt p
    e.text <:+ d.textBetween 0 p ∧
    e.baseLine + e.text.count '\n' = p.line ∧
    (∀ key, (d.keyAt? p.line).or (d.ancestors p.line).head? = some key →
      key.line ≤ e.baseLine ∧
      ∃ text k, d.line? key.line = some text ∧ KeyLine.parse? text = some k ∧
        ((p.line = key.line → (k.indent ++ k.token).length + 1 ≤ p.character) →
          ∃ rest, d.textBetween key.line p = k.indent ++ k.token ++ ':' :: rest ∧
            e.text <:+ rest)) ∧
    (∀ before rest, e.text = before ++ '\n' :: rest →
      startsItem (rest.takeWhile (· != '\n')) = true → before.foldl bracketNest 0 ≠ 0) ∧
    List.intercalate ['\n'] (restart (splitAtChar '\n' e.text)) = e.text := by
  intro e
  have hsuffix := excerpt_text_suffix d p
  refine ⟨hsuffix.trans (intercalate_excerptLines_suffix d p), excerpt_baseLine_add_count d p,
    fun key hkey => ?_, fun before rest => excerpt_item_nested, ?_⟩
  · rw [← boundary?_eq_or] at hkey
    refine ⟨?_, excerpt_past_colon hkey⟩
    rw [excerpt_baseLine_eq, excerptBase, hkey]
    exact Nat.le_add_right _ _
  · rw [splitAtChar_excerpt, restart_restart, excerpt_text_eq]

/-- The excerpt of a nested list item under a quoted key, with a list item before it that is written
inside other brackets. -/
theorem excerpt_bounds_quoted :
    let d := ofText .lineFeed "A: b\n\"Skills\": x[\n- a\n- b]\n- c\x7bd=[\n- e f".toList
    let p : Position := ⟨5, 3⟩
    let key : Key := ⟨"Skills", 1, 0⟩
    d.excerpt p = ⟨4, "- c\x7bd=[\n- e".toList⟩ ∧
      (d.keyAt? 5).or (d.ancestors 5).head? = some key ∧
      "- c\x7bd=[\n- e".toList <:+ d.textBetween 0 p ∧
      4 + "- c\x7bd=[\n- e".toList.count '\n' = 5 ∧
      (∃ rest, d.textBetween 1 p = "\"Skills\"".toList ++ ':' :: rest ∧
        "- c\x7bd=[\n- e".toList <:+ rest) ∧
      "- c\x7bd=[".toList.foldl bracketNest 0 ≠ 0 := by
  intro d p key
  have hexcerpt : d.excerpt p = ⟨4, "- c\x7bd=[\n- e".toList⟩ := by decide +kernel
  have hkey : (d.keyAt? 5).or (d.ancestors 5).head? = some key := by decide +kernel
  have hline : d.line? 1 = some "\"Skills\": x[".toList := by decide +kernel
  have hparse : KeyLine.parse? "\"Skills\": x[".toList =
      some ⟨[], "\"Skills\"".toList, "Skills", " x[".toList⟩ := by decide +kernel
  have h := excerpt_bounds d p
  rw [hexcerpt] at h
  obtain ⟨hsuffix, hcount, hbound, hitem, -⟩ := h
  obtain ⟨-, text, k, htext, hk, hpast⟩ := hbound key hkey
  cases hline.symm.trans htext
  cases hparse.symm.trans hk
  refine ⟨hexcerpt, hkey, hsuffix, hcount, hpast (fun h => absurd h (by decide)), ?_⟩
  exact hitem _ "- e".toList (by decide +kernel) (by decide +kernel)

end Document

end SkillScript
