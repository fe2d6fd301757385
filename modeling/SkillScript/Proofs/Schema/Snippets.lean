import SkillScript.Proofs.Schema.Ranges
import SkillScript.Proofs.Text.Pieces

/-!
# What an editor reads in a snippet

An editor reads a snippet as literal characters and as places to choose from. A backslash makes the
next character literal when that is a dollar sign, a closing brace or a backslash, and in a list of
choices also when it is a comma or a bar (`Snippet.parts?`). Text and choices are escaped for two
different readers and then written into one text, so neither may end the other early.

* `Snippet.alternatives?_escaped`, `Snippet.partsFrom?_escaped`: escaped text is read back
  literally, whatever follows it.
* `Snippet.alternatives?_intercalate`: a list of choices is read back up to its bar.
* `SchemaNode.candidates_decoded`: what the members of a dataset insert with a list of choices
  behind them.
-/

namespace SkillScript

namespace Snippet

/-! ## The reader -/

/-- What a snippet consists of. -/
inductive Part where
  /-- A character that is inserted as it is. -/
  | literal (c : Char)
  /-- A numbered place that is filled with one of several texts. -/
  | choice (number : List Char) (alternatives : List (List Char))
  deriving DecidableEq, Repr

/-- The characters that a backslash makes literal outside of choices. -/
def textEscapes : List Char := ['$', '\x7d', '\\']

/-- The characters that a backslash makes literal in a list of choices. -/
def choiceEscapes : List Char := textEscapes ++ [',', '|']

/-- The alternatives between commas up to the first bar, and the text behind the bar. Those in
`done` have been read before, and `current` is the start of the next. -/
def alternatives? (done : List (List Char)) (current : List Char) :
    List Char → Option (List (List Char) × List Char)
  | [] => none
  | '\\' :: c :: cs =>
    if c ∈ choiceEscapes then alternatives? done (current ++ [c]) cs
    else alternatives? done (current ++ ['\\']) (c :: cs)
  | c :: cs =>
    if c = '|' then some (done ++ [current], cs)
    else if c = ',' then alternatives? (done ++ [current]) [] cs
    else alternatives? done (current ++ [c]) cs

theorem length_of_alternatives? {done alternatives : List (List Char)} {current cs rest : List Char}
    (h : alternatives? done current cs = some (alternatives, rest)) : rest.length < cs.length := by
  fun_induction alternatives? done current cs with
  | case1 => cases h
  | case4 => cases h; simp
  | case2 | case3 | case5 | case6 => grind

/-- The place to choose from whose number starts the text, and the text behind its brace. -/
def choice? (cs : List Char) : Option (Part × List Char) :=
  let number := cs.takeWhile Char.isDigit
  match cs.dropWhile Char.isDigit with
  | '|' :: rest =>
    match alternatives? [] [] rest with
    | some (alternatives, '\x7d' :: rest) =>
      if number = [] then none else some (.choice number alternatives, rest)
    | _ => none
  | _ => none

theorem length_of_choice? {cs rest : List Char} {place : Part}
    (h : choice? cs = some (place, rest)) : rest.length < cs.length := by
  have hdrop := (List.dropWhile_suffix Char.isDigit (l := cs)).length_le
  unfold choice? at h
  extract_lets number at h
  split at h
  · next behind hbehind =>
    split at h
    · next alternatives rest' halternatives =>
      have hread := length_of_alternatives? halternatives
      rw [hbehind] at hdrop
      simp only [List.length_cons] at hdrop hread
      split at h
      · cases h
      · cases h
        omega
    · cases h
  · cases h

/-- The parts of a snippet, of which those in `done` have been read before. A dollar sign that
starts no place to choose from is refused. -/
def partsFrom? (done : List Part) : List Char → Option (List Part)
  | [] => some done
  | '\\' :: c :: cs =>
    if c ∈ textEscapes then partsFrom? (done ++ [.literal c]) cs
    else partsFrom? (done ++ [.literal '\\']) (c :: cs)
  | '$' :: '\x7b' :: cs =>
    match _h : choice? cs with
    | some (place, rest) => partsFrom? (done ++ [place]) rest
    | none => none
  | c :: cs => if c = '$' then none else partsFrom? (done ++ [.literal c]) cs
termination_by cs => cs.length
decreasing_by
  all_goals simp only [List.length_cons]
  · omega
  · omega
  · have := length_of_choice? _h
    omega
  · omega

/-- The parts of a snippet. -/
def parts? (cs : List Char) : Option (List Part) := partsFrom? [] cs

/-! ## Escaped text -/

theorem escapeWhere_cons (special : Char → Bool) (c : Char) (cs : List Char) :
    escapeWhere special (c :: cs) =
      (if special c then ['\\', c] else [c]) ++ escapeWhere special cs :=
  List.flatMap_cons

/-- An escaped alternative is read to its end, whatever follows it. -/
theorem alternatives?_escaped (done : List (List Char)) (current text rest : List Char) :
    alternatives? done current (escapeWhere isChoiceSpecial text ++ rest) =
      alternatives? done (current ++ text) rest := by
  induction text generalizing current with
  | nil => simp [escapeWhere]
  | cons c text ih =>
    have hnext := ih (current ++ [c])
    rw [List.append_assoc, List.singleton_append] at hnext
    rw [escapeWhere_cons, ← hnext]
    by_cases hc : isChoiceSpecial c = true
    · have hmem : c ∈ choiceEscapes := by
        simpa [isChoiceSpecial, isSnippetSpecial, choiceEscapes, textEscapes, or_assoc] using hc
      simp [hc, alternatives?, hmem]
    · have hplain : c ≠ '\\' ∧ c ≠ '|' ∧ c ≠ ',' := by
        simp only [isChoiceSpecial, isSnippetSpecial, Bool.or_eq_true, beq_iff_eq, not_or] at hc
        exact ⟨hc.1.1.2, hc.2, hc.1.2⟩
      simp [hc, alternatives?, hplain]

/-- Escaped text is read literally, whatever follows it. -/
theorem partsFrom?_escaped (done : List Part) (text rest : List Char) :
    partsFrom? done (escapeWhere isSnippetSpecial text ++ rest) =
      partsFrom? (done ++ text.map .literal) rest := by
  induction text generalizing done with
  | nil => simp [escapeWhere]
  | cons c text ih =>
    have hnext := ih (done ++ [.literal c])
    rw [List.append_assoc, List.singleton_append] at hnext
    rw [escapeWhere_cons, List.map_cons, ← hnext]
    by_cases hc : isSnippetSpecial c = true
    · have hmem : c ∈ textEscapes := by
        simpa [isSnippetSpecial, textEscapes, or_assoc] using hc
      simp [hc, partsFrom?, hmem]
    · have hplain : c ≠ '\\' ∧ c ≠ '$' := by
        simp only [isSnippetSpecial, Bool.or_eq_true, beq_iff_eq, not_or] at hc
        exact ⟨hc.2, hc.1.1⟩
      simp [hc, partsFrom?, hplain]

/-! ## Places to choose from -/

/-- The choices between commas are read back up to the bar. -/
theorem alternatives?_intercalate (done : List (List Char)) {choices : List (List Char)}
    (hne : choices ≠ []) (rest : List Char) :
    alternatives? done []
        (List.intercalate [','] (choices.map (escapeWhere isChoiceSpecial)) ++ '|' :: rest) =
      some (done ++ choices, rest) := by
  induction choices generalizing done with
  | nil => exact absurd rfl hne
  | cons choice choices ih =>
    cases choices with
    | nil => simp [alternatives?_escaped, alternatives?]
    | cons next choices =>
      have hrest := ih (done ++ [choice]) (List.cons_ne_nil next choices)
      rw [List.append_assoc, List.singleton_append] at hrest
      rw [List.map_cons, List.map_cons, List.intercalate_cons_cons, ← List.map_cons,
        List.append_assoc, List.append_assoc, alternatives?_escaped]
      simpa [alternatives?] using hrest

/-- A place to choose from is read back with its number and its choices. -/
theorem choice?_place {number : List Char} {choices : List (List Char)}
    (hdigits : ∀ c ∈ number, c.isDigit = true) (hnumber : number ≠ []) (hne : choices ≠ [])
    (rest : List Char) :
    choice? (number ++ '|' :: (List.intercalate [',']
        (choices.map (escapeWhere isChoiceSpecial)) ++ '|' :: '\x7d' :: rest)) =
      some (.choice number choices, rest) := by
  have hspan : ∀ behind, (number ++ '|' :: behind).takeWhile Char.isDigit = number ∧
      (number ++ '|' :: behind).dropWhile Char.isDigit = '|' :: behind := by
    intro behind
    apply span_append hdigits
    rintro c ⟨⟩
    decide
  simp only [choice?, hspan, alternatives?_intercalate [] hne, List.nil_append, hnumber,
    ↓reduceIte]

theorem toList_escapeSnippet (s : String) :
    (escapeSnippet s).toList = escapeWhere isSnippetSpecial s.toList :=
  String.toList_ofList

theorem toList_snippetChoices (choices : List String) :
    (snippetChoices choices).toList = '$' :: '\x7b' :: (['1'] ++ '|' :: (List.intercalate [',']
      ((choices.map String.toList).map (escapeWhere isChoiceSpecial)) ++ ['|', '\x7d'])) := by
  have hchoice : String.toList ∘ escapeChoice = escapeWhere isChoiceSpecial ∘ String.toList := by
    funext s
    exact String.toList_ofList
  simp [snippetChoices, String.toList_intercalate, hchoice]

theorem partsFrom?_snippetChoices (done : List Part) {choices : List String} (hne : choices ≠ []) :
    partsFrom? done (snippetChoices choices).toList =
      some (done ++ [.choice ['1'] (choices.map String.toList)]) := by
  have hchoices : choices.map String.toList ≠ [] := by simpa using hne
  rw [toList_snippetChoices, partsFrom?, choice?_place (by simp) (by simp) hchoices]
  simp [partsFrom?]

/-- The text before a list of choices and the choices are both read back. -/
theorem parts?_choicePlace (text : List Char) (choices : List String) :
    parts? (escapeWhere isSnippetSpecial text ++ (choicePlace choices).toList) =
      some (text.map .literal ++
        if choices = [] then [] else [.choice ['1'] (choices.map String.toList)]) := by
  rw [parts?, partsFrom?_escaped, choicePlace]
  by_cases h : choices = []
  · simp [h, partsFrom?]
  · simp [h, partsFrom?_snippetChoices]

end Snippet

/-- A member with choices behind it inserts escaped text and a place to choose from. -/
theorem DatasetEntry.toList_insertText_choices (settings : Settings) (name separator : String)
    (choices : List String) (e : DatasetEntry) :
    (e.candidate settings name (some ⟨separator, .choices choices⟩)).insertText.toList =
      escapeWhere isSnippetSpecial (e.key.toList ++ separator.toList) ++
        (choicePlace choices).toList := by
  simp [candidate, Suffix.snippet, Snippet.toList_escapeSnippet, escapeWhere]

/-- For choices behind the members of a dataset, each member inserts a snippet. An editor reads in
it the member and the separator literally, and then a place with the given choices in order, or
none when there are no choices. -/
theorem SchemaNode.candidates_decoded (datasets : Datasets) (settings : Settings)
    (node : SchemaNode) (typed : List Char) (dataset : Dataset) (separator : String)
    (choices : List String) (hkind : node.kind = .list) (hentries : node.entries = [])
    (hdataset : node.dataset.bind datasets.find? = some dataset) (hmembers : dataset.entries ≠ [])
    (hsuffix : node.suffix = some ⟨separator, .choices choices⟩) :
    (node.candidates datasets settings typed).map
        (fun c => (c.snippet, Snippet.parts? c.insertText.toList)) =
      dataset.entries.map fun e =>
        (true, some ((e.key.toList ++ separator.toList).map .literal ++
          if choices = [] then [] else [.choice ['1'] (choices.map String.toList)])) := by
  rw [candidates_of_list hkind hentries hdataset hmembers, hsuffix, List.map_map]
  refine List.map_congr_left fun e _ => ?_
  rw [Function.comp_apply, DatasetEntry.toList_insertText_choices, Snippet.parts?_choicePlace]
  rfl

/-- Every special character in a member, in the separator and in the choices, one of them empty. -/
theorem SchemaNode.candidates_decoded_special :
    let d : Dataset := ⟨"D", [⟨"a$\x7bb\x7d\\", none⟩]⟩
    let node : SchemaNode :=
      { SchemaNode.ofKind .list with
        dataset := some "D", suffix := some ⟨",|\\", .choices ["\\,", "", "|\x7d$"]⟩ }
    node.dataset.bind (Datasets.find? [d]) = some d ∧ d.entries ≠ [] ∧
      (node.candidates [d] Settings.standard []).map Candidate.insertText =
        ["a\\$\x7bb\\\x7d\\\\,|\\\\$\x7b1|\\\\\\,,,\\|\\\x7d\\$|\x7d"] ∧
      (node.candidates [d] Settings.standard []).map
          (fun c => (c.snippet, Snippet.parts? c.insertText.toList)) =
        [(true, some ("a$\x7bb\x7d\\,|\\".toList.map .literal ++
          [.choice ['1'] ["\\,".toList, [], "|\x7d$".toList]]))] := by
  intro d node
  have hdataset : node.dataset.bind (Datasets.find? [d]) = some d := by decide +kernel
  have hmembers : d.entries ≠ [] := List.cons_ne_nil _ _
  refine ⟨hdataset, hmembers, by decide +kernel, ?_⟩
  rw [candidates_decoded [d] Settings.standard node [] d _ _ rfl rfl hdataset hmembers rfl]
  decide +kernel

end SkillScript
