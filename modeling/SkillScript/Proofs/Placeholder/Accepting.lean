import SkillScript.Placeholder.Completion
import SkillScript.Proofs.Placeholder.InStep
import SkillScript.Proofs.Text.Pieces

/-!
# Accepting a candidate for a placeholder

The candidates for a placeholder come from the children of the node that the elements typed so far
lead to. Accepting one that goes on with a point makes the typed elements one longer, and the longer
ones lead to the child that the candidate came from, as long as no sibling claims the new element
first. The candidates are then those of this child (`IndexedNode.Built.complete_continued`).

A literal child is found by its key, which no sibling shares. A pattern is found by what it owns,
and it owns what it offers (`Segment.literal_or_owns_of_mem_texts`). Looking up by positions and by
keys is the same (`IndexedNode.Sound.lookup?_toNode`).
-/

namespace SkillScript

/-! ## The typed expression -/

theorem behind_last_bracket {before typed : List Char} (h : ∀ c ∈ typed, c ≠ '<') :
    ((before ++ '<' :: typed).reverse.takeWhile (· != '<')).reverse = typed := by
  have hrun : ∀ c ∈ typed.reverse, (c != '<') = true := by simpa using h
  have hspan : (typed.reverse ++ '<' :: before.reverse).takeWhile (· != '<') = typed.reverse :=
    (span_append hrun (by simp)).1
  rw [List.reverse_append, List.reverse_cons, List.append_assoc, List.singleton_append, hspan,
    List.reverse_reverse]

/-- A placeholder is being typed behind the last opening bracket, until a blank or a bracket ends
it. -/
theorem expression?_eq_some_iff {text typed : List Char} :
    expression? text = some typed ↔ ∃ before, text = before ++ '<' :: typed ∧
      ∀ c ∈ typed, c ≠ '<' ∧ c ≠ '>' ∧ isBlank c = false := by
  unfold expression?
  constructor
  · intro h
    split at h
    · next hmem =>
      have hmem : '<' ∈ text.reverse := by simpa using hmem
      obtain ⟨last, before, htext, hlast⟩ := List.eq_append_cons_of_mem hmem
      have htext : text = before.reverse ++ '<' :: last.reverse := by
        rw [← List.reverse_reverse text, htext]
        simp
      have hlast : ∀ c ∈ last.reverse, c ≠ '<' := by
        rintro c hc rfl
        exact hlast (List.mem_reverse.mp hc)
      simp only [htext, behind_last_bracket hlast] at h
      split at h
      · cases h
      · next hstop =>
        obtain rfl := Option.some.inj h
        refine ⟨before.reverse, htext, fun c hc => ⟨hlast c hc, ?_⟩⟩
        simp only [List.any_eq_true, Bool.or_eq_true, beq_iff_eq, not_exists, not_and, not_or,
          Bool.not_eq_true] at hstop
        exact hstop c hc
    · cases h
  · rintro ⟨before, rfl, htyped⟩
    have hgoes : (typed.any fun c => c == '>' || isBlank c) = false := by
      rw [List.any_eq_false]
      intro c hc
      simp [htyped c hc]
    rw [if_pos (by simp)]
    simp only [behind_last_bracket fun c hc => (htyped c hc).1, hgoes]
    rfl

/-- The end of the expression may be typed anew. -/
theorem expression?_retyped {text path typed retyped : List Char}
    (h : expression? (text ++ typed) = some (path ++ typed))
    (hretyped : ∀ c ∈ retyped, c ≠ '<' ∧ c ≠ '>' ∧ isBlank c = false) :
    expression? (text ++ retyped) = some (path ++ retyped) := by
  obtain ⟨before, htext, hpath⟩ := expression?_eq_some_iff.mp h
  have htext : text = before ++ '<' :: path := by
    rw [← List.cons_append, ← List.append_assoc] at htext
    exact List.append_cancel_right htext
  refine expression?_eq_some_iff.mpr ⟨before, by rw [htext]; simp, ?_⟩
  rw [List.forall_mem_append] at hpath ⊢
  exact ⟨hpath.1, hretyped⟩

namespace Node

/-- The elements before the one that is being typed. A point ends this one and begins another. -/
theorem exists_elements {path : List Char} (h : path = [] ∨ path.getLast? = some '.') :
    ∃ done, ∀ typed, '.' ∉ typed →
      elements (path ++ typed) = done ++ [String.ofList typed] ∧
        elements (path ++ (typed ++ ['.'])) = done ++ [String.ofList typed, ""] := by
  have hpoint : ∀ typed : List Char, '.' ∉ typed →
      splitAtChar '.' (typed ++ ['.']) = [typed, []] := fun typed htyped => by
    rw [splitAtChar_append, splitAtChar_of_notMem htyped]
    rfl
  rcases h with rfl | h
  · refine ⟨[], fun typed htyped => ?_⟩
    simp only [elements, List.nil_append, splitAtChar_of_notMem htyped, hpoint typed htyped]
    exact ⟨rfl, rfl⟩
  · obtain ⟨lead, rfl⟩ := List.getLast?_eq_some_iff.mp h
    refine ⟨elements lead, fun typed htyped => ?_⟩
    simp only [elements, List.append_assoc, List.singleton_append, splitAtChar_append,
      List.map_append, splitAtChar_of_notMem htyped, hpoint typed htyped]
    exact ⟨rfl, rfl⟩

/-! ## Looking up -/

theorem lookup?_append (path rest : List String) (n : Node) :
    n.lookup? (path ++ rest) = (n.lookup? path).bind (lookup? rest) := by
  induction path generalizing n with
  | nil => rfl
  | cons value path ih =>
    rw [List.cons_append, lookup?, lookup?, Option.bind_assoc]
    exact congrArg _ (funext ih)

section Matching

variable {n c : Node} {value : String}

/-- A literal child is found by its key. -/
theorem Distinct.matching?_literal (h : n.Distinct) (hc : c ∈ n.children)
    (hliteral : c.segment.isScripted = false) (hkey : c.key = lower value) :
    n.matching? value = some c := by
  have hchild : (n.child? (lower value)).filter (!·.segment.isScripted) = some c := by
    rw [← hkey, h.child?_key hc]
    simp [Option.filter, hliteral]
  rw [matching?, hchild]

/-- A pattern is found by what it owns, when no literal sibling is found by its key and no sibling
before it owns the same. -/
theorem matching?_pattern {before after : List Node} (hchildren : n.children = before ++ c :: after)
    (howns : c.segment.owns value = true)
    (hliteral : ∀ s ∈ n.children, s.segment.isScripted = false → s.key ≠ lower value)
    (hbefore : ∀ s ∈ before, s.segment.owns value = false) : n.matching? value = some c := by
  have hnone : (n.child? (lower value)).filter (!·.segment.isScripted) = none := by
    rw [Option.filter_eq_none_iff]
    intro s hs hscripted
    have hkey : s.key = lower value := by simpa using List.find?_some hs
    exact hliteral s (List.mem_of_find?_eq_some hs) (by simpa using hscripted) hkey
  have hskip : before.find? (·.segment.owns value) = none := by
    simpa using hbefore
  rw [matching?, hnone]
  simp only [hchildren, List.find?_append, hskip, Option.none_or, List.find?_cons, howns]

end Matching

end Node

namespace IndexedNode

section Lookup

variable {n m : IndexedNode}

theorem Sound.matching?_toNode (h : n.Sound) (value : String) :
    n.toNode.matching? value = (n.matching? value).map toNode := by
  have hliteral : (n.toNode.child? (lower value)).filter (!·.segment.isScripted) =
      ((n.child? (lower value)).filter (!·.segment.isScripted)).map toNode := by
    rw [h.child?_toNode, Option.filter_map]
    simp only [Function.comp_def, segment_toNode]
  rw [Node.matching?, matching?, hliteral]
  cases (n.child? (lower value)).filter (!·.segment.isScripted) with
  | some child => rfl
  | none =>
    simp only [Option.map_none, children_toNode, List.find?_map, Function.comp_def, segment_toNode]

theorem mem_children_of_matching? {value : String} (h : n.matching? value = some m) :
    m ∈ n.children := by
  unfold matching? at h
  split at h
  · next hchild =>
    obtain rfl := Option.some.inj h
    obtain ⟨i, -, hi⟩ := Option.bind_eq_some_iff.mp (Option.filter_eq_some_iff.mp hchild).1
    exact List.mem_of_getElem? hi
  · exact List.mem_of_find?_eq_some h

theorem Sound.lookup?_toNode (h : n.Sound) (path : List String) :
    n.toNode.lookup? path = (n.lookup? path).map toNode := by
  induction path generalizing n with
  | nil => rfl
  | cons value path ih =>
    rw [Node.lookup?, lookup?, h.matching?_toNode]
    cases hm : n.matching? value with
    | some m => exact ih (h.child (mem_children_of_matching? hm))
    | none => rfl

theorem Sound.of_lookup? (h : n.Sound) {path : List String} (hm : n.lookup? path = some m) :
    m.Sound := by
  induction path generalizing n with
  | nil => exact Option.some.inj hm ▸ h
  | cons value path ih =>
    obtain ⟨c, hc, hm⟩ := Option.bind_eq_some_iff.mp hm
    exact ih (h.child (mem_children_of_matching? hc)) hm

end Lookup

end IndexedNode

/-! ## What is offered for a child -/

/-- The mark behind a text can be told from the text. -/
theorem append_mark_inj {a b m k : String} (h : a ++ m = b ++ k) (hmark : m.length = k.length) :
    a = b ∧ m = k := by
  have hlist : a.toList ++ m.toList = b.toList ++ k.toList := by
    rw [← String.toList_append, h, String.toList_append]
  have hparts := List.append_inj' hlist hmark
  exact ⟨String.toList_inj.mp hparts.1, String.toList_inj.mp hparts.2⟩

/-- What is offered for a segment as it stands is the literal, or the pattern owns it. -/
theorem Segment.literal_or_owns_of_mem_texts {s : Segment} {text : SegmentText}
    (h : text ∈ s.texts) (hsnippet : text.snippet = false) :
    s = .literal text.insertText ∨ s.owns text.insertText = true := by
  cases s with
  | literal value =>
    obtain rfl := List.mem_singleton.mp h
    exact .inl rfl
  | scripted p =>
    rw [Segment.texts] at h
    split at h
    · obtain rfl := List.mem_singleton.mp h
      cases hsnippet
    · obtain ⟨value, hvalue, rfl⟩ := List.mem_map.mp h
      cases p with
      | dataset d => exact .inr (List.any_eq_true.mpr ⟨value, hvalue, beq_self_eq_true _⟩)
      | integer | float | map | identifier => cases hvalue

theorem Segment.texts_ne_nil (s : Segment) : s.texts ≠ [] := by
  cases s with
  | literal value => simp [Segment.texts]
  | scripted p =>
    rw [Segment.texts]
    split <;> simp_all

theorem Segment.isScripted_of_owns {s : Segment} {value : String} (h : s.owns value = true) :
    s.isScripted = true := by
  cases s with
  | literal => cases h
  | scripted => rfl

namespace Node

section Candidates

variable {n c : Node}

theorem mem_childCandidates {candidate : Candidate} :
    candidate ∈ c.childCandidates ↔ ∃ text ∈ c.segment.texts,
      c.children ≠ [] ∧ candidate = childCandidate c text "." true ∨
        (c.isEnd = true ∨ c.children = []) ∧ candidate = childCandidate c text ">" false := by
  simp only [childCandidates, List.mem_flatMap]
  refine exists_congr fun text => and_congr_right fun _ => ?_
  cases c.children <;> cases c.isEnd <;> simp

theorem childCandidates_ne_nil (c : Node) : c.childCandidates ≠ [] := by
  obtain ⟨text, htext⟩ := List.exists_mem_of_ne_nil _ c.segment.texts_ne_nil
  by_cases hchildren : c.children = []
  · exact List.ne_nil_of_mem
      (mem_childCandidates.mpr ⟨text, htext, .inr ⟨.inr hchildren, rfl⟩⟩)
  · exact List.ne_nil_of_mem (mem_childCandidates.mpr ⟨text, htext, .inl ⟨hchildren, rfl⟩⟩)

theorem candidates_ne_nil (h : n.children ≠ []) : n.candidates ≠ [] := by
  obtain ⟨c, hc⟩ := List.exists_mem_of_ne_nil _ h
  exact fun hnil => childCandidates_ne_nil c (List.flatMap_eq_nil_iff.mp hnil c hc)

/-- What goes on with a point was offered for a child that has children. -/
theorem of_mem_childCandidates_point {candidate : Candidate} (h : candidate ∈ c.childCandidates)
    {value : String} (hinsert : candidate.insertText = value ++ ".") :
    c.children ≠ [] ∧ ∃ text ∈ c.segment.texts,
      text.insertText = value ∧ text.snippet = candidate.snippet := by
  obtain ⟨text, htext, ⟨hchildren, rfl⟩ | ⟨-, rfl⟩⟩ := mem_childCandidates.mp h
  · exact ⟨hchildren, text, htext, (append_mark_inj hinsert (by decide)).1, rfl⟩
  · exact absurd (append_mark_inj hinsert (by decide)).2 (by decide)

theorem exists_continuing_iff {value : SegmentText} (h : value ∈ c.segment.texts) :
    (∃ candidate ∈ c.childCandidates, candidate.insertText = value.insertText ++ ".") ↔
      c.children ≠ [] := by
  constructor
  · rintro ⟨candidate, hmem, hinsert⟩
    exact (of_mem_childCandidates_point hmem hinsert).1
  · intro hchildren
    exact ⟨_, mem_childCandidates.mpr ⟨value, h, .inl ⟨hchildren, rfl⟩⟩, rfl⟩

theorem exists_closing_iff {value : SegmentText} (h : value ∈ c.segment.texts) :
    (∃ candidate ∈ c.childCandidates, candidate.insertText = value.insertText ++ ">") ↔
      c.isEnd = true ∨ c.children = [] := by
  constructor
  · rintro ⟨candidate, hmem, hinsert⟩
    obtain ⟨text, -, ⟨-, rfl⟩ | ⟨hend, -⟩⟩ := mem_childCandidates.mp hmem
    · exact absurd (append_mark_inj hinsert (by decide)).2 (by decide)
    · exact hend
  · intro hend
    exact ⟨_, mem_childCandidates.mpr ⟨value, h, .inr ⟨hend, rfl⟩⟩, rfl⟩

theorem complete_of_lookup? {text typed : List Char} (htyped : expression? text = some typed)
    (hlookup : n.lookup? (elements typed).dropLast = some c) : n.complete text = c.candidates := by
  simp only [complete, htyped, hlookup]

/-- An element that a child offers, as it stands, leads to this child, as long as no sibling claims
it first. -/
theorem Distinct.matching?_of_mem_texts (h : n.Distinct) {before after : List Node}
    (hchildren : n.children = before ++ c :: after) {text : SegmentText}
    (htext : text ∈ c.segment.texts) (hsnippet : text.snippet = false)
    (hclaims : c.segment.isScripted = false ∨
      (∀ s ∈ before ++ after, s.segment.isScripted = false → s.key ≠ lower text.insertText) ∧
      ∀ s ∈ before, s.segment.owns text.insertText = false) :
    n.matching? text.insertText = some c := by
  rcases Segment.literal_or_owns_of_mem_texts htext hsnippet with hliteral | howns
  · have hc : c ∈ n.children := by simp [hchildren]
    exact h.matching?_literal hc (by rw [hliteral]; rfl) (by rw [key, hliteral]; rfl)
  · have hscripted := Segment.isScripted_of_owns howns
    rcases hclaims with hliteral | ⟨hliteral, hbefore⟩
    · cases hliteral.symm.trans hscripted
    · refine matching?_pattern hchildren howns (fun s hs hs' => ?_) hbefore
      rcases List.mem_append.mp (hchildren ▸ hs) with hs | hs
      · exact hliteral s (List.mem_append_left _ hs) hs'
      · rcases List.mem_cons.mp hs with rfl | hs
        · cases hs'.symm.trans hscripted
        · exact hliteral s (List.mem_append_right _ hs) hs'

end Candidates

end Node

/-! ## Accepting -/

/-- In every trie that edits build, completing offers what comes from the children of the node that
the elements before the last lead to, by positions. Where `value` and a point are offered for one of
them as they stand, typing them in the place of the last element offers what comes from this child,
and there is something. This is so for a literal child, and for a pattern when `value` is the key of
no literal sibling and no pattern before it owns `value`. A point is offered behind a child just
when it has children, and the closing bracket when a placeholder may end there or it has none. -/
theorem IndexedNode.Built.complete_continued {t : IndexedNode} (ht : Built t)
    {text path typed : List Char} (hexpression : expression? (text ++ typed) = some (path ++ typed))
    (hpath : path = [] ∨ path.getLast? = some '.') (htyped : '.' ∉ typed) {reached : IndexedNode}
    (hreached : t.lookup? (Node.elements (path ++ typed)).dropLast = some reached) :
    t.toNode.complete (text ++ typed) = reached.toNode.candidates ∧
    ∀ before c after, reached.toNode.children = before ++ c :: after →
      (∀ candidate ∈ c.childCandidates, ∀ value : String,
        candidate.snippet = false → candidate.insertText = value ++ "." →
        (∀ x ∈ value.toList, x ≠ '.' ∧ x ≠ '<' ∧ x ≠ '>' ∧ isBlank x = false) →
        (c.segment.isScripted = false ∨
          (∀ s ∈ before ++ after, s.segment.isScripted = false → s.key ≠ lower value) ∧
          ∀ s ∈ before, s.segment.owns value = false) →
        t.toNode.complete (text ++ (value.toList ++ ['.'])) = c.candidates ∧ c.candidates ≠ []) ∧
      ∀ value ∈ c.segment.texts,
        ((∃ candidate ∈ c.childCandidates, candidate.insertText = value.insertText ++ ".") ↔
          c.children ≠ []) ∧
        ((∃ candidate ∈ c.childCandidates, candidate.insertText = value.insertText ++ ">") ↔
          c.isEnd = true ∨ c.children = []) := by
  have hsound := ht.sound_and_notEnd.1
  obtain ⟨done, helements⟩ := Node.exists_elements hpath
  have hdone : t.toNode.lookup? done = some reached.toNode := by
    rw [(helements typed htyped).1, List.dropLast_concat] at hreached
    rw [hsound.lookup?_toNode, hreached, Option.map_some]
  refine ⟨?_, fun before c after hchildren => ⟨?_, fun value hvalue =>
    ⟨Node.exists_continuing_iff hvalue, Node.exists_closing_iff hvalue⟩⟩⟩
  · refine Node.complete_of_lookup? hexpression ?_
    rw [(helements typed htyped).1, List.dropLast_concat, hdone]
  · intro candidate hcandidate value hsnippet hinsert hplain hclaims
    obtain ⟨hbelow, offered, hoffered, rfl, has⟩ :=
      Node.of_mem_childCandidates_point hcandidate hinsert
    have hdistinct : reached.toNode.Distinct := (hsound.of_lookup? hreached).distinct
    have hmatching :=
      hdistinct.matching?_of_mem_texts hchildren hoffered (has.trans hsnippet) hclaims
    have hpoint : '.' ∉ offered.insertText.toList := fun hmem => (hplain _ hmem).1 rfl
    refine ⟨Node.complete_of_lookup? (expression?_retyped hexpression ?_) ?_,
      Node.candidates_ne_nil hbelow⟩
    · rw [List.forall_mem_append, List.forall_mem_singleton]
      exact ⟨fun x hx => (hplain x hx).2, by decide⟩
    · rw [(helements _ hpoint).2, String.ofList_toList]
      have hlast : (done ++ [offered.insertText, ""]).dropLast = done ++ [offered.insertText] := by
        simp
      rw [hlast, Node.lookup?_append, hdone, Option.bind_some, Node.lookup?, hmatching]
      rfl

/-- The pattern of two bells has a literal sibling spelt like one of them. Behind the other bell the
element beneath the pattern is offered. -/
theorem IndexedNode.Built.complete_continued_dataset :
    let bells := Segment.scripted (.dataset ⟨"bells", [⟨"Gong", none⟩, ⟨"Chime", none⟩]⟩)
    let t := (IndexedNode.root.insert [.literal "ring", bells, .literal "volume"] none).merge
      (IndexedNode.root.insert [.literal "Ring", .literal "chime"] none)
    let text := "say <ring.".toList
    Built t ∧ expression? (text ++ ['g']) = some ("ring.".toList ++ ['g']) ∧
      (t.toNode.complete (text ++ ['g'])).map (·.insertText) = ["Gong.", "Chime.", "chime>"] ∧
      (t.toNode.complete (text ++ ("Gong".toList ++ ['.']))).map (·.insertText) = ["volume>"] := by
  intro bells t text
  have ht : Built t := (root.insert _ _).merge (root.insert _ _)
  have hexpression : expression? (text ++ ['g']) = some ("ring.".toList ++ ['g']) := by
    decide +kernel
  let volume : IndexedNode := ⟨.literal "volume", [], [], true, none⟩
  let gong : IndexedNode := ⟨bells, [volume], [("volume", 0)], false, none⟩
  let chime : IndexedNode := ⟨.literal "chime", [], [], true, none⟩
  let ring : IndexedNode :=
    ⟨.literal "ring", [gong, chime], [("chime", 1), ("\x7bbells\x7d", 0)], false, none⟩
  have hreached : t.lookup? (Node.elements ("ring.".toList ++ ['g'])).dropLast = some ring := by
    rfl
  obtain ⟨hoffers, haccept⟩ :=
    ht.complete_continued hexpression (.inr (by decide +kernel)) (by decide) hreached
  have hgong : Node.childCandidate gong.toNode ⟨"Gong", "Gong", false⟩ "." true ∈
      gong.toNode.childCandidates := by decide +kernel
  have hclaims : ∀ s ∈ [chime.toNode], s.segment.isScripted = false → s.key ≠ lower "Gong" := by
    rw [List.forall_mem_singleton]
    exact fun _ => by decide +kernel
  have hplain : "Gong".toList.all
      (fun x => x != '.' && (x != '<' && (x != '>' && !isBlank x))) = true := by decide +kernel
  obtain ⟨hnext, -⟩ := (haccept [] gong.toNode [chime.toNode] rfl).1 _ hgong "Gong" rfl rfl
    (fun x hx => by simpa using List.all_eq_true.mp hplain x hx) (.inr ⟨hclaims, by simp⟩)
  refine ⟨ht, hexpression, ?_, ?_⟩
  · rw [hoffers]
    decide +kernel
  · rw [hnext]
    decide +kernel

end SkillScript
