import SkillScript.Proofs.Key.Editing
import SkillScript.Proofs.Schema.Offers

/-!
# Completion while a key line is typed

Before its colon a key is completed from the mapping of the block that the indentation before the
cursor puts it in, and behind the colon its values are those of the node at the key's own path. The
first path comes from `Document.ancestorsAt` and the second from `Document.ancestors`.

A key that is accepted from the menu is found again behind its colon: the two paths agree, and a
mapping that offers a key leads on from it (`Schema.complete_accepted`).

Behind a colon the cursor line is a key line by what is before the cursor, but its ancestors are
those of the whole line. When a character directly follows the colon, the whole line is no key line,
and a key above that is indented alike is taken for its parent (`Document.TakenUnder`). In every
other case the path is the chain of the key (`Schema.complete_behind_key`).
-/

namespace SkillScript

/-! ## The key before the cursor -/

namespace Document

variable {d d' : Document} {p : Position} {typed : List Char} {key : KeyLine}

/-- `k` is taken for the parent of the key before the cursor although both are indented alike: a
character that is no blank directly follows the colon, so the whole line is no key line and nests
under the nearest key that is not indented more. -/
structure TakenUnder (d : Document) (p : Position) (key : KeyLine) (k : Key) : Prop where
  atColon : key.value = []
  runsOn : ∃ text c, d.line? p.line = some text ∧ text[p.character]? = some c ∧ isBlank c = false
  nearest : d.Nearest p.line (key.indent.length + 1) k
  sameIndent : k.indent = key.indent.length

/-- The ancestors of the line of a key before the cursor are the keys around it, with one more in
front when that one is taken for its parent. -/
theorem ancestors_of_typed {keys : List Key} (htyped : d.linePrefix? p = some typed)
    (hkey : KeyLine.parse? typed = some key) (hchain : d.Chain p.line key.indent.length keys) :
    ((∀ k, ¬ d.TakenUnder p key k) → d.ancestors p.line = keys) ∧
      ∀ k, d.TakenUnder p key k → d.ancestors p.line = k :: keys := by
  obtain ⟨text, htext, hsplit⟩ := exists_line?_of_linePrefix? htyped
  have hancestors := chain_ancestors htext
  have hindent := KeyLine.indentation_append hkey (text.drop p.character)
  have hparse := KeyLine.parse?_append hkey (text.drop p.character)
  rw [hsplit] at hindent hparse
  by_cases hvalue : IsValue (key.value ++ text.drop p.character)
  · -- The whole line is a key line.
    rw [if_pos hvalue] at hparse
    have hfloor : nestingFloor text = key.indent.length := by
      rw [nestingFloor, hparse, ← hindent]; rfl
    refine ⟨fun _ => hancestors.unique (hfloor ▸ hchain), fun k hk => ?_⟩
    obtain ⟨text', c, htext', hc, hblank⟩ := hk.runsOn
    rw [htext, Option.some.injEq] at htext'
    subst htext'
    rw [hk.atColon, List.nil_append] at hvalue
    have := hvalue c (by rw [List.head?_drop, hc])
    simp [hblank] at this
  · rw [if_neg hvalue] at hparse
    have hfloor : nestingFloor text = key.indent.length + 1 := by
      rw [nestingFloor, hparse, ← hindent]; rfl
    rw [hfloor] at hancestors
    have hcolon : key.value = [] := by
      by_contra hne
      exact hvalue ((isValue_append hne).mpr (KeyLine.written_of_parse? hkey).value)
    obtain ⟨c, hc, hblank⟩ : ∃ c, text[p.character]? = some c ∧ isBlank c = false := by
      simpa [IsValue, hcolon, List.head?_drop] using hvalue
    constructor
    · intro hnone
      refine hancestors.unique (hchain.deepen fun k hk hsame => hnone k ?_)
      exact ⟨hcolon, ⟨text, c, htext, hc, hblank⟩, hk, hsame⟩
    · intro k hk
      exact hancestors.unique (hchain.deepen_cons hk.nearest hk.sameIndent)

end Document

/-! ## Values are not offered as keys -/

/-- No value is offered as a key. -/
theorem SchemaNode.kind_of_mem_plainCandidates {datasets : Datasets} {settings : Settings}
    {n : SchemaNode} {c : Candidate} (h : c ∈ n.plainCandidates datasets settings) :
    c.kind ≠ .key := by
  have hmember : ∀ suffix, c ∈ n.memberCandidates datasets settings suffix → c.kind ≠ .key := by
    intro suffix hc
    unfold memberCandidates at hc
    split at hc
    · obtain ⟨e, -, rfl⟩ := List.mem_map.mp hc
      exact CandidateKind.noConfusion
    · cases hc
  have hlabel : ∀ labels : List String, c ∈ labels.map (Candidate.ofLabel · .value) →
      c.kind ≠ .key := by
    intro labels hc
    obtain ⟨label, -, rfl⟩ := List.mem_map.mp hc
    exact CandidateKind.noConfusion
  unfold plainCandidates at h
  extract_lets candidates at h
  have hcandidates : c ∈ candidates → c.kind ≠ .key := by
    intro hc
    simp only [candidates] at hc
    split at hc
    · exact hmember _ hc
    · exact hlabel _ hc
    · exact hmember _ hc
    · cases hc
  split at h
  · exact hlabel _ h
  · exact hcandidates h

theorem SchemaNode.kind_of_mem_candidates {datasets : Datasets} {settings : Settings}
    (n : SchemaNode) (typed : List Char) :
    ∀ c ∈ n.candidates datasets settings typed, c.kind ≠ .key := by
  -- A line of several values offers those of one of its entries.
  refine (SchemaNode.candidates.mutual_induct datasets settings
    (fun n typed => ∀ c ∈ n.candidates datasets settings typed, c.kind ≠ .key)
    (fun entries index typed => ∀ c ∈ slotCandidates datasets settings entries index typed,
      c.kind ≠ .key) ?plain ?several ?none ?last ?more ?later).1 n typed
  case plain =>
    intro kind description link values dataset entries children closesDepth suffix typed hnil c hc
    rw [SchemaNode.candidates, if_pos hnil] at hc
    exact kind_of_mem_plainCandidates hc
  case several =>
    intro kind description link values dataset entries children closesDepth suffix typed hne ih
    rw [SchemaNode.candidates, if_neg hne]
    exact ih
  case none =>
    intro index typed c hc
    rw [slotCandidates] at hc
    cases hc
  case last =>
    intro entry rest typed hlast ih
    rw [slotCandidates, if_pos hlast]
    exact ih
  case more =>
    intro entry rest typed hnext ih c hc
    rw [slotCandidates, if_neg hnext] at hc
    obtain ⟨c', hc', rfl⟩ := List.mem_map.mp hc
    exact ih c' hc'
  case later =>
    intro entry rest index typed ih
    rw [slotCandidates]
    exact ih

namespace Schema

variable {s : Schema} {datasets : Datasets} {settings : Settings}

theorem kind_of_mem_completeValue {path : List String} {typed : List Char} {c : Candidate}
    (h : c ∈ s.completeValue datasets settings path typed) : c.kind ≠ .key := by
  unfold completeValue at h
  split at h
  · exact SchemaNode.kind_of_mem_candidates _ _ c h
  · cases h

/-- Keys are offered only from the block that the indentation before the cursor leads to. -/
theorem mem_completeKey_of_mem_complete {d : Document} {p : Position} {typed : List Char}
    {c : Candidate} (htyped : d.linePrefix? p = some typed)
    (hc : c ∈ s.complete datasets settings d p) (hkind : c.kind = .key) :
    c ∈ s.completeKey datasets d p.line (indentation typed) := by
  simp only [complete, htyped] at hc
  split at hc
  · exact absurd hkind (kind_of_mem_completeValue hc)
  · split at hc
    · exact absurd hkind (kind_of_mem_completeValue hc)
    · split at hc
      · cases hc
      · exact hc

/-- Behind `Key:` the values of the key are offered, at its name behind the names of its line's
ancestors. -/
theorem complete_of_parse? {d : Document} {p : Position} {typed : List Char} {key : KeyLine}
    (htyped : d.linePrefix? p = some typed) (hkey : KeyLine.parse? typed = some key) :
    s.complete datasets settings d p =
      s.completeValue datasets settings ((d.ancestors p.line).reverse.map Key.name ++ [key.name])
        (trimStart key.value) := by
  simp only [complete, htyped, hkey, Document.keyPath]

/-- A bare key that was offered can be accepted: on the line with the key, its colon and a space,
exactly the values of the key's node are offered, and there is such a node. -/
theorem complete_accepted (s : Schema) (datasets : Datasets) (settings : Settings) (d : Document)
    (p : Position) (typed : List Char) (c : Candidate) (htyped : d.linePrefix? p = some typed)
    (hc : c ∈ s.complete datasets settings d p) (hkind : c.kind = .key) (hne : c.label ≠ "")
    (hchars : ∀ x ∈ c.label.toList, isBareChar x = true) (hdash : c.label.toList.head? ≠ some '-') :
    let line := typed.takeWhile isBlank ++ c.label.toList ++ [':', ' ']
    let path := (d.ancestorsAt p.line (indentation typed)).reverse.map Key.name
    ∃ (hline : '\n' ∉ line) (found : Located),
      s.locate? datasets (path ++ [c.label]) = some found ∧
      s.complete datasets settings (d.withLine p.line line hline) ⟨p.line, line.length⟩ =
        found.node.candidates datasets settings [] := by
  intro line path
  -- The key leads on from the mapping that it was offered from.
  obtain ⟨found, hfound⟩ : ∃ found, s.locate? datasets (path ++ [c.label]) = some found := by
    have hkey := mem_completeKey_of_mem_complete htyped hc hkind
    simp only [completeKey] at hkey
    split at hkey
    · next mapping hmapping =>
      obtain ⟨node, hnode⟩ := Mapping.exists_get?_of_mem hkey
      exact exists_locate?_concat hmapping hnode
    · cases hkey
  -- The new line is a key line that is indented as what was typed.
  have hblank : ∀ x ∈ typed.takeWhile isBlank, isBlank x = true :=
    fun x hx => List.mem_takeWhile_imp hx
  have htoken : KeyToken c.label.toList c.label.toList := by
    cases hlabel : c.label.toList with
    | nil => exact absurd (String.toList_eq_nil_iff.mp hlabel) hne
    | cons x rest =>
      rw [hlabel] at hchars hdash
      exact .bare (fun hx => hdash (by rw [hx]; rfl)) hchars
  have hparse : KeyLine.parse? line =
      some ⟨typed.takeWhile isBlank, c.label.toList, c.label, [' ']⟩ := by
    have := KeyLine.parse?_token hblank htoken [' ']
    rwa [if_pos (by decide), String.ofList_toList] at this
  have hfloor : nestingFloor line = indentation typed := by
    have := KeyLine.indentation_append hparse []
    rw [List.append_nil] at this
    rw [nestingFloor, hparse, this]
    rfl
  have hline : '\n' ∉ line := by
    obtain ⟨old, hold, hsplit⟩ := Document.exists_line?_of_linePrefix? htyped
    have hfeed := d.lineFeed_notMem old (List.mem_of_getElem? hold)
    have hlabel : '\n' ∉ c.label.toList := fun hmem => by
      have := isBlank_of_isBareChar (hchars _ hmem)
      exact absurd this (by decide)
    have hindent : '\n' ∉ typed.takeWhile isBlank := fun hmem => hfeed <| by
      rw [← hsplit]
      exact List.mem_append_left _ ((List.takeWhile_prefix _).subset hmem)
    simp [line, hlabel, hindent]
  obtain ⟨old, hold, -⟩ := Document.exists_line?_of_linePrefix? htyped
  have hlt : p.line < d.lineCount := (List.getElem?_eq_some_iff.mp hold).1
  have hprefix : (d.withLine p.line line hline).linePrefix? ⟨p.line, line.length⟩ = some line := by
    simp [Document.linePrefix?, Document.line?_withLine hlt]
  refine ⟨hline, found, hfound, ?_⟩
  rw [complete_of_parse? hprefix hparse, Document.ancestors_withLine htyped hline hfloor,
    completeValue, hfound]
  rfl

/-- A key of a block that has another key already, accepted in the place of its first letter. -/
theorem complete_accepted_second :
    let truth := SchemaNode.ofKind .boolean
    let block : Mapping SchemaNode := ⟨[("A", truth), ("B", truth)], none, none⟩
    let s : Schema :=
      ⟨⟨[], none, some { SchemaNode.ofKind .key with children := .inline block }⟩, []⟩
    let d := Document.ofText .lineFeed "M:\n  A: true\n  b\nN:".toList
    let c := keyCandidate "B" truth
    d.linePrefix? ⟨2, 3⟩ = some "  b".toList ∧ c ∈ s.complete [] .standard d ⟨2, 3⟩ ∧
      ∃ (hline : '\n' ∉ "  B: ".toList) (found : Located),
        s.locate? [] ["M", "B"] = some found ∧
        s.complete [] .standard (d.withLine 2 "  B: ".toList hline) ⟨2, 5⟩ =
          found.node.candidates [] .standard [] := by
  intro truth block s d c
  have htyped : d.linePrefix? ⟨2, 3⟩ = some "  b".toList := by decide +kernel
  have hc : c ∈ s.complete [] .standard d ⟨2, 3⟩ := by decide +kernel
  have hpath : (d.ancestorsAt 2 (indentation "  b".toList)).reverse.map Key.name = ["M"] := by
    decide +kernel
  have hnew : "  b".toList.takeWhile isBlank ++ c.label.toList ++ [':', ' '] = "  B: ".toList := by
    decide +kernel
  have hchars : c.label.toList.all isBareChar = true := by decide
  have h := complete_accepted s [] .standard d ⟨2, 3⟩ _ c htyped hc rfl (by decide)
    (List.all_eq_true.mp hchars) (by decide)
  dsimp only at h
  rw [hpath, hnew] at h
  exact ⟨htyped, hc, h⟩

/-- Behind a key and its colon, the values of the node at the key's path are offered, where the
path has the names of the keys around it and does not depend on what follows the cursor. The
exception is a key that is taken for the parent, whose name then stands in between. -/
theorem complete_behind_key (s : Schema) (datasets : Datasets) (settings : Settings) (d : Document)
    (p : Position) (typed : List Char) (key : KeyLine) (htyped : d.linePrefix? p = some typed)
    (hkey : KeyLine.parse? typed = some key) :
    ∃ keys, d.Chain p.line key.indent.length keys ∧
      ((∀ k, ¬ d.TakenUnder p key k) →
        s.complete datasets settings d p =
          s.completeValue datasets settings (keys.reverse.map Key.name ++ [key.name])
            (trimStart key.value)) ∧
      (∀ k, d.TakenUnder p key k →
        s.complete datasets settings d p =
          s.completeValue datasets settings (keys.reverse.map Key.name ++ [k.name, key.name])
            (trimStart key.value)) ∧
      ∀ d' : Document, (∀ m < p.line, d'.line? m = d.line? m) → d'.linePrefix? p = some typed →
        (∀ k, ¬ d.TakenUnder p key k) → (∀ k, ¬ d'.TakenUnder p key k) →
        s.complete datasets settings d' p = s.complete datasets settings d p := by
  obtain ⟨line, hline, -⟩ := Document.exists_line?_of_linePrefix? htyped
  have hlt : p.line < d.lineCount := (List.getElem?_eq_some_iff.mp hline).1
  have hchain := Document.chain_keysBelow key.indent.length (Nat.le_of_lt hlt)
  obtain ⟨hclear, htaken⟩ := Document.ancestors_of_typed htyped hkey hchain
  refine ⟨_, hchain, fun hnone => ?_, fun k hk => ?_, fun d' hlines htyped' hnone hnone' => ?_⟩
  · rw [complete_of_parse? htyped hkey, hclear hnone]
  · rw [complete_of_parse? htyped hkey, htaken k hk]
    simp
  · have hclear' := (Document.ancestors_of_typed htyped' hkey (hchain.congr hlines)).1
    rw [complete_of_parse? htyped hkey, complete_of_parse? htyped' hkey, hclear hnone,
      hclear' hnone']

/-- The cursor between the colon of a key and a blank, below a key that is indented alike. -/
theorem complete_behind_key_blank :
    let truth := SchemaNode.ofKind .boolean
    let block : Mapping SchemaNode := ⟨[("A", truth), ("B", truth)], none, none⟩
    let s : Schema :=
      ⟨⟨[], none, some { SchemaNode.ofKind .key with children := .inline block }⟩, []⟩
    let d := Document.ofText .lineFeed "M:\n  A: true\n  B: x".toList
    let key : KeyLine := ⟨[' ', ' '], ['B'], "B", []⟩
    d.linePrefix? ⟨2, 4⟩ = some "  B:".toList ∧ KeyLine.parse? "  B:".toList = some key ∧
      d.Chain 2 2 [⟨"M", 0, 0⟩] ∧ (∀ k, ¬ d.TakenUnder ⟨2, 4⟩ key k) ∧
      s.complete [] .standard d ⟨2, 4⟩ = s.completeValue [] .standard ["M", "B"] [] := by
  intro truth block s d key
  have htyped : d.linePrefix? ⟨2, 4⟩ = some "  B:".toList := by decide +kernel
  have hkey : KeyLine.parse? "  B:".toList = some key := by decide +kernel
  have hkeys : Document.keysBelow 2 (d.numberedAbove 2) = [⟨"M", 0, 0⟩] := by decide +kernel
  have hchain : d.Chain 2 2 [⟨"M", 0, 0⟩] := hkeys ▸ Document.chain_keysBelow 2 (by decide +kernel)
  have hnone : ∀ k, ¬ d.TakenUnder ⟨2, 4⟩ key k := by
    rintro k ⟨-, ⟨line, c, hline, hc, hblank⟩, -, -⟩
    have hcursor : d.line? 2 = some "  B: x".toList := by decide +kernel
    cases hcursor.symm.trans hline
    cases hc
    exact absurd hblank (by decide)
  obtain ⟨keys, hkeys', hclear, -⟩ := complete_behind_key s [] .standard d ⟨2, 4⟩ _ key htyped hkey
  cases hkeys'.unique hchain
  exact ⟨htyped, hkey, hchain, hnone, hclear hnone⟩

/-- The cursor between the colon of a key and a letter: what is offered are not the values of the
key, since the key above is taken for its parent. -/
theorem complete_behind_key_taken :
    let truth := SchemaNode.ofKind .boolean
    let block : Mapping SchemaNode := ⟨[("A", truth), ("B", truth)], none, none⟩
    let s : Schema :=
      ⟨⟨[], none, some { SchemaNode.ofKind .key with children := .inline block }⟩, []⟩
    let d := Document.ofText .lineFeed "M:\n  A: true\n  B:x".toList
    d.linePrefix? ⟨2, 4⟩ = some "  B:".toList ∧
      KeyLine.parse? "  B:".toList = some ⟨[' ', ' '], ['B'], "B", []⟩ ∧
      d.Chain 2 2 [⟨"M", 0, 0⟩] ∧
      s.complete [] .standard d ⟨2, 4⟩ ≠ s.completeValue [] .standard ["M", "B"] [] := by
  intro truth block s d
  have hkeys : Document.keysBelow 2 (d.numberedAbove 2) = [⟨"M", 0, 0⟩] := by decide +kernel
  have hchain : d.Chain 2 2 [⟨"M", 0, 0⟩] := hkeys ▸ Document.chain_keysBelow 2 (by decide +kernel)
  exact ⟨by decide +kernel, by decide +kernel, hchain, by decide +kernel⟩

end Schema

end SkillScript
