import SkillScript.Proofs.Cursor.Hover
import SkillScript.Proofs.Cursor.NamedArgument
import SkillScript.Proofs.Key.Editing
import SkillScript.Reference.Context

/-!
# Completion while an argument is typed

Where an argument starts, the names of the owner's attributes are offered. A name that is accepted
there, with the equals sign behind it, is read back as the attribute being typed, and what is
offered next are its values (`Context.completeAttributes_accepted`).

* `currentAttribute?_named`: a name and an equals sign where an argument starts name the attribute.
* `Document.TypedOn.excerpt_text`: when more is typed at the end of a line, the excerpt grows by
  just that.
-/

namespace SkillScript

/-! ## Where an argument starts -/

/-- At the end of the text an argument starts: only blanks follow the start of the text or its last
separator outside any group. -/
inductive StartsArgument : List Char → Prop where
  | first {blanks : List Char} (hblank : ∀ c ∈ blanks, isBlank c = true) : StartsArgument blanks
  | next {before blanks : List Char} {c : Char} (hdepth : depthAfter 0 before = 0)
      (hc : isSeparator c = true) (hblank : ∀ c ∈ blanks, isBlank c = true) :
      StartsArgument (before ++ c :: blanks)

/-- Where an argument starts, a name and an equals sign make it one that names an attribute. -/
theorem StartsArgument.namedArgument {inner name : List Char} (h : StartsArgument inner)
    (hne : name ≠ []) (hname : ∀ c ∈ name, isAttributeChar c = true) :
    ∃ lead left, NamedArgument (inner ++ (name ++ ['='])) lead left name [] [] := by
  cases h with
  | first hblank =>
    exact ⟨[], inner, by simp, .inl rfl, hblank, nofun, hne, hname, unseparated_nil⟩
  | @next before blanks c hdepth hc hblank =>
    exact ⟨before ++ [c], blanks, by simp, .inr ⟨before, c, rfl, hdepth, hc⟩, hblank, nofun, hne,
      hname, unseparated_nil⟩

theorem currentAttribute?_named {inner name : List Char} (h : StartsArgument inner)
    (hne : name ≠ []) (hname : ∀ c ∈ name, isAttributeChar c = true) :
    currentAttribute? (inner ++ (name ++ ['='])) = some (String.ofList name) := by
  obtain ⟨lead, left, hargument⟩ := h.namedArgument hne hname
  exact hargument.currentAttribute?_eq

/-! ## The excerpt of a line that is typed on -/

namespace Document

namespace TypedOn

variable {d d' : Document} {n : Nat} {line piece : List Char}

theorem boundary?_eq (h : TypedOn d d' n line piece) : d'.boundary? n = d.boundary? n := by
  simp only [boundary?, h.keyAt?_eq, h.ancestors_eq]

theorem sectionCategory?_eq (h : TypedOn d d' n line piece) (settings : Settings) :
    d'.sectionCategory? settings n = d.sectionCategory? settings n := by
  simp only [sectionCategory?, sectionKey?, h.keyAt?_eq, h.ancestors_eq]

variable {i j : Nat}

theorem linesBetween_eq (h : TypedOn d d' n line piece) (hi : line.length ≤ i)
    (hj : (line ++ piece).length ≤ j) (start : Nat) :
    ∃ lines, d.linesBetween start ⟨n, i⟩ = lines ++ [line] ∧
      d'.linesBetween start ⟨n, j⟩ = lines ++ [line ++ piece] := by
  refine ⟨(List.range' start (n - start)).map fun m => (d.line? m).getD [], ?_, ?_⟩
  · simp only [linesBetween, linePrefix?, h.line_before, Option.map_some, Option.getD_some,
      List.take_of_length_le hi]
  · simp only [linesBetween, linePrefix?, h.line_after, Option.map_some, Option.getD_some,
      List.take_of_length_le hj]
    congr 1
    refine List.map_congr_left fun m hm => ?_
    have := List.mem_range'_1.mp hm
    rw [h.above m (by omega)]

/-- What was typed ends the last line of the excerpt, whether or not the key is on that line. -/
theorem dropKey_concat (h : TypedOn d d' n line piece) (lines : List (List Char)) :
    ∃ lines' last, dropKey (lines ++ [line]) = lines' ++ [last] ∧
      dropKey (lines ++ [line ++ piece]) = lines' ++ [last ++ piece] := by
  cases lines with
  | nil =>
    simp only [List.nil_append, dropKey, h.parse?_eq]
    cases KeyLine.parse? line with
    | none => exact ⟨[], line, rfl, rfl⟩
    | some k => exact ⟨[], k.value, rfl, rfl⟩
  | cons first rest =>
    refine ⟨dropKey (first :: rest), line, ?_, ?_⟩ <;>
    · simp only [List.cons_append, dropKey]
      split <;> rfl

theorem excerpt_text (h : TypedOn d d' n line piece) (hi : line.length ≤ i)
    (hj : (line ++ piece).length ≤ j) :
    (d'.excerpt ⟨n, j⟩).text = (d.excerpt ⟨n, i⟩).text ++ piece := by
  obtain ⟨lines, last, hlines, hlines'⟩ :
      ∃ lines last, d.excerptLines ⟨n, i⟩ = lines ++ [last] ∧
        d'.excerptLines ⟨n, j⟩ = lines ++ [last ++ piece] := by
    simp only [excerptLines, h.boundary?_eq]
    cases d.boundary? n with
    | none =>
      obtain ⟨lines, hd, hd'⟩ := h.linesBetween_eq hi hj 0
      exact ⟨lines, line, hd, hd'⟩
    | some key =>
      obtain ⟨lines, hd, hd'⟩ := h.linesBetween_eq hi hj key.line
      simp only [hd, hd']
      exact h.dropKey_concat lines
  rw [excerpt_text_eq, excerpt_text_eq, hlines, hlines',
    intercalate_restart_append lines last h.head]

theorem argumentContext?_eq (h : TypedOn d d' n line piece) (hi : line.length ≤ i)
    (hj : (line ++ piece).length ≤ j) (hpiece : Balanced piece) :
    d'.argumentContext? ⟨n, j⟩ = (d.argumentContext? ⟨n, i⟩).map fun context =>
      { excerpt := d'.excerpt ⟨n, j⟩
        owner := { context.owner with inner := context.owner.inner ++ piece }
        attributeName := currentAttribute? (context.owner.inner ++ piece) } := by
  simp only [argumentContext?, h.excerpt_text hi hj, Scope.find?_append_balanced _ hpiece,
    Option.map_map, Function.comp_def]

end TypedOn

/-- Behind text that opens and closes no group, the same object owns the arguments, and the
attribute being typed is read from its scope with that text at the end. -/
theorem TypedOn.contextOwner?_eq {d d' : Document} {n i j : Nat} {line piece : List Char}
    (h : TypedOn d d' n line piece) (hi : line.length ≤ i) (hj : (line ++ piece).length ≤ j)
    (hpiece : Balanced piece) {registry : Registry} {settings : Settings}
    {context : ArgumentContext} {owner : ResolvedObject} {name : Option String}
    (hcontext : d.argumentContext? ⟨n, i⟩ = some context)
    (howner : d.contextOwner? registry settings ⟨n, i⟩ = some (owner, name)) :
    d'.contextOwner? registry settings ⟨n, j⟩ =
      some (owner, currentAttribute? (context.owner.inner ++ piece)) := by
  obtain ⟨category, context', hcategory, hcontext', hbrace, howner, -⟩ :=
    contextOwner?_eq_some_iff.mp howner
  cases hcontext.symm.trans hcontext'
  have hafter := h.argumentContext?_eq hi hj hpiece
  rw [hcontext, Option.map_some] at hafter
  exact contextOwner?_eq_some_iff.mpr
    ⟨category, _, (h.sectionCategory?_eq settings).trans hcategory, hafter, hbrace, howner, rfl⟩

/-- Directly behind the colon of a key no scope is open. -/
theorem value_ne_nil_of_argumentContext? {d : Document} {p : Position} {line : List Char}
    {context : ArgumentContext} (hline : d.line? p.line = some line)
    (hend : line.length ≤ p.character) (hcontext : d.argumentContext? p = some context) :
    ∀ k, KeyLine.parse? line = some k → k.value ≠ [] := by
  intro k hk hnil
  have hkey : d.keyAt? p.line = some ⟨k.name, p.line, k.indent.length⟩ := by
    rw [keyAt?_of_line? hline, Key.parse?, hk]
    rfl
  have htext : (d.excerpt p).text = [] := by
    simp [excerpt_text_eq, excerptLines, boundary?, hkey, linesBetween, linePrefix?, hline, dropKey,
      hk, hnil, List.take_of_length_le hend, restart, lastItem]
  rw [argumentContext?, htext, Scope.find?_eq_none_of_openGroups openGroups_nil] at hcontext
  cases hcontext

/-- Where an argument starts, a name and an equals sign at the end of the line name the attribute
being typed, and the same object owns the arguments. -/
theorem contextOwner?_withLine {d : Document} {p : Position} {line name : List Char}
    {context : ArgumentContext} {registry : Registry} {settings : Settings}
    {owner : ResolvedObject} {typed : Option String} (hline : d.line? p.line = some line)
    (hend : line.length ≤ p.character) (hcontext : d.argumentContext? p = some context)
    (hstart : StartsArgument context.owner.inner)
    (howner : d.contextOwner? registry settings p = some (owner, typed)) (hne : name ≠ [])
    (hchars : ∀ c ∈ name, isAttributeChar c = true) (hdash : name.head? ≠ some '-') :
    let line' := line ++ (name ++ ['='])
    ∃ hfeed : '\n' ∉ line',
      (d.withLine p.line line' hfeed).contextOwner? registry settings ⟨p.line, line'.length⟩ =
        some (owner, some (String.ofList name)) := by
  intro line'
  have hword : ∀ c ∈ name, isWordChar c = true :=
    fun c hc => isWordChar_of_isAttributeChar (hchars c hc)
  have hbalanced : Balanced (name ++ ['=']) :=
    .append (unmarked_of_isWordChar hword).balanced (.plain ⟨rfl, rfl⟩)
  have hcolon : ':' ∉ name ++ ['='] := by
    have : ':' ∉ name := fun hmem => absurd (hchars _ hmem) (by decide)
    simpa using this
  have hfeed : '\n' ∉ line' := by
    have hold := d.lineFeed_notMem line (List.mem_of_getElem? hline)
    have hnew : '\n' ∉ name := fun hmem => absurd (hchars _ hmem) (by decide)
    simp [line', hold, hnew]
  have hhead : ∀ c, (name ++ ['=']).head? = some c → isBlank c = false ∧ c ≠ '-' := by
    obtain ⟨first, rest, rfl⟩ := List.exists_cons_of_ne_nil hne
    rintro c ⟨⟩
    exact ⟨isBlank_of_isWordChar (hword _ List.mem_cons_self), fun h => hdash (h ▸ rfl)⟩
  have htyped := typedOn_withLine hline hfeed hcolon hhead
    (value_ne_nil_of_argumentContext? hline hend hcontext)
  refine ⟨hfeed, ?_⟩
  rw [htyped.contextOwner?_eq hend (Nat.le_refl _) hbalanced hcontext howner,
    currentAttribute?_named hstart hne hchars]

end Document

/-! ## Accepting the name of an attribute -/

/-- The name of an attribute finds one: the attribute itself, or one before it that answers to the
name too. -/
theorem ObjectEntry.exists_attributeNamed? {o : ObjectEntry} {a : AttributeEntry}
    (h : a ∈ o.attributes) : ∃ found, o.attributeNamed? a.name = some found := by
  refine Option.isSome_iff_exists.mp (List.find?_isSome.mpr ⟨a, h, ?_⟩)
  simp [AttributeEntry.answersTo]

namespace Context

variable {ctx : Context} {d : Document} {p : Position}

theorem kind_of_mem_attributeValues {a : AttributeEntry} {c : Candidate}
    (h : c ∈ ctx.attributeValues a) : c.kind ≠ .key := by
  unfold attributeValues at h
  split at h
  · obtain ⟨e, -, rfl⟩ := List.mem_map.mp h
    exact CandidateKind.noConfusion
  · split at h
    · obtain ⟨label, -, rfl⟩ := List.mem_map.mp h
      exact CandidateKind.noConfusion
    · cases h

/-- Keys are offered only where no attribute is being typed, and are the names of the owner's
attributes. -/
theorem owner_of_mem_completeAttributes {c : Candidate} (h : c ∈ ctx.completeAttributes d p)
    (hkind : c.kind = .key) :
    ∃ owner, d.contextOwner? ctx.registry ctx.settings p = some (owner, none) ∧
      ∃ a ∈ owner.entry.attributes, attributeCandidate a = c := by
  unfold completeAttributes at h
  split at h
  · cases h
  · next owner howner => exact ⟨owner, howner, List.mem_map.mp h⟩
  · split at h
    · exact absurd hkind (kind_of_mem_attributeValues h)
    · cases h

theorem completeAttributes_of_named {owner : ResolvedObject} {name : String} {a : AttributeEntry}
    (howner : d.contextOwner? ctx.registry ctx.settings p = some (owner, some name))
    (ha : owner.entry.attributeNamed? name = some a) :
    ctx.completeAttributes d p = ctx.attributeValues a := by
  simp only [completeAttributes, howner, ha]

/-- A name that is offered where an argument starts can be accepted at the end of the line: with the
name and an equals sign behind it, the same object owns the arguments, the attribute being typed is
the one of that name, and its values are offered. -/
theorem completeAttributes_accepted (ctx : Context) (d : Document) (p : Position)
    (line : List Char) (context : ArgumentContext) (c : Candidate)
    (hline : d.line? p.line = some line) (hend : line.length ≤ p.character)
    (hc : c ∈ ctx.completeAttributes d p) (hkind : c.kind = .key)
    (hcontext : d.argumentContext? p = some context)
    (hstart : StartsArgument context.owner.inner) (hne : c.label ≠ "")
    (hchars : ∀ x ∈ c.label.toList, isAttributeChar x = true)
    (hdash : c.label.toList.head? ≠ some '-') :
    let line' := line ++ (c.label.toList ++ ['='])
    ∃ (hfeed : '\n' ∉ line') (owner : ResolvedObject) (a : AttributeEntry),
      let d' := d.withLine p.line line' hfeed
      let p' : Position := ⟨p.line, line'.length⟩
      c.insertText = c.label ++ "=" ∧
      d.contextOwner? ctx.registry ctx.settings p = some (owner, none) ∧
      d'.contextOwner? ctx.registry ctx.settings p' = some (owner, some c.label) ∧
      owner.entry.attributeNamed? c.label = some a ∧
      ctx.completeAttributes d' p' = ctx.attributeValues a := by
  obtain ⟨owner, howner, offered, hoffered, rfl⟩ := owner_of_mem_completeAttributes hc hkind
  obtain ⟨a, ha⟩ := ObjectEntry.exists_attributeNamed? hoffered
  have hname : offered.name.toList ≠ [] := fun hnil => hne (String.toList_eq_nil_iff.mp hnil)
  obtain ⟨hfeed, howner'⟩ :=
    Document.contextOwner?_withLine hline hend hcontext hstart howner hname hchars hdash
  rw [String.ofList_toList] at howner'
  exact ⟨hfeed, owner, a, rfl, howner, howner', ha, completeAttributes_of_named howner' ha⟩

/-- The second argument of an object, accepted on a line of its own. -/
theorem completeAttributes_accepted_second :
    let loud : AttributeEntry :=
      { name := "Loud-2", aliases := [], valueType := some "Boolean", description := none
        default := none, inlineConditions := false, dataset := none }
    let sound : ObjectEntry :=
      { name := "sound", aliases := [], description := none, link := none, attributes := [loud] }
    let ctx : Context :=
      { Context.empty with registry := { Registry.empty with mechanics := .ofList [sound] } }
    let d := Document.ofText .lineFeed "Skills:\n- Sound\x7bs=[x\x7by=1\x7d];\n   \nA:".toList
    let line := "   Loud-2=".toList
    let owner : ResolvedObject := ⟨.mechanic, sound, "Sound"⟩
    attributeCandidate loud ∈ ctx.completeAttributes d ⟨2, 3⟩ ∧
      ∃ context, d.argumentContext? ⟨2, 3⟩ = some context ∧ StartsArgument context.owner.inner ∧
        ∃ hfeed : '\n' ∉ line,
          (d.withLine 2 line hfeed).contextOwner? ctx.registry ctx.settings ⟨2, 10⟩ =
            some (owner, some "Loud-2") ∧
          ctx.completeAttributes (d.withLine 2 line hfeed) ⟨2, 10⟩ = booleanCandidates := by
  intro loud sound ctx d line owner
  have hc : attributeCandidate loud ∈ ctx.completeAttributes d ⟨2, 3⟩ := by decide +kernel
  have hline : d.line? 2 = some "   ".toList := by decide +kernel
  have howner : d.contextOwner? ctx.registry ctx.settings ⟨2, 3⟩ = some (owner, none) := by
    decide +kernel
  have hscope : (d.argumentContext? ⟨2, 3⟩).map (·.owner.inner) =
      some ("s=[x\x7by=1\x7d]".toList ++ ';' :: "\n   ".toList) := by decide +kernel
  obtain ⟨context, hcontext, hinner⟩ := Option.map_eq_some_iff.mp hscope
  have hblank : "\n   ".toList.all isBlank = true := by decide +kernel
  have hstart : StartsArgument context.owner.inner := by
    rw [hinner]
    exact .next (by decide +kernel) rfl (List.all_eq_true.mp hblank)
  have hchars : "Loud-2".toList.all isAttributeChar = true := by decide +kernel
  have hnew : "   ".toList ++ ((attributeCandidate loud).label.toList ++ ['=']) = line := by
    decide +kernel
  have h := completeAttributes_accepted ctx d ⟨2, 3⟩ _ context _ hline (by decide) hc rfl hcontext
    hstart (by decide) (List.all_eq_true.mp hchars) (by decide)
  dsimp only at h
  rw [hnew] at h
  obtain ⟨hfeed, owner', a, -, howner', hnamed, ha, hvalues⟩ := h
  cases howner.symm.trans howner'
  have hloud : sound.attributeNamed? "Loud-2" = some loud := by decide +kernel
  cases hloud.symm.trans ha
  exact ⟨hc, context, hcontext, hstart, hfeed, hnamed, hvalues⟩

/-- An attribute whose name is empty is offered too, but nothing before the equals sign names no
attribute. -/
theorem completeAttributes_accepted_nameless :
    let nameless : AttributeEntry :=
      { name := "", aliases := [], valueType := none, description := none, default := none
        inlineConditions := false, dataset := none }
    let sound : ObjectEntry :=
      { name := "sound", aliases := [], description := none, link := none
        attributes := [nameless] }
    let registry := { Registry.empty with mechanics := .ofList [sound] }
    let ctx : Context := { Context.empty with registry }
    let d := Document.ofText .lineFeed "Skills:\n- sound\x7b".toList
    let d' := Document.ofText .lineFeed "Skills:\n- sound\x7b=".toList
    let c := attributeCandidate nameless
    d.line? 1 = some "- sound\x7b".toList ∧ c ∈ ctx.completeAttributes d ⟨1, 8⟩ ∧ c.kind = .key ∧
      (∃ context, d.argumentContext? ⟨1, 8⟩ = some context ∧
        StartsArgument context.owner.inner) ∧
      (c.label.toList.all isAttributeChar = true ∧ c.label.toList.head? ≠ some '-') ∧
      d'.lines = d.lines.set 1 ("- sound\x7b".toList ++ (c.label.toList ++ ['='])) ∧
      ∀ owner, d'.contextOwner? ctx.registry ctx.settings ⟨1, 9⟩ ≠ some (owner, some c.label) := by
  intro nameless sound registry ctx d d' c
  have hscope : (d.argumentContext? ⟨1, 8⟩).map (·.owner.inner) = some [] := by decide +kernel
  obtain ⟨context, hcontext, hinner⟩ := Option.map_eq_some_iff.mp hscope
  have howner : d'.contextOwner? ctx.registry ctx.settings ⟨1, 9⟩ =
      some (⟨.mechanic, sound, "sound"⟩, none) := by decide +kernel
  refine ⟨by decide +kernel, by decide +kernel, rfl, ⟨context, hcontext, hinner ▸ .first nofun⟩,
    by decide +kernel, by decide +kernel, fun owner h => ?_⟩
  cases howner.symm.trans h

end Context

end SkillScript
