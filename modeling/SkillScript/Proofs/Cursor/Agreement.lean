import SkillScript.Cursor.Target
import SkillScript.Proofs.Key.Grammar
import SkillScript.Proofs.Line.Enclosing
import SkillScript.Proofs.Line.Words

/-!
# The queries about the cursor agree

`Document.found` and `Document.category?` read the excerpt up to the word under the cursor, and
`Document.contextOwner?` reads it up to the cursor itself. The part of the word in between opens and
closes no group and starts no argument, so all three see the same scope and the same attribute.

* `Document.excerpt_eq_append`: the excerpt is the text before the word and a part of the word.
* `currentAttribute?_append`: such a part does not change the attribute being typed.
* `Document.contextOwner?_of_target`: where the word denotes an attribute, its owner is the object
  whose arguments are being typed.
-/

namespace SkillScript

/-! ## Text that does not change the argument it ends -/

/-- The characters that divide a text into groups and arguments. -/
def argumentMarks : List Char := ['\x7b', '[', '\x7d', ']', ';', ',', '=']

/-- None of the characters divides a text into groups and arguments. -/
def Unmarked (cs : List Char) : Prop := ∀ c ∈ cs, c ∉ argumentMarks

instance (cs : List Char) : Decidable (Unmarked cs) :=
  List.decidableBAll (fun c => c ∉ argumentMarks) cs

theorem Unmarked.append {a b : List Char} (ha : Unmarked a) (hb : Unmarked b) : Unmarked (a ++ b) :=
  fun c hc => (List.mem_append.mp hc).elim (ha c) (hb c)

theorem unmarked_of_isWordChar {cs : List Char} (h : ∀ c ∈ cs, isWordChar c = true) :
    Unmarked cs := by
  have hmarks : argumentMarks.all (!isWordChar ·) = true := by decide
  intro c hc hm
  simpa [h c hc] using List.all_eq_true.mp hmarks c hm

theorem unmarked_sigil (sigil : Option Sigil) : Unmarked (Sigil.chars sigil) := by
  rcases sigil with _ | sigil
  · decide
  · cases sigil <;> decide

theorem Unmarked.tail {c : Char} {cs : List Char} (h : Unmarked (c :: cs)) : Unmarked cs :=
  fun x hx => h x (List.mem_cons_of_mem c hx)

theorem notMem_argumentMarks {c : Char} (h : c ∉ argumentMarks) :
    IsPlain c ∧ isSeparator c = false ∧ c ≠ '=' := by
  simp only [argumentMarks, List.mem_cons, List.not_mem_nil, or_false, not_or] at h
  simp [IsPlain, isOpener, isCloser, isSeparator, h]

/-- A text without marks opens and closes nothing. -/
theorem Unmarked.balanced {cs : List Char} (h : Unmarked cs) : Balanced cs :=
  balanced_of_plain fun c hc => (notMem_argumentMarks (h c hc)).1

/-- Without a separator no other argument starts. -/
theorem lastArgument_unseparated (depth : Nat) (argument : List Char) {piece : List Char}
    (h : ∀ c ∈ piece, isSeparator c = false) : lastArgument depth argument piece = argument := by
  induction piece generalizing depth with
  | nil => rfl
  | cons c piece ih =>
    have hc := h c List.mem_cons_self
    simp [lastArgument, hc, ih _ fun x hx => h x (List.mem_cons_of_mem c hx)]

/-- What follows a text without a separator stays in its last argument. -/
theorem lastArgument_append (depth : Nat) (argument cs : List Char) {piece : List Char}
    (h : ∀ c ∈ piece, isSeparator c = false) :
    lastArgument depth (argument ++ piece) (cs ++ piece) =
      lastArgument depth argument cs ++ piece := by
  induction cs generalizing depth argument with
  | nil => exact lastArgument_unseparated depth _ h
  | cons c cs ih =>
    simp only [List.cons_append, lastArgument]
    split
    · exact ih 0 cs
    · exact ih _ argument

theorem beforeEquals?_unmarked (depth : Nat) {piece : List Char} (h : Unmarked piece) :
    beforeEquals? depth piece = none := by
  induction piece generalizing depth with
  | nil => rfl
  | cons c piece ih =>
    have hc := notMem_argumentMarks (h c List.mem_cons_self)
    simp [beforeEquals?, hc.2.2, ih _ h.tail]

theorem beforeEquals?_append (depth : Nat) (cs : List Char) {piece : List Char}
    (h : Unmarked piece) : beforeEquals? depth (cs ++ piece) = beforeEquals? depth cs := by
  induction cs generalizing depth with
  | nil => exact beforeEquals?_unmarked depth h
  | cons c cs ih => simp only [List.cons_append, beforeEquals?, ih]

/-- The attribute being typed is known at its equals sign, and no part of a word has one. -/
theorem currentAttribute?_append (inner : List Char) {piece : List Char} (h : Unmarked piece) :
    currentAttribute? (inner ++ piece) = currentAttribute? inner := by
  have hsame : ∀ c ∈ piece, isSeparator c = false := fun c hc => (notMem_argumentMarks (h c hc)).2.1
  rw [currentAttribute?, lastArgument_append 0 inner inner hsame, beforeEquals?_append 0 _ h]
  rfl

/-! ## The word and the text before the cursor -/

namespace Word

/-- The word starts before the boundary, and only parts of it and of its sigil are in between, or it
starts at the boundary or past it. -/
theorem before_of_between {left right : List Char} {w : Word} (h : between left right = some w) :
    (∃ piece, Unmarked piece ∧ left = w.before ++ piece) ∨ ∃ dashes, w.before = left ++ dashes := by
  obtain ⟨lead, dashes, tail, a, b, hstands, rfl, -, hrun⟩ := stands_of_between h
  have hbefore := hstands.before_append
  have hchars : Unmarked (dashes ++ w.text) := unmarked_of_isWordChar hstands.run
  rcases List.append_eq_append_iff.mp hrun with ⟨more, hdashes, -⟩ | ⟨word, ha, htext⟩
  · by_cases hnil : dashes = []
    · obtain ⟨rfl, rfl⟩ := List.append_eq_nil_iff.mp (hdashes.symm.trans hnil)
      refine .inl ⟨Sigil.chars w.sigil, unmarked_sigil w.sigil, ?_⟩
      rw [hbefore, hdashes]
      rfl
    · refine .inr ⟨more, ?_⟩
      rw [hstands.sigil_eq_none hnil, hdashes] at hbefore
      simpa [Sigil.chars] using hbefore
  · refine .inl ⟨Sigil.chars w.sigil ++ word, (unmarked_sigil w.sigil).append ?_, ?_⟩
    · intro c hc
      exact hchars c (by simp [htext, hc])
    · rw [ha, ← List.append_assoc, ← List.append_assoc, hbefore]

end Word

/-- The last line of a text of several lines ends it. -/
theorem exists_intercalate_concat (sep : List Char) (lines : List (List Char)) (last : List Char) :
    ∃ before, List.intercalate sep (lines ++ [last]) = before ++ last :=
  ⟨List.intercalate sep (lines ++ [[]]), intercalate_concat_append sep lines [] last⟩

/-! ## The excerpt ends at the cursor -/

/-- The value of a key line ends it. -/
theorem KeyLine.value_suffix {line : List Char} {k : KeyLine} (h : parse? line = some k) :
    k.value <:+ line := by
  rw [(written_of_parse? h).line_eq]
  exact (List.suffix_cons ':' k.value).trans (List.suffix_append _ _)

theorem lastItem_lt (depth index best : Nat) (lines : List (List Char))
    (h : best < index + lines.length) : lastItem depth index best lines < index + lines.length := by
  induction lines generalizing depth index best with
  | nil => exact h
  | cons line lines ih =>
    rw [List.length_cons] at h ⊢
    have hbest : (if 0 < index && depth == 0 && startsItem line then index else best) <
        index + 1 + lines.length := by
      split <;> omega
    have := ih (line.foldl bracketNest depth) (index + 1) _ hbest
    simp only [lastItem]
    omega

/-- Starting over at a list item keeps the last line. -/
theorem exists_drop_lastItem (lines : List (List Char)) (last : List Char) :
    ∃ kept, (lines ++ [last]).drop (lastItem 0 0 0 (lines ++ [last])) = kept ++ [last] ∧
      (lines = [] → kept = []) := by
  have hlt : lastItem 0 0 0 (lines ++ [last]) < lines.length + 1 := by
    simpa using lastItem_lt 0 0 0 (lines ++ [last]) (by simp)
  refine ⟨lines.drop (lastItem 0 0 0 (lines ++ [last])), ?_, ?_⟩
  · rw [List.drop_append_of_le_length (by omega)]
  · rintro rfl
    exact List.drop_nil

theorem suffix_drop_lastItem (lines : List (List Char)) (last : List Char) :
    last <:+ List.intercalate ['\n']
      ((lines ++ [last]).drop (lastItem 0 0 0 (lines ++ [last]))) := by
  obtain ⟨kept, hkept, -⟩ := exists_drop_lastItem lines last
  obtain ⟨before, hbefore⟩ := exists_intercalate_concat ['\n'] kept last
  exact ⟨before, by rw [hkept, hbefore]⟩

/-- Without its key, the text either keeps its last line or is the end of that line alone. -/
theorem exists_dropKey_concat (lines : List (List Char)) (last : List Char) :
    (∃ lines', dropKey (lines ++ [last]) = lines' ++ [last]) ∨
      ∃ value, value <:+ last ∧ dropKey (lines ++ [last]) = [value] := by
  rcases lines with _ | ⟨line, lines⟩
  · cases h : KeyLine.parse? last with
    | none => exact .inl ⟨[], by simp [dropKey, h]⟩
    | some k => exact .inr ⟨k.value, KeyLine.value_suffix h, by simp [dropKey, h]⟩
  · cases h : KeyLine.parse? line with
    | none => exact .inl ⟨line :: lines, by simp [dropKey, h]⟩
    | some k => exact .inl ⟨k.value :: lines, by simp [dropKey, h]⟩

namespace Document

variable (d : Document) (p : Position)

/-- The excerpt and the cursor line up to the cursor end in the same place. -/
theorem excerpt_suffix_or {left : List Char} (h : d.linePrefix? p = some left) :
    left <:+ (d.excerpt p).text ∨ (d.excerpt p).text <:+ left := by
  unfold excerpt
  cases d.boundary? p.line with
  | none => exact .inl (by simpa [linesBetween, h] using suffix_drop_lastItem _ left)
  | some key =>
    simp only [linesBetween, h, Option.getD_some]
    rcases exists_dropKey_concat _ left with ⟨lines', hlines⟩ | ⟨value, hvalue, hlines⟩
    · exact .inl (hlines ▸ suffix_drop_lastItem lines' left)
    · obtain ⟨kept, hkept, hnil⟩ := exists_drop_lastItem [] value
      rw [List.nil_append, hnil rfl] at hkept
      refine .inr ?_
      rw [hlines, hkept]
      simpa using hvalue

end Document

/-! ## The text between the word and the cursor -/

theorem wordAt_byteOffset (line : List Char) (n : Nat) :
    wordAt line (byteOffset line n) = .ok (Word.between (line.take n) (line.drop n)) := by
  have hline := List.take_append_drop n line
  have hmin : min (byteOffset line n) (byteLength line) = byteLength (line.take n) := by
    have : byteLength line = byteLength (line.take n) + byteLength (line.drop n) := by
      rw [← byteLength_append, hline]
    simp only [byteOffset]
    omega
  have hsplit : splitAtByte? line (byteLength (line.take n)) = some (line.take n, line.drop n) := by
    have := splitAtByte?_append (line.take n) (line.drop n)
    rwa [hline] at this
  simp only [wordAt, hmin, hsplit]

namespace Document

variable {d : Document} {p : Position} {word : Word}

/-- The cursor line that a word was found on. -/
theorem between_of_wordAt? (h : d.wordAt? p = some word) :
    ∃ line, d.line? p.line = some line ∧
      Word.between (line.take p.character) (line.drop p.character) = some word := by
  unfold wordAt? at h
  cases hline : d.line? p.line with
  | none => simp [hline] at h
  | some line => exact ⟨line, rfl, by simpa only [hline, wordAt_byteOffset] using h⟩

/-- What ends the cursor line up to the cursor ends the excerpt, when the excerpt has the bytes. -/
theorem suffix_excerpt {line piece : List Char} (hline : d.line? p.line = some line)
    (hpiece : piece <:+ line.take p.character)
    (hle : byteLength piece ≤ byteLength (d.excerpt p).text) : piece <:+ (d.excerpt p).text := by
  have hprefix : d.linePrefix? p = some (line.take p.character) := by simp [linePrefix?, hline]
  rcases d.excerpt_suffix_or p hprefix with h | h
  · exact hpiece.trans h
  · exact suffix_of_byteLength_le hpiece h hle

/-- The excerpt is cut before as many bytes as the line has from the word's sigil to the cursor. -/
theorem beforeWord?_of_append {line before piece : List Char} (hline : d.line? p.line = some line)
    (htext : (d.excerpt p).text = before ++ piece)
    (htyped : byteOffset line p.character - word.sigilStart = byteLength piece) :
    d.beforeWord? p word = some before := by
  have hle : byteLength piece ≤ byteLength (before ++ piece) := by
    rw [byteLength_append]
    omega
  have hcut : byteLength (before ++ piece) - byteLength piece = byteLength before := by
    rw [byteLength_append]
    omega
  simp only [beforeWord?, hline, htext, htyped, hle, hcut, ↓reduceIte, splitAtByte?_append,
    Option.map_some]

/-- What the cursor line has between the word and the cursor. -/
theorem wordAt?_eq_some (h : d.wordAt? p = some word) :
    ∃ line piece, d.line? p.line = some line ∧ Unmarked piece ∧ piece <:+ line.take p.character ∧
      byteOffset line p.character - word.sigilStart = byteLength piece := by
  obtain ⟨line, hline, hbetween⟩ := between_of_wordAt? h
  refine ⟨line, ?_⟩
  rcases Word.before_of_between hbetween with ⟨piece, hpiece, hleft⟩ | ⟨dashes, hbefore⟩
  · refine ⟨piece, hline, hpiece, ⟨word.before, hleft.symm⟩, ?_⟩
    simp [byteOffset, Word.sigilStart, hleft]
  · refine ⟨[], hline, by simp [Unmarked], List.nil_suffix, ?_⟩
    simp [byteOffset, Word.sigilStart, hbefore]

/-- The excerpt is the text before the word and a piece of the word. -/
theorem excerpt_eq_append {before : List Char} (hw : d.wordAt? p = some word)
    (hb : d.beforeWord? p word = some before) :
    ∃ piece, Unmarked piece ∧ (d.excerpt p).text = before ++ piece := by
  obtain ⟨line, piece, hline, hpiece, hleft, htyped⟩ := wordAt?_eq_some hw
  have hle : byteLength piece ≤ byteLength (d.excerpt p).text := by
    by_contra hlt
    simp [beforeWord?, hline, htyped, hlt] at hb
  obtain ⟨rest, hrest⟩ := suffix_excerpt hline hleft hle
  cases hb.symm.trans (beforeWord?_of_append hline hrest.symm htyped)
  exact ⟨piece, hpiece, hrest.symm⟩

/-! ## Agreement -/

theorem cursorTarget?_eq_some {settings : Settings} {t : CursorTarget}
    (h : d.cursorTarget? settings p = some t) :
    ∃ word piece, d.sectionCategory? settings p.line = some t.sectionCategory ∧ Unmarked piece ∧
      (d.excerpt p).text = t.before ++ piece ∧ t.target = Target.of t.before word := by
  simp only [cursorTarget?, Option.bind_eq_bind, Option.bind_eq_some_iff] at h
  obtain ⟨category, hcategory, word, hword, before, hbefore, ht⟩ := h
  cases ht
  obtain ⟨piece, hpiece, hexcerpt⟩ := excerpt_eq_append hword hbefore
  exact ⟨word, piece, hcategory, hpiece, hexcerpt, rfl⟩

end Document

/-- An attribute is denoted inside braces only, by the attribute being typed if there is one. -/
theorem Target.of_eq_argument {before : List Char} {word : Word} {scope : Scope} {name : String}
    (h : Target.of before word = .argument scope name) :
    Scope.find? before = some scope ∧ scope.delimiter = .brace ∧
      ∀ n, currentAttribute? scope.inner = some n → n = name := by
  unfold Target.of at h
  split at h
  · next found hfound =>
    split at h
    · next hd =>
      cases h
      exact ⟨hfound, hd, fun n hn => by simp [hn]⟩
    · cases h
  · cases h

theorem Registry.category_of_lookup? {r : Registry} {c : Category} {name : List Char}
    {o : ResolvedObject} (h : r.lookup? c name = some o) : o.category = c := by
  simp only [Registry.lookup?, Option.map_eq_some_iff] at h
  obtain ⟨entry, -, rfl⟩ := h
  rfl

theorem Surroundings.ownerCategory?_of_owner? {env : Surroundings} {scope : Scope}
    {o : ResolvedObject} (h : env.owner? scope = some o) :
    env.ownerCategory? scope = some o.category := by
  obtain ⟨c, hc, hlookup⟩ := Option.bind_eq_some_iff.mp h
  rw [hc, Registry.category_of_lookup? hlookup]

namespace Document

variable {d : Document} {p : Position}

/-- An object's arguments are being typed where its braces are the innermost open scope of a section
that has a category. -/
theorem contextOwner?_eq_some_iff {registry : Registry} {settings : Settings}
    {owner : ResolvedObject} {name : Option String} :
    d.contextOwner? registry settings p = some (owner, name) ↔
      ∃ category context, d.sectionCategory? settings p.line = some category ∧
        d.argumentContext? p = some context ∧ context.owner.delimiter = .brace ∧
        Surroundings.owner? ⟨category, registry, settings⟩ context.owner = some owner ∧
        context.attributeName = name := by
  simp only [contextOwner?, Option.bind_eq_bind, Option.bind_eq_some_iff]
  constructor
  · rintro ⟨category, hcategory, context, hcontext, h⟩
    cases hbrace : context.owner.delimiter with
    | bracket => simp [hbrace] at h
    | brace =>
      simp only [hbrace, Option.bind_eq_some_iff] at h
      obtain ⟨owner', howner, heq⟩ := h
      cases heq
      exact ⟨category, context, hcategory, hcontext, hbrace, howner, rfl⟩
  · rintro ⟨category, context, hcategory, hcontext, hbrace, howner, rfl⟩
    refine ⟨category, hcategory, context, hcontext, ?_⟩
    simp [hbrace, howner]

/-- Where the word under the cursor denotes an attribute, the arguments of its owner are being
typed. -/
theorem contextOwner?_of_target {registry : Registry} {settings : Settings} {before : List Char}
    {category : Category} {scope : Scope} {name : String} {owner : ResolvedObject}
    (h : d.cursorTarget? settings p = some ⟨before, category, .argument scope name⟩)
    (howner : Surroundings.owner? ⟨category, registry, settings⟩ scope = some owner) :
    ∃ n, d.contextOwner? registry settings p = some (owner, n) ∧ ∀ m, n = some m → m = name := by
  obtain ⟨word, piece, hcategory, hpiece, hexcerpt, htarget⟩ := cursorTarget?_eq_some h
  obtain ⟨hfind, hbrace, hname⟩ := Target.of_eq_argument htarget.symm
  -- The scope at the cursor is the one before the word, with the piece added inside.
  have hcontext : d.argumentContext? p = some
      { excerpt := d.excerpt p, owner := { scope with inner := scope.inner ++ piece }
        attributeName := currentAttribute? scope.inner } := by
    simp only [argumentContext?, hexcerpt, Scope.find?_append_balanced before hpiece.balanced,
      hfind, Option.map_some, currentAttribute?_append scope.inner hpiece]
  refine ⟨currentAttribute? scope.inner, ?_, hname⟩
  exact contextOwner?_eq_some_iff.mpr ⟨category, _, hcategory, hcontext, hbrace, howner, rfl⟩

/-- An object is looked up by the category of its target. -/
theorem found_of_target {registry : Registry} {settings : Settings} {before : List Char}
    {category : Category} {sigil : Option Sigil} {name : List Char}
    (h : d.cursorTarget? settings p = some ⟨before, category, .object sigil name⟩) :
    d.found registry settings p =
      ((d.category? registry settings p).bind fun c => registry.lookup? c name).elim
        .nothing .object := by
  cases sigil <;> simp only [found, category?, h] <;> split <;> rename_i hlookup <;>
    simp only [hlookup, Option.elim]

/-- An object that is found is of the category given, an attribute that is found belongs to the
object whose arguments are being typed and is the one being typed, and where there is no category
nothing is found. -/
theorem queries_agree (d : Document) (registry : Registry) (settings : Settings) (p : Position) :
    (∀ o, d.found registry settings p = .object o →
      d.category? registry settings p = some o.category) ∧
    (∀ a, d.found registry settings p = .argument a →
      d.category? registry settings p = some a.owner.category ∧
      ∃ n, d.contextOwner? registry settings p = some (a.owner, n) ∧
        ∀ name, n = some name → a.owner.entry.attributeNamed? name = some a.entry) ∧
    (d.category? registry settings p = none → d.found registry settings p = .nothing) := by
  cases h : d.cursorTarget? settings p with
  | none => simp [found, category?, h]
  | some t =>
    obtain ⟨before, category, target⟩ := t
    cases target with
    | object sigil name =>
      rw [found_of_target h]
      cases hlookup : (d.category? registry settings p).bind fun c => registry.lookup? c name with
      | none => simp
      | some o =>
        obtain ⟨c, hc, ho⟩ := Option.bind_eq_some_iff.mp hlookup
        simp [hc, Registry.category_of_lookup? ho]
    | argument scope name =>
      cases howner : Surroundings.owner? ⟨category, registry, settings⟩ scope with
      | none => simp [found, h, howner]
      | some owner =>
        have hcategory : d.category? registry settings p = some owner.category := by
          simp only [category?, h, Surroundings.ownerCategory?_of_owner? howner]
        cases hentry : owner.entry.attributeNamed? name with
        | none => simp [found, h, howner, hentry]
        | some entry =>
          obtain ⟨n, hn, hname⟩ := contextOwner?_of_target h howner
          have hfound : d.found registry settings p = .argument ⟨owner, entry⟩ := by
            simp only [found, h, howner, hentry]
          refine ⟨by simp [hfound], fun a ha => ?_, by simp [hcategory]⟩
          rw [hfound, Found.argument.injEq] at ha
          subst ha
          refine ⟨hcategory, n, hn, fun m hm => ?_⟩
          rw [hname m hm, hentry]

/-- The cursor in the name of a targeter, in a value among its arguments, and after a key. -/
theorem queries_agree_targeter :
    let radius : AttributeEntry :=
      { name := "radius", aliases := ["r"], valueType := none, description := none, default := none
        inlineConditions := false, dataset := none }
    let pir : ObjectEntry :=
      { name := "PIR", aliases := [], description := none, link := none, attributes := [radius] }
    let registry := { Registry.empty with targeters := .ofList [pir] }
    let d := ofText .lineFeed "Skills:\n- dmg\x7ba=1\x7d @pir\x7bx=2;R=10".toList
    let o : ResolvedObject := ⟨.targeter, pir, "pir"⟩
    (d.found registry .standard ⟨1, 14⟩ = .object o ∧
      d.category? registry .standard ⟨1, 14⟩ = some .targeter) ∧
    (d.found registry .standard ⟨1, 22⟩ = .argument ⟨o, radius⟩ ∧
      ∃ n, d.contextOwner? registry .standard ⟨1, 22⟩ = some (o, n)) ∧
    d.category? registry .standard ⟨0, 7⟩ = none ∧
    d.found registry .standard ⟨0, 7⟩ = .nothing := by
  intro radius pir registry d o
  have hobject : d.found registry .standard ⟨1, 14⟩ = .object o := by decide +kernel
  have hargument : d.found registry .standard ⟨1, 22⟩ = .argument ⟨o, radius⟩ := by decide +kernel
  have hnone : d.category? registry .standard ⟨0, 7⟩ = none := by decide +kernel
  obtain ⟨-, n, hn, -⟩ := (queries_agree d registry .standard ⟨1, 22⟩).2.1 _ hargument
  exact ⟨⟨hobject, (queries_agree d registry .standard ⟨1, 14⟩).1 o hobject⟩, ⟨hargument, n, hn⟩,
    hnone, (queries_agree d registry .standard ⟨0, 7⟩).2.2 hnone⟩

end Document

end SkillScript
