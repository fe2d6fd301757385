import SkillScript.Key.KeyLine
import SkillScript.Proofs.Text.Pieces

/-!
# How key lines are written

A key line is blanks, a key in quotes or bare (`KeyToken`), a colon, and a value that is empty or
starts with a blank (`IsValue`). `KeyLine.parse?` splits such a line at its colon, and only such a
line. The key ends at the first colon that can end it, so what is behind the colon decides whether
the line is a key line but not what the key is.

* `KeyLine.parse?_token`: the value decides whether a line with a key and a colon is a key line.
* `KeyLine.written_of_parse?`: every key line is written like that.
* `KeyLine.parse?_append`: what happens to a key line when more is typed at its end.
* `KeyLine.parse?_append_of_notMem`: text without a colon does not change what key a line has.
* `Key.parse?_spelled`: the key lines are those that the grammar has (`KeyLine.Spelled`), each in
  one way only, and that way is read.
-/

namespace SkillScript

/-- `token` is a way to write the key `name`: between quotes, or bare. -/
inductive KeyToken : List Char → List Char → Prop where
  | quoted {quote : Char} {name : List Char} (hquote : quote = '"' ∨ quote = '\'')
      (hname : quote ∉ name) : KeyToken (quote :: name ++ [quote]) name
  | bare {c : Char} {rest : List Char} (hc : c ≠ '-')
      (hchars : ∀ x ∈ c :: rest, isBareChar x = true) : KeyToken (c :: rest) (c :: rest)

/-- The text may stand behind the colon of a key: it is empty or starts with a blank. -/
def IsValue (value : List Char) : Prop := ∀ c, value.head? = some c → isBlank c = true

instance (value : List Char) : Decidable (IsValue value) :=
  match value with
  | [] => .isTrue nofun
  | c :: _ => decidable_of_iff (isBlank c = true) (by simp [IsValue])

theorem isValue_append {a b : List Char} (ha : a ≠ []) : IsValue (a ++ b) ↔ IsValue a := by
  obtain ⟨c, a, rfl⟩ := List.exists_cons_of_ne_nil ha
  simp [IsValue]

theorem isBlank_of_isBareChar {c : Char} (h : isBareChar c = true) : isBlank c = false := by
  simp only [isBareChar, Bool.not_eq_true', Bool.or_eq_false_iff] at h
  exact h.1.1.1.1

/-- A key does not start with a blank. -/
theorem KeyToken.isBlank_head {token name : List Char} (h : KeyToken token name)
    (more : List Char) : ∀ c, (token ++ more).head? = some c → isBlank c = false := by
  intro c hc
  cases h with
  | quoted hquote hname =>
    cases hc
    rcases hquote with rfl | rfl <;> decide
  | bare hfirst hchars =>
    cases hc
    exact isBlank_of_isBareChar (hchars _ List.mem_cons_self)

namespace KeyLine

theorem finish_colon (indent token name value : List Char) :
    finish indent token name (':' :: value) =
      if IsValue value then some ⟨indent, token, String.ofList name, value⟩ else none := by
  cases value with
  | nil => simp [finish, IsValue]
  | cons c value => by_cases hc : isBlank c = true <;> simp [finish, IsValue, hc]

theorem finish_eq_some {indent token name cs : List Char} {k : KeyLine}
    (h : finish indent token name cs = some k) :
    ∃ value, cs = ':' :: value ∧ IsValue value ∧
      k = ⟨indent, token, String.ofList name, value⟩ := by
  cases cs with
  | nil => simp [finish] at h
  | cons c value =>
    by_cases hc : c = ':'
    · subst hc
      rw [finish_colon] at h
      split at h
      · next hvalue => exact ⟨value, rfl, hvalue, (Option.some.inj h).symm⟩
      · cases h
    · simp [finish, hc] at h

/-- With blanks, a key and a colon at its start, a line is a key line just when a value follows. -/
theorem parse?_token {indent token name : List Char} (hindent : ∀ c ∈ indent, isBlank c = true)
    (htoken : KeyToken token name) (value : List Char) :
    parse? (indent ++ token ++ ':' :: value) =
      if IsValue value then some ⟨indent, token, String.ofList name, value⟩ else none := by
  obtain ⟨htake, hdrop⟩ := span_append hindent (htoken.isBlank_head (':' :: value))
  rw [← finish_colon, List.append_assoc, parse?, htake, hdrop]
  cases htoken with
  | @quoted quote name hquote hname =>
    have hinside : ∀ x ∈ name, (x != quote) = true := by
      intro x hx
      have : x ≠ quote := fun h => hname (h ▸ hx)
      simpa using this
    have hclose : ∀ x, (quote :: ':' :: value).head? = some x → (x != quote) = false := by simp
    obtain ⟨hname', hafter⟩ := span_append hinside hclose
    have hopens : (decide (quote = '"') || decide (quote = '\'')) = true := by simpa using hquote
    simp only [List.cons_append, List.append_assoc, List.nil_append, hopens, ↓reduceIte, quotedKey,
      hafter, hname']
  | @bare c rest hc hchars =>
    have hbare := hchars c List.mem_cons_self
    have hrest : ∀ x ∈ rest, isBareChar x = true := fun x hx => hchars x (List.mem_cons_of_mem c hx)
    have hopens : (decide (c = '"') || decide (c = '\'')) = false := by
      simp only [isBareChar, Bool.not_eq_true', Bool.or_eq_false_iff, beq_eq_false_iff_ne] at hbare
      simp [hbare.2, hbare.1.2]
    have hcolon : ∀ x, (':' :: value).head? = some x → isBareChar x = false := by
      rintro x ⟨⟩
      decide
    obtain ⟨htaken, hleft⟩ := span_append hrest hcolon
    have hstart : (isBareChar c && c != '-') = true := by simpa [hbare] using hc
    simp only [List.cons_append, hopens, Bool.false_eq_true, ↓reduceIte, hstart, htaken, hleft]

/-- A key line is written with blanks, a key, a colon and a value. -/
structure Written (line : List Char) (k : KeyLine) : Prop where
  line_eq : line = k.indent ++ k.token ++ ':' :: k.value
  blank : ∀ c ∈ k.indent, isBlank c = true
  token : ∃ name, KeyToken k.token name ∧ k.name = String.ofList name
  value : IsValue k.value

/-- The blanks before the key are the indentation, also with more text behind the line. -/
theorem Written.takeWhile_append {line : List Char} {k : KeyLine} (h : Written line k)
    (more : List Char) : (line ++ more).takeWhile isBlank = k.indent := by
  obtain ⟨name, htoken, -⟩ := h.token
  rw [h.line_eq, List.append_assoc, List.append_assoc]
  exact (span_append h.blank (htoken.isBlank_head _)).1

theorem written_of_finish {indent token name cs : List Char} {k : KeyLine}
    (hindent : ∀ c ∈ indent, isBlank c = true) (htoken : KeyToken token name)
    (h : finish indent token name cs = some k) : Written (indent ++ token ++ cs) k := by
  obtain ⟨value, rfl, hvalue, rfl⟩ := finish_eq_some h
  exact ⟨rfl, hindent, ⟨name, htoken, rfl⟩, hvalue⟩

theorem written_of_quotedKey {indent cs : List Char} {quote : Char} {k : KeyLine}
    (hindent : ∀ c ∈ indent, isBlank c = true) (hquote : quote = '"' ∨ quote = '\'')
    (h : quotedKey indent quote cs = some k) : Written (indent ++ quote :: cs) k := by
  unfold quotedKey at h
  extract_lets name at h
  split at h
  · next q after hafter =>
    have hhead : (cs.dropWhile (· != quote)).head? = some q := by rw [hafter]; rfl
    have hq : q = quote := by simpa using of_head?_dropWhile hhead
    have hname : quote ∉ name := fun hmem => by simpa using List.mem_takeWhile_imp hmem
    have hcs : cs = name ++ quote :: after := by
      rw [← hq, ← hafter]
      exact List.takeWhile_append_dropWhile.symm
    rw [hcs]
    simpa using written_of_finish hindent (.quoted hquote hname) h
  · cases h

theorem written_of_parse? {line : List Char} {k : KeyLine} (h : parse? line = some k) :
    Written line k := by
  have hline : line.takeWhile isBlank ++ line.dropWhile isBlank = line :=
    List.takeWhile_append_dropWhile
  have hindent : ∀ c ∈ line.takeWhile isBlank, isBlank c = true :=
    fun c hc => List.mem_takeWhile_imp hc
  unfold parse? at h
  split at h
  · cases h
  · next c rest hrest =>
    rw [← hline, hrest]
    dsimp only at h
    split at h
    · next hquote => exact written_of_quotedKey hindent (by simpa using hquote) h
    · split at h
      · next hbare =>
        rw [Bool.and_eq_true, bne_iff_ne] at hbare
        have htoken :
            KeyToken (c :: rest.takeWhile isBareChar) (c :: rest.takeWhile isBareChar) := by
          refine .bare hbare.2 fun x hx => ?_
          rcases List.mem_cons.mp hx with rfl | hx
          · exact hbare.1
          · exact List.mem_takeWhile_imp hx
        simpa using written_of_finish hindent htoken h
      · cases h

/-- A key line is indented by its leading blanks. -/
theorem indent_of_parse? {line : List Char} {k : KeyLine} (h : parse? line = some k) :
    k.indent = line.takeWhile isBlank := by
  have := (written_of_parse? h).takeWhile_append []
  rw [List.append_nil] at this
  exact this.symm

/-- More text behind a key line belongs to the value. Only right behind the colon can it make the
line no key line. -/
theorem parse?_append {line : List Char} {k : KeyLine} (h : parse? line = some k)
    (more : List Char) :
    parse? (line ++ more) =
      if IsValue (k.value ++ more) then some { k with value := k.value ++ more } else none := by
  obtain ⟨hline, hblank, ⟨name, htoken, hname⟩, -⟩ := written_of_parse? h
  have hmore : line ++ more = k.indent ++ k.token ++ ':' :: (k.value ++ more) := by
    rw [hline, List.append_assoc, List.cons_append]
  rw [hmore, parse?_token hblank htoken, ← hname]

/-- Text without a colon does not make a key line of what is none. -/
theorem parse?_append_eq_none {line more : List Char} (h : parse? line = none)
    (hcolon : ':' ∉ more) : parse? (line ++ more) = none := by
  cases hparse : parse? (line ++ more) with
  | none => rfl
  | some k =>
    obtain ⟨hline, hblank, ⟨name, htoken, -⟩, hvalue⟩ := written_of_parse? hparse
    rcases List.append_eq_append_iff.mp hline with ⟨_, -, rfl⟩ | ⟨rest, rfl, hrest⟩
    · exact absurd (List.mem_append_right _ List.mem_cons_self) hcolon
    · -- The colon of the key is in the line, and what decides on the value directly follows it.
      cases rest with
      | nil =>
        rw [List.nil_append] at hrest
        exact absurd (hrest ▸ List.mem_cons_self) hcolon
      | cons c value =>
        rw [List.cons_append] at hrest
        obtain ⟨rfl, hsplit⟩ := List.cons.inj hrest
        rw [parse?_token hblank htoken] at h
        by_cases hnil : value = []
        · simp [hnil, IsValue] at h
        · rw [hsplit, isValue_append hnil] at hvalue
          rw [if_pos hvalue] at h
          cases h

/-- Text without a colon that does not directly follow the colon of a key is part of the value, or
the line stays no key line. -/
theorem parse?_append_of_notMem {line more : List Char} (hcolon : ':' ∉ more)
    (hvalue : ∀ k, parse? line = some k → k.value ≠ []) :
    parse? (line ++ more) = (parse? line).map fun k => { k with value := k.value ++ more } := by
  cases h : parse? line with
  | none => exact parse?_append_eq_none h hcolon
  | some k =>
    have hsome : IsValue (k.value ++ more) :=
      (isValue_append (hvalue k h)).mpr (written_of_parse? h).value
    rw [parse?_append h more, if_pos hsome, Option.map_some]

/-! ## The grammar of key lines -/

/-- The line has these four parts around its colon: blanks, a key as it is written, the key itself,
and a rest that is empty or starts with a blank. -/
structure Spelled (line indent token name rest : List Char) : Prop where
  line_eq : line = indent ++ token ++ [':'] ++ rest
  blanks : ∀ c ∈ indent, isBlank c = true
  token : (token = ['"'] ++ name ++ ['"'] ∧ '"' ∉ name) ∨
    (token = ['\''] ++ name ++ ['\''] ∧ '\'' ∉ name) ∨
    (token = name ∧ name ≠ [] ∧ name.head? ≠ some '-' ∧
      ∀ c ∈ name, isBlank c = false ∧ c ∉ [':', '#', '\'', '"'])
  rest : rest = [] ∨ ∃ c cs, rest = c :: cs ∧ isBlank c = true

theorem isBareChar_iff {c : Char} :
    isBareChar c = true ↔ isBlank c = false ∧ c ∉ [':', '#', '\'', '"'] := by
  simp [isBareChar, and_assoc]

variable {line indent token name rest : List Char}

theorem Spelled.keyToken (h : Spelled line indent token name rest) : KeyToken token name := by
  rcases h.token with ⟨rfl, hname⟩ | ⟨rfl, hname⟩ | ⟨rfl, hne, hdash, hchars⟩
  · exact .quoted (.inl rfl) hname
  · exact .quoted (.inr rfl) hname
  · obtain ⟨c, cs, rfl⟩ := List.exists_cons_of_ne_nil hne
    refine .bare ?_ fun x hx => isBareChar_iff.mpr (hchars x hx)
    simpa using hdash

theorem Spelled.parse?_eq (h : Spelled line indent token name rest) :
    parse? line = some ⟨indent, token, String.ofList name, rest⟩ := by
  have hvalue : IsValue rest := by
    rcases h.rest with rfl | ⟨c, cs, rfl, hc⟩
    · exact nofun
    · rintro x ⟨⟩
      exact hc
  have hparse := parse?_token h.blanks h.keyToken rest
  rw [if_pos hvalue] at hparse
  rw [h.line_eq, ← hparse]
  simp

theorem spelled_of_parse? {k : KeyLine} (h : parse? line = some k) :
    ∃ name, Spelled line k.indent k.token name k.value := by
  obtain ⟨hline, hblank, ⟨name, htoken, -⟩, hvalue⟩ := written_of_parse? h
  refine ⟨name, by simpa using hline, hblank, ?_, ?_⟩
  · generalize k.token = token at htoken
    cases htoken with
    | quoted hquote hname =>
      rcases hquote with rfl | rfl
      · exact .inl ⟨rfl, hname⟩
      · exact .inr (.inl ⟨rfl, hname⟩)
    | bare hc hchars =>
      refine .inr (.inr ⟨rfl, List.cons_ne_nil _ _, ?_, ?_⟩)
      · simpa using hc
      · intro x hx
        exact isBareChar_iff.mp (hchars x hx)
  · cases hrest : k.value with
    | nil => exact .inl rfl
    | cons c cs => exact .inr ⟨c, cs, rfl, hvalue c (by rw [hrest]; rfl)⟩

theorem isSome_parse?_iff :
    (parse? line).isSome ↔ ∃ indent token name rest, Spelled line indent token name rest := by
  constructor
  · intro h
    obtain ⟨k, hk⟩ := Option.isSome_iff_exists.mp h
    obtain ⟨name, hspelled⟩ := spelled_of_parse? hk
    exact ⟨k.indent, k.token, name, k.value, hspelled⟩
  · rintro ⟨indent, token, name, rest, h⟩
    rw [h.parse?_eq]
    rfl

/-- A key line has its four parts in one way only. -/
theorem Spelled.unique {indent' token' name' rest' : List Char}
    (h : Spelled line indent token name rest) (h' : Spelled line indent' token' name' rest') :
    indent' = indent ∧ token' = token ∧ name' = name ∧ rest' = rest := by
  have hsame := h'.parse?_eq.symm.trans h.parse?_eq
  simpa [String.ofList_inj] using hsame

theorem Spelled.indentation_eq (h : Spelled line indent token name rest) :
    indentation line = indent.length := by
  rw [indentation, ← indent_of_parse? h.parse?_eq]

end KeyLine

/-- A line is read as a key, and has an offset past the colon, just when the grammar has it as a key
line. It has its parts in one way only. The key read is the token without its quotes, its
indentation is the number of blanks, and the offset is the number of bytes up to the colon and with
it. -/
theorem Key.parse?_spelled (line : List Char) (n : Nat) :
    let offset? := (KeyLine.parse? line).map KeyLine.valueOffset
    ((Key.parse? line n).isSome ↔
      ∃ indent token name rest, KeyLine.Spelled line indent token name rest) ∧
    (offset?.isSome ↔ ∃ indent token name rest, KeyLine.Spelled line indent token name rest) ∧
    ∀ indent token name rest, KeyLine.Spelled line indent token name rest →
      Key.parse? line n = some ⟨String.ofList name, n, indent.length⟩ ∧
      indentation line = indent.length ∧
      offset? = some (byteLength (indent ++ token ++ [':'])) ∧
      ∀ indent' token' name' rest', KeyLine.Spelled line indent' token' name' rest' →
        indent' = indent ∧ token' = token ∧ name' = name ∧ rest' = rest := by
  intro offset?
  refine ⟨?_, ?_, fun indent token name rest h =>
    ⟨?_, h.indentation_eq, ?_, fun _ _ _ _ => h.unique⟩⟩
  · rw [Key.parse?, Option.isSome_map, KeyLine.isSome_parse?_iff]
  · rw [Option.isSome_map, KeyLine.isSome_parse?_iff]
  · rw [Key.parse?, h.parse?_eq, Option.map_some]
  · have hcolon : byteLength [':'] = 1 := by decide
    simp only [offset?, h.parse?_eq, Option.map_some, KeyLine.valueOffset, byteLength_append,
      hcolon]

/-- A key in double quotes with a colon and an apostrophe in it, behind a tab and a wide space. -/
theorem Key.parse?_spelled_quoted :
    let line := "\t　\"a: 'ä\": b: c".toList
    KeyLine.Spelled line "\t　".toList "\"a: 'ä\"".toList "a: 'ä".toList " b: c".toList ∧
      Key.parse? line 7 = some ⟨"a: 'ä", 7, 2⟩ ∧
      (KeyLine.parse? line).map KeyLine.valueOffset = some 13 ∧
      ¬ KeyLine.Spelled line "\t　".toList "\"a".toList "\"a".toList " 'ä\": b: c".toList := by
  intro line
  have hspelled : KeyLine.Spelled line "\t　".toList "\"a: 'ä\"".toList "a: 'ä".toList
      " b: c".toList :=
    ⟨by decide +kernel, List.all_eq_true.mp (by decide +kernel),
      .inl ⟨by decide +kernel, by decide +kernel⟩, .inr ⟨_, _, rfl, by decide +kernel⟩⟩
  obtain ⟨hkey, -, hoffset, hunique⟩ := (Key.parse?_spelled line 7).2.2 _ _ _ _ hspelled
  refine ⟨hspelled, hkey, hoffset, fun h => ?_⟩
  exact absurd (hunique _ _ _ _ h).2.1 (by decide +kernel)

end SkillScript
