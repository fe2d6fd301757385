import SkillScript.Proofs.Cursor.Agreement
import SkillScript.Proofs.Line.Spacing

/-!
# The attribute that the last argument names

The text inside a scope is a row of arguments, and a separator outside any group ends each of them
but the last. Looking for the last argument and looking for its equals sign count depths anew, and
both are at depth zero where the last argument starts.

* `lastArgument_cases`, `EndsArgument.unique`: the last argument is what follows the last separator
  at depth zero.
* `beforeEquals?_eq_some`: what stands before the equals sign is at depth zero there.
* `NamedArgument`: the last argument is a name, an equals sign and a value, with blanks around the
  name. This is when the attribute being typed is known (`NamedArgument.currentAttribute?_eq`,
  `exists_namedArgument`).
-/

namespace SkillScript

/-! ## The last argument -/

/-- No separator of the text is at depth zero, when the text starts at `depth`. -/
def Unseparated (depth : Nat) (cs : List Char) : Prop :=
  ∀ before c after, cs = before ++ c :: after → depthAfter depth before = 0 → isSeparator c = false

/-- The text is empty, or ends in a separator at depth zero. -/
def EndsArgument (cs : List Char) : Prop :=
  cs = [] ∨ ∃ before c, cs = before ++ [c] ∧ depthAfter 0 before = 0 ∧ isSeparator c = true

theorem isPlain_of_isSeparator {c : Char} (h : isSeparator c = true) : IsPlain c := by
  simp only [isSeparator, Bool.or_eq_true, beq_iff_eq] at h
  rcases h with rfl | rfl <;> exact ⟨rfl, rfl⟩

theorem EndsArgument.closed {cs : List Char} (h : EndsArgument cs) : depthAfter 0 cs = 0 := by
  rcases h with rfl | ⟨before, c, rfl, hdepth, hc⟩
  · rfl
  · rw [depthAfter_append, hdepth, depthAfter_cons, nest_plain (isPlain_of_isSeparator hc),
      depthAfter_nil]

section Unseparated

variable {depth : Nat} {c : Char} {a b cs : List Char}

theorem unseparated_nil : Unseparated depth [] := by
  intro before c after h
  simp at h

theorem unseparated_cons_iff :
    Unseparated depth (c :: cs) ↔
      (depth = 0 → isSeparator c = false) ∧ Unseparated (nest depth c) cs := by
  constructor
  · intro h
    refine ⟨fun hdepth => h [] c cs rfl hdepth, fun before x after hcs hdepth => ?_⟩
    exact h (c :: before) x after (by rw [hcs]; rfl) hdepth
  · rintro ⟨hc, hcs⟩ before x after h hdepth
    cases before with
    | nil =>
      obtain ⟨rfl, -⟩ := List.cons.inj h
      exact hc hdepth
    | cons y before =>
      obtain ⟨rfl, htail⟩ := List.cons.inj h
      exact hcs before x after htail hdepth

theorem unseparated_append_iff :
    Unseparated depth (a ++ b) ↔ Unseparated depth a ∧ Unseparated (depthAfter depth a) b := by
  induction a generalizing depth with
  | nil => simp [unseparated_nil]
  | cons c a ih =>
    rw [List.cons_append, unseparated_cons_iff, unseparated_cons_iff, ih, depthAfter_cons,
      and_assoc]

instance decidableUnseparated : ∀ (depth : Nat) (cs : List Char), Decidable (Unseparated depth cs)
  | _, [] => isTrue unseparated_nil
  | depth, c :: cs =>
    have := decidableUnseparated (nest depth c) cs
    decidable_of_iff _ unseparated_cons_iff.symm

end Unseparated

/-- The last argument is the one at hand when no separator is at depth zero, and else what follows
the last of them. -/
theorem lastArgument_cases (depth : Nat) (argument cs : List Char) :
    (Unseparated depth cs ∧ lastArgument depth argument cs = argument) ∨
      ∃ before c, cs = before ++ c :: lastArgument depth argument cs ∧
        depthAfter depth before = 0 ∧ isSeparator c = true ∧
        Unseparated 0 (lastArgument depth argument cs) := by
  induction cs generalizing depth argument with
  | nil => exact .inl ⟨unseparated_nil, rfl⟩
  | cons c cs ih =>
    by_cases hc : isSeparator c = true ∧ depth = 0
    · -- The argument starts over behind `c`.
      obtain ⟨hsep, rfl⟩ := hc
      have hstart : lastArgument 0 argument (c :: cs) = lastArgument 0 cs cs := by
        simp [lastArgument, hsep]
      rw [hstart]
      right
      rcases ih 0 cs with ⟨hnone, hlast⟩ | ⟨before, x, hcs, hdepth, hx, hnone⟩
      · rw [hlast]
        exact ⟨[], c, rfl, rfl, hsep, hnone⟩
      · refine ⟨c :: before, x, by rw [List.cons_append, ← hcs], ?_, hx, hnone⟩
        rwa [depthAfter_cons, nest_plain (isPlain_of_isSeparator hsep)]
    · have hgoes : lastArgument depth argument (c :: cs) =
          lastArgument (nest depth c) argument cs := by
        simp only [lastArgument, Bool.and_eq_true, beq_iff_eq, hc, ↓reduceIte]
      rw [hgoes]
      rcases ih (nest depth c) argument with ⟨hnone, hlast⟩ | ⟨before, x, hcs, hdepth, hx, hnone⟩
      · refine .inl ⟨unseparated_cons_iff.mpr ⟨fun hzero => ?_, hnone⟩, hlast⟩
        by_contra hsep
        exact hc ⟨by simpa using hsep, hzero⟩
      · exact .inr ⟨c :: before, x, by rw [List.cons_append, ← hcs], hdepth, hx, hnone⟩

/-- A text is its last argument behind what ends the others. -/
theorem exists_lastArgument (inner : List Char) :
    ∃ lead, inner = lead ++ lastArgument 0 inner inner ∧ EndsArgument lead ∧
      Unseparated 0 (lastArgument 0 inner inner) := by
  rcases lastArgument_cases 0 inner inner with
    ⟨hnone, hlast⟩ | ⟨before, c, htext, hdepth, hc, hnone⟩
  · rw [hlast]
    exact ⟨[], rfl, .inl rfl, hnone⟩
  · exact ⟨before ++ [c], by rw [List.append_assoc]; exact htext, .inr ⟨before, c, rfl, hdepth, hc⟩,
      hnone⟩

/-- What ends the other arguments is not longer than any text before an unseparated one. -/
theorem EndsArgument.eq_nil_of_append {lead more last : List Char} (h : EndsArgument (lead ++ more))
    (hlead : depthAfter 0 lead = 0) (hlast : Unseparated 0 (more ++ last)) : more = [] := by
  rcases List.eq_nil_or_concat' more with hnil | ⟨more, c, rfl⟩
  · exact hnil
  · rcases h with hnil | ⟨before, x, hbefore, hdepth, hx⟩
    · simp at hnil
    · rw [← List.append_assoc] at hbefore
      obtain ⟨rfl, ⟨⟩⟩ := List.append_inj' hbefore rfl
      rw [depthAfter_append, hlead] at hdepth
      have hc := hlast more c last (by simp) hdepth
      rw [hx] at hc
      cases hc

/-- There is one way to take the last argument off a text. -/
theorem EndsArgument.unique {lead last lead' last' : List Char} (h : lead ++ last = lead' ++ last')
    (hlead : EndsArgument lead) (hlast : Unseparated 0 last) (hlead' : EndsArgument lead')
    (hlast' : Unseparated 0 last') : lead = lead' ∧ last = last' := by
  rcases List.append_eq_append_iff.mp h with ⟨more, rfl, rfl⟩ | ⟨more, rfl, rfl⟩
  · obtain rfl := hlead'.eq_nil_of_append hlead.closed hlast
    simp
  · obtain rfl := hlead.eq_nil_of_append hlead'.closed hlast'
    simp

/-! ## The equals sign -/

/-- What stands before the equals sign leaves no group open. -/
theorem beforeEquals?_eq_some {depth : Nat} {cs text : List Char}
    (h : beforeEquals? depth cs = some text) :
    ∃ value, cs = text ++ '=' :: value ∧ depthAfter depth text = 0 := by
  induction cs generalizing depth text with
  | nil => cases h
  | cons c cs ih =>
    rw [beforeEquals?] at h
    split at h
    · next hc =>
      obtain ⟨rfl, rfl⟩ : c = '=' ∧ depth = 0 := by simpa using hc
      obtain rfl := Option.some.inj h
      exact ⟨cs, rfl, rfl⟩
    · obtain ⟨text, htext, rfl⟩ := Option.map_eq_some_iff.mp h
      obtain ⟨value, rfl, hdepth⟩ := ih htext
      exact ⟨value, rfl, hdepth⟩

/-- A text without marks reaches up to the first equals sign. -/
theorem beforeEquals?_equals {cs : List Char} (h : Unmarked cs) (value : List Char) :
    beforeEquals? 0 (cs ++ '=' :: value) = some cs := by
  induction cs with
  | nil => rfl
  | cons c cs ih =>
    obtain ⟨hplain, -, hc⟩ := notMem_argumentMarks (h c List.mem_cons_self)
    simp [beforeEquals?, hc, nest_plain hplain, ih h.tail]

/-! ## The name -/

theorem isWordChar_of_isAttributeChar {c : Char} (h : isAttributeChar c = true) :
    isWordChar c = true := by
  simp only [isAttributeChar, isWordChar, Bool.or_eq_true] at h ⊢
  rcases h with h | h
  · exact .inl (.inl h)
  · exact .inr h

theorem unmarked_of_isBlank {cs : List Char} (h : ∀ c ∈ cs, isBlank c = true) : Unmarked cs := by
  have hmarks : argumentMarks.all (!isBlank ·) = true := by decide
  intro c hc hm
  simpa [h c hc] using List.all_eq_true.mp hmarks c hm

/-- The text is the ended arguments `lead`, and one that names an attribute: the name with blanks
around it, an equals sign and a value that no separator ends. -/
structure NamedArgument (inner lead left name right value : List Char) : Prop where
  text_eq : inner = lead ++ left ++ name ++ right ++ '=' :: value
  lead_ends : EndsArgument lead
  left_blank : ∀ c ∈ left, isBlank c = true
  right_blank : ∀ c ∈ right, isBlank c = true
  name_ne : name ≠ []
  name_chars : ∀ c ∈ name, isAttributeChar c = true
  value_unseparated : Unseparated 0 value

namespace NamedArgument

variable {inner lead left name right value : List Char}

theorem isWordChar_name (h : NamedArgument inner lead left name right value) :
    ∀ c ∈ name, isWordChar c = true :=
  fun c hc => isWordChar_of_isAttributeChar (h.name_chars c hc)

/-- What stands before the equals sign has no marks. -/
theorem unmarked (h : NamedArgument inner lead left name right value) :
    Unmarked (left ++ name ++ right) :=
  ((unmarked_of_isBlank h.left_blank).append (unmarked_of_isWordChar h.isWordChar_name)).append
    (unmarked_of_isBlank h.right_blank)

theorem unseparated (h : NamedArgument inner lead left name right value) :
    Unseparated 0 (left ++ name ++ right ++ '=' :: value) := by
  have hmarks := fun c hc => notMem_argumentMarks (h.unmarked c hc)
  rw [unseparated_append_iff, depthAfter_plain fun c hc => (hmarks c hc).1, unseparated_cons_iff]
  refine ⟨fun before c after htext _ => ?_, fun _ => rfl, h.value_unseparated⟩
  exact (hmarks c (by simp [htext])).2.1

theorem lastArgument_eq (h : NamedArgument inner lead left name right value) :
    lastArgument 0 inner inner = left ++ name ++ right ++ '=' :: value := by
  obtain ⟨lead', htext, hends, hnone⟩ := exists_lastArgument inner
  have hsame : lead' ++ lastArgument 0 inner inner =
      lead ++ (left ++ name ++ right ++ '=' :: value) := by
    rw [← htext, h.text_eq]
    simp
  exact (EndsArgument.unique hsame hends hnone h.lead_ends h.unseparated).2

/-- The attribute being typed is the one that is named. -/
theorem currentAttribute?_eq (h : NamedArgument inner lead left name right value) :
    currentAttribute? inner = some (String.ofList name) := by
  have htrim : trim (left ++ name ++ right) = name :=
    trim_between h.left_blank h.right_blank h.name_ne
      fun c hc => isBlank_of_isWordChar (h.isWordChar_name c hc)
  rw [currentAttribute?, h.lastArgument_eq, beforeEquals?_equals h.unmarked]
  dsimp only
  rw [htrim, if_pos]
  simpa using ⟨h.name_ne, h.name_chars⟩

end NamedArgument

/-- The attribute being typed is named by the last argument. -/
theorem exists_namedArgument {inner : List Char} {name : String}
    (h : currentAttribute? inner = some name) :
    ∃ lead left right value, NamedArgument inner lead left name.toList right value := by
  obtain ⟨lead, hinner, hends, hnone⟩ := exists_lastArgument inner
  unfold currentAttribute? at h
  split at h
  · cases h
  · next text htext =>
    obtain ⟨value, hlast, hdepth⟩ := beforeEquals?_eq_some htext
    obtain ⟨left, right, htrim, hleft, hright⟩ := exists_trim text
    dsimp only at h
    split at h
    · next hname =>
      obtain ⟨hne, hchars⟩ : trim text ≠ [] ∧ ∀ c ∈ trim text, isAttributeChar c = true := by
        simpa using hname
      obtain rfl := Option.some.inj h
      rw [hlast, unseparated_append_iff, hdepth, unseparated_cons_iff] at hnone
      rw [String.toList_ofList]
      refine ⟨lead, left, right, value, ?_, hends, hleft, hright, hne, hchars, hnone.2.2⟩
      calc inner
        _ = lead ++ (text ++ '=' :: value) := by rw [← hlast, ← hinner]
        _ = lead ++ (left ++ trim text ++ right ++ '=' :: value) := by rw [← htrim]
        _ = lead ++ left ++ trim text ++ right ++ '=' :: value := by simp
    · cases h

/-- The attribute being typed is `name` if and only if the text is made of ended arguments, the name
with blanks around it, an equals sign and a value that no separator outside its groups ends. There
is one such name, and one way to tell the ended arguments from the last one. -/
theorem currentAttribute?_exactly (inner : List Char) :
    (∀ name : String, currentAttribute? inner = some name ↔
      ∃ lead left right value, NamedArgument inner lead left name.toList right value) ∧
    ∀ lead left name right value lead' left' name' right' value',
      NamedArgument inner lead left name right value →
      NamedArgument inner lead' left' name' right' value' → lead = lead' ∧ name = name' := by
  refine ⟨fun name => ⟨exists_namedArgument, ?_⟩, ?_⟩
  · rintro ⟨lead, left, right, value, h⟩
    rw [h.currentAttribute?_eq, String.ofList_toList]
  · intro lead left name right value lead' left' name' right' value' h h'
    have htext : lead ++ (left ++ name ++ right ++ '=' :: value) =
        lead' ++ (left' ++ name' ++ right' ++ '=' :: value') := by
      have := h.text_eq.symm.trans h'.text_eq
      simpa using this
    have hname := h.currentAttribute?_eq.symm.trans h'.currentAttribute?_eq
    exact ⟨(EndsArgument.unique htext h.lead_ends h.unseparated h'.lead_ends h'.unseparated).1,
      String.ofList_injective (Option.some.inj hname)⟩

/-- Behind a closer that closes nothing, and with a separator inside a list that is left open. -/
theorem currentAttribute?_exactly_unclosed :
    let lead := "a=\x7d1;".toList
    let value := " [x;\x7by".toList
    let inner := "a=\x7d1; é-2 \u3000= [x;\x7by".toList
    NamedArgument inner lead " ".toList "é-2".toList " \u3000".toList value ∧
      currentAttribute? inner = some "é-2" ∧
      ∀ lead' left name right value', NamedArgument inner lead' left name right value' →
        lead' = lead ∧ name = "é-2".toList := by
  intro lead value inner
  have hblank : " ".toList.all isBlank = true ∧ " \u3000".toList.all isBlank = true := by
    decide +kernel
  have hname : "é-2".toList.all isAttributeChar = true := by decide +kernel
  have h : NamedArgument inner lead " ".toList "é-2".toList " \u3000".toList value :=
    { text_eq := by decide +kernel
      lead_ends := .inr ⟨"a=\x7d1".toList, ';', by decide +kernel, by decide +kernel, rfl⟩
      left_blank := List.all_eq_true.mp hblank.1
      right_blank := List.all_eq_true.mp hblank.2
      name_ne := by decide
      name_chars := List.all_eq_true.mp hname
      value_unseparated := by decide +kernel }
  obtain ⟨hexactly, hunique⟩ := currentAttribute?_exactly inner
  exact ⟨h, (hexactly "é-2").mpr ⟨_, _, _, _, h⟩,
    fun _ _ _ _ _ h' => hunique _ _ _ _ _ _ _ _ _ _ h' h⟩

end SkillScript
