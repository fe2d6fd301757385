import Mathlib.Data.Int.Range
import SkillScript.Proofs.Schema.Slots

/-!
# Ranges of integers as choices

A range of integers behind the members of a dataset is offered as a list of choices when it is short
enough, and else as a place with its least member. Its length is counted in 64 bits with a sign, and
the limit, which has no sign, is compared as if it had one.

Below `2 ^ 63 - 1` neither shows: the count is exact as far as it can stay below the limit
(`toInt_rangeLength`), and so is the limit (`toInt_toInt64`). From there on they do
(`IsMiscounted`): a limit of `2 ^ 63` or more is negative, so that no range is short enough, and a
limit of `2 ^ 63 - 1` is as large as any count, so that every range is.

* `isShortRange_iff`: which ranges count as short.
* `SchemaNode.candidates_range`: what is offered for a range.
-/

namespace SkillScript

/-! ## Counting in 64 bits -/

/-- A clamped number that is not negative is exact up to the largest of 64 bits. -/
theorem toInt_ofIntClamp {i : Int} (h : 0 ≤ i) :
    (Int64.ofIntClamp i).toInt = min i (2 ^ 63 - 1) := by
  have hmin : Int64.minValue.toInt ≤ i := Int.le_trans (by decide) h
  have hmax : Int64.maxValue.toInt = 2 ^ 63 - 1 := by decide
  by_cases hi : i ≤ Int64.maxValue.toInt
  · rw [Int64.toInt_ofIntClamp hmin hi]
    omega
  · rw [Int64.ofIntClamp, dif_pos hmin, dif_neg hi, hmax]
    omega

/-- A range is counted exactly up to the largest number of 64 bits. -/
theorem toInt_rangeLength {min max : Int64} (h : min.toInt ≤ max.toInt) :
    (rangeLength min max).toInt = Min.min (max.toInt - min.toInt + 1) (2 ^ 63 - 1) := by
  have hspan := toInt_ofIntClamp (Int.sub_nonneg.mpr h)
  rw [rangeLength, toInt_ofIntClamp (by omega), hspan]
  omega

/-- A number without a sign is negative with one from `2 ^ 63` on. -/
theorem toInt_toInt64 (n : UInt64) :
    n.toInt64.toInt = if (n.toNat : Int) < 2 ^ 63 then (n.toNat : Int) else n.toNat - 2 ^ 64 := by
  have htoInt : n.toInt64.toInt = n.toBitVec.toInt := rfl
  have htoNat : n.toBitVec.toNat = n.toNat := rfl
  rw [htoInt, BitVec.toInt_eq_toNat_cond, htoNat]
  split <;> split <;> omega

theorem isShortRange_iff {settings : Settings} {min max : Int64} :
    isShortRange settings min max = true ↔
      min.toInt ≤ max.toInt ∧ (settings.maxSuffixChoices.toNat : Int) < 2 ^ 63 ∧
        (max.toInt - min.toInt + 1 ≤ settings.maxSuffixChoices.toNat ∨
          (settings.maxSuffixChoices.toNat : Int) = 2 ^ 63 - 1) := by
  rw [isShortRange, Bool.and_eq_true, decide_eq_true_eq, decide_eq_true_eq, Int64.le_iff_toInt_le,
    Int64.le_iff_toInt_le, toInt_toInt64]
  refine and_congr_right fun h => ?_
  have hlimit := settings.maxSuffixChoices.toNat_lt
  rw [toInt_rangeLength h]
  split <;> omega

/-! ## What is offered -/

/-- The integers of a range are all those from its least to its largest. -/
theorem integersBetween_eq (min max : Int64) :
    integersBetween min max = (Int.range min.toInt (max.toInt + 1)).map toString := by
  rw [integersBetween, Int.range, List.map_map, show max.toInt + 1 - min.toInt =
    max.toInt - min.toInt + 1 by omega]
  rfl

theorem choicePlace_integersBetween {min max : Int64} (h : min.toInt ≤ max.toInt) :
    choicePlace (integersBetween min max) =
      snippetChoices ((Int.range min.toInt (max.toInt + 1)).map toString) := by
  have hmem : min.toInt ∈ Int.range min.toInt (max.toInt + 1) := Int.mem_range_iff.mpr (by omega)
  rw [integersBetween_eq, choicePlace, if_neg]
  rw [List.isEmpty_iff, List.map_eq_nil_iff]
  exact List.ne_nil_of_mem hmem

/-- A list of choices is not a place with a default. -/
theorem snippetChoices_ne_snippetDefault (choices : List String) (text : String) :
    snippetChoices choices ≠ snippetDefault text := by
  intro h
  have hfourth := congrArg (fun s : String => s.toList[3]?) h
  simp [snippetChoices, snippetDefault] at hfourth

/-- The range is short enough by its true length. -/
def Fits (limit : UInt64) (min max : Int64) : Prop :=
  min.toInt ≤ max.toInt ∧ max.toInt - min.toInt + 1 ≤ limit.toNat

instance (limit : UInt64) (min max : Int64) : Decidable (Fits limit min max) :=
  inferInstanceAs (Decidable (_ ∧ _))

/-- The limit is too large for its comparison with the length of the range: it turns negative, or it
is the largest number with a sign and the range is longer than that. -/
def IsMiscounted (limit : UInt64) (min max : Int64) : Prop :=
  (2 ^ 63 ≤ (limit.toNat : Int) ∧ Fits limit min max) ∨
    ((limit.toNat : Int) = 2 ^ 63 - 1 ∧ min.toInt ≤ max.toInt ∧ ¬ Fits limit min max)

instance (limit : UInt64) (min max : Int64) : Decidable (IsMiscounted limit min max) :=
  inferInstanceAs (Decidable (_ ∨ _))

theorem isShortRange_iff_fits {settings : Settings} {min max : Int64} :
    isShortRange settings min max = true ↔
      (Fits settings.maxSuffixChoices min max ↔
        ¬ IsMiscounted settings.maxSuffixChoices min max) := by
  rw [isShortRange_iff]
  unfold IsMiscounted Fits
  omega

/-- A member with a range behind it inserts the choices when the range counts as short. -/
theorem DatasetEntry.insertText_range (settings : Settings) (name separator : String)
    (min max : Int64) (e : DatasetEntry) :
    (e.candidate settings name (some ⟨separator, .range min max⟩)).insertText =
      escapeSnippet e.key ++ escapeSnippet separator ++
        if isShortRange settings min max then
          snippetChoices ((Int.range min.toInt (max.toInt + 1)).map toString)
        else snippetDefault (toString min.toInt) := by
  simp only [candidate, Suffix.snippet, String.append_assoc]
  split
  · next hshort => rw [choicePlace_integersBetween (isShortRange_iff.mp hshort).1]
  · rfl

/-- A list over a dataset offers the members of the dataset with what may follow them. -/
theorem SchemaNode.candidates_of_list {datasets : Datasets} {settings : Settings}
    {node : SchemaNode} {dataset : Dataset} (hkind : node.kind = .list)
    (hentries : node.entries = []) (hdataset : node.dataset.bind datasets.find? = some dataset)
    (hne : dataset.entries ≠ []) (typed : List Char) :
    node.candidates datasets settings typed =
      dataset.entries.map (·.candidate settings dataset.name node.suffix) := by
  obtain ⟨kind, description, link, values, name, entries, children, closesDepth, suffix⟩ := node
  dsimp only at hkind hentries hdataset
  subst hkind hentries
  rw [candidates, if_pos List.isEmpty_nil]
  simp [plainCandidates, memberCandidates, hdataset, Dataset.candidates, hne]

/-- For a range behind the members of a dataset, each member inserts the integers of the range in
order as choices if and only if the range fits, and else a place with the least of them. The
exception are limits that are too large to be compared, where it is the other way round. -/
theorem SchemaNode.candidates_range (datasets : Datasets) (settings : Settings) (node : SchemaNode)
    (typed : List Char) (dataset : Dataset) (separator : String) (min max : Int64)
    (e : DatasetEntry) (hkind : node.kind = .list) (hentries : node.entries = [])
    (hdataset : node.dataset.bind datasets.find? = some dataset)
    (hsuffix : node.suffix = some ⟨separator, .range min max⟩) (he : e ∈ dataset.entries) :
    let limit := settings.maxSuffixChoices
    let lead := escapeSnippet e.key ++ escapeSnippet separator
    let choices := lead ++ snippetChoices ((Int.range min.toInt (max.toInt + 1)).map toString)
    let place := lead ++ snippetDefault (toString min.toInt)
    let c := e.candidate settings dataset.name node.suffix
    node.candidates datasets settings typed =
        dataset.entries.map (·.candidate settings dataset.name node.suffix) ∧
      (¬ IsMiscounted limit min max →
        (c.insertText = choices ↔ Fits limit min max) ∧
        (¬ Fits limit min max → c.insertText = place)) ∧
      (IsMiscounted limit min max →
        (c.insertText = choices ↔ ¬ Fits limit min max) ∧
        (Fits limit min max → c.insertText = place)) := by
  intro limit lead choices place c
  have htext : c.insertText = if isShortRange settings min max then choices else place := by
    simp only [c, hsuffix, DatasetEntry.insertText_range, choices, place, lead]
    split <;> rfl
  have hne : place ≠ choices := by
    intro h
    exact snippetChoices_ne_snippetDefault _ _ ((String.append_right_inj lead).mp h).symm
  have hchoices : c.insertText = choices ↔ (Fits limit min max ↔ ¬ IsMiscounted limit min max) := by
    rw [← isShortRange_iff_fits, htext]
    split <;> simp [*]
  have hplace : ¬ (Fits limit min max ↔ ¬ IsMiscounted limit min max) → c.insertText = place := by
    intro h
    rw [htext, if_neg (isShortRange_iff_fits.not.mpr h)]
  refine ⟨candidates_of_list hkind hentries hdataset (List.ne_nil_of_mem he) typed,
    fun hcount => ?_, fun hcount => ?_⟩
  · exact ⟨by rw [hchoices]; simp [hcount], fun hfits => hplace (by simp [hcount, hfits])⟩
  · exact ⟨by rw [hchoices]; simp [hcount], fun hfits => hplace (by simp [hcount, hfits])⟩

/-- The last three integers of 64 bits, which just fit. -/
theorem SchemaNode.candidates_range_last :
    let settings := { Settings.standard with maxSuffixChoices := 3 }
    let min : Int64 := 9223372036854775805
    let max : Int64 := 9223372036854775807
    let d : Dataset := ⟨"D", [⟨"K", none⟩]⟩
    let node : SchemaNode :=
      { SchemaNode.ofKind .list with dataset := some "D", suffix := some ⟨":", .range min max⟩ }
    node.dataset.bind (Datasets.find? [d]) = some d ∧
      ¬ IsMiscounted settings.maxSuffixChoices min max ∧ Fits settings.maxSuffixChoices min max ∧
      (node.candidates [d] settings []).map Candidate.insertText =
        ["K:$\x7b1|9223372036854775805,9223372036854775806,9223372036854775807|\x7d"] := by
  intro settings min max d node
  have hdataset : node.dataset.bind (Datasets.find? [d]) = some d := by decide +kernel
  have hfits : Fits settings.maxSuffixChoices min max := by decide +kernel
  have hcount : ¬ IsMiscounted settings.maxSuffixChoices min max := by decide +kernel
  obtain ⟨hcandidates, hclear, -⟩ := candidates_range [d] settings node [] d ":" min max ⟨"K", none⟩
    rfl rfl hdataset rfl List.mem_cons_self
  refine ⟨hdataset, hcount, hfits, ?_⟩
  rw [hcandidates, List.map_map, List.map_singleton, Function.comp_apply,
    (hclear hcount).1.mpr hfits]
  decide +kernel

/-- With a limit of `2 ^ 63`, a range of three integers is not offered as choices. -/
theorem SchemaNode.candidates_range_unsigned :
    let settings := { Settings.standard with maxSuffixChoices := 9223372036854775808 }
    let d : Dataset := ⟨"D", [⟨"K", none⟩]⟩
    let node : SchemaNode :=
      { SchemaNode.ofKind .list with dataset := some "D", suffix := some ⟨":", .range 1 3⟩ }
    Fits settings.maxSuffixChoices 1 3 ∧
      (node.candidates [d] settings []).map Candidate.insertText = ["K:$\x7b1:1\x7d"] ∧
      "K:$\x7b1:1\x7d" ≠ escapeSnippet "K" ++ escapeSnippet ":" ++
        snippetChoices ((Int.range 1 (3 + 1)).map toString) := by
  intro settings d node
  exact ⟨by decide +kernel, by decide +kernel, by decide +kernel⟩

end SkillScript
