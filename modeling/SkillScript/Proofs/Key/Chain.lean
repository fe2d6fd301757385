import SkillScript.Proofs.Key.Nearest

/-!
# The chain of keys around a line

`Document.keysBelow` keeps a running minimum of indentations and stops when it reaches zero. What
it gathers is said here without the walk: a key encloses a line when it is indented less than the
line counts as being and less than every key between the two (`Document.Encloses`). These keys,
nearest first, are the chain of the line (`Document.Chain`). There is just one such list, it is
decided by the lines above, and along it both the lines and the indentations decrease.

* `encloses_succ_iff`, `encloses_succ_iff_or`: what one step of the walk does to the chain.
* `chain_keysBelow`: the walk gathers the chain, whatever the indentations of the document.
* `encloses_floor_succ_iff`: the chain one column deeper has at most one key more.
* `chain_ancestorsAt`, `ancestorsAt_of_undercut`: what a key that is about to be typed nests under.
-/

namespace SkillScript

/-- Lists that go the same way are equal when they have the same members. -/
theorem eq_of_pairwise_of_mem_iff {α : Type} {R : α → α → Prop} (hR : ∀ a b, R a b → ¬ R b a)
    {as bs : List α} (has : as.Pairwise R) (hbs : bs.Pairwise R) (h : ∀ a, a ∈ as ↔ a ∈ bs) :
    as = bs := by
  have hne : ∀ {a b : α}, R a b → a ≠ b := fun {a b} hab heq => hR a b hab (heq ▸ hab)
  have hperm : as.Perm bs := (List.perm_ext_iff_of_nodup (has.imp hne) (hbs.imp hne)).mpr h
  exact hperm.eq_of_pairwise (fun a b _ _ hab hba => absurd hba (hR a b hab)) has hbs

namespace Document

variable {d d' : Document}

/-- `key` is above line `n` and indented less than `floor` and less than every key between. -/
structure Encloses (d : Document) (n floor : Nat) (key : Key) : Prop where
  above : key.line < n
  defined : d.keyAt? key.line = some key
  nests : key.indent < floor
  between : ∀ m, key.line < m → m < n → ∀ k, d.keyAt? m = some k → key.indent < k.indent

/-- `keys` are the keys around something that is indented by `floor` on line `n`, nearest first. -/
structure Chain (d : Document) (n floor : Nat) (keys : List Key) : Prop where
  mem_iff : ∀ key, key ∈ keys ↔ d.Encloses n floor key
  upward : keys.Pairwise fun inner outer => outer.line < inner.line

/-! ## One step up -/

/-- A line whose key is not indented less than `floor` is passed over. -/
theorem encloses_succ_iff {n floor : Nat} {key : Key}
    (hfloor : ∀ k, d.keyAt? n = some k → floor ≤ k.indent) :
    d.Encloses (n + 1) floor key ↔ d.Encloses n floor key := by
  constructor
  · intro h
    have habove := h.above
    have hne : key.line ≠ n := by
      intro hline
      have := hfloor key (hline ▸ h.defined)
      have := h.nests
      omega
    exact ⟨by omega, h.defined, h.nests, fun m hm hmn => h.between m hm (by omega)⟩
  · intro h
    refine ⟨Nat.lt_succ_of_lt h.above, h.defined, h.nests, fun m hm hmn k hk => ?_⟩
    rcases Nat.lt_succ_iff_lt_or_eq.mp hmn with hmn | rfl
    · exact h.between m hm hmn k hk
    · exact Nat.lt_of_lt_of_le h.nests (hfloor k hk)

/-- A key that is indented less than `floor` encloses the next line, and so does what encloses
something at its own indentation. -/
theorem encloses_succ_iff_or {n floor : Nat} {key found : Key} (hfound : d.keyAt? n = some found)
    (hindent : found.indent < floor) :
    d.Encloses (n + 1) floor key ↔ key = found ∨ d.Encloses n found.indent key := by
  have hline := line_of_keyAt? hfound
  constructor
  · intro h
    rcases Nat.lt_succ_iff_lt_or_eq.mp h.above with hlt | heq
    · have hnests := h.between n hlt (Nat.lt_succ_self n) found hfound
      exact .inr ⟨hlt, h.defined, hnests, fun m hm hmn => h.between m hm (by omega)⟩
    · have hdefined := h.defined
      rw [heq, hfound] at hdefined
      exact .inl (Option.some.inj hdefined).symm
  · rintro (rfl | h)
    · exact ⟨by omega, by rw [hline, hfound], hindent, fun m hm hmn => by omega⟩
    · refine ⟨Nat.lt_succ_of_lt h.above, h.defined, Nat.lt_trans h.nests hindent, ?_⟩
      intro m hm hmn k hk
      rcases Nat.lt_succ_iff_lt_or_eq.mp hmn with hmn | rfl
      · exact h.between m hm hmn k hk
      · rw [hfound, Option.some.injEq] at hk
        exact hk ▸ h.nests

theorem Chain.skip {n floor : Nat} {keys : List Key} (h : d.Chain n floor keys)
    (hfloor : ∀ k, d.keyAt? n = some k → floor ≤ k.indent) : d.Chain (n + 1) floor keys :=
  ⟨fun key => (h.mem_iff key).trans (encloses_succ_iff hfloor).symm, h.upward⟩

theorem Chain.cons {n floor : Nat} {keys : List Key} {found : Key}
    (h : d.Chain n found.indent keys) (hfound : d.keyAt? n = some found)
    (hindent : found.indent < floor) : d.Chain (n + 1) floor (found :: keys) := by
  refine ⟨fun key => ?_, List.pairwise_cons.mpr ⟨fun key hkey => ?_, h.upward⟩⟩
  · rw [List.mem_cons, h.mem_iff, encloses_succ_iff_or hfound hindent]
  · rw [line_of_keyAt? hfound]
    exact ((h.mem_iff key).mp hkey).above

/-! ## The whole walk -/

/-- The walk of `keysBelow` that goes on to the first line, whatever the floor. -/
def keysToTop (floor : Nat) : List (List Char × Nat) → List Key
  | [] => []
  | (text, n) :: rest =>
    match Key.parse? text n with
    | some key =>
      if key.indent < floor then key :: keysToTop key.indent rest else keysToTop floor rest
    | none => keysToTop floor rest

/-- Nothing is indented less than zero. -/
theorem keysToTop_zero (lines : List (List Char × Nat)) : keysToTop 0 lines = [] := by
  induction lines with
  | nil => rfl
  | cons line lines ih =>
    obtain ⟨text, n⟩ := line
    cases hparse : Key.parse? text n <;> simp [keysToTop, hparse, ih]

/-- A walk that stops at floor zero gathers what the walk to the first line does. -/
theorem keysBelow_eq_keysToTop (floor : Nat) (lines : List (List Char × Nat)) :
    keysBelow floor lines = keysToTop floor lines := by
  induction lines generalizing floor with
  | nil => rfl
  | cons line lines ih =>
    obtain ⟨text, n⟩ := line
    by_cases hfloor : floor = 0
    · rw [hfloor, keysToTop_zero]
      rfl
    · cases hparse : Key.parse? text n <;> simp [keysBelow, keysToTop, hparse, hfloor, ih]

/-- The walk up from line `n` gathers the chain of line `n`. -/
theorem chain_keysBelow (floor : Nat) {n : Nat} (hn : n ≤ d.lineCount) :
    d.Chain n floor (keysBelow floor (d.numberedAbove n)) := by
  rw [keysBelow_eq_keysToTop]
  induction n generalizing floor with
  | zero => exact ⟨fun key => ⟨nofun, fun h => absurd h.above (Nat.not_lt_zero _)⟩, .nil⟩
  | succ n ih =>
    have hlt : n < d.lines.length := hn
    obtain ⟨text, htext⟩ : ∃ text, d.line? n = some text := ⟨_, List.getElem?_eq_getElem hlt⟩
    have hkey := keyAt?_of_line? htext
    rw [numberedAbove_succ htext, keysToTop]
    cases hparse : Key.parse? text n with
    | none =>
      refine (ih floor (Nat.le_of_lt hlt)).skip fun k hk => ?_
      rw [hkey, hparse] at hk
      cases hk
    | some found =>
      rw [hparse] at hkey
      dsimp only
      split
      · next hindent => exact (ih found.indent (Nat.le_of_lt hlt)).cons hkey hindent
      · next hindent =>
        refine (ih floor (Nat.le_of_lt hlt)).skip fun k hk => ?_
        rw [hkey, Option.some.injEq] at hk
        subst hk
        omega

/-! ## There is one chain -/

/-- Of two keys around a line, the one further up is indented less. -/
theorem Encloses.indent_lt {n floor : Nat} {inner outer : Key} (hi : d.Encloses n floor inner)
    (ho : d.Encloses n floor outer) (h : outer.line < inner.line) : outer.indent < inner.indent :=
  ho.between inner.line h hi.above inner hi.defined

theorem Chain.decreasing {n floor : Nat} {keys : List Key} (h : d.Chain n floor keys) :
    keys.Pairwise fun inner outer => outer.line < inner.line ∧ outer.indent < inner.indent := by
  refine h.upward.imp_of_mem fun hi ho hline => ⟨hline, ?_⟩
  exact ((h.mem_iff _).mp hi).indent_lt ((h.mem_iff _).mp ho) hline

theorem Chain.unique {n floor : Nat} {keys keys' : List Key} (h : d.Chain n floor keys)
    (h' : d.Chain n floor keys') : keys = keys' := by
  refine eq_of_pairwise_of_mem_iff (fun _ _ => Nat.lt_asymm) h.upward h'.upward fun key => ?_
  rw [h.mem_iff, h'.mem_iff]

/-- The chain of a line is decided by the lines above it. -/
theorem Chain.congr {n floor : Nat} {keys : List Key} (h : d.Chain n floor keys)
    (hlines : ∀ m < n, d'.line? m = d.line? m) : d'.Chain n floor keys := by
  have hkey : ∀ m < n, d'.keyAt? m = d.keyAt? m := fun m hm => by simp only [keyAt?, hlines m hm]
  refine ⟨fun key => (h.mem_iff key).trans ⟨fun h => ?_, fun h => ?_⟩, h.upward⟩
  · refine ⟨h.above, (hkey _ h.above).trans h.defined, h.nests, fun m hm hmn k hk => ?_⟩
    exact h.between m hm hmn k ((hkey m hmn).symm.trans hk)
  · refine ⟨h.above, (hkey _ h.above).symm.trans h.defined, h.nests, fun m hm hmn k hk => ?_⟩
    exact h.between m hm hmn k ((hkey m hmn).trans hk)

/-! ## One column deeper -/

/-- One column deeper, the nearest key at just that column encloses as well. -/
theorem encloses_floor_succ_iff {n floor : Nat} {key : Key} :
    d.Encloses n (floor + 1) key ↔
      (d.Nearest n (floor + 1) key ∧ key.indent = floor) ∨ d.Encloses n floor key := by
  constructor
  · intro h
    rcases Nat.lt_succ_iff_lt_or_eq.mp h.nests with hlt | heq
    · exact .inr ⟨h.above, h.defined, hlt, h.between⟩
    · refine .inl ⟨⟨h.above, h.defined, h.nests, fun m hm hmn k hk => ?_⟩, heq⟩
      have := h.between m hm hmn k hk
      omega
  · rintro (⟨h, heq⟩ | h)
    · refine ⟨h.above, h.defined, h.nests, fun m hm hmn k hk => ?_⟩
      have := h.between m hm hmn k hk
      omega
    · exact ⟨h.above, h.defined, Nat.lt_succ_of_lt h.nests, h.between⟩

/-- Without a nearest key at column `floor`, the chain is the same one column deeper. -/
theorem Chain.deepen {n floor : Nat} {keys : List Key} (h : d.Chain n floor keys)
    (hnone : ∀ key, d.Nearest n (floor + 1) key → key.indent ≠ floor) :
    d.Chain n (floor + 1) keys := by
  refine ⟨fun key => ?_, h.upward⟩
  rw [h.mem_iff, encloses_floor_succ_iff]
  exact ⟨.inr, fun hkey => hkey.resolve_left fun hnear => hnone key hnear.1 hnear.2⟩

theorem Nearest.eq {n floor : Nat} {key key' : Key} (h : d.Nearest n floor key)
    (h' : d.Nearest n floor key') : key = key' := by
  have hline : key.line = key'.line := by
    rcases Nat.lt_trichotomy key.line key'.line with hlt | heq | hlt
    · have := h.between _ hlt h'.above key' h'.defined
      have := h'.nests
      omega
    · exact heq
    · have := h'.between _ hlt h.above key h.defined
      have := h.nests
      omega
  exact Option.some.inj (h.defined.symm.trans (hline ▸ h'.defined))

/-- With a nearest key at column `floor`, that key is in front of the chain one column deeper. -/
theorem Chain.deepen_cons {n floor : Nat} {keys : List Key} {key : Key} (h : d.Chain n floor keys)
    (hkey : d.Nearest n (floor + 1) key) (hindent : key.indent = floor) :
    d.Chain n (floor + 1) (key :: keys) := by
  refine ⟨fun k => ?_, List.pairwise_cons.mpr ⟨fun k hk => ?_, h.upward⟩⟩
  · rw [List.mem_cons, h.mem_iff, encloses_floor_succ_iff]
    refine or_congr_left ⟨?_, fun hk => hk.1.eq hkey⟩
    rintro rfl
    exact ⟨hkey, hindent⟩
  · -- A key of the chain is indented less than `floor`, so it is not between `key` and the line.
    have hk := (h.mem_iff k).mp hk
    have hnests := hk.nests
    rcases Nat.lt_trichotomy k.line key.line with hlt | heq | hlt
    · exact hlt
    · have hdefined := hk.defined
      rw [heq, hkey.defined, Option.some.injEq] at hdefined
      subst hdefined
      omega
    · have := hkey.between _ hlt hk.above k hk.defined
      omega

/-! ## Ancestors -/

/-- The walk from a line passes over the line itself. -/
theorem keysAbove_eq {n floor : Nat} (hn : n < d.lineCount)
    (hfloor : ∀ k, d.keyAt? n = some k → floor ≤ k.indent) :
    d.keysAbove n floor = keysBelow floor (d.numberedAbove n) := by
  have hwalk : d.Chain (n + 1) floor (d.keysAbove n floor) := chain_keysBelow floor hn
  exact hwalk.unique ((chain_keysBelow floor (Nat.le_of_lt hn)).skip hfloor)

theorem ancestors_eq {n : Nat} {text : List Char} (htext : d.line? n = some text) :
    d.ancestors n = keysBelow (nestingFloor text) (d.numberedAbove n) := by
  have hlt : n < d.lines.length := (List.getElem?_eq_some_iff.mp htext).1
  rw [← keysAbove_eq hlt fun k hk => nestingFloor_le_of_keyAt? htext hk]
  simp only [ancestors, htext, nestingFloor]

/-- The ancestors of a line are its chain. -/
theorem chain_ancestors {n : Nat} {text : List Char} (htext : d.line? n = some text) :
    d.Chain n (nestingFloor text) (d.ancestors n) := by
  have hlt : n < d.lines.length := (List.getElem?_eq_some_iff.mp htext).1
  exact ancestors_eq htext ▸ chain_keysBelow _ (Nat.le_of_lt hlt)

/-- The ancestors of the cursor line are exactly the key lines above it that are indented less than
it counts as being and less than every key line between, nearest first. Lines and indentations
decrease along them, and a walk that does not stop at floor zero gathers no more. -/
theorem ancestors_exactly (d : Document) (p : Position) (text : List Char)
    (htext : d.line? p.line = some text) :
    let floor := if (KeyLine.parse? text).isSome then indentation text else indentation text + 1
    (∀ key, key ∈ d.ancestors p.line ↔
      key.line < p.line ∧ d.keyAt? key.line = some key ∧ key.indent < floor ∧
        ∀ m, key.line < m → m < p.line → ∀ k, d.keyAt? m = some k → key.indent < k.indent) ∧
    ((d.ancestors p.line).Pairwise fun inner outer =>
      outer.line < inner.line ∧ outer.indent < inner.indent) ∧
    d.ancestors p.line = keysToTop floor (d.lines.take p.line).zipIdx.reverse := by
  intro floor
  have hchain : d.Chain p.line floor (d.ancestors p.line) := chain_ancestors htext
  refine ⟨fun key => (hchain.mem_iff key).trans ?_, hchain.decreasing, ?_⟩
  · exact ⟨fun h => ⟨h.above, h.defined, h.nests, h.between⟩, fun ⟨ha, hd, hn, hb⟩ =>
      ⟨ha, hd, hn, hb⟩⟩
  · rw [ancestors_eq htext, keysBelow_eq_keysToTop]
    rfl

/-- A list item flush with its key, below lines that are not indented as they nest. -/
theorem ancestors_exactly_misindented :
    let d := ofText .lineFeed "  A:\nB:\n      C:\n    D: 1\n   E:\n     F:\n   - x".toList
    d.line? 6 = some "   - x".toList ∧ d.ancestors 6 = [⟨"E", 4, 3⟩, ⟨"B", 1, 0⟩] ∧
      (∀ m, 4 < m → m < 6 → ∀ k, d.keyAt? m = some k → 3 < k.indent) ∧
      (d.ancestors 6).Pairwise fun inner outer =>
        outer.line < inner.line ∧ outer.indent < inner.indent := by
  intro d
  have htext : d.line? 6 = some "   - x".toList := by decide +kernel
  have hkeys : d.ancestors 6 = [⟨"E", 4, 3⟩, ⟨"B", 1, 0⟩] := by decide +kernel
  obtain ⟨hmem, hdecreasing, -⟩ := ancestors_exactly d ⟨6, 0⟩ _ htext
  exact ⟨htext, hkeys, ((hmem ⟨"E", 4, 3⟩).mp (by simp [hkeys])).2.2.2, hdecreasing⟩

/-! ## A key that is about to be typed -/

section AboutToBeTyped

variable {n indent : Nat}

theorem ancestorsAt_eq (hn : n < d.lineCount) : d.ancestorsAt n indent = d.keysAbove n indent := by
  rw [ancestorsAt, if_pos hn]

/-- Unless the line has a key that is indented less already, the walk from it gathers the chain. -/
theorem chain_ancestorsAt (hn : n < d.lineCount)
    (hindent : ∀ k, d.keyAt? n = some k → indent ≤ k.indent) :
    d.Chain n indent (d.ancestorsAt n indent) := by
  rw [ancestorsAt_eq hn, keysAbove_eq hn hindent]
  exact chain_keysBelow indent (Nat.le_of_lt hn)

/-- At the indentation of the key that the line has already, the walk gathers the chain. -/
theorem chain_ancestorsAt_own {k : Key} (hn : n < d.lineCount) (hk : d.keyAt? n = some k) :
    d.Chain n k.indent (d.ancestorsAt n k.indent) := by
  refine chain_ancestorsAt hn fun k' hk' => ?_
  rw [hk, Option.some.injEq] at hk'
  exact Nat.le_of_eq (congrArg Key.indent hk')

/-- A key that the line has already and that is indented less is gathered first. -/
theorem ancestorsAt_of_undercut {k : Key} (hn : n < d.lineCount) (hk : d.keyAt? n = some k)
    (hindent : k.indent < indent) : d.ancestorsAt n indent = k :: d.ancestorsAt n k.indent := by
  have hwalk : d.Chain (n + 1) indent (d.ancestorsAt n indent) := by
    rw [ancestorsAt_eq hn]
    exact chain_keysBelow indent hn
  exact hwalk.unique ((chain_ancestorsAt_own hn hk).cons hk hindent)

end AboutToBeTyped

/-- The ancestors of a key that is about to be typed are the chain of its line at its indentation,
and nothing that is on the line or below has a part in them. The exception is a line with a key that
is indented less, which is then taken for the innermost ancestor. -/
theorem ancestorsAt_exactly (d : Document) (n indent : Nat) (hn : n < d.lineCount) :
    (d.Chain n indent (d.ancestorsAt n indent) ↔
      ∀ k, d.keyAt? n = some k → indent ≤ k.indent) ∧
    (∀ k, d.keyAt? n = some k → k.indent < indent →
      ∃ keys, d.Chain n k.indent keys ∧ d.ancestorsAt n indent = k :: keys) ∧
    ∀ d' : Document, n < d'.lineCount → (∀ m < n, d'.line? m = d.line? m) →
      (∀ k, d.keyAt? n = some k → indent ≤ k.indent) →
      (∀ k, d'.keyAt? n = some k → indent ≤ k.indent) →
      d'.ancestorsAt n indent = d.ancestorsAt n indent := by
  refine ⟨⟨fun hchain k hk => ?_, chain_ancestorsAt hn⟩, fun k hk hindent => ?_,
    fun d' hn' hlines hclear hclear' => ?_⟩
  · -- No key of the chain is on the line itself.
    by_contra hlt
    have hmem : k ∈ d.ancestorsAt n indent := by
      rw [ancestorsAt_of_undercut hn hk (Nat.lt_of_not_le hlt)]
      exact List.mem_cons_self
    have habove := ((hchain.mem_iff k).mp hmem).above
    rw [line_of_keyAt? hk] at habove
    exact Nat.lt_irrefl n habove
  · exact ⟨_, chain_ancestorsAt_own hn hk, ancestorsAt_of_undercut hn hk hindent⟩
  · exact (chain_ancestorsAt hn' hclear').unique ((chain_ancestorsAt hn hclear).congr hlines)

/-- A key half typed in front of a key that is there already, below one that is indented more. -/
theorem ancestorsAt_exactly_retyped :
    let d := ofText .lineFeed "M:\n      A:\n  B:\n    C: x".toList
    3 < d.lineCount ∧ d.keyAt? 3 = some ⟨"C", 3, 4⟩ ∧
      d.ancestorsAt 3 4 = [⟨"B", 2, 2⟩, ⟨"M", 0, 0⟩] ∧
      d.Chain 3 4 [⟨"B", 2, 2⟩, ⟨"M", 0, 0⟩] := by
  intro d
  have hn : 3 < d.lineCount := by decide +kernel
  have hkey : d.keyAt? 3 = some ⟨"C", 3, 4⟩ := by decide +kernel
  have hkeys : d.ancestorsAt 3 4 = [⟨"B", 2, 2⟩, ⟨"M", 0, 0⟩] := by decide +kernel
  have hchain := (ancestorsAt_exactly d 3 4 hn).1.mpr fun k hk => by
    rw [hkey, Option.some.injEq] at hk
    exact Nat.le_of_eq (congrArg Key.indent hk)
  exact ⟨hn, hkey, hkeys, hkeys ▸ hchain⟩

/-- A key is about to be typed deeper than the key that the line has, and the line is then taken for
its own ancestor. -/
theorem ancestorsAt_exactly_undercut :
    let d := ofText .lineFeed "A:\n  B:".toList
    1 < d.lineCount ∧ d.Chain 1 4 [⟨"A", 0, 0⟩] ∧ d.ancestorsAt 1 4 = [⟨"B", 1, 2⟩, ⟨"A", 0, 0⟩] ∧
      ¬ d.Chain 1 4 (d.ancestorsAt 1 4) := by
  intro d
  have hn : 1 < d.lineCount := by decide +kernel
  have hkeys : d.ancestorsAt 1 4 = [⟨"B", 1, 2⟩, ⟨"A", 0, 0⟩] := by decide +kernel
  have hwalk : keysBelow 4 (d.numberedAbove 1) = [⟨"A", 0, 0⟩] := by decide +kernel
  have hchain : d.Chain 1 4 [⟨"A", 0, 0⟩] := hwalk ▸ chain_keysBelow 4 (Nat.le_of_lt hn)
  refine ⟨hn, hchain, hkeys, fun h => ?_⟩
  have hsame := h.unique hchain
  rw [hkeys] at hsame
  exact absurd hsame (by decide)

end Document

end SkillScript
