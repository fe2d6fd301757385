import SkillScript.Object.Registry

/-!
# The owner of a name

Objects of one category may share names. A name belongs to the first object that has it, as its name
or as an alias and in any case of its letters. Names are taken one by one, so an object that comes
too late for one of its names may still own the others.

* `ObjectIndex.Exact`: an index holds each lower-case name once, with the position of the first
  object that has it. Inserting an object keeps an index exact (`ObjectIndex.Exact.insert`), so the
  index of any list of objects is exact (`ObjectIndex.exact_ofList`).
* `ObjectIndex.Exact.find?_eq`: in an exact index, looking a name up is a search through the objects
  in their order.
-/

namespace SkillScript

namespace ObjectEntry

/-- The object has `name` as its name or as an alias, up to case. -/
def answersTo (o : ObjectEntry) (name : String) : Bool :=
  lower o.name == lower name || o.aliases.any (lower · == lower name)

/-- The names of an object as an index has them. -/
def keys (o : ObjectEntry) : List String := o.names.map lower

theorem contains_keys_lower (o : ObjectEntry) (name : String) :
    o.keys.contains (lower name) = o.answersTo name := by
  rw [Bool.eq_iff_iff]
  simp [keys, names, answersTo, @eq_comm _ (lower name)]

end ObjectEntry

namespace ObjectIndex

/-! ## Taking names -/

section Claim

variable {position : Nat} {positions : List (String × Nat)} {key : String}

theorem lookup_claim (k : String) :
    (claim position positions k).lookup key =
      (positions.lookup key).or (if key = k then some position else none) := by
  rw [claim]
  by_cases hkey : key = k
  · subst hkey
    cases h : positions.lookup key <;> simp [h]
  · have hbeq : (key == k) = false := beq_false_of_ne hkey
    split <;> simp [List.lookup_cons, hbeq]

/-- The keys that are free go to the position, and the keys that are taken stay with their
owners. -/
theorem lookup_foldl_claim (keys : List String) :
    (keys.foldl (claim position) positions).lookup key =
      (positions.lookup key).or (if key ∈ keys then some position else none) := by
  induction keys generalizing positions with
  | nil => simp
  | cons k keys ih =>
    rw [List.foldl_cons, ih, lookup_claim, Option.or_assoc]
    by_cases hkey : key = k <;> simp [hkey]

theorem nodup_claim (h : (positions.map Prod.fst).Nodup) (k : String) :
    ((claim position positions k).map Prod.fst).Nodup := by
  rw [claim]
  split
  · exact h
  · next hfree =>
    rw [Bool.not_eq_true, Option.isSome_eq_false_iff, Option.isNone_iff_eq_none,
      List.lookup_eq_none_iff] at hfree
    rw [List.map_cons, List.nodup_cons]
    refine ⟨fun hmem => ?_, h⟩
    obtain ⟨p, hp, rfl⟩ := List.mem_map.mp hmem
    simpa using hfree p hp

theorem nodup_foldl_claim (h : (positions.map Prod.fst).Nodup) (keys : List String) :
    ((keys.foldl (claim position) positions).map Prod.fst).Nodup := by
  induction keys generalizing positions with
  | nil => exact h
  | cons k keys ih => exact ih (nodup_claim h k)

end Claim

/-! ## Exact indexes -/

/-- Each lower-case name has one position, that of the first object with the name. -/
structure Exact (index : ObjectIndex) : Prop where
  nodup : (index.positions.map Prod.fst).Nodup
  lookup : ∀ key, index.positions.lookup key = index.entries.findIdx? (·.keys.contains key)

theorem exact_empty : empty.Exact where
  nodup := List.nodup_nil
  lookup _ := rfl

section Exact

variable {index : ObjectIndex}

/-- The new object comes last, so it is the first one only for the names that were free. -/
theorem Exact.insert (h : index.Exact) (entry : ObjectEntry) : (index.insert entry).Exact where
  nodup := nodup_foldl_claim h.nodup entry.keys
  lookup key := calc
    (entry.keys.foldl (claim index.entries.length) index.positions).lookup key
    _ = (index.entries.findIdx? (·.keys.contains key)).or
          (if key ∈ entry.keys then some index.entries.length else none) := by
      rw [lookup_foldl_claim, h.lookup]
    _ = (index.entries ++ [entry]).findIdx? (·.keys.contains key) := by
      rw [List.findIdx?_append, List.findIdx?_singleton]
      by_cases hkey : key ∈ entry.keys <;> simp [hkey]

theorem Exact.foldl_insert (h : index.Exact) (entries : List ObjectEntry) :
    (entries.foldl ObjectIndex.insert index).Exact :=
  List.foldlRecOn entries ObjectIndex.insert h fun _ hindex entry _ => hindex.insert entry

theorem Exact.lookup_of_mem (h : index.Exact) {key : String} {position : Nat}
    (hmem : (key, position) ∈ index.positions) : index.positions.lookup key = some position := by
  -- A pair behind another one with its key would not be found: this is what `nodup` is for.
  obtain ⟨before, after, hsplit⟩ := List.append_of_mem hmem
  refine List.lookup_eq_some_iff.mpr ⟨before, after, hsplit, fun p hp => ?_⟩
  have hnodup := h.nodup
  rw [hsplit, List.map_append, List.map_cons, List.nodup_append] at hnodup
  have hne : p.1 ≠ key := hnodup.2.2 p.1 (List.mem_map_of_mem hp) key List.mem_cons_self
  simpa using hne.symm

/-- Every position in an exact index is that of an object. -/
theorem Exact.lt_length (h : index.Exact) {key : String} {position : Nat}
    (hmem : (key, position) ∈ index.positions) : position < index.entries.length := by
  have hfirst := h.lookup_of_mem hmem
  rw [h.lookup, List.findIdx?_eq_some_iff_getElem] at hfirst
  exact hfirst.1

/-- In an exact index, the object that owns a name is the first one that answers to it. -/
theorem Exact.find?_eq (h : index.Exact) (name : String) :
    index.find? name = index.entries.find? (·.answersTo name) := by
  rw [find?, h.lookup, ← List.find?_eq_bind_findIdx?_getElem?]
  simp only [ObjectEntry.contains_keys_lower]

end Exact

/-! ## The index of a list -/

theorem entries_foldl_insert (index : ObjectIndex) (entries : List ObjectEntry) :
    (entries.foldl insert index).entries = index.entries ++ entries := by
  induction entries generalizing index with
  | nil => simp
  | cons entry entries ih => simp [ih, insert]

theorem entries_ofList (entries : List ObjectEntry) : (ofList entries).entries = entries :=
  entries_foldl_insert empty entries

theorem exact_ofList (entries : List ObjectEntry) : (ofList entries).Exact :=
  exact_empty.foldl_insert entries

/-- A name finds the first object of the list that answers to it, whatever names the objects share,
and nothing if and only if no object answers to it. The index keeps the list as it is, and all its
positions are positions in the list. -/
theorem find?_earliest (entries : List ObjectEntry) (name : String) :
    (∀ entry, (ofList entries).find? name = some entry ↔
      ∃ before after, entries = before ++ entry :: after ∧ entry.answersTo name ∧
        ∀ earlier ∈ before, ¬ earlier.answersTo name) ∧
    ((ofList entries).find? name = none ↔ ∀ entry ∈ entries, ¬ entry.answersTo name) ∧
    (∀ key position, (key, position) ∈ (ofList entries).positions →
      position < (ofList entries).entries.length) ∧
    (ofList entries).entries = entries := by
  have hexact := exact_ofList entries
  have hfind := hexact.find?_eq name
  rw [entries_ofList] at hfind
  refine ⟨fun entry => ?_, ?_, fun _ _ => hexact.lt_length, entries_ofList entries⟩
  · rw [hfind, List.find?_eq_some_iff_append]
    simp only [Bool.not_eq_true', Bool.not_eq_true]
    constructor
    · rintro ⟨hentry, before, after, hsplit, hearlier⟩
      exact ⟨before, after, hsplit, hentry, hearlier⟩
    · rintro ⟨before, after, hsplit, hentry, hearlier⟩
      exact ⟨hentry, before, after, hsplit, hearlier⟩
  · rw [hfind, List.find?_eq_none]

/-- A name that two objects share up to case, an object that is late for it and found by another
alias, and an object that is late for all its names. -/
theorem find?_earliest_shadowed :
    let damage : ObjectEntry := ⟨"damage", ["dmg", "d"], none, none, []⟩
    let decoy : ObjectEntry := ⟨"Decoy", ["D", "KÖDER"], none, none, []⟩
    let late : ObjectEntry := ⟨"DMG", ["köder"], none, none, []⟩
    let index := ofList [damage, decoy, late]
    index.find? "D" = some damage ∧ index.find? "Köder" = some decoy ∧ index.find? "heal" = none ∧
      ("köder", 1) ∈ index.positions ∧ 1 < index.entries.length ∧
      index.entries = [damage, decoy, late] := by
  intro damage decoy late index
  have hmem : ("köder", 1) ∈ index.positions := by decide +kernel
  have hdamage := (find?_earliest [damage, decoy, late] "D").1 damage
  have hdecoy := (find?_earliest [damage, decoy, late] "Köder").1 decoy
  obtain ⟨-, hnone, hvalid, hentries⟩ := find?_earliest [damage, decoy, late] "heal"
  refine ⟨hdamage.mpr ⟨[], [decoy, late], rfl, by decide +kernel, by simp⟩,
    hdecoy.mpr ⟨[damage], [late], rfl, by decide +kernel, ?_⟩, hnone.mpr ?_, hmem,
    hvalid _ _ hmem, hentries⟩
  · rw [List.forall_mem_singleton]
    decide +kernel
  · decide +kernel

end ObjectIndex

end SkillScript
