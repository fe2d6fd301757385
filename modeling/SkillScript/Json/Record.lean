import SkillScript.Json.Basic

/-!
# Records in JSON

A record with named fields is written as an object, or as an array of its fields in the order of
their declaration. An object may have other fields, which are ignored, but none of the record's own
twice. An array may leave out trailing fields and has no more items than the record has fields.
-/

namespace SkillScript

namespace Json

/-- A name occurs twice. -/
def hasRepeat : List String → Bool
  | [] => false
  | name :: rest => rest.contains name || hasRepeat rest

/-- The fields of a record with the given field names, as far as they are written. -/
def record? (names : List String) : Json → Option (List (String × Json))
  | obj fields =>
    let known := fields.filter fun f => names.contains f.1
    if hasRepeat (known.map Prod.fst) then none else some known
  | arr items => if items.length ≤ names.length then some (names.zip items) else none
  | _ => none

/-- The fields of a record whose array form leaves nothing out. -/
def fullRecord? (names : List String) : Json → Option (List (String × Json))
  | arr items => if items.length = names.length then some (names.zip items) else none
  | v => record? names v

/-- The field `name`, which must be written. -/
def required? {α : Type} (read : Json → Option α) (name : String) (fields : List (String × Json)) :
    Option α :=
  (fields.lookup name).bind read

/-- The field `name`, or `default` when it is not written. -/
def orElse? {α : Type} (read : Json → Option α) (default : α) (name : String)
    (fields : List (String × Json)) : Option α :=
  match fields.lookup name with
  | some v => read v
  | none => some default

/-- The optional field `name`; not written is the same as `null`. -/
def maybe? {α : Type} (read : Json → Option α) (name : String) (fields : List (String × Json)) :
    Option (Option α) :=
  orElse? (optional? read) none name fields

/-- The name of a constant, written as a string or as an object `{name: null}`. -/
def variant? : Json → Option String
  | str s => some s
  | obj [(s, null)] => some s
  | _ => none

/-! ## Fields are smaller than their record -/

theorem size_lt_of_record? {names : List String} {v : Json} {fields : List (String × Json)}
    (h : record? names v = some fields) : ∀ f ∈ fields, f.2.size < v.size := by
  unfold record? at h
  split at h
  · next all =>
    dsimp only at h
    split at h
    · cases h
    · cases h
      intro f hf
      have := size_lt_sizeFields (List.mem_filter.1 hf).1
      simp only [size]; omega
  · next items =>
    split at h
    · cases h
      intro f hf
      have := size_lt_sizeItems (List.of_mem_zip hf).2
      simp only [size]; omega
    · cases h
  · cases h

theorem size_lt_of_fullRecord? {names : List String} {v : Json} {fields : List (String × Json)}
    (h : fullRecord? names v = some fields) : ∀ f ∈ fields, f.2.size < v.size := by
  unfold fullRecord? at h
  split at h
  · next items =>
    split at h
    · cases h
      intro f hf
      have := size_lt_sizeItems (List.of_mem_zip hf).2
      simp only [size]; omega
    · cases h
  · exact size_lt_of_record? h

theorem mem_of_lookup {α : Type} {name : String} {a : α} {fields : List (String × α)}
    (h : fields.lookup name = some a) : (name, a) ∈ fields := by
  induction fields with
  | nil => cases h
  | cons f rest ih =>
    obtain ⟨n, b⟩ := f
    simp only [List.lookup_cons] at h
    split at h
    · next heq => cases h; simp_all
    · exact List.mem_cons_of_mem _ (ih h)

theorem size_items_lt {fields : List (String × Json)} {items : List Json} {name : String} {n : Nat}
    (hn : ∀ f ∈ fields, f.2.size < n) (hpos : 0 < n)
    (h : orElse? items? [] name fields = some items) : sizeItems items < n := by
  unfold orElse? at h
  split at h
  · next v hv =>
    have := hn _ (mem_of_lookup hv)
    cases v <;> simp_all [items?, size]
    omega
  · cases h; simpa [sizeItems] using hpos

theorem size_members_lt {fields members : List (String × Json)} {name : String} {n : Nat}
    (hn : ∀ f ∈ fields, f.2.size < n)
    (h : maybe? members? name fields = some (some members)) : sizeFields members < n := by
  unfold maybe? orElse? at h
  split at h
  · next v hv =>
    have := hn _ (mem_of_lookup hv)
    cases v <;> simp_all [optional?, members?, size]
    omega
  · cases h

end Json

end SkillScript
