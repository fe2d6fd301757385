/-!
# JSON values

The fields of an object keep the order in which they are written, and a name may be written twice.
`Json.value?` gives such a tree its meaning: of two fields of one name the later value takes the
earlier place.

Some well-formed text stands for no value, such as a string with half of a surrogate pair. It reads
as `unreadable`, which is an error only where the value is looked at.
-/

namespace SkillScript

/-- A JSON value as it is written. -/
inductive Json where
  | null
  | bool (b : Bool)
  /-- A number written as an integer. -/
  | int (n : Int)
  /-- Any other number, by its text; `-0` is one. -/
  | decimal (text : String)
  | str (s : String)
  | arr (items : List Json)
  | obj (fields : List (String × Json))
  /-- A string that is no text, an object with such a name, or a number out of range. -/
  | unreadable

namespace Json

/-- The fields with `value` under `name`: in the place of an earlier field of that name, or last. -/
def setField (name : String) (value : Json) : List (String × Json) → List (String × Json)
  | [] => [(name, value)]
  | (n, v) :: rest => if n = name then (n, value) :: rest else (n, v) :: setField name value rest

/-- One field per name, in the order of first mention and with the last value. -/
def keepLast (fields : List (String × Json)) : List (String × Json) :=
  fields.foldl (fun kept f => setField f.1 f.2 kept) []

/-- The value of a tree of at most `levels` nested containers, with one field per name in every
object; `none` when any part of it is unreadable. -/
def value? : Nat → Json → Option Json
  | _, unreadable => none
  | levels + 1, arr items => (items.mapM (value? levels)).map arr
  | levels + 1, obj fields =>
    (fields.mapM fun f => (value? levels f.2).map (f.1, ·)).map fun fs => obj (keepLast fs)
  | 0, arr _ => none
  | 0, obj _ => none
  | _, v => some v

/-- The depth of nested containers that a text may have. -/
def maxDepth : Nat := 127

/-- The value of the field `name` of an object. -/
def field? (name : String) : Json → Option Json
  | obj fields => fields.lookup name
  | _ => none

/-- The text of a string. -/
def str? : Json → Option String
  | str s => some s
  | _ => none

/-- The truth value of a Boolean. -/
def bool? : Json → Option Bool
  | bool b => some b
  | _ => none

/-- The integer of a number that is written as one. -/
def int? : Json → Option Int
  | int n => some n
  | _ => none

/-- The items of an array. -/
def items? : Json → Option (List Json)
  | arr items => some items
  | _ => none

/-- The fields of an object. -/
def members? : Json → Option (List (String × Json))
  | obj fields => some fields
  | _ => none

/-- The value that `read` finds, or `none` for `null`. -/
def optional? {α : Type} (read : Json → Option α) : Json → Option (Option α)
  | null => some none
  | v => (read v).map some

/-- The items of an array, each read by `read`. -/
def list? {α : Type} (read : Json → Option α) : Json → Option (List α)
  | arr items => items.mapM read
  | _ => none

/-- The fields of an object, each value read by `read`. -/
def fields? {α : Type} (read : Json → Option α) : Json → Option (List (String × α))
  | obj fields => fields.mapM fun f => (read f.2).map (f.1, ·)
  | _ => none

mutual

/-- A measure of a value that is larger than that of its parts. -/
def size : Json → Nat
  | arr items => 1 + sizeItems items
  | obj fields => 1 + sizeFields fields
  | _ => 1

/-- The measure of the items of an array. -/
def sizeItems : List Json → Nat
  | [] => 0
  | v :: rest => 1 + size v + sizeItems rest

/-- The measure of the fields of an object. -/
def sizeFields : List (String × Json) → Nat
  | [] => 0
  | (_, v) :: rest => 1 + size v + sizeFields rest

end

theorem size_pos (v : Json) : 0 < v.size := by
  cases v <;> simp only [size] <;> omega

theorem size_lt_sizeItems {v : Json} {items : List Json} (h : v ∈ items) :
    v.size < sizeItems items := by
  induction items with
  | nil => cases h
  | cons w rest ih =>
    simp only [sizeItems]
    rcases List.mem_cons.1 h with rfl | h
    · omega
    · have := ih h; omega

theorem size_lt_sizeFields {f : String × Json} {fields : List (String × Json)} (h : f ∈ fields) :
    f.2.size < sizeFields fields := by
  induction fields with
  | nil => cases h
  | cons g rest ih =>
    obtain ⟨name, w⟩ := g
    simp only [sizeFields]
    rcases List.mem_cons.1 h with rfl | h
    · simp only; omega
    · have := ih h; omega

/-- The string, or `null`. -/
def ofOption (s : Option String) : Json :=
  match s with
  | some s => str s
  | none => null

end Json

end SkillScript
