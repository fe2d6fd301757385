import SkillScript.Text.Case

/-!
# Datasets

A dataset is a named list of keys, each with an optional description. Keys are compared in lower
case and the names of datasets in upper case.
-/

namespace SkillScript

/-- A member of a dataset. -/
structure DatasetEntry where
  key : String
  description : Option String
  deriving DecidableEq, Repr

/-- A named, ordered enumeration. -/
structure Dataset where
  name : String
  entries : List DatasetEntry
  deriving DecidableEq, Repr

namespace Dataset

/-- The keys in the order of their declaration. -/
def keys (d : Dataset) : List String := d.entries.map DatasetEntry.key

/-- The dataset has a key that equals `key` in lower case. -/
def contains (d : Dataset) (key : String) : Bool := d.keys.any fun k => lower k == lower key

end Dataset

/-- Datasets, of which no two have one name in upper case. -/
abbrev Datasets := List Dataset

namespace Datasets

/-- The datasets with `d`, in the place of an earlier one of its name. -/
def insert (d : Dataset) : Datasets → Datasets
  | [] => [d]
  | e :: rest => if upper e.name = upper d.name then d :: rest else e :: insert d rest

/-- The datasets of a list, the later of two with one name. -/
def ofList (ds : List Dataset) : Datasets := ds.foldl (fun kept d => insert d kept) []

/-- The dataset called `name`. -/
def find? (ds : Datasets) (name : String) : Option Dataset :=
  List.find? (fun d => upper d.name == upper name) ds

end Datasets

end SkillScript
