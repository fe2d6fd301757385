import SkillScript.Key.Ancestors
import SkillScript.Settings

/-!
# The section of the cursor

A line belongs to the section of its own key, when objects may be listed under that key, and else to
the section of its nearest ancestor. The section decides the category of an object without a sigil.
-/

namespace SkillScript

/-- The key that the objects on line `n` are listed under. -/
def Document.sectionKey? (d : Document) (settings : Settings) (n : Nat) : Option Key :=
  match d.keyAt? n with
  | some key => if settings.isSkillBearing key.name then some key else (d.ancestors n).head?
  | none => (d.ancestors n).head?

/-- The category of the objects without a sigil on line `n`. -/
def Document.sectionCategory? (d : Document) (settings : Settings) (n : Nat) : Option Category :=
  (d.sectionKey? settings n).bind fun key => settings.keyCategory? key.name

end SkillScript
