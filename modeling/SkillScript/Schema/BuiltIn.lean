import SkillScript.Schema.BuiltIn.Achievement
import SkillScript.Schema.BuiltIn.Item
import SkillScript.Schema.BuiltIn.Mob
import SkillScript.Schema.BuiltIn.Skill
import SkillScript.Schema.Registry

/-!
# The built-in schemas
-/

namespace SkillScript

/-- The schemas that need no reference data. -/
def SchemaRegistry.builtIn : SchemaRegistry :=
  insert (insert (insert (insert [] "Mob" mobSchema) "Item" itemSchema) "Skill" skillSchema)
    "Achievement" achievementSchema

end SkillScript
