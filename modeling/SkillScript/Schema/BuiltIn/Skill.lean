import SkillScript.Schema.BuiltIn.Builder

/-!
# The schema of skill files
-/

namespace SkillScript

open SchemaNode

/-- The keys of a skill. -/
def skillSchema : Schema where
  definitions := []
  root := .keys [
    ("Cooldown", float "Cooldown in seconds"),
    ("CancelIfNoTargets", boolean "Whether the skill stops without targets"),
    ("OnCooldownSkill", string "The skill executed while on cooldown"),
    ("FailedConditionsSkill", string "The skill executed when conditions fail"),
    ("Conditions", list "Conditions checked against the caster"),
    ("TargetConditions", list "Conditions checked against each target"),
    ("TriggerConditions", list "Conditions checked against the trigger"),
    ("Skills", list "The mechanics of the skill")]

end SkillScript
