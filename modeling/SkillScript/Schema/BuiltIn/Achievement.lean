import SkillScript.Schema.BuiltIn.Builder

/-!
# The schema of achievement files
-/

namespace SkillScript

open SchemaNode

/-- The keys of an achievement. -/
def achievementSchema : Schema where
  definitions := []
  root := .keys [
    ("Display", string "The title shown for the achievement"),
    ("Description", string "The description shown below the title"),
    ("Icon", block
      (.keys [
        ("Material", member "MATERIAL" "The material of the icon"),
        ("Model", integer "The custom model data of the icon")])
      "The icon of the achievement"),
    ("Parent", string "The achievement this one is nested under"),
    ("Frame", oneOf ["TASK", "GOAL", "CHALLENGE"] "The frame drawn around the icon"),
    ("Background", string "The background texture of a root achievement"),
    ("ShowToast", boolean "Whether a toast is shown on completion"),
    ("AnnounceToChat", boolean "Whether completion is announced in chat"),
    ("Hidden", boolean "Whether the achievement is hidden until completed"),
    ("Criteria", described .keyList "The criteria to complete"),
    ("Reward", list "Skills executed on completion")]

end SkillScript
