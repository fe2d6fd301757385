import SkillScript.Schema.BuiltIn.Builder

/-!
# The schema of mob files
-/

namespace SkillScript

open SchemaNode

/-- The keys of a boss bar. -/
def bossBarKeys : Mapping SchemaNode := .keys [
  ("Enabled", boolean "Whether the mob has a boss bar"),
  ("Title", string "The boss bar title"),
  ("Range", integer "The distance the boss bar is visible from"),
  ("Color", member "BARCOLOR" "The boss bar color"),
  ("Style", member "BARSTYLE" "The boss bar style"),
  ("CreateFog", boolean "Whether the boss bar creates fog"),
  ("DarkenSky", boolean "Whether the boss bar darkens the sky"),
  ("PlayMusic", boolean "Whether the boss bar plays boss music")]

/-- The keys of a mob's options. -/
def mobOptionKeys : Mapping SchemaNode := .keys [
  ("AlwaysShowName", boolean "Whether the name is always visible"),
  ("Despawn", oneOf ["true", "false", "persistent", "chunk", "never"] "When the mob despawns"),
  ("FollowRange", float "The range the mob tracks targets within"),
  ("Invincible", boolean "Whether the mob ignores all damage"),
  ("KnockbackResistance", float "Knockback resistance between 0 and 1"),
  ("MovementSpeed", float "The movement speed"),
  ("NoAI", boolean "Whether the mob has no AI"),
  ("PreventOtherDrops", boolean "Whether vanilla drops are removed"),
  ("PreventRandomEquipment", boolean "Whether vanilla random equipment is suppressed"),
  ("Silent", boolean "Whether the mob makes no sounds")]

/-- The keys of what a mob gains with each level. -/
def levelModifierKeys : Mapping SchemaNode := .keys [
  ("Health", float "Health added per level"),
  ("Damage", float "Damage added per level"),
  ("Armor", float "Armor added per level")]

/-- Where the kinds of mob are explained. -/
def mobLink : String := "https://git.mythiccraft.io/mythiccraft/MythicMobs/\x2d/wikis/Mobs/Mobs"

/-- The type of a mob. -/
def mobType : SchemaNode :=
  { member "ENTITYTYPE" "The entity type of the mob" with link := some mobLink }

/-- The keys of a mob. -/
def mobSchema : Schema where
  definitions := []
  root := .keys [
    ("Type", mobType),
    ("Display", string "The display name of the mob"),
    ("Health", float "The base health of the mob"),
    ("Damage", float "The base melee damage of the mob"),
    ("Armor", float "The base armor of the mob"),
    ("Faction", string "The faction of the mob"),
    ("Mount", string "The mob this mob rides"),
    ("Template", string "The mob this mob inherits from"),
    ("Options", block mobOptionKeys "Mob options"),
    ("BossBar", block bossBarKeys "Boss bar settings"),
    ("LevelModifiers", block levelModifierKeys "Per-level stat increases"),
    ("Skills", list "The skills of the mob"),
    ("AIGoalSelectors", list "The AI goals of the mob"),
    ("AITargetSelectors", list "The AI target selectors of the mob"),
    ("Drops", rows
      [member "MATERIAL" "The dropped item",
        (integer "The amount, a number or a range").offering ["1", "1-3"],
        (float "The drop chance").offering ["1", "0.5", "0.1"]]
      "The drops of the mob: item, amount and chance"),
    ("Equipment", rows
      [member "MATERIAL" "The equipped item",
        member "EQUIPSLOT" "The slot the item is equipped in"]
      "The equipment of the mob: item and slot"),
    ("DamageModifiers", rows
      [member "DAMAGECAUSE" "The damage cause",
        (float "The damage multiplier").offering ["0", "0.5", "2"]]
      "Damage cause multipliers"),
    ("Disguise", string "The disguise of the mob")]

end SkillScript
