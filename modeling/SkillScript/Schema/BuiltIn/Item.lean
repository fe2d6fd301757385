import SkillScript.Schema.BuiltIn.Builder

/-!
# The schema of item files

An item may be a bundle of further items, so the schema contains itself. A bundle closes the depth:
items inside it count as deep as the bundle.
-/

namespace SkillScript

open SchemaNode

/-- The enchantments of an item with their levels. -/
def enchantments : SchemaNode :=
  { members "ENCHANTMENT" "Enchantments with their level" with
    suffix := some ⟨":", .range 1 5⟩ }

/-- The items in a bundle. -/
def bundledItems : SchemaNode :=
  { blockOf "Bundle" "Items stored in the bundle" with closesDepth := true }

/-- The keys of an item. -/
def itemKeys : Mapping SchemaNode := .keys [
  ("Id", member "MATERIAL" "The material of the item"),
  ("Material", member "MATERIAL" "The material of the item"),
  ("Display", string "The display name of the item"),
  ("Lore", list "The lore lines of the item"),
  ("Model", integer "The custom model data of the item"),
  ("Amount", integer "The stack size of the item"),
  ("Enchantments", enchantments),
  ("Hide", members "ITEMFLAG" "Item flags to hide"),
  ("Attributes", block
    (.keyedBy "EQUIPSLOT" (block
      (.keyedBy "ATTRIBUTE" (float "The modifier amount"))
      "Attribute modifiers applied in this slot"))
    "Attribute modifiers per equipment slot"),
  ("Options", block
    (.keys [
      ("Unbreakable", boolean "Whether the item is unbreakable"),
      ("Color", described .rgb "Leather or potion color"),
      ("Glow", boolean "Whether the item glows"),
      ("Player", string "The owner of a player head")])
    "Item options"),
  ("Bundle", bundledItems),
  ("Skills", list "Skills the item casts")]

/-- The keys of an item, with the definitions that bundles refer to. -/
def itemSchema : Schema where
  root := itemKeys
  definitions := [
    ("Bundle", .anyKey (blockOf "Item" "A stored item")),
    ("Item", itemKeys)]

end SkillScript
