import RandomTables.Table.Store

/-! # Tables of the demonstrations -/

namespace RandomTables.Demo

/-- A list of entries. -/
def entries (items : List String) : Table := .list (items.map String.toList)

/-- A map of tables. -/
def tables (named : List (String × Table)) : Store :=
  .ofList (named.map fun (name, table) => (name.toList, table))

/-- Treasure. -/
def loot : Store := tables [
  ("loot", (tables [
    ("coin", entries ["copper ^6", "silver ^3", "gold"]),
    ("gem", entries ["ruby", "opal", "jade", "amethyst", "emerald ^0.5"]),
    ("material", entries ["iron ^3", "steel ^2", "bronze", "obsidian"]),
    ("weapon", entries ["sword", "axe", "knife", "[loot.material] mace"]),
    ("cursed", entries ["'[REDACTED]'"]),
    ("hoard", entries [
      "\x7b2-200\x7d [loot.coin] coins",
      "\x7ba\x7d [loot.material] [loot.weapon] and [loot.gem*\x7b1-3\x7d]",
      "[loot.gem*2!emerald], \x7b[loot.weapon.pluralForm]|[loot.coin] ingots\x7d",
      "[loot.gem.capitalize]-studded [loot.weapon] [loot.cursed?]"])]).toTable)]

/-- Tavern scenes. -/
def tavern : Store := tables [
  ("tavern", (tables [
    ("name", entries [
      "The [tavern.adjective.capitalize] [tavern.creature.capitalize]",
      "[tavern.creature.capitalize] and [tavern.creature.capitalize]",
      "The [tavern.creature.capitalize]'s Rest"]),
    ("adjective", entries ["drunken", "golden ^2", "prancing", "sleeping", "rusty", "one-eyed"]),
    ("creature", entries ["pony", "dragon", "goose ^2", "wolf", "owl", "badger"]),
    ("drink", entries ["ale ^4", "mead ^2", "cider", "\x7ba\x7d [tavern.adjective] wine"]),
    ("patron", entries [
      "\x7ba\x7d [tavern.adjective] [occupation]",
      "[npc.first_name], \x7ba\x7d [occupation]",
      "two [occupation.pluralForm]"]),
    ("scene", entries [
      "At [tavern.name], [tavern.patron] nurses \x7ba\x7d [tavern.drink] while [tavern.patron?] argues about \x7b2-40\x7d gold.",
      "[tavern.patron.capitalize] orders \x7b[tavern.drink]|[tavern.drink] and a bowl of stew\x7d."])]).toTable),
  ("occupation", entries
    ["blacksmith", "elf", "knight", "thief", "wizard", "innkeeper", "hunter"]),
  ("npc", (tables [
    ("first_name", entries [
      "Aldric", "Aldwin", "Alden", "Baldric", "Cedric", "Edric", "Godric", "Harwin", "Osric",
      "Wulfric", "Eldrin", "Merwin"]),
    ("greeting", .scalar "Well met, traveler.".toList)]).toTable)]

end RandomTables.Demo
