import SeedSearch.Category
import SeedSearch.Text.Fragment

namespace SeedSearch.Vocabulary
open Category

-- Names are spelled as the game writes them into a seed catalog.

def monsterClasses : List String :=
  ["airborne", "abomination", "animal", "dar", "dragon", "fireborne", "goblin", "infernal",
   "jelly", "mage", "ogre", "troll", "turret", "undead", "waterborne"]

def monsters : List String :=
  ["acid mound", "acidic jelly", "arrow turret", "black jelly", "bloat", "bog monster",
   "centaur", "centipede", "dar battlemage", "dar blademaster", "dar priestess",
   "dart turret", "dragon", "eel", "explosive bloat", "flame turret", "flamedancer", "fury",
   "goblin", "goblin conjurer", "goblin mystic", "goblin totem", "goblin warlord", "golem",
   "guardian spirit", "ifrit", "imp", "jackal", "kobold", "kraken", "lich", "mangrove dryad",
   "mirrored totem", "monkey", "naga", "ogre", "ogre shaman", "ogre totem", "phantom",
   "phoenix", "phoenix egg", "phylactery", "pink jelly", "pit bloat", "pixie", "rat",
   "revenant", "salamander", "sentinel", "spark turret", "spectral blade", "spider",
   "stone guardian", "tentacle horror", "toad", "troll", "underworm", "unicorn", "vampire",
   "vampire bat", "warden of yendor", "will-o-the-wisp", "winged guardian", "wraith",
   "zombie"]

def allyStatuses : List String := ["allied", "caged", "shackled"]

def legendaryStatus : String := "allied"

def mutations : List String :=
  ["agile", "explosive", "grappling", "infested", "juggernaut", "reflective", "toxic",
   "vampiric"]

def armorRunics : List String :=
  ["absorption", "dampening", "multiplicity", "mutuality", "reflection", "reprisal",
   "respiration", "burden", "immolation", "vulnerability"] ++
    monsterClasses.map (· ++ " immunity")

def weaponRunics : List String :=
  ["confusion", "force", "multiplicity", "paralysis", "quietus", "slowing", "speed", "mercy",
   "plenty"] ++
    monsterClasses.map (· ++ " slaying")

-- Gold has no table: its kind is read as text. Groups have no kinds of their own.
def kinds : Category → List String
  | .ally => monsters
  | .altar => ["commutation altar", "resurrection altar"]
  | .armor =>
      ["banded mail", "chain mail", "leather armor", "plate armor", "scale mail",
       "splint mail"]
  | .charm =>
      ["fire immunity", "guardian", "haste", "health", "invisibility", "levitation",
       "negation", "protection", "recharging", "shattering", "telepathy", "teleportation"]
  | .food => ["mango", "ration of food"]
  | .key => ["door key", "cage key", "crystal orb"]
  | .potion =>
      ["caustic gas", "confusion", "creeping death", "darkness", "descent", "detect magic",
       "fire immunity", "hallucination", "incineration", "invisibility", "levitation", "life",
       "paralysis", "speed", "strength", "telepathy"]
  | .ring =>
      ["awareness", "clairvoyance", "light", "reaping", "regeneration", "stealth",
       "transference", "wisdom"]
  | .scroll =>
      ["aggravate monsters", "discord", "enchanting", "identify", "magic mapping", "negation",
       "protect armor", "protect weapon", "recharging", "remove curse", "sanctuary",
       "shattering", "summon monsters", "teleportation"]
  | .staff =>
      ["blinking", "conjuration", "discord", "entrancement", "firebolt", "haste", "healing",
       "lightning", "obstruction", "poison", "protection", "tunneling"]
  | .wand =>
      ["beckoning", "domination", "empowerment", "invisibility", "negation", "plenty",
       "polymorphism", "slowness", "teleportation"]
  | .weapon =>
      ["broadsword", "dagger", "sword", "mace", "war hammer", "spear", "war pike", "war axe",
       "axe", "rapier", "whip", "flail", "incendiary dart", "dart", "javelin"]
  | .gold | .item | .equipment => []

def runics : Category → List String
  | .armor => armorRunics
  | .weapon => weaponRunics
  | _ => []

-- The kinds that harm the one who uses them. Every other kind of these four
-- categories is benevolent; the rest have no polarity of their kind.
def malevolentKinds? : Category → Option (List String)
  | .potion =>
      some ["caustic gas", "confusion", "creeping death", "darkness", "descent",
             "hallucination", "incineration", "paralysis"]
  | .scroll => some ["aggravate monsters", "summon monsters"]
  | .staff => some ["haste", "healing", "protection"]
  | .wand => some ["empowerment", "invisibility", "plenty"]
  | _ => none

def containsPartial (names : List String) (text : String) : Bool :=
  text ≠ "" && names.any (Text.isFragment text)

def isKindFragment (c : Category) (text : String) : Bool := containsPartial (kinds c) text
def isRunicFragment (c : Category) (text : String) : Bool := containsPartial (runics c) text
def isMutationFragment (text : String) : Bool := containsPartial mutations text

def lookup? (names : List String) (text : String) : Option String := names.find? (· = text)

def isMalevolent? (c : Category) (kind : String) : Option Bool :=
  (malevolentKinds? c).map (·.contains kind)

theorem lookup?_eq_some_iff {names : List String} {text found : String} :
    lookup? names text = some found ↔ found = text ∧ text ∈ names := by
  constructor
  · intro h
    have same : found = text := by simpa using List.find?_some h
    exact ⟨same, same ▸ List.mem_of_find?_eq_some h⟩
  · rintro ⟨rfl, h⟩
    cases found? : lookup? names found with
    | none => simpa using List.find?_eq_none.mp found? found h
    | some other => have := List.find?_some found?; simp_all

end SeedSearch.Vocabulary
