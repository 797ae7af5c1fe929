import SeedSearch.CommandLine.Options

namespace SeedSearch.CommandLine

private def Opt.purpose : Opt → String
  | .help => "show this help message and exit"
  | .debug => "Log each file and committed seed"
  | .folder => "Directory holding seed catalog .csv files (default: BROGUE_SCANNER_DATA_DIR or '.')"
  | .nesting => "Subdirectory levels to search below --filepath (default: 0)"
  | .depthMin => "Shallowest depth searched (default: 1)"
  | .depthMax => "Deepest depth searched, also the default depth of each criterion (default: 26)"
  | .seedMin => "Lowest seed searched (default: 1)"
  | .seedMax => "Highest seed searched (default: 4294967295)"
  | .matchesMax => "Number of matching seeds to find (default: 10)"
  | .random => "Search catalog files in random order"
  | .utf8 => "UTF-8 catalogs"
  | .utf16 => "UTF-16LE catalogs"
  | .verbosity => "1: seeds, 2: seeds and depths, 3: seeds, depths and objects (default: 3)"
  | .json => "Print the search report as JSON"
  | .stopOnError => "Abort on the first unreadable catalog instead of skipping it"
  | .terms .ally => "Allies, captives and legendary allies"
  | .terms .altar => "Commutation or resurrection altars"
  | .terms .armor => "Armor, with optional enchantment and runic"
  | .terms .charm => "Charms"
  | .terms .equipment => "Any armor, ring or weapon"
  | .terms .food => "Food; COUNT required"
  | .terms .gold => "Gold pieces; COUNT required"
  | .terms .item => "Any armor, charm, potion, ring, scroll, staff, wand or weapon"
  | .terms .key => "Keys and crystal orbs"
  | .terms .potion => "Potions"
  | .terms .ring => "Rings"
  | .terms .scroll => "Scrolls"
  | .terms .staff => "Staffs"
  | .terms .wand => "Wands"
  | .terms .weapon => "Weapons, with optional enchantment and runic"

private def Opt.entry (o : Opt) : String :=
  "  " ++ ", ".intercalate o.spellings ++ "\n      " ++ o.purpose

def helpText : String :=
  "\n".intercalate
    (["Find Brogue CE seeds whose seed catalog matches the requested objects.", ""] ++
      Opt.all.map Opt.entry ++
      ["",
       "Each object flag takes search terms and may be repeated. Terms for one flag",
       "form criteria without separators; repeating a term already given starts a",
       "new criterion. Common terms:",
       "  N, <N, =N     at least / fewer than / exactly N (default: at least 1)",
       "  dN            found by depth N",
       "  +N, N-        enchantment of at least N / at most -N",
       "  vault, novault  inside / outside a vault",
       "  good, bad     benevolent / malevolent",
       "  runic         any runic (armor, weapon, equipment, item)",
       "  legendary, mutation, allied, caged, shackled  (ally)",
       "  any other term is matched against kind, runic or mutation names",
       "",
       "example: brogue-scanner -w +3 quietus d10 -g 2600 -A legendary -m 2", ""])

end SeedSearch.CommandLine
