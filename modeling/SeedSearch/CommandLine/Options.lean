import SeedSearch.Category

namespace SeedSearch.CommandLine

inductive Opt where
  | help | debug | folder | nesting | depthMin | depthMax | seedMin | seedMax | matchesMax
  | random | utf8 | utf16 | verbosity | json | stopOnError
  | terms (category : Category)
  deriving DecidableEq, Repr

namespace Opt

inductive Takes where
  | nothing | one | many
  deriving DecidableEq, Repr

def takes : Opt → Takes
  | folder | nesting | depthMin | depthMax | seedMin | seedMax | matchesMax | verbosity => .one
  | terms _ => .many
  | _ => .nothing

private def letter : Category → Option String
  | .ally => some "-A"
  | .altar => none
  | .armor => some "-a"
  | .charm => some "-c"
  | .equipment => some "-e"
  | .food => some "-f"
  | .gold => some "-g"
  | .item => some "-i"
  | .key => some "-k"
  | .potion => some "-p"
  | .ring => some "-r"
  | .scroll => some "-S"
  | .staff => some "-s"
  | .wand => some "-W"
  | .weapon => some "-w"

def spellings : Opt → List String
  | help => ["-h", "--help"]
  | debug => ["-D", "--debug"]
  | folder => ["-F", "--filepath"]
  | nesting => ["--nesting"]
  | depthMin => ["--mindepth"]
  | depthMax => ["-d", "--depth", "--maxdepth"]
  | seedMin => ["--minseed", "--start"]
  | seedMax => ["--maxseed", "--stop"]
  | matchesMax => ["-m", "--matches"]
  | random => ["-R", "--random"]
  | utf8 => ["-U", "--utf8"]
  | utf16 => ["--utf16"]
  | verbosity => ["-v", "--verbosity"]
  | json => ["--json"]
  | stopOnError => ["--stop-on-error"]
  | terms c => (letter c).toList ++ ["--" ++ c.name]

-- All options in the order in which candidates for an abbreviation are listed.
def all : List Opt :=
  [help, debug, folder, nesting, depthMin, depthMax, seedMin, seedMax, matchesMax, random, utf8,
   utf16, verbosity, json, stopOnError] ++
    [Category.ally, .altar, .armor, .charm, .equipment, .food, .gold, .item, .key, .potion, .ring,
     .scroll, .staff, .wand, .weapon].map terms

def title (o : Opt) : String := "/".intercalate o.spellings

def table : List (String × Opt) := all.flatMap fun o => o.spellings.map (·, o)

def ofSpelling? (text : String) : Option Opt := table.lookup text

end Opt

end SeedSearch.CommandLine
