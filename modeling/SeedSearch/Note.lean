import SeedSearch.Fault

namespace SeedSearch

inductive Note where
  | compiled (criteria : Nat)
  | skipped (folder : Path)
  | searching (file : Path)
  | failed (file : Path) (message : String)
  | committed (seeds : Nat) (file : Path)
  | abandoned (seed depth : Int)
  | satisfied (seed successes target : Int)
  deriving DecidableEq, Repr

namespace Note

-- 10 is for following a run, 20 for its progress, 30 for what was left out and
-- 40 for what went wrong.
def level : Note → Int
  | skipped _ => 30
  | searching _ => 20
  | failed .. => 40
  | _ => 10

def speaker : Note → String
  | compiled _ => "brogue_scanner.search.compiler"
  | skipped _ => "brogue_scanner.files"
  | satisfied .. => "brogue_scanner.search.query"
  | _ => "brogue_scanner.search.engine"

def message : Note → String
  | compiled n => s!"Compiled {n} search criteria"
  | skipped folder =>
    s!"Skipping unreadable directory {folder.text}: " ++ Refusal.denied.message folder
  | searching file => "Searching file " ++ file.text
  | failed file message => s!"Failed to scan {file.text}: " ++ message
  | committed seeds file => s!"Committed {seeds} seeds from {file.text}"
  | abandoned seed depth => s!"Seed {seed} abandoned at depth {depth}"
  | satisfied seed successes target =>
    s!"Seed {seed} satisfied all criteria ({successes}/{target})"

end Note

end SeedSearch
