import SeedSearch.Log.Level
import SeedSearch.Log.Record

namespace SeedSearch.Log

inductive Format where
  | plain
  | json
  -- a handler of someone else, which begins its lines with a mark
  | marked (mark : String)
  deriving DecidableEq, Repr

-- A hollow stream counts as none.
structure Stream where
  number : Nat
  hollow : Bool := false
  deriving DecidableEq, Repr

def Stream.errors : Nat := 2

def Stream.chosen : Option Stream → Nat
  | some ⟨number, false⟩ => number
  | _ => errors

structure Handler where
  stream : Nat
  format : Format
  deriving DecidableEq, Repr

inductive Line where
  | plain (text : String)
  | marked (text : String)
  | json (record : Record)

structure Logging where
  rootLevel : Int := 30
  handlers : List Handler := []
  levels : List (String × Int) := []
  -- all loggers but the root, as they came into being
  loggers : List String := []
  verdicts : List ((String × Int) × Bool) := []
  deriving DecidableEq, Repr

namespace Logging

def isRoot (logger : String) : Bool := logger = "" || logger = "root"

def get (l : Logging) (logger : String) : Logging :=
  if isRoot logger || l.loggers.contains logger then l else { l with loggers := l.loggers ++ [logger] }

-- The first of two loggers is put above the second one if it exists. One whose
-- name the root's begins with comes too late for those that were there before
-- it: they keep the root above them.
def isAbove (l : Logging) (above logger : String) : Bool :=
  l.loggers.contains above &&
    !(["r", "ro", "roo"].contains above && l.loggers.idxOf logger < l.loggers.idxOf above)

-- The name is spelled backwards. Loggers above are looked for at its points, and at
-- none right before another one.
def climb (l : Logging) (logger : String) : List Char → List String
  | '.' :: c :: rest =>
    let above := String.ofList (c :: rest).reverse
    if l.isAbove above logger then above :: l.climb above (c :: rest) else l.climb logger rest
  | _ :: rest => l.climb logger rest
  | [] => []

def lineage (l : Logging) (logger : String) : List String := logger :: l.climb logger logger.toList.reverse

def levelOf (l : Logging) (logger : String) : Int := (l.levels.lookup logger).getD 0

-- A level of zero is none: then the logger above decides, and last the root.
def effectiveLevel (l : Logging) (logger : String) : Int :=
  if isRoot logger then l.rootLevel
  else (((l.lineage logger).map l.levelOf).find? (· ≠ 0)).getD l.rootLevel

def setLevel (l : Logging) (logger : String) (level : Int) : Logging :=
  if isRoot logger then { l with rootLevel := level, verdicts := [] }
  else { l.get logger with levels := (logger, level) :: l.levels, verdicts := [] }

def override (l : Logging) : List (String × String) → Logging × Option Unfit
  | [] => (l, none)
  | (logger, word) :: rest =>
    match levelOr 20 word with
    | .error u => (l.get logger, some u)
    | .ok level => (l.setLevel logger level).override rest

-- Words that name no level count as a warning for the root and as information for
-- the others.
def configure (l : Logging) (level : String) (json : Bool) (stream : Option Stream)
    (overrides : List (String × String)) : Logging × Option Unfit :=
  match levelOr 30 level with
  | .error u => (l, some u)
  | .ok n =>
    { l.setLevel "root" n with handlers := [⟨Stream.chosen stream, if json then .json else .plain⟩] }.override overrides

def isEnabled (l : Logging) (logger : String) (level : Int) : Bool :=
  (l.verdicts.lookup (logger, level)).getD (0 < level && l.effectiveLevel logger ≤ level)

def remember (l : Logging) (logger : String) (level : Int) : Logging :=
  { l with verdicts := ((logger, level), l.isEnabled logger level) :: l.verdicts }

def line? (r : Record) : Format → Option Line
  | .plain => some (.plain r.plain)
  | .marked mark => some (.marked (r.told (mark ++ r.message)))
  | .json => if (Json.table (r.members "")).flaw?.isNone then some (.json r) else none

-- Without any handler, warnings and worse go to the error stream.
def writers (l : Logging) (r : Record) : List Handler :=
  if !l.handlers.isEmpty then l.handlers
  else if 30 ≤ r.level then [⟨Stream.errors, .marked ""⟩]
  else []

-- An extra of this name hides the message, and the record is not written.
def isMute (r : Record) : Bool := r.extras.any (·.1 = "getMessage")

def emit (l : Logging) (r : Record) : List (Nat × Line) :=
  if isMute r then [] else (l.writers r).filterMap fun h => (line? r h.format).map (h.stream, ·)

def say (l : Logging) (r : Record) : Logging × Except Record.Overwrite (List (Nat × Line)) :=
  let r := if isRoot r.logger then { r with logger := "root", name := .text "root" } else r
  let l := l.get r.logger
  (l.remember r.logger r.level,
    if l.isEnabled r.logger r.level then
      match r.overwrite? with
      | some o => .error o
      | none => .ok (l.emit r)
    else .ok [])

end Logging

def Line.text (clock stamp : String) : Line → String
  | plain text => clock ++ text
  | marked text => text
  | json r => (Json.table (r.members stamp)).render

end SeedSearch.Log
