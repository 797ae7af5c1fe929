import SeedSearch.Encoding
import SeedSearch.Folder
import SeedSearch.Limits
import SeedSearch.Settings.EnvFile

namespace SeedSearch

structure Settings where
  dataFolder : Path := {}
  encoding : Encoding := .utf16
  nestingMax : Int := 0
  matchesMax : Int := 10
  logLevel : String := "WARNING"
  logJson : Bool := false
  stopOnError : Bool := false
  deriving DecidableEq, Repr

namespace Settings

inductive Raw where
  | text (value : String)
  | number (value : Int)
  | fraction
  | flag (value : Bool)
  | other
  deriving DecidableEq, Repr

inductive Field where
  | dataFolder | encoding | nestingMax | matchesMax | logLevel | logJson | stopOnError
  deriving DecidableEq, Repr

namespace Field

def all : List Field :=
  [dataFolder, encoding, nestingMax, matchesMax, logLevel, logJson, stopOnError]

def name : Field → String
  | dataFolder => "data_dir"
  | encoding => "encoding"
  | nestingMax => "nesting_max"
  | matchesMax => "matches_max"
  | logLevel => "log_level"
  | logJson => "log_json"
  | stopOnError => "stop_on_error"

end Field

inductive Problem where
  | encoding
  | notAPath
  | notText
  | notAnInteger
  | fractional
  | unreadableInteger
  | overlongInteger
  | notAFlag
  | unreadableFlag
  | outOfRange (why : Limits.OutOfRange)
  deriving DecidableEq, Repr

def Problem.message : Problem → String
  | encoding => "Input should be 'utf-16' or 'utf-8'"
  | notAPath => "Input is not a valid path"
  | notText => "Input should be a valid string"
  | notAnInteger => "Input should be a valid integer"
  | fractional => "Input should be a valid integer, got a number with a fractional part"
  | unreadableInteger => "Input should be a valid integer, unable to parse string as an integer"
  | overlongInteger => "Unable to parse input string as an integer, exceeded maximum size"
  | notAFlag => "Input should be a valid boolean"
  | unreadableFlag => "Input should be a valid boolean, unable to interpret input"
  | outOfRange why => why.message

open Text in
-- Plain digits with single low lines between them; a fractional part of zeros
-- is passed over.
def integer? (text : String) : Except Problem Int := do
  let text := trimBy Numeral.pads text.toList
  let (negative, body) := match text with
    | '-' :: rest => (true, rest)
    | '+' :: rest => (false, rest)
    | rest => (false, rest)
  let whole := body.takeWhile (· ≠ '.')
  match body.dropWhile (· ≠ '.') with
  | [] => pure ()
  | _ :: zeros => if zeros.isEmpty || !zeros.all (· = '0') then .error .unreadableInteger
  if !whole.all (fun c => isPlainDigit c || c = '_') then .error .unreadableInteger
  match Numeral.digits? whole with
  | none => .error .unreadableInteger
  | some digits =>
    if Numeral.digitLimit < digits.length then .error .overlongInteger
    else
      let n : Int := positional digits
      return if negative then -n else n

def number (low high : Int) (raw : Raw) : Except Problem Int := do
  let n ← match raw with
    | .text t => integer? t
    | .number n => .ok n
    | .flag b => .ok (if b then 1 else 0)
    | .fraction => .error .fractional
    | .other => .error .notAnInteger
  match Limits.check low high n with
  | none => return n
  | some why => .error (.outOfRange why)

def onWords : List String := ["1", "on", "t", "true", "y", "yes"]
def offWords : List String := ["0", "off", "f", "false", "n", "no"]

def toggle : Raw → Except Problem Bool
  | .flag b => .ok b
  | .number n => if n = 1 then .ok true else if n = 0 then .ok false else .error .unreadableFlag
  | .text t =>
    let word := t.map Char.toLower
    if onWords.contains word then .ok true
    else if offWords.contains word then .ok false
    else .error .unreadableFlag
  | _ => .error .notAFlag

def encodingOf : Raw → Except Problem Encoding
  | .text t => (Encoding.ofName? t).elim (.error .encoding) .ok
  | _ => .error .encoding

def pathOf : Raw → Except Problem Path
  | .text t => .ok (Path.ofString t)
  | _ => .error .notAPath

def textOf : Raw → Except Problem String
  | .text t => .ok t
  | _ => .error .notText

def set (s : Settings) (raw : Raw) : Field → Except Problem Settings
  | .dataFolder => do return { s with dataFolder := ← pathOf raw }
  | .encoding => do return { s with encoding := ← encodingOf raw }
  | .nestingMax => do return { s with nestingMax := ← number 0 16 raw }
  | .matchesMax => do return { s with matchesMax := ← number 1 255 raw }
  | .logLevel => do return { s with logLevel := ← textOf raw }
  | .logJson => do return { s with logJson := ← toggle raw }
  | .stopOnError => do return { s with stopOnError := ← toggle raw }

def settle (given : Field → Option Raw) (done : Settings × List (Field × Problem)) (f : Field) :
    Settings × List (Field × Problem) :=
  match given f with
  | none => done
  | some raw =>
    match Settings.set done.1 raw f with
    | .ok s => (s, done.2)
    | .error p => (done.1, done.2 ++ [(f, p)])

def ofValues (given : Field → Option Raw) : Except (List (Field × Problem)) Settings :=
  let (settings, problems) := Field.all.foldl (settle given) ({}, [])
  if problems.isEmpty then .ok settings else .error problems

def render (problems : List (Field × Problem)) : String :=
  Problems.render Problems.configuration (problems.map fun (f, p) => f.name ++ ": " ++ p.message)

-- Variables are found in any letter case; of several spellings the last counts,
-- even if it has no value.
def valueIn? (f : Field) (assignments : List EnvFile.Binding) : Option String :=
  let wanted := "brogue_scanner_" ++ f.name
  (assignments.reverse.find? (·.1.map Char.toLower = wanted)).bind (·.2)

inductive Error where
  | problems (all : List (Field × Problem))
  | unreadable (e : Encoding.Fault)
  | unopened (r : Refusal)
  deriving DecidableEq, Repr

def file : Path := { parts := [".env"] }

-- A settings file that is missing or is a folder assigns nothing.
def fileAssignments (environment : List (String × String)) (tree : Node) :
    Except Error (List EnvFile.Binding) :=
  match tree.read file with
  | .error .denied => .error (.unopened .denied)
  | .error _ => .ok []
  | .ok content =>
    match Encoding.Utf8.decode true content with
    | .error e => .error (.unreadable e)
    | .ok (text, _) => .ok (EnvFile.read environment text)

def told (environment : List (String × String)) (assignments : List EnvFile.Binding) (f : Field) : Option String :=
  (valueIn? f (environment.map fun (name, value) => (name, some value))).or (valueIn? f assignments)

def given (overrides : List (String × Raw)) (environment : List (String × String))
    (assignments : List EnvFile.Binding) (f : Field) : Option Raw :=
  (overrides.lookup f.name).or ((told environment assignments f).map .text)

def load (overrides : List (String × Raw)) (environment : List (String × String)) (tree : Node) :
    Except Error Settings :=
  match fileAssignments environment tree with
  | .error e => .error e
  | .ok assignments =>
    match ofValues (given overrides environment assignments) with
    | .ok s => .ok s
    | .error ps => .error (.problems ps)

theorem fileAssignments_congr {tree other : Node} (same : other.read file = tree.read file)
    (environment : List (String × String)) : fileAssignments environment other = fileAssignments environment tree := by
  rw [fileAssignments, fileAssignments, same]

theorem load_congr {tree other : Node} (same : other.read file = tree.read file)
    (overrides : List (String × Raw)) (environment : List (String × String)) :
    load overrides environment other = load overrides environment tree := by
  rw [load, load, fileAssignments_congr same]

end Settings

end SeedSearch
