import SeedSearch.CommandLine.Arguments
import SeedSearch.Criterion.Compile
import SeedSearch.Discovery
import SeedSearch.Log.Logging
import SeedSearch.Search
import SeedSearch.Settings

namespace SeedSearch.CommandLine
open Log

inductive Chunk where
  | line (l : Line)
  | text (s : String)

inductive Escape where
  | tooLong (e : Text.Numeral.TooLong)
  | flawed (flaw : Json.Flaw)
  | settings (e : Encoding.Fault)
  | unopened (r : Refusal)
  | unfit (u : Unfit)

def Escape.message : Escape → String
  | tooLong e => e.message
  | flawed flaw => flaw.message
  | settings e => e.message
  | unopened r => r.message Settings.file
  | unfit u => u.message

structure Output where
  code : Nat
  out : String
  err : List Chunk

inductive Outcome where
  | exit (o : Output)
  | usage (e : UsageError)
  | help
  | escape (e : Escape)

namespace Run

def success : Nat := 0
def invalid : Nat := 1
def noFiles : Nat := 2
def fileErrors : Nat := 3

-- No logger of the program has a level of its own, so that nothing said before
-- counts.
def chunks (l : Logging) (notes : List Note) : List Chunk :=
  (notes.flatMap fun n =>
    ((l.say { logger := n.speaker, level := n.level, message := n.message }).2.toOption.getD []).map (·.2)).map .line

def complaint (message : String) : Chunk := .text ("Error: " ++ message ++ "\n")

def refuse (code : Nat) (err : List Chunk) (message : String) : Outcome :=
  .exit ⟨code, "", err ++ [complaint message]⟩

def search (a : Arguments) (s : Settings) (tree : Node) (limits : Limits) (criteria : List Criterion)
    (logging : Logging) (err : List Chunk) (paths : List Path) (encoding : Encoding) : Outcome :=
  let banner :=
    if a.json then ""
    else "\n" ++ Report.title ++ "\n\n" ++ Report.searchText limits criteria encoding a.verbosity ++ "\n\n"
  let (found, fault) :=
    Search.run (tree.rows encoding) (a.stopOnError || s.stopOnError)
      { query := .ofCriteria limits criteria } paths
  let err := err ++ chunks logging found.notes
  match fault with
  | some (.tooLong e) => .escape (.tooLong e)
  | some f => .exit ⟨fileErrors, banner, err ++ [complaint f.message]⟩
  | none =>
    let report := found.report
    let code := if report.errors.isEmpty then success else fileErrors
    if a.json then
      match report.json.pretty? with
      | .error flaw => .escape (.flawed flaw)
      | .ok text => .exit ⟨code, text ++ "\n", err⟩
    else
      let errors :=
        if report.errors.isEmpty then [] else [Chunk.text (Report.errorText report.errors ++ "\n")]
      .exit ⟨code, banner ++ Report.matchText a.verbosity report.found ++ "\n", err ++ errors⟩

-- `shuffle` is the order in which catalogs are gone through at random.
def proceed (tree : Node) (shuffle : List Path → List Path) (a : Arguments) (s : Settings)
    (logging : Logging) : Outcome :=
  match Limits.build { a.limits with matchesMax := a.limits.matchesMax.or (some s.matchesMax) } with
  | .error ps => refuse invalid [] (Limits.render ps)
  | .ok limits =>
    match Criterion.compile a.termsOf limits.depthMax with
    | .error (.tooLong e) => .escape (.tooLong e)
    | .error e => refuse invalid [] e.message
    | .ok criteria =>
      let err := chunks logging [.compiled criteria.length]
      if criteria.isEmpty then
        refuse invalid err "no search terms given; pass at least one object flag (see --help)"
      else
        let root := a.folder.getD s.dataFolder
        match Discovery.run tree root (a.encoding.getD s.encoding) (a.nesting.getD s.nestingMax).toNat with
        | .error p => refuse invalid err p.message
        | .ok d =>
          let err := err ++ chunks logging d.notes
          if d.paths.isEmpty then
            refuse noFiles err ("no seed catalog files found in " ++ root.text)
          else
            let paths := if a.random then shuffle d.paths else d.paths
            search a s tree limits criteria logging err paths d.encoding

-- Only what the settings are found to be at fault with is told; that their file
-- cannot be read and that the level of the log is none has no exit code.
def run (environment : List (String × String)) (tree : Node) (shuffle : List Path → List Path)
    (a : Arguments) : Outcome :=
  match Settings.load [] environment tree with
  | .error (.unreadable e) => .escape (.settings e)
  | .error (.unopened r) => .escape (.unopened r)
  | .error (.problems ps) => refuse invalid [] (Settings.render ps)
  | .ok s =>
    match ({} : Logging).configure (if a.debug then "DEBUG" else s.logLevel) s.logJson none [] with
    | (_, some u) => .escape (.unfit u)
    | (logging, none) => proceed tree shuffle a s logging

end Run

def execute (words : List String) (environment : List (String × String)) (tree : Node)
    (shuffle : List Path → List Path) : Outcome :=
  match Arguments.read words with
  | .error e => .usage e
  | .ok .help => .help
  | .ok (.run a) => Run.run environment tree shuffle a

end SeedSearch.CommandLine
