import SeedSearch.CommandLine.Word
import SeedSearch.Encoding
import SeedSearch.Limits
import SeedSearch.Path
import SeedSearch.Text.Numeral
import SeedSearch.Text.Quoted

namespace SeedSearch.CommandLine
open Text

structure Arguments where
  debug : Bool := false
  folder : Option Path := none
  nesting : Option Int := none
  limits : Limits.Given := {}
  random : Bool := false
  encoding : Option Encoding := none
  verbosity : Int := 3
  json : Bool := false
  stopOnError : Bool := false
  terms : List (Category × List String) := []
  deriving DecidableEq, Repr

inductive Request where
  | run (a : Arguments)
  | help
  deriving DecidableEq, Repr

namespace Arguments

def termsOf (a : Arguments) (c : Category) : List (List String) :=
  (a.terms.filter (·.1 = c)).map (·.2)

private def bounded (o : Opt) (low high : Int) (word : String) : Except UsageError Int :=
  match Numeral.integer? word with
  | none => .error (.option o s!"'{word}' is not an integer")
  | some n =>
    if low ≤ n && n ≤ high then .ok n else .error (.option o s!"{n} is outside {low}..{high}")

private def verbosityOf (o : Opt) (word : String) : Except UsageError Int :=
  match Numeral.integer? word with
  | none => .error (.option o ("invalid int value: " ++ Quoted.quote word))
  | some n =>
    if 1 ≤ n && n ≤ 3 then .ok n
    else .error (.option o s!"invalid choice: {n} (choose from 1, 2, 3)")

private def encode (a : Arguments) (o : Opt) (e : Encoding) : Except UsageError Arguments :=
  if a.encoding = some e.other then
    let taken := match e with
      | .utf8 => Opt.utf16
      | .utf16 => Opt.utf8
    .error (.option o ("not allowed with argument " ++ taken.title))
  else .ok { a with encoding := some e }

private def lacking (o : Opt) : UsageError :=
  .option o (if o.takes = .many then "expected at least one argument" else "expected one argument")

private def withLimits (a : Arguments) (change : Limits.Given → Limits.Given) : Arguments :=
  { a with limits := change a.limits }

-- The last value of a repeated option counts; the occurrences of terms add up.
def take (a : Arguments) (o : Opt) (words : List String) : Except UsageError Arguments :=
  match o, words with
  | .help, _ => .ok a
  | .debug, _ => .ok { a with debug := true }
  | .random, _ => .ok { a with random := true }
  | .json, _ => .ok { a with json := true }
  | .stopOnError, _ => .ok { a with stopOnError := true }
  | .utf8, _ => a.encode o .utf8
  | .utf16, _ => a.encode o .utf16
  | o, [] => .error (lacking o)
  | .terms c, words => .ok { a with terms := a.terms ++ [(c, words)] }
  | .folder, word :: _ => .ok { a with folder := some (Path.ofString word) }
  | .nesting, word :: _ => do return { a with nesting := some (← bounded o 0 16 word) }
  | .verbosity, word :: _ => do return { a with verbosity := ← verbosityOf o word }
  | .depthMin, word :: _ => do
    let n ← bounded o 1 26 word
    return a.withLimits fun l => { l with depthMin := some n }
  | .depthMax, word :: _ => do
    let n ← bounded o 1 26 word
    return a.withLimits fun l => { l with depthMax := some n }
  | .seedMin, word :: _ => do
    let n ← bounded o 1 0xffffffff word
    return a.withLimits fun l => { l with seedMin := some n }
  | .seedMax, word :: _ => do
    let n ← bounded o 1 0xffffffff word
    return a.withLimits fun l => { l with seedMax := some n }
  | .matchesMax, word :: _ => do
    let n ← bounded o 1 255 word
    return a.withLimits fun l => { l with matchesMax := some n }

structure Cluster where
  done : List (Opt × List String) := []
  waiting : Option Opt := none
  extra : Option String := none
  deriving DecidableEq, Repr

private def ignored (o : Opt) (value : List Char) : UsageError :=
  .option o ("ignored explicit argument " ++ Quoted.quote (String.ofList value))

-- Options that take nothing may be run together behind one minus sign, and the
-- last option takes what is left of the word.
def cluster (o : Opt) : List Char → Except UsageError Cluster
  | [] => .ok { waiting := some o }
  | '=' :: value =>
    if o.takes = .nothing then .error (ignored o value) else .ok { done := [(o, [String.ofList value])] }
  | c :: rest =>
    if o.takes ≠ .nothing then .ok { done := [(o, [String.ofList (c :: rest)])] }
    else if c = '-' then .error (ignored o (c :: rest))
    else match Opt.ofSpelling? (String.ofList ['-', c]) with
      | none => .ok { done := [(o, [])], extra := some (String.ofList ('-' :: c :: rest)) }
      | some p => do
        let more ← cluster p rest
        return { more with done := (o, []) :: more.done }

def own (o : Opt) (behind : List (String × Word)) :
    Except UsageError (List String × List (String × Word)) :=
  match o.takes with
  | .nothing => .ok ([], behind)
  | .one =>
    match behind with
    | (word, .value) :: rest => .ok ([word], rest)
    | _ => .error (lacking o)
  | .many =>
    let words := behind.takeWhile (·.2 = .value)
    if words.isEmpty then .error (lacking o)
    else .ok (words.map (·.1), behind.drop words.length)

def takeAll (a : Arguments) : List (Opt × List String) → Except UsageError (Option Arguments)
  | [] => .ok (some a)
  | (.help, _) :: _ => .ok none
  | (o, words) :: rest => do takeAll (← a.take o words) rest

-- Words that belong to no option are only complained of at the end.
def readFrom : Nat → Arguments → List String → List (String × Word) → Except UsageError Request
  | 0, a, _, _ => .ok (.run a)
  | _, a, extras, [] =>
    if extras.isEmpty then .ok (.run a) else .error (.unrecognized extras)
  | fuel+1, a, extras, (_, .option o tail) :: rest => do
    let word ← cluster o tail
    let (done, rest) ← match word.waiting with
      | none => pure (word.done, rest)
      | some p => do
        let (words, rest) ← own p rest
        pure (word.done ++ [(p, words)], rest)
    let extras := extras ++ word.extra.toList
    match ← a.takeAll done with
    | none => return .help
    | some a => readFrom fuel a extras rest
  | fuel+1, a, extras, (word, _) :: rest => readFrom fuel a (extras ++ [word]) rest

def read (words : List String) : Except UsageError Request := do
  let words ← Word.readAll words
  readFrom (words.length+1) {} [] words

end Arguments

end SeedSearch.CommandLine
