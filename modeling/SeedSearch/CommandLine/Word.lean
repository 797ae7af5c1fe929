import SeedSearch.CommandLine.Options
import SeedSearch.Text.Digits

namespace SeedSearch.CommandLine

inductive UsageError where
  | ambiguous (word : String) (candidates : List String)
  | unrecognized (words : List String)
  | option (o : Opt) (why : String)
  deriving DecidableEq, Repr

def UsageError.message : UsageError → String
  | ambiguous word candidates =>
    s!"ambiguous option: {word} could match " ++ ", ".intercalate candidates
  | unrecognized words => "unrecognized arguments: " ++ " ".intercalate words
  | option o why => s!"argument {o.title}: {why}"

inductive Word where
  | option (o : Opt) (tail : List Char)
  | unknown
  | mark
  | value
  deriving DecidableEq, Repr

namespace Word
open Text

-- A line break behind the last digit is passed over.
private def isNegativeNumber (text : List Char) : Bool :=
  let digit (c : Char) : Bool := (digitValue? c).isSome
  let whole (body : List Char) : Bool :=
    match body.dropWhile digit with
    | [] => !body.isEmpty
    | '.' :: rest => !rest.isEmpty && rest.all digit
    | _ => false
  match text with
  | '-' :: body => whole body || (body.getLast? = some '\n' && whole body.dropLast)
  | _ => false

private def candidates (text : List Char) : List (String × Opt × List Char) :=
  match text with
  | '-' :: '-' :: _ =>
    let name := text.takeWhile (· ≠ '=')
    (Opt.table.filter fun (s, _) => name.isPrefixOf s.toList).map fun (s, o) => (s, o, text.drop name.length)
  | _ =>
    let short := String.ofList (text.take 2)
    Opt.table.filterMap fun (s, o) =>
      if s = short then some (s, o, text.drop 2)
      else if text.isPrefixOf s.toList then some (s, o, [])
      else none

def read (word : String) : Except UsageError Word :=
  let text := word.toList
  if text.head? ≠ some '-' then .ok value
  else match Opt.ofSpelling? word with
    | some o => .ok (option o [])
    | none =>
      if text.length = 1 then .ok value
      else
        let name := text.takeWhile (· ≠ '=')
        match Opt.ofSpelling? (String.ofList name) with
        | some o => .ok (option o (text.drop name.length))
        | none =>
          match candidates text with
          | [] => .ok (if isNegativeNumber text || text.contains ' ' then value else unknown)
          | [(_, o, tail)] => .ok (option o tail)
          | many => .error (.ambiguous word (many.map (·.1)))

def readAll : List String → Except UsageError (List (String × Word))
  | [] => .ok []
  | word :: rest =>
    if word = "--" then .ok ((word, mark) :: rest.map (·, value))
    else do return (word, ← read word) :: (← readAll rest)

end Word

end SeedSearch.CommandLine
