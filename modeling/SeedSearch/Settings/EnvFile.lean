import SeedSearch.Text.Blank

namespace SeedSearch.EnvFile
open Text

-- Files of NAME=value lines. A line that cannot be read is passed over, and a
-- name without an equal sign has no value.
abbrev Binding := String × Option String

private def sameLine (c : Char) : Bool := isBlank c && c ≠ '\n'

private def skip (text : List Char) : List Char := text.dropWhile sameLine

-- In single quotes only the quote and the backslash can be escaped.
private def unescape? (mark c : Char) : Option Char :=
  if c = '\\' || c = '\'' then some c
  else if mark = '\'' then none
  else match c with
    | '"' => some '"'
    | 'a' => some '\x07'
    | 'b' => some '\x08'
    | 'f' => some '\x0c'
    | 'n' => some '\n'
    | 'r' => some '\r'
    | 't' => some '\t'
    | 'v' => some '\x0b'
    | _ => none

private def unescape (mark : Char) : List Char → List Char
  | '\\' :: c :: rest =>
    match unescape? mark c with
    | some d => d :: unescape mark rest
    | none => '\\' :: unescape mark (c :: rest)
  | c :: rest => c :: unescape mark rest
  | [] => []

-- A mark behind a backslash does not close, unless no other one does.
private def untilMark (mark : Char) (done : List Char) (last : Option (List Char × List Char)) :
    List Char → Option (List Char × List Char)
  | [] => last
  | '\\' :: c :: rest =>
    if c = mark then untilMark mark (c :: '\\' :: done) (some ('\\' :: done, rest)) rest
    else untilMark mark ('\\' :: done) last (c :: rest)
  | c :: rest => if c = mark then some (done, rest) else untilMark mark (c :: done) last rest

private def quoted? (mark : Char) (text : List Char) : Option (List Char × List Char) :=
  (untilMark mark [] none text).map fun (inside, rest) => (inside.reverse, rest)

-- A comment behind a bare value starts with white space.
private def cutComment : List Char → List Char
  | [] => []
  | c :: rest =>
    if isBlank c && ((c :: rest).dropWhile isBlank).head? = some '#' then []
    else c :: cutComment rest

private def bare (text : List Char) : List Char × List Char :=
  let line := text.takeWhile (· ≠ '\n')
  (((cutComment line).reverse.dropWhile isBlank).reverse, text.dropWhile (· ≠ '\n'))

private def value? : List Char → Option (List Char × List Char)
  | '\'' :: rest => (quoted? '\'' rest).map fun (v, rest) => (unescape '\'' v, rest)
  | '"' :: rest => (quoted? '"' rest).map fun (v, rest) => (unescape '"' v, rest)
  | text => some (bare text)

private def key? : List Char → Option (Option (List Char) × List Char)
  | '#' :: rest => some (none, '#' :: rest)
  | '\'' :: rest =>
    let key := rest.takeWhile (· ≠ '\'')
    match rest.dropWhile (· ≠ '\'') with
    | _ :: rest => if key.isEmpty then none else some (some key, rest)
    | [] => none
  | text =>
    let plain (c : Char) : Bool := c ≠ '=' && c ≠ '#' && !isBlank c
    let key := text.takeWhile plain
    if key.isEmpty then none else some (some key, text.dropWhile plain)

private def dropExport (text : List Char) : List Char :=
  let word := "export".toList
  let rest := text.drop word.length
  if word.isPrefixOf text && skip rest ≠ rest then skip rest else text

-- A step that fails says where it stood; the rest of that line is given up.
private abbrev Step := Except (List Char)

private def orAt (text : List Char) : Option α → Step α
  | some a => .ok a
  | none => .error text

private def lineEnd (text : List Char) : Step (List Char) :=
  let text := match skip text with
    | '#' :: rest => rest.dropWhile (· ≠ '\n')
    | _ => text
  match skip text with
  | [] => .ok []
  | '\n' :: rest => .ok rest
  | _ => .error text

private def line (text : List Char) : Step (Option Binding × List Char) := do
  let text := dropExport text
  let (key, rest) ← orAt text (key? text)
  match skip rest with
  | '=' :: rest =>
    let rest := skip rest
    let (value, rest) ← orAt rest (value? rest)
    return (key.map fun k => (String.ofList k, some (String.ofList value)), ← lineEnd rest)
  | rest => return (key.map fun k => (String.ofList k, none), ← lineEnd rest)

private def bindingsFrom : Nat → List Char → List Binding
  | 0, _ => []
  | fuel+1, text =>
    match text.dropWhile isBlank with
    | [] => []
    | text =>
      match line text with
      | .ok (some binding, rest) => binding :: bindingsFrom fuel rest
      | .ok (none, rest) => bindingsFrom fuel rest
      | .error rest => bindingsFrom fuel ((rest.dropWhile (· ≠ '\n')).drop 1)

-- Every line takes at least one character, so the length bounds the lines.
def bindings (text : List Char) : List Binding := bindingsFrom (text.length+1) text

def unify : List Char → List Char
  | '\r' :: '\n' :: rest => '\n' :: unify rest
  | '\r' :: rest => '\n' :: unify rest
  | c :: rest => c :: unify rest
  | [] => []

private def reference? (text : List Char) : Option (String × String × List Char) :=
  let inName (c : Char) : Bool := c ≠ '\x7d' && c ≠ ':'
  let name := String.ofList (text.takeWhile inName)
  match text.dropWhile inName with
  | ':' :: '-' :: rest =>
    let fallback := rest.takeWhile (· ≠ '\x7d')
    match rest.dropWhile (· ≠ '\x7d') with
    | _ :: rest => some (name, String.ofList fallback, rest)
    | [] => none
  | '\x7d' :: rest => some (name, "", rest)
  | _ => none

private def expandFrom (lookup : String → Option String) : Nat → List Char → List Char
  | 0, text => text
  | _, [] => []
  | fuel+1, '$' :: '\x7b' :: rest =>
    match reference? rest with
    | some (name, fallback, rest) =>
      ((lookup name).getD fallback).toList ++ expandFrom lookup fuel rest
    | none => '$' :: expandFrom lookup fuel ('\x7b' :: rest)
  | fuel+1, c :: rest => c :: expandFrom lookup fuel rest

-- References see the bindings before them first and then the environment.
def expand (environment : List (String × String)) : List Binding → List Binding → List Binding
  | done, [] => done
  | done, (name, value) :: rest =>
    let lookup (n : String) : Option String :=
      match done.reverse.find? (·.1 = n) with
      | some (_, value) => some (value.getD "")
      | none => environment.lookup n
    let value := value.map fun v =>
      String.ofList (expandFrom lookup (v.length+1) v.toList)
    expand environment (done ++ [(name, value)]) rest

def read (environment : List (String × String)) (text : List Char) : List Binding :=
  expand environment [] (bindings (unify text))

end SeedSearch.EnvFile
