import SeedSearch.Catalog.Row
import SeedSearch.Json
import SeedSearch.Vocabulary

namespace SeedSearch

inductive Form where
  | plain
  | gear (enchantment : Int) (runic : Option String)
  | charm (enchantment : Int)
  | ring (enchantment : Int)
  | staff (enchantment : Int)
  | wand (enchantment : Int)
  | consumable
  | gold (amount piles : Int)
  | key (opensVault : Option Int)
  | ally (status : String) (mutation : Option String)
  deriving DecidableEq, Repr

structure Object where
  category : Category
  kind : String
  form : Form
  deriving DecidableEq, Repr

namespace Object

private def signed (n : Int) : String := (if 0 ≤ n then "+" else "") ++ toString n

private def named? (name : Option String) : Option String := name.filter (· ≠ "")

def isLegendary (status : String) : Bool := status = Vocabulary.legendaryStatus

def text (o : Object) : String :=
  match o.form with
  | .plain | .key _ => "A " ++ o.kind
  | .gear e runic =>
    s!"A {signed e} {o.kind}" ++ ((named? runic).map (" of " ++ ·)).getD ""
  | .charm e => s!"A {signed e} {o.kind} charm"
  | .ring e => "A " ++ (if 0 < e then "+" else "") ++ s!"{e} ring of {o.kind}"
  | .staff e => s!"A staff of {o.kind} [{e}/{e}]"
  | .wand e => s!"A wand of {o.kind} [{e}]"
  | .consumable => s!"A {o.category.name} of {o.kind}"
  | .gold amount piles => s!"{amount} gold pieces ({piles} piles)"
  | .ally status mutation =>
    "A " ++ (if isLegendary status then "legendary" else status) ++ " " ++ o.kind ++
      ((named? mutation).map fun m => " <" ++ m ++ ">").getD ""

def Form.members : Form → List (String × Json)
  | .plain | .consumable => []
  | .gear e runic => [("enchantment", .int e), ("runic", .opt .text runic)]
  | .charm e | .ring e | .staff e | .wand e => [("enchantment", .int e)]
  | .gold amount piles => [("amount", .int amount), ("piles", .int piles)]
  | .key opens => [("opens_vault", .opt .int opens)]
  | .ally status mutation => [("status", .text status), ("mutation", .opt .text mutation)]

def json (o : Object) : Json :=
  .table ([("category", .text o.category.name), ("kind", .text o.kind)] ++ Form.members o.form ++
    [("name", .text o.text)])

end Object

namespace Catalog.Row
open Vocabulary Text

inductive Unknown where
  | malformed (reason : Malformed)
  | tooLong (e : Numeral.TooLong)
  deriving DecidableEq, Repr

def require (names : List String) (text : String) (otherwise : Malformed) :
    Except Unknown String :=
  match lookup? names text with
  | some name => .ok name
  | none => .error (.malformed otherwise)

def requireOpt (names : List String) (text : String) (otherwise : Malformed) :
    Except Unknown (Option String) :=
  if text = "" then .ok none else some <$> require names text otherwise

def knownKind (r : Row) : Except Unknown String :=
  require (kinds r.category) r.kind (.unknownKind r.category r.kind)

def knownEnchantment (r : Row) : Except Unknown Int :=
  match r.enchantment with
  | some e => .ok e
  | none => .error (.malformed (.noEnchantment r.category))

def after? (part text : List Char) : Option (List Char) :=
  if part.isPrefixOf text then some (text.drop part.length) else none

-- Gold comes in one pile or says in how many: `gold pieces (3 piles)`. One line
-- break behind the kind is passed over.
def piles? (kind : String) : Except Numeral.TooLong (Option Nat) :=
  let text := kind.toList
  let text := if text.getLast? = some '\n' then text.dropLast else text
  match after? "gold pieces".toList text with
  | none => .ok none
  | some [] => .ok (some 1)
  | some rest =>
    match after? " (".toList rest with
    | none => .ok none
    | some rest =>
      let tail := rest.dropWhile isPlainDigit
      if tail = " pile)".toList || tail = " piles)".toList then
        Numeral.natural? (rest.takeWhile isPlainDigit)
      else .ok none

def gold (r : Row) : Except Unknown Object :=
  match piles? r.kind with
  | .error e => .error (.tooLong e)
  | .ok none => .error (.malformed (.unknownKind r.category r.kind))
  | .ok (some n) => .ok ⟨r.category, r.kind, .gold r.quantity n⟩

def describe (r : Row) : Except Unknown Object :=
  match r.category with
  | .armor | .weapon => do
    let runic ← requireOpt (runics r.category) r.runic (.unknownRunic r.category r.runic)
    let kind ← r.knownKind
    return ⟨r.category, kind, .gear (← r.knownEnchantment) runic⟩
  | .charm => do return ⟨r.category, ← r.knownKind, .charm (← r.knownEnchantment)⟩
  | .ring => do return ⟨r.category, ← r.knownKind, .ring (← r.knownEnchantment)⟩
  | .staff => do return ⟨r.category, ← r.knownKind, .staff (← r.knownEnchantment)⟩
  | .wand => do return ⟨r.category, ← r.knownKind, .wand (← r.knownEnchantment)⟩
  | .potion | .scroll => do return ⟨r.category, ← r.knownKind, .consumable⟩
  | .gold => gold r
  | .key => do return ⟨r.category, ← r.knownKind, .key r.opensVault⟩
  | .ally => do
    let mutation ← requireOpt mutations r.mutation (.unknownMutation r.mutation)
    let status ← require allyStatuses r.allyStatus (.unknownStatus r.allyStatus)
    return ⟨r.category, ← r.knownKind, .ally status mutation⟩
  | .altar | .food | .item | .equipment => do return ⟨r.category, ← r.knownKind, .plain⟩

def object (r : Row) : Except Fault Object :=
  match r.describe with
  | .ok o => .ok o
  | .error (.malformed reason) => .error (.format { reason, place := { line := r.line } })
  | .error (.tooLong e) => .error (.tooLong e)

end Catalog.Row

end SeedSearch
