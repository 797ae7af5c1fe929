import SeedSearch.Criterion
import SeedSearch.Text.Numeral
import SeedSearch.Vocabulary

namespace SeedSearch

inductive Slot where
  | count | depth | enchantment | kind | runic | vault | magic | status | mutation
  deriving DecidableEq, Repr

namespace Slot

def name : Slot → String
  | count => "count"
  | depth => "depth"
  | enchantment => "enchantment"
  | kind => "kind"
  | runic => "runic"
  | vault => "vault"
  | magic => "magic"
  | status => "status"
  | mutation => "mutation"

end Slot

inductive Term where
  | count (mode : CountMode) (target : Nat)
  | depth (limit : Nat)
  | enchantment (threshold : Threshold)
  | kind (fragment : String)
  | anyRunic
  | runic (fragment : String)
  | vault (inside : Bool)
  | magic (polarity : Polarity)
  | legendary
  | status (name : String)
  | anyMutation
  | mutation (fragment : String)
  deriving DecidableEq, Repr

namespace Term

def slot : Term → Slot
  | count .. => .count
  | depth _ => .depth
  | enchantment _ => .enchantment
  | kind _ => .kind
  | anyRunic | runic _ => .runic
  | vault _ => .vault
  | magic _ => .magic
  | legendary | status _ => .status
  | anyMutation | mutation _ => .mutation

def rule (inside : Bool) : VaultRule := if inside then .inside else .outside

def apply (c : Criterion) : Term → Criterion
  | count mode target => { c with mode, target }
  | depth limit => { c with maxDepth := limit }
  | enchantment threshold => { c with enchantment := some threshold }
  | kind fragment => { c with kind := some fragment }
  | anyRunic => { c with runic := .keyword }
  | runic fragment => { c with runic := .named fragment }
  | vault inside => { c with vault := rule inside }
  | magic polarity => { c with magic := some polarity }
  | legendary => { c with status := .keyword }
  | status name => { c with status := .named name }
  | anyMutation => { c with mutation := .keyword }
  | mutation fragment => { c with mutation := .named fragment }

end Term

inductive Trial where
  | signedEnchantment | positiveEnchantment
  | count | depth
  | anyRunic | runic | kind | vault | magic
  | legendary | status | anyMutation | mutation
  deriving DecidableEq, Repr

namespace Trial
open Text Numeral

def countLimit : Nat := 0xffffffff
def depthLimit : Nat := 26

-- A numeral past the digit limit stops the reading, whatever its value.
def readNumber (check : Nat → Option Term) (digits : List Char) : Except TooLong (Option Term) :=
  (natural? digits).map (·.bind check)

def readCount (mode : CountMode) : List Char → Except TooLong (Option Term) :=
  readNumber fun n => if n ≤ countLimit then some (.count mode n) else none

def readDepth : List Char → Except TooLong (Option Term) :=
  readNumber fun n => if 1 ≤ n && n ≤ depthLimit then some (.depth n) else none

def readAtLeast : List Char → Except TooLong (Option Term) :=
  readNumber fun n => if n ≤ 127 then some (.enchantment ⟨n, false⟩) else none

def readAtMost (text : List Char) : Except TooLong (Option Term) :=
  if text.getLast? = some '-' then
    readNumber (fun n => if n ≤ 128 then some (.enchantment ⟨-(n : Int), true⟩) else none) text.dropLast
  else .ok none

def word (expected : String) (term : Term) (token : String) : Option Term :=
  if token = expected then some term else none

def read (t : Trial) (category : Category) (token : String) : Except TooLong (Option Term) :=
  match t with
  | count =>
    match token.toList with
    | '<' :: digits => readCount .lessThan digits
    | '=' :: digits => readCount .equalTo digits
    | digits => readCount .atLeast digits
  | depth =>
    match token.toList with
    | 'd' :: digits => readDepth digits
    | _ => .ok none
  | positiveEnchantment =>
    match token.toList with
    | '+' :: digits => readAtLeast digits
    | _ => .ok none
  | signedEnchantment =>
    match token.toList with
    | '+' :: digits => readAtLeast digits
    | text => readAtMost text
  | anyRunic => .ok (word "runic" .anyRunic token)
  | legendary => .ok (word "legendary" .legendary token)
  | anyMutation => .ok (word "mutation" .anyMutation token)
  | vault =>
    .ok ((word "vault" (.vault true) token).or (word "novault" (.vault false) token))
  | magic => .ok ((Polarity.all.find? (·.name = token)).map .magic)
  | status => .ok ((Vocabulary.lookup? Vocabulary.allyStatuses token).map .status)
  | kind => .ok (if Vocabulary.isKindFragment category token then some (.kind token) else none)
  | runic => .ok (if Vocabulary.isRunicFragment category token then some (.runic token) else none)
  | mutation => .ok (if Vocabulary.isMutationFragment token then some (.mutation token) else none)

def first (category : Category) (token : String) : List Trial → Except TooLong (Option Term)
  | [] => .ok none
  | t :: rest => do
    match ← t.read category token with
    | some term => return some term
    | none => first category token rest

def gear : List Trial := [signedEnchantment, count, depth, anyRunic, kind, runic, vault, magic]
def charged : List Trial := [positiveEnchantment, count, depth, kind, vault, magic]
def consumable : List Trial := [count, depth, kind, vault, magic]
def group : List Trial := [signedEnchantment, count, depth, anyRunic, vault, magic]

-- What each category understands, in order of priority.
def grammar : Category → List Trial
  | .ally => [count, depth, legendary, status, anyMutation, kind, mutation]
  | .altar | .food | .key => [count, depth, kind]
  | .gold => [count, depth]
  | .armor | .weapon => gear
  | .charm | .staff | .wand => charged
  | .ring => [signedEnchantment, count, depth, kind, vault, magic]
  | .potion | .scroll => consumable
  | .item | .equipment => group

end Trial

def Term.read (category : Category) (token : String) : Except Text.Numeral.TooLong (Option Term) :=
  Trial.first category token (Trial.grammar category)

end SeedSearch
