import SeedSearch.Category

namespace SeedSearch

inductive CountMode where
  | atLeast | lessThan | equalTo
  deriving DecidableEq, Repr

namespace CountMode

def sign : CountMode → String
  | atLeast => ""
  | lessThan => "<"
  | equalTo => "="

def label : CountMode → String
  | atLeast => "at least"
  | lessThan => "less than"
  | equalTo => "exactly"

def name : CountMode → String
  | atLeast => "at_least"
  | lessThan => "less_than"
  | equalTo => "equal_to"

def all : List CountMode := [atLeast, lessThan, equalTo]

end CountMode

inductive VaultRule where
  | anywhere | inside | outside
  deriving DecidableEq, Repr

namespace VaultRule

def name : VaultRule → String
  | anywhere => "any"
  | inside => "in_vault"
  | outside => "not_in_vault"

def token? : VaultRule → Option String
  | anywhere => none
  | inside => some "vault"
  | outside => some "novault"

def all : List VaultRule := [anywhere, inside, outside]

def accepts : VaultRule → Bool → Bool
  | anywhere, _ => true
  | inside, inVault => inVault
  | outside, inVault => !inVault

end VaultRule

inductive Polarity where
  | good | bad
  deriving DecidableEq, Repr

namespace Polarity

def name : Polarity → String
  | good => "good"
  | bad => "bad"

def label : Polarity → String
  | good => "benevolent"
  | bad => "malevolent"

def all : List Polarity := [good, bad]

end Polarity

structure Threshold where
  value : Int
  atMost : Bool := false
  deriving DecidableEq, Repr

namespace Threshold

def accepts (t : Threshold) (enchantment : Int) : Bool :=
  if t.atMost then enchantment ≤ t.value else t.value ≤ enchantment

def token (t : Threshold) : String :=
  if t.atMost then toString (-t.value) ++ "-" else "+" ++ toString t.value

def text (t : Threshold) : String :=
  (if t.atMost then "<= " else ">= ") ++ toString t.value

end Threshold

inductive Demand where
  | none
  | keyword
  | named (fragment : String)
  deriving DecidableEq, Repr

namespace Demand

def fragment? : Demand → Option String
  | named f => some f
  | _ => Option.none

def isKeyword : Demand → Bool
  | keyword => true
  | _ => false

-- The three slots whose keyword and names exclude each other.
inductive Slot where
  | runic | status | mutation
  deriving DecidableEq, Repr

def Slot.clash : Slot → String
  | .runic => "a named runic and 'any runic' are mutually exclusive"
  | .status => "a named status and 'legendary' are mutually exclusive"
  | .mutation => "a named mutation and 'any mutation' are mutually exclusive"

def ofParts (slot : Slot) : Option String → Bool → Except Slot Demand
  | Option.none, false => .ok none
  | Option.none, true => .ok keyword
  | some f, false => .ok (named f)
  | some _, true => .error slot

end Demand

structure Criterion where
  category : Category
  target : Int := 1
  mode : CountMode := .atLeast
  maxDepth : Int := 26
  kind : Option String := none
  enchantment : Option Threshold := none
  runic : Demand := .none
  vault : VaultRule := .anywhere
  magic : Option Polarity := none
  status : Demand := .none
  mutation : Demand := .none
  deriving DecidableEq, Repr

namespace Criterion

def mask (c : Criterion) : Mask := c.category.mask

def given (present : Bool) (text : String) : List String := if present then [text] else []

-- Every term fills a slot of its own, so the list reads back as one criterion.
def tokens (c : Criterion) : List String :=
  [c.mode.sign ++ toString c.target, "d" ++ toString c.maxDepth] ++
    (c.enchantment.map Threshold.token).toList ++
    given c.runic.isKeyword "runic" ++
    given c.status.isKeyword "legendary" ++
    c.status.fragment?.toList ++
    given c.mutation.isKeyword "mutation" ++
    c.kind.toList ++
    c.runic.fragment?.toList ++
    c.mutation.fragment?.toList ++
    c.vault.token?.toList ++
    (c.magic.map Polarity.name).toList

def phrases (c : Criterion) : List String :=
  [c.mode.label ++ " " ++ toString c.target, c.category.name] ++
    (c.kind.map fun k => "'" ++ k ++ "'").toList ++
    (c.enchantment.map fun t => "enchantment " ++ t.text).toList ++
    (match c.runic with
      | .none => []
      | .keyword => ["with any runic"]
      | .named f => ["of '" ++ f ++ "'"]) ++
    (match c.status with
      | .none => []
      | .keyword => ["legendary"]
      | .named f => [f]) ++
    (match c.mutation with
      | .none => []
      | .keyword => ["with any mutation"]
      | .named f => ["<" ++ f ++ ">"]) ++
    (match c.vault with
      | .anywhere => []
      | .inside => ["in a vault"]
      | .outside => ["outside vaults"]) ++
    (c.magic.map Polarity.label).toList ++
    ["by depth " ++ toString c.maxDepth]

def describe (c : Criterion) : String := " ".intercalate c.phrases

end Criterion

inductive Outcome where
  | increment | doNothing | earlyExit
  deriving DecidableEq, Repr

namespace Outcome

def name : Outcome → String
  | increment => "increment"
  | doNothing => "do_nothing"
  | earlyExit => "early_exit"

def all : List Outcome := [increment, doNothing, earlyExit]

def abandons (o : Outcome) : Bool := o = earlyExit

end Outcome

structure Tally where
  criterion : Criterion
  count : Int := 0
  deriving DecidableEq, Repr

namespace Tally

def satisfied (t : Tally) : Bool :=
  match t.criterion.mode with
  | .atLeast => t.criterion.target ≤ t.count
  | .lessThan => t.count < t.criterion.target
  | .equalTo => t.count = t.criterion.target

-- Quantities are never taken back, so a count past an upper bound is final.
def outcome (t : Tally) : Outcome :=
  match t.criterion.mode with
  | .atLeast => if t.count ≤ t.criterion.target then .increment else .doNothing
  | .lessThan => if t.count < t.criterion.target then .increment else .earlyExit
  | .equalTo => if t.count ≤ t.criterion.target then .increment else .earlyExit

def add (t : Tally) (quantity : Int) : Tally := { t with count := t.count + quantity }

def reset (t : Tally) : Tally := { t with count := 0 }

theorem not_satisfied_of_outcome {t : Tally} (h : t.outcome = .earlyExit) : t.satisfied = false := by
  have past : (t.criterion.mode = .lessThan ∧ ¬ t.count < t.criterion.target) ∨
      (t.criterion.mode = .equalTo ∧ ¬ t.count ≤ t.criterion.target) := by
    unfold outcome at h
    split at h <;> split at h <;> simp_all
  rcases past with ⟨mode, past⟩ | ⟨mode, past⟩ <;> simp [satisfied, mode] <;> omega

end Tally

end SeedSearch
