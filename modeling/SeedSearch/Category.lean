import SeedSearch.Text.Quoted

namespace SeedSearch

-- The last two name groups of the others and occur only in searches.
inductive Category where
  | ally | altar | armor | charm | food | gold | key | potion | ring | scroll | staff | wand | weapon
  | item | equipment
  deriving DecidableEq, Repr

abbrev Mask := BitVec 16

namespace Mask

def intersects (a b : Mask) : Bool := a &&& b != 0

def ofBits? (n : Int) : Option Mask :=
  if 0 ≤ n && n ≤ 0xffff then some (BitVec.ofInt 16 n) else none

def outOfRange (n : Int) : String :=
  "category mask out of range: " ++ (if n < 0 then "-0x" else "0x") ++
    String.ofList (Nat.toDigits 16 n.natAbs)

end Mask

namespace Category

def name : Category → String
  | ally => "ally"
  | altar => "altar"
  | armor => "armor"
  | charm => "charm"
  | food => "food"
  | gold => "gold"
  | key => "key"
  | potion => "potion"
  | ring => "ring"
  | scroll => "scroll"
  | staff => "staff"
  | wand => "wand"
  | weapon => "weapon"
  | item => "item"
  | equipment => "equipment"

def concrete : List Category :=
  [ally, altar, armor, charm, food, gold, key, potion, ring, scroll, staff, wand, weapon]

-- Concrete categories come first in a search, so that a group only gets the
-- rows that no narrower criterion takes.
def searchOrder : List Category := concrete ++ [equipment, item]

def isMeta (c : Category) : Bool := c = item || c = equipment

def covers : Category → List Category
  | item => [armor, charm, potion, ring, scroll, staff, wand, weapon]
  | equipment => [armor, ring, weapon]
  | c => [c]

def bit (c : Category) : Mask := 1#16 <<< concrete.idxOf c

def mask (c : Category) : Mask := (c.covers.map bit).foldl (· ||| ·) 0

def members (c : Category) : List Category := concrete.filter fun m => c.mask.intersects m.mask

def hasEnchantment (c : Category) : Bool := [armor, charm, ring, staff, wand, weapon].contains c

def hasRunic (c : Category) : Bool := [armor, weapon].contains c

def signedPolarity (c : Category) : Bool := [armor, charm, ring, weapon].contains c

def kindPolarity (c : Category) : Bool := [potion, scroll, staff, wand].contains c

def ofName? (text : String) : Option Category := searchOrder.find? (·.name = text)

inductive NameError where
  | unknown (text : String)
  | notConcrete (text : String)
  deriving DecidableEq, Repr

def NameError.message : NameError → String
  | unknown text => Text.Quoted.quote text ++ " is not a valid Category"
  | notConcrete text => "'" ++ text ++ "' is not a concrete category"

def read (text : String) : Except NameError Category :=
  match ofName? text with
  | none => .error (.unknown text)
  | some c => if c.isMeta then .error (.notConcrete text) else .ok c

theorem ofName?_name (c : Category) : ofName? c.name = some c := by cases c <;> decide

theorem mem_searchOrder (c : Category) : c ∈ searchOrder := by cases c <;> decide

end Category

end SeedSearch
