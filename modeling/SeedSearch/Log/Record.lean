import SeedSearch.Log.Value.Order
import SeedSearch.Log.Value.Spelling

namespace SeedSearch.Log

def levelName (level : Int) : String :=
  match level with
  | 0 => "NOTSET"
  | 10 => "DEBUG"
  | 20 => "INFO"
  | 30 => "WARNING"
  | 40 => "ERROR"
  | 50 => "CRITICAL"
  | n => s!"Level {n}"

structure Record where
  logger : String
  level : Int
  message : String
  -- where in the message the first half of a surrogate pair stands
  torn : Option Nat := none
  name : Value := .text logger
  title : Value := .text (levelName level)
  exception : Option String := none
  stack : Option String := none
  extras : List (String × Value) := []

namespace Record

def messageLimit : Nat := 2000
def fieldLimit : Nat := 500

private def cut (limit : Nat) (text : String) : String :=
  let chars := text.toList
  if limit < chars.length then String.ofList (chars.take limit) ++ "..." else text

def clip : Value → Value
  | .text s => .text (cut fieldLimit s)
  | v => v

def reserved : List String :=
  ["name", "msg", "args", "levelname", "levelno", "pathname", "filename", "module", "exc_info",
   "exc_text", "stack_info", "lineno", "funcName", "created", "msecs", "relativeCreated", "thread",
   "threadName", "processName", "process", "message", "asctime"]

structure Overwrite where
  name : String
  deriving DecidableEq, Repr

def Overwrite.message (o : Overwrite) : String :=
  Text.Quoted.quote s!"Attempt to overwrite {Text.Quoted.quote o.name} in LogRecord"

def overwrite? (r : Record) : Option Overwrite :=
  (r.extras.find? fun e => reserved.contains e.1).map fun e => ⟨e.1⟩

def written (name : String) : Bool := !reserved.contains name && name.toList.head? ≠ some '_'

def component? : Value → Option String
  | .text name =>
    let chars := name.toList
    if chars.contains '.' then
      some (String.ofList (chars.reverse.takeWhile (· ≠ '.')).reverse)
    else none
  | _ => none

private def put (members : List (String × Json)) (name : String) (value : Json) :
    List (String × Json) :=
  if members.any (·.1 = name) then members.map fun m => if m.1 = name then (name, value) else m
  else members ++ [(name, value)]

-- A message that is torn only behind what is shown of it is whole.
private def messageText (r : Record) : Json :=
  if r.torn.any (· < messageLimit) then .torn else .text (cut messageLimit r.message)

def members (r : Record) (stamp : String) : List (String × Json) :=
  let own : List (String × Json) :=
    [("timestamp", .text stamp), ("level", r.title.settle.json), ("message", r.messageText),
     ("logger", r.name.settle.json)] ++
      ((component? r.name).map fun c => ("component", Json.text c)).toList ++
      (r.exception.map fun e => ("exception", Json.text e)).toList
  (r.extras.filter fun e => written e.1).foldl
    (fun ms (name, v) => put ms name (clip v).settle.json) own

private theorem mem_put {members : List (String × Json)} {name : String} {value : Json}
    {m : String × Json} (member : m ∈ put members name value) : m ∈ members ∨ m = (name, value) := by
  rw [put] at member
  split at member
  · obtain ⟨old, inside, rfl⟩ := List.mem_map.mp member
    split
    · exact Or.inr rfl
    · exact Or.inl inside
  · rcases List.mem_append.mp member with inside | last
    · exact Or.inl inside
    · exact Or.inr (List.mem_singleton.mp last)

private theorem mem_foldl_put {extras : List (String × Value)} {members : List (String × Json)}
    {m : String × Json}
    (member : m ∈ extras.foldl (fun ms (name, v) => put ms name (clip v).settle.json) members) :
    m ∈ members ∨ ∃ e ∈ extras, m.2 = (clip e.2).settle.json := by
  induction extras generalizing members with
  | nil => exact Or.inl member
  | cons e rest ih =>
    rcases ih member with inside | ⟨other, later, value⟩
    · rcases mem_put inside with old | rfl
      · exact Or.inl old
      · exact Or.inr ⟨e, List.mem_cons_self, rfl⟩
    · exact Or.inr ⟨other, List.mem_cons_of_mem _ later, value⟩

theorem mem_members {r : Record} {stamp name title : String} {m : String × Json}
    (whole : r.torn = none) (named : r.name = .text name) (titled : r.title = .text title)
    (member : m ∈ r.members stamp) :
    (∃ s, m.2 = .text s) ∨ ∃ e ∈ r.extras, m.2 = (clip e.2).settle.json := by
  rcases mem_foldl_put member with own | ⟨e, written, value⟩
  · left
    simp only [messageText, whole, named, titled, Option.any_none, Value.settle, Value.json,
      List.mem_append, List.mem_cons, List.not_mem_nil, or_false, Option.mem_toList,
      Option.map_eq_some_iff] at own
    rcases own with ((rfl | rfl | rfl | rfl) | ⟨c, -, rfl⟩) | ⟨e, -, rfl⟩
    all_goals exact ⟨_, rfl⟩
  · exact Or.inr ⟨e, (List.mem_filter.mp written).1, value⟩

private def under (line : String) : Option String → String
  | none | some "" => line
  | some text => (if line.toList.getLast? = some '\n' then line else line ++ "\n") ++ text

def told (r : Record) (line : String) : String := under (under line r.exception) r.stack

def plain (r : Record) : String := r.told s!"{r.title.shown} [{r.name.shown}] {r.message}"

end Record

end SeedSearch.Log
