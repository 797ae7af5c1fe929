import SeedSearch.Fault

namespace SeedSearch

-- A tree of files. A folder that is not listable can still be passed through.
-- Names are Unicode text; other names that a disk may have are left out.
inductive Node where
  | file (content : List UInt8)
  -- a file that cannot be opened
  | barred
  | folder (listable : Bool) (entries : List (String × Node))

namespace Node

def empty : Node := folder true []

def isFolder : Node → Bool
  | folder .. => true
  | file _ | barred => false

def child? (name : String) (entries : List (String × Node)) : Option Node :=
  (entries.find? (·.1 = name)).map (·.2)

private def setChild (name : String) (node : Node) (entries : List (String × Node)) :
    List (String × Node) :=
  if entries.any (·.1 = name) then entries.map fun e => if e.1 = name then (name, node) else e
  else entries ++ [(name, node)]

def edit (change : Node → Node) : List String → Node → Node
  | [], node => change node
  | name :: rest, folder listable entries =>
    folder listable (setChild name (edit change rest ((child? name entries).getD empty)) entries)
  | _ :: _, node => node

def putFile (path : Path) (content : List UInt8) : Node → Node := edit (fun _ => file content) path.parts

def putFolder (path : Path) : Node → Node := edit id path.parts

def lock (path : Path) : Node → Node :=
  edit (fun
    | folder _ entries => folder false entries
    | node => node) path.parts

-- Where no folder is above, the way up may be an entry of its own.
def follow (above : List Node) (here : Node) : List String → Except Refusal Node
  | [] => .ok here
  | name :: rest =>
    match here with
    | file _ | barred => .error .notAFolder
    | folder _ entries =>
      match if name = ".." then above else [] with
      | up :: above => follow above up rest
      | [] =>
        match child? name entries with
        | none => .error .missing
        | some node => follow (if name = ".." then [] else here :: above) node rest

-- What is known of the world outside is an entry of the tree, named as what the
-- path starts at.
def resolve (tree : Node) (path : Path) : Except Refusal Node := tree.follow [] path.way

private theorem mem_of_child? {name : String} {entries : List (String × Node)} {node : Node}
    (found : child? name entries = some node) : (name, node) ∈ entries := by
  obtain ⟨entry, first, rfl⟩ := Option.map_eq_some_iff.mp found
  have named : entry.1 = name := by simpa using List.find?_some first
  exact named ▸ List.mem_of_find?_eq_some first

section Inward

variable {P : Node → Prop} (inward : ∀ listable entries, P (folder listable entries) → ∀ entry ∈ entries, P entry.2)
include inward

theorem follow_inward {way : List String} {above : List Node} {here node : Node}
    (upper : ∀ folder ∈ above, P folder) (start : P here) (followed : follow above here way = .ok node) :
    P node := by
  induction way generalizing above here with
  | nil =>
    cases followed
    exact start
  | cons name rest ih =>
    cases here with
    | file | barred => cases followed
    | folder listable entries =>
      simp only [follow] at followed
      split at followed
      next up more up_first =>
        have higher : ∀ folder ∈ up :: more, P folder := by
          split at up_first <;> simp_all
        exact ih (fun folder mem => higher folder (List.mem_cons_of_mem _ mem)) (higher up List.mem_cons_self) followed
      next =>
        cases entry : child? name entries with
        | none => simp [entry] at followed
        | some inner =>
          simp only [entry] at followed
          refine ih ?_ (inward _ _ start _ (mem_of_child? entry)) followed
          split
          · simp
          · simpa using ⟨start, upper⟩

theorem resolve_inward {tree node : Node} {path : Path} (start : P tree) (resolved : tree.resolve path = .ok node) :
    P node :=
  follow_inward inward (by simp) start resolved

end Inward

def read (tree : Node) (path : Path) : Except Refusal (List UInt8) :=
  match tree.resolve path with
  | .error r => .error r
  | .ok (folder ..) => .error .isAFolder
  | .ok barred => .error .denied
  | .ok (file content) => .ok content

end Node

end SeedSearch
