import SeedSearch.Encoding
import SeedSearch.Folder
import SeedSearch.Note
import SeedSearch.Problems

namespace SeedSearch

namespace Node

structure Found where
  files : List (Path × List UInt8) := []
  notes : List Note := []
  deriving DecidableEq, Repr

def isCatalogName (name : String) : Bool :=
  ".csv".toList.isSuffixOf name.toList && 4 < name.length

def gather (found : List (String × Found)) : Found :=
  let sorted := (found.mergeSort fun a b => decide (a.1 ≤ b.1)).map (·.2)
  { files := sorted.flatMap (·.files), notes := sorted.flatMap (·.notes) }

mutual

-- The mark of a file that cannot be opened is not seen, so that it fits neither
-- encoding.
def found (path : Path) (name : String) (levels : Nat) : Node → Found
  | file content => if isCatalogName name then { files := [(path, content)] } else {}
  | barred => {}
  | folder listable entries =>
    match levels with
    | 0 => {}
    | levels+1 =>
      if listable then gather (foundIn path levels entries) else { notes := [.skipped path] }

def foundIn (path : Path) (levels : Nat) : List (String × Node) → List (String × Found)
  | [] => []
  | (name, node) :: rest =>
    (name, node.found (path.child name) name levels) :: foundIn path levels rest

end

end Node

structure Discovery where
  paths : List Path
  encoding : Encoding
  notes : List Note := []
  deriving DecidableEq, Repr

namespace Discovery

inductive Problem where
  | notAFolder (root : Path)
  | unlistable (root : Path)
  deriving DecidableEq, Repr

def Problem.message : Problem → String
  | notAFolder root => "catalog directory not found: " ++ root.text
  | unlistable root => s!"cannot read catalog directory {root.text}: " ++ Refusal.denied.reason

def candidates (tree : Node) (root : Path) (levels : Nat) : Except Problem Node.Found :=
  match tree.resolve root with
  | .ok (.folder true entries) => .ok (Node.gather (Node.foundIn root levels entries))
  | .ok (.folder false _) => .error (.unlistable root)
  | _ => .error (.notAFolder root)

def ofEncoding (e : Encoding) (found : Node.Found) : List Path :=
  (found.files.filter fun f => e.detects f.2).map (·.1)

-- If no catalog is of the wanted encoding, the folders are gone through again
-- for the other one.
def run (tree : Node) (root : Path) (wanted : Encoding) (levels : Nat) : Except Problem Discovery := do
  let found ← candidates tree root levels
  match ofEncoding wanted found with
  | [] =>
    return { paths := ofEncoding wanted.other found, encoding := wanted.other,
             notes := found.notes ++ found.notes }
  | paths => return { paths, encoding := wanted, notes := found.notes }

variable {tree : Node} {root : Path} {wanted : Encoding} {levels : Nat} {found : Node.Found}

theorem run_of_problem (wanted : Encoding) {problem : Problem} (failed : candidates tree root levels = .error problem) :
    run tree root wanted levels = .error problem := by
  rw [run, failed]
  rfl

private theorem ofEncoding_eq_nil : ofEncoding wanted found = [] ↔ ¬found.files.any (wanted.detects ·.2) := by
  simp [ofEncoding]

theorem run_of_candidates (wanted : Encoding) (walked : candidates tree root levels = .ok found) :
    ∃ d, run tree root wanted levels = .ok d ∧
      d.paths = (found.files.filter fun f => d.encoding.detects f.2).map (·.1) ∧
      d.encoding = if found.files.any (wanted.detects ·.2) then wanted else wanted.other := by
  cases fitting : ofEncoding wanted found with
  | nil =>
    refine ⟨_, by rw [run, walked]; simp only [bind, Except.bind, fitting]; rfl, rfl, ?_⟩
    exact (if_neg (ofEncoding_eq_nil.mp fitting)).symm
  | cons first more =>
    refine ⟨_, by rw [run, walked]; simp only [bind, Except.bind, fitting]; rfl, fitting.symm, ?_⟩
    have one_fits : ofEncoding wanted found ≠ [] := by simp [fitting]
    exact (if_pos (Decidable.not_not.mp (mt ofEncoding_eq_nil.mpr one_fits))).symm

end Discovery

end SeedSearch
