import SeedSearch.Proofs.CatalogTree

namespace SeedSearch

theorem Encoding.detects_take (e : Encoding) (content : List UInt8) :
    e.detects (content.take 4) = e.detects content := by
  cases e <;> simp [Encoding.detects, List.take_take]

namespace Node

mutual

def heads : Node → Node
  | file content => file (content.take 4)
  | barred => barred
  | folder listable entries => folder listable (headsIn entries)

def headsIn : List (String × Node) → List (String × Node)
  | [] => []
  | (name, node) :: rest => (name, node.heads) :: headsIn rest

end

def Found.heads (found : Found) : Found := { found with files := found.files.map fun f => (f.1, f.2.take 4) }

variable {entries : List (String × Node)} {levels : Nat}

theorem headsIn_eq_map (entries : List (String × Node)) : headsIn entries = entries.map fun e => (e.1, e.2.heads) := by
  induction entries with
  | nil => rfl
  | cons entry rest ih => rw [headsIn, ih, List.map_cons]

theorem child_heads (name : String) (entries : List (String × Node)) :
    child? name (headsIn entries) = (child? name entries).map heads := by
  rw [headsIn_eq_map, child?, child?, List.find?_map, Option.map_map, Option.map_map]
  rfl

theorem follow_heads (above : List Node) (here : Node) (way : List String) :
    follow (above.map heads) here.heads way = (follow above here way).map heads := by
  induction way generalizing above here with
  | nil => rfl
  | cons name rest ih =>
    cases here with
    | file | barred => rfl
    | folder listable entries =>
      have upper : (if name = ".." then above.map heads else []) = (if name = ".." then above else []).map heads := by
        split
        · rfl
        · rfl
      rw [heads, follow, follow, upper, child_heads]
      cases (if name = ".." then above else []) with
      | cons up more => exact ih more up
      | nil =>
        cases child? name entries with
        | none => rfl
        | some node =>
          show follow _ node.heads rest = _
          rw [← ih]
          split
          · rfl
          · rfl

theorem resolve_heads (tree : Node) (path : Path) : tree.heads.resolve path = (tree.resolve path).map heads :=
  follow_heads [] tree path.way

theorem gather_heads (found : List (String × Found)) :
    gather (found.map fun f => (f.1, f.2.heads)) = (gather found).heads := by
  have sorted : (found.mergeSort fun a b => decide (a.1 ≤ b.1)).map (fun f => (f.1, f.2.heads)) =
      (found.map fun f => (f.1, f.2.heads)).mergeSort fun a b => decide (a.1 ≤ b.1) :=
    List.map_mergeSort fun _ _ _ _ => rfl
  rw [gather, ← sorted]
  simp only [gather, Found.heads, List.flatMap_map, List.map_flatMap]

theorem found_file_heads (path : Path) (name : String) (levels : Nat) (content : List UInt8) :
    (file content).heads.found path name levels = ((file content).found path name levels).heads := by
  rw [heads, found, found]
  split
  · rfl
  · rfl

theorem foundIn_heads (path : Path) (entries : List (String × Node)) (each : ∀ path name (node : Node),
      node.heads.found path name levels = (node.found path name levels).heads) :
    foundIn path levels (headsIn entries) = (foundIn path levels entries).map fun f => (f.1, f.2.heads) := by
  rw [foundIn_eq_map, foundIn_eq_map, headsIn_eq_map, List.map_map, List.map_map]
  exact List.map_congr_left fun entry _ => congrArg (Prod.mk entry.1) (each _ _ entry.2)

-- By induction on the levels that the walk may still enter.
theorem found_heads (node : Node) (path : Path) (name : String) (levels : Nat) :
    node.heads.found path name levels = (node.found path name levels).heads := by
  induction levels generalizing node path name with
  | zero =>
    cases node with
    | file content => exact found_file_heads path name 0 content
    | barred | folder => rfl
  | succ levels ih =>
    cases node with
    | file content => exact found_file_heads path name (levels + 1) content
    | barred => rfl
    | folder listable entries =>
      cases listable with
      | false => rfl
      | true =>
        rw [heads, found_listed, found_listed, ← gather_heads, foundIn_heads path entries]
        exact fun path name node => ih node path name

end Node

namespace Discovery

theorem candidates_heads (tree : Node) (root : Path) (levels : Nat) :
    candidates tree.heads root levels = (candidates tree root levels).map Node.Found.heads := by
  rw [candidates, candidates, Node.resolve_heads]
  rcases tree.resolve root with refusal | (content | _ | ⟨_ | _, entries⟩)
  · rfl
  · rfl
  · rfl
  · rfl
  · have walked := Node.foundIn_heads root entries fun path name node =>
      Node.found_heads node path name levels
    exact congrArg Except.ok ((congrArg Node.gather walked).trans (Node.gather_heads _))

theorem ofEncoding_heads (e : Encoding) (found : Node.Found) : ofEncoding e found.heads = ofEncoding e found := by
  rw [ofEncoding, ofEncoding, Node.Found.heads, List.filter_map, List.map_map]
  simp only [Function.comp_def, Encoding.detects_take]

theorem run_heads (tree : Node) (root : Path) (wanted : Encoding) (levels : Nat) :
    run tree.heads root wanted levels = run tree root wanted levels := by
  rw [run, run, candidates_heads]
  cases candidates tree root levels with
  | error problem => rfl
  | ok found =>
    simp only [Except.map, bind, Except.bind, ofEncoding_heads]
    rfl

theorem run_congr {tree other : Node} (same : other.heads = tree.heads) (root : Path) (wanted : Encoding)
    (levels : Nat) : run other root wanted levels = run tree root wanted levels := by
  rw [← run_heads other, same, run_heads]

end Discovery

end SeedSearch
