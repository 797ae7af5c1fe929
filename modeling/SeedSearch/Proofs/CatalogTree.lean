import Mathlib.Data.List.Nodup
import SeedSearch.Discovery

namespace SeedSearch

namespace Path

def down (p : Path) (way : List String) : Path := { p with parts := p.parts ++ way }

@[simp] theorem down_nil (p : Path) : p.down [] = p := by simp [down]

@[simp] theorem child_down (p : Path) (name : String) (way : List String) :
    (p.child name).down way = p.down (name :: way) := by simp [down, child]

theorem way_down (p : Path) (way : List String) : (p.down way).way = p.way ++ way := by
  unfold Path.way down
  split <;> simp

theorem down_inj {p : Path} {way other : List String} : p.down way = p.down other ↔ way = other := by
  simp [down]

end Path

namespace Node

variable {node child twin target other : Node} {listable : Bool} {entries : List (String × Node)}
  {name : String} {way upper : List String} {path p : Path} {levels : Nat} {content : List UInt8}

inductive Below : Node → List String → Node → Prop where
  | here (node : Node) : Below node [] node
  | inside {listable : Bool} {entries : List (String × Node)} {name : String} {child target : Node}
      {way : List String} (entry : (name, child) ∈ entries) (onward : Below child way target) :
      Below (folder listable entries) (name :: way) target

inductive Distinct : Node → Prop where
  | ofFile (content : List UInt8) : Distinct (file content)
  | ofBarred : Distinct barred
  | ofFolder {listable : Bool} {entries : List (String × Node)} (names : (entries.map (·.1)).Nodup)
      (inside : ∀ entry ∈ entries, Distinct entry.2) : Distinct (folder listable entries)

def Unlocked (top : Node) (way : List String) : Prop :=
  ∀ upper entries, upper <+: way → ¬top.Below upper (folder false entries)

-- A file that carries the name of a catalog, with at most this many levels of
-- folders between the top and itself, all of them listable.
structure Holds (top : Node) (levels : Nat) (way : List String) (content : List UInt8) : Prop where
  lies : top.Below way (file content)
  shallow : way.length ≤ levels + 1
  named : ∃ stem, stem ≠ "" ∧ way.getLast? = some (stem ++ ".csv")
  unlocked : top.Unlocked way

structure InReach (node : Node) (name : String) (levels : Nat) (way : List String) (content : List UInt8) : Prop where
  lies : node.Below way (file content)
  shallow : way.length ≤ levels
  named : isCatalogName (way.getLastD name)
  unlocked : node.Unlocked way

theorem below_nil_iff : node.Below [] target ↔ target = node := by
  constructor
  · intro below
    cases below
    rfl
  · intro same
    exact same ▸ .here node

theorem below_file_iff : (file content).Below way target ↔ way = [] ∧ target = file content := by
  constructor
  · intro below
    cases below
    exact ⟨rfl, rfl⟩
  · intro ⟨no_way, same⟩
    exact no_way ▸ same ▸ .here (file content)

theorem below_barred_iff : barred.Below way target ↔ way = [] ∧ target = barred := by
  constructor
  · intro below
    cases below
    exact ⟨rfl, rfl⟩
  · intro ⟨no_way, same⟩
    exact no_way ▸ same ▸ .here barred

theorem below_cons_iff : (folder listable entries).Below (name :: way) target ↔
    ∃ child, (name, child) ∈ entries ∧ child.Below way target := by
  constructor
  · intro below
    cases below with
    | inside entry onward => exact ⟨_, entry, onward⟩
  · intro ⟨child, entry, onward⟩
    exact .inside entry onward

@[simp] theorem distinct_folder_iff : (folder listable entries).Distinct ↔
    (entries.map (·.1)).Nodup ∧ ∀ entry ∈ entries, entry.2.Distinct := by
  constructor
  · intro distinct
    cases distinct with
    | ofFolder names inside => exact ⟨names, inside⟩
  · intro ⟨names, inside⟩
    exact .ofFolder names inside

@[simp] theorem distinct_file (content : List UInt8) : (file content).Distinct := .ofFile content

@[simp] theorem distinct_barred : barred.Distinct := .ofBarred

theorem Distinct.names (distinct : (folder listable entries).Distinct) : (entries.map (·.1)).Nodup :=
  (distinct_folder_iff.mp distinct).1

theorem Distinct.inside (distinct : (folder listable entries).Distinct) : ∀ entry ∈ entries, entry.2.Distinct :=
  (distinct_folder_iff.mp distinct).2

theorem Distinct.entry (distinct : (folder listable entries).Distinct) (mem : (name, child) ∈ entries)
    (again : (name, twin) ∈ entries) : twin = child :=
  (Prod.mk.inj (List.inj_on_of_nodup_map distinct.names again mem rfl)).2

theorem Distinct.resolve {tree : Node} (distinct : tree.Distinct) (resolved : tree.resolve path = .ok node) :
    node.Distinct :=
  resolve_inward (fun _ _ distinct => distinct.inside) distinct resolved

theorem Below.unique (distinct : node.Distinct) (below : node.Below way target) (again : node.Below way other) :
    other = target := by
  induction below with
  | here => exact below_nil_iff.mp again
  | inside entry _ ih =>
    obtain ⟨twin, twin_entry, onward⟩ := below_cons_iff.mp again
    cases distinct.entry entry twin_entry
    exact ih (distinct.inside _ entry) onward

theorem unlocked_file : (file content).Unlocked way := by
  intro upper entries _ locked
  cases (below_file_iff.mp locked).2

theorem unlocked_cons (distinct : (folder true entries).Distinct) (entry : (name, child) ∈ entries) :
    (folder true entries).Unlocked (name :: way) ↔ child.Unlocked way := by
  constructor
  · intro unlocked upper inner front locked
    exact unlocked (name :: upper) inner (List.cons_prefix_cons.mpr ⟨rfl, front⟩) (.inside entry locked)
  · intro unlocked upper inner front locked
    obtain rfl | ⟨below, rfl, front⟩ := List.prefix_cons_iff.mp front
    · cases below_nil_iff.mp locked
    · obtain ⟨twin, again, locked⟩ := below_cons_iff.mp locked
      cases distinct.entry entry again
      exact unlocked below inner (List.cons_prefix_cons.mp front).2 locked

theorem isCatalogName_iff : isCatalogName name = true ↔ ∃ stem, stem ≠ "" ∧ name = stem ++ ".csv" := by
  simp only [isCatalogName, Bool.and_eq_true, List.isSuffixOf_iff_suffix, decide_eq_true_eq]
  constructor
  · intro ⟨⟨stem, parts⟩, longer⟩
    obtain rfl : name = String.ofList stem ++ ".csv" := String.toList_injective (by simp [← parts])
    refine ⟨String.ofList stem, ?_, rfl⟩
    intro empty
    rw [empty] at longer
    exact absurd longer (by decide)
  · rintro ⟨stem, some_stem, rfl⟩
    have stem_length : stem.toList.length ≠ 0 := by simpa using some_stem
    refine ⟨⟨stem.toList, String.toList_append.symm⟩, ?_⟩
    rw [String.length_append, ← String.length_toList]
    exact Nat.lt_add_of_pos_left (Nat.pos_of_ne_zero stem_length)

theorem inReach_file_iff {own : List UInt8} :
    (file own).InReach name levels way content ↔ way = [] ∧ content = own ∧ isCatalogName name := by
  constructor
  · intro reach
    obtain ⟨rfl, same⟩ := below_file_iff.mp reach.lies
    exact ⟨rfl, by simpa using same, reach.named⟩
  · intro ⟨no_way, same, named⟩
    subst no_way same
    exact ⟨.here _, Nat.zero_le _, named, unlocked_file⟩

theorem not_inReach_barred : ¬barred.InReach name levels way content := fun reach =>
  nomatch (below_barred_iff.mp reach.lies).2

theorem inReach_folder_iff (distinct : (folder listable entries).Distinct) :
    (folder listable entries).InReach name levels way content ↔
      ∃ entry ∈ entries, ∃ onward less, way = entry.1 :: onward ∧ levels = less + 1 ∧ listable = true ∧
        entry.2.InReach entry.1 less onward content := by
  constructor
  · intro reach
    obtain rfl : listable = true := by
      by_contra locked
      exact reach.unlocked [] entries List.nil_prefix (by simp_all [Below.here])
    obtain ⟨lies, shallow, named, unlocked⟩ := reach
    cases lies with
    | @inside _ _ below child _ onward entry lies =>
      obtain ⟨less, rfl⟩ := Nat.exists_eq_add_one.mpr (Nat.zero_lt_of_lt shallow)
      rw [List.getLastD_cons] at named
      exact ⟨_, entry, onward, less, rfl, rfl, rfl, lies, Nat.le_of_succ_le_succ shallow, named,
        (unlocked_cons distinct entry).mp unlocked⟩
  · intro ⟨⟨below, child⟩, entry, onward, less, first, levels_left, listed, reach⟩
    subst first levels_left listed
    refine ⟨.inside entry reach.lies, Nat.succ_le_succ reach.shallow, ?_, ?_⟩
    · rw [List.getLastD_cons]
      exact reach.named
    · exact (unlocked_cons distinct entry).mpr reach.unlocked

theorem foundIn_eq_map (path : Path) (levels : Nat) (entries : List (String × Node)) :
    foundIn path levels entries = entries.map fun e => (e.1, e.2.found (path.child e.1) e.1 levels) := by
  induction entries with
  | nil => rfl
  | cons entry rest ih => rw [foundIn, ih, List.map_cons]

theorem mem_gather {found : List (String × Found)} {file : Path × List UInt8} :
    file ∈ (gather found).files ↔ ∃ part ∈ found, file ∈ part.2.files := by
  simp only [gather, List.mem_flatMap, List.mem_map, List.mem_mergeSort]
  constructor
  · intro ⟨inner, ⟨part, mem, same⟩, within⟩
    exact ⟨part, mem, same ▸ within⟩
  · intro ⟨part, mem, within⟩
    exact ⟨part.2, ⟨part, mem, rfl⟩, within⟩

theorem mem_found_file (own : List UInt8) : (p, content) ∈ ((file own).found path name levels).files ↔
    ∃ way, p = path.down way ∧ (file own).InReach name levels way content := by
  have alone : (p, content) ∈ ((file own).found path name levels).files ↔
      p = path ∧ content = own ∧ isCatalogName name := by
    rw [found]
    split
    next named => simp [named]
    next other => simp [other]
  simp [alone, inReach_file_iff]

theorem found_listed (name : String) :
    (folder true entries).found path name (levels + 1) = gather (foundIn path levels entries) := by
  rw [found, if_pos rfl]

theorem mem_found_folder : (p, content) ∈ ((folder listable entries).found path name (levels + 1)).files ↔
    listable = true ∧
      ∃ entry ∈ entries, (p, content) ∈ (entry.2.found (path.child entry.1) entry.1 levels).files := by
  cases listable with
  | false => simp [found]
  | true => simp [found_listed, mem_gather, foundIn_eq_map]

-- By induction on the levels that the walk may still enter.
theorem mem_found_iff (distinct : node.Distinct) : (p, content) ∈ (node.found path name levels).files ↔
    ∃ way, p = path.down way ∧ node.InReach name levels way content := by
  induction levels generalizing node path name with
  | zero =>
    cases node with
    | file own => exact mem_found_file own
    | barred => simp [found, not_inReach_barred]
    | folder listable entries => simp [found, inReach_folder_iff distinct]
  | succ levels ih =>
    cases node with
    | file own => exact mem_found_file own
    | barred => simp [found, not_inReach_barred]
    | folder listable entries =>
      rw [mem_found_folder]
      constructor
      · intro ⟨listed, entry, mem, within⟩
        obtain ⟨onward, rfl, reach⟩ := (ih (distinct.inside entry mem)).mp within
        refine ⟨entry.1 :: onward, Path.child_down .., ?_⟩
        exact (inReach_folder_iff distinct).mpr ⟨entry, mem, onward, levels, rfl, rfl, listed, reach⟩
      · intro ⟨way, place, reach⟩
        obtain ⟨entry, mem, onward, less, rfl, same, listed, inner⟩ := (inReach_folder_iff distinct).mp reach
        cases same
        refine ⟨listed, entry, mem, (ih (distinct.inside entry mem)).mpr ⟨onward, ?_, inner⟩⟩
        rw [place, Path.child_down]

theorem names_rise {found : List (String × Found)} (names : (found.map (·.1)).Nodup) :
    (found.mergeSort fun a b => decide (a.1 ≤ b.1)).Pairwise fun a b => a.1 < b.1 := by
  have apart : (found.mergeSort fun a b => decide (a.1 ≤ b.1)).Pairwise fun a b => a.1 ≠ b.1 :=
    List.pairwise_map.mp (((List.mergeSort_perm _ _).map _).nodup_iff.mpr names)
  have rising : (found.mergeSort fun a b => decide (a.1 ≤ b.1)).Pairwise fun a b => decide (a.1 ≤ b.1) :=
    List.pairwise_mergeSort (fun a b c => by simpa using String.le_trans)
      (fun a b => by simpa using String.le_total a.1 b.1) found
  refine (rising.and apart).imp fun {a b} both => ?_
  exact Std.lt_of_le_of_ne (of_decide_eq_true both.1) both.2

theorem gather_sorted {found : List (String × Found)} (names : (found.map (·.1)).Nodup)
    (parts : ∀ part ∈ found, (part.2.files.map (·.1)).Pairwise (·.way < ·.way) ∧
      ∀ file ∈ part.2.files, ∃ way, file.1.way = path.way ++ part.1 :: way) :
    ((gather found).files.map (·.1)).Pairwise (·.way < ·.way) := by
  rw [gather, List.map_flatMap, List.flatMap_map, List.pairwise_flatMap]
  refine ⟨fun part mem => (parts part (List.mem_mergeSort.mp mem)).1, ?_⟩
  refine (names_rise names).imp_of_mem fun {a b} a_mem b_mem before => ?_
  intro x x_mem y y_mem
  obtain ⟨first, in_first, rfl⟩ := List.mem_map.mp x_mem
  obtain ⟨second, in_second, rfl⟩ := List.mem_map.mp y_mem
  obtain ⟨_, first_path⟩ := (parts a (List.mem_mergeSort.mp a_mem)).2 first in_first
  obtain ⟨_, second_path⟩ := (parts b (List.mem_mergeSort.mp b_mem)).2 second in_second
  rw [first_path, second_path]
  exact List.append_left_lt (List.cons_lt_cons_iff.mpr (.inl before))

theorem found_file_sorted (own : List UInt8) :
    (((file own).found path name levels).files.map (·.1)).Pairwise (·.way < ·.way) := by
  rw [found]
  split
  · exact List.pairwise_singleton _ _
  · exact .nil

theorem found_sorted (distinct : node.Distinct) :
    ((node.found path name levels).files.map (·.1)).Pairwise (·.way < ·.way) := by
  induction levels generalizing node path name with
  | zero =>
    cases node with
    | file own => exact found_file_sorted own
    | barred | folder => exact .nil
  | succ levels ih =>
    cases node with
    | file own => exact found_file_sorted own
    | barred => exact .nil
    | folder listable entries =>
      cases listable with
      | false => exact .nil
      | true =>
        have names := distinct.names
        rw [found_listed, foundIn_eq_map]
        apply gather_sorted (by rwa [List.map_map])
        intro part part_mem
        obtain ⟨entry, mem, rfl⟩ := List.mem_map.mp part_mem
        refine ⟨ih (distinct.inside entry mem), fun file file_mem => ?_⟩
        obtain ⟨way, below, -⟩ := (mem_found_iff (distinct.inside entry mem)).mp file_mem
        exact ⟨way, by rw [below, Path.child_down, Path.way_down]⟩

theorem inReach_top_iff : (folder true entries).InReach "" (levels + 1) way content ↔
    (folder true entries).Holds levels way content := by
  constructor
  · intro ⟨lies, shallow, named, unlocked⟩
    obtain ⟨stem, some_stem, last⟩ := isCatalogName_iff.mp named
    refine ⟨lies, shallow, ⟨stem, some_stem, ?_⟩, unlocked⟩
    cases lies with
    | inside entry onward => rw [← last, List.getLastD_cons, List.getLast?_cons, List.getLastD_eq_getLast?]
  · intro ⟨lies, shallow, ⟨stem, some_stem, last⟩, unlocked⟩
    refine ⟨lies, shallow, isCatalogName_iff.mpr ⟨stem, some_stem, ?_⟩, unlocked⟩
    rw [List.getLastD_eq_getLast?, last, Option.getD_some]

theorem mem_found_top (path : Path) (distinct : (folder true entries).Distinct) :
    (p, content) ∈ (gather (foundIn path levels entries)).files ↔
      ∃ way, p = path.down way ∧ (folder true entries).Holds levels way content := by
  rw [← found_listed "", mem_found_iff distinct]
  simp only [inReach_top_iff]

end Node

namespace Discovery

variable {tree : Node} {root : Path} {wanted : Encoding} {levels : Nat} {entries : List (String × Node)}

-- What a search of a listable folder comes to. A folder is never found, not
-- even one that carries the name of a catalog, and one that cannot be listed
-- takes what is in it along and nothing else. Neither is a file that cannot be
-- opened.
structure Finds (top : Node) (root : Path) (wanted : Encoding) (levels : Nat) (d : Discovery) : Prop where
  ordered : d.paths.Pairwise (·.way < ·.way)
  exact : ∀ p, p ∈ d.paths ↔
    ∃ way content, p = root.down way ∧ top.Holds levels way content ∧ d.encoding.detects content = true
  no_folder : ∀ way listable entries, top.Below way (.folder listable entries) → root.down way ∉ d.paths
  no_locked : ∀ way more entries, top.Below way (.folder false entries) → root.down (way ++ more) ∉ d.paths
  no_barred : ∀ way, top.Below way .barred → root.down way ∉ d.paths
  as_wanted : (∃ way content, top.Holds levels way content ∧ wanted.detects content = true) →
    d.encoding = wanted
  otherwise : (∀ way content, top.Holds levels way content → wanted.detects content = false) →
    d.encoding = wanted.other

theorem candidates_listed (levels : Nat) (listed : tree.resolve root = .ok (.folder true entries)) :
    candidates tree root levels = .ok (Node.gather (Node.foundIn root levels entries)) := by
  rw [candidates, listed]

theorem run_error_iff {problem : Problem} : run tree root wanted levels = .error problem ↔
    (problem = .notAFolder root ∧ ∀ listable entries, tree.resolve root ≠ .ok (.folder listable entries)) ∨
    (problem = .unlistable root ∧ ∃ entries, tree.resolve root = .ok (.folder false entries)) := by
  cases resolved : tree.resolve root with
  | error refusal =>
    rw [run_of_problem wanted (by rw [candidates, resolved])]
    simp [eq_comm]
  | ok node =>
    cases node with
    | file | barred =>
      rw [run_of_problem wanted (by rw [candidates, resolved])]
      simp [eq_comm]
    | folder listable entries =>
      cases listable with
      | false =>
        rw [run_of_problem wanted (by rw [candidates, resolved])]
        simp [eq_comm]
      | true =>
        obtain ⟨d, ran, -⟩ := run_of_candidates wanted (candidates_listed levels resolved)
        simp [ran]

theorem mem_of_encoding_iff (root : Path) (levels : Nat) (e : Encoding)
    (distinct : (Node.folder true entries).Distinct) {p : Path} :
    p ∈ ((Node.gather (Node.foundIn root levels entries)).files.filter fun f => e.detects f.2).map (·.1) ↔
      ∃ way content, p = root.down way ∧ (Node.folder true entries).Holds levels way content ∧
        e.detects content = true := by
  constructor
  · intro mem
    obtain ⟨⟨_, content⟩, kept, rfl⟩ := List.mem_map.mp mem
    obtain ⟨walked, fits⟩ := List.mem_filter.mp kept
    obtain ⟨way, rfl, holds⟩ := (Node.mem_found_top root distinct).mp walked
    exact ⟨way, content, rfl, holds, fits⟩
  · rintro ⟨way, content, rfl, holds, fits⟩
    have walked := (Node.mem_found_top root distinct).mpr ⟨way, rfl, holds⟩
    exact List.mem_map.mpr ⟨(root.down way, content), List.mem_filter.mpr ⟨walked, fits⟩, rfl⟩

theorem any_of_encoding_iff (root : Path) (levels : Nat) (e : Encoding)
    (distinct : (Node.folder true entries).Distinct) :
    (Node.gather (Node.foundIn root levels entries)).files.any (e.detects ·.2) = true ↔
      ∃ way content, (Node.folder true entries).Holds levels way content ∧ e.detects content = true := by
  rw [List.any_eq_true]
  constructor
  · rintro ⟨⟨_, content⟩, walked, fits⟩
    obtain ⟨way, -, holds⟩ := (Node.mem_found_top root distinct).mp walked
    exact ⟨way, content, holds, fits⟩
  · rintro ⟨way, content, holds, fits⟩
    exact ⟨_, (Node.mem_found_top root distinct).mpr ⟨way, rfl, holds⟩, fits⟩

theorem run_finds_catalogs (tree : Node) (distinct : tree.Distinct) (root : Path) (wanted : Encoding)
    (levels : Nat) :
    (∀ problem, run tree root wanted levels = .error problem ↔
      (problem = .notAFolder root ∧ ∀ listable entries, tree.resolve root ≠ .ok (.folder listable entries)) ∨
      (problem = .unlistable root ∧ ∃ entries, tree.resolve root = .ok (.folder false entries))) ∧
    ∀ entries, tree.resolve root = .ok (.folder true entries) →
      ∃ d, run tree root wanted levels = .ok d ∧ Finds (.folder true entries) root wanted levels d := by
  refine ⟨fun problem => run_error_iff, fun entries listed => ?_⟩
  obtain ⟨d, ran, paths, encoding⟩ := run_of_candidates wanted (candidates_listed levels listed)
  have inside := distinct.resolve listed
  have exact : ∀ p, p ∈ d.paths ↔ _ := fun p => paths ▸ mem_of_encoding_iff root levels d.encoding inside
  have any_wanted := any_of_encoding_iff root levels wanted inside
  refine ⟨d, ran, ?_, exact, ?_, ?_, ?_, fun some_fits => ?_, fun none_fits => ?_⟩
  · rw [paths, ← Node.found_listed ""]
    exact (Node.found_sorted inside).sublist (List.filter_sublist.map _)
  · intro way listable inner below mem
    obtain ⟨again, content, same, holds, -⟩ := (exact _).mp mem
    cases Path.down_inj.mp same
    cases below.unique inside holds.lies
  · intro way more inner locked mem
    obtain ⟨again, content, same, holds, -⟩ := (exact _).mp mem
    cases Path.down_inj.mp same
    exact holds.unlocked way inner (List.prefix_append way more) locked
  · intro way below mem
    obtain ⟨again, content, same, holds, -⟩ := (exact _).mp mem
    cases Path.down_inj.mp same
    cases below.unique inside holds.lies
  · rw [encoding, if_pos (any_wanted.mpr some_fits)]
  · rw [encoding, if_neg (mt any_wanted.mp ?_)]
    rintro ⟨way, content, holds, fits⟩
    exact Bool.false_ne_true ((none_fits way content holds).symm.trans fits)

-- A shelf with a folder beside a catalog that would come first were paths
-- compared as texts, a locked folder, one that is named as a catalog, a catalog
-- that cannot be opened and one that lies too deep.
def shelf : List (String × Node) :=
  [("old-plums.csv", .file [0xff, 0xfe]), ("pear.csv", .file []), ("quince.csv", .barred),
    ("old", .folder true [("plum.csv", .file [0xff, 0xfe, 0x31, 0]),
      ("far", .folder true [("deep.csv", .file [0xff, 0xfe])])]),
    ("dry.csv", .folder true []), ("locked", .folder false [("hidden.csv", .file [0xff, 0xfe])])]

def orchard : Node := .folder true [("shelf", .folder true shelf)]

theorem run_finds_plums : orchard.Distinct ∧ orchard.resolve ⟨"", ["shelf"]⟩ = .ok (.folder true shelf) ∧
    ∃ d, run orchard ⟨"", ["shelf"]⟩ .utf16 1 = .ok d ∧
      Finds (.folder true shelf) ⟨"", ["shelf"]⟩ .utf16 1 d ∧
      d.paths = [⟨"", ["shelf", "old", "plum.csv"]⟩, ⟨"", ["shelf", "old-plums.csv"]⟩] := by
  have distinct : orchard.Distinct := by simp [orchard, shelf]
  have listed : orchard.resolve ⟨"", ["shelf"]⟩ = .ok (.folder true shelf) := rfl
  obtain ⟨d, ran, finds⟩ := (run_finds_catalogs orchard distinct ⟨"", ["shelf"]⟩ .utf16 1).2 shelf listed
  refine ⟨distinct, listed, d, ran, finds, ?_⟩
  have walked : (Node.gather (Node.foundIn ⟨"", ["shelf"]⟩ 1 shelf)).files =
      [(⟨"", ["shelf", "old", "plum.csv"]⟩, [0xff, 0xfe, 0x31, 0]),
        (⟨"", ["shelf", "old-plums.csv"]⟩, [0xff, 0xfe]), (⟨"", ["shelf", "pear.csv"]⟩, [])] := by
    simp +decide [Node.gather, Node.foundIn, Node.found, shelf, Path.child, List.mergeSort,
      List.MergeSort.Internal.splitInTwo]
  obtain ⟨_, again, paths, encoding⟩ := run_of_candidates .utf16 (candidates_listed 1 listed)
  cases ran.symm.trans again
  rw [walked, if_pos (by decide)] at encoding
  rw [paths, walked, encoding]
  rfl

end Discovery
end SeedSearch
