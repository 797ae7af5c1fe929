import SeedSearch.Proofs.Interruption
import SeedSearch.Proofs.Isolation
import SeedSearch.Proofs.Misreading
import SeedSearch.Proofs.Piles

namespace SeedSearch
open Catalog (Row)
open Criterion
open Scan.Result

namespace Fault

variable {f : Fault}

def inputKinds : List String :=
  ["CatalogFormatError", "FileNotFoundError", "PermissionError", "NotADirectoryError", "IsADirectoryError",
   "UnicodeDecodeError", "UnicodeError"]

theorem inFile_of_not_input (foreign : f.ofInput = false) (path : Path) : f.inFile path = f := by
  cases f with
  | format e => cases foreign
  | access r path => cases foreign
  | decoding e => cases foreign
  | tooLong e => rfl

theorem kind_inFile (f : Fault) (path : Path) : (f.inFile path).kind = f.kind := by
  cases f <;> rfl

theorem kind_of_input (input : f.ofInput = true) : f.kind ∈ inputKinds := by
  cases f with
  | format e => simp [kind, inputKinds]
  | access r path => cases r <;> simp [kind, Refusal.kind, inputKinds]
  | decoding e => cases e <;> simp [kind, inputKinds]
  | tooLong e => cases input

end Fault

namespace Catalog

variable {f : Fault}

theorem linesOf_fault {lone : Bool} {text : List Char} {fault : Option Fault}
    (failed : (linesOf lone text fault).fault = some f) : fault = some f := by
  simp only [linesOf] at failed
  split at failed
  · exact failed
  · cases failed

end Catalog

theorem Node.rows_lines {tree : Node} {e : Encoding} {path : Path} {feed : Feed Row}
    (opened : tree.rows e path = .ok feed) : ∃ octets text broken, tree.read path = .ok octets ∧
      e.decode octets = (text, broken) ∧
      feed = Catalog.readRows (Catalog.linesOf true text (broken.map .decoding)) := by
  unfold rows at opened
  cases content : tree.read path with
  | error refusal =>
    rw [content] at opened
    cases opened
  | ok octets =>
    rw [content] at opened
    cases opened
    exact ⟨octets, _, _, rfl, rfl, rfl⟩

theorem Node.rows_fault {tree : Node} {e : Encoding} {path : Path} {feed : Feed Row} {f : Fault}
    (opened : tree.rows e path = .ok feed) (failed : feed.fault = some f) : f.ofInput = true := by
  obtain ⟨octets, text, broken, -, -, rfl⟩ := Node.rows_lines opened
  rcases Catalog.readRows_fault failed with lost | ⟨reason, n, rfl, -⟩
  · obtain ⟨fault, -, rfl⟩ := Option.map_eq_some_iff.mp (Catalog.linesOf_fault lost)
    rfl
  · rfl

namespace Query

variable {q : Query} {runs : List (List Row)} {feed : Feed Row} {fault : Option Fault} {f : Fault}

theorem sweep_fault (failed : (q.sweep fault runs).2 = some f) :
    fault = some f ∨ ∃ run ∈ runs, faultIn q.criteria run = some f := by
  induction runs generalizing q with
  | nil => exact Or.inl failed
  | cons run rest ih =>
    cases here : faultIn q.criteria run with
    | some g =>
      have same : g = f := by
        cases rest <;> simpa [sweep, here] using failed
      exact Or.inr ⟨run, by simp, same ▸ here⟩
    | none =>
      cases rest with
      | nil =>
        cases fault with
        | none => simp [sweep, here] at failed
        | some g => exact Or.inl (by simpa [sweep, here] using failed)
      | cons next rest =>
        simp only [sweep, here] at failed
        split at failed
        · cases failed
        · rcases ih failed with read | ⟨x, member, broken⟩
          · exact Or.inl read
          · exact Or.inr ⟨x, List.mem_cons_of_mem _ member, reap_criteria ▸ broken⟩

theorem scan_fault (failed : (q.scan feed).committed = .error f) : feed.fault = some f ∨
    ∃ r ∈ feed.items, q.inBounds r = true ∧ (∃ c ∈ q.criteria, c.accepts r = true) ∧ r.object = .error f := by
  obtain ⟨-, committed⟩ := q.scan_agrees feed.items feed.fault
  have swept : (q.sweep feed.fault (q.runs feed.items)).2 = some f := by
    cases ended : (q.sweep feed.fault (q.runs feed.items)).2 with
    | none =>
      rw [ended] at committed
      cases committed.symm.trans failed
    | some g =>
      rw [ended] at committed
      cases committed.symm.trans failed
      rfl
  rcases sweep_fault swept with read | ⟨run, member, broken⟩
  · exact Or.inl read
  · obtain ⟨before, r, after, rfl, takes, object, -⟩ := faultIn_eq_some_iff.mp broken
    obtain ⟨inside, bounds⟩ := mem_runs (r := r) member (by simp)
    exact Or.inr ⟨r, inside, bounds, taker_isSome.mp takes, object⟩

-- A scan of a file fails by the input, unless it comes to gold of too many piles.
theorem scanFile_fault {tree : Node} {e : Encoding} {path : Path}
    (failed : (q.scanFile path (tree.rows e path)).committed = .error f) : f.ofInput = true ∨
    ∃ feed, tree.rows e path = .ok feed ∧ ∃ r ∈ feed.items, q.inBounds r = true ∧
      (∃ c ∈ q.criteria, c.accepts r = true) ∧ r.Overlong ∧ r.object = .error f := by
  cases opened : tree.rows e path with
  | error refusal =>
    rw [opened] at failed
    cases failed
    exact Or.inl rfl
  | ok feed =>
    rw [opened] at failed
    rcases scan_fault failed with read | ⟨r, inside, bounds, accepted, object⟩
    · exact Or.inl (Node.rows_fault opened read)
    · cases input : f.ofInput with
      | true => exact Or.inl rfl
      | false =>
        have overlong := (Catalog.Row.object_fault_iff object).mp input
        exact Or.inr ⟨feed, rfl, r, inside, bounds, accepted, overlong, object⟩

theorem scan_opening_fault {r : Row} {more : List Row} (bounds : q.inBounds r = true)
    (accepted : ∃ c ∈ q.criteria, c.accepts r = true) (object : r.object = .error f) :
    (q.scan { items := r :: more, fault }).committed = .error f := by
  let initial : Scan := { query := q.resetCounts }
  have frame : initial.close.query.Alike q := alike_iff.mpr ⟨rfl, resetCounts_criteria q, rfl, rfl⟩
  have live : ¬ RuledOut q.criteria [] := by
    rintro ⟨t, member, -⟩
    cases member
  have broken : faultIn q.criteria ([] ++ [r]) = some f :=
    faultIn_eq_some_iff.mpr ⟨[], r, [], rfl, taker_isSome.mpr accepted, object, live, by simp⟩
  obtain ⟨after, stepped, -⟩ := (Scan.sifted_opening frame).step_broken broken bounds rfl
  have ran : initial.run (r :: more) = (after, some (.fault f)) := by
    rw [Scan.run_opened frame bounds (by simp [initial]) (by simp [initial])]
    simp [Scan.run, stepped]
  unfold scan
  change ((initial.run (r :: more)).1.finish q.successes (initial.run (r :: more)).2 fault).committed = _
  rw [ran]
  rfl

end Query

namespace Search

variable {tree : Node} {e : Encoding} {limits : Limits} {criteria : List Criterion} {wanted : Int} {path : Path}
  {files paths : List Path} {f : Fault}

def Trips (limits : Limits) (criteria : List Criterion) (r : Row) : Prop :=
  (Query.ofCriteria limits criteria).inBounds r = true ∧ (∃ c ∈ criteria, c.accepts r = true) ∧ r.Overlong

theorem scanAlone_fault (failed : (scanAlone (tree.rows e) limits criteria wanted path).committed = .error f) :
    f.ofInput = true ∨ ∃ feed, tree.rows e path = .ok feed ∧
      ∃ r ∈ feed.items, Trips limits criteria r ∧ r.object = .error f := by
  rcases Query.scanFile_fault failed with input | ⟨feed, opened, r, inside, bounds, accepted, overlong, object⟩
  · exact Or.inl input
  · rw [Query.ofCriteria_criteria] at accepted
    exact Or.inr ⟨feed, opened, r, inside, ⟨bounds, accepted, overlong⟩, object⟩

theorem mem_scansAlone {read : Path → Except Refusal (Feed Row)} {part : Scan.Result}
    (member : part ∈ scansAlone read limits criteria wanted files) :
    ∃ path ∈ files, ∃ left, part = scanAlone read limits criteria left path := by
  induction files generalizing wanted with
  | nil => cases member
  | cons path rest ih =>
    rcases List.mem_cons.mp member with rfl | later
    · exact ⟨path, by simp, wanted, rfl⟩
    · obtain ⟨x, inside, left, same⟩ := ih later
      exact ⟨x, by simp [inside], left, same⟩

theorem failuresOf_kinds {parts : List Scan.Result} {error : FileError}
    (input : ∀ part ∈ parts, ∀ f, part.committed = .error f → f.ofInput = true)
    (member : error ∈ failuresOf files parts) : error.kind ∈ Fault.inputKinds := by
  obtain ⟨⟨path, part⟩, pair, failed⟩ := List.mem_filterMap.mp member
  have inside : part ∈ parts := (List.of_mem_zip pair).2
  change part.failure? path = some error at failed
  cases broken : part.committed with
  | ok n => simp [Scan.Result.failure?, broken] at failed
  | error f =>
    have same : FileError.of path f = error := by simpa [Scan.Result.failure?, broken] using failed
    rw [← same, FileError.of, Fault.kind_inFile]
    exact Fault.kind_of_input (input part inside f broken)

-- Whatever octets the files hold, a search that is not to stop returns, with
-- every failure on record, unless it trips over gold of too many piles; nothing
-- else ends it.
theorem run_outlives_catalogs (tree : Node) (e : Encoding) (limits : Limits) (criteria : List Criterion)
    (paths : List Path) :
    ∃ visited rest, paths = visited ++ rest ∧
      Shortest (fun files => seedsOf (apart (tree.rows e) limits criteria files)) limits.matchesMax visited rest ∧
      ((∀ path ∈ visited, ∀ feed, tree.rows e path = .ok feed → ∀ r ∈ feed.items, ¬ Trips limits criteria r) →
        ∃ after, run (tree.rows e) false (fresh limits criteria) paths = (after, none) ∧
          after.visited = visited.length ∧
          after.errors = failuresOf visited (apart (tree.rows e) limits criteria visited) ∧
          ∀ error ∈ after.errors, error.kind ∈ Fault.inputKinds) ∧
      ∀ after f, run (tree.rows e) false (fresh limits criteria) paths = (after, some f) →
        ∃ path ∈ visited, ∃ feed, tree.rows e path = .ok feed ∧
          ∃ r ∈ feed.items, Trips limits criteria r ∧ r.object = .error f := by
  obtain ⟨visited, rest, rfl, shortest⟩ := exists_shortest
    (fun files => seedsOf (apart (tree.rows e) limits criteria files)) limits.matchesMax paths
  refine ⟨visited, rest, rfl, shortest, ?_, ?_⟩
  · intro clear
    have input : ∀ part ∈ apart (tree.rows e) limits criteria visited,
        ∀ f, part.committed = .error f → f.ofInput = true := by
      intro part member f failed
      obtain ⟨path, inside, left, rfl⟩ := mem_scansAlone member
      rcases scanAlone_fault failed with input | ⟨feed, opened, r, here, trips, -⟩
      · exact input
      · exact absurd trips (clear path inside feed opened r here)
    have goes : ∀ part ∈ apart (tree.rows e) limits criteria visited,
        ∀ f, part.committed = .error f → ¬ f.Ends false :=
      fun part member f failed => by simp [Fault.Ends, input part member f failed]
    obtain ⟨after, gathers, ran⟩ := run_shortest shortest goes
    have errors : after.errors = failuresOf visited (apart (tree.rows e) limits criteria visited) := gathers.errors
    refine ⟨after, ran _ fun _ _ => rfl, gathers.visited.trans (Nat.zero_add _), errors, ?_⟩
    exact fun error member => failuresOf_kinds input (errors ▸ member)
  · intro after f ended
    obtain ⟨path, inside, left, g, failed, ends, rfl⟩ := run_ended shortest ended
    have foreign : g.ofInput = false := by simpa [Fault.Ends] using ends
    rw [Fault.inFile_of_not_input foreign]
    rcases scanAlone_fault failed with input | ⟨feed, opened, r, here, trips, object⟩
    · cases foreign.symm.trans input
    · exact ⟨path, inside, feed, opened, r, here, trips, object⟩

-- Octets that are no text behind a row that is one, a folder in a file's place,
-- a file that is not there, one that holds a seed and one that cannot be opened.
def strayTree : Node :=
  .folder true [
    ("a", .file (Encoding.Utf8.encode
      "dungeon_version,seed,depth,,,,,,,,,,\nCE,1,1,5,gold,gold pieces,,,,,,,\n".toList ++ [0xff])),
    ("b", .folder true []),
    ("d", .file (Encoding.Utf8.encode
      "dungeon_version,seed,depth,,,,,,,,,,\nCE,2,1,5,gold,gold pieces,,,,,,,\n".toList)),
    ("e", .barred)]

def strayPaths : List Path := ["a", "b", "c", "d", "e"].map fun name => { parts := [name] }

theorem run_outlives_stray_octets :
    ∃ after, run (strayTree.rows .utf8) false (fresh {} fives) strayPaths = (after, none) ∧ after.visited = 5 ∧
      after.errors = [
        ⟨{ parts := ["a"] }, "UnicodeDecodeError",
          "'utf-8' codec can't decode byte 0xff in position 70: invalid start byte"⟩,
        ⟨{ parts := ["b"] }, "IsADirectoryError", "[Errno 21] Is a directory: 'b'"⟩,
        ⟨{ parts := ["c"] }, "FileNotFoundError", "[Errno 2] No such file or directory: 'c'"⟩,
        ⟨{ parts := ["e"] }, "PermissionError", "[Errno 13] Permission denied: 'e'"⟩] ∧
      ∀ error ∈ after.errors, error.kind ∈ Fault.inputKinds := by
  obtain ⟨visited, rest, split, shortest, clear, -⟩ := run_outlives_catalogs strayTree .utf8 {} fives strayPaths
  have all : Shortest (fun files => seedsOf (apart (strayTree.rows .utf8) {} fives files)) 10
      (strayPaths.take 5) (strayPaths.drop 5) :=
    .of_take (by decide +kernel) fun more => absurd more (by decide)
  have whole : strayPaths.take 5 ++ strayPaths.drop 5 = visited ++ rest := split
  have same : visited = strayPaths.take 5 := all.unique shortest whole
  subst same
  have objects : ∀ path ∈ strayPaths.take 5, ∀ r ∈ ((strayTree.rows .utf8 path).toOption.map (·.items)).getD [],
      r.object.toOption.isSome = true := by decide +kernel
  have light : ∀ path ∈ strayPaths.take 5, ∀ feed, strayTree.rows .utf8 path = .ok feed →
      ∀ r ∈ feed.items, ¬Trips {} fives r := by
    intro path inside feed opened r member trips
    have known := objects path inside r (by rw [opened]; exact member)
    cases object : r.object with
    | ok o => exact Row.not_overlong_of_object object trips.2.2
    | error f => simp [object, Except.toOption] at known
  obtain ⟨after, ran, count, errors, kinds⟩ := clear light
  exact ⟨after, ran, count, errors.trans (by decide +kernel), kinds⟩

-- Gold of too many piles at the head of a file ends the search there, be it to
-- stop at faults or not.
theorem run_ends_at_piles {read : Path → Except Refusal (Feed Row)} {r : Row} {more : List Row}
    {fault : Option Fault} (wants : 0 < limits.matchesMax) (opened : read path = .ok { items := r :: more, fault })
    (trips : Trips limits criteria r) (stop : Bool) :
    ∃ after f, f.kind = "ValueError" ∧ after.visited = 1 ∧
      ∀ later, run read stop (fresh limits criteria) (path :: later) = (after, some f) := by
  obtain ⟨bounds, accepted, overlong⟩ := trips
  obtain ⟨e, described⟩ := Row.describe_overlong_iff.mpr overlong
  have object : r.object = .error (.tooLong e) := by
    unfold Row.object
    rw [described]
  have unfinished : (fresh limits criteria).query.isComplete = false := by
    rw [Query.isComplete, decide_eq_false_iff_not, seeks_fresh.missing]
    omega
  have failed : ((fresh limits criteria).query.scanFile path (read path)).committed = .error (.tooLong e) := by
    rw [opened]
    apply Query.scan_opening_fault bounds _ object
    rw [Query.ofCriteria_criteria]
    exact accepted
  obtain ⟨after, ended, -, visited⟩ := run_cons_ends unfinished failed (Or.inr rfl)
  exact ⟨after, .tooLong e, rfl, visited, ended⟩

def pilesRow (digits : List Char) : Row :=
  { goldRow 1 1 with kind := String.ofList ("gold pieces (".toList ++ digits ++ " piles)".toList) }

theorem pilesRow_overlong {digits : List Char} (plain : digits.all Text.isPlainDigit = true)
    (long : Text.Numeral.digitLimit < digits.length) : (pilesRow digits).Overlong := by
  refine ⟨rfl, digits, " piles)".toList, by decide, [], by decide, ?_, plain, long⟩
  simp [pilesRow]

example : ∃ after f, f.kind = "ValueError" ∧ after.visited = 1 ∧ ∀ later,
    run (fun _ => .ok { items := [pilesRow (List.replicate 4301 '1')] }) false (fresh {} fives) (({} : Path) :: later) =
      (after, some f) := by
  have long : Text.Numeral.digitLimit < (List.replicate 4301 '1').length := by
    rw [List.length_replicate]
    decide
  have plain : (List.replicate 4301 '1').all Text.isPlainDigit = true := by
    rw [List.all_replicate]
    decide
  have accepted : ∃ c ∈ fives, c.accepts (pilesRow (List.replicate 4301 '1')) = true :=
    ⟨_, List.mem_singleton_self _, by decide⟩
  exact run_ends_at_piles (by decide) rfl ⟨by decide, accepted, pilesRow_overlong plain long⟩ false

end Search

end SeedSearch
