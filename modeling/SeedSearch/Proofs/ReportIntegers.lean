import SeedSearch.CommandLine.Run
import SeedSearch.Proofs.Blocks
import SeedSearch.Proofs.InputFaults
import SeedSearch.Proofs.JsonIntegers
import SeedSearch.Proofs.RecordGrammar

namespace SeedSearch
open Catalog (Row)
open Criterion
open Json (Fits Within ints)

structure Match.Of (r : Row) (m : Match) : Prop where
  seed : m.seed = r.seed
  depth : m.depth = r.depth
  object : r.object = .ok m.object
  vault : m.vault = r.vault

namespace Object

theorem ints_json (o : Object) : o.json.ints =
    match o.form with
    | .plain | .consumable => []
    | .gear e _ | .charm e | .ring e | .staff e | .wand e => [e]
    | .gold amount piles => [amount, piles]
    | .key opens => opens.toList
    | .ally _ _ => [] := by
  obtain ⟨category, kind, form⟩ := o
  cases form <;> simp [json, Form.members, ints, Json.intsOfMembers, Json.ints_opt, Json.ints_optText]

theorem within_json (o : Object) : Within 1 o.json := by
  refine .table ?_
  obtain ⟨category, kind, form⟩ := o
  have opens (given : Option Int) : Within 0 (.opt .int given) := .opt (fun _ => .int) given
  have names (given : Option String) : Within 0 (.opt .text given) := .opt (fun _ => .text) given
  cases form <;> simp [Form.members, Within.int, Within.text, opens, names]

end Object

namespace Match

theorem ints_json (m : Match) : m.json.ints = m.seed :: m.depth :: (m.object.json.ints ++ m.vault.toList) := by
  simp [json, ints, Json.intsOfMembers, Json.ints_opt, Json.ints_optText]

theorem within_json (m : Match) : Within 2 m.json := by
  refine .table ?_
  have vault (given : Option Int) : Within 1 (.opt .int given) := .opt (fun _ => .int) given
  have carrier (given : Option String) : Within 1 (.opt .text given) := .opt (fun _ => .text) given
  simp [Within.int, Within.text, vault, carrier, Object.within_json]

end Match

namespace Report

theorem ints_json (r : Report) : r.json.ints =
    r.target :: r.successes :: r.filesScanned :: (r.seeds ++ r.found.flatMap fun m => m.json.ints) := by
  have errors (es : List FileError) : (es.map FileError.json).flatMap ints = [] := by
    simp [List.flatMap_eq_nil_iff, FileError.json, ints, Json.intsOfMembers]
  have seeds (ns : List Int) : (ns.map Json.int).flatMap ints = ns := by
    induction ns with
    | nil => rfl
    | cons n rest ih => simp [ints, ih]
  simp [json, ints, Json.intsOfMembers, Json.intsOfItems_eq, errors, seeds, List.flatMap_map]

theorem within_json (r : Report) : Within 4 r.json := by
  refine .table ?_
  have seeds : Within 3 (.list (r.seeds.map .int)) := .list (by simp [Within.int])
  have found : Within 3 (.list (r.found.map Match.json)) := .list (by simp [Match.within_json])
  have error (e : FileError) : Within 1 e.json := .table (by simp [Within.text])
  have errors : Within 3 (.list (r.errors.map FileError.json)) := .list (by simp [(error _).mono])
  simp [Within.int, Within.bool, seeds, found, errors]

theorem mem_seedsFrom {last : Option Int} {found : List Match} {n : Int} (listed : n ∈ seedsFrom last found) :
    ∃ m ∈ found, m.seed = n := by
  induction found generalizing last with
  | nil => cases listed
  | cons m rest ih =>
    have later {last : Option Int} (listed : n ∈ seedsFrom last rest) : ∃ x ∈ m :: rest, x.seed = n := by
      obtain ⟨x, inside, seed⟩ := ih listed
      exact ⟨x, List.mem_cons_of_mem _ inside, seed⟩
    unfold seedsFrom at listed
    split at listed
    · exact later listed
    · rcases List.mem_cons.mp listed with rfl | behind
      · exact ⟨m, List.mem_cons_self, rfl⟩
      · exact later behind

end Report

namespace Criterion

theorem mem_found {cs : List Criterion} {run : List Row} {m : Match} (member : m ∈ found cs run) :
    ∃ r ∈ run, (taker cs r).isSome = true ∧ m.Of r := by
  obtain ⟨t, inside, same⟩ := List.mem_filterMap.mp member
  obtain ⟨here, takes⟩ := row_of_mem_takings inside
  cases object : t.row.object with
  | error f => simp [Taking.match?, object, Except.toOption] at same
  | ok o =>
    simp only [Taking.match?, object, Except.toOption, Option.map_some, Option.some.injEq] at same
    subst same
    exact ⟨t.row, here, takes, rfl, rfl, object, rfl⟩

end Criterion

def Form.Of (r : Row) : Form → Prop
  | .plain | .consumable | .ally _ _ => True
  | .gear e _ | .charm e | .ring e | .staff e | .wand e => r.enchantment = some e
  | .gold amount piles =>
    r.category = .gold ∧ amount = r.quantity ∧ ∃ n : Nat, Row.piles? r.kind = .ok (some n) ∧ piles = n
  | .key opens => opens = r.opensVault

namespace Catalog.Row

variable {r : Row} {o : Object}

theorem knownEnchantment_ok {e : Int} (known : r.knownEnchantment = .ok e) : r.enchantment = some e := by
  unfold knownEnchantment at known
  split at known
  · cases known
    assumption
  · cases known

theorem form_of_describe (described : r.describe = .ok o) : o.form.Of r := by
  have plain (form : Form) (true : form.Of r)
      (described : (do return (⟨r.category, ← r.knownKind, form⟩ : Object)) = Except.ok (ε := Unknown) o) : o.form.Of r := by
    obtain ⟨kind, -, same⟩ := exists_of_bind described
    cases same
    exact true
  have enchanted (form : Int → Form) (true : ∀ e, r.enchantment = some e → (form e).Of r)
      (described : (do return (⟨r.category, ← r.knownKind, form (← r.knownEnchantment)⟩ : Object)) = .ok o) :
      o.form.Of r := by
    obtain ⟨kind, -, rest⟩ := exists_of_bind described
    obtain ⟨e, known, same⟩ := exists_of_bind rest
    cases same
    exact true e (knownEnchantment_ok known)
  have gear (described : (do
      let runic ← requireOpt (Vocabulary.runics r.category) r.runic (.unknownRunic r.category r.runic)
      let kind ← r.knownKind
      return (⟨r.category, kind, .gear (← r.knownEnchantment) runic⟩ : Object)) = .ok o) : o.form.Of r := by
    obtain ⟨runic, -, rest⟩ := exists_of_bind described
    exact enchanted (.gear · runic) (fun e known => known) rest
  have ally (described : (do
      let mutation ← requireOpt Vocabulary.mutations r.mutation (.unknownMutation r.mutation)
      let status ← require Vocabulary.allyStatuses r.allyStatus (.unknownStatus r.allyStatus)
      return (⟨r.category, ← r.knownKind, .ally status mutation⟩ : Object)) = .ok o) : o.form.Of r := by
    obtain ⟨mutation, -, rest⟩ := exists_of_bind described
    obtain ⟨status, -, rest⟩ := exists_of_bind rest
    exact plain (.ally status mutation) trivial rest
  unfold describe at described
  split at described
  case h_1 | h_2 => exact gear described
  case h_3 => exact enchanted .charm (fun e known => known) described
  case h_4 => exact enchanted .ring (fun e known => known) described
  case h_5 => exact enchanted .staff (fun e known => known) described
  case h_6 => exact enchanted .wand (fun e known => known) described
  case h_7 | h_8 => exact plain .consumable trivial described
  case h_9 category =>
    unfold gold at described
    split at described
    · cases described
    · cases described
    · rename_i n counted
      cases described
      exact ⟨category, rfl, n, counted, rfl⟩
  case h_10 => exact plain (.key r.opensVault) rfl described
  case h_11 => exact ally described
  case h_12 | h_13 | h_14 | h_15 => exact plain .plain trivial described

theorem describe_of_object (object : r.object = .ok o) : r.describe = .ok o := by
  unfold Row.object at object
  split at object
  · cases object
    assumption
  · cases object
  · cases object

end Catalog.Row

namespace Query

variable {q : Query} {runs : List (List Row)} {feed : Feed Row} {fault : Option Fault} {m : Match}

theorem reap_results {run : List Row} (member : m ∈ (q.reap run).results) :
    m ∈ q.results ∨ ∃ r ∈ run, (taker q.criteria r).isSome = true ∧ m.Of r := by
  unfold reap at member
  split at member
  · exact (List.mem_append.mp member).imp_right mem_found
  · exact Or.inl member

theorem sweep_results (member : m ∈ (q.sweep fault runs).1.results) :
    m ∈ q.results ∨ ∃ run ∈ runs, ∃ r ∈ run, (taker q.criteria r).isSome = true ∧ m.Of r := by
  induction runs generalizing q with
  | nil => exact Or.inl member
  | cons run rest ih =>
    have first (member : m ∈ (q.reap run).results) :
        m ∈ q.results ∨ ∃ x ∈ run :: rest, ∃ r ∈ x, (taker q.criteria r).isSome = true ∧ m.Of r :=
      (reap_results member).imp_right fun found => ⟨run, List.mem_cons_self, found⟩
    cases rest with
    | nil =>
      unfold sweep at member
      split at member
      · exact Or.inl member
      · exact first member
    | cons next rest =>
      unfold sweep at member
      split at member
      · exact Or.inl member
      · split at member
        · exact first member
        · rcases ih member with before | ⟨x, inside, r, here, takes, told⟩
          · exact first before
          · exact Or.inr ⟨x, List.mem_cons_of_mem _ inside, r, here, reap_criteria ▸ takes, told⟩

theorem scan_results (member : m ∈ (q.scan feed).query.results) : m ∈ q.results ∨
    ∃ r ∈ feed.items, q.inBounds r = true ∧ (∃ c ∈ q.criteria, c.accepts r = true) ∧ m.Of r := by
  obtain ⟨frame, -⟩ := q.scan_agrees feed.items feed.fault
  obtain ⟨-, -, -, results⟩ := alike_iff.mp frame
  rw [show (q.scan feed).query.results = _ from results] at member
  refine (sweep_results member).imp_right ?_
  rintro ⟨run, inside, r, here, takes, told⟩
  obtain ⟨item, bounds⟩ := mem_runs inside here
  exact ⟨r, item, bounds, taker_isSome.mp takes, told⟩

end Query

namespace Search

variable {read : Path → Except Refusal (Feed Row)} {limits : Limits} {criteria : List Criterion} {stop : Bool}
  {paths : List Path} {m : Match}

def Sourced (read : Path → Except Refusal (Feed Row)) (limits : Limits) (criteria : List Criterion)
    (paths : List Path) (m : Match) : Prop :=
  ∃ path ∈ paths, ∃ feed, read path = .ok feed ∧ ∃ r ∈ feed.items,
    (Query.ofCriteria limits criteria).inBounds r = true ∧ (∃ c ∈ criteria, c.accepts r = true) ∧ m.Of r

theorem run_sourced (member : m ∈ (run read stop (fresh limits criteria) paths).1.query.results) :
    Sourced read limits criteria paths m := by
  have kept : ∀ q : Query, ∀ path ∈ paths,
      (q.limits = limits ∧ q.criteria = criteria ∧ ∀ m ∈ q.results, Sourced read limits criteria paths m) →
      (q.scanFile path (read path)).query.limits = limits ∧ (q.scanFile path (read path)).query.criteria = criteria ∧
        ∀ m ∈ (q.scanFile path (read path)).query.results, Sourced read limits criteria paths m := by
    rintro q path inside ⟨rfl, rfl, sourced⟩
    obtain ⟨sameLimits, sameCriteria⟩ := q.scanFile_frame path (read path)
    refine ⟨sameLimits, sameCriteria, fun m member => ?_⟩
    cases opened : read path with
    | error refusal =>
      rw [opened] at member
      exact sourced m member
    | ok feed =>
      rw [opened] at member
      rcases Query.scan_results member with before | ⟨r, item, bounds, accepted, told⟩
      · exact sourced m before
      · exact ⟨path, inside, feed, opened, r, item, bounds, accepted, told⟩
  exact (run_keeps kept ⟨rfl, Query.ofCriteria_criteria, by simp [fresh, Query.ofCriteria]⟩).2.2 m member

end Search

theorem Node.rows_writable {tree : Node} {e : Encoding} {path : Path} {feed : Feed Row} {r : Row}
    (opened : tree.rows e path = .ok feed) (member : r ∈ feed.items) : r.Writable := by
  obtain ⟨octets, text, broken, -, -, rfl⟩ := Node.rows_lines opened
  obtain ⟨n, -, k, fields, -, read⟩ := Catalog.rowAt_of_mem member
  exact (Catalog.Row.row_of_ofFields read).1

-- Of a row that a catalog can hold, only the piles of gold can be a number that
-- does not fit.
theorem Match.Of.ints {r : Row} {m : Match} (told : m.Of r) (writable : r.Writable) :
    ∀ n ∈ m.json.ints, Fits n ∨ ∃ amount, m.object.form = .gold amount n := by
  have seed := writable.seed
  have depth := writable.depth
  have quantity := writable.quantity
  have vault : ∀ n ∈ r.vault, Fits n := fun n given => by
    have bounds := writable.vault n given
    exact ⟨by omega, by omega⟩
  have opensVault : ∀ n ∈ r.opensVault, Fits n := fun n given => by
    have bounds := writable.opensVault n given
    exact ⟨by omega, by omega⟩
  have enchantment : ∀ n ∈ r.enchantment, Fits n := fun n given => by
    have bounds := writable.enchantment n given
    exact ⟨by omega, by omega⟩
  have form := Catalog.Row.form_of_describe (Catalog.Row.describe_of_object told.object)
  intro n member
  rw [Match.ints_json, told.seed, told.depth, told.vault, Object.ints_json] at member
  rcases List.mem_cons.mp member with rfl | member
  · exact Or.inl ⟨by omega, by omega⟩
  rcases List.mem_cons.mp member with rfl | member
  · exact Or.inl ⟨by omega, by omega⟩
  rcases List.mem_append.mp member with inside | placed
  · generalize m.object.form = shape at form inside
    cases shape with
    | plain | consumable | ally => cases inside
    | gear e | charm e | ring e | staff e | wand e =>
      obtain rfl := List.mem_singleton.mp inside
      exact Or.inl (enchantment n form)
    | key opens =>
      obtain rfl : opens = r.opensVault := form
      exact Or.inl (opensVault n (by simpa using inside))
    | gold amount piles =>
      obtain ⟨-, rfl, -⟩ := form
      rcases List.mem_cons.mp inside with rfl | last
      · exact Or.inl ⟨by omega, by omega⟩
      · obtain rfl := List.mem_singleton.mp last
        exact Or.inr ⟨_, rfl⟩
  · exact Or.inl (vault n (by simpa using placed))

namespace Report

-- The two numbers that nothing in a search holds within bounds: how many files
-- were gone through and how many piles some gold is said to be in.
def Bounded (r : Report) : Prop :=
  Fits r.filesScanned ∧ ∀ m ∈ r.found, ∀ amount piles, m.object.form = .gold amount piles → Fits piles

theorem pretty_of_fits {r : Report} (fits : ∀ n ∈ r.json.ints, Fits n) : r.json.pretty? = .ok (r.json.pretty "") := by
  rw [r.within_json.pretty (by decide), Json.overflow_eq_none_iff.mpr fits]

theorem pretty_of_not_fits {r : Report} (broken : ¬ ∀ n ∈ r.json.ints, Fits n) : r.json.pretty? = .error .overflow := by
  have flawed : Json.overflow? r.json.ints = some .overflow := by
    rw [Json.overflow?, if_neg]
    simpa using broken
  rw [r.within_json.pretty (by decide), flawed]

end Report

namespace Search

variable {tree : Node} {e : Encoding} {given : Limits.Given} {limits : Limits} {criteria : List Criterion} {stop : Bool}
  {paths : List Path} {after : Search}

def Heaped (limits : Limits) (criteria : List Criterion) (r : Row) : Prop :=
  (Query.ofCriteria limits criteria).inBounds r = true ∧ (∃ c ∈ criteria, c.accepts r = true) ∧
    r.category = .gold ∧ ∃ piles : Nat, Row.piles? r.kind = .ok (some piles) ∧ ¬ Fits piles

theorem report_ints (built : Limits.build given = .ok limits)
    (ran : run (tree.rows e) stop (fresh limits criteria) paths = (after, none)) :
    ∀ n ∈ after.report.json.ints, Fits n ∨ n = after.report.filesScanned ∨
      ∃ m ∈ after.report.found, ∃ amount, m.object.form = .gold amount n := by
  obtain ⟨low, high⟩ := Limits.matchesMax_bounds built
  have whole := (run_passes (tree.rows e) stop (fresh limits criteria) paths).whole (whole_fresh (by omega) criteria)
  have sourced (m : Match) : m ∈ (run (tree.rows e) stop (fresh limits criteria) paths).1.query.results →
      Sourced (tree.rows e) limits criteria paths m := run_sourced
  rw [ran] at whole sourced
  have target : after.report.target = limits.matchesMax := by
    rw [← whole.bounds]
    rfl
  have successes : after.report.successes ≤ limits.matchesMax := whole.atMost
  have positive : 0 ≤ after.report.successes := Int.natCast_nonneg _
  have each : ∀ m ∈ after.report.found, ∀ n ∈ m.json.ints, Fits n ∨ ∃ amount, m.object.form = .gold amount n := by
    intro m member
    obtain ⟨path, -, feed, opened, r, item, -, -, told⟩ := sourced m member
    exact told.ints (Node.rows_writable opened item)
  intro n member
  rw [Report.ints_json] at member
  rcases List.mem_cons.mp member with rfl | member
  · exact Or.inl ⟨by omega, by omega⟩
  rcases List.mem_cons.mp member with rfl | member
  · exact Or.inl ⟨by omega, by omega⟩
  rcases List.mem_cons.mp member with rfl | member
  · exact Or.inr (Or.inl rfl)
  rcases List.mem_append.mp member with listed | inside
  · obtain ⟨m, inside, rfl⟩ := Report.mem_seedsFrom listed
    obtain ⟨path, -, feed, opened, r, item, -, -, told⟩ := sourced m inside
    have bounds := (Node.rows_writable opened item).seed
    rw [told.seed]
    exact Or.inl ⟨by omega, by omega⟩
  · obtain ⟨m, member, inside⟩ := List.mem_flatMap.mp inside
    rcases each m member n inside with fits | ⟨amount, gold⟩
    · exact Or.inl fits
    · exact Or.inr (Or.inr ⟨m, member, amount, gold⟩)

theorem fits_iff_bounded (built : Limits.build given = .ok limits)
    (ran : run (tree.rows e) stop (fresh limits criteria) paths = (after, none)) :
    (∀ n ∈ after.report.json.ints, Fits n) ↔ after.report.Bounded := by
  constructor
  · intro fits
    rw [Report.ints_json] at fits
    refine ⟨fits _ (by simp), fun m member amount piles gold => fits _ ?_⟩
    have inside : piles ∈ m.json.ints := by simp [Match.ints_json, Object.ints_json, gold]
    simp only [List.mem_cons, List.mem_append, List.mem_flatMap]
    exact Or.inr (Or.inr (Or.inr (Or.inr ⟨m, member, inside⟩)))
  · rintro ⟨visited, piles⟩ n member
    rcases report_ints built ran n member with fits | rfl | ⟨m, inside, amount, gold⟩
    · exact fits
    · exact visited
    · exact piles m inside amount n gold

theorem bounded_of_light (few : Fits paths.length)
    (light : ∀ path ∈ paths, ∀ feed, tree.rows e path = .ok feed → ∀ r ∈ feed.items, ¬ Heaped limits criteria r)
    (ran : run (tree.rows e) stop (fresh limits criteria) paths = (after, none)) : after.report.Bounded := by
  have visited := visited_le (tree.rows e) stop (fresh limits criteria) paths
  have sourced (m : Match) : m ∈ (run (tree.rows e) stop (fresh limits criteria) paths).1.query.results →
      Sourced (tree.rows e) limits criteria paths m := run_sourced
  rw [ran] at visited sourced
  refine ⟨?_, fun m member amount piles gold => ?_⟩
  · have count : after.report.filesScanned = after.visited := rfl
    have most : after.visited ≤ 0 + paths.length := visited
    have limit := few.2
    exact ⟨by omega, by omega⟩
  · obtain ⟨path, inside, feed, opened, r, item, bounds, accepted, told⟩ := sourced m member
    have form := Catalog.Row.form_of_describe (Catalog.Row.describe_of_object told.object)
    rw [gold] at form
    obtain ⟨category, -, n, counted, rfl⟩ := form
    apply Classical.byContradiction
    intro heavy
    exact light path inside feed opened r item ⟨bounds, accepted, category, n, counted, heavy⟩

-- A report that a search returns is written as JSON unless some gold in it is in
-- too many piles, or the files are too many; all its other integers fit. The
-- command line has no exit for such a report. Names of files, which may keep a
-- report from being JSON as well, are Unicode text throughout.
theorem run_prints_unless_heaped (built : Limits.build given = .ok limits) (criteria : List Criterion) (stop : Bool)
    (tree : Node) (e : Encoding) (paths : List Path) (after : Search)
    (ran : run (tree.rows e) stop (fresh limits criteria) paths = (after, none)) :
    (∀ n ∈ after.report.json.ints, Fits n ∨ n = after.report.filesScanned ∨
      ∃ m ∈ after.report.found, ∃ amount, m.object.form = .gold amount n) ∧
    (after.report.Bounded → after.report.json.pretty? = .ok (after.report.json.pretty "")) ∧
    (¬ after.report.Bounded → after.report.json.pretty? = .error .overflow) ∧
    (Fits paths.length →
      (∀ path ∈ paths, ∀ feed, tree.rows e path = .ok feed → ∀ r ∈ feed.items, ¬ Heaped limits criteria r) →
      after.report.Bounded) ∧
    ∀ (a : CommandLine.Arguments) (s : Settings) (logging : Log.Logging) (err : List CommandLine.Chunk),
      a.json = true → (a.stopOnError || s.stopOnError) = stop →
      ((∃ o, CommandLine.Run.search a s tree limits criteria logging err paths e = .exit o) ↔ after.report.Bounded) := by
  have fits := fits_iff_bounded built ran
  have prints : after.report.Bounded → after.report.json.pretty? = .ok (after.report.json.pretty "") :=
    fun bounded => Report.pretty_of_fits (fits.mpr bounded)
  have overflows : ¬ after.report.Bounded → after.report.json.pretty? = .error .overflow :=
    fun unbounded => Report.pretty_of_not_fits (mt fits.mp unbounded)
  refine ⟨report_ints built ran, prints, overflows, fun few light => bounded_of_light few light ran, ?_⟩
  rintro a s logging err json rfl
  unfold fresh at ran
  unfold CommandLine.Run.search
  simp only [ran, json, if_true]
  by_cases bounded : after.report.Bounded
  · simp [prints bounded, bounded]
  · simp [overflows bounded, bounded]

-- One pile more than a report can say.
def heapTree : Node :=
  .folder true [("a", .file (Encoding.Utf8.encode
    "dungeon_version,seed,depth,,,,,,,,,,\nCE,1,1,5,gold,gold pieces (18446744073709551616 piles),,,,,,,\n".toList))]

def heap : Match :=
  { seed := 1, depth := 1, object := ⟨.gold, "gold pieces (18446744073709551616 piles)", .gold 5 18446744073709551616⟩,
    outcome := .increment }

theorem run_overflows_at_heap :
    ∃ after, run (heapTree.rows .utf8) false (fresh {} fives) [{ parts := ["a"] }] = (after, none) ∧
      after.report.json.pretty? = .error .overflow ∧
      ∀ logging err o, CommandLine.Run.search { json := true } {} heapTree {} fives logging err [{ parts := ["a"] }] .utf8 ≠ .exit o := by
  have facts : (run (heapTree.rows .utf8) false (fresh {} fives) [{ parts := ["a"] }]).2 = none ∧
      (run (heapTree.rows .utf8) false (fresh {} fives) [{ parts := ["a"] }]).1.report.found = [heap] := by
    decide +kernel
  cases ran : run (heapTree.rows .utf8) false (fresh {} fives) [{ parts := ["a"] }] with
  | mk after ending =>
    rw [ran] at facts
    obtain ⟨rfl, found⟩ := facts
    obtain ⟨-, -, overflows, -, exits⟩ :=
      run_prints_unless_heaped (rfl : Limits.build {} = .ok {}) fives false heapTree .utf8 _ after ran
    have unbounded : ¬ after.report.Bounded := by
      rintro ⟨-, piles⟩
      have fits : Fits 18446744073709551616 := piles heap (by rw [found]; exact List.mem_singleton_self _) 5 _ rfl
      exact absurd fits (by decide)
    refine ⟨after, rfl, overflows unbounded, fun logging err o exit => ?_⟩
    exact unbounded ((exits { json := true } {} logging err rfl rfl).mp ⟨o, exit⟩)
end Search

end SeedSearch
