import SeedSearch.CommandLine.Run
import SeedSearch.Proofs.CatalogHeads
import SeedSearch.Proofs.LimitProblems
import SeedSearch.Proofs.SettingProblems
import SeedSearch.Proofs.VisitedFiles

namespace SeedSearch.CommandLine
open Log

namespace Arguments

-- An option comes before its setting.
def bounds (a : Arguments) (s : Settings) : Limits.Given :=
  { a.limits with matchesMax := a.limits.matchesMax.or (some s.matchesMax) }

def root (a : Arguments) (s : Settings) : Path := a.folder.getD s.dataFolder

def wanted (a : Arguments) (s : Settings) : Encoding := a.encoding.getD s.encoding

def levels (a : Arguments) (s : Settings) : Nat := (a.nesting.getD s.nestingMax).toNat

def stops (a : Arguments) (s : Settings) : Bool := a.stopOnError || s.stopOnError

def setup (a : Arguments) (s : Settings) : Logging × Option Unfit :=
  ({} : Logging).configure (if a.debug then "DEBUG" else s.logLevel) s.logJson none []

def logging (a : Arguments) (s : Settings) : Logging := (a.setup s).1

end Arguments

variable {words : List String} {environment : List (String × String)} {tree other : Node}
  {shuffle : List Path → List Path} {a : Arguments} {o : Output}

inductive Refused (environment : List (String × String)) (tree : Node) (a : Arguments) : Prop where
  | settings {assignments : List EnvFile.Binding} {f : Settings.Field} {text : String}
      (read : Settings.fileAssignments environment tree = .ok assignments)
      (told : Settings.told environment assignments f = some text) (bad : ¬f.Takes text)
  | limits {s : Settings} (loaded : Settings.load [] environment tree = .ok s)
      (bad : (∃ f, (a.bounds s).Strays f) ∨ ∃ r ∈ Limits.Range.all, (a.bounds s).Inverts r)
  | criteria {s : Settings} {limits : Limits} {ps : List TermProblem}
      (loaded : Settings.load [] environment tree = .ok s) (built : Limits.build (a.bounds s) = .ok limits)
      (bad : Criterion.compile a.termsOf limits.depthMax = .error (.problems ps))
  | unasked {s : Settings} {limits : Limits}
      (loaded : Settings.load [] environment tree = .ok s) (built : Limits.build (a.bounds s) = .ok limits)
      (none : Criterion.compile a.termsOf limits.depthMax = .ok [])
  | root {s : Settings} (loaded : Settings.load [] environment tree = .ok s)
      (bad : ∀ entries, tree.resolve (a.root s) ≠ .ok (.folder true entries))

def Barren (environment : List (String × String)) (tree : Node) (a : Arguments) : Prop :=
  ∀ s entries, Settings.load [] environment tree = .ok s → tree.resolve (a.root s) = .ok (.folder true entries) →
    ∀ way content, (Node.folder true entries).Holds (a.levels s) way content →
      ∀ e : Encoding, e.detects content = false

structure Alike (other tree : Node) : Prop where
  heads : other.heads = tree.heads
  settings : other.read Settings.file = tree.read Settings.file

structure Plan where
  settings : Settings
  limits : Limits
  criteria : List Criterion
  discovery : Discovery

namespace Plan

structure Of (environment : List (String × String)) (tree : Node) (a : Arguments) (p : Plan) : Prop where
  loaded : Settings.load [] environment tree = .ok p.settings
  built : Limits.build (a.bounds p.settings) = .ok p.limits
  compiled : Criterion.compile a.termsOf p.limits.depthMax = .ok p.criteria
  asked : p.criteria ≠ []
  discovered : Discovery.run tree (a.root p.settings) (a.wanted p.settings) (a.levels p.settings) = .ok p.discovery

def order (p : Plan) (a : Arguments) (shuffle : List Path → List Path) : List Path :=
  if a.random then shuffle p.discovery.paths else p.discovery.paths

def banner (p : Plan) (a : Arguments) : String :=
  if a.json then ""
  else "\n" ++ Report.title ++ "\n\n" ++
    Report.searchText p.limits p.criteria p.discovery.encoding a.verbosity ++ "\n\n"

end Plan

inductive Prints (a : Arguments) (p : Plan) (after : Search) : Option Fault → Output → Prop where
  | cut {f : Fault} {lines : List Line} :
      Prints a p after (some f) ⟨Run.fileErrors, p.banner a, lines.map .line ++ [Run.complaint f.message]⟩
  | report {lines : List Line} (json : a.json = true) :
      Prints a p after none ⟨if after.errors.isEmpty then Run.success else Run.fileErrors,
        after.report.json.pretty "" ++ "\n", lines.map .line⟩
  | listing {lines : List Line} (text : a.json = false) :
      Prints a p after none ⟨if after.errors.isEmpty then Run.success else Run.fileErrors,
        p.banner a ++ Report.matchText a.verbosity after.report.found ++ "\n",
        lines.map .line ++ if after.errors.isEmpty then [] else [.text (Report.errorText after.errors ++ "\n")]⟩

theorem search_prints {p : Plan} {logging : Logging} {lines : List Line} {paths : List Path}
    (ran : Run.search a p.settings tree p.limits p.criteria logging (lines.map .line) paths p.discovery.encoding =
      .exit o) :
    ∃ after ending, Search.run (tree.rows p.discovery.encoding) (a.stops p.settings)
        (Search.fresh p.limits p.criteria) paths = (after, ending) ∧
      (∀ f, ending = some f → f.ofInput = true) ∧ Prints a p after ending o := by
  cases found : Search.run (tree.rows p.discovery.encoding) (a.stops p.settings)
    (Search.fresh p.limits p.criteria) paths with
  | mk after ending =>
    refine ⟨after, ending, rfl, ?_⟩
    unfold Search.fresh Arguments.stops at found
    obtain ⟨more, logged⟩ : ∃ more : List Line,
        lines.map Chunk.line ++ Run.chunks logging after.notes = more.map .line :=
      ⟨lines ++ _, List.map_append.symm⟩
    simp only [Run.search, found, logged] at ran
    cases ending with
    | some f =>
      cases f with
      | tooLong e => cases ran
      | format e | access r path | decoding e =>
        cases ran
        refine ⟨fun _ same => Option.some.inj same ▸ rfl, ?_⟩
        exact .cut
    | none =>
      refine ⟨nofun, ?_⟩
      cases json : a.json with
      | true =>
        simp only [json, if_true] at ran
        split at ran
        · cases ran
        · rename_i text written
          cases ran
          rw [Json.eq_pretty_of_ok written]
          exact .report json
      | false =>
        simp only [json, Bool.false_eq_true, if_false] at ran
        cases ran
        have banner : p.banner a = "\n" ++ Report.title ++ "\n\n" ++
            Report.searchText p.limits p.criteria p.discovery.encoding a.verbosity ++ "\n\n" := by
          simp [Plan.banner, json]
        rw [← banner]
        exact .listing json

theorem Alike.refl (tree : Node) : Alike tree tree := ⟨rfl, rfl⟩

def EndsEarly (environment : List (String × String)) (tree : Node) (shuffle : List Path → List Path)
    (a : Arguments) (code : Nat) : Prop :=
  ∃ (lines : List Line) (message : String), ∀ other, Alike other tree →
    Run.run environment other shuffle a = Run.refuse code (lines.map .line) message

theorem chunks_lines (logging : Logging) (notes : List Note) :
    ∃ lines : List Line, Run.chunks logging notes = lines.map .line := ⟨_, rfl⟩

theorem run_proceeds (shuffle : List Path → List Path) {s : Settings}
    (loaded : Settings.load [] environment tree = .ok s) (fit : (a.setup s).2 = none) (alike : Alike other tree) :
    Run.run environment other shuffle a = Run.proceed other shuffle a s (a.logging s) := by
  have whole : ({} : Logging).configure (if a.debug then "DEBUG" else s.logLevel) s.logJson none [] =
      (a.logging s, none) := Prod.ext rfl fit
  simp only [Run.run, Settings.load_congr alike.settings, loaded, whole]

theorem run_compiled (shuffle : List Path → List Path) {s : Settings} {limits : Limits} {criteria : List Criterion}
    (loaded : Settings.load [] environment tree = .ok s) (fit : (a.setup s).2 = none) (built : Limits.build (a.bounds s) = .ok limits)
    (compiled : Criterion.compile a.termsOf limits.depthMax = .ok criteria) :
    ∃ lines : List Line, ∀ other, Alike other tree → Run.run environment other shuffle a =
      if criteria.isEmpty then
        Run.refuse Run.invalid (lines.map .line) "no search terms given; pass at least one object flag (see --help)"
      else match Discovery.run tree (a.root s) (a.wanted s) (a.levels s) with
        | .error problem => Run.refuse Run.invalid (lines.map .line) problem.message
        | .ok d =>
          if d.paths.isEmpty then
            Run.refuse Run.noFiles (lines.map .line ++ Run.chunks (a.logging s) d.notes)
              ("no seed catalog files found in " ++ (a.root s).text)
          else Run.search a s other limits criteria (a.logging s) (lines.map .line ++ Run.chunks (a.logging s) d.notes)
            (if a.random then shuffle d.paths else d.paths) d.encoding := by
  obtain ⟨lines, logged⟩ := chunks_lines (a.logging s) [.compiled criteria.length]
  refine ⟨lines, fun other alike => ?_⟩
  unfold Arguments.bounds at built
  rw [run_proceeds shuffle loaded fit alike]
  simp only [Run.proceed, built, compiled, logged, Discovery.run_congr alike.heads]
  rfl

theorem run_asked (shuffle : List Path → List Path) {s : Settings} {limits : Limits} {criteria : List Criterion}
    (loaded : Settings.load [] environment tree = .ok s) (fit : (a.setup s).2 = none) (built : Limits.build (a.bounds s) = .ok limits)
    (compiled : Criterion.compile a.termsOf limits.depthMax = .ok criteria) (asked : criteria ≠ []) :
    (Refused environment tree a ∧ EndsEarly environment tree shuffle a Run.invalid) ∨
    ∃ p : Plan, p.Of environment tree a ∧
      ((p.discovery.paths = [] ∧ EndsEarly environment tree shuffle a Run.noFiles) ∨
      (p.discovery.paths ≠ [] ∧ ∃ logging, ∃ lines : List Line, Run.run environment tree shuffle a =
        Run.search a p.settings tree p.limits p.criteria logging (lines.map .line) (p.order a shuffle)
          p.discovery.encoding)) := by
  obtain ⟨lines, reaches⟩ := run_compiled shuffle loaded fit built compiled
  simp only [List.isEmpty_eq_false_iff.mpr asked, Bool.false_eq_true, if_false] at reaches
  cases discovered : Discovery.run tree (a.root s) (a.wanted s) (a.levels s) with
  | error problem =>
    simp only [discovered] at reaches
    refine Or.inl ⟨.root loaded fun entries listed => ?_, lines, problem.message, reaches⟩
    rcases Discovery.run_error_iff.mp discovered with ⟨-, missing⟩ | ⟨-, inner, locked⟩
    · exact missing true entries listed
    · cases locked.symm.trans listed
  | ok d =>
    obtain ⟨noted, logged⟩ := chunks_lines (a.logging s) d.notes
    simp only [discovered, logged, ← List.map_append] at reaches
    refine Or.inr ⟨⟨s, limits, criteria, d⟩, ⟨loaded, built, compiled, asked, discovered⟩, ?_⟩
    cases found : d.paths.isEmpty with
    | true =>
      simp only [found, if_true] at reaches
      exact Or.inl ⟨List.isEmpty_iff.mp found, _, _, reaches⟩
    | false =>
      simp only [found, Bool.false_eq_true, if_false] at reaches
      exact Or.inr ⟨List.isEmpty_eq_false_iff.mp found, _, _, reaches tree (.refl tree)⟩

-- What may come of a run. Only a search looks into the catalogs.
def Comes (environment : List (String × String)) (tree : Node) (shuffle : List Path → List Path)
    (a : Arguments) : Prop :=
  (∃ e, Run.run environment tree shuffle a = .escape e) ∨
  (Refused environment tree a ∧ EndsEarly environment tree shuffle a Run.invalid) ∨
  ∃ p : Plan, p.Of environment tree a ∧
    ((p.discovery.paths = [] ∧ EndsEarly environment tree shuffle a Run.noFiles) ∨
    (p.discovery.paths ≠ [] ∧ ∃ logging, ∃ lines : List Line, Run.run environment tree shuffle a =
      Run.search a p.settings tree p.limits p.criteria logging (lines.map .line) (p.order a shuffle)
        p.discovery.encoding))

theorem run_loaded (shuffle : List Path → List Path) {s : Settings}
    (loaded : Settings.load [] environment tree = .ok s) (fit : (a.setup s).2 = none) :
    Comes environment tree shuffle a := by
  cases built : Limits.build (a.bounds s) with
  | error ps =>
    have bad := Limits.build_error_iff.mp ⟨ps, built⟩
    refine Or.inr (Or.inl ⟨.limits loaded bad, [], Limits.render ps, fun other alike => ?_⟩)
    unfold Arguments.bounds at built
    rw [run_proceeds shuffle loaded fit alike]
    simp only [Run.proceed, built]
    rfl
  | ok limits =>
    have bounds := built
    unfold Arguments.bounds at bounds
    cases compiled : Criterion.compile a.termsOf limits.depthMax with
    | error bad =>
      cases bad with
      | tooLong e =>
        refine Or.inl ⟨.tooLong e, ?_⟩
        rw [run_proceeds shuffle loaded fit (.refl tree)]
        simp only [Run.proceed, bounds, compiled]
      | problems ps =>
        refine Or.inr (Or.inl ⟨.criteria loaded built compiled, [], CompileError.message (.problems ps), ?_⟩)
        intro other alike
        rw [run_proceeds shuffle loaded fit alike]
        simp only [Run.proceed, bounds, compiled]
        rfl
    | ok criteria =>
      cases criteria with
      | nil =>
        obtain ⟨lines, reaches⟩ := run_compiled shuffle loaded fit built compiled
        exact Or.inr (Or.inl ⟨.unasked loaded built compiled, lines, _, reaches⟩)
      | cons c rest => exact Or.inr (run_asked shuffle loaded fit built compiled (List.cons_ne_nil c rest))

theorem run_cases (environment : List (String × String)) (tree : Node) (shuffle : List Path → List Path)
    (a : Arguments) : Comes environment tree shuffle a := by
  cases loaded : Settings.load [] environment tree with
  | error bad =>
    cases bad with
    | unreadable e => exact Or.inl ⟨.settings e, by simp only [Run.run, loaded]⟩
    | unopened r => exact Or.inl ⟨.unopened r, by simp only [Run.run, loaded]⟩
    | problems ps =>
      obtain ⟨assignments, read, f, text, told, bad⟩ := (Settings.load_problems_iff environment tree).mp ⟨ps, loaded⟩
      refine Or.inr (Or.inl ⟨.settings read told bad, [], Settings.render ps, fun other alike => ?_⟩)
      simp only [Run.run, Settings.load_congr alike.settings, loaded]
      rfl
  | ok s =>
    cases fit : (a.setup s).2 with
    | none => exact run_loaded shuffle loaded fit
    | some u =>
      have whole : ({} : Logging).configure (if a.debug then "DEBUG" else s.logLevel) s.logJson none [] =
          (a.logging s, some u) := Prod.ext rfl fit
      exact Or.inl ⟨.unfit u, by simp only [Run.run, loaded, whole]⟩

theorem EndsEarly.output {code : Nat} (early : EndsEarly environment tree shuffle a code)
    (ran : Run.run environment tree shuffle a = .exit o) :
    o.code = code ∧ o.out = "" ∧
      (∃ (lines : List Line) (message : String),
        o.err = lines.map .line ++ [.text ("Error: " ++ message ++ "\n")]) ∧
      ∀ other, Alike other tree → Run.run environment other shuffle a = .exit o := by
  obtain ⟨lines, message, ended⟩ := early
  cases (ended tree (.refl tree)).symm.trans ran
  exact ⟨rfl, rfl, ⟨lines, message, rfl⟩, ended⟩

theorem Plan.Of.listed {p : Plan} (planned : p.Of environment tree a) :
    ∃ entries, tree.resolve (a.root p.settings) = .ok (.folder true entries) := by
  by_contra unlisted
  have problem : ∃ problem, Discovery.run tree (a.root p.settings) (a.wanted p.settings) (a.levels p.settings) =
      .error problem := by
    by_cases locked : ∃ entries, tree.resolve (a.root p.settings) = .ok (.folder false entries)
    · exact ⟨_, Discovery.run_error_iff.mpr (Or.inr ⟨rfl, locked⟩)⟩
    · refine ⟨_, Discovery.run_error_iff.mpr (Or.inl ⟨rfl, fun listable entries found => ?_⟩)⟩
      cases listable with
      | true => exact unlisted ⟨entries, found⟩
      | false => exact locked ⟨entries, found⟩
  obtain ⟨problem, failed⟩ := problem
  cases failed.symm.trans planned.discovered

theorem Plan.Of.not_refused {p : Plan} (planned : p.Of environment tree a) : ¬Refused environment tree a := by
  intro refused
  cases refused with
  | settings read told bad =>
    obtain ⟨ps, failed⟩ := (Settings.load_problems_iff environment tree).mpr ⟨_, read, _, _, told, bad⟩
    cases planned.loaded.symm.trans failed
  | limits loaded bad =>
    cases planned.loaded.symm.trans loaded
    obtain ⟨ps, failed⟩ := Limits.build_error_iff.mpr bad
    cases planned.built.symm.trans failed
  | criteria loaded built bad =>
    cases planned.loaded.symm.trans loaded
    cases planned.built.symm.trans built
    cases planned.compiled.symm.trans bad
  | unasked loaded built none =>
    cases planned.loaded.symm.trans loaded
    cases planned.built.symm.trans built
    exact planned.asked (Except.ok.inj (planned.compiled.symm.trans none))
  | root loaded bad =>
    cases planned.loaded.symm.trans loaded
    obtain ⟨entries, listed⟩ := planned.listed
    exact bad entries listed

-- Both encodings are tried before no catalog is found.
theorem Plan.Of.barren_iff {p : Plan} (planned : p.Of environment tree a) (distinct : tree.Distinct) :
    Barren environment tree a ↔ p.discovery.paths = [] := by
  obtain ⟨entries, listed⟩ := planned.listed
  obtain ⟨d, ran, finds⟩ := (Discovery.run_finds_catalogs tree distinct (a.root p.settings) (a.wanted p.settings)
    (a.levels p.settings)).2 entries listed
  cases planned.discovered.symm.trans ran
  constructor
  · intro barren
    apply List.eq_nil_iff_forall_not_mem.mpr
    intro path member
    obtain ⟨way, content, -, holds, fits⟩ := (finds.exact path).mp member
    exact Bool.false_ne_true ((barren _ _ planned.loaded listed way content holds _).symm.trans fits)
  · intro none
    have unfit : ∀ way content, (Node.folder true entries).Holds (a.levels p.settings) way content →
        p.discovery.encoding.detects content = false := by
      intro way content holds
      refine Bool.eq_false_iff.mpr fun fits => ?_
      have member := (finds.exact _).mpr ⟨way, content, rfl, holds, fits⟩
      rw [none] at member
      cases member
    have unwanted : ∀ way content, (Node.folder true entries).Holds (a.levels p.settings) way content →
        (a.wanted p.settings).detects content = false := by
      intro way content holds
      refine Bool.eq_false_iff.mpr fun fits => ?_
      have kept := finds.as_wanted ⟨way, content, holds, fits⟩
      exact Bool.false_ne_true ((unfit way content holds).symm.trans (kept ▸ fits))
    have other := finds.otherwise unwanted
    intro s inner loaded found way content holds e
    cases planned.loaded.symm.trans loaded
    cases listed.symm.trans found
    rcases (by cases e <;> cases a.wanted p.settings <;> decide :
      e = a.wanted p.settings ∨ e = (a.wanted p.settings).other) with rfl | rfl
    · exact unwanted way content holds
    · exact other ▸ unfit way content holds

theorem Prints.code_cases {p : Plan} {after : Search} {ending : Option Fault} (prints : Prints a p after ending o) :
    (o.code = Run.success ∧ ending = none ∧ after.errors = []) ∨
      (o.code = Run.fileErrors ∧ (ending ≠ none ∨ after.errors ≠ [])) := by
  cases prints with
  | cut => exact Or.inr ⟨rfl, Or.inl (by simp)⟩
  | report | listing =>
    cases clean : after.errors.isEmpty with
    | true => exact Or.inl ⟨rfl, rfl, List.isEmpty_iff.mp clean⟩
    | false => exact Or.inr ⟨rfl, Or.inr (List.isEmpty_eq_false_iff.mp clean)⟩

structure Searched (a : Arguments) (tree : Node) (shuffle : List Path → List Path) (p : Plan) (o : Output)
    (seen rest : List Path) (after : Search) (ending : Option Fault) : Prop where
  order : p.order a shuffle = seen ++ rest
  visits : Search.Visits (tree.rows p.discovery.encoding) p.limits p.criteria (a.stops p.settings) seen rest
  ran : Search.run (tree.rows p.discovery.encoding) (a.stops p.settings) (Search.fresh p.limits p.criteria)
    (p.order a shuffle) = (after, ending)
  aborted : ending ≠ none ↔ a.stops p.settings = true ∧
    ∃ part ∈ Search.apart (tree.rows p.discovery.encoding) p.limits p.criteria seen, part.Failed
  prints : Prints a p after ending o
  failed : o.code = Run.fileErrors ↔
    ∃ part ∈ Search.apart (tree.rows p.discovery.encoding) p.limits p.criteria seen, part.Failed
  sound : o.code = Run.success ↔
    ∀ part ∈ Search.apart (tree.rows p.discovery.encoding) p.limits p.criteria seen, ¬part.Failed

theorem search_searched {p : Plan} {logging : Logging} {lines : List Line}
    (ran : Run.search a p.settings tree p.limits p.criteria logging (lines.map .line) (p.order a shuffle)
      p.discovery.encoding = .exit o) :
    ∃ seen rest after ending, Searched a tree shuffle p o seen rest after ending := by
  obtain ⟨after, ending, found, input, prints⟩ := search_prints ran
  obtain ⟨seen, rest, order, visits, aborted, recorded⟩ := Search.run_visits _ found input
  have broken : (ending ≠ none ∨ after.errors ≠ []) ↔
      ∃ part ∈ Search.apart (tree.rows p.discovery.encoding) p.limits p.criteria seen, part.Failed := by
    cases ending with
    | some f => exact iff_of_true (Or.inl (by simp)) (aborted.mp (by simp)).2
    | none =>
      have clean := Search.failuresOf_eq_nil_iff (tree.rows p.discovery.encoding) p.limits p.criteria seen
      rw [← recorded rfl] at clean
      simp [clean]
  refine ⟨seen, rest, after, ending, order, visits, found, aborted, prints, ?_, ?_⟩
  · rw [← broken]
    rcases prints.code_cases with ⟨code, whole, clean⟩ | ⟨code, faulty⟩
    · exact iff_of_false (by rw [code]; decide) (by simp [whole, clean])
    · exact iff_of_true code faulty
  · rcases prints.code_cases with ⟨code, whole, clean⟩ | ⟨code, faulty⟩
    · refine iff_of_true code fun part member fails => ?_
      rcases broken.mpr ⟨part, member, fails⟩ with cut | recorded
      · exact cut whole
      · exact recorded clean
    · refine iff_of_false (by rw [code]; decide) fun sound => ?_
      obtain ⟨part, member, fails⟩ := broken.mp faulty
      exact sound part member fails

theorem execute_exit {o : Output} (ran : execute words environment tree shuffle = .exit o) :
    ∃ a, Arguments.read words = .ok (.run a) ∧
      ∀ other, execute words environment other shuffle = Run.run environment other shuffle a := by
  unfold execute at ran
  cases read : Arguments.read words with
  | error e =>
    rw [read] at ran
    cases ran
  | ok request =>
    cases request with
    | help =>
      rw [read] at ran
      cases ran
    | run a => exact ⟨a, rfl, fun other => by rw [execute, read]⟩

def Outcome.code? : CommandLine.Outcome → Option Nat
  | .exit o => some o.code
  | _ => none

def bareTree : Node := .folder true [("c", .folder true [("a.csv", .file [0xff, 0xfe])])]

-- A catalog that cannot be opened is none, and two minus signs that stand behind
-- an option in its word are its value.
example : (execute ["-F", "c", "-g", "1"] [] (.folder true [("c", .folder true [("a.csv", .barred)])]) id).code? = some 2 := by
  decide +kernel

example : (execute ["-F--", "-g", "1"] [] .empty id).code? = some 1 := by decide +kernel

end SeedSearch.CommandLine
