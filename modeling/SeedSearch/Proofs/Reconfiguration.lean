import SeedSearch.Log.Draft
import SeedSearch.Proofs.JsonIntegers
import SeedSearch.Proofs.LoggerTree

namespace SeedSearch.Log

def Names (word : String) (level : Int) : Prop := (upper word, level) ∈ Draft.levels

instance (word : String) (level : Int) : Decidable (Names word level) := inferInstanceAs (Decidable (_ ∈ _))

theorem Names.read {word : String} {level : Int} (named : Names word level) (otherwise : Int) :
    levelOr otherwise word = .ok level := by
  simp only [Names, Draft.levels, List.mem_cons, List.not_mem_nil, or_false, Prod.mk.injEq] at named
  rcases named with ⟨w, rfl⟩ | ⟨w, rfl⟩ | ⟨w, rfl⟩ | ⟨w, rfl⟩ | ⟨w, rfl⟩ | ⟨w, rfl⟩ | ⟨w, rfl⟩ | ⟨w, rfl⟩
  all_goals simp only [levelOr, w]

theorem Names.unique {word : String} {level other : Int} (named : Names word level) (again : Names word other) :
    other = level := Except.ok.inj ((again.read 0).symm.trans (named.read 0))

structure Call where
  level : String
  json : Bool
  stream : Option Stream
  overrides : List (String × String)
  deriving DecidableEq, Repr

namespace Call

def target (c : Call) : Nat := Stream.chosen c.stream

def handler (c : Call) : Handler := ⟨c.target, if c.json then .json else .plain⟩

def line (c : Call) (r : Record) : Line := if c.json then .json r else .plain r.plain

structure Proper (c : Call) : Prop where
  level : ∃ level, Names c.level level
  below : ∀ o ∈ c.overrides, Logging.isRoot o.1 = false
  levels : ∀ o ∈ c.overrides, ∃ level, Names o.2 level

end Call

inductive Act where
  | configure (call : Call)
  | say (record : Record)

def overridesOf (acts : List Act) : List (String × String) :=
  acts.flatMap fun
    | .configure c => c.overrides
    | .say _ => []

theorem overridesOf_configure (c : Call) (rest : List Act) :
    overridesOf (.configure c :: rest) = c.overrides ++ overridesOf rest := rfl

theorem names_of_override {acts : List Act} (proper : ∀ c, .configure c ∈ acts → c.Proper) {o : String × String}
    (member : o ∈ overridesOf acts) : ∃ level, Names o.2 level := by
  obtain ⟨act, inside, part⟩ := List.mem_flatMap.mp member
  cases act with
  | configure c => exact (proper c inside).levels o part
  | say r => cases part

def Overridden (acts : List Act) (logger : String) : Prop := ∃ word, (logger, word) ∈ overridesOf acts

def Latest (acts : List Act) (logger : String) (level : Int) : Prop :=
  ∃ before word after, overridesOf acts = before ++ (logger, word) :: after ∧
    (∀ o ∈ after, o.1 ≠ logger) ∧ Names word level

-- The level that counts for a logger: the one that was given last to the nearest
-- logger above it that has one, which is the one of the longest name, or else
-- the root's.
inductive Effective (acts : List Act) (call : Call) (logger : String) : Int → Prop where
  | override {above : String} {level : Int} (up : Above above logger) (latest : Latest acts above level)
      (given : level ≠ 0)
      (nearest : ∀ nearer other, Above nearer logger → above.length < nearer.length →
        Latest acts nearer other → other = 0) :
      Effective acts call logger level
  | root {level : Int} (named : Names call.level level)
      (unset : ∀ above other, Above above logger → Latest acts above other → other = 0) :
      Effective acts call logger level

namespace Record

structure Sayable (r : Record) (json : Bool) : Prop where
  own : ∀ e ∈ r.extras, e.1 ∉ reserved
  heard : ∀ e ∈ r.extras, e.1 ≠ "getMessage"
  held : json = true → (Json.table (r.members "")).flaw? = none

structure Ordinary (r : Record) : Prop where
  own : ∀ e ∈ r.extras, e.1 ∉ reserved
  heard : ∀ e ∈ r.extras, e.1 ≠ "getMessage"
  whole : r.torn = none
  named : ∃ name, r.name = .text name
  titled : ∃ title, r.title = .text title
  small : ∀ e ∈ r.extras, (∃ s, e.2 = .text s) ∨ ∃ n, e.2 = .int n ∧ Json.Fits n

theorem Ordinary.member {r : Record} (ordinary : r.Ordinary) {m : String × Json} (member : m ∈ r.members "") :
    (∃ s, m.2 = .text s) ∨ ∃ n, m.2 = .int n ∧ Json.Fits n := by
  obtain ⟨name, named⟩ := ordinary.named
  obtain ⟨title, titled⟩ := ordinary.titled
  rcases mem_members ordinary.whole named titled member with text | ⟨e, extra, value⟩
  · exact Or.inl text
  · rw [value]
    rcases ordinary.small e extra with ⟨s, text⟩ | ⟨n, int, fits⟩
    · rw [text]
      exact Or.inl ⟨_, rfl⟩
    · rw [int]
      exact Or.inr ⟨n, rfl, fits⟩

theorem Ordinary.sayable {r : Record} (ordinary : r.Ordinary) (json : Bool) : r.Sayable json := by
  refine ⟨ordinary.own, ordinary.heard, fun _ => ?_⟩
  have within : (Json.table (r.members "")).Within 1 := by
    refine .table fun m member => ?_
    rcases ordinary.member member with ⟨s, text⟩ | ⟨n, int, -⟩
    · exact text ▸ .text
    · exact int ▸ .int
  rw [Json.flaw?, (within.mono (by decide)).flaw, Json.overflow_eq_none_iff]
  intro n inside
  rw [Json.ints, Json.intsOfMembers_eq] at inside
  obtain ⟨m, member, part⟩ := List.mem_flatMap.mp inside
  rcases ordinary.member member with ⟨s, text⟩ | ⟨k, int, fits⟩
  · simp [text, Json.ints] at part
  · rw [int, Json.ints] at part
    exact List.mem_singleton.mp part ▸ fits

end Record

namespace Logging

def apply (l : Logging) (c : Call) : Logging × Option Unfit := l.configure c.level c.json c.stream c.overrides

def take (l : Logging) : Act → Logging × List (Nat × Line)
  | .configure c => ((l.apply c).1, [])
  | .say r => ((l.say r).1, (l.say r).2.toOption.getD [])

def run (l : Logging) : List Act → Logging × List (Nat × Line)
  | [] => (l, [])
  | act :: rest => (((l.take act).1.run rest).1, (l.take act).2 ++ ((l.take act).1.run rest).2)

variable {l : Logging} {acts before : List Act} {call : Call} {said : List Record} {logger : String}
  {overrides : List (String × String)} {r : Record}

theorem run_append (l : Logging) (first second : List Act) :
    l.run (first ++ second) =
      (((l.run first).1.run second).1, (l.run first).2 ++ ((l.run first).1.run second).2) := by
  induction first generalizing l with
  | nil => rfl
  | cons act rest ih => simp only [List.cons_append, run, ih, List.append_assoc]

theorem say_state (l : Logging) (r : Record) : ∃ logger level, (l.say r).1 = (l.get logger).remember logger level :=
  ⟨_, _, rfl⟩

theorem say_fields (l : Logging) (r : Record) : (l.say r).1.rootLevel = l.rootLevel ∧
    (l.say r).1.handlers = l.handlers ∧ (l.say r).1.levels = l.levels := by
  obtain ⟨logger, level, state⟩ := say_state l r
  obtain ⟨root, handlers, levels, -⟩ := get_fields l logger
  rw [state]
  exact ⟨root, handlers, levels⟩

theorem Kept.say (kept : l.Kept) (r : Record) : (l.say r).1.Kept := by
  obtain ⟨logger, level, state⟩ := say_state l r
  exact state ▸ kept.get logger

theorem Sound.say (sound : l.Sound) (kept : l.Kept) (r : Record) : (l.say r).1.Sound := by
  obtain ⟨logger, level, state⟩ := say_state l r
  exact state ▸ (sound.get kept logger).remember (kept.get logger) logger level

def setting (o : String × String) : String × Int := (o.1, (levelOr 20 o.2).toOption.getD 0)

theorem setting_of_named (logger : String) {word : String} {level : Int} (named : Names word level) :
    setting (logger, word) = (logger, level) := by
  rw [setting, named.read 20]
  rfl

theorem override_cons {o : String × String} {rest : List (String × String)} (named : ∃ level, Names o.2 level) :
    l.override (o :: rest) = (l.setLevel o.1 (setting o).2).override rest := by
  obtain ⟨logger, word⟩ := o
  obtain ⟨level, named⟩ := named
  rw [override, named.read 20, setting_of_named logger named]

theorem override_keeps {P : Logging → Prop}
    (step : ∀ l logger level, isRoot logger = false → P l → P (l.setLevel logger level))
    (below : ∀ o ∈ overrides, isRoot o.1 = false) (named : ∀ o ∈ overrides, ∃ level, Names o.2 level) (start : P l) :
    P (l.override overrides).1 ∧ (l.override overrides).2 = none := by
  induction overrides generalizing l with
  | nil => exact ⟨start, rfl⟩
  | cons o rest ih =>
    obtain ⟨first, others⟩ := List.forall_mem_cons.mp below
    obtain ⟨word, words⟩ := List.forall_mem_cons.mp named
    rw [override_cons word]
    exact ih others words (step l o.1 _ first start)

theorem override_levels (below : ∀ o ∈ overrides, isRoot o.1 = false)
    (named : ∀ o ∈ overrides, ∃ level, Names o.2 level) :
    (l.override overrides).1.levels = (overrides.map setting).reverse ++ l.levels := by
  induction overrides generalizing l with
  | nil => rfl
  | cons o rest ih =>
    obtain ⟨first, others⟩ := List.forall_mem_cons.mp below
    obtain ⟨word, words⟩ := List.forall_mem_cons.mp named
    have one : (l.setLevel o.1 (setting o).2).levels = setting o :: l.levels := by
      simp only [setLevel, first]
      rfl
    rw [override_cons word, ih others words, one, List.map_cons, List.reverse_cons, List.append_assoc]
    rfl

def rooted (l : Logging) (c : Call) (level : Int) : Logging :=
  { l with rootLevel := level, handlers := [c.handler], verdicts := [] }

theorem apply_eq (l : Logging) {level : Int} (named : Names call.level level) :
    l.apply call = (l.rooted call level).override call.overrides := by
  have root : isRoot "root" = true := by decide
  rw [apply, configure, named.read 30]
  simp only [setLevel, root, if_true]
  rfl

-- Nothing that was found out about levels before a call is left behind it.
theorem apply_fields (l : Logging) {level : Int} (proper : call.Proper) (named : Names call.level level) :
    ((l.apply call).1.rootLevel = level ∧ (l.apply call).1.handlers = [call.handler] ∧ (l.apply call).1.verdicts = []) ∧
      (l.apply call).2 = none := by
  rw [apply_eq l named]
  refine override_keeps (P := fun m => m.rootLevel = level ∧ m.handlers = [call.handler] ∧ m.verdicts = [])
    (fun m logger _ below fields => ?_) proper.below proper.levels ⟨rfl, rfl, rfl⟩
  simpa only [setLevel, below, Bool.false_eq_true, if_false, get_fields, and_true] using ⟨fields.1, fields.2.1⟩

theorem Sound.apply (l : Logging) (proper : call.Proper) : (l.apply call).1.Sound := by
  obtain ⟨level, named⟩ := proper.level
  intro logger level verdict member
  rw [(apply_fields l proper named).1.2.2] at member
  cases member

theorem Kept.apply (kept : l.Kept) (proper : call.Proper) : (l.apply call).1.Kept := by
  obtain ⟨level, named⟩ := proper.level
  rw [apply_eq l named]
  have start : (l.rooted call level).Kept := kept
  exact (override_keeps (P := Kept) (fun m logger level below kept => kept.setLevel below level) proper.below
    proper.levels start).1

theorem apply_levels (l : Logging) (proper : call.Proper) :
    (l.apply call).1.levels = (call.overrides.map setting).reverse ++ l.levels := by
  obtain ⟨level, named⟩ := proper.level
  rw [apply_eq l named, override_levels proper.below proper.levels]
  rfl

theorem Kept.run (kept : l.Kept) (proper : ∀ c, .configure c ∈ acts → c.Proper) : (l.run acts).1.Kept := by
  induction acts generalizing l with
  | nil => exact kept
  | cons act rest ih =>
    have later : ∀ c, .configure c ∈ rest → c.Proper := fun c member => proper c (List.mem_cons_of_mem _ member)
    cases act with
    | say r => simpa only [Logging.run, take] using ih (kept.say r) later
    | configure c => simpa only [Logging.run, take] using ih (kept.apply (proper c List.mem_cons_self)) later

-- The levels of single loggers are those at the start with all overrides in
-- front, the latest first.
theorem run_levels (proper : ∀ c, .configure c ∈ acts → c.Proper) :
    (l.run acts).1.levels = ((overridesOf acts).map setting).reverse ++ l.levels := by
  induction acts generalizing l with
  | nil => rfl
  | cons act rest ih =>
    have later : ∀ c, .configure c ∈ rest → c.Proper := fun c member => proper c (List.mem_cons_of_mem _ member)
    cases act with
    | say r => exact (ih later).trans (by rw [take, (say_fields l r).2.2]; rfl)
    | configure c =>
      rw [run, ih later, take, apply_levels l (proper c List.mem_cons_self), overridesOf_configure,
        List.map_append, List.reverse_append, List.append_assoc]

structure Settled (call : Call) (level : Int) (l : Logging) : Prop where
  root : l.rootLevel = level
  handlers : l.handlers = [call.handler]
  kept : l.Kept
  sound : l.Sound

theorem Settled.says {level : Int} (settled : Settled call level l) (said : List Record) :
    Settled call level (l.run (said.map .say)).1 := by
  induction said generalizing l with
  | nil => exact settled
  | cons r rest ih =>
    obtain ⟨root, handlers, -⟩ := say_fields l r
    exact ih ⟨root.trans settled.root, handlers.trans settled.handlers, settled.kept.say r,
      settled.sound.say settled.kept r⟩

-- A new logger has found nothing out, and what it is let through by does not
-- change for the others.
theorem Settled.isEnabled_get {level limit : Int} (settled : Settled call level l) (below : isRoot logger = false)
    (regular : Regular (l.levelOf · ≠ 0) logger) :
    (l.get logger).isEnabled logger limit = decide (0 < limit ∧ l.effectiveLevel logger ≤ limit) := by
  obtain ⟨root, -, levels, -⟩ := get_fields l logger
  have still : Regular ((l.get logger).levelOf · ≠ 0) logger := by simpa only [levelOf_get] using regular
  rw [isEnabled_eq (settled.sound.get settled.kept logger) below still,
    effectiveLevel_congr settled.kept (settled.kept.get logger) levels root regular below]

theorem run_settled {level : Int} (kept : l.Kept) (history : acts = before ++ .configure call :: said.map .say)
    (proper : ∀ c, .configure c ∈ acts → c.Proper) (named : Names call.level level) :
    Settled call level (l.run acts).1 := by
  subst history
  have ofCall : call.Proper := proper call (by simp)
  have start : (l.run before).1.Kept := kept.run fun c member => proper c (List.mem_append_left _ member)
  obtain ⟨⟨root, handlers, -⟩, -⟩ := apply_fields (l.run before).1 ofCall named
  have settled : Settled call level ((l.run before).1.apply call).1 :=
    ⟨root, handlers, start.apply ofCall, Sound.apply _ ofCall⟩
  simpa only [run_append, run, take] using settled.says said

theorem levelOf_of_latest {level : Int} (proper : ∀ c, .configure c ∈ acts → c.Proper)
    (latest : Latest acts logger level) : (l.run acts).1.levelOf logger = level := by
  obtain ⟨front, word, after, overrides, last, named⟩ := latest
  have unset : ((after.map setting).reverse).lookup logger = none := by
    refine List.lookup_eq_none_iff.mpr fun entry member => ?_
    obtain ⟨o, inside, rfl⟩ := List.mem_map.mp (List.mem_reverse.mp member)
    exact bne_iff_ne.mpr (last o inside).symm
  rw [Logging.levelOf, run_levels proper, overrides, List.map_append, List.map_cons, setting_of_named logger named,
    List.reverse_append, List.reverse_cons, List.append_assoc, List.append_assoc, List.lookup_append, unset]
  simp

theorem latest_of_levelOf (proper : ∀ c, .configure c ∈ acts → c.Proper) (silent : l.levelOf logger = 0)
    (given : (l.run acts).1.levelOf logger ≠ 0) : Latest acts logger ((l.run acts).1.levelOf logger) := by
  rw [Logging.levelOf, run_levels proper, List.lookup_append] at given ⊢
  cases found : (((overridesOf acts).map setting).reverse).lookup logger with
  | none => exact absurd silent (by simpa [found, Logging.levelOf] using given)
  | some level =>
    obtain ⟨later, earlier, entries, others⟩ := List.lookup_eq_some_iff.mp found
    rw [List.reverse_eq_iff, List.reverse_append, List.reverse_cons, List.append_assoc] at entries
    obtain ⟨front, back, overrides, -, tail⟩ := List.map_eq_append_iff.mp entries
    obtain ⟨⟨name, word⟩, after, rfl, entry, rest⟩ := List.map_eq_cons_iff.mp tail
    obtain ⟨own, named⟩ := names_of_override proper
      (overrides ▸ List.mem_append_right _ List.mem_cons_self : (name, word) ∈ overridesOf acts)
    rw [setting_of_named name named] at entry
    obtain ⟨rfl, rfl⟩ := Prod.mk.inj entry
    refine ⟨front, word, after, overrides, fun o member => ?_, named⟩
    have entries : after.map setting = later.reverse := rest
    have entry : setting o ∈ later.reverse := entries ▸ List.mem_map_of_mem member
    exact (bne_iff_ne.mp (others _ (List.mem_reverse.mp entry))).symm

theorem regular_of_overridden (proper : ∀ c, .configure c ∈ acts → c.Proper) (silent : ∀ logger, l.levelOf logger = 0)
    (regular : Regular (Overridden acts) logger) : Regular ((l.run acts).1.levelOf · ≠ 0) logger := by
  refine regular.mono fun above given => ?_
  obtain ⟨front, word, after, overrides, -⟩ := latest_of_levelOf proper (silent above) given
  exact ⟨word, overrides ▸ List.mem_append_right front List.mem_cons_self⟩

-- Of two loggers above a third one, the longer name is the nearer one.
theorem above_eq_of_length {one two : String} (first : Above one logger) (second : Above two logger)
    (same : one.length = two.length) : one = two := by
  have start : ∀ {above : String}, Above above logger → above.toList <+: logger.toList := by
    intro above up
    rcases up with rfl | ⟨rest, rfl⟩
    · exact List.prefix_rfl
    · exact ⟨("." ++ rest).toList, by simp⟩
  rw [← String.toList_inj, (List.prefix_iff_eq_take.mp (start first)),
    (List.prefix_iff_eq_take.mp (start second)), String.length_toList, String.length_toList, same]

-- What counts for a logger does not depend on how the loggers are gone through.
theorem effective_iff (silent : ∀ logger, l.levelOf logger = 0)
    (history : acts = before ++ .configure call :: said.map .say)
    (proper : ∀ c, .configure c ∈ acts → c.Proper) (below : isRoot logger = false)
    (regular : Regular (Overridden acts) logger) (level : Int) : Effective acts call logger level ↔ level = (l.run acts).1.effectiveLevel logger := by
  obtain ⟨named, isNamed⟩ := (proper call (by simp [history])).level
  have settled := run_settled (fun logger given => absurd (silent logger) given) history proper isNamed
  have set : ∀ {above}, (l.run acts).1.levelOf above ≠ 0 →
      Latest acts above ((l.run acts).1.levelOf above) := latest_of_levelOf proper (silent _)
  have cases := effectiveLevel_cases settled.kept (regular_of_overridden proper silent regular) below
  constructor
  · intro effective
    cases effective with
    | @override above _ up latest given nearest =>
      have own : (l.run acts).1.levelOf above = level := levelOf_of_latest proper latest
      rcases cases with ⟨zero, -⟩ | ⟨other, higher, present, closer, value⟩
      · exact absurd (own ▸ zero above up) given
      · rcases Nat.lt_trichotomy above.length other.length with longer | same | shorter
        · exact absurd (nearest other _ higher longer (set present)) present
        · rw [value, ← above_eq_of_length up higher same, own]
        · exact absurd (own ▸ closer above up shorter) given
    | root again unset =>
      rcases cases with ⟨-, value⟩ | ⟨other, higher, present, -⟩
      · rw [value, settled.root, isNamed.unique again]
      · exact absurd (unset other _ higher (set present)) present
  · rintro rfl
    rcases cases with ⟨zero, value⟩ | ⟨above, up, present, closer, value⟩
    · rw [value, settled.root]
      exact .root isNamed fun above other up latest => (levelOf_of_latest proper latest).symm.trans (zero above up)
    · rw [value]
      exact .override up (set present) present fun nearer other higher longer latest =>
        (levelOf_of_latest proper latest).symm.trans (closer nearer higher longer)

theorem overwrite_eq_none_iff : r.overwrite? = none ↔ ∀ e ∈ r.extras, e.1 ∉ Record.reserved := by
  simp [Record.overwrite?]

theorem isMute_eq_false_iff : isMute r = false ↔ ∀ e ∈ r.extras, e.1 ≠ "getMessage" := by
  simp [isMute]

theorem line_of_held (held : call.json = true → (Json.table (r.members "")).flaw? = none) :
    line? r call.handler.format = some (call.line r) := by
  cases json : call.json with
  | false => simp [Call.handler, Call.line, json, line?]
  | true => simp [Call.handler, Call.line, json, line?, held json]

theorem held_of_line (line : line? r call.handler.format ≠ none) (json : call.json = true) :
    (Json.table (r.members "")).flaw? = none := by
  simpa [Call.handler, json, line?] using line

theorem emit_eq (handlers : l.handlers = [call.handler]) : l.emit r =
    if isMute r then [] else ((line? r call.handler.format).map (call.target, ·)).toList := by
  have alone : l.writers r = [call.handler] := by simp [writers, handlers]
  rw [emit, alone, List.filterMap_cons]
  cases line? r call.handler.format with
  | none => rfl
  | some line => rfl

theorem emit_sayable (handlers : l.handlers = [call.handler]) (sayable : r.Sayable call.json) :
    l.emit r = [(call.target, call.line r)] := by
  rw [emit_eq handlers, isMute_eq_false_iff.mpr sayable.heard, line_of_held sayable.held]
  rfl

theorem emit_unsayable (handlers : l.handlers = [call.handler]) (own : r.overwrite? = none)
    (unsayable : ¬r.Sayable call.json) : l.emit r = [] := by
  rw [emit_eq handlers]
  split
  · rfl
  · rename_i heard
    have unheld : line? r call.handler.format = none := by
      refine Classical.byContradiction fun line => unsayable ⟨overwrite_eq_none_iff.mp own, ?_, held_of_line line⟩
      exact isMute_eq_false_iff.mp (Bool.not_eq_true _ ▸ heard)
    rw [unheld]
    rfl

theorem say_lines (handlers : l.handlers = [call.handler]) (below : isRoot r.logger = false) :
    ((l.get r.logger).isEnabled r.logger r.level = true → r.Sayable call.json →
      (l.say r).2.toOption.getD [] = [(call.target, call.line r)]) ∧
    ((l.get r.logger).isEnabled r.logger r.level = false ∨ ¬r.Sayable call.json →
      (l.say r).2.toOption.getD [] = []) := by
  have still : (l.get r.logger).handlers = [call.handler] := (get_fields l r.logger).2.1.trans handlers
  simp only [say, below, Bool.false_eq_true, if_false]
  cases (l.get r.logger).isEnabled r.logger r.level with
  | false => exact ⟨nofun, fun _ => rfl⟩
  | true =>
    refine ⟨fun _ sayable => ?_, fun unheard => ?_⟩
    · rw [overwrite_eq_none_iff.mpr sayable.own]
      exact emit_sayable still sayable
    · have unsayable : ¬r.Sayable call.json := unheard.resolve_left nofun
      cases own : r.overwrite? with
      | some o => rfl
      | none => exact emit_unsayable still own unsayable

theorem run_say (l : Logging) (acts : List Act) (r : Record) : (l.run (acts ++ [.say r])).2 =
    (l.run acts).2 ++ ((l.run acts).1.say r).2.toOption.getD [] := by
  rw [run_append]
  simp [run, take]

-- After a change of the loggers, however they were set up before and have been
-- changed since, all that is said goes to the one handler of the last change,
-- once or not at all. On a logger of a regular name it goes there if it is loud
-- enough and can be written.
theorem run_routes (l : Logging) (before : List Act) (said : List Record)
    (silent : ∀ logger, l.levelOf logger = 0) (history : acts = before ++ .configure call :: said.map .say)
    (proper : ∀ c, .configure c ∈ acts → c.Proper) :
    ((l.run before).1.apply call).2 = none ∧ (l.run acts).1.handlers = [call.handler] ∧
      ∀ r : Record, isRoot r.logger = false → 0 < r.level →
        ((l.run (acts ++ [.say r])).2 = (l.run acts).2 ++ [(call.target, call.line r)] ∨
          (l.run (acts ++ [.say r])).2 = (l.run acts).2) ∧
        (¬r.Sayable call.json → (l.run (acts ++ [.say r])).2 = (l.run acts).2) ∧
        (r.Ordinary → r.Sayable call.json) ∧
        (Regular (Overridden acts) r.logger → ∃ threshold, (∀ level, Effective acts call r.logger level ↔ level = threshold) ∧
          (threshold ≤ r.level → r.Sayable call.json →
            (l.run (acts ++ [.say r])).2 = (l.run acts).2 ++ [(call.target, call.line r)]) ∧
          (r.level < threshold → (l.run (acts ++ [.say r])).2 = (l.run acts).2)) := by
  have ofCall : call.Proper := proper call (by simp [history])
  obtain ⟨rootLevel, named⟩ := ofCall.level
  have kept : l.Kept := fun logger given => absurd (silent logger) given
  have settled := run_settled kept history proper named
  refine ⟨(apply_fields _ ofCall named).2, settled.handlers, fun r below positive => ?_⟩
  obtain ⟨written, unwritten⟩ := say_lines (r := r) settled.handlers below
  have once (enabled : ((l.run acts).1.get r.logger).isEnabled r.logger r.level = true) (sayable : r.Sayable call.json) :
      (l.run (acts ++ [.say r])).2 = (l.run acts).2 ++ [(call.target, call.line r)] := by
    rw [run_say, written enabled sayable]
  have never (unheard : ((l.run acts).1.get r.logger).isEnabled r.logger r.level = false ∨ ¬r.Sayable call.json) :
      (l.run (acts ++ [.say r])).2 = (l.run acts).2 := by
    rw [run_say, unwritten unheard, List.append_nil]
  refine ⟨?_, fun unsayable => never (Or.inr unsayable), fun ordinary => ordinary.sayable call.json,
    fun regular => ⟨_, effective_iff silent history proper below regular, fun loud sayable => ?_, fun quiet => ?_⟩⟩
  · by_cases sayable : r.Sayable call.json
    · cases enabled : ((l.run acts).1.get r.logger).isEnabled r.logger r.level with
      | true => exact Or.inl (once enabled sayable)
      | false => exact Or.inr (never (Or.inl enabled))
    · exact Or.inr (never (Or.inr sayable))
  · refine once ?_ sayable
    rw [settled.isEnabled_get below (regular_of_overridden proper silent regular)]
    exact decide_eq_true ⟨positive, loud⟩
  · refine never (Or.inl ?_)
    rw [settled.isEnabled_get below (regular_of_overridden proper silent regular)]
    exact decide_eq_false fun heard => absurd heard.2 (Int.not_le.mpr quiet)

-- A logger that was made quiet stays so when the one below it gives its own
-- level up: `scan.files` falls back on `scan`, and the older handlers are gone.
theorem run_routes_fallback :
    let start : Logging := { handlers := [⟨7, .marked "OLD "⟩, ⟨8, .marked "OLDER "⟩] }
    let call : Call := ⟨"Warning", true, none, [("scan.files", "NotSet")]⟩
    let acts : List Act :=
      [.configure ⟨"info", false, some ⟨1, false⟩, [("scan", "error"), ("scan.files", "debug")]⟩,
        .say { logger := "scan.files", level := 10, message := "opened" }, .configure call]
    let record (level : Int) : Record := { logger := "scan.files", level, message := "read" }
    (start.run (acts ++ [.say (record 40)])).2 = (start.run acts).2 ++ [(2, .json (record 40))] ∧
      (start.run (acts ++ [.say (record 30)])).2 = (start.run acts).2 := by
  intro start call acts record
  have proper : ∀ c, .configure c ∈ acts → c.Proper := by
    intro c member
    simp only [acts, List.mem_cons, Act.configure.injEq, reduceCtorEq, false_or, List.not_mem_nil,
      or_false] at member
    rcases member with rfl | rfl
    · refine ⟨⟨20, by decide +kernel⟩, by decide, List.forall_mem_cons.mpr ⟨⟨40, ?_⟩, ?_⟩⟩
      · decide +kernel
      · exact List.forall_mem_singleton.mpr ⟨10, by decide +kernel⟩
    · exact ⟨⟨30, by decide +kernel⟩, by decide, List.forall_mem_singleton.mpr ⟨0, by decide +kernel⟩⟩
  have apart : ∀ low ∈ ["r", "ro", "roo"], ¬(low ++ ".").toList <+: "scan.files".toList := by decide +kernel
  have regular : Regular (Overridden acts) "scan.files" := ⟨by decide +kernel, fun low short _ => apart low short⟩
  have quiet : Effective acts call "scan.files" 40 := by
    refine .override (Or.inr ⟨"files", by decide +kernel⟩)
      ⟨[], "error", [("scan.files", "debug"), ("scan.files", "NotSet")], rfl, by decide, by decide +kernel⟩
      (by decide) fun nearer other up longer latest => ?_
    rcases up with rfl | behind
    · have given : (start.run acts).1.levelOf "scan.files" = other := levelOf_of_latest proper latest
      exact given.symm.trans (by decide +kernel)
    · have named : nearer ≠ "" := by
        rintro rfl
        exact absurd longer (by decide)
      have only : nearer ∈ ["scan"] := (by decide +kernel : dotted "scan.files" = ["scan"]) ▸ mem_dotted.mpr ⟨named, behind⟩
      rw [List.mem_singleton.mp only] at longer
      exact absurd longer (by decide)
  obtain ⟨-, -, routes⟩ := run_routes start (acts.take 2) [] (fun _ => rfl) rfl proper
  constructor
  · obtain ⟨-, -, ordinary, heard⟩ := routes (record 40) (by decide) (by decide)
    obtain ⟨threshold, effective, written, -⟩ := heard regular
    obtain rfl := (effective 40).mp quiet
    exact written (by decide) (ordinary ⟨nofun, nofun, rfl, ⟨_, rfl⟩, ⟨_, rfl⟩, nofun⟩)
  · obtain ⟨-, -, -, heard⟩ := routes (record 30) (by decide) (by decide)
    obtain ⟨threshold, effective, -, unwritten⟩ := heard regular
    obtain rfl := (effective 40).mp quiet
    exact unwritten (by decide)

-- An extra that takes more than sixty-four bits keeps a record that is loud
-- enough from being written as JSON.
theorem run_drops_huge_extra :
    let call : Call := ⟨"INFO", true, none, []⟩
    let record : Record :=
      { logger := "scan.files", level := 20, message := "read", extras := [("octets", .int 0x10000000000000000)] }
    call.Proper ∧ Effective [.configure call] call record.logger record.level ∧
      (({} : Logging).run [.configure call, .say record]).2 = [] := by
  intro call record
  have named : Names call.level 20 := by decide +kernel
  have proper : call.Proper := ⟨⟨20, named⟩, nofun, nofun⟩
  refine ⟨proper, .root named ?_, ?_⟩
  · intro above other up latest
    obtain ⟨before, word, after, overrides, -⟩ := latest
    simp [overridesOf, call] at overrides
  · have flaw : (Json.table (record.members "")).flaw? = some .overflow := by decide +kernel
    have unsayable : ¬record.Sayable call.json := fun sayable => nomatch flaw.symm.trans (sayable.held rfl)
    have handlers := (apply_fields {} proper named).1.2.1
    simp only [run, take, List.nil_append, List.append_nil]
    exact (say_lines handlers (by decide)).2 (Or.inr unsayable)

end Logging

end SeedSearch.Log
