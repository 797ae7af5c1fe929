import SeedSearch.Log.Logging

namespace SeedSearch.Log

def Above (above logger : String) : Prop := above = logger ∨ ∃ rest, logger = above ++ "." ++ rest

-- No two points of the name follow each other, and none of the loggers with a level
-- of their own that stand above it is called by a part that the root's name begins with.
structure Regular (given : String → Prop) (name : String) : Prop where
  spaced : ¬['.', '.'] <:+: name.toList
  apart : ∀ low ∈ ["r", "ro", "roo"], given low → ¬(low ++ ".").toList <+: name.toList

theorem Regular.mono {given fewer : String → Prop} {name : String} (regular : Regular given name)
    (weaker : ∀ above, fewer above → given above) : Regular fewer name :=
  ⟨regular.spaced, fun low short has => regular.apart low short (weaker low has)⟩

namespace Logging

def spell (cs : List Char) : String := String.ofList cs.reverse

def fronts : List Char → List (List Char)
  | '.' :: c :: rest => (c :: rest) :: fronts (c :: rest)
  | _ :: rest => fronts rest
  | [] => []

def dotted (logger : String) : List String := (fronts logger.toList.reverse).map spell

variable {l : Logging} {logger above : String} {level : Int} {cs front : List Char}

theorem mem_fronts : front ∈ fronts cs ↔ front ≠ [] ∧ ∃ behind, cs = behind ++ '.' :: front := by
  fun_induction fronts cs with
  | case1 c rest ih =>
    rw [List.mem_cons, ih]
    constructor
    · intro here
      rcases here with rfl | ⟨some_front, behind, whole⟩
      · exact ⟨List.cons_ne_nil c rest, [], rfl⟩
      · exact ⟨some_front, '.' :: behind, by rw [whole]; rfl⟩
    · intro ⟨some_front, behind, whole⟩
      cases behind with
      | nil => exact Or.inl (List.cons.inj whole).2.symm
      | cons d behind => exact Or.inr ⟨some_front, behind, (List.cons.inj whole).2⟩
  | case2 d rest no_point ih =>
    rw [ih]
    refine and_congr_right fun some_front => ⟨?_, ?_⟩
    · intro ⟨behind, whole⟩
      exact ⟨d :: behind, by rw [whole]; rfl⟩
    · intro ⟨behind, whole⟩
      cases behind with
      | nil =>
        obtain ⟨rfl, rfl⟩ := List.cons.inj whole
        obtain ⟨c, more, rfl⟩ := List.exists_cons_of_ne_nil some_front
        exact absurd rfl (no_point c more rfl)
      | cons e behind => exact ⟨behind, (List.cons.inj whole).2⟩
  | case3 => simp

theorem fronts_shrink (cs : List Char) : (fronts cs).Pairwise fun near far => far.length < near.length := by
  fun_induction fronts cs with
  | case1 c rest ih =>
    refine List.pairwise_cons.mpr ⟨fun front inside => ?_, ih⟩
    obtain ⟨-, behind, whole⟩ := mem_fronts.mp inside
    rw [whole, List.length_append, List.length_cons]
    omega
  | case2 d rest no_point ih => exact ih
  | case3 => exact .nil

theorem mem_dotted : above ∈ dotted logger ↔ above ≠ "" ∧ ∃ rest, logger = above ++ "." ++ rest := by
  rw [dotted, List.mem_map]
  constructor
  · intro ⟨front, inside, same⟩
    obtain ⟨some_front, behind, whole⟩ := mem_fronts.mp inside
    subst same
    refine ⟨by simpa [spell] using some_front, spell behind, ?_⟩
    rw [← String.toList_inj, ← List.reverse_inj, whole]
    simp [spell]
  · intro ⟨some_above, rest, whole⟩
    refine ⟨above.toList.reverse, mem_fronts.mpr ⟨by simpa using some_above, rest.toList.reverse, ?_⟩, by simp [spell]⟩
    rw [whole]
    simp

theorem dotted_shrinks (logger : String) : (logger :: dotted logger).Pairwise fun near far => far.length < near.length := by
  refine List.pairwise_cons.mpr ⟨fun above inside => ?_, ?_⟩
  · obtain ⟨-, rest, whole⟩ := mem_dotted.mp inside
    rw [whole, String.length_append, String.length_append, show ".".length = 1 from rfl]
    omega
  · exact List.pairwise_map.mpr ((fronts_shrink _).imp fun shorter => by simpa [spell] using shorter)

def given (l : Logging) (above : String) : Bool := l.levelOf above ≠ 0

theorem given_iff : l.given above ↔ l.levelOf above ≠ 0 := decide_eq_true_iff

-- Only loggers that exist have a level of their own, and never the root.
def Kept (l : Logging) : Prop :=
  ∀ logger, l.levelOf logger ≠ 0 → isRoot logger = false ∧ l.loggers.contains logger = true

theorem Kept.isAbove (kept : l.Kept) (given : l.given above) (own : above ∉ ["r", "ro", "roo"]) :
    l.isAbove above logger = true := by
  have late : ["r", "ro", "roo"].contains above = false := by simpa using own
  simp only [Logging.isAbove, (kept above (given_iff.mp given)).2, late, Bool.false_and, Bool.not_false, Bool.and_self]

-- Where every point has a letter before it, the letter that the climb leaves out
-- is none of the points. Loggers that do not exist have no level either.
theorem climb_given (kept : l.Kept) (logger : String) (cs : List Char) (spaced : ¬['.', '.'] <:+: cs)
    (apart : ∀ front ∈ fronts cs, l.given (spell front) → spell front ∉ ["r", "ro", "roo"]) :
    (l.climb logger cs).filter l.given = ((fronts cs).map spell).filter l.given := by
  fun_induction climb l logger cs with
  | case1 logger c rest above put ih =>
    have inner : ¬['.', '.'] <:+: c :: rest :=
      mt (fun inside => inside.trans (List.suffix_cons _ _).isInfix) spaced
    rw [fronts, List.map_cons, List.filter_cons, List.filter_cons,
      ih inner fun front inside => apart front (by rw [fronts]; exact List.mem_cons_of_mem _ inside)]
    rfl
  | case2 logger c rest above unput ih =>
    have first : c :: rest ∈ fronts ('.' :: c :: rest) := by
      rw [fronts]
      exact List.mem_cons_self
    have ungiven : ¬l.given above := fun given => unput (kept.isAbove given (apart _ first given))
    have letter : c ≠ '.' := by
      rintro rfl
      exact spaced ⟨[], rest, rfl⟩
    have skip : fronts (c :: rest) = fronts rest := by
      rw [fronts]
      exact fun _ _ point => absurd point letter
    have inner : ¬['.', '.'] <:+: rest :=
      mt (fun inside => inside.trans ((List.suffix_cons _ _).trans (List.suffix_cons _ _)).isInfix) spaced
    rw [fronts, List.map_cons, List.filter_cons_of_neg (by exact ungiven), skip]
    refine ih inner fun front inside => apart front ?_
    rw [fronts, skip]
    exact List.mem_cons_of_mem _ inside
  | case3 logger d rest no_point ih =>
    have skip : fronts (d :: rest) = fronts rest := by
      rw [fronts]
      exact no_point
    rw [skip]
    exact ih (mt (fun inside => inside.trans (List.suffix_cons _ _).isInfix) spaced) (skip ▸ apart)
  | case4 => rfl

theorem lineage_given (kept : l.Kept) (regular : Regular (l.levelOf · ≠ 0) logger) :
    (l.lineage logger).filter l.given = (logger :: dotted logger).filter l.given := by
  have same : (l.climb logger logger.toList.reverse).filter l.given = (dotted logger).filter l.given := by
    refine climb_given kept logger _ ?_ fun front inside given low => ?_
    · intro inner
      exact regular.spaced (List.reverse_infix.mp (by simpa using inner))
    · obtain ⟨-, behind, whole⟩ := mem_fronts.mp inside
      refine regular.apart _ low (given_iff.mp given) ⟨behind.reverse, ?_⟩
      rw [← List.reverse_inj, whole]
      simp [spell]
  rw [lineage, List.filter_cons, List.filter_cons, same]

-- `a` does not stand above `a..b`, nor `r` above `r.x` unless it was there before.
example : ({ loggers := ["a", "a..b"] } : Logging).lineage "a..b" = ["a..b"] := by decide +kernel

example : ({ loggers := ["r.x", "r"] } : Logging).lineage "r.x" = ["r.x"] := by decide +kernel

theorem effectiveLevel_eq (kept : l.Kept) (regular : Regular (l.levelOf · ≠ 0) logger) (below : isRoot logger = false) :
    l.effectiveLevel logger =
      (((logger :: dotted logger).find? l.given).map l.levelOf).getD l.rootLevel := by
  have first : (l.lineage logger).find? l.given = (logger :: dotted logger).find? l.given := by
    rw [← List.head?_filter, lineage_given kept regular, List.head?_filter]
  rw [effectiveLevel, below, List.find?_map, ← first]
  rfl

theorem effectiveLevel_cases (kept : l.Kept) (regular : Regular (l.levelOf · ≠ 0) logger) (below : isRoot logger = false) :
    ((∀ above, Above above logger → l.levelOf above = 0) ∧ l.effectiveLevel logger = l.rootLevel) ∨
      ∃ above, Above above logger ∧ l.levelOf above ≠ 0 ∧
        (∀ nearer, Above nearer logger → above.length < nearer.length → l.levelOf nearer = 0) ∧
        l.effectiveLevel logger = l.levelOf above := by
  have up : ∀ {above}, above ∈ logger :: dotted logger → Above above logger := by
    intro above inside
    rcases List.mem_cons.mp inside with rfl | inside
    · exact Or.inl rfl
    · exact Or.inr (mem_dotted.mp inside).2
  have listed : ∀ {above}, Above above logger → l.levelOf above ≠ 0 → above ∈ logger :: dotted logger := by
    intro above higher given
    rcases higher with rfl | behind
    · exact List.mem_cons_self
    · have named : above ≠ "" := by
        rintro rfl
        exact absurd (kept "" given).1 (by decide)
      exact List.mem_cons_of_mem _ (mem_dotted.mpr ⟨named, behind⟩)
  rw [effectiveLevel_eq kept regular below]
  cases found : (logger :: dotted logger).find? l.given with
  | none =>
    refine Or.inl ⟨fun above higher => Classical.byContradiction fun given => ?_, rfl⟩
    exact List.find?_eq_none.mp found above (listed higher given) (given_iff.mpr given)
  | some above =>
    obtain ⟨given, front, back, line, zero⟩ := List.find?_eq_some_iff_append.mp found
    have higher : Above above logger := up (line ▸ List.mem_append_right front List.mem_cons_self)
    refine Or.inr ⟨above, higher, given_iff.mp given, fun nearer closer longer => ?_, rfl⟩
    refine Classical.byContradiction fun present => ?_
    have member := listed closer present
    rw [line] at member
    rcases List.mem_append.mp member with passed | rest
    · exact Bool.false_ne_true ((Bool.not_eq_true' _ ▸ zero nearer passed).symm.trans (given_iff.mpr present))
    · have shrinks := line ▸ dotted_shrinks logger
      rcases List.mem_cons.mp rest with rfl | beyond
      · omega
      · have shorter := List.rel_of_pairwise_cons (List.pairwise_append.mp shrinks).2.1 beyond
        omega

-- No verdict on a logger of a regular name is out of date.
def Sound (l : Logging) : Prop :=
  ∀ logger level verdict, ((logger, level), verdict) ∈ l.verdicts → isRoot logger = false →
    Regular (l.levelOf · ≠ 0) logger → verdict = decide (0 < level ∧ l.effectiveLevel logger ≤ level)

theorem isEnabled_eq (sound : l.Sound) (below : isRoot logger = false) (regular : Regular (l.levelOf · ≠ 0) logger) :
    l.isEnabled logger level = decide (0 < level ∧ l.effectiveLevel logger ≤ level) := by
  rw [isEnabled]
  cases found : l.verdicts.lookup (logger, level) with
  | none => simp
  | some verdict =>
    obtain ⟨front, back, verdicts, -⟩ := List.lookup_eq_some_iff.mp found
    exact sound logger level verdict (verdicts ▸ List.mem_append_right front List.mem_cons_self) below regular

theorem get_fields (l : Logging) (logger : String) :
    (l.get logger).rootLevel = l.rootLevel ∧ (l.get logger).handlers = l.handlers ∧
      (l.get logger).levels = l.levels ∧ (l.get logger).verdicts = l.verdicts := by
  rw [get]
  split
  · exact ⟨rfl, rfl, rfl, rfl⟩
  · exact ⟨rfl, rfl, rfl, rfl⟩

theorem levelOf_get (l : Logging) (logger above : String) : (l.get logger).levelOf above = l.levelOf above := by
  rw [levelOf, levelOf, (get_fields l logger).2.2.1]

theorem contains_get (l : Logging) (logger above : String) : (l.get logger).loggers.contains above = true ↔
    l.loggers.contains above = true ∨ isRoot logger = false ∧ above = logger := by
  rw [get]
  by_cases there : isRoot logger || l.loggers.contains logger
  · rw [if_pos there]
    refine ⟨Or.inl, fun either => either.elim id fun ⟨below, same⟩ => ?_⟩
    simpa [same, below] using there
  · rw [if_neg there]
    have below : isRoot logger = false := (Bool.or_eq_false_iff.mp (Bool.not_eq_true _ ▸ there)).1
    simp [below]

theorem Kept.get (kept : l.Kept) (logger : String) : (l.get logger).Kept := by
  intro above given
  rw [levelOf_get] at given
  exact (kept above given).imp_right fun known => (contains_get l logger above).mpr (Or.inl known)

theorem Kept.setLevel (kept : l.Kept) (below : isRoot logger = false) (level : Int) : (l.setLevel logger level).Kept := by
  intro above given
  simp only [Logging.setLevel, below, Bool.false_eq_true, if_false, levelOf, List.lookup_cons] at given ⊢
  by_cases same : above = logger
  · exact ⟨same ▸ below, (contains_get l logger above).mpr (Or.inr ⟨below, same⟩)⟩
  · rw [beq_false_of_ne same] at given
    exact (kept above given).imp_right fun known => (contains_get l logger above).mpr (Or.inl known)

theorem effectiveLevel_congr {m : Logging} (kept : l.Kept) (again : m.Kept) (levels : m.levels = l.levels)
    (root : m.rootLevel = l.rootLevel) (regular : Regular (l.levelOf · ≠ 0) logger) (below : isRoot logger = false) :
    m.effectiveLevel logger = l.effectiveLevel logger := by
  have same : m.levelOf = l.levelOf := funext fun above => by rw [levelOf, levelOf, levels]
  have given : m.given = l.given := funext fun above => by rw [Logging.given, Logging.given, same]
  rw [effectiveLevel_eq again (same ▸ regular) below, effectiveLevel_eq kept regular below, given, same, root]

theorem Sound.get (sound : l.Sound) (kept : l.Kept) (other : String) : (l.get other).Sound := by
  intro logger level verdict member below regular
  rw [(get_fields l other).2.2.2] at member
  simp only [levelOf_get] at regular
  rw [effectiveLevel_congr kept (kept.get other) (get_fields l other).2.2.1 (get_fields l other).1 regular below]
  exact sound logger level verdict member below regular

theorem Sound.remember (sound : l.Sound) (kept : l.Kept) (logger : String) (level : Int) :
    (l.remember logger level).Sound := by
  intro other limit verdict member below regular
  have again : (l.remember logger level).Kept := kept
  rw [effectiveLevel_congr kept again rfl rfl regular below]
  rcases List.mem_cons.mp member with new | old
  · obtain ⟨named, rfl⟩ := Prod.mk.inj new
    obtain ⟨rfl, rfl⟩ := Prod.mk.inj named
    exact isEnabled_eq sound below regular
  · exact sound other limit verdict old below regular

end Logging

end SeedSearch.Log
