import SeedSearch.Proofs.Piles
import SeedSearch.Proofs.RowFields
import SeedSearch.Proofs.SeedTotals

namespace SeedSearch.Report
open Catalog.Row (after? after_eq_some_iff)
open Text (toList_ofNat toList_negSucc)

def numberOf : List Char → Int
  | '-' :: digits => -(Nat.ofDigitChars 10 digits 0 : Nat)
  | digits => (Nat.ofDigitChars 10 digits 0 : Nat)

-- What a line of the list is, told from its text alone.
def Line.read? (text : String) : Option Line :=
  ((after? "Seed ".toList text.toList).map fun rest => .seed (numberOf rest)) <|>
  ((after? "    Depth ".toList text.toList).map fun rest => .depth (numberOf rest)) <|>
  ((after? "        ".toList text.toList).map fun rest => .object (String.ofList rest))

def Line.isDepth : Line → Bool
  | .depth _ => true
  | _ => false

def Line.isObject : Line → Bool
  | .object _ => true
  | _ => false

def without (kind : Line → Bool) (lines : List String) : List String :=
  lines.filter fun text => !(Line.read? text).any kind

-- An object stands under the seed named last, and under the depth named last
-- since then.
def replay (seed depth : Option Int) : List Line → List (Option Int × Option Int × String)
  | [] => []
  | .seed n :: rest => replay (some n) none rest
  | .depth n :: rest => replay seed (some n) rest
  | .object text :: rest => (seed, depth, text) :: replay seed depth rest

def shown (before : Option Match) (m : Match) : List Line :=
  if before.map Match.seed ≠ some m.seed then [.seed m.seed, .depth m.depth, .object m.text]
  else if before.map Match.depth ≠ some m.depth then [.depth m.depth, .object m.text]
  else [.object m.text]

def listing (before : Option Match) (found : List Match) : List Line :=
  (List.zipWith shown (before :: found.map some) found).flatten

variable {found : List Match}

theorem numberOf_toString (n : Int) : numberOf (toString n).toList = n := by
  cases n with
  | ofNat n =>
    rw [toList_ofNat, numberOf, Nat.ofDigitChars_toDigits (by decide) (by decide)]
    · rfl
    · intro digits signed
      have plain := Text.isPlainDigit_of_mem (c := '-') (n := n) (by simp [signed])
      cases plain
  | negSucc n =>
    rw [toList_negSucc, numberOf, Nat.ofDigitChars_toDigits (by decide) (by decide)]
    rfl

theorem read_text (l : Line) : Line.read? l.text = some l := by
  cases l with
  | seed n =>
    have spelled : (Line.seed n).text.toList = "Seed ".toList ++ (toString n).toList := String.toList_append
    rw [Line.read?, after_eq_some_iff.mpr spelled, Option.map_some, numberOf_toString]
    rfl
  | depth n =>
    have spelled : (Line.depth n).text.toList = "    Depth ".toList ++ (toString n).toList := String.toList_append
    have other : after? "Seed ".toList (Line.depth n).text.toList = none := by
      rw [spelled]
      rfl
    rw [Line.read?, other, after_eq_some_iff.mpr spelled, Option.map_some, numberOf_toString]
    rfl
  | object text =>
    have spelled : (Line.object text).text.toList = "        ".toList ++ text.toList := String.toList_append
    have seedless : after? "Seed ".toList (Line.object text).text.toList = none := by
      rw [spelled]
      rfl
    have depthless : after? "    Depth ".toList (Line.object text).text.toList = none := by
      rw [spelled]
      rfl
    rw [Line.read?, seedless, depthless, after_eq_some_iff.mpr spelled, Option.map_some, String.ofList_toList]
    rfl

theorem listing_cons (before : Option Match) (m : Match) (rest : List Match) :
    listing before (m :: rest) = shown before m ++ listing (some m) rest := rfl

theorem groupFrom_eq_listing (before : Option Match) (found : List Match) :
    groupFrom 3 (before.map Match.seed) (before.map Match.depth) found = listing before found := by
  induction found generalizing before with
  | nil => rfl
  | cons m rest ih =>
    have next := ih (some m)
    rw [Option.map_some, Option.map_some] at next
    rw [listing_cons, ← next, shown, groupFrom]
    by_cases same : before.map Match.seed = some m.seed
    · by_cases level : before.map Match.depth = some m.depth
      · simp [same, level]
      · simp [same, level]
    · simp [same]

theorem replay_shown (before : Option Match) (m : Match) (rest : List Line) :
    replay (before.map Match.seed) (before.map Match.depth) (shown before m ++ rest) =
      (some m.seed, some m.depth, m.text) :: replay (some m.seed) (some m.depth) rest := by
  unfold shown
  split
  · rfl
  · rename_i same
    rw [not_ne_iff.mp same]
    split
    · rfl
    · rename_i level
      rw [not_ne_iff.mp level]
      rfl

theorem replay_listing (before : Option Match) (found : List Match) :
    replay (before.map Match.seed) (before.map Match.depth) (listing before found) =
      found.map fun m => (some m.seed, some m.depth, m.text) := by
  induction found generalizing before with
  | nil => rfl
  | cons m rest ih =>
    rw [listing_cons, replay_shown, List.map_cons]
    exact congrArg _ (ih (some m))

theorem groupFrom_two (seed depth : Option Int) (found : List Match) :
    groupFrom 2 seed depth found = (groupFrom 3 seed depth found).filter fun l => !l.isObject := by
  induction found generalizing seed depth with
  | nil => rfl
  | cons m rest ih =>
    simp only [groupFrom, ih, List.filter_append]
    congr 1
    by_cases same : seed = some m.seed <;> by_cases level : depth = some m.depth <;>
      simp [same, level, Line.isObject]

-- Depths that are not shown are not remembered either.
theorem groupFrom_one (seed depth depth' : Option Int) (found : List Match) :
    groupFrom 1 seed depth found = (groupFrom 2 seed depth' found).filter fun l => !l.isDepth := by
  induction found generalizing seed depth depth' with
  | nil => rfl
  | cons m rest ih =>
    have headed : (if seed ≠ some m.seed then [Line.seed m.seed] else []).filter (fun l => !l.isDepth) =
        if seed ≠ some m.seed then [.seed m.seed] else [] := by
      split <;> rfl
    have bare {newDepth : Prop} [Decidable newDepth] :
        (if newDepth then [Line.depth m.depth] else []).filter (fun l => !l.isDepth) = [] := by
      split <;> rfl
    simp only [groupFrom, List.filter_append, headed, bare]
    simpa using ih _ _ _

def opening (found : List Match) : List String := if found.isEmpty then [] else ["Matches:", ""]

def closing (seeds : Nat) : List String := ["", totalLine seeds]

theorem matchLines_eq (verbosity : Int) (found : List Match) :
    matchLines verbosity found =
      opening found ++ (group verbosity found).map Line.text ++ closing (seedsFrom none found).length := by
  rw [← seeds_of_groupFrom verbosity none none found]
  rfl

theorem read_opening : ∀ text ∈ opening found, Line.read? text = none := by
  unfold opening
  split <;> decide

theorem read_closing (seeds : Nat) : ∀ text ∈ closing seeds, Line.read? text = none := by
  have total : Line.read? (totalLine seeds) = none := by
    have spelled : (totalLine seeds).toList = "...".toList ++ ((toString seeds).toList ++ " matches found.".toList) := by
      rw [totalLine, String.toList_append, String.toList_append, List.append_assoc]
      rfl
    rw [Line.read?, spelled]
    rfl
  have blank : Line.read? "" = none := rfl
  simpa [closing] using ⟨blank, total⟩

theorem read_matchLines (verbosity : Int) (found : List Match) :
    (matchLines verbosity found).filterMap Line.read? = group verbosity found := by
  have read : (Line.read? ∘ Line.text) = some := funext read_text
  rw [matchLines_eq, List.filterMap_append, List.filterMap_append, List.filterMap_map, read, List.filterMap_some,
    List.filterMap_eq_nil_iff.mpr read_opening, List.filterMap_eq_nil_iff.mpr (read_closing _), List.nil_append,
    List.append_nil]

theorem without_matchLines (kind : Line → Bool) (verbosity : Int) (found : List Match) :
    without kind (matchLines verbosity found) = opening found ++
      ((group verbosity found).filter fun l => !kind l).map Line.text ++ closing (seedsFrom none found).length := by
  have kept (l : Line) : (!(Line.read? l.text).any kind) = !kind l := by rw [read_text, Option.any_some]
  have unread {text : String} (none : Line.read? text = none) : (!(Line.read? text).any kind) = true := by
    rw [none]
    rfl
  rw [without, matchLines_eq, List.filter_append, List.filter_append, List.filter_map,
    List.filter_eq_self.mpr fun text member => unread (read_opening text member),
    List.filter_eq_self.mpr fun text member => unread (read_closing _ text member)]
  simp only [Function.comp_def, kept]

-- The list tells every match with its seed and its depth, names either only where
-- it changes, and shows less by whole lines alone.
theorem matchLines_replayed (found : List Match) :
    replay none none ((matchLines 3 found).filterMap Line.read?) =
      found.map (fun m => (some m.seed, some m.depth, m.text)) ∧
    (matchLines 3 found).filterMap Line.read? = listing none found ∧
    matchLines 2 found = without Line.isObject (matchLines 3 found) ∧
    matchLines 1 found = without Line.isDepth (matchLines 2 found) ∧
    ∀ verbosity, (matchLines verbosity found).getLast? =
      some (totalLine (((matchLines verbosity found).filterMap Line.read?).filter Line.isSeed).length) := by
  have listed : group 3 found = listing none found := groupFrom_eq_listing none found
  have coarser : group 2 found = (group 3 found).filter fun l => !l.isObject := groupFrom_two none none found
  have coarsest : group 1 found = (group 2 found).filter fun l => !l.isDepth := groupFrom_one none none none found
  refine ⟨?_, ?_, ?_, ?_, ?_⟩
  · rw [read_matchLines, listed]
    exact replay_listing none found
  · rw [read_matchLines, listed]
  · rw [without_matchLines, ← coarser, matchLines_eq]
  · rw [without_matchLines, ← coarsest, matchLines_eq]
  · intro verbosity
    rw [read_matchLines, group, seeds_of_groupFrom, matchLines_eq]
    simp [closing]

end SeedSearch.Report
