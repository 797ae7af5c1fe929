import Mathlib.Data.List.Basic
import SeedSearch.Criterion.Compile

namespace SeedSearch
open Text (isPlainDigit)
open Text.Numeral (TooLong digitLimit natural?)

inductive Numeric (digits : List Char) : List Char → Prop where
  | bare : Numeric digits digits
  | marked {mark : Char} (known : mark ∈ ['<', '=', 'd', '+']) : Numeric digits (mark :: digits)
  | atMost : Numeric digits (digits ++ ['-'])

def Overlong (token : String) : Prop :=
  ∃ digits, Numeric digits token.toList ∧ digits.all isPlainDigit = true ∧ digitLimit < digits.length

def Term.of? (category : Category) (token : String) : Option Term :=
  (Term.read category token).toOption.join

def Term.slotOf (category : Category) (token : String) : Option Slot :=
  (Term.of? category token).map Term.slot

variable {category : Category} {token : String} {tokens : List String} {t : Term} {e : TooLong}

theorem not_overlong_of_length (short : ∀ token ∈ tokens, token.length ≤ digitLimit) :
    ∀ token ∈ tokens, ¬ Overlong token := by
  rintro token member ⟨digits, numeric, -, long⟩
  have fits : digits.length ≤ token.toList.length := by
    generalize token.toList = text at numeric
    cases numeric <;> simp
  have limit := short token member
  rw [String.length_toList] at fits
  omega

namespace Text.Numeral

theorem natural_error_iff {text : List Char} : natural? text = .error e ↔
    text.all isPlainDigit = true ∧ digitLimit < text.length ∧ e = ⟨text.length⟩ := by
  constructor
  · intro failed
    unfold natural? at failed
    split at failed
    · cases failed
    · rename_i plain
      split at failed
      · rename_i long
        cases failed
        exact ⟨by simp_all, long, rfl⟩
      · cases failed
  · rintro ⟨plain, long, rfl⟩
    have some : text.isEmpty = false := by
      cases text with
      | nil => cases long
      | cons => rfl
    simp [natural?, plain, long, some]

end Text.Numeral

namespace Trial

variable {trials : List Trial} {trial : Trial} {digits : List Char}

theorem readNumber_error_iff {check : Nat → Option Term} :
    readNumber check digits = .error e ↔ natural? digits = .error e := by
  unfold readNumber
  cases natural? digits with
  | error _ => simp [Except.map]
  | ok number => simp [Except.map]

inductive Spells (digits : List Char) : Trial → List Char → Prop where
  | count (mode : CountMode) : Spells digits .count (mode.sign.toList ++ digits)
  | depth : Spells digits .depth ('d' :: digits)
  | atLeast {trial : Trial} (known : trial ∈ [signedEnchantment, positiveEnchantment]) :
      Spells digits trial ('+' :: digits)
  | atMost : Spells digits .signedEnchantment (digits ++ ['-'])

theorem Spells.numeric {text : List Char} (spells : Spells digits trial text) : Numeric digits text := by
  cases spells with
  | count mode =>
    cases mode with
    | atLeast => exact .bare
    | lessThan => exact (.marked (by simp) : Numeric digits ('<' :: digits))
    | equalTo => exact (.marked (by simp) : Numeric digits ('=' :: digits))
  | depth => exact .marked (by simp)
  | atLeast => exact .marked (by simp)
  | atMost => exact .atMost

-- Digits alone are not taken for a mark and what follows it.
theorem read_spelled (category : Category) (spells : Spells digits trial token.toList) (plain : digits.all isPlainDigit = true) :
    ∃ check, trial.read category token = readNumber check digits := by
  have digit {mark : Char} {rest : List Char} (shape : digits = mark :: rest) : isPlainDigit mark = true :=
    List.all_eq_true.mp plain mark (shape ▸ List.mem_cons_self)
  generalize shape : token.toList = text at spells
  cases spells with
  | count mode =>
    simp only [read, shape]
    cases mode with
    | lessThan => exact ⟨_, rfl⟩
    | equalTo => exact ⟨_, rfl⟩
    | atLeast =>
      simp only [CountMode.sign, String.toList_empty, List.nil_append]
      split
      · cases digit rfl
      · cases digit rfl
      · exact ⟨_, rfl⟩
  | depth =>
    simp only [read, shape]
    exact ⟨_, rfl⟩
  | atLeast known =>
    simp only [List.mem_cons, List.not_mem_nil, or_false] at known
    rcases known with rfl | rfl
    · simp only [read, shape]
      exact ⟨_, rfl⟩
    · simp only [read, shape]
      exact ⟨_, rfl⟩
  | atMost =>
    simp only [read, shape]
    split
    · rename_i digits' marked
      cases digits with
      | nil => cases marked
      | cons first rest =>
        obtain ⟨rfl, -⟩ := List.cons.inj marked
        cases digit rfl
    · rw [readAtMost, if_pos (by simp), List.dropLast_concat]
      exact ⟨_, rfl⟩

-- A trial stops at a number that it would take, if that has too many digits, and
-- at nothing else.
theorem read_error_iff : trial.read category token = .error e ↔
    ∃ digits, Spells digits trial token.toList ∧ natural? digits = .error e := by
  constructor
  · intro failed
    cases trial with
    | count =>
      simp only [read] at failed
      split at failed
      · rename_i shape
        exact ⟨_, shape ▸ .count .lessThan, readNumber_error_iff.mp failed⟩
      · rename_i shape
        exact ⟨_, shape ▸ .count .equalTo, readNumber_error_iff.mp failed⟩
      · exact ⟨_, .count .atLeast, readNumber_error_iff.mp failed⟩
    | depth =>
      simp only [read] at failed
      split at failed
      · rename_i shape
        exact ⟨_, shape ▸ .depth, readNumber_error_iff.mp failed⟩
      · cases failed
    | positiveEnchantment =>
      simp only [read] at failed
      split at failed
      · rename_i shape
        exact ⟨_, shape ▸ .atLeast (by simp), readNumber_error_iff.mp failed⟩
      · cases failed
    | signedEnchantment =>
      simp only [read, readAtMost] at failed
      split at failed
      · rename_i shape
        exact ⟨_, shape ▸ .atLeast (by simp), readNumber_error_iff.mp failed⟩
      · split at failed
        · rename_i marked
          have spells : Spells token.toList.dropLast .signedEnchantment (token.toList.dropLast ++ ['-']) := .atMost
          rw [List.dropLast_append_getLast? _ marked] at spells
          exact ⟨_, spells, readNumber_error_iff.mp failed⟩
        · cases failed
    | _ => cases failed
  · rintro ⟨digits, spells, failed⟩
    obtain ⟨check, same⟩ := read_spelled category spells (Text.Numeral.natural_error_iff.mp failed).1
    exact same.trans (readNumber_error_iff.mpr failed)

theorem overlong_of_read (failed : trial.read category token = .error e) : Overlong token := by
  obtain ⟨digits, spells, stopped⟩ := read_error_iff.mp failed
  obtain ⟨plain, long, -⟩ := Text.Numeral.natural_error_iff.mp stopped
  exact ⟨digits, spells.numeric, plain, long⟩

theorem overlong_of_first (failed : first category token trials = .error e) : Overlong token := by
  induction trials with
  | nil => cases failed
  | cons trial rest ih =>
    unfold first at failed
    cases read : trial.read category token with
    | error _ => exact overlong_of_read read
    | ok term =>
      rw [read] at failed
      cases term with
      | none => exact ih failed
      | some _ => cases failed

end Trial

namespace Term

theorem of?_eq_some_iff : of? category token = some t ↔ Term.read category token = .ok (some t) := by
  unfold of?
  rcases Term.read category token with e | term | term <;> simp [Except.toOption]

theorem read_of_not_overlong (short : ¬ Overlong token) :
    Term.read category token = .ok (of? category token) := by
  cases read : Term.read category token with
  | error e => exact absurd (Trial.overlong_of_first read) short
  | ok term => simp [of?, read, Except.toOption]

end Term

end SeedSearch
