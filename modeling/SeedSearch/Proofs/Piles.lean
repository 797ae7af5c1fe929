import SeedSearch.Object
import SeedSearch.Proofs.Tokens

namespace SeedSearch.Catalog.Row
open Vocabulary
open Text (isPlainDigit)
open Text.Numeral (TooLong digitLimit natural? natural_error_iff)

variable {α β : Type} {names : List String} {name : String} {otherwise : Malformed} {r : Row} {e : TooLong} {f : Fault}

theorem after_eq_some_iff {part text rest : List Char} : after? part text = some rest ↔ text = part ++ rest := by
  unfold after?
  split
  · rename_i starts
    obtain ⟨more, rfl⟩ := List.isPrefixOf_iff_prefix.mp starts
    simp [eq_comm]
  · rename_i other
    constructor
    · intro none
      cases none
    · rintro rfl
      exact absurd (List.isPrefixOf_iff_prefix.mpr (List.prefix_append _ _)) other

-- A kind may end in one line break, which does not count.
def trimmed (text : List Char) : List Char := if text.getLast? = some '\n' then text.dropLast else text

theorem trimmed_append {text ending : List Char} (last : text.getLast? ≠ some '\n') (ends : ending ∈ [[], ['\n']]) :
    trimmed (text ++ ending) = text := by
  simp only [List.mem_cons, List.not_mem_nil, or_false] at ends
  rcases ends with rfl | rfl
  · simp [trimmed, last]
  · simp [trimmed]

theorem exists_of_trimmed (text : List Char) : ∃ ending ∈ [[], ['\n']], text = trimmed text ++ ending := by
  by_cases last : text.getLast? = some '\n'
  · refine ⟨['\n'], by simp, ?_⟩
    obtain ⟨front, rfl⟩ := List.getLast?_eq_some_iff.mp last
    simp [trimmed]
  · exact ⟨[], by simp, by simp [trimmed, last]⟩

def pileTails : List (List Char) := [" pile)".toList, " piles)".toList]

theorem pileTails_spec : ∀ tail ∈ pileTails,
    tail.getLast? = some ')' ∧ tail.takeWhile isPlainDigit = [] ∧ tail.dropWhile isPlainDigit = tail := by
  decide

theorem opening_eq : "gold pieces (".toList = "gold pieces".toList ++ " (".toList := by decide

theorem piles_counted {kind : String} {rest : List Char} (opened : trimmed kind.toList = "gold pieces (".toList ++ rest) :
    piles? kind = if rest.dropWhile isPlainDigit ∈ pileTails then natural? (rest.takeWhile isPlainDigit) else .ok none := by
  have first : after? "gold pieces".toList (trimmed kind.toList) = some (" (".toList ++ rest) :=
    after_eq_some_iff.mpr (by rw [opened, opening_eq, List.append_assoc])
  have second : after? " (".toList (" (".toList ++ rest) = some rest := after_eq_some_iff.mpr rfl
  unfold trimmed at first
  simp only [piles?, first]
  split
  · contradiction
  · rename_i none
    simp at none
  · rename_i more _ same
    cases Option.some.inj same
    simp only [second, pileTails, List.mem_cons, List.not_mem_nil, or_false, Bool.or_eq_true, decide_eq_true_eq]

theorem opened_of_error {kind : String} (failed : piles? kind = .error e) :
    ∃ rest, trimmed kind.toList = "gold pieces (".toList ++ rest := by
  simp only [piles?] at failed
  split at failed
  · cases failed
  · cases failed
  · rename_i first
    split at failed
    · cases failed
    · rename_i rest second
      refine ⟨rest, ?_⟩
      rw [trimmed, after_eq_some_iff.mp first, after_eq_some_iff.mp second, opening_eq, List.append_assoc]

-- The piles of gold are too many to be read just if that many digits stand where
-- their number stands.
theorem piles_eq_error_iff {kind : String} : piles? kind = .error e ↔
    ∃ digits, ∃ tail ∈ pileTails, ∃ ending ∈ [[], ['\n']],
      kind.toList = "gold pieces (".toList ++ digits ++ tail ++ ending ∧ natural? digits = .error e := by
  constructor
  · intro failed
    obtain ⟨rest, opened⟩ := opened_of_error failed
    obtain ⟨ending, ends, whole⟩ := exists_of_trimmed kind.toList
    rw [piles_counted opened] at failed
    split at failed
    · rename_i tail
      refine ⟨_, _, tail, ending, ends, ?_, failed⟩
      rw [List.append_assoc ("gold pieces (".toList), List.takeWhile_append_dropWhile, ← opened, ← whole]
    · cases failed
  · rintro ⟨digits, tail, known, ending, ends, whole, failed⟩
    have plain : ∀ c ∈ digits, isPlainDigit c = true := List.all_eq_true.mp (natural_error_iff.mp failed).1
    obtain ⟨last, none, all⟩ := pileTails_spec tail known
    have opened : trimmed kind.toList = "gold pieces (".toList ++ (digits ++ tail) := by
      rw [whole, trimmed_append _ ends, List.append_assoc]
      rw [List.getLast?_append, last, Option.some_or]
      decide
    rw [piles_counted opened, List.dropWhile_append_of_pos plain, List.takeWhile_append_of_pos plain, none, all,
      if_pos known, List.append_nil, failed]

def Legible (x : Except Unknown α) : Prop := ∀ e, x ≠ .error (.tooLong e)

theorem Legible.ok (a : α) : Legible (.ok a) := by
  intro e failed
  cases failed

theorem Legible.bind {x : Except Unknown α} {f : α → Except Unknown β} (first : Legible x)
    (next : ∀ a, Legible (f a)) : Legible (x >>= f) := by
  cases x with
  | error u =>
    intro e failed
    exact first e (by cases failed; rfl)
  | ok a => exact next a

theorem legible_require : Legible (require names text otherwise) := by
  intro e failed
  unfold require at failed
  split at failed <;> cases failed

theorem legible_requireOpt : Legible (requireOpt names text otherwise) := by
  unfold requireOpt
  split
  · exact .ok _
  · rw [map_eq_pure_bind]
    exact legible_require.bind fun name => .ok (some name)

theorem legible_knownEnchantment : Legible r.knownEnchantment := by
  intro e failed
  unfold knownEnchantment at failed
  split at failed <;> cases failed

theorem legible_describe (other : r.category ≠ .gold) : Legible r.describe := by
  have plain (form : Form) : Legible (do return (⟨r.category, ← r.knownKind, form⟩ : Object)) :=
    legible_require.bind fun _ => .ok _
  have enchanted (form : Int → Form) :
      Legible (do return (⟨r.category, ← r.knownKind, form (← r.knownEnchantment)⟩ : Object)) :=
    legible_require.bind fun _ => legible_knownEnchantment.bind fun _ => .ok _
  have gear : Legible (do
      let runic ← requireOpt (runics r.category) r.runic (.unknownRunic r.category r.runic)
      let kind ← r.knownKind
      return (⟨r.category, kind, .gear (← r.knownEnchantment) runic⟩ : Object)) :=
    legible_requireOpt.bind fun _ => legible_require.bind fun _ => legible_knownEnchantment.bind fun _ => .ok _
  have ally : Legible (do
      let mutation ← requireOpt mutations r.mutation (.unknownMutation r.mutation)
      let status ← require allyStatuses r.allyStatus (.unknownStatus r.allyStatus)
      return (⟨r.category, ← r.knownKind, .ally status mutation⟩ : Object)) :=
    legible_requireOpt.bind fun _ => legible_require.bind fun _ => legible_require.bind fun _ => .ok _
  unfold describe
  split
  case h_1 | h_2 => exact gear
  case h_3 => exact enchanted .charm
  case h_4 => exact enchanted .ring
  case h_5 => exact enchanted .staff
  case h_6 => exact enchanted .wand
  case h_7 | h_8 => exact plain .consumable
  case h_9 gold => exact absurd gold other
  case h_10 => exact plain (.key r.opensVault)
  case h_11 => exact ally
  case h_12 | h_13 | h_14 | h_15 => exact plain .plain

theorem describe_tooLong_iff :
    r.describe = .error (.tooLong e) ↔ r.category = .gold ∧ piles? r.kind = .error e := by
  constructor
  · intro failed
    have category : r.category = .gold := by
      apply Classical.byContradiction
      exact fun other => legible_describe other e failed
    simp only [describe, category, gold] at failed
    split at failed
    · cases failed
      exact ⟨category, ‹_›⟩
    · cases failed
    · cases failed
  · rintro ⟨category, failed⟩
    simp only [describe, category, gold, failed]

def Overlong (r : Row) : Prop :=
  r.category = .gold ∧ ∃ digits, ∃ tail ∈ pileTails, ∃ ending ∈ [[], ['\n']],
    r.kind.toList = "gold pieces (".toList ++ digits ++ tail ++ ending ∧
      digits.all isPlainDigit = true ∧ digitLimit < digits.length

theorem describe_overlong_iff : (∃ e, r.describe = .error (.tooLong e)) ↔ r.Overlong := by
  constructor
  · rintro ⟨e, failed⟩
    obtain ⟨gold, uncounted⟩ := describe_tooLong_iff.mp failed
    obtain ⟨digits, tail, known, ending, ends, whole, natural⟩ := piles_eq_error_iff.mp uncounted
    obtain ⟨plain, long, -⟩ := natural_error_iff.mp natural
    exact ⟨gold, digits, tail, known, ending, ends, whole, plain, long⟩
  · rintro ⟨gold, digits, tail, known, ending, ends, whole, plain, long⟩
    exact ⟨_, describe_tooLong_iff.mpr
      ⟨gold, piles_eq_error_iff.mpr ⟨digits, tail, known, ending, ends, whole, natural_error_iff.mpr ⟨plain, long, rfl⟩⟩⟩⟩

theorem not_overlong_of_object {o : Object} (known : r.object = .ok o) : ¬r.Overlong := by
  intro overlong
  obtain ⟨e, described⟩ := describe_overlong_iff.mpr overlong
  rw [object, described] at known
  cases known

theorem object_fault_iff (failed : r.object = .error f) : f.ofInput = false ↔ r.Overlong := by
  rw [← describe_overlong_iff]
  unfold object at failed
  split at failed
  · cases failed
  · rename_i described
    cases failed
    simp [Fault.ofInput, described]
  · rename_i e described
    cases failed
    simp [Fault.ofInput, described]

end SeedSearch.Catalog.Row
