import SeedSearch.Proofs.Spelling

namespace SeedSearch.Trial
open Text (isPlainDigit)

variable {category : Category} {token name : String} {a b t : Trial} {digits : List Char} {trials order : List Trial}

def Heeds (category : Category) (token : String) (t : Trial) : Prop := t.read category token ≠ .ok none

def words : Trial → List String
  | anyRunic => ["runic"]
  | legendary => ["legendary"]
  | anyMutation => ["mutation"]
  | vault => ["vault", "novault"]
  | magic => Polarity.all.map Polarity.name
  | status => Vocabulary.allyStatuses
  | _ => []

def names (category : Category) : Trial → List String
  | kind => Vocabulary.kinds category
  | runic => Vocabulary.runics category
  | mutation => Vocabulary.mutations
  | _ => []

-- A fragment of a kind and of another name as well is meant to be one of the kind.
def Outranks (category : Category) (a b : Trial) : Prop :=
  a = kind ∧ (b = runic ∧ (category = .armor ∨ category = .weapon) ∨ b = mutation ∧ category = .ally)

instance (category : Category) (a b : Trial) : Decidable (Outranks category a b) :=
  inferInstanceAs (Decidable (_ ∧ _))

inductive Finds (category : Category) (token : String) (t : Trial) : Prop where
  | number {digits : List Char} (spells : Spells digits t token.toList) (some : digits ≠ [])
      (plain : digits.all isPlainDigit = true)
  | word (member : token ∈ t.words)
  | fragment {name : String} (member : name ∈ t.names category) (part : Text.isFragment token name = true)

theorem plain_of_readNumber (check : Nat → Option Term) (taken : readNumber check digits ≠ .ok none) :
    digits ≠ [] ∧ digits.all isPlainDigit = true := by
  by_contra odd
  apply taken
  have unread : Text.Numeral.natural? digits = .ok none := by
    unfold Text.Numeral.natural?
    rw [if_pos]
    by_cases empty : digits = []
    · simp [empty]
    · have some : ¬ digits.all isPlainDigit = true := fun plain => odd ⟨empty, plain⟩
      simpa using Or.inr some
  unfold readNumber
  rw [unread]
  rfl

theorem read_numeric (numeric : t.slot.isNumeric = true) (category : Category) (token : String) :
    t.read category token = .ok none ∨
      ∃ check digits, Spells digits t token.toList ∧ t.read category token = readNumber check digits := by
  cases t with
  | count =>
    right
    simp only [read]
    split
    · rename_i shape
      exact ⟨_, _, shape ▸ .count .lessThan, rfl⟩
    · rename_i shape
      exact ⟨_, _, shape ▸ .count .equalTo, rfl⟩
    · exact ⟨_, _, .count .atLeast, rfl⟩
  | depth =>
    simp only [read]
    split
    · rename_i shape
      exact Or.inr ⟨_, _, shape ▸ .depth, rfl⟩
    · exact Or.inl rfl
  | positiveEnchantment =>
    simp only [read]
    split
    · rename_i shape
      exact Or.inr ⟨_, _, shape ▸ .atLeast (by simp), rfl⟩
    · exact Or.inl rfl
  | signedEnchantment =>
    simp only [read, readAtMost]
    split
    · rename_i shape
      exact Or.inr ⟨_, _, shape ▸ .atLeast (by simp), rfl⟩
    · split
      · rename_i marked
        have spells : Spells token.toList.dropLast .signedEnchantment (token.toList.dropLast ++ ['-']) := .atMost
        rw [List.dropLast_append_getLast? _ marked] at spells
        exact Or.inr ⟨_, _, spells, rfl⟩
      · exact Or.inl rfl
  | _ => cases numeric

theorem word_of_heeds {expected : String} {term : Term} (taken : word expected term token ≠ none) :
    token = expected := by
  unfold word at taken
  split at taken
  · assumption
  · exact absurd rfl taken

theorem exists_of_containsPartial {names : List String} (part : Vocabulary.containsPartial names token = true) :
    ∃ name ∈ names, Text.isFragment token name = true := by
  have found := (Bool.and_eq_true_iff.mp part).2
  exact List.any_eq_true.mp found

theorem Heeds.finds (heeds : Heeds category token t) : Finds category token t := by
  cases numeric : t.slot.isNumeric with
  | true =>
    obtain ⟨check, digits, spells, read⟩ := (read_numeric numeric category token).resolve_left heeds
    obtain ⟨some, plain⟩ := plain_of_readNumber check fun none => heeds (read.trans none)
    exact .number spells some plain
  | false =>
    have taken {result : Option Term} (read : t.read category token = .ok result) : result ≠ none := by
      rintro rfl
      exact heeds read
    cases t with
    | count | depth | positiveEnchantment | signedEnchantment => cases numeric
    | anyRunic | legendary | anyMutation =>
      exact .word (List.mem_singleton.mpr (word_of_heeds (taken rfl)))
    | vault =>
      have either := taken rfl
      by_cases first : word "vault" (.vault true) token = none
      · rw [first, Option.none_or] at either
        exact .word (by simp [words, word_of_heeds either])
      · exact .word (by simp [words, word_of_heeds first])
    | magic =>
      obtain ⟨term, found⟩ := Option.ne_none_iff_exists'.mp (taken rfl)
      obtain ⟨polarity, here, -⟩ := Option.map_eq_some_iff.mp found
      have name : polarity.name = token := by simpa using List.find?_some here
      exact .word (name ▸ List.mem_map_of_mem (List.mem_of_find?_eq_some here))
    | status =>
      obtain ⟨term, found⟩ := Option.ne_none_iff_exists'.mp (taken rfl)
      obtain ⟨known, here, -⟩ := Option.map_eq_some_iff.mp found
      exact .word (Vocabulary.lookup?_eq_some_iff.mp here).2
    | kind | runic | mutation =>
      have part := taken rfl
      rw [ite_ne_right_iff] at part
      obtain ⟨name, member, inside⟩ := exists_of_containsPartial part.1
      exact .fragment member inside

theorem names_digitless (category : Category) (t : Trial) :
    ∀ name ∈ t.names category, name.toList.all (fun c => !isPlainDigit c) = true := by
  have kinds : ∀ name ∈ Vocabulary.kinds category, name.toList.all (fun c => !isPlainDigit c) = true := by
    cases category <;> decide +kernel
  have runics : ∀ name ∈ Vocabulary.runics category, name.toList.all (fun c => !isPlainDigit c) = true := by
    cases category <;> decide +kernel
  have mutations : ∀ name ∈ Vocabulary.mutations, name.toList.all (fun c => !isPlainDigit c) = true := by
    decide +kernel
  cases t with
  | kind => exact kinds
  | runic => exact runics
  | mutation => exact mutations
  | _ => exact fun name member => absurd member List.not_mem_nil

theorem Spells.digits_subset {text : List Char} (spells : Spells digits t text) : digits ⊆ text := by
  cases spells with
  | count mode => exact List.subset_append_right _ _
  | depth => exact List.subset_cons_self _ _
  | atLeast => exact List.subset_cons_self _ _
  | atMost => exact List.subset_append_left _ _

theorem not_fragment_of_spells (spells : Spells digits t token.toList) (some : digits ≠ [])
    (plain : digits.all isPlainDigit = true) (member : name ∈ b.names category) :
    Text.isFragment token name = false := by
  rw [Bool.eq_false_iff]
  intro part
  obtain ⟨c, rest, rfl⟩ := List.exists_cons_of_ne_nil some
  obtain ⟨before, after, whole⟩ := Text.occurs_iff.mp part
  have inside : c ∈ name.toList := by
    rw [whole]
    exact List.mem_append_left _ (List.mem_append_right _ (spells.digits_subset List.mem_cons_self))
  have digit := List.all_eq_true.mp plain c List.mem_cons_self
  have other := List.all_eq_true.mp (names_digitless category b name member) c inside
  rw [digit] at other
  cases other

-- The vocabulary is such that a word of one trial is nothing to any other trial
-- of the same category.
theorem words_apart (category : Category) : ∀ a ∈ grammar category, ∀ word ∈ a.words, ∀ b ∈ grammar category,
    a ≠ b → b.read category word = .ok none := by
  cases category <;> decide +kernel

theorem numbers_apart (category : Category) : ∀ a ∈ grammar category, ∀ b ∈ grammar category, a ≠ b →
    a.slot.isNumeric = true → b.slot.isNumeric = true → a.slot ≠ b.slot := by
  cases category <;> decide

theorem fragments_ranked (category : Category) : ∀ a ∈ grammar category, ∀ b ∈ grammar category, a ≠ b →
    a.names category ≠ [] → b.names category ≠ [] → Outranks category a b ∨ Outranks category b a := by
  cases category <;> decide

theorem ranked_of_heeds (first : a ∈ grammar category) (second : b ∈ grammar category) (apart : a ≠ b)
    (left : Heeds category token a) (right : Heeds category token b) :
    Outranks category a b ∨ Outranks category b a := by
  cases left.finds with
  | word member => exact absurd (words_apart category a first token member b second apart) right
  | number spells some plain =>
    cases right.finds with
    | word member => exact absurd (words_apart category b second token member a first apart.symm) left
    | number later =>
      have slots := numbers_apart category b second a first apart.symm later.isNumeric spells.isNumeric
      exact absurd (read_spelled_other spells plain later.isNumeric slots) right
    | fragment member part =>
      rw [not_fragment_of_spells spells some plain member] at part
      cases part
  | fragment member part =>
    cases right.finds with
    | word later => exact absurd (words_apart category b second token later a first apart.symm) left
    | number spells some plain =>
      rw [not_fragment_of_spells spells some plain member] at part
      cases part
    | fragment later =>
      exact fragments_ranked category a first b second apart (List.ne_nil_of_mem member) (List.ne_nil_of_mem later)

theorem first_none (refuse : ∀ t ∈ trials, t.read category token = .ok none) :
    first category token trials = .ok none := by
  induction trials with
  | nil => rfl
  | cons t rest ih =>
    rw [first, refuse t List.mem_cons_self]
    exact ih fun u member => refuse u (List.mem_cons_of_mem _ member)

structure Reordered (category : Category) (order : List Trial) : Prop where
  same : order.Perm (grammar category)
  ranked : order.Pairwise fun earlier later => ¬ Outranks category later earlier

theorem reordered_grammar (category : Category) : Reordered category (grammar category) := by
  refine ⟨.refl _, ?_⟩
  cases category <;> decide

theorem Reordered.nodup (reordered : Reordered category order) : order.Nodup := by
  rw [reordered.same.nodup_iff]
  cases category <;> decide

theorem Reordered.first (reordered : Reordered category order) (member : t ∈ grammar category)
    (heeds : Heeds category token t)
    (leads : ∀ u ∈ grammar category, Heeds category token u → u ≠ t → Outranks category t u) :
    first category token order = t.read category token := by
  obtain ⟨earlier, later, rfl⟩ := List.append_of_mem (reordered.same.mem_iff.mpr member)
  refine first_of_split (fun u inside => ?_) heeds
  by_contra also
  have ranked : ¬ Outranks category t u :=
    (List.pairwise_append.mp reordered.ranked).2.2 u inside t List.mem_cons_self
  have other : u ≠ t := (List.nodup_append.mp reordered.nodup).2.2 u inside t List.mem_cons_self
  have known : u ∈ grammar category := reordered.same.subset (List.mem_append_left _ inside)
  exact ranked (leads u known also other)

theorem exists_leader (heeds : ∃ t ∈ grammar category, Heeds category token t) :
    ∃ t ∈ grammar category, Heeds category token t ∧
      ∀ u ∈ grammar category, Heeds category token u → u ≠ t → Outranks category t u := by
  by_cases kinds : kind ∈ grammar category ∧ Heeds category token kind
  · refine ⟨kind, kinds.1, kinds.2, fun u member also other => ?_⟩
    refine (ranked_of_heeds kinds.1 member other.symm kinds.2 also).resolve_right ?_
    simp [Outranks]
  · obtain ⟨t, known, taken⟩ := heeds
    refine ⟨t, known, taken, fun u member also other => ?_⟩
    rcases ranked_of_heeds known member other.symm taken also with ranked | ranked
    · exact ranked
    · exact absurd ⟨ranked.1 ▸ member, ranked.1 ▸ also⟩ kinds

-- A token means one thing to a category, up to the fragments of kinds that are
-- fragments of runics or mutations too. The trials can therefore be made in any
-- order in which kinds come before those.
theorem grammar_unambiguous (category : Category) (token : String) :
    (∀ a ∈ grammar category, ∀ b ∈ grammar category, a ≠ b → ∀ s t : Term,
      a.read category token = .ok (some s) → b.read category token = .ok (some t) →
        Outranks category a b ∨ Outranks category b a) ∧
    ∀ order, order.Perm (grammar category) →
      (order.Pairwise fun earlier later => ¬ Outranks category later earlier) →
        first category token order = Term.read category token := by
  constructor
  · intro a known b also apart s t left right
    have taken : Heeds category token a := fun none => by cases left.symm.trans none
    have twice : Heeds category token b := fun none => by cases right.symm.trans none
    exact ranked_of_heeds known also apart taken twice
  · intro order same ranked
    have reordered : Reordered category order := ⟨same, ranked⟩
    by_cases heeds : ∃ t ∈ grammar category, Heeds category token t
    · obtain ⟨t, known, taken, leads⟩ := exists_leader heeds
      rw [Term.read, reordered.first known taken leads, (reordered_grammar category).first known taken leads]
    · have refuse : ∀ t ∈ grammar category, t.read category token = .ok none := by
        intro t known
        by_contra taken
        exact heeds ⟨t, known, taken⟩
      rw [Term.read, first_none refuse, first_none fun t member => refuse t (same.subset member)]

-- A spear or a weapon of speed: the kind is tried first here, after what is
-- usually tried behind it. Where the runic is, the meaning is another.
theorem weapon_trials_reordered :
    Outranks .weapon kind runic ∧
    first .weapon "spe" [magic, vault, kind, runic, anyRunic, depth, count, signedEnchantment] =
      Term.read .weapon "spe" ∧
    first .weapon "spe" [magic, vault, runic, kind, anyRunic, depth, count, signedEnchantment] ≠
      Term.read .weapon "spe" := by
  obtain ⟨apart, reorders⟩ := grammar_unambiguous .weapon "spe"
  refine ⟨?_, reorders _ (by decide) (by decide), by decide +kernel⟩
  have ranked := apart kind (by decide) runic (by decide) (by decide) (.kind "spe") (.runic "spe")
    (by decide +kernel) (by decide +kernel)
  exact ranked.resolve_right (by decide)

end SeedSearch.Trial
