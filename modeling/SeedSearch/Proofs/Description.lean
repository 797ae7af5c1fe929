import SeedSearch.Proofs.Ambiguity
import SeedSearch.Proofs.MatchListing
import SeedSearch.Proofs.Recompile

namespace SeedSearch

def Term.phrase : Term → String
  | count mode target => mode.label ++ " " ++ toString target
  | depth limit => "by depth " ++ toString limit
  | enchantment threshold => "enchantment " ++ threshold.text
  | kind fragment => "'" ++ fragment ++ "'"
  | anyRunic => "with any runic"
  | runic fragment => "of '" ++ fragment ++ "'"
  | vault inside => if inside then "in a vault" else "outside vaults"
  | magic polarity => polarity.label
  | legendary => "legendary"
  | status name => name
  | anyMutation => "with any mutation"
  | mutation fragment => "<" ++ fragment ++ ">"

def Term.Known (category : Category) : Term → Prop
  | kind fragment => ∃ name ∈ Vocabulary.kinds category, Text.isFragment fragment name = true
  | runic fragment => ∃ name ∈ Vocabulary.runics category, Text.isFragment fragment name = true
  | status name => name ∈ Vocabulary.allyStatuses
  | mutation fragment => ∃ name ∈ Vocabulary.mutations, Text.isFragment fragment name = true
  | _ => True

inductive Topic where
  | category (c : Category)
  | term (t : Term)

def Topic.phrase : Topic → String
  | category c => c.name
  | term t => t.phrase

-- How a phrase goes on behind its opening: not at all, with a number, or with
-- any text up to a closing mark.
inductive Ending where
  | nothing (topic : Topic)
  | natural (topic : Nat → Topic)
  | integer (topic : Int → Topic)
  | text (close : Char) (topic : String → Topic)

-- What the phrases open with, the space before them included.
def openings : List (String × Ending) :=
  CountMode.all.map (fun mode => (" " ++ mode.label ++ " ", .natural fun n => .term (.count mode n))) ++
  Category.searchOrder.map (fun c => (" " ++ c.name, .nothing (.category c))) ++
  [(" '", .text '\'' fun f => .term (.kind f)),
   (" enchantment >= ", .integer fun n => .term (.enchantment ⟨n, false⟩)),
   (" enchantment <= ", .integer fun n => .term (.enchantment ⟨n, true⟩)),
   (" with any runic", .nothing (.term .anyRunic)),
   (" of '", .text '\'' fun f => .term (.runic f)),
   (" legendary", .nothing (.term .legendary))] ++
  Vocabulary.allyStatuses.map (fun name => (" " ++ name, .nothing (.term (.status name)))) ++
  [(" with any mutation", .nothing (.term .anyMutation)),
   (" <", .text '>' fun f => .term (.mutation f)),
   (" in a vault", .nothing (.term (.vault true))),
   (" outside vaults", .nothing (.term (.vault false)))] ++
  Polarity.all.map (fun p => (" " ++ p.label, .nothing (.term (.magic p)))) ++
  [(" by depth ", .natural fun n => .term (.depth n))]

inductive Ending.Leads : Ending → Topic → List Char → Prop where
  | nothing (topic : Topic) : Leads (.nothing topic) topic []
  | natural (topic : Nat → Topic) (n : Nat) : Leads (.natural topic) (topic n) (toString (n : Int)).toList
  | integer (topic : Int → Topic) (n : Int) : Leads (.integer topic) (topic n) (toString n).toList
  | text {close : Char} {f : String} (topic : String → Topic) (inside : close ∉ f.toList) :
      Leads (.text close topic) (topic f) (f.toList ++ [close])

def Topic.Told (topic : Topic) (text : List Char) : Prop :=
  ∃ opening ending body, (opening, ending) ∈ openings ∧ ending.Leads topic body ∧ text = opening.toList ++ body

inductive Telling : List Topic → List Char → Prop where
  | nil : Telling [] []
  | cons (told : Topic.Told topic text) (rest : Telling topics more) : Telling (topic :: topics) (text ++ more)

variable {category : Category} {t : Term} {topic a b : Topic} {told others : List Topic} {ending : Ending}
  {x y u v text : List Char} {c : Char}

-- The text ends here, or a phrase follows.
def Border (text : List Char) : Prop := ∀ c ∈ text.head?, c = ' '

theorem eq_of_close (left : c ∉ x) (right : c ∉ y) (same : x ++ c :: u = y ++ c :: v) : x = y ∧ u = v := by
  have front {x u : List Char} (free : c ∉ x) : (x ++ c :: u).takeWhile (· ≠ c) = x := by
    rw [List.takeWhile_append_of_pos, List.takeWhile_cons_of_neg (by simp), List.append_nil]
    intro d member
    simpa using ne_of_mem_of_not_mem member free
  have first : x = y := by rw [← front left, same, front right]
  subst first
  exact ⟨rfl, (List.cons.inj (List.append_cancel_left same)).2⟩

theorem eq_of_border (left : ' ' ∉ x) (right : ' ' ∉ y) (upper : Border u) (lower : Border v)
    (same : x ++ u = y ++ v) : x = y ∧ u = v := by
  -- With one more space at the end, what follows starts with a space in any case.
  have closed {z : List Char} (border : Border z) : ∃ rest, z ++ [' '] = ' ' :: rest := by
    cases z with
    | nil => exact ⟨[], rfl⟩
    | cons c rest => exact ⟨rest ++ [' '], by rw [border c rfl, List.cons_append]⟩
  obtain ⟨above, first⟩ := closed upper
  obtain ⟨below, second⟩ := closed lower
  have longer : x ++ ' ' :: above = y ++ ' ' :: below := by
    rw [← first, ← second, ← List.append_assoc, same, List.append_assoc]
  obtain ⟨rfl, -⟩ := eq_of_close left right longer
  exact ⟨rfl, List.append_cancel_left same⟩

theorem spaceless_toString (n : Int) : ' ' ∉ (toString n).toList := by
  intro member
  have solid := Text.solid_toString n member
  cases solid

theorem Ending.Leads.unique (first : ending.Leads a x) (second : ending.Leads b y) (upper : Border u)
    (lower : Border v) (same : x ++ u = y ++ v) : a = b ∧ u = v := by
  cases first with
  | nothing =>
    cases second
    exact ⟨rfl, same⟩
  | natural topic n =>
    cases second with
    | natural _ m =>
      obtain ⟨digits, rest⟩ := eq_of_border (spaceless_toString n) (spaceless_toString m) upper lower same
      have number : (n : Int) = m := by rw [← Report.numberOf_toString n, digits, Report.numberOf_toString]
      exact ⟨congrArg topic (Int.ofNat.inj number), rest⟩
  | integer topic n =>
    cases second with
    | integer _ m =>
      obtain ⟨digits, rest⟩ := eq_of_border (spaceless_toString n) (spaceless_toString m) upper lower same
      have number : n = m := by rw [← Report.numberOf_toString n, digits, Report.numberOf_toString]
      exact ⟨congrArg topic number, rest⟩
  | @text close f topic inside =>
    cases second with
    | @text _ g _ outside =>
      rw [List.append_assoc, List.append_assoc] at same
      obtain ⟨chars, rest⟩ := eq_of_close inside outside same
      exact ⟨congrArg topic (String.toList_inj.mp chars), rest⟩

theorem openings_apart :
    openings.Pairwise fun a b => ¬ a.1.toList <+: b.1.toList ∧ ¬ b.1.toList <+: a.1.toList := by
  decide +kernel

theorem openings_spaced : ∀ entry ∈ openings, entry.1.toList.head? = some ' ' := by
  decide +kernel

theorem eq_of_opening {p q : String × Ending} (first : p ∈ openings) (second : q ∈ openings)
    (same : p.1.toList ++ x = q.1.toList ++ y) : p = q := by
  by_contra other
  have symmetric : Std.Symm fun a b : String × Ending =>
      ¬ a.1.toList <+: b.1.toList ∧ ¬ b.1.toList <+: a.1.toList :=
    ⟨fun a b apart => ⟨apart.2, apart.1⟩⟩
  obtain ⟨upper, lower⟩ := openings_apart.forall first second other
  rcases List.prefix_or_prefix_of_prefix (List.prefix_append p.1.toList x)
    (same ▸ List.prefix_append q.1.toList y) with inner | inner
  · exact upper inner
  · exact lower inner

namespace Topic.Told

theorem head (told : topic.Told text) : text.head? = some ' ' := by
  obtain ⟨opening, ending, body, member, -, rfl⟩ := told
  rw [List.head?_append, openings_spaced _ member]
  rfl

theorem unique (first : a.Told x) (second : b.Told y) (upper : Border u) (lower : Border v)
    (same : x ++ u = y ++ v) : a = b ∧ u = v := by
  obtain ⟨opening, ending, body, member, leads, rfl⟩ := first
  obtain ⟨opening', ending', body', member', leads', rfl⟩ := second
  rw [List.append_assoc, List.append_assoc] at same
  cases eq_of_opening member member' same
  exact leads.unique leads' upper lower (List.append_cancel_left same)

end Topic.Told

namespace Telling

theorem border (telling : Telling told text) : Border text := by
  cases telling with
  | nil => exact fun c member => absurd member (by simp)
  | cons told rest =>
    intro c first
    rw [List.head?_append, told.head] at first
    exact (Option.some.inj first).symm

theorem unique (first : Telling told text) (second : Telling others text) : told = others := by
  induction first generalizing others with
  | nil =>
    generalize empty : [] = text at second
    cases second with
    | nil => rfl
    | cons told rest =>
      have head := told.head
      rw [(List.append_eq_nil_iff.mp empty.symm).1] at head
      cases head
  | @cons topic text topics more told rest ih =>
    generalize whole : text ++ more = all at second
    cases second with
    | nil =>
      have head := told.head
      rw [(List.append_eq_nil_iff.mp whole).1] at head
      cases head
    | cons told' rest' =>
      obtain ⟨rfl, rfl⟩ := told.unique told' rest.border rest'.border whole
      rw [ih rest']

end Telling

def spaced (phrases : List String) : List Char := phrases.flatMap fun phrase => ' ' :: phrase.toList

theorem spaced_intercalate {phrases : List String} (some : phrases ≠ []) :
    ' ' :: (" ".intercalate phrases).toList = spaced phrases := by
  induction phrases with
  | nil => exact absurd rfl some
  | cons first rest ih =>
    cases rest with
    | nil => simp [spaced]
    | cons second rest =>
      have later := ih (by simp)
      rw [String.intercalate_cons_cons, String.toList_append, String.toList_append]
      simp only [spaced, List.flatMap_cons] at later ⊢
      rw [← later]
      simp

theorem known_of_read {token : String} (read : Term.read category token = .ok (some t)) : t.Known category := by
  obtain ⟨trial, -, same⟩ := Trial.exists_of_first read
  cases numeric : trial.slot.isNumeric with
  | true =>
    cases Trial.yields_of_read numeric same <;> trivial
  | false =>
    cases trial with
    | count | depth | signedEnchantment | positiveEnchantment => cases numeric
    | anyRunic | legendary | anyMutation =>
      have found := Except.ok.inj same
      unfold Trial.word at found
      split at found <;> cases found
      trivial
    | vault =>
      have found := Except.ok.inj same
      unfold Trial.word at found
      split at found
      · cases found
        trivial
      · split at found <;> cases found
        trivial
    | magic =>
      obtain ⟨polarity, -, rfl⟩ := Option.map_eq_some_iff.mp (Except.ok.inj same)
      trivial
    | status =>
      obtain ⟨name, listed, rfl⟩ := Option.map_eq_some_iff.mp (Except.ok.inj same)
      exact List.mem_of_find?_eq_some listed
    | kind | runic | mutation =>
      have found := Except.ok.inj same
      split at found
      · rename_i part
        cases found
        exact Trial.exists_of_containsPartial part
      · cases found

-- No name has a mark in it that closes a fragment.
theorem markless_names (category : Category) :
    (∀ name ∈ Vocabulary.kinds category, '\'' ∉ name.toList) ∧
    (∀ name ∈ Vocabulary.runics category, '\'' ∉ name.toList) ∧
    ∀ name ∈ Vocabulary.mutations, '>' ∉ name.toList := by
  refine ⟨?_, ?_, by decide +kernel⟩
  · cases category <;> decide +kernel
  · cases category <;> decide +kernel

theorem markless_fragment {fragment name : String} (part : Text.isFragment fragment name = true)
    (free : c ∉ name.toList) : c ∉ fragment.toList := by
  intro member
  obtain ⟨before, after, whole⟩ := Text.occurs_iff.mp part
  rw [whole] at free
  exact free (List.mem_append_left _ (List.mem_append_right _ member))

theorem told_word {word : String} (listed : (" " ++ word, Ending.nothing topic) ∈ openings) :
    topic.Told (' ' :: word.toList) :=
  ⟨" " ++ word, _, [], listed, .nothing topic, by simp⟩

theorem told_category (c : Category) : (Topic.category c).Told (' ' :: c.name.toList) := by
  refine told_word ?_
  have listed := List.mem_map_of_mem (f := fun c => (" " ++ c.name, Ending.nothing (.category c)))
    (Category.mem_searchOrder c)
  simp only [openings, List.mem_append]
  tauto

theorem told_term (known : t.Known category) : (Topic.term t).Told (' ' :: t.phrase.toList) := by
  obtain ⟨kinds, runics, mutations⟩ := markless_names category
  cases t with
  | anyRunic | legendary | anyMutation => exact told_word (by simp [openings, Term.phrase])
  | vault inside => cases inside <;> exact told_word (by simp [openings, Term.phrase])
  | magic polarity => cases polarity <;> exact told_word (by simp [openings, Term.phrase, Polarity.all])
  | status name =>
    refine told_word ?_
    have listed : name ∈ Vocabulary.allyStatuses := known
    simp [openings, Term.phrase, listed]
  | count mode n =>
    refine ⟨" " ++ mode.label ++ " ", _, _, ?_, .natural (fun n => .term (.count mode n)) n, ?_⟩
    · cases mode <;> simp [openings, CountMode.all]
    · have number : toString (n : Int) = toString n := rfl
      simp [Term.phrase, number]
  | depth n =>
    refine ⟨" by depth ", _, _, ?_, .natural (fun n => .term (.depth n)) n, ?_⟩
    · simp [openings]
    · have number : toString (n : Int) = toString n := rfl
      simp [Term.phrase, number]
  | enchantment threshold =>
    obtain ⟨value, atMost⟩ := threshold
    cases atMost with
    | false =>
      refine ⟨" enchantment >= ", _, _, ?_, .integer (fun n => .term (.enchantment ⟨n, false⟩)) value, ?_⟩
      · simp [openings]
      · simp [Term.phrase, Threshold.text]
    | true =>
      refine ⟨" enchantment <= ", _, _, ?_, .integer (fun n => .term (.enchantment ⟨n, true⟩)) value, ?_⟩
      · simp [openings]
      · simp [Term.phrase, Threshold.text]
  | kind fragment =>
    obtain ⟨name, member, part⟩ := known
    refine ⟨" '", _, _, ?_, .text (fun f => .term (.kind f)) (markless_fragment part (kinds name member)), ?_⟩
    · simp [openings]
    · simp [Term.phrase]
  | runic fragment =>
    obtain ⟨name, member, part⟩ := known
    refine ⟨" of '", _, _, ?_, .text (fun f => .term (.runic f)) (markless_fragment part (runics name member)), ?_⟩
    · simp [openings]
    · simp [Term.phrase]
  | mutation fragment =>
    obtain ⟨name, member, part⟩ := known
    refine ⟨" <", _, _, ?_, .text (fun f => .term (.mutation f)) (markless_fragment part (mutations name member)), ?_⟩
    · simp [openings]
    · simp [Term.phrase]

theorem telling_of_told (each : ∀ topic ∈ told, topic.Told (' ' :: topic.phrase.toList)) :
    Telling told (spaced (told.map Topic.phrase)) := by
  induction told with
  | nil => exact .nil
  | cons topic rest ih =>
    have later := ih fun other member => each other (List.mem_cons_of_mem _ member)
    exact .cons (each topic List.mem_cons_self) later

namespace Criterion

def tellingOrder : List Slot := [.kind, .enchantment, .runic, .status, .mutation, .vault, .magic, .depth]

def topics (c : Criterion) : List Topic :=
  .term (.count c.mode c.target.toNat) :: .category c.category :: (tellingOrder.filterMap c.termAt).map .term

def phraseAt (c : Criterion) (slot : Slot) : List String := ((c.termAt slot).map Term.phrase).toList

variable {c d : Criterion} {cs ds : List Criterion}

theorem map_phrase_told : ((tellingOrder.filterMap c.termAt).map Topic.term).map Topic.phrase =
    tellingOrder.flatMap c.phraseAt := by
  rw [List.map_map, List.map_filterMap, List.filterMap_eq_flatMap_toList]
  rfl

theorem phrases_eq (unsigned : c.Unsigned) : c.phrases = c.topics.map Topic.phrase := by
  have target : toString c.target = toString c.target.toNat :=
    congrArg toString (Int.toNat_of_nonneg unsigned.target).symm
  have depth : toString c.maxDepth = toString c.maxDepth.toNat :=
    congrArg toString (Int.toNat_of_nonneg unsigned.maxDepth).symm
  have counted : (Topic.term (.count c.mode c.target.toNat)).phrase = c.mode.label ++ " " ++ toString c.target := by
    rw [target]
    rfl
  have last : c.phraseAt .depth = ["by depth " ++ toString c.maxDepth] := by
    rw [depth]
    rfl
  have kind : c.phraseAt .kind = (c.kind.map fun k => "'" ++ k ++ "'").toList := by
    unfold phraseAt termAt
    cases c.kind <;> rfl
  have enchantment : c.phraseAt .enchantment = (c.enchantment.map fun t => "enchantment " ++ t.text).toList := by
    unfold phraseAt termAt
    cases c.enchantment <;> rfl
  have magic : c.phraseAt .magic = (c.magic.map Polarity.label).toList := by
    unfold phraseAt termAt
    cases c.magic <;> rfl
  have whole : c.topics.map Topic.phrase =
      [c.mode.label ++ " " ++ toString c.target, c.category.name] ++ tellingOrder.flatMap c.phraseAt := by
    rw [topics, List.map_cons, List.map_cons, map_phrase_told, counted]
    rfl
  rw [whole]
  simp only [tellingOrder, List.flatMap_cons, List.flatMap_nil, kind, enchantment, magic, last]
  have regroup {a k e r s m v g d r' s' m' v' : List String} (runic : r = r') (status : s = s') (mutation : m = m')
      (vault : v = v') : a ++ k ++ e ++ r ++ s ++ m ++ v ++ g ++ d =
        a ++ (k ++ (e ++ (r' ++ (s' ++ (m' ++ (v' ++ (g ++ (d ++ [])))))))) := by
    subst runic status mutation vault
    simp only [List.append_assoc, List.append_nil]
  apply regroup
  · unfold phraseAt termAt
    cases c.runic <;> rfl
  · unfold phraseAt termAt
    cases c.status <;> rfl
  · unfold phraseAt termAt
    cases c.mutation <;> rfl
  · unfold phraseAt termAt
    cases c.vault <;> rfl

theorem telling_describe (legible : Legible category c) : Telling c.topics (' ' :: c.describe.toList) := by
  have filled : c.phrases ≠ [] := by simp [phrases]
  rw [describe, spaced_intercalate filled, phrases_eq legible.unsigned]
  refine telling_of_told fun topic member => ?_
  have shown (t : Term) (slot : Slot) (shows : c.termAt slot = some t) : (Topic.term t).Told (' ' :: t.phrase.toList) := by
    have inside : t ∈ c.terms := mem_terms.mpr (slot_of_termAt shows ▸ shows)
    exact told_term (known_of_read (legible.read t inside))
  simp only [topics, List.mem_cons, List.mem_map, List.mem_filterMap] at member
  rcases member with rfl | rfl | ⟨t, ⟨slot, -, shows⟩, rfl⟩
  · exact shown _ .count rfl
  · exact told_category c.category
  · exact shown t slot shows

theorem mem_topics : Topic.term t ∈ c.topics ↔ t ∈ c.terms := by
  rw [mem_terms]
  simp only [topics, List.mem_cons, List.mem_map, List.mem_filterMap]
  constructor
  · rintro (first | none | ⟨u, ⟨slot, -, shows⟩, same⟩)
    · cases first
      rfl
    · cases none
    · cases same
      rwa [slot_of_termAt shows]
  · intro shows
    by_cases counts : t.slot = .count
    · rw [counts] at shows
      cases shows
      exact Or.inl rfl
    · refine Or.inr (Or.inr ⟨t, ⟨t.slot, ?_, shows⟩, rfl⟩)
      cases place : t.slot <;> simp_all [tellingOrder]

theorem eq_of_terms (left : c.Unsigned) (right : d.Unsigned) (category : c.category = d.category)
    (same : ∀ t, t ∈ c.terms ↔ t ∈ d.terms) : c = d := by
  refine eq_of_same category fun slot => ?_
  cases shows : c.termAt slot with
  | some t =>
    obtain rfl := slot_of_termAt shows
    have inside := mem_terms.mpr shows
    exact (shown_of_mem left inside).same (shown_of_mem right ((same t).mp inside))
  | none =>
    have blank : d.termAt slot = none := by
      refine Option.eq_none_iff_forall_ne_some.mpr fun t there => ?_
      obtain rfl := slot_of_termAt there
      have here := mem_terms.mp ((same t).mpr (mem_terms.mpr there))
      rw [shows] at here
      cases here
    have here : slot.Same c { category := c.category } := same_blank shows
    have there : slot.Same d { category := c.category } := same_blank blank
    exact here.trans there.symm

def Compiled (c : Criterion) : Prop :=
  ∃ category tokens depth cs, 1 ≤ depth ∧ depth ≤ 26 ∧ compileTokens category tokens depth = .ok cs ∧ c ∈ cs

-- No two criteria are described in the same words.
theorem describe_identifies (left : c.Compiled) (right : d.Compiled) (same : c.describe = d.describe) : c = d := by
  obtain ⟨category, tokens, depth, cs, low, high, compiled, member⟩ := left
  obtain ⟨category', tokens', depth', ds, low', high', compiled', member'⟩ := right
  have legible := (legible_of_compileTokens low high compiled).2 c member
  have legible' := (legible_of_compileTokens low' high' compiled').2 d member'
  have told := telling_describe legible
  rw [same] at told
  have topics : c.topics = d.topics := told.unique (telling_describe legible')
  have kept : c.category = d.category := by
    have second := (List.cons.inj (List.cons.inj topics).2).1
    exact Topic.category.inj second
  refine eq_of_terms legible.unsigned legible'.unsigned kept fun t => ?_
  rw [← mem_topics, topics, mem_topics]

def toxicGoblins : Criterion :=
  { category := .ally, target := 2, kind := some "goblin", status := .named "shackled", mutation := .named "toxic" }

-- The same terms in another order, with the depth given instead of taken over.
theorem toxicGoblins_identified :
    toxicGoblins.describe = "at least 2 ally 'goblin' shackled <toxic> by depth 26" ∧
    ∃ c d, compileTokens .ally ["2", "goblin", "shackled", "toxic"] 26 = .ok [c] ∧
      compileTokens .ally ["toxic", "d26", "goblin", "2", "shackled"] 7 = .ok [d] ∧
      c.describe = d.describe ∧ c = d := by
  have first : compileTokens .ally ["2", "goblin", "shackled", "toxic"] 26 = .ok [toxicGoblins] := by decide +kernel
  have second : compileTokens .ally ["toxic", "d26", "goblin", "2", "shackled"] 7 = .ok [toxicGoblins] := by
    decide +kernel
  have left : toxicGoblins.Compiled := ⟨.ally, _, 26, _, by decide, by decide, first, List.mem_singleton_self _⟩
  have right : toxicGoblins.Compiled := ⟨.ally, _, 7, _, by decide, by decide, second, List.mem_singleton_self _⟩
  exact ⟨by decide +kernel, toxicGoblins, toxicGoblins, first, second, rfl, describe_identifies left right rfl⟩

end Criterion

end SeedSearch
