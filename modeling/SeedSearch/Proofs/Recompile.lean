import SeedSearch.Proofs.Canonical

namespace SeedSearch.Criterion
open Term (slotOf)

variable {c : Criterion} {cs criteria : List Criterion} {category : Category} {depth : Int} {t : Term}
  {ts : List Term} {tokens : List String} {s : Compiling}

structure Legible (category : Category) (c : Criterion) : Prop where
  kept : c.category = category
  unsigned : c.Unsigned
  read : ∀ t ∈ c.terms, Term.read category t.token = .ok (some t)

theorem unsigned_of_madeOf (made : MadeOf category depth ts c) (low : 1 ≤ depth) : c.Unsigned := by
  constructor
  · by_cases filled : Slot.count ∈ ts.map Term.slot
    · obtain ⟨t, member, place⟩ := List.mem_map.mp filled
      have shown := made.shown t member
      cases t <;> simp only [Term.slot, reduceCtorEq] at place
      rw [shown.2]
      omega
    · have same : c.target = 1 := (made.blank .count filled).2
      omega
  · by_cases filled : Slot.depth ∈ ts.map Term.slot
    · obtain ⟨t, member, place⟩ := List.mem_map.mp filled
      have shown := made.shown t member
      cases t <;> simp only [Term.slot, reduceCtorEq] at place
      rw [show c.maxDepth = _ from shown]
      omega
    · have same : c.maxDepth = depth := made.blank .depth filled
      omega

-- What no term has set is spelled too: one is enough, down to the given depth.
theorem legible_of_madeOf (made : MadeOf category depth ts c) (low : 1 ≤ depth) (high : depth ≤ 26)
    (legible : ∀ u ∈ ts, Term.read category u.token = .ok (some u)) : Legible category c := by
  have unsigned := unsigned_of_madeOf made low
  refine { kept := made.kept, unsigned, read := fun t member => ?_ }
  have shown := shown_of_mem unsigned member
  by_cases filled : t.slot ∈ ts.map Term.slot
  · obtain ⟨u, inside, place⟩ := List.mem_map.mp filled
    rw [← eq_of_shown (made.shown u inside) shown place]
    exact legible u inside
  · have blank := shown.congr (made.blank t.slot filled).symm
    cases t with
    | count mode n =>
      obtain ⟨rfl, one⟩ := blank
      obtain rfl : n = 1 := by
        have : (1 : Int) = n := one
        omega
      exact Term.read_count (by decide) _
    | depth n =>
      have same : depth = n := blank
      exact Term.read_depth (by omega) (by unfold Trial.depthLimit; omega)
    | vault inside => cases inside <;> cases blank
    | _ => cases blank

theorem take_category : (s.take depth t).draft.category = s.draft.category := by
  unfold Compiling.take
  split
  · unfold Compiling.close
    split <;> rfl
  · rfl

theorem areTerms_of_run (ran : Compiling.run depth s tokens = .ok cs) : AreTerms s.draft.category tokens := by
  induction tokens generalizing s with
  | nil => exact fun token member => absurd member List.not_mem_nil
  | cons token rest ih =>
    unfold Compiling.run at ran
    split at ran
    · cases ran
    · cases ran
    · rename_i t read
      have later := ih ran
      rw [take_category] at later
      intro other member
      rcases List.mem_cons.mp member with rfl | member
      · rw [Term.of?_eq_some_iff.mpr read]
        rfl
      · exact later other member

theorem compileTokens_nil (category : Category) (depth : Int) : ∃ ps, compileTokens category [] depth = .error (.problems ps) := by
  cases category <;> exact ⟨_, rfl⟩

theorem parts_of_compileTokens (compiled : compileTokens category tokens depth = .ok cs) :
    tokens ≠ [] ∧ AreTerms category tokens ∧ ∃ parts, Segmentation (slotOf category) tokens parts ∧
      cs = parts.map fun part => (draftOf category part).criterion depth := by
  have given : tokens ≠ [] := by
    rintro rfl
    obtain ⟨ps, failed⟩ := compileTokens_nil category depth
    rw [failed] at compiled
    cases compiled
  have terms : AreTerms category tokens := areTerms_of_run compiled
  obtain ⟨parts, cut⟩ := exists_cut terms
  rw [compileTokens_terms depth given terms cut] at compiled
  split at compiled
  · cases compiled
    exact ⟨given, terms, parts, cut, rfl⟩
  · cases compiled

theorem legible_of_compileTokens (low : 1 ≤ depth) (high : depth ≤ 26)
    (compiled : compileTokens category tokens depth = .ok cs) :
    cs ≠ [] ∧ ∀ c ∈ cs, Legible category c := by
  obtain ⟨given, terms, parts, cut, rfl⟩ := parts_of_compileTokens compiled
  refine ⟨by simpa using cut.ne_nil given, fun c member => ?_⟩
  obtain ⟨part, inside, rfl⟩ := List.mem_map.mp member
  have own : AreTerms category part := fun token here => terms token (cut.whole ▸ List.mem_flatten_of_mem inside here)
  refine legible_of_madeOf (madeOf_part depth own (cut.apart part inside)) low high fun u read => ?_
  obtain ⟨token, -, same⟩ := List.mem_filterMap.mp read
  exact Term.read_token (Term.of?_eq_some_iff.mp same)

namespace Legible

theorem of?_token (legible : Legible category c) (member : t ∈ c.terms) : Term.of? category t.token = some t :=
  Term.of?_eq_some_iff.mpr (legible.read t member)

theorem areTerms (legible : Legible category c) : AreTerms category c.tokens := by
  intro token member
  rw [tokens_eq legible.unsigned] at member
  obtain ⟨t, inside, rfl⟩ := List.mem_map.mp member
  rw [legible.of?_token inside]
  rfl

theorem termsOf_tokens (legible : Legible category c) : termsOf category c.tokens = c.terms := by
  rw [termsOf, tokens_eq legible.unsigned, List.filterMap_map]
  have same : ∀ t ∈ c.terms, (Term.of? category ∘ Term.token) t = some t := fun t member => legible.of?_token member
  rw [List.filterMap_congr same, List.filterMap_some]

theorem slots (legible : Legible category c) :
    c.tokens.map (Term.slotOf category) = (c.terms.map Term.slot).map some := by
  rw [← termsOf_slots legible.areTerms, legible.termsOf_tokens]

-- The count comes first, so that it breaks off the criterion before it.
theorem opens (legible : Legible category c) :
    ∃ token rest, c.tokens = token :: rest ∧ Term.slotOf category token = some .count := by
  obtain ⟨rest, head⟩ := order_head (c := c)
  have first : c.terms = .count c.mode c.target.toNat :: rest.filterMap c.termAt := by
    rw [terms, head]
    rfl
  refine ⟨_, _, (tokens_eq legible.unsigned).trans (by rw [first, List.map_cons]), ?_⟩
  rw [Term.slotOf, legible.of?_token (by rw [first]; exact List.mem_cons_self)]
  rfl

theorem counts (legible : Legible category c) : some Slot.count ∈ c.tokens.map (Term.slotOf category) := by
  obtain ⟨token, rest, shape, place⟩ := legible.opens
  rw [shape, List.map_cons, place]
  exact List.mem_cons_self

end Legible

theorem cut_of_legible (all : ∀ c ∈ cs, Legible category c) :
    Segmentation (Term.slotOf category) (cs.flatMap Criterion.tokens) (cs.map Criterion.tokens) := by
  refine { whole := List.flatMap_def.symm, filled := ?_, apart := ?_, forced := ?_ }
  · intro member
    obtain ⟨c, inside, empty⟩ := List.mem_map.mp member
    obtain ⟨token, rest, shape, -⟩ := (all c inside).opens
    rw [shape] at empty
    cases empty
  · intro part member
    obtain ⟨c, inside, rfl⟩ := List.mem_map.mp member
    rw [(all c inside).slots]
    exact terms_distinct.map fun a b same => Option.some.inj same
  · refine List.Pairwise.isChain (List.pairwise_map.mpr (List.pairwise_of_forall_mem_list ?_))
    intro earlier before later after
    obtain ⟨token, rest, shape, place⟩ := (all later after).opens
    exact ⟨token, by rw [shape]; rfl, place ▸ (all earlier before).counts⟩

theorem compileTokens_legible (all : ∀ c ∈ cs, Legible category c) (filled : cs ≠ []) :
    compileTokens category (cs.flatMap Criterion.tokens) depth = .ok cs := by
  have terms : AreTerms category (cs.flatMap Criterion.tokens) := by
    intro token member
    obtain ⟨c, inside, here⟩ := List.mem_flatMap.mp member
    exact (all c inside).areTerms token here
  have cut := cut_of_legible all
  have given : cs.flatMap Criterion.tokens ≠ [] := by
    intro empty
    rw [empty] at cut
    exact filled (List.map_eq_nil_iff.mp (cut.eq_nil rfl))
  rw [compileTokens_terms depth given terms cut, if_pos ?_, List.map_map]
  · have same : ∀ c ∈ cs, ((fun part => (draftOf category part).criterion depth) ∘ Criterion.tokens) c = id c := by
      intro c inside
      have legible := all c inside
      have made := madeOf_part depth legible.areTerms (cut.apart _ (List.mem_map_of_mem inside))
      rw [legible.termsOf_tokens] at made
      exact made.unique (madeOf_terms legible.unsigned legible.kept)
    rw [List.map_congr_left same, List.map_id]
  · intro part member countless
    obtain ⟨c, inside, rfl⟩ := List.mem_map.mp member
    exact countless.2 (all c inside).counts

end SeedSearch.Criterion
