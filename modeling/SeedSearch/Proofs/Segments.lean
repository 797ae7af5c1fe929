import Mathlib.Data.List.Chain

namespace SeedSearch

variable {α β : Type} {slot : α → β} {items before after : List α} {x : α} {last part : List α}
  {closed segments others : List (List α)}

-- The cuts of a list whose parts use no slot twice, each forced: a later part
-- opens with an item whose slot the part before it has used.
structure Segmentation (slot : α → β) (items : List α) (segments : List (List α)) : Prop where
  whole : segments.flatten = items
  filled : [] ∉ segments
  apart : ∀ part ∈ segments, (part.map slot).Nodup
  forced : segments.IsChain fun earlier later => ∃ x ∈ later.head?, slot x ∈ earlier.map slot

namespace Segmentation

theorem nil : Segmentation slot [] [] :=
  { whole := rfl, filled := by simp, apart := by simp, forced := List.isChain_nil }

theorem single (x : α) : Segmentation slot [x] [[x]] :=
  { whole := rfl, filled := by simp, apart := by simp, forced := List.isChain_singleton _ }

theorem ne_nil (cut : Segmentation slot items segments) (given : items ≠ []) : segments ≠ [] := by
  rintro rfl
  exact given cut.whole.symm

theorem eq_nil (cut : Segmentation slot items segments) (empty : items = []) : segments = [] := by
  cases segments with
  | nil => rfl
  | cons part rest =>
    have none : part = [] := (List.append_eq_nil_iff.mp (cut.whole.trans empty)).1
    exact absurd (by simp [none]) cut.filled

theorem tail (cut : Segmentation slot items (part :: segments)) :
    Segmentation slot segments.flatten segments :=
  { whole := rfl
    filled := fun member => cut.filled (List.mem_cons_of_mem _ member)
    apart := fun other member => cut.apart other (List.mem_cons_of_mem _ member)
    forced := cut.forced.tail }

theorem join (cut : Segmentation slot items (closed ++ [last])) (free : slot x ∉ last.map slot) :
    Segmentation slot (items ++ [x]) (closed ++ [last ++ [x]]) := by
  obtain ⟨chain, -, border⟩ := List.isChain_append.mp cut.forced
  have opened : last ≠ [] := by
    rintro rfl
    exact cut.filled (by simp)
  refine { whole := ?_, filled := ?_, apart := ?_, forced := ?_ }
  · rw [← cut.whole]
    simp
  · intro member
    rcases List.mem_append.mp member with old | new
    · exact cut.filled (List.mem_append_left _ old)
    · simp at new
  · intro part member
    rcases List.mem_append.mp member with old | new
    · exact cut.apart part (List.mem_append_left _ old)
    · have same : part = last ++ [x] := by simpa using new
      have old := cut.apart last (by simp)
      rw [same, List.map_append]
      refine List.nodup_append.mpr ⟨old, by simp, ?_⟩
      intro y used z here same
      have new : z = slot x := by simpa using here
      exact free (new ▸ same ▸ used)
  · refine List.isChain_append.mpr ⟨chain, List.isChain_singleton _, ?_⟩
    intro earlier there later here
    obtain ⟨y, head, used⟩ := border earlier there last (by simp)
    have same : last ++ [x] = later := by simpa using here
    exact ⟨y, by rw [← same, List.head?_append_of_ne_nil _ opened]; exact head, used⟩

theorem cut_off (cut : Segmentation slot items (closed ++ [last])) (used : slot x ∈ last.map slot) :
    Segmentation slot (items ++ [x]) (closed ++ [last] ++ [[x]]) := by
  refine { whole := ?_, filled := ?_, apart := ?_, forced := ?_ }
  · rw [← cut.whole]
    simp
  · intro member
    rcases List.mem_append.mp member with old | new
    · exact cut.filled old
    · simp at new
  · intro part member
    rcases List.mem_append.mp member with old | new
    · exact cut.apart part old
    · have same : part = [x] := by simpa using new
      simp [same]
  · refine List.isChain_append.mpr ⟨cut.forced, List.isChain_singleton _, ?_⟩
    intro earlier there later here
    have front : last = earlier := by simpa using there
    have next : [x] = later := by simpa using here
    exact ⟨x, by simp [← next], front ▸ used⟩

-- The first part cannot reach past its border: what follows repeats a slot.
theorem stops {more : List α} (cut : Segmentation slot items (part :: segments))
    (follows : segments.flatten = more ++ after) (apart : ((part ++ more).map slot).Nodup) :
    more = [] := by
  cases segments with
  | nil => exact (List.append_eq_nil_iff.mp follows.symm).1
  | cons next rest =>
    obtain ⟨⟨x, head, used⟩, -⟩ := List.isChain_cons_cons.mp cut.forced
    obtain ⟨next, rfl⟩ : ∃ others, next = x :: others := by
      cases next with
      | nil => cases head
      | cons y others => exact ⟨others, by simp_all⟩
    cases more with
    | nil => rfl
    | cons y more =>
      have same : x = y := by simpa using congrArg List.head? follows
      rw [List.map_append] at apart
      have distinct := (List.nodup_append.mp apart).2.2 (slot x) used (slot y) (by simp)
      exact absurd (congrArg slot same) distinct

theorem unique (cut : Segmentation slot items segments) (other : Segmentation slot items others) :
    segments = others := by
  -- The first parts agree, as neither can reach past the other's border.
  induction segments generalizing items others with
  | nil => exact (other.eq_nil cut.whole.symm).symm
  | cons part rest ih =>
    cases others with
    | nil => exact cut.eq_nil other.whole.symm
    | cons first later =>
      have both : part ++ rest.flatten = first ++ later.flatten := cut.whole.trans other.whole.symm
      have same : part = first := by
        rcases List.append_eq_append_iff.mp both with ⟨more, longer, follows⟩ | ⟨more, longer, follows⟩
        · have short := cut.stops follows (longer ▸ other.apart first (by simp))
          simp [longer, short]
        · have short := other.stops follows (longer ▸ cut.apart part (by simp))
          simp [longer, short]
      subst same
      have rests : rest.flatten = later.flatten := List.append_cancel_left both
      have tails := ih cut.tail (rests ▸ other.tail)
      rw [tails]

end Segmentation

end SeedSearch
