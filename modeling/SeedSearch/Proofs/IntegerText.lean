import Mathlib.Data.Nat.Digits.Defs
import SeedSearch.Proofs.RowFields

namespace SeedSearch.Text

def Repadded (a b : String) : Prop :=
  ∃ core front back front' back', a.toList = front ++ core ++ back ∧ b.toList = front' ++ core ++ back' ∧
    (∀ c ∈ front ++ back, isBlank c = true) ∧ ∀ c ∈ front' ++ back', isBlank c = true

def Blank (raw : String) : Prop := ∀ c ∈ raw.toList, isBlank c = true

def DigitOf (c : Char) (d : Nat) : Prop := ∃ first ∈ zeros, d < 10 ∧ c.toNat = first + d

variable {c : Char} {d n : Nat} {text front core back : List Char} {digits : List Nat} {drops fewer : Char → Bool}
  {raw a b : String} {k : Int}

theorem trimBy_around (core : List Char) (outside : ∀ c ∈ front ++ back, drops c = true) :
    trimBy drops (front ++ core ++ back) = trimBy drops core := by
  have before : ∀ c ∈ front, drops c = true := fun c member => outside c (List.mem_append_left back member)
  have behind : ∀ c ∈ back, drops c = true := fun c member => outside c (List.mem_append_right front member)
  have back_gone : ∀ c ∈ back.reverse, drops c = true := fun c member => behind c (List.mem_reverse.mp member)
  rw [trimBy, trimBy, List.append_assoc, List.dropWhile_append_of_pos before, List.dropWhile_append]
  split
  · rename_i empty
    have gone : core.dropWhile drops = [] := List.isEmpty_iff.mp empty
    have rest_gone : back.dropWhile drops = [] := List.dropWhile_eq_nil_iff.mpr behind
    rw [gone, rest_gone]
  · rw [List.reverse_append, List.dropWhile_append_of_pos back_gone]

theorem exists_around (drops : Char → Bool) (text : List Char) :
    ∃ front back, text = front ++ trimBy drops text ++ back ∧ ∀ c ∈ front ++ back, drops c = true := by
  let rest := text.dropWhile drops
  have split : rest = trimBy drops text ++ (rest.reverse.takeWhile drops).reverse := by
    rw [trimBy, ← List.reverse_append, List.takeWhile_append_dropWhile, List.reverse_reverse]
  refine ⟨text.takeWhile drops, (rest.reverse.takeWhile drops).reverse, ?_, ?_⟩
  · rw [List.append_assoc, ← split, List.takeWhile_append_dropWhile]
  · intro c member
    rcases List.mem_append.mp member with before | behind
    · exact List.mem_takeWhile_imp before
    · exact List.mem_takeWhile_imp (List.mem_reverse.mp behind)

theorem repadded_iff : Repadded a b ↔ strip a = strip b := by
  constructor
  · rintro ⟨core, front, back, front', back', first, second, blank, blank'⟩
    rw [strip, strip, first, second, trimBy_around core blank, trimBy_around core blank']
  · intro same
    have cores : trimBy isBlank a.toList = trimBy isBlank b.toList := String.ofList_injective same
    obtain ⟨front, back, first, blank⟩ := exists_around isBlank a.toList
    obtain ⟨front', back', second, blank'⟩ := exists_around isBlank b.toList
    exact ⟨_, front, back, front', back', first, cores ▸ second, blank, blank'⟩

theorem blank_iff : Blank raw ↔ strip raw = "" := by
  constructor
  · intro blank
    have around : ∀ c ∈ raw.toList ++ [], isBlank c = true := by rwa [List.append_nil]
    have bare := trimBy_around [] around
    rw [List.append_nil, List.append_nil] at bare
    rw [strip, bare]
    rfl
  · intro empty c member
    obtain ⟨front, back, whole, blank⟩ := exists_around isBlank raw.toList
    have core : trimBy isBlank raw.toList = [] := String.ofList_injective empty
    rw [core, List.append_nil] at whole
    exact blank c (whole ▸ member)

theorem Repadded.refl (a : String) : Repadded a a := repadded_iff.mpr rfl

theorem Repadded.symm (same : Repadded a b) : Repadded b a := repadded_iff.mpr (repadded_iff.mp same).symm

theorem Blank.repadded (blank : Blank a) (same : Repadded a b) : Blank b := by
  rw [blank_iff, ← repadded_iff.mp same]
  exact blank_iff.mp blank

theorem zeros_apart : ∀ first ∈ zeros, ∀ other ∈ zeros, first = other ∨ first+10 ≤ other ∨ other+10 ≤ first := by
  decide +kernel

-- No white space, sign or low line is among the digits.
theorem digits_solid : ∀ first ∈ zeros, ∀ d < 10, isBlank (Char.ofNat (first+d)) = false ∧
    Char.ofNat (first+d) ∉ ['_', '-', '+'] := by
  decide +kernel

theorem DigitOf.solid (digit : DigitOf c d) : isBlank c = false ∧ c ∉ ['_', '-', '+'] := by
  obtain ⟨first, member, low, place⟩ := digit
  have solid := digits_solid first member d low
  rwa [← place, Char.ofNat_toNat] at solid

theorem digitValue_eq_some_iff : digitValue? c = some d ↔ DigitOf c d := by
  have holds (first : Nat) : (first ≤ c.toNat && c.toNat < first+10) = true ↔ ∃ d < 10, c.toNat = first + d := by
    rw [Bool.and_eq_true, decide_eq_true_iff, decide_eq_true_iff]
    exact ⟨fun within => ⟨c.toNat - first, by omega, by omega⟩, fun ⟨d, low, place⟩ => by omega⟩
  constructor
  · intro read
    obtain ⟨first, found, rfl⟩ := Option.map_eq_some_iff.mp read
    obtain ⟨d, low, place⟩ := (holds first).mp (by simpa using List.find?_some found)
    exact ⟨first, List.mem_of_find?_eq_some found, by omega, by omega⟩
  · rintro ⟨first, member, low, place⟩
    have found : (zeros.find? fun z => z ≤ c.toNat && c.toNat < z+10).isSome :=
      List.find?_isSome.mpr ⟨first, member, (holds first).mpr ⟨d, low, place⟩⟩
    obtain ⟨other, found⟩ := Option.isSome_iff_exists.mp found
    obtain ⟨e, small, same⟩ := (holds other).mp (by simpa using List.find?_some found)
    have one : first = other := by
      rcases zeros_apart first member other (List.mem_of_find?_eq_some found) with one | below | above
      · exact one
      · omega
      · omega
    rw [digitValue?, found, Option.map_some, ← one, place, Nat.add_sub_cancel_left]

namespace Numeral

inductive Digits : List Char → List Nat → Prop
  | single {c : Char} {d : Nat} (digit : DigitOf c d) : Digits [c] [d]
  | next {c : Char} {d : Nat} {text : List Char} {digits : List Nat} (digit : DigitOf c d)
      (rest : Digits text digits) : Digits (c :: text) (d :: digits)
  | spaced {c : Char} {d : Nat} {text : List Char} {digits : List Nat} (digit : DigitOf c d)
      (rest : Digits text digits) : Digits (c :: '_' :: text) (d :: digits)

inductive Sign : List Char → Int → Prop
  | none : Sign [] 1
  | plus : Sign ['+'] 1
  | minus : Sign ['-'] (-1)

inductive Denotes (raw : String) (k : Int) : Prop
  | intro {front sign body back : List Char} {digits : List Nat} {factor : Int}
      (whole : raw.toList = front ++ (sign ++ body) ++ back) (blank : ∀ c ∈ front ++ back, isBlank c = true)
      (signed : Sign sign factor) (run : Digits body digits) (short : digits.length ≤ digitLimit)
      (value : k = factor * (Nat.ofDigits 10 digits.reverse : Nat))

theorem Digits.head (run : Digits text digits) : ∃ c d, text.head? = some c ∧ DigitOf c d := by
  cases run with
  | single digit | next digit rest | spaced digit rest => exact ⟨_, _, rfl, digit⟩

theorem Digits.last (run : Digits text digits) : ∃ c d, text.getLast? = some c ∧ DigitOf c d := by
  induction run with
  | single digit => exact ⟨_, _, rfl, digit⟩
  | next digit rest ih | spaced digit rest ih =>
    obtain ⟨c, d, last, final⟩ := ih
    exact ⟨c, d, by simp [List.getLast?_cons, last], final⟩

theorem digits_eq_some_iff : digits? text = some digits ↔ Digits text digits := by
  constructor
  · intro read
    fun_induction digits? text generalizing digits with
    | case1 => cases read
    | case2 c =>
      obtain ⟨d, digit, rfl⟩ := Option.map_eq_some_iff.mp read
      exact .single (digitValue_eq_some_iff.mp digit)
    | case3 c rest ih =>
      simp only [Option.pure_def, Option.bind_eq_bind, Option.bind_eq_some_iff, Option.some.injEq] at read
      obtain ⟨d, digit, more, behind, rfl⟩ := read
      exact .spaced (digitValue_eq_some_iff.mp digit) (ih behind)
    | case4 c rest nonempty plain ih =>
      simp only [Option.pure_def, Option.bind_eq_bind, Option.bind_eq_some_iff, Option.some.injEq] at read
      obtain ⟨d, digit, more, behind, rfl⟩ := read
      exact .next (digitValue_eq_some_iff.mp digit) (ih behind)
  · intro run
    induction run with
    | single digit => simp [digits?, digitValue_eq_some_iff.mpr digit]
    | spaced digit rest ih => simp [digits?, digitValue_eq_some_iff.mpr digit, ih]
    | @next c d text digits digit rest ih =>
      obtain ⟨first, value, head, number⟩ := rest.head
      obtain ⟨rest, rfl⟩ := List.head?_eq_some_iff.mp head
      have plain : first ≠ '_' := fun line => number.solid.2 (by simp [line])
      rw [digits?]
      · simp [digitValue_eq_some_iff.mpr digit, ih]
      · simp
      · intro more line
        exact plain (List.cons.inj line).1

theorem positional_eq (digits : List Nat) : positional digits = Nat.ofDigits 10 digits.reverse := by
  rw [positional, Nat.ofDigits_eq_foldr, List.foldr_reverse]
  simp only [Nat.add_comm, Nat.cast_id]

theorem magnitude_eq_some_iff : magnitude? text = some n ↔
    ∃ digits, Digits text digits ∧ digits.length ≤ digitLimit ∧ n = Nat.ofDigits 10 digits.reverse := by
  simp only [magnitude?, Option.bind_eq_bind, Option.bind_eq_some_iff, digits_eq_some_iff, positional_eq]
  constructor
  · rintro ⟨digits, run, short⟩
    split at short
    · cases short
    · rename_i within
      exact ⟨digits, run, Nat.le_of_not_lt within, (Option.some.inj short).symm⟩
  · rintro ⟨digits, run, short, rfl⟩
    exact ⟨digits, run, if_neg (Nat.not_lt.mpr short)⟩

theorem integer_signed {text : String} (solid : trimBy pads text.toList = text.toList) : integer? text = some k ↔
    ∃ sign body factor, ∃ n : Nat, text.toList = sign ++ body ∧ Sign sign factor ∧ magnitude? body = some n ∧
      k = factor * n := by
  rw [integer?, solid]
  constructor
  · intro read
    split at read
    · rename_i rest chars
      obtain ⟨n, value, rfl⟩ := Option.map_eq_some_iff.mp read
      exact ⟨['-'], rest, -1, n, chars, .minus, value, by simp⟩
    · rename_i rest chars
      obtain ⟨n, value, rfl⟩ := Option.map_eq_some_iff.mp read
      exact ⟨['+'], rest, 1, n, chars, .plus, value, by simp⟩
    · obtain ⟨n, value, rfl⟩ := Option.map_eq_some_iff.mp read
      exact ⟨[], _, 1, n, rfl, .none, value, by simp⟩
  · rintro ⟨sign, body, factor, n, chars, signed, value, rfl⟩
    cases signed with
    | minus =>
      rw [chars]
      simp [value]
    | plus =>
      rw [chars]
      simp [value]
    | none =>
      obtain ⟨digits, run, -, -⟩ := magnitude_eq_some_iff.mp value
      obtain ⟨c, d, head, digit⟩ := run.head
      rw [List.nil_append] at chars
      rw [chars]
      split
      · cases head
        exact absurd digit.solid.2 (by simp)
      · cases head
        exact absurd digit.solid.2 (by simp)
      · simp [value]

theorem not_pads (solid : isBlank c = false) : pads c = false := by simp [pads, solid]

theorem pads_strip (raw : String) : trimBy pads (strip raw).toList = (strip raw).toList := by
  have ends := trimBy_ends isBlank raw.toList
  rw [strip, String.toList_ofList]
  exact trimBy_stays (fun c first => not_pads (ends.1 c first)) fun c last => not_pads (ends.2 c last)

theorem strip_signed {sign body : List Char} {factor : Int} (signed : Sign sign factor) (run : Digits body digits) :
    trimBy isBlank (sign ++ body) = sign ++ body := by
  obtain ⟨last, _, final, digit⟩ := run.last
  obtain ⟨first, _, head, start⟩ := run.head
  apply trimBy_stays
  · cases signed with
    | none =>
      rw [List.nil_append, head]
      simpa using start.solid.1
    | plus | minus => simp [isBlank]
  · rw [List.getLast?_append, final]
    simpa using digit.solid.1

theorem integer_strip_iff : integer? (strip raw) = some k ↔ Denotes raw k := by
  rw [integer_signed (pads_strip raw), strip, String.toList_ofList]
  constructor
  · rintro ⟨sign, body, factor, n, chars, signed, value, rfl⟩
    obtain ⟨digits, run, short, rfl⟩ := magnitude_eq_some_iff.mp value
    obtain ⟨front, back, whole, blank⟩ := exists_around isBlank raw.toList
    exact ⟨chars ▸ whole, blank, signed, run, short, rfl⟩
  · rintro ⟨whole, blank, signed, run, short, value⟩
    refine ⟨_, _, _, _, ?_, signed, magnitude_eq_some_iff.mpr ⟨_, run, short, rfl⟩, value⟩
    rw [whole, trimBy_around _ blank, strip_signed signed run]

example : integer? (strip "\u2003+1_2\u0663\x1f") = some 123 := by decide +kernel

theorem Denotes.unique {j : Int} (first : Denotes raw k) (second : Denotes raw j) : k = j :=
  Option.some.inj ((integer_strip_iff.mpr first).symm.trans (integer_strip_iff.mpr second))

theorem Denotes.repadded (denotes : Denotes a k) (same : Repadded a b) : Denotes b k := by
  rw [← integer_strip_iff, ← repadded_iff.mp same]
  exact integer_strip_iff.mpr denotes

end Numeral

end SeedSearch.Text
