import Mathlib.Data.List.Basic
import SeedSearch.Encoding

namespace SeedSearch.Encoding

theorem cut_front {octets more front tail : List UInt8} (cut : octets ++ more = front ++ tail) :
    (∃ missing, missing ≠ [] ∧ octets ++ missing = front ∧ more = missing ++ tail) ∨
      ∃ body, octets = front ++ body ∧ body ++ more = tail := by
  obtain ⟨missing, first, later⟩ | ⟨body, first, later⟩ := List.append_eq_append_iff.mp cut
  · by_cases none_missing : missing = []
    · exact .inr ⟨[], by simp [first, none_missing], by simp [later, none_missing]⟩
    · exact .inl ⟨missing, none_missing, first.symm, later⟩
  · exact .inr ⟨body, first, later.symm⟩

-- A way of writing characters in octets together with a reader of them, to
-- which the characters read so far are given, latest first. The reader takes a
-- whole character for what it is, and leaves the beginning of one over.
structure CharCodec (encodeChar : Char → List UInt8)
    (reader : Bool → Nat → List Char → List UInt8 → Except Fault (List Char × List UInt8)) : Prop where
  empty : ∀ final place done, reader final place done [] = .ok (done, [])
  whole : ∀ final place done c tail, reader final place done (encodeChar c ++ tail) =
    reader final (place + (encodeChar c).length) (c :: done) tail
  part : ∀ place done c octets more, octets ++ more = encodeChar c → more ≠ [] →
    reader false place done octets = .ok (done, octets)

namespace CharCodec

variable {encodeChar : Char → List UInt8}
  {reader : Bool → Nat → List Char → List UInt8 → Except Fault (List Char × List UInt8)}
  {text done : List Char} {octets more : List UInt8} {place : Nat}

theorem finish (codec : CharCodec encodeChar reader) :
    reader true place done (text.flatMap encodeChar) = .ok (text.reverse ++ done, []) := by
  induction text generalizing place done with
  | nil => exact codec.empty ..
  | cons c text ih =>
    rw [List.flatMap_cons, codec.whole, ih]
    simp

-- A block may end anywhere in the text. By induction on the text: it ends in the
-- first character or goes on behind it.
theorem pause (codec : CharCodec encodeChar reader) (place : Nat) (done : List Char)
    (cut : octets ++ more = text.flatMap encodeChar) :
    ∃ out rest held, text = out ++ rest ∧ reader false place done octets = .ok (out.reverse ++ done, held) ∧
      held ++ more = rest.flatMap encodeChar := by
  induction text generalizing place done octets with
  | nil =>
    obtain ⟨rfl, rfl⟩ := List.append_eq_nil_iff.mp cut
    exact ⟨[], [], [], rfl, codec.empty .., rfl⟩
  | cons c text ih =>
    rw [List.flatMap_cons] at cut
    obtain ⟨missing, some_missing, first, rfl⟩ | ⟨tail, rfl, behind⟩ := cut_front cut
    · refine ⟨[], c :: text, octets, rfl, codec.part _ _ c _ _ first some_missing, ?_⟩
      rw [List.flatMap_cons, ← first, List.append_assoc]
    · obtain ⟨out, rest, held, rfl, read, left⟩ := ih (place + (encodeChar c).length) (c :: done) behind
      refine ⟨c :: out, rest, held, rfl, ?_, left⟩
      rw [codec.whole, read, List.reverse_cons, List.append_assoc, List.singleton_append]

end CharCodec

theorem valid_char (c : Char) : c.toNat < 0xd800 ∨ (0xdfff < c.toNat ∧ c.toNat < 0x110000) := c.valid

namespace Utf8

variable {o : Option Open} {begun next : Open} {octets more rest other tail : List UInt8} {b : UInt8} {c d : Char}
  {final : Bool} {place k : Nat} {done : List Char}

inductive Closes : Option Open → List UInt8 → Char → Prop where
  | last {o : Option Open} {b : UInt8} {c : Char} (heard : hear o b = .char c) : Closes o [b] c
  | more {o : Option Open} {next : Open} {b : UInt8} {rest : List UInt8} {c : Char}
      (heard : hear o b = .more next) (onward : Closes (some next) rest c) : Closes o (b :: rest) c

theorem Closes.whole (closes : Closes o octets c) :
    decodeFrom final place o done (octets ++ tail) =
      decodeFrom final (place + octets.length) none (c :: done) tail := by
  induction closes generalizing place with
  | last heard => exact decodeFrom_char heard
  | more heard _ ih =>
    rw [List.cons_append, decodeFrom_more heard, ih, List.length_cons, Nat.add_assoc, Nat.add_comm 1]

theorem Closes.part (closes : Closes o (octets ++ more) c) (some_left : more ≠ []) :
    decodeFrom false place o done octets = .ok (done, (o.map (·.seen)).getD [] ++ octets) := by
  induction octets generalizing o place with
  | nil => rw [decodeFrom_pause, List.append_nil]
  | cons b octets ih =>
    generalize whole : b :: octets ++ more = all at closes
    cases closes with
    | last => simp_all
    | more heard onward =>
      cases whole
      rw [decodeFrom_more heard, ih onward]
      simp [seen_of_more heard]

theorem Closes.unique (first : Closes o octets c) (second : Closes o other d)
    (same : octets ++ tail = other ++ more) : c = d := by
  induction first generalizing other with
  | last heard =>
    cases second with
    | last again =>
      cases (List.cons.inj same).1
      exact Heard.char.inj (heard.symm.trans again)
    | more again =>
      cases (List.cons.inj same).1
      cases heard.symm.trans again
  | more heard _ ih =>
    cases second with
    | last again =>
      cases (List.cons.inj same).1
      cases heard.symm.trans again
    | more again onward =>
      obtain ⟨rfl, behind⟩ := List.cons.inj same
      cases heard.symm.trans again
      exact ih onward behind

theorem hear_single : ∀ m < 0x80, hear none m.toUInt8 = .char (Char.ofNat m) := by
  intro m small
  have octet : m.toUInt8.toNat = m := UInt8.toNat_ofNat_of_lt' (by simp only [UInt8.size]; omega)
  have ascii : m.toUInt8 < 0x80 := UInt8.lt_iff_toNat_lt.mpr (by simpa [octet] using small)
  rw [hear, if_pos ascii, octet]

theorem hear_two : ∀ m < 0x20, 2 ≤ m → hear none (0xc0 + m).toUInt8 =
    .more { seen := [(0xc0 + m).toUInt8], bits := m, missing := 1 } := by
  decide

theorem hear_three : ∀ m < 0x10, hear none (0xe0 + m).toUInt8 =
    .more { seen := [(0xe0 + m).toUInt8], bits := m, missing := 2,
            low := if m = 0 then 0xa0 else 0x80, high := if m = 13 then 0x9f else 0xbf } := by
  decide

theorem hear_four : ∀ m < 5, hear none (0xf0 + m).toUInt8 =
    .more { seen := [(0xf0 + m).toUInt8], bits := m, missing := 3,
            low := if m = 0 then 0x90 else 0x80, high := if m = 4 then 0x8f else 0xbf } := by
  decide

theorem hear_next (small : k < 64) (low : begun.low ≤ 0x80 + k) (high : 0x80 + k ≤ begun.high) :
    hear (some begun) (0x80 + k).toUInt8 =
      if begun.missing ≤ 1 then .char (Char.ofNat (begun.bits * 64 + k))
      else .more { seen := begun.seen ++ [(0x80 + k).toUInt8], bits := begun.bits * 64 + k,
                   missing := begun.missing - 1 } := by
  have octet : (0x80 + k).toUInt8.toNat = 0x80 + k := UInt8.toNat_ofNat_of_lt' (by simp only [UInt8.size]; omega)
  have bits : (0x80 + k) % 64 = k := by omega
  simp only [hear, octet, bits, low, high]
  rfl

theorem hear_last (one_missing : begun.missing = 1) (small : k < 64) (low : begun.low ≤ 0x80 + k)
    (high : 0x80 + k ≤ begun.high) (bits : begun.bits * 64 + k = c.toNat) :
    hear (some begun) (0x80 + k).toUInt8 = .char c := by
  rw [hear_next small low high, if_pos (Nat.le_of_eq one_missing), bits, Char.ofNat_toNat]

-- By the length of the character. Only the octet behind the first one has a
-- narrowed range, and a character that is no surrogate keeps to it.
theorem closes_encodeChar (c : Char) : Closes none (encodeChar c) c := by
  have valid := valid_char c
  simp only [encodeChar]
  split
  next one =>
    have whole := hear_single c.toNat one
    rw [Char.ofNat_toNat] at whole
    exact .last whole
  split
  next two =>
    refine .more (hear_two (c.toNat / 64) (by omega) (by omega)) (.last ?_)
    exact hear_last rfl (by omega) (Nat.le_add_right ..) (by dsimp only; omega) (by dsimp only; omega)
  split
  next three =>
    refine .more (hear_three (c.toNat / 4096) (by omega)) (.more (hear_next ?_ ?_ ?_) (.last ?_))
    · omega
    · dsimp only; split <;> omega
    · dsimp only; split <;> omega
    · exact hear_last rfl (by omega) (Nat.le_add_right ..) (by dsimp only; omega) (by dsimp only; omega)
  next four =>
    refine .more (hear_four (c.toNat / 262144) (by omega))
      (.more (hear_next ?_ ?_ ?_) (.more (hear_next ?_ ?_ ?_) (.last ?_)))
    · omega
    · dsimp only; split <;> omega
    · dsimp only; split <;> omega
    · omega
    · exact Nat.le_add_right ..
    · dsimp only; omega
    · exact hear_last rfl (by omega) (Nat.le_add_right ..) (by dsimp only; omega) (by dsimp only; omega)

theorem encodeChar_eq (c : Char) : encodeChar c = String.utf8EncodeChar c := by
  have valid := valid_char c
  have same : c.val.toNat = c.toNat := rfl
  simp only [encodeChar, String.utf8EncodeChar, same]
  generalize c.toNat = n at valid ⊢
  split
  next one => rw [if_pos (by omega)]
  split
  next two =>
    have lead : n / 64 % 32 + 192 = 0xc0 + n / 64 := by omega
    rw [if_neg (by omega), if_pos (by omega), lead]
    simp only [Nat.add_comm 0x80]
  split
  next three =>
    have lead : n / 4096 % 16 + 224 = 0xe0 + n / 4096 := by omega
    rw [if_neg (by omega), if_neg (by omega), if_pos (by omega), lead]
    simp only [Nat.add_comm 0x80]
  next four =>
    have lead : n / 262144 % 8 + 240 = 0xf0 + n / 262144 := by omega
    rw [if_neg (by omega), if_neg (by omega), if_neg (by omega), lead]
    simp only [Nat.add_comm 0x80]

theorem charCodec : CharCodec encodeChar fun final place done => decodeFrom final place none done where
  empty _ _ _ := decodeFrom_nil
  whole _ _ _ c _ := (closes_encodeChar c).whole
  part _ _ c _ _ whole some_left := Closes.part (whole ▸ closes_encodeChar c) some_left

theorem decode_finish (text : List Char) : decode true (encode text) = .ok (text, []) := by
  have read : decodeFrom true 0 none [] (encode text) = .ok (text.reverse ++ [], []) := charCodec.finish
  simp [decode, read, bind, Except.bind, pure, Except.pure]

theorem decode_pause {text : List Char} (cut : octets ++ more = encode text) :
    ∃ out rest held, text = out ++ rest ∧ decode false octets = .ok (out, held) ∧ held ++ more = encode rest := by
  obtain ⟨out, rest, held, rfl, read, left⟩ := charCodec.pause 0 [] cut
  exact ⟨out, rest, held, rfl, by simp [decode, read, bind, Except.bind, pure, Except.pure], left⟩

end Utf8

namespace Utf16

variable {order : Order} {a b c d : UInt8} {tail octets more : List UInt8} {final : Bool} {place : Nat}
  {done : List Char}

theorem unit_octets {u : Nat} (small : u < 0x10000) : Order.little.unit u.toUInt8 (u / 256).toUInt8 = u := by
  have upper : (u / 256).toUInt8.toNat = u / 256 := UInt8.toNat_ofNat_of_lt' (by simp only [UInt8.size]; omega)
  have lower : u.toUInt8.toNat = u % 256 := rfl
  rw [Order.unit, upper, lower, Nat.div_add_mod']

theorem decodeFrom_unit (not_low : isLow (order.unit a b) = false) (not_high : isHigh (order.unit a b) = false) :
    decodeFrom order final place done (a :: b :: tail) =
      decodeFrom order final (place + 2) (Char.ofNat (order.unit a b) :: done) tail := by
  match tail with
  | [] => simp [decodeFrom, not_low, not_high]
  | [c] => simp [decodeFrom, not_low, not_high]
  | c :: d :: rest => simp [decodeFrom, not_low, not_high]

theorem decodeFrom_pair (not_low : isLow (order.unit a b) = false) (high : isHigh (order.unit a b) = true)
    (low : isLow (order.unit c d) = true) :
    decodeFrom order final place done (a :: b :: c :: d :: tail) =
      decodeFrom order final (place + 4) (join (order.unit a b) (order.unit c d) :: done) tail := by
  simp [decodeFrom, not_low, high, low]

inductive Units (c : Char) : List UInt8 → Prop where
  | single {a b : UInt8} (not_low : isLow (Order.little.unit a b) = false)
      (not_high : isHigh (Order.little.unit a b) = false) (char : Char.ofNat (Order.little.unit a b) = c) :
      Units c [a, b]
  | pair {a b x y : UInt8} (not_low : isLow (Order.little.unit a b) = false)
      (high : isHigh (Order.little.unit a b) = true) (low : isLow (Order.little.unit x y) = true)
      (char : join (Order.little.unit a b) (Order.little.unit x y) = c) : Units c [a, b, x, y]

theorem units_encodeChar (c : Char) : Units c (encodeChar c) := by
  have valid := valid_char c
  simp only [encodeChar]
  split
  next one =>
    have unit := unit_octets one
    refine .single ?_ ?_ ?_ <;> rw [unit]
    · simp [isLow]; omega
    · simp [isHigh]; omega
    · exact Char.ofNat_toNat c
  next two =>
    have high := unit_octets (u := 0xd800 + (c.toNat - 0x10000) / 1024) (by omega)
    have low := unit_octets (u := 0xdc00 + (c.toNat - 0x10000) % 1024) (by omega)
    refine .pair ?_ ?_ ?_ ?_
    · rw [high]; simp [isLow]; omega
    · rw [high]; simp [isHigh]; omega
    · rw [low]; simp [isLow]; omega
    · have whole : 0x10000 + (0xd800 + (c.toNat - 0x10000) / 1024 - 0xd800) * 1024 +
          (0xdc00 + (c.toNat - 0x10000) % 1024 - 0xdc00) = c.toNat := by omega
      rw [high, low, join, whole, Char.ofNat_toNat]

theorem Units.whole {c : Char} {octets : List UInt8} (units : Units c octets) :
    decodeFrom .little final place done (octets ++ tail) =
      decodeFrom .little final (place + octets.length) (c :: done) tail := by
  cases units with
  | single not_low not_high char => exact char ▸ decodeFrom_unit not_low not_high
  | pair not_low high low char => exact char ▸ decodeFrom_pair not_low high low

theorem Units.part {c : Char} (units : Units c (octets ++ more)) (some_left : more ≠ []) :
    decodeFrom .little false place done octets = .ok (done, octets) := by
  generalize whole : octets ++ more = all at units
  cases units with
  | single =>
    match octets, whole with
    | [], _ => rfl
    | [a], _ => rfl
    | a :: b :: rest, whole => simp_all
  | pair not_low high =>
    match octets, whole with
    | [], _ => rfl
    | [a], _ => rfl
    | [a, b], whole => 
      cases whole
      simp [decodeFrom, not_low, high]
    | [a, b, x], whole =>
      cases whole
      simp [decodeFrom, not_low, high]
    | a :: b :: x :: y :: rest, whole => simp_all

theorem charCodec : CharCodec encodeChar (decodeFrom .little) where
  empty _ _ _ := rfl
  whole _ _ _ c _ := (units_encodeChar c).whole
  part _ _ c _ _ whole some_left := Units.part (whole ▸ units_encodeChar c) some_left

theorem decode_finish (place : Nat) (text : List Char) : decode .little true place (encode text) = .ok (text, []) := by
  have read : decodeFrom .little true place [] (encode text) = .ok (text.reverse ++ [], []) := charCodec.finish
  simp [decode, read, bind, Except.bind, pure, Except.pure]

theorem decode_pause (place : Nat) {text : List Char} (cut : octets ++ more = encode text) :
    ∃ out rest held, text = out ++ rest ∧ decode .little false place octets = .ok (out, held) ∧
      held ++ more = encode rest := by
  obtain ⟨out, rest, held, rfl, read, left⟩ := charCodec.pause place [] cut
  exact ⟨out, rest, held, rfl, by simp [decode, read, bind, Except.bind, pure, Except.pure], left⟩

end Utf16
end SeedSearch.Encoding
