import SeedSearch.Proofs.CharCodec
import SeedSearch.Proofs.TextReading
import SeedSearch.Search

namespace SeedSearch.Encoding

variable {text : List Char} {octets more tail block : List UInt8} {e : Encoding}

namespace Utf8

-- The octets of the UTF-16 marks begin no character.
theorem Closes.first_octet {b : UInt8} {rest : List UInt8} {c : Char} (closes : Closes none (b :: rest) c) :
    0xff ≠ b ∧ 0xfe ≠ b := by
  constructor
  all_goals
    rintro rfl
    cases closes with
    | last heard => cases heard
    | more heard => cases heard

theorem encodeChar_mark : encodeChar '\ufeff' = mark := by decide

-- A text agrees with the mark, as far as both go, only if it begins with the
-- character of the mark.
theorem eq_nil_of_mark (first : text.head? ≠ some '\ufeff') (same : encode text ++ tail = mark ++ more) :
    text = [] := by
  cases text with
  | nil => rfl
  | cons c text =>
    have cut : encodeChar c ++ (encode text ++ tail) = encodeChar '\ufeff' ++ more := by
      rw [encodeChar_mark, ← same, encode, encode, List.flatMap_cons, List.append_assoc]
    have marked := (closes_encodeChar c).unique (closes_encodeChar '\ufeff') cut
    exact absurd (congrArg some marked) first

theorem not_marked (first : text.head? ≠ some '\ufeff') (plain : octets ++ more = encode text) :
    ¬mark <+: octets := by
  rintro ⟨body, rfl⟩
  rw [List.append_assoc] at plain
  have none : text = [] := eq_nil_of_mark first (by rw [← plain, List.append_nil])
  rw [none] at plain
  cases plain

end Utf8

namespace Decoder

variable {d : Decoder}

-- What lies before a decoder that is to come to this text: the octets that it
-- holds and those that it has not been given yet.
def Expects (d : Decoder) (more : List UInt8) (text : List Char) : Prop :=
  match d.progress with
  | .start8 => d.held ++ more = Utf8.mark ++ Utf8.encode text ∨
      (d.held ++ more = Utf8.encode text ∧ text.head? ≠ some '\ufeff')
  | .inside8 => d.held ++ more = Utf8.encode text
  | .start16 => d.held ++ more = Utf16.littleMark ++ Utf16.encode text
  | .inside16 order => order = .little ∧ d.held ++ more = Utf16.encode text

theorem cut_of_mark {mark : List UInt8} (same : octets ++ more = mark ++ tail) :
    (octets.length < mark.length ∧ octets <+: mark) ∨ ∃ body, octets = mark ++ body ∧ body ++ more = tail := by
  refine (cut_front same).imp_left ?_
  intro ⟨missing, some_missing, whole, _⟩
  have some_left := List.length_pos_iff.mpr some_missing
  exact ⟨by rw [← whole, List.length_append]; omega, missing, whole⟩

theorem step_expected (expects : d.Expects (block ++ more) text) :
    ∃ next out rest, d.step false block = .ok (next, out) ∧ text = out ++ rest ∧ next.Expects more rest := by
  unfold Expects at expects
  rw [← List.append_assoc] at expects
  split at expects
  next start =>
    by_cases short : (d.held ++ block).length < 3 ∧ d.held ++ block <+: Utf8.mark
    · exact ⟨_, [], text, step_short8 start short.1 short.2, rfl, by simpa only [Expects, start] using expects⟩
    obtain marked | ⟨plain, first⟩ := expects
    · obtain cut | ⟨body, whole, behind⟩ := cut_of_mark marked
      · exact absurd cut short
      · obtain ⟨out, rest, held, rfl, read, left⟩ := Utf8.decode_pause behind
        exact ⟨_, out, rest, step_marked8 start whole read, rfl, left⟩
    · obtain ⟨out, rest, held, rfl, read, left⟩ := Utf8.decode_pause plain
      exact ⟨_, out, rest, step_plain8 start short (Utf8.not_marked first plain) read, rfl, left⟩
  next inside =>
    obtain ⟨out, rest, held, rfl, read, left⟩ := Utf8.decode_pause expects
    exact ⟨_, out, rest, step_inside8 inside read, rfl, by simpa only [Expects, inside] using left⟩
  next start =>
    obtain ⟨short, begins⟩ | ⟨body, whole, behind⟩ := cut_of_mark expects
    · exact ⟨_, [], text, step_short16 start short begins, rfl, by simpa only [Expects, start] using expects⟩
    · obtain ⟨out, rest, held, rfl, read, left⟩ := Utf16.decode_pause 2 behind
      exact ⟨_, out, rest, step_marked16 start whole read, rfl, rfl, left⟩
  next order inside =>
    obtain ⟨rfl, expects⟩ := expects
    obtain ⟨out, rest, held, rfl, read, left⟩ := Utf16.decode_pause 0 expects
    exact ⟨_, out, rest, step_inside16 inside read, rfl, by simpa only [Expects, inside, true_and] using left⟩

theorem finish_expected (expects : d.Expects [] text) : ∃ next, d.step true [] = .ok (next, text) := by
  unfold Expects at expects
  split at expects
  next start =>
    obtain marked | ⟨plain, first⟩ := expects
    · exact ⟨_, step_marked8 start marked (Utf8.decode_finish text)⟩
    · by_cases short : (d.held ++ []).length < 3 ∧ d.held ++ [] <+: Utf8.mark
      · obtain ⟨missing, whole⟩ := short.2
        obtain rfl := Utf8.eq_nil_of_mark first (by rw [← plain, whole, List.append_nil])
        exact ⟨_, step_short8 start short.1 short.2⟩
      · have unmarked := Utf8.not_marked first ((List.append_nil _).trans plain)
        exact ⟨_, step_plain8 start short unmarked (by rw [plain]; exact Utf8.decode_finish text)⟩
  next inside => exact ⟨_, step_inside8 inside (by rw [expects]; exact Utf8.decode_finish text)⟩
  next start => exact ⟨_, step_marked16 start expects (Utf16.decode_finish 2 text)⟩
  next order inside =>
    obtain ⟨rfl, expects⟩ := expects
    exact ⟨_, step_inside16 inside (by rw [expects]; exact Utf16.decode_finish 0 text)⟩

end Decoder

theorem blocks_flatten (content : List UInt8) : (blocks content).flatten = content := by
  fun_induction blocks content with
  | case1 content empty => simpa using empty.symm
  | case2 content some_left ih => rw [List.flatten_cons, ih, List.take_append_drop]

theorem decodeBlocks_expected {d : Decoder} {cut : List (List UInt8)} (done : List (List Char))
    (expects : d.Expects cut.flatten text) :
    ∃ texts, decodeBlocks d done cut = (done.reverse ++ texts, none) ∧ texts.flatten = text := by
  induction cut generalizing d done text with
  | nil =>
    obtain ⟨next, last⟩ := Decoder.finish_expected expects
    refine ⟨[text], ?_, by simp⟩
    simp [decodeBlocks, last]
  | cons block rest ih =>
    obtain ⟨next, out, behind, read, rfl, later⟩ := Decoder.step_expected expects
    obtain ⟨texts, decoded, rfl⟩ := ih (out :: done) later
    refine ⟨out :: texts, ?_, rfl⟩
    simp [decodeBlocks, read, decoded]

theorem detects_iff_utf8 {b : UInt8} {rest : List UInt8} (not_ff : 0xff ≠ b) (not_fe : 0xfe ≠ b) :
    e.detects (b :: rest) = true ↔ e = .utf8 := by
  cases e <;> simp [detects, Utf16.littleMark, Utf16.bigMark, List.isPrefixOf, not_ff, not_fe]

inductive Stores (text : List Char) : Encoding → List UInt8 → Prop where
  | little : Stores text .utf16 (Utf16.littleMark ++ Utf16.encode text)
  | plain : Stores text .utf8 (text.flatMap String.utf8EncodeChar)
  | marked : Stores text .utf8 (Utf8.mark ++ text.flatMap String.utf8EncodeChar)

namespace Stores

variable {content again : List UInt8} {tree other : Node} {path there : Path} {f : Encoding}

theorem expects (stores : Stores text e content) (first : text.head? ≠ some '\ufeff') :
    e.decoder.Expects content text := by
  have octets : text.flatMap String.utf8EncodeChar = Utf8.encode text :=
    List.flatMap_congr fun c _ => (Utf8.encodeChar_eq c).symm
  cases stores with
  | little => rfl
  | plain => exact .inr ⟨octets, first⟩
  | marked => exact .inl (congrArg (Utf8.mark ++ ·) octets)

theorem decode (stores : Stores text e content) (first : text.head? ≠ some '\ufeff') :
    e.decode content = (text, none) := by
  have expects := stores.expects first
  rw [← blocks_flatten content] at expects
  obtain ⟨texts, decoded, rfl⟩ := decodeBlocks_expected [] expects
  simp [Encoding.decode, decoded]

theorem detects_iff (stores : Stores text e content) : f.detects content = true ↔ f = e := by
  cases stores with
  | little => cases f <;> simp [detects, Utf16.littleMark, Utf16.bigMark]
  | marked => exact detects_iff_utf8 (by decide) (by decide)
  | plain =>
    cases text with
    | nil => cases f <;> decide
    | cons c text =>
      have closes := Utf8.encodeChar_eq c ▸ Utf8.closes_encodeChar c
      rw [List.flatMap_cons]
      cases octets : String.utf8EncodeChar c with
      | nil => cases octets ▸ closes
      | cons b rest =>
        obtain ⟨not_ff, not_fe⟩ := (octets ▸ closes).first_octet
        exact detects_iff_utf8 not_ff not_fe

theorem rows (stores : Stores text e content) (first : text.head? ≠ some '\ufeff')
    (read : tree.read path = .ok content) :
    tree.rows e path = .ok (Catalog.readRows (Catalog.linesOf true text none)) := by
  rw [Node.rows, read, Except.map, stores.decode first]
  rfl

end Stores

theorem stored_text_comes_back (text : List Char) (first : text.head? ≠ some '\ufeff') :
    (∀ e content, Stores text e content →
      (∀ f : Encoding, f.detects content = true ↔ f = e) ∧ e.decode content = (text, none)) ∧
    (Catalog.linesOf true text none).items.flatten = text ∧
    ∀ (q : Query) (tree other : Node) (path there : Path) (e f : Encoding) (content again : List UInt8),
      Stores text e content → Stores text f again →
        tree.read path = .ok content → other.read there = .ok again →
          q.scanFile path (tree.rows e path) = q.scanFile there (other.rows f there) := by
  refine ⟨fun e content stores => ⟨fun f => stores.detects_iff, stores.decode first⟩, ?_, ?_⟩
  · rw [Catalog.linesOf_behind]
    exact Catalog.linesBehind_flatten [] text
  · intro q tree other path there e f content again stores twin read read_again
    rw [stores.rows first read, twin.rows first read_again]
    rfl

-- Longer than a block however it is stored, with a character across its end.
def grins : List Char := '\r' :: '\n' :: List.replicate 5000 '😀'

theorem grins_come_back : grins.head? ≠ some '\ufeff' ∧
    Encoding.utf16.detects (Utf16.littleMark ++ Utf16.encode grins) = true ∧
    Encoding.utf8.detects (Utf16.littleMark ++ Utf16.encode grins) = false ∧
    Encoding.utf16.decode (Utf16.littleMark ++ Utf16.encode grins) = (grins, none) ∧
    Encoding.utf8.decode (grins.flatMap String.utf8EncodeChar) = (grins, none) ∧
    Encoding.utf8.decode (Utf8.mark ++ grins.flatMap String.utf8EncodeChar) = (grins, none) := by
  have unmarked : grins.head? ≠ some '\ufeff' := by decide
  have stored := (stored_text_comes_back grins unmarked).1
  obtain ⟨detected, decoded⟩ := stored _ _ .little
  refine ⟨unmarked, (detected _).mpr rfl, ?_, decoded, (stored _ _ .plain).2, (stored _ _ .marked).2⟩
  exact Bool.eq_false_iff.mpr (mt (detected _).mp (by decide))

end SeedSearch.Encoding
