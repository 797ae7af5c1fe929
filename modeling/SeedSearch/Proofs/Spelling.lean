import SeedSearch.Proofs.Tokens

namespace SeedSearch

namespace Text

variable {c : Char} {n : Nat} {text : List Char}

theorem isPlainDigit_eq : isPlainDigit c = c.isDigit := by
  simp [isPlainDigit, Char.isDigit, Char.le_def]

theorem isPlainDigit_of_mem (member : c ∈ Nat.toDigits 10 n) : isPlainDigit c = true := by
  rw [isPlainDigit_eq]
  exact Nat.isDigit_of_mem_toDigits (by decide) (by decide) member

theorem positional_toDigits : positional ((Nat.toDigits 10 n).map fun c => c.toNat - 48) = n := by
  rw [positional, List.foldl_map]
  exact Nat.ofDigitChars_ten_toDigits

namespace Numeral

theorem natural_toDigits (short : (Nat.toDigits 10 n).length ≤ digitLimit) :
    natural? (Nat.toDigits 10 n) = .ok (some n) := by
  have plain : (Nat.toDigits 10 n).all isPlainDigit = true :=
    List.all_eq_true.mpr fun c member => isPlainDigit_of_mem member
  unfold natural?
  rw [plain, positional_toDigits, if_neg (by simp [Nat.toDigits_ne_nil]), if_neg (by omega)]

theorem natural_foreign (member : c ∈ text) (foreign : isPlainDigit c = false) :
    natural? text = .ok none := by
  have notAll : text.all isPlainDigit = false := List.all_eq_false.mpr ⟨c, member, by simp [foreign]⟩
  unfold natural?
  rw [notAll]
  simp

end Numeral

end Text

def Term.token : Term → String
  | count mode target => mode.sign ++ toString target
  | depth limit => "d" ++ toString limit
  | enchantment threshold => threshold.token
  | anyRunic => "runic"
  | vault inside => if inside then "vault" else "novault"
  | magic polarity => polarity.name
  | legendary => "legendary"
  | anyMutation => "mutation"
  | kind text | runic text | status text | mutation text => text

def Slot.isNumeric : Slot → Bool
  | count | depth | enchantment => true
  | _ => false

def Trial.slot : Trial → Slot
  | count => .count
  | depth => .depth
  | signedEnchantment | positiveEnchantment => .enchantment
  | anyRunic | runic => .runic
  | kind => .kind
  | vault => .vault
  | magic => .magic
  | legendary | status => .status
  | anyMutation | mutation => .mutation

inductive Trial.Yields : Trial → Term → Prop where
  | count {mode : CountMode} {n : Nat} (bound : n ≤ countLimit) : Yields .count (.count mode n)
  | depth {n : Nat} (low : 1 ≤ n) (high : n ≤ depthLimit) : Yields .depth (.depth n)
  | atLeast {trial : Trial} {n : Nat} (place : trial.slot = .enchantment) (bound : n ≤ 127) :
      Yields trial (.enchantment ⟨n, false⟩)
  | atMost {n : Nat} (bound : n ≤ 128) : Yields .signedEnchantment (.enchantment ⟨-(n : Int), true⟩)

open Text (isPlainDigit)

variable {category : Category} {token : String} {t : Term} {trial other : Trial}
  {check : Nat → Option Term} {digits : List Char} {c : Char} {n : Nat}

namespace Trial

theorem readNumber_some {p : Nat → Prop} [DecidablePred p] {f : Nat → Term}
    (read : readNumber (fun n => if p n then some (f n) else none) digits = .ok (some t)) :
    ∃ n, p n ∧ f n = t := by
  unfold readNumber at read
  generalize Text.Numeral.natural? digits = number at read
  rcases number with e | n | n
  · cases read
  · cases read
  · by_cases bound : p n
    · exact ⟨n, bound, by simpa [Except.map, bound] using read⟩
    · simp [Except.map, bound] at read

theorem readNumber_toDigits (bound : n ≤ countLimit) :
    readNumber check (Nat.toDigits 10 n) = .ok (check n) := by
  have small : n < 10 ^ 10 := by
    unfold countLimit at bound
    omega
  have short : (Nat.toDigits 10 n).length ≤ 10 := (Nat.length_toDigits_le_iff (by decide) (by decide)).mpr small
  unfold readNumber
  rw [Text.Numeral.natural_toDigits (Nat.le_trans short (by decide))]
  rfl

theorem readNumber_foreign (member : c ∈ digits) (foreign : isPlainDigit c = false) :
    readNumber check digits = .ok none := by
  unfold readNumber
  rw [Text.Numeral.natural_foreign member foreign]
  rfl

theorem yields_of_read (numeric : trial.slot.isNumeric = true)
    (read : trial.read category token = .ok (some t)) : trial.Yields t := by
  cases trial with
  | count =>
    have counted {mode : CountMode} {digits : List Char} (read : readCount mode digits = .ok (some t)) :
        Trial.Yields .count t := by
      obtain ⟨n, bound, rfl⟩ := readNumber_some read
      exact .count bound
    simp only [Trial.read] at read
    split at read <;> exact counted read
  | depth =>
    simp only [Trial.read] at read
    split at read
    · obtain ⟨n, bounds, rfl⟩ := readNumber_some read
      obtain ⟨low, high⟩ : 1 ≤ n ∧ n ≤ depthLimit := by simpa using bounds
      exact .depth low high
    · cases read
  | positiveEnchantment =>
    simp only [Trial.read] at read
    split at read
    · obtain ⟨n, bound, rfl⟩ := readNumber_some read
      exact .atLeast rfl bound
    · cases read
  | signedEnchantment =>
    simp only [Trial.read, readAtMost] at read
    split at read
    · obtain ⟨n, bound, rfl⟩ := readNumber_some read
      exact .atLeast rfl bound
    · split at read
      · obtain ⟨n, bound, rfl⟩ := readNumber_some read
        exact .atMost bound
      · cases read
  | _ => cases numeric

end Trial

namespace Term

theorem toList_toString : (toString n).toList = Nat.toDigits 10 n := Nat.toList_repr

theorem toList_count {mode : CountMode} :
    (count mode n).token.toList = mode.sign.toList ++ Nat.toDigits 10 n := by
  rw [token, String.toList_append, toList_toString]

theorem toList_depth : (depth n).token.toList = 'd' :: Nat.toDigits 10 n := by
  rw [token, String.toList_append, toList_toString]
  rfl

theorem toList_atLeast : (enchantment ⟨n, false⟩).token.toList = '+' :: Nat.toDigits 10 n := by
  have number : toString (n : Int) = toString n := rfl
  simp only [token, Threshold.token, number]
  rw [if_neg (by decide), String.toList_append, toList_toString]
  rfl

theorem toList_atMost : (enchantment ⟨-(n : Int), true⟩).token.toList = Nat.toDigits 10 n ++ ['-'] := by
  have number : toString (n : Int) = toString n := rfl
  simp only [token, Threshold.token, Int.neg_neg, number]
  rw [if_pos trivial, String.toList_append, toList_toString]
  rfl

end Term

namespace Trial

theorem foreign_mark (mark : c ∈ ['<', '=', 'd', '+', '-']) : isPlainDigit c = false := by
  simp only [List.mem_cons, List.not_mem_nil, or_false] at mark
  rcases mark with rfl | rfl | rfl | rfl | rfl <;> rfl

theorem absent_toDigits (mark : c ∈ ['<', '=', 'd', '+', '-']) : c ∉ Nat.toDigits 10 n := by
  intro member
  have foreign := foreign_mark mark
  rw [Text.isPlainDigit_of_mem member] at foreign
  cases foreign

theorem read_count {mode : CountMode} (bound : n ≤ countLimit) :
    read count category (Term.count mode n).token = .ok (some (.count mode n)) := by
  have counted : readCount mode (Nat.toDigits 10 n) = .ok (some (.count mode n)) :=
    (readNumber_toDigits bound).trans (by rw [if_pos bound])
  simp only [read, Term.toList_count]
  cases mode with
  | lessThan => exact counted
  | equalTo => exact counted
  | atLeast =>
    -- No digit is taken for the mark of another mode.
    have less := absent_toDigits (c := '<') (n := n) (by simp)
    have equal := absent_toDigits (c := '=') (n := n) (by simp)
    simp only [CountMode.sign, String.toList_empty, List.nil_append]
    split
    · rename_i shape
      exact absurd (shape ▸ List.mem_cons_self) less
    · rename_i shape
      exact absurd (shape ▸ List.mem_cons_self) equal
    · exact counted

theorem read_depth (low : 1 ≤ n) (high : n ≤ depthLimit) :
    read depth category (Term.depth n).token = .ok (some (.depth n)) := by
  have small : n ≤ countLimit := Nat.le_trans high (by decide)
  simp only [read, Term.toList_depth]
  exact (readNumber_toDigits small).trans (by simp [low, high])

theorem read_atLeast (bound : n ≤ 127) : readAtLeast (Nat.toDigits 10 n) = .ok (some (.enchantment ⟨n, false⟩)) := by
  have small : n ≤ countLimit := Nat.le_trans bound (by decide)
  exact (readNumber_toDigits small).trans (by rw [if_pos bound])

theorem read_atMost (bound : n ≤ 128) :
    read signedEnchantment category (Term.enchantment ⟨-(n : Int), true⟩).token =
      .ok (some (.enchantment ⟨-(n : Int), true⟩)) := by
  have small : n ≤ countLimit := Nat.le_trans bound (by decide)
  have plus := absent_toDigits (c := '+') (n := n) (by simp)
  simp only [read, Term.toList_atMost]
  split
  · rename_i digits shape
    have first : '+' ∈ Nat.toDigits 10 n ++ ['-'] := shape ▸ List.mem_cons_self
    simp [plus] at first
  · rw [readAtMost, if_pos (by simp), List.dropLast_concat]
    exact (readNumber_toDigits small).trans (by rw [if_pos bound])

theorem read_token (yields : trial.Yields t) : trial.read category t.token = .ok (some t) := by
  cases yields with
  | count bound => exact read_count bound
  | depth low high => exact read_depth low high
  | atMost bound => exact read_atMost bound
  | atLeast place bound =>
    cases trial with
    | signedEnchantment => simpa only [read, Term.toList_atLeast] using read_atLeast bound
    | positiveEnchantment => simpa only [read, Term.toList_atLeast] using read_atLeast bound
    | _ => cases place

theorem count_refuses (member : c ∈ token.toList) (mark : c ∈ ['d', '+', '-']) :
    read count category token = .ok none := by
  have foreign : isPlainDigit c = false := foreign_mark (List.mem_cons_of_mem _ (List.mem_cons_of_mem _ mark))
  have behind {first : Char} {digits : List Char} (known : first ∈ ['<', '='])
      (shape : token.toList = first :: digits) : c ∈ digits := by
    rw [shape] at member
    refine (List.mem_cons.mp member).resolve_left ?_
    rintro rfl
    simp only [List.mem_cons, List.not_mem_nil, or_false] at known
    rcases known with rfl | rfl <;> simp at mark
  simp only [read]
  split
  · rename_i shape
    exact readNumber_foreign (behind (by simp) shape) foreign
  · rename_i shape
    exact readNumber_foreign (behind (by simp) shape) foreign
  · exact readNumber_foreign member foreign

theorem depth_refuses (absent : 'd' ∉ token.toList) : read depth category token = .ok none := by
  simp only [read]
  split
  · rename_i shape
    exact absurd (shape ▸ List.mem_cons_self) absent
  · rfl

theorem enchantment_refuses (place : trial.slot = .enchantment) (plus : '+' ∉ token.toList)
    (minus : '-' ∉ token.toList) : trial.read category token = .ok none := by
  cases trial with
  | positiveEnchantment =>
    simp only [read]
    split
    · rename_i shape
      exact absurd (shape ▸ List.mem_cons_self) plus
    · rfl
  | signedEnchantment =>
    simp only [read]
    split
    · rename_i shape
      exact absurd (shape ▸ List.mem_cons_self) plus
    · exact if_neg fun last => minus (List.mem_of_getLast? last)
  | _ => cases place

-- A trial for another slot has no use for the marks and digits of a number.
theorem read_spelled_other (spells : Spells digits trial token.toList) (plain : digits.all isPlainDigit = true)
    (numeric : other.slot.isNumeric = true) (apart : other.slot ≠ trial.slot) :
    other.read category token = .ok none := by
  have absent {c : Char} (mark : c ∈ ['<', '=', 'd', '+', '-']) : c ∉ digits := by
    intro member
    have foreign := foreign_mark mark
    rw [List.all_eq_true.mp plain c member] at foreign
    cases foreign
  have noDepth : 'd' ∉ digits := absent (by simp)
  have plus : '+' ∉ digits := absent (by simp)
  have minus : '-' ∉ digits := absent (by simp)
  cases place : other.slot with
  | count =>
    cases other with
    | count =>
      generalize shape : token.toList = text at spells
      cases spells with
      | count => exact absurd rfl apart
      | depth => exact count_refuses (c := 'd') (by simp [shape]) (by simp)
      | atLeast => exact count_refuses (c := '+') (by simp [shape]) (by simp)
      | atMost => exact count_refuses (c := '-') (by simp [shape]) (by simp)
    | _ => cases place
  | depth =>
    cases other with
    | depth =>
      refine depth_refuses ?_
      generalize token.toList = text at spells
      cases spells with
      | count mode => cases mode <;> simp [CountMode.sign, noDepth]
      | depth => exact absurd rfl apart
      | atLeast => simp [noDepth]
      | atMost => simp [noDepth]
    | _ => cases place
  | enchantment =>
    have refuses : '+' ∉ token.toList → '-' ∉ token.toList → other.read category token = .ok none :=
      enchantment_refuses place
    generalize token.toList = text at spells refuses
    cases spells with
    | count mode =>
      refine refuses ?_ ?_
      · cases mode <;> simp [CountMode.sign, plus]
      · cases mode <;> simp [CountMode.sign, minus]
    | depth => exact refuses (by simp [plus]) (by simp [minus])
    | atLeast known =>
      simp only [List.mem_cons, List.not_mem_nil, or_false] at known
      rcases known with rfl | rfl <;> exact absurd place apart
    | atMost => exact absurd place apart
  | _ => simp [place, Slot.isNumeric] at numeric

theorem Yields.spells (yields : trial.Yields t) : ∃ n, Spells (Nat.toDigits 10 n) trial t.token.toList := by
  cases yields with
  | @count mode n => exact ⟨n, Term.toList_count ▸ .count mode⟩
  | @depth n => exact ⟨n, Term.toList_depth ▸ .depth⟩
  | @atLeast _ n place =>
    refine ⟨n, Term.toList_atLeast ▸ .atLeast ?_⟩
    cases trial with
    | signedEnchantment | positiveEnchantment => simp
    | _ => cases place
  | @atMost n => exact ⟨n, Term.toList_atMost ▸ .atMost⟩

-- Numbers are tried first, each slot in one way.
theorem grammar_ordered (category : Category) : (grammar category).Pairwise fun earlier later =>
    later.slot.isNumeric = true → earlier.slot.isNumeric = true ∧ earlier.slot ≠ later.slot := by
  cases category <;> decide

theorem count_mem_grammar (category : Category) : count ∈ grammar category := by cases category <;> decide

theorem exists_of_first {trials : List Trial} (read : first category token trials = .ok (some t)) :
    ∃ trial ∈ trials, trial.read category token = .ok (some t) := by
  induction trials with
  | nil => cases read
  | cons trial rest ih =>
    unfold first at read
    cases result : trial.read category token with
    | error e =>
      rw [result] at read
      cases read
    | ok term =>
      rw [result] at read
      cases term with
      | none =>
        obtain ⟨later, member, same⟩ := ih read
        exact ⟨later, List.mem_cons_of_mem _ member, same⟩
      | some u =>
        cases read
        exact ⟨trial, List.mem_cons_self, result⟩

theorem first_of_split {earlier later : List Trial} (refuse : ∀ u ∈ earlier, u.read category token = .ok none)
    (taken : trial.read category token ≠ .ok none) :
    first category token (earlier ++ trial :: later) = trial.read category token := by
  induction earlier with
  | nil =>
    rw [List.nil_append, first]
    rcases result : trial.read category token with e | term | term
    · rfl
    · exact absurd result taken
    · rfl
  | cons u rest ih =>
    rw [List.cons_append, first, refuse u List.mem_cons_self]
    exact ih fun v member => refuse v (List.mem_cons_of_mem _ member)

theorem Spells.isNumeric {text : List Char} (spells : Spells digits trial text) : trial.slot.isNumeric = true := by
  cases spells with
  | atLeast known =>
    simp only [List.mem_cons, List.not_mem_nil, or_false] at known
    rcases known with rfl | rfl <;> rfl
  | _ => rfl

theorem token_of_read (word : trial.slot.isNumeric = false)
    (read : trial.read category token = .ok (some t)) : t.token = token := by
  cases trial with
  | count | depth | signedEnchantment | positiveEnchantment => cases word
  | magic =>
    obtain ⟨polarity, found, rfl⟩ := Option.map_eq_some_iff.mp (Except.ok.inj read)
    simpa [Term.token] using List.find?_some found
  | status =>
    obtain ⟨name, found, rfl⟩ := Option.map_eq_some_iff.mp (Except.ok.inj read)
    exact (Vocabulary.lookup?_eq_some_iff.mp found).1
  | vault =>
    have same := Except.ok.inj read
    unfold Trial.word at same
    split at same
    · cases same
      simp_all [Term.token]
    · split at same
      · cases same
        simp_all [Term.token]
      · cases same
  | anyRunic | legendary | anyMutation =>
    have same := Except.ok.inj read
    unfold Trial.word at same
    split at same
    · cases same
      simp_all [Term.token]
    · cases same
  | kind | runic | mutation =>
    have same := Except.ok.inj read
    split at same
    · cases same
      rfl
    · cases same

end Trial

namespace Term

theorem read_spelled (member : trial ∈ Trial.grammar category) (spells : Trial.Spells digits trial token.toList)
    (plain : digits.all isPlainDigit = true) (taken : trial.read category token ≠ .ok none) :
    Term.read category token = trial.read category token := by
  obtain ⟨earlier, later, split⟩ := List.append_of_mem member
  have ordered := Trial.grammar_ordered category
  rw [split] at ordered
  have before := (List.pairwise_append.mp ordered).2.2
  rw [Term.read, split]
  refine Trial.first_of_split (fun u inside => ?_) taken
  obtain ⟨numeric, apart⟩ := before u inside trial List.mem_cons_self spells.isNumeric
  exact Trial.read_spelled_other spells plain numeric apart

theorem read_numeral (member : trial ∈ Trial.grammar category) (yields : trial.Yields t) :
    Term.read category t.token = .ok (some t) := by
  obtain ⟨n, spells⟩ := yields.spells
  have plain : (Nat.toDigits 10 n).all isPlainDigit = true :=
    List.all_eq_true.mpr fun c inside => Text.isPlainDigit_of_mem inside
  have taken : trial.read category t.token = .ok (some t) := Trial.read_token yields
  rw [read_spelled member spells plain (by simp [taken]), taken]

-- Whatever token a term was read from, its canonical spelling is read as it.
theorem read_token (read : Term.read category token = .ok (some t)) :
    Term.read category t.token = .ok (some t) := by
  obtain ⟨trial, member, same⟩ := Trial.exists_of_first read
  cases numeric : trial.slot.isNumeric with
  | true => exact read_numeral member (Trial.yields_of_read numeric same)
  | false => rw [Trial.token_of_read numeric same, read]

theorem read_count (bound : n ≤ Trial.countLimit) (mode : CountMode) :
    Term.read category (count mode n).token = .ok (some (count mode n)) :=
  read_numeral (Trial.count_mem_grammar category) (.count bound)

theorem read_depth (low : 1 ≤ n) (high : n ≤ Trial.depthLimit) :
    Term.read category (depth n).token = .ok (some (depth n)) := by
  have member : Trial.depth ∈ Trial.grammar category := by cases category <;> decide
  exact read_numeral member (.depth low high)

end Term

end SeedSearch
