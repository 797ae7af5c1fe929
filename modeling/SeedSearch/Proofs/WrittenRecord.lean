import SeedSearch.Proofs.TextReading

namespace SeedSearch.Catalog

-- What a field outside of quotes cannot hold.
def specials : List Char := [',', '"', '\n', '\r']

-- Inside quotes, a quote is written twice.
def doubled (c : Char) : List Char := if c = '"' then ['"', '"'] else [c]

def quoted (value : String) : List Char := '"' :: value.toList.flatMap doubled ++ ['"']

inductive FieldForm (value : String) : List Char → Prop where
  | bare (short : value.length ≤ Record.fieldLimit) (plain : ∀ c ∈ value.toList, c ∉ specials) :
    FieldForm value value.toList
  | quoted (short : value.length ≤ Record.fieldLimit) : FieldForm value (quoted value)

inductive RecordForm : List String → List Char → Prop where
  | last {value : String} {chars : List Char} (form : FieldForm value chars) : RecordForm [value] chars
  | more {value : String} {values : List String} {chars rest : List Char} (form : FieldForm value chars)
    (later : RecordForm values rest) : RecordForm (value :: values) (chars ++ ',' :: rest)

def joined (form : String → List Char) (values : List String) : List Char := [','].intercalate (values.map form)

theorem RecordForm.joined {form : String → List Char} {values : List String} (forms : ∀ v ∈ values, FieldForm v (form v))
    (filled : values ≠ []) : RecordForm values (joined form values) := by
  induction values with
  | nil => exact absurd rfl filled
  | cons v values ih =>
    cases values with
    | nil => simpa [Catalog.joined] using RecordForm.last (forms v List.mem_cons_self)
    | cons w values =>
      have later := ih (fun u member => forms u (List.mem_cons_of_mem v member)) (List.cons_ne_nil w values)
      have whole := RecordForm.more (forms v List.mem_cons_self) later
      simpa [Catalog.joined, List.intercalate] using whole

theorem FieldForm.last {value : String} {chars : List Char} (form : FieldForm value chars) :
    chars.getLast? ≠ some '\r' := by
  intro last
  cases form with
  | bare short plain => exact plain '\r' (List.mem_of_getLast? last) (by simp [specials])
  | quoted short =>
    rw [Catalog.quoted, List.getLast?_concat] at last
    simp at last

theorem RecordForm.last_plain {values : List String} {chars : List Char} (form : RecordForm values chars) :
    chars.getLast? ≠ some '\r' := by
  induction form with
  | last form => exact form.last
  | @more value values chars rest form later ih =>
    intro last
    cases rest with
    | nil => simp at last
    | cons c rest =>
      apply ih
      simpa using last

theorem RecordForm.head_plain {values : List String} {chars : List Char} (form : RecordForm values chars)
    (wide : 1 < values.length) : ∃ c tail, chars = c :: tail ∧ c ≠ '\n' := by
  cases form with
  | last form => simp at wide
  | @more value values chars rest form later =>
    cases form with
    | quoted short => exact ⟨'"', _, rfl, by decide⟩
    | bare short plain =>
      cases first : value.toList with
      | nil => exact ⟨',', rest, rfl, by decide⟩
      | cons c tail =>
        refine ⟨c, _, rfl, ?_⟩
        intro feed
        exact plain c (by simp [first]) (by simp [feed, specials])

variable {c : Char} {a b rest : List Char}

theorem not_break (plain : c ∉ specials) : Record.Reading.isBreak c = false := by
  simp_all [specials, Record.Reading.isBreak]

theorem head_doubled (value : List Char) : (value.flatMap doubled).head? = value.head? := by
  cases value with
  | nil => rfl
  | cons c value =>
    rw [List.flatMap_cons, doubled]
    split <;> simp_all

theorem doubled_plain (plain : c ≠ '"') : doubled c = [c] := if_neg plain

theorem ne_of_break (ends : Record.Reading.isBreak c = true) : c ≠ ',' ∧ c ≠ '"' := by
  constructor <;> intro eq <;> simp [eq, Record.Reading.isBreak] at ends

theorem doubled_break (ends : Record.Reading.isBreak c = true) : doubled c = [c] := doubled_plain (ne_of_break ends).2

theorem breaks_doubled (value : List Char) : breaks (value.flatMap doubled) = breaks value := by
  fun_induction breaks value with
  | case1 => rfl
  | case2 rest ih =>
    rw [List.flatMap_cons, List.flatMap_cons, doubled_break (by decide), doubled_break (by decide)]
    simp [breaks, ih]
  | case3 c rest other ends ih =>
    have still : Apart [c] (rest.flatMap doubled) := (Apart.single other).congr (head_doubled rest)
    rw [List.flatMap_cons, doubled_break ends, List.singleton_append, breaks_break still ends, ih]
  | case4 c rest other inside ih =>
    have inside : Record.Reading.isBreak c = false := by simpa using inside
    rw [List.flatMap_cons, doubled]
    split
    · rw [List.cons_append, List.singleton_append, breaks_inside (by decide), breaks_inside (by decide), ih]
    · rw [List.singleton_append, breaks_inside inside, ih]

namespace Record

variable {r s : Reading} {n : Nat} {begun : Bool} {value : List Char} {phase : Phase}

namespace Reading

def extend (r : Reading) (value : List Char) (phase : Phase) : Reading :=
  { r with phase, chars := value.reverse ++ r.chars, size := r.size + value.length }

@[simp] theorem extend_phase : (r.extend value phase).phase = phase := rfl

@[simp] theorem extend_size : (r.extend value phase).size = r.size + value.length := rfl

theorem extend_extend {later : Phase} : (r.extend a phase).extend b later = r.extend (a ++ b) later := by
  simp [extend, Nat.add_assoc]

theorem add_extend (room : r.size < fieldLimit) : r.add c phase = .ok (r.extend [c] phase) := by
  rw [add, if_neg (Nat.not_le.mpr room)]
  rfl

theorem step_plain (here : r.phase ∈ [.record, .field, .bare]) (room : r.size < fieldLimit)
    (plain : c ∉ specials) : r.step c = .ok (r.extend [c] .bare) := by
  rw [← add_extend room]
  simp only [specials, List.mem_cons, List.not_mem_nil, or_false, not_or] at here plain
  rcases here with phase | phase | phase <;> simp [step, phase, isBreak, plain]

theorem step_quoted (here : r.phase = .quoted) (room : r.size < fieldLimit) (plain : c ≠ '"') :
    r.step c = .ok (r.extend [c] .quoted) := by
  rw [← add_extend room]
  simp [step, here, plain]

theorem step_quote (here : r.phase = .quoted) : r.step '"' = .ok (r.extend [] .quote) := by
  simp [step, here, extend]

theorem step_second (here : r.phase = .quote) (room : r.size < fieldLimit) : r.step '"' = .ok (r.extend ['"'] .quoted) := by
  rw [← add_extend room]
  simp [step, here]

end Reading

theorem readText_plain (here : r.phase ∈ [.record, .field, .bare]) (short : r.size + value.length ≤ fieldLimit)
    (plain : ∀ c ∈ value, c ∉ specials) (filled : value ≠ []) (begun : Bool) (n : Nat) (rest : List Char) :
    readText r begun n (value ++ rest) = readText (r.extend value .bare) true n rest := by
  induction value generalizing r begun with
  | nil => exact absurd rfl filled
  | cons c value ih =>
    rw [List.length_cons] at short
    have foreign := plain c List.mem_cons_self
    rw [List.cons_append, readText_inside (Reading.step_plain here (by omega) foreign) (not_break foreign)]
    cases value with
    | nil => rfl
    | cons d value =>
      have later : ∀ e ∈ d :: value, e ∉ specials := fun e member => plain e (List.mem_cons_of_mem c member)
      rw [ih (by simp) (by simp at short ⊢; omega) later (List.cons_ne_nil d value), Reading.extend_extend]
      rfl

theorem turn_quoted (here : r.phase = .quoted) (n : Nat) (more : Reading → List Numbered × End) :
    turn r n more = more r := by
  simp [turn, Reading.endLine, here]

theorem readText_quoted (here : r.phase = .quoted) (short : r.size + value.length ≤ fieldLimit) (begun : Bool) (n : Nat)
    (rest : List Char) :
    readText r begun n (value.flatMap doubled ++ '"' :: rest) =
      readText (r.extend value .quote) true (n + breaks value) rest := by
  fun_induction breaks value generalizing r begun n with
  | case1 => exact readText_inside (Reading.step_quote here) (by decide)
  | case2 value ih =>
    rw [List.length_cons, List.length_cons] at short
    have second : (r.extend ['\r'] .quoted).step '\n' = .ok (r.extend ['\r', '\n'] .quoted) := by
      apply Reading.step_quoted rfl ?_ (by decide)
      rw [Reading.extend_size, List.length_singleton]
      omega
    have read : r.chars? ['\r', '\n'] = .ok (r.extend ['\r', '\n'] .quoted) := by
      rw [Reading.chars?, Reading.step_quoted here (by omega) (by decide), ← second]
      exact Reading.chars_single
    rw [List.flatMap_cons, List.flatMap_cons, doubled_break (by decide), doubled_break (by decide)]
    rw [List.append_assoc, List.append_assoc, List.singleton_append, List.singleton_append, readText_pair read]
    rw [turn_quoted rfl, ih rfl (by simp; omega), Reading.extend_extend]
    congr 1
    omega
  | case3 c value other ends ih =>
    rw [List.length_cons] at short
    have still : Apart [c] (value.flatMap doubled ++ '"' :: rest) := by
      apply Apart.append _ (by decide)
      exact (Apart.single other).congr (head_doubled value)
    rw [List.flatMap_cons, doubled_break ends, List.append_assoc, List.singleton_append]
    rw [readText_break (Reading.step_quoted here (by omega) (ne_of_break ends).2) ends still]
    rw [turn_quoted rfl, ih rfl (by simp; omega), Reading.extend_extend]
    congr 1
    omega
  | case4 c value other inside ih =>
    rw [List.length_cons] at short
    have inside : Reading.isBreak c = false := by simpa using inside
    rw [List.flatMap_cons]
    by_cases quote : c = '"'
    · rw [quote, doubled, if_pos rfl, List.append_assoc, List.cons_append, List.singleton_append]
      rw [readText_inside (Reading.step_quote here) (by decide)]
      rw [readText_inside (Reading.step_second rfl (by simp; omega)) (by decide)]
      rw [ih rfl (by simp; omega), Reading.extend_extend, Reading.extend_extend]
      rfl
    · rw [doubled_plain quote, List.append_assoc, List.singleton_append]
      rw [readText_inside (Reading.step_quoted here (by omega) quote) inside]
      rw [ih rfl (by simp; omega), Reading.extend_extend]
      rfl

theorem breaks_quoted (value : String) : breaks (quoted value) = breaks value.toList := by
  have apart : Apart (value.toList.flatMap doubled) ['"'] := by
    intro last
    decide
  rw [quoted, List.cons_append, breaks_inside (by decide), breaks_append apart, breaks_doubled]
  rfl

theorem readText_field {value : String} {chars : List Char} (form : FieldForm value chars)
    (here : phase ∈ [.record, .field]) (fields : List String) (begun : Bool) : ∃ later ∈ [phase, .bare, .quote], ∃ still : Bool,
      (begun = true → still = true) ∧ ∀ n rest, readText { phase, fields } begun n (chars ++ rest) =
        readText (({ phase, fields } : Reading).extend value.toList later) still (n + breaks chars) rest := by
  have fits (short : value.length ≤ fieldLimit) : 0 + value.toList.length ≤ fieldLimit := by
    rw [String.length_toList, Nat.zero_add]
    exact short
  cases form with
  | bare short plain =>
    have flat : breaks value.toList = 0 := breaks_plain fun c member => not_break (plain c member)
    by_cases filled : value.toList = []
    · refine ⟨phase, by simp, begun, id, ?_⟩
      intro n rest
      rw [flat, filled]
      rfl
    · refine ⟨.bare, by simp, true, fun _ => rfl, ?_⟩
      intro n rest
      rw [flat]
      exact readText_plain (List.mem_append_left [.bare] here) (fits short) plain filled begun n rest
  | quoted short =>
    refine ⟨.quote, by simp, true, fun _ => rfl, ?_⟩
    intro n rest
    have opens : ({ phase, fields } : Reading).step '"' = .ok { phase := .quoted, fields } := by
      simp only [List.mem_cons, List.not_mem_nil, or_false] at here
      rcases here with first | later <;> simp [Reading.step, Reading.isBreak, *]
    rw [breaks_quoted, quoted, List.cons_append, List.cons_append, List.append_assoc, List.singleton_append]
    rw [readText_inside opens (by decide)]
    exact readText_quoted rfl (fits short) true n rest

structure Reading.Ended (r : Reading) (fields : List String) : Prop where
  phase : r.endLine.phase = .record
  record : r.endLine.record = fields
  step : ∀ c, Reading.isBreak c = true → ∃ s, r.step c = .ok s ∧ s.phase = .afterBreak ∧ s.record = fields

theorem Reading.ended_blank : ({} : Reading).Ended [] where
  phase := rfl
  record := rfl
  step c ends := ⟨{ phase := .afterBreak }, by simp [Reading.step, ends], rfl, rfl⟩

theorem Reading.close_extend {value : String} {fields : List String} {later : Phase} (next : Phase) :
    (({ phase, fields } : Reading).extend value.toList later).close next = { phase := next, fields := value :: fields } := by
  simp [close, extend]

theorem Reading.ended_close (here : r.phase ∈ [.field, .bare, .quote]) : r.Ended (r.close .record).record := by
  simp only [List.mem_cons, List.not_mem_nil, or_false] at here
  have line : r.endLine = r.close .record := by
    rcases here with phase | phase | phase <;> simp [endLine, phase]
  refine ⟨by rw [line, close], by rw [line], ?_⟩
  intro c ends
  refine ⟨r.close .afterBreak, ?_, rfl, rfl⟩
  have foreign := ne_of_break ends
  rcases here with phase | phase | phase <;> simp [step, phase, ends, foreign]

theorem Reading.step_comma {value : String} {fields : List String} {later : Phase}
    (here : later ∈ [.record, .field, .bare, .quote]) :
    (({ phase, fields } : Reading).extend value.toList later).step ',' = .ok { phase := .field, fields := value :: fields } := by
  rw [← close_extend]
  simp only [List.mem_cons, List.not_mem_nil, or_false] at here
  rcases here with rfl | rfl | rfl | rfl <;> rfl

theorem readText_comma {value : String} {chars : List Char} {fields : List String} (form : FieldForm value chars)
    (here : phase ∈ [.record, .field]) (begun : Bool) (n : Nat) (rest : List Char) :
    readText { phase, fields } begun n (chars ++ ',' :: rest) =
      readText { phase := .field, fields := value :: fields } true (n + breaks chars) rest := by
  obtain ⟨later, reached, still, _, read⟩ := readText_field form here fields begun
  rw [read, readText_inside (Reading.step_comma ?_) (by decide)]
  simp only [List.mem_cons, List.not_mem_nil, or_false] at here reached ⊢
  rcases here with rfl | rfl <;> rcases reached with rfl | rfl | rfl <;> simp

theorem breaks_comma (chars rest : List Char) : breaks (chars ++ ',' :: rest) = breaks chars + breaks rest := by
  have apart : Apart chars (',' :: rest) := by
    intro last
    simp
  rw [breaks_append apart, breaks_inside (by decide)]

theorem readText_fields {values : List String} {chars : List Char} (form : RecordForm values chars)
    (fields : List String) : ∃ r, Reading.Ended r (fields.reverse ++ values) ∧ ∀ n rest,
      readText { phase := .field, fields } true n (chars ++ rest) = readText r true (n + breaks chars) rest := by
  induction form generalizing fields with
  | @last value chars form =>
    have here : Phase.field ∈ [.record, .field] := by simp
    obtain ⟨later, reached, still, kept, read⟩ := readText_field form here fields true
    rw [kept rfl] at read
    have ended := Reading.ended_close (r := ({ phase := .field, fields } : Reading).extend value.toList later) reached
    rw [Reading.close_extend, Reading.record, List.reverse_cons] at ended
    exact ⟨_, ended, read⟩
  | @more value values chars rest form later ih =>
    obtain ⟨r, ended, read⟩ := ih (value :: fields)
    refine ⟨r, by simpa using ended, ?_⟩
    intro n after
    rw [List.append_assoc, List.cons_append, readText_comma form (by simp), read, breaks_comma, Nat.add_assoc]

theorem readText_record {values : List String} {chars : List Char} (form : RecordForm values chars)
    (wide : 1 < values.length) : ∃ r, Reading.Ended r values ∧ ∀ n rest,
      readText {} false n (chars ++ rest) = readText r true (n + breaks chars) rest := by
  cases form with
  | last form => simp at wide
  | @more value values chars rest form later =>
    obtain ⟨r, ended, read⟩ := readText_fields later [value]
    refine ⟨r, ended, ?_⟩
    intro n after
    rw [List.append_assoc, List.cons_append, readText_comma form (by simp), read, breaks_comma, Nat.add_assoc]

def behind (records : List Numbered) (more : List Numbered × End) : List Numbered × End :=
  (records ++ more.1, more.2)

theorem behind_behind (a b : List Numbered) (more : List Numbered × End) :
    behind a (behind b more) = behind (a ++ b) more := by
  simp [behind]

theorem turn_ended {fields : List String} {more : Reading → List Numbered × End} (here : s.phase = .afterBreak)
    (holds : s.record = fields) : turn s n more = behind [⟨n, fields⟩] (more {}) := by
  have line : s.endLine = { s with phase := .record } := by simp [Reading.endLine, here]
  rw [turn, line, if_pos rfl, ← holds]
  rfl

theorem Reading.Ended.chars {fields : List String} (ended : r.Ended fields) :
    ∃ s, r.chars? ['\r', '\n'] = .ok s ∧ s.phase = .afterBreak ∧ s.record = fields := by
  obtain ⟨s, read, here, holds⟩ := ended.step '\r' (by decide)
  refine ⟨s, ?_, here, holds⟩
  rw [Reading.chars?, read]
  simp [Reading.chars?, Reading.step, here, Reading.isBreak]

-- One line end closes the record, and the rest of the run is left.
theorem readText_end {chars : List Char} {fields : List String} (ended : r.Ended fields)
    (blank : ∀ c ∈ chars, Reading.isBreak c = true) (filled : chars ≠ []) :
    ∃ head tail, head ≠ [] ∧ chars = head ++ tail ∧ breaks chars = breaks tail + 1 ∧
      ∀ rest, Apart chars rest → Apart tail rest ∧ ∀ begun n,
        readText r begun n (chars ++ rest) = behind [⟨n+1, fields⟩] (readText {} false (n+1) (tail ++ rest)) := by
  fun_cases breaks chars with
  | case1 => exact absurd rfl filled
  | case2 tail =>
    obtain ⟨s, read, here, holds⟩ := ended.chars
    refine ⟨['\r', '\n'], tail, by simp, rfl, rfl, ?_⟩
    intro rest apart
    refine ⟨apart.tail.tail, ?_⟩
    intro begun n
    rw [List.cons_append, List.cons_append, readText_pair read, turn_ended here holds]
  | case3 c tail other ends =>
    obtain ⟨s, read, here, holds⟩ := ended.step c ends
    refine ⟨[c], tail, by simp, rfl, rfl, ?_⟩
    intro rest apart
    refine ⟨apart.tail, ?_⟩
    intro begun n
    rw [List.cons_append, readText_break read ends ((Apart.single other).join apart), turn_ended here holds]
  | case4 c tail other inside => exact absurd (blank c List.mem_cons_self) inside

theorem readText_ends {r : Reading} {chars : List Char} {fields : List String} (ended : r.Ended fields)
    (blank : ∀ c ∈ chars, Reading.isBreak c = true) (filled : chars ≠ []) (n : Nat) :
    ∃ skipped : List Numbered, (∀ record ∈ skipped, record.fields = []) ∧ ∀ rest, Apart chars rest → ∀ begun,
      readText r begun n (chars ++ rest) =
        behind (⟨n+1, fields⟩ :: skipped) (readText {} false (n + breaks chars) rest) := by
  obtain ⟨head, tail, long, eq, counted, reads⟩ := readText_end ended blank filled
  by_cases left : tail = []
  · refine ⟨[], by simp, ?_⟩
    intro rest apart begun
    obtain ⟨_, read⟩ := reads rest apart
    rw [read, counted, left]
    rfl
  · have shorter : tail.length < chars.length := by
      have := List.length_pos_iff.mpr long
      rw [eq, List.length_append]
      omega
    have blanks : ∀ c ∈ tail, Reading.isBreak c = true := fun c member => blank c (by simp [eq, member])
    obtain ⟨skipped, empty, next⟩ := readText_ends Reading.ended_blank blanks left (n+1)
    refine ⟨⟨n+1+1, []⟩ :: skipped, by simpa using empty, ?_⟩
    intro rest apart begun
    obtain ⟨still, read⟩ := reads rest apart
    have later : n + 1 + breaks tail = n + breaks chars := by omega
    rw [read, next rest still, behind_behind, later]
    rfl
termination_by chars.length

theorem readText_eof {fields : List String} (ended : r.Ended fields) (n : Nat) :
    readText r true n [] = ([⟨n+1, fields⟩], .eof) := by
  simp [readText, turn, ended.phase, ended.record, readFrom]

end Record

end SeedSearch.Catalog
