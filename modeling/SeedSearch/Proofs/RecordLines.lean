import SeedSearch.Proofs.TextReading

namespace SeedSearch.Catalog
open Record (Reading Numbered End)

-- How many lines a text has: its line ends, and one more where something stands
-- behind the last of them.
def lineCount (text : List Char) : Nat :=
  breaks text + if text.getLast?.any (!Reading.isBreak ·) then 1 else 0

variable {line text rest : List Char} {upto : List (List Char)} {c : Char}

structure Closed (line : List Char) : Prop where
  one : breaks line = 1
  ends : line.getLast?.any (!Reading.isBreak ·) = false

theorem apart_plain (plain : ∀ c ∈ line, Reading.isBreak c = false) : Apart line rest := by
  intro last
  have inside := plain '\r' (List.mem_of_getLast? last)
  cases inside

theorem closed_break (plain : ∀ c ∈ line, Reading.isBreak c = false) (ends : Reading.isBreak c = true) :
    Closed (line ++ [c]) := by
  constructor
  · rw [breaks_append (apart_plain plain), breaks_plain plain, breaks_break (by simp [Apart]) ends]
    rfl
  · simp [ends]

theorem closed_pair (plain : ∀ c ∈ line, Reading.isBreak c = false) : Closed (line ++ ['\r', '\n']) := by
  constructor
  · rw [breaks_append (apart_plain plain), breaks_plain plain]
    rfl
  · simp [Reading.isBreak]

theorem Closed.lineCount (closed : Closed line) (apart : Apart line rest) :
    lineCount (line ++ rest) = lineCount rest + 1 := by
  unfold Catalog.lineCount
  rw [breaks_append apart, closed.one, List.getLast?_append]
  cases last : rest.getLast? with
  | none =>
    rw [Option.none_or, closed.ends]
    simp
    omega
  | some d =>
    rw [Option.some_or]
    omega

theorem Apart.of_prefix {a b : List Char} (apart : Apart a b) (first : rest <+: b) : Apart a rest := by
  intro last head
  apply apart last
  obtain ⟨tail, rfl⟩ := List.head?_eq_some_iff.mp head
  obtain ⟨behind, rfl⟩ := first
  rfl

theorem lineCount_behind {lines : List (List Char)} (closed : Closed line) (apart : Apart line lines.flatten)
    (later : ∀ {upto}, upto <+: lines → lineCount upto.flatten = upto.length) (first : upto <+: line :: lines) :
    lineCount upto.flatten = upto.length := by
  rcases List.prefix_cons_iff.mp first with rfl | ⟨more, rfl, inner⟩
  · rfl
  · obtain ⟨behind, whole⟩ := inner
    have start : more.flatten <+: lines.flatten := ⟨behind.flatten, by rw [← whole, List.flatten_append]⟩
    rw [List.flatten_cons, closed.lineCount (apart.of_prefix start), later ⟨behind, whole⟩, List.length_cons]

theorem lineCount_flatten (plain : ∀ c ∈ line, Reading.isBreak c = false) (first : upto <+: linesBehind line text) :
    lineCount upto.flatten = upto.length := by
  fun_induction linesBehind line text generalizing upto with
  | case1 line empty =>
    rw [List.prefix_nil.mp first]
    rfl
  | case2 line full =>
    rcases List.prefix_cons_iff.mp first with rfl | ⟨more, rfl, inner⟩
    · rfl
    · obtain ⟨c, tail, rfl⟩ := List.exists_cons_of_ne_nil (by simpa using full)
      have single : lineCount (c :: tail).reverse = 1 := by
        rw [lineCount, breaks_plain fun d member => plain d (List.mem_reverse.mp member)]
        simp [plain c List.mem_cons_self]
      rw [List.prefix_nil.mp inner]
      simpa using single
  | case3 line rest ih =>
    have closed : Closed (line.reverse ++ ['\r', '\n']) :=
      closed_pair fun c member => plain c (List.mem_reverse.mp member)
    rw [List.reverse_cons, List.reverse_cons, List.append_assoc] at first
    exact lineCount_behind closed (by simp [Apart]) (ih (by simp)) first
  | case4 line c rest other ends ih =>
    have closed : Closed (line.reverse ++ [c]) :=
      closed_break (fun d member => plain d (List.mem_reverse.mp member)) ends
    have apart : Apart (line.reverse ++ [c]) (linesBehind [] rest).flatten := by
      rw [linesBehind_flatten]
      intro last
      exact Apart.single other (by simpa using last)
    rw [List.reverse_cons] at first
    exact lineCount_behind closed apart (ih (by simp)) first
  | case5 line c rest other inside ih =>
    refine ih (fun d member => ?_) first
    rcases List.mem_cons.mp member with rfl | old
    · simpa using inside
    · exact plain d old

theorem linesOf_opening (text : List Char) (fault : Option Fault) :
    (linesOf true text fault).items <+: linesBehind [] text := by
  have all := linesFrom_behind [] [] text
  rw [List.reverse_nil, List.nil_append] at all
  simp only [linesOf, lines]
  by_cases ended : (linesFrom true [] [] text).2.isEmpty = true
  · rw [if_pos ended, List.append_nil] at all
    simp [ended, all]
  · rw [if_neg ended] at all
    cases fault with
    | none => simp [ended, all]
    | some f => exact ⟨_, by simpa using all⟩

theorem linesOf_counts {fault : Option Fault} (first : upto <+: (linesOf true text fault).items) :
    upto.flatten <+: text ∧ lineCount upto.flatten = upto.length := by
  have start : upto <+: linesBehind [] text := first.trans (linesOf_opening text fault)
  refine ⟨?_, lineCount_flatten (by simp) start⟩
  obtain ⟨behind, whole⟩ := start
  refine ⟨behind.flatten, ?_⟩
  rw [← List.flatten_append, whole, linesBehind_flatten]
  rfl

namespace Record

variable {brokenOff : Bool} {r s : Reading} {n place : Nat} {lines : List (List Char)}
  {records before behind : List Numbered} {x : Numbered} {stop : End} {f : Fault}

def Whole (span : List (List Char)) (fields : List String) : Prop :=
  read true span = ([⟨span.length, fields⟩], .brokenOff)

theorem endLine_phase (r : Reading) : r.endLine.phase = .record ∨ r.endLine.phase = .quoted := by
  unfold Reading.endLine
  split <;> simp_all [Reading.close]

theorem readFrom_closed (read : r.chars? line = .ok s) (closed : s.endLine.phase = .record) :
    readFrom brokenOff r n (line :: lines) =
      (⟨n+1, s.endLine.record⟩ :: (readFrom brokenOff {} (n+1) lines).1, (readFrom brokenOff {} (n+1) lines).2) := by
  rw [readFrom, Reading.line?, read]
  simp [Except.map, closed]

theorem readFrom_open (read : r.chars? line = .ok s) (quoted : s.endLine.phase = .quoted) :
    readFrom brokenOff r n (line :: lines) = readFrom brokenOff s.endLine (n+1) lines := by
  rw [readFrom, Reading.line?, read]
  simp [Except.map, quoted]

-- How a reading of some lines begins: with a record that some of them are by
-- themselves, with a line that cannot be read on from those before it, or without
-- an end to the record that is open.
inductive Opening (brokenOff : Bool) (r : Reading) (n : Nat) (lines : List (List Char)) : List Numbered × End → Prop
  | record {span later : List (List Char)} {x : Numbered} {records : List Numbered} {stop : End}
      (split : lines = span ++ later) (ended : x.line = n + span.length)
      (alone : ∀ m, readFrom true r m span = ([⟨m + span.length, x.fields⟩], .brokenOff))
      (rest : readFrom brokenOff {} x.line later = (records, stop)) : Opening brokenOff r n lines (x :: records, stop)
  | fault {opened later : List (List Char)} {failing : List Char} {f : Fault} {place : Nat}
      (split : lines = opened ++ failing :: later) (ended : place = n + opened.length + 1)
      (before : ∀ m, readFrom true r m opened = ([], .brokenOff))
      (fails : ∀ m, readFrom true r m (opened ++ [failing]) = ([], .fault (m + opened.length + 1) f)) :
      Opening brokenOff r n lines ([], .fault place f)
  | last {x : Numbered} (whole : brokenOff = false) (ended : x.line = n + lines.length)
      (alone : ∀ m, readFrom false r m lines = ([⟨m + lines.length, x.fields⟩], .eof)) :
      Opening brokenOff r n lines ([x], .eof)
  | bare (whole : brokenOff = false) (unquoted : r.phase ≠ .quoted) (none : lines = []) :
      Opening brokenOff r n lines ([], .eof)
  | lost (broken : brokenOff = true) : Opening brokenOff r n lines ([], .brokenOff)

theorem Opening.cons {result : List Numbered × End} (read : r.chars? line = .ok s) (quoted : s.endLine.phase = .quoted)
    (opening : Opening brokenOff s.endLine (n+1) lines result) : Opening brokenOff r n (line :: lines) result := by
  have shift (k m : Nat) : m + 1 + k = m + (k + 1) := by omega
  cases opening with
  | @record span later x records stop split ended alone rest =>
    have more : line :: lines = (line :: span) ++ later := by rw [split, List.cons_append]
    refine .record more (ended.trans (shift _ _)) (fun m => ?_) rest
    rw [readFrom_open read quoted, alone, List.length_cons, shift]
  | @fault opened later failing f place split ended before fails =>
    have more : line :: lines = (line :: opened) ++ failing :: later := by rw [split, List.cons_append]
    refine .fault more (ended.trans (congrArg (· + 1) (shift _ _))) (fun m => ?_) (fun m => ?_)
    · rw [readFrom_open read quoted, before]
    · rw [List.cons_append, readFrom_open read quoted, fails, List.length_cons, shift]
  | last whole ended alone =>
    refine .last whole (ended.trans (shift _ _)) (fun m => ?_)
    rw [readFrom_open read quoted, alone, List.length_cons, shift]
  | bare whole unquoted none => exact absurd quoted unquoted
  | lost broken => exact .lost broken

theorem readFrom_opening (brokenOff : Bool) (r : Reading) (n : Nat) (lines : List (List Char)) :
    Opening brokenOff r n lines (readFrom brokenOff r n lines) := by
  induction lines generalizing r n with
  | nil =>
    unfold readFrom
    split
    · rename_i broken
      exact .lost broken
    · rename_i unbroken
      have whole : brokenOff = false := by simpa using unbroken
      split
      · rename_i quoted
        refine .last whole rfl (fun m => ?_)
        simp [readFrom, quoted]
      · rename_i unquoted
        exact .bare whole unquoted rfl
  | cons line later ih =>
    cases read : r.chars? line with
    | error f =>
      rw [readFrom_error read]
      have split : line :: later = [] ++ line :: later := rfl
      exact .fault split rfl (fun m => rfl) (fun m => readFrom_error read)
    | ok s =>
      rcases endLine_phase s with closed | quoted
      · rw [readFrom_closed read closed]
        have split : line :: later = [line] ++ later := rfl
        refine .record split rfl (fun m => ?_) rfl
        rw [readFrom_closed read closed]
        rfl
      · rw [readFrom_open read quoted]
        exact (ih s.endLine (n+1)).cons read quoted

end Record

-- Record `k` of a file ends with its line `n`: it and those before it are whole
-- records in that many lines. An open quote ends with the file.
def RecordAt (lines : Feed (List Char)) (k n : Nat) (fields : List String) : Prop :=
  ∃ earlier : List (List (List Char)), ∃ span later, lines.items = earlier.flatten ++ span ++ later ∧
    earlier.length = k ∧ n = (earlier.flatten ++ span).length ∧ (∀ s ∈ earlier, ∃ fields, Record.Whole s fields) ∧
    (Record.Whole span fields ∨ later = [] ∧ lines.fault = none ∧
      Record.read false span = ([⟨span.length, fields⟩], .eof))

-- Record `k` cannot be read: with line `n` of the file the reading fails, and not
-- with the lines before it that the record has begun on.
def FailsAt (lines : Feed (List Char)) (k n : Nat) (f : Record.Fault) : Prop :=
  ∃ earlier : List (List (List Char)), ∃ opened failing later,
    lines.items = earlier.flatten ++ opened ++ failing :: later ∧ earlier.length = k ∧
    n = (earlier.flatten ++ opened).length + 1 ∧ (∀ s ∈ earlier, ∃ fields, Record.Whole s fields) ∧
    Record.read true opened = ([], .brokenOff) ∧
    Record.read true (opened ++ [failing]) = ([], .fault (opened.length + 1) f)

namespace Record

variable {brokenOff : Bool} {n place : Nat} {lines : List (List Char)} {records before behind : List Numbered}
  {x : Numbered} {stop : End} {f : Fault}

theorem exists_spans (found : readFrom brokenOff {} n lines = (before ++ behind, stop))
    (more : behind ≠ [] ∨ stop ≠ .eof) :
    ∃ earlier : List (List (List Char)), ∃ later, lines = earlier.flatten ++ later ∧ earlier.length = before.length ∧
      (∀ s ∈ earlier, ∃ fields, Whole s fields) ∧
      readFrom brokenOff {} (n + earlier.flatten.length) later = (behind, stop) := by
  induction before generalizing n lines with
  | nil => exact ⟨[], lines, rfl, rfl, by simp, by simpa using found⟩
  | cons x before ih =>
    rw [List.cons_append] at found
    generalize shown : before ++ behind = records at found
    have opening := readFrom_opening brokenOff {} n lines
    rw [found] at opening
    cases opening with
    | @record span later _ _ _ split ended alone rest =>
      obtain ⟨earlier, later, rfl, same, whole, rest⟩ := ih (rest.trans (by rw [shown]))
      refine ⟨span :: earlier, later, by simp [split], by simp [same], ?_, ?_⟩
      · intro s member
        rcases List.mem_cons.mp member with rfl | inside
        · exact ⟨x.fields, by simpa [Whole, read] using alone 0⟩
        · exact whole s inside
      · rw [← rest, ended, List.flatten_cons, List.length_append, Nat.add_assoc]
    | last whole ended alone =>
      rcases more with left | left
      · exact absurd (List.append_eq_nil_iff.mp shown).2 left
      · exact absurd rfl left

end Record

variable {lines : Feed (List Char)} {records before behind : List Numbered} {x : Numbered} {stop : End} {n : Nat}
  {f : Record.Fault}

theorem recordAt_of_read (found : Record.read lines.fault.isSome lines.items = (before ++ x :: behind, stop)) :
    RecordAt lines before.length x.line x.fields := by
  obtain ⟨earlier, left, split, same, whole, rest⟩ :=
    Record.exists_spans found (Or.inl (List.cons_ne_nil x behind))
  have opening := Record.readFrom_opening lines.fault.isSome {} (0 + earlier.flatten.length) left
  rw [rest] at opening
  cases opening with
  | @record span later _ _ _ first ended alone =>
    refine ⟨earlier, span, later, by rw [split, first, List.append_assoc], same, ?_, whole, Or.inl ?_⟩
    · rw [ended, Nat.zero_add, List.length_append]
    · simpa [Record.Whole, Record.read] using alone 0
  | last unbroken ended alone =>
    refine ⟨earlier, left, [], by rw [split, List.append_nil], same, ?_, whole, Or.inr ⟨rfl, ?_, ?_⟩⟩
    · rw [ended, Nat.zero_add, List.length_append]
    · simpa using unbroken
    · simpa [Record.read] using alone 0

theorem failsAt_of_read (found : Record.read lines.fault.isSome lines.items = (records, .fault n f)) :
    FailsAt lines records.length n f := by
  have ending : Record.readFrom lines.fault.isSome {} 0 lines.items = (records ++ [], .fault n f) := by
    rwa [List.append_nil]
  obtain ⟨earlier, left, split, same, whole, rest⟩ := Record.exists_spans ending (Or.inr nofun)
  have opening := Record.readFrom_opening lines.fault.isSome {} (0 + earlier.flatten.length) left
  rw [rest] at opening
  cases opening with
  | @fault opened later failing _ _ first ended before fails =>
    refine ⟨earlier, opened, failing, later, by rw [split, first, List.append_assoc], same, ?_, whole, ?_, ?_⟩
    · rw [ended, Nat.zero_add, List.length_append]
    · exact before 0
    · simpa [Record.read] using fails 0

end SeedSearch.Catalog
