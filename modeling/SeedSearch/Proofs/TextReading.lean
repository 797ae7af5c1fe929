import SeedSearch.Catalog.Reader

namespace SeedSearch.Catalog

-- The line ends of a text; a carriage return and the line feed behind it are one.
def breaks : List Char → Nat
  | [] => 0
  | '\r' :: '\n' :: rest => breaks rest + 1
  | c :: rest => if Record.Reading.isBreak c then breaks rest + 1 else breaks rest

-- No line end begins in the first text and ends in the second.
def Apart (a b : List Char) : Prop := a.getLast? = some '\r' → b.head? ≠ some '\n'

def linesBehind (line : List Char) : List Char → List (List Char)
  | [] => if line.isEmpty then [] else [line.reverse]
  | '\r' :: '\n' :: rest => ('\n' :: '\r' :: line).reverse :: linesBehind [] rest
  | c :: rest =>
    if Record.Reading.isBreak c then (c :: line).reverse :: linesBehind [] rest
    else linesBehind (c :: line) rest

namespace Record

def turn (r : Reading) (n : Nat) (more : Reading → List Numbered × End) : List Numbered × End :=
  if r.endLine.phase = .record then (⟨n, r.endLine.record⟩ :: (more {}).1, (more {}).2) else more r.endLine

-- The records of a text behind line `n`, one character after the other. `begun`
-- says whether line `n+1` has characters before the text.
def readText (r : Reading) (begun : Bool) (n : Nat) : List Char → List Numbered × End
  | [] => if begun then turn r (n+1) fun r => readFrom false r (n+1) [] else readFrom false r n []
  | '\r' :: '\n' :: rest =>
    match r.chars? ['\r', '\n'] with
    | .error f => ([], .fault (n+1) f)
    | .ok r => turn r (n+1) fun r => readText r false (n+1) rest
  | c :: rest =>
    match r.step c with
    | .error f => ([], .fault (n+1) f)
    | .ok r =>
      if Reading.isBreak c then turn r (n+1) fun r => readText r false (n+1) rest
      else readText r true n rest

end Record

variable {line text rest a b : List Char} {c : Char}

namespace Apart

theorem tail (apart : Apart (c :: a) b) : Apart a b := by
  intro last
  apply apart
  cases a with
  | nil => cases last
  | cons d a => exact last

theorem congr {other : List Char} (apart : Apart a b) (head : other.head? = b.head?) : Apart a other := by
  intro last
  rw [head]
  exact apart last

theorem append (apart : Apart a b) (other : c ≠ '\n') : Apart a (b ++ c :: rest) := by
  intro last
  have head := apart last
  cases b <;> simp_all

theorem single (other : ∀ tail, c = '\r' → b = '\n' :: tail → False) : Apart [c] b := by
  intro last head
  obtain ⟨tail, eq⟩ := List.head?_eq_some_iff.mp head
  exact other tail (by simpa using last) eq

theorem splits (apart : Apart [c] b) : ∀ tail, c = '\r' → b = '\n' :: tail → False := by
  intro tail first eq
  exact apart (by simp [first]) (by simp [eq])

theorem join (first : Apart [c] a) (later : Apart (c :: a) b) : Apart [c] (a ++ b) := by
  cases a with
  | nil => exact later
  | cons d a => exact first.congr rfl

theorem inside (inside : Record.Reading.isBreak c = false) : Apart [c] b := by
  intro last
  have first : c = '\r' := by simpa using last
  simp [first, Record.Reading.isBreak] at inside

end Apart

theorem breaks_break (apart : Apart [c] rest) (ends : Record.Reading.isBreak c = true) :
    breaks (c :: rest) = breaks rest + 1 := by
  rw [breaks.eq_3 _ _ apart.splits, if_pos ends]

theorem breaks_inside (inside : Record.Reading.isBreak c = false) : breaks (c :: rest) = breaks rest := by
  rw [breaks.eq_3 _ _ (Apart.inside inside).splits, inside]
  rfl

theorem breaks_plain (plain : ∀ c ∈ a, Record.Reading.isBreak c = false) : breaks a = 0 := by
  induction a with
  | nil => rfl
  | cons c a ih =>
    rw [breaks_inside (plain c List.mem_cons_self)]
    exact ih fun d member => plain d (List.mem_cons_of_mem c member)

theorem breaks_append (apart : Apart a b) : breaks (a ++ b) = breaks a + breaks b := by
  fun_induction breaks a with
  | case1 => simp
  | case2 rest ih =>
    rw [List.cons_append, List.cons_append, breaks, ih apart.tail.tail]
    omega
  | case3 c rest other ends ih =>
    rw [List.cons_append, breaks_break ((Apart.single other).join apart) ends, ih apart.tail]
    omega
  | case4 c rest other inside ih =>
    rw [List.cons_append, breaks_inside (by simpa using inside), ih apart.tail]

theorem linesFrom_behind (done : List (List Char)) (line text : List Char) :
    (linesFrom true done line text).1 ++
        (if (linesFrom true done line text).2.isEmpty then [] else [(linesFrom true done line text).2]) =
      done.reverse ++ linesBehind line text := by
  fun_induction linesFrom true done line text with
  | case1 done line => simp [linesBehind]
  | case2 done line rest ih =>
    rw [ih, linesBehind]
    simp
  | case3 done line c rest other ends ih =>
    rw [ih, linesBehind.eq_3 _ _ _ other, if_pos (by simpa [Record.Reading.isBreak] using ends)]
    simp
  | case4 done line c rest other inside ih =>
    rw [ih, linesBehind.eq_3 _ _ _ other, if_neg (by simpa [Record.Reading.isBreak] using inside)]

theorem linesOf_behind (text : List Char) : linesOf true text none = { items := linesBehind [] text } := by
  have all := linesFrom_behind [] [] text
  simp only [linesOf, lines, Option.isSome_none, Bool.false_or]
  split <;> simp_all

theorem linesBehind_flatten (line text : List Char) : (linesBehind line text).flatten = line.reverse ++ text := by
  fun_induction linesBehind line text with
  | case1 line empty => simp_all
  | case2 line full => simp
  | case3 line rest ih => simp [ih]
  | case4 line c rest other ends ih => simp [ih]
  | case5 line c rest other inside ih => simp [ih]

theorem linesBehind_open (filled : line ≠ []) (text : List Char) :
    ∃ tail later, linesBehind line text = (line.reverse ++ tail) :: later := by
  fun_induction linesBehind line text with
  | case1 line empty => simp_all
  | case2 line full => exact ⟨[], [], by simp⟩
  | case3 line rest ih => exact ⟨['\r', '\n'], linesBehind [] rest, by simp⟩
  | case4 line c rest other ends ih => exact ⟨[c], linesBehind [] rest, by simp⟩
  | case5 line c rest other inside ih =>
    obtain ⟨tail, later, eq⟩ := ih (List.cons_ne_nil c line)
    exact ⟨c :: tail, later, by simpa using eq⟩

namespace Record

variable {r s start : Reading} {n : Nat} {begun : Bool} {f : Fault}

theorem Reading.chars_append : r.chars? (a ++ b) = (r.chars? a).bind (·.chars? b) := by
  induction a generalizing r with
  | nil => rfl
  | cons c a ih =>
    rw [List.cons_append, chars?, chars?]
    cases r.step c with
    | error f => rfl
    | ok s => exact ih

theorem Reading.chars_last (before : start.chars? a = .ok r) (b : List Char) : start.chars? (a ++ b) = r.chars? b := by
  rw [chars_append, before]
  rfl

theorem Reading.chars_single : r.chars? [c] = r.step c := by
  rw [chars?]
  cases r.step c <;> rfl

theorem readFrom_ok {lines : List (List Char)} (read : r.chars? line = .ok s) :
    readFrom false r n (line :: lines) = turn s (n+1) fun r => readFrom false r (n+1) lines := by
  rw [readFrom, Reading.line?, read, turn]
  rfl

theorem readFrom_error {brokenOff : Bool} {lines : List (List Char)} (read : r.chars? line = .error f) :
    readFrom brokenOff r n (line :: lines) = ([], .fault (n+1) f) := by
  rw [readFrom, Reading.line?, read]
  rfl

theorem readFrom_behind (before : start.chars? line.reverse = .ok r) (n : Nat) (text : List Char) :
    readFrom false start n (linesBehind line text) = readText r (!line.isEmpty) n text := by
  generalize opened : (!line.isEmpty) = begun
  fun_induction readText r begun n text generalizing start line with
  | case1 r n => rw [linesBehind, if_neg (by simpa using opened), readFrom_ok before]
  | case2 r begun n closed =>
    have empty : line = [] := by simpa [← opened] using closed
    subst empty
    cases before
    rfl
  | case3 r begun n rest f failed =>
    rw [linesBehind]
    apply readFrom_error
    rw [List.reverse_cons, List.reverse_cons, List.append_assoc, Reading.chars_last before]
    exact failed
  | case4 r begun n rest s read ih =>
    rw [linesBehind, readFrom_ok (s := s) ?_]
    · congr 1
      funext t
      exact ih t rfl rfl
    · rw [List.reverse_cons, List.reverse_cons, List.append_assoc, Reading.chars_last before]
      exact read
  | case5 r begun n c rest other f failed =>
    have failed (tail : List Char) : start.chars? ((c :: line).reverse ++ tail) = .error f := by
      rw [List.reverse_cons, List.append_assoc, Reading.chars_last before, List.singleton_append, Reading.chars?, failed]
    rw [linesBehind.eq_3 _ _ _ other]
    split
    · apply readFrom_error
      simpa using failed []
    · obtain ⟨tail, later, first⟩ := linesBehind_open (List.cons_ne_nil c line) rest
      rw [first]
      exact readFrom_error (failed tail)
  | case6 r begun n c rest other s read ends ih =>
    have read : start.chars? (c :: line).reverse = .ok s := by
      rw [List.reverse_cons, Reading.chars_last before, Reading.chars_single, read]
    rw [linesBehind.eq_3 _ _ _ other, if_pos ends, readFrom_ok read]
    congr 1
    funext t
    exact ih t rfl rfl
  | case7 r begun n c rest other s read inside ih =>
    rw [linesBehind.eq_3 _ _ _ other, if_neg inside]
    apply ih _ rfl
    rw [List.reverse_cons, Reading.chars_last before, Reading.chars_single, read]

theorem read_text (text : List Char) :
    read false (linesOf true text none).items = readText {} false 0 text := by
  rw [linesOf_behind, read]
  exact readFrom_behind rfl 0 text

theorem readText_inside (read : r.step c = .ok s) (inside : Reading.isBreak c = false) :
    readText r begun n (c :: rest) = readText s true n rest := by
  rw [readText.eq_3 _ _ _ _ _ (Apart.inside inside).splits, read]
  simp [inside]

theorem readText_break (read : r.step c = .ok s) (ends : Reading.isBreak c = true) (apart : Apart [c] rest) :
    readText r begun n (c :: rest) = turn s (n+1) fun r => readText r false (n+1) rest := by
  rw [readText.eq_3 _ _ _ _ _ apart.splits, read]
  simp [ends]

theorem readText_pair (read : r.chars? ['\r', '\n'] = .ok s) :
    readText r begun n ('\r' :: '\n' :: rest) = turn s (n+1) fun r => readText r false (n+1) rest := by
  rw [readText, read]

end Record

end SeedSearch.Catalog
