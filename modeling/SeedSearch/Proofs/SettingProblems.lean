import SeedSearch.Settings

namespace SeedSearch.Settings

def Field.refusal? (f : Field) (raw : Raw) : Option Problem :=
  match set {} raw f with
  | .ok _ => none
  | .error p => some p

inductive Field.Takes : Field → String → Prop
  | dataFolder (text : String) : Takes .dataFolder text
  | encoding (e : Encoding) : Takes .encoding e.name
  | nestingMax {text : String} {n : Int} (read : integer? text = .ok n) (low : 0 ≤ n) (high : n ≤ 16) :
      Takes .nestingMax text
  | matchesMax {text : String} {n : Int} (read : integer? text = .ok n) (low : 1 ≤ n) (high : n ≤ 255) :
      Takes .matchesMax text
  | logLevel (text : String) : Takes .logLevel text
  | logJson {text : String} (word : text.map Char.toLower ∈ onWords ++ offWords) : Takes .logJson text
  | stopOnError {text : String} (word : text.map Char.toLower ∈ onWords ++ offWords) : Takes .stopOnError text

def complaints (values : Field → Option Raw) : List (Field × Problem) :=
  Field.all.filterMap fun f => (values f).bind fun raw => (f.refusal? raw).map (f, ·)

variable {values : Field → Option Raw} {f : Field} {raw : Raw} {ps : List (Field × Problem)}

theorem Field.refusal_eq_some_iff {p : Problem} : f.refusal? raw = some p ↔ set {} raw f = .error p := by
  rw [refusal?]
  cases set {} raw f with
  | ok s => simp
  | error q => simp

-- Whether a value is taken does not depend on the other fields.
theorem set_error_iff (s : Settings) {p : Problem} : set s raw f = .error p ↔ f.refusal? raw = some p := by
  rw [Field.refusal_eq_some_iff]
  have same {α : Type} (value : Except Problem α) (put : Settings → α → Settings) :
      (value.bind fun v => .ok (put s v)) = .error p ↔ (value.bind fun v => .ok (put {} v)) = .error p := by
    cases value with
    | ok v => simp [Except.bind]
    | error q => simp [Except.bind]
  cases f with
  | dataFolder => exact same _ fun s v => { s with dataFolder := v }
  | encoding => exact same _ fun s v => { s with encoding := v }
  | nestingMax => exact same _ fun s v => { s with nestingMax := v }
  | matchesMax => exact same _ fun s v => { s with matchesMax := v }
  | logLevel => exact same _ fun s v => { s with logLevel := v }
  | logJson => exact same _ fun s v => { s with logJson := v }
  | stopOnError => exact same _ fun s v => { s with stopOnError := v }

theorem settle_problems (values : Field → Option Raw) (done : Settings × List (Field × Problem)) (f : Field) :
    (settle values done f).2 = done.2 ++ ((values f).bind fun raw => (f.refusal? raw).map (f, ·)).toList := by
  rw [settle]
  cases values f with
  | none => exact (List.append_nil _).symm
  | some raw =>
    cases put : set done.1 raw f with
    | error p => simp [put, (set_error_iff done.1).mp put]
    | ok s =>
      cases refused : f.refusal? raw with
      | none => simp [put, refused]
      | some p => exact nomatch put.symm.trans ((set_error_iff done.1).mpr refused)

theorem foldl_settle (values : Field → Option Raw) (fields : List Field) (done : Settings × List (Field × Problem)) :
    (fields.foldl (settle values) done).2 =
      done.2 ++ fields.filterMap fun f => (values f).bind fun raw => (f.refusal? raw).map (f, ·) := by
  induction fields generalizing done with
  | nil => exact (List.append_nil _).symm
  | cons f rest ih =>
    rw [List.foldl_cons, ih, settle_problems, List.append_assoc, List.filterMap_cons]
    cases (values f).bind fun raw => (f.refusal? raw).map (f, ·) with
    | none => rfl
    | some problem => rfl

theorem ofValues_error_iff : ofValues values = .error ps ↔ ps = complaints values ∧ ps ≠ [] := by
  have all : (Field.all.foldl (settle values) ({}, [])).2 = complaints values := foldl_settle values Field.all ({}, [])
  rw [ofValues]
  simp only [all]
  cases found : complaints values with
  | nil => simp
  | cons first more =>
    simp only [List.isEmpty_cons, Bool.false_eq_true, if_false, Except.error.injEq]
    constructor
    · intro same
      exact ⟨same.symm, same ▸ List.cons_ne_nil first more⟩
    · intro both
      exact both.1.symm

theorem mem_complaints {p : Problem} : (f, p) ∈ complaints values ↔ ∃ raw, values f = some raw ∧ f.refusal? raw = some p := by
  have every : f ∈ Field.all := by cases f <;> decide
  rw [complaints, List.mem_filterMap]
  constructor
  · intro ⟨g, _, told⟩
    obtain ⟨raw, own, told⟩ := Option.bind_eq_some_iff.mp told
    obtain ⟨q, refused, same⟩ := Option.map_eq_some_iff.mp told
    cases same
    exact ⟨raw, own, refused⟩
  · intro ⟨raw, own, refused⟩
    exact ⟨f, every, by simp [own, refused]⟩

variable {text : String}

theorem Field.refusal_eq_none_iff : f.refusal? raw = none ↔ ∃ s, set {} raw f = .ok s := by
  rw [refusal?]
  cases set {} raw f with
  | ok s => simp
  | error q => simp

theorem number_text_iff {low high n : Int} :
    number low high (.text text) = .ok n ↔ integer? text = .ok n ∧ low ≤ n ∧ n ≤ high := by
  simp only [number, Limits.check, bind, Except.bind, pure, Except.pure]
  cases integer? text with
  | error p => simp
  | ok m =>
    by_cases below : m < low
    · simp [below]
      omega
    · by_cases above : high < m
      · simp [below, above]
        omega
      · simp [below, above]
        omega

theorem toggle_text_iff : (∃ b, toggle (.text text) = .ok b) ↔ text.map Char.toLower ∈ onWords ++ offWords := by
  simp only [toggle, List.contains_iff_mem, List.mem_append]
  by_cases on : text.map Char.toLower ∈ onWords
  · exact iff_of_true ⟨true, if_pos on⟩ (Or.inl on)
  · rw [if_neg on]
    by_cases off : text.map Char.toLower ∈ offWords
    · exact iff_of_true ⟨false, if_pos off⟩ (Or.inr off)
    · rw [if_neg off]
      simp [on, off]

theorem encodingOf_text_iff {e : Encoding} : encodingOf (.text text) = .ok e ↔ text = e.name := by
  rw [encodingOf, Encoding.ofName?]
  constructor
  · intro known
    cases found : Encoding.all.find? (·.name = text) with
    | none =>
      rw [found] at known
      cases known
    | some other =>
      rw [found] at known
      cases known
      have named : e.name = text := by simpa using List.find?_some found
      exact named.symm
  · rintro rfl
    cases e with
    | utf16 | utf8 => rfl

theorem refusal_eq_none_of {α : Type} (value : Except Problem α) {put : α → Settings}
    (read : set {} raw f = value.bind fun v => .ok (put v)) : f.refusal? raw = none ↔ ∃ v, value = .ok v := by
  rw [Field.refusal_eq_none_iff, read]
  cases value with
  | ok v => simp [Except.bind]
  | error p => simp [Except.bind]

theorem Field.takes_iff : f.Takes text ↔ f.refusal? (.text text) = none := by
  cases f with
  | dataFolder => exact iff_of_true (.dataFolder text) rfl
  | logLevel => exact iff_of_true (.logLevel text) rfl
  | encoding =>
    rw [refusal_eq_none_of (encodingOf (.text text)) rfl]
    constructor
    · intro takes
      cases takes with
      | encoding e => exact ⟨e, encodingOf_text_iff.mpr rfl⟩
    · intro ⟨e, known⟩
      exact encodingOf_text_iff.mp known ▸ .encoding e
  | nestingMax =>
    rw [refusal_eq_none_of (number 0 16 (.text text)) rfl]
    constructor
    · intro takes
      cases takes with
      | nestingMax read low high => exact ⟨_, number_text_iff.mpr ⟨read, low, high⟩⟩
    · intro ⟨n, checked⟩
      obtain ⟨read, low, high⟩ := number_text_iff.mp checked
      exact .nestingMax read low high
  | matchesMax =>
    rw [refusal_eq_none_of (number 1 255 (.text text)) rfl]
    constructor
    · intro takes
      cases takes with
      | matchesMax read low high => exact ⟨_, number_text_iff.mpr ⟨read, low, high⟩⟩
    · intro ⟨n, checked⟩
      obtain ⟨read, low, high⟩ := number_text_iff.mp checked
      exact .matchesMax read low high
  | logJson =>
    rw [refusal_eq_none_of (toggle (.text text)) rfl, toggle_text_iff]
    refine ⟨fun takes => ?_, .logJson⟩
    cases takes with
    | logJson word => exact word
  | stopOnError =>
    rw [refusal_eq_none_of (toggle (.text text)) rfl, toggle_text_iff]
    refine ⟨fun takes => ?_, .stopOnError⟩
    cases takes with
    | stopOnError word => exact word

theorem given_eq_some_iff {environment : List (String × String)} {assignments : List EnvFile.Binding} :
    given [] environment assignments f = some raw ↔ ∃ text, told environment assignments f = some text ∧ raw = .text text := by
  simp only [Settings.given, List.lookup_nil, Option.none_or, Option.map_eq_some_iff]
  exact exists_congr fun text => and_congr_right fun _ => eq_comm

theorem not_problems_of_fileAssignments {environment : List (String × String)} {tree : Node} {e : Error}
    (failed : fileAssignments environment tree = .error e) (ps : List (Field × Problem)) : e ≠ .problems ps := by
  rintro rfl
  rw [fileAssignments] at failed
  cases content : tree.read file with
  | error r => cases r <;> simp [content] at failed
  | ok octets => cases decoded : Encoding.Utf8.decode true octets <;> simp [content, decoded] at failed

-- The settings are at fault exactly if some field is told what it does not take.
theorem load_problems_iff (environment : List (String × String)) (tree : Node) :
    (∃ ps, load [] environment tree = .error (.problems ps)) ↔
      ∃ assignments, fileAssignments environment tree = .ok assignments ∧
        ∃ f text, told environment assignments f = some text ∧ ¬f.Takes text := by
  have amiss (assignments : List EnvFile.Binding) : (∃ ps, ofValues (given [] environment assignments) = .error ps) ↔
      ∃ f text, told environment assignments f = some text ∧ ¬f.Takes text := by
    constructor
    · intro ⟨ps, failed⟩
      obtain ⟨rfl, some_problem⟩ := ofValues_error_iff.mp failed
      obtain ⟨⟨f, p⟩, member⟩ := List.exists_mem_of_ne_nil _ some_problem
      obtain ⟨raw, own, refused⟩ := mem_complaints.mp member
      obtain ⟨text, told, rfl⟩ := given_eq_some_iff.mp own
      exact ⟨f, text, told, fun takes => nomatch refused.symm.trans (Field.takes_iff.mp takes)⟩
    · intro ⟨f, text, told, bad⟩
      cases refused : f.refusal? (.text text) with
      | none => exact absurd (Field.takes_iff.mpr refused) bad
      | some p =>
        have member := mem_complaints.mpr ⟨_, given_eq_some_iff.mpr ⟨text, told, rfl⟩, refused⟩
        exact ⟨_, ofValues_error_iff.mpr ⟨rfl, List.ne_nil_of_mem member⟩⟩
  rw [load]
  cases read : fileAssignments environment tree with
  | error e => simp [not_problems_of_fileAssignments read]
  | ok assignments =>
    simp only [Except.ok.injEq, exists_eq_left', ← amiss]
    cases ofValues (given [] environment assignments) with
    | ok s => simp
    | error ps => simp

end SeedSearch.Settings
