namespace SeedSearch.Catalog

namespace Record

def fieldLimit : Nat := 131072

inductive Fault where
  | fieldTooLong
  | strayBreak
  deriving DecidableEq, Repr

def Fault.message : Fault → String
  | fieldTooLong => s!"field larger than field limit ({fieldLimit})"
  | strayBreak =>
    "new-line character seen in unquoted field - do you need to open the file in universal-newline mode?"

inductive Phase where
  -- before a record, before a field, inside a bare one, inside quotes, after a
  -- quote inside quotes, after a line break
  | record | field | bare | quoted | quote | afterBreak
  deriving DecidableEq, Repr

-- The open field and the closed ones, both latest first.
structure Reading where
  phase : Phase := .record
  chars : List Char := []
  size : Nat := 0
  fields : List String := []
  deriving DecidableEq, Repr

namespace Reading

def close (r : Reading) (phase : Phase) : Reading :=
  { phase, fields := String.ofList r.chars.reverse :: r.fields }

def add (r : Reading) (c : Char) (phase : Phase) : Except Fault Reading :=
  if fieldLimit ≤ r.size then .error .fieldTooLong
  else .ok { r with phase, chars := c :: r.chars, size := r.size+1 }

def isBreak (c : Char) : Bool := c = '\n' || c = '\r'

-- A field that starts without a quote is bare: later quotes are plain text. A
-- character behind a closing quote goes on with the field as a bare one.
def step (r : Reading) (c : Char) : Except Fault Reading :=
  match r.phase with
  | .record | .field =>
    if isBreak c then
      .ok (if r.phase = .record then { r with phase := .afterBreak } else r.close .afterBreak)
    else if c = '"' then .ok { r with phase := .quoted }
    else if c = ',' then .ok (r.close .field)
    else r.add c .bare
  | .bare =>
    if isBreak c then .ok (r.close .afterBreak)
    else if c = ',' then .ok (r.close .field)
    else r.add c .bare
  | .quoted => if c = '"' then .ok { r with phase := .quote } else r.add c .quoted
  | .quote =>
    if c = '"' then r.add c .quoted
    else if c = ',' then .ok (r.close .field)
    else if isBreak c then .ok (r.close .afterBreak)
    else r.add c .bare
  | .afterBreak => if isBreak c then .ok r else .error .strayBreak

def endLine (r : Reading) : Reading :=
  match r.phase with
  | .record | .afterBreak => { r with phase := .record }
  | .quoted => r
  | .field | .bare | .quote => r.close .record

def chars? (r : Reading) : List Char → Except Fault Reading
  | [] => .ok r
  | c :: rest =>
    match r.step c with
    | .error e => .error e
    | .ok r => chars? r rest

def line? (r : Reading) (line : List Char) : Except Fault Reading := (r.chars? line).map endLine

def record (r : Reading) : List String := r.fields.reverse

end Reading

structure Numbered where
  line : Nat
  fields : List String
  deriving DecidableEq, Repr

inductive End where
  | eof
  | fault (line : Nat) (f : Fault)
  | brokenOff
  deriving DecidableEq, Repr

-- At the end of the lines an open quote is closed; if they broke off, the open
-- record is lost.
def readFrom (brokenOff : Bool) (r : Reading) (n : Nat) : List (List Char) → List Numbered × End
  | [] =>
    if brokenOff then ([], .brokenOff)
    else if r.phase = .quoted then ([⟨n, (r.close .record).record⟩], .eof)
    else ([], .eof)
  | line :: rest =>
    match r.line? line with
    | .error f => ([], .fault (n+1) f)
    | .ok r =>
      if r.phase = .record then
        let (records, stop) := readFrom brokenOff {} (n+1) rest
        (⟨n+1, r.record⟩ :: records, stop)
      else readFrom brokenOff r (n+1) rest

def read (brokenOff : Bool) (lines : List (List Char)) : List Numbered × End :=
  readFrom brokenOff {} 0 lines

end Record

end SeedSearch.Catalog
