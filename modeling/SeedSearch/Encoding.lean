import SeedSearch.Encoding.Utf8
import SeedSearch.Encoding.Utf16

namespace SeedSearch

inductive Encoding where
  | utf16 | utf8
  deriving DecidableEq, Repr

namespace Encoding

def name : Encoding → String
  | utf16 => "utf-16"
  | utf8 => "utf-8"

def label : Encoding → String
  | utf16 => "UTF-16LE"
  | utf8 => "UTF-8"

def all : List Encoding := [utf16, utf8]

def ofName? (text : String) : Option Encoding := all.find? (·.name = text)

def other : Encoding → Encoding
  | utf16 => utf8
  | utf8 => utf16

-- A file without a UTF-16 mark is taken for UTF-8.
def detects (e : Encoding) (content : List UInt8) : Bool :=
  let head := content.take 4
  match e with
  | utf16 => Utf16.littleMark.isPrefixOf head
  | utf8 => !(Utf16.littleMark.isPrefixOf head || Utf16.bigMark.isPrefixOf head)

inductive Progress where
  | start8
  | inside8
  | start16
  | inside16 (order : Utf16.Order)
  deriving DecidableEq, Repr

structure Decoder where
  progress : Progress
  held : List UInt8 := []
  deriving DecidableEq, Repr

def decoder : Encoding → Decoder
  | utf16 => { progress := .start16 }
  | utf8 => { progress := .start8 }

namespace Decoder

-- The octets of a mark are taken for text neither here nor later; a UTF-16 stream
-- has to have one.
def step (d : Decoder) (final : Bool) (block : List UInt8) : Except Fault (Decoder × List Char) :=
  let octets := d.held ++ block
  match d.progress with
  | .start8 =>
    if octets.length < 3 && octets.isPrefixOf Utf8.mark then .ok ({ d with held := octets }, [])
    else do
      let marked := Utf8.mark.isPrefixOf octets
      let (text, held) ← Utf8.decode final (if marked then octets.drop 3 else octets)
      return ({ progress := .inside8, held }, text)
  | .inside8 => do
    let (text, held) ← Utf8.decode final octets
    return ({ d with held }, text)
  | .start16 =>
    if Utf16.littleMark.isPrefixOf octets then do
      let (text, held) ← Utf16.decode .little final 2 (octets.drop 2)
      return ({ progress := .inside16 .little, held }, text)
    else if Utf16.bigMark.isPrefixOf octets then do
      let (text, held) ← Utf16.decode .big final 2 (octets.drop 2)
      return ({ progress := .inside16 .big, held }, text)
    else do
      let (_, held) ← Utf16.decode .little final 0 octets
      if 2 ≤ octets.length - held.length then .error .missingMark
      else return ({ d with held }, [])
  | .inside16 order => do
    let (text, held) ← Utf16.decode order final 0 octets
    return ({ d with held }, text)

section Steps

variable {d : Decoder} {final : Bool} {block body held : List UInt8} {text : List Char} {order : Utf16.Order}

theorem step_inside8 (inside : d.progress = .inside8)
    (read : Utf8.decode final (d.held ++ block) = .ok (text, held)) :
    d.step final block = .ok ({ d with held }, text) := by
  simp [step, inside, read, bind, Except.bind, pure, Except.pure]

theorem step_inside16 (inside : d.progress = .inside16 order)
    (read : Utf16.decode order final 0 (d.held ++ block) = .ok (text, held)) :
    d.step final block = .ok ({ d with held }, text) := by
  simp [step, inside, read, bind, Except.bind, pure, Except.pure]

theorem step_short8 (start : d.progress = .start8) (short : (d.held ++ block).length < 3)
    (begins : d.held ++ block <+: Utf8.mark) :
    d.step final block = .ok ({ d with held := d.held ++ block }, []) := by
  simp only [step, start]
  rw [if_pos (by simpa using And.intro short begins)]

theorem step_marked8 (start : d.progress = .start8) (marked : d.held ++ block = Utf8.mark ++ body)
    (read : Utf8.decode final body = .ok (text, held)) :
    d.step final block = .ok (⟨.inside8, held⟩, text) := by
  have long : ¬(Utf8.mark ++ body).length < 3 := by simp [Utf8.mark]
  simp only [step, start, marked]
  rw [if_neg fun short => long (of_decide_eq_true (Bool.and_eq_true_iff.mp short).1)]
  simp [Utf8.mark, read, bind, Except.bind, pure, Except.pure]

theorem step_plain8 (start : d.progress = .start8)
    (settled : ¬((d.held ++ block).length < 3 ∧ d.held ++ block <+: Utf8.mark))
    (unmarked : ¬Utf8.mark <+: d.held ++ block)
    (read : Utf8.decode final (d.held ++ block) = .ok (text, held)) :
    d.step final block = .ok (⟨.inside8, held⟩, text) := by
  have plain : Utf8.mark.isPrefixOf (d.held ++ block) = false :=
    Bool.eq_false_iff.mpr (mt List.isPrefixOf_iff_prefix.mp unmarked)
  simp only [step, start]
  rw [if_neg (by simpa using settled), plain]
  simp [read, bind, Except.bind, pure, Except.pure]

theorem step_short16 (start : d.progress = .start16) (short : (d.held ++ block).length < 2)
    (begins : d.held ++ block <+: Utf16.littleMark) :
    d.step false block = .ok ({ d with held := d.held ++ block }, []) := by
  simp only [step, start]
  generalize d.held ++ block = octets at short begins ⊢
  match octets, short with
  | [], _ => rfl
  | [a], _ =>
    obtain ⟨missing, whole⟩ := begins
    cases whole
    rfl

theorem step_marked16 (start : d.progress = .start16) (marked : d.held ++ block = Utf16.littleMark ++ body)
    (read : Utf16.decode .little final 2 body = .ok (text, held)) :
    d.step final block = .ok (⟨.inside16 .little, held⟩, text) := by
  simp [step, start, marked, Utf16.littleMark, read, bind, Except.bind, pure, Except.pure]

end Steps

end Decoder

def blockSize : Nat := 8192

def blocks (content : List UInt8) : List (List UInt8) :=
  if content.isEmpty then [] else content.take blockSize :: blocks (content.drop blockSize)
  termination_by content.length
  decreasing_by
    have some_left : 0 < content.length := List.length_pos_iff.mpr (by simp_all)
    rw [List.length_drop]
    exact Nat.sub_lt some_left (by decide)

def decodeBlocks (d : Decoder) (done : List (List Char)) :
    List (List UInt8) → List (List Char) × Option Fault
  | [] =>
    match d.step true [] with
    | .error e => (done.reverse, some e)
    | .ok (_, text) => ((text :: done).reverse, none)
  | block :: rest =>
    match d.step false block with
    | .error e => (done.reverse, some e)
    | .ok (d, text) => decodeBlocks d (text :: done) rest

-- Whatever stands before the block with a fault is read; of that block nothing
-- is. A carriage return is only let go together with what follows it, so one
-- that stands right before the fault is not read either.
def decode (e : Encoding) (content : List UInt8) : List Char × Option Fault :=
  let (texts, fault) := decodeBlocks e.decoder [] (blocks content)
  let text := texts.flatten
  match fault with
  | none => (text, none)
  | some f => (if text.getLast? = some '\r' then text.dropLast else text, some f)

end Encoding

end SeedSearch
