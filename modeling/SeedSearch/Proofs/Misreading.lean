import Mathlib.Data.List.Basic
import SeedSearch.Proofs.RecordLines

namespace SeedSearch.Catalog
open Record (Numbered)

def Headed (lines : Feed (List Char)) : Prop := ∃ n fields, RecordAt lines 0 n fields ∧ checkHeader fields = .ok ()

-- What is wrong with a file, and the line to look at: the first one for its header,
-- and for a later record the last one that it takes or the one that cannot be read.
inductive Misread (lines : Feed (List Char)) : Malformed → Nat → Prop
  | empty (bare : lines = { items := [] }) : Misread lines .empty 1
  | headerFault {n : Nat} {f : Record.Fault} (fails : FailsAt lines 0 n f) : Misread lines (.headerFault f) 1
  | header {n : Nat} {fields : List String} {reason : Malformed} (here : RecordAt lines 0 n fields)
      (refused : checkHeader fields = .error reason) : Misread lines reason 1
  | recordFault {k n : Nat} {f : Record.Fault} (headed : Headed lines) (fails : FailsAt lines (k+1) n f) :
      Misread lines (.recordFault f) n
  | record {k n : Nat} {fields : List String} {reason : Malformed} (headed : Headed lines)
      (here : RecordAt lines (k+1) n fields) (refused : Row.ofFields fields n = .error reason) : Misread lines reason n

-- A row comes from a record behind the header and knows on which line that ends.
def RowAt (lines : Feed (List Char)) (r : Row) (n : Nat) : Prop :=
  Headed lines ∧ ∃ k fields, RecordAt lines (k+1) n fields ∧ Row.ofFields fields n = .ok r

variable {lines : Feed (List Char)} {records : List Numbered} {header x : Numbered} {stop : Record.End}
  {after : Option Fault} {f : Fault} {r : Row}

theorem rowsOf_fault (failed : (rowsOf after records).fault = some f) : after = some f ∨
    ∃ x ∈ records, ∃ reason, Row.ofFields x.fields x.line = .error reason ∧
      f = .format { reason, place := { line := some x.line } } := by
  induction records with
  | nil => exact Or.inl failed
  | cons x rest ih =>
    simp only [rowsOf] at failed
    split at failed
    · exact (ih failed).imp_right List.exists_mem_cons_of_exists
    · split at failed
      · rename_i reason refused
        cases failed
        exact Or.inr ⟨x, List.mem_cons_self, reason, refused, rfl⟩
      · exact (ih failed).imp_right List.exists_mem_cons_of_exists

theorem mem_rowsOf (member : r ∈ (rowsOf after records).items) :
    ∃ x ∈ records, Row.ofFields x.fields x.line = .ok r := by
  induction records with
  | nil => cases member
  | cons x rest ih =>
    simp only [rowsOf] at member
    split at member
    · exact List.exists_mem_cons_of_exists (ih member)
    · split at member
      · cases member
      · rename_i row read
        rcases List.mem_cons.mp member with rfl | behind
        · exact ⟨x, List.mem_cons_self, read⟩
        · exact List.exists_mem_cons_of_exists (ih behind)

theorem ending_fault {broken : Option Fault} (failed : ending broken stop = some f) : broken = some f ∨
    ∃ n e, stop = .fault n e ∧ f = .format { reason := .recordFault e, place := { line := some n } } := by
  cases stop with
  | eof => cases failed
  | fault n e =>
    cases failed
    exact Or.inr ⟨n, e, rfl, rfl⟩
  | brokenOff => exact Or.inl failed

section Reading

variable (found : Record.read lines.fault.isSome lines.items = (header :: records, stop))
include found

theorem header_at : RecordAt lines 0 header.line header.fields := by
  have first : Record.read lines.fault.isSome lines.items = ([] ++ header :: records, stop) := found
  exact recordAt_of_read first

theorem record_at (member : x ∈ records) : ∃ k, RecordAt lines (k+1) x.line x.fields := by
  obtain ⟨before, behind, rfl⟩ := List.append_of_mem member
  have later : Record.read lines.fault.isSome lines.items = ((header :: before) ++ x :: behind, stop) := found
  exact ⟨before.length, recordAt_of_read later⟩

end Reading

-- What is wrong with a catalog is wrong with its lines, or is said of the line on
-- which it is found.
theorem readRows_fault (failed : (readRows lines).fault = some f) : lines.fault = some f ∨
    ∃ reason n, f = .format { reason, place := { line := some (n : Nat) } } ∧ Misread lines reason n := by
  unfold readRows at failed
  split at failed
  · rename_i found
    cases failed
    have opening := Record.readFrom_opening lines.fault.isSome {} 0 lines.items
    rw [← Record.read, found] at opening
    cases opening with
    | bare unbroken unquoted none =>
      have bare : lines = { items := [] } := by
        cases lines
        simp_all
      exact Or.inr ⟨_, 1, rfl, .empty bare⟩
  · rename_i n e found
    cases failed
    exact Or.inr ⟨_, 1, rfl, .headerFault (failsAt_of_read found)⟩
  · exact Or.inl failed
  · rename_i header records stop found
    split at failed
    · rename_i reason refused
      cases failed
      exact Or.inr ⟨reason, 1, rfl, .header (header_at found) refused⟩
    · rename_i stands
      have headed : Headed lines := ⟨_, _, header_at found, stands⟩
      rcases rowsOf_fault failed with ended | ⟨x, member, reason, refused, rfl⟩
      · rcases ending_fault ended with broken | ⟨n, e, rfl, rfl⟩
        · exact Or.inl broken
        · exact Or.inr ⟨_, n, rfl, .recordFault headed (failsAt_of_read found)⟩
      · obtain ⟨k, here⟩ := record_at found member
        exact Or.inr ⟨reason, x.line, rfl, .record headed here refused⟩

theorem rowAt_of_mem (member : r ∈ (readRows lines).items) : ∃ n, RowAt lines r n := by
  unfold readRows at member
  split at member
  · cases member
  · cases member
  · cases member
  · rename_i header records stop found
    split at member
    · cases member
    · rename_i stands
      obtain ⟨x, inside, read⟩ := mem_rowsOf member
      obtain ⟨k, here⟩ := record_at found inside
      exact ⟨x.line, ⟨_, _, header_at found, stands⟩, k, x.fields, here, read⟩

end SeedSearch.Catalog
