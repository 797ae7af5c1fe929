import SeedSearch.Catalog.Lines
import SeedSearch.Catalog.Row
import SeedSearch.Text.Fragment

namespace SeedSearch.Catalog

-- The run of names that a header has to show when all of them are joined.
def signature : String := "dungeon_versionseeddepth"

def checkHeader (fields : List String) : Except Malformed Unit :=
  if fields.length ≠ columns.length then .error (.headerFields fields.length)
  else if Text.isFragment signature (String.join (fields.map Text.strip)) then .ok ()
  else .error .headerNames

def rowsOf (after : Option Fault) : List Record.Numbered → Feed Row
  | [] => { items := [], fault := after }
  | r :: rest =>
    if r.fields.isEmpty then rowsOf after rest
    else match Row.ofFields r.fields r.line with
      | .error reason =>
        { items := [], fault := some (.format { reason, place := { line := some r.line } }) }
      | .ok row =>
        let more := rowsOf after rest
        { more with items := row :: more.items }

def ending (broken : Option Fault) : Record.End → Option Fault
  | .eof => none
  | .fault line f => some (.format { reason := .recordFault f, place := { line := some line } })
  | .brokenOff => broken

private def headerError (reason : Malformed) : Feed Row :=
  { items := [], fault := some (.format { reason, place := { line := some 1 } }) }

def readRows (lines : Feed (List Char)) : Feed Row :=
  match Record.read lines.fault.isSome lines.items with
  | ([], .eof) => headerError .empty
  | ([], .fault _ f) => headerError (.headerFault f)
  | ([], .brokenOff) => { items := [], fault := lines.fault }
  | (header :: records, stop) =>
    match checkHeader header.fields with
    | .error reason => headerError reason
    | .ok () => rowsOf (ending lines.fault stop) records

-- A line that is broken off is lost.
def linesOf (lone : Bool) (text : List Char) (fault : Option Fault) : Feed (List Char) :=
  let (whole, rest) := lines lone text
  if fault.isSome || rest.isEmpty then { items := whole, fault } else { items := whole ++ [rest] }

end SeedSearch.Catalog
