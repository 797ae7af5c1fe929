import SeedSearch.Log.Record
import SeedSearch.Log.Template

namespace SeedSearch.Log

-- A record of which the parts can be any values, and extras take the place of
-- parts.
structure Draft where
  name : Value
  level : Value
  template : Value
  values : Template.Supply := { pending := [] }
  error : Option String := none
  extras : List (String × Value) := []

namespace Draft

inductive Fault where
  | template (fault : Template.Fault)
  | notCallable (v : Value)
  | notIterable (v : Value)
  | notOctets
  | noAttribute (name : String) (v : Value)
  | notSubscriptable (v : Value)
  | outOfRange (v : Value)
  | noEntry (number : Nat)

def Fault.message : Fault → String
  | template fault => fault.message
  | notCallable v => s!"'{v.sort}' object is not callable"
  | notIterable v => s!"argument of type '{v.sort}' is not iterable"
  | notOctets => "a bytes-like object is required, not 'str'"
  | noAttribute name v => s!"'{v.sort}' object has no attribute '{name}'"
  | notSubscriptable v => s!"'{v.sort}' object is not subscriptable"
  | outOfRange v =>
    let sort := match v with
      | .text _ => "string "
      | .octets _ => ""
      | .span _ => "range object "
      | v => v.sort ++ " "
    sort ++ "index out of range"
  | noEntry number => toString number

def levels : List (String × Int) :=
  [("CRITICAL", 50), ("FATAL", 50), ("ERROR", 40), ("WARNING", 30), ("WARN", 30), ("INFO", 20),
   ("DEBUG", 10), ("NOTSET", 0)]

def titleOf (level : Value) : Value :=
  match levels.find? fun l => level.isSame (.int l.2) with
  | some l => .text (levelName l.2)
  | none =>
    let other := Value.text ("Level " ++ level.shown)
    match level with
    | .text word => ((levels.lookup word).map Value.int).getD other
    | _ => other

private def checkName (name : Value) : Except Fault Unit :=
  let split (found : Bool) : Except Fault Unit :=
    if found then .error (.noAttribute "split" name) else .ok ()
  match name with
  | .text _ | .span _ => .ok ()
  | .list items | .set _ items => split (items.any fun v => v.isSame (.text "."))
  | .table members => split (members.any fun m => m.1 = ".")
  | .octets _ => .error .notOctets
  | v => .error (.notIterable v)

def errorText (message : String) : String :=
  if message = "" then "ValueError" else "ValueError: " ++ message

private def tellAt (error place : Value) : Except Fault String :=
  match place, error with
  | .null, .failure message => .ok (errorText message)
  | .null, .null => .ok "NoneType: None"
  | .null, v => .error (.noAttribute "__suppress_context__" v)
  | v, _ => .error (.noAttribute "tb_frame" v)

private def tell (v : Value) : Except Fault String :=
  match v with
  | .list (_ :: error :: place :: _) => tellAt error place
  | .text t => match t.toList with
    | _ :: c :: d :: _ => tellAt (.text (String.singleton c)) (.text (String.singleton d))
    | _ => .error (.outOfRange v)
  | .octets (_ :: o :: p :: _) => tellAt (.int o.toNat) (.int p.toNat)
  | .span n => if n < 3 then .error (.outOfRange v) else tellAt (.int 1) (.int 2)
  | .list _ | .octets _ => .error (.outOfRange v)
  | .table _ => .error (.noEntry 2)
  | v => .error (.notSubscriptable v)

def record (d : Draft) : Except Fault Record := do
  let extra? (name : String) : Option Value := d.extras.lookup name
  if let some v := extra? "getMessage" then .error (.notCallable v)
  let values := (extra? "args").elim d.values .ofValue
  let chars ← (Template.fill ((extra? "msg").getD d.template).shown values).mapError .template
  let name := (extra? "name").getD d.name
  checkName name
  let exception ← match extra? "exc_info" with
    | none => pure (d.error.map errorText)
    | some v => if v.isGiven then some <$> tell v else pure none
  return {
    logger := name.shown
    level := match d.level with
      | .int n => n
      | _ => 0
    message := String.ofList (chars.map (·.getD '\ufffd'))
    torn := chars.findIdx? Option.isNone
    name
    title := (extra? "levelname").getD (titleOf d.level)
    exception
    extras := d.extras }

end Draft

end SeedSearch.Log
