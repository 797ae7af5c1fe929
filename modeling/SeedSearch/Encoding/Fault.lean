import SeedSearch.Text.Quoted

namespace SeedSearch.Encoding

inductive Reason where
  | invalidStart | invalidContinuation | unexpectedEnd
  | truncated | illegalEncoding | illegalSurrogate
  deriving DecidableEq, Repr

def Reason.message : Reason → String
  | invalidStart => "invalid start byte"
  | invalidContinuation => "invalid continuation byte"
  | unexpectedEnd => "unexpected end of data"
  | truncated => "truncated data"
  | illegalEncoding => "illegal encoding"
  | illegalSurrogate => "illegal UTF-16 surrogate"

-- `octets` are those from `start` on; the fault ends before `stop`. Both count
-- from the start of the block that was being decoded.
inductive Fault where
  | octets (codec : String) (octets : List UInt8) (start stop : Nat) (reason : Reason)
  | missingMark
  deriving DecidableEq, Repr

def Fault.message : Fault → String
  | octets codec bytes start stop reason =>
    let place :=
      if stop = start+1 then
        let byte := String.ofList (Text.Quoted.hex 2 (bytes.headD 0).toNat)
        s!"byte 0x{byte} in position {start}"
      else s!"bytes in position {start}-{stop-1}"
    s!"'{codec}' codec can't decode {place}: {reason.message}"
  | missingMark => "UTF-16 stream does not start with BOM"

end SeedSearch.Encoding
