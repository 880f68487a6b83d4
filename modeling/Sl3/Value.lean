import Sl3.Types

/-! `sl3::Value` as the sum of its storage types, with its accessors. -/
namespace Sl3

inductive Value where
  | null
  | int (intval : Int64)
  | real (realval : Double)
  | text (textval : Bytes)
  | blob (blobval : Bytes)
deriving DecidableEq

namespace Value

def getType : Value → ValueType
  | null => .null
  | int _ => .int
  | real _ => .real
  | text _ => .text
  | blob _ => .blob

def isNull (v : Value) : Bool := v.getType = .null

def wrongType (v : Value) (wanted : ValueType) : Error :=
  errTypeMisMatch (v.getType.typeName ++ " != " ++ wanted.typeName)

def int64 : Value → Except Error Int64
  | null => .error (errNullValueAccess "")
  | int intval => .ok intval
  | v => .error (v.wrongType .int)

def getReal : Value → Except Error Double
  | null => .error (errNullValueAccess "")
  | real realval => .ok realval
  | v => .error (v.wrongType .real)

def getText : Value → Except Error Bytes
  | null => .error (errNullValueAccess "")
  | text textval => .ok textval
  | v => .error (v.wrongType .text)

def getBlob : Value → Except Error Bytes
  | null => .error (errNullValueAccess "")
  | blob blobval => .ok blobval
  | v => .error (v.wrongType .blob)

/-- The stored text moves out and the value becomes Null; a failing call changes nothing. -/
def ejectText (v : Value) : Except Error Bytes × Value :=
  match v.getText with
  | .ok textval => (.ok textval,null)
  | .error e => (.error e,v)

def ejectBlob (v : Value) : Except Error Bytes × Value :=
  match v.getBlob with
  | .ok blobval => (.ok blobval,null)
  | .error e => (.error e,v)

def NonNaN : Value → Prop
  | real realval => realval.isNaN = false
  | _ => True

def Finite : Value → Prop
  | real realval => realval.isFinite = true
  | _ => True

theorem Finite.nonNaN {v : Value} (finite : v.Finite) : v.NonNaN := by
  cases v with
  | real realval => cases realval <;> simp_all [Finite,NonNaN,Library.Binary.Number.isFinite,Library.Binary.Number.isNaN]
  | _ => trivial

end Value
end Sl3
