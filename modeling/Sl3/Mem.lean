import Sl3.IntegerText

/-! A value of sqlite as `sqlite3_value_*` reads it: of one kind, and beside it the text or blob
form that earlier reads have made of it. The connection is one of UTF-8: no encoding is kept, and none is changed. -/
namespace Sl3
open Library Library.Binary IntegerText

/-- How sqlite writes a double, and what it reads at the front of a text as one. -/
structure Numerals where
  realToText : Double → Bytes
  atoF : Bytes → Double

/-- What `MEM_Null`, `MEM_Int` and `MEM_Real` say; a text or blob has none of them. -/
inductive Kind where
  | null
  | int (i : Int64)
  | real (r : Double)
  | bytes
deriving DecidableEq

/-- `sqlite3_value`: `MEM_Str`, `MEM_Blob` and the `n` bytes at `z`. -/
structure Mem where
  kind : Kind
  str : Bool
  blob : Bool
  z : Bytes
deriving DecidableEq

namespace Mem

/-- A value as the step leaves it in the row. -/
def ofCell : Cell → Mem
  | .null => ⟨.null,false,false,[]⟩
  | .integer n => ⟨.int n,false,false,[]⟩
  | .float x => ⟨.real x,false,false,[]⟩
  | .text content => ⟨.bytes,true,false,content⟩
  | .blob content => ⟨.bytes,false,true,content⟩

variable (numerals : Numerals)

def stringify (m : Mem) : Mem :=
  match m.kind with
  | .int i => {m with str := true,z := int64ToText i}
  | .real r => {m with str := true,z := numerals.realToText r}
  | _ => m

def valueText (m : Mem) : Option Bytes × Mem :=
  if m.str then (some m.z,m)
  else if m.kind = .null then (none,m)
  else if m.blob then (some m.z,{m with str := true})
  else (some (m.stringify numerals).z,m.stringify numerals)

def valueBlob (m : Mem) : Option Bytes × Mem :=
  if m.blob ∨ m.str then (if m.z = [] then none else some m.z,{m with blob := true})
  else m.valueText numerals

def valueBytes (m : Mem) : Nat × Mem :=
  if m.str ∨ m.blob then (m.z.length,m)
  else if m.kind = .null then (0,m)
  else ((m.valueText numerals).2.z.length,(m.valueText numerals).2)

def valueInt64 (m : Mem) : Option Int64 :=
  match m.kind with
  | .int i => some i
  | .real r => realToI64 r
  | _ => if m.str ∨ m.blob then some (atoi64 m.z).2 else some 0

def valueInt (m : Mem) : Option Int32 := m.valueInt64.map Int64.toInt32

def valueDouble (m : Mem) : Double :=
  match m.kind with
  | .real r => r
  | .int i => Double.ofInt64 i
  | _ => if m.str ∨ m.blob then numerals.atoF m.z else Number.ofRat 0

def valueType (m : Mem) : ValueType :=
  match m.kind with
  | .null => .null
  | .real _ => .real
  | .int _ => .int
  | .bytes => if m.str then .text else .blob

end Mem
end Sl3
