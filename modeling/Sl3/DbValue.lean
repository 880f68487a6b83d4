import Sl3.Comparison

/-! `sl3::DbValue`: a value under a type rule fixed at construction. A method runs
on the object it is called on; the state it leaves is kept when it throws. -/
namespace Sl3

structure DbValue where
  dbtype : ValueType
  value : Value
deriving DecidableEq

/-- A member function: it may change the object it runs on and may throw. -/
abbrev Method (σ α : Type) := EStateM Error σ α

def leftBy {ε σ α : Type} : EStateM.Result ε σ α → σ
  | .ok _ s => s
  | .error _ s => s

def ensureOneOf {σ : Type} (type : ValueType) (allowed : List ValueType) : Method σ Unit :=
  if type ∈ allowed then pure ()
  else throw (errTypeMisMatch (type.typeName ++ " not one of required types"))

namespace DbValue

def type (d : DbValue) : ValueType := d.value.getType

def isNull (d : DbValue) : Bool := d.value.isNull

/-- The documented guarantee: a typed value holds Null or its own type. -/
def TypeRule (d : DbValue) : Prop :=
  d.dbtype ≠ .null ∧ (d.type = .null ∨ d.type = d.dbtype ∨ d.dbtype = .variant)

instance (d : DbValue) : Decidable d.TypeRule :=
  inferInstanceAs (Decidable (_ ∧ (_ ∨ _ ∨ _)))

def ofType (type : ValueType) : DbValue := ⟨if type = .null then .variant else type,.null⟩

/-- The constructors from a payload: `DbValue (type)`, the check, then the payload. -/
def ofPayload (kind : ValueType) (payload : Value) (type : ValueType) : Except Error DbValue :=
  match (ensureOneOf type [kind,.variant]).run (ofType type) with
  | .ok _ d => .ok {d with value := payload}
  | .error e _ => .error e

def ofInt (val : Int32) (type : ValueType) : Except Error DbValue :=
  ofPayload .int (.int val.toInt64) type
def ofInt64 (val : Int64) (type : ValueType) : Except Error DbValue := ofPayload .int (.int val) type
def ofText (val : Bytes) (type : ValueType) : Except Error DbValue := ofPayload .text (.text val) type
def ofReal (val : Double) (type : ValueType) : Except Error DbValue := ofPayload .real (.real val) type
def ofBlob (val : Bytes) (type : ValueType) : Except Error DbValue := ofPayload .blob (.blob val) type

def canAssign (d other : DbValue) : Bool :=
  if d.dbtype ≠ .variant then
    if other.dbtype = .variant then other.type ∈ [d.dbtype,.null]
    else d.dbtype = other.dbtype
  else true

def assign (d other : DbValue) : DbValue := {d with value := other.value}

def assignmentTypeName (value : DbValue) : String :=
  if value.dbtype = .variant then
    value.dbtype.typeName ++ " with storage type" ++ value.type.typeName
  else value.dbtype.typeName

def cannotAssign (d other : DbValue) : Error :=
  errTypeMisMatch (d.dbtype.typeName ++ "=" ++ assignmentTypeName other)

/-- Both assignment operators, as far as the target goes. -/
def assignFrom (other : DbValue) : Method DbValue Unit := fun d =>
  if d.canAssign other then .ok () (d.assign other) else .error (d.cannotAssign other) d

/-- The setters: check the type rule against the kind of the payload, then store it. -/
def store (kind : ValueType) (payload : Value) : Method DbValue Unit := do
  ensureOneOf (← get).dbtype [kind,.variant]
  modify fun d => {d with value := payload}

def setInt64 (val : Int64) : Method DbValue Unit := store .int (.int val)
def setReal (val : Double) : Method DbValue Unit := store .real (.real val)
def setText (val : Bytes) : Method DbValue Unit := store .text (.text val)
def setBlob (val : Bytes) : Method DbValue Unit := store .blob (.blob val)

def setInt (val : Int32) : Method DbValue Unit := do
  if (← get).dbtype = .real then setReal (Double.ofInt64 val.toInt64)
  else setInt64 val.toInt64

/-- `operator= (const Value&)`: here the type rule is checked against the stored type. -/
def assignValue (val : Value) : Method DbValue Unit := store val.getType val

def setNull : Method DbValue Unit := modify fun d => {d with value := .null}

def eject (taken : Value → Except Error Bytes × Value) : Method DbValue Bytes := fun d =>
  match taken d.value with
  | (.ok bytes,rest) => .ok bytes {d with value := rest}
  | (.error e,rest) => .error e {d with value := rest}

def ejectText : Method DbValue Bytes := eject Value.ejectText
def ejectBlob : Method DbValue Bytes := eject Value.ejectBlob

def dbvalTypeEq (a b : DbValue) : Bool :=
  if a.dbtype = b.dbtype then Value.valueTypeEq a.value b.value else false

def dbvalTypeLt (a b : DbValue) : Bool :=
  if Value.valueTypeLt a.value b.value then true
  else if Value.valueTypeEq a.value b.value then a.dbtype.code < b.dbtype.code
  else false

def dbvalEq (a b : DbValue) : Bool := Value.valueEq a.value b.value

def dbvalLt (a b : DbValue) : Bool := Value.valueLt a.value b.value

theorem ofPayload_eq (kind type : ValueType) (payload : Value) :
    ofPayload kind payload type =
      if type = kind ∨ type = .variant then .ok ⟨if type = .null then .variant else type,payload⟩
      else .error (errTypeMisMatch (type.typeName ++ " not one of required types")) := by
  by_cases allowed : type = kind ∨ type = .variant
  · have member : type ∈ [kind,.variant] := by simpa using allowed
    simp only [ofPayload,ensureOneOf,member,allowed,if_true]
    rfl
  · have missing : type ∉ [kind,.variant] := by simpa using allowed
    simp only [ofPayload,ensureOneOf,missing,allowed,if_false]
    rfl

theorem canAssign_iff (d other : DbValue) : d.canAssign other = true ↔
    d.dbtype = .variant ∨ other.dbtype = d.dbtype ∨
      other.dbtype = .variant ∧ (other.type = d.dbtype ∨ other.type = .null) := by
  unfold canAssign
  by_cases variant : d.dbtype = .variant
  · simp [variant]
  by_cases free : other.dbtype = .variant
  · simp [variant,free,Ne.symm variant]
  · simp [variant,free,eq_comm]

theorem assign_typeRule {d other : DbValue} (rule : d.TypeRule) (source : other.TypeRule)
    (fits : d.canAssign other = true) : (d.assign other).TypeRule := by
  refine ⟨rule.1,?_⟩
  rcases (canAssign_iff d other).mp fits with variant | same | ⟨_,own | null⟩
  · exact .inr (.inr variant)
  · rcases source.2 with null | own | variant
    · exact .inl null
    · exact .inr (.inl (own.trans same))
    · exact .inr (.inr (same.symm.trans variant))
  · exact .inr (.inl own)
  · exact .inl null

end DbValue
end Sl3
