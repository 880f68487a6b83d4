import Sl3.Value
import Sl3.Library.Ownership

/-! `sl3::Value` as the tagged union that the source writes by hand: a tag, storage in
which one member is alive, destructor calls and placement new. A step that would use a
member that is not alive, or lose one that is, has no result. -/
namespace Sl3.ValueObjects
open Library

/-- The members of the union that have a destructor. -/
inductive Member where
  | textval
  | blobval
deriving DecidableEq

def Member.kind : Member → ValueType
  | .textval => .text
  | .blobval => .blob

inductive Store where
  | raw
  | intval (n : Int64)
  | realval (x : Double)
  | object (member : Member) (id : Nat) (content : Bytes)

structure Object where
  type : ValueType
  store : Store

def Store.id : Store → Option Nat
  | .object _ id _ => some id
  | _ => none

/-- Where a Value lives: an object of the caller, or the local one of `Value::swap`. -/
inductive Place where
  | object (a : Nat)
  | temporary
deriving DecidableEq

def alive (objects : Place → Option Object) (place : Place) : Option Nat :=
  (objects place).bind fun o => o.store.id

structure Heap where
  objects : Place → Option Object
  created : Nat
  destroyed : List Nat
  owned : Ownership (alive objects) created destroyed

def Heap.empty : Heap := ⟨fun _ => none,0,[],.none⟩

theorem alive_update (objects : Place → Option Object) (place : Place) (o : Option Object) :
    alive (Function.update objects place o) =
      Function.update (alive objects) place (o.bind fun o => o.store.id) := by
  ext1 other
  by_cases same : other = place
  · subst same
    simp [alive]
  · simp [alive,same]

/-- What the code does with memory; `none` is undefined behaviour or a leak. -/
abbrev Access (α : Type) := StateT Heap Option α

section memory
variable (this : Place)

def Heap.put (h : Heap) (o : Option Object) (same : (o.bind fun o => o.store.id) = alive h.objects this) : Heap where
  __ := h
  objects := Function.update h.objects this o
  owned := by
    rw [alive_update,same,Function.update_eq_self]
    exact h.owned

def type : Access ValueType := fun h => (h.objects this).map fun o => (o.type,h)

/-- Storage for a Value, with its `_type`. -/
def allocate (type : ValueType) : Access Unit := fun h =>
  if free : h.objects this = none then some ((),h.put this (some ⟨type,.raw⟩) (by simp [alive,free,Store.id]))
  else none

/-- The storage goes away; a member that is still alive would be lost. -/
def release : Access Unit := fun h =>
  if empty : alive h.objects this = none then
    if h.objects this = none then none else some ((),h.put this none empty.symm)
  else none

def setType (type : ValueType) : Access Unit := fun h =>
  match here : h.objects this with
  | some o => some ((),h.put this (some {o with type}) (by simp [alive,here]))
  | none => none

/-- An assignment to `intval` or `realval`: it starts the lifetime of that member. -/
def write (store : Store) : Access Unit := fun h =>
  match here : h.objects this with
  | some o =>
    if plain : o.store.id = none ∧ store.id = none then
      some ((),h.put this (some {o with store}) (by simp [alive,here,plain]))
    else none
  | none => none

def intval : Access Int64 := fun h =>
  match h.objects this with
  | some ⟨_,.intval n⟩ => some (n,h)
  | _ => none

def realval : Access Double := fun h =>
  match h.objects this with
  | some ⟨_,.realval x⟩ => some (x,h)
  | _ => none

variable (member : Member)

/-- `new (&_store.textval) std::string (..)`, and the same for a blob. -/
def create (content : Bytes) : Access Unit := fun h =>
  match here : h.objects this with
  | some o =>
    if plain : o.store.id = none then
      some ((),{
        objects := Function.update h.objects this (some {o with store := .object member h.created content})
        created := h.created + 1
        destroyed := h.destroyed
        owned := by
          rw [alive_update]
          exact h.owned.acquire (by simp [alive,here,plain])})
    else none
  | none => none

/-- The explicit destructor call. -/
def destroy : Access Unit := fun h =>
  match here : h.objects this with
  | some ⟨type,.object member' id _⟩ =>
    if member' = member then
      some ((),{
        objects := Function.update h.objects this (some ⟨type,.raw⟩)
        created := h.created
        destroyed := h.destroyed ++ [id]
        owned := by
          rw [alive_update]
          exact h.owned.release (by simp [alive,here,Store.id])})
    else none
  | _ => none

def content : Access Bytes := fun h =>
  match h.objects this with
  | some ⟨_,.object member' _ content⟩ => if member' = member then some (content,h) else none
  | _ => none

def setContent (content : Bytes) : Access Unit := fun h =>
  match here : h.objects this with
  | some ⟨type,.object member' id _⟩ =>
    if member' = member then
      some ((),h.put this (some ⟨type,.object member id content⟩) (by simp [alive,here,Store.id]))
    else none
  | _ => none

end memory

section spec
variable {h : Heap} {this : Place} {o : Object} {member : Member} {id : Nat} {bytes : Bytes}

theorem bind_run {α β : Type} {x : Access α} {a : α} {u : Heap} (f : α → Access β) (ran : x h = some (a,u)) :
    (x >>= f) h = f a u := by
  simp [bind,StateT.bind,ran]

theorem type_run (here : h.objects this = some o) : type this h = some (o.type,h) := by
  simp [type,here]

theorem allocate_run (free : h.objects this = none) (t : ValueType) :
    ∃ u, allocate this t h = some ((),u) ∧ u.objects = Function.update h.objects this (some ⟨t,.raw⟩) := by
  refine ⟨_,dif_pos free,rfl⟩

theorem release_run (here : h.objects this = some o) (plain : o.store.id = none) :
    ∃ u, release this h = some ((),u) ∧ u.objects = Function.update h.objects this none := by
  have empty : alive h.objects this = none := by simp [alive,here,plain]
  exact ⟨h.put this none empty.symm,by simp [release,empty,here],rfl⟩

theorem setType_run (here : h.objects this = some o) (t : ValueType) :
    ∃ u, setType this t h = some ((),u) ∧ u.objects = Function.update h.objects this (some {o with type := t}) := by
  unfold setType
  split
  · rename_i found same
    cases same.symm.trans here
    exact ⟨_,rfl,rfl⟩
  · rename_i missing
    simp [missing] at here

theorem write_run (here : h.objects this = some o) (old : o.store.id = none) {store : Store}
    (plain : store.id = none) :
    ∃ u, write this store h = some ((),u) ∧ u.objects = Function.update h.objects this (some {o with store}) := by
  unfold write
  split
  · rename_i found same
    cases same.symm.trans here
    exact ⟨_,dif_pos ⟨old,plain⟩,rfl⟩
  · rename_i missing
    simp [missing] at here

theorem create_run (here : h.objects this = some o) (plain : o.store.id = none) (member : Member) (bytes : Bytes) :
    ∃ u id, create this member bytes h = some ((),u) ∧
      u.objects = Function.update h.objects this (some {o with store := .object member id bytes}) := by
  unfold create
  split
  · rename_i found same
    cases same.symm.trans here
    exact ⟨_,h.created,dif_pos plain,rfl⟩
  · rename_i missing
    simp [missing] at here

theorem destroy_run {t : ValueType} (here : h.objects this = some ⟨t,.object member id bytes⟩) :
    ∃ u, destroy this member h = some ((),u) ∧
      u.objects = Function.update h.objects this (some ⟨t,.raw⟩) := by
  unfold destroy
  split
  · rename_i found same
    cases same.symm.trans here
    exact ⟨_,if_pos rfl,rfl⟩
  · rename_i missing
    exact absurd here (missing _ _ _ _)

theorem content_run {t : ValueType} (here : h.objects this = some ⟨t,.object member id bytes⟩) :
    content this member h = some (bytes,h) := by
  simp [content,here]

theorem setContent_run {t : ValueType} (here : h.objects this = some ⟨t,.object member id bytes⟩) (new : Bytes) :
    ∃ u, setContent this member new h = some ((),u) ∧
      u.objects = Function.update h.objects this (some ⟨t,.object member id new⟩) := by
  unfold setContent
  split
  · rename_i found same
    cases same.symm.trans here
    exact ⟨_,if_pos rfl,rfl⟩
  · rename_i missing
    exact absurd here (missing _ _ _ _)

end spec

/-- What the operands of an assignment refer to: a value of the caller, or the payload of a Value. -/
inductive Operand (α : Type) where
  | given (x : α)
  | payload (of : Nat)

namespace Operand

def int : Operand Int64 → Access Int64
  | given n => pure n
  | payload a => intval (.object a)

def real : Operand Double → Access Double
  | given x => pure x
  | payload a => realval (.object a)

def bytes (member : Member) : Operand Bytes → Access Bytes
  | given s => pure s
  | payload a => content (.object a) member

end Operand

section Value
variable (this other : Place)

/-- `if (_type == Type::Text) .. else if (_type == Type::Blob) ..`, with the destructor calls. -/
def clear : Access Unit := do
  match ← type this with
  | .text => destroy this .textval
  | .blob => destroy this .blobval
  | _ => pure ()

def ofNull : Access Unit := allocate this .null

def ofInt64 (val : Int64) : Access Unit := do
  allocate this .int
  write this (.intval val)

def ofInt (val : Int32) : Access Unit := do
  allocate this .int
  write this (.intval val.toInt64)

def ofReal (val : Double) : Access Unit := do
  allocate this .real
  write this (.realval val)

def ofText (val : Bytes) : Access Unit := do
  allocate this .text
  create this .textval val

/-- From a `const char*`: the characters before the first zero. -/
def ofChars (val : Bytes) : Access Unit := ofText this (val.takeWhile (· ≠ 0))

def ofBlob (val : Bytes) : Access Unit := do
  allocate this .blob
  create this .blobval val

def destruct : Access Unit := do
  clear this
  release this

/-- The switch of the copies; a Variant would raise ErrUnexpected ("never reach"). -/
def copyStore : Access Unit := do
  match ← type this with
  | .null => pure ()
  | .int => write this (.intval (← intval other))
  | .real => write this (.realval (← realval other))
  | .text => create this .textval (← content other .textval)
  | .blob => create this .blobval (← content other .blobval)
  | .variant => failure

def copyConstruct : Access Unit := do
  allocate this (← type other)
  copyStore this other

def copyAssign : Access Unit := do
  let mine ← type this
  let its ← type other
  if mine = .text ∧ its = .text then setContent this .textval (← content other .textval)
  else if mine = .blob ∧ its = .blob then setContent this .blobval (← content other .blobval)
  else
    clear this
    setType this (← type other)
    copyStore this other

def setNull : Access Unit := do
  clear this
  setType this .null

def assignInt64 (val : Operand Int64) : Access Unit := do
  clear this
  write this (.intval (← val.int))
  setType this .int

def assignInt (val : Int32) : Access Unit := assignInt64 this (.given val.toInt64)

def assignReal (val : Operand Double) : Access Unit := do
  clear this
  write this (.realval (← val.real))
  setType this .real

/-- `operator= (const std::string&)` and `operator= (const Blob&)`: the member of the own
kind is assigned, the other one is destroyed before the new one is made. -/
def assignBytes (member : Member) (val : Operand Bytes) : Access Unit := do
  if (← type this) = member.kind then setContent this member (← val.bytes member)
  else
    clear this
    create this member (← val.bytes member)
    setType this member.kind

def assignText (val : Operand Bytes) : Access Unit := assignBytes this .textval val
def assignBlob (val : Operand Bytes) : Access Unit := assignBytes this .blobval val

variable (movedFrom : Bytes → Bytes)

/-- What a move leaves in a string or vector is valid but not specified. -/
def takeContent (member : Member) : Access Bytes := do
  let bytes ← content other member
  setContent other member (movedFrom bytes)
  pure bytes

def moveStore : Access Unit := do
  match ← type this with
  | .null => pure ()
  | .int => write this (.intval (← intval other))
  | .real => write this (.realval (← realval other))
  | .text =>
    create this .textval (← takeContent other movedFrom .textval)
    destroy other .textval
  | .blob =>
    create this .blobval (← takeContent other movedFrom .blobval)
    destroy other .blobval
  | .variant => failure

def moveConstruct : Access Unit := do
  allocate this (← type other)
  write this (.intval 0)
  moveStore this other movedFrom
  setType other .null

/-- `_store.textval = std::move (other._store.textval)`. -/
def moveContent (member : Member) : Access Unit := do
  let bytes ← takeContent other movedFrom member
  if this = other then pure () else setContent this member bytes

def moveAssign : Access Unit := do
  let mine ← type this
  let its ← type other
  if mine = .text ∧ its = .text then
    moveContent this other movedFrom .textval
    setNull other
  else if mine = .blob ∧ its = .blob then
    moveContent this other movedFrom .blobval
    setNull other
  else
    clear this
    setType this (← type other)
    moveStore this other movedFrom
    setType other .null

def eject (member : Member) : Access (Except Error Bytes) := do
  let type ← type this
  if type = .null then pure (.error (errNullValueAccess ""))
  else if type ≠ member.kind then
    pure (.error (errTypeMisMatch (type.typeName ++ " != " ++ member.kind.typeName)))
  else
    let tmp ← takeContent this movedFrom member
    destroy this member
    setType this .null
    pure (.ok tmp)

def ejectText : Access (Except Error Bytes) := eject this movedFrom .textval
def ejectBlob : Access (Except Error Bytes) := eject this movedFrom .blobval

def swap : Access Unit := do
  moveConstruct .temporary other movedFrom
  moveAssign other this movedFrom
  moveAssign this .temporary movedFrom
  destruct .temporary

end Value

end Sl3.ValueObjects
