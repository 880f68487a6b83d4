import Sl3.DbValues
import Sl3.Library.VectorAssign

/-! `sl3::Dataset`: rows under field types and field names. -/
namespace Sl3

structure Dataset where
  rows : List DbValues
  fieldtypes : List ValueType
  names : List String
deriving DecidableEq

namespace Dataset
open Library

def ofTypes (types : List ValueType) : Dataset := ⟨[],types,[]⟩

def reset : Method Dataset Unit := fun ds => .ok () {ds with names := [],rows := []}

def resetTypes (types : List ValueType) : Method Dataset Unit := fun ds => reset {ds with fieldtypes := types}

/-- The loop of both `merge` functions: a field that is not Variant asks for its own type. -/
def checkTypes : List ValueType → List ValueType → Except Error Unit
  | type::fieldtypes,other::types =>
    if type ≠ .variant ∧ type ≠ other then .error (errTypeMisMatch "") else checkTypes fieldtypes types
  | _,_ => .ok ()

/-- `merge (const Dataset&)`; `inserted` is what `insert` leaves in the vector of rows. -/
def merge (inserted : List DbValues) (other : Dataset) : Method Dataset Unit := fun ds =>
  if other.names ≠ [] ∧ ds.names ≠ [] ∧ ds.names ≠ other.names then .error (errTypeMisMatch "") ds
  else if ds.fieldtypes.length ≠ other.fieldtypes.length then .error (errTypeMisMatch "") ds
  else
    match checkTypes ds.fieldtypes other.fieldtypes with
    | .error e => .error e ds
    | .ok _ => .ok () {ds with rows := inserted}

/-- `merge (const DbValues&)`: the row is copied before the vector changes. -/
def mergeRow (row : DbValues) : Method Dataset Unit := fun ds =>
  if ds.fieldtypes.length > 0 ∧ ds.fieldtypes.length ≠ row.length then .error (errTypeMisMatch "") ds
  else
    match checkTypes ds.fieldtypes row.dbtypes with
    | .error e => .error e ds
    | .ok _ => .ok () {ds with rows := ds.rows ++ [row]}

def getIndex (ds : Dataset) (name : String) : Except Error Nat :=
  match ds.names.idxOf? name with
  | none => .error (errOutOfRange ("Field name " ++ name ++ " not found"))
  | some i => .ok i

/-- The constructor `Dataset (Dataset&&)`: the new object and what is left of the old one. -/
def moveOut (ds : Dataset) : Dataset × Dataset := (ds,⟨[],[],[]⟩)

/-- The field types that a row or a Dataset of these types can be merged under. -/
def Takes (fieldtypes types : List ValueType) : Prop :=
  List.Forall₂ (fun type other => type = .variant ∨ type = other) fieldtypes types

theorem checkTypes_cases (fieldtypes types : List ValueType) :
    checkTypes fieldtypes types = .error (errTypeMisMatch "") ∨
      checkTypes fieldtypes types = .ok () ∧ (fieldtypes.length = types.length → Takes fieldtypes types) := by
  induction fieldtypes generalizing types with
  | nil =>
    refine .inr ⟨rfl,fun same => ?_⟩
    rw [List.length_eq_zero_iff.mp same.symm]
    exact .nil
  | cons type fieldtypes ih =>
    cases types with
    | nil => exact .inr ⟨rfl,nofun⟩
    | cons other types =>
      unfold checkTypes
      split_ifs with refused
      · exact .inl rfl
      · have fits : type = .variant ∨ type = other := by
          by_contra neither
          exact refused (not_or.mp neither)
        rcases ih types with failed | ⟨passed,takes⟩
        · exact .inl failed
        · exact .inr ⟨passed,fun same => .cons fits (takes (by simpa using same))⟩

theorem checkTypes_takes {fieldtypes types : List ValueType} (takes : Takes fieldtypes types) :
    checkTypes fieldtypes types = .ok () := by
  induction takes with
  | nil => rfl
  | @cons type other _ _ fits _ ih =>
    have taken : ¬ (type ≠ .variant ∧ type ≠ other) := by
      rintro ⟨fixed,differs⟩
      exact fits.elim fixed differs
    rw [checkTypes,if_neg taken,ih]

theorem merge_cases (inserted : List DbValues) (other ds : Dataset) :
    merge inserted other ds = .error (errTypeMisMatch "") ds ∨
      merge inserted other ds = .ok () {ds with rows := inserted} ∧ Takes ds.fieldtypes other.fieldtypes := by
  unfold merge
  split_ifs with names sizes
  · exact .inl rfl
  · exact .inl rfl
  · rcases checkTypes_cases ds.fieldtypes other.fieldtypes with failed | ⟨passed,takes⟩
    · simp [failed]
    · simp [passed,takes (not_not.mp sizes)]

theorem mergeRow_cases (row : DbValues) (ds : Dataset) :
    mergeRow row ds = .error (errTypeMisMatch "") ds ∨
      mergeRow row ds = .ok () {ds with rows := ds.rows ++ [row]} ∧
        (ds.fieldtypes ≠ [] → Takes ds.fieldtypes row.dbtypes) := by
  unfold mergeRow
  split_ifs with sizes
  · exact .inl rfl
  · rcases checkTypes_cases ds.fieldtypes row.dbtypes with failed | ⟨passed,takes⟩
    · simp [failed]
    · refine .inr ⟨by simp [passed],fun typed => takes ?_⟩
      have positive := List.length_pos_iff.mpr typed
      have same : ds.fieldtypes.length = row.length := by
        by_contra differs
        exact sizes ⟨positive,differs⟩
      simpa [DbValues.dbtypes] using same

section returned
variable {inserted : List DbValues} {row : DbValues} {ds other after left : Dataset} {e : Error}

theorem merge_ok (merged : merge inserted other ds = .ok () after) :
    after = {ds with rows := inserted} ∧ Takes ds.fieldtypes other.fieldtypes := by
  rcases merge_cases inserted other ds with failed | ⟨ran,takes⟩
  · cases failed.symm.trans merged
  · cases ran.symm.trans merged
    exact ⟨rfl,takes⟩

theorem merge_error (refused : merge inserted other ds = .error e left) : left = ds := by
  rcases merge_cases inserted other ds with failed | ⟨ran,_⟩
  · cases failed.symm.trans refused
    rfl
  · cases ran.symm.trans refused

theorem mergeRow_ok (merged : mergeRow row ds = .ok () after) :
    after = {ds with rows := ds.rows ++ [row]} ∧ (ds.fieldtypes ≠ [] → Takes ds.fieldtypes row.dbtypes) := by
  rcases mergeRow_cases row ds with failed | ⟨ran,takes⟩
  · cases failed.symm.trans merged
  · cases ran.symm.trans merged
    exact ⟨rfl,takes⟩

theorem mergeRow_error (refused : mergeRow row ds = .error e left) : left = ds := by
  rcases mergeRow_cases row ds with failed | ⟨ran,_⟩
  · cases failed.symm.trans refused
    rfl
  · cases ran.symm.trans refused

end returned

theorem mergeRow_of_size {row : DbValues} {ds : Dataset} (typed : ds.fieldtypes ≠ [])
    (differs : ds.fieldtypes.length ≠ row.length) : mergeRow row ds = .error (errTypeMisMatch "") ds :=
  if_pos ⟨List.length_pos_iff.mpr typed,differs⟩

/-- The defaulted copy assignment: the rows of the base class, whose vector has room
for `capacity` rows, then the field types and the names. -/
def copyAssign (capacity : Nat) (other : Dataset) : Method Dataset Unit := fun ds =>
  match VectorAssign.copyAssign capacity DbValues.copyAssign other.rows ds.rows with
  | .error e rows => .error e {ds with rows}
  | .ok _ rows => .ok () {ds with rows,fieldtypes := other.fieldtypes,names := other.names}

/-- Copy assignment replaces the target exactly when it needs fresh storage, or the
dbtypes of every row already there are those of the row that replaces it. -/
theorem copyAssign_replaces_iff (capacity : Nat) (ds other : Dataset) :
    copyAssign capacity other ds = .ok () other ↔ capacity < other.rows.length ∨
      ∀ pair ∈ ds.rows.zip other.rows, DbValues.dbtypes pair.1 = DbValues.dbtypes pair.2 := by
  simp only [← DbValues.copyAssign_exact_iff,← VectorAssign.copyAssign_exact_iff]
  unfold copyAssign
  cases VectorAssign.copyAssign capacity DbValues.copyAssign other.rows ds.rows with
  | error e rows => simp
  | ok done rows => cases other; simp

theorem copyAssign_not_replaced :
    let two : Dataset := ⟨[[⟨.int,.int 1⟩,⟨.int,.int 2⟩]],[.int,.int],["a","b"]⟩
    let one : Dataset := ⟨[[⟨.int,.int 3⟩]],[.int],["a"]⟩
    let free : Dataset := ⟨[[⟨.variant,.null⟩]],[.variant],["x"]⟩
    copyAssign 1 one two = .error (errTypeMisMatch "") two ∧
      copyAssign 1 one free = .ok () ⟨[[⟨.variant,.int 3⟩]],[.int],["a"]⟩ ∧
      copyAssign 1 one free ≠ .ok () one := by
  intro two one free
  have kept : copyAssign 1 one free = .ok () ⟨[[⟨.variant,.int 3⟩]],[.int],["a"]⟩ := rfl
  refine ⟨rfl,kept,?_⟩
  rw [kept]
  simp [one]

end Dataset
end Sl3
