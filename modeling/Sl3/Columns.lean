import Sl3.DbValues
import Sl3.Library.Traverse

/-! `sl3::Columns`: the current row of a statement, read cell by cell into `DbValue`s. -/
namespace Sl3

/-- A value as sqlite stores it. -/
inductive Cell where
  | null
  | integer (n : Int64)
  | float (x : Double)
  | text (content : Bytes)
  | blob (content : Bytes)
deriving DecidableEq

namespace Cell

def value : Cell → Value
  | null => .null
  | integer n => .int n
  | float x => .real x
  | text content => .text content
  | blob content => .blob content

/-- Where `sqlite3_column_text` and `sqlite3_column_blob` point: a text is followed by
a zero, an empty blob has no address. -/
def memory : Cell → Option Bytes
  | text content => some (content ++ [0])
  | blob content => if content = [] then none else some content
  | _ => none

def byteCount : Cell → Nat
  | text content => content.length
  | blob content => content.length
  | _ => 0

/-- `s > 0 ? T (first, first + s) : T ()`, in `getText` and `getBlob`. -/
def copyOut (cell : Cell) : Bytes :=
  if cell.byteCount > 0 then (cell.memory.getD []).take cell.byteCount else []

theorem copyOut_text (content : Bytes) : (text content).copyOut = content := by
  cases content <;> simp [copyOut,byteCount,memory]

theorem copyOut_blob (content : Bytes) : (blob content).copyOut = content := by
  cases content <;> simp [copyOut,byteCount,memory]

end Cell

abbrev Row (n : Nat) := {cells : List Cell // cells.length = n}

structure Columns where
  names : List String
  cells : List Cell
  sized : cells.length = names.length

namespace Columns
open Library
variable (columns : Columns)

def count : Int := columns.cells.length

def atIndex {α : Type} (idx : Int) (read : Nat → Except Error α) : Except Error α :=
  if idx < 0 ∨ ¬ idx < columns.count then .error (errOutOfRange "column index out of range")
  else read idx.toNat

def getName (idx : Int) : Except Error String :=
  columns.atIndex idx fun i => .ok (columns.names.getD i "")

/-- The cell is read by the accessor of its storage class, whose result goes to the
constructor of `DbValue` with the wanted type. -/
def getValueAs (idx : Int) (type : ValueType) : Except Error DbValue :=
  columns.atIndex idx fun i =>
    match columns.cells.getD i .null with
    | .integer n => DbValue.ofInt64 n type
    | .float x => DbValue.ofReal x type
    | .text content => DbValue.ofText (Cell.text content).copyOut type
    | .blob content => DbValue.ofBlob (Cell.blob content).copyOut type
    | .null => .ok (DbValue.ofType type)

def getValue (idx : Int) : Except Error DbValue := columns.getValueAs idx .variant

def getNames : Except Error (List String) :=
  (List.range columns.cells.length).mapM fun (i : Nat) => columns.getName i

def getRow (types : List ValueType) : Except Error DbValues :=
  if types.length ≠ columns.cells.length then
    .error (errTypeMisMatch "types.size () != getColumnCount ()")
  else
    (List.range columns.cells.length).mapM fun (i : Nat) => columns.getValueAs i (types.getD i .variant)

/-- A cell goes into a result column of the given type: NULL always does, and Null as
a wanted type takes nothing else. -/
def Accepts (type : ValueType) (cell : Cell) : Prop :=
  cell = .null ∨ type = .variant ∨ type = cell.value.getType

instance (type : ValueType) (cell : Cell) : Decidable (Accepts type cell) :=
  inferInstanceAs (Decidable (_ ∨ _ ∨ _))

def converted (type : ValueType) (cell : Cell) : DbValue :=
  ⟨if type = .null then .variant else type,cell.value⟩

variable {columns}

theorem atIndex_inside {α : Type} {i : Nat} (inside : i < columns.cells.length)
    (read : Nat → Except Error α) : columns.atIndex i read = read i := by
  have range : ¬ ((i : Int) < 0 ∨ ¬ (i : Int) < columns.count) := by
    unfold count
    omega
  simp only [atIndex,if_neg range,Int.toNat_natCast]

theorem getValueAs_eq {i : Nat} (inside : i < columns.cells.length) (type : ValueType) :
    columns.getValueAs i type =
      if Accepts type columns.cells[i] then .ok (converted type columns.cells[i])
      else .error (errTypeMisMatch (type.typeName ++ " not one of required types")) := by
  have cell : columns.cells.getD i .null = columns.cells[i] := by simp [List.getD,inside]
  rw [getValueAs,atIndex_inside inside,cell]
  cases columns.cells[i] <;>
    simp [DbValue.ofInt64,DbValue.ofReal,DbValue.ofText,DbValue.ofBlob,DbValue.ofPayload_eq,Accepts,
      converted,Cell.value,Value.getType,Cell.copyOut_text,Cell.copyOut_blob,DbValue.ofType,or_comm]

theorem getValue_eq {i : Nat} (inside : i < columns.cells.length) :
    columns.getValue i = .ok ⟨.variant,columns.cells[i].value⟩ := by
  simp [getValue,getValueAs_eq inside,Accepts,converted]

theorem getNames_eq : columns.getNames = .ok columns.names := by
  have each : ∀ i ∈ List.range columns.cells.length,
      columns.getName i = .ok (columns.names.getD i "") := by
    intro i member
    rw [getName,atIndex_inside (List.mem_range.mp member)]
  rw [getNames,Traverse.mapM_ok each]
  congr 1
  apply List.ext_getElem
  · simp [columns.sized]
  · intro i left right
    simp [right]

theorem getRow_ok {types : List ValueType} (fits : List.Forall₂ Accepts types columns.cells) :
    columns.getRow types = .ok (List.zipWith converted types columns.cells) := by
  obtain ⟨same,accepts⟩ := List.forall₂_iff_get.mp fits
  have each : ∀ i ∈ List.range columns.cells.length, columns.getValueAs i (types.getD i .variant) =
      .ok (converted (types.getD i .variant) (columns.cells.getD i .null)) := by
    intro i member
    have inside := List.mem_range.mp member
    have typed : i < types.length := by omega
    have accepted := accepts i typed inside
    simp only [List.get_eq_getElem] at accepted
    rw [getValueAs_eq inside]
    simp [List.getD,inside,typed,accepted]
  rw [getRow,if_neg (by simpa using same),Traverse.mapM_ok each]
  congr 1
  apply List.ext_getElem
  · simp [same]
  · intro i left right
    have inside : i < columns.cells.length := by simpa using left
    simp [inside,same]

theorem getRow_error {types : List ValueType} (misfit : ¬ List.Forall₂ Accepts types columns.cells) :
    ∃ what, columns.getRow types = .error (errTypeMisMatch what) := by
  by_cases same : types.length = columns.cells.length
  · obtain ⟨i,typed,inside,refused⟩ :
        ∃ i, ∃ (typed : i < types.length) (inside : i < columns.cells.length),
          ¬ Accepts types[i] columns.cells[i] := by
      by_contra none
      simp only [not_exists,not_not] at none
      exact misfit (List.forall₂_iff_get.mpr ⟨same,none⟩)
    let read (k : Nat) := columns.getValueAs k (types.getD k .variant)
    have rejects : read i = .error (errTypeMisMatch (types[i].typeName ++ " not one of required types")) := by
      simp [read,getValueAs_eq inside,List.getD,typed,refused]
    obtain ⟨j,member,e,stopped,failed⟩ :=
      Traverse.mapM_error (List.mem_range.mpr inside) rejects
    simp only [read,getValueAs_eq (List.mem_range.mp member)] at stopped
    rw [getRow,if_neg (by simpa using same),failed]
    split at stopped
    · simp at stopped
    · cases stopped
      exact ⟨_,rfl⟩
  · exact ⟨_,by rw [getRow,if_pos same]⟩

end Columns
end Sl3
