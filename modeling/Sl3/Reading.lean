import Sl3.Mem
import Sl3.Library.Tracking

/-! `sl3::Columns` on the values of sqlite's current row, which reads convert in place, and what
is left of that once the row is taken for the cells that it was; on connections of UTF-8. -/
namespace Sl3.Reading
open Library Library.Binary Library.Tracking IntegerText

/-- Why a read does not return: an exception, or the cast of a double that has no integer. -/
inductive Fault where
  | threw (e : Error)
  | undefined
deriving DecidableEq

abbrev Reader := EStateM Fault (List Mem)

section columns
variable (numerals : Numerals)

def columnMem (row : List Mem) (i : Nat) : Mem := row.getD i (Mem.ofCell .null)

def column {α : Type} (f : Mem → α × Mem) (i : Nat) : Reader α := fun row =>
  .ok (f (columnMem row i)).1 (row.set i (f (columnMem row i)).2)

def atIndex {α : Type} (idx : Int) (read : Nat → Reader α) : Reader α := fun row =>
  if idx < 0 ∨ ¬ idx < row.length then .error (.threw (errOutOfRange "column index out of range")) row
  else read idx.toNat row

def made {α : Type} : Except Error α → Reader α
  | .ok a => pure a
  | .error e => throw (.threw e)

def getType (idx : Int) : Reader ValueType := atIndex idx (column fun m => (m.valueType,m))

def getSize (idx : Int) : Reader Nat := atIndex idx (column (Mem.valueBytes numerals))

/-- `s > 0 ? T (first, first + s) : T ()`, in `getText` and `getBlob`. -/
def copyOut (first : Option Bytes) (s : Nat) : Bytes := if s > 0 then (first.getD []).take s else []

def getText (idx : Int) : Reader Bytes := atIndex idx fun i => do
  let first ← column (Mem.valueText numerals) i
  let s ← column (Mem.valueBytes numerals) i
  return copyOut first s

def getBlob (idx : Int) : Reader Bytes := atIndex idx fun i => do
  let first ← column (Mem.valueBlob numerals) i
  let s ← column (Mem.valueBytes numerals) i
  return copyOut first s

def converted {α : Type} : Option α → Reader α
  | some n => pure n
  | none => throw .undefined

def getInt (idx : Int) : Reader Int32 := atIndex idx fun i => do
  converted (← column (fun m => (m.valueInt,m)) i)

def getInt64 (idx : Int) : Reader Int64 := atIndex idx fun i => do
  converted (← column (fun m => (m.valueInt64,m)) i)

def getReal (idx : Int) : Reader Double := atIndex idx (column fun m => (m.valueDouble numerals,m))

/-- The switch over `sqlite3_column_type`, and after it the return for NULL. -/
def getValueAs (idx : Int) (type : ValueType) : Reader DbValue := atIndex idx fun i => do
  match ← column (fun m => (m.valueType,m)) i with
  | .int => made (DbValue.ofInt64 (← getInt64 idx) type)
  | .real => made (DbValue.ofReal (← getReal numerals idx) type)
  | .text => made (DbValue.ofText (← getText numerals idx) type)
  | .blob => made (DbValue.ofBlob (← getBlob numerals idx) type)
  | _ => return DbValue.ofType type

def getValue (idx : Int) : Reader DbValue := getValueAs numerals idx .variant

def getRow : Reader DbValues := do
  (List.range (← get).length).mapM fun (i : Nat) => getValue numerals i

def getRowAs (types : List ValueType) : Reader DbValues := do
  if types.length ≠ (← get).length then throw (.threw (errTypeMisMatch "types.size () != getColumnCount ()"))
  else (List.range (← get).length).mapM fun (i : Nat) => getValueAs numerals i (types.getD i .variant)

end columns

inductive Access where
  | getType (idx : Int)
  | getSize (idx : Int)
  | getText (idx : Int)
  | getBlob (idx : Int)
  | getInt (idx : Int)
  | getInt64 (idx : Int)
  | getReal (idx : Int)
  | getValue (idx : Int)
  | getValueAs (idx : Int) (type : ValueType)
  | getRow
  | getRowAs (types : List ValueType)
deriving DecidableEq

inductive Answer where
  | type (type : ValueType)
  | size (n : Nat)
  | bytes (content : Bytes)
  | int (n : Int32)
  | int64 (n : Int64)
  | real (x : Double)
  | value (d : DbValue)
  | row (row : DbValues)

namespace Access

def run (numerals : Numerals) : Access → Reader Answer
  | getType idx => .type <$> Reading.getType idx
  | getSize idx => .size <$> Reading.getSize numerals idx
  | getText idx => .bytes <$> Reading.getText numerals idx
  | getBlob idx => .bytes <$> Reading.getBlob numerals idx
  | getInt idx => .int <$> Reading.getInt idx
  | getInt64 idx => .int64 <$> Reading.getInt64 idx
  | getReal idx => .real <$> Reading.getReal numerals idx
  | getValue idx => .value <$> Reading.getValue numerals idx
  | getValueAs idx type => .value <$> Reading.getValueAs numerals idx type
  | getRow => .row <$> Reading.getRow numerals
  | getRowAs types => .row <$> Reading.getRowAs numerals types

end Access

section cells
variable (numerals : Numerals)

def textOf : Cell → Bytes
  | .null => []
  | .integer n => int64ToText n
  | .float x => numerals.realToText x
  | .text content => content
  | .blob content => content

def int64Of : Cell → Option Int64
  | .null => some 0
  | .integer n => some n
  | .float x => realToI64 x
  | .text content => some (atoi64 content).2
  | .blob content => some (atoi64 content).2

def realOf : Cell → Double
  | .null => Number.ofRat 0
  | .integer n => Double.ofInt64 n
  | .float x => x
  | .text content => numerals.atoF content
  | .blob content => numerals.atoF content

def asText : Cell → Cell
  | .blob content => .text content
  | cell => cell

/-- What a value shows of the cell that it was; numbers keep a text that was made of them. -/
inductive Shows : Mem → Cell → Prop
  | null : Shows ⟨.null,false,false,[]⟩ .null
  | integer (n : Int64) : Shows ⟨.int n,false,false,[]⟩ (.integer n)
  | integerText (n : Int64) (blob : Bool) : Shows ⟨.int n,true,blob,int64ToText n⟩ (.integer n)
  | float (x : Double) : Shows ⟨.real x,false,false,[]⟩ (.float x)
  | floatText (x : Double) (blob : Bool) : Shows ⟨.real x,true,blob,numerals.realToText x⟩ (.float x)
  | text (blob : Bool) (content : Bytes) : Shows ⟨.bytes,true,blob,content⟩ (.text content)
  | blob (content : Bytes) : Shows ⟨.bytes,false,true,content⟩ (.blob content)

end cells

section values
variable {numerals : Numerals} {m : Mem} {cell : Cell}

theorem shows_ofCell (cell : Cell) : Shows numerals (Mem.ofCell cell) cell := by
  cases cell <;> constructor

theorem valueText_shows (shows : Shows numerals m cell) :
    (m.valueText numerals).1.getD [] = textOf numerals cell ∧ Shows numerals (m.valueText numerals).2 (asText cell) := by
  cases shows <;> exact ⟨rfl,by constructor⟩

theorem valueBytes_shows (shows : Shows numerals m cell) :
    (m.valueBytes numerals).1 = (textOf numerals cell).length ∧ Shows numerals (m.valueBytes numerals).2 cell := by
  cases shows <;> exact ⟨rfl,by constructor⟩

theorem valueBlob_shows (shows : Shows numerals m cell) :
    (m.valueBlob numerals).1.getD [] = textOf numerals cell ∧ Shows numerals (m.valueBlob numerals).2 cell := by
  have address (content : Bytes) : (if content = [] then none else some content).getD [] = content := by
    split_ifs with empty
    · exact empty.symm
    · rfl
  have held (m : Mem) (form : m.blob = true ∨ m.str = true) :
      m.valueBlob numerals = (if m.z = [] then none else some m.z,{m with blob := true}) := if_pos form
  cases shows with
  | null | integer | float => exact ⟨rfl,by constructor⟩
  | integerText n blob =>
    rw [held _ (.inr rfl)]
    exact ⟨address _,.integerText n true⟩
  | floatText x blob =>
    rw [held _ (.inr rfl)]
    exact ⟨address _,.floatText x true⟩
  | text blob content =>
    rw [held _ (.inr rfl)]
    exact ⟨address _,.text true content⟩
  | blob content =>
    rw [held _ (.inl rfl)]
    exact ⟨address _,.blob content⟩

theorem valueInt64_shows (shows : Shows numerals m cell) : m.valueInt64 = int64Of cell := by
  cases shows <;> rfl

theorem valueDouble_shows (shows : Shows numerals m cell) : m.valueDouble numerals = realOf numerals cell := by
  cases shows <;> rfl

theorem valueType_shows (shows : Shows numerals m cell) : m.valueType = cell.value.getType := by
  cases shows <;> rfl

end values

section answers
variable (numerals : Numerals)

def answerAt {α : Type} (columns : Columns) (idx : Int) (read : Cell → Except Fault α) : Except Fault α :=
  if idx < 0 ∨ ¬ idx < columns.count then .error (.threw (errOutOfRange "column index out of range"))
  else read (columns.cells.getD idx.toNat .null)

def orUndefined {α : Type} : Option α → Except Fault α
  | some n => .ok n
  | none => .error .undefined

/-- The answer of each read on a row of cells as they are. -/
def answer (columns : Columns) : Access → Except Fault Answer
  | .getType idx => .type <$> answerAt columns idx fun cell => .ok cell.value.getType
  | .getSize idx => .size <$> answerAt columns idx fun cell => .ok (textOf numerals cell).length
  | .getText idx => .bytes <$> answerAt columns idx fun cell => .ok (textOf numerals cell)
  | .getBlob idx => .bytes <$> answerAt columns idx fun cell => .ok (textOf numerals cell)
  | .getInt idx => .int <$> answerAt columns idx fun cell => orUndefined ((int64Of cell).map Int64.toInt32)
  | .getInt64 idx => .int64 <$> answerAt columns idx fun cell => orUndefined (int64Of cell)
  | .getReal idx => .real <$> answerAt columns idx fun cell => .ok (realOf numerals cell)
  | .getValue idx => .value <$> (columns.getValue idx).mapError .threw
  | .getValueAs idx type => .value <$> (columns.getValueAs idx type).mapError .threw
  | .getRow => .row <$> (columns.getRow (List.replicate columns.cells.length .variant)).mapError .threw
  | .getRowAs types => .row <$> (columns.getRow types).mapError .threw

/-- A read leaves the row as it is, but for a blob that it reads as a text. -/
def settle (cells : List Cell) : Access → List Cell
  | .getText idx => if 0 ≤ idx then cells.modify idx.toNat asText else cells
  | _ => cells

end answers

section tracking
variable {numerals : Numerals} {columns : Columns} {α : Type}

abbrev ShowsRow (numerals : Numerals) : List Mem → List Cell → Prop := List.Forall₂ (Shows numerals)

theorem showsRow_ofCell (cells : List Cell) : ShowsRow numerals (cells.map Mem.ofCell) cells :=
  List.forall₂_map_left_iff.mpr (List.forall₂_same.mpr fun cell _ => shows_ofCell cell)

theorem column_tracks {f : Mem → α × Mem} {a : Cell → α} {left : Cell → Cell} {cells : List Cell} {i : Nat}
    (inside : i < cells.length)
    (each : ∀ {m cell}, Shows numerals m cell → (f m).1 = a cell ∧ Shows numerals (f m).2 (left cell)) :
    Tracks (ShowsRow numerals) (column f i) cells (.ok (a (cells.getD i .null))) (cells.modify i left) := by
  intro row shows
  obtain ⟨size,all⟩ := List.forall₂_iff_get.mp shows
  have inside' : i < row.length := size ▸ inside
  have here : columnMem row i = row[i] := by simp [columnMem,List.getD,inside']
  have there : cells.getD i .null = cells[i] := by simp [List.getD,inside]
  obtain ⟨result,after⟩ := each (all i inside' inside)
  simp only [List.get_eq_getElem] at result after
  refine ⟨row.set i (f row[i]).2,?_,List.forall₂_iff_get.mpr ⟨by simpa using size,?_⟩⟩
  · rw [column,here,there,result]
    rfl
  · intro k left' right
    simp only [List.get_eq_getElem,List.getElem_set,List.getElem_modify]
    split_ifs with same
    · subst same
      exact after
    · exact all k (by simpa using left') (by simpa using right)

theorem column_reads {f : Mem → α × Mem} {a : Cell → α} {cells : List Cell} {i : Nat} (inside : i < cells.length)
    (each : ∀ {m cell}, Shows numerals m cell → (f m).1 = a cell ∧ Shows numerals (f m).2 cell) :
    Tracks (ShowsRow numerals) (column f i) cells (.ok (a (cells.getD i .null))) cells := by
  have tracked := @column_tracks numerals α f a id cells i inside each
  rwa [List.modify_id] at tracked

theorem atIndex_tracks {idx : Int} {read : Nat → Reader α} {result : Cell → Except Fault α} {left : List Cell}
    (outside : idx < 0 ∨ ¬ idx < columns.count → left = columns.cells)
    (inside : ∀ i : Nat, idx = i → i < columns.cells.length →
      Tracks (ShowsRow numerals) (read i) columns.cells (result (columns.cells.getD i .null)) left) :
    Tracks (ShowsRow numerals) (atIndex idx read) columns.cells (answerAt columns idx result) left := by
  intro row shows
  have size := shows.length_eq
  unfold atIndex answerAt Columns.count at *
  rw [size]
  split_ifs with bad
  · exact ⟨row,rfl,outside bad ▸ shows⟩
  · obtain ⟨i,rfl⟩ := Int.eq_ofNat_of_zero_le (not_lt.mp (not_or.mp bad).1)
    exact inside i rfl (by simpa using bad) row shows

theorem atIndex_reads {idx : Int} {read : Nat → Reader α} {result : Cell → Except Fault α}
    (inside : ∀ i : Nat, idx = i → i < columns.cells.length →
      Tracks (ShowsRow numerals) (read i) columns.cells (result (columns.cells.getD i .null)) columns.cells) :
    Tracks (ShowsRow numerals) (atIndex idx read) columns.cells (answerAt columns idx result) columns.cells :=
  atIndex_tracks (fun _ => rfl) inside

theorem made_tracks (result : Except Error α) (cells : List Cell) :
    Tracks (ShowsRow numerals) (made result) cells (result.mapError Fault.threw) cells := by
  cases result with
  | ok a => exact tracks_pure a
  | error e => exact tracks_throw (Fault.threw e)

theorem converted_tracks (n : Option α) (cells : List Cell) :
    Tracks (ShowsRow numerals) (converted n) cells (orUndefined n) cells := by
  cases n with
  | some n => exact tracks_pure n
  | none => exact tracks_throw Fault.undefined

theorem getType_tracks (idx : Int) : Tracks (ShowsRow numerals) (getType idx) columns.cells
    (answerAt columns idx fun cell => .ok cell.value.getType) columns.cells := by
  apply atIndex_reads
  intro i _ inside
  exact @column_reads numerals _ _ (fun cell => cell.value.getType) _ i inside fun shows => ⟨valueType_shows shows,shows⟩

theorem getSize_tracks (idx : Int) : Tracks (ShowsRow numerals) (getSize numerals idx) columns.cells
    (answerAt columns idx fun cell => .ok (textOf numerals cell).length) columns.cells := by
  apply atIndex_reads
  intro i _ inside
  exact @column_reads numerals _ _ (fun cell => (textOf numerals cell).length) _ i inside valueBytes_shows

theorem getReal_tracks (idx : Int) : Tracks (ShowsRow numerals) (getReal numerals idx) columns.cells
    (answerAt columns idx fun cell => .ok (realOf numerals cell)) columns.cells := by
  apply atIndex_reads
  intro i _ inside
  exact @column_reads numerals _ _ (realOf numerals) _ i inside fun shows => ⟨valueDouble_shows shows,shows⟩

theorem getInt64_tracks (idx : Int) : Tracks (ShowsRow numerals) (getInt64 idx) columns.cells
    (answerAt columns idx fun cell => orUndefined (int64Of cell)) columns.cells := by
  apply atIndex_reads
  intro i _ inside
  exact (@column_reads numerals _ _ int64Of _ i inside fun shows => ⟨valueInt64_shows shows,shows⟩).bind
    (converted_tracks _ _)

theorem getInt_tracks (idx : Int) : Tracks (ShowsRow numerals) (getInt idx) columns.cells
    (answerAt columns idx fun cell => orUndefined ((int64Of cell).map Int64.toInt32)) columns.cells := by
  apply atIndex_reads
  intro i _ inside
  refine (@column_reads numerals _ _ (fun cell => (int64Of cell).map Int64.toInt32) _ i inside ?_).bind
    (converted_tracks _ _)
  intro m cell shows
  exact ⟨congrArg (Option.map Int64.toInt32) (valueInt64_shows shows),shows⟩

theorem copyOut_eq {first : Option Bytes} {content : Bytes} (held : first.getD [] = content) :
    copyOut first content.length = content := by
  unfold copyOut
  rw [held]
  cases content <;> simp

theorem column_both {α β γ : Type} (f : Mem → α × Mem) (g : Mem → β × Mem) (h : α → β → γ) {row : List Mem} {i : Nat}
    (inside : i < row.length) :
    (do let a ← column f i
        let b ← column g i
        return h a b : Reader γ) row = column (fun m => (h (f m).1 (g (f m).2).1,(g (f m).2).2)) i row := by
  simp [column,columnMem,List.getD,inside,Bind.bind,EStateM.bind,Pure.pure,EStateM.pure]

theorem both_tracks {β γ : Type} {f : Mem → α × Mem} {g : Mem → β × Mem} {h : α → β → γ} {a : Cell → γ}
    {left : Cell → Cell} {cells : List Cell} {i : Nat} (inside : i < cells.length)
    (each : ∀ {m cell}, Shows numerals m cell →
      h (f m).1 (g (f m).2).1 = a cell ∧ Shows numerals (g (f m).2).2 (left cell)) :
    Tracks (ShowsRow numerals) (do let a ← column f i
                                   let b ← column g i
                                   return h a b) cells (.ok (a (cells.getD i .null))) (cells.modify i left) := by
  intro row shows
  rw [column_both f g h (shows.length_eq ▸ inside)]
  exact column_tracks inside each row shows

theorem asText_textOf (cell : Cell) : textOf numerals (asText cell) = textOf numerals cell := by
  cases cell <;> rfl

theorem getText_tracks (idx : Int) : Tracks (ShowsRow numerals) (getText numerals idx) columns.cells
    (answerAt columns idx fun cell => .ok (textOf numerals cell)) (settle columns.cells (.getText idx)) := by
  apply atIndex_tracks
  · intro bad
    simp only [settle]
    split_ifs with low
    · have beyond : columns.cells.length ≤ idx.toNat := by
        unfold Columns.count at bad
        omega
      exact List.modify_eq_self beyond
    · rfl
  · intro i place inside
    subst place
    have left : settle columns.cells (.getText i) = columns.cells.modify i asText := by simp [settle]
    rw [left]
    apply both_tracks inside
    intro m cell shows
    obtain ⟨held,shows'⟩ := valueText_shows shows
    obtain ⟨counted,shows''⟩ := valueBytes_shows shows'
    rw [counted,asText_textOf]
    exact ⟨copyOut_eq held,shows''⟩

theorem getBlob_tracks (idx : Int) : Tracks (ShowsRow numerals) (getBlob numerals idx) columns.cells
    (answerAt columns idx fun cell => .ok (textOf numerals cell)) columns.cells := by
  apply atIndex_reads
  intro i _ inside
  have both := @both_tracks numerals _ _ _ (Mem.valueBlob numerals) (Mem.valueBytes numerals) copyOut
    (textOf numerals) id columns.cells i inside
  rw [List.modify_id] at both
  apply both
  intro m cell shows
  obtain ⟨held,shows'⟩ := valueBlob_shows shows
  obtain ⟨counted,shows''⟩ := valueBytes_shows shows'
  rw [counted]
  exact ⟨copyOut_eq held,shows''⟩

def valueOf (type : ValueType) : Cell → Except Error DbValue
  | .integer n => DbValue.ofInt64 n type
  | .float x => DbValue.ofReal x type
  | .text content => DbValue.ofText content type
  | .blob content => DbValue.ofBlob content type
  | .null => .ok (DbValue.ofType type)

theorem getValueAs_answer (idx : Int) (type : ValueType) : (columns.getValueAs idx type).mapError Fault.threw =
    answerAt columns idx fun cell => (valueOf type cell).mapError Fault.threw := by
  unfold Columns.getValueAs Columns.atIndex answerAt
  split_ifs with bad
  · rfl
  · simp only
    generalize columns.cells.getD idx.toNat .null = cell
    cases cell <;> simp only [valueOf,Cell.copyOut_text,Cell.copyOut_blob]

theorem answerAt_inside {i : Nat} (inside : i < columns.cells.length) (read : Cell → Except Fault α) :
    answerAt columns i read = read (columns.cells.getD i .null) := by
  unfold answerAt Columns.count
  rw [if_neg (by omega),Int.toNat_natCast]

theorem settle_asText {i : Nat} (same : asText (columns.cells.getD i .null) = columns.cells.getD i .null) :
    settle columns.cells (.getText i) = columns.cells := by
  simp only [settle,Int.natCast_nonneg,if_true,Int.toNat_natCast]
  apply List.ext_getElem
  · simp
  · intro k left right
    rw [List.getElem_modify]
    split_ifs with here
    · subst here
      simpa [List.getD,right] using same
    · rfl

theorem getValueAs_tracks (idx : Int) (type : ValueType) : Tracks (ShowsRow numerals) (getValueAs numerals idx type)
    columns.cells ((columns.getValueAs idx type).mapError Fault.threw) columns.cells := by
  rw [getValueAs_answer]
  apply atIndex_reads
  intro i place inside
  subst place
  have kind := @column_reads numerals _ (fun m => (m.valueType,m)) (fun cell => cell.value.getType) columns.cells i
    inside fun shows => ⟨valueType_shows shows,shows⟩
  apply kind.bind
  cases here : columns.cells.getD i .null with
  | null => exact tracks_pure _
  | integer n =>
    have read := @getInt64_tracks numerals columns i
    rw [answerAt_inside inside,here] at read
    exact read.bind (made_tracks _ _)
  | float x =>
    have read := @getReal_tracks numerals columns i
    rw [answerAt_inside inside,here] at read
    exact read.bind (made_tracks _ _)
  | text content =>
    have read := @getText_tracks numerals columns i
    rw [answerAt_inside inside,settle_asText (by rw [here]; rfl),here] at read
    exact read.bind (made_tracks _ _)
  | blob content =>
    have read := @getBlob_tracks numerals columns i
    rw [answerAt_inside inside,here] at read
    exact read.bind (made_tracks _ _)

theorem rows_tracks {types : List ValueType} (sized : types.length = columns.cells.length) :
    Tracks (ShowsRow numerals)
      ((List.range columns.cells.length).mapM fun (i : Nat) => getValueAs numerals i (types.getD i .variant))
      columns.cells ((columns.getRow types).mapError Fault.threw) columns.cells := by
  rw [Columns.getRow,if_neg (not_not.mpr sized),← mapM_mapError]
  exact tracks_mapM fun i _ => getValueAs_tracks i _

theorem getRow_eq (row : List Mem) :
    getRow numerals row = ((List.range row.length).mapM fun (i : Nat) => getValue numerals i) row := rfl

theorem getRowAs_eq (types : List ValueType) (row : List Mem) : getRowAs numerals types row =
    if types.length ≠ row.length then .error (.threw (errTypeMisMatch "types.size () != getColumnCount ()")) row
    else ((List.range row.length).mapM fun (i : Nat) => getValueAs numerals i (types.getD i .variant)) row := by
  have guard : getRowAs numerals types row = (if types.length ≠ row.length then _ else _ : Reader DbValues) row := rfl
  rw [guard]
  split_ifs <;> rfl

theorem getRow_tracks : Tracks (ShowsRow numerals) (getRow numerals) columns.cells
    ((columns.getRow (List.replicate columns.cells.length .variant)).mapError Fault.threw) columns.cells := by
  intro row shows
  have sized := @List.length_replicate _ columns.cells.length ValueType.variant
  have loop := @rows_tracks numerals columns _ sized row shows
  have variants : (fun (i : Nat) =>
      getValueAs numerals i ((List.replicate columns.cells.length ValueType.variant).getD i .variant)) =
      fun (i : Nat) => getValue numerals i := by
    funext i
    have variant : (List.replicate columns.cells.length ValueType.variant).getD i .variant = .variant := by
      rw [List.getD_eq_getElem?_getD,List.getElem?_replicate]
      split_ifs <;> rfl
    rw [variant]
    rfl
  have size := shows.length_eq
  rw [variants] at loop
  rwa [getRow_eq,size]

theorem getRowAs_tracks (types : List ValueType) : Tracks (ShowsRow numerals) (getRowAs numerals types) columns.cells
    ((columns.getRow types).mapError Fault.threw) columns.cells := by
  intro row shows
  rw [getRowAs_eq]
  by_cases sized : types.length = columns.cells.length
  · have loop := @rows_tracks numerals columns _ sized row shows
    rw [← shows.length_eq] at loop
    rwa [if_neg (not_not.mpr (sized.trans shows.length_eq.symm))]
  · have refused : columns.getRow types = .error (errTypeMisMatch "types.size () != getColumnCount ()") := if_pos sized
    rw [if_pos fun same => sized (same.trans shows.length_eq),refused]
    exact ⟨row,rfl,shows⟩

theorem run_tracks (access : Access) : Tracks (ShowsRow numerals) (access.run numerals) columns.cells
    (answer numerals columns access) (settle columns.cells access) := by
  cases access with
  | getType idx => exact (getType_tracks idx).map _
  | getSize idx => exact (getSize_tracks idx).map _
  | getText idx => exact (getText_tracks idx).map _
  | getBlob idx => exact (getBlob_tracks idx).map _
  | getInt idx => exact (getInt_tracks idx).map _
  | getInt64 idx => exact (getInt64_tracks idx).map _
  | getReal idx => exact (getReal_tracks idx).map _
  | getValue idx => exact (getValueAs_tracks idx .variant).map _
  | getValueAs idx type => exact (getValueAs_tracks idx type).map _
  | getRow => exact getRow_tracks.map _
  | getRowAs types => exact (getRowAs_tracks types).map _

end tracking

section runs
variable (numerals : Numerals) (columns : Columns)

/-- The values of the row after some reads, from those that a step has left. -/
def rowAfter (reads : List Access) : List Mem :=
  reads.foldl (fun row access => stateAfter (access.run numerals row)) (columns.cells.map Mem.ofCell)

/-- The row that later reads see: the blobs that were read by `getText` have become texts. -/
def settled (reads : List Access) : Columns where
  names := columns.names
  cells := columns.cells.mapIdx fun i cell => if Access.getText i ∈ reads then asText cell else cell
  sized := by rw [List.length_mapIdx,columns.sized]

theorem asText_twice (cell : Cell) : asText (asText cell) = asText cell := by
  cases cell <;> rfl

theorem settled_concat (reads : List Access) (access : Access) :
    settle (settled columns reads).cells access = (settled columns (reads ++ [access])).cells := by
  cases access with
  | getText idx =>
    by_cases low : 0 ≤ idx
    · obtain ⟨k,rfl⟩ := Int.eq_ofNat_of_zero_le low
      simp only [settle,low,if_true,settled]
      apply List.ext_getElem
      · simp
      · intro i left right
        simp only [List.getElem_modify,List.getElem_mapIdx,List.mem_append,List.mem_singleton,
          Int.toNat_natCast,Access.getText.injEq,Nat.cast_inj]
        by_cases same : k = i
        · by_cases already : Access.getText i ∈ reads <;> simp [same,already,asText_twice]
        · simp [same,Ne.symm same]
    · have other (i : Nat) : ¬ (i : Int) = idx := by omega
      simp [settle,low,settled,other]
  | _ => simp [settle,settled]

theorem rowAfter_shows (reads : List Access) :
    ShowsRow numerals (rowAfter numerals columns reads) (settled columns reads).cells := by
  induction reads using List.reverseRecOn with
  | nil =>
    have fresh : (settled columns []).cells = columns.cells := List.ext_getElem (by simp [settled]) (by simp [settled])
    rw [fresh]
    exact showsRow_ofCell columns.cells
  | append_singleton reads access ih =>
    rw [← settled_concat,rowAfter,List.foldl_append]
    exact (run_tracks access).after ih

/-- What a read returns or throws after some others of the same row. -/
def answerAfter (reads : List Access) (access : Access) : Except Fault Answer :=
  resultOf (access.run numerals (rowAfter numerals columns reads))

/-- Whatever was read of a row before, and in whatever order: a read says what the cells say, where
only a `getText` of a blob has been of consequence. -/
theorem reads_answer (reads : List Access) (access : Access) :
    answerAfter numerals columns reads access = answer numerals (settled columns reads) access :=
  (run_tracks access).result (rowAfter_shows numerals columns reads)

variable {columns}

theorem answerAt_settled {α : Type} (reads : List Access) {i : Nat} (inside : i < columns.cells.length)
    {read : Cell → Except Fault α} (same : ∀ cell, read (asText cell) = read cell) :
    answerAt (settled columns reads) i read = read columns.cells[i] := by
  have inside' : i < (settled columns reads).cells.length := by simpa [settled] using inside
  have cell : (settled columns reads).cells.getD i .null = (settled columns reads).cells[i] := by
    simp [List.getD,inside']
  rw [answerAt_inside inside',cell]
  simp only [settled,List.getElem_mapIdx]
  split_ifs
  · exact same _
  · rfl

theorem getInt64_answers (reads : List Access) {i : Nat} (inside : i < columns.cells.length) :
    answerAfter numerals columns reads (.getInt64 i) = .int64 <$> orUndefined (int64Of columns.cells[i]) := by
  have same (cell : Cell) : orUndefined (int64Of (asText cell)) = orUndefined (int64Of cell) := by
    cases cell <;> rfl
  rw [answerAfter,(run_tracks _).result (rowAfter_shows numerals columns reads),answer,answerAt_settled reads inside same]

theorem getInt_answers (reads : List Access) {i : Nat} (inside : i < columns.cells.length) :
    answerAfter numerals columns reads (.getInt i) =
      .int <$> orUndefined ((int64Of columns.cells[i]).map Int64.toInt32) := by
  have same (cell : Cell) : orUndefined ((int64Of (asText cell)).map Int64.toInt32) =
      orUndefined ((int64Of cell).map Int64.toInt32) := by
    cases cell <;> rfl
  rw [answerAfter,(run_tracks _).result (rowAfter_shows numerals columns reads),answer,answerAt_settled reads inside same]

theorem getText_answers (reads : List Access) {i : Nat} (inside : i < columns.cells.length) :
    answerAfter numerals columns reads (.getText i) = .ok (.bytes (textOf numerals columns.cells[i])) := by
  have same (cell : Cell) : (Except.ok (textOf numerals (asText cell)) : Except Fault Bytes) =
      .ok (textOf numerals cell) := congrArg _ (asText_textOf cell)
  rw [answerAfter,(run_tracks _).result (rowAfter_shows numerals columns reads),answer,answerAt_settled reads inside same]
  rfl

/-- The whole number that a cell has, or that its bytes begin with. -/
def whole : Cell → Int
  | .null => 0
  | .integer n => n.toInt
  | .float x => wholePart x
  | .text content => signed content
  | .blob content => signed content

theorem int64Of_eq {cell : Cell} (number : ∀ x, cell = .float x → x.isNaN = false) :
    ∃ n, int64Of cell = some n ∧ n.toInt = saturated (whole cell) := by
  cases cell with
  | null => exact ⟨0,rfl,rfl⟩
  | integer n => exact ⟨n,rfl,(saturated_inside n).symm⟩
  | float x => exact realToI64_eq (number x rfl)
  | text content => exact ⟨_,rfl,atoi64_eq content⟩
  | blob content => exact ⟨_,rfl,atoi64_eq content⟩

theorem int64Of_operator {cell : Cell} {n : Int64}
    (converted : Conversion.operatorInt64 cell.value = some (.ok n)) : int64Of cell = some n := by
  cases cell with
  | integer m =>
    cases converted
    rfl
  | float x => exact realToI64_of_operator converted
  | null | text | blob => cases converted

/-- An integer read of any cell saturates, and of fewer bits takes the low ones of that; it agrees
with what the Value of the cell converts to where that converts. -/
theorem getInt64_saturates (reads : List Access) {i : Nat} (inside : i < columns.cells.length)
    (number : ∀ x, columns.cells[i] = .float x → x.isNaN = false) :
    ∃ n : Int64, n.toInt = saturated (whole columns.cells[i]) ∧
      answerAfter numerals columns reads (.getInt64 i) = .ok (.int64 n) ∧
      answerAfter numerals columns reads (.getInt i) = .ok (.int n.toInt32) ∧
      ∀ m, Conversion.operatorInt64 columns.cells[i].value = some (.ok m) → m = n := by
  obtain ⟨n,read,value⟩ := int64Of_eq number
  refine ⟨n,value,?_,?_,?_⟩
  · rw [getInt64_answers numerals reads inside,read]
    rfl
  · rw [getInt_answers numerals reads inside,read]
    rfl
  · intro m converted
    exact Option.some.inj ((int64Of_operator converted).symm.trans read)

/-- The row of -305, 042 and 1e20, and zero as the only double that is written or read. -/
def mixed : Columns :=
  ⟨["n","t","r"],[.integer (-305),.text [48,52,50],.float (Number.ofRat (10^20))],rfl⟩

def zeroNumerals : Numerals := ⟨fun _ => [48,46,48],fun _ => Number.ofRat 0⟩

theorem getInt64_saturates_real : ∃ n : Int64, n.toInt = saturated (whole (.float (Number.ofRat (10^20)))) ∧
    answerAfter zeroNumerals mixed [.getText 1] (.getInt64 2) = .ok (.int64 n) := by
  obtain ⟨n,value,read,_⟩ := @getInt64_saturates zeroNumerals mixed [.getText 1] 2 (by decide) (by
    intro x same
    cases same
    decide +kernel)
  exact ⟨n,value,read⟩

/-- An integer that is taken as a text, and that text stored and taken as an integer. -/
theorem integer_through_text (reads later : List Access) {next : Columns} {i j : Nat} {n : Int64} {content : Bytes}
    (inside : i < columns.cells.length) (there : j < next.cells.length) (held : columns.cells[i] = .integer n)
    (taken : answerAfter numerals columns reads (.getText i) = .ok (.bytes content))
    (stored : next.cells[j] = .text content) :
    answerAfter numerals next later (.getInt64 j) = .ok (.int64 n) := by
  rw [getText_answers numerals reads inside,held] at taken
  cases taken
  rw [getInt64_answers numerals later there,stored,int64Of,textOf,atoi64_int64ToText]
  rfl

theorem integer_through_text_negative :
    answerAfter zeroNumerals ⟨["t"],[.text (int64ToText (-305))],rfl⟩ [.getText 0] (.getInt64 0) =
      .ok (.int64 (-305)) :=
  @integer_through_text zeroNumerals mixed [] [.getText 0] _ 0 0 (-305) _ (by decide) Nat.zero_lt_one rfl
    (getText_answers zeroNumerals [] (by decide)) rfl

/-- A text that is taken as an integer, and that integer stored and taken as a text. -/
theorem text_through_integer_iff (reads later : List Access) {next : Columns} {i j : Nat} {n : Int64} {content : Bytes}
    (inside : i < columns.cells.length) (there : j < next.cells.length) (held : columns.cells[i] = .text content)
    (taken : answerAfter numerals columns reads (.getInt64 i) = .ok (.int64 n)) (stored : next.cells[j] = .integer n) :
    answerAfter numerals next later (.getText j) = .ok (.bytes content) ↔ Canonical64 content := by
  rw [getInt64_answers numerals reads inside,held] at taken
  cases taken
  rw [getText_answers numerals later there,stored,textOf,← int64ToText_atoi64_iff]
  simp

theorem text_through_integer_zero :
    answerAfter zeroNumerals ⟨["n"],[.integer 42],rfl⟩ [.getType 0] (.getText 0) = .ok (.bytes [48,52,50]) ↔
      Canonical64 [48,52,50] :=
  @text_through_integer_iff zeroNumerals mixed [.getText 0] [.getType 0] _ 1 0 42 _ (by decide) Nat.zero_lt_one rfl
    (getInt64_answers zeroNumerals [.getText 0] (by decide)) rfl

end runs

end Sl3.Reading
