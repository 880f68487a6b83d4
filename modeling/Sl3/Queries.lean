import Sl3.Sorting
import Sl3.Selection

/-! What a query comes to in the hands of a caller: the Dataset that `select` returns, the cells
found in it by name, and the one value of `Database::selectValue`. -/
namespace Sl3.Queries
open Command Columns Selection
variable {q : Query} {p : Platform} {types : List ValueType} {type : ValueType} {ds after : Dataset}

def firstValue (type : ValueType) : Callback DbValue := fun cols retVal =>
  match cols.getValueAs 0 type with
  | .error e => .error (.sl3 e) retVal
  | .ok d =>
    match DbValue.assignFrom d retVal with
    | .error e retVal => .error (.sl3 e) retVal
    | .ok _ retVal => .ok false retVal

/-- `Database::selectValue`, with a Command of its own; the overload without a type asks for a Variant. -/
def selectValue (p : Platform) (q : Query) (type : ValueType) : Except Thrown DbValue :=
  match execute p (firstValue type) [] (ofQuery q,DbValue.ofType type) with
  | .ok _ (_,retVal) => .ok retVal
  | .error e _ => .error e

/-- `Database::select`. -/
def selectAll (p : Platform) (q : Query) (types : List ValueType) : Except Thrown Dataset :=
  match Command.select p [] types (ofQuery q) with
  | .ok ds _ => .ok ds
  | .error e _ => .error e

section inversion

theorem selectAll_returned (returned : selectAll p q types = .ok ds) : ∃ left, select p [] types (ofQuery q) = .ok ds left := by
  unfold selectAll at returned
  cases result : select p [] types (ofQuery q) <;> rw [result] at returned <;> cases returned
  exact ⟨_,rfl⟩

theorem deliver_returned {rc : Int} {errmsg : String} {rows : List Columns} (named : ds.names ≠ [])
    (returned : deliver fillds rc errmsg rows ds = .ok () after) : Conform ds.fieldtypes rows ∧
      after = {ds with rows := ds.rows ++ rows.map (convertRow ds.fieldtypes)} := by
  induction rows generalizing ds with
  | nil =>
    simp only [deliver,closing] at returned
    split_ifs at returned
    cases returned
    exact ⟨List.forall_mem_nil _,by simp⟩
  | cons row rows ih =>
    by_cases fits : List.Forall₂ Accepts ds.fieldtypes row.cells
    · rw [deliver_next ((fillds_named named row).trans (appendRow_ok fits))] at returned
      obtain ⟨conform,same⟩ := @ih {ds with rows := ds.rows ++ [convertRow ds.fieldtypes row]} named returned
      exact ⟨List.forall_mem_cons.mpr ⟨fits,conform⟩,by simpa using same⟩
    · obtain ⟨what,failed⟩ := appendRow_error fits
      rw [deliver_throw ((fillds_named named row).trans failed)] at returned
      cases returned

/-- What `select` has returned: no rows under the types as given, or every row of the run under the
field types that the first row has left. -/
theorem select_returned {params : DbValues} {cmd ready left : Command q} (columns : q.names ≠ [])
    (accepted : setup p params cmd = .ok () ready) (idle : ready.stmt.cursor = .ready)
    (returned : select p params types cmd = .ok ds left) :
    (ready.stmt.nextRun.rows = [] ∧ ds = Dataset.ofTypes types) ∨
      (ready.stmt.nextRun.rows ≠ [] ∧
        Conform (fieldtypes types q.names.length) (ready.stmt.nextRun.rows.map q.columns) ∧
        ds = ⟨(ready.stmt.nextRun.rows.map q.columns).map (convertRow (fieldtypes types q.names.length)),
          fieldtypes types q.names.length,q.names⟩) := by
  rw [select_of_setup accepted idle] at returned
  have filled : deliverRun fillds ready.stmt.nextRun (Dataset.ofTypes types) = .ok () ds := by
    cases result : deliverRun fillds ready.stmt.nextRun (Dataset.ofTypes types) <;> rw [result] at returned <;>
    · cases returned
      try rfl
  cases run : ready.stmt.nextRun.rows with
  | nil =>
    simp only [deliverRun,run,List.map_nil,deliver,closing] at filled
    split_ifs at filled
    cases filled
    exact .inl ⟨rfl,rfl⟩
  | cons first rest =>
    obtain ⟨size,names⟩ := @rows_sized q ready.stmt.nextRun (q.columns first) (by simp [run])
    have named : (q.columns first).names ≠ [] := by rwa [names]
    have begins := fillds_first types (q.columns first)
    rw [deliverRun,run,List.map_cons] at filled
    split_ifs at begins
    · rw [deliver_throw begins] at filled
      cases filled
    · let started : Dataset := ⟨[],fieldtypes types (q.columns first).cells.length,(q.columns first).names⟩
      rw [← @fillds_named started named] at begins
      rw [deliver_same begins] at filled
      obtain ⟨conform,same⟩ := @deliver_returned started ds _ _ _ named filled
      simp only [started,size,names,List.nil_append] at conform same
      exact .inr ⟨List.cons_ne_nil _ _,conform,same⟩

end inversion

section fresh

theorem storedAll_null (p : Platform) (slot n : Nat) :
    p.storedAll slot (List.replicate n .null) = some (List.replicate n .null) := by
  induction n generalizing slot with
  | zero => rfl
  | succ n ih => simp [List.replicate_succ,Platform.storedAll,Platform.stored,ih]

theorem setup_fresh (p : Platform) (q : Query) : setup p [] (ofQuery q) = .ok () (ofQuery q) := by
  have count : 0 + (createParameters q).length = q.paramCount := by simp [createParameters]
  obtain ⟨t,ready,started,outside,result⟩ := @Stmt.bindLoop_ready q p (.prepared q) 0 (createParameters q) rfl count
  have values : (createParameters q).values = List.replicate q.paramCount .null := by
    simp [createParameters,DbValues.values,DbValue.ofType]
  have whole : .blob [] ∉ p.accepted (List.replicate q.paramCount .null) := by
    intro member
    have null := List.eq_of_mem_replicate ((List.takeWhile_sublist _).subset member)
    cases null
  rw [values,storedAll_null] at result
  obtain ⟨bound,bindings⟩ := result
  rw [values,decide_eq_false whole] at outside
  have same : t = .prepared q := by
    obtain ⟨⟨cells,size⟩,cursor,begun,out⟩ := t
    cases ready
    cases started
    cases outside
    cases bindings
    rfl
  rw [setup_eq]
  simp only [ofQuery,if_true,List.length_nil,Nat.lt_irrefl,if_false,gt_iff_lt,Command.bind,bound,same]

end fresh

section names
variable {params : DbValues} {cmd ready left : Command q}

theorem getIndex_ok {name : String} {i : Nat} : ds.getIndex name = .ok i ↔ ds.names.idxOf? name = some i := by
  unfold Dataset.getIndex
  cases ds.names.idxOf? name <;> simp

theorem at_convertRow {types : List ValueType} {row : Columns} {i : Nat} (fits : List.Forall₂ Accepts types row.cells)
    (inside : i < row.cells.length) :
    (convertRow types row).at i = .ok (converted (types.getD i .variant) (row.cells.getD i .null)) := by
  have typed : i < types.length := inside.trans_eq fits.length_eq.symm
  rw [Sorting.at_inside (inside.trans_eq (convertRow_length fits).symm)]
  simp [Sorting.cell,convertRow,List.getD,inside,typed]

/-- The type that a result column has under the types of a select. -/
def columnType (types : List ValueType) (n i : Nat) : ValueType := (fieldtypes types n).getD i .variant

/-- A name is resolved exactly if there are rows and the query has a column of that name: to the first
such column, at which every row has the cell of the query. There are no other rows than those of the query. -/
theorem getIndex_resolves (columns : q.names ≠ []) (accepted : setup p params cmd = .ok () ready)
    (idle : ready.stmt.cursor = .ready) (returned : select p params types cmd = .ok ds left) (name : String) (i : Nat) :
    (ds.getIndex name = .ok i ↔ ready.stmt.nextRun.rows ≠ [] ∧ q.names.idxOf? name = some i) ∧
      (ds.getIndex name = .ok i → ∀ (r : Nat) (row : Row q.names.length), ready.stmt.nextRun.rows[r]? = some row →
        ∃ values : DbValues, ds.rows[r]? = some values ∧
          values.at i = .ok (converted (columnType types q.names.length i) (row.val.getD i .null))) ∧
      ds.rows.length = ready.stmt.nextRun.rows.length := by
  rw [getIndex_ok]
  rcases select_returned columns accepted idle returned with ⟨none,rfl⟩ | ⟨filled,conform,rfl⟩
  · simp [none,Dataset.ofTypes]
  · refine ⟨(and_iff_right filled).symm,?_,by rw [List.length_map,List.length_map]⟩
    intro found r row here
    obtain ⟨inside,_⟩ := List.idxOf?_eq_some_iff.mp found
    have member : q.columns row ∈ ready.stmt.nextRun.rows.map q.columns :=
      List.mem_map_of_mem (List.mem_of_getElem? here)
    refine ⟨convertRow (fieldtypes types q.names.length) (q.columns row),?_,?_⟩
    · rw [List.getElem?_map,List.getElem?_map,here]
      rfl
    · exact at_convertRow (conform (q.columns row) member) (inside.trans_eq row.property.symm)

theorem oneAndNull_columns : oneAndNull.names ≠ [] := List.cons_ne_nil _ _

theorem oneAndNull_selected : ∃ ds left, select .usual [] [] (ofQuery oneAndNull) = .ok ds left := by
  have accepted := setup_fresh .usual oneAndNull
  rcases @select_rows _ .usual [] [] _ _ oneAndNull_columns accepted rfl rfl _ _ rfl with ⟨refused,_⟩ | ⟨_,returned⟩
  · refine absurd ⟨.inl (typeCount_zero.mpr rfl),?_⟩ refused
    rw [fieldtypes_nil]
    exact conform_variant fun row member => by
      cases List.mem_singleton.mp member
      rfl
  · exact ⟨_,_,returned⟩

theorem getIndex_resolves_null : ∃ ds left, select .usual [] [] (ofQuery oneAndNull) = .ok ds left ∧
    ds.getIndex "b" = .ok 1 := by
  obtain ⟨ds,left,returned⟩ := oneAndNull_selected
  refine ⟨ds,left,returned,?_⟩
  have accepted := setup_fresh .usual oneAndNull
  exact (getIndex_resolves oneAndNull_columns accepted rfl returned "b" 1).1.mpr ⟨List.cons_ne_nil _ _,rfl⟩

end names

section value

theorem assignFrom_typed (type : ValueType) (cell : Cell) :
    DbValue.assignFrom (converted type cell) (DbValue.ofType type) = .ok () (converted type cell) := by
  have fits : (DbValue.ofType type).canAssign (converted type cell) = true :=
    (DbValue.canAssign_iff _ _).mpr (.inr (.inl rfl))
  rw [DbValue.assignFrom,if_pos fits]
  rfl

theorem firstValue_row {columns : Columns} (filled : 0 < columns.cells.length) (type : ValueType) :
    firstValue type columns (DbValue.ofType type) =
      if Accepts type columns.cells[0] then .ok false (converted type columns.cells[0])
      else .error (.sl3 (errTypeMisMatch (type.typeName ++ " not one of required types"))) (DbValue.ofType type) := by
  have read := @getValueAs_eq columns 0 filled type
  rw [firstValue,show (0 : Int) = ((0 : Nat) : Int) from rfl,read]
  split_ifs
  · simp only [assignFrom_typed]
  · rfl

def firstRun (q : Query) : Run q.names.length := (Stmt.prepared q).nextRun

/-- `selectValue` sees the first row, if there is one, and else how the run ends. -/
theorem selectValue_eq (columns : q.names ≠ []) (p : Platform) (type : ValueType) : selectValue p q type =
    match (firstRun q).rows with
    | row::_ =>
      if Accepts type (row.val.getD 0 .null) then .ok (converted type (row.val.getD 0 .null))
      else .error (.sl3 (errTypeMisMatch (type.typeName ++ " not one of required types")))
    | [] =>
      if (firstRun q).rc = sqliteOk ∨ (firstRun q).rc = sqliteDone then .ok (DbValue.ofType type)
      else .error (.sl3 (sqlite3Error (firstRun q).rc (firstRun q).errmsg)) := by
  rw [selectValue,execute_of_setup _ (setup_fresh p q) rfl]
  have begun : (ofQuery q).stmt.nextRun = firstRun q := rfl
  rw [begun,deliverRun]
  cases run : (firstRun q).rows with
  | nil =>
    simp only [List.map_nil,deliver,closing]
    split_ifs <;> rfl
  | cons row rest =>
    have filled : 0 < (q.columns row).cells.length := row.property.symm ▸ List.length_pos_iff.mpr columns
    have cell : row.val.getD 0 .null = (q.columns row).cells[0] := by
      have inside : 0 < row.val.length := filled
      simp [List.getD,inside,Query.columns]
    have answer := firstValue_row filled type
    rw [← cell] at answer
    simp only [List.map_cons]
    split_ifs at answer ⊢
    · rw [deliver_stop answer]
      rfl
    · rw [deliver_throw answer]
      rfl

theorem fieldtypes_head (columns : q.names ≠ [])
    (asked : types = [] ∧ type = .variant ∨ types.length = q.names.length ∧ types.head? = some type) :
    ∃ later, fieldtypes types q.names.length = type::later := by
  have positive : 0 < q.names.length := List.length_pos_iff.mpr columns
  rcases asked with ⟨rfl,rfl⟩ | ⟨size,first⟩
  · obtain ⟨n,size⟩ := Nat.exists_eq_succ_of_ne_zero positive.ne'
    rw [fieldtypes_nil,wanted,if_pos rfl,size,List.replicate_succ]
    exact ⟨_,rfl⟩
  · have counted : typeCount types ≠ 0 := by
      rw [typeCount_of_length q.countable size]
      omega
    obtain ⟨later,rfl⟩ := List.head?_eq_some_iff.mp first
    rw [fieldtypes_counted counted,wanted,if_neg (List.cons_ne_nil _ _)]
    exact ⟨later,rfl⟩

/-- Where `select` of the same query returns, `selectValue` returns the first cell of its first row,
or NULL where there is none; it may return also where `select` throws at a later row or cell. -/
theorem selectValue_of_select (columns : q.names ≠ [])
    (asked : types = [] ∧ type = .variant ∨ types.length = q.names.length ∧ types.head? = some type)
    (returned : selectAll p q types = .ok ds) :
    selectValue p q type = .ok ((ds.rows.head?.bind List.head?).getD (DbValue.ofType type)) := by
  obtain ⟨left,selected⟩ := selectAll_returned returned
  have inverted := select_returned columns (setup_fresh p q) rfl selected
  rw [select_of_setup (setup_fresh p q) rfl] at selected
  have begun : (ofQuery q).stmt.nextRun = firstRun q := rfl
  rw [begun] at inverted selected
  rw [selectValue_eq columns]
  rcases inverted with ⟨none,rfl⟩ | ⟨filled,conform,rfl⟩
  · simp only [deliverRun,none,List.map_nil,deliver,closing] at selected ⊢
    split_ifs at selected ⊢
    rfl
  · obtain ⟨row,rest,run⟩ := List.exists_cons_of_ne_nil filled
    obtain ⟨later,types⟩ := @fieldtypes_head q types type columns asked
    rw [run,types] at conform ⊢
    have fits := conform (q.columns row) List.mem_cons_self
    obtain ⟨cell,cells,accepted,_,cut⟩ := List.forall₂_cons_left_iff.mp fits
    have first : row.val.getD 0 .null = cell := by
      rw [show row.val = cell::cells from cut]
      rfl
    simp only [first,accepted,if_true,List.map_cons,List.head?_cons,Option.bind_some,convertRow,cut,List.zipWith_cons_cons,
      Option.getD_some]

theorem selectValue_of_select_one : ∃ ds, selectAll .usual oneAndNull [] = .ok ds ∧
    selectValue .usual oneAndNull .variant = .ok ((ds.rows.head?.bind List.head?).getD (DbValue.ofType .variant)) := by
  obtain ⟨ds,left,selected⟩ := oneAndNull_selected
  have returned : selectAll .usual oneAndNull [] = .ok ds := by rw [selectAll,selected]
  exact ⟨ds,returned,selectValue_of_select oneAndNull_columns (.inl ⟨rfl,rfl⟩) returned⟩

end value

end Sl3.Queries
