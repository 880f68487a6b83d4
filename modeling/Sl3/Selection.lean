import Sl3.Command

/-! `Command::select` against the rows of its cursor: the callback on the first row, on
the later rows, and the result of the whole call. -/
namespace Sl3.Selection
open Command Columns
variable {q : Query}

def wanted (types : List ValueType) (n : Nat) : List ValueType :=
  if types = [] then List.replicate n .variant else types

def Conform (types : List ValueType) (rows : List Columns) : Prop :=
  ∀ row ∈ rows, List.Forall₂ Accepts types row.cells

def convertRow (types : List ValueType) (row : Columns) : DbValues := List.zipWith converted types row.cells

instance (types : List ValueType) (rows : List Columns) : Decidable (Conform types rows) :=
  inferInstanceAs (Decidable (∀ row ∈ rows, List.Forall₂ Accepts types row.cells))

theorem appendRow_ok {ds : Dataset} {row : Columns} (fits : List.Forall₂ Accepts ds.fieldtypes row.cells) :
    appendRow row ds = .ok true {ds with rows := ds.rows ++ [convertRow ds.fieldtypes row]} := by
  simp only [appendRow,getRow_ok fits,convertRow]

theorem appendRow_error {ds : Dataset} {row : Columns}
    (misfit : ¬ List.Forall₂ Accepts ds.fieldtypes row.cells) :
    ∃ what, appendRow row ds = .error (.sl3 (errTypeMisMatch what)) ds := by
  obtain ⟨what,failed⟩ := getRow_error misfit
  exact ⟨what,by simp only [appendRow,failed]⟩

theorem fillds_named {ds : Dataset} (named : ds.names ≠ []) (row : Columns) :
    fillds row ds = appendRow row ds := by
  simp [fillds,named]

theorem fillds_first (types : List ValueType) (row : Columns) :
    fillds row (Dataset.ofTypes types) =
      if typeCount types ≠ 0 ∧ typeCount types ≠ row.count then
        .error (.sl3 (errTypeMisMatch "DbValuesTypeList.size != queryrow.getColumnCount()"))
          (Dataset.ofTypes types)
      else appendRow row ⟨[],fieldtypes types row.cells.length,row.names⟩ := by
  have empty : (Dataset.ofTypes types).names.length = 0 := rfl
  rw [fillds,if_pos empty]
  by_cases bad : typeCount types ≠ 0 ∧ typeCount types ≠ row.count
  · have rejected : firstRow row (Dataset.ofTypes types) =
        .error (.sl3 (errTypeMisMatch "DbValuesTypeList.size != queryrow.getColumnCount()"))
          (Dataset.ofTypes types) := if_pos bad
    rw [rejected,if_pos bad]
  · have named : firstRow row (Dataset.ofTypes types) =
        .ok () ⟨[],fieldtypes types row.cells.length,row.names⟩ := by
      rw [firstRow,getNames_eq]
      exact if_neg bad
    rw [named,if_neg bad]

theorem deliver_named {ds : Dataset} (named : ds.names ≠ []) {rows : List Columns} (errmsg : String)
    (conform : Conform ds.fieldtypes rows) : deliver fillds sqliteDone errmsg rows ds =
      .ok () {ds with rows := ds.rows ++ rows.map (convertRow ds.fieldtypes)} := by
  induction rows generalizing ds with
  | nil => simp [deliver,closing]
  | cons row rows ih =>
    have fits := conform row (by simp)
    have rest := @ih {ds with rows := ds.rows ++ [convertRow ds.fieldtypes row]} named
      fun other member => conform other (by simp [member])
    rw [deliver_next ((fillds_named named row).trans (appendRow_ok fits))]
    simpa using rest

theorem deliver_named_error {ds : Dataset} (named : ds.names ≠ []) {rows : List Columns} (errmsg : String)
    (misfit : ¬ Conform ds.fieldtypes rows) : ∃ what left,
      deliver fillds sqliteDone errmsg rows ds = .error (.sl3 (errTypeMisMatch what)) left := by
  induction rows generalizing ds with
  | nil => exact absurd (fun _ member => by simp at member) misfit
  | cons row rows ih =>
    by_cases fits : List.Forall₂ Accepts ds.fieldtypes row.cells
    · have later : ¬ Conform ds.fieldtypes rows := fun conform => misfit (by simpa [Conform,fits] using conform)
      rw [deliver_next ((fillds_named named row).trans (appendRow_ok fits))]
      exact @ih {ds with rows := ds.rows ++ [convertRow ds.fieldtypes row]} named later
    · obtain ⟨what,failed⟩ := appendRow_error fits
      exact ⟨what,ds,deliver_throw ((fillds_named named row).trans failed)⟩

/-- When the call returns by the law of `select`. -/
def Selectable (types : List ValueType) (n : Nat) (rows : List Columns) : Prop :=
  rows = [] ∨ (types = [] ∨ types.length = n) ∧ Conform (wanted types n) rows

/-- The law for one call: what it returns, what it throws, and that the statement is
reset. -/
def Meets (p : Platform) (cmd : Command q) (params : DbValues) (types : List ValueType)
    (rows : List Columns) : Prop :=
  match select p params types cmd with
  | .ok ds left =>
    Selectable types q.names.length rows ∧
      ds.rows = rows.map (convertRow (wanted types q.names.length)) ∧
      (∀ row ∈ ds.rows, row.length = q.names.length) ∧
      (rows ≠ [] → ds.names.length = q.names.length) ∧ left.stmt.cursor = .ready
  | .error e left =>
    ¬ Selectable types q.names.length rows ∧ (∃ what, e = .sl3 (errTypeMisMatch what)) ∧
      left.stmt.cursor = .ready

theorem conform_variant {n : Nat} {rows : List Columns} (sized : ∀ row ∈ rows, row.cells.length = n) :
    Conform (List.replicate n .variant) rows := by
  intro row member
  refine List.forall₂_iff_get.mpr ⟨by simp [sized row member],fun i left right => ?_⟩
  simp [Accepts]

theorem deliver_rejected {types : List ValueType} {first : Columns} (rows : List Columns) (errmsg : String)
    (bad : typeCount types ≠ 0 ∧ typeCount types ≠ first.count) : ∃ what left,
      deliver fillds sqliteDone errmsg (first::rows) (Dataset.ofTypes types) =
        .error (.sl3 (errTypeMisMatch what)) left := by
  have begins := fillds_first types first
  rw [if_pos bad] at begins
  exact ⟨_,_,deliver_throw begins⟩

theorem deliver_first {types : List ValueType} {first : Columns} (named : first.names ≠ [])
    (rows : List Columns) (errmsg : String)
    (good : ¬ (typeCount types ≠ 0 ∧ typeCount types ≠ first.count)) :
    deliver fillds sqliteDone errmsg (first::rows) (Dataset.ofTypes types) =
      deliver fillds sqliteDone errmsg (first::rows) ⟨[],fieldtypes types first.cells.length,first.names⟩ := by
  have begins := fillds_first types first
  rw [if_neg good,← @fillds_named ⟨[],fieldtypes types first.cells.length,first.names⟩ named] at begins
  exact deliver_same begins

theorem select_of_setup {p : Platform} {params : DbValues} {types : List ValueType} {cmd ready : Command q}
    (accepted : setup p params cmd = .ok () ready) (idle : ready.stmt.cursor = .ready) :
    select p params types cmd =
      match deliverRun fillds ready.stmt.nextRun (Dataset.ofTypes types) with
      | .ok _ ds => .ok ds ready.ran
      | .error e _ => .error e ready.ran := by
  simp only [select,execute_of_setup _ accepted idle]
  cases deliverRun fillds ready.stmt.nextRun (Dataset.ofTypes types) <;> rfl

/-- What the callback of `select` keeps on every row of the query holds of the Dataset returned. -/
theorem select_keeps {Inv : Dataset → Prop} (keeps : ∀ row ds, Inv ds → Inv (leftBy (fillds (q.columns row) ds)))
    {p : Platform} {params : DbValues} {types : List ValueType} {cmd left : Command q} {ds : Dataset}
    (init : Inv (Dataset.ofTypes types)) (returned : select p params types cmd = .ok ds left) : Inv ds := by
  unfold select execute at returned
  cases ready : setup p params cmd with
  | error e next => simp [ready] at returned
  | ok done next =>
    have filled := loop_keeps keeps next.stmt _ init
    simp only [ready] at returned
    cases result : loop fillds next.stmt (Dataset.ofTypes types) with
    | error e state => simp [result,withState] at returned
    | ok done state =>
      rw [result] at filled
      simp only [result,withState,EStateM.Result.ok.injEq] at returned
      rw [← returned.1]
      exact filled

theorem rows_sized {run : Run q.names.length} : ∀ row ∈ run.rows.map q.columns,
    row.cells.length = q.names.length ∧ row.names = q.names := by
  intro row member
  obtain ⟨cells,_,rfl⟩ := List.mem_map.mp member
  exact ⟨cells.property,rfl⟩

section run
variable {p : Platform} {params : DbValues} {types : List ValueType} {cmd ready : Command q}

/-- What the code asks of a cursor with rows: a suitable number of types, and rows that
conform to the field types the first row leaves. -/
def Passes (types : List ValueType) (n : Nat) (rows : List Columns) : Prop :=
  (typeCount types = 0 ∨ typeCount types = n) ∧ Conform (fieldtypes types n) rows

theorem select_rows (columns : q.names ≠ []) (accepted : setup p params cmd = .ok () ready)
    (idle : ready.stmt.cursor = .ready) (done : ready.stmt.nextRun.rc = sqliteDone)
    {first : Columns} {rest : List Columns}
    (seen : ready.stmt.nextRun.rows.map q.columns = first::rest) :
    (¬ Passes types q.names.length (first::rest) ∧
        ∃ what, select p params types cmd = .error (.sl3 (errTypeMisMatch what)) ready.ran) ∨
      (Passes types q.names.length (first::rest) ∧ select p params types cmd =
        .ok ⟨(first::rest).map (convertRow (fieldtypes types q.names.length)),
          fieldtypes types q.names.length,q.names⟩ ready.ran) := by
  have result := @select_of_setup q p params types cmd ready accepted idle
  rw [deliverRun,done,seen] at result
  obtain ⟨size,names⟩ := @rows_sized q ready.stmt.nextRun first (by rw [seen]; simp)
  have count : first.count = q.names.length := congrArg Int.ofNat size
  have named : first.names ≠ [] := by rwa [names]
  by_cases bad : typeCount types ≠ 0 ∧ typeCount types ≠ first.count
  · obtain ⟨what,left,thrown⟩ := deliver_rejected rest ready.stmt.nextRun.errmsg bad
    rw [thrown] at result
    rw [count] at bad
    exact .inl ⟨fun passes => passes.1.elim bad.1 bad.2,what,result⟩
  · rw [deliver_first named rest ready.stmt.nextRun.errmsg bad,size,names] at result
    rw [count] at bad
    have suits : typeCount types = 0 ∨ typeCount types = q.names.length :=
      by_contra fun neither => bad (not_or.mp neither)
    let started : Dataset := ⟨[],fieldtypes types q.names.length,q.names⟩
    by_cases conform : Conform (fieldtypes types q.names.length) (first::rest)
    · rw [@deliver_named started columns _ _ conform] at result
      exact .inr ⟨⟨suits,conform⟩,result⟩
    · obtain ⟨what,left,thrown⟩ :=
        @deliver_named_error started columns _ ready.stmt.nextRun.errmsg conform
      rw [thrown] at result
      exact .inl ⟨fun passes => conform passes.2,what,result⟩

theorem select_empty (accepted : setup p params cmd = .ok () ready) (idle : ready.stmt.cursor = .ready)
    (done : ready.stmt.nextRun.rc = sqliteDone) (none : ready.stmt.nextRun.rows = []) :
    select p params types cmd = .ok (Dataset.ofTypes types) ready.ran := by
  rw [select_of_setup accepted idle]
  simp [deliverRun,none,done,deliver,closing]

end run

theorem convertRow_length {types : List ValueType} {row : Columns}
    (fits : List.Forall₂ Accepts types row.cells) : (convertRow types row).length = row.cells.length := by
  simp [convertRow,fits.length_eq]

theorem typeCount_zero {types : List ValueType} : typeCount types = 0 ↔ types.length % 2^32 = 0 := by
  unfold typeCount
  exact staticCastInt_eq_zero

theorem typeCount_of_length {types : List ValueType} {n : Nat} (small : n < 2^31) (same : types.length = n) :
    typeCount types = n := by
  subst same
  unfold typeCount
  exact staticCastInt_of_lt small

theorem fieldtypes_nil (n : Nat) : fieldtypes [] n = wanted [] n := by
  rw [fieldtypes,if_pos (by rw [typeCount_zero]; rfl),wanted,if_pos rfl]

theorem fieldtypes_counted {types : List ValueType} {n : Nat} (counted : typeCount types ≠ 0) : fieldtypes types n = wanted types n := by
  have some : types ≠ [] := by
    rintro rfl
    exact counted (typeCount_zero.mpr rfl)
  rw [fieldtypes,if_neg counted,wanted,if_neg some]

theorem passes_iff {types : List ValueType} {n : Nat} (small : n < 2^31)
    {first : Columns} {rest : List Columns} (sized : ∀ row ∈ first::rest, row.cells.length = n)
    (regular : types = [] ∨ typeCount types ≠ 0) :
    Passes types n (first::rest) ↔ Selectable types n (first::rest) := by
  rcases regular with rfl | counted
  · have zero : typeCount [] = 0 := typeCount_zero.mpr rfl
    simp [Passes,Selectable,fieldtypes_nil,zero]
  · have some : types ≠ [] := by
      rintro rfl
      exact counted (typeCount_zero.mpr rfl)
    simp only [Passes,Selectable,fieldtypes_counted counted,counted,some,false_or,reduceCtorEq]
    constructor
    · rintro ⟨_,conform⟩
      have size := (conform first (by simp)).length_eq
      rw [wanted,if_neg some,sized first (by simp)] at size
      exact ⟨size,conform⟩
    · rintro ⟨size,conform⟩
      exact ⟨typeCount_of_length small size,conform⟩

theorem passes_wrapped {types : List ValueType} {n : Nat} (small : n < 2^31) (positive : 0 < n)
    {first : Columns} {rest : List Columns} (sized : ∀ row ∈ first::rest, row.cells.length = n)
    (some : types ≠ []) (zero : typeCount types = 0) :
    Passes types n (first::rest) ∧ ¬ Selectable types n (first::rest) := by
  constructor
  · refine ⟨.inl zero,?_⟩
    rw [fieldtypes,if_pos zero]
    exact conform_variant sized
  · rintro (none | ⟨none | size,_⟩)
    · simp at none
    · exact some none
    · have count := typeCount_of_length small size
      omega

theorem meets_of_returned {p : Platform} {cmd left : Command q} {params : DbValues} {types : List ValueType}
    {rows : List Columns} {ds : Dataset} (returned : select p params types cmd = .ok ds left)
    (reset : left.stmt.cursor = .ready) : Meets p cmd params types rows ↔
      Selectable types q.names.length rows ∧
        ds.rows = rows.map (convertRow (wanted types q.names.length)) ∧
        (∀ row ∈ ds.rows, row.length = q.names.length) ∧
        (rows ≠ [] → ds.names.length = q.names.length) := by
  simp [Meets,returned,reset]

theorem meets_of_thrown {p : Platform} {cmd left : Command q} {params : DbValues} {types : List ValueType}
    {rows : List Columns} {what : String}
    (thrown : select p params types cmd = .error (.sl3 (errTypeMisMatch what)) left)
    (reset : left.stmt.cursor = .ready) :
    Meets p cmd params types rows ↔ ¬ Selectable types q.names.length rows := by
  simp [Meets,thrown,reset]

/-- On a cursor with columns that ends with DONE, `select` meets its law exactly when
there is no row, no types are asked for, or their number is not zero as an `int`. -/
theorem select_meets_iff {p : Platform} {params : DbValues} {types : List ValueType} {cmd ready : Command q}
    (columns : q.names ≠ []) (accepted : setup p params cmd = .ok () ready)
    (idle : ready.stmt.cursor = .ready) (done : ready.stmt.nextRun.rc = sqliteDone) :
    Meets p cmd params types (ready.stmt.nextRun.rows.map q.columns) ↔
      ready.stmt.nextRun.rows = [] ∨ types = [] ∨ types.length % 2^32 ≠ 0 := by
  have reset : ready.ran.stmt.cursor = .ready := idle
  have positive : 0 < q.names.length := List.length_pos_iff.mpr columns
  have wraps : types.length % 2^32 ≠ 0 ↔ typeCount types ≠ 0 := not_congr typeCount_zero.symm
  rw [wraps,← @List.map_eq_nil_iff _ _ q.columns]
  have sized : ∀ row ∈ ready.stmt.nextRun.rows.map q.columns, row.cells.length = q.names.length :=
    fun row member => (rows_sized row member).1
  cases seen : ready.stmt.nextRun.rows.map q.columns with
  | nil =>
    rw [meets_of_returned (select_empty accepted idle done (List.map_eq_nil_iff.mp seen)) reset]
    simp [Selectable,Dataset.ofTypes]
  | cons first rest =>
    rw [seen] at sized
    have selected := @select_rows q p params types cmd ready columns accepted idle done first rest seen
    simp only [reduceCtorEq,false_or]
    by_cases regular : types = [] ∨ typeCount types ≠ 0
    · have same := passes_iff q.countable sized regular
      have wants : fieldtypes types q.names.length = wanted types q.names.length := by
        rcases regular with rfl | counted
        · exact fieldtypes_nil _
        · exact fieldtypes_counted counted
      simp only [regular,iff_true]
      rw [same,wants] at selected
      rcases selected with ⟨refused,what,thrown⟩ | ⟨selectable,returned⟩
      · exact (meets_of_thrown thrown reset).mpr refused
      · refine (meets_of_returned returned reset).mpr ⟨selectable,rfl,?_,fun _ => rfl⟩
        intro values member
        obtain ⟨row,inside,rfl⟩ := List.mem_map.mp member
        have conform := (same.mpr selectable).2 row inside
        rw [wants] at conform
        rw [convertRow_length conform,sized row inside]
    · obtain ⟨some,zero⟩ := not_or.mp regular
      obtain ⟨passes,refused⟩ := passes_wrapped q.countable positive sized some (not_not.mp zero)
      rw [iff_false_right regular]
      rcases selected with ⟨stopped,_⟩ | ⟨_,returned⟩
      · exact absurd passes stopped
      · rw [meets_of_returned returned reset]
        exact fun meets => refused meets.1

def oneAndNull : Query := .table ["a","b"] (by norm_num) [⟨[.integer 1,.null],rfl⟩]

theorem select_meets_typed :
    let cmd : Command oneAndNull := ofQuery _
    Meets .usual cmd [] [.int,.text] [⟨["a","b"],[.integer 1,.null],rfl⟩] := by
  intro cmd
  have accepted : setup .usual [] cmd = .ok () cmd := rfl
  exact (select_meets_iff (by simp [oneAndNull,Query.table]) accepted rfl rfl).mpr (.inr (.inr (by simp)))

theorem select_ignores_types :
    let cmd : Command (.table ["a"] (by norm_num) [⟨[.text [97]],rfl⟩]) := ofQuery _
    let types := List.replicate (2^32) ValueType.int
    (∃ left, select .usual [] types cmd = .ok ⟨[[⟨.variant,.text [97]⟩]],[.variant],["a"]⟩ left) ∧
      ¬ Meets .usual cmd [] types [⟨["a"],[.text [97]],rfl⟩] := by
  intro cmd types
  have accepted : setup .usual [] cmd = .ok () cmd := rfl
  have zero : typeCount types = 0 := typeCount_zero.mpr (by simp only [types,List.length_replicate]; norm_num)
  have some : types ≠ [] := by
    intro none
    have size : types.length = 2^32 := List.length_replicate
    rw [none] at size
    norm_num at size
  have sized : ∀ row ∈ [(⟨["a"],[.text [97]],rfl⟩ : Columns)],row.cells.length = 1 := by simp
  obtain ⟨passes,refused⟩ := passes_wrapped (by norm_num) Nat.one_pos sized some zero
  let q : Query := .table ["a"] (by norm_num) [⟨[.text [97]],rfl⟩]
  have columns : q.names ≠ [] := by simp [q,Query.table]
  have variant : fieldtypes types q.names.length = [.variant] := by
    rw [fieldtypes,if_pos zero]
    rfl
  rcases @select_rows q .usual [] types cmd cmd columns accepted rfl rfl _ _ rfl with
    ⟨stopped,_⟩ | ⟨_,returned⟩
  · exact absurd passes stopped
  · refine ⟨⟨cmd.ran,?_⟩,?_⟩
    · rw [returned,variant]
      rfl
    · rw [meets_of_returned returned rfl]
      exact fun meets => refused meets.1

end Sl3.Selection
