import Sl3.Columns

/-! Prepared statements as the library drives them: bind, step, read the current
row, reset. What a run yields is arbitrary; the order of the calls is sqlite's. -/
namespace Sl3

def sqliteOk : Int := 0
def sqliteTooBig : Int := 18
def sqliteMisuse : Int := 21
def sqliteRange : Int := 25
def sqliteRow : Int := 100
def sqliteDone : Int := 101

/-- The rest of one run: rows, then the code `sqlite3_step` ends it with. -/
structure Run (n : Nat) where
  rows : List (Row n)
  rc : Int
  errmsg : String := ""
  ended : rc ≠ sqliteRow := by decide

def Run.complete {n : Nat} (rows : List (Row n)) : Run n := {rows,rc := sqliteDone}

/-- A prepared statement: its result columns, the number of its parameters, and
the run that a first step begins, given the bindings and how many came before. -/
structure Query where
  names : List String
  countable : names.length < 2^31
  paramCount : Nat
  program : Row paramCount → Nat → Run names.length

def Query.table (names : List String) (countable : names.length < 2^31) (rows : List (Row names.length)) : Query where
  names := names
  countable := countable
  paramCount := 0
  program := fun _ _ => .complete rows

def Query.columns (q : Query) (row : Row q.names.length) : Columns := ⟨q.names,row.val,row.property⟩

inductive Cursor (n : Nat) where
  | ready
  | active (row : Row n) (rest : Run n)
  | halted (errmsg : String)

/-- The state behind a `sqlite3_stmt*`, and whether binding to it has read a blob at
an index the blob does not have. -/
structure Stmt (q : Query) where
  bindings : Row q.paramCount
  cursor : Cursor q.names.length := .ready
  started : Nat := 0
  outside : Bool := false

namespace Stmt
variable {q : Query}

def prepared (q : Query) : Stmt q where
  bindings := ⟨List.replicate q.paramCount .null,by simp⟩

def advance (run : Run q.names.length) (s : Stmt q) : Int × Stmt q :=
  match run.rows with
  | [] => (run.rc,{s with cursor := .halted run.errmsg})
  | row::rows => (sqliteRow,{s with cursor := .active row {run with rows}})

/-- `sqlite3_step`: a statement that is not between two rows begins a new run. -/
def step (s : Stmt q) : Int × Stmt q :=
  match s.cursor with
  | .active _ rest => advance rest s
  | _ => advance (q.program s.bindings s.started) {s with started := s.started + 1}

def reset (s : Stmt q) : Stmt q := {s with cursor := .ready}

def errmsg (s : Stmt q) : String :=
  match s.cursor with
  | .halted message => message
  | _ => ""

def columns (s : Stmt q) : Columns :=
  match s.cursor with
  | .active row _ => q.columns row
  | _ => ⟨q.names,List.replicate q.names.length .null,by simp⟩

def put (slot : Nat) (cell : Cell) (s : Stmt q) : Stmt q :=
  {s with bindings := ⟨s.bindings.val.set slot cell,by simp [s.bindings.property]⟩}

/-- `sqlite3_bind_*`: parameters count from one, and a statement that was stepped and
not reset takes none. -/
def bind (index : Nat) (cell : Cell) (s : Stmt q) : Int × Stmt q :=
  match s.cursor with
  | .ready =>
    if 0 < index ∧ index ≤ q.paramCount then (sqliteOk,s.put (index - 1) cell)
    else (sqliteRange,s)
  | _ => (sqliteMisuse,s)

def remaining (s : Stmt q) : Nat :=
  match s.cursor with
  | .active _ rest => rest.rows.length
  | _ => (q.program s.bindings s.started).rows.length + 1

theorem advance_cases (run : Run q.names.length) (s : Stmt q) :
    (∃ row rest, run.rows = row::rest.rows ∧ advance run s = (sqliteRow,{s with cursor := .active row rest})) ∨
      (run.rows = [] ∧ (advance run s).1 ≠ sqliteRow) := by
  unfold advance
  cases left : run.rows with
  | nil => exact .inr ⟨rfl,run.ended⟩
  | cons row rows => exact .inl ⟨row,{run with rows},rfl,rfl⟩

def nextRun (s : Stmt q) : Run q.names.length := q.program s.bindings s.started

theorem step_remaining {s : Stmt q} (row : s.step.1 = sqliteRow) : s.step.2.remaining < s.remaining := by
  have further (run : Run q.names.length) (t : Stmt q) (yields : (advance run t).1 = sqliteRow) :
      (advance run t).2.remaining < run.rows.length := by
    unfold advance at yields ⊢
    cases rows : run.rows with
    | nil => simp [rows,run.ended] at yields
    | cons row rows => simp [remaining]
  unfold step at row ⊢
  cases cursor : s.cursor with
  | active current rest =>
    rw [cursor] at row
    simpa [remaining,cursor] using further rest s row
  | _ =>
    rw [cursor] at row
    have less := further _ _ row
    simp only [remaining,cursor] at less ⊢
    omega

theorem step_active {s : Stmt q} {row : Row q.names.length} {rest : Run q.names.length}
    (active : s.cursor = .active row rest) : s.step = advance rest s := by
  simp [step,active]

theorem step_ready {s : Stmt q} (ready : s.cursor = .ready) :
    s.step = advance s.nextRun {s with started := s.started + 1} := by
  simp [step,ready,nextRun]

theorem step_columns {s : Stmt q} (row : s.step.1 = sqliteRow) : ∃ cells, s.step.2.columns = q.columns cells := by
  have current (run : Run q.names.length) (t : Stmt q) (yields : (advance run t).1 = sqliteRow) :
      ∃ cells, (advance run t).2.columns = q.columns cells := by
    rcases advance_cases run t with ⟨cells,rest,_,eq⟩ | ⟨_,ended⟩
    · rw [eq]
      exact ⟨cells,rfl⟩
    · exact absurd yields ended
  unfold step at row ⊢
  cases cursor : s.cursor with
  | active here rest =>
    rw [cursor] at row
    exact current rest s row
  | _ =>
    rw [cursor] at row
    exact current _ _ row

end Stmt
end Sl3
