import Sl3.Binding
import Sl3.Dataset

/-! `sl3::Command`: setting and binding parameters, the step loop with its callback
and its reset guard, and the overloads built on it. -/
namespace Sl3

/-- What leaves a call: an exception of the library or one of the callback's own. -/
inductive Thrown where
  | sl3 (e : Error)
  | other (what : String)
deriving DecidableEq

/-- Code of the user over a state of its own: `true` asks for the next row. -/
abbrev Callback (σ : Type) := Columns → EStateM Thrown σ Bool

structure RowCallback (σ : Type) where
  onStart : EStateM Thrown σ Unit
  onRow : Callback σ
  onEnd : EStateM Thrown σ Unit

/-- A Command that was prepared and not moved from. -/
structure Command (q : Query) where
  isValid : Bool
  stmt : Stmt q
  parameters : DbValues

def withState {σ τ α : Type} (wrap : σ → τ) : EStateM.Result Thrown σ α → EStateM.Result Thrown τ α
  | .ok a s => .ok a (wrap s)
  | .error e s => .error e (wrap s)

theorem leftBy_withState {σ τ α : Type} (wrap : σ → τ) (result : EStateM.Result Thrown σ α) :
    leftBy (withState wrap result) = wrap (leftBy result) := by
  cases result <;> rfl

namespace Command
variable {q : Query} {σ : Type}

def createParameters (q : Query) : DbValues := List.replicate q.paramCount (DbValue.ofType .variant)

def ofQuery (q : Query) : Command q := ⟨true,.prepared q,createParameters q⟩

/-- The constructor that takes the parameters of `Database::prepare`. -/
def ofParameters (q : Query) (parameters : DbValues) : Except Error (Command q) :=
  if q.paramCount ≠ parameters.length then .error (errTypeMisMatch "Incorrect parameter count")
  else .ok ⟨true,.prepared q,parameters⟩

def ensureValid : Method (Command q) Unit := fun cmd =>
  if cmd.isValid then .ok () cmd else .error errNoConnection cmd

/-- `_parameters[i] = values[i]`, slot by slot: what was assigned before a throw stays. -/
def assignSlots : DbValues → DbValues → Except Error Unit × DbValues
  | d::slots,value::values =>
    if d.canAssign value then
      let (result,rest) := assignSlots slots values
      (result,d.assign value::rest)
    else (.error (d.cannotAssign value),d::slots)
  | slots,_ => (.ok (),slots)

def setParameters (values : DbValues) : Method (Command q) Unit := fun cmd =>
  if values.length ≠ cmd.parameters.length then
    .error (errTypeMisMatch "parameter size incorrect") cmd
  else
    match assignSlots cmd.parameters values with
    | (.ok _,parameters) => .ok () {cmd with parameters}
    | (.error e,parameters) => .error e {cmd with parameters}

def resetParameters (values : DbValues) : Method (Command q) Unit := fun cmd =>
  if values.length = cmd.parameters.length then .ok () {cmd with parameters := values}
  else .error (errTypeMisMatch "resetParameters: values.size () == _parameters.size ()") cmd

/-- A member function of the `DbValue` that `getParameter (idx)` refers to. -/
def onParameter (idx : Nat) (method : Method DbValue Unit) : Method (Command q) Unit := fun cmd =>
  match cmd.parameters[idx]? with
  | none => .error (errOutOfRange ("no data at: " ++ toString idx)) cmd
  | some d =>
    match method d with
    | .ok _ d => .ok () {cmd with parameters := cmd.parameters.set idx d}
    | .error e d => .error e {cmd with parameters := cmd.parameters.set idx d}

def bind (p : Platform) : Method (Command q) Unit := fun cmd =>
  match cmd.stmt.bindLoop p 0 cmd.parameters with
  | .ok _ stmt => .ok () {cmd with stmt}
  | .error e stmt => .error e {cmd with stmt}

def setup (p : Platform) (parameters : DbValues) : Method (Command q) Unit := do
  ensureValid
  if parameters.length > 0 then setParameters parameters
  bind p

def loop (callback : Callback σ) (s : Stmt q) (c : σ) : EStateM.Result Thrown (Stmt q × σ) Unit :=
  if s.step.1 = sqliteOk ∨ s.step.1 = sqliteDone then .ok () (s.step.2,c)
  else if _row : s.step.1 = sqliteRow then
    match callback s.step.2.columns c with
    | .ok true c => loop callback s.step.2 c
    | .ok false c => .ok () (s.step.2,c)
    | .error e c => .error e (s.step.2,c)
  else .error (.sl3 (sqlite3Error s.step.1 s.step.2.errmsg)) (s.step.2,c)
termination_by s.remaining
decreasing_by exact Stmt.step_remaining _row

/-- `execute (Callback, const DbValues&)`: the guard resets on every way out of the loop. -/
def execute (p : Platform) (callback : Callback σ) (parameters : DbValues) :
    EStateM Thrown (Command q × σ) Unit := fun (cmd,c) =>
  match setup p parameters cmd with
  | .error e cmd => .error (.sl3 e) (cmd,c)
  | .ok _ cmd => withState (fun (stmt,c) => ({cmd with stmt := stmt.reset},c)) (loop callback cmd.stmt c)

def executeRows (p : Platform) (cb : RowCallback σ) (parameters : DbValues) :
    EStateM Thrown (Command q × σ) Unit := fun (cmd,c) =>
  match cb.onStart c with
  | .error e c => .error e (cmd,c)
  | .ok _ c =>
    match execute p cb.onRow parameters (cmd,c) with
    | .error e state => .error e state
    | .ok _ (cmd,c) => withState (fun c => (cmd,c)) (cb.onEnd c)

@[irreducible] def typeCount (types : List ValueType) : Int := staticCastInt types.length

@[irreducible] def fieldtypes (types : List ValueType) (n : Nat) : List ValueType :=
  if typeCount types = 0 then List.replicate n .variant else types

def firstRow (columns : Columns) : EStateM Thrown Dataset Unit := fun ds =>
  if typeCount ds.fieldtypes ≠ 0 ∧ typeCount ds.fieldtypes ≠ columns.count then
    .error (.sl3 (errTypeMisMatch "DbValuesTypeList.size != queryrow.getColumnCount()")) ds
  else
    match columns.getNames with
    | .error e => .error (.sl3 e) {ds with fieldtypes := fieldtypes ds.fieldtypes columns.cells.length}
    | .ok names => .ok () {ds with fieldtypes := fieldtypes ds.fieldtypes columns.cells.length,names}

def appendRow : Callback Dataset := fun columns ds =>
  match columns.getRow ds.fieldtypes with
  | .error e => .error (.sl3 e) ds
  | .ok row => .ok true {ds with rows := ds.rows ++ [row]}

/-- The callback of `select`: a row is the first one while there are no names. -/
def fillds : Callback Dataset := fun columns ds =>
  if ds.names.length = 0 then
    match firstRow columns ds with
    | .error e ds => .error e ds
    | .ok _ ds => appendRow columns ds
  else appendRow columns ds

def select (p : Platform) (parameters : DbValues) (types : List ValueType) :
    EStateM Thrown (Command q) Dataset := fun cmd =>
  match execute p fillds parameters (cmd,Dataset.ofTypes types) with
  | .ok _ (cmd,ds) => .ok ds cmd
  | .error e (cmd,_) => .error e cmd

def closing (rc : Int) (errmsg : String) : EStateM Thrown σ Unit := fun c =>
  if rc = sqliteOk ∨ rc = sqliteDone then .ok () c
  else .error (.sl3 (sqlite3Error rc errmsg)) c

def deliver (callback : Callback σ) (rc : Int) (errmsg : String) : List Columns → EStateM Thrown σ Unit
  | [] => closing rc errmsg
  | columns::rows => fun c =>
    match callback columns c with
    | .ok true c => deliver callback rc errmsg rows c
    | .ok false c => .ok () c
    | .error e c => .error e c

section deliver
variable {callback : Callback σ} {rc : Int} {errmsg : String} {columns : Columns} {rows : List Columns} {c d : σ}

theorem deliver_next (answer : callback columns c = .ok true d) :
    deliver callback rc errmsg (columns::rows) c = deliver callback rc errmsg rows d := by
  simp only [deliver,answer]

theorem deliver_same (answer : callback columns c = callback columns d) :
    deliver callback rc errmsg (columns::rows) c = deliver callback rc errmsg (columns::rows) d := by
  simp only [deliver,answer]

theorem deliver_stop (answer : callback columns c = .ok false d) :
    deliver callback rc errmsg (columns::rows) c = .ok () d := by
  simp only [deliver,answer]

theorem deliver_throw {e : Thrown} (answer : callback columns c = .error e d) :
    deliver callback rc errmsg (columns::rows) c = .error e d := by
  simp only [deliver,answer]

end deliver

def deliverRun (callback : Callback σ) (run : Run q.names.length) : EStateM Thrown σ Unit :=
  deliver callback run.rc run.errmsg (run.rows.map q.columns)

/-- From a step into a run on, the loop is the callback on the rows of that run; what
is left of the statement differs from the start in the cursor only. -/
theorem loop_eq (callback : Callback σ) (run : Run q.names.length) {s t : Stmt q} (c : σ)
    (stepped : s.step = Stmt.advance run t) :
    ∃ u : Stmt q, u.reset = t.reset ∧
      loop callback s c = withState (fun c => (u,c)) (deliverRun callback run c) := by
  obtain ⟨rows,rc,errmsg,ended⟩ := run
  induction rows generalizing s t c with
  | nil =>
    rw [loop,stepped]
    refine ⟨{t with cursor := .halted errmsg},rfl,?_⟩
    by_cases fine : rc = sqliteOk ∨ rc = sqliteDone
    · simp [Stmt.advance,deliverRun,deliver,closing,withState,fine]
    · simp [Stmt.advance,deliverRun,deliver,closing,withState,fine,ended,Stmt.errmsg]
  | cons row rows ih =>
    have other : ¬ (sqliteRow = sqliteOk ∨ sqliteRow = sqliteDone) := by decide
    let here : Stmt q := {t with cursor := .active row ⟨rows,rc,errmsg,ended⟩}
    have yields : s.step = (sqliteRow,here) := stepped
    rw [loop,yields]
    simp only [other,if_false,dite_true]
    have current : here.columns = q.columns row := rfl
    rw [current]
    simp only [deliverRun,deliver,List.map_cons]
    cases answer : callback (q.columns row) c with
    | ok more c' =>
      cases more with
      | true => exact @ih here here c' rfl
      | false => exact ⟨here,rfl,rfl⟩
    | error e c' => exact ⟨here,rfl,rfl⟩

/-- What the callback keeps on every row of the query holds after the loop, however it ends. -/
theorem loop_keeps {Inv : σ → Prop} {callback : Callback σ}
    (keeps : ∀ row c, Inv c → Inv (leftBy (callback (q.columns row) c))) (s : Stmt q) (c : σ) (init : Inv c) :
    Inv (leftBy (loop callback s c)).2 := by
  fun_induction loop callback s c with
  | case1 s c ended => exact init
  | case2 s c other row next answer ih =>
    obtain ⟨cells,current⟩ := Stmt.step_columns row
    have kept := keeps cells c init
    rw [← current,answer] at kept
    exact ih kept
  | case3 s c other row next answer =>
    obtain ⟨cells,current⟩ := Stmt.step_columns row
    have kept := keeps cells c init
    rwa [← current,answer] at kept
  | case4 s c other row e next answer =>
    obtain ⟨cells,current⟩ := Stmt.step_columns row
    have kept := keeps cells c init
    rwa [← current,answer] at kept
  | case5 s c other ended => exact init

def ran (cmd : Command q) : Command q := {cmd with stmt := {cmd.stmt with started := cmd.stmt.started + 1}}

theorem reset_ran {cmd : Command q} (idle : cmd.stmt.cursor = .ready) :
    {cmd with stmt := Stmt.reset {cmd.stmt with started := cmd.stmt.started + 1}} = cmd.ran := by
  simp [ran,Stmt.reset,← idle]

theorem execute_of_setup {p : Platform} {callback : Callback σ} {parameters : DbValues} {cmd ready : Command q}
    (c : σ) (accepted : setup p parameters cmd = .ok () ready) (idle : ready.stmt.cursor = .ready) :
    execute p callback parameters (cmd,c) =
      withState (fun c => (ready.ran,c)) (deliverRun callback ready.stmt.nextRun c) := by
  obtain ⟨u,same,eq⟩ := loop_eq callback ready.stmt.nextRun c (Stmt.step_ready idle)
  simp only [execute,accepted,eq]
  have left : ({ready with stmt := u.reset} : Command q) = ready.ran := by
    rw [same]
    exact reset_ran idle
  cases deliverRun callback ready.stmt.nextRun c <;> simp [withState,left]

theorem execute_of_rejected {p : Platform} {callback : Callback σ} {parameters : DbValues} {cmd left : Command q}
    {e : Error} (c : σ) (rejected : setup p parameters cmd = .error e left) :
    execute p callback parameters (cmd,c) = .error (.sl3 e) (left,c) := by
  simp only [execute,rejected]

section rows
variable {p : Platform} {cb : RowCallback σ} {parameters : DbValues} {cmd after : Command q} {c d e : σ}

theorem executeRows_unstarted {thrown : Thrown} (start : cb.onStart c = .error thrown d) :
    executeRows p cb parameters (cmd,c) = .error thrown (cmd,d) := by
  simp only [executeRows,start]

theorem executeRows_thrown {thrown : Thrown} {done : Unit} (start : cb.onStart c = .ok done d)
    (rows : execute p cb.onRow parameters (cmd,d) = .error thrown (after,e)) :
    executeRows p cb parameters (cmd,c) = .error thrown (after,e) := by
  simp only [executeRows,start,rows]

theorem executeRows_done {done finished : Unit} (start : cb.onStart c = .ok done d)
    (rows : execute p cb.onRow parameters (cmd,d) = .ok finished (after,e)) :
    executeRows p cb parameters (cmd,c) = withState (fun c => (after,c)) (cb.onEnd e) := by
  simp only [executeRows,start,rows]

end rows

theorem assignSlots_ok {slots values : DbValues} (fits : DbValues.Fits slots values) :
    assignSlots slots values = (.ok (),DbValues.assignLoop slots values) := by
  unfold DbValues.Fits at fits
  induction fits with
  | nil => rfl
  | cons fit _ ih => simp [assignSlots,fit,ih,DbValues.assignLoop]

theorem assignSlots_stops {before after given rest : DbValues} {d value : DbValue}
    (fits : DbValues.Fits before given) (misfit : d.canAssign value = false) :
    assignSlots (before ++ d::after) (given ++ value::rest) =
      (.error (d.cannotAssign value),DbValues.assignLoop before given ++ d::after) := by
  unfold DbValues.Fits at fits
  induction fits with
  | nil => simp [assignSlots,misfit,DbValues.assignLoop]
  | cons fit _ ih => simp [assignSlots,fit,ih,DbValues.assignLoop]

theorem assignSlots_error {slots values : DbValues} (same : slots.length = values.length)
    (misfit : ¬ DbValues.Fits slots values) :
    ∃ e left, assignSlots slots values = (.error e,left) := by
  obtain ⟨before,d,after,given,value,rest,rfl,rfl,fits,stops⟩ := DbValues.first_misfit same misfit
  exact ⟨_,_,assignSlots_stops fits stops⟩

theorem assignSlots_length (slots values : DbValues) : (assignSlots slots values).2.length = slots.length := by
  induction slots generalizing values with
  | nil => rfl
  | cons d slots ih =>
    cases values with
    | nil => rfl
    | cons value values =>
      unfold assignSlots
      split_ifs
      · simpa using ih values
      · rfl

theorem setParameters_length (values : DbValues) (cmd : Command q) :
    (leftBy (setParameters values cmd)).parameters.length = cmd.parameters.length := by
  have kept := assignSlots_length cmd.parameters values
  unfold setParameters
  split_ifs
  · rfl
  · cases assigned : assignSlots cmd.parameters values with
    | mk result slots =>
      rw [assigned] at kept
      cases result <;> exact kept

theorem setParameters_fits {cmd : Command q} {values : DbValues} (fits : DbValues.Fits cmd.parameters values) :
    setParameters values cmd = .ok () {cmd with parameters := DbValues.assignLoop cmd.parameters values} := by
  simp [setParameters,fits.length,assignSlots_ok fits]

theorem setParameters_misfit {cmd : Command q} {values : DbValues}
    (misfit : ¬ DbValues.Fits cmd.parameters values) :
    ∃ e left, setParameters values cmd = .error e left ∧ left.stmt = cmd.stmt := by
  by_cases same : cmd.parameters.length = values.length
  · obtain ⟨e,left,failed⟩ := assignSlots_error same misfit
    exact ⟨e,{cmd with parameters := left},by simp [setParameters,same,failed],rfl⟩
  · exact ⟨errTypeMisMatch "parameter size incorrect",cmd,by simp [setParameters,Ne.symm same],rfl⟩

theorem setup_eq (p : Platform) (parameters : DbValues) (cmd : Command q) :
    setup p parameters cmd =
      if cmd.isValid then
        match if parameters.length > 0 then setParameters parameters cmd else .ok () cmd with
        | .ok _ cmd => bind p cmd
        | .error e cmd => .error e cmd
      else .error errNoConnection cmd := by
  unfold setup
  cases valid : cmd.isValid with
  | false => simp [ensureValid,valid,Bind.bind,EStateM.bind]
  | true =>
    by_cases given : parameters.length > 0
    · simp only [given,if_true,Bind.bind,EStateM.bind,ensureValid,valid]
      cases setParameters parameters cmd <;> rfl
    · simp [given,Bind.bind,EStateM.bind,ensureValid,valid]

theorem setup_invalid {p : Platform} {parameters : DbValues} {cmd : Command q} (closed : cmd.isValid = false) :
    setup p parameters cmd = .error errNoConnection cmd := by
  simp [setup_eq,closed]

theorem setup_fits {p : Platform} {parameters : DbValues} {cmd : Command q} (valid : cmd.isValid = true)
    (fits : DbValues.Fits cmd.parameters parameters) :
    setup p parameters cmd =
      bind p {cmd with parameters := DbValues.assignLoop cmd.parameters parameters} := by
  cases parameters with
  | nil =>
    have none : cmd.parameters = [] := List.length_eq_zero_iff.mp fits.length
    obtain ⟨isValid,stmt,slots⟩ := cmd
    cases none
    cases valid
    simp [setup_eq,DbValues.assignLoop]
  | cons value values => simp [setup_eq,valid,setParameters_fits fits]

theorem setup_misfit {p : Platform} {parameters : DbValues} {cmd : Command q} (valid : cmd.isValid = true)
    (same : cmd.parameters.length = parameters.length) (misfit : ¬ DbValues.Fits cmd.parameters parameters) :
    ∃ e left, setup p parameters cmd = .error e left ∧ left.stmt = cmd.stmt := by
  have given : parameters.length > 0 := by
    by_contra none
    have empty : parameters = [] := by simpa using none
    have slots : cmd.parameters = [] := List.length_eq_zero_iff.mp (by rw [same,empty]; rfl)
    rw [empty,slots] at misfit
    exact misfit .nil
  obtain ⟨e,left,failed,stmt⟩ := setParameters_misfit misfit
  exact ⟨e,left,by simp [setup_eq,valid,given,failed],stmt⟩

theorem bind_busy {p : Platform} {cmd : Command q} (busy : cmd.stmt.cursor ≠ .ready)
    (some : cmd.parameters ≠ []) : ∃ left, bind p cmd = .error (sqlite3Error sqliteMisuse "") left := by
  obtain ⟨val,params,filled⟩ := List.exists_cons_of_ne_nil some
  have refused := @Stmt.bindLoop_busy q p cmd.stmt busy 0 val params
  rw [← filled] at refused
  exact ⟨{cmd with stmt := cmd.stmt.noting val.value},by simp only [bind,refused]⟩

theorem bind_keeps (p : Platform) (cmd : Command q) :
    (leftBy (bind p cmd)).stmt.SameRun cmd.stmt ∧ (leftBy (bind p cmd)).isValid = cmd.isValid := by
  have kept := @Stmt.bindLoop_keeps q p cmd.stmt 0 cmd.parameters
  unfold bind
  cases result : cmd.stmt.bindLoop p 0 cmd.parameters <;>
  · rw [result] at kept
    exact ⟨kept,rfl⟩

theorem setParameters_keeps (values : DbValues) (cmd : Command q) :
    (leftBy (setParameters values cmd)).stmt = cmd.stmt ∧
      (leftBy (setParameters values cmd)).isValid = cmd.isValid := by
  unfold setParameters
  split_ifs
  · exact ⟨rfl,rfl⟩
  · obtain ⟨result,slots⟩ := assignSlots cmd.parameters values
    cases result <;> exact ⟨rfl,rfl⟩

theorem setup_keeps (p : Platform) (parameters : DbValues) (cmd : Command q) :
    (leftBy (setup p parameters cmd)).stmt.SameRun cmd.stmt ∧
      (leftBy (setup p parameters cmd)).isValid = cmd.isValid := by
  rw [setup_eq]
  split_ifs
  · have given := setParameters_keeps parameters cmd
    cases result : setParameters parameters cmd with
    | ok done next =>
      rw [result] at given
      have bound := bind_keeps p next
      rw [show next.stmt = cmd.stmt from given.1,show next.isValid = cmd.isValid from given.2] at bound
      exact bound
    | error e next =>
      rw [result] at given
      exact ⟨given.1 ▸ ⟨rfl,rfl⟩,given.2⟩
  · exact bind_keeps p cmd
  · exact ⟨⟨rfl,rfl⟩,rfl⟩

/-- A call while the statement is between two rows: with parameters, its own or those of
the Command, it is rejected before the guard exists. -/
theorem setup_busy {p : Platform} {parameters : DbValues} {cmd : Command q} (busy : cmd.stmt.cursor ≠ .ready)
    (guarded : parameters ≠ [] ∨ cmd.parameters ≠ []) :
    ∃ e left, setup p parameters cmd = .error e left ∧ left.stmt.cursor = cmd.stmt.cursor := by
  have kept := (setup_keeps p parameters cmd).1
  cases result : setup p parameters cmd with
  | error e left =>
    rw [result] at kept
    exact ⟨e,left,rfl,kept.1⟩
  | ok done left =>
    rw [setup_eq] at result
    split_ifs at result with valid given
    · have size := setParameters_length parameters cmd
      have same := (setParameters_keeps parameters cmd).1
      cases set : setParameters parameters cmd with
      | error e next => simp [set] at result
      | ok done next =>
        rw [set] at result size same
        have filled : next.parameters ≠ [] := by
          intro none
          have empty : cmd.parameters = [] := List.length_eq_zero_iff.mp (by rw [← size]; simp [leftBy,none])
          have differ : parameters.length ≠ cmd.parameters.length := by
            rw [empty,List.length_nil]
            omega
          simp [setParameters,differ] at set
        have still : next.stmt.cursor ≠ .ready := by
          rw [show next.stmt = cmd.stmt from same]
          exact busy
        obtain ⟨last,failed⟩ := @bind_busy q p next still filled
        simp [failed] at result
    · have none : parameters = [] := by simpa using given
      obtain ⟨last,failed⟩ := @bind_busy q p cmd busy (guarded.resolve_left (not_not.mpr none))
      simp [failed] at result

end Command
end Sl3
