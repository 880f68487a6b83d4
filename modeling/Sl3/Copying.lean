import Sl3.Queries
import Sl3.RoundTrip

/-! The rows that a query has returned as the parameters of another statement, one execution a row:
what arrives there of every cell. -/
namespace Sl3.Copying
open Command Selection Queries
variable {q t : Query} {p : Platform}

def allRows : Callback Unit := fun _ c => .ok true c

/-- One `execute (parameters)`, and what the statement is bound to since. -/
def executeOne (p : Platform) (parameters : DbValues) : EStateM Thrown (Command t × List (List Cell)) Unit := fun (cmd,bound) =>
  match execute p allRows parameters (cmd,()) with
  | .ok _ (cmd,_) => .ok () (cmd,bound ++ [cmd.stmt.bindings.val])
  | .error e (cmd,_) => .error e (cmd,bound)

def executeEach (p : Platform) : List DbValues → EStateM Thrown (Command t × List (List Cell)) Unit
  | [] => pure ()
  | row::rows => do
    executeOne p row
    executeEach p rows

/-- What sqlite can hold: no more bytes than the limit of the connection, and no not-a-number. -/
def Held (p : Platform) (cell : Cell) : Prop := cell.value.size ≤ p.lengthLimit ∧ cell.value.NonNaN

/-- A cell as a parameter: the address of the first byte of an empty blob may be null. -/
def kept (p : Platform) (slot : Nat) (cell : Cell) : Cell :=
  if cell = .blob [] ∧ p.emptyBlobNull slot then .null else cell

def keptAll (p : Platform) : Nat → List Cell → List Cell
  | _,[] => []
  | slot,cell::cells => kept p (slot + 1) cell::keptAll p (slot + 1) cells

theorem stored_kept {slot : Nat} {cell : Cell} (held : Held p cell) : p.stored slot cell.value = some (kept p slot cell) := by
  obtain ⟨limit,number⟩ := held
  have small : cell.value.size < 2^31 := limit.trans_lt p.lengthLimit_lt
  cases cell with
  | null => simp [kept,Cell.value,Platform.stored]
  | integer n => simp [kept,Cell.value,Platform.stored]
  | float x =>
    have real : x.isNaN = false := number
    simp [kept,Cell.value,Platform.stored,real]
  | text content =>
    have count : p.byteCount (content ++ [0]) (staticCastInt content.length) true = content.length :=
      Platform.byteCount_of_lt true small
    have fits : ¬ p.lengthLimit < content.length := limit.not_gt
    simp [kept,Cell.value,Platform.stored,Platform.memSetStr,count,fits]
  | blob content =>
    have count : p.byteCount content (staticCastInt content.length) false = content.length :=
      Platform.byteCount_of_lt false small
    have fits : ¬ p.lengthLimit < content.length := limit.not_gt
    have positive : ¬ staticCastInt content.length < 0 := by
      have cast := staticCastInt_of_lt small
      simp only [Cell.value,Value.size] at cast
      omega
    by_cases null : content = [] ∧ p.emptyBlobNull slot
    · obtain ⟨rfl,null⟩ := null
      simp [kept,Cell.value,Platform.stored,Platform.firstByte,null,Platform.memSetStr]
    · simp only [kept,Cell.value,Platform.stored,Platform.firstByte,Cell.blob.injEq,null,if_false,Platform.memSetStr,count,
        fits,positive,Bool.false_eq_true,or_self,List.take_length]

theorem storedAll_kept {slot : Nat} {cells : List Cell} (held : ∀ cell ∈ cells, Held p cell) :
    p.storedAll slot (cells.map Cell.value) = some (keptAll p slot cells) := by
  induction cells generalizing slot with
  | nil => rfl
  | cons cell cells ih =>
    obtain ⟨first,later⟩ := List.forall_mem_cons.mp held
    rw [List.map_cons,Platform.storedAll,stored_kept first,ih later]
    rfl

/-- A Command between its executions, whose slots have been Variants from the start. -/
structure Ready (cmd : Command t) : Prop where
  valid : cmd.isValid = true
  idle : cmd.stmt.cursor = .ready
  sized : cmd.parameters.length = t.paramCount
  free : ∀ type ∈ cmd.parameters.dbtypes, type = .variant

theorem ofQuery_ready (t : Query) : Ready (ofQuery t) where
  valid := rfl
  idle := rfl
  sized := List.length_replicate
  free := by
    intro type member
    obtain ⟨d,slot,rfl⟩ := List.mem_map.mp member
    rw [List.eq_of_mem_replicate slot]
    rfl

theorem Ready.fits {cmd : Command t} (ready : Ready cmd) {values : DbValues} (size : values.length = t.paramCount) :
    DbValues.Fits cmd.parameters values := by
  refine List.forall₂_iff_get.mpr ⟨ready.sized.trans size.symm,fun i left right => ?_⟩
  exact (DbValue.canAssign_iff _ _).mpr (.inl (ready.free _ (List.mem_map_of_mem (List.get_mem _ _))))

def Ended {n : Nat} (run : Run n) : Prop := run.rc = sqliteOk ∨ run.rc = sqliteDone

instance {n : Nat} (run : Run n) : Decidable (Ended run) := inferInstanceAs (Decidable (_ ∨ _))

theorem deliver_allRows (rc : Int) (errmsg : String) (rows : List Columns) :
    deliver allRows rc errmsg rows () = closing rc errmsg () := by
  induction rows with
  | nil => rfl
  | cons row rows ih => exact (deliver_next rfl).trans ih

theorem executeOne_eq {cmd : Command t} (ready : Ready cmd) {values : DbValues} {cells : List Cell}
    (shows : values.values = cells.map Cell.value) (size : cells.length = t.paramCount) (held : ∀ cell ∈ cells, Held p cell)
    (bound : List (List Cell)) : ∃ (after : Command t) (bindings : Row t.paramCount),
      Ready after ∧ after.stmt.started = cmd.stmt.started + 1 ∧ bindings.val = keptAll p 0 cells ∧
      executeOne p values (cmd,bound) =
        if Ended (t.program bindings cmd.stmt.started) then .ok () (after,bound ++ [keptAll p 0 cells])
        else .error (.sl3 (sqlite3Error (t.program bindings cmd.stmt.started).rc
          (t.program bindings cmd.stmt.started).errmsg)) (after,bound) := by
  have count : values.length = t.paramCount := by
    have same := congrArg List.length shows
    simp only [DbValues.values,List.length_map] at same
    exact same.trans size
  have fits := ready.fits count
  have types := DbValues.assignLoop_dbtypes cmd.parameters values
  have slots : (DbValues.assignLoop cmd.parameters values).length = t.paramCount := by
    have kept := congrArg List.length types
    simp only [DbValues.dbtypes,List.length_map] at kept
    exact kept.trans ready.sized
  obtain ⟨stmt,idle,started,_,result⟩ :=
    @Stmt.bindLoop_ready t p cmd.stmt 0 (DbValues.assignLoop cmd.parameters values) ready.idle
      ((Nat.zero_add _).trans slots)
  rw [DbValues.assignLoop_values fits.length,shows,storedAll_kept held] at result
  obtain ⟨ran,bindings⟩ := result
  have accepted : setup p values cmd = .ok () {cmd with parameters := DbValues.assignLoop cmd.parameters values,stmt} := by
    rw [setup_fits ready.valid fits]
    simp only [Command.bind,ran]
  have next : stmt.nextRun = t.program stmt.bindings cmd.stmt.started := by rw [Stmt.nextRun,started]
  have whole : stmt.bindings.val = keptAll p 0 cells := by simpa using bindings
  refine ⟨Command.ran {cmd with parameters := DbValues.assignLoop cmd.parameters values,stmt},stmt.bindings,?_,?_,whole,?_⟩
  · exact ⟨ready.valid,idle,slots,types ▸ ready.free⟩
  · exact congrArg (· + 1) started
  · rw [executeOne,execute_of_setup () accepted idle]
    simp only [deliverRun,next,deliver_allRows,closing,← Ended.eq_1]
    split_ifs
    · exact congrArg (fun cells => EStateM.Result.ok () (_,bound ++ [cells])) whole
    · rfl

/-- The executions one after the other, up to the first whose run fails. -/
def Copies (p : Platform) (t : Query) (started : Nat) (bound : List (List Cell)) (rows : List (List Cell)) :
    EStateM.Result Thrown (Command t × List (List Cell)) Unit → Prop
  | .ok _ (_,all) => all = bound ++ rows.map (keptAll p 0)
  | .error e (_,all) => ∃ before cells later, rows = before ++ cells::later ∧ all = bound ++ before.map (keptAll p 0) ∧
      ∃ bindings : Row t.paramCount, bindings.val = keptAll p 0 cells ∧
        ¬ Ended (t.program bindings (started + before.length)) ∧
        e = .sl3 (sqlite3Error (t.program bindings (started + before.length)).rc
          (t.program bindings (started + before.length)).errmsg)

/-- Parameters that hold the cells of a row, as many as the statement takes. -/
def Carries (p : Platform) (t : Query) (values : DbValues) (cells : List Cell) : Prop :=
  values.values = cells.map Cell.value ∧ cells.length = t.paramCount ∧ ∀ cell ∈ cells, Held p cell

theorem executeEach_copies {lists : List DbValues} {rows : List (List Cell)} (carry : List.Forall₂ (Carries p t) lists rows)
    {cmd : Command t} (ready : Ready cmd) (bound : List (List Cell)) :
    Copies p t cmd.stmt.started bound rows (executeEach p lists (cmd,bound)) := by
  induction carry generalizing cmd bound with
  | nil => simp [executeEach,Copies,Pure.pure,EStateM.pure]
  | @cons values cells lists rows carries _ ih =>
    obtain ⟨shows,size,held⟩ := carries
    obtain ⟨after,bindings,still,started,kept,one⟩ := executeOne_eq ready shows size held bound
    simp only [executeEach,Bind.bind,EStateM.bind,one]
    split_ifs with ended
    · have rest := ih still (bound ++ [keptAll p 0 cells])
      rw [started] at rest
      simp only
      cases result : executeEach p lists (after,bound ++ [keptAll p 0 cells]) with
      | ok done left =>
        rw [result] at rest
        simpa [Copies] using rest
      | error e left =>
        rw [result] at rest
        obtain ⟨before,failing,later,split,all,bindings',rest⟩ := rest
        refine ⟨cells::before,failing,later,by rw [split]; rfl,by simpa using all,bindings',?_⟩
        rw [List.length_cons,← Nat.add_assoc,Nat.add_right_comm]
        exact rest
    · exact ⟨[],cells,rows,rfl,by simp,bindings,kept,ended,rfl⟩

theorem converted_values {types : List ValueType} {cells : List Cell} (fits : List.Forall₂ Columns.Accepts types cells) :
    DbValues.values (List.zipWith Columns.converted types cells) = cells.map Cell.value := by
  induction fits with
  | nil => rfl
  | cons _ _ ih =>
    simp only [DbValues.values,List.zipWith_cons_cons,List.map_cons] at ih ⊢
    rw [ih]
    rfl

/-- What a query returns, read under any types, reaches the parameters of another statement cell by cell, except that
an empty blob may arrive as NULL; the copy stops only at a row that the other statement fails on. -/
theorem select_copies {params : DbValues} {types : List ValueType} {cmd ready left : Command q} {ds : Dataset}
    {into : Command t} (columns : q.names ≠ []) (accepted : setup p params cmd = .ok () ready)
    (idle : ready.stmt.cursor = .ready) (returned : select p params types cmd = .ok ds left) (prepared : Ready into)
    (wide : t.paramCount = q.names.length)
    (held : ∀ row ∈ ready.stmt.nextRun.rows, ∀ cell ∈ row.val, Held p cell) :
    Copies p t into.stmt.started [] (ready.stmt.nextRun.rows.map Subtype.val) (executeEach p ds.rows (into,[])) := by
  refine executeEach_copies ?_ prepared []
  rcases select_returned columns accepted idle returned with ⟨none,rfl⟩ | ⟨_,conform,rfl⟩
  · rw [none]
    exact .nil
  · rw [List.forall₂_map_left_iff,List.forall₂_map_left_iff,List.forall₂_map_right_iff,List.forall₂_same]
    intro row member
    exact ⟨converted_values (conform _ (List.mem_map_of_mem member)),row.property.trans wide.symm,held row member⟩

def echoBoth : Query := RoundTrip.echo oneAndNull.names oneAndNull.countable

theorem select_copies_both : ∃ ds left, select .usual [] [] (ofQuery oneAndNull) = .ok ds left ∧
    Copies .usual echoBoth 0 [] [[.integer 1,.null]] (executeEach .usual ds.rows (ofQuery echoBoth,[])) := by
  obtain ⟨ds,left,selected⟩ := oneAndNull_selected
  have held : ∀ row ∈ (ofQuery oneAndNull).stmt.nextRun.rows, ∀ cell ∈ row.val, Held .usual cell := by
    intro row member
    cases List.mem_singleton.mp member
    simp [Held,Cell.value,Value.size,Value.NonNaN,Platform.usual]
  exact ⟨ds,left,selected,select_copies oneAndNull_columns rfl rfl selected (ofQuery_ready echoBoth) rfl held⟩

end Sl3.Copying
