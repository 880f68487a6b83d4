import Sl3.Command
import Mathlib.Data.List.TakeWhile

/-! Parameters bound to a statement that returns them, and read back from its row. -/
namespace Sl3.RoundTrip
open Command
variable {q : Query}

/-- A statement whose only row is its parameters. -/
def Echoes (q : Query) : Prop :=
  ∀ bindings k, (q.program bindings k).rows.map Subtype.val = [bindings.val] ∧
    (q.program bindings k).rc = sqliteDone

def echo (names : List String) (countable : names.length < 2^31) : Query where
  names := names
  countable := countable
  paramCount := names.length
  program := fun bindings _ => .complete [bindings]

theorem echo_echoes (names : List String) (countable : names.length < 2^31) : Echoes (echo names countable) :=
  fun _ _ => ⟨rfl,rfl⟩

def keepRows : Callback (List Columns) := fun columns seen => .ok true (seen ++ [columns])

def Returns (params : DbValues) (columns : Columns) : Prop :=
  columns.cells.length = params.length ∧
    ∀ i (inside : i < params.length), ∃ d, columns.getValue i = .ok d ∧ d.value = params[i].value

/-- The execution throws or delivers the parameters in one row, and no blob is indexed
outside. -/
def Holds (p : Platform) (cmd : Command q) (params : DbValues) : Prop :=
  let result := execute p keepRows params (cmd,[])
  (leftBy result).1.stmt.outside = false ∧
    match result with
    | .error _ _ => True
    | .ok _ (_,seen) => ∃ columns, seen = [columns] ∧ Returns params columns

/-- What the binding of the values needs to be faithful. -/
def Intact (p : Platform) (values : List Value) : Prop :=
  .blob [] ∉ p.accepted values ∧ ((∃ v ∈ values, p.TooBig v) ∨ ∀ v ∈ values, v.size < 2^31)

theorem returns_iff {params : DbValues} {columns : Columns} :
    Returns params columns ↔ columns.cells.map Cell.value = params.values := by
  constructor
  · rintro ⟨size,each⟩
    apply List.ext_getElem
    · simpa [DbValues.values] using size
    · intro i left right
      have inside : i < params.length := by simpa [DbValues.values] using right
      have cell : i < columns.cells.length := by simpa using left
      obtain ⟨d,got,value⟩ := each i inside
      rw [Columns.getValue_eq cell] at got
      cases got
      simpa [DbValues.values] using value
  · intro same
    have size : columns.cells.length = params.length := by
      simpa [DbValues.values] using congrArg List.length same
    refine ⟨size,fun i inside => ?_⟩
    have cell : i < columns.cells.length := by omega
    refine ⟨_,Columns.getValue_eq cell,?_⟩
    have there := List.getElem_of_eq same (by simpa using cell)
    simpa [DbValues.values] using there

theorem deliver_echo (echoes : Echoes q) (stmt : Stmt q) :
    ∃ columns : Columns, columns.cells = stmt.bindings.val ∧
      deliverRun keepRows stmt.nextRun [] = .ok () [columns] := by
  obtain ⟨rows,rc⟩ := echoes stmt.bindings stmt.started
  obtain ⟨row,single,same⟩ := List.map_eq_singleton_iff.mp rows
  refine ⟨q.columns row,same,?_⟩
  simp [deliverRun,Stmt.nextRun,single,rc,deliver,keepRows,closing]

theorem holds_of_rejected {p : Platform} {cmd left : Command q} {params : DbValues} {e : Error}
    (rejected : setup p params cmd = .error e left) : Holds p cmd params ↔ left.stmt.outside = false := by
  simp [Holds,execute_of_rejected _ rejected,leftBy]

theorem holds_of_setup (echoes : Echoes q) {p : Platform} {cmd ready : Command q} {params : DbValues}
    (accepted : setup p params cmd = .ok () ready) (idle : ready.stmt.cursor = .ready) :
    Holds p cmd params ↔
      ready.stmt.outside = false ∧ ready.stmt.bindings.val.map Cell.value = params.values := by
  obtain ⟨columns,cells,delivered⟩ := deliver_echo echoes ready.stmt
  simp [Holds,execute_of_setup _ accepted idle,delivered,withState,leftBy,ran,returns_iff,cells]

theorem holds_of_fits (echoes : Echoes q) {p : Platform} {cmd : Command q} {params : DbValues}
    (valid : cmd.isValid = true) (ready : cmd.stmt.cursor = .ready) (clean : cmd.stmt.outside = false)
    (given : params.length = q.paramCount) (fits : DbValues.Fits cmd.parameters params) :
    Holds p cmd params ↔ .blob [] ∉ p.accepted params.values ∧
      ∀ cells, p.storedAll 0 params.values = some cells → cells.map Cell.value = params.values := by
  let slots := DbValues.assignLoop cmd.parameters params
  have values : slots.values = params.values := DbValues.assignLoop_values fits.length
  have count : 0 + slots.length = q.paramCount := by
    have size := congrArg List.length values
    simp only [DbValues.values,List.length_map] at size
    omega
  obtain ⟨t,idle,_,outside,result⟩ := @Stmt.bindLoop_ready q p cmd.stmt 0 slots ready count
  rw [values] at outside result
  rw [clean,Bool.false_or] at outside
  have started := @setup_fits q p params cmd valid fits
  cases stored : p.storedAll 0 params.values with
  | none =>
    rw [stored] at result
    have rejected : setup p params cmd =
        .error (sqlite3Error sqliteTooBig "") {cmd with parameters := slots,stmt := t} := by
      rw [started]
      simp only [Command.bind,slots] at result ⊢
      rw [result]
    rw [holds_of_rejected rejected]
    simp [outside]
  | some cells =>
    rw [stored] at result
    have accepted : setup p params cmd = .ok () {cmd with parameters := slots,stmt := t} := by
      rw [started]
      simp only [Command.bind,slots] at result ⊢
      rw [result.1]
    have bindings : t.bindings.val = cells := by simpa using result.2
    rw [holds_of_setup echoes accepted idle]
    simp [outside,bindings]

/-- For parameters as many as the statement returns, executing it throws or gives every
value back, with no blob indexed outside, exactly when one of these is so: the
connection is closed; some value does not fit its slot; or no empty blob comes
before the first value that is too big for sqlite, and, unless there is such a
value, no text or blob has 2^31 bytes or more. -/
theorem execute_returns_iff (echoes : Echoes q) {p : Platform} {cmd : Command q} {params : DbValues}
    (ready : cmd.stmt.cursor = .ready) (clean : cmd.stmt.outside = false)
    (slots : cmd.parameters.length = q.paramCount) (given : params.length = q.paramCount)
    (nonNaN : ∀ v ∈ params.values, v.NonNaN) :
    Holds p cmd params ↔
      cmd.isValid = false ∨ ¬ DbValues.Fits cmd.parameters params ∨ Intact p params.values := by
  cases valid : cmd.isValid with
  | false => simp [holds_of_rejected (setup_invalid valid),clean]
  | true =>
    by_cases fits : DbValues.Fits cmd.parameters params
    · rw [holds_of_fits echoes valid ready clean given fits]
      simp only [fits,not_true_eq_false,reduceCtorEq,false_or]
      refine and_congr_right fun nonempty => ?_
      cases stored : p.storedAll 0 params.values with
      | none => simp [Platform.storedAll_none.mp stored]
      | some cells =>
        have none : ¬ ∃ v ∈ params.values, p.TooBig v := by
          rw [← @Platform.storedAll_none p 0,stored]
          simp
        have all : p.accepted params.values = params.values := by
          rw [Platform.accepted,List.takeWhile_eq_self_iff]
          intro v member
          simpa using fun big => none ⟨v,member,big⟩
        rw [all] at nonempty
        simpa [none] using Platform.storedAll_values stored nonNaN nonempty
    · obtain ⟨e,left,rejected,stmt⟩ := @setup_misfit q p params cmd valid (slots.trans given.symm) fits
      rw [holds_of_rejected rejected,stmt]
      simp [clean,fits]

def echoThree : Query := echo ["a","b","c"] (by norm_num)

theorem execute_returns_texts :
    let cmd : Command echoThree := ofQuery _
    Holds .usual cmd [⟨.int,.int 7⟩,⟨.variant,.text [97,0,98]⟩,⟨.text,.text []⟩] := by
  intro cmd
  refine (execute_returns_iff (echo_echoes _ _) rfl rfl rfl rfl ?_).mpr (.inr (.inr ?_))
  · intro v member
    simp only [DbValues.values,List.map_cons,List.map_nil,List.mem_cons,List.not_mem_nil,or_false] at member
    rcases member with rfl | rfl | rfl <;> trivial
  · exact ⟨by decide +kernel,.inr (by decide +kernel)⟩

theorem execute_loses_empty_blob :
    let cmd : Command (echo ["a"] (by norm_num)) := ofQuery _
    let columns : Columns := ⟨["a"],[.null],rfl⟩
    (∃ left, execute Platform.usual keepRows [⟨.blob,.blob []⟩] (cmd,[]) = .ok () (left,[columns]) ∧
        left.stmt.outside = true) ∧
      columns.getValue 0 = .ok ⟨.variant,.null⟩ ∧ ¬ Holds .usual cmd [⟨.blob,.blob []⟩] := by
  intro cmd columns
  have accepted : setup .usual [⟨.blob,.blob []⟩] cmd =
      .ok () {cmd with parameters := [⟨.variant,.blob []⟩],stmt := {cmd.stmt with outside := true}} := rfl
  have executed : execute Platform.usual keepRows [⟨.blob,.blob []⟩] (cmd,[]) = .ok () (_,[columns]) :=
    execute_of_setup [] accepted rfl
  refine ⟨⟨_,executed,rfl⟩,rfl,?_⟩
  rw [holds_of_setup (echo_echoes _ _) accepted rfl]
  simp

end Sl3.RoundTrip
