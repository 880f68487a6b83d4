import Sl3.Command
import Sl3.Library.Machine

/-! The number of parameter slots of a Command over all that its public interface allows,
the reference that `getParameters ()` returns included, and what binding owes to it. -/
namespace Sl3.ParameterCount
open Library Library.Machine Command DbValues
variable {q : Query}

/-- What a Command starts from; a move construction hands all of it on. -/
inductive Constructed : Command q → Prop
  | ofQuery : Constructed (ofQuery q)
  | ofParameters {parameters : DbValues} {cmd : Command q} (made : Command.ofParameters q parameters = .ok cmd) :
      Constructed cmd

/-- The public operations, and the steps of a run with its reset at the end: its callback is
free to call the others in between. -/
inductive Operation where
  | onParameter (idx : Nat) (method : Method DbValue Unit)
  | setParameters (values : DbValues)
  | resetParameters (values : DbValues)
  /-- `getParameters () = row` -/
  | copyAssign (row : DbValues)
  /-- `getParameters () = std::move (row)` -/
  | moveAssign (row : DbValues)
  /-- `getParameters ().swap (row)` -/
  | swap (row : DbValues)
  /-- `DbValues row (std::move (getParameters ()))` -/
  | moveOut
  /-- `row = std::move (getParameters ())` -/
  | moveInto (row : DbValues)
  /-- `getParameters () = std::move (getParameters ())`; the standard leaves open what a vector holds then -/
  | moveSelf (left : DbValues)
  | execute (p : Platform) (parameters : DbValues)
  | stepStatement
  | resetStatement
  | moveConstruct
  | closeDatabase

def after (cmd : Command q) : Operation → Command q
  | .onParameter idx method => leftBy (Command.onParameter idx method cmd)
  | .setParameters values => leftBy (Command.setParameters values cmd)
  | .resetParameters values => leftBy (Command.resetParameters values cmd)
  | .copyAssign row => {cmd with parameters := leftBy (DbValues.copyAssign row cmd.parameters)}
  | .moveAssign row => {cmd with parameters := (leftBy (DbValues.moveAssign (cmd.parameters,row))).1}
  | .swap row => {cmd with parameters := row}
  | .moveOut => {cmd with parameters := []}
  | .moveInto row => {cmd with parameters := (leftBy (DbValues.moveAssign (row,cmd.parameters))).2}
  | .moveSelf left => {cmd with parameters := left}
  | .execute p parameters => leftBy (setup p parameters cmd)
  | .stepStatement => {cmd with stmt := cmd.stmt.step.2}
  | .resetStatement => {cmd with stmt := cmd.stmt.reset}
  | .moveConstruct => ⟨cmd.isValid,cmd.stmt,cmd.parameters⟩
  | .closeDatabase => {cmd with isValid := false}

def step (cmd : Command q) (op : Operation) : Option (Command q) := some (after cmd op)

/-- The operations on the list itself that nothing checks keep its size by their arguments: a swap
with a list of that size, no move out of a list with slots, only an empty list moved onto an
empty one, and none onto itself. -/
def Sized (cmd : Command q) : Operation → Prop
  | .swap row => row.length = cmd.parameters.length
  | .moveAssign row => cmd.parameters = [] → row = []
  | .moveOut => cmd.parameters = []
  | .moveInto row => cmd.parameters = [] ∨ row ≠ [] ∧ ¬ Fits row cmd.parameters
  | .moveSelf _ => False
  | _ => True

/-- As many slots as the statement has parameters. -/
def Counted (cmd : Command q) : Prop := cmd.parameters.length = q.paramCount

theorem copyAssign_length (row cont : DbValues) : (leftBy (DbValues.copyAssign row cont)).length = cont.length := by
  by_cases fits : Fits cont row
  · have types := congrArg List.length (assignLoop_dbtypes cont row)
    rw [copyAssign_of_fits fits]
    simpa [dbtypes,leftBy] using types
  · rw [copyAssign_of_not_fits fits]
    rfl

theorem moveAssign_length (cont row : DbValues) :
    (leftBy (DbValues.moveAssign (cont,row))).1.length = cont.length ↔ (cont = [] → row = []) := by
  by_cases empty : cont = []
  · subst empty
    simp [moveAssign_nil,leftBy]
  · by_cases fits : Fits cont row
    · simp [moveAssign_of_fits fits,leftBy,fits.length,empty]
    · simp [moveAssign_of_not_fits empty fits,leftBy,empty]

theorem moveAssign_source (cont row : DbValues) :
    (leftBy (DbValues.moveAssign (cont,row))).2.length = row.length ↔ row = [] ∨ cont ≠ [] ∧ ¬ Fits cont row := by
  by_cases empty : cont = []
  · subst empty
    simp [moveAssign_nil,leftBy,eq_comm]
  · by_cases fits : Fits cont row
    · simp [moveAssign_of_fits fits,leftBy,fits,eq_comm]
    · simp [moveAssign_of_not_fits empty fits,leftBy,fits,empty]

theorem resetParameters_length (values : DbValues) (cmd : Command q) :
    (leftBy (Command.resetParameters values cmd)).parameters.length = cmd.parameters.length := by
  unfold Command.resetParameters
  split_ifs with same
  · exact same
  · rfl

theorem onParameter_length (idx : Nat) (method : Method DbValue Unit) (cmd : Command q) :
    (leftBy (Command.onParameter idx method cmd)).parameters.length = cmd.parameters.length := by
  unfold Command.onParameter
  cases cmd.parameters[idx]? with
  | none => rfl
  | some d => cases result : method d <;> simp [result,leftBy]

theorem bind_parameters (p : Platform) (cmd : Command q) : (leftBy (Command.bind p cmd)).parameters = cmd.parameters := by
  unfold Command.bind
  cases cmd.stmt.bindLoop p 0 cmd.parameters <;> rfl

theorem setup_length (p : Platform) (parameters : DbValues) (cmd : Command q) :
    (leftBy (setup p parameters cmd)).parameters.length = cmd.parameters.length := by
  rw [setup_eq]
  split_ifs
  · have given := setParameters_length parameters cmd
    cases result : Command.setParameters parameters cmd with
    | ok done next =>
      rw [result] at given
      exact (congrArg List.length (bind_parameters p next)).trans given
    | error e next =>
      rw [result] at given
      exact given
  · exact congrArg List.length (bind_parameters p cmd)
  · rfl

/-- One operation keeps the number of slots exactly under the condition, a list moved onto itself apart. -/
theorem after_length_iff {cmd : Command q} {op : Operation} (other : ∀ left, op ≠ .moveSelf left) :
    (after cmd op).parameters.length = cmd.parameters.length ↔ Sized cmd op := by
  cases op with
  | onParameter idx method => exact iff_of_true (onParameter_length idx method cmd) trivial
  | setParameters values => exact iff_of_true (setParameters_length values cmd) trivial
  | resetParameters values => exact iff_of_true (resetParameters_length values cmd) trivial
  | copyAssign row => exact iff_of_true (copyAssign_length row cmd.parameters) trivial
  | moveAssign row => exact moveAssign_length cmd.parameters row
  | swap row => exact Iff.rfl
  | moveOut => simp [after,Sized,eq_comm]
  | moveInto row => exact moveAssign_source row cmd.parameters
  | moveSelf left => exact absurd rfl (other left)
  | execute p parameters => exact iff_of_true (setup_length p parameters cmd) trivial
  | stepStatement | resetStatement | moveConstruct | closeDatabase => exact iff_of_true rfl trivial

theorem step_counted {cmd next : Command q} {op : Operation} (count : Counted cmd) (sized : Sized cmd op)
    (stepped : step cmd op = some next) : Counted next := by
  have other : ∀ left, op ≠ .moveSelf left := by
    rintro left rfl
    exact sized
  cases stepped
  exact ((after_length_iff other).mpr sized).trans count

theorem constructed_counted {cmd : Command q} (made : Constructed cmd) : Counted cmd := by
  cases made with
  | ofQuery => exact List.length_replicate
  | @ofParameters parameters cmd made =>
    unfold Command.ofParameters at made
    split_ifs at made with count
    cases made
    exact (not_not.mp count).symm

/-- With as many slots as the statement has parameters, binding that returns has given every
parameter its slot's value. -/
theorem bind_all {p : Platform} {cmd ready : Command q} (count : Counted cmd)
    (bound : Command.bind p cmd = .ok () ready) :
    p.storedAll 0 ready.parameters.values = some ready.stmt.bindings.val := by
  by_cases idle : cmd.stmt.cursor = .ready
  · obtain ⟨t,_,_,_,result⟩ := @Stmt.bindLoop_ready q p cmd.stmt 0 cmd.parameters idle
      ((Nat.zero_add _).trans count)
    cases stored : p.storedAll 0 cmd.parameters.values with
    | none =>
      rw [stored] at result
      simp only [Command.bind,result,reduceCtorEq] at bound
    | some cells =>
      rw [stored] at result
      simp only [Command.bind,result.1,EStateM.Result.ok.injEq,true_and] at bound
      subst bound
      simpa [result.2] using stored
  · by_cases none : cmd.parameters = []
    · have zero : q.paramCount = 0 := by rw [← count,none]; rfl
      have unbound : cmd.stmt.bindings.val = [] :=
        List.length_eq_zero_iff.mp (cmd.stmt.bindings.property.trans zero)
      simp only [Command.bind,none,Stmt.bindLoop,EStateM.Result.ok.injEq,true_and] at bound
      subst bound
      simp [values,Platform.storedAll,unbound]
    · obtain ⟨left,failed⟩ := @bind_busy q p cmd idle none
      cases failed.symm.trans bound

theorem setup_binds {p : Platform} {parameters : DbValues} {cmd ready : Command q}
    (count : Counted cmd) (accepted : setup p parameters cmd = .ok () ready) :
    p.storedAll 0 ready.parameters.values = some ready.stmt.bindings.val := by
  rw [setup_eq] at accepted
  split_ifs at accepted
  · have size := setParameters_length parameters cmd
    cases result : Command.setParameters parameters cmd with
    | ok done next =>
      rw [result] at size
      simp only [result] at accepted
      exact bind_all (size.trans count) accepted
    | error e next => simp [result] at accepted
  · exact bind_all count accepted

/-- In every run whose operations on the list itself keep its size, a Command has a slot for
each parameter of its statement, and an execute that gets past binding has bound them all. -/
theorem reaches_count {start cmd : Command q} (made : Constructed start) (run : Reaches step Sized start cmd) :
    Counted cmd ∧ ∀ p parameters ready, setup p parameters cmd = .ok () ready →
      p.storedAll 0 ready.parameters.values = some ready.stmt.bindings.val := by
  have count : Counted cmd := run.invariant (constructed_counted made) step_counted
  exact ⟨count,fun _ _ _ accepted => setup_binds count accepted⟩

theorem one_countable : ["?1"].length < 2^31 := by norm_num

def oneParameter : Query where
  names := ["?1"]
  countable := one_countable
  paramCount := 1
  program := fun bindings _ => .complete [bindings]

theorem reaches_count_swapped : Counted (⟨true,.prepared oneParameter,[⟨.int,.int 2⟩]⟩ : Command oneParameter) ∧
    (Stmt.put 0 (.integer 2) (.prepared oneParameter)).bindings.val = [.integer 2] := by
  have run : Reaches step Sized (ofQuery oneParameter) _ := Reaches.start.next (.swap [⟨.int,.int 2⟩]) rfl rfl
  obtain ⟨count,binds⟩ := reaches_count .ofQuery run
  have bound := binds .usual [] ⟨true,Stmt.put 0 (.integer 2) (.prepared oneParameter),[⟨.int,.int 2⟩]⟩ rfl
  exact ⟨count,(Option.some.inj bound).symm⟩

/-- A swap with an empty list leaves no slot, so that the next execute takes what an earlier one bound. -/
theorem swap_loses_slots : ∃ cmd ready : Command oneParameter,
    Machine.runAll step (ofQuery oneParameter)
      [.execute .usual [⟨.int,.int 1⟩],.stepStatement,.resetStatement,.swap []] = some cmd ∧
    ¬ Counted cmd ∧ setup .usual [] cmd = .ok () ready ∧ ready.parameters = [] ∧
    ready.stmt.bindings.val = [.integer 1] :=
  ⟨_,_,rfl,Nat.zero_ne_one,rfl,rfl,rfl⟩

end Sl3.ParameterCount
