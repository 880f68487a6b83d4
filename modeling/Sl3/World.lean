import Sl3.Command
import Mathlib.Logic.Function.Basic

/-! Databases, Commands and what they share: connections that are opened and closed,
statements that are prepared and finalized, and the step loops that have not returned.
Between two steps of the innermost loop runs code of the user. -/
namespace Sl3

inductive SqliteCall where
  | bind
  | step
  | reset
  | bindParameterName
  | finalize
deriving DecidableEq

/-- A statement handed to sqlite, and whether it was live: prepared on a connection that
was open, and not finalized before. -/
structure Use where
  call : SqliteCall
  stmt : Nat
  live : Bool

/-- A Command as an object: a move leaves it without connection, statement and parameters. -/
structure CommandObject where
  connection : Option Nat
  stmt : Option Nat
  parameters : DbValues
  connected : connection = none → stmt = none

def CommandObject.movedFrom : CommandObject := ⟨none,none,[],fun _ => rfl⟩

structure Statement where
  query : Query
  stmt : Stmt query

def emptyQuery : Query := .table [] (by norm_num) []

/-- A call of `execute` inside its loop: the Command whose `_stmt` it steps, and the
statement in its reset guard. -/
structure Loop where
  command : Nat
  guard : Nat

/-- Objects and handles are numbered as they come into being, and no number is used twice.
A connection is true while its `sl3db` is not null; a handle is the connection it was
prepared on. The loops are innermost first; `stepping` when the innermost one is about to
step, else code of the user runs. `broken` once something dead was used. -/
structure World where
  next : Nat := 0
  connections : Nat → Bool := fun _ => false
  handles : Nat → Option Nat := fun _ => none
  finalized : Nat → Bool := fun _ => false
  statements : Nat → Statement := fun _ => ⟨emptyQuery,.prepared emptyQuery⟩
  databases : Nat → Option Nat := fun _ => none
  commands : Nat → Option CommandObject := fun _ => none
  loops : List Loop := []
  stepping : Bool := false
  broken : Bool := false
  log : List Use := []

namespace World

def live (w : World) (id : Nat) : Bool :=
  match w.handles id with
  | some k => w.connections k && !w.finalized id
  | none => false

theorem live_iff {w : World} {id : Nat} :
    w.live id = true ↔ ∃ k, w.handles id = some k ∧ w.connections k = true ∧ w.finalized id = false := by
  unfold live
  cases w.handles id <;> simp

/-- A statement is handed to sqlite; with one that is dead anything may follow. -/
def use (call : SqliteCall) (id : Nat) (w : World) : World where
  __ := w
  log := w.log ++ [⟨call,id,w.live id⟩]
  broken := w.broken || !w.live id

def finalize (id : Nat) (w : World) : World where
  __ := w.use .finalize id
  finalized := Function.update w.finalized id true

def openStatements (w : World) (k : Nat) : List Nat :=
  (List.range w.next).filter fun id => w.handles id = some k ∧ w.finalized id = false

end World

/-- What is left open about sqlite: which of its statements a connection names first. -/
structure Sqlite extends Platform where
  nextStmt : World → Nat → Option Nat
  nextStmt_open : ∀ {w k id}, nextStmt w k = some id → id ∈ w.openStatements k
  nextStmt_none : ∀ {w k}, nextStmt w k = none → w.openStatements k = []

def Sqlite.usual : Sqlite where
  toPlatform := .usual
  nextStmt := fun w k => (w.openStatements k).getLast?
  nextStmt_open := List.mem_of_getLast?
  nextStmt_none := List.getLast?_eq_none_iff.mp

/-- What `execute` does with the parameters it gets. -/
def Command.given {q : Query} (parameters : DbValues) : Method (Command q) Unit := fun cmd =>
  if parameters.length > 0 then Command.setParameters parameters cmd else .ok () cmd

/-- What `sqlite3_prepare_v2` makes of a text: an error, a null statement when there is
nothing but space and comments in it, or a statement. -/
inductive Compiled where
  | error
  | empty
  | statement (q : Query)

namespace World
variable (p : Sqlite)

/-- The loop of `Connection::close`, for at most so many statements. -/
def finalizeAll (k : Nat) : Nat → World → World
  | 0,w => w
  | n + 1,w =>
    match p.nextStmt w k with
    | some id => finalizeAll k n (w.finalize id)
    | none => w

def close (k : Nat) (w : World) : World :=
  if w.connections k then
    let w := w.finalizeAll p k (w.openStatements k).length
    {w with connections := Function.update w.connections k false}
  else w

def shared (w : World) (k : Nat) : Bool :=
  (List.range w.next).any fun i =>
    w.databases i = some k ∨ (w.commands i).bind CommandObject.connection = some k

/-- An owner of the connection is gone; the last one destroys it. -/
def release (k : Nat) (w : World) : World := if w.shared k then w else w.close p k

def openDatabase (w : World) : World where
  __ := w
  next := w.next + 1
  connections := Function.update w.connections w.next true
  databases := Function.update w.databases w.next (some w.next)

/-- `Database::Database (Database&&)`: the other one gets a connection that is not valid. -/
def moveDatabase (d : Nat) (w : World) : Option World :=
  (w.databases d).map fun k => {w with
    next := w.next + 1
    databases := Function.update (Function.update w.databases w.next (some k)) d (some w.next)}

def destroyDatabase (d : Nat) (w : World) : Option World :=
  (w.databases d).map fun k =>
    let w := w.close p k
    release p k {w with databases := Function.update w.databases d none}

def addHandle (k : Nat) (q : Query) (w : World) : World where
  __ := w
  next := w.next + 1
  handles := Function.update w.handles w.next (some k)
  statements := Function.update w.statements w.next ⟨q,.prepared q⟩

def addCommand (cmd : CommandObject) (w : World) : World where
  __ := w
  next := w.next + 1
  commands := Function.update w.commands w.next (some cmd)

/-- `Database::prepare`, without parameters or with some: a constructor that throws after
`createStmt` returned does not run `~Command`. -/
def prepare (d : Nat) (sql : Compiled) (parameters : Option DbValues) (w : World) : Option World :=
  (w.databases d).map fun k =>
    if w.connections k then
      match sql with
      | .error => w
      | .empty =>
        let slots := parameters.getD []
        if slots.length = 0 then w.addCommand ⟨some k,none,slots,nofun⟩ else w
      | .statement q =>
        let slots := parameters.getD (Command.createParameters q)
        let w' := w.addHandle k q
        if slots.length = q.paramCount then w'.addCommand ⟨some k,some w.next,slots,nofun⟩ else w'
    else w

def moveCommand (c : Nat) (w : World) : Option World :=
  (w.commands c).map fun cmd =>
    let w := w.addCommand cmd
    {w with commands := Function.update w.commands c (some .movedFrom)}

def destroyCommand (c : Nat) (w : World) : Option World :=
  (w.commands c).map fun cmd =>
    let gone (w : World) : World := {w with commands := Function.update w.commands c none}
    match cmd.connection,cmd.stmt with
    | some k,some id => release p k (gone (if w.connections k then w.finalize id else w))
    | some k,none => release p k (gone w)
    | none,_ => gone w

/-- `setParameters`, `resetParameters` and what a reference to the parameters allows. -/
def editParameters (c : Nat) (parameters : DbValues) (w : World) : Option World :=
  (w.commands c).map fun cmd =>
    {w with commands := Function.update w.commands c (some {cmd with parameters})}

def getParameterNames (c : Nat) (w : World) : Option World :=
  (w.commands c).map fun cmd =>
    match cmd.stmt with
    | some id => if cmd.parameters.length = 0 then w else w.use .bindParameterName id
    | none => w

def setCommand (c : Nat) (cmd : CommandObject) (w : World) : World :=
  {w with commands := Function.update w.commands c (some cmd)}

def setStatement {q : Query} (id : Nat) (stmt : Stmt q) (w : World) : World :=
  {w with statements := Function.update w.statements id ⟨q,stmt⟩}

/-- The parameters in their slots, and the bind loop over them; one entry of the log stands
for its calls. -/
def bindAll (c : Nat) (cmd : CommandObject) (id : Nat) (parameters : DbValues) (w : World) : World :=
  if parameters.length = 0 then w.setCommand c {cmd with parameters}
  else (w.setCommand c {cmd with parameters}).use .bind id

theorem bindAll_live (c : Nat) (cmd : CommandObject) (id : Nat) (parameters : DbValues) (w : World) (i : Nat) :
    (w.bindAll c cmd id parameters).live i = w.live i := by
  unfold bindAll
  split_ifs <;> rfl

theorem bindAll_commands (c : Nat) (cmd : CommandObject) (id : Nat) (parameters : DbValues) (w : World) :
    (w.bindAll c cmd id parameters).commands c = some {cmd with parameters} := by
  unfold bindAll
  split_ifs <;> exact Function.update_self _ _ _

def push (c id : Nat) (w : World) : World := {w with loops := ⟨c,id⟩::w.loops,stepping := true}

def enter (c : Nat) (cmd : CommandObject) (k id : Nat) (parameters : DbValues) (w : World) : World :=
  if w.connections k then
    match Command.given parameters ⟨true,(w.statements id).stmt,cmd.parameters⟩ with
    | .error _ left => w.setCommand c {cmd with parameters := left.parameters}
    | .ok _ set =>
      match Command.bind p.toPlatform set with
      | .error _ left => (w.bindAll c cmd id set.parameters).setStatement id left.stmt
      | .ok _ ready => ((w.bindAll c cmd id set.parameters).setStatement id ready.stmt).push c id
  else w

/-- `execute`, and `select` with it: on a null statement binding or the first step is a
misuse, and after a move there is no Connection to ask. -/
def execute (c : Nat) (parameters : DbValues) (w : World) : Option World :=
  (w.commands c).map fun cmd =>
    match cmd.connection,cmd.stmt with
    | some k,some id => w.enter p c cmd k id parameters
    | some k,none =>
      let left := leftBy (Command.setup p.toPlatform parameters
        ⟨w.connections k,.prepared emptyQuery,cmd.parameters⟩)
      w.setCommand c {cmd with parameters := left.parameters}
    | none,_ => {w with broken := true}

def pop (loop : Loop) (outer : List Loop) (w : World) : World :=
  {(w.use .reset loop.guard).setStatement loop.guard (w.statements loop.guard).stmt.reset with
    loops := outer
    stepping := false}

/-- `sqlite3_step (_stmt)` in the innermost loop. The `_stmt` of a Command that was moved
from is null; that of one that was destroyed may be anything. -/
def stepLoop (w : World) : Option World :=
  match w.loops with
  | [] => none
  | loop::outer =>
    match w.commands loop.command with
    | none => some {w with log := w.log ++ [⟨.step,loop.guard,false⟩],broken := true}
    | some cmd =>
      match cmd.stmt with
      | none => some (w.pop loop outer)
      | some id =>
        let stepped := (w.statements id).stmt.step
        let w := (w.use .step id).setStatement id stepped.2
        if stepped.1 = sqliteRow then some {w with stepping := false} else some (w.pop loop outer)

def nextRow (w : World) : Option World :=
  match w.loops with
  | [] => none
  | _::_ => some {w with stepping := true}

def leave (w : World) : Option World :=
  match w.loops with
  | [] => none
  | loop::outer => some (w.pop loop outer)

theorem nextRow_cases {w u : World} (asked : w.nextRow = some u) :
    ∃ loop outer, w.loops = loop::outer ∧ u = {w with stepping := true} := by
  unfold nextRow at asked
  cases loops : w.loops with
  | nil => simp [loops] at asked
  | cons loop outer => exact ⟨loop,outer,rfl,by simpa [loops] using asked.symm⟩

theorem leave_cases {w u : World} (left : w.leave = some u) :
    ∃ loop outer, w.loops = loop::outer ∧ u = w.pop loop outer := by
  unfold leave at left
  cases loops : w.loops with
  | nil => simp [loops] at left
  | cons loop outer => exact ⟨loop,outer,rfl,by simpa [loops] using left.symm⟩

/-- The loop steps what its Command holds now, which need not be what it has to reset. -/
theorem stepLoop_cases {w u : World} (stepped : w.stepLoop = some u) :
    ∃ loop outer, w.loops = loop::outer ∧
      ((w.commands loop.command = none ∧ u = {w with log := w.log ++ [⟨.step,loop.guard,false⟩],broken := true}) ∨
        ∃ cmd, w.commands loop.command = some cmd ∧
          ((cmd.stmt = none ∧ u = w.pop loop outer) ∨
            ∃ id used, cmd.stmt = some id ∧ used = (w.use .step id).setStatement id (w.statements id).stmt.step.2 ∧
              (u = {used with stepping := false} ∨ u = used.pop loop outer))) := by
  unfold stepLoop at stepped
  cases loops : w.loops with
  | nil => simp [loops] at stepped
  | cons loop outer =>
    refine ⟨loop,outer,rfl,?_⟩
    simp only [loops] at stepped
    cases command : w.commands loop.command with
    | none => exact .inl ⟨rfl,by simpa [command] using stepped.symm⟩
    | some cmd =>
      refine .inr ⟨cmd,rfl,?_⟩
      simp only [command] at stepped
      cases stmt : cmd.stmt with
      | none => exact .inl ⟨rfl,by simpa [stmt] using stepped.symm⟩
      | some id =>
        refine .inr ⟨id,_,rfl,rfl,?_⟩
        simp only [stmt] at stepped
        split_ifs at stepped
        · exact .inl (Option.some.inj stepped).symm
        · exact .inr (Option.some.inj stepped).symm

inductive Label where
  | openDatabase
  | moveDatabase (d : Nat)
  | destroyDatabase (d : Nat)
  | prepare (d : Nat) (sql : Compiled) (parameters : Option DbValues)
  | moveCommand (c : Nat)
  | destroyCommand (c : Nat)
  | editParameters (c : Nat) (parameters : DbValues)
  | getParameterNames (c : Nat)
  | execute (c : Nat) (parameters : DbValues)
  | step
  | next
  | leave

def act (w : World) : Label → Option World
  | .openDatabase => some w.openDatabase
  | .moveDatabase d => w.moveDatabase d
  | .destroyDatabase d => w.destroyDatabase p d
  | .prepare d sql parameters => w.prepare d sql parameters
  | .moveCommand c => w.moveCommand c
  | .destroyCommand c => w.destroyCommand p c
  | .editParameters c parameters => w.editParameters c parameters
  | .getParameterNames c => w.getParameterNames c
  | .execute c parameters => w.execute p c parameters
  | .step => w.stepLoop
  | .next => w.nextRow
  | .leave => w.leave

def Label.ofLoop : Label → Bool
  | .step => true
  | _ => false

def step (w : World) (label : Label) : Option World :=
  if w.broken = false ∧ w.stepping = label.ofLoop then w.act p label else none

variable {p} in
theorem step_acts {w u : World} {label : Label} (stepped : w.step p label = some u) :
    w.broken = false ∧ w.stepping = label.ofLoop ∧ w.act p label = some u := by
  unfold step at stepped
  split_ifs at stepped with enabled
  exact ⟨enabled.1,enabled.2,stepped⟩

section close
variable {p} {k id : Nat} {w : World}

theorem mem_openStatements :
    id ∈ w.openStatements k ↔ id < w.next ∧ w.handles id = some k ∧ w.finalized id = false := by
  simp [openStatements]

theorem openStatements_finalize : (w.finalize id).openStatements k = (w.openStatements k).filter (· ≠ id) := by
  simp only [openStatements,List.filter_filter]
  apply List.filter_congr
  intro i _
  by_cases same : i = id
  · simp [same,finalize]
  · simp [same,finalize,use]

theorem finalizeAll_open {n : Nat} (enough : (w.openStatements k).length ≤ n) :
    (w.finalizeAll p k n).openStatements k = [] := by
  induction n generalizing w with
  | zero => exact List.length_eq_zero_iff.mp (Nat.le_zero.mp enough)
  | succ n ih =>
    unfold finalizeAll
    cases first : p.nextStmt w k with
    | none => exact p.nextStmt_none first
    | some id =>
      have fewer : ((w.finalize id).openStatements k).length < (w.openStatements k).length := by
        rw [openStatements_finalize]
        exact List.length_filter_lt_length_iff_exists.mpr ⟨id,p.nextStmt_open first,by simp⟩
      exact ih (by omega)

theorem close_open (valid : w.connections k = true) : (w.close p k).openStatements k = [] := by
  have none := @finalizeAll_open p k w _ (Nat.le_refl _)
  rw [close,if_pos valid]
  exact none

theorem release_closed (closed : w.connections k = false) : w.release p k = w := by
  unfold release
  split_ifs
  · rfl
  · rw [close,if_neg (by simp [closed])]

structure Swept (k : Nat) (w u : World) : Prop where
  rest : u = {w with finalized := u.finalized,log := u.log}
  others : ∀ id, w.handles id ≠ some k → u.finalized id = w.finalized id
  logged : ∃ uses, u.log = w.log ++ uses ∧ ∀ use ∈ uses, use.live = true

theorem finalizeAll_swept (n : Nat) (valid : w.connections k = true) : Swept k w (w.finalizeAll p k n) := by
  induction n generalizing w with
  | zero => exact ⟨rfl,fun _ _ => rfl,[],by simp [finalizeAll],by simp⟩
  | succ n ih =>
    unfold finalizeAll
    cases first : p.nextStmt w k with
    | none => exact ⟨rfl,fun _ _ => rfl,[],by simp,by simp⟩
    | some id =>
      obtain ⟨_,handle,fresh⟩ := mem_openStatements.mp (p.nextStmt_open first)
      have live : w.live id = true := live_iff.mpr ⟨k,handle,valid,fresh⟩
      obtain ⟨rest,others,uses,log,sound⟩ := @ih (w.finalize id) valid
      have unbroken : (w.finalize id).broken = w.broken := by simp [finalize,use,live]
      refine ⟨?_,?_,⟨.finalize,id,true⟩::uses,?_,?_⟩
      · rw [unbroken] at rest
        exact rest
      · intro other elsewhere
        have differ : other ≠ id := by
          rintro rfl
          exact elsewhere handle
        exact (others other elsewhere).trans (Function.update_of_ne differ _ _)
      · rw [log]
        simp [finalize,use,live]
      · intro use member
        rcases List.mem_cons.mp member with rfl | later
        · rfl
        · exact sound use later

theorem close_rest (p : Sqlite) (k : Nat) (w : World) : w.close p k = {w with
    connections := Function.update w.connections k false
    finalized := (w.close p k).finalized
    log := (w.close p k).log} := by
  unfold close
  split_ifs with isOpen
  · have rest := (@finalizeAll_swept p k w (w.openStatements k).length isOpen).rest
    simp only
    generalize w.finalizeAll p k (w.openStatements k).length = v at rest
    rw [rest]
  · have closed : Function.update w.connections k (w.connections k) = w.connections := Function.update_eq_self k _
    rw [Bool.eq_false_iff.mpr isOpen] at closed
    rw [closed]

end close

end World
end Sl3
