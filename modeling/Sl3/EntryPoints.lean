import Sl3.World

/-! Entry points of Database and Command, up to the first step of a loop: which functions of
sqlite they call on the connection, what they throw, and where they dereference a pointer. -/
namespace Sl3.EntryPoints
open World
variable {p : Sqlite} {w u : World} {c : Nat}

/-- Functions of sqlite that the log of the World has no entry for: those that take a connection,
and the count of parameters. -/
inductive SqliteFunction where
  | prepare
  | bindParameterCount
  | exec
  | extendedErrcode
  | errmsg
  | totalChanges
  | changes
  | lastInsertRowid

/-- Why a function is left early: an exception, or a null pointer that is dereferenced. -/
inductive Stop where
  | threw (thrown : Thrown)
  | undefined

structure Progress where
  world : World
  calls : List SqliteFunction

abbrev Routine := EStateM Stop Progress

/-- What sqlite answers: a number or result code, and a message. -/
abbrev Answer := SqliteFunction → World → Int × String

namespace Routine

def calling (answer : Answer) (f : SqliteFunction) : Routine (Int × String) := fun s =>
  .ok (answer f s.world) {s with calls := s.calls ++ [f]}

def throwing {α : Type} (e : Error) : Routine α := throw (.threw (.sl3 e))

/-- The world after an operation that the object exists for. -/
def becoming (next : World → Option World) : Routine Unit := fun s =>
  match next s.world with
  | some world => .ok () {s with world}
  | none => .error .undefined s

def databaseOf (d : Nat) : Routine Nat := fun s =>
  match s.world.databases d with
  | some k => .ok k s
  | none => .error .undefined s

def commandOf (c : Nat) : Routine CommandObject := fun s =>
  match s.world.commands c with
  | some cmd => .ok cmd s
  | none => .error .undefined s

/-- `_connection->`; the pointer of a Command may be empty. -/
def dereference (connection : Option Nat) : Routine Nat :=
  match connection with
  | some k => pure k
  | none => throw .undefined

def ensureValid (k : Nat) : Routine Unit := do
  if (← get).world.connections k then pure () else throwing errNoConnection

end Routine

open Routine

def sqlCount : Compiled → Nat
  | .statement q => q.paramCount
  | _ => 0

section entries
variable (p : Sqlite) (answer : Answer)

def createStmt (k : Nat) (sql : Compiled) : Routine Unit := do
  -- it is `db == nullptr` here that `ensureValid` asks for
  ensureValid k
  let (rc,_) ← calling answer .prepare
  match sql with
  | .error =>
    let (_,errmsg) ← calling answer .errmsg
    throwing (sqlite3Error rc errmsg)
  | _ => pure ()

namespace OnCommand

/-- Up to the first step of the loop; from there on the steps are those of the world. -/
def execute (c : Nat) (parameters : DbValues) : Routine Unit := do
  let cmd ← commandOf c
  let k ← dereference cmd.connection
  ensureValid k
  let w := (← get).world
  becoming (World.execute p c parameters)
  match cmd.stmt with
  | some id =>
    match Command.setup p.toPlatform parameters ⟨true,(w.statements id).stmt,cmd.parameters⟩ with
    | .ok _ _ => pure ()
    | .error e _ => throwing e
  | none =>
    match Command.setup p.toPlatform parameters ⟨true,.prepared emptyQuery,cmd.parameters⟩ with
    | .ok _ _ =>
      let (_,errmsg) ← calling answer .errmsg
      throwing (sqlite3Error sqliteMisuse errmsg)
    | .error e _ => throwing e

/-- `execute (RowCallback&, const DbValues&)`, with what `onStart` throws, if it does. -/
def executeRows (c : Nat) (started : Option Thrown) (parameters : DbValues) : Routine Unit :=
  match started with
  | some thrown => throw (.threw thrown)
  | none => execute p answer c parameters

def select (c : Nat) (parameters : DbValues) : Routine Unit := execute p answer c parameters

def getParameterNames (c : Nat) : Routine Unit := becoming (World.getParameterNames c)

end OnCommand

namespace OnDatabase

/-- The constructors of Command are called here; the result is the new Command. -/
def prepare (d : Nat) (sql : Compiled) (parameters : Option DbValues) : Routine Nat := do
  let k ← databaseOf d
  createStmt answer k sql
  let _ ← calling answer .bindParameterCount
  becoming (World.prepare d sql parameters)
  match parameters with
  | some values => if sqlCount sql ≠ values.length then throwing (errTypeMisMatch "Incorrect parameter count")
  | none => pure ()
  return (← get).world.next - 1

def execute (d : Nat) : Routine Unit := do
  let k ← databaseOf d
  ensureValid k
  let (rc,dbMsg) ← calling answer .exec
  if rc ≠ sqliteOk then throwing (sqlite3Error rc dbMsg)

def executeRows (d : Nat) (sql : Compiled) (started : Option Thrown) : Routine Unit := do
  let c ← prepare answer d sql none
  OnCommand.executeRows p answer c started []

def executeCallback (d : Nat) (sql : Compiled) : Routine Unit := do
  let c ← prepare answer d sql none
  OnCommand.execute p answer c []

def select (d : Nat) (sql : Compiled) : Routine Unit := do
  let c ← prepare answer d sql none
  OnCommand.select p answer c []

def selectValue (d : Nat) (sql : Compiled) : Routine Unit := do
  let c ← prepare answer d sql none
  OnCommand.execute p answer c []

/-- The getters, each with the function of sqlite that it asks. -/
def getProperty (f : SqliteFunction) (d : Nat) : Routine (Int × String) := do
  let k ← databaseOf d
  ensureValid k
  calling answer f

def getMostRecentErrCode (d : Nat) : Routine (Int × String) := getProperty answer .extendedErrcode d
def getMostRecentErrMsg (d : Nat) : Routine (Int × String) := getProperty answer .errmsg d
def getTotalChanges (d : Nat) : Routine (Int × String) := getProperty answer .totalChanges d
def getRecentlyChanged (d : Nat) : Routine (Int × String) := getProperty answer .changes d
def getLastInsertRowid (d : Nat) : Routine (Int × String) := getProperty answer .lastInsertRowid d

/-- The constructor of Transaction executes BEGIN TRANSACTION. -/
def beginTransaction (d : Nat) : Routine Unit := execute answer d

end OnDatabase

end entries

/-- The entry points; overloads that differ in the C++ type of an argument only are one, and the
types that a select asks for are looked at in its rows only. -/
inductive Entry where
  | execute (d : Nat)
  | executeRows (d : Nat) (sql : Compiled) (started : Option Thrown)
  | executeCallback (d : Nat) (sql : Compiled)
  | select (d : Nat) (sql : Compiled)
  | selectValue (d : Nat) (sql : Compiled)
  | prepare (d : Nat) (sql : Compiled) (parameters : Option DbValues)
  | getMostRecentErrCode (d : Nat)
  | getMostRecentErrMsg (d : Nat)
  | getTotalChanges (d : Nat)
  | getRecentlyChanged (d : Nat)
  | getLastInsertRowid (d : Nat)
  | beginTransaction (d : Nat)
  | executeCommand (c : Nat) (parameters : DbValues)
  | executeCommandRows (c : Nat) (started : Option Thrown) (parameters : DbValues)
  | selectCommand (c : Nat) (parameters : DbValues)
  | getParameterNames (c : Nat)

inductive Place where
  | database (d : Nat)
  | command (c : Nat)

namespace Entry

def place : Entry → Place
  | execute d | executeRows d _ _ | executeCallback d _ | select d _ | selectValue d _ | prepare d _ _
  | getMostRecentErrCode d | getMostRecentErrMsg d | getTotalChanges d | getRecentlyChanged d
  | getLastInsertRowid d | beginTransaction d => .database d
  | executeCommand c _ | executeCommandRows c _ _ | selectCommand c _ | getParameterNames c => .command c

def run (p : Sqlite) (answer : Answer) : Entry → Routine Unit
  | execute d => OnDatabase.execute answer d
  | executeRows d sql started => OnDatabase.executeRows p answer d sql started
  | executeCallback d sql => OnDatabase.executeCallback p answer d sql
  | select d sql => OnDatabase.select p answer d sql
  | selectValue d sql => OnDatabase.selectValue p answer d sql
  | prepare d sql parameters => discard (OnDatabase.prepare answer d sql parameters)
  | getMostRecentErrCode d => discard (OnDatabase.getMostRecentErrCode answer d)
  | getMostRecentErrMsg d => discard (OnDatabase.getMostRecentErrMsg answer d)
  | getTotalChanges d => discard (OnDatabase.getTotalChanges answer d)
  | getRecentlyChanged d => discard (OnDatabase.getRecentlyChanged answer d)
  | getLastInsertRowid d => discard (OnDatabase.getLastInsertRowid answer d)
  | beginTransaction d => OnDatabase.beginTransaction answer d
  | executeCommand c parameters => OnCommand.execute p answer c parameters
  | executeCommandRows c started parameters => OnCommand.executeRows p answer c started parameters
  | selectCommand c parameters => OnCommand.select p answer c parameters
  | getParameterNames c => OnCommand.getParameterNames c

end Entry

section routines
variable {α β : Type} {answer : Answer} {s t : Progress} {stop : Stop} {k d : Nat} {cmd : CommandObject}

theorem goes_on {x : Routine α} {f : α → Routine β} {a : α} (went : x s = .ok a t) : (x >>= f) s = f a t := by
  simp only [Bind.bind,EStateM.bind,went]

theorem stops_at {x : Routine α} {f : α → Routine β} (stopped : x s = .error stop t) : (x >>= f) s = .error stop t := by
  simp only [Bind.bind,EStateM.bind,stopped]

theorem databaseOf_there (there : s.world.databases d = some k) : databaseOf d s = .ok k s := by
  simp only [databaseOf,there]

theorem commandOf_there (there : s.world.commands c = some cmd) : commandOf c s = .ok cmd s := by
  simp only [commandOf,there]

theorem ensureValid_closed (closed : s.world.connections k = false) :
    ensureValid k s = .error (.threw (.sl3 errNoConnection)) s := by
  have asked : (get : Routine Progress) s = .ok s s := rfl
  unfold ensureValid
  rw [goes_on asked]
  simp only [closed,Bool.false_eq_true,if_false]
  rfl

theorem createStmt_closed (closed : s.world.connections k = false) (sql : Compiled) :
    createStmt answer k sql s = .error (.threw (.sl3 errNoConnection)) s :=
  stops_at (ensureValid_closed closed)

theorem prepare_closed (there : s.world.databases d = some k) (closed : s.world.connections k = false) (sql : Compiled)
    (parameters : Option DbValues) :
    OnDatabase.prepare answer d sql parameters s = .error (.threw (.sl3 errNoConnection)) s := by
  unfold OnDatabase.prepare
  rw [goes_on (databaseOf_there there)]
  exact stops_at (createStmt_closed closed sql)

theorem execute_closed (there : s.world.databases d = some k) (closed : s.world.connections k = false) :
    OnDatabase.execute answer d s = .error (.threw (.sl3 errNoConnection)) s := by
  unfold OnDatabase.execute
  rw [goes_on (databaseOf_there there)]
  exact stops_at (ensureValid_closed closed)

theorem getProperty_closed (there : s.world.databases d = some k) (closed : s.world.connections k = false) (f : SqliteFunction) :
    OnDatabase.getProperty answer f d s = .error (.threw (.sl3 errNoConnection)) s := by
  unfold OnDatabase.getProperty
  rw [goes_on (databaseOf_there there)]
  exact stops_at (ensureValid_closed closed)

theorem discard_stops {x : Routine α} (stopped : x s = .error stop t) : (discard x) s = .error stop t := by
  simp only [discard,Functor.mapConst,EStateM.map,stopped,Function.comp]

theorem command_closed (there : s.world.commands c = some cmd) (shares : cmd.connection = some k)
    (closed : s.world.connections k = false) (parameters : DbValues) :
    OnCommand.execute p answer c parameters s = .error (.threw (.sl3 errNoConnection)) s := by
  have pointed : dereference cmd.connection s = .ok k s := by
    rw [shares]
    rfl
  unfold OnCommand.execute
  rw [goes_on (commandOf_there there),goes_on pointed]
  exact stops_at (ensureValid_closed closed)

theorem command_moved (there : s.world.commands c = some cmd) (empty : cmd.connection = none) (parameters : DbValues) :
    OnCommand.execute p answer c parameters s = .error .undefined s := by
  have pointed : dereference cmd.connection s = .error .undefined s := by
    rw [empty]
    rfl
  unfold OnCommand.execute
  rw [goes_on (commandOf_there there)]
  exact stops_at pointed

theorem ensureValid_open (isOpen : s.world.connections k = true) : ensureValid k s = .ok () s := by
  have asked : (get : Routine Progress) s = .ok s s := rfl
  unfold ensureValid
  rw [goes_on asked,if_pos isOpen]
  rfl

theorem createStmt_open (isOpen : s.world.connections k = true) {sql : Compiled} (compiled : sql ≠ .error) :
    createStmt answer k sql s = .ok () {s with calls := s.calls ++ [.prepare]} := by
  unfold createStmt
  rw [goes_on (ensureValid_open isOpen)]
  cases sql with
  | error => exact absurd rfl compiled
  | empty => rfl
  | statement q => rfl

theorem createStmt_error (isOpen : s.world.connections k = true) : ∃ stop calls,
    createStmt answer k .error s = .error stop {s with calls} := by
  unfold createStmt
  rw [goes_on (ensureValid_open isOpen)]
  exact ⟨_,_,rfl⟩

theorem becoming_there {next : World → Option World} (there : next s.world = some u) :
    becoming next s = .ok () {s with world := u} := by
  simp only [becoming,there]

/-- The routine leaves what the step of the World does. -/
theorem prepare_world (there : w.databases d = some k) (sql : Compiled) (parameters : Option DbValues) :
    w.prepare d sql parameters = some (leftBy (OnDatabase.prepare answer d sql parameters ⟨w,[]⟩)).world := by
  obtain ⟨v,prepared⟩ : ∃ v, w.prepare d sql parameters = some v := by simp [World.prepare,there]
  have connected : databaseOf d ⟨w,[]⟩ = .ok k ⟨w,[]⟩ := databaseOf_there there
  cases isOpen : w.connections k with
  | false =>
    have failed : OnDatabase.prepare answer d sql parameters ⟨w,[]⟩ = .error _ ⟨w,[]⟩ :=
      prepare_closed there isOpen sql parameters
    rw [failed]
    simp [World.prepare,there,isOpen,leftBy]
  | true =>
    unfold OnDatabase.prepare
    rw [goes_on connected]
    by_cases compiled : sql = .error
    · subst compiled
      obtain ⟨stop,calls,failed⟩ := @createStmt_error answer ⟨w,[]⟩ k isOpen
      rw [stops_at failed]
      simp [World.prepare,there,leftBy]
    · have counted (t : Progress) : calling answer .bindParameterCount t = .ok _ _ := rfl
      rw [goes_on (createStmt_open isOpen compiled),goes_on (counted _),goes_on (becoming_there prepared),prepared]
      cases parameters with
      | none => rfl
      | some values =>
        simp only
        split_ifs
        · rfl
        · rfl

theorem execute_world (there : w.commands c = some cmd) (shares : cmd.connection = some k) (parameters : DbValues) :
    w.execute p c parameters = some (leftBy (OnCommand.execute p answer c parameters ⟨w,[]⟩)).world := by
  obtain ⟨v,executed⟩ : ∃ v, w.execute p c parameters = some v := by simp [World.execute,there]
  obtain ⟨connection,stmt,held,connected⟩ := cmd
  cases shares
  cases isOpen : w.connections k with
  | false =>
    have failed : OnCommand.execute p answer c parameters ⟨w,[]⟩ = .error _ ⟨w,[]⟩ :=
      command_closed there rfl isOpen parameters
    rw [failed]
    simp only [World.execute,there,Option.map_some,leftBy,Option.some.injEq]
    cases stmt with
    | some id => simp [World.enter,isOpen]
    | none =>
      have same : Function.update w.commands c (w.commands c) = w.commands := Function.update_eq_self c _
      rw [there] at same
      simp [Command.setup_eq,isOpen,setCommand,same]
  | true =>
    have asked : (get : Routine Progress) ⟨w,[]⟩ = .ok ⟨w,[]⟩ ⟨w,[]⟩ := rfl
    have pointed : dereference (some k) ⟨w,[]⟩ = .ok k ⟨w,[]⟩ := rfl
    unfold OnCommand.execute
    rw [goes_on (commandOf_there there),goes_on pointed,goes_on (ensureValid_open isOpen),goes_on asked,
      goes_on (becoming_there executed),executed]
    cases stmt with
    | some id =>
      simp only
      cases Command.setup p.toPlatform parameters ⟨true,(w.statements id).stmt,held⟩ with
      | ok done left => rfl
      | error e left => rfl
    | none =>
      simp only
      cases Command.setup p.toPlatform parameters ⟨true,.prepared emptyQuery,held⟩ with
      | ok done left => rfl
      | error e left => rfl

end routines

end Sl3.EntryPoints
