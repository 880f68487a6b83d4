import Sl3.Lifetime
import Sl3.Reentrancy
import Sl3.ParameterCount
import Sl3.Library.Projection

/-! One Command among others: what a World does to a statement is what calls on a Command that is
alone do to it, whatever happens to other Databases and Commands in between. -/
namespace Sl3.Isolation
open World Library Machine PartialMap Reentrancy
variable {p : Sqlite} {w u : World} {s : Nat} {q : Query}

/-- What concerns a Command: its own calls, and what others can do to it. -/
inductive Event where
  | own (label : Reentrancy.Label)
  | abandon
  | edit (parameters : DbValues)
  | disconnect

/-- A Command that is alone. It is abandoned in a loop whose Command was moved away: the next
step is a misuse that ends the loop. -/
def follow (p : Platform) (x : State q) : Event → Option (State q)
  | .own label => Reentrancy.step p x label
  | .abandon =>
    match x.stepping,x.frames with
    | true,frame::outer => some (x.pop frame outer x.cmd.stmt false)
    | _,_ => none
  | .edit parameters => some {x with cmd := {x.cmd with parameters}}
  | .disconnect => some {x with cmd := {x.cmd with isValid := false}}

def Guarded (x : State q) : Event → Prop
  | .own label => Reentrancy.Guarded x label
  | _ => True

def holds (w : World) (s c : Nat) : Bool := (w.commands c).bind CommandObject.stmt = some s

def innermost (w : World) (s : Nat) : Bool :=
  match w.loops with
  | [] => false
  | loop::_ => loop.guard = s

/-- The Command of the innermost loop has no statement any more. -/
def movedAway (w : World) : Bool :=
  match w.loops with
  | [] => false
  | loop::_ => (w.commands loop.command).bind CommandObject.stmt = none

/-- What the statement `s` sees of a step. -/
def event (s : Nat) (w : World) : World.Label → Option Event
  | .execute c parameters => if holds w s c then some (.own (.call parameters)) else none
  | .step => if innermost w s then some (if movedAway w then .abandon else .own .step) else none
  | .next => if innermost w s then some (.own .next) else none
  | .leave => if innermost w s then some (.own .leave) else none
  | .editParameters c parameters => if holds w s c then some (.edit parameters) else none
  | .destroyDatabase d => if w.databases d ≠ none ∧ w.databases d = w.handles s then some .disconnect else none
  | _ => none

/-- A Command alone in the state that the statement, its connection and its holder are in. -/
structure View (s : Nat) (w : World) (x : State q) : Prop where
  handle : ∃ k, w.handles s = some k ∧ w.connections k = x.cmd.isValid
  statement : w.statements s = ⟨q,x.cmd.stmt⟩
  parameters : ∀ c cmd, w.commands c = some cmd → cmd.stmt = some s → cmd.parameters = x.cmd.parameters
  frames : (w.loops.filter fun loop => loop.guard = s).length = x.frames.length
  stepping : (w.stepping && innermost w s) = x.stepping

section quiet
variable {x : State q} {k id c : Nat} {cmd : CommandObject}

theorem View.kept (view : View s w x) (handles : u.handles s = w.handles s)
    (connections : ∀ k, w.handles s = some k → u.connections k = w.connections k)
    (statements : u.statements s = w.statements s)
    (commands : ∀ c cmd, u.commands c = some cmd → cmd.stmt = some s →
      ∃ d old, w.commands d = some old ∧ old.stmt = some s ∧ old.parameters = cmd.parameters)
    (frames : (u.loops.filter fun loop => loop.guard = s).length = (w.loops.filter fun loop => loop.guard = s).length)
    (stepping : (u.stepping && innermost u s) = (w.stepping && innermost w s)) : View s u x where
  handle := by
    obtain ⟨k,handle,valid⟩ := view.handle
    exact ⟨k,handles.trans handle,(connections k handle).trans valid⟩
  statement := statements.trans view.statement
  parameters := by
    intro c cmd command stmt
    obtain ⟨d,old,before,held,same⟩ := commands c cmd command stmt
    exact same.symm.trans (view.parameters d old before held)
  frames := frames.trans view.frames
  stepping := stepping.trans view.stepping

theorem View.openDatabase (view : View s w x) (sound : Lifetime.Sound w) : View s w.openDatabase x := by
  refine view.kept rfl ?_ rfl (fun c cmd command stmt => ⟨c,cmd,command,stmt,rfl⟩) rfl rfl
  intro k handle
  exact Function.update_of_ne (sound.prepared s k handle).ne _ _

theorem View.destroyDatabase (view : View s w x) (sound : Lifetime.Sound w) {d : Nat}
    (safe : Lifetime.Safe w (.destroyDatabase d)) (destroyed : w.destroyDatabase p d = some u) :
    ∃ y : State q, Runs (follow p.toPlatform) (fun _ _ => True) x (event s w (.destroyDatabase d)).toList y ∧ View s u y := by
  obtain ⟨k,database,rfl⟩ := Option.map_eq_some_iff.mp destroyed
  have closed := @Lifetime.Sound.closeDatabase p w sound d k database fun loop member => safe loop member k database
  rw [closed.release]
  have rest := close_rest p k w
  obtain ⟨k',handle,valid⟩ := view.handle
  have there : w.databases d ≠ none := by simp [database]
  by_cases same : k' = k
  · subst same
    have mine : w.databases d = w.handles s := database.trans handle.symm
    refine ⟨{x with cmd := {x.cmd with isValid := false}},?_,?_⟩
    · rw [event,if_pos ⟨there,mine⟩]
      exact .cons trivial rfl (.nil _)
    · rw [rest]
      exact ⟨⟨k',handle,Function.update_self _ _ _⟩,view.statement,view.parameters,view.frames,view.stepping⟩
  · have other : w.databases d ≠ w.handles s := by
      rw [database,handle]
      simpa [eq_comm] using same
    refine ⟨x,?_,?_⟩
    · rw [event,if_neg fun both => other both.2]
      exact .nil x
    · rw [rest]
      refine view.kept rfl ?_ rfl (fun c cmd command stmt => ⟨c,cmd,command,stmt,rfl⟩) rfl rfl
      intro k'' handle'
      rw [handle] at handle'
      cases handle'
      exact Function.update_of_ne same _ _

theorem View.addHandle (view : View s w x) (sound : Lifetime.Sound w) (k : Nat) (q : Query) : View s (w.addHandle k q) x := by
  obtain ⟨k',handle,_⟩ := view.handle
  have old := (sound.handle_lt handle).ne
  exact view.kept (Function.update_of_ne old _ _) (fun _ _ => rfl) (Function.update_of_ne old _ _)
    (fun c cmd command stmt => ⟨c,cmd,command,stmt,rfl⟩) rfl rfl

theorem View.addCommand (view : View s w x) (other : cmd.stmt ≠ some s) : View s (w.addCommand cmd) x := by
  refine view.kept rfl (fun _ _ => rfl) rfl ?_ rfl rfl
  intro c new command stmt
  rcases update_eq_some.mp command with ⟨_,same⟩ | ⟨_,before⟩
  · cases same
    exact absurd stmt other
  · exact ⟨c,new,before,stmt,rfl⟩

theorem View.prepare (view : View s w x) (sound : Lifetime.Sound w) {d : Nat} {sql : Compiled} {parameters : Option DbValues}
    (prepared : w.prepare d sql parameters = some u) : View s u x := by
  obtain ⟨k,database,rfl⟩ := Option.map_eq_some_iff.mp prepared
  obtain ⟨k',handle,_⟩ := view.handle
  have old := (sound.handle_lt handle).ne
  split_ifs with valid
  · cases sql with
    | error => exact view
    | empty =>
      simp only
      split_ifs
      · exact view.addCommand (by simp)
      · exact view
    | statement q =>
      simp only
      split_ifs
      · exact (view.addHandle sound k q).addCommand (by simpa [eq_comm] using old)
      · exact view.addHandle sound k q
  · exact view

theorem View.moveCommand (view : View s w x) (command : w.commands c = some cmd) :
    View s {w.addCommand cmd with commands := Function.update (w.addCommand cmd).commands c (some .movedFrom)} x := by
  refine view.kept rfl (fun _ _ => rfl) rfl ?_ rfl rfl
  intro i new here stmt
  rcases update_eq_some.mp here with ⟨_,same⟩ | ⟨_,there⟩
  · cases same
    cases stmt
  · rcases update_eq_some.mp there with ⟨_,same⟩ | ⟨_,before⟩
    · cases same
      exact ⟨c,_,command,stmt,rfl⟩
    · exact ⟨i,new,before,stmt,rfl⟩

theorem View.destroyCommand (view : View s w x) (sound : Lifetime.Sound w)
    (destroyed : w.destroyCommand p c = some u) : View s u x := by
  obtain ⟨cmd,command,rfl⟩ := Option.map_eq_some_iff.mp destroyed
  have fewer : ∀ d new, Function.update w.commands c none d = some new → new.stmt = some s →
      ∃ d' old, w.commands d' = some old ∧ old.stmt = some s ∧ old.parameters = new.parameters :=
    fun d new here stmt => ⟨d,new,(erase_eq_some.mp here).2,stmt,rfl⟩
  cases connection : cmd.connection with
  | none => exact view.kept rfl (fun _ _ => rfl) rfl fewer rfl rfl
  | some k =>
    cases stmt : cmd.stmt with
    | none =>
      simp only
      rw [Lifetime.release_owned]
      · exact view.kept rfl (fun _ _ => rfl) rfl fewer rfl rfl
      · exact sound.owned
      · exact fun _ _ => sound.database_lt
    | some id =>
      simp only
      split_ifs
      · rw [Lifetime.release_owned]
        · exact view.kept rfl (fun _ _ => rfl) rfl fewer rfl rfl
        · exact sound.owned
        · exact fun _ _ => sound.database_lt
      · rw [Lifetime.release_owned]
        · exact view.kept rfl (fun _ _ => rfl) rfl fewer rfl rfl
        · exact sound.owned
        · exact fun _ _ => sound.database_lt

theorem View.getParameterNames (view : View s w x) (asked : w.getParameterNames c = some u) : View s u x := by
  obtain ⟨cmd,command,rfl⟩ := Option.map_eq_some_iff.mp asked
  have used (call : SqliteCall) (id : Nat) : View s (w.use call id) x :=
    view.kept rfl (fun _ _ => rfl) rfl (fun c cmd command stmt => ⟨c,cmd,command,stmt,rfl⟩) rfl rfl
  cases cmd.stmt with
  | none => exact view
  | some id =>
    simp only
    split_ifs
    · exact view
    · exact used _ _

end quiet

section calls
variable {x : State q} {k id c : Nat} {cmd : CommandObject} {parameters : DbValues}

def accepted {ε σ α : Type} : EStateM.Result ε σ α → Bool
  | .ok _ _ => true
  | .error _ _ => false

/-- What `execute` does on a Command with a statement, in terms of the same call on a Command alone. -/
structure Entered (w u : World) (c id : Nat) (cmd : CommandObject) (result : EStateM.Result Error (Command q) Unit) : Prop where
  handles : u.handles = w.handles
  connections : u.connections = w.connections
  statements : u.statements = Function.update w.statements id ⟨q,(leftBy result).stmt⟩
  commands : u.commands = Function.update w.commands c (some {cmd with parameters := (leftBy result).parameters})
  loops : u.loops = if accepted result then ⟨c,id⟩::w.loops else w.loops
  stepping : u.stepping = (accepted result || w.stepping)

theorem given_stmt {start : Command q} (parameters : DbValues) :
    (leftBy (Command.given parameters start)).stmt = start.stmt := by
  unfold Command.given
  split_ifs
  · exact (Command.setParameters_keeps parameters start).1
  · rfl

theorem bindAll_rest (parameters : DbValues) : w.bindAll c cmd id parameters =
    {w.bindAll c cmd id parameters with
      handles := w.handles,connections := w.connections,statements := w.statements,loops := w.loops
      stepping := w.stepping,commands := Function.update w.commands c (some {cmd with parameters})} := by
  unfold World.bindAll
  split_ifs <;> rfl

theorem enter_entered (command : w.commands c = some cmd) (k : Nat) (parameters : DbValues) :
    Entered w (w.enter p c cmd k id parameters) c id cmd
      (Command.setup p.toPlatform parameters ⟨w.connections k,(w.statements id).stmt,cmd.parameters⟩) := by
  have same : Function.update w.statements id (w.statements id) = w.statements := Function.update_eq_self id _
  have same' : Function.update w.commands c (some cmd) = w.commands := command ▸ Function.update_eq_self c _
  rw [Command.setup_eq,World.enter]
  cases valid : w.connections k with
  | false => exact ⟨rfl,rfl,same.symm,same'.symm,rfl,rfl⟩
  | true =>
    have kept := @given_stmt _ ⟨true,(w.statements id).stmt,cmd.parameters⟩ parameters
    simp only [if_true]
    rw [← Command.given]
    cases set : Command.given parameters ⟨true,(w.statements id).stmt,cmd.parameters⟩ with
    | error e left =>
      rw [set] at kept
      refine ⟨rfl,rfl,?_,rfl,rfl,rfl⟩
      simp only [leftBy] at kept ⊢
      rw [kept]
      exact same.symm
    | ok done given =>
      have slots := ParameterCount.bind_parameters p.toPlatform given
      simp only
      rw [bindAll_rest]
      cases bound : Command.bind p.toPlatform given with
      | error e left =>
        rw [bound] at slots
        simp only [leftBy] at slots
        exact ⟨rfl,rfl,rfl,slots ▸ rfl,rfl,rfl⟩
      | ok done ready =>
        rw [bound] at slots
        simp only [leftBy] at slots
        exact ⟨rfl,rfl,rfl,slots ▸ rfl,rfl,rfl⟩

theorem holds_of (command : w.commands c = some cmd) : holds w s c = true ↔ cmd.stmt = some s := by
  simp [holds,command]

theorem event_execute_other (command : w.commands c = some cmd) (other : cmd.stmt ≠ some s) (parameters : DbValues) :
    event s w (.execute c parameters) = none := by
  rw [event,if_neg ((holds_of command).not.mpr other)]

theorem View.entered_other {r : Query} (view : View s w x) {result : EStateM.Result Error (Command r) Unit}
    (entered : Entered w u c id cmd result) (user : w.stepping = false) (stmt : cmd.stmt = some id) (other : id ≠ s) :
    View s u x := by
  obtain ⟨handles,connections,statements,commands,loops,stepping⟩ := entered
  refine view.kept (by rw [handles]) (fun _ _ => by rw [connections]) ?_ ?_ ?_ ?_
  · rw [statements]
    exact Function.update_of_ne other.symm _ _
  · intro d new command held
    rw [commands] at command
    rcases update_eq_some.mp command with ⟨_,same⟩ | ⟨_,before⟩
    · cases same
      rw [stmt] at held
      exact absurd (Option.some.inj held) other
    · exact ⟨d,new,before,held,rfl⟩
  · rw [loops]
    split_ifs <;> simp [other]
  · cases began : accepted result with
    | true => simp [user,innermost,loops,began,other]
    | false => simp [user,stepping,began]

theorem View.entered_own (view : View s w x) (sound : Lifetime.Sound w) (user : w.stepping = false)
    (command : w.commands c = some cmd) (stmt : cmd.stmt = some s)
    (entered : Entered w u c s cmd (Command.setup p.toPlatform parameters x.cmd)) :
    ∃ y, follow p.toPlatform x (.own (.call parameters)) = some y ∧ View s u y := by
  obtain ⟨handles,connections,statements,commands,loops,stepping⟩ := entered
  obtain ⟨k,handle,valid⟩ := view.handle
  have kept := (Command.setup_keeps p.toPlatform parameters x.cmd).2
  have idle : x.stepping = false := by rw [← view.stepping,user,Bool.false_and]
  -- the holder is the only one
  have slots (left : Command q) : u.commands = Function.update w.commands c (some {cmd with parameters := left.parameters}) →
      ∀ d new, u.commands d = some new → new.stmt = some s → new.parameters = left.parameters := by
    intro updated d new here held
    rw [updated] at here
    rcases update_eq_some.mp here with ⟨_,same⟩ | ⟨differ,before⟩
    · cases same
      rfl
    · exact absurd (sound.unique d c new cmd s before command held stmt) differ
  cases result : Command.setup p.toPlatform parameters x.cmd with
  | error e left =>
    rw [result] at statements commands loops stepping kept
    refine ⟨{x with cmd := left},by simp [follow,Reentrancy.step,idle,result],?_⟩
    refine ⟨⟨k,?_,?_⟩,?_,slots left commands,?_,?_⟩
    · rw [handles,handle]
    · rw [connections,valid]
      exact kept.symm
    · rw [statements]
      exact Function.update_self _ _ _
    · rw [loops]
      exact view.frames
    · rw [stepping,user,idle]
      rfl
  | ok done ready =>
    rw [result] at statements commands loops stepping kept
    refine ⟨{x with cmd := ready,frames := {expected := ready.stmt.nextRun}::x.frames,stepping := true},
      by simp [follow,Reentrancy.step,idle,result],?_⟩
    refine ⟨⟨k,?_,?_⟩,?_,slots ready commands,?_,?_⟩
    · rw [handles,handle]
    · rw [connections,valid]
      exact kept.symm
    · rw [statements]
      exact Function.update_self _ _ _
    · rw [loops]
      simpa [accepted] using view.frames
    · simp [stepping,innermost,loops,accepted]

theorem View.execute (view : View s w x) (sound : Lifetime.Sound w) (user : w.stepping = false)
    (executed : w.execute p c parameters = some u) :
    ∃ y, Runs (follow p.toPlatform) (fun _ _ => True) x (event s w (.execute c parameters)).toList y ∧ View s u y := by
  obtain ⟨cmd,command,rfl⟩ := Option.map_eq_some_iff.mp executed
  have unheld (parameters : DbValues) (other : cmd.stmt ≠ some s) : View s (w.setCommand c {cmd with parameters}) x := by
    refine view.kept rfl (fun _ _ => rfl) rfl ?_ rfl rfl
    intro d new here held
    rcases update_eq_some.mp here with ⟨_,same⟩ | ⟨_,before⟩
    · cases same
      exact absurd held other
    · exact ⟨d,new,before,held,rfl⟩
  by_cases own : cmd.stmt = some s
  · obtain ⟨k,connection,handle,_⟩ := sound.held c cmd s command own
    have entered := @enter_entered p w s c cmd command k parameters
    obtain ⟨k',handle',valid⟩ := view.handle
    rw [handle] at handle'
    cases handle'
    rw [view.statement,valid,view.parameters c cmd command own] at entered
    obtain ⟨y,followed,viewed⟩ := view.entered_own sound user command own entered
    refine ⟨y,?_,?_⟩
    · rw [event,if_pos ((holds_of command).mpr own)]
      exact .cons trivial followed (.nil y)
    · split
      · rename_i k' id connection' stmt
        cases connection.symm.trans connection'
        cases own.symm.trans stmt
        exact viewed
      · rename_i none
        cases own.symm.trans none
      · rename_i none
        cases connection.symm.trans none
  · rw [event_execute_other command own]
    refine ⟨x,.nil x,?_⟩
    split
    · rename_i k id connection stmt
      have entered := @enter_entered p w id c cmd command k parameters
      exact view.entered_other entered user stmt fun same => own (same ▸ stmt)
    · exact unheld _ own
    · exact view.kept rfl (fun _ _ => rfl) rfl (fun c cmd command stmt => ⟨c,cmd,command,stmt,rfl⟩) rfl rfl

theorem View.editParameters (view : View s w x) (sound : Lifetime.Sound w) (edited : w.editParameters c parameters = some u) :
    ∃ y, Runs (follow p.toPlatform) (fun _ _ => True) x (event s w (.editParameters c parameters)).toList y ∧ View s u y := by
  obtain ⟨cmd,command,rfl⟩ := Option.map_eq_some_iff.mp edited
  by_cases own : cmd.stmt = some s
  · refine ⟨{x with cmd := {x.cmd with parameters}},?_,view.handle,view.statement,?_,view.frames,view.stepping⟩
    · rw [event,if_pos ((holds_of command).mpr own)]
      exact .cons trivial rfl (.nil _)
    · intro d new here held
      rcases update_eq_some.mp here with ⟨_,same⟩ | ⟨differ,before⟩
      · cases same
        rfl
      · exact absurd (sound.unique d c new cmd s before command held own) differ
  · refine ⟨x,?_,view.kept rfl (fun _ _ => rfl) rfl ?_ rfl rfl⟩
    · rw [event,if_neg ((holds_of command).not.mpr own)]
      exact .nil x
    · intro d new here held
      rcases update_eq_some.mp here with ⟨_,same⟩ | ⟨_,before⟩
      · cases same
        exact absurd held own
      · exact ⟨d,new,before,held,rfl⟩

end calls

section loops
variable {x : State q} {loop : Loop} {outer : List Loop}

theorem innermost_cons (loops : w.loops = loop::outer) : innermost w s = true ↔ loop.guard = s := by
  simp [innermost,loops]

theorem View.popped_other (view : View s w x) (loops : w.loops = loop::outer) (other : loop.guard ≠ s) :
    View s (w.pop loop outer) x := by
  have elsewhere : innermost w s = false := Bool.eq_false_iff.mpr ((innermost_cons loops).not.mpr other)
  refine view.kept rfl (fun _ _ => rfl) (Function.update_of_ne other.symm _ _)
    (fun c cmd command stmt => ⟨c,cmd,command,stmt,rfl⟩) ?_ ?_
  · rw [loops,List.filter_cons_of_neg (by simpa using other)]
    rfl
  · rw [elsewhere,Bool.and_false]
    rfl

theorem View.popped_own (view : View s w x) (loops : w.loops = loop::outer) (own : loop.guard = s) :
    ∃ frame rest, x.frames = frame::rest ∧ ∀ ended, View s (w.pop loop outer) (x.pop frame rest x.cmd.stmt ended) := by
  have frames := view.frames
  rw [loops,List.filter_cons_of_pos (by simpa using own),List.length_cons] at frames
  obtain ⟨frame,rest,filled⟩ := List.exists_cons_of_length_eq_add_one frames.symm
  rw [filled,List.length_cons] at frames
  refine ⟨frame,rest,filled,fun ended => ⟨view.handle,?_,view.parameters,Nat.succ.inj frames,rfl⟩⟩
  subst own
  have reset : (w.pop loop outer).statements loop.guard = ⟨_,(w.statements loop.guard).stmt.reset⟩ :=
    Function.update_self _ _ _
  rw [reset,view.statement]
  rfl

theorem View.nextRow (view : View s w x) (user : w.stepping = false) (asked : w.nextRow = some u) :
    ∃ y, Runs (follow p.toPlatform) (fun _ _ => True) x (event s w .next).toList y ∧ View s u y := by
  obtain ⟨loop,outer,loops,rfl⟩ := nextRow_cases asked
  have idle : x.stepping = false := by rw [← view.stepping,user,Bool.false_and]
  by_cases own : loop.guard = s
  · obtain ⟨frame,rest,filled,_⟩ := view.popped_own loops own
    have here := (innermost_cons loops).mpr own
    refine ⟨{x with stepping := true},?_,view.handle,view.statement,view.parameters,view.frames,?_⟩
    · rw [event,if_pos here]
      exact .cons trivial (by simp [follow,Reentrancy.step,idle,filled]) (.nil _)
    · exact here
  · have elsewhere : innermost w s = false := Bool.eq_false_iff.mpr ((innermost_cons loops).not.mpr own)
    refine ⟨x,?_,view.kept rfl (fun _ _ => rfl) rfl (fun c cmd command stmt => ⟨c,cmd,command,stmt,rfl⟩) rfl ?_⟩
    · rw [event,elsewhere]
      exact .nil x
    · rw [elsewhere,Bool.and_false]
      exact elsewhere

theorem View.leave (view : View s w x) (user : w.stepping = false) (left : w.leave = some u) :
    ∃ y, Runs (follow p.toPlatform) (fun _ _ => True) x (event s w .leave).toList y ∧ View s u y := by
  obtain ⟨loop,outer,loops,rfl⟩ := leave_cases left
  have idle : x.stepping = false := by rw [← view.stepping,user,Bool.false_and]
  by_cases own : loop.guard = s
  · obtain ⟨frame,rest,filled,popped⟩ := view.popped_own loops own
    refine ⟨_,?_,popped false⟩
    rw [event,if_pos ((innermost_cons loops).mpr own)]
    exact .cons trivial (by simp [follow,Reentrancy.step,idle,filled]) (.nil _)
  · refine ⟨x,?_,view.popped_other loops own⟩
    rw [event,if_neg ((innermost_cons loops).not.mpr own)]
    exact .nil x

theorem View.stepped_other (view : View s w x) {id : Nat} {r : Query} (stmt : Stmt r) (other : id ≠ s) :
    View s ((w.use .step id).setStatement id stmt) x :=
  view.kept rfl (fun _ _ => rfl) (Function.update_of_ne other.symm _ _)
    (fun c cmd command held => ⟨c,cmd,command,held,rfl⟩) rfl rfl

theorem View.stepped_own (view : View s w x) (stmt : Stmt q) :
    View s ((w.use .step s).setStatement s stmt) {x with cmd := {x.cmd with stmt}} :=
  ⟨view.handle,Function.update_self _ _ _,view.parameters,view.frames,view.stepping⟩

theorem View.yielded (view : View s w x) {frame : Frame q} {rest : List (Frame q)} (filled : x.frames = frame::rest)
    (longer : Frame q) : View s {w with stepping := false} {x with frames := longer::rest,stepping := false} := by
  refine ⟨view.handle,view.statement,view.parameters,view.frames.trans ?_,rfl⟩
  rw [filled]
  rfl

theorem View.stepLoop (view : View s w x) (sound : Lifetime.Sound w) (safe : Lifetime.Safe w .step) (turn : w.stepping = true)
    (stepped : w.stepLoop = some u) :
    ∃ y, Runs (follow p.toPlatform) (fun _ _ => True) x (event s w .step).toList y ∧ View s u y := by
  unfold World.stepLoop at stepped
  cases loops : w.loops with
  | nil => simp [loops] at stepped
  | cons loop outer =>
    simp only [loops] at stepped
    have member : loop ∈ w.loops := by simp [loops]
    cases command : w.commands loop.command with
    | none => exact absurd command (safe loop (by simp [loops]))
    | some cmd =>
      simp only [command] at stepped
      have inner : loop.guard = s → innermost w s = true := (innermost_cons loops).mpr
      have outside : loop.guard ≠ s → event s w .step = none := by
        intro other
        rw [event,if_neg ((innermost_cons loops).not.mpr other)]
      cases stmt : cmd.stmt with
      | none =>
        simp only [stmt,Option.some.injEq] at stepped
        subst stepped
        by_cases own : loop.guard = s
        · obtain ⟨frame,rest,filled,popped⟩ := view.popped_own loops own
          have busy : x.stepping = true := by rw [← view.stepping,turn,inner own]; rfl
          have moved : movedAway w = true := by simp [movedAway,loops,command,stmt]
          refine ⟨_,?_,popped false⟩
          rw [event,if_pos (inner own),moved]
          exact .cons trivial (by simp [follow,busy,filled]) (.nil _)
        · rw [outside own]
          exact ⟨x,.nil x,view.popped_other loops own⟩
      | some id =>
        have held : movedAway w = false := by simp [movedAway,loops,command,stmt]
        have same : id = loop.guard := by
          rcases (sound.running loop member).2 cmd command with none | guard
          · cases none.symm.trans stmt
          · exact Option.some.inj (stmt.symm.trans guard)
        subst same
        simp only [stmt] at stepped
        by_cases own : loop.guard = s
        · subst own
          have busy : x.stepping = true := by rw [← view.stepping,turn,inner rfl]; rfl
          rw [view.statement] at stepped
          have viewed := view.stepped_own x.cmd.stmt.step.2
          obtain ⟨frame,rest,filled,popped⟩ := @popped_own _ _ _ _ loop outer viewed loops rfl
          have filled' : x.frames = frame::rest := filled
          rw [event,if_pos (inner rfl),held]
          split_ifs at stepped with row
          · cases stepped
            refine ⟨_,.cons trivial ?_ (.nil _),viewed.yielded filled {frame with
              delivered := frame.delivered ++ [x.cmd.stmt.step.2.columns]}⟩
            simp [follow,Reentrancy.step,busy,filled',row]
          · cases stepped
            refine ⟨_,.cons trivial ?_ (.nil _),popped true⟩
            simp [follow,Reentrancy.step,busy,filled',row,State.pop]
        · rw [outside own]
          refine ⟨x,.nil x,?_⟩
          have viewed := view.stepped_other (w.statements loop.guard).stmt.step.2 own
          have elsewhere : innermost w s = false := Bool.eq_false_iff.mpr ((innermost_cons loops).not.mpr own)
          split_ifs at stepped
          · cases stepped
            refine viewed.kept rfl (fun _ _ => rfl) rfl (fun c cmd command held => ⟨c,cmd,command,held,rfl⟩) rfl ?_
            exact (Bool.and_false _).symm.trans (congrArg _ elsewhere.symm)
          · cases stepped
            exact viewed.popped_other loops own

end loops

section steps
variable {x y : State q} {label : World.Label}

/-- Whatever happens in the World, the Command alone follows by what it sees of that. -/
theorem View.step (view : View s w x) (sound : Lifetime.Sound w) (safe : Lifetime.Safe w label)
    (stepped : w.step p label = some u) :
    ∃ y, Runs (follow p.toPlatform) (fun _ _ => True) x (event s w label).toList y ∧ View s u y := by
  obtain ⟨_,turn,acted⟩ := step_acts stepped
  cases label with
  | openDatabase => exact ⟨x,.nil x,Option.some.inj acted ▸ view.openDatabase sound⟩
  | moveDatabase d =>
    obtain ⟨k,_,rfl⟩ := Option.map_eq_some_iff.mp acted
    exact ⟨x,.nil x,view.handle,view.statement,view.parameters,view.frames,view.stepping⟩
  | destroyDatabase d => exact view.destroyDatabase sound safe acted
  | prepare d sql parameters => exact ⟨x,.nil x,view.prepare sound acted⟩
  | moveCommand c =>
    obtain ⟨cmd,command,rfl⟩ := Option.map_eq_some_iff.mp acted
    exact ⟨x,.nil x,view.moveCommand command⟩
  | destroyCommand c => exact ⟨x,.nil x,view.destroyCommand sound acted⟩
  | editParameters c parameters => exact view.editParameters sound acted
  | getParameterNames c => exact ⟨x,.nil x,view.getParameterNames acted⟩
  | execute c parameters => exact view.execute sound turn acted
  | step => exact view.stepLoop sound safe turn acted
  | next => exact view.nextRow turn acted
  | leave => exact view.leave turn acted

/-- A call from a callback of the same Command is made with parameters, or on a Command that has some. -/
def Nested (s : Nat) (w : World) : World.Label → Prop
  | .execute c parameters => ∀ cmd, w.commands c = some cmd → cmd.stmt = some s →
      (∀ loop ∈ w.loops, loop.guard ≠ s) ∨ parameters ≠ [] ∨ cmd.parameters ≠ []
  | _ => True

theorem View.guarded (view : View s w x) (nested : Nested s w label) : ∀ e ∈ event s w label, Guarded x e := by
  intro e seen
  cases label with
  | execute c parameters =>
    simp only [event] at seen
    split_ifs at seen with own
    · cases seen
      obtain ⟨cmd,command,stmt⟩ := Option.bind_eq_some_iff.mp (of_decide_eq_true own)
      rcases nested cmd command stmt with idle | given
      · refine .inl (List.length_eq_zero_iff.mp ?_)
        rw [← view.frames,List.length_eq_zero_iff,List.filter_eq_nil_iff]
        intro loop member
        simpa using idle loop member
      · rw [view.parameters c cmd command stmt] at given
        exact .inr given
    · cases seen
  | step | next | leave | editParameters | destroyDatabase =>
    simp only [event] at seen
    split_ifs at seen <;> cases seen <;> trivial
  | _ => cases seen

end steps

section rested
variable {label : World.Label}

/-- A statement with a run that has not ended belongs to a call in its loop. -/
def Rested (w : World) : Prop :=
  ∀ id, (w.statements id).stmt.cursor ≠ .ready → ∃ loop ∈ w.loops, loop.guard = id

theorem Rested.kept (rested : Rested w) (statements : u.statements = w.statements) (loops : u.loops = w.loops) : Rested u := by
  unfold Rested at rested ⊢
  rwa [statements,loops]

theorem Rested.setStatement (rested : Rested w) {id : Nat} {r : Query} (stmt : Stmt r)
    (resting : stmt.cursor = .ready ∨ ∃ loop ∈ w.loops, loop.guard = id) : Rested (w.setStatement id stmt) := by
  intro other busy
  by_cases same : other = id
  · subst same
    rcases resting with ready | guarded
    · have here : (w.setStatement other stmt).statements other = ⟨r,stmt⟩ := Function.update_self _ _ _
      rw [here] at busy
      exact absurd ready busy
    · exact guarded
  · have there : (w.setStatement id stmt).statements other = w.statements other := Function.update_of_ne same _ _
    rw [there] at busy
    exact rested other busy

theorem Rested.pop (rested : Rested w) {loop : Loop} {outer : List Loop} (loops : w.loops = loop::outer) :
    Rested (w.pop loop outer) := by
  intro id busy
  by_cases same : id = loop.guard
  · subst same
    have here : (w.pop loop outer).statements loop.guard = ⟨_,(w.statements loop.guard).stmt.reset⟩ :=
      Function.update_self _ _ _
    rw [here] at busy
    exact absurd rfl busy
  · have there : (w.pop loop outer).statements id = w.statements id := Function.update_of_ne same _ _
    rw [there] at busy
    obtain ⟨other,member,guard⟩ := rested id busy
    rw [loops] at member
    rcases List.mem_cons.mp member with rfl | later
    · exact absurd guard.symm same
    · exact ⟨other,later,guard⟩

theorem close_quiet (k : Nat) (w : World) : (w.close p k).statements = w.statements ∧ (w.close p k).loops = w.loops := by
  rw [close_rest]
  exact ⟨rfl,rfl⟩

theorem release_quiet (k : Nat) (w : World) :
    (w.release p k).statements = w.statements ∧ (w.release p k).loops = w.loops := by
  unfold World.release
  split_ifs
  · exact ⟨rfl,rfl⟩
  · exact close_quiet k w

theorem destroyCommand_quiet {c : Nat} (destroyed : w.destroyCommand p c = some u) :
    u.statements = w.statements ∧ u.loops = w.loops := by
  obtain ⟨cmd,_,rfl⟩ := Option.map_eq_some_iff.mp destroyed
  split
  · rename_i k id _ _
    obtain ⟨statements,loops⟩ := @release_quiet p k
      {(if w.connections k then w.finalize id else w) with
        commands := Function.update (if w.connections k then w.finalize id else w).commands c none}
    rw [statements,loops]
    split_ifs <;> exact ⟨rfl,rfl⟩
  · exact release_quiet _ _
  · exact ⟨rfl,rfl⟩

theorem Rested.enter (rested : Rested w) {c k id : Nat} {cmd : CommandObject} (command : w.commands c = some cmd)
    (parameters : DbValues) : Rested (w.enter p c cmd k id parameters) := by
  obtain ⟨_,_,statements,_,loops,_⟩ := @enter_entered p w id c cmd command k parameters
  have kept := (Command.setup_keeps p.toPlatform parameters ⟨w.connections k,(w.statements id).stmt,cmd.parameters⟩).1.1
  intro other busy
  have guarded : (w.statements other).stmt.cursor ≠ .ready := by
    rw [statements] at busy
    by_cases same : other = id
    · subst same
      rw [Function.update_self] at busy
      rwa [kept] at busy
    · rwa [Function.update_of_ne same] at busy
  obtain ⟨loop,member,guard⟩ := rested other guarded
  refine ⟨loop,?_,guard⟩
  rw [loops]
  split_ifs
  · exact List.mem_cons_of_mem _ member
  · exact member

theorem Rested.prepare (rested : Rested w) {d : Nat} {sql : Compiled} {parameters : Option DbValues}
    (prepared : w.prepare d sql parameters = some u) : Rested u := by
  obtain ⟨k,_,rfl⟩ := Option.map_eq_some_iff.mp prepared
  split_ifs
  · cases sql with
    | error => exact rested
    | empty =>
      simp only
      split_ifs
      · exact rested.kept rfl rfl
      · exact rested
    | statement q =>
      have added : Rested (w.addHandle k q) := by
        have fresh : Rested (w.setStatement w.next (Stmt.prepared q)) := rested.setStatement _ (.inl rfl)
        exact fresh.kept rfl rfl
      simp only
      split_ifs
      · exact added.kept rfl rfl
      · exact added
  · exact rested

theorem Rested.stepLoop (rested : Rested w) (sound : Lifetime.Sound w) (safe : Lifetime.Safe w .step)
    (stepped : w.stepLoop = some u) : Rested u := by
  obtain ⟨loop,outer,loops,⟨gone,_⟩ | ⟨cmd,command,result⟩⟩ := stepLoop_cases stepped
  · exact absurd gone (safe loop (by simp [loops]))
  · have member : loop ∈ w.loops := by simp [loops]
    rcases result with ⟨_,rfl⟩ | ⟨id,used,stmt,rfl,result⟩
    · exact rested.pop loops
    · have same : loop.guard = id := by
        rcases (sound.running loop member).2 cmd command with none | guard
        · cases none.symm.trans stmt
        · exact Option.some.inj (guard.symm.trans stmt)
      have looked : Rested (w.use .step id) := rested.kept rfl rfl
      have advanced := looked.setStatement (w.statements id).stmt.step.2 (.inr ⟨loop,member,same⟩)
      rcases result with rfl | rfl
      · exact advanced.kept rfl rfl
      · exact advanced.pop loops

theorem Rested.step (rested : Rested w) (sound : Lifetime.Sound w) (safe : Lifetime.Safe w label)
    (stepped : w.step p label = some u) : Rested u := by
  obtain ⟨_,_,acted⟩ := step_acts stepped
  cases label with
  | openDatabase => exact Option.some.inj acted ▸ rested.kept rfl rfl
  | moveDatabase d =>
    obtain ⟨k,_,rfl⟩ := Option.map_eq_some_iff.mp acted
    exact rested.kept rfl rfl
  | destroyDatabase d =>
    obtain ⟨k,_,rfl⟩ := Option.map_eq_some_iff.mp acted
    obtain ⟨statements,loops⟩ := @release_quiet p k
      {w.close p k with databases := Function.update (w.close p k).databases d none}
    exact rested.kept (statements.trans (close_quiet k w).1) (loops.trans (close_quiet k w).2)
  | prepare d sql parameters => exact rested.prepare acted
  | moveCommand c =>
    obtain ⟨cmd,_,rfl⟩ := Option.map_eq_some_iff.mp acted
    exact rested.kept rfl rfl
  | destroyCommand c => exact rested.kept (destroyCommand_quiet acted).1 (destroyCommand_quiet acted).2
  | editParameters c parameters =>
    obtain ⟨cmd,_,rfl⟩ := Option.map_eq_some_iff.mp acted
    exact rested.kept rfl rfl
  | getParameterNames c =>
    obtain ⟨cmd,_,rfl⟩ := Option.map_eq_some_iff.mp acted
    cases cmd.stmt with
    | none => exact rested
    | some id =>
      simp only
      split_ifs
      · exact rested
      · exact rested.kept rfl rfl
  | execute c parameters =>
    obtain ⟨cmd,command,rfl⟩ := Option.map_eq_some_iff.mp acted
    split
    · exact rested.enter command parameters
    · exact rested.kept rfl rfl
    · exact rested.kept rfl rfl
  | step => exact rested.stepLoop sound safe acted
  | next =>
    obtain ⟨loop,outer,_,rfl⟩ := nextRow_cases acted
    exact rested.kept rfl rfl
  | leave =>
    obtain ⟨loop,outer,loops,rfl⟩ := leave_cases acted
    exact rested.pop loops

end rested

section runs
variable {t : World} {labels : List World.Label} {c k : Nat} {cmd : CommandObject}

theorem reached_sound (reached : Reaches (World.step p) Lifetime.Safe {} w) : Lifetime.Sound w ∧ Rested w := by
  apply reached.invariant
  · exact ⟨Lifetime.Sound.init,fun id busy => absurd rfl busy⟩
  · intro w u label inv safe stepped
    exact ⟨inv.1.step safe stepped,inv.2.step inv.1 safe stepped⟩

/-- When no call is in its loop, whatever was thrown or left early before, every statement is reset. -/
theorem statements_reset (reached : Reaches (World.step p) Lifetime.Safe {} w) (id : Nat)
    (idle : ∀ loop ∈ w.loops, loop.guard ≠ id) : (w.statements id).stmt.cursor = .ready := by
  by_contra busy
  obtain ⟨loop,member,guard⟩ := (reached_sound reached).2 id busy
  exact idle loop member guard

theorem statements_reset_left : ∃ t, runAll (World.step .usual) {} [.openDatabase,
      .prepare 0 (.statement Lifetime.oneRow) none,.execute 2 [],.step,.leave] = some t ∧
    (t.statements 1).stmt.cursor = .ready := by
  have first : Reaches (World.step .usual) Lifetime.Safe {} _ := Reaches.start.next .openDatabase trivial rfl
  have second := first.next (.prepare 0 (.statement Lifetime.oneRow) none) trivial rfl
  have third := second.next (.execute 2 []) trivial rfl
  have fourth := third.next .step (by rintro loop ⟨⟩; exact nofun) rfl
  have fifth := fourth.next .leave trivial rfl
  exact ⟨_,rfl,statements_reset fifth 1 nofun⟩

end runs

end Sl3.Isolation
