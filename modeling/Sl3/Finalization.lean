import Sl3.Lifetime

/-! How often statements are finalized and connections are closed: the runs of the World
with books on what sqlite3_open_v2 and sqlite3_close were called for and what was moved. -/
namespace Sl3.Finalization
open World Library Machine
variable {p : Sqlite} {w u : World}

def isFinalize (id : Nat) (use : Use) : Bool := use.call = .finalize ∧ use.stmt = id

def finalizations (w : World) (id : Nat) : Nat := w.log.countP (isFinalize id)

/-- The loop of `Connection::close` as the source writes it, without a bound on its rounds. -/
inductive Closing (p : Sqlite) (k : Nat) : World → World → Prop
  | done {w : World} (none : p.nextStmt w k = none) : Closing p k w w
  | next {w u : World} {id : Nat} (named : p.nextStmt w k = some id) (rest : Closing p k (w.finalize id) u) :
      Closing p k w u

theorem closing_terminates {k n : Nat} (enough : (w.openStatements k).length ≤ n) :
    Closing p k w (w.finalizeAll p k n) := by
  induction n generalizing w with
  | zero =>
    have empty := List.length_eq_zero_iff.mp (Nat.le_zero.mp enough)
    apply Closing.done
    cases named : p.nextStmt w k with
    | none => rfl
    | some id =>
      have member := p.nextStmt_open named
      simp [empty] at member
  | succ n ih =>
    unfold finalizeAll
    cases named : p.nextStmt w k with
    | none => exact .done named
    | some id =>
      have fewer : ((w.finalize id).openStatements k).length < (w.openStatements k).length := by
        rw [openStatements_finalize]
        exact List.length_filter_lt_length_iff_exists.mpr ⟨id,p.nextStmt_open named,by simp⟩
      exact .next named (ih (by omega))

theorem Closing.unique {k : Nat} {v : World} (closing : Closing p k w u) (other : Closing p k w v) : u = v := by
  induction closing with
  | done none =>
    cases other with
    | done _ => rfl
    | next named _ => simp [none] at named
  | next named _ ih =>
    cases other with
    | done none => simp [named] at none
    | next named' rest =>
      cases named.symm.trans named'
      exact ih rest

structure Account where
  world : World := {}
  opened : List Nat := []
  closed : List Nat := []
  movedDatabases : List Nat := []
  movedCommands : List Nat := []

namespace Account
variable (p : Sqlite)

def close (k : Nat) (a : Account) : Account where
  __ := a
  world := a.world.close p k
  closed := if a.world.connections k then a.closed ++ [k] else a.closed

def release (k : Nat) (a : Account) : Account := if a.world.shared k then a else a.close p k

def openDatabase (a : Account) : Account where
  __ := a
  world := a.world.openDatabase
  opened := a.opened ++ [a.world.next]

def moveDatabase (d : Nat) (a : Account) : Option Account :=
  (a.world.moveDatabase d).map fun w => {a with world := w,movedDatabases := a.movedDatabases ++ [d]}

def destroyDatabase (d : Nat) (a : Account) : Option Account :=
  (a.world.databases d).map fun k =>
    let a := a.close p k
    release p k {a with world := {a.world with databases := Function.update a.world.databases d none}}

def moveCommand (c : Nat) (a : Account) : Option Account :=
  (a.world.moveCommand c).map fun w => {a with world := w,movedCommands := a.movedCommands ++ [c]}

def destroyCommand (c : Nat) (a : Account) : Option Account :=
  (a.world.commands c).map fun cmd =>
    let gone (a : Account) : Account :=
      {a with world := {a.world with commands := Function.update a.world.commands c none}}
    match cmd.connection,cmd.stmt with
    | some k,some id =>
      release p k (gone (if a.world.connections k then {a with world := a.world.finalize id} else a))
    | some k,none => release p k (gone a)
    | none,_ => gone a

def act (a : Account) : Label → Option Account
  | .openDatabase => some a.openDatabase
  | .moveDatabase d => a.moveDatabase d
  | .destroyDatabase d => a.destroyDatabase p d
  | .moveCommand c => a.moveCommand c
  | .destroyCommand c => a.destroyCommand p c
  | label => (a.world.act p label).map fun w => {a with world := w}

def step (a : Account) (label : Label) : Option Account :=
  if a.world.broken = false ∧ a.world.stepping = label.ofLoop then a.act p label else none

theorem release_world (k : Nat) (a : Account) : (a.release p k).world = a.world.release p k := by
  unfold release World.release
  split_ifs <;> rfl

/-- The books change nothing. -/
theorem step_world (a : Account) (label : Label) : (a.step p label).map world = a.world.step p label := by
  unfold step World.step
  split_ifs
  · cases label with
    | openDatabase => rfl
    | moveDatabase d => simp [act,moveDatabase,World.act,Option.map_map,Function.comp_def]
    | destroyDatabase d =>
      simp only [act,destroyDatabase,World.act,World.destroyDatabase,Option.map_map]
      congr 1
      ext1 k
      exact release_world p k _
    | moveCommand c => simp [act,moveCommand,World.act,Option.map_map,Function.comp_def]
    | destroyCommand c =>
      simp only [act,destroyCommand,World.act,World.destroyCommand,Option.map_map]
      congr 1
      ext1 ⟨connection,stmt,parameters,connected⟩
      cases connection with
      | none => rfl
      | some k =>
        cases stmt with
        | none => exact release_world p k _
        | some id =>
          simp only [Function.comp_apply,release_world]
          split_ifs <;> rfl
    | _ => simp [act,Option.map_map,Function.comp_def]
  · rfl

end Account

section counting
variable {k id : Nat}

/-- A statement is marked as finalized when it was, and it was at most once. -/
def Counted (w : World) : Prop := ∀ id, finalizations w id = if w.finalized id then 1 else 0

theorem finalize_counted (counted : Counted w) (fresh : w.finalized id = false) : Counted (w.finalize id) := by
  intro other
  have before := counted other
  by_cases same : other = id
  · subst same
    simpa [finalizations,World.finalize,World.use,isFinalize,fresh] using before
  · simpa [finalizations,World.finalize,World.use,isFinalize,Ne.symm same,same] using before

theorem finalizeAll_counted (n : Nat) (counted : Counted w) : Counted (w.finalizeAll p k n) := by
  induction n generalizing w with
  | zero => exact counted
  | succ n ih =>
    unfold finalizeAll
    cases named : p.nextStmt w k with
    | none => exact counted
    | some id => exact ih (finalize_counted counted (mem_openStatements.mp (p.nextStmt_open named)).2.2)

end counting

/-- The books agree with the World: what was opened is valid or was closed once, the
statements of a closed connection are finalized, and what was moved from owns nothing. -/
structure Books (a : Account) : Prop where
  counted : Counted a.world
  swept : ∀ id k, a.world.handles id = some k → a.world.connections k = false → a.world.finalized id = true
  small : ∀ k ∈ a.opened, k < a.world.next
  closed : ∀ k, a.closed.count k = if k ∈ a.opened ∧ a.world.connections k = false then 1 else 0
  valid : ∀ k, a.world.connections k = true → k ∈ a.opened
  away : ∀ d ∈ a.movedDatabases, d < a.world.next ∧ ∀ k, a.world.databases d = some k → k ∉ a.opened
  gone : ∀ c ∈ a.movedCommands, c < a.world.next ∧ ∀ cmd, a.world.commands c = some cmd → cmd.connection = none

namespace Books
variable {a : Account}

theorem init : Books {} where
  counted := by
    intro id
    simp [finalizations]
  swept := by simp
  small := by simp
  closed := by simp
  valid := by simp
  away := by simp
  gone := by simp

theorem close (books : Books a) (bound : ∀ id k, a.world.handles id = some k → id < a.world.next) (k : Nat) :
    Books (a.close p k) := by
  cases isOpen : a.world.connections k with
  | false =>
    have same : a.close p k = a := by simp [Account.close,World.close,isOpen]
    rw [same]
    exact books
  | true =>
    obtain ⟨rest,others,_⟩ := @finalizeAll_swept p k a.world (a.world.openStatements k).length isOpen
    have none := @close_open p k a.world isOpen
    have counted := @finalizeAll_counted p a.world k (a.world.openStatements k).length books.counted
    unfold Account.close
    simp only [World.close,isOpen,if_true] at none ⊢
    generalize a.world.finalizeAll p k (a.world.openStatements k).length = v at rest others none counted
    have handles : v.handles = a.world.handles := by rw [rest]
    have connections : v.connections = a.world.connections := by rw [rest]
    have next : v.next = a.world.next := by rw [rest]
    refine {counted := counted,swept := ?_,small := ?_,closed := ?_,valid := ?_,away := ?_,gone := ?_}
    · intro id other handle gone
      rw [handles] at handle
      by_cases same : other = k
      · subst same
        by_contra fresh
        have listed : id ∈ v.openStatements other := by
          rw [mem_openStatements,next,handles]
          exact ⟨bound id other handle,handle,by simpa using fresh⟩
        have unlisted : id ∉ v.openStatements other := by
          rw [show v.openStatements other = [] from none]
          exact List.not_mem_nil
        exact unlisted listed
      · have before : a.world.connections other = false := by simpa [same,connections] using gone
        exact (others id (by simp [handle,same])).trans (books.swept id other handle before)
    · intro other opened
      exact lt_of_lt_of_eq (books.small other opened) next.symm
    · intro other
      have before := books.closed other
      by_cases same : other = k
      · subst same
        simpa [isOpen,books.valid other isOpen] using before
      · simpa [same,Ne.symm same,connections] using before
    · intro other still
      have differ : other ≠ k := by
        rintro rfl
        simp at still
      exact books.valid other (by simpa [differ,connections] using still)
    · intro d moved
      rw [rest]
      exact books.away d moved
    · intro c moved
      rw [rest]
      exact books.gone c moved

theorem release (books : Books a) (bound : ∀ id k, a.world.handles id = some k → id < a.world.next) (k : Nat) :
    Books (a.release p k) := by
  unfold Account.release
  split_ifs
  · exact books
  · exact books.close bound k

/-- Fewer objects change nothing in the books. -/
theorem erase (books : Books a) {databases : Nat → Option Nat} {commands : Nat → Option CommandObject}
    (fewer : ∀ d k, databases d = some k → a.world.databases d = some k)
    (fewer' : ∀ c cmd, commands c = some cmd → a.world.commands c = some cmd) :
    Books {a with world := {a.world with databases,commands}} where
  __ := books
  away := by
    intro d moved
    obtain ⟨old,owns⟩ := books.away d moved
    exact ⟨old,fun k database => owns k (fewer d k database)⟩
  gone := by
    intro c moved
    obtain ⟨old,holds⟩ := books.gone c moved
    exact ⟨old,fun cmd command => holds cmd (fewer' c cmd command)⟩

theorem finalize (books : Books a) {id : Nat} (fresh : a.world.finalized id = false) :
    Books {a with world := a.world.finalize id} where
  __ := books
  counted := finalize_counted books.counted fresh
  swept := by
    intro other k handle gone
    by_cases same : other = id
    · rw [same]
      exact Function.update_self _ _ _
    · exact (Function.update_of_ne same _ _).trans (books.swept other k handle gone)

theorem grow (books : Books a) : Books {a with world := {a.world with next := a.world.next + 1}} where
  __ := books
  small := fun k opened => Nat.lt_succ_of_lt (books.small k opened)
  away := fun d moved => ⟨Nat.lt_succ_of_lt (books.away d moved).1,(books.away d moved).2⟩
  gone := fun c moved => ⟨Nat.lt_succ_of_lt (books.gone c moved).1,(books.gone c moved).2⟩

theorem openDatabase (books : Books a) (sound : Lifetime.Sound a.world) : Books a.openDatabase := by
  have unknown : a.world.next ∉ a.opened := fun opened => Nat.lt_irrefl _ (books.small _ opened)
  refine {books.grow with swept := ?_,small := ?_,closed := ?_,valid := ?_,away := ?_}
  · intro id k handle gone
    have old := (sound.prepared id k handle).ne
    exact books.swept id k handle (by simpa [Account.openDatabase,World.openDatabase,old] using gone)
  · intro k opened
    rcases List.mem_append.mp opened with before | last
    · exact Nat.lt_succ_of_lt (books.small k before)
    · rw [List.mem_singleton] at last
      exact last ▸ Nat.lt_succ_self _
  · intro k
    have before := books.closed k
    by_cases same : k = a.world.next
    · subst same
      simpa [Account.openDatabase,World.openDatabase,unknown] using before
    · simpa [Account.openDatabase,World.openDatabase,same] using before
  · intro k still
    by_cases same : k = a.world.next
    · simp [Account.openDatabase,same]
    · have before := books.valid k (by simpa [Account.openDatabase,World.openDatabase,same] using still)
      exact List.mem_append_left _ before
  · intro d moved
    obtain ⟨old,owns⟩ := books.away d moved
    refine ⟨Nat.lt_succ_of_lt old,?_⟩
    intro k database
    have kept : a.world.databases d = some k := by
      simpa [Account.openDatabase,World.openDatabase,old.ne] using database
    have differ := (sound.opened d k kept).ne
    simpa [Account.openDatabase,differ] using owns k kept

theorem moveDatabase (books : Books a) (sound : Lifetime.Sound a.world) {d : Nat} {b : Account}
    (moved : a.moveDatabase d = some b) : Books b := by
  obtain ⟨w,ran,rfl⟩ := Option.map_eq_some_iff.mp moved
  obtain ⟨k,database,rfl⟩ := Option.map_eq_some_iff.mp ran
  have unknown : a.world.next ∉ a.opened := fun opened => Nat.lt_irrefl _ (books.small _ opened)
  refine {books.grow with away := ?_}
  intro e moved
  by_cases same : e = d
  · subst same
    refine ⟨Nat.lt_succ_of_lt (sound.database_lt database),?_⟩
    intro k' now
    have fresh : k' = a.world.next := by simpa [eq_comm] using now
    exact fresh ▸ unknown
  · obtain ⟨old,owns⟩ := books.away e (by simpa [same] using moved)
    refine ⟨Nat.lt_succ_of_lt old,?_⟩
    intro k' now
    exact owns k' (by simpa [same,old.ne] using now)

theorem moveCommand (books : Books a) (sound : Lifetime.Sound a.world) {c : Nat} {b : Account}
    (moved : a.moveCommand c = some b) : Books b := by
  obtain ⟨w,ran,rfl⟩ := Option.map_eq_some_iff.mp moved
  obtain ⟨cmd,command,rfl⟩ := Option.map_eq_some_iff.mp ran
  refine {books.grow with gone := ?_}
  intro e moved
  by_cases same : e = c
  · subst same
    refine ⟨Nat.lt_succ_of_lt (sound.command_lt command),?_⟩
    intro new now
    have left : CommandObject.movedFrom = new := by simpa using now
    exact left ▸ rfl
  · obtain ⟨old,holds⟩ := books.gone e (by simpa [same] using moved)
    refine ⟨Nat.lt_succ_of_lt old,?_⟩
    intro new now
    exact holds new (by simpa [World.addCommand,same,old.ne] using now)

theorem addHandle (books : Books a) {k : Nat} (isOpen : a.world.connections k = true) (q : Query) :
    Books {a with world := a.world.addHandle k q} := by
  refine {books.grow with swept := ?_}
  intro id other handle gone
  by_cases same : id = a.world.next
  · have own : other = k := by simpa [World.addHandle,same,eq_comm] using handle
    have closed : a.world.connections other = false := gone
    simp [own,isOpen] at closed
  · exact books.swept id other (by simpa [World.addHandle,same] using handle) gone

theorem addCommand (books : Books a) (cmd : CommandObject) : Books {a with world := a.world.addCommand cmd} := by
  refine {books.grow with gone := ?_}
  intro c moved
  obtain ⟨old,holds⟩ := books.gone c moved
  refine ⟨Nat.lt_succ_of_lt old,?_⟩
  intro new now
  exact holds new (by simpa [World.addCommand,old.ne] using now)

theorem prepare (books : Books a) {d : Nat} {sql : Compiled} {parameters : Option DbValues} {w : World}
    (prepared : a.world.prepare d sql parameters = some w) : Books {a with world := w} := by
  obtain ⟨k,database,rfl⟩ := Option.map_eq_some_iff.mp prepared
  split_ifs with isOpen
  · cases sql with
    | error => exact books
    | empty =>
      simp only
      split_ifs
      · exact books.addCommand _
      · exact books
    | statement q =>
      have added := books.addHandle isOpen q
      simp only
      split_ifs
      · exact added.addCommand _
      · exact added
  · exact books

theorem close_handles (p : Sqlite) (k : Nat) (w : World) :
    (w.close p k).handles = w.handles ∧ (w.close p k).next = w.next := by
  rw [close_rest]
  exact ⟨rfl,rfl⟩

theorem erase_some {β : Type} {f : Nat → Option β} {n : Nat} (i : Nat) (b : β)
    (there : Function.update f n none i = some b) : f i = some b :=
  (PartialMap.erase_eq_some.mp there).2

theorem destroyDatabase (books : Books a) (bound : ∀ id k, a.world.handles id = some k → id < a.world.next) {d : Nat}
    {b : Account} (destroyed : a.destroyDatabase p d = some b) : Books b := by
  obtain ⟨k,database,rfl⟩ := Option.map_eq_some_iff.mp destroyed
  obtain ⟨handles,next⟩ := close_handles p k a.world
  have closed := @Books.close p a books bound k
  have erased := closed.erase (fun i b => erase_some (n := d) i b) (fun _ _ same => same)
  apply erased.release
  intro id other handle
  exact lt_of_lt_of_eq (bound id other (handles ▸ handle)) next.symm

theorem destroyCommand (books : Books a) (sound : Lifetime.Sound a.world) {c : Nat}
    {b : Account} (destroyed : a.destroyCommand p c = some b) : Books b := by
  obtain ⟨cmd,command,rfl⟩ := Option.map_eq_some_iff.mp destroyed
  have fresh : ∀ k id, cmd.connection = some k → cmd.stmt = some id → a.world.connections k = true →
      a.world.finalized id = false := by
    intro k id connection stmt isOpen
    exact (live_iff.mp (sound.held_live command stmt connection isOpen)).choose_spec.2.2
  have bound : ∀ id k, a.world.handles id = some k → id < a.world.next := fun id k handle => sound.handle_lt handle
  split
  · rename_i k id connection stmt
    apply Books.release _ (by split_ifs <;> exact bound)
    apply Books.erase _ (fun _ _ same => same) erase_some
    split_ifs with isOpen
    · exact books.finalize (fresh k id connection stmt isOpen)
    · exact books
  · exact (books.erase (fun _ _ same => same) erase_some).release bound _
  · exact books.erase (fun _ _ same => same) erase_some

end Books

/-- What executions, callbacks and edits of parameters leave as it is. -/
structure Quiet (w u : World) : Prop where
  next : u.next = w.next
  connections : u.connections = w.connections
  handles : u.handles = w.handles
  finalized : u.finalized = w.finalized
  databases : u.databases = w.databases
  commands : ∀ c cmd, u.commands c = some cmd → ∃ old, w.commands c = some old ∧ cmd.connection = old.connection
  log : ∀ id, finalizations u id = finalizations w id

namespace Quiet

theorem refl (w : World) : Quiet w w := ⟨rfl,rfl,rfl,rfl,rfl,fun _ cmd command => ⟨cmd,command,rfl⟩,fun _ => rfl⟩

theorem trans {v : World} (first : Quiet w u) (second : Quiet u v) : Quiet w v where
  next := second.next.trans first.next
  connections := second.connections.trans first.connections
  handles := second.handles.trans first.handles
  finalized := second.finalized.trans first.finalized
  databases := second.databases.trans first.databases
  commands := by
    intro c cmd command
    obtain ⟨middle,there,same⟩ := second.commands c cmd command
    obtain ⟨old,before,same'⟩ := first.commands c middle there
    exact ⟨old,before,same.trans same'⟩
  log := fun id => (second.log id).trans (first.log id)

theorem use (w : World) {call : SqliteCall} (other : call ≠ .finalize) (id : Nat) : Quiet w (w.use call id) where
  __ := refl w
  log := by
    intro id'
    simp [finalizations,World.use,isFinalize,other]

theorem setCommand {c : Nat} {cmd : CommandObject} (command : w.commands c = some cmd) (parameters : DbValues) :
    Quiet w (w.setCommand c {cmd with parameters}) where
  __ := refl w
  commands := by
    intro i new there
    rcases PartialMap.update_eq_some.mp there with ⟨rfl,same⟩ | ⟨_,before⟩
    · cases same
      exact ⟨cmd,command,rfl⟩
    · exact ⟨new,before,rfl⟩

theorem setStatement {q : Query} (w : World) (id : Nat) (stmt : Stmt q) : Quiet w (w.setStatement id stmt) :=
  {refl w with}

theorem loops (w : World) (loops : List Loop) (stepping : Bool) : Quiet w {w with loops,stepping} := {refl w with}

theorem pop (w : World) (loop : Loop) (outer : List Loop) : Quiet w (w.pop loop outer) :=
  ((use w (by decide) loop.guard).trans (setStatement _ _ _)).trans (loops _ _ _)

theorem bindAll {c : Nat} {cmd : CommandObject} (command : w.commands c = some cmd) (id : Nat) (parameters : DbValues) :
    Quiet w (w.bindAll c cmd id parameters) := by
  have set := setCommand command parameters
  unfold World.bindAll
  split_ifs
  · exact set
  · exact set.trans (use _ (by decide) id)

theorem enter {c : Nat} {cmd : CommandObject} (command : w.commands c = some cmd) (k id : Nat) (parameters : DbValues) :
    Quiet w (w.enter p c cmd k id parameters) := by
  unfold World.enter
  split_ifs
  · cases Command.given parameters ⟨true,(w.statements id).stmt,cmd.parameters⟩ with
    | error e left => exact setCommand command left.parameters
    | ok done set =>
      have bound := bindAll command id set.parameters
      simp only
      cases Command.bind p.toPlatform set with
      | error e left => exact bound.trans (setStatement _ _ _)
      | ok done ready => exact (bound.trans (setStatement _ _ _)).trans (loops _ _ _)
  · exact refl w

theorem execute {c : Nat} {parameters : DbValues} (executed : w.execute p c parameters = some u) : Quiet w u := by
  obtain ⟨cmd,command,rfl⟩ := Option.map_eq_some_iff.mp executed
  split
  · exact enter command _ _ _
  · exact setCommand command _
  · exact {refl w with}

theorem stepLoop (stepped : w.stepLoop = some u) : Quiet w u := by
  obtain ⟨loop,outer,_,⟨_,rfl⟩ | ⟨cmd,_,result⟩⟩ := stepLoop_cases stepped
  · refine {refl w with log := ?_}
    intro id
    simp [finalizations,isFinalize]
  · rcases result with ⟨_,rfl⟩ | ⟨id,used,_,rfl,result⟩
    · exact pop w loop outer
    · have used := (use w (by decide : SqliteCall.step ≠ .finalize) id).trans
        (setStatement _ id (w.statements id).stmt.step.2)
      rcases result with rfl | rfl
      · exact used.trans (Quiet.loops _ _ _)
      · exact used.trans (pop _ loop outer)

theorem books {a : Account} (books : Books a) (quiet : Quiet a.world u) : Books {a with world := u} where
  counted := by
    intro id
    rw [quiet.log,quiet.finalized]
    exact books.counted id
  swept := by
    rw [quiet.handles,quiet.connections,quiet.finalized]
    exact books.swept
  small := by
    rw [quiet.next]
    exact books.small
  closed := by
    rw [quiet.connections]
    exact books.closed
  valid := by
    rw [quiet.connections]
    exact books.valid
  away := by
    rw [quiet.next,quiet.databases]
    exact books.away
  gone := by
    intro c moved
    obtain ⟨small,holds⟩ := books.gone c moved
    refine ⟨lt_of_lt_of_eq small quiet.next.symm,?_⟩
    intro cmd command
    obtain ⟨old,before,same⟩ := quiet.commands c cmd command
    exact same.trans (holds old before)

end Quiet

/-- Objects come, move and go outside of callbacks. -/
def Outside (a : Account) : Label → Prop
  | .openDatabase => a.world.loops = []
  | .moveDatabase _ => a.world.loops = []
  | .destroyDatabase _ => a.world.loops = []
  | .prepare _ _ _ => a.world.loops = []
  | .moveCommand _ => a.world.loops = []
  | .destroyCommand _ => a.world.loops = []
  | _ => True

/-- A step that is not safe hands a dead statement to sqlite, and the run ends there. -/
theorem unsafe_broken {a : Account} {label : Label} (outside : Outside a label) (safe : ¬ Lifetime.Safe a.world label)
    (sound : Lifetime.Sound a.world) (acted : a.world.act p label = some u) : u.broken = true := by
  cases label with
  | destroyDatabase d => exact absurd (by simp [Lifetime.Safe,show a.world.loops = [] from outside]) safe
  | destroyCommand c => exact absurd (by simp [Lifetime.Safe,show a.world.loops = [] from outside]) safe
  | getParameterNames c =>
    simp only [Lifetime.Safe,not_forall] at safe
    obtain ⟨cmd,k,id,command,connection,stmt,filled,closed⟩ := safe
    obtain ⟨other,same,handle,_⟩ := sound.held c cmd id command stmt
    rw [connection] at same
    cases same
    have dead : a.world.live id = false := by simp [World.live,handle,closed]
    simp only [World.act,World.getParameterNames,command,Option.map_some,stmt,List.length_eq_zero_iff,filled,
      if_false,Option.some.injEq] at acted
    simp [← acted,World.use,dead]
  | step =>
    simp only [Lifetime.Safe,not_forall,not_not] at safe
    obtain ⟨loop,innermost,gone⟩ := safe
    obtain ⟨outer,loops⟩ := List.head?_eq_some_iff.mp innermost
    simp only [World.act,World.stepLoop,loops,gone,Option.some.injEq] at acted
    simp [← acted]
  | _ => exact absurd trivial safe

structure Kept (a : Account) : Prop where
  sound : a.world.broken = false → Lifetime.Sound a.world
  books : Books a

theorem Kept.step {a b : Account} {label : Label} (kept : Kept a) (outside : Outside a label)
    (stepped : a.step p label = some b) : Kept b := by
  have ran := Account.step_world p a label
  rw [stepped] at ran
  obtain ⟨whole,_,acted⟩ := step_acts ran.symm
  have sound := kept.sound whole
  unfold Account.step at stepped
  split_ifs at stepped
  refine ⟨?_,?_⟩
  · intro whole
    by_cases safe : Lifetime.Safe a.world label
    · exact sound.step safe ran.symm
    · simp [unsafe_broken outside safe sound acted] at whole
  · have quiet (calm : Quiet a.world b.world) (same : (a.world.act p label).map (fun w => {a with world := w}) = some b) :
        Books b := by
      rw [acted] at same
      rw [← Option.some.inj same]
      exact calm.books kept.books
    cases label with
    | openDatabase => exact Option.some.inj stepped ▸ kept.books.openDatabase sound
    | moveDatabase d => exact kept.books.moveDatabase sound stepped
    | destroyDatabase d => exact kept.books.destroyDatabase (fun id k handle => sound.handle_lt handle) stepped
    | prepare d sql parameters =>
      obtain ⟨w,prepared,same⟩ := Option.map_eq_some_iff.mp stepped
      exact same ▸ kept.books.prepare prepared
    | moveCommand c => exact kept.books.moveCommand sound stepped
    | destroyCommand c => exact kept.books.destroyCommand sound stepped
    | editParameters c parameters =>
      obtain ⟨cmd,command,same⟩ := Option.map_eq_some_iff.mp acted
      exact quiet (same ▸ Quiet.setCommand command parameters) stepped
    | getParameterNames c =>
      obtain ⟨cmd,command,same⟩ := Option.map_eq_some_iff.mp acted
      apply quiet _ stepped
      rw [← same]
      split
      · split_ifs
        · exact Quiet.refl _
        · exact Quiet.use _ (by decide) _
      · exact Quiet.refl _
    | execute c parameters => exact quiet (Quiet.execute acted) stepped
    | step => exact quiet (Quiet.stepLoop acted) stepped
    | next =>
      obtain ⟨loop,outer,_,same⟩ := nextRow_cases acted
      exact quiet (same ▸ Quiet.loops _ _ _) stepped
    | leave =>
      obtain ⟨loop,outer,_,same⟩ := leave_cases acted
      exact quiet (same ▸ Quiet.pop _ _ _) stepped

theorem Kept.init : Kept {} := ⟨fun _ => Lifetime.Sound.init,Books.init⟩

theorem Books.destroy_away {a : Account} (books : Books a) {d k : Nat} (moved : d ∈ a.movedDatabases)
    (database : a.world.databases d = some k) :
    a.destroyDatabase p d =
      some {a with world := {a.world with databases := Function.update a.world.databases d none}} := by
  have closed : a.world.connections k = false := by
    by_contra valid
    exact (books.away d moved).2 k database (books.valid k (by simpa using valid))
  have same : a.close p k = a := by simp [Account.close,World.close,closed]
  simp only [Account.destroyDatabase,database,Option.map_some,same,Option.some.injEq]
  unfold Account.release
  split_ifs
  · rfl
  · simp [Account.close,World.close,closed]

theorem Books.destroy_gone {a : Account} (books : Books a) {c : Nat} {cmd : CommandObject}
    (moved : c ∈ a.movedCommands) (command : a.world.commands c = some cmd) :
    a.destroyCommand p c =
      some {a with world := {a.world with commands := Function.update a.world.commands c none}} := by
  have none := (books.gone c moved).2 cmd command
  obtain ⟨connection,stmt,parameters,connected⟩ := cmd
  cases none
  simp only [Account.destroyCommand,command,Option.map_some]

/-- In every run every statement is finalized at most once, and exactly once by the time
its connection is closed; a connection is closed once, by a loop that ends with no
statement left; and destroying what was moved from does nothing else. -/
theorem finalized_once {a : Account} (run : Reaches (Account.step p) Outside {} a) :
    (∀ id, finalizations a.world id ≤ 1) ∧
      (∀ id k, a.world.handles id = some k → a.world.connections k = false → finalizations a.world id = 1) ∧
      (∀ k, a.closed.count k = if k ∈ a.opened ∧ a.world.connections k = false then 1 else 0) ∧
      (∀ k, ∃ u, Closing p k a.world u ∧ u.openStatements k = [] ∧
        a.world.close p k = if a.world.connections k then
          {u with connections := Function.update u.connections k false} else a.world) ∧
      (∀ d ∈ a.movedDatabases, ∀ k, a.world.databases d = some k → a.destroyDatabase p d =
        some {a with world := {a.world with databases := Function.update a.world.databases d none}}) ∧
      (∀ c ∈ a.movedCommands, ∀ cmd, a.world.commands c = some cmd → a.destroyCommand p c =
        some {a with world := {a.world with commands := Function.update a.world.commands c none}}) := by
  have kept : Kept a := run.invariant Kept.init fun kept outside stepped => kept.step outside stepped
  have books := kept.books
  refine ⟨?_,?_,books.closed,?_,?_,?_⟩
  · intro id
    rw [books.counted id]
    split_ifs <;> decide
  · intro id k handle closed
    rw [books.counted id,books.swept id k handle closed]
    rfl
  · intro k
    exact ⟨_,closing_terminates (Nat.le_refl _),finalizeAll_open (Nat.le_refl _),rfl⟩
  · intro d moved k database
    exact books.destroy_away moved database
  · intro c moved cmd command
    exact books.destroy_gone moved command

theorem finalized_once_moved : ∃ a : Account,
    runAll (Account.step .usual) {} [.openDatabase,.prepare 0 (.statement Lifetime.oneRow) none,.moveDatabase 0,
      .moveCommand 2,.destroyDatabase 0,.destroyCommand 2,.destroyDatabase 3,.destroyCommand 4] = some a ∧
    finalizations a.world 1 = 1 ∧ a.closed.count 0 = 1 := by
  have first : Reaches (Account.step .usual) Outside {} _ := Reaches.start.next .openDatabase rfl rfl
  have second := first.next (.prepare 0 (.statement Lifetime.oneRow) none) rfl rfl
  have third := second.next (.moveDatabase 0) rfl rfl
  have fourth := third.next (.moveCommand 2) rfl rfl
  have fifth := fourth.next (.destroyDatabase 0) rfl rfl
  have sixth := fifth.next (.destroyCommand 2) rfl rfl
  have seventh := sixth.next (.destroyDatabase 3) rfl rfl
  have last := seventh.next (.destroyCommand 4) rfl rfl
  obtain ⟨_,finalized,closed,_⟩ := finalized_once last
  exact ⟨_,rfl,finalized 1 0 rfl rfl,closed 0⟩

end Sl3.Finalization
