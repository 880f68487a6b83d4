import Sl3.EntryPoints
import Sl3.Finalization

/-! Entry points called on objects without a connection: a Database that was moved from has
one that is not valid, the Commands of a destroyed Database share one that was closed, and
a Command that was moved from points to none. -/
namespace Sl3.Disconnected
open World EntryPoints Library Library.Machine
variable {p : Sqlite} {w u : World} {c : Nat}

/-- Numbers of objects and connections are below the next one. -/
structure Numbered (w : World) : Prop where
  connections : ∀ k, w.connections k = true → k < w.next
  databases : ∀ d k, w.databases d = some k → d < w.next ∧ k < w.next
  commands : ∀ c cmd, w.commands c = some cmd → c < w.next ∧ ∀ k, cmd.connection = some k → k < w.next

/-- What no operation does: it opens no connection that was there before and gives no object that
was there before one that is open. -/
structure Follows (w u : World) : Prop where
  next : w.next ≤ u.next
  connections : ∀ k, u.connections k = true → w.connections k = true ∨ w.next ≤ k ∧ k < u.next
  databases : ∀ d k, u.databases d = some k → w.databases d = some k ∨
    k < u.next ∧ d < u.next ∧ (w.next ≤ d ∨ u.connections k = false)
  commands : ∀ c cmd, u.commands c = some cmd →
    (∃ old, w.commands c = some old ∧ (cmd.connection = old.connection ∨ cmd.connection = none)) ∨
      w.next ≤ c ∧ c < u.next ∧ ∀ k, cmd.connection = some k → k < w.next

/-- Nothing comes into being; things may go, and connections may be closed or given up. -/
structure Fewer (w u : World) : Prop where
  next : u.next = w.next
  connections : ∀ k, u.connections k = true → w.connections k = true
  databases : ∀ d k, u.databases d = some k → w.databases d = some k
  commands : ∀ c cmd, u.commands c = some cmd →
    ∃ old, w.commands c = some old ∧ (cmd.connection = old.connection ∨ cmd.connection = none)

namespace Fewer
variable {v : World}

theorem refl (w : World) : Fewer w w :=
  ⟨rfl,fun _ isOpen => isOpen,fun _ _ database => database,fun _ cmd command => ⟨cmd,command,.inl rfl⟩⟩

theorem ofQuiet (quiet : Finalization.Quiet w u) : Fewer w u where
  next := quiet.next
  connections := fun k isOpen => by rwa [quiet.connections] at isOpen
  databases := fun d k database => by rwa [quiet.databases] at database
  commands := by
    intro c cmd command
    obtain ⟨old,before,same⟩ := quiet.commands c cmd command
    exact ⟨old,before,.inl same⟩

theorem trans (first : Fewer w v) (second : Fewer v u) : Fewer w u where
  next := second.next.trans first.next
  connections := fun k isOpen => first.connections k (second.connections k isOpen)
  databases := fun d k database => first.databases d k (second.databases d k database)
  commands := by
    intro c cmd command
    obtain ⟨middle,later,same⟩ := second.commands c cmd command
    obtain ⟨old,before,same'⟩ := first.commands c middle later
    refine ⟨old,before,?_⟩
    rcases same with same | gone
    · rwa [same]
    · exact .inr gone

theorem close (p : Sqlite) (k : Nat) (w : World) : Fewer w (w.close p k) := by
  rw [close_rest]
  refine {refl w with connections := ?_}
  intro other still
  by_cases same : other = k
  · simp [same] at still
  · simpa [same] using still

theorem release (p : Sqlite) (k : Nat) (w : World) : Fewer w (w.release p k) := by
  unfold World.release
  split_ifs
  · exact refl w
  · exact close p k w

theorem eraseDatabase (w : World) (d : Nat) :
    Fewer w {w with databases := Function.update w.databases d none} where
  __ := refl w
  databases := fun _ _ database => (PartialMap.erase_eq_some.mp database).2

theorem eraseCommand (w : World) (c : Nat) :
    Fewer w {w with commands := Function.update w.commands c none} where
  __ := refl w
  commands := fun _ cmd command => ⟨cmd,(PartialMap.erase_eq_some.mp command).2,.inl rfl⟩

theorem emptyCommand (there : (w.commands c).isSome) :
    Fewer w {w with commands := Function.update w.commands c (some .movedFrom)} where
  __ := refl w
  commands := by
    intro i cmd command
    rcases PartialMap.update_eq_some.mp command with ⟨rfl,same⟩ | ⟨_,before⟩
    · cases same
      obtain ⟨old,before⟩ := Option.isSome_iff_exists.mp there
      exact ⟨old,before,.inr rfl⟩
    · exact ⟨cmd,before,.inl rfl⟩

theorem destroyDatabase {d : Nat} (destroyed : w.destroyDatabase p d = some u) : Fewer w u := by
  obtain ⟨k,_,rfl⟩ := Option.map_eq_some_iff.mp destroyed
  exact ((close p k w).trans (eraseDatabase _ d)).trans (release p k _)

theorem destroyCommand (destroyed : w.destroyCommand p c = some u) : Fewer w u := by
  obtain ⟨cmd,_,rfl⟩ := Option.map_eq_some_iff.mp destroyed
  split
  · rename_i k id connection stmt
    have finalized : Fewer w (if w.connections k then w.finalize id else w) := by
      split_ifs
      · exact {refl w with}
      · exact refl w
    exact (finalized.trans (eraseCommand _ c)).trans (release p k _)
  · exact (eraseCommand w c).trans (release p _ _)
  · exact eraseCommand w c

theorem getParameterNames (asked : w.getParameterNames c = some u) : Fewer w u := by
  obtain ⟨cmd,_,rfl⟩ := Option.map_eq_some_iff.mp asked
  split
  · split_ifs
    · exact refl w
    · exact {refl w with}
  · exact refl w

end Fewer

section follows

theorem Numbered.init : Numbered {} := ⟨nofun,nofun,nofun⟩

theorem Follows.numbered (follows : Follows w u) (numbered : Numbered w) : Numbered u where
  connections := by
    intro k isOpen
    rcases follows.connections k isOpen with before | ⟨_,new⟩
    · exact (numbered.connections k before).trans_le follows.next
    · exact new
  databases := by
    intro d k database
    rcases follows.databases d k database with before | ⟨connection,object,_⟩
    · obtain ⟨object,connection⟩ := numbered.databases d k before
      exact ⟨object.trans_le follows.next,connection.trans_le follows.next⟩
    · exact ⟨object,connection⟩
  commands := by
    intro c cmd command
    rcases follows.commands c cmd command with ⟨old,before,same⟩ | ⟨_,object,connection⟩
    · obtain ⟨object,connection⟩ := numbered.commands c old before
      refine ⟨object.trans_le follows.next,fun k shares => ?_⟩
      rcases same with same | gone
      · exact (connection k (same ▸ shares)).trans_le follows.next
      · simp [gone] at shares
    · exact ⟨object,fun k shares => (connection k shares).trans_le follows.next⟩

theorem Follows.refl (w : World) : Follows w w where
  next := Nat.le_refl _
  connections := fun _ isOpen => .inl isOpen
  databases := fun _ _ database => .inl database
  commands := fun _ cmd command => .inl ⟨cmd,command,.inl rfl⟩

theorem Follows.fewer {v : World} (follows : Follows w v) (fewer : Fewer v u) : Follows w u where
  next := fewer.next ▸ follows.next
  connections := fun k isOpen => fewer.next ▸ follows.connections k (fewer.connections k isOpen)
  databases := by
    intro d k database
    rcases follows.databases d k (fewer.databases d k database) with before | ⟨connection,object,new⟩
    · exact .inl before
    · refine .inr ⟨fewer.next ▸ connection,fewer.next ▸ object,new.imp_right fun closed => ?_⟩
      by_contra isOpen
      simp [fewer.connections k (by simpa using isOpen)] at closed
  commands := by
    intro c cmd command
    obtain ⟨middle,later,same⟩ := fewer.commands c cmd command
    rcases follows.commands c middle later with ⟨old,before,same'⟩ | ⟨new,object,connection⟩
    · refine .inl ⟨old,before,?_⟩
      rcases same with same | gone
      · rwa [same]
      · exact .inr gone
    · refine .inr ⟨new,fewer.next ▸ object,fun k shares => ?_⟩
      rcases same with same | gone
      · exact connection k (same ▸ shares)
      · simp [gone] at shares

theorem fewer_follows (fewer : Fewer w u) : Follows w u := (Follows.refl w).fewer fewer

theorem openDatabase_follows : Follows w w.openDatabase where
  next := Nat.le_succ _
  connections := by
    intro k isOpen
    by_cases new : k = w.next
    · exact .inr ⟨new.ge,Nat.lt_succ_of_le new.le⟩
    · exact .inl (by simpa [openDatabase,new] using isOpen)
  databases := by
    intro d k database
    rcases PartialMap.update_eq_some.mp database with ⟨new,same⟩ | ⟨_,before⟩
    · cases same
      exact .inr ⟨Nat.lt_succ_self _,Nat.lt_succ_of_le new.le,.inl new.ge⟩
    · exact .inl before
  commands := fun c cmd command => .inl ⟨cmd,command,.inl rfl⟩

theorem next_closed (numbered : Numbered w) : w.connections w.next = false := by
  by_contra isOpen
  exact Nat.lt_irrefl _ (numbered.connections w.next (by simpa using isOpen))

theorem moveDatabase_follows (numbered : Numbered w) {d : Nat} (moved : w.moveDatabase d = some u) : Follows w u := by
  obtain ⟨k,owned,rfl⟩ := Option.map_eq_some_iff.mp moved
  refine ⟨Nat.le_succ _,fun _ isOpen => .inl isOpen,?_,fun c cmd command => .inl ⟨cmd,command,.inl rfl⟩⟩
  intro e k' database
  obtain ⟨object,connection⟩ := numbered.databases d k owned
  rcases PartialMap.update_eq_some.mp database with ⟨rfl,same⟩ | ⟨_,before⟩
  · cases same
    exact .inr ⟨Nat.lt_succ_self _,Nat.lt_succ_of_lt object,.inr (next_closed numbered)⟩
  · rcases PartialMap.update_eq_some.mp before with ⟨new,same⟩ | ⟨_,before⟩
    · cases same
      exact .inr ⟨Nat.lt_succ_of_lt connection,Nat.lt_succ_of_le new.le,.inl new.ge⟩
    · exact .inl before

theorem addHandle_follows (k : Nat) (q : Query) : Follows w (w.addHandle k q) where
  next := Nat.le_succ _
  connections := fun _ isOpen => .inl isOpen
  databases := fun _ _ database => .inl database
  commands := fun _ cmd command => .inl ⟨cmd,command,.inl rfl⟩

/-- The new Command may come after a new handle. -/
theorem addCommand_follows {v : World} (follows : Follows w v) {cmd : CommandObject}
    (shares : ∀ k, cmd.connection = some k → k < w.next) : Follows w (v.addCommand cmd) where
  next := follows.next.trans (Nat.le_succ _)
  connections := fun k isOpen => (follows.connections k isOpen).imp_right fun ⟨new,small⟩ => ⟨new,Nat.lt_succ_of_lt small⟩
  databases := fun d k database => (follows.databases d k database).imp_right fun ⟨connection,object,new⟩ =>
    ⟨Nat.lt_succ_of_lt connection,Nat.lt_succ_of_lt object,new⟩
  commands := by
    intro c other command
    rcases PartialMap.update_eq_some.mp command with ⟨new,same⟩ | ⟨_,before⟩
    · cases same
      exact .inr ⟨follows.next.trans new.ge,Nat.lt_succ_of_le new.le,shares⟩
    · exact (follows.commands c other before).imp_right fun ⟨new,object,connection⟩ =>
        ⟨new,Nat.lt_succ_of_lt object,connection⟩

theorem prepare_follows (numbered : Numbered w) {d : Nat} {sql : Compiled} {parameters : Option DbValues}
    (prepared : w.prepare d sql parameters = some u) : Follows w u := by
  obtain ⟨k,database,rfl⟩ := Option.map_eq_some_iff.mp prepared
  have shares : ∀ k', some k = some k' → k' < w.next := by
    rintro _ ⟨⟩
    exact (numbered.databases d k database).2
  split_ifs
  · cases sql with
    | error => exact Follows.refl w
    | empty =>
      simp only
      split_ifs
      · exact addCommand_follows (Follows.refl w) shares
      · exact Follows.refl w
    | statement q =>
      simp only
      split_ifs
      · exact addCommand_follows (addHandle_follows k q) shares
      · exact addHandle_follows k q
  · exact Follows.refl w

theorem moveCommand_follows (numbered : Numbered w) {c : Nat} (moved : w.moveCommand c = some u) : Follows w u := by
  obtain ⟨cmd,command,rfl⟩ := Option.map_eq_some_iff.mp moved
  obtain ⟨object,connection⟩ := numbered.commands c cmd command
  have added := addCommand_follows (Follows.refl w) connection
  apply added.fewer
  apply Fewer.emptyCommand
  simp [addCommand,object.ne,command]

theorem step_follows {label : Label} (numbered : Numbered w) (stepped : World.step p w label = some u) : Follows w u := by
  obtain ⟨_,_,acted⟩ := step_acts stepped
  cases label with
  | openDatabase => exact Option.some.inj acted ▸ openDatabase_follows
  | moveDatabase d => exact moveDatabase_follows numbered acted
  | destroyDatabase d => exact fewer_follows (Fewer.destroyDatabase acted)
  | prepare d sql parameters => exact prepare_follows numbered acted
  | moveCommand c => exact moveCommand_follows numbered acted
  | destroyCommand c => exact fewer_follows (Fewer.destroyCommand acted)
  | editParameters c parameters =>
    obtain ⟨cmd,command,same⟩ := Option.map_eq_some_iff.mp acted
    exact fewer_follows (.ofQuiet (same ▸ Finalization.Quiet.setCommand command parameters))
  | getParameterNames c => exact fewer_follows (Fewer.getParameterNames acted)
  | execute c parameters => exact fewer_follows (.ofQuiet (Finalization.Quiet.execute acted))
  | step => exact fewer_follows (.ofQuiet (Finalization.Quiet.stepLoop acted))
  | next =>
    obtain ⟨loop,outer,_,same⟩ := nextRow_cases acted
    exact fewer_follows (.ofQuiet (same ▸ Finalization.Quiet.loops _ _ _))
  | leave =>
    obtain ⟨loop,outer,_,same⟩ := leave_cases acted
    exact fewer_follows (.ofQuiet (same ▸ Finalization.Quiet.pop _ _ _))

end follows

section runs
variable {d k : Nat}

abbrev Run (p : Sqlite) := Reaches (World.step p) fun _ _ => True

structure Kept (Inv : World → Prop) (w : World) : Prop where
  numbered : Numbered w
  holds : Inv w

theorem run_kept {Inv : World → Prop} (keeps : ∀ {w u}, Follows w u → Inv w → Inv u) (start : Kept Inv w)
    (run : Run p w u) : Kept Inv u := by
  apply run.invariant start
  intro t v label kept _ stepped
  have follows := step_follows kept.numbered stepped
  exact ⟨follows.numbered kept.numbered,keeps follows kept.holds⟩

theorem run_numbered (run : Run p {} w) : Numbered w :=
  run.invariant Numbered.init fun numbered _ stepped => (step_follows numbered stepped).numbered numbered

def Closed (k : Nat) (w : World) : Prop := k < w.next ∧ w.connections k = false

theorem closed_keeps (follows : Follows w u) (closed : Closed k w) : Closed k u := by
  obtain ⟨small,invalid⟩ := closed
  refine ⟨small.trans_le follows.next,?_⟩
  by_contra isOpen
  rcases follows.connections k (by simpa using isOpen) with before | ⟨new,_⟩
  · simp [invalid] at before
  · omega

/-- The Database, while it exists, has a connection that is not valid. -/
def CutDatabase (d : Nat) (w : World) : Prop := d < w.next ∧ ∀ k, w.databases d = some k → Closed k w

theorem cutDatabase_keeps (follows : Follows w u) (cut : CutDatabase d w) : CutDatabase d u := by
  obtain ⟨small,closed⟩ := cut
  refine ⟨small.trans_le follows.next,fun k database => ?_⟩
  rcases follows.databases d k database with before | ⟨connection,_,new | invalid⟩
  · exact closed_keeps follows (closed k before)
  · omega
  · exact ⟨connection,invalid⟩

/-- The Command, while it exists, points to no connection. -/
def EmptyCommand (c : Nat) (w : World) : Prop := c < w.next ∧ ∀ cmd, w.commands c = some cmd → cmd.connection = none

theorem emptyCommand_keeps (follows : Follows w u) (empty : EmptyCommand c w) : EmptyCommand c u := by
  obtain ⟨small,none⟩ := empty
  refine ⟨small.trans_le follows.next,fun cmd command => ?_⟩
  rcases follows.commands c cmd command with ⟨old,before,same | gone⟩ | ⟨new,_⟩
  · exact same.trans (none old before)
  · exact gone
  · omega

theorem moveDatabase_cut (numbered : Numbered w) (stepped : World.step p w (.moveDatabase d) = some u) :
    CutDatabase d u := by
  obtain ⟨k,owned,rfl⟩ := Option.map_eq_some_iff.mp (step_acts stepped).2.2
  obtain ⟨object,_⟩ := numbered.databases d k owned
  refine ⟨Nat.lt_succ_of_lt object,fun k' database => ?_⟩
  have fresh : k' = w.next := by simpa [eq_comm] using database
  exact ⟨Nat.lt_succ_of_le fresh.le,fresh ▸ next_closed numbered⟩

theorem moveCommand_empty (numbered : Numbered w) (stepped : World.step p w (.moveCommand c) = some u) :
    EmptyCommand c u := by
  obtain ⟨cmd,command,rfl⟩ := Option.map_eq_some_iff.mp (step_acts stepped).2.2
  obtain ⟨object,_⟩ := numbered.commands c cmd command
  refine ⟨Nat.lt_succ_of_lt object,fun left now => ?_⟩
  have moved : CommandObject.movedFrom = left := by simpa using now
  exact moved ▸ rfl

theorem close_closes (p : Sqlite) (k : Nat) (w : World) : (w.close p k).connections k = false := by
  rw [close_rest]
  exact Function.update_self _ _ _

theorem destroyDatabase_closed (numbered : Numbered w) (owned : w.databases d = some k)
    (stepped : World.step p w (.destroyDatabase d) = some u) : Closed k u := by
  have same : w.destroyDatabase p d = some u := (step_acts stepped).2.2
  simp only [destroyDatabase,owned,Option.map_some,Option.some.injEq] at same
  have closed := close_closes p k w
  have small := (numbered.databases d k owned).2
  have fewer := fewer_follows (Fewer.close p k w)
  have before : Closed k (w.close p k) := ⟨small.trans_le fewer.next,closed⟩
  rw [← same]
  exact closed_keeps (fewer_follows ((Fewer.eraseDatabase _ d).trans (Fewer.release p k _))) before

end runs

/-- How an object that is there came to have no connection: a Database or a Command that was moved
from, or a Command with the connection of a Database that was destroyed. -/
inductive LostConnection (p : Sqlite) (w : World) : Place → Prop
  | movedDatabase {v u : World} {d k : Nat} (before : Run p {} v) (moved : World.step p v (.moveDatabase d) = some u)
      (after : Run p u w) (there : w.databases d = some k) : LostConnection p w (.database d)
  | movedCommand {v u : World} {c : Nat} {cmd : CommandObject} (before : Run p {} v)
      (moved : World.step p v (.moveCommand c) = some u) (after : Run p u w) (there : w.commands c = some cmd) :
      LostConnection p w (.command c)
  | destroyedDatabase {v u : World} {d k c : Nat} {cmd : CommandObject} (before : Run p {} v)
      (owned : v.databases d = some k) (destroyed : World.step p v (.destroyDatabase d) = some u) (after : Run p u w)
      (there : w.commands c = some cmd) (shares : cmd.connection = some k) : LostConnection p w (.command c)

/-- What has no connection, as it is represented: by one that is not valid or by an empty pointer. -/
def Cut (w : World) : Place → Prop
  | .database d => ∃ k, w.databases d = some k ∧ w.connections k = false
  | .command c => ∃ cmd, w.commands c = some cmd ∧ ∀ k, cmd.connection = some k → w.connections k = false

theorem LostConnection.cut {place : Place} (lost : LostConnection p w place) : Cut w place := by
  cases lost with
  | movedDatabase before moved after there =>
    have numbered := run_numbered before
    have cut := moveDatabase_cut numbered moved
    have start := (step_follows numbered moved).numbered numbered
    exact ⟨_,there,((run_kept cutDatabase_keeps ⟨start,cut⟩ after).holds.2 _ there).2⟩
  | movedCommand before moved after there =>
    have numbered := run_numbered before
    have empty := moveCommand_empty numbered moved
    have start := (step_follows numbered moved).numbered numbered
    have none := (run_kept emptyCommand_keeps ⟨start,empty⟩ after).holds.2 _ there
    exact ⟨_,there,fun k shares => by simp [none] at shares⟩
  | destroyedDatabase before owned destroyed after there shares =>
    have numbered := run_numbered before
    have closed := destroyDatabase_closed numbered owned destroyed
    have start := (step_follows numbered destroyed).numbered numbered
    have still := (run_kept closed_keeps ⟨start,closed⟩ after).holds.2
    refine ⟨_,there,fun k same => ?_⟩
    cases shares.symm.trans same
    exact still

/-- ErrNoConnection, with no call to sqlite, no null pointer dereferenced and nothing changed. -/
def FailsCleanly (routine : Routine Unit) (w : World) : Prop :=
  routine ⟨w,[]⟩ = .error (.threw (.sl3 errNoConnection)) ⟨w,[]⟩

/-- All need the connection, but for names that are asked of no parameter. -/
def Needs (w : World) : Entry → Prop
  | .getParameterNames c => ∃ cmd, w.commands c = some cmd ∧ cmd.parameters ≠ []
  | _ => True

def Meets (p : Sqlite) (answer : Answer) (w : World) (entry : Entry) : Prop :=
  Needs w entry → FailsCleanly (entry.run p answer) w

def Points (w : World) (c : Nat) : Prop := ∃ cmd, w.commands c = some cmd ∧ cmd.connection ≠ none

/-- Where the check comes first: `execute` asks the connection that the Command points to, the
overload with a RowCallback after `onStart`, and `getParameterNames` asks none. -/
def Suits (w : World) : Entry → Prop
  | .executeCommand c _ => Points w c
  | .selectCommand c _ => Points w c
  | .executeCommandRows c none _ => Points w c
  | .executeCommandRows _ (some thrown) _ => thrown = .sl3 errNoConnection
  | .getParameterNames c => ∀ cmd, w.commands c = some cmd → cmd.parameters = []
  | _ => True

section meets
variable {answer : Answer} {cmd : CommandObject}

theorem command_fails_iff (there : w.commands c = some cmd)
    (cut : ∀ k, cmd.connection = some k → w.connections k = false) (parameters : DbValues) :
    FailsCleanly (OnCommand.execute p answer c parameters) w ↔ Points w c := by
  cases pointer : cmd.connection with
  | none =>
    have dereferenced : OnCommand.execute p answer c parameters ⟨w,[]⟩ = .error .undefined ⟨w,[]⟩ :=
      command_moved there pointer parameters
    simp [FailsCleanly,dereferenced,Points,there,pointer]
  | some k =>
    have failed : OnCommand.execute p answer c parameters ⟨w,[]⟩ = .error (.threw (.sl3 errNoConnection)) ⟨w,[]⟩ :=
      command_closed there pointer (cut k pointer) parameters
    simp [FailsCleanly,failed,Points,there,pointer]

theorem names_fail_not : ¬ FailsCleanly (OnCommand.getParameterNames c) w := by
  unfold FailsCleanly OnCommand.getParameterNames Routine.becoming
  cases World.getParameterNames c w <;> simp

/-- All entry points of a Database ask its connection first. -/
theorem database_fails {d : Nat} {entry : Entry} (placed : entry.place = .database d) (cut : Cut w (.database d)) :
    FailsCleanly (entry.run p answer) w := by
  obtain ⟨k,there,closed⟩ := cut
  have prepares (sql : Compiled) (parameters : Option DbValues) :
      OnDatabase.prepare answer d sql parameters ⟨w,[]⟩ = .error (.threw (.sl3 errNoConnection)) ⟨w,[]⟩ :=
    prepare_closed there closed sql parameters
  have asks (f : SqliteFunction) :
      OnDatabase.getProperty answer f d ⟨w,[]⟩ = .error (.threw (.sl3 errNoConnection)) ⟨w,[]⟩ :=
    getProperty_closed there closed f
  cases entry with
  | execute e =>
    cases placed
    exact execute_closed there closed
  | executeRows e sql started =>
    cases placed
    exact stops_at (prepares sql none)
  | executeCallback e sql =>
    cases placed
    exact stops_at (prepares sql none)
  | select e sql =>
    cases placed
    exact stops_at (prepares sql none)
  | selectValue e sql =>
    cases placed
    exact stops_at (prepares sql none)
  | prepare e sql parameters =>
    cases placed
    exact discard_stops (prepares sql parameters)
  | getMostRecentErrCode e =>
    cases placed
    exact discard_stops (asks .extendedErrcode)
  | getMostRecentErrMsg e =>
    cases placed
    exact discard_stops (asks .errmsg)
  | getTotalChanges e =>
    cases placed
    exact discard_stops (asks .totalChanges)
  | getRecentlyChanged e =>
    cases placed
    exact discard_stops (asks .changes)
  | getLastInsertRowid e =>
    cases placed
    exact discard_stops (asks .lastInsertRowid)
  | beginTransaction e =>
    cases placed
    exact execute_closed there closed
  | _ => simp [Entry.place] at placed

theorem meets_iff {entry : Entry} (cut : Cut w entry.place) : Meets p answer w entry ↔ Suits w entry := by
  cases entry with
  | executeCommand c parameters =>
    obtain ⟨cmd,there,closed⟩ := cut
    have fails := @command_fails_iff p w c answer cmd there closed parameters
    simpa [Meets,Needs,Suits,Entry.run] using fails
  | selectCommand c parameters =>
    obtain ⟨cmd,there,closed⟩ := cut
    have fails := @command_fails_iff p w c answer cmd there closed parameters
    simpa [Meets,Needs,Suits,Entry.run,OnCommand.select] using fails
  | executeCommandRows c started parameters =>
    obtain ⟨cmd,there,closed⟩ := cut
    cases started with
    | none =>
      have fails := @command_fails_iff p w c answer cmd there closed parameters
      simpa [Meets,Needs,Suits,Entry.run,OnCommand.executeRows] using fails
    | some thrown =>
      have left : OnCommand.executeRows p answer c (some thrown) parameters ⟨w,[]⟩ = .error (.threw thrown) ⟨w,[]⟩ := rfl
      simp [Meets,Needs,Suits,Entry.run,FailsCleanly,left]
  | getParameterNames c =>
    have never := @names_fail_not w c
    simp [Meets,Needs,Suits,Entry.run,never]
  | _ => exact iff_of_true (fun _ => database_fails rfl cut) trivial

end meets

/-- In every run an entry point of an object that lost its connection throws ErrNoConnection and
does nothing else, exactly when it asks a connection first. -/
theorem fails_cleanly_iff {answer : Answer} {entry : Entry} (lost : LostConnection p w entry.place) :
    Meets p answer w entry ↔ Suits w entry :=
  meets_iff lost.cut

def destroyed : Option World := runAll (World.step .usual) {}
  [.openDatabase,.prepare 0 (.statement Lifetime.oneRow) none,.destroyDatabase 0]

def movedAway : Option World := runAll (World.step .usual) {}
  [.openDatabase,.prepare 0 (.statement Lifetime.oneRow) none,.moveCommand 2]

def silent : Answer := fun _ _ => (0,"")

theorem fails_cleanly_iff_destroyed : ∃ w, destroyed = some w ∧ Meets .usual silent w (.executeCommand 2 []) := by
  have first : Run .usual {} _ := Reaches.start.next .openDatabase trivial rfl
  have second : Run .usual {} _ := first.next (.prepare 0 (.statement Lifetime.oneRow) none) trivial rfl
  have lost : LostConnection .usual _ (.command 2) := .destroyedDatabase (d := 0) second rfl rfl .start rfl rfl
  have meets := @fails_cleanly_iff _ _ silent (.executeCommand 2 []) lost
  exact ⟨_,rfl,meets.mpr ⟨_,rfl,nofun⟩⟩

/-- A Command that was moved from has an empty pointer, and `execute` dereferences it. -/
theorem fails_cleanly_fails : ∃ w, movedAway = some w ∧ LostConnection .usual w (.command 2) ∧
    (Entry.executeCommand 2 []).run .usual silent ⟨w,[]⟩ = .error .undefined ⟨w,[]⟩ ∧
    ¬ Meets .usual silent w (.executeCommand 2 []) := by
  have first : Run .usual {} _ := Reaches.start.next .openDatabase trivial rfl
  have second : Run .usual {} _ := first.next (.prepare 0 (.statement Lifetime.oneRow) none) trivial rfl
  have lost : LostConnection .usual _ (.command 2) := .movedCommand (c := 2) second rfl .start rfl
  refine ⟨_,rfl,lost,rfl,fun meets => ?_⟩
  have failed := meets trivial
  cases failed

end Sl3.Disconnected
