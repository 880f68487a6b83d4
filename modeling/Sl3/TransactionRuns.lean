import Sl3.Disconnected
import Sl3.Transaction

/-! Guards of transactions in runs of the World: which of them still have a transaction to roll back
when they are destroyed, after any SQL and any moves of the Databases. -/
namespace Sl3.TransactionRuns
open World EntryPoints Disconnected Library Library.Machine

/-- A `Database::Transaction`, by its pointer `_db` to the object that began it. -/
structure Guard where
  db : Option Nat

/-- The World, the connections that have a transaction open, and the guards by number. `stopped` is why a
destructor did not return: an exception that left it, or a Database that is no longer there. -/
structure State where
  world : World := {}
  inside : Nat → Bool := fun _ => false
  next : Nat := 0
  guards : Nat → Option Guard := fun _ => none
  stopped : Option Stop := none

abbrev Operation := EStateM Stop State

/-- What sqlite makes of the texts of a guard, as far as it is about the open transaction. -/
def exec (sql : Transaction.Sql Unit) (inside : Bool) : Option Transaction.Failure × Bool :=
  let done := Transaction.exec sql ⟨true,(),if inside then some () else none,[]⟩
  (done.1,done.2.saved.isSome)

/-- `Database::execute` with such a text, on a pointer to the Database. -/
def execute (sql : Transaction.Sql Unit) (d : Nat) : Operation Unit := fun s =>
  match s.world.databases d with
  | none => .error .undefined s
  | some k =>
    if s.world.connections k then
      let done := exec sql (s.inside k)
      let s := {s with inside := Function.update s.inside k done.2}
      match done.1 with
      | none => .ok () s
      | some (rc,dbMsg) => .error (.threw (.sl3 (sqlite3Error rc dbMsg))) s
    else .error (.threw (.sl3 errNoConnection)) s

namespace Guard

def ofDatabase (d : Nat) : Operation Guard := do
  execute .beginTransaction d
  pure ⟨some d⟩

def move (other : Guard) : Guard × Guard := (other,⟨none⟩)

def destruct (guard : Guard) : Operation Unit :=
  match guard.db with
  | some d => execute .rollbackTransaction d
  | none => pure ()

def commit (guard : Guard) (refused : Option Transaction.Failure) : Operation Guard :=
  match guard.db with
  | some d => do
    execute (.commitTransaction refused) d
    pure ⟨none⟩
  | none => pure guard

end Guard

/-- Steps of the World may run the SQL of a Command, and `execute` that of the user: after either, `inside`
is what the SQL makes of it. -/
inductive Label where
  | world (label : World.Label) (inside : Nat → Bool)
  | execute (d : Nat) (inside : Bool)
  | beginTransaction (d : Nat)
  | moveGuard (g : Nat)
  | commit (g : Nat) (refused : Option Transaction.Failure)
  | destroyGuard (g : Nat)

def State.addGuard (s : State) (guard : Guard) : State where
  __ := s
  next := s.next + 1
  guards := Function.update s.guards s.next (some guard)

def State.setGuard (s : State) (g : Nat) (guard : Option Guard) : State where
  __ := s
  guards := Function.update s.guards g guard

/-- Code of the user runs, as long as nothing dead was used. -/
def State.user (s : State) : Bool := !s.world.broken && !s.world.stepping

def act (p : Sqlite) (s : State) : Label → Option State
  | .world label inside => (s.world.step p label).map fun world => {s with world,inside}
  | .execute d inside => (s.world.databases d).map fun k =>
    if s.world.connections k then {s with inside := Function.update s.inside k inside} else s
  | .beginTransaction d => (s.world.databases d).map fun _ =>
    match Guard.ofDatabase d s with
    | .ok guard s => s.addGuard guard
    | .error _ s => s
  | .moveGuard g => (s.guards g).map fun guard => (s.addGuard guard.move.1).setGuard g (some guard.move.2)
  | .commit g refused => (s.guards g).map fun guard =>
    match guard.commit refused s with
    | .ok left s => s.setGuard g (some left)
    | .error (.threw _) s => s
    | .error .undefined s => {s with stopped := some .undefined}
  | .destroyGuard g => (s.guards g).map fun guard =>
    match guard.destruct s with
    | .ok _ s => s.setGuard g none
    | .error stop s => {s with stopped := some stop}

def Label.ofWorld : Label → Bool
  | .world _ _ => true
  | _ => false

def step (p : Sqlite) (s : State) (label : Label) : Option State :=
  if s.stopped.isNone ∧ (label.ofWorld ∨ s.user) then act p s label else none

/-- The step takes its connection from the Database. -/
def Label.Takes (d : Nat) : Label → Prop
  | .world (.moveDatabase e) _ => e = d
  | .world (.destroyDatabase e) _ => e = d
  | _ => False

def Completes (guard : Guard) (s : State) : Prop := ∃ left, guard.destruct s = .ok () left

/-- A transaction is open on the connection of the Database. -/
def InTransaction (d : Nat) (s : State) : Prop := ∃ k, s.world.databases d = some k ∧ s.inside k = true

section world
variable {p : Sqlite} {w u : World} {d : Nat}

/-- No two Databases have one connection. -/
def Unshared (w : World) : Prop := ∀ d e k, w.databases d = some k → w.databases e = some k → d = e

def Connected (d : Nat) (w : World) : Prop := ∃ k, w.databases d = some k ∧ w.connections k = true

theorem prepare_rest {sql : Compiled} {parameters : Option DbValues} (prepared : w.prepare d sql parameters = some u) :
    u.databases = w.databases ∧ u.connections = w.connections := by
  obtain ⟨k,_,rfl⟩ := Option.map_eq_some_iff.mp prepared
  split_ifs
  · cases sql with
    | error => exact ⟨rfl,rfl⟩
    | empty =>
      simp only
      split_ifs <;> exact ⟨rfl,rfl⟩
    | statement q =>
      simp only
      split_ifs <;> exact ⟨rfl,rfl⟩
  · exact ⟨rfl,rfl⟩

/-- The steps that open, hand on or close a connection. -/
def connects : World.Label → Bool
  | .openDatabase => true
  | .moveDatabase _ => true
  | .destroyDatabase _ => true
  | .destroyCommand _ => true
  | _ => false

theorem step_rest {label : World.Label} (other : connects label = false) (stepped : World.step p w label = some u) :
    u.databases = w.databases ∧ u.connections = w.connections := by
  obtain ⟨_,_,acted⟩ := step_acts stepped
  have quiet (quiet : Finalization.Quiet w u) : u.databases = w.databases ∧ u.connections = w.connections :=
    ⟨quiet.databases,quiet.connections⟩
  cases label with
  | openDatabase | moveDatabase | destroyDatabase | destroyCommand => cases other
  | prepare e sql parameters => exact prepare_rest acted
  | moveCommand c =>
    obtain ⟨cmd,_,rfl⟩ := Option.map_eq_some_iff.mp acted
    exact ⟨rfl,rfl⟩
  | editParameters c parameters =>
    obtain ⟨cmd,_,rfl⟩ := Option.map_eq_some_iff.mp acted
    exact ⟨rfl,rfl⟩
  | getParameterNames c =>
    obtain ⟨cmd,_,rfl⟩ := Option.map_eq_some_iff.mp acted
    split
    · split_ifs <;> exact ⟨rfl,rfl⟩
    · exact ⟨rfl,rfl⟩
  | execute c parameters => exact quiet (Finalization.Quiet.execute acted)
  | step => exact quiet (Finalization.Quiet.stepLoop acted)
  | next =>
    obtain ⟨loop,outer,_,rfl⟩ := nextRow_cases acted
    exact ⟨rfl,rfl⟩
  | leave =>
    obtain ⟨loop,outer,_,rfl⟩ := leave_cases acted
    exact quiet (Finalization.Quiet.pop _ _ _)

theorem close_other {k other : Nat} (differ : other ≠ k) (w : World) : (w.close p k).connections other = w.connections other := by
  rw [close_rest]
  exact Function.update_of_ne differ _ _

theorem close_databases (p : Sqlite) (k : Nat) (w : World) : (w.close p k).databases = w.databases := by
  rw [close_rest]

/-- An owner that is still there keeps its connection open when another one goes. -/
theorem release_connected (numbered : Numbered w) (connected : Connected d w) (k : Nat) : Connected d (w.release p k) := by
  obtain ⟨mine,there,isOpen⟩ := connected
  unfold World.release
  split_ifs with shared
  · exact ⟨mine,there,isOpen⟩
  · have differ : mine ≠ k := by
      rintro rfl
      refine shared (List.any_eq_true.mpr ⟨d,List.mem_range.mpr (numbered.databases d mine there).1,?_⟩)
      simp [there]
    exact ⟨mine,by rwa [close_databases],by rwa [close_other differ]⟩

theorem Connected.same (connected : Connected d w) (databases : u.databases = w.databases)
    (connections : u.connections = w.connections) : Connected d u := by
  unfold Connected
  rwa [databases,connections]

theorem openDatabase_connected (numbered : Numbered w) (connected : Connected d w) : Connected d w.openDatabase := by
  obtain ⟨k,there,isOpen⟩ := connected
  obtain ⟨object,connection⟩ := numbered.databases d k there
  exact ⟨k,(Function.update_of_ne object.ne _ _).trans there,(Function.update_of_ne connection.ne _ _).trans isOpen⟩

theorem moveDatabase_connected (numbered : Numbered w) (connected : Connected d w) {e : Nat} (other : e ≠ d)
    (moved : w.moveDatabase e = some u) : Connected d u := by
  obtain ⟨k,there,isOpen⟩ := connected
  obtain ⟨its,_,rfl⟩ := Option.map_eq_some_iff.mp moved
  have object := (numbered.databases d k there).1
  have kept := (Function.update_of_ne object.ne (some its) w.databases).trans there
  exact ⟨k,(Function.update_of_ne other.symm _ _).trans kept,isOpen⟩

theorem destroyDatabase_connected (numbered : Numbered w) (unshared : Unshared w) (connected : Connected d w) {e : Nat}
    (other : e ≠ d) (destroyed : w.destroyDatabase p e = some u) : Connected d u := by
  obtain ⟨k,there,isOpen⟩ := connected
  obtain ⟨its,owned,rfl⟩ := Option.map_eq_some_iff.mp destroyed
  have differ : k ≠ its := by
    rintro rfl
    exact other (unshared e d k owned there)
  have fewer := (Fewer.close p its w).trans (Fewer.eraseDatabase _ e)
  apply release_connected ((fewer_follows fewer).numbered numbered)
  have kept : (w.close p its).databases d = some k := by rwa [close_databases]
  exact ⟨k,(Function.update_of_ne other.symm _ _).trans kept,(close_other differ w).trans isOpen⟩

theorem destroyCommand_connected (numbered : Numbered w) (connected : Connected d w) {c : Nat}
    (destroyed : w.destroyCommand p c = some u) : Connected d u := by
  obtain ⟨cmd,_,rfl⟩ := Option.map_eq_some_iff.mp destroyed
  split
  · rename_i k id _ _
    have finalized : Numbered (if w.connections k then w.finalize id else w) ∧
        Connected d (if w.connections k then w.finalize id else w) := by
      split_ifs
      · exact ⟨{numbered with},connected⟩
      · exact ⟨numbered,connected⟩
    have fewer := Fewer.eraseCommand (if w.connections k then w.finalize id else w) c
    exact release_connected ((fewer_follows fewer).numbered finalized.1) (finalized.2.same rfl rfl) k
  · exact release_connected ((fewer_follows (Fewer.eraseCommand w c)).numbered numbered) (connected.same rfl rfl) _
  · exact connected.same rfl rfl

/-- A Database keeps its connection, and it stays open, until it is moved from or destroyed itself. -/
theorem step_connected (numbered : Numbered w) (unshared : Unshared w) (connected : Connected d w) {label : World.Label}
    {inside : Nat → Bool} (kept : ¬ Label.Takes d (.world label inside)) (stepped : World.step p w label = some u) :
    Connected d u := by
  obtain ⟨_,_,acted⟩ := step_acts stepped
  cases label with
  | openDatabase => exact Option.some.inj acted ▸ openDatabase_connected numbered connected
  | moveDatabase e => exact moveDatabase_connected numbered connected kept acted
  | destroyDatabase e => exact destroyDatabase_connected numbered unshared connected kept acted
  | destroyCommand c => exact destroyCommand_connected numbered connected acted
  | _ =>
    obtain ⟨databases,connections⟩ := step_rest rfl stepped
    exact connected.same databases connections

end world

section guards
variable {p : Sqlite} {s t u : State} {d : Nat} {sql : Transaction.Sql Unit} {guard : Guard}

/-- Nothing but `inside` differs. -/
def Keeps (s t : State) : Prop := ∃ inside, t = {s with inside}

theorem execute_cases (sql : Transaction.Sql Unit) (d : Nat) (s : State) :
    (∃ t, execute sql d s = .ok () t ∧ Connected d s.world ∧ Keeps s t) ∨
      ∃ stop t, execute sql d s = .error stop t ∧ Keeps s t := by
  unfold execute
  cases there : s.world.databases d with
  | none => exact .inr ⟨_,_,rfl,s.inside,rfl⟩
  | some k =>
    simp only
    split_ifs with isOpen
    · rcases (exec sql (s.inside k)).1 with _ | ⟨rc,dbMsg⟩
      · exact .inl ⟨_,rfl,⟨k,there,isOpen⟩,_,rfl⟩
      · exact .inr ⟨_,_,rfl,_,rfl⟩
    · exact .inr ⟨_,_,rfl,s.inside,rfl⟩

def outcome {σ α : Type} : EStateM.Result Stop σ α → Except Stop α
  | .ok a _ => .ok a
  | .error stop _ => .error stop

/-- It is the entry point of the Database, when sqlite answers as the open transaction makes it. -/
theorem execute_entry {answer : Answer} (answers : ∀ k, s.world.databases d = some k →
      answer .exec s.world = ((exec sql (s.inside k)).1).getD (sqliteOk,""))
    (fails : ∀ inside failure, (exec sql inside).1 = some failure → failure.1 ≠ sqliteOk) :
    outcome (execute sql d s) = outcome (OnDatabase.execute answer d ⟨s.world,[]⟩) := by
  cases there : s.world.databases d with
  | none =>
    have gone : Routine.databaseOf d ⟨s.world,[]⟩ = .error .undefined ⟨s.world,[]⟩ := by
      simp only [Routine.databaseOf,there]
    unfold OnDatabase.execute
    rw [stops_at gone]
    simp only [execute,there,outcome]
  | some k =>
    cases isOpen : s.world.connections k with
    | false =>
      rw [execute_closed there isOpen]
      simp [execute,there,isOpen,outcome]
    | true =>
      have called : Routine.calling answer .exec ⟨s.world,[]⟩ =
        .ok (((exec sql (s.inside k)).1).getD (sqliteOk,"")) ⟨s.world,[.exec]⟩ := by rw [← answers k there]; rfl
      unfold OnDatabase.execute
      rw [goes_on (databaseOf_there there),goes_on (ensureValid_open isOpen),goes_on called]
      simp only [execute,there,isOpen,if_true]
      cases failure : (exec sql (s.inside k)).1 with
      | none => rfl
      | some failure' =>
        simp only [Option.getD_some]
        rw [if_pos (fails _ _ failure)]
        rfl

theorem ofDatabase_cases (d : Nat) (s : State) :
    (∃ t, Guard.ofDatabase d s = .ok ⟨some d⟩ t ∧ Connected d s.world ∧ Keeps s t) ∨
      ∃ stop t, Guard.ofDatabase d s = .error stop t ∧ Keeps s t := by
  rcases execute_cases .beginTransaction d s with ⟨t,done,connected,keeps⟩ | ⟨stop,t,stopped,keeps⟩
  · refine .inl ⟨t,?_,connected,keeps⟩
    simp only [Guard.ofDatabase,Bind.bind,EStateM.bind,done]
    rfl
  · refine .inr ⟨stop,t,?_,keeps⟩
    simp only [Guard.ofDatabase,Bind.bind,EStateM.bind,stopped]

theorem destruct_cases (guard : Guard) (s : State) : ∃ t, Keeps s t ∧
    (guard.destruct s = .ok () t ∨ ∃ stop, guard.destruct s = .error stop t) := by
  obtain ⟨_ | d⟩ := guard
  · exact ⟨s,⟨s.inside,rfl⟩,.inl rfl⟩
  · rcases execute_cases .rollbackTransaction d s with ⟨t,done,_,keeps⟩ | ⟨stop,t,stopped,keeps⟩
    · exact ⟨t,keeps,.inl done⟩
    · exact ⟨t,keeps,.inr ⟨stop,stopped⟩⟩

theorem commit_cases (guard : Guard) (refused : Option Transaction.Failure) (s : State) : ∃ t, Keeps s t ∧
    (guard.commit refused s = .ok ⟨none⟩ t ∨ ∃ stop, guard.commit refused s = .error stop t) := by
  obtain ⟨_ | d⟩ := guard
  · exact ⟨s,⟨s.inside,rfl⟩,.inl rfl⟩
  · rcases execute_cases (.commitTransaction refused) d s with ⟨t,done,_,keeps⟩ | ⟨stop,t,stopped,keeps⟩
    · refine ⟨t,keeps,.inl ?_⟩
      simp only [Guard.commit,Bind.bind,EStateM.bind,done]
      rfl
    · refine ⟨t,keeps,.inr ⟨stop,?_⟩⟩
      simp only [Guard.commit,Bind.bind,EStateM.bind,stopped]

def Held (d : Nat) (s : State) : Prop := ∃ g guard, s.guards g = some guard ∧ guard.db = some d

theorem setGuard_held {g : Nat} {left : Option Guard} (lost : left.bind Guard.db = none)
    (held : Held d (s.setGuard g left)) : Held d s := by
  obtain ⟨i,guard,here,its⟩ := held
  rcases PartialMap.update_eq_some.mp here with ⟨_,same⟩ | ⟨_,before⟩
  · simp [same,its] at lost
  · exact ⟨i,guard,before,its⟩

theorem addGuard_held (held : Held d (s.addGuard guard)) : guard.db = some d ∨ Held d s := by
  obtain ⟨i,other,here,its⟩ := held
  rcases PartialMap.update_eq_some.mp here with ⟨_,same⟩ | ⟨_,before⟩
  · cases same
    exact .inl its
  · exact .inr ⟨i,other,before,its⟩

theorem Keeps.held (keeps : Keeps s t) (held : Held d t) : Held d s := by
  obtain ⟨inside,rfl⟩ := keeps
  exact held

theorem Keeps.world (keeps : Keeps s t) : t.world = s.world := by
  obtain ⟨inside,rfl⟩ := keeps
  rfl

/-- The World goes its own way, or it stays as it is; then a guard has its Database from another
guard or began on one that is connected. -/
theorem step_cases {label : Label} (stepped : step p s label = some u) :
    (∃ its inside, label = .world its inside ∧ World.step p s.world its = some u.world ∧ u.guards = s.guards) ∨
      (∀ d, ¬ label.Takes d) ∧ u.world = s.world ∧ ∀ d, Held d u → Held d s ∨ Connected d s.world := by
  obtain ⟨_,acted⟩ := Option.ite_none_right_eq_some.mp stepped
  cases label with
  | world its inside =>
    obtain ⟨w,went,rfl⟩ := Option.map_eq_some_iff.mp acted
    exact .inl ⟨its,inside,rfl,went,rfl⟩
  | execute e inside =>
    obtain ⟨k,_,rfl⟩ := Option.map_eq_some_iff.mp acted
    refine .inr ⟨fun _ => id,?_⟩
    split_ifs <;> exact ⟨rfl,fun _ held => .inl held⟩
  | beginTransaction e =>
    obtain ⟨k,_,rfl⟩ := Option.map_eq_some_iff.mp acted
    refine .inr ⟨fun _ => id,?_⟩
    rcases ofDatabase_cases e s with ⟨t,done,connected,keeps⟩ | ⟨stop,t,stopped,keeps⟩
    · simp only [done]
      refine ⟨keeps.world,fun d held => ?_⟩
      rcases addGuard_held held with new | before
      · cases new
        exact .inr connected
      · exact .inl (keeps.held before)
    · simp only [stopped]
      exact ⟨keeps.world,fun d held => .inl (keeps.held held)⟩
  | moveGuard g =>
    obtain ⟨guard,here,rfl⟩ := Option.map_eq_some_iff.mp acted
    refine .inr ⟨fun _ => id,rfl,fun d held => .inl ?_⟩
    rcases addGuard_held (setGuard_held rfl held) with moved | before
    · exact ⟨g,guard,here,moved⟩
    · exact before
  | commit g refused =>
    obtain ⟨guard,_,rfl⟩ := Option.map_eq_some_iff.mp acted
    refine .inr ⟨fun _ => id,?_⟩
    obtain ⟨t,keeps,done | ⟨stop,stopped⟩⟩ := commit_cases guard refused s
    · simp only [done]
      exact ⟨keeps.world,fun d held => .inl (keeps.held (setGuard_held rfl held))⟩
    · cases stop <;> simp only [stopped] <;> exact ⟨keeps.world,fun d held => .inl (keeps.held held)⟩
  | destroyGuard g =>
    obtain ⟨guard,_,rfl⟩ := Option.map_eq_some_iff.mp acted
    refine .inr ⟨fun _ => id,?_⟩
    obtain ⟨t,keeps,done | ⟨stop,stopped⟩⟩ := destruct_cases guard s
    · simp only [done]
      exact ⟨keeps.world,fun d held => .inl (keeps.held (setGuard_held rfl held))⟩
    · simp only [stopped]
      exact ⟨keeps.world,fun d held => .inl (keeps.held held)⟩

end guards

section unshared
variable {p : Sqlite} {w u : World}

theorem Unshared.fewer (unshared : Unshared w) (fewer : Fewer w u) : Unshared u :=
  fun d e k first second => unshared d e k (fewer.databases d k first) (fewer.databases e k second)

theorem Unshared.same (unshared : Unshared w) (databases : u.databases = w.databases) : Unshared u := by
  unfold Unshared
  rwa [databases]

theorem openDatabase_unshared (numbered : Numbered w) (unshared : Unshared w) : Unshared w.openDatabase := by
  have old {d : Nat} (its : w.databases d = some w.next) : False := Nat.lt_irrefl _ (numbered.databases d _ its).2
  intro d e k first second
  rcases PartialMap.update_eq_some.mp first with ⟨rfl,same⟩ | ⟨_,first⟩ <;>
    rcases PartialMap.update_eq_some.mp second with ⟨new,same'⟩ | ⟨_,second⟩
  · exact new.symm
  · cases same
    exact (old second).elim
  · cases same'
    exact (old first).elim
  · exact unshared d e k first second

/-- The connection goes to the new Database, and the old one gets one that nobody has. -/
theorem moveDatabase_unshared (numbered : Numbered w) (unshared : Unshared w) {d : Nat}
    (moved : w.moveDatabase d = some u) : Unshared u := by
  obtain ⟨its,owned,rfl⟩ := Option.map_eq_some_iff.mp moved
  have owners {e k : Nat} (has : Function.update (Function.update w.databases w.next (some its)) d (some w.next) e = some k) :
      (e = d ∧ k = w.next) ∨ (e = w.next ∧ k = its) ∨ (e ≠ d ∧ k < w.next ∧ w.databases e = some k) := by
    rcases PartialMap.update_eq_some.mp has with ⟨rfl,same⟩ | ⟨other,before⟩
    · exact .inl ⟨rfl,(Option.some.inj same).symm⟩
    · rcases PartialMap.update_eq_some.mp before with ⟨rfl,same⟩ | ⟨_,before⟩
      · exact .inr (.inl ⟨rfl,(Option.some.inj same).symm⟩)
      · exact .inr (.inr ⟨other,(numbered.databases e k before).2,before⟩)
  have small := (numbered.databases d its owned).2
  intro e e' k first second
  rcases owners first with ⟨rfl,rfl⟩ | ⟨rfl,rfl⟩ | ⟨other,below,mine⟩ <;>
    rcases owners second with ⟨rfl,same⟩ | ⟨rfl,same⟩ | ⟨other',below',mine'⟩
  · rfl
  · exact absurd same small.ne'
  · exact absurd below' (Nat.lt_irrefl _)
  · exact absurd same small.ne
  · rfl
  · exact absurd (unshared e' d k mine' owned) other'
  · exact absurd same below.ne
  · exact absurd (unshared e d k mine (same ▸ owned)) other
  · exact unshared e e' k mine mine'

theorem step_unshared (numbered : Numbered w) (unshared : Unshared w) {label : World.Label}
    (stepped : World.step p w label = some u) : Unshared u := by
  obtain ⟨_,_,acted⟩ := step_acts stepped
  cases label with
  | openDatabase => exact Option.some.inj acted ▸ openDatabase_unshared numbered unshared
  | moveDatabase d => exact moveDatabase_unshared numbered unshared acted
  | destroyDatabase d => exact unshared.fewer (Fewer.destroyDatabase acted)
  | destroyCommand c => exact unshared.fewer (Fewer.destroyCommand acted)
  | _ => exact unshared.same (step_rest rfl stepped).1

end unshared

section runs
variable {p : Sqlite} {s u : State} {d : Nat} {labels : List Label}

theorem release_gone (p : Sqlite) (k : Nat) (w : World) (d : Nat) (gone : w.databases d = none) :
    (w.release p k).databases d = none := by
  by_contra there
  obtain ⟨k',there⟩ := Option.ne_none_iff_exists'.mp there
  simp [(Fewer.release p k w).databases d k' there] at gone

theorem takes_cut {w v : World} (numbered : Numbered w) {label : World.Label} {inside : Nat → Bool}
    (takes : Label.Takes d (.world label inside)) (stepped : World.step p w label = some v) : CutDatabase d v := by
  cases label with
  | moveDatabase e =>
    cases takes
    exact moveDatabase_cut numbered stepped
  | destroyDatabase e =>
    cases takes
    have follows := step_follows numbered stepped
    obtain ⟨k,owned,rfl⟩ := Option.map_eq_some_iff.mp (step_acts stepped).2.2
    refine ⟨(numbered.databases d k owned).1.trans_le follows.next,fun k' there => ?_⟩
    have gone := release_gone p k {w.close p k with databases := Function.update (w.close p k).databases d none} d
      (Function.update_self _ _ _)
    cases gone.symm.trans there
  | _ => exact takes.elim

/-- What a run leaves behind: a Database whose connection was taken is cut, and one that a guard has
is connected otherwise. -/
structure Traced (labels : List Label) (s : State) : Prop where
  numbered : Numbered s.world
  unshared : Unshared s.world
  taken : ∀ d, (∃ label ∈ labels, label.Takes d) → CutDatabase d s.world
  held : ∀ d, Held d s → (∀ label ∈ labels, ¬ label.Takes d) → Connected d s.world

theorem Traced.init : Traced [] {} where
  numbered := Numbered.init
  unshared := fun _ _ _ first => nomatch first
  taken := by simp
  held := fun _ ⟨_,_,here,_⟩ => nomatch here

theorem Traced.next {label : Label} (traced : Traced labels s) (stepped : step p s label = some u) :
    Traced (labels ++ [label]) u := by
  rcases step_cases stepped with ⟨its,inside,rfl,went,guards⟩ | ⟨keeps,same,guards⟩
  · have follows := step_follows traced.numbered went
    refine ⟨follows.numbered traced.numbered,step_unshared traced.numbered traced.unshared went,?_,?_⟩
    · rintro d ⟨label,among,takes⟩
      rcases List.mem_append.mp among with before | last
      · exact cutDatabase_keeps follows (traced.taken d ⟨label,before,takes⟩)
      · cases List.mem_singleton.mp last
        exact takes_cut traced.numbered takes went
    · rintro d ⟨g,guard,here,its⟩ kept
      obtain ⟨before,last⟩ := List.forall_mem_append.mp kept
      have connected := traced.held d ⟨g,guard,guards ▸ here,its⟩ before
      exact step_connected traced.numbered traced.unshared connected (last _ (List.mem_singleton_self _)) went
  · refine ⟨same ▸ traced.numbered,same ▸ traced.unshared,?_,?_⟩
    · rintro d ⟨label,among,takes⟩
      rcases List.mem_append.mp among with before | last
      · exact same ▸ traced.taken d ⟨label,before,takes⟩
      · cases List.mem_singleton.mp last
        exact absurd takes (keeps d)
    · intro d held kept
      rw [same]
      rcases guards d held with before | connected
      · exact traced.held d before (List.forall_mem_append.mp kept).1
      · exact connected

theorem run_traced (run : runAll (step p) {} labels = some s) : Traced labels s :=
  runAll_traced Traced.init Traced.next run

theorem rollback_ok_iff {t : State} : (∃ left, execute .rollbackTransaction d t = .ok () left) ↔
    Connected d t.world ∧ InTransaction d t := by
  unfold execute
  cases there : t.world.databases d with
  | none => simp [Connected,there]
  | some k =>
    cases isOpen : t.world.connections k with
    | false => simp [Connected,there,isOpen]
    | true => cases inside : t.inside k <;> simp [Connected,InTransaction,there,isOpen,inside,exec,Transaction.exec]

end runs

/-- In every run the destructor returns exactly when its guard has no Database any more, or one whose
connection nobody took and that has a transaction open. -/
theorem destruct_completes_iff {p : Sqlite} {labels : List Label} {s : State} {g : Nat} {guard : Guard}
    (run : runAll (step p) {} labels = some s) (here : s.guards g = some guard) :
    Completes guard s ↔ ∀ d, guard.db = some d → (∀ label ∈ labels, ¬ label.Takes d) ∧ InTransaction d s := by
  have traced := run_traced run
  obtain ⟨_ | d⟩ := guard
  · simp [Completes,Guard.destruct,pure,EStateM.pure]
  have completes : Completes ⟨some d⟩ s ↔ Connected d s.world ∧ InTransaction d s := rollback_ok_iff
  rw [completes]
  constructor
  · rintro ⟨⟨k,there,isOpen⟩,inside⟩ _ ⟨⟩
    refine ⟨fun label among takes => ?_,inside⟩
    have closed := ((traced.taken d ⟨label,among,takes⟩).2 k there).2
    exact Bool.false_ne_true (closed.symm.trans isOpen)
  · intro kept
    obtain ⟨untaken,inside⟩ := kept d rfl
    exact ⟨traced.held d ⟨g,_,here,rfl⟩ untaken,inside⟩

def opened : Label := .world .openDatabase fun _ => false

def movedGuard : List Label := [opened,.beginTransaction 0,.execute 0 true,.moveGuard 0]

theorem destruct_completes_iff_moved : ∃ s, runAll (step .usual) {} movedGuard = some s ∧ Completes ⟨some 0⟩ s := by
  refine ⟨_,rfl,(@destruct_completes_iff .usual movedGuard _ 1 _ rfl rfl).mpr ?_⟩
  intro d same
  cases same
  exact ⟨by simp [movedGuard,opened,Label.Takes],0,rfl,rfl⟩

def rolledBack : List Label := [opened,.beginTransaction 0,.execute 0 false]

def movedDatabase : List Label := [opened,.beginTransaction 0,.world (.moveDatabase 0) fun k => k == 0]

def destroyedDatabase : List Label := [opened,.beginTransaction 0,.world (.destroyDatabase 0) fun _ => false]

/-- The guard still has its Database, and its destructor does not return. -/
theorem destruct_completes_fails :
    (∃ s left, runAll (step .usual) {} rolledBack = some s ∧ s.guards 0 = some ⟨some 0⟩ ∧ Guard.destruct ⟨some 0⟩ s =
      .error (.threw (.sl3 (sqlite3Error 1 "cannot rollback - no transaction is active"))) left) ∧
    (∃ s left, runAll (step .usual) {} movedDatabase = some s ∧ s.guards 0 = some ⟨some 0⟩ ∧
      Guard.destruct ⟨some 0⟩ s = .error (.threw (.sl3 errNoConnection)) left) ∧
    ∃ s left, runAll (step .usual) {} destroyedDatabase = some s ∧ s.guards 0 = some ⟨some 0⟩ ∧
      Guard.destruct ⟨some 0⟩ s = .error .undefined left :=
  ⟨⟨_,_,rfl,rfl,rfl⟩,⟨_,_,rfl,rfl,rfl⟩,⟨_,_,rfl,rfl,rfl⟩⟩

end Sl3.TransactionRuns
