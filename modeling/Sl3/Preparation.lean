import Sl3.EntryPoints
import Sl3.Lifetime

/-! `Database::prepare` that throws: which statements the connection has afterwards, in whatever
run it is called. -/
namespace Sl3.Preparation
open World EntryPoints Routine Library Library.Machine
variable {p : Sqlite} {w u : World} {c d k : Nat}

/-- Only what came into being was finalized or is held by a Command. -/
structure Prepared (w : World) : Prop where
  finalized : ∀ id, w.finalized id = true → id < w.next
  held : ∀ c cmd, w.commands c = some cmd → ∀ id, cmd.stmt = some id → id < w.next

namespace Prepared

theorem init : Prepared {} := ⟨nofun,nofun⟩

theorem finalize (prepared : Prepared w) {id : Nat} (old : id < w.next) : Prepared (w.finalize id) where
  finalized := by
    intro other finalized
    by_cases same : other = id
    · exact same ▸ old
    · exact prepared.finalized other (by simpa [World.finalize,use,same] using finalized)
  held := prepared.held

theorem finalizeAll (prepared : Prepared w) (k n : Nat) : Prepared (w.finalizeAll p k n) := by
  induction n generalizing w with
  | zero => exact prepared
  | succ n ih =>
    unfold World.finalizeAll
    cases named : p.nextStmt w k with
    | none => exact prepared
    | some id => exact ih (prepared.finalize (mem_openStatements.mp (p.nextStmt_open named)).1)

theorem close (prepared : Prepared w) (k : Nat) : Prepared (w.close p k) := by
  unfold World.close
  split_ifs
  · obtain ⟨finalized,held⟩ := @finalizeAll p w prepared k (w.openStatements k).length
    exact ⟨finalized,held⟩
  · exact prepared

theorem release (prepared : Prepared w) (k : Nat) : Prepared (w.release p k) := by
  unfold World.release
  split_ifs
  · exact prepared
  · exact prepared.close k

theorem eraseCommand (prepared : Prepared w) (c : Nat) :
    Prepared {w with commands := Function.update w.commands c none} where
  finalized := prepared.finalized
  held := fun i cmd command => prepared.held i cmd (PartialMap.erase_eq_some.mp command).2

theorem setCommand (prepared : Prepared w) {cmd : CommandObject} (old : ∀ id, cmd.stmt = some id → id < w.next) :
    Prepared (w.setCommand c cmd) where
  finalized := prepared.finalized
  held := by
    intro i other command id stmt
    rcases PartialMap.update_eq_some.mp command with ⟨_,same⟩ | ⟨_,before⟩
    · cases same
      exact old id stmt
    · exact prepared.held i other before id stmt

theorem addHandle (prepared : Prepared w) (k : Nat) (q : Query) : Prepared (w.addHandle k q) where
  finalized := fun id finalized => Nat.lt_succ_of_lt (prepared.finalized id finalized)
  held := fun c cmd command id stmt => Nat.lt_succ_of_lt (prepared.held c cmd command id stmt)

theorem addCommand (prepared : Prepared w) {cmd : CommandObject} (old : ∀ id, cmd.stmt = some id → id < w.next) :
    Prepared (w.addCommand cmd) where
  finalized := fun id finalized => Nat.lt_succ_of_lt (prepared.finalized id finalized)
  held := by
    intro i other command id stmt
    rcases PartialMap.update_eq_some.mp command with ⟨_,same⟩ | ⟨_,before⟩
    · cases same
      exact Nat.lt_succ_of_lt (old id stmt)
    · exact Nat.lt_succ_of_lt (prepared.held i other before id stmt)

theorem openDatabase (prepared : Prepared w) : Prepared w.openDatabase where
  finalized := fun id finalized => Nat.lt_succ_of_lt (prepared.finalized id finalized)
  held := fun c cmd command id stmt => Nat.lt_succ_of_lt (prepared.held c cmd command id stmt)

theorem moveDatabase (prepared : Prepared w) (moved : w.moveDatabase d = some u) : Prepared u := by
  obtain ⟨k,_,rfl⟩ := Option.map_eq_some_iff.mp moved
  obtain ⟨finalized,held⟩ := prepared.openDatabase
  exact ⟨finalized,held⟩

theorem destroyDatabase (prepared : Prepared w) (destroyed : w.destroyDatabase p d = some u) : Prepared u := by
  obtain ⟨k,_,rfl⟩ := Option.map_eq_some_iff.mp destroyed
  obtain ⟨finalized,held⟩ := @close p w prepared k
  have erased : Prepared {w.close p k with databases := Function.update (w.close p k).databases d none} :=
    ⟨finalized,held⟩
  exact erased.release k

theorem prepare (prepared : Prepared w) {sql : Compiled} {parameters : Option DbValues}
    (ran : w.prepare d sql parameters = some u) : Prepared u := by
  obtain ⟨k,_,rfl⟩ := Option.map_eq_some_iff.mp ran
  split_ifs
  · cases sql with
    | error => exact prepared
    | empty =>
      simp only
      split_ifs
      · apply prepared.addCommand
        intro id stmt
        cases stmt
      · exact prepared
    | statement q =>
      simp only
      split_ifs
      · apply (prepared.addHandle k q).addCommand
        intro id stmt
        rw [← Option.some.inj stmt]
        exact Nat.lt_succ_self _
      · exact prepared.addHandle k q
  · exact prepared

theorem moveCommand (prepared : Prepared w) (moved : w.moveCommand c = some u) : Prepared u := by
  obtain ⟨cmd,command,rfl⟩ := Option.map_eq_some_iff.mp moved
  exact (prepared.addCommand (prepared.held c cmd command)).setCommand nofun

theorem destroyCommand (prepared : Prepared w) (destroyed : w.destroyCommand p c = some u) : Prepared u := by
  obtain ⟨cmd,command,rfl⟩ := Option.map_eq_some_iff.mp destroyed
  split
  · rename_i k id _ stmt
    have finalized : Prepared (if w.connections k then w.finalize id else w) := by
      split_ifs
      · exact prepared.finalize (prepared.held c cmd command id stmt)
      · exact prepared
    exact (finalized.eraseCommand c).release k
  · exact (prepared.eraseCommand c).release _
  · exact prepared.eraseCommand c

theorem getParameterNames (prepared : Prepared w) (asked : w.getParameterNames c = some u) : Prepared u := by
  obtain ⟨cmd,_,rfl⟩ := Option.map_eq_some_iff.mp asked
  split
  · split_ifs
    · exact prepared
    · exact ⟨prepared.finalized,prepared.held⟩
  · exact prepared

theorem bindAll (prepared : Prepared w) {cmd : CommandObject} (old : ∀ id, cmd.stmt = some id → id < w.next) (id : Nat)
    (parameters : DbValues) : Prepared (w.bindAll c cmd id parameters) := by
  have set : Prepared (w.setCommand c {cmd with parameters}) := prepared.setCommand old
  unfold World.bindAll
  split_ifs
  · exact set
  · exact ⟨set.finalized,set.held⟩

theorem enter (prepared : Prepared w) {cmd : CommandObject} (old : ∀ id, cmd.stmt = some id → id < w.next) (k id : Nat)
    (parameters : DbValues) : Prepared (w.enter p c cmd k id parameters) := by
  unfold World.enter
  split_ifs
  · cases Command.given parameters ⟨true,(w.statements id).stmt,cmd.parameters⟩ with
    | error e left => exact prepared.setCommand old
    | ok done set =>
      obtain ⟨finalized,held⟩ := @bindAll w c prepared cmd old id set.parameters
      simp only
      cases Command.bind p.toPlatform set <;> exact ⟨finalized,held⟩
  · exact prepared

theorem execute (prepared : Prepared w) {parameters : DbValues} (executed : w.execute p c parameters = some u) :
    Prepared u := by
  obtain ⟨cmd,command,rfl⟩ := Option.map_eq_some_iff.mp executed
  have old := prepared.held c cmd command
  split
  · exact prepared.enter old _ _ parameters
  · exact prepared.setCommand old
  · exact ⟨prepared.finalized,prepared.held⟩

theorem stepLoop (prepared : Prepared w) (stepped : w.stepLoop = some u) : Prepared u := by
  obtain ⟨finalized,held⟩ := prepared
  obtain ⟨loop,outer,_,⟨_,rfl⟩ | ⟨cmd,_,⟨_,rfl⟩ | ⟨id,used,_,rfl,rfl | rfl⟩⟩⟩ := stepLoop_cases stepped <;>
    exact ⟨finalized,held⟩

theorem step {label : Label} (prepared : Prepared w) (stepped : World.step p w label = some u) : Prepared u := by
  obtain ⟨_,_,acted⟩ := step_acts stepped
  cases label with
  | openDatabase => exact Option.some.inj acted ▸ prepared.openDatabase
  | moveDatabase d => exact prepared.moveDatabase acted
  | destroyDatabase d => exact prepared.destroyDatabase acted
  | prepare d sql parameters => exact prepared.prepare acted
  | moveCommand c => exact prepared.moveCommand acted
  | destroyCommand c => exact prepared.destroyCommand acted
  | editParameters c parameters =>
    obtain ⟨cmd,command,rfl⟩ := Option.map_eq_some_iff.mp acted
    exact prepared.setCommand (prepared.held c cmd command)
  | getParameterNames c => exact prepared.getParameterNames acted
  | execute c parameters => exact prepared.execute acted
  | step => exact prepared.stepLoop acted
  | next =>
    obtain ⟨loop,outer,_,rfl⟩ := nextRow_cases acted
    exact ⟨prepared.finalized,prepared.held⟩
  | leave =>
    obtain ⟨loop,outer,_,rfl⟩ := leave_cases acted
    exact ⟨prepared.finalized,prepared.held⟩

end Prepared

theorem run_prepared (run : Reaches (World.step p) (fun _ _ => True) {} w) : Prepared w :=
  run.invariant Prepared.init fun prepared _ stepped => prepared.step stepped

section prepare
variable {answer : Answer} {sql : Compiled} {parameters : Option DbValues}

/-- A handle that no Command was given is one more open statement of its connection. -/
theorem openStatements_addHandle (prepared : Prepared w) (k : Nat) (q : Query) :
    (w.addHandle k q).openStatements k = w.openStatements k ++ [w.next] := by
  have fresh : w.finalized w.next = false := by
    by_contra finalized
    exact Nat.lt_irrefl _ (prepared.finalized w.next (by simpa using finalized))
  have before : ∀ id ∈ List.range w.next, ¬ id = w.next := fun id member => (List.mem_range.mp member).ne
  unfold openStatements
  simp only [World.addHandle,List.range_succ,List.filter_append]
  congr 1
  · apply List.filter_congr
    intro id member
    simp [before id member]
  · simp [fresh]

/-- On an open connection, a statement that compiles is prepared; then the parameters are counted. -/
theorem prepare_open (there : w.databases d = some k) (isOpen : w.connections k = true) (compiled : sql ≠ .error)
    (answer : Answer) (parameters : Option DbValues) : ∃ left, OnDatabase.prepare answer d sql parameters ⟨w,[]⟩ =
      if ∀ values ∈ parameters, sqlCount sql = values.length then .ok (left.world.next - 1) left
      else .error (.threw (.sl3 (errTypeMisMatch "Incorrect parameter count"))) left := by
  obtain ⟨v,prepared⟩ : ∃ v, w.prepare d sql parameters = some v := by simp [World.prepare,there]
  have connected : databaseOf d ⟨w,[]⟩ = .ok k ⟨w,[]⟩ := databaseOf_there there
  have counted (t : Progress) : calling answer .bindParameterCount t = .ok _ _ := rfl
  unfold OnDatabase.prepare
  rw [goes_on connected,goes_on (createStmt_open isOpen compiled),goes_on (counted _),
    goes_on (becoming_there prepared)]
  cases parameters with
  | none => exact ⟨_,rfl⟩
  | some values =>
    by_cases same : sqlCount sql = values.length
    · simp only [same,ne_eq,not_true_eq_false,if_false,Option.mem_some_iff,forall_eq',if_true]
      exact ⟨_,rfl⟩
    · simp only [same,ne_eq,not_false_eq_true,if_true,Option.mem_some_iff,forall_eq',if_false]
      exact ⟨_,rfl⟩

theorem prepare_throws {stop : Stop} {left : Progress} (there : w.databases d = some k) (isOpen : w.connections k = true)
    (threw : OnDatabase.prepare answer d sql parameters ⟨w,[]⟩ = .error stop left) :
    sql = .error ∨ ∃ values, parameters = some values ∧ sqlCount sql ≠ values.length := by
  by_cases compiled : sql = .error
  · exact .inl compiled
  · obtain ⟨_,ran⟩ := prepare_open there isOpen compiled answer parameters
    rw [ran] at threw
    split_ifs at threw with counted
    simp only [not_forall] at counted
    obtain ⟨values,given,miscounted⟩ := counted
    exact .inr ⟨values,given,miscounted⟩

theorem prepare_miscounted {values : DbValues} (there : w.databases d = some k) (isOpen : w.connections k = true)
    (compiled : sql ≠ .error) (miscounted : sqlCount sql ≠ values.length) : ∃ left,
    OnDatabase.prepare answer d sql (some values) ⟨w,[]⟩ =
      .error (.threw (.sl3 (errTypeMisMatch "Incorrect parameter count"))) left := by
  obtain ⟨left,ran⟩ := prepare_open there isOpen compiled answer (some values)
  rw [if_neg fun counted => miscounted (counted values rfl)] at ran
  exact ⟨left,ran⟩

/-- A `prepare` that throws leaves the connection with the statements that it had. -/
def LeavesNothing (answer : Answer) (w : World) (d k : Nat) (sql : Compiled) (parameters : Option DbValues) : Prop :=
  ∀ stop left, OnDatabase.prepare answer d sql parameters ⟨w,[]⟩ = .error stop left →
    left.world.openStatements k = w.openStatements k

/-- In every run a `prepare` that throws leaves no statement behind exactly when it does not get as far as to
count the parameters that it was given, of a statement, and find another number of them. -/
theorem leaves_nothing_iff (run : Reaches (World.step p) (fun _ _ => True) {} w) (answer : Answer)
    (there : w.databases d = some k) (sql : Compiled) (parameters : Option DbValues) :
    LeavesNothing answer w d k sql parameters ↔ (w.connections k = true →
      ∀ q values, sql = .statement q → parameters = some values → q.paramCount = values.length) := by
  cases isOpen : w.connections k with
  | false =>
    have failed : OnDatabase.prepare answer d sql parameters ⟨w,[]⟩ = .error _ ⟨w,[]⟩ :=
      prepare_closed there isOpen sql parameters
    refine iff_of_true (fun stop left threw => ?_) nofun
    cases failed.symm.trans threw
    rfl
  | true =>
    have becomes := @prepare_world w answer k d there sql parameters
    constructor
    · rintro laws _ q values rfl rfl
      by_contra miscounted
      obtain ⟨left,threw⟩ := @prepare_miscounted w d k answer (.statement q) values there isOpen nofun miscounted
      have kept := laws _ left threw
      rw [threw] at becomes
      simp only [World.prepare,there,Option.map_some,isOpen,if_true,Option.getD_some,if_neg (Ne.symm miscounted),
        leftBy,Option.some.injEq] at becomes
      rw [← becomes,openStatements_addHandle (run_prepared run)] at kept
      simp at kept
    · intro condition stop left threw
      rw [threw] at becomes
      have unchanged : w.prepare d sql parameters = some w := by
        rcases prepare_throws there isOpen threw with rfl | ⟨values,rfl,miscounted⟩
        · simp [World.prepare,there]
        · cases sql with
          | error => simp [World.prepare,there]
          | empty =>
            have given : values.length ≠ 0 := Ne.symm miscounted
            simp [World.prepare,there,given]
          | statement q => exact absurd (condition rfl q values rfl rfl) miscounted
      rw [Option.some.inj (unchanged.symm.trans becomes)]
      rfl

end prepare

def opened : World := World.openDatabase {}

def quiet : Answer := fun _ _ => (0,"")

theorem leaves_nothing_opened : LeavesNothing quiet opened 0 0 .error (some [⟨.int,.int 1⟩]) ∧
    LeavesNothing quiet opened 0 0 (.statement Lifetime.oneRow) (some []) := by
  have run : Reaches (World.step .usual) (fun _ _ => True) {} opened := Reaches.start.next .openDatabase trivial rfl
  refine ⟨(leaves_nothing_iff run quiet rfl _ _).mpr ?_,(leaves_nothing_iff run quiet rfl _ _).mpr ?_⟩
  · exact fun _ _ _ => nofun
  · rintro _ q values ⟨⟩ ⟨⟩
    rfl

/-- One parameter for a statement that has none: the exception is thrown, and the statement stays. -/
theorem leaves_statement : ∃ left,
    OnDatabase.prepare quiet 0 (.statement Lifetime.oneRow) (some [⟨.int,.int 1⟩]) ⟨opened,[]⟩ =
      .error (.threw (.sl3 (errTypeMisMatch "Incorrect parameter count"))) left ∧
    opened.openStatements 0 = [] ∧ left.world.openStatements 0 = [1] ∧
    ¬ LeavesNothing quiet opened 0 0 (.statement Lifetime.oneRow) (some [⟨.int,.int 1⟩]) := by
  refine ⟨_,rfl,rfl,rfl,fun laws => ?_⟩
  have kept : [1] = [] := laws _ _ rfl
  cases kept

end Sl3.Preparation
