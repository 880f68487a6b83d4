import Sl3.DbValue
import Sl3.Library.Machine
import Sl3.Library.PartialMap

/-! `Database::Transaction`: guards that hand one transaction on to each other, the SQL that
runs meanwhile, and how the transaction ends. -/
namespace Sl3.Transaction
open Library Machine PartialMap
variable {α : Type}

inductive Ending where
  | commit
  | rollback
deriving DecidableEq

/-- A Database with its connection: what it holds, what it held at BEGIN as long as a
transaction is open, and how transactions have ended. -/
structure Database (α : Type) where
  isValid : Bool
  content : α
  saved : Option α
  ended : List Ending

/-- A result code of sqlite that is not SQLITE_OK, with the message. -/
abbrev Failure := Int × String

/-- SQL texts by what they do; sqlite may refuse a COMMIT. -/
inductive Sql (α : Type) where
  | beginTransaction
  | commitTransaction (refused : Option Failure)
  | rollbackTransaction
  | other (run : α → α × Option Failure)

def exec (sql : Sql α) (db : Database α) : Option Failure × Database α :=
  match sql,db.saved with
  | .beginTransaction,none => (none,{db with saved := some db.content})
  | .beginTransaction,some _ => (some (1,"cannot start a transaction within a transaction"),db)
  | .commitTransaction _,none => (some (1,"cannot commit - no transaction is active"),db)
  | .commitTransaction none,some _ => (none,{db with saved := none,ended := db.ended ++ [.commit]})
  | .commitTransaction (some failure),some _ => (some failure,db)
  | .rollbackTransaction,none => (some (1,"cannot rollback - no transaction is active"),db)
  | .rollbackTransaction,some before =>
    (none,{db with content := before,saved := none,ended := db.ended ++ [.rollback]})
  | .other run,_ => ((run db.content).2,{db with content := (run db.content).1})

def execute (sql : Sql α) : Method (Database α) Unit := fun db =>
  if db.isValid then
    match exec sql db with
    | (none,db) => .ok () db
    | (some (rc,dbMsg),db) => .error (sqlite3Error rc dbMsg) db
  else .error errNoConnection db

/-- A guard; `db` while its pointer `_db` is not null. -/
structure Guard where
  db : Bool
deriving DecidableEq

namespace Guard

def ofDatabase : Method (Database α) Guard := do
  execute .beginTransaction
  pure ⟨true⟩

/-- The new guard and what is left of the other one. -/
def move (other : Guard) : Guard × Guard := (other,⟨false⟩)

def destruct (guard : Guard) : Method (Database α) Unit :=
  if guard.db then execute .rollbackTransaction else pure ()

def commit (guard : Guard) (refused : Option Failure) : Method (Database α) Guard :=
  if guard.db then do
    execute (.commitTransaction refused)
    pure ⟨false⟩
  else pure guard

end Guard

/-- The guards by number. `terminated` when a destructor threw; the last two fields are
what has been promised: whether an owning guard's commit returned, and what all the SQL
makes of the content at BEGIN. -/
structure State (α : Type) where
  database : Database α
  next : Nat
  guards : Nat → Option Guard
  terminated : Bool
  committed : Bool
  written : α

/-- `execute` runs SQL that leaves alone whether a transaction is open. -/
inductive Label (α : Type) where
  | beginTransaction
  | move (g : Nat)
  | commit (g : Nat) (refused : Option Failure)
  | execute (run : α → α × Option Failure)
  | destroy (g : Nat)

def State.addGuard (s : State α) (guard : Guard) : State α where
  __ := s
  next := s.next + 1
  guards := Function.update s.guards s.next (some guard)

def act (s : State α) : Label α → Option (State α)
  | .beginTransaction =>
    match Guard.ofDatabase s.database with
    | .ok guard database => some ({s with database}.addGuard guard)
    | .error _ database => some {s with database}
  | .move g => (s.guards g).map fun guard =>
    let moved := guard.move
    let s := s.addGuard moved.1
    {s with guards := Function.update s.guards g (some moved.2)}
  | .commit g refused => (s.guards g).map fun guard =>
    match guard.commit refused s.database with
    | .ok left database =>
      {s with database,guards := Function.update s.guards g (some left),committed := s.committed || guard.db}
    | .error _ database => {s with database}
  | .execute run => some {s with
      database := leftBy (Transaction.execute (.other run) s.database)
      written := (run s.written).1}
  | .destroy g => (s.guards g).map fun guard =>
    match guard.destruct s.database with
    | .ok _ database => {s with database,guards := Function.update s.guards g none}
    | .error _ database => {s with database,terminated := true}

def step (s : State α) (label : Label α) : Option (State α) := if s.terminated then none else act s label

def idle (content : α) : State α where
  database := ⟨true,content,none,[]⟩
  next := 0
  guards := fun _ => none
  terminated := false
  committed := false
  written := content

def Orphaned (s : State α) : Prop := ∀ g, s.guards g ≠ some ⟨true⟩

/-- One guard owns the open transaction, which began at this content. -/
structure Opened (before : α) (s : State α) : Prop where
  owner : ∃ owner, s.guards owner = some ⟨true⟩ ∧ ∀ g, s.guards g = some ⟨true⟩ → g = owner
  saved : s.database.saved = some before
  ended : s.database.ended = []
  committed : s.committed = false
  content : s.database.content = s.written

structure Committed (s : State α) : Prop where
  orphaned : Orphaned s
  saved : s.database.saved = none
  ended : s.database.ended = [.commit]
  committed : s.committed = true
  content : s.database.content = s.written

structure RolledBack (before : α) (s : State α) : Prop where
  orphaned : Orphaned s
  saved : s.database.saved = none
  ended : s.database.ended = [.rollback]
  committed : s.committed = false
  content : s.database.content = before

structure Alive (s : State α) : Prop where
  whole : s.terminated = false
  valid : s.database.isValid = true
  fresh : ∀ g, s.next ≤ g → s.guards g = none

/-- What a run is made of until its guards are destroyed: another beginTransaction fails,
and a guard that goes earlier has been moved from or has committed. -/
def Admitted (s : State α) : Label α → Prop
  | .beginTransaction => ∃ e db, Guard.ofDatabase s.database = .error e db
  | .destroy g => s.guards g ≠ some ⟨true⟩
  | _ => True

section steps
variable {before : α} {s t : State α}

theorem execute_valid {sql : Sql α} {db : Database α} (valid : db.isValid = true) :
    execute sql db = match exec sql db with
      | (none,after) => .ok () after
      | (some failure,after) => .error (sqlite3Error failure.1 failure.2) after := by
  unfold execute
  rw [if_pos valid]
  rcases exec sql db with ⟨_ | failure,after⟩ <;> rfl

theorem execute_other {db : Database α} (valid : db.isValid = true) (run : α → α × Option Failure) :
    leftBy (execute (.other run) db) = {db with content := (run db.content).1} := by
  rw [execute_valid valid]
  simp only [exec]
  cases (run db.content).2 <;> rfl

theorem begin_inside {db : Database α} (valid : db.isValid = true) (inside : db.saved = some before) :
    ∃ e, Guard.ofDatabase db = .error e db := by
  refine ⟨sqlite3Error 1 "cannot start a transaction within a transaction",?_⟩
  simp only [Guard.ofDatabase,Bind.bind,EStateM.bind,execute_valid valid,exec,inside]

theorem begin_outside {db : Database α} (valid : db.isValid = true) (outside : db.saved = none) :
    Guard.ofDatabase db = .ok ⟨true⟩ {db with saved := some db.content} := by
  simp only [Guard.ofDatabase,Bind.bind,EStateM.bind,execute_valid valid,exec,outside]
  rfl

theorem commit_inside {db : Database α} (valid : db.isValid = true) (inside : db.saved = some before)
    (refused : Option Failure) :
    Guard.commit ⟨true⟩ refused db = match refused with
      | none => .ok ⟨false⟩ {db with saved := none,ended := db.ended ++ [.commit]}
      | some failure => .error (sqlite3Error failure.1 failure.2) db := by
  simp only [Guard.commit,if_true,Bind.bind,EStateM.bind,execute_valid valid,exec,inside]
  cases refused <;> rfl

theorem destruct_inside {db : Database α} (valid : db.isValid = true) (inside : db.saved = some before) :
    Guard.destruct ⟨true⟩ db = .ok () {db with content := before,saved := none,ended := db.ended ++ [.rollback]} := by
  simp only [Guard.destruct,if_true,execute_valid valid,exec,inside]

theorem addGuard_alive (alive : Alive s) (guard : Guard) : Alive (s.addGuard guard) where
  whole := alive.whole
  valid := alive.valid
  fresh := by
    intro g beyond
    exact (Function.update_of_ne (Nat.lt_of_succ_le beyond).ne' _ _).trans (alive.fresh g (Nat.le_of_succ_le beyond))

theorem guard_lt (alive : Alive s) {g : Nat} {guard : Guard} (here : s.guards g = some guard) : g < s.next := by
  by_contra beyond
  have none := alive.fresh g (by omega)
  simp [none] at here

theorem set_alive (alive : Alive s) {g : Nat} {guard : Guard} (here : s.guards g = some guard) (left : Option Guard) :
    ∀ i, s.next ≤ i → Function.update s.guards g left i = none := by
  intro i beyond
  have differ : i ≠ g := (Nat.lt_of_lt_of_le (guard_lt alive here) beyond).ne'
  exact (Function.update_of_ne differ _ _).trans (alive.fresh i beyond)

/-- The guards after a move: the new one has the pointer of the other, which has none. -/
theorem moved_owner (alive : Alive s) {g : Nat} {guard : Guard} (here : s.guards g = some guard) (i : Nat) :
    Function.update (Function.update s.guards s.next (some guard)) g (some ⟨false⟩) i = some ⟨true⟩ ↔
      (i = s.next ∧ guard = ⟨true⟩) ∨ (i ≠ s.next ∧ i ≠ g ∧ s.guards i = some ⟨true⟩) := by
  have differ := (guard_lt alive here).ne
  by_cases source : i = g
  · subst source
    simp [differ]
  by_cases new : i = s.next
  · subst new
    simp [source]
  · simp [source,new]

theorem orphaned_move (alive : Alive s) (orphaned : Orphaned s) {g : Nat} {guard : Guard} (here : s.guards g = some guard) :
    ∀ i, Function.update (Function.update s.guards s.next (some guard)) g (some ⟨false⟩) i ≠ some ⟨true⟩ := by
  intro i owns
  rcases (moved_owner alive here i).mp owns with ⟨_,rfl⟩ | ⟨_,_,before⟩
  · exact orphaned g here
  · exact orphaned i before

theorem orphaned_set (orphaned : Orphaned s) (g : Nat) {left : Option Guard} (lost : left ≠ some ⟨true⟩) :
    ∀ i, Function.update s.guards g left i ≠ some ⟨true⟩ := by
  intro i owns
  rcases update_eq_some.mp owns with ⟨_,same⟩ | ⟨_,before⟩
  · exact lost same
  · exact orphaned i before

theorem alive_set (alive : Alive s) {g : Nat} {guard : Guard} (here : s.guards g = some guard) {u : State α}
    (left : Option Guard) (whole : u.terminated = false) (valid : u.database.isValid = true) (next : u.next = s.next)
    (guards : u.guards = Function.update s.guards g left) : Alive u where
  whole := whole
  valid := valid
  fresh := by
    rw [next,guards]
    exact set_alive alive here left

theorem move_alive (alive : Alive s) {g : Nat} {guard : Guard} (here : s.guards g = some guard) :
    Alive {s.addGuard guard with
      guards := Function.update (s.addGuard guard).guards g (some ⟨false⟩)} := by
  have there : (s.addGuard guard).guards g = some guard :=
    (Function.update_of_ne (guard_lt alive here).ne _ _).trans here
  exact alive_set (addGuard_alive alive guard) there (some ⟨false⟩) alive.whole alive.valid rfl rfl

theorem Opened.destroy_other (alive : Alive s) (opened : Opened before s) {g : Nat} (other : s.guards g ≠ some ⟨true⟩)
    (destroyed : act s (.destroy g) = some t) : Alive t ∧ Opened before t := by
  obtain ⟨owner,holds,only⟩ := opened.owner
  obtain ⟨⟨db⟩,here,rfl⟩ := Option.map_eq_some_iff.mp destroyed
  cases db with
  | true => exact absurd here other
  | false =>
    refine ⟨alive_set alive here none alive.whole alive.valid rfl rfl,{opened with owner := ⟨owner,?_,?_⟩}⟩
    · have differ : owner ≠ g := by
        rintro rfl
        cases here.symm.trans holds
      exact (Function.update_of_ne differ _ _).trans holds
    · intro i owns
      exact only i (erase_eq_some.mp owns).2

/-- While the transaction is open a step keeps it open under one owner, or commits it. -/
theorem Opened.step {label : Label α} (alive : Alive s) (opened : Opened before s) (admitted : Admitted s label)
    (stepped : step s label = some t) : Alive t ∧ (Opened before t ∨ Committed t) := by
  unfold Transaction.step at stepped
  rw [alive.whole,if_neg (by decide)] at stepped
  obtain ⟨owner,holds,only⟩ := opened.owner
  cases label with
  | beginTransaction =>
    obtain ⟨e,failed⟩ := begin_inside alive.valid opened.saved
    simp only [act,failed,Option.some.injEq] at stepped
    exact stepped ▸ ⟨alive,.inl opened⟩
  | move g =>
    obtain ⟨guard,here,rfl⟩ := Option.map_eq_some_iff.mp stepped
    refine ⟨move_alive alive here,.inl {opened with owner := ?_}⟩
    by_cases same : g = owner
    · subst same
      cases here.symm.trans holds
      refine ⟨s.next,(moved_owner alive here _).mpr (.inl ⟨rfl,rfl⟩),?_⟩
      intro i owns
      rcases (moved_owner alive here i).mp owns with ⟨new,_⟩ | ⟨_,other,before⟩
      · exact new
      · exact absurd (only i before) other
    · refine ⟨owner,(moved_owner alive here _).mpr (.inr ⟨(guard_lt alive holds).ne,Ne.symm same,holds⟩),?_⟩
      intro i owns
      rcases (moved_owner alive here i).mp owns with ⟨_,rfl⟩ | ⟨_,_,before⟩
      · exact absurd (only g here) same
      · exact only i before
  | commit g refused =>
    obtain ⟨⟨db⟩,here,rfl⟩ := Option.map_eq_some_iff.mp stepped
    cases db with
    | false =>
      have kept : Function.update s.guards g (some ⟨false⟩) = s.guards := by rw [← here,Function.update_eq_self]
      simp only [Guard.commit,Bool.false_eq_true,if_false,pure,EStateM.pure,kept,Bool.or_false]
      exact ⟨alive,.inl opened⟩
    | true =>
      cases only g here
      simp only [commit_inside alive.valid opened.saved]
      cases refused with
      | some failure => exact ⟨alive,.inl opened⟩
      | none =>
        refine ⟨alive_set alive here (some ⟨false⟩) alive.whole alive.valid rfl rfl,.inr ?_⟩
        refine {orphaned := ?_,saved := rfl,ended := ?_,committed := ?_,content := opened.content}
        · intro i owns
          rcases update_eq_some.mp owns with ⟨_,same⟩ | ⟨other,before⟩
          · cases same
          · exact other (only i before)
        · simp [opened.ended]
        · simp
  | execute run =>
    simp only [act,execute_other alive.valid,Option.some.injEq] at stepped
    rw [← stepped]
    exact ⟨⟨alive.whole,alive.valid,alive.fresh⟩,.inl {opened with content := by rw [opened.content]}⟩
  | destroy g =>
    obtain ⟨still,kept⟩ := opened.destroy_other alive admitted stepped
    exact ⟨still,.inl kept⟩

/-- After the end of the transaction guards commit and go without a trace. -/
theorem orphaned_commit (orphaned : Orphaned s) {g : Nat} {guard : Guard} (here : s.guards g = some guard)
    (refused : Option Failure) :
    Guard.commit guard refused s.database = .ok guard s.database ∧
      Function.update s.guards g (some guard) = s.guards ∧ guard.db = false := by
  obtain ⟨db⟩ := guard
  cases db with
  | true => exact absurd here (orphaned g)
  | false => exact ⟨rfl,by rw [← here,Function.update_eq_self],rfl⟩

theorem orphaned_destroy (alive : Alive s) (orphaned : Orphaned s) {g : Nat} (stepped : Transaction.step s (.destroy g) = some t) :
    Alive t ∧ t = {s with guards := t.guards} ∧ Orphaned t := by
  unfold Transaction.step at stepped
  rw [alive.whole,if_neg (by decide)] at stepped
  obtain ⟨⟨db⟩,here,rfl⟩ := Option.map_eq_some_iff.mp stepped
  cases db with
  | true => exact absurd here (orphaned g)
  | false => exact ⟨alive_set alive here none alive.whole alive.valid rfl rfl,rfl,orphaned_set orphaned g nofun⟩

theorem Committed.step {label : Label α} (alive : Alive s) (ended : Committed s) (admitted : Admitted s label)
    (stepped : step s label = some t) : Alive t ∧ Committed t := by
  cases label with
  | destroy g =>
    obtain ⟨still,same,orphaned⟩ := orphaned_destroy alive ended.orphaned stepped
    rw [same] at orphaned ⊢
    rw [same] at still
    exact ⟨still,{ended with orphaned := orphaned}⟩
  | beginTransaction =>
    obtain ⟨e,db,failed⟩ := admitted
    simp [begin_outside alive.valid ended.saved] at failed
  | move g =>
    unfold Transaction.step at stepped
    rw [alive.whole,if_neg (by decide)] at stepped
    obtain ⟨guard,here,rfl⟩ := Option.map_eq_some_iff.mp stepped
    exact ⟨move_alive alive here,{ended with orphaned := orphaned_move alive ended.orphaned here}⟩
  | commit g refused =>
    unfold Transaction.step at stepped
    rw [alive.whole,if_neg (by decide)] at stepped
    obtain ⟨guard,here,rfl⟩ := Option.map_eq_some_iff.mp stepped
    obtain ⟨done,kept,none⟩ := orphaned_commit ended.orphaned here refused
    simp only [done,kept,none,Bool.or_false]
    exact ⟨alive,ended⟩
  | execute run =>
    unfold Transaction.step at stepped
    rw [alive.whole,if_neg (by decide)] at stepped
    simp only [act,execute_other alive.valid,Option.some.injEq] at stepped
    rw [← stepped]
    exact ⟨⟨alive.whole,alive.valid,alive.fresh⟩,{ended with content := by rw [ended.content]}⟩

/-- Destroying the guard that owns the open transaction rolls it back. -/
theorem Opened.destroy (alive : Alive s) (opened : Opened before s) {g : Nat}
    (stepped : Transaction.step s (.destroy g) = some t) : Alive t ∧ (Opened before t ∨ RolledBack before t) := by
  unfold Transaction.step at stepped
  rw [alive.whole,if_neg (by decide)] at stepped
  by_cases owner : s.guards g = some ⟨true⟩
  · have only : ∀ i, s.guards i = some ⟨true⟩ → i = g := by
      obtain ⟨owner',_,only⟩ := opened.owner
      intro i owns
      exact (only i owns).trans (only g owner).symm
    simp only [act,owner,Option.map_some,destruct_inside alive.valid opened.saved,Option.some.injEq] at stepped
    rw [← stepped]
    refine ⟨alive_set alive owner none alive.whole alive.valid rfl rfl,.inr ?_⟩
    refine {orphaned := ?_,saved := rfl,ended := ?_,committed := opened.committed,content := rfl}
    · intro i owns
      obtain ⟨other,before⟩ := erase_eq_some.mp owns
      exact other (only i before)
    · simp [opened.ended]
  · obtain ⟨still,kept⟩ := opened.destroy_other alive owner stepped
    exact ⟨still,.inl kept⟩

/-- What holds until the guards are destroyed. -/
def Running (before : α) (s : State α) : Prop := Alive s ∧ (Opened before s ∨ Committed s)

theorem Running.step {label : Label α} (running : Running before s) (admitted : Admitted s label)
    (stepped : Transaction.step s label = some t) : Running before t := by
  obtain ⟨alive,opened | committed⟩ := running
  · exact opened.step alive admitted stepped
  · obtain ⟨still,committed⟩ := committed.step alive admitted stepped
    exact ⟨still,.inr committed⟩

/-- What holds while they are being destroyed. -/
def Leaving (before : α) (s : State α) : Prop :=
  Alive s ∧ (Opened before s ∨ Committed s ∨ RolledBack before s)

theorem Leaving.destroy (leaving : Leaving before s) {g : Nat} (stepped : Transaction.step s (.destroy g) = some t) :
    Leaving before t := by
  obtain ⟨alive,opened | committed | rolled⟩ := leaving
  · obtain ⟨still,opened | rolled⟩ := opened.destroy alive stepped
    · exact ⟨still,.inl opened⟩
    · exact ⟨still,.inr (.inr rolled)⟩
  · obtain ⟨still,same,orphaned⟩ := orphaned_destroy alive committed.orphaned stepped
    rw [same] at orphaned still ⊢
    exact ⟨still,.inr (.inl {committed with orphaned := orphaned})⟩
  · obtain ⟨still,same,orphaned⟩ := orphaned_destroy alive rolled.orphaned stepped
    rw [same] at orphaned still ⊢
    exact ⟨still,.inr (.inr {rolled with orphaned := orphaned})⟩

theorem step_idle (before : α) : Transaction.step (idle before) .beginTransaction =
    some ({idle before with database := ⟨true,before,some before,[]⟩}.addGuard ⟨true⟩) :=
  rfl

theorem begun (stepped : Transaction.step (idle before) .beginTransaction = some s) : Alive s ∧ Opened before s := by
  cases (step_idle before).symm.trans stepped
  refine ⟨addGuard_alive ⟨rfl,rfl,fun _ _ => rfl⟩ ⟨true⟩,⟨0,rfl,?_⟩,rfl,rfl,rfl,rfl⟩
  intro g owns
  by_contra other
  have none : Function.update (fun _ : Nat => (none : Option Guard)) 0 (some ⟨true⟩) g = some ⟨true⟩ := owns
  simp [other] at none

end steps

end Sl3.Transaction
