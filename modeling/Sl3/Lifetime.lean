import Sl3.World
import Sl3.Library.Machine
import Sl3.Library.PartialMap

/-! Which runs hand only live statements to sqlite: a statement has two finalizers, its
Command and the Database, and a loop keeps it in use while code of the user runs. -/
namespace Sl3.Lifetime
open World Library Machine PartialMap
variable {p : Sqlite} {w : World}

/-- No names are asked of a statement that its Database has finalized; no Database and no
Command is destroyed whose statement is in a guard; no loop goes on once its Command is gone. -/
def Safe (w : World) : Label → Prop
  | .getParameterNames c => ∀ cmd k id, w.commands c = some cmd → cmd.connection = some k → cmd.stmt = some id →
      cmd.parameters ≠ [] → w.connections k = true
  | .destroyDatabase d => ∀ loop ∈ w.loops, ∀ k, w.databases d = some k → w.handles loop.guard ≠ some k
  | .destroyCommand c => ∀ loop ∈ w.loops, ∀ cmd, w.commands c = some cmd → cmd.stmt ≠ some loop.guard
  | .step => ∀ loop ∈ w.loops.head?, w.commands loop.command ≠ none
  | _ => True

structure Sound (w : World) : Prop where
  logged : ∀ use ∈ w.log, use.live = true
  owned : ∀ k, w.connections k = true → ∃ d, w.databases d = some k
  fresh : ∀ i, w.next ≤ i →
    w.handles i = none ∧ w.finalized i = false ∧ w.databases i = none ∧ w.commands i = none
  opened : ∀ d k, w.databases d = some k → k < w.next
  prepared : ∀ id k, w.handles id = some k → k < w.next
  held : ∀ c cmd id, w.commands c = some cmd → cmd.stmt = some id →
    ∃ k, cmd.connection = some k ∧ w.handles id = some k ∧ (w.connections k = true → w.finalized id = false)
  unique : ∀ c d cmd other id, w.commands c = some cmd → w.commands d = some other →
    cmd.stmt = some id → other.stmt = some id → c = d
  guarded : ∀ loop ∈ w.loops, w.live loop.guard = true
  running : ∀ loop ∈ w.loops, loop.command < w.next ∧
    ∀ cmd, w.commands loop.command = some cmd → cmd.stmt = none ∨ cmd.stmt = some loop.guard

theorem release_owned (owned : ∀ k, w.connections k = true → ∃ d, w.databases d = some k)
    (small : ∀ d k, w.databases d = some k → d < w.next) (k : Nat) : w.release p k = w := by
  cases valid : w.connections k with
  | false => exact release_closed valid
  | true =>
    obtain ⟨d,database⟩ := owned k valid
    have shared : w.shared k = true :=
      List.any_eq_true.mpr ⟨d,List.mem_range.mpr (small d k database),by simp [database]⟩
    rw [World.release,if_pos shared]

namespace Sound

theorem init : Sound {} where
  logged := by simp
  owned := by simp
  fresh := by simp
  opened := by simp
  prepared := by simp
  held := by simp
  unique := by simp
  guarded := by simp
  running := by simp

theorem database_lt (sound : Sound w) {d k : Nat} (database : w.databases d = some k) : d < w.next := by
  by_contra beyond
  have none := (sound.fresh d (by omega)).2.2.1
  simp [none] at database

theorem command_lt (sound : Sound w) {c : Nat} {cmd : CommandObject} (command : w.commands c = some cmd) :
    c < w.next := by
  by_contra beyond
  have none := (sound.fresh c (by omega)).2.2.2
  simp [none] at command

theorem handle_lt (sound : Sound w) {id k : Nat} (handle : w.handles id = some k) : id < w.next := by
  by_contra beyond
  have none := (sound.fresh id (by omega)).1
  simp [none] at handle

theorem held_live (sound : Sound w) {c id k : Nat} {cmd : CommandObject} (command : w.commands c = some cmd)
    (stmt : cmd.stmt = some id) (connection : cmd.connection = some k) (valid : w.connections k = true) :
    w.live id = true := by
  obtain ⟨k',same,handle,kept⟩ := sound.held c cmd id command stmt
  rw [connection] at same
  cases same
  exact live_iff.mpr ⟨k,handle,valid,kept valid⟩

theorem use (sound : Sound w) (call : SqliteCall) {id : Nat} (live : w.live id = true) :
    Sound (w.use call id) where
  __ := sound
  logged := by
    intro use member
    rcases List.mem_append.mp member with before | last
    · exact sound.logged use before
    · rw [List.mem_singleton] at last
      exact last ▸ live

theorem setStatement {q : Query} (sound : Sound w) (id : Nat) (stmt : Stmt q) : Sound (w.setStatement id stmt) :=
  {sound with}

theorem grow (sound : Sound w) : Sound {w with next := w.next + 1} where
  __ := sound
  fresh := fun i beyond => sound.fresh i (Nat.le_of_succ_le beyond)
  opened := fun d k database => Nat.lt_succ_of_lt (sound.opened d k database)
  prepared := fun id k handle => Nat.lt_succ_of_lt (sound.prepared id k handle)
  running := fun loop member => ⟨Nat.lt_succ_of_lt (sound.running loop member).1,(sound.running loop member).2⟩

/-- Commands that hold statements come from Commands that held them, no two from one. -/
theorem rearrange (sound : Sound w) {n : Nat} {commands : Nat → Option CommandObject} (origin : Nat → Nat)
    (more : w.next ≤ n) (bounded : ∀ i, n ≤ i → commands i = none)
    (back : ∀ i new id, commands i = some new → new.stmt = some id →
      ∃ old, w.commands (origin i) = some old ∧ old.connection = new.connection ∧ old.stmt = some id)
    (apart : ∀ i j new other, commands i = some new → commands j = some other →
      new.stmt ≠ none → other.stmt ≠ none → origin i = origin j → i = j)
    (here : ∀ i new, i < w.next → commands i = some new → new.stmt ≠ none → origin i = i) :
    Sound {w with next := n,commands := commands} where
  logged := sound.logged
  owned := sound.owned
  fresh := by
    intro i beyond
    obtain ⟨handle,finalized,database,_⟩ := sound.fresh i (more.trans beyond)
    exact ⟨handle,finalized,database,bounded i beyond⟩
  opened := fun d k database => (sound.opened d k database).trans_le more
  prepared := fun id k handle => (sound.prepared id k handle).trans_le more
  held := by
    intro i new id command stmt
    obtain ⟨old,before,connection,held⟩ := back i new id command stmt
    rw [← connection]
    exact sound.held _ old id before held
  unique := by
    intro i j new other id command command' stmt stmt'
    obtain ⟨old,before,_,held⟩ := back i new id command stmt
    obtain ⟨old',before',_,held'⟩ := back j other id command' stmt'
    apply apart i j new other command command' (by simp [stmt]) (by simp [stmt'])
    exact sound.unique _ _ old old' id before before' held held'
  guarded := sound.guarded
  running := by
    intro loop member
    obtain ⟨small,guard⟩ := sound.running loop member
    refine ⟨small.trans_le more,?_⟩
    intro new command
    cases stmt : new.stmt with
    | none => exact .inl rfl
    | some id =>
      obtain ⟨old,before,_,held⟩ := back _ new id command stmt
      rw [here _ new small command (by simp [stmt])] at before
      rw [← held]
      exact guard old before

theorem setCommand (sound : Sound w) {c : Nat} {cmd : CommandObject} (command : w.commands c = some cmd)
    (parameters : DbValues) : Sound (w.setCommand c {cmd with parameters}) := by
  apply sound.rearrange id (Nat.le_refl _)
  · intro i beyond
    have differ : i ≠ c := (Nat.lt_of_lt_of_le (sound.command_lt command) beyond).ne'
    exact (Function.update_of_ne differ _ _).trans (sound.fresh i beyond).2.2.2
  · intro i new id here stmt
    rcases update_eq_some.mp here with ⟨rfl,same⟩ | ⟨_,before⟩
    · cases same
      exact ⟨cmd,command,rfl,stmt⟩
    · exact ⟨new,before,rfl,stmt⟩
  · intro i j _ _ _ _ _ _ same
    exact same
  · intro i _ _ _ _
    rfl

theorem eraseCommand (sound : Sound w) (c : Nat) :
    Sound {w with commands := Function.update w.commands c none} := by
  apply sound.rearrange id (Nat.le_refl _)
  · intro i beyond
    by_cases same : i = c
    · rw [same,Function.update_self]
    · exact (Function.update_of_ne same _ _).trans (sound.fresh i beyond).2.2.2
  · intro i new id here stmt
    exact ⟨new,(erase_eq_some.mp here).2,rfl,stmt⟩
  · intro i j _ _ _ _ _ _ same
    exact same
  · intro i _ _ _ _
    rfl

theorem moveCommand {c : Nat} {cmd : CommandObject} (sound : Sound w) (command : w.commands c = some cmd) :
    Sound {w.addCommand cmd with
      commands := Function.update (w.addCommand cmd).commands c (some .movedFrom)} := by
  have small := sound.command_lt command
  -- who holds a statement now is the new Command or one that was not moved from
  have holds : ∀ i new, Function.update (w.addCommand cmd).commands c (some .movedFrom) i = some new →
      new.stmt ≠ none → (i = w.next ∧ new = cmd) ∨ (i ≠ c ∧ i < w.next ∧ w.commands i = some new) := by
    intro i new here stmt
    rcases update_eq_some.mp here with ⟨_,same⟩ | ⟨other,there⟩
    · cases same
      exact absurd rfl stmt
    · rcases update_eq_some.mp there with ⟨last,same⟩ | ⟨_,before⟩
      · exact .inl ⟨last,(Option.some.inj same).symm⟩
      · exact .inr ⟨other,sound.command_lt before,before⟩
  apply sound.rearrange (fun i => if i = w.next then c else i) (Nat.le_succ _)
  · intro i beyond
    have differ : i ≠ c := (Nat.lt_of_lt_of_le small (Nat.le_of_succ_le beyond)).ne'
    rw [Function.update_of_ne differ]
    exact (Function.update_of_ne (Nat.lt_of_succ_le beyond).ne' _ _).trans
      (sound.fresh i (Nat.le_of_succ_le beyond)).2.2.2
  · intro i new id here stmt
    rcases holds i new here (by simp [stmt]) with ⟨rfl,rfl⟩ | ⟨_,below,before⟩
    · exact ⟨new,by simpa using command,rfl,stmt⟩
    · exact ⟨new,by simpa [below.ne] using before,rfl,stmt⟩
  · intro i j new other here there stmt stmt' same
    rcases holds i new here stmt with ⟨rfl,_⟩ | ⟨kept,below,_⟩ <;>
      rcases holds j other there stmt' with ⟨rfl,_⟩ | ⟨kept',below',_⟩
    · rfl
    · simp only [if_true,below'.ne,if_false] at same
      exact absurd same.symm kept'
    · simp only [if_true,below.ne,if_false] at same
      exact absurd same kept
    · simpa [below.ne,below'.ne] using same
  · intro i new below _ _
    simp [below.ne]

theorem openDatabase (sound : Sound w) : Sound w.openDatabase := by
  refine {sound.grow with owned := ?_,fresh := ?_,opened := ?_,held := ?_,guarded := ?_}
  · intro k valid
    by_cases new : k = w.next
    · exact ⟨w.next,by simp [World.openDatabase,new]⟩
    · obtain ⟨d,database⟩ := sound.owned k (by simpa [World.openDatabase,new] using valid)
      have old := (sound.database_lt database).ne
      exact ⟨d,by simpa [World.openDatabase,old] using database⟩
  · intro i beyond
    obtain ⟨handle,finalized,database,command⟩ := sound.grow.fresh i beyond
    refine ⟨handle,finalized,?_,command⟩
    exact (Function.update_of_ne (Nat.lt_of_succ_le beyond).ne' _ _).trans database
  · intro d k database
    rcases update_eq_some.mp database with ⟨_,same⟩ | ⟨_,before⟩
    · cases same
      exact Nat.lt_succ_self _
    · exact sound.grow.opened d k before
  · intro c cmd id command stmt
    obtain ⟨k,connection,handle,kept⟩ := sound.held c cmd id command stmt
    refine ⟨k,connection,handle,?_⟩
    intro valid
    apply kept
    have old := (sound.prepared id k handle).ne
    simpa [World.openDatabase,old] using valid
  · intro loop member
    obtain ⟨k,handle,valid,kept⟩ := live_iff.mp (sound.guarded loop member)
    refine live_iff.mpr ⟨k,handle,?_,kept⟩
    have old := (sound.prepared _ k handle).ne
    simpa [World.openDatabase,old] using valid

theorem moveDatabase (sound : Sound w) {d : Nat} {u : World} (moved : w.moveDatabase d = some u) : Sound u := by
  obtain ⟨k,database,rfl⟩ := Option.map_eq_some_iff.mp moved
  have small := sound.database_lt database
  refine {sound.grow with owned := ?_,fresh := ?_,opened := ?_}
  · intro k' valid
    obtain ⟨e,owner⟩ := sound.owned k' valid
    by_cases same : e = d
    · rw [same,database] at owner
      cases owner
      exact ⟨w.next,update_eq_some.mpr (.inr ⟨small.ne',Function.update_self _ _ _⟩)⟩
    · have old := (sound.database_lt owner).ne
      exact ⟨e,update_eq_some.mpr (.inr ⟨same,update_eq_some.mpr (.inr ⟨old,owner⟩)⟩)⟩
  · intro i beyond
    obtain ⟨handle,finalized,none,command⟩ := sound.grow.fresh i beyond
    refine ⟨handle,finalized,?_,command⟩
    have old : i ≠ d := (Nat.lt_of_lt_of_le small (Nat.le_of_succ_le beyond)).ne'
    exact update_eq_none.mpr ⟨old,update_eq_none.mpr ⟨(Nat.lt_of_succ_le beyond).ne',none⟩⟩
  · intro e k' owner
    rcases update_eq_some.mp owner with ⟨_,same⟩ | ⟨_,there⟩
    · cases same
      exact Nat.lt_succ_self _
    · rcases update_eq_some.mp there with ⟨_,same⟩ | ⟨_,before⟩
      · cases same
        exact sound.grow.opened d k database
      · exact sound.grow.opened e k' before

theorem release (sound : Sound w) (k : Nat) : w.release p k = w :=
  release_owned sound.owned (fun _ _ => sound.database_lt) k

theorem opened_erase (sound : Sound w) (d : Nat) {e k : Nat}
    (database : Function.update w.databases d none e = some k) : k < w.next :=
  sound.opened e k (erase_eq_some.mp database).2

theorem fresh_erase (sound : Sound w) (d : Nat) {i : Nat} (beyond : w.next ≤ i) :
    Function.update w.databases d none i = none := by
  by_cases same : i = d
  · rw [same,Function.update_self]
  · exact (Function.update_of_ne same _ _).trans (sound.fresh i beyond).2.2.1

theorem owned_erase (sound : Sound w) {d k other : Nat} (database : w.databases d = some k) (differ : other ≠ k)
    (valid : w.connections other = true) : ∃ e, Function.update w.databases d none e = some other := by
  obtain ⟨e,owner⟩ := sound.owned other valid
  refine ⟨e,erase_eq_some.mpr ⟨?_,owner⟩⟩
  rintro rfl
  exact differ (Option.some.inj (owner.symm.trans database))

/-- The statements of a connection are finalized and it is closed while no guard is on it;
its Database goes away. -/
theorem sweep (sound : Sound w) {d k : Nat} {u : World} (database : w.databases d = some k) (swept : Swept k w u)
    (unguarded : ∀ loop ∈ w.loops, w.handles loop.guard ≠ some k) :
    Sound {u with
      connections := Function.update u.connections k false
      databases := Function.update u.databases d none} := by
  obtain ⟨rest,others,uses,log,live⟩ := swept
  rw [rest]
  have elsewhere : ∀ other, Function.update w.connections k false other = true →
      other ≠ k ∧ w.connections other = true := by
    intro other still
    have differ : other ≠ k := by
      rintro rfl
      simp at still
    exact ⟨differ,by simpa [differ] using still⟩
  refine {sound with logged := ?_,owned := ?_,fresh := ?_,opened := ?_,held := ?_,guarded := ?_}
  · intro use member
    rw [show u.log = w.log ++ uses from log] at member
    rcases List.mem_append.mp member with before | added
    · exact sound.logged use before
    · exact live use added
  · intro other still
    obtain ⟨differ,before⟩ := elsewhere other still
    exact sound.owned_erase database differ before
  · intro i beyond
    obtain ⟨handle,finalized,_,command⟩ := sound.fresh i beyond
    refine ⟨handle,?_,sound.fresh_erase d beyond,command⟩
    exact (others i (by simp [handle])).trans finalized
  · intro e other owner
    exact sound.opened_erase d owner
  · intro c cmd id command stmt
    obtain ⟨other,connection,handle,kept⟩ := sound.held c cmd id command stmt
    refine ⟨other,connection,handle,?_⟩
    intro still
    obtain ⟨differ,before⟩ := elsewhere other still
    exact (others id (by simp [handle,differ])).trans (kept before)
  · intro loop member
    obtain ⟨other,handle,before,kept⟩ := live_iff.mp (sound.guarded loop member)
    have outside := unguarded loop member
    have differ : other ≠ k := by
      rintro rfl
      exact outside handle
    refine live_iff.mpr ⟨other,handle,?_,(others _ outside).trans kept⟩
    exact (Function.update_of_ne differ _ _).trans before

theorem eraseDatabase (sound : Sound w) {d k : Nat} (database : w.databases d = some k)
    (closed : w.connections k = false) : Sound {w with databases := Function.update w.databases d none} := by
  refine {sound with owned := ?_,fresh := ?_,opened := ?_}
  · intro other still
    have differ : other ≠ k := by
      rintro rfl
      simp [closed] at still
    exact sound.owned_erase database differ still
  · intro i beyond
    obtain ⟨handle,finalized,_,command⟩ := sound.fresh i beyond
    exact ⟨handle,finalized,sound.fresh_erase d beyond,command⟩
  · intro e other owner
    exact sound.opened_erase d owner

theorem closeDatabase (sound : Sound w) {d k : Nat} (database : w.databases d = some k)
    (unguarded : ∀ loop ∈ w.loops, w.handles loop.guard ≠ some k) :
    Sound {w.close p k with databases := Function.update (w.close p k).databases d none} := by
  cases valid : w.connections k with
  | true =>
    rw [close,if_pos valid]
    exact sound.sweep database (finalizeAll_swept _ valid) unguarded
  | false =>
    rw [close,if_neg (by simp [valid])]
    exact sound.eraseDatabase database valid

theorem destroyDatabase (sound : Sound w) {d : Nat} {u : World} (safe : Safe w (.destroyDatabase d))
    (destroyed : w.destroyDatabase p d = some u) : Sound u := by
  obtain ⟨k,database,rfl⟩ := Option.map_eq_some_iff.mp destroyed
  have closed := @closeDatabase p w sound d k database fun loop member => safe loop member k database
  rw [closed.release]
  exact closed

theorem addHandle (sound : Sound w) {k : Nat} (below : k < w.next) (q : Query) : Sound (w.addHandle k q) := by
  have handle_old : ∀ {id k'}, w.handles id = some k' → (w.addHandle k q).handles id = some k' := by
    intro id k' handle
    exact (Function.update_of_ne (sound.handle_lt handle).ne _ _).trans handle
  refine {sound.grow with fresh := ?_,prepared := ?_,held := ?_,guarded := ?_}
  · intro i beyond
    obtain ⟨handle,rest⟩ := sound.grow.fresh i beyond
    exact ⟨(Function.update_of_ne (Nat.lt_of_succ_le beyond).ne' _ _).trans handle,rest⟩
  · intro id k' handle
    rcases update_eq_some.mp handle with ⟨_,same⟩ | ⟨_,before⟩
    · cases same
      exact Nat.lt_succ_of_lt below
    · exact sound.grow.prepared id k' before
  · intro c cmd id command stmt
    obtain ⟨k',connection,handle,kept⟩ := sound.held c cmd id command stmt
    exact ⟨k',connection,handle_old handle,kept⟩
  · intro loop member
    obtain ⟨k',handle,rest⟩ := live_iff.mp (sound.guarded loop member)
    exact live_iff.mpr ⟨k',handle_old handle,rest⟩

theorem addCommand (sound : Sound w) (cmd : CommandObject)
    (holds : ∀ id, cmd.stmt = some id → ∃ k, cmd.connection = some k ∧ w.handles id = some k ∧
      w.finalized id = false)
    (alone : ∀ id c other, cmd.stmt = some id → w.commands c = some other → other.stmt ≠ some id) :
    Sound (w.addCommand cmd) := by
  refine {sound.grow with fresh := ?_,held := ?_,unique := ?_,running := ?_}
  · intro i beyond
    obtain ⟨handle,finalized,database,command⟩ := sound.grow.fresh i beyond
    exact ⟨handle,finalized,database,(Function.update_of_ne (Nat.lt_of_succ_le beyond).ne' _ _).trans command⟩
  · intro c here id command stmt
    rcases update_eq_some.mp command with ⟨_,same⟩ | ⟨_,before⟩
    · cases same
      obtain ⟨k,connection,handle,kept⟩ := holds id stmt
      exact ⟨k,connection,handle,fun _ => kept⟩
    · exact sound.held c here id before stmt
  · intro c d here there id command command' stmt stmt'
    rcases update_eq_some.mp command with ⟨first,same⟩ | ⟨_,before⟩ <;>
      rcases update_eq_some.mp command' with ⟨second,same'⟩ | ⟨_,before'⟩
    · exact first.trans second.symm
    · cases same
      exact absurd stmt' (alone id d there stmt before')
    · cases same'
      exact absurd stmt (alone id c here stmt' before)
    · exact sound.unique c d here there id before before' stmt stmt'
  · intro loop member
    obtain ⟨small,guard⟩ := sound.running loop member
    refine ⟨Nat.lt_succ_of_lt small,?_⟩
    intro here command
    apply guard here
    simpa [World.addCommand,small.ne] using command

theorem prepare (sound : Sound w) {d : Nat} {sql : Compiled} {parameters : Option DbValues} {u : World}
    (prepared : w.prepare d sql parameters = some u) : Sound u := by
  obtain ⟨k,database,rfl⟩ := Option.map_eq_some_iff.mp prepared
  split_ifs with valid
  · cases sql with
    | error => exact sound
    | empty =>
      simp only
      split_ifs
      · exact sound.addCommand _ (by simp) (by simp)
      · exact sound
    | statement q =>
      have handled := sound.addHandle (sound.opened d k database) q
      simp only
      split_ifs
      · apply handled.addCommand
        · intro id stmt
          cases stmt
          exact ⟨k,rfl,Function.update_self _ _ _,(sound.fresh w.next (Nat.le_refl _)).2.1⟩
        · intro id c other stmt command stmt'
          cases stmt
          obtain ⟨k',_,handle,_⟩ := sound.held c other w.next command stmt'
          exact absurd (sound.handle_lt handle) (Nat.lt_irrefl _)
      · exact handled
  · exact sound

theorem finalize (sound : Sound w) {id : Nat} (live : w.live id = true)
    (unheld : ∀ c cmd, w.commands c = some cmd → cmd.stmt ≠ some id)
    (unguarded : ∀ loop ∈ w.loops, loop.guard ≠ id) : Sound (w.finalize id) := by
  have used := sound.use .finalize live
  refine {used with fresh := ?_,held := ?_,guarded := ?_}
  · intro i beyond
    obtain ⟨handle,finalized,rest⟩ := sound.fresh i beyond
    have other : i ≠ id := by
      rintro rfl
      simp [World.live,handle] at live
    exact ⟨handle,(Function.update_of_ne other _ _).trans finalized,rest⟩
  · intro c cmd other command stmt
    obtain ⟨k,connection,handle,kept⟩ := sound.held c cmd other command stmt
    have differ : other ≠ id := by
      rintro rfl
      exact unheld c cmd command stmt
    exact ⟨k,connection,handle,fun valid => (Function.update_of_ne differ _ _).trans (kept valid)⟩
  · intro loop member
    obtain ⟨k,handle,valid,kept⟩ := live_iff.mp (sound.guarded loop member)
    exact live_iff.mpr ⟨k,handle,valid,(Function.update_of_ne (unguarded loop member) _ _).trans kept⟩

theorem destroyCommand (sound : Sound w) {c : Nat} {u : World} (safe : Safe w (.destroyCommand c))
    (destroyed : w.destroyCommand p c = some u) : Sound u := by
  obtain ⟨cmd,command,rfl⟩ := Option.map_eq_some_iff.mp destroyed
  have erased := sound.eraseCommand c
  cases connection : cmd.connection with
  | none => exact erased
  | some k =>
    cases stmt : cmd.stmt with
    | none =>
      simp only [erased.release]
      exact erased
    | some id =>
      simp only
      split_ifs with valid
      · -- destroying the object first is the same, and leaves no Command with the statement
        have finalized : Sound (World.finalize id {w with commands := Function.update w.commands c none}) := by
          apply erased.finalize (sound.held_live command stmt connection valid)
          · intro i other here same
            obtain ⟨differ,before⟩ := erase_eq_some.mp here
            exact differ (sound.unique i c other cmd id before command same stmt)
          · intro loop member same
            exact safe loop member cmd command (by rw [stmt,same])
        exact (finalized.release k).symm ▸ finalized
      · rw [erased.release]
        exact erased

theorem getParameterNames (sound : Sound w) {c : Nat} {u : World} (safe : Safe w (.getParameterNames c))
    (asked : w.getParameterNames c = some u) : Sound u := by
  obtain ⟨cmd,command,rfl⟩ := Option.map_eq_some_iff.mp asked
  cases stmt : cmd.stmt with
  | none => exact sound
  | some id =>
    simp only
    split_ifs with none
    · exact sound
    · obtain ⟨k,connection,_⟩ := sound.held c cmd id command stmt
      have valid := safe cmd k id command connection stmt fun empty => none (by rw [empty]; rfl)
      exact sound.use _ (sound.held_live command stmt connection valid)

theorem push (sound : Sound w) {c id : Nat} {cmd : CommandObject} (command : w.commands c = some cmd)
    (stmt : cmd.stmt = some id) (live : w.live id = true) : Sound (w.push c id) where
  __ := sound
  guarded := by
    intro loop member
    rcases List.mem_cons.mp member with rfl | outer
    · exact live
    · exact sound.guarded loop outer
  running := by
    intro loop member
    rcases List.mem_cons.mp member with rfl | outer
    · refine ⟨sound.command_lt command,?_⟩
      intro here same
      rw [show w.commands c = some here from same] at command
      cases command
      exact .inr stmt
    · exact sound.running loop outer

theorem bindAll (sound : Sound w) {c id : Nat} {cmd : CommandObject} (command : w.commands c = some cmd)
    (live : w.live id = true) (parameters : DbValues) : Sound (w.bindAll c cmd id parameters) := by
  have placed := sound.setCommand command parameters
  unfold World.bindAll
  split_ifs
  · exact placed
  · exact placed.use _ live

theorem enter (sound : Sound w) {c k id : Nat} {cmd : CommandObject} (command : w.commands c = some cmd)
    (stmt : cmd.stmt = some id) (connection : cmd.connection = some k) (parameters : DbValues) :
    Sound (w.enter p c cmd k id parameters) := by
  unfold World.enter
  split_ifs with valid
  · have live := sound.held_live command stmt connection valid
    cases Command.given parameters ⟨true,(w.statements id).stmt,cmd.parameters⟩ with
    | error e left => exact sound.setCommand command left.parameters
    | ok done set =>
      have bound := sound.bindAll command live set.parameters
      simp only
      cases Command.bind p.toPlatform set with
      | error e left => exact bound.setStatement id left.stmt
      | ok done ready =>
        have still := (bindAll_live c cmd id set.parameters w id).trans live
        exact @push _ (bound.setStatement id ready.stmt) c id _ (bindAll_commands c cmd id set.parameters w) stmt still
  · exact sound

theorem execute (sound : Sound w) {c : Nat} {parameters : DbValues} {u : World}
    (executed : w.execute p c parameters = some u) : Sound u := by
  obtain ⟨cmd,command,rfl⟩ := Option.map_eq_some_iff.mp executed
  split
  · rename_i k id connection stmt
    exact sound.enter command stmt connection parameters
  · exact sound.setCommand command _
  · exact {sound with}

theorem pop (sound : Sound w) {loop : Loop} {outer : List Loop} (loops : w.loops = loop::outer) :
    Sound (w.pop loop outer) := by
  have live : w.live loop.guard = true := sound.guarded loop (by simp [loops])
  have within : ∀ other ∈ outer, other ∈ w.loops := fun other member => by simp [loops,member]
  have used := (sound.use .reset live).setStatement loop.guard (w.statements loop.guard).stmt.reset
  exact {used with
    guarded := fun other member => sound.guarded other (within other member)
    running := fun other member => sound.running other (within other member)}

theorem stepLoop (sound : Sound w) {u : World} (safe : Safe w .step) (stepped : w.stepLoop = some u) :
    Sound u := by
  obtain ⟨loop,outer,loops,⟨gone,_⟩ | ⟨cmd,command,result⟩⟩ := stepLoop_cases stepped
  · exact absurd gone (safe loop (by simp [loops]))
  · rcases result with ⟨_,rfl⟩ | ⟨id,used,stmt,rfl,result⟩
    · exact sound.pop loops
    · -- a Command that was not moved from has the statement of the guard
      have member : loop ∈ w.loops := by simp [loops]
      have same : id = loop.guard := by
        rcases (sound.running loop member).2 cmd command with none | guard
        · simp [none] at stmt
        · exact Option.some.inj (stmt.symm.trans guard)
      have live : w.live id = true := same ▸ sound.guarded loop member
      have used := (sound.use .step live).setStatement id (w.statements id).stmt.step.2
      rcases result with rfl | rfl
      · exact {used with}
      · exact used.pop loops

theorem step (sound : Sound w) {label : Label} {u : World} (safe : Safe w label)
    (stepped : w.step p label = some u) : Sound u := by
  obtain ⟨_,_,acted⟩ := step_acts stepped
  cases label with
  | openDatabase => exact Option.some.inj acted ▸ sound.openDatabase
  | moveDatabase d => exact sound.moveDatabase acted
  | destroyDatabase d => exact sound.destroyDatabase safe acted
  | prepare d sql parameters => exact sound.prepare acted
  | moveCommand c =>
    obtain ⟨cmd,command,rfl⟩ := Option.map_eq_some_iff.mp acted
    exact sound.moveCommand command
  | destroyCommand c => exact sound.destroyCommand safe acted
  | editParameters c parameters =>
    obtain ⟨cmd,command,rfl⟩ := Option.map_eq_some_iff.mp acted
    exact sound.setCommand command parameters
  | getParameterNames c => exact sound.getParameterNames safe acted
  | execute c parameters => exact sound.execute acted
  | step => exact sound.stepLoop safe acted
  | next =>
    obtain ⟨loop,outer,_,rfl⟩ := nextRow_cases acted
    exact {sound with}
  | leave =>
    obtain ⟨loop,outer,loops,rfl⟩ := leave_cases acted
    exact sound.pop loops

end Sound

section converse

/-- Code of the user runs inside a loop whose guard is dead. -/
def Doomed (w : World) : Prop :=
  w.broken = false ∧ w.stepping = false ∧ ∃ loop ∈ w.loops, w.live loop.guard = false

theorem Doomed.reaches (doomed : Doomed w) :
    ∃ t, Reaches (step p) (fun _ _ => True) w t ∧ ∃ use ∈ t.log, use.live = false := by
  obtain ⟨whole,user,dead⟩ := doomed
  generalize loops : w.loops = frames at dead
  induction frames generalizing w with
  | nil => simp at dead
  | cons loop outer ih =>
    have leaves : step p w .leave = some (w.pop loop outer) := by
      simp [step,Label.ofLoop,whole,user,act,leave,loops]
    have left : Reaches (step p) (fun _ _ => True) w (w.pop loop outer) := Reaches.start.next .leave trivial leaves
    cases live : w.live loop.guard with
    | false => exact ⟨_,left,⟨.reset,loop.guard,false⟩,by simp [pop,World.use,World.setStatement,live],rfl⟩
    | true =>
      have inner : ∃ other ∈ outer, (w.pop loop outer).live other.guard = false := by
        obtain ⟨other,member,gone⟩ := dead
        rcases List.mem_cons.mp member with rfl | later
        · simp [live] at gone
        · exact ⟨other,later,gone⟩
      have goes : (w.pop loop outer).broken = false := by
        simp [pop,World.use,World.setStatement,whole,live]
      obtain ⟨t,rest,use⟩ := ih goes rfl rfl inner
      exact ⟨t,left.trans rest,use⟩

theorem Sound.getParameterNames_dead (sound : Sound w) {c : Nat} {u : World}
    (safe : ¬ Safe w (.getParameterNames c)) (asked : w.getParameterNames c = some u) :
    ∃ use ∈ u.log, use.live = false := by
  simp only [Safe,not_forall] at safe
  obtain ⟨cmd,k,id,command,connection,stmt,some,closed⟩ := safe
  obtain ⟨k',same,handle,_⟩ := sound.held c cmd id command stmt
  rw [connection] at same
  cases same
  have dead : w.live id = false := by simp [World.live,handle,closed]
  simp only [World.getParameterNames,command,Option.map_some,stmt,List.length_eq_zero_iff,some,if_false,
    Option.some.injEq] at asked
  refine ⟨⟨.bindParameterName,id,false⟩,?_,rfl⟩
  rw [← asked]
  simp [World.use,dead]

theorem destroyDatabase_doomed (whole : w.broken = false) (user : w.stepping = false)
    {d : Nat} {u : World} (safe : ¬ Safe w (.destroyDatabase d)) (destroyed : w.destroyDatabase p d = some u) :
    Doomed u := by
  simp only [Safe,not_forall,not_not] at safe
  obtain ⟨loop,member,k,database,handle⟩ := safe
  simp only [World.destroyDatabase,database,Option.map_some,Option.some.injEq] at destroyed
  rw [close_rest,release_closed (Function.update_self _ _ _)] at destroyed
  have dead : u.live loop.guard = false := by simp [← destroyed,World.live,handle]
  subst destroyed
  exact ⟨whole,user,loop,member,dead⟩

theorem Sound.destroyCommand_doomed (sound : Sound w) (whole : w.broken = false) (user : w.stepping = false)
    {c : Nat} {u : World} (safe : ¬ Safe w (.destroyCommand c)) (destroyed : w.destroyCommand p c = some u) :
    Doomed u := by
  simp only [Safe,not_forall,not_not] at safe
  obtain ⟨loop,member,cmd,command,stmt⟩ := safe
  have live := sound.guarded loop member
  obtain ⟨k,handle,valid,_⟩ := live_iff.mp live
  obtain ⟨k',connection,same,_⟩ := sound.held c cmd _ command stmt
  rw [handle] at same
  cases same
  simp only [World.destroyCommand,command,Option.map_some,connection,stmt,if_pos valid,
    Option.some.injEq] at destroyed
  rw [release_owned] at destroyed
  · have dead : u.live loop.guard = false := by simp [← destroyed,World.live,World.finalize,World.use,handle]
    subst destroyed
    exact ⟨by simp [World.finalize,World.use,whole,live],user,loop,member,dead⟩
  · exact sound.owned
  · exact fun _ _ => sound.database_lt

theorem stepLoop_dead {u : World} (safe : ¬ Safe w .step) (stepped : w.stepLoop = some u) :
    ∃ use ∈ u.log, use.live = false := by
  simp only [Safe,not_forall,not_not] at safe
  obtain ⟨loop,innermost,gone⟩ := safe
  obtain ⟨outer,loops⟩ := List.head?_eq_some_iff.mp innermost
  simp only [World.stepLoop,loops,gone,Option.some.injEq] at stepped
  exact ⟨⟨.step,loop.guard,false⟩,by simp [← stepped],rfl⟩

/-- After a step that is not safe sqlite has got a dead statement, or will get one when
the calls return. -/
theorem unsafe_reaches (sound : Sound w) {label : Label} {u : World} (safe : ¬ Safe w label)
    (stepped : step p w label = some u) :
    ∃ t, Reaches (step p) (fun _ _ => True) u t ∧ ∃ use ∈ t.log, use.live = false := by
  obtain ⟨whole,turn,acted⟩ := step_acts stepped
  cases label with
  | getParameterNames c => exact ⟨u,.start,sound.getParameterNames_dead safe acted⟩
  | destroyDatabase d => exact (destroyDatabase_doomed whole turn safe acted).reaches
  | destroyCommand c => exact (sound.destroyCommand_doomed whole turn safe acted).reaches
  | step => exact ⟨u,.start,stepLoop_dead safe acted⟩
  | _ => exact absurd trivial safe

end converse

/-- In a run whose steps are all safe, every statement handed to sqlite is live. -/
theorem uses_live {t : World} (run : Reaches (step p) Safe {} t) : ∀ use ∈ t.log, use.live = true :=
  (run.invariant Sound.init fun sound safe stepped => sound.step safe stepped).logged

def shown : Query where
  names := ["?1"]
  countable := by norm_num
  paramCount := 1
  program := fun bindings _ => .complete [bindings]

def oneRow : Query := .table ["x"] (by norm_num) [⟨[.integer 0],rfl⟩]

def usesOf (labels : List Label) : Option (List (SqliteCall × Bool)) :=
  (runAll (step .usual) {} labels).map fun w => w.log.map fun use => (use.call,use.live)

theorem uses_live_fails :
    usesOf [.openDatabase,.prepare 0 (.statement shown) none,.destroyDatabase 0,.getParameterNames 2] =
        some [(.finalize,true),(.bindParameterName,false)] ∧
      usesOf [.openDatabase,.prepare 0 (.statement oneRow) none,.execute 2 [],.step,.destroyDatabase 0,.leave] =
        some [(.step,true),(.finalize,true),(.reset,false)] ∧
      ¬ ∀ t, Reaches (step .usual) (fun _ _ => True) {} t → ∀ use ∈ t.log, use.live = true := by
  have names : usesOf [.openDatabase,.prepare 0 (.statement shown) none,.destroyDatabase 0,.getParameterNames 2] =
      some [(.finalize,true),(.bindParameterName,false)] := by decide +kernel
  refine ⟨names,by decide +kernel,?_⟩
  intro all
  obtain ⟨t,ran,log⟩ := Option.map_eq_some_iff.mp names
  have member : (SqliteCall.bindParameterName,false) ∈ t.log.map fun use => (use.call,use.live) := by simp [log]
  obtain ⟨use,logged,same⟩ := List.mem_map.mp member
  have live := all t (runAll_reaches ran) use logged
  simp [live] at same

theorem uses_live_execute : ∃ t, runAll (step .usual) {} [.openDatabase,.prepare 0 (.statement oneRow) none,
      .execute 2 [],.step,.leave,.destroyDatabase 0,.destroyCommand 2] = some t ∧
    ∀ use ∈ t.log, use.live = true := by
  have first : Reaches (step .usual) Safe {} _ := Reaches.start.next .openDatabase trivial rfl
  have second := first.next (.prepare 0 (.statement oneRow) none) trivial rfl
  have third := second.next (.execute 2 []) trivial rfl
  have fourth := third.next .step (by rintro loop ⟨⟩; exact nofun) rfl
  have fifth := fourth.next .leave trivial rfl
  have sixth := fifth.next (.destroyDatabase 0) (by rintro loop ⟨⟩) rfl
  have last := sixth.next (.destroyCommand 2) (by rintro loop ⟨⟩) rfl
  exact ⟨_,rfl,uses_live last⟩

end Sl3.Lifetime
