import Sl3.Execution
import Sl3.ParameterCount
import Sl3.Library.Lockstep

/-! What a Command keeps of its past: calls that give their parameters are answered alike by
two Commands of one query, whatever was set, bound or run on each before. -/
namespace Sl3.History
open Library.Machine Library.Lockstep Command DbValues ParameterCount Execution
variable {q : Query} {σ : Type} {p : Platform} {cmd other : Command q} {params : DbValues}

/-- Both are reset, have slots of the same dbtypes, and their statements yield from now on the same
for the same bindings; the values in the slots and what is bound may differ. -/
structure Alike (cmd other : Command q) : Prop where
  counted : Counted cmd
  idle : cmd.stmt.cursor = .ready ∧ other.stmt.cursor = .ready
  isValid : cmd.isValid = other.isValid
  types : cmd.parameters.dbtypes = other.parameters.dbtypes
  yields : ∀ bindings n, q.program bindings (cmd.stmt.started + n) = q.program bindings (other.stmt.started + n)

/-- Nothing that a call without parameters depends on differs either. -/
structure Same (cmd other : Command q) : Prop extends Alike cmd other where
  slots : cmd.parameters = other.parameters

structure Bound (cmd other : Command q) : Prop extends Same cmd other where
  bindings : cmd.stmt.bindings = other.stmt.bindings

theorem assignSlots_alike {slots others : DbValues} (types : slots.dbtypes = others.dbtypes) (values : DbValues) :
    (assignSlots slots values).1 = (assignSlots others values).1 ∧
      (assignSlots slots values).2.dbtypes = (assignSlots others values).2.dbtypes := by
  induction slots generalizing others values with
  | nil =>
    cases others with
    | nil => exact ⟨rfl,rfl⟩
    | cons other others => simp [dbtypes] at types
  | cons d slots ih =>
    cases others with
    | nil => simp [dbtypes] at types
    | cons other others =>
      cases values with
      | nil => exact ⟨rfl,types⟩
      | cons value values =>
        obtain ⟨type,rest⟩ := List.cons.inj types
        obtain ⟨result,left⟩ := ih rest values
        have assigns : d.canAssign value = other.canAssign value := by simp only [DbValue.canAssign,type]
        have refuses : d.cannotAssign value = other.cannotAssign value := by simp only [DbValue.cannotAssign,type]
        by_cases fits : other.canAssign value
        · simp only [assignSlots,assigns,fits,if_true]
          exact ⟨result,congrArg₂ List.cons type left⟩
        · simp only [assignSlots,assigns,fits,refuses,Bool.false_eq_true,if_false]
          exact ⟨trivial,types⟩

theorem assignSlots_values {slots values left : DbValues} {done : Unit} (size : slots.length = values.length)
    (assigned : assignSlots slots values = (.ok done,left)) : left.values = values.values := by
  by_cases fits : Fits slots values
  · rw [assignSlots_ok fits] at assigned
    obtain ⟨_,rfl⟩ := Prod.mk.inj assigned
    exact assignLoop_values size
  · obtain ⟨e,stopped,failed⟩ := assignSlots_error size fits
    rw [failed] at assigned
    cases assigned

theorem Alike.setParameters (alike : Alike cmd other) :
    Agree Alike Same (Command.setParameters params cmd) (Command.setParameters params other) := by
  have sizes : cmd.parameters.length = other.parameters.length := by
    simpa [dbtypes] using congrArg List.length alike.types
  by_cases size : params.length = cmd.parameters.length
  · have assigned := assignSlots_alike alike.types params
    have kept := assignSlots_length cmd.parameters params
    simp only [Command.setParameters,size,sizes,ne_eq,not_true_eq_false,if_false]
    cases first : assignSlots cmd.parameters params with
    | mk result slots =>
      cases second : assignSlots other.parameters params with
      | mk again others =>
        rw [first] at kept
        rw [first,second] at assigned
        obtain ⟨rfl,types⟩ := assigned
        cases result with
        | error e => exact ⟨rfl,kept.trans alike.counted,alike.idle,alike.isValid,types,alike.yields⟩
        | ok done =>
          have given : slots.values = others.values :=
            (assignSlots_values size.symm first).trans (assignSlots_values (sizes ▸ size.symm) second).symm
          exact ⟨rfl,⟨kept.trans alike.counted,alike.idle,alike.isValid,types,alike.yields⟩,
            eq_of_dbtypes_values types given⟩
  · have differ : params.length ≠ other.parameters.length := sizes ▸ size
    simp only [Command.setParameters,size,differ,ne_eq,not_false_eq_true,if_true]
    exact ⟨rfl,alike⟩

theorem Same.bind (same : Same cmd other) : Agree Same Bound (Command.bind p cmd) (Command.bind p other) := by
  have count : 0 + cmd.parameters.length = q.paramCount := (Nat.zero_add _).trans same.counted
  obtain ⟨s,still,started,_,result⟩ := @Stmt.bindLoop_ready q p cmd.stmt 0 cmd.parameters same.idle.1 count
  obtain ⟨t,resting,begun,_,again⟩ :=
    @Stmt.bindLoop_ready q p other.stmt 0 cmd.parameters same.idle.2 count
  have kept : Same {cmd with stmt := s} ⟨other.isValid,t,cmd.parameters⟩ := by
    refine ⟨⟨same.counted,⟨still,resting⟩,same.isValid,rfl,?_⟩,rfl⟩
    rw [started,begun]
    exact same.yields
  simp only [Command.bind,← same.slots]
  cases stored : p.storedAll 0 cmd.parameters.values with
  | none =>
    rw [stored] at result again
    simp only [result,again]
    exact ⟨rfl,kept⟩
  | some cells =>
    rw [stored] at result again
    simp only [result.1,again.1]
    exact ⟨rfl,kept,Subtype.ext (result.2.trans again.2.symm)⟩

theorem Alike.slotless (alike : Alike cmd other) (none : q.paramCount = 0) : Same cmd other := by
  have empty : cmd.parameters = [] := List.length_eq_zero_iff.mp (alike.counted.trans none)
  have types := alike.types
  rw [empty] at types
  have bare : other.parameters = [] := List.map_eq_nil_iff.mp types.symm
  exact ⟨alike,empty.trans bare.symm⟩

/-- Past its parameters a call depends on nothing more of what either Command holds. -/
theorem Alike.setup (alike : Alike cmd other) (given : params ≠ [] ∨ q.paramCount = 0) :
    Agree Alike Bound (Command.setup p params cmd) (Command.setup p params other) := by
  have parts (cmd : Command q) (valid : cmd.isValid = true) : Command.setup p params cmd =
      ((if params.length > 0 then Command.setParameters params else pure ()) >>= fun _ => Command.bind p) cmd := by
    rw [setup_eq,if_pos valid]
    split_ifs
    · cases taken : Command.setParameters params cmd with
      | ok done next => rw [bind_ok taken]
      | error e left => rw [bind_error taken]
    · rfl
  cases valid : cmd.isValid with
  | false =>
    rw [setup_invalid valid,setup_invalid (alike.isValid ▸ valid)]
    exact ⟨rfl,alike⟩
  | true =>
    rw [parts cmd valid,parts other (alike.isValid ▸ valid)]
    have bound (done : Unit) (s t : Command q) (same : Same s t) :
        Agree Alike Bound (Command.bind p s) (Command.bind p t) :=
      same.bind.mono (fun _ _ kept => kept.toAlike) fun _ _ bound => bound
    refine Agree.bind ?_ bound
    split_ifs with some
    · exact alike.setParameters
    · have none : params = [] := by simpa using some
      exact ⟨rfl,alike.slotless (given.resolve_left (not_not.mpr none))⟩

/-- What the call leaves of the user's side is the same. -/
def Beside (related : Command q → Command q → Prop) (x y : Command q × σ) : Prop := related x.1 y.1 ∧ x.2 = y.2

theorem Bound.ran (bound : Bound cmd other) : Same cmd.ran other.ran := by
  refine ⟨⟨bound.counted,bound.idle,bound.isValid,bound.types,?_⟩,bound.slots⟩
  intro bindings n
  simpa only [Command.ran,Nat.add_assoc] using bound.yields bindings (1 + n)

theorem Bound.nextRun (bound : Bound cmd other) : cmd.stmt.nextRun = other.stmt.nextRun := by
  have yields := bound.yields cmd.stmt.bindings 0
  simpa only [Stmt.nextRun,Nat.add_zero,← bound.bindings] using yields

theorem Alike.execute (alike : Alike cmd other) (given : params ≠ [] ∨ q.paramCount = 0)
    (callback : Callback σ) (c : σ) : Agree (Beside Alike) (Beside Same) (Command.execute p callback params (cmd,c))
      (Command.execute p callback params (other,c)) := by
  rcases (@Alike.setup q p cmd other params alike given).split with
    ⟨done,ready,again,one,two,bound⟩ | ⟨e,left,right,one,two,kept⟩
  · rw [execute_of_setup c one bound.idle.1,execute_of_setup c two bound.idle.2,← bound.nextRun]
    cases deliverRun callback ready.stmt.nextRun c with
    | ok done d => exact ⟨rfl,bound.ran,rfl⟩
    | error e d => exact ⟨rfl,bound.ran.toAlike,rfl⟩
  · rw [execute_of_rejected c one,execute_of_rejected c two]
    exact ⟨rfl,kept,rfl⟩

theorem Alike.executeRows (alike : Alike cmd other) (given : params ≠ [] ∨ q.paramCount = 0)
    (cb : RowCallback σ) (c : σ) : Agree (Beside Alike) (Beside Same) (Command.executeRows p cb params (cmd,c))
      (Command.executeRows p cb params (other,c)) := by
  cases start : cb.onStart c with
  | error e d =>
    rw [executeRows_unstarted start,executeRows_unstarted start]
    exact ⟨rfl,alike,rfl⟩
  | ok done d =>
    rcases (@Alike.execute q σ p cmd other params alike given cb.onRow d).split with
      ⟨finished,⟨after,d'⟩,⟨later,_⟩,one,two,same,rfl⟩ | ⟨e,⟨after,d'⟩,⟨later,_⟩,one,two,kept,rfl⟩
    · rw [executeRows_done start one,executeRows_done start two]
      cases cb.onEnd d' with
      | ok finished c' => exact ⟨rfl,same,rfl⟩
      | error e c' => exact ⟨rfl,same.toAlike,rfl⟩
    · rw [executeRows_thrown start one,executeRows_thrown start two]
      exact ⟨rfl,kept,rfl⟩

theorem Alike.select (alike : Alike cmd other) (given : params ≠ [] ∨ q.paramCount = 0) (types : List ValueType) :
    Agree Alike Same (Command.select p params types cmd) (Command.select p params types other) := by
  rcases (@Alike.execute q Dataset p cmd other params alike given fillds (Dataset.ofTypes types)).split with
    ⟨done,⟨after,ds⟩,⟨later,_⟩,one,two,same,rfl⟩ | ⟨e,⟨after,ds⟩,⟨later,_⟩,one,two,kept,rfl⟩
  · simp only [Command.select,one,two]
    exact ⟨rfl,same⟩
  · simp only [Command.select,one,two]
    exact ⟨rfl,kept⟩

def returnedBy {τ α : Type} : EStateM.Result Thrown τ α → Option α
  | .ok a _ => some a
  | .error _ _ => none

def given : Call σ → DbValues
  | .execute _ parameters => parameters
  | .executeRows _ parameters => parameters
  | .select parameters _ => parameters

def dataset (p : Platform) (cmd : Command q) : Call σ → Option Dataset
  | .select parameters types => returnedBy (Command.select p parameters types cmd)
  | _ => none

/-- What the user of a Command gets to see of a call: the slots once it has returned. -/
structure Seen (σ : Type) where
  events : List Event
  outcome : Option Thrown
  user : σ
  dataset : Option Dataset
  slots : Option DbValues

def seen (p : Platform) (r : Report q σ) : Seen σ where
  events := r.events
  outcome := r.outcome
  user := r.user
  dataset := dataset p r.before r.call
  slots := if r.outcome = none then some r.after.parameters else none

section result
variable {τ α : Type} {thrown returned : τ → τ → Prop} {left right : EStateM.Result Thrown τ α}

theorem agree_thrown (agree : Agree thrown returned left right) : thrownBy left = thrownBy right := by
  rcases agree.split with ⟨a,s,t,rfl,rfl,_⟩ | ⟨e,s,t,rfl,rfl,_⟩ <;> rfl

theorem agree_returned (agree : Agree thrown returned left right) : returnedBy left = returnedBy right := by
  rcases agree.split with ⟨a,s,t,rfl,rfl,_⟩ | ⟨e,s,t,rfl,rfl,_⟩ <;> rfl

theorem agree_left (agree : Agree thrown returned left right) (either : ∀ s t, returned s t → thrown s t) :
    thrown (leftBy left) (leftBy right) := by
  rcases agree.split with ⟨a,s,t,rfl,rfl,related⟩ | ⟨e,s,t,rfl,rfl,related⟩
  · exact either s t related
  · exact related

theorem agree_slots {slots : τ → DbValues} (agree : Agree thrown returned left right)
    (same : ∀ s t, returned s t → slots s = slots t) :
    (if thrownBy left = none then some (slots (leftBy left)) else none) =
      if thrownBy right = none then some (slots (leftBy right)) else none := by
  rcases agree.split with ⟨a,s,t,rfl,rfl,related⟩ | ⟨e,s,t,rfl,rfl,_⟩
  · simp only [thrownBy,leftBy,same s t related]
  · rfl

end result

theorem Beside.weaken (s t : Command q × σ) (same : Beside Same s t) : Beside Alike s t := ⟨same.1.toAlike,same.2⟩

theorem seen_eq {r again : Report q σ} (events : r.events = again.events) (outcome : r.outcome = again.outcome)
    (user : r.user = again.user) (filled : dataset p r.before r.call = dataset p again.before again.call)
    (slots : (if r.outcome = none then some r.after.parameters else none) =
      if again.outcome = none then some again.after.parameters else none) : seen p r = seen p again := by
  simp only [seen,Seen.mk.injEq]
  exact ⟨events,outcome,user,filled,slots⟩

section report
variable {call : Call σ} {left right : EStateM.Result Thrown (Command q × σ) Unit}
  {watchedLeft watchedRight : EStateM.Result Thrown (Command q × (σ × List Event)) Unit}

theorem report_alike (plain : Agree (Beside Alike) (Beside Same) left right)
    (watched : Agree (Beside Alike) (Beside Same) watchedLeft watchedRight)
    (filled : dataset p cmd call = dataset p other call) :
    seen p ⟨call,cmd,(leftBy watchedLeft).2.2,thrownBy left,(leftBy left).1,(leftBy left).2⟩ =
        seen p ⟨call,other,(leftBy watchedRight).2.2,thrownBy right,(leftBy right).1,(leftBy right).2⟩ ∧
      (leftBy left).2 = (leftBy right).2 ∧ Alike (leftBy left).1 (leftBy right).1 := by
  obtain ⟨alike,user⟩ := agree_left plain Beside.weaken
  have record := congrArg Prod.snd (agree_left watched Beside.weaken).2
  have slots := agree_slots plain fun s t same => same.1.slots
  exact ⟨seen_eq record (agree_thrown plain) user filled slots,user,alike⟩

end report

/-- One call shows the same of both, and leaves them alike. -/
theorem Alike.perform (alike : Alike cmd other) {call : Call σ} (gives : given call ≠ [] ∨ q.paramCount = 0) (c : σ) :
    seen p (perform p call cmd c) = seen p (perform p call other c) ∧
      (perform p call cmd c).user = (perform p call other c).user ∧
      Alike (perform p call cmd c).after (perform p call other c).after := by
  cases call with
  | execute callback params =>
    have plain := @Alike.execute q σ p cmd other params alike gives callback c
    have watched := @Alike.execute q _ p cmd other params alike gives (watch callback) (c,[])
    exact report_alike plain watched rfl
  | executeRows cb params =>
    have plain := @Alike.executeRows q σ p cmd other params alike gives cb c
    have watched := @Alike.executeRows q _ p cmd other params alike gives (watchRows cb) (c,[])
    exact report_alike plain watched rfl
  | select params types =>
    have plain := @Alike.select q p cmd other params alike gives types
    have watched := @Alike.execute q _ p cmd other params alike gives (watch fillds) (Dataset.ofTypes types,[])
    have left := agree_left plain fun _ _ same => same.toAlike
    have record := congrArg Prod.snd (agree_left watched Beside.weaken).2
    have slots := agree_slots plain fun s t same => same.slots
    exact ⟨seen_eq record (agree_thrown plain) rfl (agree_returned plain) slots,rfl,left⟩

theorem Alike.history (alike : Alike cmd other) {calls : List (Call σ)}
    (give : ∀ call ∈ calls, given call ≠ [] ∨ q.paramCount = 0) (c : σ) :
    (history p calls cmd c).map (seen p) = (history p calls other c).map (seen p) := by
  induction calls generalizing cmd other c with
  | nil => rfl
  | cons call calls ih =>
    obtain ⟨first,later⟩ := List.forall_mem_cons.mp give
    obtain ⟨same,user,kept⟩ := @Alike.perform q σ p cmd other alike call first c
    simp only [Execution.history,List.map_cons,same,← user]
    rw [ih kept later]

/-- What calls with parameters do to a Command, after any run that kept its slots counted, is what they do
to any other Command of its query with slots of the same dbtypes: nothing else of the run is left. -/
theorem past_forgotten {start : Command q} (made : Constructed start) (run : Reaches step Sized start cmd)
    (idle : cmd.stmt.cursor = .ready ∧ other.stmt.cursor = .ready) (isValid : cmd.isValid = other.isValid)
    (types : cmd.parameters.dbtypes = other.parameters.dbtypes)
    (yields : ∀ bindings n, q.program bindings (cmd.stmt.started + n) = q.program bindings (other.stmt.started + n))
    {calls : List (Call σ)} (give : ∀ call ∈ calls, given call ≠ [] ∨ q.paramCount = 0) (c : σ) :
    (history p calls cmd c).map (seen p) = (history p calls other c).map (seen p) := by
  have counted : Counted cmd := run.invariant (constructed_counted made) step_counted
  have alike : Alike cmd other := ⟨counted,idle,isValid,types,yields⟩
  exact alike.history give c

def used : Command oneParameter :=
  after (after (after (ofQuery oneParameter) (.execute .usual [⟨.int,.int 1⟩])) .stepStatement) .resetStatement

theorem used_reached : Reaches step Sized (ofQuery oneParameter) used :=
  ((Reaches.start.next (.execute .usual [⟨.int,.int 1⟩]) trivial rfl).next .stepStatement trivial rfl).next
    .resetStatement trivial rfl

def twoCalls : List (Call Unit) := [.select [⟨.int,.int 7⟩] [.text],.select [⟨.variant,.int 8⟩] []]

theorem past_forgotten_used : used.stmt.bindings.val = [.integer 1] ∧
    (history .usual twoCalls used ()).map (seen .usual) =
      (history .usual twoCalls (ofQuery oneParameter) ()).map (seen .usual) := by
  have give : ∀ call ∈ twoCalls, given call ≠ [] ∨ oneParameter.paramCount = 0 := by
    intro call member
    rcases List.mem_cons.mp member with rfl | later
    · exact .inl (List.cons_ne_nil _ _)
    · rcases List.mem_singleton.mp later with rfl
      exact .inl (List.cons_ne_nil _ _)
  exact ⟨rfl,@past_forgotten oneParameter Unit .usual used (ofQuery oneParameter) _ .ofQuery used_reached
    ⟨rfl,rfl⟩ rfl rfl (fun _ _ => rfl) _ give ()⟩

end Sl3.History
