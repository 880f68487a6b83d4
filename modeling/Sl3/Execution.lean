import Sl3.Command

/-! Histories of calls on one Command. A watched callback answers like the callback it
watches and keeps a record of the rows it was called with; the records of all calls
are compared with the runs of the statement. -/
namespace Sl3.Execution
open Command
variable {q : Query} {σ : Type}

inductive Answer where
  | next | stop
  | threw (e : Thrown)
deriving DecidableEq

inductive Event where
  | onStart (threw : Option Thrown)
  | row (columns : Columns) (answer : Answer)
  | onEnd (threw : Option Thrown)

abbrev Visits := List (Columns × Answer)

def rowEvents (visits : Visits) : List Event := visits.map fun visit => .row visit.1 visit.2

def watch (callback : Callback σ) : Callback (σ × List Event) := fun columns (c,log) =>
  match callback columns c with
  | .ok true d => .ok true (d,log ++ [.row columns .next])
  | .ok false d => .ok false (d,log ++ [.row columns .stop])
  | .error e d => .error e (d,log ++ [.row columns (.threw e)])

def watchOnce (event : Option Thrown → Event) (method : EStateM Thrown σ Unit) :
    EStateM Thrown (σ × List Event) Unit := fun (c,log) =>
  match method c with
  | .ok _ d => .ok () (d,log ++ [event none])
  | .error e d => .error e (d,log ++ [event (some e)])

def watchRows (cb : RowCallback σ) : RowCallback (σ × List Event) where
  onStart := watchOnce .onStart cb.onStart
  onRow := watch cb.onRow
  onEnd := watchOnce .onEnd cb.onEnd

def thrownBy {α : Type} : EStateM.Result Thrown σ α → Option Thrown
  | .ok _ _ => none
  | .error e _ => some e

def ending (run : Run q.names.length) : Option Thrown :=
  if run.rc = sqliteOk ∨ run.rc = sqliteDone then none
  else some (.sl3 (sqlite3Error run.rc run.errmsg))

/-- The visits are the first rows of the run in order; all answers but the last ask for
more; the last answer, or the end of the run, decides how the call ends. -/
structure Exact (run : Run q.names.length) (visits : Visits) (outcome : Option Thrown) : Prop where
  inOrder : visits.map Prod.fst <+: run.rows.map q.columns
  goesOn : ∀ visit ∈ visits.dropLast, visit.2 = .next
  ends : match visits.getLast?.map Prod.snd with
    | some .stop => outcome = none
    | some (.threw e) => outcome = some e
    | _ => visits.map Prod.fst = run.rows.map q.columns ∧ outcome = ending run

theorem thrownBy_withState {τ α : Type} (wrap : σ → τ) (result : EStateM.Result Thrown σ α) :
    thrownBy (withState wrap result) = thrownBy result := by
  cases result <;> rfl

section watch
variable {callback : Callback σ} {columns : Columns} {c d : σ} (log : List Event)

theorem watch_next (answer : callback columns c = .ok true d) :
    watch callback columns (c,log) = .ok true (d,log ++ [.row columns .next]) := by
  simp [watch,answer]

theorem watch_stop (answer : callback columns c = .ok false d) :
    watch callback columns (c,log) = .ok false (d,log ++ [.row columns .stop]) := by
  simp [watch,answer]

theorem watch_throw {e : Thrown} (answer : callback columns c = .error e d) :
    watch callback columns (c,log) = .error e (d,log ++ [.row columns (.threw e)]) := by
  simp [watch,answer]

end watch

theorem deliver_watch_forget (callback : Callback σ) (rc : Int) (errmsg : String) (rows : List Columns)
    (c : σ) (log : List Event) :
    withState Prod.fst (deliver (watch callback) rc errmsg rows (c,log)) =
      deliver callback rc errmsg rows c := by
  induction rows generalizing c log with
  | nil =>
    simp only [deliver,closing]
    split_ifs <;> rfl
  | cons columns rows ih =>
    cases answer : callback columns c with
    | ok more d =>
      cases more with
      | true => rw [deliver_next (watch_next log answer),deliver_next answer,ih]
      | false =>
        rw [deliver_stop (watch_stop log answer),deliver_stop answer]
        rfl
    | error e d =>
      rw [deliver_throw (watch_throw log answer),deliver_throw answer]
      rfl

theorem Exact.cons {row : Row q.names.length} {rows : List (Row q.names.length)} {rc : Int} {errmsg : String}
    {ended : rc ≠ sqliteRow} {visits : Visits} {outcome : Option Thrown}
    (rest : Exact ⟨rows,rc,errmsg,ended⟩ visits outcome) :
    Exact ⟨row::rows,rc,errmsg,ended⟩ ((q.columns row,.next)::visits) outcome := by
  refine ⟨by simpa using rest.inOrder,?_,?_⟩
  · cases visits with
    | nil => simp
    | cons visit visits =>
      intro other member
      rw [List.dropLast_cons_cons,List.mem_cons] at member
      rcases member with rfl | inside
      · rfl
      · exact rest.goesOn other inside
  · cases visits with
    | nil => simpa [ending] using rest.ends
    | cons visit visits => simpa [ending] using rest.ends

theorem deliver_watch (callback : Callback σ) (run : Run q.names.length) (c : σ) (before : List Event) :
    ∃ visits, (leftBy (deliverRun (watch callback) run (c,before))).2 = before ++ rowEvents visits ∧
      Exact run visits (thrownBy (deliverRun (watch callback) run (c,before))) := by
  obtain ⟨rows,rc,errmsg,ended⟩ := run
  simp only [deliverRun]
  induction rows generalizing c before with
  | nil =>
    refine ⟨[],?_,by simp,by simp,?_⟩
    · simp only [deliver,closing,List.map_nil,rowEvents,List.append_nil]
      split_ifs <;> rfl
    · simp only [deliver,closing,List.map_nil,ending]
      split_ifs <;> simp [thrownBy]
  | cons row rows ih =>
    simp only [List.map_cons]
    cases answer : callback (q.columns row) c with
    | ok more d =>
      cases more with
      | true =>
        obtain ⟨visits,record,exact⟩ := ih d (before ++ [.row (q.columns row) .next])
        rw [deliver_next (watch_next before answer)]
        exact ⟨(q.columns row,.next)::visits,by simpa [rowEvents] using record,exact.cons⟩
      | false =>
        rw [deliver_stop (watch_stop before answer)]
        exact ⟨[(q.columns row,.stop)],rfl,by simp,by simp,by simp [thrownBy]⟩
    | error e d =>
      rw [deliver_throw (watch_throw before answer)]
      exact ⟨[(q.columns row,.threw e)],rfl,by simp,by simp,by simp [thrownBy]⟩

inductive Call (σ : Type) where
  | execute (callback : Callback σ) (parameters : DbValues)
  | executeRows (cb : RowCallback σ) (parameters : DbValues)
  | select (parameters : DbValues) (types : List ValueType)

structure Report (q : Query) (σ : Type) where
  call : Call σ
  before : Command q
  events : List Event
  outcome : Option Thrown
  after : Command q
  user : σ

def perform (p : Platform) (call : Call σ) (cmd : Command q) (c : σ) : Report q σ :=
  match call with
  | .execute callback parameters =>
    let result := execute p callback parameters (cmd,c)
    let watched := execute p (watch callback) parameters (cmd,(c,[]))
    ⟨call,cmd,(leftBy watched).2.2,thrownBy result,(leftBy result).1,(leftBy result).2⟩
  | .executeRows cb parameters =>
    let result := executeRows p cb parameters (cmd,c)
    let watched := executeRows p (watchRows cb) parameters (cmd,(c,[]))
    ⟨call,cmd,(leftBy watched).2.2,thrownBy result,(leftBy result).1,(leftBy result).2⟩
  | .select parameters types =>
    let result := select p parameters types cmd
    let watched := execute p (watch fillds) parameters (cmd,(Dataset.ofTypes types,[]))
    ⟨call,cmd,(leftBy watched).2.2,thrownBy result,leftBy result,c⟩

/-- Calls on one Command, one after the other, whatever they end with. -/
def history (p : Platform) : List (Call σ) → Command q → σ → List (Report q σ)
  | [],_,_ => []
  | call::calls,cmd,c => perform p call cmd c::history p calls (perform p call cmd c).after (perform p call cmd c).user

/-- Accepted parameters begin the run that comes after those begun before; rejected ones
begin none. Both leave the statement reset. -/
structure Fresh (p : Platform) (params : DbValues) (before : Command q) (visits : Visits)
    (outcome : Option Thrown) (after : Command q) : Prop where
  reset : after.stmt.cursor = .ready
  begins : match setup p params before with
    | .ok _ ready => Exact (q.program ready.stmt.bindings before.stmt.started) visits outcome ∧
        after.stmt.started = before.stmt.started + 1
    | .error e _ => visits = [] ∧ outcome = some (.sl3 e) ∧ after.stmt.started = before.stmt.started

section setup
variable {p : Platform} {params : DbValues} {cmd : Command q}

theorem bind_ok_iff (idle : cmd.stmt.cursor = .ready) (slots : cmd.parameters.length = q.paramCount) :
    (∃ ready, Command.bind p cmd = .ok () ready) ↔ ∀ v ∈ cmd.parameters.values, ¬ p.TooBig v := by
  have counted : 0 + cmd.parameters.length = q.paramCount := by rw [Nat.zero_add,slots]
  obtain ⟨t,_,_,_,result⟩ := @Stmt.bindLoop_ready q p cmd.stmt 0 cmd.parameters idle counted
  have none := @Platform.storedAll_none p 0 cmd.parameters.values
  cases stored : p.storedAll 0 cmd.parameters.values with
  | none =>
    rw [stored] at result
    obtain ⟨v,member,big⟩ := none.mp stored
    refine iff_of_false ?_ fun small => small v member big
    rintro ⟨ready,bound⟩
    simp only [Command.bind,result] at bound
    cases bound
  | some cells =>
    rw [stored] at result
    refine iff_of_true ⟨{cmd with stmt := t},by simp only [Command.bind,result.1]⟩ fun v member big => ?_
    rw [none.mpr ⟨v,member,big⟩] at stored
    cases stored

/-- The parameters of a call, or without any the values that the Command holds, are accepted exactly if the connection
is open, they fit the slots and none is too big. -/
theorem setup_ok_iff (idle : cmd.stmt.cursor = .ready) (slots : cmd.parameters.length = q.paramCount) :
    (∃ ready, setup p params cmd = .ok () ready) ↔
      cmd.isValid = true ∧ (params = [] ∨ DbValues.Fits cmd.parameters params) ∧
      ∀ v ∈ (if params = [] then cmd.parameters else params).values, ¬ p.TooBig v := by
  cases valid : cmd.isValid with
  | false => simp [setup_invalid valid]
  | true =>
    by_cases none : params = []
    · have own : setup p params cmd = Command.bind p cmd := by simp [setup_eq,valid,none]
      rw [own,bind_ok_iff idle slots]
      simp [none]
    · by_cases fits : DbValues.Fits cmd.parameters params
      · have assigned := @DbValues.assignLoop_values cmd.parameters params fits.length
        have size := congrArg List.length (DbValues.assignLoop_dbtypes cmd.parameters params)
        simp only [DbValues.dbtypes,List.length_map] at size
        have filled := @bind_ok_iff q p {cmd with parameters := DbValues.assignLoop cmd.parameters params} idle (size.trans slots)
        rw [setup_fits valid fits,filled,assigned]
        simp [none,fits]
      · obtain ⟨e,left,refused,_⟩ := setParameters_misfit fits
        have given : params.length > 0 := List.length_pos_iff.mpr none
        simp [setup_eq,valid,given,refused,none,fits]

end setup

/-- What the report of a call has to look like. A RowCallback sees `onStart`, then, unless
that threw, the rows, then, unless anything threw, `onEnd`. -/
def Report.Faithful (p : Platform) (r : Report q σ) : Prop :=
  match r.call with
  | .execute _ params =>
    ∃ visits, r.events = rowEvents visits ∧ Fresh p params r.before visits r.outcome r.after
  | .select params _ =>
    ∃ visits, r.events = rowEvents visits ∧ Fresh p params r.before visits r.outcome r.after
  | .executeRows _ params =>
    (∃ e, r.events = [.onStart (some e)] ∧ r.outcome = some e ∧ r.after = r.before) ∨
      ∃ visits inner, Fresh p params r.before visits inner r.after ∧
        match inner with
        | some e => r.events = .onStart none::rowEvents visits ∧ r.outcome = some e
        | none => ∃ threw, r.events = .onStart none::rowEvents visits ++ [.onEnd threw] ∧ r.outcome = threw

def unwatched : Command q × (σ × List Event) → Command q × σ := fun (cmd,c,_) => (cmd,c)

section one
variable {p : Platform} {params : DbValues} {cmd : Command q}

theorem setup_started {ready : Command q} (idle : cmd.stmt.cursor = .ready)
    (accepted : setup p params cmd = .ok () ready) :
    ready.stmt.cursor = .ready ∧ ready.stmt.started = cmd.stmt.started := by
  have kept := (setup_keeps p params cmd).1
  rw [accepted] at kept
  exact ⟨kept.1.trans idle,kept.2⟩

theorem execute_watch (callback : Callback σ) (c : σ) (log : List Event) (idle : cmd.stmt.cursor = .ready) :
    withState unwatched (execute p (watch callback) params (cmd,(c,log))) =
      execute p callback params (cmd,c) := by
  cases accepted : setup p params cmd with
  | error e left => rw [execute_of_rejected _ accepted,execute_of_rejected _ accepted]; rfl
  | ok done ready =>
    have still := (setup_started idle accepted).1
    rw [execute_of_setup _ accepted still,execute_of_setup _ accepted still,deliverRun,deliverRun,
      ← deliver_watch_forget callback _ _ _ c log]
    cases deliver (watch callback) _ _ _ (c,log) <;> rfl

theorem execute_fresh (callback : Callback σ) (c : σ) (log : List Event) (idle : cmd.stmt.cursor = .ready) :
    ∃ visits, (leftBy (execute p (watch callback) params (cmd,(c,log)))).2.2 = log ++ rowEvents visits ∧
      Fresh p params cmd visits (thrownBy (execute p callback params (cmd,c)))
        (leftBy (execute p callback params (cmd,c))).1 := by
  cases accepted : setup p params cmd with
  | error e left =>
    have kept := (setup_keeps p params cmd).1
    rw [accepted] at kept
    rw [execute_of_rejected _ accepted,execute_of_rejected _ accepted]
    refine ⟨[],by simp [rowEvents,leftBy],kept.1.trans idle,?_⟩
    rw [accepted]
    exact ⟨rfl,rfl,kept.2⟩
  | ok done ready =>
    obtain ⟨still,started⟩ := setup_started idle accepted
    obtain ⟨visits,record,exact⟩ := deliver_watch callback ready.stmt.nextRun c log
    have same : deliverRun callback ready.stmt.nextRun c =
        withState Prod.fst (deliverRun (watch callback) ready.stmt.nextRun (c,log)) :=
      (deliver_watch_forget callback _ _ _ c log).symm
    rw [execute_of_setup _ accepted still,execute_of_setup _ accepted still,leftBy_withState,leftBy_withState,
      thrownBy_withState,same,thrownBy_withState]
    refine ⟨visits,record,still,?_⟩
    rw [accepted]
    refine ⟨?_,congrArg (· + 1) started⟩
    rw [← started]
    exact exact

theorem execute_faithful (callback : Callback σ) (c : σ) (idle : cmd.stmt.cursor = .ready) :
    (perform p (.execute callback params) cmd c).Faithful p :=
  execute_fresh callback c [] idle

theorem select_faithful (types : List ValueType) (c : σ) (idle : cmd.stmt.cursor = .ready) :
    (perform p (.select params types) cmd c).Faithful p := by
  obtain ⟨visits,record,fresh⟩ := @execute_fresh q Dataset p params cmd fillds (Dataset.ofTypes types) [] idle
  refine ⟨visits,record,?_⟩
  simp only [perform,select]
  cases result : execute p fillds params (cmd,Dataset.ofTypes types) with
  | ok done left =>
    rw [result] at fresh
    exact fresh
  | error e left =>
    rw [result] at fresh
    exact fresh

theorem executeRows_faithful (cb : RowCallback σ) (c : σ) (idle : cmd.stmt.cursor = .ready) :
    (perform p (.executeRows cb params) cmd c).Faithful p := by
  cases start : cb.onStart c with
  | error e d =>
    have watched : (watchRows cb).onStart (c,[]) = .error e (d,[.onStart (some e)]) := by
      simp [watchRows,watchOnce,start]
    refine .inl ⟨e,?_,?_,?_⟩
    · simp only [perform,executeRows_unstarted watched,leftBy]
    · simp only [perform,executeRows_unstarted start,thrownBy]
    · simp only [perform,executeRows_unstarted start,leftBy]
  | ok done d =>
    have started : (watchRows cb).onStart (c,[]) = .ok () (d,[.onStart none]) := by
      simp [watchRows,watchOnce,start]
    obtain ⟨visits,record,fresh⟩ := @execute_fresh q σ p params cmd cb.onRow d [.onStart none] idle
    have plain := @execute_watch q σ p params cmd cb.onRow d [.onStart none] idle
    cases watched : execute p (watch cb.onRow) params (cmd,(d,[.onStart none])) with
    | error e left =>
      obtain ⟨after,d',log⟩ := left
      have rows : execute p (watchRows cb).onRow params (cmd,(d,[.onStart none])) = _ := watched
      rw [watched] at plain record
      rw [← plain] at fresh
      refine .inr ⟨visits,some e,?_,?_,?_⟩
      · simp only [perform,executeRows_thrown start plain.symm]
        exact fresh
      · simp only [perform,executeRows_thrown started rows]
        exact record
      · simp only [perform,executeRows_thrown start plain.symm,thrownBy]
    | ok finished left =>
      obtain ⟨after,d',log⟩ := left
      have rows : execute p (watchRows cb).onRow params (cmd,(d,[.onStart none])) = _ := watched
      rw [watched] at plain record
      rw [← plain] at fresh
      refine .inr ⟨visits,none,?_,thrownBy (cb.onEnd d'),?_,?_⟩
      · simp only [perform,executeRows_done start plain.symm,leftBy_withState]
        exact fresh
      · have log' : log = .onStart none::rowEvents visits := record
        have last : (leftBy ((watchRows cb).onEnd (d',log))).2 = log ++ [.onEnd (thrownBy (cb.onEnd d'))] := by
          cases ended : cb.onEnd d' <;> simp [watchRows,watchOnce,ended,leftBy,thrownBy]
        rw [log'] at last
        simp only [perform,executeRows_done started rows,leftBy_withState,log']
        exact last
      · simp only [perform,executeRows_done start plain.symm,thrownBy_withState]

theorem perform_reset (call : Call σ) (c : σ) (idle : cmd.stmt.cursor = .ready) :
    (perform p call cmd c).after.stmt.cursor = .ready := by
  cases call with
  | execute callback params =>
    obtain ⟨_,_,fresh⟩ := @execute_faithful q σ p params cmd callback c idle
    exact fresh.reset
  | executeRows cb params =>
    rcases @executeRows_faithful q σ p params cmd cb c idle with ⟨_,_,_,same⟩ | ⟨_,_,fresh,_⟩
    · rw [same]
      exact idle
    · exact fresh.reset
  | select params types =>
    obtain ⟨_,_,fresh⟩ := @select_faithful q σ p params cmd types c idle
    exact fresh.reset

theorem perform_faithful (call : Call σ) (c : σ) (idle : cmd.stmt.cursor = .ready) :
    (perform p call cmd c).Faithful p := by
  cases call with
  | execute callback params => exact execute_faithful callback c idle
  | executeRows cb params => exact executeRows_faithful cb c idle
  | select params types => exact select_faithful types c idle

end one

/-- In every history of calls that starts with a reset statement, every call is faithful:
its rows are a prefix of a run of its own. -/
theorem history_faithful (p : Platform) (calls : List (Call σ)) {cmd : Command q} (c : σ)
    (idle : cmd.stmt.cursor = .ready) : ∀ r ∈ history p calls cmd c, r.Faithful p := by
  induction calls generalizing cmd c with
  | nil => simp [history]
  | cons call calls ih =>
    intro r member
    rw [history,List.mem_cons] at member
    rcases member with rfl | later
    · exact perform_faithful call c idle
    · exact ih _ (perform_reset call c idle) r later

theorem history_faithful_stopped :
    let cmd : Command (.table ["n"] (by norm_num) [⟨[.integer 1],rfl⟩,⟨[.integer 2],rfl⟩]) := ofQuery _
    ∀ r ∈ history .usual [.execute (fun _ c => .ok false c) [],.select [] [.int]] cmd (), r.Faithful .usual := by
  intro cmd
  exact history_faithful .usual _ () rfl

end Sl3.Execution
