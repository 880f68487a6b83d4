import Sl3.Execution
import Sl3.Library.Machine

/-! Calls of `execute` and `select` from callbacks of the same Command. The calls that
have not returned are a stack of step loops over one statement; between two steps of
the innermost loop runs code of the user, which may call the Command again. -/
namespace Sl3.Reentrancy
open Command Execution Library Machine
variable {q : Query}

/-- One call inside its loop: the run it would see alone, and the rows it has seen. -/
structure Frame (q : Query) where
  expected : Run q.names.length
  delivered : List Columns := []

namespace Frame

def rows (frame : Frame q) : List Columns := frame.expected.rows.map q.columns

end Frame

/-- A call that has returned or thrown: `ended` when its loop was ended by a step. -/
structure Finished (q : Query) where
  frame : Frame q
  ended : Bool

/-- The innermost call comes first; `stepping` when it is about to step, else code of the
user runs. -/
structure State (q : Query) where
  cmd : Command q
  frames : List (Frame q) := []
  stepping : Bool := false
  finished : List (Finished q) := []

/-- What happens next. A callback that does not ask for the next row returns false or throws. -/
inductive Label where
  | call (parameters : DbValues)
  | step
  | next
  | leave

namespace State

def pop (s : State q) (frame : Frame q) (outer : List (Frame q)) (stmt : Stmt q) (ended : Bool) : State q where
  cmd := {s.cmd with stmt := stmt.reset}
  frames := outer
  stepping := false
  finished := s.finished ++ [⟨frame,ended⟩]

end State

def step (p : Platform) (s : State q) : Label → Option (State q)
  | .call parameters =>
    if s.stepping then none
    else
      match setup p parameters s.cmd with
      | .error _ cmd => some {s with cmd}
      | .ok _ cmd => some {s with cmd,frames := {expected := cmd.stmt.nextRun}::s.frames,stepping := true}
  | .step =>
    match s.stepping,s.frames with
    | true,frame::outer =>
      let (rc,stmt) := s.cmd.stmt.step
      if rc = sqliteRow then
        some {s with
          cmd := {s.cmd with stmt}
          frames := {frame with delivered := frame.delivered ++ [stmt.columns]}::outer
          stepping := false}
      else some (s.pop frame outer stmt true)
    | _,_ => none
  | .next =>
    match s.stepping,s.frames with
    | false,_::_ => some {s with stepping := true}
    | _,_ => none
  | .leave =>
    match s.stepping,s.frames with
    | false,frame::outer => some (s.pop frame outer s.cmd.stmt false)
    | _,_ => none

/-- Every call, nested or not, sees rows of its own run in order, each once, and all of
them when a step has ended its loop. -/
structure Undisturbed (s : State q) : Prop where
  running : ∀ frame ∈ s.frames, frame.delivered <+: frame.rows
  done : ∀ call ∈ s.finished, call.frame.delivered <+: call.frame.rows ∧
    (call.ended = true → call.frame.delivered = call.frame.rows)

/-- A call from a callback is made with parameters, or on a Command that has some. -/
def Guarded (s : State q) : Label → Prop
  | .call parameters => s.frames = [] ∨ parameters ≠ [] ∨ s.cmd.parameters ≠ []
  | _ => True

def Running (stmt : Stmt q) (stepping : Bool) (frame : Frame q) : Prop :=
  (stepping = true ∧ stmt.cursor = .ready ∧ frame.delivered = [] ∧ frame.expected = stmt.nextRun) ∨
    ∃ row rest, stmt.cursor = .active row rest ∧
      frame.delivered ++ rest.rows.map q.columns = frame.rows

structure Sound (s : State q) : Prop where
  current : match s.frames with
    | [] => s.stepping = false ∧ s.cmd.stmt.cursor = .ready
    | [frame] => Running s.cmd.stmt s.stepping frame
    | _ => False
  done : ∀ call ∈ s.finished, call.frame.delivered <+: call.frame.rows ∧
    (call.ended = true → call.frame.delivered = call.frame.rows)

theorem Running.prefix {stmt : Stmt q} {stepping : Bool} {frame : Frame q}
    (running : Running stmt stepping frame) : frame.delivered <+: frame.rows := by
  rcases running with ⟨_,_,none,_⟩ | ⟨row,rest,_,split⟩
  · simp [none]
  · exact ⟨_,split⟩

theorem Sound.cases {s : State q} (sound : Sound s) :
    (s.frames = [] ∧ s.stepping = false ∧ s.cmd.stmt.cursor = .ready) ∨
      ∃ frame, s.frames = [frame] ∧ Running s.cmd.stmt s.stepping frame := by
  have current := sound.current
  split at current
  · rename_i none
    exact .inl ⟨none,current⟩
  · rename_i frame one
    exact .inr ⟨frame,one,current⟩
  · exact current.elim

theorem Sound.undisturbed {s : State q} (sound : Sound s) : Undisturbed s := by
  refine ⟨?_,sound.done⟩
  intro frame member
  rcases sound.cases with ⟨none,_⟩ | ⟨only,one,running⟩
  · simp [none] at member
  · rw [one,List.mem_singleton] at member
    exact member ▸ running.prefix

theorem Running.step {stmt : Stmt q} {frame : Frame q} (running : Running stmt true frame) :
    (stmt.step.1 = sqliteRow ∧
        Running stmt.step.2 false {frame with delivered := frame.delivered ++ [stmt.step.2.columns]}) ∨
      (stmt.step.1 ≠ sqliteRow ∧ frame.delivered = frame.rows) := by
  obtain ⟨run,from_,stepped,split⟩ : ∃ run from_, stmt.step = Stmt.advance run from_ ∧
      frame.delivered ++ run.rows.map q.columns = frame.rows := by
    rcases running with ⟨_,ready,none,begins⟩ | ⟨row,rest,active,split⟩
    · exact ⟨_,_,Stmt.step_ready ready,by rw [none,Frame.rows,begins]; rfl⟩
    · exact ⟨_,_,Stmt.step_active active,split⟩
  rw [stepped]
  rcases Stmt.advance_cases run from_ with ⟨row,rest,rows,yields⟩ | ⟨none,ends⟩
  · rw [yields]
    refine .inl ⟨rfl,.inr ⟨row,rest,rfl,?_⟩⟩
    rw [rows] at split
    simpa [Stmt.columns,Frame.rows] using split
  · exact .inr ⟨ends,by simpa [none] using split⟩

section cases
variable {p : Platform} {s t : State q}

theorem step_call {parameters : DbValues} (stepped : step p s (.call parameters) = some t) :
    s.stepping = false ∧
      ((∃ e cmd, setup p parameters s.cmd = .error e cmd ∧ t = {s with cmd}) ∨
        ∃ cmd, setup p parameters s.cmd = .ok () cmd ∧
          t = {s with cmd,frames := {expected := cmd.stmt.nextRun}::s.frames,stepping := true}) := by
  simp only [step] at stepped
  split_ifs at stepped with busy
  refine ⟨by simpa using busy,?_⟩
  cases result : setup p parameters s.cmd with
  | error e cmd => exact .inl ⟨e,cmd,rfl,by simpa [result] using stepped.symm⟩
  | ok done cmd => exact .inr ⟨cmd,rfl,by simpa [result] using stepped.symm⟩

theorem step_step (stepped : step p s .step = some t) :
    ∃ frame outer, s.stepping = true ∧ s.frames = frame::outer ∧
      ((s.cmd.stmt.step.1 = sqliteRow ∧ t = {s with
          cmd := {s.cmd with stmt := s.cmd.stmt.step.2}
          frames := {frame with delivered := frame.delivered ++ [s.cmd.stmt.step.2.columns]}::outer
          stepping := false}) ∨
        (s.cmd.stmt.step.1 ≠ sqliteRow ∧ t = s.pop frame outer s.cmd.stmt.step.2 true)) := by
  simp only [step] at stepped
  split at stepped
  · rename_i frame outer inside innermost
    refine ⟨frame,outer,inside,innermost,?_⟩
    split_ifs at stepped with row
    · exact .inl ⟨row,(Option.some.inj stepped).symm⟩
    · exact .inr ⟨row,(Option.some.inj stepped).symm⟩
  · simp at stepped

theorem step_next (stepped : step p s .next = some t) :
    ∃ frame outer, s.stepping = false ∧ s.frames = frame::outer ∧ t = {s with stepping := true} := by
  simp only [step] at stepped
  split at stepped
  · rename_i frame outer inside innermost
    exact ⟨frame,outer,inside,innermost,(Option.some.inj stepped).symm⟩
  · simp at stepped

theorem step_leave (stepped : step p s .leave = some t) :
    ∃ frame outer, s.stepping = false ∧ s.frames = frame::outer ∧ t = s.pop frame outer s.cmd.stmt false := by
  simp only [step] at stepped
  split at stepped
  · rename_i frame outer inside innermost
    exact ⟨frame,outer,inside,innermost,(Option.some.inj stepped).symm⟩
  · simp at stepped

end cases

section keeps
variable {p : Platform} {s t : State q}

theorem Running.active {stmt : Stmt q} {frame : Frame q} (running : Running stmt false frame) :
    ∃ row rest, stmt.cursor = .active row rest ∧ frame.delivered ++ rest.rows.map q.columns = frame.rows := by
  rcases running with ⟨wrong,_⟩ | active
  · exact absurd wrong (by decide)
  · exact active

theorem Sound.pop {frame : Frame q} (sound : Sound s) (stmt : Stmt q) {ended : Bool}
    (seen : frame.delivered <+: frame.rows) (whole : ended = true → frame.delivered = frame.rows) :
    Sound (s.pop frame [] stmt ended) := by
  refine ⟨⟨rfl,rfl⟩,?_⟩
  intro call member
  rcases List.mem_append.mp member with before | last
  · exact sound.done call before
  · rw [List.mem_singleton] at last
    subst last
    exact ⟨seen,whole⟩

/-- A call from a callback does not get to its loop: the outer one is between two rows. -/
theorem Sound.call {parameters : DbValues} (sound : Sound s) (guarded : Guarded s (.call parameters))
    (stepped : Reentrancy.step p s (.call parameters) = some t) : Sound t := by
  have kept := (setup_keeps p parameters s.cmd).1
  obtain ⟨user,result⟩ := step_call stepped
  rcases sound.cases with ⟨none,_,ready⟩ | ⟨frame,one,running⟩
  · rcases result with ⟨e,cmd,rejected,rfl⟩ | ⟨cmd,accepted,rfl⟩
    · rw [rejected] at kept
      refine ⟨?_,sound.done⟩
      simp only [none]
      exact ⟨user,kept.1.trans ready⟩
    · rw [accepted] at kept
      refine ⟨?_,sound.done⟩
      simp only [none]
      exact .inl ⟨rfl,kept.1.trans ready,rfl,rfl⟩
  · rw [user] at running
    obtain ⟨row,rest,active,split⟩ := running.active
    have busy : s.cmd.stmt.cursor ≠ .ready := by simp [active]
    have given : parameters ≠ [] ∨ s.cmd.parameters ≠ [] := guarded.resolve_left (by simp [one])
    obtain ⟨e,left,refused,still⟩ := @setup_busy q p parameters s.cmd busy given
    rcases result with ⟨_,cmd,rejected,rfl⟩ | ⟨cmd,accepted,_⟩
    · rw [refused] at rejected
      cases rejected
      refine ⟨?_,sound.done⟩
      simp only [one]
      exact .inr ⟨row,rest,still.trans active,split⟩
    · simp [refused] at accepted

theorem Sound.innermost {frame : Frame q} {outer : List (Frame q)} (sound : Sound s) (frames : s.frames = frame::outer) :
    outer = [] ∧ Running s.cmd.stmt s.stepping frame := by
  rcases sound.cases with ⟨none,_⟩ | ⟨only,one,running⟩
  · simp [none] at frames
  · rw [one] at frames
    cases frames
    exact ⟨rfl,running⟩

theorem Sound.stepLoop (sound : Sound s) (stepped : Reentrancy.step p s .step = some t) : Sound t := by
  obtain ⟨frame,outer,loop,frames,result⟩ := step_step stepped
  obtain ⟨rfl,running⟩ := sound.innermost frames
  rw [loop] at running
  rcases running.step with ⟨row,goes⟩ | ⟨ends,whole⟩
  · rcases result with ⟨_,rfl⟩ | ⟨other,_⟩
    · exact ⟨goes,sound.done⟩
    · exact absurd row other
  · rcases result with ⟨other,_⟩ | ⟨_,rfl⟩
    · exact absurd other ends
    · exact sound.pop _ running.prefix fun _ => whole

theorem Sound.step {label : Label} (sound : Sound s) (guarded : Guarded s label)
    (stepped : Reentrancy.step p s label = some t) : Sound t := by
  cases label with
  | call parameters => exact sound.call guarded stepped
  | step => exact sound.stepLoop stepped
  | next =>
    obtain ⟨frame,outer,user,frames,rfl⟩ := step_next stepped
    obtain ⟨rfl,running⟩ := sound.innermost frames
    rw [user] at running
    refine ⟨?_,sound.done⟩
    simp only [frames]
    exact .inr running.active
  | leave =>
    obtain ⟨frame,outer,user,frames,rfl⟩ := step_leave stepped
    obtain ⟨rfl,running⟩ := sound.innermost frames
    exact sound.pop _ running.prefix (by simp)

end keeps

section execute
variable {σ : Type} {p : Platform}

theorem step_ends {cmd : Command q} {frame : Frame q} (ends : cmd.stmt.step.1 ≠ sqliteRow) :
    step p {cmd,frames := [frame],stepping := true} .step =
      some {cmd := {cmd with stmt := cmd.stmt.step.2.reset},finished := [⟨frame,true⟩]} := by
  simp [step,ends,State.pop]

theorem step_yields {cmd : Command q} {frame : Frame q} {here : Stmt q} (yields : cmd.stmt.step = (sqliteRow,here)) :
    step p {cmd,frames := [frame],stepping := true} .step =
      some {cmd := {cmd with stmt := here},
            frames := [{frame with delivered := frame.delivered ++ [here.columns]}]} := by
  simp [step,yields]

theorem loop_reached (callback : Callback σ) (run : Run q.names.length) {cmd : Command q} {u : Stmt q}
    (frame : Frame q) (c : σ) (log : List Event) (stepped : cmd.stmt.step = Stmt.advance run u) :
    ∃ visits ended, (leftBy (deliverRun (watch callback) run (c,log))).2 = log ++ rowEvents visits ∧
      Reaches (step p) Guarded {cmd,frames := [frame],stepping := true}
        {cmd := {cmd with stmt := u.reset},
         finished := [⟨{frame with delivered := frame.delivered ++ visits.map Prod.fst},ended⟩]} := by
  obtain ⟨rows,rc,errmsg,ended⟩ := run
  induction rows generalizing cmd u frame c log with
  | nil =>
    have ends : cmd.stmt.step.1 ≠ sqliteRow := by rw [stepped]; exact ended
    have last := @step_ends q p cmd frame ends
    refine ⟨[],true,?_,?_⟩
    · simp only [deliverRun,deliver,closing,List.map_nil,rowEvents,List.append_nil]
      split_ifs <;> rfl
    · simp only [List.map_nil,List.append_nil]
      have left : cmd.stmt.step.2.reset = u.reset := by rw [stepped]; rfl
      rw [left] at last
      exact Reaches.start.next .step trivial last
  | cons row rows ih =>
    let here : Stmt q := {u with cursor := .active row ⟨rows,rc,errmsg,ended⟩}
    have yields : cmd.stmt.step = (sqliteRow,here) := stepped
    have first : Reaches (step p) Guarded {cmd,frames := [frame],stepping := true} _ :=
      Reaches.start.next .step trivial (step_yields yields)
    have current : here.columns = q.columns row := rfl
    rw [current] at first
    simp only [deliverRun,List.map_cons]
    cases answer : callback (q.columns row) c with
    | ok more d =>
      cases more with
      | true =>
        rw [deliver_next (watch_next log answer)]
        obtain ⟨visits,how,record,rest⟩ := @ih {cmd with stmt := here} here
          {frame with delivered := frame.delivered ++ [q.columns row]} d
          (log ++ [.row (q.columns row) .next]) rfl
        refine ⟨(q.columns row,.next)::visits,how,by simpa [rowEvents,deliverRun] using record,?_⟩
        have again := (first.next .next trivial rfl).trans rest
        have same : here.reset = u.reset := rfl
        simpa [same] using again
      | false =>
        rw [deliver_stop (watch_stop log answer)]
        exact ⟨[(q.columns row,.stop)],false,rfl,first.next .leave trivial rfl⟩
    | error e d =>
      rw [deliver_throw (watch_throw log answer)]
      exact ⟨[(q.columns row,.threw e)],false,rfl,first.next .leave trivial rfl⟩

/-- Every execution is a run of the machine: it leaves the same Command, and its call has
seen the rows that the callback was called with. -/
theorem execute_reached (callback : Callback σ) {params : DbValues} {cmd ready : Command q} (c : σ)
    (idle : cmd.stmt.cursor = .ready) (accepted : setup p params cmd = .ok () ready) :
    ∃ visits ended, (leftBy (execute p (watch callback) params (cmd,(c,[])))).2.2 = rowEvents visits ∧
      Reaches (step p) Guarded {cmd}
        {cmd := (leftBy (execute p callback params (cmd,c))).1,
         finished := [⟨{expected := ready.stmt.nextRun,delivered := visits.map Prod.fst},ended⟩]} := by
  have still := (setup_started idle accepted).1
  obtain ⟨visits,ended,record,rest⟩ := @loop_reached q σ p callback ready.stmt.nextRun ready _
    {expected := ready.stmt.nextRun} c [] (Stmt.step_ready still)
  have begun : step p {cmd} (.call params) =
      some {cmd := ready,frames := [{expected := ready.stmt.nextRun}],stepping := true} := by
    simp [step,accepted]
  refine ⟨visits,ended,?_,?_⟩
  · rw [execute_of_setup _ accepted still,leftBy_withState]
    exact record
  · rw [execute_of_setup _ accepted still,leftBy_withState]
    rw [reset_ran still,List.nil_append] at rest
    exact (Reaches.start.next (.call params) (.inl rfl) begun).trans rest

end execute

/-- When calls from callbacks are made with parameters, or on a Command that has some,
every call sees its own run only. -/
theorem runs_undisturbed {p : Platform} {cmd : Command q} {t : State q} (idle : cmd.stmt.cursor = .ready)
    (run : Reaches (step p) Guarded {cmd} t) : Undisturbed t := by
  have start : Sound ({cmd} : State q) := ⟨⟨rfl,idle⟩,by simp⟩
  exact (run.invariant start fun sound guarded stepped => sound.step guarded stepped).undisturbed

def twoRows : Query := .table ["n"] (by norm_num) [⟨[.integer 1],rfl⟩,⟨[.integer 2],rfl⟩]

theorem runs_undisturbed_rejected :
    ∃ t, Reaches (step .usual) Guarded {cmd := ofQuery twoRows} t ∧ Undisturbed t ∧
      t.frames.map Frame.delivered = [[⟨["n"],[.integer 1],rfl⟩,⟨["n"],[.integer 2],rfl⟩]] := by
  have zero : Reaches (step .usual) Guarded ({cmd := ofQuery twoRows} : State twoRows) _ := .start
  have one := zero.next (.call []) (.inl rfl) rfl
  have two := (one.next .step trivial rfl).next (.call [⟨.int,.int 1⟩]) (.inr (.inl (by simp))) rfl
  have three := (two.next .next trivial rfl).next .step trivial rfl
  exact ⟨_,three,runs_undisturbed rfl three,rfl⟩

theorem nested_call_disturbs :
    ∃ t, Reaches (step .usual) (fun _ _ => True) {cmd := ofQuery twoRows} t ∧ ¬ Undisturbed t ∧
      t.finished.map (fun call => (call.frame.delivered,call.ended)) =
        [([⟨["n"],[.integer 2],rfl⟩],true)] ∧
      t.frames.map Frame.delivered = [[⟨["n"],[.integer 1],rfl⟩,⟨["n"],[.integer 1],rfl⟩]] := by
  have ran : runAll (step .usual) {cmd := ofQuery twoRows}
      [.call [],.step,.call [],.step,.next,.step,.next,.step] = some _ := rfl
  refine ⟨_,runAll_reaches ran,?_,rfl,rfl⟩
  intro undisturbed
  have whole := (undisturbed.done _ (by exact List.mem_singleton.mpr rfl)).2 rfl
  exact absurd (congrArg List.length whole) (by decide)

end Sl3.Reentrancy
