import Sl3.ValueSpecs
import Sl3.Library.Machine

/-! Runs of all operations of `sl3::Value` over any number of objects, and the runs of
the plain sum type that they refine. -/
namespace Sl3.ValueObjects
open Library

/-- What a call gives back: the text or blob of an eject, or its error. -/
abbrev Outcome := Option (Except Error Bytes)

inductive Operation where
  | default (a : Nat)
  | int (a : Nat) (val : Int32)
  | int64 (a : Nat) (val : Int64)
  | real (a : Nat) (val : Double)
  | text (a : Nat) (val : Bytes)
  | chars (a : Nat) (val : Bytes)
  | blob (a : Nat) (val : Bytes)
  | copy (a b : Nat)
  | move (a b : Nat)
  | copyAssign (a b : Nat)
  | moveAssign (a b : Nat)
  | assignInt (a : Nat) (val : Int32)
  | assignInt64 (a : Nat) (val : Operand Int64)
  | assignReal (a : Nat) (val : Operand Double)
  | assignText (a : Nat) (val : Operand Bytes)
  | assignBlob (a : Nat) (val : Operand Bytes)
  | ejectText (a : Nat)
  | ejectBlob (a : Nat)
  | setNull (a : Nat)
  | swap (a b : Nat)
  | destroy (a : Nat)

namespace Operation

def call (x : Access Unit) : Access Outcome := do
  x
  pure none

def run (movedFrom : Bytes → Bytes) : Operation → Access Outcome
  | default a => call (ofNull (.object a))
  | int a val => call (ofInt (.object a) val)
  | int64 a val => call (ofInt64 (.object a) val)
  | real a val => call (ofReal (.object a) val)
  | text a val => call (ofText (.object a) val)
  | chars a val => call (ofChars (.object a) val)
  | blob a val => call (ofBlob (.object a) val)
  | copy a b => call (copyConstruct (.object a) (.object b))
  | move a b => call (moveConstruct (.object a) (.object b) movedFrom)
  | copyAssign a b => call (ValueObjects.copyAssign (.object a) (.object b))
  | moveAssign a b => call (ValueObjects.moveAssign (.object a) (.object b) movedFrom)
  | assignInt a val => call (ValueObjects.assignInt (.object a) val)
  | assignInt64 a val => call (ValueObjects.assignInt64 (.object a) val)
  | assignReal a val => call (ValueObjects.assignReal (.object a) val)
  | assignText a val => call (ValueObjects.assignText (.object a) val)
  | assignBlob a val => call (ValueObjects.assignBlob (.object a) val)
  | ejectText a => do pure (some (← ValueObjects.ejectText (.object a) movedFrom))
  | ejectBlob a => do pure (some (← ValueObjects.ejectBlob (.object a) movedFrom))
  | setNull a => call (ValueObjects.setNull (.object a))
  | swap a b => call (ValueObjects.swap (.object a) (.object b) movedFrom)
  | destroy a => call (destruct (.object a))

end Operation

/-- The objects as they should be: values of the sum type, and free places. -/
abbrev Values := Nat → Option Value

namespace Values

def make (a : Nat) (v : Value) (values : Values) : Option (Outcome × Values) :=
  if values a = none then some (none,Function.update values a (some v)) else none

def set (a : Nat) (v : Value) (values : Values) : Option (Outcome × Values) :=
  (values a).map fun _ => (none,Function.update values a (some v))

def eject (a : Nat) (taken : Value → Except Error Bytes × Value) (values : Values) : Option (Outcome × Values) :=
  (values a).map fun v => (some (taken v).1,Function.update values a (some (taken v).2))

def operand {α : Type} (values : Values) (read : Value → Except Error α) : Operand α → Option α
  | .given x => some x
  | .payload a => (values a).bind fun v => (read v).toOption

/-- What each operation means: copies copy, moves from a Value leave it Null, swap exchanges. -/
def after (values : Values) : Operation → Option (Outcome × Values)
  | .default a => values.make a .null
  | .int a val => values.make a (.int val.toInt64)
  | .int64 a val => values.make a (.int val)
  | .real a val => values.make a (.real val)
  | .text a val => values.make a (.text val)
  | .chars a val => values.make a (.text (val.takeWhile (· ≠ 0)))
  | .blob a val => values.make a (.blob val)
  | .copy a b => (values b).bind fun v => values.make a v
  | .move a b => (values b).bind fun v =>
      (values.make a v).map fun made => (none,Function.update made.2 b (some .null))
  | .copyAssign a b => (values b).bind fun v => values.set a v
  | .moveAssign a b => (values b).bind fun v =>
      (values.set a v).map fun given => (none,Function.update given.2 b (some .null))
  | .assignInt a val => values.set a (.int val.toInt64)
  | .assignInt64 a val => (values.operand Value.int64 val).bind fun n => values.set a (.int n)
  | .assignReal a val => (values.operand Value.getReal val).bind fun x => values.set a (.real x)
  | .assignText a val => (values.operand Value.getText val).bind fun s => values.set a (.text s)
  | .assignBlob a val => (values.operand Value.getBlob val).bind fun s => values.set a (.blob s)
  | .ejectText a => values.eject a Value.ejectText
  | .ejectBlob a => values.eject a Value.ejectBlob
  | .setNull a => values.set a .null
  | .swap a b => (values a).bind fun x => (values b).map fun y =>
      (none,Function.update (Function.update values b (some x)) a (some y))
  | .destroy a => (values a).map fun _ => (none,Function.update values a none)

/-- Self-assignment and self-swap change nothing, and neither does an eject that throws. -/
theorem after_self {values : Values} {a : Nat} {v : Value} (here : values a = some v) :
    values.after (.copyAssign a a) = some (none,values) ∧ values.after (.swap a a) = some (none,values) ∧
      ∀ e, (v.getText = .error e → values.after (.ejectText a) = some (some (.error e),values)) ∧
        (v.getBlob = .error e → values.after (.ejectBlob a) = some (some (.error e),values)) := by
  have same : Function.update values a (some v) = values := by rw [← here,Function.update_eq_self]
  refine ⟨by simp [after,set,here,same],by simp [after,here,same],?_⟩
  intro e
  constructor
  · intro thrown
    simp [after,eject,here,Value.ejectText,thrown,same]
  · intro thrown
    simp [after,eject,here,Value.ejectBlob,thrown,same]

/-- The same as the objects show it, the local object of a swap being free between calls. -/
def places (values : Values) : Place → Option Value
  | .object a => values a
  | .temporary => none

theorem places_update (values : Values) (a : Nat) (v : Option Value) :
    places (Function.update values a v) = Function.update values.places (.object a) v := by
  ext1 place
  cases place with
  | temporary => simp [places]
  | object b =>
    by_cases same : b = a
    · simp [places,same]
    · simp [places,same]

end Values

section refinement
variable {h : Heap} {values after : Values} {movedFrom : Bytes → Bytes} {out : Outcome}

theorem call_run {x : Access Unit} {u : Heap} (ran : x h = some ((),u)) : Operation.call x h = some (none,u) := by
  unfold Operation.call
  rw [bind_run _ ran]
  rfl

theorem make_shows {a : Nat} {v : Value} {x : Access Unit}
    (made : values.make a v = some (out,after))
    (runs : values.places (.object a) = none → ∃ u, x h = some ((),u) ∧
      Shows u (Function.update values.places (.object a) (some v))) :
    ∃ u, Operation.call x h = some (out,u) ∧ Shows u after.places := by
  unfold Values.make at made
  split_ifs at made with free
  cases made
  obtain ⟨u,ran,shows⟩ := runs free
  exact ⟨u,call_run ran,by rwa [Values.places_update]⟩

theorem set_shows {a : Nat} {v : Value} {x : Access Unit} (given : values.set a v = some (out,after))
    (runs : ∀ old, values.places (.object a) = some old → ∃ u, x h = some ((),u) ∧
      Shows u (Function.update values.places (.object a) (some v))) :
    ∃ u, Operation.call x h = some (out,u) ∧ Shows u after.places := by
  obtain ⟨old,here,same⟩ := Option.map_eq_some_iff.mp given
  cases same
  obtain ⟨u,ran,shows⟩ := runs old here
  exact ⟨u,call_run ran,by rwa [Values.places_update]⟩

theorem ofScalar_shows (shows : Shows h values.places) {a : Nat} {v : Value} {store : Store}
    (scalar : v.getType ≠ .text ∧ v.getType ≠ .blob) (has : store.Has v)
    (made : values.make a v = some (out,after)) :
    ∃ u, Operation.call (do allocate (.object a) v.getType; write (.object a) store) h = some (out,u) ∧
      Shows u after.places := by
  apply make_shows made
  intro free
  obtain ⟨u,allocated,objects⟩ := allocate_run (shows.none free) v.getType
  have here : u.objects (.object a) = some ⟨v.getType,.raw⟩ := by rw [objects,Function.update_self]
  obtain ⟨w,ran,objects'⟩ := write_run here rfl (has.plain scalar)
  rw [objects,Function.update_idem] at objects'
  exact ⟨w,(bind_run _ allocated).trans ran,shows.update objects' (.some ⟨rfl,has⟩)⟩

theorem ofBytes_shows (shows : Shows h values.places) {a : Nat} (member : Member) {s : Bytes}
    (made : values.make a (member.value s) = some (out,after)) :
    ∃ u, Operation.call (do allocate (.object a) member.kind; create (.object a) member s) h = some (out,u) ∧
      Shows u after.places := by
  apply make_shows made
  intro free
  obtain ⟨u,allocated,objects⟩ := allocate_run (shows.none free) member.kind
  have here : u.objects (.object a) = some ⟨member.kind,.raw⟩ := by rw [objects,Function.update_self]
  obtain ⟨w,id,ran,objects'⟩ := create_run here rfl member s
  rw [objects,Function.update_idem] at objects'
  exact ⟨w,(bind_run _ allocated).trans ran,shows.update objects' (.some (holds_object member id s))⟩

theorem operand_some {α : Type} {read : Value → Except Error α} {val : Operand α} {x : α}
    (evaluated : values.operand read val = some x) :
    val = .given x ∨ ∃ a v, val = .payload a ∧ values a = some v ∧ read v = .ok x := by
  cases val with
  | given y => exact .inl (congrArg Operand.given (Option.some.inj evaluated))
  | payload a =>
    obtain ⟨v,here,value⟩ := Option.bind_eq_some_iff.mp evaluated
    refine .inr ⟨a,v,rfl,here,?_⟩
    cases result : read v with
    | error e => simp [result,Except.toOption] at value
    | ok y => simpa [result,Except.toOption] using value

theorem int_reads (shows : Shows h values.places) {val : Operand Int64} {n : Int64}
    (evaluated : values.operand Value.int64 val = some n) : val.Reads Operand.int .int h n := by
  intro u agree
  rcases operand_some evaluated with rfl | ⟨a,v,rfl,here,value⟩
  · rfl
  · have int : v = .int n := by cases v <;> simp_all [Value.int64]
    obtain ⟨⟨_,_⟩,found,type,has⟩ := @Shows.some _ _ (.object a) _ shows here
    cases int
    cases has
    simp [Operand.int,intval,agree _ _ found type]

theorem real_reads (shows : Shows h values.places) {val : Operand Double} {x : Double}
    (evaluated : values.operand Value.getReal val = some x) : val.Reads Operand.real .real h x := by
  intro u agree
  rcases operand_some evaluated with rfl | ⟨a,v,rfl,here,value⟩
  · rfl
  · have real : v = .real x := by cases v <;> simp_all [Value.getReal]
    obtain ⟨⟨_,_⟩,found,type,has⟩ := @Shows.some _ _ (.object a) _ shows here
    cases real
    cases has
    simp [Operand.real,realval,agree _ _ found type]

theorem bytes_reads (shows : Shows h values.places) (member : Member) {read : Value → Except Error Bytes}
    (kind : ∀ v s, read v = .ok s → v = member.value s) {val : Operand Bytes} {s : Bytes}
    (evaluated : values.operand read val = some s) : val.Reads (Operand.bytes member) member.kind h s := by
  intro u agree
  rcases operand_some evaluated with rfl | ⟨a,v,rfl,here,value⟩
  · rfl
  · obtain ⟨o,found,holds⟩ := @Shows.some _ _ (.object a) _ shows here
    rw [kind v s value] at holds
    have type : (member.value s).getType = member.kind := by cases member <;> rfl
    obtain ⟨id,t,rfl,same⟩ := holds.object type
    have content : t = s := by cases member <;> simpa [Member.value] using same.symm
    rw [Operand.bytes,content_run (agree _ _ found rfl),content]

theorem text_reads (shows : Shows h values.places) {val : Operand Bytes} {s : Bytes}
    (evaluated : values.operand Value.getText val = some s) : val.Reads (Operand.bytes .textval) .text h s := by
  have kind : ∀ v s, Value.getText v = .ok s → v = .text s := by
    intro v s value
    cases v <;> simp_all [Value.getText]
  exact bytes_reads shows .textval kind evaluated

theorem blob_reads (shows : Shows h values.places) {val : Operand Bytes} {s : Bytes}
    (evaluated : values.operand Value.getBlob val = some s) : val.Reads (Operand.bytes .blobval) .blob h s := by
  have kind : ∀ v s, Value.getBlob v = .ok s → v = .blob s := by
    intro v s value
    cases v <;> simp_all [Value.getBlob]
  exact bytes_reads shows .blobval kind evaluated

/-- One operation does to the objects what it means for the values. -/
theorem run_shows (shows : Shows h values.places) {op : Operation} (meant : values.after op = some (out,after)) :
    ∃ u, op.run movedFrom h = some (out,u) ∧ Shows u after.places := by
  cases op with
  | default a =>
    apply make_shows meant
    intro free
    obtain ⟨u,ran,objects⟩ := allocate_run (shows.none free) .null
    exact ⟨u,ran,shows.update objects (.some ⟨rfl,rfl⟩)⟩
  | int a val => exact @ofScalar_shows _ _ _ _ shows a (.int val.toInt64) (.intval _) ⟨nofun,nofun⟩ rfl meant
  | int64 a val => exact @ofScalar_shows _ _ _ _ shows a (.int val) (.intval _) ⟨nofun,nofun⟩ rfl meant
  | real a val => exact @ofScalar_shows _ _ _ _ shows a (.real val) (.realval _) ⟨nofun,nofun⟩ rfl meant
  | text a val => exact ofBytes_shows shows .textval meant
  | chars a val => exact ofBytes_shows shows .textval meant
  | blob a val => exact ofBytes_shows shows .blobval meant
  | copy a b =>
    obtain ⟨v,there,made⟩ := Option.bind_eq_some_iff.mp meant
    exact make_shows made fun free => copyConstruct_run shows free there
  | move a b =>
    obtain ⟨v,there,given⟩ := Option.bind_eq_some_iff.mp meant
    obtain ⟨made,fresh,same⟩ := Option.map_eq_some_iff.mp given
    unfold Values.make at fresh
    split_ifs at fresh with free
    cases fresh
    cases same
    obtain ⟨u,ran,shows⟩ := @moveConstruct_run _ _ (.object a) (.object b) _ movedFrom shows free there
    exact ⟨u,call_run ran,by rwa [Values.places_update,Values.places_update]⟩
  | copyAssign a b =>
    obtain ⟨v,there,given⟩ := Option.bind_eq_some_iff.mp meant
    exact set_shows given fun old here => copyAssign_run shows here there
  | moveAssign a b =>
    obtain ⟨v,there,given⟩ := Option.bind_eq_some_iff.mp meant
    obtain ⟨made,target,same⟩ := Option.map_eq_some_iff.mp given
    obtain ⟨old,here,replaced⟩ := Option.map_eq_some_iff.mp target
    cases replaced
    cases same
    obtain ⟨u,ran,shows⟩ := @moveAssign_run _ _ (.object a) (.object b) _ _ movedFrom shows here there
    exact ⟨u,call_run ran,by rwa [Values.places_update,Values.places_update]⟩
  | assignInt a val => exact set_shows meant fun old here => assignInt64_run shows here fun u agree => rfl
  | assignInt64 a val =>
    obtain ⟨n,evaluated,given⟩ := Option.bind_eq_some_iff.mp meant
    exact set_shows given fun old here => assignInt64_run shows here (int_reads shows evaluated)
  | assignReal a val =>
    obtain ⟨x,evaluated,given⟩ := Option.bind_eq_some_iff.mp meant
    exact set_shows given fun old here => assignReal_run shows here (real_reads shows evaluated)
  | assignText a val =>
    obtain ⟨s,evaluated,given⟩ := Option.bind_eq_some_iff.mp meant
    exact set_shows given fun old here => assignBytes_run shows here (text_reads shows evaluated)
  | assignBlob a val =>
    obtain ⟨s,evaluated,given⟩ := Option.bind_eq_some_iff.mp meant
    exact set_shows given fun old here => assignBytes_run shows here (blob_reads shows evaluated)
  | ejectText a =>
    obtain ⟨v,here,same⟩ := Option.map_eq_some_iff.mp meant
    cases same
    obtain ⟨u,ran,shows⟩ := @eject_run _ _ (.object a) _ movedFrom shows here .textval
    refine ⟨u,?_,by rwa [Values.places_update]⟩
    exact bind_run (fun result => pure (some result)) ran
  | ejectBlob a =>
    obtain ⟨v,here,same⟩ := Option.map_eq_some_iff.mp meant
    cases same
    obtain ⟨u,ran,shows⟩ := @eject_run _ _ (.object a) _ movedFrom shows here .blobval
    refine ⟨u,?_,by rwa [Values.places_update]⟩
    exact bind_run (fun result => pure (some result)) ran
  | setNull a => exact set_shows meant fun old here => setNull_run shows here
  | swap a b =>
    obtain ⟨x,here,given⟩ := Option.bind_eq_some_iff.mp meant
    obtain ⟨y,there,same⟩ := Option.map_eq_some_iff.mp given
    cases same
    obtain ⟨u,ran,shows⟩ := @swap_run _ _ (.object a) (.object b) _ _ movedFrom shows here there rfl
    exact ⟨u,call_run ran,by rwa [Values.places_update,Values.places_update]⟩
  | destroy a =>
    obtain ⟨v,here,same⟩ := Option.map_eq_some_iff.mp meant
    cases same
    obtain ⟨u,ran,shows⟩ := @destruct_run _ _ (.object a) _ shows here
    exact ⟨u,call_run ran,by rwa [Values.places_update]⟩

end refinement

/-- The tag names the member that is alive. -/
def Object.Tagged (o : Object) : Prop :=
  match o.type with
  | .null => o.store.id = none
  | .int => ∃ n, o.store = .intval n
  | .real => ∃ x, o.store = .realval x
  | .text => ∃ id s, o.store = .object .textval id s
  | .blob => ∃ id s, o.store = .object .blobval id s
  | .variant => False

theorem Object.Holds.tagged {o : Object} {v : Value} (holds : o.Holds v) : o.Tagged := by
  obtain ⟨type,store⟩ := o
  obtain ⟨rfl,has⟩ : type = v.getType ∧ store.Has v := holds
  cases v with
  | null => exact has
  | int n => exact ⟨n,has⟩
  | real x => exact ⟨x,has⟩
  | text s =>
    obtain ⟨id,same⟩ := has
    exact ⟨id,s,same⟩
  | blob s =>
    obtain ⟨id,same⟩ := has
    exact ⟨id,s,same⟩

def step (movedFrom : Bytes → Bytes) (s : List Outcome × Heap) (op : Operation) : Option (List Outcome × Heap) :=
  (op.run movedFrom s.2).map fun (out,h) => (s.1 ++ [out],h)

def meaning (s : List Outcome × Values) (op : Operation) : Option (List Outcome × Values) :=
  (s.2.after op).map fun (out,values) => (s.1 ++ [out],values)

def Refines (s : List Outcome × Values) (t : List Outcome × Heap) : Prop := t.1 = s.1 ∧ Shows t.2 s.2.places

theorem step_refines {movedFrom : Bytes → Bytes} {s : List Outcome × Values} {t : List Outcome × Heap} {op : Operation}
    {s' : List Outcome × Values} (related : Refines s t) (meant : meaning s op = some s') :
    ∃ t', step movedFrom t op = some t' ∧ Refines s' t' := by
  obtain ⟨outs,shows⟩ := related
  obtain ⟨⟨out,after⟩,next,same⟩ := Option.map_eq_some_iff.mp meant
  cases same
  obtain ⟨u,ran,shows⟩ := @run_shows _ _ _ movedFrom _ shows _ next
  exact ⟨(t.1 ++ [out],u),by simp only [step,ran,Option.map_some],by rw [outs],shows⟩

theorem empty_shows : Shows Heap.empty (Values.places fun _ => none) := by
  intro place
  cases place <;> exact .none

/-- Every sequence of operations that has a meaning for values of the sum type runs on
the unions without a fault and to the same values and results; the tags are right, and of
the texts and blobs ever made each is destroyed once or still alive in one object. -/
theorem runs_refine (movedFrom : Bytes → Bytes) {ops : List Operation} {outs : List Outcome} {values : Values}
    (meant : Machine.runAll meaning ([],fun _ => none) ops = some (outs,values)) :
    ∃ h, Machine.runAll (step movedFrom) ([],.empty) ops = some (outs,h) ∧
      (∀ a, Option.Rel Object.Holds (h.objects (.object a)) (values a)) ∧
      (∀ place o, h.objects place = some o → o.Tagged) ∧
      (∀ id < h.created, (h.destroyed.count id = 1 ∧ ∀ place, alive h.objects place ≠ some id) ∨
        (h.destroyed.count id = 0 ∧ ∃ a, alive h.objects (.object a) = some id)) ∧
      ((∀ a, values a = none) → ∀ id < h.created, h.destroyed.count id = 1) := by
  obtain ⟨⟨outs',h⟩,ran,same,shows⟩ :=
    @Machine.runAll_simulates _ _ meaning ([],fun _ => none) _ (step movedFrom) Refines
      step_refines ops ([],.empty) (outs,values) ⟨rfl,empty_shows⟩ meant
  cases same
  have local_free : h.objects .temporary = none := @Shows.none h values.places .temporary shows rfl
  have accounted : ∀ id < h.created, (h.destroyed.count id = 1 ∧ ∀ place, alive h.objects place ≠ some id) ∨
      (h.destroyed.count id = 0 ∧ ∃ a, alive h.objects (.object a) = some id) := by
    intro id old
    rcases h.owned.count_returned old with once | ⟨zero,place,held⟩
    · exact .inl once
    · cases place with
      | object a => exact .inr ⟨zero,a,held⟩
      | temporary => simp [alive,local_free] at held
  refine ⟨h,ran,fun a => shows (.object a),?_,accounted,?_⟩
  · intro place o found
    have there := shows place
    rw [found] at there
    cases value : values.places place with
    | none => simp [value] at there
    | some v =>
      rw [value] at there
      exact Object.Holds.tagged (Option.rel_some_some.mp there)
  · intro gone id old
    rcases accounted id old with once | ⟨_,a,held⟩
    · exact once.1
    · have free : h.objects (.object a) = none := @Shows.none h values.places (.object a) shows (gone a)
      simp [alive,free] at held

theorem runs_refine_moved : ∃ h,
    Machine.runAll (step id) ([],.empty) [.text 0 [7],.move 1 0,.destroy 0,.destroy 1] =
      some ([none,none,none,none],h) ∧ ∀ id < h.created, h.destroyed.count id = 1 := by
  have meant : Machine.runAll meaning ([],fun _ => none) [.text 0 [7],.move 1 0,.destroy 0,.destroy 1] =
      some ([none,none,none,none],Function.update (Function.update (Function.update (Function.update
        (Function.update (fun _ => none) 0 (some (.text [7]))) 1 (some (.text [7]))) 0 (some .null)) 0 none) 1 none) :=
    rfl
  obtain ⟨h,ran,_,_,_,once⟩ := runs_refine id meant
  refine ⟨h,ran,once ?_⟩
  intro a
  by_cases last : a = 1
  · simp [last]
  by_cases first : a = 0
  · simp [first]
  · simp [last,first]

end Sl3.ValueObjects
