import Sl3.ValueObjects

/-! Assignments to a Value whose copy of a text or blob throws: what they leave in the target, and
which of them leave it with a tag for a member that is not alive. -/
namespace Sl3.FailingCopies
open ValueObjects

inductive BadAlloc where
  | thrown

/-- Memory accesses that an exception may end; what was done before it stays done. -/
abbrev Throwing := ExceptT BadAlloc Access

/-- An assignment copies at most one string or vector: whether that throws, and what a constructor
that throws makes of the number in the storage it was given. -/
structure Copying where
  fails : Bool
  left : Store → Store
  plain : ∀ store, store.id = none → (left store).id = none

section memory
variable (copying : Copying) (this other : Place)

def spoil : Access Unit := fun h =>
  match h.objects this with
  | some o => write this (copying.left o.store) h
  | none => none

/-- `new (&_store.textval) std::string (..)`, and the same for a blob. -/
def construct (member : Member) (bytes : Bytes) : Throwing Unit := do
  if copying.fails then
    spoil copying this
    throw .thrown
  else create this member bytes

/-- The assignment of a string or vector, which keeps its old content when it throws. -/
def assign (member : Member) (bytes : Bytes) : Throwing Unit := do
  if copying.fails then
    let _ ← content this member
    throw .thrown
  else setContent this member bytes

def copyStore : Throwing Unit := do
  match ← type this with
  | .null => pure ()
  | .int => write this (.intval (← intval other))
  | .real => write this (.realval (← realval other))
  | .text => construct copying this .textval (← content other .textval)
  | .blob => construct copying this .blobval (← content other .blobval)
  | .variant => (failure : Access Unit)

/-- `operator= (const Value&)` has the new tag before it makes the copy. -/
def copyAssign : Throwing Unit := do
  let mine ← type this
  let its ← type other
  if mine = .text ∧ its = .text then assign copying this .textval (← content other .textval)
  else if mine = .blob ∧ its = .blob then assign copying this .blobval (← content other .blobval)
  else
    clear this
    setType this (← type other)
    copyStore copying this other

/-- `operator= (const std::string&)` and `operator= (const Blob&)` have it after the copy. -/
def assignBytes (member : Member) (val : Operand Bytes) : Throwing Unit := do
  if (← type this) = member.kind then assign copying this member (← val.bytes member)
  else
    clear this
    construct copying this member (← val.bytes member)
    setType this member.kind

end memory

inductive Assignment where
  | copy (a b : Nat)
  | text (a : Nat) (val : Operand Bytes)
  | blob (a : Nat) (val : Operand Bytes)

namespace Assignment

def target : Assignment → Nat
  | copy a _ => a
  | text a _ => a
  | blob a _ => a

def run (copying : Copying) : Assignment → Throwing Unit
  | copy a b => copyAssign copying (.object a) (.object b)
  | text a val => assignBytes copying (.object a) .textval val
  | blob a val => assignBytes copying (.object a) .blobval val

def operation : Assignment → Operation
  | copy a b => .copyAssign a b
  | text a val => .assignText a val
  | blob a val => .assignBlob a val

/-- The Value whose content is copied. -/
def source (values : Values) : Assignment → Option Value
  | copy _ b => values b
  | text _ val => (values.operand Value.getText val).map .text
  | blob _ val => (values.operand Value.getBlob val).map .blob

end Assignment

section lifting
variable {α β ε : Type} {copying : Copying} {this other : Place}

theorem copyStore_lifts (succeeds : copying.fails = false) :
    copyStore copying this other = liftM (ValueObjects.copyStore this other) := by
  unfold copyStore ValueObjects.copyStore
  rw [liftM_bind]
  congr
  funext t
  cases t <;> simp [construct,succeeds,liftM_bind,liftM_pure]

theorem copyAssign_lifts (succeeds : copying.fails = false) :
    copyAssign copying this other = liftM (ValueObjects.copyAssign this other) := by
  unfold copyAssign ValueObjects.copyAssign
  rw [liftM_bind]
  congr
  funext mine
  rw [liftM_bind]
  congr
  funext its
  split_ifs <;> simp [assign,succeeds,copyStore_lifts succeeds,liftM_bind]

theorem assignBytes_lifts (succeeds : copying.fails = false) (member : Member) (val : Operand Bytes) :
    assignBytes copying this member val = liftM (ValueObjects.assignBytes this member val) := by
  unfold assignBytes ValueObjects.assignBytes
  rw [liftM_bind]
  congr
  funext t
  split_ifs <;> simp [assign,construct,succeeds,liftM_bind]

theorem lift_run {x : Access α} {a : α} {h u : Heap} (ran : x h = some (a,u)) :
    (liftM x : Throwing α) h = some (.ok a,u) := by
  simp [liftM,monadLift,MonadLift.monadLift,ExceptT.lift,ExceptT.mk,Functor.map,StateT.map,ran]

theorem lift_bind_run {x : Access α} {a : α} {h u : Heap} (ran : x h = some (a,u)) (f : α → Throwing β) :
    ((liftM x : Throwing α) >>= f) h = f a u :=
  bind_run (ExceptT.bindCont f) (lift_run ran)

theorem throw_bind_run {x : Throwing α} {e : BadAlloc} {h u : Heap} (threw : x h = some (.error e,u)) (f : α → Throwing β) :
    (x >>= f) h = some (.error e,u) :=
  bind_run (ExceptT.bindCont f) threw

/-- When its copy does not throw, an assignment is the operation of a Value. -/
theorem run_lifts (succeeds : copying.fails = false) (movedFrom : Bytes → Bytes) {op : Assignment} {h u : Heap}
    {out : Outcome} (ran : op.operation.run movedFrom h = some (out,u)) : op.run copying h = some (.ok (),u) := by
  have uncalled {x : Access Unit} (called : Operation.call x h = some (out,u)) : x h = some ((),u) := by
    cases done : x h with
    | none => simp [Operation.call,bind,StateT.bind,done] at called
    | some r =>
      rw [Operation.call,bind_run _ done] at called
      cases called
      rfl
  cases op with
  | copy a b =>
    rw [Assignment.run,copyAssign_lifts succeeds]
    exact lift_run (uncalled ran)
  | text a val =>
    rw [Assignment.run,assignBytes_lifts succeeds]
    exact lift_run (uncalled ran)
  | blob a val =>
    rw [Assignment.run,assignBytes_lifts succeeds]
    exact lift_run (uncalled ran)

end lifting

section failing
variable {copying : Copying} {h : Heap} {this other : Place} {o p : Object} {store : Store} {member : Member} {x y : Value}

theorem spoil_run (here : h.objects this = some o) (plain : o.store.id = none) :
    ∃ u, spoil copying this h = some ((),u) ∧
      u.objects = Function.update h.objects this (some {o with store := copying.left o.store}) := by
  unfold spoil
  rw [here]
  exact write_run here plain (copying.plain o.store plain)

theorem construct_fails (fails : copying.fails = true) (here : h.objects this = some o) (plain : o.store.id = none)
    (member : Member) (bytes : Bytes) : ∃ u, construct copying this member bytes h = some (.error .thrown,u) ∧
      u.objects = Function.update h.objects this (some {o with store := copying.left o.store}) := by
  obtain ⟨u,ran,objects⟩ := @spoil_run copying _ _ _ here plain
  refine ⟨u,?_,objects⟩
  rw [construct,if_pos fails,lift_bind_run ran]
  rfl

theorem assign_fails (fails : copying.fails = true) {t : ValueType} {id : Nat} {s : Bytes}
    (here : h.objects this = some ⟨t,.object member id s⟩) (bytes : Bytes) :
    assign copying this member bytes h = some (.error .thrown,h) := by
  rw [assign,if_pos fails,lift_bind_run (content_run here)]
  rfl

theorem copyStore_fails (fails : copying.fails = true) (here : h.objects this = some ⟨member.kind,store⟩)
    (plain : store.id = none) (there : h.objects other = some p) (its : p.Holds y) (kind : y.getType = member.kind) :
    ∃ u, copyStore copying this other h = some (.error .thrown,u) ∧
      u.objects = Function.update h.objects this (some ⟨member.kind,copying.left store⟩) := by
  obtain ⟨id,s,rfl,rfl⟩ := its.object kind
  obtain ⟨u,threw,objects⟩ := construct_fails fails here plain member s
  refine ⟨u,?_,objects⟩
  unfold copyStore
  rw [lift_bind_run (type_run here)]
  cases member <;> exact (lift_bind_run (content_run there) _).trans threw

/-- Unless both are of one class type, the target has the new tag before anything is copied into it. -/
theorem copyAssign_retypes (found : h.objects this = some o) (holds : o.Holds x) (there : h.objects other = some p)
    (its : p.Holds y) (unlike : ∀ member : Member, x.getType = member.kind → y.getType ≠ member.kind) :
    ∃ u store q, u.objects = Function.update h.objects this (some ⟨y.getType,store⟩) ∧ store.id = none ∧
      u.objects other = some q ∧ q.Holds y ∧
      ∀ copying, copyAssign copying this other h = copyStore copying this other u := by
  have apart : other = this → o.store.id = none := by
    rintro rfl
    cases found.symm.trans there
    have same : x.getType = y.getType := holds.1.symm.trans its.1
    exact holds.2.plain ⟨fun text => unlike .textval text (same.symm.trans text),
      fun blob => unlike .blobval blob (same.symm.trans blob)⟩
  obtain ⟨u,store,q,ran,objects,plain,read,tag,has⟩ := retype_run found holds there its.1 its.2 apart
  refine ⟨u,store,q,objects,plain,read,⟨tag,has⟩,fun copying => ?_⟩
  unfold copyAssign
  rw [lift_bind_run (type_run found),lift_bind_run (type_run there),holds.1,its.1,if_neg,if_neg,
    ← lift_bind_run ran fun _ => copyStore copying this other]
  · simp only [liftM_bind,bind_assoc]
  · exact fun blobs => unlike .blobval blobs.1 blobs.2
  · exact fun texts => unlike .textval texts.1 texts.2

theorem copyAssign_fails (fails : copying.fails = true) (found : h.objects this = some o) (holds : o.Holds x)
    (there : h.objects other = some p) (its : p.Holds y) (kind : y.getType = member.kind) (differ : x.getType ≠ y.getType) :
    ∃ u store, copyAssign copying this other h = some (.error .thrown,u) ∧
      u.objects = Function.update h.objects this (some ⟨member.kind,store⟩) ∧ store.id = none := by
  obtain ⟨u,store,q,objects,plain,read,holds',retyped⟩ :=
    copyAssign_retypes found holds there its fun _ mine its => differ (mine.trans its.symm)
  rw [kind] at objects
  obtain ⟨v,threw,objects'⟩ := copyStore_fails fails (by rw [objects,Function.update_self]) plain read holds' kind
  rw [objects,Function.update_idem] at objects'
  exact ⟨v,copying.left store,(retyped copying).trans threw,objects',copying.plain store plain⟩

theorem copyAssign_fails_inside (fails : copying.fails = true) (found : h.objects this = some o) (holds : o.Holds x)
    (there : h.objects other = some p) (its : p.Holds y) (kind : y.getType = member.kind) (same : x.getType = y.getType) :
    copyAssign copying this other h = some (.error .thrown,h) := by
  obtain ⟨id,s,rfl,rfl⟩ := holds.object (same.trans kind)
  obtain ⟨id',s',rfl,rfl⟩ := its.object kind
  unfold copyAssign
  rw [lift_bind_run (type_run found),lift_bind_run (type_run there)]
  have copied := (lift_bind_run (content_run there) _).trans (assign_fails fails found s')
  cases member <;> exact copied

/-- The target keeps its old tag, also when it has lost the member. -/
theorem assignBytes_fails (fails : copying.fails = true) {val : Operand Bytes} {s : Bytes}
    (reads : val.Reads (Operand.bytes member) member.kind h s) (found : h.objects this = some o) (holds : o.Holds x)
    (differ : x.getType ≠ member.kind) : ∃ u store, assignBytes copying this member val h = some (.error .thrown,u) ∧
      u.objects = Function.update h.objects this (some ⟨x.getType,copying.left store⟩) ∧
      store.id = none ∧ (o.store.id = none → store = o.store) := by
  obtain ⟨u,store,cleared,objects,plain,same⟩ := clear_run found holds
  rw [holds.1] at objects
  have value := reads u (agree_cleared found holds (holds.1 ▸ objects) same
    fun type => absurd (holds.1.symm.trans type) differ)
  obtain ⟨v,threw,objects'⟩ := construct_fails fails (by rw [objects,Function.update_self]) plain member s
  rw [objects,Function.update_idem] at objects'
  refine ⟨v,store,?_,objects',plain,same⟩
  unfold assignBytes
  rw [lift_bind_run (type_run found),holds.1,if_neg differ,lift_bind_run cleared,lift_bind_run value]
  exact throw_bind_run threw _

theorem assignBytes_fails_inside (fails : copying.fails = true) {val : Operand Bytes} {s : Bytes}
    (reads : val.Reads (Operand.bytes member) member.kind h s) (found : h.objects this = some o) (holds : o.Holds x)
    (same : x.getType = member.kind) : assignBytes copying this member val h = some (.error .thrown,h) := by
  have value := reads h fun _ _ there _ => there
  obtain ⟨id,old,rfl,rfl⟩ := holds.object same
  unfold assignBytes
  rw [lift_bind_run (type_run found),if_pos rfl,lift_bind_run value]
  exact assign_fails fails found s

/-- The number in the target is one still, after a constructor threw there. -/
def Copying.Spares (copying : Copying) : Value → Prop
  | .null => True
  | .int n => ∃ m, copying.left (.intval n) = .intval m
  | .real r => ∃ y, copying.left (.realval r) = .realval y
  | _ => False

theorem not_tagged (plain : store.id = none) : ¬ Object.Tagged ⟨member.kind,store⟩ := by
  cases member
  · rintro ⟨id,s,rfl⟩
    cases plain
  · rintro ⟨id,s,rfl⟩
    cases plain

theorem spared_iff (holds : o.Holds x) (plain : store.id = none) (same : o.store.id = none → store = o.store) :
    Object.Tagged ⟨x.getType,copying.left store⟩ ↔ copying.Spares x := by
  have lost := copying.plain store plain
  obtain ⟨type,kept⟩ := o
  obtain ⟨tag,has⟩ := holds
  cases x with
  | null => exact iff_of_true lost trivial
  | int n =>
    cases has
    rw [same rfl]
    exact Iff.rfl
  | real r =>
    cases has
    rw [same rfl]
    exact Iff.rfl
  | text s => exact iff_of_false (@not_tagged _ .textval lost) id
  | blob s => exact iff_of_false (@not_tagged _ .blobval lost) id

theorem holds_of_tagged (tagged : o.Tagged) : ∃ v, o.Holds v := by
  obtain ⟨type,store⟩ := o
  cases type with
  | null => exact ⟨.null,rfl,tagged⟩
  | int =>
    obtain ⟨n,has⟩ := tagged
    exact ⟨.int n,rfl,has⟩
  | real =>
    obtain ⟨r,has⟩ := tagged
    exact ⟨.real r,rfl,has⟩
  | text =>
    obtain ⟨id,s,has⟩ := tagged
    exact ⟨.text s,rfl,id,has⟩
  | blob =>
    obtain ⟨id,s,has⟩ := tagged
    exact ⟨.blob s,rfl,id,has⟩
  | variant => exact tagged.elim

/-- The target holds a value under its tag, and all other objects hold what they held before. -/
def Usable (values : Values) (a : Nat) (h : Heap) : Prop :=
  ∃ v, Shows h (Values.places (Function.update values a (some v)))

theorem Usable.tagged {values : Values} {a : Nat} (usable : Usable values a h) :
    ∃ o, h.objects (.object a) = some o ∧ o.Tagged := by
  obtain ⟨v,shows⟩ := usable
  obtain ⟨o,found,holds⟩ := @Shows.some _ _ (.object a) v shows (Function.update_self _ _ _)
  exact ⟨o,found,holds.tagged⟩

theorem usable_iff_tagged {values : Values} {a : Nat} {u : Heap} (shows : Shows h values.places)
    (changed : u.objects = Function.update h.objects (.object a) (some o)) : Usable values a u ↔ o.Tagged := by
  constructor
  · intro usable
    obtain ⟨o',found,tagged⟩ := usable.tagged
    rw [changed,Function.update_self] at found
    cases found
    exact tagged
  · intro tagged
    obtain ⟨v,holds⟩ := holds_of_tagged tagged
    refine ⟨v,?_⟩
    rw [Values.places_update]
    exact shows.update changed (.some holds)

/-- Whatever is done next, destruction and assignment included, runs as it means. -/
theorem Usable.goes_on {values : Values} {a : Nat} (usable : Usable values a h) (movedFrom : Bytes → Bytes) :
    ∃ v, ∀ op out after, Values.after (Function.update values a (some v)) op = some (out,after) →
      ∃ u, op.run movedFrom h = some (out,u) ∧ Shows u after.places := by
  obtain ⟨v,shows⟩ := usable
  exact ⟨v,fun op out after meant => run_shows shows meant⟩

theorem copyAssign_scalar (found : h.objects this = some o) (holds : o.Holds x) (there : h.objects other = some p)
    (its : p.Holds y) (scalar : y.getType ≠ .text ∧ y.getType ≠ .blob) :
    copyAssign copying this other h = copyAssign {copying with fails := false} this other h := by
  have unlike (member : Member) (_ : x.getType = member.kind) : y.getType ≠ member.kind := by
    cases member
    · exact scalar.1
    · exact scalar.2
  obtain ⟨u,store,q,objects,_,_,_,retyped⟩ := copyAssign_retypes found holds there its unlike
  have here : u.objects this = some ⟨y.getType,store⟩ := by rw [objects,Function.update_self]
  rw [retyped,retyped]
  unfold copyStore
  rw [lift_bind_run (type_run here),lift_bind_run (type_run here)]
  cases y with
  | null | int | real => rfl
  | text s => exact absurd rfl scalar.1
  | blob s => exact absurd rfl scalar.2

end failing

def Copied (v : Value) : Prop := v.getType = .text ∨ v.getType = .blob

theorem copied_member {v : Value} (copied : Copied v) : ∃ member : Member, v.getType = member.kind := by
  rcases copied with text | blob
  · exact ⟨.textval,text⟩
  · exact ⟨.blobval,blob⟩

/-- The new tag is written after the copy was made. -/
def Assignment.tagsLast : Assignment → Prop
  | copy _ _ => False
  | _ => True

section usable
variable {copying : Copying} {h : Heap} {values : Values} {op : Assignment} {x y : Value}

theorem usable_unchanged (shows : Shows h values.places) {a : Nat} (here : values a = some x) : Usable values a h :=
  ⟨x,by rwa [← here,Function.update_eq_self]⟩

theorem operation_means (here : values op.target = some x) (given : op.source values = some y) :
    values.after op.operation = some (none,Function.update values op.target (some y)) := by
  cases op with
  | copy a b =>
    have source : values b = some y := given
    have target : values a = some x := here
    simp [Assignment.operation,Values.after,Values.set,source,target,Assignment.target]
  | text a val =>
    obtain ⟨s,value,rfl⟩ := Option.map_eq_some_iff.mp given
    have target : values a = some x := here
    simp [Assignment.operation,Values.after,Values.set,value,target,Assignment.target]
  | blob a val =>
    obtain ⟨s,value,rfl⟩ := Option.map_eq_some_iff.mp given
    have target : values a = some x := here
    simp [Assignment.operation,Values.after,Values.set,value,target,Assignment.target]

theorem succeeds_usable (succeeds : copying.fails = false) (shows : Shows h values.places)
    (here : values op.target = some x) (given : op.source values = some y) :
    ∃ u, op.run copying h = some (.ok (),u) ∧ Usable values op.target u := by
  obtain ⟨u,ran,shown⟩ := @run_shows _ _ _ id _ shows _ (operation_means here given)
  exact ⟨u,run_lifts succeeds id ran,y,shown⟩

/-- When the copy throws, it was made in place, or before the new tag and into storage that has kept its number. -/
def Harmless (copying : Copying) (op : Assignment) (x y : Value) : Prop :=
  copying.fails = true → Copied y → x.getType = y.getType ∨ op.tagsLast ∧ copying.Spares x

theorem harmless_bytes (fails : copying.fails = true) (copied : Copied y) (last : op.tagsLast) :
    Harmless copying op x y ↔ x.getType = y.getType ∨ copying.Spares x := by
  simp only [Harmless,fails,copied,last,true_and,forall_const]

theorem copy_usable_iff (fails : copying.fails = true) (shows : Shows h values.places) {a b : Nat}
    (here : values a = some x) (there : values b = some y) : ∃ result u,
    (Assignment.copy a b).run copying h = some (result,u) ∧ (Usable values a u ↔ Harmless copying (.copy a b) x y) := by
  obtain ⟨o,found,holds⟩ := @Shows.some _ _ (.object a) _ shows here
  obtain ⟨p,read,its⟩ := @Shows.some _ _ (.object b) _ shows there
  by_cases copied : Copied y
  · obtain ⟨member,kind⟩ := copied_member copied
    by_cases same : x.getType = y.getType
    · have threw := copyAssign_fails_inside fails found holds read its kind same
      exact ⟨_,h,threw,iff_of_true (usable_unchanged shows here) fun _ _ => .inl same⟩
    · obtain ⟨u,store,threw,objects,plain⟩ := copyAssign_fails fails found holds read its kind same
      refine ⟨_,u,threw,iff_of_false ?_ ?_⟩
      · rw [usable_iff_tagged shows objects]
        exact not_tagged plain
      · intro harmless
        rcases harmless fails copied with equal | ⟨last,_⟩
        · exact same equal
        · exact last
  · have scalar := not_or.mp copied
    obtain ⟨u,ran,usable⟩ := @succeeds_usable {copying with fails := false} h values (.copy a b) x y rfl shows here there
    refine ⟨.ok (),u,?_,iff_of_true usable fun _ content => absurd content copied⟩
    exact (copyAssign_scalar found holds read its scalar).trans ran

theorem bytes_usable_iff (fails : copying.fails = true) (shows : Shows h values.places) {a : Nat} (member : Member)
    {val : Operand Bytes} {s : Bytes} (here : values a = some x)
    (reads : val.Reads (Operand.bytes member) member.kind h s) : ∃ result u,
    assignBytes copying (.object a) member val h = some (result,u) ∧
      (Usable values a u ↔ x.getType = member.kind ∨ copying.Spares x) := by
  obtain ⟨o,found,holds⟩ := @Shows.some _ _ (.object a) _ shows here
  by_cases same : x.getType = member.kind
  · have threw := assignBytes_fails_inside fails reads found holds same
    exact ⟨_,h,threw,iff_of_true (usable_unchanged shows here) (.inl same)⟩
  · obtain ⟨u,store,threw,objects,plain,kept⟩ := assignBytes_fails fails reads found holds same
    refine ⟨_,u,threw,?_⟩
    rw [usable_iff_tagged shows objects,spared_iff holds plain kept]
    simp only [same,false_or]

end usable

/-- An assignment leaves the target usable exactly when no copy throws, or target and source are of one kind,
or the copy goes into a Value without a member of class type before that has its new tag. -/
theorem usable_iff {copying : Copying} {h : Heap} {values : Values} {op : Assignment} {x y : Value}
    (shows : Shows h values.places) (here : values op.target = some x) (given : op.source values = some y) :
    ∃ result u, op.run copying h = some (result,u) ∧ (Usable values op.target u ↔ Harmless copying op x y) := by
  cases fails : copying.fails with
  | false =>
    obtain ⟨u,ran,usable⟩ := succeeds_usable fails shows here given
    exact ⟨_,u,ran,iff_of_true usable fun throws => by simp [fails] at throws⟩
  | true =>
    cases op with
    | copy a b => exact copy_usable_iff fails shows here given
    | text a val =>
      obtain ⟨s,value,rfl⟩ := Option.map_eq_some_iff.mp given
      have reads := text_reads shows value
      obtain ⟨result,u,ran,usable⟩ := bytes_usable_iff fails shows .textval here reads
      have harmless := @harmless_bytes copying (.text a val) x (.text s) fails (.inl rfl) trivial
      exact ⟨result,u,ran,usable.trans harmless.symm⟩
    | blob a val =>
      obtain ⟨s,value,rfl⟩ := Option.map_eq_some_iff.mp given
      have reads := blob_reads shows value
      obtain ⟨result,u,ran,usable⟩ := bytes_usable_iff fails shows .blobval here reads
      have harmless := @harmless_bytes copying (.blob a val) x (.blob s) fails (.inr rfl) trivial
      exact ⟨result,u,ran,usable.trans harmless.symm⟩

/-- No memory is left, and of a number whose storage was reused nothing either. -/
def outOfMemory : Copying := ⟨true,fun _ => .raw,fun _ _ => rfl⟩

theorem usable_iff_null : ∃ h result u, (Operation.default 0).run id .empty = some (none,h) ∧
    (Assignment.text 0 (.given [7])).run outOfMemory h = some (result,u) ∧
    Usable (Function.update (fun _ => none) 0 (some .null)) 0 u := by
  obtain ⟨h,made,shows⟩ := @run_shows _ _ _ id _ empty_shows (.default 0) rfl
  obtain ⟨result,u,ran,usable⟩ := @usable_iff outOfMemory h _ (.text 0 (.given [7])) .null (.text [7]) shows rfl rfl
  exact ⟨h,result,u,made,ran,usable.mpr fun _ _ => .inr ⟨trivial,trivial⟩⟩

/-- A Text copied to a Null Value, and a string assigned to a Blob: the tag names a member that is not alive,
and the destructor would destroy it. -/
theorem usable_fails :
    (∃ outs h u, Library.Machine.runAll (step id) ([],.empty) [.default 0,.text 1 [7]] = some (outs,h) ∧
      (Assignment.copy 0 1).run outOfMemory h = some (.error .thrown,u) ∧ type (.object 0) u = some (.text,u) ∧
      alive u.objects (.object 0) = none ∧ destruct (.object 0) u = none) ∧
    ∃ outs h u, Library.Machine.runAll (step id) ([],.empty) [.blob 0 [7]] = some (outs,h) ∧
      (Assignment.text 0 (.given [1])).run outOfMemory h = some (.error .thrown,u) ∧
      type (.object 0) u = some (.blob,u) ∧ alive u.objects (.object 0) = none ∧ destruct (.object 0) u = none :=
  ⟨⟨_,_,_,rfl,rfl,rfl,rfl,rfl⟩,⟨_,_,_,rfl,rfl,rfl,rfl,rfl⟩⟩

end Sl3.FailingCopies
