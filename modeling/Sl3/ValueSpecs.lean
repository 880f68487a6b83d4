import Sl3.ValueMemory

/-! What each member function of the tagged union does to the value that an object
holds, for all pairs of kinds and for operands that are one object. -/
namespace Sl3.ValueObjects

/-- The member that a value of the sum type needs, with that content. -/
def Store.Has : Store → Value → Prop
  | store,.null => store.id = none
  | store,.int n => store = .intval n
  | store,.real x => store = .realval x
  | store,.text s => ∃ id, store = .object .textval id s
  | store,.blob s => ∃ id, store = .object .blobval id s

def Member.value : Member → Bytes → Value
  | .textval,s => .text s
  | .blobval,s => .blob s

def Object.Holds (o : Object) (v : Value) : Prop := o.type = v.getType ∧ o.store.Has v

/-- The objects hold the values of the sum type, place by place. -/
def Shows (h : Heap) (values : Place → Option Value) : Prop :=
  ∀ place, Option.Rel Object.Holds (h.objects place) (values place)

section spec
variable {h u : Heap} {values : Place → Option Value} {this other : Place} {x y : Value} {o p : Object}
  {store : Store} {t : ValueType}

theorem Shows.some (shows : Shows h values) (here : values this = some x) :
    ∃ o, h.objects this = .some o ∧ o.Holds x := by
  have there := shows this
  rw [here] at there
  cases found : h.objects this with
  | none => simp [found] at there
  | some o => exact ⟨o,rfl,by simpa [found] using there⟩

theorem Shows.none (shows : Shows h values) (free : values this = none) : h.objects this = .none := by
  have there := shows this
  rw [free] at there
  cases found : h.objects this with
  | none => rfl
  | some o => simp [found] at there

theorem Shows.update (shows : Shows h values) {o : Option Object} {v : Option Value}
    (changed : u.objects = Function.update h.objects this o) (holds : Option.Rel Object.Holds o v) :
    Shows u (Function.update values this v) := by
  intro place
  rw [changed]
  by_cases same : place = this
  · subst same
    simpa using holds
  · simpa [same] using shows place

theorem Store.Has.plain (has : store.Has x) (scalar : x.getType ≠ .text ∧ x.getType ≠ .blob) : store.id = .none := by
  cases x with
  | null => exact has
  | int n => rw [show store = .intval n from has]; rfl
  | real r => rw [show store = .realval r from has]; rfl
  | text s => exact absurd rfl scalar.1
  | blob s => exact absurd rfl scalar.2

theorem Object.Holds.object {member : Member} (holds : o.Holds x) (kind : x.getType = member.kind) :
    ∃ id s, o = ⟨member.kind,.object member id s⟩ ∧ x = member.value s := by
  obtain ⟨type,store⟩ := o
  obtain ⟨tag,has⟩ := holds
  obtain rfl : type = member.kind := tag.trans kind
  cases member <;> cases x <;> simp only [Value.getType,Member.kind,reduceCtorEq] at kind
  · obtain ⟨id,rfl⟩ := has
    exact ⟨id,_,rfl,rfl⟩
  · obtain ⟨id,rfl⟩ := has
    exact ⟨id,_,rfl,rfl⟩

theorem holds_object (member : Member) (id : Nat) (s : Bytes) :
    Object.Holds ⟨member.kind,.object member id s⟩ (member.value s) := by
  cases member <;> exact ⟨rfl,id,rfl⟩

theorem clear_run (here : h.objects this = .some o) (holds : o.Holds x) :
    ∃ u store, clear this h = .some ((),u) ∧ u.objects = Function.update h.objects this (.some ⟨o.type,store⟩) ∧
      store.id = .none ∧ (o.store.id = .none → store = o.store) := by
  obtain ⟨tag,has⟩ := holds
  obtain ⟨_,store⟩ := o
  cases tag
  unfold clear
  rw [bind_run _ (type_run here)]
  cases x with
  | text s =>
    obtain ⟨id,rfl⟩ := has
    obtain ⟨u,ran,objects⟩ := destroy_run here
    exact ⟨u,.raw,ran,objects,rfl,fun plain => by cases plain⟩
  | blob s =>
    obtain ⟨id,rfl⟩ := has
    obtain ⟨u,ran,objects⟩ := destroy_run here
    exact ⟨u,.raw,ran,objects,rfl,fun plain => by cases plain⟩
  | null | int | real =>
    exact ⟨h,store,rfl,by rw [← here,Function.update_eq_self],Store.Has.plain has ⟨nofun,nofun⟩,fun _ => rfl⟩

theorem copyStore_run (here : h.objects this = .some ⟨y.getType,store⟩) (plain : store.id = .none)
    (there : h.objects other = .some p) (has : p.store.Has y) :
    ∃ u store, copyStore this other h = .some ((),u) ∧
      u.objects = Function.update h.objects this (.some ⟨y.getType,store⟩) ∧ store.Has y := by
  obtain ⟨type,kept⟩ := p
  unfold copyStore
  rw [bind_run _ (type_run here)]
  cases y with
  | null => exact ⟨h,store,rfl,by rw [← here,Function.update_eq_self],plain⟩
  | int n =>
    cases has
    obtain ⟨u,ran,objects⟩ := @write_run _ _ _ here plain (.intval n) rfl
    have read : intval other h = .some (n,h) := by simp [intval,there]
    exact ⟨u,_,(bind_run _ read).trans ran,objects,rfl⟩
  | real r =>
    cases has
    obtain ⟨u,ran,objects⟩ := @write_run _ _ _ here plain (.realval r) rfl
    have read : realval other h = .some (r,h) := by simp [realval,there]
    exact ⟨u,_,(bind_run _ read).trans ran,objects,rfl⟩
  | text s =>
    obtain ⟨id,rfl⟩ := has
    obtain ⟨u,id',ran,objects⟩ := create_run here plain .textval s
    exact ⟨u,_,(bind_run _ (content_run there)).trans ran,objects,id',rfl⟩
  | blob s =>
    obtain ⟨id,rfl⟩ := has
    obtain ⟨u,id',ran,objects⟩ := create_run here plain .blobval s
    exact ⟨u,_,(bind_run _ (content_run there)).trans ran,objects,id',rfl⟩

theorem setNull_run (shows : Shows h values) (here : values this = .some x) :
    ∃ u, setNull this h = .some ((),u) ∧ Shows u (Function.update values this (.some .null)) := by
  obtain ⟨o,found,holds⟩ := shows.some here
  obtain ⟨u,store,cleared,objects,plain,_⟩ := clear_run found holds
  obtain ⟨v,ran,objects'⟩ := setType_run (by rw [objects,Function.update_self]) .null
  have changed : v.objects = Function.update h.objects this (.some ⟨.null,store⟩) := by
    rw [objects',objects,Function.update_idem]
  exact ⟨v,(bind_run _ cleared).trans ran,shows.update changed (.some ⟨rfl,plain⟩)⟩

theorem destruct_run (shows : Shows h values) (here : values this = .some x) :
    ∃ u, destruct this h = .some ((),u) ∧ Shows u (Function.update values this .none) := by
  obtain ⟨o,found,holds⟩ := shows.some here
  obtain ⟨u,store,cleared,objects,plain,_⟩ := clear_run found holds
  obtain ⟨v,ran,objects'⟩ := release_run (by rw [objects,Function.update_self]) plain
  have changed : v.objects = Function.update h.objects this .none := by
    rw [objects',objects,Function.update_idem]
  exact ⟨v,(bind_run _ cleared).trans ran,shows.update changed .none⟩

/-- A new Value does not touch the one that it is constructed from. -/
theorem allocate_beside (shows : Shows h values) (free : values this = .none) (found : h.objects other = .some p)
    (t : ValueType) : ∃ u, allocate this t h = .some ((),u) ∧
      u.objects = Function.update h.objects this (.some ⟨t,.raw⟩) ∧ other ≠ this ∧
      u.objects this = .some ⟨t,.raw⟩ ∧ u.objects other = .some p := by
  have unused := shows.none free
  obtain ⟨u,allocated,objects⟩ := allocate_run unused t
  have differ : other ≠ this := by
    rintro rfl
    simp [unused] at found
  exact ⟨u,allocated,objects,differ,by rw [objects,Function.update_self],by rw [objects,Function.update_of_ne differ,found]⟩

theorem copyConstruct_run (shows : Shows h values) (free : values this = .none) (there : values other = .some y) :
    ∃ u, copyConstruct this other h = .some ((),u) ∧ Shows u (Function.update values this (.some y)) := by
  obtain ⟨p,found,tag,has⟩ := shows.some there
  obtain ⟨u,allocated,objects,_,here,read⟩ := allocate_beside shows free found y.getType
  obtain ⟨v,store,ran,objects',holds⟩ := copyStore_run here rfl read has
  have changed : v.objects = Function.update h.objects this (.some ⟨y.getType,store⟩) := by
    rw [objects',objects,Function.update_idem]
  refine ⟨v,?_,shows.update changed (.some ⟨rfl,holds⟩)⟩
  unfold copyConstruct
  rw [bind_run _ (type_run found),tag,bind_run _ allocated]
  exact ran

/-- The end of both assignments when the two Values are not of one class type. -/
theorem retype_run (found : h.objects this = .some o) (holds : o.Holds x) (there : h.objects other = .some p)
    (tag : p.type = y.getType) (has : p.store.Has y) (apart : other = this → o.store.id = .none) :
    ∃ u store q, (do clear this; setType this (← type other)) h = .some ((),u) ∧
      u.objects = Function.update h.objects this (.some ⟨y.getType,store⟩) ∧ store.id = .none ∧
      u.objects other = .some q ∧ q.type = y.getType ∧ q.store.Has y := by
  obtain ⟨u,store,cleared,objects,plain,same⟩ := clear_run found holds
  have here : u.objects this = .some ⟨o.type,store⟩ := by rw [objects,Function.update_self]
  have kept : other = this → store = p.store ∧ o.type = p.type := by
    rintro rfl
    cases found.symm.trans there
    exact ⟨same (apart rfl),rfl⟩
  have read : u.objects other = .some p := by
    rw [objects]
    by_cases one : other = this
    · obtain ⟨rfl,type⟩ := kept one
      rw [one,Function.update_self,type]
    · rw [Function.update_of_ne one,there]
  obtain ⟨v,ran,objects'⟩ := setType_run here p.type
  rw [objects,Function.update_idem] at objects'
  refine ⟨v,store,p,?_,?_,plain,?_,tag,has⟩
  · rw [bind_run _ cleared,bind_run _ (type_run read)]
    exact ran
  · rw [objects',tag]
  · rw [objects']
    by_cases one : other = this
    · obtain ⟨rfl,_⟩ := kept one
      rw [one,Function.update_self]
    · rw [Function.update_of_ne one,there]

theorem setContent_shows (shows : Shows h values) {member : Member} (here : values this = .some x)
    (kind : x.getType = member.kind) (new : Bytes) :
    ∃ u, setContent this member new h = .some ((),u) ∧
      Shows u (Function.update values this (.some (member.value new))) := by
  obtain ⟨o,found,holds⟩ := shows.some here
  obtain ⟨id,s,rfl,rfl⟩ := holds.object kind
  obtain ⟨u,ran,objects⟩ := setContent_run found new
  exact ⟨u,ran,shows.update objects (.some (holds_object member id new))⟩

theorem content_shows (shows : Shows h values) {member : Member} (here : values this = .some x)
    (kind : x.getType = member.kind) : ∃ s, content this member h = .some (s,h) ∧ x = member.value s := by
  obtain ⟨o,found,holds⟩ := shows.some here
  obtain ⟨id,s,rfl,rfl⟩ := holds.object kind
  exact ⟨s,content_run found,rfl⟩

/-- Both assignments split alike: within one class type, from wherever, or retyping the target. -/
theorem assign_cases (post : Access Unit → Prop) (body : Member → Access Unit) {retype : Access Unit} (holds : o.Holds x)
    (one : other = this → x = y)
    (within : ∀ member : Member, x.getType = member.kind → y.getType = member.kind → post (body member))
    (apart : (other = this → o.store.id = .none) → post retype) :
    post (if x.getType = .text ∧ y.getType = .text then body .textval
      else if x.getType = .blob ∧ y.getType = .blob then body .blobval else retype) := by
  by_cases texts : x.getType = .text ∧ y.getType = .text
  · rw [if_pos texts]
    exact within .textval texts.1 texts.2
  rw [if_neg texts]
  by_cases blobs : x.getType = .blob ∧ y.getType = .blob
  · rw [if_pos blobs]
    exact within .blobval blobs.1 blobs.2
  · rw [if_neg blobs]
    apply apart
    intro same
    cases one same
    exact holds.2.plain ⟨fun text => texts ⟨text,text⟩,fun blob => blobs ⟨blob,blob⟩⟩

theorem copyAssign_run (shows : Shows h values) (here : values this = .some x) (there : values other = .some y) :
    ∃ u, copyAssign this other h = .some ((),u) ∧ Shows u (Function.update values this (.some y)) := by
  obtain ⟨o,found,holds⟩ := shows.some here
  obtain ⟨p,read,tag,has⟩ := shows.some there
  unfold copyAssign
  rw [bind_run _ (type_run found),bind_run _ (type_run read),holds.1,tag]
  have one : other = this → x = y := by
    rintro rfl
    exact Option.some.inj (here.symm.trans there)
  apply assign_cases (fun run => ∃ u, run h = .some ((),u) ∧ Shows u (Function.update values this (.some y)))
    (fun member => do setContent this member (← content other member)) holds one
  · intro member kind kind'
    obtain ⟨s,ran,rfl⟩ := content_shows shows there kind'
    rw [bind_run _ ran]
    exact setContent_shows shows here kind s
  · intro apart
    obtain ⟨u,store,q,ran,objects,plain,read,tag',has'⟩ := retype_run found holds read tag has apart
    obtain ⟨v,store',copied,objects',holds'⟩ :=
      copyStore_run (by rw [objects,Function.update_self]) plain read has'
    have changed : v.objects = Function.update h.objects this (.some ⟨y.getType,store'⟩) := by
      rw [objects',objects,Function.update_idem]
    refine ⟨v,?_,shows.update changed (.some ⟨rfl,holds'⟩)⟩
    rw [← copied,← bind_run (fun _ => copyStore this other) ran]
    simp only [bind_assoc]

section move
variable {movedFrom : Bytes → Bytes} {member : Member}

theorem takeContent_run {id : Nat} {s : Bytes} (there : h.objects other = .some ⟨t,.object member id s⟩) :
    ∃ u, takeContent other movedFrom member h = .some (s,u) ∧
      u.objects = Function.update h.objects other (.some ⟨t,.object member id (movedFrom s)⟩) := by
  obtain ⟨u,ran,objects⟩ := setContent_run there (movedFrom s)
  refine ⟨u,?_,objects⟩
  unfold takeContent
  rw [bind_run _ (content_run there),bind_run _ ran]
  rfl

theorem moveMember_run (here : h.objects this = .some ⟨t,store⟩) (plain : store.id = .none) {t' : ValueType}
    {id : Nat} {s : Bytes} (there : h.objects other = .some ⟨t',.object member id s⟩) :
    ∃ u id', (do create this member (← takeContent other movedFrom member); destroy other member) h =
        .some ((),u) ∧
      u.objects = Function.update (Function.update h.objects this (.some ⟨t,.object member id' s⟩)) other
        (.some ⟨t',.raw⟩) := by
  have differ : this ≠ other := by
    rintro rfl
    cases here.symm.trans there
    cases plain
  obtain ⟨u,taken,objects⟩ := @takeContent_run h other t' movedFrom member id s there
  have here' : u.objects this = .some ⟨t,store⟩ := by rw [objects,Function.update_of_ne differ,here]
  obtain ⟨v,id',created,objects'⟩ := create_run here' plain member s
  have there' : v.objects other = .some ⟨t',.object member id (movedFrom s)⟩ := by
    rw [objects',Function.update_of_ne differ.symm,objects,Function.update_self]
  obtain ⟨w,destroyed,objects''⟩ := destroy_run there'
  refine ⟨w,id',?_,?_⟩
  · rw [bind_run _ taken,bind_run _ created]
    exact destroyed
  · rw [objects'',objects',objects,Function.update_comm differ,Function.update_idem,Function.update_comm differ.symm]

/-- A move leaves nothing with a destructor behind. -/
theorem moveStore_run (here : h.objects this = .some ⟨y.getType,store⟩) (plain : store.id = .none)
    (there : h.objects other = .some p) (holds : p.Holds y) :
    ∃ u store q, moveStore this other movedFrom h = .some ((),u) ∧
      u.objects = Function.update (Function.update h.objects this (.some ⟨y.getType,store⟩)) other (.some q) ∧
      store.Has y ∧ q.store.id = .none := by
  have scalar (scalars : y.getType ≠ .text ∧ y.getType ≠ .blob)
      (same : moveStore this other movedFrom h = copyStore this other h) :
      ∃ u store q, moveStore this other movedFrom h = .some ((),u) ∧
        u.objects = Function.update (Function.update h.objects this (.some ⟨y.getType,store⟩)) other (.some q) ∧
        store.Has y ∧ q.store.id = .none := by
    obtain ⟨u,store',ran,objects,has⟩ := copyStore_run here plain there holds.2
    by_cases one : other = this
    · subst one
      exact ⟨u,store',⟨y.getType,store'⟩,same.trans ran,by rw [objects,Function.update_idem],has,has.plain scalars⟩
    · refine ⟨u,store',p,same.trans ran,?_,has,holds.2.plain scalars⟩
      rw [objects,← there]
      conv_rhs => rw [← Function.update_of_ne one (.some ⟨y.getType,store'⟩) h.objects]
      rw [Function.update_eq_self]
  have object (member : Member) (kind : y.getType = member.kind)
      (same : moveStore this other movedFrom h =
        (do create this member (← takeContent other movedFrom member); destroy other member) h) :
      ∃ u store q, moveStore this other movedFrom h = .some ((),u) ∧
        u.objects = Function.update (Function.update h.objects this (.some ⟨y.getType,store⟩)) other (.some q) ∧
        store.Has y ∧ q.store.id = .none := by
    obtain ⟨id,s,rfl,rfl⟩ := holds.object kind
    obtain ⟨u,id',ran,objects⟩ := @moveMember_run h this other store _ movedFrom member here plain _ _ _ there
    exact ⟨u,_,_,same.trans ran,objects,(holds_object member id' s).2,rfl⟩
  cases y with
  | null | int | real =>
    apply scalar ⟨nofun,nofun⟩
    unfold moveStore copyStore
    rw [bind_run _ (type_run here),bind_run _ (type_run here)]
    rfl
  | text s =>
    apply object .textval rfl
    unfold moveStore
    rw [bind_run _ (type_run here)]
    rfl
  | blob s =>
    apply object .blobval rfl
    unfold moveStore
    rw [bind_run _ (type_run here)]
    rfl

theorem moved (shows : Shows h values) {objects : Place → Option Object} {q : Object}
    (changed : objects = Function.update (Function.update h.objects this (.some ⟨y.getType,store⟩)) other (.some q))
    (has : store.Has y) (plain : q.store.id = .none) (final : u.objects = Function.update objects other
      (.some ⟨.null,q.store⟩)) :
    Shows u (Function.update (Function.update values this (.some y)) other (.some .null)) := by
  intro place
  rw [final,changed,Function.update_idem]
  by_cases source : place = other
  · subst source
    simpa using ⟨rfl,plain⟩
  by_cases target : place = this
  · subst target
    simpa [source] using ⟨rfl,has⟩
  · simpa [source,target] using shows place

theorem moveConstruct_run (shows : Shows h values) (free : values this = .none) (there : values other = .some y) :
    ∃ u, moveConstruct this other movedFrom h = .some ((),u) ∧
      Shows u (Function.update (Function.update values this (.some y)) other (.some .null)) := by
  obtain ⟨p,found,holds⟩ := shows.some there
  obtain ⟨u,allocated,objects,differ,here,_⟩ := allocate_beside shows free found y.getType
  obtain ⟨v,written,objects'⟩ := @write_run _ _ _ here rfl (.intval 0) rfl
  rw [objects,Function.update_idem] at objects'
  have here' : v.objects this = .some ⟨y.getType,.intval 0⟩ := by rw [objects',Function.update_self]
  have read : v.objects other = .some p := by rw [objects',Function.update_of_ne differ,found]
  obtain ⟨w,store,q,ran,objects'',has,plain⟩ := @moveStore_run _ _ _ _ _ _ movedFrom here' rfl read holds
  rw [objects',Function.update_idem] at objects''
  obtain ⟨z,nulled,final⟩ := setType_run (show w.objects other = .some q by rw [objects'',Function.update_self]) .null
  refine ⟨z,?_,moved shows objects'' has plain final⟩
  unfold moveConstruct
  rw [bind_run _ (type_run found),holds.1,bind_run _ allocated,bind_run _ written,bind_run _ ran]
  exact nulled

theorem moveContent_run (shows : Shows h values) (here : values this = .some x) (there : values other = .some y)
    (kind : x.getType = member.kind) (kind' : y.getType = member.kind) :
    ∃ u rest, moveContent this other movedFrom member h = .some ((),u) ∧
      Shows u (Function.update (Function.update values this (.some y)) other (.some rest)) := by
  obtain ⟨s,read,rfl⟩ := content_shows shows there kind'
  obtain ⟨u,taken,left⟩ := setContent_shows shows there kind' (movedFrom s)
  unfold moveContent
  have take : takeContent other movedFrom member h = .some (s,u) := by
    unfold takeContent
    rw [bind_run _ read,bind_run _ taken]
    rfl
  rw [bind_run _ take]
  by_cases one : this = other
  · subst one
    exact ⟨u,_,by rw [if_pos rfl]; rfl,by rwa [Function.update_idem]⟩
  · rw [if_neg one]
    obtain ⟨v,ran,both⟩ := setContent_shows left ((Function.update_of_ne one _ _).trans here) kind s
    rw [Function.update_comm (Ne.symm one)] at both
    exact ⟨v,_,ran,both⟩

theorem moveAssign_run (shows : Shows h values) (here : values this = .some x) (there : values other = .some y) :
    ∃ u, moveAssign this other movedFrom h = .some ((),u) ∧
      Shows u (Function.update (Function.update values this (.some y)) other (.some .null)) := by
  obtain ⟨o,found,holds⟩ := shows.some here
  obtain ⟨p,read,holds'⟩ := shows.some there
  unfold moveAssign
  rw [bind_run _ (type_run found),bind_run _ (type_run read),holds.1,holds'.1]
  have one : other = this → x = y := by
    rintro rfl
    exact Option.some.inj (here.symm.trans there)
  apply assign_cases (fun run => ∃ u, run h = .some ((),u) ∧
    Shows u (Function.update (Function.update values this (.some y)) other (.some .null)))
    (fun member => do moveContent this other movedFrom member; setNull other) holds one
  · intro member kind kind'
    obtain ⟨u,rest,ran,left⟩ := @moveContent_run _ _ _ _ _ _ movedFrom member shows here there kind kind'
    obtain ⟨v,nulled,final⟩ := setNull_run left (Function.update_self _ _ _)
    rw [Function.update_idem] at final
    exact ⟨v,(bind_run _ ran).trans nulled,final⟩
  · intro apart
    obtain ⟨u,store,q,ran,objects,plain,read,tag,has⟩ := retype_run found holds read holds'.1 holds'.2 apart
    obtain ⟨v,store',r,stored,objects',has',rest⟩ := @moveStore_run _ _ _ _ _ _ movedFrom
      (by rw [objects,Function.update_self]) plain read ⟨tag,has⟩
    rw [objects,Function.update_idem] at objects'
    obtain ⟨w,nulled,final⟩ :=
      setType_run (show v.objects other = .some r by rw [objects',Function.update_self]) .null
    refine ⟨w,?_,moved shows objects' has' rest final⟩
    rw [← nulled,← bind_run (fun _ => setType other .null) stored,
      ← bind_run (fun _ => (moveStore this other movedFrom >>= fun _ => setType other .null)) ran]
    simp only [bind_assoc]

end move

/-- What the payload of a Value is, read where the objects of that kind are as they were. -/
def Agree (kind : ValueType) (h u : Heap) : Prop :=
  ∀ place o, h.objects place = .some o → o.type = kind → u.objects place = .some o

theorem agree_cleared (found : h.objects this = .some o) (holds : o.Holds x) {kind : ValueType}
    (cleared : u.objects = Function.update h.objects this (.some ⟨o.type,store⟩))
    (same : o.store.id = .none → store = o.store)
    (unlike : o.type = kind → kind ≠ .text ∧ kind ≠ .blob) : Agree kind h u := by
  intro place p there type
  rw [cleared]
  by_cases one : place = this
  · subst one
    cases found.symm.trans there
    have scalar := unlike type
    rw [← type,holds.1] at scalar
    rw [Function.update_self,same (holds.2.plain scalar)]
  · rw [Function.update_of_ne one,there]

def Operand.Reads {α : Type} (read : Operand α → Access α) (kind : ValueType) (h : Heap) (val : Operand α)
    (a : α) : Prop :=
  ∀ u, Agree kind h u → read val u = .some (a,u)

theorem assignScalar_run (shows : Shows h values) (here : values this = .some x) {α : Type} {read : Access α} {a : α}
    {written : α → Store} (scalar : y.getType ≠ .text ∧ y.getType ≠ .blob) (has : (written a).Has y)
    (reads : ∀ u, Agree y.getType h u → read u = .some (a,u)) :
    ∃ u, (do clear this; write this (written (← read)); setType this y.getType) h = .some ((),u) ∧
      Shows u (Function.update values this (.some y)) := by
  obtain ⟨o,found,holds⟩ := shows.some here
  obtain ⟨u,store,cleared,objects,plain,same⟩ := clear_run found holds
  have value := reads u (agree_cleared found holds objects same fun _ => scalar)
  have here' : u.objects this = .some ⟨o.type,store⟩ := by rw [objects,Function.update_self]
  obtain ⟨v,wrote,objects'⟩ := write_run here' plain (has.plain scalar)
  rw [objects,Function.update_idem] at objects'
  obtain ⟨w,ran,objects''⟩ := setType_run (by rw [objects',Function.update_self]) y.getType
  have changed : w.objects = Function.update h.objects this (.some ⟨y.getType,written a⟩) := by
    rw [objects'',objects',Function.update_idem]
  refine ⟨w,?_,shows.update changed (.some ⟨rfl,has⟩)⟩
  rw [bind_run _ cleared,bind_run _ value,bind_run _ wrote]
  exact ran

theorem assignInt64_run (shows : Shows h values) (here : values this = .some x) {val : Operand Int64} {n : Int64}
    (reads : val.Reads Operand.int .int h n) :
    ∃ u, assignInt64 this val h = .some ((),u) ∧ Shows u (Function.update values this (.some (.int n))) :=
  @assignScalar_run _ _ _ _ (.int n) shows here _ val.int n .intval ⟨nofun,nofun⟩ rfl reads

theorem assignReal_run (shows : Shows h values) (here : values this = .some x) {val : Operand Double} {r : Double}
    (reads : val.Reads Operand.real .real h r) :
    ∃ u, assignReal this val h = .some ((),u) ∧ Shows u (Function.update values this (.some (.real r))) :=
  @assignScalar_run _ _ _ _ (.real r) shows here _ val.real r .realval ⟨nofun,nofun⟩ rfl reads

theorem assignBytes_run (shows : Shows h values) (here : values this = .some x) {member : Member}
    {val : Operand Bytes} {s : Bytes} (reads : val.Reads (Operand.bytes member) member.kind h s) :
    ∃ u, assignBytes this member val h = .some ((),u) ∧
      Shows u (Function.update values this (.some (member.value s))) := by
  obtain ⟨o,found,holds⟩ := shows.some here
  unfold assignBytes
  rw [bind_run _ (type_run found),holds.1]
  by_cases kind : x.getType = member.kind
  · rw [if_pos kind,bind_run _ (reads h fun _ _ found _ => found)]
    exact setContent_shows shows here kind s
  · rw [if_neg kind]
    obtain ⟨u,store,cleared,objects,plain,same⟩ := clear_run found holds
    have value := reads u (agree_cleared found holds objects same fun type => absurd (holds.1.symm.trans type) kind)
    have here' : u.objects this = .some ⟨o.type,store⟩ := by rw [objects,Function.update_self]
    obtain ⟨v,id,created,objects'⟩ := create_run here' plain member s
    rw [objects,Function.update_idem] at objects'
    obtain ⟨w,ran,objects''⟩ := setType_run (by rw [objects',Function.update_self]) member.kind
    have changed : w.objects = Function.update h.objects this (.some ⟨member.kind,.object member id s⟩) := by
      rw [objects'',objects',Function.update_idem]
    refine ⟨w,?_,shows.update changed (.some (holds_object member id s))⟩
    rw [bind_run _ cleared,bind_run _ value,bind_run _ created]
    exact ran

end spec

/-- `ejectText` and `ejectBlob` of the sum type. -/
def Member.ejected : Member → Value → Except Error Bytes × Value
  | .textval => Value.ejectText
  | .blobval => Value.ejectBlob

section spec
variable {h : Heap} {values : Place → Option Value} {this other : Place} {x y : Value} {movedFrom : Bytes → Bytes}

theorem eject_run (shows : Shows h values) (here : values this = .some x) (member : Member) :
    ∃ u, eject this movedFrom member h = .some ((member.ejected x).1,u) ∧
      Shows u (Function.update values this (.some (member.ejected x).2)) := by
  obtain ⟨o,found,holds⟩ := shows.some here
  unfold eject
  rw [bind_run _ (type_run found),holds.1]
  by_cases kind : x.getType = member.kind
  · have filled : x.getType ≠ .null := by
      rw [kind]
      cases member <;> decide
    rw [if_neg filled,if_neg (not_not.mpr kind)]
    obtain ⟨id,s,rfl,rfl⟩ := holds.object kind
    obtain ⟨u,taken,objects⟩ := @takeContent_run _ _ _ movedFrom member _ _ found
    obtain ⟨v,destroyed,objects'⟩ := destroy_run (by rw [objects,Function.update_self])
    obtain ⟨w,nulled,objects''⟩ := setType_run (by rw [objects',Function.update_self]) .null
    have changed : w.objects = Function.update h.objects this (.some ⟨.null,.raw⟩) := by
      rw [objects'',objects',objects,Function.update_idem,Function.update_idem]
    refine ⟨w,?_,?_⟩
    · rw [bind_run _ taken,bind_run _ destroyed,bind_run _ nulled]
      cases member <;> rfl
    · have null : (member.ejected (member.value s)).2 = .null := by cases member <;> rfl
      rw [null]
      exact shows.update changed (.some ⟨rfl,rfl⟩)
  · have kept : (member.ejected x).2 = x := by cases member <;> cases x <;> first | rfl | exact absurd rfl kind
    refine ⟨h,?_,by rwa [kept,← here,Function.update_eq_self]⟩
    cases member <;> cases x <;> first | rfl | exact absurd rfl kind

theorem swap_run (shows : Shows h values) (here : values this = .some x) (there : values other = .some y)
    (free : values .temporary = .none) :
    ∃ u, swap this other movedFrom h = .some ((),u) ∧
      Shows u (Function.update (Function.update values other (.some x)) this (.some y)) := by
  have differ : other ≠ .temporary := by
    rintro rfl
    simp [free] at there
  have differ' : this ≠ .temporary := by
    rintro rfl
    simp [free] at here
  obtain ⟨u,first,shows⟩ := @moveConstruct_run _ _ _ _ _ movedFrom shows free there
  have second' : ∃ x', Function.update (Function.update values .temporary (some y)) other (some .null) this = some x' ∧
      (this ≠ other → x' = x) := by
    by_cases one : this = other
    · exact ⟨.null,by simp [one],fun differ => absurd one differ⟩
    · exact ⟨x,by simp [one,differ',here],fun _ => rfl⟩
  obtain ⟨x',there',same⟩ := second'
  obtain ⟨v,second,shows⟩ := @moveAssign_run _ _ _ _ _ _ movedFrom shows (Function.update_self _ _ _) there'
  have kept : Function.update (Function.update (Function.update (Function.update values .temporary (some y)) other
      (some .null)) other (some x')) this (some .null) .temporary = some y := by
    simp [differ.symm,differ'.symm]
  obtain ⟨w,third,shows⟩ := @moveAssign_run _ _ _ _ _ _ movedFrom shows (Function.update_self _ _ _) kept
  obtain ⟨z,last,shows⟩ := destruct_run shows (Function.update_self _ _ _)
  refine ⟨z,?_,?_⟩
  · unfold swap
    rw [bind_run _ first,bind_run _ second,bind_run _ third]
    exact last
  · convert shows using 1
    ext1 place
    by_cases one : place = .temporary
    · simp [one,differ.symm,differ'.symm,free]
    by_cases target : place = this
    · simp [target,differ']
    by_cases source : place = other
    · subst source
      simp [target,differ,same (Ne.symm target)]
    · simp [one,target,source]

end spec

end Sl3.ValueObjects
