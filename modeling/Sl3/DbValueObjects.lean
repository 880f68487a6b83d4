import Sl3.DbValue

/-! Runs over any number of `DbValue` objects. Objects refer to each other by index,
so an assignment may have the same object on both sides. -/
namespace Sl3.DbValueObjects
open DbValue

abbrev Objects := List DbValue

def on {α : Type} (target : Nat) (method : Method DbValue α) : Method Objects Unit := fun objects =>
  match objects[target]? with
  | none => .ok () objects
  | some d =>
    match method d with
    | .ok _ changed => .ok () (objects.set target changed)
    | .error e changed => .error e (objects.set target changed)

def construct (made : Except Error DbValue) : Method Objects Unit := fun objects =>
  match made with
  | .ok d => .ok () (objects ++ [d])
  | .error e => .error e objects

def copyConstruct (source : Nat) : Method Objects Unit := fun objects =>
  match objects[source]? with
  | none => .ok () objects
  | some other => .ok () (objects ++ [other])

def moveConstruct (source : Nat) : Method Objects Unit := fun objects =>
  match objects[source]? with
  | none => .ok () objects
  | some other => .ok () (objects.set source {other with value := .null} ++ [other])

def copyAssign (target source : Nat) : Method Objects Unit := fun objects =>
  match objects[target]?,objects[source]? with
  | some d,some other =>
    if d.canAssign other then .ok () (objects.set target (d.assign other))
    else .error (d.cannotAssign other) objects
  | _,_ => .ok () objects

/-- The value is moved: the target gets it first, then the source becomes Null,
which on one and the same object leaves Null. -/
def moveAssign (target source : Nat) : Method Objects Unit := fun objects =>
  match objects[target]?,objects[source]? with
  | some d,some other =>
    if d.canAssign other then
      .ok () ((objects.set target (d.assign other)).modify source fun o => {o with value := .null})
    else .error (d.cannotAssign other) objects
  | _,_ => .ok () objects

/-- The public operations. `operator=` of a payload calls the `set` of its type,
and `operator= (const char*)` assigns the `std::string` it makes. -/
inductive Operation where
  | ofType (type : ValueType)
  | ofInt (val : Int32) (type : ValueType)
  | ofInt64 (val : Int64) (type : ValueType)
  | ofText (val : Bytes) (type : ValueType)
  | ofReal (val : Double) (type : ValueType)
  | ofBlob (val : Bytes) (type : ValueType)
  | copyConstruct (source : Nat)
  | moveConstruct (source : Nat)
  | copyAssign (target source : Nat)
  | moveAssign (target source : Nat)
  | setInt (target : Nat) (val : Int32)
  | setInt64 (target : Nat) (val : Int64)
  | setReal (target : Nat) (val : Double)
  | setText (target : Nat) (val : Bytes)
  | setBlob (target : Nat) (val : Bytes)
  | assignValue (target : Nat) (val : Value)
  | setNull (target : Nat)
  | ejectText (target : Nat)
  | ejectBlob (target : Nat)

namespace Operation

def run : Operation → Method Objects Unit
  | ofType type => construct (.ok (DbValue.ofType type))
  | ofInt val type => construct (DbValue.ofInt val type)
  | ofInt64 val type => construct (DbValue.ofInt64 val type)
  | ofText val type => construct (DbValue.ofText val type)
  | ofReal val type => construct (DbValue.ofReal val type)
  | ofBlob val type => construct (DbValue.ofBlob val type)
  | copyConstruct source => DbValueObjects.copyConstruct source
  | moveConstruct source => DbValueObjects.moveConstruct source
  | copyAssign target source => DbValueObjects.copyAssign target source
  | moveAssign target source => DbValueObjects.moveAssign target source
  | setInt target val => on target (DbValue.setInt val)
  | setInt64 target val => on target (DbValue.setInt64 val)
  | setReal target val => on target (DbValue.setReal val)
  | setText target val => on target (DbValue.setText val)
  | setBlob target val => on target (DbValue.setBlob val)
  | assignValue target val => on target (DbValue.assignValue val)
  | setNull target => on target DbValue.setNull
  | ejectText target => on target DbValue.ejectText
  | ejectBlob target => on target DbValue.ejectBlob

def after (op : Operation) (objects : Objects) : Objects :=
  match op.run objects with
  | .ok _ changed => changed
  | .error _ changed => changed

end Operation

def runAll (operations : List Operation) (objects : Objects) : Objects :=
  operations.foldl (fun objects op => op.after objects) objects

def Keeps {α : Type} (method : Method DbValue α) : Prop :=
  ∀ d, match method d with
    | .ok _ changed => changed.dbtype = d.dbtype ∧ (d.TypeRule → changed.TypeRule)
    | .error e changed => changed = d ∧ (e.getId = .typeMisMatch ∨ e.getId = .nullValueAccess)

theorem get_bind {α : Type} (next : DbValue → Method DbValue α) (d : DbValue) : (get >>= next) d = next d d := rfl

theorem store_allowed {kind : ValueType} {d : DbValue} (allowed : d.dbtype ∈ [kind,.variant]) (payload : Value) :
    store kind payload d = .ok () {d with value := payload} := by
  simp only [store,get_bind,ensureOneOf,allowed,if_true]
  rfl

theorem store_refused {kind : ValueType} {d : DbValue} (refused : d.dbtype ∉ [kind,.variant]) (payload : Value) :
    store kind payload d = .error (errTypeMisMatch (d.dbtype.typeName ++ " not one of required types")) d := by
  simp only [store,get_bind,ensureOneOf,refused,if_false]
  rfl

theorem store_keeps (kind : ValueType) (payload : Value)
    (own : payload.getType = kind) : Keeps (store kind payload) := by
  intro d
  by_cases allowed : d.dbtype ∈ [kind,.variant]
  · rw [store_allowed allowed]
    refine ⟨rfl,fun rule => ⟨rule.1,?_⟩⟩
    rcases List.mem_cons.mp allowed with same | variant
    · exact .inr (.inl (own.trans same.symm))
    · exact .inr (.inr (List.mem_singleton.mp variant))
  · rw [store_refused allowed]
    exact ⟨rfl,.inl rfl⟩

theorem setInt_keeps (val : Int32) : Keeps (setInt val) := by
  intro d
  by_cases real : d.dbtype = .real
  · have ran : setInt val d = setReal (Double.ofInt64 val.toInt64) d := by
      simp only [setInt,get_bind,real,if_true]
    rw [ran]
    exact store_keeps .real _ rfl d
  · have ran : setInt val d = setInt64 val.toInt64 d := by
      simp only [setInt,get_bind,real,if_false]
    rw [ran]
    exact store_keeps .int _ rfl d

theorem setNull_keeps : Keeps setNull := fun _ => ⟨rfl,fun rule => ⟨rule.1,.inl rfl⟩⟩

theorem eject_keeps {taken : Value → Except Error Bytes × Value}
    (exact : ∀ v, (∃ bytes, taken v = (.ok bytes,.null)) ∨
      ∃ e : Error, taken v = (.error e,v) ∧ (e.getId = .typeMisMatch ∨ e.getId = .nullValueAccess)) :
    Keeps (eject taken) := by
  intro d
  rcases exact d.value with ⟨bytes,done⟩ | ⟨e,failed,named⟩
  · have ran : eject taken d = .ok bytes {d with value := .null} := by
      simp only [eject,done]
    rw [ran]
    exact ⟨rfl,fun rule => ⟨rule.1,.inl rfl⟩⟩
  · have ran : eject taken d = .error e d := by
      simp only [eject,failed]
    rw [ran]
    exact ⟨rfl,named⟩

theorem ejectText_keeps : Keeps ejectText := eject_keeps fun v => by
  cases v with
  | text bytes => exact .inl ⟨bytes,rfl⟩
  | null => exact .inr ⟨_,rfl,.inr rfl⟩
  | _ => exact .inr ⟨_,rfl,.inl rfl⟩

theorem ejectBlob_keeps : Keeps ejectBlob := eject_keeps fun v => by
  cases v with
  | blob bytes => exact .inl ⟨bytes,rfl⟩
  | null => exact .inr ⟨_,rfl,.inr rfl⟩
  | _ => exact .inr ⟨_,rfl,.inl rfl⟩

def SameTypes (before after : Objects) : Prop :=
  ∀ (i : Nat) (d : DbValue), before[i]? = some d →
    ∃ d' : DbValue, after[i]? = some d' ∧ d'.dbtype = d.dbtype

def Ruled (objects : Objects) : Prop := ∀ d ∈ objects, d.TypeRule

/-- What one operation may do to all objects: keep the rules, or throw and change nothing. -/
def Sound (operation : Method Objects Unit) : Prop :=
  ∀ objects, match operation objects with
    | .ok _ changed => SameTypes objects changed ∧ (Ruled objects → Ruled changed)
    | .error e changed => changed = objects ∧ (e.getId = .typeMisMatch ∨ e.getId = .nullValueAccess)

theorem SameTypes.refl (objects : Objects) : SameTypes objects objects :=
  fun _ d found => ⟨d,found,rfl⟩

theorem SameTypes.trans {first second third : Objects} (left : SameTypes first second)
    (right : SameTypes second third) : SameTypes first third := by
  intro i d found
  obtain ⟨middle,at_middle,same⟩ := left i d found
  obtain ⟨last,at_last,kept⟩ := right i middle at_middle
  exact ⟨last,at_last,kept.trans same⟩

theorem sameTypes_set {objects : Objects} {target : Nat} {d changed : DbValue}
    (found : objects[target]? = some d) (kept : changed.dbtype = d.dbtype) :
    SameTypes objects (objects.set target changed) := by
  intro i o at_i
  by_cases here : target = i
  · subst here
    have bound := (List.getElem?_eq_some_iff.mp found).1
    refine ⟨changed,by simp [bound],?_⟩
    rw [found] at at_i
    exact kept.trans (congrArg DbValue.dbtype (Option.some.inj at_i))
  · exact ⟨o,by rw [List.getElem?_set_ne here,at_i],rfl⟩

theorem sameTypes_append (objects : Objects) (d : DbValue) : SameTypes objects (objects ++ [d]) := by
  intro i o at_i
  exact ⟨o,by rw [List.getElem?_append_left (List.getElem?_eq_some_iff.mp at_i).1,at_i],rfl⟩

theorem ruled_set {objects : Objects} {target : Nat} {changed : DbValue}
    (rules : Ruled objects) (rule : changed.TypeRule) : Ruled (objects.set target changed) := by
  intro d member
  rcases List.mem_or_eq_of_mem_set member with old | new
  · exact rules d old
  · exact new ▸ rule

theorem ruled_append {objects : Objects} {d : DbValue} (rules : Ruled objects)
    (rule : d.TypeRule) : Ruled (objects ++ [d]) := by
  intro o member
  rcases List.mem_append.mp member with old | new
  · exact rules o old
  · exact List.mem_singleton.mp new ▸ rule

theorem emptied_typeRule {d : DbValue} (rule : d.TypeRule) : {d with value := .null : DbValue}.TypeRule :=
  ⟨rule.1,.inl rfl⟩

theorem on_sound {α : Type} (target : Nat) {method : Method DbValue α} (keeps : Keeps method) :
    Sound (on target method) := by
  intro objects
  cases found : objects[target]? with
  | none =>
    simp only [on,found]
    exact ⟨.refl _,id⟩
  | some d =>
    have law := keeps d
    simp only [on,found]
    cases ran : method d with
    | ok result changed =>
      rw [ran] at law
      exact ⟨sameTypes_set found law.1,fun rules =>
        ruled_set rules (law.2 (rules d (List.mem_of_getElem? found)))⟩
    | error e changed =>
      rw [ran] at law
      refine ⟨?_,law.2⟩
      rw [law.1]
      obtain ⟨bound,value⟩ := List.getElem?_eq_some_iff.mp found
      rw [← value,List.set_getElem_self]

theorem ofType_typeRule (type : ValueType) : (DbValue.ofType type).TypeRule := by
  refine ⟨?_,.inl rfl⟩
  cases type <;> simp [DbValue.ofType]

theorem construct_sound {made : Except Error DbValue}
    (law : match made with
      | .ok d => d.TypeRule
      | .error e => e.getId = .typeMisMatch) : Sound (construct made) := by
  intro objects
  cases made with
  | ok d => exact ⟨sameTypes_append objects d,fun rules => ruled_append rules law⟩
  | error e => exact ⟨rfl,.inl law⟩

theorem ofPayload_law (kind : ValueType) (payload : Value) (type : ValueType)
    (own : payload.getType = kind) (stored : kind ≠ .null) :
    match ofPayload kind payload type with
      | .ok d => d.TypeRule
      | .error e => e.getId = .typeMisMatch := by
  rw [ofPayload_eq]
  by_cases allowed : type = kind ∨ type = .variant
  · rw [if_pos allowed]
    rcases allowed with rfl | rfl
    · refine ⟨(ofType_typeRule type).1,.inr (.inl ?_)⟩
      simp [DbValue.type,own,stored]
    · exact ⟨(ofType_typeRule .variant).1,.inr (.inr rfl)⟩
  · rw [if_neg allowed]
    rfl

theorem copyConstruct_sound (source : Nat) : Sound (copyConstruct source) := by
  intro objects
  cases found : objects[source]? with
  | none =>
    simp only [copyConstruct,found]
    exact ⟨.refl _,id⟩
  | some other =>
    simp only [copyConstruct,found]
    exact ⟨sameTypes_append _ _,fun rules => ruled_append rules (rules _ (List.mem_of_getElem? found))⟩

theorem moveConstruct_sound (source : Nat) : Sound (moveConstruct source) := by
  intro objects
  cases found : objects[source]? with
  | none =>
    simp only [moveConstruct,found]
    exact ⟨.refl _,id⟩
  | some other =>
    simp only [moveConstruct,found]
    have kept : SameTypes objects (objects.set source {other with value := .null}) :=
      sameTypes_set found rfl
    refine ⟨kept.trans (sameTypes_append _ _),fun rules => ?_⟩
    have rule := rules _ (List.mem_of_getElem? found)
    exact ruled_append (ruled_set rules (emptied_typeRule rule)) rule

theorem copyAssign_sound (target source : Nat) : Sound (copyAssign target source) := by
  intro objects
  cases left : objects[target]? with
  | none =>
    simp only [copyAssign,left]
    exact ⟨.refl _,id⟩
  | some d =>
    cases right : objects[source]? with
    | none =>
      simp only [copyAssign,left,right]
      exact ⟨.refl _,id⟩
    | some other =>
      cases fits : d.canAssign other with
      | false =>
        simp only [copyAssign,left,right,fits]
        exact ⟨rfl,.inl rfl⟩
      | true =>
        simp only [copyAssign,left,right,fits,if_true]
        refine ⟨sameTypes_set left rfl,fun rules => ruled_set rules ?_⟩
        exact assign_typeRule (rules _ (List.mem_of_getElem? left))
          (rules _ (List.mem_of_getElem? right)) fits

theorem emptied_sound (objects : Objects) (source : Nat) :
    SameTypes objects (objects.modify source fun o => {o with value := .null}) ∧
      (Ruled objects → Ruled (objects.modify source fun o => {o with value := .null})) := by
  constructor
  · intro i d found
    rw [List.getElem?_modify,found]
    by_cases here : source = i
    · exact ⟨{d with value := .null},by simp [here],rfl⟩
    · exact ⟨d,by simp [here],rfl⟩
  · intro rules d member
    obtain ⟨i,found⟩ := List.mem_iff_getElem?.mp member
    rw [List.getElem?_modify,Option.map_eq_map,Option.map_eq_some_iff] at found
    obtain ⟨old,at_i,value⟩ := found
    have rule := rules old (List.mem_of_getElem? at_i)
    by_cases here : source = i
    · rw [if_pos here] at value
      exact value ▸ emptied_typeRule rule
    · rw [if_neg here] at value
      exact value ▸ rule

theorem moveAssign_sound (target source : Nat) : Sound (moveAssign target source) := by
  intro objects
  cases left : objects[target]? with
  | none =>
    simp only [moveAssign,left]
    exact ⟨.refl _,id⟩
  | some d =>
    cases right : objects[source]? with
    | none =>
      simp only [moveAssign,left,right]
      exact ⟨.refl _,id⟩
    | some other =>
      cases fits : d.canAssign other with
      | false =>
        simp only [moveAssign,left,right,fits]
        exact ⟨rfl,.inl rfl⟩
      | true =>
        simp only [moveAssign,left,right,fits,if_true]
        have emptied := emptied_sound (objects.set target (d.assign other)) source
        have kept : SameTypes objects (objects.set target (d.assign other)) := sameTypes_set left rfl
        refine ⟨kept.trans emptied.1,fun rules => emptied.2 (ruled_set rules ?_)⟩
        exact assign_typeRule (rules _ (List.mem_of_getElem? left))
          (rules _ (List.mem_of_getElem? right)) fits

theorem run_sound (op : Operation) : Sound op.run := by
  cases op with
  | ofType type => exact @construct_sound (.ok _) (ofType_typeRule type)
  | ofInt val type => exact construct_sound (ofPayload_law _ _ _ rfl (by decide))
  | ofInt64 val type => exact construct_sound (ofPayload_law _ _ _ rfl (by decide))
  | ofText val type => exact construct_sound (ofPayload_law _ _ _ rfl (by decide))
  | ofReal val type => exact construct_sound (ofPayload_law _ _ _ rfl (by decide))
  | ofBlob val type => exact construct_sound (ofPayload_law _ _ _ rfl (by decide))
  | copyConstruct source => exact copyConstruct_sound source
  | moveConstruct source => exact moveConstruct_sound source
  | copyAssign target source => exact copyAssign_sound target source
  | moveAssign target source => exact moveAssign_sound target source
  | setInt target val => exact on_sound target (setInt_keeps val)
  | setInt64 target val => exact on_sound target (store_keeps _ _ rfl)
  | setReal target val => exact on_sound target (store_keeps _ _ rfl)
  | setText target val => exact on_sound target (store_keeps _ _ rfl)
  | setBlob target val => exact on_sound target (store_keeps _ _ rfl)
  | assignValue target val => exact on_sound target (store_keeps _ _ rfl)
  | setNull target => exact on_sound target setNull_keeps
  | ejectText target => exact on_sound target ejectText_keeps
  | ejectBlob target => exact on_sound target ejectBlob_keeps

theorem after_sound (op : Operation) (objects : Objects) :
    SameTypes objects (op.after objects) ∧ (Ruled objects → Ruled (op.after objects)) := by
  have law := run_sound op objects
  unfold Operation.after
  cases ran : op.run objects with
  | ok result changed =>
    rw [ran] at law
    exact law
  | error e changed =>
    rw [ran] at law
    rw [law.1]
    exact ⟨.refl _,id⟩

theorem runAll_sound (operations : List Operation) (objects : Objects) :
    SameTypes objects (runAll operations objects) ∧
      (Ruled objects → Ruled (runAll operations objects)) := by
  induction operations generalizing objects with
  | nil => exact ⟨.refl _,id⟩
  | cons op rest ih =>
    have first := after_sound op objects
    have others := ih (op.after objects)
    exact ⟨first.1.trans others.1,fun rules => others.2 (first.2 rules)⟩

theorem assign_succeeds_iff {objects : Objects} {target source : Nat} {d other : DbValue}
    (left : objects[target]? = some d) (right : objects[source]? = some other) :
    (d.canAssign other = true ↔ ∃ changed, copyAssign target source objects = .ok () changed) ∧
      (d.canAssign other = true ↔ ∃ changed, moveAssign target source objects = .ok () changed) := by
  cases fits : d.canAssign other <;> simp [copyAssign,moveAssign,left,right,fits]

theorem typeRule_dbtype {d : DbValue} (rule : d.TypeRule) :
    d.dbtype ∈ [.int,.real,.text,.blob,.variant] := by
  have named := rule.1
  cases eq : d.dbtype with
  | null => exact absurd eq named
  | _ => simp

/-- Whatever a program does with its objects: their types are fixed, their values
conform, `canAssign` predicts assignment, and a throwing operation changes nothing. -/
theorem runs_keep_typeRule (operations later : List Operation) :
    let objects := runAll operations []
    (∀ d ∈ objects, d.dbtype ∈ [.int,.real,.text,.blob,.variant] ∧
      (d.type = .null ∨ d.type = d.dbtype ∨ d.dbtype = .variant)) ∧
    (∀ (i : Nat) (d : DbValue), objects[i]? = some d →
      ∃ d' : DbValue, (runAll later objects)[i]? = some d' ∧ d'.dbtype = d.dbtype) ∧
    (∀ (target source : Nat) (d other : DbValue),
      objects[target]? = some d → objects[source]? = some other →
      (d.canAssign other = true ↔
        ∃ changed, (Operation.copyAssign target source).run objects = .ok () changed) ∧
      (d.canAssign other = true ↔
        ∃ changed, (Operation.moveAssign target source).run objects = .ok () changed)) ∧
    (∀ (op : Operation) (e : Error) (changed : Objects), op.run objects = .error e changed →
      changed = objects ∧ (e.getId = .typeMisMatch ∨ e.getId = .nullValueAccess)) := by
  intro objects
  have ruled : Ruled objects := (runAll_sound operations []).2 (fun _ member => nomatch member)
  refine ⟨fun d member => ?_,(runAll_sound later objects).1,?_,?_⟩
  · exact ⟨typeRule_dbtype (ruled d member),(ruled d member).2⟩
  · intro target source d other left right
    exact assign_succeeds_iff left right
  · intro op e changed thrown
    have law := run_sound op objects
    rw [thrown] at law
    exact law

theorem runs_keep_typeRule_typed_int :
    (Operation.setText 0 [1]).run (runAll [.ofInt64 5 .int] []) =
        .error (errTypeMisMatch "Int not one of required types") [⟨.int,.int 5⟩] ∧
      [(⟨.int,.int 5⟩ : DbValue)] = runAll [.ofInt64 5 .int] [] := by
  have thrown : (Operation.setText 0 [1]).run (runAll [.ofInt64 5 .int] []) =
      .error (errTypeMisMatch "Int not one of required types") [⟨.int,.int 5⟩] := rfl
  exact ⟨thrown,((runs_keep_typeRule [.ofInt64 5 .int] []).2.2.2 _ _ _ thrown).1⟩

end Sl3.DbValueObjects
