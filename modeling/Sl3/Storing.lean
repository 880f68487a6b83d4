import Sl3.DbValueObjects
import Sl3.ParameterSetting

/-! The ways to store a value in a DbValue: rows as objects, whose copy assignment may have one row on
both sides, and the routes by which a single value gets into a typed slot. -/
namespace Sl3.Storing
open DbValues

abbrev Rows := Nat → DbValues

/-- `_cont[i].assign (row[i])` -/
def assignSlot (a b : Nat) (rows : Rows) (i : Nat) : Rows :=
  match (rows a)[i]?,(rows b)[i]? with
  | some d,some other => Function.update rows a ((rows a).set i (d.assign other))
  | _,_ => rows

/-- `DbValues::operator= (const DbValues&)` on the row `a` itself, slot after slot. -/
def copyAssign (a b : Nat) : Method Rows Unit := fun rows =>
  if (rows a).length ≠ (rows b).length then .error (errTypeMisMatch "") rows
  else
    match checkLoop (rows a) (rows b) with
    | .error e => .error e rows
    | .ok _ => .ok () ((List.range (rows a).length).foldl (assignSlot a b) rows)

section rows
variable {a b : Nat} {rows after : Rows}

structure Assigned (a b : Nat) (rows : Rows) (n : Nat) (after : Rows) : Prop where
  others : ∀ c, c ≠ a → after c = rows c
  length : (after a).length = (rows a).length
  slots : ∀ i d other, (rows a)[i]? = some d → (rows b)[i]? = some other →
    (after a)[i]? = some (if i < n then d.assign other else d)

theorem Assigned.source {n : Nat} (assigned : Assigned a b rows n after) {other : DbValue}
    (there : (rows b)[n]? = some other) : (after b)[n]? = some other := by
  by_cases self : b = a
  · subst self
    simpa using assigned.slots n other other there there
  · rwa [assigned.others b self]

theorem Assigned.next {n : Nat} (assigned : Assigned a b rows n after) (same : (rows a).length = (rows b).length)
    (below : n < (rows a).length) : Assigned a b rows (n + 1) (assignSlot a b after n) := by
  obtain ⟨d,target⟩ : ∃ d, (rows a)[n]? = some d := ⟨_,List.getElem?_eq_getElem below⟩
  obtain ⟨other,source⟩ : ∃ other, (rows b)[n]? = some other := ⟨_,List.getElem?_eq_getElem (same ▸ below)⟩
  have now : (after a)[n]? = some d := by simpa using assigned.slots n d other target source
  simp only [assignSlot,now,assigned.source source]
  refine ⟨fun c differ => ?_,?_,fun i e value mine its => ?_⟩
  · rw [Function.update_of_ne differ]
    exact assigned.others c differ
  · rw [Function.update_self,List.length_set]
    exact assigned.length
  · rw [Function.update_self]
    by_cases here : n = i
    · subst here
      cases target.symm.trans mine
      cases source.symm.trans its
      rw [List.getElem?_set_self (assigned.length ▸ below),if_pos (Nat.lt_succ_self n)]
    · rw [List.getElem?_set_ne here,assigned.slots i e value mine its]
      have same : i < n + 1 ↔ i < n := by omega
      simp only [same]

theorem assigned_loop (same : (rows a).length = (rows b).length) {n : Nat} (bound : n ≤ (rows a).length) :
    Assigned a b rows n ((List.range n).foldl (assignSlot a b) rows) := by
  induction n with
  | zero => exact ⟨fun _ _ => rfl,rfl,fun i d other mine _ => by simpa using mine⟩
  | succ n ih =>
    rw [List.range_succ,List.foldl_append]
    exact (ih (Nat.le_of_succ_le bound)).next same bound

theorem assignLoop_get {cont row : DbValues} {i : Nat} {d other : DbValue} (target : cont[i]? = some d)
    (source : row[i]? = some other) : (assignLoop cont row)[i]? = some (d.assign other) := by
  induction cont generalizing row i with
  | nil => simp at target
  | cons e cont ih =>
    cases row with
    | nil => simp at source
    | cons value row =>
      cases i with
      | zero =>
        cases Option.some.inj target
        cases Option.some.inj source
        rfl
      | succ i => exact ih target source

theorem assignLoop_length (cont row : DbValues) : (assignLoop cont row).length = cont.length := by
  simpa [dbtypes] using congrArg List.length (assignLoop_dbtypes cont row)

/-- Slot after slot in place, the loop leaves the row that the list function computes. -/
theorem loop_eq (same : (rows a).length = (rows b).length) :
    (List.range (rows a).length).foldl (assignSlot a b) rows = Function.update rows a (assignLoop (rows a) (rows b)) := by
  have assigned := assigned_loop same (Nat.le_refl _)
  funext c
  by_cases target : c = a
  · subst target
    rw [Function.update_self]
    apply List.ext_getElem?
    intro i
    cases mine : (rows c)[i]? with
    | none =>
      have beyond := List.getElem?_eq_none_iff.mp mine
      rw [List.getElem?_eq_none (assigned.length.trans_le beyond),
        List.getElem?_eq_none ((assignLoop_length _ _).trans_le beyond)]
    | some d =>
      have below := (List.getElem?_eq_some_iff.mp mine).1
      obtain ⟨other,its⟩ : ∃ other, (rows b)[i]? = some other := ⟨_,List.getElem?_eq_getElem (same ▸ below)⟩
      rw [assigned.slots i d other mine its,if_pos below,assignLoop_get mine its]
  · rw [Function.update_of_ne target]
    exact assigned.others c target

theorem copyAssign_fits (fits : Fits (rows a) (rows b)) :
    copyAssign a b rows = .ok () (Function.update rows a (assignLoop (rows a) (rows b))) := by
  unfold copyAssign
  rw [if_neg (not_not.mpr fits.length),checkLoop_fits fits]
  simp only [loop_eq fits.length]

theorem copyAssign_misfit (misfit : ¬ Fits (rows a) (rows b)) :
    copyAssign a b rows = .error (errTypeMisMatch "") rows := by
  unfold copyAssign
  by_cases same : (rows a).length = (rows b).length
  · rw [if_neg (not_not.mpr same),checkLoop_fails same misfit]
  · rw [if_pos same]

def CanTake (d other : DbValue) : Prop :=
  d.dbtype = .variant ∨ other.dbtype = d.dbtype ∨ other.dbtype = .variant ∧ (other.type = .null ∨ other.type = d.dbtype)

theorem canAssign_canTake (d other : DbValue) : d.canAssign other = true ↔ CanTake d other := by
  rw [DbValue.canAssign_iff,CanTake,or_comm (a := other.type = .null)]

def Takes (cont row : DbValues) : Prop :=
  cont.length = row.length ∧ ∀ (i : Nat) (d other : DbValue), cont[i]? = some d → row[i]? = some other → CanTake d other

theorem fits_iff (cont row : DbValues) : Fits cont row ↔ Takes cont row := by
  constructor
  · intro fits
    refine ⟨fits.length,fun i d other mine its => ?_⟩
    obtain ⟨below,rfl⟩ := List.getElem?_eq_some_iff.mp mine
    obtain ⟨below',rfl⟩ := List.getElem?_eq_some_iff.mp its
    exact (canAssign_canTake _ _).mp (List.Forall₂.get fits below below')
  · rintro ⟨same,takes⟩
    apply List.forall₂_of_length_eq_of_get same
    intro i below below'
    have take := takes i _ _ (List.getElem?_eq_getElem below) (List.getElem?_eq_getElem below')
    exact (canAssign_canTake _ _).mpr take

/-- Each slot of `a` has the value beside it under its own dbtype; nothing else has changed. -/
structure Stored (a b : Nat) (rows after : Rows) : Prop where
  length : (after a).length = (rows a).length
  slots : ∀ (i : Nat) (d other : DbValue), (rows a)[i]? = some d → (rows b)[i]? = some other →
    (after a)[i]? = some ⟨d.dbtype,other.value⟩
  source : after b = rows b
  others : ∀ c, c ≠ a → after c = rows c
  ruled : (∀ d ∈ rows a, d.TypeRule) → (∀ d ∈ rows b, d.TypeRule) → ∀ d ∈ after a, d.TypeRule

theorem assignLoop_self (row : DbValues) : assignLoop row row = row :=
  eq_of_dbtypes_values (assignLoop_dbtypes row row) (assignLoop_values rfl)

theorem assignLoop_ruled {cont row : DbValues} (fits : Fits cont row) (ruled : ∀ d ∈ cont, d.TypeRule)
    (source : ∀ d ∈ row, d.TypeRule) : ∀ d ∈ assignLoop cont row, d.TypeRule := by
  unfold Fits at fits
  induction fits with
  | nil => simp [assignLoop]
  | cons fit _ ih =>
    rw [assignLoop,List.forall_mem_cons]
    obtain ⟨first,rest⟩ := List.forall_mem_cons.mp ruled
    obtain ⟨value,values⟩ := List.forall_mem_cons.mp source
    exact ⟨DbValue.assign_typeRule first value fit,ih rest values⟩

theorem stored_update (fits : Fits (rows a) (rows b)) :
    Stored a b rows (Function.update rows a (assignLoop (rows a) (rows b))) := by
  refine ⟨?_,?_,?_,fun c other => Function.update_of_ne other _ _,?_⟩
  · rw [Function.update_self]
    exact assignLoop_length _ _
  · intro i d other mine its
    rw [Function.update_self]
    exact assignLoop_get mine its
  · by_cases self : b = a
    · subst self
      rw [Function.update_self,assignLoop_self]
    · exact Function.update_of_ne self _ _
  · intro ruled source
    rw [Function.update_self]
    exact assignLoop_ruled fits ruled source

end rows

/-- Copy assignment of a row, which may be the row itself: it stores all values or changes nothing, and
succeeds exactly when each slot can take its value. -/
theorem copyAssign_atomic (a b : Nat) (rows : Rows) :
    ((∃ after, copyAssign a b rows = .ok () after) ↔ Takes (rows a) (rows b)) ∧
      (∀ after, copyAssign a b rows = .ok () after → Stored a b rows after) ∧
      ∀ e after, copyAssign a b rows = .error e after → e = errTypeMisMatch "" ∧ after = rows := by
  by_cases fits : Fits (rows a) (rows b)
  · rw [copyAssign_fits fits,← fits_iff]
    refine ⟨iff_of_true ⟨_,rfl⟩ fits,?_,?_⟩
    · rintro _ ⟨⟩
      exact stored_update fits
    · intro e after failed
      cases failed
  · rw [copyAssign_misfit fits,← fits_iff]
    refine ⟨iff_of_false ?_ fits,?_,?_⟩
    · rintro ⟨after,copied⟩
      cases copied
    · intro after copied
      cases copied
    · rintro e _ ⟨⟩
      exact ⟨rfl,rfl⟩

/-- `DbValue x {Type::Variant}; x = v;` -/
def variantOf (v : Value) : DbValue := ⟨.variant,v⟩

/-- How a value gets into `d`: by the overload for a Value, by copy or move of a Variant, as a row of
one cell, or as a parameter of a Command whose other slots can take what they are given. -/
inductive Route (d : DbValue) where
  | value
  | copy
  | move
  | row
  | parameter {q : Query} (cmd : Command q) (before after given rest : DbValues)
      (slots : cmd.parameters = before ++ d::after) (first : Fits before given) (last : Fits after rest)

namespace Route
variable {d : DbValue}

/-- What is left at the place of `d`, when nothing is thrown. -/
def run (v : Value) : Route d → Except Error (Option DbValue)
  | value =>
    match DbValue.assignValue v d with
    | .ok _ left => .ok (some left)
    | .error e _ => .error e
  | copy =>
    match DbValueObjects.copyAssign 0 1 [d,variantOf v] with
    | .ok _ objects => .ok objects[0]?
    | .error e _ => .error e
  | move =>
    match DbValueObjects.moveAssign 0 1 [d,variantOf v] with
    | .ok _ objects => .ok objects[0]?
    | .error e _ => .error e
  | row =>
    match DbValues.copyAssign [variantOf v] [d] with
    | .ok _ cells => .ok cells[0]?
    | .error e _ => .error e
  | parameter cmd before _ given rest _ _ _ =>
    match Command.setParameters (given ++ variantOf v::rest) cmd with
    | .ok _ cmd => .ok cmd.parameters[before.length]?
    | .error e _ => .error e

end Route

/-- All routes leave the same in `d`, or all throw ErrTypeMisMatch. -/
def RoutesAgree (d : DbValue) (v : Value) : Prop :=
  (∃ left, ∀ route : Route d, route.run v = .ok (some left)) ∨
    ∀ route : Route d, ∃ e, route.run v = .error e ∧ e.getId = .typeMisMatch

section routes
variable {d : DbValue} {v : Value}

theorem assignLoop_middle {before given : DbValues} (same : before.length = given.length) (d value : DbValue)
    (after rest : DbValues) : (assignLoop (before ++ d::after) (given ++ value::rest))[before.length]? = some (d.assign value) := by
  apply assignLoop_get
  · simp
  · simp [same]

theorem assign_variantOf (d : DbValue) (v : Value) : d.assign (variantOf v) = ⟨d.dbtype,v⟩ := rfl

theorem canAssign_variantOf (d : DbValue) (v : Value) :
    d.canAssign (variantOf v) = true ↔ d.dbtype = .variant ∨ v.getType = d.dbtype ∨ v.getType = .null := by
  rw [DbValue.canAssign_iff]
  simp only [variantOf,DbValue.type,true_and]
  constructor
  · rintro (variant | same | stored)
    · exact .inl variant
    · exact .inl same.symm
    · exact .inr stored
  · rintro (variant | stored)
    · exact .inl variant
    · exact .inr (.inr stored)

theorem run_fits (fits : d.canAssign (variantOf v) = true) {route : Route d} (other : route ≠ .value) :
    route.run v = .ok (some ⟨d.dbtype,v⟩) := by
  cases route with
  | value => exact absurd rfl other
  | copy => simp [Route.run,DbValueObjects.copyAssign,fits,assign_variantOf]
  | move => simp [Route.run,DbValueObjects.moveAssign,fits,assign_variantOf]
  | row =>
    have cell : Fits [d] [variantOf v] := .cons fits .nil
    simp [Route.run,copyAssign_of_fits cell,assignLoop,assign_variantOf]
  | parameter cmd before after given rest slots first last =>
    have all : Fits cmd.parameters (given ++ variantOf v::rest) := by
      rw [slots]
      exact List.rel_append first (.cons fits last)
    simp only [Route.run,Command.setParameters_fits all]
    rw [slots,assignLoop_middle first.length]
    rfl

theorem run_misfit (misfit : d.canAssign (variantOf v) = false) {route : Route d} (other : route ≠ .value) :
    ∃ e, route.run v = .error e ∧ e.getId = .typeMisMatch := by
  cases route with
  | value => exact absurd rfl other
  | copy => exact ⟨d.cannotAssign (variantOf v),by simp [Route.run,DbValueObjects.copyAssign,misfit],rfl⟩
  | move => exact ⟨d.cannotAssign (variantOf v),by simp [Route.run,DbValueObjects.moveAssign,misfit],rfl⟩
  | row =>
    have cell : ¬ Fits [d] [variantOf v] := by simp [Fits,misfit]
    exact ⟨errTypeMisMatch "",by simp [Route.run,copyAssign_of_not_fits cell],rfl⟩
  | parameter cmd before after given rest slots first last =>
    have size : (given ++ variantOf v::rest).length = cmd.parameters.length := by
      simp [slots,first.length,last.length]
    exact ⟨d.cannotAssign (variantOf v),
      by simp only [Route.run,ParameterSetting.setParameters_stops slots first misfit size],rfl⟩

theorem run_value_allowed (allowed : d.dbtype ∈ [v.getType,.variant]) :
    (Route.value : Route d).run v = .ok (some ⟨d.dbtype,v⟩) := by
  simp only [Route.run,DbValue.assignValue,DbValueObjects.store_allowed allowed]

theorem run_value_refused (refused : d.dbtype ∉ [v.getType,.variant]) :
    ∃ e, (Route.value : Route d).run v = .error e ∧ e.getId = .typeMisMatch := by
  refine ⟨errTypeMisMatch (d.dbtype.typeName ++ " not one of required types"),?_,rfl⟩
  simp only [Route.run,DbValue.assignValue,DbValueObjects.store_refused refused]

/-- The check of the overload for a Value allows less: it knows nothing of Null. -/
theorem allowed_iff (d : DbValue) (v : Value) : d.dbtype ∈ [v.getType,.variant] ↔
    d.canAssign (variantOf v) = true ∧ (v = .null → d.dbtype = .null ∨ d.dbtype = .variant) := by
  rw [canAssign_variantOf]
  cases v <;> simp [Value.getType,or_comm,eq_comm]

end routes

/-- All routes agree, but that the overload for a Value stores no Null in a typed DbValue. No DbValue that
can be built has the dbtype Null. -/
theorem routes_agree_iff (d : DbValue) (v : Value) :
    RoutesAgree d v ↔ (v = .null → d.dbtype = .null ∨ d.dbtype = .variant) := by
  constructor
  · intro agree null
    have fits : d.canAssign (variantOf v) = true := (canAssign_variantOf d v).mpr (.inr (.inr (null ▸ rfl)))
    have copied : (Route.copy : Route d).run v = .ok (some ⟨d.dbtype,v⟩) := run_fits fits nofun
    rcases agree with ⟨left,stored⟩ | refused
    · by_contra typed
      obtain ⟨e,failed,_⟩ := run_value_refused fun allowed => typed (((allowed_iff d v).mp allowed).2 null)
      cases failed.symm.trans (stored .value)
    · obtain ⟨e,failed,_⟩ := refused .copy
      cases failed.symm.trans copied
  · intro known
    cases fits : d.canAssign (variantOf v) with
    | true =>
      refine .inl ⟨⟨d.dbtype,v⟩,fun route => ?_⟩
      cases route with
      | value => exact run_value_allowed ((allowed_iff d v).mpr ⟨fits,known⟩)
      | _ => exact run_fits fits nofun
    | false =>
      refine .inr fun route => ?_
      cases route with
      | value =>
        apply run_value_refused
        intro allowed
        cases fits.symm.trans ((allowed_iff d v).mp allowed).1
      | _ => exact run_misfit fits nofun

/-- Null for an Int: the overload for a Value throws, the copy of a Variant with it is stored. -/
theorem routes_agree_fails : (Route.value : Route ⟨.int,.int 1⟩).run .null =
      .error (errTypeMisMatch "Int not one of required types") ∧
    (Route.copy : Route ⟨.int,.int 1⟩).run .null = .ok (some ⟨.int,.null⟩) ∧ ¬ RoutesAgree ⟨.int,.int 1⟩ .null := by
  refine ⟨rfl,rfl,?_⟩
  rintro (⟨left,stored⟩ | refused)
  · cases stored .value
  · obtain ⟨e,failed,_⟩ := refused .copy
    cases failed

end Sl3.Storing
