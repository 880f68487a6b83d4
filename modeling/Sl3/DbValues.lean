import Sl3.DbValue

/-! `sl3::DbValues`: rows, and the two assignments between them. Both check every
slot before the first change; they finish differently. -/
namespace Sl3

abbrev DbValues := List DbValue

namespace DbValues

def dbtypes (row : DbValues) : List ValueType := row.map DbValue.dbtype

def values (row : DbValues) : List Value := row.map DbValue.value

def checkLoop : DbValues → DbValues → Except Error Unit
  | d::cont,other::row =>
    if d.canAssign other then checkLoop cont row else .error (errTypeMisMatch "")
  | _,_ => .ok ()

/-- The second loop of the copy assignment: values only, without any check. -/
def assignLoop : DbValues → DbValues → DbValues
  | d::cont,other::row => d.assign other::assignLoop cont row
  | cont,_ => cont

def copyAssign (row : DbValues) : Method DbValues Unit := fun cont =>
  if cont.length ≠ row.length then .error (errTypeMisMatch "") cont
  else
    match checkLoop cont row with
    | .error e => .error e cont
    | .ok _ => .ok () (assignLoop cont row)

/-- `operator= (DbValues&&)`, run on the target and the source, which gives its container away. -/
def moveAssign : Method (DbValues × DbValues) Unit := fun (cont,row) =>
  if cont.length ≠ 0 ∧ cont.length ≠ row.length then .error (errTypeMisMatch "") (cont,row)
  else
    match checkLoop cont row with
    | .error e => .error e (cont,row)
    | .ok _ => .ok () (row,[])

def Fits (cont row : DbValues) : Prop := List.Forall₂ (fun d other => d.canAssign other = true) cont row

instance (cont row : DbValues) : Decidable (Fits cont row) :=
  inferInstanceAs (Decidable (List.Forall₂ _ _ _))

theorem Fits.length {cont row : DbValues} (fits : Fits cont row) : cont.length = row.length :=
  List.Forall₂.length_eq fits

/-- Where some value does not fit, there is a first one. -/
theorem first_misfit {slots values : DbValues} (same : slots.length = values.length) (misfit : ¬ Fits slots values) :
    ∃ before d after given value rest, slots = before ++ d::after ∧ values = given ++ value::rest ∧
      Fits before given ∧ d.canAssign value = false := by
  induction slots generalizing values with
  | nil =>
    cases values with
    | nil => exact absurd .nil misfit
    | cons value values => simp at same
  | cons d slots ih =>
    cases values with
    | nil => simp at same
    | cons value values =>
      cases fit : d.canAssign value with
      | false => exact ⟨[],d,slots,[],value,values,rfl,rfl,.nil,fit⟩
      | true =>
        obtain ⟨before,e,after,given,other,rest,rfl,rfl,fits,stops⟩ :=
          ih (by simpa using same) fun tail => misfit (.cons fit tail)
        exact ⟨d::before,e,after,value::given,other,rest,rfl,rfl,.cons fit fits,stops⟩

theorem checkLoop_fits {cont row : DbValues} (fits : Fits cont row) : checkLoop cont row = .ok () := by
  unfold Fits at fits
  induction fits with
  | nil => rfl
  | cons fit _ ih => rw [checkLoop,if_pos fit,ih]

theorem checkLoop_stops {before after given rest : DbValues} {d value : DbValue} (fits : Fits before given)
    (misfit : d.canAssign value = false) :
    checkLoop (before ++ d::after) (given ++ value::rest) = .error (errTypeMisMatch "") := by
  unfold Fits at fits
  induction fits with
  | nil => simp [checkLoop,misfit]
  | cons fit _ ih => simp [checkLoop,fit,ih]

theorem checkLoop_fails {cont row : DbValues} (same : cont.length = row.length)
    (misfit : ¬ Fits cont row) : checkLoop cont row = .error (errTypeMisMatch "") := by
  obtain ⟨before,d,after,given,value,rest,rfl,rfl,fits,stops⟩ := first_misfit same misfit
  exact checkLoop_stops fits stops

theorem checkLoop_nil (row : DbValues) : checkLoop [] row = .ok () := by
  cases row <;> rfl

theorem copyAssign_of_fits {cont row : DbValues} (fits : Fits cont row) :
    copyAssign row cont = .ok () (assignLoop cont row) := by
  simp [copyAssign,fits.length,checkLoop_fits fits]

theorem copyAssign_of_not_fits {cont row : DbValues} (misfit : ¬ Fits cont row) :
    copyAssign row cont = .error (errTypeMisMatch "") cont := by
  by_cases same : cont.length = row.length
  · simp [copyAssign,same,checkLoop_fails same misfit]
  · simp [copyAssign,same]

theorem moveAssign_of_fits {cont row : DbValues} (fits : Fits cont row) :
    moveAssign (cont,row) = .ok () (row,[]) := by
  simp [moveAssign,fits.length,checkLoop_fits fits]

/-- An empty target takes every row: it may have been moved from. -/
theorem moveAssign_nil (row : DbValues) : moveAssign ([],row) = .ok () (row,[]) := by
  simp [moveAssign,checkLoop_nil]

theorem moveAssign_of_not_fits {cont row : DbValues} (filled : cont ≠ []) (misfit : ¬ Fits cont row) :
    moveAssign (cont,row) = .error (errTypeMisMatch "") (cont,row) := by
  have size : cont.length ≠ 0 := by simpa using filled
  by_cases same : cont.length = row.length
  · simp [moveAssign,same,checkLoop_fails same misfit]
  · simp [moveAssign,same,size]

theorem assignLoop_dbtypes (cont row : DbValues) : (assignLoop cont row).dbtypes = cont.dbtypes := by
  induction cont generalizing row with
  | nil => cases row <;> rfl
  | cons d cont ih =>
    cases row with
    | nil => rfl
    | cons other row => simpa [dbtypes,assignLoop,DbValue.assign] using ih row

theorem assignLoop_values {cont row : DbValues} (same : cont.length = row.length) :
    (assignLoop cont row).values = row.values := by
  induction cont generalizing row with
  | nil =>
    cases row with
    | nil => rfl
    | cons other row => simp at same
  | cons d cont ih =>
    cases row with
    | nil => simp at same
    | cons other row =>
      have rest := @ih row (by simpa using same)
      simpa [values,assignLoop,DbValue.assign] using rest

theorem eq_of_dbtypes_values {left right : DbValues} (types : left.dbtypes = right.dbtypes)
    (contents : left.values = right.values) : left = right := by
  induction left generalizing right with
  | nil => cases right <;> simp_all [dbtypes]
  | cons d left ih =>
    cases right with
    | nil => simp [dbtypes] at types
    | cons other right =>
      obtain ⟨type,types⟩ := List.cons.inj types
      obtain ⟨value,contents⟩ := List.cons.inj contents
      have head : d = other := by
        cases d
        cases other
        simp_all
      rw [head,ih types contents]

theorem fits_of_dbtypes {cont row : DbValues} (types : cont.dbtypes = row.dbtypes) : Fits cont row := by
  induction cont generalizing row with
  | nil =>
    cases row with
    | nil => exact .nil
    | cons other row => simp [dbtypes] at types
  | cons d cont ih =>
    cases row with
    | nil => simp [dbtypes] at types
    | cons other row =>
      obtain ⟨type,types⟩ := List.cons.inj types
      exact .cons ((DbValue.canAssign_iff d other).mpr (.inr (.inl type.symm))) (ih types)

theorem copyAssign_exact_iff (cont row : DbValues) :
    copyAssign row cont = .ok () row ↔ cont.dbtypes = row.dbtypes := by
  constructor
  · intro exact
    by_cases fits : Fits cont row
    · rw [copyAssign_of_fits fits] at exact
      rw [← assignLoop_dbtypes cont row]
      injection exact with _ same
      rw [same]
    · simp [copyAssign_of_not_fits fits] at exact
  · intro types
    have fits := fits_of_dbtypes types
    rw [copyAssign_of_fits fits]
    congr
    exact eq_of_dbtypes_values ((assignLoop_dbtypes cont row).trans types) (assignLoop_values fits.length)

def taken {σ : Type} (target : σ → DbValues) : EStateM.Result Error σ Unit → Option DbValues
  | .ok _ s => some (target s)
  | .error _ _ => none

/-- What the two assignments of one row to another have in common when they agree:
both throw, or both leave the same row, of the types it had before. -/
def Agree (cont row : DbValues) : Prop :=
  let copied := taken id (copyAssign row cont)
  let moved := taken Prod.fst (moveAssign (cont,row))
  (copied = none ↔ moved = none) ∧
    ∀ left right, copied = some left → moved = some right →
      left = right ∧ right.length = cont.length ∧ right.dbtypes = cont.dbtypes

/-- Moving a row agrees with copying it exactly when an empty target gets an empty
row, and a compatible row has the very dbtypes of the target. -/
theorem moveAssign_agrees_iff (cont row : DbValues) :
    Agree cont row ↔ (cont = [] → row = []) ∧ (Fits cont row → row.dbtypes = cont.dbtypes) := by
  by_cases fits : Fits cont row
  · have empty : cont = [] → row = [] := by
      rintro rfl
      exact List.length_eq_zero_iff.mp fits.length.symm
    have contents := assignLoop_values fits.length
    have kept := assignLoop_dbtypes cont row
    simp only [Agree,copyAssign_of_fits fits,moveAssign_of_fits fits,taken,id,reduceCtorEq,
      Option.some.injEq,true_and,fits,forall_const]
    constructor
    · intro agree
      exact ⟨empty,(agree _ _ rfl rfl).2.2⟩
    · rintro ⟨_,types⟩ left right rfl rfl
      exact ⟨eq_of_dbtypes_values (kept.trans types.symm) contents,fits.length.symm,types⟩
  · by_cases filled : cont = []
    · subst filled
      have nonempty : row ≠ [] := fun none => fits (none ▸ .nil)
      simp [Agree,copyAssign_of_not_fits fits,moveAssign_nil,taken,nonempty]
    · simp [Agree,copyAssign_of_not_fits fits,moveAssign_of_not_fits filled fits,taken,filled,fits]

theorem moveAssign_changes_dbtype :
    let cont : DbValues := [⟨.variant,.null⟩]
    let row : DbValues := [⟨.int,.int 1⟩]
    taken id (copyAssign row cont) = some [⟨.variant,.int 1⟩] ∧
      taken Prod.fst (moveAssign (cont,row)) = some [⟨.int,.int 1⟩] ∧ ¬ Agree cont row := by
  intro cont row
  refine ⟨by decide,by decide,?_⟩
  rintro ⟨_,same⟩
  exact absurd (same _ _ rfl rfl).1 (by decide)

end DbValues
end Sl3
