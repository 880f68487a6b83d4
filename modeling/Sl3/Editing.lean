import Sl3.DatasetRuns
import Sl3.DbValueObjects

/-! Datasets whose rows and cells change through the references that `Container` hands out. -/
namespace Sl3.Editing
open Library Library.Machine DatasetRuns
open DbValueObjects (Keeps)

/-- A member function on the element that `Container::at` finds. -/
def element {α : Type} (i : Nat) (method : Method α Unit) : Method (List α) Unit := fun cont =>
  match cont[i]? with
  | none => .error (errOutOfRange ("no data at: " ++ toString i)) cont
  | some x =>
    match method x with
    | .ok _ changed => .ok () (cont.set i changed)
    | .error e changed => .error e (cont.set i changed)

def onRows (method : Method (List DbValues) Unit) : Method Dataset Unit := fun ds =>
  match method ds.rows with
  | .ok _ rows => .ok () {ds with rows}
  | .error e rows => .error e {ds with rows}

def discard {σ : Type} (method : Method σ Bytes) : Method σ Unit := fun s =>
  match method s with
  | .ok _ changed => .ok () changed
  | .error e changed => .error e changed

abbrev RuledValue := {d : DbValue // d.TypeRule}

/-- What a program does to a cell; where it moves from another cell, that one becomes Null by `setNull`. -/
inductive CellEdit where
  | setInt (val : Int32)
  | setInt64 (val : Int64)
  | setReal (val : Double)
  | setText (val : Bytes)
  | setBlob (val : Bytes)
  | assignValue (val : Value)
  | assign (other : RuledValue)
  | setNull
  | ejectText
  | ejectBlob

def CellEdit.run : CellEdit → Method DbValue Unit
  | setInt val => DbValue.setInt val
  | setInt64 val => DbValue.setInt64 val
  | setReal val => DbValue.setReal val
  | setText val => DbValue.setText val
  | setBlob val => DbValue.setBlob val
  | assignValue val => DbValue.assignValue val
  | assign other => DbValue.assignFrom other.val
  | setNull => DbValue.setNull
  | ejectText => discard DbValue.ejectText
  | ejectBlob => discard DbValue.ejectBlob

/-- What a program does to a row: to a cell of it, or to the row as a whole with one of its own; where it moves a row
out, an empty one comes in by `swap`. -/
inductive RowEdit where
  | cell (field : Nat) (edit : CellEdit)
  | copyAssign (row : RuledRow)
  | moveAssign (row : RuledRow)
  | swap (row : RuledRow)

def moveInto (row : DbValues) : Method DbValues Unit := fun cont =>
  match DbValues.moveAssign (cont,row) with
  | .ok _ (cont,_) => .ok () cont
  | .error e (cont,_) => .error e cont

def RowEdit.run : RowEdit → Method DbValues Unit
  | cell field edit => element field edit.run
  | copyAssign row => DbValues.copyAssign row.val
  | moveAssign row => moveInto row.val
  | swap row => fun _ => .ok () row.val

section strict
variable {α σ : Type} {e : Error}

/-- A method that throws leaves the object as it was. -/
def Strict (method : Method σ α) : Prop := ∀ s e left, method s = .error e left → left = s

theorem strict_of_keeps {method : Method DbValue α} (keeps : Keeps method) : Strict method := by
  intro d e left thrown
  have law := keeps d
  rw [thrown] at law
  exact law.1

theorem element_strict {i : Nat} {method : Method α Unit} (strict : Strict method) : Strict (element i method) := by
  intro cont e left thrown
  unfold element at thrown
  cases found : cont[i]? with
  | none =>
    rw [found] at thrown
    cases thrown
    rfl
  | some x =>
    simp only [found] at thrown
    cases ran : method x with
    | ok done changed =>
      rw [ran] at thrown
      cases thrown
    | error e' changed =>
      rw [ran] at thrown
      cases thrown
      rw [strict x e changed ran]
      obtain ⟨inside,rfl⟩ := List.getElem?_eq_some_iff.mp found
      exact List.set_getElem_self inside

theorem onRows_strict {method : Method (List DbValues) Unit} (strict : Strict method) : Strict (onRows method) := by
  intro ds e left thrown
  unfold onRows at thrown
  cases ran : method ds.rows with
  | ok done rows =>
    rw [ran] at thrown
    cases thrown
  | error e' rows =>
    rw [ran] at thrown
    cases thrown
    rw [strict ds.rows e rows ran]

theorem discard_keeps {method : Method DbValue Bytes} (keeps : Keeps method) : Keeps (discard method) := by
  intro d
  have law := keeps d
  unfold discard
  cases ran : method d <;> rw [ran] at law <;> exact law

theorem assignFrom_keeps (other : RuledValue) : Keeps (DbValue.assignFrom other.val) := by
  intro d
  by_cases fits : d.canAssign other.val = true
  · simp only [DbValue.assignFrom,fits,if_true]
    exact ⟨rfl,fun rule => DbValue.assign_typeRule rule other.property fits⟩
  · simp only [DbValue.assignFrom,fits]
    exact ⟨rfl,.inl rfl⟩

theorem CellEdit.run_keeps (edit : CellEdit) : Keeps edit.run := by
  cases edit with
  | setInt val => exact DbValueObjects.setInt_keeps val
  | setInt64 | setReal | setText | setBlob | assignValue => exact DbValueObjects.store_keeps _ _ rfl
  | assign other => exact assignFrom_keeps other
  | setNull => exact DbValueObjects.setNull_keeps
  | ejectText => exact discard_keeps DbValueObjects.ejectText_keeps
  | ejectBlob => exact discard_keeps DbValueObjects.ejectBlob_keeps

theorem moveInto_cases (row cont : DbValues) : moveInto row cont = .error (errTypeMisMatch "") cont ∨
    moveInto row cont = .ok () row := by
  unfold moveInto
  by_cases fits : DbValues.Fits cont row
  · rw [DbValues.moveAssign_of_fits fits]
    exact .inr rfl
  · by_cases empty : cont = []
    · rw [empty,DbValues.moveAssign_nil]
      exact .inr rfl
    · rw [DbValues.moveAssign_of_not_fits empty fits]
      exact .inl rfl

theorem RowEdit.run_strict (edit : RowEdit) : Strict edit.run := by
  cases edit with
  | cell field edit => exact element_strict (strict_of_keeps edit.run_keeps)
  | copyAssign row =>
    intro cont e left thrown
    by_cases fits : DbValues.Fits cont row.val
    · cases (DbValues.copyAssign_of_fits fits).symm.trans thrown
    · cases (DbValues.copyAssign_of_not_fits fits).symm.trans thrown
      rfl
  | moveAssign row =>
    intro cont e left thrown
    rcases moveInto_cases row.val cont with refused | moved
    · cases refused.symm.trans thrown
      rfl
    · cases moved.symm.trans thrown
  | swap row =>
    intro cont e left thrown
    cases thrown

end strict

section kept
variable {types : List ValueType} {cont row row' : DbValues}

def Ruled (row : DbValues) : Prop := ∀ d ∈ row, d.TypeRule

/-- Every cell keeps its type and is again under its type rule. -/
def RowKept (row row' : DbValues) : Prop := List.Forall₂ (fun d d' => d'.dbtype = d.dbtype ∧ d'.TypeRule) row row'

theorem RowKept.ruled (kept : RowKept row row') : Ruled row' := by
  unfold RowKept at kept
  induction kept with
  | nil =>
    intro d member
    cases member
  | cons cell _ ih => exact List.forall_mem_cons.mpr ⟨cell.2,ih⟩

/-- What stays of `CellConforms` whatever values the cell is given. -/
def FieldOf (type : ValueType) (d : DbValue) : Prop := type = .null ∨ type = .variant ∨ d.dbtype = type

theorem cell_conforms_iff {type : ValueType} {d d' : DbValue} (same : d'.dbtype = d.dbtype) (rule : d'.TypeRule) :
    CellConforms type d' ↔ FieldOf type d := by
  unfold CellConforms FieldOf
  rw [same]
  constructor
  · rintro (null | variant | ⟨own,_⟩)
    · exact .inl null
    · exact .inr (.inl variant)
    · exact .inr (.inr own)
  · rintro (null | variant | own)
    · exact .inl null
    · exact .inr (.inl variant)
    · have typed : d'.dbtype = type := same.trans own
      rcases rule.2 with null | stored | variant
      · exact .inr (.inr ⟨own,.inl null⟩)
      · exact .inr (.inr ⟨own,.inr (stored.trans typed)⟩)
      · exact .inr (.inl (typed.symm.trans variant))

theorem RowKept.conforms_iff (kept : RowKept row row') :
    List.Forall₂ CellConforms types row' ↔ List.Forall₂ FieldOf types row := by
  unfold RowKept at kept
  induction kept generalizing types with
  | nil => simp
  | cons cell _ ih => cases types <;> simp [cell_conforms_iff cell.1 cell.2,ih]

theorem RowKept.conforms (kept : RowKept row row') (conforms : List.Forall₂ CellConforms types row) :
    List.Forall₂ CellConforms types row' := by
  refine kept.conforms_iff.mpr (conforms.imp fun type d cell => ?_)
  rcases cell with null | variant | ⟨own,_⟩
  · exact .inl null
  · exact .inr (.inl variant)
  · exact .inr (.inr own)

theorem set_kept {field : Nat} {d changed : DbValue} (ruled : Ruled row) (found : row[field]? = some d)
    (same : changed.dbtype = d.dbtype) (rule : changed.TypeRule) : RowKept row (row.set field changed) := by
  have refl : RowKept row row := List.forall₂_same.mpr fun d member => ⟨rfl,ruled d member⟩
  induction row generalizing field with
  | nil => cases found
  | cons other row ih =>
    obtain ⟨first,rest⟩ := List.forall₂_cons.mp refl
    cases field with
    | zero =>
      cases found
      exact .cons ⟨same,rule⟩ rest
    | succ field => exact .cons first (ih (fun d member => ruled d (List.mem_cons_of_mem _ member)) found rest)

theorem assignLoop_kept (ruled : Ruled cont) (source : Ruled row) (fits : DbValues.Fits cont row) :
    RowKept cont (DbValues.assignLoop cont row) := by
  unfold DbValues.Fits at fits
  induction fits with
  | nil => exact .nil
  | cons fit _ ih =>
    obtain ⟨left,leftRest⟩ := List.forall_mem_cons.mp ruled
    obtain ⟨right,rightRest⟩ := List.forall_mem_cons.mp source
    exact .cons ⟨rfl,DbValue.assign_typeRule left right fit⟩ (ih leftRest rightRest)

/-- The row of the program that an edit puts in the place of another one. -/
def RowEdit.replacement : RowEdit → Option RuledRow
  | .moveAssign row => some row
  | .swap row => some row
  | _ => none

theorem RowEdit.run_ok {edit : RowEdit} (ruled : Ruled row) (ran : edit.run row = .ok () row') :
    RowKept row row' ∨ ∃ new, edit.replacement = some new ∧ row' = new.val := by
  cases edit with
  | cell field edit =>
    simp only [RowEdit.run,element] at ran
    cases found : row[field]? with
    | none =>
      rw [found] at ran
      cases ran
    | some d =>
      simp only [found] at ran
      have law := edit.run_keeps d
      cases result : edit.run d with
      | ok done changed =>
        rw [result] at ran law
        cases ran
        exact .inl (set_kept ruled found law.1 (law.2 (ruled d (List.mem_of_getElem? found))))
      | error e changed =>
        rw [result] at ran
        cases ran
  | copyAssign new =>
    by_cases fits : DbValues.Fits row new.val
    · cases (DbValues.copyAssign_of_fits fits).symm.trans ran
      exact .inl (assignLoop_kept ruled new.property fits)
    · cases (DbValues.copyAssign_of_not_fits fits).symm.trans ran
  | moveAssign new =>
    rcases moveInto_cases new.val row with refused | moved
    · cases refused.symm.trans ran
    · cases moved.symm.trans ran
      exact .inr ⟨new,rfl,rfl⟩
  | swap new =>
    cases ran
    exact .inr ⟨new,rfl,rfl⟩

end kept

structure Sound (ds : Dataset) : Prop where
  conforming : Conforming ds
  ruled : ∀ row ∈ ds.rows, Ruled row

section edited
variable {ds changed : Dataset}

theorem Sound.set {i : Nat} {row : DbValues} (sound : Sound ds)
    (conforms : ds.fieldtypes ≠ [] → List.Forall₂ CellConforms ds.fieldtypes row) (ruled : Ruled row) :
    Sound {ds with rows := ds.rows.set i row} := by
  constructor
  · intro typed other member
    rcases List.mem_or_eq_of_mem_set member with old | rfl
    · exact sound.conforming typed other old
    · exact conforms typed
  · intro other member
    rcases List.mem_or_eq_of_mem_set member with old | rfl
    · exact sound.ruled other old
    · exact ruled

theorem edited_sound {i : Nat} {edit : RowEdit} (sound : Sound ds) (careful : ∀ row, edit.replacement = some row →
    ds.fieldtypes ≠ [] → List.Forall₂ CellConforms ds.fieldtypes row.val)
    (ran : onRows (element i edit.run) ds = .ok () changed) : Sound changed := by
  simp only [onRows,element] at ran
  cases found : ds.rows[i]? with
  | none =>
    rw [found] at ran
    cases ran
  | some row =>
    simp only [found] at ran
    have member := List.mem_of_getElem? found
    cases result : edit.run row with
    | ok done row' =>
      rw [result] at ran
      cases ran
      rcases RowEdit.run_ok (sound.ruled row member) result with kept | ⟨new,replaced,rfl⟩
      · exact sound.set (fun typed => kept.conforms (sound.conforming typed row member)) kept.ruled
      · exact sound.set (careful new replaced) new.property
    | error e row' =>
      rw [result] at ran
      cases ran

end edited

section assigned
variable {capacity : Nat} {ds other after : Dataset} {e : Error}

/-- The rows that a copy assignment keeps have the types of the fields that they come under. -/
def Assignable (capacity : Nat) (ds other : Dataset) : Prop :=
  other.fieldtypes = [] ∨ capacity < other.rows.length ∨
    ∀ pair ∈ ds.rows.zip other.rows, List.Forall₂ FieldOf other.fieldtypes pair.1

theorem copyAssign_row {row source changed : DbValues} (ran : DbValues.copyAssign source row = .ok () changed) :
    DbValues.Fits row source ∧ changed = DbValues.assignLoop row source := by
  by_cases fits : DbValues.Fits row source
  · cases (DbValues.copyAssign_of_fits fits).symm.trans ran
    exact ⟨fits,rfl⟩
  · cases (DbValues.copyAssign_of_not_fits fits).symm.trans ran

theorem copyAssign_strict (source : DbValues) : Strict (DbValues.copyAssign source) := by
  intro row e left thrown
  by_cases fits : DbValues.Fits row source
  · cases (DbValues.copyAssign_of_fits fits).symm.trans thrown
  · cases (DbValues.copyAssign_of_not_fits fits).symm.trans thrown
    rfl

theorem copyAssign_rows (ran : Dataset.copyAssign capacity other ds = .ok () after) (P : DbValues → Prop) :
    after.fieldtypes = other.fieldtypes ∧ ((∀ row ∈ after.rows, P row) ↔
      if capacity < other.rows.length then ∀ row ∈ other.rows, P row
      else (∀ pair ∈ ds.rows.zip other.rows, DbValues.Fits pair.1 pair.2 ∧ P (DbValues.assignLoop pair.1 pair.2)) ∧
        ∀ row ∈ other.rows.drop ds.rows.length, P row) := by
  unfold Dataset.copyAssign VectorAssign.copyAssign at ran
  split_ifs at ran with fresh
  · cases ran
    simp [fresh]
  · cases result : VectorAssign.copyOnto DbValues.copyAssign other.rows ds.rows with
    | error e rows =>
      rw [result] at ran
      cases ran
    | ok done rows =>
      rw [result] at ran
      cases ran
      refine ⟨rfl,?_⟩
      rw [if_neg fresh]
      refine (VectorAssign.copyOnto_ok result P).trans (and_congr_left' (forall₂_congr fun pair member => ?_))
      constructor
      · rintro ⟨changed,assigned,holds⟩
        obtain ⟨fits,rfl⟩ := copyAssign_row assigned
        exact ⟨fits,holds⟩
      · rintro ⟨fits,holds⟩
        exact ⟨_,DbValues.copyAssign_of_fits fits,holds⟩

/-- A copy assignment that throws may have changed values, but neither types nor names. -/
theorem copyAssign_thrown {R : DbValues → DbValues → Prop} (thrown : Dataset.copyAssign capacity other ds = .error e after)
    (untouched : ∀ row ∈ ds.rows, R row row)
    (assigned : ∀ row ∈ ds.rows, ∀ source ∈ other.rows, DbValues.Fits row source → R row (DbValues.assignLoop row source)) :
    ∃ rows, after = {ds with rows} ∧ List.Forall₂ R ds.rows rows := by
  unfold Dataset.copyAssign VectorAssign.copyAssign at thrown
  split_ifs at thrown with fresh
  cases result : VectorAssign.copyOnto DbValues.copyAssign other.rows ds.rows with
  | ok done rows =>
    rw [result] at thrown
    cases thrown
  | error e rows =>
    rw [result] at thrown
    cases thrown
    refine ⟨rows,rfl,VectorAssign.copyOnto_error result untouched ?_ ?_⟩
    · intro pair member changed ran
      obtain ⟨fits,rfl⟩ := copyAssign_row ran
      exact assigned pair.1 (List.of_mem_zip member).1 pair.2 (List.of_mem_zip member).2 fits
    · intro pair member e changed refused
      rw [copyAssign_strict pair.2 pair.1 e changed refused]
      exact untouched pair.1 (List.of_mem_zip member).1

theorem copyAssign_fits (ran : Dataset.copyAssign capacity other ds = .ok () after) (kept : ¬ capacity < other.rows.length) :
    ∀ pair ∈ ds.rows.zip other.rows, DbValues.Fits pair.1 pair.2 := by
  have assigned := (copyAssign_rows ran fun _ => True).2.mp (fun _ _ => trivial)
  rw [if_neg kept] at assigned
  exact fun pair member => (assigned.1 pair member).1

theorem pair_kept {pair : DbValues × DbValues} (sound : Sound ds) (source : Sound other)
    (member : pair ∈ ds.rows.zip other.rows) (fits : DbValues.Fits pair.1 pair.2) :
    RowKept pair.1 (DbValues.assignLoop pair.1 pair.2) :=
  assignLoop_kept (sound.ruled _ (List.of_mem_zip member).1) (source.ruled _ (List.of_mem_zip member).2) fits

theorem copyAssign_ruled (sound : Sound ds) (source : Sound other) (ran : Dataset.copyAssign capacity other ds = .ok () after) :
    ∀ row ∈ after.rows, Ruled row := by
  rw [(copyAssign_rows ran Ruled).2]
  split_ifs with fresh
  · exact source.ruled
  · refine ⟨fun pair member => ?_,fun row member => source.ruled row (List.mem_of_mem_drop member)⟩
    have fits := copyAssign_fits ran fresh pair member
    exact ⟨fits,(pair_kept sound source member fits).ruled⟩

theorem copyAssign_conforming_iff (sound : Sound ds) (source : Sound other)
    (ran : Dataset.copyAssign capacity other ds = .ok () after) : Conforming after ↔ Assignable capacity ds other := by
  unfold Conforming Assignable
  obtain ⟨types,law⟩ := copyAssign_rows ran (List.Forall₂ CellConforms other.fieldtypes)
  rw [types,law]
  by_cases typed : other.fieldtypes = []
  · simp [typed]
  split_ifs with fresh
  · exact iff_of_true source.conforming (.inr (.inl fresh))
  · have added : ∀ row ∈ other.rows.drop ds.rows.length, List.Forall₂ CellConforms other.fieldtypes row :=
      fun row member => source.conforming typed row (List.mem_of_mem_drop member)
    simp only [typed,fresh,ne_eq,not_false_eq_true,forall_const,false_or,and_iff_left added]
    refine forall₂_congr fun pair member => ?_
    have fits := copyAssign_fits ran fresh pair member
    rw [and_iff_right fits,(pair_kept sound source member fits).conforms_iff]

theorem copyAssign_sound (sound : Sound ds) (source : Sound other)
    (careful : Dataset.copyAssign capacity other ds = .ok () (leftBy (Dataset.copyAssign capacity other ds)) →
      Assignable capacity ds other) : Sound (leftBy (Dataset.copyAssign capacity other ds)) := by
  cases ran : Dataset.copyAssign capacity other ds with
  | ok done after =>
    rw [ran] at careful
    exact ⟨(copyAssign_conforming_iff sound source ran).mpr (careful rfl),copyAssign_ruled sound source ran⟩
  | error e after =>
    obtain ⟨rows,rfl,kept⟩ := @copyAssign_thrown _ _ _ _ _ RowKept ran
      (fun row member => List.forall₂_same.mpr fun d there => ⟨rfl,sound.ruled row member d there⟩)
      (fun row member new there fits => assignLoop_kept (sound.ruled row member) (source.ruled new there) fits)
    constructor
    · intro typed
      exact VectorAssign.forall_of_related kept fun old there row same => same.conforms (sound.conforming typed old there)
    · exact VectorAssign.forall_of_related kept fun old there row same => same.ruled

end assigned

end Sl3.Editing
