import Sl3.Selection
import Sl3.Library.Machine

/-! Runs over any number of Datasets that are constructed, selected, copied, moved, merged
into each other, reset and sorted. Datasets refer to each other by index, so that one may
be merged into itself. -/
namespace Sl3.DatasetRuns
open Library Library.Machine Command Columns Selection

abbrev Datasets := List Dataset

/-- A row that a program can build: every `DbValue` keeps its type rule. -/
abbrev RuledRow := {row : DbValues // ∀ d ∈ row, d.TypeRule}

/-- The default constructor is `ofTypes []`; a sort is one that returns, known by the order it leaves. -/
inductive Call where
  | ofTypes (types : List ValueType)
  | select {q : Query} (p : Platform) (cmd : Command q) (parameters : DbValues) (types : List ValueType)
  | copyConstruct (source : Nat)
  | moveConstruct (source : Nat)
  | merge (target source : Nat)
  | mergeRow (target : Nat) (row : RuledRow)
  | reset (target : Nat)
  | resetTypes (target : Nat) (types : List ValueType)
  | sort (target : Nat) (order : List DbValues)

def on (datasets : Datasets) (target : Nat) (method : Method Dataset Unit) :
    Option (EStateM.Result Thrown Datasets Unit) :=
  datasets[target]?.map fun ds =>
    match method ds with
    | .ok _ changed => .ok () (datasets.set target changed)
    | .error e changed => .error (.sl3 e) (datasets.set target changed)

/-- A call on objects that exist. The standard gives `vector::insert` no meaning for a range
of the vector itself, so what it leaves there is up to the implementation. -/
def call (selfInsert : List DbValues → List DbValues) (datasets : Datasets) :
    Call → Option (EStateM.Result Thrown Datasets Unit)
  | .ofTypes types => some (.ok () (datasets ++ [Dataset.ofTypes types]))
  | .select p cmd parameters types =>
    match Command.select p parameters types cmd with
    | .ok ds _ => some (.ok () (datasets ++ [ds]))
    | .error e _ => some (.error e datasets)
  | .copyConstruct source => datasets[source]?.map fun ds => .ok () (datasets ++ [ds])
  | .moveConstruct source =>
    datasets[source]?.map fun ds => .ok () (datasets.set source ds.moveOut.2 ++ [ds.moveOut.1])
  | .merge target source => do
    let ds ← datasets[target]?
    let other ← datasets[source]?
    let inserted := if target = source then selfInsert ds.rows else ds.rows ++ other.rows
    on datasets target (Dataset.merge inserted other)
  | .mergeRow target row => on datasets target (Dataset.mergeRow row)
  | .reset target => on datasets target Dataset.reset
  | .resetTypes target types => on datasets target (Dataset.resetTypes types)
  | .sort target order => do
    let ds ← datasets[target]?
    if order.Perm ds.rows then some (.ok () (datasets.set target {ds with rows := order})) else none

def step (selfInsert : List DbValues → List DbValues) (datasets : Datasets) (c : Call) : Option Datasets :=
  (call selfInsert datasets c).map leftBy

/-- What a cell has to be under a field type; Null as a field type counts as Variant. -/
def CellConforms (type : ValueType) (d : DbValue) : Prop :=
  type = .null ∨ type = .variant ∨ d.dbtype = type ∧ (d.type = .null ∨ d.type = type)

/-- A Dataset with field types holds rows of that many cells, each after its field type. -/
def Conforming (ds : Dataset) : Prop :=
  ds.fieldtypes ≠ [] → ∀ row ∈ ds.rows, List.Forall₂ CellConforms ds.fieldtypes row

def Rectangular (ds : Dataset) : Prop := ∀ row ∈ ds.rows, ∀ other ∈ ds.rows, row.length = other.length

/-- The Datasets that a call leaves and that were not there before. -/
inductive Made (selfInsert : List DbValues → List DbValues) (datasets : Datasets) : Call → Dataset → Prop
  | ofTypes (types : List ValueType) : Made selfInsert datasets (.ofTypes types) (Dataset.ofTypes types)
  | select {q : Query} {p : Platform} {cmd left : Command q} {parameters : DbValues} {types : List ValueType}
      {ds : Dataset} (returned : Command.select p parameters types cmd = .ok ds left) :
      Made selfInsert datasets (.select p cmd parameters types) ds
  | movedFrom (source : Nat) : Made selfInsert datasets (.moveConstruct source) (Dataset.ofTypes [])
  | merge {target source : Nat} {ds other after : Dataset} (here : datasets[target]? = some ds)
      (there : datasets[source]? = some other)
      (merged : Dataset.merge (if target = source then selfInsert ds.rows else ds.rows ++ other.rows) other ds =
        .ok () after) : Made selfInsert datasets (.merge target source) after
  | mergeRow {target : Nat} {row : RuledRow} {ds after : Dataset} (here : datasets[target]? = some ds)
      (merged : Dataset.mergeRow row.val ds = .ok () after) : Made selfInsert datasets (.mergeRow target row) after
  | reset {target : Nat} {ds : Dataset} (here : datasets[target]? = some ds) :
      Made selfInsert datasets (.reset target) (Dataset.ofTypes ds.fieldtypes)
  | resetTypes (target : Nat) (types : List ValueType) :
      Made selfInsert datasets (.resetTypes target types) (Dataset.ofTypes types)
  | sort {target : Nat} {ds : Dataset} {order : List DbValues} (here : datasets[target]? = some ds)
      (permuted : order.Perm ds.rows) : Made selfInsert datasets (.sort target order) {ds with rows := order}

section step
variable {selfInsert : List DbValues → List DbValues} {datasets after : Datasets} {c : Call} {ds made : Dataset}

theorem on_cases {target : Nat} {method : Method Dataset Unit} (ran : (on datasets target method).map leftBy = some after) :
    ∃ ds, datasets[target]? = some ds ∧ after = datasets.set target (leftBy (method ds)) := by
  unfold on at ran
  cases here : datasets[target]? with
  | none => simp [here] at ran
  | some ds =>
    refine ⟨ds,rfl,?_⟩
    cases result : method ds <;> simpa [here,result,leftBy,eq_comm] using ran

theorem constructed_cases {source : Nat} {constructed : Dataset → Datasets}
    (ran : (datasets[source]?.map fun ds => (.ok () (constructed ds) : EStateM.Result Thrown Datasets Unit)).map leftBy =
      some after) : ∃ ds, datasets[source]? = some ds ∧ after = constructed ds := by
  rw [Option.map_map] at ran
  obtain ⟨ds,there,same⟩ := Option.map_eq_some_iff.mp ran
  exact ⟨ds,there,same.symm⟩

theorem mem_set {P : Dataset → Prop} {target : Nat} (member : made ∈ datasets.set target ds) (new : P ds) :
    made ∈ datasets ∨ P made := by
  rcases List.mem_or_eq_of_mem_set member with old | rfl
  · exact .inl old
  · exact .inr new

theorem mem_append {P : Dataset → Prop} (member : made ∈ datasets ++ [ds]) (new : P ds) :
    made ∈ datasets ∨ P made := by
  rcases List.mem_append.mp member with old | last
  · exact .inl old
  · cases List.mem_singleton.mp last
    exact .inr new

theorem mem_of_get {target : Nat} (here : datasets[target]? = some ds) : ds ∈ datasets :=
  List.mem_of_getElem? here

/-- A call leaves the Datasets that were there and those that it makes. -/
theorem step_cases (stepped : step selfInsert datasets c = some after) (member : made ∈ after) :
    made ∈ datasets ∨ Made selfInsert datasets c made := by
  unfold step call at stepped
  cases c with
  | ofTypes types =>
    cases stepped
    exact mem_append member (.ofTypes types)
  | select p cmd parameters types =>
    cases result : Command.select p parameters types cmd with
    | ok ds left =>
      simp only [result,Option.map_some,leftBy,Option.some.injEq] at stepped
      subst stepped
      exact mem_append member (.select result)
    | error e left =>
      simp only [result,Option.map_some,leftBy,Option.some.injEq] at stepped
      subst stepped
      exact .inl member
  | copyConstruct source =>
    obtain ⟨ds,there,rfl⟩ := constructed_cases stepped
    rcases mem_append member rfl with old | rfl
    · exact .inl old
    · exact .inl (mem_of_get there)
  | moveConstruct source =>
    obtain ⟨ds,there,rfl⟩ := constructed_cases stepped
    rcases mem_append member rfl with old | rfl
    · exact mem_set old (.movedFrom source)
    · exact .inl (mem_of_get there)
  | merge target source =>
    cases here : datasets[target]? with
    | none => simp [here] at stepped
    | some ds =>
      cases there : datasets[source]? with
      | none => simp [there] at stepped
      | some other =>
        simp only [here,there,Option.bind_eq_bind,Option.bind_some] at stepped
        obtain ⟨_,same,rfl⟩ := on_cases stepped
        cases here.symm.trans same
        rcases mem_set member rfl with old | rfl
        · exact .inl old
        · rcases Dataset.merge_cases (if target = source then selfInsert ds.rows else ds.rows ++ other.rows) other ds
            with failed | ⟨merged,_⟩
          · rw [failed]
            exact .inl (mem_of_get here)
          · rw [merged]
            exact .inr (.merge here there merged)
  | mergeRow target row =>
    obtain ⟨ds,here,rfl⟩ := on_cases stepped
    rcases mem_set member rfl with old | rfl
    · exact .inl old
    · rcases Dataset.mergeRow_cases row.val ds with failed | ⟨merged,_⟩
      · rw [failed]
        exact .inl (mem_of_get here)
      · rw [merged]
        exact .inr (.mergeRow here merged)
  | reset target =>
    obtain ⟨ds,here,rfl⟩ := on_cases stepped
    exact mem_set member (.reset here)
  | resetTypes target types =>
    obtain ⟨ds,here,rfl⟩ := on_cases stepped
    exact mem_set member (.resetTypes target types)
  | sort target order =>
    cases here : datasets[target]? with
    | none => simp [here] at stepped
    | some ds =>
      by_cases permuted : order.Perm ds.rows
      · simp only [here,Option.bind_eq_bind,Option.bind_some,permuted,if_true,Option.map_some,leftBy,
          Option.some.injEq] at stepped
        subst stepped
        exact mem_set member (.sort here permuted)
      · simp [here,permuted] at stepped

end step

section select
variable {q : Query} {ds : Dataset} {types : List ValueType}

theorem converted_conforms {type : ValueType} {cell : Cell} (accepted : Accepts type cell) :
    CellConforms type (converted type cell) := by
  by_cases null : type = .null
  · exact .inl null
  · refine .inr ?_
    rcases accepted with rfl | variant | own
    · exact .inr ⟨if_neg null,.inl rfl⟩
    · exact .inl variant
    · exact .inr ⟨if_neg null,.inr own.symm⟩

theorem cells_conform {cells : List Cell} (fits : List.Forall₂ Accepts types cells) :
    List.Forall₂ CellConforms types (List.zipWith converted types cells) := by
  induction fits with
  | nil => exact .nil
  | cons accepted _ ih => exact .cons (converted_conforms accepted) ih

/-- What holds of the Dataset that a select fills; without columns there are no field types either. -/
structure Filling (q : Query) (ds : Dataset) : Prop where
  conforming : Conforming ds
  sized : ∀ row ∈ ds.rows, row.length = q.names.length
  begun : ds.names = [] → ds.rows = [] ∨ q.names = [] ∧ ds.fieldtypes = []

theorem filling_ofTypes (q : Query) (types : List ValueType) : Filling q (Dataset.ofTypes types) :=
  ⟨fun _ => nofun,nofun,fun _ => .inl rfl⟩

theorem Filling.appendRow (filling : Filling q ds) (unnamed : ds.names = [] → q.names = [] ∧ ds.fieldtypes = [])
    (row : Row q.names.length) : Filling q (leftBy (Command.appendRow (q.columns row) ds)) := by
  by_cases fits : List.Forall₂ Accepts ds.fieldtypes (q.columns row).cells
  · rw [appendRow_ok fits]
    refine ⟨?_,?_,fun none => .inr (unnamed none)⟩
    · intro typed values member
      rcases List.mem_append.mp member with old | last
      · exact filling.conforming typed values old
      · cases List.mem_singleton.mp last
        exact cells_conform fits
    · intro values member
      rcases List.mem_append.mp member with old | last
      · exact filling.sized values old
      · cases List.mem_singleton.mp last
        rw [convertRow_length fits]
        exact row.property
  · obtain ⟨what,failed⟩ := appendRow_error fits
    rw [failed]
    exact filling

theorem Filling.named (filling : Filling q ds) (none : ds.names = []) :
    Filling q {ds with fieldtypes := fieldtypes ds.fieldtypes q.names.length,names := q.names} := by
  rcases filling.begun none with empty | ⟨columns,types⟩
  · refine ⟨fun _ values member => ?_,filling.sized,fun _ => .inl empty⟩
    rw [show ds.rows = [] from empty] at member
    cases member
  · have untyped : fieldtypes ds.fieldtypes q.names.length = [] := by
      rw [types,fieldtypes_nil,columns]
      rfl
    exact ⟨fun typed => absurd untyped typed,filling.sized,fun _ => .inr ⟨columns,untyped⟩⟩

theorem Filling.fillds (filling : Filling q ds) (row : Row q.names.length) :
    Filling q (leftBy (Command.fillds (q.columns row) ds)) := by
  by_cases none : ds.names = []
  · have size : (q.columns row).cells.length = q.names.length := row.property
    rw [Command.fillds,if_pos (by rw [none]; rfl),firstRow,getNames_eq,size]
    split_ifs with bad
    · exact filling
    · refine Filling.appendRow (filling.named none) ?_ row
      intro columns
      have zero : q.names.length = 0 := List.length_eq_zero_iff.mpr columns
      have count : (q.columns row).count = 0 := by simp [Columns.count,size,zero]
      rw [count,and_self,not_not] at bad
      exact ⟨columns,by simp [fieldtypes,bad,zero]⟩
  · rw [fillds_named none]
    exact filling.appendRow (fun empty => absurd empty none) row

theorem select_filling {p : Platform} {cmd left : Command q} {parameters : DbValues}
    (returned : select p parameters types cmd = .ok ds left) : Filling q ds :=
  select_keeps (fun row _ filling => filling.fillds row) (filling_ofTypes q types) returned

end select

section invariants
variable {selfInsert : List DbValues → List DbValues} {datasets after : Datasets} {c : Call} {ds other made : Dataset}
  {types others : List ValueType} {row : DbValues}

theorem takes_conforms (takes : Dataset.Takes types others) (conforms : List.Forall₂ CellConforms others row) :
    List.Forall₂ CellConforms types row := by
  induction takes generalizing row with
  | nil => exact conforms
  | cons takes _ ih =>
    obtain ⟨_,_,cell,rest,rfl⟩ := List.forall₂_cons_left_iff.mp conforms
    refine .cons ?_ (ih rest)
    rcases takes with variant | rfl
    · exact .inr (.inl variant)
    · exact cell

theorem takes_row (takes : Dataset.Takes types row.dbtypes) (ruled : ∀ d ∈ row, d.TypeRule) :
    List.Forall₂ CellConforms types row := by
  induction row generalizing types with
  | nil =>
    cases takes
    exact .nil
  | cons d row ih =>
    obtain ⟨type,_,fits,rest,rfl⟩ := List.forall₂_cons_right_iff.mp takes
    refine .cons ?_ (ih rest fun other member => ruled other (List.mem_cons_of_mem _ member))
    rcases fits with variant | own
    · exact .inr (.inl variant)
    · rcases (ruled d List.mem_cons_self).2 with null | same | variant
      · exact .inr (.inr ⟨own.symm,.inl null⟩)
      · exact .inr (.inr ⟨own.symm,.inr (same.trans own.symm)⟩)
      · exact .inr (.inl (own.trans variant))

/-- No Dataset is merged into itself. -/
def Apart : Call → Prop
  | .merge target source => target ≠ source
  | _ => True

theorem ofTypes_conforming (types : List ValueType) : Conforming (Dataset.ofTypes types) := fun _ => nofun

theorem Made.conforming (made : Made selfInsert datasets c ds) (apart : Apart c)
    (conforming : ∀ ds ∈ datasets, Conforming ds) : Conforming ds := by
  cases made with
  | ofTypes types => exact ofTypes_conforming types
  | select returned => exact (select_filling returned).conforming
  | movedFrom => exact ofTypes_conforming []
  | @merge target source ds other after here there merged =>
    obtain ⟨rfl,takes⟩ := Dataset.merge_ok merged
    rw [if_neg apart]
    intro typed row member
    rcases List.mem_append.mp member with old | new
    · exact conforming ds (mem_of_get here) typed row old
    · have typed' : other.fieldtypes ≠ [] := by
        intro none
        rw [none] at takes
        exact typed (List.forall₂_nil_right_iff.mp takes)
      exact takes_conforms takes (conforming other (mem_of_get there) typed' row new)
  | @mergeRow target row ds after here merged =>
    obtain ⟨rfl,takes⟩ := Dataset.mergeRow_ok merged
    intro typed values member
    rcases List.mem_append.mp member with old | last
    · exact conforming ds (mem_of_get here) typed values old
    · cases List.mem_singleton.mp last
      exact takes_row (takes typed) row.property
  | reset here => exact ofTypes_conforming _
  | resetTypes target types => exact ofTypes_conforming types
  | @sort target ds order here permuted =>
    intro typed row member
    exact conforming ds (mem_of_get here) typed row (permuted.mem_iff.mp member)

theorem step_conforming (conforming : ∀ ds ∈ datasets, Conforming ds) (apart : Apart c)
    (stepped : step selfInsert datasets c = some after) : ∀ ds ∈ after, Conforming ds := by
  intro ds member
  rcases step_cases stepped member with old | made
  · exact conforming ds old
  · exact made.conforming apart conforming

end invariants

theorem ruled_one : ∀ d ∈ [(⟨.int,.int 1⟩ : DbValue)], d.TypeRule := by decide

theorem ruled_two : ∀ d ∈ [(⟨.int,.int 1⟩ : DbValue),⟨.variant,.text [97]⟩], d.TypeRule := by decide

def one : RuledRow := ⟨_,ruled_one⟩
def two : RuledRow := ⟨_,ruled_two⟩

/-- A vector without room moves its rows to fresh storage first and copies the range then: what
the range holds by that time are empty rows. -/
def growInsert (rows : List DbValues) : List DbValues := rows ++ rows.map fun _ => []

/-- Every Dataset that a program reaches without merging one into itself holds rows that conform
to its field types. -/
theorem reaches_conforming {selfInsert : List DbValues → List DbValues} {datasets : Datasets}
    (run : Reaches (step selfInsert) (fun _ c => Apart c) [] datasets) : ∀ ds ∈ datasets, Conforming ds :=
  run.invariant nofun fun conforming apart stepped => step_conforming conforming apart stepped

theorem reaches_conforming_merged : Conforming ⟨[one.val,one.val],[.int],[]⟩ := by
  have first : Reaches (step growInsert) (fun _ c => Apart c) [] [Dataset.ofTypes [.int]] :=
    Reaches.start.next (.ofTypes [.int]) trivial rfl
  have second := first.next (.mergeRow 0 one) trivial rfl
  have third := second.next (.copyConstruct 0) trivial rfl
  have last := third.next (.merge 0 1) (by decide : 0 ≠ 1) rfl
  exact reaches_conforming last _ List.mem_cons_self

theorem self_merge_not_conforming :
    Machine.runAll (step growInsert) [] [.ofTypes [.int],.mergeRow 0 one,.merge 0 0] = some [⟨[one.val,[]],[.int],[]⟩] ∧
      ¬ Conforming ⟨[one.val,[]],[.int],[]⟩ := by
  refine ⟨rfl,fun conforming => ?_⟩
  have size := (conforming (by simp) [] (by simp)).length_eq
  cases size

section invariants
variable {selfInsert : List DbValues → List DbValues} {datasets after : Datasets} {c : Call} {ds other made : Dataset}
  {row : DbValues}

/-- No Dataset is merged into itself, and one that has rows but no field types is merged with
rows of their size. -/
def Fitting (datasets : Datasets) : Call → Prop
  | .merge target source => target ≠ source ∧ ∀ ds other, datasets[target]? = some ds → datasets[source]? = some other →
      ds.fieldtypes = [] → ∀ row ∈ ds.rows, ∀ new ∈ other.rows, row.length = new.length
  | .mergeRow target new => ∀ ds, datasets[target]? = some ds →
      ds.fieldtypes = [] → ∀ row ∈ ds.rows, row.length = new.val.length
  | _ => True

theorem Fitting.apart (fitting : Fitting datasets c) : Apart c := by
  cases c with
  | merge => exact fitting.1
  | _ => trivial

theorem Conforming.rectangular (conforming : Conforming ds) (typed : ds.fieldtypes ≠ []) : Rectangular ds := by
  intro row member other member'
  rw [← (conforming typed row member).length_eq,(conforming typed other member').length_eq]

theorem ofTypes_rectangular (types : List ValueType) : Rectangular (Dataset.ofTypes types) := nofun

theorem Rectangular.append {rows : List DbValues} (old : ∀ row ∈ ds.rows, ∀ other ∈ ds.rows, row.length = other.length)
    (new : ∀ row ∈ rows, ∀ other ∈ rows, row.length = other.length)
    (across : ∀ row ∈ ds.rows, ∀ other ∈ rows, row.length = other.length) :
    Rectangular {ds with rows := ds.rows ++ rows} := by
  intro row member other member'
  rcases List.mem_append.mp member with first | first
  · rcases List.mem_append.mp member' with second | second
    · exact old row first other second
    · exact across row first other second
  · rcases List.mem_append.mp member' with second | second
    · exact (across other second row first).symm
    · exact new row first other second

theorem Made.rectangular (made : Made selfInsert datasets c ds) (fitting : Fitting datasets c)
    (conforming : ∀ ds ∈ datasets, Conforming ds) (rectangular : ∀ ds ∈ datasets, Rectangular ds) : Rectangular ds := by
  by_cases typed : ds.fieldtypes = []
  · cases made with
    | ofTypes types => exact ofTypes_rectangular types
    | select returned =>
      have sized := (select_filling returned).sized
      exact fun row member other member' => (sized row member).trans (sized other member').symm
    | movedFrom => exact ofTypes_rectangular []
    | @merge target source ds other after here there merged =>
      obtain ⟨rfl,_⟩ := Dataset.merge_ok merged
      rw [if_neg fitting.1]
      exact Rectangular.append (rectangular ds (mem_of_get here)) (rectangular other (mem_of_get there))
        (fitting.2 ds other here there typed)
    | @mergeRow target row ds after here merged =>
      obtain ⟨rfl,_⟩ := Dataset.mergeRow_ok merged
      apply Rectangular.append (rectangular ds (mem_of_get here))
      · simp
      · simpa using fitting ds here typed
    | reset here => exact ofTypes_rectangular _
    | resetTypes target types => exact ofTypes_rectangular types
    | @sort target ds order here permuted =>
      intro row member other member'
      exact rectangular ds (mem_of_get here) row (permuted.mem_iff.mp member) other (permuted.mem_iff.mp member')
  · exact (made.conforming fitting.apart conforming).rectangular typed

theorem step_sound (sound : ∀ ds ∈ datasets, Conforming ds ∧ Rectangular ds) (fitting : Fitting datasets c)
    (stepped : step selfInsert datasets c = some after) : ∀ ds ∈ after, Conforming ds ∧ Rectangular ds := by
  have conforming : ∀ ds ∈ datasets, Conforming ds := fun ds member => (sound ds member).1
  have rectangular : ∀ ds ∈ datasets, Rectangular ds := fun ds member => (sound ds member).2
  intro ds member
  refine ⟨step_conforming conforming fitting.apart stepped ds member,?_⟩
  rcases step_cases stepped member with old | made
  · exact rectangular ds old
  · exact made.rectangular fitting conforming rectangular

theorem mergeRow_refused (conforming : ∀ ds ∈ datasets, Conforming ds) {target : Nat} {new : RuledRow}
    (here : datasets[target]? = some ds) (fitting : Fitting datasets (.mergeRow target new)) (member : row ∈ ds.rows)
    (differs : row.length ≠ new.val.length) :
    call selfInsert datasets (.mergeRow target new) = some (.error (.sl3 (errTypeMisMatch "")) datasets) := by
  have typed : ds.fieldtypes ≠ [] := fun none => differs (fitting ds here none row member)
  have size := (conforming ds (mem_of_get here) typed row member).length_eq
  have refused := Dataset.mergeRow_of_size typed (by rwa [size] : ds.fieldtypes.length ≠ new.val.length)
  obtain ⟨inside,rfl⟩ := List.getElem?_eq_some_iff.mp here
  simp only [call,on,here,Option.map_some,refused,List.set_getElem_self]

end invariants

/-- In every run that merges no Dataset into itself, and into one without field types only rows of the
size of those that are there, the Datasets stay rectangular and refuse a row of another size. -/
theorem reaches_rectangular {selfInsert : List DbValues → List DbValues} {datasets : Datasets}
    (run : Reaches (step selfInsert) Fitting [] datasets) : (∀ ds ∈ datasets, Rectangular ds) ∧
    ∀ (target : Nat) (ds : Dataset) (row : DbValues) (new : RuledRow), datasets[target]? = some ds → row ∈ ds.rows →
      row.length ≠ new.val.length → Fitting datasets (.mergeRow target new) →
      call selfInsert datasets (.mergeRow target new) = some (.error (.sl3 (errTypeMisMatch "")) datasets) := by
  have sound : ∀ ds ∈ datasets, Conforming ds ∧ Rectangular ds :=
    run.invariant nofun fun sound fitting stepped => step_sound sound fitting stepped
  refine ⟨fun ds member => (sound ds member).2,?_⟩
  intro target ds row new here member differs fitting
  exact mergeRow_refused (fun ds member => (sound ds member).1) here fitting member differs

theorem reaches_rectangular_typed :
    Rectangular ⟨[one.val],[.int],[]⟩ ∧ call growInsert [⟨[one.val],[.int],[]⟩] (.mergeRow 0 two) =
      some (.error (.sl3 (errTypeMisMatch "")) [⟨[one.val],[.int],[]⟩]) := by
  have first : Reaches (step growInsert) Fitting [] [Dataset.ofTypes [.int]] :=
    Reaches.start.next (.ofTypes [.int]) trivial rfl
  have last := first.next (.mergeRow 0 one) (fun ds here typed => by cases here; cases typed) rfl
  obtain ⟨rectangular,refuses⟩ := reaches_rectangular last
  refine ⟨rectangular _ List.mem_cons_self,?_⟩
  exact refuses 0 _ one.val two rfl List.mem_cons_self (by decide) (fun ds here typed => by cases here; cases typed)

theorem untyped_not_rectangular :
    Machine.runAll (step growInsert) [] [.ofTypes [],.mergeRow 0 one,.mergeRow 0 two] = some [⟨[one.val,two.val],[],[]⟩] ∧
      ¬ Rectangular ⟨[one.val,two.val],[],[]⟩ := by
  refine ⟨rfl,fun rectangular => ?_⟩
  have size := rectangular one.val (by simp) two.val (by simp)
  cases size

end Sl3.DatasetRuns
