import Sl3.Editing
import Sl3.Sorting

/-! Runs over any number of Datasets that are edited, sorted and assigned to each other between all other calls. -/
namespace Sl3.EditingRuns
open Library Library.Machine DatasetRuns Editing Sorting

/-- The vector of rows that is copied to has room for `capacity` rows. Where `.call (.sort ..)` is a sort that has
returned, known by the order it leaves, `sort` compares the rows and may throw. -/
inductive Call where
  | call (c : DatasetRuns.Call)
  | sort (target : Nat) (stdSort : ComparisonSort.Algorithm) (idxs : List Nat) (cmp : Option (DbValue → DbValue → Bool))
  | edit (target i : Nat) (edit : RowEdit)
  | copyAssign (target source capacity : Nat)
  | moveAssign (target source : Nat)

/-- The standard leaves open what a vector is that was moved to itself. -/
def call (selfInsert : List DbValues → List DbValues) (datasets : Datasets) :
    Call → Option (EStateM.Result Thrown Datasets Unit)
  | .call c => DatasetRuns.call selfInsert datasets c
  | .sort target stdSort idxs cmp => on datasets target (Dataset.sort stdSort idxs cmp)
  | .edit target i edit => on datasets target (onRows (element i edit.run))
  | .copyAssign target source capacity => do
    let other ← datasets[source]?
    on datasets target (Dataset.copyAssign capacity other)
  | .moveAssign target source => do
    let other ← datasets[source]?
    if target < datasets.length ∧ target ≠ source then
      some (.ok () ((datasets.set source other.moveOut.2).set target other.moveOut.1))
    else none

def step (selfInsert : List DbValues → List DbValues) (datasets : Datasets) (c : Call) : Option Datasets :=
  (call selfInsert datasets c).map leftBy

section call
variable {selfInsert : List DbValues → List DbValues} {datasets after : Datasets} {thrown : Thrown} {target : Nat}

theorem on_thrown {method : Method Dataset Unit} (ran : on datasets target method = some (.error thrown after)) :
    ∃ ds e changed, datasets[target]? = some ds ∧ method ds = .error e changed ∧ after = datasets.set target changed := by
  unfold on at ran
  obtain ⟨ds,here,result⟩ := Option.map_eq_some_iff.mp ran
  cases failed : method ds with
  | ok done changed =>
    rw [failed] at result
    cases result
  | error e changed =>
    rw [failed] at result
    cases result
    exact ⟨ds,e,changed,here,failed,rfl⟩

theorem on_unchanged {method : Method Dataset Unit} (strict : Strict method)
    (ran : on datasets target method = some (.error thrown after)) : after = datasets := by
  obtain ⟨ds,e,changed,here,failed,rfl⟩ := on_thrown ran
  rw [strict ds e changed failed]
  obtain ⟨inside,rfl⟩ := List.getElem?_eq_some_iff.mp here
  exact List.set_getElem_self inside

theorem constructed_not_error {source : Nat} {constructed : Dataset → Datasets}
    (ran : (datasets[source]?.map fun ds => (.ok () (constructed ds) : EStateM.Result Thrown Datasets Unit)) =
      some (.error thrown after)) : False := by
  obtain ⟨ds,_,result⟩ := Option.map_eq_some_iff.mp ran
  cases result

theorem dataset_thrown {c : DatasetRuns.Call} (ran : DatasetRuns.call selfInsert datasets c = some (.error thrown after)) :
    after = datasets := by
  simp only [DatasetRuns.call] at ran
  cases c with
  | ofTypes types => cases ran
  | select p cmd parameters types =>
    cases result : Command.select p parameters types cmd with
    | ok ds left =>
      simp only [result] at ran
      cases ran
    | error e left =>
      simp only [result] at ran
      cases ran
      rfl
  | copyConstruct source => exact (constructed_not_error ran).elim
  | moveConstruct source => exact (constructed_not_error ran).elim
  | merge target source =>
    obtain ⟨ds,_,rest⟩ := Option.bind_eq_some_iff.mp ran
    obtain ⟨other,_,merged⟩ := Option.bind_eq_some_iff.mp rest
    exact on_unchanged (fun s e left failed => Dataset.merge_error failed) merged
  | mergeRow target row => exact on_unchanged (fun s e left failed => Dataset.mergeRow_error failed) ran
  | reset target => exact on_unchanged (fun s e left failed => by cases failed) ran
  | resetTypes target types => exact on_unchanged (fun s e left failed => by cases failed) ran
  | sort target order =>
    obtain ⟨ds,_,rest⟩ := Option.bind_eq_some_iff.mp ran
    split_ifs at rest
    cases rest

/-- What a call that throws leaves of a Dataset: all of it, but for values that a copy assignment has come to, and for
rows that a sort has moved, which it leaves in some order, or without their cells. -/
def LeftAs (c : Call) (i : Nat) (ds ds' : Dataset) : Prop :=
  ds' = ds ∨ (∃ source capacity, c = .copyAssign i source capacity) ∧ ds'.fieldtypes = ds.fieldtypes ∧
    ds'.names = ds.names ∧ List.Forall₂ (fun row row' => DbValues.dbtypes row' = DbValues.dbtypes row) ds.rows ds'.rows ∨
  (∃ stdSort idxs cmp, c = .sort i stdSort idxs cmp) ∧ ds'.fieldtypes = ds.fieldtypes ∧ ds'.names = ds.names ∧
    ds'.rows.length = ds.rows.length ∧ (ds'.rows.filter (· ≠ [])).Subperm ds.rows

theorem leftAs_of_same {c : Call} (same : after = datasets) (i : Nat) : Option.Rel (LeftAs c i) datasets[i]? after[i]? := by
  rw [same]
  cases datasets[i]? with
  | none => exact .none
  | some ds => exact .some (.inl rfl)

theorem leftAs_set {c : Call} {ds changed : Dataset} (here : datasets[target]? = some ds) (left : LeftAs c target ds changed)
    (i : Nat) : Option.Rel (LeftAs c i) datasets[i]? (datasets.set target changed)[i]? := by
  obtain ⟨inside,_⟩ := List.getElem?_eq_some_iff.mp here
  by_cases same : target = i
  · subst same
    rw [here,List.getElem?_set_self inside]
    exact .some left
  · rw [List.getElem?_set_ne same]
    exact leftAs_of_same rfl i

theorem copyAssign_leftAs {source capacity : Nat}
    (ran : call selfInsert datasets (.copyAssign target source capacity) = some (.error thrown after)) (i : Nat) :
    Option.Rel (LeftAs (.copyAssign target source capacity) i) datasets[i]? after[i]? := by
  obtain ⟨other,_,assigned⟩ := Option.bind_eq_some_iff.mp ran
  obtain ⟨ds,e,changed,here,failed,rfl⟩ := on_thrown assigned
  obtain ⟨rows,rfl,kept⟩ := @copyAssign_thrown _ _ _ _ _
    (fun row row' => DbValues.dbtypes row' = DbValues.dbtypes row) failed (fun _ _ => rfl)
    fun row _ source _ _ => DbValues.assignLoop_dbtypes row source
  have left : LeftAs (.copyAssign target source capacity) target ds {ds with rows} :=
    .inr (.inl ⟨⟨source,capacity,rfl⟩,rfl,rfl,kept⟩)
  exact leftAs_set here left i

theorem sort_leftAs {stdSort : ComparisonSort.Algorithm} {idxs : List Nat} {cmp : Option (DbValue → DbValue → Bool)}
    (ran : call selfInsert datasets (.sort target stdSort idxs cmp) = some (.error thrown after)) (i : Nat) :
    Option.Rel (LeftAs (.sort target stdSort idxs cmp) i) datasets[i]? after[i]? := by
  obtain ⟨ds,e,changed,here,failed,rfl⟩ := on_thrown ran
  obtain ⟨rows,rfl,size,kept⟩ := sort_thrown failed
  have left : LeftAs (.sort target stdSort idxs cmp) target ds {ds with rows} :=
    .inr (.inr ⟨⟨stdSort,idxs,cmp,rfl⟩,rfl,rfl,size,kept⟩)
  exact leftAs_set here left i

/-- Whatever a program does with its Datasets, their rows and their cells: a call that throws leaves every one of them
as it was, but for values in the target of a copy assignment and rows of the target of a sort. -/
theorem thrown_unchanged {c : Call} (ran : call selfInsert datasets c = some (.error thrown after)) (i : Nat) :
    Option.Rel (LeftAs c i) datasets[i]? after[i]? := by
  cases c with
  | call c => exact leftAs_of_same (dataset_thrown ran) i
  | sort target stdSort idxs cmp => exact sort_leftAs ran i
  | edit target j edit => exact leftAs_of_same (on_unchanged (onRows_strict (element_strict edit.run_strict)) ran) i
  | copyAssign target source capacity => exact copyAssign_leftAs ran i
  | moveAssign target source =>
    obtain ⟨other,_,rest⟩ := Option.bind_eq_some_iff.mp ran
    split_ifs at rest
    cases rest

def ones : Dataset := ⟨[one.val,one.val],[.int],[]⟩

def zeroAndText : Dataset := ⟨[[⟨.int,.int 0⟩],[⟨.text,.text [97]⟩]],[.variant],[]⟩

/-- The first row of the target is assigned to before the second one is refused. -/
theorem thrown_unchanged_assigned :
    call growInsert [ones,zeroAndText] (.copyAssign 0 1 2) =
        some (.error (.sl3 (errTypeMisMatch "")) [⟨[[⟨.int,.int 0⟩],one.val],[.int],[]⟩,zeroAndText]) ∧
      LeftAs (.copyAssign 0 1 2) 0 ones ⟨[[⟨.int,.int 0⟩],one.val],[.int],[]⟩ := by
  have ran : call growInsert [ones,zeroAndText] (.copyAssign 0 1 2) =
      some (.error (.sl3 (errTypeMisMatch "")) [⟨[[⟨.int,.int 0⟩],one.val],[.int],[]⟩,zeroAndText]) := rfl
  exact ⟨ran,Option.rel_some_some.mp (thrown_unchanged ran 0)⟩

end call

section selected
open Command Columns Selection
variable {q : Query} {types : List ValueType} {ds : Dataset} {columns : Columns}

theorem converted_ruled {type : ValueType} {cell : Cell} (accepted : Accepts type cell) : (converted type cell).TypeRule := by
  by_cases null : type = .null
  · refine ⟨by simp [converted,null],.inr (.inr ?_)⟩
    simp [converted,null]
  · have typed : (converted type cell).dbtype = type := if_neg null
    refine ⟨by rwa [typed],?_⟩
    rw [typed]
    rcases accepted with rfl | variant | own
    · exact .inl rfl
    · exact .inr (.inr variant)
    · exact .inr (.inl own.symm)

theorem cells_ruled {cells : List Cell} (fits : List.Forall₂ Accepts types cells) :
    Ruled (List.zipWith converted types cells) := by
  induction fits with
  | nil =>
    intro d member
    cases member
  | cons accepted _ ih => exact List.forall_mem_cons.mpr ⟨converted_ruled accepted,ih⟩

theorem appendRow_ruled (columns : Columns) (ruled : ∀ row ∈ ds.rows, Ruled row) :
    ∀ row ∈ (leftBy (appendRow columns ds)).rows, Ruled row := by
  by_cases fits : List.Forall₂ Accepts ds.fieldtypes columns.cells
  · rw [appendRow_ok fits]
    exact List.forall_mem_append.mpr ⟨ruled,List.forall_mem_singleton.mpr (cells_ruled fits)⟩
  · obtain ⟨what,failed⟩ := appendRow_error fits
    rwa [failed]

theorem fillds_ruled (columns : Columns) (ruled : ∀ row ∈ ds.rows, Ruled row) :
    ∀ row ∈ (leftBy (fillds columns ds)).rows, Ruled row := by
  unfold fillds
  split_ifs
  · rw [firstRow,getNames_eq]
    split_ifs
    · exact ruled
    · exact @appendRow_ruled {ds with fieldtypes := _,names := _} columns ruled
  · exact appendRow_ruled columns ruled

theorem select_ruled {p : Platform} {parameters : DbValues} {cmd left : Command q}
    (returned : Command.select p parameters types cmd = .ok ds left) : ∀ row ∈ ds.rows, Ruled row :=
  @select_keeps q (fun ds => ∀ row ∈ ds.rows, Ruled row) (fun row _ ruled => fillds_ruled (q.columns row) ruled) _ _ _ _ _ _
    (List.forall_mem_nil _) returned

end selected

section invariant
variable {selfInsert : List DbValues → List DbValues} {datasets after : Datasets} {c : Call} {ds : Dataset}

/-- No Dataset is merged into itself, a row that takes the place of another one conforms to the field types, a copy
assignment that returns has not kept rows of other types than its new fields, and a sort that throws had indexes of
fields only, where there are field types. -/
def Careful (datasets : Datasets) : Call → Prop
  | .call c => Apart c
  | .sort target stdSort idxs cmp => ∀ ds e left, datasets[target]? = some ds → ds.fieldtypes ≠ [] →
      Dataset.sort stdSort idxs cmp ds = .error e left → ∀ i ∈ idxs, i < ds.fieldtypes.length
  | .copyAssign target source capacity => ∀ ds other changed, datasets[target]? = some ds → datasets[source]? = some other →
      Dataset.copyAssign capacity other ds = .ok () changed → Assignable capacity ds other
  | .moveAssign _ _ => True
  | .edit target _ edit => ∀ ds row, datasets[target]? = some ds → edit.replacement = some row →
      ds.fieldtypes ≠ [] → List.Forall₂ CellConforms ds.fieldtypes row.val

theorem made_ruled {c : DatasetRuns.Call} (made : Made selfInsert datasets c ds) (apart : Apart c)
    (sound : ∀ ds ∈ datasets, Sound ds) : ∀ row ∈ ds.rows, Ruled row := by
  cases made with
  | ofTypes | movedFrom | reset | resetTypes => exact nofun
  | select returned => exact select_ruled returned
  | @merge target source ds other after here there merged =>
    obtain ⟨rfl,_⟩ := Dataset.merge_ok merged
    rw [if_neg apart]
    exact List.forall_mem_append.mpr ⟨(sound ds (mem_of_get here)).ruled,(sound other (mem_of_get there)).ruled⟩
  | @mergeRow target row ds after here merged =>
    obtain ⟨rfl,_⟩ := Dataset.mergeRow_ok merged
    exact List.forall_mem_append.mpr
      ⟨(sound ds (mem_of_get here)).ruled,List.forall_mem_singleton.mpr row.property⟩
  | @sort target ds order here permuted =>
    exact fun row member => (sound ds (mem_of_get here)).ruled row (permuted.mem_iff.mp member)

theorem call_sound {c : DatasetRuns.Call} (sound : ∀ ds ∈ datasets, Sound ds) (apart : Apart c)
    (stepped : DatasetRuns.step selfInsert datasets c = some after) : ∀ ds ∈ after, Sound ds := by
  have conforming := step_conforming (fun ds member => (sound ds member).conforming) apart stepped
  intro ds member
  refine ⟨conforming ds member,?_⟩
  rcases step_cases stepped member with old | made
  · exact (sound ds old).ruled
  · exact made_ruled made apart sound

section sort
variable {stdSort : ComparisonSort.Algorithm} {idxs : List Nat} {cmp : Option (DbValue → DbValue → Bool)} {e : Error}
  {target : Nat} {changed : Dataset}

theorem indexed_of_fields (conforming : Conforming ds) (typed : ds.fieldtypes ≠ [])
    (fields : ∀ i ∈ idxs, i < ds.fieldtypes.length) : Indexed idxs ds := by
  intro row member i index
  rw [← (conforming typed row member).length_eq]
  exact fields i index

/-- A sort that returns is one of those that are known by the order they leave. -/
theorem sort_call (here : datasets[target]? = some ds) (returned : Dataset.sort stdSort idxs cmp ds = .ok () changed) :
    DatasetRuns.call selfInsert datasets (.sort target changed.rows) = some (.ok () (datasets.set target changed)) := by
  obtain ⟨rows,rfl,permuted⟩ := sort_returned returned
  simp only [DatasetRuns.call,here,Option.bind_eq_bind,Option.bind_some,permuted,if_true]

theorem sort_thrown_sound (sound : Sound ds) (fields : ds.fieldtypes ≠ [] → ∀ i ∈ idxs, i < ds.fieldtypes.length)
    (thrown : Dataset.sort stdSort idxs cmp ds = .error e changed) : Sound changed := by
  by_cases typed : ds.fieldtypes = []
  · obtain ⟨rows,rfl,_,kept⟩ := sort_thrown thrown
    refine ⟨fun filled => absurd typed filled,fun row member => ?_⟩
    by_cases empty : row = []
    · rw [empty]
      exact List.forall_mem_nil _
    · exact sound.ruled row (kept.subset (List.mem_filter.mpr ⟨member,decide_eq_true empty⟩))
  · rw [sort_indexed (indexed_of_fields sound.conforming typed (fields typed)) thrown]
    exact sound

theorem sort_sound (sound : ∀ ds ∈ datasets, Sound ds) (careful : Careful datasets (.sort target stdSort idxs cmp))
    (stepped : step selfInsert datasets (.sort target stdSort idxs cmp) = some after) : ∀ ds ∈ after, Sound ds := by
  obtain ⟨ds,here,rfl⟩ := on_cases stepped
  cases result : Dataset.sort stdSort idxs cmp ds with
  | ok done changed =>
    have ordered := congrArg (Option.map leftBy) (@sort_call selfInsert _ _ _ _ _ _ _ here result)
    exact call_sound sound (c := .sort target changed.rows) trivial ordered
  | error e changed =>
    intro made member
    rcases List.mem_or_eq_of_mem_set member with old | rfl
    · exact sound made old
    · exact sort_thrown_sound (sound ds (mem_of_get here)) (fun typed => careful ds e _ here typed result) result

end sort

theorem step_sound (sound : ∀ ds ∈ datasets, Sound ds) (careful : Careful datasets c)
    (stepped : step selfInsert datasets c = some after) : ∀ ds ∈ after, Sound ds := by
  cases c with
  | call c => exact call_sound sound careful stepped
  | sort target stdSort idxs cmp => exact sort_sound sound careful stepped
  | edit target i edit =>
    obtain ⟨ds,here,rfl⟩ := on_cases stepped
    intro other member
    rcases List.mem_or_eq_of_mem_set member with old | rfl
    · exact sound other old
    · have before := sound ds (mem_of_get here)
      cases result : onRows (element i edit.run) ds with
      | ok done changed => exact edited_sound before (fun row => careful ds row here) result
      | error e left =>
        have strict := onRows_strict (element_strict edit.run_strict) ds e left result
        exact strict ▸ before
  | copyAssign target source capacity =>
    obtain ⟨result,ran,rfl⟩ := Option.map_eq_some_iff.mp stepped
    obtain ⟨other,there,assigned⟩ := Option.bind_eq_some_iff.mp ran
    obtain ⟨ds,here,same⟩ := on_cases (congrArg (Option.map leftBy) assigned)
    rw [same]
    intro made member
    rcases List.mem_or_eq_of_mem_set member with old | rfl
    · exact sound made old
    · refine copyAssign_sound (sound ds (mem_of_get here)) (sound other (mem_of_get there)) fun returned => ?_
      exact careful ds other _ here there returned
  | moveAssign target source =>
    obtain ⟨result,ran,rfl⟩ := Option.map_eq_some_iff.mp stepped
    obtain ⟨other,there,moved⟩ := Option.bind_eq_some_iff.mp ran
    split_ifs at moved
    cases moved
    intro made member
    rcases List.mem_or_eq_of_mem_set member with old | moved
    · rcases List.mem_or_eq_of_mem_set old with old | rfl
      · exact sound made old
      · exact ⟨fun typed => absurd rfl typed,nofun⟩
    · rw [moved]
      exact sound other (mem_of_get there)

theorem run_sound (run : Reaches (step selfInsert) Careful [] datasets) : ∀ ds ∈ datasets, Sound ds :=
  run.invariant nofun fun sound careful stepped => step_sound sound careful stepped

/-- Whatever is done to the cells and rows of Datasets besides: rows conform to the field types and cells to their type
rules, unless a Dataset is merged into itself, a row is moved or swapped in that does not conform, a copy assignment
keeps a row under other fields, or a sort throws that was given an index of no field. -/
theorem reaches_sound (run : Reaches (step selfInsert) Careful [] datasets) (ds : Dataset) (member : ds ∈ datasets) :
    Conforming ds ∧ ∀ row ∈ ds.rows, Ruled row :=
  ⟨(run_sound run ds member).conforming,(run_sound run ds member).ruled⟩

def emptied : DbValues := [⟨.int,.null⟩]

def untyped (rows : List DbValues) : Dataset := ⟨rows,[],[]⟩

/-- A cell becomes Null; a sort throws while it holds the second row of a Dataset without field types. -/
theorem reaches_sound_edited :
    (Conforming ⟨[emptied],[.int],[]⟩ ∧ ∀ row ∈ [emptied], Ruled row) ∧
      Conforming (untyped [one.val,[]]) ∧ ∀ row ∈ [one.val,[]], Ruled row := by
  have first : Reaches (step growInsert) Careful [] [Dataset.ofTypes [.int]] :=
    Reaches.start.next (.call (.ofTypes [.int])) trivial rfl
  have second := first.next (.call (.mergeRow 0 one)) trivial rfl
  have third : Reaches (step growInsert) Careful [] [⟨[emptied],[.int],[]⟩] :=
    second.next (.edit 0 0 (.cell 0 .setNull)) (fun ds row here replaced => by cases replaced) rfl
  have fourth := third.next (.call (.ofTypes [])) trivial rfl
  have fifth := fourth.next (.call (.mergeRow 1 one)) trivial rfl
  have sixth : Reaches (step growInsert) Careful [] [⟨[emptied],[.int],[]⟩,untyped [one.val,one.val]] :=
    fifth.next (.call (.mergeRow 1 one)) trivial rfl
  have free : Careful [⟨[emptied],[.int],[]⟩,untyped [one.val,one.val]] (.sort 1 (.holding 1) [0,7] (some DbValue.dbvalLt)) := by
    intro ds e left here typed
    cases here
    exact absurd rfl typed
  have last : Reaches (step growInsert) Careful [] [⟨[emptied],[.int],[]⟩,untyped [one.val,[]]] :=
    sixth.next (.sort 1 (.holding 1) [0,7] (some DbValue.dbvalLt)) free rfl
  have later := List.mem_cons_of_mem (⟨[emptied],[.int],[]⟩ : Dataset) (@List.mem_cons_self _ (untyped [one.val,[]]) [])
  exact ⟨reaches_sound last _ List.mem_cons_self,reaches_sound last _ later⟩

theorem ruled_free : ∀ d ∈ [(⟨.variant,.int 1⟩ : DbValue)], d.TypeRule := by decide

/-- A copy assignment that returns leaves a Dataset that conforms exactly if it has not kept a row of other types than
the fields that it takes over. -/
theorem assigned_conforming_iff {target source capacity : Nat} {ds other changed : Dataset}
    (run : Reaches (step selfInsert) Careful [] datasets) (here : datasets[target]? = some ds)
    (there : datasets[source]? = some other) (returned : Dataset.copyAssign capacity other ds = .ok () changed) :
    Conforming changed ↔ Assignable capacity ds other :=
  copyAssign_conforming_iff (run_sound run ds (mem_of_get here)) (run_sound run other (mem_of_get there)) returned

def free : RuledRow := ⟨_,ruled_free⟩

def single (row : RuledRow) (type : ValueType) : Dataset := ⟨[row.val],[type],[]⟩

/-- A row of Variants is kept under a typed field. -/
theorem assigned_conforming_kept : Dataset.copyAssign 1 (single one .int) (single free .variant) = .ok () (single free .int) ∧
    ¬ Conforming (single free .int) := by
  have first : Reaches (step growInsert) Careful [] [Dataset.ofTypes [.variant]] :=
    Reaches.start.next (.call (.ofTypes [.variant])) trivial rfl
  have second : Reaches (step growInsert) Careful [] [single free .variant] :=
    first.next (.call (.mergeRow 0 free)) trivial rfl
  have third : Reaches (step growInsert) Careful [] [single free .variant,Dataset.ofTypes [.int]] :=
    second.next (.call (.ofTypes [.int])) trivial rfl
  have last : Reaches (step growInsert) Careful [] [single free .variant,single one .int] :=
    third.next (.call (.mergeRow 1 one)) trivial rfl
  have returned : Dataset.copyAssign 1 (single one .int) (single free .variant) = .ok () (single free .int) := rfl
  refine ⟨returned,fun conforming => ?_⟩
  rcases (@assigned_conforming_iff _ _ 0 1 _ _ _ _ last rfl rfl returned).mp conforming with untyped | fresh | kept
  · cases untyped
  · exact absurd fresh (Nat.lt_irrefl 1)
  · obtain ⟨cell,_⟩ := List.forall₂_cons.mp (kept _ List.mem_cons_self)
    rcases cell with null | variant | own
    · cases null
    · cases variant
    · cases own

end invariant

end Sl3.EditingRuns
