import Sl3.DatasetRuns

/-! `Dataset::merge`: results of one query merged into each other, the field names along a
sequence of merges, and merging a Dataset against merging its rows. -/
namespace Sl3.Merging
open Library Library.Machine Command Columns Selection DatasetRuns

/-- What `merge (const Dataset&)` asks of the names and of the field types. -/
def Mergeable (ds other : Dataset) : Prop :=
  (other.names = [] ∨ ds.names = [] ∨ ds.names = other.names) ∧ Dataset.Takes ds.fieldtypes other.fieldtypes

section merge
variable {ds other : Dataset} {inserted : List DbValues}

theorem merge_mergeable (mergeable : Mergeable ds other) :
    Dataset.merge inserted other ds = .ok () {ds with rows := inserted} := by
  obtain ⟨names,takes⟩ := mergeable
  have named : ¬ (other.names ≠ [] ∧ ds.names ≠ [] ∧ ds.names ≠ other.names) := by
    rintro ⟨some,some',differ⟩
    rcases names with none | none | same
    · exact some none
    · exact some' none
    · exact differ same
  rw [Dataset.merge,if_neg named,if_neg (not_not.mpr takes.length_eq),Dataset.checkTypes_takes takes]

theorem merge_names (mergeable : Dataset.merge inserted other ds = .ok () {ds with rows := inserted}) :
    other.names = [] ∨ ds.names = [] ∨ ds.names = other.names := by
  by_contra differ
  simp only [not_or] at differ
  rw [Dataset.merge,if_pos differ] at mergeable
  simp at mergeable

theorem merge_refused_or (inserted : List DbValues) (other ds : Dataset) :
    (¬ Mergeable ds other ∧ Dataset.merge inserted other ds = .error (errTypeMisMatch "") ds) ∨
      (Mergeable ds other ∧ Dataset.merge inserted other ds = .ok () {ds with rows := inserted}) := by
  rcases Dataset.merge_cases inserted other ds with refused | ⟨merged,takes⟩
  · refine .inl ⟨fun mergeable => ?_,refused⟩
    cases refused.symm.trans (merge_mergeable mergeable)
  · exact .inr ⟨⟨merge_names merged,takes⟩,merged⟩

theorem merge_ok_iff : Dataset.merge inserted other ds = .ok () {ds with rows := inserted} ↔ Mergeable ds other := by
  rcases merge_refused_or inserted other ds with ⟨not,refused⟩ | ⟨mergeable,merged⟩
  · simp [refused,not]
  · simp [merged,mergeable]

end merge

section select
variable {q other : Query}

/-- An untyped select has met no row yet, or has the names of the query and Variant fields. -/
def Detected (q : Query) (ds : Dataset) : Prop :=
  ds = Dataset.ofTypes [] ∨
    ds.names = q.names ∧ ds.fieldtypes = List.replicate q.names.length .variant ∧ ds.rows ≠ []

theorem variant_accepts (row : Row q.names.length) :
    List.Forall₂ Accepts (List.replicate q.names.length .variant) (q.columns row).cells :=
  @conform_variant _ [q.columns row] (by simp [Query.columns,row.property]) _ List.mem_cons_self

theorem fillds_detected (columns : q.names ≠ []) (row : Row q.names.length) (ds : Dataset) (detected : Detected q ds) :
    Detected q (leftBy (fillds (q.columns row) ds)) := by
  rcases detected with rfl | ⟨names,types,_⟩
  · have zero : typeCount [] = 0 := typeCount_zero.mpr rfl
    have size : (q.columns row).cells.length = q.names.length := row.property
    have variants : fieldtypes [] q.names.length = List.replicate q.names.length .variant := fieldtypes_nil _
    rw [fillds_first,if_neg (fun bad => bad.1 zero),size,variants,
      @appendRow_ok ⟨[],List.replicate q.names.length .variant,(q.columns row).names⟩ _ (variant_accepts row)]
    exact .inr ⟨rfl,rfl,by simp [leftBy]⟩
  · have named : ds.names ≠ [] := by rwa [names]
    have accepts := variant_accepts row
    rw [← types] at accepts
    rw [fillds_named named,appendRow_ok accepts]
    exact .inr ⟨names,types,by simp [leftBy]⟩

theorem select_detected (columns : q.names ≠ []) {p : Platform} {params : DbValues} {cmd left : Command q} {ds : Dataset}
    (returned : select p params [] cmd = .ok ds left) : Detected q ds :=
  select_keeps (fillds_detected columns) (.inl rfl) returned

theorem takes_variants (n : Nat) : Dataset.Takes (List.replicate n .variant) (List.replicate n .variant) :=
  List.forall₂_same.mpr fun _ member => .inl (List.eq_of_mem_replicate member)

theorem detected_mergeable_iff (columns : q.names ≠ []) (same : other.names = q.names) {ds next : Dataset}
    (first : Detected q ds) (second : Detected other next) : Mergeable ds next ↔ (ds.rows = [] ↔ next.rows = []) := by
  have positive : 0 < q.names.length := List.length_pos_iff.mpr columns
  rcases first with rfl | ⟨names,types,filled⟩
  · rcases second with rfl | ⟨_,types',filled'⟩
    · exact iff_of_true ⟨.inl rfl,.nil⟩ Iff.rfl
    · refine iff_of_false (fun mergeable => ?_) (fun both => filled' (both.mp rfl))
      have size := mergeable.2.length_eq
      rw [types',same,List.length_replicate] at size
      exact positive.ne size
  · rcases second with rfl | ⟨names',types',filled'⟩
    · refine iff_of_false (fun mergeable => ?_) (fun both => filled (both.mpr rfl))
      have size := mergeable.2.length_eq
      rw [types,List.length_replicate] at size
      exact positive.ne' size
    · refine iff_of_true ⟨.inr (.inr ?_),?_⟩ (iff_of_false filled filled')
      · rw [names,names',same]
      · rw [types,types',same]
        exact takes_variants _

/-- Two untyped results with the same columns, however the database changed in between, merge
exactly when both of them or neither has rows. -/
theorem selected_merge_iff {p p' : Platform} {params params' : DbValues} {cmd left : Command q} {cmd' left' : Command other}
    {ds next : Dataset} (columns : q.names ≠ []) (same : other.names = q.names)
    (first : select p params [] cmd = .ok ds left) (second : select p' params' [] cmd' = .ok next left') :
    Dataset.merge (ds.rows ++ next.rows) next ds = .ok () {ds with rows := ds.rows ++ next.rows} ↔
      (ds.rows = [] ↔ next.rows = []) := by
  have columns' : other.names ≠ [] := by rwa [same]
  rw [merge_ok_iff]
  exact detected_mergeable_iff columns same (select_detected columns first) (select_detected columns' second)

theorem number_countable : ["number"].length < 2^31 := by norm_num

def rowOf (cell : Cell) : Row ["number"].length := ⟨[cell],List.length_singleton⟩

/-- A table that has one row more each time it is asked. -/
def growing : Query where
  names := ["number"]
  countable := number_countable
  paramCount := 0
  program := fun _ started => .complete (List.replicate started (rowOf (.integer 1)))

def oneNumber : Dataset := ⟨[[⟨.variant,.int 1⟩]],[.variant],["number"]⟩

theorem select_growing : select .usual [] [] (ofQuery growing) = .ok (Dataset.ofTypes []) (ofQuery growing).ran :=
  select_empty rfl rfl rfl rfl

theorem select_growing_later :
    select .usual [] [] (ofQuery growing).ran = .ok oneNumber (ofQuery growing).ran.ran := by
  have columns : growing.names ≠ [] := by simp [growing]
  have variant : fieldtypes [] growing.names.length = [.variant] := fieldtypes_nil _
  have accepted : setup .usual [] (ofQuery growing).ran = .ok () (ofQuery growing).ran := rfl
  have selected := @select_rows growing .usual [] [] _ _ columns accepted rfl rfl ⟨["number"],[.integer 1],rfl⟩ [] rfl
  rw [variant] at selected
  rcases selected with ⟨stopped,_⟩ | ⟨_,returned⟩
  · refine absurd ⟨.inl (typeCount_zero.mpr rfl),?_⟩ stopped
    rw [variant]
    decide
  · exact returned

theorem selected_merge_filled : Dataset.merge (oneNumber.rows ++ oneNumber.rows) oneNumber oneNumber =
    .ok () {oneNumber with rows := oneNumber.rows ++ oneNumber.rows} := by
  have columns : growing.names ≠ [] := by simp [growing]
  exact (selected_merge_iff columns rfl select_growing_later select_growing_later).mpr Iff.rfl

/-- The first of two selects by one Command finds no row, and its result refuses that of the second. -/
theorem empty_merge_refused : ∃ (ds next : Dataset) (left last : Command growing),
    select .usual [] [] (ofQuery growing) = .ok ds left ∧ select .usual [] [] left = .ok next last ∧
    Dataset.merge (ds.rows ++ next.rows) next ds = .error (errTypeMisMatch "") ds :=
  ⟨_,_,_,_,select_growing,select_growing_later,rfl⟩

end select

section names

/-- A call of `merge (const Dataset&)` that returned: what `insert` left, and the other Dataset. -/
def merged (ds : Dataset) (call : List DbValues × Dataset) : Option Dataset :=
  match Dataset.merge call.1 call.2 ds with
  | .ok _ after => some after
  | .error _ _ => none

variable {ds after : Dataset} {call : List DbValues × Dataset} {calls : List (List DbValues × Dataset)}

/-- The merged Datasets that have names have the same ones, and the Dataset that they went into
finds each of them at the same index. -/
structure NamesSurvive (ds : Dataset) (calls : List (List DbValues × Dataset)) : Prop where
  agree : ∀ a ∈ calls, ∀ b ∈ calls, a.2.names ≠ [] → b.2.names ≠ [] → a.2.names = b.2.names
  resolved : ∀ before call rest after, calls = before ++ call::rest → runAll merged ds (before ++ [call]) = some after →
    ∀ name i, call.2.getIndex name = .ok i → after.getIndex name = .ok i

theorem merged_names (ran : merged ds call = some after) :
    after.names = ds.names ∧ (call.2.names = [] ∨ ds.names = [] ∨ ds.names = call.2.names) := by
  unfold merged at ran
  rcases merge_refused_or call.1 call.2 ds with ⟨_,refused⟩ | ⟨mergeable,returned⟩
  · simp [refused] at ran
  · rw [returned] at ran
    cases ran
    exact ⟨rfl,mergeable.1⟩

theorem runAll_names (ran : runAll merged ds calls = some after) :
    after.names = ds.names ∧ ∀ call ∈ calls, call.2.names = [] ∨ ds.names = [] ∨ ds.names = call.2.names := by
  induction calls generalizing ds with
  | nil =>
    cases ran
    exact ⟨rfl,nofun⟩
  | cons call calls ih =>
    rw [runAll,List.foldlM_cons] at ran
    obtain ⟨next,stepped,rest⟩ := Option.bind_eq_some_iff.mp ran
    obtain ⟨kept,fits⟩ := merged_names stepped
    obtain ⟨last,later⟩ := ih rest
    rw [kept] at last later
    exact ⟨last,List.forall_mem_cons.mpr ⟨fits,later⟩⟩

theorem getIndex_nil {name : String} {i : Nat} (none : ds.names = []) : ds.getIndex name ≠ .ok i := by
  simp [Dataset.getIndex,none]

theorem getIndex_head {name : String} {names : List String} (named : ds.names = name::names) : ds.getIndex name = .ok 0 := by
  simp [Dataset.getIndex,named,List.idxOf?,List.findIdx?_cons]

theorem getIndex_congr {other : Dataset} (same : ds.names = other.names) (name : String) :
    ds.getIndex name = other.getIndex name := by
  simp only [Dataset.getIndex,same]

/-- Names survive a sequence of merges exactly when the Dataset has names itself, or nothing that has is merged. -/
theorem names_survive_iff (succeeded : runAll merged ds calls = some after) :
    NamesSurvive ds calls ↔ (ds.names = [] → ∀ call ∈ calls, call.2.names = []) := by
  obtain ⟨_,fits⟩ := runAll_names succeeded
  constructor
  · intro laws none call member
    by_contra some
    obtain ⟨name,names,named⟩ := List.exists_cons_of_ne_nil some
    obtain ⟨before,rest,rfl⟩ := List.append_of_mem member
    rw [← List.singleton_append,← List.append_assoc,runAll,List.foldlM_append] at succeeded
    obtain ⟨here,ran,_⟩ := Option.bind_eq_some_iff.mp succeeded
    have found := laws.resolved before call rest here rfl ran name 0 (getIndex_head named)
    exact getIndex_nil ((runAll_names ran).1.trans none) found
  · intro condition
    have equal : ∀ call ∈ calls, call.2.names ≠ [] → call.2.names = ds.names := by
      intro call member some
      rcases fits call member with none | none | same
      · exact absurd none some
      · exact absurd (condition none call member) some
      · exact same.symm
    constructor
    · intro a first b second some some'
      rw [equal a first some,equal b second some']
    · rintro before call rest here rfl ran name i found
      have some : call.2.names ≠ [] := fun none => getIndex_nil none found
      have same := equal call (by simp) some
      rw [getIndex_congr ((runAll_names ran).1.trans same.symm) name,found]

def named (name : String) : Dataset := ⟨[],[.variant],[name]⟩

theorem names_survive_named : NamesSurvive (named "a") [([],named "a"),([],Dataset.ofTypes [.variant])] :=
  (@names_survive_iff _ (named "a") _ rfl).mpr nofun

/-- A Dataset with types and without names takes two Datasets whose names differ, and finds none of them. -/
theorem unnamed_takes_all : runAll merged (Dataset.ofTypes [.variant]) [([],named "a"),([],named "b")] =
      some (Dataset.ofTypes [.variant]) ∧
    (named "a").getIndex "a" = .ok 0 ∧
    (Dataset.ofTypes [.variant]).getIndex "a" = .error (errOutOfRange "Field name a not found") ∧
    ¬ NamesSurvive (Dataset.ofTypes [.variant]) [([],named "a"),([],named "b")] := by
  refine ⟨rfl,by decide,by decide,fun laws => ?_⟩
  have same := laws.agree ([],named "a") (by simp) ([],named "b") (by simp) nofun nofun
  simp [named] at same

end names

section rows
variable {ds other : Dataset} {rows : List DbValues} {types others : List ValueType} {row : DbValues}

/-- No cell has Null for its type: the constructors of `DbValue` make Variant of it. -/
def Stored (ds : Dataset) : Prop := ∀ row ∈ ds.rows, ∀ d ∈ row, d.dbtype ≠ .null

theorem converted_stored {cells : List Cell} (fits : List.Forall₂ Accepts types cells) :
    ∀ d ∈ List.zipWith converted types cells, d.dbtype ≠ .null := by
  induction fits with
  | nil => simp
  | @cons type cell _ _ _ _ ih =>
    refine List.forall_mem_cons.mpr ⟨?_,ih⟩
    by_cases null : type = .null
    · simp [converted,null]
    · simp [converted,null]

theorem Stored.append (stored : Stored ds) (new : ∀ row ∈ rows, ∀ d ∈ row, d.dbtype ≠ .null) :
    Stored {ds with rows := ds.rows ++ rows} := by
  intro row member
  rcases List.mem_append.mp member with old | added
  · exact stored row old
  · exact new row added

theorem appendRow_stored (columns : Columns) (stored : Stored ds) : Stored (leftBy (appendRow columns ds)) := by
  by_cases fits : List.Forall₂ Accepts ds.fieldtypes columns.cells
  · rw [appendRow_ok fits]
    apply stored.append
    simpa [convertRow] using converted_stored fits
  · obtain ⟨what,failed⟩ := appendRow_error fits
    rwa [failed]

theorem fillds_stored (columns : Columns) (stored : Stored ds) : Stored (leftBy (fillds columns ds)) := by
  by_cases none : ds.names.length = 0
  · rw [fillds,if_pos none,firstRow,getNames_eq]
    have begun (types : List ValueType) (names : List String) : Stored {ds with fieldtypes := types,names} :=
      fun row member => stored row member
    split_ifs
    · exact stored
    · exact appendRow_stored columns (begun _ _)
  · rw [fillds,if_neg none]
    exact appendRow_stored columns stored

section step
variable {selfInsert : List DbValues → List DbValues} {datasets after : Datasets} {c : Call}

theorem made_stored (made : Made selfInsert datasets c ds) (apart : Apart c) (stored : ∀ ds ∈ datasets, Stored ds) :
    Stored ds := by
  cases made with
  | ofTypes | movedFrom | reset | resetTypes => exact nofun
  | @select q _ _ _ _ _ _ returned =>
    exact select_keeps (fun row _ before => fillds_stored (q.columns row) before) nofun returned
  | @merge target source ds other after here there merged =>
    obtain ⟨rfl,_⟩ := Dataset.merge_ok merged
    rw [if_neg apart]
    exact (stored ds (mem_of_get here)).append (stored other (mem_of_get there))
  | @mergeRow target row ds after here merged =>
    obtain ⟨rfl,_⟩ := Dataset.mergeRow_ok merged
    apply (stored ds (mem_of_get here)).append
    simpa using fun d member => (row.property d member).1
  | @sort target ds order here permuted =>
    exact fun row member => stored ds (mem_of_get here) row (permuted.mem_iff.mp member)

theorem step_stored (stored : ∀ ds ∈ datasets, Stored ds) (apart : Apart c)
    (stepped : step selfInsert datasets c = some after) : ∀ ds ∈ after, Stored ds := by
  intro ds member
  rcases step_cases stepped member with old | made
  · exact stored ds old
  · exact made_stored made apart stored

theorem reaches_stored (run : Reaches (step selfInsert) (fun _ c => Apart c) [] datasets) : ∀ ds ∈ datasets, Stored ds :=
  run.invariant nofun fun stored apart stepped => step_stored stored apart stepped

end step

def mergeRows : List DbValues → Method Dataset Unit
  | [] => .ok ()
  | row::rows => fun ds =>
    match Dataset.mergeRow row ds with
    | .error e ds => .error e ds
    | .ok _ ds => mergeRows rows ds

theorem mergeRow_takes (takes : ds.fieldtypes = [] ∨ Dataset.Takes ds.fieldtypes row.dbtypes) :
    Dataset.mergeRow row ds = .ok () {ds with rows := ds.rows ++ [row]} := by
  rcases takes with untyped | takes
  · simp [Dataset.mergeRow,untyped,Dataset.checkTypes]
  · have size : ds.fieldtypes.length = row.length := by simpa [DbValues.dbtypes] using takes.length_eq
    rw [Dataset.mergeRow,if_neg (fun bad => bad.2 size),Dataset.checkTypes_takes takes]

theorem mergeRows_takes (takes : ∀ row ∈ rows, ds.fieldtypes = [] ∨ Dataset.Takes ds.fieldtypes row.dbtypes) :
    mergeRows rows ds = .ok () {ds with rows := ds.rows ++ rows} := by
  induction rows generalizing ds with
  | nil => simp [mergeRows]
  | cons row rows ih =>
    obtain ⟨first,later⟩ := List.forall_mem_cons.mp takes
    have rest := @ih {ds with rows := ds.rows ++ [row]} later
    simp only [mergeRows,mergeRow_takes first]
    simpa using rest

theorem mergeRows_first {after : Dataset} (ran : mergeRows (row::rows) ds = .ok () after) :
    ∃ next, Dataset.mergeRow row ds = .ok () next := by
  cases first : Dataset.mergeRow row ds with
  | ok done next => exact ⟨next,rfl⟩
  | error e left => simp [mergeRows,first] at ran

/-- Rows that conform to field types without Null are taken one by one where the field types are. -/
theorem takes_conforming (takes : Dataset.Takes types others) (conforms : List.Forall₂ CellConforms others row)
    (typed : .null ∉ types) : Dataset.Takes types row.dbtypes := by
  induction takes generalizing row with
  | nil =>
    cases conforms
    exact .nil
  | @cons type other _ _ fits _ ih =>
    obtain ⟨d,rest,cell,cells,rfl⟩ := List.forall₂_cons_left_iff.mp conforms
    have notNull : type ≠ .null := (List.ne_of_not_mem_cons typed).symm
    refine .cons ?_ (ih cells (List.not_mem_of_not_mem_cons typed))
    rcases fits with variant | rfl
    · exact .inl variant
    · rcases cell with null | variant | ⟨own,_⟩
      · exact absurd null notNull
      · exact .inl variant
      · exact .inr own.symm

theorem takes_null (takes : Dataset.Takes types row.dbtypes) (null : .null ∈ types) : ∃ d ∈ row, d.dbtype = .null := by
  induction row generalizing types with
  | nil =>
    cases takes
    cases null
  | cons d row ih =>
    obtain ⟨type,rest,fits,tail,rfl⟩ := List.forall₂_cons_right_iff.mp takes
    rcases List.mem_cons.mp null with rfl | later
    · exact ⟨d,List.mem_cons_self,(fits.resolve_left nofun).symm⟩
    · obtain ⟨e,member,found⟩ := ih tail later
      exact ⟨e,List.mem_cons_of_mem _ member,found⟩

/-- What the two `merge` functions have in common when they agree, for two Datasets that are not one object. -/
structure RowsAgree (ds other : Dataset) : Prop where
  rows : ∀ after, Dataset.merge (ds.rows ++ other.rows) other ds = .ok () after → mergeRows other.rows ds = .ok () after
  refused : ∀ e left, Dataset.merge (ds.rows ++ other.rows) other ds = .error e left → left = ds
  row_refused : ∀ row e left, Dataset.mergeRow row ds = .error e left → left = ds

theorem rows_taken (conforming : Conforming other) (takes : Dataset.Takes ds.fieldtypes other.fieldtypes)
    (typed : .null ∉ ds.fieldtypes) : ∀ row ∈ other.rows, ds.fieldtypes = [] ∨ Dataset.Takes ds.fieldtypes row.dbtypes := by
  intro row member
  by_cases untyped : other.fieldtypes = []
  · rw [untyped] at takes
    exact .inl (List.forall₂_nil_right_iff.mp takes)
  · exact .inr (takes_conforming takes (conforming untyped row member) typed)

theorem rows_agree_iff (conforming : Conforming other) (stored : Stored other) :
    RowsAgree ds other ↔ (Mergeable ds other → .null ∈ ds.fieldtypes → other.rows = []) := by
  constructor
  · intro laws mergeable null
    cases seen : other.rows with
    | nil => rfl
    | cons row rest =>
      have ran := laws.rows _ (merge_mergeable mergeable)
      rw [seen] at ran
      obtain ⟨next,merged⟩ := mergeRows_first ran
      have takes := (Dataset.mergeRow_ok merged).2 (List.ne_nil_of_mem null)
      obtain ⟨d,member,found⟩ := takes_null takes null
      exact absurd found (stored row (by simp [seen]) d member)
  · intro condition
    refine ⟨?_,?_,?_⟩
    · intro after merged
      rcases merge_refused_or (ds.rows ++ other.rows) other ds with ⟨_,failed⟩ | ⟨mergeable,ran⟩
      · cases failed.symm.trans merged
      · cases ran.symm.trans merged
        apply mergeRows_takes
        by_cases null : .null ∈ ds.fieldtypes
        · simp [condition mergeable null]
        · exact rows_taken conforming mergeable.2 null
    · exact fun e left failed => Dataset.merge_error failed
    · exact fun row e left failed => Dataset.mergeRow_error failed

/-- In every run that merges no Dataset into itself, merging a Dataset that it reaches agrees with merging
its rows exactly when it cannot be merged, no field of the target is of type Null, or there is no row. -/
theorem reaches_rows_agree_iff {selfInsert : List DbValues → List DbValues} {datasets : Datasets}
    (run : Reaches (step selfInsert) (fun _ c => Apart c) [] datasets) {other : Dataset} (there : other ∈ datasets) (ds : Dataset) :
    RowsAgree ds other ↔ (Mergeable ds other → .null ∈ ds.fieldtypes → other.rows = []) :=
  rows_agree_iff (reaches_conforming run other there) (reaches_stored run other there)

theorem reaches_rows_agree_one : RowsAgree ⟨[one.val],[.int],[]⟩ ⟨[one.val],[.int],[]⟩ := by
  have first : Reaches (step growInsert) (fun _ c => Apart c) [] [Dataset.ofTypes [.int]] :=
    Reaches.start.next (.ofTypes [.int]) trivial rfl
  have second := first.next (.mergeRow 0 one) trivial rfl
  have last : Reaches (step growInsert) (fun _ c => Apart c) [] [⟨[one.val],[.int],[]⟩,⟨[one.val],[.int],[]⟩] :=
    second.next (.copyConstruct 0) trivial rfl
  exact (reaches_rows_agree_iff last List.mem_cons_self _).mpr fun _ null => absurd null (by simp)

def nothing : Query where
  names := ["number"]
  countable := number_countable
  paramCount := 0
  program := fun _ _ => .complete [rowOf .null]

def oneNull : Dataset := ⟨[[⟨.variant,.null⟩]],[.null],["number"]⟩

theorem select_nothing : select .usual [] [.null] (ofQuery nothing) = .ok oneNull (ofQuery nothing).ran := by
  have columns : nothing.names ≠ [] := by simp [nothing]
  have count : typeCount [.null] = 1 := typeCount_of_length (by norm_num) rfl
  have typed : fieldtypes [.null] nothing.names.length = [.null] := fieldtypes_counted (by simp [count])
  have accepted : setup .usual [] (ofQuery nothing) = .ok () (ofQuery nothing) := rfl
  have selected := @select_rows nothing .usual [] [.null] _ _ columns accepted rfl rfl ⟨["number"],[.null],rfl⟩ [] rfl
  rw [typed] at selected
  rcases selected with ⟨stopped,_⟩ | ⟨_,returned⟩
  · refine absurd ⟨.inr count,?_⟩ stopped
    rw [typed]
    decide
  · exact returned

/-- A field of type Null: the Dataset is merged, its only row is refused. -/
theorem null_rows_refused :
    Machine.runAll (step growInsert) [] [.ofTypes [.null],.select .usual (ofQuery nothing) [] [.null]] =
      some [Dataset.ofTypes [.null],oneNull] ∧
    Dataset.merge oneNull.rows oneNull (Dataset.ofTypes [.null]) = .ok () ⟨oneNull.rows,[.null],[]⟩ ∧
    mergeRows oneNull.rows (Dataset.ofTypes [.null]) = .error (errTypeMisMatch "") (Dataset.ofTypes [.null]) ∧
    ¬ RowsAgree (Dataset.ofTypes [.null]) oneNull := by
  refine ⟨?_,rfl,rfl,fun laws => ?_⟩
  · simp only [runAll,List.foldlM_cons,step,call,select_nothing]
    rfl
  · cases laws.rows _ rfl

end rows

end Sl3.Merging
