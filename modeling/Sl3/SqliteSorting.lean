import Sl3.EditingRuns
import Sl3.SqliteOrder
import Sl3.Sorting

/-! `Dataset::sort` against the `ORDER BY` of sqlite. -/
namespace Sl3.SqliteSorting
open Library StrictWeak ComparisonSort Sorting SqliteOrder
variable {cmp : DbValue → DbValue → Bool} {idxs : List Nat} {a b : DbValues} {ds : Dataset}

def registers (row : DbValues) (i : Nat) : Mem := .ofCell (held (cell i row).value)

/-- What sqlite answers for two rows that are ordered by the fields of the list. -/
def orderBy (idxs : List Nat) (a b : DbValues) : Option Int := opCompare (some binCollFunc) (registers a) (registers b) idxs

def rowKey (idxs : List Nat) (row : DbValues) : List (ℕ ×ₗ WithBot (WithTop ℚ) ×ₗ Bytes) :=
  idxs.map fun i => exactKey (cell i row).value

theorem rowKey_cons (i : Nat) (idxs : List Nat) (row : DbValues) :
    rowKey (i::idxs) row = exactKey (cell i row).value::rowKey idxs row := rfl

/-- The fields of the list hold no not-a-number. -/
def Numbers (idxs : List Nat) (row : DbValues) : Prop := ∀ i ∈ idxs, (cell i row).value.NonNaN

theorem orderBy_signs (ha : Numbers idxs a) (hb : Numbers idxs b) :
    ∃ c, orderBy idxs a b = some c ∧ Signs c (rowKey idxs a) (rowKey idxs b) := by
  induction idxs with
  | nil => exact ⟨0,rfl,by simp [Signs,rowKey]⟩
  | cons i idxs ih =>
    obtain ⟨left,leftRest⟩ := List.forall_mem_cons.mp ha
    obtain ⟨right,rightRest⟩ := List.forall_mem_cons.mp hb
    obtain ⟨c,compared,signs⟩ := memCompare_signs left right
    obtain ⟨rest,answered,later⟩ := ih leftRest rightRest
    by_cases zero : c = 0
    · refine ⟨rest,?_,?_⟩
      · rw [← answered]
        simp [orderBy,opCompare,registers,compared,zero]
      · have first := signs.2.mp zero
        apply later.of_iff
        · simp [rowKey_cons,first]
        · simp [rowKey_cons,first]
    · refine ⟨c,?_,?_⟩
      · simp [orderBy,opCompare,registers,compared,zero]
      · have first : exactKey (cell i a).value ≠ exactKey (cell i b).value := fun equal => zero (signs.2.mpr equal)
        constructor
        · rw [signs.1]
          simp [rowKey_cons,List.cons_lt_cons_iff,first]
        · simp [rowKey_cons,first,zero]

theorem rowKey_le_iff (ha : Numbers idxs a) (hb : Numbers idxs b) :
    rowKey idxs a ≤ rowKey idxs b ↔ ∃ c, orderBy idxs a b = some c ∧ c ≤ 0 := by
  obtain ⟨c,answered,signs⟩ := orderBy_signs ha hb
  rw [← not_lt,← signs.neg.1,answered]
  simp

/-- However `std::sort` sorts, the rows come out in the order of sqlite, and two sorts differ at most in the
order of rows that are equal for sqlite. -/
structure SortsLikeSqlite (cmp : DbValue → DbValue → Bool) (idxs : List Nat) (ds : Dataset) : Prop where
  ordered : ∀ stdSort : Algorithm, ∃ rows, Dataset.sort stdSort idxs (some cmp) ds = .ok () {ds with rows} ∧
    rows.Perm ds.rows ∧ rows.Pairwise fun row later => ∃ c, orderBy idxs row later = some c ∧ c ≤ 0
  unique : ∀ (stdSort other : Algorithm) (after after' : Dataset), Dataset.sort stdSort idxs (some cmp) ds = .ok () after →
    Dataset.sort other idxs (some cmp) ds = .ok () after' →
      List.Forall₂ (fun row row' => orderBy idxs row row' = some 0) after.rows after'.rows

/-- The comparator orders the fields of the list as sqlite does, in all rows of the Dataset. -/
def Ordered (cmp : DbValue → DbValue → Bool) (idxs : List Nat) (ds : Dataset) : Prop :=
  ∀ a ∈ ds.rows, ∀ b ∈ ds.rows, ∀ i ∈ idxs, cmp (cell i a) (cell i b) = true ↔
    exactKey (cell i a).value < exactKey (cell i b).value

section sort
variable {stdSort : Algorithm}

theorem rowLess_iff (indexed : Indexed idxs ds) (ordered : Ordered cmp idxs ds) (ha : a ∈ ds.rows) (hb : b ∈ ds.rows) :
    rowLess cmp idxs a b = true ↔ rowKey idxs a < rowKey idxs b := by
  rw [(rowLess_inside indexed ha hb).2]
  exact @lexLess_iff_keys _ _ _ cmp cell _ _ (fun d => exactKey d.value) idxs a b fun i index =>
    ⟨ordered a ha b hb i index,ordered b hb a ha i index⟩

theorem sort_keys (indexed : Indexed idxs ds) (ordered : Ordered cmp idxs ds) (stdSort : Algorithm) :
    ∃ rows, Dataset.sort stdSort idxs (some cmp) ds = .ok () {ds with rows} ∧ rows.Perm ds.rows ∧
      rows.Pairwise fun row later => rowKey idxs row ≤ rowKey idxs later := by
  have defined (i j : Fin ds.rows.length) : Dataset.lessValues cmp idxs (ds.rows.get i) (ds.rows.get j) =
      .ok (rowLess cmp idxs (ds.rows.get i) (ds.rows.get j)) :=
    (rowLess_inside indexed (get_mem _ i) (get_mem _ j)).1
  have less (i j : Fin ds.rows.length) : rowLess cmp idxs (ds.rows.get i) (ds.rows.get j) = true ↔
      rowKey idxs (ds.rows.get i) < rowKey idxs (ds.rows.get j) :=
    rowLess_iff indexed ordered (get_mem _ i) (get_mem _ j)
  have positions : StrictWeakOn Set.univ fun i j => rowLess cmp idxs (ds.rows.get i) (ds.rows.get j) :=
    .of_key fun i _ j _ => less i j
  refine ⟨_,sort_ok defined,Comparisons.ordered_perm ds.rows _,?_⟩
  · rw [List.pairwise_ofFn]
    intro i j before
    have sorted := stdSort.sorts _ _ positions i j before
    rw [← Bool.not_eq_true,less,not_lt] at sorted
    exact sorted

/-- Rows that are sorted by their keys have the same keys in any order that they can be sorted from. -/
theorem sorted_same_keys {rows rows' : List DbValues} (permuted : rows.Perm rows')
    (keys : rows.Pairwise fun row later => rowKey idxs row ≤ rowKey idxs later)
    (keys' : rows'.Pairwise fun row later => rowKey idxs row ≤ rowKey idxs later) :
    List.Forall₂ (fun row row' => row ∈ rows ∧ row' ∈ rows' ∧ rowKey idxs row = rowKey idxs row') rows rows' := by
  have same : rows.map (rowKey idxs) = rows'.map (rowKey idxs) := by
    apply List.Perm.eq_of_sortedLE
    · exact (List.pairwise_map.mpr keys).sortedLE
    · exact (List.pairwise_map.mpr keys').sortedLE
    · exact permuted.map _
  refine List.forall₂_iff_get.mpr ⟨permuted.length_eq,fun i here there => ⟨?_,?_,?_⟩⟩
  · exact List.get_mem rows ⟨i,here⟩
  · exact List.get_mem rows' ⟨i,there⟩
  · have each := congrArg (·[i]?) same
    simpa [here,there] using each

theorem sorts_same_keys {cmp' : DbValue → DbValue → Bool} {other : Algorithm} {after after' : Dataset} (indexed : Indexed idxs ds)
    (ordered : Ordered cmp idxs ds) (ordered' : Ordered cmp' idxs ds)
    (first : Dataset.sort stdSort idxs (some cmp) ds = .ok () after)
    (second : Dataset.sort other idxs (some cmp') ds = .ok () after') :
    List.Forall₂ (fun row row' => row ∈ ds.rows ∧ row' ∈ ds.rows ∧ rowKey idxs row = rowKey idxs row') after.rows after'.rows := by
  obtain ⟨rows,sorted,permuted,keys⟩ := sort_keys indexed ordered stdSort
  obtain ⟨rows',sorted',permuted',keys'⟩ := sort_keys indexed ordered' other
  cases sorted.symm.trans first
  cases sorted'.symm.trans second
  refine (sorted_same_keys (permuted.trans permuted'.symm) keys keys').imp fun row row' ⟨here,there,same⟩ => ?_
  exact ⟨permuted.mem_iff.mp here,permuted'.mem_iff.mp there,same⟩

theorem tied_of_key (ha : Numbers idxs a) (hb : Numbers idxs b) (same : rowKey idxs a = rowKey idxs b) :
    orderBy idxs a b = some 0 := by
  obtain ⟨c,answered,signs⟩ := orderBy_signs ha hb
  rw [answered,signs.2.mpr same]

theorem sortsLikeSqlite_of_ordered (indexed : Indexed idxs ds) (numbers : ∀ row ∈ ds.rows, Numbers idxs row)
    (ordered : Ordered cmp idxs ds) : SortsLikeSqlite cmp idxs ds := by
  constructor
  · intro stdSort
    obtain ⟨rows,sorted,permuted,keys⟩ := sort_keys indexed ordered stdSort
    refine ⟨rows,sorted,permuted,keys.imp_of_mem fun {row later} here there le => ?_⟩
    exact (rowKey_le_iff (numbers row (permuted.mem_iff.mp here)) (numbers later (permuted.mem_iff.mp there))).mp le
  · intro stdSort other after after' first second
    refine (sorts_same_keys indexed ordered ordered first second).imp fun row row' ⟨here,there,same⟩ => ?_
    exact tied_of_key (numbers row here) (numbers row' there) same

/-- Where no field of the list has an integer in one row and the double that it is rounded to in another, the default
sort puts the rows in the order of sqlite. -/
theorem sort_like_sqlite (indexed : Indexed idxs ds) (numbers : ∀ row ∈ ds.rows, Numbers idxs row)
    (apart : ∀ a ∈ ds.rows, ∀ b ∈ ds.rows, ∀ i ∈ idxs, ¬ Absorbed (cell i a).value (cell i b).value) :
    SortsLikeSqlite DbValue.dbvalLt idxs ds :=
  sortsLikeSqlite_of_ordered indexed numbers fun a ha b hb i index =>
    valueLt_exact (numbers a ha i index) (numbers b hb i index) (apart a ha b hb i index)

def mixedRows : Dataset := ⟨[[⟨.variant,.text [98]⟩],[⟨.variant,.int 2⟩],[⟨.variant,.null⟩]],[.variant],["a"]⟩

theorem sort_like_sqlite_mixed : SortsLikeSqlite DbValue.dbvalLt [0] mixedRows := by
  have fields : ∀ row ∈ mixedRows.rows, ∀ i ∈ [0], (cell i row).type ≠ .real := by decide
  refine sort_like_sqlite (by simp [Indexed,mixedRows]) ?_ ?_
  · intro row member i index
    cases stored : (cell i row).value with
    | real x => exact absurd (congrArg Value.getType stored) (fields row member i index)
    | _ => trivial
  · intro a ha b hb i index absorbed
    rcases absorbed.types with ⟨_,real⟩ | ⟨real,_⟩
    · exact fields b hb i index real
    · exact fields a ha i index real

end sort

section typed
open Library.Machine DatasetRuns Editing EditingRuns Value
variable {row : DbValues}

/-- The fields of the list have types of their own. -/
def TypedFields (idxs : List Nat) (ds : Dataset) : Prop :=
  ∀ i ∈ idxs, ∃ type, ds.fieldtypes[i]? = some type ∧ type ≠ .null ∧ type ≠ .variant

theorem typed_cell {i : Nat} {type : ValueType} (sound : Sound ds) (member : row ∈ ds.rows)
    (found : ds.fieldtypes[i]? = some type) (typed : type ≠ .null ∧ type ≠ .variant) :
    i < row.length ∧ (cell i row).dbtype = type ∧ ((cell i row).type = .null ∨ (cell i row).type = type) := by
  obtain ⟨inside,here⟩ := List.getElem?_eq_some_iff.mp found
  have filled : ds.fieldtypes ≠ [] := List.ne_nil_of_length_pos (Nat.zero_lt_of_lt inside)
  obtain ⟨size,each⟩ := List.forall₂_iff_get.mp (sound.conforming filled row member)
  have inside' : i < row.length := size ▸ inside
  have conforms := each i inside inside'
  have same : cell i row = row[i] := by simp [cell,List.getD,inside']
  simp only [List.get_eq_getElem,here] at conforms
  rw [same]
  rcases conforms with null | variant | own
  · exact absurd null typed.1
  · exact absurd variant typed.2
  · exact ⟨inside',own⟩

theorem valueTypeLt_same {a b : Value} (apart : ¬ (a.getType = .int ∧ b.getType = .real)) :
    valueTypeLt a b = valueLt a b := by
  cases a <;> cases b <;> first | rfl | exact absurd ⟨rfl,rfl⟩ apart

theorem typed_apart {i : Nat} (sound : Sound ds) (typed : TypedFields idxs ds) (index : i ∈ idxs) (ha : a ∈ ds.rows)
    (hb : b ∈ ds.rows) : ¬ ((cell i a).type = .int ∧ (cell i b).type = .real ∨
      (cell i a).type = .real ∧ (cell i b).type = .int) := by
  obtain ⟨type,found,own⟩ := typed i index
  obtain ⟨_,_,left⟩ := typed_cell sound ha found own
  obtain ⟨_,_,right⟩ := typed_cell sound hb found own
  rintro (⟨int,real⟩ | ⟨real,int⟩)
  · rw [int] at left
    rw [real] at right
    cases left.resolve_left nofun
    cases right.resolve_left nofun
  · rw [real] at left
    rw [int] at right
    cases left.resolve_left nofun
    cases right.resolve_left nofun

theorem typed_indexed (sound : Sound ds) (typed : TypedFields idxs ds) : Indexed idxs ds := by
  intro row member i index
  obtain ⟨type,found,own⟩ := typed i index
  exact (typed_cell sound member found own).1

theorem dbvalLt_ordered (sound : Sound ds) (typed : TypedFields idxs ds) (numbers : ∀ row ∈ ds.rows, Numbers idxs row) :
    Ordered DbValue.dbvalLt idxs ds := fun a ha b hb i index =>
  valueLt_exact (numbers a ha i index) (numbers b hb i index) fun absorbed =>
    typed_apart sound typed index ha hb absorbed.types

theorem dbvalTypeLt_ordered (sound : Sound ds) (typed : TypedFields idxs ds) (numbers : ∀ row ∈ ds.rows, Numbers idxs row) :
    Ordered DbValue.dbvalTypeLt idxs ds := by
  intro a ha b hb i index
  rw [← dbvalLt_ordered sound typed numbers a ha b hb i index,Ordering.dbvalTypeLt_iff]
  obtain ⟨type,found,own⟩ := typed i index
  have same : (cell i a).dbtype = (cell i b).dbtype :=
    (typed_cell sound ha found own).2.1.trans (typed_cell sound hb found own).2.1.symm
  rw [same,valueTypeLt_same fun mixed => typed_apart sound typed index ha hb (.inl mixed)]
  simp [DbValue.dbvalLt]

theorem exactKey_injective {v w : Value} (hv : v.NonNaN) (hw : w.NonNaN)
    (apart : ¬ (v.getType = .int ∧ w.getType = .real ∨ v.getType = .real ∧ w.getType = .int))
    (same : exactKey v = exactKey w) : v = w := by
  cases v <;> cases w <;> simp [exactKey,exactRank,getType] at same apart ⊢
  · exact Int64.toInt_inj.mp same
  · exact Binary.Number.rank_injective hv hw same
  · exact same
  · exact same

def comparators : List (DbValue → DbValue → Bool) := [DbValue.dbvalLt,DbValue.dbvalTypeLt]

/-- Either comparator sorts the rows as sqlite does, and what is in the fields of the list afterwards depends neither
on the comparator nor on `std::sort`. -/
structure SortsTyped (idxs : List Nat) (ds : Dataset) : Prop where
  like : ∀ cmp ∈ comparators, SortsLikeSqlite cmp idxs ds
  fields : ∀ cmp ∈ comparators, ∀ cmp' ∈ comparators, ∀ (stdSort other : Algorithm) (after after' : Dataset),
    Dataset.sort stdSort idxs (some cmp) ds = .ok () after → Dataset.sort other idxs (some cmp') ds = .ok () after' →
      List.Forall₂ (fun row row' => ∀ i ∈ idxs, cell i row = cell i row') after.rows after'.rows

/-- Whatever a program did with its Datasets before: sorting by fields that have types of their own and hold no
not-a-number needs nothing else to be well-defined. -/
theorem sort_typed {selfInsert : List DbValues → List DbValues} {datasets : Datasets}
    (run : Reaches (EditingRuns.step selfInsert) Careful [] datasets) (member : ds ∈ datasets) (typed : TypedFields idxs ds)
    (numbers : ∀ row ∈ ds.rows, Numbers idxs row) : SortsTyped idxs ds := by
  have sound := run_sound run ds member
  have ordered : ∀ cmp ∈ comparators, Ordered cmp idxs ds := by
    intro cmp given
    rcases List.mem_pair.mp given with rfl | rfl
    · exact dbvalLt_ordered sound typed numbers
    · exact dbvalTypeLt_ordered sound typed numbers
  have indexed := typed_indexed sound typed
  constructor
  · exact fun cmp given => sortsLikeSqlite_of_ordered indexed numbers (ordered cmp given)
  · intro cmp given cmp' given' stdSort other after after' first second
    refine (sorts_same_keys indexed (ordered cmp given) (ordered cmp' given') first second).imp ?_
    intro row row' ⟨here,there,same⟩ i index
    obtain ⟨type,found,own⟩ := typed i index
    have types := (typed_cell sound here found own).2.1.trans (typed_cell sound there found own).2.1.symm
    have keys : exactKey (cell i row).value = exactKey (cell i row').value := List.map_inj_left.mp same i index
    have values := exactKey_injective (numbers row here i index) (numbers row' there i index)
      (typed_apart sound typed index here there) keys
    cases left : cell i row
    cases right : cell i row'
    rw [left,right] at types values
    cases types
    cases values
    rfl

def edited : Dataset := ⟨[one.val,[⟨.int,.int 0⟩]],[.int],[]⟩

theorem sort_typed_edited : SortsTyped [0] edited := by
  have first : Reaches (EditingRuns.step growInsert) Careful [] [Dataset.ofTypes [.int]] :=
    Reaches.start.next (.call (.ofTypes [.int])) trivial rfl
  have second := first.next (.call (.mergeRow 0 one)) trivial rfl
  have third := second.next (.call (.mergeRow 0 one)) trivial rfl
  have last : Reaches (EditingRuns.step growInsert) Careful [] [edited] :=
    third.next (.edit 0 1 (.cell 0 (.setInt64 0))) (fun ds row here replaced => by cases replaced) rfl
  refine sort_typed last List.mem_cons_self ?_ ?_
  · intro i index
    cases List.mem_singleton.mp index
    exact ⟨.int,rfl,by decide⟩
  · intro row member i index
    cases List.mem_singleton.mp index
    rcases List.mem_pair.mp member with rfl | rfl <;> trivial

end typed

end Sl3.SqliteSorting
