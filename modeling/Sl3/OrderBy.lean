import Sl3.Queries
import Sl3.SqliteSorting

/-! A result that is sorted by the program next to one that comes sorted from sqlite. -/
namespace Sl3.OrderBy
open Library Command Columns Selection Queries Sorting SqliteOrder SqliteSorting
variable {q q' : Query} {p p' : Platform} {types : List ValueType} {idxs : List Nat} {ds ds' : Dataset}

/-- The rows of a query that is run for the first time. -/
def result (q : Query) : List (List Cell) := (firstRun q).rows.map Subtype.val

def cellRegisters (cells : List Cell) (i : Nat) : Mem := .ofCell (cells.getD i .null)

def cellsOrder (idxs : List Nat) (cells later : List Cell) : Option Int :=
  opCompare (some binCollFunc) (cellRegisters cells) (cellRegisters later) idxs

/-- The second query is the first one with an `ORDER BY` of the columns in the list. -/
structure OrdersBy (idxs : List Nat) (q q' : Query) : Prop where
  names : q'.names = q.names
  rows : (result q').Perm (result q)
  ordered : (result q').Pairwise fun cells later => ∃ c, cellsOrder idxs cells later = some c ∧ c ≤ 0

theorem selectAll_rows (columns : q.names ≠ []) (returned : selectAll p q types = .ok ds) :
    ds.rows = (result q).map (List.zipWith converted (fieldtypes types q.names.length)) ∧
      (∀ cells ∈ result q, List.Forall₂ Accepts (fieldtypes types q.names.length) cells) ∧
      ds.fieldtypes = (if result q = [] then types else fieldtypes types q.names.length) ∧
      ds.names = if result q = [] then [] else q.names := by
  obtain ⟨left,selected⟩ := selectAll_returned returned
  rcases select_returned columns (setup_fresh p q) rfl selected with ⟨none,rfl⟩ | ⟨filled,conform,rfl⟩
  · have empty : result q = [] := List.map_eq_nil_iff.mpr none
    simp [empty,Dataset.ofTypes]
  · have some : result q ≠ [] := fun empty => filled (List.map_eq_nil_iff.mp empty)
    refine ⟨?_,?_,(if_neg some).symm,(if_neg some).symm⟩
    · rw [List.map_map,result,List.map_map]
      rfl
    · intro cells member
      obtain ⟨row,there,rfl⟩ := List.mem_map.mp member
      exact conform (q.columns row) (List.mem_map_of_mem there)

theorem opCompare_congr {xCmp : Option (Bytes → Bytes → Int)} {p1 p2 p1' p2' : Nat → Mem} (left : ∀ i ∈ idxs, p1 i = p1' i)
    (right : ∀ i ∈ idxs, p2 i = p2' i) : opCompare xCmp p1 p2 idxs = opCompare xCmp p1' p2' idxs := by
  induction idxs with
  | nil => rfl
  | cons i idxs ih =>
    obtain ⟨first,rest⟩ := List.forall_mem_cons.mp left
    obtain ⟨first',rest'⟩ := List.forall_mem_cons.mp right
    rw [opCompare,opCompare,first,first',ih rest rest']

theorem held_value (cell : Cell) : held cell.value = cell := by
  cases cell <;> rfl

section converted
variable {cells later : List Cell}

theorem cell_converted (fits : List.Forall₂ Accepts types cells) {i : Nat} (inside : i < cells.length) :
    (cell i (List.zipWith converted types cells)).value = (cells.getD i .null).value := by
  have typed : i < types.length := inside.trans_eq fits.length_eq.symm
  simp [cell,List.getD,inside,typed,converted]

theorem orderBy_converted (fits : List.Forall₂ Accepts types cells) (fits' : List.Forall₂ Accepts types later)
    (inside : ∀ i ∈ idxs, i < types.length) : orderBy idxs (List.zipWith converted types cells)
      (List.zipWith converted types later) = cellsOrder idxs cells later := by
  apply opCompare_congr
  · intro i index
    rw [registers,cell_converted fits ((inside i index).trans_eq fits.length_eq),held_value]
    rfl
  · intro i index
    rw [registers,cell_converted fits' ((inside i index).trans_eq fits'.length_eq),held_value]
    rfl

end converted

theorem result_sized {cells : List Cell} (member : cells ∈ result q) : cells.length = q.names.length := by
  obtain ⟨row,_,rfl⟩ := List.mem_map.mp member
  exact row.property

/-- What `select` makes of a query and of the same query ordered by sqlite: the program that sorts the one by itself
gets the other, but for the order of rows that are equal for sqlite. -/
theorem select_ordered (columns : q.names ≠ []) (orders : OrdersBy idxs q q') (inside : ∀ i ∈ idxs, i < q.names.length)
    (numbers : ∀ cells ∈ result q, ∀ i ∈ idxs, (cells.getD i .null).value.NonNaN)
    (apart : ∀ cells ∈ result q, ∀ others ∈ result q, ∀ i ∈ idxs,
      ¬ Absorbed (cells.getD i .null).value (others.getD i .null).value)
    (selected : selectAll p q types = .ok ds) (selected' : selectAll p' q' types = .ok ds') (stdSort : ComparisonSort.Algorithm) :
    ∃ after, Dataset.sort stdSort idxs (some DbValue.dbvalLt) ds = .ok () after ∧ after.fieldtypes = ds'.fieldtypes ∧
      after.names = ds'.names ∧ List.Forall₂ (fun row row' => orderBy idxs row row' = some 0) after.rows ds'.rows := by
  have columns' : q'.names ≠ [] := by rwa [orders.names]
  obtain ⟨rows,fits,fields,names⟩ := selectAll_rows columns selected
  obtain ⟨rows',fits',fields',names'⟩ := selectAll_rows columns' selected'
  rw [orders.names] at rows' fits' fields' names'
  have empty : result q' = [] ↔ result q = [] := by
    constructor
    · exact fun none => List.nil_perm.mp (none ▸ orders.rows)
    · exact fun none => List.perm_nil.mp (none ▸ orders.rows)
  -- the rows of the Datasets, by the cells that they were made of
  have value : ∀ cells ∈ result q, ∀ i ∈ idxs, (cell i (List.zipWith converted (fieldtypes types q.names.length) cells)).value =
      (cells.getD i .null).value := by
    intro cells member i index
    exact cell_converted (fits cells member) ((inside i index).trans_eq (result_sized member).symm)
  have made : ∀ row ∈ ds.rows, ∃ cells ∈ result q, row = List.zipWith converted (fieldtypes types q.names.length) cells := by
    intro row member
    rw [rows] at member
    obtain ⟨cells,there,rfl⟩ := List.mem_map.mp member
    exact ⟨cells,there,rfl⟩
  have indexed : Indexed idxs ds := by
    intro row member i index
    obtain ⟨cells,there,rfl⟩ := made row member
    rw [List.length_zipWith,(fits cells there).length_eq,Nat.min_self,result_sized there]
    exact inside i index
  have real : ∀ row ∈ ds.rows, Numbers idxs row := by
    intro row member i index
    obtain ⟨cells,there,rfl⟩ := made row member
    rw [value cells there i index]
    exact numbers cells there i index
  have ordered : Ordered DbValue.dbvalLt idxs ds := by
    intro a ha b hb i index
    refine valueLt_exact (real a ha i index) (real b hb i index) ?_
    obtain ⟨cells,there,rfl⟩ := made a ha
    obtain ⟨others,there',rfl⟩ := made b hb
    rw [value cells there i index,value others there' i index]
    exact apart cells there others there' i index
  obtain ⟨sorted,ran,permuted,keys⟩ := sort_keys indexed ordered stdSort
  have permuted' : ds'.rows.Perm ds.rows := by
    rw [rows,rows']
    exact orders.rows.map _
  have real' : ∀ row ∈ ds'.rows, Numbers idxs row := fun row member => real row (permuted'.mem_iff.mp member)
  have made' : ∀ cells ∈ result q', List.zipWith converted (fieldtypes types q.names.length) cells ∈ ds'.rows := by
    intro cells member
    rw [rows']
    exact List.mem_map_of_mem member
  have sized : ∀ cells ∈ result q', ∀ i ∈ idxs, i < (fieldtypes types q.names.length).length := by
    intro cells member i index
    rw [(fits' cells member).length_eq,result_sized (orders.rows.mem_iff.mp member)]
    exact inside i index
  have keys' : ds'.rows.Pairwise fun row later => rowKey idxs row ≤ rowKey idxs later := by
    rw [rows',List.pairwise_map]
    refine orders.ordered.imp_of_mem fun {cells later} here there ordered => ?_
    rw [rowKey_le_iff (real' _ (made' cells here)) (real' _ (made' later there)),
      orderBy_converted (fits' cells here) (fits' later there) (sized cells here)]
    exact ordered
  refine ⟨{ds with rows := sorted},ran,?_,?_,?_⟩
  · simp only [fields,fields',empty]
  · simp only [names,names',empty]
  · refine (sorted_same_keys (permuted.trans permuted'.symm) keys keys').imp fun row row' ⟨here,there,same⟩ => ?_
    exact tied_of_key (real row (permuted.mem_iff.mp here)) (real' row' there) same

theorem single_countable : ["a"].length < 2^31 := by norm_num

def pair (first second : Int64) : Query :=
  .table ["a"] single_countable [⟨[.integer first],rfl⟩,⟨[.integer second],rfl⟩]

theorem pair_columns (first second : Int64) : (pair first second).names ≠ [] := List.cons_ne_nil _ _

theorem pair_selected (first second : Int64) : ∃ ds, selectAll .usual (pair first second) [] = .ok ds := by
  have accepted := setup_fresh .usual (pair first second)
  rcases @select_rows _ .usual [] [] _ _ (pair_columns first second) accepted rfl rfl _ _ rfl with ⟨refused,_⟩ | ⟨_,returned⟩
  · refine absurd ⟨.inl (typeCount_zero.mpr rfl),?_⟩ refused
    rw [fieldtypes_nil]
    refine conform_variant fun row member => ?_
    rcases List.mem_pair.mp member with rfl | rfl <;> rfl
  · exact ⟨_,by rw [selectAll,returned]⟩

theorem pair_ordered : OrdersBy [0] (pair 2 1) (pair 1 2) := by
  refine ⟨rfl,.swap _ _ _,?_⟩
  refine List.pairwise_pair.mpr ⟨-1,?_,by omega⟩
  decide

theorem select_ordered_pair : ∃ ds ds' after, selectAll .usual (pair 2 1) [] = .ok ds ∧
    selectAll .usual (pair 1 2) [] = .ok ds' ∧
    Dataset.sort (.holding 0) [0] (some DbValue.dbvalLt) ds = .ok () after ∧
    List.Forall₂ (fun row row' => orderBy [0] row row' = some 0) after.rows ds'.rows := by
  obtain ⟨ds,selected⟩ := pair_selected 2 1
  obtain ⟨ds',selected'⟩ := pair_selected 1 2
  have integers : ∀ cells ∈ result (pair 2 1), ∀ i ∈ [0], (cells.getD i .null).value.getType = .int := by
    intro cells member i index
    cases List.mem_singleton.mp index
    rcases List.mem_pair.mp member with rfl | rfl <;> rfl
  have inside : ∀ i ∈ [0], i < (pair 2 1).names.length := by
    intro i index
    cases List.mem_singleton.mp index
    exact Nat.one_pos
  have numbers : ∀ cells ∈ result (pair 2 1), ∀ i ∈ [0], (cells.getD i .null).value.NonNaN := by
    intro cells member i index
    have integer := integers cells member i index
    cases stored : (cells.getD i .null).value with
    | real x =>
      rw [stored] at integer
      cases integer
    | _ => trivial
  have apart : ∀ cells ∈ result (pair 2 1), ∀ others ∈ result (pair 2 1), ∀ i ∈ [0],
      ¬ Absorbed (cells.getD i .null).value (others.getD i .null).value := by
    intro cells member others member' i index absorbed
    rcases absorbed.types with ⟨_,real⟩ | ⟨real,_⟩
    · cases real.symm.trans (integers others member' i index)
    · cases real.symm.trans (integers cells member i index)
  obtain ⟨after,sorted,_,_,same⟩ :=
    select_ordered (pair_columns 2 1) pair_ordered inside numbers apart selected selected' (.holding 0)
  exact ⟨ds,ds',after,selected,selected',sorted,same⟩

end Sl3.OrderBy
