import Sl3.Dataset
import Sl3.Library.ComparisonSort
import Sl3.Library.Lexicographic

/-! `Dataset::sort`: the comparison of rows that it hands to `std::sort`, and what is left of
the rows when that comparison throws. -/
namespace Sl3
open Library

/-- `Container::at`. -/
def DbValues.at (row : DbValues) (i : Nat) : Except Error DbValue :=
  match row[i]? with
  | none => .error (errOutOfRange ("no data at: " ++ toString i))
  | some d => .ok d

namespace Dataset

/-- The lambda of `sort`: the cells are asked for index by index, up to the first that decides. -/
def lessValues (cmp : DbValue → DbValue → Bool) : List Nat → DbValues → DbValues → Except Error Bool
  | [],_,_ => .ok false
  | cur::idxs,a,b =>
    match a.at cur,b.at cur with
    | .ok x,.ok y => if cmp x y then .ok true else if cmp y x then .ok false else lessValues cmp idxs a b
    | .error e,_ => .error e
    | _,.error e => .error e

/-- `cmp` is a function pointer, which may be null. `std::sort` moves rows out and swaps them, and assigns
one only where another has moved out, so that no assignment of a row throws. -/
def sort (stdSort : ComparisonSort.Algorithm) (idxs : List Nat) (cmp : Option (DbValue → DbValue → Bool)) :
    Method Dataset Unit := fun ds =>
  match cmp with
  | none => .error (errNullValueAccess "sort: cmp") ds
  | some cmp =>
    match (stdSort.comparisons ds.rows.length).run (lessValues cmp idxs) [] ds.rows.get with
    | .ok _ rows => .ok () {ds with rows}
    | .error e rows => .error e {ds with rows}

end Dataset

namespace Sorting
open Dataset StrictWeak ComparisonSort
variable {S : Set DbValue} {cmp : DbValue → DbValue → Bool} {idxs : List Nat} {a b row : DbValues} {ds : Dataset}
  {stdSort : Algorithm}

def cell (i : Nat) (row : DbValues) : DbValue := row.getD i (DbValue.ofType .variant)

theorem at_inside {i : Nat} (inside : i < row.length) : row.at i = .ok (cell i row) := by
  simp [DbValues.at,cell,List.getD,inside]

theorem at_outside {i : Nat} (outside : row.length ≤ i) : row.at i = .error (errOutOfRange ("no data at: " ++ toString i)) := by
  simp [DbValues.at,outside]

theorem lessValues_inside (inside : ∀ i ∈ idxs, i < a.length ∧ i < b.length) :
    lessValues cmp idxs a b = .ok (lexLess cmp cell idxs a b) := by
  induction idxs with
  | nil => rfl
  | cons cur idxs ih =>
    obtain ⟨⟨left,right⟩,later⟩ := List.forall_mem_cons.mp inside
    have rest := ih later
    simp only [lessValues,at_inside left,at_inside right,lexLess,thenBy]
    split_ifs
    · rfl
    · rfl
    · exact rest

/-- Every row of the Dataset has a cell at every index of the list. -/
def Indexed (idxs : List Nat) (ds : Dataset) : Prop := ∀ row ∈ ds.rows, ∀ i ∈ idxs, i < row.length

/-- The answer of the comparison where it does not throw. -/
def rowLess (cmp : DbValue → DbValue → Bool) (idxs : List Nat) (a b : DbValues) : Bool :=
  match lessValues cmp idxs a b with
  | .ok less => less
  | .error _ => false

structure SortsLexicographically (stdSort : Algorithm) (cmp : DbValue → DbValue → Bool) (idxs : List Nat) (ds : Dataset) :
    Prop where
  defined : ∀ a ∈ ds.rows, ∀ b ∈ ds.rows, lessValues cmp idxs a b = .ok (rowLess cmp idxs a b)
  lifted : ∀ a ∈ ds.rows, ∀ b ∈ ds.rows, (rowLess cmp idxs a b = true ↔ Lex cmp cell idxs a b)
  weak : StrictWeakOn {row | row ∈ ds.rows} (rowLess cmp idxs)
  sorted : ∃ rows, Dataset.sort stdSort idxs (some cmp) ds = .ok () {ds with rows} ∧ rows.Perm ds.rows ∧
    rows.Pairwise fun earlier later => rowLess cmp idxs later earlier = false

theorem rowLess_inside (indexed : Indexed idxs ds) (ha : a ∈ ds.rows) (hb : b ∈ ds.rows) :
    lessValues cmp idxs a b = .ok (rowLess cmp idxs a b) ∧ rowLess cmp idxs a b = lexLess cmp cell idxs a b := by
  have compared := @lessValues_inside cmp idxs a b fun i member => ⟨indexed a ha i member,indexed b hb i member⟩
  simp [rowLess,compared]

theorem get_mem (rows : List DbValues) (i : Fin rows.length) : rows.get i ∈ rows := List.get_mem rows i

theorem sort_ok {answers : Fin ds.rows.length → Fin ds.rows.length → Bool}
    (defined : ∀ i j, lessValues cmp idxs (ds.rows.get i) (ds.rows.get j) = .ok (answers i j)) :
    Dataset.sort stdSort idxs (some cmp) ds = .ok () {ds with
      rows := List.ofFn (ds.rows.get ∘ (stdSort.comparisons ds.rows.length).order answers)} := by
  simp only [Dataset.sort,Comparisons.run_ok defined]

/-- A sort that throws leaves as many rows as there were; some may have lost their cells, and the others are rows of
before. -/
theorem sort_cases (stdSort : Algorithm) (idxs : List Nat) (cmp : Option (DbValue → DbValue → Bool)) (ds : Dataset) :
    (∃ rows, Dataset.sort stdSort idxs cmp ds = .ok () {ds with rows} ∧ rows.Perm ds.rows) ∨
      ∃ e rows, Dataset.sort stdSort idxs cmp ds = .error e {ds with rows} ∧ rows.length = ds.rows.length ∧
        (rows.filter (· ≠ [])).Subperm ds.rows := by
  cases cmp with
  | none => exact .inr ⟨_,ds.rows,rfl,rfl,List.filter_sublist.subperm⟩
  | some cmp =>
    rcases @Comparisons.run_cases _ _ _ (stdSort.comparisons ds.rows.length) (lessValues cmp idxs) [] ds.rows.get with
      ⟨order,ran⟩ | ⟨e,held,failed⟩
    · exact .inl ⟨_,by simp only [Dataset.sort,ran],Comparisons.ordered_perm ds.rows order⟩
    · refine .inr ⟨e,Comparisons.slots [] ds.rows.get held,?_,Comparisons.slots_length held,?_⟩
      · simp only [Dataset.sort,failed]
      · simpa only [List.ofFn_get] using @Comparisons.slots_subperm _ _ _ ds.rows.get (fun row => row ≠ []) (by simp) held

theorem sort_returned {cmp : Option (DbValue → DbValue → Bool)} {after : Dataset}
    (ran : Dataset.sort stdSort idxs cmp ds = .ok () after) : ∃ rows, after = {ds with rows} ∧ rows.Perm ds.rows := by
  rcases sort_cases stdSort idxs cmp ds with ⟨rows,sorted,permuted⟩ | ⟨e,rows,failed,_⟩
  · cases sorted.symm.trans ran
    exact ⟨rows,rfl,permuted⟩
  · cases failed.symm.trans ran

theorem sort_thrown {cmp : Option (DbValue → DbValue → Bool)} {e : Error} {left : Dataset}
    (ran : Dataset.sort stdSort idxs cmp ds = .error e left) :
    ∃ rows, left = {ds with rows} ∧ rows.length = ds.rows.length ∧ (rows.filter (· ≠ [])).Subperm ds.rows := by
  rcases sort_cases stdSort idxs cmp ds with ⟨rows,sorted,_⟩ | ⟨e,rows,failed,kept⟩
  · cases sorted.symm.trans ran
  · cases failed.symm.trans ran
    exact ⟨rows,rfl,kept⟩

/-- Where every row has the indexes nothing throws but a null comparator, before any row is moved. -/
theorem sort_indexed {cmp : Option (DbValue → DbValue → Bool)} {e : Error} {left : Dataset} (indexed : Indexed idxs ds)
    (ran : Dataset.sort stdSort idxs cmp ds = .error e left) : left = ds := by
  cases cmp with
  | none =>
    cases ran
    rfl
  | some cmp =>
    have defined (i j : Fin ds.rows.length) := (@rowLess_inside cmp _ _ _ _ indexed (get_mem _ i) (get_mem _ j)).1
    cases (sort_ok defined).symm.trans ran

/-- With a comparator that is a strict weak ordering of the cells, and rows that have the indexes, `sort`
sorts the rows by the lexicographic lifting of the comparator, and changes nothing else. -/
theorem sort_lexicographic (weak : StrictWeakOn S cmp) (cells : ∀ row ∈ ds.rows, ∀ d ∈ row, d ∈ S)
    (indexed : Indexed idxs ds) (stdSort : Algorithm) : SortsLexicographically stdSort cmp idxs ds := by
  have keys : ∀ row ∈ {row | row ∈ ds.rows}, ∀ i ∈ idxs, cell i row ∈ S := by
    intro row member i index
    have inside := indexed row member i index
    have same : cell i row = row[i] := by simp [cell,List.getD,inside]
    exact same ▸ cells row member _ (List.getElem_mem inside)
  have lifted := (lexLess_strictWeakOn weak keys).congr fun a ha b hb => (rowLess_inside indexed ha hb).2
  constructor
  · exact fun a ha b hb => (rowLess_inside indexed ha hb).1
  · intro a ha b hb
    rw [(rowLess_inside indexed ha hb).2,lexLess_iff]
  · exact lifted
  · have defined (i j : Fin ds.rows.length) : lessValues cmp idxs (ds.rows.get i) (ds.rows.get j) =
        .ok (rowLess cmp idxs (ds.rows.get i) (ds.rows.get j)) :=
      (rowLess_inside indexed (get_mem _ i) (get_mem _ j)).1
    have positions : StrictWeakOn Set.univ fun i j => rowLess cmp idxs (ds.rows.get i) (ds.rows.get j) :=
      lifted.comap fun i _ => get_mem _ i
    refine ⟨_,sort_ok defined,Comparisons.ordered_perm ds.rows _,?_⟩
    · rw [List.pairwise_ofFn]
      intro i j before
      exact stdSort.sorts _ _ positions i j before

def number (n : Int64) : DbValue := ⟨.int,.int n⟩

def numberKey (d : DbValue) : Int :=
  match d.value with
  | .int n => n.toInt
  | _ => 0

theorem numbers_weak : StrictWeakOn (Set.range number) DbValue.dbvalLt := by
  refine @StrictWeakOn.of_key _ _ _ _ _ numberKey ?_
  rintro _ ⟨n,rfl⟩ _ ⟨m,rfl⟩
  simp [number,DbValue.dbvalLt,Value.valueLt,Value.isNull,Value.getType,numberKey,Int64.lt_iff_toInt_lt]

def threeRows : Dataset :=
  ⟨[[number 2,number 1],[number 1,number 5],[number 1,number 3]],[.int,.int],["a","b"]⟩

theorem sort_lexicographic_numbers : SortsLexicographically (.holding 0) DbValue.dbvalLt [0,1,0] threeRows := by
  have cells : ∀ row ∈ threeRows.rows, ∀ d ∈ row, d ∈ Set.range number := by simp [threeRows]
  have indexed : Indexed [0,1,0] threeRows := by simp [Indexed,threeRows]
  exact sort_lexicographic numbers_weak cells indexed _

/-- However `std::sort` sorts, the exception is ErrOutOfRange, and the rows are those of before in some order. -/
def ReportsUnharmed (cmp : DbValue → DbValue → Bool) (idxs : List Nat) (ds : Dataset) : Prop :=
  ∀ stdSort : Algorithm, ∃ what rows, Dataset.sort stdSort idxs (some cmp) ds = .error (errOutOfRange what) {ds with rows} ∧
    rows.Perm ds.rows

/-- A sort that holds one row outside of the vector does not throw, or it loses the cells of that row. -/
theorem sort_holding (cmp : DbValue → DbValue → Bool) (idxs : List Nat) (ds : Dataset) (slot : Nat) :
    (∃ after, Dataset.sort (Algorithm.holding slot) idxs (some cmp) ds = .ok () after) ∨
      ∃ e, Dataset.sort (Algorithm.holding slot) idxs (some cmp) ds = .error e {ds with rows := ds.rows.set slot []} := by
  have ran := @Comparisons.ask_run _ _ _ (lessValues cmp idxs) [] ds.rows.get
    (PEquiv.ofSet {i : Fin ds.rows.length | (i : Nat) ≠ slot}) (Comparisons.pairs ds.rows.length) fun _ _ => false
  rw [slots_holding] at ran
  unfold Dataset.sort Algorithm.holding
  rcases ran with ⟨sorted,ok⟩ | ⟨e,failed⟩
  · exact .inl ⟨{ds with rows := sorted},by simp only [ok]⟩
  · exact .inr ⟨e,by simp only [failed]⟩

theorem emptied_not_perm {rows : List DbValues} {slot : Nat} (inside : slot < rows.length) (filled : rows[slot] ≠ []) :
    ¬ (rows.set slot []).Perm rows := by
  intro same
  have count := same.count_eq []
  rw [List.count_set inside] at count
  simp [filled] at count

theorem compared_empty (cur : Nat) (idxs : List Nat) :
    lessValues cmp (cur::idxs) [] [] = .error (errOutOfRange ("no data at: " ++ toString cur)) := by
  have missing : DbValues.at [] cur = .error (errOutOfRange ("no data at: " ++ toString cur)) := at_outside (Nat.zero_le cur)
  simp only [lessValues,missing]

theorem sort_empty (two : 1 < ds.rows.length) (given : idxs ≠ []) (empty : ∀ row ∈ ds.rows, row = []) (stdSort : Algorithm) :
    ∃ what, Dataset.sort stdSort idxs (some cmp) ds = .error (errOutOfRange what) ds := by
  obtain ⟨cur,rest,rfl⟩ := List.exists_cons_of_ne_nil given
  obtain ⟨i,j,held,yes,no,first⟩ := (stdSort.sorts ds.rows.length).compares two
  have each (i : Fin ds.rows.length) : ds.rows.get i = [] := empty _ (get_mem _ i)
  have left : Comparisons.slots [] ds.rows.get held = ds.rows := by
    apply List.ext_getElem
    · simp [Comparisons.slots]
    · intro k inside inside'
      rw [empty _ (List.getElem_mem inside')]
      simp only [Comparisons.slots,List.getElem_ofFn]
      cases held ⟨k,inside'⟩ with
      | none => rfl
      | some i => exact each i
  have ran : (stdSort.comparisons ds.rows.length).run (lessValues cmp (cur::rest)) [] ds.rows.get =
      .error (errOutOfRange ("no data at: " ++ toString cur)) ds.rows := by
    rw [first,Comparisons.run,each i,each j,compared_empty,left]
  exact ⟨"no data at: " ++ toString cur,by simp only [Dataset.sort,ran]⟩

/-- An index that some row does not have is reported by every sort, and does no harm in any, exactly when
no row has a cell to lose. -/
theorem reports_unharmed_iff (two : 1 < ds.rows.length) (invalid : ∃ row ∈ ds.rows, ∃ i ∈ idxs, row.length ≤ i)
    (cmp : DbValue → DbValue → Bool) : ReportsUnharmed cmp idxs ds ↔ ∀ row ∈ ds.rows, row = [] := by
  constructor
  · intro laws row member
    by_contra filled
    obtain ⟨slot,inside,rfl⟩ := List.getElem_of_mem member
    obtain ⟨what,rows,thrown,kept⟩ := laws (Algorithm.holding slot)
    rcases sort_holding cmp idxs ds slot with ⟨after,ok⟩ | ⟨e,failed⟩
    · cases ok.symm.trans thrown
    · cases failed.symm.trans thrown
      exact emptied_not_perm inside filled kept
  · intro empty stdSort
    obtain ⟨_,_,i,index,_⟩ := invalid
    obtain ⟨what,thrown⟩ := @sort_empty cmp idxs ds two (List.ne_nil_of_mem index) empty stdSort
    exact ⟨what,ds.rows,thrown,.refl _⟩

theorem reports_unharmed_empty : ReportsUnharmed DbValue.dbvalLt [3] ⟨[[],[]],[],[]⟩ :=
  (reports_unharmed_iff (by simp) (by simp) _).mpr (by simp)

def twoRows (n m : Int64) : Dataset := ⟨[[number n],[number m]],[.int],["a"]⟩

/-- Index 7 is not asked for where the cells at index 0 differ; where they are equal it is, and the row that
the sort holds meanwhile is empty afterwards. -/
theorem invalid_index_harms :
    (∃ after, Dataset.sort (.holding 1) [0,7] (some DbValue.dbvalLt) (twoRows 1 2) = .ok () after) ∧
      Dataset.sort (.holding 1) [0,7] (some DbValue.dbvalLt) (twoRows 1 1) =
        .error (errOutOfRange "no data at: 7") ⟨[[number 1],[]],[.int],["a"]⟩ ∧
      ¬ ReportsUnharmed DbValue.dbvalLt [0,7] (twoRows 1 2) ∧ ¬ ReportsUnharmed DbValue.dbvalLt [0,7] (twoRows 1 1) := by
  have sorted : ∃ after, Dataset.sort (.holding 1) [0,7] (some DbValue.dbvalLt) (twoRows 1 2) = .ok () after := ⟨_,rfl⟩
  have thrown : Dataset.sort (.holding 1) [0,7] (some DbValue.dbvalLt) (twoRows 1 1) =
      .error (errOutOfRange "no data at: 7") ⟨[[number 1],[]],[.int],["a"]⟩ := rfl
  refine ⟨sorted,thrown,fun laws => ?_,fun laws => ?_⟩
  · obtain ⟨after,ok⟩ := sorted
    obtain ⟨what,rows,failed,_⟩ := laws (.holding 1)
    cases ok.symm.trans failed
  · obtain ⟨what,rows,failed,kept⟩ := laws (.holding 1)
    cases thrown.symm.trans failed
    have count := kept.count_eq []
    exact absurd count (by decide)

end Sorting
end Sl3
