import Sl3.OrderBy
import Sl3.Merging

/-! Results that the program merges one after the other next to the one result of a `UNION ALL`. -/
namespace Sl3.UnionAll
open Command Columns Selection Queries OrderBy Merging
variable {q both : Query} {p : Platform} {types : List ValueType} {ds all : Dataset}

/-- What `select` makes of these rows. -/
def filled (names : List String) (types : List ValueType) (rows : List (List Cell)) : Dataset :=
  if rows = [] then Dataset.ofTypes types
  else ⟨rows.map (List.zipWith converted (fieldtypes types names.length)),fieldtypes types names.length,names⟩

/-- `merge` with each Dataset of the list in turn, up to the first that is refused. -/
def mergeAll : List Dataset → Method Dataset Unit
  | [] => .ok ()
  | other::others => fun ds =>
    match Dataset.merge (ds.rows ++ other.rows) other ds with
    | .error e ds => .error e ds
    | .ok _ ds => mergeAll others ds

/-- `both` is the `UNION ALL` of the queries and runs to its end. -/
structure Unites (queries : List Query) (both : Query) : Prop where
  names : ∀ q ∈ queries, q.names = both.names
  rows : result both = queries.flatMap result
  ended : (firstRun both).rc = sqliteDone

theorem selectAll_filled (columns : q.names ≠ []) (returned : selectAll p q types = .ok ds) :
    ds = filled q.names types (result q) := by
  obtain ⟨rows,_,fields,names⟩ := selectAll_rows columns returned
  have parts : ds = ⟨ds.rows,ds.fieldtypes,ds.names⟩ := rfl
  rw [parts,rows,fields,names,filled]
  split_ifs with none
  · rw [none,List.map_nil,Dataset.ofTypes]
  · rfl

theorem suits_of_sized {n : Nat} (small : n < 2^31) (sized : (fieldtypes types n).length = n) :
    typeCount types = 0 ∨ typeCount types = n := by
  by_cases none : typeCount types = 0
  · exact .inl none
  · rw [fieldtypes,if_neg none] at sized
    exact .inr (typeCount_of_length small sized)

/-- A query that runs to its end is selected exactly when all its cells fit the types. -/
theorem selectAll_ok_iff (columns : q.names ≠ []) (ended : (firstRun q).rc = sqliteDone) :
    (∃ ds, selectAll p q types = .ok ds) ↔
      ∀ cells ∈ result q, List.Forall₂ Accepts (fieldtypes types q.names.length) cells := by
  constructor
  · rintro ⟨ds,returned⟩
    exact (selectAll_rows columns returned).2.1
  · intro fits
    have accepted := setup_fresh p q
    cases rows : (firstRun q).rows.map q.columns with
    | nil => exact ⟨_,by rw [selectAll,select_empty accepted rfl ended (List.map_eq_nil_iff.mp rows)]⟩
    | cons row rest =>
      rcases @select_rows q p [] types _ _ columns accepted rfl ended row rest rows with ⟨refused,_⟩ | ⟨_,returned⟩
      · have conform : Conform (fieldtypes types q.names.length) (row::rest) := by
          intro columns member
          rw [← rows] at member
          obtain ⟨cells,there,rfl⟩ := List.mem_map.mp member
          exact fits cells.val (List.mem_map_of_mem there)
        have size : row.cells.length = q.names.length := (@rows_sized q (firstRun q) row (by rw [rows]; simp)).1
        have sized := (conform row List.mem_cons_self).length_eq.trans size
        exact absurd ⟨suits_of_sized q.countable sized,conform⟩ refused
      · exact ⟨_,by rw [selectAll,returned]⟩

section filled
variable {names : List String} {rows later : List (List Cell)} {parts : List (List (List Cell))}

theorem filled_some (some : rows ≠ []) : filled names types rows =
    ⟨rows.map (List.zipWith converted (fieldtypes types names.length)),fieldtypes types names.length,names⟩ :=
  if_neg some

theorem takes_same (types : List ValueType) : Dataset.Takes types types :=
  List.forall₂_same.mpr fun _ _ => .inr rfl

theorem counted_of_length (columns : names ≠ []) (small : names.length < 2^31)
    (size : (fieldtypes types names.length).length = types.length) : typeCount types ≠ 0 := by
  intro none
  rw [fieldtypes,if_pos none,List.length_replicate] at size
  have positive := List.length_pos_iff.mpr columns
  rw [typeCount_zero,← size,Nat.mod_eq_of_lt (small.trans (by norm_num))] at none
  exact positive.ne' none

theorem takes_given_iff (columns : names ≠ []) (small : names.length < 2^31) :
    Dataset.Takes (fieldtypes types names.length) types ↔ typeCount types ≠ 0 := by
  constructor
  · exact fun takes => counted_of_length columns small takes.length_eq
  · intro some
    rw [fieldtypes,if_neg some]
    exact takes_same types

/-- Under rows, a result is taken that has rows too, or one that has the types without them. -/
theorem merge_filled_iff (columns : names ≠ []) (small : names.length < 2^31) (some : rows ≠ []) :
    Mergeable (filled names types rows) (filled names types later) ↔ (later = [] → typeCount types ≠ 0) := by
  by_cases none : later = []
  · rw [none,filled_some some,← takes_given_iff columns small]
    exact ⟨fun mergeable _ => mergeable.2,fun takes => ⟨.inl rfl,takes rfl⟩⟩
  · rw [filled_some some,filled_some none]
    exact iff_of_true ⟨.inr (.inr rfl),takes_same _⟩ fun empty => absurd empty none

theorem filled_append (some : rows ≠ []) :
    {filled names types rows with rows := (filled names types rows).rows ++ (filled names types later).rows} =
      filled names types (rows ++ later) := by
  have either : rows ++ later ≠ [] := fun none => some (List.append_eq_nil_iff.mp none).1
  rw [filled_some some,filled_some either]
  by_cases none : later = []
  · simp [none,filled,Dataset.ofTypes]
  · rw [filled_some none,List.map_append]

section mergeAll
variable {other after left : Dataset} {others : List Dataset} {e : Error}

theorem mergeAll_ok (merged : Dataset.merge (ds.rows ++ other.rows) other ds = .ok () after) :
    mergeAll (other::others) ds = mergeAll others after := by
  simp only [mergeAll,merged]

theorem mergeAll_refused (refused : Dataset.merge (ds.rows ++ other.rows) other ds = .error e left) :
    mergeAll (other::others) ds = .error e left := by
  simp only [mergeAll,refused]

theorem mergeAll_names (ran : mergeAll others ds = .ok () all) : all.names = ds.names := by
  induction others generalizing ds with
  | nil =>
    cases ran
    rfl
  | cons other others ih =>
    cases merged : Dataset.merge (ds.rows ++ other.rows) other ds with
    | error e left =>
      rw [mergeAll_refused merged] at ran
      cases ran
    | ok done next =>
      rw [mergeAll_ok merged] at ran
      obtain ⟨rfl,_⟩ := Dataset.merge_ok merged
      exact @ih {ds with rows := ds.rows ++ other.rows} ran

end mergeAll

theorem mergeAll_filled_iff (columns : names ≠ []) (small : names.length < 2^31) (some : rows ≠ []) :
    mergeAll (parts.map (filled names types)) (filled names types rows) = .ok () (filled names types (rows ++ parts.flatten)) ↔
      ([] ∈ parts → typeCount types ≠ 0) := by
  induction parts generalizing rows with
  | nil => simp [mergeAll]
  | cons later parts ih =>
    have longer : rows ++ later ≠ [] := fun none => some (List.append_eq_nil_iff.mp none).1
    have takes := @merge_filled_iff types names rows later columns small some
    have more : ([] ∈ later::parts → typeCount types ≠ 0) ↔
        (later = [] → typeCount types ≠ 0) ∧ ([] ∈ parts → typeCount types ≠ 0) := by
      rw [List.mem_cons,or_imp,eq_comm]
    rw [List.map_cons,List.flatten_cons,← List.append_assoc,more,← takes,← ih longer]
    rcases merge_refused_or ((filled names types rows).rows ++ (filled names types later).rows) (filled names types later)
      (filled names types rows) with ⟨not,refused⟩ | ⟨mergeable,merged⟩
    · rw [mergeAll_refused refused]
      simp [not]
    · rw [mergeAll_ok merged,filled_append some]
      simp [mergeable]

theorem mergeAll_empty_iff (columns : names ≠ []) :
    mergeAll (parts.map (filled names types)) (filled names types []) = .ok () (filled names types parts.flatten) ↔
      ∀ part ∈ parts, part = [] := by
  constructor
  · intro ran
    have named := mergeAll_names ran
    rw [← List.flatten_eq_nil_iff]
    by_contra some
    rw [filled_some some] at named
    exact columns named
  · intro none
    rw [List.flatten_eq_nil_iff.mpr none]
    induction parts with
    | nil => rfl
    | cons part parts ih =>
      obtain ⟨rfl,rest⟩ := List.forall_mem_cons.mp none
      have merged : Dataset.merge ((filled names types []).rows ++ (filled names types []).rows) (filled names types [])
          (filled names types []) = .ok () (filled names types []) := merge_mergeable ⟨.inl rfl,takes_same types⟩
      rw [List.map_cons,mergeAll_ok merged]
      exact ih rest

/-- Where the types give no column a type, only results that both have rows or both have none go together. -/
theorem merge_uncounted_iff (columns : names ≠ []) (small : names.length < 2^31) (zero : typeCount types = 0) :
    Mergeable (filled names types rows) (filled names types later) ↔ (rows = [] ↔ later = []) := by
  by_cases none : rows = []
  · subst none
    by_cases empty : later = []
    · subst empty
      exact iff_of_true ⟨.inl rfl,takes_same types⟩ Iff.rfl
    · refine iff_of_false (fun mergeable => ?_) fun both => empty (both.mp rfl)
      rw [filled_some empty] at mergeable
      exact counted_of_length columns small mergeable.2.length_eq.symm zero
  · rw [merge_filled_iff columns small none]
    simp [none,zero]

theorem mergeAll_uncounted (columns : names ≠ []) (small : names.length < 2^31) (zero : typeCount types = 0)
    (differs : ∃ part ∈ parts, ¬ (rows = [] ↔ part = [])) :
    ∃ left, mergeAll (parts.map (filled names types)) (filled names types rows) = .error (errTypeMisMatch "") left := by
  induction parts generalizing rows with
  | nil =>
    obtain ⟨_,member,_⟩ := differs
    cases member
  | cons later parts ih =>
    rw [List.map_cons]
    rcases merge_refused_or ((filled names types rows).rows ++ (filled names types later).rows) (filled names types later)
      (filled names types rows) with ⟨_,refused⟩ | ⟨mergeable,merged⟩
    · exact ⟨_,mergeAll_refused refused⟩
    · have alike := (merge_uncounted_iff columns small zero).mp mergeable
      have grown : {filled names types rows with rows := (filled names types rows).rows ++ (filled names types later).rows} =
          filled names types (rows ++ later) := by
        by_cases none : rows = []
        · rw [none,alike.mp none]
          rfl
        · exact filled_append none
      have same : rows ++ later = [] ↔ rows = [] := by
        rw [List.append_eq_nil_iff]
        exact ⟨And.left,fun none => ⟨none,alike.mp none⟩⟩
      rw [mergeAll_ok merged,grown]
      obtain ⟨part,member,other⟩ := differs
      rcases List.mem_cons.mp member with rfl | inside
      · exact absurd alike other
      · exact ih ⟨part,inside,by rwa [same]⟩

theorem filled_rows : (filled names types rows).rows = rows.map (List.zipWith converted (fieldtypes types names.length)) := by
  by_cases none : rows = []
  · simp [none,filled,Dataset.ofTypes]
  · rw [filled_some none]

theorem filled_fieldtypes (counted : typeCount types ≠ 0) : (filled names types rows).fieldtypes = types := by
  unfold filled
  split_ifs
  · rfl
  · rw [fieldtypes,if_neg counted]

/-- Without names everything under the same types is taken, and no names come with it. -/
theorem mergeAll_unnamed (counted : typeCount types ≠ 0) :
    mergeAll (parts.map (filled names types)) {filled names types rows with names := []} =
      .ok () {filled names types (rows ++ parts.flatten) with names := []} := by
  induction parts generalizing rows with
  | nil => simp [mergeAll]
  | cons later parts ih =>
    have mergeable : Mergeable {filled names types rows with names := []} (filled names types later) := by
      refine ⟨.inr (.inl rfl),?_⟩
      rw [filled_fieldtypes counted]
      simpa only [filled_fieldtypes counted] using takes_same types
    have longer : {filled names types rows with names := [],rows :=
        (filled names types rows).rows ++ (filled names types later).rows} =
        {filled names types (rows ++ later) with names := []} := by
      simp only [filled_rows,filled_fieldtypes counted,List.map_append]
    rw [List.map_cons,mergeAll_ok (merge_mergeable mergeable),longer,ih,List.flatten_cons,List.append_assoc]

theorem mergeAll_instead (columns : names ≠ []) (small : names.length < 2^31)
    (differs : mergeAll (parts.map (filled names types)) (filled names types rows) ≠
      .ok () (filled names types (rows ++ parts.flatten))) :
    if typeCount types = 0 then
      ∃ left, mergeAll (parts.map (filled names types)) (filled names types rows) = .error (errTypeMisMatch "") left
    else mergeAll (parts.map (filled names types)) (filled names types rows) =
      .ok () {filled names types (rows ++ parts.flatten) with names := []} := by
  split_ifs with zero
  · refine mergeAll_uncounted columns small zero ?_
    by_contra same
    have alike : ∀ part ∈ parts, (rows = [] ↔ part = []) := fun part member =>
      by_contra fun other => same ⟨part,member,other⟩
    by_cases none : rows = []
    · subst none
      exact differs ((mergeAll_empty_iff columns).mpr fun part member => (alike part member).mp rfl)
    · refine differs ((mergeAll_filled_iff columns small none).mpr fun empty => ?_)
      exact absurd ((alike [] empty).mpr rfl) none
  · have none : rows = [] := by
      by_contra some
      exact differs ((mergeAll_filled_iff columns small some).mpr fun _ => zero)
    subst none
    exact @mergeAll_unnamed _ names [] parts zero

end filled

section queries
variable {queries : List Query} {others : List Dataset} {names : List String}

theorem selected_filled (columns : names ≠ []) (same : ∀ q ∈ queries, q.names = names)
    (each : List.Forall₂ (fun q other => ∃ p, selectAll p q types = .ok other) queries others) :
    others = (queries.map result).map (filled names types) := by
  induction each with
  | nil => rfl
  | @cons q other _ _ selected _ ih =>
    obtain ⟨here,later⟩ := List.forall_mem_cons.mp same
    obtain ⟨p,returned⟩ := selected
    rw [selectAll_filled (here ▸ columns) returned,ih later,here]
    rfl

theorem selected_fits (columns : names ≠ []) (same : ∀ q ∈ queries, q.names = names)
    (each : List.Forall₂ (fun q other => ∃ p, selectAll p q types = .ok other) queries others) :
    ∀ q ∈ queries, ∀ cells ∈ result q, List.Forall₂ Accepts (fieldtypes types names.length) cells := by
  induction each with
  | nil => exact List.forall_mem_nil _
  | @cons q other _ _ selected _ ih =>
    obtain ⟨here,later⟩ := List.forall_mem_cons.mp same
    obtain ⟨p,returned⟩ := selected
    refine List.forall_mem_cons.mpr ⟨?_,ih later⟩
    rw [← here]
    exact (selectAll_rows (here ▸ columns) returned).2.1

/-- The queries are selected one by one under the same types and merged in order: exactly under the condition that
comes to what one select of their `UNION ALL` returns. Otherwise a merge is refused, if no column is given a type, or
all the rows are there without the names. -/
theorem merges_to_union_iff {first : Query} (columns : both.names ≠ []) (unites : Unites (first::queries) both)
    (each : List.Forall₂ (fun q other => ∃ p, selectAll p q types = .ok other) (first::queries) (ds::others))
    (p : Platform) : ∃ all, selectAll p both types = .ok all ∧
      (mergeAll others ds = .ok () all ↔ (result first = [] → ∀ q ∈ queries, result q = []) ∧
        (result first ≠ [] → (∃ q ∈ queries, result q = []) → typeCount types ≠ 0)) ∧
      (mergeAll others ds ≠ .ok () all →
        if typeCount types = 0 then ∃ left, mergeAll others ds = .error (errTypeMisMatch "") left
        else mergeAll others ds = .ok () {all with names := []}) := by
  have fits : ∀ cells ∈ result both, List.Forall₂ Accepts (fieldtypes types both.names.length) cells := by
    intro cells member
    rw [unites.rows] at member
    obtain ⟨q,part,there⟩ := List.mem_flatMap.mp member
    exact selected_fits columns unites.names each q part cells there
  obtain ⟨all,returned⟩ := (@selectAll_ok_iff both p types columns unites.ended).mpr fits
  refine ⟨all,returned,?_⟩
  obtain ⟨rfl,rfl⟩ := List.cons.inj (selected_filled columns unites.names each)
  rw [selectAll_filled columns returned,unites.rows,List.flatMap_cons,List.flatMap_def]
  refine ⟨?_,mergeAll_instead columns both.countable⟩
  by_cases none : result first = []
  · rw [none,List.nil_append,mergeAll_empty_iff columns]
    simp
  · rw [mergeAll_filled_iff columns both.countable none]
    simp [none]

end queries

def single (n : Int64) : Row ["a"].length := ⟨[.integer n],List.length_singleton⟩

def four : Query := .table ["a"] single_countable [single 1,single 2,single 3,single 4]

theorem four_unites : Unites [pair 1 2,pair 3 4] four := by
  refine ⟨?_,rfl,rfl⟩
  intro q member
  rcases List.mem_pair.mp member with rfl | rfl <;> rfl

theorem merges_to_union_four : ∃ ds next all, selectAll .usual (pair 1 2) [] = .ok ds ∧
    selectAll .usual (pair 3 4) [] = .ok next ∧ selectAll .usual four [] = .ok all ∧ mergeAll [next] ds = .ok () all := by
  obtain ⟨ds,one⟩ := pair_selected 1 2
  obtain ⟨next,two⟩ := pair_selected 3 4
  have some (first second : Int64) : result (pair first second) ≠ [] := List.cons_ne_nil _ _
  obtain ⟨all,whole,merges,_⟩ := merges_to_union_iff (List.cons_ne_nil _ _) four_unites
    (.cons ⟨.usual,one⟩ (.cons ⟨.usual,two⟩ .nil)) .usual
  refine ⟨ds,next,all,one,two,whole,merges.mpr ⟨fun none => absurd none (some 1 2),?_⟩⟩
  rintro _ ⟨q,member,none⟩
  cases List.mem_singleton.mp member
  exact absurd none (some 3 4)

end Sl3.UnionAll
