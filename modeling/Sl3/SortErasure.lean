import Sl3.DatasetRuns
import Sl3.Library.Lockstep
import Sl3.Library.Projection

/-! Runs of Datasets next to the same runs without their sorts. The sorts are those that return: one that throws may
leave other rows. -/
namespace Sl3.SortErasure
open Library Library.Machine DatasetRuns
open Lockstep (Agree)
variable {selfInsert : List DbValues → List DbValues} {datasets others after : Datasets} {ds ds' other other' : Dataset} {c : Call}

/-- The same Dataset up to the order of its rows. -/
structure Reordered (ds ds' : Dataset) : Prop where
  fieldtypes : ds.fieldtypes = ds'.fieldtypes
  names : ds.names = ds'.names
  rows : ds.rows.Perm ds'.rows

def AllReordered (datasets others : Datasets) : Prop := List.Forall₂ Reordered datasets others

def outcome (selfInsert : List DbValues → List DbValues) (datasets : Datasets) (c : Call) : Option Thrown :=
  match call selfInsert datasets c with
  | some (.error e _) => some e
  | _ => none

/-- What is seen of a call that is no sort: the call, and what it throws. -/
def event (selfInsert : List DbValues → List DbValues) (datasets : Datasets) : Call → Option (Call × Option Thrown)
  | .sort _ _ => none
  | c => some (c,outcome selfInsert datasets c)

def follow (selfInsert : List DbValues → List DbValues) (datasets : Datasets) (seen : Call × Option Thrown) : Option Datasets :=
  step selfInsert datasets seen.1

def Reports (selfInsert : List DbValues → List DbValues) (datasets : Datasets) (seen : Call × Option Thrown) : Prop :=
  outcome selfInsert datasets seen.1 = seen.2

section reordered

theorem Reordered.refl (ds : Dataset) : Reordered ds ds := ⟨rfl,rfl,.refl _⟩

theorem AllReordered.refl (datasets : Datasets) : AllReordered datasets datasets :=
  List.forall₂_same.mpr fun ds _ => .refl ds

theorem AllReordered.get {i : Nat} (related : AllReordered datasets others) (found : datasets[i]? = some ds) :
    ∃ ds', others[i]? = some ds' ∧ Reordered ds ds' := by
  unfold AllReordered at related
  induction related generalizing i with
  | nil => cases found
  | @cons first first' _ _ head _ ih =>
    cases i with
    | zero =>
      cases found
      exact ⟨first',rfl,head⟩
    | succ i => exact ih found

theorem AllReordered.set {i : Nat} (related : AllReordered datasets others) (new : Reordered ds ds') :
    AllReordered (datasets.set i ds) (others.set i ds') := by
  unfold AllReordered at related ⊢
  induction related generalizing i with
  | nil => exact .nil
  | cons head tail ih =>
    cases i with
    | zero => exact .cons new tail
    | succ i => exact .cons head ih

theorem AllReordered.append (related : AllReordered datasets others) (new : Reordered ds ds') :
    AllReordered (datasets ++ [ds]) (others ++ [ds']) :=
  List.rel_append related (.cons new .nil)

theorem merge_agrees (reordered : Reordered ds ds') (reordered' : Reordered other other') :
    Agree Reordered Reordered (Dataset.merge (ds.rows ++ other.rows) other ds)
      (Dataset.merge (ds'.rows ++ other'.rows) other' ds') := by
  obtain ⟨types,names,rows⟩ := reordered
  obtain ⟨types',names',rows'⟩ := reordered'
  unfold Dataset.merge
  rw [← types,← names,← types',← names']
  split_ifs
  · exact ⟨rfl,types,names,rows⟩
  · exact ⟨rfl,types,names,rows⟩
  · cases Dataset.checkTypes ds.fieldtypes other.fieldtypes with
    | error e => exact ⟨rfl,types,names,rows⟩
    | ok done => exact ⟨rfl,rfl,rfl,rows.append rows'⟩

theorem mergeRow_agrees (row : DbValues) (reordered : Reordered ds ds') :
    Agree Reordered Reordered (Dataset.mergeRow row ds) (Dataset.mergeRow row ds') := by
  obtain ⟨types,names,rows⟩ := reordered
  unfold Dataset.mergeRow
  rw [← types]
  split_ifs
  · exact ⟨rfl,types,names,rows⟩
  · cases Dataset.checkTypes ds.fieldtypes row.dbtypes with
    | error e => exact ⟨rfl,types,names,rows⟩
    | ok done => exact ⟨rfl,rfl,names,rows.append_right _⟩

theorem reset_agrees (reordered : Reordered ds ds') : Agree Reordered Reordered (Dataset.reset ds) (Dataset.reset ds') :=
  ⟨rfl,reordered.fieldtypes,rfl,.refl _⟩

theorem resetTypes_agrees (types : List ValueType) (ds ds' : Dataset) :
    Agree Reordered Reordered (Dataset.resetTypes types ds) (Dataset.resetTypes types ds') :=
  ⟨rfl,.refl _⟩

theorem on_agrees {target : Nat} {method method' : Method Dataset Unit} {result : EStateM.Result Thrown Datasets Unit}
    (related : AllReordered datasets others)
    (agrees : ∀ ds ds', datasets[target]? = some ds → others[target]? = some ds' → Reordered ds ds' →
      Agree Reordered Reordered (method ds) (method' ds'))
    (ran : on datasets target method = some result) :
    ∃ result', on others target method' = some result' ∧ Agree AllReordered AllReordered result result' := by
  unfold on at ran ⊢
  obtain ⟨ds,here,same⟩ := Option.map_eq_some_iff.mp ran
  obtain ⟨ds',there,reordered⟩ := related.get here
  rw [there,Option.map_some]
  refine ⟨_,rfl,?_⟩
  rw [← same]
  rcases (agrees ds ds' here there reordered).split with
    ⟨_,changed,changed',left,right,new⟩ | ⟨e,changed,changed',left,right,new⟩
  · rw [left,right]
    exact ⟨rfl,related.set new⟩
  · rw [left,right]
    exact ⟨rfl,related.set new⟩

/-- A call that is no sort does the same to Datasets whose rows are in another order. -/
theorem call_agrees {result : EStateM.Result Thrown Datasets Unit} (related : AllReordered datasets others)
    (apart : Apart c) (unsorted : ∀ target order, c ≠ .sort target order) (ran : call selfInsert datasets c = some result) :
    ∃ result', call selfInsert others c = some result' ∧ Agree AllReordered AllReordered result result' := by
  cases c with
  | ofTypes types =>
    cases ran
    exact ⟨_,rfl,rfl,related.append (.refl _)⟩
  | select p cmd parameters types =>
    simp only [call] at ran ⊢
    cases selected : Command.select p parameters types cmd with
    | ok ds left =>
      rw [selected] at ran
      cases ran
      exact ⟨_,rfl,rfl,related.append (.refl ds)⟩
    | error e left =>
      rw [selected] at ran
      cases ran
      exact ⟨_,rfl,rfl,related⟩
  | copyConstruct source =>
    obtain ⟨ds,there,rfl⟩ := Option.map_eq_some_iff.mp ran
    obtain ⟨ds',there',reordered⟩ := related.get there
    refine ⟨.ok () (others ++ [ds']),?_,rfl,related.append reordered⟩
    rw [call,there',Option.map_some]
  | moveConstruct source =>
    obtain ⟨ds,there,rfl⟩ := Option.map_eq_some_iff.mp ran
    obtain ⟨ds',there',reordered⟩ := related.get there
    refine ⟨.ok () (others.set source ds'.moveOut.2 ++ [ds'.moveOut.1]),?_,rfl,?_⟩
    · rw [call,there',Option.map_some]
    · exact (related.set (.refl ⟨[],[],[]⟩)).append reordered
  | merge target source =>
    obtain ⟨ds,here,rest⟩ := Option.bind_eq_some_iff.mp ran
    obtain ⟨other,there,merged⟩ := Option.bind_eq_some_iff.mp rest
    obtain ⟨ds',here',reordered⟩ := related.get here
    obtain ⟨other',there',reordered'⟩ := related.get there
    rw [if_neg apart] at merged
    obtain ⟨result',ran',agree⟩ := @on_agrees _ _ _ _ (Dataset.merge (ds'.rows ++ other'.rows) other') _ related
      (fun one one' found found' _ => by
        cases here.symm.trans found
        cases here'.symm.trans found'
        exact merge_agrees reordered reordered') merged
    refine ⟨result',?_,agree⟩
    simp only [call,here',there',Option.bind_eq_bind,Option.bind_some,if_neg apart,ran']
  | mergeRow target row => exact on_agrees related (fun _ _ _ _ reordered => mergeRow_agrees row.val reordered) ran
  | reset target => exact on_agrees related (fun _ _ _ _ reordered => reset_agrees reordered) ran
  | resetTypes target types => exact on_agrees related (fun ds ds' _ _ _ => resetTypes_agrees types ds ds') ran
  | sort target order => exact absurd rfl (unsorted target order)

theorem agree_reports {result result' : EStateM.Result Thrown Datasets Unit}
    (agree : Agree AllReordered AllReordered result result') (ran : call selfInsert datasets c = some result)
    (ran' : call selfInsert others c = some result') :
    outcome selfInsert others c = outcome selfInsert datasets c ∧ AllReordered (leftBy result) (leftBy result') := by
  unfold outcome
  rw [ran,ran']
  rcases agree.split with ⟨_,left,left',rfl,rfl,related⟩ | ⟨e,left,left',rfl,rfl,related⟩
  · exact ⟨rfl,related⟩
  · exact ⟨rfl,related⟩

end reordered

section runs

theorem event_unsorted (unsorted : ∀ target order, c ≠ .sort target order) :
    event selfInsert datasets c = some (c,outcome selfInsert datasets c) := by
  cases c with
  | sort target order => exact absurd rfl (unsorted target order)
  | _ => rfl

theorem sort_reordered {target : Nat} {order : List DbValues} (related : AllReordered datasets others)
    (stepped : step selfInsert datasets (.sort target order) = some after) : AllReordered after others := by
  obtain ⟨result,ran,rfl⟩ := Option.map_eq_some_iff.mp stepped
  obtain ⟨ds,here,sorted⟩ := Option.bind_eq_some_iff.mp ran
  obtain ⟨ds',there,types,names,rows⟩ := related.get here
  by_cases permuted : order.Perm ds.rows
  · rw [if_pos permuted] at sorted
    cases sorted
    have set := related.set (i := target) (⟨types,names,permuted.trans rows⟩ : Reordered {ds with rows := order} ds')
    obtain ⟨inside,value⟩ := List.getElem?_eq_some_iff.mp there
    rwa [← value,List.set_getElem_self] at set
  · rw [if_neg permuted] at sorted
    cases sorted

theorem step_follows (related : AllReordered datasets others) (apart : Apart c)
    (stepped : step selfInsert datasets c = some after) :
    ∃ others', Runs (follow selfInsert) (Reports selfInsert) others (event selfInsert datasets c).toList others' ∧
      AllReordered after others' := by
  by_cases sorted : ∃ target order, c = .sort target order
  · obtain ⟨target,order,rfl⟩ := sorted
    exact ⟨others,.nil others,sort_reordered related stepped⟩
  · have unsorted : ∀ target order, c ≠ .sort target order := fun target order same => sorted ⟨target,order,same⟩
    obtain ⟨result,ran,rfl⟩ := Option.map_eq_some_iff.mp stepped
    obtain ⟨result',ran',agree⟩ := call_agrees related apart unsorted ran
    obtain ⟨reports,kept⟩ := agree_reports agree ran ran'
    rw [event_unsorted unsorted]
    have followed : follow selfInsert others (c,outcome selfInsert datasets c) = some (leftBy result') := by
      rw [follow,step,ran',Option.map_some]
    exact ⟨leftBy result',.cons reports followed (.nil _),kept⟩

/-- Without its sorts a run that merges no Dataset into itself, and in which sorts return, reports the same of every
other call, and ends with the same Datasets up to the order of their rows. -/
theorem sorts_erased {labels : List Call} (run : Runs (step selfInsert) (fun _ c => Apart c) datasets labels after) :
    ∃ others, Runs (follow selfInsert) (Reports selfInsert) datasets
        (observed (step selfInsert) (event selfInsert) datasets labels) others ∧ AllReordered after others :=
  run.projects (I := fun _ => True) (fun _ _ _ => trivial)
    (fun _ apart stepped related => step_follows related apart stepped) trivial (AllReordered.refl datasets)

theorem ruled_zero : ∀ d ∈ [(⟨.int,.int 0⟩ : DbValue)], d.TypeRule := by decide

def zero : RuledRow := ⟨_,ruled_zero⟩

/-- A sort between two merges, the second of which is refused. -/
def sortedBetween : List Call :=
  [.ofTypes [.int],.mergeRow 0 one,.mergeRow 0 zero,.sort 0 [zero.val,one.val],.mergeRow 0 two]

theorem sorts_erased_between : ∃ others, Runs (follow growInsert) (Reports growInsert) []
    [(.ofTypes [.int],none),(.mergeRow 0 one,none),(.mergeRow 0 zero,none),
      (.mergeRow 0 two,some (.sl3 (errTypeMisMatch "")))] others ∧
    AllReordered [⟨[zero.val,one.val],[.int],[]⟩] others := by
  have sorted : step growInsert [⟨[one.val,zero.val],[.int],[]⟩] (.sort 0 [zero.val,one.val]) =
      some [⟨[zero.val,one.val],[.int],[]⟩] := rfl
  have run : Runs (step growInsert) (fun _ c => Apart c) [] sortedBetween [⟨[zero.val,one.val],[.int],[]⟩] :=
    .cons trivial rfl (.cons trivial rfl (.cons trivial rfl (.cons trivial sorted (.cons trivial rfl (.nil _)))))
  exact sorts_erased run

end runs

end Sl3.SortErasure
