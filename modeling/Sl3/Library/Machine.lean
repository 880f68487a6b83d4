import Mathlib.Data.List.Induction

/-! Machines that take labelled steps, some of them enabled: the states reached by steps
that all meet a condition, and what holds in all of them. -/
namespace Sl3.Library.Machine
variable {S L : Type*} {step : S → L → Option S} {meets : S → L → Prop} {s t : S}

/-- What runs reach whose every step meets a condition on its label and the state before. -/
inductive Reaches (step : S → L → Option S) (meets : S → L → Prop) (s : S) : S → Prop
  | start : Reaches step meets s s
  | next {t u : S} (reached : Reaches step meets s t) (label : L) (met : meets t label)
      (stepped : step t label = some u) : Reaches step meets s u

theorem Reaches.invariant {Inv : S → Prop} (init : Inv s)
    (keeps : ∀ {t u label}, Inv t → meets t label → step t label = some u → Inv u)
    (run : Reaches step meets s t) : Inv t := by
  induction run with
  | start => exact init
  | next _ label met stepped ih => exact keeps ih met stepped

theorem Reaches.trans {u : S} (first : Reaches step meets s t) (second : Reaches step meets t u) :
    Reaches step meets s u := by
  induction second with
  | start => exact first
  | next _ label met stepped ih => exact ih.next label met stepped

def runAll (step : S → L → Option S) (s : S) (labels : List L) : Option S := labels.foldlM step s

theorem runAll_reaches {labels : List L} (ran : runAll step s labels = some t) :
    Reaches step (fun _ _ => True) s t := by
  induction labels generalizing s with
  | nil =>
    cases ran
    exact .start
  | cons label labels ih =>
    rw [runAll,List.foldlM_cons] at ran
    obtain ⟨u,stepped,rest⟩ := Option.bind_eq_some_iff.mp ran
    exact (Reaches.start.next label trivial stepped).trans (ih rest)

/-- What holds of a state and of the labels that led to it. -/
theorem runAll_traced {Inv : List L → S → Prop} (init : Inv [] s)
    (keeps : ∀ {labels t label u}, Inv labels t → step t label = some u → Inv (labels ++ [label]) u) {labels : List L}
    (ran : runAll step s labels = some t) : Inv labels t := by
  induction labels using List.reverseRecOn generalizing t with
  | nil =>
    cases ran
    exact init
  | append_singleton labels label ih =>
    rw [runAll,List.foldlM_append] at ran
    obtain ⟨u,before,last⟩ := Option.bind_eq_some_iff.mp ran
    rw [List.foldlM_cons] at last
    obtain ⟨v,stepped,same⟩ := Option.bind_eq_some_iff.mp last
    cases same
    exact keeps (ih before) stepped

/-- A machine that can follow every step of another one can follow its runs. -/
theorem runAll_simulates {T : Type*} {follow : T → L → Option T} {related : S → T → Prop}
    (simulates : ∀ {s t label s'}, related s t → step s label = some s' →
      ∃ t', follow t label = some t' ∧ related s' t') {labels : List L} {t : T} {s' : S} (start : related s t)
    (ran : runAll step s labels = some s') : ∃ t', runAll follow t labels = some t' ∧ related s' t' := by
  induction labels generalizing s t with
  | nil =>
    cases ran
    exact ⟨t,rfl,start⟩
  | cons label labels ih =>
    rw [runAll,List.foldlM_cons] at ran
    obtain ⟨u,stepped,rest⟩ := Option.bind_eq_some_iff.mp ran
    obtain ⟨v,followed,next⟩ := simulates start stepped
    obtain ⟨last,followed',final⟩ := ih next rest
    refine ⟨last,?_,final⟩
    rw [runAll,List.foldlM_cons,followed]
    exact followed'

end Sl3.Library.Machine
