import Sl3.Library.Machine

/-! What one part of a machine sees of its runs: the labels that concern it, and another machine
that follows them. -/
namespace Sl3.Library.Machine
variable {S T L M : Type*} {step : S → L → Option S} {meets : S → L → Prop} {s t u : S} {labels : List L}

/-- Runs with their labels, each of which meets a condition where it is taken. -/
inductive Runs (step : S → L → Option S) (meets : S → L → Prop) : S → List L → S → Prop
  | nil (s : S) : Runs step meets s [] s
  | cons {s t u : S} {label : L} {labels : List L} (met : meets s label) (stepped : step s label = some t)
      (rest : Runs step meets t labels u) : Runs step meets s (label::labels) u

theorem Runs.append {others : List L} (first : Runs step meets s labels t) (second : Runs step meets t others u) :
    Runs step meets s (labels ++ others) u := by
  induction first with
  | nil => exact second
  | cons met stepped _ ih => exact .cons met stepped (ih second)

theorem Runs.reaches (run : Runs step meets s labels t) : Reaches step meets s t := by
  induction run with
  | nil => exact .start
  | cons met stepped _ ih => exact (Reaches.start.next _ met stepped).trans ih

/-- The events that a part of the machine sees of a run. -/
def observed (step : S → L → Option S) (event : S → L → Option M) : S → List L → List M
  | _,[] => []
  | s,label::labels =>
    match step s label with
    | some t => (event s label).toList ++ observed step event t labels
    | none => []

/-- A machine that follows every step by the event of it follows runs by what is observed of them. -/
theorem Runs.projects {follow : T → M → Option T} {allows : T → M → Prop} {event : S → L → Option M}
    {I : S → Prop} {R : S → T → Prop} (keeps : ∀ {s label t}, I s → meets s label → step s label = some t → I t)
    (follows : ∀ {s label t x}, I s → meets s label → step s label = some t → R s x →
      ∃ y, Runs follow allows x (event s label).toList y ∧ R t y)
    {x : T} (inv : I s) (start : R s x) (run : Runs step meets s labels t) :
    ∃ y, Runs follow allows x (observed step event s labels) y ∧ R t y := by
  induction run generalizing x with
  | nil s => exact ⟨x,.nil x,start⟩
  | cons met stepped _ ih =>
    obtain ⟨y,first,next⟩ := follows inv met stepped start
    obtain ⟨z,rest,last⟩ := ih (keeps inv met stepped) next
    refine ⟨z,?_,last⟩
    simp only [observed,stepped]
    exact first.append rest

end Sl3.Library.Machine
