import Mathlib.Data.List.Forall2

/-! `List.mapM` with errors: it converts every element, or stops at one that cannot be. -/
namespace Sl3.Library.Traverse
variable {α β E : Type} {f : α → Except E β} {l : List α}

theorem mapM_ok {convert : α → β} (converts : ∀ a ∈ l, f a = .ok (convert a)) :
    l.mapM f = .ok (l.map convert) := by
  induction l with
  | nil => rfl
  | cons a l ih =>
    have head : f a = .ok (convert a) := converts a (by simp)
    have tail := ih fun b member => converts b (by simp [member])
    simp [List.mapM_cons,head,tail,bind,Except.bind,pure,Except.pure]

theorem mapM_error {bad : α} {e : E} (member : bad ∈ l) (rejects : f bad = .error e) :
    ∃ a ∈ l, ∃ e, f a = .error e ∧ l.mapM f = .error e := by
  induction l with
  | nil => simp at member
  | cons a l ih =>
    cases head : f a with
    | error e => exact ⟨a,by simp,e,head,by simp [List.mapM_cons,head,bind,Except.bind]⟩
    | ok b =>
      have later : bad ∈ l := by
        rcases List.mem_cons.mp member with rfl | later
        · simp [head] at rejects
        · exact later
      obtain ⟨stop,inside,e,stopped,tail⟩ := ih later
      exact ⟨stop,by simp [inside],e,stopped,by simp [List.mapM_cons,head,tail,bind,Except.bind]⟩

end Sl3.Library.Traverse
