import Mathlib.Data.List.Zip

/-! Copy assignment of vectors whose elements have an assignment of their own: it
runs on the elements already there when the storage is large enough, and may throw. -/
namespace Sl3.Library.VectorAssign
variable {ε α : Type}

/-- Assigns onto existing elements in order, stops at the first exception, copies
what has no element yet and destroys what has no source. -/
def copyOnto (assign : α → EStateM ε α Unit) : List α → EStateM ε (List α) Unit
  | [],_ => .ok () []
  | source::sources,[] => .ok () (source::sources)
  | source::sources,target::targets =>
    match assign source target with
    | .error e changed => .error e (changed::targets)
    | .ok _ changed =>
      match copyOnto assign sources targets with
      | .error e rest => .error e (changed::rest)
      | .ok _ rest => .ok () (changed::rest)

def copyAssign (capacity : Nat) (assign : α → EStateM ε α Unit) (sources : List α) :
    EStateM ε (List α) Unit := fun targets =>
  if capacity < sources.length then .ok () sources else copyOnto assign sources targets

/-- The result is the source exactly when every assignment onto an existing element
leaves the very element of the source. -/
theorem copyOnto_exact_iff (assign : α → EStateM ε α Unit) (sources targets : List α) :
    copyOnto assign sources targets = .ok () sources ↔
      ∀ pair ∈ targets.zip sources, assign pair.2 pair.1 = .ok () pair.2 := by
  induction sources generalizing targets with
  | nil => simp [copyOnto]
  | cons source sources ih =>
    cases targets with
    | nil => simp [copyOnto]
    | cons target targets =>
      rw [List.zip_cons_cons,List.forall_mem_cons,← ih targets]
      cases head : assign source target with
      | error e changed => simp [copyOnto,head]
      | ok result changed =>
        cases tail : copyOnto assign sources targets with
        | error e rest => simp [copyOnto,head,tail]
        | ok done rest => simp [copyOnto,head,tail]

theorem copyAssign_exact_iff (capacity : Nat) (assign : α → EStateM ε α Unit)
    (sources targets : List α) :
    copyAssign capacity assign sources targets = .ok () sources ↔ capacity < sources.length ∨
      ∀ pair ∈ targets.zip sources, assign pair.2 pair.1 = .ok () pair.2 := by
  unfold copyAssign
  split_ifs with fresh
  · simp [fresh]
  · simp [fresh,copyOnto_exact_iff]

section ran
variable {assign : α → EStateM ε α Unit} {sources targets elements : List α}

/-- Where it returns, each element has been assigned to or has come new from the source. -/
theorem copyOnto_ok (ran : copyOnto assign sources targets = .ok () elements) (P : α → Prop) :
    (∀ element ∈ elements, P element) ↔
      (∀ pair ∈ targets.zip sources, ∃ changed, assign pair.2 pair.1 = .ok () changed ∧ P changed) ∧
        ∀ source ∈ sources.drop targets.length, P source := by
  induction sources generalizing targets elements with
  | nil =>
    cases ran
    simp
  | cons source sources ih =>
    cases targets with
    | nil =>
      cases ran
      simp
    | cons target targets =>
      rw [copyOnto] at ran
      cases head : assign source target with
      | error e changed =>
        rw [head] at ran
        cases ran
      | ok done changed =>
        cases tail : copyOnto assign sources targets with
        | error e rest =>
          rw [head,tail] at ran
          cases ran
        | ok done rest =>
          rw [head,tail] at ran
          cases ran
          rw [List.zip_cons_cons,List.forall_mem_cons,List.forall_mem_cons,ih tail,and_assoc]
          simp [head]

/-- Where it throws, each element is as an assignment has left it, or as it was. -/
theorem copyOnto_error {R : α → α → Prop} {e : ε} (ran : copyOnto assign sources targets = .error e elements)
    (untouched : ∀ target ∈ targets, R target target)
    (assigned : ∀ pair ∈ targets.zip sources, ∀ changed, assign pair.2 pair.1 = .ok () changed → R pair.1 changed)
    (refused : ∀ pair ∈ targets.zip sources, ∀ e changed, assign pair.2 pair.1 = .error e changed → R pair.1 changed) :
    List.Forall₂ R targets elements := by
  induction sources generalizing targets elements with
  | nil => cases ran
  | cons source sources ih =>
    cases targets with
    | nil => cases ran
    | cons target targets =>
      obtain ⟨_,later⟩ := List.forall_mem_cons.mp untouched
      rw [List.zip_cons_cons,List.forall_mem_cons] at assigned refused
      rw [copyOnto] at ran
      cases head : assign source target with
      | error e changed =>
        rw [head] at ran
        cases ran
        exact .cons (refused.1 e changed head) (List.forall₂_same.mpr later)
      | ok done changed =>
        cases tail : copyOnto assign sources targets with
        | error e rest =>
          rw [head,tail] at ran
          cases ran
          exact .cons (assigned.1 changed head) (ih tail later assigned.2 refused.2)
        | ok done rest =>
          rw [head,tail] at ran
          cases ran

theorem forall_of_related {R : α → α → Prop} {P : α → Prop} (related : List.Forall₂ R targets elements)
    (each : ∀ target ∈ targets, ∀ element, R target element → P element) : ∀ element ∈ elements, P element := by
  induction related with
  | nil =>
    intro element member
    cases member
  | cons first _ ih =>
    rw [List.forall_mem_cons] at each ⊢
    exact ⟨each.1 _ first,ih each.2⟩

end ran

end Sl3.Library.VectorAssign
