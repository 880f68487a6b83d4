import Mathlib.Data.List.Nodup
import Sl3.Library.PartialMap

/-! Numbers issued from one counter, each of them held at one place or returned once. -/
namespace Sl3.Library
variable {P : Type*} {held : P → Option Nat} {issued : Nat} {returned : List Nat}

structure Ownership (held : P → Option Nat) (issued : Nat) (returned : List Nat) : Prop where
  bounded : ∀ place n, held place = some n → n < issued ∧ n ∉ returned
  unique : ∀ place other n, held place = some n → held other = some n → place = other
  once : returned.Nodup
  accounted : ∀ n, n < issued ↔ n ∈ returned ∨ ∃ place, held place = some n

namespace Ownership
open PartialMap

theorem none : Ownership (fun _ : P => Option.none) 0 [] where
  bounded := by simp
  unique := by simp
  once := List.nodup_nil
  accounted := by simp

section update
variable [DecidableEq P] {place : P} {n : Nat}

theorem acquire (own : Ownership held issued returned) (free : held place = Option.none) :
    Ownership (Function.update held place (some issued)) (issued + 1) returned where
  bounded := by
    intro other n there
    rcases update_eq_some.mp there with ⟨_,same⟩ | ⟨_,before⟩
    · cases same
      refine ⟨Nat.lt_succ_self _,?_⟩
      intro back
      exact Nat.lt_irrefl _ ((own.accounted _).mpr (.inl back))
    · obtain ⟨small,kept⟩ := own.bounded other n before
      exact ⟨Nat.lt_succ_of_lt small,kept⟩
  unique := by
    intro left right n here there
    rcases update_eq_some.mp here with ⟨rfl,same⟩ | ⟨_,before⟩ <;>
      rcases update_eq_some.mp there with ⟨rfl,same'⟩ | ⟨_,before'⟩
    · rfl
    · cases same
      exact absurd (own.bounded right _ before').1 (Nat.lt_irrefl _)
    · cases same'
      exact absurd (own.bounded left _ before).1 (Nat.lt_irrefl _)
    · exact own.unique left right n before before'
  once := own.once
  accounted := by
    intro n
    rw [Nat.lt_succ_iff_lt_or_eq,own.accounted,or_assoc]
    apply or_congr_right
    constructor
    · rintro (⟨other,before⟩ | rfl)
      · have differ : other ≠ place := by
          rintro rfl
          simp [free] at before
        exact ⟨other,update_eq_some.mpr (.inr ⟨differ,before⟩)⟩
      · exact ⟨place,Function.update_self _ _ _⟩
    · rintro ⟨other,there⟩
      rcases update_eq_some.mp there with ⟨_,same⟩ | ⟨_,before⟩
      · exact .inr (Option.some.inj same).symm
      · exact .inl ⟨other,before⟩

theorem release (own : Ownership held issued returned) (holds : held place = some n) :
    Ownership (Function.update held place Option.none) issued (returned ++ [n]) where
  bounded := by
    intro other m there
    obtain ⟨differ,before⟩ := erase_eq_some.mp there
    obtain ⟨small,kept⟩ := own.bounded other m before
    refine ⟨small,?_⟩
    intro back
    rcases List.mem_append.mp back with old | last
    · exact kept old
    · rw [List.mem_singleton] at last
      exact differ (own.unique other place n (last ▸ before) holds)
  unique := by
    intro left right m here there
    exact own.unique left right m (erase_eq_some.mp here).2 (erase_eq_some.mp there).2
  once := by
    rw [← List.concat_eq_append]
    exact own.once.concat (own.bounded place n holds).2
  accounted := by
    intro m
    rw [own.accounted,List.mem_append,List.mem_singleton,or_assoc]
    apply or_congr_right
    constructor
    · rintro ⟨other,before⟩
      by_cases same : other = place
      · subst same
        exact .inl (Option.some.inj (before.symm.trans holds))
      · exact .inr ⟨other,erase_eq_some.mpr ⟨same,before⟩⟩
    · rintro (rfl | ⟨other,there⟩)
      · exact ⟨place,holds⟩
      · exact ⟨other,(erase_eq_some.mp there).2⟩

end update

/-- What was issued is returned once, unless it is still held. -/
theorem count_returned (own : Ownership held issued returned) {n : Nat} (old : n < issued) :
    (returned.count n = 1 ∧ ∀ place, held place ≠ some n) ∨
      (returned.count n = 0 ∧ ∃ place, held place = some n) := by
  rcases (own.accounted n).mp old with back | ⟨place,holds⟩
  · refine .inl ⟨List.count_eq_one_of_mem own.once back,?_⟩
    intro place holds
    exact (own.bounded place n holds).2 back
  · exact .inr ⟨List.count_eq_zero.mpr (own.bounded place n holds).2,place,holds⟩

end Ownership
end Sl3.Library
