import Mathlib.Logic.Function.Basic

/-! Partial maps as functions to an option, changed at one place. -/
namespace Sl3.Library.PartialMap
variable {α β : Type*} [DecidableEq α] {f : α → Option β} {a i : α} {b : β}

theorem update_eq_some {v : Option β} :
    Function.update f a v i = some b ↔ (i = a ∧ v = some b) ∨ (i ≠ a ∧ f i = some b) := by
  by_cases same : i = a
  · simp [same]
  · simp [same]

theorem erase_eq_some : Function.update f a none i = some b ↔ i ≠ a ∧ f i = some b := by
  simp [update_eq_some]

theorem update_eq_none {v : β} : Function.update f a (some v) i = none ↔ i ≠ a ∧ f i = none := by
  by_cases same : i = a
  · simp [same]
  · simp [same]

def writeAll (f : α → Option β) (writes : List (α × Option β)) : α → Option β :=
  writes.foldl (fun f write => Function.update f write.1 write.2) f

/-- A place keeps what it has when every write to it writes just that. -/
theorem writeAll_kept {writes : List (α × Option β)} (same : ∀ write ∈ writes, write.1 = i → write.2 = f i) :
    writeAll f writes i = f i := by
  induction writes generalizing f with
  | nil => rfl
  | cons write writes ih =>
    have first : Function.update f write.1 write.2 i = f i := by
      by_cases here : i = write.1
      · rw [here,Function.update_self]
        exact (same write (by simp) here.symm).trans (congrArg f here)
      · exact Function.update_of_ne here _ _
    rw [writeAll,List.foldl_cons]
    refine (ih fun other member place => ?_).trans first
    rw [first]
    exact same other (by simp [member]) place

end Sl3.Library.PartialMap
