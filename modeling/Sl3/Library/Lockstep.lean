import Mathlib.Logic.Basic

/-! Two runs of stateful code from states that differ: rules for that they return the same or
throw the same, and for how the states they leave compare. -/
namespace Sl3.Library.Lockstep
variable {ε σ τ α β : Type} {thrown returned : σ → τ → Prop}

/-- Both return the same value or both throw the same error. -/
def Agree (thrown returned : σ → τ → Prop) : EStateM.Result ε σ α → EStateM.Result ε τ α → Prop
  | .ok a s,.ok b t => a = b ∧ returned s t
  | .error e s,.error f t => e = f ∧ thrown s t
  | _,_ => False

theorem Agree.split {left : EStateM.Result ε σ α} {right : EStateM.Result ε τ α}
    (agree : Agree thrown returned left right) :
    (∃ a s t, left = .ok a s ∧ right = .ok a t ∧ returned s t) ∨
      ∃ e s t, left = .error e s ∧ right = .error e t ∧ thrown s t := by
  cases left with
  | ok a s =>
    cases right with
    | ok b t =>
      obtain ⟨rfl,related⟩ := agree
      exact .inl ⟨a,s,t,rfl,rfl,related⟩
    | error f t => cases agree
  | error e s =>
    cases right with
    | ok b t => cases agree
    | error f t =>
      obtain ⟨rfl,related⟩ := agree
      exact .inr ⟨e,s,t,rfl,rfl,related⟩

theorem Agree.mono {throwing returning : σ → τ → Prop} {left : EStateM.Result ε σ α} {right : EStateM.Result ε τ α}
    (agree : Agree thrown returned left right) (onThrow : ∀ s t, thrown s t → throwing s t)
    (onReturn : ∀ s t, returned s t → returning s t) : Agree throwing returning left right := by
  rcases agree.split with ⟨a,s,t,rfl,rfl,related⟩ | ⟨e,s,t,rfl,rfl,related⟩
  · exact ⟨rfl,onReturn s t related⟩
  · exact ⟨rfl,onThrow s t related⟩

section bind
variable {first : EStateM ε σ α} {next : α → EStateM ε σ β} {s left : σ}

theorem bind_ok {a : α} (ran : first s = .ok a left) : (first >>= next) s = next a left := by
  simp only [Bind.bind,EStateM.bind,ran]

theorem bind_error {e : ε} (threw : first s = .error e left) : (first >>= next) s = .error e left := by
  simp only [Bind.bind,EStateM.bind,threw]

/-- What follows the first part runs only after both have returned, with the same value. -/
theorem Agree.bind {between : σ → τ → Prop} {second : EStateM ε τ α} {other : α → EStateM ε τ β} {t : τ}
    (before : Agree thrown between (first s) (second t))
    (after : ∀ a s t, between s t → Agree thrown returned (next a s) (other a t)) :
    Agree thrown returned ((first >>= next) s) ((second >>= other) t) := by
  rcases before.split with ⟨a,s',t',one,two,related⟩ | ⟨e,s',t',one,two,related⟩
  · rw [bind_ok one,bind_ok two]
    exact after a s' t' related
  · rw [bind_error one,bind_error two]
    exact ⟨rfl,related⟩

end bind
end Sl3.Library.Lockstep
