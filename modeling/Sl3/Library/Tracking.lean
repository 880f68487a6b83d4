import Mathlib.Data.List.Basic

/-! Routines that change a state and may throw, against what they come to on an abstract state:
a result, and the abstract state that the one left behind is related to. -/
namespace Sl3.Library.Tracking
variable {ε σ τ α β ι : Type} {R : σ → τ → Prop} {x : EStateM ε σ α} {t u v : τ}

def returning (result : Except ε α) (s : σ) : EStateM.Result ε σ α :=
  match result with
  | .ok a => .ok a s
  | .error e => .error e s

def resultOf : EStateM.Result ε σ α → Except ε α
  | .ok a _ => .ok a
  | .error e _ => .error e

def stateAfter : EStateM.Result ε σ α → σ
  | .ok _ s => s
  | .error _ s => s

def Tracks (R : σ → τ → Prop) (x : EStateM ε σ α) (t : τ) (result : Except ε α) (u : τ) : Prop :=
  ∀ s, R s t → ∃ s', x s = returning result s' ∧ R s' u

theorem tracks_pure (a : α) : Tracks R (pure a : EStateM ε σ α) t (.ok a) t := fun s related => ⟨s,rfl,related⟩

theorem tracks_throw (e : ε) : Tracks R (throw e : EStateM ε σ α) t (.error e) t := fun s related => ⟨s,rfl,related⟩

theorem Tracks.bind {a : α} {f : α → EStateM ε σ β} {result : Except ε β} (first : Tracks R x t (.ok a) u)
    (rest : Tracks R (f a) u result v) : Tracks R (x >>= f) t result v := by
  intro s related
  obtain ⟨s',ran,related'⟩ := first s related
  obtain ⟨s'',ran',related''⟩ := rest s' related'
  refine ⟨s'',?_,related''⟩
  simp only [Bind.bind,EStateM.bind,ran,returning]
  exact ran'

theorem Tracks.stop {e : ε} (first : Tracks R x t (.error e) u) (f : α → EStateM ε σ β) :
    Tracks R (x >>= f) t (.error e) u := by
  intro s related
  obtain ⟨s',ran,related'⟩ := first s related
  refine ⟨s',?_,related'⟩
  simp only [Bind.bind,EStateM.bind,ran,returning]

theorem Tracks.map {result : Except ε α} (tracked : Tracks R x t result u) (f : α → β) :
    Tracks R (f <$> x) t (result.map f) u := by
  intro s related
  obtain ⟨s',ran,related'⟩ := tracked s related
  refine ⟨s',?_,related'⟩
  simp only [Functor.map,EStateM.map,ran]
  cases result <;> rfl

theorem Tracks.result {s : σ} {result : Except ε α} (tracked : Tracks R x t result u) (related : R s t) :
    resultOf (x s) = result := by
  obtain ⟨s',ran,_⟩ := tracked s related
  rw [ran]
  cases result <;> rfl

theorem Tracks.after {s : σ} {result : Except ε α} (tracked : Tracks R x t result u) (related : R s t) :
    R (stateAfter (x s)) u := by
  obtain ⟨s',ran,related'⟩ := tracked s related
  rw [ran]
  cases result <;> exact related'

theorem mapM_mapError {φ : Type*} (throws : ε → φ) (read : ι → Except ε α) (is : List ι) :
    is.mapM (fun i => (read i).mapError throws) = (is.mapM read).mapError throws := by
  induction is with
  | nil => rfl
  | cons i is ih =>
    rw [List.mapM_cons,List.mapM_cons,ih]
    cases read i with
    | error e => rfl
    | ok a => cases is.mapM read <;> rfl

/-- A loop whose rounds leave the abstract state alone comes to what its rounds come to. -/
theorem tracks_mapM {read : ι → EStateM ε σ α} {result : ι → Except ε α} {is : List ι}
    (each : ∀ i ∈ is, Tracks R (read i) t (result i) t) : Tracks R (is.mapM read) t (is.mapM result) t := by
  induction is with
  | nil => exact tracks_pure []
  | cons i is ih =>
    obtain ⟨first,later⟩ := List.forall_mem_cons.mp each
    have rest := ih later
    rw [List.mapM_cons,List.mapM_cons]
    cases here : result i with
    | error e =>
      rw [here] at first
      exact first.stop _
    | ok a =>
      rw [here] at first
      apply first.bind
      cases tail : is.mapM result with
      | error e =>
        rw [tail] at rest
        exact rest.stop _
      | ok as =>
        rw [tail] at rest
        exact rest.bind (tracks_pure _)

end Sl3.Library.Tracking
