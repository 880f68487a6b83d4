import Sl3.Library.StrictWeak

/-! Lexicographic orders: two comparators one after the other, and one comparator along a
list of keys. -/
namespace Sl3.Library.StrictWeak
variable {α ι ρ : Type*} {S : Set α} {R : Set ρ} {less second : α → α → Bool} {key : ι → ρ → α} {a b c : α}

theorem StrictWeakOn.less_tied (weak : StrictWeakOn S less) (ha : a ∈ S) (hb : b ∈ S) (hc : c ∈ S)
    (below : less a b = true) (tied : Tied less b c) : less a c = true := by
  by_contra notBelow
  have left : less a c = false := by simpa using notBelow
  by_cases back : less c a = true
  · have chain := weak.trans c hc a ha b hb back below
    simp [tied.2] at chain
  · have same := weak.tied_trans a ha c hc b hb ⟨left,by simpa using back⟩ ⟨tied.2,tied.1⟩
    simp [same.1] at below

theorem StrictWeakOn.tied_less (weak : StrictWeakOn S less) (ha : a ∈ S) (hb : b ∈ S) (hc : c ∈ S)
    (tied : Tied less a b) (below : less b c = true) : less a c = true := by
  by_contra notBelow
  have left : less a c = false := by simpa using notBelow
  by_cases back : less c a = true
  · have chain := weak.trans b hb c hc a ha below back
    simp [tied.2] at chain
  · have same := weak.tied_trans b hb a ha c hc ⟨tied.2,tied.1⟩ ⟨left,by simpa using back⟩
    simp [same.1] at below

theorem StrictWeakOn.comap (weak : StrictWeakOn S less) {f : ρ → α} (inside : ∀ a ∈ R, f a ∈ S) :
    StrictWeakOn R fun a b => less (f a) (f b) where
  irrefl a ha := weak.irrefl _ (inside a ha)
  asymm a ha b hb := weak.asymm _ (inside a ha) _ (inside b hb)
  trans a ha b hb c hc := weak.trans _ (inside a ha) _ (inside b hb) _ (inside c hc)
  tied_trans a ha b hb c hc := weak.tied_trans _ (inside a ha) _ (inside b hb) _ (inside c hc)

theorem StrictWeakOn.congr {other : α → α → Bool} (weak : StrictWeakOn S less)
    (same : ∀ a ∈ S, ∀ b ∈ S, other a b = less a b) : StrictWeakOn S other := by
  have tied (a : α) (ha : a ∈ S) (b : α) (hb : b ∈ S) : Tied other a b ↔ Tied less a b := by
    unfold Tied
    rw [same a ha b hb,same b hb a ha]
  constructor
  · intro a ha
    rw [same a ha a ha]
    exact weak.irrefl a ha
  · intro a ha b hb
    rw [same a ha b hb,same b hb a ha]
    exact weak.asymm a ha b hb
  · intro a ha b hb c hc
    rw [same a ha b hb,same b hb c hc,same a ha c hc]
    exact weak.trans a ha b hb c hc
  · intro a ha b hb c hc
    rw [tied a ha b hb,tied b hb c hc,tied a ha c hc]
    exact weak.tied_trans a ha b hb c hc

/-- The second comparator decides where the first one ties. -/
def thenBy (less second : α → α → Bool) (a b : α) : Bool :=
  if less a b then true else if less b a then false else second a b

theorem thenBy_iff : thenBy less second a b = true ↔ less a b = true ∨ Tied less a b ∧ second a b = true := by
  unfold thenBy Tied
  cases less a b <;> cases less b a <;> simp

theorem thenBy_tied_iff : Tied (thenBy less second) a b ↔ Tied less a b ∧ Tied second a b := by
  simp only [Tied,thenBy]
  cases less a b <;> cases less b a <;> simp

theorem StrictWeakOn.thenBy (weak : StrictWeakOn S less) (weak' : StrictWeakOn S second) :
    StrictWeakOn S (thenBy less second) where
  irrefl a ha := by
    have first := weak.irrefl a ha
    have next := weak'.irrefl a ha
    simp [StrictWeak.thenBy,first,next]
  asymm a ha b hb := by
    rw [thenBy_iff,thenBy_iff]
    rintro ⟨below | ⟨tied,next⟩,above | ⟨tied',next'⟩⟩
    · exact weak.asymm a ha b hb ⟨below,above⟩
    · simp [tied'.2] at below
    · simp [tied.2] at above
    · exact weak'.asymm a ha b hb ⟨next,next'⟩
  trans a ha b hb c hc := by
    rw [thenBy_iff,thenBy_iff,thenBy_iff]
    rintro (below | ⟨tied,next⟩) (below' | ⟨tied',next'⟩)
    · exact .inl (weak.trans a ha b hb c hc below below')
    · exact .inl (weak.less_tied ha hb hc below tied')
    · exact .inl (weak.tied_less ha hb hc tied below')
    · exact .inr ⟨weak.tied_trans a ha b hb c hc tied tied',weak'.trans a ha b hb c hc next next'⟩
  tied_trans a ha b hb c hc := by
    rw [thenBy_tied_iff,thenBy_tied_iff,thenBy_tied_iff]
    rintro ⟨tied,same⟩ ⟨tied',same'⟩
    exact ⟨weak.tied_trans a ha b hb c hc tied tied',weak'.tied_trans a ha b hb c hc same same'⟩

/-- The first key that does not tie decides. -/
def lexLess (less : α → α → Bool) (key : ι → ρ → α) : List ι → ρ → ρ → Bool
  | [] => fun _ _ => false
  | i::is => thenBy (fun a b => less (key i a) (key i b)) (lexLess less key is)

/-- The lexicographic lifting of a comparator along a list of keys. -/
def Lex (less : α → α → Bool) (key : ι → ρ → α) (is : List ι) (a b : ρ) : Prop :=
  ∃ before i rest, is = before ++ i::rest ∧ (∀ j ∈ before, Tied less (key j a) (key j b)) ∧
    less (key i a) (key i b) = true

theorem lexLess_iff {is : List ι} {a b : ρ} : lexLess less key is a b = true ↔ Lex less key is a b := by
  induction is with
  | nil => simp [lexLess,Lex]
  | cons i is ih =>
    rw [lexLess,thenBy_iff,ih]
    constructor
    · rintro (below | ⟨tied,before,j,rest,rfl,ties,below⟩)
      · exact ⟨[],i,is,rfl,nofun,below⟩
      · exact ⟨i::before,j,rest,rfl,List.forall_mem_cons.mpr ⟨tied,ties⟩,below⟩
    · rintro ⟨before,j,rest,split,ties,below⟩
      cases before with
      | nil =>
        cases split
        exact .inl below
      | cons first before =>
        cases split
        obtain ⟨tied,ties⟩ := List.forall_mem_cons.mp ties
        exact .inr ⟨tied,before,j,rest,rfl,ties,below⟩

theorem lexLess_strictWeakOn (weak : StrictWeakOn S less) {is : List ι} (keys : ∀ a ∈ R, ∀ i ∈ is, key i a ∈ S) :
    StrictWeakOn R (lexLess less key is) := by
  induction is with
  | nil => constructor <;> simp [lexLess,Tied]
  | cons i is ih =>
    have head : StrictWeakOn R fun a b => less (key i a) (key i b) :=
      weak.comap fun a ha => keys a ha i List.mem_cons_self
    exact head.thenBy (ih fun a ha j member => keys a ha j (List.mem_cons_of_mem _ member))

/-- A comparator that orders by a key lifts to the lexicographic order of the lists of keys. -/
theorem lexLess_iff_keys {κ : Type*} [LinearOrder κ] {k : α → κ} {is : List ι} {a b : ρ}
    (ordered : ∀ i ∈ is, (less (key i a) (key i b) = true ↔ k (key i a) < k (key i b)) ∧
      (less (key i b) (key i a) = true ↔ k (key i b) < k (key i a))) :
    lexLess less key is a b = true ↔ is.map (fun i => k (key i a)) < is.map fun i => k (key i b) := by
  induction is with
  | nil => simp [lexLess]
  | cons i is ih =>
    obtain ⟨⟨below,above⟩,later⟩ := List.forall_mem_cons.mp ordered
    have tied : Tied (fun a b => less (key i a) (key i b)) a b ↔ k (key i a) = k (key i b) := by
      unfold Tied
      rw [← Bool.not_eq_true,← Bool.not_eq_true,below,above,not_lt,not_lt,and_comm,← le_antisymm_iff]
    rw [lexLess,thenBy_iff,ih later,below,tied,List.map_cons,List.map_cons,List.cons_lt_cons_iff]

end Sl3.Library.StrictWeak
