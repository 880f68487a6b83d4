import Mathlib.Order.Defs.LinearOrder
import Mathlib.Data.Set.Basic
import Mathlib.Data.Prod.Lex

/-! Strict weak orderings given by boolean comparators, on a set of elements.
A comparator is ordered by a key up to ties, and a second relation may order
inside the ties; the laws then only depend on what it does there. -/
namespace Sl3.Library.StrictWeak
variable {α β κ : Type*}

def Tied (less : α → α → Bool) (a b : α) : Prop := less a b = false ∧ less b a = false

/-- The laws a sort needs of its comparator, for the elements of a set. -/
structure StrictWeakOn (S : Set α) (less : α → α → Bool) : Prop where
  irrefl : ∀ a ∈ S, less a a = false
  asymm : ∀ a ∈ S, ∀ b ∈ S, ¬ (less a b = true ∧ less b a = true)
  trans : ∀ a ∈ S, ∀ b ∈ S, ∀ c ∈ S, less a b = true → less b c = true → less a c = true
  tied_trans : ∀ a ∈ S, ∀ b ∈ S, ∀ c ∈ S, Tied less a b → Tied less b c → Tied less a c

section key
variable [LinearOrder κ] {S : Set α} {less : α → α → Bool} {key : α → κ}

theorem tied_iff_key (ordered : ∀ a ∈ S, ∀ b ∈ S, (less a b = true ↔ key a < key b))
    {a b : α} (ha : a ∈ S) (hb : b ∈ S) : Tied less a b ↔ key a = key b := by
  have left := ordered a ha b hb
  have right := ordered b hb a ha
  unfold Tied
  rw [← Bool.not_eq_true,← Bool.not_eq_true,left,right,not_lt,not_lt]
  exact ⟨fun both => le_antisymm both.2 both.1,fun same => ⟨same.ge,same.le⟩⟩

theorem StrictWeakOn.of_key (ordered : ∀ a ∈ S, ∀ b ∈ S, (less a b = true ↔ key a < key b)) :
    StrictWeakOn S less where
  irrefl a ha := by
    rw [← Bool.not_eq_true,ordered a ha a ha]
    exact lt_irrefl _
  asymm a ha b hb := by
    rw [ordered a ha b hb,ordered b hb a ha]
    exact fun both => lt_asymm both.1 both.2
  trans a ha b hb c hc := by
    rw [ordered a ha b hb,ordered b hb c hc,ordered a ha c hc]
    exact lt_trans
  tied_trans a ha b hb c hc := by
    rw [tied_iff_key ordered ha hb,tied_iff_key ordered hb hc,tied_iff_key ordered ha hc]
    exact Eq.trans

end key

/-- The comparator orders by a key, and `within` orders the elements of equal key. -/
def RefinesKey [LinearOrder κ] (S : Set α) (less : α → α → Bool) (key : α → κ)
    (within : α → α → Prop) : Prop :=
  ∀ a ∈ S, ∀ b ∈ S, (less a b = true ↔ key a < key b ∨ key a = key b ∧ within a b)

section within
variable [LinearOrder κ] {S : Set α} {less : α → α → Bool} {key : α → κ} {within : α → α → Prop}

theorem RefinesKey.tied_iff (refines : RefinesKey S less key within) {a b : α} (ha : a ∈ S)
    (hb : b ∈ S) : Tied less a b ↔ key a = key b ∧ ¬ within a b ∧ ¬ within b a := by
  have left := refines a ha b hb
  have right := refines b hb a ha
  unfold Tied
  rw [← Bool.not_eq_true,← Bool.not_eq_true,left,right]
  constructor
  · rintro ⟨notLeft,notRight⟩
    have same : key a = key b := by
      rcases lt_trichotomy (key a) (key b) with less | same | more
      · exact absurd (Or.inl less) notLeft
      · exact same
      · exact absurd (Or.inl more) notRight
    exact ⟨same,fun w => notLeft (.inr ⟨same,w⟩),fun w => notRight (.inr ⟨same.symm,w⟩)⟩
  · rintro ⟨same,notLeft,notRight⟩
    constructor
    · rintro (less | ⟨_,w⟩)
      · exact absurd same less.ne
      · exact notLeft w
    · rintro (more | ⟨_,w⟩)
      · exact absurd same more.ne'
      · exact notRight w

/-- When the order inside the ties is a strict order, only the transitivity of
being tied can fail, and it fails inside one tie of the key. -/
theorem RefinesKey.strictWeakOn_iff (refines : RefinesKey S less key within)
    (irrefl : ∀ a, ¬ within a a) (trans : ∀ a b c, within a b → within b c → within a c) :
    StrictWeakOn S less ↔ ∀ a ∈ S, ∀ b ∈ S, ∀ c ∈ S, key a = key b → key b = key c →
      ¬ within a b → ¬ within b a → ¬ within b c → ¬ within c b → ¬ within a c := by
  constructor
  · intro laws a ha b hb c hc ab bc nab nba nbc ncb
    have tied := laws.tied_trans a ha b hb c hc ((refines.tied_iff ha hb).mpr ⟨ab,nab,nba⟩)
      ((refines.tied_iff hb hc).mpr ⟨bc,nbc,ncb⟩)
    exact ((refines.tied_iff ha hc).mp tied).2.1
  · intro inside
    have chain : ∀ a ∈ S, ∀ b ∈ S, ∀ c ∈ S, less a b = true → less b c = true → less a c = true := by
      intro a ha b hb c hc
      rw [refines a ha b hb,refines b hb c hc,refines a ha c hc]
      rintro (ab | ⟨ab,wab⟩) (bc | ⟨bc,wbc⟩)
      · exact .inl (ab.trans bc)
      · exact .inl (ab.trans_eq bc)
      · exact .inl (ab.trans_lt bc)
      · exact .inr ⟨ab.trans bc,trans a b c wab wbc⟩
    have never : ∀ a ∈ S, less a a = false := by
      intro a ha
      rw [← Bool.not_eq_true,refines a ha a ha]
      rintro (self | ⟨_,w⟩)
      · exact lt_irrefl _ self
      · exact irrefl a w
    refine ⟨never,?_,chain,?_⟩
    · intro a ha b hb both
      exact Bool.false_ne_true ((never a ha).symm.trans (chain a ha b hb a ha both.1 both.2))
    · intro a ha b hb c hc
      rw [refines.tied_iff ha hb,refines.tied_iff hb hc,refines.tied_iff ha hc]
      rintro ⟨ab,nab,nba⟩ ⟨bc,nbc,ncb⟩
      exact ⟨ab.trans bc,inside a ha b hb c hc ab bc nab nba nbc ncb,
        inside c hc b hb a ha bc.symm ab.symm ncb nbc nba nab⟩

end within
end Sl3.Library.StrictWeak
