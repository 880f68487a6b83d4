import Sl3.Ordering

/-! An integer against a double: the comparison functions convert the integer to double,
SQLite compares the two numbers themselves. -/
namespace Sl3.MixedNumbers
open Library Library.Binary Library.NearestEven Value

/-- What the documentation promises of an integer and a finite double, in both argument orders. -/
def ComparesExactly (n : Int64) (q : ℚ) (rep : binary64.Representable q) : Prop :=
  let r : Value := real (.finite q rep)
  (valueLt (int n) r = true ↔ (n.toInt : ℚ) < q) ∧ (valueLt r (int n) = true ↔ q < n.toInt) ∧
    (valueEq (int n) r = true ↔ (n.toInt : ℚ) = q) ∧ (valueEq r (int n) = true ↔ (n.toInt : ℚ) = q) ∧
    (valueTypeLt (int n) r = true ↔ (n.toInt : ℚ) ≤ q) ∧ (valueTypeLt r (int n) = true ↔ q < n.toInt)

section rank
variable {n : Int64} {q : ℚ} {rep : binary64.Representable q}

theorem rank_le_of_le (le : (n.toInt : ℚ) ≤ q) :
    (Double.ofInt64 n).rank ≤ (Number.finite q rep : Double).rank := by
  rw [← Number.ofRat_of_representable rep]
  exact Number.ofRat_mono le

theorem le_rank_of_le (le : q ≤ n.toInt) :
    (Number.finite q rep : Double).rank ≤ (Double.ofInt64 n).rank := by
  rw [← Number.ofRat_of_representable rep]
  exact Number.ofRat_mono le

theorem rank_eq_iff : (Double.ofInt64 n).rank = (Number.finite q rep : Double).rank ↔
    Double.ofInt64 n = .finite q rep := by
  constructor
  · exact Number.rank_injective (Ordering.ofInt64_isNaN n) rfl
  · intro same
    rw [same]

/-- Where the conversion does not move the integer onto the double it keeps their order. -/
theorem rank_lt_iff (apart : Double.ofInt64 n = .finite q rep → (n.toInt : ℚ) = q) :
    ((Double.ofInt64 n).rank < (Number.finite q rep : Double).rank ↔ (n.toInt : ℚ) < q) ∧
      ((Number.finite q rep : Double).rank < (Double.ofInt64 n).rank ↔ q < n.toInt) := by
  constructor
  · constructor
    · intro less
      by_contra le
      exact absurd less (not_lt.mpr (le_rank_of_le (not_lt.mp le)))
    · intro less
      apply lt_of_le_of_ne (rank_le_of_le less.le)
      intro same
      exact less.ne (apart (rank_eq_iff.mp same))
  · constructor
    · intro less
      by_contra le
      exact absurd less (not_lt.mpr (rank_le_of_le (not_lt.mp le)))
    · intro less
      apply lt_of_le_of_ne (le_rank_of_le less.le)
      intro same
      exact less.ne (apart (rank_eq_iff.mp same.symm)).symm

end rank

/-- The comparison is that of the numbers exactly when the double is not the one that the
integer is rounded to, or nothing was rounded. -/
theorem comparesExactly_iff (n : Int64) (q : ℚ) (rep : binary64.Representable q) :
    ComparesExactly n q rep ↔ (Double.ofInt64 n = .finite q rep → (n.toInt : ℚ) = q) := by
  have whole := Ordering.ofInt64_isNaN n
  have number : (Number.finite q rep : Double).isNaN = false := rfl
  constructor
  · rintro ⟨_,_,equal,_⟩ same
    apply equal.mp
    simp only [valueEq,isEqual,ToDouble.toDouble,id,Number.eq_iff_rank whole number]
    rw [same]
  · intro apart
    obtain ⟨below,above⟩ := @rank_lt_iff n q rep apart
    have same : (Double.ofInt64 n).rank = (Number.finite q rep : Double).rank ↔ (n.toInt : ℚ) = q := by
      constructor
      · exact fun same => apart (rank_eq_iff.mp same)
      · intro equal
        exact le_antisymm (rank_le_of_le equal.le) (le_rank_of_le equal.ge)
    refine ⟨?_,?_,?_,?_,?_,?_⟩
    · simpa [valueLt,isNull,getType,isLess,ToDouble.toDouble,Number.lt_iff_rank whole number] using below
    · simpa [valueLt,isNull,getType,isLess,ToDouble.toDouble,Number.lt_iff_rank number whole] using above
    · simpa [valueEq,isEqual,ToDouble.toDouble,Number.eq_iff_rank whole number] using same
    · simpa [valueEq,isEqual,ToDouble.toDouble,Number.eq_iff_rank number whole,eq_comm] using same
    · simpa [valueTypeLt,isNull,getType,isLessEqual,ToDouble.toDouble,Number.le_iff_rank whole number,
        le_iff_lt_or_eq] using or_congr below same
    · simpa [valueTypeLt,isNull,getType,isLess,ToDouble.toDouble,Number.lt_iff_rank number whole] using above

theorem comparesExactly_whole : ComparesExactly 9007199254740992 (2^53) (representable_two_pow (by decide)) ∧
    ComparesExactly 9223372036854775807 (2^62) (representable_two_pow (by decide)) := by
  refine ⟨(comparesExactly_iff _ _ _).mpr ?_,(comparesExactly_iff _ _ _).mpr ?_⟩
  · intro _
    decide +kernel
  · intro same
    exact absurd (congrArg Number.rank same) (by decide +kernel)

/-- One more than 2^53, and the largest integer of all, are taken for the double they are rounded to. -/
theorem comparesExactly_rounded :
    valueEq (int 9007199254740993) (real (.finite (2^53) (representable_two_pow (by decide)))) = true ∧
      ¬ ComparesExactly 9007199254740993 (2^53) (representable_two_pow (by decide)) ∧
      valueLt (int 9223372036854775807) (real (.finite (2^63) (representable_two_pow (by decide)))) = false ∧
      ¬ ComparesExactly 9223372036854775807 (2^63) (representable_two_pow (by decide)) := by
  have below : valueEq (int 9007199254740993) (real (.finite (2^53) (representable_two_pow (by decide)))) = true := by
    decide +kernel
  have last : valueEq (int 9223372036854775807) (real (.finite (2^63) (representable_two_pow (by decide)))) = true := by
    decide +kernel
  refine ⟨below,?_,by decide +kernel,?_⟩
  · rintro ⟨_,_,equal,_⟩
    exact absurd (equal.mp below) (by decide +kernel)
  · rintro ⟨_,_,equal,_⟩
    exact absurd (equal.mp last) (by decide +kernel)

end Sl3.MixedNumbers
