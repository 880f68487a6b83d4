import Sl3.Ordering

/-! The comparison functions of `Value` against each other: the typed order by itself, and
the untyped order and equality with the typed order. -/
namespace Sl3.Coherence
open Library.Binary Library.StrictWeak Value Sl3.Ordering

/-- The typed order is a strict weak ordering of all values without a not-a-number. -/
theorem valueTypeLt_strictWeakOn : StrictWeakOn {v : Value | v.NonNaN} valueTypeLt :=
  .of_key fun _ left _ right => valueTypeLt_iff_key left right

section pair
variable {a b : Value}

theorem ints_tied_iff (n m : Int64) : n = m ↔
    (Double.ofInt64 n).rank = (Double.ofInt64 m).rank ∧ ¬ n < m ∧ ¬ m < n := by
  constructor
  · rintro rfl
    exact ⟨rfl,Int64.lt_irrefl,Int64.lt_irrefl⟩
  · rintro ⟨_,notLess,notMore⟩
    exact Int64.le_antisymm (Int64.not_lt.mp notMore) (Int64.not_lt.mp notLess)

theorem valueEq_iff_key (left : a.NonNaN) (right : b.NonNaN) :
    valueEq a b = true ↔ key a = key b ∧ ¬ IntLess a b ∧ ¬ IntLess b a := by
  cases a with
  | null => cases b <;> simp [valueEq,isNull,getType,key,IntLess]
  | int n =>
    cases b with
    | int m =>
      have tied := ints_tied_iff n m
      simpa [valueEq,key,IntLess] using tied
    | real y =>
      have compared := Number.eq_iff_rank (ofInt64_isNaN n) right
      simpa [valueEq,key,isEqual,ToDouble.toDouble,IntLess] using compared
    | _ => simp [valueEq,key]
  | real x =>
    cases b with
    | int m =>
      have compared := Number.eq_iff_rank left (ofInt64_isNaN m)
      simpa [valueEq,key,isEqual,ToDouble.toDouble,IntLess] using compared
    | real y =>
      have compared := Number.eq_iff_rank left right
      simpa [valueEq,key,IntLess] using compared
    | _ => simp [valueEq,key]
  | text s => cases b <;> simp [valueEq,key,IntLess]
  | blob s => cases b <;> simp [valueEq,key,IntLess]

theorem intLess_asymm (less : IntLess a b) : ¬ IntLess b a := fun more => intLess_irrefl a (intLess_trans a b a less more)

theorem one_holds (left : a.NonNaN) (right : b.NonNaN) :
    [valueLt a b,valueEq a b,valueLt b a].count true = 1 := by
  have below := valueLt_iff_key left right
  have same := valueEq_iff_key left right
  have above := valueLt_iff_key right left
  rcases lt_trichotomy (key a) (key b) with less | equal | more
  · have first : valueLt a b = true := below.mpr (.inl less)
    have second : valueEq a b = false := by simpa [less.ne] using same
    have third : valueLt b a = false := by simpa [less.not_gt,less.ne'] using above
    simp [first,second,third]
  · -- inside a tie of the key only integers are ordered, by their exact numbers
    by_cases within : IntLess a b
    · have back := intLess_asymm within
      have first : valueLt a b = true := below.mpr (.inr ⟨equal,within⟩)
      have second : valueEq a b = false := by simpa [within] using same
      have third : valueLt b a = false := by simpa [equal,back] using above
      simp [first,second,third]
    · have first : valueLt a b = false := by simpa [equal,within] using below
      by_cases back : IntLess b a
      · have second : valueEq a b = false := by simpa [back] using same
        have third : valueLt b a = true := above.mpr (.inr ⟨equal.symm,back⟩)
        simp [first,second,third]
      · have second : valueEq a b = true := same.mpr ⟨equal,within,back⟩
        have third : valueLt b a = false := by simpa [equal,back] using above
        simp [first,second,third]
  · have first : valueLt a b = false := by simpa [more.not_gt,more.ne'] using below
    have second : valueEq a b = false := by simpa [more.ne'] using same
    have third : valueLt b a = true := above.mpr (.inl more)
    simp [first,second,third]

theorem valueTypeLt_iff (a b : Value) : valueTypeLt a b = true ↔
    valueLt a b = true ∨ (a.getType = .int ∧ b.getType = .real) ∧ valueEq a b = true := by
  cases a <;> cases b <;> simp [valueTypeLt,valueLt,valueEq,isNull,getType,isLessEqual,isLess,isEqual,Number.le]

end pair

/-- Of less, equal and greater exactly one holds, and the typed order adds to the untyped one
that an integer comes before the double that equals it. -/
theorem comparators_cohere {a b : Value} (left : a.NonNaN) (right : b.NonNaN) :
    [valueLt a b,valueEq a b,valueLt b a].count true = 1 ∧
      (valueTypeLt a b = true ↔
        valueLt a b = true ∨ (a.getType = .int ∧ b.getType = .real) ∧ valueEq a b = true) :=
  ⟨one_holds left right,valueTypeLt_iff a b⟩

theorem comparators_cohere_one : [valueLt (int 1) (real (Number.ofRat 1)),valueEq (int 1) (real (Number.ofRat 1)),
      valueLt (real (Number.ofRat 1)) (int 1)].count true = 1 ∧
    valueTypeLt (int 1) (real (Number.ofRat 1)) = true := by
  have number : (real (Number.ofRat 1)).NonNaN := Number.ofRat_isNaN 1
  obtain ⟨one,typed⟩ := @comparators_cohere (int 1) (real (Number.ofRat 1)) trivial number
  exact ⟨one,typed.mpr (.inr ⟨⟨rfl,rfl⟩,by decide +kernel⟩)⟩

end Sl3.Coherence
