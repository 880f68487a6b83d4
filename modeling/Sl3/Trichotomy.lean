import Sl3.Coherence
import Sl3.TypedEquality

/-! Less, equal and greater between two `DbValue`s: by value alone, and by value and dbtype. -/
namespace Sl3.Trichotomy
open Library.StrictWeak Value TypedEquality Sl3.Ordering

section value
variable {a b : Value} {q r : ℚ}

theorem near_comm : Near q r ↔ Near r q := by
  unfold Near tolerance
  rw [abs_sub_comm,add_comm q r]

theorem confused_symm (confused : Confused a b) : Confused b a := by
  rcases confused with ⟨negative,rfl,rfl⟩ | ⟨q,r,hq,hr,rfl,rfl,differ,near⟩
  · exact .inl ⟨negative,rfl,rfl⟩
  · exact .inr ⟨r,q,hr,hq,rfl,rfl,differ.symm,near_comm.mp near⟩

/-- Typed equality holds of equal values other than infinities, and of different doubles near each other. -/
theorem valueTypeEq_iff (left : a.NonNaN) (right : b.NonNaN) : valueTypeEq a b = true ↔ (a = b ↔ ¬ Confused a b) := by
  by_cases confused : Confused a b
  · have differs := confused_not_agree left right confused
    rw [tied_iff_eq left right] at differs
    simp only [confused,not_true,iff_false]
    constructor
    · exact fun equal same => differs (iff_of_true equal same)
    · intro apart
      by_contra unequal
      exact differs (iff_of_false unequal apart)
  · rw [iff_true_right confused]
    by_cases self : Confused a a
    · rcases self with ⟨negative,rfl,_⟩ | ⟨q,r,_,_,rfl,same,differ,_⟩
      · have apart : real (.infinite negative) ≠ b := fun same => confused (.inl ⟨negative,rfl,same.symm⟩)
        rw [iff_false_right apart]
        intro equal
        rcases valueTypeEq_real_or_eq equal with same | ⟨x,y,held,rfl,close⟩
        · exact apart same
        · cases held
          have never : almostEqual (.infinite negative) y 2 = false := almostEqual_infinite (.inl rfl) rfl right
          simp [never] at close
      · cases same
        exact absurd rfl differ
    · exact valueTypeEq_iff_eq left right confused self

theorem valueTypeEq_comm (left : a.NonNaN) (right : b.NonNaN) : valueTypeEq a b = true ↔ valueTypeEq b a = true := by
  have same : Confused a b ↔ Confused b a := ⟨confused_symm,confused_symm⟩
  rw [valueTypeEq_iff left right,valueTypeEq_iff right left,same,eq_comm]

end value

section dbvalue
variable {a b : DbValue}

/-- Exactly one of less, equal and greater. -/
def OneHolds (less equal : DbValue → DbValue → Bool) (a b : DbValue) : Prop := [less a b,equal a b,less b a].count true = 1

/-- The order of the dbtypes is that of the values. -/
def SameWay (a b : DbValue) : Prop := valueTypeLt a.value b.value = true ∧ a.dbtype.code < b.dbtype.code

theorem code_injective : Function.Injective ValueType.code := by
  intro s t same
  cases s <;> cases t <;> first | rfl | cases same

theorem one_true_iff {less equal more : Bool} : [less,equal,more].count true = 1 ↔
    less = true ∧ equal = false ∧ more = false ∨ less = false ∧ equal = true ∧ more = false ∨
      less = false ∧ equal = false ∧ more = true := by
  cases less <;> cases equal <;> cases more <;> decide

theorem one_true_comm {less equal more : Bool} : [less,equal,more].count true = 1 ↔ [more,equal,less].count true = 1 := by
  cases less <;> cases equal <;> cases more <;> decide

theorem dbvalTypeEq_iff (a b : DbValue) :
    a.dbvalTypeEq b = true ↔ a.dbtype = b.dbtype ∧ valueTypeEq a.value b.value = true := by
  simp [DbValue.dbvalTypeEq]

theorem oneHolds_comm (left : a.value.NonNaN) (right : b.value.NonNaN) :
    OneHolds DbValue.dbvalTypeLt DbValue.dbvalTypeEq a b ↔ OneHolds DbValue.dbvalTypeLt DbValue.dbvalTypeEq b a := by
  have equal : a.dbvalTypeEq b = b.dbvalTypeEq a := by
    rw [Bool.eq_iff_iff,dbvalTypeEq_iff,dbvalTypeEq_iff,valueTypeEq_comm left right,eq_comm]
  rw [OneHolds,OneHolds,equal,one_true_comm]

theorem oneHolds_of_less (left : a.value.NonNaN) (right : b.value.NonNaN)
    (less : typedKey a.value < typedKey b.value) : OneHolds DbValue.dbvalTypeLt DbValue.dbvalTypeEq a b ↔
      (Confused a.value b.value → SameWay a b ∨ SameWay b a) := by
  have below : valueTypeLt a.value b.value = true := (valueTypeLt_iff_key left right).mpr less
  have above : ¬ valueTypeLt b.value a.value = true := fun more =>
    less.not_gt ((valueTypeLt_iff_key right left).mp more)
  have differ : a.value ≠ b.value := fun same => less.ne (congrArg typedKey same)
  have equal : valueTypeEq a.value b.value = true ↔ Confused a.value b.value := by
    rw [valueTypeEq_iff left right,iff_false_left differ,not_not]
  have first : a.dbvalTypeLt b = true := (dbvalTypeLt_iff a b).mpr (.inl below)
  have second := dbvalTypeEq_iff a b
  have third := dbvalTypeLt_iff b a
  rw [equal] at second
  rw [← valueTypeEq_comm left right,equal,or_iff_right above] at third
  have codes : a.dbtype = b.dbtype ↔ a.dbtype.code = b.dbtype.code := code_injective.eq_iff.symm
  rw [OneHolds,one_true_iff,first]
  simp only [SameWay,below,above,true_and,← Bool.not_eq_true,second,third,codes]
  by_cases confused : Confused a.value b.value
  · simp [confused]
    omega
  · simp [confused]

theorem oneHolds_of_same (left : a.value.NonNaN) (right : b.value.NonNaN) (same : a.value = b.value) :
    OneHolds DbValue.dbvalTypeLt DbValue.dbvalTypeEq a b ↔ (Confused a.value b.value → SameWay a b ∨ SameWay b a) := by
  obtain ⟨below,above⟩ := (tied_iff_eq left right).mpr same
  have equal : valueTypeEq a.value b.value = true ↔ ¬ Confused a.value b.value := by
    rw [valueTypeEq_iff left right,iff_true_left same]
  have first := dbvalTypeLt_iff a b
  have second := dbvalTypeEq_iff a b
  have third := dbvalTypeLt_iff b a
  rw [below,equal] at first
  rw [equal] at second
  rw [← valueTypeEq_comm left right,above,equal] at third
  have codes : a.dbtype = b.dbtype ↔ a.dbtype.code = b.dbtype.code := code_injective.eq_iff.symm
  rw [OneHolds,one_true_iff]
  simp only [SameWay,below,above,← Bool.not_eq_true,first,second,third,codes]
  by_cases confused : Confused a.value b.value
  · simp [confused]
  · simp [confused]
    omega

/-- Of less, equal and greater exactly one holds by value alone. By value and dbtype it does unless the values are
infinities that are equal, or doubles near each other whose dbtypes do not order them as they are. -/
theorem dbval_trichotomy (left : a.value.NonNaN) (right : b.value.NonNaN) :
    OneHolds DbValue.dbvalLt DbValue.dbvalEq a b ∧ (OneHolds DbValue.dbvalTypeLt DbValue.dbvalTypeEq a b ↔
      (Confused a.value b.value → SameWay a b ∨ SameWay b a)) := by
  refine ⟨Coherence.one_holds left right,?_⟩
  rcases lt_trichotomy (typedKey a.value) (typedKey b.value) with less | same | more
  · exact oneHolds_of_less left right less
  · exact oneHolds_of_same left right (typedKey_injective left right same)
  · have confused : Confused a.value b.value ↔ Confused b.value a.value := ⟨confused_symm,confused_symm⟩
    rw [oneHolds_comm left right,oneHolds_of_less right left more,confused,or_comm]

def nearOne : DbValue := ⟨.variant,.real (Library.Binary.Number.ofRat (1 + 1 / 2^52))⟩

theorem dbval_trichotomy_near : OneHolds DbValue.dbvalLt DbValue.dbvalEq ⟨.real,.real (Library.Binary.Number.ofRat 1)⟩ nearOne ∧
    OneHolds DbValue.dbvalTypeLt DbValue.dbvalTypeEq ⟨.real,.real (Library.Binary.Number.ofRat 1)⟩ nearOne := by
  have left : (Value.real (Library.Binary.Number.ofRat 1)).NonNaN := Library.Binary.Number.ofRat_isNaN 1
  have right : nearOne.value.NonNaN := Library.Binary.Number.ofRat_isNaN _
  obtain ⟨untyped,typed⟩ := @dbval_trichotomy ⟨.real,.real (Library.Binary.Number.ofRat 1)⟩ nearOne left right
  refine ⟨untyped,typed.mpr fun _ => .inl ⟨?_,by decide⟩⟩
  decide +kernel

end dbvalue

end Sl3.Trichotomy
