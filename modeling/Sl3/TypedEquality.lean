import Sl3.Ordering
import Sl3.Library.ExactSubtraction

/-! Typed equality against the typed order: the tolerance test between two doubles in exact
terms, and the values that it takes for equal although the order tells them apart. -/
namespace Sl3.TypedEquality
open Library Library.Binary Library.NearestEven Library.StrictWeak Value
variable {q r : ℚ}

/-- The tolerance of two doubles whose sum does not overflow: rounded where their sum is, and where that is scaled. -/
def tolerance (q r : ℚ) : ℚ := 2 * binary64.rounded (|binary64.rounded (q + r)| / 2^52)

/-- Two doubles whose sum overflows, or that are less apart than the smallest normal number or the tolerance. -/
def Near (q r : ℚ) : Prop :=
  |q - r| < 2^(-1022 : ℤ) ∨ binary64.limit ≤ |binary64.rounded (q + r)| ∨ |q - r| < tolerance q r

section tolerance

theorem representable_zpow {e : ℤ} (low : -1074 ≤ e) (high : e ≤ 971) : binary64.Representable (2^e) :=
  ⟨1,e,by decide,low,high,by simp⟩

theorem epsilon_eq : epsilon = .finite (2^(-52 : ℤ)) (representable_zpow (by decide) (by decide)) := by
  rw [← Number.ofRat_of_representable,epsilon]
  congr 1
  rw [zpow_neg,one_div]
  rfl

theorem minNormal_eq : minNormal = .finite (2^(-1022 : ℤ)) (representable_zpow (by decide) (by decide)) := by
  rw [← Number.ofRat_of_representable,minNormal]
  congr 1
  rw [zpow_neg,one_div]
  rfl

theorem tolerance_nonneg (q r : ℚ) : 0 ≤ tolerance q r := by
  have scaled : 0 ≤ |binary64.rounded (q + r)| / 2^52 := by positivity
  have nonneg := binary64.rounded_nonneg scaled
  unfold tolerance
  positivity

theorem limit_eq : binary64.limit = 2^(971 : ℤ) * 2^53 := by
  rw [Format.limit,zpow_add₀ two_ne_zero,zpow_natCast]
  rfl

theorem scaled_sum_le (below : |binary64.rounded (q + r)| < binary64.limit) :
    binary64.rounded (|binary64.rounded (q + r)| / 2^52) ≤ 2 * 2^(971 : ℤ) := by
  have top : binary64.Representable (2 * 2^(971 : ℤ)) := ⟨2,971,by decide,by decide,by decide,by norm_num⟩
  have le : |binary64.rounded (q + r)| / 2^52 ≤ 2 * 2^(971 : ℤ) := by
    rw [div_le_iff₀ (by positivity)]
    rw [limit_eq] at below
    linarith
  have kept := binary64.rounded_mono le
  rwa [binary64.rounded_of_representable top] at kept

theorem tolerance_lt_limit (below : |binary64.rounded (q + r)| < binary64.limit) : tolerance q r < binary64.limit := by
  have le := scaled_sum_le below
  have unit : (0 : ℚ) < 2^(971 : ℤ) := Format.two_zpow_pos _
  unfold tolerance
  rw [limit_eq]
  generalize (2 : ℚ)^(971 : ℤ) = u at *
  linarith

theorem scaled_sum_finite (below : |binary64.rounded (q + r)| < binary64.limit) :
    |binary64.rounded (|binary64.rounded (q + r)| / 2^52)| < binary64.limit := by
  have le := tolerance_lt_limit below
  have scaled : 0 ≤ |binary64.rounded (q + r)| / 2^52 := by positivity
  have nonneg := binary64.rounded_nonneg scaled
  unfold tolerance at le
  rw [abs_of_nonneg nonneg]
  linarith

theorem tolerance_representable (below : |binary64.rounded (q + r)| < binary64.limit) :
    binary64.Representable (tolerance q r) := by
  obtain ⟨m,e,small,low,_,value⟩ := Format.rounded_representable _ (scaled_sum_finite below)
  have doubled : tolerance q r = m * 2^(e + 1) := by
    rw [tolerance,value,zpow_add₀ two_ne_zero]
    ring
  have exactly := binary64.rounded_of_scaled small (by omega) doubled
  have size : |binary64.rounded (tolerance q r)| < binary64.limit := by
    rw [exactly,abs_of_nonneg (tolerance_nonneg q r)]
    exact tolerance_lt_limit below
  have rep := Format.rounded_representable _ size
  rwa [exactly] at rep

theorem two_eq : (Number.ofRat ((2 : ℤ) : ℚ) : Double) =
    .finite (2^(1 : ℤ)) (representable_zpow (by decide) (by decide)) := by
  rw [← Number.ofRat_of_representable]
  norm_num

theorem computed_tolerance (below : |binary64.rounded (q + r)| < binary64.limit) :
    (epsilon.mul (Number.ofRat (q + r) : Double).abs).mul (Number.ofRat ((2 : ℤ) : ℚ)) =
      .finite (tolerance q r) (tolerance_representable below) := by
  have scale : (2 : ℚ)^(-52 : ℤ) * |binary64.rounded (q + r)| = |binary64.rounded (q + r)| / 2^52 := by
    rw [zpow_neg,div_eq_inv_mul]
    rfl
  have first : epsilon.mul (Number.ofRat (q + r) : Double).abs =
      .finite _ (Format.rounded_representable _ (scaled_sum_finite below)) := by
    rw [Number.ofRat_finite below,epsilon_eq,Number.abs,Number.mul_finite,scale]
    exact Number.ofRat_finite (scaled_sum_finite below)
  have doubled : binary64.rounded (|binary64.rounded (q + r)| / 2^52) * 2^(1 : ℤ) = tolerance q r := by
    rw [tolerance,zpow_one,mul_comm]
  rw [first,two_eq,Number.mul_finite,doubled]
  exact Number.ofRat_of_representable (tolerance_representable below)

theorem computed_overflow (beyond : binary64.limit ≤ |binary64.rounded (q + r)|) :
    (epsilon.mul (Number.ofRat (q + r) : Double).abs).mul (Number.ofRat ((2 : ℤ) : ℚ)) = .infinite false := by
  have scale : ¬ (2 : ℚ)^(-52 : ℤ) < 0 := (Format.two_zpow_pos _).not_gt
  have factor : ¬ (2 : ℚ)^(1 : ℤ) < 0 := (Format.two_zpow_pos _).not_gt
  rw [Number.ofRat_abs_infinite beyond,epsilon_eq,two_eq]
  simp only [Number.mul,(Format.two_zpow_pos _).ne',if_false,scale,factor,decide_false,bne_self_eq_false]

/-- Within the tolerance the difference of two doubles is not rounded. -/
theorem sub_exact (hq : binary64.Representable q) (hr : binary64.Representable r) (near : |q - r| < tolerance q r) :
    binary64.rounded (q - r) = q - r := by
  have smallest : binary64.Representable (2^(-1074 : ℤ)) := representable_zpow le_rfl (by decide)
  rcases lt_or_ge |q - r| (2^(-1021 : ℤ)) with small | large
  · exact Format.rounded_sub_small hq hr small
  · unfold tolerance at near
    have normal : (2 : ℚ)^(-1021 : ℤ) = 2 * 2^(-1022 : ℤ) := by
      rw [← zpow_one_add₀ two_ne_zero]
      rfl
    have lower : (2 : ℚ)^(-1074 : ℤ) < 2^(-1022 : ℤ) := zpow_lt_zpow_right₀ one_lt_two (by decide)
    have positive : (0 : ℚ) < 2^(-1074 : ℤ) := Format.two_zpow_pos _
    -- neither the sum nor its scaled size is so small that rounding could double it
    have scaled : 2^(-1074 : ℤ) ≤ |binary64.rounded (q + r)| / 2^52 := by
      by_contra less
      have kept := binary64.rounded_mono (not_le.mp less).le
      rw [binary64.rounded_of_representable smallest] at kept
      linarith
    have sum : 2^(-1074 : ℤ) ≤ |q + r| := by
      by_contra less
      have kept := smallest.rounded_abs_le (not_le.mp less).le
      linarith
    have first : binary64.rounded (|binary64.rounded (q + r)| / 2^52) ≤ 2 * (|binary64.rounded (q + r)| / 2^52) :=
      Format.rounded_le_two_mul scaled
    have second : |binary64.rounded (q + r)| ≤ 2 * |q + r| := by
      rw [← Format.rounded_abs]
      exact Format.rounded_le_two_mul sum
    have left : |q + r| ≤ 2 * |q| + |q - r| := by
      have split := abs_sub (2 * q) (q - r)
      rw [abs_mul,abs_two] at split
      calc |q + r| = |2 * q - (q - r)| := by congr 1; ring
        _ ≤ 2 * |q| + |q - r| := split
    have right : |q + r| ≤ 2 * |r| + |q - r| := by
      have split := abs_add_le (2 * r) (q - r)
      rw [abs_mul,abs_two] at split
      calc |q + r| = |2 * r + (q - r)| := by congr 1; ring
        _ ≤ 2 * |r| + |q - r| := split
    have apart := abs_nonneg (q - r)
    apply Format.rounded_sub_near hq hr
    · by_contra more
      linarith
    · by_contra more
      linarith

theorem sub_lt_tolerance_iff (hq : binary64.Representable q) (hr : binary64.Representable r)
    (below : |binary64.rounded (q + r)| < binary64.limit) :
    |binary64.rounded (q - r)| < tolerance q r ↔ |q - r| < tolerance q r := by
  constructor
  · intro less
    by_contra more
    exact absurd ((tolerance_representable below).le_rounded_abs (not_lt.mp more)) (not_le.mpr less)
  · intro less
    rwa [sub_exact hq hr less]

theorem sub_lt_minNormal_iff (hq : binary64.Representable q) (hr : binary64.Representable r) :
    |binary64.rounded (q - r)| < 2^(-1022 : ℤ) ↔ |q - r| < 2^(-1022 : ℤ) := by
  have normal : binary64.Representable (2^(-1022 : ℤ)) := representable_zpow (by decide) (by decide)
  constructor
  · intro less
    by_contra more
    exact absurd (normal.le_rounded_abs (not_lt.mp more)) (not_le.mpr less)
  · intro less
    have upper : (2 : ℚ)^(-1022 : ℤ) ≤ 2^(-1021 : ℤ) := zpow_le_zpow_right₀ one_le_two (by decide)
    rwa [Format.rounded_sub_small hq hr (less.trans_le upper)]

theorem abs_sub_le_max (sameSign : 0 ≤ q * r) : |q - r| ≤ max |q| |r| := by
  rcases mul_nonneg_iff.mp sameSign with ⟨left,right⟩ | ⟨left,right⟩
  · rw [abs_of_nonneg left,abs_of_nonneg right]
    exact abs_sub_le_of_nonneg_of_le left (le_max_left _ _) right (le_max_right _ _)
  · rw [abs_of_nonpos left,abs_of_nonpos right,← neg_sub_neg]
    exact abs_sub_le_of_nonneg_of_le (neg_nonneg.mpr right) (le_max_right _ _) (neg_nonneg.mpr left) (le_max_left _ _)

/-- Numbers whose sum overflows have one sign, so that their difference does not. -/
theorem sub_finite_of_overflow (hq : binary64.Representable q) (hr : binary64.Representable r)
    (beyond : binary64.limit ≤ |binary64.rounded (q + r)|) : |binary64.rounded (q - r)| < binary64.limit := by
  have bounded {x : ℚ} (le : |x| ≤ max |q| |r|) : |binary64.rounded x| < binary64.limit := by
    rcases le_max_iff.mp le with left | right
    · exact (hq.abs.rounded_abs_le left).trans_lt hq.abs_lt_limit
    · exact (hr.abs.rounded_abs_le right).trans_lt hr.abs_lt_limit
  rcases le_total 0 (q * r) with sameSign | opposite
  · exact bounded (abs_sub_le_max sameSign)
  · have sum : |q + r| ≤ max |q| |r| := by
      have negated : 0 ≤ q * -r := by rwa [mul_neg,neg_nonneg]
      simpa using abs_sub_le_max negated
    exact absurd (bounded sum) (not_lt.mpr beyond)

theorem almostEqual_iff (hq : binary64.Representable q) (hr : binary64.Representable r) :
    almostEqual (.finite q hq) (.finite r hr) 2 = true ↔ Near q r := by
  have sum : (Number.add (.finite q hq) (.finite r hr) : Double) = Number.ofRat (q + r) := rfl
  rw [almostEqual,Bool.or_eq_true,Number.sub_finite,sum,minNormal_eq,Number.ofRat_abs_lt,sub_lt_minNormal_iff hq hr]
  unfold Near
  rcases lt_or_ge |binary64.rounded (q + r)| binary64.limit with below | beyond
  · rw [computed_tolerance below,Number.ofRat_abs_lt,sub_lt_tolerance_iff hq hr below]
    simp only [not_le.mpr below,false_or]
    exact or_comm
  · rw [computed_overflow beyond,Number.ofRat_abs_lt_infinite]
    exact iff_of_true (.inl (sub_finite_of_overflow hq hr beyond)) (.inr (.inl beyond))

theorem infinite_not_lt (y : Double) : Number.lt (.infinite false) y = false := by
  cases y <;> simp [Number.lt]

/-- An infinity is at no distance from any number that would be below a tolerance. -/
theorem almostEqual_infinite {x y : Double} (infinite : x.isFinite = false ∨ y.isFinite = false) (hx : x.isNaN = false)
    (hy : y.isNaN = false) : almostEqual x y 2 = false := by
  have apart : (x.sub y).abs = .infinite false ∨ (x.sub y).abs = .nan := by
    cases x with
    | nan => simp [Number.isNaN] at hx
    | finite q hq =>
      cases y with
      | nan => simp [Number.isNaN] at hy
      | finite r hr => simp [Number.isFinite] at infinite
      | infinite negative => exact .inl rfl
    | infinite negative =>
      cases y with
      | nan => simp [Number.isNaN] at hy
      | finite r hr => exact .inl rfl
      | infinite other => cases negative <;> cases other <;> simp [Number.sub,Number.neg,Number.add,Number.abs]
  unfold almostEqual
  rcases apart with infinite | nan
  · rw [infinite,infinite_not_lt,infinite_not_lt]
    rfl
  · rw [nan]
    rfl

end tolerance

section law
variable {a b : Value}

/-- What the order ties are equal values only. -/
theorem tied_iff_eq (left : a.NonNaN) (right : b.NonNaN) : Tied valueTypeLt a b ↔ a = b := by
  have ordered : ∀ a ∈ {v : Value | v.NonNaN}, ∀ b ∈ {v : Value | v.NonNaN},
      (valueTypeLt a b = true ↔ Ordering.typedKey a < Ordering.typedKey b) :=
    fun a ha b hb => Ordering.valueTypeLt_iff_key ha hb
  rw [tied_iff_key ordered left right]
  exact ⟨Ordering.typedKey_injective left right,congrArg Ordering.typedKey⟩

/-- An infinity and itself, or two different doubles near each other. -/
def Confused (a b : Value) : Prop :=
  (∃ negative, a = real (.infinite negative) ∧ b = real (.infinite negative)) ∨
    ∃ q r hq hr, a = real (.finite q hq) ∧ b = real (.finite r hr) ∧ q ≠ r ∧ Near q r

/-- For the values of a set, typed equality is the equality of the typed order, and with that an equivalence. -/
structure EqualByOrder (S : Set Value) : Prop where
  tied_iff : ∀ a ∈ S, ∀ b ∈ S, (valueTypeEq a b = true ↔ Tied valueTypeLt a b)
  refl : ∀ a ∈ S, valueTypeEq a a = true
  symm : ∀ a ∈ S, ∀ b ∈ S, valueTypeEq a b = true → valueTypeEq b a = true
  trans : ∀ a ∈ S, ∀ b ∈ S, ∀ c ∈ S, valueTypeEq a b = true → valueTypeEq b c = true → valueTypeEq a c = true

theorem confused_not_agree (left : a.NonNaN) (right : b.NonNaN) (confused : Confused a b) :
    ¬ (valueTypeEq a b = true ↔ Tied valueTypeLt a b) := by
  rw [tied_iff_eq left right]
  rcases confused with ⟨negative,rfl,rfl⟩ | ⟨q,r,hq,hr,rfl,rfl,differ,near⟩
  · have never : almostEqual (.infinite negative) (.infinite negative) 2 = false :=
      almostEqual_infinite (.inl rfl) rfl rfl
    simp [valueTypeEq,never]
  · have equal : almostEqual (.finite q hq) (.finite r hr) 2 = true := (almostEqual_iff hq hr).mpr near
    simp [valueTypeEq,getType,equal,differ]

theorem valueTypeEq_iff_eq (left : a.NonNaN) (right : b.NonNaN) (clear : ¬ Confused a b) (self : ¬ Confused a a) :
    valueTypeEq a b = true ↔ a = b := by
  constructor
  · intro equal
    rcases Ordering.valueTypeEq_real_or_eq equal with same | ⟨x,y,rfl,rfl,close⟩
    · exact same
    · cases x with
      | nan => simp [NonNaN,Number.isNaN] at left
      | infinite negative =>
        have never : almostEqual (.infinite negative) y 2 = false := almostEqual_infinite (.inl rfl) rfl right
        simp [never] at close
      | finite q hq =>
        cases y with
        | nan => simp [NonNaN,Number.isNaN] at right
        | infinite negative =>
          have never : almostEqual (.finite q hq) (.infinite negative) 2 = false := almostEqual_infinite (.inr rfl) rfl rfl
          simp [never] at close
        | finite r hr =>
          by_contra differ
          have apart : q ≠ r := by
            rintro rfl
            exact differ rfl
          exact clear (.inr ⟨q,r,hq,hr,rfl,rfl,apart,(almostEqual_iff hq hr).mp close⟩)
  · rintro rfl
    apply Ordering.valueTypeEq_self
    cases a with
    | real x =>
      cases x with
      | finite q hq => rfl
      | infinite negative => exact absurd (.inl ⟨negative,rfl,rfl⟩) self
      | nan => simp [NonNaN,Number.isNaN] at left
    | _ => trivial

/-- Typed equality is that of the typed order on a set of values exactly when the set has no infinity and no
two different doubles near each other. -/
theorem equalByOrder_iff (S : Set Value) (nonNaN : ∀ a ∈ S, a.NonNaN) :
    EqualByOrder S ↔ ∀ a ∈ S, ∀ b ∈ S, ¬ Confused a b := by
  constructor
  · intro laws a ha b hb confused
    exact confused_not_agree (nonNaN a ha) (nonNaN b hb) confused (laws.tied_iff a ha b hb)
  · intro clear
    have exactly : ∀ a ∈ S, ∀ b ∈ S, (valueTypeEq a b = true ↔ a = b) := fun a ha b hb =>
      valueTypeEq_iff_eq (nonNaN a ha) (nonNaN b hb) (clear a ha b hb) (clear a ha a ha)
    constructor
    · intro a ha b hb
      rw [exactly a ha b hb,tied_iff_eq (nonNaN a ha) (nonNaN b hb)]
    · intro a ha
      exact (exactly a ha a ha).mpr rfl
    · intro a ha b hb equal
      exact (exactly b hb a ha).mpr ((exactly a ha b hb).mp equal).symm
    · intro a ha b hb c hc equal equal'
      exact (exactly a ha c hc).mpr (((exactly a ha b hb).mp equal).trans ((exactly b hb c hc).mp equal'))

instance (q r : ℚ) : Decidable (Near q r) := inferInstanceAs (Decidable (_ ∨ _ ∨ _))

theorem equalByOrder_numbers :
    EqualByOrder {null,int 2,real (.finite (2^1) (representable_two_pow (by decide))),
      real (.finite (2^2) (representable_two_pow (by decide)))} := by
  have apart : ¬ Near (2^1) (2^2) ∧ ¬ Near (2^2) (2^1) := by decide +kernel
  refine (equalByOrder_iff _ ?_).mpr ?_
  · rintro a (rfl | rfl | rfl | rfl)
    · trivial
    · trivial
    · rfl
    · rfl
  · rintro a left b right (⟨negative,rfl,_⟩ | ⟨q,r,hq,hr,rfl,rfl,differ,near⟩)
    · simp at left
    · simp only [Set.mem_insert_iff,Set.mem_singleton_iff,reduceCtorEq,false_or,real.injEq,Number.finite.injEq] at left right
      rcases left with rfl | rfl
      · rcases right with rfl | rfl
        · exact differ rfl
        · exact apart.1 near
      · rcases right with rfl | rfl
        · exact apart.2 near
        · exact differ rfl

/-- Two neighbouring doubles are equal and ordered, and an infinity is not equal to itself. -/
theorem confused_values :
    let one : Value := real (Number.ofRat 1)
    let next : Value := real (Number.ofRat (1 + 1 / 2^52))
    let infinity : Value := real (.infinite false)
    one.NonNaN ∧ next.NonNaN ∧ infinity.NonNaN ∧ valueTypeEq one next = true ∧ valueTypeLt one next = true ∧
      valueTypeEq infinity infinity = false ∧ ¬ EqualByOrder {one,next} ∧ ¬ EqualByOrder {infinity} := by
  intro one next infinity
  have equal : valueTypeEq one next = true := by decide +kernel
  have less : valueTypeLt one next = true := by decide +kernel
  have differs : valueTypeEq infinity infinity = false := by decide +kernel
  refine ⟨Number.ofRat_isNaN _,Number.ofRat_isNaN _,rfl,equal,less,differs,fun laws => ?_,fun laws => ?_⟩
  · have tied := (laws.tied_iff one (by simp) next (by simp)).mp equal
    simp [tied.1] at less
  · have self := laws.refl infinity (by simp)
    simp [self] at differs

end law

end Sl3.TypedEquality
