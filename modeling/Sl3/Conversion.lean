import Sl3.Comparison
import Sl3.Library.ExactSubtraction
import Sl3.Library.Truncation

/-! The conversion operators of `Value` to `int`, `int64_t` and `double`. A double is tested against
the limits of the integer type after these were converted to double themselves; an integer is
converted to double as it is. -/
namespace Sl3.Conversion
open Library Library.Binary Library.NearestEven Value

/-- A signed integer type with its `std::numeric_limits`. -/
class Integral (OutT : Type) extends ToDouble OutT where
  min : OutT
  max : OutT
  toInt : OutT → ℤ
  ofInt : ℤ → OutT
  toInt_ofInt : ∀ n, toInt min ≤ n → n ≤ toInt max → toInt (ofInt n) = n
  range : ∀ out, toInt min ≤ toInt out ∧ toInt out ≤ toInt max
  toDouble_eq : ∀ out, toDouble out = Number.ofRat (toInt out : ℚ)

instance : ToDouble Int32 := ⟨fun n => Number.ofRat (n.toInt : ℚ)⟩

instance : Integral Int32 where
  min := Int32.minValue
  max := Int32.maxValue
  toInt := Int32.toInt
  ofInt := Int32.ofInt
  toInt_ofInt _ low high := Int32.toInt_ofInt_of_le low (Int.lt_of_le_sub_one high)
  range out := ⟨out.le_toInt,out.toInt_le⟩
  toDouble_eq _ := rfl

instance : Integral Int64 where
  min := Int64.minValue
  max := Int64.maxValue
  toInt := Int64.toInt
  ofInt := Int64.ofInt
  toInt_ofInt _ low high := Int64.toInt_ofInt_of_le low (Int.lt_of_le_sub_one high)
  range out := ⟨out.le_toInt,out.toInt_le⟩
  toDouble_eq _ := rfl

section convert
variable (OutT : Type) [Integral OutT]

/-- `static_cast` of a double to an integer type; `none` stands for undefined behaviour. -/
def staticCast : Double → Option OutT
  | .finite q _ =>
    if Integral.toInt (Integral.min : OutT) ≤ truncated q ∧ truncated q ≤ Integral.toInt (Integral.max : OutT) then
      some (Integral.ofInt (truncated q))
    else none
  | _ => none

def losslessConvert1 (input : Double) : Option (Except Error OutT) :=
  let converted := input.trunc
  if !(input.sub converted).eq (Number.ofRat 0) then some (.error (errTypeMisMatch "Conversion loses fraction"))
  else if isLess converted (Integral.min : OutT) || isGreater converted (Integral.max : OutT) then
    some (.error (errOutOfRange "Converted value to big"))
  else (staticCast OutT converted).map .ok

end convert

def noImplicitConversion (v : Value) : Error :=
  errTypeMisMatch ("Implicit conversion: " ++ v.getType.typeName ++ " to int64_t")

def operatorInt : Value → Option (Except Error Int32)
  | null => some (.error (errNullValueAccess ""))
  | real realval => losslessConvert1 Int32 realval
  | int intval =>
    if intval.toInt < Int32.minValue.toInt ∨ Int32.maxValue.toInt < intval.toInt then
      some (.error (errOutOfRange "Implicit conversion int64_t to int, value to big"))
    else some (.ok intval.toInt32)
  | v => some (.error (noImplicitConversion v))

def operatorInt64 : Value → Option (Except Error Int64)
  | null => some (.error (errNullValueAccess ""))
  | real realval => losslessConvert1 Int64 realval
  | int intval => some (.ok intval)
  | v => some (.error (noImplicitConversion v))

def operatorDouble : Value → Except Error Double
  | null => .error (errNullValueAccess "")
  | int intval => .ok (Double.ofInt64 intval)
  | real realval => .ok realval
  | v => .error (errTypeMisMatch (v.getType.typeName ++ " != " ++ ValueType.real.typeName))

/-- The number that a Value of a numeric type stores. -/
def number : Value → Option ℚ
  | int intval => some intval.toInt
  | real (.finite q _) => some q
  | _ => none

/-- The conversion of the number `x` returns it exactly or throws what fits the reason, and is defined. -/
structure Exact (OutT : Type) [Integral OutT] (result : Option (Except Error OutT)) (x : ℚ) : Prop where
  returns : ∀ n : ℤ, (∃ out, result = some (.ok out) ∧ Integral.toInt out = n) ↔
    (n : ℚ) = x ∧ Integral.toInt (Integral.min : OutT) ≤ n ∧ n ≤ Integral.toInt (Integral.max : OutT)
  fraction : (∀ n : ℤ, (n : ℚ) ≠ x) → ∃ what, result = some (.error (errTypeMisMatch what))
  outside : ∀ n : ℤ, (n : ℚ) = x →
    n < Integral.toInt (Integral.min : OutT) ∨ Integral.toInt (Integral.max : OutT) < n →
    ∃ what, result = some (.error (errOutOfRange what))
  defined : result ≠ none

section convert
variable {OutT : Type} [Integral OutT] {q : ℚ} {rep : binary64.Representable q}

theorem losslessConvert1_fraction (cut : ∀ n : ℤ, (n : ℚ) ≠ q) :
    losslessConvert1 OutT (.finite q rep) = some (.error (errTypeMisMatch "Conversion loses fraction")) := by
  have left : ((Number.finite q rep).sub (Number.finite q rep).trunc).eq (Number.ofRat 0) = false := by
    rw [← Bool.not_eq_true,Number.sub_trunc_eq_zero]
    exact (cut _).symm
  simp [losslessConvert1,left]

/-- Infinities and not-a-number leave not-a-number when the whole part is subtracted. -/
theorem losslessConvert1_not_finite {x : Double} (special : x.isFinite = false) :
    losslessConvert1 OutT x = some (.error (errTypeMisMatch "Conversion loses fraction")) := by
  cases x with
  | finite => cases special
  | infinite negative => cases negative <;> rfl
  | nan => rfl

/-- The lower limit is a power of two and exact as a double; the upper one is compared rounded. -/
theorem losslessConvert1_whole (least : binary64.Representable (Integral.toInt (Integral.min : OutT)))
    {n : ℤ} (rep : binary64.Representable n) :
    losslessConvert1 OutT (.finite n rep) =
      if n < Integral.toInt (Integral.min : OutT) ∨
          (Number.ofRat (Integral.toInt (Integral.max : OutT))).lt (Number.finite n rep) = true then
        some (.error (errOutOfRange "Converted value to big"))
      else if n ≤ Integral.toInt (Integral.max : OutT) then some (.ok (Integral.ofInt n))
      else none := by
  have same : (Number.finite n rep).trunc = Number.finite n rep := by
    simp [Number.trunc,truncated_intCast]
  have nothing : ((Number.finite n rep).sub (Number.finite n rep)).eq (Number.ofRat 0) = true := by
    have cut := (Number.sub_trunc_eq_zero rep).mpr (by rw [truncated_intCast])
    rwa [same] at cut
  have below : isLess (Number.finite n rep) (Integral.min : OutT) =
      decide (n < Integral.toInt (Integral.min : OutT)) := by
    simp [isLess,ToDouble.toDouble,Integral.toDouble_eq,Number.ofRat_of_representable least,Number.lt]
  have above : isGreater (Number.finite n rep) (Integral.max : OutT) =
      (Number.ofRat (Integral.toInt (Integral.max : OutT))).lt (Number.finite n rep) := by
    simp [isGreater,ToDouble.toDouble,Integral.toDouble_eq]
  simp only [losslessConvert1,same,nothing,below,above,staticCast,truncated_intCast,Bool.not_true,
    Bool.false_eq_true,if_false,Bool.or_eq_true,decide_eq_true_eq]
  split
  · rfl
  · rename_i inside
    have low := not_lt.mp (not_or.mp inside).1
    simp only [low,true_and]
    split <;> rfl

theorem Exact.returned (out : OutT) : Exact OutT (some (.ok out)) (Integral.toInt out) := by
  obtain ⟨low,high⟩ := Integral.range out
  refine ⟨?_,fun cut => absurd rfl (cut _),?_,nofun⟩
  · intro n
    constructor
    · rintro ⟨_,same,rfl⟩
      cases same
      exact ⟨rfl,low,high⟩
    · rintro ⟨same,_⟩
      exact ⟨out,rfl,by exact_mod_cast same.symm⟩
  · intro n same outside
    have : n = Integral.toInt out := by exact_mod_cast same
    omega

theorem Exact.ranged (n : ℤ) (what : String) :
    Exact OutT (if n < Integral.toInt (Integral.min : OutT) ∨ Integral.toInt (Integral.max : OutT) < n then
      some (.error (errOutOfRange what)) else some (.ok (Integral.ofInt n))) n := by
  split
  · rename_i beyond
    refine ⟨?_,fun cut => absurd rfl (cut n),fun _ _ _ => ⟨what,rfl⟩,nofun⟩
    intro m
    constructor
    · rintro ⟨_,returned,_⟩
      cases returned
    · rintro ⟨same,low,high⟩
      have : m = n := by exact_mod_cast same
      omega
  · rename_i inside
    obtain ⟨low,high⟩ := not_or.mp inside
    have value := Integral.toInt_ofInt n (not_lt.mp low) (not_lt.mp high)
    have exactly := Exact.returned (Integral.ofInt n : OutT)
    rwa [value] at exactly

theorem Exact.cut {what : String} (cut : ∀ n : ℤ, (n : ℚ) ≠ q) :
    Exact OutT (some (.error (errTypeMisMatch what))) q := by
  refine ⟨?_,fun _ => ⟨what,rfl⟩,fun n same => absurd same (cut n),nofun⟩
  intro n
  constructor
  · rintro ⟨_,returned,_⟩
    cases returned
  · rintro ⟨same,_⟩
    exact absurd same (cut n)

/-- The conversion is exact where the rounded upper limit separates the integers as the limit itself does. -/
theorem losslessConvert1_exact (least : binary64.Representable (Integral.toInt (Integral.min : OutT)))
    (guard : ∀ n : ℤ, (n : ℚ) = q →
      ((Number.ofRat (Integral.toInt (Integral.max : OutT))).lt (.finite q rep) = true ↔
        Integral.toInt (Integral.max : OutT) < n)) :
    Exact OutT (losslessConvert1 OutT (.finite q rep)) q := by
  by_cases whole : ∃ n : ℤ, (n : ℚ) = q
  · obtain ⟨n,rfl⟩ := whole
    have result := losslessConvert1_whole least rep
    simp only [guard n rfl] at result
    have tested := @Exact.ranged OutT _ n "Converted value to big"
    rw [result]
    split
    · rename_i beyond
      rwa [if_pos beyond] at tested
    · rename_i inside
      rw [if_neg inside] at tested
      rwa [if_pos (not_lt.mp (not_or.mp inside).2)]
  · have cut : ∀ n : ℤ, (n : ℚ) ≠ q := not_exists.mp whole
    rw [losslessConvert1_fraction cut]
    exact Exact.cut cut

end convert

/-- Both operators convert the number that the Value stores exactly, or throw. -/
def ConvertsExactly (v : Value) : Prop :=
  ∀ x, number v = some x → Exact Int32 (operatorInt v) x ∧ Exact Int64 (operatorInt64 v) x

theorem int32_limits : Integral.toInt (Integral.min : Int32) = -2^31 ∧ Integral.toInt (Integral.max : Int32) = 2^31 - 1 :=
  ⟨rfl,rfl⟩

theorem int64_limits : Integral.toInt (Integral.min : Int64) = -2^63 ∧ Integral.toInt (Integral.max : Int64) = 2^63 - 1 :=
  ⟨rfl,rfl⟩

theorem losslessConvert1_int32 {q : ℚ} {rep : binary64.Representable q} :
    Exact Int32 (losslessConvert1 Int32 (.finite q rep)) q := by
  -- both limits are doubles, so that the converted limit is the limit
  have most : binary64.Representable ((2^31 - 1 : ℤ) : ℚ) := ⟨2^31 - 1,0,by decide,by decide,by decide,by simp⟩
  apply losslessConvert1_exact
  · rw [int32_limits.1]
    simpa only [Int.cast_neg,Int.cast_pow,Int.cast_ofNat] using (representable_two_pow (by decide)).neg
  · rintro n rfl
    rw [int32_limits.2,Number.ofRat_of_representable most]
    simp only [Number.lt,decide_eq_true_eq,Int.cast_lt]

theorem losslessConvert1_int64 {q : ℚ} {rep : binary64.Representable q} (other : q ≠ 2^63) :
    Exact Int64 (losslessConvert1 Int64 (.finite q rep)) q := by
  have limit : (Number.ofRat ((2^63 - 1 : ℤ) : ℚ) : Double) = .finite (2^63) (representable_two_pow (by decide)) := by
    rw [← Number.ofRat_of_representable]
    decide +kernel
  apply losslessConvert1_exact
  · rw [int64_limits.1]
    simpa only [Int.cast_neg,Int.cast_pow,Int.cast_ofNat] using (representable_two_pow (by decide)).neg
  · rintro n rfl
    have apart : n ≠ 2^63 := by
      rintro rfl
      exact other (by norm_num)
    rw [int64_limits.2,limit]
    have order : (2^63 : ℚ) < n ↔ 2^63 < n := by exact_mod_cast Int.cast_lt (R := ℚ)
    simp only [Number.lt,decide_eq_true_eq,order]
    omega

/-- 2^63 passes the range test and no int64 holds it. -/
theorem losslessConvert1_limit : losslessConvert1 Int64 (Number.ofRat (2^63)) = none := by
  rw [← Option.isNone_iff_eq_none]
  decide +kernel

theorem operatorInt_exact {v : Value} {x : ℚ} (numeric : number v = some x) : Exact Int32 (operatorInt v) x := by
  cases v with
  | int intval =>
    cases numeric
    exact Exact.ranged intval.toInt "Implicit conversion int64_t to int, value to big"
  | real realval =>
    cases realval with
    | finite q rep =>
      cases numeric
      exact losslessConvert1_int32
    | infinite | nan => cases numeric
  | null | text | blob => cases numeric

theorem limit_eq : (Number.ofRat (2^63) : Double) = .finite (2^63) (representable_two_pow (by decide)) :=
  Number.ofRat_of_representable _

theorem not_exact_limit : ¬ ConvertsExactly (real (Number.ofRat (2^63))) := by
  intro exactly
  have numeric : number (real (Number.ofRat (2^63))) = some (2^63) := by
    rw [limit_eq]
    rfl
  exact (exactly _ numeric).2.defined losslessConvert1_limit

theorem operatorInt64_exact {v : Value} {x : ℚ} (numeric : number v = some x)
    (other : v ≠ real (Number.ofRat (2^63))) : Exact Int64 (operatorInt64 v) x := by
  cases v with
  | int intval =>
    cases numeric
    exact Exact.returned intval
  | real realval =>
    cases realval with
    | finite q rep =>
      cases numeric
      apply losslessConvert1_int64
      rintro rfl
      exact other (by rw [limit_eq])
    | infinite | nan => cases numeric
  | null | text | blob => cases numeric

/-- The cast is applied outside its range for this content alone, be it a number or not. -/
theorem operatorInt64_undefined_iff (v : Value) :
    operatorInt64 v = none ↔ v = real (Number.ofRat (2^63)) := by
  constructor
  · intro undefined
    by_contra other
    cases numeric : number v with
    | some x => exact (operatorInt64_exact numeric other).defined undefined
    | none =>
      cases v with
      | real realval =>
        have special : realval.isFinite = false := by
          cases realval with
          | finite => cases numeric
          | infinite | nan => rfl
        rw [operatorInt64,losslessConvert1_not_finite special] at undefined
        cases undefined
      | int => cases numeric
      | null | text | blob => cases undefined
  · rintro rfl
    exact losslessConvert1_limit

/-- Converting to an integer is exact or throws for every number but 2^63, the double that the
largest int64 is rounded to. -/
theorem convertsExactly_iff (v : Value) : ConvertsExactly v ↔ v ≠ real (Number.ofRat (2^63)) := by
  constructor
  · rintro exactly rfl
    exact not_exact_limit exactly
  · intro other x numeric
    exact ⟨operatorInt_exact numeric,operatorInt64_exact numeric other⟩

theorem not_convertsExactly_limit : operatorInt64 (real (Number.ofRat (2^63))) = none ∧
    ¬ ConvertsExactly (real (Number.ofRat (2^63))) :=
  ⟨losslessConvert1_limit,not_exact_limit⟩

/-- An integer that becomes a Real returns as it was, or one of the two conversions throws. -/
def KeepsNumber (n : Int64) : Prop := ∀ realval, operatorDouble (int n) = .ok realval →
  operatorInt64 (real realval) = some (.ok n) ∨ ∃ e, operatorInt64 (real realval) = some (.error e)

theorem int64_abs_le (n : Int64) : |(n.toInt : ℚ)| ≤ 2^63 := by
  obtain ⟨low,high⟩ := Integral.range n
  rw [int64_limits.1] at low
  rw [int64_limits.2] at high
  have bound : |n.toInt| ≤ 2^63 := abs_le.mpr ⟨low,high.trans (by norm_num)⟩
  exact_mod_cast bound

theorem ofInt64_whole (n : Int64) : ∃ (m : ℤ) (rep : binary64.Representable m),
    Double.ofInt64 n = .finite m rep ∧ binary64.rounded n.toInt = m ∧ |m| ≤ 2^63 := by
  obtain ⟨m,whole⟩ := binary64.rounded_intCast n.toInt
  have top : binary64.Representable (2^63) := representable_two_pow (by norm_num)
  have size := top.rounded_abs_le (int64_abs_le n)
  have below := size.trans_lt ((le_abs_self _).trans_lt top.abs_lt_limit)
  have rep := binary64.rounded_representable below
  have finite : Double.ofInt64 n = .finite _ rep := Number.ofRat_finite below
  simp only [whole] at finite size rep
  exact ⟨m,rep,finite,whole,by exact_mod_cast size⟩

theorem operatorInt64_whole {m : ℤ} (rep : binary64.Representable m) (size : |m| ≤ 2^63) (other : m ≠ 2^63) :
    ∃ out : Int64, operatorInt64 (real (.finite m rep)) = some (.ok out) ∧ out.toInt = m := by
  obtain ⟨low,high⟩ := abs_le.mp size
  have apart : (m : ℚ) ≠ 2^63 := fun same => other (by exact_mod_cast same)
  have exactly : Exact Int64 (operatorInt64 (real (.finite m rep))) m := losslessConvert1_int64 apart
  apply (exactly.returns m).mpr
  rw [int64_limits.1,int64_limits.2]
  exact ⟨rfl,low,by omega⟩

theorem toInt_lt_limit (n : Int64) : n.toInt < 2^63 := by
  have high := (Integral.range n).2
  rw [int64_limits.2] at high
  exact Int.lt_of_le_sub_one high

theorem keepsNumber_iff_representable (n : Int64) : KeepsNumber n ↔ binary64.Representable n.toInt := by
  obtain ⟨m,rep,finite,rounded,size⟩ := ofInt64_whole n
  have converted : operatorDouble (int n) = .ok (.finite m rep) := congrArg Except.ok finite
  have same : binary64.Representable n.toInt ↔ m = n.toInt := by
    constructor
    · intro whole
      exact_mod_cast rounded.symm.trans (binary64.rounded_of_representable whole)
    · rintro rfl
      exact rep
  rw [same]
  by_cases limit : m = 2^63
  · subst limit
    have undefined : operatorInt64 (real (.finite (2^63 : ℤ) rep)) = none := by
      rw [operatorInt64_undefined_iff,limit_eq]
      congr 2
    refine iff_of_false (fun keeps => ?_) (toInt_lt_limit n).ne'
    rcases keeps _ converted with returned | ⟨e,thrown⟩
    · cases undefined.symm.trans returned
    · cases undefined.symm.trans thrown
  · obtain ⟨out,returned,value⟩ := operatorInt64_whole rep size limit
    constructor
    · intro keeps
      rcases keeps _ converted with back | ⟨e,thrown⟩
      · cases returned.symm.trans back
        exact value.symm
      · cases returned.symm.trans thrown
    · intro kept realval made
      cases converted.symm.trans made
      rw [returned,Int64.toInt_inj.mp (value.trans kept)]
      exact .inl rfl

/-- The number is kept exactly where 53 bits hold it, up to a power of two. -/
theorem keepsNumber_iff (n : Int64) : KeepsNumber n ↔ ∃ (m : ℤ) (k : ℕ), |m| < 2^53 ∧ n.toInt = m * 2^k := by
  rw [keepsNumber_iff_representable]
  apply binary64.representable_intCast_iff (by norm_num [binary64])
  refine (int64_abs_le n).trans ?_
  rw [← zpow_natCast]
  exact zpow_le_zpow_right₀ one_le_two (by norm_num [binary64])

/-- One comes back as another integer, and for the largest one the way back is undefined. -/
theorem keepsNumber_fails :
    (operatorDouble (int (2^53 + 1)) = .ok (Number.ofRat (2^53)) ∧
      operatorInt64 (real (Number.ofRat (2^53))) = some (.ok (2^53)) ∧ ¬ KeepsNumber (2^53 + 1)) ∧
    operatorDouble (int Int64.maxValue) = .ok (Number.ofRat (2^63)) ∧
      operatorInt64 (real (Number.ofRat (2^63))) = none ∧ ¬ KeepsNumber Int64.maxValue := by
  have rounded : operatorDouble (int (2^53 + 1)) = .ok (Number.ofRat (2^53)) := congrArg Except.ok (by decide +kernel)
  have changed : operatorInt64 (real (Number.ofRat (2^53))) = some (.ok (2^53)) := by decide +kernel
  have beyond : operatorDouble (int Int64.maxValue) = .ok (Number.ofRat (2^63)) := congrArg Except.ok (by decide +kernel)
  refine ⟨⟨rounded,changed,fun keeps => ?_⟩,beyond,losslessConvert1_limit,fun keeps => ?_⟩
  · rcases keeps _ rounded with returned | ⟨e,thrown⟩
    · cases changed.symm.trans returned
    · cases changed.symm.trans thrown
  · rcases keeps _ beyond with returned | ⟨e,thrown⟩
    · cases losslessConvert1_limit.symm.trans returned
    · cases losslessConvert1_limit.symm.trans thrown

end Sl3.Conversion
