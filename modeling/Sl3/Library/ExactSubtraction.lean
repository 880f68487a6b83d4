import Sl3.Library.NearestEven

/-! Differences of representable numbers that are exact: those of numbers near each other, and
those that are small. What rounding does to the size of a number. -/
namespace Sl3.Library.NearestEven.Format
variable {F : Format} {q r x : ℚ}

theorem Representable.le_rounded_abs (rep : F.Representable q) (le : q ≤ |x|) : q ≤ |F.rounded x| := by
  have kept := F.rounded_mono le
  rwa [F.rounded_of_representable rep,rounded_abs] at kept

theorem Representable.rounded_abs_le (rep : F.Representable q) (le : |x| ≤ q) : |F.rounded x| ≤ q := by
  have kept := F.rounded_mono le
  rwa [F.rounded_of_representable rep,rounded_abs] at kept

/-- The difference of two numbers is a multiple of the finer of their units, and exact when it is no
more than a full significand of these. -/
theorem rounded_sub_scaled {m n e f : ℤ} (finer : e ≤ f) (low : F.minExponent ≤ e)
    (small : |(m : ℚ) * 2^e - n * 2^f| < 2^F.precision * 2^e) :
    F.rounded (m * 2^e - n * 2^f) = m * 2^e - n * 2^f := by
  have whole : (m : ℚ) * 2^e - n * 2^f = ((m - n * 2^(f - e).toNat : ℤ) : ℚ) * 2^e := by
    rw [zpow_eq_mul_zpow finer]
    push_cast
    ring
  rw [whole] at small ⊢
  rw [abs_mul,abs_of_pos (two_zpow_pos e)] at small
  have significand := lt_of_mul_lt_mul_right small (two_zpow_pos e).le
  exact F.rounded_of_scaled (by exact_mod_cast significand) low rfl

/-- Numbers are near each other when their difference is no larger than either. -/
theorem rounded_sub_near (hq : F.Representable q) (hr : F.Representable r) (left : |q - r| ≤ |q|) (right : |q - r| ≤ |r|) :
    F.rounded (q - r) = q - r := by
  obtain ⟨m,e,small,low,_,rfl⟩ := hq
  obtain ⟨n,f,small',low',_,rfl⟩ := hr
  have bounded {k g : ℤ} (fits : |k| < 2^F.precision) : |(k : ℚ) * 2^g| < 2^F.precision * 2^g := by
    rw [abs_mul,abs_of_pos (two_zpow_pos g)]
    exact mul_lt_mul_of_pos_right (by exact_mod_cast fits) (two_zpow_pos g)
  rcases le_total e f with finer | coarser
  · exact rounded_sub_scaled finer low (left.trans_lt (bounded small))
  · rw [abs_sub_comm] at right
    have mirrored := rounded_sub_scaled coarser low' (right.trans_lt (bounded small'))
    rw [← neg_sub,rounded_neg,mirrored]

theorem rounded_sub_small (hq : F.Representable q) (hr : F.Representable r)
    (small : |q - r| < 2^(F.precision + F.minExponent)) : F.rounded (q - r) = q - r := by
  obtain ⟨m,e,_,low,_,rfl⟩ := hq
  obtain ⟨n,f,_,low',_,rfl⟩ := hr
  have unit : (m : ℚ) * 2^e = ((m * 2^(e - F.minExponent).toNat : ℤ) : ℚ) * 2^F.minExponent := by
    rw [zpow_eq_mul_zpow low]
    push_cast
    ring
  rw [zpow_add₀ two_ne_zero,zpow_natCast] at small
  rw [unit] at small ⊢
  exact rounded_sub_scaled low' le_rfl small

/-- Above the smallest unit rounding does not double a number. -/
theorem rounded_le_two_mul (large : 2^F.minExponent ≤ x) : F.rounded x ≤ 2 * x := by
  have positive : 0 < x := (two_zpow_pos _).trans_le large
  have below : (2 : ℚ)^(Int.log 2 x) ≤ x := by exact_mod_cast Int.zpow_log_le_self (by norm_num) positive
  have above : x < 2^(Int.log 2 x + 1) := Int.lt_zpow_succ_log_self (by norm_num) x
  have unit : F.minExponent < Int.log 2 x + 1 := (zpow_lt_zpow_iff_right₀ one_lt_two).mp (large.trans_lt above)
  have grid : F.exponent x ≤ Int.log 2 x + 1 := by
    have := F.precision_pos
    simp only [exponent,abs_of_pos positive]
    omega
  calc F.rounded x ≤ 2^(Int.log 2 x + 1) := F.rounded_le_zpow grid above.le
    _ = 2 * 2^(Int.log 2 x) := by rw [zpow_add₀ two_ne_zero]; ring
    _ ≤ 2 * x := by linarith

end Sl3.Library.NearestEven.Format
