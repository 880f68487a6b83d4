import Sl3.Library.Binary

/-! Rounding towards zero. The integer and the fraction that is cut off are numbers of
the format again, so that subtracting the one from the whole is exact. -/
namespace Sl3.Library

namespace NearestEven

def truncated (x : ℚ) : ℤ := if 0 ≤ x then ⌊x⌋ else ⌈x⌉

theorem truncated_intCast (n : ℤ) : truncated n = n := by
  unfold truncated
  split <;> simp

/-- The integer lies between the number and zero. -/
theorem truncated_between (x : ℚ) : 0 ≤ truncated x ∧ truncated x ≤ x ∨ x ≤ truncated x ∧ truncated x ≤ 0 := by
  unfold truncated
  split
  · rename_i nonneg
    exact .inl ⟨Int.floor_nonneg.mpr nonneg,Int.floor_le x⟩
  · rename_i negative
    have below : x ≤ 0 := (not_le.mp negative).le
    exact .inr ⟨Int.le_ceil x,Int.ceil_le.mpr (by simpa using below)⟩

theorem truncated_mono {x y : ℚ} (le : x ≤ y) : truncated x ≤ truncated y := by
  unfold truncated
  split_ifs with left right right
  · exact Int.floor_le_floor le
  · exact absurd (left.trans le) right
  · have below : ⌈x⌉ ≤ 0 := Int.ceil_le.mpr (by simpa using (not_le.mp left).le)
    exact below.trans (Int.floor_nonneg.mpr right)
  · exact Int.ceil_le_ceil le

theorem truncated_le {x : ℚ} {n : ℤ} (le : x ≤ n) : truncated x ≤ n := by
  simpa only [truncated_intCast] using truncated_mono le

theorem le_truncated {x : ℚ} {n : ℤ} (le : (n : ℚ) ≤ x) : n ≤ truncated x := by
  simpa only [truncated_intCast] using truncated_mono le

theorem abs_truncated_le (x : ℚ) : |(truncated x : ℚ)| ≤ |x| := by
  rcases truncated_between x with ⟨low,high⟩ | ⟨low,high⟩
  · have nonneg : (0 : ℚ) ≤ truncated x := by exact_mod_cast low
    exact abs_le_abs_of_nonneg nonneg high
  · have nonpos : (truncated x : ℚ) ≤ 0 := by exact_mod_cast high
    exact abs_le_abs_of_nonpos nonpos low

theorem abs_fraction_le (x : ℚ) : |x - truncated x| ≤ |x| := by
  rcases truncated_between x with ⟨low,high⟩ | ⟨low,high⟩
  · have nonneg : (0 : ℚ) ≤ truncated x := by exact_mod_cast low
    rw [abs_of_nonneg (sub_nonneg.mpr high),abs_of_nonneg (nonneg.trans high)]
    linarith
  · have nonpos : (truncated x : ℚ) ≤ 0 := by exact_mod_cast high
    rw [abs_of_nonpos (sub_nonpos.mpr low),abs_of_nonpos (low.trans nonpos)]
    linarith

namespace Format.Representable
variable {F : Format} {q : ℚ}

/-- The multiples of the unit of a number that are no larger than it are numbers of the format. -/
theorem of_abs_le {m e k : ℤ} (small : |m| < 2^F.precision) (low : F.minExponent ≤ e) (high : e ≤ F.maxExponent)
    (le : |(k : ℚ) * 2^e| ≤ |(m : ℚ) * 2^e|) : F.Representable (k * 2^e) := by
  refine ⟨k,e,lt_of_le_of_lt ?_ small,low,high,rfl⟩
  rw [abs_mul,abs_mul] at le
  exact_mod_cast le_of_mul_le_mul_right le (abs_pos.mpr (two_zpow_pos e).ne')

/-- A number of the format is an integer, or its truncation is a multiple of its unit. -/
theorem grid (rep : F.Representable q) : q = truncated q ∨ ∃ m k e : ℤ, |m| < 2^F.precision ∧
    F.minExponent ≤ e ∧ e ≤ F.maxExponent ∧ q = m * 2^e ∧ (truncated q : ℚ) = k * 2^e := by
  obtain ⟨m,e,small,low,high,value⟩ := rep
  rcases le_or_gt 0 e with whole | fine
  · left
    have cast : q = ((m * 2^e.toNat : ℤ) : ℚ) := by
      rw [value]
      push_cast
      rw [← zpow_natCast,Int.toNat_of_nonneg whole]
    rw [cast,truncated_intCast]
  · refine .inr ⟨m,truncated q * 2^(-e).toNat,e,small,low,high,value,?_⟩
    push_cast
    rw [← zpow_natCast,Int.toNat_of_nonneg (by omega),mul_assoc,← zpow_add₀ two_ne_zero]
    simp

/-- No number lies strictly between the largest one with a unit of `2^k` and the next power of two. -/
theorem gap {k : ℤ} (rep : F.Representable q) (above : ((2^F.precision - 1 : ℤ) : ℚ) * 2^k < q) :
    (2 : ℚ)^F.precision * 2^k ≤ q := by
  obtain ⟨m,e,small,_,_,value⟩ := rep
  have bound := (abs_lt.mp small).2
  rcases le_or_gt e k with fine | coarse
  · exfalso
    have split := zpow_eq_mul_zpow fine
    have most : (m : ℚ) ≤ ((2^F.precision - 1 : ℤ) : ℚ) := by exact_mod_cast Int.le_sub_one_of_lt bound
    have some : (0 : ℚ) ≤ ((2^F.precision - 1 : ℤ) : ℚ) := by
      have one : (1 : ℤ) ≤ 2^F.precision := one_le_pow₀ one_le_two
      exact_mod_cast sub_nonneg.mpr one
    have le : q ≤ ((2^F.precision - 1 : ℤ) : ℚ) * 2^k :=
      calc q = m * 2^e := value
        _ ≤ ((2^F.precision - 1 : ℤ) : ℚ) * 2^e := mul_le_mul_of_nonneg_right most (two_zpow_pos e).le
        _ ≤ _ := mul_le_mul_of_nonneg_left (zpow_le_zpow_right₀ one_le_two fine) some
    exact absurd above (not_lt.mpr le)
  · have scaled : q = ((m * 2^(e - k).toNat : ℤ) : ℚ) * 2^k := by
      rw [value,zpow_eq_mul_zpow coarse.le]
      push_cast
      ring
    rw [scaled] at above ⊢
    have whole := lt_of_mul_lt_mul_right above (two_zpow_pos k).le
    have next : 2^F.precision ≤ m * 2^(e - k).toNat := by
      have order : (2^F.precision - 1 : ℤ) < m * 2^(e - k).toNat := by exact_mod_cast whole
      exact Int.sub_one_lt_iff.mp order
    have cast : (2 : ℚ)^F.precision ≤ ((m * 2^(e - k).toNat : ℤ) : ℚ) := by exact_mod_cast next
    exact mul_le_mul_of_nonneg_right cast (two_zpow_pos k).le

theorem truncated (rep : F.Representable q) : F.Representable (truncated q) := by
  rcases rep.grid with whole | ⟨m,k,e,small,low,high,value,unit⟩
  · rwa [← whole]
  · rw [unit]
    apply of_abs_le small low high
    rw [← unit,← value]
    exact abs_truncated_le q

theorem fraction (rep : F.Representable q) : F.Representable (q - NearestEven.truncated q) := by
  rcases rep.grid with whole | ⟨m,k,e,small,low,high,value,unit⟩
  · rw [← whole,sub_self]
    exact ⟨0,F.minExponent,by simp,le_rfl,F.ordered,by simp⟩
  · have cut : q - NearestEven.truncated q = ((m - k : ℤ) : ℚ) * 2^e := by
      rw [unit,value]
      push_cast
      ring
    rw [cut]
    apply of_abs_le small low high
    rw [← cut,← value]
    exact abs_fraction_le q

end Format.Representable
end NearestEven

namespace Binary.Number
open NearestEven
variable {F : Format} {q : ℚ}

def trunc : Number F → Number F
  | .finite q representable => .finite (truncated q) representable.truncated
  | .infinite negative => .infinite negative
  | .nan => .nan

theorem sub_trunc (rep : F.Representable q) :
    sub (.finite q rep) (trunc (.finite q rep)) = .finite (q - truncated q) rep.fraction := by
  rw [trunc,sub_finite,ofRat_of_representable]

/-- Nothing is cut off exactly when the number is an integer; otherwise the rest is not zero. -/
theorem sub_trunc_eq_zero (rep : F.Representable q) :
    (sub (.finite q rep) (trunc (.finite q rep))).eq (ofRat 0) = true ↔ q = truncated q := by
  have zero : F.Representable 0 := ⟨0,F.minExponent,by simp,le_rfl,F.ordered,by simp⟩
  rw [sub_trunc,ofRat_of_representable zero]
  simp [eq,sub_eq_zero]

end Binary.Number
end Sl3.Library
