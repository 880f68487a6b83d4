import Mathlib.Data.Int.Log
import Mathlib.Data.Rat.Floor
import Mathlib.Tactic.Linarith
import Mathlib.Tactic.Ring
import Mathlib.Tactic.FieldSimp
import Mathlib.Tactic.NormNum

/-! Round-to-nearest-even of exact rationals to a binary format of given
precision and exponent range. Overflow is not decided here: `rounded` has an
unbounded exponent upwards, and `Format.limit` is the first power it must stay below. -/
namespace Sl3.Library.NearestEven

/-- The integer nearest to a rational, the even one of two equally near. -/
def nearest (x : ℚ) : ℤ :=
  if x - ⌊x⌋ < 1/2 then ⌊x⌋
  else if 1/2 < x - ⌊x⌋ then ⌊x⌋ + 1
  else if ⌊x⌋ % 2 = 0 then ⌊x⌋ else ⌊x⌋ + 1

theorem nearest_intCast (n : ℤ) : nearest n = n := by
  simp [nearest]

theorem floor_le_nearest (x : ℚ) : ⌊x⌋ ≤ nearest x := by
  unfold nearest
  split_ifs <;> omega

theorem nearest_le_floor_succ (x : ℚ) : nearest x ≤ ⌊x⌋ + 1 := by
  unfold nearest
  split_ifs <;> omega

theorem nearest_mono {x y : ℚ} (le : x ≤ y) : nearest x ≤ nearest y := by
  rcases (Int.floor_mono le).lt_or_eq with below | same
  · have step : ⌊x⌋ + 1 ≤ ⌊y⌋ := below
    exact (nearest_le_floor_succ x).trans (step.trans (floor_le_nearest y))
  · unfold nearest
    rw [same]
    have shift : x - (⌊y⌋ : ℚ) ≤ y - ⌊y⌋ := by linarith
    split_ifs <;> first | omega | (exfalso; linarith)

theorem nearest_le_of_le {x : ℚ} {n : ℤ} (le : x ≤ n) : nearest x ≤ n := by
  simpa only [nearest_intCast] using nearest_mono le

theorem le_nearest_of_le {x : ℚ} {n : ℤ} (le : (n : ℚ) ≤ x) : n ≤ nearest x := by
  simpa only [nearest_intCast] using nearest_mono le

theorem nearest_neg (x : ℚ) : nearest (-x) = -nearest x := by
  by_cases whole : (⌊x⌋ : ℚ) = x
  · rw [← whole,← Int.cast_neg,nearest_intCast,nearest_intCast]
  · have low := lt_of_le_of_ne (Int.floor_le x) whole
    have high := Int.lt_floor_add_one x
    have flipped : ⌊-x⌋ = -⌊x⌋ - 1 := by
      rw [Int.floor_eq_iff]
      push_cast
      constructor <;> linarith
    unfold nearest
    rw [flipped]
    push_cast
    -- the two fractions add up to one, so a tie flips to a tie of the other parity
    split_ifs <;> first | omega | (exfalso; linarith)

/-- A binary format: significands of `precision` bits, scaled by `2^e` for the
exponents `e` from `minExponent` to `maxExponent`. -/
structure Format where
  precision : ℕ
  minExponent : ℤ
  maxExponent : ℤ
  precision_pos : 0 < precision
  ordered : minExponent ≤ maxExponent

namespace Format
variable (F : Format)

def Representable (q : ℚ) : Prop :=
  ∃ m e : ℤ, |m| < 2^F.precision ∧ F.minExponent ≤ e ∧ e ≤ F.maxExponent ∧ q = m * 2^e

def limit : ℚ := 2^(F.maxExponent + F.precision)

variable {F} in
theorem Representable.neg {q : ℚ} (rep : F.Representable q) : F.Representable (-q) := by
  obtain ⟨m,e,small,low,high,value⟩ := rep
  exact ⟨-m,e,by rwa [abs_neg],low,high,by rw [value]; push_cast; ring⟩

variable {F} in
theorem Representable.abs {q : ℚ} (rep : F.Representable q) : F.Representable |q| := by
  rcases abs_choice q with same | flipped
  · rwa [same]
  · rw [flipped]
    exact rep.neg

def exponent (x : ℚ) : ℤ := max F.minExponent (Int.log 2 |x| - (F.precision - 1))

def rounded (x : ℚ) : ℚ := nearest (x / 2^F.exponent x) * 2^F.exponent x

theorem two_zpow_pos (e : ℤ) : (0 : ℚ) < 2^e := zpow_pos two_pos e

variable {F} in
theorem Representable.abs_lt_limit {q : ℚ} (rep : F.Representable q) : |q| < F.limit := by
  obtain ⟨m,e,small,_,high,value⟩ := rep
  rw [value,abs_mul,abs_of_pos (two_zpow_pos e),limit,add_comm,zpow_add₀ two_ne_zero,zpow_natCast]
  calc |(m : ℚ)| * 2^e < 2^F.precision * 2^e :=
        mul_lt_mul_of_pos_right (by exact_mod_cast small) (two_zpow_pos e)
    _ ≤ 2^F.precision * 2^F.maxExponent :=
        mul_le_mul_of_nonneg_left (zpow_le_zpow_right₀ one_le_two high) (by positivity)

theorem zpow_eq_mul_zpow {k e : ℤ} (le : k ≤ e) :
    (2 : ℚ)^e = (2^(e - k).toNat : ℤ) * 2^k := by
  push_cast
  rw [← zpow_natCast,← zpow_add₀ two_ne_zero]
  congr 1
  omega

theorem minExponent_le_exponent (x : ℚ) : F.minExponent ≤ F.exponent x := le_max_left _ _

theorem exponent_neg (x : ℚ) : F.exponent (-x) = F.exponent x := by
  simp [exponent]

theorem rounded_neg (x : ℚ) : F.rounded (-x) = -F.rounded x := by
  unfold rounded
  rw [exponent_neg,neg_div,nearest_neg]
  push_cast
  ring

theorem rounded_zero : F.rounded 0 = 0 := by
  have zero : nearest 0 = 0 := by simpa using nearest_intCast 0
  simp [rounded,zero]

theorem exponent_mono {x y : ℚ} (pos : 0 < x) (le : x ≤ y) : F.exponent x ≤ F.exponent y := by
  have log : Int.log 2 |x| ≤ Int.log 2 |y| := by
    rw [abs_of_pos pos,abs_of_pos (pos.trans_le le)]
    exact Int.log_mono_right pos le
  unfold exponent
  omega

theorem zpow_le_rounded {x : ℚ} {e : ℤ} (grid : F.exponent x ≤ e) (le : (2 : ℚ)^e ≤ x) :
    (2 : ℚ)^e ≤ F.rounded x := by
  have split := zpow_eq_mul_zpow grid
  have scaled : ((2^(e - F.exponent x).toNat : ℤ) : ℚ) ≤ x / 2^F.exponent x := by
    rw [le_div_iff₀ (two_zpow_pos _),← split]
    exact le
  rw [split]
  exact mul_le_mul_of_nonneg_right (by exact_mod_cast le_nearest_of_le scaled) (two_zpow_pos _).le

theorem rounded_le_zpow {x : ℚ} {e : ℤ} (grid : F.exponent x ≤ e) (le : x ≤ (2 : ℚ)^e) :
    F.rounded x ≤ 2^e := by
  have split := zpow_eq_mul_zpow grid
  have scaled : x / 2^F.exponent x ≤ ((2^(e - F.exponent x).toNat : ℤ) : ℚ) := by
    rw [div_le_iff₀ (two_zpow_pos _),← split]
    exact le
  rw [split]
  exact mul_le_mul_of_nonneg_right (by exact_mod_cast nearest_le_of_le scaled) (two_zpow_pos _).le

theorem rounded_nonneg {x : ℚ} (nonneg : 0 ≤ x) : 0 ≤ F.rounded x := by
  have scaled : ((0 : ℤ) : ℚ) ≤ x / 2^F.exponent x := by
    simpa using div_nonneg nonneg (two_zpow_pos _).le
  exact mul_nonneg (by exact_mod_cast le_nearest_of_le scaled) (two_zpow_pos _).le

theorem rounded_abs (x : ℚ) : F.rounded |x| = |F.rounded x| := by
  rcases abs_cases x with ⟨eq,sign⟩ | ⟨eq,sign⟩
  · rw [eq,abs_of_nonneg (F.rounded_nonneg sign)]
  · have flipped := F.rounded_nonneg (neg_nonneg.mpr sign.le)
    rw [rounded_neg] at flipped
    rw [eq,rounded_neg,abs_of_nonpos (neg_nonneg.mp flipped)]

private theorem rounded_mono_pos {x y : ℚ} (pos : 0 < x) (le : x ≤ y) :
    F.rounded x ≤ F.rounded y := by
  rcases (F.exponent_mono pos le).lt_or_eq with below | same
  · -- different binades: the power of two between them separates the results
    have ypos := pos.trans_le le
    have xhigh : x < 2^(Int.log 2 x + 1) := Int.lt_zpow_succ_log_self (by norm_num) x
    have ylow : (2 : ℚ)^(Int.log 2 y) ≤ y := by exact_mod_cast Int.zpow_log_le_self (by norm_num) ypos
    have xgrid : F.exponent x ≤ Int.log 2 y := by
      have := F.precision_pos
      simp only [exponent,abs_of_pos pos,abs_of_pos ypos] at below ⊢
      omega
    have gap : Int.log 2 x + 1 ≤ Int.log 2 y := by
      simp only [exponent,abs_of_pos pos,abs_of_pos ypos] at below
      omega
    have ygrid : F.exponent y ≤ Int.log 2 y := by
      have := F.precision_pos
      simp only [exponent,abs_of_pos pos,abs_of_pos ypos] at below ⊢
      omega
    have middle : x ≤ 2^(Int.log 2 y) :=
      xhigh.le.trans (zpow_le_zpow_right₀ one_le_two gap)
    exact (F.rounded_le_zpow xgrid middle).trans (F.zpow_le_rounded ygrid ylow)
  · unfold rounded
    rw [same]
    have scaled := div_le_div_of_nonneg_right le (two_zpow_pos (F.exponent y)).le
    exact mul_le_mul_of_nonneg_right (by exact_mod_cast nearest_mono scaled) (two_zpow_pos _).le

theorem rounded_mono {x y : ℚ} (le : x ≤ y) : F.rounded x ≤ F.rounded y := by
  rcases lt_or_ge 0 x with xpos | xneg
  · exact F.rounded_mono_pos xpos le
  rcases lt_or_ge y 0 with yneg | ypos
  · have mirrored := F.rounded_mono_pos (neg_pos.mpr yneg) (neg_le_neg le)
    rw [rounded_neg,rounded_neg] at mirrored
    exact neg_le_neg_iff.mp mirrored
  · have low := F.rounded_nonneg (neg_nonneg.mpr xneg)
    rw [rounded_neg] at low
    exact (neg_nonneg.mp low).trans (F.rounded_nonneg ypos)

theorem rounded_of_scaled {q : ℚ} {m e : ℤ} (small : |m| < 2^F.precision)
    (low : F.minExponent ≤ e) (value : q = m * 2^e) : F.rounded q = q := by
  by_cases zero : q = 0
  · rw [zero,rounded_zero]
  have bound : |q| < 2^(F.precision + e) := by
    rw [value,abs_mul,abs_of_pos (two_zpow_pos e),zpow_add₀ two_ne_zero]
    exact mul_lt_mul_of_pos_right (by exact_mod_cast small) (two_zpow_pos e)
  have log : Int.log 2 |q| < F.precision + e := by
    have below : (2 : ℚ)^(Int.log 2 |q|) ≤ |q| := by
      exact_mod_cast Int.zpow_log_le_self (b := 2) (by norm_num) (abs_pos.mpr zero)
    exact (zpow_lt_zpow_iff_right₀ one_lt_two).mp (below.trans_lt bound)
  have grid : F.exponent q ≤ e := by
    unfold exponent
    omega
  have scaled : q / 2^F.exponent q = ((m * 2^(e - F.exponent q).toNat : ℤ) : ℚ) := by
    rw [div_eq_iff (two_zpow_pos _).ne',Int.cast_mul,mul_assoc,← zpow_eq_mul_zpow grid]
    exact value
  unfold rounded
  rw [scaled,nearest_intCast,← scaled,div_mul_cancel₀ _ (two_zpow_pos _).ne']

/-- The rounded significand can reach the full power of two, but not exceed it. -/
theorem nearest_scaled_le (x : ℚ) :
    |nearest (x / 2^F.exponent x)| ≤ 2^F.precision := by
  have high : |x| < 2^(Int.log 2 |x| + 1) := Int.lt_zpow_succ_log_self (by norm_num) _
  have top : |x| ≤ (2^F.precision : ℤ) * 2^F.exponent x := by
    push_cast
    rw [← zpow_natCast,← zpow_add₀ two_ne_zero]
    refine high.le.trans (zpow_le_zpow_right₀ one_le_two ?_)
    unfold exponent
    omega
  have scaled : |x / 2^F.exponent x| ≤ ((2^F.precision : ℤ) : ℚ) := by
    rw [abs_div,abs_of_pos (two_zpow_pos _),div_le_iff₀ (two_zpow_pos _)]
    exact top
  obtain ⟨low,up⟩ := abs_le.mp scaled
  refine abs_le.mpr ⟨?_,nearest_le_of_le up⟩
  exact le_nearest_of_le (by exact_mod_cast low)

theorem exponent_le_of_rounded_lt {x : ℚ} (nonzero : x ≠ 0) (below : |F.rounded x| < F.limit) :
    F.exponent x ≤ F.maxExponent := by
  by_contra above
  have binade : F.exponent x ≤ Int.log 2 |x| ∧ F.maxExponent + F.precision ≤ Int.log 2 |x| := by
    have := F.ordered
    have := F.precision_pos
    unfold exponent at above ⊢
    omega
  have size : (2 : ℚ)^(Int.log 2 |x|) ≤ |x| := by
    exact_mod_cast Int.zpow_log_le_self (b := 2) (by norm_num) (abs_pos.mpr nonzero)
  have kept : (2 : ℚ)^(Int.log 2 |x|) ≤ F.rounded |x| := by
    refine F.zpow_le_rounded ?_ size
    simpa [exponent] using binade.1
  rw [rounded_abs] at kept
  have large : F.limit ≤ 2^(Int.log 2 |x|) := zpow_le_zpow_right₀ one_le_two binade.2
  exact absurd below (not_lt.mpr (large.trans kept))

theorem rounded_representable {x : ℚ} (below : |F.rounded x| < F.limit) :
    F.Representable (F.rounded x) := by
  by_cases zero : x = 0
  · rw [zero,rounded_zero]
    exact ⟨0,F.minExponent,by simp,le_rfl,F.ordered,by simp⟩
  have range := F.exponent_le_of_rounded_lt zero below
  rcases (F.nearest_scaled_le x).lt_or_eq with small | full
  · exact ⟨_,_,small,F.minExponent_le_exponent x,range,rfl⟩
  · -- the significand carried over: halve it and take the next exponent
    have carried : |F.rounded x| = 2^(F.exponent x + F.precision) := by
      unfold rounded
      rw [abs_mul,abs_of_pos (two_zpow_pos _),← Int.cast_abs,full,zpow_add₀ two_ne_zero]
      push_cast
      rw [zpow_natCast,mul_comm]
    have room : F.exponent x < F.maxExponent := by
      rw [carried] at below
      have := (zpow_lt_zpow_iff_right₀ one_lt_two).mp below
      omega
    obtain ⟨p,hp⟩ := Nat.exists_eq_succ_of_ne_zero F.precision_pos.ne'
    have half : ∃ m : ℤ, nearest (x / 2^F.exponent x) = m * 2 ∧ |m| < 2^F.precision := by
      rw [hp,Nat.succ_eq_add_one,pow_succ] at full ⊢
      have pos : (0 : ℤ) < 2^p := by positivity
      rcases abs_cases (nearest (x / 2^F.exponent x)) with ⟨eq,_⟩ | ⟨eq,_⟩
      · exact ⟨2^p,by omega,by rw [abs_of_pos pos]; omega⟩
      · exact ⟨-2^p,by omega,by rw [abs_neg,abs_of_pos pos]; omega⟩
    obtain ⟨m,value,small⟩ := half
    refine ⟨m,F.exponent x + 1,small,?_,room,?_⟩
    · exact (F.minExponent_le_exponent x).trans (by omega)
    · unfold rounded
      rw [value,zpow_add₀ two_ne_zero]
      push_cast
      ring

theorem rounded_of_representable {q : ℚ} (rep : F.Representable q) : F.rounded q = q := by
  obtain ⟨m,e,small,low,_,value⟩ := rep
  exact F.rounded_of_scaled small low value

/-- Rounding leaves integers integers: the unit is one itself, or divides them all. -/
theorem rounded_intCast (n : ℤ) : ∃ m : ℤ, F.rounded n = m := by
  unfold rounded
  rcases le_total 0 (F.exponent n) with coarse | fine
  · refine ⟨nearest (n / 2^F.exponent n) * 2^(F.exponent n).toNat,?_⟩
    push_cast
    rw [← zpow_natCast,Int.toNat_of_nonneg coarse]
  · have scaled : (n : ℚ) / 2^F.exponent n = ((n * 2^(-F.exponent n).toNat : ℤ) : ℚ) := by
      push_cast
      rw [← zpow_natCast,Int.toNat_of_nonneg (Int.neg_nonneg_of_nonpos fine),zpow_neg,div_eq_mul_inv]
    refine ⟨n,?_⟩
    rw [scaled,nearest_intCast,← scaled,div_mul_cancel₀ _ (two_zpow_pos _).ne']

/-- The integers of a format whose exponents begin below zero. -/
theorem representable_intCast_iff (fractions : F.minExponent ≤ 0) {n : ℤ} (small : |(n : ℚ)| ≤ 2^F.maxExponent) :
    F.Representable n ↔ ∃ (m : ℤ) (k : ℕ), |m| < 2^F.precision ∧ n = m * 2^k := by
  constructor
  · rintro ⟨m,e,significand,_,_,value⟩
    rcases le_total 0 e with coarse | fine
    · refine ⟨m,e.toNat,significand,?_⟩
      rw [← Int.toNat_of_nonneg coarse,zpow_natCast] at value
      exact_mod_cast value
    · refine ⟨n,0,?_,by simp⟩
      have below : |(n : ℚ)| ≤ |(m : ℚ)| := by
        rw [value,abs_mul,abs_of_pos (two_zpow_pos e)]
        exact mul_le_of_le_one_right (abs_nonneg _) (zpow_le_one_of_nonpos₀ one_le_two fine)
      exact lt_of_le_of_lt (by exact_mod_cast below) significand
  · rintro ⟨m,k,significand,rfl⟩
    by_cases zero : m = 0
    · exact ⟨0,F.minExponent,by simp,le_rfl,F.ordered,by simp [zero]⟩
    · refine ⟨m,k,significand,fractions.trans (Int.natCast_nonneg k),?_,by push_cast; simp⟩
      have one : (1 : ℚ) ≤ |(m : ℚ)| := by exact_mod_cast Int.one_le_abs zero
      have power : (2 : ℚ)^(k : ℤ) ≤ 2^F.maxExponent := by
        push_cast at small
        rw [abs_mul,abs_of_pos (by positivity : (0 : ℚ) < 2^k)] at small
        exact (le_mul_of_one_le_left (two_zpow_pos k).le one).trans small
      exact (zpow_le_zpow_iff_right₀ one_lt_two).mp power

end Format
end Sl3.Library.NearestEven
