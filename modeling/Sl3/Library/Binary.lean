import Sl3.Library.NearestEven
import Mathlib.Order.WithBot

/-! Floating-point numbers of a binary format with infinities and not-a-number.
A finite number is the rational it stands for, so the two zeros are one number.
Each operation is the exact one rounded once to nearest even. -/
namespace Sl3.Library.Binary
open NearestEven

inductive Number (F : Format) where
  | finite (q : ℚ) (representable : F.Representable q)
  | infinite (negative : Bool)
  | nan
deriving DecidableEq

namespace Number
variable {F : Format}

def ofRat (x : ℚ) : Number F :=
  if below : |F.rounded x| < F.limit then .finite (F.rounded x) (F.rounded_representable below)
  else .infinite (x < 0)

def isNaN : Number F → Bool
  | .nan => true
  | _ => false

def isFinite : Number F → Bool
  | .finite _ _ => true
  | _ => false

def neg : Number F → Number F
  | .finite q representable => .finite (-q) representable.neg
  | .infinite negative => .infinite (!negative)
  | .nan => .nan

def abs : Number F → Number F
  | .finite q representable => .finite |q| representable.abs
  | .infinite _ => .infinite false
  | .nan => .nan

def add : Number F → Number F → Number F
  | .finite x _,.finite y _ => ofRat (x + y)
  | .finite _ _,.infinite negative => .infinite negative
  | .infinite negative,.finite _ _ => .infinite negative
  | .infinite left,.infinite right => if left = right then .infinite left else .nan
  | .nan,_ => .nan
  | _,.nan => .nan

def sub (x y : Number F) : Number F := add x (neg y)

def mul : Number F → Number F → Number F
  | .finite x _,.finite y _ => ofRat (x * y)
  | .finite x _,.infinite negative => if x = 0 then .nan else .infinite (negative != decide (x < 0))
  | .infinite negative,.finite y _ => if y = 0 then .nan else .infinite (negative != decide (y < 0))
  | .infinite left,.infinite right => .infinite (left != right)
  | .nan,_ => .nan
  | _,.nan => .nan

def lt : Number F → Number F → Bool
  | .finite x _,.finite y _ => x < y
  | .finite _ _,.infinite negative => !negative
  | .infinite negative,.finite _ _ => negative
  | .infinite left,.infinite right => left && !right
  | .nan,_ => false
  | _,.nan => false

def eq : Number F → Number F → Bool
  | .finite x _,.finite y _ => x = y
  | .infinite left,.infinite right => left = right
  | _,_ => false

def le (x y : Number F) : Bool := lt x y || eq x y

/-- Place of a number on the extended line; not-a-number has none and is put at the bottom. -/
def rank : Number F → WithBot (WithTop ℚ)
  | .finite q _ => ((q : WithTop ℚ) : WithBot (WithTop ℚ))
  | .infinite true => ⊥
  | .infinite false => ((⊤ : WithTop ℚ) : WithBot (WithTop ℚ))
  | .nan => ⊥

theorem lt_iff_rank {x y : Number F} (hx : x.isNaN = false) (hy : y.isNaN = false) :
    x.lt y = true ↔ x.rank < y.rank := by
  cases x with
  | nan => simp [isNaN] at hx
  | finite q _ =>
    cases y with
    | nan => simp [isNaN] at hy
    | finite r _ => simp [lt,rank]
    | infinite negative =>
      cases negative with
      | true => simp [lt,rank]
      | false => simpa [lt,rank] using WithBot.coe_lt_coe.mpr (WithTop.coe_lt_top q)
  | infinite left =>
    cases y with
    | nan => simp [isNaN] at hy
    | finite r _ => cases left <;> simp [lt,rank]
    | infinite right => cases left <;> cases right <;> simp [lt,rank]

theorem eq_iff_rank {x y : Number F} (hx : x.isNaN = false) (hy : y.isNaN = false) :
    x.eq y = true ↔ x.rank = y.rank := by
  cases x with
  | nan => simp [isNaN] at hx
  | finite q _ =>
    cases y with
    | nan => simp [isNaN] at hy
    | finite r _ => simp [eq,rank]
    | infinite negative => cases negative <;> simp [eq,rank]
  | infinite left =>
    cases y with
    | nan => simp [isNaN] at hy
    | finite r _ => cases left <;> simp [eq,rank]
    | infinite right => cases left <;> cases right <;> simp [eq,rank]

theorem le_iff_rank {x y : Number F} (hx : x.isNaN = false) (hy : y.isNaN = false) :
    x.le y = true ↔ x.rank ≤ y.rank := by
  rw [le,Bool.or_eq_true,lt_iff_rank hx hy,eq_iff_rank hx hy,le_iff_lt_or_eq]

theorem rank_injective {x y : Number F} (hx : x.isNaN = false) (hy : y.isNaN = false)
    (same : x.rank = y.rank) : x = y := by
  cases x with
  | nan => simp [isNaN] at hx
  | finite q _ =>
    cases y with
    | nan => simp [isNaN] at hy
    | finite r _ => simpa [rank] using same
    | infinite negative => cases negative <;> simp [rank] at same
  | infinite left =>
    cases y with
    | nan => simp [isNaN] at hy
    | finite r _ => cases left <;> simp [rank] at same
    | infinite right => cases left <;> cases right <;> simp [rank] at same ⊢

theorem ofRat_isNaN (x : ℚ) : (ofRat x : Number F).isNaN = false := by
  unfold ofRat
  split <;> rfl

theorem ofRat_mono {x y : ℚ} (le : x ≤ y) : (ofRat x : Number F).rank ≤ (ofRat y : Number F).rank := by
  have kept := F.rounded_mono le
  have positive : 0 < F.limit := Format.two_zpow_pos _
  unfold ofRat
  split
  · split
    · simpa [rank] using kept
    · -- `y` overflows: it cannot do so downwards below a finite `x`
      rename_i small above
      have up : ¬ y < 0 := by
        intro negative
        have low := F.rounded_nonneg (neg_nonneg.mpr negative.le)
        rw [Format.rounded_neg] at low
        rw [abs_of_nonpos (by linarith),not_lt] at above
        have := (abs_lt.mp small).1
        linarith
      simp [up,rank]
  · rename_i beyond
    by_cases down : x < 0
    · simp [down,rank]
    · have high := F.rounded_nonneg (not_lt.mp down)
      rw [abs_of_nonneg high,not_lt] at beyond
      have above : ¬ |F.rounded y| < F.limit := by
        rw [abs_of_nonneg (high.trans kept),not_lt]
        exact beyond.trans kept
      have up : ¬ y < 0 := by
        have := not_lt.mp down
        linarith
      simp [above,down,up,rank]

theorem ofRat_of_representable {q : ℚ} (rep : F.Representable q) :
    ofRat q = Number.finite q rep := by
  have same := F.rounded_of_representable rep
  unfold ofRat
  simp [same,rep.abs_lt_limit]

theorem sub_finite {x y : ℚ} (hx : F.Representable x) (hy : F.Representable y) :
    sub (.finite x hx) (.finite y hy) = ofRat (x - y) := by
  rw [sub_eq_add_neg]
  rfl

theorem mul_finite {x y : ℚ} (hx : F.Representable x) (hy : F.Representable y) :
    mul (.finite x hx) (.finite y hy) = ofRat (x * y) := rfl

theorem ofRat_finite {x : ℚ} (below : |F.rounded x| < F.limit) :
    (ofRat x : Number F) = .finite (F.rounded x) (F.rounded_representable below) :=
  dif_pos below

theorem ofRat_abs_infinite {x : ℚ} (beyond : F.limit ≤ |F.rounded x|) : (ofRat x : Number F).abs = .infinite false := by
  rw [ofRat,dif_neg (not_lt.mpr beyond)]
  rfl

theorem ofRat_abs_lt {x t : ℚ} (rep : F.Representable t) :
    (ofRat x).abs.lt (.finite t rep) = true ↔ |F.rounded x| < t := by
  rcases lt_or_ge |F.rounded x| F.limit with below | beyond
  · rw [ofRat_finite below]
    simp [abs,lt]
  · rw [ofRat_abs_infinite beyond]
    have large : t ≤ |F.rounded x| := ((le_abs_self t).trans rep.abs_lt_limit.le).trans beyond
    simpa [lt] using large

theorem ofRat_abs_lt_infinite {x : ℚ} :
    (ofRat x : Number F).abs.lt (.infinite false) = true ↔ |F.rounded x| < F.limit := by
  rcases lt_or_ge |F.rounded x| F.limit with below | beyond
  · rw [ofRat_finite below]
    simpa [abs,lt] using below
  · rw [ofRat_abs_infinite beyond]
    simpa [lt] using beyond

end Number
end Sl3.Library.Binary
