import Mathlib.Data.Nat.Digits.Lemmas

/-! Numerals with the most significant digit first, as a scan from the left reads them and as a
loop of divisions writes them. -/
namespace Sl3.Library.Positional
variable {b : ℕ}

def value (b : ℕ) (digits : List ℕ) : ℕ := digits.foldl (fun u d => u * b + d) 0

theorem value_concat (digits : List ℕ) (d : ℕ) : value b (digits ++ [d]) = value b digits * b + d := by
  simp [value]

theorem value_eq_ofDigits (digits : List ℕ) : value b digits = Nat.ofDigits b digits.reverse := by
  induction digits using List.reverseRecOn with
  | nil => rfl
  | append_singleton digits d ih =>
    rw [value_concat,ih,List.reverse_append,List.reverse_singleton,List.singleton_append,Nat.ofDigits_cons]
    ring

theorem value_cons (d : ℕ) (digits : List ℕ) : value b (d::digits) = d * b^digits.length + value b digits := by
  rw [value_eq_ofDigits,value_eq_ofDigits,List.reverse_cons,Nat.ofDigits_append,List.length_reverse,
    Nat.ofDigits_singleton]
  ring

theorem value_append (front back : List ℕ) :
    value b (front ++ back) = value b front * b^back.length + value b back := by
  induction front with
  | nil => simp [value]
  | cons d front ih =>
    rw [List.cons_append,value_cons,value_cons,ih,List.length_append,pow_add]
    ring

theorem value_lt {digits : List ℕ} (base : 1 < b) (each : ∀ d ∈ digits, d < b) : value b digits < b^digits.length := by
  have below := Nat.ofDigits_lt_base_pow_length base (fun d member => each d (List.mem_reverse.mp member))
  rwa [← value_eq_ofDigits,List.length_reverse] at below

/-- No zero in front. -/
def Canonical (digits : List ℕ) : Prop := digits.head? ≠ some 0

theorem le_value {digits : List ℕ} (canonical : Canonical digits) (filled : digits ≠ []) :
    b^(digits.length - 1) ≤ value b digits := by
  obtain ⟨d,rest,rfl⟩ := List.exists_cons_of_ne_nil filled
  have positive : 1 ≤ d := by
    rcases Nat.eq_zero_or_pos d with rfl | positive
    · exact absurd rfl canonical
    · exact positive
  rw [value_cons,List.length_cons,Nat.add_sub_cancel]
  calc b^rest.length = 1 * b^rest.length := (Nat.one_mul _).symm
    _ ≤ d * b^rest.length := Nat.mul_le_mul_right _ positive
    _ ≤ _ := Nat.le_add_right _ _

/-- A numeral without a zero in front is the only one of its value. -/
theorem Canonical.unique {digits other : List ℕ} (base : 1 < b) (canonical : Canonical digits)
    (canonical' : Canonical other) (each : ∀ d ∈ digits, d < b) (each' : ∀ d ∈ other, d < b)
    (same : value b digits = value b other) : digits = other := by
  have written {l : List ℕ} (first : Canonical l) (bounded : ∀ d ∈ l, d < b) :
      Nat.digits b (value b l) = l.reverse := by
    rw [value_eq_ofDigits]
    apply Nat.digits_ofDigits b base _ fun d member => bounded d (List.mem_reverse.mp member)
    intro filled last
    apply first
    rw [← List.getLast?_reverse,List.getLast?_eq_getLast_of_ne_nil filled,last]
  have reversed := (written canonical each).symm.trans (same ▸ written canonical' each')
  exact List.reverse_injective reversed

theorem value_cons_lt {back rest : List ℕ} {d e : ℕ} (base : 1 < b) (less : d < e) (size : back.length = rest.length)
    (each : ∀ d ∈ back, d < b) : value b (d::back) < value b (e::rest) := by
  have tail := value_lt base each
  rw [value_cons,value_cons,size]
  rw [size] at tail
  have step : d * b^rest.length + b^rest.length ≤ e * b^rest.length := by
    rw [← Nat.succ_mul]
    exact Nat.mul_le_mul_right _ less
  omega

end Sl3.Library.Positional
