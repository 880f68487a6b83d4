import Sl3.Columns
import Sl3.Conversion
import Sl3.Library.Positional
import Mathlib.Data.List.TakeWhile

/-! Integers as sqlite writes them, and as it reads them at the front of a text or takes them
from a double: what does not fit in 64 bits becomes the limit it is beyond. -/
namespace Sl3.IntegerText
open Library Library.Binary Positional

def isSpace (c : Byte) : Bool := c.val = 32 ∨ 9 ≤ c.val ∧ c.val ≤ 13

def isDigit (c : Byte) : Bool := 48 ≤ c.val ∧ c.val ≤ 57

def digit (d : Nat) : Byte := Fin.ofNat 256 (48 + d)

def digitOf (c : Byte) : Nat := c.val - 48

/-- The loop of `sqlite3Int64ToText`: two digits a round. -/
def digitPairs (x : Nat) (text : Bytes) : Bytes :=
  if 10 ≤ x then digitPairs (x / 100) (digit (x % 100 / 10)::digit (x % 100 % 10)::text)
  else if x ≠ 0 then digit x::text
  else text

def int64ToText (v : Int64) : Bytes :=
  if 0 < v.toInt then digitPairs v.toInt.toNat []
  else if v.toInt = 0 then [digit 0]
  else 45::digitPairs (-v.toInt).toNat []

def pow63 : Bytes := [57,50,50,51,51,55,50,48,51,54,56,53,52,55,55,53,56,48,56]

/-- The difference of the first digits that differ, tenfold unless they are the last ones. -/
def compare2pow63 : Bytes → Bytes → Int
  | [c],[d] => (c.val : Int) - d.val
  | c::zNum,d::pow63 => if (c.val : Int) - d.val ≠ 0 then ((c.val : Int) - d.val) * 10 else compare2pow63 zNum pow63
  | _,_ => 0

def sign : Bytes → Bool × Bytes
  | c::zNum => if c = 45 then (true,zNum) else if c = 43 then (false,zNum) else (false,c::zNum)
  | [] => (false,[])

/-- `sqlite3Atoi64` on UTF-8: its result code, and what it stores through `pNum`. -/
def atoi64 (text : Bytes) : Int × Int64 :=
  let (neg,zStart) := sign (text.dropWhile isSpace)
  let zNum := zStart.dropWhile (· = 48)
  let digits := zNum.takeWhile isDigit
  let rest := zNum.dropWhile isDigit
  let u := digits.foldl (fun u c => u * 10 + UInt64.ofNat (digitOf c)) 0
  let rc := if digits = [] ∧ zStart.length = zNum.length then -1 else if rest.all isSpace then 0 else 1
  let limit := if neg then Int64.minValue else Int64.maxValue
  let num := if u > 9223372036854775807 then limit else if neg then -u.toInt64 else u.toInt64
  if digits.length < 19 then (rc,num)
  else
    let j := if 19 < digits.length then 1 else compare2pow63 digits pow63
    if j < 0 then (rc,num)
    else if 0 < j then (2,limit)
    else if neg then (rc,limit)
    else (3,limit)

/-- `sqlite3RealToI64`; the cast of what is left is undefined for not-a-number only. -/
def realToI64 (r : Double) : Option Int64 :=
  if r.lt (Number.ofRat (-9223372036854774784)) then some Int64.minValue
  else if (Number.ofRat 9223372036854774784).lt r then some Int64.maxValue
  else Conversion.staticCast Int64 r

theorem ten_base : 1 < 10 := by decide

theorem digitOf_lt {c : Byte} (numeric : isDigit c = true) : digitOf c < 10 := by
  simp only [isDigit,decide_eq_true_eq] at numeric
  unfold digitOf
  omega

/-- The number that a text of digits is a numeral of. -/
def numeralOf (text : Bytes) : Nat := value 10 (text.map digitOf)

theorem digits_lt {text : Bytes} (numeric : ∀ c ∈ text, isDigit c = true) : ∀ d ∈ text.map digitOf, d < 10 := by
  intro d member
  obtain ⟨c,inside,rfl⟩ := List.mem_map.mp member
  exact digitOf_lt (numeric c inside)

theorem compare2pow63_iff {zNum pow : Bytes} (size : zNum.length = pow.length) (filled : pow ≠ [])
    (numeric : ∀ c ∈ zNum, isDigit c = true) (numeric' : ∀ c ∈ pow, isDigit c = true) :
    (compare2pow63 zNum pow < 0 ↔ numeralOf zNum < numeralOf pow) ∧
      (0 < compare2pow63 zNum pow ↔ numeralOf pow < numeralOf zNum) := by
  induction pow generalizing zNum with
  | nil => exact absurd rfl filled
  | cons d pow ih =>
    obtain ⟨c,zNum,rfl⟩ := List.exists_cons_of_length_pos (l := zNum) (by simp [size])
    obtain ⟨first,later⟩ := List.forall_mem_cons.mp numeric
    obtain ⟨first',later'⟩ := List.forall_mem_cons.mp numeric'
    have same : zNum.length = pow.length := by simpa using size
    simp only [isDigit,decide_eq_true_eq] at first first'
    have below (less : c.val < d.val) : numeralOf (c::zNum) < numeralOf (d::pow) := by
      have order : digitOf c < digitOf d := by unfold digitOf; omega
      exact value_cons_lt (by decide) order (by simp [same]) (digits_lt later)
    have above (more : d.val < c.val) : numeralOf (d::pow) < numeralOf (c::zNum) := by
      have order : digitOf d < digitOf c := by unfold digitOf; omega
      exact value_cons_lt (by decide) order (by simp [same]) (digits_lt later')
    by_cases tie : c.val = d.val
    · cases Fin.ext tie
      cases pow with
      | nil =>
        cases List.length_eq_zero_iff.mp same
        simp [compare2pow63]
      | cons e pow =>
        obtain ⟨c',zNum,rfl⟩ := List.exists_cons_of_length_pos (l := zNum) (by simp [same])
        have next : compare2pow63 (d::c'::zNum) (d::e::pow) = compare2pow63 (c'::zNum) (e::pow) := by
          simp [compare2pow63]
        have size : ((c'::zNum).map digitOf).length = ((e::pow).map digitOf).length := by simpa using same
        have front (text : Bytes) : numeralOf (d::text) = digitOf d * 10^(text.map digitOf).length + numeralOf text :=
          value_cons _ _
        rw [next,front,front,size,Nat.add_lt_add_iff_left,Nat.add_lt_add_iff_left]
        exact ih same (by simp) later later'
    · have decided : ∃ k : Int, 0 < k ∧ compare2pow63 (c::zNum) (d::pow) = ((c.val : Int) - d.val) * k := by
        cases pow with
        | nil =>
          cases List.length_eq_zero_iff.mp same
          exact ⟨1,by decide,by simp [compare2pow63]⟩
        | cons e pow =>
          refine ⟨10,by decide,?_⟩
          simp only [compare2pow63]
          exact if_pos (by omega)
      obtain ⟨k,positive,decided⟩ := decided
      rw [decided]
      rcases lt_or_gt_of_ne tie with less | more
      · have order := below less
        have negative : ((c.val : Int) - d.val) * k < 0 := mul_neg_of_neg_of_pos (by omega) positive
        omega
      · have order := above more
        have positive : 0 < ((c.val : Int) - d.val) * k := mul_pos (by omega) positive
        omega

/-- The text, behind spaces, is a sign, zeros and a numeral without a zero in front. -/
def signed (text : Bytes) : Int :=
  let (neg,zStart) := sign (text.dropWhile isSpace)
  let n : Int := numeralOf (zStart.takeWhile isDigit)
  if neg then -n else n

def saturated (n : Int) : Int := max (-2^63) (min n (2^63 - 1))

theorem takeWhile_zeros (zStart : Bytes) :
    numeralOf (zStart.takeWhile isDigit) = numeralOf ((zStart.dropWhile (· = 48)).takeWhile isDigit) := by
  induction zStart with
  | nil => rfl
  | cons c zStart ih =>
    by_cases zero : c = 48
    · have numeric : isDigit c = true := by subst zero; rfl
      have nothing : digitOf c = 0 := by subst zero; rfl
      rw [List.takeWhile_cons_of_pos numeric,List.dropWhile_cons_of_pos (by simpa using zero),← ih]
      simp [numeralOf,value_cons,nothing]
    · rw [List.dropWhile_cons_of_neg (by simpa using zero)]

theorem foldl_digits (digits : Bytes) :
    digits.foldl (fun u c => u * 10 + UInt64.ofNat (digitOf c)) 0 = UInt64.ofNat (numeralOf digits) := by
  induction digits using List.reverseRecOn with
  | nil => rfl
  | append_singleton digits c ih =>
    rw [List.foldl_append,ih]
    simp [numeralOf,value_concat,UInt64.ofNat_add,UInt64.ofNat_mul]

theorem canonical_digits (zStart : Bytes) :
    Canonical (((zStart.dropWhile (· = 48)).takeWhile isDigit).map digitOf) := by
  cases rest : zStart.dropWhile (· = 48) with
  | nil => exact nofun
  | cons c zNum =>
    have other := List.head?_dropWhile_not (fun c : Byte => decide (c = 48)) zStart
    simp only [rest,List.head?_cons,decide_eq_false_iff_not] at other
    by_cases numeric : isDigit c = true
    · rw [List.takeWhile_cons_of_pos numeric]
      intro zero
      simp only [isDigit,decide_eq_true_eq] at numeric
      simp only [List.map_cons,List.head?_cons,Option.some.injEq,digitOf] at zero
      have same : c.val = 48 := by omega
      exact other (Fin.ext same)
    · rw [List.takeWhile_cons_of_neg numeric]
      exact nofun

theorem pow63_numeric : ∀ c ∈ pow63, isDigit c = true := by simp [pow63,isDigit]

theorem numeralOf_pow63 : numeralOf pow63 = 2^63 := by decide

theorem gathered (neg : Bool) {n : Nat} (small : n < 2^64) :
    (if UInt64.ofNat n > 9223372036854775807 then if neg then Int64.minValue else Int64.maxValue
      else if neg then -(UInt64.ofNat n).toInt64 else (UInt64.ofNat n).toInt64).toInt =
    saturated (if neg then -(n : Int) else n) := by
  have beyond : UInt64.ofNat n > 9223372036854775807 ↔ 2^63 ≤ n := by
    rw [gt_iff_lt,UInt64.lt_iff_toNat_lt,UInt64.toNat_ofNat_of_lt' small]
    exact Nat.lt_iff_add_one_le
  have least : Int64.minValue.toInt = -2^63 := rfl
  have most : Int64.maxValue.toInt = 2^63 - 1 := rfl
  unfold saturated
  by_cases large : 2^63 ≤ n
  · rw [if_pos (beyond.mpr large)]
    cases neg
    · simp only [Bool.false_eq_true,if_false,most]
      omega
    · simp only [if_true,least]
      omega
  · rw [if_neg (mt beyond.mp large),UInt64.toInt64_ofNat']
    cases neg
    · simp only [Bool.false_eq_true,if_false,Int64.toInt_ofNat_of_lt (Nat.not_le.mp large)]
      omega
    · simp only [if_true,Int64.toInt_neg_ofNat_of_le (Nat.le_of_not_le large)]
      omega

/-- `sqlite3Atoi64` stores the number that the text begins with, or the limit that it is beyond. -/
theorem atoi64_eq (text : Bytes) : (atoi64 text).2.toInt = saturated (signed text) := by
  unfold atoi64 signed
  obtain ⟨neg,zStart⟩ := sign (text.dropWhile isSpace)
  simp only [foldl_digits]
  rw [takeWhile_zeros zStart]
  have canonical := canonical_digits zStart
  generalize zStart.dropWhile (· = 48) = zNum at canonical ⊢
  have numeric : ∀ c ∈ zNum.takeWhile isDigit, isDigit c = true := fun c member => List.mem_takeWhile_imp member
  generalize zNum.takeWhile isDigit = digits at canonical numeric ⊢
  have bound : numeralOf digits < 10^digits.length := by
    have below := value_lt ten_base (digits_lt numeric)
    rwa [List.length_map] at below
  have least : Int64.minValue.toInt = -2^63 := rfl
  have most : Int64.maxValue.toInt = 2^63 - 1 := rfl
  have limit (far : 2^63 ≤ numeralOf digits) : (if neg then Int64.minValue else Int64.maxValue).toInt =
      saturated (if neg then -(numeralOf digits : Int) else numeralOf digits) := by
    unfold saturated
    cases neg
    · simp only [Bool.false_eq_true,if_false,most]
      omega
    · simp only [if_true,least]
      omega
  rcases Nat.lt_trichotomy digits.length 19 with few | nineteen | many
  · have small : numeralOf digits < 2^64 :=
      calc numeralOf digits < 10^digits.length := bound
        _ ≤ 10^18 := Nat.pow_le_pow_right (by decide) (by omega)
        _ < 2^64 := by decide
    rw [if_pos few]
    exact gathered neg small
  · rw [nineteen] at bound
    have small : numeralOf digits < 2^64 := bound.trans (by decide)
    obtain ⟨below,above⟩ := @compare2pow63_iff digits pow63 nineteen nofun numeric pow63_numeric
    rw [numeralOf_pow63] at below above
    have whole : ¬ digits.length < 19 := by omega
    have none : ¬ 19 < digits.length := by omega
    rw [if_neg whole]
    simp only [if_neg none]
    by_cases less : compare2pow63 digits pow63 < 0
    · rw [if_pos less]
      exact gathered neg small
    · have far : 2^63 ≤ numeralOf digits := Nat.not_lt.mp (mt below.mpr less)
      rw [if_neg less,← limit far]
      split_ifs <;> rfl
  · have filled : digits.map digitOf ≠ [] := by
      intro none
      rw [List.map_eq_nil_iff.mp none] at many
      exact absurd many (by decide)
    have far : 2^63 ≤ numeralOf digits :=
      calc 2^63 ≤ 10^19 := by decide
        _ ≤ 10^((digits.map digitOf).length - 1) := Nat.pow_le_pow_right (by decide) (by rw [List.length_map]; omega)
        _ ≤ numeralOf digits := le_value canonical filled
    rw [if_neg (by omega),if_pos many,if_neg (by decide),if_pos (by decide)]
    exact limit far

theorem digit_val {d : Nat} (small : d < 10) : (digit d).val = 48 + d := by
  simp only [digit,Fin.ofNat]
  omega

theorem digit_isDigit {d : Nat} (small : d < 10) : isDigit (digit d) = true := by
  simp only [isDigit,decide_eq_true_eq,digit_val small]
  omega

theorem digitOf_digit {d : Nat} (small : d < 10) : digitOf (digit d) = d := by
  simp only [digitOf,digit_val small]
  omega

theorem digitPairs_zero : digitPairs 0 [] = [] := by
  rw [digitPairs]
  rfl

theorem digitPairs_round {x : Nat} (two : 10 ≤ x) :
    digitPairs x [] = digitPairs (x / 100) [] ++ [digit (x % 100 / 10),digit (x % 100 % 10)] := by
  have behind (y : Nat) (text : Bytes) : digitPairs y text = digitPairs y [] ++ text := by
    induction y using Nat.strong_induction_on generalizing text with
    | h y ih =>
      rw [digitPairs,digitPairs.eq_def y []]
      split_ifs with more some
      · have less : y / 100 < y := by omega
        rw [ih _ less,ih _ less [_,_],List.append_assoc]
        rfl
      · rfl
      · rfl
  rw [digitPairs,if_pos two,behind]

structure Writes (x : Nat) (text : Bytes) : Prop where
  numeric : ∀ c ∈ text, isDigit c = true
  number : numeralOf text = x
  canonical : Canonical (text.map digitOf)

theorem digitPairs_writes (x : Nat) : Writes x (digitPairs x []) := by
  induction x using Nat.strong_induction_on with
  | h x ih =>
    by_cases two : 10 ≤ x
    · have front := ih (x / 100) (by omega)
      have tens : x % 100 / 10 < 10 := by omega
      have ones : x % 100 % 10 < 10 := by omega
      rw [digitPairs_round two]
      refine ⟨?_,?_,?_⟩
      · intro c member
        rcases List.mem_append.mp member with before | last
        · exact front.numeric c before
        · rcases List.mem_pair.mp last with rfl | rfl
          · exact digit_isDigit tens
          · exact digit_isDigit ones
      · have number := front.number
        simp only [numeralOf] at number ⊢
        rw [List.map_append,value_append,number]
        simp only [List.map_cons,List.map_nil,digitOf_digit tens,digitOf_digit ones,value,List.foldl_cons,List.foldl_nil,
          List.length_cons,List.length_nil]
        omega
      · by_cases small : x / 100 = 0
        · have first : digitOf (digit (x % 100 / 10)) ≠ 0 := by
            rw [digitOf_digit tens]
            omega
          rw [small,digitPairs_zero]
          simpa [Canonical] using first
        · have filled : digitPairs (x / 100) [] ≠ [] := by
            intro none
            have number := front.number
            rw [none] at number
            exact small number.symm
          obtain ⟨c,rest,same⟩ := List.exists_cons_of_ne_nil filled
          have canonical := front.canonical
          rw [same] at canonical ⊢
          exact canonical
    · by_cases zero : x = 0
      · subst zero
        rw [digitPairs_zero]
        exact ⟨List.forall_mem_nil _,rfl,Option.some_ne_none _ |>.symm⟩
      · have one : digitPairs x [] = [digit x] := by rw [digitPairs,if_neg two,if_pos zero]
        have small : x < 10 := Nat.not_le.mp two
        rw [one]
        refine ⟨?_,?_,?_⟩
        · intro c member
          cases List.mem_singleton.mp member
          exact digit_isDigit small
        · simp [numeralOf,value,digitOf_digit small]
        · simpa [Canonical,digitOf_digit small] using zero

theorem isDigit_not_space {c : Byte} (numeric : isDigit c = true) : isSpace c = false := by
  simp only [isDigit,decide_eq_true_eq] at numeric
  simp only [isSpace,decide_eq_false_iff_not]
  omega

theorem isDigit_not_sign {c : Byte} (numeric : isDigit c = true) : c ≠ 45 ∧ c ≠ 43 := by
  constructor
  · rintro rfl
    cases numeric
  · rintro rfl
    cases numeric

theorem signed_plain {text : Bytes} (numeric : ∀ c ∈ text, isDigit c = true) : signed text = numeralOf text := by
  cases text with
  | nil => rfl
  | cons c text =>
    have first := numeric c List.mem_cons_self
    obtain ⟨minus,plus⟩ := isDigit_not_sign first
    have spaces : (c::text).dropWhile isSpace = c::text :=
      List.dropWhile_cons_of_neg (by rw [isDigit_not_space first]; exact Bool.false_ne_true)
    have all : (c::text).takeWhile isDigit = c::text := List.takeWhile_eq_self_iff.mpr numeric
    simp only [signed,spaces,sign,if_neg minus,if_neg plus,all,Bool.false_eq_true,if_false]

theorem signed_minus {text : Bytes} (numeric : ∀ c ∈ text, isDigit c = true) : signed (45::text) = -numeralOf text := by
  have spaces : (45::text).dropWhile isSpace = 45::text := List.dropWhile_cons_of_neg Bool.false_ne_true
  have all : text.takeWhile isDigit = text := List.takeWhile_eq_self_iff.mpr numeric
  simp only [signed,spaces,sign,if_true,all]

theorem signed_int64ToText (v : Int64) : signed (int64ToText v) = v.toInt := by
  unfold int64ToText
  split_ifs with positive zero
  · obtain ⟨numeric,number,_⟩ := digitPairs_writes v.toInt.toNat
    rw [signed_plain numeric,number]
    omega
  · rw [zero]
    rfl
  · obtain ⟨numeric,number,_⟩ := digitPairs_writes (-v.toInt).toNat
    rw [signed_minus numeric,number]
    omega

theorem saturated_inside (v : Int64) : saturated v.toInt = v.toInt := by
  have low : -2^63 ≤ v.toInt := v.le_toInt
  have high : v.toInt < 2^63 := v.toInt_lt
  unfold saturated
  omega

theorem atoi64_int64ToText (v : Int64) : (atoi64 (int64ToText v)).2 = v := by
  apply Int64.toInt_inj.mp
  rw [atoi64_eq,signed_int64ToText,saturated_inside]

/-- The integer part of a double; that of an infinity is beyond the limits. -/
def wholePart : Double → Int
  | .finite q _ => NearestEven.truncated q
  | .infinite negative => if negative then -2^63 else 2^63
  | .nan => 0

theorem largest_below : binary64.Representable 9223372036854774784 :=
  ⟨2^53 - 1,10,by decide,by decide,by decide,by norm_num⟩

theorem beyond_limit {q : ℚ} (rep : binary64.Representable q) (above : 9223372036854774784 < q) : 2^63 ≤ q := by
  have far : (2 : ℚ)^53 * 2^(10 : ℤ) ≤ q := by
    apply rep.gap
    norm_num [binary64]
    exact above
  norm_num at far ⊢
  exact far

theorem realToI64_eq {r : Double} (number : r.isNaN = false) :
    ∃ n, realToI64 r = some n ∧ n.toInt = saturated (wholePart r) := by
  have least : (Number.ofRat (-9223372036854774784) : Double) = .finite _ largest_below.neg :=
    Number.ofRat_of_representable _
  have most : (Number.ofRat 9223372036854774784 : Double) = .finite _ largest_below := Number.ofRat_of_representable _
  unfold realToI64
  rw [least,most]
  cases r with
  | finite q rep =>
    by_cases low : q < -9223372036854774784
    · have far : q ≤ ((-2^63 : ℤ) : ℚ) := by
        have flipped := beyond_limit rep.neg (lt_neg.mpr low)
        push_cast
        exact le_neg.mpr flipped
      have cut := NearestEven.truncated_le far
      refine ⟨Int64.minValue,by simp [Number.lt,low],?_⟩
      have value : Int64.minValue.toInt = -2^63 := rfl
      simp only [value,wholePart,saturated]
      omega
    · by_cases high : 9223372036854774784 < q
      · have far : ((2^63 : ℤ) : ℚ) ≤ q := by
          push_cast
          exact beyond_limit rep high
        have cut := NearestEven.le_truncated far
        refine ⟨Int64.maxValue,by simp [Number.lt,low,high],?_⟩
        have value : Int64.maxValue.toInt = 2^63 - 1 := rfl
        simp only [value,wholePart,saturated]
        omega
      · have above : ((-9223372036854774784 : ℤ) : ℚ) ≤ q := by
          push_cast
          exact not_lt.mp low
        have below : q ≤ ((9223372036854774784 : ℤ) : ℚ) := by
          push_cast
          exact not_lt.mp high
        have cut := NearestEven.le_truncated above
        have cut' := NearestEven.truncated_le below
        have inside : Conversion.Integral.toInt (Conversion.Integral.min : Int64) ≤ NearestEven.truncated q ∧
            NearestEven.truncated q ≤ Conversion.Integral.toInt (Conversion.Integral.max : Int64) := by
          rw [Conversion.int64_limits.1,Conversion.int64_limits.2]
          omega
        refine ⟨Int64.ofInt (NearestEven.truncated q),?_,?_⟩
        · simp only [Number.lt,low,high,decide_false,Bool.false_eq_true,if_false,Conversion.staticCast]
          rw [if_pos inside]
          rfl
        · rw [Int64.toInt_ofInt_of_le (by omega) (by omega)]
          simp only [wholePart,saturated]
          omega
  | infinite negative =>
    cases negative with
    | true => exact ⟨Int64.minValue,rfl,rfl⟩
    | false => exact ⟨Int64.maxValue,rfl,rfl⟩
  | nan => cases number

/-- Where the checked conversion of a Value returns, the one of sqlite gives the same integer. -/
theorem realToI64_of_operator {r : Double} {n : Int64} (converted : Conversion.operatorInt64 (.real r) = some (.ok n)) :
    realToI64 r = some n := by
  cases r with
  | finite q rep =>
    have other : Value.real (.finite q rep) ≠ .real (Number.ofRat (2^63)) := by
      intro same
      rw [same,(Conversion.operatorInt64_undefined_iff _).mpr rfl] at converted
      cases converted
    have exactly := @Conversion.operatorInt64_exact (.real (.finite q rep)) _ rfl other
    obtain ⟨same,_⟩ := (exactly.returns n.toInt).mp ⟨n,converted,rfl⟩
    obtain ⟨m,returned,value⟩ := @realToI64_eq (.finite q rep) rfl
    rw [returned]
    congr 1
    apply Int64.toInt_inj.mp
    rw [value,wholePart,← same,NearestEven.truncated_intCast,saturated_inside]
  | infinite negative =>
    have thrown := @Conversion.losslessConvert1_not_finite Int64 _ (.infinite negative) rfl
    cases thrown.symm.trans converted
  | nan =>
    have thrown := @Conversion.losslessConvert1_not_finite Int64 _ .nan rfl
    cases thrown.symm.trans converted

/-- A numeral in the form that integers are written in: no spaces, no plus, no zero in front. -/
def Canonical64 (text : Bytes) : Prop :=
  text = [48] ∨ ∃ digits : Bytes, digits ≠ [] ∧ (∀ c ∈ digits, isDigit c = true) ∧ digits.head? ≠ some 48 ∧
    (text = digits ∧ numeralOf digits < 2^63 ∨ text = 45::digits ∧ numeralOf digits ≤ 2^63)

theorem canonical_of_head {digits : Bytes} (numeric : ∀ c ∈ digits, isDigit c = true) :
    digits.head? ≠ some 48 ↔ Canonical (digits.map digitOf) := by
  unfold Canonical
  cases digits with
  | nil => simp
  | cons c digits =>
    have first := numeric c List.mem_cons_self
    simp only [isDigit,decide_eq_true_eq] at first
    simp only [List.map_cons,List.head?_cons,ne_eq,Option.some.injEq,Fin.ext_iff,digitOf]
    omega

theorem map_digit {text : Bytes} (numeric : ∀ c ∈ text, isDigit c = true) : (text.map digitOf).map digit = text := by
  have each : ∀ c ∈ text, (digit ∘ digitOf) c = c := by
    intro c member
    have first := numeric c member
    have value := digit_val (digitOf_lt first)
    simp only [isDigit,decide_eq_true_eq] at first
    apply Fin.ext
    rw [Function.comp_apply,value,digitOf]
    omega
  rw [List.map_map,List.map_congr_left each,List.map_id']

theorem digitPairs_numeralOf {digits : Bytes} (numeric : ∀ c ∈ digits, isDigit c = true)
    (canonical : digits.head? ≠ some 48) : digitPairs (numeralOf digits) [] = digits := by
  obtain ⟨numeric',number,canonical'⟩ := digitPairs_writes (numeralOf digits)
  have same := Canonical.unique ten_base canonical' ((canonical_of_head numeric).mp canonical) (digits_lt numeric')
    (digits_lt numeric) number
  rw [← map_digit numeric',same,map_digit numeric]

theorem numeralOf_pos {digits : Bytes} (filled : digits ≠ []) (numeric : ∀ c ∈ digits, isDigit c = true)
    (canonical : digits.head? ≠ some 48) : 0 < numeralOf digits := by
  have bound := le_value ((canonical_of_head numeric).mp canonical) (mt List.map_eq_nil_iff.mp filled) (b := 10)
  exact lt_of_lt_of_le (Nat.pow_pos (by decide)) bound

theorem canonical_int64ToText (v : Int64) : Canonical64 (int64ToText v) := by
  have low : -2^63 ≤ v.toInt := v.le_toInt
  have high : v.toInt < 2^63 := v.toInt_lt
  have writes {x : Nat} (some : x ≠ 0) (writes : Writes x (digitPairs x [])) :
      digitPairs x [] ≠ [] ∧ (digitPairs x []).head? ≠ Option.some 48 := by
    refine ⟨?_,(canonical_of_head writes.numeric).mpr writes.canonical⟩
    intro none
    have number := writes.number
    rw [none] at number
    exact some number.symm
  unfold int64ToText
  split_ifs with positive zero
  · have written := digitPairs_writes v.toInt.toNat
    obtain ⟨filled,head⟩ := writes (by omega) written
    exact .inr ⟨_,filled,written.numeric,head,.inl ⟨rfl,by rw [written.number]; omega⟩⟩
  · exact .inl rfl
  · have written := digitPairs_writes (-v.toInt).toNat
    obtain ⟨filled,head⟩ := writes (by omega) written
    exact .inr ⟨_,filled,written.numeric,head,.inr ⟨rfl,by rw [written.number]; omega⟩⟩

/-- A text that was read as an integer is written back as it was exactly in canonical form. -/
theorem int64ToText_atoi64_iff (text : Bytes) : int64ToText (atoi64 text).2 = text ↔ Canonical64 text := by
  constructor
  · intro same
    rw [← same]
    exact canonical_int64ToText _
  · intro canonical
    obtain ⟨v,rfl⟩ : ∃ v, text = int64ToText v := by
      rcases canonical with rfl | ⟨digits,filled,numeric,head,⟨rfl,small⟩ | ⟨rfl,small⟩⟩
      · exact ⟨0,rfl⟩
      · have positive := numeralOf_pos filled numeric head
        refine ⟨Int64.ofNat (numeralOf text),?_⟩
        have value := Int64.toInt_ofNat_of_lt small
        rw [int64ToText,if_pos (by omega),value,Int.toNat_natCast,digitPairs_numeralOf numeric head]
      · have positive := numeralOf_pos filled numeric head
        refine ⟨-Int64.ofNat (numeralOf digits),?_⟩
        have value := Int64.toInt_neg_ofNat_of_le small
        rw [int64ToText,if_neg (by omega),if_neg (by omega),value,neg_neg,Int.toNat_natCast,
          digitPairs_numeralOf numeric head]
    rw [atoi64_int64ToText]

end Sl3.IntegerText
