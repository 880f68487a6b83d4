import Sl3.MixedNumbers
import Sl3.Mem

/-! The order in which sqlite puts two values, `sqlite3MemCompare` and the comparison of registers
for `ORDER BY`, and where the comparison functions of the library are the same. Texts are those of a connection of
UTF-8, which have no other encoding to be converted from. -/
namespace Sl3.SqliteOrder
open Library Library.Binary Library.NearestEven Value

section compare

/-- `memcmp` of the first `n` bytes, up to the sign that the standard promises. -/
def memcmp : Nat → Bytes → Bytes → Int
  | n + 1,a::s,b::t => if a < b then -1 else if b < a then 1 else memcmp n s t
  | _,_,_ => 0

def binCollFunc (s t : Bytes) : Int :=
  if memcmp (min s.length t.length) s t = 0 then (s.length : Int) - t.length else memcmp (min s.length t.length) s t

/-- `sqlite3BlobCompare`, for blobs that are written out. -/
def blobCompare (s t : Bytes) : Int :=
  if memcmp (min s.length t.length) s t ≠ 0 then memcmp (min s.length t.length) s t else (s.length : Int) - t.length

def threeWay {α : Type} [LT α] [DecidableLT α] (x y : α) : Int := if x < y then -1 else if y < x then 1 else 0

/-- `sqlite3IntFloatCompare`; `none` stands for a cast that is undefined. -/
def intFloatCompare (i : Int64) (r : Double) : Option Int :=
  if r.isNaN then some 1
  else if r.lt (Number.ofRat (-9223372036854775808)) then some 1
  else if (Number.ofRat 9223372036854775808 : Double).le r then some (-1)
  else
    match Conversion.staticCast Int64 r with
    | none => none
    | some y =>
      if i < y then some (-1)
      else if y < i then some 1
      else some (if (Double.ofInt64 i).lt r then -1 else if r.lt (Double.ofInt64 i) then 1 else 0)

/-- `sqlite3MemCompare`, for texts in the encoding of the collation. -/
def memCompare (pColl : Option (Bytes → Bytes → Int)) (m1 m2 : Mem) : Option Int :=
  match m1.kind,m2.kind with
  | .null,.null => some 0
  | .null,_ => some (-1)
  | _,.null => some 1
  | .int i,.int j => some (threeWay i j)
  | .real x,.real y => some (if x.lt y then -1 else if y.lt x then 1 else 0)
  | .int i,.real y => intFloatCompare i y
  | .real x,.int j => (intFloatCompare j x).map (- ·)
  | .int _,.bytes => some (-1)
  | .real _,.bytes => some (-1)
  | .bytes,.int _ => some 1
  | .bytes,.real _ => some 1
  | .bytes,.bytes =>
    if m1.str ∨ m2.str then
      if !m1.str then some 1
      else if !m2.str then some (-1)
      else
        match pColl with
        | some xCmp => some (xCmp m1.z m2.z)
        | none => some (blobCompare m1.z m2.z)
    else some (blobCompare m1.z m2.z)

/-- `OP_Compare` with a permutation of the registers, for ascending order: the first that differ decide. -/
def opCompare (pColl : Option (Bytes → Bytes → Int)) (p1 p2 : Nat → Mem) : List Nat → Option Int
  | [] => some 0
  | idx::aPermute =>
    match memCompare pColl (p1 idx) (p2 idx) with
    | none => none
    | some iCompare => if iCompare ≠ 0 then some iCompare else opCompare pColl p1 p2 aPermute

end compare

section signs
variable {α : Type} [LinearOrder α] {c : Int} {x y : α}

/-- The sign of an answer is the order of two places. -/
def Signs (c : Int) (x y : α) : Prop := (c < 0 ↔ x < y) ∧ (c = 0 ↔ x = y)

theorem threeWay_signs (x y : α) : Signs (threeWay x y) x y := by
  unfold threeWay Signs
  rcases lt_trichotomy x y with less | same | more
  · simp [less,less.ne]
  · simp [same]
  · simp [more,more.not_gt,more.ne']

theorem Signs.neg (signs : Signs c x y) : Signs (-c) y x := by
  obtain ⟨less,same⟩ := signs
  constructor
  · have more : 0 < c ↔ y < x := by
      rw [← not_le,le_iff_lt_or_eq,less,same,← le_iff_lt_or_eq,not_le]
    rw [← more]
    omega
  · rw [@eq_comm _ y x,← same]
    omega

theorem Signs.of_iff {β : Type} [LinearOrder β] {x' y' : β} (signs : Signs c x y) (less : x < y ↔ x' < y')
    (same : x = y ↔ x' = y') : Signs c x' y' :=
  ⟨signs.1.trans less,signs.2.trans same⟩

end signs

section bytes
variable {s t : Bytes}

theorem binCollFunc_cons (a b : Byte) (s t : Bytes) : binCollFunc (a::s) (b::t) =
    if a < b then -1 else if b < a then 1 else binCollFunc s t := by
  simp only [binCollFunc,List.length_cons,Nat.add_min_add_right,memcmp]
  split_ifs <;> simp_all

theorem binCollFunc_signs (s t : Bytes) : Signs (binCollFunc s t) s t := by
  induction s generalizing t with
  | nil =>
    cases t with
    | nil => simp [Signs,binCollFunc,memcmp]
    | cons b t =>
      simp [Signs,binCollFunc,memcmp]
      omega
  | cons a s ih =>
    cases t with
    | nil =>
      simp [Signs,binCollFunc,memcmp]
      omega
    | cons b t =>
      rw [binCollFunc_cons]
      rcases lt_trichotomy a b with less | rfl | more
      · simp [Signs,less,less.ne,List.cons_lt_cons_iff]
      · simpa [Signs,List.cons_lt_cons_iff] using ih t
      · simp [Signs,more,more.not_gt,more.ne',List.cons_lt_cons_iff]

theorem blobCompare_eq (s t : Bytes) : blobCompare s t = binCollFunc s t := by
  unfold blobCompare binCollFunc
  split_ifs <;> first | rfl | contradiction

end bytes

section numbers

theorem limit_representable : binary64.Representable 9223372036854775808 :=
  ⟨1,63,by decide,by decide,by decide,by norm_num⟩

theorem intFloatCompare_finite (i : Int64) {q : ℚ} (rep : binary64.Representable q) :
    intFloatCompare i (.finite q rep) = some (threeWay (i.toInt : ℚ) q) := by
  have low : -2^63 ≤ i.toInt := i.le_toInt
  have high : i.toInt < 2^63 := i.toInt_lt
  have least : (Number.ofRat (-9223372036854775808) : Double) = .finite _ limit_representable.neg :=
    Number.ofRat_of_representable _
  have most : (Number.ofRat 9223372036854775808 : Double) = .finite _ limit_representable := Number.ofRat_of_representable _
  rw [intFloatCompare,least,most]
  by_cases below : q < -9223372036854775808
  · have order : q < i.toInt := below.trans_le (by exact_mod_cast low)
    simp [Number.isNaN,Number.lt,below,threeWay,order,order.not_gt]
  by_cases above : 9223372036854775808 ≤ q
  · have order : (i.toInt : ℚ) < q := lt_of_lt_of_le (by exact_mod_cast high) above
    have compared : (Number.finite 9223372036854775808 limit_representable : Double).le (.finite q rep) = true := by
      simpa [Number.le,Number.lt,Number.eq,le_iff_lt_or_eq] using above
    simp [Number.isNaN,Number.lt,below,compared,threeWay,order]
  have cut : -2^63 ≤ truncated q := le_truncated (by exact_mod_cast not_lt.mp below)
  have cut' : truncated q ≤ 2^63 - 1 := by
    rcases truncated_between q with ⟨_,le⟩ | ⟨_,negative⟩
    · exact Int.le_sub_one_of_lt (by exact_mod_cast le.trans_lt (not_le.mp above))
    · omega
  have cast : Conversion.staticCast Int64 (.finite q rep) = some (Int64.ofInt (truncated q)) := by
    rw [Conversion.staticCast,Conversion.int64_limits.1,Conversion.int64_limits.2,if_pos ⟨cut,cut'⟩]
    rfl
  have value : (Int64.ofInt (truncated q)).toInt = truncated q := Int64.toInt_ofInt_of_le cut (by omega)
  have compared : (Number.finite 9223372036854775808 limit_representable : Double).le (.finite q rep) = false := by
    simpa [Number.le,Number.lt,Number.eq,le_iff_lt_or_eq] using above
  simp only [Number.isNaN,Number.lt,below,compared,cast,decide_false,Bool.false_eq_true,if_false]
  by_cases less : i.toInt < truncated q
  · have order : (i.toInt : ℚ) < q := not_le.mp fun le => absurd (truncated_le le) less.not_ge
    simp [Int64.lt_iff_toInt_lt,value,less,threeWay,order]
  by_cases more : truncated q < i.toInt
  · have order : q < i.toInt := not_le.mp fun le => absurd (le_truncated le) more.not_ge
    simp [Int64.lt_iff_toInt_lt,value,less,more,threeWay,order,order.not_gt]
  -- an integer that a double is cut to is a double itself
  have same : Double.ofInt64 i = .finite _ rep.truncated := by
    rw [Double.ofInt64,le_antisymm (not_lt.mp more) (not_lt.mp less)]
    exact Number.ofRat_of_representable _
  simp [Int64.lt_iff_toInt_lt,value,same,threeWay,le_antisymm (not_lt.mp more) (not_lt.mp less)]

theorem finite_lt_infinite (q : ℚ) :
    ((q : WithTop ℚ) : WithBot (WithTop ℚ)) < ((⊤ : WithTop ℚ) : WithBot (WithTop ℚ)) :=
  WithBot.coe_lt_coe.mpr (WithTop.coe_lt_top q)

def exactRank (n : Int64) : WithBot (WithTop ℚ) := (((n.toInt : ℚ) : WithTop ℚ) : WithBot (WithTop ℚ))

theorem intFloatCompare_signs (i : Int64) {r : Double} (number : r.isNaN = false) :
    ∃ c, intFloatCompare i r = some c ∧ Signs c (exactRank i) r.rank := by
  cases r with
  | finite q rep =>
    refine ⟨_,intFloatCompare_finite i rep,(threeWay_signs (i.toInt : ℚ) q).of_iff ?_ ?_⟩
    · simp [exactRank,Number.rank]
    · simp [exactRank,Number.rank]
  | infinite negative =>
    have least : (Number.ofRat (-9223372036854775808) : Double) = .finite _ limit_representable.neg :=
      Number.ofRat_of_representable _
    have most : (Number.ofRat 9223372036854775808 : Double) = .finite _ limit_representable :=
      Number.ofRat_of_representable _
    have finite : exactRank i < (⊤ : WithTop ℚ) := finite_lt_infinite i.toInt
    rw [intFloatCompare,least,most]
    cases negative with
    | true => exact ⟨1,rfl,by simp [Signs,Number.rank,exactRank]⟩
    | false => exact ⟨-1,rfl,by simpa [Signs,Number.rank] using ⟨finite,finite.ne⟩⟩
  | nan => cases number

theorem real_signs {x y : Double} (hx : x.isNaN = false) (hy : y.isNaN = false) :
    Signs (if x.lt y then -1 else if y.lt x then 1 else 0) x.rank y.rank := by
  simp only [Number.lt_iff_rank hx hy,Number.lt_iff_rank hy hx]
  exact threeWay_signs x.rank y.rank

end numbers

section key
variable {a b : Value}

/-- Place of a value in the order of sqlite. -/
def exactKey : Value → ℕ ×ₗ WithBot (WithTop ℚ) ×ₗ Bytes
  | null => toLex (0,toLex (⊥,[]))
  | int n => toLex (1,toLex (exactRank n,[]))
  | real x => toLex (1,toLex (x.rank,[]))
  | text s => toLex (2,toLex (⊥,s))
  | blob s => toLex (3,toLex (⊥,s))

/-- What sqlite holds of a value. -/
def held : Value → Cell
  | null => .null
  | int n => .integer n
  | real x => .float x
  | text s => .text s
  | blob s => .blob s

/-- sqlite compares any two values by one key, integers and doubles by their exact numbers. -/
theorem memCompare_signs (ha : a.NonNaN) (hb : b.NonNaN) :
    ∃ c, memCompare (some binCollFunc) (.ofCell (held a)) (.ofCell (held b)) = some c ∧ Signs c (exactKey a) (exactKey b) := by
  cases a with
  | null =>
    cases b with
    | null => exact ⟨0,rfl,by simp [Signs]⟩
    | _ => exact ⟨-1,rfl,by simp [Signs,exactKey,Prod.Lex.toLex_lt_toLex]⟩
  | int n =>
    cases b with
    | null => exact ⟨1,rfl,by simp [Signs,exactKey,Prod.Lex.toLex_lt_toLex]⟩
    | int m =>
      refine ⟨threeWay n m,rfl,?_⟩
      unfold threeWay
      simp only [Int64.lt_iff_toInt_lt]
      apply (threeWay_signs n.toInt m.toInt).of_iff
      · simp [exactKey,exactRank,Prod.Lex.toLex_lt_toLex]
      · simp [exactKey,exactRank]
    | real y =>
      obtain ⟨c,compared,signs⟩ := intFloatCompare_signs n hb
      refine ⟨c,compared,signs.of_iff ?_ ?_⟩
      · simp [exactKey,Prod.Lex.toLex_lt_toLex]
      · simp [exactKey]
    | _ => exact ⟨-1,rfl,by simp [Signs,exactKey,Prod.Lex.toLex_lt_toLex]⟩
  | real x =>
    cases b with
    | null => exact ⟨1,rfl,by simp [Signs,exactKey,Prod.Lex.toLex_lt_toLex]⟩
    | int m =>
      obtain ⟨c,compared,signs⟩ := intFloatCompare_signs m ha
      have answer : memCompare (some binCollFunc) (.ofCell (held (real x))) (.ofCell (held (int m))) =
          (intFloatCompare m x).map (- ·) := rfl
      refine ⟨-c,by rw [answer,compared]; rfl,signs.neg.of_iff ?_ ?_⟩
      · simp [exactKey,Prod.Lex.toLex_lt_toLex]
      · simp [exactKey]
    | real y =>
      refine ⟨_,rfl,(real_signs ha hb).of_iff ?_ ?_⟩
      · simp [exactKey,Prod.Lex.toLex_lt_toLex]
      · simp [exactKey]
    | _ => exact ⟨-1,rfl,by simp [Signs,exactKey,Prod.Lex.toLex_lt_toLex]⟩
  | text s =>
    cases b with
    | text t =>
      refine ⟨binCollFunc s t,rfl,(binCollFunc_signs s t).of_iff ?_ ?_⟩
      · simp [exactKey,Prod.Lex.toLex_lt_toLex]
      · simp [exactKey]
    | blob t => exact ⟨-1,rfl,by simp [Signs,exactKey,Prod.Lex.toLex_lt_toLex]⟩
    | _ => exact ⟨1,rfl,by simp [Signs,exactKey,Prod.Lex.toLex_lt_toLex]⟩
  | blob s =>
    cases b with
    | blob t =>
      refine ⟨binCollFunc s t,congrArg some (blobCompare_eq s t),(binCollFunc_signs s t).of_iff ?_ ?_⟩
      · simp [exactKey,Prod.Lex.toLex_lt_toLex]
      · simp [exactKey]
    | _ => exact ⟨1,rfl,by simp [Signs,exactKey,Prod.Lex.toLex_lt_toLex]⟩

/-- An integer beside another double than its own number that it is converted to. -/
def Absorbed (a b : Value) : Prop :=
  ∃ (n : Int64) (q : ℚ) (rep : binary64.Representable q), Double.ofInt64 n = .finite q rep ∧ (n.toInt : ℚ) ≠ q ∧
    (a = int n ∧ b = real (.finite q rep) ∨ a = real (.finite q rep) ∧ b = int n)

theorem Absorbed.swap (absorbed : Absorbed a b) : Absorbed b a := by
  obtain ⟨n,q,rep,same,differs,⟨ha,hb⟩ | ⟨ha,hb⟩⟩ := absorbed
  · exact ⟨n,q,rep,same,differs,.inr ⟨hb,ha⟩⟩
  · exact ⟨n,q,rep,same,differs,.inl ⟨hb,ha⟩⟩

theorem Absorbed.types (absorbed : Absorbed a b) :
    a.getType = .int ∧ b.getType = .real ∨ a.getType = .real ∧ b.getType = .int := by
  obtain ⟨n,q,rep,_,_,⟨rfl,rfl⟩ | ⟨rfl,rfl⟩⟩ := absorbed
  · exact .inl ⟨rfl,rfl⟩
  · exact .inr ⟨rfl,rfl⟩

theorem ofInt64_bounded (n : Int64) : ∃ q rep, Double.ofInt64 n = .finite q rep := by
  have low : ((-9223372036854775808 : ℚ)) ≤ n.toInt := by exact_mod_cast n.le_toInt
  have high : (n.toInt : ℚ) ≤ 9223372036854775808 := by exact_mod_cast n.toInt_lt.le
  have above := @Number.ofRat_mono binary64 _ _ low
  have below := @Number.ofRat_mono binary64 _ _ high
  rw [Number.ofRat_of_representable limit_representable.neg] at above
  rw [Number.ofRat_of_representable limit_representable] at below
  have number := Ordering.ofInt64_isNaN n
  unfold Double.ofInt64 at number ⊢
  cases rounded : (Number.ofRat (n.toInt : ℚ) : Double) with
  | finite q rep => exact ⟨q,rep,rfl⟩
  | infinite negative =>
    rw [rounded] at above below
    cases negative with
    | true => simp [Number.rank] at above
    | false => exact absurd below (not_le.mpr (finite_lt_infinite _))
  | nan =>
    rw [rounded] at number
    cases number

theorem rank_absorbed {n : Int64} {x : Double} (number : x.isNaN = false) (apart : ¬ Absorbed (int n) (real x)) :
    ((Double.ofInt64 n).rank < x.rank ↔ exactRank n < x.rank) ∧ (x.rank < (Double.ofInt64 n).rank ↔ x.rank < exactRank n) := by
  cases x with
  | finite q rep =>
    have exactly : Double.ofInt64 n = .finite q rep → (n.toInt : ℚ) = q := by
      intro same
      by_contra differs
      exact apart ⟨n,q,rep,same,differs,.inl ⟨rfl,rfl⟩⟩
    simpa [exactRank,Number.rank] using @MixedNumbers.rank_lt_iff n q rep exactly
  | infinite negative =>
    obtain ⟨q,rep,same⟩ := ofInt64_bounded n
    cases negative with
    | true => simp [same,Number.rank,exactRank]
    | false =>
      rw [same]
      exact ⟨iff_of_true (finite_lt_infinite q) (finite_lt_infinite n.toInt),
        iff_of_false (finite_lt_infinite q).not_gt (finite_lt_infinite n.toInt).not_gt⟩
  | nan => cases number

theorem valueLt_exact (ha : a.NonNaN) (hb : b.NonNaN) (apart : ¬ Absorbed a b) :
    valueLt a b = true ↔ exactKey a < exactKey b := by
  cases a with
  | null => cases b <;> simp [valueLt,isNull,getType,exactKey,Prod.Lex.toLex_lt_toLex]
  | int n =>
    cases b with
    | int m => simp [valueLt,isNull,getType,exactKey,exactRank,Prod.Lex.toLex_lt_toLex,Int64.lt_iff_toInt_lt]
    | real y =>
      have order := (rank_absorbed hb apart).1
      simpa [valueLt,isNull,getType,exactKey,Prod.Lex.toLex_lt_toLex,isLess,ToDouble.toDouble,
        Number.lt_iff_rank (Ordering.ofInt64_isNaN n) hb] using order
    | _ => simp [valueLt,isNull,getType,exactKey,Prod.Lex.toLex_lt_toLex]
  | real x =>
    cases b with
    | int m =>
      have order := (rank_absorbed ha fun absorbed => apart absorbed.swap).2
      simpa [valueLt,isNull,getType,exactKey,Prod.Lex.toLex_lt_toLex,isLess,ToDouble.toDouble,
        Number.lt_iff_rank ha (Ordering.ofInt64_isNaN m)] using order
    | real y =>
      have order := Number.lt_iff_rank ha hb
      simpa [valueLt,isNull,getType,exactKey,Prod.Lex.toLex_lt_toLex] using order
    | _ => simp [valueLt,isNull,getType,exactKey,Prod.Lex.toLex_lt_toLex]
  | text s => cases b <;> simp [valueLt,isNull,getType,exactKey,Prod.Lex.toLex_lt_toLex,bytesLess]
  | blob s => cases b <;> simp [valueLt,isNull,getType,exactKey,Prod.Lex.toLex_lt_toLex,bytesLess]

theorem rank_eq_absorbed {n : Int64} {x : Double} (number : x.isNaN = false) (apart : ¬ Absorbed (int n) (real x)) :
    (Double.ofInt64 n).rank = x.rank ↔ exactRank n = x.rank := by
  obtain ⟨below,above⟩ := rank_absorbed number apart
  rw [le_antisymm_iff,le_antisymm_iff,← not_lt,← not_lt,← not_lt,← not_lt,below,above]

theorem valueEq_exact (ha : a.NonNaN) (hb : b.NonNaN) (apart : ¬ Absorbed a b) :
    valueEq a b = true ↔ exactKey a = exactKey b := by
  cases a with
  | null => cases b <;> simp [valueEq,isNull,getType,exactKey]
  | int n =>
    cases b with
    | int m => simp [valueEq,exactKey,exactRank,Int64.toInt_inj]
    | real y =>
      have order := rank_eq_absorbed hb apart
      simpa [valueEq,exactKey,isEqual,ToDouble.toDouble,Number.eq_iff_rank (Ordering.ofInt64_isNaN n) hb] using order
    | _ => simp [valueEq,exactKey]
  | real x =>
    cases b with
    | int m =>
      have order := rank_eq_absorbed ha fun absorbed => apart absorbed.swap
      simpa [valueEq,exactKey,isEqual,ToDouble.toDouble,Number.eq_iff_rank ha (Ordering.ofInt64_isNaN m),eq_comm] using order
    | real y =>
      have order := Number.eq_iff_rank ha hb
      simpa [valueEq,exactKey] using order
    | _ => simp [valueEq,exactKey]
  | text s => cases b <;> simp [valueEq,exactKey]
  | blob s => cases b <;> simp [valueEq,exactKey]

/-- `value_lt` and `value_eq` against what sqlite says of the same two values. -/
def ComparesLikeSqlite (a b : Value) : Prop :=
  ∃ c, memCompare (some binCollFunc) (.ofCell (held a)) (.ofCell (held b)) = some c ∧
    (valueLt a b = true ↔ c < 0) ∧ (valueEq a b = true ↔ c = 0)

/-- The two comparisons are those of sqlite for all values, NULLs, texts and blobs included, other than an integer
and the double that it is rounded to. -/
theorem comparesLikeSqlite_iff (ha : a.NonNaN) (hb : b.NonNaN) : ComparesLikeSqlite a b ↔ ¬ Absorbed a b := by
  obtain ⟨c,compared,less,same⟩ := memCompare_signs ha hb
  constructor
  · rintro ⟨c',compared',_,equal⟩ ⟨n,q,rep,rounded,differs,⟨rfl,rfl⟩ | ⟨rfl,rfl⟩⟩
    · cases compared.symm.trans compared'
      have key := same.mp (equal.mp (by simp [valueEq,isEqual,ToDouble.toDouble,rounded,Number.eq]))
      exact differs (by simpa [exactKey,exactRank,Number.rank] using key)
    · cases compared.symm.trans compared'
      have key := same.mp (equal.mp (by simp [valueEq,isEqual,ToDouble.toDouble,rounded,Number.eq]))
      exact differs (by simpa [exactKey,exactRank,Number.rank,eq_comm] using key)
  · intro apart
    exact ⟨c,compared,(valueLt_exact ha hb apart).trans less.symm,(valueEq_exact ha hb apart).trans same.symm⟩

def twoTo54 : Double := .finite (2^54) (representable_two_pow (by decide))

theorem comparesLikeSqlite_beyond : ComparesLikeSqlite (int 9007199254740993) (real twoTo54) := by
  have number : (real twoTo54).NonNaN := (rfl : twoTo54.isNaN = false)
  refine (@comparesLikeSqlite_iff (int 9007199254740993) _ trivial number).mpr ?_
  rintro ⟨n,q,rep,rounded,_,⟨left,right⟩ | ⟨left,_⟩⟩
  · cases left
    rw [← Value.real.inj right] at rounded
    exact absurd rounded (by decide +kernel)
  · cases left

end key

end Sl3.SqliteOrder
