import Sl3.Library.StrictWeak
import Sl3.DbValue

/-! The order laws of the comparators that `Dataset::sort` is given. Both typed and
untyped comparison follow a key, the place of the number being that of its double. -/
namespace Sl3.Ordering
open Library Library.Binary Library.StrictWeak Value

theorem ofInt64_isNaN (n : Int64) : (Double.ofInt64 n).isNaN = false := Number.ofRat_isNaN _

theorem ofInt64_mono {n m : Int64} (le : n ≤ m) :
    (Double.ofInt64 n).rank ≤ (Double.ofInt64 m).rank :=
  Number.ofRat_mono (by exact_mod_cast Int64.le_iff_toInt_le.mp le)

/-- Place of a value when integers are only known by their double. -/
def key : Value → ℕ ×ₗ WithBot (WithTop ℚ) ×ₗ Bytes
  | null => toLex (0,toLex (⊥,[]))
  | int n => toLex (1,toLex ((Double.ofInt64 n).rank,[]))
  | real x => toLex (1,toLex (x.rank,[]))
  | text s => toLex (2,toLex (⊥,s))
  | blob s => toLex (3,toLex (⊥,s))

/-- Place of a value in the typed order: integers come before an equal double, and
among themselves by their exact number. -/
def typedKey : Value → ℕ ×ₗ WithBot (WithTop ℚ) ×ₗ ℕ ×ₗ ℤ ×ₗ Bytes
  | null => toLex (0,toLex (⊥,toLex (0,toLex (0,[]))))
  | int n => toLex (1,toLex ((Double.ofInt64 n).rank,toLex (0,toLex (n.toInt,[]))))
  | real x => toLex (1,toLex (x.rank,toLex (1,toLex (0,[]))))
  | text s => toLex (2,toLex (⊥,toLex (0,toLex (0,s))))
  | blob s => toLex (3,toLex (⊥,toLex (0,toLex (0,s))))

theorem int_lt_iff_rank (n m : Int64) : n < m ↔
    (Double.ofInt64 n).rank < (Double.ofInt64 m).rank ∨
      (Double.ofInt64 n).rank = (Double.ofInt64 m).rank ∧ n < m := by
  constructor
  · intro less
    rcases (ofInt64_mono (Int64.le_of_lt less)).lt_or_eq with below | same
    · exact .inl below
    · exact .inr ⟨same,less⟩
  · rintro (below | ⟨_,less⟩)
    · rcases Int64.lt_or_le n m with less | le
      · exact less
      · exact absurd below (not_lt.mpr (ofInt64_mono le))
    · exact less

theorem valueTypeLt_iff_key {a b : Value} (ha : a.NonNaN) (hb : b.NonNaN) :
    valueTypeLt a b = true ↔ typedKey a < typedKey b := by
  cases a with
  | null => cases b <;> simp [valueTypeLt,isNull,getType,typedKey,Prod.Lex.toLex_lt_toLex]
  | int n =>
    cases b with
    | int m =>
      have exact_order := int_lt_iff_rank n m
      simpa [valueTypeLt,isNull,getType,typedKey,Prod.Lex.toLex_lt_toLex,Int64.lt_iff_toInt_lt]
        using exact_order
    | real y =>
      have compared := Number.le_iff_rank (ofInt64_isNaN n) hb
      simpa [valueTypeLt,isNull,getType,typedKey,Prod.Lex.toLex_lt_toLex,isLessEqual,
        ToDouble.toDouble,le_iff_lt_or_eq] using compared
    | _ => simp [valueTypeLt,isNull,getType,typedKey,Prod.Lex.toLex_lt_toLex]
  | real x =>
    cases b with
    | int m =>
      have compared := Number.lt_iff_rank ha (ofInt64_isNaN m)
      simpa [valueTypeLt,isNull,getType,typedKey,Prod.Lex.toLex_lt_toLex,isLess,
        ToDouble.toDouble] using compared
    | real y =>
      have compared := Number.lt_iff_rank ha hb
      simpa [valueTypeLt,isNull,getType,typedKey,Prod.Lex.toLex_lt_toLex] using compared
    | _ => simp [valueTypeLt,isNull,getType,typedKey,Prod.Lex.toLex_lt_toLex]
  | text s =>
    cases b <;> simp [valueTypeLt,isNull,getType,typedKey,Prod.Lex.toLex_lt_toLex,bytesLess]
  | blob s =>
    cases b <;> simp [valueTypeLt,isNull,getType,typedKey,Prod.Lex.toLex_lt_toLex,bytesLess]

theorem typedKey_injective {a b : Value} (ha : a.NonNaN) (hb : b.NonNaN)
    (same : typedKey a = typedKey b) : a = b := by
  cases a <;> cases b <;> simp [typedKey] at same ⊢
  · exact Int64.toInt_inj.mp same.2
  · exact Number.rank_injective ha hb same
  · exact same
  · exact same

theorem almostEqual_self {x : Double} (finite : x.isFinite = true) : almostEqual x x 2 = true := by
  cases x with
  | finite q rep =>
    have none : (Number.sub (.finite q rep) (.finite q rep)).abs.lt minNormal = true := by
      have zero : (Number.sub (.finite q rep) (.finite q rep) : Double) = Number.ofRat 0 := by
        rw [Number.sub_finite,sub_self]
      rw [zero]
      decide +kernel
    simp [almostEqual,none]
  | infinite negative => simp [Number.isFinite] at finite
  | nan => simp [Number.isFinite] at finite

theorem valueTypeEq_self {a : Value} (finite : a.Finite) : valueTypeEq a a = true := by
  cases a with
  | real x => simpa [valueTypeEq] using almostEqual_self finite
  | _ => simp [valueTypeEq,isNull,getType]

theorem valueTypeEq_real_or_eq {a b : Value} (equal : valueTypeEq a b = true) :
    a = b ∨ ∃ x y, a = real x ∧ b = real y ∧ almostEqual x y 2 = true := by
  cases a <;> cases b <;> simp_all [valueTypeEq,isNull,getType]

/-- `a` holds the larger double, the tolerance test takes the two for equal, and the
dbtypes order them the other way round. -/
def Inverted (a b : DbValue) : Prop :=
  ∃ x y : Double, a.value = real x ∧ b.value = real y ∧ y.lt x = true ∧
    almostEqual x y 2 = true ∧ a.dbtype.code < b.dbtype.code

theorem dbvalTypeLt_iff (a b : DbValue) : a.dbvalTypeLt b = true ↔
    valueTypeLt a.value b.value = true ∨
      valueTypeEq a.value b.value = true ∧ a.dbtype.code < b.dbtype.code := by
  unfold DbValue.dbvalTypeLt
  split_ifs with less equal <;> simp_all

theorem dbvalTypeLt_iff_key {a b : DbValue} (ha : a.value.Finite) (hb : b.value.Finite)
    (regular : ¬ Inverted a b) : a.dbvalTypeLt b = true ↔
      toLex (typedKey a.value,a.dbtype.code) < toLex (typedKey b.value,b.dbtype.code) := by
  rw [dbvalTypeLt_iff,valueTypeLt_iff_key ha.nonNaN hb.nonNaN,Prod.Lex.toLex_lt_toLex]
  constructor
  · rintro (less | ⟨equal,types⟩)
    · exact .inl less
    rcases valueTypeEq_real_or_eq equal with same | ⟨x,y,hx,hy,close⟩
    · exact .inr ⟨congrArg typedKey same,types⟩
    rcases lt_trichotomy (typedKey a.value) (typedKey b.value) with less | same | more
    · exact .inl less
    · exact .inr ⟨same,types⟩
    · rw [← valueTypeLt_iff_key hb.nonNaN ha.nonNaN,hx,hy] at more
      exact absurd ⟨x,y,hx,hy,by simpa [valueTypeLt,isNull,getType] using more,close,types⟩ regular
  · rintro (less | ⟨same,types⟩)
    · exact .inl less
    · rw [typedKey_injective ha.nonNaN hb.nonNaN same]
      exact .inr ⟨valueTypeEq_self hb,types⟩

theorem Inverted.types {a b : DbValue} (left : a.TypeRule) (right : b.TypeRule)
    (inverted : Inverted a b) : a.dbtype = .real ∧ b.dbtype = .variant := by
  obtain ⟨x,y,hx,hy,_,_,types⟩ := inverted
  have leftCases : a.dbtype = .real ∨ a.dbtype = .variant := by
    rcases left.2 with null | own | variant
    · simp [DbValue.type,hx,getType] at null
    · exact .inl (own.symm.trans (by simp [DbValue.type,hx,getType]))
    · exact .inr variant
  have rightCases : b.dbtype = .real ∨ b.dbtype = .variant := by
    rcases right.2 with null | own | variant
    · simp [DbValue.type,hy,getType] at null
    · exact .inl (own.symm.trans (by simp [DbValue.type,hy,getType]))
    · exact .inr variant
  rcases leftCases with ha | ha <;> rcases rightCases with hb | hb <;>
    simp [ha,hb,ValueType.code] at types ⊢

/-- The typed comparison of database values is a strict weak ordering on a set of
them exactly when the set has no inverted pair. -/
theorem dbvalTypeLt_strictWeakOn_iff (S : Set DbValue) (finite : ∀ d ∈ S, d.value.Finite) :
    StrictWeakOn S DbValue.dbvalTypeLt ↔ ∀ a ∈ S, ∀ b ∈ S, ¬ Inverted a b := by
  constructor
  · rintro laws a ha b hb ⟨x,y,hx,hy,less,close,types⟩
    refine laws.asymm a ha b hb ⟨?_,?_⟩
    · rw [dbvalTypeLt_iff,hx,hy]
      exact .inr ⟨by simpa [valueTypeEq,getType] using close,types⟩
    · rw [dbvalTypeLt_iff,hx,hy]
      exact .inl (by simpa [valueTypeLt,isNull,getType] using less)
  · intro regular
    exact .of_key fun a ha b hb => dbvalTypeLt_iff_key (finite a ha) (finite b hb) (regular a ha b hb)

theorem dbvalTypeLt_strictWeakOn_one_two :
    let one : DbValue := ⟨.real,.real (Number.ofRat 1)⟩
    let two : DbValue := ⟨.real,.real (Number.ofRat 2)⟩
    StrictWeakOn {one,two} DbValue.dbvalTypeLt := by
  intro one two
  have finite : ∀ d ∈ ({one,two} : Set DbValue), d.value.Finite := by
    rintro d (rfl | rfl)
    · exact (by decide +kernel : (Number.ofRat 1 : Double).isFinite = true)
    · exact (by decide +kernel : (Number.ofRat 2 : Double).isFinite = true)
  refine (dbvalTypeLt_strictWeakOn_iff {one,two} finite).mpr ?_
  rintro a (rfl | rfl) b (rfl | rfl) ⟨x,y,_,_,_,_,types⟩ <;> exact absurd types (by decide)

theorem dbvalTypeLt_both_ways :
    let a : DbValue := ⟨.variant,.real (Number.ofRat 1)⟩
    let b : DbValue := ⟨.real,.real (Number.ofRat (1 + 1 / 2^52))⟩
    a.TypeRule ∧ b.TypeRule ∧ a.value.Finite ∧ b.value.Finite ∧
      a.dbvalTypeLt b = true ∧ b.dbvalTypeLt a = true ∧
      ¬ StrictWeakOn {a,b} DbValue.dbvalTypeLt := by
  intro a b
  have ab : a.dbvalTypeLt b = true := by decide +kernel
  have ba : b.dbvalTypeLt a = true := by decide +kernel
  refine ⟨by decide,by decide,?_,?_,ab,ba,fun laws => laws.asymm a (.inl rfl) b (.inr rfl) ⟨ab,ba⟩⟩
  · exact (by decide +kernel : (Number.ofRat 1 : Double).isFinite = true)
  · exact (by decide +kernel : (Number.ofRat (1 + 1 / 2^52) : Double).isFinite = true)

def IntLess (a b : Value) : Prop := ∃ n m, a = int n ∧ b = int m ∧ n < m

theorem intLess_irrefl (a : Value) : ¬ IntLess a a := by
  rintro ⟨n,m,ha,hb,less⟩
  have same : n = m := by simpa using ha.symm.trans hb
  exact Int64.lt_irrefl (same ▸ less)

theorem intLess_trans (a b c : Value) (left : IntLess a b) (right : IntLess b c) : IntLess a c := by
  obtain ⟨n,m,ha,hb,less⟩ := left
  obtain ⟨m',k,hb',hc,more⟩ := right
  have same : m = m' := by simpa using hb.symm.trans hb'
  exact ⟨n,k,ha,hc,Int64.lt_trans less (same ▸ more)⟩

theorem valueLt_iff_key {a b : Value} (ha : a.NonNaN) (hb : b.NonNaN) :
    valueLt a b = true ↔ key a < key b ∨ key a = key b ∧ IntLess a b := by
  cases a with
  | null => cases b <;> simp [valueLt,isNull,getType,key,Prod.Lex.toLex_lt_toLex,IntLess]
  | int n =>
    cases b with
    | int m =>
      have exact_order := int_lt_iff_rank n m
      simpa [valueLt,isNull,getType,key,Prod.Lex.toLex_lt_toLex,IntLess] using exact_order
    | real y =>
      have compared := Number.lt_iff_rank (ofInt64_isNaN n) hb
      simpa [valueLt,isNull,getType,key,Prod.Lex.toLex_lt_toLex,isLess,ToDouble.toDouble,IntLess]
        using compared
    | _ => simp [valueLt,isNull,getType,key,Prod.Lex.toLex_lt_toLex]
  | real x =>
    cases b with
    | int m =>
      have compared := Number.lt_iff_rank ha (ofInt64_isNaN m)
      simpa [valueLt,isNull,getType,key,Prod.Lex.toLex_lt_toLex,isLess,ToDouble.toDouble,IntLess]
        using compared
    | real y =>
      have compared := Number.lt_iff_rank ha hb
      simpa [valueLt,isNull,getType,key,Prod.Lex.toLex_lt_toLex,IntLess] using compared
    | _ => simp [valueLt,isNull,getType,key,Prod.Lex.toLex_lt_toLex]
  | text s =>
    cases b <;> simp [valueLt,isNull,getType,key,Prod.Lex.toLex_lt_toLex,bytesLess,IntLess]
  | blob s =>
    cases b <;> simp [valueLt,isNull,getType,key,Prod.Lex.toLex_lt_toLex,bytesLess,IntLess]

def Rounded (a b c : Value) : Prop :=
  ∃ n m : Int64, ∃ x : Double, a = int n ∧ b = real x ∧ c = int m ∧ n ≠ m ∧
    (Double.ofInt64 n).eq x = true ∧ (Double.ofInt64 m).eq x = true

theorem rounded_of_tie {n m : Int64} {b : Value} (hb : b.NonNaN) (less : n < m)
    (left : key (int n) = key b) (right : key b = key (int m))
    (free : ¬ IntLess (int n) b ∧ ¬ IntLess b (int n) ∧ ¬ IntLess b (int m)) :
    Rounded (int n) b (int m) := by
  cases b with
  | int k =>
    -- an integer tied with both is not between them, so `less` has no place to be
    have nk : ¬ n < k := fun below => free.1 ⟨n,k,rfl,rfl,below⟩
    have km : ¬ k < m := fun below => free.2.2 ⟨k,m,rfl,rfl,below⟩
    exact absurd (Int64.lt_of_lt_of_le less (Int64.not_lt.mp km)) nk
  | real x =>
    simp only [key,toLex_inj,Prod.mk.injEq,true_and,and_true] at left right
    refine ⟨n,m,x,rfl,rfl,rfl,fun same => Int64.lt_irrefl (same ▸ less),?_,?_⟩
    · exact (Number.eq_iff_rank (ofInt64_isNaN n) hb).mpr left
    · exact (Number.eq_iff_rank (ofInt64_isNaN m) hb).mpr right.symm
  | _ => simp [key] at left

/-- Comparing by a stored value is a strict weak ordering exactly when no two
different integers share their double with a stored double. -/
theorem valueLt_of_strictWeakOn_iff {α : Type*} (f : α → Value) (S : Set α)
    (nonNaN : ∀ a ∈ S, (f a).NonNaN) :
    StrictWeakOn S (fun a b => valueLt (f a) (f b)) ↔
      ∀ a ∈ S, ∀ b ∈ S, ∀ c ∈ S, ¬ Rounded (f a) (f b) (f c) := by
  have refines : RefinesKey S (fun a b => valueLt (f a) (f b)) (fun a => key (f a))
      (fun a b => IntLess (f a) (f b)) :=
    fun a ha b hb => valueLt_iff_key (nonNaN a ha) (nonNaN b hb)
  rw [refines.strictWeakOn_iff (fun a => intLess_irrefl (f a)) (fun a b c => intLess_trans _ _ _)]
  constructor
  · rintro inside a ha b hb c hc ⟨n,m,x,an,bx,cm,differ,left,right⟩
    have hx := nonNaN b hb
    rw [bx] at hx
    have leftTie : key (f a) = key (f b) := by
      simp [an,bx,key,(Number.eq_iff_rank (ofInt64_isNaN n) hx).mp left]
    have rightTie : key (f b) = key (f c) := by
      simp [bx,cm,key,(Number.eq_iff_rank (ofInt64_isNaN m) hx).mp right]
    -- a double is never ordered against an integer inside a tie
    have free (v : Value) : ¬ IntLess v (f b) ∧ ¬ IntLess (f b) v := by
      simp [IntLess,bx]
    rcases Int64.lt_or_lt_of_ne differ with less | more
    · exact inside a ha b hb c hc leftTie rightTie (free _).1 (free _).2 (free _).2 (free _).1
        ⟨n,m,an,cm,less⟩
    · exact inside c hc b hb a ha rightTie.symm leftTie.symm (free _).1 (free _).2 (free _).2 (free _).1
        ⟨m,n,cm,an,more⟩
  · rintro regular a ha b hb c hc ab bc nab nba nbc _ ⟨n,m,an,cm,less⟩
    apply regular a ha b hb c hc
    rw [an] at ab nab nba ⊢
    rw [cm] at bc nbc ⊢
    exact rounded_of_tie (nonNaN b hb) less ab bc ⟨nab,nba,nbc⟩

theorem valueLt_strictWeakOn_iff (S : Set Value) (D : Set DbValue)
    (values : ∀ a ∈ S, a.NonNaN) (cells : ∀ d ∈ D, d.value.NonNaN) :
    (StrictWeakOn S valueLt ↔ ∀ a ∈ S, ∀ b ∈ S, ∀ c ∈ S, ¬ Rounded a b c) ∧
      (StrictWeakOn D DbValue.dbvalLt ↔
        ∀ a ∈ D, ∀ b ∈ D, ∀ c ∈ D, ¬ Rounded a.value b.value c.value) :=
  ⟨valueLt_of_strictWeakOn_iff id S values,valueLt_of_strictWeakOn_iff DbValue.value D cells⟩

theorem valueLt_strictWeakOn_one :
    let one : Value := real (Number.ofRat 1)
    StrictWeakOn {int 1,one} valueLt ∧
      StrictWeakOn {(⟨.int,int 1⟩ : DbValue),⟨.real,one⟩} DbValue.dbvalLt := by
  intro one
  have number : one.NonNaN := (by decide +kernel : (Number.ofRat 1 : Double).isNaN = false)
  have laws := valueLt_strictWeakOn_iff {int 1,one} {(⟨.int,int 1⟩ : DbValue),⟨.real,one⟩}
    (by rintro a (rfl | rfl); exacts [trivial,number])
    (by rintro d (rfl | rfl); exacts [trivial,number])
  have single (n : Int64) (member : (int n) ∈ ({int 1,one} : Set Value)) : n = 1 := by
    rcases member with same | other
    · simpa using same
    · exact absurd other (by simp [one])
  have regular : ∀ a ∈ ({int 1,one} : Set Value), ∀ b, ∀ c ∈ ({int 1,one} : Set Value),
      ¬ Rounded a b c := by
    rintro a ha b c hc ⟨n,m,x,rfl,_,rfl,differ,_⟩
    exact differ ((single n ha).trans (single m hc).symm)
  refine ⟨laws.1.mpr fun a ha b _ c hc => regular a ha b c hc,laws.2.mpr ?_⟩
  intro a ha b _ c hc
  apply regular
  · rcases ha with rfl | rfl <;> simp
  · rcases hc with rfl | rfl <;> simp

theorem valueLt_not_tied_trans :
    let n : Value := int 9007199254740992
    let x : Value := real (Number.ofRat (2^53))
    let m : Value := int 9007199254740993
    n.Finite ∧ x.Finite ∧ m.Finite ∧ Tied valueLt n x ∧ Tied valueLt x m ∧ ¬ Tied valueLt n m ∧
      ¬ StrictWeakOn {n,x,m} valueLt := by
  intro n x m
  have nx : Tied valueLt n x := ⟨by decide +kernel,by decide +kernel⟩
  have xm : Tied valueLt x m := ⟨by decide +kernel,by decide +kernel⟩
  have nm : ¬ Tied valueLt n m := fun tied => absurd tied.1 (by decide +kernel)
  refine ⟨trivial,?_,trivial,nx,xm,nm,fun laws => nm ?_⟩
  · exact (by decide +kernel : (Number.ofRat (2^53) : Double).isFinite = true)
  · exact laws.tied_trans n (by simp) x (by simp) m (by simp) nx xm

end Sl3.Ordering
