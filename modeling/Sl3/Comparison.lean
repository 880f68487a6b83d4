import Sl3.Value

/-! The comparison functions of `Value` as the source writes them: mixed numbers
are compared after the integer is converted to double, and the typed equality
of two doubles is a tolerance test in double arithmetic. -/
namespace Sl3
open Library Library.Binary

/-- `std::less` of `std::string` and of `std::vector<std::byte>`. -/
def bytesLess (a b : Bytes) : Bool := a < b

theorem representable_two_pow {k : ℕ} (range : k ≤ 971) : binary64.Representable (2^k) :=
  ⟨1,k,by decide,by simp [binary64],by simpa [binary64] using range,by simp⟩

def Double.ofInt64 (n : Int64) : Double := Number.ofRat (n.toInt : ℚ)

class ToDouble (T : Type) where
  toDouble : T → Double

instance : ToDouble Int64 := ⟨Double.ofInt64⟩
instance : ToDouble Double := ⟨id⟩

section utils
variable {T1 T2 : Type} [ToDouble T1] [ToDouble T2]

def isLess (a : T1) (b : T2) : Bool := (ToDouble.toDouble a).lt (ToDouble.toDouble b)
def isGreater (a : T1) (b : T2) : Bool := (ToDouble.toDouble b).lt (ToDouble.toDouble a)
def isLessEqual (a : T1) (b : T2) : Bool := (ToDouble.toDouble a).le (ToDouble.toDouble b)
def isEqual (a : T1) (b : T2) : Bool := (ToDouble.toDouble a).eq (ToDouble.toDouble b)

end utils

def epsilon : Double := Number.ofRat (1 / 2^52)

def minNormal : Double := Number.ofRat (1 / 2^1022)

def almostEqual (x y : Double) (ulp : Int) : Bool :=
  (x.sub y).abs.lt ((epsilon.mul (x.add y).abs).mul (Number.ofRat ulp)) ||
    (x.sub y).abs.lt minNormal

namespace Value

def valueTypeEq (a b : Value) : Bool :=
  if a.getType ≠ b.getType then false
  else
    match a,b with
    | null,_ => b.isNull
    | int n,int m => n = m
    | real x,real y => almostEqual x y 2
    | text s,text t => s = t
    | blob s,blob t => s = t
    | _,_ => false

def valueTypeLt (a b : Value) : Bool :=
  if b.isNull then false
  else if a.isNull then true
  else
    match a with
    | int n =>
      match b with
      | int m => n < m
      | real y => isLessEqual n y
      | _ => true
    | real x =>
      match b with
      | int m => isLess x m
      | real y => x.lt y
      | _ => true
    | text s =>
      match b with
      | text t => bytesLess s t
      | _ => b.getType = .blob
    | _ =>
      match a,b with
      | blob s,blob t => bytesLess s t
      | _,_ => false

def valueEq (a b : Value) : Bool :=
  match a with
  | null => b.isNull
  | int n =>
    match b with
    | int m => n = m
    | real y => isEqual n y
    | _ => false
  | real x =>
    match b with
    | int m => isEqual x m
    | real y => x.eq y
    | _ => false
  | text s =>
    match b with
    | text t => s = t
    | _ => false
  | blob s =>
    match b with
    | blob t => s = t
    | _ => false

def valueLt (a b : Value) : Bool :=
  if b.isNull then false
  else if a.isNull then true
  else
    match a with
    | int n =>
      match b with
      | int m => n < m
      | real y => isLess n y
      | _ => true
    | real x =>
      match b with
      | int m => isLess x m
      | real y => x.lt y
      | _ => true
    | text s =>
      match b with
      | text t => bytesLess s t
      | blob _ => true
      | _ => false
    | _ =>
      match a,b with
      | blob s,blob t => bytesLess s t
      | _,_ => false

end Value
end Sl3
