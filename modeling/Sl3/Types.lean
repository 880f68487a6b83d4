import Sl3.Library.Binary
import Mathlib.Data.List.Lex
import Mathlib.Order.Fin.Basic

/-! Value types, byte strings, doubles and the exceptions of the library. -/
namespace Sl3
open Library Library.NearestEven

inductive ValueType where
  | null | int | real | text | blob | variant
deriving DecidableEq,Repr

namespace ValueType

def code : ValueType → Nat
  | null => 0
  | int => 1
  | real => 2
  | text => 3
  | blob => 4
  | variant => 5

def typeName : ValueType → String
  | null => "Null"
  | int => "Int"
  | real => "Real"
  | text => "Text"
  | blob => "Blob"
  | variant => "Variant"

end ValueType

abbrev Byte := Fin 256

instance byteSize : NeZero 256 := ⟨by norm_num⟩

/-- `std::string` and `Blob` are the bytes they hold, embedded zeros included. -/
abbrev Bytes := List Byte

def binary64 : Format where
  precision := 53
  minExponent := -1074
  maxExponent := 971
  precision_pos := by decide
  ordered := by decide

abbrev Double := Binary.Number binary64

/-- `static_cast<int> (std::size_t)` on a platform with 32-bit `int`. -/
def staticCastInt (n : Nat) : Int := Int.bmod n (2^32)

theorem staticCastInt_of_lt {n : Nat} (small : n < 2^31) : staticCastInt n = n := by
  unfold staticCastInt
  rw [Int.bmod_def]
  omega

theorem staticCastInt_eq_zero {n : Nat} : staticCastInt n = 0 ↔ n % 2^32 = 0 := by
  unfold staticCastInt
  rw [Int.bmod_def]
  omega

inductive ErrCode where
  | sql3Error | noConnection | outOfRange | typeMisMatch | nullValueAccess | unexpected
deriving DecidableEq,Repr

/-- `sl3::Error` and the `ErrType` classes; the last two fields are those of `SQLite3Error`. -/
structure Error where
  getId : ErrCode
  what : String
  sqliteErrorCode : Int := 0
  sqliteErrorMessage : String := ""
deriving DecidableEq,Repr

def errNoConnection : Error := ⟨.noConnection,"",0,""⟩
def errOutOfRange (what : String) : Error := ⟨.outOfRange,what,0,""⟩
def errTypeMisMatch (what : String) : Error := ⟨.typeMisMatch,what,0,""⟩
def errNullValueAccess (what : String) : Error := ⟨.nullValueAccess,what,0,""⟩
def errUnexpected (what : String) : Error := ⟨.unexpected,what,0,""⟩
def sqlite3Error (ec : Int) (msg : String) : Error :=
  ⟨.sql3Error,"(" ++ toString ec ++ ":" ++ msg ++ "):",ec,msg⟩

end Sl3
