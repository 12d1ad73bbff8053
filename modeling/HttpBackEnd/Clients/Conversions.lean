import HttpBackEnd.Json.Reader
import Mathlib.Data.List.TakeWhile

/-! # Conversions of the C interface

The clients go through C: strings end at their first zero byte, sizes become `int`, and
the ports of the configuration, kept as `int16_t`, become `int` or `unsigned`.
-/

namespace HttpBackEnd.Clients

/-- A C string: bytes before the terminator. -/
structure CString where
  bytes : Bytes
  terminated : (0 : UInt8) ∉ bytes
deriving DecidableEq

/-- `std::string::c_str`, as a function that takes a C string sees it. -/
def cstring (bytes : Bytes) : CString where
  bytes := cstr bytes
  terminated := by
    intro member
    simpa using List.mem_takeWhile_imp member

theorem cstring_bytes (text : CString) : cstring text.bytes = text := by
  have whole : cstr text.bytes = text.bytes := by
    refine List.takeWhile_eq_self_iff.mpr fun byte member => ?_
    have nonzero : byte ≠ 0 := fun zero => text.terminated (zero ▸ member)
    simpa using nonzero
  cases text
  simp only [cstring, CString.mk.injEq]
  exact whole

/-- The conversion of a `size_t` to `int`. -/
def toInt (size : Nat) : Int := (size : Int).bmod 4294967296

theorem toInt_of_lt {size : Nat} (short : size < 2 ^ 31) : toInt size = size := by
  apply Int.bmod_eq_of_le
  · omega
  · omega

theorem toInt_lt (size : Nat) : toInt size < 2147483648 := by
  have bound : toInt size < (((4294967296 : Nat) : Int) + 1) / 2 := Int.bmod_lt (by omega)
  omega

/-- The conversion of an `int16_t` to `unsigned`. -/
def toUnsigned (port : Int16) : UInt32 := port.toInt32.toUInt32

/-- A negative port wraps around. -/
theorem toUnsigned_toNat (port : Int16) :
    ((toUnsigned port).toNat : Int) =
      if 0 ≤ port.toInt then port.toInt else port.toInt + 4294967296 := by
  have signed : port.toInt = port.toInt32.toBitVec.toInt := (Int16.toInt_toInt32 port).symm
  have unsigned : (toUnsigned port).toNat = port.toInt32.toBitVec.toNat := rfl
  have bound : port.toInt32.toBitVec.toNat < 4294967296 := port.toInt32.toBitVec.isLt
  rw [BitVec.toInt_eq_toNat_cond] at signed
  rw [unsigned, signed]
  split <;> split <;> omega

end HttpBackEnd.Clients
