import Mathlib

/-! # Numbers of a fixed width in a byte stream

The low byte comes first. A field of a record is read with `take`, which gives the number
and what is behind it.
-/

namespace LittleEndian

/-- The lowest bytes of a number. -/
def bytes : Nat → Nat → List UInt8
  | 0, _ => []
  | width + 1, number => UInt8.ofNat number :: bytes width (number / 256)

/-- The number some bytes stand for. -/
def number : List UInt8 → Nat
  | [] => 0
  | byte :: rest => byte.toNat + 256 * number rest

/-- The number in front of a stream, and the rest of the stream. -/
def take (width : Nat) (stream : List UInt8) : Nat × List UInt8 :=
  (number (stream.take width), stream.drop width)

@[simp] theorem length_bytes (width value : Nat) : (bytes width value).length = width := by
  induction width generalizing value with
  | zero => rfl
  | succ width ih => rw [bytes, List.length_cons, ih]

theorem number_bytes {width value : Nat} (fits : value < 256 ^ width) :
    number (bytes width value) = value := by
  induction width generalizing value with
  | zero => exact (Nat.lt_one_iff.mp fits).symm
  | succ width ih =>
      have rest : value / 256 < 256 ^ width := Nat.div_lt_of_lt_mul (by rwa [Nat.pow_succ'] at fits)
      rw [bytes, number, ih rest, UInt8.toNat_ofNat']
      exact Nat.mod_add_div value 256

/-- Only the lowest bytes of a number are written. -/
theorem bytes_mod (width value : Nat) : bytes width (value % 256 ^ width) = bytes width value := by
  induction width generalizing value with
  | zero => rfl
  | succ width ih =>
      have low : UInt8.ofNat (value % (256 * 256 ^ width)) = UInt8.ofNat value := by
        apply UInt8.toNat.inj
        rw [UInt8.toNat_ofNat', UInt8.toNat_ofNat']
        exact Nat.mod_mul_right_mod value 256 _
      rw [Nat.pow_succ', bytes, bytes, low, Nat.mod_mul_right_div_self, ih]

/-- **What was written is read, and what is behind it is left.** -/
@[simp] theorem take_bytes {width value : Nat} (fits : value < 256 ^ width)
    (rest : List UInt8) : take width (bytes width value ++ rest) = (value, rest) := by
  have count := length_bytes width value
  rw [take, List.take_left' count, List.drop_left' count, number_bytes fits]

end LittleEndian
