import Mathlib.Algebra.Ring.Nat
import Mathlib.Data.List.Basic

namespace Endian

/-- The `n` bytes of `x`, the most significant first; what does not fit is dropped. -/
def bigEndian : Nat → Nat → List UInt8
  | 0, _ => []
  | n + 1, x => UInt8.ofNat (x / 256 ^ n) :: bigEndian n x

/-- The number that big-endian bytes stand for. -/
def bigValue : List UInt8 → Nat
  | [] => 0
  | byte :: bytes => byte.toNat * 256 ^ bytes.length + bigValue bytes

inductive Order where
  | little
  | big
  deriving DecidableEq, Repr

/-- The memory image of an `n`-byte integer on a machine of that byte order. -/
def Order.bytes (order : Order) (n x : Nat) : List UInt8 :=
  match order with
  | .little => (bigEndian n x).reverse
  | .big => bigEndian n x

/-- The integer in memory on a machine of that byte order. -/
def Order.value (order : Order) (bytes : List UInt8) : Nat :=
  match order with
  | .little => bigValue bytes.reverse
  | .big => bigValue bytes

@[simp] theorem length_bigEndian (n x : Nat) : (bigEndian n x).length = n := by
  induction n with
  | zero => rfl
  | succ n ih => rw [bigEndian, List.length_cons, ih]

theorem bigValue_lt (bytes : List UInt8) : bigValue bytes < 256 ^ bytes.length := by
  induction bytes with
  | nil => simp [bigValue]
  | cons byte bytes ih =>
    have hbyte : byte.toNat + 1 ≤ 256 := byte.toNat_lt
    have hmul := Nat.mul_le_mul_right (256 ^ bytes.length) hbyte
    rw [Nat.succ_mul] at hmul
    rw [bigValue, List.length_cons, Nat.pow_succ]
    omega

theorem bigValue_bigEndian (n x : Nat) : bigValue (bigEndian n x) = x % 256 ^ n := by
  induction n with
  | zero => simp [bigEndian, bigValue, Nat.mod_one]
  | succ n ih =>
    have hbyte : (UInt8.ofNat (x / 256 ^ n)).toNat = x / 256 ^ n % 256 := by simp
    rw [bigEndian, bigValue, length_bigEndian, ih, hbyte, Nat.pow_succ, Nat.mod_mul, Nat.mul_comm]
    omega

/-- Only the part below `256 ^ n` is encoded. -/
theorem bigEndian_mul_add (n k x : Nat) : bigEndian n (k * 256 ^ n + x) = bigEndian n x := by
  induction n generalizing k with
  | zero => rfl
  | succ n ih =>
    have hpos : 0 < 256 ^ n := Nat.pow_pos (by decide)
    have hsplit : k * 256 ^ (n + 1) = k * 256 * 256 ^ n := by rw [Nat.pow_succ, Nat.mul_assoc, Nat.mul_comm 256]
    have hquotient : (k * 256 * 256 ^ n + x) / 256 ^ n = k * 256 + x / 256 ^ n := by
      rw [Nat.add_comm, Nat.add_mul_div_right _ _ hpos, Nat.add_comm]
    have hbyte : UInt8.ofNat (k * 256 + x / 256 ^ n) = UInt8.ofNat (x / 256 ^ n) := by
      rw [← UInt8.toNat_inj]
      simp
    rw [bigEndian, bigEndian, hsplit, ih, hquotient, hbyte]

theorem bigEndian_bigValue (bytes : List UInt8) : bigEndian bytes.length (bigValue bytes) = bytes := by
  induction bytes with
  | nil => rfl
  | cons byte bytes ih =>
    have hpos : 0 < 256 ^ bytes.length := Nat.pow_pos (by decide)
    have hquotient : (byte.toNat * 256 ^ bytes.length + bigValue bytes) / 256 ^ bytes.length = byte.toNat := by
      rw [Nat.add_comm, Nat.add_mul_div_right _ _ hpos, Nat.div_eq_of_lt (bigValue_lt bytes), Nat.zero_add]
    rw [List.length_cons, bigEndian, bigValue, hquotient, bigEndian_mul_add, ih, UInt8.ofNat_toNat]

namespace Order

variable (order : Order)

theorem bytes_value (bytes : List UInt8) : order.bytes bytes.length (order.value bytes) = bytes := by
  cases order with
  | little =>
    have hbytes := bigEndian_bigValue bytes.reverse
    rw [List.length_reverse] at hbytes
    simp [Order.bytes, value, hbytes]
  | big => exact bigEndian_bigValue bytes

theorem length_bytes (n x : Nat) : (order.bytes n x).length = n := by
  cases order <;> simp [Order.bytes]

theorem value_bytes (n x : Nat) : order.value (order.bytes n x) = x % 256 ^ n := by
  cases order with
  | little => simp [Order.bytes, value, bigValue_bigEndian]
  | big => exact bigValue_bigEndian n x

theorem value_lt (bytes : List UInt8) : order.value bytes < 256 ^ bytes.length := by
  cases order with
  | little =>
    have hlt := bigValue_lt bytes.reverse
    rwa [List.length_reverse] at hlt
  | big => exact bigValue_lt bytes

end Order

end Endian
