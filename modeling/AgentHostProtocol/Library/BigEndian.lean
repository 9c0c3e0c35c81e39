import Mathlib.Data.Nat.Bitwise
import Mathlib.Data.List.Basic
import Mathlib.Tactic.Ring

/-!
# Numbers as bytes, the highest first

* `bigEndian_bytesAt` — the lowest `k` bytes of a number, read back, are the number modulo `256 ^ k`.
-/

namespace AgentHostProtocol.Library

/-- The number that bytes stand for, the highest byte first. -/
def bigEndian (bytes : List UInt8) : ℕ := bytes.foldl (fun n b => n <<< 8 ||| b.toNat) 0

/-- The bytes of a number at the shifts. -/
def bytesAt (shifts : List ℕ) (n : ℕ) : List UInt8 :=
  shifts.map fun shift => (n >>> shift &&& 0xFF).toUInt8

/-- The shifts of the lowest `k` bytes, the highest first. -/
def byteShifts : ℕ → List ℕ
  | 0 => []
  | k + 1 => 8 * k :: byteShifts k

@[simp] theorem length_bytesAt (shifts : List ℕ) (n : ℕ) : (bytesAt shifts n).length = shifts.length :=
  List.length_map _

@[simp] theorem length_byteShifts (k : ℕ) : (byteShifts k).length = k := by
  induction k with
  | zero => rfl
  | succ k ih => rw [byteShifts, List.length_cons, ih]

/-- One byte more is appended to a number. -/
theorem shiftLeft_or_byte (n : ℕ) (b : UInt8) : n <<< 8 ||| b.toNat = n * 256 + b.toNat := by
  have hb : b.toNat < 2 ^ 8 := b.toNat_lt
  rw [← Nat.shiftLeft_add_eq_or_of_lt hb, Nat.shiftLeft_eq]

theorem foldl_bytes (n : ℕ) (bytes : List UInt8) :
    bytes.foldl (fun n b => n <<< 8 ||| b.toNat) n = n * 256 ^ bytes.length + bigEndian bytes := by
  unfold bigEndian
  induction bytes generalizing n with
  | nil => simp
  | cons b bytes ih =>
    rw [List.foldl_cons, List.foldl_cons, ih, ih (0 <<< 8 ||| b.toNat), shiftLeft_or_byte,
      shiftLeft_or_byte, List.length_cons, Nat.pow_succ]
    ring

theorem bigEndian_cons (b : UInt8) (bytes : List UInt8) :
    bigEndian (b :: bytes) = b.toNat * 256 ^ bytes.length + bigEndian bytes := by
  have h := foldl_bytes (0 <<< 8 ||| b.toNat) bytes
  rw [shiftLeft_or_byte, Nat.zero_mul, Nat.zero_add] at h
  unfold bigEndian
  rw [List.foldl_cons, shiftLeft_or_byte, Nat.zero_mul, Nat.zero_add]
  exact h

theorem toNat_byteAt (n shift : ℕ) : (n >>> shift &&& 0xFF).toUInt8.toNat = n / 2 ^ shift % 256 := by
  have hmask : (0xFF : ℕ) = 2 ^ 8 - 1 := rfl
  rw [hmask, Nat.and_two_pow_sub_one_eq_mod, Nat.shiftRight_eq_div_pow, UInt8.toNat_ofNat']
  exact Nat.mod_mod _ _

/-- **Bytes of a number**: read back, the lowest `k` bytes are the number modulo `256 ^ k`. -/
theorem bigEndian_bytesAt (k n : ℕ) : bigEndian (bytesAt (byteShifts k) n) = n % 256 ^ k := by
  induction k with
  | zero => simp [byteShifts, bytesAt, bigEndian, Nat.mod_one]
  | succ k ih =>
    have hpow : 2 ^ (8 * k) = 256 ^ k := by rw [Nat.pow_mul]
    have hcons : bytesAt (byteShifts (k + 1)) n =
        (n >>> (8 * k) &&& 0xFF).toUInt8 :: bytesAt (byteShifts k) n := rfl
    rw [hcons, bigEndian_cons, ih, toNat_byteAt, length_bytesAt, length_byteShifts, hpow,
      Nat.mod_pow_succ]
    ring

end AgentHostProtocol.Library
