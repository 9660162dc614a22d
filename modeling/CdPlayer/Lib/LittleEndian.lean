/-
CdPlayer/Lib/LittleEndian.lean

Numbers in byte-addressed memory, least significant byte first.

`byteAt x i` is byte `i` of the number `x`, `ofBytes m a n` the number that
the `n` bytes of `m` from `a` on denote, and `array width xs` the bytes of
numbers of `width` bytes each, one after the other.

Main result: an element of an array, read back from its bytes, is the
number that was put there, up to its width (`ofBytes_array`).
-/
import Mathlib.Data.List.GetD
import Mathlib.Tactic.Ring

namespace LittleEndian

/-- Byte `i` of a number. -/
def byteAt (x i : Nat) : UInt8 := UInt8.ofNat (x / 256 ^ i)

/-- The number that `n` bytes denote. -/
def ofBytes (m : Nat → UInt8) (a : Nat) : (n : Nat) → Nat
  | 0 => 0
  | n + 1 => (m a).toNat + 256 * ofBytes m (a + 1) n

/-- The bytes of numbers of `width` bytes each. -/
def array (width : Nat) (xs : List Nat) (a : Nat) : UInt8 :=
  byteAt (xs.getD (a / width) 0) (a % width)

variable {m m' : Nat → UInt8} {a x n width : Nat}

theorem toNat_byteAt (x i : Nat) : (byteAt x i).toNat = x / 256 ^ i % 256 :=
  UInt8.toNat_ofNat'

theorem byteAt_succ (x i : Nat) : byteAt x (i + 1) = byteAt (x / 256) i := by
  unfold byteAt
  rw [pow_succ', Nat.div_div_eq_div_mul]

/-- Only the bytes of the number matter. -/
theorem ofBytes_congr (h : ∀ i, i < n → m (a + i) = m' (a + i)) :
    ofBytes m a n = ofBytes m' a n := by
  induction n generalizing a with
  | zero => rfl
  | succ n ih =>
    have htail : ofBytes m (a + 1) n = ofBytes m' (a + 1) n := by
      apply ih
      intro i hi
      rw [show a + 1 + i = a + (i + 1) by ring]
      exact h (i + 1) (by omega)
    show (m a).toNat + _ = (m' a).toNat + _
    rw [htail, show m a = m' a from h 0 (by omega)]

/-- The bytes of a number denote it. -/
theorem ofBytes_byteAt (h : ∀ i, i < n → m (a + i) = byteAt x i) :
    ofBytes m a n = x % 256 ^ n := by
  induction n generalizing a x with
  | zero => rw [pow_zero, Nat.mod_one]; rfl
  | succ n ih =>
    have htail : ofBytes m (a + 1) n = x / 256 % 256 ^ n := by
      apply ih
      intro i hi
      rw [show a + 1 + i = a + (i + 1) by ring, h (i + 1) (by omega), byteAt_succ]
    have hfirst : (m a).toNat = x % 256 := by
      rw [show m a = byteAt x 0 from h 0 (by omega), toNat_byteAt, pow_zero, Nat.div_one]
    show (m a).toNat + 256 * _ = _
    rw [htail, hfirst, pow_succ', Nat.mod_mul]

theorem array_offset (xs : List Nat) {i j : Nat} (hj : j < width) :
    array width xs (width * i + j) = byteAt (xs.getD i 0) j := by
  have hwidth : 0 < width := Nat.zero_lt_of_lt hj
  unfold array
  rw [Nat.mul_add_div hwidth, Nat.div_eq_of_lt hj, add_zero, Nat.mul_add_mod,
    Nat.mod_eq_of_lt hj]

/-- **Numbers in an array are read back.** -/
theorem ofBytes_array (xs : List Nat) (i : Nat) :
    ofBytes (array width xs) (width * i) width = xs.getD i 0 % 256 ^ width :=
  ofBytes_byteAt fun _ hj => array_offset xs hj

end LittleEndian
