/-
CdPlayer/Lib/Stack.lean

Areas laid out one below the other.

`start base size i` is where area `i` starts: area 0 ends at `base`, and
each further area ends where the one before it starts.  With sizes that are
not negative the areas do not overlap (`start_add_size_le`), so an address
lies in at most one of them (`eq_of_inside`), and all of them lie below the
base (`start_add_size_le_base`).
-/
import Mathlib.Algebra.BigOperators.Group.Finset.Basic
import Mathlib.Algebra.Order.BigOperators.Group.Finset
import Mathlib.Algebra.Order.Ring.Int
import Mathlib.Tactic.Ring

namespace Stack

open Finset

/-- Where area `i` starts. -/
def start (base : Int) (size : Nat → Int) (i : Nat) : Int :=
  base - ∑ j ∈ range (i + 1), size j

/-- The address lies in area `i`. -/
def Inside (base : Int) (size : Nat → Int) (i : Nat) (a : Int) : Prop :=
  start base size i ≤ a ∧ a < start base size i + size i

variable (base : Int) {a : Int} {size : Nat → Int} {i j : Nat}

theorem start_zero (base : Int) (size : Nat → Int) : start base size 0 = base - size 0 := by
  unfold start
  rw [sum_range_one]

theorem start_succ (base : Int) (size : Nat → Int) (i : Nat) :
    start base size (i + 1) = start base size i - size (i + 1) := by
  unfold start
  rw [sum_range_succ]
  ring

/-- Areas further down start no higher. -/
theorem start_anti (hsize : ∀ k, 0 ≤ size k) (h : i ≤ j) :
    start base size j ≤ start base size i := by
  unfold start
  have hsum : ∑ k ∈ range (i + 1), size k ≤ ∑ k ∈ range (j + 1), size k :=
    sum_le_sum_of_subset_of_nonneg (range_subset_range.mpr (by omega)) fun k _ _ => hsize k
  omega

/-- **An area ends where the areas above it start, or before.** -/
theorem start_add_size_le (hsize : ∀ k, 0 ≤ size k) (h : i < j) :
    start base size j + size j ≤ start base size i := by
  obtain ⟨k, rfl⟩ := Nat.exists_eq_add_of_lt h
  have hstep := start_succ base size (i + k)
  have hanti : start base size (i + k) ≤ start base size i := start_anti base hsize (by omega)
  omega

theorem start_add_size_le_base (hsize : ∀ k, 0 ≤ size k) (i : Nat) :
    start base size i + size i ≤ base := by
  have hzero := start_zero base size
  rcases Nat.eq_zero_or_pos i with rfl | hpos
  · omega
  · have hle := start_add_size_le base hsize hpos
    have hsize₀ := hsize 0
    omega

/-- **No address lies in two areas.** -/
theorem eq_of_inside (hsize : ∀ k, 0 ≤ size k) (hi : Inside base size i a)
    (hj : Inside base size j a) : i = j := by
  obtain ⟨hi₁, hi₂⟩ := hi
  obtain ⟨hj₁, hj₂⟩ := hj
  rcases lt_trichotomy i j with hlt | heq | hgt
  · have hle := start_add_size_le base hsize hlt
    omega
  · exact heq
  · have hle := start_add_size_le base hsize hgt
    omega

end Stack
