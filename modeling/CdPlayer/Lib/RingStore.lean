/-
CdPlayer/Lib/RingStore.lean

A store used as a ring of `L` cells.

The reader and the writer of a ring each keep a position reduced modulo
`L`.  Proofs are much easier on the unreduced positions: let `c` be the
number of cells consumed so far and `d` the number delivered.  Then the
reader stands at `c % L`, the writer at `d % L`, the ring is sound as long
as `d - c < L`, and its contents are the cells `c, c+1, …, d-1` of the
stream that was delivered.

* `Holds m L x a b` says that the ring `m` still holds the positions
  `[a, b)` of the stream `x`.
* `contents m L c n` is the list of `n` cells from position `c` on, the
  view in which the ring is a first-in-first-out queue.
-/
import CdPlayer.Lib.ByteStore
import Mathlib.Data.List.Range
import Mathlib.Tactic.Linarith

namespace RingStore

open ByteStore

variable {α : Type*} {L : Int}

/-! ### Positions -/

/-- Distance from the reader to the writer, from the unreduced positions. -/
theorem sub_emod_of_lt {c d : Int} (h₁ : c ≤ d) (h₂ : d - c < L) :
    (d % L - c % L) % L = d - c := by
  rw [← Int.sub_emod]
  exact Int.emod_eq_of_lt (by omega) h₂

/-- Two positions less than one lap apart that share a cell are equal. -/
theorem eq_of_emod_eq {i j : Int} (h : i % L = j % L) (h₁ : i ≤ j) (h₂ : j - i < L) :
    i = j := by
  have h₀ : (j - i) % L = 0 := Int.emod_eq_emod_iff_emod_sub_eq_zero.mp h.symm
  rw [Int.emod_eq_of_lt (by omega) h₂] at h₀
  omega

/-- Moving forward without passing the end of the ring does not wrap. -/
theorem add_emod_of_fits {d i : Int} (hL : 0 < L) (h₁ : 0 ≤ i) (h₂ : d % L + i < L) :
    (d + i) % L = d % L + i := by
  have h₀ := Int.emod_nonneg d (ne_of_gt hL)
  rw [← Int.emod_add_emod]
  exact Int.emod_eq_of_lt (by omega) h₂

/-- A position that may have come to the end of the ring. -/
theorem wrap_eq_emod {i : Int} (h₁ : 0 ≤ i) (h₂ : i ≤ L) : (if i = L then 0 else i) = i % L := by
  split
  next hend => rw [hend, Int.emod_self]
  next hin => exact (Int.emod_eq_of_lt h₁ (lt_of_le_of_ne h₂ hin)).symm

/-! ### What the ring still holds -/

/-- The ring holds the positions `[a, b)` of the stream `x`. -/
def Holds (m : Int → α) (L : Int) (x : Int → α) (a b : Int) : Prop :=
  ∀ j, a ≤ j → j < b → m (j % L) = x j

/-- Writing at the end of the held range does not touch the range, as long
as the new end stays within one lap of its start. -/
theorem Holds.keep {m : Int → α} {x : Int → α} {a b : Int}
    (h : Holds m L x a b) (src : Int → α) (s : Int) {n : Nat}
    (hlap : b + n - a ≤ L) (hfit : b % L + n ≤ L) (hL : 0 < L) :
    Holds (blit m (b % L) src s n) L x a b := by
  intro j h₁ h₂
  rw [← h j h₁ h₂]
  refine blit_outside _ _ _ _ _ ?_
  by_contra hin
  push Not at hin
  -- otherwise `j` would share its cell with one of the positions written
  have hpos : (b + (j % L - b % L)) % L = b % L + (j % L - b % L) :=
    add_emod_of_fits hL (by omega) (by omega)
  have hsame : j % L = (b + (j % L - b % L)) % L := by rw [hpos]; omega
  have heq := eq_of_emod_eq hsame (by omega) (by omega)
  omega

/-- One block appended: the ring holds the longer range of the extended stream. -/
theorem Holds.append {m : Int → α} {x : Int → α} {a b : Int}
    (h : Holds m L x a b) (src : Int → α) (s : Int) {n : Nat}
    (hlap : b + n - a ≤ L) (hfit : b % L + n ≤ L) (hL : 0 < L)
    (hx : ∀ i : Int, 0 ≤ i → i < n → x (b + i) = src (s + i)) :
    Holds (blit m (b % L) src s n) L x a (b + n) := by
  intro j h₁ h₂
  by_cases hj : j < b
  · exact h.keep src s hlap hfit hL j h₁ hj
  · have hcell : j % L = b % L + (j - b) := by
      rw [← add_emod_of_fits hL (by omega) (by omega)]
      congr 1
      omega
    rw [hcell, blit_offset _ _ _ _ _ (by omega) (by omega),
      ← hx (j - b) (by omega) (by omega)]
    congr 1
    omega

/-! ### The queue view -/

/-- The `n` cells of the ring from position `c` on, in order. -/
def contents (m : Int → α) (L c : Int) (n : Nat) : List α :=
  (List.range n).map fun i : Nat => m ((c + i) % L)

@[simp] theorem length_contents (m : Int → α) (L c : Int) (n : Nat) :
    (contents m L c n).length = n := by
  simp [contents]

/-- Only the reduced position matters. -/
theorem contents_emod (m : Int → α) (L c : Int) (n : Nat) :
    contents m L (c % L) n = contents m L c n := by
  unfold contents
  refine List.map_congr_left fun i _ => ?_
  rw [Int.emod_add_emod]

/-- Consuming `k` cells drops the first `k` of the queue. -/
theorem contents_drop (m : Int → α) (L c : Int) (n k : Nat) :
    (contents m L c n).drop k = contents m L (c + k) (n - k) := by
  refine List.ext_getElem (by simp) fun i _ _ => ?_
  simp only [contents, List.getElem_drop, List.getElem_map, List.getElem_range]
  congr 2
  push_cast
  ring

/-- The queue is determined by the stream the ring holds. -/
theorem contents_eq_of_holds {m : Int → α} {x : Int → α} {c : Int} {n : Nat}
    (h : Holds m L x c (c + n)) :
    contents m L c n = (List.range n).map fun i : Nat => x (c + i) := by
  unfold contents
  refine List.map_congr_left fun i hi => ?_
  have hlt := List.mem_range.mp hi
  exact h _ (by omega) (by omega)

/-- **Delivering a block appends it to the queue.** -/
theorem contents_append (m : Int → α) (src : Int → α) (s : Int) {c : Int} {n k : Nat}
    (hlap : (n + k : Int) ≤ L) (hfit : (c + n) % L + k ≤ L) (hL : 0 < L) :
    contents (blit m ((c + n) % L) src s k) L c (n + k)
      = contents m L c n ++ (List.range k).map fun i : Nat => src (s + i) := by
  -- the extended stream: the old cells, then the block
  let x : Int → α := fun j => if j < c + n then m (j % L) else src (s + (j - (c + n)))
  have hold : Holds m L x c (c + n) := fun j _ h₂ => (if_pos h₂).symm
  have hnew : Holds (blit m ((c + n) % L) src s k) L x c (c + n + k) := by
    refine hold.append src s (by omega) hfit hL fun i h₁ _ => ?_
    change (if c + n + i < c + n then _ else _) = _
    rw [if_neg (by omega)]
    congr 1
    omega
  have hcast : c + ((n + k : Nat) : Int) = c + n + k := by push_cast; ring
  rw [contents_eq_of_holds (hcast ▸ hnew), List.range_add, List.map_append,
    contents_eq_of_holds hold, List.map_map]
  congr 1
  refine List.map_congr_left fun i _ => ?_
  change (if c + ((n + i : Nat) : Int) < c + n then _ else _) = _
  rw [if_neg (by push_cast; omega)]
  congr 1
  push_cast
  omega

end RingStore
