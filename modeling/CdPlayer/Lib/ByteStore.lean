/-
CdPlayer/Lib/ByteStore.lean

Flat stores and the two ways a program copies inside them.

A store is a total function from addresses to cells.  Addresses are
integers, so that a pointer that runs off either end of its array is a
value like any other and a bound is something one states, not something
the type hides.

* `blit` is `memcpy`: both regions are read before anything is written.
* `copyUp` is the loop `for (i = 0; i < n; i++) d[i] = s[i]` inside one
  store, where an earlier write is visible to a later read.

Main result: copying *down* (`d ≤ s`) with the ascending loop is the same
as `memcpy`, whatever the overlap (`copyUp_eq_blit`).
-/
import Mathlib.Data.Int.Basic
import Mathlib.Logic.Function.Basic
import Mathlib.Tactic.Ring

namespace ByteStore

variable {α β : Type*}

/-! ### Block copies -/

/-- `n` cells of `src` from `s` on, placed at `d` in `dst`. -/
def blit (dst : Int → α) (d : Int) (src : Int → α) (s : Int) (n : Nat) : Int → α :=
  fun a => if d ≤ a ∧ a < d + n then src (s + (a - d)) else dst a

theorem blit_inside (dst : Int → α) (d : Int) (src : Int → α) (s : Int) (n : Nat)
    {a : Int} (h₁ : d ≤ a) (h₂ : a < d + n) :
    blit dst d src s n a = src (s + (a - d)) :=
  if_pos ⟨h₁, h₂⟩

theorem blit_outside (dst : Int → α) (d : Int) (src : Int → α) (s : Int) (n : Nat)
    {a : Int} (h : a < d ∨ d + n ≤ a) : blit dst d src s n a = dst a := by
  refine if_neg ?_
  rintro ⟨h₁, h₂⟩
  rcases h with h | h <;> omega

/-- Offset form of `blit_inside`: cell `i` of the copy is cell `i` of the source. -/
theorem blit_offset (dst : Int → α) (d : Int) (src : Int → α) (s : Int) (n : Nat)
    {i : Int} (h₁ : 0 ≤ i) (h₂ : i < n) :
    blit dst d src s n (d + i) = src (s + i) := by
  rw [blit_inside _ _ _ _ _ (by omega) (by omega)]
  congr 1
  omega

@[simp] theorem blit_zero (dst : Int → α) (d : Int) (src : Int → α) (s : Int) :
    blit dst d src s 0 = dst := by
  funext a
  exact blit_outside _ _ _ _ _ (by omega)

/-- One more cell at the end of a block copy. -/
theorem blit_succ (dst : Int → α) (d : Int) (src : Int → α) (s : Int) (n : Nat) :
    blit dst d src s (n + 1)
      = Function.update (blit dst d src s n) (d + n) (src (s + n)) := by
  funext a
  by_cases ha : a = d + n
  · subst ha
    rw [Function.update_self, blit_offset _ _ _ _ _ (by omega) (by omega)]
  · rw [Function.update_of_ne ha]
    by_cases hin : d ≤ a ∧ a < d + n
    · rw [blit_inside _ _ _ _ _ hin.1 (by omega), blit_inside _ _ _ _ _ hin.1 hin.2]
    · rw [blit_outside _ _ _ _ _ (by omega), blit_outside _ _ _ _ _ (by omega)]

/-! ### The ascending copy loop -/

/-- `for (i = 0; i < n; i++) m[d + i] = m[s + i]`. -/
def copyUp (m : Int → α) (d s : Int) : Nat → Int → α
  | 0 => m
  | n + 1 => Function.update (copyUp m d s n) (d + n) (copyUp m d s n (s + n))

/-- **Copying down is safe.**  When the destination does not lie above the
source, the loop never reads a cell it has already overwritten. -/
theorem copyUp_eq_blit (m : Int → α) {d s : Int} (h : d ≤ s) (n : Nat) :
    copyUp m d s n = blit m d m s n := by
  induction n with
  | zero => rw [blit_zero]; rfl
  | succ n ih =>
    -- the cell read in round `n` lies at or above the next cell to be written
    have hread : copyUp m d s n (s + n) = m (s + n) := by
      rw [ih]
      exact blit_outside _ _ _ _ _ (by omega)
    rw [copyUp, hread, ih, blit_succ]

/-! ### In-place work on a block -/

/-- Apply `f` cell by cell to the `n` cells from `d` on; `f` sees the offset
inside the block and the old cell. -/
def mapBlock (m : Int → α) (d : Int) (n : Nat) (f : Int → α → α) : Int → α :=
  fun a => if d ≤ a ∧ a < d + n then f (a - d) (m a) else m a

theorem mapBlock_offset (m : Int → α) (d : Int) (n : Nat) (f : Int → α → α)
    {i : Int} (h₁ : 0 ≤ i) (h₂ : i < n) :
    mapBlock m d n f (d + i) = f i (m (d + i)) := by
  unfold mapBlock
  rw [if_pos (by omega)]
  congr 1
  omega

theorem mapBlock_outside (m : Int → α) (d : Int) (n : Nat) (f : Int → α → α)
    {a : Int} (h : a < d ∨ d + n ≤ a) : mapBlock m d n f a = m a := by
  refine if_neg ?_
  rintro ⟨h₁, h₂⟩
  rcases h with h | h <;> omega

end ByteStore
