/-
CdPlayer/Lib/Cost.lean

Costs along a run.

A run is a sequence of states.  A relation between states may carry a cost
that adds up when steps follow one another, such as the distance by which
one pointer falls behind another; then the cost of a run is the sum over
its steps (`cost_run`).  Where only some of the steps cost anything, and
these at most `c`, the number of such steps bounds the sum
(`counted_cost_bounds`).

`exists_last` finds the step from which to count: the last one with some
property.
-/
import Mathlib.Algebra.BigOperators.Intervals
import Mathlib.Algebra.Order.BigOperators.Group.Finset
import Mathlib.Data.Nat.Find

namespace Run

open Finset

section
variable {σ C : Type*} [AddCommMonoid C] {R : C → σ → σ → Prop} {run : Nat → σ} {d : Nat → C}
variable {a b : Nat}

/-- **Cost rule.** -/
theorem cost_run (hab : a ≤ b) (hzero : R 0 (run a) (run a))
    (hadd : ∀ {c c' s t u}, R c s t → R c' t u → R (c + c') s u)
    (hstep : ∀ i, a ≤ i → i < b → R (d i) (run i) (run (i + 1))) :
    R (∑ i ∈ Ico a b, d i) (run a) (run b) := by
  induction b, hab using Nat.le_induction with
  | base =>
    rw [Ico_self, sum_empty]
    exact hzero
  | succ b hab ih =>
    have hinit := ih fun i hi hib => hstep i hi (Nat.lt_succ_of_lt hib)
    rw [sum_Ico_succ_top hab]
    exact hadd hinit (hstep b hab (Nat.lt_succ_self b))

end

section
variable {I : Finset Nat} {p : Nat → Prop} [DecidablePred p] {f : Nat → Int} {c : Int}

/-- What the counted steps cost, if none costs more than `c`. -/
theorem counted_cost_bounds (h : ∀ i, p i → 0 ≤ f i ∧ f i ≤ c) :
    0 ≤ ∑ i ∈ I, (if p i then f i else 0) ∧
    ∑ i ∈ I, (if p i then f i else 0) ≤ c * (I.filter p).card := by
  rw [← sum_filter]
  constructor
  · exact sum_nonneg fun i hi => (h i (mem_filter.mp hi).2).1
  · have hcard := sum_le_card_nsmul (I.filter p) f c fun i hi => (h i (mem_filter.mp hi).2).2
    rw [Int.nsmul_eq_mul, mul_comm] at hcard
    exact hcard

/-- Steps that cost nothing. -/
theorem counted_cost_zero (h : ∀ i ∈ I, p i → f i = 0) :
    ∑ i ∈ I, (if p i then f i else 0) = 0 := by
  apply sum_eq_zero
  intro i hi
  by_cases hp : p i
  · rw [if_pos hp]
    exact h i hi hp
  · exact if_neg hp

end

/-- The last step before `b` with a property that step `a` has. -/
theorem exists_last {p : Nat → Prop} [DecidablePred p] {a b : Nat} (hab : a < b) (ha : p a) :
    ∃ j, j < b ∧ p j ∧ ∀ i, j < i → i < b → ¬ p i := by
  refine ⟨Nat.findGreatest p (b - 1), ?_, Nat.findGreatest_spec (by omega) ha, ?_⟩
  · have hle := Nat.findGreatest_le (P := p) (b - 1)
    omega
  · intro i hi hib
    exact Nat.findGreatest_is_greatest hi (by omega)

end Run
