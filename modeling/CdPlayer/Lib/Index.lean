/-
CdPlayer/Lib/Index.lean

Indices handed out from a bit map.

`Exact bits used index` says that the bits set are the indices of the
things in use, and that no two of these share an index.  It is kept when
a thing gets an index whose bit is clear (`Exact.assign`), and when one
goes and the bit of its index is cleared (`Exact.release`).
-/
import Mathlib.Logic.Function.Basic

namespace Index

variable {α : Type*} {bits : Nat → Bool} {used used' : α → Prop} {index index' : α → Nat}

structure Exact (bits : Nat → Bool) (used : α → Prop) (index : α → Nat) : Prop where
  bits : ∀ m, bits m = true ↔ ∃ x, used x ∧ index x = m
  inj : ∀ x y, used x → used y → index x = index y → x = y

/-- What is in use keeps its index. -/
theorem Exact.congr (h : Exact bits used index) (hused : ∀ x, used' x ↔ used x)
    (hindex : ∀ x, used x → index' x = index x) : Exact bits used' index' where
  bits := by
    intro m
    rw [h.bits m]
    refine exists_congr fun x => ?_
    rw [hused x]
    exact and_congr_right fun hx => by rw [hindex x hx]
  inj := by
    intro x y hx hy heq
    have hx' := (hused x).mp hx
    have hy' := (hused y).mp hy
    rw [hindex x hx', hindex y hy'] at heq
    exact h.inj x y hx' hy' heq

/-- **A thing goes**, and its bit is cleared. -/
theorem Exact.release (h : Exact bits used index) {x : α} (hx : used x) :
    Exact (Function.update bits (index x) false) (fun y => used y ∧ y ≠ x) index where
  bits := by
    intro m
    rcases eq_or_ne m (index x) with rfl | hm
    · rw [Function.update_self]
      refine ⟨nofun, ?_⟩
      rintro ⟨y, ⟨hy, hne⟩, heq⟩
      exact absurd (h.inj y x hy hx heq) hne
    · rw [Function.update_of_ne hm, h.bits m]
      refine exists_congr fun y => and_congr_left fun heq => ?_
      refine ⟨fun hy => ⟨hy, ?_⟩, And.left⟩
      rintro rfl
      exact hm heq.symm
  inj := fun y z hy hz => h.inj y z hy.1 hz.1

/-- **A new thing gets an index** whose bit is clear. -/
theorem Exact.assign [DecidableEq α] (h : Exact bits used index) {x : α} {m : Nat}
    (hm : bits m = false) (hx : ¬ used x) :
    Exact (Function.update bits m true) (fun y => y = x ∨ used y)
      (Function.update index x m) := by
  have hne {y : α} (hy : used y) : y ≠ x := by
    rintro rfl
    exact hx hy
  have hfree {y : α} (hy : used y) : index y ≠ m := by
    intro heq
    rw [(h.bits m).mpr ⟨y, hy, heq⟩] at hm
    cases hm
  -- the new index is the only bit that changes, and nothing had it
  constructor
  · intro k
    have hold : (∃ y, used y ∧ Function.update index x m y = k) ↔ ∃ y, used y ∧ index y = k := by
      refine exists_congr fun y => and_congr_right fun hy => ?_
      rw [Function.update_of_ne (hne hy)]
    simp only [or_and_right, exists_or, exists_eq_left]
    rw [hold, ← h.bits k, Function.update_self]
    rcases eq_or_ne k m with rfl | hk
    · rw [Function.update_self]
      exact iff_of_true rfl (.inl rfl)
    · rw [Function.update_of_ne hk]
      exact (or_iff_right hk.symm).symm
  · rintro y z (rfl | hy) (rfl | hz) heq
    · rfl
    · rw [Function.update_self, Function.update_of_ne (hne hz)] at heq
      exact absurd heq.symm (hfree hz)
    · rw [Function.update_self, Function.update_of_ne (hne hy)] at heq
      exact absurd heq (hfree hy)
    · rw [Function.update_of_ne (hne hy), Function.update_of_ne (hne hz)] at heq
      exact h.inj y z hy hz heq

end Index
