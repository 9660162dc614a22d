/-
CdPlayer/Lib/Occurrence.lean

Occurrences of a pattern in a sequence, and the borders a linear-time
search falls back along.

Sequences are total functions from positions; lengths are carried apart.

* `Agree p x i k`: the first `k` cells of `p` stand in `x` from `i` on.
* `Border p k b`: the prefix of `p` of length `k` has a proper prefix of
  length `b` that is also its suffix.
* `LongestBorder p k b`: `b` is the longest of them, the value a failure
  table stores for `k`.

The search itself is a loop of the program; what it needs from here are
the two fall-back rules.  `LongestBorder.step_of_ne` keeps the table's
invariant when a comparison fails while the table is built, and
`no_agree_between` says that no occurrence starts between the current
candidate and the one the table falls back to.
-/
import Mathlib.Data.Nat.Basic
import Mathlib.Tactic.Linarith

namespace Occurrence

variable {α : Type*} {p x : Nat → α}

/-! ### Occurrences -/

/-- The first `k` cells of `p` stand in `x` from position `i` on. -/
def Agree (p x : Nat → α) (i k : Nat) : Prop := ∀ j, j < k → x (i + j) = p j

theorem Agree.zero (p x : Nat → α) (i : Nat) : Agree p x i 0 :=
  fun _ h => absurd h (Nat.not_lt_zero _)

theorem Agree.succ {i k : Nat} (h : Agree p x i k) (hx : x (i + k) = p k) :
    Agree p x i (k + 1) := by
  intro j hj
  rcases Nat.lt_succ_iff_lt_or_eq.mp hj with hlt | rfl
  · exact h j hlt
  · exact hx

/-- The least start of an occurrence that ends within `len` cells. -/
structure FirstAt (p : Nat → α) (m : Nat) (x : Nat → α) (len i : Nat) : Prop where
  fits : i + m ≤ len
  agree : Agree p x i m
  least : ∀ i', i' < i → ¬ Agree p x i' m

theorem FirstAt.unique {m len i i' : Nat} (h : FirstAt p m x len i)
    (h' : FirstAt p m x len i') : i = i' := by
  rcases Nat.lt_trichotomy i i' with hlt | heq | hgt
  · exact absurd h.agree (h'.least i hlt)
  · exact heq
  · exact absurd h'.agree (h.least i' hgt)

/-! ### Borders -/

/-- `b` is the length of a proper border of the prefix of length `k`. -/
def Border (p : Nat → α) (k b : Nat) : Prop := b < k ∧ Agree p p (k - b) b

theorem Border.zero {k : Nat} (hk : 0 < k) : Border p k 0 := ⟨hk, Agree.zero _ _ _⟩

/-- The shorter of two borders of one prefix is a border of the longer. -/
theorem Border.of_lt {k q b : Nat} (hq : Border p k q) (hb : Border p k b) (h : b < q) :
    Border p q b := by
  refine ⟨h, fun j hj => ?_⟩
  have h₁ : p (k - q + (q - b + j)) = p (q - b + j) := hq.2 _ (by omega)
  have h₂ : p (k - b + j) = p j := hb.2 j hj
  have hk := hq.1
  rw [← h₁, ← h₂]
  congr 1
  omega

/-- A border one cell longer comes from a border and a matching cell. -/
theorem Border.pred {k b : Nat} (h : Border p (k + 1) (b + 1)) :
    Border p k b ∧ p k = p b := by
  obtain ⟨hlt, hag⟩ := h
  refine ⟨⟨by omega, fun j hj => ?_⟩, ?_⟩
  · rw [← hag j (by omega)]
    congr 1
    omega
  · rw [← hag b (by omega)]
    congr 1
    omega

theorem Border.succ {k b : Nat} (h : Border p k b) (hp : p k = p b) :
    Border p (k + 1) (b + 1) := by
  have hlt := h.1
  refine ⟨by omega, ?_⟩
  have hag : Agree p p (k - b) (b + 1) := h.2.succ (by rw [← hp]; congr 1; omega)
  rwa [Nat.add_sub_add_right]

/-- The longest proper border of the prefix of length `k`. -/
structure LongestBorder (p : Nat → α) (k b : Nat) : Prop where
  border : Border p k b
  longest : ∀ b', Border p k b' → b' ≤ b

/-! ### Building the table -/

/-- `q` is a border of the prefix of length `i`, and no border of the next
prefix is longer than `q + 1`: what the table loop knows about its
candidate. -/
structure Candidate (p : Nat → α) (i q : Nat) : Prop where
  border : Border p i q
  bound : ∀ b, Border p (i + 1) b → b ≤ q + 1

theorem Candidate.one : Candidate p 1 0 :=
  ⟨Border.zero Nat.one_pos, fun _ hb => by have := hb.1; omega⟩

/-- A matching cell settles the next table entry. -/
theorem Candidate.hit {i q : Nat} (h : Candidate p i q) (heq : p i = p q) :
    LongestBorder p (i + 1) (q + 1) :=
  ⟨h.border.succ heq, h.bound⟩

/-- A mismatch at candidate `0` settles the next table entry as `0`. -/
theorem Candidate.miss_zero {i : Nat} (h : Candidate p i 0) (hne : p i ≠ p 0) :
    LongestBorder p (i + 1) 0 := by
  refine ⟨Border.zero (Nat.succ_pos i), fun b hb => ?_⟩
  rcases b with - | b
  · exact le_rfl
  · have hle := h.bound _ hb
    obtain rfl : b = 0 := by omega
    exact absurd hb.pred.2 hne

/-- The longest border of a prefix is a candidate for the next one. -/
theorem LongestBorder.candidate {i q : Nat} (h : LongestBorder p i q) : Candidate p i q := by
  refine ⟨h.border, fun b hb => ?_⟩
  rcases b with - | b
  · exact Nat.zero_le _
  · exact Nat.succ_le_succ (h.longest b hb.pred.1)

/-- A mismatch at a positive candidate falls back to its own longest border. -/
theorem LongestBorder.step_of_ne {i q q' : Nat} (h : Candidate p i q) (hne : p i ≠ p q)
    (hq' : LongestBorder p q q') : Candidate p i q' := by
  have hq'lt := hq'.border.1
  have hqlt := h.border.1
  refine ⟨⟨by omega, fun j hj => ?_⟩, fun b hb => ?_⟩
  · -- the border of a border is a border
    have h₁ := hq'.border.2 j hj
    have h₂ := h.border.2 (q - q' + j) (by omega)
    rw [← h₁, ← h₂]
    congr 1
    omega
  · rcases b with - | b
    · exact Nat.zero_le _
    · obtain ⟨hbord, hcell⟩ := hb.pred
      have hle := h.bound _ hb
      have hbq : b ≠ q := fun e => hne (e ▸ hcell)
      exact Nat.succ_le_succ (hq'.longest b (h.border.of_lt hbord (by omega)))

/-! ### Scanning -/

/-- **No occurrence is skipped.**  When the first `q` cells agree at `s` and
the next one does not, an occurrence that starts after `s` starts no
earlier than the longest border of `q` allows. -/
theorem no_agree_between {m q q' s s' : Nat} (hag : Agree p x s q)
    (hq' : LongestBorder p q q') (hlt : s < s') (hs' : s' + q' < s + q) (hqm : q ≤ m) :
    ¬ Agree p x s' m := by
  intro hocc
  -- the overlap of the two candidates would be a border of `q` longer than `q'`
  have hb : Border p q (s + q - s') := by
    refine ⟨by omega, fun j hj => ?_⟩
    have h₁ := hag (q - (s + q - s') + j) (by omega)
    have h₂ := hocc j (by omega)
    rw [← h₁, ← h₂]
    congr 1
    omega
  have hle := hq'.longest _ hb
  omega

/-- The part of a match that survives the fall-back. -/
theorem Agree.fallback {q q' s : Nat} (hag : Agree p x s q) (hb : Border p q q') :
    Agree p x (s + q - q') q' := by
  intro j hj
  have hlt := hb.1
  have h₁ := hag (q - q' + j) (by omega)
  have h₂ := hb.2 j hj
  rw [← h₂, ← h₁]
  congr 1
  omega

end Occurrence
