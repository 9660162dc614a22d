/-
CdPlayer/Lib/DoubleBuffer.lean

A buffer of two halves between a writer and a reader that do not wait for
each other.

The writer goes round and round through the `2 * h` cells and raises a flag
whenever it has filled a half.  The reader, when it sees the flag, takes the
half that the writer is not in, cell by cell, and clears the flag when it
has all of it.  Nothing but time keeps them apart: `InTime` says that the
reader has taken a half before the writer has filled the next one.

Then what has been taken is what has been written, half by half, with no
cell lost, repeated or mixed up (`Sound.taken`), and the flag says whether a
half is due (`Sound.pending`); every step keeps this (`Sound.step`).
-/
import Mathlib.Data.List.TakeDrop
import Mathlib.Tactic.Ring
import CdPlayer.Lib.Run

namespace DoubleBuffer

open Run

variable {α : Type*} {h : Nat}

/-- The buffer, its writer and its reader. -/
structure State (α : Type*) where
  /-- Everything that has been written. -/
  produced : List α
  cells : Nat → α
  /-- A half has been filled. -/
  pending : Bool
  /-- The half that the reader is in: its first cell, and what has been taken of
  it. -/
  copy : Option (Nat × List α)
  /-- The halves that have been taken. -/
  taken : List (List α)

inductive Op (α : Type*)
  | write (a : α)
  | enter
  | copy
  | leave

/-- The half that the writer is not in. -/
def otherHalf (h : Nat) (s : State α) : Nat := if s.produced.length % (2 * h) < h then h else 0

/-- One step of the writer or of the reader. -/
def step (h : Nat) (s : State α) : Op α → State α
  | .write a =>
    { s with
      produced := s.produced ++ [a]
      cells := Function.update s.cells (s.produced.length % (2 * h)) a
      pending := s.pending || (s.produced.length + 1) % h == 0 }
  | .enter =>
    if s.pending = true ∧ s.copy = none then { s with copy := some (otherHalf h s, []) } else s
  | .copy =>
    match s.copy with
    | none => s
    | some (first, block) =>
      if block.length < h then
        { s with copy := some (first, block ++ [s.cells (first + block.length)]) }
      else s
  | .leave =>
    match s.copy with
    | none => s
    | some (_, block) =>
      if block.length = h then
        { s with copy := none, pending := false, taken := s.taken ++ [block] }
      else s

/-- The next half but one is not filled before the next one is taken. -/
def InTime (h : Nat) (s : State α) : Op α → Prop
  | .write _ => s.produced.length + 1 < h * (s.taken.length + 2)
  | _ => True

/-- The halves taken are those written, and the reader is in the next one. -/
structure Sound (h : Nat) (s : State α) : Prop where
  /-- The cells hold what has been written last. -/
  cells : ∀ n, n < s.produced.length → s.produced.length ≤ n + 2 * h →
    s.produced[n]? = some (s.cells (n % (2 * h)))
  taken : s.taken.flatten = s.produced.take (h * s.taken.length)
  sizes : ∀ block ∈ s.taken, block.length = h
  length : h * s.taken.length ≤ s.produced.length
  inTime : s.produced.length < h * (s.taken.length + 2)
  pending : s.pending = true ↔ h * (s.taken.length + 1) ≤ s.produced.length
  copy : ∀ first block, s.copy = some (first, block) → s.pending = true ∧
    first = h * (s.taken.length % 2) ∧ block.length ≤ h ∧
    block = (s.produced.drop (h * s.taken.length)).take block.length

variable {s : State α}

/-- A cell that is copied changes nothing but the copy. -/
theorem step_copy (h : Nat) (s : State α) : (step h s .copy).produced = s.produced ∧
    (step h s .copy).taken = s.taken ∧ (step h s .copy).pending = s.pending := by
  unfold step
  simp only
  split
  · exact ⟨rfl, rfl, rfl⟩
  · split <;> exact ⟨rfl, rfl, rfl⟩

/-! ### Places -/

/-- Cells of the last two halves are apart. -/
theorem mod_ne_mod {m n k : Nat} (hlt : n < k) (hle : k < n + m) : n % m ≠ k % m := by
  intro heq
  have hdvd : m ∣ k - n := Nat.dvd_of_mod_eq_zero (Nat.sub_mod_eq_zero_of_mod_eq heq.symm)
  have hzero := Nat.eq_zero_of_dvd_of_lt hdvd (by omega)
  omega

/-- Cell `k` of half number `t`. -/
theorem halfCell {t k : Nat} (hk : k < h) : h * (t % 2) + k = (h * t + k) % (2 * h) := by
  have hsplit : h * t + k = 2 * h * (t / 2) + (h * (t % 2) + k) := by
    have ht : h * t = h * (2 * (t / 2) + t % 2) := by rw [Nat.div_add_mod]
    rw [ht]
    ring
  have hless : h * (t % 2) + k < 2 * h := by
    rcases Nat.mod_two_eq_zero_or_one t with hz | ho
    · rw [hz]
      omega
    · rw [ho]
      omega
  rw [hsplit, Nat.mul_add_mod, Nat.mod_eq_of_lt hless]

/-- While half `t` is due the writer is in the other one. -/
theorem Sound.otherHalf (hs : Sound h s) (hpending : s.pending = true) :
    otherHalf h s = h * (s.taken.length % 2) := by
  have hlow := hs.pending.mp hpending
  have hhigh := hs.inTime
  have hpos : 0 < h := by
    by_contra hzero
    rw [Nat.le_zero.mp (Nat.le_of_not_lt hzero)] at hhigh
    omega
  -- the writer is at cell `k` of half `t + 1`
  obtain ⟨k, hk⟩ : ∃ k, s.produced.length = h * (s.taken.length + 1) + k :=
    ⟨_, (Nat.add_sub_cancel' hlow).symm⟩
  have hless : k < h := by
    have hnext : h * (s.taken.length + 2) = h * (s.taken.length + 1) + h := by ring
    omega
  have hplace := halfCell (t := s.taken.length + 1) hless
  unfold DoubleBuffer.otherHalf
  rw [hk, ← hplace]
  rcases Nat.mod_two_eq_zero_or_one s.taken.length with heven | hodd
  · have hnext : (s.taken.length + 1) % 2 = 1 := by omega
    rw [hnext, heven, if_neg (by omega)]
    rfl
  · have hnext : (s.taken.length + 1) % 2 = 0 := by omega
    rw [hnext, hodd, if_pos (by omega), Nat.mul_one]

/-! ### Steps -/

theorem Sound.write (hs : Sound h s) (a : α)
    (htime : s.produced.length + 1 < h * (s.taken.length + 2)) :
    Sound h (step h s (.write a)) := by
  have hlength := hs.length
  have hlen : (s.produced ++ [a]).length = s.produced.length + 1 := List.length_append
  constructor
  · -- cells
    intro n (hn : n < (s.produced ++ [a]).length)
      (hlast : (s.produced ++ [a]).length ≤ n + 2 * h)
    rw [hlen] at hn hlast
    show (s.produced ++ [a])[n]?
      = some (Function.update s.cells (s.produced.length % (2 * h)) a (n % (2 * h)))
    by_cases hnew : n = s.produced.length
    · subst hnew
      rw [Function.update_self, List.getElem?_concat_length]
    · rw [Function.update_of_ne (mod_ne_mod (by omega) (by omega)),
        List.getElem?_append_left (by omega)]
      exact hs.cells n (by omega) (by omega)
  · -- taken
    show s.taken.flatten = (s.produced ++ [a]).take (h * s.taken.length)
    rw [List.take_append_of_le_length hlength]
    exact hs.taken
  · exact hs.sizes
  · -- length
    show h * s.taken.length ≤ (s.produced ++ [a]).length
    omega
  · -- in time
    show (s.produced ++ [a]).length < h * (s.taken.length + 2)
    omega
  · -- pending: the flag is raised when the half is full
    show (s.pending || (s.produced.length + 1) % h == 0) = true
      ↔ h * (s.taken.length + 1) ≤ (s.produced ++ [a]).length
    rw [Bool.or_eq_true, hs.pending, beq_iff_eq, hlen]
    constructor
    · rintro (hle | hmod)
      · omega
      · obtain ⟨q, hq⟩ := Nat.dvd_of_mod_eq_zero hmod
        rw [hq]
        have hmore : s.taken.length < q := Nat.lt_of_mul_lt_mul_left (a := h) (by omega)
        exact Nat.mul_le_mul_left h hmore
    · intro hle
      by_cases hold : h * (s.taken.length + 1) ≤ s.produced.length
      · exact .inl hold
      · have heq : s.produced.length + 1 = h * (s.taken.length + 1) := by omega
        rw [heq]
        exact .inr (Nat.mul_mod_right h _)
  · -- copy: the writer is not in that half
    intro first block hcopy
    obtain ⟨hpending, hfirst, hsize, hblock⟩ := hs.copy first block hcopy
    have hfull := hs.pending.mp hpending
    have hnext : h * (s.taken.length + 1) = h * s.taken.length + h := by ring
    refine ⟨?_, hfirst, hsize, ?_⟩
    · show (s.pending || _) = true
      rw [hpending]
      rfl
    · show block = ((s.produced ++ [a]).drop (h * s.taken.length)).take block.length
      rw [List.drop_append_of_le_length hlength, List.take_append_of_le_length]
      · exact hblock
      · rw [List.length_drop]
        omega

theorem Sound.enter (hs : Sound h s) : Sound h (step h s .enter) := by
  show Sound h (if s.pending = true ∧ s.copy = none then
    { s with copy := some (DoubleBuffer.otherHalf h s, []) } else s)
  split
  · next hdue =>
    refine { hs with copy := fun first block hcopy => ?_ }
    obtain ⟨rfl, rfl⟩ := Prod.mk.inj (Option.some.inj hcopy)
    exact ⟨hdue.1, hs.otherHalf hdue.1, Nat.zero_le _, rfl⟩
  · exact hs

theorem Sound.copyCell (hs : Sound h s) : Sound h (step h s .copy) := by
  unfold step
  rcases hcopy : s.copy with - | ⟨first, block⟩
  · exact hs
  · obtain ⟨hpending, hfirst, -, hblock⟩ := hs.copy first block hcopy
    have hfull := hs.pending.mp hpending
    have hnext : h * (s.taken.length + 1) = h * s.taken.length + h := by ring
    have hnext' : h * (s.taken.length + 2) = h * s.taken.length + 2 * h := by ring
    have htime := hs.inTime
    simp only
    split
    · next hless =>
      refine { hs with copy := fun first' block' hcopy' => ?_ }
      obtain ⟨rfl, rfl⟩ := Prod.mk.inj (Option.some.inj hcopy')
      -- the cell holds what was written there last
      have hcell := hs.cells (h * s.taken.length + block.length) (by omega) (by omega)
      rw [← halfCell hless, ← hfirst] at hcell
      refine ⟨hpending, hfirst, ?_, ?_⟩
      · rw [List.length_append, List.length_singleton]
        exact hless
      · rw [List.length_append, List.length_singleton, List.take_add_one, ← hblock,
          List.getElem?_drop, hcell]
        rfl
    · exact hs

theorem Sound.leave (hs : Sound h s) : Sound h (step h s .leave) := by
  unfold step
  rcases hcopy : s.copy with - | ⟨first, block⟩
  · exact hs
  · obtain ⟨hpending, -, -, hblock⟩ := hs.copy first block hcopy
    have hfull := hs.pending.mp hpending
    have hnext : h * (s.taken.length + 2) = h * (s.taken.length + 1) + h := by ring
    have htime := hs.inTime
    simp only
    split
    · next hall =>
      have hlen : (s.taken ++ [block]).length = s.taken.length + 1 := List.length_append
      refine ⟨hs.cells, ?_, ?_, ?_, ?_, ?_, fun _ _ hnone => by cases hnone⟩
      · show (s.taken ++ [block]).flatten = s.produced.take (h * (s.taken ++ [block]).length)
        rw [hall] at hblock
        rw [List.flatten_append, hs.taken, hlen, Nat.mul_succ, List.take_add, hblock]
        simp
      · intro block' hmem
        rcases List.mem_append.mp hmem with hmem | hmem
        · exact hs.sizes block' hmem
        · rw [List.mem_singleton.mp hmem]
          exact hall
      · show h * (s.taken ++ [block]).length ≤ _
        rw [hlen]
        exact hfull
      · show s.produced.length < h * ((s.taken ++ [block]).length + 2)
        rw [hlen]
        have hmore : h * (s.taken.length + 1 + 2) = h * (s.taken.length + 2) + h := by ring
        omega
      · -- the next half is not full yet
        rw [hlen]
        show false = true ↔ h * (s.taken.length + 2) ≤ s.produced.length
        constructor
        · exact fun hfalse => absurd hfalse (by decide)
        · intro hle
          omega
    · exact hs

/-- **Nothing is lost or mixed up**, as long as the reader is in time. -/
theorem Sound.step (hs : Sound h s) (op : Op α) (hop : InTime h s op) :
    Sound h (step h s op) := by
  cases op with
  | write a => exact hs.write a hop
  | enter => exact hs.enter
  | copy => exact hs.copyCell
  | leave => exact hs.leave

/-- Before anything has been written. -/
theorem sound_initial (hpos : 0 < h) (cells : Nat → α) : Sound h ⟨[], cells, false, none, []⟩ where
  cells := fun n hn => absurd hn (Nat.not_lt_zero n)
  taken := by simp
  sizes := fun _ hmem => absurd hmem List.not_mem_nil
  length := by simp
  inTime := by simpa using hpos
  pending := by
    simp only [Bool.false_eq_true, List.length_nil, false_iff]
    omega
  copy := fun _ _ hnone => by cases hnone

end DoubleBuffer
