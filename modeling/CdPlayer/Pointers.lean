/-
CdPlayer/Pointers.lean

The two pointer updates of the ring (SingleBuffer.c), on a ring of any
length and for any count.

`SingleBufferUpdateWritePointer` compares the length with a limit of its
own, not with `SingleBufferSpaceAvailable`.  The limit keeps four samples
free below a reader that is ahead, and at the end of the ring for a reader
at its start, but not for a reader one to three samples behind the start.
There a write up to the end of the ring fills more than there is space
(`updateWritePointer_fits_iff`).

`SingleBufferUpdateReadPointer` takes off one length, and what is left
beyond a second one is reflected instead of reduced.  So it is addition
modulo the length up to twice the length, and leaves the ring beyond
(`updateReadPointer_emod_iff`).

Both successes are told in unreduced positions: a write moves the number
of samples delivered, an advance that of the samples consumed.
-/
import CdPlayer.SingleBuffer

namespace CdPlayer

open RingStore

variable {b : SingleBufferState} {m n : Int}

/-! ### The write pointer -/

/-- `n` rounded down to a multiple of four. -/
def wholeGroups (n : Int) : Int := 4 * (n / 4)

/-- The mask `~3UL` rounds a length down. -/
theorem s32_mask (hn : 0 ≤ n) (hlong : n < 2147483648) :
    s32 (u32 n / 4 * 4 : Nat) = wholeGroups n := by
  unfold s32 u32 wholeGroups
  omega

theorem updateWritePointer_refused (hn : 0 ≤ n) (hlong : n < 2147483648)
    (hmax : maxWriteLength b < wholeGroups n) : singleBufferUpdateWritePointer b n = (b, 0) := by
  unfold singleBufferUpdateWritePointer
  rw [s32_mask hn hlong]
  exact if_pos hmax

theorem updateWritePointer_done (hn : 0 ≤ n) (hlong : n < 2147483648)
    (hmax : wholeGroups n ≤ maxWriteLength b) : singleBufferUpdateWritePointer b n =
      ({ b with
        lWritePtr := if b.lWritePtr + wholeGroups n = b.lLength then 0
          else b.lWritePtr + wholeGroups n }, 1) := by
  unfold singleBufferUpdateWritePointer
  rw [s32_mask hn hlong]
  exact if_neg (not_lt.mpr hmax)

theorem maxWriteLength_le (h : b.Inside 4) : maxWriteLength b ≤ b.lLength - b.lWritePtr := by
  have h₁ := h.readLt
  unfold maxWriteLength
  split
  · omega
  · split <;> omega

/-- **Where the limit exceeds the space.**  Only a write up to the end of the
ring, with the reader behind its start, is admitted without space. -/
theorem le_space_iff (h : b.Inside 4) (h4 : 4 ∣ m) (hmax : m ≤ maxWriteLength b) :
    m ≤ singleBufferSpaceAvailable b ↔
      ¬ (0 < b.lReadPtr ∧ b.lReadPtr < 4 ∧ b.lReadPtr ≤ b.lWritePtr ∧
        m = b.lLength - b.lWritePtr) := by
  have h₁ := h.readNonneg
  have h₂ := h.readLt
  have h₃ := h.writeLt
  have h₄ := h.aligned
  have h₅ := h.divides
  have hdata := singleBufferDataAvailable_nonneg h
  have hspace := singleBufferSpaceAvailable_eq h
  unfold maxWriteLength at hmax
  unfold singleBufferDataAvailable at hspace hdata
  by_cases hahead : b.lReadPtr > b.lWritePtr
  · -- the limit is the space
    rw [if_pos hahead] at hmax
    rw [if_neg (by omega)] at hspace
    omega
  · rw [if_neg hahead] at hmax
    rw [if_pos (by omega)] at hspace
    by_cases hstart : b.lReadPtr = 0
    · rw [if_pos hstart] at hmax
      omega
    · -- short of the end at least four samples are left
      rw [if_neg hstart] at hmax
      omega

/-- A write with space for it delivers its samples. -/
theorem SingleBufferState.Inside.deliver (h : b.Inside 4) (hm : 0 ≤ m)
    (hmax : m ≤ maxWriteLength b) (hspace : m ≤ singleBufferSpaceAvailable b) :
    ({ b with lWritePtr := if b.lWritePtr + m = b.lLength then 0 else b.lWritePtr + m } :
      SingleBufferState).At b.lReadPtr (b.lReadPtr + singleBufferDataAvailable b + m) where
  pos := h.at.pos
  read := h.at.read
  write := by
    have hlimit := maxWriteLength_le h
    have hwrite := h.writeNonneg
    show (if b.lWritePtr + m = b.lLength then 0 else b.lWritePtr + m)
      = (b.lReadPtr + singleBufferDataAvailable b + m) % b.lLength
    rw [wrap_eq_emod (by omega) (by omega), ← Int.emod_add_emod (_ + _), ← h.at.write]
  le := by
    have hdata := singleBufferDataAvailable_nonneg h
    omega
  lap := by
    rw [singleBufferSpaceAvailable_eq h] at hspace
    show b.lReadPtr + singleBufferDataAvailable b + m - b.lReadPtr < b.lLength
    omega

/-- A write that succeeds has the space for its samples and makes them
available, and one that fails changes nothing. -/
structure FitsIn (b : SingleBufferState) (n : Int) : Prop where
  done : (singleBufferUpdateWritePointer b n).2 = 1 →
    (0 < wholeGroups n → wholeGroups n ≤ singleBufferSpaceAvailable b) ∧
    singleBufferDataAvailable (singleBufferUpdateWritePointer b n).1
      = singleBufferDataAvailable b + wholeGroups n ∧
    singleBufferSpaceAvailable (singleBufferUpdateWritePointer b n).1
      = singleBufferSpaceAvailable b - wholeGroups n ∧
    0 ≤ singleBufferSpaceAvailable (singleBufferUpdateWritePointer b n).1
  refused : (singleBufferUpdateWritePointer b n).2 = 0 →
    (singleBufferUpdateWritePointer b n).1 = b

/-- **When a write never overfills**: in every state but with the reader one
to three samples behind the start, the writer not before it, and a write up
to the end of the ring. -/
theorem updateWritePointer_fits_iff (h : b.Inside 4) (hn : 0 ≤ n) (hlong : n < 2147483648) :
    FitsIn b n ↔
      ¬ (0 < b.lReadPtr ∧ b.lReadPtr < 4 ∧ b.lReadPtr ≤ b.lWritePtr ∧
        wholeGroups n = b.lLength - b.lWritePtr) := by
  have hm : 0 ≤ wholeGroups n := by
    unfold wholeGroups
    omega
  have h4 : 4 ∣ wholeGroups n := Int.dvd_mul_right 4 _
  by_cases hmax : wholeGroups n ≤ maxWriteLength b
  · have hdone := updateWritePointer_done hn hlong hmax
    have hiff := le_space_iff h h4 hmax
    constructor
    · intro hfits hbad
      have hend := h.writeLt
      have hroom := (hfits.done (congrArg Prod.snd hdone)).1 (by omega)
      exact hiff.mp hroom hbad
    · intro hgood
      have hspace := hiff.mpr hgood
      have hat := h.deliver hm hmax hspace
      constructor
      · intro _
        refine ⟨fun _ => hspace, ?_⟩
        rw [singleBufferSpaceAvailable_eq h] at hspace ⊢
        rw [hdone, hat.dataAvailable, hat.spaceAvailable]
        simp only
        omega
      · intro hzero
        rw [hdone] at hzero
        cases hzero
  · -- refused, so the write does not end at the end of the ring
    have hrefused := updateWritePointer_refused hn hlong (not_le.mp hmax)
    constructor
    · rintro - ⟨hpos, -, hbehind, hend⟩
      apply hmax
      unfold maxWriteLength
      rw [if_neg (by omega), if_neg (by omega)]
      exact hend.le
    · intro _
      constructor
      · intro hone
        rw [hrefused] at hone
        cases hone
      · exact fun _ => congrArg Prod.fst hrefused

/-- The driver's ring, written up to the last four samples and read by `k`. -/
def nearlyFull (k : Int) : SingleBufferState :=
  let b := (singleBufferSet ⟨Mem.zero, 0, 0, 0⟩ Mem.zero 2097152).1
  let b := (singleBufferUpdateWritePointer b 2097148).1
  singleBufferUpdateReadPointer b k

/-- Four samples fit behind a reader that has moved on by four. -/
theorem updateWritePointer_fits_four : FitsIn (nearlyFull 4) 4 :=
  (updateWritePointer_fits_iff ⟨by decide, by decide, by decide, by decide, by decide, by decide⟩
    (by decide) (by decide)).mpr (by decide)

/-- With the reader at 1 there is space for one sample, and four are taken. -/
theorem updateWritePointer_overfills :
    (singleBufferUpdateWritePointer (nearlyFull 1) 4).2 = 1 ∧
    singleBufferSpaceAvailable (nearlyFull 1) = 1 ∧
    singleBufferSpaceAvailable (singleBufferUpdateWritePointer (nearlyFull 1) 4).1 = -3 ∧
    ¬ FitsIn (nearlyFull 1) 4 := by
  refine ⟨by decide, by decide, by decide, fun h => ?_⟩
  have hroom := (h.done (by decide)).1 (by decide)
  exact absurd hroom (by decide)

/-! ### The read pointer -/

/-- The result of `SingleBufferUpdateReadPointer`, `lRet`. -/
def singleBufferUpdateReadPointerRet (b : SingleBufferState) (n : Int) : Int :=
  (singleBufferUpdateReadPointer b n).lReadPtr

/-- Beyond the second lap the pointer is reflected, and beyond the range of
`long` it wraps: both leave it below the ring. -/
theorem advanceReadPtr_neg {L r : Int} (hrL : r < L) (hL : L < 2147483648)
    (hlong : n < 2147483648) (hr : 0 ≤ r) (hn : 0 ≤ n)
    (hfar : 2 * L < r + n ∨ 2147483648 ≤ r + n) : advanceReadPtr L r n < 0 := by
  unfold advanceReadPtr
  by_cases hwrap : 2147483648 ≤ r + n
  · have hsum : s32 (r + n) = r + n - 4294967296 := by
      unfold s32
      omega
    simp only [hsum]
    rw [if_neg (by omega), if_neg (by omega), if_neg (by omega)]
    omega
  · simp only [s32_of_lt (show -2147483648 ≤ r + n by omega) (not_le.mp hwrap)]
    rw [if_pos (by omega), if_pos (by omega)]
    omega

/-- An advance is addition modulo the length, and within what is available it
consumes what it passes. -/
structure AdvancesModulo (b : SingleBufferState) (n : Int) : Prop where
  pointer : (singleBufferUpdateReadPointer b n).lReadPtr = (b.lReadPtr + n) % b.lLength
  ret : singleBufferUpdateReadPointerRet b n = (b.lReadPtr + n) % b.lLength
  inside : 0 ≤ (singleBufferUpdateReadPointer b n).lReadPtr ∧
    (singleBufferUpdateReadPointer b n).lReadPtr < b.lLength
  consumed : n ≤ singleBufferDataAvailable b →
    singleBufferDataAvailable (singleBufferUpdateReadPointer b n)
      = singleBufferDataAvailable b - n ∧
    singleBufferSpaceAvailable (singleBufferUpdateReadPointer b n)
      = b.lLength - 4 - singleBufferDataAvailable (singleBufferUpdateReadPointer b n)

/-- **When an advance is addition modulo the length**: up to the end of the
second lap, in the range of `long`. -/
theorem updateReadPointer_emod_iff (h : b.Inside 1) (hL : b.lLength < 2147483648) (hn : 0 ≤ n)
    (hlong : n < 2147483648) :
    AdvancesModulo b n ↔ b.lReadPtr + n ≤ 2 * b.lLength ∧ b.lReadPtr + n < 2147483648 := by
  have hread := h.readNonneg
  have hlt := h.readLt
  constructor
  · intro hmod
    by_contra hfar
    have hneg := advanceReadPtr_neg hlt hL hlong hread hn (by omega)
    exact absurd hmod.inside.1 (not_le.mpr hneg)
  · rintro ⟨hlap, hrange⟩
    have heq : (singleBufferUpdateReadPointer b n).lReadPtr = (b.lReadPtr + n) % b.lLength :=
      advanceReadPtr_eq hread hlt hn hlap hrange
    have hin := h.advance hn hlap hrange
    refine ⟨heq, heq, ⟨hin.readNonneg, hin.readLt⟩, fun hle => ⟨?_, ?_⟩⟩
    · rw [(h.at.advance hn (by omega) hrange).dataAvailable]
      omega
    · exact singleBufferSpaceAvailable_eq hin

/-- Two laps bring the reader back. -/
theorem updateReadPointer_emod_laps : AdvancesModulo (nearlyFull 0) 4194304 :=
  (updateReadPointer_emod_iff ⟨by decide, by decide, by decide, by decide, by decide, by decide⟩
    (by decide) (by decide) (by decide)).mpr (by decide)

/-- One sample more takes it to -1. -/
theorem updateReadPointer_leaves :
    (singleBufferUpdateReadPointer (nearlyFull 0) 4194305).lReadPtr = -1 ∧
    ¬ AdvancesModulo (nearlyFull 0) 4194305 := by
  refine ⟨by decide, fun h => ?_⟩
  exact absurd h.inside.1 (by decide)

end CdPlayer
