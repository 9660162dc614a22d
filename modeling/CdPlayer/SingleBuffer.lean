/-
CdPlayer/SingleBuffer.lean

The CDDI ring (SingleBuffer.c): a block of samples with a read and a write
pointer, both counted in samples.

The pointer functions are translated as written, with their case splits
and, for the read pointer, the final correction that leaves the ring when
an advance ends beyond the second lap.  Beside each stands its closed form
on pointers inside the ring: the data available is the distance from
reader to writer modulo the length, the space available is what is left of
the ring but for four samples, and a bounded advance is addition modulo
the length.

`At b c d` places a ring at unreduced positions: `c` samples consumed and
`d` delivered.
-/
import CdPlayer.Basic
import CdPlayer.Lib.RingStore
import Mathlib.Algebra.EuclideanDomain.Basic
import Mathlib.Algebra.EuclideanDomain.Int

namespace CdPlayer

open RingStore

/-- `SingleBufferState`; `pSingleBuf` is addressed in bytes, `lLength` and
the pointers count samples of four bytes. -/
structure SingleBufferState where
  pSingleBuf : Mem
  lLength : Int
  lReadPtr : Int
  lWritePtr : Int

/-! ### The functions -/

/-- `SingleBufferSet`: refuses a length that is not a multiple of four. -/
def singleBufferSet (b : SingleBufferState) (psSingle : Mem) (lLength : Int) :
    SingleBufferState × Int :=
  if u32 lLength % 4 ≠ 0 then (b, 0)
  else (⟨psSingle, lLength, 0, 0⟩, 1)

/-- `SingleBufferDataAvailable`. -/
def singleBufferDataAvailable (b : SingleBufferState) : Int :=
  if b.lWritePtr ≥ b.lReadPtr then b.lWritePtr - b.lReadPtr
  else b.lLength - (b.lReadPtr - b.lWritePtr)

/-- `SingleBufferSpaceAvailable`. -/
def singleBufferSpaceAvailable (b : SingleBufferState) : Int :=
  if b.lWritePtr = b.lReadPtr then b.lLength - 4
  else if b.lWritePtr > b.lReadPtr then b.lLength - (b.lWritePtr - b.lReadPtr) - 4
  else b.lReadPtr - b.lWritePtr - 4

/-- `lMaxLength` of `SingleBufferUpdateWritePointer`. -/
def maxWriteLength (b : SingleBufferState) : Int :=
  if b.lReadPtr > b.lWritePtr then b.lReadPtr - b.lWritePtr - 4
  else if b.lReadPtr = 0 then b.lLength - b.lWritePtr - 4
  else b.lLength - b.lWritePtr

/-- `SingleBufferUpdateWritePointer`: the length is cut to a multiple of four. -/
def singleBufferUpdateWritePointer (b : SingleBufferState) (lLength : Int) :
    SingleBufferState × Int :=
  let lLength := s32 (u32 lLength / 4 * 4 : Nat)
  if lLength > maxWriteLength b then (b, 0)
  else
    let lWrite := b.lWritePtr + lLength
    ({ b with lWritePtr := if lWrite = b.lLength then 0 else lWrite }, 1)

/-- The new read pointer of `SingleBufferUpdateReadPointer`.  The sum is one
of two `long`s, and wraps. -/
def advanceReadPtr (length readPtr n : Int) : Int :=
  let p := s32 (readPtr + n)
  let p := if p > length then p - length else if p = length then 0 else p
  if p ≥ length then length - p else p

/-- `SingleBufferUpdateReadPointer`; the return value is the new pointer. -/
def singleBufferUpdateReadPointer (b : SingleBufferState) (n : Int) : SingleBufferState :=
  { b with lReadPtr := advanceReadPtr b.lLength b.lReadPtr n }

/-! ### Closed forms inside the ring -/

/-- Both pointers lie inside the ring and the writer stands on a multiple of
`k` that divides the length: the state every block write relies on. -/
structure SingleBufferState.Inside (b : SingleBufferState) (k : Int) : Prop where
  readNonneg : 0 ≤ b.lReadPtr
  readLt : b.lReadPtr < b.lLength
  writeNonneg : 0 ≤ b.lWritePtr
  writeLt : b.lWritePtr < b.lLength
  aligned : k ∣ b.lWritePtr
  divides : k ∣ b.lLength

variable {b : SingleBufferState} {k : Int}

theorem singleBufferDataAvailable_eq (h : b.Inside k) :
    singleBufferDataAvailable b = (b.lWritePtr - b.lReadPtr) % b.lLength := by
  have h₁ := h.readNonneg
  have h₂ := h.readLt
  have h₃ := h.writeNonneg
  have h₄ := h.writeLt
  unfold singleBufferDataAvailable
  split
  · rw [Int.emod_eq_of_lt (by omega) (by omega)]
  · rw [← Int.add_emod_right, Int.emod_eq_of_lt (by omega) (by omega)]
    omega

theorem singleBufferSpaceAvailable_eq (h : b.Inside k) :
    singleBufferSpaceAvailable b = b.lLength - 4 - singleBufferDataAvailable b := by
  have h₁ := h.readNonneg
  have h₂ := h.readLt
  unfold singleBufferSpaceAvailable singleBufferDataAvailable
  split
  · rw [if_pos (by omega)]; omega
  · split
    · rw [if_pos (by omega)]; omega
    · rw [if_neg (by omega)]; omega

theorem singleBufferDataAvailable_nonneg (h : b.Inside k) :
    0 ≤ singleBufferDataAvailable b := by
  have h₁ := h.readLt
  have h₂ := h.writeNonneg
  unfold singleBufferDataAvailable
  split <;> omega

theorem singleBufferDataAvailable_lt (h : b.Inside k) :
    singleBufferDataAvailable b < b.lLength := by
  have h₁ := h.readNonneg
  have h₂ := h.writeLt
  unfold singleBufferDataAvailable
  split <;> omega

/-- As long as it ends within the second lap, an advance is addition modulo
the length. -/
theorem advanceReadPtr_eq {L r n : Int} (hr : 0 ≤ r) (hrL : r < L) (hn : 0 ≤ n)
    (hlap : r + n ≤ 2 * L) (hlong : r + n < 2147483648) :
    advanceReadPtr L r n = (r + n) % L := by
  unfold advanceReadPtr
  rw [s32_of_lt (by omega) hlong]
  rcases lt_trichotomy (r + n) L with hlt | heq | hgt
  · simp only [if_neg (show ¬ r + n > L by omega), if_neg (show ¬ r + n = L by omega),
      if_neg (show ¬ r + n ≥ L by omega)]
    rw [Int.emod_eq_of_lt (by omega) hlt]
  · simp only [if_neg (show ¬ r + n > L by omega), if_pos heq,
      if_neg (show ¬ (0 : Int) ≥ L by omega)]
    rw [heq, Int.emod_self]
  · rcases hlap.lt_or_eq with hin | hfull
    · simp only [if_pos (show r + n > L by omega),
        if_neg (show ¬ r + n - L ≥ L by omega)]
      rw [← Int.sub_emod_right, Int.emod_eq_of_lt (by omega) (by omega)]
    · -- two whole lengths: the reflection maps the length to zero
      simp only [if_pos (show r + n > L by omega), if_pos (show r + n - L ≥ L by omega)]
      rw [hfull, Int.mul_emod_left]
      omega

theorem SingleBufferState.Inside.advance (h : b.Inside k) {n : Int} (hn : 0 ≤ n)
    (hlap : b.lReadPtr + n ≤ 2 * b.lLength) (hlong : b.lReadPtr + n < 2147483648) :
    (singleBufferUpdateReadPointer b n).Inside k := by
  have hL : 0 < b.lLength := lt_of_le_of_lt h.readNonneg h.readLt
  have heq := advanceReadPtr_eq h.readNonneg h.readLt hn hlap hlong
  refine ⟨?_, ?_, h.writeNonneg, h.writeLt, h.aligned, h.divides⟩
  · change 0 ≤ advanceReadPtr _ _ _
    rw [heq]; exact Int.emod_nonneg _ (ne_of_gt hL)
  · change advanceReadPtr _ _ _ < _
    rw [heq]; exact Int.emod_lt_of_pos _ hL

/-! ### Unreduced positions -/

/-- The ring stands at `c` samples consumed and `d` delivered, and the
undelivered rest of the lap is not empty. -/
structure SingleBufferState.At (b : SingleBufferState) (c d : Int) : Prop where
  pos : 0 < b.lLength
  read : b.lReadPtr = c % b.lLength
  write : b.lWritePtr = d % b.lLength
  le : c ≤ d
  lap : d - c < b.lLength

variable {c d : Int}

theorem SingleBufferState.At.inside (h : b.At c d) (hd : k ∣ d) (hL : k ∣ b.lLength) :
    b.Inside k where
  readNonneg := by rw [h.read]; exact Int.emod_nonneg _ (ne_of_gt h.pos)
  readLt := by rw [h.read]; exact Int.emod_lt_of_pos _ h.pos
  writeNonneg := by rw [h.write]; exact Int.emod_nonneg _ (ne_of_gt h.pos)
  writeLt := by rw [h.write]; exact Int.emod_lt_of_pos _ h.pos
  aligned := by rw [h.write]; exact (EuclideanDomain.dvd_mod_iff hL).mpr hd
  divides := hL

theorem SingleBufferState.At.dataAvailable (h : b.At c d) :
    singleBufferDataAvailable b = d - c := by
  have hin : b.Inside 1 := h.inside (one_dvd d) (one_dvd _)
  rw [singleBufferDataAvailable_eq hin, h.read, h.write]
  exact sub_emod_of_lt h.le h.lap

theorem SingleBufferState.At.spaceAvailable (h : b.At c d) :
    singleBufferSpaceAvailable b = b.lLength - 4 - (d - c) := by
  have hin : b.Inside 1 := h.inside (one_dvd d) (one_dvd _)
  rw [singleBufferSpaceAvailable_eq hin, h.dataAvailable]

/-- Consuming what is there moves the consumed position. -/
theorem SingleBufferState.At.advance (h : b.At c d) {n : Int} (hn : 0 ≤ n)
    (hnd : n ≤ d - c) (hlong : b.lReadPtr + n < 2147483648) :
    (singleBufferUpdateReadPointer b n).At (c + n) d where
  pos := h.pos
  read := by
    have hin : b.Inside 1 := h.inside (one_dvd d) (one_dvd _)
    have hlap := h.lap
    have hlt := hin.readLt
    change advanceReadPtr b.lLength b.lReadPtr n = (c + n) % b.lLength
    rw [advanceReadPtr_eq hin.readNonneg hin.readLt hn (by omega) hlong, h.read,
      Int.emod_add_emod]
  write := h.write
  le := by omega
  lap := by have := h.lap; change d - (c + n) < b.lLength; omega

/-- Every state inside the ring stands at some unreduced positions. -/
theorem SingleBufferState.Inside.at (h : b.Inside k) :
    b.At b.lReadPtr (b.lReadPtr + singleBufferDataAvailable b) where
  pos := lt_of_le_of_lt h.readNonneg h.readLt
  read := (Int.emod_eq_of_lt h.readNonneg h.readLt).symm
  write := by
    rw [singleBufferDataAvailable_eq h, Int.add_emod_emod, add_sub_cancel,
      Int.emod_eq_of_lt h.writeNonneg h.writeLt]
  le := by have := singleBufferDataAvailable_nonneg h; omega
  lap := by have := singleBufferDataAvailable_lt h; omega

end CdPlayer
