/-
CdPlayer/CopyMoves.lean

`CD_CopyReadData` (cdif_drv.c) as the shorts it moves.

The function has four cases: a straight copy, a copy in a wrapped ring that
ends before the end of the array, one that goes on at its start, and
nothing if the pointers are equal.  `copyMoves` lists, in the order of the
loops, which short of the ring goes to which short of the destination, and
the function performs just these moves (`cdCopyReadData_moves`).

As long as no more is copied than is buffered, the four cases are one:
short `i` of the destination is short `2 * lReadPtr + i` of the ring,
modulo its length (`copyMoves_eq`).  So the copy is a slice of the ring,
and reads nothing outside it (`cdCopyReadData_slice`).
-/
import CdPlayer.ReadData
import Mathlib.Data.List.Range

namespace CdPlayer

open ByteStore

/-! ### Moves -/

/-- `m[a] = x` for a short at byte `a`. -/
def putShort (m : Mem) (a : Int) (x : Short) : Mem :=
  Function.update (Function.update m a x.1) (a + 1) x.2

/-- Perform moves: pairs of a short of the destination and a short of `src`. -/
def runMoves (src : Mem) (pBuff : Int) (moves : List (Int × Int)) (m : Mem) : Mem :=
  moves.foldl (fun m x => putShort m (pBuff + 2 * x.1) (shortAt src x.2)) m

/-- The moves of one loop: `n` shorts from `src[s]` on to `dst[d]` on. -/
def loopMoves (d s : Int) (n : Nat) : List (Int × Int) :=
  (List.range n).map fun i : Nat => (d + i, s + i)

/-- The moves of `CD_CopyReadData`. -/
def copyMoves (copySize : Nat) (b : SingleBufferState) : List (Int × Int) :=
  let pSingle := b.lReadPtr * 2
  if b.lWritePtr > b.lReadPtr then loopMoves 0 pSingle copySize
  else if b.lWritePtr < b.lReadPtr then
    let remainSize := u32 ((b.lLength - b.lReadPtr) * 2)
    if copySize > remainSize then
      loopMoves 0 pSingle remainSize ++ loopMoves remainSize 0 (copySize - remainSize)
    else loopMoves 0 pSingle copySize
  else []

variable {m src : Mem} {p : Int} {w : World} {b : SingleBufferState}

theorem loopMoves_succ (d s : Int) (n : Nat) :
    loopMoves d s (n + 1) = loopMoves d s n ++ [(d + n, s + n)] := by
  unfold loopMoves
  rw [List.range_succ, List.map_append]
  rfl

theorem runMoves_append (moves moves' : List (Int × Int)) :
    runMoves src p (moves ++ moves') m = runMoves src p moves' (runMoves src p moves m) :=
  List.foldl_append

/-- Two cells at the end of a block copy are one move. -/
theorem copyShorts_succ (d s : Int) (n : Nat) :
    copyShorts m d src (2 * s) (n + 1)
      = putShort (copyShorts m d src (2 * s) n) (d + 2 * n) (shortAt src (s + n)) := by
  unfold copyShorts putShort shortAt
  rw [show 2 * (n + 1) = 2 * n + 1 + 1 by omega, blit_succ, blit_succ]
  push_cast
  rw [show d + (2 * (n : Int) + 1) = d + 2 * n + 1 by ring,
    show 2 * s + 2 * (n : Int) = 2 * (s + n) by ring,
    show 2 * s + (2 * (n : Int) + 1) = 2 * (s + n) + 1 by ring]

/-- A loop performs its moves. -/
theorem copyShorts_moves (d s : Int) (n : Nat) :
    copyShorts m (p + 2 * d) src (2 * s) n = runMoves src p (loopMoves d s n) m := by
  induction n with
  | zero => exact blit_zero m _ src _
  | succ n ih =>
    rw [copyShorts_succ, ih, loopMoves_succ, runMoves_append]
    show _ = putShort _ (p + 2 * (d + n)) _
    rw [show p + 2 * d + 2 * (n : Int) = p + 2 * (d + n) by ring]

/-- **`CD_CopyReadData` performs its moves**, and does nothing else to the
chunk and the ring. -/
theorem cdCopyReadData_moves (pBuff : Int) (copySize req : Nat) (w : World) :
    (cdCopyReadData pBuff copySize req w).cdChunkBuf
        = runMoves w.sCDDIBuffer.pSingleBuf pBuff (copyMoves copySize w.sCDDIBuffer) w.cdChunkBuf ∧
      (cdCopyReadData pBuff copySize req w).sCDDIBuffer = w.sCDDIBuffer := by
  have hread : 4 * w.sCDDIBuffer.lReadPtr = 2 * (w.sCDDIBuffer.lReadPtr * 2) := by ring
  have hloop : ∀ n : Nat, copyShorts w.cdChunkBuf pBuff w.sCDDIBuffer.pSingleBuf
      (2 * (w.sCDDIBuffer.lReadPtr * 2)) n
      = runMoves w.sCDDIBuffer.pSingleBuf pBuff (loopMoves 0 (w.sCDDIBuffer.lReadPtr * 2) n)
        w.cdChunkBuf := by
    intro n
    have h := @copyShorts_moves w.cdChunkBuf w.sCDDIBuffer.pSingleBuf pBuff 0
      (w.sCDDIBuffer.lReadPtr * 2) n
    rw [mul_zero, add_zero] at h
    exact h
  have hdone : ∀ chunk : Mem,
      (if req ≠ 0 then cdSetCHOffet copySize { w with cdChunkBuf := chunk }
        else { w with cdChunkBuf := chunk }).cdChunkBuf = chunk ∧
      (if req ≠ 0 then cdSetCHOffet copySize { w with cdChunkBuf := chunk }
        else { w with cdChunkBuf := chunk }).sCDDIBuffer = w.sCDDIBuffer := by
    intro chunk
    split <;> exact ⟨rfl, rfl⟩
  refine ⟨(hdone _).1.trans ?_, (hdone _).2⟩
  unfold copyMoves
  simp only [hread]
  split
  · exact hloop copySize
  · split
    · split
      · -- the copy goes on at the start of the array
        rw [hloop, runMoves_append]
        exact copyShorts_moves _ 0 _
      · exact hloop copySize
    · rfl

/-! ### One circular slice -/

/-- Each move of a list that goes up by one short at a time. -/
theorem runMoves_slice (f : Nat → Int) (n : Nat) (a : Int) :
    (∀ i : Nat, i < n →
      (runMoves src p ((List.range n).map fun i : Nat => ((i : Int), f i)) m (p + 2 * i),
        runMoves src p ((List.range n).map fun i : Nat => ((i : Int), f i)) m (p + 2 * i + 1))
        = shortAt src (f i)) ∧
    (a < p ∨ p + 2 * n ≤ a →
      runMoves src p ((List.range n).map fun i : Nat => ((i : Int), f i)) m a = m a) := by
  induction n with
  | zero => exact ⟨fun i hi => absurd hi (Nat.not_lt_zero i), fun _ => rfl⟩
  | succ n ih =>
    have hlast : runMoves src p ((List.range (n + 1)).map fun i : Nat => ((i : Int), f i)) m
        = putShort (runMoves src p ((List.range n).map fun i : Nat => ((i : Int), f i)) m)
            (p + 2 * n) (shortAt src (f n)) := by
      rw [List.range_succ, List.map_append, runMoves_append]
      rfl
    rw [hlast]
    unfold putShort
    constructor
    · intro i hi
      rcases Nat.lt_succ_iff_lt_or_eq.mp hi with hlt | rfl
      · -- an earlier short is not overwritten
        rw [Function.update_of_ne (by omega), Function.update_of_ne (by omega),
          Function.update_of_ne (by omega), Function.update_of_ne (by omega)]
        exact ih.1 i hlt
      · rw [Function.update_of_ne (by omega), Function.update_self, Function.update_self]
    · intro ha
      push_cast at ha
      rw [Function.update_of_ne (by omega), Function.update_of_ne (by omega)]
      exact ih.2 (by omega)

/-- The four cases of the copy are one. -/
theorem copyMoves_eq (h : b.Inside 1) (hlong : b.lLength < 2147483648) {copySize : Nat}
    (hsize : (copySize : Int) ≤ 2 * singleBufferDataAvailable b) :
    copyMoves copySize b = (List.range copySize).map fun i : Nat =>
      ((i : Int), (2 * b.lReadPtr + i) % (2 * b.lLength)) := by
  have h₁ := h.readNonneg
  have h₂ := h.readLt
  have h₃ := h.writeNonneg
  have h₄ := h.writeLt
  have hstraight : ∀ n : Nat, (n : Int) ≤ 2 * (b.lLength - b.lReadPtr) →
      loopMoves 0 (b.lReadPtr * 2) n = (List.range n).map fun i : Nat =>
        ((i : Int), (2 * b.lReadPtr + i) % (2 * b.lLength)) := by
    intro n hn
    apply List.map_congr_left
    intro i hi
    have hlt := List.mem_range.mp hi
    rw [Int.emod_eq_of_lt (by omega) (by omega), zero_add, mul_comm]
  unfold singleBufferDataAvailable at hsize
  unfold copyMoves
  simp only
  by_cases hup : b.lWritePtr > b.lReadPtr
  · -- the data lies in one piece
    rw [if_pos hup]
    rw [if_pos (by omega)] at hsize
    exact hstraight copySize (by omega)
  · rw [if_neg hup]
    by_cases hdown : b.lWritePtr < b.lReadPtr
    · rw [if_pos hdown]
      rw [if_neg (by omega)] at hsize
      obtain ⟨r, hr⟩ : ∃ r : Nat, u32 ((b.lLength - b.lReadPtr) * 2) = r := ⟨_, rfl⟩
      have hremain : (r : Int) = 2 * (b.lLength - b.lReadPtr) := by
        rw [← hr, u32_of_lt (by omega) (by omega), mul_comm]
      rw [hr]
      by_cases hwrap : copySize > r
      · -- the second loop starts at index 0, a length before where the first ended
        rw [if_pos hwrap, hstraight r (by omega)]
        obtain ⟨k, rfl⟩ := Nat.exists_eq_add_of_lt hwrap
        rw [show r + k + 1 - r = k + 1 by omega, add_assoc, List.range_add, List.map_append,
          List.map_map]
        congr 1
        apply List.map_congr_left
        intro i hi
        have hlt := List.mem_range.mp hi
        show ((r : Int) + i, (0 : Int) + i)
          = (((r + i : Nat) : Int), (2 * b.lReadPtr + ((r + i : Nat) : Int)) % (2 * b.lLength))
        have hlap : (2 * b.lReadPtr + ((r + i : Nat) : Int)) = (i : Int) + 2 * b.lLength := by
          push_cast
          omega
        rw [hlap, Int.add_emod_right, Int.emod_eq_of_lt (by omega) (by omega), zero_add]
        push_cast
        rfl
      · rw [if_neg hwrap]
        exact hstraight copySize (by omega)
    · -- equal pointers: nothing is buffered, and nothing is copied
      rw [if_neg hdown]
      rw [if_pos (by omega)] at hsize
      obtain rfl : copySize = 0 := by omega
      rfl

/-- **`CD_CopyReadData` is a circular slice.**  As long as no more is copied
than is buffered, short `i` of the destination is short `2 * lReadPtr + i`
of the ring modulo its length; nothing else is written, the ring stays, and
nothing outside it is read. -/
theorem cdCopyReadData_slice (pBuff : Int) (req : Nat) (h : w.sCDDIBuffer.Inside 1)
    (hlong : w.sCDDIBuffer.lLength < 2147483648) {copySize : Nat}
    (hsize : (copySize : Int) ≤ 2 * singleBufferDataAvailable w.sCDDIBuffer) :
    let b := w.sCDDIBuffer
    let w' := cdCopyReadData pBuff copySize req w
    (∀ i : Nat, i < copySize →
      (w'.cdChunkBuf (pBuff + 2 * i), w'.cdChunkBuf (pBuff + 2 * i + 1))
        = shortAt b.pSingleBuf ((2 * b.lReadPtr + i) % (2 * b.lLength))) ∧
    (∀ a, a < pBuff ∨ pBuff + 2 * copySize ≤ a → w'.cdChunkBuf a = w.cdChunkBuf a) ∧
    w'.sCDDIBuffer = b ∧
    ∀ x ∈ copyMoves copySize b, 0 ≤ x.2 ∧ x.2 < 2 * b.lLength := by
  intro b w'
  obtain ⟨hchunk, hring⟩ := cdCopyReadData_moves pBuff copySize req w
  have hmoves := copyMoves_eq h hlong hsize
  rw [hmoves] at hchunk
  refine ⟨fun i hi => ?_, fun a ha => ?_, hring, fun x hx => ?_⟩
  · show ((cdCopyReadData pBuff copySize req w).cdChunkBuf _, _) = _
    rw [hchunk]
    exact (runMoves_slice _ copySize 0).1 i hi
  · show (cdCopyReadData pBuff copySize req w).cdChunkBuf a = _
    rw [hchunk]
    exact (runMoves_slice _ copySize a).2 ha
  · rw [show copyMoves copySize b = _ from hmoves] at hx
    obtain ⟨i, -, rfl⟩ := List.mem_map.mp hx
    have hL : 0 < 2 * w.sCDDIBuffer.lLength :=
      mul_pos two_pos (lt_of_le_of_lt h.readNonneg h.readLt)
    exact ⟨Int.emod_nonneg _ (ne_of_gt hL), Int.emod_lt_of_pos _ hL⟩

/-- A ring of eight samples, two before its end and two after its start
buffered. -/
def wrappedRing : World :=
  { World.boot with sCDDIBuffer := ⟨fun a => ⟨0, a.toNat⟩, 8, 6, 2⟩ }

theorem wrappedRing_inside : wrappedRing.sCDDIBuffer.Inside 1 where
  readNonneg := by decide
  readLt := by decide
  writeNonneg := by decide
  writeLt := by decide
  aligned := one_dvd _
  divides := one_dvd _

/-- All it holds, copied across the end: the fifth short comes from the
start of the array. -/
theorem cdCopyReadData_slice_wrapped :
    ((cdCopyReadData 0 8 0 wrappedRing).cdChunkBuf 8,
      (cdCopyReadData 0 8 0 wrappedRing).cdChunkBuf 9)
      = shortAt wrappedRing.sCDDIBuffer.pSingleBuf 0 :=
  (cdCopyReadData_slice 0 0 wrappedRing_inside (by decide)
    (show ((8 : Nat) : Int) ≤ 2 * singleBufferDataAvailable wrappedRing.sCDDIBuffer by decide)).1 4
    (by decide)

end CdPlayer
