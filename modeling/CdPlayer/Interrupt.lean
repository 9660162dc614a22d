/-
CdPlayer/Interrupt.lean

What the CDIF interrupt does to the ring.

`cdif_adma_handler` places a block of 2048 samples at the write pointer and
moves the pointer on, back to zero at the end of the ring; if that leaves
no room for another block in data mode it turns the CDIF off and reports a
full buffer.  `appendBlock` is the first part alone, and
`cdifAdmaHandler_cases` is the handler in terms of it.

`RingOk` is the shape every ring of this driver keeps: the length that
`CDDISetBuffer` gives it, both pointers inside, the writer on a block
boundary.  On such a ring the handler never writes outside
(`appendBlock_outside`), and in unreduced positions it adds 2048 to what
was delivered, as long as the block fits (`At.appendBlock`).
-/
import CdPlayer.Driver

namespace CdPlayer

open ByteStore RingStore

/-! ### Blocks -/

/-- A block as the handler finds it, stamped with the time. -/
def stamped (block : Nat → UInt8) (now : Nat) : Mem := fun a => ⟨block a.toNat, now⟩

/-- The samples of a block. -/
def blockSamples (block : Nat → UInt8) (now : Nat) : List Sample :=
  (List.range 2048).map fun i : Nat => sampleAt (stamped block now) i

/-- The ring after the handler has placed a block. -/
def appendBlock (block : Nat → UInt8) (now : Nat) (b : SingleBufferState) : SingleBufferState :=
  { b with
    pSingleBuf := blit b.pSingleBuf (4 * b.lWritePtr) (stamped block now) 0 8192
    lWritePtr := if u32 (u32 (b.lLength - b.lWritePtr) - 2048) = 0 then 0
      else b.lWritePtr + 2048 }

@[simp] theorem appendBlock_lLength (block : Nat → UInt8) (now : Nat) (b : SingleBufferState) :
    (appendBlock block now b).lLength = b.lLength := rfl

@[simp] theorem appendBlock_lReadPtr (block : Nat → UInt8) (now : Nat) (b : SingleBufferState) :
    (appendBlock block now b).lReadPtr = b.lReadPtr := rfl

/-- The handler on a ring that has been set up, with the block appended. -/
theorem cdifAdmaHandler_eq (block : Nat → UInt8) {w : World} (hL : w.sCDDIBuffer.lLength ≠ 0) :
    cdifAdmaHandler block w =
      if singleBufferSpaceAvailable (appendBlock block w.now w.sCDDIBuffer) ≤ 2048
          ∧ w.datacdEnable then
        { w with
          sCDDIBuffer := appendBlock block w.now w.sCDDIBuffer
          cdifEnable := false
          gCDErrorStatus := .bufFull }
      else { w with sCDDIBuffer := appendBlock block w.now w.sCDDIBuffer } := by
  unfold cdifAdmaHandler
  rw [if_neg hL]
  rfl

/-- The handler on a ring that has been set up: a block is appended, and
then there is either room for the next one (or nobody cares) or the CDIF is
off and the buffer full. -/
theorem cdifAdmaHandler_cases (block : Nat → UInt8) {w : World}
    (hL : w.sCDDIBuffer.lLength ≠ 0) :
    let b := appendBlock block w.now w.sCDDIBuffer
    cdifAdmaHandler block w = { w with sCDDIBuffer := b } ∧
      (w.datacdEnable = true → 2048 < singleBufferSpaceAvailable b) ∨
    cdifAdmaHandler block w
        = { w with sCDDIBuffer := b, cdifEnable := false, gCDErrorStatus := .bufFull } ∧
      singleBufferSpaceAvailable b ≤ 2048 := by
  intro b
  have hrun := cdifAdmaHandler_eq block hL
  by_cases hfull : singleBufferSpaceAvailable b ≤ 2048 ∧ w.datacdEnable
  · exact .inr ⟨by rw [hrun, if_pos hfull], hfull.1⟩
  · refine .inl ⟨by rw [hrun, if_neg hfull], fun hdata => ?_⟩
    by_contra hle
    exact hfull ⟨by omega, hdata⟩

/-- The ring after the handler. -/
theorem cdifAdmaHandler_ring (block : Nat → UInt8) {w : World} (hL : w.sCDDIBuffer.lLength ≠ 0) :
    (cdifAdmaHandler block w).sCDDIBuffer = appendBlock block w.now w.sCDDIBuffer := by
  rcases cdifAdmaHandler_cases block hL with ⟨heq, -⟩ | ⟨heq, -⟩
  · rw [heq]
  · rw [heq]

/-- On a ring of length zero the handler only resets the write pointer. -/
theorem cdifAdmaHandler_unset (block : Nat → UInt8) {w : World}
    (hL : w.sCDDIBuffer.lLength = 0) :
    cdifAdmaHandler block w
      = { w with sCDDIBuffer := { w.sCDDIBuffer with lWritePtr := 0 } } := by
  unfold cdifAdmaHandler
  rw [if_pos hL]

/-! ### Samples and bytes -/

/-- Copying whole samples, seen sample by sample. -/
theorem sampleAt_blit (dst src : Mem) (d s : Int) (n : Nat) :
    sampleAt (blit dst (4 * d) src (4 * s) (4 * n)) = blit (sampleAt dst) d (sampleAt src) s n := by
  have hcell : ∀ i j : Int, 0 ≤ j → j < 4 →
      blit dst (4 * d) src (4 * s) (4 * n) (4 * i + j)
        = if d ≤ i ∧ i < d + n then src (4 * (s + (i - d)) + j) else dst (4 * i + j) := by
    intro i j h₀ h₁
    by_cases hin : d ≤ i ∧ i < d + n
    · rw [if_pos hin, blit_inside _ _ _ _ _ (by omega) (by push_cast; omega)]
      congr 1
      ring
    · rw [if_neg hin, blit_outside _ _ _ _ _ (by push_cast; omega)]
  funext i
  have h₀ := hcell i 0 (by omega) (by omega)
  have h₁ := hcell i 1 (by omega) (by omega)
  have h₂ := hcell i 2 (by omega) (by omega)
  have h₃ := hcell i 3 (by omega) (by omega)
  have hshort : ∀ m : Mem, ∀ k : Int,
      sampleAt m k = ((m (4 * k + 0), m (4 * k + 1)), (m (4 * k + 2), m (4 * k + 3))) := by
    intro m k
    unfold sampleAt shortAt
    simp only [Prod.mk.injEq]
    exact ⟨⟨congrArg m (by ring), congrArg m (by ring)⟩,
      ⟨congrArg m (by ring), congrArg m (by ring)⟩⟩
  rw [hshort, h₀, h₁, h₂, h₃]
  unfold blit
  split <;> rw [hshort]

/-! ### The shape of the ring -/

/-- The length `CDDISetBuffer` gives the ring, pointers inside it, the
writer on a block boundary. -/
structure RingOk (b : SingleBufferState) : Prop where
  inside : b.Inside 2048
  length : b.lLength = 2097152

variable {b : SingleBufferState} {block : Nat → UInt8} {now : Nat} {c d : Int}

theorem RingOk.ne_zero (h : RingOk b) : b.lLength ≠ 0 := by rw [h.length]; decide

theorem ringOk_fresh (m : Mem) : RingOk ⟨m, 2097152, 0, 0⟩ where
  inside :=
    { readNonneg := le_rfl
      readLt := show (0 : Int) < 2097152 by decide
      writeNonneg := le_rfl
      writeLt := show (0 : Int) < 2097152 by decide
      aligned := dvd_zero _
      divides := show (2048 : Int) ∣ 2097152 by decide }
  length := rfl

theorem RingOk.dataAvailable_nonneg (h : RingOk b) : 0 ≤ singleBufferDataAvailable b :=
  singleBufferDataAvailable_nonneg h.inside

theorem RingOk.dataAvailable_lt (h : RingOk b) : singleBufferDataAvailable b < 2097152 := by
  rw [← h.length]
  exact singleBufferDataAvailable_lt h.inside

/-- The count of samples fits an `unsigned long`. -/
theorem RingOk.u32_dataAvailable (h : RingOk b) :
    (u32 (singleBufferDataAvailable b) : Int) = singleBufferDataAvailable b :=
  u32_of_lt h.dataAvailable_nonneg (lt_trans h.dataAvailable_lt (by decide))

theorem RingOk.spaceAvailable (h : RingOk b) :
    singleBufferSpaceAvailable b = 2097148 - singleBufferDataAvailable b := by
  rw [singleBufferSpaceAvailable_eq h.inside, h.length]
  rfl

/-- The new write pointer, closed, where the block fits. -/
theorem appendBlock_lWritePtr_of_fits (hL : b.lLength = 2097152) (h₀ : 0 ≤ b.lWritePtr)
    (hfit : b.lWritePtr + 2048 ≤ 2097152) :
    (appendBlock block now b).lWritePtr = (b.lWritePtr + 2048) % 2097152 := by
  have hrest : u32 (u32 (b.lLength - b.lWritePtr) - 2048) = 0
      ↔ b.lWritePtr + 2048 = 2097152 := by
    rw [u32_of_lt (by omega) (by omega)]
    unfold u32
    omega
  unfold appendBlock
  simp only [hrest]
  split <;> omega

/-- A block fits between the write pointer and the end of the ring. -/
theorem RingOk.block_fits (h : RingOk b) : b.lWritePtr + 2048 ≤ 2097152 := by
  have h₁ := h.inside.writeLt
  have h₂ := h.inside.aligned
  have hL := h.length
  omega

theorem RingOk.appendBlock_lWritePtr (h : RingOk b) :
    (appendBlock block now b).lWritePtr = (b.lWritePtr + 2048) % 2097152 :=
  appendBlock_lWritePtr_of_fits h.length h.inside.writeNonneg h.block_fits

theorem RingOk.appendBlock (h : RingOk b) (block : Nat → UInt8) (now : Nat) :
    RingOk (appendBlock block now b) where
  inside :=
    { readNonneg := h.inside.readNonneg
      readLt := h.inside.readLt
      writeNonneg := by rw [h.appendBlock_lWritePtr]; omega
      writeLt := by rw [h.appendBlock_lWritePtr, appendBlock_lLength, h.length]; omega
      aligned := by have := h.inside.aligned; rw [h.appendBlock_lWritePtr]; omega
      divides := h.inside.divides }
  length := h.length

theorem RingOk.advance (h : RingOk b) {n : Int} (hn : 0 ≤ n) (hnL : n ≤ 2097152) :
    RingOk (singleBufferUpdateReadPointer b n) where
  inside := by
    have hL := h.length
    have hlt := h.inside.readLt
    exact h.inside.advance hn (by omega) (by omega)
  length := h.length

theorem RingOk.advance_lReadPtr (h : RingOk b) {n : Int} (hn : 0 ≤ n) (hnL : n ≤ 2097152) :
    (singleBufferUpdateReadPointer b n).lReadPtr = (b.lReadPtr + n) % 2097152 := by
  have hL := h.length
  have hlt := h.inside.readLt
  have heq := advanceReadPtr_eq h.inside.readNonneg hlt hn (by omega) (by omega)
  rw [hL] at heq
  change advanceReadPtr b.lLength b.lReadPtr n = _
  rw [hL]
  exact heq

/-- **No block write leaves the ring.** -/
theorem RingOk.appendBlock_outside (h : RingOk b) {a : Int} (ha : a < 0 ∨ 4 * b.lLength ≤ a) :
    (CdPlayer.appendBlock block now b).pSingleBuf a = b.pSingleBuf a := by
  have h₁ := h.inside.writeNonneg
  have h₂ := h.block_fits
  have hL := h.length
  exact blit_outside _ _ _ _ _ (by push_cast; omega)

/-! ### Positions -/

theorem RingOk.at (h : RingOk b) :
    b.At b.lReadPtr (b.lReadPtr + singleBufferDataAvailable b) := h.inside.at

/-- A block that fits adds 2048 to the position delivered. -/
theorem RingOk.at_appendBlock (h : RingOk b) (hat : b.At c d) (block : Nat → UInt8) (now : Nat)
    (hfit : d + 2048 - c < 2097152) : (CdPlayer.appendBlock block now b).At c (d + 2048) where
  pos := hat.pos
  read := hat.read
  write := by
    rw [h.appendBlock_lWritePtr, hat.write, appendBlock_lLength, h.length, Int.emod_add_emod]
  le := by have := hat.le; omega
  lap := by rw [appendBlock_lLength, h.length]; exact hfit

/-- The samples of the ring after a block. -/
theorem sampleAt_appendBlock :
    sampleAt (appendBlock block now b).pSingleBuf
      = blit (sampleAt b.pSingleBuf) b.lWritePtr (sampleAt (stamped block now)) 0 2048 :=
  sampleAt_blit b.pSingleBuf (stamped block now) b.lWritePtr 0 2048

/-- How much is buffered after a block. -/
theorem RingOk.dataAvailable_appendBlock (h : RingOk b) (block : Nat → UInt8) (now : Nat)
    (hfit : singleBufferDataAvailable b + 2048 < 2097152) :
    singleBufferDataAvailable (CdPlayer.appendBlock block now b)
      = singleBufferDataAvailable b + 2048 := by
  have hat := h.at_appendBlock h.at block now (by omega)
  rw [hat.dataAvailable]
  omega

end CdPlayer
