/-
CdPlayer/Fifo.lean

The CDDI ring in data mode is a first-in-first-out queue.

Three parties work on the ring: the interrupt delivers blocks while the
CDIF is on, the reader consumes at most what is buffered, and a restart
turns the CDIF off, zeroes both pointers and turns it on again.  `RingOp`
lists these steps, `ringStep` performs them with the functions of the code.

The specification is a `Ledger`: all samples delivered since the last
restart and how many of them have been consumed.  It knows nothing of
pointers.  `Fifo` is the invariant that ties the two together; what carries
it is the coupling of the almost-full test to the enable bit: while the
CDIF is on there is room for one more block (`Fifo.room`).

Main result: `cddi_ring_fifo`.
-/
import CdPlayer.Interrupt
import CdPlayer.Lib.Run

namespace CdPlayer

open RingStore Run

/-! ### Steps -/

/-- A step of the producer, the consumer or the restarting thread. -/
inductive RingOp
  | block (blk : Nat → UInt8)
  | consume (n : Int)
  | restart

/-- When a step is possible. -/
def RingOp.Enabled (w : World) : RingOp → Prop
  | .block _ => w.cdifEnable = true
  | .consume n => 0 ≤ n ∧ n ≤ singleBufferDataAvailable w.sCDDIBuffer
  | .restart => True

/-- CDIF off, both pointers to zero, CDIF on. -/
def restartRing (w : World) : World :=
  let w := setCdifEnable false w
  let w := { w with sCDDIBuffer := { w.sCDDIBuffer with lWritePtr := 0 } }
  let w := { w with sCDDIBuffer := { w.sCDDIBuffer with lReadPtr := 0 } }
  setCdifEnable true w

/-- The step, as the code performs it. -/
def ringStep (w : World) : RingOp → World
  | .block blk => cdifAdmaHandler blk w
  | .consume n => { w with sCDDIBuffer := singleBufferUpdateReadPointer w.sCDDIBuffer n }
  | .restart => restartRing w

/-! ### The specification -/

/-- What has been delivered since the last restart, and how much of it has
been consumed. -/
structure Ledger where
  delivered : List Sample
  consumed : Nat

/-- The step on the ledger; `now` is the stamp of a block. -/
def Ledger.step (now : Nat) (l : Ledger) : RingOp → Ledger
  | .block blk => { l with delivered := l.delivered ++ blockSamples blk now }
  | .consume n => { l with consumed := l.consumed + n.toNat }
  | .restart => ⟨[], 0⟩

/-- The queue a ledger stands for. -/
def Ledger.queue (l : Ledger) : List Sample := l.delivered.drop l.consumed

/-- Ring and ledger side by side. -/
def fifoStep (s : World × Ledger) (op : RingOp) : World × Ledger :=
  (ringStep s.1 op, s.2.step s.1.now op)

/-- A freshly set ring and an empty ledger. -/
def fifoInit (w : World) : World × Ledger := (cddiSetBuffer w, ⟨[], 0⟩)

/-! ### The invariant -/

/-- The ring implements the ledger. -/
structure Fifo (s : World × Ledger) : Prop where
  ring : RingOk s.1.sCDDIBuffer
  data : s.1.datacdEnable = true
  /-- While the CDIF is on, one more block fits. -/
  room : s.1.cdifEnable = true → 2048 < singleBufferSpaceAvailable s.1.sCDDIBuffer
  pos : s.1.sCDDIBuffer.At s.2.consumed s.2.delivered.length
  queue : contents (sampleAt s.1.sCDDIBuffer.pSingleBuf) 2097152 s.2.consumed
    (s.2.delivered.length - s.2.consumed) = s.2.queue

theorem fifo_init {w : World} (hdata : w.datacdEnable = true) : Fifo (fifoInit w) where
  ring := ringOk_fresh _
  data := hdata
  room := fun _ => show (2048 : Int) < 2097148 by decide
  pos :=
    { pos := show (0 : Int) < 2097152 by decide
      read := rfl
      write := rfl
      le := le_rfl
      lap := show (0 : Int) < 2097152 by decide }
  queue := rfl

variable {s : World × Ledger}

/-- Appending a block to ring and ledger. -/
theorem Fifo.contents_block (h : Fifo s) (hon : s.1.cdifEnable = true) (blk : Nat → UInt8) :
    contents (sampleAt (appendBlock blk s.1.now s.1.sCDDIBuffer).pSingleBuf) 2097152
        s.2.consumed (s.2.delivered.length - s.2.consumed + 2048)
      = s.2.queue ++ blockSamples blk s.1.now := by
  have hroom := h.room hon
  have hle := h.pos.le
  have hL := h.ring.length
  rw [h.ring.spaceAvailable, h.pos.dataAvailable] at hroom
  have hlen : ((s.2.delivered.length - s.2.consumed : Nat) : Int)
      = s.2.delivered.length - s.2.consumed := by omega
  have hwrite : s.1.sCDDIBuffer.lWritePtr
      = ((s.2.consumed : Int) + (s.2.delivered.length - s.2.consumed : Nat)) % 2097152 := by
    rw [h.pos.write, hL, hlen]
    congr 1
    omega
  have hfits := h.ring.block_fits
  rw [sampleAt_appendBlock, hwrite,
    contents_append _ _ _ (by omega) (by rw [← hwrite]; exact_mod_cast hfits) (by decide),
    h.queue]
  unfold blockSamples
  simp only [zero_add]

/-- The producer's step. -/
theorem Fifo.block (h : Fifo s) (hon : s.1.cdifEnable = true) (blk : Nat → UInt8) :
    Fifo (fifoStep s (.block blk)) := by
  have hroom := h.room hon
  rw [h.ring.spaceAvailable, h.pos.dataAvailable] at hroom
  have hle := h.pos.le
  have hlen : (s.2.delivered ++ blockSamples blk s.1.now).length
      = s.2.delivered.length + 2048 := by simp [blockSamples]
  have hat := h.ring.at_appendBlock h.pos blk s.1.now (by omega)
  have hring := h.ring.appendBlock blk s.1.now
  have hqueue := h.contents_block hon blk
  -- the new samples go to the end of the queue, behind all consumed
  have hdrop : s.2.queue ++ blockSamples blk s.1.now
      = (s.2.delivered ++ blockSamples blk s.1.now).drop s.2.consumed := by
    rw [List.drop_append_of_le_length (by omega)]
    rfl
  have hcount : s.2.delivered.length + 2048 - s.2.consumed
      = s.2.delivered.length - s.2.consumed + 2048 := by omega
  rcases cdifAdmaHandler_cases blk h.ring.ne_zero with ⟨heq, hmore⟩ | ⟨heq, -⟩
  · -- room for another block
    refine ⟨?_, ?_, ?_, ?_, ?_⟩ <;> simp only [fifoStep, ringStep, Ledger.step, heq]
    · exact hring
    · exact h.data
    · exact fun _ => hmore h.data
    · rw [hlen]; exact_mod_cast hat
    · rw [hlen, hcount, hqueue, hdrop]; rfl
  · refine ⟨?_, ?_, ?_, ?_, ?_⟩ <;> simp only [fifoStep, ringStep, Ledger.step, heq]
    · exact hring
    · exact h.data
    · exact fun hoff => absurd hoff (by decide)
    · rw [hlen]; exact_mod_cast hat
    · rw [hlen, hcount, hqueue, hdrop]; rfl

/-- The consumer's step. -/
theorem Fifo.consume (h : Fifo s) {n : Int} (hn : 0 ≤ n)
    (hle : n ≤ singleBufferDataAvailable s.1.sCDDIBuffer) : Fifo (fifoStep s (.consume n)) := by
  have hlt := h.ring.dataAvailable_lt
  rw [h.pos.dataAvailable] at hle
  have hcast : ((s.2.consumed + n.toNat : Nat) : Int) = s.2.consumed + n := by omega
  have hL := h.ring.length
  have hread := h.ring.inside.readLt
  have hat := h.pos.advance hn hle (by rw [h.pos.dataAvailable] at hlt; omega)
  refine ⟨?_, h.data, fun hon => ?_, ?_, ?_⟩
  · exact h.ring.advance hn (by rw [h.pos.dataAvailable] at hlt; omega)
  · -- consuming only makes room
    have hroom := h.room hon
    rw [h.pos.spaceAvailable] at hroom
    change 2048 < singleBufferSpaceAvailable (singleBufferUpdateReadPointer _ n)
    rw [hat.spaceAvailable]
    change 2048 < s.1.sCDDIBuffer.lLength - 4 - _
    omega
  · change (singleBufferUpdateReadPointer s.1.sCDDIBuffer n).At
      ((s.2.consumed + n.toNat : Nat) : Int) _
    rw [hcast]
    exact hat
  · have hdrop := congrArg (List.drop n.toNat) h.queue
    rw [contents_drop] at hdrop
    change contents (sampleAt s.1.sCDDIBuffer.pSingleBuf) 2097152
      ((s.2.consumed + n.toNat : Nat) : Int)
      (s.2.delivered.length - (s.2.consumed + n.toNat))
        = s.2.delivered.drop (s.2.consumed + n.toNat)
    rw [← List.drop_drop, ← Nat.sub_sub]
    push_cast at hdrop ⊢
    exact hdrop

/-- The restart. -/
theorem Fifo.restart (h : Fifo s) : Fifo (fifoStep s .restart) := by
  have hL := h.ring.length
  have hshape : (ringStep s.1 .restart).sCDDIBuffer
      = ⟨s.1.sCDDIBuffer.pSingleBuf, 2097152, 0, 0⟩ := by
    rw [← hL]
    rfl
  refine ⟨?_, h.data, fun _ => ?_, ?_, rfl⟩ <;> simp only [fifoStep, hshape]
  · exact ringOk_fresh _
  · show (2048 : Int) < 2097148
    decide
  · exact (fifo_init (w := s.1) h.data).pos

/-- What one step preserves. -/
theorem fifo_step (s : World × Ledger) (op : RingOp) (hop : op.Enabled s.1) (h : Fifo s) :
    Fifo (fifoStep s op) := by
  cases op with
  | block blk => exact h.block hop blk
  | consume n => exact h.consume hop.1 hop.2
  | restart => exact h.restart

/-! ### Every run -/

/-- **The CDDI ring is a lossless queue in data mode.**  In every state
that interrupts, bounded advances and restarts lead to, in any order, the
pointers are inside the ring, the writer is on a block boundary, what is
buffered is exactly what was delivered since the last restart less what
was consumed, and the next block write stays inside the ring. -/
theorem cddi_ring_fifo (w : World) (hdata : w.datacdEnable = true) (ops : List RingOp)
    (hops : Allowed fifoStep (fun s op => op.Enabled s.1) (fifoInit w) ops) :
    let s := ops.foldl fifoStep (fifoInit w)
    let b := s.1.sCDDIBuffer
    b.lLength = 2097152 ∧
    (0 ≤ b.lReadPtr ∧ b.lReadPtr < b.lLength) ∧
    (0 ≤ b.lWritePtr ∧ b.lWritePtr < b.lLength ∧ 2048 ∣ b.lWritePtr) ∧
    s.2.consumed ≤ s.2.delivered.length ∧
    contents (sampleAt b.pSingleBuf) b.lLength b.lReadPtr (singleBufferDataAvailable b).toNat
      = s.2.delivered.drop s.2.consumed ∧
    ∀ (blk : Nat → UInt8) (a : Int), a < 0 ∨ 4 * b.lLength ≤ a →
      (cdifAdmaHandler blk s.1).sCDDIBuffer.pSingleBuf a = b.pSingleBuf a := by
  intro s b
  -- each operation keeps the invariant
  have h : Fifo s := hops.inv fifo_step (fifo_init hdata)
  have hin := h.ring.inside
  have hle := h.pos.le
  refine ⟨h.ring.length, ⟨hin.readNonneg, hin.readLt⟩,
    ⟨hin.writeNonneg, hin.writeLt, hin.aligned⟩, by exact_mod_cast hle, ?_, ?_⟩
  · have havail : (singleBufferDataAvailable b).toNat
        = s.2.delivered.length - s.2.consumed := by
      rw [h.pos.dataAvailable]
      omega
    rw [havail, h.pos.read, contents_emod, h.ring.length]
    exact h.queue
  · intro blk a ha
    rcases cdifAdmaHandler_cases blk h.ring.ne_zero with ⟨heq, -⟩ | ⟨heq, -⟩
    · rw [heq]; exact h.ring.appendBlock_outside ha
    · rw [heq]; exact h.ring.appendBlock_outside ha

/-- A run that restarts, receives two blocks and consumes part of them. -/
theorem cddi_ring_fifo_blocks :
    let s := [RingOp.restart, .block fun _ => 1, .block fun _ => 2, .consume 2100].foldl
      fifoStep (fifoInit World.mounted)
    contents (sampleAt s.1.sCDDIBuffer.pSingleBuf) s.1.sCDDIBuffer.lLength
        s.1.sCDDIBuffer.lReadPtr (singleBufferDataAvailable s.1.sCDDIBuffer).toNat
      = s.2.delivered.drop s.2.consumed :=
  (cddi_ring_fifo World.mounted (by decide)
    [.restart, .block fun _ => 1, .block fun _ => 2, .consume 2100]
    ⟨trivial, rfl, rfl, ⟨by decide, by decide⟩, trivial⟩).2.2.2.2.1

end CdPlayer
