/-
CdPlayer/Shock.lean

The write pointer under `CD_ShockProcess` (cdif_api.c).

The interrupt wraps the write pointer only when a block ends exactly at the
end of the ring.  Resets and blocks keep the writer on a block boundary;
`CD_ShockProcess` does not: it takes ten raw sectors back, 5880 samples,
which is no multiple of a block.  From then on the writer passes the end of
the ring without meeting it, and the block that does so is written past the
array.

`Tally` counts the blocks and the effective shocks since the writer was
last reset.  As long as no block has crossed the end, the write pointer is
a function of these two numbers (`Displaced`), and that decides which runs
are safe: `block_writes_inside_iff`.
-/
import CdPlayer.Interrupt
import CdPlayer.Lib.Run

namespace CdPlayer

open Run

/-! ### Steps -/

/-- Whatever moves a pointer of the ring. -/
inductive PointerOp
  | dma (block : Nat → UInt8)
  | shock
  | advance (n : Int)
  | resetWrite
  | resetRead

/-- The consumer advances by at most what is buffered. -/
def PointerOp.Enabled (w : World) : PointerOp → Prop
  | .advance n => 0 ≤ n ∧ n ≤ singleBufferDataAvailable w.sCDDIBuffer
  | _ => True

/-- The step, as the code performs it. -/
def pointerStep (w : World) : PointerOp → World
  | .dma block => cdifAdmaHandler block w
  | .shock => { w with sCDDIBuffer := cdShockProcess w.sCDDIBuffer }
  | .advance n => { w with sCDDIBuffer := singleBufferUpdateReadPointer w.sCDDIBuffer n }
  | .resetWrite => { w with sCDDIBuffer := { w.sCDDIBuffer with lWritePtr := 0 } }
  | .resetRead => { w with sCDDIBuffer := { w.sCDDIBuffer with lReadPtr := 0 } }

/-- Blocks written and shocks that took samples back since the writer was
last reset. -/
structure Tally where
  blocks : Nat
  shocks : Nat

/-- Ten raw sectors are taken back. -/
def Effective (w : World) : Prop := 5880 < singleBufferDataAvailable w.sCDDIBuffer

instance (w : World) : Decidable (Effective w) := by unfold Effective; infer_instance

/-- The step on the tally. -/
def Tally.step (w : World) (t : Tally) : PointerOp → Tally
  | .dma _ => { t with blocks := t.blocks + 1 }
  | .shock => if Effective w then { t with shocks := t.shocks + 1 } else t
  | .resetWrite => ⟨0, 0⟩
  | _ => t

/-- Where a tally puts the writer. -/
def Tally.writer (t : Tally) : Int := (2048 * t.blocks - 5880 * t.shocks) % 2097152

/-- Ring and tally side by side. -/
def tallyStep (s : World × Tally) (op : PointerOp) : World × Tally :=
  (pointerStep s.1 op, s.2.step s.1 op)

/-- The ring as `CDDISetBuffer` leaves it. -/
def tallyInit (w : World) : World × Tally := (cddiSetBuffer w, ⟨0, 0⟩)

/-! ### What is asked of a run -/

/-- The write pointer is inside the ring. -/
def WriterInside (w : World) : Prop :=
  0 ≤ w.sCDDIBuffer.lWritePtr ∧ w.sCDDIBuffer.lWritePtr < w.sCDDIBuffer.lLength

/-- The samples a block is copied to are all below the length of the ring. -/
def BlockInside (w : World) : PointerOp → Prop
  | .dma _ => ∀ i : Nat, i < 2048 → w.sCDDIBuffer.lWritePtr + i < w.sCDDIBuffer.lLength
  | _ => True

/-- No block arrives with the writer displaced into the last block of the
ring. -/
def NotOffEnd (t : Tally) : PointerOp → Prop
  | .dma _ => t.writer ≤ 2095104
  | _ => True

instance (t : Tally) : (op : PointerOp) → Decidable (NotOffEnd t op)
  | .dma _ => inferInstanceAs (Decidable (t.writer ≤ 2095104))
  | .shock | .advance _ | .resetWrite | .resetRead => isTrue trivial

/-! ### The writer and the tally -/

/-- Shape of the ring, with the writer where the tally puts it. -/
structure Displaced (s : World × Tally) : Prop where
  inside : s.1.sCDDIBuffer.Inside 1
  length : s.1.sCDDIBuffer.lLength = 2097152
  writer : s.1.sCDDIBuffer.lWritePtr = s.2.writer

theorem displaced_init (w : World) : Displaced (tallyInit w) where
  inside :=
    { readNonneg := le_rfl
      readLt := show (0 : Int) < 2097152 by decide
      writeNonneg := le_rfl
      writeLt := show (0 : Int) < 2097152 by decide
      aligned := one_dvd _
      divides := one_dvd _ }
  length := rfl
  writer := rfl

variable {s : World × Tally} {w : World}

/-- Another write pointer inside the ring. -/
theorem Displaced.move (h : Displaced s) {t : Tally}
    (hL : w.sCDDIBuffer.lLength = s.1.sCDDIBuffer.lLength)
    (hr : w.sCDDIBuffer.lReadPtr = s.1.sCDDIBuffer.lReadPtr)
    (hw : w.sCDDIBuffer.lWritePtr = t.writer) : Displaced (w, t) := by
  have hlen := h.length
  have h₀ : 0 ≤ t.writer := Int.emod_nonneg _ (by decide)
  have h₁ : t.writer < 2097152 := Int.emod_lt_of_pos _ (by decide)
  refine ⟨⟨?_, ?_, ?_, ?_, one_dvd _, one_dvd _⟩, hL.trans hlen, hw⟩
  · show 0 ≤ w.sCDDIBuffer.lReadPtr
    rw [hr]
    exact h.inside.readNonneg
  · show w.sCDDIBuffer.lReadPtr < w.sCDDIBuffer.lLength
    rw [hr, hL]
    exact h.inside.readLt
  · show 0 ≤ w.sCDDIBuffer.lWritePtr
    rw [hw]
    exact h₀
  · show w.sCDDIBuffer.lWritePtr < w.sCDDIBuffer.lLength
    rw [hw, hL, hlen]
    exact h₁

/-- A block inside the ring is where the tally counts it. -/
theorem Displaced.dma (h : Displaced s) (block : Nat → UInt8)
    (hin : BlockInside s.1 (.dma block)) : Displaced (tallyStep s (.dma block)) := by
  have hL := h.length
  have hlast := hin 2047 (by decide)
  have hne : s.1.sCDDIBuffer.lLength ≠ 0 := by rw [hL]; decide
  have hwriter : (appendBlock block s.1.now s.1.sCDDIBuffer).lWritePtr
      = (Tally.mk (s.2.blocks + 1) s.2.shocks).writer := by
    rw [appendBlock_lWritePtr_of_fits hL h.inside.writeNonneg (by omega), h.writer]
    unfold Tally.writer
    push_cast
    omega
  have hring := cdifAdmaHandler_ring block hne
  show Displaced (cdifAdmaHandler block s.1, ⟨s.2.blocks + 1, s.2.shocks⟩)
  apply h.move
  · rw [hring]
    rfl
  · rw [hring]
    rfl
  · rw [hring]
    exact hwriter

/-- A shock takes the writer back modulo the length, or leaves it. -/
theorem Displaced.shock (h : Displaced s) : Displaced (tallyStep s .shock) := by
  have hL := h.length
  have h₀ := h.inside.writeNonneg
  have h₁ := h.inside.writeLt
  have hwriter := h.writer
  by_cases heff : Effective s.1
  · have htally : s.2.step s.1 .shock = ⟨s.2.blocks, s.2.shocks + 1⟩ := if_pos heff
    -- ten sectors down, or round the start of the ring
    have hback : (cdShockProcess s.1.sCDDIBuffer).lWritePtr
        = (Tally.mk s.2.blocks (s.2.shocks + 1)).writer := by
      unfold Tally.writer at hwriter ⊢
      unfold cdShockProcess
      unfold Effective at heff
      simp only
      rw [if_pos (by omega)]
      push_cast
      split <;> simp only <;> omega
    have hsame : (cdShockProcess s.1.sCDDIBuffer).lLength = s.1.sCDDIBuffer.lLength ∧
        (cdShockProcess s.1.sCDDIBuffer).lReadPtr = s.1.sCDDIBuffer.lReadPtr := by
      unfold cdShockProcess
      simp only
      split
      · split <;> exact ⟨rfl, rfl⟩
      · exact ⟨rfl, rfl⟩
    unfold tallyStep
    rw [htally]
    exact h.move hsame.1 hsame.2 hback
  · have htally : s.2.step s.1 .shock = s.2 := if_neg heff
    have hstay : cdShockProcess s.1.sCDDIBuffer = s.1.sCDDIBuffer := by
      unfold cdShockProcess
      exact if_neg heff
    unfold tallyStep
    rw [htally]
    apply h.move
    · exact congrArg SingleBufferState.lLength hstay
    · exact congrArg SingleBufferState.lReadPtr hstay
    · exact (congrArg SingleBufferState.lWritePtr hstay).trans hwriter

/-- What one step preserves. -/
theorem displaced_step (s : World × Tally) (op : PointerOp)
    (hop : op.Enabled s.1 ∧ WriterInside s.1 ∧ BlockInside s.1 op) (h : Displaced s) :
    Displaced (tallyStep s op) := by
  have hlt := singleBufferDataAvailable_lt h.inside
  cases op with
  | dma block => exact h.dma block hop.2.2
  | shock => exact h.shock
  | advance n =>
    obtain ⟨hn, hle⟩ := hop.1
    have hL := h.length
    have hread := h.inside.readLt
    exact ⟨h.inside.advance hn (by omega) (by omega), h.length, h.writer⟩
  | resetWrite =>
    show Displaced ({ s.1 with sCDDIBuffer := { s.1.sCDDIBuffer with lWritePtr := 0 } }, ⟨0, 0⟩)
    exact h.move rfl rfl rfl
  | resetRead =>
    refine ⟨{ h.inside with readNonneg := le_rfl, readLt := ?_ }, h.length, h.writer⟩
    show 0 < s.1.sCDDIBuffer.lLength
    rw [h.length]
    decide

/-- Where the tally puts the writer decides whether a block stays inside. -/
theorem Displaced.inside_iff (h : Displaced s) (op : PointerOp) :
    WriterInside s.1 ∧ BlockInside s.1 op ↔ NotOffEnd s.2 op := by
  have hL := h.length
  have hwriter := h.writer
  have hin : WriterInside s.1 := ⟨h.inside.writeNonneg, h.inside.writeLt⟩
  cases op with
  | dma block =>
    show WriterInside s.1 ∧ (∀ i : Nat, i < 2048 → _) ↔ s.2.writer ≤ 2095104
    constructor
    · rintro ⟨-, hblock⟩
      have hlast := hblock 2047 (by decide)
      omega
    · intro hle
      refine ⟨hin, fun i hi => ?_⟩
      omega
  | _ => exact ⟨fun _ => trivial, fun _ => ⟨hin, trivial⟩⟩

/-! ### Every run -/

/-- **When block writes stay inside the ring.**  Over a run of interrupts,
shocks, bounded advances and pointer resets, in any order, the write
pointer is always inside the ring and no block is copied past its end,
if and only if no block arrives with the writer displaced, by the shocks
since its last reset, into the last block of the ring. -/
theorem block_writes_inside_iff (w : World) (ops : List PointerOp)
    (hops : Allowed tallyStep (fun s op => op.Enabled s.1) (tallyInit w) ops) :
    (Allowed tallyStep (fun s op => WriterInside s.1 ∧ BlockInside s.1 op) (tallyInit w) ops ∧
      WriterInside (ops.foldl tallyStep (tallyInit w)).1) ↔
    Allowed tallyStep (fun s op => NotOffEnd s.2 op) (tallyInit w) ops := by
  have hiff : Allowed tallyStep
        (fun s op => op.Enabled s.1 ∧ WriterInside s.1 ∧ BlockInside s.1 op) (tallyInit w) ops ↔
      Allowed tallyStep (fun s op => op.Enabled s.1 ∧ NotOffEnd s.2 op) (tallyInit w) ops :=
    allowed_iff displaced_step (fun s op h => and_congr_right fun _ => h.inside_iff op)
      (displaced_init w)
  constructor
  · rintro ⟨hin, -⟩
    exact (allowed_and.mp (hiff.mp (allowed_and.mpr ⟨hops, hin⟩))).2
  · intro hnot
    have hboth := hiff.mpr (allowed_and.mpr ⟨hops, hnot⟩)
    have hend := hboth.inv displaced_step (displaced_init w)
    exact ⟨(allowed_and.mp hboth).2, hend.inside.writeNonneg, hend.inside.writeLt⟩

/-- A shock displaces the writer, and the next block still fits. -/
theorem block_writes_inside_short :
    WriterInside ([.dma fun _ => 1, .dma fun _ => 2, .dma fun _ => 3, .shock,
      .dma fun _ => 4].foldl tallyStep (tallyInit World.boot)).1 :=
  ((block_writes_inside_iff World.boot
    [.dma fun _ => 1, .dma fun _ => 2, .dma fun _ => 3, .shock, .dma fun _ => 4]
    ⟨trivial, trivial, trivial, trivial, trivial, trivial⟩).mpr
    ⟨by decide, by decide, by decide, by decide, by decide +kernel, trivial⟩).2

/-- Blocks in a row, with the writer still below the end. -/
theorem pointerStep_blocks (block : Nat → UInt8) (k : Nat) {w : World}
    (hL : w.sCDDIBuffer.lLength = 2097152) (h₀ : 0 ≤ w.sCDDIBuffer.lWritePtr)
    (hfit : w.sCDDIBuffer.lWritePtr + 2048 * k < 2097152) :
    let u := (List.replicate k (.dma block)).foldl pointerStep w
    u.sCDDIBuffer.lLength = 2097152 ∧
      u.sCDDIBuffer.lWritePtr = w.sCDDIBuffer.lWritePtr + 2048 * k := by
  induction k generalizing w with
  | zero => exact ⟨hL, by simp⟩
  | succ k ih =>
    have hne : w.sCDDIBuffer.lLength ≠ 0 := by rw [hL]; decide
    have hring := cdifAdmaHandler_ring block hne
    have hwriter : (cdifAdmaHandler block w).sCDDIBuffer.lWritePtr
        = w.sCDDIBuffer.lWritePtr + 2048 := by
      rw [hring, appendBlock_lWritePtr_of_fits hL h₀ (by omega)]
      omega
    have hnext := ih (w := cdifAdmaHandler block w) (by rw [hring]; exact hL)
      (by omega) (by push_cast at hfit; omega)
    refine ⟨hnext.1, ?_⟩
    rw [List.replicate_succ, List.foldl_cons]
    show (List.foldl pointerStep (cdifAdmaHandler block w) _).sCDDIBuffer.lWritePtr = _
    rw [hnext.2, hwriter]
    push_cast
    ring

/-- Three blocks and a shock. -/
def shockStart : List PointerOp := [.dma fun _ => 0, .dma fun _ => 0, .dma fun _ => 0, .shock]

/-- The writer is off the block boundaries. -/
theorem shockStart_writer :
    (shockStart.foldl pointerStep World.initial).sCDDIBuffer.lLength = 2097152 ∧
      (shockStart.foldl pointerStep World.initial).sCDDIBuffer.lWritePtr = 264 := by
  constructor
  · rfl
  · decide +kernel

/-- **After a shock a block leaves the ring**: 1023 blocks later the next one
is copied past the end of the array. -/
theorem shock_block_leaves :
    ¬ BlockInside ((shockStart ++ List.replicate 1023 (PointerOp.dma fun _ => 0)).foldl
      pointerStep World.initial) (.dma fun _ => 0) := by
  obtain ⟨hL, hW⟩ := shockStart_writer
  have hrun := pointerStep_blocks (fun _ => 0) 1023 hL (by omega) (by omega)
  rw [List.foldl_append]
  intro hin
  have hlast := hin 2047 (by decide)
  rw [hrun.1, hrun.2, hW] at hlast
  omega

end CdPlayer
