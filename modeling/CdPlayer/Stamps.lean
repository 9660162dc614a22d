/-
CdPlayer/Stamps.lean

How old the samples in the ring are.

Every byte carries the time at which the CDIF delivered it.
`FreshWindow t b` says that all that is buffered in `b` is younger than
`t`.  Blocks keep it, even when they overrun the reader, because what the
window then shows was written by the newest lap; so does a reader that
advances no further than what is buffered.  Zeroing the pointers under a
running stream goes through states whose window is old, but ends in a
window that holds only what came after the first store
(`freshWindow_zeroPointers`).
-/
import CdPlayer.Buffering

namespace CdPlayer

open ByteStore

/-! ### Windows -/

/-- Everything buffered is younger than `t`. -/
def FreshWindow (t : Nat) (b : SingleBufferState) : Prop :=
  ∀ i, 0 ≤ i → i < 4 * singleBufferDataAvailable b → t < (b.windowByte i).tag

/-- Everything below the write pointer is younger than `t`. -/
def FreshPrefix (t : Nat) (b : SingleBufferState) : Prop :=
  ∀ a, 0 ≤ a → a < 4 * b.lWritePtr → t < (b.pSingleBuf a).tag

variable {t : Nat} {b : SingleBufferState} {block : Nat → UInt8} {now : Nat}

theorem freshWindow_of_empty (h : singleBufferDataAvailable b = 0) : FreshWindow t b :=
  fun i h₀ h₁ => by omega

theorem freshWindow_emptied : FreshWindow t b.emptied :=
  freshWindow_of_empty (dataAvailable_emptied b)

/-- Inside the block that was just placed. -/
theorem appendBlock_tag {a : Int} (h₁ : 4 * b.lWritePtr ≤ a) (h₂ : a < 4 * b.lWritePtr + 8192) :
    ((appendBlock block now b).pSingleBuf a).tag = now := by
  have hcell : (appendBlock block now b).pSingleBuf a
      = stamped block now (0 + (a - 4 * b.lWritePtr)) :=
    blit_inside _ _ _ _ _ h₁ (by push_cast; omega)
  rw [hcell]
  rfl

theorem appendBlock_old {a : Int} (h : a < 4 * b.lWritePtr ∨ 4 * b.lWritePtr + 8192 ≤ a) :
    (appendBlock block now b).pSingleBuf a = b.pSingleBuf a :=
  blit_outside _ _ _ _ _ (by push_cast; omega)

/-- The data available after a block, whether it fits or overruns. -/
theorem RingOk.dataAvailable_appendBlock_cases (h : RingOk b) :
    singleBufferDataAvailable (CdPlayer.appendBlock block now b)
      = (singleBufferDataAvailable b + 2048) % 2097152 := by
  have h' := h.appendBlock block now
  rw [singleBufferDataAvailable_eq h'.inside, singleBufferDataAvailable_eq h.inside,
    h.appendBlock_lWritePtr, appendBlock_lLength, appendBlock_lReadPtr, h.length]
  omega

/-- **A block keeps the window young**, even one that overruns the reader. -/
theorem FreshWindow.appendBlock (h : FreshWindow t b) (hring : RingOk b) (hnow : t < now) :
    FreshWindow t (CdPlayer.appendBlock block now b) := by
  have hL := hring.length
  have hr := hring.inside.readNonneg
  have hrL := hring.inside.readLt
  have hw := hring.inside.writeNonneg
  have hwL := hring.inside.writeLt
  have havail := hring.dataAvailable_lt
  have hpos := hring.dataAvailable_nonneg
  have hfits := hring.block_fits
  have hlap : b.lWritePtr = b.lReadPtr + singleBufferDataAvailable b ∨
      b.lWritePtr = b.lReadPtr + singleBufferDataAvailable b - 2097152 := by
    unfold singleBufferDataAvailable
    rw [hL]
    split <;> omega
  intro i h₀ h₁
  rw [hring.dataAvailable_appendBlock_cases] at h₁
  by_cases hold : i < 4 * singleBufferDataAvailable b
  · have hbyte := h i h₀ hold
    unfold SingleBufferState.windowByte at hbyte ⊢
    rw [appendBlock_lLength, appendBlock_lReadPtr]
    by_cases hnew : 4 * b.lWritePtr ≤ (4 * b.lReadPtr + i) % (4 * b.lLength) ∧
        (4 * b.lReadPtr + i) % (4 * b.lLength) < 4 * b.lWritePtr + 8192
    · rw [appendBlock_tag hnew.1 hnew.2]
      exact hnow
    · rw [appendBlock_old (by omega)]
      exact hbyte
  · -- beyond the old window, so in the new block
    have hcell : (4 * b.lReadPtr + i) % (4 * 2097152)
        = 4 * b.lWritePtr + (i - 4 * singleBufferDataAvailable b) := by
      rcases hlap with hlap | hlap <;> omega
    unfold SingleBufferState.windowByte
    rw [appendBlock_lLength, appendBlock_lReadPtr, hL, hcell,
      appendBlock_tag (by omega) (by omega)]
    exact hnow

theorem FreshPrefix.appendBlock (h : FreshPrefix t b) (hring : RingOk b) (hnow : t < now) :
    FreshPrefix t (CdPlayer.appendBlock block now b) := by
  have hw := hring.inside.writeNonneg
  intro a h₀ h₁
  rw [hring.appendBlock_lWritePtr] at h₁
  by_cases hnew : 4 * b.lWritePtr ≤ a ∧ a < 4 * b.lWritePtr + 8192
  · rw [appendBlock_tag hnew.1 hnew.2]
    exact hnow
  · rw [appendBlock_old (by omega)]
    exact h a h₀ (by omega)

/-- The window seen by a reader that has moved on. -/
theorem windowByte_advance (hring : RingOk b) {n : Int} (hn : 0 ≤ n) (hle : n ≤ 2097152)
    (i : Int) : (singleBufferUpdateReadPointer b n).windowByte i = b.windowByte (i + 4 * n) := by
  unfold SingleBufferState.windowByte
  rw [hring.advance_lReadPtr hn hle]
  change b.pSingleBuf ((4 * ((b.lReadPtr + n) % 2097152) + i) % (4 * b.lLength)) = _
  rw [hring.length]
  have hsame : (4 * ((b.lReadPtr + n) % 2097152) + i) % (4 * 2097152)
      = (4 * b.lReadPtr + (i + 4 * n)) % (4 * 2097152) := by omega
  rw [hsame]

/-- What a reader that stays within the window leaves behind it. -/
theorem RingOk.dataAvailable_advance (hring : RingOk b) {n : Int} (hn : 0 ≤ n)
    (hle : n ≤ singleBufferDataAvailable b) :
    singleBufferDataAvailable (singleBufferUpdateReadPointer b n)
      = singleBufferDataAvailable b - n := by
  have hL := hring.length
  have hlt := hring.inside.readLt
  have hroom := hring.dataAvailable_lt
  rw [(hring.at.advance hn (by omega) (by omega)).dataAvailable]
  omega

/-- A reader that stays within what is buffered. -/
theorem FreshWindow.advance (h : FreshWindow t b) (hring : RingOk b) {n : Int} (hn : 0 ≤ n)
    (hle : n ≤ singleBufferDataAvailable b) :
    FreshWindow t (singleBufferUpdateReadPointer b n) := by
  have hlt := hring.dataAvailable_lt
  intro i h₀ h₁
  rw [hring.dataAvailable_advance hn hle] at h₁
  rw [windowByte_advance hring hn (by omega)]
  exact h (i + 4 * n) (by omega) (by omega)

/-- A reader at the start of the ring sees what lies below the writer. -/
theorem FreshPrefix.window (h : FreshPrefix t b) (hring : RingOk b) :
    FreshWindow t { b with lReadPtr := 0 } := by
  have hw := hring.inside.writeNonneg
  have hwL := hring.inside.writeLt
  have havail : singleBufferDataAvailable { b with lReadPtr := 0 } = b.lWritePtr := by
    unfold singleBufferDataAvailable
    simp only
    rw [if_pos (by omega)]
    omega
  intro i h₀ h₁
  rw [havail] at h₁
  unfold SingleBufferState.windowByte
  simp only
  rw [Int.emod_eq_of_lt (by omega) (by omega)]
  exact h _ (by omega) (by omega)

/-! ### Through time -/

variable {env : Env} {w w' : World}

/-- A window that stays young while the stream runs. -/
structure FreshRing (t : Nat) (w : World) : Prop where
  ring : RingOk w.sCDDIBuffer
  window : FreshWindow t w.sCDDIBuffer
  clock : w.cdifEnable = true → t < w.now

theorem FreshRing.handle (w : World) (e : Event) (h : FreshRing t w) :
    FreshRing t (CdPlayer.handle w e) := by
  have hout := outside_handle w e
  refine ⟨ringOk_handle w e h.ring, ?_, fun hon => lt_of_lt_of_le (h.clock (hout.cdif hon))
    hout.now⟩
  rcases handle_ring_cases h.ring e with ⟨heq, -⟩ | ⟨block, -, hon, heq, -⟩
  · rw [heq]; exact h.window
  · rw [heq]; exact h.window.appendBlock h.ring (h.clock hon)

theorem FreshRing.tick (w : World) (h : FreshRing t w) : FreshRing t w.tick :=
  ⟨h.ring, h.window, fun hon => lt_trans (h.clock hon) (Nat.lt_succ_self _)⟩

theorem FreshRing.yield (h : FreshRing t w) : FreshRing t (CdPlayer.yield env w) :=
  yield_inv (P := FreshRing t) FreshRing.handle FreshRing.tick w h

/-- Fields that do not matter here. -/
theorem FreshRing.congr (h : FreshRing t w) (hring : w'.sCDDIBuffer = w.sCDDIBuffer)
    (hcdif : w'.cdifEnable = true → w.cdifEnable = true) (hnow : w.now ≤ w'.now) :
    FreshRing t w' :=
  ⟨by rw [hring]; exact h.ring, by rw [hring]; exact h.window,
    fun hon => lt_of_lt_of_le (h.clock (hcdif hon)) hnow⟩

theorem FreshRing.advance (h : FreshRing t w) {n : Int} (hn : 0 ≤ n)
    (hle : n ≤ singleBufferDataAvailable w.sCDDIBuffer) :
    FreshRing t (updateReadPointer n w) :=
  ⟨h.ring.advance hn (by have := h.ring.dataAvailable_lt; omega),
    h.window.advance h.ring hn hle, h.clock⟩

/-- The two stores under a running stream. -/
theorem freshRing_zeroPointers (hring : RingOk w.sCDDIBuffer)
    (hclock : w.cdifEnable = true → t < w.now) : FreshRing t (zeroPointers env w) := by
  have h₁ := outside_yield env w
  have hring₁ := ringOk_zeroWritePtr (ringOk_yield env hring)
  -- from the first store on, what lies below the writer is new
  have hpre : RingOk (yield env (zeroWritePtr (yield env w))).sCDDIBuffer ∧
      FreshPrefix t (yield env (zeroWritePtr (yield env w))).sCDDIBuffer ∧
      ((yield env (zeroWritePtr (yield env w))).cdifEnable = true →
        t < (yield env (zeroWritePtr (yield env w))).now) := by
    refine yield_inv (P := fun u => RingOk u.sCDDIBuffer ∧ FreshPrefix t u.sCDDIBuffer ∧
      (u.cdifEnable = true → t < u.now)) (fun u e hu => ?_) (fun u hu =>
        ⟨hu.1, hu.2.1, fun hon => lt_trans (hu.2.2 hon) (Nat.lt_succ_self _)⟩) _
      ⟨hring₁, fun a h₀ h₁ => ?_, fun hon => lt_of_lt_of_le (hclock (h₁.cdif hon)) h₁.now⟩
    · have hout := outside_handle u e
      refine ⟨ringOk_handle u e hu.1, ?_, fun hon => lt_of_lt_of_le (hu.2.2 (hout.cdif hon))
        hout.now⟩
      rcases handle_ring_cases hu.1 e with ⟨heq, -⟩ | ⟨block, -, hon, heq, -⟩
      · rw [heq]; exact hu.2.1
      · rw [heq]; exact hu.2.1.appendBlock hu.1 (hu.2.2 hon)
    · change a < 4 * (0 : Int) at h₁
      omega
  exact ⟨ringOk_zeroReadPtr hpre.1, hpre.2.1.window hpre.1, hpre.2.2⟩

end CdPlayer
