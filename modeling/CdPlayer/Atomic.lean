/-
CdPlayer/Atomic.lean

The reader between its stores.

The other modules take `CD_CopyReadData` and `SingleBufferUpdateReadPointer`
as one step each.  The CDIF interrupt does not: it can come between any two
accesses to the ring.  Here both functions are run statement by statement:
the copy loads `lWritePtr` for each of its comparisons and moves one short at
a time, and the advance stores the sum, which may lie beyond the end of the
ring, before it corrects it.  Anything may happen in between, as long as the
disc stays mounted.

`settled` reads off the state that the call under way is going to leave.  A
statement does not change it, and an event does to it what it does to the
state itself.  For the sum that is not corrected yet this needs that at most
one block comes before the correction: an uncorrected pointer shows the
interrupt the space it should, unless the writer has reached the end of the
ring, and then a full buffer is missed (`two_blocks_missed`).

Main result: `statements_are_atomic`.
-/
import CdPlayer.CopyMoves
import CdPlayer.Stamps
import CdPlayer.Lib.Simulation

namespace CdPlayer

open ByteStore Run

/-! ### The two functions, statement by statement -/

/-- The second statement of `SingleBufferUpdateReadPointer`. -/
def foldBack (length readPtr : Int) : Int :=
  if readPtr > length then readPtr - length else if readPtr = length then 0 else readPtr

/-- The third. -/
def reflectBack (length readPtr : Int) : Int :=
  if readPtr ≥ length then length - readPtr else readPtr

theorem advanceReadPtr_statements (length readPtr n : Int) :
    advanceReadPtr length readPtr n = reflectBack length (foldBack length (s32 (readPtr + n))) :=
  rfl

/-- Where the reader is. -/
inductive ReaderAt
  /-- Between two calls. -/
  | between
  /-- `CD_CopyReadData` at `if (lWritePtr > lReadPtr)`. -/
  | straight (pBuff : Int) (copySize requestSampleSize : Nat)
  /-- At `else if (lWritePtr < lReadPtr)`. -/
  | reverse (pBuff : Int) (copySize requestSampleSize : Nat)
  /-- In its loops, with these shorts still to be moved. -/
  | copying (pBuff : Int) (copySize requestSampleSize : Nat) (moves : List (Int × Int))
  /-- `SingleBufferUpdateReadPointer` has stored the sum. -/
  | summed
  | folded

structure Reader where
  world : World
  place : ReaderAt
  /-- Bookkeeping: the blocks that have come since the sum was stored. -/
  blocks : Nat

inductive ReaderOp
  | outside (e : Event)
  | copy (pBuff : Int) (copySize requestSampleSize : Nat)
  | advance (n : Int)
  /-- The next statement of the call under way. -/
  | next

def Event.isBlock : Event → Bool
  | .dma _ => true
  | .msg _ | .mount => false

def setReadPtr (p : Int) (w : World) : World :=
  { w with sCDDIBuffer := { w.sCDDIBuffer with lReadPtr := p } }

/-- `if (requestSampleSize != 0) CD_SetCHOffet(copySize)`. -/
def finishCopy (copySize requestSampleSize : Nat) (w : World) : World :=
  if requestSampleSize ≠ 0 then cdSetCHOffet copySize w else w

/-- The next statement. -/
def readerStatement (s : Reader) : Reader :=
  let b := s.world.sCDDIBuffer
  match s.place with
  | .between => s
  | .straight pBuff copySize req =>
    if b.lWritePtr > b.lReadPtr then
      { s with place := .copying pBuff copySize req (loopMoves 0 (b.lReadPtr * 2) copySize) }
    else { s with place := .reverse pBuff copySize req }
  | .reverse pBuff copySize req =>
    if b.lWritePtr < b.lReadPtr then
      let remainSize := u32 ((b.lLength - b.lReadPtr) * 2)
      { s with
        place := .copying pBuff copySize req
          (if copySize > remainSize then
            loopMoves 0 (b.lReadPtr * 2) remainSize
              ++ loopMoves remainSize 0 (copySize - remainSize)
          else loopMoves 0 (b.lReadPtr * 2) copySize) }
    else { s with place := .copying pBuff copySize req [] }
  | .copying _ copySize req [] =>
    { s with world := finishCopy copySize req s.world, place := .between }
  | .copying pBuff copySize req (x :: moves) =>
    { s with
      world := { s.world with
        cdChunkBuf := putShort s.world.cdChunkBuf (pBuff + 2 * x.1) (shortAt b.pSingleBuf x.2) }
      place := .copying pBuff copySize req moves }
  | .summed =>
    { s with world := setReadPtr (foldBack b.lLength b.lReadPtr) s.world, place := .folded }
  | .folded =>
    { s with world := setReadPtr (reflectBack b.lLength b.lReadPtr) s.world, place := .between }

def readerStep (s : Reader) : ReaderOp → Reader
  | .outside e =>
    { s with
      world := handle s.world e
      blocks := if e.isBlock then s.blocks + 1 else s.blocks }
  | .copy pBuff copySize req => { s with place := .straight pBuff copySize req }
  | .advance n =>
    { world := setReadPtr (s32 (s.world.sCDDIBuffer.lReadPtr + n)) s.world
      place := .summed
      blocks := 0 }
  | .next => readerStatement s

/-- The calls as the other modules have them. -/
def atomicStep (w : World) : ReaderOp → World
  | .outside e => handle w e
  | .copy pBuff copySize req => cdCopyReadData pBuff copySize req w
  | .advance n => { w with sCDDIBuffer := singleBufferUpdateReadPointer w.sCDDIBuffer n }
  | .next => w

/-- The disc stays mounted, at most one block comes before the sum is
corrected, and the reader asks for no more than is buffered. -/
def Timely (s : Reader) : ReaderOp → Prop
  | .outside e => (handle s.world e).datacdEnable = true ∧
      (s.place = .summed → e.isBlock = true → s.blocks = 0)
  | .copy _ copySize _ => s.place = .between ∧
      (copySize : Int) ≤ 2 * singleBufferDataAvailable s.world.sCDDIBuffer
  | .advance n => s.place = .between ∧ 0 ≤ n ∧
      n ≤ singleBufferDataAvailable s.world.sCDDIBuffer
  | .next => True

/-- The state that the call under way is going to leave. -/
def Reader.settled : Reader → World
  | ⟨w, .between, _⟩ => w
  | ⟨w, .straight pBuff copySize req, _⟩ | ⟨w, .reverse pBuff copySize req, _⟩ =>
    cdCopyReadData pBuff copySize req w
  | ⟨w, .copying pBuff copySize req moves, _⟩ =>
    finishCopy copySize req
      { w with cdChunkBuf := runMoves w.sCDDIBuffer.pSingleBuf pBuff moves w.cdChunkBuf }
  | ⟨w, .summed, _⟩ =>
    let b := w.sCDDIBuffer
    setReadPtr (reflectBack b.lLength (foldBack b.lLength b.lReadPtr)) w
  | ⟨w, .folded, _⟩ =>
    setReadPtr (reflectBack w.sCDDIBuffer.lLength w.sCDDIBuffer.lReadPtr) w

/-! ### Events look neither at the chunk nor, but for the space, at the reader -/

def setChunk (chunk : Mem) (offset : Nat) (w : World) : World :=
  { w with cdChunkBuf := chunk, chOffset := offset }

theorem cdifAdmaHandler_setChunk (chunk : Mem) (offset : Nat) (block : Nat → UInt8) (w : World) :
    cdifAdmaHandler block (setChunk chunk offset w)
      = setChunk chunk offset (cdifAdmaHandler block w) := by
  by_cases hL : w.sCDDIBuffer.lLength = 0
  · rw [cdifAdmaHandler_unset block hL,
      cdifAdmaHandler_unset block (w := setChunk chunk offset w) hL]
    rfl
  · rw [cdifAdmaHandler_eq block hL, cdifAdmaHandler_eq block (w := setChunk chunk offset w) hL,
      apply_ite (setChunk chunk offset)]
    rfl

theorem nlRecvMsg_setChunk (chunk : Mem) (offset : Nat) (m : NlMsg) (w : World) :
    nlRecvMsg m (setChunk chunk offset w) = setChunk chunk offset (nlRecvMsg m w) := by
  by_cases hU : m.nlmsgData 0 = charU
  · rw [nlRecvMsg_eject _ hU, nlRecvMsg_eject _ hU]
    rfl
  · by_cases hS : m.nlmsgData 0 = charS
    · rw [nlRecvMsg_seek _ hS, nlRecvMsg_seek _ hS]
      rfl
    · rw [nlRecvMsg_toc _ hU hS, nlRecvMsg_toc _ hU hS]
      rfl

theorem handle_setChunk (chunk : Mem) (offset : Nat) (w : World) (e : Event) :
    handle (setChunk chunk offset w) e = setChunk chunk offset (handle w e) := by
  cases e with
  | dma block =>
    unfold handle occur
    simp only
    rw [cdifAdmaHandler_setChunk, apply_ite World.tick, apply_ite World.tick,
      apply_ite (setChunk chunk offset)]
    rfl
  | msg m =>
    unfold handle occur
    simp only
    rw [nlRecvMsg_setChunk]
    split <;> rfl
  | mount =>
    unfold handle occur tcrReadTochdr
    simp only
    rw [apply_ite World.tick, apply_ite World.tick, apply_ite (setChunk chunk offset)]
    rfl

/-- With this read pointer the ring shows the interrupt the same space. -/
def SameSpace (p : Int) (b : SingleBufferState) : Prop :=
  singleBufferSpaceAvailable { b with lReadPtr := p } = singleBufferSpaceAvailable b

theorem cdifAdmaHandler_setReadPtr {p : Int} {block : Nat → UInt8} {w : World}
    (hL : w.sCDDIBuffer.lLength ≠ 0) (hp : SameSpace p (appendBlock block w.now w.sCDDIBuffer)) :
    cdifAdmaHandler block (setReadPtr p w) = setReadPtr p (cdifAdmaHandler block w) := by
  have hspace : singleBufferSpaceAvailable
      (appendBlock block (setReadPtr p w).now (setReadPtr p w).sCDDIBuffer)
      = singleBufferSpaceAvailable (appendBlock block w.now w.sCDDIBuffer) := hp
  rw [cdifAdmaHandler_eq block hL, cdifAdmaHandler_eq block (w := setReadPtr p w) hL, hspace,
    apply_ite (setReadPtr p)]
  rfl

theorem handle_setReadPtr {p : Int} {w : World} (hL : w.sCDDIBuffer.lLength ≠ 0) (e : Event)
    (hp : e.isBlock = true → w.cdifEnable = true → SameSpace p w.sCDDIBuffer ∧
      ∀ block, SameSpace p (appendBlock block w.now w.sCDDIBuffer)) :
    handle (setReadPtr p w) e = setReadPtr p (handle w e) := by
  cases e with
  | dma block =>
    by_cases hon : w.cdifEnable = true
    · obtain ⟨hbefore, hafter⟩ := hp rfl hon
      have hnote : singleBufferSpaceAvailable (setReadPtr p w).sCDDIBuffer
          = singleBufferSpaceAvailable w.sCDDIBuffer := hbefore
      unfold handle occur
      simp only
      rw [if_pos hon, if_pos (show (setReadPtr p w).cdifEnable = true from hon),
        cdifAdmaHandler_setReadPtr hL (hafter block), hnote]
      rfl
    · unfold handle occur
      simp only
      rw [if_neg hon, if_neg (show ¬ (setReadPtr p w).cdifEnable = true from hon)]
      rfl
  | msg m =>
    have hmsg : nlRecvMsg m (setReadPtr p w) = setReadPtr p (nlRecvMsg m w) := by
      by_cases hU : m.nlmsgData 0 = charU
      · rw [nlRecvMsg_eject _ hU, nlRecvMsg_eject _ hU]
        rfl
      · by_cases hS : m.nlmsgData 0 = charS
        · rw [nlRecvMsg_seek _ hS, nlRecvMsg_seek _ hS]
          rfl
        · rw [nlRecvMsg_toc _ hU hS, nlRecvMsg_toc _ hU hS]
          rfl
    unfold handle occur
    simp only
    rw [hmsg]
    split <;> rfl
  | mount =>
    unfold handle occur tcrReadTochdr
    simp only
    rw [apply_ite World.tick, apply_ite World.tick, apply_ite (setReadPtr p)]
    rfl

/-! ### What is buffered stays -/

/-- Short `i` of the ring is buffered. -/
def Buffered (b : SingleBufferState) (i : Int) : Prop :=
  ∃ k : Nat, (k : Int) < 2 * singleBufferDataAvailable b ∧
    i = (2 * b.lReadPtr + k) % (2 * b.lLength)

/-- In data mode the ring is in order, and one more block fits while the CDIF
is on. -/
structure Roomy (w : World) : Prop where
  ring : RingOk w.sCDDIBuffer
  data : w.datacdEnable = true
  room : w.cdifEnable = true → 2048 < singleBufferSpaceAvailable w.sCDDIBuffer

variable {w : World} {s : Reader}

theorem Roomy.handle (h : Roomy w) {e : Event} (hdata : (handle w e).datacdEnable = true) :
    Roomy (handle w e) where
  ring := ringOk_handle w e h.ring
  data := hdata
  room := by
    rcases handle_ring_cases h.ring e with ⟨hring, hcdif, -⟩ | ⟨block, -, -, -, -, hcase⟩
    · rw [hring, hcdif]
      exact h.room
    · rcases hcase with ⟨-, -, hroom⟩ | ⟨hoff, -⟩
      · exact fun _ => hroom h.data
      · exact fun hon => absurd hon (by rw [hoff]; decide)

theorem Roomy.advance (h : Roomy w) {n : Int} (hn : 0 ≤ n)
    (hle : n ≤ singleBufferDataAvailable w.sCDDIBuffer) : Roomy (atomicStep w (.advance n)) := by
  have hlt := h.ring.dataAvailable_lt
  have hring := h.ring.advance hn (by omega)
  refine ⟨hring, h.data, fun hon => ?_⟩
  have hroom := h.room hon
  rw [h.ring.spaceAvailable] at hroom
  show 2048 < singleBufferSpaceAvailable (singleBufferUpdateReadPointer w.sCDDIBuffer n)
  rw [hring.spaceAvailable, h.ring.dataAvailable_advance hn hle]
  omega

theorem Roomy.setChunk (h : Roomy w) (chunk : Mem) (offset : Nat) :
    Roomy (setChunk chunk offset w) := ⟨h.ring, h.data, h.room⟩

/-- No event takes back what is buffered. -/
theorem Roomy.handle_available (h : Roomy w) (e : Event) :
    singleBufferDataAvailable w.sCDDIBuffer
      ≤ singleBufferDataAvailable (CdPlayer.handle w e).sCDDIBuffer := by
  rcases handle_ring_cases h.ring e with ⟨hring, -⟩ | ⟨block, -, hon, hring, -⟩
  · rw [hring]
  · have hroom := h.room hon
    rw [h.ring.spaceAvailable] at hroom
    rw [hring, h.ring.dataAvailable_appendBlock block w.now (by omega)]
    omega

/-- A block is placed where nothing is buffered. -/
theorem Roomy.handle_buffered (h : Roomy w) (e : Event) {i : Int}
    (hi : Buffered w.sCDDIBuffer i) :
    Buffered (CdPlayer.handle w e).sCDDIBuffer i ∧
      shortAt (CdPlayer.handle w e).sCDDIBuffer.pSingleBuf i
        = shortAt w.sCDDIBuffer.pSingleBuf i := by
  rcases handle_ring_cases h.ring e with ⟨hring, -⟩ | ⟨block, -, hon, hring, -⟩
  · rw [hring]
    exact ⟨hi, rfl⟩
  · have hmore := h.handle_available e
    have hroom := h.room hon
    rw [h.ring.spaceAvailable] at hroom
    obtain ⟨k, hk, hik⟩ := hi
    rw [hring] at hmore ⊢
    refine ⟨⟨k, by omega, hik⟩, ?_⟩
    · -- the block lies beyond the writer
      have hL := h.ring.length
      have hr := h.ring.inside.readNonneg
      have hrL := h.ring.inside.readLt
      have hwr := h.ring.inside.writeNonneg
      have hwL := h.ring.inside.writeLt
      have hfar : 2 * i + 1 < 4 * w.sCDDIBuffer.lWritePtr ∨
          4 * w.sCDDIBuffer.lWritePtr + 8192 ≤ 2 * i := by
        unfold singleBufferDataAvailable at hk hroom
        rw [hL] at hik hk hrL hwL hroom
        by_cases hup : w.sCDDIBuffer.lWritePtr ≥ w.sCDDIBuffer.lReadPtr
        · rw [if_pos hup] at hk hroom
          omega
        · rw [if_neg hup] at hk hroom
          omega
      unfold shortAt
      rw [appendBlock_old (by omega), appendBlock_old (by omega)]

/-- Moves of buffered shorts come to the same later. -/
theorem runMoves_congr {m m' chunk : Mem} {p : Int} {moves : List (Int × Int)}
    (h : ∀ x ∈ moves, shortAt m' x.2 = shortAt m x.2) :
    runMoves m' p moves chunk = runMoves m p moves chunk := by
  unfold runMoves
  induction moves generalizing chunk with
  | nil => rfl
  | cons x moves ih =>
    rw [List.foldl_cons, List.foldl_cons, h x List.mem_cons_self]
    exact ih fun y hy => h y (List.mem_cons_of_mem _ hy)

theorem RingOk.inside_one {b : SingleBufferState} (h : RingOk b) : b.Inside 1 :=
  { h.inside with aligned := one_dvd _, divides := one_dvd _ }

/-- The moves of a copy that asks for no more than is buffered. -/
theorem copyMoves_buffered (h : Roomy w) {copySize : Nat}
    (hsize : (copySize : Int) ≤ 2 * singleBufferDataAvailable w.sCDDIBuffer) :
    ∀ x ∈ copyMoves copySize w.sCDDIBuffer, Buffered w.sCDDIBuffer x.2 := by
  intro x hx
  rw [copyMoves_eq h.ring.inside_one (by rw [h.ring.length]; decide) hsize] at hx
  obtain ⟨i, hi, rfl⟩ := List.mem_map.mp hx
  have hlt := List.mem_range.mp hi
  exact ⟨i, by omega, rfl⟩

/-- A copy that has not begun asks for the same shorts later. -/
theorem copyMoves_later (h : Roomy w) {e : Event}
    (hdata : (handle w e).datacdEnable = true) {copySize : Nat}
    (hsize : (copySize : Int) ≤ 2 * singleBufferDataAvailable w.sCDDIBuffer) :
    (copySize : Int) ≤ 2 * singleBufferDataAvailable (handle w e).sCDDIBuffer ∧
      copyMoves copySize (handle w e).sCDDIBuffer = copyMoves copySize w.sCDDIBuffer := by
  have hmore := h.handle_available e
  have hnext := (h.handle hdata).ring
  have hsize' : (copySize : Int) ≤ 2 * singleBufferDataAvailable (handle w e).sCDDIBuffer := by
    omega
  refine ⟨hsize', ?_⟩
  have hframe := outside_handle w e
  rw [copyMoves_eq hnext.inside_one (by rw [hnext.length]; decide) hsize',
    copyMoves_eq h.ring.inside_one (by rw [h.ring.length]; decide) hsize, hframe.readPtr,
    hframe.length]

theorem cdCopyReadData_eq (pBuff : Int) (copySize req : Nat) (w : World) :
    cdCopyReadData pBuff copySize req w = finishCopy copySize req
      { w with
        cdChunkBuf := runMoves w.sCDDIBuffer.pSingleBuf pBuff (copyMoves copySize w.sCDDIBuffer)
          w.cdChunkBuf } := by
  rw [← (cdCopyReadData_moves pBuff copySize req w).1]
  unfold cdCopyReadData finishCopy
  simp only
  split <;> rfl

/-! ### One statement, one event -/

/-- What holds where the reader is. -/
def Reader.Here : Reader → Prop
  | ⟨_, .between, _⟩ => True
  | ⟨w, .straight _ copySize _, _⟩ =>
    (copySize : Int) ≤ 2 * singleBufferDataAvailable w.sCDDIBuffer
  | ⟨w, .reverse _ copySize _, _⟩ =>
    (copySize : Int) ≤ 2 * singleBufferDataAvailable w.sCDDIBuffer ∧
      (w.sCDDIBuffer.lWritePtr < w.sCDDIBuffer.lReadPtr ∨ copySize = 0)
  | ⟨w, .copying _ _ _ moves, _⟩ => ∀ x ∈ moves, Buffered w.sCDDIBuffer x.2
  | ⟨w, .summed, blocks⟩ =>
    let b := w.sCDDIBuffer
    0 ≤ b.lReadPtr ∧ (b.lReadPtr < b.lLength ∨
      (b.lLength ≤ b.lReadPtr ∧ b.lReadPtr - b.lLength ≤ b.lWritePtr) ∧
        (w.cdifEnable = true → blocks = 0 → b.lWritePtr + 2048 < b.lLength))
  | ⟨w, .folded, _⟩ => w.sCDDIBuffer.lReadPtr < w.sCDDIBuffer.lLength

/-- The state that the call under way leaves is in order. -/
structure Orderly (s : Reader) : Prop where
  roomy : Roomy s.settled
  here : s.Here

/-- The end of a copy writes the chunk and one word. -/
theorem finishCopy_eq (copySize req : Nat) (chunk : Mem) (w : World) :
    finishCopy copySize req { w with cdChunkBuf := chunk }
      = setChunk chunk (if req ≠ 0 then u32 (copySize * 2) else w.chOffset) w := by
  unfold finishCopy cdSetCHOffet setChunk
  split <;> rfl

/-- Unless the sum stands in the ring, only the chunk is still to be written. -/
theorem Reader.settled_eq (hplace : s.place ≠ .summed) (here : s.Here) :
    ∃ chunk offset, s.settled = setChunk chunk offset s.world := by
  obtain ⟨w, place, blocks⟩ := s
  cases place with
  | between => exact ⟨w.cdChunkBuf, w.chOffset, rfl⟩
  | straight pBuff copySize req =>
    exact ⟨_, _, (cdCopyReadData_eq pBuff copySize req w).trans (finishCopy_eq _ _ _ w)⟩
  | reverse pBuff copySize req =>
    exact ⟨_, _, (cdCopyReadData_eq pBuff copySize req w).trans (finishCopy_eq _ _ _ w)⟩
  | copying pBuff copySize req moves => exact ⟨_, _, finishCopy_eq _ _ _ w⟩
  | summed => exact absurd rfl hplace
  | folded =>
    refine ⟨w.cdChunkBuf, w.chOffset, ?_⟩
    have hin : ¬ w.sCDDIBuffer.lReadPtr ≥ w.sCDDIBuffer.lLength := not_le.mpr here
    show setReadPtr (reflectBack _ _) w = _
    unfold reflectBack
    rw [if_neg hin]
    rfl

theorem Orderly.world (h : Orderly s) (hplace : s.place ≠ .summed) : Roomy s.world := by
  obtain ⟨chunk, offset, heq⟩ := Reader.settled_eq hplace h.here
  have hroomy := h.roomy
  rw [heq] at hroomy
  exact ⟨hroomy.ring, hroomy.data, hroomy.room⟩

/-- **A statement leaves the state that the call leaves.** -/
theorem Orderly.statement (h : Orderly s) : (readerStatement s).settled = s.settled := by
  have here := h.here
  obtain ⟨w, place, blocks⟩ := s
  cases place with
  | between => rfl
  | straight pBuff copySize req =>
    show Reader.settled (if _ then _ else _) = cdCopyReadData pBuff copySize req w
    split
    · next hup =>
      rw [cdCopyReadData_eq]
      unfold copyMoves
      rw [if_pos hup]
      rfl
    · rfl
  | reverse pBuff copySize req =>
    show Reader.settled (if _ then _ else _) = cdCopyReadData pBuff copySize req w
    rw [cdCopyReadData_eq]
    split
    · next hdown =>
      unfold copyMoves
      rw [if_neg (not_lt.mpr hdown.le), if_pos hdown]
      rfl
    · next hdown =>
      obtain rfl : copySize = 0 := here.2.resolve_left hdown
      have hnothing : copyMoves 0 w.sCDDIBuffer = [] := by
        have hring := (h.world (by simp)).ring
        rw [copyMoves_eq hring.inside_one (by rw [hring.length]; decide) here.1]
        rfl
      rw [hnothing]
      rfl
  | copying pBuff copySize req moves =>
    cases moves with
    | nil => rfl
    | cons x moves => rfl
  | summed => rfl
  | folded => rfl

/-- Where a statement leads. -/
theorem Orderly.next (h : Orderly s) : Orderly (readerStatement s) := by
  refine ⟨by rw [h.statement]; exact h.roomy, ?_⟩
  have here := h.here
  have hstatement := h.statement
  obtain ⟨w, place, blocks⟩ := s
  cases place with
  | between => trivial
  | straight pBuff copySize req =>
    have hw := h.world (by simp)
    show Reader.Here (if _ then _ else _)
    split
    · next hup =>
      intro x hx
      refine copyMoves_buffered hw here x ?_
      unfold copyMoves
      rw [if_pos hup]
      exact hx
    · next hup =>
      refine ⟨here, ?_⟩
      rcases (not_lt.mp hup).lt_or_eq with hdown | heq
      · exact .inl hdown
      · -- nothing is buffered
        have hsize : (copySize : Int) ≤ 2 * singleBufferDataAvailable w.sCDDIBuffer := here
        unfold singleBufferDataAvailable at hsize
        rw [if_pos heq.ge] at hsize
        simp only at heq
        exact .inr (by omega)
  | reverse pBuff copySize req =>
    have hw := h.world (by simp)
    show Reader.Here (if _ then _ else _)
    split
    · next hdown =>
      intro x hx
      refine copyMoves_buffered hw here.1 x ?_
      unfold copyMoves
      rw [if_neg (not_lt.mpr hdown.le), if_pos hdown]
      exact hx
    · exact fun x hx => absurd hx List.not_mem_nil
  | copying pBuff copySize req moves =>
    cases moves with
    | nil => trivial
    | cons x moves => exact fun y hy => here y (List.mem_cons_of_mem _ hy)
  | summed =>
    have hwrite : w.sCDDIBuffer.lWritePtr < w.sCDDIBuffer.lLength := h.roomy.ring.inside.writeLt
    obtain ⟨h₀, hsum⟩ := here
    have hfar : w.sCDDIBuffer.lReadPtr < 2 * w.sCDDIBuffer.lLength := by
      rcases hsum with hin | ⟨⟨-, hin⟩, -⟩
      · omega
      · omega
    show foldBack w.sCDDIBuffer.lLength w.sCDDIBuffer.lReadPtr < w.sCDDIBuffer.lLength
    unfold foldBack
    split
    · omega
    · split
      · omega
      · omega
  | folded => trivial

/-- The uncorrected sum shows the space that the corrected one shows, until the
writer comes to the end of the ring. -/
theorem sameSpace_sum {b : SingleBufferState} {p : Int} (hlast : p - b.lLength ≤ b.lWritePtr)
    (hp : b.lLength ≤ p) (hwrite : b.lWritePtr < b.lLength) (hread : b.lReadPtr = p - b.lLength) :
    SameSpace p b := by
  unfold SameSpace singleBufferSpaceAvailable
  simp only [hread]
  rw [if_neg (by omega), if_neg (by omega)]
  split
  · omega
  · rw [if_pos (by omega)]
    omega

theorem handle_chOffset (w : World) (e : Event) : (handle w e).chOffset = w.chOffset := by
  have hself := handle_setChunk w.cdChunkBuf w.chOffset w e
  exact (congrArg World.chOffset hself :)

/-- Moves that wait see the same shorts after an event. -/
theorem Roomy.handle_moves (h : Roomy w) (e : Event) {moves : List (Int × Int)}
    (hmoves : ∀ x ∈ moves, Buffered w.sCDDIBuffer x.2) (pBuff : Int) (copySize req : Nat) :
    finishCopy copySize req
        { (CdPlayer.handle w e) with
          cdChunkBuf := runMoves (CdPlayer.handle w e).sCDDIBuffer.pSingleBuf pBuff moves
            (CdPlayer.handle w e).cdChunkBuf }
      = CdPlayer.handle (finishCopy copySize req
          { w with
            cdChunkBuf := runMoves w.sCDDIBuffer.pSingleBuf pBuff moves w.cdChunkBuf }) e := by
  rw [finishCopy_eq, finishCopy_eq, handle_setChunk, handle_chOffset, (outside_handle w e).chunk,
    runMoves_congr fun x hx => (h.handle_buffered e (hmoves x hx)).2]

/-- A writer behind the reader does not overtake it. -/
theorem Roomy.handle_reverse (h : Roomy w) (e : Event)
    (hdown : w.sCDDIBuffer.lWritePtr < w.sCDDIBuffer.lReadPtr) :
    (CdPlayer.handle w e).sCDDIBuffer.lWritePtr < (CdPlayer.handle w e).sCDDIBuffer.lReadPtr := by
  rcases handle_ring_cases h.ring e with ⟨hring, -⟩ | ⟨block, -, hon, hring, -⟩
  · rw [hring]
    exact hdown
  · have hroom := h.room hon
    unfold singleBufferSpaceAvailable at hroom
    rw [if_neg (by omega), if_neg (by omega)] at hroom
    have hL := h.ring.length
    have hwrite := h.ring.inside.writeNonneg
    have hread := h.ring.inside.readLt
    rw [hring, h.ring.appendBlock_lWritePtr, appendBlock_lReadPtr]
    omega

/-- Between calls nothing is left to do. -/
theorem Reader.settled_of_between (h : s.place = .between) : s.settled = s.world := by
  obtain ⟨w, place, blocks⟩ := s
  cases h
  rfl

theorem Reader.settled_data (s : Reader) : s.settled.datacdEnable = s.world.datacdEnable := by
  obtain ⟨w, place, blocks⟩ := s
  have hcopy (pBuff : Int) (copySize req : Nat) :
      (cdCopyReadData pBuff copySize req w).datacdEnable = w.datacdEnable := by
    rw [cdCopyReadData_eq, finishCopy_eq]
    rfl
  cases place with
  | between => rfl
  | straight pBuff copySize req => exact hcopy pBuff copySize req
  | reverse pBuff copySize req => exact hcopy pBuff copySize req
  | copying pBuff copySize req moves =>
    show (finishCopy copySize req { w with cdChunkBuf := _ }).datacdEnable = w.datacdEnable
    rw [finishCopy_eq]
    rfl
  | summed => rfl
  | folded => rfl

/-- The pointer that the sum is corrected to. -/
theorem corrected_sum {length p : Int} (hp : p < 2 * length) :
    reflectBack length (foldBack length p) = if p < length then p else p - length := by
  unfold reflectBack foldBack
  split <;> split <;> split <;> omega

/-- The sum and the corrected pointer show the interrupt the same space, before
and after the one block that may come. -/
theorem Orderly.sameSpace {blocks : Nat} (h : Orderly ⟨w, .summed, blocks⟩)
    (hon : w.cdifEnable = true) (hblocks : blocks = 0) :
    let u := Reader.settled ⟨w, .summed, blocks⟩
    SameSpace w.sCDDIBuffer.lReadPtr u.sCDDIBuffer ∧
      ∀ block, SameSpace w.sCDDIBuffer.lReadPtr (appendBlock block u.now u.sCDDIBuffer) := by
  intro u
  have hring : RingOk u.sCDDIBuffer := h.roomy.ring
  have hL : w.sCDDIBuffer.lLength = 2097152 := hring.length
  have hwrite : w.sCDDIBuffer.lWritePtr < w.sCDDIBuffer.lLength := hring.inside.writeLt
  have hwrite₀ : 0 ≤ w.sCDDIBuffer.lWritePtr := hring.inside.writeNonneg
  obtain ⟨-, hin | ⟨⟨hpast, hlast⟩, hend⟩⟩ := h.here
  · -- the sum lies inside the ring, and is not corrected
    have hread : u.sCDDIBuffer.lReadPtr = w.sCDDIBuffer.lReadPtr := by
      show reflectBack _ (foldBack _ _) = _
      rw [corrected_sum (by omega), if_pos hin]
    have hsame (b : SingleBufferState) (hb : b.lReadPtr = w.sCDDIBuffer.lReadPtr) :
        SameSpace w.sCDDIBuffer.lReadPtr b := by
      unfold SameSpace
      rw [← hb]
    exact ⟨hsame _ hread, fun block => hsame _ hread⟩
  · have hread : u.sCDDIBuffer.lReadPtr = w.sCDDIBuffer.lReadPtr - w.sCDDIBuffer.lLength := by
      show reflectBack _ (foldBack _ _) = _
      rw [corrected_sum (by omega), if_neg (not_lt.mpr hpast)]
    refine ⟨sameSpace_sum hlast hpast hwrite hread, fun block => ?_⟩
    -- the block does not reach the end of the ring
    have hbefore := hend hon hblocks
    have hnext : (appendBlock block u.now u.sCDDIBuffer).lWritePtr
        = w.sCDDIBuffer.lWritePtr + 2048 := by
      rw [hring.appendBlock_lWritePtr]
      show (w.sCDDIBuffer.lWritePtr + 2048) % 2097152 = _
      omega
    refine sameSpace_sum ?_ hpast ?_ hread
    · rw [hnext]
      show w.sCDDIBuffer.lReadPtr - w.sCDDIBuffer.lLength ≤ _
      omega
    · rw [hnext]
      exact hbefore

/-- An event while the sum stands in the ring. -/
theorem Orderly.outside_summed {blocks : Nat} (h : Orderly ⟨w, .summed, blocks⟩) {e : Event}
    (hok : e.isBlock = true → blocks = 0) :
    (readerStep ⟨w, .summed, blocks⟩ (.outside e)).settled
        = handle (Reader.settled ⟨w, .summed, blocks⟩) e ∧
      (readerStep ⟨w, .summed, blocks⟩ (.outside e)).Here := by
  have hsame := h.sameSpace
  obtain ⟨u, hu⟩ : ∃ u, u = Reader.settled ⟨w, .summed, blocks⟩ := ⟨_, rfl⟩
  rw [← hu] at hsame ⊢
  -- the state is the one the call leaves, but for the pointer
  have hback : setReadPtr w.sCDDIBuffer.lReadPtr u = w := by
    rw [hu]
    rfl
  have hring : RingOk u.sCDDIBuffer := by
    rw [hu]
    exact h.roomy.ring
  have hstep : handle w e = setReadPtr w.sCDDIBuffer.lReadPtr (handle u e) := by
    have hevent := handle_setReadPtr hring.ne_zero e
      fun hblock hon => hsame (by rw [hu] at hon; exact hon) (hok hblock)
    rw [hback] at hevent
    exact hevent
  have hframe := outside_handle w e
  constructor
  · have hread : (handle u e).sCDDIBuffer.lReadPtr = reflectBack w.sCDDIBuffer.lLength
        (foldBack w.sCDDIBuffer.lLength w.sCDDIBuffer.lReadPtr) := by
      rw [(outside_handle u e).readPtr, hu]
      rfl
    show setReadPtr (reflectBack _ (foldBack _ _)) (handle w e) = _
    rw [hframe.length, hframe.readPtr, ← hread, hstep]
    rfl
  · obtain ⟨h₀, hsum⟩ := h.here
    show 0 ≤ (handle w e).sCDDIBuffer.lReadPtr ∧ (_ ∨ _)
    rw [hframe.length, hframe.readPtr]
    refine ⟨h₀, hsum.imp_right fun ⟨⟨hpast, hlast⟩, hend⟩ => ?_⟩
    have hwrite : (handle w e).sCDDIBuffer.lWritePtr = (handle u e).sCDDIBuffer.lWritePtr := by
      rw [hstep]
      rfl
    have hcdif : u.cdifEnable = w.cdifEnable := by rw [← hback]; rfl
    have hstart : u.sCDDIBuffer.lWritePtr = w.sCDDIBuffer.lWritePtr := by rw [← hback]; rfl
    have hL : w.sCDDIBuffer.lLength = 2097152 := by
      rw [← hback]
      exact hring.length
    rw [hwrite]
    rcases handle_ring_cases hring e with ⟨hsame', -⟩ | ⟨block, rfl, hon, hplaced, -⟩
    · rw [hsame', hstart]
      refine ⟨⟨hpast, hlast⟩, fun hon hzero => hend (hframe.cdif hon) ?_⟩
      split at hzero
      · exact absurd hzero (Nat.succ_ne_zero _)
      · exact hzero
    · -- the one block that may come stays below the end of the ring
      have hbefore := hend (hcdif ▸ hon) (hok rfl)
      have hpos : 0 ≤ w.sCDDIBuffer.lWritePtr := by
        rw [← hstart]
        exact hring.inside.writeNonneg
      rw [hplaced, hring.appendBlock_lWritePtr, hstart]
      exact ⟨⟨hpast, by omega⟩, fun _ hzero => absurd hzero (Nat.succ_ne_zero _)⟩

/-- **An event does to the state that the call leaves what it does to the
state.** -/
theorem Orderly.outside (h : Orderly s) {e : Event} (hok : Timely s (.outside e)) :
    (readerStep s (.outside e)).settled = handle s.settled e ∧
      Orderly (readerStep s (.outside e)) := by
  obtain ⟨hdata, hblocks⟩ := hok
  -- the state left is in order since it comes from one that was
  suffices hstep : (readerStep s (.outside e)).settled = handle s.settled e ∧
      (readerStep s (.outside e)).Here by
    refine ⟨hstep.1, ?_, hstep.2⟩
    have hdata' := Reader.settled_data (readerStep s (.outside e))
    rw [hstep.1] at hdata' ⊢
    exact h.roomy.handle (hdata'.trans hdata)
  have here := h.here
  obtain ⟨w, place, blocks⟩ := s
  cases place with
  | between => exact ⟨rfl, trivial⟩
  | straight pBuff copySize req =>
    have hw := h.world (by simp)
    obtain ⟨hsize, hmoves⟩ := copyMoves_later hw hdata here
    refine ⟨?_, hsize⟩
    show cdCopyReadData _ _ _ (handle w e) = handle (cdCopyReadData _ _ _ w) e
    rw [cdCopyReadData_eq, cdCopyReadData_eq, hmoves]
    exact hw.handle_moves e (copyMoves_buffered hw here) pBuff copySize req
  | reverse pBuff copySize req =>
    have hw := h.world (by simp)
    obtain ⟨hsize, hmoves⟩ := copyMoves_later hw hdata here.1
    refine ⟨?_, hsize, ?_⟩
    · show cdCopyReadData _ _ _ (handle w e) = handle (cdCopyReadData _ _ _ w) e
      rw [cdCopyReadData_eq, cdCopyReadData_eq, hmoves]
      exact hw.handle_moves e (copyMoves_buffered hw here.1) pBuff copySize req
    · exact here.2.imp_left fun hdown => hw.handle_reverse e hdown
  | copying pBuff copySize req moves =>
    have hw := h.world (by simp)
    exact ⟨hw.handle_moves e here pBuff copySize req,
      fun x hx => (hw.handle_buffered e (here x hx)).1⟩
  | summed => exact h.outside_summed fun hblock => hblocks rfl hblock
  | folded =>
    have hframe := outside_handle w e
    have hin : (handle w e).sCDDIBuffer.lReadPtr < (handle w e).sCDDIBuffer.lLength := by
      rw [hframe.readPtr, hframe.length]
      exact here
    have hkeep {u : World} (hu : u.sCDDIBuffer.lReadPtr < u.sCDDIBuffer.lLength) :
        setReadPtr (reflectBack u.sCDDIBuffer.lLength u.sCDDIBuffer.lReadPtr) u = u := by
      unfold reflectBack
      rw [if_neg (not_le.mpr hu)]
      rfl
    exact ⟨(hkeep hin).trans (congrArg (fun u => handle u e) (hkeep here).symm), hin⟩

/-- A copy begins. -/
theorem Orderly.copy (h : Orderly s) {pBuff : Int} {copySize req : Nat}
    (hok : Timely s (.copy pBuff copySize req)) :
    (readerStep s (.copy pBuff copySize req)).settled
        = atomicStep s.settled (.copy pBuff copySize req) ∧
      Orderly (readerStep s (.copy pBuff copySize req)) := by
  obtain ⟨w, place, blocks⟩ := s
  obtain ⟨rfl, hsize⟩ := hok
  refine ⟨rfl, ?_, hsize⟩
  show Roomy (cdCopyReadData pBuff copySize req w)
  rw [cdCopyReadData_eq, finishCopy_eq]
  exact Roomy.setChunk h.roomy _ _

/-- An advance begins with the sum. -/
theorem Orderly.advance (h : Orderly s) {n : Int} (hok : Timely s (.advance n)) :
    (readerStep s (.advance n)).settled = atomicStep s.settled (.advance n) ∧
      Orderly (readerStep s (.advance n)) := by
  obtain ⟨w, place, blocks⟩ := s
  obtain ⟨rfl, hn, hle'⟩ := hok
  have hw : Roomy w := h.roomy
  have hle : n ≤ singleBufferDataAvailable w.sCDDIBuffer := hle'
  refine ⟨rfl, hw.advance hn hle, ?_⟩
  have hL := hw.ring.length
  have hread := hw.ring.inside.readNonneg
  have hreadL := hw.ring.inside.readLt
  have hwriteL := hw.ring.inside.writeLt
  have havail := hw.ring.dataAvailable_lt
  have hsum : s32 (w.sCDDIBuffer.lReadPtr + n) = w.sCDDIBuffer.lReadPtr + n :=
    s32_of_lt (by omega) (by omega)
  show 0 ≤ s32 (w.sCDDIBuffer.lReadPtr + n) ∧ (s32 (w.sCDDIBuffer.lReadPtr + n) < _ ∨
    (_ ≤ s32 (w.sCDDIBuffer.lReadPtr + n) ∧ s32 (w.sCDDIBuffer.lReadPtr + n) - _ ≤ _) ∧ _)
  rw [hsum]
  refine ⟨by omega, ?_⟩
  rcases lt_or_ge (w.sCDDIBuffer.lReadPtr + n) w.sCDDIBuffer.lLength with hin | hpast
  · exact .inl hin
  · -- what is buffered goes round the end of the ring
    have hdown : ¬ w.sCDDIBuffer.lWritePtr ≥ w.sCDDIBuffer.lReadPtr := by
      intro hup
      unfold singleBufferDataAvailable at hle
      rw [if_pos hup] at hle
      omega
    refine .inr ⟨⟨hpast, ?_⟩, fun hon _ => ?_⟩
    · unfold singleBufferDataAvailable at hle
      rw [if_neg hdown] at hle
      show w.sCDDIBuffer.lReadPtr + n - w.sCDDIBuffer.lLength ≤ w.sCDDIBuffer.lWritePtr
      omega
    · have hroom := hw.room hon
      unfold singleBufferSpaceAvailable at hroom
      rw [if_neg (by omega), if_neg (by omega)] at hroom
      show w.sCDDIBuffer.lWritePtr + 2048 < w.sCDDIBuffer.lLength
      omega

/-- **One step below is one step above.** -/
theorem orderly_step (s : Reader) (op : ReaderOp) (hok : Timely s op) (h : Orderly s) :
    Orderly (readerStep s op) ∧ (readerStep s op).settled = atomicStep s.settled op := by
  cases op with
  | outside e => exact (h.outside hok).symm
  | copy pBuff copySize req => exact (h.copy hok).symm
  | advance n => exact (h.advance hok).symm
  | next => exact ⟨h.next, h.statement⟩

/-! ### Every run -/

/-- **The reader's statements add up to atomic calls**, as long as no call asks
for more than is buffered.  In every such run from a ring in order, with the
disc mounted throughout, in which events come between any two statements of
`CD_CopyReadData` and `SingleBufferUpdateReadPointer` (between the sum and
its correction at most one block): whenever no call is under way, the driver
is in the state to which the same events and whole calls, each made where it
begins, lead; and one more block fits while the CDIF is on. -/
theorem statements_are_atomic (hw : Roomy w) (ops : List ReaderOp)
    (h : Allowed readerStep Timely ⟨w, .between, 0⟩ ops) :
    let s := ops.foldl readerStep ⟨w, .between, 0⟩
    s.settled = ops.foldl atomicStep w ∧
    (s.place = .between → s.world = ops.foldl atomicStep w) ∧
    Roomy (ops.foldl atomicStep w) := by
  intro s
  have hstart : Orderly ⟨w, .between, 0⟩ := ⟨hw, trivial⟩
  have hsettled : s.settled = ops.foldl atomicStep w := by
    have hsim : s.settled = (translate readerStep (fun _ op => [op]) ⟨w, .between, 0⟩ ops).foldl
        atomicStep w := h.simulates orderly_step hstart
    rw [translate_self fun _ _ => rfl] at hsim
    exact hsim
  have hend : Orderly s := h.inv (fun s op hok hs => (orderly_step s op hok hs).1) hstart
  refine ⟨hsettled, fun hplace => ?_, hsettled ▸ hend.roomy⟩
  rw [← hsettled]
  exact (Reader.settled_of_between hplace).symm

/-- A mounted disc, and a ring read up to `readPtr` and written up to
`writePtr`. -/
def streaming (readPtr writePtr : Int) : World :=
  { World.mounted with
    sCDDIBuffer := ⟨Mem.zero, 2097152, readPtr, writePtr⟩
    cdifEnable := true }

theorem streaming_roomy : Roomy (streaming 2097100 2048) where
  ring :=
    { inside := ⟨by decide, by decide, by decide, by decide, by decide, by decide⟩
      length := rfl }
  data := rfl
  room := fun _ => by decide

/-- A copy and an advance across the end of the ring, with a block in each. -/
def interruptedCalls : List ReaderOp :=
  [.copy 0 2 1, .next, .outside (.dma fun _ => 7), .next, .next, .next, .next, .advance 60,
    .outside (.dma fun _ => 8), .next, .next]

theorem interruptedCalls_timely :
    Allowed readerStep Timely ⟨streaming 2097100 2048, .between, 0⟩ interruptedCalls :=
  ⟨⟨rfl, by decide⟩, trivial, ⟨rfl, fun h => by cases h⟩, trivial, trivial, trivial, trivial,
    ⟨rfl, by decide, by decide⟩, ⟨rfl, fun _ _ => rfl⟩, trivial, trivial, trivial⟩

theorem statements_are_atomic_across :
    (interruptedCalls.foldl readerStep ⟨streaming 2097100 2048, .between, 0⟩).settled
      = interruptedCalls.foldl atomicStep (streaming 2097100 2048) :=
  (statements_are_atomic streaming_roomy interruptedCalls interruptedCalls_timely).1

/-- Two blocks come between the sum and its correction. -/
def lateCorrection : List ReaderOp :=
  [.advance 200, .outside (.dma fun _ => 7), .outside (.dma fun _ => 8), .next, .next]

/-- The second ends at the end of the ring: the ring is full, and the CDIF
stays on. -/
theorem two_blocks_missed :
    let s := lateCorrection.foldl readerStep ⟨streaming 2097100 2093056, .between, 0⟩
    s.world.cdifEnable = true ∧ singleBufferSpaceAvailable s.world.sCDDIBuffer = 144 ∧
      (lateCorrection.foldl atomicStep (streaming 2097100 2093056)).cdifEnable = false := by
  decide +kernel

end CdPlayer
