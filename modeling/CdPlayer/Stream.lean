/-
CdPlayer/Stream.lean

A deck that streams.

After a seek the deck sends one sequence of bytes, cut into DMA blocks.
`World.readerPos` is the place of the read pointer in that sequence, and
`Flowing x w` says that what the ring has buffered is the sequence `x` from
there on, that there is room for the next block, and that no disc change
is under way.  Turns of a deck that streams `x` keep all this and leave
the reader where it is (`Steady`).
-/
import CdPlayer.Stamps

namespace CdPlayer

open ByteStore Run

/-! ### Streams -/

/-- What the deck sends after a seek, numbered from the first byte. -/
abbrev Stream := Int → UInt8

/-- The place of the read pointer in the stream, in bytes. -/
def World.readerPos (w : World) : Int :=
  8192 * w.dmaSince - 4 * singleBufferDataAvailable w.sCDDIBuffer

/-- The deck sends the blocks of the stream in order, and there is no eject
message.  The stream may depend on the seek and its address. -/
def Streams (x : Nat → Nat → Stream) (w : World) : Event → Prop
  | .dma block => w.cdifEnable = true →
      ∀ a : Nat, a < 8192 → block a = x w.seeks w.seekMsf (8192 * w.dmaSince + a)
  | .msg m => m.nlmsgData 0 = charU → m.nlmsgData 1 = 0
  | .mount => True

/-- The ring under a stream. -/
structure Flowing (x : Nat → Nat → Stream) (w : World) : Prop where
  ring : RingOk w.sCDDIBuffer
  data : w.datacdEnable = true
  force : w.cdDevForceStop = 0
  room : w.cdifEnable = true → 2048 < singleBufferSpaceAvailable w.sCDDIBuffer
  bytes : ∀ i, 0 ≤ i → i < 4 * singleBufferDataAvailable w.sCDDIBuffer →
    (w.sCDDIBuffer.windowByte i).val = x w.seeks w.seekMsf (w.readerPos + i)

variable {x : Nat → Nat → Stream} {b : SingleBufferState} {w w' u : World} {env : Env}

/-! ### Blocks -/

/-- A block that fits goes behind the window. -/
theorem windowByte_appendBlock (hring : RingOk b) (block : Nat → UInt8) (now : Nat)
    (hfit : singleBufferDataAvailable b + 2048 < 2097152) {i : Int} (h₀ : 0 ≤ i)
    (h₁ : i < 4 * singleBufferDataAvailable b + 8192) :
    (appendBlock block now b).windowByte i
      = if i < 4 * singleBufferDataAvailable b then b.windowByte i
        else ⟨block (i - 4 * singleBufferDataAvailable b).toNat, now⟩ := by
  have hL := hring.length
  have hr := hring.inside.readNonneg
  have hrL := hring.inside.readLt
  have hw := hring.inside.writeNonneg
  have hwL := hring.inside.writeLt
  have hblock := hring.block_fits
  -- the writer is ahead of the reader, or one length behind the place where it would be
  have hlap : b.lWritePtr = b.lReadPtr + singleBufferDataAvailable b ∨
      b.lWritePtr = b.lReadPtr + singleBufferDataAvailable b - 2097152 := by
    unfold singleBufferDataAvailable
    rw [hL]
    split <;> omega
  unfold SingleBufferState.windowByte
  rw [appendBlock_lLength, appendBlock_lReadPtr, hL]
  split
  next hold =>
    refine appendBlock_old ?_
    rcases hlap with hlap | hlap <;> omega
  next hnew =>
    -- the byte is one of those written at the writer
    have hcell : (4 * b.lReadPtr + i) % (4 * 2097152)
        = 4 * b.lWritePtr + (i - 4 * singleBufferDataAvailable b) := by
      rcases hlap with hlap | hlap <;> omega
    have hin : (appendBlock block now b).pSingleBuf
        (4 * b.lWritePtr + (i - 4 * singleBufferDataAvailable b))
        = stamped block now (0 + (i - 4 * singleBufferDataAvailable b)) :=
      blit_offset _ _ _ _ _ (by omega) (by push_cast; omega)
    rw [hcell, hin, zero_add]
    rfl

/-- Fields that do not matter here. -/
theorem Flowing.congr (h : Flowing x w) (hring : u.sCDDIBuffer = w.sCDDIBuffer)
    (hdata : u.datacdEnable = true) (hforce : u.cdDevForceStop = 0)
    (hcdif : u.cdifEnable = true → w.cdifEnable = true) (hseeks : u.seeks = w.seeks)
    (hmsf : u.seekMsf = w.seekMsf) (hdma : u.dmaSince = w.dmaSince) :
    Flowing x u ∧ u.readerPos = w.readerPos := by
  have hpos : u.readerPos = w.readerPos := by
    unfold World.readerPos
    rw [hring, hdma]
  refine ⟨⟨by rw [hring]; exact h.ring, hdata, hforce, fun hon => ?_, fun i h₀ h₁ => ?_⟩, hpos⟩
  · rw [hring]
    exact h.room (hcdif hon)
  · rw [hring] at h₁ ⊢
    rw [hseeks, hmsf, hpos]
    exact h.bytes i h₀ h₁

theorem Flowing.own (h : Flowing x w) (hring : u.sCDDIBuffer = w.sCDDIBuffer)
    (hdata : u.datacdEnable = w.datacdEnable) (hforce : u.cdDevForceStop = w.cdDevForceStop)
    (hcdif : u.cdifEnable = w.cdifEnable) (hseeks : u.seeks = w.seeks)
    (hmsf : u.seekMsf = w.seekMsf) (hdma : u.dmaSince = w.dmaSince) : Flowing x u :=
  (h.congr hring (hdata.trans h.data) (hforce.trans h.force) (fun hon => hcdif ▸ hon) hseeks hmsf
    hdma).1

/-- A block of the stream. -/
theorem Flowing.block (h : Flowing x w) (hon : w.cdifEnable = true) {block : Nat → UInt8}
    (hblock : ∀ a : Nat, a < 8192 → block a = x w.seeks w.seekMsf (8192 * w.dmaSince + a))
    (hring : u.sCDDIBuffer = appendBlock block w.now w.sCDDIBuffer)
    (hdata : u.datacdEnable = true) (hforce : u.cdDevForceStop = 0)
    (hroom : u.cdifEnable = true → 2048 < singleBufferSpaceAvailable u.sCDDIBuffer)
    (hseeks : u.seeks = w.seeks) (hmsf : u.seekMsf = w.seekMsf)
    (hdma : u.dmaSince = w.dmaSince + 1) :
    Flowing x u ∧ u.readerPos = w.readerPos ∧
      singleBufferDataAvailable w.sCDDIBuffer ≤ singleBufferDataAvailable u.sCDDIBuffer := by
  have hfit : singleBufferDataAvailable w.sCDDIBuffer + 2048 < 2097152 := by
    have hspace := h.room hon
    rw [h.ring.spaceAvailable] at hspace
    omega
  have havail := h.ring.dataAvailable_appendBlock block w.now hfit
  -- a block more has come, and is buffered: the reader has not moved
  have hpos : u.readerPos = w.readerPos := by
    unfold World.readerPos
    rw [hring, havail, hdma]
    push_cast
    ring
  refine ⟨⟨by rw [hring]; exact h.ring.appendBlock block w.now, hdata, hforce, hroom,
    fun i h₀ h₁ => ?_⟩, hpos, by rw [hring, havail]; omega⟩
  rw [hring, havail] at h₁
  rw [hring, windowByte_appendBlock h.ring block w.now hfit h₀ (by omega), hseeks, hmsf, hpos]
  split
  next hold => exact h.bytes i h₀ hold
  -- what is new is the next block of the stream
  next hnew =>
    obtain ⟨a, ha⟩ := Int.eq_ofNat_of_zero_le
      (show 0 ≤ i - 4 * singleBufferDataAvailable w.sCDDIBuffer by omega)
    have hval := hblock a (by omega)
    rw [ha]
    change block a = _
    rw [hval]
    congr 1
    unfold World.readerPos
    omega

/-! ### Turns -/

/-- What a turn of the deck keeps, and a move of the reader by `k` samples
with it. -/
structure Steady (x : Nat → Nat → Stream) (k : Int) (w w' : World) : Prop where
  flowing : Flowing x w'
  pos : w'.readerPos = w.readerPos + 4 * k
  avail : singleBufferDataAvailable w.sCDDIBuffer - k
    ≤ singleBufferDataAvailable w'.sCDDIBuffer
  readPtr : w'.sCDDIBuffer.lReadPtr = (w.sCDDIBuffer.lReadPtr + k) % 2097152
  seeks : w'.seeks = w.seeks
  seekMsf : w'.seekMsf = w.seekMsf
  bufStatus : w'.gCDBufStatus = w.gCDBufStatus
  requestSector : w'.gRequestSector = w.gRequestSector

/-- A reader that stands still. -/
theorem RingOk.readPtr_emod (h : RingOk b) : b.lReadPtr = (b.lReadPtr + 0) % 2097152 := by
  have h₁ := h.inside.readNonneg
  have h₂ := h.inside.readLt
  rw [h.length] at h₂
  omega

theorem Steady.refl (h : Flowing x w) : Steady x 0 w w :=
  ⟨h, by omega, by omega, h.ring.readPtr_emod, rfl, rfl, rfl, rfl⟩

theorem Steady.trans {a b c : World} {j k : Int} (h : Steady x j a b) (h' : Steady x k b c) :
    Steady x (j + k) a c where
  flowing := h'.flowing
  pos := by rw [h'.pos, h.pos]; ring
  avail := by have := h.avail; have := h'.avail; omega
  readPtr := by have := h.readPtr; have := h'.readPtr; omega
  seeks := h'.seeks.trans h.seeks
  seekMsf := h'.seekMsf.trans h.seekMsf
  bufStatus := h'.bufStatus.trans h.bufStatus
  requestSector := h'.requestSector.trans h.requestSector

/-- An event changes the thread's fields in no other way than the frame
allows. -/
theorem Outside.steady (hout : Outside w w') (h : Flowing x w')
    (hpos : w'.readerPos = w.readerPos)
    (havail : singleBufferDataAvailable w.sCDDIBuffer
      ≤ singleBufferDataAvailable w'.sCDDIBuffer) : Steady x 0 w w' where
  flowing := h
  pos := by omega
  avail := by omega
  readPtr := by
    have hread := h.ring.readPtr_emod
    rw [hout.readPtr] at hread
    rw [hout.readPtr]
    exact hread
  seeks := hout.seeks
  seekMsf := hout.seekMsf
  bufStatus := hout.bufStatus
  requestSector := hout.requestSector

/-- The flags after a message of a streaming deck. -/
theorem nlRecvMsg_flags {m : NlMsg} (hm : m.nlmsgData 0 = charU → m.nlmsgData 1 = 0)
    (hdata : w.datacdEnable = true) (hforce : w.cdDevForceStop = 0) :
    (nlRecvMsg m w).datacdEnable = true ∧ (nlRecvMsg m w).cdDevForceStop = 0 := by
  by_cases hU : m.nlmsgData 0 = charU
  · -- a mount
    rw [nlRecvMsg_eject w hU, hm hU]
    exact ⟨rfl, rfl⟩
  · by_cases hS : m.nlmsgData 0 = charS
    · rw [nlRecvMsg_seek w hS]
      exact ⟨hdata, hforce⟩
    · rw [nlRecvMsg_toc w hU hS]
      exact ⟨hdata, hforce⟩

/-- **An event of a streaming deck.** -/
theorem Flowing.handle (w : World) (e : Event) (he : Streams x w e) (h : Flowing x w) :
    Steady x 0 w (CdPlayer.handle w e) := by
  have hout := outside_handle w e
  cases e with
  | dma block =>
    by_cases hon : w.cdifEnable = true
    · rw [CdPlayer.handle, occur, if_pos hon] at hout ⊢
      rcases cdifAdmaHandler_cases block h.ring.ne_zero with ⟨heq, hroom⟩ | ⟨heq, -⟩
      · rw [heq] at hout ⊢
        obtain ⟨hflow, hpos, havail⟩ := h.block hon (he hon)
          (u := World.tick { w with
            sCDDIBuffer := appendBlock block w.now w.sCDDIBuffer, dmaSince := w.dmaSince + 1
            notes := .dma (singleBufferSpaceAvailable w.sCDDIBuffer) :: w.notes })
          rfl h.data h.force (fun _ => hroom h.data) rfl rfl rfl
        exact hout.steady hflow hpos havail
      · -- no room for the next block: the CDIF goes off
        rw [heq] at hout ⊢
        obtain ⟨hflow, hpos, havail⟩ := h.block hon (he hon)
          (u := World.tick { w with
            sCDDIBuffer := appendBlock block w.now w.sCDDIBuffer, cdifEnable := false
            gCDErrorStatus := .bufFull, dmaSince := w.dmaSince + 1
            notes := .dma (singleBufferSpaceAvailable w.sCDDIBuffer) :: w.notes })
          rfl h.data h.force (fun hon => absurd hon Bool.false_ne_true) rfl rfl rfl
        exact hout.steady hflow hpos havail
    · rw [CdPlayer.handle, occur, if_neg hon] at hout ⊢
      obtain ⟨hflow, hpos⟩ := h.congr (u := w.tick) rfl h.data h.force id rfl rfl rfl
      exact hout.steady hflow hpos le_rfl
  | msg m =>
    obtain ⟨hdata, hforce⟩ := nlRecvMsg_flags he h.data h.force
    obtain ⟨hring, hcdif, -, hdma, -, -⟩ := sameRing_nlRecvMsg w m
    have hmsg := outside_nlRecvMsg m w
    by_cases hS : m.nlmsgData 0 = charS
    · rw [CdPlayer.handle, occur, if_pos hS] at hout ⊢
      obtain ⟨hflow, hpos⟩ := h.congr (u := World.tick { nlRecvMsg m w with
        answers := (m.seek, m.nlmsgData 1) :: w.answers }) hring hdata hforce
          (fun hon => hcdif ▸ hon) hmsg.seeks hmsg.seekMsf hdma
      exact hout.steady hflow hpos (le_of_eq (congrArg singleBufferDataAvailable hring.symm))
    · rw [CdPlayer.handle, occur, if_neg hS] at hout ⊢
      obtain ⟨hflow, hpos⟩ := h.congr (u := (nlRecvMsg m w).tick) hring hdata hforce
          (fun hon => hcdif ▸ hon) hmsg.seeks hmsg.seekMsf hdma
      exact hout.steady hflow hpos (le_of_eq (congrArg singleBufferDataAvailable hring.symm))
  | mount =>
    have hsame := sameRing_tcrReadTochdr w
    have hmount := outside_tcrReadTochdr w
    obtain ⟨hdata, hforce⟩ : (tcrReadTochdr w).datacdEnable = true ∧
        (tcrReadTochdr w).cdDevForceStop = 0 := by
      obtain ⟨_, _, hw, -⟩ := tcrReadTochdr_writes w
      rw [hw]
      exact ⟨rfl, rfl⟩
    obtain ⟨hflow, hpos⟩ := h.congr (u := (tcrReadTochdr w).tick) hsame.ring hdata hforce
      (fun hon => hsame.cdif ▸ hon) hmount.seeks hmount.seekMsf hsame.dma
    exact hout.steady hflow hpos (le_of_eq (congrArg singleBufferDataAvailable hsame.ring.symm))

/-- What the thread does to fields of its own. -/
theorem Steady.own {k : Int} (h : Steady x k w w')
    (hring : u.sCDDIBuffer = w'.sCDDIBuffer) (hdata : u.datacdEnable = w'.datacdEnable)
    (hforce : u.cdDevForceStop = w'.cdDevForceStop) (hcdif : u.cdifEnable = w'.cdifEnable)
    (hseeks : u.seeks = w'.seeks) (hmsf : u.seekMsf = w'.seekMsf)
    (hdma : u.dmaSince = w'.dmaSince) (hstatus : u.gCDBufStatus = w'.gCDBufStatus)
    (hreq : u.gRequestSector = w'.gRequestSector) : Steady x k w u := by
  obtain ⟨hflow, hpos⟩ := h.flowing.congr hring (hdata.trans h.flowing.data)
    (hforce.trans h.flowing.force) (fun hon => hcdif ▸ hon) hseeks hmsf hdma
  exact ⟨hflow, hpos.trans h.pos, by rw [hring]; exact h.avail,
    by rw [hring]; exact h.readPtr, hseeks.trans h.seeks,
    hmsf.trans h.seekMsf, hstatus.trans h.bufStatus, hreq.trans h.requestSector⟩

/-- **A turn of a streaming deck.** -/
theorem Flowing.yield (henv : env.Obeys (Streams x)) (h : Flowing x w) :
    Steady x 0 w (CdPlayer.yield env w) :=
  henv.yield (P := Steady x 0 w)
    (fun u e he hu => hu.trans (hu.flowing.handle u e he))
    (fun _ hu => hu.own rfl rfl rfl rfl rfl rfl rfl rfl rfl)
    (Steady.refl h)

theorem Steady.turn {k : Int} (h : Steady x k w w') (henv : env.Obeys (Streams x)) :
    Steady x k w (CdPlayer.yield env w') := by
  have hturn := h.trans (h.flowing.yield henv)
  rwa [add_zero] at hturn

/-- The reader moves on within what is buffered. -/
theorem Flowing.advance (h : Flowing x w) {n : Int} (hn : 0 ≤ n)
    (hle : n ≤ singleBufferDataAvailable w.sCDDIBuffer) :
    Steady x n w (updateReadPointer n w) := by
  have havail := h.ring.dataAvailable_advance hn hle
  have hlt := h.ring.dataAvailable_lt
  -- as many samples less are buffered, so the reader stands further on
  have hpos : (updateReadPointer n w).readerPos = w.readerPos + 4 * n := by
    change 8192 * (w.dmaSince : Int) - 4 * singleBufferDataAvailable
      (singleBufferUpdateReadPointer w.sCDDIBuffer n) = _
    rw [havail]
    unfold World.readerPos
    omega
  have hring : RingOk (singleBufferUpdateReadPointer w.sCDDIBuffer n) :=
    h.ring.advance hn (by omega)
  refine ⟨⟨hring, h.data, h.force, fun hon => ?_, fun i h₀ h₁ => ?_⟩, hpos, le_of_eq havail.symm,
    ?_, rfl, rfl, rfl, rfl⟩
  · have hroom := h.room hon
    rw [h.ring.spaceAvailable] at hroom
    change 2048 < singleBufferSpaceAvailable (singleBufferUpdateReadPointer w.sCDDIBuffer n)
    rw [hring.spaceAvailable, havail]
    omega
  · have h₁' : i < 4 * (singleBufferDataAvailable w.sCDDIBuffer - n) := by
      rw [← havail]
      exact h₁
    change ((singleBufferUpdateReadPointer w.sCDDIBuffer n).windowByte i).val = _
    rw [windowByte_advance h.ring hn (by omega), hpos,
      h.bytes (i + 4 * n) (by omega) (by omega)]
    change x w.seeks w.seekMsf _ = x w.seeks w.seekMsf _
    congr 1
    omega
  · exact h.ring.advance_lReadPtr hn (by omega)

/-- A turn, then a move within what was buffered before it. -/
theorem Steady.move {k n : Int} (h : Steady x k w w') (henv : env.Obeys (Streams x)) (hn : 0 ≤ n)
    (hle : n ≤ singleBufferDataAvailable w'.sCDDIBuffer) :
    Steady x (k + n) w (updateReadPointer n (CdPlayer.yield env w')) := by
  have hturn := h.flowing.yield henv
  have havail := hturn.avail
  exact (h.turn henv).trans (hturn.flowing.advance hn (by omega))

end CdPlayer
