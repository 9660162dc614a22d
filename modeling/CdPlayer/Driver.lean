/-
CdPlayer/Driver.lean

The driver's state and everything that happens to it from outside: the
CDIF interrupt (cdif_drv.c), the netlink socket (knetlink.c) and the mount
and eject notifications (cdrom.c, cdif_api.c).

`World` is the static data of the driver.  The last group of fields is
bookkeeping that the code does not have: a clock, the seeks sent and
answered, and a list of notes taken at the moments statements speak about.
No modelled function branches on any of it.

The read path runs in a kernel thread and is interrupted at will.  It is
written in state-passing style with an explicit point `yield env` wherever
the thread touches data that an interrupt or another thread may touch, or
sleeps.  An environment answers each such point with a `Turn`: the events
that happen there, in order.  It may look at the whole state, so that a
deck that answers a seek with the right data is an environment as well as
one that sends noise.
-/
import CdPlayer.SingleBuffer

namespace CdPlayer

open ByteStore

/-! ### Status words -/

/-- `CD_BUF_STATUS`; `unset` is the zero of static storage. -/
inductive BufStatus
  | unset | start | stop | rebuf
  deriving DecidableEq, Repr

/-- `CD_ERROR_STATUS`. -/
inductive ErrorStatus
  | noProblem | bufFull | missSubq | shock
  deriving DecidableEq, Repr

/-- Moments at which a note is taken. -/
inductive Note
  /-- A DMA block arrives and finds this much space in the ring. -/
  | dma (space : Int)
  /-- `CD_Set_StartBuffing` takes its buffer-full branch. -/
  | fullBranch (cdif : Bool)
  /-- `CD_Do_StartBuffering` is entered and will serve from this ring. -/
  | enterStart (ring : SingleBufferState)
  /-- `CD_Do_StopBuffering` is entered. -/
  | enterStop (cdif : Bool)
  /-- A seek is sent while `pending` completions are outstanding. -/
  | seekSent (pending : Nat)
  /-- The wait for the response ends with this result. -/
  | seekEnded (ret : Int) (cdif : Bool)
  /-- `CD_Do_StopBuffering` turns the CDIF on; this many samples are in the
  ring, and the deck has or has not answered the seek. -/
  | streamOn (samples : Int) (answered : Bool)
  /-- The timer of `CD_Do_StopBuffering` runs out with the status full; `opened`
  is the status with which the CDIF was turned on. -/
  | stopExpired (opened : ErrorStatus)
  /-- `CD_CopyReadData` copies `n` samples out of a ring that holds `avail`. -/
  | copied (n avail : Int)
  /-- The read pointer is advanced by `n` samples while `avail` are buffered. -/
  | advance (n avail : Int)

/-- Notes that the surroundings and a seek add; the others are the read path's. -/
def Note.Passive : Note → Prop
  | .dma _ | .seekSent _ | .seekEnded _ _ => True
  | _ => False

/-- The static data of the driver. -/
structure World where
  /-- `sCDDIBuffer` over `tCDDIBuffer.psSingle`. -/
  sCDDIBuffer : SingleBufferState
  /-- The enable bit of the CDIF control register. -/
  cdifEnable : Bool
  /-- `CD_Status` and what stands beside it. -/
  gCDBufStatus : BufStatus
  gCDErrorStatus : ErrorStatus
  gLastSector : Nat
  gRequestSector : Nat
  diffValue : Int
  chOffset : Nat
  pickupseek : Bool
  researchCnt : Int
  /-- `CD_ChunkBuf`, addressed from its first byte. -/
  cdChunkBuf : Mem
  /-- Eject state: `CD_DevForceStop`, `CD_DevStatus`, `datacd_enable`, `state_eject`. -/
  cdDevForceStop : Nat
  cdDevStatus : Int
  datacdEnable : Bool
  stateEject : Int
  /-- Netlink: the peer, the scratch bytes at `seek_result`, the response
  bytes at `seek_response`, the words at `toc_buffer`, and the count of
  `tcc_completion`.  Each array owns its first bytes; what follows it in
  memory is addressed too. -/
  recvPid : Int
  seekResult : Nat → UInt8
  seekResponse : Nat → UInt8
  tocBuffer : Nat → UInt8
  tccCompletion : Nat
  /-- Bookkeeping: the clock. -/
  now : Nat
  /-- Bookkeeping: seeks sent, the last one's address and time, and the DMA
  blocks received since. -/
  seeks : Nat
  seekMsf : Nat
  seekAt : Nat
  dmaSince : Nat
  /-- Bookkeeping: is a call waiting for its response, and which seeks have
  been answered how, newest first. -/
  waiting : Bool
  answers : List (Nat × UInt8)
  /-- Bookkeeping: is a disc change under way, and when was the disc mounted
  that followed the last one. -/
  discOut : Bool
  discAt : Option Nat
  notes : List Note

/-! ### Status functions (cdif_api.c) -/

/-- `set_cdif_enable`. -/
def setCdifEnable (flag : Bool) (w : World) : World := { w with cdifEnable := flag }

/-- `CD_SetErrorStatus`. -/
def cdSetErrorStatus (s : ErrorStatus) (w : World) : World := { w with gCDErrorStatus := s }

/-- `CD_SetBufferStatus`. -/
def cdSetBufferStatus (s : BufStatus) (w : World) : World := { w with gCDBufStatus := s }

/-- `CD_SetLastSector`. -/
def cdSetLastSector (n : Nat) (w : World) : World := { w with gLastSector := n }

/-- `CD_SetRequestSector`. -/
def cdSetRequestSector (n : Nat) (w : World) : World := { w with gRequestSector := n }

/-- `CD_SetCHOffet`. -/
def cdSetCHOffet (offset : Nat) (w : World) : World := { w with chOffset := u32 (offset * 2) }

/-- `CD_GetDiffValue`: the stored difference is not used. -/
def cdGetDiffValue : Int := -(cdSeekPosition : Int)

/-- `CD_SetDiffValue`. -/
def cdSetDiffValue (value : Int) (w : World) : World :=
  if value > mecaReadMargin then { w with diffValue := 0 }
  else if value < -mecaReadMargin then { w with diffValue := 0 }
  else if value > 1 then { w with diffValue := cdGetDiffValue + value }
  else if value < 0 then { w with diffValue := cdGetDiffValue + value }
  else w

/-- `CD_SetDevForceStop`. -/
def cdSetDevForceStop (setBit : Int) (w : World) : World :=
  { w with
    cdDevForceStop := if setBit ≠ 0 then 1 else 0
    cdDevStatus := cdStatusForcestop
    datacdEnable := if setBit ≠ 0 then false else true }

/-- `set_State_eject` (cdrom.c). -/
def setStateEject (status : Int) (w : World) : World :=
  cdSetDevForceStop status
    { w with stateEject := status, discOut := if status ≠ 0 then true else w.discOut }

/-- `CDDISetBuffer`: the ring over the static array. -/
def cddiSetBuffer (w : World) : World :=
  { w with
    sCDDIBuffer := (singleBufferSet w.sCDDIBuffer w.sCDDIBuffer.pSingleBuf cddiBufferSize).1 }

/-- `cd_drv_initialize`, up to the interrupt and DMA registers. -/
def cdDrvInitialize (w : World) : World :=
  cddiSetBuffer (cdSetBufferStatus .stop (cdSetErrorStatus .noProblem (setCdifEnable false w)))

/-- `CD_ShockProcess`: take ten raw sectors back from the writer. -/
def cdShockProcess (b : SingleBufferState) : SingleBufferState :=
  let shockSampleSize : Int := 10 * 588
  if singleBufferDataAvailable b > shockSampleSize then
    if b.lWritePtr ≥ shockSampleSize then { b with lWritePtr := b.lWritePtr - shockSampleSize }
    else { b with lWritePtr := b.lLength - (shockSampleSize - b.lWritePtr) }
  else b

/-! ### The CDIF interrupt -/

/-- `cdif_adma_handler`.  `block` is the half of the DMA buffer that the
engine is not filling at the moment; its bytes are stamped with the time. -/
def cdifAdmaHandler (block : Nat → UInt8) (w : World) : World :=
  let pBuf := w.sCDDIBuffer
  if pBuf.lLength = 0 then { w with sCDDIBuffer := { pBuf with lWritePtr := 0 } }
  else
    let dataSize := u32 (pBuf.lLength - pBuf.lWritePtr)
    let src : Mem := fun a => ⟨block a.toNat, w.now⟩
    let single := blit pBuf.pSingleBuf (4 * pBuf.lWritePtr) src 0 cddidmaBufferSize
    let dataSize := u32 (dataSize - (cddidmaBufferSize / 4 : Nat))
    let lWritePtr := pBuf.lWritePtr + (cddidmaBufferSize / 4 : Nat)
    let lWritePtr := if dataSize = 0 then 0 else lWritePtr
    let pBuf := { pBuf with pSingleBuf := single, lWritePtr := lWritePtr }
    let w := { w with sCDDIBuffer := pBuf }
    if singleBufferSpaceAvailable pBuf ≤ (cddidmaBufferSize / 4 : Nat) ∧ w.datacdEnable then
      cdSetErrorStatus .bufFull (setCdifEnable false w)
    else w

/-! ### The netlink socket (knetlink.c) -/

/-- A netlink message; `seek` is the ordinal of the seek it answers, for
the bookkeeping only. -/
structure NlMsg where
  nlmsgPid : Int
  nlmsgLen : Nat
  nlmsgData : Nat → UInt8
  seek : Nat

/-- The character `'U'`: eject state. -/
@[simp] def charU : UInt8 := 0x55

/-- The character `'S'`: seek result. -/
@[simp] def charS : UInt8 := 0x53

/-- `memcpy` of `n` bytes. -/
def memcpy (dst src : Nat → UInt8) (n : Nat) : Nat → UInt8 :=
  fun i => if i < n then src i else dst i

/-- `memset(dst, 0, n)`. -/
def memset0 (dst : Nat → UInt8) (n : Nat) : Nat → UInt8 := memcpy dst (fun _ => 0) n

/-- `strncpy`: exactly `n` bytes are stored, zero from the first zero of the
source on. -/
def strncpy (dst src : Nat → UInt8) (n : Nat) : Nat → UInt8 :=
  fun i => if i < n then
    if (List.range (i + 1)).any (fun j => src j = 0) then 0 else src i
  else dst i

/-- `CD_SeekResultMonitor`.  The copy is bounded by the size of a pointer. -/
def cdSeekResultMonitor (res : Nat → UInt8) (w : World) : World :=
  if res 0 = charS then
    { w with seekResponse := strncpy w.seekResponse res 4, tccCompletion := w.tccCompletion + 1 }
  else w

/-- `nl_recv_msg`. -/
def nlRecvMsg (m : NlMsg) (w : World) : World :=
  let w := { w with recvPid := m.nlmsgPid, seekResult := memcpy w.seekResult m.nlmsgData 2 }
  let w :=
    if w.seekResult 0 = charU then setStateEject (w.seekResult 1).toNat w
    else if w.seekResult 0 = charS then cdSeekResultMonitor w.seekResult w
    else { w with tocBuffer := memcpy w.tocBuffer m.nlmsgData (u32 (m.nlmsgLen - 16)) }
  { w with seekResult := memset0 w.seekResult 2 }

/-- `tcr_read_tochdr`: mounting a disc. -/
def tcrReadTochdr (w : World) : World :=
  let w := setStateEject 0 w
  if w.discOut then { w with discOut := false, discAt := some w.now } else w

/-! ### Events and turns -/

/-- What can happen to the driver from outside. -/
inductive Event
  /-- The CDIF has filled half of the DMA buffer. -/
  | dma (block : Nat → UInt8)
  /-- A netlink message arrives. -/
  | msg (m : NlMsg)
  /-- The TOC header is read. -/
  | mount

/-- What an event does.  The interrupt fires only while the CDIF is enabled. -/
def occur (w : World) : Event → World
  | .dma block =>
    if w.cdifEnable then
      { cdifAdmaHandler block w with
        dmaSince := w.dmaSince + 1
        notes := .dma (singleBufferSpaceAvailable w.sCDDIBuffer) :: w.notes }
    else w
  | .msg m =>
    if m.nlmsgData 0 = charS then
      { nlRecvMsg m w with answers := (m.seek, m.nlmsgData 1) :: w.answers }
    else nlRecvMsg m w
  | .mount => tcrReadTochdr w

/-- Time passes. -/
def World.tick (w : World) : World := { w with now := w.now + 1 }

/-- One event. -/
def handle (w : World) (e : Event) : World := (occur w e).tick

/-- What the environment does while the thread is not running. -/
structure Turn where
  /-- The events, in order. -/
  events : List Event
  /-- A signal interrupts the thread if it waits interruptibly. -/
  signal : Bool
  /-- `kmalloc` finds memory. -/
  kmalloc : Bool

/-- Nothing happens. -/
def Turn.quiet : Turn := ⟨[], false, true⟩

/-- The environment of the read path. -/
abbrev Env := World → Turn

/-- Let the environment have its turn. -/
def yield (env : Env) (w : World) : World :=
  ((env w).events.foldl handle w).tick

/-- Take a note. -/
def World.note (n : Note) (w : World) : World := { w with notes := n :: w.notes }

/-! ### Initial states -/

/-- Static storage as the loader leaves it. -/
def World.boot : World where
  sCDDIBuffer := ⟨Mem.zero, 0, 0, 0⟩
  cdifEnable := false
  gCDBufStatus := .unset
  gCDErrorStatus := .noProblem
  gLastSector := 0
  gRequestSector := 0
  diffValue := 0
  chOffset := 0
  pickupseek := false
  researchCnt := 0
  cdChunkBuf := Mem.zero
  cdDevForceStop := 0
  cdDevStatus := 0
  datacdEnable := false
  stateEject := 0
  recvPid := 0
  seekResult := fun _ => 0
  seekResponse := fun _ => 0
  tocBuffer := fun _ => 0
  tccCompletion := 0
  now := 0
  seeks := 0
  seekMsf := 0
  seekAt := 0
  dmaSince := 0
  waiting := false
  answers := []
  discOut := false
  discAt := none
  notes := []

/-- The state `cd_drv_initialize` leaves. -/
def World.initial : World := cdDrvInitialize World.boot

/-- The initial state after a mount. -/
def World.mounted : World := handle World.initial .mount

end CdPlayer
