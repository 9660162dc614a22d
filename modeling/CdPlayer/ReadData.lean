/-
CdPlayer/ReadData.lean

From a sector address to raw samples in memory: `CD_Send_msf`,
`CD_Set_StartBuffing`, `CD_Do_StartBuffering`, `CD_Do_StopBuffering`,
`CD_CopyReadData`, `CD_ReadData` and `CD_Research_Frame` (cdif_drv.c).

The two buffering functions share their wait loop: sleep five milliseconds
at a time until enough samples are in the ring, for at most 500 sleeps.
The loop is `waitBuffered`; what each function does when the timer runs
out is its own.

`CD_ReadData` jumps back to `TRY_READ` for as long as buffering times out,
which nothing bounds.  The model counts the passes: `cdReadData env fuel`
is the call cut off after `fuel` passes, and its result is `none` when it
was cut off.
-/
import CdPlayer.Driver

namespace CdPlayer

open ByteStore

variable (env : Env)

/-! ### Seeking -/

/-- `nl_send_msf`.  Whether the message leaves depends on the peer; the
function does not report it. -/
def nlSendMsf (msf : Nat) (w : World) : World :=
  { w with seeks := w.seeks + 1, seekMsf := msf, seekAt := w.now, dmaSince := 0 }

/-- `wait_for_completion_interruptible_timeout`: what happened during the
wait is one turn; the result is positive if a completion was there at its
end, zero if the timer ran out and `-ERESTARTSYS` if a signal came. -/
def waitForCompletion (w : World) : Int × World :=
  let signal := (env w).signal
  let w := yield env w
  if 0 < w.tccCompletion then (1, { w with tccCompletion := w.tccCompletion - 1 })
  else if signal then (-512, w)
  else (0, w)

/-- `CD_Send_msf` up to the wait for the response. -/
def beginSeek (msf : Nat) (w : World) : World :=
  { nlSendMsf msf w with waiting := true }.note (.seekSent w.tccCompletion)

/-- `CD_Send_msf`. -/
def cdSendMsf (msf : Nat) (w : World) : Int × World :=
  let (ret, w) := waitForCompletion env (beginSeek msf w)
  let w := { w with waiting := false }.note (.seekEnded ret w.cdifEnable)
  if ret = 0 then (seekTimeOut, w)
  else
    let w := yield env w
    let ret := if w.seekResponse 1 = 1 then 1 else deckError
    let w := yield env w
    (ret, { w with seekResponse := memset0 w.seekResponse 2 })

/-! ### Buffering -/

/-- `CD_Set_StartBuffing`. -/
def cdSetStartBuffing (wantSectorGap : Int) (requestSampleSize : Nat) (w : World) : World :=
  let w := yield env w
  let haveSampleSize := u32 (singleBufferDataAvailable w.sCDDIBuffer)
  if wantSectorGap > 20 ∨ wantSectorGap < 0 then
    let w := cdSetBufferStatus .stop w
    setCdifEnable false (yield env w)
  else
    let w := yield env w
    if w.gCDErrorStatus = .bufFull ∧ haveSampleSize < requestSampleSize then
      let w := (cdSetBufferStatus .stop w).note (.fullBranch w.cdifEnable)
      cdSetErrorStatus .noProblem (yield env w)
    else w

/-- How the wait for samples ends. -/
inductive WaitExit
  | filled
  | shock
  | forceStop
  | expired (haveSampleSize : Nat)

/-- `while (haveSampleSize < requestSampleSize)`, with the sleeps left
before the timer runs out. -/
def waitBuffered (requestSampleSize : Nat) :
    (iWaitTimer : Nat) → (haveSampleSize : Nat) → World → WaitExit × World
  | t, haveSampleSize, w =>
    if haveSampleSize < requestSampleSize then
      let w := yield env w
      if w.gCDErrorStatus = .shock then (.shock, w)
      else
        let w := yield env w
        if w.cdDevForceStop ≠ 0 then (.forceStop, w)
        else match t with
          | 0 => (.expired haveSampleSize, w)
          | t + 1 =>
            -- msleep(5)
            let w := yield env w
            waitBuffered requestSampleSize t (u32 (singleBufferDataAvailable w.sCDDIBuffer)) w
    else (.filled, w)

/-- `iWaitTimer = 500`. -/
def waitTimer : Nat := 500

/-- Measure, then wait. -/
def waitFor (requestSampleSize : Nat) (w : World) : WaitExit × World :=
  let w := yield env w
  waitBuffered env requestSampleSize waitTimer (u32 (singleBufferDataAvailable w.sCDDIBuffer)) w

/-- `pCDDIBuf->lWritePtr = 0`. -/
def zeroWritePtr (w : World) : World :=
  { w with sCDDIBuffer := { w.sCDDIBuffer with lWritePtr := 0 } }

/-- `pCDDIBuf->lReadPtr = 0`. -/
def zeroReadPtr (w : World) : World :=
  { w with sCDDIBuffer := { w.sCDDIBuffer with lReadPtr := 0 } }

/-- Both stores; the interrupt can come before and between them. -/
def zeroPointers (w : World) : World :=
  zeroReadPtr (yield env (zeroWritePtr (yield env w)))

/-- What both functions do last when the timer runs out. -/
def giveUp (w : World) : Int × World :=
  let w := cdSetErrorStatus .missSubq (yield env w)
  let w := cdSetBufferStatus .stop w
  (bufferingTimeOut, setCdifEnable false (yield env w))

/-- `CD_Do_StartBuffering` up to its wait. -/
def enterStart (w : World) : World :=
  { w with pickupseek := false }.note (.enterStart w.sCDDIBuffer)

/-- `CD_Do_StartBuffering`: serve from the ring. -/
def cdDoStartBuffering (requestSampleSize : Nat) (w : World) : Int × World :=
  match waitFor env requestSampleSize (enterStart w) with
  | (.filled, w) => (1, w)
  | (.shock, w) => (shockDetect, w)
  | (.forceStop, w) => (cdForceStop, w)
  | (.expired haveSampleSize, w) =>
    let w := yield env w
    if w.gCDErrorStatus = .bufFull then (s32 haveSampleSize, w)
    else giveUp env (zeroPointers env w)

/-- `CD_Do_StopBuffering` up to its seek: the ring is emptied. -/
def enterStop (w : World) : World :=
  let w := zeroPointers env (w.note (.enterStop w.cdifEnable))
  { w with pickupseek := true, researchCnt := 0 }

/-- `CD_Do_StopBuffering` after a seek that did not fail: the CDIF is turned on. -/
def openStream (w : World) : World :=
  let w := yield env (cdSetBufferStatus .start w)
  (setCdifEnable true w).note (.streamOn (singleBufferDataAvailable w.sCDDIBuffer)
    (w.answers.any fun a => a.1 = w.seeks))

/-- `CD_Do_StopBuffering` up to its wait. -/
def startStream (startAddr : Nat) (w : World) : Int × World :=
  let (ret, w) := cdSendMsf env startAddr (enterStop env w)
  if ret = -1 then (ret, w) else (ret, openStream env w)

/-- `CD_Do_StopBuffering`: seek, then serve from the new stream. -/
def cdDoStopBuffering (startAddr requestSampleSize : Nat) (w : World) : Int × World :=
  let (ret, w) := startStream env startAddr w
  if ret = -1 then (ret, w)
  else
    let opened := w.gCDErrorStatus
    match waitFor env requestSampleSize w with
    | (.filled, w) => (1, cdSetErrorStatus .noProblem (yield env w))
    | (.shock, w) => (shockDetect, w)
    | (.forceStop, w) => (cdForceStop, w)
    | (.expired haveSampleSize, w) =>
      let w := yield env w
      if w.gCDErrorStatus = .bufFull then (s32 haveSampleSize, w.note (.stopExpired opened))
      else giveUp env w

/-! ### Copying out of the ring -/

/-- `for (i = 0; i < n; i++) dst[i] = src[i]` over shorts. -/
def copyShorts (dst : Mem) (d : Int) (src : Mem) (s : Int) (n : Nat) : Mem :=
  blit dst d src s (2 * n)

/-- `CD_CopyReadData`, to byte `pBuff` of the chunk. -/
def cdCopyReadData (pBuff : Int) (copySize requestSampleSize : Nat) (w : World) : World :=
  let b := w.sCDDIBuffer
  let pSingle := 4 * b.lReadPtr
  let chunk :=
    if b.lWritePtr > b.lReadPtr then
      copyShorts w.cdChunkBuf pBuff b.pSingleBuf pSingle copySize
    else if b.lWritePtr < b.lReadPtr then
      let remainSize := u32 ((b.lLength - b.lReadPtr) * 2)
      if copySize > remainSize then
        let chunk := copyShorts w.cdChunkBuf pBuff b.pSingleBuf pSingle remainSize
        copyShorts chunk (pBuff + 2 * remainSize) b.pSingleBuf 0 (copySize - remainSize)
      else copyShorts w.cdChunkBuf pBuff b.pSingleBuf pSingle copySize
    else w.cdChunkBuf
  let w := { w with cdChunkBuf := chunk }
  if requestSampleSize ≠ 0 then cdSetCHOffet copySize w else w

/-! ### Reading -/

/-- Sectors to ask for and margin sectors, as `CD_ReadData` clamps them. -/
def clampSectors (sectorSize : Nat) : Nat × Nat :=
  let maxSector := cddaBufferSize / 2352
  if maxSector ≥ sectorSize then
    if maxSector > sectorSize + cdSeekTolerance then (sectorSize, cdSeekTolerance)
    else (sectorSize, (sectorSize + cdSeekTolerance) - maxSector)
  else (maxSector - cdSeekTolerance, 0)

/-- `wantSampleSize`. -/
def wantSampleSize (sectorSize : Nat) : Nat :=
  ((clampSectors sectorSize).1 + (clampSectors sectorSize).2) * cddaSampleSize

/-- A request that leaves room for the margin is asked for as it is. -/
theorem clampSectors_eq {n : Nat} (h : n < 188) : clampSectors n = (n, 12) := by
  have hmax : cddaBufferSize / 2352 = 200 := rfl
  have htol : cdSeekTolerance = 12 := rfl
  unfold clampSectors
  simp only
  rw [if_pos (by omega), if_pos (by omega), htol]

theorem clampSectors_le (n : Nat) :
    (clampSectors n).1 ≤ 200 ∧ (clampSectors n).1 + (clampSectors n).2 ≤ 212 := by
  have hmax : cddaBufferSize / 2352 = 200 := rfl
  have htol : cdSeekTolerance = 12 := rfl
  unfold clampSectors
  simp only
  split
  · split <;> simp only <;> omega
  · simp only
    omega

theorem wantSampleSize_eq {n : Nat} (h : n < 188) : wantSampleSize n = 588 * (n + 12) := by
  unfold wantSampleSize
  rw [clampSectors_eq h]
  simp only [cddaSampleSize]
  omega

theorem wantSampleSize_le (n : Nat) : wantSampleSize n ≤ 124656 := by
  have h := (clampSectors_le n).2
  unfold wantSampleSize
  simp only [cddaSampleSize]
  omega

theorem wantSampleSize_pos (n : Nat) : 0 < wantSampleSize n := by
  have hmax : cddaBufferSize / 2352 = 200 := rfl
  have htol : cdSeekTolerance = 12 := rfl
  have hsum : 0 < (clampSectors n).1 + (clampSectors n).2 := by
    unfold clampSectors
    simp only
    split
    · split <;> simp only <;> omega
    · simp only
      omega
  unfold wantSampleSize
  exact Nat.mul_pos hsum (by decide)

/-- The check of the buffering status that precedes `TRY_READ`, and the
number of samples to wait for. -/
def checkBuffering (sectorSize : Nat) (w : World) : Nat × World :=
  let want := wantSampleSize sectorSize
  let wantSectorGap := s32 ((w.gRequestSector : Int) - w.gLastSector)
  match w.gCDBufStatus with
  | .start => (want, cdSetStartBuffing env wantSectorGap want w)
  | .stop => (want, setCdifEnable false (yield env w))
  | _ =>
    let marginSample := (cddaBufferSize / 2352 - (clampSectors sectorSize).1) * cddaSampleSize
    (want + (if marginSample > 0x3000 then 0x3000 else marginSample),
      setCdifEnable false (yield env w))

/-- `TRY_READ`, passed at most `fuel` times. -/
def tryRead (startAddr requestSampleSize : Nat) : (fuel : Nat) → World → Option Int × World
  | 0, w => (none, w)
  | fuel + 1, w =>
    let (lres, w) := match w.gCDBufStatus with
      | .start => cdDoStartBuffering env requestSampleSize w
      | .stop => cdDoStopBuffering env startAddr requestSampleSize w
      | _ => (0, w)
    if lres ≥ 0 then (some lres, w)
    else if lres = bufferingTimeOut then tryRead startAddr requestSampleSize fuel w
    else (some lres, w)

/-- `CD_ReadData`, to byte `pBuff` of the chunk. -/
def cdReadData (fuel startAddr sectorSize : Nat) (pBuff : Int) (w : World) :
    Option Int × World :=
  let (requestSampleSize, w) := checkBuffering env sectorSize w
  match tryRead env startAddr requestSampleSize fuel w with
  | (none, w) => (none, w)
  | (some lres, w) =>
    if lres ≥ 0 then
      let w := yield env w
      let w := w.note (.copied (wantSampleSize sectorSize)
        (singleBufferDataAvailable w.sCDDIBuffer))
      let w := cdCopyReadData pBuff (wantSampleSize sectorSize * 2) requestSampleSize w
      (some (s32 (wantSampleSize sectorSize * 4 : Nat)), w)
    else (some lres, w)

/-- `SingleBufferUpdateReadPointer(pCDDIBuf, n)`, with a note. -/
def updateReadPointer (n : Int) (w : World) : World :=
  let w := w.note (.advance n (singleBufferDataAvailable w.sCDDIBuffer))
  { w with sCDDIBuffer := singleBufferUpdateReadPointer w.sCDDIBuffer n }

/-- `CD_Research_Frame`. -/
def cdResearchFrame (startAddr : Nat) (w : World) : World :=
  let w := cdSetRequestSector startAddr w
  if w.gCDBufStatus = .start then
    let secdiff := s32 ((startAddr : Int) - w.gLastSector - 1)
    if secdiff ≥ 0 then
      let w := yield env w
      let datalength := u32 (singleBufferDataAvailable w.sCDDIBuffer)
      let realSector := datalength / cddaSampleSize
      if (realSector : Int) > secdiff then
        updateReadPointer (secdiff * cddaSectorSize / 4) (yield env w)
      else cdSetBufferStatus .stop w
    else w
  else w

end CdPlayer
