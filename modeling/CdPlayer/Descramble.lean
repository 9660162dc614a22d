/-
CdPlayer/Descramble.lean

`CD_DescrambleSector` (cdif_drv.c): fetch raw data, find the sector
headers in it, compare each with the sector wanted, decode and deliver.

The function is a `goto` program with two labels, `TRY_READ` and
`SEARCH_LBN`.  `Scan` is its local state at a label, `scanStep` runs the
code from one label to the next jump, and a call is the iteration of
`scanStep` from `enterScan` (`cdDescrambleSector`).

Source and destination share the chunk buffer: `psCDBuff` scans raw bytes
while `pdCDBuff`, behind it, collects user data.  `trace` records, newest
first, every access the scan makes to the chunk; no step looks at it.

`Descramble_Sector` and `C3_decoder` come from the decoder library, which
the repository holds only as an object file.  They are the parameters of
`Codec`: functions of the 2352 bytes of a block.
-/
import CdPlayer.Kmp
import CdPlayer.Msf
import CdPlayer.ReadData

namespace CdPlayer

open ByteStore

/-! ### The decoder library -/

/-- `Descramble_Sector` and `C3_decoder` on the bytes of a block. -/
structure Codec where
  descrambleSector : (Nat → UInt8) → Nat → UInt8
  c3Decoder : (Nat → UInt8) → (retryCnt : Int) → Int × (Nat → UInt8)

/-- The 2352 bytes at `ps`. -/
def blockAt (m : Mem) (ps : Int) : Nat → UInt8 :=
  fun i => if i < 2352 then (m (ps + i)).val else 0

/-- Overwrite the 2352 bytes at `ps`; a byte keeps the stamp of the one it
replaces. -/
def putBlock (m : Mem) (ps : Int) (blk : Nat → UInt8) : Mem :=
  mapBlock m ps 2352 fun i c => { c with val := blk i.toNat }

/-! ### The state at a label -/

/-- One access of the scan to the chunk. -/
inductive Access
  /-- `CD_ReadData` has placed `size` bytes at `off`. -/
  | fetch (off size : Int)
  /-- `CD_KmpPatternSearch` has read `len` bytes from `off` on. -/
  | search (off len : Int)
  /-- `Descramble_Sector` or `C3_decoder` has worked on the block at `off`. -/
  | block (off : Int)
  /-- The 2048 bytes at `src` have been copied to `dst`. -/
  | copy (dst src : Int)
  /-- Sector `k` of the request has been delivered from this raw block. -/
  | accepted (k : Nat) (blk : Nat → Cell)

/-- Where the program stands. -/
inductive Label
  | tryRead
  | searchLbn
  | returned (res : Int)
  /-- `CD_ReadData` was cut off. -/
  | hung
  deriving DecidableEq

/-- The locals of `CD_DescrambleSector` at a label, and the driver. -/
structure Scan where
  label : Label
  usedSectNum : Nat
  psCDBuff : Int
  pdCDBuff : Int
  frameRetry : Int
  c3Retry : Int
  kmpRetry : Int
  kmpcnt : Int
  goMSF : Nat
  readSize : Int
  trace : List Access
  world : World

/-- The value returned, once there is one. -/
def Scan.result (s : Scan) : Option Int :=
  match s.label with
  | .returned res => some res
  | _ => none

@[simp] def Scan.goto (l : Label) (s : Scan) : Scan := { s with label := l }

@[simp] def Scan.log (a : Access) (s : Scan) : Scan := { s with trace := a :: s.trace }

@[simp] def Scan.onWorld (f : World → World) (s : Scan) : Scan := { s with world := f s.world }

section
variable (env : Env) (codec : Codec)

/-! ### Pieces of the code between the labels -/

/-- `psCDBuff += n`, and the read pointer with it. -/
def Scan.move (n : Int) (s : Scan) : Scan :=
  { s with
    psCDBuff := s.psCDBuff + n
    world := updateReadPointer (n / 4) (yield env s.world) }

/-- `CD_SetBufferStatus(CD_BUF_STOP)`, then a jump. -/
def Scan.stopAndGoto (l : Label) (s : Scan) : Scan :=
  (s.onWorld (cdSetBufferStatus .stop)).goto l

/-- A mis-positioned read that is tried again. -/
def Scan.retryFrame (secdiff : Int) (s : Scan) : Scan :=
  let s := if s.world.pickupseek then
    { s with frameRetry := s.frameRetry - 1 }.onWorld (cdSetDiffValue secdiff) else s
  s.stopAndGoto .tryRead

/-- Run `f`, the decoder's part, on the block at `psCDBuff`. -/
def Scan.inPlace (blk : Nat → UInt8) (s : Scan) : Scan :=
  (s.onWorld fun w => { w with cdChunkBuf := putBlock w.cdChunkBuf s.psCDBuff blk }).log
    (.block s.psCDBuff)

/-- The byte at offset `i` of the block under the scan pointer. -/
def Scan.byte (s : Scan) (i : Int) : UInt8 := (s.world.cdChunkBuf (s.psCDBuff + i)).val

/-- `frame`: the header of the block under the scan pointer, decoded. -/
def Scan.frame (s : Scan) : Nat :=
  cdBcdmsf2frame (packMsf (s.byte minuteLoca).toNat (s.byte (minuteLoca + 1)).toNat
    (s.byte (minuteLoca + 2)).toNat)

/-- `data location` of a block by its mode byte. -/
def dataLocation (lmode : UInt8) : Int :=
  if lmode = mode1 then mode1DataLocation else mode2DataLocation

/-! ### `TRY_READ` -/

/-- From `TRY_READ` to the first search of the round. -/
def tryReadStep (fuel startAddr sectorSize : Nat) (s : Scan) : Scan :=
  let goMSF := u32 ((startAddr + s.usedSectNum : Nat) + cdGetDiffValue)
  let reqSize := u32 ((sectorSize : Int) - s.usedSectNum)
  let (readSize, w) := cdReadData env fuel goMSF reqSize s.pdCDBuff s.world
  let s := { s with
    kmpcnt := cdKmpRetryCnt, psCDBuff := s.pdCDBuff, goMSF := goMSF, world := w }
  match readSize with
  | none => s.goto .hung
  | some readSize =>
    if readSize ≤ 0 then s.goto (.returned readSize)
    else ({ s with readSize := readSize }.log (.fetch s.pdCDBuff readSize)).goto .searchLbn

/-! ### `SEARCH_LBN` -/

/-- `C3_decoder(psCDBuff, CD_C3_CNT)`: its result, and the block corrected.
An uncorrectable block stops the stream and costs a retry. -/
def Scan.correct (s : Scan) : Int × Scan :=
  let (res, blk) := codec.c3Decoder (blockAt s.world.cdChunkBuf s.psCDBuff) cdC3Cnt
  let s := s.inPlace blk
  (res, if res < cdTrue then
    { s with c3Retry := s.c3Retry - 1 }.onWorld (cdSetBufferStatus .stop) else s)

/-- Deliver the data of the block at the scan pointer and pass on.  `raw` is
the block as it was found, `lmode` its mode byte. -/
def Scan.accept (startAddr : Nat) (raw : Nat → Cell) (lmode : UInt8) (s : Scan) : Scan :=
  let src := s.psCDBuff + dataLocation lmode
  let s := (s.onWorld fun w =>
    cdSetLastSector (u32 (startAddr + s.usedSectNum : Nat))
      { w with cdChunkBuf := copyUp w.cdChunkBuf s.pdCDBuff src 2048 })
  let s := (s.log (.copy s.pdCDBuff src)).log (.accepted s.usedSectNum raw)
  let s := s.move env cddaSectorSize
  { s with
    pdCDBuff := s.pdCDBuff + userSectorSize, frameRetry := cdRetryCnt
    usedSectNum := s.usedSectNum + 1 }

/-- The header is the one wanted: correct the block, deliver its data. -/
def deliverStep (startAddr sectorSize : Nat) (raw : Nat → Cell) (lmode : UInt8) (s : Scan) :
    Scan :=
  let (res, s) := s.correct codec
  if res < cdTrue ∧ s.c3Retry > 0 then s.goto .tryRead
  else
    let s := s.accept env startAddr raw lmode
    if s.usedSectNum < sectorSize then s.goto .searchLbn else s.goto (.returned userSectorSize)

/-- The header lies behind the one wanted. -/
def frameOverStep (secdiff : Int) (s : Scan) : Scan :=
  if s.frameRetry ≤ 0 then s.goto (.returned frameOver)
  else if s.world.researchCnt > previousDataSkipCount then s.retryFrame secdiff
  else (s.move env userSectorSize).goto .searchLbn

/-- The header lies before the one wanted. -/
def frameUnderStep (frame : Nat) (secdiff : Int) (s : Scan) : Scan :=
  if s.frameRetry ≤ 0 then s.goto (.returned frameUnder)
  else
    let s := s.onWorld (yield env)
    let datalength := u32 (singleBufferDataAvailable s.world.sCDDIBuffer)
    let realSector := datalength / cddaSampleSize
    if frame < s.goMSF then (s.move env userSectorSize).goto .searchLbn
    else if realSector ≥ u32 secdiff then
      (s.move env (secdiff * cddaSectorSize - cdMoveSize)).goto .searchLbn
    else if s.world.researchCnt > previousDataSkipCount then s.retryFrame secdiff
    else (s.move env userSectorSize).goto .searchLbn

/-- `Descramble_Sector(psCDBuff)`, and one more header searched. -/
def Scan.descramble (s : Scan) : Scan :=
  (s.inPlace (codec.descrambleSector (blockAt s.world.cdChunkBuf s.psCDBuff))).onWorld
    fun w => { w with researchCnt := w.researchCnt + 1 }

/-- Descramble the block at the scan pointer and compare its header. -/
def headerStep (startAddr sectorSize : Nat) (s : Scan) : Scan :=
  let raw : Nat → Cell := fun i => s.world.cdChunkBuf (s.psCDBuff + i)
  let s := s.descramble codec
  let requestFrame := u32 (startAddr + s.usedSectNum : Nat)
  let secdiff := s32 ((startAddr + s.usedSectNum : Nat) - (s.frame : Int))
  if s.frame = requestFrame then deliverStep env codec startAddr sectorSize raw (s.byte modeLoca) s
  else if s.frame > requestFrame then frameOverStep env secdiff s
  else frameUnderStep env s.frame secdiff s

/-- From `SEARCH_LBN` to the next jump. -/
def searchLbnStep (startAddr sectorSize : Nat) (s : Scan) : Scan :=
  let kmalloc := (env s.world).kmalloc
  let s := s.onWorld (yield env)
  let (res, read) := cdKmpPatternSearch kmalloc (fun i => s.byte i) 2352 pattern cdHeadSize
  let s := s.log (.search s.psCDBuff read)
  if res < 0 ∧ s.kmpcnt > 0 then
    ({ s.move env userSectorSize with kmpcnt := s.kmpcnt - 1 }).goto .searchLbn
  else if res < 0 then
    let s : Scan := { s with kmpRetry := s.kmpRetry - 1 }.onWorld (cdSetBufferStatus .stop)
    if s.kmpRetry > 0 then s.goto .tryRead else s.goto (.returned kmpError)
  else
    let s := (s.move env res).onWorld (yield env)
    if s.world.cdDevForceStop ≠ 0 then s.goto (.returned cdForceStop)
    else headerStep env codec startAddr sectorSize s

/-! ### The call -/

/-- From one label to the next; a finished call stays where it is. -/
def scanStep (fuel startAddr sectorSize : Nat) (s : Scan) : Scan :=
  match s.label with
  | .tryRead => tryReadStep env fuel startAddr sectorSize s
  | .searchLbn => searchLbnStep env codec startAddr sectorSize s
  | _ => s

theorem scanStep_tryRead {fuel startAddr n : Nat} {s : Scan} (h : s.label = .tryRead) :
    scanStep env codec fuel startAddr n s = tryReadStep env fuel startAddr n s := by
  unfold scanStep
  rw [h]

theorem scanStep_searchLbn {fuel startAddr n : Nat} {s : Scan} (h : s.label = .searchLbn) :
    scanStep env codec fuel startAddr n s = searchLbnStep env codec startAddr n s := by
  unfold scanStep
  rw [h]

/-- From the call to the first `TRY_READ`.  The chunk starts at offset 0. -/
def enterScan (startAddr : Nat) (w : World) : Scan :=
  let w := yield env w
  let s : Scan := {
    label := .tryRead, usedSectNum := 0, psCDBuff := 0, pdCDBuff := 0
    frameRetry := cdRetryCnt, c3Retry := cdC3Cnt, kmpRetry := cdKmpRetryCnt, kmpcnt := 0
    goMSF := 0, readSize := 0, trace := [], world := w }
  if w.cdDevForceStop ≠ 0 then s.goto (.returned cdForceStop)
  else s.onWorld (cdResearchFrame env startAddr)

/-- `CD_DescrambleSector`, cut off after `fuel` jumps. -/
def cdDescrambleSector (fuel startAddr sectorSize : Nat) (w : World) : Scan :=
  (scanStep env codec fuel startAddr sectorSize)^[fuel] (enterScan env startAddr w)

end

/-- A finished call stays where it is. -/
theorem iterate_returned {env : Env} {codec : Codec} {fuel startAddr n : Nat} {s : Scan} {res : Int}
    (h : s.label = .returned res) (k : Nat) :
    (scanStep env codec fuel startAddr n)^[k] s = s := by
  induction k with
  | zero => rfl
  | succ k ih =>
    rw [Function.iterate_succ_apply']
    rw [ih]
    unfold scanStep
    rw [h]

/-! ### What a header says

`CD_DescrambleSector` compares frame numbers, not bytes: it never asks
whether the digits are decimal or the fields in range. -/

/-- `msf`: the three header bytes of the block under the scan pointer. -/
def Scan.msf (s : Scan) : Nat :=
  packMsf (s.byte minuteLoca).toNat (s.byte (minuteLoca + 1)).toNat (s.byte (minuteLoca + 2)).toNat

/-- The value of a byte read as two digits, decimal or not. -/
def digits (b : UInt8) : Nat := 10 * (b.toNat / 16) + b.toNat % 16

theorem Scan.frame_digits (s : Scan) : s.frame
    = 4500 * digits (s.byte minuteLoca) + 75 * digits (s.byte (minuteLoca + 1))
      + digits (s.byte (minuteLoca + 2)) := by
  have hdigits : ∀ b : UInt8, cdBcd2hex b.toNat = digits b := fun b => cdBcd2hex_eq b.toNat_lt
  have hpack : s.frame = _ :=
    cdBcdmsf2frame_pack (s.byte _).toNat_lt (s.byte _).toNat_lt (s.byte _).toNat_lt
  rw [hpack, hdigits, hdigits, hdigits]
  omega

/-- The header bytes are valid binary-coded fields. -/
def Scan.ValidHeader (s : Scan) : Prop :=
  ValidBcd (s.byte minuteLoca).toNat (s.byte (minuteLoca + 1)).toNat
    (s.byte (minuteLoca + 2)).toNat

/-- **What header is taken for a sector.**  The comparison with the request
`r` succeeds exactly when the digits of the three bytes, weighted, give `r`;
it succeeds on the canonical encoding of `r`, and among valid headers on no
other. -/
theorem frame_eq_request (codec : Codec) (s : Scan) (r : Nat) (hr : r < 450000) :
    let d := s.descramble codec
    (d.frame = r ↔ 4500 * digits (d.byte minuteLoca) + 75 * digits (d.byte (minuteLoca + 1))
      + digits (d.byte (minuteLoca + 2)) = r) ∧
    (d.msf = cdFrame2msf r → d.frame = r) ∧
    (d.ValidHeader → d.frame = r → d.msf = cdFrame2msf r) := by
  intro d
  refine ⟨by rw [d.frame_digits], fun hmsf => ?_, fun hvalid hframe => ?_⟩
  · have hround := cdBcdmsf2frame_frame2msf (show r < 720000 by omega)
    rw [← hmsf] at hround
    exact hround
  · rw [← hframe]
    exact hvalid.frame2msf.2.symm

/-- A decoder that finds nothing scrambled and nothing to correct. -/
def plainCodec : Codec := ⟨fun blk => blk, fun blk _ => (1, blk)⟩

/-- A block at offset 0 with the header `m:s:f`. -/
def headed (m s f : UInt8) : Scan :=
  { label := .searchLbn, usedSectNum := 0, psCDBuff := 0, pdCDBuff := 0, frameRetry := cdRetryCnt,
    c3Retry := cdC3Cnt, kmpRetry := cdKmpRetryCnt, kmpcnt := 0, goMSF := 0, readSize := 0,
    trace := []
    world := { World.initial with
      cdChunkBuf := fun a => ⟨if a = 12 then m else if a = 13 then s else if a = 14 then f else 0,
        0⟩ } }

theorem cdFrame2msf_9000 : cdFrame2msf 9000 = packMsf 0x02 0 0 := by
  rw [cdFrame2msf_eq (by decide), cdHex2bcd_eq (by decide), cdHex2bcd_eq (by decide)]

/-- Sector 02:00:00 is taken with its own header. -/
theorem frame_eq_request_canonical : ((headed 0x02 0 0).descramble plainCodec).frame = 9000 :=
  (frame_eq_request plainCodec (headed 0x02 0 0) 9000 (by decide)).2.1
    (by rw [cdFrame2msf_9000]; decide)

/-- The code takes the header 01:60:00 for sector 02:00:00. -/
theorem sixtySeconds_taken :
    ((headed 0x01 0x60 0).descramble plainCodec).frame = 9000 ∧
    ((headed 0x01 0x60 0).descramble plainCodec).msf ≠ cdFrame2msf 9000 := by
  constructor
  · rw [Scan.frame_digits]
    decide
  · rw [cdFrame2msf_9000]
    decide

end CdPlayer
