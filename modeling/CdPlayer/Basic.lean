/-
CdPlayer/Basic.lean

Machine integers, memory cells and the constants of `cd_filesystem.h`,
`cdif_api.h` and `cdif_drv.h` that the driver computes with.

The driver is built for a 32-bit ARM kernel: `int` and `long` have 32 bits,
plain `char` is unsigned.  An unsigned quantity is a `Nat`, a signed one or
an address an `Int`; where the C code can wrap, the model applies `u32`,
`s32` or `u8`.

A memory cell carries, besides its value, the time at which the CDIF
delivered it.  The code never sees that stamp; it lets statements speak of
where a byte came from.
-/
import Mathlib.Data.Int.Basic
import Mathlib.Tactic.Ring

namespace CdPlayer

/-! ### Machine integers -/

/-- Conversion to `unsigned int` / `unsigned long`. -/
def u32 (x : Int) : Nat := (x % 4294967296).toNat

/-- Conversion to `int` / `long`. -/
def s32 (x : Int) : Int := (x + 2147483648) % 4294967296 - 2147483648

/-- Conversion to `unsigned char`. -/
def u8 (x : Nat) : Nat := x % 256

theorem u32_of_lt {x : Int} (h₀ : 0 ≤ x) (h : x < 4294967296) : (u32 x : Int) = x := by
  unfold u32; omega

theorem u32_natCast {n : Nat} (h : n < 4294967296) : u32 (n : Int) = n := by
  unfold u32; omega

theorem u32_lt (x : Int) : u32 x < 4294967296 := by
  unfold u32; omega

theorem s32_of_lt {x : Int} (h₀ : -2147483648 ≤ x) (h : x < 2147483648) : s32 x = x := by
  unfold s32; omega

theorem u8_of_lt {n : Nat} (h : n < 256) : u8 n = n := Nat.mod_eq_of_lt h

/-! ### Memory -/

/-- A byte and the time at which the CDIF delivered it. -/
structure Cell where
  val : UInt8
  tag : Nat
  deriving DecidableEq, Repr

/-- Byte-addressed memory. -/
abbrev Mem := Int → Cell

/-- Static storage: zero, and older than anything delivered. -/
def Mem.zero : Mem := fun _ => ⟨0, 0⟩

/-- A 16-bit cell as its two bytes, in memory order. -/
abbrev Short := Cell × Cell

/-- `((short *)m)[i]`. -/
def shortAt (m : Mem) (i : Int) : Short := (m (2 * i), m (2 * i + 1))

/-- One stereo sample: two shorts, four bytes. -/
abbrev Sample := Short × Short

/-- The sample at sample index `i`. -/
def sampleAt (m : Mem) (i : Int) : Sample := (shortAt m (2 * i), shortAt m (2 * i + 1))

/-! ### Constants -/

/-- `SECTOR_SIZE`: user bytes of a sector. -/
@[simp] def userSectorSize : Int := 2048

/-- `CDDA_SECTOR_SIZE`: bytes of a raw sector. -/
@[simp] def cddaSectorSize : Int := 2352

/-- `CDDA_SAMPLE_SIZE`: samples of a raw sector. -/
@[simp] def cddaSampleSize : Nat := 588

/-- `CDDA_BUFFER_SIZE`: 200 raw sectors. -/
@[simp] def cddaBufferSize : Nat := 2352 * 200

/-- `CDDI_BUFFER_SIZE`: samples of the CDDI ring. -/
@[simp] def cddiBufferSize : Int := 1024 * 1024 * 2

/-- `CDDIDMA_BUFFER_SIZE`: bytes of half the DMA buffer. -/
@[simp] def cddidmaBufferSize : Nat := 8192

/-- `CD_SEEK_POSITION`. -/
@[simp] def cdSeekPosition : Nat := 6

/-- `CD_SEEK_TOLERANCE`, `CD_SEEK_POSITION*2` in the source. -/
@[simp] def cdSeekTolerance : Nat := cdSeekPosition * 2

/-- `PREVIOUS_DATA_SKIP_COUNT`. -/
@[simp] def previousDataSkipCount : Int := 5

/-- `MECA_READ_MARGIN`. -/
@[simp] def mecaReadMargin : Int := 30

/-- `CD_HEAD_SIZE`. -/
@[simp] def cdHeadSize : Nat := 12

/-- `CD_MOVE_SIZE`. -/
@[simp] def cdMoveSize : Int := 16

/-- `CD_RETRY_CNT`. -/
@[simp] def cdRetryCnt : Int := 3

/-- `CD_KMP_RETRY_CNT`. -/
@[simp] def cdKmpRetryCnt : Int := 2

/-- `CD_C3_CNT`. -/
@[simp] def cdC3Cnt : Int := 2

/-- `MINUTE_LOCA`; seconds and frames follow. -/
@[simp] def minuteLoca : Int := 12

/-- `MODE_LOCA`. -/
@[simp] def modeLoca : Int := 15

/-- `MODE1`. -/
@[simp] def mode1 : UInt8 := 1

/-- `MODE1_DATA_LOCATION`. -/
@[simp] def mode1DataLocation : Int := 16

/-- `MODE2_DATA_LOCATION`. -/
@[simp] def mode2DataLocation : Int := 24

/-- `CD_TRUE`. -/
@[simp] def cdTrue : Int := 1

/-! ### Error codes -/

/-- `DECK_ERROR`. -/
@[simp] def deckError : Int := -1

/-- `SEEK_TIME_OUT`. -/
@[simp] def seekTimeOut : Int := -3

/-- `KMP_ERROR`. -/
@[simp] def kmpError : Int := -4

/-- `FRAME_OVER`. -/
@[simp] def frameOver : Int := -5

/-- `FRAME_UNDER`. -/
@[simp] def frameUnder : Int := -6

/-- `SHOCK_DETECT`. -/
@[simp] def shockDetect : Int := -7

/-- `BUFFERING_TIME_OUT`. -/
@[simp] def bufferingTimeOut : Int := -8

/-- `CD_FORCE_STOP`. -/
@[simp] def cdForceStop : Int := -9

/-- `CD_STATUS_FORCESTOP`. -/
@[simp] def cdStatusForcestop : Int := -2

/-- The 12-byte sync pattern, as `CD_DescrambleSector` fills `Pattern`. -/
def pattern : Nat → UInt8
  | 0 => 0x00
  | 11 => 0x00
  | _ => 0xFF

end CdPlayer
