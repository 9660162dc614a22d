/-
CdPlayer/Block.lean

From the scan to the block layer: `CD_ReadSector` (cdif_drv.c),
`tcr_read_data` (cdrom_drv.c) and the work of `tcr_issue_rq` (cdrom.c) on
the current segment of a request.

Two buffers lie between the chunk and the request: `tdev->buf`, into which
`CD_ReadSector` copies as many bytes as the scan returned, and
`req->buffer`, into which `tcr_issue_rq` copies the whole segment from
there.  The scan returns `SECTOR_SIZE` however many sectors it delivered.

* `tcrIssueRq_delivers`: a successful segment delivers what the call has
  decoded, whatever the buffers held before, exactly if it is one sector
  long.
* `tcrIssueRq_stale`: a segment of two sectors whose second half is left
  over from an earlier request.
-/
import CdPlayer.Forward

namespace CdPlayer

open ByteStore

/-! ### Requests -/

/-- What `tcr_issue_rq` reads of a fetched request: its type and direction,
`blk_rq_pos` and `blk_rq_cur_sectors` in units of 512 bytes, and the
memory at `req->buffer`. -/
structure Request where
  cmdTypeFs : Bool
  read : Bool
  pos : Nat
  curSectors : Nat
  buffer : Mem

/-- `blk_rq_cur_bytes`. -/
def Request.curBytes (r : Request) : Nat := 512 * r.curSectors

/-- How the block layer is told about it. -/
inductive Completion
  /-- `__blk_end_request(req, status, bytes)`. -/
  | cur (status : Int) (bytes : Nat)
  /-- `__blk_end_request_all(req, status)`. -/
  | all (status : Int)
  deriving DecidableEq, Repr

/-- `-EIO`. -/
@[simp] def negEio : Int := -5

/-- The device: `tdev->buf` and the driver. -/
structure TcrDevice where
  buf : Mem
  driver : World

variable (env : Env) (codec : Codec)

/-- `CD_ReadSector`, to the memory `pBuff`. -/
def cdReadSector (fuel startAddr sectorSize : Nat) (pBuff : Mem) (w : World) :
    Option Int × Mem × World :=
  let s := cdDescrambleSector env codec fuel startAddr sectorSize w
  match s.result with
  | none => (none, pBuff, s.world)
  | some readByteSize =>
    if readByteSize < 0 then (some readByteSize, pBuff, s.world)
    else (some readByteSize, blit pBuff 0 s.world.cdChunkBuf 0 readByteSize.toNat, s.world)

/-- `tcr_read_data`. -/
def tcrReadData (fuel start nsector : Nat) (buff : Mem) (w : World) : Option Int × Mem × World :=
  cdReadSector env codec fuel start nsector buff w

/-- `msf`: the frame a request starts at. -/
def Request.msf (r : Request) : Nat := u32 (r.pos / 4 + 150 : Nat)

/-- `tcr_issue_rq` with a request at hand: the completion it signals, the
memory at `req->buffer` and the device afterwards. -/
def tcrIssueRq (fuel : Nat) (r : Request) (tdev : TcrDevice) :
    Option Completion × Mem × TcrDevice :=
  if r.cmdTypeFs ∧ r.read then
    let w := yield env tdev.driver
    if w.stateEject = 1 then
      (some (.all negEio), blit r.buffer 0 Mem.zero 0 r.curBytes, { tdev with driver := w })
    else
      let (ret, buf, w) := tcrReadData env codec fuel r.msf (r.curSectors / 4) tdev.buf w
      match ret with
      | none => (none, r.buffer, ⟨buf, w⟩)
      | some ret =>
        if ret ≥ 0 then
          (some (.cur 0 r.curBytes), blit r.buffer 0 buf 0 r.curBytes, ⟨buf, w⟩)
        else (some (.all negEio), r.buffer, ⟨buf, w⟩)
  else (some (.all negEio), r.buffer, tdev)

/-! ### A segment -/

/-- The scan that `tcr_issue_rq` runs for a request. -/
def segmentScan (fuel : Nat) (r : Request) (w : World) : Scan :=
  cdDescrambleSector env codec fuel r.msf (r.curSectors / 4) (yield env w)

/-- The `n` blocks of `out` are the sectors that the scan `s` has decoded, in
order, each from a block with the header wanted. -/
def DeliveredBy (startAddr n : Nat) (s : Scan) (out : Mem) : Prop :=
  ∀ k < n, Placed codec startAddr k s ∧
    ∀ i : Nat, i < 2048 → (out (2048 * k + i)).val = (s.world.cdChunkBuf (2048 * k + i)).val

variable {env codec} {fuel n : Nat} {r : Request} {w : World}

theorem segmentScan_eq (env : Env) (codec : Codec) (fuel : Nat) (r : Request) (w : World) :
    segmentScan env codec fuel r w
      = scanAt env codec fuel r.msf (r.curSectors / 4) (yield env w) fuel := rfl

/-- Every result of a call is negative or `SECTOR_SIZE`, and then every
sector has been placed. -/
theorem segmentScan_result {res : Int} (h : (segmentScan env codec fuel r w).result = some res) :
    res < 0 ∨ res = userSectorSize ∧
      ∀ k < r.curSectors / 4, Placed codec r.msf k (segmentScan env codec fuel r w) := by
  have hinv := compacted_scanAt env codec fuel r.msf (r.curSectors / 4) (yield env w) fuel
  rw [← segmentScan_eq] at hinv
  rcases hinv.done res (label_of_result h) with hneg | ⟨hres, hused⟩
  · exact .inl hneg
  · exact .inr ⟨hres, fun k hk => hinv.placed k (lt_of_lt_of_le hk hused)⟩

/-- A segment that ends with status 0: the scan has returned `SECTOR_SIZE`,
and that many bytes of the request are new. -/
theorem tcrIssueRq_success {bytes : Nat} {buf : Mem}
    (h : (tcrIssueRq env codec fuel r ⟨buf, w⟩).1 = some (.cur 0 bytes)) :
    (segmentScan env codec fuel r w).result = some userSectorSize ∧
    (tcrIssueRq env codec fuel r ⟨buf, w⟩).2.1
      = blit r.buffer 0
          (blit buf 0 (segmentScan env codec fuel r w).world.cdChunkBuf 0 2048) 0 r.curBytes := by
  by_cases htype : r.cmdTypeFs ∧ r.read
  · by_cases heject : (yield env w).stateEject = 1
    · have hrun : (tcrIssueRq env codec fuel r ⟨buf, w⟩).1 = some (.all negEio) := by
        unfold tcrIssueRq
        rw [if_pos htype]
        simp only [if_pos heject]
      rw [hrun] at h
      exact absurd h (by simp)
    · have hscan : cdDescrambleSector env codec fuel r.msf (r.curSectors / 4) (yield env w)
          = segmentScan env codec fuel r w := rfl
      unfold tcrIssueRq tcrReadData cdReadSector at h ⊢
      rw [if_pos htype] at h ⊢
      simp only [if_neg heject, hscan] at h ⊢
      rcases hres : (segmentScan env codec fuel r w).result with - | res
      · rw [hres] at h
        exact absurd h (by simp)
      · rw [hres] at h
        -- a scan that returns has failed or delivered
        rcases segmentScan_result hres with hneg | ⟨rfl, -⟩
        · simp only [if_pos hneg] at h
          rw [if_neg (by omega)] at h
          exact absurd h (by simp)
        · exact ⟨rfl, rfl⟩
  · have hrun : (tcrIssueRq env codec fuel r ⟨buf, w⟩).1 = some (.all negEio) := by
      unfold tcrIssueRq
      rw [if_neg htype]
    rw [hrun] at h
    exact absurd h (by simp)

theorem Request.curBytes_eq (h : r.curSectors = 4 * n) : r.curBytes = 2048 * n := by
  unfold Request.curBytes
  omega

/-- Beyond the first sector the request gets what the device buffer held
before. -/
theorem eq_one_of_delivered (env : Env) (codec : Codec) (fuel : Nat) (hn : 1 ≤ n)
    (hsize : r.curSectors = 4 * n)
    (hok : ∀ buf, ∃ bytes, (tcrIssueRq env codec fuel r ⟨buf, w⟩).1 = some (.cur 0 bytes))
    (hall : ∀ buf, DeliveredBy codec r.msf n (segmentScan env codec fuel r w)
      (tcrIssueRq env codec fuel r ⟨buf, w⟩).2.1) : n = 1 := by
  by_contra hne
  -- a device buffer that differs from the second sector in its first byte
  obtain ⟨b, hb⟩ : ∃ b : UInt8,
      b ≠ ((segmentScan env codec fuel r w).world.cdChunkBuf 2048).val := by
    generalize ((segmentScan env codec fuel r w).world.cdChunkBuf 2048).val = v
    by_cases hv : v = 0
    · exact ⟨1, by rw [hv]; decide⟩
    · exact ⟨0, fun h => hv h.symm⟩
  obtain ⟨bytes, hstatus⟩ := hok fun _ => ⟨b, 0⟩
  obtain ⟨-, hout⟩ := tcrIssueRq_success hstatus
  have hsecond := (hall (fun _ => ⟨b, 0⟩) 1 (by omega)).2 0 (by decide)
  have hstale : blit r.buffer 0 (blit (fun _ => (⟨b, 0⟩ : Cell)) 0
      (segmentScan env codec fuel r w).world.cdChunkBuf 0 2048) 0 (2048 * n)
        (2048 * ((1 : Nat) : Int) + ((0 : Nat) : Int)) = ⟨b, 0⟩ := by
    rw [blit_inside _ _ _ _ _ (by omega) (by push_cast; omega),
      blit_outside _ _ _ _ _ (.inr (by omega))]
  rw [hout, Request.curBytes_eq hsize, hstale] at hsecond
  exact hb hsecond

/-- A single sector is delivered. -/
theorem delivered_of_one (hsize : r.curSectors = 4) {buf : Mem} {bytes : Nat}
    (hstatus : (tcrIssueRq env codec fuel r ⟨buf, w⟩).1 = some (.cur 0 bytes)) :
    DeliveredBy codec r.msf 1 (segmentScan env codec fuel r w)
      (tcrIssueRq env codec fuel r ⟨buf, w⟩).2.1 := by
  have hbytes : r.curBytes = 2048 * 1 := Request.curBytes_eq hsize
  obtain ⟨hresult, hout⟩ := tcrIssueRq_success hstatus
  intro k hk
  obtain rfl : k = 0 := by omega
  refine ⟨?_, fun i hi => ?_⟩
  · rcases segmentScan_result hresult with hneg | ⟨-, hplaced⟩
    · exact absurd hneg (by decide)
    · exact hplaced 0 (by omega)
  · rw [hout, hbytes, blit_inside _ _ _ _ _ (by omega) (by push_cast; omega),
      blit_inside _ _ _ _ _ (by omega) (by push_cast; omega)]
    congr 2
    omega

/-- **A segment delivers its sectors exactly if it is one sector long.**  For
a segment that ends with status 0: what is copied to the request is, for
every content of the device buffer before, the data this call has decoded,
if and only if the segment is a single sector. -/
theorem tcrIssueRq_delivers (env : Env) (codec : Codec) (fuel n : Nat) (r : Request) (w : World)
    (hn : 1 ≤ n) (hsize : r.curSectors = 4 * n)
    (hok : ∀ buf, ∃ bytes, (tcrIssueRq env codec fuel r ⟨buf, w⟩).1 = some (.cur 0 bytes)) :
    (∀ buf, DeliveredBy codec r.msf n (segmentScan env codec fuel r w)
      (tcrIssueRq env codec fuel r ⟨buf, w⟩).2.1) ↔ n = 1 := by
  refine ⟨eq_one_of_delivered env codec fuel hn hsize hok, ?_⟩
  rintro rfl buf
  obtain ⟨bytes, hstatus⟩ := hok buf
  exact delivered_of_one hsize hstatus

/-! ### Two sectors -/

/-- A request for `n` sectors from frame 160 on. -/
def requestAt160 (n : Nat) : Request := ⟨true, true, 40, 4 * n, Mem.zero⟩

/-- With the sectors in the ring the request succeeds. -/
theorem requestAt160_success {n : Nat} (hn : 1 ≤ n) (hn' : n ≤ 2) (buf : Mem) :
    (tcrIssueRq (fun _ => .quiet) plainCodec 188 (requestAt160 n) ⟨buf, parkedWorld⟩).1
      = some (.cur 0 (2048 * n)) := by
  have hparked := parked_idle (quiet_streams _) parkedWorld_parked
  -- the ring holds the sectors, and the twelve that are fetched besides
  have hwindow : InWindow 450000 (yield (fun _ => .quiet) parkedWorld) 0 n := by
    refine ⟨by decide, hn, by omega, ?_, ?_⟩
    · change 159 + 0 + n < 450000
      omega
    · have havail : singleBufferDataAvailable
          (yield (fun _ => .quiet) parkedWorld).sCDDIBuffer = 10240 := by decide
      rw [havail]
      omega
  have hserved := (parked_read (quiet_streams _) (fun _ => rfl) le_rfl hparked hwindow
    188 (by omega)).1.result
  have hmsf : (requestAt160 n).msf = 160 := by
    change u32 ((40 / 4 + 150 : Nat) : Int) = 160
    decide
  have hcur : (requestAt160 n).curSectors / 4 = n := by
    change 4 * n / 4 = n
    omega
  unfold tcrIssueRq tcrReadData cdReadSector
  rw [if_pos ⟨rfl, rfl⟩]
  simp only
  rw [if_neg (by decide), hmsf, hcur]
  have hscan : (cdDescrambleSector (fun _ => .quiet) plainCodec 188 160 n
      (yield (fun _ => .quiet) parkedWorld)).result = some userSectorSize := hserved
  simp only [hscan]
  rw [if_neg (by decide)]
  simp only
  rw [if_pos (by decide)]
  change some (Completion.cur 0 (512 * (4 * n))) = _
  rw [← Nat.mul_assoc]

/-- A request for one sector gets it. -/
theorem tcrIssueRq_delivers_one :
    DeliveredBy plainCodec (requestAt160 1).msf 1
      (segmentScan (fun _ => .quiet) plainCodec 188 (requestAt160 1) parkedWorld)
      (tcrIssueRq (fun _ => .quiet) plainCodec 188 (requestAt160 1)
        ⟨fun _ => ⟨0xAA, 0⟩, parkedWorld⟩).2.1 :=
  (tcrIssueRq_delivers (fun _ => .quiet) plainCodec 188 1 (requestAt160 1) parkedWorld le_rfl rfl
    fun _ => ⟨_, requestAt160_success le_rfl (by decide) _⟩).mpr rfl _

/-- **The second sector of a request is not delivered.** -/
theorem tcrIssueRq_stale :
    ¬ ∀ (env : Env) (codec : Codec) (fuel n : Nat) (r : Request) (w : World), 1 ≤ n →
      r.curSectors = 4 * n → ∀ (buf : Mem) (bytes : Nat),
      (tcrIssueRq env codec fuel r ⟨buf, w⟩).1 = some (.cur 0 bytes) →
      DeliveredBy codec r.msf n (segmentScan env codec fuel r w)
        (tcrIssueRq env codec fuel r ⟨buf, w⟩).2.1 := by
  intro hall
  have hok := fun buf => requestAt160_success (n := 2) (by decide) le_rfl buf
  have htwo : 2 = 1 := eq_one_of_delivered (fun _ => .quiet) plainCodec 188
    (r := requestAt160 2) (w := parkedWorld) (by decide) rfl
    (fun buf => ⟨_, hok buf⟩) (fun buf => hall _ _ _ 2 _ _ (by decide) rfl buf _ (hok buf))
  exact absurd htwo (by decide)

end CdPlayer
