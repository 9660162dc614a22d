/-
CdPlayer/Forward.lean

Forward reads out of the ring.

The reader is parked at the first byte of the sector after the last one
delivered (`Parked`).  A call for a sector at most nineteen further on
skips to it, takes what is buffered, delivers, and parks again; no seek is
sent.

Main result: `forward_reads`, for any number of such reads.
-/
import CdPlayer.Buffering
import CdPlayer.Sectors

namespace CdPlayer

open ByteStore Run

variable {x : Nat → Nat → Stream} {env : Env} {codec : Codec} {w w' : World}

/-! ### Reading from the ring -/

/-- Enough is buffered, so there is no wait. -/
theorem waitFor_enough {req : Nat}
    (h : req ≤ u32 (singleBufferDataAvailable (yield env w).sCDDIBuffer)) :
    waitFor env req w = (.filled, yield env w) := by
  unfold waitFor
  simp only
  generalize u32 (singleBufferDataAvailable (yield env w).sCDDIBuffer) = have_ at h ⊢
  have hdone : ∀ t, waitBuffered env req t have_ (yield env w) = (.filled, yield env w) := by
    intro t
    cases t <;> (unfold waitBuffered; rw [if_neg (by omega)])
  exact hdone waitTimer

/-- **What the copy brings into the chunk**: the stream from the reader on. -/
theorem Flowing.copied (h : Flowing x w) (p : Int) (want req : Nat) (hpos : 0 < want)
    (havail : (want : Int) ≤ singleBufferDataAvailable w.sCDDIBuffer) :
    Steady x 0 w (cdCopyReadData p (2 * want) req w) ∧
    (cdCopyReadData p (2 * want) req w).researchCnt = w.researchCnt ∧
    ∀ a, p ≤ a → a < p + 4 * want →
      ((cdCopyReadData p (2 * want) req w).cdChunkBuf a).val
        = x w.seeks w.seekMsf (w.readerPos + (a - p)) := by
  have hwindow := cdCopyReadData_window p req h.ring hpos havail
  obtain ⟨chunk, offset, hsame⟩ := cdCopyReadData_same p (2 * want) req w
  refine ⟨?_, ?_, fun a h₁ h₂ => ?_⟩
  · rw [hsame]
    exact (Steady.refl h).own rfl rfl rfl rfl rfl rfl rfl rfl rfl
  · rw [hsame]
  · rw [hwindow]
    simp only
    rw [if_pos ⟨h₁, h₂⟩]
    exact h.bytes (a - p) (by omega) (by omega)

/-- The status check of a stream that has what is wanted. -/
theorem checkBuffering_enough (henv : env.Obeys (Streams x)) (h : Flowing x w)
    (hstatus : w.gCDBufStatus = .start) {n : Nat} (hn : n < 188)
    (hgap : 0 ≤ s32 ((w.gRequestSector : Int) - w.gLastSector))
    (hgap' : s32 ((w.gRequestSector : Int) - w.gLastSector) ≤ 20)
    (havail : 588 * ((n : Int) + 12) ≤ singleBufferDataAvailable w.sCDDIBuffer) :
    checkBuffering env n w = (588 * (n + 12), yield env (yield env w)) := by
  have hturn := h.yield henv
  have hu := hturn.flowing.ring.u32_dataAvailable
  have hmore := hturn.avail
  unfold checkBuffering
  simp only [hstatus, wantSampleSize_eq hn]
  unfold cdSetStartBuffing
  simp only
  rw [if_neg (by omega), if_neg (fun hfull => absurd hfull.2 (by omega))]

/-- **A read served from the ring.** -/
theorem cdReadData_enough (henv : env.Obeys (Streams x)) (h : Flowing x w)
    (hstatus : w.gCDBufStatus = .start) {n : Nat} (hn : n < 188)
    (hgap : 0 ≤ s32 ((w.gRequestSector : Int) - w.gLastSector))
    (hgap' : s32 ((w.gRequestSector : Int) - w.gLastSector) ≤ 20)
    (havail : 588 * ((n : Int) + 12) ≤ singleBufferDataAvailable w.sCDDIBuffer)
    (fuel addr : Nat) (p : Int) :
    ∃ w', cdReadData env (fuel + 1) addr n p w = (some (2352 * ((n : Int) + 12)), w') ∧
      Steady x 0 w w' ∧ w'.researchCnt = w.researchCnt ∧
      ∀ a, p ≤ a → a < p + 2352 * ((n : Int) + 12) →
        (w'.cdChunkBuf a).val = x w.seeks w.seekMsf (w.readerPos + (a - p)) := by
  have hcheck := checkBuffering_enough henv h hstatus hn hgap hgap' havail
  have htwo := (h.yield henv).turn henv
  have henter : Steady x 0 w (enterStart (yield env (yield env w))) :=
    htwo.own rfl rfl rfl rfl rfl rfl rfl rfl rfl
  have hthree := henter.turn henv
  have hstart : cdDoStartBuffering env (588 * (n + 12)) (yield env (yield env w))
      = (1, yield env (enterStart (yield env (yield env w)))) := by
    have hu := hthree.flowing.ring.u32_dataAvailable
    have hmore := hthree.avail
    unfold cdDoStartBuffering
    rw [waitFor_enough (by omega)]
  -- all that is waited for is there, and the first pass ends the loop
  have htry : tryRead env addr (588 * (n + 12)) (fuel + 1) (yield env (yield env w))
      = (some 1, yield env (enterStart (yield env (yield env w)))) := by
    have hst : (yield env (yield env w)).gCDBufStatus = .start := htwo.bufStatus.trans hstatus
    unfold tryRead
    simp only [hst, hstart]
    rfl
  have hrun := cdReadData_of_some env (fuel + 1) addr n p (w := w) (r := 1)
    (by rw [hcheck, htry]) (by decide)
  rw [hcheck, htry, wantSampleSize_eq hn] at hrun
  have hcopy : Steady x 0 w (copyState env n (yield env (enterStart (yield env (yield env w))))) :=
    (hthree.turn henv).own rfl rfl rfl rfl rfl rfl rfl rfl rfl
  have hcnt : (copyState env n (yield env (enterStart (yield env (yield env w))))).researchCnt
      = w.researchCnt := by
    change (yield env (yield env (enterStart (yield env (yield env w))))).researchCnt = _
    rw [yield_researchCnt, yield_researchCnt]
    change (yield env (yield env w)).researchCnt = _
    rw [yield_researchCnt, yield_researchCnt]
  generalize copyState env n _ = u at hrun hcopy hcnt
  have hmore := hcopy.avail
  obtain ⟨hsteady, hcnt', hbytes⟩ := hcopy.flowing.copied p (588 * (n + 12))
    (588 * (n + 12)) (by omega) (by push_cast; omega)
  have hval : ((588 * (n + 12) : Nat) : Int) * 4 = 2352 * ((n : Int) + 12) := by
    push_cast
    ring
  rw [hval] at hrun
  refine ⟨_, hrun, by simpa using hcopy.trans hsteady, hcnt'.trans hcnt, fun a h₁ h₂ => ?_⟩
  rw [hbytes a h₁ (by push_cast; omega), hcopy.seeks, hcopy.seekMsf, hcopy.pos]
  simp

/-! ### A forward read -/

/-- `CD_Research_Frame` skips `d` sectors that are buffered. -/
theorem cdResearchFrame_skip (henv : env.Obeys (Streams x)) (h : Flowing x w)
    (hstatus : w.gCDBufStatus = .start) {d : Nat} (hd : w.gLastSector + 1 + d < 450000)
    (havail : 588 * ((d : Int) + 1) ≤ singleBufferDataAvailable w.sCDDIBuffer) :
    Steady x (588 * d) (cdSetRequestSector (w.gLastSector + 1 + d) w)
      (cdResearchFrame env (w.gLastSector + 1 + d) w) ∧
    (cdResearchFrame env (w.gLastSector + 1 + d) w).gLastSector = w.gLastSector := by
  have hreq : Steady x 0 (cdSetRequestSector (w.gLastSector + 1 + d) w)
      (cdSetRequestSector (w.gLastSector + 1 + d) w) :=
    Steady.refl (h.own rfl rfl rfl rfl rfl rfl rfl)
  have hturn := hreq.turn henv
  have hu := hturn.flowing.ring.u32_dataAvailable
  have hmore : singleBufferDataAvailable w.sCDDIBuffer - 0 ≤ _ := hturn.avail
  -- `secdiff`, and the samples that it stands for
  have hdiff : s32 (((w.gLastSector + 1 + d : Nat) : Int)
      - (cdSetRequestSector (w.gLastSector + 1 + d) w).gLastSector - 1) = d := by
    change s32 (((w.gLastSector + 1 + d : Nat) : Int) - w.gLastSector - 1) = d
    rw [s32_of_lt (by omega) (by omega)]
    omega
  have hskip : (d : Int) * cddaSectorSize / 4 = 588 * d := by
    simp only [cddaSectorSize]
    omega
  have hmove := hturn.move henv (n := 588 * (d : Int)) (by omega) (by omega)
  -- they are buffered, so the skip is taken
  have hrun : cdResearchFrame env (w.gLastSector + 1 + d) w
      = updateReadPointer (588 * d) (yield env (yield env
          (cdSetRequestSector (w.gLastSector + 1 + d) w))) := by
    unfold cdResearchFrame
    simp only
    rw [if_pos (show (cdSetRequestSector (w.gLastSector + 1 + d) w).gCDBufStatus = .start from
      hstatus), hdiff, if_pos (Int.natCast_nonneg d), hskip, if_pos ?_]
    simp only [cddaSampleSize]
    omega
  rw [hrun]
  refine ⟨by simpa using hmove, ?_⟩
  change (yield env (yield env (cdSetRequestSector (w.gLastSector + 1 + d) w))).gLastSector = _
  rw [yield_gLastSector, yield_gLastSector]
  rfl

/-- The reader stands at the first byte of the sector after the last one
delivered; the sectors from there on, up to frame `m`, decode. -/
structure Parked (codec : Codec) (x : Nat → Nat → Stream) (user : Nat → Nat → UInt8) (m : Nat)
    (w : World) : Prop where
  flowing : Flowing x w
  status : w.gCDBufStatus = .start
  sectors : ∀ j : Nat, w.gLastSector + 1 + j < m →
    GoodSector codec (w.gLastSector + 1 + j) (user (w.gLastSector + 1 + j))
      ((x w.seeks w.seekMsf).block (w.readerPos + 2352 * j))

/-- A read of `n` sectors, `d` further on than the next one, that the buffered
window covers. -/
structure InWindow (m : Nat) (w : World) (d n : Nat) : Prop where
  near : d ≤ 19
  pos : 1 ≤ n
  size : n ≤ 187
  frames : w.gLastSector + d + n < m
  avail : 588 * ((d : Int) + n + 12) ≤ singleBufferDataAvailable w.sCDDIBuffer

/-- What such a read does. -/
structure ServedForward (user : Nat → Nat → UInt8) (d n : Nat) (w : World) (s : Scan) : Prop where
  result : s.result = some userSectorSize
  data : ∀ k, k < n → ∀ i : Nat, i < 2048 →
    (s.world.cdChunkBuf (2048 * k + i)).val = user (w.gLastSector + 1 + d + k) i
  noSeek : s.world.seeks = w.seeks
  lastSector : s.world.gLastSector = w.gLastSector + d + n
  readPtr : s.world.sCDDIBuffer.lReadPtr
    = (w.sCDDIBuffer.lReadPtr + 588 * (d + n)) % w.sCDDIBuffer.lLength
  status : s.world.gCDBufStatus = .start

/-- The state after a `CD_ReadData` that has returned `v` and leaves the driver
at `u`. -/
structure RoundStart (startAddr : Nat) (s : Scan) (v : Int) (u : World) (s' : Scan) : Prop where
  label : s'.label = .searchLbn
  used : s'.usedSectNum = s.usedSectNum
  scan : s'.psCDBuff = s.pdCDBuff
  dst : s'.pdCDBuff = s.pdCDBuff
  frameRetry : s'.frameRetry = s.frameRetry
  kmpcnt : s'.kmpcnt = cdKmpRetryCnt
  goMSF : s'.goMSF = u32 ((startAddr + s.usedSectNum : Nat) + cdGetDiffValue)
  trace : s'.trace = .fetch s.pdCDBuff v :: s.trace
  world : s'.world = u

theorem tryReadStep_some (env : Env) (fuel startAddr n : Nat) {s : Scan} {v : Int} {u : World}
    (h : cdReadData env fuel (u32 ((startAddr + s.usedSectNum : Nat) + cdGetDiffValue))
      (u32 ((n : Int) - s.usedSectNum)) s.pdCDBuff s.world = (some v, u)) (hv : 0 < v) :
    RoundStart startAddr s v u (tryReadStep env fuel startAddr n s) := by
  unfold tryReadStep
  simp only [h]
  rw [if_neg (by omega)]
  exact ⟨rfl, rfl, rfl, rfl, rfl, rfl, rfl, rfl, rfl⟩

/-- The first jump of a forward read: the window is in the chunk. -/
theorem parked_fetch (codec : Codec) (henv : env.Obeys (Streams x)) {user : Nat → Nat → UInt8}
    {m : Nat} (hm : m ≤ 450000) (h : Parked codec x user m w) {d n : Nat} (hread : InWindow m w d n)
    (fuel : Nat) :
    ∃ s, scanStep env codec (fuel + 1) (w.gLastSector + 1 + d) n
        (enterScan env (w.gLastSector + 1 + d) w) = s ∧
      Scanning x (w.readerPos + 2352 * d) (2352 * ((n : Int) + 12)) 0 s ∧
      s.label = .searchLbn ∧ s.psCDBuff = 0 ∧ s.pdCDBuff = 0 ∧ s.usedSectNum = 0 ∧
      Steady x (588 * d) (cdSetRequestSector (w.gLastSector + 1 + d) w) s.world := by
  have hframes := hread.frames
  have havail := hread.avail
  have hnear := hread.near
  have hpos := hread.pos
  have hsize := hread.size
  have hturn := h.flowing.yield henv
  have hmore := hturn.avail
  have hlast := yield_gLastSector env w
  obtain ⟨hskip, hlast'⟩ := cdResearchFrame_skip henv hturn.flowing
    (hturn.bufStatus.trans h.status) (d := d) (by rw [hlast]; omega) (by omega)
  rw [hlast] at hskip hlast'
  generalize hw₁ : cdResearchFrame env (w.gLastSector + 1 + d) (yield env w) = w₁ at hskip hlast'
  have hmore₁ : singleBufferDataAvailable (yield env w).sCDDIBuffer - 588 * (d : Int)
      ≤ singleBufferDataAvailable w₁.sCDDIBuffer := hskip.avail
  have hreq : w₁.gRequestSector = w.gLastSector + 1 + d := hskip.requestSector
  have hgap : s32 ((w₁.gRequestSector : Int) - w₁.gLastSector) = d + 1 := by
    rw [hreq, hlast', s32_of_lt (by omega) (by omega)]
    omega
  obtain ⟨w₂, hrun, hsteady, -, hbytes⟩ := cdReadData_enough henv hskip.flowing
    (hskip.bufStatus.trans (hturn.bufStatus.trans h.status)) (n := n) (by omega)
    (by rw [hgap]; omega) (by rw [hgap]; omega) (by omega) fuel
    (u32 ((w.gLastSector + 1 + d + 0 : Nat) + cdGetDiffValue)) 0
  have hforce : (yield env w).cdDevForceStop = 0 := hturn.flowing.force
  have hn : u32 ((n : Int) - (0 : Nat)) = n := by
    rw [Nat.cast_zero, sub_zero]
    exact u32_natCast (by omega)
  -- the request register is the thread's, so it may be set before the turn as well
  have hstart : Steady x 0 (cdSetRequestSector (w.gLastSector + 1 + d) w)
      (cdSetRequestSector (w.gLastSector + 1 + d) (yield env w)) :=
    ⟨hturn.flowing.own rfl rfl rfl rfl rfl rfl rfl,
      hturn.pos, hturn.avail, hturn.readPtr, hturn.seeks, hturn.seekMsf, hturn.bufStatus, rfl⟩
  have hall : Steady x (588 * d) (cdSetRequestSector (w.gLastSector + 1 + d) w) w₂ := by
    simpa using (hstart.trans hskip).trans hsteady
  have hpos₁ : w₁.readerPos = w.readerPos + 2352 * d := by
    have h₁ := hskip.pos
    have h₂ : (cdSetRequestSector (w.gLastSector + 1 + d) (yield env w)).readerPos
      = w.readerPos + 4 * 0 := hturn.pos
    omega
  have hpos₂ := hsteady.pos
  have havail₂ := hsteady.avail
  obtain ⟨s₀, henter, hlabel, hused, hpd, hworld⟩ : ∃ s₀,
      enterScan env (w.gLastSector + 1 + d) w = s₀ ∧ s₀.label = .tryRead ∧
      s₀.usedSectNum = 0 ∧ s₀.pdCDBuff = 0 ∧ s₀.world = w₁ := by
    refine ⟨_, rfl, ?_⟩
    unfold enterScan
    simp only
    rw [if_neg (fun hne => hne hforce), ← hw₁]
    exact ⟨rfl, rfl, rfl, rfl⟩
  have hround := tryReadStep_some env (fuel + 1) (w.gLastSector + 1 + d) n (s := s₀)
    (by rw [hused, hpd, hworld, hn]; exact hrun) (by omega)
  have hstep : scanStep env codec (fuel + 1) (w.gLastSector + 1 + d) n
      (enterScan env (w.gLastSector + 1 + d) w)
        = tryReadStep env (fuel + 1) (w.gLastSector + 1 + d) n s₀ := by
    rw [henter]
    exact scanStep_tryRead env codec hlabel
  refine ⟨_, hstep, ?_⟩
  generalize tryReadStep env (fuel + 1) (w.gLastSector + 1 + d) n s₀ = s at hround
  have hps : s.psCDBuff = 0 := hround.scan.trans hpd
  refine ⟨⟨?_, by omega, by omega, fun a h₁ h₂ => by omega, fun a h₁ h₂ => ?_, ?_, ?_, ?_⟩,
    hround.label, hps, hround.dst.trans hpd, hround.used.trans hused, ?_⟩
  · rw [hround.world]
    exact hall.flowing
  · rw [hround.world, hbytes a h₁ (by omega), hsteady.seeks, hsteady.seekMsf, hpos₁, sub_zero]
  · rw [hround.world]
    omega
  · rw [hround.world]
    omega
  · rw [hround.world]
    omega
  · rw [hround.world]
    exact hall

/-- **One forward read.** -/
theorem parked_read (henv : env.Obeys (Streams x)) (hkmalloc : ∀ w, (env w).kmalloc = true)
    {user : Nat → Nat → UInt8} {m : Nat} (hm : m ≤ 450000) (h : Parked codec x user m w)
    {d n : Nat} (hread : InWindow m w d n) (fuel : Nat) (hfuel : n + 1 ≤ fuel) :
    ServedForward user d n w (cdDescrambleSector env codec fuel (w.gLastSector + 1 + d) n w) ∧
    Parked codec x user m
      (cdDescrambleSector env codec fuel (w.gLastSector + 1 + d) n w).world := by
  have hframes := hread.frames
  have hpos := hread.pos
  obtain ⟨k, rfl⟩ : ∃ k, fuel = k + (n - 1 + 1 + 1) := ⟨fuel - (n + 1), by omega⟩
  obtain ⟨s, hfetch, hscan, hlabel, hps, hpd, hused, hsteady⟩ :=
    parked_fetch codec henv hm h hread (k + (n - 1 + 1))
  have hrun : cdDescrambleSector env codec (k + (n - 1 + 1 + 1)) (w.gLastSector + 1 + d) n w
      = (scanStep env codec (k + (n - 1 + 1 + 1)) (w.gLastSector + 1 + d) n)^[k]
        ((scanStep env codec (k + (n - 1 + 1 + 1)) (w.gLastSector + 1 + d) n)^[n - 1 + 1] s) := by
    unfold cdDescrambleSector
    rw [Function.iterate_add_apply, Function.iterate_succ_apply, ← hfetch]
    rfl
  obtain ⟨hserved, -⟩ := hscan.deliver_all (w.gLastSector + 1 + d) n user henv hkmalloc (n - 1)
    (k + (n - 1 + 1 + 1)) hlabel (by omega) (by omega)
    (by omega) (by omega) (by omega) (fun j hj => by
      have hgood := h.sectors (d + j) (by omega)
      have hseeks : s.world.seeks = w.seeks := hsteady.seeks
      have hmsf : s.world.seekMsf = w.seekMsf := hsteady.seekMsf
      rw [hused, hseeks, hmsf, show w.gLastSector + 1 + d + 0 + j = w.gLastSector + 1 + (d + j) by
          omega, show w.readerPos + 2352 * (d : Int) + 0 + 2352 * (j : Int)
          = w.readerPos + 2352 * ((d + j : Nat) : Int) by push_cast; ring]
      exact hgood)
  rw [hrun, iterate_returned hserved.label]
  generalize (scanStep env codec (k + (n - 1 + 1 + 1)) (w.gLastSector + 1 + d) n)^[n - 1 + 1] s = t
    at hserved
  have hall := hsteady.trans hserved.steady
  -- the reader ends behind the last sector wanted
  have hk : (588 : Int) * d + ((0 - s.psCDBuff) / 4 + 588 * (((n - 1 : Nat) : Int) + 1))
      = 588 * (d + n) := by
    rw [hps]
    omega
  rw [hk] at hall
  have hlast : t.world.gLastSector = w.gLastSector + d + n := by
    rw [hserved.lastSector]
    omega
  refine ⟨⟨?_, fun j hj i hi => ?_, hall.seeks, hlast, ?_, hall.bufStatus.trans h.status⟩,
    ⟨hall.flowing, hall.bufStatus.trans h.status, fun j hj => ?_⟩⟩
  · unfold Scan.result
    rw [hserved.label]
  · exact hserved.data j (by omega) hj i hi
  · rw [h.flowing.ring.length]
    exact hall.readPtr
  · rw [hlast] at hj ⊢
    have hgood := h.sectors (d + n + j) (by omega)
    have hreader : t.world.readerPos = w.readerPos + 4 * (588 * (d + n)) := hall.pos
    rw [show w.gLastSector + d + n + 1 + j = w.gLastSector + 1 + (d + n + j) by omega,
      hall.seeks, hall.seekMsf, hreader,
      show w.readerPos + 4 * (588 * ((d : Int) + n)) + 2352 * (j : Int)
        = w.readerPos + 2352 * ((d + n + j : Nat) : Int) by push_cast; ring]
    exact hgood

/-! ### Any number of reads -/

/-- What happens to a parked driver. -/
inductive ForwardOp
  /-- Nothing is read for a while. -/
  | idle
  /-- A read of `n` sectors, `d` further on than the next one. -/
  | read (d n : Nat)

def forwardStep (env : Env) (codec : Codec) (fuel : Nat) (w : World) : ForwardOp → World
  | .idle => yield env w
  | .read d n => (cdDescrambleSector env codec fuel (w.gLastSector + 1 + d) n w).world

/-- The reads that the buffered window covers. -/
def ForwardOp.Covered (m : Nat) (w : World) : ForwardOp → Prop
  | .idle => True
  | .read d n => InWindow m w d n

theorem parked_idle (henv : env.Obeys (Streams x)) {user : Nat → Nat → UInt8} {m : Nat}
    (h : Parked codec x user m w) : Parked codec x user m (yield env w) := by
  have hturn := h.flowing.yield henv
  have hpos : (yield env w).readerPos = w.readerPos := by
    rw [hturn.pos, mul_zero, add_zero]
  refine ⟨hturn.flowing, hturn.bufStatus.trans h.status, fun j hj => ?_⟩
  rw [yield_gLastSector] at hj ⊢
  rw [hturn.seeks, hturn.seekMsf, hpos]
  exact h.sectors j hj

/-- **Forward reads inside the window are served from the ring**, without a
seek, and park the reader again.  The deck streams `x`; up to frame `m` its
sectors decode. -/
theorem forward_reads (env : Env) (codec : Codec) (x : Nat → Nat → Stream)
    (user : Nat → Nat → UInt8) {m fuel : Nat} (hm : m ≤ 450000) (hfuel : 188 ≤ fuel)
    (henv : env.Obeys (Streams x)) (hkmalloc : ∀ w, (env w).kmalloc = true) (w : World)
    (h : Parked codec x user m w) (ops : List ForwardOp)
    (hops : Allowed (forwardStep env codec fuel) (ForwardOp.Covered m) w ops) :
    let u := ops.foldl (forwardStep env codec fuel) w
    Parked codec x user m u ∧ u.seeks = w.seeks ∧
    ∀ d n, InWindow m u d n → ServedForward user d n u
      (cdDescrambleSector env codec fuel (u.gLastSector + 1 + d) n u) := by
  intro u
  have hstep : ∀ v op, ForwardOp.Covered m v op →
      Parked codec x user m v ∧ v.seeks = w.seeks →
      Parked codec x user m (forwardStep env codec fuel v op) ∧
        (forwardStep env codec fuel v op).seeks = w.seeks := by
    intro v op hop hv
    cases op with
    | idle => exact ⟨parked_idle henv hv.1, (yield_seeks env v).trans hv.2⟩
    | read d n =>
      have hsize := hop.size
      obtain ⟨hserved, hparked⟩ := parked_read henv hkmalloc hm hv.1 hop fuel (by omega)
      exact ⟨hparked, hserved.noSeek.trans hv.2⟩
  obtain ⟨hparked, hseeks⟩ := hops.inv hstep ⟨h, rfl⟩
  refine ⟨hparked, hseeks, fun d n hread => ?_⟩
  have hsize := hread.size
  exact (parked_read henv hkmalloc hm hparked hread fuel (by omega)).1

/-- Five blocks of the disc from frame 160 on, the first of them at the end of
the ring, and sector 159 delivered. -/
def parkedWorld : World :=
  { World.mounted with
    sCDDIBuffer :=
      ⟨fun a => ⟨discStream 160 ((a - 4 * 2095104) % (4 * 2097152)), 0⟩, 2097152, 2095104, 8192⟩
    gCDBufStatus := .start, gLastSector := 159, dmaSince := 5 }

theorem parkedWorld_parked :
    Parked plainCodec (fun _ _ => discStream 160) (fun _ _ => 0x55) 450000 parkedWorld := by
  have havail : singleBufferDataAvailable parkedWorld.sCDDIBuffer = 10240 := by decide
  have hpos : parkedWorld.readerPos = 0 := by
    unfold World.readerPos
    rw [havail]
    decide
  refine ⟨⟨?_, rfl, rfl, nofun, fun i h₀ h₁ => ?_⟩, rfl, fun j _ => ?_⟩
  · exact ⟨⟨show (0 : Int) ≤ 2095104 by decide, show (2095104 : Int) < 2097152 by decide,
      show (0 : Int) ≤ 8192 by decide, show (8192 : Int) < 2097152 by decide,
      show (2048 : Int) ∣ 8192 by decide, show (2048 : Int) ∣ 2097152 by decide⟩, rfl⟩
  · rw [havail] at h₁
    rw [hpos, zero_add]
    change discStream 160 (((4 * 2095104 + i) % (4 * 2097152) - 4 * 2095104) % (4 * 2097152)) = _
    congr 1
    omega
  · rw [hpos, zero_add]
    exact goodSector_disc fun i hi => discStream_block 160 j hi

/-- A deck that sends nothing more. -/
theorem quiet_streams (x : Nat → Nat → Stream) : Env.Obeys (fun _ => .quiet) (Streams x) :=
  fun _ => trivial

/-- Two sectors are skipped and the next two read, across the end of the
ring. -/
theorem forward_reads_across :
    let u := [ForwardOp.idle].foldl (forwardStep (fun _ => .quiet) plainCodec 188) parkedWorld
    let s := cdDescrambleSector (fun _ => .quiet) plainCodec 188 162 2 u
    s.result = some userSectorSize ∧ s.world.seeks = u.seeks ∧ s.world.gLastSector = 163 ∧
      s.world.sCDDIBuffer.lReadPtr = 304 := by
  intro u s
  have hserved : ServedForward (fun _ _ => 0x55) 2 2 u (cdDescrambleSector (fun _ => .quiet)
      plainCodec 188 (u.gLastSector + 1 + 2) 2 u) :=
    (forward_reads (fun _ => .quiet) plainCodec (fun _ _ => discStream 160) (fun _ _ => 0x55)
      (m := 450000) le_rfl le_rfl (quiet_streams _) (fun _ => rfl) parkedWorld parkedWorld_parked
      [.idle] ⟨trivial, trivial⟩).2.2 2 2 ⟨by decide, by decide, by decide, by decide, by decide⟩
  have hstart : u.gLastSector + 1 + 2 = 162 := by decide
  have hlast : u.gLastSector + 2 + 2 = 163 := by decide
  have hread : (u.sCDDIBuffer.lReadPtr + 588 * (2 + 2)) % u.sCDDIBuffer.lLength = 304 := by decide
  rw [hstart] at hserved
  change ServedForward _ 2 2 u s at hserved
  clear_value s
  exact ⟨hserved.result, hserved.noSeek, hserved.lastSector.trans hlast,
    hserved.readPtr.trans hread⟩

end CdPlayer
