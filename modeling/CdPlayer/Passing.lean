/-
CdPlayer/Passing.lean

Scanning over sectors that are not wanted.

`Looked N m` is the state after the header of the sector at `N` has been
descrambled and the scan pointer moved `m` bytes beyond its start.  A
header behind the one wanted moves it 2048 bytes, until the driver gives up
on the stream (`Scanning.over`, `Scanning.retry`); so does a header too far
before (`Scanning.under`); and from a header a few sectors before, it jumps
to just in front of the sector wanted (`Scanning.skip`).  Unless a sync
pattern shows up in between, the sector at which it arrives is the next the
search will find (`Looked.scanning`).
-/
import CdPlayer.Restart

namespace CdPlayer

open ByteStore Occurrence Run

variable {x : Nat → Nat → Stream} {c e N m : Int} {env : Env} {codec : Codec}
variable {startAddr n : Nat} {s t : Scan}

/-! ### A header that has been looked at -/

/-- The chunk with the block at `N` descrambled. -/
def lookedChunk (codec : Codec) (chunk : Mem) (N : Int) : Mem :=
  putBlock chunk N (codec.descrambleSector (blockAt chunk N))

/-- The header at `N` has been looked at, and the scan pointer stands `m`
bytes beyond `N`. -/
structure Looked (codec : Codec) (x : Nat → Nat → Stream) (N m : Int) (s t : Scan) : Prop where
  used : t.usedSectNum = s.usedSectNum
  dst : t.pdCDBuff = s.pdCDBuff
  scan : t.psCDBuff = N + m
  frameRetry : t.frameRetry = s.frameRetry
  kmpcnt : t.kmpcnt = s.kmpcnt
  goMSF : t.goMSF = s.goMSF
  chunk : t.world.cdChunkBuf = lookedChunk codec s.world.cdChunkBuf N
  lastSector : t.world.gLastSector = s.world.gLastSector
  researchCnt : t.world.researchCnt = s.world.researchCnt + 1
  steady : Steady x ((N - s.psCDBuff) / 4 + m / 4) s.world t.world

theorem Found.looked {s₁ : Scan} (h : Found x N s s₁) (codec : Codec) :
    Looked codec x N 0 s (s₁.descramble codec) where
  used := h.used
  dst := h.dst
  scan := h.scan.trans (add_zero N).symm
  frameRetry := h.frameRetry
  kmpcnt := h.kmpcnt
  goMSF := h.goMSF
  chunk := by
    change putBlock s₁.world.cdChunkBuf s₁.psCDBuff
      (codec.descrambleSector (blockAt s₁.world.cdChunkBuf s₁.psCDBuff)) = _
    rw [h.scan, h.chunk]
    rfl
  lastSector := h.lastSector
  researchCnt := congrArg (· + 1) h.researchCnt
  steady := by simpa using h.steady.descramble codec

theorem Looked.turn (h : Looked codec x N m s t) (henv : env.Obeys (Streams x)) :
    Looked codec x N m s (t.onWorld (yield env)) where
  used := h.used
  dst := h.dst
  scan := h.scan
  frameRetry := h.frameRetry
  kmpcnt := h.kmpcnt
  goMSF := h.goMSF
  chunk := (yield_cdChunkBuf env t.world).trans h.chunk
  lastSector := (yield_gLastSector env t.world).trans h.lastSector
  researchCnt := (yield_researchCnt env t.world).trans h.researchCnt
  steady := h.steady.turn henv

theorem Looked.move (h : Looked codec x N 0 s t) (henv : env.Obeys (Streams x)) (hm : 0 ≤ m)
    (havail : m / 4 ≤ singleBufferDataAvailable t.world.sCDDIBuffer) (l : Label) :
    Looked codec x N m s ((t.move env m).goto l) where
  used := h.used
  dst := h.dst
  scan := by
    change t.psCDBuff + m = N + m
    rw [h.scan, add_zero]
  frameRetry := h.frameRetry
  kmpcnt := h.kmpcnt
  goMSF := h.goMSF
  chunk := (move_chunk m t).trans h.chunk
  lastSector := (yield_gLastSector env t.world).trans h.lastSector
  researchCnt := (yield_researchCnt env t.world).trans h.researchCnt
  steady := by
    have hmove := h.steady.move henv (n := m / 4) (by omega) havail
    rw [Int.zero_ediv, add_zero] at hmove
    exact hmove

/-- What the ring holds at the header. -/
theorem Looked.avail (h : Looked codec x N 0 s t) (hs : Scanning x c e N s) :
    e - N ≤ 4 * singleBufferDataAvailable t.world.sCDDIBuffer + 3 := by
  have havail := h.steady.avail
  have hfetched := hs.fetched
  have hbehind := hs.behind
  have hlag := hs.lag
  omega

/-- The chunk from the block on. -/
theorem lookedChunk_after (codec : Codec) (chunk : Mem) (N : Int) {a : Int} (ha : N + 2352 ≤ a) :
    lookedChunk codec chunk N a = chunk a :=
  putBlock_outside _ _ _ (.inr ha)

/-- **The sector at which the scan arrives.** -/
theorem Looked.scanning {N' : Int} (h : Looked codec x N m s t) (hs : Scanning x c e N s)
    (hm : 4 ∣ m) (hahead : N + m ≤ N') (hnext : N + 2352 ≤ N') (hnear : N' - (N + m) ≤ 2340)
    (halign : 4 ∣ N' - (N + m))
    (hfirst : ∀ a, N + m ≤ a → a < N' → ¬ SyncAt (lookedChunk codec s.world.cdChunkBuf N) a) :
    Scanning x c e N' t := by
  have hpos := h.steady.pos
  have havail := h.steady.avail
  have hlag := hs.lag
  have hbehind := hs.behind
  have hfetched := hs.fetched
  have hscan := h.scan
  refine ⟨h.steady.flowing, by omega, by omega, fun a h₁ h₂ => ?_, fun a h₁ h₂ => ?_, ?_, ?_, ?_⟩
  · rw [h.chunk]
    exact hfirst a (by omega) h₂
  · rw [h.chunk, lookedChunk_after _ _ _ (by omega), h.steady.seeks, h.steady.seekMsf]
    exact hs.raw a (by omega) h₂
  · omega
  · omega
  · omega

/-! ### The header under the scan pointer -/

/-- The header of a raw block. -/
def frameAt (codec : Codec) (s : Scan) (N : Int) : Nat :=
  headerFrame (descrambled codec fun i => s.world.cdChunkBuf (N + i))

theorem Found.frame {s₁ : Scan} (h : Found x N s s₁) (codec : Codec) :
    (s₁.descramble codec).frame = frameAt codec s N := by
  rw [frame_eq_headerFrame]
  change headerFrame (blockAt (s₁.descramble codec).world.cdChunkBuf s₁.psCDBuff) = _
  rw [descramble_block, h.scan, h.chunk]
  rfl

/-- The search comes to a header behind the one wanted. -/
theorem Scanning.headerOver (codec : Codec) (startAddr n : Nat) (henv : env.Obeys (Streams x))
    (hkmalloc : ∀ w, (env w).kmalloc = true)
    (h : Scanning x c e N s) (hN : N + 2352 ≤ e) (hsync : SyncAt s.world.cdChunkBuf N)
    (hused : startAddr + s.usedSectNum < 4294967296)
    (hover : startAddr + s.usedSectNum < frameAt codec s N) :
    ∃ secdiff t, searchLbnStep env codec startAddr n s = frameOverStep env secdiff t ∧
      Looked codec x N 0 s t := by
  obtain ⟨s₁, hstep, hfound⟩ := h.hit codec startAddr n henv hkmalloc hN hsync
  have hframe := hfound.frame codec
  have hlooked := hfound.looked codec
  rw [hstep]
  unfold headerStep
  simp only
  generalize s₁.descramble codec = d at hframe hlooked ⊢
  have hreq : u32 (startAddr + d.usedSectNum : Nat) = startAddr + s.usedSectNum := by
    rw [hlooked.used, u32_natCast hused]
  rw [hframe, hreq, if_neg (by omega), if_pos (by omega)]
  exact ⟨_, d, rfl, hlooked⟩

/-- The search comes to a header before the one wanted. -/
theorem Scanning.headerUnder (codec : Codec) (startAddr n : Nat) (henv : env.Obeys (Streams x))
    (hkmalloc : ∀ w, (env w).kmalloc = true)
    (h : Scanning x c e N s) (hN : N + 2352 ≤ e) (hsync : SyncAt s.world.cdChunkBuf N)
    (hused : startAddr + s.usedSectNum < 2147483648)
    (hunder : frameAt codec s N < startAddr + s.usedSectNum) :
    ∃ t, searchLbnStep env codec startAddr n s
        = frameUnderStep env (frameAt codec s N) (startAddr + s.usedSectNum - frameAt codec s N) t ∧
      Looked codec x N 0 s t := by
  obtain ⟨s₁, hstep, hfound⟩ := h.hit codec startAddr n henv hkmalloc hN hsync
  have hframe := hfound.frame codec
  have hlooked := hfound.looked codec
  rw [hstep]
  unfold headerStep
  simp only
  generalize s₁.descramble codec = d at hframe hlooked ⊢
  have hreq : u32 (startAddr + d.usedSectNum : Nat) = startAddr + s.usedSectNum := by
    rw [hlooked.used, u32_natCast (by omega)]
  have hdiff : s32 ((startAddr + d.usedSectNum : Nat) - (d.frame : Int))
      = startAddr + s.usedSectNum - frameAt codec s N := by
    rw [hlooked.used, hframe, s32_of_lt (by omega) (by omega)]
    push_cast
    ring
  rw [hdiff, hframe, hreq, if_neg (by omega), if_neg (by omega)]
  exact ⟨d, rfl, hlooked⟩

/-! ### Moving on -/

/-- A header behind the one wanted, while the driver is patient. -/
theorem Scanning.over (codec : Codec) (startAddr n : Nat) (henv : env.Obeys (Streams x))
    (hkmalloc : ∀ w, (env w).kmalloc = true)
    (h : Scanning x c e N s) (hN : N + 2352 ≤ e) (hsync : SyncAt s.world.cdChunkBuf N)
    (hused : startAddr + s.usedSectNum < 4294967296)
    (hover : startAddr + s.usedSectNum < frameAt codec s N) (hretry : 0 < s.frameRetry)
    (hcnt : s.world.researchCnt < 5) :
    Looked codec x N 2048 s (searchLbnStep env codec startAddr n s) ∧
      (searchLbnStep env codec startAddr n s).label = .searchLbn := by
  obtain ⟨secdiff, t, hstep, hlooked⟩ := h.headerOver codec startAddr n henv hkmalloc hN hsync
    hused hover
  have havail := hlooked.avail h
  have hcnt' := hlooked.researchCnt
  have hretry' := hlooked.frameRetry
  rw [hstep]
  unfold frameOverStep
  rw [if_neg (by omega), if_neg (by simp only [previousDataSkipCount]; omega)]
  exact ⟨hlooked.move henv (m := 2048) (by decide) (by omega) _, rfl⟩

/-- A header behind the one wanted, when the driver is not patient any more. -/
structure Retried (x : Nat → Nat → Stream) (s t : Scan) : Prop where
  label : t.label = .tryRead
  used : t.usedSectNum = s.usedSectNum
  dst : t.pdCDBuff = s.pdCDBuff
  frameRetry : s.frameRetry - 1 ≤ t.frameRetry
  status : t.world.gCDBufStatus = .stop
  lastSector : t.world.gLastSector = s.world.gLastSector
  researchCnt : s.world.researchCnt ≤ t.world.researchCnt
  seeks : t.world.seeks = s.world.seeks
  flowing : Flowing x t.world

theorem Scanning.retry (codec : Codec) (startAddr n : Nat) (henv : env.Obeys (Streams x))
    (hkmalloc : ∀ w, (env w).kmalloc = true)
    (h : Scanning x c e N s) (hN : N + 2352 ≤ e) (hsync : SyncAt s.world.cdChunkBuf N)
    (hused : startAddr + s.usedSectNum < 4294967296)
    (hover : startAddr + s.usedSectNum < frameAt codec s N) (hretry : 0 < s.frameRetry)
    (hcnt : 5 ≤ s.world.researchCnt) :
    Retried x s (searchLbnStep env codec startAddr n s) := by
  obtain ⟨secdiff, t, hstep, hlooked⟩ := h.headerOver codec startAddr n henv hkmalloc hN hsync
    hused hover
  have hcnt' := hlooked.researchCnt
  have hretry' := hlooked.frameRetry
  have hflow := hlooked.steady.flowing
  rw [hstep]
  obtain ⟨k, v, hk, hsame⟩ := retryFrame_same secdiff t
  unfold frameOverStep
  rw [if_neg (by omega), if_pos (by simp only [previousDataSkipCount]; omega), hsame]
  refine ⟨rfl, hlooked.used, hlooked.dst, by simp only; omega, rfl, hlooked.lastSector,
    ?_, hlooked.steady.seeks, ?_⟩
  · change s.world.researchCnt ≤ t.world.researchCnt
    omega
  · exact hflow.own rfl rfl rfl rfl rfl rfl rfl

/-- A header too far before the one wanted. -/
theorem Scanning.under (codec : Codec) (startAddr n : Nat) (henv : env.Obeys (Streams x))
    (hkmalloc : ∀ w, (env w).kmalloc = true)
    (h : Scanning x c e N s) (hN : N + 2352 ≤ e) (hsync : SyncAt s.world.cdChunkBuf N)
    (hused : startAddr + s.usedSectNum < 2147483648)
    (hunder : frameAt codec s N < startAddr + s.usedSectNum) (hretry : 0 < s.frameRetry)
    (hfar : frameAt codec s N < s.goMSF) :
    Looked codec x N 2048 s (searchLbnStep env codec startAddr n s) ∧
      (searchLbnStep env codec startAddr n s).label = .searchLbn := by
  obtain ⟨t, hstep, hlooked⟩ := h.headerUnder codec startAddr n henv hkmalloc hN hsync hused hunder
  have hturn := hlooked.turn henv
  have havail := hturn.avail h
  have hretry' := hlooked.frameRetry
  have hgo := hturn.goMSF
  rw [hstep]
  unfold frameUnderStep
  rw [if_neg (by omega)]
  simp only
  rw [if_pos (by rw [hgo]; exact hfar)]
  exact ⟨hturn.move henv (m := 2048) (by decide) (by omega) _, rfl⟩

/-- A header a few sectors before the one wanted, which is buffered. -/
theorem Scanning.skip (codec : Codec) (startAddr n : Nat) (henv : env.Obeys (Streams x))
    (hkmalloc : ∀ w, (env w).kmalloc = true)
    (h : Scanning x c e N s) (hN : N + 2352 ≤ e) (hsync : SyncAt s.world.cdChunkBuf N)
    {d : Nat} (hd : 0 < d) (hunder : frameAt codec s N + d = startAddr + s.usedSectNum)
    (hused : startAddr + s.usedSectNum < 2147483648) (hretry : 0 < s.frameRetry)
    (hnear : s.goMSF ≤ frameAt codec s N)
    (hbuffered : 588 * (d : Int) ≤ singleBufferDataAvailable s.world.sCDDIBuffer
      - (N - s.psCDBuff) / 4) :
    Looked codec x N (2352 * d - 16) s (searchLbnStep env codec startAddr n s) ∧
      (searchLbnStep env codec startAddr n s).label = .searchLbn := by
  obtain ⟨t, hstep, hlooked⟩ := h.headerUnder codec startAddr n henv hkmalloc hN hsync hused
    (by omega)
  have hturn := hlooked.turn henv
  have hmore := hturn.steady.avail
  have hretry' := hlooked.frameRetry
  have hgo := hturn.goMSF
  have hu := hturn.steady.flowing.ring.u32_dataAvailable
  have hdiff : ((startAddr + s.usedSectNum - frameAt codec s N : Int)) = d := by omega
  rw [hstep, hdiff]
  unfold frameUnderStep
  rw [if_neg (by omega)]
  simp only
  rw [if_neg (by rw [hgo]; omega), if_pos (by
    rw [u32_natCast (by omega)]
    simp only [cddaSampleSize]
    omega)]
  -- the skip ends sixteen bytes before the sector wanted
  have hskip : (d : Int) * cddaSectorSize - cdMoveSize = 2352 * d - 16 := by
    simp only [cddaSectorSize, cdMoveSize]
    ring
  rw [hskip]
  exact ⟨hturn.move henv (by omega) (by omega) _, rfl⟩

/-! ### No sync pattern -/

/-- A search that finds nothing, and moves on. -/
structure Missed (x : Nat → Nat → Stream) (s t : Scan) : Prop where
  label : t.label = .searchLbn
  used : t.usedSectNum = s.usedSectNum
  dst : t.pdCDBuff = s.pdCDBuff
  scan : t.psCDBuff = s.psCDBuff + 2048
  frameRetry : t.frameRetry = s.frameRetry
  goMSF : t.goMSF = s.goMSF
  chunk : t.world.cdChunkBuf = s.world.cdChunkBuf
  lastSector : t.world.gLastSector = s.world.gLastSector
  researchCnt : t.world.researchCnt = s.world.researchCnt
  steady : Steady x 512 s.world t.world

theorem searchLbnStep_missed (codec : Codec) (startAddr n : Nat) (henv : env.Obeys (Streams x))
    (hkmalloc : ∀ w, (env w).kmalloc = true) (hflow : Flowing x s.world) (hkmp : 0 < s.kmpcnt)
    (havail : 512 ≤ singleBufferDataAvailable s.world.sCDDIBuffer)
    (hnone : ∀ a, s.psCDBuff ≤ a → a ≤ s.psCDBuff + 2340 → ¬ SyncAt s.world.cdChunkBuf a) :
    Missed x s (searchLbnStep env codec startAddr n s) := by
  have hread : (fun i : Nat => (s.onWorld (yield env)).byte i)
      = fun i : Nat => (s.world.cdChunkBuf (s.psCDBuff + (i : Nat))).val := bytes_turn env s
  have hturn := hflow.yield henv
  have hmore := hturn.avail
  have hmove := hturn.move henv (n := 512) (by decide) (by omega)
  unfold searchLbnStep
  simp only [hread, hkmalloc, kmp_of_noSync hnone]
  rw [if_pos ⟨by decide, hkmp⟩]
  refine ⟨rfl, rfl, rfl, rfl, rfl, rfl, ?_, ?_, ?_, hmove⟩
  · exact (move_chunk _ _).trans (yield_cdChunkBuf env s.world)
  · exact (yield_gLastSector env _).trans (yield_gLastSector env s.world)
  · exact (yield_researchCnt env _).trans (yield_researchCnt env s.world)

end CdPlayer
