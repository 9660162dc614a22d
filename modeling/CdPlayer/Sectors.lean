/-
CdPlayer/Sectors.lean

Scanning a stream of sectors that decode.

`GoodSector` is a raw sector with its sync pattern, a BCD header that is
there after descrambling, and user data that the correction accepts and
leaves alone.  `Scanning` is the situation at `SEARCH_LBN` when such a
sector is the next thing the search will find: the scan pointer is not far
before it, what follows in the chunk is the stream, and the read pointer
of the ring lags less than a sample behind the scan pointer.

* `Scanning.hit`: the search lands on the sector.
* `Scanning.deliver`: if it is the one wanted it is delivered, and the next
  sector is in the same situation.
* `Scanning.deliver_all`: a run of wanted sectors is delivered in order.
-/
import CdPlayer.Compaction
import CdPlayer.Stream

namespace CdPlayer

open ByteStore Occurrence

/-! ### Sectors -/

/-- A raw sector of frame `f` with user data `user`. -/
structure GoodSector (codec : Codec) (f : Nat) (user : Nat → UInt8) (raw : Nat → Cell) :
    Prop where
  sync : ∀ j, j < 12 → (raw j).val = pattern j
  minute : (descrambled codec raw 12).toNat = frame2min f
  second : (descrambled codec raw 13).toNat = frame2sec f
  frame : (descrambled codec raw 14).toNat = frame2frame f
  c3 : cdTrue ≤ (codec.c3Decoder (descrambled codec raw) cdC3Cnt).1
  /-- The correction leaves the data area alone. -/
  kept : ∀ i, i < 2048 → userData codec raw i
    = descrambled codec raw ((dataLocation (descrambled codec raw 15)).toNat + i)
  user : ∀ i, i < 2048 →
    descrambled codec raw ((dataLocation (descrambled codec raw 15)).toNat + i) = user i

/-- The decoder does not see stamps. -/
theorem descrambled_congr {codec : Codec} {raw raw' : Nat → Cell}
    (h : ∀ i, i < 2352 → (raw i).val = (raw' i).val) :
    descrambled codec raw = descrambled codec raw' := by
  have hbytes : rawBytes raw = rawBytes raw' := by
    funext i
    unfold rawBytes
    split
    next hi => exact h i hi
    next => rfl
  unfold descrambled
  rw [hbytes]

theorem GoodSector.congr {codec : Codec} {f : Nat} {user : Nat → UInt8} {raw raw' : Nat → Cell}
    (h : GoodSector codec f user raw) (heq : ∀ i, i < 2352 → (raw' i).val = (raw i).val) :
    GoodSector codec f user raw' := by
  have hdesc : descrambled codec raw' = descrambled codec raw := descrambled_congr heq
  have hdata : userData codec raw' = userData codec raw := by
    funext i
    unfold userData corrected
    rw [hdesc]
  refine ⟨fun j hj => ?_, ?_, ?_, ?_, ?_, ?_, ?_⟩
  · rw [heq j (by omega)]
    exact h.sync j hj
  · rw [hdesc]; exact h.minute
  · rw [hdesc]; exact h.second
  · rw [hdesc]; exact h.frame
  · rw [hdesc]; exact h.c3
  · rw [hdesc, hdata]; exact h.kept
  · rw [hdesc]; exact h.user

/-- The header decodes to the frame. -/
theorem GoodSector.headerFrame {codec : Codec} {f : Nat} {user : Nat → UInt8}
    {raw : Nat → Cell} (h : GoodSector codec f user raw) (hf : f < 450000) :
    CdPlayer.headerFrame (descrambled codec raw) = f := by
  unfold CdPlayer.headerFrame
  rw [h.minute, h.second, h.frame]
  exact cdBcdmsf2frame_frame2msf (by omega)

/-- The stream from `q` on, as a block. -/
def Stream.block (x : Stream) (q : Int) (i : Nat) : Cell := ⟨x (q + i), 0⟩

/-! ### Finding the next sector -/

/-- The sync pattern stands at `a`. -/
def SyncAt (m : Mem) (a : Int) : Prop := ∀ j : Nat, j < 12 → (m (a + j)).val = pattern j

theorem agree_iff_syncAt (m : Mem) (ps : Int) (i : Nat) :
    Agree pattern (fun i : Nat => (m (ps + i)).val) i 12 ↔ SyncAt m (ps + i) := by
  refine ⟨fun h j hj => ?_, fun h j hj => ?_⟩
  · rw [add_assoc, ← Nat.cast_add]
    exact h j hj
  · have hj := h j hj
    rw [add_assoc, ← Nat.cast_add] at hj
    exact hj

/-- The search finds the first sync pattern of its window. -/
theorem kmp_of_sync {m : Mem} {ps N : Int} (hahead : ps ≤ N) (hnear : N - ps ≤ 2340)
    (hsync : SyncAt m N) (hfirst : ∀ a, ps ≤ a → a < N → ¬ SyncAt m a) :
    cdKmpPatternSearch true (fun i => (m (ps + (i : Nat))).val) 2352 pattern cdHeadSize
      = (N - ps, (N - ps).toNat + 12) := by
  obtain ⟨d, hd⟩ := Int.eq_ofNat_of_zero_le (show 0 ≤ N - ps by omega)
  have hN : N = ps + d := by omega
  have hfound : FirstAt pattern cdHeadSize (fun i => (m (ps + (i : Nat))).val) 2352 d := by
    refine ⟨?_, ?_, ?_⟩
    · simp only [cdHeadSize]
      omega
    · exact (agree_iff_syncAt m ps d).mpr (hN ▸ hsync)
    · intro i hi h
      exact hfirst (ps + i) (by omega) (by omega) ((agree_iff_syncAt m ps i).mp h)
  rw [cdKmpPatternSearch_of_firstAt (by decide) hfound, hd]
  rfl

/-- The search fails if there is none. -/
theorem kmp_of_noSync {m : Mem} {ps : Int}
    (hnone : ∀ a, ps ≤ a → a ≤ ps + 2340 → ¬ SyncAt m a) :
    cdKmpPatternSearch true (fun i => (m (ps + (i : Nat))).val) 2352 pattern cdHeadSize
      = (-1, 2352) :=
  cdKmpPatternSearch_of_none (by decide) fun i hi h =>
    hnone (ps + i) (by omega) (by simp only [cdHeadSize] at hi; omega)
      ((agree_iff_syncAt m ps i).mp h)

/-! ### The situation at `SEARCH_LBN` -/

/-- The next sector starts at `N`.  The chunk byte at `a` is the stream byte
`c + a`, up to the end `e` of what has been fetched. -/
structure Scanning (x : Nat → Nat → Stream) (c e N : Int) (s : Scan) : Prop where
  flowing : Flowing x s.world
  ahead : s.psCDBuff ≤ N
  near : N - s.psCDBuff ≤ 2340
  first : ∀ a, s.psCDBuff ≤ a → a < N → ¬ SyncAt s.world.cdChunkBuf a
  raw : ∀ a, N ≤ a → a < e →
    (s.world.cdChunkBuf a).val = x s.world.seeks s.world.seekMsf (c + a)
  /-- The reader is less than a sample behind the scan pointer, and still
  will be at the sector. -/
  behind : s.world.readerPos ≤ c + s.psCDBuff
  lag : (N - s.psCDBuff) % 4 + (c + s.psCDBuff - s.world.readerPos) ≤ 3
  fetched : c + e ≤ s.world.readerPos + 4 * singleBufferDataAvailable s.world.sCDDIBuffer

variable {x : Nat → Nat → Stream} {c e N : Int} {env : Env} {codec : Codec}
variable {startAddr n : Nat} {s s₁ : Scan}

/-- The block the search will find. -/
theorem Scanning.block (h : Scanning x c e N s) (hN : N + 2352 ≤ e) (i : Nat) (hi : i < 2352) :
    (s.world.cdChunkBuf (N + i)).val
      = ((x s.world.seeks s.world.seekMsf).block (c + N) i).val := by
  rw [h.raw (N + i) (by omega) (by omega)]
  unfold Stream.block
  rw [add_assoc]

/-- The state in which the header at `N` is looked at. -/
structure Found (x : Nat → Nat → Stream) (N : Int) (s s₁ : Scan) : Prop where
  label : s₁.label = s.label
  used : s₁.usedSectNum = s.usedSectNum
  scan : s₁.psCDBuff = N
  dst : s₁.pdCDBuff = s.pdCDBuff
  frameRetry : s₁.frameRetry = s.frameRetry
  kmpcnt : s₁.kmpcnt = s.kmpcnt
  goMSF : s₁.goMSF = s.goMSF
  chunk : s₁.world.cdChunkBuf = s.world.cdChunkBuf
  lastSector : s₁.world.gLastSector = s.world.gLastSector
  researchCnt : s₁.world.researchCnt = s.world.researchCnt
  steady : Steady x ((N - s.psCDBuff) / 4) s.world s₁.world

/-- The state in which a search that finds its pattern at `N` looks at the
header. -/
def Scan.found (env : Env) (N : Int) (s : Scan) : Scan :=
  (((s.onWorld (yield env)).log (.search s.psCDBuff ((N - s.psCDBuff).toNat + 12 : Nat))).move env
    (N - s.psCDBuff)).onWorld (yield env)

theorem searchLbnStep_found (codec : Codec) (startAddr n : Nat)
    (hkmalloc : (env s.world).kmalloc = true) (hahead : s.psCDBuff ≤ N)
    (hnear : N - s.psCDBuff ≤ 2340) (hsync : SyncAt s.world.cdChunkBuf N)
    (hfirst : ∀ a, s.psCDBuff ≤ a → a < N → ¬ SyncAt s.world.cdChunkBuf a)
    (hforce : (s.found env N).world.cdDevForceStop = 0) :
    searchLbnStep env codec startAddr n s = headerStep env codec startAddr n (s.found env N) := by
  have hread : (fun i : Nat => (s.onWorld (yield env)).byte i)
      = fun i : Nat => (s.world.cdChunkBuf (s.psCDBuff + (i : Nat))).val := bytes_turn env s
  have hkmp := kmp_of_sync hahead hnear hsync hfirst
  unfold searchLbnStep
  simp only [hread, hkmalloc, hkmp]
  rw [if_neg (by omega), if_neg (by omega), if_neg (fun hne => hne hforce)]
  rfl

/-- **The search lands on the next sector.** -/
theorem Scanning.hit (codec : Codec) (startAddr n : Nat) (henv : env.Obeys (Streams x))
    (hkmalloc : ∀ w, (env w).kmalloc = true) (h : Scanning x c e N s) (hN : N + 2352 ≤ e)
    (hsync : SyncAt s.world.cdChunkBuf N) :
    ∃ s₁, searchLbnStep env codec startAddr n s = headerStep env codec startAddr n s₁ ∧
      Found x N s s₁ := by
  have hturn := h.flowing.yield henv
  have hbehind := h.behind
  have hlag := h.lag
  have hfetched := h.fetched
  have hahead := h.ahead
  have havail := hturn.avail
  have hmove := hturn.move henv (n := (N - s.psCDBuff) / 4) (by omega) (by omega)
  have hsteady := hmove.turn henv
  have hforce : (s.found env N).world.cdDevForceStop = 0 := hsteady.flowing.force
  refine ⟨s.found env N, searchLbnStep_found codec startAddr n (hkmalloc s.world) h.ahead h.near
    hsync h.first hforce, ?_⟩
  unfold Scan.found
  refine ⟨rfl, rfl, ?_, rfl, rfl, rfl, rfl, ?_, ?_, ?_, ?_⟩
  · simp
  · simp
  · simp [Scan.move, updateReadPointer, World.note]
  · simp [Scan.move, updateReadPointer, World.note]
  · rw [zero_add] at hsteady
    exact hsteady

/-! ### Delivering -/

/-- The block under the scan pointer. -/
def Scan.raw (s : Scan) : Nat → Cell := fun i => s.world.cdChunkBuf (s.psCDBuff + i)

/-- The state after a sector has been accepted. -/
def Scan.delivered (env : Env) (codec : Codec) (startAddr : Nat) (s : Scan) : Scan :=
  ((s.descramble codec).inPlace (corrected codec s.raw)).accept env startAddr s.raw
    (descrambled codec s.raw 15)

@[simp] theorem accept_usedSectNum (env : Env) (startAddr : Nat) (raw : Nat → Cell)
    (lmode : UInt8) (s : Scan) :
    (s.accept env startAddr raw lmode).usedSectNum = s.usedSectNum + 1 := rfl

@[simp] theorem inPlace_usedSectNum (blk : Nat → UInt8) (s : Scan) :
    (s.inPlace blk).usedSectNum = s.usedSectNum := rfl

@[simp] theorem descramble_usedSectNum (codec : Codec) (s : Scan) :
    (s.descramble codec).usedSectNum = s.usedSectNum := rfl

@[simp] theorem inPlace_ring (blk : Nat → UInt8) (s : Scan) :
    (s.inPlace blk).world.sCDDIBuffer = s.world.sCDDIBuffer := rfl

@[simp] theorem descramble_ring (codec : Codec) (s : Scan) :
    (s.descramble codec).world.sCDDIBuffer = s.world.sCDDIBuffer := rfl

/-- The decoder's work is the thread's own. -/
theorem Steady.inPlace {k : Int} {w : World} (h : Steady x k w s.world) (blk : Nat → UInt8) :
    Steady x k w (s.inPlace blk).world :=
  h.own rfl rfl rfl rfl rfl rfl rfl rfl rfl

theorem Steady.descramble {k : Int} {w : World} (h : Steady x k w s.world) (codec : Codec) :
    Steady x k w (s.descramble codec).world :=
  (h.inPlace (codec.descrambleSector (blockAt s.world.cdChunkBuf s.psCDBuff))).own
    rfl rfl rfl rfl rfl rfl rfl rfl rfl

/-- Accepting a sector moves the reader by one sector. -/
theorem steady_accept (henv : env.Obeys (Streams x)) (startAddr : Nat) (raw : Nat → Cell)
    (lmode : UInt8) {k : Int} {w : World} (h : Steady x k w s.world)
    (havail : 588 ≤ singleBufferDataAvailable s.world.sCDDIBuffer) :
    Steady x (k + 588) w (s.accept env startAddr raw lmode).world := by
  have hown : Steady x k w (cdSetLastSector (u32 (startAddr + s.usedSectNum : Nat))
      { s.world with
        cdChunkBuf := copyUp s.world.cdChunkBuf s.pdCDBuff (s.psCDBuff + dataLocation lmode)
          2048 }) :=
    h.own rfl rfl rfl rfl rfl rfl rfl rfl rfl
  exact hown.move henv (by decide) havail

theorem accept_lastSector (env : Env) (startAddr : Nat) (raw : Nat → Cell) (lmode : UInt8)
    (s : Scan) : (s.accept env startAddr raw lmode).world.gLastSector
      = u32 (startAddr + s.usedSectNum : Nat) := by
  change (yield env _).gLastSector = _
  rw [yield_gLastSector]
  rfl

theorem delivered_usedSectNum (env : Env) (codec : Codec) (startAddr : Nat) (s : Scan) :
    (s.delivered env codec startAddr).usedSectNum = s.usedSectNum + 1 := by
  unfold Scan.delivered
  rw [accept_usedSectNum, inPlace_usedSectNum, descramble_usedSectNum]

theorem delivered_lastSector (env : Env) (codec : Codec) (startAddr : Nat) (s : Scan) :
    (s.delivered env codec startAddr).world.gLastSector
      = u32 (startAddr + s.usedSectNum : Nat) := by
  unfold Scan.delivered
  rw [accept_lastSector, inPlace_usedSectNum, descramble_usedSectNum]

/-- The header is the one wanted and the correction succeeds. -/
theorem headerStep_delivered (env : Env) (hframe : headerFrame (descrambled codec s.raw)
      = u32 (startAddr + s.usedSectNum : Nat))
    (hc3 : cdTrue ≤ (codec.c3Decoder (descrambled codec s.raw) cdC3Cnt).1) :
    headerStep env codec startAddr n s = (s.delivered env codec startAddr).goto
      (if s.usedSectNum + 1 < n then .searchLbn else .returned userSectorSize) := by
  have hblock : blockAt (s.descramble codec).world.cdChunkBuf s.psCDBuff
      = descrambled codec s.raw := descramble_block codec s
  have hps : (s.descramble codec).psCDBuff = s.psCDBuff := rfl
  have hmode : (s.descramble codec).byte modeLoca = descrambled codec s.raw 15 := by
    rw [← hblock]
    rfl
  -- the decoder gets the descrambled block and puts back the corrected one
  have hcorrect : (s.descramble codec).correct codec
      = ((codec.c3Decoder (descrambled codec s.raw) cdC3Cnt).1,
        (s.descramble codec).inPlace (corrected codec s.raw)) := by
    unfold Scan.correct
    rw [hps, hblock]
    simp only
    rw [if_neg (not_lt.mpr hc3)]
    rfl
  unfold headerStep
  simp only
  rw [frame_eq_headerFrame, hps, hblock,
    show (s.descramble codec).usedSectNum = s.usedSectNum from rfl, if_pos hframe]
  unfold deliverStep
  rw [hcorrect, hmode]
  simp only
  rw [if_neg (fun hneg => absurd hneg.1 (not_lt.mpr hc3))]
  have haccept : ((s.descramble codec).inPlace (corrected codec s.raw)).accept env startAddr
      (fun i : Nat => s.world.cdChunkBuf (s.psCDBuff + i)) (descrambled codec s.raw 15)
        = s.delivered env codec startAddr := rfl
  rw [haccept, delivered_usedSectNum]
  split <;> rfl

/-- **A wanted sector is delivered**, and the next one is in the same
situation. -/
structure Delivered (x : Nat → Nat → Stream) (c e N : Int) (startAddr n : Nat)
    (user : Nat → UInt8) (s s' : Scan) : Prop where
  label : s'.label = if s.usedSectNum + 1 < n then .searchLbn else .returned userSectorSize
  used : s'.usedSectNum = s.usedSectNum + 1
  dst : s'.pdCDBuff = s.pdCDBuff + 2048
  scan : s'.psCDBuff = N + 2352
  scanning : Scanning x c e (N + 2352) s'
  data : ∀ i : Nat, i < 2048 → (s'.world.cdChunkBuf (s.pdCDBuff + i)).val = user i
  below : ∀ a, a < s.pdCDBuff → s'.world.cdChunkBuf a = s.world.cdChunkBuf a
  lastSector : s'.world.gLastSector = startAddr + s.usedSectNum
  steady : Steady x ((N - s.psCDBuff) / 4 + 588) s.world s'.world

theorem Scanning.deliver (henv : env.Obeys (Streams x)) (hkmalloc : ∀ w, (env w).kmalloc = true)
    (h : Scanning x c e N s) (hlabel : s.label = .searchLbn) (hdst : s.pdCDBuff ≤ s.psCDBuff)
    (hN : N + 2352 ≤ e)
    {user : Nat → UInt8} (hf : startAddr + s.usedSectNum < 450000)
    (hgood : GoodSector codec (startAddr + s.usedSectNum) user
      ((x s.world.seeks s.world.seekMsf).block (c + N))) :
    Delivered x c e N startAddr n user s (searchLbnStep env codec startAddr n s) := by
  have hgood' : GoodSector codec (startAddr + s.usedSectNum) user
      (fun i : Nat => s.world.cdChunkBuf (N + i)) := hgood.congr (h.block hN)
  obtain ⟨s₁, hstep, hfound⟩ := h.hit codec startAddr n
    henv hkmalloc hN hgood'.sync
  have hraw : s₁.raw = fun i : Nat => s.world.cdChunkBuf (N + i) := by
    unfold Scan.raw
    rw [hfound.scan, hfound.chunk]
  have hframe : headerFrame (descrambled codec s₁.raw)
      = u32 (startAddr + s₁.usedSectNum : Nat) := by
    rw [hraw, hfound.used, u32_natCast (by omega), hgood'.headerFrame hf]
  have hc3 : cdTrue ≤ (codec.c3Decoder (descrambled codec s₁.raw) cdC3Cnt).1 := by
    rw [hraw]
    exact hgood'.c3
  have hheader := headerStep_delivered env (n := n) hframe hc3
  have hused : (headerStep env codec startAddr n s₁).usedSectNum = s₁.usedSectNum + 1 := by
    rw [hheader]
    exact delivered_usedSectNum env codec startAddr s₁
  -- the block is delivered, so that chunk and pointers are as in the general case
  have hd : Delivers codec startAddr n s₁ (headerStep env codec startAddr n s₁) s₁.psCDBuff := by
    rcases headerStep_cases env codec startAddr n
      (Passes.refl s₁ (by rw [hfound.label, hlabel]; exact nofun)) le_rfl rfl with hp | hd
    · have := hp.used
      omega
    · exact hd
  have hahead := h.ahead
  obtain ⟨hdata, hbelow, habove⟩ := hd.chunk_spec (by rw [hfound.dst, hfound.scan]; omega)
  have hsteady : Steady x ((N - s.psCDBuff) / 4 + 588) s.world
      (headerStep env codec startAddr n s₁).world := by
    have havail := hfound.steady.avail
    have hlag := h.lag
    have hfetched := h.fetched
    have hbehind := h.behind
    rw [hheader]
    refine steady_accept henv startAddr _ _ ((hfound.steady.descramble codec).inPlace _) ?_
    rw [inPlace_ring, descramble_ring]
    omega
  have hlabel' : (headerStep env codec startAddr n s₁).label
      = if s₁.usedSectNum + 1 < n then .searchLbn else .returned userSectorSize := by
    rw [hheader]
    rfl
  have hlast : (headerStep env codec startAddr n s₁).world.gLastSector
      = u32 (startAddr + s₁.usedSectNum : Nat) := by
    rw [hheader]
    exact delivered_lastSector env codec startAddr s₁
  rw [hstep]
  -- from here on only these facts about the new state matter
  generalize headerStep env codec startAddr n s₁ = s' at *
  clear hheader hframe hc3
  have hscan : s'.psCDBuff = N + 2352 := by
    rw [hd.scan, hfound.scan]
    rfl
  refine ⟨?_, ?_, ?_, hscan, ?_, fun i hi => ?_, fun a ha => ?_, ?_, hsteady⟩
  · rw [hlabel', hfound.used]
  · rw [hused, hfound.used]
  · rw [hd.dst, hfound.dst]
    rfl
  · have hpos := hsteady.pos
    have havail := hsteady.avail
    have hlag := h.lag
    have hbehind := h.behind
    have hfetched := h.fetched
    refine ⟨hsteady.flowing, ?_, ?_, fun a h₁ h₂ => ?_, fun a h₁ h₂ => ?_, ?_, ?_, ?_⟩
    · omega
    · omega
    · omega
    · rw [habove a (by omega), hfound.chunk, hsteady.seeks, hsteady.seekMsf]
      exact h.raw a (by omega) h₂
    · omega
    · omega
    · omega
  · rw [← hfound.dst, hdata i hi]
    change userData codec s₁.raw i = _
    rw [hraw, hgood'.kept i hi, hgood'.user i hi]
  · rw [hbelow a (by rw [hfound.dst]; exact ha), hfound.chunk]
  · rw [hlast, hfound.used, u32_natCast (by omega)]

/-- What a call has delivered when it returns. -/
structure Served (x : Nat → Nat → Stream) (startAddr n : Nat) (user : Nat → Nat → UInt8)
    (k : Int) (s s' : Scan) : Prop where
  label : s'.label = .returned userSectorSize
  data : ∀ j, s.usedSectNum ≤ j → j < n → ∀ i : Nat, i < 2048 →
    (s'.world.cdChunkBuf (2048 * j + i)).val = user (startAddr + j) i
  below : ∀ a, a < s.pdCDBuff → s'.world.cdChunkBuf a = s.world.cdChunkBuf a
  lastSector : s'.world.gLastSector = startAddr + n - 1
  steady : Steady x k s.world s'.world

/-! ### The header counter -/

theorem retryFrame_researchCnt (secdiff : Int) (s : Scan) :
    (s.retryFrame secdiff).world.researchCnt = s.world.researchCnt := by
  obtain ⟨k, v, -, hsame⟩ := retryFrame_same secdiff s
  rw [hsame]

theorem move_researchCnt (env : Env) (m : Int) (s : Scan) :
    (s.move env m).world.researchCnt = s.world.researchCnt :=
  yield_researchCnt env s.world

theorem correct_researchCnt (codec : Codec) (s : Scan) :
    (s.correct codec).2.world.researchCnt = s.world.researchCnt := by
  unfold Scan.correct
  rcases codec.c3Decoder (blockAt s.world.cdChunkBuf s.psCDBuff) cdC3Cnt with ⟨res, blk⟩
  simp only
  split <;> rfl

theorem Unwanted.researchCnt {t : Scan} (h : Unwanted env s t) :
    t.world.researchCnt = s.world.researchCnt := by
  have hturned : ∀ {u : Scan}, Turned env s u → u.world.researchCnt = s.world.researchCnt := by
    rintro u (rfl | rfl)
    · rfl
    · exact yield_researchCnt env s.world
  cases h with
  | gaveUp => rfl
  | again u hu _ secdiff => exact (retryFrame_researchCnt secdiff u).trans (hturned hu)
  | passed u hu k => exact (move_researchCnt env k u).trans (hturned hu)

/-- A header is counted, once. -/
theorem headerStep_researchCnt (env : Env) (codec : Codec) (startAddr n : Nat) (s : Scan) :
    (headerStep env codec startAddr n s).world.researchCnt = s.world.researchCnt + 1 := by
  have hcount : (s.descramble codec).world.researchCnt = s.world.researchCnt + 1 := rfl
  rcases headerStep_ways env codec startAddr n s with ⟨-, hstep⟩ | hother
  · rw [hstep]
    generalize s.descramble codec = d at hcount ⊢
    have hcorrect : (d.correct codec).2.world.researchCnt = s.world.researchCnt + 1 :=
      (correct_researchCnt codec d).trans hcount
    rcases deliverStep_ways env codec startAddr n _ _ d with ⟨-, hstep'⟩ | ⟨-, hstep'⟩
    · rw [hstep']
      exact hcorrect
    · rw [hstep']
      exact (yield_researchCnt env _).trans hcorrect
  · exact hother.researchCnt.trans hcount

/-- A search never counts down. -/
theorem searchLbnStep_researchCnt (env : Env) (codec : Codec) (startAddr n : Nat) (s : Scan) :
    s.world.researchCnt ≤ (searchLbnStep env codec startAddr n s).world.researchCnt := by
  have hsearched : (s.searched env).world.researchCnt = s.world.researchCnt :=
    yield_researchCnt env s.world
  have hheader : (s.atHeader env).world.researchCnt = s.world.researchCnt :=
    (yield_researchCnt env _).trans ((move_researchCnt env _ (s.searched env)).trans hsearched)
  have hways := searchLbnStep_ways env codec startAddr n s
  generalize searchLbnStep env codec startAddr n s = t at hways ⊢
  cases hways with
  | missed => exact ((move_researchCnt env _ (s.searched env)).trans hsearched).ge
  | lost => exact hsearched.ge
  | forced => exact hheader.ge
  | header =>
    rw [headerStep_researchCnt, hheader]
    exact Int.le_add_one le_rfl

/-- **A run of wanted sectors is delivered in order.** -/
theorem Scanning.deliver_all (startAddr n : Nat) (user : Nat → Nat → UInt8)
    (henv : env.Obeys (Streams x)) (hkmalloc : ∀ w, (env w).kmalloc = true) (m fuel : Nat)
    (h : Scanning x c e N s) (hlabel : s.label = .searchLbn) (hdst : s.pdCDBuff ≤ s.psCDBuff)
    (hplace : s.pdCDBuff = 2048 * s.usedSectNum) (hn : s.usedSectNum + (m + 1) = n)
    (hN : N + 2352 * (m + 1) ≤ e) (hf : startAddr + n ≤ 450000)
    (hgood : ∀ j, j ≤ m → GoodSector codec (startAddr + s.usedSectNum + j)
      (user (startAddr + s.usedSectNum + j))
      ((x s.world.seeks s.world.seekMsf).block (c + N + 2352 * j))) :
    Served x startAddr n user ((N - s.psCDBuff) / 4 + 588 * (m + 1)) s
      ((scanStep env codec fuel startAddr n)^[m + 1] s) ∧
    s.world.researchCnt ≤ ((scanStep env codec fuel startAddr n)^[m + 1] s).world.researchCnt := by
  have hcount := searchLbnStep_researchCnt env codec startAddr n s
  induction m generalizing s N with
  | zero =>
    have hstep : (scanStep env codec fuel startAddr n)^[0 + 1] s
        = searchLbnStep env codec startAddr n s :=
      scanStep_searchLbn env codec hlabel
    have hgood₀ := hgood 0 le_rfl
    simp only [Nat.cast_zero, mul_zero, add_zero] at hgood₀
    have hd := h.deliver (n := n) henv hkmalloc hlabel hdst (by omega) (by omega) hgood₀
    rw [hstep]
    refine ⟨⟨?_, fun j h₁ h₂ i hi => ?_, hd.below, ?_, ?_⟩, hcount⟩
    · -- the last sector wanted: the call returns
      rw [hd.label, if_neg (by omega)]
    · have hj : j = s.usedSectNum := by omega
      subst hj
      rw [← hplace]
      exact hd.data i hi
    · rw [hd.lastSector]
      omega
    · exact hd.steady
  | succ m ih =>
    have hgood₀ := hgood 0 (by omega)
    simp only [Nat.cast_zero, mul_zero, add_zero] at hgood₀
    have hd := h.deliver (n := n) henv hkmalloc hlabel hdst (by omega) (by omega) hgood₀
    have hstep : scanStep env codec fuel startAddr n s
        = searchLbnStep env codec startAddr n s :=
      scanStep_searchLbn env codec hlabel
    rw [Function.iterate_succ_apply, hstep]
    generalize searchLbnStep env codec startAddr n s = s' at hd hcount ⊢
    -- the rest is delivered from the sector behind this one
    obtain ⟨hrest, hcount'⟩ := ih (s := s') (N := N + 2352) hd.scanning
      (by rw [hd.label, if_pos (by omega)]) (by rw [hd.dst, hd.scan]; have := h.ahead; omega)
      (by rw [hd.dst, hd.used]; push_cast; omega) (by rw [hd.used]; omega)
      (by push_cast at hN ⊢; omega) (fun j hj => by
        have hnext := hgood (j + 1) (by omega)
        rw [hd.used, hd.steady.seeks, hd.steady.seekMsf,
          show startAddr + (s.usedSectNum + 1) + j = startAddr + s.usedSectNum + (j + 1) by omega,
          show c + (N + 2352) + 2352 * (j : Int) = c + N + 2352 * ((j + 1 : Nat) : Int) by
            push_cast; ring]
        exact hnext)
      (searchLbnStep_researchCnt env codec startAddr n s')
    refine ⟨⟨hrest.label, fun j h₁ h₂ i hi => ?_, fun a ha => ?_, hrest.lastSector, ?_⟩,
      hcount.trans hcount'⟩
    · by_cases hj : j = s.usedSectNum
      · -- the sectors that follow are placed above this one
        subst hj
        rw [hrest.below _ (by rw [hd.dst]; omega), ← hplace]
        exact hd.data i hi
      · exact hrest.data j (by rw [hd.used]; omega) h₂ i hi
    · rw [hrest.below a (by rw [hd.dst]; omega)]
      exact hd.below a ha
    · have hsteady := hd.steady.trans hrest.steady
      rw [hd.scan] at hsteady
      have hsum : (N - s.psCDBuff) / 4 + 588 + ((N + 2352 - (N + 2352)) / 4 + 588 * ((m : Int) + 1))
          = (N - s.psCDBuff) / 4 + 588 * (((m + 1 : Nat) : Int) + 1) := by
        push_cast
        omega
      rw [hsum] at hsteady
      exact hsteady

/-! ### A disc that decodes -/

/-- Byte `i` of a mode 1 sector whose user data is `0x55` throughout. -/
def discByte (f i : Nat) : UInt8 :=
  if i < 12 then pattern i
  else if i = 12 then UInt8.ofNat (frame2min f)
  else if i = 13 then UInt8.ofNat (frame2sec f)
  else if i = 14 then UInt8.ofNat (frame2frame f)
  else if i = 15 then mode1
  else 0x55

/-- The user data. -/
theorem discByte_user (f : Nat) {i : Nat} (hi : 16 ≤ i) : discByte f i = 0x55 := by
  unfold discByte
  rw [if_neg (by omega), if_neg (by omega), if_neg (by omega), if_neg (by omega),
    if_neg (by omega)]

/-- The sectors from frame `g` on. -/
def discStream (g : Nat) : Stream := fun q => discByte (g + (q / 2352).toNat) (q % 2352).toNat

/-- Sector `j` of the stream. -/
theorem discStream_block (g j : Nat) {i : Nat} (hi : i < 2352) :
    ((discStream g).block (2352 * j) i).val = discByte (g + j) i := by
  have hdiv : (2352 * (j : Int) + i) / 2352 = j := by omega
  have hmod : (2352 * (j : Int) + i) % 2352 = i := by omega
  unfold Stream.block discStream
  rw [hdiv, hmod]
  rfl

theorem descrambled_plain (raw : Nat → Cell) {i : Nat} (hi : i < 2352) :
    descrambled plainCodec raw i = (raw i).val := by
  unfold descrambled
  rw [if_pos hi]
  change rawBytes raw i = _
  unfold rawBytes
  rw [if_pos hi]

/-- Each sector of the disc decodes. -/
theorem goodSector_disc {f : Nat} {raw : Nat → Cell}
    (h : ∀ i, i < 2352 → (raw i).val = discByte f i) :
    GoodSector plainCodec f (fun _ => 0x55) raw := by
  have hbyte : ∀ i, i < 2352 → descrambled plainCodec raw i = discByte f i := by
    intro i hi
    rw [descrambled_plain raw hi, h i hi]
  have hmode : descrambled plainCodec raw 15 = mode1 := hbyte 15 (by decide)
  have hloc : (dataLocation (descrambled plainCodec raw 15)).toNat = 16 := by
    rw [hmode]
    rfl
  have hbcd : ∀ n, (UInt8.ofNat (cdHex2bcd n)).toNat = cdHex2bcd n := by
    intro n
    rw [UInt8.toNat_ofNat', Nat.mod_eq_of_lt (cdHex2bcd_lt n)]
  refine ⟨fun j hj => ?_, ?_, ?_, ?_, le_rfl, fun i _ => rfl, fun i hi => ?_⟩
  · rw [h j (by omega)]
    exact if_pos hj
  · rw [hbyte 12 (by decide)]
    exact hbcd _
  · rw [hbyte 13 (by decide)]
    exact hbcd _
  · rw [hbyte 14 (by decide)]
    exact hbcd _
  · rw [hloc, hbyte (16 + i) (by omega)]
    exact discByte_user f (by omega)

end CdPlayer
