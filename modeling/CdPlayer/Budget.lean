/-
CdPlayer/Budget.lean

How far the scan goes.

A fetch places what is asked for and twelve sectors more.  The scan pointer
then passes over bytes that are not delivered: before a sync pattern, behind
a header that is not wanted, and in one go over as many sectors as the
header is behind.  Only the last of these is checked against anything, and
that is the ring, not the chunk.

`Passage` counts those bytes.  As long as they stay within the margin
(`Passage.WithinMargin`), every access of the scan stays within the last
fetch (`InData`) and the read pointer is never advanced past what is
buffered (`Note.InBuffer`).  The invariant is `Budget`: at `SEARCH_LBN` the
ring holds at least what is left of the fetch.

Main result: `scanAt_in_data`.
-/
import CdPlayer.Deck
import CdPlayer.HasData
import CdPlayer.Passage
import CdPlayer.Stamps

namespace CdPlayer

open ByteStore Run

variable {env : Env} {codec : Codec} {fuel startAddr n : Nat}

/-! ### The last fetch -/

/-- The bytes from `a` to `b` have been placed by the last fetch. -/
def Fetched (l : List Access) (a b : Int) : Prop :=
  ∃ off size, lastFetch l = some (off, size) ∧ off ≤ a ∧ b ≤ off + size

/-- The access stays within the last fetch. -/
def Access.InData (l : List Access) : Access → Prop
  | .search off len => Fetched l off (off + len)
  | .block off => Fetched l off (off + 2352)
  | .copy dst src => Fetched l dst (dst + 2048) ∧ Fetched l src (src + 2048)
  | .fetch _ _ | .accepted _ _ => True

/-- Every access of the trace has stayed within the last fetch before it. -/
def InData : List Access → Prop
  | [] => True
  | a :: l => a.InData l ∧ InData l

/-! ### The margin -/

/-- Where the next search finds the pattern; 0 if it fails. -/
def Scan.matchOffset (env : Env) (s : Scan) : Int :=
  max 0 (cdKmpPatternSearch (env s.world).kmalloc (fun i => s.byte i) 2352 pattern cdHeadSize).1

/-- What has been passed over, and what the next search will pass over, is at
most eleven sectors and the sectors still to deliver. -/
def Passage.WithinMargin (env : Env) (n : Nat) (s : Scan) (p : Passage) : Prop :=
  s.label = .searchLbn →
    p.passed + s.matchOffset env ≤ 2352 * (11 + ((n : Int) - p.delivered))

/-! ### The ring -/

/-- Since `w₀` the reader has not been advanced past what was buffered, and
`R` samples are there.  Both rest on honest notes. -/
structure Supply (w₀ : World) (R : Int) (w : World) : Prop where
  ring : RingOk w.sCDDIBuffer
  notes : NotesHonest w → Adds Note.InBuffer w₀ w
  avail : NotesHonest w → R ≤ singleBufferDataAvailable w.sCDDIBuffer

variable {w₀ w w' : World} {R : Int}

theorem Supply.mono {R' : Int} (h : Supply w₀ R w) (hle : R' ≤ R) : Supply w₀ R' w :=
  ⟨h.ring, h.notes, fun hok => hle.trans (h.avail hok)⟩

/-- What is the thread's own does not matter. -/
theorem Supply.own (h : Supply w₀ R w) (hring : w'.sCDDIBuffer = w.sCDDIBuffer)
    (hnotes : w'.notes = w.notes) : Supply w₀ R w' := by
  have hback : NotesHonest w' → NotesHonest w := fun hok => hok.of_mem fun m hm => hnotes ▸ hm
  refine ⟨by rw [hring]; exact h.ring, fun hok => ?_, fun hok => ?_⟩
  · exact (h.notes (hback hok)).trans (.same hnotes)
  · rw [hring]
    exact h.avail (hback hok)

/-- A turn can only add samples. -/
theorem Supply.yield (h : Supply w₀ R w) : Supply w₀ R (yield env w) := by
  have hgrows := (frame_yield env w).notes
  have hback : NotesHonest (CdPlayer.yield env w) → NotesHonest w :=
    fun hok => hok.of_mem fun m hm => hgrows.mem hm
  refine ⟨ringOk_yield env h.ring, fun hok => ?_, fun hok => ?_⟩
  · exact (h.notes (hback hok)).trans (hgrows.mono Note.Passive.inBuffer)
  · have hstock : Stocked R.toNat (CdPlayer.yield env w) := by
      refine stocked_yield h.ring (fun hw => ?_) hok
      have hnonneg := h.ring.dataAvailable_nonneg
      have havail := h.avail hw
      unfold Stocked
      omega
    exact (Int.self_le_toNat R).trans hstock

/-- A move within what is buffered. -/
theorem Supply.advance {k : Int} (h : Supply w₀ R w) (hk : 0 ≤ k) (hk' : k ≤ 2097152)
    (hle : NotesHonest w → k ≤ singleBufferDataAvailable w.sCDDIBuffer) :
    Supply w₀ (R - k) (updateReadPointer k w) := by
  have hback : NotesHonest (updateReadPointer k w) → NotesHonest w :=
    fun hok => hok.of_mem fun m hm => List.mem_cons_of_mem _ hm
  refine ⟨h.ring.advance hk hk', fun hok => ?_, fun hok => ?_⟩
  · exact (h.notes (hback hok)).trans
      (.cons (n := .advance k (singleBufferDataAvailable w.sCDDIBuffer)) rfl (hle (hback hok)))
  · have havail := h.ring.dataAvailable_advance hk (hle (hback hok))
    have hR := h.avail (hback hok)
    change R - k ≤ singleBufferDataAvailable (singleBufferUpdateReadPointer w.sCDDIBuffer k)
    rw [havail]
    omega

/-! ### The situation in a round -/

/-- Between two fetches.  The last one has placed `size` bytes at `off`. -/
structure OnData (w₀ : World) (n : Nat) (off size : Int) (s : Scan) : Prop where
  fetch : lastFetch s.trace = some (off, size)
  inData : InData s.trace
  dst : s.pdCDBuff = off + 2048 * deliveredSince s.trace
  length : size = 2352 * (12 + ((n : Int) - s.usedSectNum + deliveredSince s.trace))
  behind : s.pdCDBuff ≤ s.psCDBuff
  /-- The ring holds what is left of the fetch. -/
  supply : ∃ R, Supply w₀ R s.world ∧ off + size ≤ s.psCDBuff + 4 * R

variable {off size : Int} {s t : Scan}

theorem OnData.fetched (h : OnData w₀ n off size s) {a b : Int} (ha : off ≤ a)
    (hb : b ≤ off + size) : Fetched s.trace a b :=
  ⟨off, size, h.fetch, ha, hb⟩

/-- Within the margin the next block is in the fetch. -/
theorem OnData.margin (h : OnData w₀ n off size s) {p : Passage} (hp : Counts s p)
    (hlabel : s.label = .searchLbn) (hm : p.WithinMargin env n s) :
    s.psCDBuff + s.matchOffset env + 2352 ≤ off + size := by
  have hm := hm hlabel
  have hsize := h.length
  have hdelivered := hp.delivered
  obtain ⟨off', size', hfetch, hps⟩ := hp.passed hlabel
  rw [h.fetch] at hfetch
  obtain ⟨rfl, rfl⟩ := Prod.mk.inj (Option.some.inj hfetch)
  omega

/-- What changes neither pointers nor ring. -/
theorem OnData.own (h : OnData w₀ n off size s) (hps : t.psCDBuff = s.psCDBuff)
    (hpd : t.pdCDBuff = s.pdCDBuff) (hused : t.usedSectNum = s.usedSectNum)
    (htrace : t.trace = s.trace) (hring : t.world.sCDDIBuffer = s.world.sCDDIBuffer)
    (hnotes : t.world.notes = s.world.notes) : OnData w₀ n off size t := by
  obtain ⟨R, hR, hle⟩ := h.supply
  refine ⟨?_, ?_, ?_, ?_, ?_, R, hR.own hring hnotes, ?_⟩
  · rw [htrace]; exact h.fetch
  · rw [htrace]; exact h.inData
  · rw [hpd, htrace]; exact h.dst
  · rw [hused, htrace]; exact h.length
  · rw [hpd, hps]; exact h.behind
  · rw [hps]; exact hle

theorem OnData.turn (h : OnData w₀ n off size s) :
    OnData w₀ n off size (s.onWorld (yield env)) := by
  obtain ⟨R, hR, hle⟩ := h.supply
  exact ⟨h.fetch, h.inData, h.dst, h.length, h.behind, R, hR.yield, hle⟩

/-- An access other than a fetch or a delivery. -/
theorem OnData.log (h : OnData w₀ n off size s) {a : Access} (ha : a.InData s.trace)
    (hfetch : lastFetch (a :: s.trace) = lastFetch s.trace)
    (hcount : deliveredSince (a :: s.trace) = deliveredSince s.trace) :
    OnData w₀ n off size (s.log a) where
  fetch := hfetch.trans h.fetch
  inData := ⟨ha, h.inData⟩
  dst := by
    change s.pdCDBuff = off + 2048 * deliveredSince (a :: s.trace)
    rw [hcount]
    exact h.dst
  length := by
    change size = 2352 * (12 + ((n : Int) - s.usedSectNum + deliveredSince (a :: s.trace)))
    rw [hcount]
    exact h.length
  behind := h.behind
  supply := h.supply

/-- A move that the ring admits. -/
theorem OnData.moveRing (env : Env) (h : OnData w₀ n off size s) {k : Int} (hk : 0 ≤ k)
    (hk' : k ≤ 8388608)
    (hle : NotesHonest s.world → k / 4 ≤ singleBufferDataAvailable s.world.sCDDIBuffer) :
    OnData w₀ n off size (s.move env k) := by
  obtain ⟨R, hR, hend⟩ := h.supply
  have hnonneg : 0 ≤ k / 4 := by omega
  -- both bounds survive the turn
  have hturn : Supply w₀ R (yield env s.world) := hR.yield
  have hguard : Supply w₀ (k / 4) (yield env s.world) :=
    (⟨hR.ring, hR.notes, hle⟩ : Supply w₀ (k / 4) s.world).yield
  refine ⟨h.fetch, h.inData, h.dst, h.length, ?_, R - k / 4,
    hturn.advance hnonneg (by omega) hguard.avail, ?_⟩
  · change s.pdCDBuff ≤ s.psCDBuff + k
    have hbehind := h.behind
    omega
  · change off + size ≤ s.psCDBuff + k + 4 * (R - k / 4)
    omega

/-- A move within the fetch. -/
theorem OnData.move (env : Env) (h : OnData w₀ n off size s) {k : Int} (hk : 0 ≤ k)
    (hk' : k ≤ 8388608) (hin : s.psCDBuff + k ≤ off + size) :
    OnData w₀ n off size (s.move env k) := by
  refine h.moveRing env hk hk' fun hok => ?_
  obtain ⟨R, hR, hend⟩ := h.supply
  have havail := hR.avail hok
  omega

/-! ### A search -/

theorem OnData.inPlace (h : OnData w₀ n off size s) (blk : Nat → UInt8)
    (hblock : off ≤ s.psCDBuff) (hend : s.psCDBuff + 2352 ≤ off + size) :
    OnData w₀ n off size (s.inPlace blk) := by
  have hworld : OnData w₀ n off size
      (s.onWorld fun w => { w with cdChunkBuf := putBlock w.cdChunkBuf s.psCDBuff blk }) :=
    h.own rfl rfl rfl rfl rfl rfl
  exact hworld.log (a := .block s.psCDBuff) (h.fetched hblock hend) rfl rfl

theorem OnData.retryFrame (h : OnData w₀ n off size s) (secdiff : Int) :
    OnData w₀ n off size (s.retryFrame secdiff) := by
  obtain ⟨k, v, -, hsame⟩ := retryFrame_same secdiff s
  rw [hsame]
  exact h.own rfl rfl rfl rfl rfl rfl

theorem OnData.goto (h : OnData w₀ n off size s) (l : Label) :
    OnData w₀ n off size (s.goto l) :=
  h.own rfl rfl rfl rfl rfl rfl

theorem OnData.turned (h : OnData w₀ n off size s) (ht : Turned env s t) :
    OnData w₀ n off size t ∧ t.psCDBuff = s.psCDBuff := by
  rcases ht with rfl | rfl
  · exact ⟨h, rfl⟩
  · exact ⟨h.turn, rfl⟩

/-- A header that is not the one wanted.  The skip over some sectors is checked
against the ring alone. -/
theorem OnData.unwanted (h : OnData w₀ n off size s) (hend : s.psCDBuff + 2352 ≤ off + size)
    (hother : Unwanted env s t) : OnData w₀ n off size t := by
  cases hother with
  | gaveUp => exact h.goto _
  | again t ht _ secdiff => exact (h.turned ht).1.retryFrame secdiff
  | passed t ht k hk =>
    obtain ⟨hturned, hps⟩ := h.turned ht
    obtain ⟨R, hR, -⟩ := hturned.supply
    have hnonneg := hk.nonneg
    have hle := hk.le hR.ring
    rcases hk with rfl | ⟨m, hm, rfl, hbuffered⟩
    · exact (hturned.move env hnonneg hle (by
        simp only [userSectorSize]
        omega)).goto _
    · have hbytes := hbuffered hR.ring
      exact (hturned.moveRing env hnonneg hle fun _ => by omega).goto _

/-- A delivery. -/
theorem OnData.accept (env : Env) (startAddr : Nat) (h : OnData w₀ n off size s)
    (hend : s.psCDBuff + 2352 ≤ off + size) (raw : Nat → Cell) (lmode : UInt8) :
    OnData w₀ n off size (s.accept env startAddr raw lmode) := by
  have hloc := dataLocation_bounds lmode
  have hbehind := h.behind
  have hdst := h.dst
  have hlength := h.length
  obtain ⟨R, hR, hle⟩ := h.supply
  have hcopied : OnData w₀ n off size ((s.onWorld fun w =>
      cdSetLastSector (u32 (startAddr + s.usedSectNum : Nat)) { w with
        cdChunkBuf := copyUp w.cdChunkBuf s.pdCDBuff (s.psCDBuff + dataLocation lmode) 2048 }).log
          (.copy s.pdCDBuff (s.psCDBuff + dataLocation lmode))) := by
    -- both ends of the copy are inside what was fetched
    refine OnData.log ?_ ?_ ?_ ?_
    · exact h.own rfl rfl rfl rfl rfl rfl
    · exact ⟨h.fetched (by omega) (by omega), h.fetched (by omega) (by omega)⟩
    · rfl
    · rfl
  have hmove := hcopied.move env (k := cddaSectorSize) (by decide) (by decide) hend
  obtain ⟨R', hR', hle'⟩ := hmove.supply
  refine ⟨hmove.fetch, ⟨trivial, hmove.inData⟩, ?_, ?_, ?_, R', hR', hle'⟩
  · change s.pdCDBuff + userSectorSize = off + 2048 * ((deliveredSince s.trace + 1 : Nat) : Int)
    simp only [userSectorSize]
    push_cast
    omega
  · change size = 2352 * (12 + ((n : Int) - ((s.usedSectNum + 1 : Nat) : Int)
      + ((deliveredSince s.trace + 1 : Nat) : Int)))
    push_cast
    omega
  · -- 2048 bytes delivered for 2352 scanned: the destination stays behind
    change s.pdCDBuff + userSectorSize ≤ s.psCDBuff + cddaSectorSize
    simp only [userSectorSize, cddaSectorSize]
    omega

theorem OnData.correct (codec : Codec) (h : OnData w₀ n off size s) (hblock : off ≤ s.psCDBuff)
    (hend : s.psCDBuff + 2352 ≤ off + size) : OnData w₀ n off size (s.correct codec).2 := by
  unfold Scan.correct
  rcases codec.c3Decoder (blockAt s.world.cdChunkBuf s.psCDBuff) cdC3Cnt with ⟨res, blk⟩
  have hplace := h.inPlace blk hblock hend
  simp only
  split
  · exact hplace.own rfl rfl rfl rfl rfl rfl
  · exact hplace

theorem OnData.deliverStep (h : OnData w₀ n off size s) (hblock : off ≤ s.psCDBuff)
    (hend : s.psCDBuff + 2352 ≤ off + size) (raw : Nat → Cell) (lmode : UInt8) :
    OnData w₀ n off size (deliverStep env codec startAddr n raw lmode s) := by
  have hcorrect := h.correct codec hblock hend
  have hps : (s.correct codec).2.psCDBuff = s.psCDBuff := (correct_spec codec s).2.2.2.1
  rcases deliverStep_ways env codec startAddr n raw lmode s with ⟨-, hstep⟩ | ⟨-, hstep⟩
  · rw [hstep]
    exact hcorrect.goto _
  · rw [hstep]
    exact (hcorrect.accept env startAddr (by rw [hps]; exact hend) raw lmode).goto _

/-- The header of a block within the fetch. -/
theorem OnData.headerStep (h : OnData w₀ n off size s) (hblock : off ≤ s.psCDBuff)
    (hend : s.psCDBuff + 2352 ≤ off + size) :
    OnData w₀ n off size (headerStep env codec startAddr n s) := by
  have hdesc : OnData w₀ n off size (s.descramble codec) :=
    (h.inPlace (codec.descrambleSector (blockAt s.world.cdChunkBuf s.psCDBuff)) hblock hend).own
      rfl rfl rfl rfl rfl rfl
  rcases headerStep_ways env codec startAddr n s with ⟨-, hstep⟩ | hother
  · rw [hstep]
    exact hdesc.deliverStep hblock hend _ _
  · exact hdesc.unwanted hend hother

/-- **A search within the margin stays on the data.** -/
theorem OnData.searchLbnStep (codec : Codec) (startAddr : Nat) (h : OnData w₀ n off size s)
    (hoff : off ≤ s.pdCDBuff) (hmargin : s.psCDBuff + s.matchOffset env + 2352 ≤ off + size) :
    OnData w₀ n off size (searchLbnStep env codec startAddr n s) := by
  have hbehind := h.behind
  have hbounds := searchResult_bounds env s
  have hoffset : s.matchOffset env = max 0 (s.searchResult env) := rfl
  have hturn : OnData w₀ n off size (s.onWorld (yield env)) := h.turn
  have hsearched : OnData w₀ n off size (s.searched env) :=
    hturn.log (a := .search s.psCDBuff (s.searchRead env)) (h.fetched (by omega) (by omega)) rfl rfl
  have hps : (s.searched env).psCDBuff = s.psCDBuff := rfl
  have hheader : 0 ≤ s.searchResult env → OnData w₀ n off size (s.atHeader env) := fun hres =>
    (hsearched.move env hres (by omega) (by omega)).turn
  have hways := searchLbnStep_ways env codec startAddr n s
  generalize CdPlayer.searchLbnStep env codec startAddr n s = t at hways ⊢
  cases hways with
  | missed hres hcnt =>
    have hmove := hsearched.move env (k := userSectorSize) (by decide) (by decide)
      (by simp only [userSectorSize]; omega)
    exact hmove.own rfl rfl rfl rfl rfl rfl
  | lost hres hcnt => exact hsearched.own rfl rfl rfl rfl rfl rfl
  | forced hres => exact (hheader hres).goto _
  | header hres =>
    have hpos : (s.atHeader env).psCDBuff = s.psCDBuff + s.searchResult env := rfl
    exact (hheader hres).headerStep (by omega) (by omega)

/-! ### A call -/

/-- The state at a label. -/
structure Budget (w₀ : World) (n : Nat) (s : Scan) : Prop where
  inData : InData s.trace
  supply : Supply w₀ 0 s.world
  live : s.label = .tryRead ∨ s.label = .searchLbn → s.usedSectNum < n
  round : s.label = .searchLbn → ∃ off size, off ≤ s.pdCDBuff ∧ OnData w₀ n off size s

/-- What the ring holds is at least nothing. -/
theorem OnData.supply_zero (h : OnData w₀ n off size s) : Supply w₀ 0 s.world := by
  obtain ⟨R, hR, -⟩ := h.supply
  exact ⟨hR.ring, hR.notes, fun _ => hR.ring.dataAvailable_nonneg⟩

/-- From `TRY_READ` with the samples that a successful read has met. -/
theorem Budget.tryReadStep (h : Budget w₀ n s) (hn : n ≤ 187) (hlabel : s.label = .tryRead)
    (hacts : Acts env World.initial s.world) :
    Budget w₀ n (tryReadStep env fuel startAddr n s) := by
  have hused := h.live (.inl hlabel)
  have hreq : u32 ((n : Int) - s.usedSectNum) = n - s.usedSectNum := by
    rw [← Nat.cast_sub hused.le]
    exact u32_natCast (by omega)
  unfold CdPlayer.tryReadStep
  simp only [hreq]
  generalize u32 ((startAddr + s.usedSectNum : Nat) + cdGetDiffValue) = addr
  have hnotes := (cdReadData_below env fuel addr (n - s.usedSectNum) s.pdCDBuff s.world).2.2.2
  have hread := cdReadData_acts env fuel addr (n - s.usedSectNum) s.pdCDBuff s.world
  have hvalue := fun v => @cdReadData_value env fuel addr (n - s.usedSectNum) s.pdCDBuff s.world v
  have hcopies := fun v => cdReadData_copies env fuel addr (n - s.usedSectNum) s.pdCDBuff (v := v)
    h.supply.ring (hacts.settled (.inr rfl))
  rcases hrun : cdReadData env fuel addr (n - s.usedSectNum) s.pdCDBuff s.world with ⟨res, u⟩
  rw [hrun] at hnotes hread hvalue hcopies
  have hsupply : Supply w₀ 0 u := by
    have hring := hread.ringOk h.supply.ring
    refine ⟨hring, fun hu => ?_, fun _ => hring.dataAvailable_nonneg⟩
    exact (h.supply.notes (hu.of_mem fun m hm => hread.mem_notes hm)).trans hnotes
  rcases res with - | v
  · -- the read never returns
    exact ⟨h.inData, hsupply, nofun, nofun⟩
  · simp only at hcopies ⊢
    by_cases hneg : v ≤ 0
    · rw [if_pos hneg]
      exact ⟨h.inData, hsupply, nofun, nofun⟩
    · -- the chunk has the twelve sectors of the margin beyond those wanted
      rw [if_neg hneg]
      refine ⟨⟨trivial, h.inData⟩, hsupply, fun _ => hused, fun _ => ?_⟩
      have hwant : wantSampleSize (n - s.usedSectNum) = 588 * (n - s.usedSectNum + 12) :=
        wantSampleSize_eq (by omega)
      have hval : v = (wantSampleSize (n - s.usedSectNum) : Int) * 4 := hvalue v rfl (by omega)
      have havail : NotesHonest u →
          (wantSampleSize (n - s.usedSectNum) : Int) ≤ singleBufferDataAvailable u.sCDDIBuffer := by
        intro hok
        obtain ⟨req, u', heq, -, hstock⟩ := hcopies v rfl (by omega) hok
        obtain ⟨_, _, hcopy⟩ := cdCopyReadData_same s.pdCDBuff
          (2 * wantSampleSize (n - s.usedSectNum)) req u'
        have hring : u.sCDDIBuffer = u'.sCDDIBuffer := by rw [(Prod.mk.inj heq).2, hcopy]
        rw [hring]
        exact hstock
      refine ⟨s.pdCDBuff, v, le_rfl, rfl, ⟨trivial, h.inData⟩, ?_, ?_, le_rfl,
        wantSampleSize (n - s.usedSectNum), ⟨hsupply.ring, hsupply.notes, havail⟩, ?_⟩
      · change s.pdCDBuff = s.pdCDBuff + 2048 * ((0 : Nat) : Int)
        omega
      · change v = 2352 * (12 + ((n : Int) - s.usedSectNum + ((0 : Nat) : Int)))
        omega
      · change s.pdCDBuff + v ≤ s.pdCDBuff + 4 * (wantSampleSize (n - s.usedSectNum) : Int)
        omega

theorem Budget.searchLbnStep (h : Budget w₀ n s) {p : Passage} (hp : Counts s p)
    (hlabel : s.label = .searchLbn) (hm : p.WithinMargin env n s) :
    Budget w₀ n (searchLbnStep env codec startAddr n s) := by
  obtain ⟨off, size, hoff, hdata⟩ := h.round hlabel
  have hstep := hdata.searchLbnStep codec startAddr hoff (hdata.margin hp hlabel hm)
  have hcases := searchLbnStep_cases env codec startAddr n s hlabel
  have hused := h.live (.inr hlabel)
  generalize CdPlayer.searchLbnStep env codec startAddr n s = s' at hstep hcases ⊢
  refine ⟨hstep.inData, hstep.supply_zero, fun hl => ?_, fun _ => ⟨off, size, ?_, hstep⟩⟩
  · rcases hcases with hp | ⟨pos, hd⟩
    · rw [hp.used]
      exact hused
    · have hlab := hd.label
      rw [hd.used]
      by_contra hlast
      rw [if_neg hlast] at hlab
      rcases hl with hl | hl <;> (rw [hlab] at hl; exact absurd hl nofun)
  · rcases hcases with hp | ⟨pos, hd⟩
    · rw [hp.dst]
      exact hoff
    · rw [hd.dst]
      simp only [userSectorSize]
      omega

theorem supply_refl (h : RingOk w.sCDDIBuffer) : Supply w 0 w :=
  ⟨h, fun _ => .refl w, fun _ => h.dataAvailable_nonneg⟩

/-- `CD_Research_Frame` skips fewer sectors than are buffered. -/
theorem Supply.cdResearchFrame (h : Supply w₀ 0 w) (startAddr : Nat) :
    Supply w₀ 0 (cdResearchFrame env startAddr w) := by
  have hreq : Supply w₀ 0 (cdSetRequestSector startAddr w) := h.own rfl rfl
  unfold CdPlayer.cdResearchFrame
  simp only
  split
  · split
    next hsec =>
      have hturn : Supply w₀ 0 (CdPlayer.yield env (cdSetRequestSector startAddr w)) := hreq.yield
      have hu := hturn.ring.u32_dataAvailable
      have hlt := hturn.ring.dataAvailable_lt
      generalize s32 _ = secdiff at hsec ⊢
      split
      next hskip =>
        simp only [cddaSampleSize, cddaSectorSize] at hskip ⊢
        have hguard : Supply w₀ (secdiff * 2352 / 4)
            (CdPlayer.yield env (cdSetRequestSector startAddr w)) :=
          ⟨hturn.ring, hturn.notes, fun _ => by omega⟩
        have hturn' : Supply w₀ (secdiff * 2352 / 4)
            (CdPlayer.yield env (CdPlayer.yield env (cdSetRequestSector startAddr w))) :=
          hguard.yield
        exact (hturn'.advance (by omega) (by omega) hturn'.avail).mono (by omega)
      next => exact hturn.own rfl rfl
    next => exact hreq
  · exact hreq

theorem budget_enterScan (startAddr : Nat) (hn : 1 ≤ n) (h : RingOk w.sCDDIBuffer) :
    Budget w n (enterScan env startAddr w) := by
  have hturn : Supply w 0 (yield env w) := (supply_refl h).yield
  unfold enterScan
  simp only
  split
  · exact ⟨trivial, hturn, nofun, nofun⟩
  · exact ⟨trivial, hturn.cdResearchFrame startAddr, fun _ => hn, nofun⟩

/-- A call keeps to its budget as long as every search is within the margin. -/
theorem budget_scanAt (env : Env) (codec : Codec) {j fuel n k : Nat} {w : World}
    (hw : Reachable env codec j w) (hn : 1 ≤ n) (hn' : n ≤ 187) (startAddr : Nat)
    (hmargin : ∀ i < k, (passageAt env codec fuel startAddr n w i).WithinMargin env n
      (scanAt env codec fuel startAddr n w i)) :
    Budget w n (scanAt env codec fuel startAddr n w k) := by
  induction k with
  | zero => exact budget_enterScan startAddr hn hw.ringOk
  | succ k ih =>
    have hacts : Acts env World.initial (scanAt env codec fuel startAddr n w k).world :=
      hw.acts.scan codec fuel startAddr n k
    rw [scanAt_succ]
    have hprev := ih fun i hi => hmargin i (by omega)
    have hm := hmargin k (by omega)
    have hcounts := passageAt_counts env codec fuel startAddr n w k
    generalize scanAt env codec fuel startAddr n w k = s at *
    unfold scanStep
    rcases hl : s.label with - | - | res | -
    · exact hprev.tryReadStep hn' hl hacts
    · exact hprev.searchLbnStep hcounts hl hm
    · exact hprev
    · exact hprev

/-- **The search stays on the data it was given as long as what it passes over
stays within the margin.**  In every reachable state and for every content
the deck may deliver: while at every search of the call the bytes counted as
passed over are within the margin, all that is read, decoded and copied lies
within the last fetch, and, if notes are honest, the read pointer is never
advanced past what is buffered. -/
theorem scanAt_in_data (env : Env) (codec : Codec) {j fuel n k : Nat} {w : World}
    (hw : Reachable env codec j w) (hn : 1 ≤ n) (hn' : n ≤ 187) (startAddr : Nat)
    (hmargin : ∀ i < k, (passageAt env codec fuel startAddr n w i).WithinMargin env n
      (scanAt env codec fuel startAddr n w i)) :
    InData (scanAt env codec fuel startAddr n w k).trace ∧
    (NotesHonest (scanAt env codec fuel startAddr n w k).world →
      Adds Note.InBuffer w (scanAt env codec fuel startAddr n w k).world) := by
  have hbudget : Budget w n (scanAt env codec fuel startAddr n w k) :=
    budget_scanAt env codec hw hn hn' startAddr hmargin
  exact ⟨hbudget.inData, hbudget.supply.notes⟩

/-- A block that begins where the scan stands, or after it. -/
theorem matchOffset_eq {N : Int} (hkmalloc : (env s.world).kmalloc = true)
    (hahead : s.psCDBuff ≤ N) (hnear : N - s.psCDBuff ≤ 2340) (hsync : SyncAt s.world.cdChunkBuf N)
    (hfirst : ∀ a, s.psCDBuff ≤ a → a < N → ¬ SyncAt s.world.cdChunkBuf a) :
    s.matchOffset env = N - s.psCDBuff := by
  have hkmp := kmp_of_sync hahead hnear hsync hfirst
  unfold Scan.matchOffset Scan.byte
  rw [hkmalloc, hkmp]
  exact max_eq_right (sub_nonneg.mpr hahead)

/-- A deck that lands one sector before the one wanted. -/
def shortDeck : Env := fun w =>
  if w.datacdEnable = false then ⟨[.mount], false, true⟩
  else if w.waiting then ⟨[answerTo w.seeks 1], false, true⟩
  else if w.cdifEnable ∧ w.dmaSince = 0 then ⟨nextBlocks (discFrom 149) 0 10, false, true⟩
  else .quiet

theorem shortDeck_kmalloc (w : World) : (shortDeck w).kmalloc = true := by
  unfold shortDeck
  split
  · rfl
  · split
    · rfl
    · split <;> rfl

/-- The call for sector 150. -/
def shortScan (k : Nat) : Scan :=
  scanAt shortDeck plainCodec 1 150 1 (yield shortDeck World.initial) k

/-- The first sector of the fetch, 149, has been skipped, less 16 bytes. -/
def shortSkipped : Scan := headerStep shortDeck plainCodec 150 1 ((shortScan 1).found shortDeck 0)

/-- The second one has been delivered. -/
def shortRead : Scan := headerStep shortDeck plainCodec 150 1 (shortSkipped.found shortDeck 2352)

/-- The next pattern stands 16 bytes behind the scan pointer. -/
theorem shortSkipped_first {a : Int} (h₀ : 2336 ≤ a) (h₁ : a < 2352) :
    ¬ SyncAt shortSkipped.world.cdChunkBuf a := by
  have hnone : ∀ i < 16, ¬ ∀ j < 12,
      (shortSkipped.world.cdChunkBuf (2336 + (i : Nat) + (j : Nat))).val = pattern j := by
    decide +kernel
  obtain ⟨i, hi⟩ := Int.eq_ofNat_of_zero_le (sub_nonneg.mpr h₀)
  obtain rfl : a = 2336 + (i : Nat) := by omega
  exact hnone i (by omega)

theorem shortScan_two : shortScan 2 = shortSkipped := by
  unfold shortScan
  rw [scanAt_succ, scanStep_searchLbn shortDeck plainCodec (by decide +kernel)]
  refine searchLbnStep_found plainCodec 150 1 (shortDeck_kmalloc _) (by decide +kernel)
    (by decide +kernel) ?_ (fun a h₀ h₁ => ?_) (by decide +kernel)
  · unfold SyncAt
    decide +kernel
  · have hscan : (scanAt shortDeck plainCodec 1 150 1 (yield shortDeck World.initial) 1).psCDBuff
        = 0 := by decide +kernel
    omega

theorem shortSkipped_scan : shortSkipped.psCDBuff = 2336 ∧ shortSkipped.label = .searchLbn ∧
    lastFetch shortSkipped.trace = some (0, 30576) ∧ deliveredSince shortSkipped.trace = 0 ∧
    shortSkipped.usedSectNum = 0 := by
  decide +kernel

theorem shortSkipped_sync : SyncAt shortSkipped.world.cdChunkBuf 2352 := by
  unfold SyncAt
  decide +kernel

theorem shortScan_three : shortScan 3 = shortRead := by
  have htwo := shortScan_two
  obtain ⟨hps, hlabel, -⟩ := shortSkipped_scan
  unfold shortScan at htwo ⊢
  rw [scanAt_succ, htwo, scanStep_searchLbn shortDeck plainCodec hlabel]
  exact searchLbnStep_found plainCodec 150 1 (shortDeck_kmalloc _) (by rw [hps]; decide)
    (by rw [hps]; decide) shortSkipped_sync (fun a h₀ h₁ => shortSkipped_first (hps ▸ h₀) h₁)
    (by decide +kernel)

/-- Before the last search 2336 bytes have been passed over. -/
theorem shortScan_margin (i : Nat) (hi : i < 3) :
    (passageAt shortDeck plainCodec 1 150 1 (yield shortDeck World.initial) i).WithinMargin
      shortDeck 1 (shortScan i) := by
  have hcounts : Counts (shortScan i) _ :=
    passageAt_counts shortDeck plainCodec 1 150 1 (yield shortDeck World.initial) i
  intro hlabel
  obtain ⟨off, size, hfetch, hps⟩ := hcounts.passed hlabel
  have hdelivered := hcounts.delivered
  obtain rfl | rfl | rfl : i = 0 ∨ i = 1 ∨ i = 2 := by omega
  · revert hlabel
    decide +kernel
  · have hscan : (shortScan 1).psCDBuff = 0 ∧
        lastFetch (shortScan 1).trace = some (0, 30576) ∧
        deliveredSince (shortScan 1).trace = 0 ∧ (shortScan 1).usedSectNum = 0 := by
      decide +kernel
    have hmatch : (shortScan 1).matchOffset shortDeck = 0 - (shortScan 1).psCDBuff := by
      refine matchOffset_eq (shortDeck_kmalloc _) (by rw [hscan.1]) (by rw [hscan.1]; decide) ?_
        fun a h₀ h₁ => ?_
      · unfold SyncAt
        decide +kernel
      · rw [hscan.1] at h₀
        omega
    rw [hscan.2.1] at hfetch
    obtain ⟨rfl, rfl⟩ := Prod.mk.inj (Option.some.inj hfetch)
    rw [hmatch, hdelivered, hscan.2.2.2]
    omega
  · obtain ⟨hscan, -, hlast, hsince, hused⟩ := shortSkipped_scan
    have hmatch : shortSkipped.matchOffset shortDeck = 2352 - shortSkipped.psCDBuff :=
      matchOffset_eq (shortDeck_kmalloc _) (by rw [hscan]; decide) (by rw [hscan]; decide)
        shortSkipped_sync fun a h₀ h₁ => shortSkipped_first (hscan ▸ h₀) h₁
    rw [shortScan_two] at hfetch hps hdelivered ⊢
    rw [hlast] at hfetch
    obtain ⟨rfl, rfl⟩ := Prod.mk.inj (Option.some.inj hfetch)
    rw [hmatch, hdelivered, hused]
    omega

/-- A call that fetches, passes over a sector, searches on and delivers. -/
theorem scanAt_in_data_short :
    (shortScan 3).result = some userSectorSize ∧ InData (shortScan 3).trace ∧
    Adds Note.InBuffer (yield shortDeck World.initial) (shortScan 3).world := by
  have hreach : Reachable shortDeck plainCodec 1 (yield shortDeck World.initial) :=
    Reachable.init.turn
  obtain ⟨hdata, hbuffer⟩ := scanAt_in_data shortDeck plainCodec hreach le_rfl (by decide) 150
    shortScan_margin
  have hend : shortRead.result = some userSectorSize ∧ NotesHonest shortRead.world := by
    decide +kernel
  rw [← shortScan_three] at hend
  exact ⟨hend.1, hdata, hbuffer hend.2⟩

end CdPlayer
