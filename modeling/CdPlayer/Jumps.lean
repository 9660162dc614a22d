/-
CdPlayer/Jumps.lean

One search of `CD_DescrambleSector`, case by case.

From `SEARCH_LBN` to the next jump there are few ways: no pattern is found
and the scan goes on or is given up, the stream is stopped by force, or a
header is looked at (`Searched`).  The sector it heads is delivered or read
again if it is the one wanted (`deliverStep_ways`); if it is another one, the
call gives up, reads again, or passes on (`Unwanted`).

What holds along searches is shown by cases over these; the steps
themselves are opened here only, and where a particular header is followed.
-/
import CdPlayer.Descramble
import CdPlayer.Outside

namespace CdPlayer

variable {env : Env} {codec : Codec} {startAddr n : Nat} {s d t : Scan}

/-! ### The skip -/

/-- The distance to the wanted sector, for a header that is not the one wanted:
the two addresses differ modulo the word size. -/
theorem secdiff_of_ne {addr : Nat} (hne : s.frame ≠ u32 addr) :
    s32 (addr - (s.frame : Int)) ≠ 0 ∧ -2147483648 ≤ s32 (addr - (s.frame : Int)) ∧
      s32 (addr - (s.frame : Int)) < 2147483648 := by
  have hframe := cdBcdmsf2frame_lt (packMsf (s.byte minuteLoca).toNat
    (s.byte (minuteLoca + 1)).toNat (s.byte (minuteLoca + 2)).toNat)
  refine ⟨fun h0 => hne ?_, ?_, ?_⟩
  · unfold Scan.frame at h0 ⊢
    unfold s32 at h0
    unfold u32
    omega
  · unfold s32
    omega
  · unfold s32
    omega

section
variable {b : SingleBufferState} {secdiff : Int}

/-- What is skipped is at least one sector: it is a count of buffered sectors. -/
theorem skip_pos (hpos : secdiff ≠ 0) (hlow : -2147483648 ≤ secdiff)
    (hskip : u32 (singleBufferDataAvailable b) / cddaSampleSize ≥ u32 secdiff) : 0 < secdiff := by
  have hbound := u32_lt (singleBufferDataAvailable b)
  simp only [cddaSampleSize] at hskip
  unfold u32 at hskip hbound
  omega

/-- And all of it is buffered. -/
theorem RingOk.skip_le (h : RingOk b) (hpos : 0 < secdiff) (hhigh : secdiff < 2147483648)
    (hskip : u32 (singleBufferDataAvailable b) / cddaSampleSize ≥ u32 secdiff) :
    588 * secdiff ≤ singleBufferDataAvailable b := by
  have hu := h.u32_dataAvailable
  simp only [cddaSampleSize] at hskip
  unfold u32 at hskip hu
  omega

end

/-! ### A header that is not the one wanted -/

/-- The surroundings may have had a turn. -/
def Turned (env : Env) (d t : Scan) : Prop := t = d ∨ t = d.onWorld (yield env)

/-- The bytes by which the scan passes on beyond a header: the user data of a
sector, or some sectors, which are buffered, less 16 bytes. -/
def Stride (b : SingleBufferState) (k : Int) : Prop :=
  k = userSectorSize ∨
    ∃ m : Int, 0 < m ∧ k = 2352 * m - 16 ∧ (RingOk b → 588 * m ≤ singleBufferDataAvailable b)

theorem Stride.nonneg {b : SingleBufferState} {k : Int} (h : Stride b k) : 0 ≤ k := by
  rcases h with rfl | ⟨m, hm, rfl, -⟩
  · decide
  · omega

/-- It is a number of samples. -/
theorem Stride.samples {b : SingleBufferState} {k : Int} (h : Stride b k) : k % 4 = 0 := by
  rcases h with rfl | ⟨m, hm, rfl, -⟩
  · decide
  · omega

theorem Stride.le {b : SingleBufferState} {k : Int} (h : Stride b k) (hb : RingOk b) :
    k ≤ 8388608 := by
  have hlt := hb.dataAvailable_lt
  rcases h with rfl | ⟨m, hm, rfl, hbuffered⟩
  · decide
  · have hle := hbuffered hb
    omega

/-- What is done when the header looked at in `d` is not the one wanted. -/
inductive Unwanted (env : Env) (d : Scan) : Scan → Prop
  | gaveUp (res : Int) (hres : res = frameOver ∨ res = frameUnder) :
      Unwanted env d (d.goto (.returned res))
  | again (t : Scan) (ht : Turned env d t) (hretry : 0 < d.frameRetry) (secdiff : Int) :
      Unwanted env d (t.retryFrame secdiff)
  | passed (t : Scan) (ht : Turned env d t) (k : Int) (hk : Stride t.world.sCDDIBuffer k) :
      Unwanted env d ((t.move env k).goto .searchLbn)

theorem frameOverStep_unwanted (env : Env) (secdiff : Int) (d : Scan) :
    Unwanted env d (frameOverStep env secdiff d) := by
  unfold frameOverStep
  split
  · exact .gaveUp frameOver (.inl rfl)
  next hretry =>
    split
    · exact .again d (.inl rfl) (by omega) secdiff
    · exact .passed d (.inl rfl) userSectorSize (.inl rfl)

theorem frameUnderStep_unwanted (env : Env) (frame : Nat) {secdiff : Int} (hpos : secdiff ≠ 0)
    (hlow : -2147483648 ≤ secdiff) (hhigh : secdiff < 2147483648) (d : Scan) :
    Unwanted env d (frameUnderStep env frame secdiff d) := by
  have hturned : Turned env d (d.onWorld (yield env)) := .inr rfl
  unfold frameUnderStep
  split
  · exact .gaveUp frameUnder (.inr rfl)
  next hretry =>
    simp only
    split
    · exact .passed _ hturned userSectorSize (.inl rfl)
    · split
      next hskip =>
        have hsec : 0 < secdiff := skip_pos hpos hlow hskip
        have hbytes : secdiff * cddaSectorSize - cdMoveSize = 2352 * secdiff - 16 := by
          simp only [cddaSectorSize, cdMoveSize]
          omega
        exact .passed _ hturned _
          (.inr ⟨secdiff, hsec, hbytes, fun hring => hring.skip_le hsec hhigh hskip⟩)
      next =>
        split
        · exact .again _ hturned (by omega) secdiff
        · exact .passed _ hturned userSectorSize (.inl rfl)

/-! ### A header -/

/-- The sector wanted is read again, or it is delivered. -/
theorem deliverStep_ways (env : Env) (codec : Codec) (startAddr n : Nat) (raw : Nat → Cell)
    (lmode : UInt8) (s : Scan) :
    ((s.correct codec).1 < cdTrue ∧ 0 < (s.correct codec).2.c3Retry) ∧
      deliverStep env codec startAddr n raw lmode s = (s.correct codec).2.goto .tryRead ∨
    ¬ ((s.correct codec).1 < cdTrue ∧ 0 < (s.correct codec).2.c3Retry) ∧
      deliverStep env codec startAddr n raw lmode s
        = ((s.correct codec).2.accept env startAddr raw lmode).goto
          (if (s.correct codec).2.usedSectNum + 1 < n then .searchLbn
            else .returned userSectorSize) := by
  unfold deliverStep
  generalize s.correct codec = r
  obtain ⟨res, c⟩ := r
  simp only
  by_cases hretry : res < cdTrue ∧ c.c3Retry > 0
  · rw [if_pos hretry]
    exact .inl ⟨hretry, rfl⟩
  · rw [if_neg hretry]
    refine .inr ⟨hretry, ?_⟩
    have hused : (c.accept env startAddr raw lmode).usedSectNum = c.usedSectNum + 1 := rfl
    rw [hused]
    split <;> rfl

/-- The header is the one wanted, or it is not. -/
theorem headerStep_ways (env : Env) (codec : Codec) (startAddr n : Nat) (s : Scan) :
    (s.descramble codec).frame = u32 (startAddr + s.usedSectNum : Nat) ∧
      headerStep env codec startAddr n s = deliverStep env codec startAddr n
        (fun i => s.world.cdChunkBuf (s.psCDBuff + i)) ((s.descramble codec).byte modeLoca)
        (s.descramble codec) ∨
    Unwanted env (s.descramble codec) (headerStep env codec startAddr n s) := by
  have hused : (s.descramble codec).usedSectNum = s.usedSectNum := rfl
  unfold headerStep
  simp only [hused]
  generalize s.descramble codec = d
  by_cases heq : d.frame = u32 (startAddr + s.usedSectNum : Nat)
  · rw [if_pos heq]
    exact .inl ⟨heq, rfl⟩
  · rw [if_neg heq]
    refine .inr ?_
    split
    · exact frameOverStep_unwanted env _ d
    · obtain ⟨hpos, hlow, hhigh⟩ := secdiff_of_ne heq
      exact frameUnderStep_unwanted env _ hpos hlow hhigh d

/-! ### A search -/

/-- The result of the next `CD_KmpPatternSearch`. -/
def Scan.searchResult (env : Env) (s : Scan) : Int :=
  (cdKmpPatternSearch (env s.world).kmalloc (fun i => s.byte i) 2352 pattern cdHeadSize).1

/-- How far the next search reads. -/
def Scan.searchRead (env : Env) (s : Scan) : Nat :=
  (cdKmpPatternSearch (env s.world).kmalloc (fun i => s.byte i) 2352 pattern cdHeadSize).2

/-- A pattern is found within the window, or none. -/
theorem searchResult_bounds (env : Env) (s : Scan) :
    s.searchResult env = -1 ∧ s.searchRead env ≤ 2352 ∨
    0 ≤ s.searchResult env ∧ s.searchResult env ≤ 2340 ∧
      (s.searchRead env : Int) = s.searchResult env + 12 := by
  have hbounds := cdKmpPatternSearch_bounds (env s.world).kmalloc (fun i => s.byte i) pattern 2352
    (m := cdHeadSize) (by decide)
  unfold Scan.searchResult Scan.searchRead
  simp only [cdHeadSize] at hbounds ⊢
  omega

/-- The state after the search. -/
def Scan.searched (env : Env) (s : Scan) : Scan :=
  (s.onWorld (yield env)).log (.search s.psCDBuff (s.searchRead env))

/-- The state in which the header found is looked at. -/
def Scan.atHeader (env : Env) (s : Scan) : Scan :=
  ((s.searched env).move env (s.searchResult env)).onWorld (yield env)

/-- The ways of a search. -/
inductive Searched (env : Env) (codec : Codec) (startAddr n : Nat) (s : Scan) : Scan → Prop
  | missed (hres : s.searchResult env < 0) (hcnt : 0 < s.kmpcnt) :
      Searched env codec startAddr n s
        (({ (s.searched env).move env userSectorSize with kmpcnt := s.kmpcnt - 1 }).goto .searchLbn)
  | lost (hres : s.searchResult env < 0) (hcnt : s.kmpcnt ≤ 0) (l : Label)
      (hl : l = .tryRead ∧ 0 < s.kmpRetry - 1 ∨ l = .returned kmpError) :
      Searched env codec startAddr n s
        (({ s.searched env with kmpRetry := s.kmpRetry - 1 }.onWorld
          (cdSetBufferStatus .stop)).goto l)
  /-- The stream is left by force. -/
  | forced (hres : 0 ≤ s.searchResult env) (hforce : (s.atHeader env).world.cdDevForceStop ≠ 0) :
      Searched env codec startAddr n s ((s.atHeader env).goto (.returned cdForceStop))
  | header (hres : 0 ≤ s.searchResult env) (hforce : (s.atHeader env).world.cdDevForceStop = 0) :
      Searched env codec startAddr n s (headerStep env codec startAddr n (s.atHeader env))

/-- A turn does not change the bytes that are searched. -/
theorem bytes_turn (env : Env) (s : Scan) :
    (fun i : Nat => (s.onWorld (yield env)).byte i) = fun i : Nat => s.byte i := by
  funext i
  unfold Scan.byte
  simp only [Scan.onWorld, yield_cdChunkBuf]

/-- **The ways of a search.** -/
theorem searchLbnStep_ways (env : Env) (codec : Codec) (startAddr n : Nat) (s : Scan) :
    Searched env codec startAddr n s (searchLbnStep env codec startAddr n s) := by
  have hmissed := @Searched.missed env codec startAddr n s
  have hlost := @Searched.lost env codec startAddr n s
  have hforced := @Searched.forced env codec startAddr n s
  have hheader := @Searched.header env codec startAddr n s
  unfold Scan.atHeader Scan.searched Scan.searchRead Scan.searchResult at *
  unfold searchLbnStep
  simp only [bytes_turn]
  generalize cdKmpPatternSearch (env s.world).kmalloc (fun i : Nat => s.byte i) 2352 pattern
    cdHeadSize = r at *
  obtain ⟨res, read⟩ := r
  simp only at hmissed hlost hforced hheader ⊢
  split
  next hmiss => exact hmissed hmiss.1 hmiss.2
  next hno =>
    split
    next hneg =>
      have hcnt : s.kmpcnt ≤ 0 := not_lt.mp fun hcnt => hno ⟨hneg, hcnt⟩
      split
      next hretry => exact hlost hneg hcnt .tryRead (.inl ⟨rfl, hretry⟩)
      next => exact hlost hneg hcnt (.returned kmpError) (.inr rfl)
    next hpos =>
      split
      next hforce => exact hforced (not_lt.mp hpos) hforce
      next hgo => exact hheader (not_lt.mp hpos) (not_not.mp hgo)

end CdPlayer
