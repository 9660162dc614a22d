/-
CdPlayer/Uncorrected.lean

What becomes of the blocks that `C3_decoder` cannot correct
(`CD_DescrambleSector`, cdif_drv.c).

The counter `c3_retry` belongs to the call, not to the sector, and a call
that has used it up goes on.  So the first block of a call that cannot be
corrected is read again, and every later one is delivered as the decoder
leaves it, whether it is the same sector or another, and the call reports
success: `uncorrected_blocks`.
-/
import CdPlayer.Ejected
import CdPlayer.Forward

namespace CdPlayer

open Run

variable {env : Env} {codec : Codec} {fuel startAddr n : Nat} {s t : Scan}

/-! ### Blocks beyond correction -/

/-- The state in which the header that the next search finds is compared. -/
def Scan.looked (env : Env) (codec : Codec) (s : Scan) : Scan :=
  (s.atHeader env).descramble codec

/-- The next search finds the block wanted, and it cannot be corrected. -/
def Scan.Uncorrectable (env : Env) (codec : Codec) (startAddr : Nat) (s : Scan) : Prop :=
  s.label = .searchLbn ∧ 0 ≤ s.searchResult env ∧
    (s.atHeader env).world.cdDevForceStop = 0 ∧
    (s.looked env codec).frame = u32 (startAddr + s.usedSectNum : Nat) ∧
    ((s.looked env codec).correct codec).1 < cdTrue

instance : Decidable (s.Uncorrectable env codec startAddr) := by
  unfold Scan.Uncorrectable
  infer_instance

/-- How many such blocks a call has come to in its first `k` jumps. -/
def uncorrectableSo (env : Env) (codec : Codec) (fuel startAddr n : Nat) (w : World)
    (k : Nat) : Nat :=
  countSteps (scanStep env codec fuel startAddr n)
    (fun s _ => decide (s.Uncorrectable env codec startAddr)) k (enterScan env startAddr w)

/-! ### The counter -/

/-- The decoder's verdict is charged. -/
theorem correct_c3 (codec : Codec) (s : Scan) :
    (s.correct codec).2.c3Retry
      = s.c3Retry - if (s.correct codec).1 < cdTrue then 1 else 0 := by
  unfold Scan.correct
  rcases codec.c3Decoder (blockAt s.world.cdChunkBuf s.psCDBuff) cdC3Cnt with ⟨res, blk⟩
  simp only
  split
  · rfl
  · exact (sub_zero _).symm

/-- And it stops the stream. -/
theorem correct_stop (h : (s.correct codec).1 < cdTrue) :
    (s.correct codec).2.world.gCDBufStatus = .stop := by
  unfold Scan.correct at h ⊢
  generalize codec.c3Decoder (blockAt s.world.cdChunkBuf s.psCDBuff) cdC3Cnt = r at h ⊢
  obtain ⟨res, blk⟩ := r
  simp only at h ⊢
  rw [if_pos h]
  rfl

/-- A delivery counts the sector, and charges nothing. -/
theorem accept_counts (env : Env) (startAddr : Nat) (raw : Nat → Cell) (lmode : UInt8) (l : Label)
    (s : Scan) :
    ((s.accept env startAddr raw lmode).goto l).usedSectNum = s.usedSectNum + 1 ∧
      ((s.accept env startAddr raw lmode).goto l).c3Retry = s.c3Retry :=
  ⟨rfl, rfl⟩

theorem deliverStep_c3 (env : Env) (codec : Codec) (startAddr n : Nat) (raw : Nat → Cell)
    (lmode : UInt8) (s : Scan) :
    (deliverStep env codec startAddr n raw lmode s).c3Retry = (s.correct codec).2.c3Retry := by
  rcases deliverStep_ways env codec startAddr n raw lmode s with ⟨-, hstep⟩ | ⟨-, hstep⟩
  · rw [hstep]
    rfl
  · rw [hstep]
    exact (accept_counts env startAddr raw lmode _ _).2

/-- A header that is not the one wanted is not charged. -/
theorem Unwanted.c3 (h : Unwanted env s t) : t.c3Retry = s.c3Retry := by
  have hturned : ∀ {u : Scan}, Turned env s u → u.c3Retry = s.c3Retry := by
    rintro u (rfl | rfl)
    · rfl
    · rfl
  cases h with
  | gaveUp => rfl
  | again u hu _ secdiff =>
    obtain ⟨k, v, -, hsame⟩ := retryFrame_same secdiff u
    rw [hsame]
    show u.c3Retry = s.c3Retry
    exact hturned hu
  | passed u hu =>
    show u.c3Retry = s.c3Retry
    exact hturned hu

/-- The block wanted goes to the decoder. -/
theorem headerStep_wanted (env : Env) (codec : Codec) (n : Nat)
    (h : (s.descramble codec).frame = u32 (startAddr + s.usedSectNum : Nat)) :
    headerStep env codec startAddr n s = deliverStep env codec startAddr n
      (fun i => s.world.cdChunkBuf (s.psCDBuff + i)) ((s.descramble codec).byte modeLoca)
      (s.descramble codec) := by
  unfold headerStep
  exact if_pos h

theorem headerStep_c3 (env : Env) (codec : Codec) (startAddr n : Nat) (s : Scan) :
    (headerStep env codec startAddr n s).c3Retry = s.c3Retry -
      if (s.descramble codec).frame = u32 (startAddr + s.usedSectNum : Nat) ∧
        ((s.descramble codec).correct codec).1 < cdTrue then 1 else 0 := by
  by_cases hwanted : (s.descramble codec).frame = u32 (startAddr + s.usedSectNum : Nat)
  · rw [headerStep_wanted env codec n hwanted, deliverStep_c3, correct_c3]
    simp only [hwanted, true_and]
    rfl
  · rw [if_neg fun h => hwanted h.1]
    rcases headerStep_ways env codec startAddr n s with ⟨h, -⟩ | hother
    · exact absurd h hwanted
    · rw [hother.c3]
      exact (sub_zero _).symm

/-- **What a jump costs.** -/
theorem scanStep_c3 (env : Env) (codec : Codec) (fuel startAddr n : Nat) (s : Scan) :
    (scanStep env codec fuel startAddr n s).c3Retry
      = s.c3Retry - if s.Uncorrectable env codec startAddr then 1 else 0 := by
  have hfree : ∀ {t : Scan}, ¬ s.Uncorrectable env codec startAddr → t.c3Retry = s.c3Retry →
      t.c3Retry = s.c3Retry - if s.Uncorrectable env codec startAddr then 1 else 0 := by
    intro t hno ht
    rw [if_neg hno, ht, sub_zero]
  rcases hl : s.label with - | - | r | -
  · refine hfree (fun h => ?_) ?_
    · exact absurd (hl.symm.trans h.1) (by simp)
    · rw [scanStep_tryRead env codec hl]
      unfold tryReadStep
      simp only
      split
      · rfl
      · split <;> rfl
  · rw [scanStep_searchLbn env codec hl]
    by_cases hres : 0 ≤ s.searchResult env
    · rw [searchLbnStep_hit env codec startAddr n hres]
      by_cases hout : (s.atHeader env).world.cdDevForceStop = 0
      · rw [if_neg fun h => h hout, headerStep_c3]
        have hiff : s.Uncorrectable env codec startAddr ↔
            ((s.atHeader env).descramble codec).frame
              = u32 (startAddr + (s.atHeader env).usedSectNum : Nat) ∧
            (((s.atHeader env).descramble codec).correct codec).1 < cdTrue :=
          ⟨fun h => h.2.2.2, fun h => ⟨hl, hres, hout, h⟩⟩
        rw [if_congr hiff.symm rfl rfl]
        rfl
      · rw [if_pos hout]
        exact hfree (fun h => hout h.2.2.1) rfl
    · refine hfree (fun h => hres h.2.1) ?_
      have hways := searchLbnStep_ways env codec startAddr n s
      generalize searchLbnStep env codec startAddr n s = t at hways ⊢
      cases hways with
      | missed => rfl
      | lost => rfl
      | forced hpos => exact absurd hpos hres
      | header hpos => exact absurd hpos hres
  · refine hfree (fun h => ?_) ?_
    · exact absurd (hl.symm.trans h.1) (by simp)
    · unfold scanStep
      rw [hl]
  · refine hfree (fun h => ?_) ?_
    · exact absurd (hl.symm.trans h.1) (by simp)
    · unfold scanStep
      rw [hl]

/-- **The counter counts such blocks**, and nothing else. -/
theorem c3Retry_scanAt (env : Env) (codec : Codec) (fuel startAddr n : Nat) (w : World)
    (k : Nat) : (scanAt env codec fuel startAddr n w k).c3Retry
      = cdC3Cnt - (uncorrectableSo env codec fuel startAddr n w k : Int) := by
  induction k with
  | zero =>
    unfold scanAt enterScan uncorrectableSo
    simp only
    split <;> rfl
  | succ k ih =>
    have hcount : uncorrectableSo env codec fuel startAddr n w (k + 1)
        = uncorrectableSo env codec fuel startAddr n w k
          + if (scanAt env codec fuel startAddr n w k).Uncorrectable env codec startAddr
            then 1 else 0 := by
      unfold uncorrectableSo
      rw [countSteps_succ]
      simp only [decide_eq_true_eq]
      rfl
    rw [scanAt_succ, scanStep_c3, ih, hcount]
    split
    · push_cast
      omega
    · push_cast
      omega

/-! ### The blocks -/

/-- **What becomes of a block that cannot be corrected.**  If it is the first
of the call, the stream is stopped and the read is made again; any other is
delivered as the decoder leaves it, as if nothing were wrong. -/
theorem uncorrected_blocks (env : Env) (codec : Codec) (fuel startAddr n : Nat) (w : World)
    (k : Nat)
    (h : (scanAt env codec fuel startAddr n w k).Uncorrectable env codec startAddr) :
    if uncorrectableSo env codec fuel startAddr n w k = 0 then
      (scanAt env codec fuel startAddr n w (k + 1)).label = .tryRead ∧
        (scanAt env codec fuel startAddr n w (k + 1)).world.gCDBufStatus = .stop ∧
        (scanAt env codec fuel startAddr n w (k + 1)).usedSectNum
          = (scanAt env codec fuel startAddr n w k).usedSectNum
    else
      (scanAt env codec fuel startAddr n w (k + 1)).usedSectNum
          = (scanAt env codec fuel startAddr n w k).usedSectNum + 1 ∧
        Placed codec startAddr (scanAt env codec fuel startAddr n w k).usedSectNum
          (scanAt env codec fuel startAddr n w (k + 1)) := by
  have hc3 := c3Retry_scanAt env codec fuel startAddr n w k
  have hinv := compacted_scanAt env codec fuel startAddr n w (k + 1)
  have hnext := scanAt_succ env codec fuel startAddr n w k
  generalize scanAt env codec fuel startAddr n w (k + 1) = t at hinv hnext ⊢
  generalize uncorrectableSo env codec fuel startAddr n w k = m at hc3 ⊢
  generalize scanAt env codec fuel startAddr n w k = s at h hc3 hnext ⊢
  obtain ⟨hl, hres, hin, hwanted, hbad⟩ := h
  have hused : ((s.looked env codec).correct codec).2.usedSectNum = s.usedSectNum :=
    (correct_spec codec (s.looked env codec)).2.1
  have hcharge : ((s.looked env codec).correct codec).2.c3Retry = s.c3Retry - 1 := by
    rw [correct_c3, if_pos hbad]
    rfl
  have hstop := correct_stop hbad
  rw [scanStep_searchLbn env codec hl, searchLbnStep_hit env codec startAddr n hres,
    if_neg fun hout => hout hin, headerStep_wanted env codec n hwanted] at hnext
  simp only [cdC3Cnt] at hc3
  rcases deliverStep_ways env codec startAddr n
    (fun i => (s.atHeader env).world.cdChunkBuf ((s.atHeader env).psCDBuff + i))
    ((s.looked env codec).byte modeLoca) (s.looked env codec) with
    ⟨⟨-, hmore⟩, hstep⟩ | ⟨hno, hstep⟩
  · rw [if_pos (by omega), hnext.trans hstep]
    exact ⟨rfl, hstop, hused⟩
  · -- no retry is left
    have hm : ¬ m = 0 := fun hm => hno ⟨hbad, by omega⟩
    have hdelivered : t.usedSectNum = s.usedSectNum + 1 := by
      rw [hnext.trans hstep, (accept_counts env startAddr _ _ _ _).1, hused]
    rw [if_neg hm]
    exact ⟨hdelivered, hinv.placed _ (by omega)⟩

/-- The first jump fetches. -/
theorem uncorrectableSo_one (env : Env) (codec : Codec) (fuel startAddr n : Nat) (w : World) :
    uncorrectableSo env codec fuel startAddr n w 1 = 0 := by
  have hno : ¬ (enterScan env startAddr w).Uncorrectable env codec startAddr := by
    rintro ⟨hl, -⟩
    unfold enterScan at hl
    simp only at hl
    split at hl
    · cases hl
    · cases hl
  unfold uncorrectableSo countSteps
  rw [if_neg (by simpa using hno)]
  rfl

/-- A deck whose decoder corrects nothing. -/
def scratchedCodec : Codec := ⟨fun blk => blk, fun blk _ => (0, blk)⟩

/-- The decoder is not asked before the first search. -/
theorem scanAt_one (env : Env) (codec codec' : Codec) (fuel startAddr n : Nat) (w : World) :
    scanAt env codec fuel startAddr n w 1
      = scanStep env codec' fuel startAddr n (enterScan env startAddr w) := by
  show scanStep env codec fuel startAddr n (enterScan env startAddr w) = _
  unfold enterScan
  simp only
  split
  · rfl
  · rw [scanStep_tryRead env codec rfl, scanStep_tryRead env codec' rfl]

/-- The first search after the fetch finds sector 160, and it is scratched. -/
theorem scratched_uncorrectable (fuel : Nat) :
    (scanAt (fun _ => .quiet) scratchedCodec (fuel + 1) 160 1 parkedWorld 1).Uncorrectable
      (fun _ => .quiet) scratchedCodec 160 := by
  have hwindow : InWindow 450000 parkedWorld 0 1 :=
    ⟨by decide, by decide, by decide, by decide, by decide⟩
  obtain ⟨s, hstep, hscan, hlabel, hps, -, hused, -⟩ :=
    parked_fetch plainCodec (quiet_streams _) le_rfl parkedWorld_parked hwindow fuel
  have hfirst : parkedWorld.gLastSector + 1 + 0 = 160 := rfl
  rw [hfirst] at hstep
  rw [scanAt_one (fun _ => .quiet) scratchedCodec plainCodec, hstep]
  -- the block at the start of the chunk is sector 160
  have hpos : parkedWorld.readerPos = 0 := by
    unfold World.readerPos
    decide
  have hraw : ∀ i : Nat, i < 2352 → (s.world.cdChunkBuf (s.psCDBuff + i)).val = discByte 160 i := by
    intro i hi
    have hblock := hscan.block (by decide) i hi
    have hoff : parkedWorld.readerPos + 2352 * ((0 : Nat) : Int) + 0
        = 2352 * ((0 : Nat) : Int) := by
      omega
    rw [hoff] at hblock
    rw [hps, hblock]
    exact discStream_block 160 0 hi
  have hgood := goodSector_disc hraw
  have hres : s.searchResult (fun _ => .quiet) = 0 := by
    have hsync : SyncAt s.world.cdChunkBuf s.psCDBuff := hgood.sync
    have hkmp := kmp_of_sync le_rfl (by omega) hsync fun a h₁ h₂ => absurd h₂ (by omega)
    rw [sub_self] at hkmp
    exact congrArg Prod.fst hkmp
  have hhead : (s.atHeader fun _ => .quiet)
      = (((s.searched fun _ => .quiet).move (fun _ => .quiet) 0).onWorld
          (yield fun _ => .quiet)) := by
    unfold Scan.atHeader
    rw [hres]
  have hin : (s.atHeader fun _ => .quiet).world.cdDevForceStop = 0 := by
    have hbehind := hscan.behind
    have hfetched := hscan.fetched
    have hturn := hscan.flowing.yield (quiet_streams _)
    have havail := hturn.avail
    have hmove := (hturn.move (quiet_streams _) (n := 0) le_rfl (by omega)).turn (quiet_streams _)
    rw [hhead]
    exact hmove.flowing.force
  refine ⟨hlabel, le_of_eq hres.symm, hin, ?_, show (0 : Int) < cdTrue by decide⟩
  have hchunk : (fun i : Nat => (s.atHeader fun _ => .quiet).world.cdChunkBuf
      ((s.atHeader fun _ => .quiet).psCDBuff + i))
        = fun i : Nat => s.world.cdChunkBuf (s.psCDBuff + i) := by
    rw [hhead]
    funext i
    simp [Scan.searched]
  have hframe := frame_eq_headerFrame (s.looked (fun _ => .quiet) scratchedCodec)
  unfold Scan.looked at hframe
  rw [hused]
  exact hframe.trans ((congrArg headerFrame (descramble_block scratchedCodec _)).trans
    ((congrArg (fun raw => headerFrame (descrambled scratchedCodec raw)) hchunk).trans
      (hgood.headerFrame (by decide))))

/-- It is the first, so it is read again. -/
theorem uncorrected_blocks_first :
    (scanAt (fun _ => .quiet) scratchedCodec 188 160 1 parkedWorld 2).label = .tryRead ∧
      (scanAt (fun _ => .quiet) scratchedCodec 188 160 1 parkedWorld 2).world.gCDBufStatus
        = .stop := by
  have h := uncorrected_blocks (fun _ => .quiet) scratchedCodec 188 160 1 parkedWorld 1
    (scratched_uncorrectable 187)
  have hnone : uncorrectableSo (fun _ => .quiet) scratchedCodec 188 160 1 parkedWorld 1 = 0 := by
    exact uncorrectableSo_one _ _ _ _ _ _
  rw [if_pos hnone] at h
  exact ⟨h.1, h.2.1⟩

end CdPlayer
