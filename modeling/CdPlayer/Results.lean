/-
CdPlayer/Results.lean

What `CD_DescrambleSector` returns, and what `Notify_Error` prints of it
(cdif_drv.c).

`Notify_Error` knows nine errors.  Four of them are never reported: nothing
returns `DECK_TIME_OUT` or sets the status behind `SHOCK_DETECT`,
`SEEK_TIME_OUT` is taken for a seek that has not failed, and on
`BUFFERING_TIME_OUT` the read starts again.  Of the other five `CallEnds`
says what has happened when they are, and under which name they are printed;
the main result, `call_reports`, is that a call ends in these ways only.
-/
import CdPlayer.Ejected
import CdPlayer.TryRead

namespace CdPlayer

open Run

/-! ### The texts -/

/-- `DECK_TIME_OUT`. -/
def deckTimeOut : Int := -2

/-- What `Notify_Error` calls an error. -/
def errorName (error : Int) : String :=
  if error = deckError then "DECK_PHYSICAL_ERROR"
  else if error = deckTimeOut then "DECK_TIME_OUT"
  else if error = seekTimeOut then "SEEK_WAIT_TIME_OUT"
  else if error = kmpError then "KMP_ERROR"
  else if error = frameOver then "FRAME_OVER"
  else if error = frameUnder then "FRAME_UNDER"
  else if error = shockDetect then "SHOCK_DETECT"
  else if error = bufferingTimeOut then "BUFFERING_TIME_OUT"
  else if error = cdForceStop then "CD_FORCE_STOP"
  else "UNKNOWN ERROR"

/-- A line of `Notify_Error`. -/
def errorLine (name : String) : String := "*** Notify_Error *** : (" ++ name ++ ")\n"

/-- `Notify_Error`: the line it prints. -/
def notifyError (error : Int) : String := errorLine (errorName error)

/-- What `CD_ReadSector` has printed of the result of a call. -/
def notified (readByteSize : Int) : Option String :=
  if readByteSize < 0 then some (notifyError readByteSize) else none

/-! ### The results -/

/-- How a call ends, in state `s`: with what result, and which line is printed
of it. -/
inductive CallEnds (startAddr n : Nat) (s : Scan) : Int → Option String → Prop
  /-- All sectors have been delivered. -/
  | read (hused : n ≤ s.usedSectNum) : CallEnds startAddr n s userSectorSize none
  /-- The deck has not answered a seek with success, and no stream is on. -/
  | refused (hstop : s.world.gCDBufStatus = .stop) :
      CallEnds startAddr n s deckError (errorLine "DECK_PHYSICAL_ERROR")
  /-- In no round that was left was there a header. -/
  | noHeader (hstop : s.world.gCDBufStatus = .stop) (hretry : s.kmpRetry ≤ 0) :
      CallEnds startAddr n s kmpError (errorLine "KMP_ERROR")
  /-- All re-reads for the sector are spent, and the header lies behind it. -/
  | frameOver (hretry : s.frameRetry ≤ 0)
      (hframe : u32 (startAddr + s.usedSectNum : Nat) < s.frame) :
      CallEnds startAddr n s frameOver (errorLine "FRAME_OVER")
  /-- They are, and it lies before it. -/
  | frameUnder (hretry : s.frameRetry ≤ 0)
      (hframe : s.frame < u32 (startAddr + s.usedSectNum : Nat)) :
      CallEnds startAddr n s frameUnder (errorLine "FRAME_UNDER")
  /-- The disc is out. -/
  | forced (hout : s.world.Out) :
      CallEnds startAddr n s cdForceStop (errorLine "CD_FORCE_STOP")

variable {env : Env} {codec : Codec} {fuel startAddr n addr req : Nat} {w : World} {s : Scan}

/-! ### A read that fails -/

/-- The results of a read that fails. -/
def ReadFails (r : Int) (u : World) : Prop :=
  r = deckError ∧ u.gCDBufStatus = .stop ∨ r = cdForceStop ∧ u.Out

theorem waitFor_noShock (req : Nat) (h : w.gCDErrorStatus ≠ .shock) :
    (waitFor env req w).2.gCDErrorStatus ≠ .shock :=
  (waitFor_acts env req w).noShock env h

/-- A wait that is broken off by force. -/
theorem waitFor_forced (h : (waitFor env req w).1 = .forceStop) : (waitFor env req w).2.Out := by
  unfold waitFor at h ⊢
  exact (waitBuffered_broken req waitTimer _ (yield env w)).2 h

/-- No wait is broken off by a shock. -/
theorem waitFor_ne_shock (h : w.gCDErrorStatus ≠ .shock) :
    (waitFor env req w).1 ≠ .shock := by
  intro hexit
  apply waitFor_noShock req h
  unfold waitFor at hexit ⊢
  exact (waitBuffered_broken req waitTimer _ (yield env w)).1 hexit

theorem tryPass_fails (hreq : req < 262144) (hshock : w.gCDErrorStatus ≠ .shock)
    (hneg : (tryPass env addr req w).1 < 0)
    (htime : (tryPass env addr req w).1 ≠ bufferingTimeOut) :
    ReadFails (tryPass env addr req w).1 (tryPass env addr req w).2 := by
  rcases hst : w.gCDBufStatus with - | - | - | -
  · unfold tryPass at hneg
    rw [hst] at hneg
    exact absurd hneg (show ¬ (0 : Int) < 0 by decide)
  · have henter : (enterStart w).gCDErrorStatus ≠ .shock := hshock
    rw [tryPass_start env addr req hst] at *
    rcases cdDoStartBuffering_cases env req hreq w with
      ⟨hr, -⟩ | ⟨-, hex⟩ | ⟨hr, hex⟩ | ⟨m, -, hr, -⟩ | ⟨hr, -⟩
    · rw [hr] at hneg
      exact absurd hneg (show ¬ (1 : Int) < 0 by decide)
    · exact absurd hex (waitFor_ne_shock henter)
    · rw [hr]
      exact .inr ⟨rfl, waitFor_forced hex⟩
    · rw [hr] at hneg
      exact absurd hneg (show ¬ (m : Int) < 0 by omega)
    · rw [hr] at htime
      exact absurd rfl htime
  · have hopen := startStream_noShock env addr hshock
    rw [tryPass_stop env addr req hst] at *
    rcases cdDoStopBuffering_cases env hreq addr w with
      ⟨hr, hs⟩ | ⟨-, ⟨hr, -⟩ | ⟨-, hex⟩ | ⟨hr, hex⟩ | ⟨m, -, hr, -⟩ | ⟨hr, -⟩⟩
    · -- the seek has failed
      rw [hr, hs]
      refine .inl ⟨rfl, ?_⟩
      by_cases hret : (passSeek env addr w).1 = -1
      · rw [startStream_refused env addr hret]
        exact passSeek_status env addr hst
      · rw [startStream_opens env addr hret] at hs
        exact absurd hs hret
    · rw [hr] at hneg
      exact absurd hneg (show ¬ (1 : Int) < 0 by decide)
    · exact absurd hex (waitFor_ne_shock hopen)
    · rw [hr]
      exact .inr ⟨rfl, waitFor_forced hex⟩
    · rw [hr] at hneg
      exact absurd hneg (show ¬ (m : Int) < 0 by omega)
    · rw [hr] at htime
      exact absurd rfl htime
  · unfold tryPass at hneg
    rw [hst] at hneg
    exact absurd hneg (show ¬ (0 : Int) < 0 by decide)

/-- **A read that fails** has been refused by the deck, or the disc is out. -/
theorem cdReadData_fails (env : Env) (fuel addr n : Nat) (p : Int) {r : Int}
    (hshock : w.gCDErrorStatus ≠ .shock) (hr : (cdReadData env fuel addr n p w).1 = some r)
    (hneg : r ≤ 0) : ReadFails r (cdReadData env fuel addr n p w).2 := by
  have hreq := checkBuffering_lt env n w
  have hcheck := (checkBuffering_acts env n w).noShock env hshock
  have hwant := wantSampleSize_pos n
  by_cases hfail : ∀ lres, (tryRead env addr (checkBuffering env n w).1 fuel
      (checkBuffering env n w).2).1 = some lres → lres < 0
  · rw [cdReadData_of_fail env fuel addr n p hfail] at hr ⊢
    obtain ⟨k, v, hpass, hlast, htime⟩ := tryRead_last hr
    have hv : v.gCDErrorStatus ≠ .shock := by
      refine hpass.inv (P := fun u => u.gCDErrorStatus ≠ .shock) (fun u _ hu => ?_) hcheck
      rcases tryPass_timeOut_cases hreq hu with ⟨-, hgive⟩ | ⟨-, hgive⟩ <;>
        rw [hgive] <;> exact giveUp_noShock env _
    have hends : (tryPass env addr (checkBuffering env n w).1 v).1 < 0 →
        (tryPass env addr (checkBuffering env n w).1 v).1 ≠ bufferingTimeOut →
        ReadFails (tryPass env addr (checkBuffering env n w).1 v).1
          (tryPass env addr (checkBuffering env n w).1 v).2 := tryPass_fails hreq hv
    rw [hlast] at hends
    exact hends (hfail r hr) htime
  · push Not at hfail
    obtain ⟨lres, hres, hpos⟩ := hfail
    rw [cdReadData_of_some env fuel addr n p hres hpos] at hr
    injection hr with hr
    omega

/-! ### The jumps that return -/

theorem tryReadStep_returned {res : Int} (hshock : s.world.gCDErrorStatus ≠ .shock)
    (h : (tryReadStep env fuel startAddr n s).label = .returned res) :
    CallEnds startAddr n (tryReadStep env fuel startAddr n s) res (notified res) := by
  have hfails := fun r => cdReadData_fails (r := r) env fuel
    (u32 ((startAddr + s.usedSectNum : Nat) + cdGetDiffValue))
    (u32 ((n : Int) - s.usedSectNum)) s.pdCDBuff hshock
  unfold tryReadStep at h ⊢
  simp only at h ⊢
  generalize cdReadData env fuel _ _ s.pdCDBuff s.world = c at hfails h ⊢
  obtain ⟨- | r, u⟩ := c
  · cases h
  · simp only at h ⊢
    by_cases hneg : r ≤ 0
    · rw [if_pos hneg] at h ⊢
      obtain rfl : r = res := by injection h
      rcases hfails r rfl hneg with ⟨rfl, hstop⟩ | ⟨rfl, hout⟩
      · exact .refused hstop
      · exact .forced hout
    · rw [if_neg hneg] at h
      cases h

theorem deliverStep_returned {raw : Nat → Cell} {lmode : UInt8} {res : Int}
    (h : (deliverStep env codec startAddr n raw lmode s).label = .returned res) :
    CallEnds startAddr n (deliverStep env codec startAddr n raw lmode s) res (notified res) := by
  rcases deliverStep_ways env codec startAddr n raw lmode s with ⟨-, hstep⟩ | ⟨-, hstep⟩
  · rw [hstep] at h
    cases h
  · rw [hstep] at h ⊢
    generalize (s.correct codec).2 = c at h ⊢
    have hused : (c.accept env startAddr raw lmode).usedSectNum = c.usedSectNum + 1 := rfl
    by_cases hmore : c.usedSectNum + 1 < n
    · rw [if_pos hmore] at h
      cases h
    · rw [if_neg hmore] at h ⊢
      rw [← hused] at hmore
      generalize c.accept env startAddr raw lmode = t at hmore h ⊢
      cases h
      exact .read (not_lt.mp hmore)

theorem frameOverStep_returned {secdiff res : Int}
    (hframe : u32 (startAddr + s.usedSectNum : Nat) < s.frame)
    (h : (frameOverStep env secdiff s).label = .returned res) :
    CallEnds startAddr n (frameOverStep env secdiff s) res (notified res) := by
  unfold frameOverStep at h ⊢
  by_cases hretry : s.frameRetry ≤ 0
  · rw [if_pos hretry] at h ⊢
    cases h
    exact .frameOver hretry hframe
  · rw [if_neg hretry] at h
    split at h <;> cases h

theorem frameUnderStep_returned {secdiff res : Int}
    (hframe : s.frame < u32 (startAddr + s.usedSectNum : Nat))
    (h : (frameUnderStep env s.frame secdiff s).label = .returned res) :
    CallEnds startAddr n (frameUnderStep env s.frame secdiff s) res (notified res) := by
  unfold frameUnderStep at h ⊢
  by_cases hretry : s.frameRetry ≤ 0
  · rw [if_pos hretry] at h ⊢
    cases h
    exact .frameUnder hretry hframe
  · rw [if_neg hretry] at h
    simp only at h
    split at h
    · cases h
    · split at h
      · cases h
      · split at h <;> cases h

theorem headerStep_returned {res : Int}
    (h : (headerStep env codec startAddr n s).label = .returned res) :
    CallEnds startAddr n (headerStep env codec startAddr n s) res (notified res) := by
  unfold headerStep at h ⊢
  simp only at h ⊢
  split at h
  next heq =>
    rw [if_pos heq]
    exact deliverStep_returned h
  next hne =>
    rw [if_neg hne]
    split at h
    next hover =>
      rw [if_pos hover]
      exact frameOverStep_returned hover h
    next hunder =>
      rw [if_neg hunder]
      exact frameUnderStep_returned (by omega) h

/-- A search that finds nothing and was the last of its round. -/
theorem searchLbnStep_last (env : Env) (codec : Codec) (startAddr n : Nat)
    (hres : s.searchResult env < 0) (hcnt : s.kmpcnt ≤ 0) :
    searchLbnStep env codec startAddr n s =
      ({ s.searched env with kmpRetry := s.kmpRetry - 1 }.onWorld (cdSetBufferStatus .stop)).goto
        (if 0 < s.kmpRetry - 1 then .tryRead else .returned kmpError) := by
  unfold Scan.searched Scan.searchRead Scan.searchResult at *
  unfold searchLbnStep
  simp only [bytes_turn]
  generalize cdKmpPatternSearch (env s.world).kmalloc (fun i : Nat => s.byte i) 2352 pattern
    cdHeadSize = r at hres ⊢
  obtain ⟨res, read⟩ := r
  simp only at hres ⊢
  rw [if_neg fun hmiss => absurd (show s.kmpcnt > 0 from hmiss.2) (by omega), if_pos hres]
  by_cases hmore : 0 < s.kmpRetry - 1
  · rw [if_pos hmore]
    exact if_pos hmore
  · rw [if_neg hmore]
    exact if_neg hmore

theorem searchLbnStep_returned {res : Int}
    (h : (searchLbnStep env codec startAddr n s).label = .returned res) :
    CallEnds startAddr n (searchLbnStep env codec startAddr n s) res (notified res) := by
  by_cases hres : 0 ≤ s.searchResult env
  · rw [searchLbnStep_hit env codec startAddr n hres] at h ⊢
    split at h
    next hout =>
      rw [if_pos hout]
      cases h
      exact .forced hout
    next hin =>
      rw [if_neg hin]
      exact headerStep_returned h
  · by_cases hcnt : s.kmpcnt ≤ 0
    · rw [searchLbnStep_last env codec startAddr n (by omega) hcnt] at h ⊢
      by_cases hmore : 0 < s.kmpRetry - 1
      · rw [if_pos hmore] at h
        cases h
      · rw [if_neg hmore] at h ⊢
        cases h
        exact .noHeader rfl (not_lt.mp hmore)
    · -- there are searches left in the round
      have hways := searchLbnStep_ways env codec startAddr n s
      generalize searchLbnStep env codec startAddr n s = t at hways h
      cases hways with
      | missed => cases h
      | lost _ hlast => exact absurd hlast hcnt
      | forced hpos => exact absurd hpos hres
      | header hpos => exact absurd hpos hres

/-! ### A call -/

theorem callEnds_scanAt (env : Env) (codec : Codec) (hring : RingOk w.sCDDIBuffer)
    (hshock : w.gCDErrorStatus ≠ .shock) (fuel startAddr n k : Nat) (res : Int)
    (h : (scanAt env codec fuel startAddr n w k).label = .returned res) :
    CallEnds startAddr n (scanAt env codec fuel startAddr n w k) res (notified res) := by
  induction k with
  | zero =>
    unfold scanAt enterScan at h ⊢
    simp only [Function.iterate_zero, id_eq] at h ⊢
    split at h
    next hout =>
      rw [if_pos hout]
      cases h
      exact .forced hout
    next => cases h
  | succ k ih =>
    have hacts : Acts env w (scanAt env codec fuel startAddr n w k).world :=
      scan_acts env codec hring fuel startAddr n k
    have hquiet := hacts.noShock env hshock
    rw [scanAt_succ] at h ⊢
    generalize scanAt env codec fuel startAddr n w k = s at ih hquiet h ⊢
    rcases hl : s.label with - | - | r | -
    · rw [scanStep_tryRead env codec hl] at h ⊢
      exact tryReadStep_returned hquiet h
    · rw [scanStep_searchLbn env codec hl] at h ⊢
      exact searchLbnStep_returned h
    · have hstay : scanStep env codec fuel startAddr n s = s := by
        unfold scanStep
        rw [hl]
      rw [hstay] at h ⊢
      exact ih h
    · have hstay : scanStep env codec fuel startAddr n s = s := by
        unfold scanStep
        rw [hl]
      rw [hstay, hl] at h
      cases h

/-- **What a call returns, and what is printed of it.**  In every reachable
state a call that has returned has delivered all sectors, and nothing is
printed, or it has failed for one of the five reasons, and `Notify_Error`
prints the name of this one. -/
theorem call_reports (env : Env) (codec : Codec) {j fuel startAddr n k : Nat} {w : World}
    (hw : Reachable env codec j w) {res : Int}
    (h : (scanAt env codec fuel startAddr n w k).result = some res) :
    CallEnds startAddr n (scanAt env codec fuel startAddr n w k) res (notified res) :=
  callEnds_scanAt env codec hw.ringOk (hw.acts.noShock env (by decide)) fuel startAddr n k res
    (label_of_result h)

/-- The first read of a mounted disc, from a deck that refuses every seek. -/
theorem call_reports_refused :
    CallEnds 150 1 (scanAt refusingDeck plainCodec 1 150 1
      (yield refusingDeck World.initial) 1) deckError (errorLine "DECK_PHYSICAL_ERROR") := by
  have hres : (scanAt refusingDeck plainCodec 1 150 1 (yield refusingDeck World.initial) 1).result
      = some deckError := by decide +kernel
  exact call_reports refusingDeck plainCodec (j := 1) (.turn .init) hres

end CdPlayer
