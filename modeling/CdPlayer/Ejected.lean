/-
CdPlayer/Ejected.lean

What the eject does to a call of `CD_DescrambleSector` that is under way.

The call looks at `cd_dev_force_stop` in three places: where it starts, in
the wait for samples, and after a header has been found.  None of them is
at a jump, and the jumps back to `TRY_READ` are bounded by counters that
the eject does not touch; so it is a question how long the call goes on.

With the flag set no wait lasts: a pass of `TRY_READ` ends the read, with a
failed seek, with the force stop, or because enough samples were buffered
already (`tryRead_out`).  A search of such samples does not get as far as
the header.  What is left are the searches that find nothing, and of these
there are three in a round and two rounds at most: `patience` counts them.

Main results: the call ends within eight jumps and delivers nothing any
more (`overtaken_call_ends`), and the request it belongs to fails
(`overtaken_segment_fails`).  Both are about an eject that is seen at a label
with the call still under way.  After the look behind the last header there
is none: an eject that comes while the last sector is descrambled, corrected
and copied is too late for this call (`searchLbnStep_tooLate`).
-/
import CdPlayer.Relock
import CdPlayer.Requests
import CdPlayer.Seek

namespace CdPlayer

open Run

/-! ### The disc stays out -/

/-- While the force stop is on, no event takes it back. -/
def StaysOut (w : World) (e : Event) : Prop :=
  w.cdDevForceStop ≠ 0 → (handle w e).cdDevForceStop ≠ 0

/-- The force stop is on. -/
def World.Out (w : World) : Prop := w.cdDevForceStop ≠ 0

variable {env : Env} {codec : Codec} {fuel startAddr n addr req : Nat} {w : World} {s t : Scan}

theorem World.Out.yield (henv : env.Obeys StaysOut) (h : w.Out) : (yield env w).Out :=
  henv.yield (fun _ _ he hw => he hw) (fun _ hw => hw) h

/-- The thread itself never takes it back. -/
theorem turnsKeep_out (henv : env.Obeys StaysOut) : TurnsKeep env World.Out where
  turn := fun _ h => h.yield henv
  own := by
    intro u v h hsame
    have hforce : v.cdDevForceStop = u.cdDevForceStop := congrArg Outer.cdDevForceStop hsame
    unfold World.Out
    rw [hforce]
    exact h

/-! ### A read -/

/-- The disc is out, and no shock is reported. -/
structure OutQuiet (w : World) : Prop where
  out : w.Out
  noShock : w.gCDErrorStatus ≠ .shock

theorem OutQuiet.yield (henv : env.Obeys StaysOut) (h : OutQuiet w) : OutQuiet (yield env w) :=
  ⟨h.out.yield henv, (frame_yield env w).noShock h.noShock⟩

theorem OutQuiet.acts {w' : World} (henv : env.Obeys StaysOut) (h : OutQuiet w)
    (hacts : Acts env w w') : OutQuiet w' :=
  ⟨(turnsKeep_out henv).acts hacts h.out, hacts.noShock env h.noShock⟩

/-- No wait runs out: the first look at the flag ends it. -/
theorem waitFor_out (henv : env.Obeys StaysOut) (req : Nat) (h : OutQuiet w) :
    ∃ u, waitFor env req w = (.filled, u) ∨ waitFor env req w = (.forceStop, u) := by
  have hturn := h.yield henv
  have hshock := (hturn.yield henv).noShock
  have hout : (yield env (yield env (yield env w))).cdDevForceStop ≠ 0 :=
    ((hturn.yield henv).yield henv).out
  unfold waitFor
  simp only
  unfold waitBuffered
  split
  · refine ⟨yield env (yield env (yield env w)), .inr ?_⟩
    simp only [if_neg hshock, if_pos hout]
  · exact ⟨_, .inl rfl⟩

/-- What the last pass of a read returns: enough is buffered, or the seek has
failed, or it is the force stop. -/
def ReadEnds (r : Int) : Prop := r = 0 ∨ r = 1 ∨ r = deckError ∨ r = cdForceStop

theorem ReadEnds.cases {r : Int} (h : ReadEnds r) :
    0 ≤ r ∨ r < 0 ∧ r ≠ bufferingTimeOut ∧ (r = deckError ∨ r = cdForceStop) := by
  unfold ReadEnds at h
  simp only [deckError, cdForceStop, bufferingTimeOut] at h ⊢
  omega

/-- **With the disc out a pass is the last.** -/
theorem tryPass_out (henv : env.Obeys StaysOut) (addr req : Nat) (h : OutQuiet w) :
    ReadEnds (tryPass env addr req w).1 := by
  rcases hst : w.gCDBufStatus with - | - | - | -
  · unfold tryPass
    rw [hst]
    exact .inl rfl
  · have henter : OutQuiet (enterStart w) := ⟨h.out, h.noShock⟩
    rw [tryPass_start env addr req hst]
    unfold cdDoStartBuffering
    obtain ⟨u, hwait | hwait⟩ := waitFor_out henv req henter
    · rw [hwait]
      exact .inr (.inl rfl)
    · rw [hwait]
      exact .inr (.inr (.inr rfl))
  · have hopen : OutQuiet (startStream env addr w).2 :=
      ⟨(turnsKeep_out henv).startStream addr h.out, startStream_noShock env addr h.noShock⟩
    rw [tryPass_stop env addr req hst]
    unfold cdDoStopBuffering
    generalize startStream env addr w = s at hopen ⊢
    obtain ⟨ret, v⟩ := s
    simp only at hopen ⊢
    by_cases hret : ret = -1
    · rw [if_pos hret]
      exact .inr (.inr (.inl hret))
    · rw [if_neg hret]
      obtain ⟨u, hwait | hwait⟩ := waitFor_out henv req hopen
      · rw [hwait]
        exact .inr (.inl rfl)
      · rw [hwait]
        exact .inr (.inr (.inr rfl))
  · unfold tryPass
    rw [hst]
    exact .inl rfl

/-- So the label is not jumped back to. -/
theorem tryRead_out (henv : env.Obeys StaysOut) (addr req : Nat) (hfuel : 0 < fuel)
    (h : OutQuiet w) :
    tryRead env addr req fuel w
      = (some (tryPass env addr req w).1, (tryPass env addr req w).2) := by
  obtain ⟨m, rfl⟩ : ∃ m, fuel = m + 1 := ⟨fuel - 1, by omega⟩
  rw [tryRead_succ]
  rcases (tryPass_out henv addr req h).cases with hpos | ⟨hneg, htime, -⟩
  · rw [if_pos hpos]
  · rw [if_neg (by omega), if_neg htime]

/-- **With the disc out a read ends**, and a read that fails has failed to
seek or has been stopped. -/
theorem cdReadData_out (henv : env.Obeys StaysOut) (addr n : Nat) (p : Int) (hfuel : 0 < fuel)
    (h : OutQuiet w) : ∃ r, (cdReadData env fuel addr n p w).1 = some r ∧
      (0 < r ∨ r = deckError ∨ r = cdForceStop) := by
  have hcheck := h.acts henv (checkBuffering_acts env n w)
  have hwant := wantSampleSize_pos n
  have htry := tryRead_out henv addr (checkBuffering env n w).1 hfuel hcheck
  rcases (tryPass_out henv addr (checkBuffering env n w).1 hcheck).cases with
    hpos | ⟨hneg, -, hres⟩
  · rw [cdReadData_of_some env fuel addr n p (congrArg Prod.fst htry) hpos]
    exact ⟨_, rfl, .inl (by omega)⟩
  · rw [cdReadData_of_fail env fuel addr n p fun l hl => ?_, htry]
    · exact ⟨_, rfl, .inr hres⟩
    · rw [htry] at hl
      injection hl with hl
      omega

/-! ### A jump -/

/-- The call has not ended. -/
def Scan.UnderWay (s : Scan) : Prop := s.label = .tryRead ∨ s.label = .searchLbn

/-- The results of a call that the eject overtakes. -/
def Overtaken (res : Int) : Prop := res = cdForceStop ∨ res = kmpError ∨ res = deckError

/-- The call has ended so. -/
def Scan.Halted (s : Scan) : Prop := ∃ res, s.label = .returned res ∧ Overtaken res

/-- What a jump leaves alone when it delivers nothing. -/
structure KeepsDelivered (s t : Scan) : Prop where
  used : t.usedSectNum = s.usedSectNum
  last : t.world.gLastSector = s.world.gLastSector

theorem tryReadStep_out (henv : env.Obeys StaysOut) (startAddr n : Nat) (hfuel : 0 < fuel)
    (h : OutQuiet s.world) :
    KeepsDelivered s (tryReadStep env fuel startAddr n s) ∧
      ((tryReadStep env fuel startAddr n s).Halted ∨
        (tryReadStep env fuel startAddr n s).label = .searchLbn ∧
          (tryReadStep env fuel startAddr n s).kmpRetry = s.kmpRetry ∧
          (tryReadStep env fuel startAddr n s).kmpcnt = cdKmpRetryCnt) := by
  obtain ⟨r, hread, hr⟩ := cdReadData_out henv
    (u32 ((startAddr + s.usedSectNum : Nat) + cdGetDiffValue))
    (u32 ((n : Int) - s.usedSectNum)) s.pdCDBuff hfuel h
  have hlast := (cdReadData_below env fuel
    (u32 ((startAddr + s.usedSectNum : Nat) + cdGetDiffValue))
    (u32 ((n : Int) - s.usedSectNum)) s.pdCDBuff s.world).2.1
  unfold tryReadStep
  simp only
  generalize cdReadData env fuel _ _ s.pdCDBuff s.world = c at hread hlast ⊢
  obtain ⟨v, w⟩ := c
  obtain rfl : v = some r := hread
  simp only
  split
  next hneg =>
    refine ⟨⟨rfl, hlast⟩, .inl ⟨r, rfl, ?_⟩⟩
    rcases hr with hpos | rfl | rfl
    · omega
    · exact .inr (.inr rfl)
    · exact .inl rfl
  next => exact ⟨⟨rfl, hlast⟩, .inr ⟨rfl, rfl, rfl⟩⟩

/-- A search that finds a pattern: the force stop is looked at, then the
header. -/
theorem searchLbnStep_hit (env : Env) (codec : Codec) (startAddr n : Nat)
    (hres : 0 ≤ s.searchResult env) :
    searchLbnStep env codec startAddr n s =
      if (s.atHeader env).world.cdDevForceStop ≠ 0 then
        (s.atHeader env).goto (.returned cdForceStop)
      else headerStep env codec startAddr n (s.atHeader env) := by
  unfold Scan.atHeader Scan.searched Scan.searchRead Scan.searchResult at *
  unfold searchLbnStep
  simp only [bytes_turn]
  generalize cdKmpPatternSearch (env s.world).kmalloc (fun i : Nat => s.byte i) 2352 pattern
    cdHeadSize = r at hres ⊢
  obtain ⟨res, read⟩ := r
  simp only at hres ⊢
  rw [if_neg fun hmiss => absurd hmiss.1 (by omega), if_neg (by omega)]
  rfl

theorem searchLbnStep_out (henv : env.Obeys StaysOut) (codec : Codec) (startAddr n : Nat)
    (h : OutQuiet s.world) :
    KeepsDelivered s (searchLbnStep env codec startAddr n s) ∧
      ((searchLbnStep env codec startAddr n s).Halted ∨
        (searchLbnStep env codec startAddr n s).label = .searchLbn ∧ 0 < s.kmpcnt ∧
          (searchLbnStep env codec startAddr n s).kmpRetry = s.kmpRetry ∧
          (searchLbnStep env codec startAddr n s).kmpcnt = s.kmpcnt - 1 ∨
        (searchLbnStep env codec startAddr n s).label = .tryRead ∧
          (searchLbnStep env codec startAddr n s).kmpRetry = s.kmpRetry - 1) := by
  have hsearched : (s.searched env).world.gLastSector = s.world.gLastSector :=
    yield_gLastSector env s.world
  have hmoved : ∀ k, ((s.searched env).move env k).world.gLastSector = s.world.gLastSector :=
    fun k => (yield_gLastSector env (s.searched env).world).trans hsearched
  by_cases hres : 0 ≤ s.searchResult env
  · have hout : (s.atHeader env).world.cdDevForceStop ≠ 0 :=
      (h.acts henv (atHeader_acts hres)).out
    rw [searchLbnStep_hit env codec startAddr n hres, if_pos hout]
    exact ⟨⟨rfl, (yield_gLastSector env _).trans (hmoved _)⟩, .inl ⟨_, rfl, .inl rfl⟩⟩
  · have hways := searchLbnStep_ways env codec startAddr n s
    generalize searchLbnStep env codec startAddr n s = t at hways ⊢
    cases hways with
    | missed _ hcnt => exact ⟨⟨rfl, hmoved _⟩, .inr (.inl ⟨rfl, hcnt, rfl, rfl⟩)⟩
    | lost _ _ l hl =>
      refine ⟨⟨rfl, hsearched⟩, ?_⟩
      rcases hl with ⟨rfl, -⟩ | rfl
      · exact .inr (.inr ⟨rfl, rfl⟩)
      · exact .inl ⟨_, rfl, .inr (.inl rfl)⟩
    | forced hpos => exact absurd hpos hres
    | header hpos => exact absurd hpos hres

/-- Where the last sector wanted has been found with the disc in, it is too late
for the eject: whatever comes from then on, the call succeeds. -/
theorem searchLbnStep_tooLate (env : Env) (codec : Codec) (startAddr n : Nat)
    (hres : 0 ≤ s.searchResult env) (hin : (s.atHeader env).world.cdDevForceStop = 0)
    (hframe : ((s.atHeader env).descramble codec).frame
      = u32 (startAddr + s.usedSectNum : Nat))
    (hgood : cdTrue ≤ (((s.atHeader env).descramble codec).correct codec).1)
    (hlast : n ≤ s.usedSectNum + 1) :
    (searchLbnStep env codec startAddr n s).result = some userSectorSize := by
  have hused : ((s.atHeader env).descramble codec).usedSectNum = s.usedSectNum := rfl
  have hcorrect := (correct_spec codec ((s.atHeader env).descramble codec)).2.1
  rw [searchLbnStep_hit env codec startAddr n hres, if_neg (not_not.mpr hin)]
  unfold headerStep
  simp only [hused]
  rw [if_pos hframe]
  generalize (s.atHeader env).descramble codec = d at hused hcorrect hgood ⊢
  rcases deliverStep_ways env codec startAddr n
      (fun i : Nat => (s.atHeader env).world.cdChunkBuf ((s.atHeader env).psCDBuff + i))
      (d.byte modeLoca) d with ⟨⟨hbad, -⟩, -⟩ | ⟨-, hstep⟩
  · omega
  · rw [hstep, if_neg (by rw [hcorrect, hused]; omega)]
    rfl

/-! ### The counters of the header search -/

/-- What the header search has left, in every state of every call. -/
structure Patient (s : Scan) : Prop where
  retry : s.result = none → 0 < s.kmpRetry
  retry_le : s.kmpRetry ≤ cdKmpRetryCnt
  cnt_le : s.kmpcnt ≤ cdKmpRetryCnt

theorem HeaderEnds.keeps (h : HeaderEnds s t) : KeepsKmp s t := by
  cases h with
  | leaves _ _ hkeep => exact hkeep
  | strides _ _ _ _ _ _ hkeep => exact hkeep
  | delivers _ _ _ _ hkeep => exact hkeep

theorem Patient.keeps (h : Patient s) (hopen : s.result = none) (hkeep : KeepsKmp s t) :
    Patient t where
  retry := fun _ => by rw [hkeep.retry]; exact h.retry hopen
  retry_le := by rw [hkeep.retry]; exact h.retry_le
  cnt_le := by rw [hkeep.cnt]; exact h.cnt_le

theorem Patient.tryReadStep (h : Patient s) (env : Env) (fuel startAddr n : Nat)
    (hlabel : s.label = .tryRead) : Patient (tryReadStep env fuel startAddr n s) := by
  have hpos : 0 < s.kmpRetry := h.retry (by unfold Scan.result; rw [hlabel])
  unfold CdPlayer.tryReadStep
  simp only
  split
  · exact ⟨fun _ => hpos, h.retry_le, le_rfl⟩
  · split <;> exact ⟨fun _ => hpos, h.retry_le, le_rfl⟩

theorem Patient.searchLbnStep (h : Patient s) (env : Env) (codec : Codec) (startAddr n : Nat)
    (hlabel : s.label = .searchLbn) (hdst : s.pdCDBuff ≤ s.psCDBuff) :
    Patient (searchLbnStep env codec startAddr n s) := by
  have hopen : s.result = none := by unfold Scan.result; rw [hlabel]
  have hretry := h.retry hopen
  have hle := h.retry_le
  have hcnt := h.cnt_le
  have hways := searchLbnStep_ways env codec startAddr n s
  generalize CdPlayer.searchLbnStep env codec startAddr n s = t at hways ⊢
  cases hways with
  | missed => exact ⟨fun _ => hretry, hle, show s.kmpcnt - 1 ≤ _ by omega⟩
  | lost _ _ l hl =>
    refine ⟨fun hnone => ?_, show s.kmpRetry - 1 ≤ _ by omega, hcnt⟩
    rcases hl with ⟨rfl, hpos⟩ | rfl
    · exact hpos
    · cases hnone
  | forced => exact ⟨fun _ => hretry, hle, hcnt⟩
  | header hpos =>
    have hbehind : (s.atHeader env).pdCDBuff ≤ (s.atHeader env).psCDBuff :=
      hdst.trans (Int.le_add_of_nonneg_right hpos)
    have hends := (headerStep_ends env codec startAddr n hbehind).keeps
    exact h.keeps hopen ⟨hends.retry, hends.cnt⟩

theorem Patient.scanStep (h : Patient s) (env : Env) (fuel : Nat)
    (hinv : Compacted codec startAddr n s) :
    Patient (scanStep env codec fuel startAddr n s) := by
  unfold CdPlayer.scanStep
  split
  next hl => exact h.tryReadStep env fuel startAddr n hl
  next hl => exact h.searchLbnStep env codec startAddr n hl (hinv.behind hl)
  next => exact h

theorem patient_scanAt (env : Env) (codec : Codec) (fuel startAddr n : Nat) (w : World)
    (k : Nat) : Patient (scanAt env codec fuel startAddr n w k) := by
  induction k with
  | zero =>
    have hpos : (0 : Int) < cdKmpRetryCnt := by decide
    unfold scanAt enterScan
    simp only
    split <;> exact ⟨fun _ => hpos, le_rfl, hpos.le⟩
  | succ k ih =>
    rw [scanAt_succ]
    exact ih.scanStep env fuel (compacted_scanAt env codec fuel startAddr n w k)

/-! ### The end of the call -/

/-- How many jumps are left at most. -/
def Scan.patience (s : Scan) : Nat :=
  match s.label with
  | .tryRead => 4 * s.kmpRetry.toNat
  | .searchLbn => 4 * (s.kmpRetry.toNat - 1) + s.kmpcnt.toNat + 1
  | _ => 0

theorem Patient.le (h : Patient s) : s.patience ≤ 8 := by
  have hle := h.retry_le
  have hcnt := h.cnt_le
  simp only [cdKmpRetryCnt] at hle hcnt
  unfold Scan.patience
  split <;> omega

/-- The call `s` goes on from the state `s₀` in which the disc is out. -/
structure Overtakes (codec : Codec) (startAddr n : Nat) (s₀ s : Scan) : Prop where
  ring : RingOk s.world.sCDDIBuffer
  quiet : OutQuiet s.world
  compacted : Compacted codec startAddr n s
  patient : Patient s
  delivered : KeepsDelivered s₀ s
  course : s.UnderWay ∨ s.Halted

theorem KeepsDelivered.trans {s₀ : Scan} (h : KeepsDelivered s₀ s) (h' : KeepsDelivered s t) :
    KeepsDelivered s₀ t :=
  ⟨h'.used.trans h.used, h'.last.trans h.last⟩

theorem Scan.Halted.step (h : s.Halted) : scanStep env codec fuel startAddr n s = s := by
  obtain ⟨res, hlabel, -⟩ := h
  unfold scanStep
  rw [hlabel]

/-- A jump of a call under way: it delivers nothing, and takes one from the
jumps that are left. -/
theorem Overtakes.jump {s₀ : Scan} (henv : env.Obeys StaysOut) (hfuel : 0 < fuel)
    (h : Overtakes codec startAddr n s₀ s) (hopen : s.UnderWay) :
    KeepsDelivered s (scanStep env codec fuel startAddr n s) ∧
      ((scanStep env codec fuel startAddr n s).UnderWay ∨
        (scanStep env codec fuel startAddr n s).Halted) ∧
      (scanStep env codec fuel startAddr n s).patience < s.patience := by
  have hpatient := h.patient
  rcases hopen with hlabel | hlabel
  · have hretry := hpatient.retry (by unfold Scan.result; rw [hlabel])
    obtain ⟨hkeeps, hways⟩ := tryReadStep_out henv startAddr n hfuel h.quiet
    rw [scanStep_tryRead env codec hlabel]
    generalize tryReadStep env fuel startAddr n s = t at hkeeps hways ⊢
    rcases hways with ⟨res, hl, hres⟩ | ⟨hl, hkmp, hcnt⟩
    · refine ⟨hkeeps, .inr ⟨res, hl, hres⟩, ?_⟩
      unfold Scan.patience
      simp only [hl, hlabel]
      omega
    · refine ⟨hkeeps, .inl (.inr hl), ?_⟩
      unfold Scan.patience
      simp only [hl, hlabel, hkmp, hcnt, cdKmpRetryCnt]
      omega
  · have hretry := hpatient.retry (by unfold Scan.result; rw [hlabel])
    obtain ⟨hkeeps, hways⟩ := searchLbnStep_out henv codec startAddr n h.quiet
    rw [scanStep_searchLbn env codec hlabel]
    generalize searchLbnStep env codec startAddr n s = t at hkeeps hways ⊢
    rcases hways with ⟨res, hl, hres⟩ | ⟨hl, hpos, hkmp, hcnt⟩ | ⟨hl, hkmp⟩
    · refine ⟨hkeeps, .inr ⟨res, hl, hres⟩, ?_⟩
      unfold Scan.patience
      simp only [hl, hlabel]
      omega
    · refine ⟨hkeeps, .inl (.inr hl), ?_⟩
      unfold Scan.patience
      simp only [hl, hlabel, hkmp, hcnt]
      omega
    · refine ⟨hkeeps, .inl (.inl hl), ?_⟩
      unfold Scan.patience
      simp only [hl, hlabel, hkmp]
      omega

theorem Overtakes.step {s₀ : Scan} (henv : env.Obeys StaysOut) (hfuel : 0 < fuel)
    (h : Overtakes codec startAddr n s₀ s) :
    Overtakes codec startAddr n s₀ (scanStep env codec fuel startAddr n s) := by
  rcases h.course with hopen | hhalt
  · obtain ⟨hkeeps, hcourse, -⟩ := h.jump henv hfuel hopen
    have hacts : Acts env s.world (scanStep env codec fuel startAddr n s).world :=
      scanStep_acts env fuel startAddr n h.ring
    exact ⟨hacts.ringOk h.ring, h.quiet.acts henv hacts, compacted_scanStep s h.compacted,
      h.patient.scanStep env fuel h.compacted, h.delivered.trans hkeeps, hcourse⟩
  · rw [hhalt.step]
    exact h

/-- From any label on. -/
theorem overtaken_scan (henv : env.Obeys StaysOut) (codec : Codec) (hfuel : 0 < fuel)
    (hring : RingOk w.sCDDIBuffer) (hshock : w.gCDErrorStatus ≠ .shock) (startAddr n k : Nat)
    (hopen : (scanAt env codec fuel startAddr n w k).UnderWay)
    (hout : (scanAt env codec fuel startAddr n w k).world.Out) (m : Nat) (hm : 8 ≤ m) :
    Overtakes codec startAddr n (scanAt env codec fuel startAddr n w k)
        (scanAt env codec fuel startAddr n w (k + m)) ∧
      (scanAt env codec fuel startAddr n w (k + m)).Halted := by
  have hacts : Acts env w (scanAt env codec fuel startAddr n w k).world :=
    scan_acts env codec hring fuel startAddr n k
  have hstart : Overtakes codec startAddr n (scanAt env codec fuel startAddr n w k)
      (scanAt env codec fuel startAddr n w k) :=
    { ring := hacts.ringOk hring
      quiet := ⟨hout, hacts.noShock env hshock⟩
      compacted := compacted_scanAt env codec fuel startAddr n w k
      patient := patient_scanAt env codec fuel startAddr n w k
      delivered := ⟨rfl, rfl⟩
      course := .inl hopen }
  have hrun : scanAt env codec fuel startAddr n w (k + m)
      = (scanStep env codec fuel startAddr n)^[m] (scanAt env codec fuel startAddr n w k) := by
    unfold scanAt
    rw [Nat.add_comm, Function.iterate_add_apply]
  rw [hrun]
  refine ⟨iterate_inv (fun s hs => hs.step henv hfuel) m hstart, ?_⟩
  refine iterate_reaches (P := Overtakes codec startAddr n _) Scan.patience
    (fun s hs => hs.step henv hfuel) (fun s hs => by rw [hs.step]; exact hs)
    (fun s hs hno => ?_) hstart (hstart.patient.le.trans hm)
  exact (hs.jump henv hfuel (hs.course.resolve_right hno)).2.2

/-- **A call that the eject overtakes ends.**  Whatever the deck has done so
far, if the disc is out when a call of `CD_DescrambleSector` comes to a label,
and stays out, the call returns after eight jumps at most, with the force
stop, with the error for missing headers or with the deck's refusal to seek;
it delivers no further sector and leaves those that it has delivered. -/
theorem overtaken_call_ends (before env : Env) (codec : Codec) (henv : env.Obeys StaysOut)
    {j fuel : Nat} (hfuel : 0 < fuel) {w : World} (hw : Reachable before codec j w)
    (startAddr n k : Nat) (hopen : (scanAt env codec fuel startAddr n w k).UnderWay)
    (hout : (scanAt env codec fuel startAddr n w k).world.Out) :
    ∃ res, Overtaken res ∧
      (scanAt env codec fuel startAddr n w (k + 8)).result = some res ∧
      (scanAt env codec fuel startAddr n w (k + 8)).usedSectNum
        = (scanAt env codec fuel startAddr n w k).usedSectNum ∧
      (scanAt env codec fuel startAddr n w (k + 8)).world.gLastSector
        = (scanAt env codec fuel startAddr n w k).world.gLastSector ∧
      ∀ a : Int, a < 2048 * (scanAt env codec fuel startAddr n w k).usedSectNum →
        (scanAt env codec fuel startAddr n w (k + 8)).world.cdChunkBuf a
          = (scanAt env codec fuel startAddr n w k).world.cdChunkBuf a := by
  obtain ⟨hend, res, hlabel, hres⟩ := overtaken_scan henv codec hfuel hw.ringOk
    (hw.acts.noShock before (by decide)) startAddr n k hopen hout 8 le_rfl
  refine ⟨res, hres, ?_, hend.delivered.used, hend.delivered.last,
    fun a ha => scanAt_frozen w k a ha⟩
  unfold Scan.result
  rw [hlabel]

/-- A deck that serves a first read with zeros.  Then it is opened. -/
def yankedDeck : Env := fun w =>
  if 0 < w.chOffset then ⟨[ejectMessage 1], false, false⟩
  else if w.datacdEnable = false ∧ w.cdDevForceStop = 0 then ⟨[.mount], false, true⟩
  else if w.waiting then ⟨[answerTo w.seeks 1], false, true⟩
  else if w.seeks = 1 ∧ w.dmaSince = 0 then ⟨List.replicate 20 (.dma fun _ => 0), false, true⟩
  else .quiet

theorem staysOut_of_call {e : Event} (h : ∀ status, ejectCall e = some status → status ≠ 0)
    (w : World) : StaysOut w e := by
  intro hout
  have hview := congrArg EjectView.forceStop (handle_ejectView w e)
  change (handle w e).cdDevForceStop = _ at hview
  rw [hview]
  rcases hcall : ejectCall e with - | status
  · exact hout
  · have hone : (EjectView.ofCall status).forceStop = 1 := if_pos (h status hcall)
    show (EjectView.ofCall status).forceStop ≠ 0
    rw [hone]
    decide

theorem yankedDeck_staysOut : yankedDeck.Obeys StaysOut := by
  have hnone : ∀ (u : World) (e : Event), ejectCall e = none → StaysOut u e :=
    fun u e he => staysOut_of_call (fun status hcall => by rw [he] at hcall; cases hcall) u
  intro w
  unfold yankedDeck
  split
  · refine ⟨staysOut_of_call (fun status hcall => ?_) w, trivial⟩
    cases hcall
    decide
  · split
    next hin => exact ⟨fun hout => absurd hin.2 hout, trivial⟩
    next =>
      split
      · exact ⟨hnone w _ rfl, trivial⟩
      · split
        · refine allowed_of_forall fun u e he => hnone u e ?_
          rw [List.eq_of_mem_replicate he]
          rfl
        · trivial

/-- Opened during the first search. -/
theorem overtaken_call_ends_yanked :
    ∃ res, Overtaken res ∧
      (scanAt yankedDeck plainCodec 1 150 1 (yield yankedDeck World.initial) 10).result
        = some res := by
  obtain ⟨res, hres, hresult, -⟩ := overtaken_call_ends yankedDeck yankedDeck plainCodec
    yankedDeck_staysOut (j := 1) Nat.one_pos (.turn .init) 150 1 2
    (by unfold Scan.UnderWay; decide +kernel) (by unfold World.Out; decide +kernel)
  exact ⟨res, hres, hresult⟩

/-! ### The request -/

/-- No shock is reported by the driver's side of the device. -/
theorem noShock_run (codec : Codec) (buf : Mem) (ops : List DeviceOp) :
    (deviceRun codec buf ops).driver.gCDErrorStatus ≠ .shock := by
  have hrun : FlagsAgree (deviceRun codec buf ops) ∧
      (deviceRun codec buf ops).driver.gCDErrorStatus ≠ .shock := by
    refine foldl_inv (P := fun d => FlagsAgree d ∧ d.driver.gCDErrorStatus ≠ .shock)
      (fun d op hd => ⟨flagsAgree_step codec d op hd.1, ?_⟩) ops
      ⟨⟨ringOk_initial, rfl⟩, show World.initial.gCDErrorStatus ≠ .shock by decide⟩
    cases op with
    | event e => exact (outside_handle d.driver e).noShock hd.2
    | segment env fuel r => exact (tcrIssueRq_acts env codec fuel r d hd.1.ring).noShock env hd.2
  exact hrun.2

/-- **A request that the eject overtakes fails.**  In every run of the device,
if the disc is out, and stays out, when the read of a segment comes to a
label with the call still under way, the request is refused as if the disc
had been out before. -/
theorem overtaken_segment_fails (codec : Codec) (buf : Mem) (ops : List DeviceOp) (env : Env)
    (henv : env.Obeys StaysOut) (fuel k : Nat) (hk : k + 8 ≤ fuel) (r : Request)
    (hread : r.cmdTypeFs = true ∧ r.read = true)
    (hopen : (scanAt env codec fuel r.msf (r.curSectors / 4)
      (yield env (deviceRun codec buf ops).driver) k).UnderWay)
    (hout : (scanAt env codec fuel r.msf (r.curSectors / 4)
      (yield env (deviceRun codec buf ops).driver) k).world.Out) :
    Refused r (deviceRun codec buf ops)
        (tcrIssueRq env codec fuel r (deviceRun codec buf ops)) := by
  have hring := (flagsAgree_run codec buf ops).ring
  have hshock := noShock_run codec buf ops
  generalize deviceRun codec buf ops = d at *
  obtain ⟨-, res, hlabel, hres⟩ := overtaken_scan henv codec (by omega) (ringOk_yield env hring)
    ((frame_yield env d.driver).noShock hshock) r.msf (r.curSectors / 4) k hopen hout (fuel - k)
    (by omega)
  rw [show k + (fuel - k) = fuel by omega] at hlabel
  have hscan : (cdDescrambleSector env codec fuel r.msf (r.curSectors / 4)
      (yield env d.driver)).result = some res := by
    unfold Scan.result
    rw [show (cdDescrambleSector env codec fuel r.msf (r.curSectors / 4)
      (yield env d.driver)).label = .returned res from hlabel]
  have hneg : res < 0 := by
    rcases hres with rfl | rfl | rfl <;> decide
  unfold tcrIssueRq tcrReadData cdReadSector
  rw [if_pos hread]
  simp only
  split
  · exact ⟨rfl, rfl, .inr rfl⟩
  · simp only [hscan]
    rw [if_pos hneg]
    simp only
    rw [if_neg (by omega)]
    exact ⟨rfl, rfl, .inl rfl⟩

/-- The first request to the device, opened during the first search. -/
theorem overtaken_segment_fails_yanked :
    Refused (requestAt160 1) (deviceRun plainCodec Mem.zero [])
      (tcrIssueRq yankedDeck plainCodec 10 (requestAt160 1)
        (deviceRun plainCodec Mem.zero [])) :=
  overtaken_segment_fails plainCodec Mem.zero [] yankedDeck yankedDeck_staysOut 10 2 le_rfl
    (requestAt160 1) ⟨rfl, rfl⟩ (by unfold Scan.UnderWay; decide +kernel)
    (by unfold World.Out; decide +kernel)

end CdPlayer
