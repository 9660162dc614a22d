/-
CdPlayer/TryRead.lean

The passes of `TRY_READ` and their seeks.

Two things are asked of every pass of the label in `CD_ReadData`.  A seek
that fails must end the call with its code and leave everything stopped:
this holds except where the wait for the deck's response times out, whose
code no caller tests (`failed_seek_iff`).  And some pass must end the call:
this holds except where every pass starves, since nothing counts the passes
(`cdReadData_returns_iff`).
-/
import CdPlayer.PostSeek
import CdPlayer.Eject

namespace CdPlayer

open Run ByteStore

variable {env : Env} {addr req k : Nat} {w v u : World}

/-! ### A seek that fails -/

/-- The wait for the deck's response ends by the timer: no completion is
there and no signal has come. -/
def SeekTimesOut (env : Env) (msf : Nat) (w : World) : Prop :=
  (yield env (beginSeek msf w)).tccCompletion = 0 ∧ (env (beginSeek msf w)).signal = false

theorem waitForCompletion_zero (env : Env) (msf : Nat) (w : World) :
    (waitForCompletion env (beginSeek msf w)).1 = 0 ↔ SeekTimesOut env msf w := by
  unfold waitForCompletion SeekTimesOut
  simp only
  by_cases hc : 0 < (yield env (beginSeek msf w)).tccCompletion
  · rw [if_pos hc]
    exact ⟨fun h => absurd (show (1 : Int) = 0 from h) (by decide), fun h => absurd h.1 (by omega)⟩
  · rw [if_neg hc]
    cases hsig : (env (beginSeek msf w)).signal with
    | true =>
      exact ⟨fun h => absurd (show (-512 : Int) = 0 from h) (by decide),
        fun h => absurd h.2 (by decide)⟩
    | false => exact ⟨fun _ => ⟨by omega, rfl⟩, fun _ => rfl⟩

/-- `CD_Send_msf` reports that in a code of its own. -/
theorem seekTimesOut_iff (env : Env) (msf : Nat) (w : World) :
    SeekTimesOut env msf w ↔ (cdSendMsf env msf w).1 = seekTimeOut := by
  rw [← waitForCompletion_zero]
  unfold cdSendMsf
  rcases waitForCompletion env (beginSeek msf w) with ⟨ret, u⟩
  simp only
  by_cases hret : ret = 0
  · rw [if_pos hret]
    exact ⟨fun _ => rfl, fun _ => hret⟩
  · rw [if_neg hret]
    refine ⟨fun h => absurd h hret, fun h => ?_⟩
    exfalso
    revert h
    simp only
    split <;> decide

/-- The seek of a pass and the state in which its result is tested. -/
def passSeek (env : Env) (addr : Nat) (v : World) : Int × World :=
  cdSendMsf env addr (enterStop env v)

/-- Turns keep the status. -/
theorem passSeek_status (env : Env) (addr : Nat) (h : v.gCDBufStatus = .stop) :
    (passSeek env addr v).2.gCDBufStatus = .stop := by
  have hseek := (cdSendMsf_frame env addr (enterStop env v)).bufStatus
  have henter : (enterStop env v).gCDBufStatus = v.gCDBufStatus := by
    show (yield env (zeroWritePtr (yield env (v.note _)))).gCDBufStatus = _
    rw [yield_gCDBufStatus]
    show (yield env (v.note _)).gCDBufStatus = _
    rw [yield_gCDBufStatus]
    rfl
  exact hseek.trans (henter.trans h)

/-! ### The CDIF during a seek -/

/-- The interrupt turns the CDIF off: a block comes in data mode and leaves no
room for another one. -/
def FillsRing (w : World) : Event → Prop
  | .dma block => w.cdifEnable = true ∧ w.sCDDIBuffer.lLength ≠ 0 ∧ w.datacdEnable = true ∧
      singleBufferSpaceAvailable (appendBlock block w.now w.sCDDIBuffer) ≤ 2048
  | _ => False

/-- No block of the turn that is due in `w` does so. -/
def LeavesRoom (env : Env) (w : World) : Prop :=
  Allowed handle (fun u e => ¬ FillsRing u e) w (env w).events

/-- Nothing else that happens to the driver touches the CDIF. -/
theorem handle_off_iff (w : World) (e : Event) :
    (handle w e).cdifEnable = false ↔ w.cdifEnable = false ∨ FillsRing w e := by
  cases e with
  | dma block =>
    unfold FillsRing
    by_cases hon : w.cdifEnable = true
    · have hrun : (handle w (.dma block)).cdifEnable = (cdifAdmaHandler block w).cdifEnable := by
        rw [handle, occur, if_pos hon]
        rfl
      rw [hrun]
      by_cases hL : w.sCDDIBuffer.lLength = 0
      · rw [cdifAdmaHandler_unset block hL]
        exact ⟨.inl, fun h => h.resolve_right fun hfills => hfills.2.1 hL⟩
      · rw [cdifAdmaHandler_eq block hL]
        simp only
        split
        next hfull => exact ⟨fun _ => .inr ⟨hon, hL, hfull.2, hfull.1⟩, fun _ => rfl⟩
        next hroom =>
          exact ⟨.inl, fun h => h.resolve_right fun hfills => hroom ⟨hfills.2.2.2, hfills.2.2.1⟩⟩
    · have hrun : (handle w (.dma block)).cdifEnable = w.cdifEnable := by
        rw [handle, occur, if_neg hon]
        rfl
      rw [hrun]
      exact ⟨.inl, fun h => h.resolve_right fun hfills => hon hfills.1⟩
  | msg m =>
    have hrun : (handle w (.msg m)).cdifEnable = w.cdifEnable := by
      rw [handle, occur]
      split <;> exact (sameRing_nlRecvMsg w m).cdif
    rw [hrun]
    exact ⟨.inl, fun h => h.resolve_right id⟩
  | mount =>
    have hrun : (handle w .mount).cdifEnable = w.cdifEnable :=
      (sameRing_tcrReadTochdr w).cdif
    rw [hrun]
    exact ⟨.inl, fun h => h.resolve_right id⟩

theorem yield_off_iff (env : Env) (w : World) :
    (yield env w).cdifEnable = false ↔ w.cdifEnable = false ∨ ¬ LeavesRoom env w := by
  unfold LeavesRoom
  show ((env w).events.foldl handle w).cdifEnable = false ↔ _
  generalize (env w).events = events
  induction events generalizing w with
  | nil => exact ⟨.inl, fun h => h.resolve_right fun hno => hno trivial⟩
  | cons e events ih =>
    rw [List.foldl_cons, ih, handle_off_iff, or_assoc]
    refine or_congr_right ?_
    show _ ↔ ¬ (¬ FillsRing w e ∧ _)
    rw [not_and_or, not_not]

/-- `CD_Send_msf` when its wait has ended with `r`. -/
def endWait (r : Int × World) : World :=
  { r.2 with waiting := false }.note (.seekEnded r.1 r.2.cdifEnable)

/-- Where the turns of `CD_Do_StopBuffering` up to the test of its seek are:
before and between the stores to the pointers, in the wait for the response
and twice while it is read. -/
def stopTurns (env : Env) (msf : Nat) (v : World) : List World :=
  let entered := v.note (.enterStop v.cdifEnable)
  let sent := beginSeek msf (enterStop env v)
  let ended := endWait (waitForCompletion env sent)
  [entered, zeroWritePtr (yield env entered), sent, ended, yield env ended]

/-- The CDIF is off at the end of a seek that has not timed out if it was off
before, or if the ring fills up in one of these turns. -/
theorem passSeek_off_iff (env : Env) (msf : Nat) (h : ¬ SeekTimesOut env msf (enterStop env v)) :
    (passSeek env msf v).2.cdifEnable = false ↔
      v.cdifEnable = false ∨ ∃ u ∈ stopTurns env msf v, ¬ LeavesRoom env u := by
  have hret : (waitForCompletion env (beginSeek msf (enterStop env v))).1 ≠ 0 :=
    fun hzero => h ((waitForCompletion_zero env msf _).mp hzero)
  have hrun : (passSeek env msf v).2.cdifEnable = (yield env (yield env
      (endWait (waitForCompletion env (beginSeek msf (enterStop env v)))))).cdifEnable := by
    unfold passSeek cdSendMsf
    generalize waitForCompletion env (beginSeek msf (enterStop env v)) = r at hret ⊢
    obtain ⟨ret, u⟩ := r
    simp only
    rw [if_neg hret]
    rfl
  -- the thread itself does not touch the CDIF on the way
  have hended : (endWait (waitForCompletion env (beginSeek msf (enterStop env v)))).cdifEnable
      = (yield env (beginSeek msf (enterStop env v))).cdifEnable := by
    unfold waitForCompletion
    simp only
    split
    · rfl
    · split <;> rfl
  have hsent : (beginSeek msf (enterStop env v)).cdifEnable
      = (yield env (zeroWritePtr (yield env (v.note (.enterStop v.cdifEnable))))).cdifEnable := rfl
  have hentered : (zeroWritePtr (yield env (v.note (.enterStop v.cdifEnable)))).cdifEnable
      = (yield env (v.note (.enterStop v.cdifEnable))).cdifEnable := rfl
  have hv : (v.note (.enterStop v.cdifEnable)).cdifEnable = v.cdifEnable := rfl
  rw [hrun, yield_off_iff, yield_off_iff, hended, yield_off_iff, hsent, yield_off_iff, hentered,
    yield_off_iff, hv]
  unfold stopTurns
  simp only [List.mem_cons, List.not_mem_nil, or_false, exists_eq_or_imp, exists_eq_left, or_assoc]

/-- The deck's refusal is the result of the pass. -/
theorem cdDoStopBuffering_refused (env : Env) (addr req : Nat)
    (h : (passSeek env addr v).1 = -1) :
    cdDoStopBuffering env addr req v = passSeek env addr v := by
  unfold cdDoStopBuffering startStream
  unfold passSeek at h ⊢
  generalize cdSendMsf env addr (enterStop env v) = r at h ⊢
  obtain ⟨ret, u⟩ := r
  obtain rfl : ret = -1 := h
  rfl

theorem startStream_refused (env : Env) (addr : Nat) (h : (passSeek env addr v).1 = -1) :
    startStream env addr v = passSeek env addr v := by
  unfold startStream
  unfold passSeek at h ⊢
  generalize cdSendMsf env addr (enterStop env v) = r at h ⊢
  obtain ⟨ret, u⟩ := r
  exact if_pos h

/-- Any other result opens the stream. -/
theorem startStream_opens (env : Env) (addr : Nat) (h : (passSeek env addr v).1 ≠ -1) :
    startStream env addr v
      = ((passSeek env addr v).1, openStream env (passSeek env addr v).2) := by
  unfold startStream
  unfold passSeek at h ⊢
  generalize cdSendMsf env addr (enterStop env v) = r at h ⊢
  obtain ⟨ret, u⟩ := r
  exact if_neg h

theorem openStream_status (env : Env) (w : World) :
    (openStream env w).gCDBufStatus = .start := by
  show (yield env (cdSetBufferStatus .start w)).gCDBufStatus = _
  rw [yield_gCDBufStatus]
  rfl

/-- A pass that fails for good ends `CD_ReadData` with its code and without a
copy. -/
theorem cdReadData_of_pass {fuel addr n k : Nat} {p r : Int} (hk : k < fuel)
    (hpass : Pass env addr (checkBuffering env n w).1 (checkBuffering env n w).2 k v)
    (hres : tryPass env addr (checkBuffering env n w).1 v = (r, u)) (hneg : r < 0)
    (htime : r ≠ bufferingTimeOut) : cdReadData env fuel addr n p w = (some r, u) := by
  have hrun : tryRead env addr (checkBuffering env n w).1 fuel (checkBuffering env n w).2
      = (some r, u) := by
    obtain ⟨m, rfl⟩ : ∃ m, fuel = k + (m + 1) := ⟨fuel - k - 1, by omega⟩
    rw [hpass.tryRead, tryRead_succ, hres, if_neg (by simp only; omega), if_neg htime]
  rw [cdReadData_of_fail env fuel addr n p (fun l hl => ?_), hrun]
  rw [hrun] at hl
  injection hl with hl
  omega

/-- `goMSF` of the round of `CD_DescrambleSector` that starts in state `s`. -/
def Scan.roundMsf (startAddr : Nat) (s : Scan) : Nat :=
  u32 ((startAddr + s.usedSectNum : Nat) + cdGetDiffValue)

/-- `reqSize` of that round. -/
def Scan.roundSize (n : Nat) (s : Scan) : Nat := u32 ((n : Int) - s.usedSectNum)

/-- The round starts pass `k` of `TRY_READ` in state `v`. -/
def RoundPass (env : Env) (startAddr n : Nat) (s : Scan) (k : Nat) (v : World) : Prop :=
  Pass env (s.roundMsf startAddr) (checkBuffering env (s.roundSize n) s.world).1
    (checkBuffering env (s.roundSize n) s.world).2 k v

/-- A failing read ends the call. -/
theorem round_returns {codec : Codec} {fuel startAddr n : Nat} {s : Scan} {r : Int}
    (hlabel : s.label = .tryRead)
    (hread : cdReadData env fuel (s.roundMsf startAddr) (s.roundSize n) s.pdCDBuff s.world
      = (some r, u)) (hr : r ≤ 0) (m : Nat) :
    ((scanStep env codec fuel startAddr n)^[m + 1] s).result = some r ∧
      ((scanStep env codec fuel startAddr n)^[m + 1] s).world = u := by
  have hstep : (scanStep env codec fuel startAddr n s).label = .returned r ∧
      (scanStep env codec fuel startAddr n s).world = u := by
    rw [scanStep_tryRead env codec hlabel]
    unfold tryReadStep
    unfold Scan.roundMsf Scan.roundSize at hread
    simp only [hread, if_pos hr]
    exact ⟨rfl, rfl⟩
  rw [Function.iterate_succ_apply, iterate_returned hstep.1]
  refine ⟨?_, hstep.2⟩
  unfold Scan.result
  rw [hstep.1]

/-- What is asked of a seek that a round of `CD_DescrambleSector` makes in
state `v`: it starts a stream only if it succeeds; and if it fails, its code
goes up to the caller, everything is left stopped and nothing is copied. -/
structure Honoured (env : Env) (codec : Codec) (fuel startAddr n : Nat) (s : Scan) (v : World) :
    Prop where
  started : (startStream env (s.roundMsf startAddr) v).2.gCDBufStatus = .start ∨
    v.cdifEnable = false ∧ (startStream env (s.roundMsf startAddr) v).2.cdifEnable = true →
      (passSeek env (s.roundMsf startAddr) v).1 = 1
  stopped : ∀ ret u, passSeek env (s.roundMsf startAddr) v = (ret, u) → ret < 0 →
    (∀ req, cdDoStopBuffering env (s.roundMsf startAddr) req v = (ret, u)) ∧
    cdReadData env fuel (s.roundMsf startAddr) (s.roundSize n) s.pdCDBuff s.world
      = (some ret, u) ∧
    (∀ m, ((scanStep env codec fuel startAddr n)^[m + 1] s).result = some ret ∧
      ((scanStep env codec fuel startAddr n)^[m + 1] s).world = u) ∧
    u.gCDBufStatus = .stop ∧ u.cdifEnable = false ∧ u.cdChunkBuf = s.world.cdChunkBuf

/-- When it is: the wait for the response does not time out; and the response
is success, or the CDIF is off as `CD_Do_StopBuffering` is entered, or the
blocks that come before the response has been read fill the ring. -/
def SeekSettled (env : Env) (msf : Nat) (v : World) : Prop :=
  ¬ SeekTimesOut env msf (enterStop env v) ∧
    ((passSeek env msf v).1 = 1 ∨ v.cdifEnable = false ∨
      ∃ u ∈ stopTurns env msf v, ¬ LeavesRoom env u)

/-- **A failed seek is never treated as a started stream** if and only if the
wait for its response does not time out (and the CDIF, if the seek fails, was
off before or is turned off by blocks that fill the ring). -/
theorem failed_seek_iff (env : Env) (codec : Codec) (fuel startAddr n : Nat) (s : Scan)
    (hlabel : s.label = .tryRead) (k : Nat) (hk : k < fuel) (v : World)
    (hpass : RoundPass env startAddr n s k v) (hstop : v.gCDBufStatus = .stop) :
    Honoured env codec fuel startAddr n s v ↔ SeekSettled env (s.roundMsf startAddr) v := by
  have hresult := cdSendMsf_result env (s.roundMsf startAddr) (enterStop env v)
  have htimes := seekTimesOut_iff env (s.roundMsf startAddr) (enterStop env v)
  have hstatus := passSeek_status env (s.roundMsf startAddr) hstop
  have hcdif := passSeek_off_iff (v := v) env (s.roundMsf startAddr)
  constructor
  · intro h
    have hno : ¬ SeekTimesOut env (s.roundMsf startAddr) (enterStop env v) := by
      intro htime
      -- the stream has been opened on the timer's code
      have hret : (passSeek env (s.roundMsf startAddr) v).1 = seekTimeOut := htimes.mp htime
      have hopen := startStream_opens env (s.roundMsf startAddr) (v := v)
        (by rw [hret]; decide)
      have hone := h.started (.inl (by rw [hopen]; exact openStream_status env _))
      rw [hret] at hone
      exact absurd hone (by decide)
    refine ⟨hno, ?_⟩
    by_cases hone : (passSeek env (s.roundMsf startAddr) v).1 = 1
    · exact .inl hone
    · have hneg : (passSeek env (s.roundMsf startAddr) v).1 < 0 := by
        unfold passSeek at hone ⊢
        omega
      exact .inr ((hcdif hno).mp (h.stopped _ _ rfl hneg).2.2.2.2.1)
  · rintro ⟨hno, hoff⟩
    rw [← hcdif hno] at hoff
    have hcases : (passSeek env (s.roundMsf startAddr) v).1 = 1 ∨
        (passSeek env (s.roundMsf startAddr) v).1 = -1 := by
      rcases hresult with h1 | h1 | h3
      · exact .inl h1
      · exact .inr h1
      · exact absurd (htimes.mpr h3) hno
    constructor
    · intro hstarted
      rcases hcases with hone | hneg
      · exact hone
      · -- refused: the status is still STOP, and the CDIF still off
        exfalso
        rw [startStream_refused env _ hneg, hstatus] at hstarted
        rcases hstarted with hst | ⟨hv, hon⟩
        · exact absurd hst (by decide)
        · rw [(hcdif hno).mpr (.inl hv)] at hon
          exact absurd hon (by decide)
    · intro ret u hseek hneg
      rw [hseek] at hcases hoff hstatus
      obtain rfl : ret = -1 := by
        rcases hcases with hone | hret
        · exact absurd hneg (by rw [show ret = 1 from hone]; decide)
        · exact hret
      have hstopped : ∀ req, cdDoStopBuffering env (s.roundMsf startAddr) req v = (-1, u) :=
        fun req => (cdDoStopBuffering_refused env _ req (by rw [hseek])).trans hseek
      have hread := cdReadData_of_pass (p := s.pdCDBuff) hk hpass
        ((tryPass_stop env _ _ hstop).trans (hstopped _)) (by decide) (by decide)
      have hoffu : u.cdifEnable = false := hoff.resolve_left (show ¬ (-1 : Int) = 1 by decide)
      have hchunk : u.cdChunkBuf = s.world.cdChunkBuf := by
        have hdesk := ((sameDesk_checkBuffering env _ s.world).trans hpass.sameDesk).trans
          (sameDesk_cdDoStopBuffering env (s.roundMsf startAddr) 0 v)
        rw [hstopped 0] at hdesk
        exact hdesk.chunk
      exact ⟨hstopped, hread, round_returns hlabel hread (by decide), hstatus, hoffu, hchunk⟩

/-- A deck that mounts a disc and refuses every seek. -/
def refusingDeck : Env := fun w =>
  if w.datacdEnable = false then ⟨[.mount], false, true⟩
  else if w.waiting = true then ⟨[answerTo w.seeks 2], false, true⟩
  else .quiet

/-- The first round of a read of sector 150 after the deck has had a turn. -/
def firstRound (env : Env) : Scan := enterScan env 150 (yield env World.initial)

/-- Its first pass of `TRY_READ`. -/
def firstPass (env : Env) : World :=
  (checkBuffering env ((firstRound env).roundSize 1) (firstRound env).world).2

/-- The refusal of the first seek goes up to the caller. -/
theorem failed_seek_refused :
    Honoured refusingDeck plainCodec 1 150 1 (firstRound refusingDeck) (firstPass refusingDeck) :=
  (failed_seek_iff refusingDeck plainCodec 1 150 1 (firstRound refusingDeck) rfl 0
    (by decide) (firstPass refusingDeck) .first (by decide +kernel)).mpr
    ⟨by unfold SeekTimesOut; decide +kernel, .inr (.inl (by decide +kernel))⟩

/-- **A seek that times out is treated as a started stream.** -/
theorem failed_seek_timedOut :
    (passSeek silentDeck ((firstRound silentDeck).roundMsf 150) (firstPass silentDeck)).1
        = seekTimeOut ∧
      (startStream silentDeck ((firstRound silentDeck).roundMsf 150)
        (firstPass silentDeck)).2.gCDBufStatus = .start ∧
      ¬ Honoured silentDeck plainCodec 1 150 1 (firstRound silentDeck) (firstPass silentDeck) := by
  have hret : (passSeek silentDeck ((firstRound silentDeck).roundMsf 150)
      (firstPass silentDeck)).1 = seekTimeOut := by decide +kernel
  have hstart : (startStream silentDeck ((firstRound silentDeck).roundMsf 150)
      (firstPass silentDeck)).2.gCDBufStatus = .start := by decide +kernel
  refine ⟨hret, hstart, fun h => ?_⟩
  have hone := h.started (.inl hstart)
  rw [hret] at hone
  exact absurd hone (by decide)

/-! ### A read that starves -/

/-- Neither a force stop nor a shock. -/
structure Undisturbed (w : World) : Prop where
  force : w.ejectView.forceStop = 0
  shock : w.gCDErrorStatus ≠ .shock

/-- No disc is ejected. -/
abbrev NoEject : World → Event → Prop := Calls fun v => v.forceStop = 0

theorem Undisturbed.yield (henv : env.Obeys NoEject) (h : Undisturbed w) :
    Undisturbed (yield env w) :=
  ⟨yield_calls henv h.force, (frame_yield env w).noShock h.shock⟩

theorem undisturbed_giveUp (henv : env.Obeys NoEject) (h : w.ejectView.forceStop = 0) :
    Undisturbed (giveUp env w).2 :=
  ⟨(turnsKeep_calls henv).giveUp h, giveUp_noShock env w⟩

/-- What the `i`-th measurement of the wait loop finds, if the loop gets so
far: three turns lie between two measurements. -/
def measured (env : Env) (w : World) (i : Nat) : Nat :=
  u32 (singleBufferDataAvailable ((CdPlayer.yield env)^[3 * i + 1] w).sCDDIBuffer)

theorem measured_shift (env : Env) (w : World) (k i : Nat) :
    measured env ((CdPlayer.yield env)^[3 * k] w) i = measured env w (k + i) := by
  unfold measured
  rw [← Function.iterate_add_apply]
  congr 4
  omega

/-- Undisturbed, the loop goes round until it measures enough. -/
theorem waitBuffered_round (henv : env.Obeys NoEject) {req t n : Nat} {w : World}
    (h : Undisturbed w) (hn : n < req) :
    waitBuffered env req (t + 1) n w
      = waitBuffered env req t (measured env ((yield env)^[2] w) 0) ((yield env)^[3] w) := by
  have hforce : (yield env (yield env w)).cdDevForceStop = 0 := ((h.yield henv).yield henv).force
  rw [waitBuffered, if_pos hn]
  simp only
  rw [if_neg (h.yield henv).shock, if_neg (by rw [hforce]; decide)]
  rfl

/-- Undisturbed, the loop waits for samples and nothing else. -/
theorem waitBuffered_undisturbed (henv : env.Obeys NoEject) (req t : Nat) {n : Nat} {w : World}
    (h : Undisturbed w) :
    (∃ m, m < req ∧ waitBuffered env req t n w = (.expired m, (yield env)^[3 * t + 2] w)) ∧
      n < req ∧ (∀ i < t, measured env ((yield env)^[2] w) i < req) ∨
    (waitBuffered env req t n w).1 = .filled ∧
      (req ≤ n ∨ ∃ i < t, req ≤ measured env ((yield env)^[2] w) i) := by
  by_cases hn : n < req
  · induction t generalizing n w with
    | zero =>
      have hforce : (yield env (yield env w)).cdDevForceStop = 0 :=
        ((h.yield henv).yield henv).force
      refine .inl ⟨⟨n, hn, ?_⟩, hn, fun i hi => absurd hi (by omega)⟩
      rw [waitBuffered, if_pos hn]
      simp only
      rw [if_neg (h.yield henv).shock, if_neg (by rw [hforce]; decide)]
      rfl
    | succ t ih =>
      have hnext : Undisturbed ((yield env)^[3] w) := ((h.yield henv).yield henv).yield henv
      -- a round takes three turns, and the measurements shift by one
      have hshift : ∀ i, measured env ((yield env)^[2] ((yield env)^[3] w)) i
          = measured env ((yield env)^[2] w) (i + 1) := by
        intro i
        rw [← Function.iterate_add_apply, Nat.add_comm 2 3, Function.iterate_add_apply,
          show (yield env)^[3] = (yield env)^[3 * 1] from rfl, measured_shift, Nat.add_comm]
      rw [waitBuffered_round henv h hn]
      by_cases hfirst : measured env ((yield env)^[2] w) 0 < req
      · rcases ih hnext hfirst with ⟨⟨m, hm, hrun⟩, -, hall⟩ | ⟨hrun, hex⟩
        · refine .inl ⟨⟨m, hm, ?_⟩, hn, fun i hi => ?_⟩
          · rw [hrun, ← Function.iterate_add_apply]
            rfl
          · rcases i with - | i
            · exact hfirst
            · rw [← hshift]
              exact hall i (by omega)
        · refine .inr ⟨hrun, .inr ?_⟩
          rcases hex with hge | ⟨i, hi, hge⟩
          · exact absurd hge (by omega)
          · exact ⟨i + 1, by omega, by rw [← hshift]; exact hge⟩
      · refine .inr ⟨?_, .inr ⟨0, by omega, by omega⟩⟩
        rw [waitBuffered, if_neg hfirst]
  · refine .inr ⟨?_, .inl (by omega)⟩
    rw [waitBuffered, if_neg hn]

/-- No measurement finds the samples asked for. -/
def NoSupply (env : Env) (req : Nat) (w : World) : Prop := ∀ i ≤ 500, measured env w i < req

/-- The timer runs out exactly if no measurement finds enough. -/
theorem waitFor_undisturbed (henv : env.Obeys NoEject) (req : Nat) {w : World}
    (h : Undisturbed w) :
    (∃ m v, m < req ∧ waitFor env req w = (.expired m, v) ∧
      yield env v = (yield env)^[1504] w) ∧ NoSupply env req w ∨
    (∃ v, waitFor env req w = (.filled, v)) ∧ ¬ NoSupply env req w := by
  have hshift : ∀ i, measured env ((yield env)^[2] (yield env w)) i = measured env w (i + 1) := by
    intro i
    rw [Nat.add_comm]
    exact measured_shift env w 1 i
  unfold waitFor
  rcases waitBuffered_undisturbed henv req waitTimer
    (n := u32 (singleBufferDataAvailable (yield env w).sCDDIBuffer)) (h.yield henv) with
    ⟨⟨m, hm, hrun⟩, hn, hall⟩ | ⟨hrun, hex⟩
  · refine .inl ⟨⟨m, _, hm, hrun, ?_⟩, fun i hi => ?_⟩
    · rw [← Function.iterate_succ_apply, ← Function.iterate_succ_apply' (yield env)]
      rfl
    · rcases i with - | i
      · exact hn
      · rw [← hshift]
        exact hall i (by unfold waitTimer; omega)
  · refine .inr ⟨⟨_, Prod.ext hrun rfl⟩, fun hno => ?_⟩
    rcases hex with hge | ⟨i, hi, hge⟩
    · exact absurd (hno 0 (by omega)) (by unfold measured; exact not_lt.mpr hge)
    · rw [hshift] at hge
      exact absurd (hno (i + 1) (by unfold waitTimer at hi; omega)) (not_lt.mpr hge)

/-- The wait of a buffering function that begins in state `w` runs out, and
no full buffer is reported. -/
def RunsDry (env : Env) (req : Nat) (w : World) : Prop :=
  NoSupply env req w ∧ ((yield env)^[1504] w).gCDErrorStatus ≠ .bufFull

/-- A pass that starves: nothing is in the way of the wait, and it runs out. -/
def Starves (env : Env) (addr req : Nat) (v : World) : Prop :=
  match v.gCDBufStatus with
  | .start => RunsDry env req (enterStart v)
  | .stop => (startStream env addr v).1 ≠ -1 ∧ RunsDry env req (startStream env addr v).2
  | _ => False

theorem Undisturbed.startStream (henv : env.Obeys NoEject) (addr : Nat) (h : Undisturbed w) :
    Undisturbed (startStream env addr w).2 :=
  ⟨(turnsKeep_calls henv).startStream addr h.force, startStream_noShock env addr h.shock⟩

/-- `CD_Do_StartBuffering` times out exactly if it runs dry. -/
theorem cdDoStartBuffering_dry (henv : env.Obeys NoEject) {req : Nat} (hreq : req < 262144)
    (h : Undisturbed w) :
    (cdDoStartBuffering env req w).1 = bufferingTimeOut ↔ RunsDry env req (enterStart w) := by
  have henter : Undisturbed (enterStart w) := ⟨h.force, h.shock⟩
  unfold cdDoStartBuffering RunsDry
  rcases waitFor_undisturbed henv req henter with ⟨⟨m, v, hm, hrun, hend⟩, hno⟩ | ⟨⟨v, hrun⟩, hno⟩
  · rw [hrun]
    simp only
    rw [hend]
    by_cases hfull : ((yield env)^[1504] (enterStart w)).gCDErrorStatus = .bufFull
    · rw [if_pos hfull]
      refine ⟨fun htime => ?_, fun hdry => absurd hfull hdry.2⟩
      simp only [bufferingTimeOut] at htime
      rw [s32_of_lt (by omega) (by omega)] at htime
      omega
    · rw [if_neg hfull]
      exact ⟨fun _ => ⟨hno, hfull⟩, fun _ => rfl⟩
  · rw [hrun]
    exact ⟨fun htime => absurd htime (show ¬ (1 : Int) = -8 by decide),
      fun hdry => absurd hdry.1 hno⟩

/-- `CD_Do_StopBuffering` times out exactly if its seek does not fail and it
runs dry. -/
theorem cdDoStopBuffering_dry (henv : env.Obeys NoEject) (addr : Nat) {req : Nat}
    (hreq : req < 262144) (h : Undisturbed w) :
    (cdDoStopBuffering env addr req w).1 = bufferingTimeOut ↔
      (startStream env addr w).1 ≠ -1 ∧ RunsDry env req (startStream env addr w).2 := by
  have hopen := h.startStream henv addr
  unfold cdDoStopBuffering RunsDry
  generalize startStream env addr w = s at hopen ⊢
  obtain ⟨ret, u⟩ := s
  simp only at hopen ⊢
  by_cases hret : ret = -1
  · rw [if_pos hret]
    exact ⟨fun htime => absurd (hret.symm.trans htime) (by decide), fun hno => absurd hret hno.1⟩
  · rw [if_neg hret]
    rcases waitFor_undisturbed henv req hopen with
      ⟨⟨m, v, hm, hrun, hend⟩, hno⟩ | ⟨⟨v, hrun⟩, hno⟩
    · rw [hrun]
      simp only
      rw [hend]
      by_cases hfull : ((yield env)^[1504] u).gCDErrorStatus = .bufFull
      · -- the ring is full: what there is counts as read
        rw [if_pos hfull]
        refine ⟨fun htime => ?_, fun hdry => absurd hfull hdry.2.2⟩
        simp only [bufferingTimeOut] at htime
        rw [s32_of_lt (by omega) (by omega)] at htime
        omega
      · rw [if_neg hfull]
        exact ⟨fun _ => ⟨hret, hno, hfull⟩, fun _ => rfl⟩
    · rw [hrun]
      exact ⟨fun htime => absurd htime (show ¬ (1 : Int) = -8 by decide),
        fun hdry => absurd hdry.2.1 hno⟩

/-- A pass jumps back exactly if it starves. -/
theorem tryPass_starves (henv : env.Obeys NoEject) (addr : Nat) {req : Nat} (hreq : req < 262144)
    (h : Undisturbed w) :
    (tryPass env addr req w).1 = bufferingTimeOut ↔ Starves env addr req w := by
  unfold tryPass Starves
  rcases hst : w.gCDBufStatus with - | - | - | -
  · exact ⟨fun htime => absurd htime (show ¬ (0 : Int) = -8 by decide), fun h => h.elim⟩
  · exact cdDoStartBuffering_dry henv hreq h
  · exact cdDoStopBuffering_dry henv addr hreq h
  · exact ⟨fun htime => absurd htime (show ¬ (0 : Int) = -8 by decide), fun h => h.elim⟩

/-- A timeout is `giveUp`'s, in a state without force stop. -/
theorem tryPass_timeOut (henv : env.Obeys NoEject) {addr req : Nat} (hreq : req < 262144)
    (h : Undisturbed w) (htime : (tryPass env addr req w).1 = bufferingTimeOut) :
    Undisturbed (tryPass env addr req w).2 := by
  have hturn : ∀ u : World, u.ejectView.forceStop = 0 → (yield env u).ejectView.forceStop = 0 :=
    fun u hu => yield_calls henv hu
  rcases tryPass_timeOut_cases hreq htime with ⟨-, hr⟩ | ⟨-, hr⟩
  · have hwait := waitFor_inv hturn req (w := enterStart w) h.force
    rw [hr]
    exact undisturbed_giveUp henv ((turnsKeep_calls henv).zeroPointers (hturn _ hwait))
  · have hwait := waitFor_inv hturn req (w := (startStream env addr w).2)
      (h.startStream henv addr).force
    rw [hr]
    exact undisturbed_giveUp henv (hturn _ hwait)

theorem Pass.undisturbed (henv : env.Obeys NoEject) (hreq : req < 262144) (hw : Undisturbed w)
    (h : Pass env addr req w k v) : Undisturbed v :=
  h.inv (fun _ hu htime => tryPass_timeOut henv hreq hu htime) hw

/-- If every pass jumps back, no number of passes gives a result. -/
theorem tryRead_none (fuel : Nat) {w : World}
    (h : ∀ k v, Pass env addr req w k v → (tryPass env addr req v).1 = bufferingTimeOut) :
    (tryRead env addr req fuel w).1 = none := by
  rcases hres : (tryRead env addr req fuel w).1 with - | r
  · rfl
  · exfalso
    obtain ⟨k, v, hpass, hlast, hno⟩ := tryRead_last hres
    have htime := h k v hpass
    rw [hlast] at htime
    exact hno htime

theorem checkBuffering_undisturbed (henv : env.Obeys NoEject) (n : Nat) (h : Undisturbed w) :
    Undisturbed (checkBuffering env n w).2 :=
  ⟨(checkBuffering_acts env n w).ejectView henv h.force,
    (checkBuffering_acts env n w).noShock env h.shock⟩

/-- **When `CD_ReadData` returns.**  Without force stop and shock it passes
`TRY_READ` only finitely often, and gives a result, if and only if some pass
does not starve. -/
theorem cdReadData_returns_iff (env : Env) (henv : env.Obeys NoEject) (addr n : Nat) (p : Int)
    (w : World) (hw : Undisturbed w) :
    (∃ fuel r, (cdReadData env fuel addr n p w).1 = some r) ↔
      ∃ k v, Pass env addr (checkBuffering env n w).1 (checkBuffering env n w).2 k v ∧
        ¬ Starves env addr (checkBuffering env n w).1 v := by
  have hreq := checkBuffering_lt env n w
  have hcheck := checkBuffering_undisturbed henv n hw
  constructor
  · rintro ⟨fuel, r, hread⟩
    by_contra hno
    -- if every pass starves, no fuel suffices
    have hnone := tryRead_none fuel fun k v hpass =>
      (tryPass_starves henv addr hreq (hpass.undisturbed henv hreq hcheck)).mpr
        (by_contra fun hs => hno ⟨k, v, hpass, hs⟩)
    rw [cdReadData_of_fail env fuel addr n p (fun l hl => by rw [hnone] at hl; cases hl),
      hnone] at hread
    cases hread
  · rintro ⟨k, v, hpass, hs⟩
    have htime : (tryPass env addr (checkBuffering env n w).1 v).1 ≠ bufferingTimeOut :=
      fun htime => hs ((tryPass_starves henv addr hreq
        (hpass.undisturbed henv hreq hcheck)).mp htime)
    -- the fuel that leads to the pass, and one more for the pass itself
    have hrun : (tryRead env addr (checkBuffering env n w).1 (k + 1) (checkBuffering env n w).2).1
        = some (tryPass env addr (checkBuffering env n w).1 v).1 := by
      rw [hpass.tryRead, tryRead_succ, if_neg htime]
      split <;> rfl
    refine ⟨k + 1, ?_⟩
    by_cases hpos : 0 ≤ (tryPass env addr (checkBuffering env n w).1 v).1
    · exact ⟨_, congrArg Prod.fst (cdReadData_of_some env (k + 1) addr n p hrun hpos)⟩
    · rw [cdReadData_of_fail env (k + 1) addr n p (fun l hl => by
        rw [hrun] at hl
        injection hl with hl
        omega)]
      exact ⟨_, hrun⟩

/-! ### A deck that sends nothing -/

theorem undisturbed_mounted (env : Env) (henv : env.Obeys NoEject) :
    Undisturbed (yield env World.initial) :=
  Undisturbed.yield henv ⟨rfl, by decide⟩

theorem servingDeck_noEject : servingDeck.Obeys NoEject := by
  have hnone : ∀ (u : World) (e : Event), ejectCall e = none → NoEject u e :=
    fun u e he status hcall => by rw [he] at hcall; cases hcall
  intro w
  unfold servingDeck
  split
  · exact ⟨fun status hcall => by cases hcall; rfl, trivial⟩
  · split
    · exact ⟨hnone w _ rfl, trivial⟩
    · split
      · refine allowed_of_forall fun u e he => ?_
        rw [List.eq_of_mem_replicate he]
        exact hnone u _ rfl
      · trivial

/-- The first read of a mounted disc is served in its first pass. -/
theorem cdReadData_returns_first :
    ∃ fuel r, (cdReadData servingDeck fuel 144 1 0 (yield servingDeck World.initial)).1
      = some r :=
  (cdReadData_returns_iff servingDeck servingDeck_noEject 144 1 0
    (yield servingDeck World.initial) (undisturbed_mounted _ servingDeck_noEject)).mpr
    ⟨0, _, .first, fun hs => by
      have hstop : (checkBuffering servingDeck 1
          (yield servingDeck World.initial)).2.gCDBufStatus = .stop := by decide +kernel
      unfold Starves at hs
      rw [hstop] at hs
      have hsupply := hs.2.1 0 (by decide)
      revert hsupply
      decide +kernel⟩

/-- A deck that mounts a disc, acknowledges every seek and sends nothing. -/
def ackDeck : Env := fun w =>
  if w.datacdEnable = false then ⟨[.mount], false, true⟩
  else if w.waiting = true then ⟨[answerTo w.seeks 1], false, true⟩
  else .quiet

theorem ackDeck_noEject : ackDeck.Obeys NoEject := by
  intro w
  unfold ackDeck
  split
  · exact ⟨fun status hcall => by cases hcall; rfl, trivial⟩
  · split
    · exact ⟨fun status hcall => (nomatch hcall : False).elim, trivial⟩
    · trivial

/-- A disc is in, no seek is under way, and a full buffer is not reported. -/
structure Parched (w : World) : Prop where
  data : w.datacdEnable = true
  idle : w.waiting = false
  force : w.cdDevForceStop = 0
  error : w.gCDErrorStatus ≠ .bufFull
  shock : w.gCDErrorStatus ≠ .shock

theorem Parched.yield_eq (h : Parched w) : yield ackDeck w = w.tick := by
  have hquiet : ackDeck w = .quiet := by
    unfold ackDeck
    rw [if_neg (by rw [h.data]; decide), if_neg (by rw [h.idle]; decide)]
  unfold CdPlayer.yield
  rw [hquiet]
  rfl

theorem Parched.tick (h : Parched w) : Parched w.tick := { h with }

/-- Turns change nothing but the clock. -/
theorem Parched.turns (h : Parched w) (n : Nat) :
    Parched ((yield ackDeck)^[n] w) ∧
      ((yield ackDeck)^[n] w).sCDDIBuffer = w.sCDDIBuffer := by
  induction n with
  | zero => exact ⟨h, rfl⟩
  | succ n ih =>
    rw [Function.iterate_succ_apply', ih.1.yield_eq]
    exact ⟨ih.1.tick, ih.2⟩

/-- The ring is empty when the seek begins. -/
theorem Parched.enterStop (h : Parched w) : Parched (enterStop ackDeck w) ∧
    singleBufferDataAvailable (CdPlayer.enterStop ackDeck w).sCDDIBuffer = 0 := by
  have hnote : Parched (w.note (.enterStop w.cdifEnable)) := { h with }
  have hwrite : Parched (zeroWritePtr (w.note (.enterStop w.cdifEnable)).tick) :=
    { hnote with }
  unfold CdPlayer.enterStop zeroPointers
  simp only
  rw [hnote.yield_eq, hwrite.yield_eq]
  exact ⟨{ h with }, rfl⟩

/-- Messages leave the ring and its status alone. -/
theorem handle_msg_ring (w : World) (m : NlMsg) :
    (handle w (.msg m)).sCDDIBuffer = w.sCDDIBuffer ∧
      (handle w (.msg m)).gCDErrorStatus = w.gCDErrorStatus := by
  have hsame := sameRing_nlRecvMsg w m
  by_cases hS : m.nlmsgData 0 = charS
  · rw [handle, occur, if_pos hS]
    exact ⟨hsame.ring, hsame.error⟩
  · rw [handle, occur, if_neg hS]
    exact ⟨hsame.ring, hsame.error⟩

/-- The seek is acknowledged. -/
theorem Parched.cdSendMsf (h : Parched w) (msf : Nat) : (cdSendMsf ackDeck msf w).1 = 1 ∧
    Parched (CdPlayer.cdSendMsf ackDeck msf w).2 ∧
    (CdPlayer.cdSendMsf ackDeck msf w).2.sCDDIBuffer = w.sCDDIBuffer := by
  -- the answer comes in the first turn of the wait
  have hanswer : yield ackDeck (beginSeek msf w)
      = (handle (beginSeek msf w) (answerTo (w.seeks + 1) 1)).tick := by
    have hturn : ackDeck (beginSeek msf w) = ⟨[answerTo (w.seeks + 1) 1], false, true⟩ := by
      unfold ackDeck
      rw [if_neg (show ¬ (beginSeek msf w).datacdEnable = false by
        change ¬ w.datacdEnable = false; rw [h.data]; decide),
        if_pos (show (beginSeek msf w).waiting = true from rfl)]
      rfl
    unfold CdPlayer.yield
    rw [hturn]
    rfl
  obtain ⟨hring, herror⟩ : (handle (beginSeek msf w) (answerTo (w.seeks + 1) 1)).sCDDIBuffer
      = w.sCDDIBuffer ∧ (handle (beginSeek msf w) (answerTo (w.seeks + 1) 1)).gCDErrorStatus
      = w.gCDErrorStatus := handle_msg_ring (beginSeek msf w) _
  have hseek := handle_seekView_of_some (w := beginSeek msf w)
    (e := answerTo (w.seeks + 1) 1) (i := w.seeks + 1) (v := 1) rfl
  have heject : (handle (beginSeek msf w) (answerTo (w.seeks + 1) 1)).ejectView = w.ejectView :=
    handle_ejectView (beginSeek msf w) _
  generalize handle (beginSeek msf w) (answerTo (w.seeks + 1) 1) = v
    at hanswer hseek heject hring herror
  have hcount : 0 < v.tick.tccCompletion := by
    show 0 < v.seekView.tccCompletion
    rw [hseek]
    exact Nat.succ_pos _
  have hone : v.seekResponse 1 = 1 := by
    show v.seekView.response = 1
    rw [hseek]
    rfl
  have hparched : Parched { v with waiting := false } :=
    ⟨(congrArg EjectView.datacdEnable heject).trans h.data, rfl,
      (congrArg EjectView.forceStop heject).trans h.force,
      fun hfull => h.error (herror.symm.trans hfull),
      fun hshock => h.shock (herror.symm.trans hshock)⟩
  obtain ⟨u, hwait, hu, huring, huone⟩ : ∃ u, waitForCompletion ackDeck (beginSeek msf w) = (1, u) ∧
      Parched { u with waiting := false } ∧ u.sCDDIBuffer = w.sCDDIBuffer ∧
      u.seekResponse 1 = 1 := by
    unfold waitForCompletion
    rw [hanswer]
    exact ⟨_, if_pos hcount, { hparched with }, hring, hone⟩
  have hend : Parched (({ u with waiting := false } : World).note
      (.seekEnded 1 u.cdifEnable)) := { hu with }
  unfold CdPlayer.cdSendMsf
  rw [hwait]
  simp only
  rw [if_neg (by decide), hend.yield_eq, hend.tick.yield_eq]
  exact ⟨if_pos huone, { hu with }, huring⟩

theorem Parched.startStream (h : Parched w) (addr : Nat) :
    (startStream ackDeck addr w).1 = 1 ∧ Parched (CdPlayer.startStream ackDeck addr w).2 ∧
    singleBufferDataAvailable (CdPlayer.startStream ackDeck addr w).2.sCDDIBuffer = 0 := by
  obtain ⟨henter, hempty⟩ := h.enterStop
  obtain ⟨hone, hsent, hring⟩ := henter.cdSendMsf addr
  unfold CdPlayer.startStream
  generalize CdPlayer.cdSendMsf ackDeck addr (CdPlayer.enterStop ackDeck w) = r at hone hsent hring
  obtain ⟨ret, u⟩ := r
  obtain rfl : ret = 1 := hone
  have hstart : Parched (cdSetBufferStatus .start u) := { hsent with }
  simp only
  rw [if_neg (by decide)]
  unfold openStream
  rw [hstart.yield_eq]
  exact ⟨rfl, { hsent with }, (congrArg singleBufferDataAvailable hring).trans hempty⟩

/-- The wait is in vain. -/
theorem Parched.cdDoStopBuffering (h : Parched w) (addr : Nat) (hreq : 0 < req) :
    ∃ u, Parched u ∧ cdDoStopBuffering ackDeck addr req w = giveUp ackDeck u := by
  obtain ⟨hret, hopen, hempty⟩ := h.startStream addr
  have hno : NoSupply ackDeck req (CdPlayer.startStream ackDeck addr w).2 := by
    intro i _
    unfold measured
    rw [(hopen.turns _).2, hempty]
    exact hreq
  unfold CdPlayer.cdDoStopBuffering
  generalize CdPlayer.startStream ackDeck addr w = r at hret hopen hno ⊢
  obtain ⟨ret, u⟩ := r
  simp only at hret hopen hno ⊢
  rcases waitFor_undisturbed ackDeck_noEject req (w := u) ⟨hopen.force, hopen.shock⟩ with
    ⟨⟨m, v, -, hrun, hend⟩, -⟩ | ⟨-, hsome⟩
  · have hlast : Parched (yield ackDeck v) := by
      rw [hend]
      exact (hopen.turns _).1
    refine ⟨yield ackDeck v, hlast, ?_⟩
    rw [if_neg (by rw [hret]; decide), hrun]
    exact if_neg hlast.error
  · exact absurd hno hsome

/-- What each pass starts with. -/
def ParchedStop (w : World) : Prop := Parched w ∧ w.gCDBufStatus = .stop

/-- A pass jumps back, to the same again. -/
theorem ParchedStop.tryPass (h : ParchedStop w) (addr : Nat) (hreq : 0 < req) :
    (tryPass ackDeck addr req w).1 = bufferingTimeOut ∧
      ParchedStop (CdPlayer.tryPass ackDeck addr req w).2 := by
  obtain ⟨u, hlast, hdry⟩ := h.1.cdDoStopBuffering addr hreq
  have hmiss : Parched (cdSetErrorStatus .missSubq u.tick) :=
    { hlast with error := nofun, shock := nofun }
  have hstop : Parched (cdSetBufferStatus .stop (cdSetErrorStatus .missSubq u.tick)) :=
    { hmiss with }
  rw [tryPass_stop ackDeck addr req h.2, hdry]
  unfold giveUp
  simp only
  rw [hlast.yield_eq, hstop.yield_eq]
  exact ⟨trivial, { hmiss with }, rfl⟩

theorem parchedStop_first : ParchedStop
    (checkBuffering ackDeck 1 (yield ackDeck World.initial)).2 := by
  have h : Parched (yield ackDeck World.initial) :=
    ⟨rfl, rfl, rfl, show ¬ ErrorStatus.noProblem = .bufFull by decide,
      show ¬ ErrorStatus.noProblem = .shock by decide⟩
  have hcheck : (checkBuffering ackDeck 1 (yield ackDeck World.initial)).2
      = setCdifEnable false (yield ackDeck (yield ackDeck World.initial)) := rfl
  rw [hcheck, h.yield_eq]
  exact ⟨{ h with }, rfl⟩

/-- **A read from that deck never returns.** -/
theorem cdReadData_never_returns : ¬ ∃ fuel r,
    (cdReadData ackDeck fuel 144 1 0 (yield ackDeck World.initial)).1 = some r := by
  have hstop : ∀ k v, Pass ackDeck 144 (checkBuffering ackDeck 1 (yield ackDeck World.initial)).1
      (checkBuffering ackDeck 1 (yield ackDeck World.initial)).2 k v → ParchedStop v := by
    intro k v hpass
    induction hpass with
    | first => exact parchedStop_first
    | again _ _ ih => exact (ih.tryPass 144 (wantSampleSize_pos 1)).2
  rintro ⟨fuel, r, hsome⟩
  have hnone := tryRead_none fuel fun k v hpass =>
    ((hstop k v hpass).tryPass 144 (wantSampleSize_pos 1)).1
  have hread := cdReadData_of_fail ackDeck fuel 144 1 0 fun l hl => by rw [hnone] at hl; cases hl
  rw [hread, hnone] at hsome
  cases hsome

end CdPlayer
