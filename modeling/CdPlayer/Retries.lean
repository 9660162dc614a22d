/-
CdPlayer/Retries.lean

How often `CD_DescrambleSector` (cdif_drv.c) reads again.

Three counters limit the jumps back to `TRY_READ`: one for rounds without
a header, one for blocks that cannot be corrected, one for rounds that are
mis-positioned.  The last is reset for every sector delivered, and charged
only if `pickupseek` is on.  A round that starts with the status STOP turns
it on, and every jump back sets that status, so that one jump at most goes
uncharged.

`SearchEnds` says what a search does to the counters; each bound of
`bounded_rereads` is a potential that pays for the jumps it counts.
-/
import CdPlayer.TryRead

namespace CdPlayer

open Run

/-! ### The counters -/

/-- What decides whether the scan reads again. -/
structure Retries where
  kmp : Int
  c3 : Int
  frame : Int
  used : Nat
  pickup : Bool

def Scan.retries (s : Scan) : Retries :=
  ⟨s.kmpRetry, s.c3Retry, s.frameRetry, s.usedSectNum, s.world.pickupseek⟩

/-- What a search does to them. -/
inductive SearchEnds (n : Nat) (s s' : Scan) : Prop
  | passed (hlabel : s'.label = .searchLbn) (h : s'.retries = s.retries)
  | delivered (c : Int) (hlabel : s'.label = .searchLbn) (hn : s.usedSectNum + 1 < n)
      (hc : c ≤ s.c3Retry)
      (h : s'.retries = { s.retries with
        c3 := c, frame := cdRetryCnt, used := s.usedSectNum + 1 })
  /-- No header was found. -/
  | noHeader (hlabel : s'.label = .tryRead) (hstop : s'.world.gCDBufStatus = .stop)
      (hpos : 0 < s.kmpRetry - 1) (h : s'.retries = { s.retries with kmp := s.kmpRetry - 1 })
  /-- The block cannot be corrected. -/
  | uncorrected (hlabel : s'.label = .tryRead) (hstop : s'.world.gCDBufStatus = .stop)
      (hpos : 0 < s.c3Retry - 1) (h : s'.retries = { s.retries with c3 := s.c3Retry - 1 })
  /-- The round is mis-positioned. -/
  | charged (hlabel : s'.label = .tryRead) (hstop : s'.world.gCDBufStatus = .stop)
      (hpos : 0 < s.frameRetry) (hpickup : s.world.pickupseek = true)
      (h : s'.retries = { s.retries with frame := s.frameRetry - 1 })
  /-- So it is, but it was served from the ring. -/
  | uncharged (hlabel : s'.label = .tryRead) (hstop : s'.world.gCDBufStatus = .stop)
      (hpickup : s.world.pickupseek = false) (h : s'.retries = s.retries)
  | returned (res : Int) (hlabel : s'.label = .returned res)

variable {env : Env} {codec : Codec} {n startAddr fuel : Nat} {s s' t : Scan}

/-- Only the counters matter. -/
theorem SearchEnds.of_retries (h : SearchEnds n t s') (heq : t.retries = s.retries) :
    SearchEnds n s s' := by
  have hkmp : t.kmpRetry = s.kmpRetry := congrArg Retries.kmp heq
  have hc3 : t.c3Retry = s.c3Retry := congrArg Retries.c3 heq
  have hframe : t.frameRetry = s.frameRetry := congrArg Retries.frame heq
  have hused : t.usedSectNum = s.usedSectNum := congrArg Retries.used heq
  have hpickup : t.world.pickupseek = s.world.pickupseek := congrArg Retries.pickup heq
  cases h with
  | passed hlabel h => exact .passed hlabel (h.trans heq)
  | delivered c hlabel hn hc h =>
    exact .delivered c hlabel (hused ▸ hn) (hc3 ▸ hc) (by rw [h, heq, hused])
  | noHeader hlabel hstop hpos h =>
    exact .noHeader hlabel hstop (hkmp ▸ hpos) (by rw [h, heq, hkmp])
  | uncorrected hlabel hstop hpos h =>
    exact .uncorrected hlabel hstop (hc3 ▸ hpos) (by rw [h, heq, hc3])
  | charged hlabel hstop hpos hp h =>
    exact .charged hlabel hstop (hframe ▸ hpos) (hpickup ▸ hp) (by rw [h, heq, hframe])
  | uncharged hlabel hstop hp h => exact .uncharged hlabel hstop (hpickup ▸ hp) (h.trans heq)
  | returned res hlabel => exact .returned res hlabel

@[simp] theorem retries_yield (s : Scan) : (s.onWorld (yield env)).retries = s.retries := by
  unfold Scan.retries
  rw [show (s.onWorld (yield env)).world.pickupseek = s.world.pickupseek from
    yield_pickupseek env s.world]
  rfl

@[simp] theorem retries_move (m : Int) (s : Scan) : (s.move env m).retries = s.retries :=
  retries_yield s

/-! ### What a header leads to -/

theorem searchEnds_retryFrame (secdiff : Int) (hpos : 0 < s.frameRetry) :
    SearchEnds n s (s.retryFrame secdiff) := by
  have hdiff : ∀ (v : Int) (w : World), (cdSetDiffValue v w).pickupseek = w.pickupseek := by
    intro v w
    unfold cdSetDiffValue
    split_ifs <;> rfl
  unfold Scan.retryFrame
  by_cases hpickup : s.world.pickupseek = true
  · simp only [if_pos hpickup]
    refine .charged rfl rfl hpos hpickup ?_
    exact congrArg (Retries.mk s.kmpRetry s.c3Retry (s.frameRetry - 1) s.usedSectNum)
      (hdiff secdiff s.world)
  · simp only [if_neg hpickup]
    exact .uncharged rfl rfl (Bool.eq_false_iff.mpr hpickup) rfl

theorem searchEnds_move (m : Int) : SearchEnds n s ((s.move env m).goto .searchLbn) :=
  .passed rfl (retries_move m s)

/-- A header that is not the one wanted. -/
theorem Unwanted.searchEnds {t : Scan} (h : Unwanted env s t) : SearchEnds n s t := by
  have hturned : ∀ {u : Scan}, Turned env s u → u.retries = s.retries := by
    rintro u (rfl | rfl)
    · rfl
    · exact retries_yield s
  cases h with
  | gaveUp res => exact .returned res rfl
  | again u hu hretry secdiff =>
    have hframe : u.frameRetry = s.frameRetry := congrArg Retries.frame (hturned hu)
    exact (searchEnds_retryFrame secdiff (by omega)).of_retries (hturned hu)
  | passed u hu k => exact (searchEnds_move k).of_retries (hturned hu)

theorem retries_accept (raw : Nat → Cell) (lmode : UInt8) (s : Scan) :
    (s.accept env startAddr raw lmode).retries
      = { s.retries with frame := cdRetryCnt, used := s.usedSectNum + 1 } :=
  congrArg (Retries.mk s.kmpRetry s.c3Retry cdRetryCnt (s.usedSectNum + 1))
    (yield_pickupseek env _)

/-- Correcting costs a retry, or nothing. -/
theorem retries_correct (codec : Codec) (s : Scan) :
    (s.correct codec).1 < cdTrue ∧
        (s.correct codec).2.retries = { s.retries with c3 := s.c3Retry - 1 } ∧
        (s.correct codec).2.world.gCDBufStatus = .stop ∨
      ¬ (s.correct codec).1 < cdTrue ∧ (s.correct codec).2.retries = s.retries := by
  unfold Scan.correct
  rcases codec.c3Decoder (blockAt s.world.cdChunkBuf s.psCDBuff) cdC3Cnt with ⟨res, blk⟩
  simp only
  split
  next hres => exact .inl ⟨hres, rfl, rfl⟩
  next hres => exact .inr ⟨hres, rfl⟩

theorem searchEnds_deliverStep (raw : Nat → Cell) (lmode : UInt8) :
    SearchEnds n s (deliverStep env codec startAddr n raw lmode s) := by
  have hcorrect := retries_correct codec s
  have hways := deliverStep_ways env codec startAddr n raw lmode s
  generalize s.correct codec = r at hcorrect hways
  obtain ⟨res, c⟩ := r
  simp only at hcorrect hways
  rcases hways with ⟨hretry, hstep⟩ | ⟨-, hstep⟩
  · rw [hstep]
    rcases hcorrect with ⟨-, hc, hstop⟩ | ⟨hres, -⟩
    · have hc3 : c.c3Retry = s.c3Retry - 1 := congrArg Retries.c3 hc
      exact .uncorrected rfl hstop (by omega) hc
    · exact absurd hretry.1 hres
  · -- a block that is not corrected at the last try is delivered as it is
    have hle : c.c3Retry ≤ s.c3Retry ∧ c.usedSectNum = s.usedSectNum ∧
        c.retries = { s.retries with c3 := c.c3Retry } := by
      rcases hcorrect with ⟨-, hc, -⟩ | ⟨-, hc⟩
      · have hc3 : c.c3Retry = s.c3Retry - 1 := congrArg Retries.c3 hc
        exact ⟨by omega, congrArg Retries.used hc, by rw [hc, hc3]⟩
      · have hc3 : c.c3Retry = s.c3Retry := congrArg Retries.c3 hc
        exact ⟨by omega, congrArg Retries.used hc, by rw [hc, hc3]; rfl⟩
    have haccept : (c.accept env startAddr raw lmode).retries
        = { c.retries with frame := cdRetryCnt, used := c.usedSectNum + 1 } :=
      retries_accept raw lmode c
    rw [hle.2.2, hle.2.1] at haccept
    rw [hstep]
    split
    next hmore => exact .delivered c.c3Retry rfl (by omega) hle.1 haccept
    next => exact .returned _ rfl

theorem searchEnds_headerStep :
    SearchEnds n s (headerStep env codec startAddr n s) := by
  have hdesc : (s.descramble codec).retries = s.retries := rfl
  refine SearchEnds.of_retries (t := s.descramble codec) ?_ hdesc
  rcases headerStep_ways env codec startAddr n s with ⟨-, hstep⟩ | hother
  · rw [hstep]
    exact searchEnds_deliverStep _ _
  · exact hother.searchEnds

/-- **What a search does to the counters.** -/
theorem searchEnds_searchLbnStep (env : Env) (codec : Codec) (startAddr n : Nat) (s : Scan) :
    SearchEnds n s (searchLbnStep env codec startAddr n s) := by
  have hsearched : (s.searched env).retries = s.retries := retries_yield s
  have hheader : (s.atHeader env).retries = s.retries :=
    (retries_yield _).trans ((retries_move _ (s.searched env)).trans hsearched)
  have hways := searchLbnStep_ways env codec startAddr n s
  generalize searchLbnStep env codec startAddr n s = t at hways ⊢
  cases hways with
  | missed => exact .passed rfl ((retries_move _ (s.searched env)).trans hsearched)
  | lost hres hcnt l hl =>
    rcases hl with ⟨rfl, hpos⟩ | rfl
    · refine SearchEnds.of_retries (t := s.searched env) ?_ hsearched
      exact .noHeader rfl rfl hpos rfl
    · exact .returned _ rfl
  | forced => exact .returned _ rfl
  | header => exact searchEnds_headerStep.of_retries hheader

/-! ### What a read does to them -/

theorem giveUp_pickup (env : Env) (w : World) :
    (giveUp env w).2.pickupseek = w.pickupseek := by
  show (yield env (cdSetBufferStatus .stop (cdSetErrorStatus .missSubq (yield env w)))).pickupseek
    = _
  rw [yield_pickupseek]
  exact yield_pickupseek env w

theorem startStream_pickup (env : Env) (addr : Nat) (w : World) :
    (startStream env addr w).2.pickupseek = true := by
  have hsent : (cdSendMsf env addr (enterStop env w)).2.pickupseek = true :=
    (cdSendMsf_frame env addr (enterStop env w)).pickupseek
  unfold startStream
  generalize cdSendMsf env addr (enterStop env w) = r at hsent ⊢
  obtain ⟨ret, u⟩ := r
  simp only at hsent ⊢
  split
  · exact hsent
  · show (yield env (cdSetBufferStatus .start u)).pickupseek = true
    rw [yield_pickupseek]
    exact hsent

/-- `CD_Do_StopBuffering` turns `pickupseek` on. -/
theorem cdDoStopBuffering_pickup (env : Env) {req : Nat} (hreq : req < 262144) (addr : Nat)
    (w : World) : (cdDoStopBuffering env addr req w).2.pickupseek = true := by
  have hopen := startStream_pickup env addr w
  have hturn : ∀ u : World, u.pickupseek = true → (yield env u).pickupseek = true :=
    fun u hu => (yield_pickupseek env u).trans hu
  have hwait := waitFor_inv hturn req hopen
  rcases cdDoStopBuffering_cases env hreq addr w with
    ⟨hr, -⟩ | ⟨-, ⟨hr, -⟩ | ⟨hr, -⟩ | ⟨hr, -⟩ | ⟨m, -, hr, -⟩ | ⟨hr, -⟩⟩
  · rw [hr]
    exact hopen
  · rw [hr]
    exact hturn _ hwait
  · rw [hr]
    exact hwait
  · rw [hr]
    exact hwait
  · rw [hr]
    exact hturn _ hwait
  · rw [hr]
    exact (giveUp_pickup env _).trans (hturn _ hwait)

theorem tryRead_pickup (env : Env) {addr req : Nat} (hreq : req < 262144) (fuel : Nat) {w : World}
    (hstop : w.gCDBufStatus = .stop) {r : Int} (h : (tryRead env addr req fuel w).1 = some r) :
    (tryRead env addr req fuel w).2.pickupseek = true := by
  obtain ⟨k, v, hpass, hlast, -⟩ := tryRead_last h
  have hv : v.gCDBufStatus = .stop :=
    hpass.inv (P := fun u => u.gCDBufStatus = .stop)
      (fun _ _ htime => (tryPass_timeOut_stop hreq htime).1) hstop
  have hpickup := cdDoStopBuffering_pickup env hreq addr v
  rw [← tryPass_stop env addr req hv, hlast] at hpickup
  exact hpickup

/-- **A read that starts with the status STOP and succeeds turns `pickupseek`
on.** -/
theorem cdReadData_pickup (env : Env) (fuel addr n : Nat) (p : Int) {w : World}
    (hstop : w.gCDBufStatus = .stop) {v : Int} (hv : (cdReadData env fuel addr n p w).1 = some v)
    (hpos : 0 < v) : (cdReadData env fuel addr n p w).2.pickupseek = true := by
  have hreq := checkBuffering_lt env n w
  have hcheck : (checkBuffering env n w).2.gCDBufStatus = .stop := by
    unfold checkBuffering
    rw [hstop]
    exact (yield_gCDBufStatus env w).trans hstop
  obtain ⟨r, htry, -, hrun⟩ := cdReadData_buffered env fuel addr n p hv hpos
  have hpickup := tryRead_pickup env hreq fuel hcheck htry
  obtain ⟨chunk, offset, hcopy⟩ := cdCopyReadData_same p (2 * wantSampleSize n)
    (checkBuffering env n w).1 (copyState env n (tryRead env addr (checkBuffering env n w).1
      fuel (checkBuffering env n w).2).2)
  rw [hrun, hcopy]
  exact (yield_pickupseek env _).trans hpickup

/-- What a round's read leaves: the counters, and `pickupseek` on if the status
was STOP. -/
theorem tryReadStep_retries (env : Env) (fuel startAddr n : Nat) (s : Scan) :
    (∃ res, (tryReadStep env fuel startAddr n s).label = .returned res) ∨
    (tryReadStep env fuel startAddr n s).label = .hung ∨
    (tryReadStep env fuel startAddr n s).label = .searchLbn ∧
      (∃ pickup, (tryReadStep env fuel startAddr n s).retries
        = { s.retries with pickup := pickup }) ∧
      (s.world.gCDBufStatus = .stop →
        (tryReadStep env fuel startAddr n s).world.pickupseek = true) := by
  have hpickup := fun hstop v => cdReadData_pickup (v := v) env fuel
    (u32 ((startAddr + s.usedSectNum : Nat) + cdGetDiffValue)) (u32 ((n : Int) - s.usedSectNum))
    s.pdCDBuff (w := s.world) hstop
  unfold tryReadStep
  simp only
  generalize cdReadData env fuel _ _ _ s.world = r at hpickup ⊢
  obtain ⟨- | res, u⟩ := r
  · exact .inr (.inl rfl)
  · simp only
    split
    · exact .inl ⟨_, rfl⟩
    next hpos =>
      exact .inr (.inr ⟨rfl, ⟨_, rfl⟩, fun hstop => hpickup hstop res rfl (by omega)⟩)

/-! ### The bill -/

/-- The jumps back, by their cause. -/
inductive Cause
  | noHeader
  | uncorrected
  | charged
  | uncharged
  deriving DecidableEq

def Label.isTryRead : Label → Bool
  | .tryRead => true
  | _ => false

/-- Is the jump from `s` to `s'` one back to `TRY_READ`, and why?  Each cause
but the last is charged to its own counter. -/
def cause (s s' : Scan) : Option Cause :=
  if s'.label.isTryRead ∧ ¬ s.label.isTryRead then some
    (if s'.kmpRetry < s.kmpRetry then .noHeader
    else if s'.c3Retry < s.c3Retry then .uncorrected
    else if s'.frameRetry < s.frameRetry then .charged
    else .uncharged)
  else none

/-- The counters of a call that goes on.  What `pickupseek` will be after the
read, the status tells. -/
def Scan.account (s : Scan) : Option Retries :=
  match s.label with
  | .tryRead => some { s.retries with pickup := decide (s.world.gCDBufStatus = .stop) }
  | .searchLbn => some s.retries
  | _ => none

/-- What each jump is billed. -/
inductive Billed (n : Nat) (r : Retries) : Option Cause → Option Retries → Prop
  | passed : Billed n r none (some r)
  | delivered (c : Int) (hn : r.used + 1 < n) (hc : c ≤ r.c3) :
      Billed n r none (some { r with c3 := c, frame := cdRetryCnt, used := r.used + 1 })
  | noHeader (hpos : 0 < r.kmp - 1) :
      Billed n r (some .noHeader) (some { r with kmp := r.kmp - 1, pickup := true })
  | uncorrected (hpos : 0 < r.c3 - 1) :
      Billed n r (some .uncorrected) (some { r with c3 := r.c3 - 1, pickup := true })
  | charged (hpos : 0 < r.frame) (hpickup : r.pickup = true) :
      Billed n r (some .charged) (some { r with frame := r.frame - 1, pickup := true })
  | uncharged (hpickup : r.pickup = false) :
      Billed n r (some .uncharged) (some { r with pickup := true })
  | returned : Billed n r none none

theorem account_tryRead (hlabel : s'.label = .tryRead) (hstop : s'.world.gCDBufStatus = .stop) :
    s'.account = some { s'.retries with pickup := true } := by
  unfold Scan.account
  rw [hlabel]
  simp only
  rw [hstop]
  rfl

theorem account_searchLbn (hlabel : s'.label = .searchLbn) : s'.account = some s'.retries := by
  unfold Scan.account
  rw [hlabel]

theorem cause_none (hlabel : s'.label.isTryRead = false) : cause s s' = none := by
  unfold cause
  rw [if_neg fun h => absurd h.1 (by rw [hlabel]; decide)]

theorem cause_some (hs : s.label = .searchLbn) (hlabel : s'.label = .tryRead) :
    cause s s' = some (if s'.kmpRetry < s.kmpRetry then .noHeader
      else if s'.c3Retry < s.c3Retry then .uncorrected
      else if s'.frameRetry < s.frameRetry then .charged
      else .uncharged) := by
  unfold cause
  rw [if_pos ⟨by rw [hlabel]; rfl, by rw [hs]; decide⟩]

/-- **Every search is billed for its jump.** -/
theorem SearchEnds.billed (h : SearchEnds n s s') (hs : s.label = .searchLbn) :
    Billed n s.retries (cause s s') s'.account := by
  cases h with
  | passed hlabel h =>
    rw [cause_none (by rw [hlabel]; rfl), account_searchLbn hlabel, h]
    exact .passed
  | delivered c hlabel hn hc h =>
    rw [cause_none (by rw [hlabel]; rfl), account_searchLbn hlabel, h]
    exact .delivered c hn hc
  -- the cause is told by the counter that has gone down
  | noHeader hlabel hstop hpos h =>
    have hkmp : s'.kmpRetry = s.kmpRetry - 1 := congrArg Retries.kmp h
    rw [cause_some hs hlabel, if_pos (by omega), account_tryRead hlabel hstop, h]
    exact .noHeader hpos
  | uncorrected hlabel hstop hpos h =>
    have hkmp : s'.kmpRetry = s.kmpRetry := congrArg Retries.kmp h
    have hc3 : s'.c3Retry = s.c3Retry - 1 := congrArg Retries.c3 h
    rw [cause_some hs hlabel, if_neg (by omega), if_pos (by omega),
      account_tryRead hlabel hstop, h]
    exact .uncorrected hpos
  | charged hlabel hstop hpos hpickup h =>
    have hkmp : s'.kmpRetry = s.kmpRetry := congrArg Retries.kmp h
    have hc3 : s'.c3Retry = s.c3Retry := congrArg Retries.c3 h
    have hframe : s'.frameRetry = s.frameRetry - 1 := congrArg Retries.frame h
    rw [cause_some hs hlabel, if_neg (by omega), if_neg (by omega), if_pos (by omega),
      account_tryRead hlabel hstop, h]
    exact .charged hpos hpickup
  | uncharged hlabel hstop hpickup h =>
    have hkmp : s'.kmpRetry = s.kmpRetry := congrArg Retries.kmp h
    have hc3 : s'.c3Retry = s.c3Retry := congrArg Retries.c3 h
    have hframe : s'.frameRetry = s.frameRetry := congrArg Retries.frame h
    rw [cause_some hs hlabel, if_neg (by omega), if_neg (by omega), if_neg (by omega),
      account_tryRead hlabel hstop, h]
    exact .uncharged hpickup
  | returned res hlabel =>
    rw [cause_none (by rw [hlabel]; rfl)]
    unfold Scan.account
    rw [hlabel]
    exact .returned

/-! ### The bounds -/

/-- What a fund holds for the rest of the call. -/
def Scan.fund (f : Retries → Nat) (s : Scan) : Nat := s.account.elim 0 f

/-- A fund out of which the jumps that `q` selects can be paid. -/
structure Covers (n : Nat) (f : Retries → Nat) (q : Retries → Option Cause → Bool) : Prop where
  bill : ∀ r c r', Billed n r c r' → r'.elim 0 f + (if q r c then 1 else 0) ≤ f r
  free : ∀ r, q r none = false
  pickup : ∀ (r : Retries) (b : Bool), f { r with pickup := true } ≤ f { r with pickup := b }

/-- The jumps that `q` selects are at most what the fund holds. -/
theorem Covers.countSteps {f : Retries → Nat} {q : Retries → Option Cause → Bool}
    (h : Covers n f q) (k : Nat) (s : Scan) :
    countSteps (scanStep env codec fuel startAddr n) (fun s s' => q s.retries (cause s s')) k s
      ≤ s.fund f := by
  refine countSteps_le (fun s => ?_) k s
  have hquiet : ∀ s' : Scan, s'.label.isTryRead = false →
      (if q s.retries (cause s s') then 1 else 0) = 0 := by
    intro s' hlabel
    rw [cause_none hlabel, h.free]
    rfl
  unfold scanStep
  rcases hlabel : s.label with - | - | res | -
  · -- a read
    simp only
    have hfund : s.fund f
        = f { s.retries with pickup := decide (s.world.gCDBufStatus = .stop) } := by
      unfold Scan.fund Scan.account
      rw [hlabel]
      rfl
    rcases tryReadStep_retries env fuel startAddr n s with
      ⟨res, hres⟩ | hhung | ⟨hsearch, ⟨b, hretries⟩, hpickup⟩
    · -- it returns
      rw [hquiet _ (by rw [hres]; rfl)]
      unfold Scan.fund Scan.account
      rw [hres]
      exact Nat.zero_le _
    · -- it never comes back
      rw [hquiet _ (by rw [hhung]; rfl)]
      unfold Scan.fund Scan.account
      rw [hhung]
      exact Nat.zero_le _
    · -- a read that starts in STOP leaves `pickupseek` on
      rw [hquiet _ (by rw [hsearch]; rfl), hfund]
      unfold Scan.fund
      rw [account_searchLbn hsearch, hretries]
      show f { s.retries with pickup := b } ≤ _
      by_cases hstop : s.world.gCDBufStatus = .stop
      · have hb : b = true := (congrArg Retries.pickup hretries).symm.trans (hpickup hstop)
        rw [hb]
        exact h.pickup s.retries _
      · rw [decide_eq_false hstop]
        cases b
        · exact le_rfl
        · exact h.pickup s.retries _
  · -- a search
    simp only
    have hbill := h.bill _ _ _ ((searchEnds_searchLbnStep env codec startAddr n s).billed hlabel)
    have hfund : s.fund f = f s.retries := by
      unfold Scan.fund
      rw [account_searchLbn hlabel]
      rfl
    rw [hfund]
    exact hbill
  · simp only
    rw [hquiet s (by rw [hlabel]; rfl)]
    exact le_rfl
  · simp only
    rw [hquiet s (by rw [hlabel]; rfl)]
    exact le_rfl

/-- A jump that is not counted, on a fund that does not grow. -/
theorem bill_free {a b : Nat} {q : Bool} (hq : q = false) (h : a ≤ b) :
    a + (if q then 1 else 0) ≤ b := by
  rw [hq]
  exact h

/-- A fund that pays for the jump. -/
theorem bill_paid {a b : Nat} {q : Bool} (h : a + 1 ≤ b) : a + (if q then 1 else 0) ≤ b := by
  split
  · exact h
  · exact Nat.le_of_succ_le h

/-- One unit pays for the round without a header. -/
theorem covers_noHeader : Covers n (fun r => (r.kmp - 1).toNat)
    (fun _ c => decide (c = some .noHeader)) where
  bill := by
    intro r c r' h
    cases h with
    | passed => exact bill_free rfl le_rfl
    | delivered c hn hc => exact bill_free rfl le_rfl
    | noHeader hpos =>
      apply bill_paid
      show (r.kmp - 1 - 1).toNat + 1 ≤ (r.kmp - 1).toNat
      omega
    | uncorrected hpos => exact bill_free rfl le_rfl
    | charged hpos hpickup => exact bill_free rfl le_rfl
    | uncharged hpickup => exact bill_free rfl le_rfl
    | returned => exact bill_free rfl (Nat.zero_le _)
  free := fun _ => rfl
  pickup := fun _ _ => le_rfl

/-- One for the block that cannot be corrected. -/
theorem covers_uncorrected : Covers n (fun r => (r.c3 - 1).toNat)
    (fun _ c => decide (c = some .uncorrected)) where
  bill := by
    intro r c r' h
    cases h with
    | passed => exact bill_free rfl le_rfl
    | delivered c hn hc =>
      apply bill_free rfl
      show (c - 1).toNat ≤ (r.c3 - 1).toNat
      omega
    | noHeader hpos => exact bill_free rfl le_rfl
    | uncorrected hpos =>
      apply bill_paid
      show (r.c3 - 1 - 1).toNat + 1 ≤ (r.c3 - 1).toNat
      omega
    | charged hpos hpickup => exact bill_free rfl le_rfl
    | uncharged hpickup => exact bill_free rfl le_rfl
    | returned => exact bill_free rfl (Nat.zero_le _)
  free := fun _ => rfl
  pickup := fun _ _ => le_rfl

/-- One for the round that is served from the ring. -/
theorem covers_uncharged : Covers n (fun r => if r.pickup then 0 else 1)
    (fun _ c => decide (c = some .uncharged)) where
  bill := by
    intro r c r' h
    cases h with
    | passed => exact bill_free rfl le_rfl
    | delivered c hn hc => exact bill_free rfl le_rfl
    | noHeader hpos => exact bill_free rfl (Nat.zero_le _)
    | uncorrected hpos => exact bill_free rfl (Nat.zero_le _)
    | charged hpos hpickup => exact bill_free rfl (Nat.zero_le _)
    | uncharged hpickup =>
      apply bill_paid
      show 0 + 1 ≤ if r.pickup then 0 else 1
      rw [hpickup]
      exact le_rfl
    | returned => exact bill_free rfl (Nat.zero_le _)
  free := fun _ => rfl
  pickup := fun _ _ => Nat.zero_le _

/-- What is left for sector `i`. -/
def Retries.forSector (i : Nat) (r : Retries) : Nat :=
  if r.used < i then 3 else if r.used = i then r.frame.toNat else 0

/-- Three for each sector of the request. -/
theorem covers_charged (i : Nat) : Covers n (Retries.forSector i)
    (fun r c => decide (c = some .charged) && decide (r.used = i)) where
  bill := by
    intro r c r' h
    cases h with
    | passed => exact bill_free rfl le_rfl
    | delivered c hn hc =>
      apply bill_free rfl
      -- the next sector gets three, as any sector ahead
      show (if r.used + 1 < i then 3 else if r.used + 1 = i then 3 else 0)
        ≤ if r.used < i then 3 else if r.used = i then r.frame.toNat else 0
      split_ifs <;> omega
    | noHeader hpos => exact bill_free rfl le_rfl
    | uncorrected hpos => exact bill_free rfl le_rfl
    | charged hpos hpickup =>
      by_cases hi : r.used = i
      · apply bill_paid
        show (if r.used < i then 3 else if r.used = i then (r.frame - 1).toNat else 0) + 1
          ≤ if r.used < i then 3 else if r.used = i then r.frame.toNat else 0
        rw [if_neg (by omega), if_pos hi, if_neg (by omega), if_pos hi]
        omega
      · apply bill_free (by rw [decide_eq_false hi, Bool.and_false])
        show (if r.used < i then 3 else if r.used = i then (r.frame - 1).toNat else 0)
          ≤ if r.used < i then 3 else if r.used = i then r.frame.toNat else 0
        rw [if_neg hi, if_neg hi]
    | uncharged hpickup => exact bill_free rfl le_rfl
    | returned => exact bill_free rfl (Nat.zero_le _)
  free := fun _ => rfl
  pickup := fun _ _ => le_rfl

/-- All of them together. -/
def Retries.total (n : Nat) (r : Retries) : Nat :=
  (r.kmp - 1).toNat + (r.c3 - 1).toNat + (if r.pickup then 0 else 1)
    + (r.frame.toNat + 3 * (n - 1 - r.used))

theorem covers_all : Covers n (Retries.total n) (fun _ c => c.isSome) where
  bill := by
    intro r c r' h
    cases h with
    -- what is not a jump back costs nothing, and a sector delivered renews three
    | passed => exact bill_free rfl le_rfl
    | delivered c hn hc =>
      apply bill_free rfl
      show (r.kmp - 1).toNat + (c - 1).toNat + (if r.pickup then 0 else 1)
        + (3 + 3 * (n - 1 - (r.used + 1))) ≤ r.total n
      unfold Retries.total
      omega
    -- a jump back pays one from its own counter
    | noHeader hpos =>
      apply bill_paid
      show (r.kmp - 1 - 1).toNat + (r.c3 - 1).toNat + 0
        + (r.frame.toNat + 3 * (n - 1 - r.used)) + 1 ≤ r.total n
      unfold Retries.total
      omega
    | uncorrected hpos =>
      apply bill_paid
      show (r.kmp - 1).toNat + (r.c3 - 1 - 1).toNat + 0
        + (r.frame.toNat + 3 * (n - 1 - r.used)) + 1 ≤ r.total n
      unfold Retries.total
      omega
    | charged hpos hpickup =>
      apply bill_paid
      show (r.kmp - 1).toNat + (r.c3 - 1).toNat + 0
        + ((r.frame - 1).toNat + 3 * (n - 1 - r.used)) + 1 ≤ r.total n
      unfold Retries.total
      omega
    -- this one counts nothing down, but it sets `pickupseek`
    | uncharged hpickup =>
      apply bill_paid
      show (r.kmp - 1).toNat + (r.c3 - 1).toNat + 0
        + (r.frame.toNat + 3 * (n - 1 - r.used)) + 1 ≤ r.total n
      unfold Retries.total
      have hone : (if r.pickup then 0 else 1) = 1 := by rw [hpickup]; rfl
      omega
    | returned => exact bill_free rfl (Nat.zero_le _)
  free := fun _ => rfl
  -- once set, `pickupseek` is worth nothing
  pickup := by
    intro r b
    show (r.kmp - 1).toNat + (r.c3 - 1).toNat + 0 + (r.frame.toNat + 3 * (n - 1 - r.used))
      ≤ (r.kmp - 1).toNat + (r.c3 - 1).toNat + (if b then 0 else 1)
        + (r.frame.toNat + 3 * (n - 1 - r.used))
    omega

/-- Every read but the first follows a jump back. -/
theorem reads_le_jumps (env : Env) (codec : Codec) (fuel startAddr n k : Nat) (s : Scan) :
    countSteps (scanStep env codec fuel startAddr n) (fun s _ => s.label.isTryRead) k s
      ≤ countSteps (scanStep env codec fuel startAddr n) (fun s s' => (cause s s').isSome) k s
        + if s.label.isTryRead then 1 else 0 := by
  induction k generalizing s with
  | zero => exact Nat.zero_le _
  | succ k ih =>
    have hrest := ih (scanStep env codec fuel startAddr n s)
    -- a read does not lead to a read, so the jump that leads to one has a cause
    have hjump : (scanStep env codec fuel startAddr n s).label.isTryRead = true →
        (cause s (scanStep env codec fuel startAddr n s)).isSome = true := by
      intro hto
      have hfrom : ¬ s.label.isTryRead = true := by
        intro hfrom
        have hread : scanStep env codec fuel startAddr n s
            = tryReadStep env fuel startAddr n s := by
          apply scanStep_tryRead
          rcases hlabel : s.label with - | - | res | - <;> rw [hlabel] at hfrom <;>
            first | rfl | exact absurd hfrom Bool.false_ne_true
        rw [hread] at hto
        rcases tryReadStep_retries env fuel startAddr n s with ⟨res, hl⟩ | hl | ⟨hl, -⟩ <;>
          rw [hl] at hto <;> exact absurd hto Bool.false_ne_true
      unfold cause
      rw [if_pos ⟨hto, hfrom⟩]
      rfl
    simp only [Run.countSteps]
    by_cases hto : (scanStep env codec fuel startAddr n s).label.isTryRead = true
    · rw [if_pos (hjump hto)]
      rw [if_pos hto] at hrest
      omega
    · rw [if_neg hto] at hrest
      omega

section
variable (env : Env) (codec : Codec) (fuel startAddr n : Nat) (w : World)

/-- How often a call that starts in state `w` has called `CD_ReadData` after
`k` jumps. -/
def readCalls (k : Nat) : Nat :=
  countSteps (scanStep env codec fuel startAddr n) (fun s _ => s.label.isTryRead) k
    (enterScan env startAddr w)

/-- How often it has jumped back for this cause. -/
def retriesFor (c : Cause) (k : Nat) : Nat :=
  countSteps (scanStep env codec fuel startAddr n) (fun s s' => decide (cause s s' = some c)) k
    (enterScan env startAddr w)

/-- How often it has jumped back, and paid, for sector `i` of the request. -/
def chargedFor (i k : Nat) : Nat :=
  countSteps (scanStep env codec fuel startAddr n)
    (fun s s' => decide (cause s s' = some .charged) && decide (s.usedSectNum = i)) k
    (enterScan env startAddr w)

end

/-- What a fund holds when a call begins. -/
theorem fund_enterScan (env : Env) (startAddr : Nat) (w : World) (f : Retries → Nat) :
    ∃ pickup, (enterScan env startAddr w).fund f
      ≤ f ⟨cdKmpRetryCnt, cdC3Cnt, cdRetryCnt, 0, pickup⟩ := by
  unfold enterScan
  simp only
  split
  · exact ⟨true, Nat.zero_le _⟩
  · exact ⟨_, le_rfl⟩

/-- **Re-reads are bounded.**  Whatever the deck delivers and the decoder makes
of it, a call for `n` sectors calls `CD_ReadData` at most `3 n + 4` times: it
jumps back at most once for want of a header, once for a block that cannot be
corrected, once uncharged, and three times for each sector. -/
theorem bounded_rereads (env : Env) (codec : Codec) (fuel startAddr n : Nat) (hn : 1 ≤ n)
    (w : World) (k : Nat) :
    readCalls env codec fuel startAddr n w k ≤ 3 * n + 4 ∧
    retriesFor env codec fuel startAddr n w .noHeader k ≤ 1 ∧
    retriesFor env codec fuel startAddr n w .uncorrected k ≤ 1 ∧
    retriesFor env codec fuel startAddr n w .uncharged k ≤ 1 ∧
    ∀ i, chargedFor env codec fuel startAddr n w i k ≤ 3 := by
  refine ⟨?_, ?_, ?_, ?_, fun i => ?_⟩
  · obtain ⟨pickup, hfund⟩ := fund_enterScan env startAddr w (Retries.total n)
    -- all causes together
    have hjumps : countSteps (scanStep env codec fuel startAddr n)
        (fun s s' => (cause s s').isSome) k (enterScan env startAddr w)
        ≤ (enterScan env startAddr w).fund (Retries.total n) := covers_all.countSteps k _
    have hstart : Retries.total n ⟨cdKmpRetryCnt, cdC3Cnt, cdRetryCnt, 0, pickup⟩ ≤ 3 * n + 3 := by
      simp only [Retries.total, cdKmpRetryCnt, cdC3Cnt, cdRetryCnt]
      split <;> omega
    have hone : (if (enterScan env startAddr w).label.isTryRead then 1 else 0) ≤ 1 := by
      split <;> decide
    calc readCalls env codec fuel startAddr n w k
        ≤ _ := reads_le_jumps env codec fuel startAddr n k (enterScan env startAddr w)
      _ ≤ (3 * n + 3) + 1 := Nat.add_le_add (hjumps.trans (hfund.trans hstart)) hone
  · obtain ⟨pickup, hfund⟩ := fund_enterScan env startAddr w _
    exact (covers_noHeader.countSteps k _).trans hfund
  · obtain ⟨pickup, hfund⟩ := fund_enterScan env startAddr w _
    exact (covers_uncorrected.countSteps k _).trans hfund
  · obtain ⟨pickup, hfund⟩ := fund_enterScan env startAddr w (fun r => if r.pickup then 0 else 1)
    refine (covers_uncharged.countSteps k _).trans (hfund.trans ?_)
    simp only
    split <;> decide
  · obtain ⟨pickup, hfund⟩ := fund_enterScan env startAddr w _
    refine ((covers_charged i).countSteps k _).trans (hfund.trans ?_)
    unfold Retries.forSector
    split
    · exact le_rfl
    · split
      · exact le_rfl
      · exact Nat.zero_le _

/-- A first call for one sector from a deck that delivers only zeros. -/
theorem bounded_rereads_zeros :
    readCalls servingDeck plainCodec 1 150 1 (yield servingDeck World.initial) 10 ≤ 3 * 1 + 4 :=
  (bounded_rereads servingDeck plainCodec 1 150 1 le_rfl (yield servingDeck World.initial) 10).1

end CdPlayer
