/-
CdPlayer/HasData.lean

A read that succeeds has its data.

`CD_ReadData` reports success and copies when the buffering functions
return a non-negative value.  They do so when the samples are there, and
also when their timer runs out while the error status says that the buffer
is full.  The second exit is sound as long as the status is honest: a full
buffer that the interrupt has just reported holds more samples than any
request.  It is not when the status is left over from before the pointers
were zeroed.

`NotesHonest` excludes just that: the timer of `CD_Do_StopBuffering` has not
run out under a full status that was there when the function turned the CDIF
on, and no block has come without room for it (it would make the ring look
empty).  Entering the function with the status full does no harm by itself:
the deck may deliver, or the seek fail, or the disc be taken out.

* `cdReadData_has_data`: in every reachable state, a read that returns
  `v > 0` has its `v / 4` samples, and they are what it copies.
* `cdReadData_stale_full`: with a status left over, a read succeeds on an
  empty ring.
-/
import CdPlayer.Buffering
import CdPlayer.Runs
import CdPlayer.Seek

namespace CdPlayer

open Run

/-! ### Honest notes -/

/-- No timer that runs out under a stale report of a full buffer, no block
without room. -/
def Note.Honest : Note → Prop
  | .stopExpired opened => opened ≠ .bufFull
  | .dma space => 2044 < space
  | _ => True

instance : DecidablePred Note.Honest
  | .stopExpired opened => inferInstanceAs (Decidable (opened ≠ .bufFull))
  | .dma space => inferInstanceAs (Decidable (2044 < space))
  | .fullBranch _ | .enterStart _ | .enterStop _ | .seekSent _ | .seekEnded _ _ | .streamOn _ _
  | .copied _ _ | .advance _ _ => inferInstanceAs (Decidable True)

def NotesHonest (w : World) : Prop := ∀ n ∈ w.notes, n.Honest

instance (w : World) : Decidable (NotesHonest w) :=
  inferInstanceAs (Decidable (∀ n ∈ w.notes, n.Honest))

theorem NotesHonest.of_mem {w w' : World} (h : NotesHonest w')
    (hmem : ∀ n ∈ w.notes, n ∈ w'.notes) : NotesHonest w :=
  fun n hn => h n (hmem n hn)

variable {env : Env} {w w' : World}

theorem startStream_mem_notes (env : Env) (addr : Nat) {n : Note}
    (hn : n ∈ (w.note (.enterStop w.cdifEnable)).notes) :
    n ∈ (startStream env addr w).2.notes := by
  have hseek := cdSendMsf_frame env addr (enterStop env w)
  have hmem := hseek.notes.mem ((enterStop_notes env w).mem hn)
  unfold startStream
  rcases hres : cdSendMsf env addr (enterStop env w) with ⟨ret, u⟩
  rw [hres] at hmem
  simp only
  split
  · exact hmem
  · exact List.mem_cons_of_mem _ ((frame_yield env (cdSetBufferStatus .start u)).notes.mem hmem)

theorem giveUp_notes (w : World) : Grows w (giveUp env w).2 :=
  (frame_yield env w).notes.trans (frame_yield env
    (cdSetBufferStatus .stop (cdSetErrorStatus .missSubq (yield env w)))).notes

/-- Notes stay. -/
theorem act_mem_notes (a b : World) (hact : Act env a b) {n : Note} (hn : n ∈ a.notes) :
    n ∈ b.notes := by
  have hturn : ∀ u : World, n ∈ u.notes → n ∈ (yield env u).notes :=
    fun u hu => (frame_yield env u).notes.mem hu
  cases hact with
  | turn => exact hturn a hn
  | own => exact hn
  | stop => exact hn
  | cdifOff => exact hn
  | filled => exact hn
  | fullBranch _ => exact hturn _ (List.mem_cons_of_mem _ hn)
  | enterStart => exact List.mem_cons_of_mem _ hn
  | startTimeOut => exact (giveUp_notes _).mem ((zeroPointers_notes env a).mem hn)
  | stopTimeOut => exact (giveUp_notes a).mem hn
  | stopExpired => exact List.mem_cons_of_mem _ hn
  | seek addr _ => exact startStream_mem_notes env addr (List.mem_cons_of_mem _ hn)
  | copied => exact List.mem_cons_of_mem _ hn
  | advance => exact List.mem_cons_of_mem _ hn

theorem Acts.mem_notes (h : Acts env w w') {n : Note} (hn : n ∈ w.notes) : n ∈ w'.notes :=
  h.inv (P := fun u => n ∈ u.notes) (fun a b hact => act_mem_notes a b hact) hn

/-! ### The buffering status -/

/-- The status is START or STOP. -/
def Settled (w : World) : Prop := w.gCDBufStatus = .start ∨ w.gCDBufStatus = .stop

theorem settled_act (a b : World) (hact : Act env a b) (h : Settled a) : Settled b := by
  unfold Settled at h ⊢
  cases hact with
  | turn => simpa using h
  | own => exact h
  | stop => exact .inr rfl
  | cdifOff => exact h
  | filled => exact h
  | fullBranch _ =>
    refine .inr ?_
    exact (frame_yield env _).bufStatus
  | enterStart => exact h
  | startTimeOut => exact .inr (frame_yield env _).bufStatus
  | stopTimeOut => exact .inr (frame_yield env _).bufStatus
  | stopExpired => exact h
  -- a seek that fails leaves the status, and one that succeeds opens a stream
  | seek addr _ =>
    have hseek := cdSendMsf_frame env addr (enterStop env a)
    have hpre : (enterStop env a).gCDBufStatus = a.gCDBufStatus :=
      ((frame_yield env _).bufStatus).trans (frame_yield env _).bufStatus
    unfold CdPlayer.startStream
    rcases hres : cdSendMsf env addr (enterStop env a) with ⟨ret, u⟩
    rw [hres] at hseek
    simp only
    split
    · rw [hseek.bufStatus, hpre]
      exact h
    · exact .inl (frame_yield env (cdSetBufferStatus .start u)).bufStatus
  | copied => exact h
  | advance => exact h

theorem Acts.settled (h : Acts env w w') (hw : Settled w) : Settled w' :=
  h.inv (P := Settled) settled_act hw

/-! ### Supply -/

/-- At least `R` samples are buffered. -/
def Stocked (R : Nat) (w : World) : Prop := (R : Int) ≤ singleBufferDataAvailable w.sCDDIBuffer

/-- If the status says full, at least `R` samples are buffered. -/
def Backed (R : Nat) (w : World) : Prop := w.gCDErrorStatus = .bufFull → Stocked R w

variable {R : Nat}

theorem handle_notesHonest (w : World) (e : Event) (h : NotesHonest (handle w e)) :
    NotesHonest w :=
  h.of_mem fun _ hn => (outside_handle w e).notes.mem hn

/-- A block that has room only adds samples. -/
theorem stocked_handle (u : World) (e : Event)
    (h : RingOk u.sCDDIBuffer ∧ (NotesHonest u → Stocked R u)) :
    RingOk (handle u e).sCDDIBuffer ∧ (NotesHonest (handle u e) → Stocked R (handle u e)) := by
  refine ⟨ringOk_handle u e h.1, fun hok => ?_⟩
  have hu := h.2 (handle_notesHonest u e hok)
  unfold Stocked at hu ⊢
  rcases handle_ring_cases h.1 e with ⟨heq, -⟩ | ⟨block, -, -, heq, hnotes, -⟩
  · rw [heq]; exact hu
  · have hspace : (2044 : Int) < singleBufferSpaceAvailable u.sCDDIBuffer :=
      hok (.dma _) (by rw [hnotes]; exact List.mem_cons_self)
    rw [h.1.spaceAvailable] at hspace
    rw [heq, h.1.dataAvailable_appendBlock block u.now (by omega)]
    omega

theorem stocked_yield (hring : RingOk w.sCDDIBuffer) (h : NotesHonest w → Stocked R w) :
    NotesHonest (yield env w) → Stocked R (yield env w) :=
  (yield_inv (P := fun u => RingOk u.sCDDIBuffer ∧ (NotesHonest u → Stocked R u))
    stocked_handle (fun _ hu => hu) w ⟨hring, h⟩).2

/-- The interrupt reports a full buffer only when more is there than any
request. -/
theorem backed_handle (hR : R ≤ 2000000) (u : World) (e : Event)
    (h : RingOk u.sCDDIBuffer ∧ (NotesHonest u → Backed R u)) :
    RingOk (handle u e).sCDDIBuffer ∧ (NotesHonest (handle u e) → Backed R (handle u e)) := by
  refine ⟨ringOk_handle u e h.1, fun hok hfull => ?_⟩
  have hu := h.2 (handle_notesHonest u e hok)
  rcases handle_ring_cases h.1 e with ⟨-, -, hsame, -⟩ | ⟨block, -, -, -, -, hcases⟩
  · exact (stocked_handle u e ⟨h.1, fun _ => hu (hsame ▸ hfull)⟩).2 hok
  · rcases hcases with ⟨-, hsame, -⟩ | ⟨-, -, hspace⟩
    · exact (stocked_handle u e ⟨h.1, fun _ => hu (hsame ▸ hfull)⟩).2 hok
    · rw [(ringOk_handle u e h.1).spaceAvailable] at hspace
      unfold Stocked
      omega

theorem backed_yield (env : Env) (hR : R ≤ 2000000) (u : World)
    (h : RingOk u.sCDDIBuffer ∧ (NotesHonest u → Backed R u)) :
    RingOk (yield env u).sCDDIBuffer ∧ (NotesHonest (yield env u) → Backed R (yield env u)) :=
  yield_inv (backed_handle hR) (fun _ hu => hu) u h

/-! ### The buffering functions -/

theorem filled_stocked {req : Nat} (h : RingOk (waitFor env req w).2.sCDDIBuffer)
    (hfilled : (waitFor env req w).1 = .filled) : Stocked req (waitFor env req w).2 := by
  have hle := waitFor_filled hfilled
  have hu := h.u32_dataAvailable
  unfold Stocked
  omega

/-- `CD_Do_StartBuffering` returns a non-negative value only with its samples. -/
theorem cdDoStartBuffering_stocked (env : Env) {req : Nat} (hreq : req < 262144)
    (hring : RingOk w.sCDDIBuffer) (hback : NotesHonest w → Backed req w)
    (hpos : 0 ≤ (cdDoStartBuffering env req w).1)
    (hok : NotesHonest (cdDoStartBuffering env req w).2) :
    Stocked req (cdDoStartBuffering env req w).2 := by
  have hwait := waitFor_inv (backed_yield env (R := req) (by omega)) req
    (w := enterStart w) ⟨hring, fun h => hback (h.of_mem fun _ hn => List.mem_cons_of_mem _ hn)⟩
  rcases cdDoStartBuffering_cases env _ hreq w with
    ⟨hr, hfilled⟩ | ⟨hr, -⟩ | ⟨hr, -⟩ | ⟨n, -, hr, -, hfull⟩ | ⟨hr, -⟩
  · rw [hr]
    exact filled_stocked hwait.1 hfilled
  · rw [hr] at hpos; simp at hpos
  · rw [hr] at hpos; simp at hpos
  · rw [hr] at hok ⊢
    exact (backed_yield env (by omega) _ hwait).2 hok hfull
  · rw [hr] at hpos
    exact absurd hpos (by simp [giveUp])

/-- `CD_Do_StopBuffering` returns a non-negative value only with its samples. -/
theorem cdDoStopBuffering_stocked (env : Env) {req : Nat} (addr : Nat) (hreq : req < 262144)
    (hring : RingOk w.sCDDIBuffer) (hpos : 0 ≤ (cdDoStopBuffering env addr req w).1)
    (hok : NotesHonest (cdDoStopBuffering env addr req w).2) :
    Stocked req (cdDoStopBuffering env addr req w).2 := by
  have hopen := ringOk_startStream env addr hring
  rcases cdDoStopBuffering_cases env hreq addr w with
    ⟨hr, hs⟩ | ⟨-, ⟨hr, hfilled⟩ | ⟨hr, -⟩ | ⟨hr, -⟩ | ⟨n, -, hr, -, hfull⟩ | ⟨hr, -⟩⟩
  · rw [hr, hs] at hpos
    exact absurd hpos (by decide)
  · have hwait : RingOk (waitFor env req (startStream env addr w).2).2.sCDDIBuffer :=
      waitFor_inv (P := fun u => RingOk u.sCDDIBuffer) (fun _ hu => ringOk_yield env hu) req hopen
    rw [hr] at hok ⊢
    exact stocked_yield hwait (fun _ => filled_stocked hwait hfilled) hok
  · rw [hr] at hpos; simp at hpos
  · rw [hr] at hpos; simp at hpos
  · -- the status did not say full when the CDIF was turned on, so the interrupt has set it
    rw [hr] at hok ⊢
    have hopened : (startStream env addr w).2.gCDErrorStatus ≠ .bufFull :=
      hok (.stopExpired _) List.mem_cons_self
    have hwait := waitFor_inv (backed_yield env (R := req) (by omega)) req
      (w := (startStream env addr w).2) ⟨hopen, fun _ hsays => absurd hsays hopened⟩
    exact (backed_yield env (by omega) _ hwait).2
      (hok.of_mem fun _ hn => List.mem_cons_of_mem _ hn) hfull
  · rw [hr] at hpos
    exact absurd hpos (by simp [giveUp])

/-- After `CD_Set_StartBuffing` a full buffer in status START has what is
asked for. -/
theorem cdSetStartBuffing_backed (gap : Int) {req : Nat} (hring : RingOk w.sCDDIBuffer)
    (hstart : (cdSetStartBuffing env gap req w).gCDBufStatus = .start)
    (hok : NotesHonest (cdSetStartBuffing env gap req w)) :
    Backed req (cdSetStartBuffing env gap req w) := by
  have hring' : RingOk (yield env w).sCDDIBuffer := ringOk_yield env hring
  have hu := hring'.u32_dataAvailable
  intro hfull
  unfold cdSetStartBuffing at hstart hok hfull ⊢
  simp only at hstart hok hfull ⊢
  split at hstart
  · simp [setCdifEnable, cdSetBufferStatus] at hstart
  next hgap =>
    rw [if_neg hgap] at hok hfull ⊢
    split at hstart
    · simp [cdSetErrorStatus, cdSetBufferStatus, World.note] at hstart
    next hbranch =>
      rw [if_neg hbranch] at hok hfull ⊢
      refine stocked_yield hring' (fun _ => ?_) hok
      have hge : ¬ u32 (singleBufferDataAvailable (yield env w).sCDDIBuffer) < req :=
        fun hlt => hbranch ⟨hfull, hlt⟩
      unfold Stocked
      omega

/-- What `TRY_READ` starts from. -/
structure TryReady (req : Nat) (w : World) : Prop where
  ring : RingOk w.sCDDIBuffer
  ready : StopReady w
  settled : Settled w
  backed : w.gCDBufStatus = .start → NotesHonest w → Backed req w

theorem tryReady_checkBuffering (n : Nat) (hring : RingOk w.sCDDIBuffer) (hset : Settled w) :
    TryReady (checkBuffering env n w).1 (checkBuffering env n w).2 where
  ring := (checkBuffering_acts env n w).ringOk hring
  ready := checkBuffering_ready env n w
  settled := (checkBuffering_acts env n w).settled hset
  backed := by
    unfold checkBuffering
    rcases hst : w.gCDBufStatus with - | - | - | - <;> simp only
    · exact fun h => absurd h (by simp [setCdifEnable, hst])
    · exact fun hstart hok => cdSetStartBuffing_backed _ hring hstart hok
    · exact fun h => absurd h (by simp [setCdifEnable, hst])
    · exact fun h => absurd h (by simp [setCdifEnable, hst])

/-- A pass that times out leads back to `TRY_READ`. -/
theorem TryReady.again {req addr : Nat} (hreq : req < 262144) (h : TryReady req w)
    (htime : (tryPass env addr req w).1 = bufferingTimeOut) :
    TryReady req (tryPass env addr req w).2 := by
  have hacts := tryPass_acts env addr req h.ready
  obtain ⟨hstop, hoff⟩ := tryPass_timeOut_stop hreq htime
  constructor
  · exact hacts.ringOk h.ring
  · exact stopReady_of_off hoff
  · exact .inr hstop
  · intro hstart
    rw [hstop] at hstart
    exact absurd hstart (by decide)

/-- **No non-negative result without the samples.** -/
theorem tryRead_stocked {req addr : Nat} (hreq : req < 262144) (fuel : Nat)
    (h : TryReady req w) {lres : Int} (hres : (tryRead env addr req fuel w).1 = some lres)
    (hpos : 0 ≤ lres) (hok : NotesHonest (tryRead env addr req fuel w).2) :
    Stocked req (tryRead env addr req fuel w).2 := by
  obtain ⟨k, v, hpass, hlast, -⟩ := tryRead_last hres
  have hv : TryReady req v := hpass.inv (fun _ hu htime => hu.again hreq htime) h
  rcases hv.settled with hst | hst
  · rw [tryPass_start env addr req hst] at hlast
    have hstock := cdDoStartBuffering_stocked env hreq hv.ring (hv.backed hst)
    rw [hlast] at hstock
    exact hstock hpos hok
  · rw [tryPass_stop env addr req hst] at hlast
    have hstock := cdDoStopBuffering_stocked env addr hreq hv.ring
    rw [hlast] at hstock
    exact hstock hpos hok

/-! ### Every read -/

theorem checkBuffering_want (env : Env) (n : Nat) (h : Settled w) :
    (checkBuffering env n w).1 = wantSampleSize n := by
  unfold checkBuffering
  rcases h with h | h <;> simp only [h]

/-- A successful read copies what it asked for out of a ring that holds it. -/
theorem cdReadData_copies (env : Env) (fuel addr n : Nat) (p : Int) {v : Int}
    (hring : RingOk w.sCDDIBuffer) (hset : Settled w)
    (hv : (cdReadData env fuel addr n p w).1 = some v) (hpos : 0 < v)
    (hok : NotesHonest (cdReadData env fuel addr n p w).2) :
    ∃ req u, cdReadData env fuel addr n p w
        = (some ((wantSampleSize n : Int) * 4), cdCopyReadData p (2 * wantSampleSize n) req u) ∧
      RingOk u.sCDDIBuffer ∧ Stocked (wantSampleSize n) u := by
  have hready : TryReady (checkBuffering env n w).1 (checkBuffering env n w).2 :=
    tryReady_checkBuffering n hring hset
  have hreq := checkBuffering_lt env n w
  have hwant := checkBuffering_want env n hset
  obtain ⟨lres, hres, hlres, hrun⟩ := cdReadData_buffered env fuel addr n p hv hpos
  have hstock := tryRead_stocked hreq fuel hready hres hlres
  have hring' := (tryRead_acts env addr hreq fuel hready.ready).ringOk hready.ring
  rw [hrun] at hok
  generalize tryRead env addr (checkBuffering env n w).1 fuel (checkBuffering env n w).2 = t at *
  obtain ⟨_, _, hcopy⟩ := cdCopyReadData_same p (2 * wantSampleSize n)
    (checkBuffering env n w).1 (copyState env n t.2)
  have hok' : NotesHonest (yield env t.2) := by
    refine hok.of_mem fun m hm => ?_
    rw [hcopy]
    exact List.mem_cons_of_mem _ hm
  refine ⟨_, _, hrun, ringOk_yield env hring', ?_⟩
  rw [← hwant]
  exact stocked_yield hring' hstock hok'

/-- **A read that succeeds has its data.**  In every reachable state, if
notes are honest up to its end: the buffering of a read gives a
non-negative result only with the samples it waits for, and a read that
returns `v > 0` finds `v / 4` samples in the ring and copies them. -/
theorem cdReadData_has_data (codec : Codec) {k fuel n : Nat} (hw : Reachable env codec k w)
    (h₁ : 1 ≤ n) (h₂ : n ≤ 187) (startAddr : Nat) (p : Int)
    (hok : NotesHonest (cdReadData env fuel startAddr n p w).2) :
    let c := checkBuffering env n w
    let t := tryRead env startAddr c.1 fuel c.2
    let b := (cdReadData env fuel startAddr n p w).2.sCDDIBuffer
    let chunk := (cdReadData env fuel startAddr n p w).2.cdChunkBuf
    (∀ lres, t.1 = some lres → 0 ≤ lres →
      (c.1 : Int) ≤ singleBufferDataAvailable t.2.sCDDIBuffer) ∧
    ∀ v, (cdReadData env fuel startAddr n p w).1 = some v → 0 < v →
      v / 4 ≤ singleBufferDataAvailable b ∧
      ∀ i, 0 ≤ i → i < v / 2 →
        (chunk (p + 2 * i), chunk (p + 2 * i + 1))
          = shortAt b.pSingleBuf ((2 * b.lReadPtr + i) % (2 * b.lLength)) := by
  intro c t b chunk
  have hset : Settled w := hw.acts.settled (.inr rfl)
  have hready : TryReady c.1 c.2 := tryReady_checkBuffering n hw.ringOk hset
  have hreq : c.1 < 262144 := checkBuffering_lt env n w
  have htry : ∀ lres, t.1 = some lres → 0 ≤ lres → NotesHonest t.2 → Stocked c.1 t.2 :=
    fun lres hres hpos hok => tryRead_stocked hreq fuel hready hres hpos hok
  refine ⟨fun lres hres hpos => htry lres hres hpos (hok.of_mem fun m hm => ?_), ?_⟩
  · -- the copy is the last thing the read does
    have hrun := cdReadData_of_some env _ _ _ p hres hpos
    obtain ⟨_, _, hcopy⟩ := cdCopyReadData_same p (2 * wantSampleSize n) c.1 (copyState env n t.2)
    rw [hrun, hcopy]
    exact List.mem_cons_of_mem _ ((frame_yield env t.2).notes.mem hm)
  · intro v hv hpos
    obtain ⟨req, u, hrun, hring, hstock⟩ := cdReadData_copies env fuel startAddr n p
      hw.ringOk hset hv hpos hok
    obtain ⟨_, _, hcopy⟩ := cdCopyReadData_same p (2 * wantSampleSize n) req u
    have hval : wantSampleSize n = 588 * (n + 12) := wantSampleSize_eq (by omega)
    have hbuf : b = u.sCDDIBuffer := by
      simp only [b, hrun]
      rw [hcopy]
    rw [hrun] at hv
    obtain rfl : (wantSampleSize n : Int) * 4 = v := by simpa using hv
    have hle : (wantSampleSize n : Int) ≤ singleBufferDataAvailable b := by
      rw [hbuf]
      exact hstock
    refine ⟨by omega, fun i hi₀ hi => ?_⟩
    -- the chunk holds the window of the ring, byte by byte
    have hbyte : ∀ j : Int, 0 ≤ j → j < 4 * wantSampleSize n → chunk (p + j) = b.windowByte j := by
      intro j hj₀ hj
      rw [hbuf]
      change (cdReadData env fuel startAddr n p w).2.cdChunkBuf (p + j) = _
      rw [hrun]
      exact cdCopyReadData_cell p req hring hstock hj₀ hj
    rw [add_assoc p (2 * i) 1, hbyte (2 * i) (by omega) (by omega),
      hbyte (2 * i + 1) (by omega) (by omega)]
    have hlen : b.lLength = 2097152 := by rw [hbuf]; exact hring.length
    unfold SingleBufferState.windowByte shortAt
    rw [hlen]
    have hfirst : (4 * b.lReadPtr + 2 * i) % (4 * 2097152)
        = 2 * ((2 * b.lReadPtr + i) % (2 * 2097152)) := by omega
    have hsecond : (4 * b.lReadPtr + (2 * i + 1)) % (4 * 2097152)
        = 2 * ((2 * b.lReadPtr + i) % (2 * 2097152)) + 1 := by omega
    rw [hfirst, hsecond]

/-- A deck that mounts a disc, answers every seek and streams twenty blocks after
it; once the first read has been served, it fills the buffer. -/
def refillingDeck : Env := fun w =>
  if w.datacdEnable = false then ⟨[.mount], false, true⟩
  else if w.waiting then ⟨[answerTo w.seeks 1], false, true⟩
  else if w.cdifEnable ∧ w.dmaSince = 0 then ⟨List.replicate 20 (.dma fun _ => 0), false, true⟩
  else if w.seeks = 1 ∧ 0 < w.chOffset then
    ⟨List.replicate 1003 (.dma fun _ => 0), false, true⟩
  else .quiet

/-- The buffer has filled, and sector 10000 is asked for. -/
def refilledState : World :=
  (enterScan refillingDeck 10000 (yield refillingDeck
    (cdReadData refillingDeck 1 144 1 0 (yield refillingDeck World.initial)).2)).world

theorem refilledState_reachable (codec : Codec) :
    Reachable refillingDeck codec 1 refilledState :=
  (((Reachable.init.turn).read 144 1 0).turn).enter 10000

/-- `CD_Do_StopBuffering` is entered with the status full, but the deck
delivers. -/
theorem cdReadData_has_data_far :
    (checkBuffering refillingDeck 1 refilledState).2.gCDErrorStatus = .bufFull ∧
      (30576 : Int) / 4 ≤ singleBufferDataAvailable
        (cdReadData refillingDeck 1 9994 1 0 refilledState).2.sCDDIBuffer := by
  have hfull : (checkBuffering refillingDeck 1 refilledState).2.gCDErrorStatus = .bufFull ∧
      (cdReadData refillingDeck 1 9994 1 0 refilledState).1 = some 30576 ∧
      NotesHonest (cdReadData refillingDeck 1 9994 1 0 refilledState).2 := by
    decide +kernel
  have hdata := (cdReadData_has_data ⟨fun blk => blk, fun blk _ => (1, blk)⟩
    (refilledState_reachable _) (by decide) (by decide) 9994 0 hfull.2.2).2
  exact ⟨hfull.1, (hdata 30576 hfull.2.1 (by decide)).1⟩

/-! ### A stale report -/

/-- If the status says full when the stream opens and no samples come, the
read succeeds all the same. -/
theorem cdReadData_of_starved {P : World → Prop} (hP : ∀ u, P u → P (yield env u))
    (hnote : ∀ u m, P u → P (u.note m)) (addr n : Nat) (p : Int) {w : World}
    (hstarved : ∀ u, P u → u.gCDErrorStatus = .bufFull ∧ u.cdDevForceStop = 0 ∧
      u32 (singleBufferDataAvailable u.sCDDIBuffer) < (checkBuffering env n w).1)
    (hstop : (checkBuffering env n w).2.gCDBufStatus = .stop)
    (hret : (startStream env addr (checkBuffering env n w).2).1 ≠ -1)
    (hopen : P (startStream env addr (checkBuffering env n w).2).2) :
    (cdReadData env 1 addr n p w).1 = some ((wantSampleSize n : Int) * 4) ∧
    ∃ u, P u ∧ (cdReadData env 1 addr n p w).2.sCDDIBuffer = u.sCDDIBuffer := by
  have hreq := checkBuffering_lt env n w
  generalize hc : checkBuffering env n w = c at hstarved hstop hret hopen hreq
  -- the timer runs out, and the status still says full
  obtain ⟨m, hexit, hend⟩ := waitFor_starved hP
    (fun u hu => ⟨by simp [(hstarved u hu).1], (hstarved u hu).2⟩) hopen
  have hrun : ∃ m : Nat, cdDoStopBuffering env addr c.1 c.2
      = ((m : Int), (yield env (waitFor env c.1 (startStream env addr c.2).2).2).note
        (.stopExpired (startStream env addr c.2).2.gCDErrorStatus)) := by
    rcases cdDoStopBuffering_cases env hreq addr c.2 with
      ⟨-, hs⟩ | ⟨-, ⟨-, hex⟩ | ⟨-, hex⟩ | ⟨-, hex⟩ | ⟨m', -, hr, -⟩ | ⟨-, hne⟩⟩
    · exact absurd hs hret
    · rw [hexit] at hex; exact absurd hex (by simp)
    · rw [hexit] at hex; exact absurd hex (by simp)
    · rw [hexit] at hex; exact absurd hex (by simp)
    · exact ⟨m', hr⟩
    · exact absurd (hstarved _ (hP _ hend)).1 hne
  obtain ⟨m', hrun⟩ := hrun
  have htry : tryRead env addr c.1 1 c.2 = (some (m' : Int),
      (yield env (waitFor env c.1 (startStream env addr c.2).2).2).note
        (.stopExpired (startStream env addr c.2).2.gCDErrorStatus)) := by
    unfold tryRead
    simp only [hstop, hrun]
    rw [if_pos (by omega)]
  have hread := cdReadData_of_some env 1 addr n p (w := w) (by rw [hc, htry]) (by omega)
  obtain ⟨_, _, hcopy⟩ := cdCopyReadData_same p (2 * wantSampleSize n) c.1
    (copyState env n (tryRead env addr c.1 1 c.2).2)
  rw [hread, hc]
  refine ⟨rfl, yield env (tryRead env addr c.1 1 c.2).2, ?_, ?_⟩
  · rw [htry]
    exact hP _ (hnote _ _ (hP _ hend))
  · simp only [hcopy]
    rfl

/-- A deck that mounts a disc, answers every seek, streams twenty blocks after
the first one and, once a read has been served, fills the buffer. -/
def fillingDeck : Env := fun w =>
  if w.datacdEnable = false then ⟨[.mount], false, true⟩
  else if w.waiting then ⟨[answerTo w.seeks 1], false, true⟩
  else if w.seeks = 1 ∧ w.dmaSince = 0 then ⟨List.replicate 20 (.dma fun _ => 0), false, true⟩
  else if w.seeks = 1 ∧ 0 < w.chOffset then
    ⟨List.replicate 1003 (.dma fun _ => 0), false, true⟩
  else .quiet

/-- After the first read of a mounted disc the buffer has filled, and sector
10000 is asked for. -/
def fullState : World :=
  (enterScan fillingDeck 10000 (yield fillingDeck
    (cdReadData fillingDeck 1 144 1 0 (yield fillingDeck World.initial)).2)).world

/-- The stream opened for sector 10000: empty, the status says full, and the
deck sends nothing more. -/
structure Starved (w : World) : Prop where
  data : w.datacdEnable = true
  waiting : w.waiting = false
  seeks : w.seeks = 2
  error : w.gCDErrorStatus = .bufFull
  force : w.cdDevForceStop = 0
  empty : singleBufferDataAvailable w.sCDDIBuffer = 0

theorem starved_yield (u : World) (h : Starved u) : Starved (yield fillingDeck u) := by
  have hquiet : fillingDeck u = .quiet := by
    unfold fillingDeck
    rw [if_neg (by simp [h.data]), if_neg (by simp [h.waiting]), if_neg (by simp [h.seeks]),
      if_neg (by simp [h.seeks])]
  have htick : yield fillingDeck u = u.tick := by
    unfold yield
    rw [hquiet]
    rfl
  rw [htick]
  exact { h with }

theorem fullState_reachable (codec : Codec) : Reachable fillingDeck codec 1 fullState :=
  (((Reachable.init.turn).read 144 1 0).turn).enter 10000

/-- What the next read meets: the status STOP, and after its seek a stream
that is starved. -/
theorem fullState_opens :
    let c := checkBuffering fillingDeck 1 fullState
    let s := startStream fillingDeck 9994 c.2
    c.1 = 7644 ∧ c.2.gCDBufStatus = .stop ∧ s.1 ≠ -1 ∧ s.2.datacdEnable = true ∧
      s.2.waiting = false ∧ s.2.seeks = 2 ∧ s.2.gCDErrorStatus = .bufFull ∧
      s.2.cdDevForceStop = 0 ∧ singleBufferDataAvailable s.2.sCDDIBuffer = 0 := by
  decide +kernel

/-- **A stale report of a full buffer makes a read succeed on an empty
ring.** -/
theorem cdReadData_stale_full :
    ¬ ∀ (env : Env) (codec : Codec) (k fuel n : Nat) (w : World), Reachable env codec k w →
      1 ≤ n → n ≤ 187 → ∀ (startAddr : Nat) (p v : Int),
      (cdReadData env fuel startAddr n p w).1 = some v → 0 < v →
      v / 4 ≤ singleBufferDataAvailable (cdReadData env fuel startAddr n p w).2.sCDDIBuffer := by
  intro hall
  obtain ⟨hreq, hstop, hret, hdata, hwait, hseeks, herr, hforce, hempty⟩ := fullState_opens
  obtain ⟨hres, u, hu, hring⟩ := cdReadData_of_starved starved_yield
    (fun _ _ hu => { hu with }) 9994 1 0 (fun u hu => ⟨hu.error, hu.force, by
      rw [hu.empty, hreq]
      exact show (0 : Nat) < 7644 by decide⟩)
    hstop hret ⟨hdata, hwait, hseeks, herr, hforce, hempty⟩
  have h := hall fillingDeck ⟨fun blk => blk, fun blk _ => (1, blk)⟩ 1 1 1 fullState
    (fullState_reachable _) (by decide) (by decide) 9994 0 _ hres (by decide)
  rw [hring, hu.empty] at h
  exact absurd h (by decide)

end CdPlayer
