/-
CdPlayer/Buffering.lean

What the buffering functions do to the shared state.

* A seek leaves ring and status to the surroundings (`cdSendMsf_frame`).
* With the CDIF off, entering `CD_Do_StopBuffering` empties the ring and
  changes nothing else of it (`enterStop_off`), and a seek that does not
  fail ends with an empty ring, status START and the CDIF on
  (`startStream_off`).
* The wait loop keeps what turns keep, and it ends normally only with the
  samples it waited for (`waitFor_filled`).
* `CD_CopyReadData` copies the window of the ring, wrapped or not
  (`cdCopyReadData_window`).
-/
import CdPlayer.Actions

namespace CdPlayer

open ByteStore Run

variable (env : Env)

/-! ### The seek -/

theorem frame_beginSeek (msf : Nat) (w : World) : Frame w (beginSeek msf w) :=
  { Frame.refl w with notes := Adds.cons (n := .seekSent w.tccCompletion) rfl trivial }

theorem frame_yield (w : World) : Frame w (yield env w) := (outside_yield env w).toFrame

theorem frame_waitForCompletion (w : World) : Frame w (waitForCompletion env w).2 := by
  unfold waitForCompletion
  simp only
  split
  · exact (frame_yield env w).trans { Frame.refl (yield env w) with }
  · split <;> exact frame_yield env w

/-- **A seek leaves the ring to the surroundings.** -/
theorem cdSendMsf_frame (msf : Nat) (w : World) : Frame w (cdSendMsf env msf w).2 := by
  have hwait := (frame_beginSeek msf w).trans (frame_waitForCompletion env (beginSeek msf w))
  unfold cdSendMsf
  rcases hres : waitForCompletion env (beginSeek msf w) with ⟨ret, u⟩
  rw [hres] at hwait
  have hend : Frame w (({ u with waiting := false } : World).note
      (.seekEnded ret u.cdifEnable)) :=
    hwait.trans { Frame.refl u with
      notes := Adds.cons (n := .seekEnded ret u.cdifEnable) rfl trivial }
  simp only
  split
  · exact hend
  · have htwo := (hend.trans (frame_yield env _)).trans (frame_yield env _)
    exact htwo.trans { Frame.refl _ with }

/-- What a seek returns. -/
theorem cdSendMsf_result (msf : Nat) (w : World) :
    (cdSendMsf env msf w).1 = 1 ∨ (cdSendMsf env msf w).1 = -1 ∨
      (cdSendMsf env msf w).1 = -3 := by
  unfold cdSendMsf
  rcases waitForCompletion env (beginSeek msf w) with ⟨ret, u⟩
  simp only
  split
  · exact .inr (.inr rfl)
  · simp only
    split
    · exact .inl rfl
    · exact .inr (.inl rfl)

/-! ### Entering `CD_Do_StopBuffering` -/

/-- The ring emptied. -/
def SingleBufferState.emptied (b : SingleBufferState) : SingleBufferState :=
  { b with lReadPtr := 0, lWritePtr := 0 }

theorem dataAvailable_emptied (b : SingleBufferState) :
    singleBufferDataAvailable b.emptied = 0 := by
  unfold singleBufferDataAvailable SingleBufferState.emptied
  simp

/-- With the CDIF off the two stores empty the ring and that is all. -/
theorem zeroPointers_off {w : World} (hoff : w.cdifEnable = false) :
    (zeroPointers env w).sCDDIBuffer = w.sCDDIBuffer.emptied ∧
    (zeroPointers env w).cdifEnable = false ∧
    (zeroPointers env w).gCDErrorStatus = w.gCDErrorStatus := by
  have h₁ := frame_yield env w
  have h₂ := frame_yield env (zeroWritePtr (yield env w))
  have hoff₁ : (zeroWritePtr (yield env w)).cdifEnable = false := h₁.cdif_off hoff
  refine ⟨?_, h₂.cdif_off hoff₁, (h₂.error hoff₁).trans (h₁.error hoff)⟩
  change { (yield env (zeroWritePtr (yield env w))).sCDDIBuffer with lReadPtr := 0 } = _
  rw [h₂.ring hoff₁]
  change { ({ (yield env w).sCDDIBuffer with lWritePtr := 0 } : SingleBufferState) with
    lReadPtr := 0 } = _
  rw [h₁.ring hoff]
  rfl

/-- The two stores add no note of their own. -/
theorem zeroPointers_notes (w : World) : Grows w (zeroPointers env w) :=
  (frame_yield env w).notes.trans (frame_yield env (zeroWritePtr (yield env w))).notes

/-- Entering `CD_Do_StopBuffering` with the CDIF off. -/
theorem enterStop_off {w : World} (hoff : w.cdifEnable = false) :
    (enterStop env w).sCDDIBuffer = w.sCDDIBuffer.emptied ∧
    (enterStop env w).cdifEnable = false ∧
    (enterStop env w).gCDErrorStatus = w.gCDErrorStatus :=
  zeroPointers_off env (w := w.note _) hoff

theorem enterStop_notes (w : World) :
    Grows (w.note (.enterStop w.cdifEnable)) (enterStop env w) :=
  zeroPointers_notes env (w.note _)

/-! ### Opening the stream -/

/-- What `CD_Do_StopBuffering` has done when its wait begins, if the CDIF was
off when it was entered. -/
structure Opened (w w' : World) : Prop where
  ring : w'.sCDDIBuffer = w.sCDDIBuffer.emptied
  cdif : w'.cdifEnable = true
  error : w'.gCDErrorStatus = w.gCDErrorStatus
  status : w'.gCDBufStatus = .start

/-- A seek that fails leaves everything stopped; any other result opens the
stream on an empty ring. -/
theorem startStream_off (addr : Nat) {w : World} (hoff : w.cdifEnable = false) :
    (startStream env addr w).1 = -1 ∧ (startStream env addr w).2.cdifEnable = false ∧
      (startStream env addr w).2.gCDErrorStatus = w.gCDErrorStatus ∧
      (startStream env addr w).2.sCDDIBuffer = w.sCDDIBuffer.emptied ∨
    (startStream env addr w).1 ≠ -1 ∧ Opened w (startStream env addr w).2 := by
  obtain ⟨hring, hoff', herr⟩ := enterStop_off env hoff
  have hseek := cdSendMsf_frame env addr (enterStop env w)
  unfold startStream
  rcases hres : cdSendMsf env addr (enterStop env w) with ⟨ret, u⟩
  rw [hres] at hseek
  have hoffu := hseek.cdif_off hoff'
  have hringu : u.sCDDIBuffer = w.sCDDIBuffer.emptied := (hseek.ring hoff').trans hring
  have herru : u.gCDErrorStatus = w.gCDErrorStatus := (hseek.error hoff').trans herr
  by_cases hret : ret = -1
  · simp only [if_pos hret]
    exact .inl ⟨hret, hoffu, herru, hringu⟩
  · simp only [if_neg hret]
    have hturn := frame_yield env (cdSetBufferStatus .start u)
    exact .inr ⟨hret,
      { ring := (hturn.ring hoffu).trans hringu
        cdif := rfl
        error := (hturn.error hoffu).trans herru
        status := hturn.bufStatus }⟩

/-! ### Shocks

Nothing in the repository reports a shock; the thread and the interrupt
only ever write other values. -/

theorem startStream_noShock (addr : Nat) {w : World} (h : w.gCDErrorStatus ≠ .shock) :
    (startStream env addr w).2.gCDErrorStatus ≠ .shock := by
  have hfirst := (frame_yield env (w.note (.enterStop w.cdifEnable))).noShock h
  have henter : (enterStop env w).gCDErrorStatus ≠ .shock :=
    (frame_yield env (zeroWritePtr (yield env (w.note _)))).noShock hfirst
  have hseek := (cdSendMsf_frame env addr (enterStop env w)).noShock henter
  unfold startStream
  rcases hres : cdSendMsf env addr (enterStop env w) with ⟨ret, u⟩
  rw [hres] at hseek
  simp only
  split
  · exact hseek
  · exact (frame_yield env (cdSetBufferStatus .start u)).noShock hseek

theorem giveUp_noShock (w : World) : (giveUp env w).2.gCDErrorStatus ≠ .shock :=
  (frame_yield env (cdSetBufferStatus .stop (cdSetErrorStatus .missSubq (yield env w)))).noShock
    nofun

theorem act_noShock (a b : World) (hact : Act env a b) (h : a.gCDErrorStatus ≠ .shock) :
    b.gCDErrorStatus ≠ .shock := by
  cases hact with
  | turn => exact (frame_yield env a).noShock h
  | own => exact h
  | stop => exact h
  | cdifOff => exact h
  | filled => exact nofun
  | fullBranch _ => exact nofun
  | enterStart => exact h
  | startTimeOut => exact giveUp_noShock env _
  | stopTimeOut => exact giveUp_noShock env a
  | stopExpired => exact h
  | seek addr _ => exact startStream_noShock env addr h
  | copied => exact h
  | advance => exact h

theorem Acts.noShock {w w' : World} (h : Acts env w w') (hw : w.gCDErrorStatus ≠ .shock) :
    w'.gCDErrorStatus ≠ .shock :=
  h.inv (P := fun u => u.gCDErrorStatus ≠ .shock) (act_noShock env) hw

/-! ### Waiting -/

variable {env}

/-- What turns keep, the wait loop keeps. -/
theorem waitBuffered_inv {P : World → Prop} (hP : ∀ u, P u → P (yield env u)) (req t n : Nat)
    {w : World} (hw : P w) : P (waitBuffered env req t n w).2 := by
  induction t generalizing n w with
  | zero =>
    unfold waitBuffered
    split
    · simp only
      split
      · exact hP _ hw
      · split <;> exact hP _ (hP _ hw)
    · exact hw
  | succ t ih =>
    unfold waitBuffered
    split
    · simp only
      split
      · exact hP _ hw
      · split
        · exact hP _ (hP _ hw)
        · exact ih _ (hP _ (hP _ (hP _ hw)))
    · exact hw

/-- The loop ends normally only with the samples it waited for. -/
theorem waitBuffered_filled {req t n : Nat} {w : World}
    (hn : n = u32 (singleBufferDataAvailable w.sCDDIBuffer))
    (h : (waitBuffered env req t n w).1 = .filled) :
    req ≤ u32 (singleBufferDataAvailable (waitBuffered env req t n w).2.sCDDIBuffer) := by
  induction t generalizing n w with
  | zero =>
    unfold waitBuffered at h ⊢
    split
    next hlt =>
      rw [if_pos hlt] at h
      simp only at h ⊢
      split at h
      · simp at h
      · split at h <;> simp at h
    -- left by the measurement
    next hge => simp only; omega
  | succ t ih =>
    unfold waitBuffered at h ⊢
    split
    next hlt =>
      rw [if_pos hlt] at h
      simp only at h ⊢
      split
      next hshock => rw [if_pos hshock] at h; simp at h
      next hshock =>
        rw [if_neg hshock] at h
        split
        next hforce => rw [if_pos hforce] at h; simp at h
        next hforce =>
          rw [if_neg hforce] at h
          exact ih rfl h
    next hge => simp only; omega

theorem waitFor_inv {P : World → Prop} (hP : ∀ u, P u → P (yield env u)) (req : Nat)
    {w : World} (hw : P w) : P (waitFor env req w).2 :=
  waitBuffered_inv hP _ _ _ (hP _ hw)

theorem waitFor_filled {req : Nat} {w : World} (h : (waitFor env req w).1 = .filled) :
    req ≤ u32 (singleBufferDataAvailable (waitFor env req w).2.sCDDIBuffer) :=
  waitBuffered_filled rfl h

/-- The loop breaks off only for what it has seen. -/
theorem waitBuffered_broken (req t n : Nat) (w : World) :
    ((waitBuffered env req t n w).1 = .shock →
      (waitBuffered env req t n w).2.gCDErrorStatus = .shock) ∧
    ((waitBuffered env req t n w).1 = .forceStop →
      (waitBuffered env req t n w).2.cdDevForceStop ≠ 0) := by
  induction t generalizing n w with
  | zero =>
    unfold waitBuffered
    split
    · simp only
      split
      next hshock => exact ⟨fun _ => hshock, by simp⟩
      next =>
        split
        next hforce => exact ⟨by simp, fun _ => hforce⟩
        next => exact ⟨by simp, by simp⟩
    · exact ⟨by simp, by simp⟩
  | succ t ih =>
    unfold waitBuffered
    split
    · simp only
      split
      next hshock => exact ⟨fun _ => hshock, by simp⟩
      next =>
        split
        next hforce => exact ⟨by simp, fun _ => hforce⟩
        next => exact ih _ _
    · exact ⟨by simp, by simp⟩

/-- Without samples, shock or force stop the timer runs out. -/
theorem waitBuffered_starved {P : World → Prop} (hP : ∀ u, P u → P (yield env u)) {req : Nat}
    (hstarved : ∀ u, P u → u.gCDErrorStatus ≠ .shock ∧ u.cdDevForceStop = 0 ∧
      u32 (singleBufferDataAvailable u.sCDDIBuffer) < req) (t : Nat) {n : Nat} {w : World}
    (hw : P w) (hn : n < req) :
    ∃ m, (waitBuffered env req t n w).1 = .expired m ∧ P (waitBuffered env req t n w).2 := by
  have h₁ := hP _ hw
  have h₂ := hP _ h₁
  induction t generalizing n w with
  | zero =>
    unfold waitBuffered
    simp only [if_pos hn, if_neg (hstarved _ h₁).1,
      if_neg (show ¬ (yield env (yield env w)).cdDevForceStop ≠ 0 by
        simp [(hstarved _ h₂).2.1])]
    exact ⟨n, rfl, h₂⟩
  | succ t ih =>
    unfold waitBuffered
    simp only [if_pos hn, if_neg (hstarved _ h₁).1,
      if_neg (show ¬ (yield env (yield env w)).cdDevForceStop ≠ 0 by
        simp [(hstarved _ h₂).2.1])]
    have h₃ := hP _ h₂
    exact ih h₃ (hstarved _ h₃).2.2 (hP _ h₃) (hP _ (hP _ h₃))

theorem waitFor_starved {P : World → Prop} (hP : ∀ u, P u → P (yield env u)) {req : Nat}
    (hstarved : ∀ u, P u → u.gCDErrorStatus ≠ .shock ∧ u.cdDevForceStop = 0 ∧
      u32 (singleBufferDataAvailable u.sCDDIBuffer) < req) {w : World} (hw : P w) :
    ∃ m, (waitFor env req w).1 = .expired m ∧ P (waitFor env req w).2 :=
  waitBuffered_starved hP hstarved _ (hP _ hw) (hstarved _ (hP _ hw)).2.2

/-! ### What buffering leaves alone -/

/-- The read pointer is not advanced past what is buffered. -/
def Note.InBuffer : Note → Prop
  | .advance n avail => n ≤ avail
  | _ => True

theorem Note.Passive.inBuffer : ∀ n : Note, n.Passive → n.InBuffer
  | .dma _, _ | .seekSent _, _ | .seekEnded _ _, _ => trivial

/-- The chunk and the two sector registers are as before, and the reader has
not moved. -/
structure SameDesk (w w' : World) : Prop where
  chunk : w'.cdChunkBuf = w.cdChunkBuf
  lastSector : w'.gLastSector = w.gLastSector
  requestSector : w'.gRequestSector = w.gRequestSector
  notes : Adds Note.InBuffer w w'

theorem SameDesk.refl (w : World) : SameDesk w w := ⟨rfl, rfl, rfl, .refl w⟩

theorem SameDesk.trans {a b c : World} (h : SameDesk a b) (h' : SameDesk b c) : SameDesk a c :=
  ⟨h'.chunk.trans h.chunk, h'.lastSector.trans h.lastSector,
    h'.requestSector.trans h.requestSector, h.notes.trans h'.notes⟩

theorem Frame.sameDesk {a b : World} (h : Frame a b) : SameDesk a b :=
  ⟨h.chunk, h.lastSector, h.requestSector, h.notes.mono Note.Passive.inBuffer⟩

theorem sameDesk_yield (env : Env) (w : World) : SameDesk w (yield env w) :=
  (frame_yield env w).sameDesk

/-- A turn after a change that is none of the desk's. -/
theorem SameDesk.turn {a b : World} (h : SameDesk a b) (env : Env) : SameDesk a (yield env b) :=
  h.trans (sameDesk_yield env b)

theorem sameDesk_cdSetStartBuffing (env : Env) (gap : Int) (req : Nat) (w : World) :
    SameDesk w (cdSetStartBuffing env gap req w) := by
  have hturn := sameDesk_yield env w
  have hstop : ∀ u, SameDesk u (cdSetBufferStatus .stop u) := fun _ => ⟨rfl, rfl, rfl, .same rfl⟩
  have hnote : ∀ u cdif, SameDesk u (World.note (.fullBranch cdif) u) :=
    fun _ _ => ⟨rfl, rfl, rfl, .cons rfl trivial⟩
  unfold cdSetStartBuffing
  simp only
  split
  · exact ((hturn.trans (hstop _)).turn env).trans ⟨rfl, rfl, rfl, .same rfl⟩
  · split
    · exact ((((hturn.turn env).trans (hstop _)).trans (hnote _ _)).turn env).trans
        ⟨rfl, rfl, rfl, .same rfl⟩
    · exact hturn.turn env

theorem sameDesk_checkBuffering (env : Env) (n : Nat) (w : World) :
    SameDesk w (checkBuffering env n w).2 := by
  unfold checkBuffering
  simp only
  split
  · exact sameDesk_cdSetStartBuffing env _ _ w
  · exact (sameDesk_yield env w).trans ⟨rfl, rfl, rfl, .same rfl⟩
  · exact (sameDesk_yield env w).trans ⟨rfl, rfl, rfl, .same rfl⟩

theorem sameDesk_waitFor (env : Env) (req : Nat) (w : World) :
    SameDesk w (waitFor env req w).2 :=
  waitFor_inv (P := SameDesk w) (fun _ hu => hu.turn env) req (.refl w)

theorem sameDesk_zeroPointers (env : Env) (w : World) : SameDesk w (zeroPointers env w) :=
  have hwrite : ∀ u, SameDesk u (zeroWritePtr u) := fun _ => ⟨rfl, rfl, rfl, .same rfl⟩
  (((sameDesk_yield env w).trans (hwrite _)).turn env).trans ⟨rfl, rfl, rfl, .same rfl⟩

theorem sameDesk_giveUp (env : Env) (w : World) : SameDesk w (giveUp env w).2 :=
  have hstop : ∀ u, SameDesk u (cdSetBufferStatus .stop (cdSetErrorStatus .missSubq u)) :=
    fun _ => ⟨rfl, rfl, rfl, .same rfl⟩
  (((sameDesk_yield env w).trans (hstop _)).turn env).trans ⟨rfl, rfl, rfl, .same rfl⟩

/-- The note of the entry aside, `CD_Do_StartBuffering` leaves the desk alone. -/
theorem sameDesk_enterStart (env : Env) (req : Nat) (w : World) :
    SameDesk (enterStart w) (cdDoStartBuffering env req w).2 := by
  have hwait := sameDesk_waitFor env req (enterStart w)
  unfold cdDoStartBuffering
  rcases hres : waitFor env req (enterStart w) with ⟨- | - | - | n, u⟩ <;> rw [hres] at hwait
  · exact hwait
  · exact hwait
  · exact hwait
  · simp only
    split
    · exact hwait.turn env
    · exact (((hwait.turn env).trans (sameDesk_zeroPointers env _))).trans
        (sameDesk_giveUp env _)

theorem sameDesk_cdDoStartBuffering (env : Env) (req : Nat) (w : World) :
    SameDesk w (cdDoStartBuffering env req w).2 :=
  (⟨rfl, rfl, rfl, .cons rfl trivial⟩ : SameDesk w (enterStart w)).trans
    (sameDesk_enterStart env req w)

theorem sameDesk_startStream (env : Env) (addr : Nat) (w : World) :
    SameDesk w (startStream env addr w).2 := by
  have henter : SameDesk w (enterStop env w) :=
    ((⟨rfl, rfl, rfl, .cons rfl trivial⟩ : SameDesk w (w.note (.enterStop _))).trans
      (sameDesk_zeroPointers env _)).trans ⟨rfl, rfl, rfl, .same rfl⟩
  have hseek := henter.trans (cdSendMsf_frame env addr (enterStop env w)).sameDesk
  unfold startStream
  rcases hres : cdSendMsf env addr (enterStop env w) with ⟨ret, u⟩
  rw [hres] at hseek
  simp only
  split
  · exact hseek
  · exact ((hseek.trans (⟨rfl, rfl, rfl, .same rfl⟩ : SameDesk u (cdSetBufferStatus .start u))).turn
      env).trans ⟨rfl, rfl, rfl, .cons (n := .streamOn _ _) rfl trivial⟩

theorem sameDesk_cdDoStopBuffering (env : Env) (addr req : Nat) (w : World) :
    SameDesk w (cdDoStopBuffering env addr req w).2 := by
  have hstart := sameDesk_startStream env addr w
  unfold cdDoStopBuffering
  rcases hs : startStream env addr w with ⟨ret, v⟩
  rw [hs] at hstart
  have hwait := hstart.trans (sameDesk_waitFor env req v)
  simp only
  split
  · exact hstart
  · rcases hres : waitFor env req v with ⟨- | - | - | n, u⟩ <;> rw [hres] at hwait
    · exact (hwait.turn env).trans ⟨rfl, rfl, rfl, .same rfl⟩
    · exact hwait
    · exact hwait
    · simp only
      split
      · exact (hwait.turn env).trans ⟨rfl, rfl, rfl, .cons (n := .stopExpired _) rfl trivial⟩
      · exact (hwait.turn env).trans (sameDesk_giveUp env _)

theorem sameDesk_tryPass (env : Env) (addr req : Nat) (w : World) :
    SameDesk w (tryPass env addr req w).2 := by
  unfold tryPass
  split
  · exact sameDesk_cdDoStartBuffering env req w
  · exact sameDesk_cdDoStopBuffering env addr req w
  · exact SameDesk.refl w

theorem sameDesk_tryRead (env : Env) (addr req fuel : Nat) (w : World) :
    SameDesk w (tryRead env addr req fuel w).2 :=
  tryRead_inv (P := SameDesk w) (fun _ hu => hu)
    (fun u hu => hu.trans (sameDesk_tryPass env addr req u))
    (fun u hu _ => hu.trans (sameDesk_tryPass env addr req u)) fuel (.refl w)

/-- The passes touch neither chunk nor sector registers. -/
theorem Pass.sameDesk {addr req k : Nat} {v : World} (h : Pass env addr req w k v) :
    SameDesk w v :=
  h.inv (fun u hu _ => hu.trans (sameDesk_tryPass env addr req u)) (.refl w)

/-! ### Copying -/

/-- What the copy leaves alone. -/
theorem cdCopyReadData_same (p : Int) (copySize req : Nat) (w : World) :
    ∃ chunk offset, cdCopyReadData p copySize req w
      = { w with cdChunkBuf := chunk, chOffset := offset } := by
  unfold cdCopyReadData
  simp only
  split
  · exact ⟨_, _, rfl⟩
  · exact ⟨_, _, rfl⟩

/-- Below `pBuff` the copy writes nothing. -/
theorem cdCopyReadData_below (p : Int) (copySize req : Nat) (w : World) {a : Int} (ha : a < p) :
    (cdCopyReadData p copySize req w).cdChunkBuf a = w.cdChunkBuf a := by
  have hrun : ∀ (m : Mem) (d s : Int) (n : Nat), p ≤ d →
      copyShorts m d w.sCDDIBuffer.pSingleBuf s n a = m a :=
    fun m d s n hd => blit_outside _ _ _ _ _ (.inl (by omega))
  unfold cdCopyReadData
  have hsame : ∀ chunk : Mem, (if req ≠ 0 then cdSetCHOffet copySize { w with cdChunkBuf := chunk }
      else { w with cdChunkBuf := chunk }).cdChunkBuf = chunk := by
    intro chunk
    split <;> rfl
  simp only [hsame]
  split
  · exact hrun _ _ _ _ le_rfl
  · split
    · split
      · exact (hrun _ _ _ _ (by omega)).trans (hrun _ _ _ _ le_rfl)
      · exact hrun _ _ _ _ le_rfl
    · rfl

/-- **`CD_ReadData` writes nothing below `pBuff`**; the sector registers stay,
and the reader does not move. -/
theorem cdReadData_below (env : Env) (fuel addr n : Nat) (p : Int) (w : World) :
    (∀ a, a < p → (cdReadData env fuel addr n p w).2.cdChunkBuf a = w.cdChunkBuf a) ∧
    (cdReadData env fuel addr n p w).2.gLastSector = w.gLastSector ∧
    (cdReadData env fuel addr n p w).2.gRequestSector = w.gRequestSector ∧
    Adds Note.InBuffer w (cdReadData env fuel addr n p w).2 := by
  have hcheck := sameDesk_checkBuffering env n w
  unfold cdReadData
  rcases hc : checkBuffering env n w with ⟨req, c⟩
  rw [hc] at hcheck
  have htry := hcheck.trans (sameDesk_tryRead env addr req fuel c)
  simp only at htry ⊢
  rcases ht : tryRead env addr req fuel c with ⟨- | lres, u⟩ <;> rw [ht] at htry
  · exact ⟨fun a _ => congrFun htry.chunk a, htry.lastSector, htry.requestSector, htry.notes⟩
  · simp only at htry ⊢
    split
    · have hturn : SameDesk w ((yield env u).note (.copied (wantSampleSize n)
          (singleBufferDataAvailable (yield env u).sCDDIBuffer))) :=
        (htry.turn env).trans ⟨rfl, rfl, rfl, .cons rfl trivial⟩
      obtain ⟨chunk, offset, hcopy⟩ := cdCopyReadData_same p (wantSampleSize n * 2) req
        ((yield env u).note (.copied (wantSampleSize n)
          (singleBufferDataAvailable (yield env u).sCDDIBuffer)))
      -- the copy writes from `pBuff` on
      refine ⟨fun a ha => ?_, ?_, ?_, ?_⟩
      · exact (cdCopyReadData_below _ _ _ _ ha).trans (congrFun hturn.chunk a)
      · rw [hcopy]
        exact hturn.lastSector
      · rw [hcopy]
        exact hturn.requestSector
      · rw [hcopy]
        exact hturn.notes
    · exact ⟨fun a _ => congrFun htry.chunk a, htry.lastSector, htry.requestSector, htry.notes⟩

/-- The state in which `CD_CopyReadData` is called, `u` being the one in which
the buffering ends. -/
def copyState (env : Env) (n : Nat) (u : World) : World :=
  (yield env u).note
    (.copied (wantSampleSize n) (singleBufferDataAvailable (yield env u).sCDDIBuffer))

/-- `CD_ReadData` after a buffering that succeeds. -/
theorem cdReadData_of_some (env : Env) (fuel addr n : Nat) (p : Int) {w : World} {r : Int}
    (h : (tryRead env addr (checkBuffering env n w).1 fuel (checkBuffering env n w).2).1
      = some r) (hpos : 0 ≤ r) :
    cdReadData env fuel addr n p w = (some ((wantSampleSize n : Int) * 4),
      cdCopyReadData p (2 * wantSampleSize n) (checkBuffering env n w).1 (copyState env n
        (tryRead env addr (checkBuffering env n w).1 fuel (checkBuffering env n w).2).2)) := by
  have hwant := wantSampleSize_le n
  unfold cdReadData
  rcases hc : checkBuffering env n w with ⟨req, c⟩
  rw [hc] at h
  rcases ht : tryRead env addr req fuel c with ⟨res, u⟩
  rw [ht] at h
  obtain rfl : res = some r := h
  simp only [ht, ge_iff_le, if_pos hpos]
  rw [s32_of_lt (by omega) (by omega), Nat.mul_comm (wantSampleSize n) 2]
  push_cast
  rfl

/-- `CD_ReadData` after a buffering that fails or does not end. -/
theorem cdReadData_of_fail (env : Env) (fuel addr n : Nat) (p : Int) {w : World}
    (h : ∀ lres, (tryRead env addr (checkBuffering env n w).1 fuel
      (checkBuffering env n w).2).1 = some lres → lres < 0) :
    cdReadData env fuel addr n p w
      = tryRead env addr (checkBuffering env n w).1 fuel (checkBuffering env n w).2 := by
  unfold cdReadData
  rcases hc : checkBuffering env n w with ⟨req, c⟩
  rw [hc] at h
  rcases ht : tryRead env addr req fuel c with ⟨- | lres, u⟩
  · simp only [ht]
  · rw [ht] at h
    have hneg : lres < 0 := h lres rfl
    simp only [ht]
    rw [if_neg (by omega)]

/-- **A read that succeeds** has buffered, and then copied. -/
theorem cdReadData_buffered (env : Env) (fuel addr n : Nat) (p : Int) {w : World} {v : Int}
    (hv : (cdReadData env fuel addr n p w).1 = some v) (hpos : 0 < v) :
    ∃ r, (tryRead env addr (checkBuffering env n w).1 fuel (checkBuffering env n w).2).1 = some r ∧
      0 ≤ r ∧ cdReadData env fuel addr n p w = (some ((wantSampleSize n : Int) * 4),
        cdCopyReadData p (2 * wantSampleSize n) (checkBuffering env n w).1 (copyState env n
          (tryRead env addr (checkBuffering env n w).1 fuel (checkBuffering env n w).2).2)) := by
  by_cases hfail : ∀ lres, (tryRead env addr (checkBuffering env n w).1 fuel
      (checkBuffering env n w).2).1 = some lres → lres < 0
  · rw [cdReadData_of_fail env fuel addr n p hfail] at hv
    exact absurd hpos (not_lt.mpr (hfail v hv).le)
  · push Not at hfail
    obtain ⟨lres, hres, hlres⟩ := hfail
    exact ⟨lres, hres, hlres, cdReadData_of_some env fuel addr n p hres hlres⟩

/-- It reports what it asked for. -/
theorem cdReadData_value (env : Env) (fuel addr n : Nat) (p : Int) {w : World} {v : Int}
    (hv : (cdReadData env fuel addr n p w).1 = some v) (hpos : 0 < v) :
    v = (wantSampleSize n : Int) * 4 := by
  obtain ⟨_, -, -, hrun⟩ := cdReadData_buffered env fuel addr n p hv hpos
  rw [hrun] at hv
  exact (Option.some.inj hv).symm

/-- A read that ends either fails or reports what it asked for. -/
theorem cdReadData_ne_zero (env : Env) {fuel addr n : Nat} {p v : Int} {w w' : World}
    (h : cdReadData env fuel addr n p w = (some v, w')) : v ≠ 0 := by
  have hle := wantSampleSize_le n
  have hpos := wantSampleSize_pos n
  unfold cdReadData at h
  rcases hc : checkBuffering env n w with ⟨req, c⟩
  rw [hc] at h
  rcases ht : tryRead env addr req fuel c with ⟨- | lres, u⟩ <;> simp only [ht] at h
  · exact absurd h nofun
  · split at h
    next =>
      rw [← Option.some.inj (Prod.mk.inj h).1, s32_of_lt (by omega) (by omega)]
      omega
    next hneg =>
      rw [← Option.some.inj (Prod.mk.inj h).1]
      omega

/-- The byte at offset `i` of the window that starts at the read pointer. -/
def SingleBufferState.windowByte (b : SingleBufferState) (i : Int) : Cell :=
  b.pSingleBuf ((4 * b.lReadPtr + i) % (4 * b.lLength))

/-- **`CD_CopyReadData` copies the window.**  If the ring holds the `n`
samples it is asked for, the chunk receives them in order, whether or not
they wrap, and nothing else of it changes. -/
theorem cdCopyReadData_window (p : Int) {n : Nat} (req : Nat) {w : World}
    (hring : RingOk w.sCDDIBuffer) (hpos : 0 < n)
    (hn : (n : Int) ≤ singleBufferDataAvailable w.sCDDIBuffer) :
    (cdCopyReadData p (2 * n) req w).cdChunkBuf
      = fun a => if p ≤ a ∧ a < p + 4 * n then w.sCDDIBuffer.windowByte (a - p)
          else w.cdChunkBuf a := by
  have h₁ := hring.inside.readNonneg
  have h₂ := hring.inside.readLt
  have h₃ := hring.inside.writeNonneg
  have h₄ := hring.inside.writeLt
  have hL := hring.length
  have hchunk : (cdCopyReadData p (2 * n) req w).cdChunkBuf =
      if w.sCDDIBuffer.lWritePtr > w.sCDDIBuffer.lReadPtr then
        copyShorts w.cdChunkBuf p w.sCDDIBuffer.pSingleBuf (4 * w.sCDDIBuffer.lReadPtr) (2 * n)
      else if w.sCDDIBuffer.lWritePtr < w.sCDDIBuffer.lReadPtr then
        if 2 * n > u32 ((w.sCDDIBuffer.lLength - w.sCDDIBuffer.lReadPtr) * 2) then
          copyShorts
            (copyShorts w.cdChunkBuf p w.sCDDIBuffer.pSingleBuf (4 * w.sCDDIBuffer.lReadPtr)
              (u32 ((w.sCDDIBuffer.lLength - w.sCDDIBuffer.lReadPtr) * 2)))
            (p + 2 * u32 ((w.sCDDIBuffer.lLength - w.sCDDIBuffer.lReadPtr) * 2))
            w.sCDDIBuffer.pSingleBuf 0
            (2 * n - u32 ((w.sCDDIBuffer.lLength - w.sCDDIBuffer.lReadPtr) * 2))
        else
          copyShorts w.cdChunkBuf p w.sCDDIBuffer.pSingleBuf (4 * w.sCDDIBuffer.lReadPtr) (2 * n)
      else w.cdChunkBuf := by
    unfold cdCopyReadData
    simp only
    split <;> rfl
  rw [hchunk]
  generalize w.sCDDIBuffer = b at *
  unfold singleBufferDataAvailable at hn
  -- a straight run of bytes that stays below the end of the ring
  have hstraight : ∀ a : Int, p ≤ a → a < p + 4 * n → 4 * b.lReadPtr + (a - p) < 4 * b.lLength →
      b.pSingleBuf (4 * b.lReadPtr + (a - p)) = b.windowByte (a - p) := by
    intro a ha _ hlt
    unfold SingleBufferState.windowByte
    rw [Int.emod_eq_of_lt (by omega) hlt]
  rcases lt_trichotomy b.lWritePtr b.lReadPtr with hlt | heq | hgt
  · rw [if_neg (by omega)] at hn
    rw [if_neg (by omega), if_pos hlt]
    have hrest : (u32 ((b.lLength - b.lReadPtr) * 2) : Int) = (b.lLength - b.lReadPtr) * 2 :=
      u32_of_lt (by omega) (by omega)
    generalize u32 ((b.lLength - b.lReadPtr) * 2) = rest at hrest ⊢
    funext a
    split
    next hwrap =>
      -- two runs: up to the end of the ring, then from its start
      unfold copyShorts
      by_cases hin : p ≤ a ∧ a < p + 4 * n
      · rw [if_pos hin]
        by_cases hfirst : a < p + 2 * rest
        · rw [blit_outside _ _ _ _ _ (by omega),
            blit_inside _ _ _ _ _ hin.1 (by push_cast; omega)]
          exact hstraight a hin.1 hin.2 (by omega)
        · rw [blit_inside _ _ _ _ _ (by omega) (by push_cast; omega)]
          unfold SingleBufferState.windowByte
          congr 1
          rw [← Int.sub_emod_right, Int.emod_eq_of_lt (by omega) (by omega)]
          omega
      · rw [if_neg hin, blit_outside _ _ _ _ _ (by push_cast; omega),
          blit_outside _ _ _ _ _ (by push_cast; omega)]
    next hfits =>
      unfold copyShorts
      by_cases hin : p ≤ a ∧ a < p + 4 * n
      · rw [if_pos hin, blit_inside _ _ _ _ _ hin.1 (by push_cast; omega)]
        exact hstraight a hin.1 hin.2 (by omega)
      · rw [if_neg hin, blit_outside _ _ _ _ _ (by push_cast; omega)]
  · rw [if_pos (by omega)] at hn
    omega
  · rw [if_pos (by omega)] at hn
    rw [if_pos hgt]
    funext a
    unfold copyShorts
    by_cases hin : p ≤ a ∧ a < p + 4 * n
    · rw [if_pos hin, blit_inside _ _ _ _ _ hin.1 (by push_cast; omega)]
      exact hstraight a hin.1 hin.2 (by omega)
    · rw [if_neg hin, blit_outside _ _ _ _ _ (by push_cast; omega)]

/-- A byte of the window, after the copy. -/
theorem cdCopyReadData_cell (p : Int) {n : Nat} (req : Nat) {w : World}
    (hring : RingOk w.sCDDIBuffer) (hn : (n : Int) ≤ singleBufferDataAvailable w.sCDDIBuffer)
    {i : Int} (h₀ : 0 ≤ i) (h₁ : i < 4 * n) :
    (cdCopyReadData p (2 * n) req w).cdChunkBuf (p + i) = w.sCDDIBuffer.windowByte i := by
  rw [cdCopyReadData_window p req hring (by omega) hn]
  show (if p ≤ p + i ∧ p + i < p + 4 * n then w.sCDDIBuffer.windowByte (p + i - p)
    else w.cdChunkBuf (p + i)) = _
  rw [if_pos (by omega), add_sub_cancel_left]

end CdPlayer
