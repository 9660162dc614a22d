/-
CdPlayer/Actions.lean

The driver as a system of actions.

Most invariants of the driver are about the ring, the status words and the
CDIF, and most of the read path does not touch these.  `Act env` lists
what the read path and its surroundings can do to them, each with the
condition under which the code does it; `Acts env` is any sequence of such
actions.  Every function of the read path is a sequence of actions
(`cdReadData_acts`, `cdResearchFrame_acts`), so an invariant is shown once
for each action and then holds everywhere.

Two invariants are here: the ring keeps its shape (`Acts.ringOk`), and what
turns keep of the eject state and the clock, every run keeps
(`TurnsKeep.acts`).
-/
import CdPlayer.Pass

namespace CdPlayer

open Run

/-! ### Actions -/

/-- One action.  The parameters of `own` are the fields that belong to the
reading thread and that no invariant of the ring depends on. -/
inductive Act (env : Env) : World → World → Prop
  | turn (w : World) : Act env w (yield env w)
  | own (w : World) (last req : Nat) (diff : Int) (offset : Nat) (pickup : Bool) (cnt : Int)
      (chunk : Mem) :
      Act env w { w with
        gLastSector := last, gRequestSector := req, diffValue := diff, chOffset := offset
        pickupseek := pickup, researchCnt := cnt, cdChunkBuf := chunk }
  | stop (w : World) : Act env w (cdSetBufferStatus .stop w)
  | cdifOff (w : World) : Act env w (setCdifEnable false w)
  | filled (w : World) : Act env w (cdSetErrorStatus .noProblem w)
  /-- The buffer-full branch of `CD_Set_StartBuffing`. -/
  | fullBranch (w : World) (h : w.gCDErrorStatus = .bufFull) :
      Act env w (cdSetErrorStatus .noProblem
        (yield env ((cdSetBufferStatus .stop w).note (.fullBranch w.cdifEnable))))
  | enterStart (w : World) : Act env w (w.note (.enterStart w.sCDDIBuffer))
  /-- The timer of `CD_Do_StartBuffering` runs out. -/
  | startTimeOut (w : World) : Act env w (giveUp env (zeroPointers env w)).2
  /-- The timer of `CD_Do_StopBuffering` runs out. -/
  | stopTimeOut (w : World) : Act env w (giveUp env w).2
  /-- It does so with the status full. -/
  | stopExpired (w : World) (opened : ErrorStatus) : Act env w (w.note (.stopExpired opened))
  /-- `CD_Do_StopBuffering` up to its wait.  The CDIF is off, unless the
  buffer-full branch has been taken with the CDIF on. -/
  | seek (w : World) (addr : Nat) (h : w.cdifEnable = true → .fullBranch true ∈ w.notes) :
      Act env w (startStream env addr w).2
  | copied (w : World) (n : Int) :
      Act env w (w.note (.copied n (singleBufferDataAvailable w.sCDDIBuffer)))
  | advance (w : World) (n : Int) (hn : 0 ≤ n) (hle : n ≤ 2097152) :
      Act env w (updateReadPointer n w)

/-- Any number of actions. -/
abbrev Acts (env : Env) : World → World → Prop := Relation.ReflTransGen (Act env)

variable {env : Env} {w w' : World}

theorem Act.acts (h : Act env w w') : Acts env w w' := .single h

/-! ### The functions of the read path -/

theorem cdSetStartBuffing_acts (env : Env) (gap : Int) (req : Nat) (w : World) :
    Acts env w (cdSetStartBuffing env gap req w) := by
  unfold cdSetStartBuffing
  simp only
  split
  · exact (Act.turn w).acts.tail (.stop _) |>.tail (.turn _) |>.tail (.cdifOff _)
  · split
    next hfull => exact (Act.turn w).acts.tail (.turn _) |>.tail (.fullBranch _ hfull.1)
    next => exact (Act.turn w).acts.tail (.turn _)

theorem waitBuffered_acts (env : Env) (req : Nat) (t have_ : Nat) (w : World) :
    Acts env w (waitBuffered env req t have_ w).2 := by
  induction t generalizing have_ w with
  | zero =>
    unfold waitBuffered
    split
    · simp only
      split
      · exact (Act.turn w).acts
      · split
        · exact (Act.turn w).acts.tail (.turn _)
        · exact (Act.turn w).acts.tail (.turn _)
    · exact .refl
  | succ t ih =>
    unfold waitBuffered
    split
    · simp only
      split
      · exact (Act.turn w).acts
      · split
        · exact (Act.turn w).acts.tail (.turn _)
        · exact ((Act.turn w).acts.tail (.turn _) |>.tail (.turn _)).trans (ih _ _)
    · exact .refl

theorem waitFor_acts (env : Env) (req : Nat) (w : World) : Acts env w (waitFor env req w).2 :=
  (Act.turn w).acts.trans (waitBuffered_acts env ..)

theorem enterStart_acts (env : Env) (w : World) : Acts env w (enterStart w) :=
  (Act.own w _ _ _ _ false _ _).acts.tail (.enterStart _)

theorem cdDoStartBuffering_acts (env : Env) (req : Nat) (w : World) :
    Acts env w (cdDoStartBuffering env req w).2 := by
  have hpre := (enterStart_acts env w).trans (waitFor_acts env req (enterStart w))
  unfold cdDoStartBuffering
  rcases hwait : waitFor env req (enterStart w) with ⟨exit, u⟩
  rw [hwait] at hpre
  cases exit with
  | filled => exact hpre
  | shock => exact hpre
  | forceStop => exact hpre
  | expired have_ =>
    simp only
    split
    · exact hpre.tail (.turn u)
    · exact hpre.tail (.turn u) |>.tail (.startTimeOut _)

theorem cdDoStopBuffering_acts (env : Env) (addr req : Nat) {w : World}
    (h : w.cdifEnable = true → .fullBranch true ∈ w.notes) :
    Acts env w (cdDoStopBuffering env addr req w).2 := by
  have hpre : Acts env w (startStream env addr w).2 := (Act.seek w addr h).acts
  unfold cdDoStopBuffering
  rcases hstart : startStream env addr w with ⟨ret, u⟩
  rw [hstart] at hpre
  simp only
  split
  · exact hpre
  · have hwaits := hpre.trans (waitFor_acts env req u)
    rcases hwait : waitFor env req u with ⟨exit, v⟩
    rw [hwait] at hwaits
    cases exit with
    | filled => exact hwaits.tail (.turn v) |>.tail (.filled _)
    | shock => exact hwaits
    | forceStop => exact hwaits
    | expired have_ =>
      simp only
      split
      · exact hwaits.tail (.turn v) |>.tail (.stopExpired _ _)
      · exact hwaits.tail (.turn v) |>.tail (.stopTimeOut _)

/-- In status STOP the CDIF is off, unless the buffer-full branch has been
taken with the CDIF on: what `TRY_READ` relies on. -/
def StopReady (w : World) : Prop :=
  w.gCDBufStatus = .stop → w.cdifEnable = true → .fullBranch true ∈ w.notes

theorem stopReady_of_off (h : w.cdifEnable = false) : StopReady w :=
  fun _ hon => absurd hon (by rw [h]; decide)

theorem cdSetStartBuffing_ready (env : Env) (gap : Int) (req : Nat) {w : World}
    (h : w.gCDBufStatus = .start) : StopReady (cdSetStartBuffing env gap req w) := by
  unfold cdSetStartBuffing
  simp only
  split
  · exact stopReady_of_off rfl
  · split
    next =>
      -- the CDIF is on at the end only if it was on in the branch
      generalize yield env (yield env w) = u
      intro _ hon
      have hout := outside_yield env ((cdSetBufferStatus .stop u).note (.fullBranch u.cdifEnable))
      have hu : u.cdifEnable = true := hout.cdif hon
      refine hout.notes.mem ?_
      rw [hu]
      exact List.mem_cons_self
    next =>
      intro hstop
      simp [h] at hstop

theorem checkBuffering_acts (env : Env) (n : Nat) (w : World) :
    Acts env w (checkBuffering env n w).2 := by
  unfold checkBuffering
  simp only
  split
  · exact cdSetStartBuffing_acts env ..
  · exact (Act.turn w).acts.tail (.cdifOff _)
  · exact (Act.turn w).acts.tail (.cdifOff _)

theorem checkBuffering_ready (env : Env) (n : Nat) (w : World) :
    StopReady (checkBuffering env n w).2 := by
  unfold checkBuffering
  simp only
  split
  next h => exact cdSetStartBuffing_ready env _ _ h
  next => exact stopReady_of_off rfl
  next => exact stopReady_of_off rfl

/-! ### `CD_ReadData` and `CD_Research_Frame` -/

theorem tryPass_acts (env : Env) (addr req : Nat) {w : World} (h : StopReady w) :
    Acts env w (tryPass env addr req w).2 := by
  rcases hst : w.gCDBufStatus with - | - | - | -
  · unfold tryPass
    rw [hst]
  · rw [tryPass_start env addr req hst]
    exact cdDoStartBuffering_acts env req w
  · rw [tryPass_stop env addr req hst]
    exact cdDoStopBuffering_acts env addr req (h hst)
  · unfold tryPass
    rw [hst]

theorem tryPass_ready {addr req : Nat} (hreq : req < 262144) {w : World}
    (htime : (tryPass env addr req w).1 = bufferingTimeOut) :
    StopReady (tryPass env addr req w).2 :=
  stopReady_of_off (tryPass_timeOut_stop hreq htime).2

theorem tryRead_acts (env : Env) (addr : Nat) {req : Nat} (hreq : req < 262144) (fuel : Nat)
    {w : World}
    (h : StopReady w) : Acts env w (tryRead env addr req fuel w).2 :=
  tryRead_inv (P := fun u => Acts env w u ∧ StopReady u) (fun _ hu => hu.1)
    (fun _ hu => hu.1.trans (tryPass_acts env addr req hu.2))
    (fun _ hu htime => ⟨hu.1.trans (tryPass_acts env addr req hu.2), tryPass_ready hreq htime⟩)
    fuel ⟨.refl, h⟩

/-- The passes of a call are actions. -/
theorem Pass.acts {addr req k : Nat} {v : World} (hreq : req < 262144)
    (hpass : Pass env addr req w k v) (h : StopReady w) : Acts env w v ∧ StopReady v :=
  hpass.inv (P := fun u => Acts env w u ∧ StopReady u)
    (fun _ hu htime => ⟨hu.1.trans (tryPass_acts env addr req hu.2), tryPass_ready hreq htime⟩)
    ⟨.refl, h⟩

theorem cdCopyReadData_acts (env : Env) (p : Int) (copySize req : Nat) (w : World) :
    Acts env w (cdCopyReadData p copySize req w) := by
  unfold cdCopyReadData
  simp only
  split
  · exact (Act.own w _ _ _ _ _ _ _).acts
  · exact (Act.own w _ _ _ _ _ _ _).acts

/-- **`CD_ReadData` is a sequence of actions.** -/
theorem cdReadData_acts (env : Env) (fuel addr n : Nat) (p : Int) (w : World) :
    Acts env w (cdReadData env fuel addr n p w).2 := by
  have hcheck := checkBuffering_acts env n w
  have hready := checkBuffering_ready env n w
  have hreq := checkBuffering_lt env n w
  unfold cdReadData
  rcases hpre : checkBuffering env n w with ⟨req, u⟩
  rw [hpre] at hcheck hready hreq
  have htry := hcheck.trans (tryRead_acts env addr hreq fuel hready)
  simp only at htry ⊢
  rcases hres : tryRead env addr req fuel u with ⟨- | lres, v⟩
  · rw [hres] at htry
    exact htry
  · rw [hres] at htry
    simp only at htry ⊢
    split
    · exact ((htry.tail (.turn v)).tail (.copied _ _)).trans (cdCopyReadData_acts env ..)
    · exact htry

/-- `CD_Research_Frame` is a sequence of actions. -/
theorem cdResearchFrame_acts (env : Env) (addr : Nat) {w : World} (hring : RingOk w.sCDDIBuffer) :
    Acts env w (cdResearchFrame env addr w) := by
  have hreq : Acts env w (cdSetRequestSector addr w) := (Act.own w _ _ _ _ _ _ _).acts
  have hring' : RingOk (yield env (cdSetRequestSector addr w)).sCDDIBuffer :=
    ringOk_yield env (w := cdSetRequestSector addr w) hring
  have hlt := hring'.dataAvailable_lt
  have hu := hring'.u32_dataAvailable
  unfold cdResearchFrame
  simp only
  split
  · split
    next hge =>
      split
      next hgt =>
        simp only [cddaSampleSize] at hgt
        refine (hreq.tail (.turn _)).tail (.turn _) |>.tail (.advance _ _ ?_ ?_)
        · simp only [cddaSectorSize]
          omega
        · simp only [cddaSectorSize]
          omega
      next => exact (hreq.tail (.turn _)).tail (.stop _)
    · exact hreq
  · exact hreq

/-! ### First invariants -/

/-- What every action preserves, every sequence of actions preserves. -/
theorem Acts.inv {P : World → Prop} (hstep : ∀ a b, Act env a b → P a → P b)
    (h : Acts env w w') (hw : P w) : P w' :=
  reach_inv hstep h hw

theorem ringOk_zeroWritePtr {w : World} (h : RingOk w.sCDDIBuffer) :
    RingOk (zeroWritePtr w).sCDDIBuffer where
  inside :=
    { h.inside with
      writeNonneg := le_rfl
      writeLt := lt_of_le_of_lt h.inside.writeNonneg h.inside.writeLt
      aligned := dvd_zero _ }
  length := h.length

theorem ringOk_zeroReadPtr {w : World} (h : RingOk w.sCDDIBuffer) :
    RingOk (zeroReadPtr w).sCDDIBuffer where
  inside :=
    { h.inside with
      readNonneg := le_rfl
      readLt := lt_of_le_of_lt h.inside.readNonneg h.inside.readLt }
  length := h.length

theorem ringOk_zeroPointers (env : Env) {w : World} (h : RingOk w.sCDDIBuffer) :
    RingOk (zeroPointers env w).sCDDIBuffer :=
  ringOk_zeroReadPtr (ringOk_yield env (ringOk_zeroWritePtr (ringOk_yield env h)))

theorem ringOk_cdSendMsf (env : Env) (msf : Nat) {w : World} (h : RingOk w.sCDDIBuffer) :
    RingOk (cdSendMsf env msf w).2.sCDDIBuffer := by
  have hwait : RingOk (waitForCompletion env (beginSeek msf w)).2.sCDDIBuffer := by
    have hy : RingOk (yield env (beginSeek msf w)).sCDDIBuffer := ringOk_yield env h
    unfold waitForCompletion
    simp only
    split
    · exact hy
    · split <;> exact hy
  unfold cdSendMsf
  rcases hres : waitForCompletion env (beginSeek msf w) with ⟨ret, u⟩
  rw [hres] at hwait
  simp only
  split
  · exact hwait
  · exact ringOk_yield env
      (ringOk_yield env (w := ({ u with waiting := false } : World).note _) hwait)

theorem ringOk_enterStop (env : Env) {w : World} (h : RingOk w.sCDDIBuffer) :
    RingOk (enterStop env w).sCDDIBuffer :=
  ringOk_zeroPointers env (w := w.note _) h

theorem ringOk_startStream (env : Env) (addr : Nat) {w : World} (h : RingOk w.sCDDIBuffer) :
    RingOk (startStream env addr w).2.sCDDIBuffer := by
  have hs := ringOk_cdSendMsf env addr (ringOk_enterStop env h)
  unfold startStream
  rcases hres : cdSendMsf env addr (enterStop env w) with ⟨ret, u⟩
  rw [hres] at hs
  simp only
  split
  · exact hs
  · exact ringOk_yield env (w := cdSetBufferStatus .start u) hs

theorem ringOk_act (a b : World) (hact : Act env a b) (h : RingOk a.sCDDIBuffer) :
    RingOk b.sCDDIBuffer := by
  cases hact with
  | turn => exact ringOk_yield env h
  | own => exact h
  | stop => exact h
  | cdifOff => exact h
  | filled => exact h
  | fullBranch _ => exact ringOk_yield env h
  | enterStart => exact h
  | startTimeOut =>
    exact ringOk_yield env (ringOk_yield env (w := zeroPointers env a) (ringOk_zeroPointers env h))
  | stopTimeOut => exact ringOk_yield env (ringOk_yield env h)
  | stopExpired => exact h
  | seek addr _ => exact ringOk_startStream env addr h
  | copied => exact h
  | advance n hn hle => exact h.advance hn hle

/-- **The ring keeps its shape.** -/
theorem Acts.ringOk (h : Acts env w w') (hw : RingOk w.sCDDIBuffer) : RingOk w'.sCDDIBuffer :=
  h.inv (P := fun u => RingOk u.sCDDIBuffer) ringOk_act hw

/-! ### What only turns change -/

/-- The eject state and the clock, which the thread never writes. -/
structure Outer where
  cdDevForceStop : Nat
  datacdEnable : Bool
  stateEject : Int
  now : Nat
  discOut : Bool
  discAt : Option Nat

def World.outer (w : World) : Outer :=
  ⟨w.cdDevForceStop, w.datacdEnable, w.stateEject, w.now, w.discOut, w.discAt⟩

/-- A property of the eject state and the clock that turns keep. -/
structure TurnsKeep (env : Env) (P : World → Prop) : Prop where
  turn : ∀ w, P w → P (yield env w)
  own : ∀ {w w'}, P w → w'.outer = w.outer → P w'

namespace TurnsKeep

variable {P : World → Prop}

theorem zeroPointers (h : TurnsKeep env P) (hw : P w) : P (CdPlayer.zeroPointers env w) := by
  have hwrite : P (zeroWritePtr (yield env w)) := h.own (h.turn w hw) rfl
  exact h.own (h.turn _ hwrite) rfl

theorem giveUp (h : TurnsKeep env P) (hw : P w) : P (CdPlayer.giveUp env w).2 := by
  have hstop : P (cdSetBufferStatus .stop (cdSetErrorStatus .missSubq (yield env w))) :=
    h.own (h.turn w hw) rfl
  exact h.own (h.turn _ hstop) rfl

theorem cdSendMsf (h : TurnsKeep env P) (msf : Nat) (hw : P w) :
    P (CdPlayer.cdSendMsf env msf w).2 := by
  have hwait : P (waitForCompletion env (beginSeek msf w)).2 := by
    have hturn : P (yield env (beginSeek msf w)) := h.turn _ (h.own hw rfl)
    unfold waitForCompletion
    simp only
    split
    · exact h.own hturn rfl
    · split
      · exact hturn
      · exact hturn
  unfold CdPlayer.cdSendMsf
  rcases hres : waitForCompletion env (beginSeek msf w) with ⟨ret, u⟩
  rw [hres] at hwait
  have hended : P (({ u with waiting := false } : World).note (.seekEnded ret u.cdifEnable)) :=
    h.own hwait rfl
  simp only
  split
  · exact hended
  · exact h.own (h.turn _ (h.turn _ hended)) rfl

theorem enterStop (h : TurnsKeep env P) (hw : P w) : P (CdPlayer.enterStop env w) := by
  have hnote : P (w.note (.enterStop w.cdifEnable)) := h.own hw rfl
  exact h.own (h.zeroPointers hnote) rfl

theorem startStream (h : TurnsKeep env P) (addr : Nat) (hw : P w) :
    P (CdPlayer.startStream env addr w).2 := by
  have hsent := h.cdSendMsf addr (h.enterStop hw)
  unfold CdPlayer.startStream
  rcases hres : CdPlayer.cdSendMsf env addr (CdPlayer.enterStop env w) with ⟨ret, u⟩
  rw [hres] at hsent
  simp only
  split
  · exact hsent
  · have hstart : P (cdSetBufferStatus .start u) := h.own hsent rfl
    exact h.own (h.turn _ hstart) rfl

theorem act (h : TurnsKeep env P) (a b : World) (hact : Act env a b) (ha : P a) : P b := by
  cases hact with
  | turn => exact h.turn a ha
  | own => exact h.own ha rfl
  | stop => exact h.own ha rfl
  | cdifOff => exact h.own ha rfl
  | filled => exact h.own ha rfl
  | fullBranch _ =>
    have hnote : P ((cdSetBufferStatus .stop a).note (.fullBranch a.cdifEnable)) :=
      h.own ha rfl
    exact h.own (h.turn _ hnote) rfl
  | enterStart => exact h.own ha rfl
  | startTimeOut => exact h.giveUp (h.zeroPointers ha)
  | stopTimeOut => exact h.giveUp ha
  | stopExpired => exact h.own ha rfl
  | seek addr _ => exact h.startStream addr ha
  | copied => exact h.own ha rfl
  | advance => exact h.own ha rfl

/-- **What turns keep, every run keeps.** -/
theorem acts (h : TurnsKeep env P) (hacts : Acts env w w') (hw : P w) : P w' :=
  hacts.inv h.act hw

end TurnsKeep

end CdPlayer
