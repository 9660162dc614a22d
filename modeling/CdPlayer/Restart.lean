/-
CdPlayer/Restart.lean

Reading from a deck that keeps up.

`Prompt env x` is what is assumed of the deck: it streams `x`, every seek
succeeds, and what is waited for while the CDIF is on arrives in time.  A
read then always ends with its data in the chunk.  Either the data came out
of the ring (`Steady`), or the driver stopped, sought and took it from the
beginning of a new stream (`Restarted`).

The pointers are zeroed with the CDIF off; `Stopped` is what holds then.

Main result: `cdReadData_prompt`.
-/
import CdPlayer.Forward

namespace CdPlayer

open ByteStore Run

variable {x : Nat → Nat → Stream} {env : Env} {w w' : World} {k : Nat}

/-! ### The deck -/

/-- The deck streams `x`, answers every seek with success and delivers in time
what the largest request waits for.  There is always memory. -/
structure Prompt (env : Env) (x : Nat → Nat → Stream) : Prop where
  obeys : env.Obeys (Streams x)
  kmalloc : ∀ w, (env w).kmalloc = true
  answers : ∀ msf w, (cdSendMsf env msf w).1 = 1
  arrives : ∀ w req, Flowing x w → w.cdifEnable = true → w.gCDErrorStatus ≠ .shock →
    req ≤ 117012 → (waitFor env req w).1 = .filled

/-! ### With the CDIF off -/

/-- The CDIF is off and no disc change is under way; `k` blocks have come
since the last seek. -/
structure Stopped (k : Nat) (w : World) : Prop where
  data : w.datacdEnable = true
  force : w.cdDevForceStop = 0
  off : w.cdifEnable = false
  dma : w.dmaSince = k

theorem Stopped.handle (w : World) (e : Event) (he : Streams x w e) (h : Stopped k w) :
    Stopped k (CdPlayer.handle w e) := by
  cases e with
  | dma block =>
    rw [CdPlayer.handle, occur, if_neg (by simp [h.off])]
    exact ⟨h.data, h.force, h.off, h.dma⟩
  | msg m =>
    obtain ⟨hdata, hforce⟩ := nlRecvMsg_flags he h.data h.force
    have hsame := sameRing_nlRecvMsg w m
    have hflags : Stopped k (nlRecvMsg m w) :=
      ⟨hdata, hforce, hsame.cdif.trans h.off, hsame.dma.trans h.dma⟩
    by_cases hS : m.nlmsgData 0 = charS
    · rw [CdPlayer.handle, occur, if_pos hS]
      exact ⟨hflags.data, hflags.force, hflags.off, hflags.dma⟩
    · rw [CdPlayer.handle, occur, if_neg hS]
      exact ⟨hflags.data, hflags.force, hflags.off, hflags.dma⟩
  | mount =>
    change Stopped k (tcrReadTochdr w).tick
    obtain ⟨_, _, hw, -⟩ := tcrReadTochdr_writes w
    rw [hw]
    exact ⟨rfl, rfl, h.off, h.dma⟩

theorem Stopped.yield (henv : env.Obeys (Streams x)) (h : Stopped k w) :
    Stopped k (CdPlayer.yield env w) :=
  henv.yield Stopped.handle (fun _ hu => ⟨hu.data, hu.force, hu.off, hu.dma⟩) h

/-- Fields that do not matter here. -/
theorem Stopped.own (h : Stopped k w) (hdata : w'.datacdEnable = w.datacdEnable)
    (hforce : w'.cdDevForceStop = w.cdDevForceStop) (hcdif : w'.cdifEnable = w.cdifEnable)
    (hdma : w'.dmaSince = w.dmaSince) : Stopped k w' :=
  ⟨hdata.trans h.data, hforce.trans h.force, hcdif.trans h.off, hdma.trans h.dma⟩

theorem Stopped.zeroPointers (henv : env.Obeys (Streams x)) (h : Stopped k w) :
    Stopped k (zeroPointers env w) := by
  have hwrite : Stopped k (zeroWritePtr (CdPlayer.yield env w)) :=
    (h.yield henv).own rfl rfl rfl rfl
  exact (hwrite.yield henv).own rfl rfl rfl rfl

/-- The seek starts the count anew. -/
theorem Stopped.cdSendMsf (henv : env.Obeys (Streams x)) (h : Stopped k w) (msf : Nat) :
    Stopped 0 (cdSendMsf env msf w).2 ∧ (cdSendMsf env msf w).2.seeks = w.seeks + 1 ∧
      (cdSendMsf env msf w).2.seekMsf = msf := by
  have hbegin : Stopped 0 (beginSeek msf w) := ⟨h.data, h.force, h.off, rfl⟩
  have hturn := hbegin.yield henv
  have hout := outside_yield env (beginSeek msf w)
  have hwait : Stopped 0 (waitForCompletion env (beginSeek msf w)).2 ∧
      (waitForCompletion env (beginSeek msf w)).2.seeks = w.seeks + 1 ∧
      (waitForCompletion env (beginSeek msf w)).2.seekMsf = msf := by
    unfold waitForCompletion
    simp only
    split
    · exact ⟨hturn.own rfl rfl rfl rfl, hout.seeks, hout.seekMsf⟩
    · split <;> exact ⟨hturn, hout.seeks, hout.seekMsf⟩
  unfold CdPlayer.cdSendMsf
  rcases hres : waitForCompletion env (beginSeek msf w) with ⟨ret, u⟩
  rw [hres] at hwait
  obtain ⟨hu, hseeks, hmsf⟩ := hwait
  have hend : Stopped 0 (({ u with waiting := false } : World).note
      (.seekEnded ret u.cdifEnable)) := hu.own rfl rfl rfl rfl
  have hout' := (outside_yield env (({ u with waiting := false } : World).note
    (.seekEnded ret u.cdifEnable))).trans (outside_yield env _)
  simp only
  split
  · exact ⟨hend, hseeks, hmsf⟩
  · exact ⟨((hend.yield henv).yield henv).own rfl rfl rfl rfl, hout'.seeks.trans hseeks,
      hout'.seekMsf.trans hmsf⟩

/-! ### The beginning of a stream -/

/-- What the driver is between two steps of a read. -/
structure Ready (x : Nat → Nat → Stream) (w : World) : Prop where
  flowing : Flowing x w
  noShock : w.gCDErrorStatus ≠ .shock
  calm : w.gCDErrorStatus = .bufFull → w.cdifEnable = false
  cnt : 0 ≤ w.researchCnt

theorem Frame.calm (h : Frame w w') (hw : w.gCDErrorStatus = .bufFull → w.cdifEnable = false)
    (hfull : w'.gCDErrorStatus = .bufFull) : w'.cdifEnable = false := by
  rcases h.errorCases with hsame | ⟨-, hoff⟩
  · exact h.cdif_off (hw (hsame ▸ hfull))
  · exact hoff

theorem Ready.yield (henv : env.Obeys (Streams x)) (h : Ready x w) :
    Ready x (CdPlayer.yield env w) where
  flowing := (h.flowing.yield henv).flowing
  noShock := (frame_yield env w).noShock h.noShock
  calm := (frame_yield env w).calm h.calm
  cnt := by rw [yield_researchCnt]; exact h.cnt

/-- The driver has stopped, sought `addr` and reads the new stream. -/
structure Restarted (x : Nat → Nat → Stream) (addr : Nat) (w w' : World) : Prop where
  ready : Ready x w'
  pos : w'.readerPos = 0
  seekMsf : w'.seekMsf = addr
  status : w'.gCDBufStatus = .start
  researchCnt : w'.researchCnt = 0
  lastSector : w'.gLastSector = w.gLastSector

theorem Restarted.turn {addr : Nat} (henv : env.Obeys (Streams x))
    (h : Restarted x addr w w') : Restarted x addr w (CdPlayer.yield env w') := by
  have hturn := h.ready.flowing.yield henv
  refine ⟨h.ready.yield henv, ?_, hturn.seekMsf.trans h.seekMsf,
    hturn.bufStatus.trans h.status, ?_, ?_⟩
  · have hpos := hturn.pos
    rw [h.pos] at hpos
    simpa using hpos
  · rw [yield_researchCnt]; exact h.researchCnt
  · rw [yield_gLastSector]; exact h.lastSector

theorem Restarted.desk {addr : Nat} (h : Restarted x addr w w') (chunk : Mem) (offset : Nat)
    (notes : List Note) :
    Restarted x addr w { w' with cdChunkBuf := chunk, chOffset := offset, notes := notes } := by
  obtain ⟨hflow, hpos⟩ := h.ready.flowing.congr
    (u := { w' with cdChunkBuf := chunk, chOffset := offset, notes := notes }) rfl
    h.ready.flowing.data h.ready.flowing.force id rfl rfl rfl
  exact ⟨⟨hflow, h.ready.noShock, h.ready.calm, h.ready.cnt⟩, hpos.trans h.pos, h.seekMsf,
    h.status, h.researchCnt, h.lastSector⟩

/-- An empty ring flows, whatever the stream. -/
theorem flowing_of_empty (hring : RingOk w.sCDDIBuffer)
    (hempty : singleBufferDataAvailable w.sCDDIBuffer = 0) (hdata : w.datacdEnable = true)
    (hforce : w.cdDevForceStop = 0) : Flowing x w where
  ring := hring
  data := hdata
  force := hforce
  room := fun _ => by
    rw [hring.spaceAvailable, hempty]
    decide
  bytes := fun i h₀ h₁ => by omega

/-- **The stream opens on an empty ring.** -/
theorem startStream_restarted (hdeck : Prompt env x) (h : Stopped k w)
    (hring : RingOk w.sCDDIBuffer) (addr : Nat) :
    (startStream env addr w).1 = 1 ∧ Flowing x (startStream env addr w).2 ∧
    (startStream env addr w).2.readerPos = 0 ∧
    (startStream env addr w).2.seekMsf = addr ∧
    (startStream env addr w).2.cdifEnable = true ∧
    (startStream env addr w).2.gCDErrorStatus = w.gCDErrorStatus ∧
    (startStream env addr w).2.gCDBufStatus = .start ∧
    (startStream env addr w).2.researchCnt = 0 := by
  have hret : (startStream env addr w).1 = 1 := by
    have hans := hdeck.answers addr (enterStop env w)
    unfold startStream
    rcases hres : cdSendMsf env addr (enterStop env w) with ⟨ret, u⟩
    rw [hres] at hans
    obtain rfl : ret = 1 := hans
    rfl
  have hopen : Opened w (startStream env addr w).2 := by
    rcases startStream_off env addr h.off with ⟨hneg, -⟩ | ⟨-, hopen⟩
    · rw [hret] at hneg
      exact absurd hneg (by decide)
    · exact hopen
  -- the flags and the bookkeeping, through the seek
  have henter : Stopped k (enterStop env w) :=
    (Stopped.zeroPointers hdeck.obeys (w := w.note _) (h.own rfl rfl rfl rfl)).own rfl rfl rfl rfl
  obtain ⟨hsought, -, hmsf⟩ := henter.cdSendMsf hdeck.obeys addr
  have hseek := cdSendMsf_frame env addr (enterStop env w)
  have hflags : (startStream env addr w).2.datacdEnable = true ∧
      (startStream env addr w).2.cdDevForceStop = 0 ∧
      (startStream env addr w).2.dmaSince = 0 ∧
      (startStream env addr w).2.seekMsf = addr ∧
      (startStream env addr w).2.researchCnt = 0 := by
    have hans := hdeck.answers addr (enterStop env w)
    unfold startStream
    rcases hres : cdSendMsf env addr (enterStop env w) with ⟨ret, u⟩
    rw [hres] at hans hsought hmsf hseek
    obtain rfl : ret = 1 := hans
    have hturn : Stopped 0 (yield env (cdSetBufferStatus .start u)) :=
      Stopped.yield hdeck.obeys (hsought.own rfl rfl rfl rfl)
    have hout := outside_yield env (cdSetBufferStatus .start u)
    exact ⟨hturn.data, hturn.force, hturn.dma, hout.seekMsf.trans hmsf,
      hout.researchCnt.trans hseek.researchCnt⟩
  obtain ⟨hdata, hforce, hdma, hmsf, hcnt⟩ := hflags
  have hempty : singleBufferDataAvailable (startStream env addr w).2.sCDDIBuffer = 0 := by
    rw [hopen.ring]
    exact dataAvailable_emptied _
  refine ⟨hret, flowing_of_empty (ringOk_startStream env addr hring) hempty hdata hforce, ?_,
    hmsf, hopen.cdif, hopen.error, hopen.status, hcnt⟩
  unfold World.readerPos
  rw [hempty, hdma]
  rfl

/-- What the wait keeps. -/
theorem waitFor_steady (henv : env.Obeys (Streams x)) (h : Flowing x w) (req : Nat) :
    Steady x 0 w (waitFor env req w).2 :=
  waitFor_inv (fun _ hu => hu.turn henv) req (Steady.refl h)

/-- **`CD_Do_StopBuffering` succeeds**: the driver reads a new stream. -/
theorem cdDoStopBuffering_restarted (hdeck : Prompt env x) (h : Stopped k w)
    (hring : RingOk w.sCDDIBuffer) (hshock : w.gCDErrorStatus ≠ .shock) (addr : Nat) {req : Nat}
    (hreq : req ≤ 117012) :
    ∃ u, cdDoStopBuffering env addr req w = (1, u) ∧ Restarted x addr w u ∧
      (req : Int) ≤ singleBufferDataAvailable u.sCDDIBuffer := by
  obtain ⟨hret, hflow, hpos, hmsf, hcdif, herr, hstatus, hcnt⟩ :=
    startStream_restarted hdeck h hring addr
  have hsame := sameDesk_startStream env addr w
  rcases hs : startStream env addr w with ⟨ret, v⟩
  rw [hs] at hret hflow hpos hmsf hcdif herr hstatus hcnt hsame
  simp only at hret hflow hpos hmsf hcdif herr hstatus hcnt hsame
  -- the deck is prompt: the samples come before the timer runs out
  have hfilled := hdeck.arrives v req hflow hcdif (by rw [herr]; exact hshock) hreq
  have hwait := waitFor_steady hdeck.obeys hflow req
  have hframe : Frame v (waitFor env req v).2 :=
    waitFor_inv (P := Frame v) (fun _ hu => hu.trans (frame_yield env _)) req (.refl v)
  have hhave := waitFor_filled hfilled
  have hrun : cdDoStopBuffering env addr req w
      = (1, cdSetErrorStatus .noProblem (yield env (waitFor env req v).2)) := by
    unfold cdDoStopBuffering
    rcases hw : waitFor env req v with ⟨exit, u⟩
    rw [hw] at hfilled
    simp only [hs, hw]
    rw [hret, if_neg (by decide)]
    obtain rfl : exit = .filled := hfilled
    rfl
  generalize (waitFor env req v).2 = u at *
  have hturn := hwait.turn hdeck.obeys
  have hlast : (yield env u).gLastSector = w.gLastSector :=
    (yield_gLastSector env u).trans (hframe.lastSector.trans hsame.lastSector)
  have hcnt' : (yield env u).researchCnt = 0 :=
    (yield_researchCnt env u).trans (hframe.researchCnt.trans hcnt)
  have hown : Steady x 0 v (cdSetErrorStatus .noProblem (yield env u)) :=
    hturn.own rfl rfl rfl rfl rfl rfl rfl rfl rfl
  refine ⟨_, hrun, ⟨⟨hown.flowing, nofun, nofun, hcnt'.ge⟩, ?_, hown.seekMsf.trans hmsf,
    hown.bufStatus.trans hstatus, hcnt', hlast⟩, ?_⟩
  · rw [hown.pos, hpos]
    rfl
  · have havail := (hwait.flowing.yield hdeck.obeys).avail
    have hu := hwait.flowing.ring.u32_dataAvailable
    change (req : Int) ≤ singleBufferDataAvailable (yield env u).sCDDIBuffer
    omega

/-! ### The rest of the stream -/

/-- The reader stays where it is in the stream. -/
structure Waited (x : Nat → Nat → Stream) (w w' : World) : Prop where
  steady : Steady x 0 w w'
  noShock : w'.gCDErrorStatus ≠ .shock
  calm : w'.gCDErrorStatus = .bufFull → w'.cdifEnable = false
  researchCnt : w'.researchCnt = w.researchCnt
  lastSector : w'.gLastSector = w.gLastSector

theorem Waited.refl (h : Ready x w) : Waited x w w :=
  ⟨Steady.refl h.flowing, h.noShock, h.calm, rfl, rfl⟩

theorem Waited.ready (h : Waited x w w') (hcnt : 0 ≤ w.researchCnt) : Ready x w' :=
  ⟨h.steady.flowing, h.noShock, h.calm, by rw [h.researchCnt]; exact hcnt⟩

theorem Waited.trans {u : World} (h : Waited x w w') (h' : Waited x w' u) : Waited x w u :=
  ⟨by simpa using h.steady.trans h'.steady, h'.noShock, h'.calm,
    h'.researchCnt.trans h.researchCnt, h'.lastSector.trans h.lastSector⟩

/-- What the copy changes. -/
theorem Waited.desk (h : Waited x w w') (chunk : Mem) (offset : Nat) (notes : List Note) :
    Waited x w { w' with cdChunkBuf := chunk, chOffset := offset, notes := notes } :=
  ⟨h.steady.own rfl rfl rfl rfl rfl rfl rfl rfl rfl, h.noShock, h.calm, h.researchCnt,
    h.lastSector⟩

theorem Waited.turn (henv : env.Obeys (Streams x)) (h : Waited x w w') :
    Waited x w (CdPlayer.yield env w') where
  steady := h.steady.turn henv
  noShock := (frame_yield env w').noShock h.noShock
  calm := (frame_yield env w').calm h.calm
  researchCnt := (yield_researchCnt env w').trans h.researchCnt
  lastSector := (yield_gLastSector env w').trans h.lastSector

/-- If the status says full, `req` samples are buffered. -/
def FullHas (req : Nat) (w : World) : Prop :=
  w.gCDErrorStatus = .bufFull → (req : Int) ≤ singleBufferDataAvailable w.sCDDIBuffer

/-- The interrupt reports a full buffer only when it nearly is. -/
theorem fullHas_handle {req : Nat} (hreq : req ≤ 2000000) (e : Event) (he : Streams x w e)
    (h : Flowing x w) (hfull : FullHas req w) : FullHas req (handle w e) := by
  have hsteady := h.handle w e he
  have havail := hsteady.avail
  have hring := hsteady.flowing.ring
  intro herr
  rcases handle_ring_cases h.ring e with ⟨-, -, hsame, -⟩ | ⟨block, -, -, -, -, hcases⟩
  · have hle := hfull (hsame ▸ herr)
    omega
  · rcases hcases with ⟨-, hsame, -⟩ | ⟨-, -, hspace⟩
    · have hle := hfull (hsame ▸ herr)
      omega
    · rw [hring.spaceAvailable] at hspace
      omega

theorem fullHas_yield {req : Nat} (hreq : req ≤ 2000000) (henv : env.Obeys (Streams x))
    (h : Flowing x w) (hfull : FullHas req w) :
    Flowing x (CdPlayer.yield env w) ∧ FullHas req (CdPlayer.yield env w) :=
  henv.yield (P := fun u => Flowing x u ∧ FullHas req u)
    (fun u e he hu => ⟨(hu.1.handle u e he).flowing, fullHas_handle hreq e he hu.1 hu.2⟩)
    (fun _ hu => ⟨hu.1.own rfl rfl rfl rfl rfl rfl rfl, hu.2⟩)
    ⟨h, hfull⟩

/-- The driver is stopped, with the CDIF off. -/
structure Halted (w w' : World) : Prop where
  stopped : Stopped w'.dmaSince w'
  ring : RingOk w'.sCDDIBuffer
  noShock : w'.gCDErrorStatus ≠ .shock
  status : w'.gCDBufStatus = .stop
  lastSector : w'.gLastSector = w.gLastSector

/-- Giving up with the CDIF off. -/
theorem Stopped.giveUp (henv : env.Obeys (Streams x)) (h : Stopped k w')
    (hring : RingOk w'.sCDDIBuffer) (hlast : w'.gLastSector = w.gLastSector) :
    Halted w (giveUp env w').2 := by
  have hmiss : Stopped k (cdSetBufferStatus .stop (cdSetErrorStatus .missSubq
      (CdPlayer.yield env w'))) := (h.yield henv).own rfl rfl rfl rfl
  have hturn := hmiss.yield henv
  have hframe := frame_yield env (cdSetBufferStatus .stop (cdSetErrorStatus .missSubq
    (CdPlayer.yield env w')))
  refine ⟨⟨hturn.data, hturn.force, rfl, rfl⟩, ?_, hframe.noShock nofun, hframe.bufStatus, ?_⟩
  · exact ringOk_yield env (ringOk_yield env hring)
  · exact hframe.lastSector.trans ((yield_gLastSector env w').trans hlast)

theorem cdDoStartBuffering_filled {req : Nat}
    (h : (waitFor env req (enterStart w)).1 = .filled) :
    (cdDoStartBuffering env req w).1 = 1 := by
  unfold cdDoStartBuffering
  rcases hw : waitFor env req (enterStart w) with ⟨exit, u⟩
  rw [hw] at h
  obtain rfl : exit = .filled := h
  rfl

/-- **`CD_Do_StartBuffering` serves from the ring or stops.** -/
theorem cdDoStartBuffering_prompt (hdeck : Prompt env x) (h : Ready x w) {req : Nat}
    (hreq : req ≤ 117012) (hfull : FullHas req w) :
    (∃ lres u, cdDoStartBuffering env req w = (lres, u) ∧ 0 ≤ lres ∧ Waited x w u ∧
      (req : Int) ≤ singleBufferDataAvailable u.sCDDIBuffer) ∨
    ∃ u, cdDoStartBuffering env req w = (bufferingTimeOut, u) ∧ Halted w u := by
  have hlarge : req ≤ 2000000 := by omega
  have hflow : Flowing x (enterStart w) := h.flowing.own rfl rfl rfl rfl rfl rfl rfl
  have henter : Waited x w (enterStart w) :=
    ⟨(Steady.refl h.flowing).own rfl rfl rfl rfl rfl rfl rfl rfl rfl, h.noShock, h.calm, rfl, rfl⟩
  have hwait : Waited x w (waitFor env req (enterStart w)).2 :=
    waitFor_inv (fun _ hu => hu.turn hdeck.obeys) req henter
  have hhas : Flowing x (waitFor env req (enterStart w)).2 ∧
      FullHas req (waitFor env req (enterStart w)).2 :=
    waitFor_inv (P := fun u => Flowing x u ∧ FullHas req u)
      (fun _ hu => fullHas_yield hlarge hdeck.obeys hu.1 hu.2) req ⟨hflow, hfull⟩
  rcases cdDoStartBuffering_cases env req (by omega) w with
    ⟨hr, hfilled⟩ | ⟨hr, hexit⟩ | ⟨hr, hexit⟩ | ⟨n, -, hr, -, herr⟩ | ⟨hr, herr⟩
  · refine .inl ⟨1, _, hr, by decide, hwait, ?_⟩
    have hle := waitFor_filled hfilled
    have hu := hwait.steady.flowing.ring.u32_dataAvailable
    omega
  · -- neither a shock nor a forced stop can break the wait
    exact absurd ((waitBuffered_broken _ _ _ _).1 hexit) hwait.noShock
  · exact absurd hwait.steady.flowing.force ((waitBuffered_broken _ _ _ _).2 hexit)
  · have hturn := fullHas_yield hlarge hdeck.obeys hhas.1 hhas.2
    exact .inl ⟨n, _, hr, Int.natCast_nonneg n, hwait.turn hdeck.obeys, hturn.2 herr⟩
  · -- the wait has starved, so the CDIF is off
    have hoff : w.cdifEnable = false := by
      rcases hon : w.cdifEnable with - | -
      · rfl
      · have hone := cdDoStartBuffering_filled
          (hdeck.arrives (enterStart w) req hflow hon h.noShock hreq)
        rw [hr] at hone
        exact absurd hone (by simp [giveUp])
    have hstart : Stopped w.dmaSince (enterStart w) :=
      ⟨h.flowing.data, h.flowing.force, hoff, rfl⟩
    have hstop : Stopped w.dmaSince (waitFor env req (enterStart w)).2 :=
      waitFor_inv (fun _ hu => hu.yield hdeck.obeys) req hstart
    have hturn : Waited x w (yield env (waitFor env req (enterStart w)).2) :=
      hwait.turn hdeck.obeys
    have hzero : Stopped w.dmaSince (zeroPointers env (yield env
        (waitFor env req (enterStart w)).2)) :=
      (hstop.yield hdeck.obeys).zeroPointers hdeck.obeys
    have hring := ringOk_zeroPointers env hturn.steady.flowing.ring
    have hsame := sameDesk_zeroPointers env (yield env (waitFor env req (enterStart w)).2)
    rw [hr]
    exact .inr ⟨_, rfl, hzero.giveUp hdeck.obeys hring
      (hsame.lastSector.trans hturn.lastSector)⟩

/-! ### A read -/

/-- Ready, and stopped with the CDIF off. -/
theorem Ready.halted (h : Ready x w') (hoff : w'.cdifEnable = false)
    (hst : w'.gCDBufStatus = .stop) (hlast : w'.gLastSector = w.gLastSector) : Halted w w' :=
  ⟨⟨h.flowing.data, h.flowing.force, hoff, rfl⟩, h.flowing.ring, h.noShock, hst, hlast⟩

theorem Ready.cdifOff (h : Ready x w') (hst : w'.gCDBufStatus = .stop)
    (hlast : w'.gLastSector = w.gLastSector) : Halted w (setCdifEnable false w') :=
  ⟨⟨h.flowing.data, h.flowing.force, rfl, rfl⟩, h.flowing.ring, h.noShock, hst, hlast⟩

theorem Ready.status (h : Ready x w) (s : BufStatus) : Ready x (cdSetBufferStatus s w) :=
  ⟨h.flowing.own rfl rfl rfl rfl rfl rfl rfl, h.noShock, h.calm, h.cnt⟩

theorem Ready.noProblem (h : Ready x w) : Ready x (cdSetErrorStatus .noProblem w) :=
  ⟨h.flowing.own rfl rfl rfl rfl rfl rfl rfl, nofun, nofun, h.cnt⟩

theorem Ready.note (h : Ready x w) (m : Note) : Ready x (w.note m) :=
  ⟨h.flowing.own rfl rfl rfl rfl rfl rfl rfl, h.noShock, h.calm, h.cnt⟩

/-- `CD_Set_StartBuffing` lets the stream go on, the gap being at most twenty
sectors, or stops. -/
theorem cdSetStartBuffing_prompt (henv : env.Obeys (Streams x)) (h : Ready x w) (gap : Int)
    {req : Nat} :
    0 ≤ gap ∧ gap ≤ 20 ∧ Waited x w (cdSetStartBuffing env gap req w) ∧
      FullHas req (cdSetStartBuffing env gap req w) ∨
    Halted w (cdSetStartBuffing env gap req w) := by
  have hone : Waited x w (yield env w) := (Waited.refl h).turn henv
  have htwo : Waited x w (yield env (yield env w)) := hone.turn henv
  unfold cdSetStartBuffing
  simp only
  split
  · have hstop : Ready x (yield env (cdSetBufferStatus .stop (yield env w))) :=
      ((hone.ready h.cnt).status .stop).yield henv
    have hframe := frame_yield env (cdSetBufferStatus .stop (yield env w))
    exact .inr (hstop.cdifOff hframe.bufStatus (hframe.lastSector.trans hone.lastSector))
  next hgap =>
    split
    next hbranch =>
      -- the branch finds the CDIF off, because the status says full
      have hoff := htwo.calm hbranch.1
      have hnoted : Ready x ((cdSetBufferStatus .stop (yield env (yield env w))).note
          (.fullBranch (yield env (yield env w)).cdifEnable)) :=
        ((htwo.ready h.cnt).status .stop).note _
      have hframe := frame_yield env ((cdSetBufferStatus .stop (yield env (yield env w))).note
        (.fullBranch (yield env (yield env w)).cdifEnable))
      have hquiet := (hnoted.yield henv).noProblem
      exact .inr (hquiet.halted (hframe.cdif_off hoff) hframe.bufStatus
        (hframe.lastSector.trans htwo.lastSector))
    next hbranch =>
      refine .inl ⟨by omega, by omega, htwo, fun hfull => ?_⟩
      have hu := hone.steady.flowing.ring.u32_dataAvailable
      have havail := (hone.steady.flowing.yield henv).avail
      have hge : ¬ u32 (singleBufferDataAvailable (yield env w).sCDDIBuffer) < req :=
        fun hlt => hbranch ⟨hfull, hlt⟩
      omega

/-- What the check before `TRY_READ` leaves. -/
theorem checkBuffering_prompt (henv : env.Obeys (Streams x)) (h : Ready x w)
    (hset : w.gCDBufStatus = .start ∨ w.gCDBufStatus = .stop) {n : Nat} (hn : n < 188) :
    (checkBuffering env n w).1 = 588 * (n + 12) ∧
    (w.gCDBufStatus = .start ∧ 0 ≤ s32 ((w.gRequestSector : Int) - w.gLastSector) ∧
      s32 ((w.gRequestSector : Int) - w.gLastSector) ≤ 20 ∧
      Waited x w (checkBuffering env n w).2 ∧
      FullHas (588 * (n + 12)) (checkBuffering env n w).2 ∨
    Halted w (checkBuffering env n w).2) := by
  unfold checkBuffering
  rcases hset with hst | hst
  · simp only [hst, wantSampleSize_eq hn, true_and]
    exact cdSetStartBuffing_prompt henv h _
  · simp only [hst, wantSampleSize_eq hn, true_and]
    have hframe := frame_yield env w
    exact .inr ((h.yield henv).cdifOff (hframe.bufStatus.trans hst) hframe.lastSector)

/-- **`TRY_READ` ends with the samples**: from the ring, or from a new stream. -/
theorem tryRead_prompt (hdeck : Prompt env x) (addr req : Nat) {fuel : Nat} (hreq : req ≤ 117012)
    (hfuel : 2 ≤ fuel) (h : w.gCDBufStatus = .start ∧ Ready x w ∧ FullHas req w ∨ Halted w w) :
    ∃ lres u, tryRead env addr req fuel w = (some lres, u) ∧ 0 ≤ lres ∧
      (req : Int) ≤ singleBufferDataAvailable u.sCDDIBuffer ∧
      (w.gCDBufStatus = .start ∧ Waited x w u ∨ Restarted x addr w u) := by
  have hstop : ∀ v fuel, Halted w v → ∃ lres u, tryRead env addr req (fuel + 1) v = (some lres, u) ∧
      0 ≤ lres ∧ (req : Int) ≤ singleBufferDataAvailable u.sCDDIBuffer ∧
      Restarted x addr w u := by
    intro v fuel hv
    obtain ⟨u, hrun, hu, havail⟩ := cdDoStopBuffering_restarted hdeck hv.stopped hv.ring hv.noShock
      addr hreq
    refine ⟨1, u, ?_, by decide, havail,
      { hu with lastSector := hu.lastSector.trans hv.lastSector }⟩
    unfold tryRead
    simp only [hv.status, hrun]
    rfl
  -- START may jump back once, and STOP then succeeds
  obtain ⟨fuel, rfl⟩ : ∃ k, fuel = k + 1 + 1 := ⟨fuel - 2, by omega⟩
  rcases h with ⟨hst, hready, hfull⟩ | hhalt
  · rcases cdDoStartBuffering_prompt hdeck hready hreq hfull with
      ⟨lres, u, hrun, hpos, hwait, havail⟩ | ⟨u, hrun, hhalt⟩
    · refine ⟨lres, u, ?_, hpos, havail, .inl ⟨hst, hwait⟩⟩
      unfold tryRead
      simp only [hst, hrun]
      rw [if_pos hpos]
    · obtain ⟨lres, v, hagain, hpos, havail, hv⟩ := hstop u fuel hhalt
      refine ⟨lres, v, ?_, hpos, havail, .inr hv⟩
      unfold tryRead
      simp only [hst, hrun]
      rw [if_neg (by decide), if_pos trivial]
      exact hagain
  · obtain ⟨lres, v, hrun, hpos, havail, hv⟩ := hstop w (fuel + 1) hhalt
    exact ⟨lres, v, hrun, hpos, havail, .inr hv⟩

/-- **Every read succeeds.**  What is placed in the chunk is the stream from
the reader on: either the stream has gone on, and the sector asked for is at
most twenty further on than the last one, or it is a new stream. -/
theorem cdReadData_prompt (hdeck : Prompt env x) (h : Ready x w)
    (hset : w.gCDBufStatus = .start ∨ w.gCDBufStatus = .stop) {n fuel : Nat} (hn : n < 188)
    (hfuel : 2 ≤ fuel) (addr : Nat) (p : Int) :
    ∃ w', cdReadData env fuel addr n p w = (some (2352 * ((n : Int) + 12)), w') ∧
      (w.gCDBufStatus = .start ∧ 0 ≤ s32 ((w.gRequestSector : Int) - w.gLastSector) ∧
        s32 ((w.gRequestSector : Int) - w.gLastSector) ≤ 20 ∧ Waited x w w' ∨
      Restarted x addr w w') ∧
      588 * ((n : Int) + 12) ≤ singleBufferDataAvailable w'.sCDDIBuffer ∧
      ∀ a, p ≤ a → a < p + 2352 * ((n : Int) + 12) →
        (w'.cdChunkBuf a).val = x w'.seeks w'.seekMsf (w'.readerPos + (a - p)) := by
  obtain ⟨hreq, hcheck⟩ := checkBuffering_prompt hdeck.obeys h hset hn
  have hready : (checkBuffering env n w).2.gCDBufStatus = .start ∧
      Ready x (checkBuffering env n w).2 ∧ FullHas (588 * (n + 12)) (checkBuffering env n w).2 ∨
      Halted (checkBuffering env n w).2 (checkBuffering env n w).2 := by
    rcases hcheck with ⟨hst, -, -, hwait, hfull⟩ | hhalt
    · exact .inl ⟨hwait.steady.bufStatus.trans hst, hwait.ready h.cnt, hfull⟩
    · exact .inr { hhalt with lastSector := rfl }
  obtain ⟨lres, u, hrun, hpos, havail, hcases⟩ :=
    tryRead_prompt hdeck addr (588 * (n + 12)) (by omega) hfuel hready
  have hread := cdReadData_of_some env fuel addr n p (w := w) (by rw [hreq, hrun]) hpos
  rw [hreq, hrun, wantSampleSize_eq hn] at hread
  have hval : ((588 * (n + 12) : Nat) : Int) * 4 = 2352 * ((n : Int) + 12) := by
    push_cast
    ring
  simp only [hval] at hread
  -- the copy, out of the state the buffering has left
  have hbuffered : Flowing x u ∧
      (w.gCDBufStatus = .start ∧ 0 ≤ s32 ((w.gRequestSector : Int) - w.gLastSector) ∧
        s32 ((w.gRequestSector : Int) - w.gLastSector) ≤ 20 ∧ Waited x w u ∨
      Restarted x addr w u) := by
    rcases hcheck with ⟨hst, h₁, h₂, hwait, -⟩ | hhalt
    · rcases hcases with ⟨-, hwait'⟩ | hre
      · exact ⟨hwait'.steady.flowing, .inl ⟨hst, h₁, h₂, hwait.trans hwait'⟩⟩
      · exact ⟨hre.ready.flowing,
          .inr { hre with lastSector := hre.lastSector.trans hwait.lastSector }⟩
    · rcases hcases with ⟨hst, -⟩ | hre
      · rw [hhalt.status] at hst
        exact absurd hst (by decide)
      · exact ⟨hre.ready.flowing,
          .inr { hre with lastSector := hre.lastSector.trans hhalt.lastSector }⟩
  obtain ⟨hflow, hcases⟩ := hbuffered
  have hturn := hflow.yield hdeck.obeys
  have hcopied : Flowing x (copyState env n u) :=
    hturn.flowing.own rfl rfl rfl rfl rfl rfl rfl
  have hmore := hturn.avail
  have hstock : ((588 * (n + 12) : Nat) : Int)
      ≤ singleBufferDataAvailable (copyState env n u).sCDDIBuffer := by
    change _ ≤ singleBufferDataAvailable (yield env u).sCDDIBuffer
    omega
  obtain ⟨hsteady, -, hbytes⟩ := hcopied.copied p (588 * (n + 12)) (588 * (n + 12)) (by omega)
    hstock
  refine ⟨_, hread, ?_, ?_, fun a h₁ h₂ => ?_⟩
  · obtain ⟨chunk, offset, hsame⟩ := cdCopyReadData_same p (2 * (588 * (n + 12)))
      (588 * (n + 12)) (copyState env n u)
    rw [hsame]
    rcases hcases with ⟨hst, h₁, h₂, hwait⟩ | hre
    · exact .inl ⟨hst, h₁, h₂, (hwait.turn hdeck.obeys).desk chunk offset _⟩
    · exact .inr ((hre.turn hdeck.obeys).desk chunk offset _)
  · have hkept := hsteady.avail
    omega
  · rw [hbytes a h₁ (by push_cast; omega), hsteady.seeks, hsteady.seekMsf, hsteady.pos]
    simp

end CdPlayer
