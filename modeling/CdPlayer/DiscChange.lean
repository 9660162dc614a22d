/-
CdPlayer/DiscChange.lean

What is decoded after a disc has been changed.

Neither the eject nor the mount touches the ring, the status words or the
sector registers.  A driver that was streaming goes on streaming, and if
the next call asks for a sector that the old registers call near, it is
served from what was left in the ring (`oldDisc_served`).

What goes right: a new stream begins with an empty ring, so that it serves
only what came after it (`renewed_startStream`).  Thus all depends on the
entries of `CD_Do_StartBuffering`; where each of them finds only samples
younger than the mount (`Note.ServesAfter`), only such samples are decoded.

Main result: `decodes_after_mount`.
-/
import CdPlayer.Budget
import CdPlayer.Deck
import CdPlayer.Eject

namespace CdPlayer

open ByteStore Run

variable {env : Env} {codec : Codec} {w w' : World} {t : Nat}

/-! ### The clock -/

/-- A time that is past stays past. -/
theorem turnsKeep_past (env : Env) (t : Nat) : TurnsKeep env fun u => t < u.now where
  turn := fun u h => lt_of_lt_of_le h (frame_yield env u).now
  own := by
    intro u v h hsame
    have hnow : v.now = u.now := congrArg Outer.now hsame
    rw [hnow]
    exact h

/-- The mount that has followed a disc change is past. -/
def DiscPast (w : World) : Prop := ∀ t, w.discAt = some t → t < w.now

/-- No message is a mount. -/
theorem nlRecvMsg_discAt (m : NlMsg) (w : World) : (nlRecvMsg m w).discAt = w.discAt := by
  by_cases hU : m.nlmsgData 0 = charU
  · rw [nlRecvMsg_eject w hU]
    rfl
  · by_cases hS : m.nlmsgData 0 = charS
    · rw [nlRecvMsg_seek w hS]
    · rw [nlRecvMsg_toc w hU hS]

/-- An event takes one unit of time, and only the mount that follows a disc
change is recorded. -/
theorem handle_discAt (w : World) (e : Event) : (handle w e).now = w.now + 1 ∧
    ((handle w e).discAt = w.discAt ∨ (handle w e).discAt = some w.now) := by
  -- the tick adds one to the clock, so only the part before it matters
  have hsame : ∀ u : World, u.now = w.now → (u.discAt = w.discAt ∨ u.discAt = some w.now) →
      u.tick.now = w.now + 1 ∧ (u.tick.discAt = w.discAt ∨ u.tick.discAt = some w.now) :=
    fun u hnow hdisc => ⟨congrArg (· + 1) hnow, hdisc⟩
  cases e with
  | dma block =>
    by_cases hon : w.cdifEnable = true
    · rw [handle, occur, if_pos hon]
      by_cases hL : w.sCDDIBuffer.lLength = 0
      · rw [cdifAdmaHandler_unset block hL]
        exact hsame _ rfl (.inl rfl)
      · rcases cdifAdmaHandler_cases block hL with ⟨heq, -⟩ | ⟨heq, -⟩
        · rw [heq]
          exact hsame _ rfl (.inl rfl)
        · rw [heq]
          exact hsame _ rfl (.inl rfl)
    · rw [handle, occur, if_neg hon]
      exact hsame w rfl (.inl rfl)
  | msg m =>
    have hnow := (sameRing_nlRecvMsg w m).now
    have hdisc := nlRecvMsg_discAt m w
    rw [handle, occur]
    split
    · exact hsame _ hnow (.inl hdisc)
    · exact hsame _ hnow (.inl hdisc)
  | mount =>
    obtain ⟨_, _, hw, hdisc⟩ := tcrReadTochdr_writes w
    rw [handle, occur, hw]
    exact hsame _ rfl hdisc

theorem discPast_handle (u : World) (e : Event) (h : DiscPast u) : DiscPast (handle u e) := by
  obtain ⟨hnow, hdisc⟩ := handle_discAt u e
  intro t ht
  rw [hnow]
  rcases hdisc with hsame | hmount
  · rw [hsame] at ht
    exact Nat.lt_succ_of_lt (h t ht)
  · rw [hmount] at ht
    obtain rfl := Option.some.inj ht
    exact Nat.lt_succ_self _

theorem turnsKeep_discPast (env : Env) : TurnsKeep env DiscPast where
  turn := fun u h => yield_inv discPast_handle (fun _ hv t ht => Nat.lt_succ_of_lt (hv t ht)) u h
  own := by
    intro u v h hsame t ht
    have hnow : v.now = u.now := congrArg Outer.now hsame
    have hdisc : v.discAt = u.discAt := congrArg Outer.discAt hsame
    rw [hnow]
    exact h t (hdisc ▸ ht)

/-- In every reachable state the last mount is past. -/
theorem Acts.discPast (h : Acts env World.initial w) : DiscPast w :=
  (turnsKeep_discPast env).acts h fun _ ht => absurd ht nofun

/-! ### Rings that have been emptied since -/

/-- All that is buffered is younger than `t`, and `t` is past. -/
structure Renewed (t : Nat) (w : World) : Prop where
  ring : FreshRing t w
  past : t < w.now

theorem Renewed.of_window (hring : RingOk w.sCDDIBuffer) (hwindow : FreshWindow t w.sCDDIBuffer)
    (hpast : t < w.now) : Renewed t w :=
  ⟨⟨hring, hwindow, fun _ => hpast⟩, hpast⟩

theorem Renewed.yield (h : Renewed t w) : Renewed t (yield env w) :=
  ⟨h.ring.yield, (turnsKeep_past env t).turn w h.past⟩

/-- What changes neither ring nor clock. -/
theorem Renewed.own (h : Renewed t w) (hring : w'.sCDDIBuffer = w.sCDDIBuffer)
    (hnow : w'.now = w.now) : Renewed t w' :=
  .of_window (hring ▸ h.ring.ring) (hring ▸ h.ring.window) (hnow ▸ h.past)

theorem renewed_enterStop (hring : RingOk w.sCDDIBuffer) (hpast : t < w.now) :
    Renewed t (enterStop env w) := by
  have hzero : FreshRing t (zeroPointers env (w.note (.enterStop w.cdifEnable))) :=
    freshRing_zeroPointers hring fun _ => hpast
  exact .of_window hzero.ring hzero.window ((turnsKeep_past env t).enterStop hpast)

theorem Renewed.cdSendMsf (msf : Nat) (h : Renewed t w) :
    Renewed t (CdPlayer.cdSendMsf env msf w).2 := by
  have hwait : Renewed t (waitForCompletion env (beginSeek msf w)).2 := by
    have hbegin : Renewed t (beginSeek msf w) := h.own rfl rfl
    have hturn : Renewed t (CdPlayer.yield env (beginSeek msf w)) := hbegin.yield
    unfold waitForCompletion
    simp only
    split
    · exact hturn.own rfl rfl
    · split
      · exact hturn
      · exact hturn
  unfold CdPlayer.cdSendMsf
  rcases hres : waitForCompletion env (beginSeek msf w) with ⟨ret, u⟩
  rw [hres] at hwait
  have hended : Renewed t (({ u with waiting := false } : World).note
      (.seekEnded ret u.cdifEnable)) := hwait.own rfl rfl
  simp only
  split
  · exact hended
  · exact hended.yield.yield.own rfl rfl

/-- **A stream that has been started anew** serves only what came after it. -/
theorem renewed_startStream (addr : Nat) (hring : RingOk w.sCDDIBuffer) (hpast : t < w.now) :
    Renewed t (startStream env addr w).2 := by
  have hsent : Renewed t (CdPlayer.cdSendMsf env addr (enterStop env w)).2 :=
    (renewed_enterStop hring hpast).cdSendMsf addr
  unfold startStream
  rcases hres : CdPlayer.cdSendMsf env addr (enterStop env w) with ⟨ret, u⟩
  rw [hres] at hsent
  simp only
  split
  · exact hsent
  · have hstart : Renewed t (cdSetBufferStatus .start u) := hsent.own rfl rfl
    exact hstart.yield.own rfl rfl

/-! ### The buffering functions -/

/-- `CD_Do_StartBuffering` is entered only over samples younger than `t`. -/
def Note.ServesAfter (t : Nat) : Note → Prop
  | .enterStart ring => FreshWindow t ring
  | _ => True

/-- No entry of `CD_Do_StartBuffering`. -/
def Note.Reseeks : Note → Prop
  | .enterStart _ => False
  | _ => True

instance : DecidablePred Note.Reseeks
  | .enterStart _ => inferInstanceAs (Decidable False)
  | .dma _ | .fullBranch _ | .enterStop _ | .seekSent _ | .seekEnded _ _ | .streamOn _ _
  | .stopExpired _ | .copied _ _ | .advance _ _ => inferInstanceAs (Decidable True)

theorem Note.Reseeks.servesAfter (t : Nat) : ∀ n : Note, n.Reseeks → n.ServesAfter t
  | .dma _, _ | .fullBranch _, _ | .enterStop _, _ | .seekSent _, _ | .seekEnded _ _, _
  | .streamOn _ _, _ | .stopExpired _, _ | .copied _ _, _ | .advance _ _, _ => trivial

theorem renewed_cdDoStartBuffering {req : Nat} (hreq : req < 262144)
    (hring : RingOk w.sCDDIBuffer) (hpast : t < w.now)
    (hserves : Adds (Note.ServesAfter t) w (cdDoStartBuffering env req w).2)
    (hpos : 0 ≤ (cdDoStartBuffering env req w).1) :
    Renewed t (cdDoStartBuffering env req w).2 := by
  have hnote : Adds Note.InBuffer w (enterStart w) := .cons (n := .enterStart w.sCDDIBuffer) rfl
    trivial
  have hrest := sameDesk_enterStart env req w
  -- the note of the entry shows the window, and it is served after `t`
  have henter : Renewed t (enterStart w) := by
    obtain ⟨l, hl, hwindow⟩ := (hserves.split hnote hrest.notes).1
    have hmem : Note.enterStart w.sCDDIBuffer ∈ l := by
      have hone : [Note.enterStart w.sCDDIBuffer] ++ w.notes = l ++ w.notes := hl
      rw [← List.append_cancel_right hone]
      exact List.mem_singleton.mpr rfl
    exact .of_window hring (hwindow _ hmem) hpast
  have hwait : Renewed t (waitFor env req (enterStart w)).2 :=
    waitFor_inv (fun _ hu => hu.yield) req henter
  rcases cdDoStartBuffering_cases env _ hreq w with
    ⟨hr, -⟩ | ⟨hr, -⟩ | ⟨hr, -⟩ | ⟨n, -, hr, -⟩ | ⟨hr, -⟩
  · rw [hr]
    exact hwait
  · rw [hr]
    exact hwait
  · rw [hr]
    exact hwait
  · rw [hr]
    exact hwait.yield
  · -- given up, and so not a result
    rw [hr] at hpos
    exact absurd hpos (by simp [giveUp])

theorem renewed_cdDoStopBuffering {req : Nat} (addr : Nat) (hreq : req < 262144)
    (hring : RingOk w.sCDDIBuffer) (hpast : t < w.now)
    (hpos : 0 ≤ (cdDoStopBuffering env addr req w).1) :
    Renewed t (cdDoStopBuffering env addr req w).2 := by
  have hstart : Renewed t (startStream env addr w).2 := renewed_startStream addr hring hpast
  have hwait : Renewed t (waitFor env req (startStream env addr w).2).2 :=
    waitFor_inv (fun _ hu => hu.yield) req hstart
  rcases cdDoStopBuffering_cases env hreq addr w with
    ⟨hr, hs⟩ | ⟨-, ⟨hr, -⟩ | ⟨hr, -⟩ | ⟨hr, -⟩ | ⟨n, -, hr, -⟩ | ⟨hr, -⟩⟩
  · rw [hr]
    exact hstart
  · rw [hr]
    exact hwait.yield.own rfl rfl
  · rw [hr]
    exact hwait
  · rw [hr]
    exact hwait
  · rw [hr]
    exact hwait.yield.own rfl rfl
  · rw [hr] at hpos
    exact absurd hpos (by simp [giveUp])

/-- **A pass that succeeds serves only what is younger than `t`.** -/
theorem renewed_tryRead {req addr : Nat} (hreq : req < 262144) (fuel : Nat)
    (hring : RingOk w.sCDDIBuffer) (hset : Settled w) (hready : StopReady w) (hpast : t < w.now)
    {lres : Int} (hres : (tryRead env addr req fuel w).1 = some lres) (hpos : 0 ≤ lres)
    (hserves : Adds (Note.ServesAfter t) w (tryRead env addr req fuel w).2) :
    Renewed t (tryRead env addr req fuel w).2 := by
  obtain ⟨k, v, hpass, hlast, -⟩ := tryRead_last hres
  have hsettled : Settled v := hpass.inv
    (fun _ _ htime => .inr (tryPass_timeOut_stop hreq htime).1) hset
  obtain ⟨hacts, -⟩ := hpass.acts hreq hready
  have hring' := hacts.ringOk hring
  have hpast' := (turnsKeep_past env t).acts hacts hpast
  rcases hsettled with hst | hst
  · rw [tryPass_start env addr req hst] at hlast
    have hdesk := sameDesk_cdDoStartBuffering env req v
    have hrenewed := @renewed_cdDoStartBuffering env v t req hreq hring' hpast'
    rw [hlast] at hdesk hrenewed
    exact hrenewed (hserves.split hpass.sameDesk.notes hdesk.notes).2 hpos
  · rw [tryPass_stop env addr req hst] at hlast
    have hrenewed := @renewed_cdDoStopBuffering env v t req addr hreq hring' hpast'
    rw [hlast] at hrenewed
    exact hrenewed hpos

/-- A read that succeeds leaves a ring in which all is younger than `t`. -/
theorem cdReadData_renewed (env : Env) (fuel addr n : Nat) (p : Int) (hring : RingOk w.sCDDIBuffer)
    (hset : Settled w) (hpast : t < w.now)
    (hserves : Adds (Note.ServesAfter t) w (cdReadData env fuel addr n p w).2) {v : Int}
    (hv : (cdReadData env fuel addr n p w).1 = some v) (hpos : 0 < v) :
    Renewed t (cdReadData env fuel addr n p w).2 := by
  have hcheck := checkBuffering_acts env n w
  have hready := checkBuffering_ready env n w
  have hreq := checkBuffering_lt env n w
  have hdesk := sameDesk_checkBuffering env n w
  obtain ⟨lres, hres, hlres, hrun⟩ := cdReadData_buffered env fuel addr n p hv hpos
  rw [hrun] at hserves ⊢
  have hdesk' := sameDesk_tryRead env addr (checkBuffering env n w).1 fuel
    (checkBuffering env n w).2
  have htry := @renewed_tryRead env _ t _ addr hreq fuel (hcheck.ringOk hring)
    (hcheck.settled hset) hready ((turnsKeep_past env t).acts hcheck hpast) lres hres hlres
  generalize tryRead env addr (checkBuffering env n w).1 fuel (checkBuffering env n w).2 = r
    at hserves hdesk' htry ⊢
  obtain ⟨_, _, hcopy⟩ := cdCopyReadData_same p (2 * wantSampleSize n)
    (checkBuffering env n w).1 (copyState env n r.2)
  rw [hcopy] at hserves ⊢
  -- the copy adds one note more
  have hcopied : Adds Note.InBuffer r.2 (copyState env n r.2) :=
    (sameDesk_yield env r.2).notes.trans (.cons rfl trivial)
  have hparts := (hserves.split hdesk.notes (hdesk'.notes.trans hcopied)).2
  exact (htry (hparts.split hdesk'.notes hcopied).1).yield.own rfl rfl

/-- **What a read fetches is younger than `t`.** -/
theorem cdReadData_fetches (env : Env) (fuel addr n : Nat) (p : Int) (hring : RingOk w.sCDDIBuffer)
    (hset : Settled w) (hpast : t < w.now)
    (hok : NotesHonest (cdReadData env fuel addr n p w).2)
    (hserves : Adds (Note.ServesAfter t) w (cdReadData env fuel addr n p w).2) {v : Int}
    (hv : (cdReadData env fuel addr n p w).1 = some v) (hpos : 0 < v) {i : Int} (h₀ : 0 ≤ i)
    (h₁ : i < v) : t < ((cdReadData env fuel addr n p w).2.cdChunkBuf (p + i)).tag := by
  have hrenewed := cdReadData_renewed env fuel addr n p hring hset hpast hserves hv hpos
  obtain ⟨req, u, hcopies, hring', hstock⟩ := cdReadData_copies env fuel addr n p hring hset
    hv hpos hok
  obtain ⟨_, _, hcopy⟩ := cdCopyReadData_same p (2 * wantSampleSize n) req u
  rw [hcopies] at hv hrenewed ⊢
  obtain rfl : (wantSampleSize n : Int) * 4 = v := Option.some.inj hv
  unfold Stocked at hstock
  have hwindow : FreshWindow t u.sCDDIBuffer := by
    have hfresh := hrenewed.ring.window
    rw [hcopy] at hfresh
    exact hfresh
  rw [cdCopyReadData_cell p req hring' hstock h₀ (by omega)]
  exact hwindow i h₀ (by omega)

/-! ### The scan -/

variable {fuel startAddr n : Nat} {s s' : Scan}

/-- The block that the next search finds, as it stands in the chunk. -/
def Scan.decoded (env : Env) (s : Scan) (i : Nat) : Cell :=
  s.world.cdChunkBuf (s.psCDBuff + s.matchOffset env + i)

/-- What is left of the last fetch is younger than `t`. -/
def NewData (t : Nat) (s : Scan) : Prop :=
  ∀ off size, lastFetch s.trace = some (off, size) →
    ∀ a, s.psCDBuff ≤ a → a < off + size → t < (s.world.cdChunkBuf a).tag

theorem NewData.decoded {w₀ : World} {off size : Int} (h : NewData t s)
    (hdata : OnData w₀ n off size s)
    (hmargin : s.psCDBuff + s.matchOffset env + 2352 ≤ off + size) {i : Nat} (hi : i < 2352) :
    t < (s.decoded env i).tag := by
  have hmatch : 0 ≤ s.matchOffset env := le_max_left _ _
  exact h off size hdata.fetch _ (by omega) (by omega)

theorem adds_tryReadStep (env : Env) (fuel startAddr n : Nat) (s : Scan) :
    Adds Note.InBuffer s.world (tryReadStep env fuel startAddr n s).world := by
  have hread := (cdReadData_below env fuel
    (u32 ((startAddr + s.usedSectNum : Nat) + cdGetDiffValue)) (u32 ((n : Int) - s.usedSectNum))
    s.pdCDBuff s.world).2.2.2
  unfold tryReadStep
  simp only
  split
  · exact hread
  · split
    · exact hread
    · exact hread

/-- From `TRY_READ`. -/
theorem newData_tryReadStep (hring : RingOk s.world.sCDDIBuffer) (hset : Settled s.world)
    (hpast : t < s.world.now)
    (hok : NotesHonest (tryReadStep env fuel startAddr n s).world)
    (hserves : Adds (Note.ServesAfter t) s.world (tryReadStep env fuel startAddr n s).world)
    (hlabel : (tryReadStep env fuel startAddr n s).label = .searchLbn) :
    NewData t (tryReadStep env fuel startAddr n s) := by
  have hread := @cdReadData_fetches s.world t env fuel
    (u32 ((startAddr + s.usedSectNum : Nat) + cdGetDiffValue)) (u32 ((n : Int) - s.usedSectNum))
    s.pdCDBuff hring hset hpast
  unfold tryReadStep at hok hserves hlabel ⊢
  simp only at hok hserves hlabel ⊢
  rcases hrun : cdReadData env fuel (u32 ((startAddr + s.usedSectNum : Nat) + cdGetDiffValue))
    (u32 ((n : Int) - s.usedSectNum)) s.pdCDBuff s.world with ⟨- | v, u⟩
  · rw [hrun] at hlabel
    exact absurd hlabel nofun
  · rw [hrun] at hok hserves hlabel hread
    simp only at hok hserves hlabel ⊢
    by_cases hneg : v ≤ 0
    · rw [if_pos hneg] at hlabel
      exact absurd hlabel nofun
    · rw [if_neg hneg] at hok hserves ⊢
      intro off size hfetch a h₀ h₁
      obtain ⟨rfl, rfl⟩ := Prod.mk.inj (Option.some.inj hfetch)
      have hcell := @hread hok hserves v rfl (by omega) (a - s.pdCDBuff)
        (sub_nonneg.mpr h₀) (by omega)
      rw [add_sub_cancel] at hcell
      exact hcell

/-- A search leaves the stamps before the scan pointer as they are. -/
theorem NewData.searchLbnStep {w₀ : World} {off size : Int} (h : NewData t s)
    (hdata : OnData w₀ n off size s) (hoff : off ≤ s.pdCDBuff) (hlabel : s.label = .searchLbn)
    (hmargin : s.psCDBuff + s.matchOffset env + 2352 ≤ off + size)
    (hlabel' : (searchLbnStep env codec startAddr n s).label = .searchLbn) :
    NewData t (searchLbnStep env codec startAddr n s) := by
  have hstep := hdata.searchLbnStep codec startAddr hoff hmargin
  have hcases := searchLbnStep_cases env codec startAddr n s hlabel
  generalize CdPlayer.searchLbnStep env codec startAddr n s = s' at hlabel' hstep hcases ⊢
  intro off' size' hfetch a h₀ h₁
  rw [hstep.fetch] at hfetch
  obtain ⟨rfl, rfl⟩ := Prod.mk.inj (Option.some.inj hfetch)
  rcases hcases with hp | ⟨pos, hd⟩
  · rw [hp.tags]
    exact h _ _ hdata.fetch a ((hp.scan hlabel').trans h₀) h₁
  · have hahead := hd.ahead
    have hscan : s'.psCDBuff = pos + 2352 := hd.scan
    rw [(hd.chunk_spec hdata.behind).2.2 a h₀]
    exact h _ _ hdata.fetch a (by omega) h₁

/-- At every search of a call. -/
theorem newData_scanAt (env : Env) (codec : Codec) {j k : Nat} (hw : Reachable env codec j w)
    (hpast : t < w.now) (hn : 1 ≤ n) (hn' : n ≤ 187) (startAddr : Nat)
    (hmargin : ∀ i < k, (passageAt env codec fuel startAddr n w i).WithinMargin env n
      (scanAt env codec fuel startAddr n w i))
    (hserves : ∀ i < k, Adds (Note.ServesAfter t) (scanAt env codec fuel startAddr n w i).world
      (scanAt env codec fuel startAddr n w (i + 1)).world)
    (hok : NotesHonest (scanAt env codec fuel startAddr n w k).world)
    (hlabel : (scanAt env codec fuel startAddr n w k).label = .searchLbn) :
    NewData t (scanAt env codec fuel startAddr n w k) := by
  induction k with
  | zero =>
    -- a call begins at `TRY_READ` or has returned
    have henter : (enterScan env startAddr w).label ≠ .searchLbn := by
      unfold enterScan
      simp only
      split
      · exact nofun
      · exact nofun
    exact absurd hlabel henter
  | succ k ih =>
    have hacts : Acts env World.initial (scanAt env codec fuel startAddr n w k).world :=
      hw.acts.scan codec fuel startAddr n k
    have hnow : t < (scanAt env codec fuel startAddr n w k).world.now :=
      (turnsKeep_past env t).acts (scan_acts env codec hw.ringOk fuel startAddr n k) hpast
    have hstep : Acts env (scanAt env codec fuel startAddr n w k).world
        (scanStep env codec fuel startAddr n (scanAt env codec fuel startAddr n w k)).world :=
      scanStep_acts env fuel startAddr n (hacts.ringOk ringOk_initial)
    have hadds := hserves k (by omega)
    rw [scanAt_succ] at hok hlabel hadds ⊢
    have hok' := hok.of_mem fun m hm => hstep.mem_notes hm
    have hmargin' := fun i (hi : i < k) => hmargin i (by omega)
    have hprev := ih hmargin' (fun i hi => hserves i (by omega)) hok'
    have hbudget := budget_scanAt env codec hw hn hn' startAddr hmargin'
    have hm := hmargin k (by omega)
    have hcounts := passageAt_counts env codec fuel startAddr n w k
    generalize scanAt env codec fuel startAddr n w k = s at *
    rcases hl : s.label with - | - | res | -
    · rw [scanStep_tryRead env codec hl] at hok hlabel hadds ⊢
      exact newData_tryReadStep (hacts.ringOk ringOk_initial) (hacts.settled (.inr rfl))
        hnow hok hadds hlabel
    · obtain ⟨off, size, hoff, hdata⟩ := hbudget.round hl
      rw [scanStep_searchLbn env codec hl] at hlabel ⊢
      exact (hprev hl).searchLbnStep hdata hoff hl (hdata.margin hcounts hl hm) hlabel
    · unfold scanStep at hlabel
      simp only [hl] at hlabel
      exact absurd hlabel nofun
    · unfold scanStep at hlabel
      simp only [hl] at hlabel
      exact absurd hlabel nofun

/-- **After a disc change only samples of the new disc are decoded**, as long
as `CD_Do_StartBuffering` is entered over such samples only: whatever the
call and wherever the registers stood before, the whole of every block that
it finds was received after the mount. -/
theorem decodes_after_mount (env : Env) (codec : Codec) {j k : Nat} (hw : Reachable env codec j w)
    (hdisc : w.discAt = some t) (hn : 1 ≤ n) (hn' : n ≤ 187) (startAddr : Nat)
    (hmargin : ∀ i ≤ k, (passageAt env codec fuel startAddr n w i).WithinMargin env n
      (scanAt env codec fuel startAddr n w i))
    (hserves : ∀ i < k, Adds (Note.ServesAfter t) (scanAt env codec fuel startAddr n w i).world
      (scanAt env codec fuel startAddr n w (i + 1)).world)
    (hok : NotesHonest (scanAt env codec fuel startAddr n w k).world)
    (hlabel : (scanAt env codec fuel startAddr n w k).label = .searchLbn) (b : Nat)
    (hb : b < 2352) : t < ((scanAt env codec fuel startAddr n w k).decoded env b).tag := by
  have hpast : t < w.now := hw.acts.discPast t hdisc
  have hmargin' := fun i (hi : i < k) => hmargin i hi.le
  have hnew := newData_scanAt env codec hw hpast hn hn' startAddr hmargin' hserves hok hlabel
  obtain ⟨off, size, -, hdata⟩ :=
    (budget_scanAt env codec hw hn hn' startAddr hmargin').round hlabel
  have hcounts := passageAt_counts env codec fuel startAddr n w k
  exact hnew.decoded hdata (hdata.margin hcounts hlabel (hmargin k le_rfl)) hb

/-! ### A disc that is changed between two reads -/

/-- A deck that holds sectors 150 and following.  Once the first of them has
been delivered, the disc is changed. -/
def changerDeck : Env := fun w =>
  if w.datacdEnable = false then ⟨[.mount], false, true⟩
  else if w.waiting then ⟨[answerTo w.seeks 1], false, true⟩
  else if w.cdifEnable ∧ w.dmaSince = 0 then ⟨nextBlocks (discFrom 150) 0 10, false, true⟩
  else if w.sCDDIBuffer.lReadPtr = 588 ∧ w.discAt = none then
    ⟨[ejectMessage 1, .mount], false, true⟩
  else .quiet

theorem changerDeck_kmalloc (w : World) : (changerDeck w).kmalloc = true := by
  unfold changerDeck
  split
  · rfl
  · split
    · rfl
    · split
      · rfl
      · split
        · rfl
        · rfl

/-- Sector 150 has been read into the chunk. -/
def oldLoaded : Scan := scanAt changerDeck plainCodec 1 150 1 (yield changerDeck World.initial) 1

/-- Sector 150 has been delivered. -/
def oldRead : Scan := headerStep changerDeck plainCodec 150 1 (oldLoaded.found changerDeck 0)

/-- The disc has been changed. -/
def changed : World := yield changerDeck oldRead.world

/-- Sector 151 has been read into the chunk. -/
def newLoaded : Scan := scanAt changerDeck plainCodec 1 151 1 changed 1

/-- Sector 151 has been delivered. -/
def newRead : Scan := headerStep changerDeck plainCodec 151 1 (newLoaded.found changerDeck 0)

/-- A block that begins where the scan stands is found there. -/
theorem matchOffset_zero (hkmalloc : (env s.world).kmalloc = true)
    (hsync : SyncAt s.world.cdChunkBuf s.psCDBuff) : s.matchOffset env = 0 := by
  have hmatch := matchOffset_eq hkmalloc le_rfl (by omega) hsync fun a h₀ h₁ => by omega
  exact hmatch.trans (sub_self _)

theorem scanStep_changerDeck {startAddr n : Nat} (s : Scan) (hlabel : s.label = .searchLbn)
    (hscan : s.psCDBuff = 0) (hsync : SyncAt s.world.cdChunkBuf 0)
    (hforce : (s.found changerDeck 0).world.cdDevForceStop = 0) :
    scanStep changerDeck plainCodec 1 startAddr n s
      = headerStep changerDeck plainCodec startAddr n (s.found changerDeck 0) := by
  rw [scanStep_searchLbn changerDeck plainCodec hlabel]
  exact searchLbnStep_found plainCodec startAddr n (changerDeck_kmalloc _) (by omega) (by omega)
    hsync (fun a h₀ h₁ => by omega) hforce

theorem oldRead_eq :
    scanAt changerDeck plainCodec 1 150 1 (yield changerDeck World.initial) 2 = oldRead := by
  rw [scanAt_succ]
  refine scanStep_changerDeck oldLoaded (by decide +kernel) (by decide +kernel) ?_
    (by decide +kernel)
  unfold SyncAt
  decide +kernel

theorem newRead_eq : scanAt changerDeck plainCodec 1 151 1 changed 2 = newRead := by
  rw [scanAt_succ]
  refine scanStep_changerDeck newLoaded (by decide +kernel) (by decide +kernel) ?_
    (by decide +kernel)
  unfold SyncAt
  decide +kernel

theorem changed_reachable : Reachable changerDeck plainCodec 1 changed := by
  have hread : Reachable changerDeck plainCodec 1
      (scanAt changerDeck plainCodec 1 150 1 (yield changerDeck World.initial) 2).world :=
    Reachable.init.turn.scan 150 1 2
  rw [oldRead_eq] at hread
  exact hread.turn

/-- Sector 10000 has been read into the chunk. -/
def farLoaded : Scan := scanAt changerDeck plainCodec 1 10000 1 changed 1

theorem farLoaded_serves : Adds (Note.ServesAfter (changed.discAt.getD 0))
    (enterScan changerDeck 10000 changed).world farLoaded.world := by
  have hlabel : (enterScan changerDeck 10000 changed).label = .tryRead := by decide +kernel
  have hadds : Adds Note.InBuffer (enterScan changerDeck 10000 changed).world farLoaded.world := by
    have hstep : farLoaded
        = tryReadStep changerDeck 1 10000 1 (enterScan changerDeck 10000 changed) :=
      scanStep_tryRead changerDeck plainCodec hlabel
    rw [hstep]
    exact adds_tryReadStep changerDeck 1 10000 1 _
  have hreseeks : Adds Note.Reseeks (enterScan changerDeck 10000 changed).world farLoaded.world :=
    hadds.take (by decide +kernel)
  exact hreseeks.mono (Note.Reseeks.servesAfter _)

theorem farLoaded_margin (i : Nat) (hi : i ≤ 1) :
    (passageAt changerDeck plainCodec 1 10000 1 changed i).WithinMargin changerDeck 1
      (scanAt changerDeck plainCodec 1 10000 1 changed i) := by
  intro hlabel
  rcases Nat.le_one_iff_eq_zero_or_eq_one.mp hi with rfl | rfl
  · revert hlabel
    decide +kernel
  · have hmatch : farLoaded.matchOffset changerDeck = 0 := by
      apply matchOffset_zero
      · exact changerDeck_kmalloc _
      · unfold SyncAt
        decide +kernel
    have hpassed : (passageAt changerDeck plainCodec 1 10000 1 changed 1).passed = 0 := by
      decide +kernel
    have hdelivered : (passageAt changerDeck plainCodec 1 10000 1 changed 1).delivered = 0 := by
      decide +kernel
    rw [hpassed, hdelivered]
    show 0 + farLoaded.matchOffset changerDeck ≤ 2352 * (11 + ((1 : Nat) - ((0 : Nat) : Int)))
    rw [hmatch]
    decide

/-- A far sector of the new disc is read from the new disc. -/
theorem decodes_after_mount_far :
    changed.discAt.getD 0 < (farLoaded.decoded changerDeck 0).tag :=
  decodes_after_mount changerDeck plainCodec changed_reachable (by decide +kernel) le_rfl
    (by decide) 10000 farLoaded_margin (fun i hi => by
      obtain rfl : i = 0 := by omega
      exact farLoaded_serves) (by decide +kernel) (by decide +kernel) 0 (by decide)

/-- **The old disc is served.**  Sector 151 of the new disc is asked for, and
what is decoded has been in the ring since before the change. -/
theorem oldDisc_served :
    ¬ ∀ (env : Env) (codec : Codec) (j fuel n k : Nat) (w : World) (t : Nat),
      Reachable env codec j w → w.discAt = some t → w.discOut = false → 1 ≤ n → n ≤ 187 →
      ∀ (startAddr : Nat) (res : Int),
        (scanAt env codec fuel startAddr n w k).result = some res → 0 < res →
        ∀ i < k, (scanAt env codec fuel startAddr n w i).label = .searchLbn →
          ∀ b < 2352, t < ((scanAt env codec fuel startAddr n w i).decoded env b).tag := by
  intro hall
  have hdecoded : changed.discAt.getD 0 < (newLoaded.decoded changerDeck 0).tag :=
    hall changerDeck plainCodec 1 1 1 2 changed (changed.discAt.getD 0) changed_reachable
      (by decide +kernel) (by decide +kernel) le_rfl (by decide) 151 2048
      (by rw [newRead_eq]; decide +kernel) (by decide) 1 (by decide) (by decide +kernel) 0
      (by decide)
  have hmatch : newLoaded.matchOffset changerDeck = 0 := by
    apply matchOffset_zero
    · exact changerDeck_kmalloc _
    · unfold SyncAt
      decide +kernel
  unfold Scan.decoded at hdecoded
  rw [hmatch] at hdecoded
  revert hdecoded
  decide +kernel

end CdPlayer
