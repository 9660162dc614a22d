/-
CdPlayer/Recovery.lean

After a call that has failed.

A call that returns `DECK_ERROR` or `KMP_ERROR` leaves the driver stopped.
Nothing is known of the ring then: the deck may have sent anything, and some
of it may still be buffered.  But the next call finds the STOP branch of
`TRY_READ`, which turns the CDIF off and empties the ring before it seeks,
and so a stopped driver (`AtStop`) reads a new stream as it does after a
mount.

Main result: `failed_call_heals`, that from then on every call is right if
the deck keeps up.
-/
import CdPlayer.Reads
import CdPlayer.Results

namespace CdPlayer

open ByteStore Run

variable {x : Nat → Nat → Stream} {env : Env} {codec : Codec}
variable {user : Nat → Nat → UInt8} {w : World}

/-! ### Stopped, whatever is in the ring -/

/-- The driver has stopped, and the disc is in. -/
structure AtStop (w : World) : Prop where
  ring : RingOk w.sCDDIBuffer
  data : w.datacdEnable = true
  force : w.cdDevForceStop = 0
  noShock : w.gCDErrorStatus ≠ .shock
  status : w.gCDBufStatus = .stop

/-- A deck that streams keeps the disc in. -/
theorem AtStop.flags (w : World) (e : Event) (he : Streams x w e) (h : AtStop w) :
    (handle w e).datacdEnable = true ∧ (handle w e).cdDevForceStop = 0 := by
  cases e with
  | dma block =>
    rw [handle, occur]
    split
    · rcases cdifAdmaHandler_cases block h.ring.ne_zero with ⟨heq, -⟩ | ⟨heq, -⟩
      · rw [heq]
        exact ⟨h.data, h.force⟩
      · rw [heq]
        exact ⟨h.data, h.force⟩
    · exact ⟨h.data, h.force⟩
  | msg m =>
    have hflags := nlRecvMsg_flags he h.data h.force
    rw [handle, occur]
    split
    · exact hflags
    · exact hflags
  | mount =>
    obtain ⟨_, _, hw, -⟩ := tcrReadTochdr_writes w
    show (tcrReadTochdr w).datacdEnable = true ∧ (tcrReadTochdr w).cdDevForceStop = 0
    rw [hw]
    exact ⟨rfl, rfl⟩

theorem AtStop.handle (w : World) (e : Event) (he : Streams x w e) (h : AtStop w) :
    AtStop (CdPlayer.handle w e) := by
  obtain ⟨hdata, hforce⟩ := h.flags w e he
  have hframe : Frame w (CdPlayer.handle w e) := (outside_handle w e).toFrame
  exact ⟨ringOk_handle w e h.ring, hdata, hforce, hframe.noShock h.noShock,
    hframe.bufStatus.trans h.status⟩

theorem AtStop.yield (henv : env.Obeys (Streams x)) (h : AtStop w) :
    AtStop (CdPlayer.yield env w) :=
  henv.yield AtStop.handle
    (fun _ hu => ⟨hu.ring, hu.data, hu.force, hu.noShock, hu.status⟩) h

/-! ### The first read -/

/-- The check before `TRY_READ` turns the CDIF off. -/
theorem AtStop.checkBuffering (henv : env.Obeys (Streams x)) (h : AtStop w) {n : Nat}
    (hn : n < 188) :
    (checkBuffering env n w).1 = 588 * (n + 12) ∧ Halted w (checkBuffering env n w).2 := by
  have hturn := h.yield henv
  unfold CdPlayer.checkBuffering
  simp only [h.status, wantSampleSize_eq hn, true_and]
  exact ⟨⟨hturn.data, hturn.force, rfl, rfl⟩, hturn.ring, hturn.noShock, hturn.status,
    (frame_yield env w).lastSector⟩

/-- **The first read of a stopped driver** takes a new stream: none of what is
in the ring comes into the chunk. -/
theorem AtStop.cdReadData (hdeck : Prompt env x) (h : AtStop w) {n fuel : Nat} (hn : n < 188)
    (hfuel : 2 ≤ fuel) (addr : Nat) (p : Int) :
    ∃ w', cdReadData env fuel addr n p w = (some (2352 * ((n : Int) + 12)), w') ∧
      Restarted x addr w w' ∧
      588 * ((n : Int) + 12) ≤ singleBufferDataAvailable w'.sCDDIBuffer ∧
      ∀ a, p ≤ a → a < p + 2352 * ((n : Int) + 12) →
        (w'.cdChunkBuf a).val = x w'.seeks w'.seekMsf (w'.readerPos + (a - p)) := by
  obtain ⟨hreq, hhalt⟩ := h.checkBuffering hdeck.obeys hn
  obtain ⟨lres, u, hrun, hpos, havail, hcases⟩ := tryRead_prompt hdeck addr (588 * (n + 12))
    (by omega) hfuel (.inr { hhalt with lastSector := rfl })
  have hre : Restarted x addr w u := by
    rcases hcases with ⟨hst, -⟩ | hre
    · rw [hhalt.status] at hst
      exact absurd hst (by decide)
    · exact { hre with lastSector := hre.lastSector.trans hhalt.lastSector }
  have hread := cdReadData_of_some env fuel addr n p (w := w) (by rw [hreq, hrun]) hpos
  rw [hreq, hrun, wantSampleSize_eq hn] at hread
  have hval : ((588 * (n + 12) : Nat) : Int) * 4 = 2352 * ((n : Int) + 12) := by
    push_cast
    ring
  simp only [hval] at hread
  -- the copy takes what has come since the seek
  have hturn := hre.turn hdeck.obeys
  have hcopied : Flowing x (copyState env n u) :=
    hturn.ready.flowing.own rfl rfl rfl rfl rfl rfl rfl
  have hstock : ((588 * (n + 12) : Nat) : Int)
      ≤ singleBufferDataAvailable (copyState env n u).sCDDIBuffer := by
    have hmore := (hre.ready.flowing.yield hdeck.obeys).avail
    show _ ≤ singleBufferDataAvailable (CdPlayer.yield env u).sCDDIBuffer
    omega
  obtain ⟨hsteady, -, hbytes⟩ := hcopied.copied p (588 * (n + 12)) (588 * (n + 12)) (by omega)
    hstock
  refine ⟨_, hread, ?_, ?_, fun a h₁ h₂ => ?_⟩
  · obtain ⟨chunk, offset, hsame⟩ := cdCopyReadData_same p (2 * (588 * (n + 12)))
      (588 * (n + 12)) (copyState env n u)
    rw [hsame]
    exact hturn.desk chunk offset _
  · have hkept := hsteady.avail
    omega
  · rw [hbytes a h₁ (by push_cast; omega), hsteady.seeks, hsteady.seekMsf, hsteady.pos]
    simp

/-! ### The first call -/

section
variable {start n fuel : Nat}

/-- A round of a stopped driver, with nothing delivered yet. -/
structure CallsStopped (s : Scan) : Prop where
  label : s.label = .tryRead
  dst : s.pdCDBuff = 0
  used : s.usedSectNum = 0
  retry : 0 < s.frameRetry
  stop : AtStop s.world

/-- The call as it enters: there is nothing to be skipped. -/
theorem AtStop.enter (henv : env.Obeys (Streams x)) (h : AtStop w) (start : Nat) :
    CallsStopped (enterScan env start w) := by
  have hturn := h.yield henv
  have hsame : cdResearchFrame env start (CdPlayer.yield env w)
      = cdSetRequestSector start (CdPlayer.yield env w) := by
    have hno : ¬ (cdSetRequestSector start (CdPlayer.yield env w)).gCDBufStatus = .start := by
      rw [show (cdSetRequestSector start (CdPlayer.yield env w)).gCDBufStatus = .stop
        from hturn.status]
      decide
    unfold cdResearchFrame
    simp only
    rw [if_neg hno]
  have henter : enterScan env start w = {
      label := .tryRead, usedSectNum := 0, psCDBuff := 0, pdCDBuff := 0
      frameRetry := cdRetryCnt, c3Retry := cdC3Cnt, kmpRetry := cdKmpRetryCnt, kmpcnt := 0
      goMSF := 0, readSize := 0, trace := []
      world := cdSetRequestSector start (CdPlayer.yield env w) } := by
    unfold enterScan
    simp only
    rw [if_neg fun hne => hne hturn.force, ← hsame]
    rfl
  rw [henter]
  exact ⟨rfl, rfl, rfl, show (0 : Int) < 3 by decide,
    ⟨hturn.ring, hturn.data, hturn.force, hturn.noShock, hturn.status⟩⟩

/-- **The first round** reads the stream from six sectors before the one
wanted. -/
theorem CallsStopped.load (hdeck : Prompt env x) {s : Scan} (h : CallsStopped s) (codec : Codec)
    (hn : n ≤ 187) (hfuel : 2 ≤ fuel) (hstart : 6 ≤ start) (hstart' : start < 450000) :
    Loaded x n (scanStep env codec fuel start n s) ∧
      Restarted x (start - 6) s.world (scanStep env codec fuel start n s).world := by
  have hmsf : u32 ((start + s.usedSectNum : Nat) + cdGetDiffValue) = start - 6 := by
    have hval : ((start + s.usedSectNum : Nat) : Int) + cdGetDiffValue
        = ((start - 6 : Nat) : Int) := by
      rw [h.used]
      show ((start + 0 : Nat) : Int) + -6 = _
      omega
    rw [hval]
    exact u32_natCast (by omega)
  have hsize : u32 ((n : Int) - s.usedSectNum) = n := by
    rw [h.used, Nat.cast_zero, sub_zero]
    exact u32_natCast (by omega)
  obtain ⟨u, hread, hre, havail, hchunk⟩ := h.stop.cdReadData hdeck (n := n) (by omega) hfuel
    (start - 6) 0
  have hround := tryReadStep_some env fuel start n (s := s)
    (by rw [hmsf, hsize, h.dst]; exact hread) (by omega)
  rw [scanStep_tryRead env codec h.label]
  generalize tryReadStep env fuel start n s = t at hround ⊢
  have hworld := hround.world
  subst hworld
  refine ⟨⟨hround.label, hround.scan.trans h.dst, hround.dst.trans h.dst,
    hround.used.trans h.used, by rw [hround.frameRetry]; exact h.retry,
    by rw [hround.kmpcnt]; decide, ⟨s.trace, h.dst ▸ hround.trace⟩, hre.ready, .inl hre.status,
    fun a h₀ h₁ => ?_, havail⟩, hre⟩
  rw [hchunk a h₀ (by omega), sub_zero]

/-- **The first call of a stopped driver** is served. -/
theorem AtStop.call (hdeck : Prompt env x) (hlands : Lands codec x user) (h : AtStop w)
    (hstart : 150 ≤ start) (hn : 1 ≤ n) (hn' : n ≤ 187) (hlast : start + n ≤ 450000)
    (hfuel : 207 ≤ fuel) :
    Fulfilled codec x user start n (cdDescrambleSector env codec fuel start n w) := by
  obtain ⟨hloaded, hre⟩ := (h.enter hdeck.obeys start).load hdeck codec hn'
    (show 2 ≤ fuel by omega) (by omega) (show start < 450000 by omega)
  obtain ⟨i, hi, hanswer⟩ : ∃ i ≤ n + 12, Fulfilled codec x user start n
      ((scanStep env codec fuel start n)^[i]
        (scanStep env codec fuel start n (enterScan env start w))) :=
    hloaded.restarted hdeck hlands hre hstart hn hlast
  rw [← Function.iterate_succ_apply] at hanswer
  have hrun : cdDescrambleSector env codec fuel start n w
      = (scanStep env codec fuel start n)^[i + 1] (enterScan env start w) := by
    unfold cdDescrambleSector
    obtain ⟨k, rfl⟩ : ∃ k, fuel = k + (i + 1) := ⟨fuel - (i + 1), by omega⟩
    rw [Function.iterate_add_apply, iterate_returned hanswer.label]
  rw [hrun]
  exact hanswer

/-! ### Every later call -/

/-- The next call can be served: the driver is between two calls, or it has
stopped. -/
def CanServe (codec : Codec) (x : Nat → Nat → Stream) (user : Nat → Nat → UInt8)
    (w : World) : Prop :=
  AtRest codec x user w ∨ AtStop w

theorem CanServe.call (hdeck : Prompt env x) (hlands : Lands codec x user)
    (h : CanServe codec x user w) (hstart : 150 ≤ start) (hn : 1 ≤ n) (hn' : n ≤ 187)
    (hlast : start + n ≤ 450000) (hfuel : 207 ≤ fuel) :
    Fulfilled codec x user start n (cdDescrambleSector env codec fuel start n w) := by
  rcases h with hrest | hstop
  · exact hrest.call hdeck hlands hstart hn hn' hlast hfuel
  · exact hstop.call hdeck hlands hstart hn hn' hlast hfuel

/-- **The calls of a run** leave the next one servable. -/
theorem CanServe.calls (hdeck : Prompt env x) (hlands : Lands codec x user)
    (h : CanServe codec x user w) (hfuel : 207 ≤ fuel) {calls : List Call}
    (hcalls : ∀ r ∈ calls, r.Ok) :
    CanServe codec x user (calls.foldl
      (fun w r => (cdDescrambleSector env codec fuel r.start r.n w).world) w) := by
  have hallowed : Allowed
      (fun w (r : Call) => (cdDescrambleSector env codec fuel r.start r.n w).world)
      (fun _ r => r.Ok) w calls :=
    allowed_of_forall fun _ r hr => hcalls r hr
  exact hallowed.inv (fun w r hr hw => .inl (hw.call hdeck hlands hr.lead hr.pos hr.size hr.frames
    hfuel).rest) h

end

/-! ### After a failure -/

/-- A call that fails for the deck or for want of a header has stopped the
driver. -/
theorem CallEnds.stop {s : Scan} {start n : Nat} {res : Int} {line : Option String}
    (h : CallEnds start n s res line) (hfail : res = deckError ∨ res = kmpError) :
    s.world.gCDBufStatus = .stop := by
  cases h with
  | read => exact absurd hfail (by decide)
  | refused hstop => exact hstop
  | noHeader hstop => exact hstop
  | frameOver => exact absurd hfail (by decide)
  | frameUnder => exact absurd hfail (by decide)
  | forced => exact absurd hfail (by decide)

/-- **A failed call does no lasting harm.**  Whatever the deck has done so
far, a call that reports `DECK_ERROR` or `KMP_ERROR` with the disc in is
followed by calls (`Call.Ok`) that are right, if the deck keeps up from then
on: each returns the size of a sector, the last sector it has delivered is
the last one asked for, and the user data of each stands in its place. -/
theorem failed_call_heals (before env : Env) (codec : Codec) (x : Nat → Nat → Stream)
    (user : Nat → Nat → UInt8) {j k fuel start n : Nat} {w : World} {res : Int}
    (hw : Reachable before codec j w)
    (hres : (scanAt before codec j start n w k).result = some res)
    (hfail : res = deckError ∨ res = kmpError)
    (hin : (scanAt before codec j start n w k).world.datacdEnable = true ∧
      (scanAt before codec j start n w k).world.cdDevForceStop = 0)
    (hdeck : Prompt env x) (hlands : Lands codec x user) (hfuel : 207 ≤ fuel)
    (calls : List Call) (hcalls : ∀ r ∈ calls, r.Ok) (r : Call) (hr : r.Ok) :
    let u := calls.foldl (fun w r => (cdDescrambleSector env codec fuel r.start r.n w).world)
      (scanAt before codec j start n w k).world
    let s := cdDescrambleSector env codec fuel r.start r.n u
    s.result = some userSectorSize ∧
    s.world.gLastSector = r.start + r.n - 1 ∧
    ∀ k, k < r.n → ∀ i : Nat, i < 2048 →
      (s.world.cdChunkBuf (2048 * k + i)).val = user (r.start + k) i := by
  intro u s
  have hacts : Acts before w (scanAt before codec j start n w k).world :=
    scan_acts before codec hw.ringOk j start n k
  have hquiet : w.gCDErrorStatus ≠ .shock := hw.acts.noShock before (by decide)
  have hends : CallEnds start n (scanAt before codec j start n w k) res (notified res) :=
    callEnds_scanAt before codec hw.ringOk hquiet j start n k res (label_of_result hres)
  have hstop : AtStop (scanAt before codec j start n w k).world :=
    ⟨hacts.ringOk hw.ringOk, hin.1, hin.2, hacts.noShock before hquiet, hends.stop hfail⟩
  have hserve : CanServe codec x user u := CanServe.calls hdeck hlands (.inr hstop) hfuel hcalls
  have hanswer := hserve.call hdeck hlands hr.lead hr.pos hr.size hr.frames hfuel
  refine ⟨?_, hanswer.lastSector, hanswer.data⟩
  unfold Scan.result
  rw [hanswer.label]

/-- Refused at first, and read afterwards: far ahead, and back. -/
theorem failed_call_heals_farAndBack :
    let env := streamDeck fun _ msf => discFrom msf
    let u := farAndBack.foldl
      (fun w r => (cdDescrambleSector env plainCodec 207 r.start r.n w).world)
      (scanAt refusingDeck plainCodec 1 150 1 (yield refusingDeck World.initial) 1).world
    (cdDescrambleSector env plainCodec 207 onceMore.start onceMore.n u).world.gLastSector
      = onceMore.start + onceMore.n - 1 :=
  (failed_call_heals refusingDeck (streamDeck fun _ msf => discFrom msf) plainCodec
    (fun _ msf => discFrom msf) (fun _ _ => 0x55) (.turn .init)
    (show (scanAt refusingDeck plainCodec 1 150 1 (yield refusingDeck World.initial) 1).result
      = some deckError by decide +kernel) (.inl rfl) (by decide +kernel) (streamDeck_prompt _)
    discFrom_lands le_rfl farAndBack farAndBack_ok onceMore
    ⟨by decide, by decide, by decide, by decide⟩).2.1

end CdPlayer
