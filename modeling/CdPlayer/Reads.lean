/-
CdPlayer/Reads.lean

Reading from a deck that keeps up: every call delivers what it is asked for.

Between two calls the driver has stopped, or its reader stands where the
sector after the last one delivered begins, less than a sample before it
(`AtRest`).  A call that the ring can serve goes on from there
(`Stands.skip`); one that asks for the last sector again finds the next one
and turns back; all others start a new stream.  From wherever it starts the
scan comes to the sector wanted (`Disc`), delivers all (`AtSector.answer`)
and leaves the reader behind the last one.

Main result: `reads_correct`.
-/
import CdPlayer.Deck
import CdPlayer.HasData

namespace CdPlayer

open ByteStore Run

variable {x : Nat → Nat → Stream} {env : Env} {codec : Codec}
variable {user : Nat → Nat → UInt8} {p g f : Nat} {w w' : World}

/-! ### Since the last seek -/

/-- A seek is counted, whatever comes of it. -/
theorem cdSendMsf_seeks (env : Env) (msf : Nat) (w : World) :
    (cdSendMsf env msf w).2.seeks = w.seeks + 1 := by
  have hwait : (waitForCompletion env (beginSeek msf w)).2.seeks = w.seeks + 1 := by
    have hturn : (yield env (beginSeek msf w)).seeks = w.seeks + 1 :=
      yield_seeks env (beginSeek msf w)
    unfold waitForCompletion
    simp only
    split
    · exact hturn
    · split <;> exact hturn
  unfold cdSendMsf
  generalize waitForCompletion env (beginSeek msf w) = r at hwait ⊢
  obtain ⟨ret, u⟩ := r
  simp only at hwait ⊢
  split
  · exact hwait
  · exact (yield_seeks env _).trans ((yield_seeks env _).trans hwait)

theorem startStream_seeks (env : Env) (addr : Nat) (w : World) :
    (startStream env addr w).2.seeks = w.seeks + 1 := by
  have henter : (enterStop env w).seeks = w.seeks :=
    (yield_seeks env _).trans (yield_seeks env _)
  have hsent := cdSendMsf_seeks env addr (enterStop env w)
  unfold startStream
  generalize cdSendMsf env addr (enterStop env w) = r at hsent ⊢
  obtain ⟨ret, u⟩ := r
  simp only at hsent ⊢
  rw [← henter, ← hsent]
  split
  · rfl
  · exact yield_seeks env _

theorem giveUp_seeks (env : Env) (w : World) : (giveUp env w).2.seeks = w.seeks :=
  (yield_seeks env _).trans (yield_seeks env w)

/-- There has been another seek, or a full buffer still means that the CDIF is
off. -/
def CalmSince (k : Nat) (w : World) : Prop :=
  k < w.seeks ∨ w.seeks = k ∧ (w.gCDErrorStatus = .bufFull → w.cdifEnable = false)

theorem calmSince_act {k : Nat} (a b : World) (hact : Act env a b) (h : CalmSince k a) :
    CalmSince k b := by
  unfold CalmSince at h ⊢
  cases hact with
  | turn =>
    rw [yield_seeks]
    exact h.imp_right fun ⟨hk, hcalm⟩ => ⟨hk, (frame_yield env a).calm hcalm⟩
  | own => exact h
  | stop => exact h
  -- the acts that turn the CDIF off, or clear the error status, calm the driver
  | cdifOff => exact h.imp_right fun ⟨hk, _⟩ => ⟨hk, fun _ => rfl⟩
  | filled => exact h.imp_right fun ⟨hk, _⟩ => ⟨hk, nofun⟩
  | fullBranch _ =>
    have hseeks : (yield env ((cdSetBufferStatus .stop a).note (.fullBranch a.cdifEnable))).seeks
        = a.seeks := yield_seeks env _
    exact h.imp (fun hlt => hseeks.symm ▸ hlt) fun ⟨hk, _⟩ => ⟨hseeks.trans hk, nofun⟩
  | enterStart => exact h
  | startTimeOut =>
    have hseeks : (giveUp env (zeroPointers env a)).2.seeks = a.seeks :=
      (giveUp_seeks env _).trans ((yield_seeks env _).trans (yield_seeks env a))
    rw [hseeks]
    exact h.imp_right fun ⟨hk, _⟩ => ⟨hk, fun _ => rfl⟩
  | stopTimeOut =>
    rw [giveUp_seeks]
    exact h.imp_right fun ⟨hk, _⟩ => ⟨hk, fun _ => rfl⟩
  | stopExpired => exact h
  -- from here on there has been another seek
  | seek addr _ =>
    left
    rw [startStream_seeks]
    rcases h with hlt | ⟨hk, _⟩
    · omega
    · omega
  | copied => exact h
  | advance => exact h

/-- **Until the next seek the driver stays calm.** -/
theorem Acts.calm_of_seeks (h : Acts env w w') (hseeks : w'.seeks = w.seeks)
    (hcalm : w.gCDErrorStatus = .bufFull → w.cdifEnable = false) :
    w'.gCDErrorStatus = .bufFull → w'.cdifEnable = false := by
  have hend : CalmSince w.seeks w' :=
    h.inv (P := CalmSince w.seeks) calmSince_act (.inr ⟨rfl, hcalm⟩)
  rcases hend with hlt | ⟨-, hcalm'⟩
  · omega
  · exact hcalm'

/-! ### Where the reader stands -/

/-- The reader stands at sector `f` of the disc, or less than a sample before
it. -/
structure Stands (codec : Codec) (x : Nat → Nat → Stream) (user : Nat → Nat → UInt8)
    (p g f : Nat) (w : World) : Prop where
  status : w.gCDBufStatus = .start
  disc : DiscFrom codec user (x w.seeks w.seekMsf) p g
  begun : g < f
  low : w.readerPos ≤ p + 2352 * ((f : Int) - g)
  high : p + 2352 * ((f : Int) - g) ≤ w.readerPos + 3

/-- The reader goes on by `d` sectors. -/
theorem Stands.skip {d : Nat} {k : Int} (h : Stands codec x user p g f w)
    (hsteady : Steady x k w w') (hk : k = 588 * d) : Stands codec x user p g (f + d) w' := by
  have hpos := hsteady.pos
  have hlow := h.low
  have hhigh := h.high
  have hbegun := h.begun
  refine ⟨hsteady.bufStatus.trans h.status, ?_, by omega, by push_cast; omega, by push_cast; omega⟩
  rw [hsteady.seeks, hsteady.seekMsf]
  exact h.disc

theorem Stands.stay (h : Stands codec x user p g f w) (hsteady : Steady x 0 w w') :
    Stands codec x user p g f w' :=
  h.skip (d := 0) hsteady rfl

/-- The driver between two calls. -/
structure AtRest (codec : Codec) (x : Nat → Nat → Stream) (user : Nat → Nat → UInt8)
    (w : World) : Prop where
  ready : Ready x w
  place : w.gCDBufStatus = .stop ∨
    w.gLastSector < 450000 ∧ ∃ p g, Stands codec x user p g (w.gLastSector + 1) w

/-- Between calls the reader may wait. -/
theorem AtRest.yield (henv : env.Obeys (Streams x)) (h : AtRest codec x user w) :
    AtRest codec x user (CdPlayer.yield env w) := by
  refine ⟨h.ready.yield henv, ?_⟩
  rcases h.place with hstop | ⟨hlast, p, g, hstands⟩
  · exact .inl ((frame_yield env w).bufStatus.trans hstop)
  · right
    rw [yield_gLastSector]
    exact ⟨hlast, p, g, hstands.stay (h.ready.flowing.yield henv)⟩

/-! ### `CD_Research_Frame` -/

/-- The driver before the first read of a call for sector `start`. -/
structure Asked (codec : Codec) (x : Nat → Nat → Stream) (user : Nat → Nat → UInt8)
    (start : Nat) (w : World) : Prop where
  ready : Ready x w
  request : w.gRequestSector = start
  place : w.gCDBufStatus = .stop ∨ w.gLastSector < 450000 ∧ ∃ p g f,
    Stands codec x user p g f w ∧
      (f = start ∧ w.gLastSector < start ∨ f = w.gLastSector + 1 ∧ start ≤ w.gLastSector)

theorem Ready.advance {n : Int} (h : Ready x w) (hn : 0 ≤ n)
    (hle : n ≤ singleBufferDataAvailable w.sCDDIBuffer) : Ready x (updateReadPointer n w) :=
  ⟨(h.flowing.advance hn hle).flowing, h.noShock, h.calm, h.cnt⟩

/-- **The reader skips to the sector asked for**, if it is ahead and buffered. -/
theorem AtRest.research (henv : env.Obeys (Streams x)) (h : AtRest codec x user w) {start : Nat}
    (hstart : start < 450000) :
    Asked codec x user start (cdResearchFrame env start w) := by
  have hasked : Ready x (cdSetRequestSector start w) :=
    ⟨h.ready.flowing.own rfl rfl rfl rfl rfl rfl rfl, h.ready.noShock, h.ready.calm, h.ready.cnt⟩
  unfold cdResearchFrame
  simp only
  rcases h.place with hstop | ⟨hlast, p, g, hstands⟩
  · rw [if_neg (by
      rw [show (cdSetRequestSector start w).gCDBufStatus = .stop from hstop]
      decide)]
    exact ⟨hasked, rfl, .inl hstop⟩
  · have hrequest : Stands codec x user p g (w.gLastSector + 1) (cdSetRequestSector start w) :=
      ⟨hstands.status, hstands.disc, hstands.begun, hstands.low, hstands.high⟩
    have hdiff : s32 ((start : Int) - (cdSetRequestSector start w).gLastSector - 1)
        = (start : Int) - w.gLastSector - 1 := by
      show s32 ((start : Int) - w.gLastSector - 1) = _
      rw [s32_of_lt (by omega) (by omega)]
    rw [if_pos hrequest.status]
    by_cases hahead : w.gLastSector < start
    · obtain ⟨d, hd⟩ := Int.eq_ofNat_of_zero_le
        (show 0 ≤ (start : Int) - w.gLastSector - 1 by omega)
      rw [hdiff, hd, if_pos (Int.natCast_nonneg d)]
      have hturn := hasked.flowing.yield henv
      have hu := hturn.flowing.ring.u32_dataAvailable
      split
      next hbuffered =>
        -- more sectors are buffered than are to be skipped
        have hmore := (hturn.flowing.yield henv).avail
        have hskip : (d : Int) * cddaSectorSize / 4 = 588 * d := by
          simp only [cddaSectorSize]
          omega
        simp only [cddaSampleSize] at hbuffered
        rw [hskip]
        have hmove := hturn.move henv (n := 588 * (d : Int)) (by omega) (by omega)
        have hready := ((hasked.yield henv).yield henv).advance (n := 588 * (d : Int)) (by omega)
          (by omega)
        have hkept : (updateReadPointer (588 * (d : Int)) (CdPlayer.yield env
            (CdPlayer.yield env (cdSetRequestSector start w)))).gLastSector = w.gLastSector :=
          (yield_gLastSector env _).trans (yield_gLastSector env _)
        have hrequested := hmove.requestSector
        generalize updateReadPointer (588 * (d : Int)) _ = u at hmove hready hkept hrequested ⊢
        refine ⟨hready, hrequested, .inr ⟨by rw [hkept]; exact hlast, p, g, _,
          hrequest.skip hmove (zero_add _), .inl ⟨by omega, by rw [hkept]; exact hahead⟩⟩⟩
      next =>
        exact ⟨(hasked.yield henv).status .stop, (yield_gRequestSector env _), .inl rfl⟩
    · rw [if_neg (by rw [hdiff]; omega)]
      exact ⟨hasked, rfl, .inr ⟨hlast, p, g, _, hrequest, .inr ⟨rfl, not_lt.mp hahead⟩⟩⟩

/-! ### The scan of a call -/

section
variable {start n fuel : Nat} {c e : Int} {j : Nat} {s t : Scan}

/-- What a call for `n` sectors from `start` on comes to. -/
structure Fulfilled (codec : Codec) (x : Nat → Nat → Stream) (user : Nat → Nat → UInt8)
    (start n : Nat) (s : Scan) : Prop where
  label : s.label = .returned userSectorSize
  data : ∀ k, k < n → ∀ i : Nat, i < 2048 →
    (s.world.cdChunkBuf (2048 * k + i)).val = user (start + k) i
  lastSector : s.world.gLastSector = start + n - 1
  rest : AtRest codec x user s.world

/-- **From the sector wanted on, all are delivered**, and the reader stands
behind the last one. -/
theorem AtSector.answer (hdeck : Prompt env x)
    (hd : DiscFrom codec user (x s.world.seeks s.world.seekMsf) p g)
    (h : AtSector x c e p j s) (hready : Ready x s.world) (hset : Settled s.world)
    (hj : g + j = start) (hused : s.usedSectNum = 0) (hdst : s.pdCDBuff = 0) (hn : 1 ≤ n)
    (hlast : start + n ≤ 450000) (he : p + 2352 * ((j : Int) + n) - c ≤ e) :
    Fulfilled codec x user start n ((scanStep env codec fuel start n)^[n] s) := by
  obtain ⟨m, rfl⟩ : ∃ m, n = m + 1 := ⟨n - 1, by omega⟩
  push_cast at he
  -- the sectors wanted are those of the stream from number `j` on
  obtain ⟨hserved, hcount⟩ := h.scanning.deliver_all start (m + 1) user hdeck.obeys hdeck.kmalloc
    m fuel h.label h.dst (by omega) (by omega) (by omega) hlast (fun i hi => by
      have hsector := hd.sectors (j + i) (by omega)
      rw [hused, show start + 0 + i = g + (j + i) by omega,
        show c + (p + 2352 * (j : Int) - c) + 2352 * (i : Int)
          = p + 2352 * ((j + i : Nat) : Int) by push_cast; ring]
      exact hsector)
  have hacts : Acts env s.world ((scanStep env codec fuel start (m + 1))^[m + 1] s).world :=
    iterate_scanStep_acts env fuel start (m + 1) (m + 1) h.scanning.flowing.ring
  generalize (scanStep env codec fuel start (m + 1))^[m + 1] s = t at hserved hcount hacts
  have hsteady := hserved.steady
  have hlastSector : t.world.gLastSector = start + m := hserved.lastSector
  refine ⟨hserved.label, fun k hk i hi => hserved.data k (by omega) hk i hi, hserved.lastSector,
    ⟨?_, ?_⟩⟩
  · exact ⟨hsteady.flowing, hacts.noShock env hready.noShock,
      hacts.calm_of_seeks hsteady.seeks hready.calm, hready.cnt.trans hcount⟩
  · -- after START the reader stands where the next call wants to go on
    rcases hacts.settled hset with hst | hst
    · right
      have hpos := hsteady.pos
      have hbehind := h.scanning.behind
      have hlag := h.scanning.lag
      refine ⟨by omega, p, g, hst, ?_, by omega, ?_, ?_⟩
      · rw [hsteady.seeks, hsteady.seekMsf]
        exact hd
      · rw [hlastSector]
        push_cast
        omega
      · rw [hlastSector]
        push_cast
        omega
    · exact .inl hst

/-- A round that has read and delivered nothing yet. -/
structure Loaded (x : Nat → Nat → Stream) (n : Nat) (s : Scan) : Prop where
  label : s.label = .searchLbn
  scan : s.psCDBuff = 0
  dst : s.pdCDBuff = 0
  used : s.usedSectNum = 0
  retry : 0 < s.frameRetry
  kmpcnt : 0 < s.kmpcnt
  /-- The fetch is the last access. -/
  fetch : ∃ l, s.trace = .fetch 0 (2352 * ((n : Int) + 12)) :: l
  ready : Ready x s.world
  settled : Settled s.world
  /-- The chunk is the stream from the reader on. -/
  chunk : ∀ a : Int, 0 ≤ a → a < 2352 * ((n : Int) + 12) → (s.world.cdChunkBuf a).val
    = x s.world.seeks s.world.seekMsf (s.world.readerPos + a)
  avail : 588 * ((n : Int) + 12) ≤ singleBufferDataAvailable s.world.sCDDIBuffer

/-- A round about to read, with nothing delivered yet. -/
structure Calling (x : Nat → Nat → Stream) (s : Scan) : Prop where
  label : s.label = .tryRead
  dst : s.pdCDBuff = 0
  used : s.usedSectNum = 0
  retry : 0 < s.frameRetry
  ready : Ready x s.world
  settled : Settled s.world

/-- **The read of a round.** -/
theorem Calling.load (hdeck : Prompt env x) (h : Calling x s) (codec : Codec) (hn : n ≤ 187)
    (hfuel : 2 ≤ fuel) (hstart : 6 ≤ start) (hstart' : start < 450000) :
    Loaded x n (scanStep env codec fuel start n s) ∧
    (scanStep env codec fuel start n s).frameRetry = s.frameRetry ∧
    (scanStep env codec fuel start n s).goMSF = start - 6 ∧
    (s.world.gCDBufStatus = .start ∧
      0 ≤ s32 ((s.world.gRequestSector : Int) - s.world.gLastSector) ∧
      Waited x s.world (scanStep env codec fuel start n s).world ∨
    Restarted x (start - 6) s.world (scanStep env codec fuel start n s).world) := by
  -- the address asked for is six sectors before the one wanted
  have hmsf : u32 ((start + s.usedSectNum : Nat) + cdGetDiffValue) = start - 6 := by
    have hval : ((start + s.usedSectNum : Nat) : Int) + cdGetDiffValue
        = ((start - 6 : Nat) : Int) := by
      rw [h.used]
      show ((start + 0 : Nat) : Int) + -6 = _
      omega
    rw [hval]
    exact u32_natCast (by omega)
  have hsize : u32 ((n : Int) - s.usedSectNum) = n := by
    rw [h.used, Nat.cast_zero, sub_zero]
    exact u32_natCast (by omega)
  obtain ⟨u, hread, hcases, havail, hchunk⟩ := cdReadData_prompt hdeck h.ready h.settled
    (n := n) (by omega) hfuel (start - 6) 0
  have hacts : Acts env s.world (scanStep env codec fuel start n s).world :=
    scanStep_acts env fuel start n h.ready.flowing.ring
  have hround := tryReadStep_some env fuel start n (s := s)
    (by rw [hmsf, hsize, h.dst]; exact hread) (by omega)
  rw [scanStep_tryRead env codec h.label] at hacts ⊢
  generalize tryReadStep env fuel start n s = t at hround hacts ⊢
  have hworld := hround.world
  subst hworld
  refine ⟨⟨hround.label, hround.scan.trans h.dst, hround.dst.trans h.dst, hround.used.trans h.used,
    by rw [hround.frameRetry]; exact h.retry, by rw [hround.kmpcnt]; decide,
    ⟨s.trace, h.dst ▸ hround.trace⟩, ?_, hacts.settled h.settled, fun a h₀ h₁ => ?_, havail⟩,
    hround.frameRetry, hround.goMSF.trans hmsf, ?_⟩
  · rcases hcases with ⟨-, -, -, hwait⟩ | hre
    · exact hwait.ready h.ready.cnt
    · exact hre.ready
  · rw [hchunk a h₀ (by omega), sub_zero]
  · rcases hcases with ⟨hst, hgap, -, hwait⟩ | hre
    · exact .inl ⟨hst, hgap, hwait⟩
    · exact .inr hre

/-- The reader stands at sector `f`, and so does the scan. -/
theorem Loaded.atSector (h : Loaded x n s) (hstands : Stands codec x user p g f s.world) :
    AtSector x s.world.readerPos (2352 * ((n : Int) + 12)) p (f - g) s := by
  have hlow := hstands.low
  have hhigh := hstands.high
  have hbegun := hstands.begun
  have hscan := h.scan
  have havail := h.avail
  have hcast : ((f - g : Nat) : Int) = (f : Int) - g := by omega
  have hshort := hstands.disc.short
  have hraw : ∀ a : Int, 0 ≤ a → a < 2352 * ((n : Int) + 12) → (s.world.cdChunkBuf a).val
      = x s.world.seeks s.world.seekMsf (s.world.readerPos + a) := h.chunk
  refine ⟨⟨h.ready.flowing, by omega, by omega, ?_, ?_, by omega, by omega, by omega⟩, h.label,
    by rw [h.dst, h.scan]⟩
  · -- the sector is too near for another pattern before it
    intro a h₀ h₁ hsync
    obtain ⟨i, hi⟩ := hstands.disc.rawOnly s.world.cdChunkBuf (b := 0) hraw (by omega)
      (show a + 12 ≤ 2352 * ((n : Int) + 12) by omega) (by omega) hsync
    omega
  · intro a h₀ h₁
    exact hraw a (by omega) h₁

/-- The call goes on where the last one ended, or has been skipped to. -/
theorem Loaded.goOn (hdeck : Prompt env x) (h : Loaded x n s)
    (hstands : Stands codec x user p g start s.world) (hn : 1 ≤ n) (hlast : start + n ≤ 450000) :
    Fulfilled codec x user start n ((scanStep env codec fuel start n)^[n] s) := by
  have hlow := hstands.low
  have hhigh := hstands.high
  have hbegun := hstands.begun
  have hcast : ((start - g : Nat) : Int) = (start : Int) - g := by omega
  exact (h.atSector hstands).answer hdeck hstands.disc h.ready h.settled (by omega) h.used h.dst hn
    hlast (by omega)

/-- **The call asks for the last sector again**: it comes back to `TRY_READ`
with the driver stopped. -/
theorem Loaded.turnBack (hdeck : Prompt env x) (h : Loaded x n s)
    (hstands : Stands codec x user p g (start + 1) s.world) (hretry : 2 ≤ s.frameRetry)
    (hn : 1 ≤ n) (hlast : start + n ≤ 450000) :
    ∃ i ≤ 6, Calling x ((scanStep env codec fuel start n)^[i] s) ∧
      ((scanStep env codec fuel start n)^[i] s).world.gCDBufStatus = .stop := by
  have hlow := hstands.low
  have hhigh := hstands.high
  have hbegun := hstands.begun
  have hcast : ((start + 1 - g : Nat) : Int) = (start : Int) + 1 - g := by omega
  have hcnt := h.ready.cnt
  have hused := h.used
  obtain ⟨i, hi, hretried⟩ : ∃ i ≤ 5 + 1, Retried x s ((scanStep env codec fuel start n)^[i] s) :=
    hstands.disc.turnBack hdeck.obeys hdeck.kmalloc (h.atSector hstands) (by omega) (by omega)
      (by omega) h.retry (by push_cast; omega)
  have hacts : Acts env s.world ((scanStep env codec fuel start n)^[i] s).world :=
    iterate_scanStep_acts env fuel start n i h.ready.flowing.ring
  refine ⟨i, hi, ?_, hretried.status⟩
  generalize (scanStep env codec fuel start n)^[i] s = t at hretried hacts
  have hframe := hretried.frameRetry
  exact ⟨hretried.label, hretried.dst.trans h.dst, hretried.used.trans h.used, by omega,
    ⟨hretried.flowing, hacts.noShock env h.ready.noShock,
      hacts.calm_of_seeks hretried.seeks h.ready.calm, hcnt.trans hretried.researchCnt⟩,
    .inr hretried.status⟩

/-- **The call reads a new stream.** -/
theorem Loaded.anew (hdeck : Prompt env x) (h : Loaded x n s) (hpos : s.world.readerPos = 0)
    (hd : DiscFrom codec user (x s.world.seeks s.world.seekMsf) p g) (hnear : g ≤ start)
    (hnear' : start ≤ g + 11) (hn : 1 ≤ n) (hlast : start + n ≤ 450000) :
    ∃ i ≤ n + 12, Fulfilled codec x user start n ((scanStep env codec fuel start n)^[i] s) := by
  have hshort := hd.short
  have havail := h.avail
  have hused := h.used
  -- first to the first sector of the stream
  obtain ⟨i₁, hi₁, hat, halong⟩ : ∃ i ≤ 1,
      AtSector x 0 (2352 * ((n : Int) + 12)) p 0 ((scanStep env codec fuel start n)^[i] s) ∧
      Along x s ((scanStep env codec fuel start n)^[i] s) :=
    hd.approach hdeck.obeys hdeck.kmalloc h.ready.flowing hpos h.label h.scan h.dst h.kmpcnt
      (fun a h₀ h₁ => by rw [h.chunk a h₀ h₁, hpos, zero_add]) (by omega) (by omega)
  generalize hs₁ : (scanStep env codec fuel start n)^[i₁] s = s₁ at hat halong
  rw [← halong.seeks, ← halong.seekMsf] at hd
  obtain ⟨k, rfl⟩ : ∃ k, start = g + k := ⟨start - g, by omega⟩
  -- then forward to the one wanted
  obtain ⟨i₂, hi₂, hat', halong'⟩ : ∃ i ≤ k,
      AtSector x 0 (2352 * ((n : Int) + 12)) p (0 + k)
        ((scanStep env codec fuel (g + k) n)^[i] s₁) ∧
      Along x s₁ ((scanStep env codec fuel (g + k) n)^[i] s₁) :=
    hd.reach hdeck.obeys hdeck.kmalloc hat (by rw [halong.used, hused]; omega)
      (by rw [halong.used, hused]; omega) (by rw [halong.frameRetry]; exact h.retry)
      (by push_cast; omega)
  have hrun : (scanStep env codec fuel (g + k) n)^[i₂] s₁
      = (scanStep env codec fuel (g + k) n)^[i₂ + i₁] s := by
    rw [Function.iterate_add_apply, hs₁]
  rw [hrun] at hat' halong'
  have hall := halong.trans halong'
  have hacts : Acts env s.world ((scanStep env codec fuel (g + k) n)^[i₂ + i₁] s).world :=
    iterate_scanStep_acts env fuel (g + k) n (i₂ + i₁) h.ready.flowing.ring
  rw [← halong'.seeks, ← halong'.seekMsf] at hd
  generalize hs₂ : (scanStep env codec fuel (g + k) n)^[i₂ + i₁] s = s₂ at *
  have hready : Ready x s₂.world := ⟨hat'.scanning.flowing, hacts.noShock env h.ready.noShock,
    hacts.calm_of_seeks hall.seeks h.ready.calm, h.ready.cnt.trans hall.researchCnt⟩
  -- and from there all are delivered
  have hanswer : Fulfilled codec x user (g + k) n ((scanStep env codec fuel (g + k) n)^[n] s₂) :=
    hat'.answer hdeck hd hready (hacts.settled h.settled) (by omega) (hall.used.trans hused)
      (hall.dst.trans h.dst) hn hlast (by push_cast; omega)
  refine ⟨n + (i₂ + i₁), by omega, ?_⟩
  rw [Function.iterate_add_apply, hs₂]
  exact hanswer

/-! ### A call -/

/-- What is assumed of the discs: after a seek the stream begins, within six
sectors of the address, with some part of a sector. -/
def Lands (codec : Codec) (x : Nat → Nat → Stream) (user : Nat → Nat → UInt8) : Prop :=
  ∀ k msf, 144 ≤ msf → msf + 6 < 450000 →
    ∃ p g, msf ≤ g + 5 ∧ g ≤ msf + 6 ∧ DiscFrom codec user (x k msf) p g

theorem Loaded.restarted (hdeck : Prompt env x) (hlands : Lands codec x user) (h : Loaded x n s)
    (hre : Restarted x (start - 6) w s.world) (hstart : 150 ≤ start) (hn : 1 ≤ n)
    (hlast : start + n ≤ 450000) :
    ∃ i ≤ n + 12, Fulfilled codec x user start n ((scanStep env codec fuel start n)^[i] s) := by
  obtain ⟨p, g, hg, hg', hd⟩ := hlands s.world.seeks (start - 6) (by omega) (by omega)
  rw [← hre.seekMsf] at hd
  exact h.anew hdeck hre.pos hd (by omega) (by omega) hn hlast

/-- The driver has stopped: a new stream is read. -/
theorem Calling.anew (hdeck : Prompt env x) (hlands : Lands codec x user) (h : Calling x s)
    (hstop : s.world.gCDBufStatus = .stop) (hstart : 150 ≤ start) (hn : 1 ≤ n) (hn' : n ≤ 187)
    (hlast : start + n ≤ 450000) (hfuel : 2 ≤ fuel) :
    ∃ i ≤ n + 13, Fulfilled codec x user start n ((scanStep env codec fuel start n)^[i] s) := by
  obtain ⟨hloaded, -, -, ⟨hst, -⟩ | hre⟩ := h.load hdeck codec hn' hfuel (by omega)
    (show start < 450000 by omega)
  · rw [hstop] at hst
    exact absurd hst (by decide)
  · obtain ⟨i, hi, hanswer⟩ := hloaded.restarted hdeck hlands hre hstart hn hlast
    exact ⟨i + 1, by omega, hanswer⟩

/-- **A call from its first `TRY_READ` on.** -/
theorem Calling.serves (hdeck : Prompt env x) (hlands : Lands codec x user) (h : Calling x s)
    (hasked : Asked codec x user start s.world) (hretry : 2 ≤ s.frameRetry)
    (hstart : 150 ≤ start) (hn : 1 ≤ n) (hn' : n ≤ 187) (hlast : start + n ≤ 450000)
    (hfuel : 2 ≤ fuel) :
    ∃ i ≤ n + 20, Fulfilled codec x user start n ((scanStep env codec fuel start n)^[i] s) := by
  obtain ⟨hloaded, hframe, -, ⟨hst, hgap, hwait⟩ | hre⟩ := h.load hdeck codec hn' hfuel (by omega)
    (show start < 450000 by omega)
  · -- the stream goes on
    rcases hasked.place with hstop | ⟨hlastSector, p, g, f, hstands, hf⟩
    · rw [hstop] at hst
      exact absurd hst (by decide)
    · have hstands' := hstands.stay hwait.steady
      rcases hf with ⟨rfl, -⟩ | ⟨rfl, hbehind⟩
      · exact ⟨n + 1, by omega, hloaded.goOn hdeck hstands' hn hlast⟩
      · -- with no gap before the last sector, it is the last sector that is asked for
        rw [hasked.request, s32_of_lt (by omega) (by omega)] at hgap
        have hsame : s.world.gLastSector = start := by omega
        rw [hsame] at hstands'
        generalize hs' : scanStep env codec fuel start n s = s' at *
        obtain ⟨i, hi, hcalling, hstop⟩ : ∃ i ≤ 6,
            Calling x ((scanStep env codec fuel start n)^[i] s') ∧
            ((scanStep env codec fuel start n)^[i] s').world.gCDBufStatus = .stop :=
          hloaded.turnBack hdeck hstands' (hframe.symm ▸ hretry) hn hlast
        obtain ⟨i', hi', hanswer⟩ := hcalling.anew hdeck hlands hstop hstart hn hn' hlast hfuel
        rw [← Function.iterate_add_apply, ← hs', ← Function.iterate_succ_apply] at hanswer
        exact ⟨i' + i + 1, by omega, hanswer⟩
  · obtain ⟨i, hi, hanswer⟩ := hloaded.restarted hdeck hlands hre hstart hn hlast
    exact ⟨i + 1, by omega, hanswer⟩

/-- **A call between two others, at its first `TRY_READ`.** -/
theorem AtRest.enter (henv : env.Obeys (Streams x)) (h : AtRest codec x user w)
    (hstart : start < 450000) :
    Calling x (enterScan env start w) ∧ Asked codec x user start (enterScan env start w).world ∧
    2 ≤ (enterScan env start w).frameRetry := by
  have hturn := h.yield henv
  have hasked := hturn.research henv hstart
  have henter : enterScan env start w = {
      label := .tryRead, usedSectNum := 0, psCDBuff := 0, pdCDBuff := 0
      frameRetry := cdRetryCnt, c3Retry := cdC3Cnt, kmpRetry := cdKmpRetryCnt, kmpcnt := 0
      goMSF := 0, readSize := 0, trace := []
      world := cdResearchFrame env start (CdPlayer.yield env w) } := by
    have hforce : (CdPlayer.yield env w).cdDevForceStop = 0 := hturn.ready.flowing.force
    unfold enterScan
    simp only
    rw [if_neg (fun hne => hne hforce)]
    rfl
  rw [henter]
  refine ⟨⟨rfl, rfl, rfl, show (0 : Int) < 3 by decide, hasked.ready, ?_⟩, hasked,
    show (2 : Int) ≤ 3 by decide⟩
  rcases hasked.place with hst | ⟨-, p, g, f, hstands, -⟩
  · exact .inr hst
  · exact .inl hstands.status

/-- **A call between two others.** -/
theorem AtRest.call (hdeck : Prompt env x) (hlands : Lands codec x user)
    (h : AtRest codec x user w) (hstart : 150 ≤ start) (hn : 1 ≤ n) (hn' : n ≤ 187)
    (hlast : start + n ≤ 450000) (hfuel : 207 ≤ fuel) :
    Fulfilled codec x user start n (cdDescrambleSector env codec fuel start n w) := by
  obtain ⟨hcalling, hasked, hretry⟩ := h.enter hdeck.obeys (show start < 450000 by omega)
  obtain ⟨i, hi, hanswer⟩ : ∃ i ≤ n + 20,
      Fulfilled codec x user start n
        ((scanStep env codec fuel start n)^[i] (enterScan env start w)) :=
    hcalling.serves hdeck hlands hasked hretry hstart hn hn' hlast (by omega)
  have hrun : cdDescrambleSector env codec fuel start n w
      = (scanStep env codec fuel start n)^[i] (enterScan env start w) := by
    unfold cdDescrambleSector
    obtain ⟨k, rfl⟩ : ∃ k, fuel = k + i := ⟨fuel - i, by omega⟩
    rw [Function.iterate_add_apply, iterate_returned hanswer.label]
  rw [hrun]
  exact hanswer

end

/-! ### Every run -/

/-- A call: its first sector, and how many. -/
structure Call where
  start : Nat
  n : Nat

/-- A call for sectors that have an address. -/
structure Call.Ok (r : Call) : Prop where
  lead : 150 ≤ r.start
  pos : 1 ≤ r.n
  size : r.n ≤ 187
  frames : r.start + r.n ≤ 450000

theorem ready_mounted (x : Nat → Nat → Stream) : Ready x World.mounted :=
  ⟨flowing_of_empty (ringOk_fresh _) (by decide) rfl rfl, by decide, by decide, by decide⟩

theorem atRest_mounted (codec : Codec) (x : Nat → Nat → Stream) (user : Nat → Nat → UInt8) :
    AtRest codec x user World.mounted :=
  ⟨ready_mounted x, .inl rfl⟩

/-- **A deck that keeps up is read correctly.**  Whatever calls have been made
since the disc was mounted, near or far, forward or back: a call returns the
size of a sector, the last sector it has delivered is the last one asked
for, and the user data of each stands in its place. -/
theorem reads_correct (env : Env) (codec : Codec) (x : Nat → Nat → Stream)
    (user : Nat → Nat → UInt8) (hdeck : Prompt env x) (hlands : Lands codec x user) {fuel : Nat}
    (hfuel : 207 ≤ fuel) (calls : List Call) (hcalls : ∀ r ∈ calls, r.Ok) (r : Call) (hr : r.Ok) :
    let w := calls.foldl (fun w r => (cdDescrambleSector env codec fuel r.start r.n w).world)
      World.mounted
    let s := cdDescrambleSector env codec fuel r.start r.n w
    (∃ v, s.result = some v ∧ 0 < v) ∧
    s.world.gLastSector = r.start + r.n - 1 ∧
    ∀ k, k < r.n → ∀ i : Nat, i < 2048 →
      (s.world.cdChunkBuf (2048 * k + i)).val = user (r.start + k) i := by
  intro w s
  have hrest : AtRest codec x user w := by
    have hallowed : Allowed
        (fun w (r : Call) => (cdDescrambleSector env codec fuel r.start r.n w).world)
        (fun _ r => r.Ok) World.mounted calls :=
      allowed_of_forall fun _ r hr => hcalls r hr
    exact hallowed.inv (fun w r hr h => (h.call hdeck hlands hr.lead hr.pos hr.size hr.frames
      hfuel).rest) (atRest_mounted codec x user)
  have hanswer := hrest.call hdeck hlands hr.lead hr.pos hr.size hr.frames hfuel
  refine ⟨⟨userSectorSize, ?_, by decide⟩, hanswer.lastSector, hanswer.data⟩
  unfold Scan.result
  rw [hanswer.label]

/-- A deck that always lands on the address itself. -/
theorem discFrom_lands : Lands plainCodec (fun _ msf => discFrom msf) (fun _ _ => 0x55) := by
  intro k msf hlow hhigh
  exact ⟨0, msf, by omega, by omega, discFrom_disc msf⟩

/-- Far ahead, and back. -/
def farAndBack : List Call := [⟨9000, 187⟩, ⟨150, 1⟩]

theorem farAndBack_ok : ∀ r ∈ farAndBack, r.Ok := by
  intro r hr
  simp only [farAndBack, List.mem_cons, List.not_mem_nil, or_false] at hr
  rcases hr with rfl | rfl
  · exact ⟨by decide, by decide, by decide, by decide⟩
  · exact ⟨by decide, by decide, by decide, by decide⟩

/-- The last sector once more. -/
def onceMore : Call := ⟨150, 1⟩

theorem reads_correct_onceMore :
    let env := streamDeck fun _ msf => discFrom msf
    let w := farAndBack.foldl
      (fun w r => (cdDescrambleSector env plainCodec 207 r.start r.n w).world) World.mounted
    (cdDescrambleSector env plainCodec 207 onceMore.start onceMore.n w).world.gLastSector
      = onceMore.start + onceMore.n - 1 :=
  (reads_correct (streamDeck fun _ msf => discFrom msf) plainCodec (fun _ msf => discFrom msf)
    (fun _ _ => 0x55) (streamDeck_prompt _) discFrom_lands le_rfl farAndBack farAndBack_ok onceMore
    ⟨by decide, by decide, by decide, by decide⟩).2.1

end CdPlayer
