/-
CdPlayer/Trailing.lean

How far the read pointer of the ring trails the scan.

`CD_DescrambleSector` moves two pointers.  The scan pointer `psCDBuff` goes
through the chunk that `CD_ReadData` has copied, byte by byte; the read
pointer goes through the ring, in samples of four bytes.  Each move of the
one is accompanied by a move of the other, of the same length divided by
four.  Sectors, passed over or delivered, divide; so do the skips of
`frameUnderStep`.  The offset at which a header is found need not, and what
is left over of it the read pointer falls behind (`Scan.dropped`).

`Lags` is what a search does to the distance, and `read_pointer_trails` the
result: since the last `CD_ReadData` the read pointer has never gone ahead
of the scan, and it is at most three bytes behind for each header found.
-/
import CdPlayer.Lib.Cost
import CdPlayer.Relock
import CdPlayer.Reads
import CdPlayer.Retries

namespace CdPlayer

open Run ByteStore

/-! ### The samples passed -/

/-- The samples by which a note advances the read pointer. -/
def Note.samples : Note → Int
  | .advance n _ => n
  | _ => 0

/-- All the samples that `SingleBufferUpdateReadPointer` has been given. -/
def World.samplesPassed (w : World) : Int := (w.notes.map Note.samples).sum

theorem samplesPassed_updateReadPointer (n : Int) (w : World) :
    (updateReadPointer n w).samplesPassed = n + w.samplesPassed :=
  List.sum_cons

/-- The surroundings do not advance the read pointer. -/
theorem Grows.samplesPassed {w w' : World} (h : Grows w w') :
    w'.samplesPassed = w.samplesPassed := by
  obtain ⟨l, hl, hpassive⟩ := h
  have hnone : (l.map Note.samples).sum = 0 := by
    apply List.sum_eq_zero
    intro x hx
    obtain ⟨note, hnote, rfl⟩ := List.mem_map.mp hx
    have hp := hpassive note hnote
    cases note with
    | advance n avail => exact absurd hp id
    | _ => rfl
  unfold World.samplesPassed
  rw [hl, List.map_append, List.sum_append, hnone, zero_add]

/-! ### The lag -/

/-- From `s` to `t` the scan pointer has gone `d` bytes further than the read
pointer. -/
structure Lags (d : Int) (s t : Scan) : Prop where
  ring : RingOk t.world.sCDDIBuffer
  scan : t.psCDBuff - s.psCDBuff = 4 * (t.world.samplesPassed - s.world.samplesPassed) + d
  readPtr : t.world.sCDDIBuffer.lReadPtr
    = (s.world.sCDDIBuffer.lReadPtr + (t.world.samplesPassed - s.world.samplesPassed)) % 2097152

variable {env : Env} {codec : Codec} {fuel startAddr n : Nat} {d e : Int} {s s' t : Scan}

theorem Lags.refl (h : RingOk s.world.sCDDIBuffer) : Lags 0 s s := by
  have hnonneg := h.inside.readNonneg
  have hlt := h.inside.readLt
  rw [h.length] at hlt
  exact ⟨h, by omega, by omega⟩

theorem Lags.trans (h : Lags d s s') (h' : Lags e s' t) : Lags (d + e) s t := by
  obtain ⟨-, hscan, hread⟩ := h
  obtain ⟨hring, hscan', hread'⟩ := h'
  exact ⟨hring, by omega, by omega⟩

/-- What changes neither pointer. -/
theorem Lags.own (h : Lags d s s') (hps : t.psCDBuff = s'.psCDBuff)
    (hring : t.world.sCDDIBuffer = s'.world.sCDDIBuffer)
    (hnotes : t.world.notes = s'.world.notes) : Lags d s t := by
  have hpassed : t.world.samplesPassed = s'.world.samplesPassed := by
    unfold World.samplesPassed
    rw [hnotes]
  refine ⟨?_, ?_, ?_⟩
  · rw [hring]; exact h.ring
  · rw [hps, hpassed]; exact h.scan
  · rw [hring, hpassed]; exact h.readPtr

theorem Lags.goto (h : Lags d s s') (l : Label) : Lags d s (s'.goto l) := h.own rfl rfl rfl

theorem Lags.turn (env : Env) (h : Lags d s s') : Lags d s (s'.onWorld (yield env)) := by
  have hframe := frame_yield env s'.world
  refine ⟨ringOk_yield env h.ring, ?_, ?_⟩
  · change s'.psCDBuff - s.psCDBuff = 4 * ((yield env s'.world).samplesPassed - _) + d
    rw [hframe.notes.samplesPassed]
    exact h.scan
  · change (yield env s'.world).sCDDIBuffer.lReadPtr
      = (_ + ((yield env s'.world).samplesPassed - _)) % _
    rw [hframe.readPtr, hframe.notes.samplesPassed]
    exact h.readPtr

/-- A move: what does not make a sample is left behind. -/
theorem Lags.move (env : Env) (h : Lags d s s') {k : Int} (hk : 0 ≤ k) (hk' : k ≤ 8388608) :
    Lags (d + k % 4) s (s'.move env k) := by
  obtain ⟨hring, hscan, hread⟩ := h.turn env
  have hsamples := samplesPassed_updateReadPointer (k / 4) (yield env s'.world)
  have hptr := hring.advance_lReadPtr (n := k / 4) (by omega) (by omega)
  simp only [Scan.onWorld] at hscan hread hptr
  refine ⟨hring.advance (by omega) (by omega), ?_, ?_⟩
  · change s'.psCDBuff + k - s.psCDBuff
      = 4 * ((updateReadPointer (k / 4) (yield env s'.world)).samplesPassed - _) + (d + k % 4)
    omega
  · change (singleBufferUpdateReadPointer (yield env s'.world).sCDDIBuffer (k / 4)).lReadPtr
      = (_ + ((updateReadPointer (k / 4) (yield env s'.world)).samplesPassed - _)) % _
    omega

/-- A move by whole samples. -/
theorem Lags.moveSamples (env : Env) (h : Lags d s s') {k : Int} (hk : 0 ≤ k)
    (hk' : k ≤ 8388608) (hsamples : k % 4 = 0) : Lags d s (s'.move env k) := by
  have hmove := h.move env hk hk'
  rw [hsamples, add_zero] at hmove
  exact hmove

/-! ### One search -/

theorem Lags.retryFrame (h : Lags d s s') (secdiff : Int) : Lags d s (s'.retryFrame secdiff) := by
  obtain ⟨k, v, -, hsame⟩ := retryFrame_same secdiff s'
  rw [hsame]
  exact h.own rfl rfl rfl

theorem Lags.turned (h : Lags d s s') (ht : Turned env s' t) : Lags d s t := by
  rcases ht with rfl | rfl
  · exact h
  · exact h.turn env

/-- A header that is not the one wanted is passed by whole samples. -/
theorem Lags.unwanted (h : Lags d s s') (hother : Unwanted env s' t) : Lags d s t := by
  cases hother with
  | gaveUp => exact h.goto _
  | again t ht _ secdiff => exact (h.turned ht).retryFrame secdiff
  | passed t ht k hk =>
    have hturned := h.turned ht
    exact (hturned.moveSamples env hk.nonneg (hk.le hturned.ring) hk.samples).goto _

theorem Lags.correct (codec : Codec) (h : Lags d s s') : Lags d s (s'.correct codec).2 := by
  unfold Scan.correct
  rcases codec.c3Decoder (blockAt s'.world.cdChunkBuf s'.psCDBuff) cdC3Cnt with ⟨res, blk⟩
  simp only
  split <;> exact h.own rfl rfl rfl

theorem Lags.accept (env : Env) (startAddr : Nat) (raw : Nat → Cell) (lmode : UInt8)
    (h : Lags d s s') : Lags d s (s'.accept env startAddr raw lmode) := by
  have hcopied : Lags d s (((s'.onWorld fun w =>
      cdSetLastSector (u32 (startAddr + s'.usedSectNum : Nat)) { w with
        cdChunkBuf := copyUp w.cdChunkBuf s'.pdCDBuff (s'.psCDBuff + dataLocation lmode) 2048 }).log
          (.copy s'.pdCDBuff (s'.psCDBuff + dataLocation lmode))).log
            (.accepted s'.usedSectNum raw)) := h.own rfl rfl rfl
  have hmove := hcopied.moveSamples env (k := cddaSectorSize) (by decide) (by decide) (by decide)
  exact hmove.own rfl rfl rfl

theorem Lags.deliverStep (h : Lags d s s') (raw : Nat → Cell) (lmode : UInt8) :
    Lags d s (deliverStep env codec startAddr n raw lmode s') := by
  have hcorrect := h.correct codec
  rcases deliverStep_ways env codec startAddr n raw lmode s' with ⟨-, hstep⟩ | ⟨-, hstep⟩
  · rw [hstep]
    exact hcorrect.goto _
  · rw [hstep]
    exact (hcorrect.accept env startAddr raw lmode).goto _

theorem Lags.headerStep (h : Lags d s s') :
    Lags d s (headerStep env codec startAddr n s') := by
  have hdesc : Lags d s (s'.descramble codec) := h.own rfl rfl rfl
  rcases headerStep_ways env codec startAddr n s' with ⟨-, hstep⟩ | hother
  · rw [hstep]
    exact hdesc.deliverStep _ _
  · exact hdesc.unwanted hother

/-- The next jump finds a header. -/
def Scan.Matches (env : Env) (s : Scan) : Prop :=
  s.label = .searchLbn ∧ 0 ≤ s.searchResult env

instance (env : Env) (s : Scan) : Decidable (s.Matches env) :=
  inferInstanceAs (Decidable (_ ∧ _))

/-- What the read pointer falls behind in the next jump. -/
def Scan.dropped (env : Env) (s : Scan) : Int :=
  if s.Matches env then s.searchResult env % 4 else 0

theorem searchLbnStep_lags (env : Env) (codec : Codec) (startAddr n : Nat)
    (hring : RingOk s.world.sCDDIBuffer) (hlabel : s.label = .searchLbn) :
    Lags (s.dropped env) s (searchLbnStep env codec startAddr n s) := by
  have hbounds := searchResult_bounds env s
  have hmissed : s.searchResult env < 0 → s.dropped env = 0 :=
    fun hneg => if_neg fun h : s.Matches env => absurd h.2 (not_le.mpr hneg)
  have hsearched : Lags 0 s (s.searched env) := ((Lags.refl hring).turn env).own rfl rfl rfl
  have hheader : 0 ≤ s.searchResult env → Lags (s.dropped env) s (s.atHeader env) := by
    intro hres
    have hdropped : s.dropped env = 0 + s.searchResult env % 4 := by
      rw [zero_add]
      exact if_pos ⟨hlabel, hres⟩
    rw [hdropped]
    exact (hsearched.move env hres (by omega)).turn env
  have hways := searchLbnStep_ways env codec startAddr n s
  generalize CdPlayer.searchLbnStep env codec startAddr n s = t at hways ⊢
  cases hways with
  | missed hres hcnt =>
    rw [hmissed hres]
    have hmove := hsearched.moveSamples env (k := userSectorSize) (by decide) (by decide)
      (by decide)
    exact hmove.own rfl rfl rfl
  | lost hres hcnt =>
    rw [hmissed hres]
    exact hsearched.own rfl rfl rfl
  | forced hres => exact (hheader hres).goto _
  | header hres => exact (hheader hres).headerStep

/-- A jump that does not read. -/
theorem scanStep_lags (env : Env) (codec : Codec) (fuel startAddr n : Nat)
    (hring : RingOk s.world.sCDDIBuffer) (hlabel : s.label ≠ .tryRead) :
    Lags (s.dropped env) s (scanStep env codec fuel startAddr n s) := by
  have hstays : s.label ≠ .searchLbn → Lags (s.dropped env) s s := by
    intro hno
    unfold Scan.dropped
    rw [if_neg fun h : s.Matches env => hno h.1]
    exact .refl hring
  unfold scanStep
  rcases hl : s.label with - | - | res | -
  · exact absurd hl hlabel
  · exact searchLbnStep_lags env codec startAddr n hring hl
  · exact hstays (by rw [hl]; nofun)
  · exact hstays (by rw [hl]; nofun)

/-! ### The next read -/

theorem checkBuffering_lReadPtr (env : Env) (n : Nat) (w : World) :
    (checkBuffering env n w).2.sCDDIBuffer.lReadPtr = w.sCDDIBuffer.lReadPtr := by
  have hturns := (yield_lReadPtr env (yield env w)).trans (yield_lReadPtr env w)
  unfold checkBuffering
  simp only
  split
  · unfold cdSetStartBuffing
    simp only
    split
    · exact (yield_lReadPtr env _).trans (yield_lReadPtr env w)
    · split
      · exact (yield_lReadPtr env _).trans hturns
      · exact hturns
  · exact yield_lReadPtr env w
  · exact yield_lReadPtr env w

/-- `CD_Do_StartBuffering`, if it is not given up. -/
theorem cdDoStartBuffering_lReadPtr (env : Env) {req : Nat} (hreq : req < 262144) (w : World)
    (hlast : (cdDoStartBuffering env req w).1 ≠ bufferingTimeOut) :
    (cdDoStartBuffering env req w).2.sCDDIBuffer.lReadPtr = w.sCDDIBuffer.lReadPtr := by
  have hwait : (waitFor env req (enterStart w)).2.sCDDIBuffer.lReadPtr
      = w.sCDDIBuffer.lReadPtr :=
    waitFor_inv (P := fun u => u.sCDDIBuffer.lReadPtr = w.sCDDIBuffer.lReadPtr)
      (fun u hu => (yield_lReadPtr env u).trans hu) req rfl
  rcases cdDoStartBuffering_cases env req hreq w with
    ⟨hr, -⟩ | ⟨hr, -⟩ | ⟨hr, -⟩ | ⟨m, -, hr, -⟩ | ⟨hr, -⟩
  · rw [hr]
    exact hwait
  · rw [hr]
    exact hwait
  · rw [hr]
    exact hwait
  · rw [hr]
    exact (yield_lReadPtr env _).trans hwait
  · -- only here the pointers have been set back
    rw [hr] at hlast
    exact absurd rfl hlast

/-- The passes of a read that has not sought. -/
theorem tryRead_lReadPtr (env : Env) {addr req : Nat} (hreq : req < 262144) (fuel : Nat)
    {w : World} {r : Int} (h : (tryRead env addr req fuel w).1 = some r)
    (hring : (tryRead env addr req fuel w).2.pickupseek = false) :
    (tryRead env addr req fuel w).2.sCDDIBuffer.lReadPtr = w.sCDDIBuffer.lReadPtr := by
  obtain ⟨k, v, hpass, hlast, hno⟩ := tryRead_last h
  generalize (tryRead env addr req fuel w).2 = u at hlast hring ⊢
  -- after a pass that times out the status is STOP, and the next one seeks
  have hv : v.gCDBufStatus = .stop ∨ v.sCDDIBuffer.lReadPtr = w.sCDDIBuffer.lReadPtr :=
    hpass.inv
      (P := fun v => v.gCDBufStatus = .stop ∨ v.sCDDIBuffer.lReadPtr = w.sCDDIBuffer.lReadPtr)
      (fun _ _ htime => .inl (tryPass_timeOut_stop hreq htime).1) (.inr rfl)
  have hnostop : v.gCDBufStatus ≠ .stop := by
    intro hst
    have hpickup := cdDoStopBuffering_pickup env hreq addr v
    rw [← tryPass_stop env addr req hst, hlast] at hpickup
    exact absurd (hpickup.symm.trans hring) (by decide)
  have hptr := hv.resolve_left hnostop
  by_cases hst : v.gCDBufStatus = .start
  · rw [tryPass_start env addr req hst] at hlast
    have hstart := cdDoStartBuffering_lReadPtr env hreq v (by rw [hlast]; exact hno)
    rw [hlast] at hstart
    exact hstart.trans hptr
  · -- neither START nor STOP: nothing is done
    have hsame : tryPass env addr req v = (0, v) := by
      unfold tryPass
      split
      next h => exact absurd h hst
      next h => exact absurd h hnostop
      next => rfl
    rw [← (Prod.mk.inj (hsame.symm.trans hlast)).2]
    exact hptr

/-- **A read that goes on from the ring** finds the read pointer where it was
left.  Whether a read has sought instead, `pickupseek` says. -/
theorem cdReadData_lReadPtr (env : Env) (fuel addr n : Nat) (p : Int) {w u : World} {v : Int}
    (hv : cdReadData env fuel addr n p w = (some v, u)) (hpos : 0 < v)
    (hring : u.pickupseek = false) : u.sCDDIBuffer.lReadPtr = w.sCDDIBuffer.lReadPtr := by
  have hreq := checkBuffering_lt env n w
  obtain ⟨r, htry, -, hrun⟩ :=
    cdReadData_buffered env fuel addr n p (congrArg Prod.fst hv) hpos
  obtain ⟨chunk, offset, hcopy⟩ := cdCopyReadData_same p (2 * wantSampleSize n)
    (checkBuffering env n w).1 (copyState env n (tryRead env addr (checkBuffering env n w).1
      fuel (checkBuffering env n w).2).2)
  rw [hv, hcopy] at hrun
  obtain ⟨-, rfl⟩ := Prod.mk.inj hrun
  have hptr := tryRead_lReadPtr env hreq fuel htry ((yield_pickupseek env _).symm.trans hring)
  exact (yield_lReadPtr env _).trans (hptr.trans (checkBuffering_lReadPtr env n w))

/-! ### Runs -/

/-- A call is about to search, or it has delivered what was asked for. -/
def Scan.Arrived (s : Scan) : Prop := s.label = .searchLbn ∨ s.label = .returned userSectorSize

/-- Jump `j` is the last `CD_ReadData` before state `k`. -/
structure LastRead (run : Nat → Scan) (j k : Nat) : Prop where
  lt : j < k
  read : (run j).label = .tryRead
  last : ∀ i, j < i → i < k → (run i).label ≠ .tryRead

/-- The place in the ring of the byte at offset `i` of the window that starts
at the read pointer (`windowByte`). -/
def SingleBufferState.windowSlot (b : SingleBufferState) (i : Int) : Int :=
  (4 * b.lReadPtr + i) % (4 * b.lLength)

/-- The bytes that the scan pointer has gone since the read of jump `j`. -/
def scannedSince (run : Nat → Scan) (j k : Nat) : Int := (run k).psCDBuff - (run j).pdCDBuff

/-- The samples that `SingleBufferUpdateReadPointer` has been given since. -/
def samplesSince (run : Nat → Scan) (j k : Nat) : Int :=
  (run k).world.samplesPassed - (run (j + 1)).world.samplesPassed

/-- The headers found since. -/
def headersSince (env : Env) (run : Nat → Scan) (j k : Nat) : Nat :=
  ((Finset.Ico (j + 1) k).filter fun i => (run i).Matches env).card

/-- The read pointer and the scan pointer at state `k`, since the read of jump
`j`. -/
structure Trails (env : Env) (run : Nat → Scan) (j k : Nat) : Prop where
  behind : 4 * samplesSince run j k ≤ scannedSince run j k
  near : scannedSince run j k - 3 * headersSince env run j k ≤ 4 * samplesSince run j k
  level : (∀ i, j < i → i < k → (run i).Matches env → 4 ∣ (run i).searchResult env) →
    scannedSince run j k = 4 * samplesSince run j k
  /-- A `CD_ReadData` that goes on from the ring brings the byte to be scanned
  next, and what follows it, to that offset of its chunk by which the read
  pointer is behind. -/
  resumes : ∀ (fuel addr m : Nat) (p v : Int) (u : World),
    cdReadData env fuel addr m p (run k).world = (some v, u) → 0 < v → u.pickupseek = false →
    ∀ i, u.sCDDIBuffer.windowSlot (scannedSince run j k - 4 * samplesSince run j k + i)
      = (run (j + 1)).world.sCDDIBuffer.windowSlot (scannedSince run j k + i)

section
variable {run : Nat → Scan} {j k : Nat}

/-- What a search leaves behind is less than a sample. -/
theorem Lags.trails (hring : RingOk (run (j + 1)).world.sCDDIBuffer)
    (hstart : (run (j + 1)).psCDBuff = (run j).pdCDBuff)
    (h : Lags (∑ i ∈ Finset.Ico (j + 1) k, (run i).dropped env) (run (j + 1)) (run k)) :
    Trails env run j k := by
  obtain ⟨hring', hscan, hread⟩ := h
  have hbounds := counted_cost_bounds (I := Finset.Ico (j + 1) k)
    (p := fun i => (run i).Matches env) (f := fun i => (run i).searchResult env % 4) (c := 3)
    fun i _ => by omega
  have hzero := counted_cost_zero (I := Finset.Ico (j + 1) k)
    (p := fun i => (run i).Matches env) (f := fun i => (run i).searchResult env % 4)
  change 0 ≤ ∑ i ∈ Finset.Ico (j + 1) k, (run i).dropped env ∧
    ∑ i ∈ Finset.Ico (j + 1) k, (run i).dropped env ≤ 3 * (headersSince env run j k : Int)
    at hbounds
  change _ → ∑ i ∈ Finset.Ico (j + 1) k, (run i).dropped env = 0 at hzero
  have hlag : scannedSince run j k
      = 4 * samplesSince run j k + ∑ i ∈ Finset.Ico (j + 1) k, (run i).dropped env := by
    unfold scannedSince samplesSince
    rw [← hstart]
    exact hscan
  change _ = (_ + samplesSince run j k) % _ at hread
  generalize ∑ i ∈ Finset.Ico (j + 1) k, (run i).dropped env = d at hlag hbounds hzero
  refine ⟨by omega, by omega, fun hall => ?_, fun fuel addr m p v u hu hpos hpickup i => ?_⟩
  · have hnone : d = 0 := hzero fun i hi hm => by
      obtain ⟨hji, hik⟩ := Finset.mem_Ico.mp hi
      exact Int.emod_eq_zero_of_dvd (hall i hji hik hm)
    omega
  · have hptr := cdReadData_lReadPtr env fuel addr m p hu hpos hpickup
    have hacts := cdReadData_acts env fuel addr m p (run k).world
    rw [hu] at hacts
    have hlength := (hacts.ringOk hring').length
    have hlength' := hring.length
    unfold SingleBufferState.windowSlot
    rw [hlength, hlength', hptr, hread]
    omega

end

theorem tryReadStep_psCDBuff (env : Env) (fuel startAddr n : Nat) (s : Scan) :
    (tryReadStep env fuel startAddr n s).psCDBuff = s.pdCDBuff := by
  unfold tryReadStep
  simp only
  generalize cdReadData env fuel _ _ s.pdCDBuff s.world = r
  obtain ⟨- | v, w⟩ := r
  · rfl
  · simp only
    split <;> rfl

theorem enterScan_label (env : Env) (startAddr : Nat) (w : World) :
    (enterScan env startAddr w).label = .tryRead ∨
    (enterScan env startAddr w).label = .returned cdForceStop := by
  unfold enterScan
  simp only
  split
  · exact .inr rfl
  · exact .inl rfl

/-- Before a call arrives anywhere it reads. -/
theorem lastRead_exists {k : Nat} {w : World}
    (hk : (scanAt env codec fuel startAddr n w k).Arrived) :
    ∃ j, LastRead (scanAt env codec fuel startAddr n w) j k := by
  have hfirst : (scanAt env codec fuel startAddr n w 0).label = .tryRead := by
    rcases enterScan_label env startAddr w with hlabel | hlabel
    · exact hlabel
    · -- stopped by force: the call stays there
      unfold scanAt Scan.Arrived at hk
      rw [iterate_returned hlabel, hlabel] at hk
      exact absurd hk (by decide)
  have hpos : 0 < k := by
    rcases Nat.eq_zero_or_pos k with rfl | hpos
    · unfold Scan.Arrived at hk
      rw [hfirst] at hk
      exact absurd hk (by decide)
    · exact hpos
  obtain ⟨j, hj, hread, hlast⟩ :=
    exists_last (p := fun i => (scanAt env codec fuel startAddr n w i).label = .tryRead) hpos hfirst
  exact ⟨j, hj, hread, hlast⟩

/-- **The read pointer never runs ahead of the scan.**  In every run of a
call, whatever the deck delivers: where the call is about to search, and
where it has succeeded, the read pointer has gone no further than the scan
since the last `CD_ReadData`, it is at most three bytes behind for each
header found, and level with it if these were all found at multiples of
four.  So a `CD_ReadData` that goes on from the ring skips no byte that has
not been scanned. -/
theorem read_pointer_trails (env : Env) (codec : Codec) {r fuel startAddr n k : Nat} {w : World}
    (hw : Reachable env codec r w) (hk : (scanAt env codec fuel startAddr n w k).Arrived) :
    ∃ j, LastRead (scanAt env codec fuel startAddr n w) j k ∧
      Trails env (scanAt env codec fuel startAddr n w) j k := by
  have hring : ∀ i, RingOk (scanAt env codec fuel startAddr n w i).world.sCDDIBuffer :=
    fun i => (hw.acts.scan codec fuel startAddr n i).ringOk ringOk_initial
  obtain ⟨j, hj⟩ := lastRead_exists hk
  refine ⟨j, hj, Lags.trails (hring (j + 1)) ?_ ?_⟩
  · rw [scanAt_succ, scanStep_tryRead env codec hj.read]
    exact tryReadStep_psCDBuff env fuel startAddr n _
  · refine cost_run hj.lt (.refl (hring (j + 1))) Lags.trans fun i hi hik => ?_
    rw [scanAt_succ]
    exact scanStep_lags env codec fuel startAddr n (hring i) (hj.last i hi hik)

/-- A sector delivered. -/
theorem read_pointer_trails_delivered :
    ∃ j, LastRead (scanAt (streamDeck fun _ msf => discFrom msf) plainCodec 207 150 1
        (yield (streamDeck fun _ msf => discFrom msf) World.initial)) j 207 ∧
      Trails (streamDeck fun _ msf => discFrom msf)
        (scanAt (streamDeck fun _ msf => discFrom msf) plainCodec 207 150 1
          (yield (streamDeck fun _ msf => discFrom msf) World.initial)) j 207 := by
  have hrest : AtRest plainCodec (fun _ msf => discFrom msf) (fun _ _ => 0x55)
      (yield (streamDeck fun _ msf => discFrom msf) World.initial) :=
    ⟨⟨flowing_of_empty (ringOk_fresh _) (by decide) rfl rfl, by decide, by decide, by decide⟩,
      .inl rfl⟩
  have hanswer : Fulfilled plainCodec (fun _ msf => discFrom msf) (fun _ _ => 0x55) 150 1
      (cdDescrambleSector (streamDeck fun _ msf => discFrom msf) plainCodec 207 150 1
        (yield (streamDeck fun _ msf => discFrom msf) World.initial)) :=
    hrest.call (streamDeck_prompt _) discFrom_lands le_rfl le_rfl (by decide) (by decide) le_rfl
  exact read_pointer_trails _ plainCodec (r := 207) (.turn .init) (.inr hanswer.label)

end CdPlayer
