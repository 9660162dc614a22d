/-
CdPlayer/Runs.lean

Runs of the driver.

`CD_DescrambleSector` is a sequence of actions too, jump by jump
(`scanStep_acts`).  `Reachable env codec fuel` is the set of states that
`cd_drv_initialize` leads to by turns of the surroundings, calls of
`CD_ReadData` and any number of jumps of calls of `CD_DescrambleSector`;
invariants of actions hold in all of them (`Reachable.acts`).
-/
import CdPlayer.Actions
import CdPlayer.Jumps

namespace CdPlayer

open Run ByteStore

variable {env : Env} {codec : Codec}

/-! ### The scan as actions -/

/-- A move of the scan pointer by a number of bytes that the ring admits. -/
theorem move_acts (env : Env) {n : Int} (h₀ : 0 ≤ n) (h : n ≤ 8388608) (s : Scan) :
    Acts env s.world (s.move env n).world :=
  (Act.turn s.world).acts.tail (.advance _ _ (by omega) (by omega))

theorem cdSetDiffValue_same (value : Int) (w : World) :
    ∃ v, cdSetDiffValue value w = { w with diffValue := v } := by
  unfold cdSetDiffValue
  split
  · exact ⟨_, rfl⟩
  · split
    · exact ⟨_, rfl⟩
    · split
      · exact ⟨_, rfl⟩
      · split
        · exact ⟨_, rfl⟩
        · exact ⟨w.diffValue, rfl⟩

/-- A retry goes back to `TRY_READ` with the status STOP; at most it costs one
of the retries. -/
theorem retryFrame_same (secdiff : Int) (s : Scan) :
    ∃ k v, s.frameRetry - 1 ≤ k ∧ s.retryFrame secdiff = { s with
      label := .tryRead, frameRetry := k
      world := { s.world with diffValue := v, gCDBufStatus := .stop } } := by
  obtain ⟨v, hv⟩ := cdSetDiffValue_same secdiff s.world
  unfold Scan.retryFrame
  by_cases h : s.world.pickupseek = true
  · simp only [if_pos h, Scan.onWorld, hv]
    exact ⟨s.frameRetry - 1, v, le_rfl, rfl⟩
  · simp only [if_neg h]
    exact ⟨s.frameRetry, s.world.diffValue, by omega, rfl⟩

theorem retryFrame_acts (env : Env) (secdiff : Int) (s : Scan) :
    Acts env s.world (s.retryFrame secdiff).world := by
  obtain ⟨k, v, -, hsame⟩ := retryFrame_same secdiff s
  rw [hsame]
  exact ((Act.own s.world _ _ v _ _ _ _).acts).tail (.stop _)

theorem Turned.acts {s t : Scan} (h : Turned env s t) : Acts env s.world t.world := by
  rcases h with rfl | rfl
  · exact .refl
  · exact (Act.turn s.world).acts

theorem Unwanted.acts {s t : Scan} (h : Unwanted env s t) (hring : RingOk s.world.sCDDIBuffer) :
    Acts env s.world t.world := by
  cases h with
  | gaveUp => exact .refl
  | again t ht _ secdiff => exact ht.acts.trans (retryFrame_acts env secdiff t)
  | passed t ht k hk =>
    exact ht.acts.trans (move_acts env hk.nonneg (hk.le (ht.acts.ringOk hring)) t)

theorem inPlace_acts (env : Env) (blk : Nat → UInt8) (s : Scan) :
    Acts env s.world (s.inPlace blk).world :=
  (Act.own s.world _ _ _ _ _ _ _).acts

theorem correct_acts (env : Env) (codec : Codec) (s : Scan) :
    Acts env s.world (s.correct codec).2.world := by
  unfold Scan.correct
  simp only
  split
  · exact (inPlace_acts env _ s).tail (.stop _)
  · exact inPlace_acts env _ s

theorem accept_acts (env : Env) (startAddr : Nat) (raw : Nat → Cell) (lmode : UInt8) (s : Scan) :
    Acts env s.world (s.accept env startAddr raw lmode).world :=
  (Act.own s.world (u32 (startAddr + s.usedSectNum : Nat)) _ _ _ _ _
    (copyUp s.world.cdChunkBuf s.pdCDBuff (s.psCDBuff + dataLocation lmode) 2048)).acts.trans
      ((Act.turn _).acts.tail (.advance _ (cddaSectorSize / 4) (by decide) (by decide)))

theorem deliverStep_acts (env : Env) (codec : Codec) (startAddr n : Nat) (raw : Nat → Cell)
    (lmode : UInt8) (s : Scan) :
    Acts env s.world (deliverStep env codec startAddr n raw lmode s).world := by
  have hcorrect := correct_acts env codec s
  rcases deliverStep_ways env codec startAddr n raw lmode s with ⟨-, hstep⟩ | ⟨-, hstep⟩
  · rw [hstep]
    exact hcorrect
  · rw [hstep]
    exact hcorrect.trans (accept_acts env startAddr raw lmode _)

theorem headerStep_acts (env : Env) (codec : Codec) (startAddr n : Nat) {s : Scan}
    (hring : RingOk s.world.sCDDIBuffer) :
    Acts env s.world (headerStep env codec startAddr n s).world := by
  have hacts : Acts env s.world (s.descramble codec).world :=
    (inPlace_acts env _ s).tail (.own _ _ _ _ _ _ _ _)
  rcases headerStep_ways env codec startAddr n s with ⟨-, hstep⟩ | hother
  · rw [hstep]
    exact hacts.trans (deliverStep_acts env codec startAddr n _ _ _)
  · exact hacts.trans (hother.acts (hacts.ringOk hring))

theorem searched_acts (env : Env) (s : Scan) : Acts env s.world (s.searched env).world :=
  (Act.turn s.world).acts

theorem atHeader_acts {s : Scan} (hres : 0 ≤ s.searchResult env) :
    Acts env s.world (s.atHeader env).world := by
  have hbounds := searchResult_bounds env s
  exact ((searched_acts env s).trans
    (move_acts env hres (by omega) (s.searched env))).tail (.turn _)

theorem searchLbnStep_acts (env : Env) (codec : Codec) (startAddr n : Nat) {s : Scan}
    (hring : RingOk s.world.sCDDIBuffer) :
    Acts env s.world (searchLbnStep env codec startAddr n s).world := by
  have hsearched := searched_acts env s
  have hways := searchLbnStep_ways env codec startAddr n s
  generalize searchLbnStep env codec startAddr n s = t at hways ⊢
  cases hways with
  | missed => exact hsearched.trans (move_acts env (by decide) (by decide) (s.searched env))
  | lost => exact hsearched.tail (.stop _)
  | forced hres => exact atHeader_acts hres
  | header hres =>
    have hheader : Acts env s.world (s.atHeader env).world := atHeader_acts hres
    exact hheader.trans (headerStep_acts env codec startAddr n (hheader.ringOk hring))

/-- **One jump of `CD_DescrambleSector` is a sequence of actions.** -/
theorem scanStep_acts (env : Env) (fuel startAddr sectorSize : Nat) {s : Scan}
    (hring : RingOk s.world.sCDDIBuffer) :
    Acts env s.world (scanStep env codec fuel startAddr sectorSize s).world := by
  unfold scanStep
  split
  · have hread := cdReadData_acts env fuel
      (u32 ((startAddr + s.usedSectNum : Nat) + cdGetDiffValue))
      (u32 ((sectorSize : Int) - s.usedSectNum)) s.pdCDBuff s.world
    unfold tryReadStep
    simp only
    rcases hres : cdReadData env fuel _ _ s.pdCDBuff s.world with ⟨readSize, w⟩
    rw [hres] at hread
    simp only
    split
    · exact hread
    · split <;> exact hread
  · exact searchLbnStep_acts env codec startAddr sectorSize hring
  · exact .refl

theorem enterScan_acts (env : Env) (startAddr : Nat) {w : World} (hring : RingOk w.sCDDIBuffer) :
    Acts env w (enterScan env startAddr w).world := by
  have hturn : Acts env w (yield env w) := (Act.turn w).acts
  unfold enterScan
  simp only
  split
  · exact hturn
  · exact hturn.trans (cdResearchFrame_acts env startAddr (ringOk_yield env hring))

theorem iterate_scanStep_acts (env : Env) (fuel startAddr sectorSize k : Nat) {s : Scan}
    (hring : RingOk s.world.sCDDIBuffer) :
    Acts env s.world ((scanStep env codec fuel startAddr sectorSize)^[k] s).world := by
  refine iterate_inv (P := fun t : Scan => Acts env s.world t.world) (fun t ht => ?_) k .refl
  exact ht.trans (scanStep_acts env fuel startAddr sectorSize (ht.ringOk hring))

/-! ### Reachable states -/

/-- The states of the driver between two of its calls, and inside a call at
its labels. -/
inductive Reachable (env : Env) (codec : Codec) (fuel : Nat) : World → Prop
  | init : Reachable env codec fuel World.initial
  | turn {w : World} (h : Reachable env codec fuel w) : Reachable env codec fuel (yield env w)
  /-- A call of `CD_ReadData`. -/
  | read {w : World} (h : Reachable env codec fuel w) (addr n : Nat) (p : Int) :
      Reachable env codec fuel (cdReadData env fuel addr n p w).2
  /-- A call of `CD_DescrambleSector`, after `k` jumps. -/
  | scan {w : World} (h : Reachable env codec fuel w) (startAddr n k : Nat) :
      Reachable env codec fuel
        ((scanStep env codec fuel startAddr n)^[k] (enterScan env startAddr w)).world

/-- At the first label of a call. -/
theorem Reachable.enter {fuel : Nat} {w : World} (h : Reachable env codec fuel w)
    (startAddr : Nat) : Reachable env codec fuel (enterScan env startAddr w).world :=
  h.scan startAddr 1 0

theorem ringOk_initial : RingOk World.initial.sCDDIBuffer := ringOk_fresh _

/-- A call and its jumps. -/
theorem scan_acts (env : Env) (codec : Codec) {w : World} (hring : RingOk w.sCDDIBuffer)
    (fuel startAddr n k : Nat) : Acts env w
      ((scanStep env codec fuel startAddr n)^[k] (enterScan env startAddr w)).world := by
  have henter := enterScan_acts env startAddr hring
  exact henter.trans (iterate_scanStep_acts env fuel startAddr n k (henter.ringOk hring))

/-- Jumps of a call, after actions. -/
theorem Acts.scan {w : World} (h : Acts env World.initial w) (codec : Codec)
    (fuel startAddr n k : Nat) : Acts env World.initial
      ((scanStep env codec fuel startAddr n)^[k] (enterScan env startAddr w)).world :=
  h.trans (scan_acts env codec (h.ringOk ringOk_initial) fuel startAddr n k)

/-- **Every reachable state is reached by actions.** -/
theorem Reachable.acts {fuel : Nat} {w : World} (h : Reachable env codec fuel w) :
    Acts env World.initial w := by
  induction h with
  | init => exact .refl
  | turn _ ih => exact ih.tail (.turn _)
  | read _ addr n p ih => exact ih.trans (cdReadData_acts env ..)
  | scan _ startAddr n k ih => exact ih.scan codec _ startAddr n k

theorem Reachable.ringOk {fuel : Nat} {w : World} (h : Reachable env codec fuel w) :
    RingOk w.sCDDIBuffer := h.acts.ringOk ringOk_initial

end CdPlayer
