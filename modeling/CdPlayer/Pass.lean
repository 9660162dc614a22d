/-
CdPlayer/Pass.lean

The label `TRY_READ` of `CD_ReadData` (cdif_drv.c), pass by pass.

Each pass runs one of the two buffering functions; a pass that times out
jumps back, any other ends the call.  `Pass env addr req w k v` says that
the pass number `k` of a call that reaches the label in state `w` starts in
state `v`.

Nothing counts the passes, so what holds of a call is shown by a rule for
the jump: `tryRead_inv` for what every pass keeps, and `tryRead_last` with
`Pass.inv` for what the result says about the pass it comes from.
-/
import CdPlayer.Outside
import CdPlayer.ReadData

namespace CdPlayer

variable {env : Env} {addr req k : Nat} {w v : World}

/-! ### How the buffering functions end -/

theorem waitBuffered_expired {req t have_ n : Nat} {w u : World}
    (h : waitBuffered env req t have_ w = (.expired n, u)) : n < req := by
  induction t generalizing have_ w with
  | zero =>
    unfold waitBuffered at h
    split at h
    next hlt =>
      simp only at h
      split at h
      · simp at h
      · split at h
        · simp at h
        · simp only [Prod.mk.injEq, WaitExit.expired.injEq] at h
          exact h.1 ▸ hlt
    next => simp at h
  | succ t ih =>
    unfold waitBuffered at h
    split at h
    · simp only at h
      split at h
      · simp at h
      · split at h
        · simp at h
        · exact ih h
    · simp at h

/-- The samples a call waits for. -/
theorem checkBuffering_lt (env : Env) (n : Nat) (w : World) :
    (checkBuffering env n w).1 < 262144 := by
  have hwant := wantSampleSize_le n
  unfold checkBuffering
  simp only
  split
  · simp only; omega
  · simp only; omega
  · simp only
    split <;> omega

/-- How `CD_Do_StartBuffering` ends. -/
theorem cdDoStartBuffering_cases (env : Env) (req : Nat) (hreq : req < 262144) (w : World) :
    let r := cdDoStartBuffering env req w
    let u := (waitFor env req (enterStart w)).2
    r = (1, u) ∧ (waitFor env req (enterStart w)).1 = .filled ∨
    r = (shockDetect, u) ∧ (waitFor env req (enterStart w)).1 = .shock ∨
    r = (cdForceStop, u) ∧ (waitFor env req (enterStart w)).1 = .forceStop ∨
    (∃ have_ : Nat, have_ < req ∧ r = ((have_ : Int), yield env u) ∧
      (waitFor env req (enterStart w)).1 = .expired have_ ∧
      (yield env u).gCDErrorStatus = .bufFull) ∨
    r = giveUp env (zeroPointers env (yield env u)) ∧
      (yield env u).gCDErrorStatus ≠ .bufFull := by
  intro r u
  have hr : r = cdDoStartBuffering env req w := rfl
  unfold cdDoStartBuffering at hr
  rcases hwait : waitFor env req (enterStart w) with ⟨exit, v⟩
  have hu : u = v := congrArg Prod.snd hwait
  rw [hwait] at hr
  cases exit with
  | filled => exact .inl ⟨by rw [hu]; exact hr, rfl⟩
  | shock => exact .inr (.inl ⟨by rw [hu]; exact hr, rfl⟩)
  | forceStop => exact .inr (.inr (.inl ⟨by rw [hu]; exact hr, rfl⟩))
  | expired have_ =>
    -- the timer has run out: the ring full, or the deck silent
    have hlt := waitBuffered_expired hwait
    rw [hu]
    simp only at hr
    split at hr
    next hfull =>
      refine .inr (.inr (.inr (.inl ⟨have_, hlt, ?_, rfl, hfull⟩)))
      rw [hr, s32_of_lt (by omega) (by omega)]
    next hfull => exact .inr (.inr (.inr (.inr ⟨hr, hfull⟩)))

/-- How `CD_Do_StopBuffering` ends. -/
theorem cdDoStopBuffering_cases (env : Env) {req : Nat} (hreq : req < 262144) (addr : Nat)
    (w : World) :
    let r := cdDoStopBuffering env addr req w
    let s := startStream env addr w
    let u := (waitFor env req s.2).2
    r = s ∧ s.1 = -1 ∨
    s.1 ≠ -1 ∧ (
      r = (1, cdSetErrorStatus .noProblem (yield env u)) ∧
        (waitFor env req s.2).1 = .filled ∨
      r = (shockDetect, u) ∧ (waitFor env req s.2).1 = .shock ∨
      r = (cdForceStop, u) ∧ (waitFor env req s.2).1 = .forceStop ∨
      (∃ have_ : Nat, have_ < req ∧
        r = ((have_ : Int), (yield env u).note (.stopExpired s.2.gCDErrorStatus)) ∧
        (waitFor env req s.2).1 = .expired have_ ∧
        (yield env u).gCDErrorStatus = .bufFull) ∨
      r = giveUp env (yield env u) ∧ (yield env u).gCDErrorStatus ≠ .bufFull) := by
  intro r s u
  have hr : r = cdDoStopBuffering env addr req w := rfl
  unfold cdDoStopBuffering at hr
  rcases hs : startStream env addr w with ⟨ret, v⟩
  have hsv : s = (ret, v) := hs
  rw [hs] at hr
  simp only at hr
  by_cases hret : ret = -1
  · -- the seek has failed
    rw [if_pos hret] at hr
    exact .inl ⟨by rw [hr, hsv], by rw [hsv]; exact hret⟩
  · rw [if_neg hret] at hr
    refine .inr ⟨by rw [hsv]; exact hret, ?_⟩
    have hu : u = (waitFor env req v).2 := by rw [show v = s.2 by rw [hsv]]
    rw [hu, hsv]
    simp only
    rcases hwait : waitFor env req v with ⟨exit, x⟩
    rw [hwait] at hr
    cases exit with
    | filled => exact .inl ⟨hr, rfl⟩
    | shock => exact .inr (.inl ⟨hr, rfl⟩)
    | forceStop => exact .inr (.inr (.inl ⟨hr, rfl⟩))
    | expired have_ =>
      -- the timer has run out: the ring full, or the deck silent
      have hlt := waitBuffered_expired hwait
      simp only at hr
      split at hr
      next hfull =>
        refine .inr (.inr (.inr (.inl ⟨have_, hlt, ?_, rfl, hfull⟩)))
        rw [hr, s32_of_lt (by omega) (by omega)]
      next hfull => exact .inr (.inr (.inr (.inr ⟨hr, hfull⟩)))

/-! ### Passes -/

section
variable (env : Env)

/-- One pass of `TRY_READ`. -/
def tryPass (startAddr requestSampleSize : Nat) (w : World) : Int × World :=
  match w.gCDBufStatus with
  | .start => cdDoStartBuffering env requestSampleSize w
  | .stop => cdDoStopBuffering env startAddr requestSampleSize w
  | _ => (0, w)

theorem tryRead_succ (addr req fuel : Nat) (w : World) :
    tryRead env addr req (fuel + 1) w =
      if (tryPass env addr req w).1 ≥ 0 then
        (some (tryPass env addr req w).1, (tryPass env addr req w).2)
      else if (tryPass env addr req w).1 = bufferingTimeOut then
        tryRead env addr req fuel (tryPass env addr req w).2
      else (some (tryPass env addr req w).1, (tryPass env addr req w).2) := rfl

/-- Pass number `k` starts in this state. -/
inductive Pass (addr req : Nat) (w : World) : Nat → World → Prop
  | first : Pass addr req w 0 w
  | again {k : Nat} {v : World} (h : Pass addr req w k v)
      (htime : (tryPass env addr req v).1 = bufferingTimeOut) :
      Pass addr req w (k + 1) (tryPass env addr req v).2

end

/-- The call goes on where the pass starts. -/
theorem Pass.tryRead (h : Pass env addr req w k v) (fuel : Nat) :
    tryRead env addr req (k + fuel) w = tryRead env addr req fuel v := by
  induction h generalizing fuel with
  | first => rw [Nat.zero_add]
  | again h htime ih =>
    rename_i k v
    rw [show k + 1 + fuel = k + (fuel + 1) by omega, ih, tryRead_succ,
      if_neg (by rw [htime]; decide), if_pos htime]

/-- A pass counted from the second pass on. -/
theorem Pass.later (htime : (tryPass env addr req w).1 = bufferingTimeOut)
    (h : Pass env addr req (tryPass env addr req w).2 k v) : Pass env addr req w (k + 1) v := by
  induction h with
  | first => exact .again .first htime
  | again _ htime' ih => exact .again ih htime'

theorem tryPass_start (env : Env) (addr req : Nat) (h : v.gCDBufStatus = .start) :
    tryPass env addr req v = cdDoStartBuffering env req v := by
  unfold tryPass
  rw [h]

theorem tryPass_stop (env : Env) (addr req : Nat) (h : v.gCDBufStatus = .stop) :
    tryPass env addr req v = cdDoStopBuffering env addr req v := by
  unfold tryPass
  rw [h]

/-! ### Passes that time out -/

theorem giveUp_status (env : Env) (w : World) : (giveUp env w).2.gCDBufStatus = .stop :=
  yield_gCDBufStatus env _

/-- A pass times out only by giving up. -/
theorem tryPass_timeOut_cases (hreq : req < 262144)
    (h : (tryPass env addr req w).1 = bufferingTimeOut) :
    w.gCDBufStatus = .start ∧ tryPass env addr req w
      = giveUp env (zeroPointers env (yield env (waitFor env req (enterStart w)).2)) ∨
    w.gCDBufStatus = .stop ∧ tryPass env addr req w
      = giveUp env (yield env (waitFor env req (startStream env addr w).2).2) := by
  rcases hst : w.gCDBufStatus with - | - | - | -
  · -- neither START nor STOP: the pass returns 0
    unfold tryPass at h
    rw [hst] at h
    exact absurd h (show ¬ (0 : Int) = -8 by decide)
  · rw [tryPass_start env addr req hst] at h ⊢
    rcases cdDoStartBuffering_cases env _ hreq w with
      ⟨hr, -⟩ | ⟨hr, -⟩ | ⟨hr, -⟩ | ⟨n, -, hr, -⟩ | ⟨hr, -⟩
    · rw [hr] at h; simp at h
    · rw [hr] at h; simp at h
    · rw [hr] at h; simp at h
    · rw [hr] at h; simp only [bufferingTimeOut] at h; omega
    · exact .inl ⟨rfl, hr⟩
  · rw [tryPass_stop env addr req hst] at h ⊢
    rcases cdDoStopBuffering_cases env hreq addr w with
      ⟨hr, hs⟩ | ⟨-, ⟨hr, -⟩ | ⟨hr, -⟩ | ⟨hr, -⟩ | ⟨n, -, hr, -⟩ | ⟨hr, -⟩⟩
    · rw [hr, hs] at h; simp at h
    · rw [hr] at h; simp at h
    · rw [hr] at h; simp at h
    · rw [hr] at h; simp at h
    · rw [hr] at h; simp only [bufferingTimeOut] at h; omega
    · exact .inr ⟨rfl, hr⟩
  · unfold tryPass at h
    rw [hst] at h
    exact absurd h (show ¬ (0 : Int) = -8 by decide)

/-- A pass that times out leaves the status STOP and the CDIF off. -/
theorem tryPass_timeOut_stop (hreq : req < 262144)
    (h : (tryPass env addr req w).1 = bufferingTimeOut) :
    (tryPass env addr req w).2.gCDBufStatus = .stop ∧
      (tryPass env addr req w).2.cdifEnable = false := by
  rcases tryPass_timeOut_cases hreq h with ⟨-, hr⟩ | ⟨-, hr⟩
  · rw [hr]
    exact ⟨giveUp_status env _, rfl⟩
  · rw [hr]
    exact ⟨giveUp_status env _, rfl⟩

/-! ### Rules for `TRY_READ` -/

/-- What every jump back keeps holds at the start of each pass. -/
theorem Pass.inv {P : World → Prop}
    (hagain : ∀ u, P u → (tryPass env addr req u).1 = bufferingTimeOut →
      P (tryPass env addr req u).2)
    (hw : P w) (h : Pass env addr req w k v) : P v := by
  induction h with
  | first => exact hw
  | again _ htime ih => exact hagain _ ih htime

/-- What every pass establishes holds when the call ends. -/
theorem tryRead_inv {P Q : World → Prop} (hstart : ∀ u, P u → Q u)
    (hpass : ∀ u, P u → Q (tryPass env addr req u).2)
    (hagain : ∀ u, P u → (tryPass env addr req u).1 = bufferingTimeOut →
      P (tryPass env addr req u).2)
    (fuel : Nat) (hw : P w) : Q (tryRead env addr req fuel w).2 := by
  induction fuel generalizing w with
  | zero => exact hstart w hw
  | succ fuel ih =>
    rw [tryRead_succ]
    by_cases hpos : (tryPass env addr req w).1 ≥ 0
    · rw [if_pos hpos]
      exact hpass w hw
    · rw [if_neg hpos]
      by_cases htime : (tryPass env addr req w).1 = bufferingTimeOut
      · rw [if_pos htime]
        exact ih (hagain w hw htime)
      · rw [if_neg htime]
        exact hpass w hw

/-- **A result comes from the last pass**, which has not timed out. -/
theorem tryRead_last {fuel : Nat} {r : Int} (h : (tryRead env addr req fuel w).1 = some r) :
    ∃ k v, Pass env addr req w k v ∧
      tryPass env addr req v = (r, (tryRead env addr req fuel w).2) ∧ r ≠ bufferingTimeOut := by
  induction fuel generalizing w with
  | zero => cases h
  | succ fuel ih =>
    rw [tryRead_succ] at h ⊢
    by_cases hpos : (tryPass env addr req w).1 ≥ 0
    · rw [if_pos hpos] at h ⊢
      cases h
      refine ⟨0, w, .first, rfl, fun htime => ?_⟩
      rw [htime] at hpos
      exact absurd hpos (by decide)
    · rw [if_neg hpos] at h ⊢
      by_cases htime : (tryPass env addr req w).1 = bufferingTimeOut
      · rw [if_pos htime] at h ⊢
        obtain ⟨k, v, hlater, hend⟩ := ih h
        exact ⟨k + 1, v, hlater.later htime, hend⟩
      · rw [if_neg htime] at h ⊢
        cases h
        exact ⟨0, w, .first, rfl, htime⟩

end CdPlayer
