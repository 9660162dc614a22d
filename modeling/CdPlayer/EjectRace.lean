/-
CdPlayer/EjectRace.lean

Calls of `set_State_eject` (cdrom.c) that overlap.

A call stores its argument in `state_eject` under the mutex `tcr_umount`,
and then, outside of it, `CD_SetDevForceStop` sets the force stop and
`datacd_enable`.  Eject notifications come through the netlink socket and
mounts through an ioctl, so another call can come between the two steps.

`Interleaving status w₀ moves r` is a run of any calls, from the state
`w₀`, in any order of their steps; `moves` are the steps made, newest
first.  Since each flag holds what its last store put there
(`Interleaving.view`), the flags of a completed run describe one state
exactly if the last store to `state_eject` and the last force stop were
made for the same kind of call (`race_consistent_iff`).
-/
import CdPlayer.Eject

namespace CdPlayer

/-! ### The two steps -/

/-- The store to `state_eject`. -/
def storeStateEject (status : Int) (w : World) : World :=
  { w with stateEject := status, discOut := if status ≠ 0 then true else w.discOut }

/-- A call on its own makes its two steps one after the other. -/
theorem setStateEject_steps (status : Int) (w : World) :
    setStateEject status w = cdSetDevForceStop status (storeStateEject status w) := rfl

/-- Where a call stands. -/
inductive CallPhase
  | called
  | stored
  | done
  deriving DecidableEq

/-- One step of a call. -/
inductive Move (ι : Type*)
  | store (i : ι)
  | force (i : ι)
  deriving DecidableEq

/-- The calls under way, and the driver. -/
structure Race (ι : Type*) where
  phase : ι → CallPhase
  world : World

variable {ι : Type*} [DecidableEq ι]

def Race.store (status : ι → Int) (i : ι) (r : Race ι) : Race ι where
  phase := Function.update r.phase i .stored
  world := storeStateEject (status i) r.world

def Race.force (status : ι → Int) (i : ι) (r : Race ι) : Race ι where
  phase := Function.update r.phase i .done
  world := cdSetDevForceStop (status i) r.world

/-- Calls with the arguments `status`, in any order of their steps. -/
inductive Interleaving (status : ι → Int) (w₀ : World) : List (Move ι) → Race ι → Prop
  | start : Interleaving status w₀ [] ⟨fun _ => .called, w₀⟩
  | store {moves : List (Move ι)} {r : Race ι} (h : Interleaving status w₀ moves r) (i : ι)
      (hi : r.phase i = .called) : Interleaving status w₀ (.store i :: moves) (r.store status i)
  | force {moves : List (Move ι)} {r : Race ι} (h : Interleaving status w₀ moves r) (i : ι)
      (hi : r.phase i = .stored) : Interleaving status w₀ (.force i :: moves) (r.force status i)

/-- All calls have completed. -/
def Race.Complete (r : Race ι) : Prop := ∀ i, r.phase i = .done

/-- The call that stored last. -/
def lastStore : List (Move ι) → Option ι
  | [] => none
  | .store i :: _ => some i
  | .force _ :: moves => lastStore moves

/-- The call that set the force stop last. -/
def lastForce : List (Move ι) → Option ι
  | [] => none
  | .store _ :: moves => lastForce moves
  | .force i :: _ => some i

/-- The flags describe one state: `state_eject`, `CD_IsDevForceStop` and
`datacd_enable` say the same. -/
def EjectView.Consistent (v : EjectView) : Prop :=
  (v.stateEject ≠ 0 ↔ v.forceStop ≠ 0) ∧ (v.stateEject ≠ 0 ↔ v.datacdEnable = false)

instance (v : EjectView) : Decidable v.Consistent := inferInstanceAs (Decidable (_ ∧ _))

/-! ### What a run leaves -/

variable {status : ι → Int} {w₀ : World} {moves : List (Move ι)} {r : Race ι}

omit [DecidableEq ι] in
/-- There is no last step of a kind if there is none. -/
theorem last_eq_none {last : List (Move ι) → Option ι} {kind : ι → Move ι} (hnil : last [] = none)
    (hkind : ∀ i ms, last (kind i :: ms) = some i)
    (hother : ∀ m ms, (∀ i, m ≠ kind i) → last (m :: ms) = last ms) :
    last moves = none ↔ ∀ i, kind i ∉ moves := by
  induction moves with
  | nil => exact ⟨fun _ i => List.not_mem_nil, fun _ => hnil⟩
  | cons m moves ih =>
    by_cases hm : ∃ i, m = kind i
    · obtain ⟨i, rfl⟩ := hm
      rw [hkind]
      exact ⟨nofun, fun h => absurd List.mem_cons_self (h i)⟩
    · have hne (i : ι) : m ≠ kind i := fun heq => hm ⟨i, heq⟩
      rw [hother m moves hne, ih]
      constructor
      · intro h j hj
        rcases List.mem_cons.mp hj with heq | hmem
        · exact hne j heq.symm
        · exact h j hmem
      · exact fun h j hj => h j (List.mem_cons_of_mem _ hj)

omit [DecidableEq ι] in
theorem lastStore_eq_none : lastStore moves = none ↔ ∀ i, Move.store i ∉ moves := by
  refine last_eq_none rfl (fun _ _ => rfl) fun m ms hm => ?_
  cases m with
  | store i => exact absurd rfl (hm i)
  | force i => rfl

omit [DecidableEq ι] in
theorem lastForce_eq_none : lastForce moves = none ↔ ∀ i, Move.force i ∉ moves := by
  refine last_eq_none rfl (fun _ _ => rfl) fun m ms hm => ?_
  cases m with
  | store i => rfl
  | force i => exact absurd rfl (hm i)

/-- Each flag holds what its last store put there. -/
theorem Interleaving.view (h : Interleaving status w₀ moves r) :
    r.world.ejectView =
      { stateEject := ((lastStore moves).map status).getD w₀.stateEject
        forceStop := ((lastForce moves).map fun i => if status i ≠ 0 then 1 else 0).getD
          w₀.cdDevForceStop
        datacdEnable := ((lastForce moves).map fun i => if status i ≠ 0 then false else true).getD
          w₀.datacdEnable } := by
  induction h with
  | start => rfl
  | store h i hi ih =>
    have hforce := congrArg EjectView.forceStop ih
    have hdata := congrArg EjectView.datacdEnable ih
    exact congrArg₂ (EjectView.mk _) hforce hdata
  | force h i hi ih =>
    have hstate := congrArg EjectView.stateEject ih
    exact congrArg (fun s => EjectView.mk s _ _) hstate

/-- The phases are what the moves say. -/
theorem Interleaving.phases (h : Interleaving status w₀ moves r) (i : ι) :
    (Move.store i ∈ moves ↔ r.phase i ≠ .called) ∧
      (Move.force i ∈ moves ↔ r.phase i = .done) := by
  induction h with
  | start =>
    exact ⟨⟨fun h => absurd h List.not_mem_nil, fun h => absurd rfl h⟩,
      ⟨fun h => absurd h List.not_mem_nil, nofun⟩⟩
  | store h j hj ih =>
    rename_i moves r
    by_cases hij : i = j
    · -- a call that has not stored has not forced either
      subst hij
      have hphase : (r.store status i).phase i = .stored := Function.update_self ..
      rw [hphase]
      refine ⟨⟨fun _ => by decide, fun _ => List.mem_cons_self⟩, ⟨fun hmem => ?_, nofun⟩⟩
      rcases List.mem_cons.mp hmem with heq | hmem'
      · cases heq
      · rw [ih.2.mp hmem'] at hj
        cases hj
    · have hphase : (r.store status j).phase i = r.phase i := Function.update_of_ne hij ..
      rw [hphase, ← ih.1, ← ih.2]
      simp [hij]
  | force h j hj ih =>
    rename_i moves r
    by_cases hij : i = j
    · subst hij
      have hphase : (r.force status i).phase i = .done := Function.update_self ..
      rw [hphase]
      have hstored : Move.store i ∈ moves := ih.1.mpr (by rw [hj]; decide)
      exact ⟨⟨fun _ => by decide, fun _ => List.mem_cons_of_mem _ hstored⟩,
        ⟨fun _ => rfl, fun _ => List.mem_cons_self⟩⟩
    · have hphase : (r.force status j).phase i = r.phase i := Function.update_of_ne hij ..
      rw [hphase, ← ih.1, ← ih.2]
      simp [hij]

/-- In a completed run either no call has been made, or some call stored
last and some call set the force stop last. -/
theorem Interleaving.last_cases (h : Interleaving status w₀ moves r) (hdone : r.Complete) :
    lastStore moves = none ∧ lastForce moves = none ∨
      ∃ i j, lastStore moves = some i ∧ lastForce moves = some j := by
  rcases hs : lastStore moves with - | i
  · -- who forces has stored before
    refine .inl ⟨rfl, lastForce_eq_none.mpr fun i hmem => ?_⟩
    have hstore : Move.store i ∈ moves := by
      rw [(h.phases i).1, (h.phases i).2.mp hmem]
      decide
    exact lastStore_eq_none.mp hs i hstore
  · rcases hf : lastForce moves with - | j
    · exact absurd ((h.phases i).2.mpr (hdone i)) (lastForce_eq_none.mp hf i)
    · exact .inr ⟨i, j, rfl, rfl⟩

/-- **When the flags of a completed run describe one state**: the last store
and the last force stop were made by calls that agree; without calls, the
flags described one state before. -/
theorem race_consistent_iff (h : Interleaving status w₀ moves r) (hdone : r.Complete) :
    r.world.ejectView.Consistent ↔
      match lastStore moves, lastForce moves with
      | some i, some j => (status i ≠ 0 ↔ status j ≠ 0)
      | _, _ => w₀.ejectView.Consistent := by
  have hview := h.view
  rcases h.last_cases hdone with ⟨hs, hf⟩ | ⟨i, j, hs, hf⟩
  · rw [hs, hf] at hview
    rw [hs, hf, hview]
    rfl
  · rw [hs, hf] at hview
    rw [hs, hf, hview]
    show ((status i ≠ 0 ↔ (if status j ≠ 0 then 1 else 0) ≠ 0) ∧
      (status i ≠ 0 ↔ (if status j ≠ 0 then false else true) = false)) ↔ _
    by_cases hj : status j = 0
    · simp [hj]
    · simp [hj]

/-! ### An eject and a mount -/

/-- An eject notification and a mount. -/
def ejectAndMount : Bool → Int := fun eject => if eject then 1 else 0

/-- One after the other. -/
def inTurn : Race Bool :=
  (((⟨fun _ => .called, World.mounted⟩ : Race Bool).store ejectAndMount true).force
    ejectAndMount true).store ejectAndMount false |>.force ejectAndMount false

theorem inTurn_consistent : inTurn.world.ejectView.Consistent :=
  (race_consistent_iff (.force (.store (.force (.store .start true rfl) true rfl) false rfl)
    false rfl) (fun i => by cases i <;> rfl)).mpr Iff.rfl

/-- The mount comes between the two steps of the eject. -/
def overlapped : Race Bool :=
  (((⟨fun _ => .called, World.mounted⟩ : Race Bool).store ejectAndMount true).store
    ejectAndMount false).force ejectAndMount false |>.force ejectAndMount true

/-- Then the disc counts as mounted, and nothing can be read from it. -/
theorem overlapped_inconsistent :
    (∃ moves, Interleaving ejectAndMount World.mounted moves overlapped) ∧
      overlapped.Complete ∧ ¬ overlapped.world.ejectView.Consistent := by
  refine ⟨⟨_, .force (.force (.store (.store .start true rfl) false rfl) false rfl) true rfl⟩,
    fun i => ?_, ?_⟩
  · cases i <;> rfl
  · decide

end CdPlayer
