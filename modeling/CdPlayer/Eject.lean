/-
CdPlayer/Eject.lean

The eject state: `state_eject` (cdrom.c), `CD_DevForceStop` and
`datacd_enable` (cdif_api.c).

All three are written by `set_State_eject` alone, which netlink messages of
type `'U'` and the mount call; `ejectCall` is the call an event makes, and
`handle_ejectView` says that an event does just that call.  Since the
thread never writes the three fields, what every call of `set_State_eject`
establishes, and the initial state has, is true in every reachable state
(`Acts.ejectView`).
-/
import CdPlayer.Runs

namespace CdPlayer

open Run

/-! ### Calls of `set_State_eject` -/

/-- The argument an event calls `set_State_eject` with, if it does. -/
def ejectCall : Event → Option Int
  | .msg m => if m.nlmsgData 0 = charU then some (m.nlmsgData 1).toNat else none
  | .mount => some 0
  | .dma _ => none

/-- A message that reports the deck's state. -/
def ejectMessage (status : UInt8) : Event :=
  .msg ⟨1, 18, fun j => if j = 0 then charU else status, 0⟩

/-- The fields `set_State_eject` writes. -/
structure EjectView where
  stateEject : Int
  forceStop : Nat
  datacdEnable : Bool

def World.ejectView (w : World) : EjectView := ⟨w.stateEject, w.cdDevForceStop, w.datacdEnable⟩

/-- What a call leaves. -/
def EjectView.ofCall (status : Int) : EjectView :=
  ⟨status, if status ≠ 0 then 1 else 0, if status ≠ 0 then false else true⟩

theorem nlRecvMsg_ejectView (m : NlMsg) (w : World) : (nlRecvMsg m w).ejectView =
    if m.nlmsgData 0 = charU then .ofCall (m.nlmsgData 1).toNat else w.ejectView := by
  by_cases hU : m.nlmsgData 0 = charU
  · rw [if_pos hU, nlRecvMsg_eject w hU]
    rfl
  · rw [if_neg hU]
    by_cases hS : m.nlmsgData 0 = charS
    · rw [nlRecvMsg_seek w hS]
      rfl
    · rw [nlRecvMsg_toc w hU hS]
      rfl

theorem cdifAdmaHandler_ejectView (block : Nat → UInt8) (w : World) :
    (cdifAdmaHandler block w).ejectView = w.ejectView := by
  by_cases hL : w.sCDDIBuffer.lLength = 0
  · rw [cdifAdmaHandler_unset block hL]
    rfl
  · rcases cdifAdmaHandler_cases block hL with ⟨heq, -⟩ | ⟨heq, -⟩
    · rw [heq]
      rfl
    · rw [heq]
      rfl

/-- **An event calls `set_State_eject` or leaves the eject state alone.** -/
theorem handle_ejectView (w : World) (e : Event) :
    (handle w e).ejectView = ((ejectCall e).map .ofCall).getD w.ejectView := by
  cases e with
  | dma block =>
    by_cases hon : w.cdifEnable = true
    · rw [handle, occur, if_pos hon]
      exact cdifAdmaHandler_ejectView block w
    · rw [handle, occur, if_neg hon]
      rfl
  | msg m =>
    have hocc : (handle w (.msg m)).ejectView = (nlRecvMsg m w).ejectView := by
      by_cases hS : m.nlmsgData 0 = charS
      · rw [handle, occur, if_pos hS]
        rfl
      · rw [handle, occur, if_neg hS]
        rfl
    rw [hocc, nlRecvMsg_ejectView, ejectCall]
    by_cases hU : m.nlmsgData 0 = charU
    · rw [if_pos hU, if_pos hU]
      rfl
    · rw [if_neg hU, if_neg hU]
      rfl
  | mount =>
    show (tcrReadTochdr w).ejectView = .ofCall 0
    obtain ⟨_, _, hw, -⟩ := tcrReadTochdr_writes w
    rw [hw]
    rfl

/-! ### What the calls establish -/

/-- Every call of `set_State_eject` an event makes establishes `P`. -/
def Calls (P : EjectView → Prop) (_ : World) (e : Event) : Prop :=
  ∀ status, ejectCall e = some status → P (.ofCall status)

variable {env : Env} {P : EjectView → Prop} {w w' : World}

theorem handle_calls (w : World) (e : Event) (he : Calls P w e) (h : P w.ejectView) :
    P (handle w e).ejectView := by
  rw [handle_ejectView]
  rcases hcall : ejectCall e with - | status
  · exact h
  · exact he status hcall

theorem yield_calls (henv : env.Obeys (Calls P)) (h : P w.ejectView) :
    P (yield env w).ejectView :=
  henv.yield (P := fun u => P u.ejectView) handle_calls (fun _ hu => hu) h

/-- The thread itself makes no calls. -/
theorem turnsKeep_calls (henv : env.Obeys (Calls P)) : TurnsKeep env fun u => P u.ejectView where
  turn := fun _ h => yield_calls henv h
  own := by
    intro u v h hsame
    have hview : v.ejectView = u.ejectView :=
      congrArg (fun o : Outer => EjectView.mk o.stateEject o.cdDevForceStop o.datacdEnable) hsame
    rw [hview]
    exact h

/-- **What every call of `set_State_eject` establishes, every run keeps.** -/
theorem Acts.ejectView (henv : env.Obeys (Calls P)) (h : Acts env w w') (hw : P w.ejectView) :
    P w'.ejectView :=
  (turnsKeep_calls henv).acts h hw

/-! ### The two flags agree -/

/-- The force stop is on exactly if the disc is out. -/
def EjectView.Agrees (v : EjectView) : Prop :=
  v.forceStop = if v.stateEject ≠ 0 then 1 else 0

/-- Whatever the argument, a call leaves the flags agreeing. -/
theorem agrees_ofCall (status : Int) : (EjectView.ofCall status).Agrees := rfl

theorem calls_agrees (env : Env) : env.Obeys (Calls EjectView.Agrees) :=
  fun _ => allowed_of_forall fun _ _ _ status _ => agrees_ofCall status

theorem Acts.agrees (h : Acts env w w') (hw : w.ejectView.Agrees) : w'.ejectView.Agrees :=
  h.ejectView (calls_agrees env) hw

/-- No call of `set_State_eject`. -/
def NoCall (_ : World) (e : Event) : Prop := ejectCall e = none

/-- Without calls the eject state is what it was. -/
theorem Env.Obeys.calls (henv : env.Obeys NoCall) (P : EjectView → Prop) :
    env.Obeys (Calls P) :=
  fun w => (henv w).mono fun _ e he status hcall => by
    rw [show ejectCall e = none from he] at hcall
    exact absurd hcall nofun

end CdPlayer
