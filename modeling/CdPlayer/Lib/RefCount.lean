/-
CdPlayer/Lib/RefCount.lean

An object shared by an owner and any number of handles.

`Shared` says who holds the object: how many handles are out, and whether
the owner still has it.  `count` is what a reference count has to show.
Taking a handle, giving one back and giving up the ownership move the count
by one (`count_acquire`, `count_drop`, `count_disown`), and the object is
held exactly as long as the count is positive (`held_iff`), that is until
the owner has let go and every handle is back (`not_held_iff`).
-/
import Mathlib.Data.Nat.Basic

namespace RefCount

/-- Who holds an object. -/
@[ext]
structure Shared where
  handles : Nat
  owned : Bool
  deriving DecidableEq, Repr

namespace Shared

/-- Only the owner holds it. -/
def fresh : Shared := ⟨0, true⟩

def acquire (s : Shared) : Shared := { s with handles := s.handles + 1 }

def drop (s : Shared) : Shared := { s with handles := s.handles - 1 }

def disown (s : Shared) : Shared := { s with owned := false }

/-- The number of references. -/
def count (s : Shared) : Nat := s.handles + if s.owned then 1 else 0

/-- Somebody holds the object. -/
def Held (s : Shared) : Prop := s.owned = true ∨ 0 < s.handles

instance (s : Shared) : Decidable s.Held := inferInstanceAs (Decidable (_ ∨ _))

variable {s : Shared}

theorem held_iff : s.Held ↔ 0 < s.count := by
  unfold Held count
  cases s.owned with
  | true => exact ⟨fun _ => Nat.succ_pos _, fun _ => .inl rfl⟩
  | false => exact ⟨fun h => h.resolve_left Bool.false_ne_true, .inr⟩

theorem not_held_iff : ¬ s.Held ↔ s.owned = false ∧ s.handles = 0 := by
  rw [Held, not_or, Bool.not_eq_true, Nat.not_lt, Nat.le_zero]

@[simp] theorem count_acquire (s : Shared) : s.acquire.count = s.count + 1 :=
  Nat.add_right_comm _ _ _

theorem count_drop (h : 0 < s.handles) : s.count = s.drop.count + 1 := by
  show s.handles + _ = s.handles - 1 + _ + 1
  rw [Nat.add_right_comm, Nat.sub_add_cancel h]
  rfl

theorem count_disown (h : s.owned = true) : s.count = s.disown.count + 1 := by
  unfold count disown
  rw [h]
  rfl

theorem held_acquire (s : Shared) : s.acquire.Held := .inr (Nat.succ_pos _)

end Shared

end RefCount
