/-
CdPlayer/Lib/Locks.lean

Calls that share locks.

A system has a list of calls, each of which stands somewhere in its code,
and now and then another one (`List.set`) when it makes a statement.  Where
it stands says whether it is inside the section that a lock guards.
`Guards` says that the lock has an owner exactly while a call is inside, and
that this call is the owner: taking the lock and giving it back keep that
(`Guards.acquire`, `Guards.release`), two calls are never inside together
(`Guards.exclusive`), and if the locks are taken in a fixed order then some
call can go on (`exists_unblocked`).

What the calls hold together, or have yet to do, is a sum over them
(`total`); `total_move` is what one statement does to it.
-/
import Mathlib.Data.List.Basic

namespace Locks

variable {κ : Type*} {inside : κ → Prop} {owner : Option Nat} {calls : List κ} {i j : Nat}
variable {c c' : κ}

/-! ### A lock -/

/-- The lock is owned by the call that is inside its section. -/
def Guards (inside : κ → Prop) (owner : Option Nat) (calls : List κ) : Prop :=
  ∀ i, owner = some i ↔ ∃ c, calls[i]? = some c ∧ inside c

theorem Guards.nil (inside : κ → Prop) : Guards inside none [] := by
  intro i
  simp

theorem Guards.owned (h : Guards inside owner calls) (hc : calls[i]? = some c) (hin : inside c) :
    owner = some i :=
  (h i).mpr ⟨c, hc, hin⟩

/-- **Mutual exclusion.** -/
theorem Guards.exclusive (h : Guards inside owner calls) (hi : calls[i]? = some c)
    (hin : inside c) (hj : calls[j]? = some c') (hin' : inside c') : i = j :=
  Option.some.inj ((h.owned hi hin).symm.trans (h.owned hj hin'))

/-- What stands at `i` after call `j` has moved. -/
theorem getElem?_move (hc : calls[j]? = some c) (i : Nat) :
    (calls.set j c')[i]? = if i = j then some c' else calls[i]? := by
  have hlt : j < calls.length := (List.getElem?_eq_some_iff.mp hc).1
  rw [List.getElem?_set]
  by_cases hij : i = j
  · rw [if_pos hij.symm, if_pos hlt, if_pos hij]
  · rw [if_neg fun h => hij h.symm, if_neg hij]

/-- After a move, who is inside. -/
theorem exists_inside_move (hc : calls[j]? = some c) (i : Nat) :
    (∃ e, (calls.set j c')[i]? = some e ∧ inside e) ↔
      if i = j then inside c' else ∃ e, calls[i]? = some e ∧ inside e := by
  rw [getElem?_move hc]
  by_cases hij : i = j
  · rw [if_pos hij, if_pos hij]
    simp
  · rw [if_neg hij, if_neg hij]

/-- A statement that neither takes the lock nor gives it back. -/
theorem Guards.keep (h : Guards inside owner calls) (hc : calls[j]? = some c)
    (hsame : inside c' ↔ inside c) : Guards inside owner (calls.set j c') := by
  intro i
  rw [exists_inside_move hc]
  by_cases hij : i = j
  · subst hij
    rw [if_pos rfl, hsame, h i, hc]
    simp
  · rw [if_neg hij]
    exact h i

theorem Guards.acquire (h : Guards inside none calls) (hc : calls[j]? = some c)
    (hin : inside c') : Guards inside (some j) (calls.set j c') := by
  intro i
  rw [exists_inside_move hc]
  by_cases hij : i = j
  · rw [if_pos hij, hij]
    exact ⟨fun _ => hin, fun _ => rfl⟩
  · rw [if_neg hij, ← h i]
    exact ⟨fun hj => absurd (Option.some.inj hj).symm hij, fun hnone => by cases hnone⟩

theorem Guards.release (h : Guards inside owner calls) (hc : calls[j]? = some c) (hin : inside c)
    (hout : ¬ inside c') : Guards inside none (calls.set j c') := by
  intro i
  rw [exists_inside_move hc]
  by_cases hij : i = j
  · rw [if_pos hij]
    exact ⟨fun hnone => (by cases hnone), fun hc' => absurd hc' hout⟩
  · rw [if_neg hij]
    refine ⟨fun hnone => (by cases hnone), ?_⟩
    rintro ⟨e, he, hein⟩
    exact absurd (h.exclusive he hein hc hin) hij

/-- A new call is outside. -/
theorem Guards.append (h : Guards inside owner calls) (hout : ¬ inside c) :
    Guards inside owner (calls ++ [c]) := by
  intro i
  rw [h i]
  constructor
  · rintro ⟨e, he, hein⟩
    have hlt : i < calls.length := (List.getElem?_eq_some_iff.mp he).1
    exact ⟨e, (List.getElem?_append_left hlt).trans he, hein⟩
  · rintro ⟨e, he, hein⟩
    rcases Nat.lt_or_ge i calls.length with hlt | hge
    · exact ⟨e, (List.getElem?_append_left hlt).symm.trans he, hein⟩
    · rw [List.getElem?_append_right hge, List.getElem?_singleton] at he
      split at he
      · exact absurd (Option.some.inj he ▸ hein) hout
      · cases he

/-! ### Several locks -/

section Order

variable {lock : Type*} {holds : lock → κ → Prop} {wants : κ → Option lock}
variable {owns : lock → Option Nat}

/-- **Locks that are taken in order do not block for ever.**  If every call wants
only locks above those that it holds, then behind a call that is blocked
there is one that holds a lock and is not blocked. -/
theorem exists_unblocked (rank : lock → Nat) (bound : Nat)
    (hguards : ∀ l, Guards (holds l) (owns l) calls)
    (horder : ∀ c l l', holds l c → wants c = some l' → rank l < rank l')
    (hbound : ∀ l, rank l < bound) (hc : calls[i]? = some c) :
    ∃ j e, calls[j]? = some e ∧ (∀ l, wants e = some l → owns l = none) ∧
      (j = i ∨ ∃ l, holds l e) := by
  by_cases hfree : ∀ l, wants c = some l → owns l = none
  · exact ⟨i, c, hc, hfree, .inl rfl⟩
  · obtain ⟨l, hwant, howned⟩ : ∃ l, wants c = some l ∧ owns l ≠ none := by
      simpa only [not_forall, exists_prop] using hfree
    -- the owner of the lock wants, if any, a higher one: induction on how many are above
    obtain ⟨above, habove⟩ : ∃ above, bound ≤ rank l + above := ⟨bound, Nat.le_add_left _ _⟩
    clear hc hwant
    induction above generalizing l with
    | zero => exact absurd (hbound l) (Nat.not_lt.mpr habove)
    | succ above ih =>
      obtain ⟨j, hj⟩ := Option.ne_none_iff_exists'.mp howned
      obtain ⟨e, he, hein⟩ := (hguards l j).mp hj
      by_cases hfree : ∀ l', wants e = some l' → owns l' = none
      · exact ⟨j, e, he, hfree, .inr ⟨l, hein⟩⟩
      · obtain ⟨l', hwant, howned'⟩ : ∃ l', wants e = some l' ∧ owns l' ≠ none := by
          simpa only [not_forall, exists_prop] using hfree
        have hup := horder e l l' hein hwant
        exact ih l' howned' (by omega)

end Order

/-! ### What the calls hold together -/

/-- The sum of what every call counts. -/
def total (f : κ → Nat) : List κ → Nat
  | [] => 0
  | c :: calls => f c + total f calls

theorem total_append (f : κ → Nat) (calls : List κ) (c : κ) :
    total f (calls ++ [c]) = total f calls + f c := by
  induction calls with
  | nil => exact Nat.add_comm _ _
  | cons a calls ih =>
    rw [List.cons_append, total, ih, total, Nat.add_assoc]

/-- **A statement moves a sum by what the call itself counts.** -/
theorem total_move (f : κ → Nat) (c' : κ) (hc : calls[j]? = some c) :
    total f (calls.set j c') + f c = total f calls + f c' := by
  induction calls generalizing j with
  | nil => cases hc
  | cons a calls ih =>
    cases j with
    | zero =>
      obtain rfl := Option.some.inj hc
      simp only [List.set_cons_zero, total]
      omega
    | succ j =>
      have hrest := ih hc
      simp only [List.set_cons_succ, total]
      omega

theorem le_total (f : κ → Nat) (hc : calls[j]? = some c) : f c ≤ total f calls := by
  induction calls generalizing j with
  | nil => cases hc
  | cons a calls ih =>
    cases j with
    | zero =>
      obtain rfl := Option.some.inj hc
      exact Nat.le_add_right _ _
    | succ j => exact Nat.le_trans (ih hc) (Nat.le_add_left _ _)

theorem total_le {f : κ → Nat} {b : Nat} (h : ∀ c, f c ≤ b) (calls : List κ) :
    total f calls ≤ b * calls.length := by
  induction calls with
  | nil => exact Nat.zero_le _
  | cons c calls ih =>
    have hc := h c
    rw [total, List.length_cons, Nat.mul_succ]
    omega

theorem total_eq_zero {f : κ → Nat} (h : ∀ c ∈ calls, f c = 0) : total f calls = 0 := by
  induction calls with
  | nil => rfl
  | cons a calls ih =>
    rw [total, h a List.mem_cons_self, ih fun c hc => h c (List.mem_cons_of_mem _ hc)]

end Locks
