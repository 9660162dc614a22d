/-
CdPlayer/Lib/Run.lean

Runs of a system under events.

A system is a function `step` from a state and an event to the next state;
a run is the fold of `step` over a list of events.  Which events may
happen usually depends on the state they meet, so an assumption about the
surroundings is a relation `ok` between states and events, and `Allowed`
asks it of every event of the list in the state where it happens.

* `Allowed.inv`: what every allowed event preserves holds at the end.
* `allowed_iff`: assumptions that agree under an invariant allow the same
  runs.
* `Allowed.law_iff`: the runs that obey a law are the runs of good events.
* `forall_take_iff`: what holds in every state that a run reaches.
* `foldl_rel`: a reflexive and transitive relation that every event
  respects relates the two ends of every run.
* `iterate_inv`: the same for a system that steps alone.
* `reach_inv`: the same for a system given by its step relation.
* `countSteps_le`: a potential that every counted step lowers bounds the
  count.
* `steps_le_counted`: a potential that the counted steps fill up and all
  others lower bounds the length of the run.
* `foldl_reaches`, `iterate_reaches`: a potential that every step lowers
  until the goal is reached bounds the steps to the goal.
* `Lawful`: every entry of a log is permitted by the entries before it.
-/
import Mathlib.Logic.Function.Iterate
import Mathlib.Logic.Relation

namespace Run

variable {σ ε : Type*} {step : σ → ε → σ} {ok : σ → ε → Prop}

/-! ### Folds over events -/

/-- Every event of the list is allowed in the state in which it happens. -/
def Allowed (step : σ → ε → σ) (ok : σ → ε → Prop) : σ → List ε → Prop
  | _, [] => True
  | s, e :: es => ok s e ∧ Allowed step ok (step s e) es

theorem Allowed.mono {ok' : σ → ε → Prop} (h : ∀ s e, ok s e → ok' s e) {s : σ} {es : List ε}
    (hs : Allowed step ok s es) : Allowed step ok' s es := by
  induction es generalizing s with
  | nil => trivial
  | cons e es ih => exact ⟨h _ _ hs.1, ih hs.2⟩

/-- Events that are allowed everywhere. -/
theorem allowed_of_forall {s : σ} {es : List ε} (h : ∀ t, ∀ e ∈ es, ok t e) :
    Allowed step ok s es := by
  induction es generalizing s with
  | nil => trivial
  | cons e es ih =>
    exact ⟨h s e List.mem_cons_self, ih fun t e' he' => h t e' (List.mem_cons_of_mem _ he')⟩

/-- An allowed run splits into allowed runs. -/
theorem allowed_append {s : σ} {es es' : List ε} :
    Allowed step ok s (es ++ es')
      ↔ Allowed step ok s es ∧ Allowed step ok (es.foldl step s) es' := by
  induction es generalizing s with
  | nil => simp [Allowed]
  | cons e es ih => simp [Allowed, ih, and_assoc]

/-- **Invariant rule.** -/
theorem Allowed.inv {P : σ → Prop} (hstep : ∀ s e, ok s e → P s → P (step s e))
    {s : σ} {es : List ε} (hs : Allowed step ok s es) (h : P s) : P (es.foldl step s) := by
  induction es generalizing s with
  | nil => exact h
  | cons e es ih => exact ih hs.2 (hstep s e hs.1 h)

/-- Two assumptions on the events hold together when each does. -/
theorem allowed_and {ok' : σ → ε → Prop} {s : σ} {es : List ε} :
    Allowed step (fun t e => ok t e ∧ ok' t e) s es ↔
      Allowed step ok s es ∧ Allowed step ok' s es := by
  induction es generalizing s with
  | nil => exact ⟨fun _ => ⟨trivial, trivial⟩, fun _ => trivial⟩
  | cons e es ih =>
    constructor
    · rintro ⟨⟨h, h'⟩, hs⟩
      exact ⟨⟨h, (ih.mp hs).1⟩, ⟨h', (ih.mp hs).2⟩⟩
    · rintro ⟨⟨h, hs⟩, ⟨h', hs'⟩⟩
      exact ⟨⟨h, h'⟩, ih.mpr ⟨hs, hs'⟩⟩

/-- Two assumptions that agree under an invariant allow the same runs. -/
theorem allowed_iff {ok' : σ → ε → Prop} {P : σ → Prop}
    (hstep : ∀ s e, ok s e → P s → P (step s e)) (hiff : ∀ s e, P s → (ok s e ↔ ok' s e))
    {s : σ} {es : List ε} (h : P s) : Allowed step ok s es ↔ Allowed step ok' s es := by
  induction es generalizing s with
  | nil => exact Iff.rfl
  | cons e es ih =>
    constructor
    · rintro ⟨he, hs⟩
      exact ⟨(hiff s e h).mp he, (ih (hstep s e he h)).mp hs⟩
    · rintro ⟨he, hs⟩
      have he' := (hiff s e h).mpr he
      exact ⟨he', (ih (hstep s e he' h)).mpr hs⟩

/-- **Exactness rule.**  If under an invariant the good events are those that
obey the law, and good events keep the invariant, then the runs that obey
the law are the runs of good events. -/
theorem Allowed.law_iff {good law : σ → ε → Prop} {P : σ → Prop}
    (hkeep : ∀ s e, P s → ok s e → good s e → law s e ∧ P (step s e))
    (hlaw : ∀ s e, P s → ok s e → law s e → good s e)
    {s : σ} {es : List ε} (hs : Allowed step ok s es) (h : P s) :
    Allowed step law s es ↔ Allowed step good s es := by
  induction es generalizing s with
  | nil => exact Iff.rfl
  | cons e es ih =>
    constructor
    · rintro ⟨he, hes⟩
      have hgood := hlaw s e h hs.1 he
      exact ⟨hgood, (ih hs.2 (hkeep s e h hs.1 hgood).2).mp hes⟩
    · rintro ⟨he, hes⟩
      have hnext := hkeep s e h hs.1 he
      exact ⟨hnext.1, (ih hs.2 hnext.2).mpr hes⟩

/-- What holds in every state that a run reaches. -/
theorem forall_take_iff {P : σ → Prop} {s : σ} {es : List ε} :
    (∀ k, P ((es.take k).foldl step s)) ↔
      P s ∧ Allowed step (fun t e => P (step t e)) s es := by
  induction es generalizing s with
  | nil =>
    constructor
    · exact fun h => ⟨h 0, trivial⟩
    · intro h k
      rw [List.take_nil]
      exact h.1
  | cons e es ih =>
    constructor
    · intro h
      have htail := ih.mp fun k => h (k + 1)
      exact ⟨h 0, htail⟩
    · rintro ⟨h, hes⟩ (- | k)
      · exact h
      · exact ih.mpr hes k

/-- The invariant rule when every event is allowed. -/
theorem foldl_inv {P : σ → Prop} (hstep : ∀ s e, P s → P (step s e)) (es : List ε)
    {s : σ} (h : P s) : P (es.foldl step s) := by
  induction es generalizing s with
  | nil => exact h
  | cons e es ih => exact ih (hstep s e h)

/-- What every event respects, every run respects. -/
theorem foldl_rel {R : σ → σ → Prop} (hrefl : ∀ s, R s s)
    (htrans : ∀ {a b c}, R a b → R b c → R a c) (hstep : ∀ s e, R s (step s e))
    (es : List ε) (s : σ) : R s (es.foldl step s) := by
  induction es generalizing s with
  | nil => exact hrefl s
  | cons e es ih => exact htrans (hstep s e) (ih (step s e))

/-- **Progress rule.** -/
theorem foldl_reaches {P goal : σ → Prop} {φ : σ → Nat} (hstep : ∀ s e, P s → P (step s e))
    (hstay : ∀ s e, P s → goal s → goal (step s e))
    (hless : ∀ s e, P s → ¬ goal s → φ (step s e) < φ s) {s : σ} (h : P s) {es : List ε}
    (hlen : φ s < es.length) : goal (es.foldl step s) := by
  induction es generalizing s with
  | nil => exact absurd hlen (Nat.not_lt_zero _)
  | cons e es ih =>
    by_cases hs : goal s
    · have hkept := foldl_inv (P := fun s => P s ∧ goal s)
        (fun s e hs => ⟨hstep s e hs.1, hstay s e hs.1 hs.2⟩) es
        ⟨hstep s e h, hstay s e h hs⟩
      exact hkept.2
    · refine ih (hstep s e h) ?_
      have hnext := hless s e h hs
      rw [List.length_cons] at hlen
      omega

/-! ### Systems that step alone -/

variable {f : σ → σ}

theorem iterate_inv {P : σ → Prop} (hstep : ∀ s, P s → P (f s)) (n : Nat) {s : σ}
    (h : P s) : P (f^[n] s) :=
  Function.Iterate.rec P h (fun {s} => hstep s) n

/-- **Progress rule.** -/
theorem iterate_reaches {P goal : σ → Prop} (φ : σ → Nat) (hstep : ∀ s, P s → P (f s))
    (hstay : ∀ s, goal s → goal (f s)) (hless : ∀ s, P s → ¬ goal s → φ (f s) < φ s)
    {n : Nat} {s : σ} (h : P s) (hn : φ s ≤ n) : goal (f^[n] s) := by
  induction n generalizing s with
  | zero =>
    by_contra hs
    have hnext := hless s h hs
    omega
  | succ n ih =>
    by_cases hs : goal s
    · exact iterate_inv hstay (n + 1) hs
    · have hnext := hless s h hs
      exact ih (hstep s h) (by omega)

/-- How many of the first `k` steps of a run pass the test. -/
def countSteps (f : σ → σ) (p : σ → σ → Bool) : (k : Nat) → σ → Nat
  | 0, _ => 0
  | k + 1, s => (if p s (f s) then 1 else 0) + countSteps f p k (f s)

/-- One step more. -/
theorem countSteps_succ (p : σ → σ → Bool) (k : Nat) (s : σ) :
    countSteps f p (k + 1) s
      = countSteps f p k s + if p (f^[k] s) (f^[k + 1] s) then 1 else 0 := by
  induction k generalizing s with
  | zero =>
    show (if p s (f s) then 1 else 0) + 0 = 0 + if p s (f s) then 1 else 0
    omega
  | succ k ih =>
    show (if p s (f s) then 1 else 0) + countSteps f p (k + 1) (f s)
      = ((if p s (f s) then 1 else 0) + countSteps f p k (f s)) + _
    rw [ih (f s), Nat.add_assoc]
    rfl

/-- **Potential rule.** -/
theorem countSteps_le {p : σ → σ → Bool} {φ : σ → Nat}
    (h : ∀ s, φ (f s) + (if p s (f s) then 1 else 0) ≤ φ s) (k : Nat) (s : σ) :
    countSteps f p k s ≤ φ s := by
  induction k generalizing s with
  | zero => exact Nat.zero_le _
  | succ k ih =>
    have hstep := h s
    have hrest := ih (f s)
    rw [countSteps]
    omega

/-- **Refill rule.**  If a counted step fills a potential up to `c` at most, and
every other step lowers it, the counted steps bound the length of the run. -/
theorem steps_le_counted {p : σ → σ → Bool} (live : σ → Prop) (φ : σ → Nat) (c : Nat)
    (hfill : ∀ s, live s → p s (f s) = true → φ (f s) ≤ c)
    (hrest : ∀ s, live s → p s (f s) = false → φ (f s) < φ s) (k : Nat) (s : σ)
    (hlive : ∀ i, i < k → live (f^[i] s)) :
    k + φ (f^[k] s) ≤ φ s + (c + 1) * countSteps f p k s := by
  induction k with
  | zero =>
    show 0 + φ s ≤ φ s + (c + 1) * 0
    omega
  | succ k ih =>
    have hinit := ih fun i hi => hlive i (Nat.lt_succ_of_lt hi)
    have hlast := hlive k (Nat.lt_succ_self k)
    rw [countSteps_succ, Function.iterate_succ_apply', Nat.mul_add]
    rcases hp : p (f^[k] s) (f (f^[k] s)) with - | -
    · have hless := hrest _ hlast hp
      rw [if_neg Bool.false_ne_true]
      omega
    · have hfull := hfill _ hlast hp
      rw [if_pos rfl]
      omega

/-! ### Step relations -/

/-- What every step preserves holds in every state that can be reached. -/
theorem reach_inv {R : σ → σ → Prop} {P : σ → Prop} (hstep : ∀ s t, R s t → P s → P t)
    {s t : σ} (h : Relation.ReflTransGen R s t) (hs : P s) : P t := by
  induction h with
  | refl => exact hs
  | tail _ hlast ih => exact hstep _ _ hlast ih

/-! ### Logs -/

variable {β : Type*} {law : List β → β → Prop}

/-- Every entry is permitted by the entries before it. -/
inductive Lawful (law : List β → β → Prop) : List β → Prop
  | nil : Lawful law []
  | snoc {l : List β} {b : β} (h : Lawful law l) (hb : law l b) : Lawful law (l ++ [b])

end Run
