/-
CdPlayer/Lib/Simulation.lean

One system of events below another.

The lower system steps from a state and an event to the next state, and so
does the upper one.  `α` reads the upper state off a lower one, and `f`
the upper events that a lower event stands for: none, one or several.  If
every lower step does to the upper state what its upper events do, then a
lower run does to it what the run of all these events does, in order
(`translate`, `Allowed.simulates`).  If each of these events is allowed
where it happens, the upper run is an allowed run
(`Allowed.translate_allowed`), so that what is known of the allowed runs
of the upper system holds of the lower one.
-/
import CdPlayer.Lib.Run

namespace Run

variable {σ ε τ δ : Type*} {step : σ → ε → σ} {step' : τ → δ → τ} {ok : σ → ε → Prop}
variable {ok' : τ → δ → Prop} {P : σ → Prop} {α : σ → τ} {f : σ → ε → List δ}

/-- The upper events of a lower run. -/
def translate (step : σ → ε → σ) (f : σ → ε → List δ) : σ → List ε → List δ
  | _, [] => []
  | s, e :: es => f s e ++ translate step f (step s e) es

/-- Lower events that stand for themselves. -/
theorem translate_self {f : σ → ε → List ε} (hf : ∀ s e, f s e = [e]) (s : σ) (es : List ε) :
    translate step f s es = es := by
  induction es generalizing s with
  | nil => rfl
  | cons e es ih =>
    rw [translate, hf, ih]
    rfl

/-- **Simulation rule.** -/
theorem Allowed.simulates
    (hstep : ∀ s e, ok s e → P s → P (step s e) ∧ α (step s e) = (f s e).foldl step' (α s))
    {s : σ} {es : List ε} (hs : Allowed step ok s es) (h : P s) :
    α (es.foldl step s) = (translate step f s es).foldl step' (α s) := by
  induction es generalizing s with
  | nil => rfl
  | cons e es ih =>
    obtain ⟨hnext, hα⟩ := hstep s e hs.1 h
    rw [translate, List.foldl_append, ← hα]
    exact ih hs.2 hnext

/-- The rule when every event is allowed. -/
theorem foldl_simulates (hstep : ∀ s e, α (step s e) = (f s e).foldl step' (α s)) (s : σ)
    (es : List ε) : α (es.foldl step s) = (translate step f s es).foldl step' (α s) := by
  have hall : Allowed step (fun _ _ => True) s es := allowed_of_forall fun _ _ _ => trivial
  exact hall.simulates (fun s e _ (_ : True) => ⟨trivial, hstep s e⟩) trivial

/-- The upper run of an allowed run is allowed. -/
theorem Allowed.translate_allowed
    (hstep : ∀ s e, ok s e → P s → P (step s e) ∧ α (step s e) = (f s e).foldl step' (α s))
    (hok : ∀ s e, ok s e → P s → Allowed step' ok' (α s) (f s e))
    {s : σ} {es : List ε} (hs : Allowed step ok s es) (h : P s) :
    Allowed step' ok' (α s) (translate step f s es) := by
  induction es generalizing s with
  | nil => trivial
  | cons e es ih =>
    obtain ⟨hnext, hα⟩ := hstep s e hs.1 h
    refine allowed_append.mpr ⟨hok s e hs.1 h, ?_⟩
    rw [← hα]
    exact ih hs.2 hnext

end Run
