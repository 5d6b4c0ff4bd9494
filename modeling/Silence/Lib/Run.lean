import Mathlib.Data.List.Induction

/-!
# Silence.Lib.Run

Runs of a deterministic system and the induction over them.

A history lists the events of a run, each with the state after it. A guard
restricts the events that may happen in a state; the guard that is always true
gives all runs.
-/

namespace Silence.Lib

variable {ε σ : Type} {step : σ → ε → σ} {guard : σ → ε → Prop} {init : σ}

/-- The runs from `init` whose events meet the guard: the history and the state that
is reached. -/
inductive Run (step : σ → ε → σ) (guard : σ → ε → Prop) (init : σ) : List (ε × σ) → σ → Prop
  | nil : Run step guard init [] init
  | snoc {history : List (ε × σ)} {s : σ} (e : ε) : Run step guard init history s → guard s e →
      Run step guard init (history ++ [(e, step s e)]) (step s e)

namespace Run

/-- What holds at the beginning and is kept by every step holds after every run. -/
theorem invariant {I : List (ε × σ) → σ → Prop} (hinit : I [] init)
    (hstep : ∀ history s e, I history s → guard s e →
      I (history ++ [(e, step s e)]) (step s e))
    {history : List (ε × σ)} {s : σ} (h : Run step guard init history s) : I history s := by
  induction h with
  | nil => exact hinit
  | snoc e _ hguard ih => exact hstep _ _ e ih hguard

/-- What every step establishes holds of each entry of a history. -/
theorem forall_mem {P : ε → σ → Prop} (hstep : ∀ s e, guard s e → P e (step s e))
    {history : List (ε × σ)} {s : σ} (h : Run step guard init history s) :
    ∀ entry ∈ history, P entry.1 entry.2 := by
  induction h with
  | nil => simp
  | snoc e _ hguard ih =>
      intro entry hentry
      rcases List.mem_append.mp hentry with hold | hnew
      · exact ih entry hold
      · rw [List.mem_singleton.mp hnew]
        exact hstep _ e hguard

/-- The events may happen one after the other. -/
def Allowed (step : σ → ε → σ) (guard : σ → ε → Prop) : σ → List ε → Prop
  | _, [] => True
  | s, e :: es => guard s e ∧ Allowed step guard (step s e) es

/-- The history of some events. -/
def historyOf (step : σ → ε → σ) : σ → List ε → List (ε × σ)
  | _, [] => []
  | s, e :: es => (e, step s e) :: historyOf step (step s e) es

theorem historyOf_append (s : σ) (es : List ε) (e : ε) :
    historyOf step s (es ++ [e]) =
      historyOf step s es ++ [(e, step (es.foldl step s) e)] := by
  induction es generalizing s with
  | nil => rfl
  | cons e' es ih => exact congrArg ((e', step s e') :: ·) (ih (step s e'))

theorem allowed_append {s : σ} {es : List ε} {e : ε} (h : Allowed step guard s (es ++ [e])) :
    Allowed step guard s es ∧ guard (es.foldl step s) e := by
  induction es generalizing s with
  | nil => exact ⟨trivial, h.1⟩
  | cons e' es ih => exact ⟨⟨h.1, (ih h.2).1⟩, (ih h.2).2⟩

/-- Events that may happen one after the other make a run. -/
theorem run_historyOf {es : List ε} (h : Allowed step guard init es) :
    Run step guard init (historyOf step init es) (es.foldl step init) := by
  induction es using List.reverseRecOn with
  | nil => exact .nil
  | append_singleton es e ih =>
      obtain ⟨hes, he⟩ := allowed_append h
      rw [historyOf_append, List.foldl_append]
      exact .snoc e (ih hes) he

/-- Where nothing is guarded, any events may happen. -/
theorem run_of_events (step : σ → ε → σ) (init : σ) (es : List ε) :
    Run step (fun _ _ => True) init (historyOf step init es) (es.foldl step init) := by
  refine run_historyOf ?_
  induction es generalizing init with
  | nil => trivial
  | cons e es ih => exact ⟨trivial, ih _⟩

end Run

end Silence.Lib
