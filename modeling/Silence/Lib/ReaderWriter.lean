import Silence.Lib.Run
import Mathlib.Data.Set.Finite.Basic
import Mathlib.Logic.Function.Basic

/-!
# Silence.Lib.ReaderWriter

Tasks under a reader–writer lock, in small steps and in any interleaving.

A task takes the lock when it begins, exclusively or shared with other tasks, and gives
it back with its last step. A shared task may change the state too, but only to an
equivalent one: `Respects` says that no step tells equivalent states apart and that the
steps of shared tasks stay within the equivalence. Then the results are those that the
tasks have one after the other, in the order in which they give the lock back
(`serialized`), and every task can be finished (`exists_finished`).
-/

namespace Silence.Lib

/-- How a task holds the lock. -/
inductive Mode where
  | exclusive
  | shared
  deriving DecidableEq, Repr

/-- Tasks of the kinds `κ` on a state `σ`. Each goes through stages and ends with a result. -/
structure Tasks (κ σ ρ : Type) where
  mode : κ → Mode
  Stage : κ → Type
  start : (k : κ) → Stage k
  step : (k : κ) → Stage k → σ → (Stage k ⊕ ρ) × σ

namespace Tasks

variable {κ σ ρ : Type} (tasks : Tasks κ σ ρ)

/-- From a stage on, the task ends with the result and the state if nobody else takes a step. -/
inductive Completes (k : κ) : tasks.Stage k → σ → ρ → σ → Prop
  | last {t : tasks.Stage k} {s s' : σ} {r : ρ} : tasks.step k t s = (.inr r, s') →
      Completes k t s r s'
  | next {t t' : tasks.Stage k} {s s' s'' : σ} {r : ρ} : tasks.step k t s = (.inl t', s') →
      Completes k t' s' r s'' → Completes k t s r s''

/-- The tasks with their results, one after the other. -/
inductive Serial {ι : Type} (request : ι → κ) (s₀ : σ) : List (ι × ρ) → σ → Prop
  | nil : Serial request s₀ [] s₀
  | snoc {log : List (ι × ρ)} {s s' : σ} {i : ι} {r : ρ} : Serial request s₀ log s →
      tasks.Completes (request i) (tasks.start (request i)) s r s' →
      Serial request s₀ (log ++ [(i, r)]) s'

/-- The steps do not tell equivalent states apart, and those of shared tasks stay within the
equivalence. -/
structure Respects (R : σ → σ → Prop) : Prop where
  equivalence : Equivalence R
  congr : ∀ k t {s s'}, R s s' →
    (tasks.step k t s).1 = (tasks.step k t s').1 ∧ R (tasks.step k t s).2 (tasks.step k t s').2
  keeps : ∀ k t s, tasks.mode k = .shared → R s (tasks.step k t s).2

/-- From a stage on, the task ends if nobody else takes a step. -/
def Ends (k : κ) (t : tasks.Stage k) (s : σ) : Prop := ∃ r s', tasks.Completes k t s r s'

/-- The tasks end, from every stage and state. -/
def Terminates : Prop := ∀ k t s, tasks.Ends k t s

/-- What the tasks of these kinds return one after the other, and the state after them. -/
def serveAll (serve : κ → σ → ρ × σ) : σ → List κ → List ρ × σ
  | s, [] => ([], s)
  | s, k :: ks =>
      let (r, s) := serve k s
      let (rs, s) := serveAll serve s ks
      (r :: rs, s)

theorem serveAll_append (serve : κ → σ → ρ × σ) (s : σ) (ks ks' : List κ) :
    serveAll serve s (ks ++ ks') =
      ((serveAll serve s ks).1 ++ (serveAll serve (serveAll serve s ks).2 ks').1,
        (serveAll serve (serveAll serve s ks).2 ks').2) := by
  induction ks generalizing s with
  | nil => rfl
  | cons k ks ih => simp only [List.cons_append, serveAll, ih]

variable {tasks}

theorem Ends.last {k : κ} {t : tasks.Stage k} {s s' : σ} {r : ρ}
    (h : tasks.step k t s = (.inr r, s')) : tasks.Ends k t s := ⟨r, s', .last h⟩

theorem Ends.next {k : κ} {t t' : tasks.Stage k} {s s' : σ}
    (h : tasks.step k t s = (.inl t', s')) (hrest : tasks.Ends k t' s') : tasks.Ends k t s := by
  obtain ⟨r, s'', hcompletes⟩ := hrest
  exact ⟨r, s'', .next h hcompletes⟩

/-- A task alone has one end. -/
theorem Completes.unique {k : κ} {t : tasks.Stage k} {s s₁ s₂ : σ} {r₁ r₂ : ρ}
    (h₁ : tasks.Completes k t s r₁ s₁) (h₂ : tasks.Completes k t s r₂ s₂) :
    r₁ = r₂ ∧ s₁ = s₂ := by
  induction h₁ with
  | last hstep =>
      cases h₂ with
      | last hstep' =>
          rw [hstep] at hstep'
          cases hstep'
          exact ⟨rfl, rfl⟩
      | next hstep' _ =>
          rw [hstep] at hstep'
          cases hstep'
  | next hstep _ ih =>
      cases h₂ with
      | last hstep' =>
          rw [hstep] at hstep'
          cases hstep'
      | next hstep' hrest =>
          rw [hstep] at hstep'
          cases hstep'
          exact ih hrest

/-- From equivalent states a task ends with the same result, in equivalent states. -/
theorem Completes.congr {R : σ → σ → Prop} (hR : tasks.Respects R) {k : κ} {t : tasks.Stage k}
    {s s₁ : σ} {r : ρ} (h : tasks.Completes k t s r s₁) {s' : σ} (hs : R s s') :
    ∃ s₁', tasks.Completes k t s' r s₁' ∧ R s₁ s₁' := by
  induction h generalizing s' with
  | @last t s s₁ r hstep =>
      obtain ⟨hsame, hafter⟩ := hR.congr k t hs
      rw [hstep] at hsame hafter
      have hstep' : tasks.step k t s' = (.inr r, (tasks.step k t s').2) := Prod.ext hsame.symm rfl
      exact ⟨_, .last hstep', hafter⟩
  | @next t t' s s₁ s₂ r hstep _ ih =>
      obtain ⟨hsame, hafter⟩ := hR.congr k t hs
      rw [hstep] at hsame hafter
      have hstep' : tasks.step k t s' = (.inl t', (tasks.step k t s').2) := Prod.ext hsame.symm rfl
      obtain ⟨s₂', hrest, hend⟩ := ih hafter
      exact ⟨s₂', .next hstep' hrest, hend⟩

/-- Where each kind of task does what a function says, so do the tasks of a serial run. -/
theorem Serial.eq_serveAll {serve : κ → σ → ρ × σ}
    (hserve : ∀ k s, tasks.Completes k (tasks.start k) s (serve k s).1 (serve k s).2)
    {ι : Type} {request : ι → κ} {s₀ s : σ} {log : List (ι × ρ)}
    (h : tasks.Serial request s₀ log s) :
    (log.map (·.2), s) = serveAll serve s₀ (log.map fun entry => request entry.1) := by
  induction h with
  | nil => rfl
  | @snoc log s s' i r _ hcompletes ih =>
      obtain ⟨rfl, rfl⟩ := hcompletes.unique (hserve (request i) s)
      rw [List.map_append, List.map_append]
      show _ = serveAll serve s₀ (log.map (fun entry => request entry.1) ++ [request i])
      rw [serveAll_append, ← ih]
      rfl

end Tasks

/-! ### Interleavings -/

/-- Where a task stands. -/
inductive Status (τ ρ : Type) where
  | waiting
  | running (stage : τ)
  | finished (result : ρ)

/-- The state that the tasks share, where each of them stands, and the results of the finished
ones, in the order in which they gave the lock back. -/
structure Threads {κ σ ρ ι : Type} (tasks : Tasks κ σ ρ) (request : ι → κ) where
  shared : σ
  status : (i : ι) → Status (tasks.Stage (request i)) ρ
  log : List (ι × ρ)

/-- A task takes the lock, or takes its next step. -/
inductive ThreadEvent (ι : Type) where
  | acquire (i : ι)
  | advance (i : ι)

namespace Threads

variable {κ σ ρ ι : Type} {tasks : Tasks κ σ ρ} {request : ι → κ}

/-- Nobody has begun. -/
def start (s : σ) : Threads tasks request := ⟨s, fun _ => .waiting, []⟩

/-- The task has the lock. -/
def Holds (w : Threads tasks request) (i : ι) : Prop := ∃ t, w.status i = .running t

variable [DecidableEq ι]

def setStatus (w : Threads tasks request) (i : ι)
    (status : Status (tasks.Stage (request i)) ρ) : Threads tasks request :=
  { w with status := Function.update w.status i status }

@[simp] theorem setStatus_shared (w : Threads tasks request) (i : ι)
    (status : Status (tasks.Stage (request i)) ρ) :
    (w.setStatus i status).shared = w.shared := rfl

@[simp] theorem setStatus_log (w : Threads tasks request) (i : ι)
    (status : Status (tasks.Stage (request i)) ρ) :
    (w.setStatus i status).log = w.log := rfl

@[simp] theorem setStatus_status_self (w : Threads tasks request) (i : ι)
    (status : Status (tasks.Stage (request i)) ρ) :
    (w.setStatus i status).status i = status := by
  simp [setStatus]

theorem setStatus_status_of_ne (w : Threads tasks request) {i j : ι} (h : j ≠ i)
    (status : Status (tasks.Stage (request i)) ρ) :
    (w.setStatus i status).status j = w.status j := by
  simp [setStatus, h]

/-- A task that waits may take the lock if nobody has it, or if everybody shares it. A task with
the lock may take a step. -/
def Guard (w : Threads tasks request) : ThreadEvent ι → Prop
  | .acquire i => w.status i = .waiting ∧ ∀ j, w.Holds j →
      tasks.mode (request i) = .shared ∧ tasks.mode (request j) = .shared
  | .advance i => w.Holds i

def step (w : Threads tasks request) : ThreadEvent ι → Threads tasks request
  | .acquire i => w.setStatus i (.running (tasks.start (request i)))
  | .advance i =>
      match w.status i with
      | .running t =>
          match tasks.step (request i) t w.shared with
          | (.inl t', s) => { w.setStatus i (.running t') with shared := s }
          | (.inr r, s) =>
              { w.setStatus i (.finished r) with shared := s, log := w.log ++ [(i, r)] }
      | _ => w

/-- The interleavings of the tasks from a state. -/
abbrev ThreadRun (s₀ : σ) (history : List (ThreadEvent ι × Threads tasks request))
    (w : Threads tasks request) : Prop :=
  Run step Guard (start s₀) history w

theorem step_next {w : Threads tasks request} {i : ι} {t t' : tasks.Stage (request i)} {s : σ}
    (ht : w.status i = .running t) (hstep : tasks.step (request i) t w.shared = (.inl t', s)) :
    w.step (.advance i) = { w.setStatus i (.running t') with shared := s } := by
  simp only [step, ht, hstep]

theorem step_last {w : Threads tasks request} {i : ι} {t : tasks.Stage (request i)} {r : ρ} {s : σ}
    (ht : w.status i = .running t) (hstep : tasks.step (request i) t w.shared = (.inr r, s)) :
    w.step (.advance i) =
      { w.setStatus i (.finished r) with shared := s, log := w.log ++ [(i, r)] } := by
  simp only [step, ht, hstep]

/-- What an event that may happen does. -/
theorem step_cases {w : Threads tasks request} {event : ThreadEvent ι}
    (h : w.Guard event) :
    (∃ i, event = .acquire i ∧ w.status i = .waiting ∧
      (∀ j, w.Holds j → tasks.mode (request i) = .shared ∧ tasks.mode (request j) = .shared) ∧
      w.step event = w.setStatus i (.running (tasks.start (request i)))) ∨
    (∃ i t t' s, event = .advance i ∧ w.status i = .running t ∧
      tasks.step (request i) t w.shared = (.inl t', s) ∧
      w.step event = { w.setStatus i (.running t') with shared := s }) ∨
    (∃ i t r s, event = .advance i ∧ w.status i = .running t ∧
      tasks.step (request i) t w.shared = (.inr r, s) ∧
      w.step event =
        { w.setStatus i (.finished r) with shared := s, log := w.log ++ [(i, r)] }) := by
  cases event with
  | acquire i => exact .inl ⟨i, rfl, h.1, h.2, rfl⟩
  | advance i =>
      obtain ⟨t, ht⟩ := h
      rcases hstep : tasks.step (request i) t w.shared with ⟨t' | r, s⟩
      · exact .inr (.inl ⟨i, t, t', s, rfl, ht, hstep, step_next ht hstep⟩)
      · exact .inr (.inr ⟨i, t, r, s, rfl, ht, hstep, step_last ht hstep⟩)

/-! ### The order of the results -/

/-- A task with the lock is alone with it, or everybody shares it. -/
def Exclusion (w : Threads tasks request) : Prop :=
  ∀ i j, i ≠ j → w.Holds i → w.Holds j →
    tasks.mode (request i) = .shared ∧ tasks.mode (request j) = .shared

theorem holds_setStatus_of_ne {w : Threads tasks request} {i j : ι} (h : j ≠ i)
    (status : Status (tasks.Stage (request i)) ρ) : (w.setStatus i status).Holds j ↔ w.Holds j := by
  unfold Holds
  rw [setStatus_status_of_ne w h]

theorem Exclusion.step {w : Threads tasks request} (h : w.Exclusion)
    {event : ThreadEvent ι} (hguard : w.Guard event) :
    (w.step event).Exclusion := by
  -- a step of a task that has the lock gives it to nobody else
  have hadvance : ∀ i (status : Status (tasks.Stage (request i)) ρ), w.Holds i →
      (w.setStatus i status).Exclusion := by
    intro i status hi j k hne hj hk
    refine h j k hne ?_ ?_
    · by_cases heq : j = i
      · exact heq ▸ hi
      · exact (holds_setStatus_of_ne heq status).mp hj
    · by_cases heq : k = i
      · exact heq ▸ hi
      · exact (holds_setStatus_of_ne heq status).mp hk
  rcases step_cases hguard with ⟨i, -, -, hfree, heq⟩ | ⟨i, t, t', s, -, ht, -, heq⟩ |
    ⟨i, t, r, s, -, ht, -, heq⟩
  · rw [heq]
    intro j k hne hj hk
    by_cases hji : j = i
    · subst hji
      exact hfree k ((holds_setStatus_of_ne hne.symm _).mp hk)
    · have hj' := (holds_setStatus_of_ne hji _).mp hj
      by_cases hki : k = i
      · subst hki
        exact (hfree j hj').symm
      · exact h j k hne hj' ((holds_setStatus_of_ne hki _).mp hk)
  · rw [heq]
    exact hadvance i _ ⟨t, ht⟩
  · rw [heq]
    exact hadvance i _ ⟨t, ht⟩

/-- The log is a serial run to a state `q`. From `q`, each task with the lock ends as it would
end from where it stands, and `q` is equivalent to the shared state unless a task changes that
one exclusively. -/
structure Consistent (R : σ → σ → Prop) (s₀ : σ)
    (w : Threads tasks request) (q : σ) : Prop where
  serial : tasks.Serial request s₀ w.log q
  ends : ∀ i t, w.status i = .running t → ∀ r s, tasks.Completes (request i) t w.shared r s →
    ∃ s', tasks.Completes (request i) (tasks.start (request i)) q r s' ∧ R s s'
  state : (∀ i, w.Holds i → tasks.mode (request i) = .shared) → R q w.shared

theorem consistent_step {R : σ → σ → Prop} (hR : tasks.Respects R) {s₀ q : σ}
    {w : Threads tasks request} (h : w.Consistent R s₀ q)
    (hexclusion : w.Exclusion) {event : ThreadEvent ι}
    (hguard : w.Guard event) :
    ∃ q', (w.step event).Consistent R s₀ q' := by
  -- the others go on as before after a step of a task that keeps the state equivalent
  have hothers : ∀ (s : σ) j t, w.status j = .running t → R w.shared s →
      ∀ r s₁, tasks.Completes (request j) t s r s₁ →
        ∃ s', tasks.Completes (request j) (tasks.start (request j)) q r s' ∧ R s₁ s' := by
    intro s j t ht hs r s₁ hcompletes
    obtain ⟨s₂, hcompletes', hs₂⟩ := hcompletes.congr hR (hR.equivalence.symm hs)
    obtain ⟨s', hserial, hs'⟩ := h.ends j t ht r s₂ hcompletes'
    exact ⟨s', hserial, hR.equivalence.trans hs₂ hs'⟩
  rcases step_cases hguard with ⟨i, -, hwaiting, hfree, heq⟩ | ⟨i, t, t', s, -, ht, hstep, heq⟩ |
    ⟨i, t, r, s, -, ht, hstep, heq⟩
  · -- whoever has the lock shares it, so the task begins in a state equivalent to `q`
    rw [heq]
    have hq : R q w.shared := h.state fun j hj => (hfree j hj).2
    refine ⟨q, h.serial, fun j t ht r s hcompletes => ?_, fun _ => hq⟩
    by_cases hji : j = i
    · subst hji
      rw [setStatus_status_self] at ht
      cases ht
      obtain ⟨s', hcompletes', hs'⟩ := hcompletes.congr hR (hR.equivalence.symm hq)
      exact ⟨s', hcompletes', hs'⟩
    · rw [setStatus_status_of_ne w hji] at ht
      exact h.ends j t ht r s hcompletes
  · rw [heq]
    have hholds : w.Holds i := ⟨t, ht⟩
    have hkept : tasks.mode (request i) = .shared → R w.shared s := fun hmode => by
      have hkeeps := hR.keeps (request i) t w.shared hmode
      rwa [hstep] at hkeeps
    refine ⟨q, h.serial, fun j t₁ ht₁ r s₁ hcompletes => ?_, fun hshared => ?_⟩
    · by_cases hji : j = i
      · subst hji
        have ht₁' : (w.setStatus j (.running t')).status j = .running t₁ := ht₁
        rw [setStatus_status_self] at ht₁'
        cases ht₁'
        exact h.ends j t ht r s₁ (.next hstep hcompletes)
      · have ht₁' : (w.setStatus i (.running t')).status j = .running t₁ := ht₁
        rw [setStatus_status_of_ne w hji] at ht₁'
        have hmode := (hexclusion i j (Ne.symm hji) hholds ⟨t₁, ht₁'⟩).1
        exact hothers s j t₁ ht₁' (hkept hmode) r s₁ hcompletes
    · have hmode : tasks.mode (request i) = .shared :=
        hshared i ⟨t', setStatus_status_self w i _⟩
      refine hR.equivalence.trans (h.state fun j hj => ?_) (hkept hmode)
      by_cases hji : j = i
      · exact hji ▸ hmode
      · exact (hexclusion i j (Ne.symm hji) hholds hj).2
  · -- the task ends: the serial run goes on with it
    rw [heq]
    have hholds : w.Holds i := ⟨t, ht⟩
    obtain ⟨q', hcompletes, hq'⟩ := h.ends i t ht r s (.last hstep)
    have hkept : tasks.mode (request i) = .shared → R w.shared s := fun hmode => by
      have hkeeps := hR.keeps (request i) t w.shared hmode
      rwa [hstep] at hkeeps
    have hrunning : ∀ j t₁, (w.setStatus i (.finished r)).status j = .running t₁ →
        j ≠ i ∧ w.status j = .running t₁ := by
      intro j t₁ ht₁
      by_cases hji : j = i
      · subst hji
        rw [setStatus_status_self] at ht₁
        cases ht₁
      · rw [setStatus_status_of_ne w hji] at ht₁
        exact ⟨hji, ht₁⟩
    refine ⟨q', h.serial.snoc hcompletes, fun j t₁ ht₁ r₁ s₁ hcompletes₁ => ?_,
      fun _ => hR.equivalence.symm hq'⟩
    obtain ⟨hji, ht₁⟩ := hrunning j t₁ ht₁
    obtain ⟨hmode, -⟩ := hexclusion i j (Ne.symm hji) hholds ⟨t₁, ht₁⟩
    obtain ⟨s₂, hserial, hs₂⟩ := hothers s j t₁ ht₁ (hkept hmode) r₁ s₁ hcompletes₁
    -- everybody shares the lock, so the state before this task is equivalent to `q`
    have hq : R q w.shared := h.state fun k hk => by
      by_cases hki : k = i
      · exact hki ▸ hmode
      · exact (hexclusion i k (Ne.symm hki) hholds hk).2
    have hqq' : R q q' := hR.equivalence.trans (hR.equivalence.trans hq (hkept hmode)) hq'
    obtain ⟨s₃, hserial', hs₃⟩ := hserial.congr hR hqq'
    exact ⟨s₃, hserial', hR.equivalence.trans hs₂ hs₃⟩

/-- In every interleaving the finished tasks have the results that they would have one after the
other, and the shared state is equivalent to the one that they would leave, unless a task is
changing it exclusively. -/
theorem serialized {R : σ → σ → Prop} (hR : tasks.Respects R) {serve : κ → σ → ρ × σ}
    (hserve : ∀ k s, tasks.Completes k (tasks.start k) s (serve k s).1 (serve k s).2)
    {s₀ : σ} {history : List (ThreadEvent ι × Threads tasks request)} {w : Threads tasks request}
    (hrun : ThreadRun s₀ history w) :
    w.log.map (·.2) =
        (Tasks.serveAll serve s₀ (w.log.map fun entry => request entry.1)).1 ∧
      ((∀ i, w.Holds i → tasks.mode (request i) = .shared) →
        R (Tasks.serveAll serve s₀ (w.log.map fun entry => request entry.1)).2 w.shared) := by
  have hconsistent : w.Exclusion ∧ ∃ q, w.Consistent R s₀ q := by
    refine hrun.invariant (I := fun _ w =>
      w.Exclusion ∧ ∃ q, w.Consistent R s₀ q) ?_ ?_
    · refine ⟨?_, s₀, .nil, ?_, fun _ => hR.equivalence.refl s₀⟩
      · rintro i j - ⟨t, ht⟩
        cases ht
      · rintro i t ht
        cases ht
    · rintro history w event ⟨hexclusion, q, hq⟩ hguard
      exact ⟨hexclusion.step hguard, consistent_step hR hq hexclusion hguard⟩
  obtain ⟨-, q, hq⟩ := hconsistent
  have hlog := hq.serial.eq_serveAll hserve
  rw [← hlog]
  exact ⟨rfl, hq.state⟩

/-- The log names the finished tasks, each of them once. -/
theorem finished_iff {s₀ : σ} {history : List (ThreadEvent ι × Threads tasks request)}
    {w : Threads tasks request} (hrun : ThreadRun s₀ history w) :
    (∀ i r, w.status i = .finished r ↔ (i, r) ∈ w.log) ∧ (w.log.map (·.1)).Nodup := by
  refine hrun.invariant (I := fun _ w =>
    (∀ i r, w.status i = .finished r ↔ (i, r) ∈ w.log) ∧ (w.log.map (·.1)).Nodup) ?_ ?_
  · refine ⟨fun i r => ?_, List.nodup_nil⟩
    simp [start]
  · rintro history w event ⟨hfinished, hnodup⟩ hguard
    -- a task that is not finished is not in the log
    have hnew : ∀ i, (∀ r, w.status i ≠ .finished r) → ∀ r, (i, r) ∉ w.log :=
      fun i hi r hmem => hi r ((hfinished i r).mpr hmem)
    have hsame : ∀ i (status : Status (tasks.Stage (request i)) ρ),
        (∀ r, w.status i ≠ .finished r) → (∀ r, status ≠ .finished r) →
        ∀ j r, (w.setStatus i status).status j = .finished r ↔ (j, r) ∈ w.log := by
      intro i status hi hstatus j r
      by_cases hji : j = i
      · subst hji
        rw [setStatus_status_self]
        exact iff_of_false (hstatus r) (hnew j hi r)
      · rw [setStatus_status_of_ne w hji]
        exact hfinished j r
    rcases step_cases hguard with ⟨i, -, hwaiting, -, heq⟩ | ⟨i, t, t', s, -, ht, -, heq⟩ |
      ⟨i, t, r, s, -, ht, -, heq⟩
    · rw [heq]
      exact ⟨hsame i _ (by simp [hwaiting]) nofun, hnodup⟩
    · rw [heq]
      exact ⟨hsame i _ (by simp [ht]) nofun, hnodup⟩
    · rw [heq]
      have hi : ∀ r', w.status i ≠ .finished r' := by simp [ht]
      refine ⟨fun j r' => ?_, ?_⟩
      · show (w.setStatus i (.finished r)).status j = .finished r' ↔ (j, r') ∈ w.log ++ [(i, r)]
        by_cases hji : j = i
        · subst hji
          simp [hnew j hi, eq_comm]
        · rw [setStatus_status_of_ne w hji, hfinished]
          simp [hji]
      · show ((w.log ++ [(i, r)]).map (·.1)).Nodup
        rw [List.map_append, List.map_singleton]
        refine List.nodup_append.mpr ⟨hnodup, List.nodup_singleton i, ?_⟩
        intro j hj k hk
        obtain ⟨⟨j', r'⟩, hmem, rfl⟩ := List.mem_map.mp hj
        obtain rfl := List.mem_singleton.mp hk
        rintro rfl
        exact hnew _ hi r' hmem

/-! ### Nobody waits for ever -/

/-- Finitely many tasks have the lock. -/
theorem finite_holds {s₀ : σ} {history : List (ThreadEvent ι × Threads tasks request)}
    {w : Threads tasks request} (hrun : ThreadRun s₀ history w) :
    {i | w.Holds i}.Finite := by
  refine hrun.invariant (I := fun _ w => {i | w.Holds i}.Finite) ?_ ?_
  · refine Set.Finite.subset Set.finite_empty ?_
    rintro i ⟨t, ht⟩
    cases ht
  · intro history w event hfinite hguard
    have hset : ∀ i (status : Status (tasks.Stage (request i)) ρ),
        {j | (w.setStatus i status).Holds j}.Finite := by
      intro i status
      refine (hfinite.insert i).subset fun j hj => ?_
      by_cases hji : j = i
      · exact .inl hji
      · exact .inr ((holds_setStatus_of_ne hji status).mp hj)
    rcases step_cases hguard with ⟨i, -, -, -, heq⟩ | ⟨i, t, t', s, -, -, -, heq⟩ |
      ⟨i, t, r, s, -, -, -, heq⟩
    · rw [heq]
      exact hset i _
    · rw [heq]
      exact hset i _
    · rw [heq]
      exact hset i _

/-- A task that has the lock can take all its steps, while the others stay where they are. -/
theorem exists_completed {s₀ : σ} {i : ι} {t : tasks.Stage (request i)} {s s' : σ} {r : ρ}
    (h : tasks.Completes (request i) t s r s') {w : Threads tasks request}
    (ht : w.status i = .running t)
    (hs : w.shared = s) {history : List (ThreadEvent ι × Threads tasks request)}
    (hrun : ThreadRun s₀ history w) :
    ∃ history' w', ThreadRun s₀ (history ++ history') w' ∧
      w'.status = Function.update w.status i (.finished r) := by
  induction h generalizing w history with
  | last hstep =>
      rw [← hs] at hstep
      have hnext := hrun.snoc (ThreadEvent.advance i) (show w.Holds i from ⟨_, ht⟩)
      rw [step_last ht hstep] at hnext
      exact ⟨_, _, hnext, rfl⟩
  | next hstep _ ih =>
      rw [← hs] at hstep
      have hnext := hrun.snoc (ThreadEvent.advance i) (show w.Holds i from ⟨_, ht⟩)
      have heq := step_next ht hstep
      obtain ⟨history', w', hrun', hstatus⟩ :=
        ih (by rw [heq]; exact setStatus_status_self w i _) (by rw [heq]) hnext
      refine ⟨_, w', List.append_assoc history _ history' ▸ hrun', ?_⟩
      rw [hstatus, heq]
      exact Function.update_idem _ _ _

/-- From every reachable point the tasks that have the lock can end. -/
theorem exists_idle (hterminates : tasks.Terminates) {s₀ : σ} {holders : Set ι}
    (hfinite : holders.Finite) {history : List (ThreadEvent ι × Threads tasks request)}
    {w : Threads tasks request} (hholders : ∀ i, w.Holds i → i ∈ holders)
    (hrun : ThreadRun s₀ history w) :
    ∃ history' w', ThreadRun s₀ (history ++ history') w' ∧
      (∀ i, ¬ w'.Holds i) ∧ ∀ i, ¬ w.Holds i → w'.status i = w.status i := by
  induction holders, hfinite using Set.Finite.induction_on generalizing history w with
  | empty => exact ⟨[], w, by simpa using hrun, fun i hi => hholders i hi, fun _ _ => rfl⟩
  | @insert i holders _ _ ih =>
      by_cases hi : w.Holds i
      · obtain ⟨t, ht⟩ := hi
        obtain ⟨r, s', hcompletes⟩ := hterminates (request i) t w.shared
        obtain ⟨history₁, w₁, hrun₁, hstatus⟩ := exists_completed hcompletes ht rfl hrun
        have hfewer : ∀ j, w₁.Holds j → j ∈ holders := by
          rintro j ⟨t', ht'⟩
          rw [hstatus] at ht'
          by_cases hji : j = i
          · subst hji
            simp at ht'
          · rw [Function.update_of_ne hji] at ht'
            exact (hholders j ⟨t', ht'⟩).resolve_left hji
        obtain ⟨history₂, w₂, hrun₂, hidle, hsame⟩ := ih hfewer hrun₁
        refine ⟨history₁ ++ history₂, w₂, List.append_assoc history _ _ ▸ hrun₂, hidle, ?_⟩
        intro j hj
        have hji : j ≠ i := by
          rintro rfl
          exact hj ⟨t, ht⟩
        have hstatus₁ : w₁.status j = w.status j := by rw [hstatus, Function.update_of_ne hji]
        have hj₁ : ¬ w₁.Holds j := by
          rintro ⟨t', ht'⟩
          exact hj ⟨t', hstatus₁ ▸ ht'⟩
        rw [hsame j hj₁, hstatus₁]
      · refine ih (fun j hj => (hholders j hj).resolve_left ?_) hrun
        rintro rfl
        exact hi hj

/-- From every reachable point every task can be finished. -/
theorem exists_finished (hterminates : tasks.Terminates) {s₀ : σ}
    {history : List (ThreadEvent ι × Threads tasks request)} {w : Threads tasks request}
    (hrun : ThreadRun s₀ history w) (i : ι) :
    ∃ history' w' r, ThreadRun s₀ (history ++ history') w' ∧
      w'.status i = .finished r := by
  cases hi : w.status i with
  | finished r => exact ⟨[], w, r, by simpa using hrun, hi⟩
  | running t =>
      obtain ⟨r, s', hcompletes⟩ := hterminates (request i) t w.shared
      obtain ⟨history', w', hrun', hstatus⟩ := exists_completed hcompletes hi rfl hrun
      exact ⟨history', w', r, hrun', by rw [hstatus, Function.update_self]⟩
  | waiting =>
      -- those that have the lock give it back first
      obtain ⟨history₁, w₁, hrun₁, hidle, hsame⟩ :=
        exists_idle hterminates (finite_holds hrun) (fun _ => id) hrun
      have hwaiting : w₁.status i = .waiting := by
        rw [hsame i (by simp [Holds, hi]), hi]
      have hacquired := hrun₁.snoc (ThreadEvent.acquire i)
        (show w₁.Guard _ from ⟨hwaiting, fun j hj => absurd hj (hidle j)⟩)
      obtain ⟨r, s', hcompletes⟩ := hterminates (request i) (tasks.start (request i)) w₁.shared
      obtain ⟨history₂, w₂, hrun₂, hstatus⟩ :=
        exists_completed hcompletes (setStatus_status_self w₁ i _) rfl hacquired
      rw [List.append_assoc, List.append_assoc] at hrun₂
      exact ⟨_, w₂, r, hrun₂, by rw [hstatus, Function.update_self]⟩

end Threads

end Silence.Lib
