import Mathlib.Init

/-!
# Silence.Lib.Effect

Imperative programs that change a state and may throw, and judgements on
them.

What a program has changed before it throws stays changed, as in a language with
exceptions and mutable objects. A `Triple` has a postcondition for returning and
one for throwing, and `Preserves I x` is the triple of an invariant. `Throws` and
`Returns` are about the outcome alone: what a program may throw, and that it
returns when it is started in a given state. Each has a rule for every way of
building programs, so that a proof about a program follows its text.
-/

namespace Silence.Lib

/-- Programs over a state `σ` that throw values of `ε`. -/
abbrev Effect (ε σ α : Type) := ExceptT ε (StateM σ) α

namespace Effect

variable {ε σ α β : Type}

/-- Run a program: what it returns or throws, and the state it leaves. -/
def exec (x : Effect ε σ α) (s : σ) : Except ε α × σ := x.run.run s

/-- A pure computation that may fail. -/
def attempt (x : Except ε α) : Effect ε σ α := ExceptT.mk (pure x)

/-! ### Running -/

@[simp] theorem exec_pure (a : α) (s : σ) : exec (pure a : Effect ε σ α) s = (.ok a, s) := rfl

@[simp] theorem exec_throw (e : ε) (s : σ) :
    exec (throw e : Effect ε σ α) s = (.error e, s) := rfl

@[simp] theorem exec_get (s : σ) : exec (get : Effect ε σ σ) s = (.ok s, s) := rfl

@[simp] theorem exec_set (s s' : σ) : exec (set s' : Effect ε σ PUnit) s = (.ok ⟨⟩, s') := rfl

@[simp] theorem exec_modify (f : σ → σ) (s : σ) :
    exec (modify f : Effect ε σ PUnit) s = (.ok ⟨⟩, f s) := rfl

@[simp] theorem exec_attempt (x : Except ε α) (s : σ) :
    exec (attempt x : Effect ε σ α) s = (x, s) := rfl

theorem exec_bind (x : Effect ε σ α) (f : α → Effect ε σ β) (s : σ) :
    exec (x >>= f) s =
      match exec x s with
      | (.ok a, s') => exec (f a) s'
      | (.error e, s') => (.error e, s') := by
  simp only [exec, bind, ExceptT.bind, ExceptT.run, ExceptT.mk, StateT.run, StateT.bind]
  rcases x s with ⟨_ | _, _⟩ <;> rfl

theorem exec_tryCatch (x : Effect ε σ α) (h : ε → Effect ε σ α) (s : σ) :
    exec (tryCatch x h) s =
      match exec x s with
      | (.ok a, s') => (.ok a, s')
      | (.error e, s') => exec (h e) s' := by
  simp only [exec, tryCatch, tryCatchThe, MonadExceptOf.tryCatch, ExceptT.tryCatch, bind,
    ExceptT.run, ExceptT.mk, StateT.run, StateT.bind]
  rcases x s with ⟨_ | _, _⟩ <;> rfl

/-- A sequence of two computations that may fail succeeds when both do. -/
theorem bind_eq_ok {x : Except ε α} {f : α → Except ε β} {b : β} :
    (x >>= f) = .ok b ↔ ∃ a, x = .ok a ∧ f a = .ok b := by
  cases x with
  | error e => simp [bind, Except.bind]
  | ok a => simp [bind, Except.bind]

theorem exists_bind_eq_ok {x : Except ε α} {f : α → Except ε β} :
    (∃ b, (x >>= f) = .ok b) ↔ ∃ a, x = .ok a ∧ ∃ b, f a = .ok b := by
  simp only [bind_eq_ok]
  exact exists_comm.trans (exists_congr fun a => exists_and_left)

theorem toOption_eq_some_iff {x : Except ε α} {a : α} : x.toOption = some a ↔ x = .ok a := by
  cases x <;> simp [Except.toOption]

theorem mapError_eq_ok {ε' : Type*} {x : Except ε α} {f : ε → ε'} {a : α} :
    x.mapError f = .ok a ↔ x = .ok a := by
  constructor
  · intro h
    cases x with
    | error e => cases h
    | ok b =>
        cases h
        rfl
  · intro h
    rw [h]
    rfl

/-! ### Triples -/

/-- Started in a state with `P`, the program returns in one with `Q`, or throws in one
with `E`. -/
def Triple (P : σ → Prop) (x : Effect ε σ α) (Q : α → σ → Prop) (E : σ → Prop) : Prop :=
  ∀ s, P s →
    match exec x s with
    | (.ok a, s') => Q a s'
    | (.error _, s') => E s'

section Triple

variable {P : σ → Prop} {Q : α → σ → Prop} {E : σ → Prop}

theorem triple_pure {a : α} (h : ∀ s, P s → Q a s) : Triple P (pure a : Effect ε σ α) Q E := h

theorem triple_throw {e : ε} (h : ∀ s, P s → E s) : Triple P (throw e : Effect ε σ α) Q E := h

theorem triple_modify {f : σ → σ} {Q : PUnit → σ → Prop} (h : ∀ s, P s → Q ⟨⟩ (f s)) :
    Triple P (modify f : Effect ε σ PUnit) Q E := h

theorem triple_bind {x : Effect ε σ β} {f : β → Effect ε σ α} {R : β → σ → Prop}
    (hx : Triple P x R E) (hf : ∀ b, Triple (R b) (f b) Q E) : Triple P (x >>= f) Q E := by
  intro s hs
  have hx := hx s hs
  rw [exec_bind]
  rcases hrun : exec x s with ⟨_ | b, s'⟩
  · rwa [hrun] at hx
  · rw [hrun] at hx
    exact hf b s' hx

theorem triple_tryCatch {x : Effect ε σ α} {h : ε → Effect ε σ α} {F : σ → Prop}
    (hx : Triple P x Q F) (hh : ∀ e, Triple F (h e) Q E) : Triple P (tryCatch x h) Q E := by
  intro s hs
  have hx := hx s hs
  rw [exec_tryCatch]
  rcases hrun : exec x s with ⟨e | a, s'⟩
  · rw [hrun] at hx
    exact hh e s' hx
  · rwa [hrun] at hx

theorem triple_ite {p : Prop} [Decidable p] {x y : Effect ε σ α} (hx : p → Triple P x Q E)
    (hy : ¬ p → Triple P y Q E) : Triple P (if p then x else y) Q E := by
  split
  · exact hx ‹_›
  · exact hy ‹_›

/-- A computation that may fail hands on what it computes. -/
theorem triple_attempt_bind {x : Except ε β} {f : β → Effect ε σ α} (herror : ∀ s, P s → E s)
    (hf : ∀ b, x = .ok b → Triple P (f b) Q E) : Triple P (attempt x >>= f) Q E := by
  cases x with
  | error e => exact herror
  | ok b => exact hf b rfl

/-- What is read is the state. -/
theorem triple_get_bind {f : σ → Effect ε σ α}
    (hf : ∀ s, P s → Triple (fun s' => s' = s) (f s) Q E) : Triple P (get >>= f) Q E :=
  fun s hs => hf s hs s rfl

/-- A fact about no state moves out of the precondition. -/
theorem triple_assume {p : Prop} {x : Effect ε σ α} (h : p → Triple P x Q E) :
    Triple (fun s => P s ∧ p) x Q E := fun s hs => h hs.2 s hs.1

/-- The precondition may be strengthened and the postcondition weakened. -/
theorem triple_weaken {x : Effect ε σ α} {P' : σ → Prop} {Q' : α → σ → Prop}
    (h : Triple P x Q E) (hpre : ∀ s, P' s → P s) (hpost : ∀ a s, Q a s → Q' a s) :
    Triple P' x Q' E := by
  intro s hs
  have h := h s (hpre s hs)
  rcases hrun : exec x s with ⟨_ | a, s'⟩
  · rwa [hrun] at h
  · rw [hrun] at h
    exact hpost a s' h

/-- What holds after throwing may be weakened. -/
theorem triple_throwWeaken {x : Effect ε σ α} {E' : σ → Prop} (h : Triple P x Q E)
    (hthrow : ∀ s, E s → E' s) : Triple P x Q E' := by
  intro s hs
  have h := h s hs
  rcases hrun : exec x s with ⟨_ | a, s'⟩
  · rw [hrun] at h
    exact hthrow s' h
  · rwa [hrun] at h

/-- What holds both after returning and after throwing holds of the state that is left. -/
theorem Triple.exec_snd {x : Effect ε σ α} (h : Triple P x (fun _ => E) E) {s : σ} (hs : P s) :
    E (exec x s).2 := by
  have h := h s hs
  rcases hrun : exec x s with ⟨_ | a, s'⟩
  · rwa [hrun] at h
  · rwa [hrun] at h

end Triple

/-- The program keeps the invariant, whether it returns or throws. -/
def Preserves (I : σ → Prop) (x : Effect ε σ α) : Prop := Triple I x (fun _ => I) I

section Preserves

variable {I : σ → Prop}

theorem preserves_pure (a : α) : Preserves I (pure a : Effect ε σ α) := fun _ h => h

theorem preserves_throw (e : ε) : Preserves I (throw e : Effect ε σ α) := fun _ h => h

theorem preserves_modify {f : σ → σ} (h : ∀ s, I s → I (f s)) :
    Preserves I (modify f : Effect ε σ PUnit) := triple_modify h

theorem preserves_bind {x : Effect ε σ α} {f : α → Effect ε σ β} (hx : Preserves I x)
    (hf : ∀ a, Preserves I (f a)) : Preserves I (x >>= f) := triple_bind hx hf

theorem preserves_attempt_bind {x : Except ε α} {f : α → Effect ε σ β}
    (hf : ∀ a, x = .ok a → Preserves I (f a)) : Preserves I (attempt x >>= f) :=
  triple_attempt_bind (fun _ h => h) hf

end Preserves

/-! ### Exceptions -/

/-- Whatever the program throws satisfies `E`. -/
def Throws (E : ε → Prop) (x : Effect ε σ α) : Prop := ∀ s e, (exec x s).1 = .error e → E e

section Throws

variable {E : ε → Prop}

theorem throws_pure (a : α) : Throws E (pure a : Effect ε σ α) := by
  intro s e h
  cases h

theorem throws_get : Throws E (get : Effect ε σ σ) := by
  intro s e h
  cases h

theorem throws_set (s' : σ) : Throws E (set s' : Effect ε σ PUnit) := by
  intro s e h
  cases h

theorem throws_modify (f : σ → σ) : Throws E (modify f : Effect ε σ PUnit) := by
  intro s e h
  cases h

theorem throws_attempt {x : Except ε α} (h : ∀ e, x = .error e → E e) :
    Throws E (attempt x : Effect ε σ α) := fun _ e he => h e he

theorem throws_bind {x : Effect ε σ α} {f : α → Effect ε σ β} (hx : Throws E x)
    (hf : ∀ a, Throws E (f a)) : Throws E (x >>= f) := by
  intro s e h
  rw [exec_bind] at h
  rcases hrun : exec x s with ⟨e' | a, s'⟩
  · rw [hrun] at h
    cases h
    exact hx s e (by rw [hrun])
  · rw [hrun] at h
    exact hf a s' e h

theorem throws_tryCatch {E' : ε → Prop} {x : Effect ε σ α} {h : ε → Effect ε σ α}
    (hx : Throws E' x) (hh : ∀ e, E' e → Throws E (h e)) : Throws E (tryCatch x h) := by
  intro s e he
  rw [exec_tryCatch] at he
  rcases hrun : exec x s with ⟨e' | a, s'⟩
  · rw [hrun] at he
    exact hh e' (hx s e' (by rw [hrun])) s' e he
  · rw [hrun] at he
    cases he

end Throws

/-! ### Returning -/

/-- The program returns when it is started in `s`. -/
def Returns (x : Effect ε σ α) (s : σ) : Prop := ∃ a, (exec x s).1 = .ok a

theorem returns_pure (a : α) (s : σ) : Returns (pure a : Effect ε σ α) s := ⟨a, rfl⟩

theorem returns_bind_iff {x : Effect ε σ α} {f : α → Effect ε σ β} {s : σ} :
    Returns (x >>= f) s ↔ ∃ a, (exec x s).1 = .ok a ∧ Returns (f a) (exec x s).2 := by
  rw [Returns, exec_bind]
  rcases exec x s with ⟨_ | a, s'⟩
  · simp
  · simp [Returns]

/-- The bind of a program that returns no value. -/
theorem returns_seq_iff {x : Effect ε σ PUnit} {f : PUnit → Effect ε σ β} {s : σ} :
    Returns (x >>= f) s ↔ Returns x s ∧ Returns (f ⟨⟩) (exec x s).2 := by
  rw [returns_bind_iff]
  constructor
  · rintro ⟨a, ha, h⟩
    exact ⟨⟨a, ha⟩, h⟩
  · rintro ⟨⟨a, ha⟩, h⟩
    exact ⟨a, ha, h⟩

/-- A program that throws nothing returns. -/
theorem returns_of_throws {x : Effect ε σ α} (h : Throws (fun _ => False) x) (s : σ) :
    Returns x s := by
  rcases hrun : exec x s with ⟨e | a, s'⟩
  · exact (h s e (by rw [hrun])).elim
  · exact ⟨a, by rw [hrun]⟩

theorem returns_attempt_bind {x : Except ε α} {f : α → Effect ε σ β} {s : σ} :
    Returns (attempt x >>= f) s ↔ ∃ a, x = .ok a ∧ Returns (f a) s := by
  simp [returns_bind_iff]

theorem returns_get_bind {f : σ → Effect ε σ β} {s : σ} :
    Returns (get >>= f) s ↔ Returns (f s) s := by
  simp [returns_bind_iff]

theorem returns_modify_bind {g : σ → σ} {f : PUnit → Effect ε σ β} {s : σ} :
    Returns (modify g >>= f) s ↔ Returns (f ⟨⟩) (g s) := by
  rw [returns_seq_iff, exec_modify]
  exact and_iff_right ⟨⟨⟩, rfl⟩

theorem returns_ite {p : Prop} [Decidable p] {x y : Effect ε σ α} {s : σ} :
    Returns (if p then x else y) s ↔ if p then Returns x s else Returns y s := by
  split <;> rfl

end Effect

end Silence.Lib
