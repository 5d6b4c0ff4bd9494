import Mathlib.Data.List.Infix

/-!
# Silence.Lib.Reader

Reading messages from a stream whose bytes arrive in segments of any length.

A reader appends segments to its buffer until the buffer begins with a message,
and leaves there what the last segment brought in behind it. `Parser.Reads` is
what an encoding has to satisfy, `Reads.read_eq` what a read then gives, however
the stream is cut.
-/

namespace Silence.Lib

variable {β μ : Type}

/-- What a parser makes of the bytes that are there. -/
inductive Parse (β μ : Type) where
  | complete (message : μ) (rest : List β)
  | needMore
  | malformed

/-- A parser of messages, and what it makes of bytes behind which the stream ends. -/
structure Parser (β μ : Type) where
  parse : List β → Parse β μ
  parseEnd : List β → Option μ

/-- What reading one message gives. -/
inductive ReadResult (β μ : Type) where
  | message (message : μ) (buffer : List β) (segments : List (List β))
  | endOfStream
  | failed

namespace Parser

/-- Read segments until a message is complete. `closed` tells whether the stream ends or breaks
off behind the last segment. -/
def read (p : Parser β μ) (closed : Bool) (buffer : List β) : List (List β) → ReadResult β μ
  | [] =>
      if !closed then .failed
      else if buffer.isEmpty then .endOfStream
      else
        match p.parseEnd buffer with
        | some message => .message message [] []
        | none => .failed
  | segment :: segments =>
      match p.parse (buffer ++ segment) with
      | .complete message rest => .message message rest segments
      | .needMore => read p closed (buffer ++ segment) segments
      | .malformed => .failed

/-- The bytes are an encoding of the message, which is complete with the last of them. -/
structure Reads (p : Parser β μ) (message : μ) (bytes : List β) : Prop where
  nonempty : bytes ≠ []
  complete : ∀ rest, p.parse (bytes ++ rest) = .complete message rest
  needMore : ∀ front, front <+: bytes → front ≠ bytes → p.parse front = .needMore
  parseEnd : ∀ front, front <+: bytes → front ≠ bytes → p.parseEnd front = none

/-- No message is found at the beginning of the bytes, also while they arrive. -/
structure Rejects (p : Parser β μ) (bytes : List β) : Prop where
  parse : ∀ front, front <+: bytes → ∀ message rest, p.parse front ≠ .complete message rest
  parseEnd : ∀ front, front <+: bytes → p.parseEnd front = none

/-- Segments are used up when a message is read into an empty buffer. -/
theorem length_lt_of_read {p : Parser β μ} {closed : Bool} {message : μ} {rest : List β}
    {segments remaining : List (List β)}
    (h : p.read closed [] segments = .message message rest remaining) :
    remaining.length < segments.length := by
  -- with any buffer no segments are added; the empty buffer needs one more
  have hle : ∀ (segments : List (List β)) (buffer : List β),
      p.read closed buffer segments = .message message rest remaining →
      remaining.length ≤ segments.length := by
    intro segments
    induction segments with
    | nil =>
        intro buffer h
        unfold read at h
        split at h
        · cases h
        · split at h
          · cases h
          · split at h
            · cases h
              exact le_refl _
            · cases h
    | cons segment segments ih =>
        intro buffer h
        unfold read at h
        split at h
        · cases h
          exact Nat.le_succ _
        · exact (ih _ h).trans (Nat.le_succ _)
        · cases h
  cases segments with
  | nil => cases closed <;> cases h
  | cons segment segments =>
      unfold read at h
      split at h
      · cases h
        exact Nat.lt_succ_self _
      · exact Nat.lt_succ_of_le (hle _ _ h)
      · cases h

namespace Reads

variable {p : Parser β μ} {message : μ} {bytes : List β}

/-- A message that arrives is read, up to the segment that completes it. -/
theorem read_eq (h : p.Reads message bytes) (closed : Bool) {buffer : List β}
    {segments : List (List β)} (hbuffer : buffer <+: bytes) (hne : buffer ≠ bytes)
    (harrives : bytes <+: buffer ++ segments.flatten) :
    ∃ front segment remaining rest, segments = front ++ segment :: remaining ∧
      buffer ++ front.flatten <+: bytes ∧ buffer ++ front.flatten ≠ bytes ∧
      buffer ++ front.flatten ++ segment = bytes ++ rest ∧
      p.read closed buffer segments = .message message rest remaining := by
  induction segments generalizing buffer with
  | nil =>
      rw [List.flatten_nil, List.append_nil] at harrives
      exact absurd (hbuffer.eq_of_length_le harrives.length_le) hne
  | cons segment segments ih =>
      rw [List.flatten_cons, ← List.append_assoc] at harrives
      by_cases hshort : buffer ++ segment <+: bytes ∧ buffer ++ segment ≠ bytes
      · -- the message goes on behind this segment
        obtain ⟨front, last, remaining, rest, rfl, hfront, hfrontNe, hlast, hread⟩ :=
          ih hshort.1 hshort.2 harrives
        refine ⟨segment :: front, last, remaining, rest, rfl, ?_, ?_, ?_, ?_⟩
        · rwa [List.flatten_cons, ← List.append_assoc]
        · rwa [List.flatten_cons, ← List.append_assoc]
        · rwa [List.flatten_cons, ← List.append_assoc]
        · rw [read, h.needMore _ hshort.1 hshort.2]
          exact hread
      · obtain ⟨rest, hrest⟩ : bytes <+: buffer ++ segment := by
          rcases List.prefix_or_prefix_of_prefix (List.prefix_append _ segments.flatten) harrives
            with hle | hle
          · have heq : buffer ++ segment = bytes := by
              by_contra hne
              exact hshort ⟨hle, hne⟩
            exact heq ▸ List.prefix_refl _
          · exact hle
        refine ⟨[], segment, segments, rest, rfl, ?_, ?_, ?_, ?_⟩
        · rwa [List.flatten_nil, List.append_nil]
        · rwa [List.flatten_nil, List.append_nil]
        · rw [List.flatten_nil, List.append_nil, hrest]
        · rw [read, ← hrest, h.complete]

/-- A message of which a part is missing is not read. -/
theorem read_ne_message (h : p.Reads message bytes) (closed : Bool) {buffer : List β}
    {segments : List (List β)} (harrived : buffer ++ segments.flatten <+: bytes)
    (hne : buffer ++ segments.flatten ≠ bytes) (other : μ) (rest : List β)
    (remaining : List (List β)) :
    p.read closed buffer segments ≠ .message other rest remaining := by
  induction segments generalizing buffer with
  | nil =>
      rw [List.flatten_nil, List.append_nil] at harrived hne
      rw [read, h.parseEnd _ harrived hne]
      split
      · nofun
      · split <;> nofun
  | cons segment segments ih =>
      rw [List.flatten_cons, ← List.append_assoc] at harrived hne
      have hfront : buffer ++ segment <+: bytes := (List.prefix_append _ _).trans harrived
      have hfrontNe : buffer ++ segment ≠ bytes := by
        intro heq
        rw [heq] at harrived hne
        exact hne (harrived.eq_of_length_le (List.prefix_append _ _).length_le)
      rw [read, h.needMore _ hfront hfrontNe]
      exact ih harrived hne

end Reads

/-- Nothing is read from bytes that are rejected. -/
theorem Rejects.read_ne_message {p : Parser β μ} {closed : Bool} {buffer : List β}
    {segments : List (List β)} (h : p.Rejects (buffer ++ segments.flatten)) (message : μ)
    (rest : List β) (remaining : List (List β)) :
    p.read closed buffer segments ≠ .message message rest remaining := by
  induction segments generalizing buffer with
  | nil =>
      rw [read, h.parseEnd _ (List.prefix_append _ _)]
      split
      · nofun
      · split <;> nofun
  | cons segment segments ih =>
      rw [List.flatten_cons, ← List.append_assoc] at h
      rw [read]
      split
      · rename_i hparse
        exact absurd hparse (h.parse _ (List.prefix_append _ _) _ _)
      · exact ih h
      · nofun

end Parser

end Silence.Lib
