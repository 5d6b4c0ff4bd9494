import Silence.Server.RequestLoop

/-!
# Silence.Server.Dispatch

Which requests the loop of `RequestHandler::handle_request` dispatches.

Two things can keep a request from its handler: the bytes that a read brings in
behind a delimiter are thrown away with the buffer, and an exception of a handler
leaves the loop. `dispatched_eq_iff` proves that there is nothing else: the
requests of a client are dispatched, each once and in order, exactly when no read
brings in bytes of two of them and every request but the last completes.
-/

namespace Silence.Server

open Silence.Lib.Effect

/-- The requests that have been dispatched: the lines that parse. -/
def LoopState.dispatched (parse : JsonParser) (s : LoopState) : List Json :=
  s.lines.filterMap fun line => (parse line).toOption

/-- The loop takes no further line from what has arrived: it has ended, or `read_until` waits for
more. -/
def LoopState.Drained (s : LoopState) : Prop :=
  s.status ≠ .running ∨ (readUntil [] s.unread).2 = none

section

variable (parse : JsonParser) (c : Connection)

/-- When the loop takes no further line, it has dispatched exactly these requests. -/
def Connection.Dispatches (s : LoopState) (values : List Json) : Prop :=
  ∃ n, ((c.iterate parse)^[n] s).Drained ∧ (∀ m < n, ¬ ((c.iterate parse)^[m] s).Drained) ∧
    ((c.iterate parse)^[n] s).dispatched parse = values

/-- Every line but the last completes in the state that it meets. -/
def Connection.KeepsRunning : Nat → World → List Bytes → Prop
  | _, _, [] => True
  | i, w, line :: lines =>
      (lines ≠ [] → Completes (c.env i) (c.worldAt parse i w) (parse line)) ∧
        Connection.KeepsRunning (i + 1)
          ((c.worldAt parse i w).step parse (.request c.socket (c.env i) line)) lines

/-- The lines up to the first one whose handler throws. -/
def Connection.taken : Nat → World → List Bytes → List Bytes
  | _, _, [] => []
  | i, w, line :: lines =>
      let run := exec (handleRequestLine parse (c.env i) c.socket line) (c.worldAt parse i w)
      line :: if run.1.isOk then Connection.taken (i + 1) run.2 lines else []

end

/-! ### The lines that are taken -/

section

variable {parse : JsonParser} {c : Connection}

theorem taken_cons_of_completes {i : Nat} {w : World} {line : Bytes}
    (h : Completes (c.env i) (c.worldAt parse i w) (parse line)) (lines : List Bytes) :
    c.taken parse i w (line :: lines) =
      line :: c.taken parse (i + 1)
        ((c.worldAt parse i w).step parse (.request c.socket (c.env i) line)) lines := by
  obtain ⟨result, hrun⟩ :=
    (returns_handleRequestLine_iff parse (c.env i) c.socket line _).mpr h
  rw [Connection.taken]
  simp only [hrun, Except.isOk, Except.toBool, if_true]
  rfl

theorem taken_cons_of_not {i : Nat} {w : World} {line : Bytes}
    (h : ¬ Completes (c.env i) (c.worldAt parse i w) (parse line)) (lines : List Bytes) :
    c.taken parse i w (line :: lines) = [line] := by
  rw [← returns_handleRequestLine_iff parse (c.env i) c.socket line] at h
  rw [Connection.taken]
  cases hrun : (exec (handleRequestLine parse (c.env i) c.socket line)
      (c.worldAt parse i w)).1 with
  | ok result => exact absurd ⟨result, hrun⟩ h
  | error e => simp [Except.isOk, Except.toBool]

theorem taken_isPrefix (i : Nat) (w : World) (lines : List Bytes) :
    c.taken parse i w lines <+: lines := by
  induction lines generalizing i w with
  | nil => exact List.nil_prefix
  | cons line lines ih =>
      by_cases hcompletes : Completes (c.env i) (c.worldAt parse i w) (parse line)
      · rw [taken_cons_of_completes hcompletes]
        exact List.cons_prefix_cons.mpr ⟨rfl, ih _ _⟩
      · rw [taken_cons_of_not hcompletes]
        exact List.cons_prefix_cons.mpr ⟨rfl, List.nil_prefix⟩

/-- All lines are taken exactly if every one but the last completes. -/
theorem taken_eq_iff (i : Nat) (w : World) (lines : List Bytes) :
    c.taken parse i w lines = lines ↔ c.KeepsRunning parse i w lines := by
  induction lines generalizing i w with
  | nil => exact iff_of_true rfl trivial
  | cons line lines ih =>
      rw [Connection.KeepsRunning]
      by_cases hcompletes : Completes (c.env i) (c.worldAt parse i w) (parse line)
      · rw [taken_cons_of_completes hcompletes, List.cons.injEq, ih]
        simp [hcompletes]
      · rw [taken_cons_of_not hcompletes]
        constructor
        · intro h
          obtain rfl := (List.cons.inj h).2
          exact ⟨fun hne => absurd rfl hne, trivial⟩
        · intro h
          have hnil : lines = [] := by
            by_contra hne
            exact hcompletes (h.1 hne)
          rw [hnil]

/-! ### The loop -/

variable {s : LoopState} {values : List Json}

theorem dispatches_of_drained (h : s.Drained) :
    c.Dispatches parse s values ↔ s.dispatched parse = values := by
  constructor
  · intro hdispatches
    obtain ⟨n, -, hfirst, hvalues⟩ := hdispatches
    cases n with
    | zero => exact hvalues
    | succ n => exact absurd h (hfirst 0 (Nat.succ_pos n))
  · intro hvalues
    exact ⟨0, h, fun m hm => absurd hm (Nat.not_lt_zero m), hvalues⟩

theorem dispatches_iterate (h : ¬ s.Drained) :
    c.Dispatches parse s values ↔ c.Dispatches parse (c.iterate parse s) values := by
  constructor
  · intro hdispatches
    obtain ⟨n, hdrained, hfirst, hvalues⟩ := hdispatches
    cases n with
    | zero => exact absurd hdrained h
    | succ n =>
        rw [Function.iterate_succ_apply] at hdrained hvalues
        refine ⟨n, hdrained, fun m hm => ?_, hvalues⟩
        rw [← Function.iterate_succ_apply]
        exact hfirst (m + 1) (Nat.succ_lt_succ hm)
  · intro hdispatches
    obtain ⟨n, hdrained, hfirst, hvalues⟩ := hdispatches
    refine ⟨n + 1, ?_, fun m hm => ?_, ?_⟩
    · rwa [Function.iterate_succ_apply]
    · cases m with
      | zero => exact h
      | succ m =>
          rw [Function.iterate_succ_apply]
          exact hfirst m (Nat.lt_of_succ_lt_succ hm)
    · rwa [Function.iterate_succ_apply]

/-- The loop dispatches what parses among the lines that it takes. The induction is on what is left
to read. -/
theorem dispatches_iff (hrunning : s.status = .running) :
    c.Dispatches parse s values ↔
      (s.lines ++ c.taken parse s.iterations s.world
        (requestLines [] (reads s.unread))).filterMap (fun line => (parse line).toOption) =
      values := by
  induction hlength : s.unread.length using Nat.strong_induction_on generalizing s with
  | _ length ih =>
      rcases readUntil_cases [] s.unread with
        ⟨buf, unread, hread, hshorter, hlines⟩ | ⟨buf, hread, heof, -⟩
      · have hmore : ¬ s.Drained := by simp [LoopState.Drained, hrunning, hread]
        have hlines : requestLines [] (reads s.unread) =
            requestLine buf :: requestLines [] (reads unread) := hlines .eof
        rw [dispatches_iterate hmore, iterate_of_line hrunning hread, hlines]
        by_cases hcompletes : Completes (c.env s.iterations)
          (c.worldAt parse s.iterations s.world) (parse (requestLine buf))
        · have hnext := ih unread.length (by omega)
            (s := c.process parse s (requestLine buf) unread)
            ((status_process _ _).mpr hcompletes) rfl
          rw [hnext, taken_cons_of_completes hcompletes]
          show (s.lines ++ [requestLine buf] ++ _).filterMap _ = _ ↔ _
          rw [List.append_assoc, List.singleton_append]
          rfl
        · have hended : (c.process parse s (requestLine buf) unread).Drained :=
            .inl fun hstatus => hcompletes ((status_process _ _).mp hstatus)
          rw [dispatches_of_drained hended, taken_cons_of_not hcompletes]
          rfl
      · have hended : s.Drained := .inr (by rw [hread])
        have hnone : requestLines [] (reads s.unread) = [] := heof
        rw [dispatches_of_drained hended, hnone, Connection.taken, List.append_nil]
        rfl

end

/-! ### The requests of a client -/

/-- Ends of all the requests that parse to the requests are whole. -/
theorem eq_of_ends {J : Type} {read : Bytes → Option J} {dump : J → Bytes} {values : List J}
    (hsuffix : ∀ v ∈ values, ∀ text, text <:+ dump v ++ [carriageReturn] → read text = some v →
      text = dump v ++ [carriageReturn])
    {lines : List Bytes}
    (hends : List.Forall₂ (fun line r => line <:+ r ++ [carriageReturn]) lines (values.map dump))
    (hread : lines.filterMap read = values) :
    lines = (values.map dump).map (· ++ [carriageReturn]) := by
  induction values generalizing lines with
  | nil =>
      cases hends
      rfl
  | cons v values ih =>
      rcases hends with _ | ⟨hline, hends⟩
      rename_i line lines
      cases hp : read line with
      | none =>
          -- a line is missing among the rest
          rw [List.filterMap_cons_none hp] at hread
          have hle := List.length_filterMap_le read lines
          rw [hread, hends.length_eq, List.length_map, List.length_cons] at hle
          omega
      | some w =>
          rw [List.filterMap_cons_some hp, List.cons.injEq] at hread
          obtain ⟨rfl, htail⟩ := hread
          rw [List.map_cons, List.map_cons, hsuffix w (by simp) line hline hp,
            ← ih (fun v hv => hsuffix v (by simp [hv])) hends htail]

/-- On a connection on which a client writes requests, in whatever segments they arrive and whatever
the other connections do: exactly the requests are dispatched, each once and in order, if and only
if every request ends where a segment ends and every request but the last completes. `parse` and
`dump` are those of nlohmann::json: trailing whitespace is skipped, a dump has no newline, and no
proper end of the text of a request is a text of the same request. -/
theorem dispatched_eq_iff {parse : JsonParser} {dump : Json → Bytes} {values : List Json}
    {segments : List Bytes}
    (hparse : ∀ v ∈ values, parse (dump v ++ [carriageReturn]) = .ok v)
    (hnl : ∀ v ∈ values, newline ∉ dump v)
    (hsuffix : ∀ v ∈ values, ∀ text, text <:+ dump v ++ [carriageReturn] → parse text = .ok v →
      text = dump v ++ [carriageReturn])
    (hstream : segments.flatten = stream (values.map dump)) (c : Connection) (w : World) :
    c.Dispatches parse (.start w segments) values ↔
      Aligned (values.map dump) segments ∧
        c.KeepsRunning parse 0 w (values.map fun v => dump v ++ [carriageReturn]) := by
  have hnl' : ∀ r ∈ values.map dump, newline ∉ r := by simpa using hnl
  have htoOption : ∀ {v text}, parse text = .ok v ↔ (parse text).toOption = some v := by
    intro v text
    cases parse text <;> simp [Except.toOption]
  have hwhole : (values.map dump).map (· ++ [carriageReturn]) =
      values.map fun v => dump v ++ [carriageReturn] := List.map_map
  have hdispatches := @dispatches_iff parse c (.start w segments) values rfl
  simp only [LoopState.start, List.nil_append] at hdispatches
  rw [aligned_iff_alignedFrom, ← requestLines_eq_iff_from hnl' hstream (fun r _ => by simp),
    LoopState.start, hdispatches, ← hwhole]
  constructor
  · intro h
    obtain ⟨chosen, hsub, hends⟩ := @endsOf_requestLines [] [] _ segments hnl' hstream
      (fun r _ => by simp)
    -- as many lines are taken as there are requests, so none is left out
    have htaken := @taken_isPrefix parse c 0 w (requestLines [] (reads segments))
    have hmany := List.length_filterMap_le (fun line => (parse line).toOption)
      (c.taken parse 0 w (requestLines [] (reads segments)))
    have hchosen := hsub.length_le
    rw [h] at hmany
    rw [List.length_map, ← hends.length_eq] at hchosen
    have hall := htaken.eq_of_length_le (hchosen.trans hmany)
    obtain rfl := hsub.eq_of_length_le (by
      rw [List.length_map, ← hends.length_eq]
      exact hmany.trans htaken.length_le)
    rw [hall] at h
    have hlines := eq_of_ends
      (fun v hv text htext hread => hsuffix v hv text htext (htoOption.mpr hread)) hends h
    exact ⟨hlines, hlines ▸ (taken_eq_iff 0 w _).mp hall⟩
  · intro h
    obtain ⟨hlines, hkeeps⟩ := h
    rw [hlines, (taken_eq_iff 0 w _).mpr hkeeps, hwhole, List.filterMap_map]
    exact (List.filterMap_congr fun v hv => htoOption.mp (hparse v hv)).trans List.filterMap_some

/-! ### Two requests -/

def emptyRequest : Json := .object []

def bareRegister : Json := .object [("type", .string "register")]

/-- The texts of these two requests. -/
def dumpBare (request : Json) : Bytes :=
  if (request.member? "type").isNone then bytesOf "\x7b\x7d"
  else bytesOf "\x7b\"type\":\"register\"\x7d"

def parseBare : JsonParser := fun line =>
  if line = dumpBare emptyRequest ++ [carriageReturn] then .ok emptyRequest
  else if line = dumpBare bareRegister ++ [carriageReturn] then .ok bareRegister
  else .error .parseError

/-- A request without a type is answered. -/
theorem completes_empty (env : Environment) (w : World) :
    Completes env w (parseBare (dumpBare emptyRequest ++ [carriageReturn])) := by
  have hparse : parseBare (dumpBare emptyRequest ++ [carriageReturn]) = .ok emptyRequest := rfl
  rw [hparse]
  trivial

theorem not_completes_bareRegister (env : Environment) (w : World) :
    ¬ Completes env w (parseBare (dumpBare bareRegister ++ [carriageReturn])) := by
  have hparse : parseBare (dumpBare bareRegister ++ [carriageReturn]) = .ok bareRegister := rfl
  rw [hparse]
  intro hcompletes
  exact absurd hcompletes.1 (by decide)

/-- Two requests on a connection that stays, the first one in two segments: both are dispatched,
although the handler of the second one throws. -/
theorem dispatched_eq_iff_two_requests :
    (silentConnection .eof).Dispatches parseBare
      (.start (.start .fresh) [dumpBare emptyRequest, delimiter, frame (dumpBare bareRegister)])
      [emptyRequest, bareRegister] := by
  have hends : ∀ v ∈ [emptyRequest, bareRegister], ∀ text,
      text <:+ dumpBare v ++ [carriageReturn] → parseBare text = .ok v →
        text = dumpBare v ++ [carriageReturn] := by
    intro v _ text _ hread
    unfold parseBare at hread
    split at hread
    · rename_i htext
      cases hread
      exact htext
    · split at hread
      · rename_i htext
        cases hread
        exact htext
      · cases hread
  have hparse : ∀ v ∈ [emptyRequest, bareRegister],
      parseBare (dumpBare v ++ [carriageReturn]) = .ok v :=
    List.forall_mem_cons.mpr ⟨rfl, List.forall_mem_singleton.mpr rfl⟩
  refine (dispatched_eq_iff hparse (by decide +kernel) hends (by decide +kernel)
    (silentConnection .eof) _).mpr ⟨by decide +kernel, fun _ => completes_empty _ _, ?_⟩
  exact ⟨fun hne => absurd rfl hne, trivial⟩

/-- When both arrive in one segment, the second one is lost. In the other order neither is lost on
the way, but the exception of the first one ends the loop. -/
theorem dispatched_coalesced :
    let c := silentConnection .eof
    let glued := LoopState.start (.start .fresh)
      [stream [dumpBare emptyRequest, dumpBare bareRegister]]
    let thrown := LoopState.start (.start .fresh)
      [frame (dumpBare bareRegister), frame (dumpBare emptyRequest)]
    c.Dispatches parseBare glued [emptyRequest] ∧
      ¬ c.Dispatches parseBare glued [emptyRequest, bareRegister] ∧
      c.Dispatches parseBare thrown [bareRegister] ∧
      ¬ c.Dispatches parseBare thrown [bareRegister, emptyRequest] := by
  intro c glued thrown
  have hglued : requestLines [] (reads glued.unread) =
      [dumpBare emptyRequest ++ [carriageReturn]] := by decide +kernel
  have hthrown : requestLines [] (reads thrown.unread) =
      [dumpBare bareRegister ++ [carriageReturn], dumpBare emptyRequest ++ [carriageReturn]] := by
    decide +kernel
  have hempty := taken_cons_of_completes (c := c) (completes_empty (c.env 0)
    (c.worldAt parseBare 0 glued.world)) []
  have hbare := taken_cons_of_not (c := c) (not_completes_bareRegister (c.env 0)
    (c.worldAt parseBare 0 thrown.world)) [dumpBare emptyRequest ++ [carriageReturn]]
  have hone : ∀ values, c.Dispatches parseBare glued values ↔ [emptyRequest] = values := by
    intro values
    rw [dispatches_iff rfl, hglued]
    exact Eq.congr_left (congrArg _ hempty)
  have hother : ∀ values, c.Dispatches parseBare thrown values ↔ [bareRegister] = values := by
    intro values
    rw [dispatches_iff rfl, hthrown]
    exact Eq.congr_left (congrArg _ hbare)
  simp [hone, hother]

end Silence.Server
