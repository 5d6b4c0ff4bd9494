import Silence.Server.Framing
import Silence.Server.RequestErrors
import Silence.Server.Sessions
import Mathlib.Logic.Function.Iterate

/-!
# Silence.Server.RequestLoop

How the loop of `RequestHandler::handle_request` ends.

Only the end of the file ends the loop and removes a client. Any other read error is
logged, the empty line behind it is answered like a request that does not parse, and
the loop reads again: with a connection that stays broken it never ends
(`running_of_spins`). An exception of a handler leaves the loop and removes nobody.
`endsFrom_iff` says exactly when the loop ends and leaves no client of its socket.
-/

namespace Silence.Server

open Silence.Lib Silence.Lib.Effect

/-- The error with which reading fails: the end of the file, or another one such as a reset
connection. -/
inductive ReadError where
  | eof
  | other
  deriving DecidableEq, Repr

def ReadError.outcome : ReadError → ReadOutcome
  | .eof => .eof
  | .other => .error

/-- A connection: how its reads fail once all its bytes have arrived, what each iteration of the
loop meets, and what the other connections do before it. -/
structure Connection where
  socket : Socket
  failure : ReadError
  env : Nat → Environment
  others : Nat → List Event

inductive LoopStatus where
  | running
  | closed
  | threw
  deriving DecidableEq, Repr

/-- The state of the loop between two iterations; `unread` is what single reads of the socket will
still bring in, and `lines` what has been taken from the buffer. -/
structure LoopState where
  world : World
  unread : List Bytes
  iterations : Nat
  lines : List Bytes
  status : LoopStatus

def LoopState.start (w : World) (segments : List Bytes) : LoopState :=
  ⟨w, segments, 0, [], .running⟩

/-- `boost::asio::read_until`: the buffer, and what is still to come; none where it fails. -/
def readUntil (requestBuf : Bytes) : List Bytes → Bytes × Option (List Bytes)
  | [] => (requestBuf, none)
  | bytes :: segments =>
      let requestBuf := requestBuf ++ bytes
      if delimiter <:+: requestBuf then (requestBuf, some segments)
      else readUntil requestBuf segments

section

variable (parse : JsonParser) (c : Connection)

/-- The state that an iteration meets. -/
def Connection.worldAt (i : Nat) (w : World) : World := (c.others i).foldl (World.step parse) w

/-- The part of an iteration behind the reading. -/
def Connection.process (s : LoopState) (line : Bytes) (unread : List Bytes) : LoopState :=
  let run := exec (handleRequestLine parse (c.env s.iterations) c.socket line)
    (c.worldAt parse s.iterations s.world)
  { world := run.2
    unread := unread
    iterations := s.iterations + 1
    lines := s.lines ++ [line]
    status := match run.1 with
      | .ok _ => .running
      | .error _ => .threw }

/-- One iteration of the loop, if it has not ended. -/
def Connection.iterate (s : LoopState) : LoopState :=
  match s.status with
  | .running =>
      match readUntil [] s.unread, c.failure with
      | (requestBuf, some unread), _ => c.process parse s (requestLine requestBuf) unread
      | (_, none), .eof =>
          { s with
            world := (c.worldAt parse s.iterations s.world).disconnect c.socket
            status := .closed }
      | (requestBuf, none), .other => c.process parse s (requestLine requestBuf) []
  | _ => s

/-- No user is registered on the socket. -/
def NoClient (w : World) (socket : Socket) : Prop :=
  ∀ userId, w.connectedClients.getClientSocket userId ≠ some socket

def AtMostOneClient (w : World) (socket : Socket) : Prop :=
  ∀ userId userId', w.connectedClients.getClientSocket userId = some socket →
    w.connectedClients.getClientSocket userId' = some socket → userId = userId'

/-- After finitely many iterations the loop has ended and no user is registered on its socket. -/
def Connection.EndsFrom (s : LoopState) : Prop :=
  ∃ n, ((c.iterate parse)^[n] s).status ≠ .running ∧
    NoClient ((c.iterate parse)^[n] s).world c.socket

/-- What the reads of the connection give. -/
def pendingReads (segments : List Bytes) (failure : ReadError) : List ReadOutcome :=
  segments.map .segment ++ [failure.outcome]

/-- The condition. Behind the last line the file ends, while at most one user is registered on the
socket. If the handler of a line throws, no user is registered on the socket, and the line does not
log one in. -/
def Connection.EndsWell : Nat → World → List Bytes → Prop
  | i, w, [] => c.failure = .eof ∧ AtMostOneClient (c.worldAt parse i w) c.socket
  | i, w, line :: lines =>
      (Completes (c.env i) (c.worldAt parse i w) (parse line) →
        Connection.EndsWell (i + 1)
          ((c.worldAt parse i w).step parse (.request c.socket (c.env i) line)) lines) ∧
      (¬ Completes (c.env i) (c.worldAt parse i w) (parse line) →
        NoClient (c.worldAt parse i w) c.socket ∧
          loginOf (c.env i) (parse.value line) = none)

end

/-! ### Reading -/

/-- `read_until` gives the buffer of the next line, or fails behind the last delimiter. -/
theorem readUntil_cases (requestBuf : Bytes) (segments : List Bytes) :
    (∃ buf unread, readUntil requestBuf segments = (buf, some unread) ∧
      unread.length < segments.length ∧
      ∀ failure, requestLines requestBuf (pendingReads segments failure) =
        requestLine buf :: requestLines [] (pendingReads unread failure)) ∨
    ∃ buf, readUntil requestBuf segments = (buf, none) ∧
      requestLines requestBuf (pendingReads segments .eof) = [] ∧
      requestLines requestBuf (pendingReads segments .other) = [requestLine buf] := by
  induction segments generalizing requestBuf with
  | nil => exact .inr ⟨requestBuf, rfl, rfl, rfl⟩
  | cons bytes segments ih =>
      have hreads : ∀ failure, pendingReads (bytes :: segments) failure =
          .segment bytes :: pendingReads segments failure := fun _ => rfl
      simp only [readUntil, hreads, requestLines]
      by_cases hdelimiter : delimiter <:+: requestBuf ++ bytes
      · simp only [if_pos hdelimiter]
        exact .inl ⟨_, segments, rfl, Nat.lt_succ_self _, fun _ => rfl⟩
      · simp only [if_neg hdelimiter]
        rcases ih (requestBuf ++ bytes) with ⟨buf, unread, hread, hlength, hlines⟩ | hfails
        · exact .inl ⟨buf, unread, hread, Nat.lt_succ_of_lt hlength, hlines⟩
        · exact .inr hfails

/-! ### One iteration -/

section

variable {parse : JsonParser} {c : Connection} {s : LoopState}

theorem iterate_of_line (hrunning : s.status = .running) {buf : Bytes} {unread : List Bytes}
    (hread : readUntil [] s.unread = (buf, some unread)) :
    c.iterate parse s = c.process parse s (requestLine buf) unread := by
  unfold Connection.iterate
  rw [hrunning, hread]

theorem iterate_of_eof (hrunning : s.status = .running) {buf : Bytes}
    (hread : readUntil [] s.unread = (buf, none)) (hfailure : c.failure = .eof) :
    c.iterate parse s = { s with
      world := (c.worldAt parse s.iterations s.world).disconnect c.socket
      status := .closed } := by
  unfold Connection.iterate
  rw [hrunning, hread, hfailure]

theorem iterate_of_error (hrunning : s.status = .running) {buf : Bytes}
    (hread : readUntil [] s.unread = (buf, none)) (hfailure : c.failure = .other) :
    c.iterate parse s = c.process parse s (requestLine buf) [] := by
  unfold Connection.iterate
  rw [hrunning, hread, hfailure]

theorem iterate_of_ended (hended : s.status ≠ .running) : c.iterate parse s = s := by
  unfold Connection.iterate
  split
  · rename_i hrunning
    exact absurd hrunning hended
  · rfl

/-- A line keeps the loop running if its request completes, and ends it by an exception
otherwise. -/
theorem status_process (line : Bytes) (unread : List Bytes) :
    (c.process parse s line unread).status = .running ↔
      Completes (c.env s.iterations) (c.worldAt parse s.iterations s.world) (parse line) := by
  rw [← returns_handleRequestLine_iff parse (c.env s.iterations) c.socket line]
  unfold Connection.process Returns
  simp only
  split
  · rename_i result hrun
    exact iff_of_true rfl ⟨result, hrun⟩
  · rename_i e hrun
    refine iff_of_false nofun ?_
    intro hreturns
    obtain ⟨result, hok⟩ := hreturns
    rw [hrun] at hok
    cases hok

/-! ### The clients of the socket -/

theorem noClient_disconnect_iff (w : World) (socket : Socket) :
    NoClient (w.disconnect socket) socket ↔ AtMostOneClient w socket := by
  constructor
  · intro hnone userId userId' h h'
    by_contra hne
    obtain ⟨left, hleft⟩ := exists_left_of_ne hne h h'
    exact hnone left hleft
  · intro hone userId hregistered
    exact ((getClientSocket_remove_of_single hone userId socket).mp hregistered).2 rfl

/-- A request registers a user on its socket by logging it in, and in no other way. -/
theorem noClient_step_iff (w : World) (socket : Socket) (env : Environment) (line : Bytes) :
    NoClient (w.step parse (.request socket env line)) socket ↔
      NoClient w socket ∧ loginOf env (parse.value line) = none := by
  have hclients := connectedClients_step parse w (.request socket env line)
  simp only [Event.login] at hclients
  unfold NoClient
  rw [hclients]
  cases hlogin : loginOf env (parse.value line) with
  | none => simp
  | some userId =>
      refine iff_of_false (fun hnone => ?_) fun h => Option.some_ne_none _ h.2
      exact hnone userId (OrdMap.find?_insert_self _ _ _)

/-! ### The end of the loop -/

theorem endsFrom_of_ended (hended : s.status ≠ .running) :
    c.EndsFrom parse s ↔ NoClient s.world c.socket := by
  have hsame : ∀ n, (c.iterate parse)^[n] s = s :=
    fun n => Function.iterate_fixed (iterate_of_ended hended) n
  unfold Connection.EndsFrom
  simp only [hsame]
  constructor
  · intro h
    obtain ⟨-, -, hnone⟩ := h
    exact hnone
  · exact fun hnone => ⟨0, hended, hnone⟩

theorem endsFrom_iterate (hrunning : s.status = .running) :
    c.EndsFrom parse s ↔ c.EndsFrom parse (c.iterate parse s) := by
  constructor
  · intro h
    obtain ⟨n, hended, hnone⟩ := h
    cases n with
    | zero => exact absurd hrunning hended
    | succ n =>
        rw [Function.iterate_succ_apply] at hended hnone
        exact ⟨n, hended, hnone⟩
  · intro h
    obtain ⟨n, hended, hnone⟩ := h
    refine ⟨n + 1, ?_⟩
    rw [Function.iterate_succ_apply]
    exact ⟨hended, hnone⟩

/-- Once nothing is left to read, an error that is not the end of the file keeps the loop
running: the empty line is answered as one that does not parse. -/
theorem running_of_spins (hempty : parse [] = .error .parseError) (hfailure : c.failure = .other)
    (hunread : s.unread = []) (hrunning : s.status = .running) (n : Nat) :
    ((c.iterate parse)^[n] s).status = .running := by
  induction n generalizing s with
  | zero => exact hrunning
  | succ n ih =>
      have hread : readUntil [] s.unread = ([], none) := by
        rw [hunread]
        rfl
      rw [Function.iterate_succ_apply, iterate_of_error hrunning hread hfailure]
      refine ih rfl ((status_process _ _).mpr ?_)
      have hline : parse (requestLine []) = .error .parseError := hempty
      rw [hline]
      trivial

/-- What becomes of the loop behind a line: it goes on, or it has ended by an exception. -/
theorem endsFrom_process_iff {w : World} (hw : c.worldAt parse s.iterations s.world = w)
    (line : Bytes) (unread : List Bytes) :
    c.EndsFrom parse (c.process parse s line unread) ↔
      (Completes (c.env s.iterations) w (parse line) →
        c.EndsFrom parse ⟨w.step parse (.request c.socket (c.env s.iterations) line), unread,
          s.iterations + 1, s.lines ++ [line], .running⟩) ∧
      (¬ Completes (c.env s.iterations) w (parse line) →
        NoClient w c.socket ∧ loginOf (c.env s.iterations) (parse.value line) = none) := by
  subst hw
  by_cases hcompletes :
    Completes (c.env s.iterations) (c.worldAt parse s.iterations s.world) (parse line)
  · have hstatus := (status_process line unread).mpr hcompletes
    have hnext : c.process parse s line unread =
        ⟨(c.worldAt parse s.iterations s.world).step parse
          (.request c.socket (c.env s.iterations) line), unread, s.iterations + 1,
          s.lines ++ [line], .running⟩ := by
      rw [← hstatus]
      rfl
    rw [hnext]
    simp [hcompletes]
  · have hstatus : (c.process parse s line unread).status ≠ .running :=
      fun hrunning => hcompletes ((status_process line unread).mp hrunning)
    have hworld : (c.process parse s line unread).world =
        (c.worldAt parse s.iterations s.world).step parse
          (.request c.socket (c.env s.iterations) line) := rfl
    rw [endsFrom_of_ended hstatus, hworld, noClient_step_iff]
    simp [hcompletes]

/-- The loop ends and leaves no client of its socket exactly if the lines that it cuts from the
connection meet the condition. The induction is on what is left to read. -/
theorem endsFrom_iff (hempty : parse [] = .error .parseError) (hrunning : s.status = .running) :
    c.EndsFrom parse s ↔
      c.EndsWell parse s.iterations s.world
        (requestLines [] (pendingReads s.unread c.failure)) := by
  induction hlength : s.unread.length using Nat.strong_induction_on generalizing s with
  | _ length ih =>
      rw [endsFrom_iterate hrunning]
      rcases readUntil_cases [] s.unread with
        ⟨buf, unread, hread, hshorter, hlines⟩ | ⟨buf, hread, heof, herror⟩
      · have hrest := fun w lines => ih unread.length (by omega)
          (s := ⟨w, unread, s.iterations + 1, lines, .running⟩) rfl rfl
        rw [iterate_of_line hrunning hread, endsFrom_process_iff rfl, hlines, hrest]
        rfl
      · cases hfailure : c.failure with
        | eof =>
            rw [iterate_of_eof hrunning hread hfailure, endsFrom_of_ended (by simp), heof,
              noClient_disconnect_iff]
            simp [Connection.EndsWell, hfailure]
        | other =>
            have hspins : ∀ w lines,
                ¬ c.EndsFrom parse ⟨w, [], s.iterations + 1, lines, .running⟩ := by
              intro w lines h
              obtain ⟨n, hended, -⟩ := h
              exact hended (running_of_spins hempty hfailure rfl rfl n)
            rw [iterate_of_error hrunning hread hfailure, endsFrom_process_iff rfl, herror]
            simp [Connection.EndsWell, hfailure, hspins]

end

/-- For every connection, whatever requests its reads bring in and whatever the other connections
do: after its reads have failed, the loop ends after finitely many iterations and leaves no client
registered on its socket if and only if the condition holds. -/
theorem handleRequest_ends_iff {parse : JsonParser} (hempty : parse [] = .error .parseError)
    (c : Connection) (w : World) (segments : List Bytes) :
    c.EndsFrom parse (.start w segments) ↔
      c.EndsWell parse 0 w (requestLines [] (pendingReads segments c.failure)) :=
  endsFrom_iff hempty rfl

/-! ### A connection that is reset -/

/-- Socket 7, on which nothing more arrives. -/
def silentConnection (failure : ReadError) : Connection :=
  ⟨7, failure, fun _ => .working, fun _ => []⟩

/-- User 1 has logged in on socket 7. -/
def World.oneLogin : World := (World.start .fresh).step parseLogins (loginEvent "a" 1)

theorem getClientSocket_oneLogin (userId : Int) :
    World.oneLogin.connectedClients.getClientSocket userId =
      if userId = 1 then some 7 else none := by
  have hlogin : (loginEvent "a" 1).login parseLogins = some 1 := by decide +kernel
  have hclients := connectedClients_step parseLogins (.start .fresh) (loginEvent "a" 1)
  rw [hlogin] at hclients
  rw [World.oneLogin, hclients]
  exact OrdMap.find?_insert OrdMap.empty 1 userId 7

/-- The loop of a connection that is reset goes on for ever, and its user stays registered. -/
theorem resetConnection_spins :
    World.oneLogin.connectedClients.getClientSocket 1 = some 7 ∧
      (∀ n, (((silentConnection .other).iterate parseLogins)^[n]
        (.start .oneLogin [])).status = .running) ∧
      ¬ (silentConnection .other).EndsFrom parseLogins (.start .oneLogin []) := by
  have hrunning : ∀ n, (((silentConnection .other).iterate parseLogins)^[n]
      (.start .oneLogin [])).status = .running := running_of_spins rfl rfl rfl rfl
  refine ⟨by rw [getClientSocket_oneLogin, if_pos rfl], hrunning, ?_⟩
  intro hends
  obtain ⟨n, hended, -⟩ := hends
  exact hended (hrunning n)

/-- When the client closes the connection instead, its only user is removed. -/
theorem handleRequest_ends_closed :
    (silentConnection .eof).EndsFrom parseLogins (.start .oneLogin []) := by
  refine (handleRequest_ends_iff rfl (silentConnection .eof) .oneLogin []).mpr ⟨rfl, ?_⟩
  intro userId userId' h h'
  have hone : ∀ user, World.oneLogin.connectedClients.getClientSocket user = some 7 →
      user = 1 := by
    intro user huser
    rw [getClientSocket_oneLogin] at huser
    by_contra hne
    rw [if_neg hne] at huser
    cases huser
  exact (hone userId h).trans (hone userId' h').symm

end Silence.Server
