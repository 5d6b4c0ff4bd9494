import Silence.Client.KeySet
import Silence.Server.Framing

/-!
# Silence.Client.Reading

How the client cuts the bytes of its socket into messages, from `Client::run` on.

Until the client is authorized, `receive_response` reads the replies. Its
`read_until` fills a buffer of its own, and the response is everything that is in
it, with what the last read brought in behind the delimiter. After that
`handle_async_read` reads: it takes one message from `_read_buffer` and leaves the
rest there. `handled_eq_iff` says when every frame is handled once and in order.

The requests are written and the connection stays open.
-/

namespace Silence.Client

open Silence.Lib.Effect
open Server (Json JsonParser delimiter frame stream newline Aligned AlignedFrom
  stream_nil stream_cons stream_append length_frame)

/-! ### Handling a message -/

/-- What the client is doing: waiting for the reply to a request, or reading in the
background, or nothing more. -/
inductive Phase where
  | registering
  | authorizing
  | reading
  | ended
  deriving DecidableEq, Repr

/-- What a run of the client depends on besides the messages. -/
structure Startup where
  parse : JsonParser
  system : Crypto.HybridCryptoSystem
  /-- The answers to "Would you like to try again?", after so many messages. -/
  tryAgain : Nat → Bool
  /-- Whether `save_user_data_to_json` returns, after so many messages. -/
  saves : Nat → Bool

structure Session where
  phase : Phase
  userId : Int
  client : State
  /-- The messages that were handled. -/
  handled : List Bytes

/-- `json.contains(key) && !json[key].is_null()`. -/
def optionalField (json : Json) (key : String) : Option Json :=
  match json.member? key with
  | some .null => none
  | field => field

/-- What `register_user` does with the response: the id of the user. -/
def registerUser (saves : Bool) (userId : Int) (response : Json) : Except Server.Exn Int := do
  let status ← fieldOf "status" response
  if status.isText "success" then
    let userId ← match optionalField response "user_id" with
      | some value => value.getInt
      | none => pure userId
    match optionalField response "registered_timestamp" with
      | some value => let _ ← value.getInt64
      | none => pure ()
    if saves then return userId
    else throw .typeError
  else return userId

/-- Whether `authorize_user` takes the response for a success. -/
def authorizeUser (response : Json) : Bool :=
  match fieldOf "status" response with
  | .ok status => status.isText "success"
  | .error _ => false

def Session.isRegistered (session : Session) : Bool := session.userId ≠ 0

/-- The loops of `run` after a response that is no success. -/
def Session.askAgain (session : Session) (tryAgain : Bool) : Session :=
  if tryAgain then session else { session with phase := .ended }

/-- What the client does with a message. An exception in `register_user` ends `run`, one in
`authorize_user` is caught, and one that leaves `handle_async_read` ends the program. -/
def Session.handle (env : Startup) (session : Session) (message : Bytes) : Session :=
  let count := session.handled.length
  let next := { session with handled := session.handled ++ [message] }
  match session.phase with
  | .registering =>
      match env.parse message with
      | .error _ => { next with phase := .ended }
      | .ok response =>
          match registerUser (env.saves count) session.userId response with
          | .error _ => { next with phase := .ended }
          | .ok userId =>
              let next := { next with userId := userId }
              if next.isRegistered then { next with phase := .authorizing }
              else next.askAgain (env.tryAgain count)
  | .authorizing =>
      match env.parse message with
      | .error _ => next.askAgain (env.tryAgain count)
      | .ok response =>
          if authorizeUser response then { next with phase := .reading }
          else next.askAgain (env.tryAgain count)
  | .reading =>
      match exec (processServerMessage env.parse env.system message) session.client with
      | (.ok _, client) => { next with client := client }
      | (.error _, client) => { next with client := client, phase := .ended }
  | .ended => session

/-! ### Reading -/

structure Reader where
  session : Session
  /-- `response_buf` of the call of `receive_response`. -/
  responseBuf : Bytes
  readBuffer : Bytes

/-- The bytes up to the first delimiter and those behind it. -/
def takeMessage : Bytes → Option (Bytes × Bytes)
  | [] => none
  | b :: bytes =>
      if delimiter <+: b :: bytes then some (delimiter, (b :: bytes).drop delimiter.length)
      else (takeMessage bytes).map fun (message, rest) => (b :: message, rest)

/-- `handle_async_read` as often as there is a message in `_read_buffer`. -/
def Reader.drain (env : Startup) : Nat → Reader → Reader
  | 0, reader => reader
  | n + 1, reader =>
      match reader.session.phase, takeMessage reader.readBuffer with
      | .reading, some (message, rest) =>
          drain env n
            { reader with session := reader.session.handle env message, readBuffer := rest }
      | _, _ => reader

/-- What the client does with the bytes that one read of the socket brings in. -/
def Reader.receive (env : Startup) (reader : Reader) (bytes : Bytes) : Reader :=
  match reader.session.phase with
  | .registering | .authorizing =>
      let responseBuf := reader.responseBuf ++ bytes
      if delimiter <:+: responseBuf then
        { reader with session := reader.session.handle env responseBuf, responseBuf := [] }
      else { reader with responseBuf := responseBuf }
  | .reading =>
      let reader := { reader with readBuffer := reader.readBuffer ++ bytes }
      reader.drain env reader.readBuffer.length
  | .ended => reader

/-- The client before the first reply. -/
def Reader.start (userId : Int) (client : State) : Reader where
  session := {
    phase := if userId ≠ 0 then .authorizing else .registering
    userId := userId
    client := client
    handled := [] }
  responseBuf := []
  readBuffer := []

/-! ### The frames that are replies -/

def Phase.isStartup : Phase → Bool
  | .registering | .authorizing => true
  | .reading | .ended => false

/-- The frames that `receive_response` waits for, if each frame is handled by itself. -/
def replies (env : Startup) : Session → List Bytes → List Bytes
  | _, [] => []
  | session, r :: rs =>
      if session.phase.isStartup then r :: replies env (session.handle env (frame r)) rs
      else []

/-- The client has not ended before any of the frames, if each is handled by itself. -/
def Serves (env : Startup) : Session → List Bytes → Prop
  | _, [] => True
  | session, r :: rs => session.phase ≠ .ended ∧ Serves env (session.handle env (frame r)) rs

/-! ### Taking a message -/

theorem not_delimiter_prefix_cons {b : UInt8} {r : Bytes} (hr : newline ∉ b :: r)
    (rest : Bytes) :
    ¬ delimiter <+: b :: r ++ delimiter ++ rest := by
  -- the second byte would be a newline
  intro h
  rcases r with _ | ⟨c, r⟩
  · exact absurd (List.cons_prefix_cons.mp (List.cons_prefix_cons.mp h).2).1 (by decide)
  · exact hr (by simp [(List.cons_prefix_cons.mp (List.cons_prefix_cons.mp h).2).1])

theorem takeMessage_frame {r : Bytes} (hr : newline ∉ r) (rest : Bytes) :
    takeMessage (frame r ++ rest) = some (frame r, rest) := by
  rw [frame]
  induction r with
  | nil => rfl
  | cons b r ih =>
      have hnot := not_delimiter_prefix_cons hr rest
      rw [List.cons_append, List.cons_append] at hnot ⊢
      rw [takeMessage, if_neg hnot, ih fun h => hr (List.mem_cons_of_mem b h)]
      rfl

theorem takeMessage_eq_none {x : Bytes} (h : ¬ delimiter <:+: x) : takeMessage x = none := by
  induction x with
  | nil => rfl
  | cons b x ih =>
      rw [List.infix_cons_iff, not_or] at h
      rw [takeMessage, if_neg h.1, ih h.2]
      rfl

/-! ### Reading in the background -/

section Reading

variable (env : Startup)

/-- A client that reads goes on reading, or ends. -/
theorem handle_phase_of_reading {session : Session} (h : session.phase = .reading)
    (message : Bytes) :
    (session.handle env message).phase = .reading ∨
      (session.handle env message).phase = .ended := by
  rw [Session.handle, h]
  dsimp only
  rcases exec (processServerMessage env.parse env.system message) session.client with
    ⟨_ | _, client⟩
  · exact .inr rfl
  · exact .inl rfl

theorem foldl_handle_of_ended {session : Session} (h : session.phase = .ended)
    (messages : List Bytes) : messages.foldl (Session.handle env) session = session := by
  induction messages with
  | nil => rfl
  | cons message messages ih =>
      have hstay : session.handle env message = session := by rw [Session.handle, h]
      rw [List.foldl_cons, hstay, ih]

theorem drain_of_ended {reader : Reader} (h : reader.session.phase = .ended) (n : Nat) :
    reader.drain env n = reader := by
  cases n with
  | zero => rfl
  | succ n => rw [Reader.drain, h]

theorem drain_of_none {reader : Reader} (h : takeMessage reader.readBuffer = none) (n : Nat) :
    reader.drain env n = reader := by
  cases n with
  | zero => rfl
  | succ n =>
      rw [Reader.drain, h]
      cases reader.session.phase <;> rfl

/-- The frames at the beginning of the buffer are handled, and the rest stays there. -/
theorem drain_stream {rs : List Bytes} (hnl : ∀ r ∈ rs, newline ∉ r) {part : Bytes}
    (hpart : ¬ delimiter <:+: part) (reader : Reader)
    (hbuf : reader.readBuffer = stream rs ++ part) (n : Nat) (hn : rs.length ≤ n)
    (hphase : reader.session.phase = .reading) :
    (reader.drain env n).session = (rs.map frame).foldl (Session.handle env) reader.session ∧
      ((reader.drain env n).session.phase = .reading ∧ (reader.drain env n).readBuffer = part ∨
        (reader.drain env n).session.phase = .ended) := by
  induction rs generalizing reader n with
  | nil =>
      rw [stream_nil, List.nil_append] at hbuf
      rw [drain_of_none env (by rw [hbuf, takeMessage_eq_none hpart])]
      exact ⟨rfl, .inl ⟨hphase, hbuf⟩⟩
  | cons r rs ih =>
      obtain ⟨n, rfl⟩ := Nat.exists_eq_add_of_lt (Nat.lt_of_lt_of_le (Nat.succ_pos _) hn)
      rw [Nat.zero_add] at hn ⊢
      -- the first delimiter is that of the first frame
      have htake : takeMessage reader.readBuffer = some (frame r, stream rs ++ part) := by
        rw [hbuf, stream_cons, List.append_assoc]
        exact takeMessage_frame (hnl r List.mem_cons_self) _
      rw [Reader.drain, hphase, htake, List.map_cons, List.foldl_cons]
      dsimp only
      rcases handle_phase_of_reading env hphase (frame r) with hreading | hended
      · exact ih (fun r' hr' => hnl r' (List.mem_cons_of_mem r hr')) _ rfl n
          (Nat.le_of_succ_le_succ hn) hreading
      · rw [drain_of_ended env hended, foldl_handle_of_ended env hended]
        exact ⟨rfl, .inr hended⟩

theorem length_le_length_stream (rs : List Bytes) : rs.length ≤ (stream rs).length := by
  induction rs with
  | nil => exact Nat.le_refl 0
  | cons r rs ih =>
      rw [stream_cons, List.length_append, length_frame, List.length_cons]
      omega

theorem foldl_receive_of_ended {reader : Reader} (h : reader.session.phase = .ended)
    (segments : List Bytes) : segments.foldl (Reader.receive env) reader = reader := by
  induction segments with
  | nil => rfl
  | cons s segments ih =>
      have hstay : reader.receive env s = reader := by rw [Reader.receive, h]
      rw [List.foldl_cons, hstay, ih]

/-- However the bytes are cut, the frames are handled one by one. The induction is on the
segments, with the part of the next frame that is in the buffer. -/
theorem session_of_reading {requests segments : List Bytes} (hnl : ∀ r ∈ requests, newline ∉ r)
    {reader : Reader} (hphase : reader.session.phase = .reading)
    (hstream : reader.readBuffer ++ segments.flatten = stream requests)
    (hbuf : ∀ r ∈ requests.head?, reader.readBuffer.length < (frame r).length) :
    (segments.foldl (Reader.receive env) reader).session =
      (requests.map frame).foldl (Session.handle env) reader.session := by
  induction segments generalizing reader requests with
  | nil =>
      rcases requests with _ | ⟨r, rs⟩
      · rfl
      · have hlt := hbuf r (by simp)
        have hlen := congrArg List.length hstream
        simp at hlen hlt
        omega
  | cons s segments ih =>
      rw [List.flatten_cons, ← List.append_assoc] at hstream
      -- with the segment the buffer holds `front` whole, and a part of the next frame
      obtain ⟨front, back, part, rfl, hx, hpart⟩ := Server.exists_split_of_prefix ⟨_, hstream⟩
      have hback : part ++ segments.flatten = stream back := by
        rw [hx, stream_append, List.append_assoc] at hstream
        exact List.append_cancel_left hstream
      have hnodelim : ¬ delimiter <:+: part := by
        rcases back with _ | ⟨r, back⟩
        · rw [(List.append_eq_nil_iff.mp hback).1]
          decide
        · exact Server.not_delimiter_of_lt (hnl r (by simp)) ⟨_, hback⟩ (hpart r (by simp))
      -- `drain` has a step for every byte, and so for every frame
      have hfuel : front.length ≤ (reader.readBuffer ++ s).length := by
        rw [hx, List.length_append]
        exact (length_le_length_stream front).trans (Nat.le_add_right _ _)
      rw [List.foldl_cons, Reader.receive, hphase]
      dsimp only
      obtain ⟨hsession, hrest⟩ := drain_stream env
        (fun r hr => hnl r (List.mem_append_left _ hr)) hnodelim
        { reader with readBuffer := reader.readBuffer ++ s } hx _ hfuel hphase
      rw [List.map_append, List.foldl_append, ← hsession]
      rcases hrest with ⟨hreading, hbuffer⟩ | hended
      · refine ih (fun r hr => hnl r (List.mem_append_right _ hr)) hreading ?_ ?_
        · rw [hbuffer, hback]
        · rwa [hbuffer]
      · rw [foldl_receive_of_ended env hended, foldl_handle_of_ended env hended]

/-! ### Waiting for the replies -/

/-- A client that has not ended handles the message. -/
theorem handled_handle {session : Session} (h : session.phase ≠ .ended) (message : Bytes) :
    (session.handle env message).handled = session.handled ++ [message] := by
  have hask : ∀ (next : Session) tryAgain, (next.askAgain tryAgain).handled = next.handled := by
    intro next tryAgain
    cases tryAgain <;> rfl
  rw [Session.handle]
  cases hphase : session.phase with
  | registering =>
      dsimp only
      split
      · rfl
      · split
        · rfl
        · split
          · rfl
          · rw [hask]
  | authorizing =>
      dsimp only
      split
      · rw [hask]
      · split
        · rfl
        · rw [hask]
  | reading =>
      dsimp only
      split <;> rfl
  | ended => exact absurd hphase h

theorem handled_prefix_handle (session : Session) (message : Bytes) :
    session.handled <+: (session.handle env message).handled := by
  by_cases h : session.phase = .ended
  · rw [Session.handle, h]
  · rw [handled_handle env h]
    exact List.prefix_append _ _

theorem handled_prefix_drain (n : Nat) (reader : Reader) :
    reader.session.handled <+: (reader.drain env n).session.handled := by
  induction n generalizing reader with
  | zero => exact List.prefix_rfl
  | succ n ih =>
      rw [Reader.drain]
      split
      · rename_i message rest _ _
        exact (handled_prefix_handle env reader.session message).trans
          (ih { reader with session := reader.session.handle env message, readBuffer := rest })
      · exact List.prefix_rfl

theorem handled_prefix_receive (reader : Reader) (bytes : Bytes) :
    reader.session.handled <+: (reader.receive env bytes).session.handled := by
  rw [Reader.receive]
  split
  · dsimp only
    split
    · exact handled_prefix_handle env _ _
    · exact List.prefix_rfl
  · dsimp only
    split
    · exact handled_prefix_handle env _ _
    · exact List.prefix_rfl
  · exact handled_prefix_drain env _ { reader with readBuffer := reader.readBuffer ++ bytes }
  · exact List.prefix_rfl

theorem handled_prefix_foldl (segments : List Bytes) (reader : Reader) :
    reader.session.handled <+: (segments.foldl (Reader.receive env) reader).session.handled := by
  induction segments generalizing reader with
  | nil => exact List.prefix_rfl
  | cons s segments ih => exact (handled_prefix_receive env reader s).trans (ih _)

/-- One by one, all frames are handled if and only if the client serves them. -/
theorem handled_foldl_handle_iff (session : Session) (rs : List Bytes) :
    ((rs.map frame).foldl (Session.handle env) session).handled =
      session.handled ++ rs.map frame ↔ Serves env session rs := by
  induction rs generalizing session with
  | nil => simp [Serves]
  | cons r rs ih =>
      rw [List.map_cons, List.foldl_cons, Serves]
      by_cases h : session.phase = .ended
      · have hstay : session.handle env (frame r) = session := by rw [Session.handle, h]
        rw [hstay, foldl_handle_of_ended env h]
        simp [h]
      · rw [← ih, handled_handle env h, List.append_assoc, List.singleton_append]
        simp [h]

/-- A startup phase reads in `receive_response`. -/
theorem receive_of_isStartup {reader : Reader} (h : reader.session.phase.isStartup)
    (bytes : Bytes) : reader.receive env bytes =
      if delimiter <:+: reader.responseBuf ++ bytes then
        { reader with
          session := reader.session.handle env (reader.responseBuf ++ bytes), responseBuf := [] }
      else { reader with responseBuf := reader.responseBuf ++ bytes } := by
  rw [Reader.receive]
  cases hphase : reader.session.phase with
  | registering => rfl
  | authorizing => rfl
  | reading =>
      rw [hphase] at h
      cases h
  | ended =>
      rw [hphase] at h
      cases h

/-- A client that does not wait for a reply handles the frames one by one. -/
theorem session_of_not_isStartup {requests segments : List Bytes}
    (hnl : ∀ r ∈ requests, newline ∉ r) {reader : Reader}
    (hphase : ¬ reader.session.phase.isStartup) (hbuf : reader.readBuffer = [])
    (hstream : segments.flatten = stream requests) :
    (segments.foldl (Reader.receive env) reader).session =
      (requests.map frame).foldl (Session.handle env) reader.session := by
  cases h : reader.session.phase with
  | registering =>
      rw [h] at hphase
      exact absurd rfl hphase
  | authorizing =>
      rw [h] at hphase
      exact absurd rfl hphase
  | reading =>
      refine session_of_reading env hnl h (by rw [hbuf, hstream, List.nil_append]) fun r _ => ?_
      rw [hbuf, length_frame]
      exact Nat.succ_pos _
  | ended => rw [foldl_receive_of_ended env h, foldl_handle_of_ended env h]

theorem ne_ended_of_isStartup {phase : Phase} (h : phase.isStartup) : phase ≠ .ended := by
  intro hended
  rw [hended] at h
  cases h

theorem serves_cons_of_isStartup {session : Session} (h : session.phase.isStartup) (r : Bytes)
    (rs : List Bytes) :
    Serves env session (r :: rs) ↔ Serves env (session.handle env (frame r)) rs := by
  rw [Serves]
  exact and_iff_right (ne_ended_of_isStartup h)

/-- Behind the startup there are no replies to be aligned. -/
theorem handled_eq_iff_of_not_isStartup {requests segments : List Bytes}
    (hnl : ∀ r ∈ requests, newline ∉ r) {reader : Reader}
    (hphase : ¬ reader.session.phase.isStartup) (hbuf : reader.readBuffer = [])
    (hstream : segments.flatten = stream requests) :
    (segments.foldl (Reader.receive env) reader).session.handled =
        reader.session.handled ++ requests.map frame ↔
      Aligned (replies env reader.session requests) segments ∧
        Serves env reader.session requests := by
  rw [session_of_not_isStartup env hnl hphase hbuf hstream, handled_foldl_handle_iff]
  have hnone : replies env reader.session requests = [] := by
    cases requests with
    | nil => rfl
    | cons r rs => rw [replies, if_neg hphase]
  rw [hnone, Server.aligned_iff_alignedFrom]
  exact (and_iff_right (Server.alignedFrom_nil _ _)).symm

/-- A response that has more bytes than the frame. -/
theorem handled_ne_of_extra {reader : Reader} (hphase : reader.session.phase ≠ .ended)
    {extra : Bytes} (hextra : extra ≠ []) (r : Bytes) (rs segments : List Bytes) :
    (segments.foldl (Reader.receive env) { reader with
      session := reader.session.handle env (frame r ++ extra)
      responseBuf := [] }).session.handled ≠
      reader.session.handled ++ (r :: rs).map frame := by
  intro h
  have hhandled := handled_prefix_foldl env segments { reader with
    session := reader.session.handle env (frame r ++ extra), responseBuf := [] }
  rw [h, handled_handle env hphase, List.map_cons, List.prefix_append_right_inj,
    List.cons_prefix_cons] at hhandled
  exact hextra (List.append_right_eq_self.mp hhandled.1)

/-- The frames are handled one by one exactly if the replies are aligned with the segments and the
client serves the frames. The induction is on the segments, with the part of the reply that is in
the buffer. -/
theorem handled_eq_iff_from {requests segments : List Bytes} (hnl : ∀ r ∈ requests, newline ∉ r)
    {reader : Reader} (hphase : reader.session.phase.isStartup) (hempty : reader.readBuffer = [])
    (hstream : reader.responseBuf ++ segments.flatten = stream requests)
    (hbuf : ∀ r ∈ requests.head?, reader.responseBuf.length < (frame r).length) :
    (segments.foldl (Reader.receive env) reader).session.handled =
        reader.session.handled ++ requests.map frame ↔
      AlignedFrom reader.responseBuf (replies env reader.session requests) segments ∧
        Serves env reader.session requests := by
  induction segments generalizing reader requests with
  | nil =>
      rcases requests with _ | ⟨r, rs⟩
      · simp [replies, Serves, Server.alignedFrom_nil]
      · have hlt := hbuf r (by simp)
        have hlen := congrArg List.length hstream
        simp at hlen hlt
        omega
  | cons s segments ih =>
      have hstream' : (reader.responseBuf ++ s) ++ segments.flatten = stream requests := by
        rw [← hstream, List.flatten_cons, List.append_assoc]
      rw [List.foldl_cons, receive_of_isStartup env hphase]
      rcases requests with _ | ⟨r, rs⟩
      · -- nothing is left to read
        have hx : reader.responseBuf ++ s = [] := (List.append_eq_nil_iff.mp hstream').1
        have hnodelim : ¬ delimiter <:+: reader.responseBuf ++ s := by
          rw [hx]
          decide
        rw [if_neg hnodelim]
        have hih := @ih [] hnl { reader with responseBuf := reader.responseBuf ++ s } hphase
          hempty hstream' (by simp)
        simpa [replies, Serves, Server.alignedFrom_nil] using hih
      · have hlt := hbuf r (by simp)
        have hr : newline ∉ r := hnl r (by simp)
        have hnl' : ∀ r' ∈ rs, newline ∉ r' := fun r' hr' => hnl r' (List.mem_cons_of_mem r hr')
        have hended := ne_ended_of_isStartup hphase
        have hreplies : replies env reader.session (r :: rs) =
            r :: replies env (reader.session.handle env (frame r)) rs := by
          rw [replies, if_pos hphase]
        rw [hreplies]
        rcases Server.segment_cases hr hstream' with
          ⟨hlt', hnot⟩ | ⟨extra, hextra, hdelim, hrest⟩
        · rw [if_neg hnot, Server.alignedFrom_cons_of_lt hlt, ← hreplies]
          exact @ih (r :: rs) hnl { reader with responseBuf := reader.responseBuf ++ s } hphase
            hempty hstream' (by simpa using hlt')
        · rw [if_pos hdelim, hextra]
          by_cases hnil : extra = []
          · subst hnil
            rw [List.append_nil] at hextra ⊢
            rw [List.nil_append] at hrest
            rw [Server.alignedFrom_cons_of_eq hlt hextra, serves_cons_of_isStartup env hphase,
              List.map_cons, ← List.singleton_append, ← List.append_assoc,
              ← handled_handle env hended]
            set next : Reader := { reader with
              session := reader.session.handle env (frame r), responseBuf := [] }
            by_cases hstartup : next.session.phase.isStartup
            · rw [Server.aligned_iff_alignedFrom]
              exact @ih rs hnl' next hstartup hempty hrest fun r' _ => by simp [next]
            · exact handled_eq_iff_of_not_isStartup env hnl' hstartup hempty hrest
          · refine iff_of_false (handled_ne_of_extra env hended hnil r rs segments) fun h => ?_
            exact Server.not_alignedFrom_of_extra hlt hnil hextra h.1

end Reading

/-- For all frames that the server writes and every segmentation of their bytes: the client
handles each frame once and in order exactly if each reply of the startup ends where a segment
ends and the client has not ended before a frame. -/
theorem handled_eq_iff (env : Startup) (userId : Int) (client : State)
    {requests segments : List Bytes} (hnl : ∀ r ∈ requests, newline ∉ r)
    (hstream : segments.flatten = stream requests) :
    let reader := Reader.start userId client
    (segments.foldl (Reader.receive env) reader).session.handled = requests.map frame ↔
      Aligned (replies env reader.session requests) segments ∧
        Serves env reader.session requests := by
  intro reader
  have hphase : reader.session.phase.isStartup := by
    dsimp only [reader, Reader.start]
    split <;> rfl
  rw [Server.aligned_iff_alignedFrom]
  exact handled_eq_iff_from env hnl hphase rfl hstream fun r _ => by simp [reader, Reader.start]

/-! ### A reply and another frame -/

/-- The reply to an authorization. -/
def authorizedText : Bytes :=
  bytesOf "\x7b\"response\":\"Authorization successful\",\"status\":\"success\"\x7d"

/-- The notification of a file. -/
def incomingText : Bytes :=
  bytesOf "\x7b\"filename\":\"a\",\"sender_id\":7,\"type\":\"incoming_file\"\x7d"

/-- A parser that knows these two frames only. -/
def parseTwoFrames : JsonParser := fun message =>
  if message = frame authorizedText then
    .ok (.object [("response", .string "Authorization successful"),
      ("status", .string "success")])
  else if message = frame incomingText then
    .ok (.object [("filename", .string "a"), ("sender_id", .number 7),
      ("type", .string "incoming_file")])
  else .error .parseError

/-- The user tries again after every failure. -/
def patient : Startup where
  parse := parseTwoFrames
  system := .ofKeys 4 2
  tryAgain _ := true
  saves _ := true

/-- The client of user 1, who is registered. -/
def registeredReader : Reader := .start 1 (.withKeys .empty)

/-- One read brings in both frames: they are one response, which does not parse. The client is not
authorized, and does not know of the file. -/
theorem handled_glued :
    let requests := [authorizedText, incomingText]
    let reader := [stream requests].foldl (Reader.receive patient) registeredReader
    reader.session.handled = [frame authorizedText ++ frame incomingText] ∧
      reader.session.handled ≠ requests.map frame ∧ reader.session.phase = .authorizing ∧
      reader.session.client.incomingFiles.find? "a" = none := by
  decide +kernel

/-- With the reply in a read of its own both frames are handled, though the other one is cut. -/
theorem handled_eq_iff_cut :
    let segments := [frame authorizedText, incomingText, delimiter]
    let requests := [authorizedText, incomingText]
    (segments.foldl (Reader.receive patient) registeredReader).session.handled =
      requests.map frame := by
  intro segments requests
  have haligned : Aligned (replies patient registeredReader.session requests) segments := by
    decide +kernel
  have hserves : Serves patient registeredReader.session requests :=
    ⟨by decide +kernel, by decide +kernel, trivial⟩
  exact (handled_eq_iff patient 1 (.withKeys .empty) (by decide +kernel)
    (by decide +kernel)).mpr ⟨haligned, hserves⟩

end Silence.Client
