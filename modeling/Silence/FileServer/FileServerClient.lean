import Silence.FileServer.Routes
import Silence.Lib.Reader

/-!
# Silence.FileServer.FileServerClient

Downloading a file with `FileServerClient` (`file_server/src/file_server_client.cpp`).

The file server answers with a response for each chunk. `download_file_chunks`
clears its buffer before it reads the next response, and takes the text of an
error for a chunk; `download_file` reads the first response only. `delivers_iff`
says when the client still gets what is stored.
-/

namespace Silence.FileServer

open Silence.Lib

/-! ### The client -/

/-- What the program leaves to Beast and Pistache: how a response is sent and how it is parsed;
the body of a message after a body has been read into it; and the names that the router hands to
`download_file`, with the answer to the others and to a handler that throws. -/
structure Http where
  encode : Response → Bytes
  parser : Parser UInt8 Response
  putBody : Bytes → Bytes → Bytes
  routes : Bytes → Bool
  refusal : Bytes → Response

/-- A connection to the file server: whether the request is sent, what the reads of the socket
return, whether the stream ends or breaks off behind them, whether the socket is shut down
without an error, and the text of an error. -/
structure Connection where
  sends : Bool
  segments : List Bytes
  closed : Bool
  shutsDown : Bool
  what : Bytes

/-- `send_request`. -/
def Http.sendRequest (http : Http) (conn : Connection) : Bytes :=
  if !conn.sends then bytesOf "Error" ++ conn.what
  else
    match http.parser.read conn.closed [] conn.segments with
    | .message res _ _ =>
        if !conn.shutsDown then bytesOf "Error" ++ conn.what
        else http.putBody [] res.body
    | .endOfStream => bytesOf "Error" ++ conn.what
    | .failed => bytesOf "Error" ++ conn.what

/-- `FileServerClient::download_file`. -/
def Http.downloadFile (http : Http) (conn : Connection) : Bytes := http.sendRequest conn

/-- The loop of `download_file_chunks`, with the body that `res` has. `buffer.clear()` drops what
was read behind the last response, `res.clear()` removes the fields but not the body. -/
def Http.receiveChunks (http : Http) (closed : Bool) (body : Bytes) (segments : List Bytes) :
    List Bytes :=
  match _hread : http.parser.read closed [] segments with
  | .message res _ segments =>
      let chunkData := http.putBody body res.body
      if chunkData.isEmpty then []
      else chunkData :: http.receiveChunks closed chunkData segments
  | .endOfStream => []
  -- the exception is caught, and the chunks received so far are returned
  | .failed => []
termination_by segments.length
decreasing_by exact Parser.length_lt_of_read _hread

/-- `FileServerClient::download_file_chunks`. An error of the shutdown is only logged. -/
def Http.downloadFileChunks (http : Http) (conn : Connection) : List Bytes :=
  if !conn.sends then [] else http.receiveChunks conn.closed [] conn.segments

/-! ### A download -/

/-- A download: the file server, the name, whether the file opens, and the connection. -/
structure Download where
  server : State
  filename : Bytes
  opens : Bool
  conn : Connection

/-- The path at which a name is looked for, and the file server once it is. -/
def Download.located (http : Http) (d : Download) : Option (Path × State) :=
  if http.routes d.filename then d.server.getFilepathByName d.filename else none

/-- What is stored under the name. -/
def Download.stored (http : Http) (d : Download) : Option Bytes :=
  (d.located http).bind fun located => d.server.files located.1

/-- The responses that the file server sends. -/
def Download.answer (http : Http) (d : Download) : List Response :=
  if http.routes d.filename then
    match d.server.downloadFile d.filename d.opens with
    | some (responses, _) => responses
    | none => [http.refusal d.filename]
  else [http.refusal d.filename]

def Download.wire (http : Http) (d : Download) : Bytes := (d.answer http).flatMap http.encode

/-- The reads of the socket return the responses, cut in any way and up to any point. -/
def Download.Carries (http : Http) (d : Download) : Prop :=
  d.conn.segments.flatten <+: d.wire http

/-- The transfer does not fail. -/
structure Download.Completes (http : Http) (d : Download) : Prop where
  opens : d.opens = true
  sends : d.conn.sends = true
  arrives : d.conn.segments.flatten = d.wire http
  closed : d.conn.closed = true
  shutsDown : d.conn.shutsDown = true

/-- The client gets what is stored if the transfer completes, and no chunks if it fails or nothing
is stored. -/
structure Delivers (http : Http) (d : Download) : Prop where
  stored : ∀ content, d.stored http = some content → d.Completes http →
    (http.downloadFileChunks d.conn).flatten = content ∧ http.downloadFile d.conn = content
  failed : d.stored http = none ∨ ¬ d.Completes http → http.downloadFileChunks d.conn = []

/-! ### The condition -/

/-- The bytes end where a segment ends. -/
def EndsSegment (segments : List Bytes) (bytes : Bytes) : Prop :=
  ∃ front, front <+: segments ∧ front.flatten = bytes

/-- The file does not fill a chunk. Or it fills exactly one, and what comes behind it is not read
as another: its beginning came with the end of the chunk and was dropped, or there is nothing in
the message after reading it. -/
def Download.OneChunk (http : Http) (d : Download) (content : Bytes) : Prop :=
  content.length < chunkSizeBytes ∨
    content.length = chunkSizeBytes ∧
      (EndsSegment d.conn.segments (http.encode ⟨.ok, content⟩) → http.putBody content [] = [])

/-- The first response arrives completely. -/
def Download.FirstArrives (http : Http) (d : Download) : Prop :=
  d.conn.sends = true ∧
    ∀ response ∈ (d.answer http).head?, http.encode response <+: d.conn.segments.flatten

/-- An empty file, or a directory in its place, is sent. -/
def Download.SendsNothing (http : Http) (d : Download) : Prop :=
  match d.located http with
  | some (path, server) =>
      server.existsAt path = true ∧ d.opens = true ∧ server.content path = []
  | none => (http.refusal d.filename).body = []

structure Deliverable (http : Http) (d : Download) : Prop where
  stored : ∀ content, d.stored http = some content → d.Completes http → d.OneChunk http content
  failed : d.stored http = none ∨ ¬ d.Completes http → d.FirstArrives http → d.SendsNothing http

/-- What the libraries promise for some responses. A response without a body does not go on to be
one when its beginning is missing. -/
structure Http.Documented (http : Http) (responses : List Response) : Prop where
  reads : ∀ r ∈ responses, http.parser.Reads r (http.encode r)
  rejects : ∀ r ∈ responses, r.body = [] → ∀ tail, tail <:+ http.encode r →
    tail ≠ http.encode r → http.parser.Rejects tail
  putBody_nil : ∀ body, http.putBody [] body = body

/-! ### What the client receives -/

theorem receiveChunks_of_read {http : Http} {closed : Bool} {segments remaining : List Bytes}
    {res : Response} {rest : Bytes}
    (hread : http.parser.read closed [] segments = .message res rest remaining) (body : Bytes) :
    http.receiveChunks closed body segments =
      if (http.putBody body res.body).isEmpty then []
      else http.putBody body res.body ::
        http.receiveChunks closed (http.putBody body res.body) remaining := by
  rw [Http.receiveChunks]
  split
  · rename_i hread'
    rw [hread] at hread'
    cases hread'
    rfl
  · rename_i hread'
    rw [hread] at hread'
    cases hread'
  · rename_i hread'
    rw [hread] at hread'
    cases hread'

theorem receiveChunks_of_ne {http : Http} {closed : Bool} {segments : List Bytes}
    (hread : ∀ res rest remaining,
      http.parser.read closed [] segments ≠ .message res rest remaining) (body : Bytes) :
    http.receiveChunks closed body segments = [] := by
  rw [Http.receiveChunks]
  split
  · rename_i hread'
    exact absurd hread' (hread _ _ _)
  · rfl
  · rfl

/-- The first response, if it arrives completely, is read in the segment that brings its end. -/
theorem read_first {http : Http} {r : Response} (hreads : http.parser.Reads r (http.encode r))
    (closed : Bool) {segments : List Bytes} (harrives : http.encode r <+: segments.flatten) :
    ∃ remaining rest, http.parser.read closed [] segments = .message r rest remaining ∧
      segments.flatten = http.encode r ++ (rest ++ remaining.flatten) ∧
      (rest = [] ↔ EndsSegment segments (http.encode r)) := by
  obtain ⟨front, segment, remaining, rest, rfl, hfront, hne, hlast, hread⟩ :=
    hreads.read_eq closed List.nil_prefix hreads.nonempty.symm harrives
  rw [List.nil_append] at hfront hne hlast
  refine ⟨remaining, rest, hread, ?_, fun hrest => ⟨front ++ [segment], ?_, ?_⟩, ?_⟩
  · rw [List.flatten_append, List.flatten_cons, ← List.append_assoc, hlast, List.append_assoc]
  · exact (List.prefix_append_right_inj front).mpr (List.prefix_append [segment] remaining)
  · rw [List.flatten_append, List.flatten_singleton, hlast, hrest, List.append_nil]
  · rintro ⟨ends, hends, hflat⟩
    -- the segments up to an end of the response include the last one that is read
    have hinclude : front ++ [segment] <+: ends := by
      have hshort : front ++ [segment] <+: front ++ segment :: remaining :=
        (List.prefix_append_right_inj front).mpr (List.prefix_append [segment] remaining)
      rcases List.prefix_or_prefix_of_prefix hshort hends with hle | hle
      · exact hle
      · rcases List.prefix_concat_iff.mp hle with heq | hle
        · exact heq ▸ List.prefix_refl _
        · have hflatten : http.encode r <+: front.flatten := by
            obtain ⟨more, rfl⟩ := hle
            rw [← hflat, List.flatten_append]
            exact List.prefix_append _ _
          exact absurd (hfront.eq_of_length_le hflatten.length_le) hne
    obtain ⟨more, rfl⟩ := hinclude
    rw [List.flatten_append, List.flatten_append, List.flatten_singleton, hlast,
      List.append_assoc] at hflat
    exact (List.append_eq_nil_iff.mp (List.append_right_eq_self.mp hflat)).1

/-- Nothing is read from segments without bytes. -/
theorem receiveChunks_of_flatten_nil {http : Http} {r : Response}
    (hreads : http.parser.Reads r (http.encode r)) {segments : List Bytes}
    (hnil : segments.flatten = []) (closed : Bool) (body : Bytes) :
    http.receiveChunks closed body segments = [] := by
  refine receiveChunks_of_ne (fun res rest remaining => ?_) body
  refine hreads.read_ne_message closed ?_ ?_ res rest remaining
  · rw [hnil]
    exact List.nil_prefix
  · rw [hnil]
    exact hreads.nonempty.symm

/-! ### What the server sends -/

theorem answer_eq (http : Http) (d : Download) :
    d.answer http =
      match d.located http with
      | some (path, server) => (server.getMutex path).sendFile path d.opens
      | none => [http.refusal d.filename] := by
  rw [Download.answer, Download.located]
  split
  · rw [State.downloadFile]
    cases d.server.getFilepathByName d.filename <;> rfl
  · rfl

/-- There is a first response, whose body is empty when nothing is sent. -/
theorem exists_first (http : Http) (d : Download) :
    ∃ first rest, d.answer http = first :: rest ∧ (first.body = [] ↔ d.SendsNothing http) := by
  rw [answer_eq, Download.SendsNothing]
  cases d.located http with
  | none => exact ⟨_, _, rfl, Iff.rfl⟩
  | some located =>
      obtain ⟨path, server⟩ := located
      have hsame : (server.getMutex path).existsAt path = server.existsAt path := rfl
      have hcontent : (server.getMutex path).content path = server.content path := rfl
      simp only [State.sendFile, hsame, hcontent]
      cases hexists : server.existsAt path with
      | false => exact ⟨_, _, rfl, by simp [show notFoundText ≠ [] by decide]⟩
      | true =>
          cases hopens : d.opens with
          | false => exact ⟨_, _, rfl, by simp [show bytesOf "Failed to open file" ≠ [] by decide]⟩
          | true =>
              by_cases hlen : chunkSizeBytes ≤ (server.content path).length
              · have hfull : (server.content path).take chunkSizeBytes ≠ [] := by
                  rw [← List.length_pos_iff, List.length_take, Nat.min_eq_left hlen]
                  decide
                have hne : server.content path ≠ [] := by
                  intro hnil
                  rw [hnil, List.take_nil] at hfull
                  exact hfull rfl
                rw [readChunks_of_le hlen]
                exact ⟨_, _, rfl, by simp [hfull, hne]⟩
              · rw [readChunks_of_lt (Nat.not_le.mp hlen)]
                exact ⟨_, _, rfl, by simp⟩

/-- A stored file that opens is sent in chunks. -/
theorem answer_of_stored {http : Http} {d : Download} {content : Bytes}
    (hstored : d.stored http = some content) (hopens : d.opens = true) :
    d.answer http = (readChunks content).map (⟨.ok, ·⟩) := by
  obtain ⟨⟨path, server⟩, hlocated, hfile⟩ := Option.bind_eq_some_iff.mp hstored
  have hfiles : server.files = d.server.files := by
    rw [Download.located] at hlocated
    split at hlocated
    · obtain ⟨dirs, -, hserver⟩ := Option.bind_eq_some_iff.mp hlocated
      cases hserver
      rfl
    · cases hlocated
  have hsent : (server.getMutex path).files path = some content := by
    rw [← hfile, ← hfiles]
    rfl
  rw [answer_eq, hlocated, hopens]
  exact sendFile_of_some hsent

/-! ### When it is right -/

/-- There are no chunks exactly if the first response does not arrive or has no body. -/
theorem downloadFileChunks_eq_nil_iff {http : Http} {d : Download} {first : Response}
    {rest : List Response} (hanswer : d.answer http = first :: rest)
    (hhttp : http.Documented (d.answer http)) (hcarries : d.Carries http) :
    http.downloadFileChunks d.conn = [] ↔ (d.FirstArrives http → first.body = []) := by
  have hreads := hhttp.reads first (hanswer ▸ List.mem_cons_self)
  rw [Http.downloadFileChunks, Download.FirstArrives, hanswer]
  simp only [List.head?_cons, Option.mem_some_iff, forall_eq']
  cases d.conn.sends with
  | false => simp
  | true =>
      simp only [Bool.not_true, Bool.false_eq_true, if_false, true_and]
      by_cases harrives : http.encode first <+: d.conn.segments.flatten
      · obtain ⟨remaining, tail, hread, -, -⟩ := read_first hreads d.conn.closed harrives
        rw [receiveChunks_of_read hread, hhttp.putBody_nil]
        cases hbody : first.body with
        | nil => simp
        | cons b bs => simp [harrives]
      · have hpart : d.conn.segments.flatten <+: http.encode first := by
          have hwire : d.wire http = http.encode first ++ rest.flatMap http.encode := by
            rw [Download.wire, hanswer, List.flatMap_cons]
          have hfirst : http.encode first <+: d.wire http := hwire ▸ List.prefix_append _ _
          exact (List.prefix_or_prefix_of_prefix hcarries hfirst).resolve_right harrives
        have hne : d.conn.segments.flatten ≠ http.encode first :=
          fun heq => harrives (heq ▸ List.prefix_refl _)
        rw [receiveChunks_of_ne (hreads.read_ne_message d.conn.closed hpart hne)]
        simp [harrives]

/-- `download_file` gives the body of the first response. -/
theorem downloadFile_eq {http : Http} {d : Download} {first : Response} {rest : List Response}
    (hanswer : d.answer http = first :: rest) (hhttp : http.Documented (d.answer http))
    (hcompletes : d.Completes http) : http.downloadFile d.conn = first.body := by
  have hreads := hhttp.reads first (hanswer ▸ List.mem_cons_self)
  have harrives : http.encode first <+: d.conn.segments.flatten := by
    rw [hcompletes.arrives, Download.wire, hanswer, List.flatMap_cons]
    exact List.prefix_append _ _
  obtain ⟨remaining, tail, hread, -, -⟩ := read_first hreads d.conn.closed harrives
  rw [Http.downloadFile, Http.sendRequest, hcompletes.sends, hread, hcompletes.shutsDown]
  exact hhttp.putBody_nil _

/-- The chunks of a file, once its first chunk has been read. -/
theorem downloadFileChunks_of_first {http : Http} {d : Download} {first : Response}
    {rest : List Response} (hanswer : d.answer http = first :: rest)
    (hhttp : http.Documented (d.answer http)) (hcompletes : d.Completes http) :
    ∃ remaining tail,
      http.downloadFileChunks d.conn =
        (if first.body.isEmpty then []
        else first.body :: http.receiveChunks true first.body remaining) ∧
      tail ++ remaining.flatten = rest.flatMap http.encode ∧
      (tail = [] ↔ EndsSegment d.conn.segments (http.encode first)) := by
  have hreads := hhttp.reads first (hanswer ▸ List.mem_cons_self)
  have hwire : d.conn.segments.flatten = http.encode first ++ rest.flatMap http.encode := by
    rw [hcompletes.arrives, Download.wire, hanswer, List.flatMap_cons]
  obtain ⟨remaining, tail, hread, hflat, htail⟩ :=
    read_first hreads d.conn.closed (hwire ▸ List.prefix_append _ _)
  refine ⟨remaining, tail, ?_, List.append_cancel_left (hflat.symm.trans hwire), htail⟩
  rw [hcompletes.closed] at hread
  rw [Http.downloadFileChunks, hcompletes.sends, hcompletes.closed, Bool.not_true,
    if_neg Bool.false_ne_true, receiveChunks_of_read hread, hhttp.putBody_nil]

/-- A file that does not fill a chunk is sent in one response. -/
theorem flatten_chunks_of_lt {http : Http} {d : Download} {content : Bytes}
    (hlen : content.length < chunkSizeBytes) (hhttp : http.Documented (d.answer http))
    (hstored : d.stored http = some content) (hcompletes : d.Completes http) :
    (http.downloadFileChunks d.conn).flatten = content := by
  have hanswer : d.answer http = [⟨.ok, content⟩] := by
    rw [answer_of_stored hstored hcompletes.opens, readChunks_of_lt hlen]
    rfl
  have hreads := hhttp.reads ⟨.ok, content⟩ (hanswer ▸ List.mem_cons_self)
  obtain ⟨remaining, tail, hchunks, hflat, -⟩ :=
    downloadFileChunks_of_first hanswer hhttp hcompletes
  have hnil : remaining.flatten = [] := (List.append_eq_nil_iff.mp hflat).2
  rw [hchunks, receiveChunks_of_flatten_nil hreads hnil]
  cases content with
  | nil => rfl
  | cons b bs => simp

/-- A file that fills one chunk is followed by an empty response. -/
theorem flatten_chunks_of_eq {http : Http} {d : Download} {content : Bytes}
    (hlen : content.length = chunkSizeBytes) (hhttp : http.Documented (d.answer http))
    (hstored : d.stored http = some content) (hcompletes : d.Completes http) :
    (http.downloadFileChunks d.conn).flatten = content ↔
      (EndsSegment d.conn.segments (http.encode ⟨.ok, content⟩) →
        http.putBody content [] = []) := by
  have hanswer : d.answer http = [⟨.ok, content⟩, ⟨.ok, []⟩] := by
    rw [answer_of_stored hstored hcompletes.opens, readChunks_of_le hlen.ge, ← hlen,
      List.take_length, List.drop_length, readChunks_of_lt (by decide)]
    rfl
  have hlast : (⟨.ok, []⟩ : Response) ∈ d.answer http := by
    rw [hanswer]
    exact List.mem_cons_of_mem _ List.mem_cons_self
  have hreads := hhttp.reads _ hlast
  obtain ⟨remaining, tail, hchunks, hflat, htail⟩ :=
    downloadFileChunks_of_first hanswer hhttp hcompletes
  rw [List.flatMap_singleton] at hflat
  have hfull : content.isEmpty = false := by
    cases content with
    | nil => cases hlen
    | cons b bs => rfl
  -- the first response has all of the content, so nothing may follow
  have hsplit : (http.downloadFileChunks d.conn).flatten = content ↔
      (http.receiveChunks true content remaining).flatten = [] := by
    rw [hchunks]
    simp only [hfull, Bool.false_eq_true, if_false, List.flatten_cons,
      List.append_right_eq_self]
  rw [hsplit, ← htail]
  by_cases hnil : tail = []
  · -- the empty response is read into the message that has the chunk
    rw [hnil, List.nil_append] at hflat
    have harrives : http.encode ⟨.ok, []⟩ <+: remaining.flatten := by rw [hflat]
    obtain ⟨last, more, hread, -, -⟩ := read_first hreads true harrives
    rw [receiveChunks_of_read hread]
    cases http.putBody content [] <;> simp [hnil]
  · -- its beginning has been dropped
    have hsuffix : remaining.flatten <:+ http.encode ⟨.ok, []⟩ := ⟨tail, hflat⟩
    have hne : remaining.flatten ≠ http.encode ⟨.ok, []⟩ := by
      intro heq
      rw [heq] at hflat
      exact hnil (List.append_left_eq_self.mp hflat)
    have hrejects : http.parser.Rejects ([] ++ remaining.flatten) :=
      hhttp.rejects _ hlast rfl _ hsuffix hne
    rw [receiveChunks_of_ne hrejects.read_ne_message]
    simp [hnil]

/-- When a transfer that completes gives what is stored. -/
theorem delivered_iff_oneChunk {http : Http} {d : Download} {content : Bytes}
    (hhttp : http.Documented (d.answer http)) (hstored : d.stored http = some content)
    (hcompletes : d.Completes http) :
    ((http.downloadFileChunks d.conn).flatten = content ∧ http.downloadFile d.conn = content) ↔
      d.OneChunk http content := by
  have hanswer := answer_of_stored hstored hcompletes.opens
  rw [Download.OneChunk]
  rcases Nat.lt_trichotomy content.length chunkSizeBytes with hlen | hlen | hlen
  · rw [readChunks_of_lt hlen] at hanswer
    exact iff_of_true ⟨flatten_chunks_of_lt hlen hhttp hstored hcompletes,
      downloadFile_eq hanswer hhttp hcompletes⟩ (.inl hlen)
  · rw [readChunks_of_le hlen.ge, ← hlen, List.take_length] at hanswer
    have htext : http.downloadFile d.conn = content := downloadFile_eq hanswer hhttp hcompletes
    rw [flatten_chunks_of_eq hlen hhttp hstored hcompletes]
    simp only [htext, hlen, Nat.lt_irrefl, false_or, and_true, true_and]
  · rw [readChunks_of_le hlen.le] at hanswer
    have htext : http.downloadFile d.conn = content.take chunkSizeBytes :=
      downloadFile_eq hanswer hhttp hcompletes
    refine iff_of_false (fun h => ?_) (by omega)
    have hlength := congrArg List.length (htext.symm.trans h.2)
    rw [List.length_take] at hlength
    omega

/-- The client gets what it should if and only if a file whose transfer completes has at most one
chunk, and otherwise the first response does not arrive or sends nothing. -/
theorem delivers_iff {http : Http} {d : Download} (hhttp : http.Documented (d.answer http))
    (hcarries : d.Carries http) : Delivers http d ↔ Deliverable http d := by
  obtain ⟨first, rest, hanswer, hbody⟩ := exists_first http d
  have hnil := downloadFileChunks_eq_nil_iff hanswer hhttp hcarries
  constructor
  · intro h
    refine ⟨fun content hstored hcompletes => ?_, fun hfailed harrives => ?_⟩
    · exact (delivered_iff_oneChunk hhttp hstored hcompletes).mp
        (h.stored content hstored hcompletes)
    · exact hbody.mp (hnil.mp (h.failed hfailed) harrives)
  · intro h
    refine ⟨fun content hstored hcompletes => ?_, fun hfailed => ?_⟩
    · exact (delivered_iff_oneChunk hhttp hstored hcompletes).mpr
        (h.stored content hstored hcompletes)
    · exact hnil.mpr fun harrives => hbody.mpr (h.failed hfailed harrives)

/-- What comes in one read with the first response is lost. -/
theorem downloadFileChunks_of_merged {http : Http} {d : Download} {first : Response}
    {rest : List Response} (hanswer : d.answer http = first :: rest)
    (hhttp : http.Documented (d.answer http)) (hcompletes : d.Completes http)
    (hmerged : d.conn.segments = [d.wire http]) (hbody : first.body ≠ []) :
    http.downloadFileChunks d.conn = [first.body] := by
  have hreads := hhttp.reads first (hanswer ▸ List.mem_cons_self)
  have hread : http.parser.read d.conn.closed [] d.conn.segments =
      .message first (rest.flatMap http.encode) [] := by
    rw [hmerged, Parser.read, List.nil_append, Download.wire, hanswer, List.flatMap_cons,
      hreads.complete]
  rw [Http.downloadFileChunks, hcompletes.sends, Bool.not_true, if_neg Bool.false_ne_true,
    receiveChunks_of_read hread, hhttp.putBody_nil, receiveChunks_of_flatten_nil hreads rfl]
  simp [hbody]

/-! ### Some downloads -/

def statusText : Code → Bytes
  | .ok => bytesOf "200 OK"
  | .badRequest => bytesOf "400 Bad Request"
  | .notFound => bytesOf "404 Not Found"
  | .internalServerError => bytesOf "500 Internal Server Error"

def encodeResponse (r : Response) : Bytes :=
  bytesOf "HTTP/1.1 " ++ statusText r.code ++ bytesOf "\r\nContent-Length: " ++
    bytesOf (toString r.body.length) ++ bytesOf "\r\n\r\n" ++ r.body

/-- A parser that knows some responses only. -/
def tableParser (known : List Response) : Parser UInt8 Response where
  parse bytes :=
    match known.find? fun r => (encodeResponse r).isPrefixOf bytes with
    | some r => .complete r (bytes.drop (encodeResponse r).length)
    | none =>
        if known.any fun r => bytes.isPrefixOf (encodeResponse r) then .needMore else .malformed
  parseEnd _ := none

/-- A body that is read goes behind the body that is there. -/
def tableHttp (known : List Response) : Http where
  encode := encodeResponse
  parser := tableParser known
  putBody body more := body ++ more
  routes _ := true
  refusal _ := ⟨.notFound, bytesOf "Could not find a matching route"⟩

theorem encodeResponse_ne_nil (r : Response) : encodeResponse r ≠ [] := by
  have hversion : bytesOf "HTTP/1.1 " ≠ [] := by decide
  simp [encodeResponse, hversion]

/-- Responses are parsed if none of them is the beginning of another. -/
theorem reads_tableParser {known : List Response}
    (hdistinct : ∀ r ∈ known, ∀ s ∈ known, encodeResponse s <+: encodeResponse r → s = r)
    {r : Response} (hr : r ∈ known) : (tableParser known).Reads r (encodeResponse r) where
  nonempty := encodeResponse_ne_nil r
  complete rest := by
    have hfind : known.find? (fun s => (encodeResponse s).isPrefixOf (encodeResponse r ++ rest)) =
        some r := by
      obtain ⟨s, hs⟩ : ∃ s, known.find?
          (fun s => (encodeResponse s).isPrefixOf (encodeResponse r ++ rest)) = some s := by
        rw [← Option.isSome_iff_exists, List.find?_isSome]
        exact ⟨r, hr, List.isPrefixOf_iff_prefix.mpr (List.prefix_append _ _)⟩
      have hmem := List.mem_of_find?_eq_some hs
      have hfound : (encodeResponse s).isPrefixOf (encodeResponse r ++ rest) = true := by
        simpa using List.find?_some hs
      have hfront := List.isPrefixOf_iff_prefix.mp hfound
      rcases List.prefix_or_prefix_of_prefix hfront (List.prefix_append _ _) with hle | hle
      · rw [hs, hdistinct r hr s hmem hle]
      · rw [hs, hdistinct s hmem r hr hle]
    simp only [tableParser, hfind, List.drop_left]
  needMore front hfront hne := by
    have hfind : known.find? (fun s => (encodeResponse s).isPrefixOf front) = none := by
      rw [List.find?_eq_none]
      intro s hs hle
      have hle' := List.isPrefixOf_iff_prefix.mp hle
      obtain rfl := hdistinct r hr s hs (hle'.trans hfront)
      exact hne (hfront.eq_of_length_le hle'.length_le)
    have hany : known.any (fun s => front.isPrefixOf (encodeResponse s)) = true :=
      List.any_eq_true.mpr ⟨r, hr, List.isPrefixOf_iff_prefix.mpr hfront⟩
    simp only [tableParser, hfind, hany, if_true]
  parseEnd _ _ _ := rfl

theorem documented_tableHttp {known : List Response}
    (hdistinct : ∀ r ∈ known, ∀ s ∈ known, encodeResponse s <+: encodeResponse r → s = r)
    (hbody : ∀ r ∈ known, r.body ≠ []) : (tableHttp known).Documented known where
  reads _ hr := reads_tableParser hdistinct hr
  rejects r hr hnil := absurd hnil (hbody r hr)
  putBody_nil _ := rfl

/-- The name of the tests. -/
def fileName : Bytes := bytesOf "ABCDEF1234567890"

/-- A file server with one file. -/
def serverWith (content : Bytes) : State :=
  { State.fresh with
    files := Function.update State.fresh.files (bytesOf "/media/AB/CD/ABCDEF1234567890")
      (some content) }

/-- A download over a connection on which nothing goes wrong. -/
def downloadOver (server : State) (segments : List Bytes) : Download :=
  ⟨server, fileName, true, ⟨true, segments, true, true, []⟩⟩

theorem stored_serverWith (known : List Response) (content : Bytes) (segments : List Bytes) :
    (downloadOver (serverWith content) segments).stored (tableHttp known) = some content := by
  have hpath : (serverWith content).getFilepathByName fileName =
      some (bytesOf "/media/AB/CD/ABCDEF1234567890",
        (serverWith content).createDirectories (bytesOf "/media/AB/CD")) := rfl
  have hfile : (serverWith content).files (bytesOf "/media/AB/CD/ABCDEF1234567890") =
      some content :=
    Function.update_self (bytesOf "/media/AB/CD/ABCDEF1234567890") _ State.fresh.files
  rw [Download.stored, Download.located]
  change Option.bind ((serverWith content).getFilepathByName fileName) _ = _
  rw [hpath]
  exact hfile

theorem completes_downloadOver {http : Http} {server : State} {segments : List Bytes}
    (h : segments.flatten = (downloadOver server segments).wire http) :
    (downloadOver server segments).Completes http :=
  ⟨rfl, rfl, h, rfl, rfl⟩

/-- A short file, whose response is cut in two. -/
theorem delivers_data :
    let response : Response := ⟨.ok, bytesOf "data"⟩
    let http := tableHttp [response]
    let segments := [(encodeResponse response).take 10, (encodeResponse response).drop 10]
    Delivers http (downloadOver (serverWith (bytesOf "data")) segments) := by
  intro response http segments
  have hstored := stored_serverWith [response] (bytesOf "data") segments
  have hanswer := answer_of_stored hstored rfl
  rw [readChunks_of_lt (by decide)] at hanswer
  have hhttp : http.Documented [response] :=
    documented_tableHttp (by simp) (by simp [response, show bytesOf "data" ≠ [] by decide])
  have harrives : segments.flatten =
      (downloadOver (serverWith (bytesOf "data")) segments).wire http := by
    rw [Download.wire, hanswer]
    simp [http, tableHttp, response, segments]
  have hcompletes := completes_downloadOver harrives
  have hcarries : (downloadOver (serverWith (bytesOf "data")) segments).Carries http :=
    ⟨[], (List.append_nil _).trans harrives⟩
  refine (delivers_iff (hanswer ▸ hhttp) hcarries).mpr
    ⟨fun content hcontent _ => ?_, fun hfailed => ?_⟩
  · obtain rfl := Option.some.inj (hstored.symm.trans hcontent)
    exact .inl (by decide)
  · rcases hfailed with hnone | hfails
    · rw [hstored] at hnone
      cases hnone
    · exact absurd hcompletes hfails

/-- The text of the error becomes the content of a file that is not there, and of a file of 600
bytes only the first chunk is got when the responses come in one read. -/
theorem not_delivers :
    (let response : Response := ⟨.notFound, notFoundText⟩
      let http := tableHttp [response]
      let d := downloadOver State.fresh [encodeResponse response]
      http.Documented (d.answer http) ∧ d.Completes http ∧ d.stored http = none ∧
        http.downloadFileChunks d.conn = [notFoundText]) ∧
    (let content : Bytes := List.replicate 600 0x61
      let first : Response := ⟨.ok, content.take 512⟩
      let second : Response := ⟨.ok, content.drop 512⟩
      let http := tableHttp [first, second]
      let d := downloadOver (serverWith content) [encodeResponse first ++ encodeResponse second]
      http.Documented (d.answer http) ∧ d.Completes http ∧ d.stored http = some content ∧
        http.downloadFileChunks d.conn = [content.take 512] ∧
        http.downloadFile d.conn = content.take 512) := by
  constructor
  · intro response http d
    have hanswer : d.answer http = [response] := by decide +kernel
    have hhttp : http.Documented (d.answer http) := by
      rw [hanswer]
      exact documented_tableHttp (by simp) (by simp [response, show notFoundText ≠ [] by decide])
    have hwire : d.wire http = encodeResponse response := by
      rw [Download.wire, hanswer, List.flatMap_singleton]
      rfl
    have hcompletes : d.Completes http :=
      completes_downloadOver ((List.flatten_singleton).trans hwire.symm)
    refine ⟨hhttp, hcompletes, by rfl, ?_⟩
    exact downloadFileChunks_of_merged hanswer hhttp hcompletes (congrArg (fun w => [w]) hwire.symm)
      (by decide)
  · intro content first second http d
    have hstored : d.stored http = some content := stored_serverWith _ _ _
    have hanswer : d.answer http = [first, second] := by
      have hlen : chunkSizeBytes ≤ content.length := by
        rw [List.length_replicate]
        decide
      have hrest : (content.drop chunkSizeBytes).length < chunkSizeBytes := by
        rw [List.length_drop, List.length_replicate]
        decide
      rw [answer_of_stored hstored rfl, readChunks_of_le hlen, readChunks_of_lt hrest]
      rfl
    have hhttp : http.Documented (d.answer http) := by
      rw [hanswer]
      refine documented_tableHttp ?_ ?_
      · have h12 : (encodeResponse first).isPrefixOf (encodeResponse second) = false := by
          decide +kernel
        have h21 : (encodeResponse second).isPrefixOf (encodeResponse first) = false := by
          decide +kernel
        simp [← List.isPrefixOf_iff_prefix, h12, h21]
      · have h1 : first.body ≠ [] := by decide +kernel
        have h2 : second.body ≠ [] := by decide +kernel
        simp [h1, h2]
    have hwire : d.wire http = encodeResponse first ++ encodeResponse second := by
      rw [Download.wire, hanswer]
      simp [http, tableHttp]
    have hcompletes : d.Completes http :=
      completes_downloadOver ((List.flatten_singleton).trans hwire.symm)
    exact ⟨hhttp, hcompletes, hstored,
      downloadFileChunks_of_merged hanswer hhttp hcompletes (congrArg (fun w => [w]) hwire.symm)
        (by decide +kernel),
      downloadFile_eq hanswer hhttp hcompletes⟩

end Silence.FileServer
