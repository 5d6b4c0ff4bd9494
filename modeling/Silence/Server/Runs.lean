import Silence.Lib.Run
import Silence.Server.HandlerSpecs

/-!
# Silence.Server.Runs

The runs of the server: request lines and disconnects from any sockets, in any
order, each request handled as one step.

A run goes on after a request that ended with an exception: that connection is no
longer served, the other ones are.
-/

namespace Silence.Server

open Silence.Lib Silence.Lib.Effect

inductive Event where
  | request (socket : Socket) (env : Environment) (line : Bytes)
  | disconnect (socket : Socket)

def Event.socket : Event → Socket
  | .request socket _ _ => socket
  | .disconnect socket => socket

/-- The request of an event; `null` where there is none, or none that parses. -/
def Event.parsed (parse : JsonParser) : Event → Json
  | .request _ _ line => parse.value line
  | .disconnect _ => .null

/-- The end of a connection. -/
def World.disconnect (w : World) (socket : Socket) : World :=
  { w.beginRequest with
    connectedClients := w.connectedClients.removeClientBySocket socket }

/-- The state after an event; its log is what the event did. -/
def World.step (parse : JsonParser) (w : World) : Event → World
  | .request socket env line => (exec (handleRequestLine parse env socket line) w).2
  | .disconnect socket => w.disconnect socket

/-- The events of a run, each with the state after it. -/
abbrev History := List (Event × World)

/-- The runs of a server over a file server, whatever that stores at the beginning. -/
abbrev ServerRun (parse : JsonParser) (fileServer : FileServer.State) :
    History → World → Prop :=
  Run (World.step parse) (fun _ _ => True) (World.start fileServer)

/-- The history of a server that handles the events. -/
def historyFrom (parse : JsonParser) (fileServer : FileServer.State)
    (events : List Event) : History :=
  Run.historyOf (World.step parse) (.start fileServer) events

/-- A server may handle any events. -/
theorem serverRun_historyFrom (parse : JsonParser) (fileServer : FileServer.State)
    (events : List Event) :
    ServerRun parse fileServer (historyFrom parse fileServer events)
      (events.foldl (World.step parse) (.start fileServer)) :=
  Run.run_of_events (World.step parse) (.start fileServer) events

/-- A request establishes what its changes establish. -/
theorem step_request {parse : JsonParser} {w : World} {socket : Socket}
    {env : Environment} {line : Bytes} {J : World → Prop}
    (h : Closed env w.beginRequest socket (parse.value line) J) :
    J (w.step parse (.request socket env line)) :=
  exec_processRequest h rfl rfl

/-! ### Requests as they are sent -/

/-- The text of a flat value, whose texts need no escapes. -/
def Json.flatText : Json → Bytes
  | .string value => bytesOf "\"" ++ bytesOf value ++ bytesOf "\""
  | .number value => bytesOf (toString value)
  | .boolean value => bytesOf (toString value)
  | _ => bytesOf "null"

/-- The line of a request with flat members. -/
def lineOf (request : Json.Members) : Bytes :=
  bytesOf "\x7b" ++
    ((request.map fun (key, value) =>
      (Json.string key).flatText ++ bytesOf ":" ++ value.flatText).intersperse
        (bytesOf ",")).flatten ++
    bytesOf "\x7d\r"

/-- A parser that knows the lines of some requests only. -/
def parseLines (requests : List Json.Members) : JsonParser := fun line =>
  match requests.find? fun request => lineOf request = line with
  | some request => .ok (.object request)
  | none => .error .parseError

def authorizeRequest (nickname : String) (userId : Int) : Json.Members :=
  [("nickname", .string nickname), ("password", .string "p"), ("type", .string "authorize"),
    ("user_id", .number userId)]

/-- A message with a file. -/
def fileMessage (senderId : Int) (receiverNickname filename : String) : Json.Members :=
  [("file_name", .string filename), ("message_text", .string "m"),
    ("receiver_nickname", .string receiverNickname), ("sender_id", .number senderId),
    ("type", .string "send_message")]

def fileChunk (filename chunkData : String) (chunkNumber : Int) (isLast : Bool) : Json.Members :=
  [("chunk_data", .string chunkData), ("chunk_number", .number chunkNumber),
    ("filename", .string filename), ("is_last", .boolean isLast), ("type", .string "file_chunk")]

end Silence.Server
