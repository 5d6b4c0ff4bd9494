import Silence.FileServer.Upload
import Silence.Server.Attribution

/-!
# Silence.Server.UploadContent

What the file server stores under a name, and what the server knows of it.

The server counts the chunks it has accepted, the file server appends what it is
sent, and nothing ties the two together: an announcement resets the counter but
leaves the file, and a chunk that is rejected may remove the file but leaves the
counter. `KeepsInSync` is the condition on a step under which the counter and the
content stay in step, and `acknowledged_inSync` the invariant of the runs that
meet it.
-/

namespace Silence.Server

open Silence.Lib Silence.Lib.Effect

/-! ### The acknowledged chunks -/

/-- The chunks of the current upload of a file, after one more observation. -/
def acknowledgedAfter (filename : String) (chunks : List String) : Observation → List String
  | .announced transfer => if transfer.filename = filename then [] else chunks
  | .accepted name chunkData => if name = filename then chunks ++ [chunkData] else chunks
  | _ => chunks

/-- The chunks that have been acknowledged with success since the upload of the file was last
reset, in order. -/
def acknowledged (filename : String) (history : History) : List String :=
  (history.flatMap (·.2.log)).foldl (acknowledgedAfter filename) []

/-- The chunks of every file after the observations of a log. -/
def chunksAfter (chunks : String → List String) (log : List Observation) (filename : String) :
    List String :=
  log.foldl (acknowledgedAfter filename) (chunks filename)

theorem chunksAfter_append (chunks : String → List String) (log : List Observation)
    (o : Observation) (filename : String) :
    chunksAfter chunks (log ++ [o]) filename =
      acknowledgedAfter filename (chunksAfter chunks log filename) o :=
  List.foldl_concat ..

/-- The counter of every known upload is the number of its chunks, and their concatenation
is stored. -/
structure InSync (chunks : String → List String) (w : World) : Prop where
  known : ∀ filename uploadState, w.fileUploads.find? filename = some uploadState →
    uploadState.lastChunkReceived.toNat = (chunks filename).length ∧
      w.fileServer.stored (bytesOf filename) = (chunks filename).flatMap bytesOf
  unknown : ∀ filename, w.fileUploads.find? filename = none → chunks filename = []

/-- The condition on a chunk. -/
structure ChunkKeeps (env : Environment) (w : World) (chunk : Chunk) : Prop where
  fresh : w.fileUploads.find? chunk.filename = none →
    w.fileServer.stored (bytesOf chunk.filename) = []
  bounded : chunk.chunkNumber = (w.uploadState chunk.filename).lastChunkReceived + 1 →
    (w.uploadState chunk.filename).lastChunkReceived.toNat + 1 < 2 ^ 64
  upload : chunk.chunkNumber = (w.uploadState chunk.filename).lastChunkReceived + 1 →
    FileServer.UploadKeeps w.fileServer (bytesOf chunk.filename) (bytesOf chunk.chunkData)
      (env.uploadExchange chunk.filename)

theorem ChunkKeeps.congr {env : Environment} {requester : Socket} {request : Json}
    {w₀ w : World} {chunk : Chunk} (h : ChunkKeeps env w₀ chunk)
    (hw : w₀.Grows env requester request w) : ChunkKeeps env w chunk := by
  have hstate : w.uploadState chunk.filename = w₀.uploadState chunk.filename := by
    rw [World.uploadState, World.uploadState, hw.fileUploads]
  constructor
  · rw [hw.fileUploads, hw.fileServer]
    exact h.fresh
  · rw [hstate]
    exact h.bounded
  · rw [hstate, hw.fileServer]
    exact h.upload

theorem InSync.congr {chunks chunks' : String → List String} {w w' : World} (h : InSync chunks w)
    (hchunks : ∀ filename, chunks' filename = chunks filename)
    (huploads : w'.fileUploads = w.fileUploads) (hserver : w'.fileServer = w.fileServer) :
    InSync chunks' w' := by
  obtain rfl : chunks' = chunks := funext hchunks
  exact ⟨by rw [huploads, hserver]; exact h.known, by rw [huploads]; exact h.unknown⟩

/-- Recording something that is neither an announcement nor a chunk keeps the invariant. -/
theorem InSync.record {chunks : String → List String} {w w' : World} {o : Observation}
    (h : InSync (chunksAfter chunks w.log) w)
    (ho : ∀ filename chunks, acknowledgedAfter filename chunks o = chunks)
    (hlog : w'.log = w.log ++ [o]) (huploads : w'.fileUploads = w.fileUploads)
    (hserver : w'.fileServer = w.fileServer) : InSync (chunksAfter chunks w'.log) w' := by
  refine h.congr (fun filename => ?_) huploads hserver
  rw [hlog, chunksAfter_append, ho]

/-- An upload that starts with nothing stored. -/
theorem InSync.start {chunks chunks' : String → List String} {w w' : World} {filename : String}
    (h : InSync chunks w) (hother : ∀ f ≠ filename, chunks' f = chunks f)
    (hself : chunks' filename = [])
    (huploads : w'.fileUploads = w.fileUploads.insert filename ⟨0, false⟩)
    (hserver : w'.fileServer = w.fileServer)
    (hstored : w.fileServer.stored (bytesOf filename) = []) : InSync chunks' w' := by
  refine ⟨fun f uploadState hf => ?_, fun f hf => ?_⟩
  · rw [huploads] at hf
    rw [hserver]
    by_cases hname : f = filename
    · subst hname
      rw [OrdMap.find?_insert_self, Option.some.injEq] at hf
      rw [← hf, hself, hstored]
      exact ⟨rfl, rfl⟩
    · rw [OrdMap.find?_insert_ne _ hname] at hf
      rw [hother f hname]
      exact h.known f uploadState hf
  · rw [huploads] at hf
    by_cases hname : f = filename
    · rw [hname, hself]
    · rw [OrdMap.find?_insert_ne _ hname] at hf
      rw [hother f hname, h.unknown f hf]

/-- Opening an upload when nothing is stored keeps the invariant, and the upload is known
then. -/
theorem InSync.openUpload {chunks : String → List String} {w : World} {filename : String}
    (h : InSync chunks w)
    (hfresh : w.fileUploads.find? filename = none → w.fileServer.stored (bytesOf filename) = []) :
    InSync chunks (w.openUpload filename) := by
  rw [World.openUpload]
  cases hfind : w.fileUploads.find? filename with
  | some uploadState => exact h
  | none => exact h.start (fun _ _ => rfl) (h.unknown filename hfind) rfl rfl (hfresh hfind)

theorem find?_openUpload (w : World) (filename : String) :
    (w.openUpload filename).fileUploads.find? filename = some (w.uploadState filename) := by
  rw [World.openUpload, World.uploadState]
  cases hfind : w.fileUploads.find? filename with
  | some uploadState => exact hfind
  | none => exact OrdMap.find?_insert_self _ _ _

/-- A file server that stores the same keeps the invariant. -/
theorem InSync.fileServer {chunks : String → List String} {w : World}
    {fileServer : FileServer.State} (h : InSync chunks w)
    (hstored : ∀ name, fileServer.stored name = w.fileServer.stored name) :
    InSync chunks { w with fileServer := fileServer } :=
  ⟨fun f uploadState hf => by rw [hstored]; exact h.known f uploadState hf, h.unknown⟩

/-- An accepted chunk counts, and its data is appended. -/
theorem InSync.accept {chunks chunks' : String → List String} {w w' : World} {filename chunkData :
    String} {uploadState uploadState' : UploadState} (h : InSync chunks w)
    (hfind : w.fileUploads.find? filename = some uploadState)
    (hother : ∀ f ≠ filename, chunks' f = chunks f)
    (hself : chunks' filename = chunks filename ++ [chunkData])
    (huploads : w'.fileUploads = w.fileUploads.insert filename uploadState')
    (hcounter : uploadState'.lastChunkReceived.toNat = uploadState.lastChunkReceived.toNat + 1)
    (hstored : w'.fileServer.stored (bytesOf filename) =
      w.fileServer.stored (bytesOf filename) ++ bytesOf chunkData)
    (hframe : ∀ other ≠ bytesOf filename,
      w'.fileServer.stored other = w.fileServer.stored other) : InSync chunks' w' := by
  refine ⟨fun f state hf => ?_, fun f hf => ?_⟩
  · rw [huploads] at hf
    by_cases hname : f = filename
    · subst hname
      obtain ⟨hlength, hcontent⟩ := h.known f uploadState hfind
      rw [OrdMap.find?_insert_self, Option.some.injEq] at hf
      subst hf
      rw [hself, hcounter, hstored, hlength, hcontent]
      simp
    · rw [OrdMap.find?_insert_ne _ hname] at hf
      rw [hother f hname, hframe _ (bytesOf_injective.ne hname)]
      exact h.known f state hf
  · rw [huploads] at hf
    by_cases hname : f = filename
    · rw [hname, OrdMap.find?_insert_self] at hf
      cases hf
    · rw [OrdMap.find?_insert_ne _ hname] at hf
      rw [hother f hname, h.unknown f hf]

/-- Taking a chunk that meets its condition keeps the invariant: the chunk is counted exactly
if its data is appended. -/
theorem InSync.takeChunk {chunks : String → List String} {w : World} {env : Environment}
    {chunk : Chunk} (h : InSync (chunksAfter chunks w.log) w) (hkeeps : ChunkKeeps env w chunk) :
    InSync (chunksAfter chunks (w.takeChunk env chunk).log) (w.takeChunk env chunk) := by
  have hopen : InSync (chunksAfter chunks w.log) (w.openUpload chunk.filename) :=
    h.openUpload hkeeps.fresh
  rcases takeChunk_cases w env chunk with
    ⟨-, heq⟩ | ⟨horder, success, fileServer, hupload, heq⟩
  · rw [heq, openUpload_log]
    exact hopen
  · obtain ⟨hstored, hframe⟩ := FileServer.uploadChunk_keeps (hkeeps.upload horder) hupload
    cases success with
    | false =>
        -- a chunk that is refused is not appended either
        have hsame : ∀ name, fileServer.stored name = w.fileServer.stored name := by
          intro name
          by_cases hname : name = bytesOf chunk.filename
          · rw [hname]
            exact hstored
          · exact hframe name hname
        have hsync : InSync (chunksAfter chunks w.log)
            { w.openUpload chunk.filename with fileServer := fileServer } :=
          hopen.fileServer fun name => by rw [hsame, openUpload_fileServer]
        rw [heq]
        refine hsync.congr (fun filename => ?_) rfl rfl
        exact congrArg (chunksAfter chunks · filename) (openUpload_log w chunk.filename)
    | true =>
        -- a chunk that is accepted is counted and appended
        have hlog : (w.takeChunk env chunk).log =
            w.log ++ [.accepted chunk.filename chunk.chunkData] := by
          rw [heq]
          exact congrArg (· ++ _) (openUpload_log w chunk.filename)
        have hself : chunksAfter chunks (w.takeChunk env chunk).log chunk.filename =
            chunksAfter chunks w.log chunk.filename ++ [chunk.chunkData] := by
          rw [hlog, chunksAfter_append, acknowledgedAfter, if_pos rfl]
        refine hopen.accept (find?_openUpload w chunk.filename) (fun f hf => ?_) hself
          (by rw [heq]; rfl) ?_ ?_ fun other hother => ?_
        · rw [hlog, chunksAfter_append, acknowledgedAfter, if_neg (Ne.symm hf)]
        · show chunk.chunkNumber.toNat = _
          rw [horder, UInt64.toNat_add, UInt64.toNat_one, Nat.mod_eq_of_lt (hkeeps.bounded horder)]
        · rw [heq, openUpload_fileServer]
          exact hstored
        · rw [heq, openUpload_fileServer]
          exact hframe other hother

end Silence.Server
