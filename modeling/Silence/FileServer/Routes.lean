import Silence.FileServer.FileServer

/-!
# Silence.FileServer.Routes

Downloading and deleting files (`file_server/src/file_server.cpp`).

`download_file` answers with one response for each reading of the file, the last of
them with fewer bytes than a chunk, perhaps with none. `delete_file` puts the name
directly under the storage directory, while the two other handlers go through
`get_filepath_by_name`.
-/

namespace Silence.FileServer

/-! ### Downloading -/

/-- There is a file or a directory at the path. -/
def State.existsAt (server : State) (path : Path) : Bool :=
  (server.files path).isSome || server.directories path

/-- What the loop of `download_file` reads. A reading that fills the buffer leaves the stream
good, also at the end of the file. -/
def readChunks (content : Bytes) : List Bytes :=
  if chunkSizeBytes ≤ content.length then
    content.take chunkSizeBytes :: readChunks (content.drop chunkSizeBytes)
  else [content]
termination_by content.length
decreasing_by
  rename_i h
  rw [List.length_drop]
  have hpos : 0 < chunkSizeBytes := by decide
  omega

def notFoundText : Bytes := bytesOf "File not found"

/-- The responses that `download_file` sends for a path. A directory opens, but nothing can be
read from it. -/
def State.sendFile (server : State) (filepath : Path) (opens : Bool) : List Response :=
  if !server.existsAt filepath then [⟨.notFound, notFoundText⟩]
  else if !opens then [⟨.internalServerError, bytesOf "Failed to open file"⟩]
  else (readChunks (server.content filepath)).map (⟨.ok, ·⟩)

/-- `download_file`. None where it throws. -/
def State.downloadFile (server : State) (filename : Bytes) (opens : Bool) :
    Option (List Response × State) := do
  let (filepath, server) ← server.getFilepathByName filename
  let server := server.getMutex filepath
  return (server.sendFile filepath opens, server)

/-! ### Deleting -/

/-- How `std::filesystem::remove` ends. -/
inductive Removal where
  | removed
  | notThere
  | throws
  deriving DecidableEq, Repr

/-- The file or directory at the path is removed. -/
def State.unlink (server : State) (path : Path) : State :=
  { server.remove path with directories := Function.update server.directories path false }

def State.eraseMutex (server : State) (path : Path) : State :=
  { server with fileMutexes := Function.update server.fileMutexes path false }

def deletedText : Bytes := bytesOf "File deleted successfully"

def State.deleteFile (server : State) (filename : Bytes) (removal : Removal) : Response × State :=
  let filepath := join server.storageDir filename
  -- a missing mutex throws the error that is caught below
  if !server.fileMutexes filepath then (⟨.notFound, notFoundText⟩, server)
  else if !server.existsAt filepath then (⟨.notFound, notFoundText⟩, server)
  else
    match removal with
    | .removed =>
        (⟨.ok, deletedText⟩, (server.unlink filepath).eraseMutex filepath)
    | .notThere => (⟨.internalServerError, bytesOf "Failed to delete file"⟩, server)
    -- `filesystem_error` is a `runtime_error`
    | .throws => (⟨.notFound, notFoundText⟩, server)

/-! ### Restarting -/

/-- `stop` clears the map of the mutexes, and a new file server makes sure of its storage
directory. -/
def State.restart (server : State) : State :=
  { server with
    directories := Function.update server.directories server.storageDir true
    fileMutexes := fun _ => false }

/-! ### What they do -/

theorem readChunks_of_lt {content : Bytes} (h : content.length < chunkSizeBytes) :
    readChunks content = [content] := by
  rw [readChunks, if_neg (Nat.not_le.mpr h)]

theorem readChunks_of_le {content : Bytes} (h : chunkSizeBytes ≤ content.length) :
    readChunks content =
      content.take chunkSizeBytes :: readChunks (content.drop chunkSizeBytes) := by
  rw [readChunks, if_pos h]

/-- A file that is there and opens is sent in chunks. -/
theorem sendFile_of_some {server : State} {path : Path} {content : Bytes}
    (h : server.files path = some content) :
    server.sendFile path true = (readChunks content).map (⟨.ok, ·⟩) := by
  have hexists : server.existsAt path = true := by rw [State.existsAt, h]; rfl
  have hcontent : server.content path = content := by rw [State.content, h]; rfl
  rw [State.sendFile, hexists, hcontent]
  rfl

/-- A download makes sure of the directories and of the mutex, and changes no file. -/
theorem downloadFile_of_path {server : State} {filename : Bytes} {path : Path}
    (hpath : filepathByName server.storageDir filename = some path) :
    ∃ dirs, directoriesPath server.storageDir filename = some dirs ∧
      ∀ opens, server.downloadFile filename opens =
        some (((server.createDirectories dirs).getMutex path).sendFile path opens,
          (server.createDirectories dirs).getMutex path) := by
  obtain ⟨dirs, hdirs, rfl⟩ : ∃ dirs, directoriesPath server.storageDir filename = some dirs ∧
      join dirs filename = path := by
    simpa [filepathByName, Option.bind_eq_some_iff] using hpath
  refine ⟨dirs, hdirs, fun opens => ?_⟩
  rw [State.downloadFile, State.getFilepathByName, hdirs]
  rfl

/-- A deletion removes what is at the path, if there is a mutex for it, or changes nothing. -/
theorem deleteFile_cases (server : State) (filename : Bytes) (removal : Removal) :
    ((server.deleteFile filename removal).1.code ≠ .ok ∧
        (server.deleteFile filename removal).2 = server) ∨
      (server.fileMutexes (join server.storageDir filename) = true ∧
        server.existsAt (join server.storageDir filename) = true ∧
        server.deleteFile filename removal = (⟨.ok, deletedText⟩,
          (server.unlink (join server.storageDir filename)).eraseMutex
            (join server.storageDir filename))) := by
  simp only [State.deleteFile]
  split
  · exact .inl ⟨nofun, rfl⟩
  · rename_i hmutex
    split
    · exact .inl ⟨nofun, rfl⟩
    · rename_i hexists
      rw [Bool.not_eq_true, Bool.not_eq_false'] at hmutex hexists
      cases removal with
      | removed => exact .inr ⟨hmutex, hexists, rfl⟩
      | notThere => exact .inl ⟨nofun, rfl⟩
      | throws => exact .inl ⟨nofun, rfl⟩

end Silence.FileServer
