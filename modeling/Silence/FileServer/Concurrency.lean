import Silence.FileServer.Deletion
import Silence.Lib.ReaderWriter

/-!
# Silence.FileServer.Concurrency

The handlers of the file server in small steps, on its threads.

Each handler holds the lock of the file system from its first step to its last:
`upload_file` and `delete_file` exclusively, `download_file` shared, although it creates
directories and mutexes. The models of the handlers as single steps
(`Silence.FileServer.FileServer`, `Silence.FileServer.Routes`) say what they do alone;
`requests_serialized` says that any number of them, interleaved in any way, answer as if
they were handled one after the other.

The lock of a single file is taken under the lock of the file system and in the same mode,
so nobody ever waits for it; it is left out.
-/

namespace Silence.FileServer

open Silence.Lib

/-! ### The handlers in small steps -/

/-- A request, and what happens on the disk while it is handled. -/
inductive Request where
  /-- If the writing fails, some bytes of the body have been written. -/
  | upload (n : FileName) (body : Bytes) (disk : DiskOutcome) (partly : Nat)
  | download (n : FileName) (opens : Bool)
  | delete (n : FileName) (removal : Removal)

inductive UploadStage where
  | getFilepathByName
  | getMutex
  | checkBody
  | readSize
  | checkSize (fileSize : Nat)
  | openFile
  | write
  | remove (response : Response)
  | done (response : Response)

/-- `upload_file`, from the point where it has the lock. The path of the file is the one of the
name below the storage directory, which does not change. -/
def uploadStep (n : FileName) (body : Bytes) (disk : DiskOutcome) (partly : Nat)
    (stage : UploadStage) (server : State) : (UploadStage ⊕ List Response) × State :=
  let filepath := n.path server.storageDir
  match stage with
  | .getFilepathByName =>
      (.inl .getMutex, server.createDirectories (n.directory server.storageDir))
  | .getMutex => (.inl .checkBody, server.getMutex filepath)
  | .checkBody =>
      if chunkSizeBytes < body.length then
        (.inl (.remove ⟨.badRequest,
          bytesOf "Received raw data size is bigger than acceptable chunk size!"⟩), server)
      else (.inl .readSize, server)
  | .readSize => (.inl (.checkSize (server.content filepath).length), server)
  | .checkSize fileSize =>
      if server.overLimit fileSize body.length then
        (.inl (.remove ⟨.badRequest, bytesOf "Size of " ++ filepath ++ bytesOf " is: " ++
          bytesOf (toString fileSize) ++ bytesOf ", that's more than system limit, removing it"⟩),
          server)
      else (.inl .openFile, server)
  | .openFile =>
      -- a file that is opened for appending is created
      match disk with
      | .openFails => (.inl (.done ⟨.internalServerError, bytesOf "Failed to create file"⟩), server)
      | _ => (.inl .write, server.append filepath [])
  | .write =>
      match disk with
      | .written => (.inl (.done ⟨.ok, successText⟩), server.append filepath body)
      | _ => (.inl (.remove ⟨.internalServerError, bytesOf "Failed to write file"⟩),
          server.append filepath (body.take partly))
  | .remove response => (.inl (.done response), server.remove filepath)
  | .done response => (.inr [response], server)

inductive DownloadStage where
  | getFilepathByName
  | getMutex
  | checkExists
  | openFile
  | read (position : Nat) (sent : List Response)

/-- `download_file`, from the point where it has the lock. -/
def downloadStep (n : FileName) (opens : Bool) (stage : DownloadStage) (server : State) :
    (DownloadStage ⊕ List Response) × State :=
  let filepath := n.path server.storageDir
  match stage with
  | .getFilepathByName =>
      (.inl .getMutex, server.createDirectories (n.directory server.storageDir))
  | .getMutex => (.inl .checkExists, server.getMutex filepath)
  | .checkExists =>
      if !server.existsAt filepath then (.inr [⟨.notFound, notFoundText⟩], server)
      else (.inl .openFile, server)
  | .openFile =>
      if !opens then (.inr [⟨.internalServerError, bytesOf "Failed to open file"⟩], server)
      else (.inl (.read 0 []), server)
  | .read position sent =>
      let bytes := ((server.content filepath).drop position).take chunkSizeBytes
      -- a reading that does not fill the buffer ends the loop
      if bytes.length < chunkSizeBytes then (.inr (sent ++ [⟨.ok, bytes⟩]), server)
      else (.inl (.read (position + chunkSizeBytes) (sent ++ [⟨.ok, bytes⟩])), server)

inductive DeleteStage where
  | findMutex
  | checkExists
  | remove
  | eraseMutex

/-- `delete_file`, from the point where it has the lock. -/
def deleteStep (n : FileName) (removal : Removal) (stage : DeleteStage) (server : State) :
    (DeleteStage ⊕ List Response) × State :=
  let filepath := join server.storageDir n.name
  match stage with
  | .findMutex =>
      if !server.fileMutexes filepath then (.inr [⟨.notFound, notFoundText⟩], server)
      else (.inl .checkExists, server)
  | .checkExists =>
      if !server.existsAt filepath then (.inr [⟨.notFound, notFoundText⟩], server)
      else (.inl .remove, server)
  | .remove =>
      match removal with
      | .removed => (.inl .eraseMutex, server.unlink filepath)
      | .notThere => (.inr [⟨.internalServerError, bytesOf "Failed to delete file"⟩], server)
      | .throws => (.inr [⟨.notFound, notFoundText⟩], server)
  | .eraseMutex => (.inr [⟨.ok, deletedText⟩], server.eraseMutex filepath)

/-- How the handlers hold the lock of the file system. -/
def Request.mode : Request → Mode
  | .upload _ _ _ _ => .exclusive
  | .download _ _ => .shared
  | .delete _ _ => .exclusive

abbrev Request.Stage : Request → Type
  | .upload _ _ _ _ => UploadStage
  | .download _ _ => DownloadStage
  | .delete _ _ => DeleteStage

def Request.start : (request : Request) → request.Stage
  | .upload _ _ _ _ => UploadStage.getFilepathByName
  | .download _ _ => DownloadStage.getFilepathByName
  | .delete _ _ => DeleteStage.findMutex

def Request.step : (request : Request) → request.Stage → State →
    (request.Stage ⊕ List Response) × State
  | .upload n body disk partly => uploadStep n body disk partly
  | .download n opens => downloadStep n opens
  | .delete n removal => deleteStep n removal

/-- The handlers, as they run on the threads. -/
def handlers : Tasks Request State (List Response) where
  mode := Request.mode
  Stage := Request.Stage
  start := Request.start
  step := Request.step

/-- The handlers as single steps: the responses, and the file server after them. -/
def State.serve (request : Request) (server : State) : List Response × State :=
  match request with
  | .upload n body disk _ =>
      match server.uploadFile n.name body disk with
      | some (response, server) => ([response], server)
      | none => ([], server)
  | .download n opens => (server.downloadFile n.name opens).getD ([], server)
  | .delete n removal =>
      let (response, server) := server.deleteFile n.name removal
      ([response], server)

/-! ### Alone -/

theorem append_nil_append (server : State) (path : Path) (body : Bytes) :
    (server.append path []).append path body = server.append path body := by
  simp [State.append, State.content]

theorem remove_append (server : State) (path : Path) (body : Bytes) :
    (server.append path body).remove path = server.remove path := by
  simp [State.append, State.remove]

theorem serve_upload (server : State) (n : FileName) (body : Bytes) (disk : DiskOutcome)
    (partly : Nat) :
    server.serve (.upload n body disk partly) =
      ([((server.prepare n).uploadBody (n.path server.storageDir) body disk).1],
        ((server.prepare n).uploadBody (n.path server.storageDir) body disk).2) := by
  obtain ⟨dirs, hdirs, hupload⟩ :=
    uploadFile_of_valid n.valid (filepathByName_name n server.storageDir)
  obtain rfl : n.directory server.storageDir = dirs := by
    rw [directoriesPath_name] at hdirs
    exact Option.some.inj hdirs
  simp only [State.serve, hupload]
  rfl

/-- Alone, the steps of `upload_file` do what the handler does. -/
theorem completes_upload (n : FileName) (body : Bytes) (disk : DiskOutcome) (partly : Nat)
    (server : State) :
    handlers.Completes (.upload n body disk partly) UploadStage.getFilepathByName server
      (server.serve (.upload n body disk partly)).1
      (server.serve (.upload n body disk partly)).2 := by
  have hremove : ∀ (response : Response) (server : State), handlers.Completes
      (.upload n body disk partly) (UploadStage.remove response) server [response]
        (server.remove (n.path server.storageDir)) :=
    fun response server => .next rfl (.last rfl)
  rw [serve_upload]
  refine .next rfl (.next rfl ?_)
  show handlers.Completes (.upload n body disk partly) UploadStage.checkBody (server.prepare n) _ _
  have hdir : (server.prepare n).storageDir = server.storageDir := rfl
  rw [← hdir]
  generalize server.prepare n = server
  simp only [State.uploadBody]
  split
  · rename_i hlen
    exact .next (if_pos hlen) (hremove _ _)
  · rename_i hlen
    refine .next (if_neg hlen) (.next rfl ?_)
    split
    · rename_i hlimit
      exact .next (if_pos hlimit) (hremove _ _)
    · rename_i hlimit
      refine .next (if_neg hlimit) ?_
      cases disk with
      | openFails => exact .next rfl (.last rfl)
      | written =>
          rw [← append_nil_append]
          exact .next rfl (.next rfl (.last rfl))
      | writeFails =>
          rw [← remove_append server _ [],
            ← remove_append (server.append _ []) _ (body.take partly)]
          exact .next rfl (.next rfl (hremove _ _))

theorem drop_readChunks_of_lt {content : Bytes} {position : Nat}
    (h : ((content.drop position).take chunkSizeBytes).length < chunkSizeBytes) :
    readChunks (content.drop position) = [(content.drop position).take chunkSizeBytes] := by
  rw [List.length_take] at h
  have hlen : (content.drop position).length < chunkSizeBytes :=
    (min_lt_iff.mp h).resolve_left (Nat.lt_irrefl _)
  rw [readChunks_of_lt hlen, List.take_of_length_le hlen.le]

/-- The loop of `download_file` sends the rest of the file. -/
theorem completes_read (n : FileName) (opens : Bool) (server : State) (position : Nat)
    (sent : List Response) :
    handlers.Completes (.download n opens) (DownloadStage.read position sent) server
      (sent ++ (readChunks ((server.content (n.path server.storageDir)).drop position)).map
        (⟨.ok, ·⟩)) server := by
  induction hrest : (server.content (n.path server.storageDir)).length - position using
    Nat.strong_induction_on generalizing position sent with
  | h rest ih =>
      by_cases hshort : (((server.content (n.path server.storageDir)).drop position).take
          chunkSizeBytes).length < chunkSizeBytes
      · rw [drop_readChunks_of_lt hshort]
        exact .last (if_pos hshort)
      · have hfull : chunkSizeBytes ≤
            ((server.content (n.path server.storageDir)).drop position).length := by
          rw [List.length_take] at hshort
          exact Nat.le_of_not_lt fun hlt => hshort (Nat.lt_of_le_of_lt (Nat.min_le_right _ _) hlt)
        have hpos : 0 < chunkSizeBytes := by decide
        rw [List.length_drop] at hfull
        have hstep := ih ((server.content (n.path server.storageDir)).length -
          (position + chunkSizeBytes)) (by omega) (position + chunkSizeBytes)
          (sent ++ [⟨.ok, ((server.content (n.path server.storageDir)).drop position).take
            chunkSizeBytes⟩]) rfl
        rw [readChunks_of_le (by rwa [List.length_drop]), List.drop_drop, List.map_cons,
          List.append_cons]
        exact .next (if_neg hshort) hstep

theorem completes_download (n : FileName) (opens : Bool) (server : State) :
    handlers.Completes (.download n opens) DownloadStage.getFilepathByName server
      (server.serve (.download n opens)).1 (server.serve (.download n opens)).2 := by
  rw [State.serve, downloadFile_name, Option.getD_some]
  refine .next rfl (.next rfl ?_)
  show handlers.Completes (.download n opens) DownloadStage.checkExists (server.prepare n) _ _
  have hdir : (server.prepare n).storageDir = server.storageDir := rfl
  rw [← hdir]
  generalize server.prepare n = server
  simp only [State.sendFile]
  split
  · rename_i hmissing
    exact .last (if_pos hmissing)
  · rename_i hthere
    refine .next (if_neg hthere) ?_
    split
    · rename_i hclosed
      exact .last (if_pos hclosed)
    · rename_i hopen
      exact .next (if_neg hopen) (completes_read n opens server 0 [])

theorem completes_delete (n : FileName) (removal : Removal) (server : State) :
    handlers.Completes (.delete n removal) DeleteStage.findMutex server
      (server.serve (.delete n removal)).1 (server.serve (.delete n removal)).2 := by
  simp only [State.serve, State.deleteFile]
  split
  · rename_i hmutex
    exact .last (if_pos hmutex)
  · rename_i hmutex
    refine .next (if_neg hmutex) ?_
    split
    · rename_i hmissing
      exact .last (if_pos hmissing)
    · rename_i hthere
      refine .next (if_neg hthere) ?_
      cases removal with
      | removed => exact .next rfl (.last rfl)
      | notThere => exact .last rfl
      | throws => exact .last rfl

/-- Alone, every request is handled as by the handler in one step. -/
theorem completes_serve (request : Request) (server : State) :
    handlers.Completes request (handlers.start request) server (server.serve request).1
      (server.serve request).2 := by
  cases request with
  | upload n body disk partly => exact completes_upload n body disk partly server
  | download n opens => exact completes_download n opens server
  | delete n removal => exact completes_delete n removal server

/-! ### What the handlers can tell apart -/

/-- The handlers see the same in both states. Other directories and mutexes may be there or
not. -/
structure State.SeenAlike (server server' : State) : Prop where
  storageDir : server.storageDir = server'.storageDir
  maxFileSize : server.maxFileSize = server'.maxFileSize
  files : server.files = server'.files
  atPath : ∀ n : FileName, server.directories (n.path server.storageDir) =
    server'.directories (n.path server.storageDir)
  below : ∀ n : FileName, server.directories (join server.storageDir n.name) =
    server'.directories (join server.storageDir n.name)
  mutexes : ∀ n : FileName, server.fileMutexes (join server.storageDir n.name) =
    server'.fileMutexes (join server.storageDir n.name)

theorem State.seenAlike_equivalence : Equivalence State.SeenAlike where
  refl _ := ⟨rfl, rfl, rfl, fun _ => rfl, fun _ => rfl, fun _ => rfl⟩
  symm h := ⟨h.storageDir.symm, h.maxFileSize.symm, h.files.symm,
    fun n => h.storageDir ▸ (h.atPath n).symm, fun n => h.storageDir ▸ (h.below n).symm,
    fun n => h.storageDir ▸ (h.mutexes n).symm⟩
  trans h h' := ⟨h.storageDir.trans h'.storageDir, h.maxFileSize.trans h'.maxFileSize,
    h.files.trans h'.files, fun n => (h.atPath n).trans (h.storageDir ▸ h'.atPath n),
    fun n => (h.below n).trans (h.storageDir ▸ h'.below n),
    fun n => (h.mutexes n).trans (h.storageDir ▸ h'.mutexes n)⟩

/-- No path directly below the storage directory is on the way to a directory of a name. -/
theorem createDirectories_join (server : State) (n m : FileName) (storageDir : Path) :
    (server.createDirectories (m.directory storageDir)).directories (join storageDir n.name) =
      server.directories (join storageDir n.name) := by
  have hlong := (length_join (isName_parts n.valid n.oneSegment).2.2 storageDir).1
  have hshort := (length_path m storageDir).2
  have hname : 16 ≤ n.name.length := length_of_valid n.valid
  have hne : join storageDir n.name ≠ m.directory storageDir := by
    intro heq
    rw [heq] at hlong
    omega
  have hfront :
      (join storageDir n.name ++ [slash]).isPrefixOf (m.directory storageDir) = false := by
    rw [Bool.eq_false_iff, ne_eq, List.isPrefixOf_iff_prefix]
    intro hfront
    have hle := hfront.length_le
    rw [List.length_append] at hle
    omega
  simp [State.createDirectories, hne, hfront]

/-- Nobody sees the directories of a name being created. -/
theorem State.seenAlike_createDirectories (server : State) (n : FileName) :
    server.SeenAlike (server.createDirectories (n.directory server.storageDir)) where
  storageDir := rfl
  maxFileSize := rfl
  files := rfl
  atPath m := (createDirectories_path server m n server.storageDir).symm
  below m := (createDirectories_join server m n server.storageDir).symm
  mutexes _ := rfl

/-- Nobody sees the mutex of a name being made, since deletions look for it elsewhere. -/
theorem State.seenAlike_getMutex (server : State) (n : FileName) :
    server.SeenAlike (server.getMutex (n.path server.storageDir)) where
  storageDir := rfl
  maxFileSize := rfl
  files := rfl
  atPath _ := rfl
  below _ := rfl
  mutexes m := (Function.update_of_ne (path_ne_join n m server.storageDir).symm _ _).symm

section

variable {server server' : State} (h : server.SeenAlike server')
include h

theorem State.SeenAlike.content (path : Path) : server.content path = server'.content path := by
  rw [State.content, State.content, h.files]

theorem State.SeenAlike.existsAt_path (n : FileName) :
    server.existsAt (n.path server.storageDir) = server'.existsAt (n.path server'.storageDir) := by
  rw [State.existsAt, State.existsAt, h.atPath, h.files, h.storageDir]

theorem State.SeenAlike.existsAt_join (n : FileName) :
    server.existsAt (join server.storageDir n.name) =
      server'.existsAt (join server'.storageDir n.name) := by
  rw [State.existsAt, State.existsAt, h.below, h.files, h.storageDir]

theorem State.SeenAlike.hasMutex (n : FileName) :
    server.fileMutexes (join server.storageDir n.name) =
      server'.fileMutexes (join server'.storageDir n.name) := by
  rw [h.mutexes, h.storageDir]

theorem State.SeenAlike.overLimit (fileSize rawDataBytes : Nat) :
    server.overLimit fileSize rawDataBytes = server'.overLimit fileSize rawDataBytes := by
  rw [State.overLimit, State.overLimit, h.maxFileSize]

theorem State.SeenAlike.append {path path' : Path} (hpath : path = path') (body : Bytes) :
    (server.append path body).SeenAlike (server'.append path' body) where
  storageDir := h.storageDir
  maxFileSize := h.maxFileSize
  files := by
    show Function.update _ _ _ = Function.update _ _ _
    rw [h.content, h.files, hpath]
  atPath := h.atPath
  below := h.below
  mutexes := h.mutexes

theorem State.SeenAlike.remove {path path' : Path} (hpath : path = path') :
    (server.remove path).SeenAlike (server'.remove path') where
  storageDir := h.storageDir
  maxFileSize := h.maxFileSize
  files := by
    show Function.update _ _ _ = Function.update _ _ _
    rw [h.files, hpath]
  atPath := h.atPath
  below := h.below
  mutexes := h.mutexes

theorem State.SeenAlike.unlink {path path' : Path} (hpath : path = path') :
    (server.unlink path).SeenAlike (server'.unlink path') where
  storageDir := h.storageDir
  maxFileSize := h.maxFileSize
  files := (h.remove hpath).files
  atPath n := by
    show Function.update server.directories path false (n.path server.storageDir) =
      Function.update server'.directories path' false (n.path server.storageDir)
    rw [Function.update_apply, Function.update_apply, h.atPath, hpath]
  below n := by
    show Function.update server.directories path false (join server.storageDir n.name) =
      Function.update server'.directories path' false (join server.storageDir n.name)
    rw [Function.update_apply, Function.update_apply, h.below, hpath]
  mutexes := h.mutexes

theorem State.SeenAlike.eraseMutex {path path' : Path} (hpath : path = path') :
    (server.eraseMutex path).SeenAlike (server'.eraseMutex path') where
  storageDir := h.storageDir
  maxFileSize := h.maxFileSize
  files := h.files
  atPath := h.atPath
  below := h.below
  mutexes n := by
    show Function.update server.fileMutexes path false (join server.storageDir n.name) =
      Function.update server'.fileMutexes path' false (join server.storageDir n.name)
    rw [Function.update_apply, Function.update_apply, h.mutexes, hpath]

theorem State.SeenAlike.createDirectories (n : FileName) :
    (server.createDirectories (n.directory server.storageDir)).SeenAlike
      (server'.createDirectories (n.directory server'.storageDir)) :=
  State.seenAlike_equivalence.trans
    (State.seenAlike_equivalence.symm (server.seenAlike_createDirectories n))
    (State.seenAlike_equivalence.trans h (server'.seenAlike_createDirectories n))

theorem State.SeenAlike.getMutex (n : FileName) :
    (server.getMutex (n.path server.storageDir)).SeenAlike
      (server'.getMutex (n.path server'.storageDir)) :=
  State.seenAlike_equivalence.trans
    (State.seenAlike_equivalence.symm (server.seenAlike_getMutex n))
    (State.seenAlike_equivalence.trans h (server'.seenAlike_getMutex n))

theorem uploadStep_congr (n : FileName) (body : Bytes) (disk : DiskOutcome) (partly : Nat)
    (stage : UploadStage) :
    (uploadStep n body disk partly stage server).1 =
        (uploadStep n body disk partly stage server').1 ∧
      (uploadStep n body disk partly stage server).2.SeenAlike
        (uploadStep n body disk partly stage server').2 := by
  have hpath : n.path server.storageDir = n.path server'.storageDir :=
    congrArg n.path h.storageDir
  cases stage with
  | getFilepathByName => exact ⟨rfl, h.createDirectories n⟩
  | getMutex => exact ⟨rfl, h.getMutex n⟩
  | checkBody =>
      simp only [uploadStep]
      split
      · exact ⟨rfl, h⟩
      · exact ⟨rfl, h⟩
  | readSize =>
      simpa [uploadStep, h.content, hpath] using h
  | checkSize fileSize =>
      simp only [uploadStep, h.overLimit, hpath]
      split
      · exact ⟨rfl, h⟩
      · exact ⟨rfl, h⟩
  | openFile =>
      cases disk with
      | openFails => exact ⟨rfl, h⟩
      | written => exact ⟨rfl, h.append hpath _⟩
      | writeFails => exact ⟨rfl, h.append hpath _⟩
  | write =>
      cases disk with
      | written => exact ⟨rfl, h.append hpath _⟩
      | openFails => exact ⟨rfl, h.append hpath _⟩
      | writeFails => exact ⟨rfl, h.append hpath _⟩
  | remove response => exact ⟨rfl, h.remove hpath⟩
  | done response => exact ⟨rfl, h⟩

theorem downloadStep_congr (n : FileName) (opens : Bool) (stage : DownloadStage) :
    (downloadStep n opens stage server).1 = (downloadStep n opens stage server').1 ∧
      (downloadStep n opens stage server).2.SeenAlike (downloadStep n opens stage server').2 := by
  cases stage with
  | getFilepathByName => exact ⟨rfl, h.createDirectories n⟩
  | getMutex => exact ⟨rfl, h.getMutex n⟩
  | checkExists =>
      simp only [downloadStep, h.existsAt_path]
      split
      · exact ⟨rfl, h⟩
      · exact ⟨rfl, h⟩
  | openFile =>
      simp only [downloadStep]
      split
      · exact ⟨rfl, h⟩
      · exact ⟨rfl, h⟩
  | read position sent =>
      simp only [downloadStep, h.content, h.storageDir]
      split
      · exact ⟨rfl, h⟩
      · exact ⟨rfl, h⟩

theorem deleteStep_congr (n : FileName) (removal : Removal) (stage : DeleteStage) :
    (deleteStep n removal stage server).1 = (deleteStep n removal stage server').1 ∧
      (deleteStep n removal stage server).2.SeenAlike (deleteStep n removal stage server').2 := by
  have hpath : join server.storageDir n.name = join server'.storageDir n.name :=
    congrArg (join · n.name) h.storageDir
  cases stage with
  | findMutex =>
      simp only [deleteStep, h.hasMutex]
      split
      · exact ⟨rfl, h⟩
      · exact ⟨rfl, h⟩
  | checkExists =>
      simp only [deleteStep, h.existsAt_join]
      split
      · exact ⟨rfl, h⟩
      · exact ⟨rfl, h⟩
  | remove =>
      cases removal with
      | removed => exact ⟨rfl, h.unlink hpath⟩
      | notThere => exact ⟨rfl, h⟩
      | throws => exact ⟨rfl, h⟩
  | eraseMutex => exact ⟨rfl, h.eraseMutex hpath⟩

end

theorem seenAlike_downloadStep (n : FileName) (opens : Bool) (stage : DownloadStage)
    (server : State) : server.SeenAlike (downloadStep n opens stage server).2 := by
  have hrefl := State.seenAlike_equivalence.refl server
  cases stage with
  | getFilepathByName => exact server.seenAlike_createDirectories n
  | getMutex => exact server.seenAlike_getMutex n
  | checkExists =>
      simp only [downloadStep]
      split <;> exact hrefl
  | openFile =>
      simp only [downloadStep]
      split <;> exact hrefl
  | read position sent =>
      simp only [downloadStep]
      split <;> exact hrefl

/-- Downloads run next to each other: what they create, nobody sees. -/
theorem handlers_respect : handlers.Respects State.SeenAlike where
  equivalence := State.seenAlike_equivalence
  congr request stage server server' h := by
    cases request with
    | upload n body disk partly => exact uploadStep_congr h n body disk partly stage
    | download n opens => exact downloadStep_congr h n opens stage
    | delete n removal => exact deleteStep_congr h n removal stage
  keeps request stage server hmode := by
    cases request with
    | upload n body disk partly => cases hmode
    | delete n removal => cases hmode
    | download n opens => exact seenAlike_downloadStep n opens stage server

/-! ### Every interleaving -/

theorem upload_ends (n : FileName) (body : Bytes) (disk : DiskOutcome) (partly : Nat)
    (stage : UploadStage) (server : State) :
    handlers.Ends (.upload n body disk partly) stage server := by
  have hdone : ∀ (response : Response) (server : State),
      handlers.Ends (.upload n body disk partly) (UploadStage.done response) server :=
    fun response server => .last rfl
  have hremove : ∀ (response : Response) (server : State),
      handlers.Ends (.upload n body disk partly) (UploadStage.remove response) server :=
    fun response server => .next rfl (hdone _ _)
  have hwrite : ∀ server : State,
      handlers.Ends (.upload n body disk partly) UploadStage.write server := by
    intro server
    cases disk with
    | written => exact .next rfl (hdone _ _)
    | openFails => exact .next rfl (hremove _ _)
    | writeFails => exact .next rfl (hremove _ _)
  have hopen : ∀ server : State,
      handlers.Ends (.upload n body disk partly) UploadStage.openFile server := by
    intro server
    cases disk with
    | openFails => exact .next rfl (hdone _ _)
    | written => exact .next rfl (hwrite _)
    | writeFails => exact .next rfl (hwrite _)
  have hcheck : ∀ (fileSize : Nat) (server : State),
      handlers.Ends (.upload n body disk partly) (UploadStage.checkSize fileSize) server := by
    intro fileSize server
    by_cases hlimit : server.overLimit fileSize body.length = true
    · exact .next (if_pos hlimit) (hremove _ _)
    · exact .next (if_neg hlimit) (hopen _)
  have hread : ∀ server : State,
      handlers.Ends (.upload n body disk partly) UploadStage.readSize server :=
    fun server => .next rfl (hcheck _ _)
  have hbody : ∀ server : State,
      handlers.Ends (.upload n body disk partly) UploadStage.checkBody server := by
    intro server
    by_cases hlen : chunkSizeBytes < body.length
    · exact .next (if_pos hlen) (hremove _ _)
    · exact .next (if_neg hlen) (hread _)
  cases stage with
  | getFilepathByName => exact .next rfl (.next rfl (hbody _))
  | getMutex => exact .next rfl (hbody _)
  | checkBody => exact hbody server
  | readSize => exact hread server
  | checkSize fileSize => exact hcheck fileSize server
  | openFile => exact hopen server
  | write => exact hwrite server
  | remove response => exact hremove response server
  | done response => exact hdone response server

theorem download_ends (n : FileName) (opens : Bool) (stage : DownloadStage) (server : State) :
    handlers.Ends (.download n opens) stage server := by
  have hread : ∀ (position : Nat) (sent : List Response) (server : State),
      handlers.Ends (.download n opens) (DownloadStage.read position sent) server :=
    fun position sent server => ⟨_, _, completes_read n opens server position sent⟩
  have hopen : ∀ server : State,
      handlers.Ends (.download n opens) DownloadStage.openFile server := by
    intro server
    by_cases hopens : (!opens) = true
    · exact .last (if_pos hopens)
    · exact .next (if_neg hopens) (hread _ _ _)
  have hexists : ∀ server : State,
      handlers.Ends (.download n opens) DownloadStage.checkExists server := by
    intro server
    by_cases hthere : (!server.existsAt (n.path server.storageDir)) = true
    · exact .last (if_pos hthere)
    · exact .next (if_neg hthere) (hopen _)
  cases stage with
  | getFilepathByName => exact .next rfl (.next rfl (hexists _))
  | getMutex => exact .next rfl (hexists _)
  | checkExists => exact hexists server
  | openFile => exact hopen server
  | read position sent => exact hread position sent server

theorem delete_ends (n : FileName) (removal : Removal) (stage : DeleteStage) (server : State) :
    handlers.Ends (.delete n removal) stage server := by
  have herase : ∀ server : State,
      handlers.Ends (.delete n removal) DeleteStage.eraseMutex server :=
    fun server => .last rfl
  have hremove : ∀ server : State,
      handlers.Ends (.delete n removal) DeleteStage.remove server := by
    intro server
    cases removal with
    | removed => exact .next rfl (herase _)
    | notThere => exact .last rfl
    | throws => exact .last rfl
  have hexists : ∀ server : State,
      handlers.Ends (.delete n removal) DeleteStage.checkExists server := by
    intro server
    by_cases hthere : (!server.existsAt (join server.storageDir n.name)) = true
    · exact .last (if_pos hthere)
    · exact .next (if_neg hthere) (hremove _)
  cases stage with
  | findMutex =>
      by_cases hmutex : (!server.fileMutexes (join server.storageDir n.name)) = true
      · exact .last (if_pos hmutex)
      · exact .next (if_neg hmutex) (hexists _)
  | checkExists => exact hexists server
  | remove => exact hremove server
  | eraseMutex => exact herase server

/-- Every handler returns, wherever it stands and whatever has become of the files. -/
theorem handlers_terminate : handlers.Terminates := by
  intro request stage server
  cases request with
  | upload n body disk partly => exact upload_ends n body disk partly stage server
  | download n opens => exact download_ends n opens stage server
  | delete n removal => exact delete_ends n removal stage server

section

variable {ι : Type} [DecidableEq ι] {request : ι → Request} {server : State}
  {history : List (ThreadEvent ι × Threads handlers request)} {w : Threads handlers request}

/-- However the handlers are interleaved, the finished requests have been answered as if they had
been handled one after the other, in the order in which they finished, and with the files that
this leaves, unless one is being uploaded or deleted. Each is answered once, and every request can
still be finished. -/
theorem requests_serialized (hrun : Threads.ThreadRun server history w) :
    w.log.map (·.2) =
        (Tasks.serveAll State.serve server (w.log.map fun entry => request entry.1)).1 ∧
      ((∀ i, w.Holds i → (request i).mode = .shared) →
        w.shared.files =
          (Tasks.serveAll State.serve server (w.log.map fun entry => request entry.1)).2.files) ∧
      ((∀ i responses, w.status i = .finished responses ↔ (i, responses) ∈ w.log) ∧
        (w.log.map (·.1)).Nodup) ∧
      ∀ i, ∃ history' w' responses,
        Threads.ThreadRun server (history ++ history') w' ∧ w'.status i = .finished responses := by
  obtain ⟨hlog, hstate⟩ := Threads.serialized handlers_respect completes_serve hrun
  exact ⟨hlog, fun hshared => (hstate hshared).files.symm, Threads.finished_iff hrun,
    fun i => Threads.exists_finished handlers_terminate hrun i⟩

end

/-! ### A map from names to files -/

/-- What is stored under each name. -/
abbrev Files := FileName → Option Bytes

/-- The files after a request. Nothing but an upload changes them. -/
def Files.after (server : State) (files : Files) : Request → Files
  | .upload n body disk _ => Function.update files n (server.fileAfter (files n) body disk)
  | .download _ _ => files
  | .delete _ _ => files

/-- The responses that a download of a file sends. -/
def responsesFor (file : Option Bytes) (opens : Bool) : List Response :=
  match file with
  | none => [⟨.notFound, notFoundText⟩]
  | some content =>
      if opens then (readChunks content).map (⟨.ok, ·⟩)
      else [⟨.internalServerError, bytesOf "Failed to open file"⟩]

/-- How a request is answered where these files are stored. -/
def Files.Answers (server : State) (files : Files) (responses : List Response) : Request → Prop
  | .upload n body disk _ => ∃ response, responses = [response] ∧
      (response.body = successText ↔
        server.fits ((files n).getD []).length body = true ∧ disk = .written)
  | .download n opens => responses = responsesFor (files n) opens
  | .delete _ _ => responses = [⟨.notFound, notFoundText⟩]

/-- The event of a request. -/
def Request.event : Request → Event
  | .upload n body disk _ => .upload n body disk
  | .download n opens => .download n opens
  | .delete n removal => .delete n removal

theorem serve_state (server : State) (request : Request) :
    (server.serve request).2 = server.step request.event := by
  cases request with
  | upload n body disk partly =>
      simp only [State.serve, Request.event, State.step]
      cases server.uploadFile n.name body disk <;> rfl
  | download n opens =>
      simp only [State.serve, Request.event, State.step]
      cases server.downloadFile n.name opens <;> rfl
  | delete n removal => rfl

theorem maxFileSize_serve (server : State) (request : Request) :
    (server.serve request).2.maxFileSize = server.maxFileSize := by
  rw [serve_state]
  cases request with
  | upload n body disk partly =>
      rw [Request.event, step_upload]
      rfl
  | download n opens =>
      rw [Request.event, step_download]
      rfl
  | delete n removal =>
      rw [Request.event, State.step]
      rcases deleteFile_cases server n.name removal with ⟨-, hsame⟩ | ⟨-, -, hremoved⟩
      · rw [hsame]
      · rw [hremoved]
        rfl

/-- The file server stores these files, and is as it was started otherwise. -/
structure State.Stores (server₀ server : State) (files : Files) : Prop where
  storageDir : server.storageDir = server₀.storageDir
  maxFileSize : server.maxFileSize = server₀.maxFileSize
  regular : server.Regular
  files : ∀ n : FileName, server.files (n.path server.storageDir) = files n

theorem State.Stores.fits {server₀ server : State} {files : Files}
    (h : server₀.Stores server files) (fileSize : Nat) (body : Bytes) :
    server.fits fileSize body = server₀.fits fileSize body := by
  unfold State.fits State.overLimit
  rw [h.maxFileSize]

/-- A request changes the files as it should. -/
theorem State.Stores.serve {server₀ server : State} {files : Files}
    (h : server₀.Stores server files) (request : Request) :
    server₀.Stores (server.serve request).2 (files.after server₀ request) where
  storageDir := by
    rw [serve_state, storageDir_step]
    exact h.storageDir
  maxFileSize := (maxFileSize_serve server request).trans h.maxFileSize
  regular := by
    rw [serve_state]
    exact h.regular.step _
  files m := by
    rw [serve_state, storageDir_step]
    cases request with
    | upload n body disk partly =>
        have hfile :
            server.fileAfter (files n) body disk = server₀.fileAfter (files n) body disk := by
          unfold State.fileAfter
          rw [h.fits]
        rw [Request.event, files_step_upload, h.files, h.files, hfile]
        exact (Function.update_apply files n _ m).symm
    | download n opens =>
        have hother : ¬ (Request.download n opens).event.Uploads m := fun hup => hup
        exact (h.regular.files_step hother).trans (h.files m)
    | delete n removal =>
        have hother : ¬ (Request.delete n removal).event.Uploads m := fun hup => hup
        exact (h.regular.files_step hother).trans (h.files m)

theorem State.Stores.serveAll {server₀ server : State} {files : Files}
    (h : server₀.Stores server files) (requests : List Request) :
    server₀.Stores (Tasks.serveAll State.serve server requests).2
      (requests.foldl (Files.after server₀) files) := by
  induction requests generalizing server files with
  | nil => exact h
  | cons request requests ih => exact ih (h.serve request)

def uploadAndDownloads : Option Bool → Request
  | none => .upload testName (bytesOf "data") .written 0
  | some _ => .download testName true

/-- Both downloads have the lock at the same time, behind the upload. -/
def interleaved : List (ThreadEvent (Option Bool)) :=
  .acquire none :: List.replicate 8 (.advance none) ++
    [.acquire (some false), .acquire (some true), .advance (some false)] ++
      List.replicate 5 (.advance (some true)) ++ List.replicate 4 (.advance (some false))

def allServed : Threads handlers uploadAndDownloads :=
  interleaved.foldl Threads.step (.start .fresh)

theorem log_allServed : allServed.log = [(none, [⟨.ok, successText⟩]),
    (some true, [⟨.ok, bytesOf "data"⟩]), (some false, [⟨.ok, bytesOf "data"⟩])] := rfl

theorem not_holds_allServed (i : Option Bool) : ¬ allServed.Holds i := by
  intro h
  obtain ⟨stage, hstage⟩ := h
  match i with
  | none => cases hstage
  | some false => cases hstage
  | some true => cases hstage

theorem allServed_run : ∃ history, Threads.ThreadRun State.fresh history allServed := by
  have hallowed : Run.Allowed (@Threads.step _ _ _ _ handlers uploadAndDownloads _) Threads.Guard
      (.start .fresh) interleaved := by
    refine ⟨⟨rfl, fun j hj => ?_⟩, ⟨_, rfl⟩, ⟨_, rfl⟩, ⟨_, rfl⟩, ⟨_, rfl⟩, ⟨_, rfl⟩, ⟨_, rfl⟩,
      ⟨_, rfl⟩, ⟨_, rfl⟩, ⟨rfl, fun j hj => ?_⟩, ⟨rfl, fun j hj => ?_⟩, ⟨_, rfl⟩, ⟨_, rfl⟩,
      ⟨_, rfl⟩, ⟨_, rfl⟩, ⟨_, rfl⟩, ⟨_, rfl⟩, ⟨_, rfl⟩, ⟨_, rfl⟩, ⟨_, rfl⟩, ⟨_, rfl⟩, trivial⟩
    · obtain ⟨stage, hstage⟩ := hj
      cases hstage
    · obtain ⟨stage, hstage⟩ := hj
      cases j with
      | none => cases hstage
      | some j => exact ⟨rfl, rfl⟩
    · obtain ⟨stage, hstage⟩ := hj
      cases j with
      | none => cases hstage
      | some j => exact ⟨rfl, rfl⟩
  exact ⟨_, Run.run_historyOf hallowed⟩

/-- The upload has been served before the downloads. -/
theorem requests_serialized_allServed :
    (Tasks.serveAll State.serve .fresh [.upload testName (bytesOf "data") .written 0,
        .download testName true, .download testName true]).1 =
      [[⟨.ok, successText⟩], [⟨.ok, bytesOf "data"⟩], [⟨.ok, bytesOf "data"⟩]] ∧
    allServed.shared.files = (Tasks.serveAll State.serve .fresh
      [.upload testName (bytesOf "data") .written 0, .download testName true,
        .download testName true]).2.files ∧
    allServed.status none = .finished [⟨.ok, successText⟩] ∧
      allServed.status (some true) = .finished [⟨.ok, bytesOf "data"⟩] := by
  obtain ⟨history, hrun⟩ := allServed_run
  obtain ⟨hlog, hfiles, ⟨hfinished, -⟩, -⟩ := requests_serialized hrun
  have hshared := hfiles fun i hi => absurd hi (not_holds_allServed i)
  rw [log_allServed] at hlog hshared
  refine ⟨hlog.symm, hshared, (hfinished none _).mpr ?_, (hfinished (some true) _).mpr ?_⟩
  · rw [log_allServed]
    exact List.mem_cons_self
  · rw [log_allServed]
    exact List.mem_cons_of_mem _ List.mem_cons_self

end Silence.FileServer
