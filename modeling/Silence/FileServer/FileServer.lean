import Silence.Basic
import Mathlib.Logic.Function.Basic

/-!
# Silence.FileServer.FileServer

The upload path of the file server (`file_server/src/file_server.cpp`) and of its
client (`file_server/src/file_server_client.cpp`).

Paths are the byte strings that `std::filesystem::path` keeps, built with its
`operator/` and `stem()`. The names that reach the handlers are values of the
route parameter `:filename`, one segment of a URL, so they contain no slash and
the paths built from them differ exactly when the files do.
-/

namespace Silence.FileServer

/-- A `std::filesystem::path`, as its string. -/
abbrev Path := Bytes

def slash : UInt8 := 0x2F

def dot : UInt8 := 0x2E

def chunkSizeBytes : Nat := 512

def filenameLen : Nat := 16

def alphabet : Bytes :=
  bytesOf "0123456789ABCDEFGHIJKLMNOPQRSTUVWXYZabcdefghijklmnopqrstuvwxyz"

/-- The file server: its settings, what is on the disk, and the paths for which
it keeps a mutex. -/
structure State where
  storageDir : Path
  maxFileSize : UInt64
  files : Path → Option Bytes
  directories : Path → Bool
  fileMutexes : Path → Bool

/-- A file server without files and with the default limit. -/
def State.fresh : State where
  storageDir := bytesOf "/media"
  maxFileSize := 1024 * 1024 * 10
  files _ := none
  directories path := path = bytesOf "/media"
  fileMutexes _ := false

/-! ### Paths -/

/-- `path.filename()`: what follows the last slash. -/
def lastComponent (path : Path) : Bytes := (path.reverse.takeWhile (· ≠ slash)).reverse

/-- `path.stem()`: the file name without its extension. A dot in the first place
does not start an extension. -/
def stem (path : Path) : Bytes :=
  let name := lastComponent path
  let base := (name.reverse.dropWhile (· ≠ dot)).tail.reverse
  if name = [dot, dot] ∨ base = [] then name else base

/-- `path / other`. -/
def join (path other : Path) : Path :=
  if other.head? = some slash then other
  else if lastComponent path = [] then path ++ other
  else path ++ slash :: other

/-- `text.substr(pos, count)`; none where it throws `std::out_of_range`. -/
def substr (text : Bytes) (pos count : Nat) : Option Bytes :=
  if pos ≤ text.length then some ((text.drop pos).take count) else none

/-- `std::filesystem::create_directories(path)`. -/
def State.createDirectories (server : State) (path : Path) : State :=
  { server with
    directories := fun p =>
      server.directories p || decide (p = path) || (p ++ [slash]).isPrefixOf path }

/-- The directory of a file: two levels, named by the first four characters. -/
def directoriesPath (storageDir : Path) (filename : Bytes) : Option Path := do
  let lvl1Dir ← substr filename 0 2
  let lvl2Dir ← substr filename 2 2
  return join (join storageDir lvl1Dir) lvl2Dir

/-- The path that `get_filepath_by_name` returns. -/
def filepathByName (storageDir : Path) (filename : Bytes) : Option Path := do
  return join (← directoriesPath storageDir filename) filename

/-- `get_filepath_by_name`, which also creates the directories. -/
def State.getFilepathByName (server : State) (filename : Bytes) : Option (Path × State) := do
  let directories ← directoriesPath server.storageDir filename
  return (join directories filename, server.createDirectories directories)

def isValidFilename (filename : Bytes) : Bool :=
  let str := stem filename
  str.length = filenameLen && str.all fun c1 => alphabet.any fun c2 => c1 = c2

/-- Get or create the mutex of a file. -/
def State.getMutex (server : State) (path : Path) : State :=
  { server with fileMutexes := Function.update server.fileMutexes path true }

/-! ### Uploading -/

inductive Code where
  | ok
  | badRequest
  | notFound
  | internalServerError
  deriving DecidableEq, Repr

/-- An HTTP response. -/
structure Response where
  code : Code
  body : Bytes
  deriving DecidableEq, Repr

/-- How opening the file and writing the body to it goes. -/
inductive DiskOutcome where
  | written
  | openFails
  | writeFails
  deriving DecidableEq, Repr

/-- `std::filesystem::remove(path)`. -/
def State.remove (server : State) (path : Path) : State :=
  { server with files := Function.update server.files path none }

/-- What the file at the path contains; nothing where there is no file. -/
def State.content (server : State) (path : Path) : Bytes := (server.files path).getD []

/-- Append to the file at the path, which is created if it is not there. -/
def State.append (server : State) (path : Path) (body : Bytes) : State :=
  { server with files := Function.update server.files path (some (server.content path ++ body)) }

def successText : Bytes := bytesOf "File uploaded successfully"

def unsupportedText : Bytes :=
  bytesOf " contains unsupported symbols or its size is incorrect, cannot upload it to file_server"

/-- The size check of `upload_file`. The difference wraps around. -/
def State.overLimit (server : State) (fileSize rawDataBytes : Nat) : Bool :=
  (server.maxFileSize - UInt64.ofNat rawDataBytes).toNat < fileSize

/-- The part of `upload_file` that handles the body. -/
def State.uploadBody (server : State) (filepath : Path) (body : Bytes) (disk : DiskOutcome) :
    Response × State :=
  let rawDataBytes := body.length
  let fileSize := (server.content filepath).length
  if chunkSizeBytes < rawDataBytes then
    (⟨.badRequest, bytesOf "Received raw data size is bigger than acceptable chunk size!"⟩,
      server.remove filepath)
  else if server.overLimit fileSize rawDataBytes then
    (⟨.badRequest, bytesOf "Size of " ++ filepath ++ bytesOf " is: " ++
      bytesOf (toString fileSize) ++ bytesOf ", that's more than system limit, removing it"⟩,
      server.remove filepath)
  else
    match disk with
    | .openFails => (⟨.internalServerError, bytesOf "Failed to create file"⟩, server)
    | .written => (⟨.ok, successText⟩, server.append filepath body)
    | .writeFails =>
        (⟨.internalServerError, bytesOf "Failed to write file"⟩, server.remove filepath)

/-- `upload_file`. None where it throws. -/
def State.uploadFile (server : State) (filename body : Bytes) (disk : DiskOutcome) :
    Option (Response × State) :=
  if !isValidFilename filename then
    some (⟨.badRequest, bytesOf "File " ++ filename ++ unsupportedText⟩, server)
  else do
    let (filepath, server) ← server.getFilepathByName filename
    return (server.getMutex filepath).uploadBody filepath body disk

/-- A value of the route parameter `:filename`. -/
structure RouteParam where
  name : Bytes
  oneSegment : slash ∉ name

/-- What happens to one upload request on its way: the parameter under which
`upload_file` handles it if it arrives, the outcome on the disk, and whether the
client reads the answer and closes the connection without an error. -/
structure Exchange where
  handledAs : Option RouteParam
  disk : DiskOutcome
  answered : Bool

/-- A request for a name that is one segment arrives, is written and answered. -/
def Exchange.delivered (name : Bytes) : Exchange where
  handledAs := if h : slash ∉ name then some ⟨name, h⟩ else none
  disk := .written
  answered := true

/-- `FileServerClient::upload_chunk`: its result, and the file server after it. -/
def uploadChunk (server : State) (chunkData : Bytes) (exchange : Exchange) : Bool × State :=
  match exchange.handledAs with
  | none => (false, server)
  | some param =>
      match server.uploadFile param.name chunkData exchange.disk with
      | none => (false, server)
      | some (response, server) =>
          (exchange.answered && decide (response.body = successText), server)

/-! ### The path of a name -/

theorem lastComponent_append {name : Bytes} (h : slash ∉ name) (path : Path) :
    lastComponent (path ++ name) = lastComponent path ++ name := by
  have hkeep : ∀ b ∈ name.reverse, decide (b ≠ slash) = true :=
    fun b hb => decide_eq_true fun heq => h (heq ▸ List.mem_reverse.mp hb)
  rw [lastComponent, lastComponent, List.reverse_append, List.takeWhile_append_of_pos hkeep]
  simp

/-- A path ends with the name that was put at its end. -/
theorem lastComponent_join {name : Bytes} (h : slash ∉ name) (path : Path) :
    lastComponent (join path name) = name := by
  have hhead : name.head? ≠ some slash := fun hs => h (List.mem_of_head? hs)
  rw [join, if_neg hhead]
  split
  · rename_i hempty
    rw [lastComponent_append h, hempty, List.nil_append]
  · have hslash : lastComponent (path ++ [slash]) = [] := by simp [lastComponent]
    rw [List.append_cons, lastComponent_append h, hslash, List.nil_append]

theorem filepathByName_injective {storageDir : Path} {f g : Bytes} {path : Path} (hf : slash ∉ f)
    (hg : slash ∉ g) (hfp : filepathByName storageDir f = some path)
    (hgp : filepathByName storageDir g = some path) : f = g := by
  simp only [filepathByName, Option.bind_eq_bind, Option.pure_def, Option.bind_eq_some_iff,
    Option.some.injEq] at hfp hgp
  obtain ⟨d, -, hd⟩ := hfp
  obtain ⟨e, -, he⟩ := hgp
  rw [← lastComponent_join hf d, hd, ← he, lastComponent_join hg e]

theorem length_stem_le (path : Path) : (stem path).length ≤ path.length := by
  have hlast : (lastComponent path).length ≤ path.length := by
    rw [lastComponent, List.length_reverse]
    exact Nat.le_trans (List.takeWhile_sublist _).length_le (Nat.le_of_eq List.length_reverse)
  refine Nat.le_trans ?_ hlast
  rw [stem]
  split
  · exact Nat.le_refl _
  · rw [List.length_reverse, List.length_tail]
    have := (List.dropWhile_sublist (l := (lastComponent path).reverse)
      fun b => decide (b ≠ dot)).length_le
    rw [List.length_reverse] at this
    omega

/-- A valid name is long enough to have a path. -/
theorem exists_filepathByName {filename : Bytes} (h : isValidFilename filename)
    (storageDir : Path) : ∃ path, filepathByName storageDir filename = some path := by
  rw [isValidFilename, Bool.and_eq_true, decide_eq_true_iff] at h
  have hlen := length_stem_le filename
  rw [h.1] at hlen
  have hsubstr : ∀ pos ≤ 2, (substr filename pos 2).isSome := by
    intro pos hpos
    rw [substr, if_pos (Nat.le_trans hpos (Nat.le_trans (by decide) hlen))]
    rfl
  obtain ⟨lvl1Dir, h1⟩ := Option.isSome_iff_exists.mp (hsubstr 0 (by decide))
  obtain ⟨lvl2Dir, h2⟩ := Option.isSome_iff_exists.mp (hsubstr 2 (Nat.le_refl 2))
  exact ⟨join (join (join storageDir lvl1Dir) lvl2Dir) filename,
    by simp [filepathByName, directoriesPath, h1, h2]⟩

end Silence.FileServer
