import Silence.FileServer.Routes

/-!
# Silence.FileServer.Download

What a download does to the file tree, and when it is answered.

`download_file` takes the lock of the file system for reading, but gets its path from the
helper that the uploads use, which cuts the name without looking at its length and
creates the directories. `download_unobtrusive_iff` says for which names and trees it
answers and leaves the tree alone. The trees and what `std::filesystem` does on them are
a parameter (`FileTrees`) with the few things that it promises; `Disk` is the disk of the
file server, where the handler is the `download_file` of `Silence.FileServer.Routes`
(`downloadFile_disk`). What it does to the mutexes is left to that one.
-/

namespace Silence.FileServer

/-! ### File trees -/

/-- What `std::filesystem::status` finds at a path. -/
inductive FileStatus where
  | notFound
  | directory
  | other
  /-- The status cannot be determined, as for a component that is too long:
  `std::filesystem::exists` throws. -/
  | unknown
  deriving DecidableEq, Repr

/-- The states of a file tree, and the operations that `download_file` uses. -/
structure FileTrees (Tree : Type) where
  status : Tree → Path → FileStatus
  /-- `std::filesystem::create_directories`: whether it returns, and the tree after it. -/
  createDirectories : Tree → Path → Bool × Tree
  /-- Whether a file opens for reading. -/
  opens : Tree → Path → Bool
  /-- What can be read from it. -/
  content : Tree → Path → Bytes
  /-- A directory that is there is left alone. -/
  createDirectories_of_directory : ∀ tree path, status tree path = .directory →
    createDirectories tree path = (true, tree)
  /-- If it returns, there is a directory. -/
  status_createDirectories : ∀ tree path, (createDirectories tree path).1 = true →
    status (createDirectories tree path).2 path = .directory

/-- The helper cuts every name that has two characters. -/
theorem exists_directoriesPath_iff (storageDir : Path) (filename : Bytes) :
    (∃ directories, directoriesPath storageDir filename = some directories) ↔
      2 ≤ filename.length := by
  unfold directoriesPath substr
  by_cases hlen : 2 ≤ filename.length
  · simp [hlen]
  · simp [hlen]

/-- The loop reads at least once. -/
theorem readChunks_ne_nil (content : Bytes) : readChunks content ≠ [] := by
  rw [readChunks]
  split <;> simp

/-- What leaves `download_file` when it does not return. -/
inductive DownloadError where
  /-- `std::out_of_range`, thrown by `substr`. -/
  | outOfRange
  /-- `std::filesystem::filesystem_error`. -/
  | filesystemError
  deriving DecidableEq, Repr

namespace FileTrees

variable {Tree : Type} (trees : FileTrees Tree)

/-- `get_filepath_by_name`. -/
def getFilepathByName (storageDir : Path) (tree : Tree) (filename : Bytes) :
    Except DownloadError Path × Tree :=
  match directoriesPath storageDir filename with
  | none => (.error .outOfRange, tree)
  | some directories =>
      match trees.createDirectories tree directories with
      | (false, tree) => (.error .filesystemError, tree)
      | (true, tree) => (.ok (join directories filename), tree)

/-- The responses for a path. -/
def respond (tree : Tree) (filepath : Path) : Except DownloadError (List Response) :=
  match trees.status tree filepath with
  | .unknown => .error .filesystemError
  | .notFound => .ok [⟨.notFound, notFoundText⟩]
  | _ =>
      if !trees.opens tree filepath then
        .ok [⟨.internalServerError, bytesOf "Failed to open file"⟩]
      else .ok ((readChunks (trees.content tree filepath)).map (⟨.ok, ·⟩))

/-- `download_file`: the responses that it sends, if it returns, and the tree after it. -/
def downloadFile (storageDir : Path) (tree : Tree) (filename : Bytes) :
    Except DownloadError (List Response) × Tree :=
  match trees.getFilepathByName storageDir tree filename with
  | (.error e, tree) => (.error e, tree)
  | (.ok filepath, tree) => (trees.respond tree filepath, tree)

/-- At least one response is sent, and the tree stays as it is. -/
def Unobtrusive (storageDir : Path) (tree : Tree) (filename : Bytes) : Prop :=
  (∃ response responses, (trees.downloadFile storageDir tree filename).1 =
    .ok (response :: responses)) ∧
  (trees.downloadFile storageDir tree filename).2 = tree

/-! ### What it sends and what it leaves -/

/-- Whatever is found at a path is answered, unless looking for it throws. -/
theorem exists_respond_iff (tree : Tree) (filepath : Path) :
    (∃ response responses, trees.respond tree filepath = .ok (response :: responses)) ↔
      trees.status tree filepath ≠ .unknown := by
  have hread : ∃ response responses,
      (readChunks (trees.content tree filepath)).map (⟨.ok, ·⟩) =
        (response : Response) :: responses := by
    refine List.exists_cons_of_ne_nil fun h => ?_
    exact readChunks_ne_nil _ (List.map_eq_nil_iff.mp h)
  unfold respond
  cases trees.status tree filepath with
  | unknown => simp
  | notFound => simp
  | directory =>
      cases trees.opens tree filepath with
      | false => simp
      | true => simpa using hread
  | other =>
      cases trees.opens tree filepath with
      | false => simp
      | true => simpa using hread

/-- With its directory there, a name is answered from the tree as it is. -/
theorem downloadFile_of_directory {storageDir directories : Path} {filename : Bytes}
    (hdirs : directoriesPath storageDir filename = some directories) {tree : Tree}
    (h : trees.status tree directories = .directory) :
    trees.downloadFile storageDir tree filename =
      (trees.respond tree (join directories filename), tree) := by
  have hcreate := trees.createDirectories_of_directory tree directories h
  simp only [downloadFile, getFilepathByName, hdirs, hcreate]

/-- If it returns, there is a directory afterwards. -/
theorem status_downloadFile {storageDir directories : Path} {filename : Bytes}
    (hdirs : directoriesPath storageDir filename = some directories) {tree : Tree}
    {responses : List Response}
    (h : (trees.downloadFile storageDir tree filename).1 = .ok responses) :
    trees.status (trees.downloadFile storageDir tree filename).2 directories = .directory := by
  have hcreated := trees.status_createDirectories tree directories
  unfold downloadFile getFilepathByName at h ⊢
  rw [hdirs] at h ⊢
  dsimp only at h ⊢
  rcases hcreate : trees.createDirectories tree directories with ⟨_ | _, after⟩
  · rw [hcreate] at h
    cases h
  · rw [hcreate] at hcreated
    exact hcreated rfl

end FileTrees

/-- For every name and every state of the file tree: `download_file` sends a response and leaves
the tree as it was exactly if the name has two characters, its directory is there already, and
looking for the file does not throw. -/
theorem download_unobtrusive_iff {Tree : Type} (trees : FileTrees Tree) (storageDir : Path)
    (tree : Tree) (filename : Bytes) :
    trees.Unobtrusive storageDir tree filename ↔
      2 ≤ filename.length ∧ ∀ directories ∈ directoriesPath storageDir filename,
        trees.status tree directories = .directory ∧
          trees.status tree (join directories filename) ≠ .unknown := by
  rw [← exists_directoriesPath_iff storageDir]
  cases hdirs : directoriesPath storageDir filename with
  | none =>
      have hthrows : trees.downloadFile storageDir tree filename = (.error .outOfRange, tree) := by
        simp only [FileTrees.downloadFile, FileTrees.getFilepathByName, hdirs]
      simp [FileTrees.Unobtrusive, hthrows]
  | some directories =>
      constructor
      · intro h
        obtain ⟨⟨response, responses, hsent⟩, htree⟩ := h
        have hdirectory := trees.status_downloadFile hdirs hsent
        rw [htree] at hdirectory
        rw [trees.downloadFile_of_directory hdirs hdirectory] at hsent
        have hstatus := (trees.exists_respond_iff _ _).mp ⟨response, responses, hsent⟩
        refine ⟨⟨directories, rfl⟩, fun found hfound => ?_⟩
        obtain rfl := Option.some.inj hfound
        exact ⟨hdirectory, hstatus⟩
      · intro h
        obtain ⟨hdirectory, hstatus⟩ := h.2 directories rfl
        unfold FileTrees.Unobtrusive
        rw [trees.downloadFile_of_directory hdirs hdirectory]
        exact ⟨(trees.exists_respond_iff _ _).mpr hstatus, rfl⟩

/-! ### The disk of the file server -/

/-- The states of the disk in which every directory lies in directories. -/
structure Disk where
  server : State
  closed : ∀ path below, server.directories below = true →
    (path ++ [slash]).isPrefixOf below = true → server.directories path = true

namespace Disk

/-- A file is in the way of the directories. -/
def isBlocked (disk : Disk) (path : Path) : Bool :=
  (List.range (path.length + 1)).any fun n => (disk.server.files (path.take n)).isSome &&
    (path.take n = path || (path.take n ++ [slash]).isPrefixOf path)

/-- The directories of a path are created together with those that they lie in. -/
def withDirectories (disk : Disk) (path : Path) : Disk where
  server := disk.server.createDirectories path
  closed := by
    intro above below hbelow habove
    simp only [State.createDirectories, Bool.or_eq_true, decide_eq_true_eq] at hbelow ⊢
    rcases hbelow with (hold | rfl) | hnew
    · exact .inl (.inl (disk.closed above below hold habove))
    · exact .inr habove
    · rw [List.isPrefixOf_iff_prefix] at habove hnew ⊢
      exact .inr (habove.trans ((List.prefix_append below [slash]).trans hnew))

/-- Directories that are there stay as they are. -/
theorem createDirectories_server {disk : Disk} {path : Path}
    (h : disk.server.directories path = true) :
    disk.server.createDirectories path = disk.server := by
  have hsame : ∀ p, (disk.server.directories p || decide (p = path) ||
      (p ++ [slash]).isPrefixOf path) = disk.server.directories p := by
    intro p
    rw [Bool.eq_iff_iff, Bool.or_eq_true, Bool.or_eq_true, decide_eq_true_iff]
    refine ⟨?_, fun hp => .inl (.inl hp)⟩
    intro hp
    rcases hp with (hp | rfl) | hp
    · exact hp
    · exact h
    · exact disk.closed p path h hp
  unfold State.createDirectories
  simp only [hsame]

/-- The operations on these states, where every file opens or none does. -/
def trees (opens : Bool) : FileTrees Disk where
  status disk path :=
    if disk.server.directories path then .directory
    else if (disk.server.files path).isSome then .other
    else .notFound
  createDirectories disk path :=
    if disk.server.directories path then (true, disk)
    else if disk.isBlocked path then (false, disk)
    else (true, disk.withDirectories path)
  opens _ _ := opens
  content disk path := disk.server.content path
  createDirectories_of_directory := by
    intro disk path h
    split at h
    · rename_i hdirectory
      rw [if_pos hdirectory]
    · split at h <;> cases h
  status_createDirectories := by
    intro disk path h
    by_cases hdirectory : disk.server.directories path = true
    · simp [hdirectory]
    · rw [if_neg hdirectory] at h ⊢
      cases hblocked : disk.isBlocked path with
      | true => simp [hblocked] at h
      | false => simp [withDirectories, State.createDirectories]

end Disk

/-- The responses of the two models agree. -/
theorem respond_disk (opens : Bool) (disk : Disk) (filepath : Path) :
    (Disk.trees opens).respond disk filepath = .ok (disk.server.sendFile filepath opens) := by
  unfold FileTrees.respond State.sendFile State.existsAt
  simp only [Disk.trees]
  cases disk.server.directories filepath with
  | true => cases opens <;> simp
  | false =>
      cases (disk.server.files filepath).isSome with
      | true => cases opens <;> simp
      | false => simp

/-- Where no file is in the way of the directories, this is `State.downloadFile`, but for the
mutex. -/
theorem downloadFile_disk {disk : Disk} {filename : Bytes} {directories : Path}
    (hdirs : directoriesPath disk.server.storageDir filename = some directories)
    (hfree : disk.server.directories directories = true ∨ disk.isBlocked directories = false)
    (opens : Bool) :
    ∃ responses after, (Disk.trees opens).downloadFile disk.server.storageDir disk filename =
        (.ok responses, after) ∧
      disk.server.downloadFile filename opens =
        some (responses, after.server.getMutex (join directories filename)) := by
  obtain ⟨after, hcreate, hserver⟩ : ∃ after,
      (Disk.trees opens).createDirectories disk directories = (true, after) ∧
        after.server = disk.server.createDirectories directories := by
    simp only [Disk.trees]
    by_cases hthere : disk.server.directories directories = true
    · rw [if_pos hthere]
      exact ⟨disk, rfl, (Disk.createDirectories_server hthere).symm⟩
    · have hnot := hfree.resolve_left hthere
      rw [if_neg hthere, hnot]
      exact ⟨disk.withDirectories directories, rfl, rfl⟩
  refine ⟨after.server.sendFile (join directories filename) opens, after, ?_, ?_⟩
  · simp only [FileTrees.downloadFile, FileTrees.getFilepathByName, hdirs, hcreate,
      respond_disk]
  · rw [State.downloadFile, State.getFilepathByName, hdirs, hserver]
    rfl

/-- The disk of a new file server, which has made sure of its storage directory. -/
def Disk.fresh : Disk :=
  Disk.withDirectories
    ⟨{ State.fresh with directories := fun _ => false }, fun _ _ h => absurd h Bool.false_ne_true⟩
    State.fresh.storageDir

/-- There is no answer to a name of one character, and the download of a file that is not there
leaves two directories behind. -/
theorem download_obtrusive :
    (∃ tree, (Disk.trees true).downloadFile (bytesOf "/media") .fresh (bytesOf "a") =
      (.error .outOfRange, tree)) ∧
    (∃ after, (Disk.trees true).downloadFile (bytesOf "/media") .fresh (bytesOf "ghost.txt") =
        (.ok [⟨.notFound, notFoundText⟩], after) ∧
      Disk.fresh.server.directories (bytesOf "/media/gh") = false ∧
      after.server.directories (bytesOf "/media/gh") = true ∧
      after.server.directories (bytesOf "/media/gh/os") = true) ∧
    ¬ ∀ filename, (Disk.trees true).Unobtrusive (bytesOf "/media") .fresh filename := by
  refine ⟨⟨.fresh, rfl⟩, ⟨_, rfl, ?_⟩, fun h => ?_⟩
  · decide
  · obtain ⟨response, responses, hsent⟩ := (h (bytesOf "a")).1
    cases hsent

end Silence.FileServer
