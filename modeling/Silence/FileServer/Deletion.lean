import Silence.FileServer.Containment
import Silence.Lib.Run

/-!
# Silence.FileServer.Deletion

Uploads, downloads and deletions of files, and restarts, in any order.

`upload_file` and `download_file` make a mutex for the path two directories below
the storage directory, `delete_file` looks for one directly below it. So it finds
none for any valid name (`path_ne_join`), and a file that is stored cannot be
deleted. `Tracked` runs the file server next to the files that should be there.
-/

namespace Silence.FileServer

open Silence.Lib

/-! ### Names -/

/-- A valid name, as one segment of a URL. -/
structure FileName where
  name : Bytes
  oneSegment : slash ∉ name
  valid : isValidFilename name = true
  deriving DecidableEq

def FileName.path (n : FileName) (storageDir : Path) : Path :=
  joinAll storageDir (fileOperands n.name)

/-- The directory of a name. -/
def FileName.directory (n : FileName) (storageDir : Path) : Path :=
  joinAll storageDir [n.name.take 2, (n.name.drop 2).take 2]

theorem filepathByName_name (n : FileName) (storageDir : Path) :
    filepathByName storageDir n.name = some (n.path storageDir) := by
  rw [filepathByName_eq, if_pos (two_le_of_valid n.valid)]
  rfl

theorem directoriesPath_name (n : FileName) (storageDir : Path) :
    directoriesPath storageDir n.name = some (n.directory storageDir) := by
  rw [directoriesPath, substr, substr, if_pos (Nat.zero_le _), if_pos (two_le_of_valid n.valid)]
  rfl

theorem path_injective {n m : FileName} {storageDir : Path}
    (h : n.path storageDir = m.path storageDir) : n.name = m.name :=
  filepathByName_injective n.oneSegment m.oneSegment (filepathByName_name n storageDir)
    (h ▸ filepathByName_name m storageDir)

/-- A name adds its length to a path, and a slash if there is none. -/
theorem length_join {name : Bytes} (h : IsName name) (path : Path) :
    path.length + name.length ≤ (join path name).length ∧
      (join path name).length ≤ path.length + 1 + name.length := by
  have hhead : name.head? ≠ some slash := of_decide_eq_false h.isAbsolute_eq
  rw [join, if_neg hhead]
  split
  · rw [List.length_append]
    omega
  · rw [List.length_append, List.length_cons]
    omega

/-- How long the path of a name and its directory are. -/
theorem length_path (n : FileName) (storageDir : Path) :
    storageDir.length + 4 + n.name.length ≤ (n.path storageDir).length ∧
      (n.directory storageDir).length ≤ storageDir.length + 6 := by
  obtain ⟨h1, h2, h3⟩ := isName_parts n.valid n.oneSegment
  have hlong : 16 ≤ n.name.length := length_of_valid n.valid
  have hlen1 : (n.name.take 2).length = 2 := by
    rw [List.length_take]
    omega
  have hlen2 : ((n.name.drop 2).take 2).length = 2 := by
    rw [List.length_take, List.length_drop]
    omega
  have hfirst := length_join h1 storageDir
  have hsecond := length_join h2 (join storageDir (n.name.take 2))
  have hthird := length_join h3 (n.directory storageDir)
  rw [hlen1] at hfirst
  rw [hlen2] at hsecond
  have hdirectory : n.directory storageDir =
      join (join storageDir (n.name.take 2)) ((n.name.drop 2).take 2) := rfl
  have hpath : n.path storageDir = join (n.directory storageDir) n.name := rfl
  rw [hpath, hdirectory]
  rw [hdirectory] at hthird
  omega

/-- No path of a name is directly below the storage directory. -/
theorem path_ne_join (n m : FileName) (storageDir : Path) :
    n.path storageDir ≠ join storageDir m.name := by
  intro heq
  have hsame : n.name = m.name := by
    have hlast : lastComponent (n.path storageDir) = n.name := lastComponent_join n.oneSegment _
    rw [← hlast, heq, lastComponent_join m.oneSegment]
  have hlong := (length_path n storageDir).1
  have hshort := (length_join (isName_parts m.valid m.oneSegment).2.2 storageDir).2
  rw [heq, hsame] at hlong
  omega

/-- No path of a name is on the way to a directory of a name. -/
theorem createDirectories_path (server : State) (n m : FileName) (storageDir : Path) :
    (server.createDirectories (m.directory storageDir)).directories (n.path storageDir) =
      server.directories (n.path storageDir) := by
  have hlong := (length_path n storageDir).1
  have hshort := (length_path m storageDir).2
  have hname : 16 ≤ n.name.length := length_of_valid n.valid
  have hne : n.path storageDir ≠ m.directory storageDir := by
    intro heq
    rw [heq] at hlong
    omega
  have hfront : (n.path storageDir ++ [slash]).isPrefixOf (m.directory storageDir) = false := by
    rw [Bool.eq_false_iff, ne_eq, List.isPrefixOf_iff_prefix]
    intro hfront
    have hle := hfront.length_le
    rw [List.length_append] at hle
    omega
  simp [State.createDirectories, hne, hfront]

/-! ### Requests -/

inductive Event where
  | upload (n : FileName) (body : Bytes) (disk : DiskOutcome)
  | download (n : FileName) (opens : Bool)
  | delete (n : FileName) (removal : Removal)
  | restart

def State.step (server : State) : Event → State
  | .upload n body disk => ((server.uploadFile n.name body disk).map (·.2)).getD server
  | .download n opens => ((server.downloadFile n.name opens).map (·.2)).getD server
  | .delete n removal => (server.deleteFile n.name removal).2
  | .restart => server.restart

/-- What an upload leaves of a file. -/
def State.fileAfter (server : State) (file : Option Bytes) (body : Bytes) (disk : DiskOutcome) :
    Option Bytes :=
  if server.fits (file.getD []).length body then
    match disk with
    | .written => some (file.getD [] ++ body)
    | .openFails => file
    | .writeFails => none
  else none

theorem fileAfter_of_not_fits {server : State} {file : Option Bytes} {body : Bytes}
    (h : server.fits (file.getD []).length body = false) (disk : DiskOutcome) :
    server.fileAfter file body disk = none := by
  unfold State.fileAfter
  exact if_neg (Bool.eq_false_iff.mp h)

theorem fileAfter_of_fits {server : State} {file : Option Bytes} {body : Bytes}
    (h : server.fits (file.getD []).length body = true) (disk : DiskOutcome) :
    server.fileAfter file body disk =
      match disk with
      | .written => some (file.getD [] ++ body)
      | .openFails => file
      | .writeFails => none := by
  unfold State.fileAfter
  exact if_pos h

theorem uploadBody_state (server : State) (path : Path) (body : Bytes) (disk : DiskOutcome) :
    (server.uploadBody path body disk).2 =
      { server with
        files := Function.update server.files path
          (server.fileAfter (server.files path) body disk) } := by
  have hfits : server.fits ((server.files path).getD []).length body =
      (decide (body.length ≤ chunkSizeBytes) &&
        !server.overLimit (server.content path).length body.length) := rfl
  simp only [State.uploadBody]
  split
  · rename_i hlen
    rw [decide_eq_false (Nat.not_le.mpr hlen), Bool.false_and] at hfits
    rw [fileAfter_of_not_fits hfits]
    rfl
  · rename_i hlen
    rw [decide_eq_true (Nat.not_lt.mp hlen), Bool.true_and] at hfits
    split
    · rename_i hlimit
      rw [hlimit] at hfits
      rw [fileAfter_of_not_fits hfits]
      rfl
    · rename_i hlimit
      rw [Bool.eq_false_iff.mpr hlimit] at hfits
      rw [fileAfter_of_fits hfits]
      cases disk with
      | written => rfl
      | openFails =>
          exact congrArg (fun files => { server with files := files })
            (Function.update_eq_self path server.files).symm
      | writeFails => rfl

/-- The directories and the mutex that uploading and downloading make sure of. -/
def State.prepare (server : State) (n : FileName) : State :=
  (server.createDirectories (n.directory server.storageDir)).getMutex (n.path server.storageDir)

theorem step_upload (server : State) (n : FileName) (body : Bytes) (disk : DiskOutcome) :
    server.step (.upload n body disk) =
      { server.prepare n with
        files := Function.update server.files (n.path server.storageDir)
          (server.fileAfter (server.files (n.path server.storageDir)) body disk) } := by
  obtain ⟨dirs, hdirs, hupload⟩ :=
    uploadFile_of_valid n.valid (filepathByName_name n server.storageDir)
  obtain rfl : n.directory server.storageDir = dirs := by
    rw [directoriesPath_name] at hdirs
    exact Option.some.inj hdirs
  rw [State.step, hupload, Option.map_some, Option.getD_some, uploadBody_state]
  rfl

theorem downloadFile_name (server : State) (n : FileName) (opens : Bool) :
    server.downloadFile n.name opens =
      some ((server.prepare n).sendFile (n.path server.storageDir) opens, server.prepare n) := by
  obtain ⟨dirs, hdirs, hdownload⟩ := downloadFile_of_path (filepathByName_name n server.storageDir)
  obtain rfl : n.directory server.storageDir = dirs := by
    rw [directoriesPath_name] at hdirs
    exact Option.some.inj hdirs
  exact hdownload opens

theorem step_download (server : State) (n : FileName) (opens : Bool) :
    server.step (.download n opens) = server.prepare n := by
  rw [State.step, downloadFile_name]
  rfl

/-! ### What is never there -/

/-- No mutex is for a path directly below the storage directory, and no directory is in the place
of a file. -/
structure State.Regular (server : State) : Prop where
  mutexes : ∀ path, server.fileMutexes path = true →
    ∃ n : FileName, path = n.path server.storageDir
  directories : ∀ n : FileName, server.directories (n.path server.storageDir) = false

/-- A file server that has just been started over an empty storage directory. -/
structure State.IsNew (server : State) : Prop where
  files : ∀ path, server.files path = none
  mutexes : ∀ path, server.fileMutexes path = false
  directories : ∀ n : FileName, server.directories (n.path server.storageDir) = false

theorem State.IsNew.regular {server : State} (h : server.IsNew) : server.Regular where
  mutexes path hpath := by
    rw [h.mutexes] at hpath
    cases hpath
  directories := h.directories

theorem State.Regular.prepare {server : State} (h : server.Regular) (n : FileName) :
    (server.prepare n).Regular where
  mutexes path hpath := by
    by_cases heq : path = n.path server.storageDir
    · exact ⟨n, heq⟩
    · exact h.mutexes path ((Function.update_of_ne heq _ _).symm.trans hpath)
  directories m := (createDirectories_path server m n server.storageDir).trans (h.directories m)

/-- Deleting a file never finds a mutex. -/
theorem State.Regular.deleteFile_eq {server : State} (h : server.Regular) (n : FileName)
    (removal : Removal) :
    server.deleteFile n.name removal = (⟨.notFound, notFoundText⟩, server) := by
  have hmutex : server.fileMutexes (join server.storageDir n.name) = false := by
    rw [Bool.eq_false_iff]
    intro hmutex
    obtain ⟨m, hm⟩ := h.mutexes _ hmutex
    exact path_ne_join m n server.storageDir hm.symm
  simp only [State.deleteFile, hmutex]
  rfl

theorem State.Regular.step {server : State} (h : server.Regular) (event : Event) :
    (server.step event).Regular := by
  cases event with
  | upload n body disk =>
      rw [step_upload]
      exact ⟨(h.prepare n).mutexes, (h.prepare n).directories⟩
  | download n opens =>
      rw [step_download]
      exact h.prepare n
  | delete n removal =>
      rw [State.step, h.deleteFile_eq]
      exact h
  | restart =>
      refine ⟨fun path hpath => absurd hpath Bool.false_ne_true, fun n => ?_⟩
      have hne : n.path server.storageDir ≠ server.storageDir := by
        intro heq
        have hlong := (length_path n server.storageDir).1
        rw [heq] at hlong
        omega
      exact (Function.update_of_ne hne _ _).trans (h.directories n)

@[simp] theorem storageDir_step (server : State) (event : Event) :
    (server.step event).storageDir = server.storageDir := by
  cases event with
  | upload n body disk =>
      rw [step_upload]
      rfl
  | download n opens =>
      rw [step_download]
      rfl
  | delete n removal =>
      rcases deleteFile_cases server n.name removal with ⟨-, hsame⟩ | ⟨-, -, hremoved⟩
      · rw [State.step, hsame]
      · rw [State.step, hremoved]
        rfl
  | restart => rfl

/-! ### Runs -/

/-- A file server, and the files that uploads and deletions should have left. -/
structure Tracked where
  server : State
  stored : FileName → Option Bytes

def Tracked.start (server : State) : Tracked := ⟨server, fun _ => none⟩

def Tracked.step (t : Tracked) (event : Event) : Tracked where
  server := t.server.step event
  stored :=
    match event with
    | .upload n body disk =>
        Function.update t.stored n (t.server.fileAfter (t.stored n) body disk)
    | .delete n _ => Function.update t.stored n none
    | .download _ _ => t.stored
    | .restart => t.stored

/-- The event uploads under the name. -/
def Event.Uploads (event : Event) (n : FileName) : Prop :=
  match event with
  | .upload m _ _ => m = n
  | _ => False

/-- The condition: nothing is stored under a name that is deleted. -/
def DeletesAbsent (t : Tracked) : Event → Prop
  | .delete n _ => t.stored n = none
  | _ => True

/-- The file server holds the files that it should, under every name. -/
structure Tracked.Agrees (t : Tracked) : Prop where
  regular : t.server.Regular
  files : ∀ n : FileName, t.server.files (n.path t.server.storageDir) = t.stored n

theorem eq_of_path_eq {n m : FileName} {storageDir : Path}
    (h : n.path storageDir = m.path storageDir) : n = m := by
  have hname := path_injective h
  cases n
  cases m
  cases hname
  rfl

/-- An upload changes the file of its name only. -/
theorem files_step_upload (server : State) (n m : FileName) (body : Bytes) (disk : DiskOutcome) :
    (server.step (.upload n body disk)).files (m.path server.storageDir) =
      if m = n then server.fileAfter (server.files (n.path server.storageDir)) body disk
      else server.files (m.path server.storageDir) := by
  rw [step_upload]
  split
  · rename_i heq
    rw [heq]
    exact Function.update_self (n.path server.storageDir) _ _
  · rename_i hne
    exact Function.update_of_ne (fun heq => hne (eq_of_path_eq heq)) _ _

/-- Nothing else changes a file. -/
theorem State.Regular.files_step {server : State} (h : server.Regular) {event : Event}
    {n : FileName} (hevent : ¬ event.Uploads n) :
    (server.step event).files (n.path server.storageDir) =
      server.files (n.path server.storageDir) := by
  cases event with
  | upload m body disk =>
      rw [files_step_upload, if_neg fun heq => hevent heq.symm]
  | download m opens =>
      rw [step_download]
      rfl
  | delete m removal => rw [State.step, h.deleteFile_eq]
  | restart => rfl

theorem Tracked.Agrees.step {t : Tracked} (h : t.Agrees) {event : Event}
    (hevent : DeletesAbsent t event) : (t.step event).Agrees where
  regular := h.regular.step event
  files m := by
    change (t.server.step event).files (m.path (t.server.step event).storageDir) = _
    rw [storageDir_step]
    have hother : ¬ event.Uploads m →
        (t.server.step event).files (m.path t.server.storageDir) = t.stored m :=
      fun hevent => (h.regular.files_step hevent).trans (h.files m)
    cases event with
    | upload n body disk =>
        rw [files_step_upload, h.files n, h.files m]
        exact (Function.update_apply t.stored n _ m).symm
    | download n opens => exact hother (fun h => h)
    | delete n removal =>
        have hnone : t.stored n = none := hevent
        have hsame : Function.update t.stored n none = t.stored := by
          rw [← hnone, Function.update_eq_self]
        exact (hother (fun h => h)).trans (congrFun hsame m).symm
    | restart => exact hother (fun h => h)

/-- Such a name is answered with not found. -/
theorem State.Regular.downloadFile_eq {server : State} (h : server.Regular) {n : FileName}
    (hnone : server.files (n.path server.storageDir) = none) (opens : Bool) :
    (server.downloadFile n.name opens).map (·.1) = some [⟨.notFound, notFoundText⟩] := by
  have hmissing : (server.prepare n).existsAt (n.path server.storageDir) = false := by
    have hfile : (server.prepare n).files (n.path server.storageDir) = none := hnone
    have hdirectory : (server.prepare n).directories (n.path server.storageDir) = false :=
      (h.prepare n).directories n
    rw [State.existsAt, hfile, hdirectory]
    rfl
  rw [downloadFile_name, State.sendFile, hmissing]
  rfl

/-- The name of the tests, which is valid. -/
def testName : FileName := ⟨bytesOf "ABCDEF1234567890", by decide, by decide⟩

end Silence.FileServer
