import Silence.FileServer.Routes
import Silence.FileServer.Upload
import Silence.Lib.LexicalPath
import Mathlib.Data.List.Induction

/-!
# Silence.FileServer.Containment

Where the paths of the three handlers lie, for every name and every state.

`is_valid_filename` looks at the stem of the last component only, `download_file`
and `delete_file` do not look at the name at all, and an absolute name or part of a
name replaces the storage directory. What is behind a byte 0 does not reach the file
system. `contained_iff` says for each handler when what it opens, creates or removes
is inside, by the normal form of the name and of its first two parts, and that it
changes nothing else; a valid name that is one segment of a URL is always inside
(`contained_upload`).
-/

namespace Silence.FileServer

open Silence.Lib

/-! ### Positions -/

/-- The step that a component of a path makes. -/
def moveOf (component : Bytes) : Move Bytes :=
  if component = [] ∨ component = [dot] then .stay
  else if component = [dot, dot] then .up
  else .down component

def moves (path : Path) : List (Move Bytes) := (path.splitOn slash).map moveOf

def isAbsolute (path : Path) : Bool := path.head? = some slash

/-- The position of a path for a process that works in `cwd`, where there are no symbolic
links. -/
def position (cwd : List Bytes) (path : Path) : List Bytes :=
  walk (if isAbsolute path then [] else cwd) (moves path)

theorem moves_append_slash (path other : Path) :
    moves (path ++ slash :: other) = moves path ++ moves other := by
  rw [moves, List.splitOn_append_cons_self, List.map_append, moves, moves]

theorem isAbsolute_append {path : Path} (h : path ≠ []) (other : Path) :
    isAbsolute (path ++ other) = isAbsolute path := by
  rw [isAbsolute, isAbsolute, List.head?_append_of_ne_nil _ h]

theorem walk_moves_nil (start : List Bytes) : walk start (moves []) = start := by
  rw [moves, List.splitOn_nil]
  rfl

/-- A path without a last component is empty or ends with a slash. -/
theorem eq_nil_or_slash {path : Path} (h : lastComponent path = []) :
    path = [] ∨ ∃ front, path = front ++ [slash] := by
  induction path using List.reverseRecOn with
  | nil => exact .inl rfl
  | append_singleton front last _ =>
      refine .inr ⟨front, ?_⟩
      by_contra hne
      have hslash : slash ∉ [last] := by
        intro hmem
        exact hne (by rw [List.mem_singleton.mp hmem])
      rw [lastComponent_append hslash] at h
      exact absurd h (by simp)

/-- An absolute operand replaces the path, any other continues it. -/
theorem position_join (cwd : List Bytes) (path other : Path) :
    position cwd (join path other) =
      walk (if isAbsolute other then [] else position cwd path) (moves other) := by
  -- the joined path is one path, a slash and the other, in both cases
  have hsplit : ∀ front : Path, isAbsolute (front ++ slash :: other) = isAbsolute path →
      moves path = moves front ++ moves [] ∨ path = front →
      position cwd (front ++ slash :: other) = walk (position cwd path) (moves other) := by
    intro front habsolute hfront
    rw [position, position, habsolute, moves_append_slash, walk_append]
    rcases hfront with hfront | rfl
    · rw [hfront, walk_append, walk_moves_nil]
    · rfl
  by_cases habsolute : other.head? = some slash
  · have hreplaces : isAbsolute other = true := decide_eq_true habsolute
    rw [join, if_pos habsolute, position, hreplaces, if_pos rfl, if_pos rfl]
  · have hrelative : isAbsolute other = false := decide_eq_false habsolute
    rw [join, if_neg habsolute, hrelative, if_neg Bool.false_ne_true]
    split
    · rename_i hempty
      rcases eq_nil_or_slash hempty with rfl | ⟨front, rfl⟩
      · rw [List.nil_append, position, position, hrelative, walk_moves_nil]
        rfl
      · rw [List.append_assoc]
        refine hsplit front ?_ (.inl (moves_append_slash front []))
        exact (congrArg isAbsolute (List.append_cons front slash other)).trans
          (isAbsolute_append (by simp) other)
    · rename_i hcomponent
      have hne : path ≠ [] := fun hnil => hcomponent (by rw [hnil]; rfl)
      exact hsplit path (isAbsolute_append hne _) (.inr rfl)

/-- The position of what the file system finds at a path. -/
def place (cwd : List Bytes) (path : Path) : List Bytes := position cwd (cString path)

/-! ### Operands

A handler joins parts of the name to the storage directory. What they do to the
position does not depend on the storage directory. -/

/-- `path / operand / operand / ...`. -/
def joinAll (path : Path) (operands : List Bytes) : Path := operands.foldl join path

/-- What operands do: whether one of them is absolute, the steps from there on, and whether a byte 0
has come, behind which only an absolute operand counts. -/
structure Course where
  absolute : Bool
  moves : List (Move Bytes)
  cut : Bool
  deriving DecidableEq, Repr

def Course.extend (c : Course) (operand : Bytes) : Course :=
  if isAbsolute operand then ⟨true, FileServer.moves (cString operand), decide (0 ∈ operand)⟩
  else if c.cut then c
  else ⟨c.absolute, c.moves ++ FileServer.moves (cString operand), decide (0 ∈ operand)⟩

/-- The course from a path. -/
def course (path : Path) (operands : List Bytes) : Course :=
  operands.foldl Course.extend ⟨false, [], decide (0 ∈ path)⟩

theorem isAbsolute_cString (path : Path) : isAbsolute (cString path) = isAbsolute path := by
  cases path with
  | nil => rfl
  | cons b path =>
      by_cases hb : b = 0
      · subst hb
        rfl
      · simp [cString, isAbsolute, hb]

/-- What an operand does to what the file system finds. -/
theorem place_join (cwd : List Bytes) (path other : Path) :
    place cwd (join path other) =
      if isAbsolute other then walk [] (moves (cString other))
      else if 0 ∈ path then place cwd path
      else walk (place cwd path) (moves (cString other)) := by
  cases habsolute : isAbsolute other with
  | true =>
      have hjoin : join path other = other := if_pos (of_decide_eq_true habsolute)
      rw [hjoin, if_pos rfl, place, position, isAbsolute_cString, habsolute, if_pos rfl]
  | false =>
      have hrelative : ¬ other.head? = some slash := of_decide_eq_false habsolute
      rw [if_neg Bool.false_ne_true]
      split
      · rename_i hzero
        rw [place, join, if_neg hrelative]
        split
        · rw [cString_append_of_mem hzero, place]
        · rw [cString_append_of_mem hzero, place]
      · rename_i hzero
        have hjoin : cString (join path other) = join path (cString other) := by
          have hrelative' : ¬ (cString other).head? = some slash :=
            of_decide_eq_false ((isAbsolute_cString other).trans habsolute)
          rw [join, join, if_neg hrelative, if_neg hrelative']
          split
          · exact cString_append hzero other
          · rw [cString_append hzero]
            rfl
        rw [place, hjoin, position_join, isAbsolute_cString, habsolute, if_neg Bool.false_ne_true,
          place, cString_of_notMem hzero]

theorem zero_mem_join_iff (path other : Path) :
    0 ∈ join path other ↔ 0 ∈ other ∨ isAbsolute other = false ∧ 0 ∈ path := by
  have hslash : (0 : UInt8) ≠ slash := by decide
  unfold join isAbsolute
  split
  · rename_i habsolute
    simp [habsolute]
  · rename_i hrelative
    split
    · simp [hrelative, or_comm]
    · simp [hrelative, hslash, or_comm]

theorem place_joinAll (cwd : List Bytes) (path : Path) (operands : List Bytes) :
    let c := course path operands
    place cwd (joinAll path operands) =
        walk (if c.absolute then [] else place cwd path) c.moves ∧
      c.cut = decide (0 ∈ joinAll path operands) := by
  induction operands using List.reverseRecOn with
  | nil => exact ⟨rfl, rfl⟩
  | append_singleton operands operand ih =>
      obtain ⟨hplace, hcut⟩ := ih
      have hjoin : joinAll path (operands ++ [operand]) = join (joinAll path operands) operand := by
        rw [joinAll, List.foldl_append]
        rfl
      have hcourse : course path (operands ++ [operand]) =
          (course path operands).extend operand := by
        rw [course, List.foldl_append]
        rfl
      rw [hjoin, hcourse]
      simp only [place_join, zero_mem_join_iff, Course.extend]
      by_cases habsolute : isAbsolute operand = true
      · simp [habsolute]
      · by_cases hzero : 0 ∈ joinAll path operands
        · simp [habsolute, hcut, hzero, hplace]
        · simp [habsolute, hcut, hzero, hplace, walk_append]

/-- The names that a course has to descend by, to come back to the storage directory: all of
its names from the root, or those that it has climbed. -/
def namesToReturn (storage : List Bytes) (c : Course) : List Bytes :=
  if c.absolute then storage else storage.drop (storage.length - (normal c.moves).ups)

/-- The course ends in the storage directory or below. -/
def StaysIn (storage : List Bytes) (c : Course) : Prop :=
  namesToReturn storage c <+: (normal c.moves).names

theorem inside_joinAll_iff (cwd : List Bytes) (storageDir : Path) (operands : List Bytes) :
    place cwd storageDir <+: place cwd (joinAll storageDir operands) ↔
      StaysIn (place cwd storageDir) (course storageDir operands) := by
  rw [(place_joinAll cwd storageDir operands).1, StaysIn, namesToReturn]
  cases (course storageDir operands).absolute with
  | true => rw [if_pos rfl, if_pos rfl, walk_root]
  | false => exact prefix_walk_iff _ _

/-! ### The handlers -/

/-- A request to a handler, with what it meets on the disk. -/
inductive Handler where
  | upload (body : Bytes) (disk : DiskOutcome)
  | download (opens : Bool)
  | delete (removal : Removal)

/-- The state behind a handler; the same where it throws. -/
def Handler.after (server : State) (filename : Bytes) : Handler → State
  | .upload body disk => ((server.uploadFile filename body disk).map (·.2)).getD server
  | .download opens => ((server.downloadFile filename opens).map (·.2)).getD server
  | .delete removal => (server.deleteFile filename removal).2

/-- The first two parts of a name, and what they are joined to: each directory that
`create_directories` may have to create behind the storage directory. An absolute second part
replaces the first. -/
def directoryOperands (filename : Bytes) : List (List Bytes) :=
  let lvl1Dir := filename.take 2
  let lvl2Dir := (filename.drop 2).take 2
  if isAbsolute lvl2Dir then [[lvl2Dir]] else [[lvl1Dir], [lvl1Dir, lvl2Dir]]

/-- What is joined to the storage directory for the path of a name. -/
def fileOperands (filename : Bytes) : List Bytes :=
  [filename.take 2, (filename.drop 2).take 2, filename]

/-- The directories that `get_filepath_by_name` makes sure of; none where it throws. -/
def directoriesByName (storageDir : Path) (filename : Bytes) : List Path :=
  match directoriesPath storageDir filename with
  | none => []
  | some _ => (directoryOperands filename).map (joinAll storageDir)

/-- The directories that a handler makes sure of. -/
def Handler.directories (storageDir : Path) (filename : Bytes) : Handler → List Path
  | .upload _ _ => if isValidFilename filename then directoriesByName storageDir filename else []
  | .download _ => directoriesByName storageDir filename
  | .delete _ => []

/-- An upload opens the file at the path, unless that fails, or removes what is there. -/
def State.touches (server : State) (path : Path) (body : Bytes) (disk : DiskOutcome) : Bool :=
  if server.fits (server.content path).length body then decide (disk ≠ .openFails)
  else server.existsAt path

/-- What a handler opens, creates or removes, apart from the directories. -/
def Handler.opened (server : State) (filename : Bytes) : Handler → List Path
  | .upload body disk =>
      match server.getFilepathByName filename with
      | none => []
      | some (path, server) =>
          if isValidFilename filename && server.touches path body disk then [path] else []
  | .download opens =>
      match server.getFilepathByName filename with
      | none => []
      | some (path, server) => if server.existsAt path && opens then [path] else []
  | .delete removal =>
      let path := join server.storageDir filename
      if server.fileMutexes path && server.existsAt path && decide (removal = .removed) then [path]
      else []

/-- There is a directory at the path: the storage directory, one of the tree, or one above. -/
def State.HasDirectory (cwd : List Bytes) (server : State) (path : Path) : Prop :=
  ∃ there, (there = server.storageDir ∨ server.directories there = true) ∧
    place cwd path <+: place cwd there

/-- What is opened, created or removed lies in the storage directory. A directory that is there is
not created. -/
def Contained (cwd : List Bytes) (server : State) (filename : Bytes) (handler : Handler) : Prop :=
  (∀ directory ∈ handler.directories server.storageDir filename,
    ¬ server.HasDirectory cwd directory →
      place cwd server.storageDir <+: place cwd directory) ∧
  ∀ path ∈ handler.opened server filename, place cwd server.storageDir <+: place cwd path

/-- Operands lead to the storage directory or below. -/
def State.Keeps (cwd : List Bytes) (server : State) (operands : List Bytes) : Prop :=
  StaysIn (place cwd server.storageDir) (course server.storageDir operands)

/-- The first two parts of a name lead to directories that are there, or stay inside. -/
def State.KeepsParts (cwd : List Bytes) (server : State) (filename : Bytes) : Prop :=
  ∀ operands ∈ directoryOperands filename,
    server.HasDirectory cwd (joinAll server.storageDir operands) ∨ server.Keeps cwd operands

/-- The state behind `get_filepath_by_name`, for a name of two characters or more. -/
def State.withDirectories (server : State) (filename : Bytes) : State :=
  server.createDirectories
    (joinAll server.storageDir [filename.take 2, (filename.drop 2).take 2])

/-- The condition on a name in a state, for each handler. -/
def Handler.Stays (cwd : List Bytes) (server : State) (filename : Bytes) : Handler → Prop
  | .upload body disk => isValidFilename filename = true →
      server.KeepsParts cwd filename ∧
        ((server.withDirectories filename).touches
            (joinAll server.storageDir (fileOperands filename)) body disk = true →
          server.Keeps cwd (fileOperands filename))
  | .download opens => 2 ≤ filename.length →
      server.KeepsParts cwd filename ∧
        ((server.withDirectories filename).existsAt
              (joinAll server.storageDir (fileOperands filename)) = true →
          opens = true → server.Keeps cwd (fileOperands filename))
  | .delete removal => server.fileMutexes (join server.storageDir filename) = true →
      server.existsAt (join server.storageDir filename) = true → removal = .removed →
        server.Keeps cwd [filename]

/-- A name of two characters or more has a path. -/
theorem filepathByName_eq (storageDir : Path) (filename : Bytes) :
    filepathByName storageDir filename =
      if 2 ≤ filename.length then some (joinAll storageDir (fileOperands filename)) else none := by
  rw [filepathByName, directoriesPath, substr, substr, if_pos (Nat.zero_le _)]
  split <;> rfl

theorem getFilepathByName_eq (server : State) (filename : Bytes) :
    server.getFilepathByName filename =
      if 2 ≤ filename.length then
        some (joinAll server.storageDir (fileOperands filename), server.withDirectories filename)
      else none := by
  rw [State.getFilepathByName, directoriesPath, substr, substr, if_pos (Nat.zero_le _)]
  split <;> rfl

theorem directoriesByName_eq (storageDir : Path) (filename : Bytes) :
    directoriesByName storageDir filename =
      if 2 ≤ filename.length then (directoryOperands filename).map (joinAll storageDir)
      else [] := by
  by_cases hlength : 2 ≤ filename.length
  · simp [directoriesByName, directoriesPath, substr, hlength]
  · simp [directoriesByName, directoriesPath, substr, hlength]

/-- The characters of a valid name up to its extension. -/
theorem stem_of_valid {filename : Bytes} (h : isValidFilename filename = true) :
    (stem filename).length = filenameLen ∧ ∀ b ∈ stem filename, b ∈ alphabet := by
  rw [isValidFilename, Bool.and_eq_true, decide_eq_true_iff, List.all_eq_true] at h
  refine ⟨h.1, fun b hb => ?_⟩
  obtain ⟨c, hc, heq⟩ := List.any_eq_true.mp (h.2 b hb)
  rwa [of_decide_eq_true heq]

theorem length_of_valid {filename : Bytes} (h : isValidFilename filename = true) :
    filenameLen ≤ filename.length :=
  (stem_of_valid h).1 ▸ length_stem_le filename

theorem two_le_of_valid {filename : Bytes} (h : isValidFilename filename = true) :
    2 ≤ filename.length := Nat.le_trans (by decide) (length_of_valid h)

theorem keepsParts_iff (cwd : List Bytes) (server : State) (filename : Bytes) :
    (∀ directory ∈ (directoryOperands filename).map (joinAll server.storageDir),
      ¬ server.HasDirectory cwd directory →
        place cwd server.storageDir <+: place cwd directory) ↔
      server.KeepsParts cwd filename := by
  simp only [List.forall_mem_map, inside_joinAll_iff, State.KeepsParts, State.Keeps,
    or_iff_not_imp_left]

/-- What a handler opens, creates or removes is inside if and only if the name meets the
condition. -/
theorem contained_iff_stays (cwd : List Bytes) (server : State) (filename : Bytes)
    (handler : Handler) :
    Contained cwd server filename handler ↔ handler.Stays cwd server filename := by
  cases handler with
  | upload body disk =>
      simp only [Contained, Handler.directories, Handler.opened, Handler.Stays]
      by_cases hvalid : isValidFilename filename = true
      · have hlength := two_le_of_valid hvalid
        rw [getFilepathByName_eq, if_pos hlength, directoriesByName_eq, if_pos hlength]
        simp only [hvalid, if_true, keepsParts_iff, Bool.true_and, true_implies]
        refine and_congr_right fun _ => ?_
        split
        · rename_i htouches
          simp [htouches, inside_joinAll_iff, State.Keeps]
        · rename_i htouches
          simp [htouches]
      · rw [getFilepathByName_eq]
        by_cases hlength : 2 ≤ filename.length
        · simp [hvalid, hlength]
        · simp [hvalid, hlength]
  | download opens =>
      simp only [Contained, Handler.directories, Handler.opened, Handler.Stays]
      rw [getFilepathByName_eq, directoriesByName_eq]
      by_cases hlength : 2 ≤ filename.length
      · simp only [hlength, if_true, keepsParts_iff, true_implies]
        refine and_congr_right fun _ => ?_
        split
        · rename_i hopens
          rw [Bool.and_eq_true] at hopens
          simp [hopens, inside_joinAll_iff, State.Keeps]
        · rename_i hopens
          rw [Bool.and_eq_true, not_and] at hopens
          simpa using fun hexists hopen => absurd hopen (hopens hexists)
      · simp [hlength]
  | delete removal =>
      have hfile := inside_joinAll_iff cwd server.storageDir [filename]
      simp only [Contained, Handler.directories, Handler.opened, Handler.Stays, State.Keeps,
        ← hfile, joinAll, List.foldl_cons, List.foldl_nil]
      split
      · rename_i hremoves
        simp only [Bool.and_eq_true, decide_eq_true_eq] at hremoves
        simp [hremoves]
      · rename_i hremoves
        simp only [Bool.and_eq_true, decide_eq_true_eq, not_and] at hremoves
        simpa using fun hmutex hexists hremoved => absurd hremoved (hremoves ⟨hmutex, hexists⟩)

/-! ### What the handlers change -/

/-- The same paths have a file, and the same a directory. -/
structure State.SameTree (server server' : State) : Prop where
  storageDir : server'.storageDir = server.storageDir
  directories : server'.directories = server.directories
  files : ∀ path, (server'.files path).isSome = (server.files path).isSome

/-- A handler changes the files that it opens and no other ones, makes directories on the way to
those it makes sure of only, and sends the contents of files that it opens only. -/
structure Handler.WorksAt (server : State) (filename : Bytes) (handler : Handler) : Prop where
  files : ∀ path ∉ handler.opened server filename,
    (handler.after server filename).files path = server.files path
  directories : ∀ path, (handler.after server filename).directories path ≠
      server.directories path →
    path ∈ handler.opened server filename ∨
      ∃ directory ∈ handler.directories server.storageDir filename,
        path = directory ∨ path ++ [slash] <+: directory
  sends : ∀ opens, handler = .download opens → ∀ server' : State, server.SameTree server' →
    (∀ path ∈ handler.opened server filename, server'.files path = server.files path) →
    (server'.downloadFile filename opens).map (·.1) =
      (server.downloadFile filename opens).map (·.1)

/-- The directories that `create_directories` makes are on the way to one of them. -/
theorem directories_withDirectories {server : State} {filename : Bytes} {path : Path}
    (h : (server.withDirectories filename).directories path ≠ server.directories path) :
    ∃ directory ∈ (directoryOperands filename).map (joinAll server.storageDir),
      path = directory ∨ path ++ [slash] <+: directory := by
  have hmem : joinAll server.storageDir [filename.take 2, (filename.drop 2).take 2] ∈
      (directoryOperands filename).map (joinAll server.storageDir) := by
    unfold directoryOperands
    dsimp only
    split
    · rename_i habsolute
      have hhead : ((filename.drop 2).take 2).head? = some slash := of_decide_eq_true habsolute
      have hreplaced : ∀ front, join front ((filename.drop 2).take 2) =
          (filename.drop 2).take 2 := fun _ => if_pos hhead
      simp [joinAll, hreplaced]
    · simp
  refine ⟨_, hmem, ?_⟩
  by_contra hnot
  rw [not_or] at hnot
  refine h ?_
  simp [State.withDirectories, State.createDirectories, hnot]

/-- Handling the body changes no directory, and the file at the path only if it touches it. -/
theorem uploadBody_keeps (server : State) (path : Path) (body : Bytes) (disk : DiskOutcome) :
    (server.uploadBody path body disk).2.directories = server.directories ∧
      ∀ p, (server.touches path body disk = true → p ≠ path) →
        (server.uploadBody path body disk).2.files p = server.files p := by
  have hremove : ∀ p, (server.existsAt path = true → p ≠ path) →
      (server.remove path).files p = server.files p := by
    intro p hp
    by_cases hpath : p = path
    · have hnone : server.files path = none := by
        have hexists : ¬ server.existsAt path = true := fun h => hp h hpath
        simp [State.existsAt] at hexists
        exact hexists.1
      rw [hpath, hnone]
      exact Function.update_self ..
    · exact Function.update_of_ne hpath _ _
  simp only [State.uploadBody, State.touches, State.fits]
  by_cases hsize : chunkSizeBytes < body.length
  · have hle : ¬ body.length ≤ chunkSizeBytes := Nat.not_le.mpr hsize
    simp only [hsize, hle, if_true, decide_false, Bool.false_and, Bool.false_eq_true, if_false]
    exact ⟨rfl, hremove⟩
  · have hle : body.length ≤ chunkSizeBytes := Nat.not_lt.mp hsize
    simp only [hsize, hle, if_false, decide_true, Bool.true_and]
    by_cases hover : server.overLimit (server.content path).length body.length = true
    · simp only [hover, if_true, Bool.not_true, Bool.false_eq_true, if_false]
      exact ⟨rfl, hremove⟩
    · rw [Bool.not_eq_true] at hover
      simp only [hover, Bool.false_eq_true, if_false, Bool.not_false, if_true]
      cases disk with
      | openFails => exact ⟨rfl, fun p _ => rfl⟩
      | written => exact ⟨rfl, fun p hp => Function.update_of_ne (hp rfl) _ _⟩
      | writeFails => exact ⟨rfl, fun p hp => Function.update_of_ne (hp rfl) _ _⟩

/-- The answer depends on whether something is at the path, and on its content if it is opened. -/
theorem sendFile_congr {server server' : State} {path : Path} {opens : Bool}
    (hexists : server'.existsAt path = server.existsAt path)
    (hfiles : server.existsAt path = true → opens = true →
      server'.files path = server.files path) :
    server'.sendFile path opens = server.sendFile path opens := by
  rw [State.sendFile, State.sendFile, hexists]
  cases hthere : server.existsAt path with
  | false => rfl
  | true =>
      cases opens with
      | false => rfl
      | true => rw [State.content, State.content, hfiles hthere rfl]

theorem worksAt_upload (server : State) (filename body : Bytes) (disk : DiskOutcome) :
    (Handler.upload body disk).WorksAt server filename := by
  by_cases hvalid : isValidFilename filename = true
  · have hlength := two_le_of_valid hvalid
    obtain ⟨hdirectories, hfiles⟩ := uploadBody_keeps
      ((server.withDirectories filename).getMutex
        (joinAll server.storageDir (fileOperands filename)))
      (joinAll server.storageDir (fileOperands filename)) body disk
    have hafter : (Handler.upload body disk).after server filename =
        (((server.withDirectories filename).getMutex
          (joinAll server.storageDir (fileOperands filename))).uploadBody
            (joinAll server.storageDir (fileOperands filename)) body disk).2 := by
      simp [Handler.after, State.uploadFile, hvalid, getFilepathByName_eq, hlength]
    refine ⟨fun path hpath => ?_, fun path hpath => .inr ?_, fun _ heq => by cases heq⟩
    · rw [hafter]
      refine hfiles path fun htouches hsame => hpath ?_
      rw [Handler.opened, getFilepathByName_eq, if_pos hlength]
      have htouched : (server.withDirectories filename).touches
          (joinAll server.storageDir (fileOperands filename)) body disk = true := htouches
      simp [hvalid, htouched, hsame]
    · rw [hafter, hdirectories] at hpath
      rw [Handler.directories, if_pos hvalid, directoriesByName_eq, if_pos hlength]
      exact directories_withDirectories hpath
  · have hafter : (Handler.upload body disk).after server filename = server := by
      simp [Handler.after, State.uploadFile, hvalid]
    refine ⟨fun path _ => by rw [hafter], fun path hpath => ?_, fun _ heq => by cases heq⟩
    rw [hafter] at hpath
    exact absurd rfl hpath

theorem worksAt_download (server : State) (filename : Bytes) (opens : Bool) :
    (Handler.download opens).WorksAt server filename := by
  by_cases hlength : 2 ≤ filename.length
  · have hdownload : ∀ other : State, other.storageDir = server.storageDir →
        other.downloadFile filename opens =
          some (((other.withDirectories filename).getMutex
              (joinAll server.storageDir (fileOperands filename))).sendFile
                (joinAll server.storageDir (fileOperands filename)) opens,
            (other.withDirectories filename).getMutex
              (joinAll server.storageDir (fileOperands filename))) := by
      intro other hstorage
      simp [State.downloadFile, getFilepathByName_eq, hlength, hstorage]
    refine ⟨fun path _ => ?_, fun path hpath => .inr ?_, ?_⟩
    · rw [Handler.after, hdownload server rfl]
      rfl
    · rw [Handler.after, hdownload server rfl] at hpath
      rw [Handler.directories, directoriesByName_eq, if_pos hlength]
      exact directories_withDirectories hpath
    · intro opens' hopens server' hsame hopened
      cases hopens
      rw [hdownload server rfl, hdownload server' hsame.storageDir]
      refine congrArg some (sendFile_congr ?_ fun hexists hopen => ?_)
      · simp [State.existsAt, State.getMutex, State.withDirectories, State.createDirectories,
          hsame.storageDir, hsame.directories, hsame.files]
      · refine hopened _ ?_
        rw [Handler.opened, getFilepathByName_eq, if_pos hlength]
        have hexists' : (server.withDirectories filename).existsAt
            (joinAll server.storageDir (fileOperands filename)) = true := hexists
        simp [hexists', hopen]
  · have hnone : ∀ other : State, other.downloadFile filename opens = none := by
      intro other
      simp [State.downloadFile, getFilepathByName_eq, hlength]
    have hafter : (Handler.download opens).after server filename = server := by
      rw [Handler.after, hnone]
      rfl
    refine ⟨fun path _ => by rw [hafter], fun path hpath => ?_, ?_⟩
    · rw [hafter] at hpath
      exact absurd rfl hpath
    · intro opens' hopens server' _ _
      cases hopens
      rw [hnone, hnone]

/-- `delete_file` removes the file that it names, or leaves everything as it is. -/
theorem delete_cases (server : State) (filename : Bytes) (removal : Removal) :
    (Handler.delete removal).after server filename = server ∨
      (Handler.delete removal).opened server filename = [join server.storageDir filename] ∧
        (Handler.delete removal).after server filename =
          (server.unlink (join server.storageDir filename)).eraseMutex
            (join server.storageDir filename) := by
  simp only [Handler.after, Handler.opened, State.deleteFile]
  cases server.fileMutexes (join server.storageDir filename) with
  | false => exact .inl rfl
  | true =>
      cases server.existsAt (join server.storageDir filename) with
      | false => exact .inl rfl
      | true =>
          cases removal with
          | removed => exact .inr ⟨rfl, rfl⟩
          | notThere => exact .inl rfl
          | throws => exact .inl rfl

theorem worksAt_delete (server : State) (filename : Bytes) (removal : Removal) :
    (Handler.delete removal).WorksAt server filename := by
  rcases delete_cases server filename removal with hsame | ⟨hopened, hremoved⟩
  · refine ⟨fun path _ => by rw [hsame], fun path hpath => ?_, fun _ heq => by cases heq⟩
    rw [hsame] at hpath
    exact absurd rfl hpath
  · refine ⟨fun path hpath => ?_, fun path hpath => .inl ?_, fun _ heq => by cases heq⟩
    · rw [hopened, List.mem_singleton] at hpath
      rw [hremoved]
      exact Function.update_of_ne hpath _ _
    · rw [hopened, List.mem_singleton]
      by_contra hne
      rw [hremoved] at hpath
      exact hpath (Function.update_of_ne hne _ _)

theorem worksAt (server : State) (filename : Bytes) (handler : Handler) :
    handler.WorksAt server filename := by
  cases handler with
  | upload body disk => exact worksAt_upload server filename body disk
  | download opens => exact worksAt_download server filename opens
  | delete removal => exact worksAt_delete server filename removal

/-- For every state, name and handler: what it opens, creates or removes lies in the storage
directory if and only if the name meets the condition, and it works at these paths. -/
theorem contained_iff (cwd : List Bytes) (server : State) (filename : Bytes)
    (handler : Handler) :
    (Contained cwd server filename handler ↔ handler.Stays cwd server filename) ∧
      handler.WorksAt server filename :=
  ⟨contained_iff_stays cwd server filename handler, worksAt server filename handler⟩

/-! ### Valid names -/

theorem mem_alphabet_ne {b : UInt8} (h : b ∈ alphabet) : b ≠ dot ∧ b ≠ slash := by
  have hdot : dot ∉ alphabet := by decide
  have hslash : slash ∉ alphabet := by decide
  exact ⟨fun heq => hdot (heq ▸ h), fun heq => hslash (heq ▸ h)⟩

/-- A stem is a beginning of the last component. -/
theorem stem_prefix (path : Path) : stem path <+: lastComponent path := by
  rw [stem]
  split
  · exact List.prefix_refl _
  · rw [← List.reverse_suffix, List.reverse_reverse]
    exact (List.tail_suffix _).trans (List.dropWhile_suffix _)

/-- A component that is the name of a file or directory. -/
structure IsName (component : Bytes) : Prop where
  slash_notMem : slash ∉ component
  ne_nil : component ≠ []
  ne_dot : component ≠ [dot]
  ne_dotDot : component ≠ [dot, dot]

theorem IsName.isAbsolute_eq {name : Bytes} (h : IsName name) : isAbsolute name = false :=
  decide_eq_false fun hhead => h.slash_notMem (List.mem_of_head? hhead)

theorem IsName.moves_eq {name : Bytes} (h : IsName name) : moves name = [.down name] := by
  have hmove : moveOf name = .down name := by
    rw [moveOf, if_neg (not_or.mpr ⟨h.ne_nil, h.ne_dot⟩), if_neg h.ne_dotDot]
  rw [moves, List.splitOn_eq_singleton h.slash_notMem, List.map_singleton, hmove]

/-- The first four characters of a valid name without a slash belong to its stem. -/
theorem mem_alphabet_of_mem_take {filename : Bytes} (hvalid : isValidFilename filename = true)
    (hslash : slash ∉ filename) : ∀ b ∈ filename.take 4, b ∈ alphabet := by
  obtain ⟨hlength, halphabet⟩ := stem_of_valid hvalid
  have hlast : lastComponent filename = filename := lastComponent_append hslash []
  obtain ⟨extension, hfilename⟩ := hlast ▸ stem_prefix filename
  intro b hb
  rw [← hfilename, List.take_append_of_le_length (by rw [hlength]; decide)] at hb
  exact halphabet b (List.mem_of_mem_take hb)

/-- The parts of a valid name without a slash are names. -/
theorem isName_parts {filename : Bytes} (hvalid : isValidFilename filename = true)
    (hslash : slash ∉ filename) :
    IsName (filename.take 2) ∧ IsName ((filename.drop 2).take 2) ∧ IsName filename := by
  have hlong : 16 ≤ filename.length := length_of_valid hvalid
  have hfour : ∀ b ∈ filename.take 4, b ≠ dot := fun b hb =>
    (mem_alphabet_ne (mem_alphabet_of_mem_take hvalid hslash b hb)).1
  have hpart : ∀ part : Bytes, part.length = 2 → (∀ b ∈ part, b ∈ filename.take 4) →
      IsName part := by
    intro part hlen hmem
    have hdot : dot ∉ part := fun hb => hfour dot (hmem dot hb) rfl
    refine ⟨fun hb => hslash (List.mem_of_mem_take (hmem slash hb)), ?_, ?_, ?_⟩
    · rintro rfl
      cases hlen
    · rintro rfl
      cases hlen
    · rintro rfl
      exact hdot (List.mem_cons_self ..)
  have hne : ∀ short : Bytes, short.length ≤ 2 → filename ≠ short := by
    rintro short hshort rfl
    omega
  refine ⟨hpart _ ?_ fun b hb => ?_, hpart _ ?_ fun b hb => ?_,
    ⟨hslash, hne _ ?_, hne _ ?_, hne _ ?_⟩⟩
  · rw [List.length_take]
    omega
  · exact List.take_subset_take_left filename (by decide) hb
  · rw [List.length_take, List.length_drop]
    omega
  · have hdrop : (filename.take 4).drop 2 = (filename.drop 2).take 2 := List.drop_take
    rw [← hdrop] at hb
    exact List.mem_of_mem_drop hb
  · decide
  · decide
  · decide

/-- What the file system takes of a name that begins with a letter or digit is a name. -/
theorem isName_cString {name : Bytes} (hslash : slash ∉ name) {b : UInt8}
    (hhead : name.head? = some b) (hb : b ∈ alphabet) : IsName (cString name) := by
  obtain ⟨rest, rfl⟩ : ∃ rest, name = b :: rest := List.head?_eq_some_iff.mp hhead
  have hzero : b ≠ 0 := fun heq => absurd (heq ▸ hb) (by decide)
  have hdot : b ≠ dot := (mem_alphabet_ne hb).1
  have hcut : cString (b :: rest) = b :: cString rest := by simp [cString, hzero]
  refine ⟨fun hmem => hslash ((List.takeWhile_sublist _).subset hmem), ?_, ?_, ?_⟩
  · simp [hcut]
  · simp [hcut, hdot]
  · simp [hcut, hdot]

/-- Operands that are names lead downwards. -/
theorem course_of_names (path : Path) {operands : List Bytes}
    (h : ∀ operand ∈ operands, IsName (cString operand)) :
    (course path operands).absolute = false ∧
      ∃ names : List Bytes, (course path operands).moves = names.map .down := by
  induction operands using List.reverseRecOn with
  | nil => exact ⟨rfl, [], rfl⟩
  | append_singleton operands operand ih =>
      obtain ⟨hrelative, names, hmoves⟩ :=
        ih fun other hother => h other (List.mem_append_left _ hother)
      have hname := h operand (List.mem_append_right _ (List.mem_singleton_self operand))
      have hoperand : isAbsolute operand = false :=
        (isAbsolute_cString operand).symm.trans hname.isAbsolute_eq
      have hcourse : course path (operands ++ [operand]) =
          (course path operands).extend operand := by
        rw [course, List.foldl_append]
        rfl
      rw [hcourse, Course.extend, hoperand, if_neg Bool.false_ne_true]
      split
      · exact ⟨hrelative, names, hmoves⟩
      · refine ⟨hrelative, names ++ [cString operand], ?_⟩
        rw [hmoves, hname.moves_eq, List.map_append]
        rfl

/-- A valid name that is one segment of a URL stays inside, whatever is on the disk and wherever the
storage directory is. -/
theorem contained_upload (cwd : List Bytes) (server : State) {filename : Bytes}
    (hslash : slash ∉ filename) (body : Bytes) (disk : DiskOutcome) :
    Contained cwd server filename (.upload body disk) := by
  refine (contained_iff_stays cwd server filename _).mpr fun hvalid => ?_
  have hlong : 16 ≤ filename.length := length_of_valid hvalid
  have halphabet := mem_alphabet_of_mem_take hvalid hslash
  have hkeeps : ∀ operands : List Bytes, (∀ operand ∈ operands, IsName (cString operand)) →
      server.Keeps cwd operands := by
    intro operands hnames
    obtain ⟨hrelative, names, hmoves⟩ := course_of_names server.storageDir hnames
    rw [State.Keeps, ← inside_joinAll_iff, (place_joinAll cwd server.storageDir operands).1,
      hrelative, hmoves]
    exact prefix_walk_down _ _
  have hpart : ∀ n < 4, ∀ part : Bytes, part.head? = filename[n]? → (∀ b ∈ part, b ∈ filename) →
      IsName (cString part) := by
    intro n hn part hhead hmem
    have hlt : n < filename.length := by omega
    rw [List.getElem?_eq_getElem hlt] at hhead
    refine isName_cString (fun hslash' => hslash (hmem _ hslash')) hhead (halphabet _ ?_)
    exact List.mem_take_iff_getElem.mpr ⟨n, by omega, rfl⟩
  have h1 : IsName (cString (filename.take 2)) :=
    hpart 0 (by decide) _ (by rw [List.head?_take, if_neg (by decide), List.head?_eq_getElem?])
      fun b hb => List.mem_of_mem_take hb
  have h2 : IsName (cString ((filename.drop 2).take 2)) :=
    hpart 2 (by decide) _ (by rw [List.head?_take, if_neg (by decide), List.head?_drop])
      fun b hb => List.mem_of_mem_drop (List.mem_of_mem_take hb)
  have hfile : IsName (cString filename) :=
    hpart 0 (by decide) _ List.head?_eq_getElem? fun b hb => hb
  refine ⟨fun operands hoperands => .inr (hkeeps operands ?_), fun _ => hkeeps _ ?_⟩
  · unfold directoryOperands at hoperands
    dsimp only at hoperands
    split at hoperands
    · simp only [List.mem_singleton] at hoperands
      subst hoperands
      simpa using h2
    · simp only [List.mem_cons, List.not_mem_nil, or_false] at hoperands
      rcases hoperands with rfl | rfl <;> simp [h1, h2]
  · simp [fileOperands, h1, h2, hfile]

/-! ### Names that leave -/

/-- `/etc/` and 16 letters, a valid name. -/
def absoluteName : Bytes := bytesOf "/etc/AAAAAAAAAAAAAAAA"

/-- A name that is one segment of a URL, and that begins with two dots. -/
def dotsName : Bytes := bytesOf "..ab"

/-- A valid name that comes back to the storage directory behind a byte 0 only. -/
def cutName : Bytes := bytesOf "./../x" ++ 0 :: bytesOf "/../media/AAAAAAAAAAAAAAAA"

/-- The path that `..ab` becomes, in a directory next to the storage directory. -/
def neighbourPath : Path := bytesOf "/media/../ab/..ab"

/-- A file server with a file there. -/
def State.withNeighbour : State :=
  { State.fresh with
    files := fun path => if path = neighbourPath then some (bytesOf "key") else none }

/-- The state behind the upload of one byte to `/etc/AAAAAAAAAAAAAAAA`. -/
def State.withAbsolute : State := (Handler.upload [0x61] .written).after .fresh absoluteName

/-- A valid name is mapped to a path in another directory, directly or behind a byte 0; a segment of
a URL makes a directory next to the storage directory and downloads a file from there; and deleting
an absolute name removes the file of that name. -/
theorem not_contained :
    (isValidFilename absoluteName = true ∧
        ¬ Contained [] .fresh absoluteName (.upload [0x61] .written)) ∧
      (isValidFilename cutName = true ∧
        ¬ Contained [] .fresh cutName (.upload [0x61] .written)) ∧
      (slash ∉ dotsName ∧ ¬ Contained [] .withNeighbour dotsName (.download true) ∧
        place [] neighbourPath = [bytesOf "ab", bytesOf "..ab"] ∧
        (State.withNeighbour.downloadFile dotsName true).map (·.1) =
          some [⟨.ok, bytesOf "key"⟩]) ∧
      (State.withAbsolute.files absoluteName = some [0x61] ∧
        ¬ Contained [] .withAbsolute absoluteName (.delete .removed) ∧
        ((Handler.delete .removed).after .withAbsolute absoluteName).files absoluteName =
          none) := by
  refine ⟨⟨by decide +kernel, fun h => ?_⟩, ⟨by decide +kernel, fun h => ?_⟩,
    ⟨by decide +kernel, fun h => ?_, by decide +kernel, by decide +kernel⟩,
    ⟨by decide +kernel, fun h => ?_, by decide +kernel⟩⟩
  · exact absurd (h.2 absoluteName (by decide +kernel)) (by decide +kernel)
  · exact absurd (h.2 (joinAll State.fresh.storageDir (fileOperands cutName)) (by decide +kernel))
      (by decide +kernel)
  · exact absurd (h.2 neighbourPath (by decide +kernel)) (by decide +kernel)
  · exact absurd (h.2 absoluteName (by decide +kernel)) (by decide +kernel)

end Silence.FileServer
