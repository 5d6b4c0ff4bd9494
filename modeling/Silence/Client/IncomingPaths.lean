import Silence.Client.IncomingFiles

/-!
# Silence.Client.IncomingPaths

Where the files lie that a client opens and writes for the frames that it gets.

The name of a file comes from its sender. It is appended to the directory of the user
without being looked at, so a name that climbs leads out of the directory. Only the
notification opens files: a chunk goes to a path that is open (`openInside_handle`), so
a run stays inside exactly if the names of its notifications do (`insideRun_iff`).
-/

namespace Silence.Client

open Silence.Lib Silence.Lib.Effect
open FileServer (position moves slash isAbsolute)
open Server (Json)

/-! ### Accesses -/

/-- The paths that are opened or written for a frame. -/
def State.accessed (client : State) : IncomingFrame → List Bytes
  | .notification filename => [client.pathOf filename]
  | .fileChunk chunk => (client.incomingFiles.find? chunk.filename).toList

/-- The paths that are opened or written for a message. -/
def State.accessedBy (client : State) (message : Json) : List Bytes :=
  match frameOf message with
  | none => []
  | some frame => client.accessed frame

/-- The path lies in the directory, for a process that works in `cwd`. -/
def Inside (cwd : List Bytes) (directory path : Bytes) : Prop :=
  position cwd directory <+: position cwd (cString path)

/-- The client after a message. -/
def State.handleMessage (system : Crypto.HybridCryptoSystem) (client : State) (message : Json) :
    State :=
  (exec (dispatchMessage system message) client).2

/-- Whatever is opened or written in the run lies in the directory of the user. -/
def InsideRun (cwd : List Bytes) (system : Crypto.HybridCryptoSystem) : State → List Json → Prop
  | _, [] => True
  | client, message :: messages =>
      (∀ path ∈ client.accessedBy message, Inside cwd client.userFilesDir path) ∧
        InsideRun cwd system (client.handleMessage system message) messages

/-- A client as it is started: its directory is a path, and no file is open. -/
structure State.Starts (client : State) : Prop where
  nonempty : client.userFilesDir ≠ []
  nonzero : 0 ∉ client.userFilesDir
  closed : ∀ name, client.incomingFiles.find? name = none

/-- The name descends by all the names of the directory that it has climbed. -/
def StaysInUserFiles (directory : List Bytes) (filename : String) : Prop :=
  directory.drop (directory.length - (normal (moves (cString (bytesOf filename)))).ups) <+:
    (normal (moves (cString (bytesOf filename)))).names

instance (directory : List Bytes) (filename : String) :
    Decidable (StaysInUserFiles directory filename) :=
  inferInstanceAs (Decidable (_ <+: _))

/-! ### The paths of names -/

/-- The name continues the path of the directory, even where it begins with a slash. -/
theorem position_pathOf (cwd : List Bytes) {client : State} (hstart : client.userFilesDir ≠ [])
    (hnonzero : 0 ∉ client.userFilesDir) (filename : String) :
    position cwd (cString (client.pathOf filename)) =
      walk (position cwd client.userFilesDir) (moves (cString (bytesOf filename))) := by
  have hslash : bytesOf "/" = [slash] := by decide
  have hfront : 0 ∉ client.userFilesDir ++ [slash] := by
    intro hzero
    rcases List.mem_append.mp hzero with hdir | hlast
    · exact hnonzero hdir
    · exact absurd hlast (by decide)
  have hpath : cString (client.pathOf filename) =
      client.userFilesDir ++ slash :: cString (bytesOf filename) := by
    rw [State.pathOf, hslash, cString_append hfront, List.append_assoc]
    rfl
  rw [hpath, position, position, FileServer.isAbsolute_append hstart, FileServer.moves_append_slash,
    walk_append]

theorem inside_pathOf_iff (cwd : List Bytes) {client : State} (hstart : client.userFilesDir ≠ [])
    (hnonzero : 0 ∉ client.userFilesDir) (filename : String) :
    Inside cwd client.userFilesDir (client.pathOf filename) ↔
      StaysInUserFiles (position cwd client.userFilesDir) filename := by
  unfold Inside StaysInUserFiles
  rw [position_pathOf cwd hstart hnonzero]
  exact prefix_walk_iff _ _

/-! ### What a message changes -/

/-- The files of two clients are the same. -/
structure State.SameFiles (client client' : State) : Prop where
  files : client'.files = client.files
  incomingFiles : client'.incomingFiles = client.incomingFiles
  userFilesDir : client'.userFilesDir = client.userFilesDir

theorem State.SameFiles.refl (client : State) : client.SameFiles client := ⟨rfl, rfl, rfl⟩

/-- A message that is no frame of a file leaves the files alone. -/
theorem sameFiles_of_noFrame {message : Json} (h : frameOf message = none)
    (system : Crypto.HybridCryptoSystem) (client : State) :
    client.SameFiles (client.handleMessage system message) := by
  have hkeeps : Preserves client.SameFiles (dispatchMessage system message) := by
    refine preserves_attempt_bind fun type htype => ?_
    unfold frameOf at h
    rw [mapError_eq_ok.mp htype] at h
    dsimp only at h
    refine triple_ite (fun _ => ?_) fun _ => triple_ite (fun hfile => ?_) fun hnotFile =>
      triple_ite (fun hchunk => ?_) fun _ => ?_
    · refine preserves_attempt_bind fun status _ => triple_ite (fun _ => ?_) fun _ => ?_
      · exact preserves_modify fun _ hsame => ⟨hsame.files, hsame.incomingFiles, hsame.userFilesDir⟩
      · exact preserves_attempt_bind fun _ _ => preserves_pure _
    · -- the notification cannot be read, so its handler throws
      rw [if_pos hfile] at h
      intro client' hsame
      rw [exec_handleIncomingFile]
      cases hread : readNotification message with
      | error e => exact hsame
      | ok filename =>
          rw [hread] at h
          cases h
    · rw [if_neg hnotFile, if_pos hchunk] at h
      intro client' hsame
      rw [exec_handleIncomingFileChunk]
      cases hread : readFileChunk message with
      | error e => exact hsame
      | ok chunk =>
          rw [hread] at h
          cases h
    · refine triple_ite (fun _ => ?_) fun _ => triple_ite (fun _ => ?_) fun _ => preserves_pure _
      · exact preserves_receiveUserPublicKeys message fun _ _ _ hsame =>
          ⟨hsame.files, hsame.incomingFiles, hsame.userFilesDir⟩
      · exact preserves_receiveAesKey system message fun _ _ _ hsame =>
          ⟨hsame.files, hsame.incomingFiles, hsame.userFilesDir⟩
  exact hkeeps.exec_snd (State.SameFiles.refl client)

theorem handleMessage_of_frame {message : Json} {frame : IncomingFrame}
    (h : frameOf message = some frame) (system : Crypto.HybridCryptoSystem) (client : State) :
    client.handleMessage system message = client.receive frame := by
  rw [State.handleMessage, exec_dispatchMessage_frame h]

theorem userFilesDir_receive (client : State) (frame : IncomingFrame) :
    (client.receive frame).userFilesDir = client.userFilesDir := by
  cases frame with
  | notification filename => rfl
  | fileChunk chunk =>
      cases hopen : client.incomingFiles.find? chunk.filename with
      | none => rw [receive_of_closed hopen]
      | some path =>
          rw [receive_of_open hopen]
          split <;> rfl

theorem userFilesDir_handleMessage (system : Crypto.HybridCryptoSystem) (client : State)
    (message : Json) :
    (client.handleMessage system message).userFilesDir = client.userFilesDir := by
  cases hframe : frameOf message with
  | none => exact (sameFiles_of_noFrame hframe system client).userFilesDir
  | some frame => rw [handleMessage_of_frame hframe, userFilesDir_receive]

/-- The files that are open after a frame were open before, or their name is announced. -/
theorem find?_receive {client : State} {frame : IncomingFrame} {name : String} {path : Bytes}
    (h : (client.receive frame).incomingFiles.find? name = some path) :
    client.incomingFiles.find? name = some path ∨ path ∈ client.accessed frame := by
  cases frame with
  | notification filename =>
      rw [show (client.receive (.notification filename)).incomingFiles =
        client.incomingFiles.insert filename (client.pathOf filename) from rfl,
        OrdMap.find?_insert] at h
      split at h
      · exact .inr (List.mem_singleton.mpr (Option.some.inj h).symm)
      · exact .inl h
  | fileChunk chunk =>
      refine .inl ?_
      cases hopen : client.incomingFiles.find? chunk.filename with
      | none =>
          rw [receive_of_closed hopen] at h
          exact h
      | some path' =>
          rw [receive_of_open hopen] at h
          split at h
          · rw [show ((client.writeChunk path' chunk.filename chunk.chunkData
              chunk.chunkNumber).closeFile chunk.filename).incomingFiles =
                client.incomingFiles.eraseFirst fun entry => entry.1 = chunk.filename from rfl,
              OrdMap.find?_eraseFirst_key] at h
            split at h
            · cases h
            · exact h
          · exact h

/-- Nothing but the accessed paths is written. -/
theorem files_handleMessage (system : Crypto.HybridCryptoSystem) (client : State) (message : Json)
    {path : Bytes} (hpath : path ∉ client.accessedBy message) :
    (client.handleMessage system message).files path = client.files path := by
  unfold State.accessedBy at hpath
  cases hframe : frameOf message with
  | none => rw [(sameFiles_of_noFrame hframe system client).files]
  | some frame =>
      rw [hframe] at hpath
      rw [handleMessage_of_frame hframe]
      cases frame with
      | notification filename =>
          have hne : path ≠ client.pathOf filename := fun hsame =>
            hpath (List.mem_singleton.mpr hsame)
          exact Function.update_of_ne hne _ _
      | fileChunk chunk =>
          cases hopen : client.incomingFiles.find? chunk.filename with
          | none => rw [receive_of_closed hopen]
          | some path' =>
              have hne : path ≠ path' := by
                intro hsame
                refine hpath ?_
                show path ∈ (client.incomingFiles.find? chunk.filename).toList
                rw [hopen, hsame]
                exact List.mem_singleton.mpr rfl
              rw [receive_of_open hopen]
              split
              · exact Function.update_of_ne hne _ _
              · exact Function.update_of_ne hne _ _

/-! ### Runs -/

/-- The open files lie in the directory. -/
def OpenInside (cwd : List Bytes) (client : State) : Prop :=
  ∀ name path, client.incomingFiles.find? name = some path → Inside cwd client.userFilesDir path

/-- What is opened inside stays inside. -/
theorem openInside_handle {cwd : List Bytes} {system : Crypto.HybridCryptoSystem} {client : State}
    {message : Json} (h : OpenInside cwd client)
    (haccessed : ∀ path ∈ client.accessedBy message, Inside cwd client.userFilesDir path) :
    OpenInside cwd (client.handleMessage system message) := by
  intro name path hfind
  rw [userFilesDir_handleMessage]
  unfold State.accessedBy at haccessed
  cases hframe : frameOf message with
  | none =>
      rw [(sameFiles_of_noFrame hframe system client).incomingFiles] at hfind
      exact h name path hfind
  | some frame =>
      rw [hframe] at haccessed
      rw [handleMessage_of_frame hframe] at hfind
      rcases find?_receive hfind with hbefore | hnew
      · exact h name path hbefore
      · exact haccessed path hnew

/-- A message stays inside exactly if the name does that it announces. -/
theorem accessed_inside_iff {cwd : List Bytes} {client : State} (hopen : OpenInside cwd client)
    (hdir : client.userFilesDir ≠ []) (hnonzero : 0 ∉ client.userFilesDir) (message : Json) :
    (∀ path ∈ client.accessedBy message, Inside cwd client.userFilesDir path) ↔
      ∀ filename, frameOf message = some (.notification filename) →
        StaysInUserFiles (position cwd client.userFilesDir) filename := by
  unfold State.accessedBy
  cases hframe : frameOf message with
  | none => simp
  | some frame =>
      cases frame with
      | notification filename =>
          simp [State.accessed, inside_pathOf_iff cwd hdir hnonzero]
      | fileChunk chunk =>
          refine iff_of_true ?_ (by simp)
          intro path hpath
          exact hopen chunk.filename path (Option.mem_toList.mp hpath)

theorem insideRun_of_open {cwd : List Bytes} {system : Crypto.HybridCryptoSystem} {client : State}
    (hopen : OpenInside cwd client) (hdir : client.userFilesDir ≠ [])
    (hnonzero : 0 ∉ client.userFilesDir) (messages : List Json) :
    InsideRun cwd system client messages ↔
      ∀ message ∈ messages, ∀ filename, frameOf message = some (.notification filename) →
        StaysInUserFiles (position cwd client.userFilesDir) filename := by
  induction messages generalizing client with
  | nil => simp [InsideRun]
  | cons message messages ih =>
      have hsame := userFilesDir_handleMessage system client message
      rw [InsideRun, List.forall_mem_cons, ← accessed_inside_iff hopen hdir hnonzero]
      refine and_congr_right fun haccessed => ?_
      have hnext := ih (openInside_handle hopen haccessed) (hsame.symm ▸ hdir)
        (hsame.symm ▸ hnonzero)
      rwa [hsame] at hnext

/-- All that a client opens and writes lies in the directory of its user if and only if the
announced names do not leave it. -/
theorem insideRun_iff (cwd : List Bytes) (system : Crypto.HybridCryptoSystem) {client : State}
    (hstarts : client.Starts) (messages : List Json) :
    InsideRun cwd system client messages ↔
      ∀ message ∈ messages, ∀ filename, frameOf message = some (.notification filename) →
        StaysInUserFiles (position cwd client.userFilesDir) filename := by
  refine insideRun_of_open ?_ hstarts.nonempty hstarts.nonzero messages
  intro name path hfind
  rw [hstarts.closed] at hfind
  cases hfind

/-! ### A name that climbs -/

/-- The directory of the client is `user_files`. -/
theorem idleReceiver_starts : idleReceiver.client.Starts :=
  ⟨by decide, by decide, fun _ => rfl⟩

/-- The file is opened beside the directory. -/
theorem climbingName_outside :
    (idleReceiver.client.handleMessage anySystem (notificationMessage "../a")).files
        (bytesOf "user_files/../a") = some [] ∧
      position [] (cString (bytesOf "user_files/../a")) = [bytesOf "a"] ∧
      ¬ InsideRun [] anySystem idleReceiver.client [notificationMessage "../a"] := by
  refine ⟨?_, by decide, ?_⟩
  · have hframe : frameOf (notificationMessage "../a") = some (.notification "../a") := rfl
    have hpath : idleReceiver.client.pathOf "../a" = bytesOf "user_files/../a" := by decide
    rw [handleMessage_of_frame hframe, ← hpath]
    exact Function.update_self (idleReceiver.client.pathOf "../a") (some [])
      idleReceiver.client.files
  · rw [insideRun_iff [] anySystem idleReceiver_starts]
    intro h
    exact absurd (h _ (List.mem_singleton.mpr rfl) "../a" rfl) (by decide)

/-- A name below the directory, and a chunk for it. -/
theorem plainName_inside :
    InsideRun [] anySystem idleReceiver.client
      [notificationMessage "a/../b", chunkMessage "a/../b" "x" 0 true] := by
  refine (insideRun_iff [] anySystem idleReceiver_starts _).mpr ?_
  intro message hmessage filename hframe
  rcases List.mem_cons.mp hmessage with rfl | hchunk
  · obtain rfl : "a/../b" = filename := by
      have hname : frameOf (notificationMessage "a/../b") = some (.notification "a/../b") := rfl
      rw [hname] at hframe
      exact IncomingFrame.notification.inj (Option.some.inj hframe)
    decide
  · obtain rfl := List.mem_singleton.mp hchunk
    have hnot : frameOf (chunkMessage "a/../b" "x" 0 true) =
        some (.fileChunk ⟨"a/../b", "x", 0, true⟩) := rfl
    rw [hnot] at hframe
    cases hframe

end Silence.Client
