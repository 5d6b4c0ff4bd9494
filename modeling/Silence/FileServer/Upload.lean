import Silence.FileServer.FileServer

/-!
# Silence.FileServer.Upload

What one upload does to the files, seen through the names under which they are
stored.

`uploadFile_spec` describes the handler: what the name holds afterwards, when the
client is told that the upload succeeded, and that no other name is touched.
`uploadChunk_spec` carries this to the client's side.
-/

namespace Silence.FileServer

/-- What is stored under a name. A name with a slash is never a value of the route
parameter, so nothing is stored under it. -/
def State.stored (server : State) (filename : Bytes) : Bytes :=
  if slash ∈ filename then []
  else
    match filepathByName server.storageDir filename with
    | none => []
    | some path => server.content path

/-- A body may be added to a file of the given size. -/
def State.fits (server : State) (fileSize : Nat) (body : Bytes) : Bool :=
  decide (body.length ≤ chunkSizeBytes) && !server.overLimit fileSize body.length

/-- What a file contains after an upload. A body that does not fit, and one that
cannot be written, removes the file. -/
def State.contentAfter (server : State) (content body : Bytes) (disk : DiskOutcome) : Bytes :=
  if server.fits content.length body then
    match disk with
    | .written => content ++ body
    | .openFails => content
    | .writeFails => []
  else []

/-- The upload passes the checks of `upload_file`. -/
def State.accepts (server : State) (filename body : Bytes) : Bool :=
  isValidFilename filename && server.fits (server.stored filename).length body

/-- What is stored under a name after an upload to it. -/
def State.storedAfter (server : State) (filename body : Bytes) (disk : DiskOutcome) : Bytes :=
  if isValidFilename filename then server.contentAfter (server.stored filename) body disk
  else server.stored filename

/-! ### Reading after a change of one file -/

theorem stored_eq_content {server : State} {filename : Bytes} {path : Path}
    (hname : slash ∉ filename) (hpath : filepathByName server.storageDir filename = some path) :
    server.stored filename = server.content path := by
  rw [State.stored, if_neg hname, hpath]

@[simp] theorem content_remove_self (server : State) (path : Path) :
    (server.remove path).content path = [] := by
  simp [State.content, State.remove]

@[simp] theorem content_append_self (server : State) (path : Path) (body : Bytes) :
    (server.append path body).content path = server.content path ++ body := by
  simp [State.content, State.append]

/-- Two servers that differ in one file store the same under other names. -/
theorem stored_eq_of_ne {server server' : State} {filename other : Bytes} {path : Path}
    (hname : slash ∉ filename) (hpath : filepathByName server.storageDir filename = some path)
    (hdir : server'.storageDir = server.storageDir)
    (hfiles : ∀ p ≠ path, server'.files p = server.files p) (hne : other ≠ filename) :
    server'.stored other = server.stored other := by
  rw [State.stored, State.stored, hdir]
  split
  · rfl
  · rename_i hother
    cases hp : filepathByName server.storageDir other with
    | none => rfl
    | some p =>
        have hpne : p ≠ path := by
          rintro rfl
          exact hne (filepathByName_injective hother hname hp hpath)
        exact congrArg (·.getD []) (hfiles p hpne)

/-- Whatever the name, this answer is longer. -/
theorem unsupported_ne_successText (filename : Bytes) :
    bytesOf "File " ++ filename ++ unsupportedText ≠ successText := by
  intro h
  have hlen := congrArg List.length h
  have hlong : unsupportedText.length = 87 := by decide
  have hshort : successText.length = 26 := by decide
  rw [List.length_append, hlong, hshort] at hlen
  omega

theorem tooBig_ne_successText :
    bytesOf "Received raw data size is bigger than acceptable chunk size!" ≠ successText := by
  decide

theorem createFailed_ne_successText : bytesOf "Failed to create file" ≠ successText := by decide

theorem writeFailed_ne_successText : bytesOf "Failed to write file" ≠ successText := by decide

theorem overLimit_ne_successText (rest : Bytes) : bytesOf "Size of " ++ rest ≠ successText := by
  intro h
  have hhead := congrArg List.head? h
  rw [List.head?_append, show (bytesOf "Size of ").head? = some 0x53 by decide,
    Option.some_or] at hhead
  exact absurd hhead (by decide)

/-! ### The handler -/

/-- Handling the body changes only the file at the path, and tells of success
exactly if the body fits and is written. -/
theorem uploadBody_spec {server server' : State} {path : Path} {body : Bytes}
    {disk : DiskOutcome} {response : Response}
    (h : server.uploadBody path body disk = (response, server')) :
    decide (response.body = successText) =
        (server.fits (server.content path).length body && decide (disk = .written)) ∧
      server'.content path = server.contentAfter (server.content path) body disk ∧
      (∀ p ≠ path, server'.files p = server.files p) ∧
      server'.storageDir = server.storageDir := by
  -- every refusal removes the file at the path
  have hremove : ∀ p ≠ path, (server.remove path).files p = server.files p :=
    fun p hp => Function.update_of_ne hp _ _
  simp only [State.uploadBody] at h
  simp only [State.contentAfter, State.fits]
  split at h
  · rename_i hlen
    cases h
    refine ⟨?_, ?_, hremove, rfl⟩
    · simp [Nat.not_le.mpr hlen, tooBig_ne_successText]
    · simp [Nat.not_le.mpr hlen]
  · rename_i hlen
    have hfits : body.length ≤ chunkSizeBytes := Nat.not_lt.mp hlen
    split at h
    · rename_i hlimit
      cases h
      refine ⟨?_, ?_, hremove, rfl⟩
      · simp [hlimit, overLimit_ne_successText]
      · simp [hlimit]
    · rename_i hlimit
      cases disk with
      | written =>
          cases h
          refine ⟨?_, ?_, fun p hp => Function.update_of_ne hp _ _, rfl⟩
          · simp [hfits, hlimit]
          · simp [hfits, hlimit]
      | openFails =>
          cases h
          refine ⟨?_, ?_, fun _ _ => rfl, rfl⟩
          · simp [createFailed_ne_successText]
          · simp [hfits, hlimit]
      | writeFails =>
          cases h
          refine ⟨?_, ?_, hremove, rfl⟩
          · simp [writeFailed_ne_successText]
          · simp [hfits, hlimit]

/-- An upload under a valid name handles the body at the path of the name. -/
theorem uploadFile_of_valid {server : State} {filename : Bytes}
    (hvalid : isValidFilename filename = true) {path : Path}
    (hpath : filepathByName server.storageDir filename = some path) :
    ∃ dirs, directoriesPath server.storageDir filename = some dirs ∧
      ∀ body disk, server.uploadFile filename body disk =
        some (((server.createDirectories dirs).getMutex path).uploadBody path body disk) := by
  obtain ⟨dirs, hdirs, rfl⟩ : ∃ dirs, directoriesPath server.storageDir filename = some dirs ∧
      join dirs filename = path := by
    simpa [filepathByName, Option.bind_eq_some_iff] using hpath
  refine ⟨dirs, hdirs, fun body disk => ?_⟩
  rw [State.uploadFile, State.getFilepathByName, hdirs, hvalid]
  rfl

/-- `upload_file` always answers. It tells of success exactly if the upload passes
the checks and is written, and it touches no other name. -/
theorem uploadFile_spec (server : State) {filename : Bytes} (hname : slash ∉ filename)
    (body : Bytes) (disk : DiskOutcome) :
    ∃ response server', server.uploadFile filename body disk = some (response, server') ∧
      decide (response.body = successText) =
        (server.accepts filename body && decide (disk = .written)) ∧
      server'.stored filename = server.storedAfter filename body disk ∧
      ∀ other ≠ filename, server'.stored other = server.stored other := by
  by_cases hvalid : isValidFilename filename
  · obtain ⟨path, hpath⟩ := exists_filepathByName hvalid server.storageDir
    obtain ⟨dirs, -, hupload⟩ := uploadFile_of_valid hvalid hpath
    rcases hbody : ((server.createDirectories dirs).getMutex path).uploadBody path body disk with
      ⟨response, server'⟩
    -- creating the directories and the mutex leaves the files alone
    obtain ⟨hanswer, hcontent, hfiles, hdir⟩ := uploadBody_spec hbody
    have hstored := stored_eq_content hname hpath
    refine ⟨response, server', ?_, ?_, ?_,
      fun other hne => stored_eq_of_ne hname hpath hdir hfiles hne⟩
    · exact (hupload body disk).trans (congrArg some hbody)
    · rw [hanswer, State.accepts, hvalid, hstored]
      rfl
    · rw [stored_eq_content hname (by rwa [hdir]), hcontent, State.storedAfter, if_pos hvalid,
        hstored]
      rfl
  · refine ⟨⟨.badRequest, bytesOf "File " ++ filename ++ unsupportedText⟩, server, ?_, ?_, ?_,
      fun _ _ => rfl⟩
    · simp [State.uploadFile, hvalid]
    · simpa [State.accepts, hvalid] using unsupported_ne_successText filename
    · simp [State.storedAfter, hvalid]

/-! ### The client -/

/-- What the client is told of an upload that was handled, and what is stored
then. -/
theorem uploadChunk_spec {server server' : State} {exchange : Exchange} {param : RouteParam}
    {chunkData : Bytes} {success : Bool} (hparam : exchange.handledAs = some param)
    (h : uploadChunk server chunkData exchange = (success, server')) :
    success = (exchange.answered &&
        (server.accepts param.name chunkData && decide (exchange.disk = .written))) ∧
      server'.stored param.name = server.storedAfter param.name chunkData exchange.disk ∧
      ∀ other ≠ param.name, server'.stored other = server.stored other := by
  obtain ⟨response, server'', hupload, hanswer, hstored, hframe⟩ :=
    uploadFile_spec server param.oneSegment chunkData exchange.disk
  rw [uploadChunk, hparam] at h
  simp only [hupload, Prod.mk.injEq] at h
  obtain ⟨hsuccess, rfl⟩ := h
  refine ⟨?_, hstored, hframe⟩
  rw [← hsuccess, hanswer]

/-- The content changes when, and only when, the client is told so: an upload that is
handled concerns the file itself, what is written is also answered, and a file that is
removed is empty. -/
def UploadKeeps (server : State) (filename body : Bytes) (exchange : Exchange) : Prop :=
  ∀ param, exchange.handledAs = some param → isValidFilename param.name →
    param.name = filename ∧
      if server.fits (server.stored filename).length body then
        (exchange.disk = .written → exchange.answered = true ∨ body = []) ∧
          (exchange.disk = .writeFails → server.stored filename = [])
      else server.stored filename = []

/-- Then the content grows by the chunk if the client is told of success, and stays as
it is otherwise. -/
theorem uploadChunk_keeps {server server' : State} {filename chunkData : Bytes}
    {exchange : Exchange} {success : Bool} (hkeeps : UploadKeeps server filename chunkData exchange)
    (h : uploadChunk server chunkData exchange = (success, server')) :
    server'.stored filename =
        (if success then server.stored filename ++ chunkData else server.stored filename) ∧
      ∀ other ≠ filename, server'.stored other = server.stored other := by
  cases hparam : exchange.handledAs with
  | none =>
      rw [uploadChunk, hparam] at h
      cases h
      exact ⟨rfl, fun _ _ => rfl⟩
  | some param =>
      obtain ⟨hsuccess, hstored, hframe⟩ := uploadChunk_spec hparam h
      by_cases hvalid : isValidFilename param.name = true
      · obtain ⟨rfl, hkeeps⟩ := hkeeps param hparam hvalid
        refine ⟨?_, hframe⟩
        rw [hstored, hsuccess, State.storedAfter, State.accepts, if_pos hvalid, hvalid]
        by_cases hfits : server.fits (server.stored param.name).length chunkData = true
        · rw [if_pos hfits] at hkeeps
          simp only [State.contentAfter, hfits]
          cases hdisk : exchange.disk with
          | written =>
              rcases hkeeps.1 hdisk with hanswered | hempty
              · simp [hanswered]
              · simp [hempty]
          | openFails => simp
          | writeFails => simp [hkeeps.2 hdisk]
        · rw [if_neg hfits] at hkeeps
          simp only [State.contentAfter, hfits]
          simp [hkeeps]
      · have hrejected : success = false := by simp [hsuccess, State.accepts, hvalid]
        -- an invalid name is refused before anything is stored
        have hsame : server'.stored param.name = server.stored param.name := by
          rw [hstored, State.storedAfter, if_neg hvalid]
        have hall : ∀ name, server'.stored name = server.stored name := by
          intro name
          by_cases hname : name = param.name
          · rw [hname, hsame]
          · exact hframe name hname
        rw [hrejected]
        exact ⟨hall filename, fun other _ => hall other⟩

/-! ### Uploads without an effect -/

/-- The client is told that its chunk is stored. -/
structure Exchange.Succeeds (exchange : Exchange) (server : State) (chunkData : Bytes) : Prop where
  answered : exchange.answered = true
  written : exchange.disk = .written
  accepted : ∃ param, exchange.handledAs = some param ∧ server.accepts param.name chunkData = true

/-- What is stored under the name stays: the upload is not handled under this name, or it
appends nothing, or it removes a file that is empty. -/
def Exchange.Spares (exchange : Exchange) (server : State) (name chunkData : Bytes) : Prop :=
  ∀ param, exchange.handledAs = some param → param.name = name → isValidFilename name = true →
    if server.fits (server.stored name).length chunkData then
      (exchange.disk = .written → chunkData = []) ∧
        (exchange.disk = .writeFails → server.stored name = [])
    else server.stored name = []

theorem uploadChunk_success_iff (server : State) (chunkData : Bytes) (exchange : Exchange) :
    (uploadChunk server chunkData exchange).1 = true ↔ exchange.Succeeds server chunkData := by
  rcases hupload : uploadChunk server chunkData exchange with ⟨success, server'⟩
  cases hparam : exchange.handledAs with
  | none =>
      rw [uploadChunk, hparam] at hupload
      cases hupload
      refine iff_of_false Bool.false_ne_true fun hsucceeds => ?_
      obtain ⟨param, hhandled, -⟩ := hsucceeds.accepted
      rw [hparam] at hhandled
      cases hhandled
  | some param =>
      obtain ⟨rfl, -, -⟩ := uploadChunk_spec hparam hupload
      simp only [Bool.and_eq_true, decide_eq_true_iff]
      constructor
      · intro h
        obtain ⟨hanswered, haccepts, hwritten⟩ := h
        exact ⟨hanswered, hwritten, param, hparam, haccepts⟩
      · intro hsucceeds
        obtain ⟨param', hhandled, haccepts⟩ := hsucceeds.accepted
        rw [hparam, Option.some.injEq] at hhandled
        subst hhandled
        exact ⟨hsucceeds.answered, haccepts, hsucceeds.written⟩

end Silence.FileServer
