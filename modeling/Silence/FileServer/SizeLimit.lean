import Silence.FileServer.Upload
import Silence.Lib.Run
import Mathlib.Algebra.Group.Nat.Defs

/-!
# Silence.FileServer.SizeLimit

The limit on the size of a file, over every sequence of uploads.

`upload_file` compares the size of the file with `_max_file_size - raw_data_bytes`, a
difference of two values of `size_t`. Where the limit is below the size of the body the
difference wraps around and the check lets the body pass (`exceeds_of_not_covers`).
Bodies of more than one chunk are refused before, so a limit of at least one chunk is
always kept (`covers_of_chunkSize_le`).
-/

namespace Silence.FileServer

open Silence.Lib

/-- A request to `/upload/:filename`, and how the disk takes it. -/
structure UploadRequest where
  filename : Bytes
  body : Bytes
  disk : DiskOutcome

/-- The file server after a request; where `upload_file` throws, nothing has changed. -/
def State.receive (server : State) (request : UploadRequest) : State :=
  ((server.uploadFile request.filename request.body request.disk).map (·.2)).getD server

/-- The request comes to the size check of `upload_file`. -/
def UploadRequest.IsChecked (request : UploadRequest) : Prop :=
  isValidFilename request.filename = true ∧ request.body.length ≤ chunkSizeBytes

/-- The difference in the size check is the difference of the numbers. -/
def State.DifferenceExact (server : State) (rawDataBytes : Nat) : Prop :=
  ((server.maxFileSize - UInt64.ofNat rawDataBytes).toNat : Int) =
    server.maxFileSize.toNat - rawDataBytes

/-- The request leaves every file as it is, or within the limit, and the size check does
not wrap around. -/
structure StoresWithin (server : State) (request : UploadRequest) : Prop where
  exact : request.IsChecked → server.DifferenceExact request.body.length
  files : ∀ path content, (server.receive request).files path = some content →
    server.files path = some content ∨ content.length ≤ server.maxFileSize.toNat

/-- The condition: a body that comes to the size check is not larger than the limit. -/
def Covers (server : State) (request : UploadRequest) : Prop :=
  request.IsChecked → request.body.length ≤ server.maxFileSize.toNat

/-- No file is larger than the limit, apart from those that were there at the start and have
not changed. -/
def WithinLimit (start server : State) : Prop :=
  ∀ path content, server.files path = some content →
    start.files path = some content ∨ content.length ≤ start.maxFileSize.toNat

/-! ### The size check -/

theorem toNat_ofNat_chunk {n : Nat} (h : n ≤ chunkSizeBytes) : (UInt64.ofNat n).toNat = n := by
  have hsize : chunkSizeBytes = 512 := rfl
  rw [UInt64.toNat_ofNat']
  exact Nat.mod_eq_of_lt (by omega)

theorem toNat_sub_of_covered {limit : UInt64} {n : Nat} (hn : n ≤ chunkSizeBytes)
    (h : n ≤ limit.toNat) : (limit - UInt64.ofNat n).toNat = limit.toNat - n := by
  have hle : UInt64.ofNat n ≤ limit := by
    rw [UInt64.le_iff_toNat_le, toNat_ofNat_chunk hn]
    exact h
  rw [UInt64.toNat_sub_of_le _ _ hle, toNat_ofNat_chunk hn]

/-- A larger body takes the difference beyond all numbers of the limit's size. -/
theorem toNat_sub_of_wraps {limit : UInt64} {n : Nat} (hn : n ≤ chunkSizeBytes)
    (h : limit.toNat < n) : (limit - UInt64.ofNat n).toNat = 2 ^ 64 - n + limit.toNat := by
  have hsize : chunkSizeBytes = 512 := rfl
  rw [UInt64.toNat_sub, toNat_ofNat_chunk hn]
  exact Nat.mod_eq_of_lt (by omega)

theorem differenceExact_iff (server : State) {n : Nat} (hn : n ≤ chunkSizeBytes) :
    server.DifferenceExact n ↔ n ≤ server.maxFileSize.toNat := by
  unfold State.DifferenceExact
  by_cases h : n ≤ server.maxFileSize.toNat
  · rw [toNat_sub_of_covered hn h]
    omega
  · have hsize : chunkSizeBytes = 512 := rfl
    rw [toNat_sub_of_wraps hn (Nat.lt_of_not_le h)]
    omega

/-- A body that passes the check fits into the limit with the file. -/
theorem length_le_of_fits {server : State} {fileSize : Nat} {body : Bytes}
    (hcovered : body.length ≤ server.maxFileSize.toNat) (h : server.fits fileSize body = true) :
    fileSize + body.length ≤ server.maxFileSize.toNat := by
  simp only [State.fits, State.overLimit, Bool.and_eq_true, Bool.not_eq_true', decide_eq_true_iff,
    decide_eq_false_iff_not] at h
  obtain ⟨hchunk, hcheck⟩ := h
  rw [toNat_sub_of_covered hchunk hcovered] at hcheck
  omega

/-! ### One request -/

theorem files_of_remove {server : State} {filepath path : Path} {content : Bytes}
    (h : (server.remove filepath).files path = some content) :
    server.files path = some content := by
  have hfiles : (server.remove filepath).files path =
      if path = filepath then none else server.files path := Function.update_apply _ _ _ _
  rw [hfiles] at h
  split at h
  · cases h
  · exact h

/-- A body that is stored has passed the size check; otherwise the file stays or is removed. -/
theorem files_uploadBody (server : State) (filepath : Path) (body : Bytes) (disk : DiskOutcome) :
    (server.uploadBody filepath body disk).2.maxFileSize = server.maxFileSize ∧
      ∀ path content, (server.uploadBody filepath body disk).2.files path = some content →
        server.files path = some content ∨
          (server.fits (server.content path).length body = true ∧
            content = server.content path ++ body) := by
  unfold State.uploadBody
  simp only
  split
  · exact ⟨rfl, fun path content hcontent => .inl (files_of_remove hcontent)⟩
  · rename_i hchunk
    split
    · exact ⟨rfl, fun path content hcontent => .inl (files_of_remove hcontent)⟩
    · rename_i hlimit
      cases disk with
      | openFails => exact ⟨rfl, fun path content hcontent => .inl hcontent⟩
      | writeFails => exact ⟨rfl, fun path content hcontent => .inl (files_of_remove hcontent)⟩
      | written =>
          refine ⟨rfl, fun path content hcontent => ?_⟩
          by_cases hpath : path = filepath
          · subst hpath
            refine .inr ⟨?_, ?_⟩
            · simp [State.fits, Nat.not_lt.mp hchunk, hlimit]
            · simp only [State.append, Function.update_self, Option.some.injEq] at hcontent
              exact hcontent.symm
          · left
            rw [← hcontent]
            exact (Function.update_of_ne hpath _ _).symm

/-- What one request leaves at a path. -/
theorem files_receive (server : State) (request : UploadRequest) :
    (server.receive request).maxFileSize = server.maxFileSize ∧
      ∀ path content, (server.receive request).files path = some content →
        server.files path = some content ∨
          (isValidFilename request.filename = true ∧
            server.fits (server.content path).length request.body = true ∧
            content = server.content path ++ request.body) := by
  unfold State.receive
  by_cases hvalid : isValidFilename request.filename = true
  · obtain ⟨filepath, hfilepath⟩ := exists_filepathByName hvalid server.storageDir
    obtain ⟨dirs, -, hupload⟩ := uploadFile_of_valid hvalid hfilepath
    -- the directories and the mutex change neither the files nor the limit
    obtain ⟨hlimit, hfiles⟩ := files_uploadBody ((server.createDirectories dirs).getMutex filepath)
      filepath request.body request.disk
    rw [hupload, Option.map_some, Option.getD_some]
    refine ⟨hlimit, fun path content hcontent => ?_⟩
    rcases hfiles path content hcontent with hsame | ⟨hfits, hcontent'⟩
    · exact .inl hsame
    · exact .inr ⟨hvalid, hfits, hcontent'⟩
  · refine ⟨?_, ?_⟩
    · simp [State.uploadFile, hvalid]
    · intro path content hcontent
      left
      simpa [State.uploadFile, hvalid] using hcontent

@[simp] theorem maxFileSize_receive (server : State) (request : UploadRequest) :
    (server.receive request).maxFileSize = server.maxFileSize := (files_receive server request).1

/-- A request stores within the limit exactly if its body is covered by it. -/
theorem storesWithin_iff (server : State) (request : UploadRequest) :
    StoresWithin server request ↔ Covers server request := by
  constructor
  · intro hwithin hchecked
    exact (differenceExact_iff server hchecked.2).mp (hwithin.exact hchecked)
  · intro hcovers
    refine ⟨fun hchecked => (differenceExact_iff server hchecked.2).mpr (hcovers hchecked), ?_⟩
    intro path content hcontent
    rcases (files_receive server request).2 path content hcontent with hsame | ⟨hvalid, hfits, rfl⟩
    · exact .inl hsame
    · right
      have hchunk : request.body.length ≤ chunkSizeBytes := by
        rw [State.fits, Bool.and_eq_true] at hfits
        exact of_decide_eq_true hfits.1
      rw [List.length_append]
      exact length_le_of_fits (hcovers ⟨hvalid, hchunk⟩) hfits

/-- A limit of at least one chunk covers every request. -/
theorem covers_of_chunkSize_le {server : State}
    (h : chunkSizeBytes ≤ server.maxFileSize.toNat) (request : UploadRequest) :
    Covers server request := fun hchecked => Nat.le_trans hchecked.2 h

/-- A body that is not covered passes the check, and with it the file is above the limit. -/
theorem exceeds_of_not_covers {server : State} {request : UploadRequest}
    (hcovers : ¬ Covers server request) (hdisk : request.disk = .written) {path : Path}
    (hpath : filepathByName server.storageDir request.filename = some path)
    (hsize : (server.content path).length ≤ 2 ^ 64 - chunkSizeBytes) :
    (server.receive request).files path = some (server.content path ++ request.body) ∧
      server.maxFileSize.toNat < (server.content path ++ request.body).length := by
  obtain ⟨⟨hvalid, hchunk⟩, hlarge⟩ := Classical.not_imp.mp hcovers
  replace hlarge := Nat.lt_of_not_le hlarge
  obtain ⟨dirs, -, hupload⟩ := uploadFile_of_valid hvalid hpath
  have hpasses : server.overLimit (server.content path).length request.body.length = false := by
    refine decide_eq_false ?_
    rw [toNat_sub_of_wraps hchunk hlarge]
    omega
  refine ⟨?_, ?_⟩
  · rw [State.receive, hupload, hdisk]
    show (((server.createDirectories dirs).getMutex path).uploadBody path request.body
      .written).2.files path = _
    unfold State.uploadBody
    simp only
    rw [if_neg (Nat.not_lt.mpr hchunk)]
    show (if server.overLimit (server.content path).length request.body.length = true then _
      else _ : Response × State).2.files path = _
    rw [hpasses]
    exact Function.update_self path _ _
  · rw [List.length_append]
    omega

/-! ### Every sequence of requests -/

theorem WithinLimit.step {start server : State} (h : WithinLimit start server)
    (hlimit : server.maxFileSize = start.maxFileSize) {request : UploadRequest}
    (hcovers : Covers server request) : WithinLimit start (server.receive request) := by
  intro path content hcontent
  rcases ((storesWithin_iff server request).mpr hcovers).files path content hcontent with
    hsame | hsmall
  · exact h path content hsame
  · right
    rw [← hlimit]
    exact hsmall

/-- In every run in which the bodies that come to the size check are not larger than the limit,
no file is stored above it, and the next request is checked and stored rightly if and only if
its body is not larger either. -/
theorem files_within_limit {start server : State} {history : List (UploadRequest × State)}
    (hrun : Run State.receive Covers start history server) :
    WithinLimit start server ∧
      ∀ request, StoresWithin server request ↔ Covers server request := by
  refine ⟨?_, storesWithin_iff server⟩
  have hkept : WithinLimit start server ∧ server.maxFileSize = start.maxFileSize := by
    refine hrun.invariant (I := fun _ s => WithinLimit start s ∧
      s.maxFileSize = start.maxFileSize) ?_ ?_
    · exact ⟨fun path content hcontent => .inl hcontent, rfl⟩
    · intro history s request hkept hcovers
      obtain ⟨hwithin, hlimit⟩ := hkept
      exact ⟨hwithin.step hlimit hcovers, (maxFileSize_receive s request).trans hlimit⟩
  exact hkept.1

/-! ### A limit of one byte -/

/-- A new file server with a limit of one byte. -/
def oneByteLimit : State := { State.fresh with maxFileSize := 1 }

/-- An upload of two bytes. -/
def twoBytes : UploadRequest := ⟨bytesOf "ABCDEF1234567890", [0, 0], .written⟩

/-- The two bytes are stored: the size check compares with `2 ^ 64 - 1`. -/
theorem twoBytes_stored :
    Run State.receive (fun _ _ => True) oneByteLimit [(twoBytes, oneByteLimit.receive twoBytes)]
        (oneByteLimit.receive twoBytes) ∧
      ¬ WithinLimit oneByteLimit (oneByteLimit.receive twoBytes) ∧
      ¬ StoresWithin oneByteLimit twoBytes := by
  have hcovers : ¬ Covers oneByteLimit twoBytes := by
    intro hcovers
    exact absurd (hcovers ⟨by decide, by decide⟩) (by decide)
  have hvalid : isValidFilename twoBytes.filename := by decide
  obtain ⟨path, hpath⟩ := exists_filepathByName hvalid oneByteLimit.storageDir
  obtain ⟨hfile, hlarge⟩ := exceeds_of_not_covers hcovers rfl hpath (Nat.zero_le _)
  refine ⟨.snoc twoBytes .nil trivial, ?_, fun h => hcovers ((storesWithin_iff _ _).mp h)⟩
  intro hwithin
  rcases hwithin path _ hfile with hstart | hsmall
  · cases hstart
  · omega

/-- One byte is within the limit. -/
theorem files_within_limit_oneByte :
    let request : UploadRequest := { twoBytes with body := [0] }
    WithinLimit oneByteLimit (oneByteLimit.receive request) ∧
      ∀ next, StoresWithin (oneByteLimit.receive request) next ↔
        Covers (oneByteLimit.receive request) next :=
  files_within_limit (.snoc { twoBytes with body := [0] } .nil fun _ => Nat.le_refl 1)

end Silence.FileServer
