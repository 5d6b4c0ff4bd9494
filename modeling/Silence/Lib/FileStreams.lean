import Mathlib.Data.List.Basic
import Mathlib.Logic.Function.Basic

/-!
# Silence.Lib.FileStreams

Files, and streams that write to them.

A stream has a name, and writes to the file at its location from its own offset on. Two
streams may have one location; then they overwrite each other. What one command does to
the other streams and files is said beside it.
-/

namespace Silence.Lib

/-- A stream that is open for writing. -/
structure OutputStream (L : Type*) where
  location : L
  offset : Nat
  deriving DecidableEq, Repr

/-- The contents of the files, by their locations, and the open streams, by their names. -/
structure FileSystem (L N : Type*) where
  content : L → Option (List UInt8)
  stream : N → Option (OutputStream L)

/-- A content with data written from an offset on; a gap is filled with zeros. -/
def overwrite (content : List UInt8) (offset : Nat) (data : List UInt8) : List UInt8 :=
  content.take offset ++ List.replicate (offset - content.length) 0 ++ data ++
    content.drop (offset + data.length)

/-- Writing at the end appends. -/
@[simp] theorem overwrite_length (content data : List UInt8) :
    overwrite content content.length data = content ++ data := by
  simp [overwrite]

namespace FileSystem

variable {L N : Type*} [DecidableEq L] [DecidableEq N] (fs : FileSystem L N)

/-- Open a stream, which empties its file; without a location this fails. A stream of the name that
was open is closed. -/
def openStream (name : N) (location : Option L) : FileSystem L N :=
  match location with
  | none => { fs with stream := Function.update fs.stream name none }
  | some l =>
      { content := Function.update fs.content l (some [])
        stream := Function.update fs.stream name (some ⟨l, 0⟩) }

/-- Write to a stream, if it is open. -/
def write (name : N) (data : List UInt8) : FileSystem L N :=
  match fs.stream name with
  | none => fs
  | some s =>
      { content := Function.update fs.content s.location
          (some (overwrite ((fs.content s.location).getD []) s.offset data))
        stream := Function.update fs.stream name (some ⟨s.location, s.offset + data.length⟩) }

def close (name : N) : FileSystem L N :=
  { fs with stream := Function.update fs.stream name none }

variable {fs} {name other : N} {l : L}

/-! ### Streams -/

@[simp] theorem stream_openStream (location : Option L) :
    (fs.openStream name location).stream name = location.map fun l => ⟨l, 0⟩ := by
  cases location <;> simp [openStream]

theorem stream_openStream_of_ne (h : other ≠ name) (location : Option L) :
    (fs.openStream name location).stream other = fs.stream other := by
  cases location <;> simp [openStream, h]

theorem stream_write (data : List UInt8) :
    (fs.write name data).stream name =
      (fs.stream name).map fun s => ⟨s.location, s.offset + data.length⟩ := by
  unfold write
  cases hstream : fs.stream name with
  | none => simp [hstream]
  | some s => simp

theorem stream_write_of_ne (h : other ≠ name) (data : List UInt8) :
    (fs.write name data).stream other = fs.stream other := by
  unfold write
  cases fs.stream name with
  | none => rfl
  | some s => simp [h]

omit [DecidableEq L] in
@[simp] theorem stream_close : (fs.close name).stream name = none := by simp [close]

omit [DecidableEq L] in
theorem stream_close_of_ne (h : other ≠ name) :
    (fs.close name).stream other = fs.stream other := by simp [close, h]

/-! ### Contents -/

@[simp] theorem content_openStream : (fs.openStream name (some l)).content l = some [] := by
  simp [openStream]

theorem content_openStream_of_ne {location : Option L} (h : location ≠ some l) :
    (fs.openStream name location).content l = fs.content l := by
  cases location with
  | none => rfl
  | some l' =>
      have hne : l ≠ l' := fun hsame => h (by rw [hsame])
      simp [openStream, hne]

/-- Writing to a stream at the end of its file appends. -/
theorem content_write {content : List UInt8} (hstream : fs.stream name = some ⟨l, content.length⟩)
    (hcontent : fs.content l = some content) (data : List UInt8) :
    (fs.write name data).content l = some (content ++ data) := by
  unfold write
  rw [hstream]
  simp [hcontent]

theorem content_write_of_ne (h : ∀ s, fs.stream name = some s → s.location ≠ l)
    (data : List UInt8) : (fs.write name data).content l = fs.content l := by
  unfold write
  cases hstream : fs.stream name with
  | none => rfl
  | some s => simp [(h s hstream).symm]

omit [DecidableEq L] in
@[simp] theorem content_close : (fs.close name).content l = fs.content l := rfl

end FileSystem

end Silence.Lib
