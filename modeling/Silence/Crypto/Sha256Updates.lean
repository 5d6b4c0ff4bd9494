import Silence.Crypto.Sha256

/-!
# Silence.Crypto.Sha256Updates

How the calls of `update` and `digest` on one object combine.

A string that is split over several updates leaves the object as one update with
the whole string does (`update_update`), and `digest` leaves a new object. So an
object is, after any calls, the object that one update with everything since the
last `digest` makes of a new one.
-/

namespace Silence.Crypto.Sha256

section Updates

variable {σ : Type} (transform : σ → Block → σ)

/-- The loop of `update` neither reads nor writes `_total_length`. -/
theorem foldl_pushByte_totalLength (data : Bytes) (s : Object σ) (n : UInt64) :
    data.foldl (Object.pushByte transform) { s with totalLength := n } =
      { data.foldl (Object.pushByte transform) s with totalLength := n } := by
  induction data generalizing s with
  | nil => rfl
  | cons b data ih =>
      have hbyte : Object.pushByte transform { s with totalLength := n } b =
          { Object.pushByte transform s b with totalLength := n } := by
        unfold Object.pushByte
        dsimp only
        split
        · rfl
        · rfl
      rw [List.foldl_cons, List.foldl_cons, hbyte, ih]

/-- The lengths of two parts count as the length of the whole, also where they overflow. -/
theorem totalLength_append (n : UInt64) (a b : Bytes) :
    n + UInt64.ofNat a.length * 8 + UInt64.ofNat b.length * 8 =
      n + UInt64.ofNat (a ++ b).length * 8 := by
  rw [List.length_append, UInt64.ofNat_add, UInt64.add_mul, UInt64.add_assoc]

/-- The bytes are pushed, and the length is counted. -/
theorem update_eq_foldl (s : Object σ) (data : Bytes) :
    s.update transform data =
      { data.foldl (Object.pushByte transform) s with
        totalLength := s.totalLength + UInt64.ofNat data.length * 8 } :=
  foldl_pushByte_totalLength transform data s _

/-- Two updates are one. -/
theorem update_update (s : Object σ) (a b : Bytes) :
    (s.update transform a).update transform b = s.update transform (a ++ b) := by
  rw [update_eq_foldl transform s a, update_eq_foldl, foldl_pushByte_totalLength,
    update_eq_foldl transform s (a ++ b), List.foldl_append, ← totalLength_append]

/-- An update with nothing changes nothing. -/
theorem update_nil (s : Object σ) : s.update transform [] = s := by
  have hlength : s.totalLength + UInt64.ofNat ([] : Bytes).length * 8 = s.totalLength := by
    show s.totalLength + 0 * 8 = s.totalLength
    rw [UInt64.zero_mul, UInt64.add_zero]
  unfold Object.update
  rw [hlength]
  rfl

end Updates

/-- A call on an object. -/
inductive Call where
  | update (data : Bytes)
  | digest
  deriving DecidableEq, Repr

/-- The digests that a sequence of calls returns. -/
def digests : Object HashState → List Call → List Bytes
  | _, [] => []
  | s, .update data :: calls => digests (s.update transform data) calls
  | s, .digest :: calls => s.digest.1 :: digests s.digest.2 calls

/-- The strings that were passed to `update`, joined, for every call of `digest`: those since the
previous one. `before` has been passed already. -/
def messages (before : Bytes) : List Call → List Bytes
  | [] => []
  | .update data :: calls => messages (before ++ data) calls
  | .digest :: calls => before :: messages [] calls

/-- The invariant: the object has got `before` in one update. The induction is on the calls. -/
theorem digests_update (before : Bytes) (calls : List Call) :
    digests ((Object.new initialState).update transform before) calls =
      (messages before calls).map digestOf := by
  induction calls generalizing before with
  | nil => rfl
  | cons call calls ih =>
      cases call with
      | update data =>
          unfold digests messages
          rw [update_update, ih]
      | digest =>
          have hreset : ((Object.new initialState).update transform before).digest.2 =
              (Object.new initialState).update transform [] := (update_nil transform _).symm
          unfold digests messages
          rw [hreset, ih, List.map_cons, digestOf]

/-- Every digest is the one of a new object that gets, in a single update, all that was passed to
`update` since the previous digest. -/
theorem digests_eq (calls : List Call) :
    digests (Object.new initialState) calls = (messages [] calls).map digestOf := by
  have h := digests_update [] calls
  rwa [update_nil] at h

end Silence.Crypto.Sha256
