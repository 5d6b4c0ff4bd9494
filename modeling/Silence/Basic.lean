import Mathlib.Init

/-!
# Silence.Basic

The representations shared by all models of the repository.
-/

namespace Silence

/-- A `std::string` (or a `std::vector<uint8_t>`): any bytes, of any length. -/
abbrev Bytes := List UInt8

/-- The bytes of a text. -/
def bytesOf (text : String) : Bytes := text.toUTF8.data.toList

theorem bytesOf_injective : Function.Injective bytesOf := fun _ _ h =>
  String.toByteArray_inj.mp (ByteArray.ext (Array.toList_inj.mp h))

theorem bytesOf_append (s t : String) : bytesOf (s ++ t) = bytesOf s ++ bytesOf t := by
  simp [bytesOf]

theorem bytesOf_ofList_eq (cs : List Char) :
    bytesOf (String.ofList cs) = cs.flatMap String.utf8EncodeChar := by
  rw [bytesOf]
  simp [List.utf8Encode]

/-- The only byte below 128 of a character is its own code. -/
theorem toNat_eq_of_mem_utf8EncodeChar {c : Char} {b : UInt8} (h : b ∈ String.utf8EncodeChar c)
    (hb : b.toNat < 128) : b.toNat = c.toNat := by
  have hc : c.toNat = c.val.toNat := rfl
  have hofNat : ∀ n < 256, (UInt8.ofNat n).toNat = n := fun n hn => by
    rw [UInt8.toNat_ofNat', Nat.mod_eq_of_lt hn]
  unfold String.utf8EncodeChar at h
  dsimp only at h
  split at h
  · rw [List.mem_singleton.mp h, hofNat _ (by omega), hc]
  · split at h
    · simp only [List.mem_cons, List.not_mem_nil, or_false] at h
      rcases h with rfl | rfl <;> rw [hofNat _ (by omega)] at hb <;> omega
    · split at h
      · simp only [List.mem_cons, List.not_mem_nil, or_false] at h
        rcases h with rfl | rfl | rfl <;> rw [hofNat _ (by omega)] at hb <;> omega
      · simp only [List.mem_cons, List.not_mem_nil, or_false] at h
        rcases h with rfl | rfl | rfl | rfl <;> rw [hofNat _ (by omega)] at hb <;> omega

theorem utf8EncodeChar_ascii {b : UInt8} (h : b.toNat < 128) :
    String.utf8EncodeChar (Char.ofNat b.toNat) = [b] := by
  have hall : ∀ i : Fin 128, String.utf8EncodeChar (Char.ofNat i.val) = [UInt8.ofNat i.val] := by
    decide
  rw [hall ⟨b.toNat, h⟩, UInt8.ofNat_toNat]

/-- The text of ASCII characters has their codes as its bytes. -/
theorem bytesOf_ofList {bs : Bytes} (h : ∀ b ∈ bs, b.toNat < 128) :
    bytesOf (String.ofList (bs.map fun b => Char.ofNat b.toNat)) = bs := by
  have hflat : (bs.map fun b => Char.ofNat b.toNat).flatMap String.utf8EncodeChar = bs := by
    rw [List.flatMap_map]
    induction bs with
    | nil => rfl
    | cons b bs ih =>
        obtain ⟨hb, hbs⟩ := List.forall_mem_cons.mp h
        rw [List.flatMap_cons, utf8EncodeChar_ascii hb, ih hbs]
        rfl
  rw [bytesOf_ofList_eq, hflat]

/-- The bytes are well-formed UTF-8. -/
def ValidUtf8 (bytes : Bytes) : Prop := ByteArray.IsValidUTF8 ⟨bytes.toArray⟩

instance (bytes : Bytes) : Decidable (ValidUtf8 bytes) :=
  inferInstanceAs (Decidable (ByteArray.IsValidUTF8 _))

theorem fromUTF8?_bytesOf (text : String) :
    String.fromUTF8? ⟨(bytesOf text).toArray⟩ = some text := by
  have hbytes : (⟨(bytesOf text).toArray⟩ : ByteArray) = text.toUTF8 := by simp [bytesOf]
  rw [hbytes]
  exact dif_pos text.isValidUTF8

theorem bytesOf_of_fromUTF8? {bytes : Bytes} {text : String}
    (h : String.fromUTF8? ⟨bytes.toArray⟩ = some text) : bytesOf text = bytes := by
  rw [String.fromUTF8?] at h
  split at h
  · rw [← Option.some.inj h]
    simp [bytesOf, String.fromUTF8]
  · cases h

theorem validUtf8_bytesOf (text : String) : ValidUtf8 (bytesOf text) := by
  have hbytes : (⟨(bytesOf text).toArray⟩ : ByteArray) = text.toUTF8 := by simp [bytesOf]
  rw [ValidUtf8, hbytes]
  exact text.isValidUTF8

theorem validUtf8_of_ascii {bytes : Bytes} (h : ∀ b ∈ bytes, b.toNat < 128) : ValidUtf8 bytes := by
  rw [← bytesOf_ofList h]
  exact validUtf8_bytesOf _

theorem exists_text_of_validUtf8 {bytes : Bytes} (h : ValidUtf8 bytes) :
    ∃ text : String, bytesOf text = bytes :=
  ⟨String.fromUTF8 ⟨bytes.toArray⟩ h, by simp [bytesOf, String.fromUTF8]⟩

/-! ### Strings of C -/

/-- What a function of C takes of a string: what is in front of the first byte 0. -/
def cString (bytes : Bytes) : Bytes := bytes.takeWhile (· ≠ 0)

theorem cString_append {bytes : Bytes} (h : 0 ∉ bytes) (other : Bytes) :
    cString (bytes ++ other) = bytes ++ cString other :=
  List.takeWhile_append_of_pos fun _ hb => decide_eq_true fun hzero => h (hzero ▸ hb)

theorem cString_of_notMem {bytes : Bytes} (h : 0 ∉ bytes) : cString bytes = bytes := by
  have happend := cString_append h []
  rwa [List.append_nil, show cString [] = [] from rfl, List.append_nil] at happend

theorem cString_append_of_mem {bytes : Bytes} (h : 0 ∈ bytes) (other : Bytes) :
    cString (bytes ++ other) = cString bytes := by
  induction bytes with
  | nil => cases h
  | cons b bytes ih =>
      by_cases hb : b = 0
      · simp [cString, hb]
      · have hmem : 0 ∈ bytes := (List.mem_cons.mp h).resolve_left (Ne.symm hb)
        simpa [cString, hb] using ih hmem

/-- The character 0 is the byte 0. -/
theorem zero_mem_bytesOf {text : String} : 0 ∈ bytesOf text ↔ Char.ofNat 0 ∈ text.toList := by
  have hbytes : bytesOf text = text.toList.flatMap String.utf8EncodeChar := by
    rw [← bytesOf_ofList_eq, String.ofList_toList]
  rw [hbytes, List.mem_flatMap]
  constructor
  · intro h
    obtain ⟨c, hc, hzero⟩ := h
    have hnat : c.toNat = 0 := (toNat_eq_of_mem_utf8EncodeChar hzero (by decide)).symm
    have hchar : Char.ofNat 0 = c := by rw [← hnat, Char.ofNat_toNat]
    exact hchar ▸ hc
  · intro h
    exact ⟨Char.ofNat 0, h, by decide⟩

/-- A thrown `std::invalid_argument` with its text. -/
structure InvalidArgument where
  what : String
  deriving DecidableEq, Repr

/-- A property of all bytes can be checked on the 256 numbers below 256. -/
theorem forall_uint8 {p : UInt8 → Prop} (h : ∀ i : Fin 256, p (UInt8.ofNat i.val)) (b : UInt8) :
    p b := by
  have hb := h ⟨b.toNat, b.toNat_lt⟩
  rwa [UInt8.ofNat_toNat] at hb

end Silence
