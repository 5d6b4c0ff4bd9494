import Silence.Crypto.CryptoUtils

/-!
# Silence.Crypto.HexNumbers

Which texts `hex_to_cpp_int` reads, and as which numbers.

It reads back every number that `cpp_int_to_hex` prints. Other texts it should refuse,
but the state of the stream is not looked at: a text without a number is read as 0, what
stands behind a number is ignored, and white space, a prefix `0x` and a minus sign are
accepted in front of it. `hexToCppInt_strict_iff` says for every text whether it is read
as the number whose numeral it is, or refused.
-/

namespace Silence.Crypto

open Silence.Lib

/-! ### Numerals -/

/-- `std::tolower`. -/
def toLower (c : UInt8) : UInt8 := if 0x41 ≤ c ∧ c ≤ 0x5A then c + 0x20 else c

/-- Up to letter case and leading zeros, the text is what `cpp_int_to_hex` prints for the number. -/
def IsNumeral (text : Bytes) (num : Int) : Prop :=
  ∃ numeral, cppIntToHex num = some numeral ∧
    ∃ zeros digits, text = List.replicate zeros 0x30 ++ digits ∧ digits.map toLower = numeral

/-- The text is refused, or read as the number whose numeral it is. -/
def Strict (hex : Bytes) : Prop := ∀ num, hexToCppInt hex = .ok num → IsNumeral hex num

/-- A text of hexadecimal digits. -/
def IsHexText (text : Bytes) : Prop := text ≠ [] ∧ ∀ c ∈ text, isHexDigit c = true

instance (text : Bytes) : Decidable (IsHexText text) := inferInstanceAs (Decidable (_ ∧ _))

/-- The texts that can be converted once they are taken off the stream: digits, perhaps behind
`0x`, where there may be none, or behind a minus sign. -/
def Convertible (text : Bytes) : Prop :=
  IsHexText text ∨ (∃ digits, text = hexPrefix ++ digits ∧ ∀ c ∈ digits, isHexDigit c = true) ∨
    ∃ digits, text = 0x2D :: digits ∧ IsHexText digits

/-! ### Conversion -/

/-- A text is converted behind a prefix. -/
theorem assignDigits_isOk_iff (text : Bytes) :
    (∃ num, assignDigits text = .ok num) ↔
      ∃ digits, text = hexPrefix ++ digits ∧ ∀ c ∈ digits, isHexDigit c = true := by
  constructor
  · intro h
    obtain ⟨num, h⟩ := h
    unfold assignDigits at h
    split at h
    · cases h
    · rename_i hprefix
      split at h
      · rename_i hdigits
        rw [Bool.not_eq_true, Bool.not_eq_false', List.isPrefixOf_iff_prefix] at hprefix
        obtain ⟨digits, rfl⟩ := hprefix
        exact ⟨digits, rfl, List.all_eq_true.mp hdigits⟩
      · cases h
  · intro h
    obtain ⟨digits, rfl, hdigits⟩ := h
    exact ⟨_, assignDigits_prefix hdigits⟩

/-- A sign that is left is no prefix. -/
theorem not_prefix_of_isSign {c : UInt8} (hc : isSign c = true) (text digits : Bytes) :
    c :: text ≠ hexPrefix ++ digits := by
  intro h
  obtain rfl : c = 0x30 := (List.cons.inj h).1
  exact absurd hc (by decide)

theorem not_isHexDigit_of_isSign {c : UInt8} (hc : isSign c = true) : isHexDigit c ≠ true := by
  intro h
  rw [(not_special_of_isHexDigit h).2.1] at hc
  cases hc

/-- The minus sign is passed over. -/
theorem assign_minus_isOk_iff (text : Bytes) :
    (∃ num, assign (0x2D :: text) = .ok num) ↔ ∃ num, assignDigits text = .ok num := by
  have hassign : assign (0x2D :: text) = do return -(← assignDigits text) := by
    rw [assign, if_pos (by rfl)]
    rfl
  rw [hassign]
  cases assignDigits text <;> simp [bind, Except.bind, pure, Except.pure]

theorem assign_of_ne_minus {c : UInt8} (hc : c ≠ 0x2D) (text : Bytes) :
    assign (c :: text) = assignDigits (c :: text) := by
  rw [assign, if_neg (by simpa using hc)]

/-- Digits with a prefix in front of them. -/
theorem assign_prefix_isOk_iff (text : Bytes) :
    (∃ num, assign (hexPrefix ++ text) = .ok num) ↔ ∀ c ∈ text, isHexDigit c = true := by
  have hassign : assign (hexPrefix ++ text) = assignDigits (hexPrefix ++ text) :=
    assign_of_ne_minus (by decide) _
  rw [hassign, assignDigits_isOk_iff]
  constructor
  · intro h
    obtain ⟨digits, heq, hdigits⟩ := h
    rwa [List.append_cancel_left heq]
  · exact fun h => ⟨text, rfl, h⟩

/-- A sign in front of a prefix is passed over if it is the only one, and a minus sign. -/
theorem assign_sign_isOk_iff {c : UInt8} (hc : isSign c = true) {text : Bytes}
    (hsigns : (c :: text).all isSign ≠ true) :
    (∃ num, assign (c :: (text.takeWhile isSign ++ hexPrefix ++ text.dropWhile isSign)) = .ok num) ↔
      c = 0x2D ∧ IsHexText text := by
  by_cases hminus : c = 0x2D
  · subst hminus
    rw [assign_minus_isOk_iff, assignDigits_isOk_iff, and_iff_right rfl]
    cases text with
    | nil => exact absurd rfl hsigns
    | cons d rest =>
        by_cases hd : isSign d = true
        · -- another sign follows
          rw [List.takeWhile_cons_of_pos hd]
          constructor
          · intro h
            obtain ⟨digits, heq, -⟩ := h
            exact absurd heq (not_prefix_of_isSign hd _ digits)
          · intro h
            exact absurd (h.2 d List.mem_cons_self) (not_isHexDigit_of_isSign hd)
        · rw [List.takeWhile_cons_of_neg hd, List.dropWhile_cons_of_neg hd, List.nil_append]
          constructor
          · intro h
            obtain ⟨digits, heq, hdigits⟩ := h
            obtain rfl := List.append_cancel_left heq
            exact ⟨List.cons_ne_nil d rest, hdigits⟩
          · exact fun h => ⟨d :: rest, rfl, h.2⟩
  · rw [assign_of_ne_minus hminus, assignDigits_isOk_iff]
    constructor
    · intro h
      obtain ⟨digits, heq, -⟩ := h
      exact absurd heq (not_prefix_of_isSign hc _ digits)
    · exact fun h => absurd h.1 hminus

theorem convertible_prefix_iff (digits : Bytes) :
    Convertible (hexPrefix ++ digits) ↔ ∀ c ∈ digits, isHexDigit c = true := by
  constructor
  · intro h
    rcases h with hhex | ⟨digits', heq, hdigits⟩ | ⟨digits', heq, -⟩
    · exact absurd (hhex.2 0x78 (by simp [hexPrefix])) (by decide)
    · rwa [List.append_cancel_left heq]
    · cases heq
  · exact fun h => .inr (.inl ⟨digits, rfl, h⟩)

theorem convertible_sign_iff {c : UInt8} (hc : isSign c = true) (text : Bytes) :
    Convertible (c :: text) ↔ c = 0x2D ∧ IsHexText text := by
  constructor
  · intro h
    rcases h with hhex | ⟨digits, heq, -⟩ | ⟨digits, heq, hhex⟩
    · exact absurd (hhex.2 c List.mem_cons_self) (not_isHexDigit_of_isSign hc)
    · exact absurd heq (not_prefix_of_isSign hc text digits)
    · obtain ⟨rfl, rfl⟩ := List.cons.inj heq
      exact ⟨rfl, hhex⟩
  · intro h
    obtain ⟨rfl, hhex⟩ := h
    exact .inr (.inr ⟨text, rfl, hhex⟩)

/-- Without a prefix or a sign, there are only digits. -/
theorem convertible_digits_iff {c : UInt8} {text : Bytes} (hc : isSign c ≠ true)
    (hstart : ∀ digits, c :: text ≠ hexPrefix ++ digits) :
    Convertible (c :: text) ↔ IsHexText (c :: text) := by
  constructor
  · intro h
    rcases h with hhex | ⟨digits, heq, -⟩ | ⟨digits, heq, -⟩
    · exact hhex
    · exact absurd heq (hstart digits)
    · obtain rfl := (List.cons.inj heq).1
      exact absurd (by rfl) hc
  · exact .inl

/-- A text of signs has no place for a prefix, and is not converted. -/
theorem not_convertible_of_signs {text : Bytes} (hne : text ≠ []) (h : text.all isSign = true) :
    ¬ Convertible text := by
  obtain ⟨c, rest, rfl⟩ := List.exists_cons_of_ne_nil hne
  obtain ⟨hc, hrest⟩ := List.forall_mem_cons.mp (List.all_eq_true.mp h)
  rw [convertible_sign_iff hc]
  intro hconv
  obtain ⟨d, digits, rfl⟩ := List.exists_cons_of_ne_nil hconv.2.1
  exact not_isHexDigit_of_isSign (hrest d List.mem_cons_self) (hconv.2.2 d List.mem_cons_self)

/-- The text that is taken off the stream is converted in three cases. -/
theorem insert_assign_isOk_iff {text : Bytes} (hne : text ≠ []) :
    (∃ num, (insertPrefix text >>= assign) = .ok num) ↔ Convertible text := by
  unfold insertPrefix
  by_cases hprefix : hexPrefix.isPrefixOf text = true
  · rw [if_pos hprefix]
    obtain ⟨digits, rfl⟩ := List.isPrefixOf_iff_prefix.mp hprefix
    rw [convertible_prefix_iff]
    exact assign_prefix_isOk_iff digits
  · rw [if_neg hprefix]
    by_cases hsigns : text.all isSign = true
    · rw [if_pos hsigns]
      exact iff_of_false (fun h => by obtain ⟨num, h⟩ := h; cases h)
        (not_convertible_of_signs hne hsigns)
    · rw [if_neg hsigns]
      obtain ⟨first, rest, rfl⟩ := List.exists_cons_of_ne_nil hne
      show (∃ num, assign _ = .ok num) ↔ _
      by_cases hfirst : isSign first = true
      · rw [List.takeWhile_cons_of_pos hfirst, List.dropWhile_cons_of_pos hfirst, List.cons_append,
          List.cons_append, convertible_sign_iff hfirst]
        exact assign_sign_isOk_iff hfirst hsigns
      · have hnot : ∀ digits, first :: rest ≠ hexPrefix ++ digits := fun digits heq =>
          hprefix (List.isPrefixOf_iff_prefix.mpr ⟨digits, heq.symm⟩)
        rw [List.takeWhile_cons_of_neg hfirst, List.dropWhile_cons_of_neg hfirst, List.nil_append,
          convertible_digits_iff hfirst hnot, assign_prefix_isOk_iff, IsHexText,
          and_iff_right hne]

/-- Which texts are not refused. -/
theorem hexToCppInt_isOk_iff (hex : Bytes) :
    (∃ num, hexToCppInt hex = .ok num) ↔ takenText hex = [] ∨ Convertible (takenText hex) := by
  unfold hexToCppInt
  by_cases hempty : takenText hex = []
  · simp [hempty, pure, Except.pure]
  · have hfull : (takenText hex).isEmpty = false := List.isEmpty_eq_false_iff.mpr hempty
    rw [hfull, or_iff_right hempty]
    exact insert_assign_isOk_iff hempty

/-! ### The digits -/

/-- The value of a digit. -/
def digitValue (c : UInt8) : Nat := (hexValue c).getD 0

theorem digitValue_spec {c : UInt8} (h : isHexDigit c = true) :
    hexValue c = some (digitValue c) ∧ digitValue c < 16 ∧ toLower c = hexChar (digitValue c) ∧
      (digitValue c = 0 → c = 0x30) := by
  have hall : ∀ c : UInt8, isHexDigit c = true →
      hexValue c = some (digitValue c) ∧ digitValue c < 16 ∧
        toLower c = hexChar (digitValue c) ∧ (digitValue c = 0 → c = 0x30) :=
    forall_uint8 (by decide +kernel)
  exact hall c h

theorem isHexDigit_of_toLower {c : UInt8} (h : isHexDigit (toLower c) = true) :
    isHexDigit c = true := by
  have hall : ∀ c : UInt8, isHexDigit (toLower c) = true → isHexDigit c = true :=
    forall_uint8 (by decide +kernel)
  exact hall c h

theorem parseHex_eq_foldl {text : Bytes} (h : ∀ c ∈ text, isHexDigit c = true) (acc : Nat) :
    parseHex acc text = (text.map digitValue).foldl (fun acc d => 16 * acc + d) acc := by
  induction text generalizing acc with
  | nil => rfl
  | cons c text ih =>
      obtain ⟨hc, htext⟩ := List.forall_mem_cons.mp h
      rw [parseHex, (digitValue_spec hc).1]
      exact ih htext _

/-- A text of digits is a numeral of the number that is read. -/
theorem isNumeral_of_isHexText {text : Bytes} (h : IsHexText text) :
    IsNumeral text (parseHex 0 text) := by
  obtain ⟨hne, hhex⟩ := h
  have hsmall : ∀ d ∈ text.map digitValue, d < 16 := by
    intro d hd
    obtain ⟨c, hc, rfl⟩ := List.mem_map.mp hd
    exact (digitValue_spec (hhex c hc)).2.1
  obtain ⟨zeros, rest, hsplit, hrest⟩ :=
    exists_zeros_append (mt List.map_eq_nil_iff.mp hne) hsmall
  rw [← parseHex_eq_foldl hhex] at hrest
  obtain ⟨front, digits, rfl, hfront, rfl⟩ := List.map_eq_append_iff.mp hsplit
  refine ⟨_, cppIntToHex_of_nonneg (Int.natCast_nonneg _), zeros, digits, ?_, ?_⟩
  · congr 1
    rw [List.eq_replicate_iff]
    refine ⟨by simpa using congrArg List.length hfront, fun c hc => ?_⟩
    have hzero : digitValue c ∈ List.replicate zeros 0 := hfront ▸ List.mem_map_of_mem hc
    exact (digitValue_spec (hhex c (List.mem_append_left _ hc))).2.2.2
      (List.mem_replicate.mp hzero).2
  · rw [Int.toNat_natCast, ← hrest, List.map_map]
    exact List.map_congr_left fun c hc =>
      (digitValue_spec (hhex c (List.mem_append_right _ hc))).2.2.1

/-- Numerals consist of digits. -/
theorem isHexText_of_isNumeral {text : Bytes} {num : Int} (h : IsNumeral text num) :
    IsHexText text := by
  obtain ⟨numeral, hnumeral, zeros, digits, rfl, hdigits⟩ := h
  rw [cppIntToHex] at hnumeral
  split at hnumeral
  · cases hnumeral
  · obtain rfl := Option.some.inj hnumeral
    constructor
    · intro hnil
      rw [(List.append_eq_nil_iff.mp hnil).2] at hdigits
      exact toHex_ne_nil _ hdigits.symm
    · intro c hc
      rcases List.mem_append.mp hc with hzero | hdigit
      · rw [(List.mem_replicate.mp hzero).2]
        rfl
      · refine isHexDigit_of_toLower (@isHexDigit_of_mem_toHex num.toNat _ ?_)
        exact hdigits ▸ List.mem_map_of_mem hdigit

/-- Every number that is not negative is read back from its text. And every text is read as the
number whose numeral it is, or refused, exactly if it consists of hexadecimal digits, or a text
is taken off the stream that cannot be converted. -/
theorem hexToCppInt_strict_iff (num : Nat) (hex : Bytes) :
    (∃ text, cppIntToHex num = some text ∧ hexToCppInt text = .ok num) ∧
      (Strict hex ↔ IsHexText hex ∨ (takenText hex ≠ [] ∧ ¬ Convertible (takenText hex))) := by
  constructor
  · exact ⟨toHex num, cppIntToHex_of_nonneg (Int.natCast_nonneg num), hexToCppInt_toHex num⟩
  · constructor
    · intro hstrict
      by_cases hread : ∃ num, hexToCppInt hex = .ok num
      · obtain ⟨num, hnum⟩ := hread
        exact .inl (isHexText_of_isNumeral (hstrict num hnum))
      · rw [hexToCppInt_isOk_iff, not_or] at hread
        exact .inr hread
    · intro h num hnum
      rcases h with hdigits | hrefused
      · rw [hexToCppInt_of_digits hdigits.1 hdigits.2] at hnum
        obtain rfl := Except.ok.inj hnum
        exact isNumeral_of_isHexText hdigits
      · have hread := (hexToCppInt_isOk_iff hex).mp ⟨num, hnum⟩
        exact absurd hread (not_or.mpr hrefused)

/-- The empty text is read as 0, `12g` as 18 and `-5` as a negative number; none of them is a
numeral of it. -/
theorem hexToCppInt_not_strict :
    (hexToCppInt [] = .ok 0 ∧ ¬ IsNumeral [] 0) ∧
      (hexToCppInt (bytesOf "12g") = .ok 0x12 ∧ ¬ IsNumeral (bytesOf "12g") 0x12) ∧
      (hexToCppInt (bytesOf "-5") = .ok (-5) ∧ ¬ IsNumeral (bytesOf "-5") (-5)) ∧
      ¬ ∀ hex, Strict hex := by
  have hempty : ¬ IsNumeral [] 0 := mt isHexText_of_isNumeral (by decide)
  exact ⟨⟨by rfl, hempty⟩, ⟨by rfl, mt isHexText_of_isNumeral (by decide)⟩,
    ⟨by rfl, mt isHexText_of_isNumeral (by decide)⟩, fun h => hempty (h [] 0 (by rfl))⟩

end Silence.Crypto
