import Mathlib.Data.List.GetD
import Mathlib.Data.Nat.Digits.Lemmas

/-!
# Silence.Lib.Radix

Numbers written with a fixed number of digits, the most significant first, and
the two texts made of them: big-endian bytes and hexadecimal characters.

`Nat.digits` is Mathlib's numeral without leading zeros, the least significant
digit first. `beDigits b k n` is the numeral of exactly `k` digits that a fixed
width format uses; it keeps `n` modulo `b ^ k`.
-/

namespace Silence.Lib

/-! ### Fixed-width numerals -/

/-- The low `k` digits of `n` in base `b`, the most significant first. -/
def beDigits (b : Nat) : Nat → Nat → List Nat
  | 0, _ => []
  | k + 1, n => n / b ^ k % b :: beDigits b k n

@[simp] theorem length_beDigits (b k n : Nat) : (beDigits b k n).length = k := by
  induction k with
  | zero => rfl
  | succ k ih => simp [beDigits, ih]

/-- Cutting low digits off a numeral. -/
theorem take_beDigits (b n : Nat) {i k : Nat} (h : i ≤ k) :
    (beDigits b k n).take i = beDigits b i (n / b ^ (k - i)) := by
  induction i generalizing k with
  | zero => simp [beDigits]
  | succ i ih =>
      obtain ⟨k, rfl⟩ : ∃ j, k = j + 1 := ⟨k - 1, by omega⟩
      have hi : i ≤ k := by omega
      rw [beDigits, beDigits, List.take_succ_cons, ih hi, Nat.add_sub_add_right,
        Nat.div_div_eq_div_mul, ← Nat.pow_add, Nat.sub_add_cancel hi]

/-- Cutting high digits off a numeral. -/
theorem drop_beDigits (b n : Nat) (i k : Nat) :
    (beDigits b k n).drop i = beDigits b (k - i) n := by
  induction i generalizing k with
  | zero => simp
  | succ i ih =>
      cases k with
      | zero => simp [beDigits]
      | succ k => rw [beDigits, List.drop_succ_cons, ih, Nat.add_sub_add_right]

/-- Every digit is below the base. -/
theorem lt_of_mem_beDigits {b k n d : Nat} (hb : 0 < b) (h : d ∈ beDigits b k n) : d < b := by
  induction k with
  | zero => simp [beDigits] at h
  | succ k ih =>
      rcases List.mem_cons.mp h with rfl | h
      · exact Nat.mod_lt _ hb
      · exact ih h

/-- The number modulo `b ^ (k + 1)` from its leading digit and the rest. -/
theorem mod_pow_succ_eq (b k n : Nat) :
    n % b ^ (k + 1) = n / b ^ k % b * b ^ k + n % b ^ k := by
  rw [Nat.mod_pow_succ, Nat.mul_comm, Nat.add_comm]

/-- A numeral of `k` digits determines the number modulo `b ^ k`. -/
theorem beDigits_inj {b : Nat} (hb : 0 < b) {k m n : Nat} :
    beDigits b k m = beDigits b k n ↔ m % b ^ k = n % b ^ k := by
  induction k with
  | zero => simp [beDigits, Nat.mod_one]
  | succ k ih =>
      rw [beDigits, beDigits, List.cons.injEq, ih, mod_pow_succ_eq, mod_pow_succ_eq b k n]
      constructor
      · rintro ⟨hhead, htail⟩
        rw [hhead, htail]
      · intro h
        have htail : m % b ^ k = n % b ^ k := by
          have hcongr := congrArg (· % b ^ k) h
          simpa [Nat.add_mod, Nat.mul_mod_left] using hcongr
        rw [htail] at h
        exact ⟨Nat.eq_of_mul_eq_mul_right (Nat.pow_pos hb) (Nat.add_right_cancel h), htail⟩

/-- The numeral grows on the right by the least significant digit. -/
theorem beDigits_succ_append (b k n : Nat) :
    beDigits b (k + 1) n = beDigits b k (n / b) ++ [n % b] := by
  induction k generalizing n with
  | zero => simp [beDigits]
  | succ k ih =>
      rw [beDigits, ih, beDigits, Nat.div_div_eq_div_mul, ← Nat.pow_succ', List.cons_append]

theorem beDigits_zero (b k : Nat) : beDigits b k 0 = List.replicate k 0 := by
  induction k with
  | zero => rfl
  | succ k ih => simp [beDigits, ih, List.replicate_succ]

/-- Mathlib's numeral padded with zeros on the left. -/
theorem beDigits_eq_digits {b : Nat} (hb : 2 ≤ b) {k n : Nat} (h : n < b ^ k) :
    beDigits b k n =
      List.replicate (k - (Nat.digits b n).length) 0 ++ (Nat.digits b n).reverse := by
  induction k generalizing n with
  | zero =>
      obtain rfl : n = 0 := by simpa using h
      simp [beDigits]
  | succ k ih =>
      rcases Nat.eq_zero_or_pos n with rfl | hn
      · simp [beDigits_zero]
      · have hdiv : n / b < b ^ k := Nat.div_lt_of_lt_mul (by rwa [← Nat.pow_succ'])
        rw [beDigits_succ_append, ih hdiv, Nat.digits_of_two_le_of_pos hb hn, List.reverse_cons,
          List.length_cons, Nat.add_sub_add_right, List.append_assoc]

/-! ### Bytes -/

/-- The low `k` bytes of `n`, the most significant first. -/
def beBytes (k n : Nat) : List UInt8 := (beDigits 256 k n).map UInt8.ofNat

@[simp] theorem length_beBytes (k n : Nat) : (beBytes k n).length = k := by simp [beBytes]

theorem take_beBytes (n : Nat) {i k : Nat} (h : i ≤ k) :
    (beBytes k n).take i = beBytes i (n / 256 ^ (k - i)) := by
  rw [beBytes, ← List.map_take, take_beDigits 256 n h, beBytes]

theorem drop_beBytes (n i k : Nat) : (beBytes k n).drop i = beBytes (k - i) n := by
  rw [beBytes, ← List.map_drop, drop_beDigits, beBytes]

/-- Two numbers have the same low bytes exactly when they agree modulo the
corresponding power of 256. -/
theorem beBytes_inj {k m n : Nat} : beBytes k m = beBytes k n ↔ m % 256 ^ k = n % 256 ^ k := by
  rw [← beDigits_inj (by decide)]
  constructor
  · intro h
    have hdigits : ∀ n, (beBytes k n).map UInt8.toNat = beDigits 256 k n := by
      intro n
      rw [beBytes, List.map_map]
      refine (List.map_congr_left fun d hd => ?_).trans (List.map_id _)
      exact UInt8.toNat_ofNat_of_lt' (lt_of_mem_beDigits (by decide) hd)
    rw [← hdigits m, ← hdigits n, h]
  · intro h
    rw [beBytes, h, beBytes]

/-- A byte written in front of a numeral is its leading digit. -/
theorem cons_beBytes {k n : Nat} (d : Nat) (h : n < 256 ^ k) :
    UInt8.ofNat d :: beBytes k n = beBytes (k + 1) (d * 256 ^ k + n) := by
  have hpow : 0 < 256 ^ k := Nat.pow_pos (by decide)
  have hhead : (d * 256 ^ k + n) / 256 ^ k = d := by
    rw [Nat.mul_comm, Nat.mul_add_div hpow, Nat.div_eq_of_lt h, Nat.add_zero]
  have htail : beBytes k (d * 256 ^ k + n) = beBytes k n :=
    beBytes_inj.mpr (by rw [Nat.mul_comm, Nat.mul_add_mod])
  have hbyte : UInt8.ofNat (d % 256) = UInt8.ofNat d := UInt8.ofNat_mod_size
  rw [← htail, beBytes, beBytes, beDigits, hhead, List.map_cons, hbyte]

/-! ### Hexadecimal characters -/

/-- The character `0`, …, `9`, `a`, …, `f` of a digit. -/
def hexChar (d : Nat) : UInt8 := if d < 10 then UInt8.ofNat (0x30 + d) else UInt8.ofNat (0x57 + d)

/-- The hexadecimal numeral of `n` without leading zeros, as a C++ stream prints
it under `std::hex`. -/
def toHex (n : Nat) : List UInt8 :=
  if n = 0 then [hexChar 0] else (Nat.digits 16 n).reverse.map hexChar

theorem toHex_ne_nil (n : Nat) : toHex n ≠ [] := by
  rw [toHex]
  split
  · exact List.cons_ne_nil _ _
  · rename_i hn
    rw [ne_eq, List.map_eq_nil_iff, List.reverse_eq_nil_iff]
    exact Nat.digits_ne_nil_iff_ne_zero.mpr hn

/-- A text padded on the left to `width` characters, as a C++ stream does under
`std::setw`. -/
def setw (width : Nat) (fill : UInt8) (s : List UInt8) : List UInt8 :=
  List.replicate (width - s.length) fill ++ s

/-- The low `k` hexadecimal digits of `n`, the most significant first. -/
def fixedHex (k n : Nat) : List UInt8 := (beDigits 16 k n).map hexChar

@[simp] theorem length_fixedHex (k n : Nat) : (fixedHex k n).length = k := by simp [fixedHex]

/-- Printing `n` into a field of `k` digits that it fits in. -/
theorem setw_toHex {k n : Nat} (hk : 0 < k) (h : n < 16 ^ k) :
    setw k (hexChar 0) (toHex n) = fixedHex k n := by
  rcases Nat.eq_zero_or_pos n with rfl | hn
  · have hlast : List.replicate k (hexChar 0) =
        List.replicate (k - 1) (hexChar 0) ++ [hexChar 0] := by
      rw [← List.replicate_succ', Nat.sub_add_cancel hk]
    simp [setw, toHex, fixedHex, beDigits_zero, hlast]
  · rw [fixedHex, beDigits_eq_digits (by decide) h, List.map_append, List.map_replicate]
    simp [setw, toHex, Nat.ne_of_gt hn]

/-! ### Reading hexadecimal characters -/

/-- The value of a hexadecimal character, of either case. -/
def hexValue (c : UInt8) : Option Nat :=
  if 0x30 ≤ c ∧ c ≤ 0x39 then some (c.toNat - 0x30)
  else if 0x41 ≤ c ∧ c ≤ 0x46 then some (c.toNat - 0x37)
  else if 0x61 ≤ c ∧ c ≤ 0x66 then some (c.toNat - 0x57)
  else none

/-- Read the longest prefix of hexadecimal characters, after the digits of `acc`. -/
def parseHex (acc : Nat) : List UInt8 → Nat
  | [] => acc
  | c :: cs =>
      match hexValue c with
      | some d => parseHex (16 * acc + d) cs
      | none => acc

theorem hexValue_hexChar {d : Nat} (hd : d < 16) : hexValue (hexChar d) = some d := by
  have h : ∀ d : Fin 16, hexValue (hexChar d) = some d.val := by decide
  exact h ⟨d, hd⟩

theorem hexChar_lt {d : Nat} (hd : d < 16) : (hexChar d).toNat < 128 := by
  have h : ∀ d : Fin 16, (hexChar d).toNat < 128 := by decide
  exact h ⟨d, hd⟩

theorem parseHex_map_hexChar {ds : List Nat} (h : ∀ d ∈ ds, d < 16) (acc : Nat) :
    parseHex acc (ds.map hexChar) = ds.foldl (fun acc d => 16 * acc + d) acc := by
  induction ds generalizing acc with
  | nil => rfl
  | cons d ds ih =>
      obtain ⟨hd, hds⟩ := List.forall_mem_cons.mp h
      rw [List.map_cons, parseHex, hexValue_hexChar hd]
      exact ih hds _

theorem foldl_eq_ofDigits (ds : List Nat) :
    ds.foldl (fun acc d => 16 * acc + d) 0 = Nat.ofDigits 16 ds.reverse := by
  have hflip : (fun (d : Nat) (acc : Nat) => 16 * acc + d) = fun d acc => d + 16 * acc := by
    funext d acc
    exact Nat.add_comm _ _
  rw [← List.foldr_reverse, hflip]
  exact (Nat.ofDigits_eq_foldr 16 _).symm

/-- Reading undoes printing. -/
@[simp] theorem parseHex_toHex (n : Nat) : parseHex 0 (toHex n) = n := by
  rcases Nat.eq_zero_or_pos n with rfl | hn
  · rfl
  · have hdigits : ∀ d ∈ (Nat.digits 16 n).reverse, d < 16 := fun d hd =>
      Nat.digits_lt_base (by decide) (List.mem_reverse.mp hd)
    rw [toHex, if_neg (Nat.ne_of_gt hn), parseHex_map_hexChar hdigits, foldl_eq_ofDigits,
      List.reverse_reverse, Nat.ofDigits_digits]

/-- Digits without leading zeros are those of their number. -/
theorem map_hexChar_eq_toHex {d : Nat} {ds : List Nat} (hd : d ≠ 0) (h : ∀ x ∈ d :: ds, x < 16) :
    (d :: ds).map hexChar = toHex (Nat.ofDigits 16 (d :: ds).reverse) := by
  have hdigits : Nat.digits 16 (Nat.ofDigits 16 (d :: ds).reverse) = (d :: ds).reverse :=
    Nat.digits_ofDigits 16 (by decide) _ (fun x hx => h x (List.mem_reverse.mp hx))
      (by simp [hd])
  have hne : Nat.ofDigits 16 (d :: ds).reverse ≠ 0 := by
    intro hzero
    rw [hzero, Nat.digits_zero] at hdigits
    exact absurd hdigits (by simp)
  rw [toHex, if_neg hne, hdigits, List.reverse_reverse]

/-- Behind their leading zeros, digits are those of their number; the last digit of zero is kept. -/
theorem exists_zeros_append {ds : List Nat} (hne : ds ≠ []) (h : ∀ x ∈ ds, x < 16) :
    ∃ zeros rest, ds = List.replicate zeros 0 ++ rest ∧
      rest.map hexChar = toHex (ds.foldl (fun acc d => 16 * acc + d) 0) := by
  induction ds with
  | nil => exact absurd rfl hne
  | cons d ds ih =>
      by_cases hd : d = 0
      · subst hd
        cases ds with
        | nil => exact ⟨0, [0], rfl, rfl⟩
        | cons d' ds =>
            obtain ⟨zeros, rest, hrest, hdigits⟩ := ih (List.cons_ne_nil _ _)
              fun x hx => h x (List.mem_cons_of_mem _ hx)
            exact ⟨zeros + 1, rest, by rw [hrest]; rfl, hdigits⟩
      · exact ⟨0, d :: ds, rfl, by rw [foldl_eq_ofDigits, map_hexChar_eq_toHex hd h]⟩

theorem toHex_injective : Function.Injective toHex :=
  Function.LeftInverse.injective parseHex_toHex

/-- The digits of a number, written after those of another one. -/
theorem toHex_append {a b : Nat} (ha : 0 < a) (hb : 0 < b) :
    toHex a ++ toHex b = toHex (a * 16 ^ (Nat.digits 16 b).length + b) := by
  have hpos : 0 < a * 16 ^ (Nat.digits 16 b).length + b := Nat.add_pos_right _ hb
  rw [toHex, toHex, toHex, if_neg ha.ne', if_neg hb.ne', if_neg hpos.ne', ← List.map_append,
    ← List.reverse_append, Nat.digits_append_digits (by decide), Nat.add_comm b, Nat.mul_comm a]

/-- What is cut off a numeral in front of another one is a numeral. -/
theorem exists_toHex_of_append {a b : Nat} (ha : 0 < a) (hb : 0 < b) {s : List UInt8}
    (hs : s ≠ []) (h : toHex a = s ++ toHex b) : ∃ m, 0 < m ∧ s = toHex m := by
  rw [toHex, toHex, if_neg ha.ne', if_neg hb.ne'] at h
  obtain ⟨front, back, hdigits, rfl, hback⟩ := List.map_eq_append_iff.mp h
  have hne : front ≠ [] := by
    rintro rfl
    exact hs rfl
  have hsplit : Nat.digits 16 a = back.reverse ++ front.reverse := by
    rw [← List.reverse_append, ← hdigits, List.reverse_reverse]
  have hlt : ∀ d ∈ front.reverse, d < 16 := fun d hd =>
    Nat.digits_lt_base (m := a) (by decide) (by rw [hsplit]; exact List.mem_append_right _ hd)
  have hlast : ∀ hnil : front.reverse ≠ [], front.reverse.getLast hnil ≠ 0 := by
    intro hnil
    have hlastDigit := Nat.getLast_digit_ne_zero 16 ha.ne'
    simp only [hsplit] at hlastDigit
    rwa [List.getLast_append_of_ne_nil _ hnil] at hlastDigit
  have hm : Nat.digits 16 (Nat.ofDigits 16 front.reverse) = front.reverse :=
    Nat.digits_ofDigits 16 (by decide) _ hlt hlast
  have hpos : 0 < Nat.ofDigits 16 front.reverse := by
    refine Nat.pos_of_ne_zero fun hzero => ?_
    rw [hzero, Nat.digits_zero] at hm
    exact hne (List.reverse_eq_nil_iff.mp hm.symm)
  exact ⟨_, hpos, by rw [toHex, if_neg hpos.ne', hm, List.reverse_reverse]⟩

/-- The second pair arises from the first one by moving the digits of `m`, the last ones of the
first number, to the front of the second number. -/
def MovesDigits (a b a' b' : Nat) : Prop :=
  ∃ m, 0 < m ∧ a = a' * 16 ^ (Nat.digits 16 m).length + m ∧
    b' = m * 16 ^ (Nat.digits 16 b).length + b

/-- Two pairs of numerals are joined to the same text exactly if the pairs are equal or digits
have moved from one number to the other. -/
theorem toHex_append_eq_iff {a b a' b' : Nat} (ha : 0 < a) (hb : 0 < b) (ha' : 0 < a')
    (hb' : 0 < b') :
    toHex a ++ toHex b = toHex a' ++ toHex b' ↔
      (a = a' ∧ b = b') ∨ MovesDigits a b a' b' ∨ MovesDigits a' b' a b := by
  -- a longer first numeral ends with digits of the second number
  have hmoves : ∀ {a b a' b' : Nat}, 0 < a → 0 < b → 0 < a' → 0 < b' → ∀ s : List UInt8,
      toHex a = toHex a' ++ s → toHex b' = s ++ toHex b →
      (a = a' ∧ b = b') ∨ MovesDigits a b a' b' := by
    intro a b a' b' ha hb ha' hb' s h1 h2
    by_cases hs : s = []
    · subst hs
      rw [List.append_nil] at h1
      exact .inl ⟨toHex_injective h1, (toHex_injective h2).symm⟩
    · obtain ⟨m, hm, rfl⟩ := exists_toHex_of_append hb' hb hs h2
      rw [toHex_append ha' hm] at h1
      rw [toHex_append hm hb] at h2
      exact .inr ⟨m, hm, toHex_injective h1, toHex_injective h2⟩
  have hjoin : ∀ {a b a' b' : Nat}, 0 < b → 0 < a' → MovesDigits a b a' b' →
      toHex a ++ toHex b = toHex a' ++ toHex b' := by
    rintro a b a' b' hb ha' ⟨m, hm, rfl, rfl⟩
    rw [← toHex_append ha' hm, ← toHex_append hm hb, List.append_assoc]
  constructor
  · intro h
    rcases List.append_eq_append_iff.mp h with ⟨s, h1, h2⟩ | ⟨s, h1, h2⟩
    · rcases hmoves ha' hb' ha hb s h1 h2 with ⟨h1, h2⟩ | hm
      · exact .inl ⟨h1.symm, h2.symm⟩
      · exact .inr (.inr hm)
    · rcases hmoves ha hb ha' hb' s h1 h2 with heq | hm
      · exact .inl heq
      · exact .inr (.inl hm)
  · rintro (⟨rfl, rfl⟩ | hm | hm)
    · rfl
    · exact hjoin hb ha' hm
    · exact (hjoin hb' ha hm).symm

/-- A numeral consists of ASCII characters. -/
theorem lt_of_mem_toHex {n : Nat} {c : UInt8} (h : c ∈ toHex n) : c.toNat < 128 := by
  rw [toHex] at h
  split at h
  · rw [List.mem_singleton.mp h]
    decide
  · obtain ⟨d, hd, rfl⟩ := List.mem_map.mp h
    exact hexChar_lt (Nat.digits_lt_base (by decide) (List.mem_reverse.mp hd))

end Silence.Lib
