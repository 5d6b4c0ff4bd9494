import Silence.Basic
import Silence.Lib.PowMod
import Silence.Lib.Radix
import Mathlib.Algebra.Ring.Int.Parity
import Mathlib.Data.Int.ModEq
import Mathlib.Data.List.TakeWhile
import Mathlib.Tactic.Ring

/-!
# Silence.Crypto.CryptoUtils

The number theory of `crypto/src/crypto_utils.cpp` on unbounded integers.

A `cpp_int` is an `Int`. Its division and remainder truncate towards zero
(`Int.tdiv`, `Int.tmod`), and a zero divisor throws, which every division below
checks. `is_prime` draws random bases; the functions that call it take its
answers as an argument, so that they are modelled for every outcome. So do the
functions that call `powm` of the library, and `generate_random` is given the
outputs of its generator.
-/

namespace Silence.Crypto

/-- What these functions throw. -/
inductive CryptoError where
  | invalidArgument (what : String)
  /-- `std::overflow_error`, thrown by a `cpp_int` division by zero. -/
  | divisionByZero
  | runtimeError (what : String)
  /-- `std::out_of_range`, thrown by `std::string::insert`. -/
  | outOfRange
  deriving DecidableEq, Repr

structure KeyPair where
  privateKey : Int
  publicKey : Int
  deriving DecidableEq, Repr

structure EncryptedMessage where
  c1 : Int
  c2 : Int
  deriving DecidableEq, Repr

structure DSASignature where
  r : Int
  signature : Int
  deriving DecidableEq, Repr

/-! ### Functions -/

/-- `a % b`. -/
def rem (a b : Int) : Except CryptoError Int :=
  if b = 0 then .error .divisionByZero else .ok (a.tmod b)

/-- `a / b`. -/
def quot (a b : Int) : Except CryptoError Int :=
  if b = 0 then .error .divisionByZero else .ok (a.tdiv b)

/-- The variable `result` after one iteration of the loop of `modular_pow`. -/
def nextResult (modulus result b exp : Int) : Int :=
  if exp.tmod 2 = 1 then (result * b).tmod modulus else result

/-- The loop of `modular_pow`. The modulus is not zero here. -/
def modularPowLoop (modulus result b exp : Int) : Int :=
  if 0 < exp then
    modularPowLoop modulus (nextResult modulus result b exp) ((b * b).tmod modulus) (exp.tdiv 2)
  else result
termination_by exp.toNat
decreasing_by
  rw [Int.tdiv_eq_ediv_of_nonneg (by omega)]
  omega

def modularPow (base exponent modulus : Int) : Except CryptoError Int := do
  if modulus = 1 then return 0
  let b ← rem base modulus
  return modularPowLoop modulus 1 b exponent

/-- The candidates of `find_valid_generator`. -/
def candidates : List Int :=
  [2, 3, 5, 7, 11, 13, 17, 19, 23, 29, 31, 37, 41, 43, 47, 53, 59, 61, 67, 71, 73, 79, 83, 89, 97]

/-- The loop of `find_valid_generator` over the candidates that are left. -/
def searchCandidates (powm : Int → Int → Int → Int) (p q : Int) : List Int → Option Int
  | [] => none
  | g :: candidates =>
      if g ≥ p then none
      else if powm g 2 p ≠ 1 ∧ powm g q p ≠ 1 then some g
      else searchCandidates powm p q candidates

def findValidGenerator (powm : Int → Int → Int → Int) (p : Int) : Except CryptoError Int :=
  match searchCandidates powm p ((p - 1).tdiv 2) candidates with
  | some g => .ok g
  | none => .error (.runtimeError "No valid generator found")

/-- The condition in the loop of `find_generator`. -/
def isAccepted (p q g : Int) : Except CryptoError Bool := do
  if (← modularPow g 2 p) ≠ 1 then return (← modularPow g q p) ≠ 1
  else return false

/-- The loop of `find_generator`. -/
def findGeneratorLoop (p q g : Int) : Except CryptoError Int :=
  if g < p then do
    if ← isAccepted p q g then return g
    else findGeneratorLoop p q (g + 1)
  else .error (.runtimeError "Generator not found")
termination_by (p - g).toNat
decreasing_by omega

def findGenerator (p : Int) : Except CryptoError Int :=
  findGeneratorLoop p ((p - 1).tdiv 2) 2

/-- The 512 bits that one iteration of the loop of `generate_random` draws. -/
def drawBits (words : Vector UInt64 8) : Nat :=
  words.foldl (fun result word => result <<< 64 ||| word.toNat) 0

/-- The loop of `generate_random`, with the outputs that its iterations draw. It has no result
while it needs more of them. -/
def generateRandomLoop (min range result : Int) (outputs : List (Vector UInt64 8)) :
    Except CryptoError (Option Int) :=
  if result < min then
    match outputs with
    | [] => return none
    | words :: outputs => do
        let result ← rem (drawBits words) range
        generateRandomLoop min range result outputs
  else return some (result + min)

def generateRandom (min max : Int) (outputs : List (Vector UInt64 8)) :
    Except CryptoError (Option Int) :=
  generateRandomLoop min (max - min + 1) 0 outputs

/-- One iteration of the loop of `validate_el_gamal_parameters`. -/
def checkFactor (p g factor : Int) : Except CryptoError Unit := do
  let exponent ← quot (p - 1) factor
  if (← modularPow g exponent p) = 1 then
    throw (.invalidArgument "g is not a primitive root modulo p")

def validateElGamalParameters (isPrime : Int → Bool) (p g : Int) : Except CryptoError Bool :=
  if !isPrime p then .error (.invalidArgument "The modulus p must be prime")
  else if g < 2 ∨ g ≥ p then
    .error (.invalidArgument "Generator g must be in range [2, p-1]")
  else do
    [2, (p - 1).tdiv 2].forM (checkFactor p g)
    return true

def validateDsaParameters (isPrime : Int → Bool) (p q g : Int) : Except CryptoError Bool :=
  if !isPrime p || !isPrime q then .ok false
  else do
    let r ← rem (p - 1) q
    if r ≠ 0 then return false
    else if g < 2 ∨ g ≥ p then return false
    else
      let e ← modularPow g q p
      if e ≠ 1 then return false else return true

/-! ### Hexadecimal texts

`operator>>` of a `cpp_int` takes characters off the stream, puts `0x` in front of the
digits unless the text begins with it, and converts the text. -/

def isSpace (c : UInt8) : Bool := c = 0x20 || (0x09 ≤ c && c ≤ 0x0D)

def isHexDigit (c : UInt8) : Bool := (Lib.hexValue c).isSome

def isSign (c : UInt8) : Bool := c = 0x2B || c = 0x2D

/-- The characters `+-xX` and the hexadecimal digits. -/
def isTaken (c : UInt8) : Bool := isSign c || c = 0x78 || c = 0x58 || isHexDigit c

/-- The text that is taken off the stream: the longest prefix behind white space. -/
def takenText (hex : Bytes) : Bytes := (hex.dropWhile isSpace).takeWhile isTaken

/-- `0x` -/
def hexPrefix : Bytes := [0x30, 0x78]

/-- The text with `0x` in front of its digits. There is no place for it in a text of signs. -/
def insertPrefix (text : Bytes) : Except CryptoError Bytes :=
  if hexPrefix.isPrefixOf text then .ok text
  else if text.all isSign then .error .outOfRange
  else .ok (text.takeWhile isSign ++ hexPrefix ++ text.dropWhile isSign)

/-- The conversion of the text behind a minus sign. What does not begin with `0x` here begins with
another sign, which is no digit of a decimal number. -/
def assignDigits (text : Bytes) : Except CryptoError Int :=
  if !hexPrefix.isPrefixOf text then
    .error (.runtimeError "Unexpected character encountered in input.")
  else if (text.drop 2).all isHexDigit then .ok (Lib.parseHex 0 (text.drop 2))
  else .error (.runtimeError "Unexpected content found while parsing character string.")

/-- The conversion of a text to a `cpp_int`. -/
def assign (text : Bytes) : Except CryptoError Int :=
  if text.head? = some 0x2D then return -(← assignDigits text.tail)
  else assignDigits text

/-- `hex_to_cpp_int`. Where nothing is taken off the stream, the stream fails, which is not looked
at, and the number stays 0. -/
def hexToCppInt (hex : Bytes) : Except CryptoError Int := do
  if (takenText hex).isEmpty then return 0
  assign (← insertPrefix (takenText hex))

/-- `cpp_int_to_hex`. None where the stream throws, on a negative number. -/
def cppIntToHex (num : Int) : Option Bytes :=
  if num < 0 then none else some (Lib.toHex num.toNat)

/-! ### Hexadecimal texts -/

theorem cppIntToHex_of_nonneg {num : Int} (h : 0 ≤ num) :
    cppIntToHex num = some (Lib.toHex num.toNat) := if_neg (Int.not_lt.mpr h)

theorem not_special_of_isHexDigit {c : UInt8} (h : isHexDigit c = true) :
    isSpace c = false ∧ isSign c = false ∧ c ≠ 0x78 ∧ isTaken c = true := by
  have hall : ∀ c : UInt8, isHexDigit c = true →
      isSpace c = false ∧ isSign c = false ∧ c ≠ 0x78 ∧ isTaken c = true :=
    forall_uint8 (by decide +kernel)
  exact hall c h

/-- All of a text of digits is taken. -/
theorem takenText_of_digits {hex : Bytes} (h : ∀ c ∈ hex, isHexDigit c = true) :
    takenText hex = hex := by
  have hspace : hex.dropWhile isSpace = hex := by
    rw [List.dropWhile_eq_self_iff]
    intro hlen
    have hfirst := (not_special_of_isHexDigit (h _ (List.getElem_mem hlen))).1
    simp [hfirst]
  rw [takenText, hspace, List.takeWhile_eq_self_iff]
  exact fun c hc => (not_special_of_isHexDigit (h c hc)).2.2.2

/-- The prefix comes in front of a text of digits. -/
theorem insertPrefix_of_digits {hex : Bytes} (hne : hex ≠ [])
    (h : ∀ c ∈ hex, isHexDigit c = true) : insertPrefix hex = .ok (hexPrefix ++ hex) := by
  obtain ⟨first, rest, rfl⟩ := List.exists_cons_of_ne_nil hne
  have hfirst := not_special_of_isHexDigit (h first (by simp))
  have hprefix : hexPrefix.isPrefixOf (first :: rest) = false := by
    cases rest with
    | nil => simp [hexPrefix, List.isPrefixOf]
    | cons second rest =>
        have hsecond := (not_special_of_isHexDigit (h second (by simp))).2.2.1
        simp [hexPrefix, List.isPrefixOf, hsecond.symm]
  simp [insertPrefix, hprefix, hfirst.2.1]

/-- The digits behind the prefix are converted. -/
theorem assignDigits_prefix {digits : Bytes} (h : ∀ c ∈ digits, isHexDigit c = true) :
    assignDigits (hexPrefix ++ digits) = .ok (Lib.parseHex 0 digits) := by
  have hdigits : digits.all isHexDigit = true := List.all_eq_true.mpr h
  simp [assignDigits, hexPrefix, hdigits]

/-- A text of digits is read as the number that they denote. -/
theorem hexToCppInt_of_digits {hex : Bytes} (hne : hex ≠ [])
    (h : ∀ c ∈ hex, isHexDigit c = true) : hexToCppInt hex = .ok (Lib.parseHex 0 hex) := by
  have hempty : hex.isEmpty = false := List.isEmpty_eq_false_iff.mpr hne
  have hhead : (hexPrefix ++ hex).head? ≠ some 0x2D := by simp [hexPrefix]
  rw [hexToCppInt, takenText_of_digits h, hempty, insertPrefix_of_digits hne h]
  show assign (hexPrefix ++ hex) = _
  rw [assign, if_neg hhead, assignDigits_prefix h]

theorem isHexDigit_of_mem_toHex {n : Nat} {c : UInt8} (h : c ∈ Lib.toHex n) :
    isHexDigit c = true := by
  rw [Lib.toHex] at h
  split at h
  · rw [List.mem_singleton.mp h]
    rfl
  · obtain ⟨d, hd, rfl⟩ := List.mem_map.mp h
    have hlt : d < 16 := Nat.digits_lt_base (by decide) (List.mem_reverse.mp hd)
    rw [isHexDigit, Lib.hexValue_hexChar hlt]
    rfl

/-- Reading a number back from its text. -/
@[simp] theorem hexToCppInt_toHex (n : Nat) : hexToCppInt (Lib.toHex n) = .ok (n : Int) := by
  rw [hexToCppInt_of_digits (Lib.toHex_ne_nil n) fun c hc => isHexDigit_of_mem_toHex hc,
    Lib.parseHex_toHex]

/-! ### Modular exponentiation -/

/-- The remainder of a non-negative number is its canonical residue. -/
theorem rem_eq_emod {a b : Int} (ha : 0 ≤ a) (hb : 0 < b) : rem a b = .ok (a % b) := by
  rw [rem, if_neg (Int.ne_of_gt hb), Int.tmod_eq_emod_of_nonneg ha]

/-- The new result carries the factor `b` of an odd exponent. -/
theorem nextResult_modEq {modulus result b exp : Int} (hresult : 0 ≤ result) (hb : 0 ≤ b)
    (hexp : 0 ≤ exp) :
    nextResult modulus result b exp ≡
      result * (if exp.toNat % 2 = 1 then b else 1) [ZMOD modulus] := by
  have hodd : exp.tmod 2 = 1 ↔ exp.toNat % 2 = 1 := by
    rw [Int.tmod_eq_emod_of_nonneg hexp]
    omega
  rw [nextResult]
  by_cases h : exp.toNat % 2 = 1
  · rw [if_pos (hodd.mpr h), if_pos h, Int.tmod_eq_emod_of_nonneg (Int.mul_nonneg hresult hb)]
    exact Int.mod_modEq _ _
  · rw [if_neg (mt hodd.mp h), if_neg h, mul_one]

theorem nextResult_bounds {modulus result b : Int} (exp : Int) (hmod : 0 < modulus)
    (hresult : 0 ≤ result) (hlt : result < modulus) (hb : 0 ≤ b) :
    0 ≤ nextResult modulus result b exp ∧ nextResult modulus result b exp < modulus := by
  rw [nextResult]
  split
  · rw [Int.tmod_eq_emod_of_nonneg (Int.mul_nonneg hresult hb)]
    exact ⟨Int.emod_nonneg _ (Int.ne_of_gt hmod), Int.emod_lt_of_pos _ hmod⟩
  · exact ⟨hresult, hlt⟩

/-- What the loop returns: the invariant is that `result * b ^ exp` keeps its
residue. -/
theorem modularPowLoop_eq {modulus : Int} (hmod : 0 < modulus) {result b exp : Int}
    (hresult : 0 ≤ result) (hlt : result < modulus) (hb : 0 ≤ b) :
    modularPowLoop modulus result b exp = result * b ^ exp.toNat % modulus := by
  fun_induction modularPowLoop modulus result b exp with
  | case1 result b exp hpos ih =>
      have hhalf : (exp.tdiv 2).toNat = exp.toNat / 2 := by
        rw [Int.tdiv_eq_ediv_of_nonneg hpos.le]
        omega
      have hsq : (b * b).tmod modulus = b * b % modulus :=
        Int.tmod_eq_emod_of_nonneg (Int.mul_nonneg hb hb)
      have hbounds := nextResult_bounds exp hmod hresult hlt hb
      rw [ih hbounds.1 hbounds.2 (by rw [hsq]; exact Int.emod_nonneg _ (Int.ne_of_gt hmod)),
        hhalf, hsq]
      have hstep := (@nextResult_modEq modulus _ _ _ hresult hb hpos.le).mul
        ((Int.mod_modEq (b * b) modulus).pow (exp.toNat / 2))
      rw [mul_assoc, ← Lib.pow_eq_sq_pow_half] at hstep
      exact hstep
  | case2 result b exp hpos =>
      have hzero : exp.toNat = 0 := by omega
      rw [hzero, pow_zero, mul_one, Int.emod_eq_of_lt hresult hlt]

/-- `modular_pow` returns the canonical residue of the power. -/
theorem modularPow_eq {base exponent modulus : Int} (hbase : 0 ≤ base) (hmod : 0 < modulus) :
    modularPow base exponent modulus = .ok (base ^ exponent.toNat % modulus) := by
  by_cases hone : modulus = 1
  · subst hone
    simp [modularPow]
    rfl
  · have hloop : modularPowLoop modulus 1 (base % modulus) exponent =
        1 * (base % modulus) ^ exponent.toNat % modulus :=
      modularPowLoop_eq hmod Int.one_nonneg (by omega) (Int.emod_nonneg base (Int.ne_of_gt hmod))
    have hpow : modularPow base exponent modulus =
        .ok (modularPowLoop modulus 1 (base % modulus) exponent) := by
      rw [modularPow, if_neg hone, rem_eq_emod hbase hmod]
      rfl
    rw [hpow, hloop, one_mul]
    exact congrArg _ ((Int.mod_modEq base modulus).pow _)

/-! ### Parameters -/

/-- Accepted ElGamal parameters are in range. -/
theorem range_of_validateElGamalParameters {isPrime : Int → Bool} {p g : Int} {b : Bool}
    (h : validateElGamalParameters isPrime p g = .ok b) : 2 ≤ g ∧ g < p := by
  by_contra hrange
  have hout : g < 2 ∨ g ≥ p := by omega
  rw [validateElGamalParameters, if_pos hout] at h
  split at h <;> cases h

/-- Accepted DSA parameters are in range, and `g ^ q` has residue 1. -/
theorem spec_of_validateDsaParameters {isPrime : Int → Bool} {p q g : Int}
    (h : validateDsaParameters isPrime p q g = .ok true) :
    2 ≤ g ∧ g < p ∧ g ^ q.toNat % p = 1 := by
  rw [validateDsaParameters] at h
  split at h
  · cases h
  · cases hr : rem (p - 1) q with
    | error e => simp [hr, bind, Except.bind] at h
    | ok r =>
        simp only [hr, bind, Except.bind] at h
        split at h
        · cases h
        · split at h
          · cases h
          · rename_i hrange
            have hg : 2 ≤ g ∧ g < p := by omega
            rw [modularPow_eq (by omega) (by omega)] at h
            refine ⟨hg.1, hg.2, ?_⟩
            by_contra hne
            simp [hne, pure, Except.pure] at h

end Silence.Crypto
