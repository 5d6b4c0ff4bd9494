import Silence.Crypto.Aes256RoundTrip

/-!
# Silence.Crypto.Aes256Fips

`AES256::encrypt` and `AES256::decrypt` are the AES-256 cipher and inverse cipher
of FIPS 197.

The states of the two descriptions are related by `Fips197.ofBlock`, which is a
bijection. Each round transformation of the code commutes with it
(`ofBlock_subBytes`, …), the key schedule of the code is that of the standard word
by word (`getElem_keyExpansion`), and the two loops over the rounds follow by
induction.
-/

namespace Silence.Crypto.Aes256

open Silence.Lib
open Fips197 (ofBlock)

/-! ### Inversion in GF(2^8) -/

/-- Inverses are unique, so any inverse is the one that `inv` chooses. -/
theorem inv_eq_of_mul_eq_one {a b : UInt8} (h : Fips197.mul a b = 1) : Fips197.inv a = b := by
  have hex : ∃ c, Fips197.mul a c = 1 := ⟨b, h⟩
  have hc : res a * res hex.choose = 1 := by rw [← res_mul, hex.choose_spec, res_one]
  have hb : res a * res b = 1 := by rw [← res_mul, h, res_one]
  rw [Fips197.inv, dif_pos hex]
  apply res_injective
  calc res hex.choose = res hex.choose * (res a * res b) := by rw [hb, mul_one]
    _ = res a * res hex.choose * res b := by ring
    _ = res b := by rw [hc, one_mul]

theorem inv_zero : Fips197.inv 0 = 0 := by
  refine dif_neg ?_
  rintro ⟨b, hb⟩
  have hres := congrArg res hb
  rw [res_mul, res_zero, zero_mul, ← res_zero] at hres
  exact absurd (res_injective hres) (by decide)

theorem gf_mul_comm (a b : UInt8) : Fips197.mul a b = Fips197.mul b a :=
  res_injective (by rw [res_mul, res_mul, mul_comm])

/-! ### The tables -/

/-- The inverse of the affine map, by its bits. -/
def invAffine (b : UInt8) : UInt8 :=
  Fips197.ofBits fun i => Fips197.bit b ((i + 2) % 8) ^^ Fips197.bit b ((i + 5) % 8) ^^
    Fips197.bit b ((i + 7) % 8) ^^ Fips197.bit 0x05 i

/-- Undoing the affine map works, and entry `b` of the table with the affine map undone, times
`b`, is 1. -/
theorem sbox_entries : ∀ b : UInt8, Fips197.affine (invAffine b) = b ∧
    (b ≠ 0 → Fips197.mul b (invAffine (lookup sbox b)) = 1) :=
  forall_uint8 (by decide +kernel)

theorem affine_invAffine (b : UInt8) : Fips197.affine (invAffine b) = b := (sbox_entries b).1

/-- A map of the bytes that another one undoes undoes it as well. -/
theorem rightInverse_of_leftInverse {f g : UInt8 → UInt8} (h : Function.LeftInverse g f) :
    Function.RightInverse g f := by
  have hfinite : Finite UInt8 :=
    Finite.of_injective (fun b : UInt8 => (⟨b.toNat, b.toNat_lt⟩ : Fin 256))
      fun _ _ heq => UInt8.toNat_inj.mp (Fin.mk.inj heq)
  exact h.rightInverse_of_surjective (Finite.surjective_of_injective h.injective)

theorem invAffine_affine : ∀ b, invAffine (Fips197.affine b) = b :=
  rightInverse_of_leftInverse affine_invAffine

theorem inv_eq_invAffine_sbox (b : UInt8) : Fips197.inv b = invAffine (lookup sbox b) := by
  by_cases hb : b = 0
  · subst hb
    rw [inv_zero]
    rfl
  · exact inv_eq_of_mul_eq_one ((sbox_entries b).2 hb)

/-- The table `sbox` is the S-box of the standard. -/
theorem lookup_sbox (b : UInt8) : lookup sbox b = Fips197.sbox b := by
  rw [Fips197.sbox, inv_eq_invAffine_sbox, affine_invAffine]

theorem inv_inv (b : UInt8) : Fips197.inv (Fips197.inv b) = b := by
  by_cases hb : b = 0
  · rw [hb, inv_zero, inv_zero]
  · have h := (sbox_entries b).2 hb
    rw [inv_eq_of_mul_eq_one h]
    exact inv_eq_of_mul_eq_one (by rw [gf_mul_comm, h])

/-- The table `inv_sbox` is the inverse S-box of the standard. -/
theorem lookup_invSbox (b : UInt8) : lookup invSbox b = Fips197.invSbox b := by
  have hsbox : ∀ b, lookup sbox (lookup invSbox b) = b :=
    rightInverse_of_leftInverse lookup_invSbox_sbox
  have haffine : Function.invFun Fips197.affine b = invAffine b := by
    have hleft := Function.leftInverse_invFun (Function.LeftInverse.injective invAffine_affine)
      (invAffine b)
    rwa [affine_invAffine] at hleft
  calc lookup invSbox b = Fips197.inv (Fips197.inv (lookup invSbox b)) := (inv_inv _).symm
    _ = Fips197.inv (invAffine b) := by rw [inv_eq_invAffine_sbox (lookup invSbox b), hsbox]
    _ = Fips197.invSbox b := by rw [Fips197.invSbox, haffine]

/-! ### Round transformations -/

/-- Multiplying by the constant coefficient 1. -/
theorem one_mul_eq (b : UInt8) : Fips197.mul 1 b = b :=
  res_injective (by rw [res_mul, res_one, one_mul])

theorem ofBlock_subBytes (state : State) :
    ofBlock (subBytes state) = Fips197.subBytes (ofBlock state) := by
  funext r c
  simp [ofBlock, subBytes, Fips197.subBytes, lookup_sbox]

theorem ofBlock_invSubBytes (state : State) :
    ofBlock (invSubBytes state) = Fips197.invSubBytes (ofBlock state) := by
  funext r c
  simp [ofBlock, invSubBytes, Fips197.invSubBytes, lookup_invSbox]

theorem ofBlock_shiftRows (state : State) :
    ofBlock (shiftRows state) = Fips197.shiftRows (ofBlock state) := by
  funext r c
  fin_cases r <;> fin_cases c
  all_goals rfl

theorem ofBlock_invShiftRows (state : State) :
    ofBlock (invShiftRows state) = Fips197.invShiftRows (ofBlock state) := by
  funext r c
  fin_cases r <;> fin_cases c
  all_goals rfl

theorem ofBlock_eq (state : State) (r c : Fin 4) :
    ofBlock state r c = state[4 * c.val + r.val] := by
  simp only [ofBlock, Nat.add_comm]

/-- The state after the column loop, by row and column. -/
theorem ofBlock_mapColumns (f : UInt8 → UInt8 → UInt8 → UInt8 → Vector UInt8 4) (state : State)
    (r c : Fin 4) :
    ofBlock (mapColumns f state) r c =
      (f (ofBlock state 0 c) (ofBlock state 1 c) (ofBlock state 2 c)
        (ofBlock state 3 c))[r.val] := by
  simp only [ofBlock_eq]
  exact getElem_mapColumns f state c.val r.val c.isLt r.isLt

theorem ofBlock_mixColumns (state : State) :
    ofBlock (mixColumns state) = Fips197.mixColumns (ofBlock state) := by
  funext r c
  rw [mixColumns, ofBlock_mapColumns]
  simp only [mixColumn, gmul_eq_mul, Fips197.mixColumns, Fips197.polyMul]
  fin_cases r <;> simp [Fips197.mixPolynomial, one_mul_eq]

theorem ofBlock_invMixColumns (state : State) :
    ofBlock (invMixColumns state) = Fips197.invMixColumns (ofBlock state) := by
  funext r c
  rw [invMixColumns, ofBlock_mapColumns]
  simp only [invMixColumn, gmul_eq_mul, Fips197.invMixColumns, Fips197.polyMul]
  fin_cases r <;> simp [Fips197.invMixPolynomial]

/-! ### Key schedule -/

/-- A word of the standard as the array of the code. -/
def ofWord (a : Fips197.Word) : Vector UInt8 4 := Vector.ofFn a

theorem getElem_ofWord (a : Fips197.Word) (j : Nat) (hj : j < 4) : (ofWord a)[j] = a ⟨j, hj⟩ :=
  Vector.getElem_ofFn hj

theorem rotWord_ofWord (a : Fips197.Word) : rotWord (ofWord a) = ofWord (Fips197.rotWord a) := rfl

theorem subWord_ofWord (a : Fips197.Word) : subWord (ofWord a) = ofWord (Fips197.subWord a) := by
  refine Vector.ext fun j hj => ?_
  interval_cases j <;> simp [subWord, ofWord, Fips197.subWord, lookup_sbox]

/-- The ten round constants are the powers of X, in the top byte of the word. -/
theorem roundConst_eq : ∀ (j : Nat) (_ : j < 10),
    ((roundConst[j] >>> 24) &&& 0xFF).toUInt8 = Fips197.xPow j := by
  decide +kernel

/-- The words of the array below `n` are those of the standard. -/
def ScheduleUpTo (key : Key) (n : Nat) (w : Schedule) : Prop :=
  ∀ i j, i < n → ∀ (hj : j < 4) (h : 4 * i + j < 240),
    w[4 * i + j] = Fips197.word key i ⟨j, hj⟩

theorem word_of_ge (key : Key) {i : Nat} (hi : 8 ≤ i) :
    Fips197.word key i = fun j => Fips197.word key (i - 8) j ^^^
      (if i % 8 = 0 then
        fun j => Fips197.subWord (Fips197.rotWord (Fips197.word key (i - 1))) j ^^^
          Fips197.rcon (i / 8) j
      else if i % 8 = 4 then Fips197.subWord (Fips197.word key (i - 1))
      else Fips197.word key (i - 1)) j := by
  rw [Fips197.word, dif_neg (by omega)]

/-- The variable `temp` of iteration `i` is the second operand of word `i`. -/
theorem word_eq_scheduleTemp {key : Key} {i : Nat} {w : Schedule} (hi : 8 ≤ i ∧ i < 60)
    (hw : ScheduleUpTo key i w) (j : Nat) (hj : j < 4) :
    Fips197.word key i ⟨j, hj⟩ = Fips197.word key (i - 8) ⟨j, hj⟩ ^^^
      (scheduleTemp i ⟨by omega, hi.2⟩ w)[j] := by
  have hprev : #v[w[4 * (i - 1)], w[4 * (i - 1) + 1], w[4 * (i - 1) + 2], w[4 * (i - 1) + 3]] =
      ofWord (Fips197.word key (i - 1)) := by
    have h0 : w[4 * (i - 1)] = Fips197.word key (i - 1) 0 := hw (i - 1) 0 (by omega) _ _
    have h1 : w[4 * (i - 1) + 1] = Fips197.word key (i - 1) 1 := hw (i - 1) 1 (by omega) _ _
    have h2 : w[4 * (i - 1) + 2] = Fips197.word key (i - 1) 2 := hw (i - 1) 2 (by omega) _ _
    have h3 : w[4 * (i - 1) + 3] = Fips197.word key (i - 1) 3 := hw (i - 1) 3 (by omega) _ _
    rw [h0, h1, h2, h3]
    rfl
  rw [word_of_ge key hi.1]
  simp only [scheduleTemp, hprev, Nk]
  by_cases h8 : i % 8 = 0
  · have hrc := roundConst_eq (i / 8 - 1) (by omega)
    -- the round constant only reaches the first byte
    have hset : ∀ (a : Fips197.Word) (b : UInt8),
        (ofWord a).set 0 ((ofWord a)[0] ^^^ b) = ofWord fun j => a j ^^^ ![b, 0, 0, 0] j := by
      intro a b
      refine Vector.ext fun j hj => ?_
      interval_cases j <;> simp [ofWord]
    simp only [h8, if_true, rotWord_ofWord, subWord_ofWord, hrc, hset]
    simp only [getElem_ofWord, Fips197.rcon]
  · by_cases h4 : i % 8 = 4
    · simp only [h4, show ¬ (4 = 0) by decide, if_false, if_true, show 8 > 6 by decide, and_self,
        subWord_ofWord, getElem_ofWord]
    · simp only [h8, h4, and_false, if_false, getElem_ofWord]

/-- Iteration `i` writes word `i` and leaves the other words alone. -/
theorem getElem_scheduleStep {i : Nat} (hi : 8 ≤ i ∧ i < 60) (w : Schedule) (k j : Nat)
    (hj : j < 4) (h : 4 * k + j < 240) :
    (scheduleStep i hi w)[4 * k + j] =
      if k = i then w[4 * (i - 8) + j] ^^^ (scheduleTemp i ⟨by omega, hi.2⟩ w)[j]
      else w[4 * k + j] := by
  simp only [scheduleStep]
  by_cases hk : k = i
  · subst hk
    rw [if_pos rfl]
    interval_cases j <;> simp
  · rw [if_neg hk]
    have h0 : 4 * i ≠ 4 * k + j := by omega
    have hne : ∀ m, m < 4 → 4 * i + m ≠ 4 * k + j := fun m hm => by omega
    simp only [Vector.getElem_set, h0, hne 1 (by omega), hne 2 (by omega), hne 3 (by omega),
      if_false]

theorem scheduleStep_spec {key : Key} {i : Nat} {w : Schedule} (hi : 8 ≤ i ∧ i < 60)
    (hw : ScheduleUpTo key i w) : ScheduleUpTo key (i + 1) (scheduleStep i hi w) := by
  intro k j hk hj h
  rw [getElem_scheduleStep hi w k j hj h]
  split
  · next heq =>
      subst heq
      rw [word_eq_scheduleTemp hi hw j hj, hw (k - 8) j (by omega) hj (by omega)]
  · exact hw k j (by omega) hj h

theorem scheduleInit_spec (key : Key) : ScheduleUpTo key 8 (scheduleInit key) := by
  intro i j hi hj h
  rw [Fips197.word, dif_pos hi]
  simp only [scheduleInit, Vector.getElem_ofFn]
  rw [dif_pos (by omega)]

/-- The schedule loop after `n` iterations; the induction is on `n`. -/
theorem scheduleLoop_spec (key : Key) (n : Nat) (hn : n ≤ 52) :
    ScheduleUpTo key (n + 8)
      (Nat.fold n (fun k hk w => scheduleStep (k + 8) (by omega) w) (scheduleInit key)) := by
  induction n with
  | zero => exact scheduleInit_spec key
  | succ n ih =>
      rw [Nat.fold_succ, Nat.add_right_comm]
      exact scheduleStep_spec _ (ih (by omega))

/-- The key expansion of the code is that of the standard. -/
theorem getElem_keyExpansion (key : Key) (i j : Nat) (hi : i < 60) (hj : j < 4) :
    (keyExpansion key)[4 * i + j] = Fips197.word key i ⟨j, hj⟩ :=
  scheduleLoop_spec key 52 (by omega) i j (by omega) hj _

theorem ofBlock_addRoundKey (key : Key) (state : State) (round : Fin 15) :
    ofBlock (addRoundKey state (keyExpansion key) round) =
      Fips197.addRoundKey (ofBlock state) (Fips197.word key) round.val := by
  funext r c
  have hw := getElem_keyExpansion key (4 * round.val + c.val) r.val (by omega) r.isLt
  have hidx : 4 * round.val * 4 + (r.val + 4 * c.val) = 4 * (4 * round.val + c.val) + r.val := by
    omega
  simp only [ofBlock, addRoundKey, Vector.getElem_ofFn, hidx, hw, Fips197.addRoundKey]

/-! ### The two loops over the rounds -/

theorem ofBlock_encryptRounds (key : Key) (n : Nat) (hn : n < 15) (state : State) :
    ofBlock (encryptRounds (keyExpansion key) n hn state) =
      (List.range' 1 n).foldl (Fips197.cipherRound (Fips197.word key)) (ofBlock state) := by
  induction n with
  | zero => rfl
  | succ n ih =>
      rw [List.range'_concat, List.foldl_append, ← ih (by omega)]
      simp only [encryptRounds, Nat.fold_succ, ofBlock_addRoundKey, ofBlock_mixColumns,
        ofBlock_shiftRows, ofBlock_subBytes, List.foldl_cons, List.foldl_nil, Fips197.cipherRound,
        Nat.one_mul, Nat.add_comm]

theorem ofBlock_decryptRounds (key : Key) (n : Nat) (hn : n < 15) (state : State) :
    ofBlock (decryptRounds (keyExpansion key) n hn state) =
      (List.range' 1 n).reverse.foldl (Fips197.invCipherRound (Fips197.word key))
        (ofBlock state) := by
  induction n generalizing state with
  | zero => rfl
  | succ n ih =>
      rw [List.range'_concat, List.reverse_append, List.reverse_singleton, List.singleton_append,
        List.foldl_cons]
      have hstep : decryptRounds (keyExpansion key) (n + 1) hn state =
          decryptRounds (keyExpansion key) n (by omega) (invMixColumns (addRoundKey
            (invSubBytes (invShiftRows state)) (keyExpansion key) ⟨n + 1, by omega⟩)) := rfl
      rw [hstep, ih]
      simp only [ofBlock_addRoundKey, ofBlock_invMixColumns, ofBlock_invShiftRows,
        ofBlock_invSubBytes, Fips197.invCipherRound, Nat.one_mul, Nat.add_comm]

theorem toBlock_ofBlock (block : State) : Fips197.toBlock (ofBlock block) = block := by
  refine Vector.ext fun i hi => ?_
  have hidx : i % 4 + 4 * (i / 4) = i := Nat.mod_add_div i 4
  simp only [Fips197.toBlock, ofBlock, Vector.getElem_ofFn, hidx]

/-! ### The block cipher -/

theorem encrypt_eq_cipher (key : Key) (block : State) :
    encrypt key block = Fips197.cipher key block := by
  rw [← toBlock_ofBlock (encrypt key block)]
  simp only [encrypt, Fips197.cipher, ofBlock_addRoundKey, ofBlock_shiftRows, ofBlock_subBytes,
    ofBlock_encryptRounds]
  rfl

theorem decrypt_eq_invCipher (key : Key) (block : State) :
    decrypt key block = Fips197.invCipher key block := by
  rw [← toBlock_ofBlock (decrypt key block)]
  simp only [decrypt, Fips197.invCipher, ofBlock_addRoundKey, ofBlock_invShiftRows,
    ofBlock_invSubBytes, ofBlock_decryptRounds]
  rfl

/-- The block functions of the code are the AES-256 cipher and its inverse. -/
theorem aes256_refines_fips197 (key : Key) (block : State) :
    encrypt key block = Fips197.cipher key block ∧
      decrypt key block = Fips197.invCipher key block :=
  ⟨encrypt_eq_cipher key block, decrypt_eq_invCipher key block⟩

end Silence.Crypto.Aes256
