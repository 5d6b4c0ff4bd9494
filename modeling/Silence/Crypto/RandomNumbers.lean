import Silence.Crypto.CryptoUtils

/-!
# Silence.Crypto.RandomNumbers

What `generate_random` of `crypto/src/crypto_utils.cpp` can return.

The loop draws a number below the size of the range until it is at least `min`, and
`min` is added to it again. So the numbers below `2 * min` are never returned, and
for `min = 0` the loop does not draw at all (`exists_generateRandom_iff`).
-/

namespace Silence.Crypto

/-! ### The bits that are drawn -/

theorem shift_or_eq (result : Nat) (word : UInt64) :
    result <<< 64 ||| word.toNat = result * 2 ^ 64 + word.toNat := by
  rw [← Nat.shiftLeft_add_eq_or_of_lt word.toNat_lt, Nat.shiftLeft_eq]

/-- Every word adds 64 bits. -/
theorem foldl_words_lt (words : List UInt64) {result m : Nat} (h : result < 2 ^ (64 * m)) :
    words.foldl (fun result word => result <<< 64 ||| word.toNat) result <
      2 ^ (64 * (m + words.length)) := by
  induction words generalizing result m with
  | nil => simpa using h
  | cons word words ih =>
      have hword := word.toNat_lt
      have hnext : result <<< 64 ||| word.toNat < 2 ^ (64 * (m + 1)) := by
        rw [shift_or_eq, Nat.mul_add, pow_add]
        omega
      have := ih hnext
      rwa [List.foldl_cons, List.length_cons, Nat.add_comm words.length, ← Nat.add_assoc]

theorem drawBits_lt (words : Vector UInt64 8) : drawBits words < 2 ^ 512 := by
  have h := @foldl_words_lt words.toList 0 0 (by decide)
  rw [Vector.foldl_toList, Vector.length_toList, show 64 * (0 + 8) = 512 from rfl] at h
  exact h

/-- Every number of `n` words can be drawn. The last word is its remainder. -/
theorem exists_foldl_words (n : Nat) {d : Nat} (h : d < 2 ^ (64 * n)) :
    ∃ words : Vector UInt64 n,
      words.toList.foldl (fun result word => result <<< 64 ||| word.toNat) 0 = d := by
  induction n generalizing d with
  | zero =>
      obtain rfl : d = 0 := by simpa using h
      exact ⟨#v[], rfl⟩
  | succ n ih =>
      have hlow : d % 2 ^ 64 < 2 ^ 64 := Nat.mod_lt _ (by decide)
      have hhigh : d / 2 ^ 64 < 2 ^ (64 * n) := by
        rw [Nat.mul_add, pow_add] at h
        exact Nat.div_lt_of_lt_mul (by rwa [Nat.mul_comm])
      obtain ⟨words, hwords⟩ := ih hhigh
      refine ⟨words.push (UInt64.ofNat (d % 2 ^ 64)), ?_⟩
      rw [Vector.toList_push, List.foldl_append, hwords, List.foldl_cons, List.foldl_nil,
        shift_or_eq, UInt64.toNat_ofNat_of_lt' hlow]
      exact Nat.div_add_mod' d (2 ^ 64)

theorem exists_drawBits {d : Nat} (h : d < 2 ^ 512) : ∃ words, drawBits words = d := by
  rw [show 512 = 64 * 8 from rfl] at h
  obtain ⟨words, hwords⟩ := exists_foldl_words 8 h
  rw [Vector.foldl_toList] at hwords
  exact ⟨words, hwords⟩

/-! ### The values that are returned -/

section Values

variable {min max v : Int}

theorem rem_drawBits (words : Vector UInt64 8) {range : Int} (hrange : 0 < range) :
    rem (drawBits words) range = .ok (drawBits words % range) :=
  rem_eq_emod (Int.natCast_nonneg _) hrange

/-- What the loop returns is its last draw, or `result` where it does not run. -/
theorem generateRandomLoop_eq_some {range result : Int} (hrange : 0 < range)
    {outputs : List (Vector UInt64 8)}
    (h : generateRandomLoop min range result outputs = .ok (some v)) :
    (min ≤ result ∧ v = result + min) ∨
      ∃ words : Vector UInt64 8,
        min ≤ drawBits words % range ∧ v = drawBits words % range + min := by
  induction outputs generalizing result with
  | nil =>
      rw [generateRandomLoop] at h
      split at h
      · cases h
      · cases h
        exact .inl ⟨by omega, rfl⟩
  | cons words outputs ih =>
      rw [generateRandomLoop] at h
      split at h
      · rw [rem_drawBits words hrange] at h
        rcases ih h with hlast | hlast
        · exact .inr ⟨words, hlast⟩
        · exact .inr hlast
      · cases h
        exact .inl ⟨by omega, rfl⟩

/-- A single draw is enough for every value that can be returned. -/
theorem generateRandom_singleton (hmin : 0 < min) {words : Vector UInt64 8}
    (hrange : 0 < max - min + 1) (h : min ≤ drawBits words % (max - min + 1)) :
    generateRandom min max [words] = .ok (some (drawBits words % (max - min + 1) + min)) := by
  rw [generateRandom, generateRandomLoop, if_pos hmin, rem_drawBits words hrange]
  change generateRandomLoop min (max - min + 1) (drawBits words % (max - min + 1)) [] = _
  rw [generateRandomLoop, if_neg (by omega)]
  rfl

/-- The values that can be returned: 0 for `min = 0`, and else those from `2 * min` to `max` whose
distance from `min` has 512 bits. -/
theorem exists_generateRandom_iff (hmin : 0 ≤ min) (hle : min ≤ max) :
    (∃ outputs, generateRandom min max outputs = .ok (some v)) ↔
      if min = 0 then v = 0 else 2 * min ≤ v ∧ v ≤ max ∧ v - min < 2 ^ 512 := by
  have hrange : 0 < max - min + 1 := by omega
  by_cases hzero : min = 0
  · subst hzero
    have hreturn : ∀ outputs, generateRandom 0 max outputs = .ok (some 0) := by
      intro outputs
      rw [generateRandom]
      cases outputs <;> rfl
    simp [hreturn, eq_comm]
  · rw [if_neg hzero]
    constructor
    · rintro ⟨outputs, h⟩
      rcases generateRandomLoop_eq_some hrange h with ⟨hlast, -⟩ | ⟨words, hlast, rfl⟩
      · omega
      · have hlt := Int.emod_lt_of_pos (drawBits words) hrange
        have hbits : (drawBits words : Int) < 2 ^ 512 := by exact_mod_cast drawBits_lt words
        have hmod : (drawBits words : Int) % (max - min + 1) ≤ drawBits words := by
          lift max - min + 1 to Nat using hrange.le with range
          exact_mod_cast Nat.mod_le (drawBits words) range
        omega
    · rintro ⟨h2, hmax, hbits⟩
      obtain ⟨words, hwords⟩ := exists_drawBits (d := (v - min).toNat) (by omega)
      have hdraw : (drawBits words : Int) % (max - min + 1) = v - min := by
        rw [hwords, Int.toNat_of_nonneg (by omega)]
        exact Int.emod_eq_of_lt (by omega) (by omega)
      have hreturn := @generateRandom_singleton min max (by omega) words hrange (by omega)
      rw [hdraw, Int.sub_add_cancel] at hreturn
      exact ⟨[words], hreturn⟩

/-- For `0 ≤ min ≤ max`: what is returned is in the range and, if the call can return, the whole
range is covered, if and only if the call cannot return or the range is that of 0 alone. -/
theorem generateRandom_covers_iff (hmin : 0 ≤ min) (hle : min ≤ max) :
    ((∀ outputs v, generateRandom min max outputs = .ok (some v) → min ≤ v ∧ v ≤ max) ∧
      ((∃ outputs v, generateRandom min max outputs = .ok (some v)) →
        ∀ v, min ≤ v → v ≤ max → ∃ outputs, generateRandom min max outputs = .ok (some v))) ↔
    (0 < min ∧ (max < 2 * min ∨ 2 ^ 512 ≤ min)) ∨ (min = 0 ∧ max = 0) := by
  have hvalues := fun v => @exists_generateRandom_iff min max v hmin hle
  have hin : ∀ outputs v, generateRandom min max outputs = .ok (some v) → min ≤ v ∧ v ≤ max := by
    intro outputs v h
    have hv := (hvalues v).mp ⟨outputs, h⟩
    split at hv
    · omega
    · omega
  constructor
  · rintro ⟨-, hcovers⟩
    by_contra hcond
    have hmin0 : 0 < min ∨ min = 0 := by omega
    rcases hmin0 with hpos | rfl
    · -- the call returns `2 * min`, and never `min`
      obtain ⟨outputs, hreturn⟩ := (hvalues (2 * min)).mpr (by rw [if_neg hpos.ne']; omega)
      have hfirst := (hvalues min).mp (hcovers ⟨outputs, _, hreturn⟩ min le_rfl hle)
      rw [if_neg hpos.ne'] at hfirst
      omega
    · obtain ⟨outputs, hreturn⟩ := (hvalues 0).mpr rfl
      have hlast := (hvalues max).mp (hcovers ⟨outputs, _, hreturn⟩ max hle le_rfl)
      rw [if_pos rfl] at hlast
      omega
  · intro hcond
    refine ⟨hin, ?_⟩
    rintro ⟨outputs, w, hw⟩ v hv hmax
    have hw := (hvalues w).mp ⟨outputs, hw⟩
    refine (hvalues v).mpr ?_
    split
    · omega
    · rename_i hne
      rw [if_neg hne] at hw
      omega

end Values

/-- A call for the range from 1 does not cover it. -/
theorem generateRandom_covers_iff_four :
    ¬ ((∀ outputs v, generateRandom 1 4 outputs = .ok (some v) → 1 ≤ v ∧ v ≤ 4) ∧
      ((∃ outputs v, generateRandom 1 4 outputs = .ok (some v)) →
        ∀ v, 1 ≤ v → v ≤ 4 → ∃ outputs, generateRandom 1 4 outputs = .ok (some v))) := by
  refine (generateRandom_covers_iff (by decide) (by decide)).not.mpr fun h => ?_
  rcases h with ⟨-, hsmall | hlarge⟩ | ⟨hzero, -⟩
  · exact absurd hsmall (by decide)
  · exact absurd hlarge (not_le.mpr (one_lt_pow₀ (by decide) (by decide)))
  · exact absurd hzero (by decide)

/-- The call for the range from 1 to 4 can return 2, and it never returns 1. -/
theorem generateRandom_skips :
    generateRandom 1 4 [Vector.replicate 8 1] = .ok (some 2) ∧
      ∀ outputs, generateRandom 1 4 outputs ≠ .ok (some 1) := by
  refine ⟨by decide, fun outputs h => ?_⟩
  have hv := (exists_generateRandom_iff (by decide) (by decide)).mp ⟨outputs, h⟩
  exact absurd hv (by decide)

end Silence.Crypto
