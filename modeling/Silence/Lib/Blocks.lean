import Mathlib.Data.List.Basic
import Mathlib.Tactic.Ring

/-!
# Silence.Lib.Blocks

Cutting a list into consecutive blocks of one fixed length, and gluing the
blocks back together. Nothing here knows what a block is used for: a block
cipher, a hash function and a chunked file transfer all instantiate it.

`toBlocks n xs` keeps only the complete blocks; a trailing partial block is
dropped, so the two functions are inverse exactly on lists whose length is a
multiple of `n`.
-/

namespace Silence.Lib

variable {α β : Type*}

/-- The complete blocks of length `n` of `xs`, in order. -/
def toBlocks (n : Nat) (xs : List α) : List (List α) :=
  (List.range (xs.length / n)).map fun k => (xs.drop (n * k)).take n

@[simp] theorem toBlocks_nil (n : Nat) : toBlocks n ([] : List α) = [] := by
  simp [toBlocks]

@[simp] theorem toBlocks_length (n : Nat) (xs : List α) :
    (toBlocks n xs).length = xs.length / n := by
  simp [toBlocks]

/-- A list shorter than one block has no complete block. -/
theorem toBlocks_of_lt {n : Nat} {xs : List α} (h : xs.length < n) : toBlocks n xs = [] := by
  simp [toBlocks, Nat.div_eq_of_lt h]

/-- Peeling the first block off. -/
theorem toBlocks_append {n : Nat} (hn : 0 < n) {b : List α} (hb : b.length = n)
    (xs : List α) : toBlocks n (b ++ xs) = b :: toBlocks n xs := by
  have hlen : (b ++ xs).length / n = xs.length / n + 1 := by
    rw [List.length_append, hb, Nat.add_comm, Nat.add_div_right _ hn]
  unfold toBlocks
  rw [hlen, List.range_succ_eq_map, List.map_cons, List.map_map]
  congr 1
  · simp [← hb]
  · refine List.map_congr_left fun k _ => ?_
    have hk : n * (k + 1) = b.length + n * k := by rw [hb]; ring
    simp only [Function.comp_apply, Nat.succ_eq_add_one, hk, List.drop_length_add_append]

/-- What is left of `xs` after its complete blocks. -/
def restOf (n : Nat) (xs : List α) : List α := xs.drop (n * (xs.length / n))

theorem restOf_of_lt {n : Nat} {xs : List α} (h : xs.length < n) : restOf n xs = xs := by
  simp [restOf, Nat.div_eq_of_lt h]

/-- The rest does not change when the first block is peeled off. -/
theorem restOf_append {n : Nat} (hn : 0 < n) {b : List α} (hb : b.length = n) (xs : List α) :
    restOf n (b ++ xs) = restOf n xs := by
  have hdrop : n * ((b ++ xs).length / n) = b.length + n * (xs.length / n) := by
    rw [List.length_append, hb, Nat.add_div_left _ hn]
    ring
  rw [restOf, hdrop, List.drop_length_add_append, restOf]

@[simp] theorem length_restOf (n : Nat) (xs : List α) : (restOf n xs).length = xs.length % n := by
  rw [restOf, List.length_drop, ← Nat.mod_eq_sub]

/-- Every block has the block length. -/
theorem length_of_mem_toBlocks {n : Nat} (hn : 0 < n) {xs b : List α} (h : b ∈ toBlocks n xs) :
    b.length = n := by
  simp only [toBlocks, List.mem_map, List.mem_range] at h
  obtain ⟨k, hk, rfl⟩ := h
  have hle : (k + 1) * n ≤ xs.length := (Nat.le_div_iff_mul_le hn).mp hk
  have : n * k + n ≤ xs.length := by rw [Nat.mul_comm, ← Nat.succ_mul]; exact hle
  simp only [List.length_take, List.length_drop]
  omega

/-- Cutting what was glued from blocks gives the blocks back. -/
theorem toBlocks_flatten {n : Nat} (hn : 0 < n) {bs : List (List α)}
    (h : ∀ b ∈ bs, b.length = n) : toBlocks n bs.flatten = bs := by
  induction bs with
  | nil => simp
  | cons b bs ih =>
      have hb : b.length = n := h b (by simp)
      rw [List.flatten_cons, toBlocks_append hn hb, ih fun c hc => h c (by simp [hc])]

/-- A nonempty list of whole blocks starts with one. -/
theorem exists_block_append {xs : List α} (n : Nat) (hle : n ≤ xs.length) :
    ∃ b ys, xs = b ++ ys ∧ b.length = n :=
  ⟨xs.take n, xs.drop n, (List.take_append_drop n xs).symm, by simp [hle]⟩

/-- Gluing the blocks of a list whose length is a multiple of the block length
gives the list back. The induction is on the number of blocks. -/
theorem flatten_toBlocks {n : Nat} (hn : 0 < n) {xs : List α} (h : n ∣ xs.length) :
    (toBlocks n xs).flatten = xs := by
  obtain ⟨q, hq⟩ := h
  induction q generalizing xs with
  | zero =>
      obtain rfl : xs = [] := List.eq_nil_of_length_eq_zero (by simpa using hq)
      simp
  | succ q ih =>
      obtain ⟨b, ys, rfl, hb⟩ := exists_block_append n
        (by rw [hq]; exact Nat.le_mul_of_pos_right n q.succ_pos)
      have hys : ys.length = n * q := by
        rw [List.length_append, hb, Nat.mul_succ] at hq
        omega
      rw [toBlocks_append hn hb, List.flatten_cons, ih hys]

/-- The blocks of an append whose left part is whole blocks. -/
theorem toBlocks_append_of_dvd {n : Nat} (hn : 0 < n) {xs : List α} (h : n ∣ xs.length)
    (ys : List α) : toBlocks n (xs ++ ys) = toBlocks n xs ++ toBlocks n ys := by
  obtain ⟨q, hq⟩ := h
  induction q generalizing xs with
  | zero =>
      obtain rfl : xs = [] := List.eq_nil_of_length_eq_zero (by simpa using hq)
      simp
  | succ q ih =>
      obtain ⟨b, zs, rfl, hb⟩ := exists_block_append n
        (by rw [hq]; exact Nat.le_mul_of_pos_right n q.succ_pos)
      have hzs : zs.length = n * q := by
        rw [List.length_append, hb, Nat.mul_succ] at hq
        omega
      rw [List.append_assoc, toBlocks_append hn hb, toBlocks_append hn hb, ih hzs,
        List.cons_append]

/-- A list is some whole blocks and the rest. -/
theorem exists_append_restOf (n : Nat) (xs : List α) :
    ∃ whole, xs = whole ++ restOf n xs ∧ whole.length = n * (xs.length / n) :=
  ⟨xs.take (n * (xs.length / n)), (List.take_append_drop _ xs).symm, by
    rw [List.length_take, Nat.min_eq_left (Nat.mul_div_le _ _)]⟩

/-- The complete blocks of an append: those of the left part, then those of what
it leaves and the right part. -/
theorem toBlocks_append_restOf {n : Nat} (hn : 0 < n) (xs ys : List α) :
    toBlocks n (xs ++ ys) = toBlocks n xs ++ toBlocks n (restOf n xs ++ ys) := by
  obtain ⟨whole, hxs, hwhole⟩ := exists_append_restOf n xs
  have hdvd : n ∣ whole.length := ⟨_, hwhole⟩
  have hrest : toBlocks n (restOf n xs) = [] :=
    toBlocks_of_lt (by rw [length_restOf]; exact Nat.mod_lt _ hn)
  have hleft : toBlocks n xs = toBlocks n whole := by
    conv_lhs => rw [hxs]
    rw [toBlocks_append_of_dvd hn hdvd, hrest, List.append_nil]
  rw [hleft, ← toBlocks_append_of_dvd hn hdvd, ← List.append_assoc, ← hxs]

/-- Translating block by block with a length-preserving function undoes a
translation that it inverts on single blocks. -/
theorem flatMap_toBlocks_flatMap {n : Nat} (hn : 0 < n) {f g : List α → List α}
    (hf : ∀ b, b.length = n → (f b).length = n) (hgf : ∀ b, b.length = n → g (f b) = b)
    {xs : List α} (h : n ∣ xs.length) :
    (toBlocks n ((toBlocks n xs).flatMap f)).flatMap g = xs := by
  have hlen : ∀ b ∈ (toBlocks n xs).map f, b.length = n := by
    intro b hb
    obtain ⟨a, ha, rfl⟩ := List.mem_map.mp hb
    exact hf a (length_of_mem_toBlocks hn ha)
  have hid : ((toBlocks n xs).map f).map g = toBlocks n xs := by
    rw [List.map_map]
    conv_rhs => rw [← List.map_id (toBlocks n xs)]
    exact List.map_congr_left fun b hb => hgf b (length_of_mem_toBlocks hn hb)
  simp only [List.flatMap_def]
  rw [toBlocks_flatten hn hlen, hid, flatten_toBlocks hn h]

/-- Translating block by block keeps the length when every block does. -/
theorem length_flatMap_toBlocks {n : Nat} (hn : 0 < n) {f : List α → List β}
    (hf : ∀ b, b.length = n → (f b).length = n) (xs : List α) :
    ((toBlocks n xs).flatMap f).length = n * (xs.length / n) := by
  have hsum : ∀ bs : List (List α), (∀ b ∈ bs, b.length = n) →
      (bs.flatMap f).length = n * bs.length := by
    intro bs hbs
    induction bs with
    | nil => simp
    | cons b bs ih =>
        rw [List.flatMap_cons, List.length_append, hf b (hbs b (by simp)),
          ih fun c hc => hbs c (by simp [hc]), List.length_cons]
        ring
  rw [hsum _ fun b hb => length_of_mem_toBlocks hn hb, toBlocks_length]

end Silence.Lib
