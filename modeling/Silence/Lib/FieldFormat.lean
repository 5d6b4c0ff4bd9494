import Silence.Lib.Radix

/-!
# Silence.Lib.FieldFormat

Texts of numeric fields after a format, as `std::put_time` writes them and
`std::get_time` reads them.

A number is written with as many digits as its item says. It is read from at most so
many digits and checked against a range, and reading stops at the first item that does
not fit; the numbers up to there are what has been read. `scanFields_printFields` says
when all of them come back.
-/

namespace Silence.Lib

/-- An item of a format: a number with its width and its range, a character, or white space. -/
inductive FormatItem where
  | number (width low high : Nat)
  | literal (c : UInt8)
  | space
  deriving DecidableEq, Repr

def isWhiteSpace (c : UInt8) : Bool := c = 0x20 || (0x09 ≤ c && c ≤ 0x0D)

/-! ### Numbers -/

def decimalChar (d : Nat) : UInt8 := UInt8.ofNat (0x30 + d)

/-- The last digits of a number. -/
def decimal (width n : Nat) : List UInt8 := (beDigits 10 width n).map decimalChar

def decimalValue (c : UInt8) : Option Nat :=
  if 0x30 ≤ c ∧ c ≤ 0x39 then some (c.toNat - 0x30) else none

/-- The digits at the beginning of a text, at most so many, and what follows them. -/
def takeDigits : Nat → List UInt8 → List Nat × List UInt8
  | width + 1, c :: text =>
      match decimalValue c with
      | some d =>
          let (digits, rest) := takeDigits width text
          (d :: digits, rest)
      | none => ([], c :: text)
  | _, text => ([], text)

/-- The number that digits write. -/
def ofDecimal (digits : List Nat) : Nat := digits.foldl (fun n d => 10 * n + d) 0

theorem decimalChar_spec {d : Nat} (hd : d < 10) :
    decimalValue (decimalChar d) = some d ∧ isWhiteSpace (decimalChar d) = false := by
  have h : ∀ d : Fin 10, decimalValue (decimalChar d) = some d.val ∧
      isWhiteSpace (decimalChar d) = false := by decide
  exact h ⟨d, hd⟩

/-- All the digits of a number of the width are taken, whatever follows. -/
theorem takeDigits_map {digits : List Nat} (h : ∀ d ∈ digits, d < 10) (rest : List UInt8) :
    takeDigits digits.length (digits.map decimalChar ++ rest) = (digits, rest) := by
  induction digits with
  | nil => cases rest <;> rfl
  | cons d digits ih =>
      obtain ⟨hd, hdigits⟩ := List.forall_mem_cons.mp h
      rw [List.length_cons, List.map_cons, List.cons_append, takeDigits, (decimalChar_spec hd).1,
        ih hdigits]

theorem takeDigits_decimal (width n : Nat) (rest : List UInt8) :
    takeDigits width (decimal width n ++ rest) = (beDigits 10 width n, rest) := by
  have hsmall : ∀ d ∈ beDigits 10 width n, d < 10 := fun d hd =>
    lt_of_mem_beDigits (by decide) hd
  have hdigits := takeDigits_map hsmall rest
  rwa [length_beDigits] at hdigits

theorem ofDecimal_beDigits {width n : Nat} (h : n < 10 ^ width) :
    ofDecimal (beDigits 10 width n) = n := by
  induction width generalizing n with
  | zero =>
      obtain rfl : n = 0 := by simpa using h
      rfl
  | succ width ih =>
      have hdiv : n / 10 < 10 ^ width := Nat.div_lt_of_lt_mul (by rwa [← Nat.pow_succ'])
      have hrest := ih hdiv
      unfold ofDecimal at hrest ⊢
      rw [beDigits_succ_append, List.foldl_append, hrest]
      exact Nat.div_add_mod n 10

/-- A number of some digits does not begin with white space. -/
theorem dropWhile_decimal {width : Nat} (hwidth : 0 < width) (n : Nat) (rest : List UInt8) :
    (decimal width n ++ rest).dropWhile isWhiteSpace = decimal width n ++ rest := by
  obtain ⟨width, rfl⟩ : ∃ w, width = w + 1 := ⟨width - 1, by omega⟩
  have hdigit : n / 10 ^ width % 10 < 10 := Nat.mod_lt _ (by decide)
  unfold decimal
  rw [beDigits, List.map_cons, List.cons_append, List.dropWhile_cons_of_neg]
  rw [(decimalChar_spec hdigit).2]
  exact Bool.false_ne_true

/-! ### Formats -/

/-- The text of some numbers; it ends where the numbers do not suffice. -/
def printFields : List FormatItem → List Nat → List UInt8
  | .number width _ _ :: items, n :: numbers => decimal width n ++ printFields items numbers
  | .literal c :: items, numbers => c :: printFields items numbers
  | .space :: items, numbers => 0x20 :: printFields items numbers
  | _, _ => []

/-- The numbers that are read from a text. -/
def scanFields : List FormatItem → List UInt8 → List Nat
  | [], _ => []
  | .number width low high :: items, text =>
      let (digits, rest) := takeDigits width text
      if digits ≠ [] ∧ low ≤ ofDecimal digits ∧ ofDecimal digits ≤ high then
        ofDecimal digits :: scanFields items rest
      else []
  | .literal c :: items, text =>
      if text.head? = some c then scanFields items text.tail else []
  | .space :: items, text => scanFields items (text.dropWhile isWhiteSpace)

/-- The numbers are those of the format, each in its range and with at most so many digits. White
space is followed by a number. -/
def Fits : List FormatItem → List Nat → Prop
  | [], numbers => numbers = []
  | .number width low high :: items, n :: numbers =>
      0 < width ∧ low ≤ n ∧ n ≤ high ∧ n < 10 ^ width ∧ Fits items numbers
  | .number _ _ _ :: _, [] => False
  | .literal _ :: items, numbers => Fits items numbers
  | .space :: .number width low high :: items, numbers =>
      Fits (.number width low high :: items) numbers
  | .space :: _, _ => False

/-- Numbers that fit a format are read from their text. -/
theorem scanFields_printFields {items : List FormatItem} {numbers : List Nat}
    (h : Fits items numbers) : scanFields items (printFields items numbers) = numbers := by
  induction items generalizing numbers with
  | nil =>
      have hnil : numbers = [] := h
      rw [hnil]
      rfl
  | cons item items ih =>
      cases item with
      | number width low high =>
          cases numbers with
          | nil => exact h.elim
          | cons n numbers =>
              obtain ⟨hwidth, hlow, hhigh, hdigits, hrest⟩ := h
              have hne : beDigits 10 width n ≠ [] := by
                rw [← List.length_pos_iff, length_beDigits]
                exact hwidth
              rw [printFields, scanFields, takeDigits_decimal]
              dsimp only
              rw [ofDecimal_beDigits hdigits, if_pos ⟨hne, hlow, hhigh⟩, ih hrest]
      | literal c =>
          rw [printFields, scanFields, List.head?_cons, if_pos rfl, List.tail_cons]
          exact ih h
      | space =>
          cases items with
          | nil => exact h.elim
          | cons next items =>
              cases next with
              | number width low high =>
                  cases numbers with
                  | nil => exact h.elim
                  | cons n numbers =>
                      have hfits : Fits (.number width low high :: items) (n :: numbers) := h
                      have hskip : (0x20 :: printFields (.number width low high :: items)
                          (n :: numbers)).dropWhile isWhiteSpace =
                          printFields (.number width low high :: items) (n :: numbers) :=
                        (List.dropWhile_cons_of_pos rfl).trans (dropWhile_decimal hfits.1 n _)
                      rw [printFields, scanFields, hskip]
                      exact ih hfits
              | literal c => exact h.elim
              | space => exact h.elim

end Silence.Lib
