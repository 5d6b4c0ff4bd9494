import Mathlib.Data.List.TakeWhile

/-!
# Silence.Lib.JsonText

The texts of flat JSON objects: how they are written and read.

The members of a flat object are strings, integers, booleans and `null`. The writer
escapes what must not stand in a string, the reader takes the texts of the grammar
(RFC 8259) without fractions, exponents and surrogates. `readObject_objectText` proves
that the reader undoes the writer, for every layout of the white space.
-/

namespace Silence.Lib.JsonText

/-! ### Characters -/

def quotationMark : Char := Char.ofNat 0x22

def reverseSolidus : Char := Char.ofNat 0x5C

def leftBrace : Char := Char.ofNat 0x7B

def rightBrace : Char := Char.ofNat 0x7D

/-- Space, horizontal tab, line feed and carriage return. -/
def isSpace (c : Char) : Bool :=
  c.toNat = 0x20 || c.toNat = 0x09 || c.toNat = 0x0A || c.toNat = 0x0D

/-- The characters with an escape of two characters, each with the second one. -/
def shortEscapes : List (Char × Char) := [
  (quotationMark, quotationMark), (reverseSolidus, reverseSolidus), (Char.ofNat 0x08, 'b'),
  (Char.ofNat 0x0C, 'f'), (Char.ofNat 0x0A, 'n'), (Char.ofNat 0x0D, 'r'), (Char.ofNat 0x09, 't')]

/-- What a character is written as in a string. -/
def escape (c : Char) : List Char :=
  match shortEscapes.lookup c with
  | some e => [reverseSolidus, e]
  | none =>
      if c.toNat ≤ 0x1F then
        [reverseSolidus, 'u', '0', '0', Nat.digitChar (c.toNat / 16), Nat.digitChar (c.toNat % 16)]
      else [c]

/-- The character that an escape of two characters stands for. -/
def unescape (e : Char) : Option Char :=
  if e = '/' then some '/'
  else (shortEscapes.find? fun entry => entry.2 = e).map (·.1)

def hexValue (c : Char) : Option Nat :=
  if c.isDigit then some (c.toNat - 0x30)
  else if 0x61 ≤ c.toNat ∧ c.toNat ≤ 0x66 then some (c.toNat - 0x57)
  else if 0x41 ≤ c.toNat ∧ c.toNat ≤ 0x46 then some (c.toNat - 0x37)
  else none

/-- The character with the code; none for a surrogate. -/
def charOf (d₃ d₂ d₁ d₀ : Char) : Option Char := do
  let code := (((← hexValue d₃) * 16 + (← hexValue d₂)) * 16 + (← hexValue d₁)) * 16 +
    (← hexValue d₀)
  if 0xD800 ≤ code ∧ code ≤ 0xDFFF then none
  else some (Char.ofNat code)

/-! ### Objects -/

inductive Scalar where
  | null
  | boolean (value : Bool)
  | integer (value : Int)
  | string (value : String)
  deriving DecidableEq, Repr

abbrev Members := List (String × Scalar)

/-- Where the white space stands: before each member, behind its colon, and before the end. -/
structure Layout where
  member : List Char
  value : List Char
  close : List Char

/-- There is nothing else in the layout. -/
structure Layout.Blank (layout : Layout) : Prop where
  member : ∀ c ∈ layout.member, isSpace c = true
  value : ∀ c ∈ layout.value, isSpace c = true
  close : ∀ c ∈ layout.close, isSpace c = true

/-- No white space at all. -/
def compact : Layout := ⟨[], [], []⟩

/-- A line for each member, indented by `n` spaces. -/
def indented (n : Nat) : Layout :=
  ⟨Char.ofNat 0x0A :: List.replicate n (Char.ofNat 0x20), [Char.ofNat 0x20], [Char.ofNat 0x0A]⟩

/-! ### Writing -/

def stringText (text : String) : List Char :=
  quotationMark :: text.toList.flatMap escape ++ [quotationMark]

def integerText (n : Int) : List Char :=
  if n < 0 then '-' :: Nat.toDigits 10 n.natAbs else Nat.toDigits 10 n.natAbs

def Scalar.text : Scalar → List Char
  | .null => ['n', 'u', 'l', 'l']
  | .boolean true => ['t', 'r', 'u', 'e']
  | .boolean false => ['f', 'a', 'l', 's', 'e']
  | .integer value => integerText value
  | .string value => stringText value

def memberText (layout : Layout) (member : String × Scalar) : List Char :=
  layout.member ++ (stringText member.1 ++ ':' :: (layout.value ++ member.2.text))

def membersText (layout : Layout) : Members → List Char
  | [] => []
  | [member] => memberText layout member
  | member :: members => memberText layout member ++ ',' :: membersText layout members

def objectText (layout : Layout) (members : Members) : List Char :=
  if members = [] then [leftBrace, rightBrace]
  else leftBrace :: (membersText layout members ++ layout.close ++ [rightBrace])

/-! ### Reading -/

def skipSpaces (cs : List Char) : List Char := cs.dropWhile isSpace

/-- The given character, and what follows it. -/
def token (c : Char) : List Char → Option (List Char)
  | [] => none
  | c' :: cs => if c' = c then some cs else none

/-- The rest of a string behind its first quotation mark. -/
def readChars : List Char → Option (List Char × List Char)
  | [] => none
  | c :: cs =>
      if c = quotationMark then some ([], cs)
      else if c = reverseSolidus then
        match cs with
        | [] => none
        | e :: cs =>
            if e = 'u' then
              match cs with
              | d₃ :: d₂ :: d₁ :: d₀ :: cs => do
                  let c ← charOf d₃ d₂ d₁ d₀
                  let (text, rest) ← readChars cs
                  return (c :: text, rest)
              | _ => none
            else do
              let c ← unescape e
              let (text, rest) ← readChars cs
              return (c :: text, rest)
      else if c.toNat ≤ 0x1F then none
      else do
        let (text, rest) ← readChars cs
        return (c :: text, rest)

/-- A numeral without leading zeros, which no fraction and no exponent follows. -/
def readNat (cs : List Char) : Option (Nat × List Char) :=
  let digits := cs.takeWhile Char.isDigit
  let rest := cs.dropWhile Char.isDigit
  let value := Nat.ofDigitChars 10 digits 0
  if Nat.toDigits 10 value ≠ digits then none
  else if rest.head? = some '.' ∨ rest.head? = some 'e' ∨ rest.head? = some 'E' then none
  else some (value, rest)

def readWord (word : List Char) (value : Scalar) (cs : List Char) : Option (Scalar × List Char) :=
  if word <+: cs then some (value, cs.drop word.length) else none

def readScalar : List Char → Option (Scalar × List Char)
  | [] => none
  | c :: cs =>
      if c = quotationMark then do
        let (text, rest) ← readChars cs
        return (.string (String.ofList text), rest)
      else if c = 'n' then readWord ['u', 'l', 'l'] .null cs
      else if c = 't' then readWord ['r', 'u', 'e'] (.boolean true) cs
      else if c = 'f' then readWord ['a', 'l', 's', 'e'] (.boolean false) cs
      else if c = '-' then do
        let (n, rest) ← readNat cs
        return (.integer (-n), rest)
      else do
        let (n, rest) ← readNat (c :: cs)
        return (.integer n, rest)

/-- A member, with the white space around it. -/
def readMember (cs : List Char) : Option ((String × Scalar) × List Char) := do
  let cs ← token quotationMark (skipSpaces cs)
  let (key, cs) ← readChars cs
  let cs ← token ':' (skipSpaces cs)
  let (value, cs) ← readScalar (skipSpaces cs)
  return ((String.ofList key, value), skipSpaces cs)

/-- At most so many members, up to the end of the object. -/
def readMembers : Nat → List Char → Option (Members × List Char)
  | 0, _ => none
  | n + 1, cs => do
      let (member, cs) ← readMember cs
      match cs with
      | [] => none
      | c :: cs =>
          if c = ',' then do
            let (members, rest) ← readMembers n cs
            return (member :: members, rest)
          else if c = rightBrace then some ([member], cs)
          else none

/-- A text that is an object. -/
def readObject (cs : List Char) : Option Members := do
  let cs ← token leftBrace (skipSpaces cs)
  let (members, rest) ←
    match token rightBrace (skipSpaces cs) with
    | some rest => some ([], rest)
    | none => readMembers cs.length cs
  if skipSpaces rest = [] then some members else none

/-! ### Strings -/

theorem hexValue_digitChar : ∀ d < 16, hexValue (Nat.digitChar d) = some d := by decide

/-- A control character is read from its code. -/
theorem charOf_control {c : Char} (h : c.toNat ≤ 0x1F) :
    charOf '0' '0' (Nat.digitChar (c.toNat / 16)) (Nat.digitChar (c.toNat % 16)) = some c := by
  have hzero : hexValue '0' = some 0 := rfl
  have hcode : ((0 * 16 + 0) * 16 + c.toNat / 16) * 16 + c.toNat % 16 = c.toNat := by omega
  simp only [charOf, hzero, hexValue_digitChar (c.toNat / 16) (by omega),
    hexValue_digitChar (c.toNat % 16) (by omega), Option.bind_eq_bind, Option.bind_some, hcode]
  rw [if_neg (by omega), Char.ofNat_toNat]

theorem mem_shortEscapes {c e : Char} (h : shortEscapes.lookup c = some e) :
    (c, e) ∈ shortEscapes := by
  obtain ⟨front, back, hsplit, -⟩ := List.lookup_eq_some_iff.mp h
  rw [hsplit]
  exact List.mem_append_right _ List.mem_cons_self

/-- An escape of two characters stands for the character it is written for. -/
theorem unescape_of_lookup {c e : Char} (h : shortEscapes.lookup c = some e) :
    e ≠ 'u' ∧ unescape e = some c := by
  have hall : ∀ entry ∈ shortEscapes, entry.2 ≠ 'u' ∧ unescape entry.2 = some entry.1 := by decide
  exact hall (c, e) (mem_shortEscapes h)

theorem readChars_quotationMark (cs : List Char) :
    readChars (quotationMark :: cs) = some ([], cs) := by
  rw [readChars.eq_def]
  rfl

theorem reverseSolidus_ne : reverseSolidus ≠ quotationMark := by decide

theorem readChars_short {c e : Char} (h : e ≠ 'u' ∧ unescape e = some c) (cs : List Char) :
    readChars (reverseSolidus :: e :: cs) =
      (readChars cs).map fun (text, rest) => (c :: text, rest) := by
  rw [readChars.eq_def]
  dsimp only
  rw [if_neg reverseSolidus_ne, if_pos rfl, if_neg h.1, h.2]
  cases readChars cs <;> rfl

theorem readChars_code {c d₃ d₂ d₁ d₀ : Char} (h : charOf d₃ d₂ d₁ d₀ = some c)
    (cs : List Char) :
    readChars (reverseSolidus :: 'u' :: d₃ :: d₂ :: d₁ :: d₀ :: cs) =
      (readChars cs).map fun (text, rest) => (c :: text, rest) := by
  rw [readChars.eq_def]
  dsimp only
  rw [if_neg reverseSolidus_ne, if_pos rfl, if_pos rfl, h]
  cases readChars cs <;> rfl

theorem readChars_plain {c : Char} (hquote : c ≠ quotationMark) (hsolidus : c ≠ reverseSolidus)
    (hcontrol : ¬ c.toNat ≤ 0x1F) (cs : List Char) :
    readChars (c :: cs) = (readChars cs).map fun (text, rest) => (c :: text, rest) := by
  rw [readChars.eq_def]
  dsimp only
  rw [if_neg hquote, if_neg hsolidus, if_neg hcontrol]
  cases readChars cs <;> rfl

/-- The escape of a character is read as the character. -/
theorem readChars_escape (c : Char) (cs : List Char) :
    readChars (escape c ++ cs) = (readChars cs).map fun (text, rest) => (c :: text, rest) := by
  rw [escape]
  cases hlookup : shortEscapes.lookup c with
  | some e => exact readChars_short (unescape_of_lookup hlookup) cs
  | none =>
      dsimp only
      split
      · exact readChars_code (charOf_control ‹_›) cs
      · refine readChars_plain ?_ ?_ ‹_› cs
        · rintro rfl
          cases hlookup
        · rintro rfl
          cases hlookup

/-- A string is read up to its second quotation mark. -/
theorem readChars_text (text rest : List Char) :
    readChars (text.flatMap escape ++ quotationMark :: rest) = some (text, rest) := by
  induction text with
  | nil => exact readChars_quotationMark rest
  | cons c text ih => rw [List.flatMap_cons, List.append_assoc, readChars_escape, ih]; rfl

theorem stringText_append (text : String) (rest : List Char) :
    stringText text ++ rest =
      quotationMark :: (text.toList.flatMap escape ++ quotationMark :: rest) := by
  simp [stringText]

/-! ### Values -/

/-- What may follow a value: nothing, white space, a comma or the end of the object. -/
def Follows (rest : List Char) : Prop :=
  ∀ c ∈ rest.head?, c = ',' ∨ c = rightBrace ∨ isSpace c = true

theorem isDigit_iff (c : Char) : c.isDigit = true ↔ 0x30 ≤ c.toNat ∧ c.toNat ≤ 0x39 :=
  Char.isDigit_iff_toNat

theorem isSpace_iff (c : Char) : isSpace c = true ↔
    c.toNat = 0x20 ∨ c.toNat = 0x09 ∨ c.toNat = 0x0A ∨ c.toNat = 0x0D := by
  simp [isSpace, or_assoc]

/-- What follows a value does not go on with a number. -/
theorem not_number_of_follows {rest : List Char} (h : Follows rest) :
    (∀ c ∈ rest.head?, c.isDigit = false) ∧
      ¬ (rest.head? = some '.' ∨ rest.head? = some 'e' ∨ rest.head? = some 'E') := by
  have hdigit : ∀ c, c = ',' ∨ c = rightBrace ∨ isSpace c = true → c.isDigit = false := by
    rintro c (rfl | rfl | hspace)
    · decide
    · decide
    · rw [isSpace_iff] at hspace
      rw [Bool.eq_false_iff, Ne, isDigit_iff]
      omega
  refine ⟨fun c hc => hdigit c (h c hc), ?_⟩
  rintro (hc | hc | hc)
  · exact absurd (h _ hc) (by decide)
  · exact absurd (h _ hc) (by decide)
  · exact absurd (h _ hc) (by decide)

theorem readNat_toDigits (n : Nat) {rest : List Char} (h : Follows rest) :
    readNat (Nat.toDigits 10 n ++ rest) = some (n, rest) := by
  obtain ⟨hdigit, hfraction⟩ := not_number_of_follows h
  have hall : ∀ c ∈ Nat.toDigits 10 n, c.isDigit = true :=
    fun c hc => Nat.isDigit_of_mem_toDigits (by decide) (by decide) hc
  have htake : rest.takeWhile Char.isDigit = [] := by
    cases rest with
    | nil => rfl
    | cons c rest => rw [List.takeWhile_cons_of_neg (by simp [hdigit c rfl])]
  have hdrop : rest.dropWhile Char.isDigit = rest := by
    cases rest with
    | nil => rfl
    | cons c rest => rw [List.dropWhile_cons_of_neg (by simp [hdigit c rfl])]
  rw [readNat, List.takeWhile_append_of_pos hall, List.dropWhile_append_of_pos hall, htake, hdrop,
    List.append_nil, Nat.ofDigitChars_ten_toDigits, if_neg (not_not_intro rfl),
    if_neg hfraction]

/-- The first digit of a number. -/
theorem toDigits_eq_cons (n : Nat) : ∃ c cs, Nat.toDigits 10 n = c :: cs ∧ c.isDigit = true := by
  cases h : Nat.toDigits 10 n with
  | nil => exact absurd h Nat.toDigits_ne_nil
  | cons c cs =>
      have hmem : c ∈ Nat.toDigits 10 n := by
        rw [h]
        exact List.mem_cons_self
      exact ⟨c, cs, rfl, Nat.isDigit_of_mem_toDigits (by decide) (by decide) hmem⟩

/-- A number does not start like another value. -/
theorem readScalar_of_isDigit {c : Char} (h : c.isDigit = true) (cs : List Char) :
    readScalar (c :: cs) =
      (readNat (c :: cs)).map fun (n, rest) => (.integer n, rest) := by
  have hne : ∀ c', c'.isDigit = false → c ≠ c' := by
    rintro c' hc' rfl
    rw [h] at hc'
    cases hc'
  rw [readScalar, if_neg (hne _ (by decide)), if_neg (hne _ (by decide)),
    if_neg (hne _ (by decide)), if_neg (hne _ (by decide)), if_neg (hne _ (by decide))]
  cases readNat (c :: cs) <;> rfl

theorem readWord_append (word : List Char) (value : Scalar) (rest : List Char) :
    readWord word value (word ++ rest) = some (value, rest) := by
  rw [readWord, if_pos (List.prefix_append _ _), List.drop_left]

/-- Every value is read back. -/
theorem readScalar_text (value : Scalar) {rest : List Char} (h : Follows rest) :
    readScalar (value.text ++ rest) = some (value, rest) := by
  cases value with
  | null => exact readWord_append ['u', 'l', 'l'] .null rest
  | boolean value =>
      cases value with
      | true => exact readWord_append ['r', 'u', 'e'] (.boolean true) rest
      | false => exact readWord_append ['a', 'l', 's', 'e'] (.boolean false) rest
  | integer value =>
      rw [Scalar.text, integerText]
      split
      · rename_i hneg
        have habs : -((value.natAbs : Nat) : Int) = value := by omega
        rw [List.cons_append, readScalar, if_neg (by decide), if_neg (by decide),
          if_neg (by decide), if_neg (by decide), if_pos rfl, readNat_toDigits _ h]
        exact congrArg (fun n => some (Scalar.integer n, rest)) habs
      · rename_i hnonneg
        have habs : ((value.natAbs : Nat) : Int) = value := by omega
        obtain ⟨c, cs, hdigits, hc⟩ := toDigits_eq_cons value.natAbs
        rw [hdigits, List.cons_append, readScalar_of_isDigit hc, ← List.cons_append, ← hdigits,
          readNat_toDigits _ h]
        exact congrArg (fun n => some (Scalar.integer n, rest)) habs
  | string value =>
      rw [Scalar.text, stringText_append, readScalar, if_pos rfl, readChars_text]
      exact congrArg (fun text => some (Scalar.string text, rest)) String.ofList_toList

/-! ### Members -/

theorem skipSpaces_append {blank : List Char} (h : ∀ c ∈ blank, isSpace c = true)
    (cs : List Char) : skipSpaces (blank ++ cs) = skipSpaces cs :=
  List.dropWhile_append_of_pos h

theorem skipSpaces_cons {c : Char} (h : isSpace c = false) (cs : List Char) :
    skipSpaces (c :: cs) = c :: cs := List.dropWhile_cons_of_neg (by simp [h])

theorem skipSpaces_blank {blank : List Char} (h : ∀ c ∈ blank, isSpace c = true) :
    skipSpaces blank = [] := List.dropWhile_eq_nil_iff.mpr h

theorem token_cons (c : Char) (cs : List Char) : token c (c :: cs) = some cs := if_pos rfl

theorem not_isSpace_of_isDigit {c : Char} (h : c.isDigit = true) : isSpace c = false := by
  rw [isDigit_iff] at h
  rw [Bool.eq_false_iff, Ne, isSpace_iff]
  omega

/-- No value starts with white space. -/
theorem skipSpaces_text (value : Scalar) (rest : List Char) :
    skipSpaces (value.text ++ rest) = value.text ++ rest := by
  cases value with
  | null => exact skipSpaces_cons (by decide) _
  | boolean value => cases value <;> exact skipSpaces_cons (by decide) _
  | integer value =>
      rw [Scalar.text, integerText]
      split
      · exact skipSpaces_cons (by decide) _
      · obtain ⟨c, cs, hdigits, hc⟩ := toDigits_eq_cons value.natAbs
        rw [hdigits, List.cons_append]
        exact skipSpaces_cons (not_isSpace_of_isDigit hc) _
  | string value => exact skipSpaces_cons (by decide) _

theorem readMember_text {layout : Layout} (hblank : layout.Blank) (member : String × Scalar)
    {rest : List Char} (h : Follows rest) :
    readMember (memberText layout member ++ rest) = some (member, skipSpaces rest) := by
  obtain ⟨key, value⟩ := member
  have htext : memberText layout (key, value) ++ rest =
      layout.member ++ quotationMark :: (key.toList.flatMap escape ++ quotationMark ::
        ':' :: (layout.value ++ (value.text ++ rest))) := by
    simp [memberText, stringText]
  rw [htext, readMember, skipSpaces_append hblank.member, skipSpaces_cons (by decide), token_cons]
  simp only [Option.bind_eq_bind, Option.bind_some, readChars_text]
  rw [skipSpaces_cons (by decide), token_cons, Option.bind_some, skipSpaces_append hblank.value,
    skipSpaces_text, readScalar_text value h, Option.bind_some, String.ofList_toList]
  rfl

theorem follows_close {layout : Layout} (hblank : layout.Blank) (rest : List Char) :
    Follows (layout.close ++ rightBrace :: rest) := by
  intro c hc
  cases hclose : layout.close with
  | nil =>
      rw [hclose] at hc
      exact .inr (.inl (Option.some.inj hc).symm)
  | cons c' close =>
      rw [hclose] at hc
      obtain rfl : c' = c := Option.some.inj hc
      exact .inr (.inr (hblank.close c' (by rw [hclose]; exact List.mem_cons_self)))

theorem membersText_cons_cons (layout : Layout) (member next : String × Scalar)
    (members : Members) : membersText layout (member :: next :: members) =
      memberText layout member ++ ',' :: membersText layout (next :: members) := rfl

theorem readMembers_text {layout : Layout} (hblank : layout.Blank) {members : Members}
    (hne : members ≠ []) (rest : List Char) {n : Nat} (hn : members.length ≤ n) :
    readMembers n (membersText layout members ++ (layout.close ++ rightBrace :: rest)) =
      some (members, rest) := by
  induction members generalizing n with
  | nil => exact absurd rfl hne
  | cons member members ih =>
      obtain ⟨n, rfl⟩ := Nat.exists_eq_add_of_lt (Nat.lt_of_lt_of_le (Nat.succ_pos _) hn)
      rw [Nat.zero_add] at hn ⊢
      cases members with
      | nil =>
          rw [readMembers, membersText, readMember_text hblank member (follows_close hblank rest),
            skipSpaces_append hblank.close, skipSpaces_cons (by decide)]
          rfl
      | cons next members =>
          have hfollows : ∀ cs, Follows (',' :: cs) :=
            fun cs c hc => .inl (Option.some.inj hc).symm
          rw [readMembers, membersText_cons_cons, List.append_assoc, List.cons_append,
            readMember_text hblank member (hfollows _), skipSpaces_cons (by decide)]
          simp only [Option.bind_eq_bind, Option.bind_some, if_true]
          rw [ih (List.cons_ne_nil _ _) (Nat.le_of_succ_le_succ hn)]
          rfl

/-- Members start with a quotation mark behind white space. -/
theorem membersText_eq_append (layout : Layout) {members : Members} (hne : members ≠ []) :
    ∃ cs, membersText layout members = layout.member ++ quotationMark :: cs := by
  match members with
  | [member] =>
      exact ⟨_, by rw [membersText, memberText, stringText, List.cons_append, List.cons_append]⟩
  | member :: next :: members =>
      exact ⟨_, by rw [membersText_cons_cons, memberText, stringText, List.cons_append,
        List.cons_append, List.append_assoc, List.cons_append]⟩

theorem length_le_length_membersText (layout : Layout) (members : Members) :
    members.length ≤ (membersText layout members).length := by
  induction members with
  | nil => exact Nat.le_refl 0
  | cons member members ih =>
      cases members with
      | nil =>
          obtain ⟨cs, hcs⟩ := membersText_eq_append layout (List.cons_ne_nil member [])
          rw [hcs, List.length_append, List.length_cons, List.length_cons, List.length_nil]
          omega
      | cons next members =>
          have hcomma : (',' :: membersText layout (next :: members)).length =
              (membersText layout (next :: members)).length + 1 := List.length_cons
          rw [membersText_cons_cons, List.length_append, hcomma, List.length_cons]
          omega

/-- The reader undoes the writer, whatever white space stands around the members and behind the
object. -/
theorem readObject_objectText {layout : Layout} (hblank : layout.Blank) (members : Members)
    {tail : List Char} (htail : ∀ c ∈ tail, isSpace c = true) :
    readObject (objectText layout members ++ tail) = some members := by
  rw [objectText, readObject]
  split
  · rename_i hnil
    rw [List.cons_append, skipSpaces_cons (by decide), token_cons]
    simp only [Option.bind_eq_bind, Option.bind_some]
    rw [List.cons_append, skipSpaces_cons (by decide), token_cons, List.nil_append]
    dsimp only
    rw [skipSpaces_blank htail, if_pos rfl, hnil]
  · rename_i hne
    have htext : leftBrace :: (membersText layout members ++ layout.close ++ [rightBrace]) ++ tail =
        leftBrace :: (membersText layout members ++ (layout.close ++ rightBrace :: tail)) := by
      simp
    obtain ⟨cs, hcs⟩ := membersText_eq_append layout hne
    have hfirst : token rightBrace (skipSpaces (membersText layout members ++
        (layout.close ++ rightBrace :: tail))) = none := by
      rw [hcs, List.append_assoc, skipSpaces_append hblank.member, List.cons_append,
        skipSpaces_cons (by decide)]
      rfl
    have hfuel : members.length ≤ (membersText layout members ++
        (layout.close ++ rightBrace :: tail)).length := by
      rw [List.length_append]
      exact (length_le_length_membersText layout members).trans (Nat.le_add_right _ _)
    rw [htext, skipSpaces_cons (by decide), token_cons]
    simp only [Option.bind_eq_bind, Option.bind_some]
    rw [hfirst]
    dsimp only
    rw [readMembers_text hblank hne tail hfuel, Option.bind_some]
    dsimp only
    rw [skipSpaces_blank htail, if_pos rfl]

/-! ### Layouts -/

theorem blank_compact : compact.Blank := ⟨nofun, nofun, nofun⟩

theorem blank_indented (n : Nat) : (indented n).Blank := by
  have hspace : ∀ c ∈ List.replicate n (Char.ofNat 0x20), isSpace c = true := by
    intro c hc
    rw [List.eq_of_mem_replicate hc]
    decide
  exact ⟨List.forall_mem_cons.mpr ⟨by decide, hspace⟩, List.forall_mem_singleton.mpr (by decide),
    List.forall_mem_singleton.mpr (by decide)⟩

/-! ### Control characters -/

/-- The character is no control character. -/
def Printed (c : Char) : Prop := 0x20 ≤ c.toNat

instance (c : Char) : Decidable (Printed c) := inferInstanceAs (Decidable (_ ≤ _))

theorem printed_escape {c c' : Char} (h : c' ∈ escape c) : Printed c' := by
  have hdigit : ∀ d < 16, Printed (Nat.digitChar d) := by decide
  have hshort : ∀ entry ∈ shortEscapes, Printed entry.2 := by decide
  rw [escape] at h
  cases hlookup : shortEscapes.lookup c with
  | some e =>
      have he : Printed e := hshort (c, e) (mem_shortEscapes hlookup)
      simp only [hlookup, List.mem_cons, List.not_mem_nil, or_false] at h
      rcases h with rfl | rfl
      · decide
      · exact he
  | none =>
      simp only [hlookup] at h
      split at h
      · simp only [List.mem_cons, List.not_mem_nil, or_false] at h
        rcases h with rfl | rfl | rfl | rfl | rfl | rfl
        · decide
        · decide
        · decide
        · decide
        · exact hdigit _ (by omega)
        · exact hdigit _ (by omega)
      · rw [List.mem_singleton.mp h, Printed]
        omega

theorem printed_stringText {text : String} {c : Char} (h : c ∈ stringText text) : Printed c := by
  have hquote : Printed quotationMark := by decide
  simp only [stringText, List.mem_append, List.mem_cons, List.mem_flatMap, List.not_mem_nil,
    or_false] at h
  rcases h with (rfl | ⟨c', -, hc'⟩) | rfl
  · exact hquote
  · exact printed_escape hc'
  · exact hquote

theorem printed_of_isDigit {c : Char} (h : c.isDigit = true) : Printed c := by
  rw [isDigit_iff] at h
  rw [Printed]
  omega

theorem printed_text {value : Scalar} {c : Char} (h : c ∈ value.text) : Printed c := by
  cases value with
  | null =>
      simp only [Scalar.text, List.mem_cons, List.not_mem_nil, or_false] at h
      rcases h with rfl | rfl | rfl | rfl <;> decide
  | boolean value =>
      cases value with
      | true =>
          simp only [Scalar.text, List.mem_cons, List.not_mem_nil, or_false] at h
          rcases h with rfl | rfl | rfl | rfl <;> decide
      | false =>
          simp only [Scalar.text, List.mem_cons, List.not_mem_nil, or_false] at h
          rcases h with rfl | rfl | rfl | rfl | rfl <;> decide
  | integer value =>
      have hdigits : ∀ n, ∀ c ∈ Nat.toDigits 10 n, Printed c := fun n c hc =>
        printed_of_isDigit (Nat.isDigit_of_mem_toDigits (by decide) (by decide) hc)
      rw [Scalar.text, integerText] at h
      split at h
      · rcases List.mem_cons.mp h with rfl | h
        · decide
        · exact hdigits _ c h
      · exact hdigits _ c h
  | string value => exact printed_stringText h

theorem printed_membersText (members : Members) :
    ∀ c ∈ membersText compact members, Printed c := by
  have hmember : ∀ member, ∀ c ∈ memberText compact member, Printed c := by
    rintro ⟨key, value⟩ c hc
    simp only [memberText, compact, List.nil_append, List.mem_append, List.mem_cons] at hc
    rcases hc with hc | rfl | hc
    · exact printed_stringText hc
    · decide
    · exact printed_text hc
  induction members with
  | nil => exact fun c hc => (List.not_mem_nil hc).elim
  | cons member members ih =>
      cases members with
      | nil => exact hmember member
      | cons next members =>
          intro c hc
          rw [membersText_cons_cons, List.mem_append, List.mem_cons] at hc
          rcases hc with hc | rfl | hc
          · exact hmember member c hc
          · decide
          · exact ih c hc

/-- A text without white space has no control characters. -/
theorem printed_objectText {members : Members} {c : Char} (h : c ∈ objectText compact members) :
    Printed c := by
  rw [objectText] at h
  split at h
  · simp only [List.mem_cons, List.not_mem_nil, or_false] at h
    rcases h with rfl | rfl <;> decide
  · simp only [List.mem_cons, List.mem_append, compact, List.not_mem_nil, or_false] at h
    rcases h with rfl | h | rfl
    · decide
    · exact printed_membersText members c h
    · decide

end Silence.Lib.JsonText
