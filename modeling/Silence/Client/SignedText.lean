import Silence.Client.KeyExchange

/-!
# Silence.Client.SignedText

Which encrypted keys share the text that `send_aes_key` hashes and signs.

The text is the first number followed by the second one, in hexadecimal, with
nothing in between. So it stays the same when the last digits of the first number
become the first digits of the second one, and this is the only way in which two
encrypted keys can share it.
-/

namespace Silence.Client

open Silence.Lib Silence.Crypto
open Server (hexText)

/-- The second key arises from the first one by moving the last digits of the first number to the
front of the second number. -/
def MovesDigits (c c' : EncryptedMessage) : Prop :=
  Lib.MovesDigits c.c1.toNat c.c2.toNat c'.c1.toNat c'.c2.toNat

/-- The values of a ciphertext. -/
def InRange (p : Int) (c : EncryptedMessage) : Prop :=
  (1 ≤ c.c1 ∧ c.c1 ≤ p - 1) ∧ 1 ≤ c.c2 ∧ c.c2 ≤ p - 1

theorem exists_sentText {p : Int} {c : EncryptedMessage} (h : InRange p c) :
    ∃ text, sentText c = .ok text ∧ bytesOf text = toHex c.c1.toNat ++ toHex c.c2.toNat := by
  obtain ⟨⟨h1, -⟩, h2, -⟩ := h
  obtain ⟨t1, ht1⟩ : ∃ text, hexText c.c1 = .ok text := ⟨_, Server.hexText_of_nonneg (by omega)⟩
  obtain ⟨t2, ht2⟩ : ∃ text, hexText c.c2 = .ok text := ⟨_, Server.hexText_of_nonneg (by omega)⟩
  refine ⟨senderText t1 t2, by rw [sentText, ht1, ht2]; rfl, ?_⟩
  rw [senderText, bytesOf_append, (Server.hexText_spec ht1).2, (Server.hexText_spec ht2).2]

/-- Two different encrypted keys are signed by different texts, unless one of them arises from the
other by moving digits from the first number to the second one. -/
theorem sentTexts_ne_iff {p : Int} {c c' : EncryptedMessage} (hc : InRange p c)
    (hc' : InRange p c') (hne : c ≠ c') :
    ∃ text text', sentText c = .ok text ∧ sentText c' = .ok text' ∧
      (bytesOf text ≠ bytesOf text' ↔ ¬ MovesDigits c c' ∧ ¬ MovesDigits c' c) := by
  obtain ⟨text, htext, hbytes⟩ := exists_sentText hc
  obtain ⟨text', htext', hbytes'⟩ := exists_sentText hc'
  obtain ⟨⟨h1, -⟩, h2, -⟩ := hc
  obtain ⟨⟨h1', -⟩, h2', -⟩ := hc'
  have hdistinct : ¬ (c.c1.toNat = c'.c1.toNat ∧ c.c2.toNat = c'.c2.toNat) := by
    rintro ⟨heq1, heq2⟩
    have h1 : c.c1 = c'.c1 := by omega
    have h2 : c.c2 = c'.c2 := by omega
    cases c
    cases c'
    exact hne (by simp_all)
  refine ⟨text, text', htext, htext', ?_⟩
  rw [hbytes, hbytes', ne_eq,
    toHex_append_eq_iff (by omega) (by omega) (by omega) (by omega), ← not_or]
  exact not_congr (or_iff_right hdistinct)

/-- The keys with the halves 1 and 2, and 2 and 1, whose texts are 12 and 21. -/
theorem sentTexts_ne_iff_exchanged :
    ∃ text text', sentText ⟨1, 2⟩ = .ok text ∧ sentText ⟨2, 1⟩ = .ok text' ∧
      bytesOf text ≠ bytesOf text' := by
  have hfirst : ¬ MovesDigits ⟨1, 2⟩ ⟨2, 1⟩ := by
    intro h
    obtain ⟨m, -, hm, -⟩ : Lib.MovesDigits 1 2 2 1 := h
    have hpos : 0 < 16 ^ (Nat.digits 16 m).length := Nat.pow_pos (by decide)
    omega
  have hsecond : ¬ MovesDigits ⟨2, 1⟩ ⟨1, 2⟩ := by
    intro h
    obtain ⟨m, hpos, hm, -⟩ : Lib.MovesDigits 2 1 1 2 := h
    have hlt : m < 16 ^ (Nat.digits 16 m).length := Nat.lt_base_pow_length_digits (by decide)
    omega
  obtain ⟨text, text', h, h', hne⟩ := @sentTexts_ne_iff HybridCryptoSystem.elGamalP ⟨1, 2⟩ ⟨2, 1⟩
    (by unfold InRange; decide) (by unfold InRange; decide) (by decide)
  exact ⟨text, text', h, h', hne.mpr ⟨hfirst, hsecond⟩⟩

/-- The keys with the halves 0x1 and 0x11, and 0x11 and 0x1, are signed by the text 111. -/
theorem sentText_shared :
    InRange HybridCryptoSystem.elGamalP ⟨0x1, 0x11⟩ ∧
      InRange HybridCryptoSystem.elGamalP ⟨0x11, 0x1⟩ ∧
      (⟨0x1, 0x11⟩ : EncryptedMessage) ≠ ⟨0x11, 0x1⟩ ∧
      sentText ⟨0x1, 0x11⟩ = .ok "111" ∧ sentText ⟨0x11, 0x1⟩ = .ok "111" := by
  unfold InRange
  decide

end Silence.Client
