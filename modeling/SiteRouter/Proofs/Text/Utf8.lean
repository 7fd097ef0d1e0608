import Mathlib.Tactic.SplitIfs
import SiteRouter.Text.Utf8

/-!
# UTF-8 is read as it was written

Reading the octets of a text gives the text back. Each length of a character has its own equation
of `decode`, under the conditions on its octets that reading checks; that the octets which
`encodeCode` makes meet them is arithmetic on the code point.
-/

namespace SiteRouter.Text.Utf8

/-- An octet below 0x80 is a character of its own. -/
theorem decode_one {b : Nat} (h : b < 0x80) (rest : List Nat) :
    decode (b :: rest) = Char.ofNat b :: decode rest := by
  rw [decode, if_pos h]

/-- A first octet that starts a longer character is not below 0x80. -/
theorem not_lt_of_lead? {b : Nat} {found : Nat × Nat} (h : lead? b = some found) : ¬b < 0x80 := by
  intro hlt
  unfold lead? at h
  rw [if_neg (by rw [Bool.and_eq_true, decide_eq_true_eq]; omega),
    if_neg (by rw [Bool.and_eq_true, decide_eq_true_eq]; omega),
    if_neg (by rw [Bool.and_eq_true, decide_eq_true_eq]; omega)] at h
  cases h

/-- Two octets of a character. -/
theorem decode_two {b b₂ high : Nat} (hb : lead? b = some (1, high)) (h₂ : follows b b₂ = true)
    (rest : List Nat) :
    decode (b :: b₂ :: rest) = Char.ofNat (high * 0x40 + (b₂ - 0x80)) :: decode rest := by
  rw [decode, if_neg (not_lt_of_lead? hb), hb]
  simp [h₂]

/-- Three octets of a character. -/
theorem decode_three {b b₂ b₃ high : Nat} (hb : lead? b = some (2, high))
    (h₂ : follows b b₂ = true) (h₃ : isContinuation b₃ = true) (rest : List Nat) :
    decode (b :: b₂ :: b₃ :: rest) =
      Char.ofNat ((high * 0x40 + (b₂ - 0x80)) * 0x40 + (b₃ - 0x80)) :: decode rest := by
  rw [decode, if_neg (not_lt_of_lead? hb), hb]
  simp [h₂, h₃]

/-- Four octets of a character. -/
theorem decode_four {b b₂ b₃ b₄ high : Nat} (hb : lead? b = some (3, high))
    (h₂ : follows b b₂ = true) (h₃ : isContinuation b₃ = true) (h₄ : isContinuation b₄ = true)
    (rest : List Nat) :
    decode (b :: b₂ :: b₃ :: b₄ :: rest) =
      Char.ofNat (((high * 0x40 + (b₂ - 0x80)) * 0x40 + (b₃ - 0x80)) * 0x40 + (b₄ - 0x80))
        :: decode rest := by
  rw [decode, if_neg (not_lt_of_lead? hb), hb]
  simp [h₂, h₃, h₄]

/-- The last six bits of a number make an octet that continues a character. -/
theorem isContinuation_mod (n : Nat) : isContinuation (0x80 + n % 0x40) = true := by
  have := Nat.mod_lt n (show 0 < 0x40 by decide)
  rw [isContinuation, Bool.and_eq_true, decide_eq_true_eq, decide_eq_true_eq]
  omega

/-- The second octet may follow the first if it lies between the bounds. -/
theorem follows_eq_true {b b₂ : Nat} (h₂ : 0x80 ≤ b₂ ∧ b₂ < 0xC0) (he0 : b = 0xE0 → 0xA0 ≤ b₂)
    (hed : b = 0xED → b₂ < 0xA0) (hf0 : b = 0xF0 → 0x90 ≤ b₂) (hf4 : b = 0xF4 → b₂ < 0x90) :
    follows b b₂ = true := by
  unfold follows secondBounds
  rw [Bool.and_eq_true, decide_eq_true_eq, decide_eq_true_eq]
  split_ifs <;> dsimp only <;> omega

/-- The first octets that `encodeCode` makes, with what they add to the code point. -/
theorem lead?_two {k : Nat} (h : 2 ≤ k ∧ k < 0x20) : lead? (0xC0 + k) = some (1, k) := by
  unfold lead?
  rw [if_pos (by rw [Bool.and_eq_true, decide_eq_true_eq, decide_eq_true_eq]; omega),
    Nat.add_sub_cancel_left]

theorem lead?_three {k : Nat} (h : k < 0x10) : lead? (0xE0 + k) = some (2, k) := by
  unfold lead?
  rw [if_neg (by rw [Bool.and_eq_true, decide_eq_true_eq, decide_eq_true_eq]; omega),
    if_pos (by rw [Bool.and_eq_true, decide_eq_true_eq, decide_eq_true_eq]; omega),
    Nat.add_sub_cancel_left]

theorem lead?_four {k : Nat} (h : k < 5) : lead? (0xF0 + k) = some (3, k) := by
  unfold lead?
  rw [if_neg (by rw [Bool.and_eq_true, decide_eq_true_eq, decide_eq_true_eq]; omega),
    if_neg (by rw [Bool.and_eq_true, decide_eq_true_eq, decide_eq_true_eq]; omega),
    if_pos (by rw [Bool.and_eq_true, decide_eq_true_eq, decide_eq_true_eq]; omega),
    Nat.add_sub_cancel_left]

/-- The octets of a character are read as the character. -/
theorem decode_encodeChar (c : Char) (rest : List Nat) :
    decode (encodeChar c ++ rest) = c :: decode rest := by
  have hvalid : c.toNat < 0xD800 ∨ (0xDFFF < c.toNat ∧ c.toNat < 0x110000) := c.valid
  have hchar : Char.ofNat c.toNat = c := Char.ofNat_toNat c
  generalize hn : c.toNat = n at hvalid hchar
  rw [encodeChar, hn]
  unfold encodeCode
  -- One case for each number of octets; the bounds on the second octet exclude what a shorter
  -- form, a surrogate or a number that is no code point would give.
  split_ifs with h1 h2 h3
  · rw [List.singleton_append, decode_one h1, hchar]
  · have hlead : lead? (0xC0 + n / 0x40) = some (1, n / 0x40) := lead?_two (by omega)
    have h₂ : follows (0xC0 + n / 0x40) (0x80 + n % 0x40) = true := by
      apply follows_eq_true <;> omega
    have hsum : n / 0x40 * 0x40 + (0x80 + n % 0x40 - 0x80) = n := by omega
    show decode (_ :: _ :: rest) = _
    rw [decode_two hlead h₂, hsum, hchar]
  · have hlead : lead? (0xE0 + n / 0x1000) = some (2, n / 0x1000) := lead?_three (by omega)
    have h₂ : follows (0xE0 + n / 0x1000) (0x80 + n / 0x40 % 0x40) = true := by
      apply follows_eq_true <;> omega
    have hsum : (n / 0x1000 * 0x40 + (0x80 + n / 0x40 % 0x40 - 0x80)) * 0x40
        + (0x80 + n % 0x40 - 0x80) = n := by omega
    show decode (_ :: _ :: _ :: rest) = _
    rw [decode_three hlead h₂ (isContinuation_mod n), hsum, hchar]
  · have hlead : lead? (0xF0 + n / 0x40000) = some (3, n / 0x40000) := lead?_four (by omega)
    have h₂ : follows (0xF0 + n / 0x40000) (0x80 + n / 0x1000 % 0x40) = true := by
      apply follows_eq_true <;> omega
    have hsum : ((n / 0x40000 * 0x40 + (0x80 + n / 0x1000 % 0x40 - 0x80)) * 0x40
        + (0x80 + n / 0x40 % 0x40 - 0x80)) * 0x40 + (0x80 + n % 0x40 - 0x80) = n := by omega
    show decode (_ :: _ :: _ :: _ :: rest) = _
    rw [decode_four hlead h₂ (isContinuation_mod _) (isContinuation_mod n), hsum, hchar]

/-- An ASCII character is one octet. -/
theorem encodeChar_ascii {c : Char} (h : c.toNat < 0x80) : encodeChar c = [c.toNat] := by
  rw [encodeChar, encodeCode, if_pos h]

/-- The octets of any other character are not ASCII. -/
theorem le_of_mem_encodeChar {c : Char} (h : 0x80 ≤ c.toNat) {b : Nat} (hb : b ∈ encodeChar c) :
    0x80 ≤ b := by
  rw [encodeChar, encodeCode, if_neg (Nat.not_lt_of_le h)] at hb
  split_ifs at hb <;> simp only [List.mem_cons, List.not_mem_nil, or_false] at hb <;> omega

/-- A character has an octet. -/
theorem encodeChar_ne_nil (c : Char) : encodeChar c ≠ [] := by
  unfold encodeChar encodeCode
  split_ifs <;> exact List.cons_ne_nil _ _

/-- Octets stand for a character, if only for the one in place of what is none. -/
theorem decode_ne_nil {octets : List Nat} (h : octets ≠ []) : decode octets ≠ [] := by
  cases octets with
  | nil => exact absurd rfl h
  | cons b rest =>
    rw [decode]
    repeat' split
    all_goals exact List.cons_ne_nil _ _

/-- The octets of a text are below 256. -/
theorem lt_of_mem_encode {cs : List Char} {b : Nat} (h : b ∈ encode cs) : b < 256 := by
  obtain ⟨c, -, hc⟩ := List.mem_flatMap.1 h
  exact lt_of_mem_encodeChar hc

/-- The octets of a text are read as the text. -/
theorem decode_encode (cs : List Char) : decode (encode cs) = cs := by
  induction cs with
  | nil => rfl
  | cons c cs ih => rw [encode_cons, decode_encodeChar, ih]

end SiteRouter.Text.Utf8
