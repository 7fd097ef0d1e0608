/-!
# UTF-8

A character as one to four octets, and octets as characters. Octets that are no character become
U+FFFD, one for each longest part that a character could start with and one for each other octet,
so that reading never fails. Writing never fails either, since a character is a Unicode scalar value
and a text holds no lone surrogate.
-/

namespace SiteRouter.Text.Utf8

/-- The octets of a code point. -/
def encodeCode (n : Nat) : List Nat :=
  if n < 0x80 then [n]
  else if n < 0x800 then [0xC0 + n / 0x40, 0x80 + n % 0x40]
  else if n < 0x10000 then [0xE0 + n / 0x1000, 0x80 + n / 0x40 % 0x40, 0x80 + n % 0x40]
  else
    [0xF0 + n / 0x40000, 0x80 + n / 0x1000 % 0x40, 0x80 + n / 0x40 % 0x40, 0x80 + n % 0x40]

/-- The octets of a character. -/
def encodeChar (c : Char) : List Nat := encodeCode c.toNat

/-- The octets of a text. -/
def encode (cs : List Char) : List Nat := cs.flatMap encodeChar

@[simp] theorem encode_nil : encode [] = [] := rfl

@[simp] theorem encode_cons (c : Char) (cs : List Char) :
    encode (c :: cs) = encodeChar c ++ encode cs := rfl

@[simp] theorem encode_append (s t : List Char) : encode (s ++ t) = encode s ++ encode t :=
  List.flatMap_append

/-- Every octet of a character is below 256. -/
theorem lt_of_mem_encodeChar {c : Char} {b : Nat} (h : b ∈ encodeChar c) : b < 256 := by
  have hc : c.toNat < 0x110000 := by
    have := c.valid
    rcases this with h | ⟨_, h⟩ <;> simp only [Char.toNat] at * <;> omega
  unfold encodeChar encodeCode at h
  split at h
  · simp at h; omega
  · split at h
    · simp at h; omega
    · split at h <;> (simp at h; omega)

/-- What stands for octets that are no character. -/
def replacement : Char := Char.ofNat 0xFFFD

/-- Whether the octet continues a character. -/
def isContinuation (b : Nat) : Bool := 0x80 ≤ b && b < 0xC0

/-- The bounds of the octet after a first octet: they exclude overlong forms, surrogates and code
points above U+10FFFF. -/
def secondBounds (b : Nat) : Nat × Nat :=
  if b = 0xE0 then (0xA0, 0xC0)
  else if b = 0xED then (0x80, 0xA0)
  else if b = 0xF0 then (0x90, 0xC0)
  else if b = 0xF4 then (0x80, 0x90)
  else (0x80, 0xC0)

/-- Whether the second octet may follow the first. -/
def follows (first second : Nat) : Bool :=
  (secondBounds first).1 ≤ second && second < (secondBounds first).2

/-- How many octets follow the first one, and what it adds to the code point; nothing if no
character starts with it. -/
def lead? (b : Nat) : Option (Nat × Nat) :=
  if 0xC2 ≤ b && b < 0xE0 then some (1, b - 0xC0)
  else if 0xE0 ≤ b && b < 0xF0 then some (2, b - 0xE0)
  else if 0xF0 ≤ b && b < 0xF5 then some (3, b - 0xF0)
  else none

/-- The characters that the octets stand for. -/
def decode : List Nat → List Char
  | [] => []
  | b :: rest =>
    if b < 0x80 then Char.ofNat b :: decode rest
    else match lead? b with
    | none => replacement :: decode rest
    | some (more, high) =>
      match rest with
      | [] => [replacement]
      | b₂ :: rest₂ =>
        if !follows b b₂ then replacement :: decode (b₂ :: rest₂)
        else
          let two := high * 0x40 + (b₂ - 0x80)
          if more = 1 then Char.ofNat two :: decode rest₂
          else match rest₂ with
          | [] => [replacement]
          | b₃ :: rest₃ =>
            if !isContinuation b₃ then replacement :: decode (b₃ :: rest₃)
            else
              let three := two * 0x40 + (b₃ - 0x80)
              if more = 2 then Char.ofNat three :: decode rest₃
              else match rest₃ with
              | [] => [replacement]
              | b₄ :: rest₄ =>
                if !isContinuation b₄ then replacement :: decode (b₄ :: rest₄)
                else Char.ofNat (three * 0x40 + (b₄ - 0x80)) :: decode rest₄

end SiteRouter.Text.Utf8
