import SiteRouter.Text.Utf8
import SiteRouter.Text.Hex

/-!
# Percent escapes

The codec of URL components: `encode` writes every octet outside a safe set as `%XX`, `decode` reads
the escapes back. Octets that stand next to each other, escaped or not, are read together as UTF-8;
a character outside ASCII is no octet and separates them. Every text has octets, since it holds no
lone surrogate.
-/

namespace SiteRouter.Text.Percent

/-- The ASCII letters and digits and `_`, `.`, `-`, `~`, which are never escaped. -/
def isUnreserved (b : Nat) : Bool :=
  (0x41 ≤ b && b ≤ 0x5A) || (0x61 ≤ b && b ≤ 0x7A) || (0x30 ≤ b && b ≤ 0x39) ||
    b == 0x5F || b == 0x2E || b == 0x2D || b == 0x7E

/-- Whether the octet is written as it is: an unreserved one or an ASCII character of the safe
set. -/
def isPlain (safe : List Char) (b : Nat) : Bool :=
  isUnreserved b || (b < 0x80 && safe.contains (Char.ofNat b))

/-- The escape of an octet. -/
def escape (b : Nat) : List Char := ['%', upperHexDigit (b / 16), upperHexDigit (b % 16)]

/-- An octet as it is written. -/
def encodeOctet (safe : List Char) (b : Nat) : List Char :=
  if isPlain safe b then [Char.ofNat b] else escape b

/-- The text with every octet that is not plain escaped. -/
def encodeChars (safe cs : List Char) : List Char := (Utf8.encode cs).flatMap (encodeOctet safe)

@[simp] theorem encodeChars_nil (safe : List Char) : encodeChars safe [] = [] := rfl

/-- Texts are encoded one after the other. -/
@[simp] theorem encodeChars_append (safe s t : List Char) :
    encodeChars safe (s ++ t) = encodeChars safe s ++ encodeChars safe t := by
  simp [encodeChars]

/-- The octet that two hexadecimal digits stand for. -/
def octet? (high low : Char) : Option Nat :=
  match hexValue? high, hexValue? low with
  | some h, some l => some (h * 16 + l)
  | _, _ => none

/-- The characters of the text, `pending` being the octets read so far and not yet decoded, latest
first. -/
def decodeAfter (pending : List Nat) : List Char → List Char
  | [] => Utf8.decode pending.reverse
  | '%' :: high :: low :: rest =>
    match octet? high low with
    | some b => decodeAfter (b :: pending) rest
    | none => decodeAfter (0x25 :: pending) (high :: low :: rest)
  | c :: rest =>
    if c.toNat < 0x80 then decodeAfter (c.toNat :: pending) rest
    else Utf8.decode pending.reverse ++ c :: decodeAfter [] rest

/-- The text with its escapes read. -/
def decodeChars (cs : List Char) : List Char := decodeAfter [] cs

/-- Escapes every character outside the unreserved and the safe ones. -/
def encode (safe : List Char) (s : String) : String := String.ofList (encodeChars safe s.toList)

/-- Reads the escapes of a text; a percent sign without two digits stands for itself. -/
def decode (s : String) : String := String.ofList (decodeChars s.toList)

end SiteRouter.Text.Percent
