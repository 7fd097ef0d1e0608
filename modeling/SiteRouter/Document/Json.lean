import SiteRouter.Value.Mapping
import SiteRouter.Fault
import SiteRouter.Text.Hex

/-!
# JSON documents

The reader follows the grammar of JSON with the words `NaN`, `Infinity` and `-Infinity` as numbers.
A key that occurs again changes the value of its first occurrence. Every step of the reader takes at
least one character, so the length of the text bounds their number, and a value read comes with the
text after it.
-/

namespace SiteRouter.Document.Json

open Text

/-- The text without the blanks at its start. -/
def skipBlanks (cs : List Char) : List Char :=
  cs.dropWhile fun c => c = ' ' || c = '\t' || c = '\n' || c = '\r'

/-- The number in the next four characters, which must be hexadecimal digits. -/
def fourDigits : List Char → Except Fault (Nat × List Char)
  | a :: b :: c :: d :: rest =>
    match hexNumber? [a, b, c, d] with
    | some n => .ok (n, rest)
    | none => .error .badJson
  | _ => .error .badJson

/-- Whether the number is the first half of a pair of surrogates. -/
def isHighSurrogate (n : Nat) : Bool := 0xD800 ≤ n && n < 0xDC00

/-- Whether the number is the second half of a pair of surrogates. -/
def isLowSurrogate (n : Nat) : Bool := 0xDC00 ≤ n && n < 0xE000

/-- The character of an escape with four digits; two surrogates make one character. -/
def unicodeEscape (cs : List Char) : Except Fault (Char × List Char) := do
  let (n, rest) ← fourDigits cs
  if isHighSurrogate n then
    match rest with
    | '\\' :: 'u' :: more =>
      let (m, after) ← fourDigits more
      if isLowSurrogate m then
        return (Char.ofNat (0x10000 + (n - 0xD800) * 0x400 + (m - 0xDC00)), after)
      else return (Char.ofNat 0xFFFD, rest)
    | _ => return (Char.ofNat 0xFFFD, rest)
  else if isLowSurrogate n then return (Char.ofNat 0xFFFD, rest)
  else return (Char.ofNat n, rest)

/-- The character that a letter stands for after a backslash. -/
def escapeOf? : Char → Option Char
  | '"' => some '"'
  | '\\' => some '\\'
  | '/' => some '/'
  | 'b' => some '\x08'
  | 'f' => some '\x0c'
  | 'n' => some '\n'
  | 'r' => some '\r'
  | 't' => some '\t'
  | _ => none

/-- The characters of a text up to its end mark, after those read already, latest first. -/
def textFrom (read : List Char) : Nat → List Char → Except Fault (String × List Char)
  | 0, _ => .error .badJson
  | _ + 1, [] => .error .badJson
  | fuel + 1, c :: cs =>
    if c = '"' then .ok (String.ofList read.reverse, cs)
    else if c = '\\' then
      match cs with
      | 'u' :: rest => do
        let (d, rest) ← unicodeEscape rest
        textFrom (d :: read) fuel rest
      | d :: rest =>
        match escapeOf? d with
        | some e => textFrom (e :: read) fuel rest
        | none => .error .badJson
      | [] => .error .badJson
    else if c.toNat < 0x20 then .error .badJson
    else textFrom (c :: read) fuel cs

/-- The digits of an exponent with its letter and sign, if there is one. -/
def exponentText (cs : List Char) : List Char :=
  match cs with
  | e :: rest =>
    if e = 'e' || e = 'E' then
      let sign := rest.take (if rest.head? = some '+' || rest.head? = some '-' then 1 else 0)
      let digits := (rest.drop sign.length).takeWhile Char.isDigit
      if digits.isEmpty then [] else e :: sign ++ digits
    else []
  | [] => []

/-- A point with the digits after it, if there are some. -/
def fractionText (cs : List Char) : List Char :=
  match cs with
  | '.' :: rest =>
    let digits := rest.takeWhile Char.isDigit
    if digits.isEmpty then [] else '.' :: digits
  | _ => []

/-- A number after its sign. A number without fraction and exponent is an integer. -/
def number (negative : Bool) (cs : List Char) : Except Fault (Value × List Char) :=
  let digits :=
    if cs.head? = some '0' then ['0'] else cs.takeWhile Char.isDigit
  if digits.isEmpty then .error .badJson
  else
    let rest := cs.drop digits.length
    let fraction := fractionText rest
    let rest := rest.drop fraction.length
    let exponent := exponentText rest
    let rest := rest.drop exponent.length
    if fraction.isEmpty && exponent.isEmpty then
      if 4300 < digits.length then .error .wrongValue
      else
        let n := Binary64.digitsValue digits
        .ok (.int (if negative then -(n : Int) else n), rest)
    else
      match Binary64.ofPlain? negative (digits ++ fraction ++ exponent) with
      | some x => .ok (.float x, rest)
      | none => .error .badJson

mutual

/-- The value at the start of a text. -/
def value : Nat → List Char → Except Fault (Value × List Char)
  | 0, _ => .error .badJson
  | fuel + 1, cs =>
    match cs with
    | '"' :: rest => do
      let (s, rest) ← textFrom [] fuel rest
      return (.str s, rest)
    | '\x7b' :: rest =>
      match skipBlanks rest with
      | '\x7d' :: rest => .ok (.map [], rest)
      | rest => members [] fuel rest
    | '[' :: rest =>
      match skipBlanks rest with
      | ']' :: rest => .ok (.list [], rest)
      | rest => elements [] fuel rest
    | 'n' :: 'u' :: 'l' :: 'l' :: rest => .ok (.null, rest)
    | 't' :: 'r' :: 'u' :: 'e' :: rest => .ok (.bool true, rest)
    | 'f' :: 'a' :: 'l' :: 's' :: 'e' :: rest => .ok (.bool false, rest)
    | 'N' :: 'a' :: 'N' :: rest => .ok (.float .nan, rest)
    | 'I' :: 'n' :: 'f' :: 'i' :: 'n' :: 'i' :: 't' :: 'y' :: rest =>
      .ok (.float (.infinite false), rest)
    | '-' :: 'I' :: 'n' :: 'f' :: 'i' :: 'n' :: 'i' :: 't' :: 'y' :: rest =>
      .ok (.float (.infinite true), rest)
    | '-' :: rest => number true rest
    | cs => number false cs

/-- The elements of a list up to its end, after those read already, latest first. -/
def elements (read : List Value) : Nat → List Char → Except Fault (Value × List Char)
  | 0, _ => .error .badJson
  | fuel + 1, cs => do
    let (v, rest) ← value fuel cs
    match skipBlanks rest with
    | ']' :: rest => .ok (.list (v :: read).reverse, rest)
    | ',' :: rest => elements (v :: read) fuel (skipBlanks rest)
    | _ => .error .badJson

/-- The entries of a mapping up to its end, after those entered already. -/
def members (read : Mapping) : Nat → List Char → Except Fault (Value × List Char)
  | 0, _ => .error .badJson
  | fuel + 1, cs =>
    match cs with
    | '"' :: rest => do
      let (key, rest) ← textFrom [] fuel rest
      match skipBlanks rest with
      | ':' :: rest =>
        let (v, rest) ← value fuel (skipBlanks rest)
        let read := read.put (.str key) v
        match skipBlanks rest with
        | '\x7d' :: rest => .ok (.map read, rest)
        | ',' :: rest => members read fuel (skipBlanks rest)
        | _ => .error .badJson
      | _ => .error .badJson
    | _ => .error .badJson

end

/-- The value of a document. -/
def parse (s : String) : Except Fault Value := do
  let cs := s.toList
  let (v, rest) ← value (2 * cs.length + 2) (skipBlanks cs)
  if (skipBlanks rest).isEmpty then return v else .error .badJson

end SiteRouter.Document.Json
