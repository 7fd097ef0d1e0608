import SiteRouter.Regex.Basic
import SiteRouter.Text.CharacterNames
import SiteRouter.Text.Hex
import SiteRouter.Text.Identifier

/-!
# The lexemes of an expression

The text of an expression is cut into lexemes: single characters and sets, anchors, references,
bars, openings and closings of groups, and repetition counts. Each is recognised from the text at
its place alone; `lexemes` never fails, but ends in a fault where no lexeme can be read.
-/

namespace SiteRouter.Regex

open Text

/-- Why the text of an expression is rejected. -/
inductive SyntaxFault where
  /-- A backslash before a letter or digit without a meaning, before too few digits, before a number
  that is no code point or before an unknown name. -/
  | badEscape
  /-- An escaped number of 2147483648 or more. -/
  | codeTooLarge
  /-- A set without an end. -/
  | unterminatedSet
  /-- A range whose ends are in the wrong order or are no characters. -/
  | badRange
  /-- A group that starts with a question mark and is of no known kind. -/
  | unknownGroup
  /-- A comment without an end. -/
  | unterminatedComment
  /-- A group name that is no identifier. -/
  | badGroupName
  /-- A repetition whose least count is above its greatest. -/
  | countsReversed
  /-- A repetition count of 4294967295 or more. -/
  | countTooLarge
  /-- A repetition count of more than 4300 digits. -/
  | countTooLong
  /-- A repetition of nothing or of a place. -/
  | nothingToRepeat
  /-- A repetition of a repetition. -/
  | multipleRepeat
  /-- A group without an end. -/
  | unterminatedGroup
  /-- An end of a group that is not open. -/
  | unbalancedParenthesis
  /-- A reference to a group that does not exist. -/
  | unknownReference
  /-- A reference to a group from inside it. -/
  | openReference
  /-- A second group of one name. -/
  | duplicateGroupName
deriving DecidableEq, Repr

/-- The kinds of groups. -/
inductive Opening where
  /-- A group whose text is kept. -/
  | capture (name : Option (List Char))
  /-- A group that only holds its expression together. -/
  | plain
  /-- A group of which only the first way to match counts. -/
  | atomic
  /-- A condition on what follows. -/
  | ahead
deriving DecidableEq, Repr

/-- A lexeme of an expression. -/
inductive Lexeme where
  /-- An expression that reads one character. -/
  | single (r : Regex)
  | anchor (a : Anchor)
  | backref (number : Nat)
  | bar
  | opening (kind : Opening)
  | closing
  /-- A repetition of what precedes it. -/
  | count (min : Nat) (max : Option Nat) (mode : Mode)
  | fault (f : SyntaxFault)
deriving Repr

/-! ## Escapes -/

/-- The number in the next `width` characters, which must all be hexadecimal digits. -/
def fixedHex? (width : Nat) (cs : List Char) : Option Nat :=
  if width ≤ cs.length then hexNumber? (cs.take width) else none

/-- Whether the character is an ASCII digit. -/
def isAsciiDigit (c : Char) : Bool := '0' ≤ c && c ≤ '9'

/-- Whether the character is an octal digit. -/
def isOctalDigit (c : Char) : Bool := '0' ≤ c && c ≤ '7'

/-- Whether the character is an ASCII letter. -/
def isAsciiLetter (c : Char) : Bool := ('a' ≤ c && c ≤ 'z') || ('A' ≤ c && c ≤ 'Z')

/-- The number that ASCII digits stand for in a base. -/
def numberIn (base : Nat) (cs : List Char) : Nat :=
  cs.foldl (fun n c => n * base + (c.toNat - '0'.toNat)) 0

/-- The categories with a letter, and whether the letter stands for the complement. -/
def categoryOf? : Char → Option (Category × Bool)
  | 'd' => some (.digit, false)
  | 'D' => some (.digit, true)
  | 's' => some (.blank, false)
  | 'S' => some (.blank, true)
  | 'w' => some (.word, false)
  | 'W' => some (.word, true)
  | _ => none

/-- The control characters with a letter of their own. -/
def controlOf? : Char → Option Nat
  | 'a' => some 7
  | 'f' => some 12
  | 'n' => some 10
  | 'r' => some 13
  | 't' => some 9
  | 'v' => some 11
  | _ => none

/-- The places with a letter of their own. -/
def placeOf? : Char → Option Anchor
  | 'A' => some .start
  | 'Z' => some .finish
  | 'b' => some .wordEdge
  | 'B' => some .noWordEdge
  | _ => none

/-- Whether the character occurs in names of characters. -/
def isNamePart (c : Char) : Bool := isAsciiLetter c || isAsciiDigit c || c = ' ' || c = '-'

/-- A number written in hexadecimal, and the number of its digits. -/
def fixedCode (width : Nat) (cs : List Char) : Except SyntaxFault (Nat × Nat) :=
  match fixedHex? width cs with
  | some n => .ok (n, width)
  | none => .error .badEscape

/-- A code point written with eight digits, which may be none. -/
def longCode (cs : List Char) : Except SyntaxFault (Nat × Nat) :=
  (fixedCode 8 cs).bind fun (n, digits) =>
    if n ≤ 0x10FFFF then .ok (n, digits)
    else if n < 2147483648 then .error .badEscape
    else .error .codeTooLarge

/-- The code point of the character whose name stands between braces, and the number of characters
that this takes. -/
def namedCode [CharacterNames] : List Char → Except SyntaxFault (Nat × Nat)
  | '{' :: cs =>
    let name := cs.takeWhile isNamePart
    if name ≠ [] ∧ (cs.dropWhile isNamePart).head? = some '}' then
      match CharacterNames.character? name with
      | some c => .ok (c.toNat, name.length + 2)
      | none => .error .badEscape
    else .error .badEscape
  | _ => .error .badEscape

/-- The letters before a code point. -/
def codeLetters : List Char := ['x', 'u', 'U', 'N']

/-- The code point after such a letter, and the number of characters that it takes: one in
hexadecimal, or for the letter `N` that of a named character. -/
def codeEscape [CharacterNames] (letter : Char) (cs : List Char) :
    Except SyntaxFault (Nat × Nat) :=
  match letter with
  | 'x' => fixedCode 2 cs
  | 'u' => fixedCode 4 cs
  | 'U' => longCode cs
  | _ => namedCode cs

/-! ## Sets -/

/-- A piece of the text of a set. -/
inductive SetAtom where
  | code (n : Nat)
  /-- A minus sign without a backslash. -/
  | dash
  | category (kind : Category) (negated : Bool)
deriving DecidableEq, Repr

namespace SetAtom

/-- The atom after a backslash, and the number of characters it takes. -/
def ofEscape [CharacterNames] : List Char → Except SyntaxFault (SetAtom × Nat)
  | [] => .error .badEscape
  | d :: ds =>
    match categoryOf? d, controlOf? d with
    | some (kind, negated), _ => .ok (.category kind negated, 1)
    | none, some n => .ok (.code n, 1)
    | none, none =>
      if d = 'b' then .ok (.code 8, 1)
      else if codeLetters.contains d then
        (codeEscape d ds).map fun (n, extra) => (.code n, 1 + extra)
      else if isOctalDigit d then
        let digits := d :: (ds.take 2).takeWhile isOctalDigit
        let n := numberIn 8 digits
        if n ≤ 0o377 then .ok (.code n, digits.length) else .error .badEscape
      else if isAsciiDigit d || isAsciiLetter d then .error .badEscape
      else .ok (.code d.toNat, 1)

/-- Puts an atom before those of the rest of a set, which starts one character later. -/
def before (atoms : List SetAtom) (rest : List SetAtom × Except SyntaxFault Nat) :
    List SetAtom × Except SyntaxFault Nat :=
  (atoms ++ rest.1, rest.2.map (· + 1))

/-- The atoms of a set up to the bracket that ends it, and the number of characters read; or the
atoms up to a fault. A bracket at the very start is an atom; `skip` characters belong to the atom
before. -/
def read [CharacterNames] : Bool → Nat → List Char → List SetAtom × Except SyntaxFault Nat
  | _, _, [] => ([], .error .unterminatedSet)
  | first, skip + 1, _ :: cs => before [] (read first skip cs)
  | first, 0, c :: cs =>
    if c = ']' && !first then ([], .ok 1)
    else if c = '\\' then
      match ofEscape cs with
      | .error f => ([], .error f)
      | .ok (atom, extra) => before [atom] (read false extra cs)
    else before [if c = '-' then .dash else .code c.toNat] (read false 0 cs)

/-- The code point of an atom that is one. -/
def code? : SetAtom → Option Nat
  | code n => some n
  | dash => some '-'.toNat
  | category _ _ => none

/-- The member that an atom stands for by itself. -/
def item : SetAtom → SetItem
  | code n => .code n
  | dash => .code '-'.toNat
  | category kind negated => .category kind negated

/-- The members of a set: a minus sign between two atoms makes a range of them. -/
def items : List SetAtom → Except SyntaxFault (List SetItem)
  | a :: .dash :: b :: rest =>
    match a.code?, b.code? with
    | some lo, some hi =>
      if lo ≤ hi then (items rest).map (SetItem.range lo hi :: ·) else .error .badRange
    | _, _ => .error .badRange
  | a :: rest => (items rest).map (a.item :: ·)
  | [] => .ok []

end SetAtom

/-- The expression for a set: a set of one code point is that character. -/
def ofSet (negated : Bool) (items : List SetItem) : Regex :=
  match items.eraseDups with
  | [.code n] => if negated then .notChar n else .char n
  | items => .set ⟨negated, items⟩

/-! ## Lexemes and their lengths -/

/-- A lexeme, if there is one, and the number of characters it takes after its first. -/
abbrev Reading := Option Lexeme × Nat

/-- The reading of a fault. -/
def Reading.fault (f : SyntaxFault) : Reading := (some (.fault f), 0)

/-- The reading of a single character. -/
def Reading.char (n : Nat) (extra : Nat) : Reading := (some (.single (.char n)), extra)

/-- The reading of a set from its atoms. A bad range is found before any fault after it. -/
def setReading (negated : Bool) (read : List SetAtom × Except SyntaxFault Nat) : Reading :=
  match SetAtom.items read.1, read.2 with
  | .error f, _ => .fault f
  | .ok _, .error f => .fault f
  | .ok items, .ok n => (some (.single (ofSet negated items)), n + if negated then 1 else 0)

/-- Reads a set after its opening bracket. -/
def readSet [CharacterNames] (cs : List Char) : Reading :=
  match cs with
  | '^' :: body => setReading true (SetAtom.read true 0 body)
  | body => setReading false (SetAtom.read true 0 body)

/-- Reads a reference or an octal number: three octal digits are a number, fewer digits a reference
of one or two digits. -/
def readNumber (d : Char) (ds : List Char) : Reading :=
  match ds with
  | d₂ :: d₃ :: _ =>
    if isOctalDigit d && isOctalDigit d₂ && isOctalDigit d₃ then
      let n := numberIn 8 [d, d₂, d₃]
      if n ≤ 0o377 then .char n 3 else .fault .badEscape
    else if isAsciiDigit d₂ then (some (.backref (numberIn 10 [d, d₂])), 2)
    else (some (.backref (numberIn 10 [d])), 1)
  | [d₂] =>
    if isAsciiDigit d₂ then (some (.backref (numberIn 10 [d, d₂])), 2)
    else (some (.backref (numberIn 10 [d])), 1)
  | [] => (some (.backref (numberIn 10 [d])), 1)

/-- Reads what a backslash and the characters after it stand for. -/
def readEscape [CharacterNames] : List Char → Reading
  | [] => .fault .badEscape
  | d :: ds =>
    match categoryOf? d, controlOf? d, placeOf? d with
    | some (kind, negated), _, _ =>
      (some (.single (.set ⟨false, [.category kind negated]⟩)), 1)
    | none, some n, _ => .char n 1
    | none, none, some a => (some (.anchor a), 1)
    | none, none, none =>
      if codeLetters.contains d then
        match codeEscape d ds with
        | .ok (n, extra) => .char n (1 + extra)
        | .error f => .fault f
      else if d = '0' then
        let digits := (ds.take 2).takeWhile isOctalDigit
        .char (numberIn 8 digits) (1 + digits.length)
      else if isAsciiDigit d then readNumber d ds
      else if isAsciiLetter d then .fault .badEscape
      else .char d.toNat 1

/-- How the character after a count changes its mode, and how many characters that takes. -/
def modeOf (cs : List Char) : Mode × Nat :=
  match cs with
  | '?' :: _ => (.lazy, 1)
  | '+' :: _ => (.possessive, 1)
  | _ => (.greedy, 0)

/-- Reads a count whose sign takes `extra` characters after its first and is followed by the given
text. -/
def readCount (min : Nat) (max : Option Nat) (extra : Nat) (after : List Char) : Reading :=
  let (mode, n) := modeOf after
  (some (.count min max mode), extra + n)

/-- What is wrong with the digits of a count. -/
def countFault? (digits : List Char) : Option SyntaxFault :=
  if 4300 < digits.length then some .countTooLong
  else if 4294967295 ≤ numberIn 10 digits then some .countTooLarge
  else none

/-- Reads a count between braces. -/
def readBounds (lo : List Char) (hi : List Char) (extra : Nat) (after : List Char) : Reading :=
  match countFault? lo, countFault? hi with
  | some f, _ => .fault f
  | none, some f => .fault f
  | none, none =>
    let min := numberIn 10 lo
    let max := if hi.isEmpty then none else some (numberIn 10 hi)
    if max.any (· < min) then .fault .countsReversed else readCount min max extra after

/-- Reads what follows an opening brace; a brace that starts no count is a character. -/
def readBrace (cs : List Char) : Reading :=
  let lo := cs.takeWhile isAsciiDigit
  match cs.dropWhile isAsciiDigit with
  | '}' :: after =>
    if lo.isEmpty then .char '{'.toNat 0 else readBounds lo lo (lo.length + 1) after
  | ',' :: rest =>
    let hi := rest.takeWhile isAsciiDigit
    match rest.dropWhile isAsciiDigit with
    | '}' :: after => readBounds lo hi (lo.length + hi.length + 2) after
    | _ => .char '{'.toNat 0
  | _ => .char '{'.toNat 0

/-- The number of characters of a comment up to the parenthesis that ends it. -/
def commentLength? : List Char → Option Nat
  | '\\' :: _ :: cs => (commentLength? cs).map (· + 2)
  | c :: cs => if c = ')' then some 1 else (commentLength? cs).map (· + 1)
  | [] => none

/-- Reads the opening of a group after its parenthesis. -/
def readOpening : List Char → Reading
  | '?' :: ':' :: _ => (some (.opening .plain), 2)
  | '?' :: '>' :: _ => (some (.opening .atomic), 2)
  | '?' :: '=' :: _ => (some (.opening .ahead), 2)
  | '?' :: '#' :: cs =>
    match commentLength? cs with
    | some n => (none, n + 2)
    | none => .fault .unterminatedComment
  | '?' :: 'P' :: '<' :: cs =>
    let name := cs.takeWhile (· != '>')
    if name.length < cs.length && isIdentifier name then
      (some (.opening (.capture (some name))), name.length + 4)
    else .fault .badGroupName
  | '?' :: _ => .fault .unknownGroup
  | _ => (some (.opening (.capture none)), 0)

/-- Reads the lexeme that starts with the given character. -/
def readLexeme [CharacterNames] (c : Char) (cs : List Char) : Reading :=
  match c with
  | '\\' => readEscape cs
  | '.' => (some (.single .any), 0)
  | '^' => (some (.anchor .start), 0)
  | '$' => (some (.anchor .lineEnd), 0)
  | '|' => (some .bar, 0)
  | '(' => readOpening cs
  | ')' => (some .closing, 0)
  | '[' => readSet cs
  | '*' => readCount 0 none 0 cs
  | '+' => readCount 1 none 0 cs
  | '?' => readCount 0 (some 1) 0 cs
  | '{' => readBrace cs
  | _ => .char c.toNat 0

/-- The lexemes of a text whose first `skip` characters belong to a lexeme before it. -/
def lexemesAfter [CharacterNames] : Nat → List Char → List Lexeme
  | _, [] => []
  | skip + 1, _ :: cs => lexemesAfter skip cs
  | 0, c :: cs =>
    match readLexeme c cs with
    | (some l, n) => l :: lexemesAfter n cs
    | (none, n) => lexemesAfter n cs

/-- The lexemes of a text. -/
def lexemes [CharacterNames] (cs : List Char) : List Lexeme := lexemesAfter 0 cs

/-- Skipped characters may as well be dropped. -/
theorem lexemesAfter_eq_drop [CharacterNames] (n : Nat) (cs : List Char) :
    lexemesAfter n cs = lexemes (cs.drop n) := by
  induction cs generalizing n with
  | nil => cases n <;> simp [lexemes, lexemesAfter]
  | cons c cs ih => cases n <;> simp [lexemes, lexemesAfter, ih]

end SiteRouter.Regex
