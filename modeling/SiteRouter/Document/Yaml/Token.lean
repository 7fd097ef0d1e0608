import SiteRouter.Fault
import SiteRouter.Text.Hex

/-!
# The tokens of a YAML document

The text is cut into scalars and marks. Indentation opens and closes block collections, and a scalar
or flow collection on one line becomes a key when a colon follows it: its key mark is put before it
at that time. Every token takes at least one character, so the length of the text bounds their
number.
-/

namespace SiteRouter.Document.Yaml

open Text

/-- A token of a document. -/
inductive Token where
  | documentStart
  | documentEnd
  | blockSequenceStart
  | blockMappingStart
  | blockEnd
  | flowSequenceStart
  | flowSequenceEnd
  | flowMappingStart
  | flowMappingEnd
  | blockEntry
  | flowEntry
  | key
  | value
  /-- A text, and whether it is written without quotes. -/
  | scalar (text : List Char) (plain : Bool)
  | streamEnd
deriving DecidableEq, Repr

/-! ## Places in the text -/

/-- A place in the text of a document. -/
structure Place where
  /-- The text after the place. -/
  rest : List Char
  /-- The number of characters before it. -/
  index : Nat
  /-- The number of line ends before it. -/
  line : Nat
  /-- The number of characters before it on its line. -/
  column : Nat

/-- Whether the character ends a line. -/
def isBreak (c : Char) : Bool :=
  c = '\n' || c = '\r' || c = '\u0085' || c = '\u2028' || c = '\u2029'

/-- Whether the character is a blank, a tabulator or the end of a line. -/
def isSpace (c : Char) : Bool := c = ' ' || c = '\t' || isBreak c

/-- Whether a text ends or goes on with a blank or a line end. -/
def endsWord (cs : List Char) : Bool := cs.head?.all isSpace

namespace Place

/-- The start of a text. -/
def start (cs : List Char) : Place := ⟨cs, 0, 0, 0⟩

/-- The place after the next character. -/
def next (p : Place) : Place :=
  match p.rest with
  | [] => p
  | c :: cs =>
    if isBreak c && !(c = '\r' && cs.head? = some '\n') then ⟨cs, p.index + 1, p.line + 1, 0⟩
    else ⟨cs, p.index + 1, p.line, if c = '\uFEFF' then p.column else p.column + 1⟩

/-- The place some characters further on. -/
def skip : Nat → Place → Place
  | 0, p => p
  | n + 1, p => skip n p.next

/-- The next character. -/
def peek (p : Place) : Option Char := p.rest.head?

/-- Whether the place lies before the end of a line. -/
def atBreak (p : Place) : Bool := p.peek.any isBreak

/-- What a line end at the place is read as, and the place after it. -/
def lineBreak (p : Place) : List Char × Place :=
  match p.rest with
  | '\r' :: '\n' :: _ => (['\n'], p.skip 2)
  | c :: _ =>
    if c = '\u2028' || c = '\u2029' then ([c], p.next)
    else if isBreak c then (['\n'], p.next)
    else ([], p)
  | [] => ([], p)

/-- Whether a mark of three equal characters stands at the place, followed by a blank. -/
def atMark (p : Place) (c : Char) : Bool :=
  p.rest.take 3 == [c, c, c] && endsWord (p.rest.drop 3)

/-- Whether a document starts or ends at the place, if it is the start of a line. -/
def atDocumentMark (p : Place) : Bool := p.atMark '-' || p.atMark '.'

end Place

/-! ## Plain scalars -/

/-- Whether a plain scalar ends before the text; inside a flow collection its marks end one. -/
def endsPlain (inFlow : Bool) : List Char → Bool
  | [] => true
  | c :: cs =>
    isSpace c ||
      (c = ':' &&
        (endsWord cs || (inFlow && cs.head?.any fun d => ",[]\x7b\x7d".toList.contains d))) ||
      (inFlow && ",?[]\x7b\x7d".toList.contains c)

/-- The characters of a plain scalar up to a blank or its end. -/
def plainRun (inFlow : Bool) : List Char → List Char
  | [] => []
  | c :: cs => if endsPlain inFlow (c :: cs) then [] else c :: plainRun inFlow cs

/-- The line ends after the first one, with the blanks between them left out. Nothing results where
a document starts or ends. -/
def moreBreaks : Nat → List Char → Place → Option (List Char) × Place
  | 0, read, p => (some read, p)
  | fuel + 1, read, p =>
    if p.peek = some ' ' then moreBreaks fuel read p.next
    else if p.atBreak then
      let (b, p) := p.lineBreak
      if p.atDocumentMark then (none, p) else moreBreaks fuel (read ++ b) p
    else (some read, p)

/-- A line end and the empty lines after it as they count inside a scalar: a single line end is a
blank. -/
def folded (first more : List Char) : List Char :=
  if first = ['\n'] then (if more.isEmpty then [' '] else more) else first ++ more

/-- What stands between two words of a plain scalar, whether a line ends there, and the place of the
second word. Nothing results where no word can follow. -/
def plainSpaces (p : Place) : List Char × Bool × Place :=
  let blanks := p.rest.takeWhile (· == ' ')
  let p := p.skip blanks.length
  if p.atBreak then
    let (first, p) := p.lineBreak
    if p.atDocumentMark then ([], true, p)
    else
      match moreBreaks (p.rest.length + 1) [] p with
      | (some more, p) => (folded first more, true, p)
      | (none, p) => ([], true, p)
  else (blanks, false, p)

/-- The words of a plain scalar after those read already, whether a line ended among them, and the
place after them. -/
def plainWords (inFlow : Bool) (indent : Int) :
    Nat → List Char → List Char → Bool → Place → List Char × Bool × Place
  | 0, read, _, broken, p => (read, broken, p)
  | fuel + 1, read, spaces, broken, p =>
    let word := if p.peek = some '#' then [] else plainRun inFlow p.rest
    if word.isEmpty then (read, broken, p)
    else
      let read := read ++ spaces ++ word
      let (spaces, breaks, p) := plainSpaces (p.skip word.length)
      if spaces.isEmpty || p.peek = some '#' || (!inFlow && (p.column : Int) < indent) then
        (read, breaks, p)
      else plainWords inFlow indent fuel read spaces breaks p

/-! ## Quoted scalars -/

/-- The character that a letter stands for after a backslash. -/
def escapeOf? : Char → Option Char
  | '0' => some '\x00'
  | 'a' => some '\x07'
  | 'b' => some '\x08'
  | 't' => some '\t'
  | '\t' => some '\t'
  | 'n' => some '\n'
  | 'v' => some '\x0b'
  | 'f' => some '\x0c'
  | 'r' => some '\r'
  | 'e' => some '\x1b'
  | ' ' => some ' '
  | '"' => some '"'
  | '\\' => some '\\'
  | '/' => some '/'
  | 'N' => some '\u0085'
  | '_' => some '\u00a0'
  | 'L' => some '\u2028'
  | 'P' => some '\u2029'
  | _ => none

/-- The number of hexadecimal digits after a letter that takes them. -/
def escapeWidth? : Char → Option Nat
  | 'x' => some 2
  | 'u' => some 4
  | 'U' => some 8
  | _ => none

/-- The line ends in a quoted scalar, with the blanks around them left out. A document must not
start or end inside. -/
def quotedBreaks : Nat → List Char → Place → Except Fault (List Char × Place)
  | 0, _, _ => .error .badYaml
  | fuel + 1, read, p =>
    if p.atDocumentMark then .error .badYaml
    else
      let p := p.skip (p.rest.takeWhile fun c => c = ' ' || c = '\t').length
      if p.atBreak then
        let (b, p) := p.lineBreak
        quotedBreaks fuel (read ++ b) p
      else .ok (read, p)

/-- What an escape stands for, and the place after it. A number above all code points is a fault of
its own. -/
def quotedEscape (p : Place) : Except Fault (List Char × Place) :=
  match p.rest with
  | [] => .error .badYaml
  | c :: cs =>
    match escapeOf? c, escapeWidth? c with
    | some d, _ => .ok ([d], p.next)
    | none, some width =>
      let digits := cs.take width
      match if digits.length = width then hexNumber? digits else none with
      | some n =>
        if n ≤ 0x10FFFF then .ok ([Char.ofNat n], p.skip (width + 1))
        else .error (if n ≤ 0x7FFFFFFF then .wrongValue else .outOfRange)
      | none => .error .badYaml
    | none, none =>
      if isBreak c then
        let (_, p) := p.lineBreak
        quotedBreaks (p.rest.length + 1) [] p
      else .error .badYaml

/-- The text of a quoted scalar after what is read already, and the place after its end mark. -/
def quotedText (mark : Char) :
    Nat → List Char → Place → Except Fault (List Char × Place)
  | 0, _, _ => .error .badYaml
  | fuel + 1, read, p =>
    match p.rest with
    | [] => .error .badYaml
    | c :: cs =>
      if c = mark then
        if mark = '\'' && cs.head? = some '\'' then quotedText mark fuel (read ++ ['\'']) (p.skip 2)
        else .ok (read, p.next)
      else if mark = '"' && c = '\\' then do
        let (text, p) ← quotedEscape p.next
        quotedText mark fuel (read ++ text) p
      else if isSpace c then
        let blanks := p.rest.takeWhile fun c => c = ' ' || c = '\t'
        let p := p.skip blanks.length
        if p.atBreak then do
          let (first, p) := p.lineBreak
          let (more, p) ← quotedBreaks (p.rest.length + 1) [] p
          quotedText mark fuel (read ++ folded first more) p
        else quotedText mark fuel (read ++ blanks) p
      else quotedText mark fuel (read ++ [c]) p.next

/-! ## The scanner -/

/-- A token that becomes a key if a colon follows it. -/
structure Candidate where
  /-- The number of tokens before it. -/
  position : Nat
  /-- Whether a key must stand here. -/
  required : Bool
  /-- Its place. -/
  index : Nat
  line : Nat
  column : Nat

/-- What has been scanned of a document. -/
structure Scanner where
  /-- The place in the text. -/
  place : Place
  /-- The tokens in order. -/
  tokens : List Token
  /-- The column of the innermost block collection; -1 outside of all. -/
  indent : Int
  /-- The columns of the collections around it. -/
  indents : List Int
  /-- The candidate of each open flow collection, innermost first, and of the block around them. -/
  candidates : List (Option Candidate)
  /-- Whether a key may start at the place. -/
  keyAllowed : Bool

namespace Scanner

/-- Before the first token. -/
def start (cs : List Char) : Scanner := ⟨.start cs, [], -1, [], [none], true⟩

/-- Whether the place lies inside a flow collection. -/
def inFlow (s : Scanner) : Bool := 1 < s.candidates.length

/-- Adds a token. -/
def emit (s : Scanner) (t : Token) : Scanner := { s with tokens := s.tokens ++ [t] }

/-- Adds a token of some characters. -/
def emitSkip (s : Scanner) (t : Token) (n : Nat) : Scanner :=
  { s.emit t with place := s.place.skip n }

/-- Skips blanks and comments. A line end lets a key start in a block. -/
def skipToToken : Nat → Scanner → Scanner
  | 0, s => s
  | fuel + 1, s =>
    let p := s.place.skip (s.place.rest.takeWhile (· == ' ')).length
    let p :=
      if p.peek = some '#' then p.skip (p.rest.takeWhile (!isBreak ·)).length else p
    if p.atBreak then
      skipToToken fuel
        { s with place := p.lineBreak.2, keyAllowed := s.keyAllowed || !s.inFlow }
    else { s with place := p }

/-- Forgets the innermost candidate, which must not be a required key. -/
def dropCandidate (s : Scanner) : Except Fault Scanner :=
  match s.candidates with
  | some c :: rest =>
    if c.required then .error .badYaml else .ok { s with candidates := none :: rest }
  | _ => .ok s

/-- Forgets the candidates that are too far away: on another line, or more than 1024 characters
before. -/
def dropStale (s : Scanner) : Except Fault Scanner := do
  let fresh ← s.candidates.mapM fun
    | none => Except.ok none
    | some c =>
      if c.line != s.place.line || 1024 < s.place.index - c.index then
        if c.required then .error Fault.badYaml else .ok none
      else .ok (some c)
  return { s with candidates := fresh }

/-- Makes the next token the innermost candidate, where a key may start. -/
def saveCandidate (s : Scanner) : Except Fault Scanner :=
  if s.keyAllowed then do
    let s ← s.dropCandidate
    let p := s.place
    let required := !s.inFlow && s.indent == (p.column : Int)
    return { s with
      candidates := some ⟨s.tokens.length, required, p.index, p.line, p.column⟩ ::
        s.candidates.drop 1 }
  else .ok s

/-- Closes the block collections that are indented further than a column. -/
def unwind (column : Int) : List Int → Scanner → Scanner
  | [], s => s
  | outer :: rest, s =>
    if column < s.indent then
      unwind column rest { s.emit .blockEnd with indent := outer, indents := rest }
    else s

/-- Closes block collections, unless the place lies inside a flow collection. -/
def unwindTo (s : Scanner) (column : Int) : Scanner :=
  if s.inFlow then s else unwind column s.indents s

/-- Opens a block collection at a column that is further than the innermost one, its mark coming
before the token with the given number. -/
def indentTo (s : Scanner) (column : Nat) (position : Nat) (mark : Token) : Scanner :=
  if s.indent < column then
    { s with
      indent := column
      indents := s.indent :: s.indents
      tokens := s.tokens.insertIdx position mark }
  else s

/-- Reads the mark of a document. -/
def documentMark (s : Scanner) (t : Token) : Except Fault Scanner := do
  let s ← (s.unwindTo (-1)).dropCandidate
  return { s with keyAllowed := false }.emitSkip t 3

/-- Reads the start of a flow collection. -/
def flowStart (s : Scanner) (t : Token) : Except Fault Scanner := do
  let s ← s.saveCandidate
  return { s with candidates := none :: s.candidates, keyAllowed := true }.emitSkip t 1

/-- Reads the end of a flow collection. -/
def flowEnd (s : Scanner) (t : Token) : Except Fault Scanner :=
  if s.inFlow then do
    let s ← s.dropCandidate
    return { s with candidates := s.candidates.drop 1, keyAllowed := false }.emitSkip t 1
  else .error .badYaml

/-- Reads the comma of a flow collection. -/
def flowComma (s : Scanner) : Except Fault Scanner := do
  let s ← { s with keyAllowed := true }.dropCandidate
  return s.emitSkip .flowEntry 1

/-- Reads the dash of a block sequence. -/
def blockDash (s : Scanner) : Except Fault Scanner :=
  if s.inFlow || !s.keyAllowed then .error .badYaml
  else do
    let s := s.indentTo s.place.column s.tokens.length .blockSequenceStart
    let s ← { s with keyAllowed := true }.dropCandidate
    return s.emitSkip .blockEntry 1

/-- Reads the question mark of a key. -/
def keyMark (s : Scanner) : Except Fault Scanner :=
  if !s.inFlow && !s.keyAllowed then .error .badYaml
  else do
    let s :=
      if s.inFlow then s else s.indentTo s.place.column s.tokens.length .blockMappingStart
    let s ← { s with keyAllowed := !s.inFlow }.dropCandidate
    return s.emitSkip .key 1

/-- Reads the colon of a value; the innermost candidate becomes its key. -/
def valueMark (s : Scanner) : Except Fault Scanner :=
  match s.candidates with
  | some c :: rest =>
    let s := { s with tokens := s.tokens.insertIdx c.position .key, candidates := none :: rest }
    let s := if s.inFlow then s else s.indentTo c.column c.position .blockMappingStart
    .ok ({ s with keyAllowed := false }.emitSkip .value 1)
  | _ =>
    if s.inFlow then .ok ({ s with keyAllowed := false }.emitSkip .value 1)
    else if !s.keyAllowed then .error .badYaml
    else
      let s := s.indentTo s.place.column s.tokens.length .blockMappingStart
      .ok ({ s with keyAllowed := true }.emitSkip .value 1)

/-- Reads a quoted scalar. -/
def quotedScalar (s : Scanner) (mark : Char) : Except Fault Scanner := do
  let s ← s.saveCandidate
  let p := s.place.next
  let (text, p) ← quotedText mark (p.rest.length + 1) [] p
  return { s.emit (.scalar text false) with place := p, keyAllowed := false }

/-- Whether a plain scalar can start with a character before the given text. -/
def startsPlain (s : Scanner) (c : Char) (cs : List Char) : Bool :=
  !(isSpace c || "-?:,[]\x7b\x7d#&*!|>'\"%@\x60".toList.contains c) ||
    (!endsWord cs && (c = '-' || (!s.inFlow && (c = '?' || c = ':'))))

/-- Reads a plain scalar. -/
def plainScalar (s : Scanner) : Except Fault Scanner := do
  let s ← s.saveCandidate
  let (text, broken, p) :=
    plainWords s.inFlow (s.indent + 1) (s.place.rest.length + 1) [] [] false s.place
  return { s.emit (.scalar text true) with place := p, keyAllowed := broken }

/-- Reads the token that starts with a character before the given text. -/
def readToken (s : Scanner) (c : Char) (cs : List Char) : Except Fault Scanner :=
  if s.place.column = 0 && s.place.atMark '-' then s.documentMark .documentStart
  else if s.place.column = 0 && s.place.atMark '.' then s.documentMark .documentEnd
  else if c = '[' then s.flowStart .flowSequenceStart
  else if c = '\x7b' then s.flowStart .flowMappingStart
  else if c = ']' then s.flowEnd .flowSequenceEnd
  else if c = '\x7d' then s.flowEnd .flowMappingEnd
  else if c = ',' then s.flowComma
  else if c = '-' && endsWord cs then s.blockDash
  else if c = '?' && (s.inFlow || endsWord cs) then s.keyMark
  else if c = ':' && (s.inFlow || endsWord cs) then s.valueMark
  else if c = '\'' || c = '"' then s.quotedScalar c
  else if s.startsPlain c cs then s.plainScalar
  else .error .badYaml

/-- Ends the document. -/
def finish (s : Scanner) : Except Fault (List Token) := do
  let s ← (s.unwindTo (-1)).dropCandidate
  return (s.emit .streamEnd).tokens

/-- Reads tokens up to the end of the text. -/
def scan : Nat → Scanner → Except Fault (List Token)
  | 0, _ => .error .badYaml
  | fuel + 1, s => do
    let s := skipToToken (s.place.rest.length + 1) s
    let s ← s.dropStale
    let s := s.unwindTo s.place.column
    match s.place.rest with
    | [] => s.finish
    | c :: cs =>
      let s ← s.readToken c cs
      scan fuel s

end Scanner

/-- Whether a document may hold the character. -/
def isAllowed (c : Char) : Bool :=
  let n := c.toNat
  n = 9 || n = 10 || n = 13 || (0x20 ≤ n && n ≤ 0x7E) || n = 0x85 ||
    (0xA0 ≤ n && n ≤ 0xFFFD) || 0x10000 ≤ n

/-- The tokens of a document. -/
def tokens (cs : List Char) : Except Fault (List Token) :=
  if cs.all isAllowed then
    let p := Place.start cs
    let p := if p.peek = some '\uFEFF' then p.next else p
    Scanner.scan (cs.length + 2) { Scanner.start cs with place := p }
  else .error .badYaml

end SiteRouter.Document.Yaml
