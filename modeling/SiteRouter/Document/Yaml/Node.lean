import SiteRouter.Document.Yaml.Token

/-!
# YAML nodes

The tree of scalars and collections that the tokens of a document stand for. A text holds at most
one document, which may be empty; what is missing for a key or after one is an empty plain scalar.
-/

namespace SiteRouter.Document.Yaml

/-- A node of a document. -/
inductive Node where
  /-- A text, and whether it is written without quotes. -/
  | scalar (text : List Char) (plain : Bool)
  | sequence (items : List Node)
  | mapping (entries : List (Node × Node))
deriving Repr

namespace Node

/-- The node that stands where nothing is written. -/
def absent : Node := scalar [] true

/-- Whether the tokens go on with one of the given ones. -/
def goesOnWith (expected : List Token) (ts : List Token) : Bool :=
  ts.head?.any expected.contains

mutual

/-- The node at the start of tokens; in a block mapping a sequence needs no indentation. -/
def node (inBlock mayDash : Bool) : Nat → List Token → Except Fault (Node × List Token)
  | 0, _ => .error .badYaml
  | fuel + 1, ts =>
    match ts with
    | .scalar text plain :: rest => .ok (scalar text plain, rest)
    | .flowSequenceStart :: rest => flowSequence true [] fuel rest
    | .flowMappingStart :: rest => flowMapping true [] fuel rest
    | .blockSequenceStart :: rest =>
      if inBlock then blockSequence [] fuel rest else .error .badYaml
    | .blockMappingStart :: rest =>
      if inBlock then blockMapping [] fuel rest else .error .badYaml
    | .blockEntry :: _ => if mayDash then dashes [] fuel ts else .error .badYaml
    | _ => .error .badYaml

/-- The node at the start of tokens, or an absent one where one of the given tokens follows. -/
def nodeOrAbsent (inBlock mayDash : Bool) (ends : List Token) :
    Nat → List Token → Except Fault (Node × List Token)
  | 0, _ => .error .badYaml
  | fuel + 1, ts =>
    if goesOnWith ends ts then .ok (absent, ts) else node inBlock mayDash fuel ts

/-- The elements of an indented sequence, after those read already, latest first. -/
def blockSequence (read : List Node) : Nat → List Token → Except Fault (Node × List Token)
  | 0, _ => .error .badYaml
  | fuel + 1, ts =>
    match ts with
    | .blockEntry :: rest => do
      let (v, rest) ← nodeOrAbsent true false [.blockEntry, .blockEnd] fuel rest
      blockSequence (v :: read) fuel rest
    | .blockEnd :: rest => .ok (sequence read.reverse, rest)
    | _ => .error .badYaml

/-- The elements of a sequence without indentation, after those read already, latest first. -/
def dashes (read : List Node) : Nat → List Token → Except Fault (Node × List Token)
  | 0, _ => .error .badYaml
  | fuel + 1, ts =>
    match ts with
    | .blockEntry :: rest => do
      let (v, rest) ← nodeOrAbsent true false [.blockEntry, .key, .value, .blockEnd] fuel rest
      dashes (v :: read) fuel rest
    | ts => .ok (sequence read.reverse, ts)

/-- The entries of a block mapping, after those read already, latest first. -/
def blockMapping (read : List (Node × Node)) : Nat → List Token → Except Fault (Node × List Token)
  | 0, _ => .error .badYaml
  | fuel + 1, ts =>
    match ts with
    | .key :: rest => do
      let (k, rest) ← nodeOrAbsent true true [.key, .value, .blockEnd] fuel rest
      match rest with
      | .value :: rest =>
        let (v, rest) ← nodeOrAbsent true true [.key, .value, .blockEnd] fuel rest
        blockMapping ((k, v) :: read) fuel rest
      | rest => blockMapping ((k, absent) :: read) fuel rest
    | .blockEnd :: rest => .ok (mapping read.reverse, rest)
    | _ => .error .badYaml

/-- The elements of a flow sequence, after those read already, latest first. A key makes an element
a mapping of one entry. -/
def flowSequence (first : Bool) (read : List Node) :
    Nat → List Token → Except Fault (Node × List Token)
  | 0, _ => .error .badYaml
  | fuel + 1, ts =>
    match ts with
    | .flowSequenceEnd :: rest => .ok (sequence read.reverse, rest)
    | ts =>
      match if first then some ts else if goesOnWith [.flowEntry] ts then some (ts.drop 1) else none
      with
      | none => .error .badYaml
      | some (.flowSequenceEnd :: rest) => .ok (sequence read.reverse, rest)
      | some (.key :: rest) => do
        let (entry, rest) ← flowPair .flowSequenceEnd fuel rest
        flowSequence false (mapping [entry] :: read) fuel rest
      | some rest => do
        let (v, rest) ← node false false fuel rest
        flowSequence false (v :: read) fuel rest

/-- The key and the value after a key mark in a flow collection. -/
def flowPair (close : Token) :
    Nat → List Token → Except Fault ((Node × Node) × List Token)
  | 0, _ => .error .badYaml
  | fuel + 1, ts => do
    let (k, rest) ← nodeOrAbsent false false [.value, .flowEntry, close] fuel ts
    match rest with
    | .value :: rest =>
      let (v, rest) ← nodeOrAbsent false false [.flowEntry, close] fuel rest
      return ((k, v), rest)
    | rest => return ((k, absent), rest)

/-- The entries of a flow mapping, after those read already, latest first. -/
def flowMapping (first : Bool) (read : List (Node × Node)) :
    Nat → List Token → Except Fault (Node × List Token)
  | 0, _ => .error .badYaml
  | fuel + 1, ts =>
    match ts with
    | .flowMappingEnd :: rest => .ok (mapping read.reverse, rest)
    | ts =>
      match if first then some ts else if goesOnWith [.flowEntry] ts then some (ts.drop 1) else none
      with
      | none => .error .badYaml
      | some (.flowMappingEnd :: rest) => .ok (mapping read.reverse, rest)
      | some (.key :: rest) => do
        let (entry, rest) ← flowPair .flowMappingEnd fuel rest
        flowMapping false (entry :: read) fuel rest
      | some rest => do
        let (k, rest) ← node false false fuel rest
        flowMapping false ((k, absent) :: read) fuel rest

end

/-- The node of a document after its start. -/
def content (fuel : Nat) (ts : List Token) : Except Fault (Node × List Token) :=
  nodeOrAbsent true false [.documentStart, .documentEnd, .streamEnd] fuel ts

/-- The tokens after the marks that end a document. -/
def afterEnds (ts : List Token) : List Token := ts.dropWhile (· == .documentEnd)

/-- The node of a text with one document; a text without a document has none. The first document
needs no mark before it. -/
def ofTokens? (ts : List Token) : Except Fault (Option Node) :=
  let opened := match ts with
    | .documentStart :: rest => rest
    | ts => ts
  match opened, ts with
  | _, [.streamEnd] => .ok none
  | _, .documentEnd :: _ => .error .badYaml
  | opened, _ => do
    let (n, rest) ← content (4 * ts.length + 4) opened
    if afterEnds rest == [.streamEnd] then return some n else .error .badYaml

end Node

end SiteRouter.Document.Yaml
