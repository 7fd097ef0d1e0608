import SiteRouter.Proofs.Pattern.Tokens

/-!
# Segments

Most patterns are a row of segments, each a slash and either a text or a parameter. `Segment.text`
writes one, `Segment.tokens` gives the tokens that are meant, and `parse_textAll` shows that the written
pattern is read as these. Where one segment ends and the next begins is settled by its slash alone:
no text, name, sub-pattern or modifier reaches over it.
-/

namespace SiteRouter.Pattern

open Text

/-- A segment of a pattern. -/
inductive Segment where
  /-- A text. -/
  | literal (text : List Char)
  /-- A parameter with its sub-pattern, if it has one, and its modifier. -/
  | parameter (name : List Char) (body : Option (List Char)) (modifier : Modifier)
deriving DecidableEq, Repr

/-- The character of a modifier, if it has one. -/
def Modifier.sign : Modifier → Option Char
  | once => none
  | optional => some '?'
  | repeated => some '+'
  | optionalRepeated => some '*'

namespace Segment

/-- A sub-pattern in its parentheses. -/
def bodyText : Option (List Char) → List Char
  | none => []
  | some body => '(' :: (body ++ [')'])

/-- The text of a segment. -/
def text : Segment → List Char
  | literal t => '/' :: t
  | parameter name body m => '/' :: ':' :: (name ++ (bodyText body ++ m.sign.toList))

/-- Whether the character may stand in the text of a segment. -/
def isPlain (c : Char) : Bool := !"/:*()\\".toList.contains c

/-- Whether the character may stand in the sub-pattern of a segment. -/
def isPlainBody (c : Char) : Bool := !"()\\".toList.contains c

/-- A text is not empty and has only plain characters; a name is made of word characters, and a
sub-pattern is not empty and has no parentheses in it. -/
def WellFormed : Segment → Prop
  | literal t => t ≠ [] ∧ ∀ c ∈ t, isPlain c = true
  | parameter name body _ => (name ≠ [] ∧ ∀ c ∈ name, isWord c = true) ∧
      ∀ b, body = some b → b ≠ [] ∧ ∀ c ∈ b, isPlainBody c = true

instance (s : Segment) : Decidable s.WellFormed :=
  match s with
  | literal t => decidable_of_iff (t ≠ [] ∧ t.all isPlain = true) (by simp [WellFormed])
  | parameter name none _ =>
    decidable_of_iff (name ≠ [] ∧ name.all isWord = true) (by simp [WellFormed])
  | parameter name (some b) _ =>
    decidable_of_iff ((name ≠ [] ∧ name.all isWord = true) ∧ b ≠ [] ∧ b.all isPlainBody = true)
      (by simp [WellFormed])

/-- The name of a parameter. -/
def name? : Segment → Option (List Char)
  | literal _ => none
  | parameter name _ _ => some name

/-- The capture that a parameter stands for. -/
def capture (name : List Char) (body : Option (List Char)) (m : Modifier) : Capture :=
  ⟨.named (String.ofList name), some '/',
    match body with
    | some b => .custom b
    | none => .segment,
    m, false⟩

end Segment

/-- The text of segments. -/
def Segment.textAll (ss : List Segment) : List Char := ss.flatMap Segment.text

/-- The tokens with a text before them; a literal takes the text in. -/
def prependLiteral (t : List Char) : List Token → List Token
  | .literal u :: ts => .literal (t ++ u) :: ts
  | ts => .literal t :: ts

/-- The tokens of segments. -/
def Segment.tokens : List Segment → List Token
  | [] => []
  | .literal t :: ss => prependLiteral ('/' :: t) (tokens ss)
  | .parameter name body m :: ss => .capture (capture name body m) :: tokens ss

/-! ## Reading one segment -/

/-- The text starts with a slash or is empty. -/
def AtSlash (cs : List Char) : Prop := ∀ c, cs.head? = some c → c = '/'

theorem atSlash_nil : AtSlash [] := nofun

theorem atSlash_text (s : Segment) (cs : List Char) : AtSlash (s.text ++ cs) := by
  cases s <;> rintro c ⟨⟩ <;> rfl

theorem atSlash_textAll (ss : List Segment) : AtSlash (Segment.textAll ss) := by
  cases ss with
  | nil => exact atSlash_nil
  | cons s ss => exact atSlash_text s _

/-- The text does not start with a character that a capture can start with. -/
def NoCapture (cs : List Char) : Prop := ∀ c, cs.head? = some c → c ≠ '*' ∧ c ≠ ':' ∧ c ≠ '('

theorem AtSlash.noCapture {cs : List Char} (h : AtSlash cs) : NoCapture cs := by
  intro c hc
  rw [h c hc]
  decide

theorem NoCapture.formOf? {cs : List Char} (h : NoCapture cs) : formOf? cs = none := by
  cases cs with
  | nil => rfl
  | cons c cs =>
    obtain ⟨hstar, hcolon, hopen⟩ := h c rfl
    unfold Pattern.formOf? groupOf?
    split <;> simp_all

/-- After a slash or a point a capture may start. -/
theorem readPiece_lead {x : Char} (h : x = '/' ∨ x = '.') (cs : List Char) :
    readPiece x cs = (captureOf? (some x) cs).getD (.plain x, 0) := by
  rcases h with rfl | rfl <;> rfl

/-- Any other character may start a capture itself. -/
theorem readPiece_other {x : Char} (h : ¬(x = '/' ∨ x = '.')) (hslash : x ≠ '\\')
    (cs : List Char) :
    readPiece x cs =
      ((captureOf? none (x :: cs)).map fun found => (found.1, found.2 - 1)).getD (.plain x, 0) := by
  unfold readPiece
  rw [if_neg hslash, if_neg (by simpa using h)]
  cases captureOf? none (x :: cs) <;> rfl

/-- A character stands for itself if no capture starts with it. -/
theorem readPiece_plain {c : Char} {cs : List Char} (hc : Segment.isPlain c = true ∨ c = '/')
    (hcs : NoCapture cs) : readPiece c cs = (.plain c, 0) := by
  have hnot : c ≠ '*' ∧ c ≠ ':' ∧ c ≠ '(' ∧ c ≠ '\\' := by
    refine ⟨?_, ?_, ?_, ?_⟩ <;> rintro rfl <;> exact absurd hc (by decide)
  unfold readPiece
  rw [if_neg hnot.2.2.2]
  split
  · rw [captureOf?, hcs.formOf?]
    rfl
  · have hnone : NoCapture (c :: cs) := by
      rintro d ⟨⟩
      exact ⟨hnot.1, hnot.2.1, hnot.2.2.1⟩
    rw [captureOf?, hnone.formOf?]

theorem pieces_cons (c : Char) (cs : List Char) :
    pieces (c :: cs) = (readPiece c cs).1 :: pieces (cs.drop (readPiece c cs).2) := by
  rw [pieces, piecesAfter, piecesAfter_eq_drop]

/-- Plain characters and slashes are read one by one. -/
theorem pieces_plain {t rest : List Char} (ht : ∀ c ∈ t, Segment.isPlain c = true ∨ c = '/')
    (hrest : NoCapture rest) : pieces (t ++ rest) = t.map Piece.plain ++ pieces rest := by
  induction t with
  | nil => rfl
  | cons c t ih =>
    rw [List.forall_mem_cons] at ht
    have hnext : NoCapture (t ++ rest) := by
      cases t with
      | nil => exact hrest
      | cons d t =>
        rintro e ⟨⟩
        have hd := ht.2 d List.mem_cons_self
        refine ⟨?_, ?_, ?_⟩ <;> rintro rfl <;> exact absurd hd (by decide)
    rw [List.cons_append, pieces_cons, readPiece_plain ht.1 hnext, List.drop_zero, ih ht.2]
    rfl

/-- A text after its slash. -/
theorem pieces_literal {t rest : List Char} (ht : (Segment.literal t).WellFormed)
    (hrest : AtSlash rest) :
    pieces ((Segment.literal t).text ++ rest) = ('/' :: t).map Piece.plain ++ pieces rest := by
  refine pieces_plain (t := '/' :: t) ?_ hrest.noCapture
  exact List.forall_mem_cons.2 ⟨.inr rfl, fun c hc => .inl (ht.2 c hc)⟩

/-- A sub-pattern is read up to its parenthesis. -/
theorem bodyOf?_plain {b : List Char} (hb : ∀ c ∈ b, Segment.isPlainBody c = true)
    (rest : List Char) : bodyOf? (b ++ ')' :: rest) = some b := by
  induction b with
  | nil => rfl
  | cons c b ih =>
    rw [List.forall_mem_cons] at hb
    have hnot : c ≠ '(' ∧ c ≠ ')' ∧ c ≠ '\\' := by
      refine ⟨?_, ?_, ?_⟩ <;> rintro rfl <;> exact absurd hb.1 (by decide)
    rw [List.cons_append, bodyOf?]
    · simp [hnot, ih hb.2]
    · exact hnot.2.1
    · intro d cs hd
      exact absurd hd hnot.2.2

/-- A name ends before what follows it. -/
theorem takeWhile_name {name : List Char} (tail : List Char) (hname : ∀ c ∈ name, isWord c = true)
    (htail : ∀ c, tail.head? = some c → isWord c = false) :
    (name ++ tail).takeWhile isWord = name := by
  rw [List.takeWhile_append_of_pos hname]
  cases tail with
  | nil => simp
  | cons c tail => rw [List.takeWhile_cons, htail c rfl, if_neg Bool.false_ne_true, List.append_nil]

/-- What may follow the name of a parameter is no word character. -/
theorem isWord_after_name {body : Option (List Char)} {m : Modifier} {rest : List Char}
    (hrest : AtSlash rest) {c : Char}
    (h : (Segment.bodyText body ++ (m.sign.toList ++ rest)).head? = some c) : isWord c = false := by
  cases body with
  | some b =>
    cases h
    decide
  | none =>
    cases m with
    | once => rw [hrest c h]; decide
    | optional => cases h; decide
    | repeated => cases h; decide
    | optionalRepeated => cases h; decide

/-- The sub-pattern after a name, if there is one. -/
theorem groupOf?_bodyText {body : Option (List Char)}
    (hbody : ∀ b, body = some b → b ≠ [] ∧ ∀ c ∈ b, Segment.isPlainBody c = true) {m : Modifier}
    {rest : List Char} (hrest : AtSlash rest) :
    groupOf? (Segment.bodyText body ++ (m.sign.toList ++ rest)) = body := by
  cases body with
  | some b =>
    obtain ⟨hne, hplain⟩ := hbody b rfl
    show groupOf? ('(' :: (b ++ [')'] ++ (m.sign.toList ++ rest))) = some b
    rw [List.append_assoc, List.singleton_append, groupOf?, bodyOf?_plain hplain]
    cases b with
    | nil => exact absurd rfl hne
    | cons c b => rfl
  | none =>
    cases m with
    | once =>
      -- The only character that can follow is a slash, which opens no sub-pattern.
      cases rest with
      | nil => rfl
      | cons c rest =>
        obtain rfl : c = '/' := hrest c rfl
        rfl
    | optional => rfl
    | repeated => rfl
    | optionalRepeated => rfl

/-- The form of a parameter, and the number of its characters. -/
theorem formOf?_parameter {name : List Char} {body : Option (List Char)} {m : Modifier}
    (h : (Segment.parameter name body m).WellFormed) {rest : List Char} (hrest : AtSlash rest) :
    formOf? (':' :: (name ++ (Segment.bodyText body ++ (m.sign.toList ++ rest))))
      = some (.parameter name body, name.length + (Segment.bodyText body).length + 1) := by
  obtain ⟨⟨hne, hword⟩, hbody⟩ := h
  have htake := takeWhile_name (Segment.bodyText body ++ (m.sign.toList ++ rest)) hword
    fun c => isWord_after_name hrest
  simp only [formOf?, htake, List.drop_left, groupOf?_bodyText hbody hrest, List.isEmpty_iff, hne,
    if_false]
  cases body with
  | none => rfl
  | some b => simp [Segment.bodyText, Nat.add_assoc]

/-- A parameter with its sub-pattern and its modifier. -/
theorem captureOf?_parameter (lead : Option Char) {name : List Char} {body : Option (List Char)}
    {m : Modifier} (h : (Segment.parameter name body m).WellFormed) {rest : List Char}
    (hrest : AtSlash rest) :
    captureOf? lead (':' :: (name ++ (Segment.bodyText body ++ (m.sign.toList ++ rest))))
      = some (.capture lead (.parameter name body) m rest.head?,
        name.length + (Segment.bodyText body).length + 1 + m.sign.toList.length) := by
  have hdrop : (':' :: (name ++ (Segment.bodyText body ++ (m.sign.toList ++ rest)))).drop
      (name.length + (Segment.bodyText body).length + 1) = m.sign.toList ++ rest := by
    rw [List.drop_succ_cons, ← List.append_assoc name, ← List.length_append, List.drop_left]
  rw [captureOf?, formOf?_parameter h hrest]
  dsimp only
  rw [hdrop, if_neg nofun]
  cases m with
  | once =>
    -- The slash that may follow is no modifier.
    cases rest with
    | nil => rfl
    | cons c rest =>
      obtain rfl : c = '/' := hrest c rfl
      rfl
  | optional => rfl
  | repeated => rfl
  | optionalRepeated => rfl

/-- A parameter after its slash. -/
theorem pieces_parameter {name : List Char} {body : Option (List Char)} {m : Modifier}
    (h : (Segment.parameter name body m).WellFormed) {rest : List Char} (hrest : AtSlash rest) :
    pieces ((Segment.parameter name body m).text ++ rest)
      = .capture (some '/') (.parameter name body) m rest.head? :: pieces rest := by
  have htext : (Segment.parameter name body m).text ++ rest
      = '/' :: (':' :: (name ++ (Segment.bodyText body ++ (m.sign.toList ++ rest)))) := by
    simp [Segment.text]
  have hdrop : (':' :: (name ++ (Segment.bodyText body ++ (m.sign.toList ++ rest)))).drop
      (name.length + (Segment.bodyText body).length + 1 + m.sign.toList.length) = rest := by
    have hsplit : ':' :: (name ++ (Segment.bodyText body ++ (m.sign.toList ++ rest)))
        = (':' :: (name ++ (Segment.bodyText body ++ m.sign.toList))) ++ rest := by
      simp
    rw [hsplit]
    refine List.drop_left' ?_
    simp only [List.length_cons, List.length_append]
    omega
  rw [htext, pieces_cons, readPiece, if_neg (by decide), if_pos (by decide),
    captureOf?_parameter _ h hrest, Option.getD_some, hdrop]

/-- The names of the pieces of segments are those of the segments. -/
theorem filterMap_name?_textAll {ss : List Segment} (h : ∀ s ∈ ss, s.WellFormed) :
    (pieces (Segment.textAll ss)).filterMap Piece.name? = ss.filterMap Segment.name? := by
  induction ss with
  | nil => rfl
  | cons s ss ih =>
    rw [List.forall_mem_cons] at h
    have htext : Segment.textAll (s :: ss) = s.text ++ Segment.textAll ss := List.flatMap_cons
    have hrest := atSlash_textAll ss
    cases s with
    | literal t =>
      have hplain : (('/' :: t).map Piece.plain).filterMap Piece.name? = [] := by
        rw [List.filterMap_map]
        exact List.filterMap_eq_nil_iff.2 fun _ _ => rfl
      rw [htext, pieces_literal h.1 hrest, List.filterMap_append, hplain, ih h.2]
      rfl
    | parameter name body m =>
      rw [htext, pieces_parameter h.1 hrest]
      exact congrArg (name :: ·) (ih h.2)

/-! ## Reading segments in turn -/

/-- A text before tokens, unless it is empty. -/
def withLiteral (t : List Char) (ts : List Token) : List Token :=
  if t = [] then ts else prependLiteral t ts

theorem prependLiteral_prependLiteral (t u : List Char) (ts : List Token) :
    prependLiteral t (prependLiteral u ts) = prependLiteral (t ++ u) ts := by
  match ts with
  | [] => rfl
  | .literal v :: ts => simp [prependLiteral]
  | .capture c :: ts => rfl

/-- Two texts before tokens are one text. -/
theorem withLiteral_prependLiteral (t : List Char) {u : List Char} (hu : u ≠ [])
    (ts : List Token) :
    withLiteral t (prependLiteral u ts) = withLiteral (t ++ u) ts := by
  unfold withLiteral
  rw [if_neg (by simp [hu] : t ++ u ≠ [])]
  split
  · next ht => rw [ht, List.nil_append]
  · exact prependLiteral_prependLiteral t u ts

/-- Nothing in a segment that is a text is a parenthesis, which would not be read alone. -/
theorem Segment.WellFormed.literal_unparenthesised {t : List Char}
    (h : (Segment.literal t).WellFormed) : ∀ c ∈ '/' :: t, c ≠ '(' ∧ c ≠ ')' := by
  refine List.forall_mem_cons.2 ⟨by decide, fun c hc => ?_⟩
  have hc := h.2 c hc
  refine ⟨?_, ?_⟩ <;> rintro rfl <;> exact absurd hc (by decide)

namespace Reader

/-- Before a capture the literal is ended. -/
theorem flush_reverse (r : Reader) (ts : List Token) (hts : ∀ u ts', ts ≠ .literal u :: ts') :
    r.flush.reverse ++ ts = r.tokens.reverse ++ withLiteral r.pending.reverse ts := by
  unfold flush withLiteral
  by_cases hpending : r.pending = []
  · simp [hpending]
  · have hprepend : prependLiteral r.pending.reverse ts = .literal r.pending.reverse :: ts := by
      unfold prependLiteral
      split
      · exact absurd rfl (hts _ _)
      · rfl
    simp [hpending, hprepend]

/-- Plain characters are added to the literal. -/
theorem readAll_plain {t : List Char} (ht : ∀ c ∈ t, c ≠ '(' ∧ c ≠ ')') (r : Reader)
    (ps : List Piece) :
    r.readAll (t.map Piece.plain ++ ps) = { r with pending := t.reverse ++ r.pending }.readAll ps := by
  induction t generalizing r with
  | nil => rfl
  | cons c t ih =>
    rw [List.forall_mem_cons] at ht
    have hread : r.read (.plain c) = .ok { r with pending := c :: r.pending } := by
      simp [read, ht.1]
    rw [List.map_cons, List.cons_append, readAll, hread]
    show readAll _ _ = _
    rw [ih ht.2]
    simp

/-- A parameter with a new name ends the literal and is the next token. -/
theorem read_parameter (r : Reader) {name : List Char} (hnew : name ∉ r.names)
    (body : Option (List Char)) (m : Modifier) {next : Option Char}
    (hnext : ∀ c, next = some c → c = '/') :
    r.read (.capture (some '/') (.parameter name body) m next) = .ok { r with
      tokens := .capture (Segment.capture name body m) :: r.flush
      pending := []
      names := name :: r.names } := by
  have hshared : sharesSegment (some '/') next = false := by
    cases hcase : next with
    | none => rfl
    | some c => rw [hnext c hcase]; rfl
  show (if r.names.contains name then _ else _) = _
  rw [if_neg (by simpa using hnew), addNamed, hshared]
  cases body <;> rfl

/-- Segments that are read have different names, none of which was read before. -/
theorem names_of_readAll {ss : List Segment} (h : ∀ s ∈ ss, s.WellFormed) {r r' : Reader}
    (hread : r.readAll (pieces (Segment.textAll ss)) = .ok r') :
    (ss.filterMap Segment.name?).Nodup ∧ ∀ name ∈ ss.filterMap Segment.name?, name ∉ r.names := by
  have hpieces := exists_readAll_iff.1 ⟨r', hread⟩
  rw [filterMap_name?_textAll h] at hpieces
  exact hpieces.2

/-- The segments are read as their tokens, after those that were read before, and what follows them
is read from there. -/
theorem readAll_segments {ss : List Segment} (h : ∀ s ∈ ss, s.WellFormed) (r : Reader)
    (hnames : (ss.filterMap Segment.name?).Nodup)
    (hnew : ∀ name ∈ ss.filterMap Segment.name?, name ∉ r.names) {rest : List Char}
    (hrest : AtSlash rest) :
    ∃ r' : Reader, r.readAll (pieces (Segment.textAll ss ++ rest)) = r'.readAll (pieces rest) ∧
      r'.unnamed = r.unnamed ∧
      r'.finish = r.tokens.reverse ++ withLiteral r.pending.reverse (Segment.tokens ss) := by
  -- The literal that is open when a segment starts goes on in a text, and ends before a parameter.
  induction ss generalizing r with
  | nil =>
    refine ⟨r, rfl, rfl, ?_⟩
    rw [finish, ← List.append_nil r.flush.reverse]
    exact flush_reverse r [] (by simp)
  | cons s ss ih =>
    rw [List.forall_mem_cons] at h
    have htext : Segment.textAll (s :: ss) ++ rest = s.text ++ (Segment.textAll ss ++ rest) := by
      rw [Segment.textAll, List.flatMap_cons, List.append_assoc]
      rfl
    have hnext : AtSlash (Segment.textAll ss ++ rest) := by
      cases ss with
      | nil => exact hrest
      | cons s' ss =>
        rw [Segment.textAll, List.flatMap_cons, List.append_assoc]
        exact atSlash_text s' _
    cases s with
    | literal t =>
      obtain ⟨r', hr', hunnamed, hfinish⟩ :=
        ih h.2 { r with pending := ('/' :: t).reverse ++ r.pending } hnames hnew
      refine ⟨r', by rw [htext, pieces_literal h.1 hnext,
        readAll_plain h.1.literal_unparenthesised, hr'], hunnamed, ?_⟩
      rw [hfinish]
      show _ = r.tokens.reverse ++ withLiteral r.pending.reverse (prependLiteral ('/' :: t) _)
      rw [withLiteral_prependLiteral _ (List.cons_ne_nil '/' t), List.reverse_append,
        List.reverse_reverse]
    | parameter name body m =>
      have hnames : name ∉ ss.filterMap Segment.name? ∧ (ss.filterMap Segment.name?).Nodup :=
        List.nodup_cons.1 hnames
      have hnew : name ∉ r.names ∧ ∀ n ∈ ss.filterMap Segment.name?, n ∉ r.names :=
        List.forall_mem_cons.1 hnew
      obtain ⟨r', hr', hunnamed, hfinish⟩ := ih h.2 { r with
        tokens := .capture (Segment.capture name body m) :: r.flush
        pending := []
        names := name :: r.names } hnames.2 (by
          intro n hn hmem
          rcases List.mem_cons.1 hmem with rfl | hmem
          · exact hnames.1 hn
          · exact hnew.2 n hn hmem)
      refine ⟨r', ?_, hunnamed, ?_⟩
      · rw [htext, pieces_parameter h.1 hnext, readAll, read_parameter r hnew.1 body m hnext]
        exact hr'
      · have hflush := flush_reverse r (.capture (Segment.capture name body m) :: Segment.tokens ss)
          (by simp)
        rw [hfinish]
        simpa [withLiteral, Segment.tokens] using hflush

end Reader

/-- The text of segments is read as their tokens. -/
theorem parse_textAll {ss : List Segment} (h : ∀ s ∈ ss, s.WellFormed)
    (hnames : (ss.filterMap Segment.name?).Nodup) :
    parse (Segment.textAll ss) = .ok (Segment.tokens ss) := by
  obtain ⟨r, hr, -, hfinish⟩ := Reader.readAll_segments h .start hnames nofun atSlash_nil
  rw [List.append_nil] at hr
  rw [parse, hr]
  show Except.ok r.finish = _
  rw [hfinish]
  rfl

end SiteRouter.Pattern
