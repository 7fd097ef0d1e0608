import SiteRouter.Pattern.Compiled
import SiteRouter.Proofs.Except

/-!
# What the tokens of a pattern are like

The facts about single tokens that hold whatever the text of the pattern is: a literal has
characters, a capture stands after a slash, a point or neither, and a star takes one value under no
name. `parse_wellFormed` derives them from one fact about each piece and one about each step of the
reader. `Reader.Reads` says what a step has to do with names: it refuses a parenthesis and a name
that was used before, and nothing else. So no name is used twice (`parse_paramNames_nodup`), and the
pieces alone tell whether they are read (`Reader.exists_readAll_iff`). `Compiled.MadeFrom` says what
becomes of the tokens in a compiled pattern.
-/

namespace SiteRouter.Pattern

/-- The leads of a capture are the slash and the point. -/
def IsLead (lead : Option Char) : Prop := ∀ x, lead = some x → x = '/' ∨ x = '.'

theorem isLead_none : IsLead none := nofun

/-- The delimiter of a capture is one of them too. -/
theorem IsLead.delimiter {c : Capture} (h : IsLead c.lead) :
    c.delimiter = '/' ∨ c.delimiter = '.' := by
  unfold Capture.delimiter
  cases hlead : c.lead with
  | none => exact .inl rfl
  | some x => exact h x hlead

/-! ## Pieces -/

/-- A capture has one of the leads, and a star no modifier. -/
def Piece.WellFormed : Piece → Prop
  | .capture lead form modifier _ => IsLead lead ∧ (form = .star → modifier = .once)
  | _ => True

theorem captureOf?_wellFormed {lead : Option Char} (hlead : IsLead lead) {cs : List Char}
    {p : Piece} {n : Nat} (h : captureOf? lead cs = some (p, n)) : p.WellFormed := by
  unfold captureOf? at h
  split at h
  · cases h
  · next form k hform =>
    dsimp only at h
    split at h
    · next modifier hmodifier =>
      cases h
      refine ⟨hlead, fun hstar => ?_⟩
      rw [if_pos hstar] at hmodifier
      cases hmodifier
    · cases h
      exact ⟨hlead, fun _ => rfl⟩

theorem readPiece_wellFormed (c : Char) (cs : List Char) : (readPiece c cs).1.WellFormed := by
  unfold readPiece
  split
  · split
    · split <;> trivial
    · trivial
  · split
    · next hlead =>
      have hlead : IsLead (some c) := by
        rintro x ⟨⟩
        simpa using hlead
      cases hcapture : captureOf? (some c) cs with
      | none => trivial
      | some found => exact captureOf?_wellFormed hlead hcapture
    · split
      · next hcapture => exact captureOf?_wellFormed isLead_none hcapture
      · trivial

theorem pieces_wellFormed (cs : List Char) : ∀ p ∈ pieces cs, p.WellFormed := by
  suffices h : ∀ n, ∀ p ∈ piecesAfter n cs, p.WellFormed from h 0
  induction cs with
  | nil =>
    intro n
    cases n <;> simp [piecesAfter]
  | cons c cs ih =>
    intro n
    cases n with
    | zero =>
      rw [piecesAfter, List.forall_mem_cons]
      exact ⟨readPiece_wellFormed c cs, ih _⟩
    | succ n => exact ih n

/-! ## Tokens -/

/-- What a capture is like, wherever it comes from. -/
structure Capture.WellFormed (c : Capture) : Prop where
  /-- It has one of the leads. -/
  lead : IsLead c.lead
  /-- A star takes one value. -/
  star : c.body = .anything → c.modifier = .once
  /-- Only behind a lead it shares its segment. -/
  shared : c.shared = true → c.lead ≠ none

/-- A literal has characters, and a capture is as it should be. -/
def Token.WellFormed : Token → Prop
  | .literal text => text ≠ []
  | .capture c => c.WellFormed

/-- Only a capture with a lead shares its segment. -/
theorem Reader.lead_of_sharesSegment {lead next : Option Char}
    (h : Reader.sharesSegment lead next = true) : lead ≠ none := by
  rintro rfl
  cases h

/-- Ending a literal keeps the tokens as they should be. -/
theorem Reader.flush_wellFormed {r : Reader} (h : ∀ t ∈ r.tokens, t.WellFormed) :
    ∀ t ∈ r.flush, t.WellFormed := by
  unfold Reader.flush
  split
  · exact h
  · next hpending =>
    rw [List.forall_mem_cons]
    refine ⟨?_, h⟩
    show r.pending.reverse ≠ []
    simpa using hpending

/-- Reading a piece keeps the tokens as they should be. -/
theorem Reader.read_wellFormed {r r' : Reader} {p : Piece} (hp : p.WellFormed)
    (h : ∀ t ∈ r.tokens, t.WellFormed) (hread : r.read p = .ok r') :
    ∀ t ∈ r'.tokens, t.WellFormed := by
  have hflush := Reader.flush_wellFormed h
  unfold Reader.read at hread
  split at hread
  · split at hread <;> cases hread
    exact h
  · cases hread
    exact h
  · next lead form modifier next =>
    split at hread
    · cases hread
      exact List.forall_mem_cons.2 ⟨⟨hp.1, fun _ => hp.2 rfl, lead_of_sharesSegment⟩, hflush⟩
    · cases hread
      exact List.forall_mem_cons.2 ⟨⟨hp.1, nofun, lead_of_sharesSegment⟩, hflush⟩
    · next name body? =>
      split at hread <;> cases hread
      refine List.forall_mem_cons.2 ⟨⟨hp.1, ?_, lead_of_sharesSegment⟩, hflush⟩
      cases body? <;> nofun

/-- Reading pieces keeps the tokens as they should be. -/
theorem Reader.readAll_wellFormed {ps : List Piece} (hps : ∀ p ∈ ps, p.WellFormed)
    {r r' : Reader} (h : ∀ t ∈ r.tokens, t.WellFormed) (hread : r.readAll ps = .ok r') :
    ∀ t ∈ r'.tokens, t.WellFormed := by
  induction ps generalizing r with
  | nil =>
    cases hread
    exact h
  | cons p ps ih =>
    rw [List.forall_mem_cons] at hps
    obtain ⟨m, hp, hread⟩ := bind_eq_ok.1 hread
    exact ih hps.2 (Reader.read_wellFormed hps.1 h hp) hread

/-- The tokens of a pattern are as they should be. -/
theorem parse_wellFormed {cs : List Char} {ts : List Token} (h : parse cs = .ok ts) :
    ∀ t ∈ ts, t.WellFormed := by
  obtain ⟨r, hread, rfl⟩ := map_eq_ok.1 h
  have hstart : ∀ t ∈ Reader.start.tokens, t.WellFormed := by
    intro t ht
    cases ht
  have htokens := Reader.readAll_wellFormed (pieces_wellFormed cs) hstart hread
  intro t ht
  exact Reader.flush_wellFormed htokens t (List.mem_reverse.1 ht)

/-! ## Compiled patterns -/

/-- What a compiled pattern is made of. -/
structure Compiled.MadeFrom [CharacterNames] (pattern : String) (o : Options) (p : Compiled) :
    Prop where
  /-- It keeps its text. -/
  source : p.source = pattern
  /-- It keeps its options. -/
  options : p.options = o
  /-- Its tokens are those of the text. -/
  tokens : parse pattern.toList = .ok p.tokens
  /-- Its program is that of the expression of the tokens. -/
  program : Regex.parse (expression o p.tokens) = .ok p.program
  /-- Its steps are those of the tokens. -/
  steps : toSteps pattern p.tokens = .ok p.steps

theorem Compiled.madeFrom [CharacterNames] {pattern : String} {o : Options} {p : Compiled}
    (h : compile pattern o = .ok p) : p.MadeFrom pattern o := by
  obtain ⟨ts, htokens, h⟩ := bind_eq_ok.1 h
  obtain ⟨program, hprogram, h⟩ := bind_eq_ok.1 h
  obtain ⟨steps, hsteps, h⟩ := bind_eq_ok.1 h
  cases h
  exact ⟨rfl, rfl, mapError_eq_ok.1 htokens, mapError_eq_ok.1 hprogram, hsteps⟩

/-- The captures among tokens. -/
theorem mem_captures {ts : List Token} {c : Capture} : c ∈ captures ts ↔ .capture c ∈ ts := by
  unfold captures
  rw [List.mem_filterMap]
  constructor
  · rintro ⟨t, ht, heq⟩
    cases t with
    | literal text => cases heq
    | capture d =>
      cases heq
      exact ht
  · exact fun h => ⟨_, h, rfl⟩

/-! ## Names -/

/-- The names of captures, in order. -/
def paramNames (ts : List Token) : List String := (captures ts).filterMap (·.key.name?)

@[simp] theorem paramNames_literal (text : List Char) (ts : List Token) :
    paramNames (.literal text :: ts) = paramNames ts := rfl

@[simp] theorem paramNames_capture (c : Capture) (ts : List Token) :
    paramNames (.capture c :: ts) = c.key.name?.toList ++ paramNames ts := by
  show (c :: captures ts).filterMap (·.key.name?) = _
  rw [List.filterMap_cons]
  cases c.key.name? <;> rfl

theorem paramNames_append (ts ts' : List Token) :
    paramNames (ts ++ ts') = paramNames ts ++ paramNames ts' := by
  rw [paramNames, captures, List.filterMap_append, List.filterMap_append]
  rfl

/-- The name of a capture is among the names. -/
theorem mem_paramNames {ts : List Token} {c : Capture} (h : .capture c ∈ ts) {name : String}
    (hname : c.key = .named name) : name ∈ paramNames ts :=
  List.mem_filterMap.2 ⟨c, List.mem_filterMap.2 ⟨_, h, rfl⟩, by rw [hname]; rfl⟩

theorem Reader.paramNames_flush (r : Reader) : paramNames r.flush = paramNames r.tokens := by
  unfold Reader.flush
  split <;> rfl

/-- The tokens are in order when the reading ends. -/
theorem Reader.paramNames_finish (r : Reader) :
    paramNames r.finish = (paramNames r.tokens).reverse := by
  rw [finish, ← paramNames_flush, paramNames, captures, List.filterMap_reverse,
    List.filterMap_reverse]
  rfl

/-- The name of a form that is a parameter. -/
def Form.name? : Form → Option (List Char)
  | .parameter name _ => some name
  | _ => none

/-- The name of a piece that is a parameter. -/
def Piece.name? : Piece → Option (List Char)
  | .capture _ form _ _ => form.name?
  | _ => none

/-- Whether a piece is a parenthesis, which belongs to no group then. -/
def Piece.isParenthesis : Piece → Bool
  | .plain c => c = '(' || c = ')'
  | _ => false

/-- What reading a piece says of the piece, and of the names before and after it. -/
structure Reader.Reads (r : Reader) (p : Piece) (r' : Reader) : Prop where
  /-- The piece is no parenthesis. -/
  notParenthesis : p.isParenthesis = false
  /-- Its name was not used before. -/
  new : ∀ name, p.name? = some name → name ∉ r.names
  /-- Its name is used from there on. -/
  names : r'.names = p.name?.toList ++ r.names
  /-- Its name is that of the latest capture. -/
  tokens : paramNames r'.tokens = p.name?.toList.map String.ofList ++ paramNames r.tokens

/-- A capture without a name adds none. -/
theorem Reader.paramNames_addUnnamed (r : Reader) (lead : Option Char) (body : Body)
    (m : Modifier) (next : Option Char) :
    paramNames (r.addUnnamed lead body m next).tokens = paramNames r.tokens := by
  rw [addUnnamed, paramNames_capture, paramNames_flush]
  rfl

/-- A capture with a name adds its own. -/
theorem Reader.paramNames_addNamed (r : Reader) (name : List Char) (lead : Option Char)
    (body : Body) (m : Modifier) (next : Option Char) :
    paramNames (r.addNamed name lead body m next).tokens =
      String.ofList name :: paramNames r.tokens := by
  rw [addNamed, paramNames_capture, paramNames_flush]
  rfl

/-- A piece that is read is no parenthesis and has no name that was used before. -/
theorem Reader.reads_of_read {r r' : Reader} {p : Piece} (h : r.read p = .ok r') :
    r.Reads p r' := by
  unfold Reader.read at h
  split at h
  · next c =>
    split at h
    · cases h
    · next hplain =>
      cases h
      exact ⟨Bool.eq_false_iff.2 hplain, nofun, rfl, rfl⟩
  · cases h
    exact ⟨rfl, nofun, rfl, rfl⟩
  · split at h
    · cases h
      exact ⟨rfl, nofun, rfl, paramNames_addUnnamed ..⟩
    · cases h
      exact ⟨rfl, nofun, rfl, paramNames_addUnnamed ..⟩
    · next name body? =>
      split at h
      · cases h
      · next hnew =>
        cases h
        refine ⟨rfl, ?_, rfl, paramNames_addNamed ..⟩
        rintro name ⟨⟩ hold
        exact hnew (List.contains_iff_mem.2 hold)

/-- Every piece is read that is no parenthesis and has no name that was used before. -/
theorem Reader.exists_read {r : Reader} {p : Piece} (hplain : p.isParenthesis = false)
    (hnew : ∀ name, p.name? = some name → name ∉ r.names) : ∃ r', r.read p = .ok r' := by
  cases p with
  | plain c => exact ⟨_, if_neg (Bool.eq_false_iff.1 hplain)⟩
  | escaped c => exact ⟨_, rfl⟩
  | capture lead form m next =>
    cases form with
    | star => exact ⟨_, rfl⟩
    | group body => exact ⟨_, rfl⟩
    | parameter name body? =>
      have hnew : name ∉ r.names := hnew name rfl
      exact ⟨_, if_neg fun hold => hnew (List.contains_iff_mem.1 hold)⟩

/-- Pieces are read if none is a parenthesis and their names are different and were not used
before, and only then. -/
theorem Reader.exists_readAll_iff {r : Reader} {ps : List Piece} :
    (∃ r', r.readAll ps = .ok r') ↔ (∀ p ∈ ps, p.isParenthesis = false) ∧
      (ps.filterMap Piece.name?).Nodup ∧ ∀ name ∈ ps.filterMap Piece.name?, name ∉ r.names := by
  induction ps generalizing r with
  | nil => exact ⟨fun _ => ⟨nofun, .nil, nofun⟩, fun _ => ⟨r, rfl⟩⟩
  | cons p ps ih =>
    have hnames : (p :: ps).filterMap Piece.name? = p.name?.toList ++ ps.filterMap Piece.name? := by
      rw [List.filterMap_cons]
      cases p.name? <;> rfl
    rw [hnames, List.forall_mem_cons]
    constructor
    · rintro ⟨r', hread⟩
      obtain ⟨m, hp, hread⟩ := bind_eq_ok.1 hread
      have hreads := reads_of_read hp
      obtain ⟨hplain, hnodup, hnew⟩ := ih.1 ⟨r', hread⟩
      rw [hreads.names] at hnew
      refine ⟨⟨hreads.notParenthesis, hplain⟩, ?_, ?_⟩
      · cases hname : p.name? with
        | none => exact hnodup
        | some name =>
          rw [hname] at hnew
          exact List.nodup_cons.2 ⟨fun hmem => hnew name hmem List.mem_cons_self, hnodup⟩
      · intro name hmem hold
        rcases List.mem_append.1 hmem with hmem | hmem
        · exact hreads.new name (Option.mem_toList.1 hmem) hold
        · exact hnew name hmem (List.mem_append_right _ hold)
    · rintro ⟨⟨hplain, hplains⟩, hnodup, hnew⟩
      have hnewHead : ∀ name, p.name? = some name → name ∉ r.names :=
        fun name hname => hnew name (List.mem_append_left _ (Option.mem_toList.2 hname))
      obtain ⟨m, hp⟩ := exists_read hplain hnewHead
      have hreads := reads_of_read hp
      have hnewTail : ∀ name ∈ ps.filterMap Piece.name?, name ∉ m.names := by
        intro name hmem hold
        rw [hreads.names] at hold
        rcases List.mem_append.1 hold with hold | hold
        · exact (List.nodup_append.1 hnodup).2.2 name hold name hmem rfl
        · exact hnew name (List.mem_append_right _ hmem) hold
      obtain ⟨r', hread⟩ := ih.2 ⟨hplains, (List.nodup_append.1 hnodup).2.1, hnewTail⟩
      exact ⟨r', bind_eq_ok.2 ⟨m, hp, hread⟩⟩

/-- The names of the tokens read are those of the pieces, latest first. -/
theorem Reader.paramNames_readAll {r r' : Reader} {ps : List Piece} (h : r.readAll ps = .ok r') :
    paramNames r'.tokens =
      ((ps.filterMap Piece.name?).map String.ofList).reverse ++ paramNames r.tokens := by
  induction ps generalizing r with
  | nil =>
    cases h
    rfl
  | cons p ps ih =>
    obtain ⟨m, hp, hread⟩ := bind_eq_ok.1 h
    rw [ih hread, (reads_of_read hp).tokens, List.filterMap_cons]
    cases p.name? with
    | none => rfl
    | some name => simp

/-- The names in the tokens are different, and the reader remembers them. -/
structure Reader.KeepsNames (r : Reader) : Prop where
  nodup : (paramNames r.tokens).Nodup
  used : ∀ name, String.ofList name ∈ paramNames r.tokens → name ∈ r.names

/-- Reading a piece keeps the names different. -/
theorem Reader.KeepsNames.read {r r' : Reader} {p : Piece} (h : r.KeepsNames)
    (hread : r.read p = .ok r') : r'.KeepsNames := by
  have hreads := reads_of_read hread
  have hnames := hreads.names
  have htokens := hreads.tokens
  cases hname : p.name? with
  | none =>
    rw [hname] at hnames htokens
    have hnames : r'.names = r.names := hnames
    have htokens : paramNames r'.tokens = paramNames r.tokens := htokens
    exact ⟨htokens ▸ h.nodup, fun name hmem => hnames ▸ h.used name (htokens ▸ hmem)⟩
  | some new =>
    have hnew := hreads.new new hname
    rw [hname] at hnames htokens
    constructor
    · rw [htokens]
      exact List.nodup_cons.2 ⟨fun hmem => hnew (h.used new hmem), h.nodup⟩
    · intro name hmem
      rw [htokens] at hmem
      rw [hnames]
      rcases List.mem_cons.1 hmem with heq | hmem
      · exact List.mem_cons.2 (.inl (String.ofList_injective heq))
      · exact List.mem_cons_of_mem _ (h.used name hmem)

/-- Reading pieces keeps the names different. -/
theorem Reader.KeepsNames.readAll {r r' : Reader} (h : r.KeepsNames) {ps : List Piece}
    (hread : r.readAll ps = .ok r') : r'.KeepsNames := by
  induction ps generalizing r with
  | nil =>
    cases hread
    exact h
  | cons p ps ih =>
    obtain ⟨m, hp, hread⟩ := bind_eq_ok.1 hread
    exact ih (h.read hp) hread

/-- No name is used twice in a pattern. -/
theorem parse_paramNames_nodup {cs : List Char} {ts : List Token} (h : parse cs = .ok ts) :
    (paramNames ts).Nodup := by
  obtain ⟨r, hread, rfl⟩ := map_eq_ok.1 h
  have hstart : Reader.start.KeepsNames := ⟨.nil, fun _ hmem => absurd hmem List.not_mem_nil⟩
  rw [Reader.paramNames_finish]
  exact (List.reverse_perm _).nodup_iff.2 (hstart.readAll hread).nodup

end SiteRouter.Pattern
