import Mathlib.Data.List.Chain
import Mathlib.Data.List.Nodup
import SiteRouter.Pattern.Compiled
import SiteRouter.Proofs.Pattern.Grammar
import SiteRouter.Text.BasicLatin

/-!
# The tokens of a pattern and its text

Every piece of a pattern is a part of its text (`readPiece_text`), so the tokens spell the text
from its start to its end: a literal is what its part stands for without the backslashes, and a
capture is written as its lead, its name or sub-pattern and its modifier say. `Spells` states this,
with what the character behind a capture decides. Reading one more piece in front of a text keeps
what is known of its tokens (`Shaped.char`, `Shaped.capture`), whatever was read before, and so it
holds of a whole pattern (`parse_shape`).
-/

namespace SiteRouter

/-- The position of a key that is one. -/
def Key.position? : Key → Option Nat
  | named _ => none
  | position n => some n

namespace Pattern

open Text

/-! ## The text of tokens -/

/-- What a text between captures stands for: a character behind a backslash is itself, unless it is
a line feed, and so is any other character. -/
def unescape : List Char → List Char
  | '\\' :: c :: cs => if c = '\n' then '\\' :: c :: unescape cs else c :: unescape cs
  | c :: cs => c :: unescape cs
  | [] => []

/-- The text of a form. -/
def Form.text : Form → List Char
  | .parameter name body => ':' :: (name ++ Segment.bodyText body)
  | .group body => Segment.bodyText (some body)
  | .star => ['*']

/-- The text of a capture without its lead and its modifier: a colon and its name, its sub-pattern,
or both; a capture with neither is a star. -/
def Capture.formText (c : Capture) : List Char :=
  match c.key, c.body with
  | .named name, .custom body => ':' :: (name.toList ++ Segment.bodyText (some body))
  | .named name, _ => ':' :: name.toList
  | .position _, .custom body => Segment.bodyText (some body)
  | .position _, _ => ['*']

/-- The text of a capture. -/
def Capture.text (c : Capture) : List Char :=
  c.leadText ++ (c.formText ++ c.modifier.sign.toList)

/-- Tokens spell a text. A capture shares its segment exactly if it has a lead and a character
follows it in the text that is another one. -/
inductive Spells : List Token → List Char → Prop
  /-- No tokens are left, and no text. -/
  | nil : Spells [] []
  /-- A literal is what its part of the text stands for. -/
  | literal {source rest : List Char} {ts : List Token} : Spells ts rest →
    Spells (.literal (unescape source) :: ts) (source ++ rest)
  /-- A capture is written as it says. -/
  | capture {c : Capture} {rest : List Char} {ts : List Token} :
    (c.shared = true ↔ ∃ x y, c.lead = some x ∧ rest.head? = some y ∧ y ≠ x) → Spells ts rest →
    Spells (.capture c :: ts) (c.text ++ rest)

/-! ## Pieces -/

/-- The text of a piece. -/
def Piece.text : Piece → List Char
  | .plain c => [c]
  | .escaped c => ['\\', c]
  | .capture lead form m _ => lead.toList ++ (form.text ++ m.sign.toList)

/-- What is known of a piece that stands before a text: only a line feed follows a backslash that
stands for itself, and none follows another one; a parameter has a name, and a capture knows the
character behind it. -/
def Piece.StandsBefore (rest : List Char) : Piece → Prop
  | .plain c => c = '\\' → ∀ d, rest.head? = some d → d = '\n'
  | .escaped c => c ≠ '\n'
  | .capture _ form _ next => (∀ name, form.name? = some name → name ≠ []) ∧ next = rest.head?

/-- A sub-pattern ends at a parenthesis. -/
theorem bodyOf?_text {cs body : List Char} (h : bodyOf? cs = some body) :
    ∃ rest, cs = body ++ ')' :: rest := by
  fun_induction bodyOf? cs generalizing body with
  | case1 rest =>
    cases h
    exact ⟨rest, rfl⟩
  | case2 => cases h
  | case3 c cs hc ih =>
    obtain ⟨body, hbody, rfl⟩ := Option.map_eq_some_iff.1 h
    obtain ⟨rest, rfl⟩ := ih hbody
    exact ⟨rest, rfl⟩
  | case4 => cases h
  | case5 c cs hclose hslash hc ih =>
    obtain ⟨body, hbody, rfl⟩ := Option.map_eq_some_iff.1 h
    obtain ⟨rest, rfl⟩ := ih hbody
    exact ⟨rest, rfl⟩
  | case6 => cases h

/-- A sub-pattern stands in parentheses. -/
theorem groupOf?_text {cs body : List Char} (h : groupOf? cs = some body) :
    ∃ rest, cs = Segment.bodyText (some body) ++ rest := by
  unfold groupOf? at h
  split at h
  · next cs =>
    split at h
    · cases h
    · obtain ⟨rest, rfl⟩ := bodyOf?_text h
      exact ⟨rest, by simp [Segment.bodyText]⟩
  · cases h

/-- A form is the start of the text that it is read from, and a parameter has a name. -/
theorem formOf?_text {cs : List Char} {form : Form} {n : Nat} (h : formOf? cs = some (form, n)) :
    (∃ rest, cs = form.text ++ rest ∧ n = form.text.length) ∧
      ∀ name, form.name? = some name → name ≠ [] := by
  unfold formOf? at h
  split at h
  · next cs =>
    cases h
    refine ⟨⟨cs, rfl, rfl⟩, ?_⟩
    rintro name ⟨⟩
  · next cs =>
    dsimp only at h
    split at h
    · cases h
    · next hname =>
      have hname : cs.takeWhile isWord ≠ [] := fun hnil => hname (List.isEmpty_iff.2 hnil)
      have hsplit : cs.takeWhile isWord ++ cs.drop (cs.takeWhile isWord).length = cs :=
        List.prefix_iff_eq_append.1 (List.takeWhile_prefix isWord)
      split at h
      · next body hgroup =>
        cases h
        obtain ⟨rest, hrest⟩ := groupOf?_text hgroup
        refine ⟨⟨rest, ?_, ?_⟩, ?_⟩
        · rw [Form.text, List.cons_append, List.append_assoc, ← hrest, hsplit]
        · simp only [Form.text, Segment.bodyText, List.length_cons, List.length_append,
            List.length_nil]
          omega
        · rintro name ⟨⟩
          exact hname
      · cases h
        refine ⟨⟨cs.drop (cs.takeWhile isWord).length, ?_, ?_⟩, ?_⟩
        · rw [Form.text, Segment.bodyText, List.append_nil, List.cons_append, hsplit]
        · rw [Form.text, Segment.bodyText, List.append_nil, List.length_cons]
        · rintro name ⟨⟩
          exact hname
  · split at h
    · next body hgroup =>
      cases h
      obtain ⟨rest, rfl⟩ := groupOf?_text hgroup
      refine ⟨⟨rest, rfl, by simp [Form.text, Segment.bodyText]⟩, ?_⟩
      rintro name ⟨⟩
    · cases h

/-- The sign of a modifier is the character that stands for it. -/
theorem Modifier.sign_of_ofChar? {c : Char} {m : Modifier} (h : Modifier.ofChar? c = some m) :
    m.sign = some c := by
  unfold Modifier.ofChar? at h
  split at h <;> cases h <;> rfl

/-- A capture is the start of the text behind its lead, and knows what follows it there. -/
theorem captureOf?_text {lead : Option Char} {cs : List Char} {p : Piece} {n : Nat}
    (h : captureOf? lead cs = some (p, n)) :
    ∃ text, p.text = lead.toList ++ text ∧ cs = text ++ cs.drop n ∧ 0 < n ∧
      p.StandsBefore (cs.drop n) := by
  unfold captureOf? at h
  split at h
  · cases h
  · next form k hform =>
    have hpos := pos_of_formOf? hform
    obtain ⟨⟨rest, rfl, rfl⟩, hname⟩ := formOf?_text hform
    dsimp only at h
    split at h
    · next modifier hmodifier =>
      cases h
      split at hmodifier
      · cases hmodifier
      · -- The sign is the first character behind the form.
        rw [List.drop_left] at hmodifier ⊢
        obtain ⟨c, hhead, hsign⟩ := Option.bind_eq_some_iff.1 hmodifier
        obtain ⟨rest, rfl⟩ := List.head?_eq_some_iff.1 hhead
        have hdrop : (form.text ++ c :: rest).drop (form.text.length + 1) = rest := by
          rw [← List.drop_drop, List.drop_left, List.drop_succ_cons, List.drop_zero]
        rw [hdrop]
        refine ⟨form.text ++ modifier.sign.toList, rfl, ?_, Nat.succ_pos _, hname, ?_⟩
        · rw [Modifier.sign_of_ofChar? hsign, List.append_assoc]
          rfl
        · rw [List.drop_succ_cons, List.drop_zero]
    · cases h
      rw [List.drop_left]
      exact ⟨form.text ++ [], rfl, by rw [List.append_nil], hpos, hname, rfl⟩

/-- A piece is a part of the text, and what it is read from stands before the rest. -/
theorem readPiece_text (c : Char) (cs : List Char) :
    c :: cs = (readPiece c cs).1.text ++ cs.drop (readPiece c cs).2 ∧
      (readPiece c cs).1.StandsBefore (cs.drop (readPiece c cs).2) := by
  have hplain : c ≠ '\\' → (Piece.plain c).StandsBefore cs := fun hc heq => absurd heq hc
  by_cases hslash : c = '\\'
  · subst hslash
    unfold readPiece
    rw [if_pos rfl]
    split
    · next d cs =>
      split
      · next hline =>
        subst hline
        refine ⟨rfl, fun _ d hd => ?_⟩
        cases hd
        rfl
      · next hline => exact ⟨rfl, hline⟩
    · exact ⟨rfl, fun _ d hd => by cases hd⟩
  -- A capture stands behind the character if that is a lead, and otherwise starts with it.
  by_cases hlead : c = '/' ∨ c = '.'
  · rw [readPiece_lead hlead]
    cases hcapture : captureOf? (some c) cs with
    | none => exact ⟨rfl, hplain hslash⟩
    | some found =>
      obtain ⟨text, htext, hcs, -, hstands⟩ := captureOf?_text hcapture
      refine ⟨?_, hstands⟩
      show c :: cs = found.1.text ++ cs.drop found.2
      rw [htext, List.append_assoc, ← hcs]
      rfl
  · rw [readPiece_other hlead hslash]
    cases hcapture : captureOf? none (c :: cs) with
    | none => exact ⟨rfl, hplain hslash⟩
    | some found =>
      obtain ⟨text, htext, hcs, hpos, hstands⟩ := captureOf?_text hcapture
      obtain ⟨k, hk⟩ := Nat.exists_eq_succ_of_ne_zero hpos.ne'
      rw [hk, List.drop_succ_cons] at hcs hstands
      have hskip : found.2 - 1 = k := by omega
      show c :: cs = found.1.text ++ cs.drop (found.2 - 1) ∧
        found.1.StandsBefore (cs.drop (found.2 - 1))
      rw [hskip]
      exact ⟨by rw [htext]; exact hcs, hstands⟩

/-! ## Captures -/

/-- What the capture of a form is bound under, after `n` captures without a name. -/
def Form.key (n : Nat) : Form → Key
  | .parameter name _ => .named (String.ofList name)
  | _ => .position n

/-- What the capture of a form may read. -/
def Form.body : Form → Body
  | .parameter _ (some body) => .custom body
  | .parameter _ none => .segment
  | .group body => .custom body
  | .star => .anything

/-- The capture of a form, with its lead, its modifier and the character behind it. -/
def Form.capture (n : Nat) (lead : Option Char) (m : Modifier) (next : Option Char) (form : Form) :
    Capture :=
  ⟨form.key n, lead, form.body, m, Reader.sharesSegment lead next⟩

/-- The capture is written as its piece. -/
theorem Form.text_capture (n : Nat) (lead : Option Char) (m : Modifier) (next : Option Char)
    (form : Form) :
    (form.capture n lead m next).text = lead.toList ++ (form.text ++ m.sign.toList) := by
  cases form with
  | parameter name body =>
    cases body <;> simp [capture, key, Form.body, Capture.text, Capture.leadText,
      Capture.formText, Form.text, Segment.bodyText]
  | group body => rfl
  | star => rfl

/-- A capture shares its segment exactly if it has a lead and another character follows. -/
theorem Reader.sharesSegment_iff {lead next : Option Char} :
    Reader.sharesSegment lead next = true ↔
      ∃ x y, lead = some x ∧ next = some y ∧ y ≠ x := by
  unfold sharesSegment
  cases lead with
  | none => simp
  | some x =>
    cases next with
    | none => simp
    | some y => simp

/-- A plain character that is read goes on with the literal. -/
theorem Reader.read_plain {r r' : Reader} {c : Char} (h : r.read (.plain c) = .ok r') :
    r' = { r with pending := c :: r.pending } := by
  have hread : (if c = '(' || c = ')' then .error .unbalancedParenthesis
      else .ok { r with pending := c :: r.pending } : Except PatternFault Reader) = .ok r' := h
  split at hread <;> cases hread
  rfl

/-- A capture that is read is the latest token, and ends the literal before it. -/
theorem Reader.read_capture {r r' : Reader} {lead : Option Char} {form : Form} {m : Modifier}
    {next : Option Char} (h : r.read (.capture lead form m next) = .ok r') :
    r'.tokens = .capture (form.capture r.unnamed lead m next) :: r.flush ∧ r'.pending = [] ∧
      r'.unnamed = r.unnamed + if form.name?.isSome then 0 else 1 := by
  cases form with
  | parameter name body =>
    unfold read at h
    dsimp only at h
    split at h <;> cases h
    cases body <;> exact ⟨rfl, rfl, rfl⟩
  | group body =>
    cases h
    exact ⟨rfl, rfl, rfl⟩
  | star =>
    cases h
    exact ⟨rfl, rfl, rfl⟩

/-! ## Tokens in front of tokens -/

/-- A character behind a backslash is itself. -/
theorem unescape_escaped {c : Char} (h : c ≠ '\n') (cs : List Char) :
    unescape ('\\' :: c :: cs) = c :: unescape cs := by
  rw [unescape, if_neg h]

/-- A character is itself if it is no backslash or only a line feed can follow it. -/
theorem unescape_plain {c : Char} {cs : List Char}
    (h : c = '\\' → ∀ d, cs.head? = some d → d = '\n') :
    unescape (c :: cs) = c :: unescape cs := by
  by_cases hslash : c = '\\'
  · subst hslash
    cases cs with
    | nil => rfl
    | cons d cs =>
      obtain rfl : d = '\n' := h rfl d rfl
      rfl
  · exact unescape.eq_2 c cs fun d cs' heq _ => hslash heq

/-- A part of the text that stands for one character is taken into the literal behind it. -/
theorem Spells.char {ts : List Token} {rest part : List Char} {c : Char} (h : Spells ts rest)
    (hpart : ∀ source, source <+: rest → unescape (part ++ source) = c :: unescape source) :
    Spells (prependLiteral [c] ts) (part ++ rest) := by
  have hone : unescape part = [c] := by
    have hsource := hpart [] List.nil_prefix
    rwa [List.append_nil] at hsource
  cases h with
  | nil =>
    show Spells [.literal [c]] (part ++ [])
    rw [← hone]
    exact .literal .nil
  | @literal source rest ts hrest =>
    show Spells (.literal (c :: unescape source) :: ts) (part ++ (source ++ rest))
    rw [← hpart source (List.prefix_append source rest), ← List.append_assoc]
    exact .literal hrest
  | @capture d rest ts hshared hrest =>
    show Spells (.literal [c] :: .capture d :: ts) (part ++ (d.text ++ rest))
    rw [← hone]
    exact .literal (.capture hshared hrest)

/-- The numbers of the captures without a name, in order. -/
def positions (ts : List Token) : List Nat := (captures ts).filterMap (·.key.position?)

/-- A literal changes nothing about the captures. -/
theorem captures_prepend (c : Char) (ts : List Token) :
    captures (prependLiteral [c] ts) = captures ts := by
  unfold prependLiteral
  split <;> rfl

/-- What is known of the tokens of a text that is read after `n` captures without a name. -/
structure Shaped (n : Nat) (cs : List Char) (ts : List Token) : Prop where
  /-- They spell the text. -/
  spells : Spells ts cs
  /-- One of two neighbours is a capture. -/
  apart : ts.IsChain fun t u => t.capture? ≠ none ∨ u.capture? ≠ none
  /-- Captures without a name are numbered from there. -/
  positions : positions ts = List.range' n (positions ts).length
  /-- Every capture is one of a form, and every name has characters. -/
  formed : ∀ c ∈ captures ts, ∃ form k lead m next, c = Form.capture k lead m next form ∧
    (form = .star → m = .once) ∧ ∀ name, form.name? = some name → name ≠ []

namespace Shaped

variable {n : Nat} {ts : List Token} {rest : List Char}

theorem nil (n : Nat) : Shaped n [] [] := ⟨.nil, .nil, rfl, nofun⟩

/-- A character in front of the text. -/
theorem char (h : Shaped n rest ts) {part : List Char} {c : Char}
    (hpart : ∀ source, source <+: rest → unescape (part ++ source) = c :: unescape source) :
    Shaped n (part ++ rest) (prependLiteral [c] ts) := by
  refine ⟨h.spells.char hpart, ?_, ?_, ?_⟩
  · have hapart := h.apart
    unfold prependLiteral
    split
    · rw [List.isChain_cons] at hapart ⊢
      exact hapart
    · next hother =>
      cases ts with
      | nil => exact .singleton _
      | cons t ts =>
        refine List.isChain_cons_cons.2 ⟨.inr ?_, hapart⟩
        cases t with
        | literal u => exact absurd rfl (hother u ts)
        | capture d => exact Option.some_ne_none d
  · have hpositions := h.positions
    unfold Pattern.positions at hpositions ⊢
    rwa [captures_prepend]
  · rw [captures_prepend]
    exact h.formed

/-- A capture in front of the text. -/
theorem capture {form : Form} {lead : Option Char} {m : Modifier}
    (h : Shaped (n + if form.name?.isSome then 0 else 1) rest ts) (hstar : form = .star → m = .once)
    (hname : ∀ name, form.name? = some name → name ≠ []) :
    Shaped n (lead.toList ++ (form.text ++ m.sign.toList) ++ rest)
      (.capture (form.capture n lead m rest.head?) :: ts) := by
  refine ⟨?_, ?_, ?_, ?_⟩
  · rw [← Form.text_capture n lead m rest.head? form]
    exact .capture Reader.sharesSegment_iff h.spells
  · exact List.isChain_cons.2 ⟨fun _ _ => .inl (Option.some_ne_none _), h.apart⟩
  · have hpositions := h.positions
    cases form with
    | parameter name body => exact hpositions
    | group body => exact congrArg (n :: ·) hpositions
    | star => exact congrArg (n :: ·) hpositions
  · exact List.forall_mem_cons.2 ⟨⟨form, n, lead, m, _, rfl, hstar, hname⟩, h.formed⟩

end Shaped

/-! ## From the pieces of a text to its tokens -/

/-- What is read of a text follows what was read before, whose literal it may go on with. -/
theorem Reader.shaped_of_readAll {cs : List Char} {r r' : Reader}
    (h : r.readAll (pieces cs) = .ok r') :
    ∃ ts, r'.finish = r.tokens.reverse ++ withLiteral r.pending.reverse ts ∧
      Shaped r.unnamed cs ts := by
  -- Along the pieces, for any reader: what was read before only decides the number of the first
  -- capture without a name and the literal that is still open.
  induction cs using pieces_induction generalizing r with
  | nil =>
    cases h
    refine ⟨[], ?_, .nil _⟩
    rw [finish, ← List.append_nil (flush _).reverse]
    exact flush_reverse _ [] fun _ _ => (List.cons_ne_nil _ _).symm
  | cons c cs ih =>
    obtain ⟨htext, hstands⟩ := readPiece_text c cs
    have hwell := readPiece_wellFormed c cs
    rw [pieces_cons] at h
    obtain ⟨r₁, hpiece, hrest⟩ := bind_eq_ok.1 h
    obtain ⟨ts, hfinish, hshaped⟩ := ih hrest
    rw [htext]
    generalize cs.drop (readPiece c cs).2 = rest at hstands hshaped
    generalize (readPiece c cs).1 = p at hpiece hstands hwell
    -- A character goes on with the literal that is open.
    have hliteral : ∀ d, r₁ = { r with pending := d :: r.pending } → r'.finish =
        r.tokens.reverse ++ withLiteral r.pending.reverse (prependLiteral [d] ts) := by
      rintro d rfl
      rw [hfinish, withLiteral_prependLiteral _ (List.cons_ne_nil d []), List.reverse_cons]
    cases p with
    | plain d =>
      obtain rfl := read_plain hpiece
      refine ⟨_, hliteral d rfl, hshaped.char fun source hsource => ?_⟩
      apply unescape_plain
      intro hslash e he
      obtain ⟨tail, rfl⟩ := hsource
      have he : source.head? = some e := he
      exact hstands hslash e (by rw [List.head?_append, he, Option.some_or])
    | escaped d =>
      cases hpiece
      exact ⟨_, hliteral d rfl, hshaped.char fun source _ => unescape_escaped hstands source⟩
    | capture lead form m next =>
      obtain ⟨htokens, hpending, hunnamed⟩ := read_capture hpiece
      obtain ⟨hname, rfl⟩ := hstands
      rw [hunnamed] at hshaped
      refine ⟨_, ?_, hshaped.capture ?_ hname⟩
      · rw [hfinish, htokens, hpending, List.reverse_cons, List.append_assoc]
        apply flush_reverse r _
        rintro u ts' ⟨⟩
      · exact hwell.2

/-! ## Patterns -/

/-- A star is what is written as one, and it has the form of one. -/
theorem Form.capture_star {n : Nat} {lead next : Option Char} {m : Modifier} {form : Form}
    (hstar : form = .star → m = .once) :
    ((form.capture n lead m next).isStar = true ↔
        (form.capture n lead m next).text = (form.capture n lead m next).leadText ++ ['*']) ∧
      ((form.capture n lead m next).isStar = true → form = .star) := by
  rw [Form.text_capture]
  show (_ ↔ lead.toList ++ _ = lead.toList ++ _) ∧ _
  rw [List.append_cancel_left_eq]
  cases form with
  | parameter name body =>
    have hnot : ((Form.parameter name body).capture n lead m next).isStar = false := by
      cases body <;> rfl
    rw [hnot]
    exact ⟨⟨nofun, fun heq => absurd (List.cons.inj heq).1 (by decide)⟩, nofun⟩
  | group body =>
    exact ⟨⟨nofun, fun heq => absurd (List.cons.inj heq).1 (by decide)⟩, nofun⟩
  | star =>
    rw [hstar rfl]
    exact ⟨⟨fun _ => rfl, fun _ => rfl⟩, fun _ => rfl⟩

/-- The tokens of a pattern. -/
structure Shape (cs : List Char) (ts : List Token) : Prop where
  /-- A literal is not empty. -/
  literal : ∀ text, .literal text ∈ ts → text ≠ []
  /-- No two literals stand side by side. -/
  apart : ∀ t u, ¬[Token.literal t, .literal u] <:+: ts
  /-- The names are different and not empty. -/
  names : (paramNames ts).Nodup ∧ ∀ name ∈ paramNames ts, name ≠ ""
  /-- The captures without a name are numbered from 0, in order. -/
  positions : positions ts = List.range (positions ts).length
  /-- A lead is a slash or a point. -/
  lead : ∀ c ∈ captures ts, c.leadText = [] ∨ c.leadText = ['/'] ∨ c.leadText = ['.']
  /-- The delimiter is the lead, or a slash if there is none. -/
  delimiter : ∀ c ∈ captures ts, [c.delimiter] = if c.leadText = [] then ['/'] else c.leadText
  /-- Only a capture with a lead shares its segment. -/
  shared : ∀ c ∈ captures ts, c.shared = true → c.leadText ≠ []
  /-- A star is what is written as a star alone behind its lead. -/
  star : ∀ c ∈ captures ts, c.isStar = true ↔ c.text = c.leadText ++ ['*']
  /-- It has no name, takes one value and reads any text. -/
  starred : ∀ c ∈ captures ts, c.isStar = true → c.isNamed = false ∧
    c.modifier.isOptional = false ∧ c.modifier.isRepeated = false ∧ c.expression = ".*".toList
  /-- The tokens spell the pattern, and a capture shares its segment exactly if it has a lead and
  another character follows it there. -/
  spells : Spells ts cs

/-- The tokens of a text that is a pattern. -/
theorem shape_of_parse {cs : List Char} {ts : List Token} (h : parse cs = .ok ts) :
    Shape cs ts := by
  have hwell := parse_wellFormed h
  have hnodup := parse_paramNames_nodup h
  have hcapture : ∀ c ∈ captures ts, c.WellFormed := fun c hc => hwell _ (mem_captures.1 hc)
  obtain ⟨r, hread, rfl⟩ := map_eq_ok.1 h
  obtain ⟨ts, hfinish, hshaped⟩ := Reader.shaped_of_readAll hread
  obtain rfl : r.finish = ts := hfinish
  refine ⟨fun text => hwell _, ?_, ⟨hnodup, ?_⟩, ?_, ?_, ?_, ?_, ?_, ?_, hshaped.spells⟩
  · intro t u hpair
    have hapart := List.IsChain.infix hshaped.apart hpair
    obtain h | h := (List.isChain_cons_cons.1 hapart).1 <;> exact h rfl
  · intro name hname hempty
    obtain ⟨c, hc, hkey⟩ := List.mem_filterMap.1 hname
    obtain ⟨form, k, lead, m, next, rfl, -, hne⟩ := hshaped.formed c hc
    cases form with
    | parameter chars body =>
      obtain rfl : String.ofList chars = name := Option.some.inj hkey
      exact hne chars rfl (String.ofList_eq_empty_iff.1 hempty)
    | group body => cases hkey
    | star => cases hkey
  · rw [List.range_eq_range']
    exact hshaped.positions
  · intro c hc
    have hlead := (hcapture c hc).lead
    unfold Capture.leadText
    cases hcase : c.lead with
    | none => exact .inl rfl
    | some x =>
      obtain rfl | rfl := hlead x hcase
      · exact .inr (.inl rfl)
      · exact .inr (.inr rfl)
  · intro c _
    unfold Capture.delimiter Capture.leadText
    cases c.lead <;> rfl
  · intro c hc hshared hnil
    exact (hcapture c hc).shared hshared (Option.toList_eq_nil_iff.1 hnil)
  · intro c hc
    obtain ⟨form, k, lead, m, next, rfl, hstar, -⟩ := hshaped.formed c hc
    exact (Form.capture_star hstar).1
  · intro c hc hisStar
    obtain ⟨form, k, lead, m, next, rfl, hstar, -⟩ := hshaped.formed c hc
    obtain rfl := (Form.capture_star hstar).2 hisStar
    rw [hstar rfl]
    exact ⟨rfl, rfl, rfl, rfl⟩

/-- The tokens of every pattern have this shape, and what it compiles to has a key for each of its
captures. -/
theorem parse_shape [CharacterNames] {pattern : String} {ts : List Token}
    (h : parse pattern.toList = .ok ts) :
    Shape pattern.toList ts ∧ ∀ o p, compile pattern o = .ok p →
      p.captures.length = ts.countP fun t => t.capture?.isSome := by
  refine ⟨shape_of_parse h, fun o p hp => ?_⟩
  obtain rfl : p.tokens = ts := Except.ok.inj ((Compiled.madeFrom hp).tokens.symm.trans h)
  rw [Compiled.captures, captures, List.length_filterMap_eq_countP]

/-- A colon behind a backslash belongs to the literal, a hyphen behind a parameter makes it share
its segment, and a star may stand for itself or repeat the parameter before it. -/
theorem parse_shape_docs :
    ∃ ts, parse "/v\\:/:id(\\d+)?-:lang*(.*)/*".toList = .ok ts ∧
      Shape "/v\\:/:id(\\d+)?-:lang*(.*)/*".toList ts ∧ paramNames ts = ["id", "lang"] ∧
      positions ts = [0, 1] ∧ (captures ts).map (·.shared) = [true, false, false, false] := by
  refine ⟨_, rfl, (parse_shape rfl).1, ?_, ?_, ?_⟩ <;> decide

end Pattern

end SiteRouter
