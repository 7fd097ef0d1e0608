import SiteRouter.Proofs.Pattern.Matching
import SiteRouter.Proofs.Pattern.Tokens

/-!
# Captures without a sub-pattern

A parameter without a sub-pattern reads the characters of a segment, at least one and no delimiter;
a star reads anything up to a line feed. For these two the expression is known: `Capture.defaultExpr`
gives it, and `Capture.IsDefault.spells` says which texts it spells. A pattern with no other
captures compiles (`compile_default`), and its compiled form stands for its tokens.
-/

namespace SiteRouter.Pattern

open Regex (Closed Denotes)

namespace Capture

/-- Whether the capture has no sub-pattern and stands after a slash, a point or neither. -/
structure IsDefault (c : Capture) : Prop where
  /-- What it may read is not written in the pattern. -/
  body : ∀ text, c.body ≠ .custom text
  /-- The lead is one of the two characters. -/
  lead : ∀ x, c.lead = some x → x = '/' ∨ x = '.'

/-- The expression for one value of a capture without a sub-pattern. -/
def defaultExpr (c : Capture) : Regex :=
  if c.isStar then .repeated .any 0 none .greedy
  else .repeated (.notChar c.delimiter.toNat) 1 none .lazy

/-- What a capture without a sub-pattern may read: a star anything without a line feed, a parameter
at least one character and no delimiter. -/
def Fits (c : Capture) (v : List Char) : Prop :=
  if c.isStar then '\n' ∉ v else v ≠ [] ∧ c.delimiter ∉ v

/-- The delimiter is one of the two characters. -/
theorem IsDefault.delimiter {c : Capture} (h : c.IsDefault) :
    c.delimiter = '/' ∨ c.delimiter = '.' := IsLead.delimiter h.lead

end Capture

/-- The text for the characters of a segment. -/
theorem closed_notDelimiter [CharacterNames] {d : Char} (h : d = '/' ∨ d = '.') :
    Closed ('[' :: ('^' :: (escapeLiteral [d] ++ [']']))) 0 fun _ => .notChar d.toNat := by
  rcases h with rfl | rfl
  · exact .of_lexeme (.cons (by decide) _) fun rest => rfl
  · exact .of_lexeme (.cons (by decide) _) fun rest => rfl

namespace Capture.IsDefault

variable {c : Capture}

/-- The text of what the capture may read denotes its expression. -/
theorem closed [CharacterNames] (h : c.IsDefault) :
    Closed c.segmentExpression 0 fun _ => c.defaultExpr := by
  have hplain : Denotes c.expression 0 fun _ => [c.defaultExpr] := by
    unfold Capture.expression defaultExpr isStar
    cases hbody : c.body with
    | custom text => exact absurd hbody (h.body text)
    | anything =>
      have hany : Closed ['.'] 0 fun _ => .any :=
        .of_lexeme (.cons (by decide) _) fun rest => rfl
      exact hany.counted readLexeme_star
    | segment =>
      -- The count is lazy by the question mark after it.
      have hlazy : ∀ cs, Regex.KeepsCount cs → Regex.readLexeme '+' (['?'] ++ cs)
          = (some (.count 1 none .lazy), 1) := fun cs _ => rfl
      have htext : "[^".toList ++ escapeLiteral [c.delimiter] ++ "]+?".toList
          = ('[' :: ('^' :: (escapeLiteral [c.delimiter] ++ [']']))) ++ '+' :: ['?'] := by
        simp
      rw [htext]
      exact (closed_notDelimiter h.delimiter).repeated ['?'] hlazy
  exact hplain.body.plain

/-- The expression spells what the capture may read. -/
theorem spells (h : c.IsDefault) (ignoreCase : Bool) (v : List Char) :
    c.defaultExpr.Spells ignoreCase v ↔ c.Fits v := by
  unfold defaultExpr Fits
  split
  -- A star: any number of characters other than a line feed.
  · have hany := Regex.repeats_one (· != '\n') 0 v
    refine Iff.trans hany ⟨fun ⟨_, hv⟩ hmem => ?_, fun hv => ⟨Nat.zero_le _, fun x hx => ?_⟩⟩
    · exact absurd (hv _ hmem) (by decide)
    · rw [bne_iff_ne]
      rintro rfl
      exact hv hx
  -- A parameter: at least one character other than the delimiter, which has no case.
  · have hdelimiter : c.delimiter.toNat < Text.firstLetter := by
      rcases h.delimiter with hd | hd <;> rw [hd] <;> decide
    have hfits := Regex.fitsCode_caseless_left ignoreCase hdelimiter
    have hnot := Regex.repeats_one (fun x => !Regex.fitsCode ignoreCase c.delimiter.toNat x) 1 v
    refine Iff.trans hnot (and_congr List.length_pos_iff ⟨fun hv hmem => ?_, fun hv x hx => ?_⟩)
    · have hx := hv _ hmem
      rw [(hfits _).2 rfl] at hx
      exact absurd hx (by decide)
    · rw [Bool.not_eq_true', Bool.eq_false_iff]
      intro hx'
      rw [(hfits x).1 hx'] at hx
      exact hv hx

theorem isRegular (c : Capture) : c.defaultExpr.IsRegular := by
  unfold defaultExpr
  split
  · exact ⟨trivial, nofun, nofun⟩
  · exact ⟨trivial, nofun, nofun⟩

end Capture.IsDefault

/-! ## Tokens -/

namespace Token

/-- A literal has characters, and a capture has no sub-pattern. -/
def IsDefault : Token → Prop
  | literal text => text ≠ []
  | capture c => c.IsDefault

/-- The step of a token whose capture has no sub-pattern. -/
def defaultStep : Token → Step
  | literal text => .literal text
  | capture c => .capture c c.defaultExpr

@[simp] theorem token_defaultStep (t : Token) : t.defaultStep.token = t := by
  cases t <;> rfl

theorem IsDefault.valid [CharacterNames] {t : Token} (h : t.IsDefault) : t.defaultStep.Valid := by
  cases t with
  | literal text => exact ⟨trivial, fun heq => h (Step.literal.inj heq)⟩
  | capture c => exact ⟨Capture.IsDefault.closed h, nofun⟩

theorem IsDefault.regular {t : Token} (h : t.IsDefault) : t.defaultStep.Regular := by
  cases t with
  | literal text => trivial
  | capture c =>
    refine ⟨Capture.IsDefault.isRegular c, fun x hx => ?_⟩
    have hlead : x = '/' ∨ x = '.' := Capture.IsDefault.lead h x hx
    rcases hlead with rfl | rfl <;> decide

end Token

section

variable {step : Token → Step} (htoken : ∀ t, (step t).token = t) {pattern : String}
  {ts : List Token}

include htoken

/-- The steps of tokens have these tokens. -/
theorem map_token_map (ts : List Token) : (ts.map step).map Step.token = ts := by
  rw [List.map_map]
  exact (List.map_congr_left fun t _ => htoken t).trans (List.map_id ts)

/-- The steps of tokens end in a slash if the last token is a literal that does. -/
theorem endsInSlash_map_iff (ts : List Token) :
    endsInSlash (ts.map step) = true ↔ ∃ text, ts.getLast? = some (.literal (text ++ ['/'])) := by
  unfold endsInSlash
  rw [List.getLast?_map, Option.any_map]
  cases ts.getLast? with
  | none => simp
  | some t =>
    have hstep := htoken t
    show (step t).endsInSlash = true ↔ ∃ text, some t = _
    cases hs : step t with
    | literal text =>
      rw [hs] at hstep
      obtain rfl : Token.literal text = t := hstep
      simp [Step.endsInSlash, List.getLast?_eq_some_iff]
    | capture c segment =>
      rw [hs] at hstep
      obtain rfl : Token.capture c = t := hstep
      simp [Step.endsInSlash]

/-- Tokens with steps that are valid compile to these steps. -/
theorem compile_map [CharacterNames] (o : Options) (hparse : parse pattern.toList = .ok ts)
    (h : ∀ t ∈ ts, (step t).Valid) :
    compile pattern o = .ok ⟨pattern, o, ts, ts.map step, program o (ts.map step)⟩ := by
  have hvalid : ∀ s ∈ ts.map step, s.Valid := List.forall_mem_map.2 h
  have hcompile := compile_eq o (ts.map step) (by rw [map_token_map htoken, hparse]) hvalid
  rwa [map_token_map htoken] at hcompile

/-- What tokens with regular steps compile to stands for them. -/
theorem faithful_map (pattern : String) (o : Options) (h : ∀ t ∈ ts, (step t).Regular) :
    Compiled.Faithful ⟨pattern, o, ts, ts.map step, program o (ts.map step)⟩ :=
  ⟨(map_token_map htoken ts).symm, rfl, List.forall_mem_map.2 h⟩

end

/-- The compiled form of tokens whose captures have no sub-pattern. -/
def compiledDefault (pattern : String) (o : Options) (ts : List Token) : Compiled :=
  ⟨pattern, o, ts, ts.map Token.defaultStep, program o (ts.map Token.defaultStep)⟩

/-- A pattern whose captures have no sub-pattern compiles. -/
theorem compile_default [CharacterNames] {pattern : String} {ts : List Token} (o : Options)
    (hparse : parse pattern.toList = .ok ts) (h : ∀ t ∈ ts, t.IsDefault) :
    compile pattern o = .ok (compiledDefault pattern o ts) :=
  compile_map Token.token_defaultStep o hparse fun t ht => (h t ht).valid

/-- The compiled form stands for the tokens. -/
theorem faithful_compiledDefault (pattern : String) (o : Options) {ts : List Token}
    (h : ∀ t ∈ ts, t.IsDefault) : (compiledDefault pattern o ts).Faithful :=
  faithful_map Token.token_defaultStep pattern o fun t ht => (h t ht).regular

end SiteRouter.Pattern
