import SiteRouter.Proofs.Regex.Ends
import SiteRouter.Proofs.Text.Case

/-!
# ASCII letters and the places of a match

Where case is ignored, an expression reaches in a text with its ASCII letters in lower case the
places that it reaches in the text itself, in the same order and with the same pieces kept: lowering
a place commutes with walking on from it (`ends_lowered`). The whole search is compared in one
step, so nothing need be said about which of several places is found first.

Every test of a character must be deaf to the case of ASCII letters for this. The tests of single
characters see only the lower case of the character, and the categories hold both cases of a letter
or neither (`CharSet.contains_toLower`).
-/

namespace SiteRouter.Regex

open Text (lowerCode)

/-! ## Tests of characters -/

theorem lowerCode_toLower (x : Char) : lowerCode x.toLower.toNat = lowerCode x.toNat :=
  Text.eq_toLower (f := fun x => lowerCode x.toNat) (by decide) x

/-- Whether a code point is the same letter depends on the lower case alone. -/
theorem fitsCode_toLower (n : Nat) (x : Char) :
    fitsCode true n x.toLower = fitsCode true n x := by
  show Text.sameLetter n _ = Text.sameLetter n _
  unfold Text.sameLetter
  rw [lowerCode_toLower]

theorem Category.contains_toLower (kind : Category) (x : Char) :
    kind.contains x.toLower = kind.contains x := by
  cases kind with
  | digit => exact Text.eq_toLower (f := Text.isDigit) (by decide) x
  | blank => exact Text.eq_toLower (f := Text.isBlank) (by decide) x
  | word => exact Text.eq_toLower (f := Text.isWord) (by decide) x

theorem SetItem.contains_toLower (i : SetItem) (x : Char) :
    i.contains true x.toLower = i.contains true x := by
  cases i with
  | code n => simp only [SetItem.contains, lowerCode_toLower, fitsCode_toLower]
  | range lo hi => simp only [SetItem.contains, lowerCode_toLower, if_true]
  | category kind negated => simp only [SetItem.contains, Category.contains_toLower]

/-- A set holds both cases of an ASCII letter or neither. -/
theorem CharSet.contains_toLower (s : CharSet) (x : Char) :
    s.contains true x.toLower = s.contains true x := by
  unfold CharSet.contains
  simp only [SetItem.contains_toLower]

/-! ## Places in lower case -/

/-- The piece of the text with its ASCII letters in lower case. -/
def Span.lowered (s : Span) : Span := ⟨s.start.map Char.toLower, s.length⟩

theorem Span.chars_lowered (s : Span) : s.lowered.chars = s.chars.map Char.toLower :=
  List.map_take.symm

namespace Cursor

/-- The place in the text with its ASCII letters in lower case. -/
def lowered (c : Cursor) : Cursor :=
  ⟨c.pos, c.prev.map Char.toLower, c.rest.map Char.toLower,
    c.kept.map fun k => (k.1, k.2.lowered)⟩

@[simp] theorem pos_lowered (c : Cursor) : c.lowered.pos = c.pos := rfl

@[simp] theorem rest_lowered (c : Cursor) : c.lowered.rest = c.rest.map Char.toLower := rfl

theorem atStart_lowered (cs : List Char) :
    (atStart cs).lowered = atStart (cs.map Char.toLower) := rfl

theorem keep_lowered (c : Cursor) (n : Nat) (since : Cursor) :
    (c.keep n since).lowered = c.lowered.keep n since.lowered := rfl

theorem group?_lowered (c : Cursor) (n : Nat) :
    c.lowered.group? n = (c.group? n).map Span.lowered := by
  unfold group? lowered
  induction c.kept with
  | nil => rfl
  | cons k ks ih =>
    rw [List.map_cons, List.lookup_cons, List.lookup_cons]
    cases n == k.1 with
    | true => rfl
    | false => exact ih

/-- A character is read in lower case where it is read as it is. -/
theorem advance_lowered {test test' : Char → Bool} (h : ∀ x, test' x.toLower = test x)
    (c : Cursor) : c.lowered.advance test' = (c.advance test).map lowered := by
  unfold advance
  rw [rest_lowered]
  cases c.rest with
  | nil => rfl
  | cons x rest =>
    rw [List.map_cons]
    dsimp only
    rw [h]
    cases test x <;> rfl

/-- A text is gone over in lower case where it is gone over as it is. -/
theorem advanceOver_lowered {same : Char → Char → Bool}
    (h : ∀ x y, same x.toLower y.toLower = same x y) (t : List Char) (c : Cursor) :
    c.lowered.advanceOver same (t.map Char.toLower) = (c.advanceOver same t).map lowered := by
  induction t generalizing c with
  | nil => rfl
  | cons x t ih =>
    unfold advanceOver
    rw [List.map_cons]
    dsimp only
    rw [advance_lowered (h x), Option.bind_map, Option.map_bind]
    exact congrArg _ (funext ih)

/-- The edges of words are the same places. -/
theorem atWordEdge_lowered (c : Cursor) : c.lowered.atWordEdge = c.atWordEdge := by
  have hword : (fun x : Char => Text.isWord x.toLower) = Text.isWord :=
    funext (Category.contains_toLower .word)
  unfold atWordEdge lowered
  rw [List.head?_map, Option.any_map, Option.any_map, hword]

theorem inEmptyText_lowered (c : Cursor) : c.lowered.inEmptyText = c.inEmptyText := by
  unfold inEmptyText lowered
  rw [Option.isNone_map, List.isEmpty_map]

theorem isAt_lowered (c : Cursor) (a : Anchor) : c.lowered.isAt a = c.isAt a := by
  cases a with
  | start => exact Option.isNone_map
  | lineEnd =>
    have hfeed : ∀ x : Char, (x.toLower == '\n') = (x == '\n') :=
      Text.eq_toLower (f := (· == '\n')) (by decide)
    unfold isAt
    rw [rest_lowered]
    cases c.rest with
    | nil => rfl
    | cons x rest =>
      show (false || (x.toLower == '\n' && rest.map Char.toLower == [])) = _
      rw [hfeed]
      cases rest <;> rfl
  | finish => exact List.isEmpty_map
  | wordEdge =>
    unfold isAt
    rw [inEmptyText_lowered, atWordEdge_lowered]
  | noWordEdge =>
    unfold isAt
    rw [inEmptyText_lowered, atWordEdge_lowered]

end Cursor

/-! ## The places reached -/

namespace Places

/-- In lower case the same places are reached, in the same order. -/
def Caseless (e : Places) : Prop := ∀ c, e c.lowered = (e c).map Cursor.lowered

namespace Caseless

variable {e next : Places}

theorem stay : Caseless fun c => [c] := fun _ => rfl

theorem one {test : Char → Bool} (h : ∀ x, test x.toLower = test x) :
    (Places.one test).Caseless := by
  intro c
  unfold Places.one
  rw [Cursor.advance_lowered h, Option.toList_map]

theorem andThen (h : e.Caseless) (h' : next.Caseless) :
    Caseless fun c => (e c).flatMap next := by
  intro c
  have hnext : (fun m : Cursor => next m.lowered) = fun m => (next m).map Cursor.lowered :=
    funext h'
  dsimp only
  rw [h, List.flatMap_map, List.map_flatMap, hnext]

theorem head? (h : e.Caseless) (c : Cursor) :
    (e c.lowered).head? = (e c).head?.map Cursor.lowered := by
  rw [h, List.head?_map]

theorem times (h : e.Caseless) (n : Nat) : (Places.times e n).Caseless := by
  induction n with
  | zero => exact stay
  | succ n ih => exact h.andThen ih

theorem thenMore (h : e.Caseless) (h' : next.Caseless) : (Places.thenMore e next).Caseless := by
  intro c
  -- Whether a round has read something is seen from the positions alone.
  have hround : (fun m : Cursor =>
      if m.lowered.pos = c.lowered.pos then [m.lowered] else next m.lowered)
        = fun m => (if m.pos = c.pos then [m] else next m).map Cursor.lowered := by
    funext m
    rw [Cursor.pos_lowered, Cursor.pos_lowered]
    split
    · rfl
    · exact h' m
  unfold Places.thenMore
  rw [h, List.flatMap_map, List.map_flatMap, hround]

theorem greedy (h : e.Caseless) (n : Nat) : (Places.greedy e n).Caseless := by
  induction n with
  | zero => exact stay
  | succ n ih =>
    intro c
    unfold Places.greedy
    rw [h.thenMore ih, List.map_append]
    rfl

theorem lazily (h : e.Caseless) (n : Nat) : (Places.lazily e n).Caseless := by
  induction n with
  | zero => exact stay
  | succ n ih =>
    intro c
    unfold Places.lazily
    rw [h.thenMore ih]
    rfl

theorem exhaust (h : e.Caseless) (n : Nat) (c : Cursor) :
    Places.exhaust e n c.lowered = (Places.exhaust e n c).lowered := by
  induction n generalizing c with
  | zero => rfl
  | succ n ih =>
    unfold Places.exhaust
    rw [h.head?]
    cases (e c).head? with
    | none => rfl
    | some m =>
      rw [Option.map_some]
      dsimp only
      rw [Cursor.pos_lowered, Cursor.pos_lowered]
      split
      · rfl
      · exact ih m

theorem timesFirst (h : e.Caseless) (n : Nat) (c : Cursor) :
    Places.timesFirst e n c.lowered = (Places.timesFirst e n c).map Cursor.lowered := by
  induction n generalizing c with
  | zero => rfl
  | succ n ih =>
    unfold Places.timesFirst
    rw [h.head?, Option.bind_map, Option.map_bind]
    exact congrArg _ (funext ih)

theorem repeated (h : e.Caseless) (min : Nat) (max : Option Nat) (mode : Mode) :
    (Places.repeated e min max mode).Caseless := by
  -- There are as many characters left in lower case, so the bounds on the rounds are the same.
  have hrounds : ∀ c : Cursor,
      Matcher.roundsLeft min max c.lowered = Matcher.roundsLeft min max c := by
    intro c
    unfold Matcher.roundsLeft
    rw [Cursor.rest_lowered, List.length_map]
  cases mode with
  | greedy =>
    refine (h.times min).andThen fun c => ?_
    rw [hrounds, h.greedy]
  | lazy =>
    refine (h.times min).andThen fun c => ?_
    rw [hrounds, h.lazily]
  | possessive =>
    intro c
    simp only [Places.repeated, h.timesFirst, Option.map_map, ← Option.toList_map]
    congr 2
    funext m
    rw [Function.comp_apply, hrounds, h.exhaust]
    rfl

end Caseless

end Places

/-- Without regard to case an expression reaches in lower case the places that it reaches in the
text as it is. -/
theorem ends_lowered (r : Regex) : (r.ends true).Caseless := by
  induction r with
  | empty => exact .stay
  | char n => exact .one (fitsCode_toLower n)
  | notChar n => exact .one fun x => by rw [fitsCode_toLower]
  | any => exact .one (Text.eq_toLower (f := (· != '\n')) (by decide))
  | set s => exact .one s.contains_toLower
  | anchor a =>
    intro c
    simp only [ends]
    rw [Cursor.isAt_lowered]
    split <;> rfl
  | backref n =>
    intro c
    have hsame : ∀ x y : Char, (lowerCode x.toLower.toNat == lowerCode y.toLower.toNat)
        = (lowerCode x.toNat == lowerCode y.toNat) := by
      intro x y
      rw [lowerCode_toLower, lowerCode_toLower]
    simp only [ends, if_true]
    rw [Cursor.group?_lowered, Option.bind_map, ← Option.toList_map, Option.map_bind]
    congr 2
    funext span
    rw [Function.comp_apply, Span.chars_lowered, Cursor.advanceOver_lowered hsame]
    rfl
  | seq r s ihr ihs => exact ihr.andThen ihs
  | alt r s ihr ihs =>
    intro c
    simp only [ends]
    rw [ihr, ihs, List.map_append]
  | group n r ih =>
    intro c
    simp only [ends]
    rw [ih, List.map_map, List.map_map]
    exact List.map_congr_left fun m _ => (Cursor.keep_lowered m n c).symm
  | atomic r ih =>
    intro c
    simp only [ends]
    rw [ih.head?, Option.toList_map]
  | ahead r ih =>
    intro c
    simp only [ends]
    rw [ih.head?, Option.map_map, ← Option.toList_map, Option.map_map]
    rfl
  | repeated r min max mode ih => exact ih.repeated min max mode

/-- A match without regard to case ends in lower case where it ends in the text as it is, with the
same pieces kept. -/
theorem matchStart_lowered (r : Regex) (cs : List Char) :
    r.matchStart true (cs.map Char.toLower) = (r.matchStart true cs).map Cursor.lowered := by
  rw [matchStart_eq_head?, matchStart_eq_head?, ← Cursor.atStart_lowered, (ends_lowered r).head?]

end SiteRouter.Regex
