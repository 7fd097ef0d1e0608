import SiteRouter.Regex.Match

/-!
# The places a match can reach

`Regex.run` hands the places it reaches to a continuation, one after the other. Here the same places
are a list, in order of preference: `ends` computes it by recursion on the expression, and
`run_eq_findSome?` shows that running an expression is searching that list for the first place that
the continuation accepts. A match from the start of a text is then the head of the list
(`matchStart_eq_head?`), and a match of the whole text is any member at its end
(`matchesAll_iff`).

Backtracking is gone from the statements that follow: what a pattern accepts is what is in the list,
and what its groups hold is what the first member holds.
-/

namespace SiteRouter.Regex

/-- The places that can be reached from a place, in order of preference. -/
abbrev Places := Cursor → List Cursor

namespace Places

/-- The place after one character that passes the test. -/
def one (test : Char → Bool) : Places := fun c => (c.advance test).toList

/-- The places after a fixed number of rounds. -/
def times (body : Places) : Nat → Places
  | 0 => fun c => [c]
  | n + 1 => fun c => (body c).flatMap (times body n)

/-- The places after a round, and after what follows it if it read something. -/
def thenMore (body next : Places) : Places :=
  fun c => (body c).flatMap fun c' => if c'.pos = c.pos then [c'] else next c'

/-- The places after at most the given number of rounds, those after more rounds first. -/
def greedy (body : Places) : Nat → Places
  | 0 => fun c => [c]
  | n + 1 => fun c => thenMore body (greedy body n) c ++ [c]

/-- The places after at most the given number of rounds, those after fewer rounds first. -/
def lazily (body : Places) : Nat → Places
  | 0 => fun c => [c]
  | n + 1 => fun c => c :: thenMore body (lazily body n) c

/-- The place after as many rounds as can be made, each in its first way. -/
def exhaust (body : Places) : Nat → Cursor → Cursor
  | 0, c => c
  | n + 1, c =>
    match (body c).head? with
    | some c' => if c'.pos = c.pos then c' else exhaust body n c'
    | none => c

/-- The place after a fixed number of rounds, each in its first way. -/
def timesFirst (body : Places) : Nat → Cursor → Option Cursor
  | 0, c => some c
  | n + 1, c => (body c).head?.bind (timesFirst body n)

/-- The places after a repetition. -/
def repeated (body : Places) (min : Nat) (max : Option Nat) : Mode → Places
  | .greedy => fun c =>
    (times body min c).flatMap fun c' => greedy body (Matcher.roundsLeft min max c') c'
  | .lazy => fun c =>
    (times body min c).flatMap fun c' => lazily body (Matcher.roundsLeft min max c') c'
  | .possessive => fun c =>
    ((timesFirst body min c).map fun c' =>
      exhaust body (Matcher.roundsLeft min max c') c').toList

end Places

/-- The places that an expression can reach from a place, in order of preference. -/
def ends (ignoreCase : Bool) : Regex → Places
  | .empty => fun c => [c]
  | .char n => .one (fitsCode ignoreCase n)
  | .notChar n => .one fun x => !fitsCode ignoreCase n x
  | .any => .one (· != '\n')
  | .set s => .one (s.contains ignoreCase)
  | .anchor a => fun c => if c.isAt a then [c] else []
  | .backref n => fun c =>
    ((c.group? n).bind fun span =>
      c.advanceOver (fun x y =>
        if ignoreCase then Text.lowerCode x.toNat == Text.lowerCode y.toNat else x == y)
        span.chars).toList
  | .seq r s => fun c => (ends ignoreCase r c).flatMap (ends ignoreCase s)
  | .alt r s => fun c => ends ignoreCase r c ++ ends ignoreCase s c
  | .group n r => fun c => (ends ignoreCase r c).map (·.keep n c)
  | .atomic r => fun c => (ends ignoreCase r c).head?.toList
  | .ahead r => fun c =>
    ((ends ignoreCase r c).head?.map fun c' => { c with kept := c'.kept }).toList
  | .repeated r min max mode => Places.repeated (ends ignoreCase r) min max mode

/-- The places that expressions can reach one after the other. -/
def endsAll (ignoreCase : Bool) : List Regex → Places
  | [] => fun c => [c]
  | r :: rs => fun c => (ends ignoreCase r c).flatMap (endsAll ignoreCase rs)

/-- The expressions in sequence reach what they reach one after the other. -/
theorem ends_sequence (ignoreCase : Bool) (rs : List Regex) :
    ends ignoreCase (sequence rs) = endsAll ignoreCase rs := by
  funext c
  induction rs generalizing c with
  | nil => rfl
  | cons r rs ih =>
    cases rs with
    | nil =>
      show _ = (ends ignoreCase r c).flatMap fun c' => [c']
      rw [List.flatMap_singleton']
      rfl
    | cons s rs =>
      show (ends ignoreCase r c).flatMap (ends ignoreCase (sequence (s :: rs))) = _
      rw [funext ih]
      rfl

theorem endsAll_singleton (ignoreCase : Bool) (r : Regex) :
    endsAll ignoreCase [r] = ends ignoreCase r :=
  (ends_sequence ignoreCase [r]).symm

theorem endsAll_append (ignoreCase : Bool) (rs ss : List Regex) (c : Cursor) :
    endsAll ignoreCase (rs ++ ss) c = (endsAll ignoreCase rs c).flatMap (endsAll ignoreCase ss) := by
  induction rs generalizing c with
  | nil => simp [endsAll]
  | cons r rs ih =>
    simp only [List.cons_append, endsAll, List.flatMap_assoc]
    rw [funext ih]

/-- What may be left out is preferred to leaving it out. -/
theorem ends_optional (ignoreCase : Bool) (r : Regex) (c : Cursor) :
    ends ignoreCase (.repeated r 0 (some 1) .greedy) c = ends ignoreCase r c ++ [c] := by
  simp [ends, Places.repeated, Places.times, Matcher.roundsLeft, Places.greedy, Places.thenMore]

/-- A star makes as many rounds as it can first, and no more than characters are left. -/
theorem ends_star (ignoreCase : Bool) (r : Regex) (c : Cursor) :
    ends ignoreCase (.repeated r 0 none .greedy) c =
      Places.greedy (ends ignoreCase r) (c.rest.length + 1) c := by
  simp [ends, Places.repeated, Places.times, Matcher.roundsLeft]

/-! ## Running is searching -/

/-- Searching the members of lists in turn is searching their concatenation. -/
theorem findSome?_flatMap {α β γ : Type} (l : List α) (f : α → List β) (k : β → Option γ) :
    (l.flatMap f).findSome? k = l.findSome? fun a => (f a).findSome? k := by
  induction l with
  | nil => rfl
  | cons a l ih =>
    rw [List.flatMap_cons, List.findSome?_append, ih, List.findSome?_cons]
    cases (f a).findSome? k <;> rfl

/-- The first member is what a search that accepts everything finds. -/
theorem findSome?_some {α : Type} (l : List α) : l.findSome? some = l.head? := by
  cases l <;> rfl

/-- Searching the one member of an option. -/
theorem findSome?_toList {α β : Type} (o : Option α) (k : α → Option β) :
    o.toList.findSome? k = o.bind k := by
  cases o with
  | none => rfl
  | some a => simp

/-- A matcher lists the places if running it is searching them. -/
def Matcher.Lists (m : Matcher) (e : Places) : Prop :=
  ∀ c k, m c k = (e c).findSome? k

namespace Matcher.Lists

variable {body : Matcher} {e : Places}

theorem one (test : Char → Bool) : (Matcher.one test).Lists (Places.one test) := by
  intro c k
  rw [Matcher.one, Places.one, findSome?_toList]

/-- Going on from what a matcher reaches is searching what can be reached from its places. -/
theorem andThen (h : body.Lists e) {next : Matcher} {e' : Places} (h' : next.Lists e') :
    Matcher.Lists (fun c k => body c fun c' => next c' k) fun c => (e c).flatMap e' := by
  intro c k
  show body c (fun c' => next c' k) = _
  rw [h, findSome?_flatMap]
  congr 1
  funext c'
  exact h' c' k

theorem times (h : body.Lists e) (n : Nat) : (Matcher.times body n).Lists (Places.times e n) := by
  induction n with
  | zero => intro c k; simp [Matcher.times, Places.times]
  | succ n ih => exact h.andThen ih

/-- The part that greedy and lazy rounds share: a round and what follows it. -/
theorem thenMore (h : body.Lists e) {next : Matcher} {e' : Places} (h' : next.Lists e')
    (c : Cursor) (k : Cursor → Option Cursor) :
    (body c fun c' => if c'.pos = c.pos then k c' else next c' k)
      = (Places.thenMore e e' c).findSome? k := by
  have hround : Matcher.Lists (fun c' k => if c'.pos = c.pos then k c' else next c' k)
      fun c' => if c'.pos = c.pos then [c'] else e' c' := by
    intro c' k
    dsimp only
    split
    · simp
    · exact h' c' k
  exact h.andThen hround c k

theorem greedy (h : body.Lists e) (n : Nat) :
    (Matcher.greedy body n).Lists (Places.greedy e n) := by
  induction n with
  | zero => intro c k; simp [Matcher.greedy, Places.greedy]
  | succ n ih =>
    intro c k
    simp only [Matcher.greedy, Places.greedy]
    rw [List.findSome?_append, ← thenMore h ih c k]
    split
    · next r hr => rw [hr]; rfl
    · next hr => rw [hr]; simp

theorem lazily (h : body.Lists e) (n : Nat) :
    (Matcher.lazily body n).Lists (Places.lazily e n) := by
  induction n with
  | zero => intro c k; simp [Matcher.lazily, Places.lazily]
  | succ n ih =>
    intro c k
    simp only [Matcher.lazily, Places.lazily]
    rw [List.findSome?_cons, thenMore h ih c k]
    cases k c <;> rfl

/-- The first way of a matcher is the head of its places. -/
theorem first (h : body.Lists e) (c : Cursor) : body c some = (e c).head? := by
  rw [h, findSome?_some]

theorem exhaust (h : body.Lists e) (n : Nat) (c : Cursor) :
    Matcher.exhaust body n c = Places.exhaust e n c := by
  induction n generalizing c with
  | zero => rfl
  | succ n ih =>
    rw [Matcher.exhaust, Places.exhaust, h.first]
    cases (e c).head? with
    | none => rfl
    | some c' =>
      dsimp only
      split
      · rfl
      · exact ih c'

theorem timesFirst (h : body.Lists e) (n : Nat) (c : Cursor) :
    Matcher.timesFirst body n c = Places.timesFirst e n c := by
  induction n generalizing c with
  | zero => rfl
  | succ n ih =>
    rw [Matcher.timesFirst, Places.timesFirst, h.first]
    congr 1
    funext c'
    exact ih c'

theorem repeated (h : body.Lists e) (min : Nat) (max : Option Nat) (mode : Mode) :
    (Matcher.repeated body min max mode).Lists (Places.repeated e min max mode) := by
  cases mode with
  | greedy =>
    exact (h.times min).andThen fun c' k => h.greedy (Matcher.roundsLeft min max c') c' k
  | lazy =>
    exact (h.times min).andThen fun c' k => h.lazily (Matcher.roundsLeft min max c') c' k
  | possessive =>
    intro c k
    simp only [Matcher.repeated, Places.repeated]
    rw [h.timesFirst, findSome?_toList, Option.bind_map]
    congr 1
    funext c'
    rw [h.exhaust]
    rfl

end Matcher.Lists

/-- Running an expression is searching the places it can reach, in order of preference. -/
theorem run_eq_findSome? (ignoreCase : Bool) (r : Regex) :
    (r.run ignoreCase).Lists (r.ends ignoreCase) := by
  -- Where an expression goes on after another, the continuation is the search that follows; atomic
  -- groups and conditions look no further than the first place.
  induction r with
  | empty => intro c k; simp [run, ends]
  | char n => exact .one _
  | notChar n => exact .one _
  | any => exact .one _
  | set s => exact .one _
  | anchor a =>
    intro c k
    simp only [run, ends]
    split <;> simp
  | backref n =>
    intro c k
    simp only [run, ends]
    rw [findSome?_toList, Option.bind_assoc]
  | seq r s ihr ihs => exact ihr.andThen ihs
  | alt r s ihr ihs =>
    intro c k
    simp only [run, ends]
    rw [List.findSome?_append, ← ihr, ← ihs]
    cases run ignoreCase r c k <;> rfl
  | group n r ih =>
    intro c k
    simp only [run, ends]
    rw [ih, List.findSome?_map]
    rfl
  | atomic r ih =>
    intro c k
    simp only [run, ends]
    rw [ih.first, findSome?_toList]
  | ahead r ih =>
    intro c k
    simp only [run, ends]
    rw [ih.first, findSome?_toList, Option.bind_map]
    rfl
  | repeated r min max mode ih => exact ih.repeated min max mode

/-- A match from the start of a text ends at the first place of the list. -/
theorem matchStart_eq_head? (ignoreCase : Bool) (r : Regex) (cs : List Char) :
    r.matchStart ignoreCase cs = (r.ends ignoreCase (.atStart cs)).head? :=
  (run_eq_findSome? ignoreCase r).first _

/-- An expression matches a whole text if some place of the list is its end. -/
theorem matchesAll_iff (ignoreCase : Bool) (r : Regex) (cs : List Char) :
    r.matchesAll ignoreCase cs = true ↔ ∃ c ∈ r.ends ignoreCase (.atStart cs), c.rest = [] := by
  rw [matchesAll, run_eq_findSome?, List.findSome?_isSome_iff]
  simp

end SiteRouter.Regex
