import SiteRouter.Text.CaseTable

/-!
# Upper and lower case

`lower` and `upper` give the counterpart of one character, `lowercase` and `uppercase` those of a
text. Two letters count as equal without regard to case when their lower cases are equal or are
letters that share their upper case, as `s` and the long `ſ` do; `sameLetter` decides it.
-/

namespace SiteRouter.Text

namespace CaseRun

/-- Whether the run maps the code point. -/
def holds (r : CaseRun) (n : Nat) : Bool :=
  r.first ≤ n && n ≤ r.last && (n - r.first) % r.step == 0

/-- The counterpart of a code point that the run holds. -/
def image (r : CaseRun) (n : Nat) : Nat := r.target + (n - r.first)

/-- The code point of the run with the given counterpart. -/
def preimage? (r : CaseRun) (n : Nat) : Option Nat :=
  if r.target ≤ n && r.holds (r.first + (n - r.target)) then
    some (r.first + (n - r.target))
  else none

/-- The counterpart of a code point in a table of runs, or the code point itself. -/
def mapIn : List CaseRun → Nat → Nat
  | [], n => n
  | r :: rest, n => if n < r.first then n else if r.holds n then r.image n else mapIn rest n

end CaseRun

/-- The lower-case counterpart of a code point, or the code point itself. -/
def lowerCode (n : Nat) : Nat := CaseRun.mapIn lowerRuns n

/-- The upper-case text of a code point, mostly one character. -/
def upperCodes (n : Nat) : List Nat :=
  match upperExpansions.lookup n with
  | some ns => ns
  | none => [CaseRun.mapIn upperRuns n]

/-- The first character of the upper-case text of a code point. -/
def upperCode (n : Nat) : Nat := (upperCodes n).headD n

/-- The code points whose lower case is the given one. -/
def lowerSources (n : Nat) : List Nat :=
  let others := lowerRuns.filterMap (·.preimage? n)
  if lowerCode n = n then n :: others else others

/-- The lower-case code points that share their upper case with the given lower-case one: itself
and those listed beside it. -/
def caseMates (n : Nat) : List Nat := n :: (upperCaseMates.lookup n).getD []

/-- Whether two code points are the same letter without regard to case. -/
def sameLetter (m n : Nat) : Bool := (caseMates (lowerCode m)).contains (lowerCode n)

/-- A letter is the same letter as itself. -/
@[simp] theorem sameLetter_self (n : Nat) : sameLetter n n = true := by
  simp [sameLetter, caseMates]

/-- Whether the character decides the case of its neighbours. -/
def isCased (c : Char) : Bool := casedRanges.covers c.toNat

/-- Whether case rules look through the character. -/
def isCaseIgnorable (c : Char) : Bool := caseIgnorableRanges.covers c.toNat

/-- Whether the nearest character that case rules do not look through is cased. -/
def nearestIsCased : List Char → Bool
  | [] => false
  | c :: cs => if isCaseIgnorable c then nearestIsCased cs else isCased c

/-- The lower case of one character between the text before it, nearest first, and the text after
it. A capital sigma that ends a word becomes the final sigma, and a capital `I` with a dot keeps
the dot as a mark of its own. -/
def lowerBetween (before : List Char) (c : Char) (after : List Char) : List Char :=
  if c = 'Σ' then
    if nearestIsCased before && !nearestIsCased after then ['ς'] else ['σ']
  else if c = 'İ' then ['i', Char.ofNat 0x307]
  else [Char.ofNat (lowerCode c.toNat)]

/-- The lower case of the characters after those already read, which stand nearest first. -/
def lowerFrom (before : List Char) : List Char → List Char
  | [] => []
  | c :: cs => lowerBetween before c cs ++ lowerFrom (c :: before) cs

/-- The text in lower case. -/
def lowercase (s : String) : String := String.ofList (lowerFrom [] s.toList)

/-- The text in upper case. -/
def uppercase (s : String) : String :=
  String.ofList (s.toList.flatMap fun c => (upperCodes c.toNat).map Char.ofNat)

end SiteRouter.Text
