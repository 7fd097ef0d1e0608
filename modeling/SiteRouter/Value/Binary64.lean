import SiteRouter.Text.Digit
import SiteRouter.Text.Blank
import SiteRouter.Text.Case

/-!
# Binary floating point of 64 bits

Numbers with a significand of 53 bits, in exact arithmetic: reading a decimal text rounds to the
nearest number, ties to the even significand, and `text` writes the fewest digits that read back,
the nearest of those. A number is written with a point if its first digit stands between the fourth
place after the point and the sixteenth before it, and with an exponent of at least two digits
otherwise.
-/

namespace SiteRouter

/-- A floating-point number of 64 bits. A finite one is its significand times a power of two, with a
significand of 53 bits unless the exponent is the least one, -1074. -/
inductive Binary64 where
  | nan
  | infinite (negative : Bool)
  | finite (negative : Bool) (significand : Nat) (exponent : Int)
deriving DecidableEq, Repr

namespace Binary64

/-- The least exponent. -/
def minExponent : Int := -1074

/-- The greatest exponent. -/
def maxExponent : Int := 971

/-- Two to a power; a negative exponent counts as 0. -/
def twoTo (e : Int) : Nat := Nat.pow 2 e.toNat

/-- Ten to a power; a negative exponent counts as 0. -/
def tenTo (e : Int) : Nat := Nat.pow 10 e.toNat

/-- The least significand of 53 bits. -/
def leastFull : Nat := twoTo 52

/-- The quotient rounded to the nearest number, a tie to the even one. -/
def roundDiv (num den : Nat) : Nat :=
  let q := num / den
  let r := num % den
  if 2 * r < den then q
  else if den < 2 * r then q + 1
  else if q % 2 = 0 then q else q + 1

/-- The quotient `num / (den * 2 ^ e)` as a quotient of natural numbers. -/
def scaled (num den : Nat) (e : Int) : Nat × Nat :=
  (num * twoTo (-e), den * twoTo e)

/-- The number nearest to a quotient. -/
def ofQuotient (negative : Bool) (num den : Nat) : Binary64 :=
  if num = 0 then .finite negative 0 minExponent
  else
    let guess : Int := (Nat.log2 num : Int) - (Nat.log2 den : Int) - 52
    let (a, b) := scaled num den guess
    let exact := if a / b < leastFull then guess - 1 else guess
    let e := max exact minExponent
    let (a, b) := scaled num den e
    let m := roundDiv a b
    let (m, e) := if m = 2 * leastFull then (leastFull, e + 1) else (m, e)
    if maxExponent < e then .infinite negative else .finite negative m e

/-- The number nearest to `digits * 10 ^ exponent`, with the number of digits to tell apart what is
out of range. -/
def ofDecimal (negative : Bool) (digits : Nat) (length : Nat) (exponent : Int) : Binary64 :=
  if digits = 0 then .finite negative 0 minExponent
  else if 400 < exponent + length then .infinite negative
  else if exponent + length < -400 then .finite negative 0 minExponent
  else ofQuotient negative (digits * tenTo exponent) (tenTo (-exponent))

/-- The number with a sign. -/
def withSign (negative : Bool) : Binary64 → Binary64
  | finite _ m e => finite negative m e
  | infinite _ => infinite negative
  | nan => nan

/-- The number nearest to the sum of a number that is not negative and a whole number. -/
def plusWhole : Binary64 → Nat → Binary64
  | finite _ m e, n => ofQuotient false (m * twoTo e + n * twoTo (-e)) (twoTo (-e))
  | x, _ => x

/-- Whether the number is a zero. -/
def isZero : Binary64 → Bool
  | finite _ 0 _ => true
  | _ => false

/-- The integer that the number is, if it is one. -/
def toInt? : Binary64 → Option Int
  | finite negative m e =>
    let n := m * twoTo e
    if n % twoTo (-e) = 0 then
      let n := n / twoTo (-e)
      some (if negative then -(n : Int) else n)
    else none
  | _ => none

/-- The whole number nearest to a whole number among those of 53 bits. -/
def nearestWhole (n : Nat) : Nat :=
  match (ofQuotient false n 1).toInt? with
  | some i => i.toNat
  | none => n

/-- Whether two numbers are equal: zeros are, whatever their signs, and `nan` equals nothing. -/
def same : Binary64 → Binary64 → Bool
  | nan, _ => false
  | _, nan => false
  | x, y => x == y || (x.isZero && y.isZero)

/-! ## Writing -/

/-- The least exponent `k` with `num < den * 10 ^ k`, among those near the given guess. -/
def tenExponent (num den : Nat) : Int :=
  let guess := Int.fdiv (((Nat.log2 num : Int) - (Nat.log2 den : Int)) * 30103) 100000
  let below (k : Int) : Bool := num * tenTo (-k) < den * tenTo k
  if below (guess - 1) then guess - 1
  else if below guess then guess
  else if below (guess + 1) then guess + 1
  else if below (guess + 2) then guess + 2
  else guess + 3

/-- The interval of the numbers that round to a positive one, with the number in it, as multiples
of a common unit `1 / den`: the lower end, the number, the upper end. -/
def interval (m : Nat) (e : Int) : Nat × Nat × Nat × Nat :=
  let below := if m = leastFull && minExponent < e then 4 * m - 1 else 4 * m - 2
  let (unit, den) := scaled 1 1 (-(e - 2))
  (below * unit, 4 * m * unit, (4 * m + 2) * unit, den)

/-- The point of a decimal grid nearest to the number, if one lies among the numbers that round to
it: of the two points around it, a tie going to the even digit. -/
def gridPoint? (m : Nat) (e : Int) (grid : Int) : Option Nat :=
  let (lo, x, hi, den) := interval m e
  let (up, down) := (tenTo grid, tenTo (-grid))
  let step := up * den
  let fits (n : Nat) : Bool :=
    if m % 2 = 0 then lo * down ≤ n * step && n * step ≤ hi * down
    else lo * down < n * step && n * step < hi * down
  let n := x * down / step
  let below := x * down - n * step
  let above := (n + 1) * step - x * down
  match fits n, fits (n + 1) with
  | true, true =>
    if below < above then some n
    else if above < below then some (n + 1)
    else if n % 2 = 0 then some n else some (n + 1)
  | true, false => some n
  | false, true => some (n + 1)
  | false, false => none

/-- The digits of a number without the zeros at their end, and how many those were. -/
def trimZeros : List Char → List Char × Nat
  | ds => ((ds.reverse.dropWhile (· == '0')).reverse, (ds.reverse.takeWhile (· == '0')).length)

/-- The fewest digits that read back, tried from the given number of digits on, and the place of
the point before or after them. -/
def shortestFrom (m : Nat) (e : Int) (k : Int) : Nat → Nat → List Char × Int
  | 0, _ => ([], 0)
  | fuel + 1, count =>
    match gridPoint? m e (k - count) with
    | some n =>
      let digits := Nat.toDigits 10 n
      ((trimZeros digits).1, k - count + digits.length)
    | none => shortestFrom m e k fuel (count + 1)

/-- The digits of a positive number and the place of the point, counted from before the first. -/
def shortest (m : Nat) (e : Int) : List Char × Int :=
  let (_, x, _, den) := interval m e
  shortestFrom m e (tenExponent x den) 17 1

/-- The digits with a point or an exponent. -/
def layOut (digits : List Char) (point : Int) : List Char :=
  if -4 < point && point ≤ 16 then
    if point ≤ 0 then '0' :: '.' :: (List.replicate (-point).toNat '0' ++ digits)
    else
      let whole := digits.take point.toNat
      let fraction := digits.drop point.toNat
      whole ++ List.replicate (point.toNat - whole.length) '0' ++
        '.' :: (if fraction.isEmpty then ['0'] else fraction)
  else
    let exponent := point - 1
    let power := Nat.toDigits 10 exponent.natAbs
    let mantissa := match digits with
      | d :: [] => [d]
      | d :: ds => d :: '.' :: ds
      | [] => []
    mantissa ++ 'e' :: (if exponent < 0 then '-' else '+') ::
      (if power.length < 2 then '0' :: power else power)

/-- The text of a number. -/
def text : Binary64 → String
  | nan => "nan"
  | infinite negative => if negative then "-inf" else "inf"
  | finite negative m e =>
    let sign := if negative then ['-'] else []
    if m = 0 then String.ofList (sign ++ ['0', '.', '0'])
    else
      let (digits, point) := shortest m e
      String.ofList (sign ++ layOut digits point)

/-! ## Reading -/

/-- Whether every low line stands between two digits. -/
def separatorsFit (isDigit : Char → Bool) : Option Char → List Char → Bool
  | _, [] => true
  | before, c :: cs =>
    (if c = '_' then before.any isDigit && cs.head?.any isDigit else true) &&
      separatorsFit isDigit (some c) cs

/-- The number that ASCII digits stand for. -/
def digitsValue (ds : List Char) : Nat :=
  ds.foldl (fun n c => n * 10 + (c.toNat - '0'.toNat)) 0

/-- A sign and what follows it. -/
def splitSign : List Char → Bool × List Char
  | '-' :: cs => (true, cs)
  | '+' :: cs => (false, cs)
  | cs => (false, cs)

/-- An exponent after a mantissa: nothing, or a letter, a sign and digits. -/
def exponentOf? : List Char → Option Int
  | [] => some 0
  | c :: cs =>
    if c = 'e' || c = 'E' then
      let (negative, ds) := splitSign cs
      if ds.isEmpty || !ds.all Char.isDigit then none
      else if negative then some (-(digitsValue ds : Int)) else some (digitsValue ds)
    else none

/-- The number written with ASCII digits, a point and an exponent. -/
def ofPlain? (negative : Bool) (cs : List Char) : Option Binary64 :=
  let whole := cs.takeWhile Char.isDigit
  let rest := cs.dropWhile Char.isDigit
  let (fraction, after) := match rest with
    | '.' :: r => (r.takeWhile Char.isDigit, r.dropWhile Char.isDigit)
    | r => ([], r)
  if whole.isEmpty && fraction.isEmpty then none
  else
    (exponentOf? after).map fun exponent =>
      let digits := whole ++ fraction
      ofDecimal negative (digitsValue digits) (digits.dropWhile (· == '0')).length
        (exponent - fraction.length)

/-- The digits of every script as ASCII digits. -/
def plainDigits (cs : List Char) : List Char :=
  cs.map fun c => match Text.digitValue? c with
    | some n => Char.ofNat ('0'.toNat + n)
    | none => c

/-- The number that a text stands for, with white space around it, low lines between its digits and
the words for infinity and for what is not a number in either case. -/
def ofText? (s : String) : Option Binary64 :=
  let trimmed := (s.toList.dropWhile Text.isBlank).reverse.dropWhile Text.isBlank
  let (negative, cs) := splitSign (plainDigits trimmed.reverse)
  let word := cs.map Char.toLower
  if word == "inf".toList || word == "infinity".toList then some (.infinite negative)
  else if word == "nan".toList then some .nan
  else if separatorsFit Char.isDigit none cs then
    ofPlain? negative (cs.filter (· != '_'))
  else none

end Binary64

end SiteRouter
