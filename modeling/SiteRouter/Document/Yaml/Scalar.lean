import SiteRouter.Value.Basic
import SiteRouter.Fault
import SiteRouter.Text.Hex

/-!
# Plain scalars

What a scalar without quotes stands for: nothing, a truth value, a number in one of several
notations, or the text itself.
-/

namespace SiteRouter.Document.Yaml

open Text

/-- The words for truth. -/
def trueWords : List String := ["yes", "Yes", "YES", "true", "True", "TRUE", "on", "On", "ON"]

/-- The words for falsehood. -/
def falseWords : List String :=
  ["no", "No", "NO", "false", "False", "FALSE", "off", "Off", "OFF"]

/-- The words for nothing. -/
def nullWords : List String := ["~", "null", "Null", "NULL", ""]

/-- Whether the text starts with a digit and goes on with digits and low lines. -/
def isDigits (cs : List Char) : Bool :=
  cs.head?.any Char.isDigit && cs.all fun c => c.isDigit || c = '_'

/-- The text without low lines. -/
def withoutLines (cs : List Char) : List Char := cs.filter (· != '_')

/-- The number that digits of a base stand for. -/
def valueIn (base : Nat) (cs : List Char) : Nat :=
  cs.foldl (fun n c => n * base + ((hexValue? c).getD 0)) 0

/-- The parts of a text between colons. -/
def colonParts : List Char → List (List Char)
  | [] => [[]]
  | c :: cs =>
    if c = ':' then [] :: colonParts cs
    else
      match colonParts cs with
      | part :: parts => (c :: part) :: parts
      | [] => [[c]]

/-- Whether the text is a number below sixty with one or two digits. -/
def isSixtieth : List Char → Bool
  | [c] => c.isDigit
  | [c, d] => '0' ≤ c && c ≤ '5' && d.isDigit
  | _ => false

/-- The number that digits of a base stand for, with low lines between them; there must be a
digit. -/
def digitsIn (base : Nat) (cs : List Char) : Except Fault Nat :=
  let ds := withoutLines cs
  if ds.isEmpty then .error .wrongValue else .ok (valueIn base ds)

/-- The number that decimal digits stand for, with low lines between them; there are at most 4300
digits. -/
def decimal (cs : List Char) : Except Fault Nat :=
  let ds := withoutLines cs
  if 4300 < ds.length then .error .wrongValue else .ok (valueIn 10 ds)

/-- The magnitude of an integer, if the text is one: binary, octal, hexadecimal, decimal or in base
sixty. -/
def magnitude? (cs : List Char) : Option (Except Fault Nat) :=
  match cs with
  | '0' :: 'b' :: ds =>
    if !ds.isEmpty && ds.all (fun c => c = '0' || c = '1' || c = '_') then some (digitsIn 2 ds)
    else none
  | '0' :: 'x' :: ds =>
    if !ds.isEmpty && ds.all (fun c => (hexValue? c).isSome || c = '_') then
      some (digitsIn 16 ds)
    else none
  | ['0'] => some (.ok 0)
  | '0' :: ds =>
    if ds.all (fun c => ('0' ≤ c && c ≤ '7') || c = '_') then
      some (.ok (valueIn 8 (withoutLines ds)))
    else none
  | cs =>
    match colonParts cs with
    | [ds] => if isDigits ds then some (decimal ds) else none
    | ds :: parts =>
      if isDigits ds && parts.all isSixtieth then
        some ((decimal ds).map fun n => parts.foldl (fun n part => n * 60 + valueIn 10 part) n)
      else none
    | [] => none

/-- The integer that a text stands for, if it is written as one. -/
def integer? (cs : List Char) : Option (Except Fault Int) :=
  let (negative, ds) := Binary64.splitSign cs
  (magnitude? ds).map (·.map fun n => if negative then -(n : Int) else n)

/-- Whether the text is an exponent with a sign, or nothing. -/
def isSignedExponent (cs : List Char) : Bool :=
  match cs with
  | [] => true
  | e :: sign :: ds =>
    (e = 'e' || e = 'E') && (sign = '+' || sign = '-') && !ds.isEmpty && ds.all Char.isDigit
  | _ => false

/-- The number with a point that a text without sign stands for: digits may be missing before the
point only where no sign was given. -/
def pointed? (negative signed : Bool) (cs : List Char) : Option Binary64 :=
  let whole := cs.takeWhile fun c => c.isDigit || c = '_'
  match cs.drop whole.length with
  | '.' :: rest =>
    let fraction := rest.takeWhile fun c => c.isDigit || c = '_'
    let exponent := rest.drop fraction.length
    if isSignedExponent exponent &&
        (isDigits whole || (whole.isEmpty && !signed && isDigits fraction)) then
      Binary64.ofPlain? negative
        (withoutLines whole ++ '.' :: withoutLines fraction ++ exponent)
    else none
  | _ => none

/-- A number and whole parts before it in base sixty, the nearest first; every step is rounded. -/
def addSixtieths : Binary64 → Nat → List Nat → Binary64
  | x, _, [] => x
  | x, unit, n :: ns =>
    addSixtieths (x.plusWhole (Binary64.nearestWhole (Binary64.nearestWhole n * unit))) (unit * 60) ns

/-- The number in base sixty with a point that a text stands for. -/
def sixtyPointed? (negative : Bool) (cs : List Char) : Option Binary64 :=
  let whole := cs.takeWhile (· != '.')
  let fraction := cs.dropWhile (· != '.')
  match colonParts whole with
  | ds :: part :: parts =>
    if isDigits ds && (part :: parts).all isSixtieth && fraction.head? = some '.' &&
        (fraction.drop 1).all (fun c => c.isDigit || c = '_') then
      match (ds :: part :: parts).reverse with
      | last :: before =>
        (Binary64.ofPlain? false (last ++ withoutLines fraction)).map fun x =>
          (addSixtieths x 60 (before.map fun part => valueIn 10 (withoutLines part))).withSign
            negative
      | [] => none
    else none
  | _ => none

/-- The number that a text with a point stands for. -/
def float? (cs : List Char) : Option Binary64 :=
  let signed := cs.head? = some '-' || cs.head? = some '+'
  let (negative, ds) := Binary64.splitSign cs
  let word := String.ofList ds
  if [".inf", ".Inf", ".INF"].contains word then some (.infinite negative)
  else if !signed && [".nan", ".NaN", ".NAN"].contains word then some .nan
  else
    match pointed? negative signed ds with
    | some x => some x
    | none => sixtyPointed? negative ds

/-- What a plain scalar stands for. -/
def resolve (cs : List Char) : Except Fault Value :=
  let s := String.ofList cs
  if trueWords.contains s then .ok (.bool true)
  else if falseWords.contains s then .ok (.bool false)
  else if nullWords.contains s then .ok .null
  else
    match float? cs with
    | some x => .ok (.float x)
    | none =>
      match integer? cs with
      | some i => i.map .int
      | none => .ok (.str s)

end SiteRouter.Document.Yaml
