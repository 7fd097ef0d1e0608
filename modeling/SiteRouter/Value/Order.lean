import SiteRouter.Value.Basic

/-!
# The order of values

Texts are ordered by their characters, numbers by what they count, tuples by their first different
elements, and the objects that may be keys by their marks. Values of different kinds have no order.
-/

namespace SiteRouter

/-- Whether a number is below another; `nan` is below nothing. -/
def Binary64.below : Binary64 → Binary64 → Bool
  | nan, _ => false
  | _, nan => false
  | infinite a, infinite b => a && !b
  | infinite a, finite _ _ _ => a
  | finite _ _ _, infinite b => !b
  | finite a m e, finite b n f =>
    let least := min e f
    let x : Int := m * twoTo (e - least)
    let y : Int := n * twoTo (f - least)
    (if a then -x else x) < (if b then -y else y)

namespace Value

/-- The floating-point form of a number, with an integer as it is. -/
def number? : Value → Option Binary64
  | bool b => some (.finite false (if b then 1 else 0) 0)
  | int i => some (.finite (i < 0) i.natAbs 0)
  | float x => some x
  | _ => none

mutual

/-- Whether a value is below another, if the two have an order. -/
def below? : Value → Value → Option Bool
  | str a, str b => some (a < b)
  | tuple as, tuple bs => belowAll? as bs
  | list as, list bs => belowAll? as bs
  | object o _, object o' _ => if o.scale = o'.scale then some (o.mark < o'.mark) else none
  | a, b =>
    match a.number?, b.number? with
    | some x, some y => some (x.below y)
    | _, _ => none

/-- Whether a sequence is below another: by their first different elements, or as the shorter. -/
def belowAll? : List Value → List Value → Option Bool
  | [], bs => some (!bs.isEmpty)
  | _ :: _, [] => some false
  | a :: as, b :: bs => if a.same b then belowAll? as bs else below? a b

end

/-- Puts a value into an ordered list, before the first one that it is below. -/
def insertSorted (v : Value) : List Value → Option (List Value)
  | [] => some [v]
  | w :: ws =>
    match below? v w with
    | none => none
    | some true => some (v :: w :: ws)
    | some false => (insertSorted v ws).map (w :: ·)

/-- The values in order, if all of them have one. -/
def sorted? (vs : List Value) : Option (List Value) :=
  vs.foldlM (fun ws v => insertSorted v ws) []

end Value

end SiteRouter
