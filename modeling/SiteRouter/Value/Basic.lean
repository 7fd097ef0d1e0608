import SiteRouter.Value.Binary64

/-!
# Values

What parameters, metadata, settings and documents hold. A sequence is a list or a tuple, a mapping
keeps its entries in order, and a registration or a club can be handed over as a value too. A
document may also hold objects, such as a date, octets or a set. Nothing looks inside them, so an
object is given by what can be asked of it.

A text, here and wherever texts are read or written, is a list of Unicode scalar values. Surrogate
code points, U+D800 to U+DFFF, are none, so no text holds one by itself: every text can be encoded
in UTF-8, and nothing is said of texts with lone surrogates, which could not.
-/

namespace SiteRouter

/-- What can be asked of a value that no text, number, sequence or mapping stands for. -/
structure Object where
  /-- The name of its kind. -/
  kind : String
  /-- The objects that it is compared with: those on the same scale. -/
  scale : String
  /-- Its place on the scale. -/
  mark : String
  /-- Whether it counts as given. -/
  given : Bool
  /-- Whether it may be a key. -/
  isKey : Bool
  /-- Whether it has elements. -/
  hasElements : Bool
  /-- Whether it has the operations of texts, as octets have, though not together with texts. -/
  isOctets : Bool
  /-- It inside a longer text. -/
  display : String
  /-- It as messages show it. -/
  literal : String

/-- Whether two objects are equal. -/
def Object.same (a b : Object) : Bool := a.scale == b.scale && a.mark == b.mark

/-- A value. -/
inductive Value where
  | null
  | bool (b : Bool)
  | int (i : Int)
  | float (x : Binary64)
  | str (s : String)
  | list (items : List Value)
  | tuple (items : List Value)
  | map (entries : List (Value × Value))
  /-- A route registration given field by field. -/
  | spec (name pattern page info : Value)
  /-- A club with its folder and its own domain. -/
  | tenant (folder domain : Value)
  /-- An object, and its elements if it has any. -/
  | object (o : Object) (elements : List Value)
deriving Inhabited

namespace Value

/-- Whether the value counts as given: anything but nothing, falsehood, zeros and what is empty. -/
def truthy : Value → Bool
  | null => false
  | bool b => b
  | int i => i != 0
  | float x => !x.isZero
  | str s => s != ""
  | list items => !items.isEmpty
  | tuple items => !items.isEmpty
  | map entries => !entries.isEmpty
  | spec _ _ _ _ => true
  | tenant _ _ => true
  | object o _ => o.given

/-- The value if it counts as given, and another one otherwise. -/
def orElse (v other : Value) : Value := if v.truthy then v else other

/-- Whether the value is nothing. -/
def isNull : Value → Bool
  | null => true
  | _ => false

/-- The elements of a list or tuple. -/
def sequence? : Value → Option (List Value)
  | list items => some items
  | tuple items => some items
  | _ => none

/-- The integer that a truth value or an integer counts as. -/
def integer? : Value → Option Int
  | bool b => some (if b then 1 else 0)
  | int i => some i
  | _ => none

/-- Whether an integer and a floating-point number are equal. -/
def sameNumber (i : Int) (x : Binary64) : Bool := x.toInt? == some i

mutual

/-- Whether two values are equal. Numbers are compared by what they count, truth values as 0 and 1;
the order of a mapping does not matter. -/
def same : Value → Value → Bool
  | null, null => true
  | bool a, v => v.integer? == some (if a then 1 else 0) ||
      (match v with | float x => sameNumber (if a then 1 else 0) x | _ => false)
  | int a, v => v.integer? == some a || (match v with | float x => sameNumber a x | _ => false)
  | float x, float y => x.same y
  | float x, v => v.integer?.any (sameNumber · x)
  | str a, str b => a == b
  | list as, list bs => sameAll as bs
  | tuple as, tuple bs => sameAll as bs
  | map as, map bs => as.length == bs.length && sameEntries as bs
  | spec a b c d, spec a' b' c' d' => same a a' && same b b' && same c c' && same d d'
  | tenant a b, tenant a' b' => same a a' && same b b'
  | object o _, object o' _ => o.same o'
  | _, _ => false

/-- Whether two sequences hold equal values in the same order. -/
def sameAll : List Value → List Value → Bool
  | [], [] => true
  | a :: as, b :: bs => same a b && sameAll as bs
  | _, _ => false

/-- Whether every entry has an equal one among the others. -/
def sameEntries : List (Value × Value) → List (Value × Value) → Bool
  | [], _ => true
  | (k, v) :: rest, others => others.any (fun (k', v') => same k k' && same v v') &&
      sameEntries rest others

end

/-- Text equals text alone, and by its characters. -/
@[simp] theorem same_str (a b : String) : same (str a) (str b) = (a == b) := by
  simp [same]

/-- Only a text equals a text. -/
theorem same_str_iff {v : Value} {s : String} : v.same (str s) = true ↔ v = str s := by
  cases v <;> simp [same, integer?]

/-- A text equals only a text. -/
theorem str_same_iff {s : String} {v : Value} : (str s).same v = true ↔ v = str s := by
  cases v with
  | str t =>
    rw [same_str, beq_iff_eq, str.injEq]
    exact eq_comm
  | _ => simp [same]

/-- Only nothing equals nothing. -/
theorem same_null_iff {v : Value} : null.same v = true ↔ v = null := by
  cases v <;> simp [same]

mutual

/-- Whether the value may be a key: it and what it holds never changes. -/
def isKey : Value → Bool
  | list _ => false
  | map _ => false
  | tuple items => areKeys items
  | spec _ _ _ _ => false
  | tenant folder domain => isKey folder && isKey domain
  | object o _ => o.isKey
  | _ => true

/-- Whether all of the values may be keys. -/
def areKeys : List Value → Bool
  | [] => true
  | v :: vs => isKey v && areKeys vs

end

/-- The name of the kind of a value. -/
def kind : Value → String
  | null => "NoneType"
  | bool _ => "bool"
  | int _ => "int"
  | float _ => "float"
  | str _ => "str"
  | list _ => "list"
  | tuple _ => "tuple"
  | map _ => "dict"
  | spec _ _ _ _ => "RouteSpec"
  | tenant _ _ => "Tenant"
  | object o _ => o.kind

end Value

end SiteRouter
