import SiteRouter.Value.Mapping
import SiteRouter.Fault

/-!
# Values as mappings

Where a mapping is expected, a sequence of pairs serves as well. A pair is anything with two
elements: a sequence, a text of two characters, or a mapping with two keys.
-/

namespace SiteRouter.Value

/-- The elements of a value that has elements. -/
def elements? : Value → Option (List Value)
  | list items => some items
  | tuple items => some items
  | str s => some (s.toList.map fun c => .str (String.singleton c))
  | map entries => some (entries.map Prod.fst)
  | object o elements => if o.hasElements then some elements else none
  | _ => none

/-- The pair that a value stands for. -/
def pair (v : Value) : Except Fault (Value × Value) :=
  match v.elements? with
  | none => .error .wrongKind
  | some [k, v] => if k.isKey then .ok (k, v) else .error .wrongKind
  | some _ => .error .wrongValue

/-- The mapping that results from entering the pairs in turn. -/
def enterPairs (m : Mapping) : List Value → Except Fault Mapping
  | [] => .ok m
  | v :: vs => do
    let (k, v) ← v.pair
    enterPairs (m.put k v) vs

/-- The mapping that a value stands for. -/
def toMapping : Value → Except Fault Mapping
  | map entries => .ok entries
  | v =>
    match v.elements? with
    | none => .error .wrongKind
    | some items => enterPairs [] items

/-- The mapping that a value stands for; a value that does not count as given is an empty one. -/
def toMappingOrEmpty (v : Value) : Except Fault Mapping :=
  if v.truthy then v.toMapping else .ok []

/-- The text of a value that must be one. -/
def asText : Value → Except Fault String
  | str s => .ok s
  | _ => .error .wrongKind

/-- The fault of a value that is no text and is asked to do what texts do: octets can do it, but not
with texts. -/
def textFault : Value → Fault
  | object o _ => if o.isOctets then .wrongKind else .missingOperation
  | _ => .missingOperation

/-- The texts of keys that must all be texts, in order. -/
def sortedNames (keys : List Value) : Except Fault (List String) :=
  (keys.mapM asText).map (·.mergeSort (· ≤ ·))

end SiteRouter.Value
