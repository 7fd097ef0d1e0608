import SiteRouter.Value.Basic

/-!
# Mappings

A mapping is a list of entries with different keys, in the order in which the keys were first
entered. Entering a key again changes its value and keeps its place.
-/

namespace SiteRouter

/-- Entries with different keys, in the order of entry. -/
abbrev Mapping := List (Value × Value)

namespace Mapping

/-- The value entered for a key. -/
def get? : Mapping → Value → Option Value
  | [], _ => none
  | (k, v) :: rest, key => if k.same key then some v else get? rest key

/-- The value entered for a key, or nothing. -/
def getD (m : Mapping) (key : Value) : Value := (m.get? key).getD .null

/-- Whether a value is entered for a key. -/
def has (m : Mapping) (key : Value) : Bool := (m.get? key).isSome

/-- Enters a value for a key. -/
def put : Mapping → Value → Value → Mapping
  | [], key, value => [(key, value)]
  | (k, v) :: rest, key, value =>
    if k.same key then (k, value) :: rest else (k, v) :: put rest key value

/-- Enters the entries of another mapping in turn. -/
def putAll (m : Mapping) (entries : List (Value × Value)) : Mapping :=
  entries.foldl (fun m (k, v) => m.put k v) m

/-- The mapping that results from entering pairs in turn. -/
def ofPairs (entries : List (Value × Value)) : Mapping := putAll [] entries

/-- The keys in order. -/
def keys (m : Mapping) : List Value := m.map Prod.fst

@[simp] theorem get?_nil (key : Value) : get? [] key = none := rfl

end Mapping

end SiteRouter
