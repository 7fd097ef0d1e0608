import SiteRouter.Value.Display

/-!
# Parameter keys

The captures of a pattern are bound under keys: a name, or the position among the captures without
one.
-/

namespace SiteRouter

/-- What a capture is bound under. -/
inductive Key where
  | named (name : String)
  | position (n : Nat)
deriving DecidableEq, Repr

namespace Key

/-- The key as the key of a mapping. -/
def toValue : Key → Value
  | named name => .str name
  | position n => .int n

/-- The key in a message. -/
def text : Key → String
  | named name => name
  | position n => toString n

/-- The name of a key that is one. -/
def name? : Key → Option String
  | named name => some name
  | position _ => none

end Key

end SiteRouter
