import SiteRouter.Document.Yaml.Node
import SiteRouter.Document.Yaml.Scalar
import SiteRouter.Value.Mapping

/-!
# A reader of everyday YAML

The value of a document. A key that occurs again changes the value of its first occurrence, and keys
must be scalars. The entries of a mapping under the key `<<` come before the others.

What reads files takes its reader of YAML as a parameter, and whatever is stated of it is stated for
every reader. `parse` is one to run the program with. It knows scalars, block and flow collections
and comments, and refuses anchors, aliases, tags, block scalars and directives; a date is a text.
-/

namespace SiteRouter.Document.Yaml

namespace Node

/-- Whether the node is the plain scalar with a text. -/
def isWord (word : String) : Node → Bool
  | scalar text plain => plain && text == word.toList
  | _ => false

/-- The entries of a value that is a mapping. -/
def entriesOf : Value → Except Fault Mapping
  | .map m => .ok m
  | _ => .error .badYaml

/-- The entries that a value under the key `<<` stands for: those of a mapping, or those of several,
of which the earlier ones win. -/
def mergedEntries : Value → Except Fault Mapping
  | .map m => .ok m
  | .list items => (items.reverse.mapM entriesOf).map List.flatten
  | _ => .error .badYaml

mutual

/-- The value of a node. -/
def value : Node → Except Fault Value
  | scalar text plain =>
    if !plain then .ok (.str (String.ofList text))
    else if text = ['='] || text = ['<', '<'] then .error .badYaml
    else resolve text
  | sequence items => (values items).map .list
  | mapping entries => do
    let (merged, own) ← split entries
    return .map (Mapping.ofPairs (merged ++ own))

/-- The values of nodes, in order. -/
def values : List Node → Except Fault (List Value)
  | [] => .ok []
  | n :: ns => do
    let v ← n.value
    let vs ← values ns
    return v :: vs

/-- The entries that a mapping takes over under the key `<<`, and its own, in order. -/
def split : List (Node × Node) → Except Fault (Mapping × Mapping)
  | [] => .ok ([], [])
  | (k, v) :: rest => do
    if k.isWord "<<" then
      let taken ← v.value
      let taken ← mergedEntries taken
      let (merged, own) ← split rest
      return (taken ++ merged, own)
    else
      let key ← if k.isWord "=" then .ok (.str "=") else k.value
      let v ← v.value
      if !key.isKey then .error .badYaml
      else
        let (merged, own) ← split rest
        return (merged, (key, v) :: own)

end

end Node

/-- The value of a text with at most one document; a text without a document stands for nothing. -/
def parse (s : String) : Except Fault Value := do
  match ← Node.ofTokens? (← tokens s.toList) with
  | none => return .null
  | some n => n.value

end SiteRouter.Document.Yaml
