import SiteRouter.Value.Basic
import SiteRouter.Text.Quoted

/-!
# The text of a value

`Value.literal` writes a value the way messages show it, with quoted texts and brackets,
`Value.display` does the same but leaves a text as it is, and `Value.text` is the form a value takes
in a URL: truth values in lower case, nothing as the empty text, and a whole number without a
fraction. An integer of more than 4300 digits is not written, and nothing that holds one is
(`Value.isWritable`): what writes a value asks for that first.
-/

namespace SiteRouter.Value

/-- The texts with a comma and a blank between them. -/
def commas (parts : List String) : String := String.intercalate ", " parts

/-- The text of a tuple: a single element is followed by a comma. -/
def tupleText : List String → String
  | [part] => "(" ++ part ++ ",)"
  | parts => "(" ++ commas parts ++ ")"

mutual

/-- The value as messages show it. -/
def literal : Value → String
  | null => "None"
  | bool b => if b then "True" else "False"
  | int i => toString i
  | float x => x.text
  | str s => Text.quoted s
  | list items => "[" ++ commas (literals items) ++ "]"
  | tuple items => tupleText (literals items)
  | map entries => "\x7b" ++ commas (entryLiterals entries) ++ "\x7d"
  | spec name pattern page info =>
    "RouteSpec(name=" ++ literal name ++ ", pattern=" ++ literal pattern ++ ", page=" ++
      literal page ++ ", meta=" ++ literal info ++ ", form=<RegistrationForm.DESCRIPTOR: 5>)"
  | tenant folder domain =>
    "Tenant(folder=" ++ literal folder ++ ", external_domain=" ++ literal domain ++ ")"
  | object o _ => o.literal

/-- The elements of a sequence as messages show them. -/
def literals : List Value → List String
  | [] => []
  | v :: vs => literal v :: literals vs

/-- The entries of a mapping as messages show them. -/
def entryLiterals : List (Value × Value) → List String
  | [] => []
  | (k, v) :: rest => (literal k ++ ": " ++ literal v) :: entryLiterals rest

end

/-- The value inside a longer text: a text is left as it is. -/
def display : Value → String
  | str s => s
  | object o _ => o.display
  | v => v.literal

/-- The value in a URL. -/
def text : Value → String
  | null => ""
  | bool b => if b then "true" else "false"
  | float x =>
    match x.toInt? with
    | some i => toString i
    | none => x.text
  | v => v.display

/-! ## What is written -/

/-- The most digits of an integer that is written. -/
def digitLimit : Nat := 4300

mutual

/-- Whether the value is written: no integer in it has too many digits. -/
def isWritable : Value → Bool
  | int i => (Nat.toDigits 10 i.natAbs).length ≤ digitLimit
  | list items => areWritable items
  | tuple items => areWritable items
  | map entries => areEntriesWritable entries
  | spec name pattern page info =>
    isWritable name && isWritable pattern && isWritable page && isWritable info
  | tenant folder domain => isWritable folder && isWritable domain
  | object _ elements => areWritable elements
  | _ => true

/-- Whether all of the values are written. -/
def areWritable : List Value → Bool
  | [] => true
  | v :: vs => isWritable v && areWritable vs

/-- Whether all of the entries are written. -/
def areEntriesWritable : List (Value × Value) → Bool
  | [] => true
  | (k, v) :: rest => isWritable k && isWritable v && areEntriesWritable rest

end

@[simp] theorem isWritable_null : null.isWritable = true := by simp [isWritable]

@[simp] theorem isWritable_bool (b : Bool) : (bool b).isWritable = true := by simp [isWritable]

@[simp] theorem isWritable_float (x : Binary64) : (float x).isWritable = true := by
  simp [isWritable]

@[simp] theorem isWritable_str (s : String) : (str s).isWritable = true := by simp [isWritable]

/-- Values are written if each of them is. -/
theorem areWritable_iff {vs : List Value} :
    areWritable vs = true ↔ ∀ v ∈ vs, v.isWritable = true := by
  induction vs with
  | nil => simp [areWritable]
  | cons v vs ih => rw [areWritable, Bool.and_eq_true, ih, List.forall_mem_cons]

@[simp] theorem text_str (s : String) : (str s).text = s := rfl

@[simp] theorem text_null : null.text = "" := rfl

end SiteRouter.Value
