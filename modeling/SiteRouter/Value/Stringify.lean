import SiteRouter.Fault

/-!
# Values as texts

The texts of values, where they are written. A value that is not written is refused.
-/

namespace SiteRouter.Value

/-- The value in a URL. -/
def stringify (v : Value) : Except Fault String :=
  if v.isWritable then .ok v.text else .error .wrongValue

/-- The value inside a longer text: a text is left as it is. -/
def format (v : Value) : Except Fault String :=
  if v.isWritable then .ok v.display else .error .wrongValue

@[simp] theorem stringify_str (s : String) : (str s).stringify = .ok s := by simp [stringify]

@[simp] theorem format_str (s : String) : (str s).format = .ok s := by simp [format, display]

end SiteRouter.Value
