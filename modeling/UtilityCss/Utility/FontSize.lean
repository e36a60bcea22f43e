/-
Type size utilities: `text-` with a key of the type scale.

* `FontSize.ofToken?` — the type size a token spells.
-/
import UtilityCss.Scale.Length
import UtilityCss.Declaration

namespace UtilityCss

/-- A font size with its line height. -/
structure FontSize where
  size : Text
  lineHeight : Text
  deriving DecidableEq

namespace FontSize

/-- The type size utility a token spells. -/
def ofToken? (token : Text) : Option FontSize := do
  let key ← Text.consume? "text-" token
  let (size, lineHeight) ← fontSizes.lookup key
  some ⟨size, lineHeight⟩

/-- The declarations of a type size utility. -/
def declarations (f : FontSize) : List Declaration :=
  [⟨"font-size", f.size⟩, ⟨"line-height", f.lineHeight⟩]

end FontSize

end UtilityCss
