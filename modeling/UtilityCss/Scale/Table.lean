/-
Tables of texts, written with string literals.

* `table entries` — the entries, keys and values as texts, in the given order.
-/
import UtilityCss.Text.Basic

namespace UtilityCss

/-- Keys and values as texts, in the given order. -/
def table (entries : List (String × String)) : List (Text × Text) :=
  entries.map fun (key, value) => (key, value)

end UtilityCss
